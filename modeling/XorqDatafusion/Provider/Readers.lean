import XorqDatafusion.Provider.Visits
import Mathlib.Logic.Function.Iterate

/-! Which readers serve several loops. -/
namespace XorqDatafusion.Provider

open Transition

variable {T α W I β : Type} {reader : PyReader T α W I} {wants : Given T α → Prop}
  {shown : RecordBatch T α → β} {ι : Type} [DecidableEq ι] {w : W}

/-- However loops over the reader interleave, one that comes to the end after batches alone has been
shown what the reader holds. -/
def PyReader.Reiterable (reader : PyReader T α W I) (wants : Given T α → Prop)
    (shown : RecordBatch T α → β) (ι : Type) [DecidableEq ι] (w : W) : Prop :=
  ∀ v, (reader.visits wants ι w).Reachable v → ∀ i (held : List (RecordBatch T α)),
    (v.2 i).given = held.map (some ∘ .ok) ++ [none] →
    ∃ fresh, reader.Holds w fresh ∧ held.map shown = fresh.map shown

/-- However loops over the reader interleave, each is given what it would be given alone. -/
def PyReader.Undisturbed (reader : PyReader T α W I) (wants : Given T α → Prop) (ι : Type)
    [DecidableEq ι] (w : W) : Prop :=
  ∀ v, (reader.visits wants ι w).Reachable v → ∀ i,
    (v.2 i).given = (List.range (v.2 i).given.length).map (reader.loop w)

theorem PyReader.Undisturbed.reiterable (h : reader.Undisturbed wants ι w) :
    reader.Reiterable wants shown ι w := by
  intro v hv i held hgiven
  refine ⟨held, holds_of_loop fun n hn => ?_, rfl⟩
  have hlt : n < (v.2 i).given.length := by
    rw [hgiven]
    simpa using Nat.lt_succ_of_le hn
  have hall : (held.map (some ∘ .ok) ++ [none])[n]? = some (reader.loop w n) := by
    rw [← hgiven, h v hv i, List.getElem?_map, List.getElem?_range hlt, Option.map_some]
  rcases Nat.lt_or_eq_of_le hn with hlt | rfl
  · rw [List.getElem?_append_left (by simpa using hlt)] at hall
    simpa [hlt] using hall.symm
  · simpa using hall.symm

/-- The reader is where the turns of this loop alone would have got it. -/
structure LoopAt (reader : PyReader T α W I) (w : W) (p : W × Visit T α I) : Prop where
  state : (p.2.iter, p.1) = reader.loopState w p.2.given.length
  given : p.2.given = (List.range p.2.given.length).map (reader.loop w)

theorem LoopAt.step {p q : W × Visit T α I} {g : Given T α} (h : LoopAt reader w p)
    (hs : (reader.visit wants).step p g q) : LoopAt reader w q := by
  obtain ⟨-, hturn, hgiven⟩ := hs
  have hloop : reader.turn (reader.loopState w p.2.given.length).1
      (reader.loopState w p.2.given.length).2 = (g, q.2.iter, q.1) := by
    rw [← h.state]
    exact hturn
  have hlen : q.2.given.length = p.2.given.length + 1 := by rw [hgiven]; simp
  constructor
  · rw [hlen, PyReader.loopState, hloop]
  · rw [hlen, List.range_succ, List.map_append, ← h.given, hgiven, List.map_singleton, PyReader.loop,
      hloop]

/-- A loop that is the only one has the reader to itself. -/
theorem undisturbed_of_subsingleton [Subsingleton ι] : reader.Undisturbed wants ι w := by
  intro v hv i
  have hloop : LoopAt reader w (v.1, v.2 i) := by
    refine System.reachable_invariant (I := fun v => LoopAt reader w (v.1, v.2 i)) ?_ ?_ hv
    · rintro ⟨w', vs⟩ ⟨rfl, hs⟩
      obtain hi : vs i = ⟨none, []⟩ := hs i
      constructor <;> simp [hi, PyReader.loopState]
    · rintro ⟨w₁, vs⟩ ⟨j, g⟩ _ ⟨w₂, v', hs, rfl⟩ h
      obtain rfl : j = i := Subsingleton.elim _ _
      simpa using h.step hs
  exact hloop.given

section SingleUse

variable {schema : Schema T} {batches : List (RecordBatch T α)}

/-- Whether it has an iterator already or not, a loop is given the next batch. -/
theorem turn_singleUse (iter : Option Unit) :
    (singleUse schema).turn iter batches = (batches.head?.map .ok, some (), batches.tail) := by
  cases iter <;> cases batches <;> rfl

/-- One loop may go on to the end while the others wait. -/
theorem drain_singleUse (schema : Schema T) {v : Visit T α Unit}
    (hb : ∀ b ∈ batches, wants (some (.ok b))) (hv : ∀ g ∈ v.given, wants g) :
    ∃ xs, ((singleUse schema).visit wants).solo.Run (batches, v) xs
      ([], ⟨some (), v.given ++ batches.map (some ∘ .ok) ++ [none]⟩) := by
  induction batches generalizing v with
  | nil => exact ⟨_, .single ⟨hv, turn_singleUse v.iter, by simp⟩⟩
  | cons batch rest ih =>
    obtain ⟨hbatch, hrest⟩ := List.forall_mem_cons.mp hb
    obtain ⟨xs, hx⟩ := ih (v := ⟨some (), v.given ++ [some (.ok batch)]⟩) hrest
      (List.forall_mem_append.mpr ⟨hv, by simpa using hbatch⟩)
    have hstep : ((singleUse schema).visit wants).step (batch :: rest, v) (some (.ok batch))
        (rest, ⟨some (), v.given ++ [some (.ok batch)]⟩) := ⟨hv, turn_singleUse v.iter, rfl⟩
    exact ⟨_, .stepL hstep (by simpa using hx)⟩

/-- A single-use reader with a batch in it does not serve two loops. -/
theorem singleUse_not_reiterable {i j : ι} (hij : i ≠ j) (hne : batches ≠ [])
    (hb : ∀ b ∈ batches, wants (some (.ok b))) :
    ¬(singleUse schema).Reiterable wants shown ι batches := by
  intro h
  obtain ⟨xs, hx⟩ := drain_singleUse schema (v := ⟨none, []⟩) hb (by simp)
  let loop (_ : ι) := (singleUse schema).visit wants
  obtain ⟨ys, hy⟩ : ∃ ys, (family loop batches).Run (batches, fun _ => ⟨none, []⟩) ys
      ([], Function.update (fun _ => ⟨none, []⟩) i _) := family_run (C := loop) hx _ rfl
  have hdone := ((visits_start (singleUse schema) wants ι batches).run hy).step (a := (j, none))
    ⟨[], ⟨some (), [none]⟩, ⟨by simp [hij.symm], by simp [hij.symm, turn_singleUse],
      by simp [hij.symm]⟩, rfl⟩
  obtain ⟨fresh, hholds, hshown⟩ := h _ hdone j [] (by simp)
  obtain rfl : fresh = [] := by simpa using hshown.symm
  obtain ⟨batch, rest, rfl⟩ := List.exists_cons_of_ne_nil hne
  have hfirst := loop_of_holds hholds (Nat.zero_le _)
  simp [PyReader.loop, PyReader.loopState, turn_singleUse] at hfirst

end SingleUse

section OwnPlaces

variable [DecidableEq I] {P : Type} {place : W → I → Option P} {first : P}
  {turn : P → Given T α × P} {iter : Option I} {n : ℕ}

/-- The iterators have places of their own: `place w` says where each of them is. Every one starts
at `first`, `turn` is what a call finds at a place and where it goes from there, and no call moves
another iterator. -/
structure PyReader.OwnPlaces (reader : PyReader T α W I) (place : W → I → Option P) (first : P)
    (turn : P → Given T α × P) : Prop where
  iter : ∀ w, ∃ it w', reader.iter w = (.ok it, w') ∧ place w it = none ∧
    place w' = Function.update (place w) it (some first)
  next : ∀ w it p, place w it = some p → ∃ w', reader.next it w = ((turn p).1, w') ∧
    place w' = Function.update (place w) it (some (turn p).2)

/-- Where an iterator is after `n` calls. -/
def turns (first : P) (turn : P → Given T α × P) (n : ℕ) : P := (fun p => (turn p).2)^[n] first

/-- A loop that has had `n` turns. -/
def StandsAt (place : W → I → Option P) (first : P) (turn : P → Given T α × P) (n : ℕ) (w : W) :
    Option I → Prop
  | none => n = 0
  | some it => place w it = some (turns first turn n)

/-- A turn moves the loop's own iterator by one, and no other. -/
theorem turn_ownPlaces (h : reader.OwnPlaces place first turn)
    (hs : StandsAt place first turn n w iter) :
    ∃ it w', reader.turn iter w = ((turn (turns first turn n)).1, some it, w') ∧
      StandsAt place first turn (n + 1) w' (some it) ∧
      (∀ other, other ≠ it → place w' other = place w other) ∧
      (iter = some it ∨ place w it = none) := by
  cases iter with
  | none =>
    obtain rfl : n = 0 := hs
    obtain ⟨it, w₁, hiter, hnew, hplace⟩ := h.iter w
    obtain ⟨w₂, hnext, hplace'⟩ := h.next w₁ it first (by rw [hplace, Function.update_self])
    refine ⟨it, w₂, ?_, ?_, ?_, .inr hnew⟩
    · simp only [PyReader.turn, hiter, hnext]
      rfl
    · rw [StandsAt, hplace', Function.update_self]
      rfl
    · intro other hne
      rw [hplace', Function.update_of_ne hne, hplace, Function.update_of_ne hne]
  | some it =>
    obtain ⟨w', hnext, hplace⟩ := h.next w it _ hs
    refine ⟨it, w', ?_, ?_, ?_, .inl rfl⟩
    · simp only [PyReader.turn, hnext]
    · rw [StandsAt, hplace, Function.update_self, turns, turns, Function.iterate_succ_apply']
    · intro other hne
      rw [hplace, Function.update_of_ne hne]

theorem loop_ownPlaces (h : reader.OwnPlaces place first turn) (w : W) (n : ℕ) :
    reader.loop w n = (turn (turns first turn n)).1 := by
  have hstands : StandsAt place first turn n (reader.loopState w n).2 (reader.loopState w n).1 := by
    induction n with
    | zero => rfl
    | succ n ih =>
      obtain ⟨it, w', hturn, hs, -⟩ := turn_ownPlaces h ih
      rw [PyReader.loopState, hturn]
      exact hs
  obtain ⟨it, w', hturn, -⟩ := turn_ownPlaces h hstands
  rw [PyReader.loop, hturn]

/-- Every loop is where it would be alone, on an iterator nobody else has. -/
structure Apart (reader : PyReader T α W I) (place : W → I → Option P) (first : P)
    (turn : P → Given T α × P) (w : W) (v : W × (ι → Visit T α I)) : Prop where
  stands : ∀ i, StandsAt place first turn (v.2 i).given.length v.1 (v.2 i).iter
  given : ∀ i, (v.2 i).given = (List.range (v.2 i).given.length).map (reader.loop w)
  iters : ∀ i j it, (v.2 i).iter = some it → (v.2 j).iter = some it → i = j

omit [DecidableEq ι] [DecidableEq I] in
/-- The iterator a turn moves is nobody else's: it was the loop's own already, or is new. -/
theorem Apart.free {v : W × (ι → Visit T α I)} (h : Apart reader place first turn w v) {i j : ι}
    {it : I} (hnew : (v.2 i).iter = some it ∨ place v.1 it = none) (hj : j ≠ i) :
    (v.2 j).iter ≠ some it := by
  intro hit
  rcases hnew with hown | hnone
  · exact hj (h.iters j i it hit hown)
  · have hstands := h.stands j
    simp only [hit, StandsAt, hnone] at hstands
    cases hstands

theorem Apart.step (h : reader.OwnPlaces place first turn) {v v' : W × (ι → Visit T α I)}
    {a : ι × Given T α} (hI : Apart reader place first turn w v)
    (hs : (reader.visits wants ι w).step v a v') : Apart reader place first turn w v' := by
  obtain ⟨w₁, vs⟩ := v
  obtain ⟨i, g⟩ := a
  obtain ⟨w₂, t, ⟨-, hturn, hgiven⟩, rfl⟩ := hs
  obtain ⟨it, w', hturn', hstands, hother, hnew⟩ := turn_ownPlaces h (hI.stands i)
  obtain ⟨rfl, hiter, rfl⟩ : (turn _).1 = g ∧ some it = t.iter ∧ w' = w₂ := by
    simpa using hturn'.symm.trans hturn
  have hfree : ∀ j, j ≠ i → (vs j).iter ≠ some it := fun j hj => hI.free hnew hj
  have hlen : t.given.length = (vs i).given.length + 1 := by rw [hgiven]; simp
  constructor
  · intro j
    by_cases hj : j = i
    · subst hj
      simpa [hlen, ← hiter] using hstands
    · have hold := hI.stands j
      simp only [Function.update_of_ne hj]
      cases hit : (vs j).iter with
      | none =>
        simp only [hit] at hold
        exact hold
      | some it' =>
        have hne : it' ≠ it := by
          intro heq
          exact hfree j hj (heq ▸ hit)
        simp only [hit, StandsAt] at hold
        rw [StandsAt, hother it' hne, hold]
  · intro j
    by_cases hj : j = i
    · subst hj
      simp only [Function.update_self]
      rw [hlen, List.range_succ, List.map_append, ← hI.given j, hgiven, List.map_singleton,
        loop_ownPlaces h]
    · simpa only [Function.update_of_ne hj] using hI.given j
  · intro j k it' hj hk
    by_cases hji : j = i
    · by_cases hki : k = i
      · rw [hji, hki]
      · simp only [hji, Function.update_self, ← hiter, Option.some.injEq] at hj
        simp only [Function.update_of_ne hki] at hk
        exact absurd (hj ▸ hk) (hfree k hki)
    · by_cases hki : k = i
      · simp only [hki, Function.update_self, ← hiter, Option.some.injEq] at hk
        simp only [Function.update_of_ne hji] at hj
        exact absurd (hk ▸ hj) (hfree j hji)
      · simp only [Function.update_of_ne hji] at hj
        simp only [Function.update_of_ne hki] at hk
        exact hI.iters j k it' hj hk

/-- A reader whose iterators have places of their own serves any number of loops. -/
theorem undisturbed_of_ownPlaces (h : reader.OwnPlaces place first turn) :
    reader.Undisturbed wants ι w := by
  intro v hv i
  have hapart : Apart reader place first turn w v := by
    refine System.reachable_invariant (I := Apart reader place first turn w) ?_ ?_ hv
    · rintro ⟨w', vs⟩ ⟨rfl, hs⟩
      have hvs : ∀ i, vs i = ⟨none, []⟩ := hs
      constructor <;> simp [hvs, StandsAt]
    · intro v a v' hs hI
      exact hI.step h hs
  exact hapart.given i

end OwnPlaces

/-- A reader that every `iter` reads from the start, as a list of batches is. -/
def restarting (schema : Schema T) (batches : List (RecordBatch T α)) :
    PyReader T α (List (List (RecordBatch T α))) ℕ where
  schema := .ok schema
  iter w := (.ok w.length, w ++ [batches])
  next it w := match w[it]? with
    | some (batch :: rest) => (some (.ok batch), w.set it rest)
    | _ => (none, w)

theorem restarting_ownPlaces (schema : Schema T) (batches : List (RecordBatch T α)) :
    (restarting schema batches).OwnPlaces (fun w it => w[it]?) batches
      fun rest => (rest.head?.map .ok, rest.tail) := by
  constructor
  · intro w
    refine ⟨w.length, w ++ [batches], rfl, by simp, ?_⟩
    funext it
    by_cases hit : it = w.length
    · simp [hit]
    · rw [Function.update_of_ne hit]
      by_cases hlt : it < w.length
      · rw [List.getElem?_append_left hlt]
      · have hle : (w ++ [batches]).length ≤ it := by
          simp only [List.length_append, List.length_singleton]
          omega
        rw [List.getElem?_eq_none hle, List.getElem?_eq_none (by omega)]
  · intro w it rest hrest
    have hlt : it < w.length := (List.getElem?_eq_some_iff.mp hrest).1
    cases rest with
    | nil =>
      refine ⟨w, by simp [restarting, hrest], ?_⟩
      rw [List.tail_nil, ← hrest, Function.update_eq_self]
    | cons batch rest =>
      refine ⟨w.set it rest, by simp [restarting, hrest], ?_⟩
      funext other
      by_cases hother : other = it
      · simp [hother, hlt]
      · rw [Function.update_of_ne hother, List.getElem?_set_ne (Ne.symm hother)]

end XorqDatafusion.Provider
