import XorqDatafusion.Provider.Reading

/-! Loops over a Python reader, and the executions of a plan as loops over its reader. -/
namespace XorqDatafusion.Provider

open Bridge Transition

variable {T α W I : Type}

/-- What a loop is given at one of its turns: a batch, an exception, or the end. -/
abbrev Given (T α : Type) := Option (Except PyErr (RecordBatch T α))

/-- A turn of a loop over the reader. A loop without an iterator asks for one first; it gets what `iter`
raises if there is none. -/
def PyReader.turn (reader : PyReader T α W I) (iter : Option I) (w : W) :
    Given T α × Option I × W :=
  match iter with
  | some it =>
    let (given, w) := reader.next it w
    (given, some it, w)
  | none => match reader.iter w with
    | (.error e, w) => (some (.error e), none, w)
    | (.ok it, w) =>
      let (given, w) := reader.next it w
      (given, some it, w)

/-- A loop over a reader: its iterator, and what it has been given. -/
structure Visit (T α I : Type) where
  iter : Option I
  given : List (Given T α)

/-- It goes on as long as it wants what it has been given. -/
def PyReader.visit (reader : PyReader T α W I) (wants : Given T α → Prop) :
    Component W (Visit T α I) (Given T α) where
  start v := v = ⟨none, []⟩
  step p g q := (∀ g ∈ p.2.given, wants g) ∧ reader.turn p.2.iter p.1 = (g, q.2.iter, q.1) ∧
    q.2.given = p.2.given ++ [g]

/-- Loops over one reader, their turns in any order. -/
def PyReader.visits (reader : PyReader T α W I) (wants : Given T α → Prop) (ι : Type) [DecidableEq ι]
    (w : W) : System (W × (ι → Visit T α I)) (ι × Given T α) :=
  family (fun _ : ι => reader.visit wants) w

/-- `list(reader)` is these batches: `iter` builds an iterator whose `next` gives them and then ends. -/
def PyReader.Holds (reader : PyReader T α W I) (w : W) (bs : List (RecordBatch T α)) : Prop :=
  ∃ it, ∃ st : ℕ → W, reader.iter w = (.ok it, st 0) ∧
    ∀ n ≤ bs.length, reader.next it (st n) = (bs[n]?.map .ok, st (n + 1))

section Loop

variable {reader : PyReader T α W I} {wants : Given T α → Prop} {ι : Type} [DecidableEq ι] {w : W}
  {bs : List (RecordBatch T α)}

/-- The iterator and the reader after `n` turns of a loop that has the reader to itself. -/
def PyReader.loopState (reader : PyReader T α W I) (w : W) : ℕ → Option I × W
  | 0 => (none, w)
  | n + 1 => (reader.turn (reader.loopState w n).1 (reader.loopState w n).2).2

/-- What such a loop is given. -/
def PyReader.loop (reader : PyReader T α W I) (w : W) (n : ℕ) : Given T α :=
  (reader.turn (reader.loopState w n).1 (reader.loopState w n).2).1

/-- A loop finds what the reader holds. -/
theorem loop_of_holds (h : reader.Holds w bs) {n : ℕ} (hn : n ≤ bs.length) :
    reader.loop w n = bs[n]?.map .ok := by
  obtain ⟨it, st, hiter, hnext⟩ := h
  have hturn : reader.turn (reader.loopState w n).1 (reader.loopState w n).2 =
      (bs[n]?.map .ok, some it, st (n + 1)) := by
    induction n with
    | zero => simp only [PyReader.loopState, PyReader.turn, hiter, hnext 0 hn]
    | succ n ih =>
      rw [PyReader.loopState, ih (by omega)]
      simp only [PyReader.turn, hnext (n + 1) hn]
  rw [PyReader.loop, hturn]

/-- A loop that comes to the end after batches alone has gone over what the reader holds. -/
theorem holds_of_loop (h : ∀ n ≤ bs.length, reader.loop w n = bs[n]?.map .ok) :
    reader.Holds w bs := by
  have hfirst := h 0 (Nat.zero_le _)
  rcases hiter : reader.iter w with ⟨e | it, w₁⟩
  · simp only [PyReader.loop, PyReader.loopState, PyReader.turn, hiter] at hfirst
    cases hb : bs[0]? <;> simp [hb] at hfirst
  · let st (n : ℕ) : W := if n = 0 then w₁ else (reader.loopState w n).2
    have hown : ∀ n, (reader.loopState w (n + 1)).1 = some it := by
      intro n
      induction n with
      | zero => simp [PyReader.loopState, PyReader.turn, hiter]
      | succ n ih => rw [PyReader.loopState, ih, PyReader.turn]
    have hnext : ∀ n, reader.next it (st n) = (reader.loop w n, st (n + 1)) := by
      intro n
      cases n with
      | zero => simp [st, PyReader.loop, PyReader.loopState, PyReader.turn, hiter]
      | succ n =>
        have hlast : reader.loopState w (n + 1 + 1) =
            (reader.turn (some it) (reader.loopState w (n + 1)).2).2 := by
          rw [← hown n]
          rfl
        rw [PyReader.loop, hown n]
        simp [st, hlast, PyReader.turn]
    refine ⟨it, st, hiter, fun n hn => ?_⟩
    rw [hnext n, h n hn]

/-- All that a loop was given before its last turn, it wanted. -/
theorem visit_wanted {p : W × Visit T α I} (h : (reader.visit wants).alone.Reachable p) :
    ∀ g ∈ p.2.given.dropLast, wants g := by
  refine Component.alone_invariant (C := reader.visit wants)
    (I := fun v : Visit T α I => ∀ g ∈ v.given.dropLast, wants g) ?_ ?_ h
  · rintro v rfl
    simp
  · rintro p g q ⟨hw, -, hgiven⟩ -
    rw [hgiven, List.dropLast_concat]
    exact hw

theorem visits_start (reader : PyReader T α W I) (wants : Given T α → Prop) (ι : Type) [DecidableEq ι]
    (w : W) : (reader.visits wants ι w).Reachable (w, fun _ => ⟨none, []⟩) :=
  .of_start ⟨rfl, fun _ => rfl⟩

end Loop

section Plan

/-- One call of the closure is a turn of a loop over the reader. -/
theorem pull_eq_turn (exec : IbisTableExec T α W I) (iter : Option I) (w : W) :
    exec.pull iter w = (exec.keep (exec.recordBatchReader.turn iter w).1,
      (exec.recordBatchReader.turn iter w).2) := by
  cases iter with
  | some it => rfl
  | none =>
    unfold IbisTableExec.pull PyReader.turn
    rcases exec.recordBatchReader.iter w with ⟨_ | it, w₁⟩ <;> rfl

variable [DecidableEq T] [ToString T] {exec : IbisTableExec T α W I} {ι : Type} [DecidableEq ι]
  {w : W} {gs : List (Given T α)} {g : Given T α} {kept : RecordBatch T α}

/-- The plan goes on after a batch that passes the check once it is projected. -/
def IbisTableExec.Wants (exec : IbisTableExec T α W I) (g : Given T α) : Prop :=
  ∃ kept, exec.keep g = .batch kept ∧ exec.check kept = .ok ()

theorem not_wants_none : ¬exec.Wants none := by
  rintro ⟨kept, hk, -⟩
  cases hk

/-- The loops that executions of the plan amount to. -/
def IbisTableExec.visits (exec : IbisTableExec T α W I) (ι : Type) [DecidableEq ι] (w : W) :
    System (W × (ι → Visit T α I)) (ι × Given T α) :=
  exec.recordBatchReader.visits exec.Wants ι w

theorem verdict_of_wants (h : ∀ g ∈ gs, exec.Wants g) :
    verdict exec.check (gs.map exec.keep) = .going := by
  induction gs with
  | nil => rfl
  | cons g gs ih =>
    obtain ⟨⟨kept, hk, hc⟩, hgs⟩ := List.forall_mem_cons.mp h
    simp [verdict, hk, Outcome.verdict, hc, ih hgs]

theorem wants_of_verdict (h : verdict exec.check (gs.map exec.keep) = .going) :
    ∀ g ∈ gs, exec.Wants g := by
  induction gs with
  | nil => simp
  | cons g gs ih =>
    rw [List.map_cons, verdict] at h
    cases hg : (exec.keep g).verdict exec.check with
    | going =>
      rw [hg] at h
      refine List.forall_mem_cons.mpr ⟨?_, ih h⟩
      cases hk : exec.keep g with
      | batch kept =>
        cases hc : exec.check kept with
        | ok u => exact ⟨kept, hk, hc⟩
        | error e => simp [hk, Outcome.verdict, hc] at hg
      | _ => simp [hk, Outcome.verdict] at hg
    | _ => simp [hg] at h

/-- A loop whose turns the closure's calls have been. -/
structure Follows (exec : IbisTableExec T α W I) (r : Reading T α I) (v : Visit T α I) : Prop where
  iter : r.iter = v.iter
  answers : r.answers = v.given.map exec.keep

/-- The pulls of the executions are turns of loops over the reader. -/
theorem visit_of_reading {r : W × (ι → Reading T α I)} (h : (exec.readings ι w).Reachable r) :
    ∃ vs, (exec.visits ι w).Reachable (r.1, vs) ∧ ∀ i, Follows exec (r.2 i) (vs i) := by
  refine family_simulated (R := fun _ r v => Follows exec r v) ?_ ?_ h
  · rintro - r rfl
    exact ⟨_, rfl, rfl, rfl⟩
  · rintro - ⟨w, r⟩ o ⟨w', r'⟩ v - ⟨hg, hpull, hans⟩ ⟨hiter, hanswers⟩
    rw [pull_eq_turn, hiter] at hpull
    simp only [Prod.mk.injEq] at hpull
    obtain ⟨ho, hrest⟩ := hpull
    let given := (exec.recordBatchReader.turn v.iter w).1
    refine ⟨_, ⟨r'.iter, v.given ++ [given]⟩, System.Run.single (a := given) ⟨?_, ?_, rfl⟩, rfl, ?_⟩
    · exact wants_of_verdict (hanswers ▸ hg)
    · exact Prod.ext rfl hrest
    · rw [hans, hanswers, ← ho, List.map_append, List.map_singleton]

theorem reading_of_visit {v : W × (ι → Visit T α I)} (h : (exec.visits ι w).Reachable v) :
    ∃ rs, (exec.readings ι w).Reachable (v.1, rs) ∧ ∀ i, Follows exec (rs i) (v.2 i) := by
  refine family_simulated (R := fun _ v r => Follows exec r v) ?_ ?_ h
  · rintro - v rfl
    exact ⟨_, rfl, rfl, rfl⟩
  · rintro - ⟨w, v⟩ g ⟨w', v'⟩ r - ⟨hw, hturn, hgiven⟩ ⟨hiter, hanswers⟩
    refine ⟨_, ⟨v'.iter, r.answers ++ [exec.keep g]⟩,
      System.Run.single (a := exec.keep g) ⟨?_, ?_, rfl⟩, rfl, ?_⟩
    · rw [hanswers]
      exact verdict_of_wants hw
    · rw [pull_eq_turn, hiter, hturn]
    · rw [hgiven, hanswers, List.map_append, List.map_singleton]

/-- What an execution has pulled, a loop has been given. -/
theorem visit_of_execution {q : W × (ι → Execution T α I)} (h : (exec.executions ι w).Reachable q) :
    ∃ vs, (exec.visits ι w).Reachable (q.1, vs) ∧ ∀ i, Follows exec (q.2 i).reading (vs i) :=
  visit_of_reading (reading_of_execution h)

/-- Whatever order of turns there is, there are executions that pull in it, with consumers that get all
of it. -/
theorem execution_of_visit {v : W × (ι → Visit T α I)} (h : (exec.visits ι w).Reachable v) :
    ∃ es, (exec.executions ι w).Reachable (v.1, es) ∧
      ∀ i, CaughtUp exec ⟨(v.2 i).iter, (v.2 i).given.map exec.keep⟩ (es i) := by
  obtain ⟨rs, hrs, hfollows⟩ := reading_of_visit h
  obtain ⟨es, hes, hcaught⟩ := execution_of_reading hrs
  refine ⟨es, hes, fun i => ?_⟩
  rw [← (hfollows i).iter, ← (hfollows i).answers]
  exact hcaught i

/-- The batches a stream delivers are those that its loop was given and wanted. -/
theorem ok_mem_spec_keep (h : ∀ g ∈ gs.dropLast, exec.Wants g) :
    .ok kept ∈ spec exec.check (gs.map exec.keep) ↔
      exec.check kept = .ok () ∧ ∃ g ∈ gs, exec.keep g = .batch kept := by
  have hgoing : verdict exec.check (gs.map exec.keep).dropLast = .going := by
    rw [← List.map_dropLast]
    exact verdict_of_wants h
  rw [ok_mem_spec_iff hgoing, List.mem_map, and_comm]

end Plan

end XorqDatafusion.Provider
