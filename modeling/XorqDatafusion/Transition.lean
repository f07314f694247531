import Mathlib.Algebra.BigOperators.Group.Finset.Basic
import Mathlib.Algebra.Order.BigOperators.Group.Finset
import Mathlib.Logic.Function.Basic

/-! Labelled transition systems, and families of components over one shared resource. -/
namespace Transition

universe u v w

structure System (σ : Type u) (α : Type v) where
  start : σ → Prop
  step : σ → α → σ → Prop

namespace System

variable {σ : Type u} {α : Type v} {T : System σ α} {s t r : σ} {a : α}
  {xs ys : List (σ × α)} {I : σ → Prop} {P : σ → α → Prop}

/-- A finite run, each action recorded with the state it was taken in. -/
inductive Run (T : System σ α) : σ → List (σ × α) → σ → Prop
  | refl (s : σ) : Run T s [] s
  | stepL {s t r : σ} {a : α} {xs : List (σ × α)} :
      T.step s a t → Run T t xs r → Run T s ((s, a) :: xs) r

def Reachable (T : System σ α) (s : σ) : Prop := ∃ s₀ xs, T.start s₀ ∧ T.Run s₀ xs s

/-- The steps of `T` whose action is admissible in the state before it. -/
def restrict (T : System σ α) (P : σ → α → Prop) : System σ α where
  start := T.start
  step s a t := T.step s a t ∧ P s a

theorem Run.append (h : T.Run s xs t) (h' : T.Run t ys r) : T.Run s (xs ++ ys) r := by
  induction h with
  | refl => exact h'
  | stepL hs _ ih => exact .stepL hs (ih h')

theorem Run.single (h : T.step s a t) : T.Run s [(s, a)] t := .stepL h (.refl t)

theorem Reachable.of_start (h : T.start s) : T.Reachable s := ⟨s, [], h, .refl s⟩

theorem Reachable.run (h : T.Reachable s) (hr : T.Run s xs t) : T.Reachable t := by
  obtain ⟨s₀, ys, hi, hy⟩ := h
  exact ⟨s₀, ys ++ xs, hi, hy.append hr⟩

theorem Reachable.step (h : T.Reachable s) (hs : T.step s a t) : T.Reachable t :=
  h.run (Run.single hs)

theorem Run.mono {T' : System σ α} (hT : ∀ s a t, T.step s a t → T'.step s a t)
    (h : T.Run s xs t) : T'.Run s xs t := by
  induction h with
  | refl => exact .refl _
  | stepL hs _ ih => exact .stepL (hT _ _ _ hs) ih

theorem run_preserves (hp : ∀ s a t, T.step s a t → I s → I t)
    (h : T.Run s xs t) (hs : I s) : I t := by
  induction h with
  | refl => exact hs
  | stepL h _ ih => exact ih (hp _ _ _ h hs)

/-- An invariant of the start states that every step preserves holds of every reachable state. -/
theorem reachable_invariant (hi : ∀ s, T.start s → I s)
    (hp : ∀ s a t, T.step s a t → I s → I t) (h : T.Reachable s) : I s := by
  obtain ⟨s₀, xs, h₀, hr⟩ := h
  exact run_preserves hp hr (hi s₀ h₀)

/-- The step may also use that its source is reachable. -/
theorem reachable_invariant_of_reachable (hi : ∀ s, T.start s → I s)
    (hp : ∀ s a t, T.Reachable s → T.step s a t → I s → I t) (h : T.Reachable s) : I s := by
  have hs : T.Reachable s ∧ I s := by
    refine reachable_invariant (I := fun s => T.Reachable s ∧ I s) ?_ ?_ h
    · intro s hs
      exact ⟨.of_start hs, hi s hs⟩
    · intro s a t ht hs
      exact ⟨hs.1.step ht, hp s a t hs.1 ht hs.2⟩
  exact hs.2

/-- Simulation: what `T` does in a step, `T'` can do in some number of them. -/
theorem reachable_simulated {τ : Type w} {β : Type*} {T' : System τ β} {R : σ → τ → Prop}
    (hi : ∀ s, T.start s → ∃ t, T'.start t ∧ R s t)
    (hp : ∀ s a s' t, T.Reachable s → T.step s a s' → R s t → ∃ ys t', T'.Run t ys t' ∧ R s' t')
    (h : T.Reachable s) : ∃ t, T'.Reachable t ∧ R s t := by
  refine reachable_invariant_of_reachable (I := fun s => ∃ t, T'.Reachable t ∧ R s t) ?_ ?_ h
  · intro s hs
    obtain ⟨t, ht, hR⟩ := hi s hs
    exact ⟨t, .of_start ht, hR⟩
  · rintro s a s' hs hstep ⟨t, ht, hR⟩
    obtain ⟨ys, t', hy, hR'⟩ := hp s a s' t hs hstep hR
    exact ⟨t', ht.run hy, hR'⟩

/-- A run keeps to the admissible actions exactly when it is a run of the restricted system. -/
theorem run_restrict_iff :
    (T.restrict P).Run s xs t ↔ T.Run s xs t ∧ ∀ x ∈ xs, P x.1 x.2 := by
  constructor
  · intro h
    induction h with
    | refl => exact ⟨.refl _, by simp⟩
    | stepL hs _ ih => exact ⟨.stepL hs.1 ih.1, List.forall_mem_cons.mpr ⟨hs.2, ih.2⟩⟩
  · rintro ⟨h, hP⟩
    induction h with
    | refl => exact .refl _
    | stepL hs _ ih =>
      obtain ⟨hp, hrest⟩ := List.forall_mem_cons.mp hP
      exact .stepL ⟨hs, hp⟩ (ih hrest)

/-- The states a run goes through. -/
def visited (xs : List (σ × α)) (t : σ) : List σ := xs.map Prod.fst ++ [t]

theorem Run.visited_reachable (h : T.Run s xs t) (hr : T.Reachable s) {q : σ}
    (hq : q ∈ visited xs t) : T.Reachable q := by
  induction h with
  | refl =>
    obtain rfl : q = _ := by simpa [visited] using hq
    exact hr
  | stepL hs _ ih =>
    rcases List.mem_cons.mp hq with rfl | hq
    · exact hr
    · exact ih (hr.step hs) hq

/-- A run passes through each state it is recorded in. -/
theorem Run.through (h : T.Run s xs t) {x : σ × α} (hx : x ∈ xs) :
    ∃ ys zs r, T.Run s ys x.1 ∧ T.step x.1 x.2 r ∧ T.Run x.1 zs t := by
  induction h with
  | refl => cases hx
  | @stepL s t r a xs hs hr ih =>
    rcases List.mem_cons.mp hx with rfl | hx
    · exact ⟨[], _, t, .refl s, hs, .stepL hs hr⟩
    · obtain ⟨ys, zs, r', hy, hs', hz⟩ := ih hx
      exact ⟨_, zs, r', .stepL hs hy, hs', hz⟩

theorem forall_visited_cons {x : σ × α} :
    (∀ s ∈ visited (x :: xs) t, I s) ↔ I x.1 ∧ ∀ s ∈ visited xs t, I s :=
  List.forall_mem_cons

/-- When a step keeps `I` exactly if it is admissible, a run stays within `I` exactly if it keeps to
the admissible actions. -/
theorem run_stays_iff (hp : ∀ s a t, T.Reachable s → T.step s a t → I s → (I t ↔ P s a))
    (hr : T.Reachable s) (hs : I s) (h : T.Run s xs t) :
    (∀ r ∈ visited xs t, I r) ↔ ∀ x ∈ xs, P x.1 x.2 := by
  induction h with
  | refl s => simpa [visited] using hs
  | @stepL s t r a xs hstep hrun ih =>
    rw [forall_visited_cons, List.forall_mem_cons]
    have hI := hp s a t hr hstep hs
    constructor
    · rintro ⟨-, hall⟩
      have ht : I t := by
        cases hrun with
        | refl => exact hall t (by simp [visited])
        | stepL => exact (forall_visited_cons.mp hall).1
      exact ⟨hI.mp ht, (ih (hr.step hstep) ht).mp hall⟩
    · rintro ⟨ha, hall⟩
      exact ⟨hs, (ih (hr.step hstep) (hI.mpr ha)).mpr hall⟩

/-- Steps that bring a measure down happen no more often than the measure allows. -/
theorem run_measure {m : σ → ℕ} {w : α → Bool}
    (hp : ∀ s a t, T.Reachable s → T.step s a t → I s → I t ∧ m t + (w a).toNat ≤ m s)
    (hr : T.Reachable s) (hs : I s) (h : T.Run s xs t) :
    xs.countP (fun x => w x.2) + m t ≤ m s := by
  induction h with
  | refl => simp
  | @stepL s t r a xs hstep _ ih =>
    obtain ⟨ht, hm⟩ := hp s a t hr hstep hs
    have hrest := ih (hr.step hstep) ht
    rw [List.countP_cons]
    cases hw : w a <;> simp [hw] at hm ⊢ <;> omega

/-- Steps that have to be paid for happen no more often than the run pays, up to the difference of a
potential. -/
theorem run_amortised {m g : σ → ℕ} {w : α → Bool}
    (hp : ∀ s a t, T.Reachable s → T.step s a t → m t + g s + (w a).toNat ≤ m s + g t)
    (hr : T.Reachable s) (h : T.Run s xs t) :
    xs.countP (fun x => w x.2) + m t + g s ≤ m s + g t := by
  induction h with
  | refl => simp
  | @stepL s t r a xs hstep _ ih =>
    have hm := hp s a t hr hstep
    have hrest := ih (hr.step hstep)
    rw [List.countP_cons]
    cases hw : w a <;> simp [hw] at hm ⊢ <;> omega

/-- Runs of a system that keeps the same states in another form. -/
theorem Run.map {τ : Type w} {T' : System τ α} (f : σ → τ)
    (hf : ∀ s a t, T.step s a t → T'.step (f s) a (f t)) (h : T.Run s xs t) :
    T'.Run (f s) (xs.map fun x => (f x.1, x.2)) (f t) := by
  induction h with
  | refl => exact .refl _
  | stepL hs _ ih => exact .stepL (hf _ _ _ hs) ih

/-- The states after every action of a list, where every action is enabled in its turn. -/
def replay {β : Type*} (f : β → σ → Option σ) : List β → σ → Option σ
  | [], s => some s
  | a :: as, s => (f a s).bind (replay f as)

theorem replay_run {β : Type*} {f : β → σ → Option σ} {g : β → α}
    (hf : ∀ a s t, f a s = some t → T.step s (g a) t) {as : List β}
    (h : replay f as s = some t) : ∃ xs, T.Run s xs t ∧ xs.map Prod.snd = as.map g := by
  induction as generalizing s with
  | nil =>
    obtain rfl : s = t := by simpa [replay] using h
    exact ⟨[], .refl s, rfl⟩
  | cons a as ih =>
    obtain ⟨u, hu, hr⟩ := Option.bind_eq_some_iff.mp h
    obtain ⟨xs, hx, hl⟩ := ih hr
    exact ⟨(s, g a) :: xs, .stepL (hf a s u hu) hx, by simp [hl]⟩

end System

/-- A component together with the resource it shares: a step may change both. -/
structure Component (κ : Type u) (σ : Type v) (α : Type w) where
  start : σ → Prop
  step : κ × σ → α → κ × σ → Prop

namespace Component

variable {κ : Type u} {σ : Type v} {α : Type w}

/-- One component alone; whoever else uses the resource may change it at any time. -/
def alone (C : Component κ σ α) : System (κ × σ) (Option α) where
  start p := C.start p.2
  step p a q := match a with
    | none => q.2 = p.2
    | some a => C.step p a q

/-- One component while nobody else uses the resource. -/
def solo (C : Component κ σ α) : System (κ × σ) α where
  start p := C.start p.2
  step := C.step

def restrict (C : Component κ σ α) (P : κ × σ → α → Prop) : Component κ σ α where
  start := C.start
  step p a q := C.step p a q ∧ P p a

variable {C : Component κ σ α} {P : κ × σ → α → Prop} {I : σ → Prop} {p : κ × σ}

/-- To be invariant in any environment, a property of the local state only has to survive the
component's own steps. -/
theorem alone_invariant (hi : ∀ s, C.start s → I s)
    (hp : ∀ p a q, C.step p a q → I p.2 → I q.2) (h : C.alone.Reachable p) : I p.2 := by
  refine System.reachable_invariant (I := fun p => I p.2) (fun p hs => hi p.2 hs) ?_ h
  intro p a q hs hI
  cases a with
  | none => exact (show q.2 = p.2 from hs) ▸ hI
  | some a => exact hp p a q hs hI

/-- An executable step, cut down to the admissible actions. -/
def guarded (P : κ × σ → α → Prop) [∀ p a, Decidable (P p a)] (f : α → κ × σ → Option (κ × σ))
    (a : α) (p : κ × σ) : Option (κ × σ) :=
  if P p a then f a p else none

theorem guarded_step [∀ p a, Decidable (P p a)] {f : α → κ × σ → Option (κ × σ)}
    (hf : ∀ a p q, f a p = some q → C.step p a q) (a : α) (p q : κ × σ)
    (h : guarded P f a p = some q) : (C.restrict P).step p a q := by
  unfold guarded at h
  split at h
  · exact ⟨hf a p q h, ‹_›⟩
  · cases h

theorem alone_replay {f : α → κ × σ → Option (κ × σ)} (hf : ∀ a p q, f a p = some q → C.step p a q)
    {as : List α} {q : κ × σ} (h : System.replay f as p = some q) :
    ∃ xs, C.alone.Run p xs q ∧ xs.map Prod.snd = as.map some :=
  System.replay_run (T := C.alone) (g := some) hf h

theorem alone_step_of_restrict {a : Option α} {q : κ × σ} (h : (C.restrict P).alone.step p a q) :
    C.alone.step p a q := by
  cases a with
  | none => exact h
  | some a => exact h.1

theorem alone_run_of_restrict {xs : List ((κ × σ) × Option α)} {q : κ × σ}
    (h : (C.restrict P).alone.Run p xs q) : C.alone.Run p xs q :=
  h.mono fun _ _ _ => alone_step_of_restrict

theorem alone_reachable_of_restrict (h : (C.restrict P).alone.Reachable p) :
    C.alone.Reachable p := by
  obtain ⟨p₀, xs, hi, hr⟩ := h
  exact ⟨p₀, xs, hi, alone_run_of_restrict hr⟩

end Component

variable {ι : Type u} {κ : Type v} {σ : Type w} {α : Type*} [DecidableEq ι]

/-- Components over one resource, any one of them acting at each step. -/
def family (C : ι → Component κ σ α) (k₀ : κ) : System (κ × (ι → σ)) (ι × α) where
  start p := p.1 = k₀ ∧ ∀ i, (C i).start (p.2 i)
  step p a q := ∃ k s, (C a.1).step (p.1, p.2 a.1) a.2 (k, s) ∧ q = (k, Function.update p.2 a.1 s)

variable {C : ι → Component κ σ α} {k₀ : κ} {p q : κ × (ι → σ)}

/-- Seen from one component, the rest of the family is just an environment. -/
theorem family_step_alone {a : ι × α} (h : (family C k₀).step p a q) (i : ι) :
    ∃ b, (C i).alone.step (p.1, p.2 i) b (q.1, q.2 i) := by
  obtain ⟨k, s, hs, rfl⟩ := h
  by_cases hi : i = a.1
  · subst hi
    exact ⟨some a.2, by simpa [Component.alone] using hs⟩
  · exact ⟨none, by simp [Component.alone, hi]⟩

theorem family_reachable_alone (h : (family C k₀).Reachable p) (i : ι) :
    (C i).alone.Reachable (p.1, p.2 i) := by
  refine System.reachable_invariant (I := fun p => (C i).alone.Reachable (p.1, p.2 i)) ?_ ?_ h
  · intro p hp
    exact .of_start (hp.2 i)
  · intro p a q hs hr
    obtain ⟨b, hb⟩ := family_step_alone hs i
    exact hr.step hb

/-- Restricting the components of a family keeps the runs with admissible actions only. -/
theorem family_run_restrict_iff {P : κ × σ → α → Prop} {xs : List ((κ × (ι → σ)) × (ι × α))} :
    (family (fun i => (C i).restrict P) k₀).Run p xs q ↔
      (family C k₀).Run p xs q ∧ ∀ x ∈ xs, P (x.1.1, x.1.2 x.2.1) x.2.2 := by
  let Q (p : κ × (ι → σ)) (a : ι × α) : Prop := P (p.1, p.2 a.1) a.2
  refine Iff.trans ?_ (System.run_restrict_iff (P := Q))
  constructor
  · intro h
    apply h.mono
    rintro p a q ⟨k, s, ⟨hs, hp⟩, hq⟩
    exact ⟨⟨k, s, hs, hq⟩, hp⟩
  · intro h
    apply h.mono
    rintro p a q ⟨⟨k, s, hs, hq⟩, hp⟩
    exact ⟨k, s, ⟨hs, hp⟩, hq⟩

/-- What one component does on its own, it also does within the family while the others rest. -/
theorem family_run {xs : List ((κ × σ) × α)} {i : ι} {x y : κ × σ}
    (h : (C i).solo.Run x xs y) (σs : ι → σ) (hx : σs i = x.2) :
    ∃ ys, (family C k₀).Run (x.1, σs) ys (y.1, Function.update σs i y.2) := by
  induction h generalizing σs with
  | refl s => exact ⟨[], by rw [← hx, Function.update_eq_self]; exact .refl _⟩
  | @stepL s t r a xs hs _ ih =>
    obtain ⟨ys, hy⟩ := ih (Function.update σs i t.2) (Function.update_self _ _ _)
    rw [Function.update_idem] at hy
    have hstep : (C i).step (s.1, σs i) a (t.1, t.2) := by rw [hx]; exact hs
    exact ⟨_, .stepL (a := (i, a)) ⟨t.1, t.2, hstep, rfl⟩ hy⟩

theorem family_replay {f : α → κ × σ → Option (κ × σ)} (σs : ι → σ) (i : ι)
    (hf : ∀ a p q, f a p = some q → (C i).step p a q) {as : List α} {k k' : κ} {s : σ}
    (h : System.replay f as (k, σs i) = some (k', s)) :
    ∃ xs, (family C k₀).Run (k, σs) xs (k', Function.update σs i s) := by
  obtain ⟨xs, hx, -⟩ := System.replay_run (T := (C i).solo) (g := id) hf h
  exact family_run hx σs rfl

/-- Families over one resource are simulated component by component. -/
theorem family_simulated {τ : Type*} {β : Type*} {D : ι → Component κ τ β} {R : ι → σ → τ → Prop}
    (hi : ∀ i s, (C i).start s → ∃ t, (D i).start t ∧ R i s t)
    (hp : ∀ i p a q t, (C i).alone.Reachable p → (C i).step p a q → R i p.2 t →
      ∃ ys t', (D i).solo.Run (p.1, t) ys (q.1, t') ∧ R i q.2 t')
    (h : (family C k₀).Reachable p) :
    ∃ ts, (family D k₀).Reachable (p.1, ts) ∧ ∀ i, R i (p.2 i) (ts i) := by
  have hsim : ∃ t, (family D k₀).Reachable t ∧ t.1 = p.1 ∧ ∀ i, R i (p.2 i) (t.2 i) := by
    refine System.reachable_simulated
      (R := fun p (t : κ × (ι → τ)) => t.1 = p.1 ∧ ∀ i, R i (p.2 i) (t.2 i)) ?_ ?_ h
    · rintro ⟨k, σs⟩ ⟨hk, hs⟩
      choose ts hts hR using fun i => hi i (σs i) (hs i)
      exact ⟨(k, ts), ⟨hk, hts⟩, rfl, hR⟩
    · rintro ⟨k, σs⟩ ⟨i, a⟩ _ ⟨_, ts⟩ hr ⟨k', s, hs, rfl⟩ ⟨rfl, hR⟩
      obtain ⟨ys, t', hrun, ht'⟩ := hp i _ a _ (ts i) (family_reachable_alone hr i) hs (hR i)
      obtain ⟨zs, hz⟩ := family_run hrun ts rfl
      refine ⟨zs, _, hz, rfl, fun j => ?_⟩
      by_cases hj : j = i
      · subst hj
        simpa using ht'
      · simpa [hj] using hR j
  obtain ⟨⟨k, ts⟩, hts, rfl, hR⟩ := hsim
  exact ⟨ts, hts, hR⟩

/-- What one component does while the resource goes from one stage to the next, all of them can have
done one after the other. -/
theorem family_replay_each [Fintype ι] {C : Component κ σ α} {f : α → κ × σ → Option (κ × σ)}
    (stage : ℕ → κ) (hf : ∀ a p q, f a p = some q → C.step p a q) {as : List α} {s₀ s : σ}
    (h : ∀ n < Fintype.card ι, System.replay f as (stage n, s₀) = some (stage (n + 1), s))
    (h₀ : (family (fun _ : ι => C) k₀).Reachable (stage 0, fun _ => s₀)) :
    (family (fun _ : ι => C) k₀).Reachable (stage (Fintype.card ι), fun _ => s) := by
  have hsome (S : Finset ι) : (family (fun _ : ι => C) k₀).Reachable
      (stage S.card, fun i => if i ∈ S then s else s₀) := by
    induction S using Finset.induction_on with
    | empty => simpa using h₀
    | insert i S hi ih =>
      let before (j : ι) : σ := if j ∈ S then s else s₀
      have hlt : S.card < Fintype.card ι := Finset.card_lt_univ_of_notMem hi
      obtain ⟨xs, hr⟩ : ∃ xs, (family (fun _ : ι => C) k₀).Run (stage S.card, before) xs
          (stage (S.card + 1), Function.update before i s) :=
        family_replay before i hf (by simpa only [before, if_neg hi] using h _ hlt)
      have hall : Function.update before i s = fun j => if j ∈ insert i S then s else s₀ := by
        funext j
        by_cases hj : j = i <;> simp [before, hj]
      rw [Finset.card_insert_of_notMem hi, ← hall]
      exact ih.run hr
  simpa using hsome Finset.univ

/-- What one component does while giving the resource back, all of them can have done. -/
theorem family_replay_all [Fintype ι] {C : Component κ σ α} {f : α → κ × σ → Option (κ × σ)}
    (hf : ∀ a p q, f a p = some q → C.step p a q) {as : List α} {k : κ} {s₀ s : σ}
    (h₀ : C.start s₀) (h : System.replay f as (k, s₀) = some (k, s)) :
    (family (fun _ : ι => C) k).Reachable (k, fun _ => s) :=
  family_replay_each (fun _ => k) hf (fun _ _ => h) (.of_start ⟨rfl, fun _ => h₀⟩)

/-- Components that can always take a step towards their end can all be brought there, and those that
are there stay as they are. -/
theorem family_finishes [Fintype ι] (rank : ι → σ → ℕ)
    (hstep : ∀ i k s, rank i s ≠ 0 →
      ∃ a k' s', (C i).step (k, s) a (k', s') ∧ rank i s' < rank i s)
    (p : κ × (ι → σ)) : ∃ xs q, (family C k₀).Run p xs q ∧ (∀ i, rank i (q.2 i) = 0) ∧
      ∀ i, rank i (p.2 i) = 0 → q.2 i = p.2 i := by
  generalize hn : ∑ i, rank i (p.2 i) = n
  induction n using Nat.strong_induction_on generalizing p with
  | _ n ih =>
    by_cases hall : ∀ i, rank i (p.2 i) = 0
    · exact ⟨[], p, .refl p, hall, fun _ _ => rfl⟩
    · obtain ⟨i, hi⟩ := not_forall.mp hall
      obtain ⟨a, k, s, hs, hlt⟩ := hstep i p.1 (p.2 i) hi
      let t : κ × (ι → σ) := (k, Function.update p.2 i s)
      have ht : (family C k₀).step p (i, a) t := ⟨k, s, hs, rfl⟩
      have hsum : ∑ j, rank j (t.2 j) < n := by
        rw [← hn]
        refine Finset.sum_lt_sum (fun j _ => ?_) ⟨i, Finset.mem_univ i, by simpa [t] using hlt⟩
        by_cases hj : j = i
        · subst hj
          simpa [t] using hlt.le
        · simp [t, hj]
      obtain ⟨xs, q, hr, hq, hkeep⟩ := ih _ hsum t rfl
      refine ⟨_, q, .stepL ht hr, hq, fun j hj => ?_⟩
      have hji : j ≠ i := by
        rintro rfl
        exact hi hj
      have htj : t.2 j = p.2 j := by simp [t, hji]
      rw [hkeep j (by rwa [htj]), htj]

/-- What every step of every component balances stays balanced over the whole family. -/
theorem family_conserved [Fintype ι] (free : κ → ℕ) (held : σ → ℕ)
    (h₀ : ∀ i s, (C i).start s → held s = 0)
    (hp : ∀ i p a q, (C i).alone.Reachable p → (C i).step p a q →
      free q.1 + held q.2 = free p.1 + held p.2)
    (h : (family C k₀).Reachable p) : free p.1 + ∑ i, held (p.2 i) = free k₀ := by
  refine System.reachable_invariant_of_reachable
    (I := fun p => free p.1 + ∑ i, held (p.2 i) = free k₀) ?_ ?_ h
  · rintro p ⟨hk, hs⟩
    simp [hk, fun i => h₀ i _ (hs i)]
  · rintro p a _ hr ⟨k, s, hs, rfl⟩ hI
    have hb : free k + held s = free p.1 + held (p.2 a.1) :=
      hp a.1 _ _ _ (family_reachable_alone hr a.1) hs
    have hother : ∀ i ∈ Finset.univ.erase a.1,
        held (Function.update p.2 a.1 s i) = held (p.2 i) := by
      intro i hi
      rw [Function.update_of_ne (Finset.ne_of_mem_erase hi)]
    rw [← Finset.add_sum_erase _ _ (Finset.mem_univ a.1)] at hI ⊢
    simp only [Finset.sum_congr rfl hother, Function.update_self]
    omega

omit [DecidableEq ι] in
/-- Components that hold at least one unit each are at most as many as the units held. -/
theorem card_holders_le [Fintype ι] (held : σ → ℕ) {f : ι → σ} {Q : ι → Prop} [DecidablePred Q]
    (hQ : ∀ i, Q i → 0 < held (f i)) : (Finset.univ.filter Q).card ≤ ∑ i, held (f i) := by
  calc (Finset.univ.filter Q).card = ∑ i ∈ Finset.univ.filter Q, 1 := Finset.card_eq_sum_ones _
    _ ≤ ∑ i ∈ Finset.univ.filter Q, held (f i) :=
        Finset.sum_le_sum fun i hi => hQ i (Finset.mem_filter.mp hi).2
    _ ≤ ∑ i, held (f i) :=
        Finset.sum_le_sum_of_subset (Finset.filter_subset Q Finset.univ)

end Transition
