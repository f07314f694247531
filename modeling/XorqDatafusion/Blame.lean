import Mathlib.Tactic.ByContra

/-! Computations that call on another party, with the first thing that goes wrong there on record. -/
namespace Blame

variable {W M ε ε' α β : Type}

/-- What came of a computation, the first mishap of the other party, and the state it is left in. -/
structure Attempt (W M ε α : Type) where
  result : Except ε α
  mishap : Option M
  state : W

def Adapter (W M ε α : Type) := W → Attempt W M ε α

namespace Adapter

instance : Monad (Adapter W M ε) where
  pure a := fun w => ⟨.ok a, none, w⟩
  bind x f := fun w => match (x w).result with
    | .error e => ⟨.error e, (x w).mishap, (x w).state⟩
    | .ok a =>
      let rest := f a (x w).state
      ⟨rest.result, (x w).mishap.or rest.mishap, rest.state⟩

/-- One call of the other party; when it fails, that is a mishap. -/
def ask (m : ε → M) (op : W → Except ε α × W) : Adapter W M ε α := fun w =>
  let (answer, w) := op w
  match answer with
  | .ok a => ⟨.ok a, none, w⟩
  | .error e => ⟨.error e, some (m e), w⟩

/-- An error of the computation's own. -/
def fail (e : ε) : Adapter W M ε α := fun w => ⟨.error e, none, w⟩

def mapError (g : ε → ε') (x : Adapter W M ε α) : Adapter W M ε' α := fun w =>
  ⟨(x w).result.mapError g, (x w).mishap, (x w).state⟩

/-- Go on with `a` when there is an error. -/
def unwrapOr (a : α) (x : Adapter W M ε α) : Adapter W M ε' α := fun w => match (x w).result with
  | .ok b => ⟨.ok b, (x w).mishap, (x w).state⟩
  | .error _ => ⟨.ok a, (x w).mishap, (x w).state⟩

def map (g : α → β) (x : Adapter W M ε α) : Adapter W M ε β := fun w =>
  ⟨(x w).result.map g, (x w).mishap, (x w).state⟩

/-- A result that is not what was expected is a mishap too, although nobody looks at it. -/
def expecting (expected : α → Bool) (m : M) (x : Adapter W M ε α) : Adapter W M ε α := fun w =>
  match (x w).result with
  | .ok a => ⟨.ok a, (x w).mishap.or (if expected a then none else some m), (x w).state⟩
  | .error e => ⟨.error e, (x w).mishap, (x w).state⟩

/-- A result that needs nothing of the other party. -/
def lift : Except ε α → Adapter W M ε α
  | .ok a => pure a
  | .error e => fail e

instance : LawfulMonad (Adapter W M ε) := by
  refine LawfulMonad.mk' _ ?_ ?_ ?_
  · intro α x
    funext w
    change (x >>= pure) w = x w
    rcases hx : x w with ⟨_ | a, mishap, state⟩ <;> simp [bind, pure, hx]
  · intro α β a f
    funext w
    change Attempt.mk (f a w).result ((none : Option M).or (f a w).mishap) (f a w).state = f a w
    simp
  · intro α β γ x f g
    funext w
    simp only [bind]
    cases hx : (x w).result with
    | error e => rfl
    | ok a => cases hf : (f a (x w).state).result <;> simp [hf, Option.or_assoc]

theorem result_bind {x : Adapter W M ε α} {f : α → Adapter W M ε β} {w : W} :
    ((x >>= f) w).result = (x w).result.bind fun a => (f a (x w).state).result := by
  cases hx : (x w).result <;> simp [bind, hx, Except.bind]

/-- Results that need nothing of the other party are collected without it. -/
theorem mapM_lift (f : α → Except ε β) (xs : List α) :
    (xs.mapM fun x => (lift (f x) : Adapter W M ε β)) = lift (xs.mapM f) := by
  induction xs with
  | nil => rfl
  | cons x xs ih =>
    rw [List.mapM_cons, List.mapM_cons, ih]
    cases hx : f x with
    | error e => rfl
    | ok y => cases hxs : xs.mapM f <;> rfl

end Adapter

open Adapter

/-- Without a mishap the computation errs in a sound way only, and a mishap meets an error that fits. -/
def Attempt.Honest (sound : ε → Prop) (fits : M → ε → Prop) (r : Attempt W M ε α) : Prop :=
  match r.mishap with
  | none => ∀ e, r.result = .error e → sound e
  | some m => ∃ e, r.result = .error e ∧ fits m e

variable {sound : ε → Prop} {sound' : ε' → Prop} {fits : M → ε → Prop} {fits' : M → ε' → Prop}
  {bad : M → Prop} {x : Adapter W M ε α} {f : α → Adapter W M ε β}

/-- The computation deals honestly with all mishaps but the bad ones. -/
structure Judged (sound : ε → Prop) (fits : M → ε → Prop) (bad : M → Prop)
    (x : Adapter W M ε α) : Prop where
  sound : ∀ w e, (x w).mishap = none → (x w).result = .error e → sound e
  fits : ∀ w m, (x w).mishap = some m → ((∃ e, (x w).result = .error e ∧ fits m e) ↔ ¬bad m)

/-- It also ends with the first mishap. -/
structure Handled (sound : ε → Prop) (fits : M → ε → Prop) (bad : M → Prop)
    (x : Adapter W M ε α) : Prop extends Judged sound fits bad x where
  stops : ∀ w m, (x w).mishap = some m → ∃ e, (x w).result = .error e

theorem Judged.honest_iff (h : Judged sound fits bad x) (w : W) :
    (x w).Honest sound fits ↔ ∀ m, (x w).mishap = some m → ¬bad m := by
  unfold Attempt.Honest
  cases hm : (x w).mishap with
  | none => simpa using fun e => h.sound w e hm
  | some m => simpa using h.fits w m hm

theorem Handled.pure (a : α) : Handled sound fits bad (pure a : Adapter W M ε α) where
  sound _ _ _ hr := by cases hr
  fits _ _ hm := by cases hm
  stops _ _ hm := by cases hm

theorem Handled.fail {e : ε} (he : sound e) : Handled sound fits bad (fail e : Adapter W M ε α) where
  sound _ _ _ hr := by
    cases hr
    exact he
  fits _ _ hm := by cases hm
  stops _ _ hm := by cases hm

theorem Handled.lift {r : Except ε α} (h : ∀ e, r = .error e → sound e) :
    Handled sound fits bad (lift r : Adapter W M ε α) := by
  cases r with
  | ok a => exact Handled.pure a
  | error e => exact Handled.fail (h e rfl)

/-- A call is handled when an error fits its mishap exactly if that is not a bad one. -/
theorem Handled.ask {m : ε → M} {op : W → Except ε α × W} (h : ∀ e, fits (m e) e ↔ ¬bad (m e)) :
    Handled sound fits bad (ask m op) where
  sound w e hm hr := by
    unfold Adapter.ask at hm hr
    cases ho : (op w).1 <;> simp [ho] at hm hr
  fits w m' hm := by
    unfold Adapter.ask at hm ⊢
    cases ho : (op w).1 with
    | ok a => simp [ho] at hm
    | error e =>
      simp only [ho, Option.some.injEq] at hm ⊢
      subst hm
      simpa using h e
  stops w m' hm := by
    unfold Adapter.ask at hm ⊢
    cases ho : (op w).1 with
    | ok a => simp [ho] at hm
    | error e => exact ⟨e, by simp [ho]⟩

theorem Handled.mapError {g : ε → ε'}
    (h : Handled (fun e => sound' (g e)) (fun m e => fits' m (g e)) bad x) :
    Handled sound' fits' bad (x.mapError g) where
  sound w e hm hr := by
    unfold Adapter.mapError at hm hr
    cases hx : (x w).result with
    | ok a => simp [hx, Except.mapError] at hr
    | error e' =>
      simp only [hx, Except.mapError, Except.error.injEq] at hr
      subst hr
      exact h.sound w e' hm hx
  fits w m hm := by
    rw [← h.fits w m hm]
    unfold Adapter.mapError
    cases hx : (x w).result <;> simp [Except.mapError]
  stops w m hm := by
    obtain ⟨e, he⟩ := h.stops w m hm
    exact ⟨g e, by simp [Adapter.mapError, he, Except.mapError]⟩

/-- Where errors are swallowed, every mishap has to be a bad one. -/
theorem Judged.unwrapOr {a : α} (h : Judged (fun _ => True) (fun _ _ => False) bad x) :
    Judged sound' fits' bad (x.unwrapOr a) where
  sound w e _ hr := by
    unfold Adapter.unwrapOr at hr
    cases hx : (x w).result <;> simp [hx] at hr
  fits w m hm := by
    have hbad : bad m := by
      have hmx : (x w).mishap = some m := by
        unfold Adapter.unwrapOr at hm
        cases hx : (x w).result <;> simpa [hx] using hm
      by_contra hb
      obtain ⟨-, -, hf⟩ := (h.fits w m hmx).mpr hb
      exact hf
    unfold Adapter.unwrapOr
    cases hx : (x w).result <;> simp [hbad]

theorem Judged.map {g : α → β} (h : Judged sound fits bad x) : Judged sound fits bad (x.map g) where
  sound w e hm hr := by
    unfold Adapter.map at hm hr
    cases hx : (x w).result with
    | ok a => simp [hx, Except.map] at hr
    | error e' =>
      simp only [hx, Except.map, Except.error.injEq] at hr
      subst hr
      exact h.sound w e' hm hx
  fits w m hm := by
    rw [← h.fits w m hm]
    unfold Adapter.map
    cases hx : (x w).result <;> simp [Except.map]

/-- What nobody looks at has to be a bad mishap. -/
theorem Judged.expecting {expected : α → Bool} {m : M} (h : Judged sound fits bad x) (hm : bad m) :
    Judged sound fits bad (x.expecting expected m) where
  sound w e hnone hr := by
    unfold Adapter.expecting at hnone hr
    cases hx : (x w).result with
    | ok a => simp [hx] at hr
    | error e' =>
      simp only [hx, Except.error.injEq] at hnone hr
      subst hr
      exact h.sound w e' hnone hx
  fits w m' hm' := by
    unfold Adapter.expecting at hm' ⊢
    cases hx : (x w).result with
    | error e =>
      simp only [hx] at hm' ⊢
      rw [← h.fits w m' hm', hx]
    | ok a =>
      have hbad : bad m' := by
        simp only [hx] at hm'
        cases hmx : (x w).mishap with
        | none =>
          simp only [hmx, Option.none_or, ite_eq_iff, reduceCtorEq, and_false, false_or,
            Option.some.injEq] at hm'
          exact hm'.2 ▸ hm
        | some m₀ =>
          obtain rfl : m₀ = m' := by simpa [hmx] using hm'
          by_contra hgood
          obtain ⟨e, he, -⟩ := (h.fits w m₀ hmx).mpr hgood
          cases hx.symm.trans he
      simp [hbad]

theorem bind_error {w : W} {e : ε} (h : (x w).result = .error e) :
    (x >>= f) w = ⟨.error e, (x w).mishap, (x w).state⟩ := by
  simp [bind, h]

theorem bind_ok {w : W} {a : α} (h : (x w).result = .ok a) (hm : (x w).mishap = none) :
    (x >>= f) w = f a (x w).state := by
  simp [bind, h, hm]

/-- What is handled may be followed by anything that is. -/
theorem Handled.judged_bind (hx : Handled sound fits bad x) (hf : ∀ a, Judged sound fits bad (f a)) :
    Judged sound fits bad (x >>= f) := by
  have hcases : ∀ w, (∃ e, (x w).result = .error e) ∨
      ∃ a, (x >>= f) w = f a (x w).state := by
    intro w
    cases hr : (x w).result with
    | error e => exact .inl ⟨e, rfl⟩
    | ok a =>
      have hm : (x w).mishap = none := by
        cases hm : (x w).mishap with
        | none => rfl
        | some m =>
          obtain ⟨e, he⟩ := hx.stops w m hm
          cases hr.symm.trans he
      exact .inr ⟨a, bind_ok hr hm⟩
  constructor
  · intro w e hm hr
    rcases hcases w with ⟨e', he'⟩ | ⟨a, ha⟩
    · rw [bind_error he'] at hm hr
      cases hr
      exact hx.sound w _ hm he'
    · rw [ha] at hm hr
      exact (hf a).sound _ e hm hr
  · intro w m hm
    rcases hcases w with ⟨e', he'⟩ | ⟨a, ha⟩
    · rw [bind_error he'] at hm ⊢
      have hfits := hx.fits w m hm
      rw [he'] at hfits
      simpa using hfits
    · rw [ha] at hm ⊢
      exact (hf a).fits _ m hm

theorem Handled.bind (hx : Handled sound fits bad x) (hf : ∀ a, Handled sound fits bad (f a)) :
    Handled sound fits bad (x >>= f) where
  toJudged := hx.judged_bind fun a => (hf a).toJudged
  stops w m hm := by
    cases hr : (x w).result with
    | error e => exact ⟨e, by rw [bind_error hr]⟩
    | ok a =>
      cases hmx : (x w).mishap with
      | some m' =>
        obtain ⟨e, he⟩ := hx.stops w m' hmx
        cases hr.symm.trans he
      | none =>
        rw [bind_ok hr hmx] at hm ⊢
        exact (hf a).stops _ m hm

theorem Handled.mapM {g : α → Adapter W M ε β} (hg : ∀ a, Handled sound fits bad (g a))
    (as : List α) : Handled sound fits bad (as.mapM g) := by
  induction as with
  | nil => exact Handled.pure _
  | cons a as ih =>
    rw [List.mapM_cons]
    apply Handled.bind (hg a)
    intro b
    exact Handled.bind ih fun bs => Handled.pure _

end Blame
