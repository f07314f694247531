import Mathlib.Data.List.Forall2
import Mathlib.Logic.Basic

/-! Computations that may fail, over lists. -/
namespace Fallible

universe u v

variable {ε : Type u} {α β σ : Type v} {f : σ → α → Except ε σ} {R : List α → σ → Prop} {s s' : σ}
  {xs ys : List α}

/-- What a computation that succeeded went through. -/
theorem bind_eq_ok_iff {ε : Type u} {α β : Type v} {x : Except ε α} {f : α → Except ε β} {b : β} :
    x >>= f = .ok b ↔ ∃ a, x = .ok a ∧ f a = .ok b := by
  cases x <;> simp [bind, Except.bind]

/-- A computation fails in one of its two parts. -/
theorem bind_eq_error_iff {ε : Type u} {α β : Type v} {x : Except ε α} {f : α → Except ε β} {e : ε} :
    x >>= f = .error e ↔ x = .error e ∨ ∃ a, x = .ok a ∧ f a = .error e := by
  cases x <;> simp [bind, Except.bind]

theorem exists_bind_ok_iff {ε : Type u} {α β : Type v} {x : Except ε α} {f : α → Except ε β} :
    (∃ b, x >>= f = .ok b) ↔ ∃ a, x = .ok a ∧ ∃ b, f a = .ok b := by
  constructor
  · rintro ⟨b, h⟩
    obtain ⟨a, ha, hb⟩ := bind_eq_ok_iff.mp h
    exact ⟨a, ha, b, hb⟩
  · rintro ⟨a, ha, b, hb⟩
    exact ⟨b, bind_eq_ok_iff.mpr ⟨a, ha, hb⟩⟩

theorem map_eq_ok_iff {x : Except ε α} {f : α → β} {b : β} :
    x.map f = .ok b ↔ ∃ a, x = .ok a ∧ f a = b := by
  cases x <;> simp [Except.map]

theorem map_eq_error_iff {x : Except ε α} {f : α → β} {e : ε} :
    x.map f = .error e ↔ x = .error e := by
  cases x <;> simp [Except.map]

/-- A computation fails when it has no result. -/
theorem exists_error_iff {x : Except ε α} : (∃ e, x = .error e) ↔ ¬∃ a, x = .ok a := by
  cases x <;> simp

section MapError

variable {δ : Type u} {g : ε → δ}

theorem mapError_bind (x : Except ε α) (f : α → Except ε β) :
    (x >>= f).mapError g = x.mapError g >>= fun a => (f a).mapError g := by
  cases x <;> rfl

theorem mapError_eq_ok_iff {x : Except ε α} {a : α} : x.mapError g = .ok a ↔ x = .ok a := by
  cases x <;> simp [Except.mapError]

theorem mapError_eq_error_iff {x : Except ε α} {d : δ} :
    x.mapError g = .error d ↔ ∃ e, x = .error e ∧ g e = d := by
  cases x <;> simp [Except.mapError]

theorem foldlM_mapError (ys : List α) (s : σ) :
    (ys.foldlM f s).mapError g = ys.foldlM (fun s y => (f s y).mapError g) s := by
  induction ys generalizing s with
  | nil => rfl
  | cons y ys ih => simp only [List.foldlM_cons, mapError_bind, ih]

theorem mapM_mapError {f : α → Except ε β} (xs : List α) :
    (xs.mapM f).mapError g = xs.mapM fun x => (f x).mapError g := by
  induction xs with
  | nil => rfl
  | cons x xs ih =>
    simp only [List.mapM_cons, mapError_bind, ih]
    rfl

end MapError

/-- A fold that succeeds relates what it ends in to everything it went over. -/
theorem foldlM_keeps (hf : ∀ xs s x s', R xs s → f s x = .ok s' → R (xs ++ [x]) s') (h : R xs s)
    (hs : ys.foldlM f s = .ok s') : R (xs ++ ys) s' := by
  induction ys generalizing xs s with
  | nil =>
    cases hs
    simpa using h
  | cons y ys ih =>
    rw [List.foldlM_cons, bind_eq_ok_iff] at hs
    obtain ⟨t, ht, hs⟩ := hs
    have hall := ih (hf xs s y t h ht) hs
    rwa [List.append_assoc, List.singleton_append] at hall

/-- A fold whose steps all succeed does. -/
theorem foldlM_ok (hf : ∀ xs s, ∀ x ∈ ys, R xs s → ∃ s', f s x = .ok s' ∧ R (xs ++ [x]) s')
    (h : R xs s) : ∃ s', ys.foldlM f s = .ok s' ∧ R (xs ++ ys) s' := by
  induction ys generalizing xs s with
  | nil => exact ⟨s, rfl, by simpa using h⟩
  | cons y ys ih =>
    obtain ⟨t, ht, hr⟩ := hf xs s y List.mem_cons_self h
    obtain ⟨s', hs, hall⟩ := ih (fun xs s x hx => hf xs s x (List.mem_cons_of_mem _ hx)) hr
    refine ⟨s', ?_, by rwa [List.append_assoc, List.singleton_append] at hall⟩
    rw [List.foldlM_cons, ht]
    exact hs

/-- A fold over steps that can be exchanged does not depend on their order. -/
theorem foldlM_perm (h : xs.Perm ys)
    (hf : ∀ x ∈ xs, ∀ y ∈ xs, x ≠ y → ∀ s t u, f s x = .ok t → f t y = .ok u →
      ∃ t', f s y = .ok t' ∧ f t' x = .ok u)
    (hs : xs.foldlM f s = .ok s') : ys.foldlM f s = .ok s' := by
  induction h generalizing s with
  | nil => exact hs
  | cons x _ ih =>
    rw [List.foldlM_cons, bind_eq_ok_iff] at hs ⊢
    obtain ⟨t, ht, hs⟩ := hs
    exact ⟨t, ht, ih (fun x hx y hy => hf x (.tail _ hx) y (.tail _ hy)) hs⟩
  | swap x y rest =>
    by_cases hxy : y = x
    · rwa [hxy] at hs ⊢
    · simp only [List.foldlM_cons, bind_eq_ok_iff] at hs ⊢
      obtain ⟨t, ht, u, hu, hs⟩ := hs
      obtain ⟨t', ht', hu'⟩ := hf y (by simp) x (by simp) hxy s t u ht hu
      exact ⟨t', ht', u, hu', hs⟩
  | trans h₁ _ ih₁ ih₂ =>
    exact ih₂ (fun x hx y hy => hf x (h₁.mem_iff.mpr hx) y (h₁.mem_iff.mpr hy)) (ih₁ hf hs)

theorem mapM_ok {f : α → Except ε β} {P : α → β → Prop} (hf : ∀ x ∈ xs, ∃ y, f x = .ok y ∧ P x y) :
    ∃ ys, xs.mapM f = .ok ys ∧ List.Forall₂ P xs ys := by
  induction xs with
  | nil => exact ⟨[], rfl, .nil⟩
  | cons x xs ih =>
    obtain ⟨⟨y, hy, hp⟩, hrest⟩ := List.forall_mem_cons.mp hf
    obtain ⟨ys, hys, hall⟩ := ih hrest
    refine ⟨y :: ys, ?_, .cons hp hall⟩
    simp [List.mapM_cons, hy, hys, bind, Except.bind, pure, Except.pure]

/-- Where a map succeeds, each step has. -/
theorem forall₂_of_mapM {f : α → Except ε β} {ys : List β} (h : xs.mapM f = .ok ys) :
    List.Forall₂ (fun x y => f x = .ok y) xs ys := by
  induction xs generalizing ys with
  | nil =>
    cases h
    exact .nil
  | cons x xs ih =>
    rw [List.mapM_cons] at h
    obtain ⟨y, hy, h⟩ := bind_eq_ok_iff.mp h
    obtain ⟨rest, hrest, h⟩ := bind_eq_ok_iff.mp h
    cases h
    exact .cons hy (ih hrest)

theorem exists_mapM_ok_iff {f : α → Except ε β} :
    (∃ ys, xs.mapM f = .ok ys) ↔ ∀ x ∈ xs, ∃ y, f x = .ok y := by
  constructor
  · rintro ⟨ys, h⟩
    have hall := forall₂_of_mapM h
    clear h
    induction hall with
    | nil => simp
    | cons hx _ ih => exact List.forall_mem_cons.mpr ⟨⟨_, hx⟩, ih⟩
  · intro h
    have hall : ∀ x ∈ xs, ∃ y, f x = .ok y ∧ True := by
      intro x hx
      obtain ⟨y, hy⟩ := h x hx
      exact ⟨y, hy, trivial⟩
    obtain ⟨ys, hys, -⟩ := mapM_ok hall
    exact ⟨ys, hys⟩

end Fallible
