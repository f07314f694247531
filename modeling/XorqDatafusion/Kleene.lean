import Mathlib.Order.Basic
import Mathlib.Tactic.Common

/-! Kleene's three-valued logic: `none` is unknown. -/
namespace Kleene

abbrev Truth := Option Bool

variable {a a' b b' : Truth} {α β : Type*} {f g : α → Truth} {xs : List α}

def not : Truth → Truth
  | some b => some !b
  | none => none

def and : Truth → Truth → Truth
  | some false, _ | _, some false => some false
  | some true, some true => some true
  | _, _ => none

def or : Truth → Truth → Truth
  | some true, _ | _, some true => some true
  | some false, some false => some false
  | _, _ => none

/-- Whether some entry satisfies `f`. -/
def any (f : α → Truth) (xs : List α) : Truth := xs.foldr (fun x => or (f x)) (some false)

@[simp]
theorem and_eq_true : and a b = some true ↔ a = some true ∧ b = some true := by
  rcases a with _ | _ | _ <;> rcases b with _ | _ | _ <;> simp [and]

@[simp]
theorem or_eq_true : or a b = some true ↔ a = some true ∨ b = some true := by
  rcases a with _ | _ | _ <;> rcases b with _ | _ | _ <;> simp [or]

theorem and_eq_false : and a b = some false ↔ a = some false ∨ b = some false := by
  rcases a with _ | _ | _ <;> rcases b with _ | _ | _ <;> simp [and]

theorem or_eq_false : or a b = some false ↔ a = some false ∧ b = some false := by
  rcases a with _ | _ | _ <;> rcases b with _ | _ | _ <;> simp [or]

@[simp]
theorem true_and : and (some true) a = a := by
  rcases a with _ | _ | _ <;> rfl

@[simp]
theorem false_and : and (some false) a = some false := by
  rcases a with _ | _ | _ <;> rfl

/-- `b` says whatever `a` says. -/
def Refines (x y : Option β) : Prop := x = none ∨ x = y

theorem Refines.refl (x : Option β) : Refines x x := .inr rfl

theorem Refines.eq_some {x y : Option β} {v : β} (h : Refines x y) (hx : x = some v) :
    y = some v := by
  rcases h with h | h <;> simp_all

theorem Refines.not (h : Refines a b) : Refines (not a) (not b) := by
  rcases h with rfl | rfl
  · exact .inl rfl
  · exact .refl _

theorem Refines.and (ha : Refines a a') (hb : Refines b b') : Refines (and a b) (and a' b') := by
  rcases ha with rfl | rfl <;> rcases hb with rfl | rfl
  · exact .inl rfl
  · rcases b with _ | _ | _ <;> rcases a' with _ | _ | _ <;> simp [Refines, Kleene.and]
  · rcases a with _ | _ | _ <;> rcases b' with _ | _ | _ <;> simp [Refines, Kleene.and]
  · exact .refl _

theorem Refines.or (ha : Refines a a') (hb : Refines b b') : Refines (or a b) (or a' b') := by
  rcases ha with rfl | rfl <;> rcases hb with rfl | rfl
  · exact .inl rfl
  · rcases b with _ | _ | _ <;> rcases a' with _ | _ | _ <;> simp [Refines, Kleene.or]
  · rcases a with _ | _ | _ <;> rcases b' with _ | _ | _ <;> simp [Refines, Kleene.or]
  · exact .refl _

theorem Refines.any (h : ∀ x, Refines (f x) (g x)) : Refines (any f xs) (any g xs) := by
  induction xs with
  | nil => exact .refl _
  | cons x xs ih => exact (h x).or ih

@[simp]
theorem any_false : any (fun _ : α => some false) xs = some false := by
  induction xs with
  | nil => rfl
  | cons x xs ih =>
    simp only [any, List.foldr_cons] at ih ⊢
    rw [ih]
    rfl

/-- False lies below unknown, and unknown below true. -/
def Below (a b : Truth) : Prop := (a = some true → b = some true) ∧ (b = some false → a = some false)

theorem Below.refl (a : Truth) : Below a a := ⟨id, id⟩

theorem Below.and (ha : Below a a') (hb : Below b b') : Below (and a b) (and a' b') := by
  refine ⟨fun h => ?_, fun h => ?_⟩
  · have hab := and_eq_true.mp h
    exact and_eq_true.mpr ⟨ha.1 hab.1, hb.1 hab.2⟩
  · rcases and_eq_false.mp h with h | h
    · exact and_eq_false.mpr (.inl (ha.2 h))
    · exact and_eq_false.mpr (.inr (hb.2 h))

theorem Below.or (ha : Below a a') (hb : Below b b') : Below (or a b) (or a' b') := by
  refine ⟨fun h => ?_, fun h => ?_⟩
  · rcases or_eq_true.mp h with h | h
    · exact or_eq_true.mpr (.inl (ha.1 h))
    · exact or_eq_true.mpr (.inr (hb.1 h))
  · have hab := or_eq_false.mp h
    exact or_eq_false.mpr ⟨ha.2 hab.1, hb.2 hab.2⟩

end Kleene
