import Mathlib.Data.List.Infix

/-! Rows compared by one key after the other, and what remains sorted when keys are left out. -/
namespace Lexicographic

variable {R α : Type} {keys more : List (R → R → Ordering)} {rows : List R} {xs ys : List α}

/-- The first key that tells the two rows apart decides. -/
def compare (keys : List (R → R → Ordering)) (a b : R) : Ordering :=
  keys.foldr (fun key rest => (key a b).then rest) .eq

/-- No row comes after a greater one. -/
def Sorted (keys : List (R → R → Ordering)) (rows : List R) : Prop :=
  rows.Pairwise fun a b => compare keys a b ≠ .gt

theorem compare_cons (key : R → R → Ordering) (keys : List (R → R → Ordering)) (a b : R) :
    compare (key :: keys) a b = (key a b).then (compare keys a b) := rfl

theorem compare_append (keys more : List (R → R → Ordering)) (a b : R) :
    compare (keys ++ more) a b = (compare keys a b).then (compare more a b) := by
  induction keys with
  | nil => rfl
  | cons key keys ih =>
    rw [List.cons_append, compare_cons, compare_cons, ih]
    cases key a b <;> rfl

/-- Rows stay sorted when the last keys are left out. -/
theorem Sorted.of_append (h : Sorted (keys ++ more) rows) : Sorted keys rows := by
  apply List.Pairwise.imp _ h
  intro a b hab hgt
  apply hab
  rw [compare_append, hgt]
  rfl

theorem Sorted.initial (h : Sorted more rows) (hk : keys <+: more) : Sorted keys rows := by
  obtain ⟨rest, rfl⟩ := hk
  exact h.of_append

/-- Two rows sorted by two keys, which the second key alone has the other way round. -/
example : Sorted [fun a b : ℕ × ℕ => Ord.compare a.1 b.1, fun a b => Ord.compare a.2 b.2] [(1, 2), (2, 1)] ∧
    ¬Sorted [fun a b : ℕ × ℕ => Ord.compare a.2 b.2] [(1, 2), (2, 1)] := by
  simp [Sorted, compare]
  decide

/-- `ys` is the longest initial part of `xs` whose entries all have a property. -/
structure LongestInitial (P : α → Prop) (xs ys : List α) : Prop where
  initial : ys <+: xs
  all : ∀ y ∈ ys, P y
  longest : ∀ zs, zs <+: xs → (∀ z ∈ zs, P z) → zs <+: ys

theorem longestInitial_nil {P : α → Prop} {x : α} (hx : ¬P x) : LongestInitial P (x :: xs) [] where
  initial := List.nil_prefix
  all := by simp
  longest := by
    intro zs hz hall
    cases zs with
    | nil => exact List.nil_prefix
    | cons z zs =>
      obtain ⟨rfl, -⟩ := List.cons_prefix_cons.mp hz
      exact absurd (hall z List.mem_cons_self) hx

theorem LongestInitial.cons {P : α → Prop} {x : α} (hx : P x) (h : LongestInitial P xs ys) :
    LongestInitial P (x :: xs) (x :: ys) where
  initial := List.cons_prefix_cons.mpr ⟨rfl, h.initial⟩
  all := List.forall_mem_cons.mpr ⟨hx, h.all⟩
  longest := by
    intro zs hz hall
    cases zs with
    | nil => exact List.nil_prefix
    | cons z zs =>
      obtain ⟨rfl, hzs⟩ := List.cons_prefix_cons.mp hz
      exact List.cons_prefix_cons.mpr ⟨rfl, h.longest zs hzs (List.forall_mem_cons.mp hall).2⟩

end Lexicographic
