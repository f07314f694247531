import Mathlib.Data.Fintype.Card
import Mathlib.Data.Set.Finite.Basic
import Mathlib.Logic.Relation

/-! Objects that hold strong references to each other, some of them held from outside. -/
namespace References

open Relation

variable {N : Type}

structure Graph (N : Type) where
  root : N → Prop
  refers : N → N → Prop

variable {G : Graph N} {n m : N}

/-- An object is alive while strong references lead to it from outside. -/
def Live (G : Graph N) (n : N) : Prop := ∃ r, G.root r ∧ ReflTransGen G.refers r n

theorem Live.of_root (h : G.root n) : Live G n := ⟨n, h, .refl⟩

theorem Live.refers (h : Live G m) (hr : G.refers m n) : Live G n := by
  obtain ⟨r, hroot, hpath⟩ := h
  exact ⟨r, hroot, hpath.tail hr⟩

theorem Live.induct {P : N → Prop} (hroot : ∀ n, G.root n → P n)
    (hrefers : ∀ m n, Live G m → P m → G.refers m n → P n) (h : Live G n) : P n := by
  obtain ⟨r, hr, hpath⟩ := h
  induction hpath with
  | refl => exact hroot r hr
  | tail hpath hmn ih => exact hrefers _ _ ⟨r, hr, hpath⟩ ih hmn

/-- What is alive is held from outside or by something alive. -/
theorem Live.cases (h : Live G n) : G.root n ∨ ∃ m, Live G m ∧ G.refers m n := by
  obtain ⟨r, hroot, hpath⟩ := h
  rcases hpath.cases_tail with rfl | ⟨m, hm, hr⟩
  · exact .inl hroot
  · exact .inr ⟨m, ⟨r, hroot, hm⟩, hr⟩

/-- Reference counting keeps what has a reference to it from outside or from what it keeps. -/
def Counted (G : Graph N) (K : Set N) : Prop := ∀ n ∈ K, G.root n ∨ ∃ m ∈ K, G.refers m n

theorem Counted.live : Counted G {n | Live G n} := fun _ h => Live.cases h

theorem acyclic_of_rank {α : Type} [Preorder α] (rank : N → α)
    (h : ∀ m n, G.refers m n → rank n < rank m) (n : N) : ¬TransGen G.refers n n := by
  have hlt : ∀ m n, TransGen G.refers m n → rank n < rank m := by
    intro m n hpath
    induction hpath with
    | single hr => exact h _ _ hr
    | tail _ hr ih => exact (h _ _ hr).trans ih
  intro hcycle
  exact lt_irrefl _ (hlt n n hcycle)

/-- Without cycles, counting keeps nothing that is not alive. -/
theorem Counted.live_of_acyclic {K : Set N} (hK : Counted G K) (hfin : K.Finite)
    (hacyclic : ∀ n, ¬TransGen G.refers n n) (hn : n ∈ K) : Live G n := by
  have : Finite K := hfin
  let above (a b : K) : Prop := TransGen G.refers a.1 b.1
  have : IsTrans K above := ⟨fun _ _ _ => TransGen.trans⟩
  have : Std.Irrefl above := ⟨fun a => hacyclic a.1⟩
  have hwf : WellFounded above := Finite.wellFounded_of_trans_of_irrefl above
  have hall : ∀ a : K, Live G a.1 := by
    intro a
    induction a using hwf.induction with
    | _ a ih =>
      rcases hK a.1 a.2 with hroot | ⟨m, hm, hr⟩
      · exact .of_root hroot
      · exact (ih ⟨m, hm⟩ (.single hr)).refers hr
  exact hall ⟨n, hn⟩

end References
