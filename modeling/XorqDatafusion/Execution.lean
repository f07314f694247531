import XorqDatafusion.Transition
import Mathlib.Order.Filter.AtTopBot.Basic
import Mathlib.Order.Filter.Finite

/-! Infinite executions: fairness, and what a measure brings about under it. -/
namespace Transition

universe u v

variable {σ : Type u} {α : Type v} {T : System σ α} {s t : σ} {xs : List (σ × α)}

/-- An infinite run. Where there is no event, nothing changes. -/
structure Execution (T : System σ α) where
  state : ℕ → σ
  event : ℕ → Option α
  start : T.start (state 0)
  rest : ∀ n, event n = none → state (n + 1) = state n
  step : ∀ n a, event n = some a → T.step (state n) a (state (n + 1))

namespace Execution

variable {E : Execution T} {W : σ → α → Prop} {I G : σ → Prop} {m n : ℕ}

def Occurs (E : Execution T) (W : σ → α → Prop) (n : ℕ) : Prop :=
  ∃ a, E.event n = some a ∧ W (E.state n) a

/-- If `Q` holds from some time on, an action of `W` occurs after it. -/
def Responds (E : Execution T) (Q : σ → Prop) (W : σ → α → Prop) : Prop :=
  ∀ n, (∀ k, n ≤ k → Q (E.state k)) → ∃ k, n ≤ k ∧ E.Occurs W k

/-- Weak fairness: actions of `W` that stay possible are taken. -/
def Fair (E : Execution T) (W : σ → α → Prop) : Prop :=
  E.Responds (fun s => ∃ a t, W s a ∧ T.step s a t) W

theorem reachable (E : Execution T) (n : ℕ) : T.Reachable (E.state n) := by
  induction n with
  | zero => exact .of_start E.start
  | succ n ih =>
    cases he : E.event n with
    | none => rwa [E.rest n he]
    | some a => exact ih.step (E.step n a he)

/-- What the actions that occur preserve, lasts. -/
theorem lasts (hp : ∀ s a t, T.Reachable s → T.step s a t → W s a → I s → I t) (hmn : m ≤ n)
    (hn : ∀ k, m ≤ k → k < n → ∀ a, E.event k = some a → W (E.state k) a) (h : I (E.state m)) :
    I (E.state n) := by
  induction n, hmn using Nat.le_induction with
  | base => exact h
  | succ n hmn ih =>
    have hI := ih fun k hk hkn => hn k hk (by omega)
    cases he : E.event n with
    | none => rwa [E.rest n he]
    | some a => exact hp _ a _ (E.reachable n) (E.step n a he) (hn n hmn (by omega) a he) hI

/-- A measure that no action raises and those of `W` bring down leads to `G`, if as long as `G` does
not hold an action of `W` is still to come. -/
theorem eventually {M : σ → ℕ} (h : I (E.state n))
    (hI : ∀ s a t, T.Reachable s → T.step s a t → I s → ¬G s → I t)
    (hM : ∀ s a t, T.Reachable s → T.step s a t → I s → ¬G s → ¬G t →
      M t ≤ M s ∧ (W s a → M t < M s))
    (hw : ∀ k, n ≤ k → (∀ l, k ≤ l → I (E.state l) ∧ ¬G (E.state l)) →
      ∃ l, k ≤ l ∧ E.Occurs W l) : ∃ k, n ≤ k ∧ G (E.state k) := by
  by_contra hn
  have hnever : ∀ k, n ≤ k → ¬G (E.state k) := fun k hk hg => hn ⟨k, hk, hg⟩
  have hkeep : ∀ k, n ≤ k → I (E.state k) := fun k hk =>
    lasts (W := fun s _ => ¬G s) (fun s a t hr hs hg hi => hI s a t hr hs hi hg) hk
      (fun l hl _ _ _ => hnever l hl) h
  have hstep : ∀ k, n ≤ k →
      M (E.state (k + 1)) ≤ M (E.state k) ∧ (E.Occurs W k → M (E.state (k + 1)) < M (E.state k)) := by
    intro k hk
    cases he : E.event k with
    | none => simp [E.rest k he, Occurs, he]
    | some a =>
      have hle := hM _ a _ (E.reachable k) (E.step k a he) (hkeep k hk) (hnever k hk)
        (hnever _ (by omega))
      refine ⟨hle.1, ?_⟩
      rintro ⟨b, hb, hwb⟩
      obtain rfl : a = b := by simpa [he] using hb
      exact hle.2 hwb
  have hanti : ∀ k, n ≤ k → ∀ l, k ≤ l → M (E.state l) ≤ M (E.state k) := by
    intro k hk l hl
    induction l, hl using Nat.le_induction with
    | base => exact le_rfl
    | succ l hl ih => exact (hstep l (by omega)).1.trans ih
  have hdown : ∀ v k, n ≤ k → M (E.state k) ≠ v := by
    intro v
    induction v using Nat.strong_induction_on with
    | _ v ih =>
      rintro k hk rfl
      obtain ⟨l, hl, hocc⟩ := hw k hk fun j hj => ⟨hkeep j (by omega), hnever j (by omega)⟩
      have hlt := (hstep l (by omega)).2 hocc
      have hle := hanti k hk l hl
      exact ih _ (by omega) (l + 1) (by omega) rfl
  exact hdown _ n le_rfl rfl

theorem Responds.mono {Q Q' : σ → Prop} {W' : σ → α → Prop} (h : E.Responds Q W)
    (hQ : ∀ s, T.Reachable s → Q' s → Q s) (hW : ∀ s a, W s a → W' s a) : E.Responds Q' W' := by
  intro n hn
  obtain ⟨k, hk, a, he, hw⟩ := h n fun k hk => hQ _ (E.reachable k) (hn k hk)
  exact ⟨k, hk, a, he, hW _ a hw⟩

section Map

variable {τ β : Type*} {T' : System τ β} {f : σ → τ} {g : α → Option β}

/-- An execution through a view of the states, in which some of the actions change nothing. -/
def map (E : Execution T) (hstart : ∀ s, T.start s → T'.start (f s))
    (hrest : ∀ s a t, T.Reachable s → T.step s a t → g a = none → f t = f s)
    (hstep : ∀ s a t b, T.Reachable s → T.step s a t → g a = some b → T'.step (f s) b (f t)) :
    Execution T' where
  state n := f (E.state n)
  event n := (E.event n).bind g
  start := hstart _ E.start
  rest n he := by
    cases hn : E.event n with
    | none => rw [E.rest n hn]
    | some a => exact hrest _ a _ (E.reachable n) (E.step n a hn) (by simpa [hn] using he)
  step n b he := by
    obtain ⟨a, ha, hb⟩ := Option.bind_eq_some_iff.mp he
    exact hstep _ a _ b (E.reachable n) (E.step n a ha) hb

theorem Responds.map {Q : τ → Prop} {V : τ → β → Prop} {hstart : ∀ s, T.start s → T'.start (f s)}
    {hrest : ∀ s a t, T.Reachable s → T.step s a t → g a = none → f t = f s}
    {hstep : ∀ s a t b, T.Reachable s → T.step s a t → g a = some b → T'.step (f s) b (f t)}
    (h : E.Responds (fun s => Q (f s)) fun s a => ∃ b, g a = some b ∧ V (f s) b) :
    (E.map hstart hrest hstep).Responds Q V := by
  intro n hn
  obtain ⟨k, hk, a, he, b, hb, hv⟩ := h n hn
  exact ⟨k, hk, b, Option.bind_eq_some_iff.mpr ⟨a, he, hb⟩, hv⟩

end Map

/-- The states of a finite run, the last of them for ever. -/
def held : List (σ × α) → σ → ℕ → σ
  | [], t, _ => t
  | x :: _, _, 0 => x.1
  | _ :: xs, t, n + 1 => held xs t n

theorem held_of_le (h : xs.length ≤ n) : held xs t n = t := by
  induction xs generalizing n with
  | nil => rfl
  | cons x xs ih =>
    cases n with
    | zero => simp at h
    | succ n => exact ih (by simpa using h)

theorem held_zero (h : T.Run s xs t) : held xs t 0 = s := by
  cases h <;> rfl

theorem held_step (h : T.Run s xs t) (n : ℕ) :
    match xs[n]? with
    | none => held xs t (n + 1) = held xs t n
    | some x => T.step (held xs t n) x.2 (held xs t (n + 1)) := by
  induction h generalizing n with
  | refl => simp [held]
  | @stepL s t r a xs hs hr ih =>
    cases n with
    | zero => simpa [held, held_zero hr] using hs
    | succ n => simpa [held] using ih n

/-- A finite run, after which nothing happens any more. -/
def ofRun (hs : T.start s) (h : T.Run s xs t) : Execution T where
  state := held xs t
  event n := xs[n]?.map Prod.snd
  start := by rwa [held_zero h]
  rest n he := by
    have hn := held_step h n
    rw [Option.map_eq_none_iff] at he
    rwa [he] at hn
  step n a he := by
    have hn := held_step h n
    obtain ⟨x, hx, rfl⟩ := Option.map_eq_some_iff.mp he
    rwa [hx] at hn

theorem ofRun_state (hs : T.start s) (h : T.Run s xs t) (n : ℕ) :
    (ofRun hs h).state n = held xs t n := rfl

/-- A finite run responds to whatever does not hold at its end. -/
theorem responds_ofRun (hs : T.start s) (h : T.Run s xs t) {Q : σ → Prop} (ht : ¬Q t) :
    (ofRun hs h).Responds Q W := by
  intro n hn
  have hq := hn (max n xs.length) (le_max_left _ _)
  rw [ofRun_state, held_of_le (le_max_right _ _)] at hq
  exact absurd hq ht

/-- What becomes of each of finitely many things in the end, becomes of all of them together. -/
theorem eventually_forall {ι : Type*} [Finite ι] {G : ι → σ → Prop}
    (h : ∀ i, ∃ n, ∀ k, n ≤ k → G i (E.state k)) : ∃ n, ∀ k, n ≤ k → ∀ i, G i (E.state k) := by
  have hall : ∀ᶠ k in Filter.atTop, ∀ i, G i (E.state k) :=
    Filter.eventually_all.mpr fun i => Filter.eventually_atTop.mpr (h i)
  exact Filter.eventually_atTop.mp hall

/-- A run of one component of a family, as an execution of the family in which the others rest. -/
theorem exists_of_replay {ι κ α : Type*} [DecidableEq ι] {C : ι → Component κ σ α}
    {f : α → κ × σ → Option (κ × σ)} (σs : ι → σ) {i : ι} {k₀ k : κ} {as : List α}
    (h₀ : ∀ i, (C i).start (σs i)) (hf : ∀ a p q, f a p = some q → (C i).step p a q)
    (h : System.replay f as (k₀, σs i) = some (k, s)) :
    ∃ X : Execution (family C k₀),
      (∃ n, ∀ m, n ≤ m → X.state m = (k, Function.update σs i s)) ∧
      ∀ Q W, ¬Q (k, Function.update σs i s) → X.Responds Q W := by
  obtain ⟨xs, hrun⟩ := family_replay σs i hf h
  have hs : (family C k₀).start (k₀, σs) := ⟨rfl, h₀⟩
  refine ⟨ofRun hs hrun, ⟨xs.length, fun m hm => ?_⟩, fun Q W hq => responds_ofRun hs hrun hq⟩
  rw [ofRun_state, held_of_le hm]

end Execution

end Transition
