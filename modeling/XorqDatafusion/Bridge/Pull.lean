import Mathlib.Data.List.Infix
import Mathlib.Data.List.Range

/-! What a pull answers, and what a stream of its answers must deliver. -/
namespace XorqDatafusion.Bridge

/-- What one call of a `BatchPull` comes to: `Some(Ok(_))`, `Some(Err(_))`, `None` or a panic. -/
inductive Outcome (B E : Type)
  | batch (b : B)
  | error (e : E)
  | done
  | panic (payload : String)
deriving DecidableEq

variable {B E : Type} {check : B → Except E Unit} {os ps : List (Outcome B E)}

/-- What the answers so far say about the source. -/
inductive Verdict
  | going
  | ended
  | panicked (payload : String)
deriving DecidableEq

def Outcome.verdict (check : B → Except E Unit) : Outcome B E → Verdict
  | .batch b => match check b with
    | .ok () => .going
    | .error _ => .ended
  | .error _ | .done => .ended
  | .panic payload => .panicked payload

/-- What one answer adds to the stream: a rejected batch adds its error instead. -/
def Outcome.items (check : B → Except E Unit) : Outcome B E → List (Except E B)
  | .batch b => match check b with
    | .ok () => [.ok b]
    | .error e => [.error e]
  | .error e => [.error e]
  | .done | .panic _ => []

/-- The first terminal answer decides. -/
def verdict (check : B → Except E Unit) : List (Outcome B E) → Verdict
  | [] => .going
  | o :: os => match o.verdict check with
    | .going => verdict check os
    | v => v

/-- The batches up to the first terminal answer, with what that answer adds. -/
def spec (check : B → Except E Unit) : List (Outcome B E) → List (Except E B)
  | [] => []
  | o :: os => match o.verdict check with
    | .going => o.items check ++ spec check os
    | _ => o.items check

/-- The answers of the first `n` calls. -/
def firstCalls (pull : ℕ → Outcome B E) (n : ℕ) : List (Outcome B E) := (List.range n).map pull

theorem verdict_append_of_going (h : verdict check os = .going) :
    verdict check (os ++ ps) = verdict check ps := by
  induction os with
  | nil => rfl
  | cons o os ih =>
    cases ho : o.verdict check <;> simp_all [verdict]

theorem verdict_append_of_over (h : verdict check os ≠ .going) :
    verdict check (os ++ ps) = verdict check os := by
  induction os with
  | nil => simp [verdict] at h
  | cons o os ih =>
    cases ho : o.verdict check <;> simp_all [verdict]

theorem spec_append_of_going (h : verdict check os = .going) :
    spec check (os ++ ps) = spec check os ++ spec check ps := by
  induction os with
  | nil => rfl
  | cons o os ih =>
    cases ho : o.verdict check <;> simp_all [verdict, spec]

/-- Nothing after a terminal answer counts. -/
theorem spec_append_of_over (h : verdict check os ≠ .going) :
    spec check (os ++ ps) = spec check os := by
  induction os with
  | nil => simp [verdict] at h
  | cons o os ih =>
    cases ho : o.verdict check <;> simp_all [verdict, spec]

theorem verdict_singleton (o : Outcome B E) : verdict check [o] = o.verdict check := by
  cases h : o.verdict check <;> simp [verdict, h]

theorem spec_singleton (o : Outcome B E) : spec check [o] = o.items check := by
  cases h : o.verdict check <;> simp [spec, h]

theorem spec_prefix_append : spec check os <+: spec check (os ++ ps) := by
  by_cases h : verdict check os = .going
  · rw [spec_append_of_going h]
    exact List.prefix_append _ _
  · rw [spec_append_of_over h]

/-- Every answer so far was an accepted batch, and each of them counts. -/
theorem spec_length_of_going (h : verdict check os = .going) :
    (spec check os).length = os.length := by
  induction os with
  | nil => rfl
  | cons o os ih =>
    have ho : o.verdict check = .going := by
      cases ho : o.verdict check <;> simp_all [verdict]
    have hi : (o.items check).length = 1 := by
      cases o with
      | batch b => simp only [Outcome.items]; split <;> rfl
      | error e => rfl
      | done | panic => simp [Outcome.verdict] at ho
    simp only [verdict, ho] at h
    simp only [spec, ho, List.length_append, List.length_cons, hi, ih h]
    omega

/-- Only an accepted batch is delivered as one. -/
theorem ok_mem_items_iff {b : B} {o : Outcome B E} :
    .ok b ∈ o.items check ↔ o = .batch b ∧ check b = .ok () := by
  cases o with
  | batch b' =>
    simp only [Outcome.items]
    split <;> aesop
  | error e => simp [Outcome.items]
  | done | panic => simp [Outcome.items]

theorem check_of_mem_spec {b : B} (h : .ok b ∈ spec check os) : check b = .ok () := by
  induction os with
  | nil => simp [spec] at h
  | cons o os ih =>
    cases ho : o.verdict check with
    | going =>
      simp only [spec, ho, List.mem_append] at h
      exact h.elim (fun h => (ok_mem_items_iff.mp h).2) ih
    | ended | panicked => exact (ok_mem_items_iff.mp (by simpa [spec, ho] using h)).2

theorem firstCalls_succ (pull : ℕ → Outcome B E) (n : ℕ) :
    firstCalls pull (n + 1) = firstCalls pull n ++ [pull n] := by
  simp [firstCalls, List.range_succ]

theorem firstCalls_prefix (pull : ℕ → Outcome B E) {m n : ℕ} (h : m ≤ n) :
    firstCalls pull m <+: firstCalls pull n := by
  induction n, h using Nat.le_induction with
  | base => exact List.prefix_rfl
  | succ n _ ih =>
    rw [firstCalls_succ]
    exact ih.trans (List.prefix_append _ _)

/-- Once the source is over, what it delivers does not depend on how many more calls one counts. -/
theorem spec_prefix_of_over {pull : ℕ → Outcome B E} {n : ℕ}
    (h : verdict check (firstCalls pull n) ≠ .going) (m : ℕ) :
    spec check (firstCalls pull m) <+: spec check (firstCalls pull n) := by
  rcases Nat.le_total m n with hmn | hnm
  · obtain ⟨ps, hps⟩ := firstCalls_prefix pull hmn
    rw [← hps]
    exact spec_prefix_append
  · obtain ⟨ps, hps⟩ := firstCalls_prefix pull hnm
    rw [← hps, spec_append_of_over h]

section Batches

variable {bs : List B}

theorem spec_batches (h : ∀ b ∈ bs, check b = .ok ()) :
    spec check (bs.map .batch ++ os) = bs.map .ok ++ spec check os := by
  induction bs with
  | nil => rfl
  | cons b bs ih =>
    obtain ⟨hb, h⟩ := List.forall_mem_cons.mp h
    simp [spec, Outcome.verdict, Outcome.items, hb, ih h]

theorem verdict_batches (h : ∀ b ∈ bs, check b = .ok ()) :
    verdict check (bs.map .batch ++ os) = verdict check os := by
  induction bs with
  | nil => rfl
  | cons b bs ih =>
    obtain ⟨hb, h⟩ := List.forall_mem_cons.mp h
    simp [verdict, Outcome.verdict, hb, ih h]

/-- While the source is going on, its answers are accepted batches. -/
theorem batches_of_going (h : verdict check os = .going) :
    ∃ bs : List B, os = bs.map .batch ∧ ∀ b ∈ bs, check b = .ok () := by
  induction os with
  | nil => exact ⟨[], rfl, by simp⟩
  | cons o os ih =>
    cases ho : o.verdict check with
    | going =>
      obtain ⟨bs, rfl, hbs⟩ := ih (by simpa [verdict, ho] using h)
      cases o with
      | batch b =>
        have hb : check b = .ok () := by
          cases hb : check b <;> simp [Outcome.verdict, hb] at ho ⊢
        exact ⟨b :: bs, rfl, List.forall_mem_cons.mpr ⟨hb, hbs⟩⟩
      | _ => simp [Outcome.verdict] at ho
    | _ => simp [verdict, ho] at h

/-- Up to the answer that ends the source, every accepted batch is delivered. -/
theorem ok_mem_spec_iff {b : B} (h : verdict check os.dropLast = .going) :
    .ok b ∈ spec check os ↔ .batch b ∈ os ∧ check b = .ok () := by
  rcases List.eq_nil_or_concat os with rfl | ⟨init, last, rfl⟩
  · simp [spec]
  · rw [List.concat_eq_append] at h ⊢
    rw [List.dropLast_concat] at h
    obtain ⟨bs, rfl, hbs⟩ := batches_of_going h
    rw [spec_batches hbs, spec_singleton, List.mem_append, ok_mem_items_iff]
    simp only [List.mem_map, List.mem_append, List.mem_singleton, Except.ok.injEq,
      Outcome.batch.injEq, exists_eq_right, eq_comm (a := last), or_and_right]
    exact or_congr_left ⟨fun hb => ⟨hb, hbs b hb⟩, And.left⟩

/-- Answers without an error are accepted batches, at least up to one that brings nothing. -/
theorem exists_batches (h : ∀ e, .error e ∉ spec check os) :
    ∃ (bs : List B) (ps : List (Outcome B E)), os = bs.map .batch ++ ps ∧
      (∀ b ∈ bs, check b = .ok ()) ∧ ∀ o ∈ ps.head?, o = .done ∨ ∃ payload, o = .panic payload := by
  induction os with
  | nil => exact ⟨[], [], rfl, by simp, by simp⟩
  | cons o os ih =>
    cases o with
    | batch b =>
      cases hb : check b with
      | ok u =>
        simp only [spec, Outcome.verdict, Outcome.items, hb, List.mem_append, not_or] at h
        obtain ⟨bs, ps, rfl, hbs, hps⟩ := ih fun e => (h e).2
        exact ⟨b :: bs, ps, rfl, List.forall_mem_cons.mpr ⟨hb, hbs⟩, hps⟩
      | error e => exact absurd (by simp [spec, Outcome.verdict, Outcome.items, hb]) (h e)
    | error e => exact absurd (by simp [spec, Outcome.verdict, Outcome.items]) (h e)
    | done => exact ⟨[], .done :: os, rfl, by simp, by simp⟩
    | panic payload => exact ⟨[], .panic payload :: os, rfl, by simp, by simp⟩

end Batches

end XorqDatafusion.Bridge
