import XorqDatafusion.Fallible
import XorqDatafusion.Python
import Mathlib.Algebra.BigOperators.Group.List.Basic
import Mathlib.Algebra.Ring.Int.Defs

/-! Aggregation through a Python accumulator, in one phase and in two. -/
namespace XorqDatafusion

open Fallible

/-- The arrays of one `update_batch` call. -/
abbrev Batch (V : Type) := List (List V)

/-- A Python accumulator class: the state of a fresh object and its methods. A method takes as many
arrays as the caller gives it, and may raise. -/
structure PyAccumulator (S V R : Type) where
  new : S
  update : List (List V) → S → Except PyErr S
  state : S → Except PyErr (List V)
  merge : List (List V) → S → Except PyErr S
  evaluate : S → Except PyErr R

variable {S V R : Type}

namespace RustAccumulator

def updateBatch (accum : PyAccumulator S V R) (values : List (List V)) (s : S) : Except Fault S :=
  toExternalErr (accum.update values s)

def evaluate (accum : PyAccumulator S V R) (s : S) : Except Fault R :=
  toExternalErr (accum.evaluate s)

def state (accum : PyAccumulator S V R) (s : S) : Except Fault (List V) :=
  toExternalErr (accum.state s)

/-- `merge_batch`: only the first state array reaches Python. -/
def mergeBatch (accum : PyAccumulator S V R) (states : List (List V)) (s : S) : Except Fault S :=
  match states with
  | state :: _ => toExternalErr (accum.merge [state] s)
  | [] => .error (.panicked "index out of bounds: the len is 0 but the index is 0")

end RustAccumulator

/-- The `k` state arrays of a list of state rows. -/
def columns (k : ℕ) (rows : List (List V)) : List (List V) :=
  (List.range k).map fun i => rows.filterMap (·[i]?)

/-- A fresh accumulator, updated with some batches. -/
def feed (accum : PyAccumulator S V R) (batches : List (Batch V)) : Except Fault S :=
  batches.foldlM (fun s batch => RustAccumulator.updateBatch accum batch s) accum.new

def singlePhase (accum : PyAccumulator S V R) (batches : List (Batch V)) : Except Fault R := do
  let s ← feed accum batches
  RustAccumulator.evaluate accum s

/-- The state row of one partition. -/
def partialState (accum : PyAccumulator S V R) (partition : List (Batch V)) :
    Except Fault (List V) := do
  let s ← feed accum partition
  RustAccumulator.state accum s

/-- Each partition goes to an accumulator of its own; each group of their state rows is one
`merge_batch` call of a fresh one. -/
def twoPhase (accum : PyAccumulator S V R) (k : ℕ) (groups : List (List (List (Batch V)))) :
    Except Fault R := do
  let s ← groups.foldlM (fun s group => do
    let rows ← group.mapM (partialState accum)
    RustAccumulator.mergeBatch accum (columns k rows) s) accum.new
  RustAccumulator.evaluate accum s

namespace PyAccumulator

/-- The object after these updates. -/
def updated (accum : PyAccumulator S V R) (batches : List (Batch V)) : Except PyErr S :=
  batches.foldlM (fun s batch => accum.update batch s) accum.new

/-- What the class makes of its input by itself. -/
def singlePhase (accum : PyAccumulator S V R) (batches : List (Batch V)) : Except PyErr R := do
  let s ← accum.updated batches
  accum.evaluate s

def stateRow (accum : PyAccumulator S V R) (partition : List (Batch V)) : Except PyErr (List V) := do
  let s ← accum.updated partition
  accum.state s

/-- The two phases with the class itself, when `merge` gets the state arrays as `shown`. -/
def twoPhase (accum : PyAccumulator S V R) (k : ℕ) (shown : List (List V) → List (List V))
    (groups : List (List (List (Batch V)))) : Except PyErr R := do
  let s ← groups.foldlM (fun s group => do
    let rows ← group.mapM accum.stateRow
    accum.merge (shown (columns k rows)) s) accum.new
  accum.evaluate s

/-- `Fed batches s` says that `s` is as good as having been updated with `batches`. An accumulator
is right about it when merging the state rows of accumulators, as `shown` to it, is as good as
having been fed what they were fed. -/
structure Correct (accum : PyAccumulator S V R) (k : ℕ)
    (shown : List (List V) → List (List V)) (Fed : List (Batch V) → S → Prop) : Prop where
  new : Fed [] accum.new
  update : ∀ batches s batch s', Fed batches s → accum.update batch s = .ok s' →
    Fed (batches ++ [batch]) s'
  state : ∀ batches s, Fed batches s → ∃ row, accum.state s = .ok row ∧ row.length = k
  merge : ∀ batches s partitions rows, Fed batches s →
    List.Forall₂ (fun partition row => ∃ s', Fed partition s' ∧ accum.state s' = .ok row)
      partitions rows →
    ∃ s', accum.merge (shown (columns k rows)) s = .ok s' ∧ Fed (batches ++ partitions.flatten) s'
  evaluate : ∀ batches s s', Fed batches s → Fed batches s' → accum.evaluate s = accum.evaluate s'

end PyAccumulator

/-- No update raises, neither in the partitions nor in a single phase. -/
def UpdatesSucceed (accum : PyAccumulator S V R) (groups : List (List (List (Batch V)))) : Prop :=
  (∀ group ∈ groups, ∀ partition ∈ group, ∃ s, feed accum partition = .ok s) ∧
    ∃ s, feed accum groups.flatten.flatten = .ok s

/-- Two phases give what one gives, however the input is split and the states are grouped, as long
as no update raises. -/
def TwoPhaseLaw (accum : PyAccumulator S V R) (k : ℕ) : Prop :=
  ∀ groups : List (List (List (Batch V))), UpdatesSucceed accum groups →
    twoPhase accum k groups = singlePhase accum groups.flatten.flatten

section Wrapper

variable {accum : PyAccumulator S V R} {k : ℕ}

theorem toExternalErr_eq_ok {α : Type} {result : Except PyErr α} {a : α} :
    toExternalErr result = .ok a ↔ result = .ok a :=
  mapError_eq_ok_iff

theorem toExternalErr_injective {α : Type} {x y : Except PyErr α} :
    toExternalErr x = toExternalErr y ↔ x = y := by
  cases x <;> cases y <;> simp [toExternalErr, Except.mapError]

theorem feed_eq (batches : List (Batch V)) :
    feed accum batches = toExternalErr (accum.updated batches) :=
  (foldlM_mapError _ _).symm

theorem singlePhase_eq (batches : List (Batch V)) :
    singlePhase accum batches = toExternalErr (accum.singlePhase batches) := by
  unfold singlePhase
  rw [feed_eq]
  exact (mapError_bind _ _).symm

theorem partialState_eq (partition : List (Batch V)) :
    partialState accum partition = toExternalErr (accum.stateRow partition) := by
  unfold partialState
  rw [feed_eq]
  exact (mapError_bind _ _).symm

/-- Of `k` state arrays, Python gets the first. -/
theorem mergeBatch_columns (hk : 0 < k) (rows : List (List V)) (s : S) :
    RustAccumulator.mergeBatch accum (columns k rows) s =
      toExternalErr (accum.merge ((columns k rows).take 1) s) := by
  cases hc : columns k rows with
  | nil =>
    simp only [columns, List.map_eq_nil_iff, List.range_eq_nil] at hc
    omega
  | cons => rfl

/-- Through the wrapper the two phases are those of the class, with a `merge` that sees the first
state array only. -/
theorem twoPhase_eq (hk : 0 < k) (groups : List (List (List (Batch V)))) :
    twoPhase accum k groups = toExternalErr (accum.twoPhase k (List.take 1) groups) := by
  unfold twoPhase PyAccumulator.twoPhase toExternalErr
  simp only [mapError_bind, foldlM_mapError, mapM_mapError]
  have hrow : partialState accum = fun partition => toExternalErr (accum.stateRow partition) :=
    funext partialState_eq
  simp only [hrow, mergeBatch_columns hk]
  rfl

end Wrapper

namespace PyAccumulator.Correct

variable {accum : PyAccumulator S V R} {k : ℕ} {shown : List (List V) → List (List V)}
  {Fed : List (Batch V) → S → Prop} {batches : List (Batch V)} {s : S}
  {groups : List (List (List (Batch V)))} {group : List (List (Batch V))}

theorem fed (hA : accum.Correct k shown Fed) (h : accum.updated batches = .ok s) : Fed batches s := by
  refine foldlM_keeps (R := Fed) ?_ hA.new h
  intro bs s b s' hs hu
  exact hA.update bs s b s' hs hu

theorem stateRow (hA : accum.Correct k shown Fed) (h : accum.updated batches = .ok s) :
    ∃ row, accum.stateRow batches = .ok row ∧ ∃ s', Fed batches s' ∧ accum.state s' = .ok row := by
  obtain ⟨row, hrow, -⟩ := hA.state _ _ (hA.fed h)
  exact ⟨row, bind_eq_ok_iff.mpr ⟨s, h, hrow⟩, s, hA.fed h, hrow⟩

/-- Merging a group adds what its partitions were fed. -/
theorem merge_group (hA : accum.Correct k shown Fed)
    (hg : ∀ partition ∈ group, ∃ s, accum.updated partition = .ok s) (hs : Fed batches s) :
    ∃ s', (do
      let rows ← group.mapM accum.stateRow
      accum.merge (shown (columns k rows)) s) = Except.ok s' ∧ Fed (batches ++ group.flatten) s' := by
  have hrow : ∀ partition ∈ group, ∃ row, accum.stateRow partition = .ok row ∧
      ∃ s', Fed partition s' ∧ accum.state s' = .ok row := by
    intro partition hp
    obtain ⟨t, ht⟩ := hg partition hp
    exact hA.stateRow ht
  obtain ⟨rows, hrows, hall⟩ := mapM_ok hrow
  obtain ⟨s', hs', hfed⟩ := hA.merge _ s group rows hs hall
  exact ⟨s', bind_eq_ok_iff.mpr ⟨rows, hrows, hs'⟩, hfed⟩

/-- A class that merges correctly what it is shown has the same result in two phases as in one. -/
theorem twoPhase_eq (hA : accum.Correct k shown Fed) (hu : UpdatesSucceed accum groups) :
    accum.twoPhase k shown groups = accum.singlePhase groups.flatten.flatten := by
  obtain ⟨hparts, s₁, hs₁⟩ := hu
  rw [feed_eq, toExternalErr_eq_ok] at hs₁
  have hstep : ∀ (done : List (List (List (Batch V)))) (s : S), ∀ group ∈ groups,
      Fed done.flatten.flatten s → ∃ s', (do
        let rows ← group.mapM accum.stateRow
        accum.merge (shown (columns k rows)) s) = Except.ok s' ∧
        Fed (done ++ [group]).flatten.flatten s' := by
    intro done s group hg hs
    have hupdated : ∀ partition ∈ group, ∃ s, accum.updated partition = .ok s := by
      intro partition hp
      obtain ⟨t, ht⟩ := hparts group hg partition hp
      rw [feed_eq, toExternalErr_eq_ok] at ht
      exact ⟨t, ht⟩
    obtain ⟨s', hs', hfed⟩ := hA.merge_group hupdated hs
    exact ⟨s', hs', by simpa using hfed⟩
  have hnew : Fed ([] : List (List (List (Batch V)))).flatten.flatten accum.new := hA.new
  obtain ⟨s₂, hs₂, hfed⟩ := foldlM_ok (R := fun done s => Fed done.flatten.flatten s) hstep hnew
  have heval := hA.evaluate _ _ _ hfed (hA.fed hs₁)
  unfold PyAccumulator.twoPhase PyAccumulator.singlePhase
  rw [hs₁, hs₂]
  exact heval

/-- The wrapper keeps the law for what a correct class is fed exactly when the first state array
tells its `merge` as much as all of them do. -/
theorem two_phase_iff (hA : accum.Correct k id Fed) (hk : 0 < k) (hu : UpdatesSucceed accum groups) :
    XorqDatafusion.twoPhase accum k groups =
        XorqDatafusion.singlePhase accum groups.flatten.flatten ↔
      accum.twoPhase k (List.take 1) groups = accum.twoPhase k id groups := by
  rw [XorqDatafusion.twoPhase_eq hk, singlePhase_eq, toExternalErr_injective, hA.twoPhase_eq hu]

end PyAccumulator.Correct

/-- A single state array is all there is to show. -/
theorem take_columns_one (rows : List (List V)) : (columns 1 rows).take 1 = columns 1 rows := rfl

theorem PyAccumulator.Correct.twoPhaseLaw {accum : PyAccumulator S V R}
    {Fed : List (Batch V) → S → Prop} (hA : accum.Correct 1 id Fed) : TwoPhaseLaw accum 1 := by
  intro groups hu
  apply (hA.two_phase_iff Nat.one_pos hu).mpr
  simp only [PyAccumulator.twoPhase, take_columns_one, id]

/-- A class with `k` state fields that sums its input and keeps the sum in field `i`. -/
def fieldSum (k i : ℕ) : PyAccumulator ℤ ℤ ℤ where
  new := 0
  update values s := .ok (s + values.flatten.sum)
  state s := .ok ((List.replicate k 0).set i s)
  merge states s := .ok (s + (states.getD i []).sum)
  evaluate s := .ok s

section FieldSum

variable {k i : ℕ}

theorem fieldSum_rows (hi : i < k) {partitions : List (List (Batch ℤ))} {rows : List (List ℤ)}
    (h : List.Forall₂ (fun partition row => ∃ s, s = partition.flatten.flatten.sum ∧
      (fieldSum k i).state s = .ok row) partitions rows) :
    (rows.filterMap (·[i]?)).sum = partitions.flatten.flatten.flatten.sum := by
  induction h with
  | nil => rfl
  | cons hrow _ ih =>
    obtain ⟨s, rfl, hs⟩ := hrow
    cases hs
    simp [hi, ih]

theorem fieldSum_correct (hi : i < k) :
    (fieldSum k i).Correct k id fun batches s => s = batches.flatten.flatten.sum where
  new := rfl
  update := by
    rintro batches s batch s' rfl h
    cases h
    simp
  state := by
    rintro batches s -
    exact ⟨_, rfl, by simp⟩
  merge := by
    rintro batches s partitions rows rfl h
    refine ⟨_, rfl, ?_⟩
    have hcolumn : (columns k rows).getD i [] = rows.filterMap (·[i]?) := by
      simp [columns, List.getD_eq_getElem?_getD, List.getElem?_range hi]
    simp only [id, hcolumn, fieldSum_rows hi h, List.flatten_append, List.sum_append]
  evaluate := by
    rintro batches s s' rfl rfl
    rfl

/-- Shown the first state array only, it merges nothing if its field is another one. -/
theorem fieldSum_mergeBatch (h₀ : 0 < i) (hi : i < k) (rows : List (List ℤ)) (s : ℤ) :
    RustAccumulator.mergeBatch (fieldSum k i) (columns k rows) s = .ok s := by
  rw [mergeBatch_columns (by omega)]
  have hnone : ((columns k rows).take 1)[i]? = none := List.getElem?_take_eq_none (by omega)
  simp [fieldSum, toExternalErr, Except.mapError, hnone]

theorem fieldSum_not_law (h₀ : 0 < i) (hi : i < k) : ¬TwoPhaseLaw (fieldSum k i) k := by
  intro h
  have hone : twoPhase (fieldSum k i) k [[[[[1]]]]] = .ok 1 := by
    refine h _ ⟨?_, 1, rfl⟩
    intro group hg partition hp
    obtain rfl := List.mem_singleton.mp hg
    obtain rfl := List.mem_singleton.mp hp
    exact ⟨1, rfl⟩
  have hzero : twoPhase (fieldSum k i) k [[[[[1]]]]] = .ok 0 := by
    have hrows : [[[[1]]]].mapM (partialState (fieldSum k i)) =
        .ok [(List.replicate k 0).set i 1] := rfl
    have hstart : (fieldSum k i).new = 0 := rfl
    simp only [twoPhase, List.foldlM_cons, List.foldlM_nil, hstart, hrows, bind, Except.bind,
      fieldSum_mergeBatch h₀ hi]
    rfl
  simp [hzero] at hone

end FieldSum

/-- Two phases agree with one for every accumulator that merges correctly, given all its state
arrays, exactly when there is but one state array. -/
theorem two_phase_law_iff_one_field {k : ℕ} (hk : 0 < k) :
    (∀ (S V R : Type) (accum : PyAccumulator S V R) (Fed : List (Batch V) → S → Prop),
      accum.Correct k id Fed → TwoPhaseLaw accum k) ↔ k = 1 := by
  constructor
  · intro h
    by_contra hne
    have hi : 1 < k := by omega
    exact fieldSum_not_law Nat.one_pos hi (h _ _ _ _ _ (fieldSum_correct hi))
  · rintro rfl S V R accum Fed hA
    exact hA.twoPhaseLaw

/-- Through the wrapper an accumulator that merges correctly, given all its state arrays, has the
same result in two phases as in one exactly when showing `merge` the first array only changes
nothing. With one array it never does; with more there is an accumulator for which it does. -/
theorem two_phase_exact_iff (k : ℕ) (hk : 0 < k) :
    (∀ (S V R : Type) (accum : PyAccumulator S V R) (Fed : List (Batch V) → S → Prop)
        (groups : List (List (List (Batch V)))),
      accum.Correct k id Fed → UpdatesSucceed accum groups →
        (twoPhase accum k groups = singlePhase accum groups.flatten.flatten ↔
          accum.twoPhase k (List.take 1) groups = accum.twoPhase k id groups)) ∧
    ((∀ (S V R : Type) (accum : PyAccumulator S V R) (Fed : List (Batch V) → S → Prop),
      accum.Correct k id Fed → TwoPhaseLaw accum k) ↔ k = 1) :=
  ⟨fun _ _ _ _ _ _ hA hu => hA.two_phase_iff hk hu, two_phase_law_iff_one_field hk⟩

/-- Of two state fields the second is never read, and one is enough. -/
theorem two_phase_exact_iff_sum :
    twoPhase (fieldSum 2 0) 2 [[[[[3, 4]]], [[[5]]]]] = .ok 12 ∧ TwoPhaseLaw (fieldSum 1 0) 1 := by
  refine ⟨?_, (two_phase_exact_iff 1 Nat.one_pos).2.mpr rfl _ _ _ _ _ (fieldSum_correct Nat.one_pos)⟩
  refine ((two_phase_exact_iff 2 Nat.two_pos).1 _ _ _ _ _ _ (fieldSum_correct Nat.two_pos) ?_).mpr rfl
  refine ⟨?_, 12, rfl⟩
  simp only [List.mem_cons, List.not_mem_nil, or_false, forall_eq_or_imp, forall_eq]
  exact ⟨⟨7, rfl⟩, 5, rfl⟩

/-- Two state fields: the second one, and with it the input, is lost between the phases. -/
theorem two_phase_loses_second_field :
    (∃ Fed, (fieldSum 2 1).Correct 2 id Fed) ∧
      twoPhase (fieldSum 2 1) 2 [[[[[3, 4]]], [[[5]]]]] = .ok 0 ∧
      singlePhase (fieldSum 2 1) [[[3, 4]], [[5]]] = .ok 12 :=
  ⟨⟨_, fieldSum_correct (by decide)⟩, rfl, rfl⟩

end XorqDatafusion
