import XorqDatafusion.Python
import XorqDatafusion.Transition

/-! Window functions written in Python: one evaluator object, and the partitions that use it. -/
namespace XorqDatafusion

open Transition

variable {S O A V ι : Type}

/-- The methods of `PartitionEvaluator` that call the Python method of their name, with the
arguments they pass on. -/
inductive WindowCall (A : Type)
  | memoize
  | getRange (idx nRows : ℕ)
  | isCausal
  | evaluateAll (values : List A) (numRows : ℕ)
  | evaluate (values : List A) (range : ℕ × ℕ)
  | evaluateAllWithRank (numRows : ℕ) (ranksInPartition : List (ℕ × ℕ))
  | supportsBoundedExecution
  | usesWindowFrame
  | includeRank

/-- The class of a Python `WindowEvaluator`: any method may read and update the instance. It is called
with its arguments converted. -/
abbrev WindowEvaluator (S O A : Type) := WindowCall A → S → Except PyErr O × S

/-- What a method of `PartitionEvaluator` returns. -/
inductive WindowValue (A V : Type)
  | unit
  | range (start stop : ℕ)
  | flag (b : Bool)
  | array (a : A)
  | scalar (v : V)
deriving DecidableEq

namespace RustPartitionEvaluator

/-! Each method, from the outcome of its call into Python. -/

def memoize (result : Except PyErr O) : Except Fault (WindowValue A V) :=
  toExternalErr (result.map fun _ => .unit)

def getRange (py : PyTypes O A V) (result : Except PyErr O) : Except Fault (WindowValue A V) :=
  toExternalErr do
    let tuple ← py.tuple (← result)
    match tuple with
    | [start, stop] => return .range (← py.usize start) (← py.usize stop)
    | _ => .error (py.valueError
        s!"Expected get_range to return tuple of length 2. Received length {tuple.length}")

/-- A yes-or-no method: `unwrap_or(false)`. -/
def flag (py : PyTypes O A V) (result : Except PyErr O) : Except Fault (WindowValue A V) :=
  match result.bind py.bool with
  | .ok b => .ok (.flag b)
  | .error _ => .ok (.flag false)

def isCausal (py : PyTypes O A V) (result : Except PyErr O) : Except Fault (WindowValue A V) :=
  flag py result

def supportsBoundedExecution (py : PyTypes O A V) (result : Except PyErr O) :
    Except Fault (WindowValue A V) :=
  flag py result

def usesWindowFrame (py : PyTypes O A V) (result : Except PyErr O) :
    Except Fault (WindowValue A V) :=
  flag py result

def includeRank (py : PyTypes O A V) (result : Except PyErr O) : Except Fault (WindowValue A V) :=
  flag py result

def evaluateAll (py : PyTypes O A V) (result : Except PyErr O) : Except Fault (WindowValue A V) := do
  let v ← toExternalErr result
  return .array (← unwrap (py.array v))

def evaluate (py : PyTypes O A V) (result : Except PyErr O) : Except Fault (WindowValue A V) :=
  toExternalErr ((result.bind py.scalar).map .scalar)

def evaluateAllWithRank (py : PyTypes O A V) (result : Except PyErr O) :
    Except Fault (WindowValue A V) := do
  let v ← toExternalErr result
  return .array (← unwrap (py.array v))

def method (py : PyTypes O A V) : WindowCall A → Except PyErr O → Except Fault (WindowValue A V)
  | .memoize => memoize
  | .getRange _ _ => getRange py
  | .isCausal => isCausal py
  | .evaluateAll _ _ => evaluateAll py
  | .evaluate _ _ => evaluate py
  | .evaluateAllWithRank _ _ => evaluateAllWithRank py
  | .supportsBoundedExecution => supportsBoundedExecution py
  | .usesWindowFrame => usesWindowFrame py
  | .includeRank => includeRank py

end RustPartitionEvaluator

/-- A call on an instance in state `s`: its value, and the state it leaves. -/
def WindowEvaluator.run (evaluator : WindowEvaluator S O A) (py : PyTypes O A V) (call : WindowCall A)
    (s : S) : Except Fault (WindowValue A V) × S :=
  let (result, s) := evaluator call s
  (RustPartitionEvaluator.method py call result, s)

/-- A reference to a Python object. -/
abbrev Ref := ℕ

/-- `to_rust_partition_evaluator`: the evaluator of every partition gets a reference to the
registered object, `evaluator.clone_ref(py)`. -/
def toRustPartitionEvaluator (evaluator : Ref) : Unit → Ref := fun _ => evaluator

/-- `MultiColumnWindowUDF`, with what its Python object refers to. -/
structure MultiColumnWindowUDF where
  partitionEvaluatorFactory : Unit → Ref

/-- `PyWindowUDF::new`. -/
def MultiColumnWindowUDF.new (evaluator : Ref) : MultiColumnWindowUDF :=
  ⟨toRustPartitionEvaluator evaluator⟩

def MultiColumnWindowUDF.partitionEvaluator (udwf : MultiColumnWindowUDF) : Ref :=
  udwf.partitionEvaluatorFactory ()

/-- The instances on the Python heap, the evaluators of the partitions that have one, and the calls
each partition has made with the values it got. -/
structure Windows (ι S A V : Type) where
  heap : Ref → S
  evaluators : ι → Option Ref
  calls : ι → List (WindowCall A × Except Fault (WindowValue A V))

inductive WindowAction (ι A : Type)
  | partitionEvaluator (partition : ι)
  | call (partition : ι) (call : WindowCall A)

def Windows.step [DecidableEq ι] (udwf : MultiColumnWindowUDF) (evaluator : WindowEvaluator S O A)
    (py : PyTypes O A V) : WindowAction ι A → Windows ι S A V → Option (Windows ι S A V)
  | .partitionEvaluator i, w =>
    if w.evaluators i = none then
      some { w with evaluators := Function.update w.evaluators i udwf.partitionEvaluator }
    else none
  | .call i call, w =>
    (w.evaluators i).map fun ref =>
      let (value, s) := evaluator.run py call (w.heap ref)
      { w with
        heap := Function.update w.heap ref s
        calls := Function.update w.calls i (w.calls i ++ [(call, value)]) }

/-- The partitions of a window function whose object is registered in state `s₀`, in any order. -/
def windows (ι : Type) [DecidableEq ι] (ref : Ref) (evaluator : WindowEvaluator S O A)
    (py : PyTypes O A V) (s₀ : S) : System (Windows ι S A V) (WindowAction ι A) where
  start w := w.heap ref = s₀ ∧ (∀ i, w.evaluators i = none) ∧ ∀ i, w.calls i = []
  step w a w' := w.step (.new ref) evaluator py a = some w'

namespace WindowEvaluator

variable (evaluator : WindowEvaluator S O A) (py : PyTypes O A V)

/-- The calls of a partition that has the evaluator to itself. -/
def alone (s : S) : List (WindowCall A) → List (WindowCall A × Except Fault (WindowValue A V))
  | [] => []
  | call :: calls => (call, (evaluator.run py call s).1) :: alone (evaluator.run py call s).2 calls

/-- The state some calls leave. -/
def after (s : S) (calls : List (WindowCall A)) : S :=
  calls.foldl (fun s call => (evaluator call s).2) s

/-- No call's value depends on the calls before it. -/
def Forgetful (s₀ : S) : Prop :=
  ∀ calls call, (evaluator.run py call (evaluator.after s₀ calls)).1 = (evaluator.run py call s₀).1

variable {evaluator py} {s₀ : S}

theorem after_append (s : S) (calls : List (WindowCall A)) (call : WindowCall A) :
    evaluator.after s (calls ++ [call]) = (evaluator call (evaluator.after s calls)).2 := by
  simp [after]

/-- A forgetful evaluator answers as in its registered state, wherever it is asked. -/
theorem Forgetful.alone_eq (h : evaluator.Forgetful py s₀) (done calls : List (WindowCall A)) :
    evaluator.alone py (evaluator.after s₀ done) calls =
      calls.map fun call => (call, (evaluator.run py call s₀).1) := by
  induction calls generalizing done with
  | nil => rfl
  | cons call calls ih =>
    have hrest := ih (done ++ [call])
    rw [after_append] at hrest
    rw [alone, List.map_cons, h done call]
    exact congrArg _ hrest

end WindowEvaluator

section Windows

variable [DecidableEq ι] {ref : Ref} {evaluator : WindowEvaluator S O A} {py : PyTypes O A V} {s₀ : S}
  {w w' : Windows ι S A V} {a : WindowAction ι A}

/-- What a step does: a partition gets a reference to the one object, or calls it. -/
theorem windows_step_cases (h : (windows ι ref evaluator py s₀).step w a w') :
    (∃ i, a = .partitionEvaluator i ∧
      w' = { w with evaluators := Function.update w.evaluators i ref }) ∨
    ∃ i call r, a = .call i call ∧ w.evaluators i = some r ∧ w' = { w with
      heap := Function.update w.heap r (evaluator.run py call (w.heap r)).2
      calls := Function.update w.calls i
        (w.calls i ++ [(call, (evaluator.run py call (w.heap r)).1)]) } := by
  cases a with
  | partitionEvaluator i =>
    simp only [windows, Windows.step] at h
    split at h
    · cases h
      exact .inl ⟨i, rfl, rfl⟩
    · cases h
  | call i call =>
    simp only [windows, Windows.step, Option.map_eq_some_iff] at h
    obtain ⟨r, hr, rfl⟩ := h
    exact .inr ⟨i, call, r, rfl, hr, rfl⟩

/-- All partitions share the registered object; while it is forgetful, each call gets what it would
have got first. -/
structure Shared (ref : Ref) (evaluator : WindowEvaluator S O A) (py : PyTypes O A V) (s₀ : S)
    (w : Windows ι S A V) : Prop where
  evaluators : ∀ i r, w.evaluators i = some r → r = ref
  heap : ∃ done, w.heap ref = evaluator.after s₀ done
  calls : ∀ i, ∀ x ∈ w.calls i, x.2 = (evaluator.run py x.1 s₀).1

theorem shared_step (hf : evaluator.Forgetful py s₀) (hI : Shared ref evaluator py s₀ w)
    (h : (windows ι ref evaluator py s₀).step w a w') : Shared ref evaluator py s₀ w' := by
  obtain ⟨hevaluators, ⟨done, hheap⟩, hcalls⟩ := hI
  rcases windows_step_cases h with ⟨i, -, rfl⟩ | ⟨i, call, r, -, hr, rfl⟩
  · refine ⟨?_, ⟨done, hheap⟩, hcalls⟩
    intro j r hj
    by_cases hji : j = i
    · subst hji
      simpa [eq_comm] using hj
    · exact hevaluators j r (by simpa [hji] using hj)
  · obtain rfl := hevaluators i r hr
    refine ⟨hevaluators, ⟨done ++ [call], ?_⟩, ?_⟩
    · simp [WindowEvaluator.after_append, WindowEvaluator.run, hheap]
    · intro j x hx
      by_cases hji : j = i
      · subst hji
        simp only [Function.update_self, List.mem_append, List.mem_singleton] at hx
        rcases hx with hx | rfl
        · exact hcalls j x hx
        · rw [hheap]
          exact hf done call
      · exact hcalls j x (by simpa [hji] using hx)

theorem reachable_shared (hf : evaluator.Forgetful py s₀)
    (h : (windows ι ref evaluator py s₀).Reachable w) : Shared ref evaluator py s₀ w := by
  refine System.reachable_invariant ?_ (fun _ _ _ hs hI => shared_step hf hI hs) h
  rintro w ⟨hheap, hnone, hcalls⟩
  refine ⟨?_, ⟨[], hheap⟩, ?_⟩
  · intro i r hr
    simp [hnone i] at hr
  · intro i x hx
    simp [hcalls i] at hx

/-- The calls of one partition change the object under all others. -/
theorem run_calls {i j : ι} (hij : j ≠ i) (calls : List (WindowCall A))
    (hi : w.evaluators i = some ref) :
    ∃ xs w', (windows ι ref evaluator py s₀).Run w xs w' ∧ w'.evaluators = w.evaluators ∧
      w'.heap ref = evaluator.after (w.heap ref) calls ∧ w'.calls j = w.calls j := by
  induction calls generalizing w with
  | nil => exact ⟨[], w, .refl w, rfl, rfl, rfl⟩
  | cons call calls ih =>
    let t : Windows ι S A V := { w with
      heap := Function.update w.heap ref (evaluator.run py call (w.heap ref)).2
      calls := Function.update w.calls i
        (w.calls i ++ [(call, (evaluator.run py call (w.heap ref)).1)]) }
    have hstep : (windows ι ref evaluator py s₀).step w (.call i call) t := by
      simp [windows, Windows.step, hi, t]
    obtain ⟨xs, w', hrun, hevaluators, hheap, hcalls⟩ := ih (w := t) hi
    refine ⟨_, w', .stepL hstep hrun, hevaluators, ?_, ?_⟩
    · rw [hheap]
      simp [t, WindowEvaluator.after, WindowEvaluator.run]
    · rw [hcalls]
      simp [t, hij]

/-- A partition may make its first call after any calls of another one. -/
theorem exists_call_after (ref : Ref) (evaluator : WindowEvaluator S O A) (py : PyTypes O A V) (s₀ : S)
    (calls : List (WindowCall A)) (call : WindowCall A) :
    ∃ w : Windows (Fin 2) S A V, (windows (Fin 2) ref evaluator py s₀).Reachable w ∧
      w.calls 1 = [(call, (evaluator.run py call (evaluator.after s₀ calls)).1)] := by
  let w₀ : Windows (Fin 2) S A V := ⟨fun _ => s₀, fun _ => none, fun _ => []⟩
  let w₁ : Windows (Fin 2) S A V := { w₀ with evaluators := Function.update w₀.evaluators 0 ref }
  let w₂ : Windows (Fin 2) S A V := { w₁ with evaluators := Function.update w₁.evaluators 1 ref }
  have h₀ : (windows (Fin 2) ref evaluator py s₀).start w₀ := ⟨rfl, fun _ => rfl, fun _ => rfl⟩
  have h₁ : (windows (Fin 2) ref evaluator py s₀).step w₀ (.partitionEvaluator 0) w₁ :=
    show (if w₀.evaluators 0 = none then some w₁ else none) = some w₁ from if_pos rfl
  have h₂ : (windows (Fin 2) ref evaluator py s₀).step w₁ (.partitionEvaluator 1) w₂ :=
    show (if w₁.evaluators 1 = none then some w₂ else none) = some w₂ from if_pos rfl
  obtain ⟨xs, w₃, h₃, hevaluators, hheap, hcalls⟩ : ∃ xs w₃,
      (windows (Fin 2) ref evaluator py s₀).Run w₂ xs w₃ ∧ w₃.evaluators = w₂.evaluators ∧
        w₃.heap ref = evaluator.after (w₂.heap ref) calls ∧ w₃.calls 1 = w₂.calls 1 :=
    run_calls (i := 0) (by decide) calls (by simp [w₁, w₂])
  let w₄ : Windows (Fin 2) S A V := { w₃ with
    heap := Function.update w₃.heap ref (evaluator.run py call (w₃.heap ref)).2
    calls := Function.update w₃.calls 1
      (w₃.calls 1 ++ [(call, (evaluator.run py call (w₃.heap ref)).1)]) }
  have h₄ : (windows (Fin 2) ref evaluator py s₀).step w₃ (.call 1 call) w₄ := by
    simp [windows, Windows.step, hevaluators, w₂, w₄]
  refine ⟨w₄, ((((System.Reachable.of_start h₀).step h₁).step h₂).run h₃).step h₄, ?_⟩
  have hnone : w₃.calls 1 = [] := hcalls
  have hs : w₃.heap ref = evaluator.after s₀ calls := hheap
  simp [w₄, hnone, hs]

end Windows

/-- Whatever the partitions and the order of their calls, each gets what it would get with an
evaluator of its own, exactly when no call of the evaluator depends on the calls before it. -/
theorem partitions_isolated_iff (ref : Ref) (evaluator : WindowEvaluator S O A)
    (py : PyTypes O A V) (s₀ : S) :
    (∀ n (w : Windows (Fin n) S A V), (windows (Fin n) ref evaluator py s₀).Reachable w →
      ∀ i, w.calls i = evaluator.alone py s₀ ((w.calls i).map Prod.fst)) ↔
    evaluator.Forgetful py s₀ := by
  constructor
  · intro h calls call
    obtain ⟨w, hw, hcalls⟩ := exists_call_after ref evaluator py s₀ calls call
    have halone := h 2 w hw 1
    rw [hcalls] at halone
    simpa [WindowEvaluator.alone] using halone
  · intro hf n w hw i
    have hcalls := (reachable_shared hf hw).calls i
    have halone : evaluator.alone py s₀ ((w.calls i).map Prod.fst) = _ := hf.alone_eq [] _
    rw [halone, List.map_map]
    refine (List.map_id _).symm.trans (List.map_congr_left fun x hx => ?_)
    exact Prod.ext rfl (hcalls x hx)

/-- An evaluator that keeps the first values it sees, as `memoize` invites to. -/
def keepFirst : WindowEvaluator (Option (List ℤ)) (List ℤ) (List ℤ)
  | .evaluateAll values _, s =>
    let first := s.getD values.flatten
    (.ok first, some first)
  | _, s => (.error ⟨0⟩, s)

/-- Arrays are the only objects. -/
def pyArrays : PyTypes (List ℤ) (List ℤ) ℤ where
  usize _ := .error ⟨1⟩
  bool _ := .error ⟨1⟩
  tuple _ := .error ⟨1⟩
  array values := .ok values
  scalar _ := .error ⟨1⟩
  valueError _ := ⟨2⟩

/-- The second partition is given the values of the first. -/
theorem partition_sees_other :
    ∃ w : Windows (Fin 2) (Option (List ℤ)) (List ℤ) ℤ,
      (windows (Fin 2) 0 keepFirst pyArrays none).Reachable w ∧
      w.calls 1 = [(.evaluateAll [[7]] 1, .ok (.array [5]))] ∧
      keepFirst.alone pyArrays none [.evaluateAll [[7]] 1] =
        [(.evaluateAll [[7]] 1, .ok (.array [7]))] := by
  let w₀ : Windows (Fin 2) (Option (List ℤ)) (List ℤ) ℤ := ⟨fun _ => none, fun _ => none, fun _ => []⟩
  obtain ⟨w, hrun, hcalls⟩ : ∃ w, System.replay (Windows.step (.new 0) keepFirst pyArrays)
      [.partitionEvaluator 0, .partitionEvaluator 1, .call 0 (.evaluateAll [[5]] 1),
        .call 1 (.evaluateAll [[7]] 1)] w₀ = some w ∧
      w.calls 1 = [(.evaluateAll [[7]] 1, .ok (.array [5]))] := ⟨_, rfl, rfl⟩
  obtain ⟨xs, hr, -⟩ := System.replay_run (T := windows (Fin 2) 0 keepFirst pyArrays none) (g := id)
    (fun _ _ _ h => h) hrun
  exact ⟨w, ⟨w₀, xs, ⟨rfl, fun _ => rfl, fun _ => rfl⟩, hr⟩, hcalls, rfl⟩

end XorqDatafusion
