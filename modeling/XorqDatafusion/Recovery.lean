import XorqDatafusion.Adapters
import XorqDatafusion.Fallible

/-! Which mishaps in Python come back to the caller, and which get lost in an adapter. -/
namespace XorqDatafusion.Adapters

open Blame Errors Udf

variable {W O T α L β ε ε' : Type} {texts : Texts} {py : Python W O T α L} {site : Site}

/-- What is raised here does not come back: a call or the conversion of an argument is unwrapped, its
exception boxed within an error of this crate, or taken for a no. -/
def Site.losesException : Site → Bool
  | .toPyarrowBatches => true
  | .scalarFunctionArgs | .updateArgs | .retractBatchArgs => true
  | .evaluateAllArgs | .evaluateWindowArgs => true
  | .readerSchema | .datasetField | .datasetScanner | .projectedSchema | .getFragments => true
  | .supportsRetractBatch | .isCausal => true
  | .supportsBoundedExecution | .usesWindowFrame | .includeRank => true
  | _ => false

/-- A value of the wrong type is no error here: its conversion is unwrapped, or it is taken for a no. -/
def Site.missesType : Site → Bool
  | .scalarFunction | .evaluateAll | .evaluateAllWithRank | .tryOptimize => true
  | .supportsRetractBatch | .isCausal => true
  | .supportsBoundedExecution | .usesWindowFrame | .includeRank => true
  | _ => false

/-- What an adapter does not report. -/
def Mishap.mishandled : Mishap → Bool
  | .raised site _ => site.losesException
  | .raisedWithin site _ => site.losesException || site.missesType
  | .rejected site _ => site.missesType
  | .empty _ | .mistyped => true

/-- The caller gets an error for the mishap, and of an exception the same object. -/
def Mishap.Reported (texts : Texts) : Mishap → Failure → Prop
  | _, .panicked => False
  | .raised _ e, .returned err | .raisedWithin _ e, .returned err =>
    fromDatafusionError texts err = .object e
  | _, .returned _ => True

/-- `wrap` is what the rest of the adapter makes of an error. -/
def Handles (texts : Texts) (wrap : ε → Failure) (x : Adapter W Mishap ε β) : Prop :=
  Handled (fun e => wrap e ≠ .panicked) (fun m e => m.Reported texts (wrap e))
    (fun m => m.mishandled) x

def Judges (texts : Texts) (wrap : ε → Failure) (x : Adapter W Mishap ε β) : Prop :=
  Judged (fun e => wrap e ≠ .panicked) (fun m e => m.Reported texts (wrap e))
    (fun m => m.mishandled) x

/-! Calls and conversions, by what becomes of their exceptions. -/

section

variable {op : W → Except PyErr β × W}

theorem raising_external (h : site.losesException = false) :
    Handles texts Failure.external (raising site op) := by
  apply Handled.ask
  intro e
  simp [Mishap.Reported, Failure.external, Mishap.mishandled, h, fromDatafusionError_eq_object_iff]

theorem raising_panic (h : site.losesException) :
    Handles texts (fun _ => .panicked) (raising site op) := by
  apply Handled.ask
  intro e
  simp [Mishap.Reported, Mishap.mishandled, h]

/-- Within an error of this crate an exception is no longer found. -/
theorem raising_boxed (h : site.losesException) :
    Handles texts (fun e => .boxed (.pythonError e)) (raising site op) := by
  apply Handled.ask
  intro e
  simp [Mishap.Reported, Failure.boxed, Mishap.mishandled, h, fromDatafusionError]

end

section

variable {op : W → Except Refused β × W}

theorem extract_external (hr : site.losesException = false) (ht : site.missesType = false) :
    Handles texts Failure.external (extract site op) := by
  refine Handled.mapError (Handled.ask fun e => ?_)
  cases e <;> simp [Mishap.ofRefused, Refused.exception, Mishap.Reported, Failure.external,
    Mishap.mishandled, hr, ht, fromDatafusionError_eq_object_iff]

theorem extract_boxed (hr : site.losesException) (ht : site.missesType = false) :
    Handles texts (fun e => .boxed (.pythonError e)) (extract site op) := by
  refine Handled.mapError (Handled.ask fun e => ?_)
  cases e <;> simp [Mishap.ofRefused, Refused.exception, Mishap.Reported, Failure.boxed,
    Mishap.mishandled, hr, ht, fromDatafusionError]

theorem extract_panic (ht : site.missesType) :
    Handles texts (fun _ => .panicked) (extract site op) := by
  refine Handled.mapError (Handled.ask fun e => ?_)
  cases e <;> simp [Mishap.ofRefused, Mishap.Reported, Mishap.mishandled, ht]

end

theorem first_handles {x : Option β} :
    Handles texts id (first site x : Adapter W Mishap Failure β) := by
  refine Handled.mapError (Handled.ask fun e => ?_)
  simp [Mishap.Reported, Mishap.mishandled]

theorem Handles.orExternal {x : PyAdapter W β} (h : Handles texts Failure.external x) :
    Handles texts id (orExternal x) :=
  Handled.mapError h

theorem Handles.orPanic {x : PyAdapter W β} (h : Handles texts (fun _ => .panicked) x) :
    Handles texts id (orPanic x) :=
  Handled.mapError h

theorem Handles.orPython {wrap : Errors.DataFusionError → Failure} {x : PyAdapter W β}
    (h : Handles texts (fun e => wrap (.pythonError e)) x) : Handles texts wrap (orPython x) :=
  Handled.mapError h

theorem Handles.boxed {x : Adapter W Mishap Errors.DataFusionError β}
    (h : Handles texts Failure.boxed x) : Handles texts id (boxed x) :=
  Handled.mapError h

/-! The scans. -/

theorem ibisTableExecNew_handles {reader : O} {projections : Option (List ℕ)} :
    Handles texts Failure.boxed (ibisTableExecNew py reader projections) := by
  apply Handled.bind (raising_boxed rfl).orPython
  intro attr
  apply Handled.bind (extract_boxed rfl rfl).orPython
  intro schema
  split
  · exact Handled.pure _
  · exact Handled.fail (by simp [Failure.boxed])

theorem pyTableProviderScan_handles {provider : O} {projection : Option (List ℕ)}
    {filters : List O} : Handles texts id (pyTableProviderScan py provider projection filters) :=
  Handled.bind (raising_external rfl).orExternal fun _ => ibisTableExecNew_handles.boxed

theorem ibisTableScan_handles {ibisTable : O} {projection : Option (List ℕ)} {filters : List O} :
    Handles texts id (ibisTableScan py ibisTable projection filters) := by
  unfold ibisTableScan
  split
  · exact Handled.bind (raising_panic rfl).orPanic fun _ => ibisTableExecNew_handles.boxed
  · apply Handled.bind (raising_external rfl).orExternal
    intro filtered
    exact Handled.bind (raising_panic rfl).orPanic fun _ => ibisTableExecNew_handles.boxed

theorem fieldNames_handles {dataset : O} {indices : List ℕ} :
    Handles texts Failure.boxed (fieldNames py dataset indices) := by
  induction indices with
  | nil => exact Handled.pure _
  | cons index rest ih =>
    apply Handled.bind (raising_boxed rfl).orPython
    intro schema
    apply Handled.bind (raising_boxed rfl).orPython
    intro field
    apply Handled.bind (raising_boxed rfl).orPython
    intro attr
    apply Handled.bind (extract_boxed rfl rfl).orPython
    intro name
    exact Handled.bind ih fun names => Handled.pure _

theorem datasetScan_handles {dataset : O} {projection : Option (List ℕ)} {filter : Option O} :
    Handles texts id (datasetScan py dataset projection filter) := by
  refine Handles.boxed (Handled.bind ?_ fun columns => ?_)
  · cases projection with
    | none => exact Handled.pure _
    | some indices => exact Handled.bind fieldNames_handles fun names => Handled.pure _
  · apply Handled.bind (raising_boxed rfl).orPython
    intro scanner
    apply Handled.bind (raising_boxed rfl).orPython
    intro attr
    apply Handled.bind (extract_boxed rfl rfl).orPython
    intro schema
    apply Handled.bind (raising_boxed rfl).orPython
    intro iterator
    exact Handled.bind (raising_boxed rfl).orPython fun fragments => Handled.pure _

/-! The pulls. -/

theorem nextBatch_handles {iter : O} (hr : site.losesException = false)
    (ht : site.missesType = false) : Handles texts id (nextBatch py site iter) := by
  apply Handled.bind (raising_external hr).orExternal
  intro next
  cases next with
  | none => exact Handled.pure _
  | some batch =>
    exact Handled.bind (extract_external hr ht).orExternal fun batch => Handled.pure _

theorem ibisTableExecPull_handles {reader : O} {projection : Option (List ℕ)} {iter : Option O} :
    Handles texts id (ibisTableExecPull py reader projection iter) := by
  have hpulled : ∀ iter, Handles texts id (nextBatch py .readerNext iter) :=
    fun _ => nextBatch_handles rfl rfl
  refine Handled.bind ?_ fun iter => Handled.bind (hpulled iter) fun pulled => ?_
  · cases iter with
    | none => exact (raising_external rfl).orExternal
    | some iter => exact Handled.pure _
  · split
    · split
      · exact Handled.pure _
      · exact Handled.fail (by simp)
    · exact Handled.pure _

theorem scannerIter_handles {dataset : O} {exec : DatasetExec O T} {batchSize partition : ℕ}
    {iter : Option O} :
    Handles texts id (scannerIter py dataset exec batchSize partition iter) := by
  cases iter with
  | some iter => exact Handled.pure _
  | none =>
    apply Handled.bind (raising_external rfl).orExternal
    intro fragment
    apply Handled.bind (raising_external rfl).orExternal
    intro schema
    apply Handled.bind (raising_external rfl).orExternal
    intro scanner
    apply Handled.bind (raising_external rfl).orExternal
    intro batches
    exact (raising_external rfl).orExternal

theorem datasetExecPull_handles {dataset : O} {exec : DatasetExec O T} {batchSize partition : ℕ}
    {iter : Option O} :
    Handles texts id (datasetExecPull py dataset exec batchSize partition iter) := by
  apply Handled.bind scannerIter_handles
  intro iter
  have hpulled : Handles texts id (nextBatch py .scannerNext iter) := nextBatch_handles rfl rfl
  exact Handled.bind hpulled fun pulled => Handled.pure _

/-! The functions. -/

theorem toPyarrow_handles {values : List (ArrayRef T α)} (h : site.losesException) :
    Handles texts id (toPyarrow py site values) :=
  Handled.mapM (fun _ => (raising_panic h).orPanic) values

theorem returned_handles {result : Except InnerDataFusionError β} :
    Handles texts id (Adapter.lift (result.mapError .returned) : Adapter W Mishap Failure β) := by
  apply Handled.lift
  intro e he
  obtain ⟨err, -, rfl⟩ := Fallible.mapError_eq_error_iff.mp he
  simp

theorem callPython_handles {func : O} {args : List (ArrayRef T α)} :
    Handles texts id (callPython py func args) := by
  apply Handled.bind (toPyarrow_handles rfl)
  intro pyArgs
  exact Handled.bind (raising_external rfl).orExternal fun _ => (extract_panic rfl).orPanic

theorem toRustFunction_handles {kernels : Kernels T α} {func : O} {args : List (ColumnarValue T α)} :
    Handles texts id (toRustFunction py kernels func args) := by
  have hinto : ∀ n arg, Handles texts id
      (intoArray kernels.arrow n arg : Adapter W Mishap Failure (ArrayRef T α)) := by
    intro n arg
    cases arg with
    | array a => exact Handled.pure a
    | scalar s => exact returned_handles
  apply Handled.bind (Handled.mapM (hinto _) args)
  intro arrays
  apply Handled.bind callPython_handles
  intro result
  split
  · apply Handled.bind (Handled.bind first_handles fun _ => returned_handles)
    exact fun value => Handled.pure _
  · exact Handled.pure _

/-- A call with its exception passed on, whose value is not looked at. -/
theorem void_judges {op : W → Except PyErr O × W} (h : site.losesException = false) :
    Judges texts id ((orExternal (raising site op)).map fun _ => ()) :=
  (raising_external h).orExternal.toJudged.map

theorem mergeBatch_judges {accum : O} {states : List (ArrayRef T α)} :
    Judges texts id (mergeBatch py accum states) := by
  apply Handled.judged_bind first_handles
  intro state
  exact Handled.judged_bind (raising_external rfl).orExternal fun _ => void_judges rfl

theorem updateBatch_judges {accum : O} {values : List (ArrayRef T α)} :
    Judges texts id (updateBatch py accum values) :=
  Handled.judged_bind (toPyarrow_handles rfl) fun _ => void_judges rfl

theorem retractBatch_judges {accum : O} {values : List (ArrayRef T α)} :
    Judges texts id (retractBatch py accum values) :=
  Handled.judged_bind (toPyarrow_handles rfl) fun _ => void_judges rfl

/-- A call and the conversion of its value, with the exceptions of both passed on. -/
theorem call_handles {op : W → Except PyErr O × W} {convert : O → W → Except Refused β × W}
    (hr : site.losesException = false) (ht : site.missesType = false) :
    Handles texts id
      (orExternal (raising site op >>= fun result => extract site (convert result))) :=
  Handles.orExternal (Handled.bind (raising_external hr) fun _ => extract_external hr ht)

theorem getRange_handles {evaluator : O} {idx nRows : ℕ} :
    Handles texts id (getRange py evaluator idx nRows) := by
  have hextract : ∀ {γ : Type} {op : W → Except Refused γ × W},
      Handles texts Failure.external (extract .getRange op) := extract_external rfl rfl
  refine Handles.orExternal (Handled.bind (raising_external rfl) fun result => ?_)
  apply Handled.bind hextract
  intro tuple
  split
  · exact Handled.bind hextract fun start => Handled.bind hextract fun stop => Handled.pure _
  · exact hextract

theorem evaluateAll_handles {evaluator : O} {values : List (ArrayRef T α)} {numRows : ℕ} :
    Handles texts id (evaluateAll py evaluator values numRows) := by
  apply Handled.bind (toPyarrow_handles rfl)
  intro pyValues
  exact Handled.bind (raising_external rfl).orExternal fun _ => (extract_panic rfl).orPanic

theorem evaluateWindow_handles {evaluator : O} {values : List (ArrayRef T α)} {range : ℕ × ℕ} :
    Handles texts id (evaluateWindow py evaluator values range) :=
  Handled.bind (toPyarrow_handles rfl) fun _ => call_handles rfl rfl

theorem evaluateAllWithRank_handles {evaluator : O} {numRows : ℕ}
    {ranksInPartition : List (ℕ × ℕ)} :
    Handles texts id (evaluateAllWithRank py evaluator numRows ranksInPartition) :=
  Handled.bind (raising_external rfl).orExternal fun _ => (extract_panic rfl).orPanic

/-- A flag reports nothing. -/
theorem flag_judges {op : W → Except PyErr O × W} (hr : site.losesException)
    (ht : site.missesType) : Judges texts id (flag py site op) := by
  refine Judged.unwrapOr (Handled.judged_bind (Handled.ask fun e => ?_) fun result => ?_)
  · simp [Mishap.mishandled, hr]
  · refine Handled.toJudged (Handled.mapError (Handled.ask fun e => ?_))
    cases e <;> simp [Mishap.ofRefused, Mishap.mishandled, ht]

theorem rewrite_handles {rule : O} {plan : L} : Handles texts id (rewrite py rule plan) :=
  Handled.bind (raising_external rfl).orExternal fun _ => (extract_panic rfl).orPanic

theorem windowCall_judges {evaluator : O} {call : WindowCall (ArrayRef T α)} :
    Judges texts id (windowCall py evaluator call) := by
  cases call with
  | memoize => exact (void_judges rfl).map
  | getRange => exact getRange_handles.toJudged.map
  | isCausal | supportsBoundedExecution | usesWindowFrame | includeRank =>
    exact (flag_judges rfl rfl).map
  | evaluateAll => exact evaluateAll_handles.toJudged.map
  | evaluate => exact evaluateWindow_handles.toJudged.map
  | evaluateAllWithRank => exact evaluateAllWithRank_handles.toJudged.map

/-! The engine's calls into Python. -/

/-- A callback of the engine: the Python object, and what the engine passes on. -/
inductive Callback (O T α L : Type)
  | pyTableProviderScan (provider : O) (projection : Option (List ℕ)) (filters : List O)
  | ibisTableScan (ibisTable : O) (projection : Option (List ℕ)) (filters : List O)
  | ibisTableExecPull (reader : O) (projection : Option (List ℕ)) (iter : Option O)
  | datasetScan (dataset : O) (projection : Option (List ℕ)) (filter : Option O)
  | datasetExecPull (dataset : O) (exec : DatasetExec O T) (batchSize partition : ℕ)
      (iter : Option O)
  | scalarFunction (func : O) (args : List (ColumnarValue T α))
  | accumulator (accum : O)
  | updateBatch (accum : O) (values : List (ArrayRef T α))
  | evaluate (accum : O)
  | state (accum : O)
  | mergeBatch (accum : O) (states : List (ArrayRef T α))
  | retractBatch (accum : O) (values : List (ArrayRef T α))
  | supportsRetractBatch (accum : O)
  | window (evaluator : O) (call : WindowCall (ArrayRef T α))
  | rewrite (rule : O) (plan : L)

/-- The data types of what a window function answers. -/
def windowTypes : WindowValue (ArrayRef T α) (ScalarValue T α) → List T
  | .array a => [a.dataType]
  | .scalar s => [s.dataType]
  | .unit | .range _ _ | .flag _ => []

/-- The adapter of a callback, its value put aside. The engine has asked a function for a value, or for
several, of certain data types: whether it has got those, is for `suits` to say. -/
def Callback.run (py : Python W O T α L) (kernels : Kernels T α) (suits : List T → Bool) :
    Callback O T α L → Adapter W Mishap Failure Unit
  | .pyTableProviderScan provider projection filters =>
    (Adapters.pyTableProviderScan py provider projection filters).map fun _ => ()
  | .ibisTableScan ibisTable projection filters =>
    (Adapters.ibisTableScan py ibisTable projection filters).map fun _ => ()
  | .ibisTableExecPull reader projection iter =>
    (Adapters.ibisTableExecPull py reader projection iter).map fun _ => ()
  | .datasetScan dataset projection filter =>
    (Adapters.datasetScan py dataset projection filter).map fun _ => ()
  | .datasetExecPull dataset exec batchSize partition iter =>
    (Adapters.datasetExecPull py dataset exec batchSize partition iter).map fun _ => ()
  | .scalarFunction func args =>
    ((toRustFunction py kernels func args).expecting (fun v => suits [v.dataType]) .mistyped).map
      fun _ => ()
  | .accumulator accum => (toRustAccumulator py accum).map fun _ => ()
  | .updateBatch accum values => Adapters.updateBatch py accum values
  | .evaluate accum =>
    ((Adapters.evaluate py accum).expecting (fun v => suits [v.dataType]) .mistyped).map fun _ => ()
  | .state accum =>
    ((Adapters.state py accum).expecting (fun vs => suits (vs.map (·.dataType))) .mistyped).map
      fun _ => ()
  | .mergeBatch accum states => Adapters.mergeBatch py accum states
  | .retractBatch accum values => Adapters.retractBatch py accum values
  | .supportsRetractBatch accum => (Adapters.supportsRetractBatch py accum).map fun _ => ()
  | .window evaluator call =>
    ((windowCall py evaluator call).expecting
      (fun v => windowTypes v = [] || suits (windowTypes v)) .mistyped).map fun _ => ()
  | .rewrite rule plan => (Adapters.rewrite py rule plan).map fun _ => ()

theorem Callback.run_judges {kernels : Kernels T α} {suits : List T → Bool}
    {callback : Callback O T α L} : Judges texts id (callback.run py kernels suits) := by
  cases callback with
  | pyTableProviderScan => exact pyTableProviderScan_handles.toJudged.map
  | ibisTableScan => exact ibisTableScan_handles.toJudged.map
  | ibisTableExecPull => exact ibisTableExecPull_handles.toJudged.map
  | datasetScan => exact datasetScan_handles.toJudged.map
  | datasetExecPull => exact datasetExecPull_handles.toJudged.map
  | scalarFunction => exact (toRustFunction_handles.toJudged.expecting rfl).map
  | accumulator => exact (raising_external rfl).orExternal.toJudged.map
  | updateBatch => exact updateBatch_judges
  | retractBatch => exact retractBatch_judges
  | evaluate | state => exact ((call_handles rfl rfl).toJudged.expecting rfl).map
  | mergeBatch => exact mergeBatch_judges
  | supportsRetractBatch => exact (flag_judges rfl rfl).map
  | window => exact (windowCall_judges.expecting rfl).map
  | rewrite => exact rewrite_handles.toJudged.map

/-- What goes wrong in a callback comes back to the caller, an exception as the same object, exactly
if it is nothing that an adapter unwraps, boxes in an error of this crate, takes for a no, or does not
look at; whichever data types are the ones that suit. -/
theorem mishap_reported_iff (py : Python W O T α L) (kernels : Kernels T α) (texts : Texts)
    (suits : List T → Bool) (callback : Callback O T α L) (w : W) :
    (callback.run py kernels suits w).Honest (fun e => e ≠ .panicked)
        (fun m e => m.Reported texts e) ↔
      ∀ m, (callback.run py kernels suits w).mishap = some m → m.mishandled = false := by
  have hjudged : Judges texts id (callback.run py kernels suits) := Callback.run_judges
  have hiff := hjudged.honest_iff w
  simpa using hiff

/-- Objects that can be called and whose methods answer, but for `to_pyarrow_batches`; all else raises
`e`, the conversion of arrays too. -/
def brittle (e : PyErr) : Python Unit Unit Unit Unit Unit := { raisingAll () e with
  call _ _ w := (.ok (), w)
  callMethod _ name _ _ w := (if name = "to_pyarrow_batches" then .error e else .ok (), w) }

def noKernels : Kernels Unit Unit where
  toArrayOfSize _ _ := .error (.other "not implemented")
  tryFromArray _ _ := none

/-- An Ibis table whose `to_pyarrow_batches` raises panics the scan, what the `schema` of a provider's
reader raises comes back as a `ValueError`, and a column that pyarrow does not take panics a scalar
function. -/
theorem exceptions_lost :
    ¬((Callback.ibisTableScan () none []).run (brittle ⟨0⟩) noKernels (fun _ => true) ()).Honest
        (fun e => e ≠ .panicked) (fun m e => m.Reported ⟨fun _ => "", fun _ => ""⟩ e) ∧
      ¬((Callback.pyTableProviderScan () none []).run (brittle ⟨0⟩) noKernels
          (fun _ => true) ()).Honest
        (fun e => e ≠ .panicked) (fun m e => m.Reported ⟨fun _ => "", fun _ => ""⟩ e) ∧
      ¬((Callback.scalarFunction () [.array ⟨(), [()]⟩]).run (brittle ⟨0⟩) noKernels
          (fun _ => true) ()).Honest
        (fun e => e ≠ .panicked) (fun m e => m.Reported ⟨fun _ => "", fun _ => ""⟩ e) := by
  refine ⟨?_, ?_, ?_⟩
  · rintro ⟨e, he, hr⟩
    cases he
    exact hr
  · rintro ⟨e, he, hr⟩
    cases he
    cases hr
  · rintro ⟨e, he, hr⟩
    cases he
    exact hr

end XorqDatafusion.Adapters
