import XorqDatafusion.Blame
import XorqDatafusion.Errors
import XorqDatafusion.ScalarFunction
import XorqDatafusion.Udwf

/-! The adapters between DataFusion and Python objects, step by step: every step may fail. -/
namespace XorqDatafusion.Adapters

open Blame Errors Udf

variable {W O T α L : Type}

/-- Why an object is not converted: code of its own raised, or it is not what is asked for. -/
inductive Refused
  | raised (exception : PyErr)
  | rejected (exception : PyErr)

def Refused.exception : Refused → PyErr
  | .raised e | .rejected e => e

/-- The operations of Python that the adapters use, from and to states of the interpreter, and the
conversions of the objects they return. `ofArray` is `to_pyarrow`, which itself calls into pyarrow. -/
structure Python (W O T α L : Type) where
  call : O → List O → W → Except PyErr O × W
  callMethod : O → String → List O → List (String × O) → W → Except PyErr O × W
  getattr : O → String → W → Except PyErr O × W
  getItem : O → ℕ → W → Except PyErr O × W
  iter : O → W → Except PyErr O × W
  next : O → W → Except PyErr (Option O) × W
  list : O → W → Except PyErr O × W
  schema : O → W → Except Refused (Schema T) × W
  string : O → W → Except Refused String × W
  batch : O → W → Except Refused (RecordBatch T α) × W
  array : O → W → Except Refused (ArrayRef T α) × W
  scalar : O → W → Except Refused (ScalarValue T α) × W
  scalars : O → W → Except Refused (List (ScalarValue T α)) × W
  bool : O → W → Except Refused Bool × W
  usize : O → W → Except Refused ℕ × W
  tuple : O → W → Except Refused (List O) × W
  plan : O → W → Except Refused L × W
  valueError : String → PyErr
  none : O
  ofString : String → O
  ofNat : ℕ → O
  ofList : List O → O
  ofTuple : List O → O
  ofArray : ArrayRef T α → W → Except PyErr O × W
  ofPlan : L → O

/-- What an adapter asks of Python. -/
inductive Site
  | providerScan
  | readerSchema
  | readerIter
  | readerNext
  | ibisFilter
  | toPyarrowBatches
  | datasetField
  | datasetScanner
  | projectedSchema
  | getFragments
  | fragmentScanner
  | scannerNext
  | scalarFunctionArgs
  | scalarFunction
  | newAccumulator
  | updateArgs
  | update
  | evaluate
  | state
  | mergeArgs
  | merge
  | retractBatchArgs
  | retractBatch
  | supportsRetractBatch
  | memoize
  | getRange
  | isCausal
  | evaluateAllArgs
  | evaluateAll
  | evaluateWindowArgs
  | evaluateWindow
  | evaluateAllWithRank
  | supportsBoundedExecution
  | usesWindowFrame
  | includeRank
  | tryOptimize
deriving DecidableEq

/-- A mishap in Python: a call raises an exception, or a value raises one while it is converted, or it
is not what is asked for, by its type or because it is empty, or because it is of another data type. -/
inductive Mishap
  | raised (site : Site) (exception : PyErr)
  | raisedWithin (site : Site) (exception : PyErr)
  | rejected (site : Site) (exception : PyErr)
  | empty (site : Site)
  | mistyped
deriving DecidableEq

def Mishap.ofRefused (site : Site) : Refused → Mishap
  | .raised e => .raisedWithin site e
  | .rejected e => .rejected site e

abbrev PyAdapter (W : Type) := Adapter W Mishap PyErr

def raising {β : Type} (site : Site) (op : W → Except PyErr β × W) : PyAdapter W β :=
  Adapter.ask (.raised site) op

def extract {β : Type} (site : Site) (op : W → Except Refused β × W) : PyAdapter W β :=
  (Adapter.ask (.ofRefused site) op).mapError Refused.exception

/-- Indexing with 0, which panics when there is nothing. -/
def first {β : Type} (site : Site) (x : Option β) : Adapter W Mishap Failure β :=
  (Adapter.ask (fun _ : Unit => .empty site) fun w => (x.elim (.error ()) .ok, w)).mapError
    fun _ => .panicked

/-- `.map_err(to_external_err)?`, or `External(Box::new(err))` for an exception. -/
def orExternal {β : Type} (x : PyAdapter W β) : Adapter W Mishap Failure β := x.mapError .external

def orPanic {β : Type} (x : PyAdapter W β) : Adapter W Mishap Failure β :=
  x.mapError fun _ => .panicked

/-- `?` where the error is this crate's own. -/
def orPython {β : Type} (x : PyAdapter W β) : Adapter W Mishap Errors.DataFusionError β :=
  x.mapError .pythonError

/-- `.map_err(|err| DataFusionError::External(Box::new(err)))`. -/
def boxed {β : Type} (x : Adapter W Mishap Errors.DataFusionError β) : Adapter W Mishap Failure β :=
  x.mapError .boxed

variable (py : Python W O T α L)

/-! Table providers: the plans of their scans. Filters arrive translated. -/

/-- `IbisTableExec::new`, up to the properties it computes. -/
def ibisTableExecNew (reader : O) (projections : Option (List ℕ)) :
    Adapter W Mishap Errors.DataFusionError (Schema T) := do
  let attr ← orPython (raising .readerSchema (py.getattr reader "schema"))
  let schema ← orPython (extract .readerSchema (py.schema attr))
  match projectSchema schema projections with
  | .ok schema => pure schema
  | .error e => Adapter.fail (.executionError (ofDataFusionError e))

/-- `PyTableProvider::scan`. -/
def pyTableProviderScan (provider : O) (projection : Option (List ℕ)) (filters : List O) :
    Adapter W Mishap Failure (Schema T) := do
  let table ← orExternal (raising .providerScan
    (py.callMethod provider "scan" [] [("filters", py.ofTuple filters)]))
  boxed (ibisTableExecNew py table projection)

/-- `IbisTable::scan`. -/
def ibisTableScan (ibisTable : O) (projection : Option (List ℕ)) (filters : List O) :
    Adapter W Mishap Failure (Schema T) := do
  let table ← if filters.isEmpty then
      orPanic (raising .toPyarrowBatches (py.callMethod ibisTable "to_pyarrow_batches" [] []))
    else do
      let filtered ← orExternal (raising .ibisFilter (py.callMethod ibisTable "filter" filters []))
      orPanic (raising .toPyarrowBatches (py.callMethod filtered "to_pyarrow_batches" [] []))
  boxed (ibisTableExecNew py table projection)

/-- The names of the projected columns, each looked up in the dataset. -/
def fieldNames (dataset : O) : List ℕ → Adapter W Mishap Errors.DataFusionError (List String)
  | [] => pure []
  | index :: rest => do
    let schema ← orPython (raising .datasetField (py.getattr dataset "schema"))
    let field ← orPython (raising .datasetField (py.callMethod schema "field" [py.ofNat index] []))
    let name ← orPython (raising .datasetField (py.getattr field "name"))
    let name ← orPython (extract .datasetField (py.string name))
    let names ← fieldNames dataset rest
    return name :: names

def projectedNames (dataset : O) :
    Option (List ℕ) → Adapter W Mishap Errors.DataFusionError (Option (List String))
  | none => pure none
  | some indices => do return some (← fieldNames py dataset indices)

/-- What a scan of a dataset needs later. -/
structure DatasetExec (O T : Type) where
  schema : Schema T
  fragments : O
  columns : Option (List String)
  filterExpr : Option O

/-- The keyword arguments of a scanner. -/
def scannerArgs (columns : Option (List String)) (filter : Option O) : List (String × O) :=
  [("columns", columns.elim py.none fun names => py.ofList (names.map py.ofString)),
    ("filter", filter.getD py.none)]

/-- `DatasetExec::new`. -/
def datasetExecNew (dataset : O) (projection : Option (List ℕ)) (filter : Option O) :
    Adapter W Mishap Errors.DataFusionError (DatasetExec O T) := do
  let columns ← projectedNames py dataset projection
  let scanner ← orPython (raising .datasetScanner
    (py.callMethod dataset "scanner" [] (scannerArgs py columns filter)))
  let attr ← orPython (raising .projectedSchema (py.getattr scanner "projected_schema"))
  let schema ← orPython (extract .projectedSchema (py.schema attr))
  let iterator ← orPython (raising .getFragments
    (py.callMethod dataset "get_fragments" [filter.getD py.none] []))
  let fragments ← orPython (raising .getFragments (py.list iterator))
  return ⟨schema, fragments, columns, filter⟩

/-- `Dataset::scan`. -/
def datasetScan (dataset : O) (projection : Option (List ℕ)) (filter : Option O) :
    Adapter W Mishap Failure (DatasetExec O T) :=
  boxed (datasetExecNew py dataset projection filter)

/-! The pulls of their streams; `iter` is the iterator, once there is one. -/

/-- A batch of the iterator, or `none` at its end. -/
def nextBatch (site : Site) (iter : O) : Adapter W Mishap Failure (Option (RecordBatch T α)) := do
  match ← orExternal (raising site (py.next iter)) with
  | none => return none
  | some batch => return some (← orExternal (extract site (py.batch batch)))

def readerIter (reader : O) : Option O → Adapter W Mishap Failure O
  | some iter => pure iter
  | none => orExternal (raising .readerIter (py.iter reader))

/-- The pull of `IbisTableExec::execute`. -/
def ibisTableExecPull (reader : O) (projection : Option (List ℕ)) (iter : Option O) :
    Adapter W Mishap Failure (Option (RecordBatch T α) × O) := do
  let iter ← readerIter py reader iter
  match ← nextBatch py .readerNext iter, projection with
  | some batch, some indices => match batch.project indices with
    | .ok batch => return (some batch, iter)
    | .error e => Adapter.fail (.returned (ofDataFusionError e))
  | pulled, _ => return (pulled, iter)

def scannerIter (dataset : O) (exec : DatasetExec O T) (batchSize partition : ℕ) :
    Option O → Adapter W Mishap Failure O
  | some iter => pure iter
  | none => do
    let fragment ← orExternal (raising .fragmentScanner (py.getItem exec.fragments partition))
    let schema ← orExternal (raising .fragmentScanner (py.getattr dataset "schema"))
    let scanner ← orExternal (raising .fragmentScanner (py.callMethod fragment "scanner" [schema]
      (scannerArgs py exec.columns exec.filterExpr ++ [("batch_size", py.ofNat batchSize)])))
    let batches ← orExternal (raising .fragmentScanner (py.callMethod scanner "to_batches" [] []))
    orExternal (raising .fragmentScanner (py.iter batches))

/-- The pull of `DatasetExec::execute`, for one fragment. -/
def datasetExecPull (dataset : O) (exec : DatasetExec O T) (batchSize partition : ℕ)
    (iter : Option O) : Adapter W Mishap Failure (Option (RecordBatch T α) × O) := do
  let iter ← scannerIter py dataset exec batchSize partition iter
  return (← nextBatch py .scannerNext iter, iter)

/-! Functions written in Python. -/

/-- The arguments of a call as pyarrow arrays; each conversion is unwrapped. -/
def toPyarrow (site : Site) (values : List (ArrayRef T α)) : Adapter W Mishap Failure (List O) :=
  values.mapM fun arg => orPanic (raising site (py.ofArray arg))

/-- `to_array_of_size` and `try_from_array`; the latter indexes, and there may be nothing. -/
structure Kernels (T α : Type) where
  toArrayOfSize : ScalarValue T α → ℕ → Except InnerDataFusionError (ArrayRef T α)
  tryFromArray : ArrayRef T α → ℕ → Option (Except InnerDataFusionError (ScalarValue T α))

/-- The kernels alone. -/
def Kernels.plain (kernels : Kernels T α) : Arrow T α (Except Failure) where
  toArrayOfSize s n := (kernels.toArrayOfSize s n).mapError .returned
  tryFromArray array i := match kernels.tryFromArray array i with
    | some value => value.mapError .returned
    | none => .error .panicked

/-- The kernels within an adapter. -/
def Kernels.arrow (kernels : Kernels T α) : Arrow T α (Adapter W Mishap Failure) where
  toArrayOfSize s n := Adapter.lift (kernels.plain.toArrayOfSize s n)
  tryFromArray array i := do
    let value ← first .scalarFunction (kernels.tryFromArray array i)
    Adapter.lift (value.mapError .returned)

/-- The closure of `to_rust_function`. -/
def callPython (func : O) (args : List (ArrayRef T α)) : Adapter W Mishap Failure (ArrayRef T α) := do
  let pyArgs ← toPyarrow py .scalarFunctionArgs args
  let value ← orExternal (raising .scalarFunction (py.call func pyArgs))
  orPanic (extract .scalarFunction (py.array value))

def toRustFunction (kernels : Kernels T α) (func : O) :
    List (ColumnarValue T α) → Adapter W Mishap Failure (ColumnarValue T α) :=
  makeScalarFunction kernels.arrow (callPython py func)

/-- `to_rust_accumulator`. -/
def toRustAccumulator (accum : O) : Adapter W Mishap Failure O :=
  orExternal (raising .newAccumulator (py.call accum []))

def updateBatch (accum : O) (values : List (ArrayRef T α)) : Adapter W Mishap Failure Unit := do
  let args ← toPyarrow py .updateArgs values
  (orExternal (raising .update (py.callMethod accum "update" args []))).map fun _ => ()

def evaluate (accum : O) : Adapter W Mishap Failure (ScalarValue T α) :=
  orExternal do
    let result ← raising .evaluate (py.callMethod accum "evaluate" [] [])
    extract .evaluate (py.scalar result)

def state (accum : O) : Adapter W Mishap Failure (List (ScalarValue T α)) :=
  orExternal do
    let result ← raising .state (py.callMethod accum "state" [] [])
    extract .state (py.scalars result)

def mergeBatch (accum : O) (states : List (ArrayRef T α)) : Adapter W Mishap Failure Unit := do
  let state ← first .merge states.head?
  let state ← orExternal (raising .mergeArgs (py.ofArray state))
  (orExternal (raising .merge (py.callMethod accum "merge" [state] []))).map fun _ => ()

def retractBatch (accum : O) (values : List (ArrayRef T α)) : Adapter W Mishap Failure Unit := do
  let args ← toPyarrow py .retractBatchArgs values
  (orExternal (raising .retractBatch (py.callMethod accum "retract_batch" args []))).map fun _ => ()

/-- A yes-or-no method: whatever goes wrong means no. -/
def flag (site : Site) (op : W → Except PyErr O × W) : Adapter W Mishap Failure Bool :=
  Adapter.unwrapOr false do
    let result ← raising site op
    extract site (py.bool result)

def supportsRetractBatch (accum : O) : Adapter W Mishap Failure Bool :=
  flag py .supportsRetractBatch (py.callMethod accum "supports_retract_batch" [] [])

/-! The methods of `RustPartitionEvaluator`. -/

def memoize (evaluator : O) : Adapter W Mishap Failure Unit :=
  (orExternal (raising .memoize (py.callMethod evaluator "memoize" [] []))).map fun _ => ()

def getRange (evaluator : O) (idx nRows : ℕ) : Adapter W Mishap Failure (ℕ × ℕ) :=
  orExternal do
    let result ← raising .getRange
      (py.callMethod evaluator "get_range" [py.ofNat idx, py.ofNat nRows] [])
    let tuple ← extract .getRange (py.tuple result)
    match tuple with
    | [start, stop] =>
      let start ← extract .getRange (py.usize start)
      let stop ← extract .getRange (py.usize stop)
      return (start, stop)
    | _ => extract .getRange fun w => (.error (.rejected (py.valueError
        s!"Expected get_range to return tuple of length 2. Received length {tuple.length}")), w)

def isCausal (evaluator : O) : Adapter W Mishap Failure Bool :=
  flag py .isCausal (py.callMethod evaluator "is_causal" [] [])

def evaluateAll (evaluator : O) (values : List (ArrayRef T α)) (numRows : ℕ) :
    Adapter W Mishap Failure (ArrayRef T α) := do
  let pyValues ← toPyarrow py .evaluateAllArgs values
  let result ← orExternal (raising .evaluateAll
    (py.callMethod evaluator "evaluate_all" [py.ofList pyValues, py.ofNat numRows] []))
  orPanic (extract .evaluateAll (py.array result))

/-- `RustPartitionEvaluator::evaluate`. -/
def evaluateWindow (evaluator : O) (values : List (ArrayRef T α)) (range : ℕ × ℕ) :
    Adapter W Mishap Failure (ScalarValue T α) := do
  let pyValues ← toPyarrow py .evaluateWindowArgs values
  orExternal do
    let result ← raising .evaluateWindow (py.callMethod evaluator "evaluate"
      [py.ofList pyValues, py.ofTuple [py.ofNat range.1, py.ofNat range.2]] [])
    extract .evaluateWindow (py.scalar result)

def evaluateAllWithRank (evaluator : O) (numRows : ℕ) (ranksInPartition : List (ℕ × ℕ)) :
    Adapter W Mishap Failure (ArrayRef T α) := do
  let ranks := ranksInPartition.map fun r => py.ofTuple [py.ofNat r.1, py.ofNat r.2]
  let result ← orExternal (raising .evaluateAllWithRank
    (py.callMethod evaluator "evaluate_all_with_rank" [py.ofNat numRows, py.ofList ranks] []))
  orPanic (extract .evaluateAllWithRank (py.array result))

def supportsBoundedExecution (evaluator : O) : Adapter W Mishap Failure Bool :=
  flag py .supportsBoundedExecution (py.callMethod evaluator "supports_bounded_execution" [] [])

def usesWindowFrame (evaluator : O) : Adapter W Mishap Failure Bool :=
  flag py .usesWindowFrame (py.callMethod evaluator "uses_window_frame" [] [])

def includeRank (evaluator : O) : Adapter W Mishap Failure Bool :=
  flag py .includeRank (py.callMethod evaluator "include_rank" [] [])

/-- A method of `RustPartitionEvaluator`. -/
def windowCall (evaluator : O) : WindowCall (ArrayRef T α) →
    Adapter W Mishap Failure (WindowValue (ArrayRef T α) (ScalarValue T α))
  | .memoize => (memoize py evaluator).map fun _ => .unit
  | .getRange idx nRows => (getRange py evaluator idx nRows).map fun r => .range r.1 r.2
  | .isCausal => (isCausal py evaluator).map .flag
  | .evaluateAll values numRows => (evaluateAll py evaluator values numRows).map .array
  | .evaluate values range => (evaluateWindow py evaluator values range).map .scalar
  | .evaluateAllWithRank numRows ranksInPartition =>
    (evaluateAllWithRank py evaluator numRows ranksInPartition).map .array
  | .supportsBoundedExecution => (supportsBoundedExecution py evaluator).map .flag
  | .usesWindowFrame => (usesWindowFrame py evaluator).map .flag
  | .includeRank => (includeRank py evaluator).map .flag

/-- `PyOptimizerRule::rewrite`. -/
def rewrite (rule : O) (plan : L) : Adapter W Mishap Failure L := do
  let result ← orExternal (raising .tryOptimize
    (py.callMethod rule "try_optimize" [py.ofPlan plan] []))
  orPanic (extract .tryOptimize (py.plan result))

/-- Objects with which everything raises `e`. -/
def raisingAll (o : O) (e : PyErr) : Python W O T α L where
  call _ _ w := (.error e, w)
  callMethod _ _ _ _ w := (.error e, w)
  getattr _ _ w := (.error e, w)
  getItem _ _ w := (.error e, w)
  iter _ w := (.error e, w)
  next _ w := (.error e, w)
  list _ w := (.error e, w)
  schema _ w := (.error (.raised e), w)
  string _ w := (.error (.raised e), w)
  batch _ w := (.error (.raised e), w)
  array _ w := (.error (.raised e), w)
  scalar _ w := (.error (.raised e), w)
  scalars _ w := (.error (.raised e), w)
  bool _ w := (.error (.raised e), w)
  usize _ w := (.error (.raised e), w)
  tuple _ w := (.error (.raised e), w)
  plan _ w := (.error (.raised e), w)
  valueError _ := e
  none := o
  ofString _ := o
  ofNat _ := o
  ofList _ := o
  ofTuple _ := o
  ofArray _ w := (.error e, w)
  ofPlan _ := o

end XorqDatafusion.Adapters
