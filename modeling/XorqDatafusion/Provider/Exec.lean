import XorqDatafusion.Bridge.Serve
import XorqDatafusion.Filter.Ibis

/-! Table providers over Python objects, and the executions of their scans. -/
namespace XorqDatafusion.Provider

open Bridge Fallible XorqDatafusion.Filter Transition

variable {T α W I F : Type}

/-- A Python object with a `schema` that can be iterated over. `W` is what all its iterators share,
`I` tells them apart; `next` imports the batch it gets. -/
structure PyReader (T α W I : Type) where
  schema : Except PyErr (Schema T)
  iter : W → Except PyErr I × W
  next : I → W → Option (Except PyErr (RecordBatch T α)) × W

/-- A reader that is its own iterator, as a `pyarrow.RecordBatchReader` is: what is left of it is
shared by all who iterate. -/
def singleUse (schema : Schema T) : PyReader T α (List (RecordBatch T α)) Unit where
  schema := .ok schema
  iter w := (.ok (), w)
  next _ w := match w with
    | [] => (none, [])
    | batch :: rest => (some (.ok batch), rest)

/-- The variants of `errors::DataFusionError` that `IbisTableExec::new` returns. -/
inductive ExecError
  | executionError (error : DataFusionError)
  | pythonError (exception : PyErr)
deriving DecidableEq

/-- The schema is the reader's own, projected. -/
structure IbisTableExec (T α W I : Type) where
  recordBatchReader : PyReader T α W I
  schema : Schema T
  projection : Option (List ℕ)
  projected : ∃ declared, recordBatchReader.schema = .ok declared ∧
    projectSchema declared projection = .ok schema

def IbisTableExec.new (recordBatchReader : PyReader T α W I) (projections : Option (List ℕ)) :
    Except ExecError (IbisTableExec T α W I) :=
  match hd : recordBatchReader.schema with
  | .error e => .error (.pythonError e)
  | .ok declared => match hs : projectSchema declared projections with
    | .error e => .error (.executionError e)
    | .ok schema => .ok ⟨recordBatchReader, schema, projections, declared, hd, hs⟩

/-- What a call of the closure makes of what the iterator gave it. -/
def IbisTableExec.keep (exec : IbisTableExec T α W I)
    (pulled : Option (Except PyErr (RecordBatch T α))) : Outcome (RecordBatch T α) DataFusionError :=
  match pulled with
  | none => .done
  | some (.error e) => .error (.external e)
  | some (.ok batch) => match exec.projection with
    | none => .batch batch
    | some indices => match batch.project indices with
      | .ok batch => .batch batch
      | .error e => .error e

/-- One call of the closure, which builds its iterator on the first. -/
def IbisTableExec.pull (exec : IbisTableExec T α W I) (iter : Option I) (w : W) :
    Outcome (RecordBatch T α) DataFusionError × Option I × W :=
  match iter with
  | some it =>
    let (pulled, w) := exec.recordBatchReader.next it w
    (exec.keep pulled, some it, w)
  | none => match exec.recordBatchReader.iter w with
    | (.error e, w) => (.error (.external e), none, w)
    | (.ok it, w) =>
      let (pulled, w) := exec.recordBatchReader.next it w
      (exec.keep pulled, some it, w)

def IbisTableExec.check (exec : IbisTableExec T α W I) [DecidableEq T] [ToString T] :
    RecordBatch T α → Except DataFusionError Unit :=
  checkBatchSchema exec.schema

/-- The iterator of the closure, and the stream with the budgets as it finds them. -/
structure Execution (T α I : Type) where
  iter : Option I
  view : Budget × Bridge.Stream (RecordBatch T α) DataFusionError

def Execution.stream (e : Execution T α I) : Bridge.Stream (RecordBatch T α) DataFusionError := e.view.2

/-- `execute`: an on-demand stream whose pulls go to the reader the plan holds. -/
def IbisTableExec.execute (exec : IbisTableExec T α W I) [DecidableEq T] [ToString T] :
    Component W (Execution T α I) (Option (Action (RecordBatch T α) DataFusionError)) where
  start e := e.iter = none ∧ e.stream = {}
  step p a q := (component (onDemand exec.check)).alone.step p.2.view a q.2.view ∧
    match a with
    | some (.answer o) => exec.pull p.2.iter p.1 = (o, q.2.iter, q.1)
    | _ => (q.2.iter, q.1) = (p.2.iter, p.1)

/-- All executions of one plan, over its reader. -/
def IbisTableExec.executions (exec : IbisTableExec T α W I) [DecidableEq T] [ToString T] (ι : Type)
    [DecidableEq ι] (w : W) :
    System (W × (ι → Execution T α I))
      (ι × Option (Action (RecordBatch T α) DataFusionError)) :=
  family (fun _ : ι => exec.execute) w

/-- How a scan goes wrong: with an exception or the error of `IbisTableExec::new` as an external
error, or in one of its `unwrap`s. -/
inductive ScanError (F : Type)
  | exception (exception : PyErr)
  | exec (error : ExecError)
  | unwrapFilter (error : FilterError F)
  | unwrapBatches (exception : PyErr)

/-- The filters as Python objects. -/
def translate (filters : List (Expr F)) :
    Except (ScanError F) (List (IbisFilterExpression F)) :=
  filters.mapM fun filter => (IbisFilterExpression.tryFrom filter).mapError .unwrapFilter

/-- A Python table provider: `schema()`, and `scan(filters=...)` with the state the reader is in. -/
structure ProviderObject (F T α W I : Type) where
  schema : Except PyErr (Schema T)
  scan : List (IbisFilterExpression F) → Except PyErr (PyReader T α W I × W)

structure PyTableProvider (F T α W I : Type) where
  tableProvider : ProviderObject F T α W I
  schema : Schema T

def PyTableProvider.new (tableProvider : ProviderObject F T α W I) :
    Except PyErr (PyTableProvider F T α W I) := do
  let schema ← tableProvider.schema
  return ⟨tableProvider, schema⟩

/-- The reader the Python side returns for these filters. -/
def PyTableProvider.read (p : PyTableProvider F T α W I) (filters : List (Expr F)) :
    Except (ScanError F) (PyReader T α W I × W) := do
  let args ← translate filters
  (p.tableProvider.scan args).mapError .exception

/-- An ibis table: `schema().to_pyarrow()`, and what `to_pyarrow_batches()` returns, of the table
itself and of `filter(...)` on it. -/
structure TableObject (F T α W I : Type) where
  schema : Except PyErr (Schema T)
  toPyarrowBatches : Except PyErr (PyReader T α W I × W)
  filter : List (IbisFilterExpression F) → Except PyErr (Except PyErr (PyReader T α W I × W))

structure IbisTable (F T α W I : Type) where
  ibisTable : TableObject F T α W I
  schema : Schema T

/-- `IbisTable::new`, given an instance of `ibis.expr.types.Table`. -/
def IbisTable.new (ibisTable : TableObject F T α W I) : Except PyErr (IbisTable F T α W I) := do
  let schema ← ibisTable.schema
  return ⟨ibisTable, schema⟩

def IbisTable.read (t : IbisTable F T α W I) (filters : List (Expr F)) :
    Except (ScanError F) (PyReader T α W I × W) :=
  if filters.isEmpty then t.ibisTable.toPyarrowBatches.mapError .unwrapBatches
  else do
    let args ← translate filters
    let filtered ← (t.ibisTable.filter args).mapError .exception
    filtered.mapError .unwrapBatches

inductive TableProvider (F T α W I : Type)
  | python (p : PyTableProvider F T α W I)
  | ibis (t : IbisTable F T α W I)

namespace TableProvider

/-- The schema read at registration. -/
def schema : TableProvider F T α W I → Schema T
  | python p => p.schema
  | ibis t => t.schema

def read : TableProvider F T α W I → List (Expr F) → Except (ScanError F) (PyReader T α W I × W)
  | python p => p.read
  | ibis t => t.read

/-- `scan`: the plan, with the state its reader is in. -/
def scan (provider : TableProvider F T α W I) (projection : Option (List ℕ))
    (filters : List (Expr F)) : Except (ScanError F) (IbisTableExec T α W I × W) := do
  let (reader, w) ← provider.read filters
  let exec ← (IbisTableExec.new reader projection).mapError .exec
  return (exec, w)

end TableProvider

variable {provider : TableProvider F T α W I} {projection : Option (List ℕ)}
  {filters : List (Expr F)} {exec : IbisTableExec T α W I} {w : W}

/-- A plan is its reader and its projection. -/
theorem new_eq_ok_iff {reader : PyReader T α W I} :
    IbisTableExec.new reader projection = .ok exec ↔
      exec.recordBatchReader = reader ∧ exec.projection = projection := by
  constructor
  · intro h
    unfold IbisTableExec.new at h
    split at h
    · cases h
    · split at h
      · cases h
      · cases h
        exact ⟨rfl, rfl⟩
  · obtain ⟨reader', schema, projection', declared, hd, hs⟩ := exec
    rintro ⟨rfl, rfl⟩
    unfold IbisTableExec.new
    split
    · rename_i he
      cases hd.symm.trans he
    · rename_i hd'
      cases hd.symm.trans hd'
      split
      · rename_i he
        cases hs.symm.trans he
      · rename_i hs'
        cases hs.symm.trans hs'
        rfl

theorem scan_eq_ok_iff :
    provider.scan projection filters = .ok (exec, w) ↔
      provider.read filters = .ok (exec.recordBatchReader, w) ∧ exec.projection = projection := by
  unfold TableProvider.scan
  rw [bind_eq_ok_iff]
  constructor
  · rintro ⟨⟨reader, w'⟩, hr, h⟩
    obtain ⟨exec', he, h⟩ := bind_eq_ok_iff.mp h
    cases h
    obtain ⟨rfl, hp⟩ := new_eq_ok_iff.mp (mapError_eq_ok_iff.mp he)
    exact ⟨hr, hp⟩
  · rintro ⟨hr, hp⟩
    have hn := new_eq_ok_iff.mpr ⟨rfl, hp⟩
    exact ⟨_, hr, bind_eq_ok_iff.mpr ⟨exec, mapError_eq_ok_iff.mpr hn, rfl⟩⟩

end XorqDatafusion.Provider
