import Mathlib.Algebra.BigOperators.Fin
import Mathlib.Algebra.Order.BigOperators.Group.Finset
import Mathlib.Algebra.Order.Group.Multiset
import XorqDatafusion.Filter.PyArrow
import XorqDatafusion.Provider.Columns

/-! Scans of pyarrow datasets: one partition for each fragment. -/
namespace XorqDatafusion.Bridge

variable {B E : Type} {check : B → Except E Unit} {bs : List B} {xs : List (Except E B)}

/-- The answers of a source that brings these batches and is done. -/
def bringing (bs : List B) (n : ℕ) : Outcome B E :=
  match bs[n]? with
  | some b => .batch b
  | none => .done

theorem firstCalls_bringing (bs : List B) (n : ℕ) :
    firstCalls (bringing (E := E) bs) n =
      (bs.take n).map .batch ++ List.replicate (n - bs.length) .done := by
  induction n with
  | zero => simp [firstCalls]
  | succ n ih =>
    rw [firstCalls_succ, ih, bringing, List.take_add_one]
    cases h : bs[n]? with
    | some b =>
      have hlt : n < bs.length := (List.getElem?_eq_some_iff.mp h).1
      have hnone : n - bs.length = 0 := by omega
      have hnone' : n + 1 - bs.length = 0 := by omega
      rw [hnone, hnone']
      simp
    | none =>
      have hmore : n + 1 - bs.length = n - bs.length + 1 := by
        have hle := List.getElem?_eq_none_iff.mp h
        omega
      rw [hmore, List.replicate_succ']
      simp

theorem spec_done (n : ℕ) : spec check (List.replicate n (.done : Outcome B E)) = [] := by
  cases n <;> rfl

theorem spec_bringing (h : ∀ b ∈ bs, check b = .ok ()) (n : ℕ) :
    spec check (firstCalls (bringing bs) n) = (bs.take n).map .ok := by
  have htake : ∀ b ∈ bs.take n, check b = .ok () := fun b hb => h b (List.mem_of_mem_take hb)
  rw [firstCalls_bringing, spec_batches htake, spec_done, List.append_nil]

theorem within_bringing (h : ∀ b ∈ bs, check b = .ok ()) (hw : Within check (bringing bs) xs) :
    xs <+: bs.map .ok := by
  obtain ⟨n, hn⟩ := hw
  rw [spec_bringing h] at hn
  exact hn.trans ((List.take_prefix n bs).map _)

theorem complete_bringing (h : ∀ b ∈ bs, check b = .ok ()) (hc : Complete check (bringing bs) xs) :
    bs.map .ok <+: xs := by
  have hall := hc bs.length
  rwa [spec_bringing h, List.take_length] at hall

/-- A source of accepted batches does not panic. -/
theorem not_panics_bringing (h : ∀ b ∈ bs, check b = .ok ()) (payload : String) :
    ¬Panics check (bringing bs) payload := by
  rintro ⟨n, hn⟩
  have htake : ∀ b ∈ bs.take n, check b = .ok () := fun b hb => h b (List.mem_of_mem_take hb)
  rw [firstCalls_bringing, verdict_batches htake] at hn
  cases hk : n - bs.length with
  | zero => simp [hk, verdict] at hn
  | succ k => simp [hk, List.replicate_succ, verdict, Outcome.verdict] at hn

end XorqDatafusion.Bridge

namespace XorqDatafusion.Provider

open Bridge Fallible XorqDatafusion.Filter Transition

variable {T α F : Type}

/-- What the batches of a scanner, `to_batches()`, give when iterated over. -/
abbrev Batches (T α : Type) := List (Except PyErr (RecordBatch T α))

/-- A `pyarrow.dataset.Fragment`: its rows by column name, and what scanning it with a schema, columns,
a filter and a batch size comes to. -/
structure Fragment (T α F : Type) where
  rows : List (String → α)
  scanner : Schema T → Option (List String) → Option (PyArrowFilterExpression F) → ℕ →
    Except PyErr (Batches T α)

/-- A `pyarrow.dataset.Dataset`. `fragments` are all it consists of, `getFragments` those a filter
leaves; `projectedSchema` is that of its scanner with these columns and this filter. -/
structure DatasetObject (T α F : Type) where
  fragments : List (Fragment T α F)
  schema : Except PyErr (Schema T)
  projectedSchema : Option (List String) → Option (PyArrowFilterExpression F) → Except PyErr (Schema T)
  getFragments : Option (PyArrowFilterExpression F) → Except PyErr (List (Fragment T α F))
  indexError : PyErr

/-- The schema is the one read at registration. -/
structure Dataset (T α F : Type) where
  dataset : DatasetObject T α F
  schema : Schema T
  registered : dataset.schema = .ok schema

/-- `Dataset::new`, given an instance of `pyarrow.dataset.Dataset`. -/
def Dataset.new (dataset : DatasetObject T α F) : Except PyErr (Dataset T α F) :=
  match h : dataset.schema with
  | .error e => .error e
  | .ok schema => .ok ⟨dataset, schema, h⟩

/-- How `DatasetExec::new` fails. -/
inductive DatasetError (F : Type)
  | pythonError (exception : PyErr)
  | common (error : FilterError F)

structure DatasetExec (T α F : Type) where
  dataset : DatasetObject T α F
  schema : Schema T
  fragments : List (Fragment T α F)
  columns : Option (List String)
  filterExpr : Option (PyArrowFilterExpression F)

/-- `dataset.schema.field(index).name`. -/
def DatasetObject.fieldName (dataset : DatasetObject T α F) (index : ℕ) : Except PyErr String := do
  let schema ← dataset.schema
  match schema.fields[index]? with
  | some field => .ok field.name
  | none => .error dataset.indexError

def DatasetObject.columnNames (dataset : DatasetObject T α F) :
    Option (List ℕ) → Except PyErr (Option (List String))
  | none => .ok none
  | some indices => do
    let names ← indices.mapM dataset.fieldName
    return some names

namespace DatasetExec

def new (dataset : DatasetObject T α F) (projection : Option (List ℕ)) (filters : List (Expr F)) :
    Except (DatasetError F) (DatasetExec T α F) := do
  let columns ← (dataset.columnNames projection).mapError .pythonError
  let filterExpr ← (datasetFilter filters).mapError .common
  let schema ← (dataset.projectedSchema columns filterExpr).mapError .pythonError
  let fragments ← (dataset.getFragments filterExpr).mapError .pythonError
  return ⟨dataset, schema, fragments, columns, filterExpr⟩

/-- `UnknownPartitioning(fragments.len())`. -/
def partitions (exec : DatasetExec T α F) : ℕ := exec.fragments.length

/-- What the closure of an execution holds between its calls. -/
structure Pull (T α F : Type) where
  iter : Option (Batches T α)
  columns : Option (List String)
  filterExpr : Option (PyArrowFilterExpression F)

/-- The first pull looks up the fragment and takes the columns and the filter for its scanner. -/
def build (exec : DatasetExec T α F) (partition batchSize : ℕ) (s : Pull T α F) :
    Except PyErr (Batches T α) × Pull T α F :=
  match exec.fragments[partition]? with
  | none => (.error exec.dataset.indexError, s)
  | some fragment => match exec.dataset.schema with
    | .error e => (.error e, s)
    | .ok schema => (fragment.scanner schema s.columns s.filterExpr batchSize, ⟨s.iter, none, none⟩)

def next (s : Pull T α F) : Batches T α → Outcome (RecordBatch T α) DataFusionError × Pull T α F
  | [] => (.done, { s with iter := some [] })
  | .ok batch :: rest => (.batch batch, { s with iter := some rest })
  | .error e :: rest => (.error (.external e), { s with iter := some rest })

/-- One call of the closure. -/
def pull (exec : DatasetExec T α F) (partition batchSize : ℕ) (s : Pull T α F) :
    Outcome (RecordBatch T α) DataFusionError × Pull T α F :=
  match s.iter with
  | some iter => next s iter
  | none => match exec.build partition batchSize s with
    | (.error e, s) => (.error (.external e), s)
    | (.ok iter, s) => next s iter

/-- The closure after some calls. -/
def pulled (exec : DatasetExec T α F) (partition batchSize : ℕ) : ℕ → Pull T α F
  | 0 => ⟨none, exec.columns, exec.filterExpr⟩
  | n + 1 => (exec.pull partition batchSize (exec.pulled partition batchSize n)).2

def answers (exec : DatasetExec T α F) (partition batchSize n : ℕ) :
    Outcome (RecordBatch T α) DataFusionError :=
  (exec.pull partition batchSize (exec.pulled partition batchSize n)).1

variable [DecidableEq T] [ToString T]

def check (exec : DatasetExec T α F) (b : RecordBatch T α) : Except DataFusionError Unit :=
  checkBatchSchema exec.schema b

/-- `execute`: a stream that reads ahead, over the pulls of one partition. -/
def execute (exec : DatasetExec T α F) (partition batchSize : ℕ) :
    Component Budget (Bridge.Stream (RecordBatch T α) DataFusionError)
      (Action (RecordBatch T α) DataFusionError) :=
  (component ⟨exec.check, .buffered⟩).restrict (Answers (exec.answers partition batchSize))

end DatasetExec

/-- `scan`. -/
def Dataset.scan (d : Dataset T α F) (projection : Option (List ℕ)) (filters : List (Expr F)) :
    Except (DatasetError F) (DatasetExec T α F) :=
  DatasetExec.new d.dataset projection filters

/-- The names of the projected columns. -/
def Dataset.names (d : Dataset T α F) : Option (List ℕ) → List String
  | none => d.schema.fields.map Field.name
  | some indices => indices.filterMap fun i => d.schema.fields[i]?.map Field.name

section Pulls

variable {exec : DatasetExec T α F} {partition batchSize : ℕ} {fragment : Fragment T α F}
  {schema : Schema T} {bs : List (RecordBatch T α)}

theorem next_map_ok (s : DatasetExec.Pull T α F) (bs : List (RecordBatch T α)) (n : ℕ) :
    DatasetExec.next s ((bs.drop n).map .ok) =
      (bringing bs n, { s with iter := some ((bs.drop (n + 1)).map .ok) }) := by
  unfold bringing
  cases h : bs[n]? with
  | none =>
    have hle := List.getElem?_eq_none_iff.mp h
    rw [List.drop_eq_nil_of_le hle, List.drop_eq_nil_of_le (by omega)]
    rfl
  | some b =>
    obtain ⟨hlt, rfl⟩ := List.getElem?_eq_some_iff.mp h
    rw [List.drop_eq_getElem_cons hlt]
    rfl

/-- The pulls of a partition bring the batches of its fragment's scanner. -/
theorem answers_eq_bringing (hf : exec.fragments[partition]? = some fragment)
    (hd : exec.dataset.schema = .ok schema)
    (hs : fragment.scanner schema exec.columns exec.filterExpr batchSize = .ok (bs.map .ok)) :
    exec.answers partition batchSize = bringing bs := by
  have hpull : ∀ n, exec.pull partition batchSize (exec.pulled partition batchSize n) =
      (bringing bs n, ⟨some ((bs.drop (n + 1)).map .ok), none, none⟩) := by
    intro n
    induction n with
    | zero =>
      have hnext := next_map_ok (F := F) ⟨none, none, none⟩ bs 0
      simp only [DatasetExec.pulled, DatasetExec.pull, DatasetExec.build, hf, hd, hs]
      exact hnext
    | succ n ih =>
      rw [DatasetExec.pulled, ih]
      exact next_map_ok _ bs (n + 1)
  funext n
  rw [DatasetExec.answers, hpull]

end Pulls

theorem fieldName_eq_ok_iff {dataset : DatasetObject T α F} {schema : Schema T} {index : ℕ}
    {name : String} (hd : dataset.schema = .ok schema) :
    dataset.fieldName index = .ok name ↔ schema.fields[index]?.map Field.name = some name := by
  unfold DatasetObject.fieldName
  rw [hd]
  cases h : schema.fields[index]? <;> simp [h, bind, Except.bind]

theorem filterMap_of_forall₂ {β γ : Type} {f : β → Option γ} {xs : List β} {ys : List γ}
    (h : List.Forall₂ (fun x y => f x = some y) xs ys) : xs.filterMap f = ys := by
  induction h with
  | nil => rfl
  | cons hx _ ih => rw [List.filterMap_cons_some hx, ih]

section Scan

variable {d : Dataset T α F} {projection : Option (List ℕ)} {filters : List (Expr F)}
  {exec : DatasetExec T α F}

/-- What a plan is made of. -/
structure Planned (d : Dataset T α F) (projection : Option (List ℕ)) (filters : List (Expr F))
    (exec : DatasetExec T α F) : Prop where
  dataset : exec.dataset = d.dataset
  filter : datasetFilter filters = .ok exec.filterExpr
  fragments : d.dataset.getFragments exec.filterExpr = .ok exec.fragments
  schema : d.dataset.projectedSchema exec.columns exec.filterExpr = .ok exec.schema
  names : exec.columns.getD (d.schema.fields.map Field.name) = d.names projection

theorem planned_of_scan (h : d.scan projection filters = .ok exec) :
    Planned d projection filters exec := by
  obtain ⟨columns, hc, h⟩ := bind_eq_ok_iff.mp h
  obtain ⟨filterExpr, hf, h⟩ := bind_eq_ok_iff.mp h
  obtain ⟨schema, hs, h⟩ := bind_eq_ok_iff.mp h
  obtain ⟨fragments, hg, h⟩ := bind_eq_ok_iff.mp h
  rw [mapError_eq_ok_iff] at hc hf hs hg
  cases h
  refine ⟨rfl, hf, hg, hs, ?_⟩
  cases projection with
  | none =>
    cases hc
    rfl
  | some indices =>
    obtain ⟨names, hn, hc⟩ := bind_eq_ok_iff.mp hc
    cases hc
    have hall := (forall₂_of_mapM hn).imp fun _ _ h => (fieldName_eq_ok_iff d.registered).mp h
    exact (filterMap_of_forall₂ hall).symm

end Scan

variable [LinearOrder F]

/-- The rows of a fragment that a filter keeps; `read` is how a filter sees a value. -/
def Fragment.matching (read : α → Value F) (filter : Option (PyArrowFilterExpression F))
    (fragment : Fragment T α F) : List (String → α) :=
  fragment.rows.filter fun row => scanKeeps filter (read ∘ row)

/-- What pyarrow promises: a filter leaves every fragment that may have a matching row, each once, and
a scanner brings the matching rows of its fragment, with the columns of the projected schema. -/
structure DatasetObject.Documented (read : α → Value F) (dataset : DatasetObject T α F) : Prop where
  fragments : ∀ filter fragments, dataset.getFragments filter = .ok fragments →
    ∃ pruned, dataset.fragments.Perm (fragments ++ pruned) ∧
      ∀ fragment ∈ pruned, ∀ row ∈ fragment.rows, ¬scanKeeps filter (read ∘ row)
  batches : ∀ fragment ∈ dataset.fragments, ∀ schema columns filter projected batchSize,
    dataset.schema = .ok schema → dataset.projectedSchema columns filter = .ok projected →
    ∃ bs : List (RecordBatch T α), fragment.scanner schema columns filter batchSize = .ok (bs.map .ok) ∧
      (∀ b ∈ bs, b.schema.signature = projected.signature) ∧
      (bs.flatMap RecordBatch.rows).Perm ((fragment.matching read filter).map
        (columns.getD (schema.fields.map Field.name)).map)

/-- The rows of the dataset that a filter keeps, projected. -/
def Dataset.expected (read : α → Value F) (d : Dataset T α F) (projection : Option (List ℕ))
    (filter : Option (PyArrowFilterExpression F)) : Multiset (List α) :=
  ((d.dataset.fragments.flatMap (·.matching read filter)).map (d.names projection).map : List (List α))

omit [LinearOrder F] in
/-- The rows among what a stream has delivered. -/
def rowsOf (items : List (Except DataFusionError (RecordBatch T α))) : List (List α) :=
  items.flatMap fun
    | .ok b => b.rows
    | .error _ => []

section Rows

variable {read : α → Value F} {filter : Option (PyArrowFilterExpression F)}
  {fragments pruned : List (Fragment T α F)} {xs ys : List (Except DataFusionError (RecordBatch T α))}

omit [LinearOrder F] in
@[simp]
theorem rowsOf_map_ok (bs : List (RecordBatch T α)) : rowsOf (bs.map .ok) = bs.flatMap RecordBatch.rows := by
  simp [rowsOf, List.flatMap_map]

omit [LinearOrder F] in
theorem rowsOf_le (h : xs <+: ys) : (rowsOf xs : Multiset (List α)) ≤ rowsOf ys := by
  obtain ⟨zs, rfl⟩ := h
  rw [rowsOf, rowsOf, List.flatMap_append, ← Multiset.coe_add]
  exact Multiset.le_add_right _ _

theorem matching_eq_nil {fragment : Fragment T α F}
    (h : ∀ row ∈ fragment.rows, ¬scanKeeps filter (read ∘ row)) : fragment.matching read filter = [] := by
  rw [Fragment.matching, List.filter_eq_nil_iff]
  intro row hrow
  simpa using h row hrow

omit [LinearOrder F] in
theorem coe_flatMap {β γ : Type} (xs : List β) (f : β → List γ) :
    (xs.flatMap f : Multiset γ) = (xs.map fun x => (f x : Multiset γ)).sum := by
  induction xs with
  | nil => rfl
  | cons x xs ih => rw [List.flatMap_cons, ← Multiset.coe_add, ih, List.map_cons, List.sum_cons]

/-- The fragments a filter leaves have all the rows it keeps. -/
theorem matching_of_perm {all : List (Fragment T α F)} (hp : all.Perm (fragments ++ pruned))
    (hpruned : ∀ fragment ∈ pruned, ∀ row ∈ fragment.rows, ¬scanKeeps filter (read ∘ row)) :
    (all.flatMap (·.matching read filter)).Perm (fragments.flatMap (·.matching read filter)) := by
  have hnone : pruned.flatMap (·.matching read filter) = [] := by
    rw [List.flatMap_eq_nil_iff]
    intro fragment hf
    exact matching_eq_nil (hpruned fragment hf)
  have hall := hp.flatMap_right (·.matching read filter)
  rwa [List.flatMap_append, hnone, List.append_nil] at hall

end Rows

/-- A plan brings the expected rows: it has a partition, every execution of a partition goes well, and
the partitions together never deliver more than these rows, and all of them once they have ended. -/
structure DatasetExec.Covers [DecidableEq T] [ToString T] (exec : DatasetExec T α F) (batchSize : ℕ)
    (expected : Multiset (List α)) : Prop where
  advertised : 0 < exec.partitions
  executable : ∀ partition < exec.partitions, ∀ p,
    (exec.execute partition batchSize).alone.Reachable p →
    (∀ e, .error e ∉ p.2.delivered) ∧ ∀ payload, p.2.ending ≠ some (.panicked payload)
  within : ∀ p : Fin exec.partitions → Budget × Bridge.Stream (RecordBatch T α) DataFusionError,
    (∀ i : Fin exec.partitions, (exec.execute i batchSize).alone.Reachable (p i)) →
    ∑ i, (rowsOf (p i).2.delivered : Multiset (List α)) ≤ expected
  complete : ∀ p : Fin exec.partitions → Budget × Bridge.Stream (RecordBatch T α) DataFusionError,
    (∀ i : Fin exec.partitions, (exec.execute i batchSize).alone.Reachable (p i)) →
    (∀ i, (p i).2.ending = some .clean) →
    ∑ i, (rowsOf (p i).2.delivered : Multiset (List α)) = expected

section Executions

variable [DecidableEq T] [ToString T] {read : α → Value F} {d : Dataset T α F}
  {projection : Option (List ℕ)} {filters : List (Expr F)} {exec : DatasetExec T α F}
  {partition batchSize : ℕ} {bs : List (RecordBatch T α)}
  {p : Budget × Bridge.Stream (RecordBatch T α) DataFusionError}

/-- What each partition of a plan owes. -/
theorem Planned.owed (h : Planned d projection filters exec) (hd : d.dataset.Documented read)
    (hi : partition < exec.fragments.length) (batchSize : ℕ) :
    ∃ bs, exec.answers partition batchSize = bringing bs ∧ (∀ b ∈ bs, exec.check b = .ok ()) ∧
      (bs.flatMap RecordBatch.rows).Perm
        ((exec.fragments[partition].matching read exec.filterExpr).map (d.names projection).map) := by
  obtain ⟨pruned, hperm, -⟩ := hd.fragments _ _ h.fragments
  have hmem : exec.fragments[partition] ∈ d.dataset.fragments := by
    apply hperm.mem_iff.mpr
    exact List.mem_append_left _ (List.getElem_mem hi)
  obtain ⟨bs, hs, hsig, hrows⟩ :=
    hd.batches _ hmem _ _ _ _ batchSize d.registered h.schema
  have hregistered : exec.dataset.schema = .ok d.schema := by
    rw [h.dataset]
    exact d.registered
  rw [h.names] at hrows
  refine ⟨bs, answers_eq_bringing (List.getElem?_eq_getElem hi) hregistered hs, ?_, hrows⟩
  intro b hb
  exact checkBatchSchema_eq_ok_iff.mpr (hsig b hb).symm

omit [LinearOrder F] in
theorem delivered_part (ha : exec.answers partition batchSize = bringing bs)
    (hc : ∀ b ∈ bs, exec.check b = .ok ())
    (hp : (exec.execute partition batchSize).alone.Reachable p) : p.2.delivered <+: bs.map .ok := by
  have hw := delivered_within hp
  rw [ha] at hw
  exact within_bringing hc hw

omit [LinearOrder F] in
theorem delivered_eq (ha : exec.answers partition batchSize = bringing bs)
    (hc : ∀ b ∈ bs, exec.check b = .ok ())
    (hp : (exec.execute partition batchSize).alone.Reachable p) (he : p.2.ending = some .clean) :
    p.2.delivered = bs.map .ok := by
  have hall := complete_of_clean hp he
  rw [ha] at hall
  exact (delivered_part ha hc hp).eq_of_length_le (complete_bringing hc hall).length_le

omit [DecidableEq T] [ToString T] in
/-- The partitions owe the expected rows between them. -/
theorem Planned.sum_rows (h : Planned d projection filters exec) (hd : d.dataset.Documented read)
    {owed : Fin exec.partitions → List (RecordBatch T α)}
    (ho : ∀ i : Fin exec.partitions, ((owed i).flatMap RecordBatch.rows).Perm
      ((exec.fragments[i.1].matching read exec.filterExpr).map (d.names projection).map)) :
    ∑ i, ((owed i).flatMap RecordBatch.rows : Multiset (List α)) =
      d.expected read projection exec.filterExpr := by
  obtain ⟨pruned, hperm, hpruned⟩ := hd.fragments _ _ h.fragments
  let rows (fragment : Fragment T α F) : List (List α) :=
    (fragment.matching read exec.filterExpr).map (d.names projection).map
  calc ∑ i, ((owed i).flatMap RecordBatch.rows : Multiset (List α))
      = ∑ i : Fin exec.fragments.length, (rows exec.fragments[i.1] : Multiset (List α)) :=
        Finset.sum_congr rfl fun i _ => Multiset.coe_eq_coe.mpr (ho i)
    _ = (exec.fragments.flatMap rows : Multiset (List α)) := by
        rw [Fin.sum_univ_fun_getElem exec.fragments fun f => (rows f : Multiset (List α)), coe_flatMap]
    _ = d.expected read projection exec.filterExpr := by
        rw [Dataset.expected, Multiset.coe_eq_coe, ← List.map_flatMap]
        exact (matching_of_perm hperm hpruned).symm.map _

/-- A plan brings exactly the matching rows if and only if the filter leaves at least one fragment. -/
theorem dataset_scan_covers_iff (read : α → Value F) (d : Dataset T α F)
    (hd : d.dataset.Documented read) (projection : Option (List ℕ)) (filters : List (Expr F))
    (exec : DatasetExec T α F) (hscan : d.scan projection filters = .ok exec)
    (filter : Option (PyArrowFilterExpression F)) (hf : datasetFilter filters = .ok filter)
    (fragments : List (Fragment T α F)) (hg : d.dataset.getFragments filter = .ok fragments)
    (batchSize : ℕ) :
    exec.Covers batchSize (d.expected read projection filter) ↔ fragments ≠ [] := by
  have h := planned_of_scan hscan
  cases h.filter.symm.trans hf
  cases h.fragments.symm.trans hg
  constructor
  · intro hc
    exact List.length_pos_iff.mp hc.advertised
  · intro hne
    choose owed ha hc ho using fun i : Fin exec.partitions => h.owed hd i.2 batchSize
    have hsum := h.sum_rows hd ho
    refine ⟨List.length_pos_iff.mpr hne, ?_, ?_, ?_⟩
    · intro partition hi p hp
      have hpre := delivered_part (ha ⟨partition, hi⟩) (hc _) hp
      constructor
      · intro e he
        have hmem := hpre.subset he
        simp at hmem
      · intro payload he
        have hpanic := panics_of_ending hp he
        rw [ha ⟨partition, hi⟩] at hpanic
        exact not_panics_bringing (hc _) payload hpanic
    · intro p hp
      rw [← hsum]
      apply Finset.sum_le_sum
      intro i _
      rw [← rowsOf_map_ok]
      exact rowsOf_le (delivered_part (ha i) (hc i) (hp i))
    · intro p hp he
      rw [← hsum]
      apply Finset.sum_congr rfl
      intro i _
      rw [delivered_eq (ha i) (hc i) (hp i) (he i), rowsOf_map_ok]

end Executions

/-- A batch of integer rows. -/
def batchOf (names : List String) (rows : List (String → ℤ)) : RecordBatch String ℤ where
  schema := integers names
  columns := names.map fun name => ⟨"Int64", rows.map (· name)⟩
  rowCount := rows.length
  typed := by simp [integers]
  counted := by simp

theorem rows_batchOf (names : List String) (rows : List (String → ℤ)) :
    (batchOf names rows).rows = rows.map names.map := by
  apply List.ext_getElem
  · simp [RecordBatch.rows, batchOf]
  · intro i hi hi'
    have hlt : i < rows.length := by simpa using hi'
    simp [RecordBatch.rows, batchOf, List.filterMap_map, hlt]

def seen (i : ℤ) : Value ℤ := some (.integer i)

/-- A fragment that brings its matching rows in one batch. -/
def fragmentOf (rows : List (String → ℤ)) : Fragment String ℤ ℤ where
  rows := rows
  scanner schema columns filter _ := .ok [.ok (batchOf (columns.getD (schema.fields.map Field.name))
    (rows.filter fun row => scanKeeps filter (seen ∘ row)))]

/-- A dataset of integer columns, in which a filter leaves the fragments that have a matching row. -/
def datasetOf (names : List String) (parts : List (List (String → ℤ))) :
    DatasetObject String ℤ ℤ where
  fragments := parts.map fragmentOf
  schema := .ok (integers names)
  projectedSchema columns _ := .ok (integers (columns.getD names))
  getFragments filter := .ok ((parts.filter fun rows =>
    rows.any fun row => scanKeeps filter (seen ∘ row)).map fragmentOf)
  indexError := ⟨0⟩

theorem datasetOf_documented (names : List String) (parts : List (List (String → ℤ))) :
    (datasetOf names parts).Documented seen where
  fragments filter fragments h := by
    cases h
    let has (rows : List (String → ℤ)) : Bool := rows.any fun row => scanKeeps filter (seen ∘ row)
    refine ⟨(parts.filter fun rows => !has rows).map fragmentOf, ?_, ?_⟩
    · rw [← List.map_append]
      exact ((List.filter_append_perm has parts).map fragmentOf).symm
    · intro fragment hf row hrow
      obtain ⟨rows, hrows, rfl⟩ := List.mem_map.mp hf
      have hnone := (List.mem_filter.mp hrows).2
      simp only [has, Bool.not_eq_true', List.any_eq_false] at hnone
      simpa using hnone row hrow
  batches fragment hf schema columns filter projected batchSize hs hp := by
    obtain ⟨rows, -, rfl⟩ := List.mem_map.mp hf
    cases hs
    cases hp
    have hnames : (integers names).fields.map Field.name = names := by
      simp [integers, Function.comp_def]
    refine ⟨[batchOf (columns.getD names) ((fragmentOf rows).matching seen filter)], ?_, ?_, ?_⟩
    · simp only [fragmentOf, hnames]
      rfl
    · simp [batchOf]
    · rw [hnames]
      simp [rows_batchOf]

def rowOf (id : ℤ) : String → ℤ := fun _ => id

def twoParts : Dataset String ℤ ℤ := ⟨datasetOf ["id"] [[rowOf 1], [rowOf 2, rowOf 3]], _, rfl⟩

def twoExec : DatasetExec String ℤ ℤ :=
  ⟨twoParts.dataset, integers ["id"], twoParts.dataset.fragments, none, none⟩

/-- A consumer reads one partition, a batch, to its end. -/
def scanRun (partition : ℕ) : List (Action (RecordBatch String ℤ) DataFusionError) :=
  [.pollNext, .coordinator true, .coordinator true, .coordinator true, .host, .coordinator true,
    .coordinator true, .coordinator true, .host, .host, .answer (twoExec.answers partition 8192 0),
    .receive, .pollNext, .host, .host, .host, .answer (twoExec.answers partition 8192 1), .host,
    .host, .host, .host, .coordinator true, .endOfStream]

theorem scanRun_ends (partition : Fin 2) :
    ∃ p, (twoExec.execute partition 8192).alone.Reachable p ∧ p.2.ending = some .clean := by
  obtain ⟨p, hrun, he⟩ : ∃ p, System.replay (answeringStep ⟨twoExec.check, .buffered⟩
      (twoExec.answers partition 8192)) (scanRun partition) (.initial, {}) = some p ∧
      p.2.ending = some .clean := by
    match partition with
    | 0 | 1 => exact ⟨_, rfl, rfl⟩
  exact ⟨p, answering_reachable hrun, he⟩

theorem dataset_scan_covers_iff_twoParts :
    twoParts.scan none [] = .ok twoExec ∧ ∃ p : Fin 2 → Budget × Bridge.Stream _ _,
      (∀ i : Fin 2, (twoExec.execute i 8192).alone.Reachable (p i) ∧ (p i).2.ending = some .clean) ∧
      ∑ i, (rowsOf (p i).2.delivered : Multiset (List ℤ)) = {[1], [2], [3]} := by
  refine ⟨rfl, ?_⟩
  choose p hp using scanRun_ends
  have hcovers := (dataset_scan_covers_iff seen twoParts (datasetOf_documented _ _) none [] twoExec rfl
    none rfl _ rfl 8192).mpr (by decide)
  exact ⟨p, hp, hcovers.complete p (fun i => (hp i).1) fun i => (hp i).2⟩

/-- `id = 7`. -/
def idIsSeven : Expr ℤ := .binaryExpr (.column "id") .eq (.literal (.int64 (some 7)))

/-- A filter that is pushed down as exact and matches nothing gives a plan without a partition. -/
theorem dataset_scan_without_partition :
    supportsFiltersPushdown PyArrowFilterExpression.tryFrom [idIsSeven] = [.exact] ∧
      twoParts.dataset.Documented seen ∧
      ∃ exec, twoParts.scan none [idIsSeven] = .ok exec ∧ exec.partitions = 0 ∧
        ∀ batchSize expected, ¬exec.Covers batchSize expected := by
  refine ⟨rfl, datasetOf_documented _ _, _, rfl, ?_, ?_⟩
  · decide
  · intro batchSize expected h
    exact absurd h.advertised (by decide)

end XorqDatafusion.Provider
