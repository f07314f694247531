import XorqDatafusion.Provider.Dataset
import XorqDatafusion.Provider.Pushdown
import XorqDatafusion.Provider.Columns
import XorqDatafusion.Provider.Reexecution
import XorqDatafusion.Selection

/-! Queries over a table. The filters a provider takes are tested by its scan and the others above it;
the answer is that of a query which reads the whole table first. -/
namespace XorqDatafusion.Provider

open Bridge Fallible XorqDatafusion.Filter Selection Transition

variable {F β : Type} {filters : List (Expr F)} {answers : List TableProviderFilterPushDown}
  {holds : Expr F → Row F → Bool} {filter : Expr F}

/-- The filters a provider takes, of those it was asked about. -/
def takenDown (answers : List TableProviderFilterPushDown) (filters : List (Expr F)) : List (Expr F) :=
  ((filters.zip answers).filter fun p => decide (p.2 = .exact)).map Prod.fst

/-- The filters that are tested above the scan. -/
def leftAbove (answers : List TableProviderFilterPushDown) (filters : List (Expr F)) : List (Expr F) :=
  ((filters.zip answers).filter fun p => decide (p.2 ≠ .exact)).map Prod.fst

def passes (holds : Expr F → Row F → Bool) (filters : List (Expr F)) (row : Row F) : Bool :=
  filters.all (holds · row)

theorem passes_split (h : answers.length = filters.length) (row : Row F) :
    passes holds filters row =
      (passes holds (takenDown answers filters) row && passes holds (leftAbove answers filters) row) := by
  induction filters generalizing answers with
  | nil => simp [passes, takenDown, leftAbove]
  | cons filter filters ih =>
    cases answers with
    | nil => cases h
    | cons answer answers =>
      have hrest := ih (Nat.succ.inj h)
      simp only [passes, takenDown, leftAbove, List.all_cons, List.zip_cons_cons] at hrest ⊢
      cases answer <;> simp [hrest, Bool.and_assoc, Bool.and_left_comm]

theorem mem_takenDown {P : Type} {tryFrom : Expr F → Except (FilterError F) P}
    (h : filter ∈ takenDown (supportsFiltersPushdown tryFrom filters) filters) :
    ∃ p, tryFrom filter = .ok p := by
  induction filters with
  | nil => cases h
  | cons head filters ih =>
    unfold takenDown supportsFiltersPushdown at h
    rw [List.map_cons, List.zip_cons_cons, List.filter_cons] at h
    cases hhead : tryFrom head with
    | error e =>
      simp only [hhead, reduceCtorEq, decide_false, Bool.false_eq_true, if_false] at h
      exact ih h
    | ok p =>
      simp only [hhead, decide_true, if_true, List.map_cons, List.mem_cons] at h
      rcases h with rfl | h
      · exact ⟨p, hhead⟩
      · exact ih h

/-- `supports_filters_pushdown` answers for each filter. -/
theorem supportsFiltersPushdown_length {P : Type} (tryFrom : Expr F → Except (FilterError F) P) :
    (supportsFiltersPushdown tryFrom filters).length = filters.length := by
  simp [supportsFiltersPushdown]

/-- How the planner evaluates filters: as SQL says, where they have a translation. -/
def Evaluates [LinearOrder F] (holds : Expr F → Row F → Bool) : Prop :=
  ∀ expr row, expr.Supported → (holds expr row = true ↔ expr.Holds row)

theorem passes_takenDown [LinearOrder F] {P : Type} {tryFrom : Expr F → Except (FilterError F) P}
    (ht : Structural tryFrom) (hh : Evaluates holds) {row : Row F} :
    passes holds (takenDown (supportsFiltersPushdown tryFrom filters) filters) row = true ↔
      ∀ f ∈ takenDown (supportsFiltersPushdown tryFrom filters) filters, f.Holds row := by
  rw [passes, List.all_eq_true]
  apply forall₂_congr
  intro f hf
  exact hh f row (ht.accepts_iff.mp (mem_takenDown hf))

/-- A query over one table: its filters, and what it makes of a row that passes them. -/
structure Query (F β : Type) where
  filters : List (Expr F)
  output : Row F → β

namespace Query

variable {V : Type} {q : Query F β} {names : List String} {read : V → Value F}
  {rows : Multiset (String → V)} {cells cells' : Multiset (List V)}

/-- The answer of a query that reads the whole table and tests all filters itself. -/
def plain (q : Query F β) (holds : Expr F → Row F → Bool) (read : V → Value F)
    (rows : Multiset (String → V)) : Multiset β :=
  select (passes holds q.filters) q.output (rows.map (read ∘ ·))

/-- What the plan above a scan makes of the rows it gets under these names. -/
def above (q : Query F β) (holds : Expr F → Row F → Bool) (answers : List TableProviderFilterPushDown)
    (read : V → Value F) (names : List String) (cells : Multiset (List V)) : Multiset β :=
  select (passes holds (leftAbove answers q.filters)) q.output (cells.map (assemble read names))

/-- The projection keeps every column that is needed above the scan. -/
structure Needs (q : Query F β) (holds : Expr F → Row F → Bool)
    (answers : List TableProviderFilterPushDown) (names : List String) : Prop where
  filters : Local names (passes holds (leftAbove answers q.filters))
  output : Local names q.output

/-- What has reached the plan above the scan is a part of the answer, and all of it at the end. -/
structure Answered (q : Query F β) (holds : Expr F → Row F → Bool)
    (answers : List TableProviderFilterPushDown) (read : V → Value F) (names : List String)
    (rows : Multiset (String → V)) (cells : Multiset (List V)) (ended : Prop) : Prop where
  within : q.above holds answers read names cells ≤ q.plain holds read rows
  complete : ended → q.above holds answers read names cells = q.plain holds read rows

theorem above_mono (h : cells ≤ cells') :
    q.above holds answers read names cells ≤ q.above holds answers read names cells' :=
  select_mono (Multiset.map_le_map h)

/-- A scan that brings the rows its filters keep gives the query its answer. -/
theorem above_scan (hn : q.Needs holds answers names) (hlen : answers.length = q.filters.length) :
    q.above holds answers read names ((rows.filter fun row =>
      passes holds (takenDown answers q.filters) (read ∘ row)).map names.map) =
      q.plain holds read rows :=
  select_scan (passes_split hlen) hn.filters hn.output rows

end Query

/-- The entries at a projection. -/
def columnsAt {γ : Type} : Option (List ℕ) → List γ → List γ
  | none, xs => xs
  | some indices, xs => indices.filterMap (xs[·]?)

theorem columnsAt_map {γ δ : Type} (f : γ → δ) (projection : Option (List ℕ)) (xs : List γ) :
    columnsAt projection (xs.map f) = (columnsAt projection xs).map f := by
  cases projection <;> simp [columnsAt, List.map_filterMap]

theorem pick_eq_columnsAt {γ : Type} {xs ys : List γ} {indices : List ℕ} (h : pick xs indices = .ok ys) :
    ys = columnsAt (some indices) xs := by
  have hmap := congrArg (List.filterMap id) (pick_eq_ok_iff.mp h)
  simpa [columnsAt, List.filterMap_map] using hmap.symm

section Batches

variable {T α : Type} {b k : RecordBatch T α} {indices : List ℕ}

theorem filterMap_getElem? {γ δ : Type} {f : γ → Option δ} {xs : List γ}
    (h : ∀ x ∈ xs, (f x).isSome = true) (i : ℕ) : (xs.filterMap f)[i]? = xs[i]?.bind f := by
  induction xs generalizing i with
  | nil => rfl
  | cons x xs ih =>
    obtain ⟨hx, hxs⟩ := List.forall_mem_cons.mp h
    obtain ⟨y, hy⟩ := Option.isSome_iff_exists.mp hx
    rw [List.filterMap_cons_some hy]
    cases i with
    | zero => simp [hy]
    | succ i => simpa using ih hxs i

/-- Projecting a batch projects each of its rows, and keeps their number. -/
theorem rows_project (h : b.project indices = .ok k) :
    k.rows = b.rows.map (columnsAt (some indices)) := by
  obtain ⟨-, hcolumns, hcount⟩ := RecordBatch.project_schema h
  have hcols := pick_eq_columnsAt hcolumns
  simp only [RecordBatch.rows, hcount, List.map_map]
  apply List.map_congr_left
  intro i hi
  have hsome : ∀ column ∈ b.columns, (column.values[i]?).isSome = true := by
    intro column hc
    rw [List.getElem?_eq_getElem (by rw [b.counted column hc]; exact List.mem_range.mp hi)]
    rfl
  simp only [Function.comp_apply, hcols, columnsAt, List.filterMap_filterMap, filterMap_getElem? hsome]

end Batches

section Readers

variable {T α W I : Type} {exec : IbisTableExec T α W I} {w : W} {declared : Schema T}

/-- A reader of these rows: it declares the columns of this schema and holds batches of them. -/
structure PyReader.Scans (reader : PyReader T α W I) (w : W) (schema : Schema T)
    (cells : Multiset (List α)) : Prop where
  declared : ∃ declared, reader.schema = .ok declared ∧ declared.signature = schema.signature
  batches : ∃ bs : List (RecordBatch T α), reader.Holds w bs ∧
    (∀ b ∈ bs, b.schema.signature = schema.signature) ∧
    (bs.flatMap RecordBatch.rows : Multiset (List α)) = cells

variable [DecidableEq T] [ToString T]

/-- What the plan shows of a batch of the declared columns. -/
theorem shown_declared (hd : exec.recordBatchReader.schema = .ok declared) {b : RecordBatch T α}
    (hb : b.schema.signature = declared.signature) :
    ∃ k, exec.shown b = .batch k ∧ exec.check k = .ok () ∧
      k.rows = b.rows.map (columnsAt exec.projection) := by
  obtain ⟨k, hkeep, hcheck⟩ := keep_declared hd hb
  refine ⟨k, hkeep, hcheck, ?_⟩
  unfold IbisTableExec.keep at hkeep
  cases hp : exec.projection with
  | none =>
    simp only [hp, Outcome.batch.injEq] at hkeep
    subst hkeep
    exact (List.map_id b.rows).symm
  | some indices =>
    simp only [hp] at hkeep
    cases hproject : b.project indices with
    | error e => simp [hproject] at hkeep
    | ok k' =>
      simp only [hproject, Outcome.batch.injEq] at hkeep
      subst hkeep
      exact rows_project hproject

theorem shown_batches (hd : exec.recordBatchReader.schema = .ok declared) {bs : List (RecordBatch T α)}
    (hbs : ∀ b ∈ bs, b.schema.signature = declared.signature) :
    ∃ ks : List (RecordBatch T α), bs.map exec.shown = ks.map .batch ∧
      (∀ k ∈ ks, exec.check k = .ok ()) ∧
      ks.flatMap RecordBatch.rows = (bs.flatMap RecordBatch.rows).map (columnsAt exec.projection) := by
  induction bs with
  | nil => exact ⟨[], rfl, by simp, rfl⟩
  | cons b bs ih =>
    obtain ⟨hb, hrest⟩ := List.forall_mem_cons.mp hbs
    obtain ⟨k, hkeep, hcheck, hrows⟩ := shown_declared hd hb
    obtain ⟨ks, hkeeps, hchecks, hall⟩ := ih hrest
    refine ⟨k :: ks, by simp [hkeep, hkeeps], List.forall_mem_cons.mpr ⟨hcheck, hchecks⟩, ?_⟩
    simp [hrows, hall]

variable {ι : Type} [DecidableEq ι] {p : W × (ι → Execution T α I)} {v : W × (ι → Visit T α I)}
  {bs ks : List (RecordBatch T α)}

/-- A loop that nothing disturbs has been given a part of what the reader holds, and then its end. -/
theorem given_part (hu : exec.recordBatchReader.Undisturbed exec.Wants ι w)
    (hb : exec.recordBatchReader.Holds w bs) (hv : (exec.visits ι w).Reachable v) (i : ι) :
    (v.2 i).given <+: bs.map (some ∘ .ok) ++ [none] := by
  have hgiven := hu v hv i
  have hwanted := visit_wanted (family_reachable_alone hv i)
  have hloop : ∀ n ≤ bs.length,
      (bs.map (some ∘ .ok) ++ [none])[n]? = some (exec.recordBatchReader.loop w n) := by
    intro n hn
    rw [loop_of_holds hb hn]
    rcases Nat.lt_or_eq_of_le hn with hlt | rfl
    · rw [List.getElem?_append_left (by simpa using hlt)]
      simp [hlt]
    · simp
  have hlen : (v.2 i).given.length ≤ bs.length + 1 := by
    by_contra hlt
    -- One more turn would come after the end, which is not wanted.
    have hend : none ∈ (v.2 i).given.dropLast := by
      rw [hgiven, List.mem_iff_getElem?]
      refine ⟨bs.length, ?_⟩
      rw [List.getElem?_dropLast, if_pos (by simp; omega), List.getElem?_map,
        List.getElem?_range (by omega), Option.map_some, loop_of_holds hb le_rfl]
      simp
    exact not_wants_none (hwanted none hend)
  rw [List.prefix_iff_getElem?]
  intro n hn
  rw [hloop n (by omega)]
  have hat := congrArg (·[n]?) hgiven
  simp only [List.getElem?_map, List.getElem?_range hn, Option.map_some,
    List.getElem?_eq_getElem hn, Option.some.injEq] at hat
  rw [hat]

omit [DecidableEq T] [ToString T] in
/-- Answers that are a part of accepted batches and the end deliver a part of these batches. -/
theorem spec_of_prefix {os : List (Outcome (RecordBatch T α) DataFusionError)}
    {check : RecordBatch T α → Except DataFusionError Unit} (hc : ∀ k ∈ ks, check k = .ok ())
    (h : os <+: ks.map .batch ++ [.done]) : spec check os <+: ks.map .ok ∧
      (verdict check os ≠ .going → verdict check os = .ended ∧ spec check os = ks.map .ok) := by
  rcases List.prefix_concat_iff.mp h with rfl | hpart
  · rw [spec_exhausted hc, verdict_exhausted hc]
    exact ⟨List.prefix_rfl, fun _ => ⟨rfl, rfl⟩⟩
  · obtain ⟨ks', hks, rfl⟩ := List.prefix_map_iff.mp hpart
    have hc' : ∀ k ∈ ks', check k = .ok () := fun k hk => hc k (hks.subset hk)
    have hspec : spec check (ks'.map .batch ++ []) = ks'.map .ok ++ spec check [] := spec_batches hc'
    have hverdict : verdict check (ks'.map .batch ++ []) = verdict check [] := verdict_batches hc'
    simp only [List.append_nil, spec, verdict] at hspec hverdict
    rw [hspec, hverdict]
    exact ⟨hks.map _, fun hne => absurd rfl hne⟩

/-- An execution that nothing disturbs delivers these batches in order, and all of them before a clean
end; it does not end in a panic. -/
theorem delivered_held (hu : exec.recordBatchReader.Undisturbed exec.Wants ι w)
    (hb : exec.recordBatchReader.Holds w bs) (hk : bs.map exec.shown = ks.map .batch)
    (hc : ∀ k ∈ ks, exec.check k = .ok ()) (hp : (exec.executions ι w).Reachable p) (i : ι) :
    (p.2 i).stream.delivered <+: ks.map .ok ∧
      ((p.2 i).stream.ending = some .clean → (p.2 i).stream.delivered = ks.map .ok) ∧
      ∀ payload, (p.2 i).stream.ending ≠ some (.panicked payload) := by
  have hloss := execution_lossless (family_reachable_alone hp i)
  obtain ⟨vs, hvs, hfollows⟩ := visit_of_execution hp
  have hans : (p.2 i).stream.answers <+: ks.map .batch ++ [.done] := by
    have hpart := (given_part hu hb hvs i).map exec.keep
    rw [← (hfollows i).answers, List.map_append, List.map_map] at hpart
    rw [← hk]
    exact hpart
  obtain ⟨hspec, hover⟩ := spec_of_prefix hc hans
  refine ⟨hloss.delivered.trans hspec, fun he => ?_, fun payload he => ?_⟩
  · obtain ⟨hv, hall⟩ := hloss.clean he
    exact hall.trans (hover (ne_of_eq_of_ne hv (by simp))).2
  · have hv := hloss.panicked payload he
    have hended := (hover (ne_of_eq_of_ne hv (by simp))).1
    cases hv.symm.trans hended

end Readers

section Providers

variable [LinearOrder F] {T α W I : Type} {provider : TableProvider F T α W I} {read : α → Value F}
  {rows : Multiset (String → α)} {schema : Schema T} {args : List (IbisFilterExpression F)}
  {reader : PyReader T α W I} {w : W} {row : Row F}

/-- The rows of a table that ibis filters keep, under the columns of a schema. -/
def keptRows (read : α → Value F) (rows : Multiset (String → α)) (schema : Schema T)
    (args : List (IbisFilterExpression F)) : Multiset (List α) :=
  (rows.filter fun row => ∀ p ∈ args, p.Keeps (read ∘ row)).map (schema.fields.map Field.name).map

/-- What the Python side of a table promises: the readers it returns are of the rows that the filters it
was handed keep. -/
def TableProvider.Honours (read : α → Value F) (rows : Multiset (String → α)) :
    TableProvider F T α W I → Prop
  | .python p => ∀ args reader w, p.tableProvider.scan args = .ok (reader, w) →
      reader.Scans w p.schema (keptRows read rows p.schema args)
  | .ibis t => (∀ reader w, t.ibisTable.toPyarrowBatches = .ok (reader, w) →
      reader.Scans w t.schema (keptRows read rows t.schema [])) ∧
    ∀ args reader w, t.ibisTable.filter args = .ok (.ok (reader, w)) →
      reader.Scans w t.schema (keptRows read rows t.schema args)

theorem TableProvider.Honours.scans (h : provider.Honours read rows)
    (hr : provider.read filters = .ok (reader, w)) :
    ∃ args, translate filters = .ok args ∧
      reader.Scans w provider.schema (keptRows read rows provider.schema args) := by
  cases provider with
  | python p =>
    obtain ⟨args, hargs, hscan⟩ := bind_eq_ok_iff.mp hr
    exact ⟨args, hargs, h args reader w (mapError_eq_ok_iff.mp hscan)⟩
  | ibis t =>
    obtain ⟨hall, hfiltered⟩ := h
    simp only [TableProvider.read, IbisTable.read] at hr
    split at hr
    · rename_i hempty
      obtain rfl : filters = [] := List.isEmpty_iff.mp hempty
      exact ⟨[], rfl, hall reader w (mapError_eq_ok_iff.mp hr)⟩
    · obtain ⟨args, hargs, hr⟩ := bind_eq_ok_iff.mp hr
      obtain ⟨filtered, hf, hr⟩ := bind_eq_ok_iff.mp hr
      rw [mapError_eq_ok_iff] at hf hr
      subst hr
      exact ⟨args, hargs, hfiltered args reader w hf⟩

/-- Translated filters keep what the filters say with IN and NOT IN exchanged. -/
theorem translate_keeps (h : translate filters = .ok args) :
    (∀ p ∈ args, p.Keeps row) ↔ ∀ f ∈ filters, f.swapIn.Holds row := by
  have htranslated := forall₂_of_mapM h
  clear h
  induction htranslated with
  | nil => simp
  | cons hp _ ih =>
    rw [List.forall_mem_cons, List.forall_mem_cons]
    refine and_congr ?_ ih
    rw [IbisFilterExpression.Keeps, IbisFilterExpression.eval_tryFrom (mapError_eq_ok_iff.mp hp),
      Expr.Holds]

/-- The rows of a scan without IN, as the query needs them. -/
theorem keptRows_eq (ha : provider.supportsFiltersPushdown filters = answers) (hh : Evaluates holds)
    (hin : ∀ f ∈ takenDown answers filters, f.hasIn = false)
    (ht : translate (takenDown answers filters) = .ok args) (projection : Option (List ℕ)) :
    (keptRows read rows schema args).map (columnsAt projection) =
      (rows.filter fun row => passes holds (takenDown answers filters) (read ∘ row)).map
        (columnsAt projection (schema.fields.map Field.name)).map := by
  subst ha
  have hkeeps : ∀ row ∈ rows, (∀ p ∈ args, p.Keeps (read ∘ row)) ↔
      passes holds (takenDown (provider.supportsFiltersPushdown filters) filters) (read ∘ row) =
        true := by
    intro row _
    rw [translate_keeps ht, TableProvider.supportsFiltersPushdown,
      passes_takenDown IbisFilterExpression.structural hh]
    apply forall₂_congr
    intro f hf
    rw [Expr.swapIn_eq_self (hin f hf)]
  rw [keptRows, Multiset.filter_congr hkeeps, Multiset.map_map]
  exact Multiset.map_congr rfl fun row _ => columnsAt_map row projection _

variable [DecidableEq T] [ToString T] {ι : Type} [DecidableEq ι] {q : Query F β}
  {projection : Option (List ℕ)} {exec : IbisTableExec T α W I} {p : W × (ι → Execution T α I)}

/-- Pushing filters and columns down into the scan of a provider over ibis does not change the answer of
a query: what an execution has delivered is a part of it, and all of it once the stream has ended. -/
theorem ibis_query_answered (hp : provider.Honours read rows) (hh : Evaluates holds)
    (ha : provider.supportsFiltersPushdown q.filters = answers)
    (hin : ∀ f ∈ takenDown answers q.filters, f.hasIn = false)
    (hscan : provider.scan projection (takenDown answers q.filters) = .ok (exec, w))
    {names : List String} (hnames : columnsAt projection (provider.schema.fields.map Field.name) = names)
    (hn : q.Needs holds answers names) (hu : exec.recordBatchReader.Undisturbed exec.Wants ι w)
    (hq : (exec.executions ι w).Reachable p) (i : ι) :
    q.Answered holds answers read names rows (rowsOf (p.2 i).stream.delivered)
        ((p.2 i).stream.ending = some .clean) ∧
      (∀ e, .error e ∉ (p.2 i).stream.delivered) ∧
      ∀ payload, (p.2 i).stream.ending ≠ some (.panicked payload) := by
  subst hnames
  obtain ⟨hread, hproj⟩ := scan_eq_ok_iff.mp hscan
  obtain ⟨args, hargs, ⟨declared, hd, hsig⟩, bs, hholds, hbs, hcells⟩ := hp.scans hread
  obtain ⟨ks, hshown, hcheck, hrows⟩ := shown_batches hd fun b hb => (hbs b hb).trans hsig.symm
  obtain ⟨hpart, hclean, hpanic⟩ := delivered_held hu hholds hshown hcheck hq i
  have hlen : answers.length = q.filters.length := ha ▸ supportsFiltersPushdown_length _
  have hall : q.above holds answers read (columnsAt projection (provider.schema.fields.map Field.name))
      (rowsOf (ks.map .ok)) = q.plain holds read rows := by
    rw [rowsOf_map_ok, hrows, hproj, ← Multiset.map_coe, hcells, keptRows_eq ha hh hin hargs]
    exact Query.above_scan hn hlen
  refine ⟨⟨?_, fun he => ?_⟩, fun e he => ?_, hpanic⟩
  · rw [← hall]
    exact Query.above_mono (rowsOf_le hpart)
  · rw [hclean he, hall]
  · have hmem := hpart.subset he
    simp at hmem

end Providers

/-- A table whose scan brings the rows its filters keep in one batch, from a reader for one use. -/
def listed (names : List String) (rows : List (String → ℤ)) :
    ProviderObject ℤ String ℤ (List (RecordBatch String ℤ)) Unit where
  schema := .ok (integers names)
  scan args := .ok (singleUse (integers names), [(batchOf names (rows.filter fun row =>
    ∀ p ∈ args, p.Keeps (seen ∘ row)))])

theorem singleUse_holds {T α : Type} (schema : Schema T) (bs : List (RecordBatch T α)) :
    (singleUse schema).Holds bs bs := by
  refine ⟨(), (bs.drop ·), rfl, fun n _ => ?_⟩
  show (singleUse schema).next () (bs.drop n) = (bs[n]?.map .ok, bs.drop (n + 1))
  cases hn : bs[n]? with
  | none =>
    have hle := List.getElem?_eq_none_iff.mp hn
    rw [List.drop_eq_nil_of_le hle, List.drop_eq_nil_of_le (by omega)]
    rfl
  | some b =>
    obtain ⟨hlt, rfl⟩ := List.getElem?_eq_some_iff.mp hn
    rw [List.drop_eq_getElem_cons hlt]
    rfl

theorem listed_honours (names : List String) (rows : List (String → ℤ)) :
    (TableProvider.python ⟨listed names rows, integers names⟩).Honours seen rows := by
  intro args reader w h
  cases h
  refine ⟨⟨_, rfl, rfl⟩, [_], singleUse_holds _ _, by simp [batchOf], ?_⟩
  have hnames : (integers names).fields.map Field.name = names := by
    simp [integers, Function.comp_def]
  rw [List.flatMap_singleton, rows_batchOf, keptRows, hnames]
  rfl

/-- `x < 3 AND f(y)`, of which only the first can be translated, and `y` of what passes. -/
def mixed : Query ℤ (Value ℤ) where
  filters := [.binaryExpr (.column "x") .lt (.literal (.int64 (some 3))), .other "f(y)"]
  output row := row "y"

def isTwenty : Expr ℤ → Row ℤ → Bool
  | .other _, row => row "y" == some (.integer 20)
  | expr, row => decide (expr.Holds row)

theorem isTwenty_evaluates : Evaluates isTwenty := by
  intro expr row h
  cases h <;> simp [isTwenty]

theorem mixed_needs : mixed.Needs isTwenty [.exact, .unsupported] ["y"] where
  filters row row' h := by
    have hy := h "y" (by simp)
    simp [passes, leftAbove, mixed, isTwenty, hy]
  output row row' h := h "y" (by simp)

def pair (x y : ℤ) : String → ℤ := fun name => if name = "x" then x else y

def pairs : List (String → ℤ) := [pair 1 10, pair 2 20, pair 5 20]

/-- `f` is tested above the scan, which brings the column `y` alone. -/
theorem ibis_query_answered_mixed :
    ∃ exec w p, (TableProvider.python ⟨listed ["x", "y"] pairs, integers ["x", "y"]⟩).scan (some [1])
        (takenDown [.exact, .unsupported] mixed.filters) = .ok (exec, w) ∧
      (exec.executions Unit w).Reachable p ∧ (p.2 ()).stream.ending = some .clean ∧
      mixed.above isTwenty [.exact, .unsupported] seen ["y"] (rowsOf (p.2 ()).stream.delivered) =
        {some (.integer 20)} := by
  let scanned := batchOf ["x", "y"] [pair 1 10, pair 2 20]
  let exec : IbisTableExec String ℤ (List (RecordBatch String ℤ)) Unit :=
    ⟨singleUse (integers ["x", "y"]), integers ["y"], some [1], integers ["x", "y"], rfl, rfl⟩
  have hwants : exec.Wants (some (.ok scanned)) := ⟨_, rfl, rfl⟩
  have h₁ := (visits_start exec.recordBatchReader exec.Wants Unit [scanned]).step
    (a := ((), some (.ok scanned))) ⟨[], ⟨some (), [some (.ok scanned)]⟩, ⟨by simp, rfl, rfl⟩, rfl⟩
  have h₂ := h₁.step (a := ((), none))
    ⟨[], ⟨some (), [some (.ok scanned), none]⟩, ⟨by simpa using hwants, rfl, rfl⟩, rfl⟩
  obtain ⟨es, hes, hcaught⟩ := execution_of_visit h₂
  have hend : (es ()).stream.ending = some .clean := (hcaught ()).clean rfl
  have hscan : (TableProvider.python ⟨listed ["x", "y"] pairs, integers ["x", "y"]⟩).scan (some [1])
      (takenDown [.exact, .unsupported] mixed.filters) = .ok (exec, [scanned]) :=
    scan_eq_ok_iff.mpr ⟨rfl, rfl⟩
  obtain ⟨hanswer, -⟩ := ibis_query_answered (listed_honours _ _) isTwenty_evaluates rfl
    (by decide) hscan rfl mixed_needs undisturbed_of_subsingleton hes ()
  exact ⟨exec, _, _, hscan, hes, hend, (hanswer.complete hend).trans rfl⟩

section Datasets

variable [LinearOrder F] {T α : Type} {d : Dataset T α F} {read : α → Value F}
  {projection : Option (List ℕ)} {filter : Option (PyArrowFilterExpression F)}

/-- The rows a dataset is expected to bring, as the query needs them. -/
theorem expected_eq (ha : supportsFiltersPushdown PyArrowFilterExpression.tryFrom filters = answers)
    (hh : Evaluates holds)
    (hin : ∀ f ∈ takenDown answers filters, f.listsPositive = true)
    (hf : datasetFilter (takenDown answers filters) = .ok filter) :
    d.expected read projection filter =
      (Multiset.filter (fun row => passes holds (takenDown answers filters) (read ∘ row))
        (d.dataset.fragments.flatMap Fragment.rows)).map (d.names projection).map := by
  subst ha
  have hkeeps : ∀ row : String → α, scanKeeps filter (read ∘ row) ↔ passes holds
      (takenDown (supportsFiltersPushdown PyArrowFilterExpression.tryFrom filters) filters)
      (read ∘ row) = true := by
    intro row
    rw [datasetFilter_keeps hf, passes_takenDown PyArrowFilterExpression.structural hh]
    apply forall₂_congr
    intro f hf
    exact Expr.holds_guardIn_iff (hin f hf)
  have hrows : d.dataset.fragments.flatMap (·.matching read filter) =
      (d.dataset.fragments.flatMap Fragment.rows).filter fun row => scanKeeps filter (read ∘ row) :=
    List.filter_flatMap.symm
  rw [Dataset.expected, hrows, ← Multiset.map_coe, ← Multiset.filter_coe]
  exact congrArg _ (Multiset.filter_congr fun row _ => hkeeps row)

variable [DecidableEq T] [ToString T] {q : Query F β} {exec : DatasetExec T α F}

/-- The same for a dataset, over all its partitions. -/
theorem dataset_query_answered (hd : d.dataset.Documented read) (hh : Evaluates holds)
    (ha : supportsFiltersPushdown PyArrowFilterExpression.tryFrom q.filters = answers)
    (hin : ∀ f ∈ takenDown answers q.filters, f.listsPositive = true)
    (hscan : d.scan projection (takenDown answers q.filters) = .ok exec)
    (hn : q.Needs holds answers (d.names projection)) (batchSize : ℕ)
    {p : Fin exec.partitions → Budget × Bridge.Stream (RecordBatch T α) DataFusionError}
    (hp : ∀ i : Fin exec.partitions, (exec.execute i batchSize).alone.Reachable (p i)) :
    q.Answered holds answers read (d.names projection) (d.dataset.fragments.flatMap Fragment.rows)
        (∑ i, (rowsOf (p i).2.delivered : Multiset (List α))) (∀ i, (p i).2.ending = some .clean) ∧
      ∀ i, (∀ e, .error e ∉ (p i).2.delivered) ∧ ∀ payload, (p i).2.ending ≠ some (.panicked payload) := by
  have h := planned_of_scan hscan
  choose owed howed hc ho using fun i : Fin exec.partitions => h.owed hd i.2 batchSize
  have hlen : answers.length = q.filters.length := ha ▸ supportsFiltersPushdown_length _
  have hall : q.above holds answers read (d.names projection)
      (∑ i, ((owed i).flatMap RecordBatch.rows : Multiset (List α))) =
        q.plain holds read (d.dataset.fragments.flatMap Fragment.rows) := by
    rw [h.sum_rows hd ho, expected_eq ha hh hin h.filter]
    exact Query.above_scan hn hlen
  have hpart : ∀ i, (p i).2.delivered <+: (owed i).map .ok :=
    fun i => delivered_part (howed i) (hc i) (hp i)
  refine ⟨⟨?_, ?_⟩, ?_⟩
  · rw [← hall]
    refine Query.above_mono (Finset.sum_le_sum fun i _ => ?_)
    rw [← rowsOf_map_ok]
    exact rowsOf_le (hpart i)
  · intro he
    rw [← hall]
    refine congrArg _ (Finset.sum_congr rfl fun i _ => ?_)
    rw [delivered_eq (howed i) (hc i) (hp i) (he i), rowsOf_map_ok]
  · intro i
    refine ⟨fun e he => ?_, fun payload he => ?_⟩
    · have hmem := (hpart i).subset he
      simp at hmem
    · have hpanic := panics_of_ending (hp i) he
      rw [howed i] at hpanic
      exact not_panics_bringing (hc i) payload hpanic

end Datasets

/-- The same rows in two files, of which the filter leaves the first. -/
def filed : Dataset String ℤ ℤ :=
  ⟨datasetOf ["x", "y"] [[pair 1 10, pair 2 20], [pair 5 20]], _, rfl⟩

def filedExec : DatasetExec String ℤ ℤ where
  dataset := filed.dataset
  schema := integers ["y"]
  fragments := [fragmentOf [pair 1 10, pair 2 20]]
  columns := some ["y"]
  filterExpr := some (.call .lt (.field "x") (.scalar (.integer 3)))

/-- A consumer reads the batch of the only partition, and the end. -/
def filedRun : List (Action (RecordBatch String ℤ) DataFusionError) :=
  [.pollNext, .coordinator true, .coordinator true, .coordinator true, .host, .coordinator true,
    .coordinator true, .coordinator true, .host, .host, .answer (filedExec.answers 0 8192 0),
    .receive, .pollNext, .host, .host, .host, .answer (filedExec.answers 0 8192 1), .host,
    .host, .host, .host, .coordinator true, .endOfStream]

theorem dataset_query_answered_mixed :
    filed.scan (some [1]) (takenDown [.exact, .unsupported] mixed.filters) = .ok filedExec ∧
      ∃ p : Fin 1 → Budget × Bridge.Stream (RecordBatch String ℤ) DataFusionError,
        (∀ i : Fin 1, (filedExec.execute i 8192).alone.Reachable (p i) ∧
          (p i).2.ending = some .clean) ∧
        mixed.above isTwenty [.exact, .unsupported] seen ["y"]
          (∑ i, (rowsOf (p i).2.delivered : Multiset (List ℤ))) = {some (.integer 20)} := by
  obtain ⟨p, hrun, he⟩ : ∃ p, System.replay (answeringStep ⟨filedExec.check, .buffered⟩
      (filedExec.answers 0 8192)) filedRun (.initial, {}) = some p ∧ p.2.ending = some .clean :=
    ⟨_, rfl, rfl⟩
  have hp : ∀ i : Fin filedExec.partitions, (filedExec.execute i 8192).alone.Reachable p := by
    intro i
    obtain rfl : i = ⟨0, by decide⟩ := Subsingleton.elim (α := Fin 1) _ _
    exact answering_reachable hrun
  have hscan : filed.scan (some [1]) (takenDown [.exact, .unsupported] mixed.filters) =
      .ok filedExec := rfl
  have ha : supportsFiltersPushdown PyArrowFilterExpression.tryFrom mixed.filters =
      [.exact, .unsupported] := rfl
  have hn : mixed.Needs isTwenty [.exact, .unsupported] (filed.names (some [1])) := mixed_needs
  obtain ⟨hanswer, -⟩ := dataset_query_answered (datasetOf_documented _ _) isTwenty_evaluates ha
    (by decide) hscan hn 8192 hp
  exact ⟨hscan, fun _ => p, fun i => ⟨hp i, he⟩, (hanswer.complete fun _ => he).trans rfl⟩

end XorqDatafusion.Provider
