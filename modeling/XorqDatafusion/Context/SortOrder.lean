import XorqDatafusion.Context.Listing
import XorqDatafusion.Lexicographic
import XorqDatafusion.RecordBatch

/-! The sort order declared for a record-batch reader, and the ordering that is registered. -/
namespace XorqDatafusion.Context

open Fallible Lexicographic

variable {F P T O X : Type}

structure Column where
  relation : Option TableReference
  name : String
deriving DecidableEq

/-- `Expr`; `X` are all expressions that are not plain columns. -/
inductive Expr (X : Type)
  | column (col : Column)
  | other (expr : X)

structure SortExpr (X : Type) where
  expr : Expr X
  asc : Bool
  nullsFirst : Bool

/-- `Schema::index_of`. -/
def indexOf (schema : Schema T) (name : String) : Option ℕ :=
  schema.fields.findIdx? (·.name == name)

/-- How `register_record_batch_reader` fails: with an exception of the reader, or a `ValueError`. -/
inductive ReaderError
  | python (exception : PyErr)
  | call (error : CallError)

/-- The Python object of a reader, and what reading its `schema` gives. -/
structure Reader (T O : Type) where
  object : O
  schema : Except PyErr (Schema T)

structure PyRecordBatchProvider (T O X : Type) where
  pyObject : O
  schema : Schema T
  sortOrder : List (SortExpr X)

/-- `try_new`: a `StreamingTable` checks that it `contains` the schema of its partition, which is
the same. -/
def PyRecordBatchProvider.tryNew (contains : Schema T → Schema T → Bool) (pyObject : O)
    (schema : Schema T) (sortOrder : List (SortExpr X)) :
    Except ContextError (PyRecordBatchProvider T O X) :=
  if contains schema schema then .ok ⟨pyObject, schema, sortOrder⟩
  else .error (.plan "Mismatch between schema and batches")

/-- The loop over the declared sort order. -/
def orderingLoop (debug : X → String) (schema : Schema T) (ordering : List (SortExpr X)) :
    List (SortExpr X) → Except CallError (List (SortExpr X))
  | [] => .ok ordering
  | sort :: rest => match sort.expr with
    | .column col =>
      if (indexOf schema col.name).isSome then orderingLoop debug schema (ordering ++ [sort]) rest
      else .ok ordering
    | .other expr => .error (.value s!"Unsupported expr {debug expr}")

/-- `register_record_batch_reader`; `table` makes the provider a table of the session. -/
def registerReader (contains : Schema T → Schema T → Bool) (debug : X → String)
    (table : PyRecordBatchProvider T O X → P) (planner : Planner P) (σ : Session F P) (name : String)
    (reader : Reader T O) (sortOrder : Option (List (SortExpr X))) :
    Except ReaderError (Session F P) := do
  let schema ← reader.schema.mapError .python
  let ordering ← (orderingLoop debug schema [] (sortOrder.getD [])).mapError .call
  let provider ← (PyRecordBatchProvider.tryNew contains reader.object schema ordering).mapError
    fun e => .call (.datafusion e)
  (registerProvider planner σ name (.ok (table provider))).mapError fun e => .call (.datafusion e)

/-- A plain column of the schema. -/
def PlainColumn (schema : Schema T) (sort : SortExpr X) : Prop :=
  ∃ col, sort.expr = .column col ∧ ∃ field ∈ schema.fields, field.name = col.name

section Ordering

variable {contains : Schema T → Schema T → Bool} {debug : X → String} {schema : Schema T}
  {ordering result sorts : List (SortExpr X)} {col : Column} {sort : SortExpr X}
  {table : PyRecordBatchProvider T O X → P} {planner : Planner P} {σ σ' : Session F P} {name : String}
  {reader : Reader T O} {sortOrder : Option (List (SortExpr X))}

theorem indexOf_isSome_iff : (indexOf schema name).isSome = true ↔
    ∃ field ∈ schema.fields, field.name = name := by
  simp [indexOf]

theorem plainColumn_iff (he : sort.expr = .column col) :
    PlainColumn schema sort ↔ (indexOf schema col.name).isSome = true := by
  rw [indexOf_isSome_iff]
  constructor
  · rintro ⟨col', he', hfield⟩
    cases he.symm.trans he'
    exact hfield
  · intro hfield
    exact ⟨col, he, hfield⟩

/-- Where the loop succeeds, it has kept the plain columns up to the first one the schema lacks. -/
theorem orderingLoop_longest (h : orderingLoop debug schema ordering sorts = .ok result) :
    ∃ kept, result = ordering ++ kept ∧ LongestInitial (PlainColumn schema) sorts kept := by
  induction sorts generalizing ordering with
  | nil =>
    cases h
    exact ⟨[], by simp, List.nil_prefix, by simp, fun zs hz _ => hz⟩
  | cons sort sorts ih =>
    cases he : sort.expr with
    | column col =>
      by_cases hcol : (indexOf schema col.name).isSome = true
      · simp only [orderingLoop, he, hcol, if_true] at h
        obtain ⟨kept, rfl, hkept⟩ := ih h
        exact ⟨sort :: kept, by simp, hkept.cons ((plainColumn_iff he).mpr hcol)⟩
      · simp only [orderingLoop, he, hcol] at h
        cases h
        exact ⟨[], by simp, longestInitial_nil fun hp => hcol ((plainColumn_iff he).mp hp)⟩
    | other expr =>
      simp only [orderingLoop, he] at h
      cases h

/-- What a registration that succeeds has put under the name. -/
theorem registerReader_ok
    (h : registerReader contains debug table planner σ name reader sortOrder = .ok σ') :
    ∃ schema ordering, reader.schema = .ok schema ∧
      orderingLoop debug schema [] (sortOrder.getD []) = .ok ordering ∧
      σ'.lookup (σ.resolveTableRef (planner.parse name)) =
        some (table ⟨reader.object, schema, ordering⟩) := by
  obtain ⟨schema, hs, h⟩ := bind_eq_ok_iff.mp h
  obtain ⟨ordering, ho, h⟩ := bind_eq_ok_iff.mp h
  obtain ⟨provider, hp, h⟩ := bind_eq_ok_iff.mp h
  rw [mapError_eq_ok_iff] at hs ho hp h
  rw [registerProvider_eq rfl] at h
  obtain ⟨hl, -, -⟩ := Session.registerTable_ok h
  refine ⟨schema, ordering, hs, ho, ?_⟩
  rw [PyRecordBatchProvider.tryNew] at hp
  split at hp
  · cases hp
    rw [hl, Function.update_self]
  · cases hp

end Ordering

section Rows

variable {R V : Type} [Ord V]

/-- How SQL orders two values under one entry of a sort order. -/
def SortExpr.compareValues (sort : SortExpr X) : Option V → Option V → Ordering
  | none, none => .eq
  | none, some _ => if sort.nullsFirst then .lt else .gt
  | some _, none => if sort.nullsFirst then .gt else .lt
  | some v, some w => if sort.asc then Ord.compare v w else (Ord.compare v w).swap

def SortExpr.key (value : Expr X → R → Option V) (sort : SortExpr X) (a b : R) : Ordering :=
  sort.compareValues (value sort.expr a) (value sort.expr b)

/-- The rows are in this order; `value` is what an expression comes to on a row. -/
def SortedBy (value : Expr X → R → Option V) (sorts : List (SortExpr X)) (rows : List R) : Prop :=
  Sorted (sorts.map (SortExpr.key value)) rows

theorem SortedBy.initial {value : Expr X → R → Option V} {sorts kept : List (SortExpr X)}
    {rows : List R} (h : SortedBy value sorts rows) (hk : kept <+: sorts) : SortedBy value kept rows :=
  Sorted.initial h (hk.map _)

end Rows

/-- The ordering registered for a reader is the longest initial part of the declared sort order that
consists of plain columns of its schema, and rows in the declared order are in the registered one. -/
theorem reader_ordering_implied (contains : Schema T → Schema T → Bool) (debug : X → String)
    (table : PyRecordBatchProvider T O X → P) (planner : Planner P) (σ : Session F P) (name : String)
    (reader : Reader T O) (sortOrder : Option (List (SortExpr X))) (σ' : Session F P)
    (h : registerReader contains debug table planner σ name reader sortOrder = .ok σ') :
    ∃ provider, σ'.lookup (σ.resolveTableRef (planner.parse name)) = some (table provider) ∧
      provider.pyObject = reader.object ∧ reader.schema = .ok provider.schema ∧
      LongestInitial (PlainColumn provider.schema) (sortOrder.getD []) provider.sortOrder ∧
      ∀ (R V : Type) [Ord V] (value : Expr X → R → Option V) (rows : List R),
        SortedBy value (sortOrder.getD []) rows → SortedBy value provider.sortOrder rows := by
  obtain ⟨schema, ordering, hs, ho, hl⟩ := registerReader_ok h
  obtain ⟨kept, rfl, hkept⟩ := orderingLoop_longest ho
  exact ⟨_, hl, rfl, hs, hkept, fun R V _ value rows hr => hr.initial hkept.initial⟩

/-- A reader with the columns `a` and `c`, declared sorted by `a`, by a column it lacks, and by `c`. -/
def gapSchema : Schema String := ⟨[⟨"a", "Int64", true, []⟩, ⟨"c", "Int64", true, []⟩], []⟩

def byName (name : String) : SortExpr Empty := ⟨.column ⟨none, name⟩, true, false⟩

theorem reader_ordering_implied_gap :
    ∃ σ', registerReader (O := Unit) (fun _ _ => true) Empty.elim id ⟨.bare, fun _ _ => .ok ()⟩
        (Session.new newSession (fun _ => none) none) "t" ⟨(), .ok gapSchema⟩
        (some [byName "a", byName "b", byName "c"]) = .ok σ' ∧
      ∃ provider, σ'.lookup ⟨"datafusion", "public", "t"⟩ = some provider ∧
        LongestInitial (PlainColumn provider.schema) [byName "a", byName "b", byName "c"]
          provider.sortOrder := by
  refine ⟨_, rfl, ?_⟩
  obtain ⟨provider, hl, -, -, hlongest, -⟩ := reader_ordering_implied (O := Unit) (fun _ _ => true)
    Empty.elim id ⟨.bare, fun _ _ => .ok ()⟩ (Session.new newSession (fun _ => none) none) "t"
    ⟨(), .ok gapSchema⟩ (some [byName "a", byName "b", byName "c"]) _ rfl
  exact ⟨provider, hl, hlongest⟩

end XorqDatafusion.Context
