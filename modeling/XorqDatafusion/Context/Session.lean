import XorqDatafusion.Context.ObjectStore

/-! Sessions and their catalogs: how a table reference finds its schema, and what registering does. -/
namespace XorqDatafusion.Context

open Fallible

variable {F P : Type}

/-- `TableReference`; `qualified` is its variant for a schema and a table. -/
inductive TableReference
  | bare (table : String)
  | qualified (schema table : String)
  | full (catalog schema table : String)
deriving DecidableEq

def TableReference.table : TableReference → String
  | .bare table | .qualified _ table | .full _ _ table => table

@[ext] structure ResolvedTableReference where
  catalog : String
  schema : String
  table : String
deriving DecidableEq

/-- What a schema does when it already has a table of the name: `MemorySchemaProvider` refuses the new
one, `ListingSchemaProvider` replaces the old one; the information schema takes none. -/
inductive SchemaKind
  | memory
  | listing
  | information
deriving DecidableEq

structure SchemaProvider (P : Type) where
  kind : SchemaKind
  tables : String → Option P

namespace SchemaProvider

def registerTable (schema : SchemaProvider P) (name : String) (table : P) :
    Except ContextError (SchemaProvider P) :=
  match schema.kind with
  | .memory =>
    if (schema.tables name).isSome then .error (.execution s!"The table {name} already exists")
    else .ok { schema with tables := Function.update schema.tables name (some table) }
  | .listing => .ok { schema with tables := Function.update schema.tables name (some table) }
  | .information => .error (.execution "schema provider does not support registering tables")

def deregisterTable (schema : SchemaProvider P) (name : String) :
    Except ContextError (SchemaProvider P) :=
  match schema.kind with
  | .memory | .listing => .ok { schema with tables := Function.update schema.tables name none }
  | .information => .error (.execution "schema provider does not support deregistering tables")

end SchemaProvider

/-- The parts of a `SessionContext` that registrations use; `informationSchema` has the views of the
information schema where it is enabled. -/
structure Session (F P : Type) where
  runtime : Runtime F
  defaultCatalog : String
  defaultSchema : String
  informationSchema : Option (String → Option P)
  catalogs : String → Option (String → Option (SchemaProvider P))

/-- What DataFusion makes of a string that names a table, and of a scan of the table under it. -/
structure Planner (P : Type) where
  parse : String → TableReference
  scan : TableReference → P → Except ContextError Unit

namespace Session

def resolveTableRef (σ : Session F P) : TableReference → ResolvedTableReference
  | .bare table => ⟨σ.defaultCatalog, σ.defaultSchema, table⟩
  | .qualified schema table => ⟨σ.defaultCatalog, schema, table⟩
  | .full catalog schema table => ⟨catalog, schema, table⟩

def schemaForRef (σ : Session F P) (ref : ResolvedTableReference) :
    Except ContextError (SchemaProvider P) :=
  match (if ref.schema = "information_schema" then σ.informationSchema else none) with
  | some views => .ok ⟨.information, views⟩
  | none => match σ.catalogs ref.catalog with
    | none => .error (.plan s!"failed to resolve catalog: {ref.catalog}")
    | some schemas => match schemas ref.schema with
      | none => .error (.plan s!"failed to resolve schema: {ref.schema}")
      | some schema => .ok schema

/-- The session after the tables of a schema changed; sessions share their schemas by reference. -/
def putSchema (σ : Session F P) (ref : ResolvedTableReference) (schema : SchemaProvider P) :
    Session F P :=
  let put (schemas : String → Option (SchemaProvider P)) :=
    Function.update schemas ref.schema (some schema)
  { σ with catalogs := Function.update σ.catalogs ref.catalog ((σ.catalogs ref.catalog).map put) }

/-- `SessionContext::register_table` of DataFusion. -/
def registerTable (σ : Session F P) (ref : TableReference) (table : P) :
    Except ContextError (Session F P) := do
  let ref := σ.resolveTableRef ref
  let schema ← σ.schemaForRef ref
  return σ.putSchema ref (← schema.registerTable ref.table table)

def deregisterTable (planner : Planner P) (σ : Session F P) (name : String) :
    Except ContextError (Session F P) := do
  let ref := σ.resolveTableRef (planner.parse name)
  let schema ← σ.schemaForRef ref
  return σ.putSchema ref (← schema.deregisterTable ref.table)

def tableExist (planner : Planner P) (σ : Session F P) (name : String) : Except ContextError Bool := do
  let ref := σ.resolveTableRef (planner.parse name)
  let schema ← σ.schemaForRef ref
  return (schema.tables ref.table).isSome

/-- `table`: the provider that the plan of the data frame scans. -/
def table (planner : Planner P) (σ : Session F P) (name : String) : Except ContextError P := do
  let ref := σ.resolveTableRef (planner.parse name)
  let schema ← σ.schemaForRef ref
  match schema.tables ref.table with
  | none => .error (.plan s!"No table named '{ref.table}'")
  | some table => do
    planner.scan (planner.parse name) table
    return table

/-- The table under a resolved name. -/
def lookup (σ : Session F P) (ref : ResolvedTableReference) : Option P :=
  match σ.schemaForRef ref with
  | .ok schema => schema.tables ref.table
  | .error _ => none

section Lookup

variable {σ σ' : Session F P} {ref : ResolvedTableReference} {schema : SchemaProvider P}
  {planner : Planner P} {name : String} {table : P} {r : TableReference}

@[simp] theorem resolveTableRef_putSchema :
    (σ.putSchema ref schema).resolveTableRef = σ.resolveTableRef := by
  funext r
  cases r <;> rfl

theorem lookup_of_ok (h : σ.schemaForRef ref = .ok schema) : σ.lookup ref = schema.tables ref.table := by
  rw [lookup, h]

/-- A schema is found where it was put, unless it is the information schema. -/
theorem schemaForRef_putSchema (h : σ.schemaForRef ref = .ok schema)
    (hkind : schema.kind ≠ .information) (new : SchemaProvider P) (ref' : ResolvedTableReference) :
    (σ.putSchema ref new).schemaForRef ref' =
      if ref'.catalog = ref.catalog ∧ ref'.schema = ref.schema then .ok new
      else σ.schemaForRef ref' := by
  unfold schemaForRef putSchema at *
  dsimp only
  split at h
  · cases h
    exact absurd rfl hkind
  · rename_i hinfo
    split at h
    · cases h
    · rename_i schemas hschemas
      by_cases hs : ref'.schema = ref.schema
      · rw [hs, hinfo]
        by_cases hc : ref'.catalog = ref.catalog
        · simp [hc, hschemas]
        · simp [hc]
      · by_cases hc : ref'.catalog = ref.catalog
        · simp [hs, hc, hschemas]
        · simp [hc]

/-- Changing one entry of a schema changes one entry of the session. -/
theorem lookup_putSchema (h : σ.schemaForRef ref = .ok schema) (hkind : schema.kind ≠ .information)
    (value : Option P) :
    (σ.putSchema ref { schema with tables := Function.update schema.tables ref.table value }).lookup =
      Function.update σ.lookup ref value := by
  funext ref'
  rw [lookup, schemaForRef_putSchema h hkind]
  by_cases hsame : ref'.catalog = ref.catalog ∧ ref'.schema = ref.schema
  · rw [if_pos hsame]
    by_cases ht : ref'.table = ref.table
    · have href : ref' = ref := ResolvedTableReference.ext hsame.1 hsame.2 ht
      simp [href]
    · have href : ref' ≠ ref := fun heq => ht (congrArg _ heq)
      have hold : σ.schemaForRef ref' = .ok schema := by
        rw [← h, schemaForRef, schemaForRef, hsame.1, hsame.2]
      simp [ht, href, lookup_of_ok hold]
  · have href : ref' ≠ ref := by
      rintro rfl
      exact hsame ⟨rfl, rfl⟩
    rw [if_neg hsame, Function.update_of_ne href, lookup]

theorem registerTable_kind {new : SchemaProvider P} (h : schema.registerTable name table = .ok new) :
    schema.kind ≠ .information ∧
      new = { schema with tables := Function.update schema.tables name (some table) } := by
  unfold SchemaProvider.registerTable at h
  split at h
  · rename_i hkind
    split at h
    · cases h
    · cases h
      exact ⟨by simp [hkind], rfl⟩
  · rename_i hkind
    cases h
    exact ⟨by simp [hkind], rfl⟩
  · cases h

/-- What a registration that succeeds does. -/
theorem registerTable_ok (h : σ.registerTable r table = .ok σ') :
    σ'.lookup = Function.update σ.lookup (σ.resolveTableRef r) (some table) ∧
      σ'.resolveTableRef = σ.resolveTableRef ∧
      ∃ schema, σ'.schemaForRef (σ.resolveTableRef r) = .ok schema ∧ schema.kind ≠ .information := by
  obtain ⟨schema, hs, h⟩ := bind_eq_ok_iff.mp h
  obtain ⟨new, hn, h⟩ := bind_eq_ok_iff.mp h
  obtain ⟨hkind, rfl⟩ := registerTable_kind hn
  cases h
  let new : SchemaProvider P := { schema with
    tables := Function.update schema.tables (σ.resolveTableRef r).table (some table) }
  have hput := schemaForRef_putSchema hs hkind new (σ.resolveTableRef r)
  rw [if_pos ⟨rfl, rfl⟩] at hput
  exact ⟨lookup_putSchema hs hkind _, resolveTableRef_putSchema, new, hput, hkind⟩

theorem deregisterTable_ok (hs : σ.schemaForRef (σ.resolveTableRef (planner.parse name)) = .ok schema)
    (hkind : schema.kind ≠ .information) : ∃ σ', σ.deregisterTable planner name = .ok σ' ∧
      σ'.lookup = Function.update σ.lookup (σ.resolveTableRef (planner.parse name)) none := by
  refine ⟨_, ?_, lookup_putSchema hs hkind none⟩
  refine bind_eq_ok_iff.mpr ⟨schema, hs, bind_eq_ok_iff.mpr ⟨_, ?_, rfl⟩⟩
  unfold SchemaProvider.deregisterTable
  cases hk : schema.kind with
  | memory => rfl
  | listing => rfl
  | information => exact absurd hk hkind

theorem tableExist_eq_ok_iff {b : Bool} : σ.tableExist planner name = .ok b ↔
    ∃ schema, σ.schemaForRef (σ.resolveTableRef (planner.parse name)) = .ok schema ∧
      (schema.tables (σ.resolveTableRef (planner.parse name)).table).isSome = b := by
  rw [tableExist, bind_eq_ok_iff]
  simp [pure, Except.pure]

/-- What a name resolves to is what is registered under it. -/
theorem table_eq_ok_iff : σ.table planner name = .ok table ↔
    σ.lookup (σ.resolveTableRef (planner.parse name)) = some table ∧
      planner.scan (planner.parse name) table = .ok () := by
  rw [Session.table, bind_eq_ok_iff]
  constructor
  · rintro ⟨schema, hs, h⟩
    rw [lookup_of_ok hs]
    split at h
    · cases h
    · rename_i found hfound
      obtain ⟨⟨⟩, hscan, h⟩ := bind_eq_ok_iff.mp h
      cases h
      exact ⟨hfound, hscan⟩
  · rintro ⟨hl, hscan⟩
    unfold lookup at hl
    split at hl
    · rename_i schema hs
      refine ⟨schema, hs, ?_⟩
      rw [hl]
      exact bind_eq_ok_iff.mpr ⟨(), hscan, rfl⟩
    · cases hl

/-- Registering looks at the catalogs only. -/
theorem registerTable_runtime (runtime : Runtime F) :
    { σ with runtime }.registerTable r table =
      (σ.registerTable r table).map fun σ' => { σ' with runtime } := by
  have hr : { σ with runtime }.resolveTableRef r = σ.resolveTableRef r := by cases r <;> rfl
  have hs : { σ with runtime }.schemaForRef (σ.resolveTableRef r) =
      σ.schemaForRef (σ.resolveTableRef r) := rfl
  unfold registerTable
  rw [hr]
  dsimp only
  rw [hs]
  cases σ.schemaForRef (σ.resolveTableRef r) with
  | error e => rfl
  | ok schema =>
    cases hn : schema.registerTable (σ.resolveTableRef r).table table with
    | error e => simp [bind, Except.bind, Except.map, hn]
    | ok new => simp [bind, Except.bind, Except.map, hn, pure, Except.pure, putSchema]

end Lookup

end Session

end XorqDatafusion.Context
