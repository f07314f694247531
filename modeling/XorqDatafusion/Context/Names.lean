import XorqDatafusion.Context.AllOrNothing

/-! What a table name means to the methods that register, look up and deregister tables. -/
namespace XorqDatafusion.Context

open Fallible Transition

variable {F S P O : Type} {files : Files F S P} {planner : Planner P} {σ σ' σ₁ σ₂ : Session F P}
  {name : String} {table table' : P} {runtime : Runtime F}

/-- How the arguments of the methods become table providers; the methods hand the objects on. -/
structure Tables (O P : Type) where
  memTable : O → Except ContextError P
  recordBatchReader : O → Except ContextError P
  hasTableProvider : O → Except ContextError Bool
  ffiTableProvider : O → Except ContextError P
  pyTableProvider : O → Except ContextError P
  dataset : O → Except ContextError P
  view : O → P
  tableOf : O → P
  ibisTable : O → Except ContextError P

variable {tables : Tables O P}

section Methods

variable (tables : Tables O P) (planner : Planner P) (σ : Session F P) (name : String)

/-- What seven of the methods do once they have a provider: the name is parsed. -/
def registerProvider (table : Except ContextError P) : Except ContextError (Session F P) := do
  σ.registerTable (planner.parse name) (← table)

def registerRecordBatches (partitions : O) : Except ContextError (Session F P) :=
  registerProvider planner σ name (tables.memTable partitions)

def registerRecordBatchReader (reader : O) : Except ContextError (Session F P) :=
  registerProvider planner σ name (tables.recordBatchReader reader)

/-- What `register_table_provider` makes of its argument. -/
def tableProvider (provider : O) : Except ContextError P := do
  if ← tables.hasTableProvider provider then tables.ffiTableProvider provider
  else tables.pyTableProvider provider

def registerPyTableProvider (provider : O) : Except ContextError (Session F P) :=
  registerProvider planner σ name (tableProvider tables provider)

def registerDataset (dataset : O) : Except ContextError (Session F P) :=
  registerProvider planner σ name (tables.dataset dataset)

def registerDataframe (dataframe : O) : Except ContextError (Session F P) :=
  registerProvider planner σ name (.ok (tables.view dataframe))

def registerPyTable (table : O) : Except ContextError (Session F P) :=
  registerProvider planner σ name (.ok (tables.tableOf table))

def registerIbisTable (reader : O) : Except ContextError (Session F P) :=
  registerProvider planner σ name (tables.ibisTable reader)

end Methods

inductive Method
  | registerCsv
  | registerParquet
  | registerRecordBatches
  | registerRecordBatchReader
  | registerTableProvider
  | registerDataset
  | registerDataframe
  | registerTable
  | registerIbisTable
deriving DecidableEq

/-- The methods that end in `_register_types`. -/
def Method.fileBased : Method → Bool
  | .registerCsv | .registerParquet => true
  | _ => false

/-- A call of a method that succeeds, with the table it registers. -/
inductive Registered (files : Files F S P) (tables : Tables O P) (planner : Planner P)
    (σ : Session F P) (name : String) : Method → P → Session F P → Prop
  | csv {args : CsvArgs S} {options : ReadOptions S} {paths : List String}
      {storageOptions : List (String × String)} {q : Runtime F × (Fin paths.length → Registration F)}
      {table : P} {σ' : Session F P} :
      csvOptions files args = .ok options →
      (registrations files.outside options.format storageOptions paths.get σ.runtime).Reachable q →
      Finished q → listingTable files q.1 paths options = .ok table →
      registerTypes files { σ with runtime := q.1 } name paths options = .ok σ' →
      Registered files tables planner σ name .registerCsv table σ'
  | parquet {args : ParquetArgs S} {options : ReadOptions S} {paths : List String}
      {storageOptions : List (String × String)} {q : Runtime F × (Fin paths.length → Registration F)}
      {table : P} {σ' : Session F P} :
      parquetOptions args = .ok options →
      (registrations files.outside options.format storageOptions paths.get σ.runtime).Reachable q →
      Finished q → listingTable files q.1 paths options = .ok table →
      registerTypes files { σ with runtime := q.1 } name paths options = .ok σ' →
      Registered files tables planner σ name .registerParquet table σ'
  | recordBatches {partitions : O} {table : P} {σ' : Session F P} :
      tables.memTable partitions = .ok table →
      registerRecordBatches tables planner σ name partitions = .ok σ' →
      Registered files tables planner σ name .registerRecordBatches table σ'
  | recordBatchReader {reader : O} {table : P} {σ' : Session F P} :
      tables.recordBatchReader reader = .ok table →
      registerRecordBatchReader tables planner σ name reader = .ok σ' →
      Registered files tables planner σ name .registerRecordBatchReader table σ'
  | pyTableProvider {provider : O} {table : P} {σ' : Session F P} :
      tableProvider tables provider = .ok table →
      registerPyTableProvider tables planner σ name provider = .ok σ' →
      Registered files tables planner σ name .registerTableProvider table σ'
  | dataset {dataset : O} {table : P} {σ' : Session F P} :
      tables.dataset dataset = .ok table →
      registerDataset tables planner σ name dataset = .ok σ' →
      Registered files tables planner σ name .registerDataset table σ'
  | dataframe {dataframe : O} {σ' : Session F P} :
      registerDataframe tables planner σ name dataframe = .ok σ' →
      Registered files tables planner σ name .registerDataframe (tables.view dataframe) σ'
  | pyTable {table : O} {σ' : Session F P} :
      registerPyTable tables planner σ name table = .ok σ' →
      Registered files tables planner σ name .registerTable (tables.tableOf table) σ'
  | ibisTable {reader : O} {table : P} {σ' : Session F P} :
      tables.ibisTable reader = .ok table →
      registerIbisTable tables planner σ name reader = .ok σ' →
      Registered files tables planner σ name .registerIbisTable table σ'

/-- The name as a method passes it on. -/
def Method.reference (planner : Planner P) (name : String) (m : Method) : TableReference :=
  if m.fileBased then .bare name else planner.parse name

variable {m m' : Method}

theorem registerTypes_eq {paths : List String} {options : ReadOptions S}
    (ht : listingTable files runtime paths options = .ok table) :
    registerTypes files { σ with runtime } name paths options =
      { σ with runtime }.registerTable (.bare name) table := by
  rw [registerTypes, ht]
  rfl

theorem registerProvider_eq {x : Except ContextError P} (hx : x = .ok table) :
    registerProvider planner σ name x = σ.registerTable (planner.parse name) table := by
  rw [hx]
  rfl

/-- All nine methods are a registration in the session; they differ in the reference. -/
theorem Registered.registerTable (h : Registered files tables planner σ name m table σ') :
    ∃ runtime, { σ with runtime }.registerTable (m.reference planner name) table = .ok σ' := by
  cases h with
  | csv _ _ _ ht h => exact ⟨_, registerTypes_eq ht ▸ h⟩
  | parquet _ _ _ ht h => exact ⟨_, registerTypes_eq ht ▸ h⟩
  | recordBatches hx h => exact ⟨σ.runtime, registerProvider_eq hx ▸ h⟩
  | recordBatchReader hx h => exact ⟨σ.runtime, registerProvider_eq hx ▸ h⟩
  | pyTableProvider hx h => exact ⟨σ.runtime, registerProvider_eq hx ▸ h⟩
  | dataset hx h => exact ⟨σ.runtime, registerProvider_eq hx ▸ h⟩
  | dataframe h => exact ⟨σ.runtime, h⟩
  | pyTable h => exact ⟨σ.runtime, h⟩
  | ibisTable hx h => exact ⟨σ.runtime, registerProvider_eq hx ▸ h⟩

section Files

variable {paths : List String} {storageOptions : List (String × String)}
  {failed : Set (Fin paths.length)}

theorem exists_of_ends {args : Except CallError (ReadOptions S)}
    (h : Ends files σ name paths storageOptions args failed (σ', .ok ())) : ∃ options q table,
      args = .ok options ∧
      (registrations files.outside options.format storageOptions paths.get σ.runtime).Reachable q ∧
      Finished q ∧ listingTable files q.1 paths options = .ok table ∧
      registerTypes files { σ with runtime := q.1 } name paths options = .ok σ' := by
  generalize he : (σ', Except.ok ()) = ending at h
  cases h with
  | rejected e => cases he
  | @joined options q hq hfin =>
    unfold afterJoin at he
    split at he
    · rename_i τ hτ
      obtain ⟨rfl, -⟩ := Prod.mk.inj he
      obtain ⟨table, ht, -⟩ := bind_eq_ok_iff.mp hτ
      exact ⟨options, q, table, rfl, hq, hfin, ht, hτ⟩
    · cases he

theorem RegisterCsv.registered {args : CsvArgs S} (tables : Tables O P) (planner : Planner P)
    (h : RegisterCsv files σ name paths args storageOptions failed (σ', .ok ())) :
    ∃ table, Registered files tables planner σ name .registerCsv table σ' := by
  obtain ⟨options, q, table, hargs, hq, hfin, ht, hr⟩ := exists_of_ends h
  exact ⟨table, .csv hargs hq hfin ht hr⟩

theorem RegisterParquet.registered {args : ParquetArgs S} (tables : Tables O P) (planner : Planner P)
    (h : RegisterParquet files σ name paths args storageOptions failed (σ', .ok ())) :
    ∃ table, Registered files tables planner σ name .registerParquet table σ' := by
  obtain ⟨options, q, table, hargs, hq, hfin, ht, hr⟩ := exists_of_ends h
  exact ⟨table, .parquet hargs hq hfin ht hr⟩

end Files

theorem Registered.lookup (h : Registered files tables planner σ name m table σ') :
    σ'.lookup = Function.update σ.lookup (σ.resolveTableRef (m.reference planner name)) (some table) ∧
      σ'.resolveTableRef = σ.resolveTableRef ∧
      ∃ schema, σ'.schemaForRef (σ.resolveTableRef (m.reference planner name)) = .ok schema ∧
        schema.kind ≠ .information := by
  obtain ⟨runtime, hr⟩ := h.registerTable
  have hσ : { σ with runtime }.resolveTableRef = σ.resolveTableRef := by
    funext r
    cases r <;> rfl
  have hok := Session.registerTable_ok hr
  rw [hσ] at hok
  exact hok

/-- The name is the table's: it is found under it, and gone once the name is deregistered. -/
structure Named (planner : Planner P) (σ : Session F P) (name : String) (table : P)
    (σ' : Session F P) : Prop where
  exist : σ'.tableExist planner name = .ok true
  resolves : σ'.table planner name = .ok table
  deregisters : ∃ σ'', σ'.deregisterTable planner name = .ok σ'' ∧
    ∀ ref, σ''.lookup ref = some table → σ.lookup ref = some table

/-- The name means the same parsed and taken as it is. -/
def SameSlot (planner : Planner P) (σ : Session F P) (name : String) : Prop :=
  σ.resolveTableRef (planner.parse name) = σ.resolveTableRef (.bare name)

/-- The table is nowhere in the session. -/
def New (σ : Session F P) (table : P) : Prop := ∀ ref, σ.lookup ref ≠ some table

/-- No more than one entry of the catalogs differs between the two. -/
def OneEntry (σ σ' : Session F P) : Prop :=
  ∀ ref ref', σ'.lookup ref ≠ σ.lookup ref → σ'.lookup ref' ≠ σ.lookup ref' → ref = ref'

theorem resolve_reference (h : m.fileBased = false ∨ SameSlot planner σ name) :
    σ.resolveTableRef (m.reference planner name) = σ.resolveTableRef (planner.parse name) := by
  unfold Method.reference
  rcases h with h | h
  · simp [h]
  · split
    · exact h.symm
    · rfl

theorem Registered.named_iff (h : Registered files tables planner σ name m table σ')
    (hnew : m.fileBased = true → New σ table) : Named planner σ name table σ' ↔
      (m.fileBased = false ∨ SameSlot planner σ name) ∧
        planner.scan (planner.parse name) table = .ok () := by
  obtain ⟨hlookup, href, schema, hs, hkind⟩ := h.lookup
  constructor
  · intro hn
    obtain ⟨hl, hscan⟩ := Session.table_eq_ok_iff.mp hn.resolves
    refine ⟨?_, hscan⟩
    by_contra hne
    obtain ⟨hfile, hslot⟩ := not_or.mp hne
    rw [Bool.not_eq_false] at hfile
    have hother : σ.resolveTableRef (planner.parse name) ≠
        σ.resolveTableRef (m.reference planner name) := by
      simpa [Method.reference, hfile, SameSlot] using hslot
    rw [hlookup, href, Function.update_of_ne hother] at hl
    exact hnew hfile _ hl
  · rintro ⟨hslot, hscan⟩
    rw [resolve_reference hslot] at hlookup hs
    have hl : σ'.lookup (σ'.resolveTableRef (planner.parse name)) = some table := by
      simp [hlookup, href]
    rw [← href] at hs
    obtain ⟨σ'', hd, hl''⟩ := Session.deregisterTable_ok hs hkind
    refine ⟨?_, Session.table_eq_ok_iff.mpr ⟨hl, hscan⟩, σ'', hd, fun ref hr => ?_⟩
    · refine Session.tableExist_eq_ok_iff.mpr ⟨schema, hs, ?_⟩
      rw [← Session.lookup_of_ok hs, hl]
      rfl
    · rw [hl'', hlookup, href] at hr
      by_cases hsame : ref = σ.resolveTableRef (planner.parse name)
      · simp [hsame] at hr
      · simpa [hsame] using hr

/-- Where two methods take the name for the same, the second table takes the place of the first. -/
theorem Registered.oneEntry (h : Registered files tables planner σ name m table σ₁)
    (h' : Registered files tables planner σ₁ name m' table' σ₂)
    (hslot : m.fileBased = m'.fileBased ∨ SameSlot planner σ name) : OneEntry σ σ₂ := by
  obtain ⟨hlookup, href, -⟩ := h.lookup
  obtain ⟨hlookup', -⟩ := h'.lookup
  have hsame : σ.resolveTableRef (m'.reference planner name) =
      σ.resolveTableRef (m.reference planner name) := by
    rcases hslot with hf | hslot
    · simp [Method.reference, hf]
    · rw [resolve_reference (.inr hslot), resolve_reference (.inr hslot)]
  rw [href, hsame, hlookup, Function.update_idem] at hlookup'
  have hentry : ∀ ref, σ₂.lookup ref ≠ σ.lookup ref →
      ref = σ.resolveTableRef (m.reference planner name) := by
    intro ref hne
    by_contra hother
    exact hne (by rw [hlookup', Function.update_of_ne hother])
  intro ref ref' hne hne'
  rw [hentry ref hne, hentry ref' hne']

theorem Registered.slot_of_oneEntry (h : Registered files tables planner σ name m table σ₁)
    (h' : Registered files tables planner σ₁ name m' table' σ₂) (hnew : New σ table)
    (hnew' : New σ₁ table') (hone : OneEntry σ σ₂) :
    m.fileBased = m'.fileBased ∨ SameSlot planner σ name := by
  obtain ⟨hlookup, href, -⟩ := h.lookup
  obtain ⟨hlookup', -⟩ := h'.lookup
  rw [href] at hlookup'
  have hslots : σ.resolveTableRef (m.reference planner name) =
      σ.resolveTableRef (m'.reference planner name) := by
    by_contra hne
    refine hne (hone _ _ ?_ ?_)
    · rw [hlookup', Function.update_of_ne hne, hlookup, Function.update_self]
      exact (hnew _).symm
    · have hold := hnew' (σ.resolveTableRef (m'.reference planner name))
      rw [hlookup, Function.update_of_ne (Ne.symm hne)] at hold
      rw [hlookup', Function.update_self]
      exact hold.symm
  cases hm : m.fileBased <;> cases hm' : m'.fileBased <;>
    simp only [Method.reference, hm, hm'] at hslots
  · exact .inl rfl
  · exact .inr hslots
  · exact .inr hslots.symm
  · exact .inl rfl

/-- What a name means after one registration, and after two under it. -/
theorem names_agree_iff (files : Files F S P) (tables : Tables O P) (planner : Planner P)
    (σ : Session F P) (name : String) :
    (∀ m table σ', Registered files tables planner σ name m table σ' →
      (m.fileBased = true → New σ table) →
      (Named planner σ name table σ' ↔ (m.fileBased = false ∨ SameSlot planner σ name) ∧
        planner.scan (planner.parse name) table = .ok ())) ∧
    ∀ m table σ₁ m' table' σ₂, Registered files tables planner σ name m table σ₁ →
      Registered files tables planner σ₁ name m' table' σ₂ →
      (m.fileBased = m'.fileBased ∨ SameSlot planner σ name → OneEntry σ σ₂) ∧
      (New σ table → New σ₁ table' → OneEntry σ σ₂ →
        m.fileBased = m'.fileBased ∨ SameSlot planner σ name) :=
  ⟨fun _ _ _ h hnew => h.named_iff hnew,
    fun _ _ _ _ _ _ h h' => ⟨h.oneEntry h', h.slot_of_oneEntry h'⟩⟩

section MixedCase

/-- Unquoted names are lower-cased. -/
def lowerCase : Planner Unit where
  parse name := .bare (String.ofList (name.toList.map Char.toLower))
  scan _ _ := .ok ()

def unitTables : Tables Unit Unit where
  memTable _ := .ok ()
  recordBatchReader _ := .ok ()
  hasTableProvider _ := .ok false
  ffiTableProvider _ := .ok ()
  pyTableProvider _ := .ok ()
  dataset _ := .ok ()
  view _ := ()
  tableOf _ := ()
  ibisTable _ := .ok ()

/-- A name with a capital letter, given to `register_table`, is found again. -/
theorem names_agree_registerTable : ∃ σ',
    Registered cloudFiles unitTables lowerCase emptyCatalog "Foo" .registerTable () σ' ∧
      Named lowerCase emptyCatalog "Foo" () σ' := by
  have hcall : registerPyTable unitTables lowerCase emptyCatalog "Foo" () = .ok _ := rfl
  have hreg : Registered cloudFiles unitTables lowerCase emptyCatalog "Foo" .registerTable () _ :=
    .pyTable hcall
  exact ⟨_, hreg, ((names_agree_iff cloudFiles unitTables lowerCase emptyCatalog "Foo").1 _ _ _ hreg
    (fun h => nomatch h)).mpr ⟨.inl rfl, rfl⟩⟩

/-- Given to `register_parquet`, it is not. -/
theorem mixed_case_not_found : ∃ σ',
    Registered cloudFiles unitTables lowerCase emptyCatalog "Foo" .registerParquet () σ' ∧
      σ'.tableExist lowerCase "Foo" = .ok false := by
  have hstart : (registrations twoClouds .parquet awsKeys ["s3://lake/a.parquet"].get
      newSession).Reachable (newSession, fun _ => .spawned) := reachable_start
  obtain ⟨q, hq, hover, -, -⟩ := exists_over (fun _ => True) hstart
  have hargs : parquetOptions { schema := some () } = .ok _ := rfl
  exact ⟨_, .parquet hargs hq (fun i => hover i trivial) rfl rfl, rfl⟩

end MixedCase

end XorqDatafusion.Context
