import XorqDatafusion.Context.Names

/-! `tables()`: which names a session lists, against those that are registered in it. -/
namespace XorqDatafusion.Context

open Fallible Transition

variable {F S P O : Type} {planner : Planner P} {σ σ' : Session F P} {r : TableReference} {table : P}
  {name : String}

/-- The parts of a `SessionConfig` that decide which catalogs a session starts with; `location` has the
tables of `catalog.location` where one is configured, with its format. -/
structure SessionConfig (P : Type) where
  createDefaultCatalogAndSchema : Bool := true
  defaultCatalog : String := "datafusion"
  defaultSchema : String := "public"
  informationSchema : Bool := false
  location : Option (String → Option P) := none

namespace SessionConfig

def withCreateDefaultCatalogAndSchema (config : SessionConfig P) (enabled : Bool) : SessionConfig P :=
  { config with createDefaultCatalogAndSchema := enabled }

def withDefaultCatalogAndSchema (config : SessionConfig P) (catalog schema : String) :
    SessionConfig P :=
  { config with defaultCatalog := catalog, defaultSchema := schema }

def withInformationSchema (config : SessionConfig P) (enabled : Bool) : SessionConfig P :=
  { config with informationSchema := enabled }

/-- The schemas of the default catalog: the default one, and `default` over the configured location. -/
def schemas (config : SessionConfig P) : String → Option (SchemaProvider P) :=
  let memory : String → Option (SchemaProvider P) :=
    Function.update (fun _ => none) config.defaultSchema (some ⟨.memory, fun _ => none⟩)
  match config.location with
  | some files => Function.update memory "default" (some ⟨.listing, files⟩)
  | none => memory

def catalogs (config : SessionConfig P) : String → Option (String → Option (SchemaProvider P)) :=
  if config.createDefaultCatalogAndSchema then
    Function.update (fun _ => none) config.defaultCatalog (some config.schemas)
  else fun _ => none

/-- Without a configuration of its own, a session has the default one with the information schema. -/
def orDefault (config : Option (SessionConfig P)) : SessionConfig P :=
  config.getD (SessionConfig.withInformationSchema {} true)

end SessionConfig

namespace Session

/-- `PySessionContext::new`, with or without a `SessionState`: both build the session from the
configuration. -/
def new (runtime : Runtime F) (views : String → Option P) (config : Option (SessionConfig P)) :
    Session F P :=
  let config := SessionConfig.orDefault config
  { runtime
    defaultCatalog := config.defaultCatalog
    defaultSchema := config.defaultSchema
    informationSchema := if config.informationSchema then some views else none
    catalogs := config.catalogs }

/-- `none` where one of the two `unwrap`s panics. -/
def tables (σ : Session F P) : Option (Set String) := do
  let catalog ← σ.catalogs "datafusion"
  let schema ← catalog "public"
  return {name | (schema.tables name).isSome}

def schemaAt (σ : Session F P) (catalog schema : String) : Option (SchemaProvider P) :=
  (σ.catalogs catalog).bind (· schema)

theorem tables_eq : σ.tables =
    (σ.schemaAt "datafusion" "public").map fun schema => {name | (schema.tables name).isSome} := by
  unfold tables schemaAt
  cases σ.catalogs "datafusion" with
  | none => rfl
  | some catalog => cases hc : catalog "public" <;> simp [hc]

/-- No schema comes or goes. -/
def SameSchemas (σ σ' : Session F P) : Prop :=
  ∀ catalog schema, (σ'.schemaAt catalog schema).isSome = (σ.schemaAt catalog schema).isSome

theorem sameSchemas_putSchema {ref : ResolvedTableReference} {found new : SchemaProvider P}
    (h : σ.schemaForRef ref = .ok found) (hkind : found.kind ≠ .information) :
    SameSchemas σ (σ.putSchema ref new) := by
  unfold schemaForRef at h
  split at h
  · cases h
    exact absurd rfl hkind
  · split at h
    · cases h
    · rename_i schemas hschemas
      split at h
      · cases h
      · rename_i hfound
        intro catalog schema
        by_cases hc : catalog = ref.catalog
        · subst hc
          by_cases hs : schema = ref.schema
          · subst hs
            simp [schemaAt, putSchema, hschemas, hfound]
          · simp [schemaAt, putSchema, hschemas, hs]
        · simp [schemaAt, putSchema, hc]

theorem registerTable_sameSchemas (h : σ.registerTable r table = .ok σ') : SameSchemas σ σ' := by
  obtain ⟨found, hf, h⟩ := bind_eq_ok_iff.mp h
  obtain ⟨new, hn, h⟩ := bind_eq_ok_iff.mp h
  cases h
  exact sameSchemas_putSchema hf (registerTable_kind hn).1

/-- What a deregistration that succeeds does. -/
theorem deregisterTable_cases (h : σ.deregisterTable planner name = .ok σ') :
    SameSchemas σ σ' ∧ σ'.resolveTableRef = σ.resolveTableRef ∧
      σ'.lookup = Function.update σ.lookup (σ.resolveTableRef (planner.parse name)) none := by
  have hd := h
  obtain ⟨found, hf, h⟩ := bind_eq_ok_iff.mp h
  obtain ⟨new, hn, h⟩ := bind_eq_ok_iff.mp h
  cases h
  have hkind : found.kind ≠ .information := by
    intro hk
    simp [SchemaProvider.deregisterTable, hk] at hn
  obtain ⟨σ'', hd', hl⟩ := deregisterTable_ok hf hkind
  cases hd.symm.trans hd'
  exact ⟨sameSchemas_putSchema hf hkind, resolveTableRef_putSchema, hl⟩

end Session

/-- A bare lower-case name: it means itself. -/
def Plain (planner : Planner P) (name : String) : Prop := planner.parse name = .bare name

inductive NameAction
  | register (method : Method) (name : String)
  | deregister (name : String)

/-- A session and its successful registrations and deregistrations under plain names, with the names
registered and not deregistered since. -/
def naming (files : Files F S P) (tables : Tables O P) (planner : Planner P) (runtime : Runtime F)
    (views : String → Option P) (config : Option (SessionConfig P)) :
    System (Session F P × Set String) NameAction where
  start p := p = (Session.new runtime views config, ∅)
  step p a q := match a with
    | .register method name => Plain planner name ∧ q.2 = insert name p.2 ∧
        ∃ table, Registered files tables planner p.1 name method table q.1
    | .deregister name => Plain planner name ∧ q.2 = p.2 \ {name} ∧
        p.1.deregisterTable planner name = .ok q.1

variable {files : Files F S P} {tables : Tables O P} {runtime : Runtime F}
  {views : String → Option P} {config : Option (SessionConfig P)} {p q : Session F P × Set String}
  {a : NameAction} {m : Method}

/-- The session keeps the names and the schemas it was made with. -/
structure Configured (start σ : Session F P) : Prop where
  references : σ.resolveTableRef = start.resolveTableRef
  schemas : start.SameSchemas σ

theorem Configured.trans {start : Session F P} (h : Configured start σ) (hs : σ.SameSchemas σ')
    (hr : σ'.resolveTableRef = σ.resolveTableRef) : Configured start σ' := by
  refine ⟨hr.trans h.references, ?_⟩
  intro catalog schema
  rw [hs catalog schema, h.schemas catalog schema]

theorem Plain.reference (h : Plain planner name) (m : Method) :
    m.reference planner name = .bare name := by
  unfold Method.reference
  split
  · rfl
  · exact h

theorem Registered.sameSchemas (h : Registered files tables planner σ name m table σ') :
    σ.SameSchemas σ' := by
  obtain ⟨runtime, h⟩ := h.registerTable
  have hsame : { σ with runtime }.SameSchemas σ' := Session.registerTable_sameSchemas h
  exact hsame

/-- The entry of a bare name in the default schema. -/
def Session.own (σ : Session F P) (name : String) : Option P :=
  σ.lookup (σ.resolveTableRef (.bare name))

theorem own_of_lookup {value : Option P} (href : σ'.resolveTableRef = σ.resolveTableRef)
    (h : σ'.lookup = Function.update σ.lookup (σ.resolveTableRef (.bare name)) value) :
    σ'.own = Function.update σ.own name value := by
  funext other
  rw [Session.own, href, h]
  by_cases he : other = name
  · subst he
    simp
  · have hne : σ.resolveTableRef (.bare other) ≠ σ.resolveTableRef (.bare name) := by
      intro hsame
      exact he (congrArg ResolvedTableReference.table hsame)
    rw [Function.update_of_ne hne, Function.update_of_ne he]
    rfl

/-- What one registration or deregistration changes. -/
theorem naming_step (h : (naming files tables planner runtime views config).step p a q) :
    p.1.SameSchemas q.1 ∧ q.1.resolveTableRef = p.1.resolveTableRef ∧ ∃ name, Plain planner name ∧
      ((q.2 = insert name p.2 ∧ ∃ table, q.1.own = Function.update p.1.own name (some table)) ∨
        (q.2 = p.2 \ {name} ∧ q.1.own = Function.update p.1.own name none)) := by
  cases a with
  | register m name =>
    obtain ⟨hplain, hnames, table, hr⟩ := h
    obtain ⟨hlookup, href, -⟩ := hr.lookup
    rw [hplain.reference] at hlookup
    exact ⟨hr.sameSchemas, href, name, hplain, .inl ⟨hnames, table, own_of_lookup href hlookup⟩⟩
  | deregister name =>
    obtain ⟨hplain, hnames, hd⟩ := h
    obtain ⟨hsame, href, hlookup⟩ := Session.deregisterTable_cases hd
    rw [hplain] at hlookup
    exact ⟨hsame, href, name, hplain, .inr ⟨hnames, own_of_lookup href hlookup⟩⟩

theorem configured_of_reachable (h : (naming files tables planner runtime views config).Reachable p) :
    Configured (Session.new runtime views config) p.1 := by
  refine System.reachable_invariant (I := fun p => Configured _ p.1) ?_ ?_ h
  · rintro p rfl
    exact ⟨rfl, fun _ _ => rfl⟩
  · intro p a q hs hI
    obtain ⟨hsame, href, -⟩ := naming_step hs
    exact hI.trans hsame href

/-- The names registered are plain, and exactly those with an entry in the default schema. -/
structure Kept (planner : Planner P) (p : Session F P × Set String) : Prop where
  plain : ∀ name ∈ p.2, Plain planner name
  entries : ∀ name, (p.1.own name).isSome ↔ name ∈ p.2

theorem Kept.step (hI : Kept planner p)
    (h : (naming files tables planner runtime views config).step p a q) : Kept planner q := by
  obtain ⟨-, -, name, hplain, ⟨hnames, table, hown⟩ | ⟨hnames, hown⟩⟩ := naming_step h
  · constructor
    · intro other ho
      rw [hnames] at ho
      rcases ho with rfl | ho
      · exact hplain
      · exact hI.plain other ho
    · intro other
      rw [hown, hnames]
      by_cases he : other = name
      · simp [he]
      · simpa [he] using hI.entries other
  · constructor
    · intro other ho
      rw [hnames] at ho
      exact hI.plain other ho.1
    · intro other
      rw [hown, hnames]
      by_cases he : other = name
      · simp [he]
      · simpa [he] using hI.entries other

theorem Session.new_schemaAt (hdefault : (SessionConfig.orDefault config).createDefaultCatalogAndSchema)
    (catalog schema : String) : (Session.new runtime views config).schemaAt catalog schema =
      if catalog = (SessionConfig.orDefault config).defaultCatalog then
        (SessionConfig.orDefault config).schemas schema
      else none := by
  have hcatalogs : (Session.new runtime views config).catalogs =
      (SessionConfig.orDefault config).catalogs := rfl
  rw [Session.schemaAt, hcatalogs, SessionConfig.catalogs, if_pos hdefault]
  by_cases hc : catalog = (SessionConfig.orDefault config).defaultCatalog
  · simp [hc]
  · simp [hc]

/-- `public` is there at the start if it is the default schema, and then it is empty. -/
theorem SessionConfig.schemas_public (config : SessionConfig P) : config.schemas "public" =
    if config.defaultSchema = "public" then some ⟨.memory, fun _ => none⟩ else none := by
  unfold SessionConfig.schemas
  by_cases hs : config.defaultSchema = "public"
  · cases config.location <;> simp [hs]
  · cases config.location <;> simp [hs, Function.update, Ne.symm hs]

theorem Session.schemaForRef_of_schemaAt {ref : ResolvedTableReference} {found : SchemaProvider P}
    (h : σ.schemaAt ref.catalog ref.schema = some found) (hs : ref.schema ≠ "information_schema") :
    σ.schemaForRef ref = .ok found := by
  obtain ⟨schemas, hc, hfound⟩ := Option.bind_eq_some_iff.mp h
  simp [schemaForRef, hs, hc, hfound]

/-- The default schema is the one that `tables` lists. -/
def SessionConfig.Standard (config : SessionConfig P) : Prop :=
  config.defaultCatalog = "datafusion" ∧ config.defaultSchema = "public"

theorem Session.resolve_new (hstandard : (SessionConfig.orDefault config).Standard)
    (h : Configured (Session.new runtime views config) σ) (name : String) :
    σ.resolveTableRef (.bare name) = ⟨"datafusion", "public", name⟩ := by
  rw [h.references, ← hstandard.1, ← hstandard.2]
  rfl

/-- `tables` panics unless the default schema is the one it lists. -/
theorem Session.tables_isSome_iff
    (hdefault : (SessionConfig.orDefault config).createDefaultCatalogAndSchema)
    (h : Configured (Session.new runtime views config) σ) :
    σ.tables.isSome ↔ (SessionConfig.orDefault config).Standard := by
  rw [Session.tables_eq, Option.isSome_map, h.schemas, Session.new_schemaAt hdefault,
    SessionConfig.schemas_public, SessionConfig.Standard]
  by_cases hc : (SessionConfig.orDefault config).defaultCatalog = "datafusion"
  · by_cases hs : (SessionConfig.orDefault config).defaultSchema = "public" <;> simp [hc, hs]
  · simp [hc, Ne.symm hc]

section Standard

variable (hdefault : (SessionConfig.orDefault config).createDefaultCatalogAndSchema)
  (hstandard : (SessionConfig.orDefault config).Standard)

include hdefault hstandard

theorem Configured.schema (h : Configured (Session.new runtime views config) σ) :
    ∃ found, σ.schemaAt "datafusion" "public" = some found ∧
      ∀ name, σ.schemaForRef (σ.resolveTableRef (.bare name)) = .ok found := by
  have hsome := (Session.tables_isSome_iff hdefault h).mpr hstandard
  rw [Session.tables_eq, Option.isSome_map] at hsome
  obtain ⟨found, hfound⟩ := Option.isSome_iff_exists.mp hsome
  refine ⟨found, hfound, ?_⟩
  intro name
  rw [Session.resolve_new hstandard h]
  exact Session.schemaForRef_of_schemaAt hfound (by simp)

theorem Configured.tables_eq (h : Configured (Session.new runtime views config) σ) :
    σ.tables = some {name | (σ.own name).isSome} := by
  obtain ⟨found, hfound, href⟩ := h.schema hdefault hstandard
  rw [Session.tables_eq, hfound]
  refine congrArg some (Set.ext ?_)
  intro name
  rw [Set.mem_ofPred_eq, Set.mem_ofPred_eq, Session.own, Session.lookup_of_ok (href name),
    Session.resolve_new hstandard h]

theorem Configured.tableExist (h : Configured (Session.new runtime views config) σ)
    (hplain : Plain planner name) : σ.tableExist planner name = .ok (σ.own name).isSome := by
  obtain ⟨found, -, href⟩ := h.schema hdefault hstandard
  rw [Session.tableExist_eq_ok_iff, hplain]
  exact ⟨found, href name, by rw [Session.own, Session.lookup_of_ok (href name)]⟩

theorem kept_of_reachable (h : (naming files tables planner runtime views config).Reachable p) :
    Kept planner p := by
  refine System.reachable_invariant ?_ ?_ h
  · rintro p rfl
    have hnew : Configured (Session.new runtime views config) (Session.new runtime views config) :=
      ⟨rfl, fun _ _ => rfl⟩
    constructor
    · intro name hn
      cases hn
    · intro name
      obtain ⟨found, hfound, href⟩ := hnew.schema hdefault hstandard
      rw [Session.new_schemaAt hdefault, if_pos hstandard.1.symm, SessionConfig.schemas_public,
        if_pos hstandard.2] at hfound
      cases hfound
      simp [Session.own, Session.lookup_of_ok (href name)]
  · intro p a q hs hI
    exact hI.step hs

end Standard

/-- `tables` returns the names that are registered, those that `table_exist` knows. -/
def ListsRegistered (planner : Planner P) (p : Session F P × Set String) : Prop :=
  p.1.tables = some p.2 ∧
    ∀ name, Plain planner name → (name ∈ p.2 ↔ p.1.tableExist planner name = .ok true)

/-- In every session with a default catalog, after any registrations and deregistrations, `tables`
lists what is registered if and only if the defaults have the two names it looks up. -/
theorem tables_lists_registered_iff (files : Files F S P) (tables : Tables O P) (planner : Planner P)
    (runtime : Runtime F) (views : String → Option P) (config : Option (SessionConfig P))
    (hdefault : (SessionConfig.orDefault config).createDefaultCatalogAndSchema = true)
    {p : Session F P × Set String}
    (h : (naming files tables planner runtime views config).Reachable p) :
    ListsRegistered planner p ↔
      (SessionConfig.orDefault config).defaultCatalog = "datafusion" ∧
        (SessionConfig.orDefault config).defaultSchema = "public" := by
  have hconfigured := configured_of_reachable h
  constructor
  · rintro ⟨htables, -⟩
    exact (Session.tables_isSome_iff hdefault hconfigured).mp (by simp [htables])
  · intro hstandard
    have hkept := kept_of_reachable hdefault hstandard h
    constructor
    · rw [hconfigured.tables_eq hdefault hstandard]
      exact congrArg some (Set.ext hkept.entries)
    · intro name hplain
      rw [hconfigured.tableExist hdefault hstandard hplain, ← hkept.entries]
      simp

section OtherDefaults

/-- Sessions over nothing, with one table registered under `t`. -/
def registering (config : Option (SessionConfig Unit)) : System (Session Unit Unit × Set String) NameAction :=
  naming cloudFiles unitTables lowerCase newSession (fun _ => none) config

theorem registering_reachable (config : Option (SessionConfig Unit)) (σ : Session Unit Unit)
    (h : registerPyTable unitTables lowerCase (Session.new newSession (fun _ => none) config) "t" () =
      .ok σ) : (registering config).Reachable (σ, {"t"}) :=
  (System.Reachable.of_start rfl).step (a := .register .registerTable "t")
    ⟨rfl, by simp, (), .pyTable h⟩

theorem tables_lists_registered_default : ∃ σ, (registering none).Reachable (σ, {"t"}) ∧
    ListsRegistered lowerCase (σ, {"t"}) := by
  have h := registering_reachable none _ rfl
  exact ⟨_, h, (tables_lists_registered_iff _ _ _ _ _ none rfl h).mpr ⟨rfl, rfl⟩⟩

/-- With other defaults the table is found, and `tables` panics. -/
theorem tables_panics : ∃ σ,
    (registering (some (SessionConfig.withDefaultCatalogAndSchema {} "lake" "raw"))).Reachable
        (σ, {"t"}) ∧
      σ.tableExist lowerCase "t" = .ok true ∧ σ.tables = none :=
  ⟨_, registering_reachable _ _ rfl, rfl, rfl⟩

end OtherDefaults

end XorqDatafusion.Context
