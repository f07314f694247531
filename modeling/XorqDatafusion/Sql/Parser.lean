import XorqDatafusion.Context.Session
import XorqDatafusion.Python

/-! `parse_sql` over a `ContextProvider`: the columns that a name stands for. -/
namespace XorqDatafusion.Sql

open Context Fallible

/-- Arrow's data types by the fields they contain; `primitive` stands for those that contain none. -/
inductive DataType
  | primitive (name : String)
  | struct (fields : List (Field DataType))
  | union (fields : List (Field DataType)) (typeIds : List Int8) (dense : Bool)
  | list (field : Field DataType)
  | largeList (field : Field DataType)
  | listView (field : Field DataType)
  | largeListView (field : Field DataType)
  | fixedSizeList (field : Field DataType) (size : ℕ)
  | map (entries : Field DataType) (sorted : Bool)
  | dictionary (key value : DataType)
  | runEndEncoded (runEnds values : Field DataType)

mutual

/-- The fields nested in a data type, each before its own. -/
def DataType.nested : DataType → List (Field DataType)
  | .primitive _ => []
  | .struct fields | .union fields _ _ => nestedFields fields
  | .list field | .largeList field | .listView field | .largeListView field
  | .fixedSizeList field _ | .map field _ | .runEndEncoded _ field => nestedField field
  | .dictionary _ value => value.nested

def nestedField : Field DataType → List (Field DataType)
  | ⟨name, dataType, nullable, metadata⟩ =>
    ⟨name, dataType, nullable, metadata⟩ :: dataType.nested

def nestedFields : List (Field DataType) → List (Field DataType)
  | [] => []
  | field :: fields => nestedField field ++ nestedFields fields

end

variable {fields : List (Field DataType)}

@[simp]
theorem nestedField_eq (field : Field DataType) : nestedField field = field :: field.dataType.nested := by
  rw [nestedField.eq_def]

theorem length_le_nestedFields (fields : List (Field DataType)) :
    fields.length ≤ (nestedFields fields).length := by
  induction fields with
  | nil => simp
  | cons field fields ih =>
    simp only [nestedFields, nestedField_eq, List.length_append, List.length_cons]
    omega

/-- Nothing is listed besides the fields themselves exactly when none of them contains any. -/
theorem length_nestedFields_eq_iff : (nestedFields fields).length = fields.length ↔
    ∀ field ∈ fields, field.dataType.nested = [] := by
  induction fields with
  | nil => simp [nestedFields]
  | cons field fields ih =>
    have hle := length_le_nestedFields fields
    rw [List.forall_mem_cons, ← ih, ← List.length_eq_zero_iff]
    simp only [nestedFields, nestedField_eq, List.length_append, List.length_cons]
    omega

theorem nestedFields_of_flat (h : ∀ field ∈ fields, field.dataType.nested = []) :
    nestedFields fields = fields := by
  induction fields with
  | nil => rfl
  | cons field fields ih =>
    obtain ⟨hfield, hfields⟩ := List.forall_mem_cons.mp h
    simp [nestedFields, hfield, ih hfields]

/-- A `HashMap` by its entries, in the order of an iteration over it. -/
structure HashMap (V : Type) where
  entries : List (String × V)
  nodup : (entries.map Prod.fst).Nodup

/-- What a planner asks of a `ContextProvider`; all functions and variables are unknown to this one. -/
structure ContextProvider (C E : Type) where
  getTableSource : TableReference → Except E (Schema DataType)
  options : C

/-- The libraries under `parse_sql`: Python objects of type `O`, configurations of type `C`, errors,
dialects, statements and plans. `outputs` are the columns of a plan. -/
structure Libraries (O C E D S P : Type) where
  extract : O → Except PyErr (Schema DataType)
  flattenedFields : Schema DataType → List (Field DataType)
  default : C
  set : C → String → String → Except E C
  planError : String → E
  dialectFromStr : String → Option D
  parse : D → String → Except E (List S)
  sqlStatementToPlan : ContextProvider C E → S → Except E P
  outputs : P → List (String × DataType × Bool)

/-- `Result::unwrap`, whatever the error is. -/
def unwrapped {E α : Type} (result : Except E α) : Except Fault α :=
  result.mapError fun _ => .panicked "called `Result::unwrap()` on an `Err` value"

variable {O C E D S P : Type} (lib : Libraries O C E D S P)

def Field.new (name : String) (dataType : DataType) (nullable : Bool) : Field DataType :=
  ⟨name, dataType, nullable, []⟩

/-- `create_table_source`: a `LogicalTableSource` is its schema. -/
def createTableSource (fields : List (Field DataType)) : Schema DataType := ⟨fields, []⟩

structure PyContextProvider (C : Type) where
  options : C
  tables : String → Option (Schema DataType)

namespace PyContextProvider

/-- The table source made for a table with this schema. -/
def source (pyarrowSchema : Schema DataType) : Schema DataType :=
  createTableSource ((lib.flattenedFields pyarrowSchema).map fun f =>
    Field.new f.name f.dataType f.nullable)

/-- One round of the loop over the tables. -/
def insertSource (sources : String → Option (Schema DataType)) (entry : String × O) :
    Except Fault (String → Option (Schema DataType)) := do
  let pyarrowSchema ← unwrapped (lib.extract entry.2)
  return Function.update sources entry.1 (some (source lib pyarrowSchema))

def setOption (config : C) (entry : String × String) : Except Fault C :=
  unwrapped (lib.set config entry.1 entry.2)

def configure (configOptions : Option (HashMap String)) : Except Fault C :=
  match configOptions with
  | none => .ok lib.default
  | some configOptions => configOptions.entries.foldlM (setOption lib) lib.default

def new (tables : HashMap O) (configOptions : Option (HashMap String)) :
    Except Fault (PyContextProvider C) := do
  let sources ← tables.entries.foldlM (insertSource lib) fun _ => none
  let config ← configure lib configOptions
  return ⟨config, sources⟩

/-- The name alone decides, without the catalog and the schema of the reference. -/
def getTableSource (provider : PyContextProvider C) (name : TableReference) :
    Except E (Schema DataType) :=
  match provider.tables name.table with
  | some table => .ok table
  | none => .error (lib.planError s!"Table not found: {name.table}")

def contextProvider (provider : PyContextProvider C) : ContextProvider C E :=
  ⟨provider.getTableSource lib, provider.options⟩

end PyContextProvider

def parseSql (sql : String) (contextProvider : PyContextProvider C) (dialect : Option String) :
    Except Fault P := do
  let dialect ← match lib.dialectFromStr (dialect.getD "generic") with
    | some dialect => .ok dialect
    | none => .error (.panicked "called `Option::unwrap()` on a `None` value")
  let ast ← unwrapped (lib.parse dialect sql)
  let statement ← match ast with
    | statement :: _ => .ok statement
    | [] => .error (.panicked "index out of bounds: the len is 0 but the index is 0")
  unwrapped (lib.sqlStatementToPlan (contextProvider.contextProvider lib) statement)

/-- A column of a table or of a plan. -/
def columns (schema : Schema DataType) : List (String × DataType × Bool) :=
  schema.fields.map fun f => (f.name, f.dataType, f.nullable)

section Sources

variable {lib} {tables : HashMap O} {configOptions : Option (HashMap String)}
  {provider : PyContextProvider C} {name : String} {o : O} {table : TableReference}
  {schema : Schema DataType} {sources sources' : String → Option (Schema DataType)}

theorem unwrapped_eq_ok_iff {E α : Type} {result : Except E α} {a : α} :
    unwrapped result = .ok a ↔ result = .ok a := by
  rw [unwrapped, mapError_eq_ok_iff]

/-- After some tables, each of their names has the source made for its schema, and no other name has one. -/
def Registered (lib : Libraries O C E D S P) (seen : List (String × O))
    (sources : String → Option (Schema DataType)) : Prop :=
  (seen.map Prod.fst).Nodup → ∀ name s, sources name = some s ↔
    ∃ o schema, (name, o) ∈ seen ∧ lib.extract o = .ok schema ∧
      s = PyContextProvider.source lib schema

theorem Registered.insert {seen : List (String × O)} {entry : String × O}
    (h : Registered lib seen sources)
    (hi : PyContextProvider.insertSource lib sources entry = .ok sources') :
    Registered lib (seen ++ [entry]) sources' := by
  obtain ⟨schema, hs, hi⟩ := bind_eq_ok_iff.mp hi
  rw [unwrapped_eq_ok_iff] at hs
  cases hi
  intro hnodup name s
  rw [List.map_append, List.nodup_append] at hnodup
  obtain ⟨hseen, -, hnew⟩ := hnodup
  by_cases hn : name = entry.1
  · subst hn
    have hold : ∀ o, (entry.1, o) ∉ seen := by
      intro o ho
      exact hnew entry.1 (List.mem_map.mpr ⟨_, ho, rfl⟩) entry.1 (by simp) rfl
    simp only [Function.update_self, List.mem_append, hold, List.mem_singleton, false_or]
    constructor
    · intro h
      cases h
      exact ⟨entry.2, schema, rfl, hs, rfl⟩
    · rintro ⟨o, schema', ho, hs', rfl⟩
      obtain rfl : o = entry.2 := congrArg Prod.snd ho
      cases hs.symm.trans hs'
      rfl
  · rw [Function.update_of_ne hn, h hseen]
    have hother : ∀ o, (name, o) ≠ entry := fun o ho => hn (congrArg Prod.fst ho)
    simp [hother]

/-- What a provider that was built has under each name. -/
theorem tables_eq_some_iff (hnew : PyContextProvider.new lib tables configOptions = .ok provider)
    (s : Schema DataType) : provider.tables name = some s ↔
      ∃ o schema, (name, o) ∈ tables.entries ∧ lib.extract o = .ok schema ∧
        s = PyContextProvider.source lib schema := by
  obtain ⟨sources, hfold, hnew⟩ := bind_eq_ok_iff.mp hnew
  obtain ⟨options, -, hnew⟩ := bind_eq_ok_iff.mp hnew
  cases hnew
  have hstart : Registered lib [] fun _ => none := by
    intro _ name s
    simp
  have hall := foldlM_keeps (fun _ _ _ _ h hi => Registered.insert h hi) hstart hfold
  exact hall tables.nodup name s

theorem getTableSource_eq_ok_iff {s : Schema DataType} :
    provider.getTableSource lib table = .ok s ↔ provider.tables table.table = some s := by
  unfold PyContextProvider.getTableSource
  cases provider.tables table.table <;> simp

theorem getTableSource_given (hnew : PyContextProvider.new lib tables configOptions = .ok provider)
    (ho : (table.table, o) ∈ tables.entries) (hs : lib.extract o = .ok schema) :
    provider.getTableSource lib table = .ok (PyContextProvider.source lib schema) :=
  getTableSource_eq_ok_iff.mpr ((tables_eq_some_iff hnew _).mpr ⟨o, schema, ho, hs, rfl⟩)

theorem columns_source (schema : Schema DataType) :
    columns (PyContextProvider.source lib schema) =
      (lib.flattenedFields schema).map fun f => (f.name, f.dataType, f.nullable) := by
  simp [columns, PyContextProvider.source, createTableSource, Field.new]

end Sources

/-- How the SQL planner treats `SELECT * FROM table`: the columns of its plan are those of the table
source, and it has a plan unless two columns share a name or the table's name is empty, which a table
scan refuses. -/
structure ExpandsWildcard (lib : Libraries O C E D S P) (selectAll : TableReference → S) : Prop where
  outputs : ∀ (provider : ContextProvider C E) table source plan,
    provider.getTableSource table = .ok source →
    lib.sqlStatementToPlan provider (selectAll table) = .ok plan → lib.outputs plan = columns source
  planned : ∀ (provider : ContextProvider C E) table source,
    provider.getTableSource table = .ok source → table.table ≠ "" →
    (source.fields.map Field.name).Nodup → ∃ plan, lib.sqlStatementToPlan provider (selectAll table) = .ok plan

/-- A table has the columns of its schema, and `SELECT *` plans exactly these; a table without a name
has no plan. -/
def KeepsColumns (lib : Libraries O C E D S P) (selectAll : TableReference → S)
    (provider : PyContextProvider C) (table : TableReference) (schema : Schema DataType) : Prop :=
  ∃ source, provider.getTableSource lib table = .ok source ∧ columns source = columns schema ∧
    ∀ sql dialect d rest, lib.dialectFromStr (dialect.getD "generic") = some d →
      lib.parse d sql = .ok (selectAll table :: rest) →
      (∀ plan, parseSql lib sql provider dialect = .ok plan → lib.outputs plan = columns schema) ∧
      (table.table ≠ "" → (schema.fields.map Field.name).Nodup →
        ∃ plan, parseSql lib sql provider dialect = .ok plan)

section Columns

variable {lib} {selectAll : TableReference → S} {tables : HashMap O}
  {configOptions : Option (HashMap String)} {provider : PyContextProvider C} {o : O}
  {table : TableReference} {schema source : Schema DataType} {sql : String} {dialect : Option String}
  {d : D} {statement : S} {rest : List S} {plan : P}

theorem parseSql_eq_ok_iff (hd : lib.dialectFromStr (dialect.getD "generic") = some d)
    (hp : lib.parse d sql = .ok (statement :: rest)) :
    parseSql lib sql provider dialect = .ok plan ↔
      lib.sqlStatementToPlan (provider.contextProvider lib) statement = .ok plan := by
  have hplan : parseSql lib sql provider dialect =
      unwrapped (lib.sqlStatementToPlan (provider.contextProvider lib) statement) := by
    have hast : unwrapped (lib.parse d sql) = .ok (statement :: rest) := unwrapped_eq_ok_iff.mpr hp
    simp only [parseSql, hd, bind, Except.bind, hast]
  rw [hplan, unwrapped_eq_ok_iff]

theorem names_of_columns (h : columns source = columns schema) :
    source.fields.map Field.name = schema.fields.map Field.name := by
  have hnames := congrArg (List.map Prod.fst) h
  simpa [columns, Function.comp_def] using hnames

/-- `SELECT *` plans the columns of the table source. -/
theorem keepsColumns_iff (hstar : ExpandsWildcard lib selectAll)
    (hs : provider.getTableSource lib table = .ok source) :
    KeepsColumns lib selectAll provider table schema ↔ columns source = columns schema := by
  constructor
  · rintro ⟨source', hs', hc, -⟩
    cases hs.symm.trans hs'
    exact hc
  · intro hc
    refine ⟨source, hs, hc, ?_⟩
    intro sql dialect d rest hd hp
    constructor
    · intro plan hplan
      rw [parseSql_eq_ok_iff hd hp] at hplan
      exact (hstar.outputs _ _ _ _ hs hplan).trans hc
    · intro hname hnodup
      rw [← names_of_columns hc] at hnodup
      obtain ⟨plan, hplan⟩ := hstar.planned (provider.contextProvider lib) _ _ hs hname hnodup
      exact ⟨plan, (parseSql_eq_ok_iff hd hp).mpr hplan⟩

theorem columns_source_iff (hflat : lib.flattenedFields schema = nestedFields schema.fields) :
    columns (PyContextProvider.source lib schema) = columns schema ↔
      ∀ field ∈ schema.fields, field.dataType.nested = [] := by
  rw [columns_source, hflat]
  constructor
  · intro h
    apply length_nestedFields_eq_iff.mp
    simpa [columns] using congrArg List.length h
  · intro h
    rw [nestedFields_of_flat h]
    rfl

/-- A table keeps its columns if and only if no data type among them contains fields. -/
theorem table_source_keeps_columns_iff (lib : Libraries O C E D S P)
    (hflat : ∀ schema, lib.flattenedFields schema = nestedFields schema.fields)
    (selectAll : TableReference → S) (hstar : ExpandsWildcard lib selectAll) (tables : HashMap O)
    (configOptions : Option (HashMap String)) (provider : PyContextProvider C)
    (hnew : PyContextProvider.new lib tables configOptions = .ok provider) (table : TableReference)
    (o : O) (ho : (table.table, o) ∈ tables.entries) (schema : Schema DataType)
    (hs : lib.extract o = .ok schema) :
    KeepsColumns lib selectAll provider table schema ↔
      ∀ field ∈ schema.fields, field.dataType.nested = [] :=
  (keepsColumns_iff hstar (getTableSource_given hnew ho hs)).trans (columns_source_iff (hflat schema))

/-- Schemas as their own Python objects, and a planner for `SELECT *` alone. -/
def selecting : Libraries (Schema DataType) Unit String Unit TableReference
    (List (String × DataType × Bool)) where
  extract := .ok
  flattenedFields schema := nestedFields schema.fields
  default := ()
  set config _ _ := .ok config
  planError := id
  dialectFromStr name := if name = "generic" then some () else none
  parse _ sql := if sql = "SELECT * FROM t" then .ok [.bare "t"] else .error "Expected: an SQL statement"
  sqlStatementToPlan provider table := do
    let source ← provider.getTableSource table
    if table.table = "" then .error "table_name cannot be empty"
    else if (source.fields.map Field.name).Nodup then .ok (columns source)
    else .error "Schema contains duplicate qualified field name"
  outputs := id

theorem selecting_expandsWildcard : ExpandsWildcard selecting id where
  outputs provider table source plan hs hplan := by
    simp only [selecting, id, hs, bind, Except.bind] at hplan
    split_ifs at hplan
    cases hplan
    rfl
  planned provider table source hs hname hnodup := by
    refine ⟨columns source, ?_⟩
    simp only [selecting, id, hs, bind, Except.bind, hname, hnodup, if_true, if_false]

def flatSchema : Schema DataType := ⟨[⟨"id", .primitive "Int64", false, []⟩], []⟩

def flatTables : HashMap (Schema DataType) := ⟨[("t", flatSchema)], by decide⟩

theorem table_source_keeps_columns_iff_flat :
    ∃ provider, PyContextProvider.new selecting flatTables none = .ok provider ∧
      KeepsColumns selecting id provider (.bare "t") flatSchema := by
  have hflat : ∀ field ∈ flatSchema.fields, field.dataType.nested = [] := by
    simp [flatSchema, DataType.nested]
  have hmem : ("t", flatSchema) ∈ flatTables.entries := .head _
  exact ⟨_, rfl, (table_source_keeps_columns_iff selecting (fun _ => rfl) id selecting_expandsWildcard
    flatTables none _ rfl (.bare "t") flatSchema hmem flatSchema rfl).mpr hflat⟩

/-- A column `s` that is a structure with one field `a`. -/
def structSchema : Schema DataType :=
  ⟨[⟨"s", .struct [⟨"a", .primitive "Int64", true, []⟩], true, []⟩], []⟩

/-- The field of the structure becomes a second column of the table, also under `SELECT *`. -/
theorem table_source_flattens :
    ∃ provider source plan,
      PyContextProvider.new selecting ⟨[("t", structSchema)], by decide⟩ none = .ok provider ∧
      provider.getTableSource selecting (.bare "t") = .ok source ∧
      source.fields.map Field.name = ["s", "a"] ∧ structSchema.fields.map Field.name = ["s"] ∧
      parseSql selecting "SELECT * FROM t" provider none = .ok plan ∧
      (selecting.outputs plan).map Prod.fst = ["s", "a"] ∧
      ¬KeepsColumns selecting id provider (.bare "t") structSchema := by
  refine ⟨_, _, _, rfl, rfl, rfl, rfl, rfl, rfl, ?_⟩
  rintro ⟨source, hs, hc, -⟩
  cases hs
  exact absurd (congrArg List.length hc) (by decide)

end Columns

end XorqDatafusion.Sql
