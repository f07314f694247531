import Mathlib.Data.List.Basic
import Mathlib.Data.List.Forall2
import Mathlib.Logic.Basic

/-! Arrow schemas and record batches, projection, and the schema check of the stream bridge. -/
namespace XorqDatafusion

variable {T α : Type}

/-- A Python exception object, known by its identity. -/
structure PyErr where
  object : ℕ
deriving DecidableEq

inductive DataFusionError
  | execution (message : String)
  | external (exception : PyErr)
  | arrow (message : String)
deriving DecidableEq

/-- `T` is Arrow's type of data types. -/
structure Field (T : Type) where
  name : String
  dataType : T
  nullable : Bool
  metadata : List (String × String)
deriving DecidableEq

structure Schema (T : Type) where
  fields : List (Field T)
  metadata : List (String × String)
deriving DecidableEq

structure ArrayRef (T α : Type) where
  dataType : T
  values : List α
deriving DecidableEq

/-- A batch carries its own schema, and its columns have the types that schema declares. They all have
as many rows as the batch, whose number of rows they do not tell where it has none. -/
structure RecordBatch (T α : Type) where
  schema : Schema T
  columns : List (ArrayRef T α)
  rowCount : ℕ
  typed : columns.map ArrayRef.dataType = schema.fields.map Field.dataType
  counted : ∀ column ∈ columns, column.values.length = rowCount
deriving DecidableEq

def RecordBatch.rows (b : RecordBatch T α) : List (List α) :=
  (List.range b.rowCount).map fun i => b.columns.filterMap fun column => column.values[i]?

/-- Names and types by position; nullability and metadata are left out. -/
def Schema.signature (s : Schema T) : List (String × T) :=
  s.fields.map fun f => (f.name, f.dataType)

/-- The entries at `indices`, or the error both projections of Arrow report. -/
def pick {β : Type} (xs : List β) (indices : List ℕ) : Except DataFusionError (List β) :=
  indices.mapM fun i => match xs[i]? with
    | some x => .ok x
    | none => .error (.arrow s!"project index {i} out of bounds, max field {xs.length}")

theorem pick_eq_ok_iff {β : Type} {xs ys : List β} {indices : List ℕ} :
    pick xs indices = .ok ys ↔ indices.map (xs[·]?) = ys.map some := by
  induction indices generalizing ys with
  | nil => cases ys <;> simp [pick, pure, Except.pure]
  | cons i is ih =>
    have ih' := fun ys => @ih ys
    simp only [pick, List.mapM_cons] at ih' ⊢
    cases hx : xs[i]? with
    | none => cases ys <;> simp [hx, bind, Except.bind]
    | some x =>
      generalize hr : List.mapM (m := Except DataFusionError) _ is = r at ih' ⊢
      cases r with
      | error e =>
        cases ys with
        | nil => simp [bind, Except.bind]
        | cons y ys =>
          have := (ih' ys).not.mp (by simp)
          simp [hx, bind, Except.bind, this]
      | ok zs =>
        cases ys with
        | nil => simp [hx, bind, Except.bind, pure, Except.pure]
        | cons y ys => simp [hx, bind, Except.bind, pure, Except.pure, ← ih' ys]

/-- Projection commutes with any reading of the entries. -/
theorem pick_map {β γ : Type} {xs ys : List β} {indices : List ℕ} (f : β → γ)
    (h : pick xs indices = .ok ys) : pick (xs.map f) indices = .ok (ys.map f) := by
  rw [pick_eq_ok_iff] at h ⊢
  have := congrArg (List.map (Option.map f)) h
  simpa [Function.comp_def] using this

/-- Whether a projection is in bounds depends on the number of entries only. -/
theorem pick_ok_of_length {β γ : Type} {xs ys : List β} {zs : List γ} {indices : List ℕ}
    (h : pick xs indices = .ok ys) (hl : xs.length = zs.length) :
    ∃ ws, pick zs indices = .ok ws := by
  have hb : ∀ i ∈ indices, i < zs.length := by
    intro i hi
    rw [pick_eq_ok_iff] at h
    have hm : xs[i]? ∈ ys.map some := h ▸ List.mem_map_of_mem hi
    obtain ⟨y, _, hy⟩ := List.mem_map.mp hm
    exact hl ▸ (List.getElem?_eq_some_iff.mp hy.symm).1
  refine ⟨indices.attach.map fun i => zs.get ⟨i.1, hb i.1 i.2⟩, ?_⟩
  rw [pick_eq_ok_iff, List.map_map]
  conv_lhs => rw [← List.attach_map_subtype_val indices, List.map_map]
  apply List.map_congr_left
  intro i _
  simp [hb i.1 i.2]

def Schema.project (s : Schema T) (indices : List ℕ) : Except DataFusionError (Schema T) := do
  let fields ← pick s.fields indices
  return { s with fields }

/-- DataFusion's `project_schema`: no projection keeps the schema. -/
def projectSchema (s : Schema T) : Option (List ℕ) → Except DataFusionError (Schema T)
  | some indices => s.project indices
  | none => .ok s

theorem Schema.project_eq_ok_iff {s t : Schema T} {indices : List ℕ} :
    s.project indices = .ok t ↔
      pick s.fields indices = .ok t.fields ∧ t.metadata = s.metadata := by
  obtain ⟨fields, metadata⟩ := t
  cases h : pick s.fields indices <;>
    simp [Schema.project, h, bind, Except.bind, pure, Except.pure, eq_comm]

theorem Schema.signature_project {s t : Schema T} {indices : List ℕ}
    (h : s.project indices = .ok t) : pick s.signature indices = .ok t.signature :=
  pick_map _ (Schema.project_eq_ok_iff.mp h).1

/-- A projection cannot go out of the columns when it stays within the schema's fields. -/
theorem RecordBatch.project_typed {b : RecordBatch T α} {indices : List ℕ} {s : Schema T}
    {columns : List (ArrayRef T α)} (hs : b.schema.project indices = .ok s)
    (hc : pick b.columns indices = .ok columns) :
    columns.map ArrayRef.dataType = s.fields.map Field.dataType := by
  have h₁ := pick_map ArrayRef.dataType hc
  have h₂ := pick_map Field.dataType (Schema.project_eq_ok_iff.mp hs).1
  rw [b.typed, h₂] at h₁
  simpa using h₁.symm

theorem mem_of_pick {β : Type} {xs ys : List β} {indices : List ℕ} {y : β}
    (h : pick xs indices = .ok ys) (hy : y ∈ ys) : y ∈ xs := by
  have hm : some y ∈ indices.map (xs[·]?) := pick_eq_ok_iff.mp h ▸ List.mem_map_of_mem hy
  obtain ⟨i, -, hi⟩ := List.mem_map.mp hm
  exact List.mem_of_getElem? hi

/-- `RecordBatch::project`, which keeps the number of rows. -/
def RecordBatch.project (b : RecordBatch T α) (indices : List ℕ) :
    Except DataFusionError (RecordBatch T α) :=
  match hs : b.schema.project indices with
  | .error e => .error e
  | .ok schema => match hc : pick b.columns indices with
    | .error e => .error e
    | .ok columns => .ok ⟨schema, columns, b.rowCount, RecordBatch.project_typed hs hc,
      fun column h => b.counted column (mem_of_pick hc h)⟩

theorem RecordBatch.project_schema {b b' : RecordBatch T α} {indices : List ℕ}
    (h : b.project indices = .ok b') :
    b.schema.project indices = .ok b'.schema ∧ pick b.columns indices = .ok b'.columns ∧
      b'.rowCount = b.rowCount := by
  unfold RecordBatch.project at h
  split at h
  · cases h
  · split at h
    · cases h
    · rename_i hs _ hc
      cases h
      exact ⟨hs, hc, rfl⟩

/-- Columns are as many as fields, so only the schema can make a projection fail. -/
theorem RecordBatch.project_ok {b : RecordBatch T α} {indices : List ℕ} {s : Schema T}
    (h : b.schema.project indices = .ok s) : ∃ b', b.project indices = .ok b' := by
  have hlen : b.schema.fields.length = b.columns.length := by
    simpa using (congrArg List.length b.typed).symm
  obtain ⟨columns, hc⟩ := pick_ok_of_length (Schema.project_eq_ok_iff.mp h).1 hlen
  unfold RecordBatch.project
  split
  · rename_i he
    cases h.symm.trans he
  · split
    · rename_i he
      cases hc.symm.trans he
    · exact ⟨_, rfl⟩

def describe [ToString T] (s : Schema T) : String :=
  ", ".intercalate (s.fields.map fun f => s!"{f.name}: {f.dataType}")

/-- Whether two schemas line up: as many fields, with equal names and types by position. -/
def Schema.linesUp [DecidableEq T] (schema actual : Schema T) : Bool :=
  schema.fields.length == actual.fields.length &&
    (schema.fields.zip actual.fields).all fun p =>
      p.1.name == p.2.name && p.1.dataType == p.2.dataType

/-- `check_batch_schema`. Sharing one schema allocation only skips a comparison that succeeds. -/
def checkBatchSchema [DecidableEq T] [ToString T] (schema : Schema T) (batch : RecordBatch T α) :
    Except DataFusionError Unit :=
  if schema.linesUp batch.schema then .ok ()
  else .error (.execution
    s!"reader produced a batch that does not match the table schema: expected [{describe schema}], got [{describe batch.schema}]")

theorem Schema.linesUp_iff [DecidableEq T] {s t : Schema T} :
    s.linesUp t = true ↔ s.signature = t.signature := by
  obtain ⟨fs, _⟩ := s
  obtain ⟨gs, _⟩ := t
  simp only [Schema.linesUp, Schema.signature]
  induction fs generalizing gs with
  | nil => cases gs <;> simp
  | cons f fs ih =>
    cases gs with
    | nil => simp
    | cons g gs =>
      have ih' := ih gs
      simp only [Bool.and_eq_true, beq_iff_eq, List.length_cons, Nat.add_right_cancel_iff,
        List.zip_cons_cons, List.all_cons, List.map_cons, List.cons.injEq, Prod.mk.injEq] at ih' ⊢
      rw [← ih']
      tauto

theorem checkBatchSchema_eq_ok_iff [DecidableEq T] [ToString T] {schema : Schema T}
    {batch : RecordBatch T α} :
    checkBatchSchema schema batch = .ok () ↔ schema.signature = batch.schema.signature := by
  rw [← Schema.linesUp_iff]
  unfold checkBatchSchema
  split <;> simp_all

end XorqDatafusion
