import Mathlib.Data.List.Basic
import Mathlib.Logic.Function.Basic
import XorqDatafusion.References
import XorqDatafusion.Transition

/-! The objects behind FFI tables, with the references they hold to each other. -/
namespace XorqDatafusion.Ffi

open References Transition

variable {R : Type}

structure Arc (α : Type) where
  ptr : α
deriving DecidableEq

structure Weak (α : Type) where
  ptr : α
deriving DecidableEq

/-! Objects are numbered by kind; a catalog has the number of its session, and the `HostTaskContext`
of a table that of the table. -/

abbrev SessionId := ℕ
abbrev CatalogId := ℕ
abbrev TableId := ℕ
abbrev HostId := ℕ
abbrev DataFrameId := ℕ
abbrev CallId := ℕ

/-- The `TaskContextProvider`s: a `SessionContext`, a `HostTaskContext`, and the `SessionTaskContext`
of a call. -/
inductive TaskContextProvider
  | session (s : SessionId)
  | host (t : HostId)
  | sessionTask (c : CallId)
deriving DecidableEq

/-- `FFI_LogicalExtensionCodec`, up to the codec it wraps. -/
structure LogicalExtensionCodec where
  taskCtx : Weak TaskContextProvider
deriving DecidableEq

/-- What an `FFI_TableProvider` is imported as: a `ForeignTableProvider` with the codec, or the provider
itself when it is local to this library, with the tables it holds. -/
inductive Provider
  | foreign (codec : LogicalExtensionCodec)
  | own (tables : List (Arc TableId))
deriving DecidableEq

def Provider.tables : Provider → List (Arc TableId)
  | .foreign _ => []
  | .own tables => tables

/-- A session: its catalog list, and its registry of functions. -/
structure SessionContext (R : Type) where
  catalog : Arc CatalogId
  registry : R

structure HostTaskContext (R : Type) where
  session : Weak SessionId
  fallback : R

structure HostedFfiTableProvider where
  inner : Provider
  taskCtx : Arc HostId

/-- A `DataFrame`: its `SessionState`, a copy of the session's that shares the catalog list, and the
tables of its plan. -/
structure DataFrame (R : Type) where
  catalog : Arc CatalogId
  registry : R
  plan : List (Arc TableId)

/-- A call of a table in progress: the table, the provider it calls, the `SessionTaskContext` it keeps,
and the registry of the session that plans, if there is one. -/
structure Frame (R : Type) where
  table : Arc TableId
  provider : Provider
  taskCtx : Option (Arc CallId)
  planning : Option R

structure Heap (R : Type) where
  /-- The strong references to a session that the program holds. -/
  handles : SessionId → ℕ
  sessions : SessionId → Option (SessionContext R)
  catalogs : CatalogId → List (Arc TableId)
  tables : TableId → Option HostedFfiTableProvider
  hosts : HostId → Option (HostTaskContext R)
  dataFrames : DataFrameId → Option (DataFrame R)
  calls : CallId → Option (Frame R)
  sessionTasks : CallId → Option R

def Heap.empty : Heap R :=
  ⟨fun _ => 0, fun _ => none, fun _ => [], fun _ => none, fun _ => none, fun _ => none,
    fun _ => none, fun _ => none⟩

/-! The graph of strong references. -/

inductive Node
  | session (s : SessionId)
  | catalog (s : CatalogId)
  | table (t : TableId)
  | host (t : HostId)
  | dataFrame (d : DataFrameId)
  | call (c : CallId)
  | sessionTask (c : CallId)
deriving DecidableEq

def TaskContextProvider.node : TaskContextProvider → Node
  | .session s => .session s
  | .host t => .host t
  | .sessionTask c => .sessionTask c

/-- The strong references of an object: those of its fields that are an `Arc`. -/
def Heap.strong (h : Heap R) : Node → List Node
  | .session s => (h.sessions s).toList.map fun x => .catalog x.catalog.ptr
  | .catalog s => (h.catalogs s).map fun x => .table x.ptr
  | .table t => (h.tables t).toList.flatMap fun x =>
      .host x.taskCtx.ptr :: x.inner.tables.map fun y => .table y.ptr
  | .host _ => []
  | .dataFrame d => (h.dataFrames d).toList.flatMap fun x =>
      .catalog x.catalog.ptr :: x.plan.map fun y => .table y.ptr
  | .call c => (h.calls c).toList.flatMap fun x =>
      .table x.table.ptr :: x.taskCtx.toList.map fun y => .sessionTask y.ptr
  | .sessionTask _ => []

section Strong

variable {h : Heap R} {n : Node}

theorem Heap.mem_strong_session {s : SessionId} : n ∈ h.strong (.session s) ↔
    ∃ x, h.sessions s = some x ∧ n = .catalog x.catalog.ptr := by
  simp [Heap.strong, eq_comm]

theorem Heap.mem_strong_catalog {s : CatalogId} : n ∈ h.strong (.catalog s) ↔
    ∃ y ∈ h.catalogs s, n = .table y.ptr := by
  simp [Heap.strong, eq_comm]

theorem Heap.mem_strong_table {t : TableId} : n ∈ h.strong (.table t) ↔ ∃ x, h.tables t = some x ∧
    (n = .host x.taskCtx.ptr ∨ ∃ y ∈ x.inner.tables, n = .table y.ptr) := by
  simp [Heap.strong, eq_comm]

theorem Heap.mem_strong_dataFrame {d : DataFrameId} : n ∈ h.strong (.dataFrame d) ↔
    ∃ x, h.dataFrames d = some x ∧
      (n = .catalog x.catalog.ptr ∨ ∃ y ∈ x.plan, n = .table y.ptr) := by
  simp [Heap.strong, eq_comm]

theorem Heap.mem_strong_call {c : CallId} : n ∈ h.strong (.call c) ↔ ∃ f, h.calls c = some f ∧
    (n = .table f.table.ptr ∨ ∃ y ∈ f.taskCtx, n = .sessionTask y.ptr) := by
  simp [Heap.strong, eq_comm]

end Strong

/-- Held from outside: sessions with a handle, data frames, and the frames of calls. -/
def Heap.root (h : Heap R) : Node → Prop
  | .session s => 0 < h.handles s
  | .dataFrame d => (h.dataFrames d).isSome
  | .call c => (h.calls c).isSome
  | _ => False

def Heap.graph (h : Heap R) : Graph Node := ⟨h.root, fun m n => n ∈ h.strong m⟩

/-- A strong reference leads to the object. -/
def Heap.Alive (h : Heap R) (n : Node) : Prop := Live h.graph n

/-- What `task_ctx` of a provider returns. -/
inductive Heap.TaskCtx (h : Heap R) : TaskContextProvider → R → Prop
  | session {s : SessionId} {x : SessionContext R} :
      h.sessions s = some x → h.TaskCtx (.session s) x.registry
  | upgraded {t : HostId} {x : HostTaskContext R} {y : SessionContext R} : h.hosts t = some x →
      h.Alive (.session x.session.ptr) → h.sessions x.session.ptr = some y →
      h.TaskCtx (.host t) y.registry
  | fallback {t : HostId} {x : HostTaskContext R} : h.hosts t = some x →
      ¬h.Alive (.session x.session.ptr) → h.TaskCtx (.host t) x.fallback
  | sessionTask {c : CallId} {registry : R} :
      h.sessionTasks c = some registry → h.TaskCtx (.sessionTask c) registry

/-- The codec's weak reference is upgraded, and its task context asked for. -/
def Heap.Resolves (h : Heap R) (codec : LogicalExtensionCodec) (registry : R) : Prop :=
  h.Alive codec.taskCtx.ptr.node ∧ h.TaskCtx codec.taskCtx.ptr registry

/-! The functions of the source. -/

/-- `codec_for`: the codec refers to the task context weakly. -/
def codecFor (taskCtx : TaskContextProvider) : LogicalExtensionCodec := ⟨⟨taskCtx⟩⟩

/-- `HostedFfiTableProvider::new`, with its `HostTaskContext` at `t`. -/
def HostedFfiTableProvider.new (ffi : Provider) (t : HostId) : HostedFfiTableProvider where
  inner := match ffi with
    | .foreign _ => .foreign (codecFor (.host t))
    | .own tables => .own tables
  taskCtx := ⟨t⟩

/-- The provider of `bound_for`, with its `SessionTaskContext` at `c`. -/
def HostedFfiTableProvider.boundFor (table : HostedFfiTableProvider) (c : CallId) : Provider :=
  match table.inner with
  | .foreign _ => .foreign (codecFor (.sessionTask c))
  | .own tables => .own tables

/-- The frame of `scan` and `insert_into`. -/
def HostedFfiTableProvider.planned (table : HostedFfiTableProvider) (t : TableId) (c : CallId)
    (registry : R) : Frame R :=
  ⟨⟨t⟩, table.boundFor c, some ⟨c⟩, some registry⟩

/-- The frame of `supports_filters_pushdown`. -/
def HostedFfiTableProvider.pushdown (table : HostedFfiTableProvider) (t : TableId) : Frame R :=
  ⟨⟨t⟩, table.inner, none, none⟩

/-! The steps of a program. -/

/-- What plans a query: a `SessionContext`, or the state of a `DataFrame`. -/
inductive Planner
  | session (s : SessionId)
  | dataFrame (d : DataFrameId)

def Planner.node : Planner → Node
  | .session s => .session s
  | .dataFrame d => .dataFrame d

/-- Its catalog list and its registry. -/
def Heap.state (h : Heap R) : Planner → Option (Arc CatalogId × R)
  | .session s => (h.sessions s).map fun x => (x.catalog, x.registry)
  | .dataFrame d => (h.dataFrames d).map fun x => (x.catalog, x.registry)

inductive Planning
  | scan
  | insertInto

inductive Op (R : Type)
  | newSession (s : SessionId) (registry : R)
  | cloneHandle (s : SessionId)
  | dropHandle (s : SessionId)
  | registerFunction (s : SessionId) (registry : R)
  | registerTableProvider (s : SessionId) (t : TableId) (ffi : Provider)
  | registerTable (s : SessionId) (t : TableId)
  | deregisterTable (s : SessionId) (t : TableId)
  | dataFrame (planner : Planner) (d : DataFrameId) (plan : List (Arc TableId))
  | dropDataFrame (d : DataFrameId)
  | plan (planning : Planning) (planner : Planner) (t : TableId) (c : CallId)
  | supportsFiltersPushdown (t : TableId) (c : CallId)
  | resolve (c : CallId)
  | finish (c : CallId)

open Function in
/-- New tables get the next number; a call may resolve its codec at any time while it runs. -/
inductive Heap.Step : Heap R → Op R → Heap R → Prop
  | newSession {h : Heap R} {s : SessionId} {registry : R} : h.sessions s = none →
      Heap.Step h (.newSession s registry)
        { h with
          handles := update h.handles s 1
          sessions := update h.sessions s (some ⟨⟨s⟩, registry⟩)
          catalogs := update h.catalogs s [] }
  | cloneHandle {h : Heap R} {s : SessionId} : 0 < h.handles s →
      Heap.Step h (.cloneHandle s) { h with handles := update h.handles s (h.handles s + 1) }
  | dropHandle {h : Heap R} {s : SessionId} : 0 < h.handles s →
      Heap.Step h (.dropHandle s) { h with handles := update h.handles s (h.handles s - 1) }
  | registerFunction {h : Heap R} {s : SessionId} {x : SessionContext R} {registry : R} :
      0 < h.handles s → h.sessions s = some x →
      Heap.Step h (.registerFunction s registry)
        { h with sessions := update h.sessions s (some { x with registry := registry }) }
  | registerTableProvider {h : Heap R} {s : SessionId} {t : TableId} {x : SessionContext R}
      {ffi : Provider} : 0 < h.handles s → h.sessions s = some x →
      (∀ t' ≥ t, h.tables t' = none) →
      (∀ y ∈ ffi.tables, (h.tables y.ptr).isSome ∧ h.Alive (.table y.ptr)) →
      Heap.Step h (.registerTableProvider s t ffi)
        { h with
          tables := update h.tables t (some (.new ffi t))
          hosts := update h.hosts t (some ⟨⟨s⟩, x.registry⟩)
          catalogs := update h.catalogs x.catalog.ptr (⟨t⟩ :: h.catalogs x.catalog.ptr) }
  | registerTable {h : Heap R} {s : SessionId} {t : TableId} {x : SessionContext R} :
      0 < h.handles s → h.sessions s = some x → h.Alive (.table t) →
      Heap.Step h (.registerTable s t)
        { h with catalogs := update h.catalogs x.catalog.ptr (⟨t⟩ :: h.catalogs x.catalog.ptr) }
  | deregisterTable {h : Heap R} {s : SessionId} {t : TableId} {x : SessionContext R} :
      0 < h.handles s → h.sessions s = some x →
      Heap.Step h (.deregisterTable s t)
        { h with catalogs := update h.catalogs x.catalog.ptr ((h.catalogs x.catalog.ptr).erase ⟨t⟩) }
  | dataFrame {h : Heap R} {planner : Planner} {d : DataFrameId} {plan : List (Arc TableId)}
      {catalog : Arc CatalogId} {registry : R} : h.Alive planner.node →
      h.state planner = some (catalog, registry) → h.dataFrames d = none →
      (∀ y ∈ plan, h.Alive (.table y.ptr)) →
      Heap.Step h (.dataFrame planner d plan)
        { h with dataFrames := update h.dataFrames d (some ⟨catalog, registry, plan⟩) }
  | dropDataFrame {h : Heap R} {d : DataFrameId} :
      Heap.Step h (.dropDataFrame d) { h with dataFrames := update h.dataFrames d none }
  | plan {h : Heap R} {planning : Planning} {planner : Planner} {t : TableId} {c : CallId}
      {x : HostedFfiTableProvider} {catalog : Arc CatalogId} {registry : R} :
      h.Alive planner.node → h.state planner = some (catalog, registry) → h.Alive (.table t) →
      h.tables t = some x → h.calls c = none →
      Heap.Step h (.plan planning planner t c)
        { h with
          calls := update h.calls c (some (x.planned t c registry))
          sessionTasks := update h.sessionTasks c (some registry) }
  | supportsFiltersPushdown {h : Heap R} {t : TableId} {c : CallId} {x : HostedFfiTableProvider} :
      h.Alive (.table t) → h.tables t = some x → h.calls c = none →
      Heap.Step h (.supportsFiltersPushdown t c)
        { h with calls := update h.calls c (some (x.pushdown t)) }
  | remember {h : Heap R} {c : CallId} {f : Frame R} {codec : LogicalExtensionCodec} {t : HostId}
      {x : HostTaskContext R} {y : SessionContext R} : h.calls c = some f →
      f.provider = .foreign codec → codec.taskCtx.ptr = .host t → h.hosts t = some x →
      h.Alive (.session x.session.ptr) → h.sessions x.session.ptr = some y →
      Heap.Step h (.resolve c)
        { h with hosts := update h.hosts t (some { x with fallback := y.registry }) }
  | finish {h : Heap R} {c : CallId} : Heap.Step h (.finish c)
      { h with calls := update h.calls c none, sessionTasks := update h.sessionTasks c none }

def program (R : Type) : System (Heap R) (Op R) := ⟨fun h => h = .empty, Heap.Step⟩

end XorqDatafusion.Ffi
