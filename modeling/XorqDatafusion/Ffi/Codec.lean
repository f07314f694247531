import Mathlib.Data.Prod.Lex
import XorqDatafusion.Ffi.Heap

/-! The codec of an FFI table never dangles, and keeps no session alive. -/
namespace XorqDatafusion.Ffi

open References Transition Relation

variable {R : Type} {h h' : Heap R} {op : Op R} {t : TableId} {s : SessionId} {c : CallId}
  {n : Node} {registry : R}

/-! What a step leaves, and what it makes. -/

theorem Heap.Step.tables_some (hs : Heap.Step h op h') {x : HostedFfiTableProvider}
    (ht : h.tables t = some x) : h'.tables t = some x := by
  cases hs with
  | @registerTableProvider _ t' _ _ _ _ hfresh =>
    have hne : t ≠ t' := by
      rintro rfl
      rw [hfresh t le_rfl] at ht
      cases ht
    simpa [hne] using ht
  | _ => exact ht

theorem Heap.Step.hosts_isSome (hs : Heap.Step h op h') (ht : (h.hosts t).isSome) :
    (h'.hosts t).isSome := by
  cases hs with
  | @registerTableProvider _ t' | @remember _ _ _ t' =>
    by_cases hne : t = t'
    · subst hne
      simp
    · simpa [hne] using ht
  | _ => exact ht

theorem Heap.Step.sessions_isSome (hs : Heap.Step h op h') (ht : (h.sessions s).isSome) :
    (h'.sessions s).isSome := by
  cases hs with
  | @newSession s' | @registerFunction s' =>
    by_cases hne : s = s'
    · subst hne
      simp
    · simpa [hne] using ht
  | _ => exact ht

/-- A table is new only by registration of a provider. -/
theorem Heap.Step.table_cases (hs : Heap.Step h op h') {x : HostedFfiTableProvider}
    (ht : h'.tables t = some x) : h.tables t = some x ∨ ∃ ffi : Provider, x = .new ffi t ∧
      (h'.hosts t).isSome ∧ ∀ y ∈ ffi.tables, y.ptr < t := by
  cases hs with
  | @registerTableProvider _ t' _ ffi _ _ hfresh hheld =>
    by_cases hne : t = t'
    · subst hne
      refine .inr ⟨ffi, by simpa using ht.symm, by simp, fun y hy => ?_⟩
      by_contra hlt
      have hsome := (hheld y hy).1
      rw [hfresh y.ptr (not_lt.mp hlt)] at hsome
      cases hsome
    · exact .inl (by simpa [hne] using ht)
  | _ => exact .inl ht

theorem Heap.Step.host_cases (hs : Heap.Step h op h') {x : HostTaskContext R}
    (ht : h'.hosts t = some x) : (∃ y, h.hosts t = some y ∧ y.session = x.session) ∨
      (h.sessions x.session.ptr).isSome := by
  cases hs with
  | @registerTableProvider _ t' _ _ _ hsession =>
    by_cases hne : t = t'
    · subst hne
      obtain rfl := by simpa using ht
      exact .inr (by simp [hsession])
    · exact .inl ⟨x, by simpa [hne] using ht, rfl⟩
  | @remember _ _ _ t' y _ _ _ _ hy =>
    by_cases hne : t = t'
    · subst hne
      obtain rfl := by simpa using ht
      exact .inl ⟨y, hy, rfl⟩
    · exact .inl ⟨x, by simpa [hne] using ht, rfl⟩
  | _ => exact .inl ⟨x, ht, rfl⟩

/-- The frame of a call of table `t` on this heap. -/
def Heap.Calls (h : Heap R) (c : CallId) (f : Frame R) : Prop :=
  ∃ t x, h.tables t = some x ∧ (f = x.pushdown t ∨
    ∃ registry, f = x.planned t c registry ∧ h.sessionTasks c = some registry)

theorem Heap.Step.call_cases (hs : Heap.Step h op h') {f : Frame R} (hc : h'.calls c = some f) :
    (h.calls c = some f ∧ h'.sessionTasks c = h.sessionTasks c) ∨ h'.Calls c f := by
  cases hs with
  | @plan _ _ t c' x _ registry _ _ _ hx =>
    by_cases hne : c = c'
    · subst hne
      exact .inr ⟨t, x, hx, .inr ⟨registry, by simpa using hc.symm, by simp⟩⟩
    · exact .inl ⟨by simpa [hne] using hc, by simp [hne]⟩
  | @supportsFiltersPushdown t c' x _ hx =>
    by_cases hne : c = c'
    · subst hne
      exact .inr ⟨t, x, hx, .inl (by simpa using hc.symm)⟩
    · exact .inl ⟨by simpa [hne] using hc, rfl⟩
  | @finish c' =>
    by_cases hne : c = c'
    · subst hne
      simp at hc
    · exact .inl ⟨by simpa [hne] using hc, by simp [hne]⟩
  | _ => exact .inl ⟨hc, rfl⟩

/-! The references are as `new` and `bound_for` set them up. -/

structure Heap.Table (h : Heap R) (t : TableId) (x : HostedFfiTableProvider) : Prop where
  taskCtx : x.taskCtx = ⟨t⟩
  host : (h.hosts t).isSome
  codec : ∀ codec, x.inner = .foreign codec → codec = codecFor (.host t)
  older : ∀ y ∈ x.inner.tables, y.ptr < t

structure Heap.Wf (h : Heap R) : Prop where
  tables : ∀ t x, h.tables t = some x → h.Table t x
  hosts : ∀ t x, h.hosts t = some x → (h.sessions x.session.ptr).isSome
  calls : ∀ c f, h.calls c = some f → h.Calls c f

theorem HostedFfiTableProvider.new_table {ffi : Provider} (hhost : (h.hosts t).isSome)
    (hheld : ∀ y ∈ ffi.tables, y.ptr < t) : h.Table t (.new ffi t) := by
  refine ⟨rfl, hhost, ?_, ?_⟩
  · intro codec hcodec
    cases ffi with
    | foreign => exact (Provider.foreign.inj hcodec).symm
    | own => cases hcodec
  · cases ffi with
    | foreign => intro y hy; cases hy
    | own tables => exact hheld

theorem Heap.Step.wf (hs : Heap.Step h op h') (hw : h.Wf) : h'.Wf where
  tables t x ht := by
    rcases hs.table_cases ht with hold | ⟨ffi, rfl, hhost, hheld⟩
    · have htable := hw.tables t x hold
      exact ⟨htable.taskCtx, hs.hosts_isSome htable.host, htable.codec, htable.older⟩
    · exact HostedFfiTableProvider.new_table hhost hheld
  hosts t x ht := by
    rcases hs.host_cases ht with ⟨y, hy, hsession⟩ | hsome
    · exact hs.sessions_isSome (hsession ▸ hw.hosts t y hy)
    · exact hs.sessions_isSome hsome
  calls c f hc := by
    rcases hs.call_cases hc with ⟨hold, htask⟩ | hnew
    · obtain ⟨t, x, hx, hf⟩ := hw.calls c f hold
      exact ⟨t, x, hs.tables_some hx, by rwa [htask]⟩
    · exact hnew

theorem Heap.Wf.of_reachable (hr : (program R).Reachable h) : h.Wf := by
  refine System.reachable_invariant (I := Heap.Wf) ?_ ?_ hr
  · rintro h rfl
    constructor <;> intro _ _ hsome <;> cases hsome
  · intro h op h' hs hw
    exact Heap.Step.wf hs hw

/-! Every call resolves its codec. -/

theorem Heap.Alive.root (hn : h.root n) : h.Alive n := Live.of_root hn

theorem Heap.Alive.strong {m : Node} (hm : h.Alive m) (hn : n ∈ h.strong m) : h.Alive n :=
  Live.refers hm hn

/-- The frame of a call keeps its table, and the `HostTaskContext` of that. -/
theorem Heap.Wf.host_alive (hw : h.Wf) {f : Frame R} {x : HostedFfiTableProvider}
    (hc : h.calls c = some f) (hf : f.table = ⟨t⟩) (hx : h.tables t = some x) :
    h.Alive (.host t) := by
  have hcall : h.Alive (.call c) := .root (by simp [Heap.root, hc])
  have htable : h.Alive (.table t) :=
    hcall.strong (Heap.mem_strong_call.mpr ⟨f, hc, .inl (by rw [hf])⟩)
  refine htable.strong (Heap.mem_strong_table.mpr ⟨x, hx, .inl ?_⟩)
  rw [(hw.tables t x hx).taskCtx]

theorem Heap.Wf.exists_taskCtx (hw : h.Wf) (ht : (h.hosts t).isSome) :
    ∃ registry, h.TaskCtx (.host t) registry := by
  obtain ⟨x, hx⟩ := Option.isSome_iff_exists.mp ht
  obtain ⟨y, hy⟩ := Option.isSome_iff_exists.mp (hw.hosts t x hx)
  by_cases ha : h.Alive (.session x.session.ptr)
  · exact ⟨_, .upgraded hx ha hy⟩
  · exact ⟨_, .fallback hx ha⟩

theorem Heap.Wf.pushdown_resolves (hw : h.Wf) {x : HostedFfiTableProvider}
    (hc : h.calls c = some (x.pushdown t)) (hx : h.tables t = some x)
    {codec : LogicalExtensionCodec} (hcodec : x.inner = .foreign codec) :
    ∃ registry, h.Resolves codec registry := by
  have htable := hw.tables t x hx
  obtain rfl := htable.codec codec hcodec
  obtain ⟨registry, hr⟩ := hw.exists_taskCtx htable.host
  exact ⟨registry, hw.host_alive hc rfl hx, hr⟩

/-- The codec of `bound_for` serves the registry of the session that plans, and nothing else. -/
theorem planned_resolves_iff {x : HostedFfiTableProvider}
    (hc : h.calls c = some (x.planned t c registry)) (htask : h.sessionTasks c = some registry)
    {codec : LogicalExtensionCodec} (hcodec : x.boundFor c = .foreign codec) {r : R} :
    h.Resolves codec r ↔ r = registry := by
  have hbound : codec = codecFor (.sessionTask c) := by
    unfold HostedFfiTableProvider.boundFor at hcodec
    split at hcodec
    · exact (Provider.foreign.inj hcodec).symm
    · cases hcodec
  subst hbound
  constructor
  · rintro ⟨-, hserves⟩
    cases hserves with
    | sessionTask hr => exact Option.some.inj (hr.symm.trans htask)
  · rintro rfl
    have hcall : h.Alive (.call c) := .root (by simp [Heap.root, hc])
    exact ⟨hcall.strong (Heap.mem_strong_call.mpr ⟨_, hc, .inr ⟨⟨c⟩, rfl, rfl⟩⟩), .sessionTask htask⟩

/-! Nothing holds a session but its handles. -/

theorem Heap.session_notMem_strong {m : Node} : .session s ∉ h.strong m := by
  cases m <;> simp [Heap.strong]

theorem Heap.alive_session_iff : h.Alive (.session s) ↔ 0 < h.handles s := by
  constructor
  · intro ha
    rcases Live.cases ha with hroot | ⟨m, -, hm⟩
    · exact hroot
    · exact absurd hm Heap.session_notMem_strong
  · exact fun hh => .root hh

/-- What holds a table, other than session `s`: another session with a handle, a data frame, a call in
progress, or a provider that is itself held and local to this library. -/
inductive Heap.Held (h : Heap R) (s : SessionId) : TableId → Prop
  | session {t : TableId} {s' : SessionId} {x : SessionContext R} : s' ≠ s → 0 < h.handles s' →
      h.sessions s' = some x → ⟨t⟩ ∈ h.catalogs x.catalog.ptr → h.Held s t
  | state {t : TableId} {d : DataFrameId} {x : DataFrame R} : h.dataFrames d = some x →
      ⟨t⟩ ∈ h.catalogs x.catalog.ptr → h.Held s t
  | plan {t : TableId} {d : DataFrameId} {x : DataFrame R} : h.dataFrames d = some x →
      ⟨t⟩ ∈ x.plan → h.Held s t
  | call {t : TableId} {c : CallId} {f : Frame R} : h.calls c = some f → f.table = ⟨t⟩ → h.Held s t
  | provider {t t' : TableId} {x : HostedFfiTableProvider} : h.Held s t' → h.tables t' = some x →
      ⟨t⟩ ∈ x.inner.tables → h.Held s t

/-- A catalog is held by another session with a handle, or by the state of a data frame. -/
def Heap.HeldCatalog (h : Heap R) (s : SessionId) (k : CatalogId) : Prop :=
  (∃ s' x, s' ≠ s ∧ 0 < h.handles s' ∧ h.sessions s' = some x ∧ x.catalog.ptr = k) ∨
    ∃ d x, h.dataFrames d = some x ∧ x.catalog.ptr = k

theorem Heap.HeldCatalog.table {k : CatalogId} (hk : h.HeldCatalog s k) (ht : ⟨t⟩ ∈ h.catalogs k) :
    h.Held s t := by
  rcases hk with ⟨s', x, hne, hh, hx, rfl⟩ | ⟨d, x, hx, rfl⟩
  · exact .session hne hh hx ht
  · exact .state hx ht

/-- What reachability from elsewhere means for each kind of object. -/
def Heap.HeldNode (h : Heap R) (s : SessionId) : Node → Prop
  | .table t => h.Held s t
  | .catalog k => h.HeldCatalog s k
  | _ => True

theorem Heap.heldNode_of_refers (hs : h.handles s = 0) {m : Node} (ha : h.Alive m)
    (hm : h.HeldNode s m) (hr : n ∈ h.strong m) : h.HeldNode s n := by
  cases m with
  | session s' =>
    obtain ⟨x, hx, rfl⟩ := Heap.mem_strong_session.mp hr
    have hh : 0 < h.handles s' := Heap.alive_session_iff.mp ha
    refine .inl ⟨s', x, ?_, hh, hx, rfl⟩
    rintro rfl
    omega
  | catalog k =>
    obtain ⟨⟨t⟩, ht, rfl⟩ := Heap.mem_strong_catalog.mp hr
    exact Heap.HeldCatalog.table hm ht
  | table t' =>
    obtain ⟨x, hx, rfl | ⟨⟨t⟩, ht, rfl⟩⟩ := Heap.mem_strong_table.mp hr
    · trivial
    · exact .provider hm hx ht
  | dataFrame d =>
    obtain ⟨x, hx, rfl | ⟨⟨t⟩, ht, rfl⟩⟩ := Heap.mem_strong_dataFrame.mp hr
    · exact .inr ⟨d, x, hx, rfl⟩
    · exact .plan hx ht
  | call c =>
    obtain ⟨f, hf, rfl | ⟨k, hk, rfl⟩⟩ := Heap.mem_strong_call.mp hr
    · exact .call hf rfl
    · trivial
  | host | sessionTask => exact absurd hr List.not_mem_nil

/-- Without a handle to session `s`, whatever keeps a table alive is something else. -/
theorem Heap.held_of_alive (hs : h.handles s = 0) (ha : h.Alive (.table t)) : h.Held s t := by
  refine Live.induct (P := h.HeldNode s) ?_ (fun m n hm => heldNode_of_refers hs hm) ha
  intro n hroot
  cases n with
  | catalog | table => exact hroot.elim
  | _ => trivial

/-- Frames, sessions and data frames refer to catalogs, these to tables, and tables to older ones. -/
def Node.rank : Node → ℕ ×ₗ ℕ
  | .session _ | .dataFrame _ | .call _ => toLex (3, 0)
  | .catalog _ => toLex (2, 0)
  | .table t => toLex (1, t)
  | .host _ | .sessionTask _ => toLex (0, 0)

theorem Heap.Wf.acyclic (hw : h.Wf) (n : Node) : ¬TransGen h.graph.refers n n := by
  refine acyclic_of_rank Node.rank ?_ n
  intro m n hr
  cases m with
  | session s =>
    obtain ⟨x, -, rfl⟩ := Heap.mem_strong_session.mp hr
    simp [Node.rank, Prod.Lex.toLex_lt_toLex]
  | catalog k =>
    obtain ⟨y, -, rfl⟩ := Heap.mem_strong_catalog.mp hr
    simp [Node.rank, Prod.Lex.toLex_lt_toLex]
  | table t =>
    obtain ⟨x, hx, rfl | ⟨y, hy, rfl⟩⟩ := Heap.mem_strong_table.mp hr
    · simp [Node.rank, Prod.Lex.toLex_lt_toLex]
    · simpa [Node.rank, Prod.Lex.toLex_lt_toLex] using (hw.tables t x hx).older y hy
  | dataFrame d =>
    obtain ⟨x, -, rfl | ⟨y, -, rfl⟩⟩ := Heap.mem_strong_dataFrame.mp hr
    all_goals simp [Node.rank, Prod.Lex.toLex_lt_toLex]
  | call c =>
    obtain ⟨x, -, rfl | ⟨y, -, rfl⟩⟩ := Heap.mem_strong_call.mp hr
    all_goals simp [Node.rank, Prod.Lex.toLex_lt_toLex]
  | host | sessionTask => exact absurd hr List.not_mem_nil

section DroppedContext

theorem Heap.alive_of_catalog {x : SessionContext R} (hh : 0 < h.handles s)
    (hx : h.sessions s = some x) (ht : ⟨t⟩ ∈ h.catalogs x.catalog.ptr) : h.Alive (.table t) := by
  have hsession : h.Alive (.session s) := .root hh
  have hcatalog := hsession.strong (Heap.mem_strong_session.mpr ⟨x, hx, rfl⟩)
  exact hcatalog.strong (Heap.mem_strong_catalog.mpr ⟨⟨t⟩, ht, rfl⟩)

theorem Heap.alive_of_plan {d : DataFrameId} {x : DataFrame R} (hx : h.dataFrames d = some x)
    (ht : ⟨t⟩ ∈ x.plan) : h.Alive (.table t) := by
  have hframe : h.Alive (.dataFrame d) := .root (by simp [Heap.root, hx])
  exact hframe.strong (Heap.mem_strong_dataFrame.mpr ⟨x, hx, .inr ⟨⟨t⟩, ht, rfl⟩⟩)

/-- A foreign provider whose codec is bound to the session it is registered with. -/
def boundToSession : Provider := .foreign ⟨⟨.session 0⟩⟩

/-- A session with a foreign table, and a data frame of it that outlives the last handle. -/
theorem exists_dropped : ∃ h : Heap ℕ, (program ℕ).Reachable h ∧ h.handles 0 = 0 ∧
    h.sessions 0 = some ⟨⟨0⟩, 7⟩ ∧ ⟨0⟩ ∈ h.catalogs 0 ∧ h.tables 0 = some (.new boundToSession 0) ∧
    h.dataFrames 0 = some ⟨⟨0⟩, 7, [⟨0⟩]⟩ ∧ h.calls 0 = none := by
  have h₀ : (program ℕ).Reachable .empty := .of_start rfl
  have h₁ := h₀.step (show Heap.Step _ (.newSession 0 7) _ from .newSession rfl)
  have h₂ := h₁.step (show Heap.Step _ (.registerTableProvider 0 0 boundToSession) _ from
    .registerTableProvider (by decide) rfl (fun _ _ => rfl) (by intro y hy; cases hy))
  have h₃ := h₂.step (show Heap.Step _ (.dataFrame (.session 0) 0 [⟨0⟩]) _ from
    .dataFrame (Heap.alive_session_iff.mpr (by decide)) rfl rfl (List.forall_mem_singleton.mpr
      (Heap.alive_of_catalog (s := 0) (by decide) rfl List.mem_cons_self)))
  have h₄ := h₃.step (show Heap.Step _ (.dropHandle 0) _ from .dropHandle (by decide))
  exact ⟨_, h₄, rfl, rfl, List.mem_cons_self, rfl, rfl, rfl⟩

end DroppedContext

end XorqDatafusion.Ffi
