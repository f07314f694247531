import Mathlib.Data.Finset.Card
import XorqDatafusion.Transition

/-! The task context that an FFI table asks for outside of a planning session: it follows the
`SessionContext` while there is one, and remembers what it served. -/
namespace XorqDatafusion.Ffi

open Transition

variable {R ι : Type} [Preorder R] [DecidableEq ι] {i j : ι} {r : R}

/-- A `SessionContext` and the `HostTaskContext` of one of its tables. Task contexts are snapshots of
the registry of functions, ordered by what they contain. -/
structure Hosted (R ι : Type) where
  registry : R
  /-- The strong references of the program. -/
  handles : ℕ
  /-- The calls that hold the reference they got by `upgrade`. -/
  upgraded : Finset ι
  fallback : R
  /-- What calls have returned, the latest first. -/
  returned : List R

/-- The session's strong count is not zero. -/
def Hosted.Alive (h : Hosted R ι) : Prop := h.handles + h.upgraded.card ≠ 0

instance (h : Hosted R ι) : Decidable h.Alive := inferInstanceAs (Decidable (_ ≠ 0))

/-- `HostedFfiTableProvider::new`, on a session with this registry. -/
def Hosted.new (registry : R) (handles : ℕ) : Hosted R ι := ⟨registry, handles, ∅, registry, []⟩

/-- Where a thread is in `task_ctx`. -/
inductive Call (R : Type)
  | idle
  | upgraded
  | snapshot (taskCtx : R)
  | remembered (taskCtx : R)
  | released (taskCtx : R)
  | gone
  | fellBack (taskCtx : R)
deriving DecidableEq

inductive Action (R : Type)
  | register (registry : R)
  | clone
  | drop
  | upgrade
  | snapshot
  | remember
  | release
  | readFallback
  | finish
deriving DecidableEq

/-- A step of one thread. Between calls it may register a function with the session, and clone or
drop a reference to it. -/
inductive Step (i : ι) : Hosted R ι × Call R → Action R → Hosted R ι × Call R → Prop
  | register {h : Hosted R ι} {registry : R} : 0 < h.handles → h.registry ≤ registry →
      Step i (h, .idle) (.register registry) ({ h with registry := registry }, .idle)
  | clone {h : Hosted R ι} : 0 < h.handles →
      Step i (h, .idle) .clone ({ h with handles := h.handles + 1 }, .idle)
  | drop {h : Hosted R ι} : 0 < h.handles →
      Step i (h, .idle) .drop ({ h with handles := h.handles - 1 }, .idle)
  | upgrade {h : Hosted R ι} : h.Alive →
      Step i (h, .idle) .upgrade ({ h with upgraded := insert i h.upgraded }, .upgraded)
  | upgradeGone {h : Hosted R ι} : ¬h.Alive → Step i (h, .idle) .upgrade (h, .gone)
  | snapshot {h : Hosted R ι} : Step i (h, .upgraded) .snapshot (h, .snapshot h.registry)
  | remember {h : Hosted R ι} {taskCtx : R} :
      Step i (h, .snapshot taskCtx) .remember ({ h with fallback := taskCtx }, .remembered taskCtx)
  | release {h : Hosted R ι} {taskCtx : R} : Step i (h, .remembered taskCtx) .release
      ({ h with upgraded := h.upgraded.erase i }, .released taskCtx)
  | readFallback {h : Hosted R ι} : Step i (h, .gone) .readFallback (h, .fellBack h.fallback)
  | finish {h : Hosted R ι} {taskCtx : R} : Step i (h, .released taskCtx) .finish
      ({ h with returned := taskCtx :: h.returned }, .idle)
  | finishGone {h : Hosted R ι} {taskCtx : R} : Step i (h, .fellBack taskCtx) .finish
      ({ h with returned := taskCtx :: h.returned }, .idle)

/-- Any threads, with one table of one session. -/
def threads (registry : R) (handles : ℕ) : System (Hosted R ι × (ι → Call R)) (ι × Action R) :=
  family (fun i => ⟨fun c => c = .idle, Step i⟩) (Hosted.new registry handles)

/-- What a call remembers contains what it replaces. -/
def UpToDate (p : Hosted R ι × Call R) (a : Action R) : Prop :=
  a = .remember → ∀ taskCtx, p.2 = .snapshot taskCtx → p.1.fallback ≤ taskCtx

/-! What is remembered grows along a run where every call is up to date. -/

/-- What holds of a call by where it stands. -/
def Standing (h : Hosted R ι) (i : ι) : Call R → Prop
  | .idle => i ∉ h.upgraded
  | .upgraded | .snapshot _ => i ∈ h.upgraded
  | .remembered taskCtx => i ∈ h.upgraded ∧ taskCtx ≤ h.fallback
  | .released taskCtx => i ∉ h.upgraded ∧ taskCtx ≤ h.fallback
  | .gone => i ∉ h.upgraded ∧ ¬h.Alive
  | .fellBack taskCtx => i ∉ h.upgraded ∧ ¬h.Alive ∧ taskCtx = h.fallback

/-- What a step of thread `i` does to the others: a session that is gone stays gone, and its table's
task context as it is. -/
structure Grows (i : ι) (h h' : Hosted R ι) : Prop where
  upgraded : ∀ j ≠ i, (j ∈ h'.upgraded ↔ j ∈ h.upgraded)
  fallback : h.fallback ≤ h'.fallback
  gone : ¬h.Alive → ¬h'.Alive ∧ h'.fallback = h.fallback

omit [Preorder R] [DecidableEq ι] in
theorem Hosted.Alive.of_upgraded {h : Hosted R ι} (hi : i ∈ h.upgraded) : h.Alive := by
  have hcard : 0 < h.upgraded.card := Finset.card_pos.mpr ⟨i, hi⟩
  unfold Alive
  omega

omit [Preorder R] [DecidableEq ι] in
theorem Hosted.Alive.of_handles {h : Hosted R ι} (hh : 0 < h.handles) : h.Alive := by
  unfold Alive
  omega

omit [DecidableEq ι] in
theorem Standing.of_grows {h h' : Hosted R ι} {c : Call R} (hg : Grows i h h') (hj : j ≠ i)
    (hs : Standing h j c) : Standing h' j c := by
  have hmem := hg.upgraded j hj
  cases c with
  | idle | upgraded | snapshot => simpa only [Standing, hmem] using hs
  | remembered taskCtx => exact ⟨hmem.mpr hs.1, hs.2.trans hg.fallback⟩
  | released taskCtx => exact ⟨fun hin => hs.1 (hmem.mp hin), hs.2.trans hg.fallback⟩
  | gone => exact ⟨fun hin => hs.1 (hmem.mp hin), (hg.gone hs.2).1⟩
  | fellBack taskCtx =>
    obtain ⟨hgone, hsame⟩ := hg.gone hs.2.1
    exact ⟨fun hin => hs.1 (hmem.mp hin), hgone, hs.2.2.trans hsame.symm⟩

theorem Step.grows {p q : Hosted R ι × Call R} {a : Action R} (hstep : Step i p a q)
    (hs : Standing p.1 i p.2) (hu : UpToDate p a) : Grows i p.1 q.1 := by
  cases hstep with
  | register hh | clone hh | drop hh =>
    exact ⟨fun _ _ => Iff.rfl, le_rfl, fun hgone => absurd (Hosted.Alive.of_handles hh) hgone⟩
  | upgrade ha =>
    refine ⟨fun j hj => ?_, le_rfl, fun hgone => absurd ha hgone⟩
    simp [hj]
  | upgradeGone | snapshot | readFallback =>
    exact ⟨fun _ _ => Iff.rfl, le_rfl, fun hgone => ⟨hgone, rfl⟩⟩
  | remember =>
    refine ⟨fun _ _ => Iff.rfl, hu rfl _ rfl, fun hgone => ?_⟩
    exact absurd (Hosted.Alive.of_upgraded hs) hgone
  | release =>
    refine ⟨fun j hj => ?_, le_rfl, fun hgone => absurd (Hosted.Alive.of_upgraded hs.1) hgone⟩
    simp [hj]
  | finish | finishGone => exact ⟨fun _ _ => Iff.rfl, le_rfl, fun hgone => ⟨hgone, rfl⟩⟩

theorem Step.standing {p q : Hosted R ι × Call R} {a : Action R} (hstep : Step i p a q)
    (hs : Standing p.1 i p.2) : Standing q.1 i q.2 := by
  cases hstep with
  | register | clone | drop => exact hs
  | upgrade => exact Finset.mem_insert_self _ _
  | upgradeGone hgone => exact ⟨hs, hgone⟩
  | snapshot => exact hs
  | remember => exact ⟨hs, le_rfl⟩
  | release => exact ⟨Finset.notMem_erase _ _, hs.2⟩
  | readFallback => exact ⟨hs.1, hs.2, rfl⟩
  | finish | finishGone => exact hs.1

theorem Step.returned {p q : Hosted R ι × Call R} {a : Action R} (hstep : Step i p a q)
    (hs : Standing p.1 i p.2) :
    ∀ taskCtx ∈ q.1.returned, taskCtx ∈ p.1.returned ∨ taskCtx ≤ p.1.fallback := by
  intro taskCtx hmem
  cases hstep with
  | finish =>
    rcases List.mem_cons.mp hmem with rfl | hmem
    · exact .inr hs.2
    · exact .inl hmem
  | finishGone =>
    rcases List.mem_cons.mp hmem with rfl | hmem
    · exact .inr hs.2.2.le
    · exact .inl hmem
  | _ => exact .inl hmem

/-- What was returned is contained in what is remembered. -/
structure Remembering (p : Hosted R ι × (ι → Call R)) : Prop where
  returned : ∀ taskCtx ∈ p.1.returned, taskCtx ≤ p.1.fallback
  calls : ∀ i, Standing p.1 i (p.2 i)

theorem Remembering.start {registry : R} {handles : ℕ} {p : Hosted R ι × (ι → Call R)}
    (h : (threads registry handles).start p) : Remembering p := by
  obtain ⟨hhost, hidle⟩ := h
  refine ⟨by simp [hhost, Hosted.new], fun i => ?_⟩
  have hi : p.2 i = .idle := hidle i
  simp [hi, Standing, hhost, Hosted.new]

theorem Remembering.step {registry : R} {handles : ℕ} {p q : Hosted R ι × (ι → Call R)}
    {a : ι × Action R} (h : (threads registry handles).step p a q)
    (hu : UpToDate (p.1, p.2 a.1) a.2) (hr : Remembering p) : Remembering q := by
  obtain ⟨i, a⟩ := a
  obtain ⟨h', c, hstep, rfl⟩ := h
  have hown : Standing p.1 i (p.2 i) := hr.calls i
  have hgrows := hstep.grows hown hu
  constructor
  · intro taskCtx hmem
    rcases hstep.returned hown taskCtx hmem with hmem | hle
    · exact (hr.returned taskCtx hmem).trans hgrows.fallback
    · exact hle.trans hgrows.fallback
  · intro j
    by_cases hj : j = i
    · subst hj
      simpa using hstep.standing hown
    · simpa [hj] using (hr.calls j).of_grows hgrows hj

theorem Remembering.of_reachable {registry : R} {handles : ℕ} {p : Hosted R ι × (ι → Call R)}
    (h : ((threads registry handles).restrict fun p a => UpToDate (p.1, p.2 a.1) a.2).Reachable p) :
    Remembering p := by
  refine System.reachable_invariant (I := Remembering) ?_ ?_ h
  · intro p hp
    exact Remembering.start (show (threads registry handles).start p from hp)
  · rintro p a q ⟨hstep, hu⟩ hp
    exact hp.step hstep hu

/-! Calls return. -/

/-- How many steps of its own a call has left. -/
def Call.left : Call R → ℕ
  | .idle => 0
  | .upgraded => 4
  | .snapshot _ => 3
  | .remembered _ | .gone => 2
  | .released _ | .fellBack _ => 1

theorem Step.left {p q : Hosted R ι × Call R} {a : Action R} (hstep : Step i p a q)
    (hp : p.2 ≠ .idle) : a = .finish ∨ q.2 ≠ .idle ∧ q.2.left + 1 = p.2.left := by
  cases hstep with
  | register | clone | drop | upgrade | upgradeGone => exact absurd rfl hp
  | snapshot | remember | release | readFallback => exact .inr ⟨by simp, rfl⟩
  | finish | finishGone => exact .inl rfl

theorem exists_step (i : ι) (h : Hosted R ι) {c : Call R} (hc : c ≠ .idle) :
    ∃ a q, Step i (h, c) a q := by
  cases c with
  | idle => exact absurd rfl hc
  | upgraded => exact ⟨_, _, .snapshot⟩
  | snapshot => exact ⟨_, _, .remember⟩
  | remembered => exact ⟨_, _, .release⟩
  | released => exact ⟨_, _, .finish⟩
  | gone => exact ⟨_, _, .readFallback⟩
  | fellBack => exact ⟨_, _, .finishGone⟩

/-- Every step of a call brings it closer to its return, and no other step touches it. -/
theorem step_left {registry : R} {handles : ℕ} {p q : Hosted R ι × (ι → Call R)} {a : ι × Action R}
    (h : (threads registry handles).step p a q) (hi : p.2 i ≠ .idle) :
    a = (i, .finish) ∨
      q.2 i ≠ .idle ∧ (q.2 i).left + (if a.1 = i then 1 else 0) = (p.2 i).left := by
  obtain ⟨j, a⟩ := a
  obtain ⟨h', c, hs, rfl⟩ := h
  by_cases hj : j = i
  · subst hj
    rcases Step.left hs hi with rfl | ⟨hc, hleft⟩
    · exact .inl rfl
    · exact .inr (by simpa using ⟨hc, hleft⟩)
  · exact .inr (by simpa [hj, Function.update_of_ne (Ne.symm hj)] using hi)

/-- A call that has made the steps it had left has returned, whatever the other threads did. -/
theorem run_returns {registry : R} {handles : ℕ} {p q : Hosted R ι × (ι → Call R)}
    {xs : List ((Hosted R ι × (ι → Call R)) × (ι × Action R))}
    (h : (threads registry handles).Run p xs q) (hi : p.2 i ≠ .idle)
    (hn : (p.2 i).left ≤ xs.countP (fun x => x.2.1 = i)) : ∃ x ∈ xs, x.2 = (i, .finish) := by
  induction h with
  | refl p =>
    cases hc : p.2 i <;> simp [hc, Call.left] at hn hi
  | @stepL p t q a xs hstep _ ih =>
    rcases step_left hstep hi with rfl | ⟨hc, hleft⟩
    · exact ⟨_, List.mem_cons_self, rfl⟩
    · have hcount : (t.2 i).left ≤ xs.countP (fun x => x.2.1 = i) := by
        simp only [List.countP_cons, decide_eq_true_eq] at hn
        omega
      obtain ⟨x, hx, hfinish⟩ := ih hc hcount
      exact ⟨x, List.mem_cons_of_mem _ hx, hfinish⟩

/-- A call under way can go on, and has returned once it has made four more steps. -/
def Returns (T : System (Hosted R ι × (ι → Call R)) (ι × Action R))
    (p : Hosted R ι × (ι → Call R)) (i : ι) : Prop :=
  (∃ a q, T.step p (i, a) q) ∧ ∀ xs q, T.Run p xs q → 4 ≤ xs.countP (fun x => x.2.1 = i) →
    ∃ x ∈ xs, x.2 = (i, .finish)

theorem returns_of_ne_idle {registry : R} {handles : ℕ} {p : Hosted R ι × (ι → Call R)}
    (hi : p.2 i ≠ .idle) : Returns (threads registry handles) p i := by
  constructor
  · obtain ⟨a, ⟨h, c⟩, hs⟩ := exists_step i p.1 hi
    exact ⟨a, _, h, c, hs, rfl⟩
  · intro xs q hrun hcount
    refine run_returns hrun hi (le_trans ?_ hcount)
    cases p.2 i <;> simp [Call.left]

/-- In a run where no call remembers a task context that lacks some of the one it replaces, every
call returns, and those made after the session is gone return what contains all that was returned
before. -/
theorem fallback_contains_returned (registry : R) (handles : ℕ) {p q : Hosted R ι × (ι → Call R)}
    {xs : List ((Hosted R ι × (ι → Call R)) × (ι × Action R))}
    (hstart : (threads registry handles).start p) (hrun : (threads registry handles).Run p xs q)
    (hup : ∀ x ∈ xs, UpToDate (x.1.1, x.1.2 x.2.1) x.2.2) :
    ∀ t ∈ System.visited xs q, ∀ i, t.2 i ≠ .idle →
      Returns (threads registry handles) t i ∧
        ∀ taskCtx, t.2 i = .fellBack taskCtx → ∀ r ∈ t.1.returned, r ≤ taskCtx := by
  have hrun' : ((threads registry handles).restrict
      fun p a => UpToDate (p.1, p.2 a.1) a.2).Run p xs q :=
    System.run_restrict_iff.mpr ⟨hrun, hup⟩
  intro t ht i hi
  refine ⟨returns_of_ne_idle hi, fun taskCtx hc r hr => ?_⟩
  have hreach := hrun'.visited_reachable (.of_start hstart) ht
  have hremember : Remembering t := Remembering.of_reachable hreach
  have hstand := hremember.calls i
  rw [hc] at hstand
  exact hstand.2.2 ▸ hremember.returned r hr

section Runs

theorem thread_step {registry : R} {handles : ℕ} {h h' : Hosted R ι} {calls : ι → Call R}
    {c c' : Call R} {a : Action R} (hi : calls i = c) (hs : Step i (h, c) a (h', c')) :
    (threads registry handles).step (h, calls) (i, a) (h', Function.update calls i c') :=
  ⟨h', c', by simpa [hi] using hs, rfl⟩

/-- A call overlaps with one made after `f` was registered. Once the session is gone, `f` is found. -/
theorem fallback_contains_returned_overlapping : ∃ p xs q,
    (threads (∅ : Finset String) 1).Run p xs q ∧ q.2 false = .fellBack {"f"} ∧
      {"f"} ∈ q.1.returned ∧ ∀ r ∈ q.1.returned, r ≤ ({"f"} : Finset String) := by
  let p : Hosted (Finset String) Bool × (Bool → Call (Finset String)) :=
    (Hosted.new ∅ 1, fun _ => .idle)
  have hf : (∅ : Finset String) ≤ {"f"} := by decide
  have hrun := System.Run.stepL (T := threads ∅ 1) (s := p)
    (thread_step (i := false) rfl (.upgrade (by decide))) <|
    .stepL (thread_step (i := false) rfl .snapshot) <|
    .stepL (thread_step (i := true) rfl (.register (by decide) hf)) <|
    .stepL (thread_step (i := true) rfl (.upgrade (by simp [Hosted.Alive, Hosted.new]))) <|
    .stepL (thread_step (i := false) rfl .remember) <|
    .stepL (thread_step (i := true) rfl .snapshot) <|
    .stepL (thread_step (i := false) rfl .release) <|
    .stepL (thread_step (i := true) rfl .remember) <|
    .stepL (thread_step (i := true) rfl .release) <|
    .stepL (thread_step (i := true) rfl .finish) <|
    .stepL (thread_step (i := false) rfl .finish) <|
    .stepL (thread_step (i := true) rfl (.drop (by decide))) <|
    .stepL (thread_step (i := false) rfl (.upgradeGone (by decide))) <|
    .stepL (thread_step (i := false) rfl .readFallback) (.refl _)
  have hreturned := fallback_contains_returned ∅ 1 ⟨rfl, fun _ => rfl⟩ hrun
    (by simp [UpToDate, p, Hosted.new]) _ (List.mem_append_right _ (List.mem_singleton_self _)) false
    (by simp)
  exact ⟨_, _, _, hrun, rfl, by simp, hreturned.2 {"f"} rfl⟩

/-- A call takes its snapshot, a function `f` is registered and another call returns it; then the
first call remembers its snapshot, and once the session is gone `f` is not found any more. -/
theorem registry_forgotten : ∃ p xs q, (threads (∅ : Finset String) 1).start p ∧
    (threads (∅ : Finset String) 1).Run p xs q ∧
    ∃ (i : Bool) (taskCtx : Finset String), q.2 i = .fellBack taskCtx ∧
      ∃ r ∈ q.1.returned, ¬r ≤ taskCtx := by
  have hf : (∅ : Finset String) ≤ {"f"} := by decide
  refine ⟨(Hosted.new ∅ 1, fun _ => .idle), _, _, ⟨rfl, fun _ => rfl⟩,
    .stepL (thread_step (i := false) rfl (.upgrade (by decide))) <|
    .stepL (thread_step (i := false) rfl .snapshot) <|
    .stepL (thread_step (i := true) rfl (.register (by decide) hf)) <|
    .stepL (thread_step (i := true) rfl (.upgrade (by simp [Hosted.Alive, Hosted.new]))) <|
    .stepL (thread_step (i := true) rfl .snapshot) <|
    .stepL (thread_step (i := true) rfl .remember) <|
    .stepL (thread_step (i := true) rfl .release) <|
    .stepL (thread_step (i := true) rfl .finish) <|
    .stepL (thread_step (i := false) rfl .remember) <|
    .stepL (thread_step (i := false) rfl .release) <|
    .stepL (thread_step (i := false) rfl .finish) <|
    .stepL (thread_step (i := true) rfl (.drop (by decide))) <|
    .stepL (thread_step (i := true) rfl (.upgradeGone (by simp [Hosted.Alive, Hosted.new]))) <|
    .stepL (thread_step (i := true) rfl .readFallback) (.refl _), true, _, rfl, {"f"}, by simp, ?_⟩
  decide

end Runs

end XorqDatafusion.Ffi
