import XorqDatafusion.Bridge.Speculation

/-! Where the pull closure is dropped, and how often. -/
namespace XorqDatafusion.Bridge

open Transition

variable {B E : Type} {c : Config B E} {b : Budget} {s : Stream B E} {r : Round} {host : Host}
  {home : Home} {v : Verdict} {coord : Coord} {p q : Budget × Stream B E} {a : Action B E}
  {report : Report} {xs : List ((Budget × Stream B E) × Option (Action B E))}

/-- An abort here finds the closure either with the coordinator's host, which hands it to the
blocking pool, or elsewhere: not in the captures of a task that never ran, nor in an output of the
blocking pool that nobody read. -/
def Guarded (s : Stream B E) (a : Action B E) : Prop :=
  a = .abort → s.coord ≠ .spawned ∧ ∀ finished, s.host ≠ .pool (.finished (.ended finished))

/-- The host has let the closure go, or has none. -/
def Host.letGo : Host → Bool
  | .unmade => true
  | .affine thread _ _ => match thread with
    | .exiting | .exited => true
    | _ => false
  | .pool task => match task with
    | .absent | .finished (.panicked _) => true
    | _ => false

theorem ShapeAt.dropped {live : Bool} (hs : ShapeAt live host .dropped v coord) :
    host.letGo = true ∧ (host = .unmade → coord.over = true) := by
  have hreported {report : Report} (hr : Reported host .dropped report) :
      host.letGo = true ∧ host ≠ .unmade := by
    cases hr <;> exact ⟨rfl, nofun⟩
  have horphan (ho : Orphan host .dropped v) : host.letGo = true := by
    cases ho <;> rfl
  cases coord with
  | spawned | spawning | sendInit => simp [ShapeAt] at hs
  | awaitRound =>
    rcases hs with hs | ⟨report, hs, -⟩
    · cases hs
    · exact ⟨(hreported hs).1, fun h => ((hreported hs).2 h).elim⟩
  | finished | panicked | aborted => exact ⟨horphan hs.1, fun _ => rfl⟩
  | _ => cases hs.1

/-- Whatever still has the closure, it was not dropped before. -/
theorem Shaped.not_dropped (hs : Shaped c s) (hh : s.host.letGo = false) : s.home ≠ .dropped := by
  intro hd
  have hat := hs.at_coord
  rw [hd] at hat
  simp [hat.dropped.1] at hh

theorem Shaped.not_dropped_unmade (hs : Shaped c s) (hh : s.host = .unmade)
    (hc : s.coord.over = false) : s.home ≠ .dropped := by
  intro hd
  have hat := hs.at_coord
  rw [hd] at hat
  simp [hat.dropped.2 hh] at hc

/-- What a step does with the closure: it moves it at most, or it drops it somewhere. -/
inductive Disposal (s s' : Stream B E) : Option Site → Prop
  | kept (hd : s'.drops = s.drops) (hh : s'.home = .dropped ↔ s.home = .dropped) : Disposal s s' none
  | dropped (site : Site) (h : s.home ≠ .dropped) (h' : s'.home = .dropped)
      (hd : s'.drops = s.drops ++ [site]) : Disposal s s' (some site)

theorem Disposal.of_eq {s' : Stream B E} (hd : s'.drops = s.drops) (hh : s'.home = s.home) :
    Disposal s s' none := .kept hd (by rw [hh])

theorem Stream.finish_disposal (s : Stream B E) (coord : Coord) :
    Disposal s (s.finish coord) none := by
  refine .kept rfl ?_
  cases h : s.home <;> simp [Stream.finish, Stream.dropHost, h]

theorem HostStep.disposal (hs : Shaped c p.2) (h : HostStep c p q) :
    ∃ site, Disposal p.2 q.2 site ∧ site ≠ some .asyncWorker := by
  have hnot := hs.not_dropped
  cases h with
  | recvInit hh =>
    have hne := hnot (by rw [hh]; rfl)
    exact ⟨none, .kept rfl (by simp [hne]), nofun⟩
  | complete hh hr hc =>
    have hne := hnot (by rw [hh]; rfl)
    exact ⟨none, .kept rfl (by simp [hne]), nofun⟩
  | drain hh hd =>
    refine ⟨none, .of_eq ?_ ?_, nofun⟩ <;> rw [(drainBatches_frame hd).1]
  | leave hh => exact ⟨_, .dropped .pullThread (hnot (by rw [hh]; rfl)) rfl rfl, nofun⟩
  | discard hh => exact ⟨_, .dropped .blockingPool (hnot (by rw [hh]; rfl)) rfl rfl, nofun⟩
  | crash hh => exact ⟨_, .dropped .blockingPool (hnot (by rw [hh]; rfl)) rfl rfl, nofun⟩
  | _ => exact ⟨none, .of_eq rfl rfl, nofun⟩

theorem Idle.not_finished (h : Idle host home) (report : Report) :
    host ≠ .pool (.finished report) := by
  rintro rfl
  cases h

theorem CoordStep.disposal (hs : Shaped c p.2) (h : CoordStep c p q) : Disposal p.2 q.2 none := by
  cases h with
  | noPermit hc hh | permit hc hh | spawnFails hc hh =>
    have hne := hs.not_dropped_unmade hh (by rw [hc]; rfl)
    exact .kept rfl (by simp [hne])
  | sendInit hc hh =>
    have hne := hs.not_dropped (by rw [hh]; rfl)
    exact .kept rfl (by simp [hne])
  | dispatchPool hc hh hg => exact .kept rfl (by simp [hg])
  | closed => exact Stream.finish_disposal _ _
  | @collect b s report hc hr =>
    have hhome : s.home.collect = .dropped ↔ s.home = .dropped := by
      cases s.home <;> simp [Home.collect]
    cases hfin : Stream.finish_disposal { s with host := s.host.collect, home := s.home.collect }
      (match report with | .ended _ => .finished | .panicked payload => .panicked payload) with
    | kept hd hh =>
      rcases report with ⟨_ | _⟩ | payload
      · exact .kept rfl hhome
      · exact .kept rfl (hh.trans hhome)
      · exact .kept rfl (hh.trans hhome)
  | _ => exact .of_eq rfl rfl

theorem AbortStep.disposal (hs : Shaped c p.2) (h : AbortStep p q) :
    ∃ site, Disposal p.2 q.2 site ∧ (site = some .asyncWorker ↔ ¬Guarded p.2 (.abort : Action B E)) := by
  have hnot := hs.not_dropped
  cases h with
  | @spawned b s hc hh =>
    have hne : s.home ≠ .dropped := hs.not_dropped_unmade hh (by rw [hc]; rfl)
    exact ⟨_, .dropped .asyncWorker hne rfl rfl, by simp [Guarded, hc]⟩
  | output hc hh =>
    exact ⟨_, .dropped .asyncWorker (hnot (by rw [hh]; rfl)) rfl rfl, by simp [Guarded, hh]⟩
  | crashed hc hh => exact ⟨none, .of_eq rfl rfl, by simp [Guarded, hc, hh]⟩
  | round hc hh => exact ⟨none, Stream.finish_disposal _ _, by simp [Guarded, hc, hh]⟩
  | acquire hc | reserve hc =>
    have hat := hs.at_coord
    simp only [hc] at hat
    exact ⟨none, Stream.finish_disposal _ _, by simp [Guarded, hc, hat.1.not_finished]⟩

/-- The closure is dropped on an async worker in unguarded aborts only. -/
theorem Step.disposal (hs : Shaped c p.2) (h : Step c p a q) :
    ∃ site, Disposal p.2 q.2 site ∧ (site = some .asyncWorker ↔ ¬Guarded p.2 a) := by
  cases h with
  | coordinator h => exact ⟨none, h.disposal hs, by simp [Guarded]⟩
  | abort _ h => exact h.disposal hs
  | host h =>
    obtain ⟨site, hd, hne⟩ := h.disposal hs
    exact ⟨site, hd, by simp [Guarded, hne]⟩
  | answer =>
    refine ⟨none, .of_eq ?_ ?_, by simp [Guarded]⟩ <;> rw [pullReturned_frame]
  | @dispose b s hd =>
    have hne : s.home ≠ .dropped := by simp [hd]
    exact ⟨_, .dropped .blockingPool hne rfl rfl, by simp [Guarded]⟩
  | pollNext => rw [Stream.pollNext_frame]; exact ⟨none, .of_eq rfl rfl, by simp [Guarded]⟩
  | _ => exact ⟨none, .of_eq rfl rfl, by simp [Guarded]⟩

/-- Over a run, the closure ends up on an async worker exactly when an unguarded abort put it there. -/
theorem run_asyncWorker (hp : (component c).alone.Reachable p) (h : (component c).alone.Run p xs q) :
    .asyncWorker ∈ q.2.drops ↔
      .asyncWorker ∈ p.2.drops ∨ ∃ x ∈ xs, ∃ a, x.2 = some a ∧ ¬Guarded x.1.2 a := by
  induction h with
  | refl => simp
  | @stepL p t r a xs hs hr ih =>
    rw [ih (hp.step hs)]
    cases a with
    | none =>
      have ht : t.2 = p.2 := hs
      simp [ht]
    | some a =>
      obtain ⟨site, hd, hsite⟩ := (reachable_step hp hs).disposal (reachable_shaped hp)
      have hdrops : .asyncWorker ∈ t.2.drops ↔ .asyncWorker ∈ p.2.drops ∨ ¬Guarded p.2 a := by
        rw [← hsite]
        cases hd with
        | kept hd => simp [hd]
        | dropped site _ _ hd => simp [hd, eq_comm]
      rw [hdrops]
      simp [or_assoc]

/-- The closure is dropped at most once, and it is gone exactly from then on. -/
theorem reachable_drops (h : (component c).alone.Reachable p) :
    p.2.drops.length = if p.2.home = .dropped then 1 else 0 := by
  refine stream_invariant (I := fun s => s.drops.length = if s.home = .dropped then 1 else 0) rfl ?_ h
  intro p a q hs hstep hI
  obtain ⟨site, hd, -⟩ := hstep.disposal hs
  cases hd with
  | kept hd hh => simp [hd, hI, hh]
  | dropped site hn hh hd => simp [hd, hI, hn, hh]

/-- Nothing is left to run: the coordinator is over, no pull is executing, and neither the host nor
the blocking pool has anything to do. -/
structure AtRest (c : Config B E) (p : Budget × Stream B E) : Prop where
  ended : p.2.coord.over = true
  answered : ∀ r, p.2.host.round = some r → r.drain ≠ .inPull
  host : hostStep c p.1 p.2 = none
  disposed : p.2.home ≠ .disposing

theorem drainBatches_ne_none (hr : r.drain.report = none) (hd : r.drain ≠ .inPull) :
    drainBatches c b s r ≠ none := by
  fun_cases drainBatches c b s r <;> simp_all [Drain.report]

/-- A round in progress has a step to take, unless its pull is executing. -/
theorem hostStep_round_ne_none (hh : s.host.round = some r) (hd : r.drain ≠ .inPull) :
    hostStep c b s ≠ none := by
  cases hr : r.drain.report with
  | none => simpa [hostStep_drain hh hr] using drainBatches_ne_none hr hd
  | some report =>
    rcases Host.round_eq_some_iff.mp hh with ⟨mailbox, done, hhost⟩ | hhost
    · simp [hostStep, hhost, runAffinePull, hr]
    · cases report <;> simp [hostStep, hhost, poolTask, hr]

/-- An orphaned host lets the closure go before it comes to rest. -/
theorem Orphan.dropped (ho : Orphan s.host s.home v) (h : AtRest c (b, s)) : s.home = .dropped := by
  obtain ⟨hover, hanswered, hstep, hdisposed⟩ := h
  have hround := fun r hr => hostStep_round_ne_none (c := c) (b := b) hr (hanswered r hr)
  simp only at hover hstep hdisposed hround
  generalize hhost : s.host = host at ho hround
  generalize hhome : s.home = home at ho hdisposed
  cases ho with
  | unmade | exiting | exited | disposed => rfl
  | disposing => exact absurd rfl hdisposed
  | draining r | pooled r => exact absurd hstep (hround r rfl)
  | _ => simp [hostStep, hhost, runAffinePull, poolTask, hover] at hstep

theorem Shaped.dropped_of_atRest (hs : Shaped c s) (h : AtRest c (b, s)) : s.home = .dropped := by
  have hat := hs.at_coord
  have hover := h.ended
  cases hc : s.coord with
  | finished | panicked | aborted =>
    simp only [hc] at hat
    exact hat.1.dropped h
  | _ => simp [hc, Coord.over] at hover

theorem drops_length_le (h : (component c).alone.Reachable p) : p.2.drops.length ≤ 1 := by
  rw [reachable_drops h]
  split <;> decide

theorem drops_length_of_atRest (h : (component c).alone.Reachable p) (hr : AtRest c p) :
    p.2.drops.length = 1 := by
  rw [reachable_drops h, if_pos ((reachable_shaped h).dropped_of_atRest hr)]

theorem run_off_workers_iff (h₀ : (component c).alone.start p)
    (h : (component c).alone.Run p xs q) :
    (∀ site ∈ q.2.drops, site = .pullThread ∨ site = .blockingPool) ↔
      ∀ x ∈ xs, ∀ a, x.2 = some a → Guarded x.1.2 a := by
  have hstart : p.2 = {} := h₀
  have hworker := run_asyncWorker (.of_start h₀) h
  have hsites : (∀ site ∈ q.2.drops, site = .pullThread ∨ site = .blockingPool) ↔
      .asyncWorker ∉ q.2.drops := by
    constructor
    · intro hall hm
      simpa using hall _ hm
    · intro hn site hm
      cases site with
      | pullThread => exact .inl rfl
      | blockingPool => exact .inr rfl
      | asyncWorker => exact (hn hm).elim
  rw [hsites, hworker, hstart]
  simp only [List.not_mem_nil, false_or, not_exists, not_and, not_not]

/-- Whatever the host, the closure of a stream is dropped at most once, and exactly once by the time
the stream comes to rest; it stays off the async workers exactly when every abort of the coordinator
finds it guarded. -/
theorem pull_dropped_once_off_workers {T α : Type} [DecidableEq T] [ToString T] (schema : Schema T)
    (pull : ℕ → Outcome (RecordBatch T α) DataFusionError) (readAhead : ReadAhead)
    {p₀ p : Budget × Stream (RecordBatch T α) DataFusionError}
    {xs : List (_ × Option (Action (RecordBatch T α) DataFusionError))}
    (h₀ : (spawnChannelStream schema pull readAhead).alone.start p₀)
    (h : (spawnChannelStream schema pull readAhead).alone.Run p₀ xs p) :
    (p.2.drops.length ≤ 1 ∧
        (AtRest ⟨checkBatchSchema schema, readAhead⟩ p → p.2.drops.length = 1) ∧
        ∀ site ∈ p.2.drops, site = .pullThread ∨ site = .blockingPool) ↔
      ∀ x ∈ xs, ∀ a, x.2 = some a → Guarded x.1.2 a := by
  have hp := Component.alone_reachable_of_restrict ((System.Reachable.of_start h₀).run h)
  rw [← run_off_workers_iff h₀ (Component.alone_run_of_restrict h)]
  exact ⟨fun hall => hall.2.2, fun hoff => ⟨drops_length_le hp, drops_length_of_atRest hp, hoff⟩⟩

/-- On the blocking pool, up to the round's completion. -/
def poolRound : List (Action (RecordBatch String ℤ) DataFusionError) :=
  [.coordinator true, .coordinator false] ++ requestedRound (idPull 0) ++
    [.host, .host, .host, .host, .pending]

/-- The consumer drops the stream while the coordinator is parked. -/
theorem pull_dropped_once_off_workers_parked :
    ∃ p xs, (spawnChannelStream idSchema idPull .onDemand).alone.Run (.initial, {}) xs p ∧
      p.2.drops = [.blockingPool] ∧ ∀ x ∈ xs, ∀ a, x.2 = some a → Guarded x.1.2 a := by
  obtain ⟨p, hrun, hd⟩ : ∃ p, System.replay
      (answeringStep ⟨checkBatchSchema idSchema, .onDemand⟩ idPull)
      (poolRound ++ [.coordinator true, .coordinator true, .coordinator true, .dropReceiver,
        .dropTasks, .abort, .dispose]) (.initial, {}) = some p ∧ p.2.drops = [.blockingPool] :=
    ⟨_, rfl, rfl⟩
  obtain ⟨xs, hr, -⟩ := answering_run hrun
  have h₀ : (spawnChannelStream idSchema idPull .onDemand).alone.start (.initial, {}) := rfl
  refine ⟨p, xs, hr, hd, (pull_dropped_once_off_workers _ _ _ h₀ hr).mp ⟨?_, fun _ => ?_, ?_⟩⟩ <;>
    simp [hd]

/-- Dropped on an async worker: by an abort before the first poll, and by one that finds the output
of a finished round unread. -/
theorem pull_dropped_on_async_worker :
    (∃ p, (spawnChannelStream idSchema idPull .onDemand).alone.Reachable p ∧
      p.2.pulls = 0 ∧ p.2.drops = [.asyncWorker]) ∧
    (∃ p, (spawnChannelStream idSchema idPull .onDemand).alone.Reachable p ∧
      p.2.pulls = 1 ∧ p.2.drops = [.asyncWorker]) := by
  have hrun (as : List (Action (RecordBatch String ℤ) DataFusionError)) (n : ℕ)
      (h : ∃ p, System.replay (answeringStep ⟨checkBatchSchema idSchema, .onDemand⟩ idPull) as
        (.initial, {}) = some p ∧ p.2.pulls = n ∧ p.2.drops = [.asyncWorker]) :
      ∃ p, (spawnChannelStream idSchema idPull .onDemand).alone.Reachable p ∧
        p.2.pulls = n ∧ p.2.drops = [.asyncWorker] := by
    obtain ⟨p, hp, hd⟩ := h
    exact ⟨p, answering_reachable hp, hd⟩
  exact ⟨hrun [.dropReceiver, .dropTasks, .abort] 0 ⟨_, rfl, rfl, rfl⟩,
    hrun (poolRound ++ [.dropReceiver, .dropTasks, .abort]) 1 ⟨_, rfl, rfl, rfl⟩⟩

end XorqDatafusion.Bridge
