import XorqDatafusion.Bridge.Shape

/-! What each party of a stream can do from a shaped state, and that the shape is kept. -/
namespace XorqDatafusion.Bridge

variable {B E : Type} {c : Config B E} {b b' : Budget} {s s' : Stream B E} {r r' : Round}
  {v : Verdict} {report : Report} {o : Outcome B E} {a : Action B E}

/-- The round in progress, on whichever host it runs. -/
def Host.round : Host → Option Round
  | .affine (.draining r) _ _ | .pool (.draining r) => some r
  | _ => none

def Host.setRound (r : Round) : Host → Host
  | .affine _ mailbox done => .affine (.draining r) mailbox done
  | .pool _ => .pool (.draining r)
  | .unmade => .unmade

theorem Host.round_eq_some_iff {host : Host} :
    host.round = some r ↔
      (∃ mailbox done, host = .affine (.draining r) mailbox done) ∨ host = .pool (.draining r) := by
  constructor
  · intro h
    unfold Host.round at h
    split at h
    · cases h
      exact .inl ⟨_, _, rfl⟩
    · cases h
      exact .inr rfl
    · cases h
  · rintro (⟨mailbox, done, rfl⟩ | rfl) <;> rfl

/-- The coordinator takes back what a reported round left. -/
def Host.collect : Host → Host
  | .pool (.finished _) => .pool .absent
  | host => host

def Home.collect : Home → Home
  | .output => .guard
  | home => home

/-- What a step of the host can do. -/
inductive HostStep (c : Config B E) : Budget × Stream B E → Budget × Stream B E → Prop
  | recvInit {b : Budget} {s : Stream B E} {rest : List PullMessage} {done : Oneshot}
      (hh : s.host = .affine .recvInit (.init :: rest) done) :
      HostStep c (b, s) (b, { s with host := .affine .recvJob rest done, home := .thread })
  | recvJob {b : Budget} {s : Stream B E} {credit : Credit} {done : Oneshot}
      (hh : s.host = .affine .recvJob [.job credit] done) :
      HostStep c (b, s) (b, { s with host := .affine (.draining (.begin credit)) [] done })
  | hangUp {b : Budget} {s : Stream B E} {done : Oneshot}
      (hh : s.host = .affine .recvJob [] done) (hc : s.coord.over = true) :
      HostStep c (b, s) (b, { s with host := .affine .leaving [] done })
  | drain {b b' : Budget} {s s' : Stream B E} {r r' : Round} (hh : s.host.round = some r)
      (hd : drainBatches c b s r = some (b', s', r')) :
      HostStep c (b, s) (b', { s' with host := s.host.setRound r' })
  | report {b : Budget} {s : Stream B E} {r : Round} {done : Oneshot} {report : Report}
      (hh : s.host = .affine (.draining r) [] done) (hr : r.drain.report = some report) :
      HostStep c (b, s)
        (b.release r.credit.permits, { s with host := .affine (.reporting report) [] done })
  | announce {b : Budget} {s : Stream B E} {done : Oneshot} {report : Report}
      (hh : s.host = .affine (.reporting report) [] done) :
      HostStep c (b, s) (b, { s with
        host := .affine (if report.last then .leaving else .recvJob) [] (.sent report) })
  | leave {b : Budget} {s : Stream B E} {done : Oneshot}
      (hh : s.host = .affine .leaving [] done) :
      HostStep c (b, s) (b, { s.dropPull .pullThread with host := .affine .exiting [] done })
  | exit {b : Budget} {s : Stream B E} {done : Oneshot}
      (hh : s.host = .affine .exiting [] done) :
      HostStep c (b, s)
        ({ b with affine := b.affine + 1 }, { s with host := .affine .exited [] done })
  | start {b : Budget} {s : Stream B E} {credit : Credit} (hh : s.host = .pool (.queued credit)) :
      HostStep c (b, s) (b, { s with host := .pool (.draining (.begin credit)) })
  | complete {b : Budget} {s : Stream B E} {r : Round} {finished : Bool}
      (hh : s.host = .pool (.draining r)) (hr : r.drain.report = some (.ended finished))
      (hc : s.coord.over = false) :
      HostStep c (b, s) (b.release r.credit.permits,
        { s with home := .output, host := .pool (.finished (.ended finished)) })
  | discard {b : Budget} {s : Stream B E} {r : Round} {finished : Bool}
      (hh : s.host = .pool (.draining r)) (hr : r.drain.report = some (.ended finished))
      (hc : s.coord.over = true) :
      HostStep c (b, s) (b.release r.credit.permits,
        { s.dropPull .blockingPool with host := .pool .absent })
  | crash {b : Budget} {s : Stream B E} {r : Round} {payload : String}
      (hh : s.host = .pool (.draining r)) (hr : r.drain.report = some (.panicked payload)) :
      HostStep c (b, s) (b.release r.credit.permits,
        { s.dropPull .blockingPool with
          host := .pool (if s.coord.over then .absent else .finished (.panicked payload)) })

/-- What a step of the coordinator can do. -/
inductive CoordStep (c : Config B E) : Budget × Stream B E → Budget × Stream B E → Prop
  | noPermit {b : Budget} {s : Stream B E} (hc : s.coord = .spawned) (hh : s.host = .unmade)
      (hb : b.affine = 0) :
      CoordStep c (b, s) (b, { s with home := .guard, host := .pool .absent, coord := .tryAcquire })
  | permit {b : Budget} {s : Stream B E} (hc : s.coord = .spawned) (hh : s.host = .unmade)
      (hb : 0 < b.affine) :
      CoordStep c (b, s)
        ({ b with affine := b.affine - 1 }, { s with home := .local, coord := .spawning })
  | spawn {b : Budget} {s : Stream B E} (hc : s.coord = .spawning) (hh : s.host = .unmade) :
      CoordStep c (b, s)
        (b, { s with host := .affine .recvInit [] .waiting, coord := .sendInit })
  | spawnFails {b : Budget} {s : Stream B E} (hc : s.coord = .spawning) (hh : s.host = .unmade) :
      CoordStep c (b, s) ({ b with affine := b.affine + 1 },
        { s with home := .guard, host := .pool .absent, coord := .tryAcquire })
  | sendInit {b : Budget} {s : Stream B E} (hc : s.coord = .sendInit)
      (hh : s.host = .affine .recvInit [] .waiting) :
      CoordStep c (b, s) (b, { s with
        home := .mailbox, host := .affine .recvInit [.init] .waiting, coord := .tryAcquire })
  | grant {b : Budget} {s : Stream B E} (hc : s.coord = .tryAcquire ∨ s.coord = .acquire)
      (hd : 0 < s.demand) :
      CoordStep c (b, s)
        (b, { s with demand := s.demand - 1, coord := .reserve .demanded })
  | noDemand {b : Budget} {s : Stream B E} (hc : s.coord = .tryAcquire) (hd : s.demand = 0) :
      CoordStep c (b, s) (b, { s with coord := .trySpeculate })
  | speculate {b b' : Budget} {s : Stream B E} (hc : s.coord = .trySpeculate)
      (ht : trySpeculate b c.readAhead = some b') :
      CoordStep c (b, s) (b', { s with coord := .reserve .speculative })
  | noBudget {b : Budget} {s : Stream B E} (hc : s.coord = .trySpeculate)
      (ht : trySpeculate b c.readAhead = none) :
      CoordStep c (b, s) (b, { s with coord := .acquire })
  | closed {b : Budget} {s : Stream B E} {credit : Credit} (hc : s.coord = .reserve credit)
      (hl : s.live = false) :
      CoordStep c (b, s) (b.release credit.permits, s.finish .finished)
  | reserve {b : Budget} {s : Stream B E} {credit : Credit} (hc : s.coord = .reserve credit)
      (hl : s.live = true) (hs : 0 < s.slots) :
      CoordStep c (b, s)
        (b, { s with slots := s.slots - 1, coord := .dispatch credit })
  | dispatch {b : Budget} {s : Stream B E} {credit : Credit} {thread : Thread}
      {mailbox : List PullMessage} {done : Oneshot} (hc : s.coord = .dispatch credit)
      (hh : s.host = .affine thread mailbox done) :
      CoordStep c (b, s) (b, { s with
        host := .affine thread (mailbox ++ [.job credit]) .waiting, coord := .awaitRound })
  | dispatchPool {b : Budget} {s : Stream B E} {credit : Credit}
      (hc : s.coord = .dispatch credit) (hh : s.host = .pool .absent) (hg : s.home = .guard) :
      CoordStep c (b, s)
        (b, { s with home := .task, host := .pool (.queued credit), coord := .awaitRound })
  | collect {b : Budget} {s : Stream B E} {report : Report} (hc : s.coord = .awaitRound)
      (hr : Reported s.host s.home report) :
      CoordStep c (b, s)
        (b, afterRound { s with host := s.host.collect, home := s.home.collect } report)

/-- What the abort of the coordinator can do. -/
inductive AbortStep : Budget × Stream B E → Budget × Stream B E → Prop
  | spawned {b : Budget} {s : Stream B E} (hc : s.coord = .spawned) (hh : s.host = .unmade) :
      AbortStep (b, s) (b, { s.dropPull .asyncWorker with coord := .aborted })
  | acquire {b : Budget} {s : Stream B E} (hc : s.coord = .acquire) :
      AbortStep (b, s) (b, s.finish .aborted)
  | reserve {b : Budget} {s : Stream B E} {credit : Credit} (hc : s.coord = .reserve credit) :
      AbortStep (b, s) (b.release credit.permits, s.finish .aborted)
  | output {b : Budget} {s : Stream B E} {finished : Bool} (hc : s.coord = .awaitRound)
      (hh : s.host = .pool (.finished (.ended finished))) :
      AbortStep (b, s)
        (b, { s.dropPull .asyncWorker with host := .pool .absent, coord := .aborted })
  | crashed {b : Budget} {s : Stream B E} {payload : String} (hc : s.coord = .awaitRound)
      (hh : s.host = .pool (.finished (.panicked payload))) :
      AbortStep (b, s) (b, { s with host := .pool .absent, coord := .aborted })
  | round {b : Budget} {s : Stream B E} (hc : s.coord = .awaitRound)
      (hh : ∀ report, s.host ≠ .pool (.finished report)) :
      AbortStep (b, s) (b, s.finish .aborted)

/-- What a step of a stream can do. -/
inductive Step (c : Config B E) :
    Budget × Stream B E → Action B E → Budget × Stream B E → Prop
  | pollNext {b : Budget} {s : Stream B E} (hl : s.live = true) (hp : s.polling = false) :
      Step c (b, s) .pollNext (b, s.pollNext)
  | receive {b : Budget} {s : Stream B E} {item : Except E B} {rest : List (Except E B)}
      (hp : s.polling = true) (hc : s.chan = item :: rest) :
      Step c (b, s) .receive (b, { s with
        chan := rest
        slots := s.slots + 1
        delivered := s.delivered ++ [item]
        requested := false
        polling := false })
  | pending {b : Budget} {s : Stream B E} (hp : s.polling = true) :
      Step c (b, s) .pending (b, { s with polling := false })
  | endOfStream {b : Budget} {s : Stream B E} (hp : s.polling = true) (hc : s.chan = [])
      (hf : s.coord = .finished) :
      Step c (b, s) .endOfStream (b, { s with polling := false, ending := some .clean })
  | propagatePanic {b : Budget} {s : Stream B E} {payload : String} (hp : s.polling = true)
      (hc : s.coord = .panicked payload) :
      Step c (b, s) .propagatePanic
        (b, { s with polling := false, ending := some (.panicked payload) })
  | dropReceiver {b : Budget} {s : Stream B E} (hl : s.live = true) (hp : s.polling = false) :
      Step c (b, s) .dropReceiver
        (b, { s with live := false, chan := [], slots := s.slots + s.chan.length })
  | dropTasks {b : Budget} {s : Stream B E} (hl : s.live = false) :
      Step c (b, s) .dropTasks (b, { s with aborting := true })
  | coordinator {p q : Budget × Stream B E} {spawns : Bool} (h : CoordStep c p q) :
      Step c p (.coordinator spawns) q
  | abort {p q : Budget × Stream B E} (ha : p.2.aborting = true) (h : AbortStep p q) :
      Step c p .abort q
  | host {p q : Budget × Stream B E} (h : HostStep c p q) : Step c p .host q
  | answer {b : Budget} {s : Stream B E} {r : Round} {o : Outcome B E}
      (hh : s.host.round = some r) (hr : r.drain = .inPull) :
      Step c (b, s) (.answer o) ((pullReturned c b s r o).1,
        { (pullReturned c b s r o).2.1 with
          host := s.host.setRound (pullReturned c b s r o).2.2 })
  | dispose {b : Budget} {s : Stream B E} (hd : s.home = .disposing) :
      Step c (b, s) .dispose (b, s.dropPull .blockingPool)

/-- On either host, a round that is not over takes the next step of `drain_batches`. -/
theorem hostStep_drain (hh : s.host.round = some r) (hr : r.drain.report = none) :
    hostStep c b s = (drainBatches c b s r).map fun p =>
      (p.1, { p.2.1 with host := s.host.setRound p.2.2 }) := by
  rcases Host.round_eq_some_iff.mp hh with ⟨mailbox, done, hhost⟩ | hhost
  · simp [hostStep, hhost, runAffinePull, hr, Host.setRound]
  · simp [hostStep, hhost, poolTask, hr, Host.setRound]

theorem drain_cases (h : hostStep c b s = some (b', s')) (hh : s.host.round = some r)
    (hr : r.drain.report = none) :
    HostStep c (b, s) (b', s') ∧ s'.home = s.home ∧ ∃ r', s'.host = s.host.setRound r' ∧
      r.drain.verdict = .going ∧ r'.drain.verdict = .going := by
  simp only [hostStep_drain hh hr, Option.map_eq_some_iff, Prod.mk.injEq] at h
  obtain ⟨⟨b₁, s₁, r'⟩, hd, rfl, rfl⟩ := h
  obtain ⟨hf, hv, hv'⟩ := drainBatches_frame hd
  have hhome : s₁.home = s.home := by rw [hf]
  exact ⟨.drain hh hd, hhome, r', rfl, hv, hv'⟩

theorem Orphan.host_step (h : hostStep c b s = some (b', s')) (hc : s.coord.over = true)
    (hs : Orphan s.host s.home v) : HostStep c (b, s) (b', s') ∧ Orphan s'.host s'.home v := by
  generalize hhost : s.host = host at hs
  generalize hhome : s.home = home at hs
  have h₀ := h
  simp only [hostStep, hhost] at h
  cases hs with
  | unread done => cases h; exact ⟨.recvInit hhost, .parked done⟩
  | unreadJob credit done => cases h; exact ⟨.recvInit hhost, .posted credit done⟩
  | parked done =>
    simp only [runAffinePull, hc] at h
    cases h
    exact ⟨.hangUp hhost hc, hhome ▸ .leaving done _⟩
  | posted credit done => cases h; exact ⟨.recvJob hhost, hhome ▸ .draining (.begin credit) done⟩
  | draining r done =>
    simp only [runAffinePull] at h
    cases hr : r.drain.report with
    | some report =>
      simp only [hr] at h
      cases h
      rw [Drain.verdict_of_report hr]
      exact ⟨.report hhost hr, hhome ▸ .reporting report done⟩
    | none =>
      obtain ⟨hstep, hhome', r', hhost', hv, hv'⟩ := drain_cases h₀ (by rw [hhost]; rfl) hr
      rw [hhost', hhost, hhome', hhome, hv, ← hv']
      exact ⟨hstep, .draining r' done⟩
  | reporting report done =>
    cases h
    refine ⟨.announce hhost, ?_⟩
    rw [hhome]
    rcases report with ⟨_ | _⟩ | payload
    · exact .parked _
    · exact .leaving _ _
    · exact .leaving _ _
  | leaving done => cases h; exact ⟨.leave hhost, .exiting done _⟩
  | exiting done => cases h; exact ⟨.exit hhost, hhome ▸ .exited done _⟩
  | queued credit => cases h; exact ⟨.start hhost, hhome ▸ .pooled (.begin credit)⟩
  | pooled r =>
    simp only [poolTask] at h
    cases hr : r.drain.report with
    | some report =>
      cases report with
      | ended finished =>
        simp only [hr, hc, if_true] at h
        cases h
        exact ⟨.discard hhost hr hc, .disposed _⟩
      | panicked payload =>
        simp only [hr] at h
        cases h
        exact ⟨.crash hhost hr, by simpa [hc] using .disposed _⟩
    | none =>
      obtain ⟨hstep, hhome', r', hhost', hv, hv'⟩ := drain_cases h₀ (by rw [hhost]; rfl) hr
      rw [hhost', hhost, hhome', hhome, hv, ← hv']
      exact ⟨hstep, .pooled r'⟩
  | exited | unmade | disposing | disposed => cases h

theorem Busy.host_step (h : hostStep c b s = some (b', s')) (hc : s.coord.over = false)
    (hs : Busy s.host s.home v) : HostStep c (b, s) (b', s') ∧
      (Busy s'.host s'.home v ∨ ∃ report, Reported s'.host s'.home report ∧ v = report.verdict) := by
  generalize hhost : s.host = host at hs
  generalize hhome : s.home = home at hs
  have h₀ := h
  simp only [hostStep, hhost] at h
  cases hs with
  | unread credit => cases h; exact ⟨.recvInit hhost, .inl (.posted credit)⟩
  | posted credit =>
    cases h
    exact ⟨.recvJob hhost, .inl (hhome ▸ .draining (.begin credit))⟩
  | draining r =>
    simp only [runAffinePull] at h
    cases hr : r.drain.report with
    | some report =>
      simp only [hr] at h
      cases h
      rw [Drain.verdict_of_report hr]
      exact ⟨.report hhost hr, .inl (hhome ▸ .reporting report)⟩
    | none =>
      obtain ⟨hstep, hhome', r', hhost', hv, hv'⟩ := drain_cases h₀ (by rw [hhost]; rfl) hr
      rw [hhost', hhost, hhome', hhome, hv, ← hv']
      exact ⟨hstep, .inl (.draining r')⟩
  | reporting report =>
    cases h
    refine ⟨.announce hhost, .inr ⟨report, ?_, rfl⟩⟩
    rw [hhome]
    rcases report with ⟨_ | _⟩ | payload
    · exact .parked
    · exact .leaving _ rfl
    · exact .leaving _ rfl
  | queued credit => cases h; exact ⟨.start hhost, .inl (hhome ▸ .pooled (.begin credit))⟩
  | pooled r =>
    simp only [poolTask] at h
    cases hr : r.drain.report with
    | some report =>
      rw [Drain.verdict_of_report hr]
      cases report with
      | ended finished =>
        simp only [hr, hc] at h
        cases h
        exact ⟨.complete hhost hr hc, .inr ⟨_, .output finished, rfl⟩⟩
      | panicked payload =>
        simp only [hr] at h
        cases h
        exact ⟨.crash hhost hr, .inr ⟨_, by simpa [hc] using .crashed payload, rfl⟩⟩
    | none =>
      obtain ⟨hstep, hhome', r', hhost', hv, hv'⟩ := drain_cases h₀ (by rw [hhost]; rfl) hr
      rw [hhost', hhost, hhome', hhome, hv, ← hv']
      exact ⟨hstep, .inl (.pooled r')⟩

theorem Reported.host_step (h : hostStep c b s = some (b', s')) (hc : s.coord.over = false)
    (hs : Reported s.host s.home report) :
    HostStep c (b, s) (b', s') ∧ Reported s'.host s'.home report := by
  generalize hhost : s.host = host at hs
  generalize hhome : s.home = home at hs
  have h₀ := h
  simp only [hostStep, hhost] at h
  cases hs with
  | parked => simp [runAffinePull, hc] at h
  | leaving report hl => cases h; exact ⟨.leave hhost, .exiting report hl⟩
  | exiting report hl => cases h; exact ⟨.exit hhost, hhome ▸ .exited report hl⟩
  | exited | output | crashed => cases h

theorem Idle.host_step (h : hostStep c b s = some (b', s')) (hc : s.coord.over = false)
    (hs : Idle s.host s.home) : HostStep c (b, s) (b', s') ∧ Idle s'.host s'.home := by
  generalize hhost : s.host = host at hs
  generalize hhome : s.home = home at hs
  have h₀ := h
  simp only [hostStep, hhost] at h
  cases hs with
  | unread done => cases h; exact ⟨.recvInit hhost, .parked done⟩
  | parked done => simp [runAffinePull, hc] at h
  | pool => cases h

theorem Idle.orphan (h : Idle s.host s.home) (coord : Coord) :
    Orphan (s.finish coord).host (s.finish coord).home .going := by
  obtain ⟨⟩ := s
  cases h with
  | unread done => exact .unread done
  | parked done => exact .parked done
  | pool => exact .disposing _

theorem Busy.orphan (h : Busy s.host s.home v) (coord : Coord) :
    Orphan (s.finish coord).host (s.finish coord).home v := by
  obtain ⟨⟩ := s
  cases h with
  | unread credit => exact .unreadJob credit _
  | posted credit => exact .posted credit _
  | draining r => exact .draining r _
  | reporting report => exact .reporting report _
  | queued credit => exact .queued credit
  | pooled r => exact .pooled r

/-- A reported round always answers the coordinator, and never through a lost report. -/
theorem finishRound_eq (h : Reported s.host s.home report) :
    finishRound s =
      some (afterRound { s with host := s.host.collect, home := s.home.collect } report) := by
  obtain ⟨⟩ := s
  cases h <;> rfl

theorem finishRound_busy (h : Busy s.host s.home v) : finishRound s = none := by
  obtain ⟨⟩ := s
  cases h <;> rfl

theorem Reported.afterRound (h : Reported s.host s.home report) :
    let s' := afterRound { s with host := s.host.collect, home := s.home.collect } report
    ShapeAt s'.live s'.host s'.home report.verdict s'.coord := by
  obtain ⟨⟩ := s
  cases h with
  | parked => exact ⟨.parked _, rfl⟩
  | leaving report hl | exiting report hl | exited report hl =>
    rcases report with ⟨_ | _⟩ | payload
    · cases hl
    · exact ⟨by constructor, fun _ => rfl⟩
    · exact ⟨by constructor, rfl⟩
  | output finished =>
    cases finished with
    | false => exact ⟨.pool, rfl⟩
    | true => exact ⟨.disposing _, fun _ => rfl⟩
  | crashed payload => exact ⟨.disposed _, rfl⟩

/-- A round is handed to a host that waits for one. -/
theorem Idle.startRound {credit : Credit} (h : startRound b s credit = some (b', s'))
    (hc : s.coord = .dispatch credit) (hi : Idle s.host s.home) :
    CoordStep c (b, s) (b', s') ∧ ShapeAt s'.live s'.host s'.home .going s'.coord := by
  generalize hhost : s.host = host at hi
  generalize hhome : s.home = home at hi
  cases hi with
  | unread done =>
    simp only [Bridge.startRound, hhost] at h
    cases h
    exact ⟨.dispatch hc hhost, .inl (hhome ▸ .unread credit)⟩
  | parked done =>
    simp only [Bridge.startRound, hhost] at h
    cases h
    exact ⟨.dispatch hc hhost, .inl (hhome ▸ .posted credit)⟩
  | pool =>
    simp only [Bridge.startRound, hhost, hhome] at h
    cases h
    exact ⟨.dispatchPool hc hhost hhome, .inl (.queued credit)⟩

theorem coordinator_step {spawns : Bool} (h : coordinator c spawns b s = some (b', s'))
    (hs : ShapeAt s.live s.host s.home v s.coord) :
    CoordStep c (b, s) (b', s') ∧ ShapeAt s'.live s'.host s'.home v s'.coord := by
  cases hc : s.coord with
  | spawned =>
    simp only [hc] at hs
    obtain ⟨hh, -, rfl⟩ := hs
    simp only [coordinator, hc, hostNew] at h
    split at h
    · cases h
      exact ⟨.permit hc hh ‹_›, hh, rfl, rfl⟩
    · cases h
      exact ⟨.noPermit hc hh (by omega), .pool, rfl⟩
  | spawning =>
    simp only [hc] at hs
    obtain ⟨hh, hhome, rfl⟩ := hs
    simp only [coordinator, hc] at h
    split at h
    · cases h
      exact ⟨.spawn hc hh, rfl, hhome, rfl⟩
    · cases h
      exact ⟨.spawnFails hc hh, .pool, rfl⟩
  | sendInit =>
    simp only [hc] at hs
    obtain ⟨hh, -, rfl⟩ := hs
    simp only [coordinator, hc, hh] at h
    cases h
    exact ⟨.sendInit hc hh, .unread _, rfl⟩
  | tryAcquire =>
    simp only [hc] at hs
    simp only [coordinator, hc] at h
    split at h
    · cases h
      exact ⟨.grant (.inl hc) ‹_›, hs⟩
    · cases h
      exact ⟨.noDemand hc (by omega), hs⟩
  | trySpeculate =>
    simp only [hc] at hs
    simp only [coordinator, hc] at h
    split at h
    · cases h
      exact ⟨.speculate hc ‹_›, hs⟩
    · cases h
      exact ⟨.noBudget hc ‹_›, hs⟩
  | acquire =>
    simp only [hc] at hs
    simp only [coordinator, hc] at h
    split at h
    · cases h
      exact ⟨.grant (.inr hc) ‹_›, hs⟩
    · cases h
  | reserve credit =>
    simp only [hc] at hs
    obtain ⟨hi, rfl⟩ := hs
    simp only [coordinator, hc] at h
    split at h
    · rename_i hl
      cases h
      exact ⟨.closed hc hl, hi.orphan _, fun hl' => by simp [Stream.finish, Stream.dropHost, hl] at hl'⟩
    · split at h
      · cases h
        exact ⟨.reserve hc (by simpa using ‹¬s.live = false›) ‹_›, hi, rfl⟩
      · cases h
  | dispatch credit =>
    simp only [hc] at hs
    obtain ⟨hi, rfl⟩ := hs
    simp only [coordinator, hc] at h
    exact hi.startRound h hc
  | awaitRound =>
    simp only [hc] at hs
    simp only [coordinator, hc, Option.map_eq_some_iff] at h
    obtain ⟨s₁, h, heq⟩ := h
    cases heq
    rcases hs with hs | ⟨report, hs, rfl⟩
    · simp [finishRound_busy hs] at h
    · rw [finishRound_eq hs] at h
      cases h
      exact ⟨.collect hc hs, hs.afterRound⟩
  | finished | panicked | aborted => simp [coordinator, hc] at h

theorem Busy.not_finished (h : Busy s.host s.home v) : s.host ≠ .pool (.finished report) := by
  intro hh
  rw [hh] at h
  cases h

theorem abort_step (h : abort b s = some (b', s'))
    (hs : ShapeAt s.live s.host s.home v s.coord) (hl : s.live = false) :
    AbortStep (b, s) (b', s') ∧ ShapeAt s'.live s'.host s'.home v s'.coord := by
  unfold abort at h
  split at h
  · cases hc : s.coord with
    | spawned =>
      simp only [hc] at h hs
      cases h
      obtain ⟨hh, -, -⟩ := hs
      have ho : Orphan s.host .dropped v := hh ▸ .unmade v
      exact ⟨.spawned hc hh, ho, hl⟩
    | acquire =>
      simp only [hc] at h hs
      cases h
      obtain ⟨hi, rfl⟩ := hs
      exact ⟨.acquire hc, hi.orphan _, hl⟩
    | reserve credit =>
      simp only [hc] at h hs
      cases h
      obtain ⟨hi, rfl⟩ := hs
      exact ⟨.reserve hc, hi.orphan _, hl⟩
    | awaitRound =>
      simp only [hc] at h hs
      rcases hs with hs | ⟨report, hs, rfl⟩
      · have hn : ∀ report, s.host ≠ .pool (.finished report) := fun _ => hs.not_finished
        split at h
        · exact (hn _ ‹_›).elim
        · exact (hn _ ‹_›).elim
        · cases h
          exact ⟨.round hc hn, hs.orphan _, hl⟩
      · obtain ⟨⟩ := s
        cases hs with
        | parked => cases h; exact ⟨.round hc nofun, .parked _, hl⟩
        | leaving => cases h; exact ⟨.round hc nofun, .leaving _ _, hl⟩
        | exiting => cases h; exact ⟨.round hc nofun, .exiting _ _, hl⟩
        | exited => cases h; exact ⟨.round hc nofun, .exited _ _, hl⟩
        | output => cases h; exact ⟨.output hc rfl, .disposed _, hl⟩
        | crashed => cases h; exact ⟨.crashed hc rfl, .disposed _, hl⟩
    | _ => simp [hc] at h
  · cases h

/-- A round in the middle of its work may go anywhere its new verdict allows. -/
theorem ShapeAt.setRound {live : Bool} {host : Host} {home : Home} {coord : Coord}
    (hs : ShapeAt live host home v coord) (hr : host.round = some r)
    (hg : r.drain.verdict = .going) :
    v = .going ∧ ∀ r', ShapeAt live (host.setRound r') home r'.drain.verdict coord := by
  have hbusy (hb : Busy host home v) :
      v = .going ∧ ∀ r', Busy (host.setRound r') home r'.drain.verdict := by
    cases hb with
    | draining => cases hr; exact ⟨hg, fun r' => .draining r'⟩
    | pooled => cases hr; exact ⟨hg, fun r' => .pooled r'⟩
    | _ => cases hr
  have horphan (ho : Orphan host home v) :
      v = .going ∧ ∀ r', Orphan (host.setRound r') home r'.drain.verdict := by
    cases ho with
    | draining => cases hr; exact ⟨hg, fun r' => .draining r' _⟩
    | pooled => cases hr; exact ⟨hg, fun r' => .pooled r'⟩
    | _ => cases hr
  cases coord with
  | awaitRound =>
    rcases hs with hs | ⟨report, hs, -⟩
    · obtain ⟨hv, hs'⟩ := hbusy hs
      exact ⟨hv, fun r' => .inl (hs' r')⟩
    · cases hs <;> cases hr
  | finished =>
    obtain ⟨hv, hs'⟩ := horphan hs.1
    exact ⟨hv, fun r' => ⟨hs' r', fun hl => absurd (hs.2 hl) (by simp [hv])⟩⟩
  | panicked payload =>
    obtain ⟨hv, -⟩ := horphan hs.1
    simp [hs.2] at hv
  | aborted =>
    obtain ⟨hv, hs'⟩ := horphan hs.1
    exact ⟨hv, fun r' => ⟨hs' r', hs.2⟩⟩
  | spawned | spawning | sendInit => obtain ⟨rfl, -⟩ := hs; cases hr
  | _ => obtain ⟨hs, -⟩ := hs; cases hs <;> cases hr

theorem answer_cases (h : answer c o b s = some (b', s')) :
    ∃ r, s.host.round = some r ∧ r.drain = .inPull ∧ b' = (pullReturned c b s r o).1 ∧
      s' = { (pullReturned c b s r o).2.1 with
        host := s.host.setRound (pullReturned c b s r o).2.2 } := by
  unfold answer at h
  split at h
  · rename_i r mailbox done hh
    split at h
    · cases h
      exact ⟨r, by rw [hh]; rfl, ‹_›, rfl, by rw [hh]; rfl⟩
    · cases h
  · rename_i r hh
    split at h
    · cases h
      exact ⟨r, by rw [hh]; rfl, ‹_›, rfl, by rw [hh]; rfl⟩
    · cases h
  · cases h

/-- A pull in progress belongs to a round handed over before, and its answer settles the shape. -/
theorem answer_step (h : answer c o b s = some (b', s'))
    (hs : ShapeAt s.live s.host s.home v s.coord) :
    Step c (b, s) (.answer o) (b', s') ∧ v = .going ∧
      ShapeAt s'.live s'.host s'.home (o.verdict c.check) s'.coord := by
  obtain ⟨r, hr, hd, rfl, rfl⟩ := answer_cases h
  obtain ⟨hv, hs'⟩ := hs.setRound hr (by simp [hd, Drain.verdict])
  refine ⟨.answer hr hd, hv, ?_⟩
  rw [← pullReturned_verdict c b s r o, pullReturned_frame]
  exact hs' _

theorem dispose_step (hd : s.home = .disposing) (hs : ShapeAt s.live s.host s.home v s.coord) :
    ShapeAt s.live s.host .dropped v s.coord := by
  rw [hd] at hs
  generalize s.host = host at hs ⊢
  have horphan (ho : Orphan host .disposing v) : Orphan host .dropped v := by
    cases ho with
    | disposing => exact .disposed v
  cases hc : s.coord with
  | finished | panicked | aborted =>
    simp only [hc] at hs
    exact ⟨horphan hs.1, hs.2⟩
  | spawned | spawning | sendInit => simp [ShapeAt, hc] at hs
  | awaitRound =>
    simp only [hc] at hs
    rcases hs with hs | ⟨report, hs, -⟩ <;> cases hs
  | _ =>
    simp only [hc] at hs
    cases hs.1

theorem ShapeAt.dropReceiver {live : Bool} {host : Host} {home : Home} {coord : Coord}
    (hs : ShapeAt live host home v coord) : ShapeAt false host home v coord := by
  cases coord with
  | finished => exact ⟨hs.1, nofun⟩
  | aborted => exact ⟨hs.1, rfl⟩
  | _ => exact hs

theorem host_step (h : hostStep c b s = some (b', s'))
    (hs : ShapeAt s.live s.host s.home v s.coord) :
    HostStep c (b, s) (b', s') ∧ ShapeAt s.live s'.host s'.home v s.coord := by
  cases hc : s.coord with
  | spawned | spawning =>
    simp only [hc] at hs
    simp [hostStep, hs.1] at h
  | sendInit =>
    simp only [hc] at hs
    simp [hostStep, runAffinePull, hs.1, hc, Coord.over] at h
  | awaitRound =>
    simp only [hc] at hs
    rcases hs with hs | ⟨report, hs, rfl⟩
    · exact hs.host_step h (by rw [hc]; rfl)
    · obtain ⟨hstep, hs'⟩ := hs.host_step h (by rw [hc]; rfl)
      exact ⟨hstep, .inr ⟨report, hs', rfl⟩⟩
  | finished | panicked | aborted =>
    simp only [hc] at hs
    obtain ⟨hstep, hs'⟩ := hs.1.host_step h (by rw [hc]; rfl)
    exact ⟨hstep, hs', hs.2⟩
  | _ =>
    simp only [hc] at hs
    obtain ⟨hstep, hs'⟩ := hs.1.host_step h (by rw [hc]; rfl)
    exact ⟨hstep, hs', hs.2⟩

/-- A step of the host leaves the consumer, the channel and the coordinator alone, but for the
slots, the demand and the items its pulls use. -/
theorem HostStep.frame {p q : Budget × Stream B E} (h : HostStep c p q) :
    q.2 = { p.2 with
      pulls := q.2.pulls, demand := q.2.demand, slots := q.2.slots
      host := q.2.host, home := q.2.home, drops := q.2.drops } := by
  cases h with
  | drain hh hd => rw [(drainBatches_frame hd).1]
  | _ => rfl

theorem CoordStep.frame {p q : Budget × Stream B E} (h : CoordStep c p q) :
    q.2 = { p.2 with
      demand := q.2.demand, slots := q.2.slots
      coord := q.2.coord, host := q.2.host, home := q.2.home } := by
  cases h with
  | @collect _ _ report => rcases report with ⟨_ | _⟩ | _ <;> rfl
  | _ => rfl

theorem AbortStep.frame {p q : Budget × Stream B E} (h : AbortStep p q) :
    q.2 = { p.2 with
      coord := q.2.coord, host := q.2.host, home := q.2.home, drops := q.2.drops } := by
  cases h <;> rfl

theorem Stream.pollNext_frame (s : Stream B E) :
    s.pollNext = { s with
      polling := true
      requested := true
      demand := s.pollNext.demand
      requests := s.pollNext.requests } := by
  cases hr : s.requested <;> simp [Stream.pollNext, hr]

/-- From a shaped state, a step does one of the things listed, and the shape is kept. -/
theorem step_cases (hs : Shaped c s) (h : step c a (b, s) = some (b', s')) :
    Step c (b, s) a (b', s') ∧ Shaped c s' := by
  obtain ⟨ha, hat⟩ := hs
  cases a with
  | pollNext =>
    simp only [step] at h
    split at h
    · cases h
      refine ⟨.pollNext (‹_ ∧ _›).1 (‹_ ∧ _›).2, ?_⟩
      rw [Stream.pollNext_frame]
      exact ⟨ha, hat⟩
    · cases h
  | receive =>
    simp only [step] at h
    split at h
    · split at h
      · cases h
        exact ⟨.receive ‹_› ‹_›, ha, hat⟩
      · cases h
    · cases h
  | pending =>
    simp only [step] at h
    split at h
    · cases h
      exact ⟨.pending ‹_›, ha, hat⟩
    · cases h
  | endOfStream =>
    simp only [step] at h
    split at h
    · rename_i hg
      cases h
      exact ⟨.endOfStream hg.1 hg.2.1 hg.2.2.1, ha, hat⟩
    · cases h
  | propagatePanic =>
    simp only [step] at h
    split at h
    · split at h
      · cases h
        exact ⟨.propagatePanic ‹_› ‹_›, ha, hat⟩
      · cases h
    · cases h
  | dropReceiver =>
    simp only [step] at h
    split at h
    · rename_i hg
      cases h
      exact ⟨.dropReceiver hg.1 hg.2, fun _ => rfl, hat.dropReceiver⟩
    · cases h
  | dropTasks =>
    simp only [step] at h
    split at h
    · rename_i hl
      cases h
      exact ⟨.dropTasks hl, fun _ => hl, hat⟩
    · cases h
  | coordinator spawns =>
    obtain ⟨hstep, hat'⟩ := coordinator_step h hat
    have hf : s' = _ := hstep.frame
    have hans : s'.answers = s.answers := by rw [hf]
    exact ⟨.coordinator hstep, by rw [hf]; exact ha, by rw [hans]; exact hat'⟩
  | abort =>
    have hab : s.aborting = true := by
      simp only [step, abort] at h
      split at h
      · assumption
      · cases h
    obtain ⟨hstep, hat'⟩ := abort_step h hat (ha hab)
    have hf : s' = _ := hstep.frame
    have hans : s'.answers = s.answers := by rw [hf]
    exact ⟨.abort hab hstep, by rw [hf]; exact ha, by rw [hans]; exact hat'⟩
  | host =>
    obtain ⟨hstep, hat'⟩ := host_step h hat
    have hf : s' = _ := hstep.frame
    have hans : s'.answers = s.answers := by rw [hf]
    have hlive : s'.live = s.live := by rw [hf]
    have hcoord : s'.coord = s.coord := by rw [hf]
    exact ⟨.host hstep, by rw [hf]; exact ha, by rw [hans, hlive, hcoord]; exact hat'⟩
  | answer o =>
    obtain ⟨hstep, hgoing, hat'⟩ := answer_step h hat
    obtain ⟨r, -, -, -, hs'⟩ := answer_cases h
    have hans : s'.answers = s.answers ++ [o] := by rw [hs', pullReturned_frame]
    refine ⟨hstep, by rw [hs', pullReturned_frame]; exact ha, ?_⟩
    rw [hans, verdict_append_of_going hgoing, verdict_singleton]
    exact hat'
  | dispose =>
    simp only [step] at h
    split at h
    · cases h
      rename_i hd
      exact ⟨.dispose hd, ha, dispose_step (s := s) hd hat⟩
    · cases h

end XorqDatafusion.Bridge
