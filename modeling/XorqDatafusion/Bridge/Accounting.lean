import XorqDatafusion.Bridge.Process

/-! Where slots, credits and permits are: nothing a stream takes is lost or spent twice. -/
namespace XorqDatafusion.Bridge

open Transition

variable {B E : Type} {c : Config B E} {b b' : Budget} {s s' : Stream B E} {r r' : Round}
  {host : Host} {p q : Budget × Stream B E} {a : Action B E} {report : Report}

/-- Channel slots a round holds. -/
def Drain.slots : Drain → ℕ
  | .call | .inPull | .reserved | .noDemand => 1
  | .sent | .returned _ | .panicked _ => 0

/-- Credits a round holds for a pull it has not started. -/
def Drain.pending : Drain → ℕ
  | .call => 1
  | _ => 0

def Drain.calls : Drain → ℕ
  | .inPull => 1
  | _ => 0

def PullMessage.tally (job : Credit → ℕ) : PullMessage → ℕ
  | .init => 0
  | .job credit => job credit

/-- What a host holds, counted over the job not begun and the round in progress. -/
def Host.tally (job : Credit → ℕ) (round : Round → ℕ) : Host → ℕ
  | .affine (.draining r) mailbox _ => (mailbox.map (PullMessage.tally job)).sum + round r
  | .affine _ mailbox _ => (mailbox.map (PullMessage.tally job)).sum
  | .pool (.queued credit) => job credit
  | .pool (.draining r) => round r
  | _ => 0

def Coord.tally (reserve job : Credit → ℕ) : Coord → ℕ
  | .reserve credit => reserve credit
  | .dispatch credit => job credit
  | _ => 0

namespace Stream

/-- Speculation permits the stream holds. -/
def permits (s : Stream B E) : ℕ :=
  s.coord.tally Credit.permits Credit.permits + s.host.tally Credit.permits Round.permits

def heldSlots (s : Stream B E) : ℕ :=
  s.coord.tally (fun _ => 0) (fun _ => 1) + s.host.tally (fun _ => 1) (·.drain.slots)

/-- Credits taken for pulls that have not started. -/
def pending (s : Stream B E) : ℕ :=
  s.coord.tally (fun _ => 1) (fun _ => 1) + s.host.tally (fun _ => 1) (·.drain.pending)

def calls (s : Stream B E) : ℕ := s.host.tally (fun _ => 0) (·.drain.calls)

end Stream

theorem Host.tally_setRound (job : Credit → ℕ) (round : Round → ℕ) (r' : Round)
    (h : host.round = some r) :
    (host.setRound r').tally job round + round r = host.tally job round + round r' := by
  rcases Host.round_eq_some_iff.mp h with ⟨mailbox, done, rfl⟩ | rfl
  · simp only [Host.setRound, Host.tally]
    omega
  · simp only [Host.setRound, Host.tally]
    omega

theorem trySpeculate_eq_some {readAhead : ReadAhead} (h : trySpeculate b readAhead = some b') :
    readAhead = .buffered ∧ b'.speculation + 1 = b.speculation := by
  cases readAhead with
  | onDemand => cases h
  | buffered =>
    simp only [trySpeculate] at h
    split at h
    · cases h
      exact ⟨rfl, Nat.sub_add_cancel ‹_›⟩
    · cases h

theorem Drain.counts_of_report {d : Drain} (h : d.report = some report) :
    d.slots = 0 ∧ d.pending = 0 ∧ d.calls = 0 := by
  cases d <;> first | exact ⟨rfl, rfl, rfl⟩ | cases h

/-- What a step of `drain_batches` moves between the stream, the budget and the round. -/
structure DrainCounts (c : Config B E) (b b' : Budget) (s s' : Stream B E) (r r' : Round) :
    Prop where
  permits : b'.speculation + r'.permits = b.speculation + r.permits
  slots : s'.slots + r'.drain.slots = s.slots + r.drain.slots
  calls : s'.pulls + r.drain.calls = s.pulls + r'.drain.calls
  owed : s.demand + s.pulls + r.drain.pending ≤ s'.demand + s'.pulls + r'.drain.pending
  onDemand : c.readAhead = .onDemand →
    s'.demand + s'.pulls + r'.drain.pending = s.demand + s.pulls + r.drain.pending

theorem drainBatches_counts (h : drainBatches c b s r = some (b', s', r')) :
    DrainCounts c b b' s s' r r' := by
  revert h
  fun_cases drainBatches c b s r with
  | case1 hd =>
    intro h
    cases h
    constructor <;> simp [hd, Round.permits, Drain.slots, Drain.calls, Drain.pending]
    all_goals omega
  | case2 hd hl =>
    intro h
    cases h
    constructor <;> simp [hd, Round.permits, Drain.slots, Drain.calls, Drain.pending]
    omega
  | case3 hd hl =>
    intro h
    cases h
    constructor <;>
      simp [hd, Round.permits, Drain.slots, Drain.calls, Drain.pending, Budget.release]
    omega
  | case4 hd hp =>
    intro h
    cases h
    constructor <;> simp [hd, Round.permits, Drain.slots, Drain.calls, Drain.pending] <;> omega
  | case5 hd hp =>
    intro h
    cases h
    constructor <;> simp [hd, Round.permits, Drain.slots, Drain.calls, Drain.pending]
  | case6 hd b₁ ht =>
    intro h
    cases h
    obtain ⟨hra, hb⟩ := trySpeculate_eq_some ht
    constructor <;> simp [hd, Round.permits, Drain.slots, Drain.calls, Drain.pending, hra]
    omega
  | case7 hd ht =>
    intro h
    cases h
    constructor <;>
      simp [hd, Round.permits, Drain.slots, Drain.calls, Drain.pending, Budget.release]
    omega
  | case8 | case9 | case10 =>
    intro h
    cases h

/-- What the answer of a pull moves. -/
theorem pullReturned_counts (c : Config B E) (b : Budget) (s : Stream B E) (r : Round)
    (o : Outcome B E) :
    let p := pullReturned c b s r o
    p.1.speculation + p.2.2.permits = b.speculation + r.permits ∧
      p.2.1.slots + p.2.1.chan.length + p.2.2.drain.slots = s.slots + s.chan.length + 1 ∧
      p.2.1.chan.length ≤ s.chan.length + 1 ∧ p.2.2.drain.pending = 0 ∧ p.2.2.drain.calls = 0 := by
  cases o with
  | batch batch =>
    cases hc : c.check batch <;> cases hl : s.live <;>
      simp [pullReturned, Stream.send, hc, hl, Budget.release, Round.permits, Drain.slots,
        Drain.pending, Drain.calls] <;> omega
  | error e =>
    cases hl : s.live <;>
      simp [pullReturned, Stream.send, hl, Budget.release, Round.permits, Drain.slots,
        Drain.pending, Drain.calls] <;> omega
  | done | panic payload =>
    simp [pullReturned, Budget.release, Round.permits, Drain.slots, Drain.pending, Drain.calls]
    omega

/-- What a step moves. -/
structure StepCounts (c : Config B E) (p q : Budget × Stream B E) : Prop where
  permits : q.1.speculation + q.2.permits = p.1.speculation + p.2.permits
  slots : q.2.slots + q.2.chan.length + q.2.heldSlots =
    p.2.slots + p.2.chan.length + p.2.heldSlots
  calls : q.2.pulls + p.2.answers.length + p.2.calls =
    p.2.pulls + q.2.answers.length + q.2.calls
  sent : q.2.delivered.length + q.2.chan.length + p.2.answers.length ≤
    p.2.delivered.length + p.2.chan.length + q.2.answers.length
  alive : q.2.coord.over = false → p.2.coord.over = false
  owed : q.2.coord.over = false →
    q.2.requests + p.2.demand + p.2.pulls + p.2.pending ≤
      p.2.requests + q.2.demand + q.2.pulls + q.2.pending
  onDemand : c.readAhead = .onDemand →
    q.2.demand + q.2.pulls + q.2.pending + p.2.requests ≤
      p.2.demand + p.2.pulls + p.2.pending + q.2.requests

/-- A reported round holds nothing any more, before or after the coordinator takes its report. -/
theorem Reported.tally {home : Home} (h : Reported host home report) (job : Credit → ℕ)
    (round : Round → ℕ) : host.tally job round = 0 ∧ host.collect.tally job round = 0 := by
  cases h <;> exact ⟨rfl, rfl⟩

theorem CoordStep.counts (h : CoordStep c p q) : StepCounts c p q := by
  cases h with
  | speculate hc ht =>
    obtain ⟨hra, hb⟩ := trySpeculate_eq_some ht
    constructor <;> simp [Stream.permits, Stream.heldSlots, Stream.calls, Stream.pending,
      Coord.tally, Coord.over, Credit.permits, hc, hra]
    omega
  | grant hc hd =>
    rcases hc with hc | hc <;> constructor <;>
      simp [Stream.permits, Stream.heldSlots, Stream.calls, Stream.pending, Coord.tally, Coord.over,
        Credit.permits, hc] <;> omega
  | permit hc | noDemand hc | noBudget hc | reserve hc | closed hc =>
    constructor <;> simp [Stream.permits, Stream.heldSlots, Stream.calls, Stream.pending,
      Stream.finish, Stream.dropHost, Budget.release, Coord.tally, Coord.over, hc] <;> omega
  | noPermit hc hh | spawn hc hh | spawnFails hc hh | sendInit hc hh | dispatchPool hc hh =>
    constructor <;> simp [Stream.permits, Stream.heldSlots, Stream.calls, Stream.pending,
      Coord.tally, Coord.over, Host.tally, PullMessage.tally, hc, hh]
  | @dispatch _ _ _ thread _ _ hc hh =>
    cases thread <;> constructor <;>
      simp [Stream.permits, Stream.heldSlots, Stream.calls, Stream.pending, Coord.tally, Coord.over,
        Host.tally, PullMessage.tally, hc, hh] <;> omega
  | @collect _ _ report hc hr =>
    have ht := hr.tally
    rcases report with ⟨_ | _⟩ | payload <;> constructor <;>
      simp [afterRound, Stream.permits, Stream.heldSlots, Stream.calls, Stream.pending,
        Stream.finish, Stream.dropHost, Coord.tally, Coord.over, hc, ht]

theorem AbortStep.counts (h : AbortStep p q) : StepCounts c p q := by
  cases h with
  | spawned hc hh | output hc hh | crashed hc hh =>
    constructor <;> simp [Stream.permits, Stream.heldSlots, Stream.calls, Stream.pending,
      Stream.dropPull, Coord.tally, Coord.over, Host.tally, hc, hh]
  | acquire hc | round hc =>
    constructor <;> simp [Stream.permits, Stream.heldSlots, Stream.calls, Stream.pending,
      Stream.finish, Stream.dropHost, Coord.tally, Coord.over, hc]
  | reserve hc =>
    constructor <;> simp [Stream.permits, Stream.heldSlots, Stream.calls, Stream.pending,
      Stream.finish, Stream.dropHost, Budget.release, Coord.tally, Coord.over, hc]
    omega

/-- A step of a round moves what `drain_batches` moves. -/
theorem drain_counts (hh : s.host.round = some r)
    (hd : drainBatches c b s r = some (b', s', r')) :
    StepCounts c (b, s) (b', { s' with host := s.host.setRound r' }) := by
  have hf := (drainBatches_frame hd).1
  obtain ⟨hpermits, hslots, hcalls, howed, hdemand⟩ := drainBatches_counts hd
  have hcoord : s'.coord = s.coord := by rw [hf]
  have hchan : s'.chan = s.chan := by rw [hf]
  have hans : s'.answers = s.answers := by rw [hf]
  have hreq : s'.requests = s.requests := by rw [hf]
  have hdel : s'.delivered = s.delivered := by rw [hf]
  constructor
  · have hheld := Host.tally_setRound Credit.permits Round.permits r' hh
    simp only [Stream.permits, hcoord]
    omega
  · have hheld := Host.tally_setRound (fun _ => 1) (·.drain.slots) r' hh
    simp only [Stream.heldSlots, hcoord, hchan]
    omega
  · have hheld := Host.tally_setRound (fun _ => 0) (·.drain.calls) r' hh
    simp only [Stream.calls, hans]
    omega
  · simp [hdel, hchan, hans]
  · simp [hcoord]
  · have hheld := Host.tally_setRound (fun _ => 1) (·.drain.pending) r' hh
    simp only [Stream.pending, hcoord, hreq]
    omega
  · have hheld := Host.tally_setRound (fun _ => 1) (·.drain.pending) r' hh
    intro hra
    have heq := hdemand hra
    simp only [Stream.pending, hcoord, hreq]
    omega

/-- A round that is over has given back the credits it drew. -/
def Settled (host : Host) : Prop :=
  ∀ r, host.round = some r → r.drain.report ≠ none → r.credits = 0

theorem HostStep.counts (hs : Settled p.2.host) (h : HostStep c p q) : StepCounts c p q := by
  cases h with
  | recvInit hh | recvJob hh | hangUp hh | leave hh | exit hh | start hh =>
    constructor <;> simp [Stream.permits, Stream.heldSlots, Stream.calls, Stream.pending,
      Stream.dropPull, Round.begin, Round.permits, Drain.slots, Drain.pending, Drain.calls,
      Host.tally, PullMessage.tally, hh]
  | @announce _ _ _ report hh =>
    cases hl : report.last <;> constructor <;> simp [Stream.permits, Stream.heldSlots, Stream.calls,
      Stream.pending, Host.tally, hh]
  | drain hh hd => exact drain_counts hh hd
  | report hh hr | complete hh hr | discard hh hr =>
    obtain ⟨hslots, hpending, hcalls⟩ := Drain.counts_of_report hr
    have hcredits := hs _ (by rw [hh]; rfl) (by simp [hr])
    constructor <;> simp [Stream.permits, Stream.heldSlots, Stream.calls, Stream.pending,
      Stream.dropPull, Budget.release, Host.tally, Round.permits, hh, hslots, hpending, hcalls,
      hcredits]
    omega
  | crash hh hr =>
    obtain ⟨hslots, hpending, hcalls⟩ := Drain.counts_of_report hr
    have hcredits := hs _ (by rw [hh]; rfl) (by simp [hr])
    cases hc : Coord.over _ <;> constructor <;> simp [Stream.permits, Stream.heldSlots,
      Stream.calls, Stream.pending, Stream.dropPull, Budget.release, Host.tally, Round.permits, hh,
      hslots, hpending, hcalls, hcredits, hc] <;> omega

/-- The answer of a pull moves its slot to what is sent, and ends the call. -/
theorem answer_counts {o : Outcome B E} (hh : s.host.round = some r) (hr : r.drain = .inPull) :
    StepCounts c (b, s) ((pullReturned c b s r o).1,
      { (pullReturned c b s r o).2.1 with
        host := s.host.setRound (pullReturned c b s r o).2.2 }) := by
  obtain ⟨hpermits, hslots, hsent, hpending, hcalls⟩ := pullReturned_counts c b s r o
  have hf := pullReturned_frame c b s r o
  generalize pullReturned c b s r o = p at hpermits hslots hsent hpending hcalls hf ⊢
  obtain ⟨b', s', r'⟩ := p
  simp only at hpermits hslots hsent hpending hcalls hf
  have hcoord : s'.coord = s.coord := by rw [hf]
  have hans : s'.answers = s.answers ++ [o] := by rw [hf]
  have hreq : s'.requests = s.requests := by rw [hf]
  have hdel : s'.delivered = s.delivered := by rw [hf]
  have hpulls : s'.pulls = s.pulls := by rw [hf]
  have hdemand : s'.demand = s.demand := by rw [hf]
  constructor
  · have hheld := Host.tally_setRound Credit.permits Round.permits r' hh
    simp only [Stream.permits, hcoord]
    omega
  · have hheld := Host.tally_setRound (fun _ => 1) (·.drain.slots) r' hh
    have hone : r.drain.slots = 1 := by rw [hr]; rfl
    simp only [Stream.heldSlots, hcoord]
    omega
  · have hheld := Host.tally_setRound (fun _ => 0) (·.drain.calls) r' hh
    have hone : r.drain.calls = 1 := by rw [hr]; rfl
    simp only [Stream.calls, hans, hpulls, List.length_append, List.length_singleton]
    omega
  · simp only [hdel, hans, List.length_append, List.length_singleton]
    omega
  · simp [hcoord]
  · have hheld := Host.tally_setRound (fun _ => 1) (·.drain.pending) r' hh
    have hnone : r.drain.pending = 0 := by rw [hr]; rfl
    simp only [Stream.pending, hcoord, hreq, hpulls, hdemand]
    omega
  · have hheld := Host.tally_setRound (fun _ => 1) (·.drain.pending) r' hh
    have hnone : r.drain.pending = 0 := by rw [hr]; rfl
    simp only [Stream.pending, hcoord, hreq, hpulls, hdemand]
    omega

theorem Step.counts (hs : Settled p.2.host) (h : Step c p a q) : StepCounts c p q := by
  cases h with
  | coordinator h => exact h.counts
  | abort _ h => exact h.counts
  | host h => exact h.counts hs
  | @pollNext b s hl hp =>
    cases hr : s.requested <;> constructor <;>
      simp [Stream.pollNext, hr, Stream.permits, Stream.heldSlots, Stream.calls, Stream.pending] <;>
      omega
  | receive hp hc =>
    constructor <;> simp [Stream.permits, Stream.heldSlots, Stream.calls, Stream.pending, hc]
    all_goals omega
  | dropReceiver hl hp =>
    constructor <;> simp [Stream.permits, Stream.heldSlots, Stream.calls, Stream.pending]
  | pending | endOfStream | propagatePanic | dropTasks | dispose =>
    constructor <;>
      simp [Stream.permits, Stream.heldSlots, Stream.calls, Stream.pending, Stream.dropPull]
  | answer hh hr => exact answer_counts hh hr

theorem Host.round_setRound (h : (host.setRound r').round = some r) : r = r' := by
  cases host with
  | unmade => cases h
  | affine => cases h; rfl
  | pool => cases h; rfl

theorem drainBatches_settled (h : drainBatches c b s r = some (b', s', r'))
    (hr : r'.drain.report ≠ none) : r'.credits = 0 := by
  revert h
  fun_cases drainBatches c b s r <;> intro h <;> cases h <;> first | rfl | exact (hr rfl).elim

theorem pullReturned_settled (c : Config B E) (b : Budget) (s : Stream B E) (r : Round)
    (o : Outcome B E) (hr : (pullReturned c b s r o).2.2.drain.report ≠ none) :
    (pullReturned c b s r o).2.2.credits = 0 := by
  cases o with
  | batch batch => cases hc : c.check batch <;> simp [pullReturned, hc, Drain.report] at hr ⊢
  | error | done | panic => rfl

theorem Settled.of_round_none (h : host.round = none) : Settled host := by
  intro r hr
  simp [h] at hr

theorem HostStep.settled (hs : Settled p.2.host) (h : HostStep c p q) : Settled q.2.host := by
  cases h with
  | drain hh hd =>
    intro r hr
    obtain rfl := Host.round_setRound hr
    exact drainBatches_settled hd
  | recvJob | start =>
    intro r hr
    cases hr
    simp [Round.begin]
  | @announce _ _ _ report =>
    exact .of_round_none (by cases hl : report.last <;> simp [Host.round])
  | crash => exact .of_round_none (by cases hc : Coord.over _ <;> simp [Host.round])
  | _ => exact .of_round_none rfl

theorem Reported.round {home : Home} (h : Reported host home report) :
    host.collect.round = none := by
  cases h <;> rfl

/-- The coordinator neither starts nor changes a round. -/
theorem CoordStep.round_eq (h : CoordStep c p q) (hr : q.2.host.round = some r) :
    p.2.host.round = some r := by
  cases h with
  | noPermit | spawn | spawnFails | sendInit | dispatchPool => cases hr
  | @dispatch _ _ credit thread mailbox done _ hh =>
    rw [hh]
    cases thread <;> exact hr
  | @collect _ _ report _ hrep =>
    rcases report with ⟨_ | _⟩ | payload <;> exact absurd (hrep.round.symm.trans hr) nofun
  | _ => exact hr

theorem AbortStep.round_eq (h : AbortStep p q) (hr : q.2.host.round = some r) :
    p.2.host.round = some r := by
  cases h with
  | output | crashed => cases hr
  | _ => exact hr

theorem Step.settled (hs : Settled p.2.host) (h : Step c p a q) : Settled q.2.host := by
  cases h with
  | host h => exact h.settled hs
  | answer =>
    intro r hr
    obtain rfl := Host.round_setRound hr
    exact pullReturned_settled _ _ _ _ _
  | coordinator h =>
    intro r hr
    exact hs r (h.round_eq hr)
  | abort _ h =>
    intro r hr
    exact hs r (h.round_eq hr)
  | pollNext => rw [Stream.pollNext_frame]; exact hs
  | _ => exact hs

/-- The books of a stream. -/
structure Accounted (c : Config B E) (s : Stream B E) : Prop where
  settled : Settled s.host
  slots : s.slots + s.chan.length + s.heldSlots = channelCapacity
  asked : s.requests = s.delivered.length + s.requested.toNat
  polling : s.polling = true → s.requested = true ∧ s.live = true
  calls : s.pulls = s.answers.length + s.calls
  sent : s.delivered.length + s.chan.length ≤ s.answers.length
  owed : s.coord.over = false → s.requests ≤ s.demand + s.pulls + s.pending
  onDemand : c.readAhead = .onDemand → s.demand + s.pulls + s.pending ≤ s.requests

theorem accounted_initial : Accounted c ({} : Stream B E) where
  settled := .of_round_none rfl
  slots := rfl
  asked := rfl
  polling := nofun
  calls := rfl
  sent := Nat.le_refl 0
  owed _ := Nat.zero_le _
  onDemand _ := Nat.le_refl 0

/-- Only the consumer's own steps touch what it asked for and got. -/
theorem Step.asked (h : Step c p a q) (hI : p.2.requests = p.2.delivered.length + p.2.requested.toNat)
    (hp : p.2.polling = true → p.2.requested = true ∧ p.2.live = true) :
    q.2.requests = q.2.delivered.length + q.2.requested.toNat ∧
      (q.2.polling = true → q.2.requested = true ∧ q.2.live = true) := by
  cases h with
  | coordinator h => rw [h.frame]; exact ⟨hI, hp⟩
  | abort _ h => rw [h.frame]; exact ⟨hI, hp⟩
  | host h => rw [h.frame]; exact ⟨hI, hp⟩
  | answer => rw [pullReturned_frame]; exact ⟨hI, hp⟩
  | @pollNext b s hl =>
    cases hr : s.requested <;> simp [hr] at hI
    · simp [Stream.pollNext, hr, hI, hl]
    · simp [Stream.pollNext, hr, hI, hl]
  | @receive b s item rest hpoll hc =>
    have hr : s.requested = true := (hp hpoll).1
    simp [hr] at hI
    simp [hI]
  | pending | endOfStream | propagatePanic =>
    refine ⟨hI, ?_⟩
    intro ht
    cases ht
  | dropReceiver _ hpoll => exact ⟨hI, fun ht => by simp [hpoll] at ht⟩
  | dropTasks | dispose => exact ⟨hI, hp⟩

theorem accounted_step (hI : Accounted c p.2) (h : Step c p a q) : Accounted c q.2 := by
  obtain ⟨-, hslots, hcalls, hsent, hover, howed, hdemand⟩ := h.counts hI.settled
  obtain ⟨hasked, hpolling⟩ := h.asked hI.asked hI.polling
  refine ⟨h.settled hI.settled, ?_, hasked, hpolling, ?_, ?_, ?_, ?_⟩
  · exact hslots.trans hI.slots
  · have := hI.calls
    omega
  · have := hI.sent
    omega
  · intro ho
    have := hI.owed (hover ho)
    have := howed ho
    omega
  · intro hra
    have := hI.onDemand hra
    have := hdemand hra
    omega

theorem reachable_accounted (h : (component c).alone.Reachable p) : Accounted c p.2 :=
  stream_invariant accounted_initial (fun _ _ _ _ hs hI => accounted_step hI hs) h

/-- Speculation permits are only moved between a stream and the budget. -/
theorem permits_step (h : (component c).alone.Reachable p) (hs : (component c).step p a q) :
    q.1.speculation + q.2.permits = p.1.speculation + p.2.permits :=
  ((reachable_step h hs).counts (reachable_accounted h).settled).permits

end XorqDatafusion.Bridge
