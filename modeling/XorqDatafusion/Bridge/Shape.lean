import XorqDatafusion.Bridge.Stream
import Mathlib.Tactic.Common

/-! Which combinations of coordinator, pull host and closure a stream can be in. -/
namespace XorqDatafusion.Bridge

variable {B E : Type} {c : Config B E} {b b' : Budget} {s s' : Stream B E} {r r' : Round}
  {host : Host} {home : Home} {v : Verdict} {report : Report} {o : Outcome B E}

/-- What the answers must say while a round stands at this point. -/
def Drain.verdict : Drain → Verdict
  | .returned true => .ended
  | .panicked payload => .panicked payload
  | _ => .going

def Report.verdict : Report → Verdict
  | .ended true => .ended
  | .ended false => .going
  | .panicked payload => .panicked payload

/-- Between rounds: the host waits for a job, holding the pull or about to receive it. -/
inductive Idle : Host → Home → Prop
  | unread (done : Oneshot) : Idle (.affine .recvInit [.init] done) .mailbox
  | parked (done : Oneshot) : Idle (.affine .recvJob [] done) .thread
  | pool : Idle (.pool .absent) .guard

/-- A round was handed over and has not reported yet. -/
inductive Busy : Host → Home → Verdict → Prop
  | unread (credit : Credit) :
      Busy (.affine .recvInit [.init, .job credit] .waiting) .mailbox .going
  | posted (credit : Credit) : Busy (.affine .recvJob [.job credit] .waiting) .thread .going
  | draining (r : Round) : Busy (.affine (.draining r) [] .waiting) .thread r.drain.verdict
  | reporting (report : Report) :
      Busy (.affine (.reporting report) [] .waiting) .thread report.verdict
  | queued (credit : Credit) : Busy (.pool (.queued credit)) .task .going
  | pooled (r : Round) : Busy (.pool (.draining r)) .task r.drain.verdict

/-- The round has reported; the coordinator has not looked yet. -/
inductive Reported : Host → Home → Report → Prop
  | parked : Reported (.affine .recvJob [] (.sent (.ended false))) .thread (.ended false)
  | leaving (report : Report) (h : report.last = true) :
      Reported (.affine .leaving [] (.sent report)) .thread report
  | exiting (report : Report) (h : report.last = true) :
      Reported (.affine .exiting [] (.sent report)) .dropped report
  | exited (report : Report) (h : report.last = true) :
      Reported (.affine .exited [] (.sent report)) .dropped report
  | output (finished : Bool) :
      Reported (.pool (.finished (.ended finished))) .output (.ended finished)
  | crashed (payload : String) :
      Reported (.pool (.finished (.panicked payload))) .dropped (.panicked payload)

/-- The coordinator is over; the host finishes what it was given and lets the pull go. -/
inductive Orphan : Host → Home → Verdict → Prop
  | unmade (v : Verdict) : Orphan .unmade .dropped v
  | unread (done : Oneshot) : Orphan (.affine .recvInit [.init] done) .mailbox .going
  | unreadJob (credit : Credit) (done : Oneshot) :
      Orphan (.affine .recvInit [.init, .job credit] done) .mailbox .going
  | parked (done : Oneshot) : Orphan (.affine .recvJob [] done) .thread .going
  | posted (credit : Credit) (done : Oneshot) :
      Orphan (.affine .recvJob [.job credit] done) .thread .going
  | draining (r : Round) (done : Oneshot) :
      Orphan (.affine (.draining r) [] done) .thread r.drain.verdict
  | reporting (report : Report) (done : Oneshot) :
      Orphan (.affine (.reporting report) [] done) .thread report.verdict
  | leaving (done : Oneshot) (v : Verdict) : Orphan (.affine .leaving [] done) .thread v
  | exiting (done : Oneshot) (v : Verdict) : Orphan (.affine .exiting [] done) .dropped v
  | exited (done : Oneshot) (v : Verdict) : Orphan (.affine .exited [] done) .dropped v
  | queued (credit : Credit) : Orphan (.pool (.queued credit)) .task .going
  | pooled (r : Round) : Orphan (.pool (.draining r)) .task r.drain.verdict
  | disposing (v : Verdict) : Orphan (.pool .absent) .disposing v
  | disposed (v : Verdict) : Orphan (.pool .absent) .dropped v

/-- The shape of a stream by where its coordinator stands. -/
def ShapeAt (live : Bool) (host : Host) (home : Home) (v : Verdict) : Coord → Prop
  | .spawned => host = .unmade ∧ home = .captured ∧ v = .going
  | .spawning => host = .unmade ∧ home = .local ∧ v = .going
  | .sendInit => host = .affine .recvInit [] .waiting ∧ home = .local ∧ v = .going
  | .tryAcquire | .trySpeculate | .acquire | .reserve _ | .dispatch _ =>
    Idle host home ∧ v = .going
  | .awaitRound => Busy host home v ∨ ∃ report, Reported host home report ∧ v = report.verdict
  | .finished => Orphan host home v ∧ (live = true → v = .ended)
  | .panicked payload => Orphan host home v ∧ v = .panicked payload
  | .aborted => Orphan host home v ∧ live = false

structure Shaped (c : Config B E) (s : Stream B E) : Prop where
  aborting : s.aborting = true → s.live = false
  at_coord : ShapeAt s.live s.host s.home (verdict c.check s.answers) s.coord

theorem shaped_initial : Shaped c ({} : Stream B E) := ⟨nofun, rfl, rfl, rfl⟩

theorem Drain.verdict_of_report {d : Drain} (h : d.report = some report) :
    d.verdict = report.verdict := by
  cases d with
  | returned finished => cases finished <;> (cases h; rfl)
  | panicked payload => cases h; rfl
  | _ => cases h

/-- A step of `drain_batches` moves permits and slots only, and none follows a terminal answer. -/
theorem drainBatches_frame (h : drainBatches c b s r = some (b', s', r')) :
    s' = { s with pulls := s'.pulls, demand := s'.demand, slots := s'.slots } ∧
      r.drain.verdict = .going ∧ r'.drain.verdict = .going := by
  revert h
  fun_cases drainBatches c b s r <;> intro h <;> cases h <;> simp [Drain.verdict, *]

/-- The answer of a pull decides where its round goes. -/
theorem pullReturned_verdict (c : Config B E) (b : Budget) (s : Stream B E) (r : Round)
    (o : Outcome B E) : (pullReturned c b s r o).2.2.drain.verdict = o.verdict c.check := by
  cases o with
  | batch batch => cases h : c.check batch <;> simp [pullReturned, Outcome.verdict, Drain.verdict, h]
  | error e => rfl
  | done => rfl
  | panic payload => rfl

theorem pullReturned_frame (c : Config B E) (b : Budget) (s : Stream B E) (r : Round)
    (o : Outcome B E) :
    (pullReturned c b s r o).2.1 = { s with
      answers := s.answers ++ [o]
      chan := (pullReturned c b s r o).2.1.chan
      slots := (pullReturned c b s r o).2.1.slots } := by
  cases o with
  | batch batch =>
    cases h : c.check batch <;> cases hl : s.live <;> simp [pullReturned, Stream.send, h, hl]
  | error e => cases hl : s.live <;> simp [pullReturned, Stream.send, hl]
  | done => rfl
  | panic payload => rfl

end XorqDatafusion.Bridge
