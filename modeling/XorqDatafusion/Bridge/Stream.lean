import XorqDatafusion.Bridge.Pull
import Mathlib.Algebra.Ring.Nat

/-! The stream of `spawn_channel_stream`: its consumer, its coordinator task and its pull host. -/
namespace XorqDatafusion.Bridge

/-- `CHANNEL_CAPACITY`. -/
def channelCapacity : ℕ := 8

/-- `SPECULATION_BUDGET`. -/
def speculationBudget : ℕ := 64

/-- `AFFINE_THREAD_BUDGET`. -/
def affineThreadBudget : ℕ := 128

/-- The process-wide permits that are free. -/
structure Budget where
  speculation : ℕ
  affine : ℕ
deriving DecidableEq

def Budget.initial : Budget := ⟨speculationBudget, affineThreadBudget⟩

def Budget.release (b : Budget) (n : ℕ) : Budget := { b with speculation := b.speculation + n }

inductive ReadAhead
  | onDemand
  | buffered
deriving DecidableEq

inductive Credit
  | demanded
  | speculative
deriving DecidableEq

/-- The speculation permits a credit owns. -/
def Credit.permits : Credit → ℕ
  | .demanded => 0
  | .speculative => 1

/-- `try_speculate`: the budget left when a permit could be taken. -/
def trySpeculate (b : Budget) : ReadAhead → Option Budget
  | .onDemand => none
  | .buffered =>
    if 0 < b.speculation then some { b with speculation := b.speculation - 1 } else none

/-- Where a call of `drain_batches` stands. -/
inductive Drain
  | call
  | inPull
  | sent
  | reserved
  | noDemand
  | returned (ended : Bool)
  | panicked (payload : String)
deriving DecidableEq

/-- A drain round. `credit` is what the coordinator dispatched it with, `credits` counts the
speculation permits it drew itself, and `unasked` records that a pull started in it which no
request of the consumer covered. -/
structure Round where
  drain : Drain
  credit : Credit
  credits : ℕ
  unasked : Bool
deriving DecidableEq

def Round.begin (credit : Credit) : Round := ⟨.call, credit, 0, false⟩

def Round.permits (r : Round) : ℕ := r.credit.permits + r.credits

/-- `std::thread::Result<bool>`: whether the stream is finished, or the payload of a panic. -/
inductive Report
  | ended (finished : Bool)
  | panicked (payload : String)
deriving DecidableEq

/-- Whether the pull thread leaves its loop after this report. -/
def Report.last : Report → Bool
  | .ended finished => finished
  | .panicked _ => true

inductive PullMessage
  | init
  | job (credit : Credit)
deriving DecidableEq

def PullMessage.isJob : PullMessage → Bool
  | .init => false
  | .job _ => true

/-- Where the dedicated thread of `run_affine_pull` stands. -/
inductive Thread
  | recvInit
  | recvJob
  | draining (r : Round)
  | reporting (report : Report)
  | leaving
  | exiting
  | exited
deriving DecidableEq

/-- The channel `done` of the round handed over last. -/
inductive Oneshot
  | waiting
  | sent (report : Report)
  | closed
deriving DecidableEq

/-- The blocking-pool task of a round; `finished` is an output nobody has read yet. -/
inductive Task
  | absent
  | queued (credit : Credit)
  | draining (r : Round)
  | finished (report : Report)
deriving DecidableEq

/-- `PullHost`, each variant with the thread or task behind it. -/
inductive Host
  | unmade
  | affine (thread : Thread) (mailbox : List PullMessage) (done : Oneshot)
  | pool (task : Task)
deriving DecidableEq

/-- Where the coordinator task stands. It awaits at `spawned` (not yet polled), `acquire`,
`reserve` and `awaitRound`; `spawning` and `sendInit` are inside `PullHost::new`. -/
inductive Coord
  | spawned
  | spawning
  | sendInit
  | tryAcquire
  | trySpeculate
  | acquire
  | reserve (credit : Credit)
  | dispatch (credit : Credit)
  | awaitRound
  | finished
  | panicked (payload : String)
  | aborted
deriving DecidableEq

/-- The task is over: its locals, the job sender and the join handle among them, are dropped. -/
def Coord.over : Coord → Bool
  | .finished | .panicked _ | .aborted => true
  | _ => false

/-- Who owns the `BatchPull`. -/
inductive Home
  | captured
  | local
  | mailbox
  | thread
  | guard
  | task
  | output
  | disposing
  | dropped
deriving DecidableEq

/-- Threads a `BatchPull` can be dropped on. -/
inductive Site
  | pullThread
  | blockingPool
  | asyncWorker
deriving DecidableEq

/-- How the consumer saw the stream end. -/
inductive Ending
  | clean
  | panicked (payload : String)
deriving DecidableEq

/-- What the stream was created with. -/
structure Config (B E : Type) where
  check : B → Except E Unit
  readAhead : ReadAhead

/-- One stream. `requests`, `pulls`, `answers`, `delivered`, `ending` and `drops` only record what
happened: permits granted by the consumer, pulls started, answers of the pulls that returned,
items the consumer got, how it saw the stream end, and where the closure was dropped. -/
structure Stream (B E : Type) where
  live : Bool := true
  aborting : Bool := false
  polling : Bool := false
  requested : Bool := false
  demand : ℕ := 0
  slots : ℕ := channelCapacity
  chan : List (Except E B) := []
  coord : Coord := .spawned
  host : Host := .unmade
  home : Home := .captured
  requests : ℕ := 0
  pulls : ℕ := 0
  answers : List (Outcome B E) := []
  delivered : List (Except E B) := []
  ending : Option Ending := none
  drops : List Site := []

variable {B E : Type}

namespace Stream

/-- `OwnedPermit::send`: once the receiver is gone the item is lost with its slot. -/
def send (s : Stream B E) (item : Except E B) : Stream B E :=
  if s.live then { s with chan := s.chan ++ [item] } else { s with slots := s.slots + 1 }

def dropPull (s : Stream B E) (site : Site) : Stream B E :=
  { s with home := .dropped, drops := s.drops ++ [site] }

/-- Drop of the coordinator's `PullHost`: while the runtime is up, a `PullGuard` that still holds
the pull hands it to the blocking pool. -/
def dropHost (s : Stream B E) : Stream B E :=
  { s with home := match s.home with
    | .guard => .disposing
    | home => home }

/-- End of the coordinator task, which drops its host. -/
def finish (s : Stream B E) (coord : Coord) : Stream B E := { s.dropHost with coord }

end Stream

/-- A step of `drain_batches` outside the pull itself. -/
def drainBatches (c : Config B E) (b : Budget) (s : Stream B E) (r : Round) :
    Option (Budget × Stream B E × Round) :=
  match r.drain with
  | .call =>
    some (b, { s with pulls := s.pulls + 1 },
      { r with drain := .inPull, unasked := r.unasked || decide (s.requests ≤ s.pulls) })
  | .sent =>
    if s.live = true ∧ 0 < s.slots then
      some (b, { s with slots := s.slots - 1 }, { r with drain := .reserved })
    else
      some (b.release r.credits, s, { r with drain := .returned false, credits := 0 })
  | .reserved =>
    if 0 < s.demand then
      some (b, { s with demand := s.demand - 1 }, { r with drain := .call })
    else
      some (b, s, { r with drain := .noDemand })
  | .noDemand =>
    match trySpeculate b c.readAhead with
    | some b => some (b, s, { r with drain := .call, credits := r.credits + 1 })
    | none =>
      some (b.release r.credits, { s with slots := s.slots + 1 },
        { r with drain := .returned false, credits := 0 })
  | .inPull | .returned _ | .panicked _ => none

/-- The pull came back with `o`; on every way out the round's own credits are released. -/
def pullReturned (c : Config B E) (b : Budget) (s : Stream B E) (r : Round) (o : Outcome B E) :
    Budget × Stream B E × Round :=
  let s := { s with answers := s.answers ++ [o] }
  match o with
  | .batch batch =>
    match c.check batch with
    | .ok () => (b, s.send (.ok batch), { r with drain := .sent })
    | .error e =>
      (b.release r.credits, s.send (.error e), { r with drain := .returned true, credits := 0 })
  | .error e =>
    (b.release r.credits, s.send (.error e), { r with drain := .returned true, credits := 0 })
  | .done =>
    (b.release r.credits, { s with slots := s.slots + 1 },
      { r with drain := .returned true, credits := 0 })
  | .panic payload =>
    (b.release r.credits, { s with slots := s.slots + 1 },
      { r with drain := .panicked payload, credits := 0 })

/-- The report a round that is over makes. -/
def Drain.report : Drain → Option Report
  | .returned finished => some (.ended finished)
  | .panicked payload => some (.panicked payload)
  | _ => none

/-- A step of `run_affine_pull`. The job sender lives as long as the coordinator does. Leaving the
loop drops the pull, then the receiver with what it still holds, then the thread's permit. -/
def runAffinePull (c : Config B E) (b : Budget) (s : Stream B E) (thread : Thread)
    (mailbox : List PullMessage) (done : Oneshot) : Option (Budget × Stream B E) :=
  match thread with
  | .recvInit =>
    match mailbox with
    | .init :: rest => some (b, { s with host := .affine .recvJob rest done, home := .thread })
    | .job _ :: _ => some (b, { s with host := .affine .exiting mailbox done })
    | [] => if s.coord.over then some (b, { s with host := .affine .exiting [] done }) else none
  | .recvJob =>
    match mailbox with
    | .job credit :: rest =>
      some (b, { s with host := .affine (.draining (.begin credit)) rest done })
    | .init :: _ => some (b, { s with host := .affine .leaving mailbox done })
    | [] => if s.coord.over then some (b, { s with host := .affine .leaving [] done }) else none
  | .draining r =>
    match r.drain.report with
    | some report =>
      some (b.release r.credit.permits, { s with host := .affine (.reporting report) mailbox done })
    | none =>
      (drainBatches c b s r).map fun p =>
        (p.1, { p.2.1 with host := .affine (.draining p.2.2) mailbox done })
  | .reporting report =>
    -- Nobody reads the report of a round whose query was cancelled.
    some (b, { s with
      host := .affine (if report.last then .leaving else .recvJob) mailbox (.sent report) })
  | .leaving => some (b, { s.dropPull .pullThread with host := .affine .exiting mailbox done })
  | .exiting =>
    let credits := (mailbox.map fun | .init => 0 | .job credit => credit.permits).sum
    let jobs := mailbox.countP PullMessage.isJob
    let s := if .init ∈ mailbox then s.dropPull .pullThread else s
    some ({ b.release credits with affine := b.affine + 1 },
      { s with
        slots := s.slots + jobs
        host := .affine .exited [] (if 0 < jobs then .closed else done) })
  | .exited => none

/-- A step of the blocking-pool task of a round, for which the pool always has a thread. Its output goes
to the coordinator, and is dropped on the pool when the join handle is gone. -/
def poolTask (c : Config B E) (b : Budget) (s : Stream B E) :
    Task → Option (Budget × Stream B E)
  | .queued credit => some (b, { s with host := .pool (.draining (.begin credit)) })
  | .draining r =>
    match r.drain.report with
    | some (.ended finished) =>
      some (b.release r.credit.permits,
        if s.coord.over then { s.dropPull .blockingPool with host := .pool .absent }
        else { s with home := .output, host := .pool (.finished (.ended finished)) })
    | some (.panicked payload) =>
      -- The closure dies with its task.
      some (b.release r.credit.permits,
        { s.dropPull .blockingPool with
          host := .pool (if s.coord.over then .absent else .finished (.panicked payload)) })
    | none =>
      (drainBatches c b s r).map fun p =>
        (p.1, { p.2.1 with host := .pool (.draining p.2.2) })
  | .absent | .finished _ => none

def hostStep (c : Config B E) (b : Budget) (s : Stream B E) : Option (Budget × Stream B E) :=
  match s.host with
  | .unmade => none
  | .affine thread mailbox done => runAffinePull c b s thread mailbox done
  | .pool task => poolTask c b s task

/-- The pull of the round in progress returns. -/
def answer (c : Config B E) (o : Outcome B E) (b : Budget) (s : Stream B E) :
    Option (Budget × Stream B E) :=
  match s.host with
  | .affine (.draining r) mailbox done =>
    if r.drain = .inPull then
      let p := pullReturned c b s r o
      some (p.1, { p.2.1 with host := .affine (.draining p.2.2) mailbox done })
    else none
  | .pool (.draining r) =>
    if r.drain = .inPull then
      let p := pullReturned c b s r o
      some (p.1, { p.2.1 with host := .pool (.draining p.2.2) })
    else none
  | _ => none

/-- `PullHost::new` up to the spawn of the thread, on the coordinator's first poll. -/
def hostNew (b : Budget) (s : Stream B E) : Budget × Stream B E :=
  if 0 < b.affine then
    ({ b with affine := b.affine - 1 }, { s with home := .local, coord := .spawning })
  else
    (b, { s with home := .guard, host := .pool .absent, coord := .tryAcquire })

/-- `PullHost::round` up to its await: `Ok(true)` straight away when the pull thread is gone. -/
def startRound (b : Budget) (s : Stream B E) (credit : Credit) : Option (Budget × Stream B E) :=
  match s.host with
  | .unmade => none
  | .affine .exited _ _ =>
    some (b.release credit.permits, { s.finish .finished with slots := s.slots + 1 })
  | .affine thread mailbox _ =>
    some (b, { s with
      host := .affine thread (mailbox ++ [.job credit]) .waiting
      coord := .awaitRound })
  | .pool _ =>
    if s.home = .guard then
      some (b, { s with home := .task, host := .pool (.queued credit), coord := .awaitRound })
    else
      -- `PullGuard::take` on an empty guard.
      some (b.release credit.permits,
        { s.finish (.panicked "pull is in flight") with slots := s.slots + 1 })

/-- What the coordinator does with the answer of a round. -/
def afterRound (s : Stream B E) : Report → Stream B E
  | .ended true => s.finish .finished
  | .ended false => { s with coord := .tryAcquire }
  | .panicked payload => s.finish (.panicked payload)

/-- `PullHost::round` once its await is over; `none` while it is pending. -/
def finishRound (s : Stream B E) : Option (Stream B E) :=
  match s.host with
  | .affine _ _ (.sent report) => some (afterRound s report)
  | .affine _ _ .closed => some (s.finish .finished)
  | .pool (.finished (.ended finished)) =>
    some (afterRound { s with home := .guard, host := .pool .absent } (.ended finished))
  | .pool (.finished (.panicked payload)) =>
    some (afterRound { s with host := .pool .absent } (.panicked payload))
  | _ => none

/-- A step of the coordinator task; `spawns` is what the operating system answers a thread spawn. -/
def coordinator (c : Config B E) (spawns : Bool) (b : Budget) (s : Stream B E) :
    Option (Budget × Stream B E) :=
  match s.coord with
  | .spawned => some (hostNew b s)
  | .spawning =>
    if spawns then
      some (b, { s with host := .affine .recvInit [] .waiting, coord := .sendInit })
    else
      some ({ b with affine := b.affine + 1 },
        { s with home := .guard, host := .pool .absent, coord := .tryAcquire })
  | .sendInit =>
    match s.host with
    | .affine .exited _ _ =>
      some (b, { s with home := .guard, host := .pool .absent, coord := .tryAcquire })
    | .affine thread mailbox done =>
      some (b, { s with
        home := .mailbox
        host := .affine thread (mailbox ++ [.init]) done
        coord := .tryAcquire })
    | _ => none
  | .tryAcquire =>
    if 0 < s.demand then
      some (b, { s with demand := s.demand - 1, coord := .reserve .demanded })
    else
      some (b, { s with coord := .trySpeculate })
  | .trySpeculate =>
    match trySpeculate b c.readAhead with
    | some b => some (b, { s with coord := .reserve .speculative })
    | none => some (b, { s with coord := .acquire })
  | .acquire =>
    if 0 < s.demand then
      some (b, { s with demand := s.demand - 1, coord := .reserve .demanded })
    else none
  | .reserve credit =>
    if s.live = false then some (b.release credit.permits, s.finish .finished)
    else if 0 < s.slots then
      some (b, { s with slots := s.slots - 1, coord := .dispatch credit })
    else none
  | .dispatch credit => startRound b s credit
  | .awaitRound => (finishRound s).map fun s => (b, s)
  | .finished | .panicked _ | .aborted => none

/-- The runtime processes the abort of the coordinator at one of its await points, dropping what
the task owns there. -/
def abort (b : Budget) (s : Stream B E) : Option (Budget × Stream B E) :=
  if s.aborting = true then
    match s.coord with
    | .spawned => some (b, { s.dropPull .asyncWorker with coord := .aborted })
    | .acquire => some (b, s.finish .aborted)
    | .reserve credit => some (b.release credit.permits, s.finish .aborted)
    | .awaitRound =>
      match s.host with
      | .pool (.finished (.ended _)) =>
        -- The output of the finished task goes with its join handle.
        some (b, { s.dropPull .asyncWorker with host := .pool .absent, coord := .aborted })
      | .pool (.finished (.panicked _)) =>
        some (b, { s with host := .pool .absent, coord := .aborted })
      | _ => some (b, s.finish .aborted)
    | _ => none
  else none

/-- Some sender of the channel is alive: the coordinator's own, or that of a round. -/
def Stream.hasSender (s : Stream B E) : Bool :=
  !s.coord.over || match s.host with
  | .unmade => false
  | .affine thread mailbox _ =>
    mailbox.any PullMessage.isJob || match thread with
    | .draining r => r.drain.report.isNone
    | _ => false
  | .pool (.queued _) => true
  | .pool (.draining r) => r.drain.report.isNone
  | .pool _ => false

/-- What can happen to a stream. The consumer enters `poll_next` and leaves it with an item, with
`Pending`, with the end of the stream or with a re-raised panic; it drops the stream, receiver
first, then the tasks. -/
inductive Action (B E : Type)
  | pollNext
  | receive
  | pending
  | endOfStream
  | propagatePanic
  | dropReceiver
  | dropTasks
  | coordinator (spawns : Bool)
  | abort
  | host
  | answer (o : Outcome B E)
  | dispose

/-- `DemandStream::poll_next` up to the inner poll. -/
def Stream.pollNext (s : Stream B E) : Stream B E :=
  if s.requested then { s with polling := true }
  else
    { s with
      polling := true
      requested := true
      demand := s.demand + 1
      requests := s.requests + 1 }

def step (c : Config B E) : Action B E → Budget × Stream B E → Option (Budget × Stream B E)
  | .pollNext, (b, s) =>
    if s.live = true ∧ s.polling = false then some (b, s.pollNext) else none
  | .receive, (b, s) =>
    match s.chan with
    | item :: rest =>
      if s.polling = true then
        some (b, { s with
          chan := rest
          slots := s.slots + 1
          delivered := s.delivered ++ [item]
          requested := false
          polling := false })
      else none
    | [] => none
  | .pending, (b, s) => if s.polling = true then some (b, { s with polling := false }) else none
  | .endOfStream, (b, s) =>
    if s.polling = true ∧ s.chan = [] ∧ s.coord = .finished ∧ s.hasSender = false then
      some (b, { s with polling := false, ending := some .clean })
    else none
  | .propagatePanic, (b, s) =>
    match s.coord with
    | .panicked payload =>
      if s.polling = true then
        some (b, { s with polling := false, ending := some (.panicked payload) })
      else none
    | _ => none
  | .dropReceiver, (b, s) =>
    if s.live = true ∧ s.polling = false then
      some (b, { s with live := false, chan := [], slots := s.slots + s.chan.length })
    else none
  | .dropTasks, (b, s) =>
    if s.live = false then some (b, { s with aborting := true }) else none
  | .coordinator spawns, (b, s) => coordinator c spawns b s
  | .abort, (b, s) => abort b s
  | .host, (b, s) => hostStep c b s
  | .answer o, (b, s) => answer c o b s
  | .dispose, (b, s) =>
    if s.home = .disposing then some (b, s.dropPull .blockingPool) else none

end XorqDatafusion.Bridge
