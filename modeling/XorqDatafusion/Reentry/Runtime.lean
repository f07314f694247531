import XorqDatafusion.Transition

/-! Queries run from within queries: Python code that waits for futures, futures that call into Python,
and the threads of the runtime both are on. -/
namespace XorqDatafusion.Reentry

open Transition

mutual

/-- What a future does as it is polled. It spawns a task, or has a pull run on a thread, and awaits it;
or it calls into Python in place. `own` is for a pull thread outside the blocking pool. -/
inductive Future
  | ready
  | spawn (task next : Future)
  | pull (own : Bool) (call : PyCode) (next : Future)
  | attach (call : PyCode) (next : Future)

/-- Python code, as far as it comes back to the runtime. -/
inductive PyCode
  | ret
  | waitForFuture (fut : Future) (next : PyCode)
  | executeStream (fut : Future) (next : PyCode)

end

/-- The runtime's thread-locals: whether the thread has entered the runtime, as a worker that drives a
task or in `block_on`, and whether it has a current handle. -/
structure Context where
  entered : Bool
  current : Bool
deriving DecidableEq

/-- A thread outside the runtime, one of the blocking pool, or a task, which any worker may drive. -/
inductive Kind
  | thread
  | pool
  | task
deriving DecidableEq

def Kind.context : Kind → Context
  | .thread => ⟨false, false⟩
  | .pool => ⟨false, true⟩
  | .task => ⟨true, true⟩

/-- `Handle::block_on`. -/
def blockOn (ctx : Context) : Except String Context :=
  if ctx.entered then .error "Cannot start a runtime from within a runtime" else .ok ⟨true, true⟩

/-- `block_in_place`: meanwhile the thread has left the runtime. -/
def blockInPlace (ctx : Context) : Context := { ctx with entered := false }

/-- `wait_for_future`: the context its future is polled in, and whether the worker was handed back to
the scheduler. -/
def waitForFuture (ctx : Context) : Except String (Context × Bool) :=
  if ctx.current then (blockOn (blockInPlace ctx)).map (·, true)
  else (blockOn ctx).map (·, false)

/-- A future that is being polled, with the activity it awaits; or Python code, with the task it has
spawned to wait for. `outer` and `handed` are what the thread gets back when `block_on` returns. -/
inductive Frame
  | future (awaiting : Option ℕ) (fut : Future) (outer : Context) (handed : Bool)
  | python (joining : Option ℕ) (code : PyCode)

/-- A thread or a task: its calls, innermost first; whether it is on a thread, as a task holds one of
the worker's cores, and has the GIL. -/
structure Activity where
  kind : Kind
  stack : List Frame
  seated : Bool := false
  core : Bool := false
  gil : Bool := false
  ctx : Context
  panic : Option String := none

def Activity.ofTask (fut : Future) : Activity where
  kind := .task
  stack := [.future none fut Kind.task.context false]
  ctx := Kind.task.context

def Activity.ofCall (own : Bool) (call : PyCode) : Activity where
  kind := if own then .thread else .pool
  stack := [.python none call]
  ctx := (if own then Kind.thread else Kind.pool).context

/-- What it waits for. -/
def Activity.awaits (a : Activity) : Option ℕ :=
  match a.stack with
  | .future awaiting _ _ _ :: _ => awaiting
  | _ => none

/-- It waits in a `block_on`, on its thread. -/
def Activity.blocked (a : Activity) : Bool :=
  match a.stack with
  | .future (some _) _ _ _ :: _ :: _ => a.seated
  | _ => false

/-- `blockingThreads` are what the blocking pool may have besides the workers. -/
structure Runtime where
  workers : ℕ
  blockingThreads : ℕ
  positive : 0 < workers

/-- All activities, each known by the order they were spawned in. -/
abbrev State := List Activity

namespace State

def Finished (s : State) (id : ℕ) : Prop := ∃ a, s[id]? = some a ∧ a.stack = []

instance {s : State} {id : ℕ} : Decidable (s.Finished id) :=
  decidable_of_iff (s[id]?.map (·.stack.isEmpty) = some true) (by simp [Finished])

def GilFree (s : State) : Prop := ∀ a ∈ s, a.gil = false

instance {s : State} : Decidable s.GilFree := inferInstanceAs (Decidable (∀ a ∈ s, a.gil = false))

/-- The worker cores that drive a task. -/
def busy (s : State) : ℕ := s.countP (·.core)

/-- The threads of the pool that are taken. -/
def taken (s : State) : ℕ := s.countP fun a => a.seated && a.kind != .thread

end State

/-- There is a thread for an activity of this kind, and a core for a task. An idle worker may have its
thread or have yet to get one, so that its share is not set apart. -/
def Runtime.HasRoom (r : Runtime) (s : State) : Kind → Prop
  | .thread => True
  | .pool => s.taken < r.workers + r.blockingThreads
  | .task => s.busy < r.workers ∧ s.taken < r.workers + r.blockingThreads

instance {r : Runtime} {s : State} {k : Kind} : Decidable (r.HasRoom s k) := by
  cases k <;> unfold Runtime.HasRoom <;> infer_instance

/-- What Python code goes on to wait for: the future it hands to `wait_for_future`, or the handle of the
task it has spawned. -/
def PyCode.pending : Option ℕ → PyCode → Option (Option ℕ × Future × PyCode)
  | some id, next => some (some id, .ready, next)
  | none, .waitForFuture fut next => some (none, fut, next)
  | none, _ => none

/-- What an activity does next, with the activities it spawns. -/
inductive Move (r : Runtime) (s : State) (a : Activity) : Activity → List Activity → Prop
  | seat (hs : a.seated = false) (hne : a.stack ≠ []) (ha : a.awaits = none)
      (hroom : r.HasRoom s a.kind) :
      Move r s a { a with seated := true, core := a.kind == .task, ctx := a.kind.context } []
  -- A task that awaits leaves its worker.
  | suspend {id : ℕ} {fut : Future} {outer : Context} {handed : Bool}
      (hst : a.stack = [.future (some id) fut outer handed]) (hs : a.seated = true)
      (hid : ¬s.Finished id) :
      Move r s a { a with seated := false, core := false } []
  | wake {id : ℕ} {fut : Future} {outer : Context} {handed : Bool} {rest : List Frame}
      (hst : a.stack = .future (some id) fut outer handed :: rest) (hid : s.Finished id) :
      Move r s a { a with stack := .future none fut outer handed :: rest } []
  | spawn {task next : Future} {outer : Context} {handed : Bool} {rest : List Frame}
      (hst : a.stack = .future none (.spawn task next) outer handed :: rest) (hs : a.seated = true) :
      Move r s a { a with stack := .future (some s.length) next outer handed :: rest } [.ofTask task]
  | pull {own : Bool} {call : PyCode} {next : Future} {outer : Context} {handed : Bool}
      {rest : List Frame} (hst : a.stack = .future none (.pull own call next) outer handed :: rest)
      (hs : a.seated = true) :
      Move r s a { a with stack := .future (some s.length) next outer handed :: rest }
        [.ofCall own call]
  | attach {call : PyCode} {next : Future} {outer : Context} {handed : Bool} {rest : List Frame}
      (hst : a.stack = .future none (.attach call next) outer handed :: rest) (hs : a.seated = true)
      (hfree : s.GilFree) :
      Move r s a { a with
        gil := true, stack := .python none call :: .future none next outer handed :: rest } []
  | finish {outer : Context} {handed : Bool} (hst : a.stack = [.future none .ready outer handed])
      (hs : a.seated = true) :
      Move r s a { a with stack := [], seated := false, core := false } []
  -- `block_on` returns. A worker that was handed back may find its core still free.
  | resume {outer : Context} {handed core : Bool} {frame : Frame} {rest : List Frame}
      (hst : a.stack = .future none .ready outer handed :: frame :: rest) (hs : a.seated = true)
      (hcore : core = true → handed = true ∧ s.busy < r.workers) :
      Move r s a { a with stack := frame :: rest, ctx := outer, core } []
  | takeGil {joining : Option ℕ} {code : PyCode} {rest : List Frame}
      (hst : a.stack = .python joining code :: rest) (hs : a.seated = true) (hg : a.gil = false)
      (hfree : s.GilFree) :
      Move r s a { a with gil := true } []
  | executeStream {fut : Future} {next : PyCode} {rest : List Frame}
      (hst : a.stack = .python none (.executeStream fut next) :: rest) (hs : a.seated = true)
      (hg : a.gil = true) :
      Move r s a { a with stack := .python (some s.length) next :: rest } [.ofTask fut]
  -- `py.detach` gives the GIL back for as long as the thread waits.
  | wait {joining awaiting : Option ℕ} {code next : PyCode} {fut : Future} {rest : List Frame}
      {ctx : Context} {handed : Bool} (hst : a.stack = .python joining code :: rest)
      (hp : PyCode.pending joining code = some (awaiting, fut, next)) (hs : a.seated = true)
      (hg : a.gil = true) (hw : waitForFuture a.ctx = .ok (ctx, handed)) :
      Move r s a { a with
        stack := .future awaiting fut a.ctx (handed && a.core) :: .python none next :: rest
        ctx, gil := false, core := !handed && a.core } []
  | panic {joining awaiting : Option ℕ} {code next : PyCode} {fut : Future} {rest : List Frame}
      {message : String} (hst : a.stack = .python joining code :: rest)
      (hp : PyCode.pending joining code = some (awaiting, fut, next)) (hs : a.seated = true)
      (hg : a.gil = true) (hw : waitForFuture a.ctx = .error message) :
      Move r s a { a with
        stack := [], seated := false, core := false, gil := false, panic := some message } []
  | ret {rest : List Frame} (hst : a.stack = .python none .ret :: rest) (hs : a.seated = true)
      (hg : a.gil = true) :
      Move r s a { a with stack := rest, gil := false, seated := !rest.isEmpty } []

/-- Python threads with their code, none of which has begun. -/
def started (mains : List PyCode) : State := mains.map (Activity.ofCall true)

/-- One of the activities moves. -/
def process (r : Runtime) (mains : List PyCode) : System State ℕ where
  start s := s = started mains
  step s i t := ∃ a a' spawned, s[i]? = some a ∧ Move r s a a' spawned ∧ t = s.set i a' ++ spawned

end XorqDatafusion.Reentry
