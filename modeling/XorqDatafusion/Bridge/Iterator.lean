import XorqDatafusion.Bridge.Lossless

/-! The Python iterator over a stream: blocking and asynchronous calls that share it, each of which gets
the next item. -/
namespace XorqDatafusion.Bridge

open Transition

/-- A call of `__next__`, on whose thread the caller waits, or of `__anext__`, which gives a future. -/
structure Request where
  id : ℕ
  sync : Bool
deriving DecidableEq

/-- What a call raises; `error` is what `from_datafusion_error` makes of an error. -/
inductive Raised (E : Type)
  | error (e : E)
  | stopIteration (message : String)
  | stopAsyncIteration (message : String)
  | panic (payload : String)
deriving DecidableEq

variable {B E : Type}

/-- `next_stream`, by what the stream answers. -/
def nextStream (sync : Bool) : Option (Except E B) → Except (Raised E) B
  | some (.ok batch) => .ok batch
  | some (.error e) => .error (.error e)
  | none =>
    .error (if sync then .stopIteration "stream exhausted" else .stopAsyncIteration "stream exhausted")

/-- The item a call got. -/
def itemOf : Except (Raised E) B → Option (Except E B)
  | .ok batch => some (.ok batch)
  | .error (.error e) => some (.error e)
  | .error _ => none

/-- What a call gets out of a poll, if it is over with it. -/
def Action.reply (s : Stream B E) (sync : Bool) : Action B E → Option (Except (Raised E) B)
  | .receive => s.chan.head?.map fun item => nextStream sync (some item)
  | .endOfStream => some (nextStream sync none)
  | .propagatePanic => match s.coord with
    | .panicked payload => some (.error (.panic payload))
    | _ => none
  | _ => none

/-- A stream and the calls for its items: those that have not asked for the mutex yet, and those that
have, of which the first holds it. `held` tells whether Python still has the object. `made`, `turns`,
`refused`, `cancelled` and `replies` only record what happened: the calls, in which order they asked for
the mutex, which found the object borrowed, which were cancelled, and what the others got. -/
structure PyRecordBatchStream (B E : Type) where
  stream : Stream B E := {}
  held : Bool := true
  created : List Request := []
  queue : List Request := []
  made : List Request := []
  turns : List Request := []
  refused : List Request := []
  cancelled : List Request := []
  replies : List (Request × Except (Raised E) B) := []

/-- What can happen to it; `cancel` drops the future of a call, and `release` the Python object. -/
inductive Access (B E : Type)
  | call (sync : Bool)
  | lock (r : Request)
  | cancel (r : Request)
  | release
  | stream (a : Action B E)

namespace PyRecordBatchStream

/-- `next` borrows the object mutably for as long as it waits. -/
def borrowed (s : PyRecordBatchStream B E) : Bool := (s.created ++ s.queue).any Request.sync

def call (s : PyRecordBatchStream B E) (sync : Bool) : PyRecordBatchStream B E :=
  let r := ⟨s.made.length, sync⟩
  if s.borrowed then { s with made := s.made ++ [r], refused := s.refused ++ [r] }
  else { s with made := s.made ++ [r], created := s.created ++ [r] }

/-- Between two polls, the future of an asynchronous call may be dropped, and the mutex with it. -/
def cancel (s : PyRecordBatchStream B E) (r : Request) : Option (PyRecordBatchStream B E) :=
  if r.sync then none
  else if r ∈ s.created then
    some { s with created := s.created.erase r, cancelled := s.cancelled ++ [r] }
  else if r ∈ s.queue ∧ ¬(s.queue.head? = some r ∧ s.stream.polling = true) then
    some { s with queue := s.queue.erase r, cancelled := s.cancelled ++ [r] }
  else none

/-- The stream is polled by the call that holds the mutex, and dropped once nothing refers to it. -/
def Permits (s : PyRecordBatchStream B E) : Action B E → Prop
  | .pollNext => s.queue ≠ []
  | .dropReceiver | .dropTasks => s.held = false ∧ s.created = [] ∧ s.queue = []
  | _ => True

instance {s : PyRecordBatchStream B E} : (a : Action B E) → Decidable (s.Permits a)
  | .pollNext => inferInstanceAs (Decidable (s.queue ≠ []))
  | .dropReceiver | .dropTasks =>
    inferInstanceAs (Decidable (s.held = false ∧ s.created = [] ∧ s.queue = []))
  | .receive | .pending | .endOfStream | .propagatePanic | .coordinator _ | .abort | .host | .answer _
  | .dispose => .isTrue trivial

/-- When the poll gives the call its answer, the next one has the mutex. -/
def settle (s : PyRecordBatchStream B E) (a : Action B E) (stream : Stream B E) :
    PyRecordBatchStream B E :=
  match s.queue with
  | [] => { s with stream }
  | r :: rest => match a.reply s.stream r.sync with
    | some reply => { s with stream, queue := rest, replies := s.replies ++ [(r, reply)] }
    | none => { s with stream }

/-- The items the calls got, in the order they got them. -/
def items (s : PyRecordBatchStream B E) : List (Except E B) := s.replies.filterMap fun x => itemOf x.2

/-- All calls, by what has become of them. -/
def calls (s : PyRecordBatchStream B E) : List Request :=
  s.refused ++ s.cancelled ++ s.replies.map Prod.fst ++ s.created ++ s.queue

def step (c : Config B E) :
    Access B E → Budget × PyRecordBatchStream B E → Option (Budget × PyRecordBatchStream B E)
  | .call sync, (b, s) => if s.held then some (b, s.call sync) else none
  | .lock r, (b, s) =>
    if r ∈ s.created then
      some (b, { s with
        created := s.created.erase r
        queue := s.queue ++ [r]
        turns := s.turns ++ [r] })
    else none
  | .cancel r, (b, s) => (s.cancel r).map (b, ·)
  | .release, (b, s) =>
    if s.held = true ∧ s.borrowed = false then some (b, { s with held := false }) else none
  | .stream a, (b, s) =>
    if s.Permits a then (Bridge.step c a (b, s.stream)).map fun p => (p.1, s.settle a p.2) else none

end PyRecordBatchStream

/-- An iterator over a stream whose pull may answer anything. -/
def iterator (c : Config B E) : Component Budget (PyRecordBatchStream B E) (Access B E) where
  start s := s = {}
  step p x q := PyRecordBatchStream.step c x p = some q

/-- The calls of the closure answer what `pull` says. -/
def Access.Answers (pull : ℕ → Outcome B E) (p : Budget × PyRecordBatchStream B E) :
    Access B E → Prop
  | .stream a => Bridge.Answers pull (p.1, p.2.stream) a
  | _ => True

instance [DecidableEq B] [DecidableEq E] {pull : ℕ → Outcome B E}
    {p : Budget × PyRecordBatchStream B E} : (x : Access B E) → Decidable (Access.Answers pull p x)
  | .stream a => inferInstanceAs (Decidable (Bridge.Answers pull (p.1, p.2.stream) a))
  | .call _ | .lock _ | .cancel _ | .release => .isTrue trivial

variable {c : Config B E} {b b' : Budget} {s t : PyRecordBatchStream B E} {x : Access B E}
  {a : Action B E} {r : Request} {p q : Budget × PyRecordBatchStream B E} {pull : ℕ → Outcome B E}

namespace PyRecordBatchStream

/-- What a call or its end does to an iterator, apart from the stream. -/
inductive Accessed (s : PyRecordBatchStream B E) : Access B E → PyRecordBatchStream B E → Prop
  | refused {sync : Bool} (hh : s.held = true) (hb : s.borrowed = true) :
      Accessed s (.call sync) { s with
        made := s.made ++ [⟨s.made.length, sync⟩], refused := s.refused ++ [⟨s.made.length, sync⟩] }
  | created {sync : Bool} (hh : s.held = true) (hb : s.borrowed = false) :
      Accessed s (.call sync) { s with
        made := s.made ++ [⟨s.made.length, sync⟩], created := s.created ++ [⟨s.made.length, sync⟩] }
  | lock {r : Request} (hr : r ∈ s.created) :
      Accessed s (.lock r) { s with
        created := s.created.erase r, queue := s.queue ++ [r], turns := s.turns ++ [r] }
  | cancelCreated {r : Request} (hs : r.sync = false) (hr : r ∈ s.created) :
      Accessed s (.cancel r) { s with
        created := s.created.erase r, cancelled := s.cancelled ++ [r] }
  | cancelQueued {r : Request} (hs : r.sync = false) (hr : r ∈ s.queue)
      (hp : ¬(s.queue.head? = some r ∧ s.stream.polling = true)) :
      Accessed s (.cancel r) { s with queue := s.queue.erase r, cancelled := s.cancelled ++ [r] }
  | release (hb : s.borrowed = false) : Accessed s .release { s with held := false }

theorem step_cases (h : step c x (b, s) = some (b', t)) :
    (b' = b ∧ s.Accessed x t) ∨ ∃ a stream, x = .stream a ∧ s.Permits a ∧
      Bridge.step c a (b, s.stream) = some (b', stream) ∧ t = s.settle a stream := by
  cases x with
  | call sync =>
    obtain ⟨hh, heq⟩ := Option.ite_none_right_eq_some.mp h
    cases heq
    left
    unfold PyRecordBatchStream.call
    cases hb : s.borrowed with
    | true => exact ⟨rfl, .refused hh hb⟩
    | false => exact ⟨rfl, .created hh hb⟩
  | lock r =>
    obtain ⟨hr, heq⟩ := Option.ite_none_right_eq_some.mp h
    cases heq
    exact .inl ⟨rfl, .lock hr⟩
  | cancel r =>
    obtain ⟨t, hc, heq⟩ := Option.map_eq_some_iff.mp h
    cases heq
    left
    unfold PyRecordBatchStream.cancel at hc
    split at hc
    · cases hc
    · rename_i hs
      have hs : r.sync = false := by simpa using hs
      split at hc
      · rename_i hr
        cases hc
        exact ⟨rfl, .cancelCreated hs hr⟩
      · obtain ⟨⟨hr, hp⟩, heq⟩ := Option.ite_none_right_eq_some.mp hc
        cases heq
        exact ⟨rfl, .cancelQueued hs hr hp⟩
  | release =>
    obtain ⟨⟨-, hb⟩, heq⟩ := Option.ite_none_right_eq_some.mp h
    cases heq
    exact .inl ⟨rfl, .release hb⟩
  | stream a =>
    obtain ⟨hp, h⟩ := Option.ite_none_right_eq_some.mp h
    obtain ⟨⟨b', stream⟩, hs, heq⟩ := Option.map_eq_some_iff.mp h
    cases heq
    exact .inr ⟨a, stream, rfl, hp, hs, rfl⟩

theorem Accessed.stream_eq (h : s.Accessed x t) : t.stream = s.stream := by
  cases h <;> rfl

theorem not_accessed_stream : ¬s.Accessed (.stream a) t := by
  intro h
  cases h

theorem settle_stream (s : PyRecordBatchStream B E) (a : Action B E) (stream : Stream B E) :
    (s.settle a stream).stream = stream := by
  unfold settle
  split
  · rfl
  · split <;> rfl

/-- A step of the stream is one of the iterator, where the calls permit it. -/
theorem step_stream {stream : Stream B E} (hp : s.Permits a)
    (h : Bridge.step c a (b, s.stream) = some (b', stream)) :
    step c (.stream a) (b, s) = some (b', s.settle a stream) := by
  simp only [step, if_pos hp, h, Option.map_some]

/-- What is true of a reply: it is an item, or the end of the stream as the call is to be told of it, or
a panic. -/
def Told (ending : Option Ending) (r : Request) (reply : Except (Raised E) B) : Prop :=
  (∃ item, reply = nextStream r.sync (some item)) ∨
    (reply = nextStream r.sync none ∧ ending = some .clean) ∨
      ∃ payload, reply = .error (.panic payload) ∧ ending = some (.panicked payload)

theorem itemOf_nextStream (sync : Bool) (answer : Option (Except E B)) :
    itemOf (nextStream sync answer) = answer := by
  rcases answer with _ | _ | _
  · cases sync <;> rfl
  · rfl
  · rfl

end PyRecordBatchStream

open PyRecordBatchStream (Told itemOf_nextStream)

/-- A step gives a poll its answer, which `delivered` and `ending` record, or does not concern it. -/
theorem Step.reply {p q : Budget × Stream B E} (h : Step c p a q) :
    (p.2.polling = true ∧ q.2.polling = false ∧ ∃ reply : Bool → Except (Raised E) B,
      (∀ sync, a.reply p.2 sync = some (reply sync)) ∧ ∀ r : Request,
        q.2.delivered = p.2.delivered ++ (itemOf (reply r.sync)).toList ∧
          Told q.2.ending r (reply r.sync)) ∨
    (∀ sync, a.reply p.2 sync = none) ∧ q.2.delivered = p.2.delivered ∧
      (q.2.polling = true → p.2.polling = true ∨ a = .pollNext) := by
  cases h with
  | @receive b s item rest hp hc =>
    refine .inl ⟨hp, rfl, fun sync => nextStream sync (some item), fun sync => ?_, fun r => ⟨?_, ?_⟩⟩
    · simp [Action.reply, hc]
    · simp [itemOf_nextStream]
    · exact .inl ⟨item, rfl⟩
  | endOfStream hp hc hf =>
    refine .inl ⟨hp, rfl, fun sync => nextStream sync none, fun _ => rfl, fun r => ⟨?_, ?_⟩⟩
    · simp [itemOf_nextStream]
    · exact .inr (.inl ⟨rfl, rfl⟩)
  | @propagatePanic b s payload hp hc =>
    refine .inl ⟨hp, rfl, fun _ => .error (.panic payload), fun _ => ?_, fun r => ⟨?_, ?_⟩⟩
    · simp [Action.reply, hc]
    · simp [itemOf]
    · exact .inr (.inr ⟨payload, rfl, rfl⟩)
  | pollNext =>
    rw [Stream.pollNext_frame]
    exact .inr ⟨fun _ => rfl, rfl, fun _ => .inr rfl⟩
  | coordinator h => rw [h.frame]; exact .inr ⟨fun _ => rfl, rfl, .inl⟩
  | abort _ h => rw [h.frame]; exact .inr ⟨fun _ => rfl, rfl, .inl⟩
  | host h => rw [h.frame]; exact .inr ⟨fun _ => rfl, rfl, .inl⟩
  | answer => rw [pullReturned_frame]; exact .inr ⟨fun _ => rfl, rfl, .inl⟩
  | pending => exact .inr ⟨fun _ => rfl, rfl, nofun⟩
  | _ => exact .inr ⟨fun _ => rfl, rfl, .inl⟩

/-- A stream lives until its receiver is dropped. -/
theorem Step.live {p q : Budget × Stream B E} (h : Step c p a q) (hl : q.2.live = false) :
    p.2.live = false ∨ a = .dropReceiver := by
  cases h with
  | dropReceiver => exact .inr rfl
  | pollNext => rw [Stream.pollNext_frame] at hl; exact .inl hl
  | coordinator h => rw [h.frame] at hl; exact .inl hl
  | abort _ h => rw [h.frame] at hl; exact .inl hl
  | host h => rw [h.frame] at hl; exact .inl hl
  | answer => rw [pullReturned_frame] at hl; exact .inl hl
  | _ => exact .inl hl

namespace PyRecordBatchStream

/-- A step of the stream is the answer of the call that has the mutex, or has nothing to do with the
calls. -/
theorem settle_cases {stream : Stream B E} (h : Step c (b, s.stream) a (b', stream))
    (hq : s.stream.polling = true → s.queue ≠ []) :
    (∃ r rest reply, s.queue = r :: rest ∧ stream.polling = false ∧
      s.settle a stream = { s with stream, queue := rest, replies := s.replies ++ [(r, reply)] } ∧
      stream.delivered = s.stream.delivered ++ (itemOf reply).toList ∧ Told stream.ending r reply) ∨
    ((∀ sync, a.reply s.stream sync = none) ∧ s.settle a stream = { s with stream } ∧
      stream.delivered = s.stream.delivered ∧
        (stream.polling = true → s.stream.polling = true ∨ a = .pollNext)) := by
  rcases h.reply with ⟨hp, hp', reply, hr, htold⟩ | ⟨hr, hd, hp⟩
  · obtain ⟨r, rest, hqueue⟩ := List.exists_cons_of_ne_nil (hq hp)
    exact .inl ⟨r, rest, _, hqueue, hp', by simp only [settle, hqueue, hr], htold r⟩
  · refine .inr ⟨hr, ?_, hd, hp⟩
    unfold settle
    cases s.queue with
    | nil => rfl
    | cons r rest => simp only [hr]

/-- The calls of an iterator at any time: each is in one place, those that asked for the mutex are
answered in turn, one blocking call at a time, and what the stream delivered is what they got. -/
structure Orderly (s : PyRecordBatchStream B E) : Prop where
  calls : s.calls.Perm s.made
  ids : s.made.map Request.id = List.range s.made.length
  turns : (s.replies.map Prod.fst ++ s.queue).Sublist s.turns
  blocking : (s.created ++ s.queue).countP Request.sync ≤ 1
  cancelled : ∀ r ∈ s.cancelled, r.sync = false
  polling : s.stream.polling = true → s.queue ≠ []
  live : s.stream.live = false → s.held = false ∧ s.created = [] ∧ s.queue = []
  items : s.items = s.stream.delivered
  told : ∀ x ∈ s.replies, Told s.stream.ending x.1 x.2

theorem orderly_initial : Orderly ({} : PyRecordBatchStream B E) where
  calls := .refl _
  ids := rfl
  turns := .refl _
  blocking := Nat.zero_le _
  cancelled := nofun
  polling := nofun
  live := nofun
  items := rfl
  told := nofun

/-- The calls are numbered as they are made. -/
theorem ids_append {rs : List Request} (h : rs.map Request.id = List.range rs.length) (sync : Bool) :
    (rs ++ [(⟨rs.length, sync⟩ : Request)]).map Request.id =
      List.range (rs ++ [(⟨rs.length, sync⟩ : Request)]).length := by
  rw [List.map_append, h, List.length_append, List.length_singleton, List.range_succ]
  rfl

theorem blocking_of_not_borrowed (h : s.borrowed = false) :
    (s.created ++ s.queue).countP Request.sync = 0 := by
  refine List.countP_eq_zero.mpr fun r hr => ?_
  simpa using List.any_eq_false.mp h r hr

theorem count_erase_of_mem {r : Request} {rs : List Request} (h : r ∈ rs) (r' : Request) :
    rs.count r' = (rs.erase r).count r' + [r].count r' := by
  rw [(List.perm_cons_erase h).count_eq, List.count_cons, List.count_singleton]

theorem countP_erase_of_mem {r : Request} {rs : List Request} (h : r ∈ rs) :
    rs.countP Request.sync = (rs.erase r).countP Request.sync + [r].countP Request.sync := by
  rw [(List.perm_cons_erase h).countP_eq, List.countP_cons, List.countP_singleton]

/-- Calls come and go in order. -/
theorem Orderly.accessed (hI : s.Orderly) (h : s.Accessed x t) : t.Orderly := by
  have hcount := fun r' => hI.calls.count_eq r'
  have hblocking := hI.blocking
  simp only [PyRecordBatchStream.calls, List.count_append] at hcount
  simp only [List.countP_append] at hblocking
  cases h with
  | refused hh hb =>
    refine ⟨?_, ids_append hI.ids _, hI.turns, hI.blocking, hI.cancelled, hI.polling, hI.live, hI.items,
      hI.told⟩
    refine List.perm_iff_count.mpr fun r' => ?_
    have hr' := hcount r'
    simp only [PyRecordBatchStream.calls, List.count_append]
    omega
  | @created sync hh hb =>
    have hnone := blocking_of_not_borrowed hb
    simp only [List.countP_append] at hnone
    refine ⟨?_, ids_append hI.ids _, hI.turns, ?_, hI.cancelled, hI.polling, ?_, hI.items, hI.told⟩
    · refine List.perm_iff_count.mpr fun r' => ?_
      have hr' := hcount r'
      simp only [PyRecordBatchStream.calls, List.count_append]
      omega
    · have hone := List.countP_le_length (p := Request.sync) (l := [⟨s.made.length, sync⟩])
      simp only [List.countP_append, List.length_singleton] at hone ⊢
      omega
    · intro hl
      cases hh.symm.trans (hI.live hl).1
  | lock hr =>
    refine ⟨?_, hI.ids, ?_, ?_, hI.cancelled, fun _ => by simp, ?_, hI.items, hI.told⟩
    · refine List.perm_iff_count.mpr fun r' => ?_
      have hr' := hcount r'
      have herase := count_erase_of_mem hr r'
      simp only [PyRecordBatchStream.calls, List.count_append]
      omega
    · rw [← List.append_assoc]
      exact hI.turns.append (.refl _)
    · have herase := countP_erase_of_mem hr
      simp only [List.countP_append]
      omega
    · intro hl
      exact absurd (hI.live hl).2.1 (List.ne_nil_of_mem hr)
  | cancelCreated hs hr =>
    refine ⟨?_, hI.ids, hI.turns, ?_, ?_, hI.polling, ?_, hI.items, hI.told⟩
    · refine List.perm_iff_count.mpr fun r' => ?_
      have hr' := hcount r'
      have herase := count_erase_of_mem hr r'
      simp only [PyRecordBatchStream.calls, List.count_append]
      omega
    · have herase := countP_erase_of_mem hr
      simp only [List.countP_append]
      omega
    · exact List.forall_mem_append.mpr ⟨hI.cancelled, by simpa using hs⟩
    · intro hl
      exact absurd (hI.live hl).2.1 (List.ne_nil_of_mem hr)
  | @cancelQueued r hs hr hp =>
    refine ⟨?_, hI.ids, ?_, ?_, ?_, ?_, ?_, hI.items, hI.told⟩
    · refine List.perm_iff_count.mpr fun r' => ?_
      have hr' := hcount r'
      have herase := count_erase_of_mem hr r'
      simp only [PyRecordBatchStream.calls, List.count_append]
      omega
    · exact ((List.erase_sublist).append_left _).trans hI.turns
    · have herase := countP_erase_of_mem hr
      simp only [List.countP_append]
      omega
    · exact List.forall_mem_append.mpr ⟨hI.cancelled, by simpa using hs⟩
    · -- The call that is polling is another one, and stays.
      intro hpoll hnil
      obtain ⟨r', rest, hqueue⟩ := List.exists_cons_of_ne_nil (hI.polling hpoll)
      have hne : r' ≠ r := by
        rintro rfl
        exact hp ⟨by rw [hqueue]; rfl, hpoll⟩
      have hmem : r' ∈ s.queue.erase r :=
        (List.mem_erase_of_ne hne).mpr (by rw [hqueue]; exact List.mem_cons_self)
      exact List.ne_nil_of_mem hmem hnil
    · intro hl
      exact absurd (hI.live hl).2.2 (List.ne_nil_of_mem hr)
  | release hb =>
    exact ⟨hI.calls, hI.ids, hI.turns, hI.blocking, hI.cancelled, hI.polling,
      fun hl => ⟨rfl, (hI.live hl).2⟩, hI.items, hI.told⟩

/-- An answer goes to the call that has the mutex, and to no other. -/
theorem Orderly.settle {stream : Stream B E} (hI : s.Orderly) (hp : s.Permits a)
    (h : Step c (b, s.stream) a (b', stream))
    (hending : ∀ ending, s.stream.ending = some ending → stream.ending = some ending) :
    (s.settle a stream).Orderly := by
  have htold : ∀ x ∈ s.replies, Told stream.ending x.1 x.2 := by
    intro x hx
    rcases hI.told x hx with hitem | ⟨hx, he⟩ | ⟨payload, hx, he⟩
    · exact .inl hitem
    · exact .inr (.inl ⟨hx, hending _ he⟩)
    · exact .inr (.inr ⟨payload, hx, hending _ he⟩)
  have hlive : stream.live = false → s.held = false ∧ s.created = [] ∧ s.queue = [] := by
    intro hl
    rcases h.live hl with hl | rfl
    · exact hI.live hl
    · exact hp
  rcases settle_cases h hI.polling with
    ⟨r, rest, reply, hqueue, hpoll, hsettle, hd, hnew⟩ | ⟨-, hsettle, hd, hpoll⟩
  · rw [hsettle]
    have hmoved : (s.replies ++ [(r, reply)]).map Prod.fst ++ rest =
        s.replies.map Prod.fst ++ s.queue := by
      simp [hqueue]
    refine ⟨?_, hI.ids, ?_, ?_, hI.cancelled, ?_, ?_, ?_, ?_⟩
    · refine List.perm_iff_count.mpr fun r' => ?_
      have hr' := hI.calls.count_eq r'
      have hmoved' := congrArg (List.count r') hmoved
      simp only [PyRecordBatchStream.calls, List.count_append] at hr' hmoved' ⊢
      omega
    · rw [hmoved]
      exact hI.turns
    · have hblocking := hI.blocking
      rw [hqueue] at hblocking
      simp only [List.countP_append, List.countP_cons] at hblocking ⊢
      omega
    · simp [hpoll]
    · intro hl
      have hnil := (hlive hl).2.2
      rw [hqueue] at hnil
      cases hnil
    · rw [hd, ← hI.items]
      cases hitem : itemOf reply <;> simp [PyRecordBatchStream.items, hitem]
    · exact List.forall_mem_append.mpr ⟨htold, by simpa using hnew⟩
  · rw [hsettle]
    refine ⟨hI.calls, hI.ids, hI.turns, hI.blocking, hI.cancelled, fun hp' => ?_, hlive, ?_, htold⟩
    · rcases hpoll hp' with hpoll | rfl
      · exact hI.polling hpoll
      · exact hp
    · exact hI.items.trans hd.symm

/-- No call is in two places. -/
theorem Orderly.nodup (hI : s.Orderly) : s.calls.Nodup := by
  have hmade : s.made.Nodup := List.Nodup.of_map Request.id (hI.ids ▸ List.nodup_range)
  exact hI.calls.nodup_iff.mpr hmade

end PyRecordBatchStream

/-- How a stream ended stays as it is. -/
theorem ending_stays {p q : Budget × Stream B E} {ending : Ending}
    (hp : (component c).alone.Reachable p) (h : Step c p a q) (he : p.2.ending = some ending) :
    q.2.ending = some ending := by
  have hs := reachable_shaped hp
  have hI := reachable_lossless hp
  cases h with
  | endOfStream hpoll hc hf =>
    cases ending with
    | clean => rfl
    | panicked payload =>
      have hlive := ((reachable_accounted hp).polling hpoll).2
      cases (hs.ended hf hlive).symm.trans (hI.panicked payload he)
  | propagatePanic hpoll hc =>
    have hv := hs.panicked hc
    cases ending with
    | clean => cases hv.symm.trans (hI.clean he).1
    | panicked payload =>
      cases hv.symm.trans (hI.panicked payload he)
      rfl
  | pollNext => rw [Stream.pollNext_frame]; exact he
  | coordinator h => rw [h.frame]; exact he
  | abort _ h => rw [h.frame]; exact he
  | host h => rw [h.frame]; exact he
  | answer => rw [pullReturned_frame]; exact he
  | _ => exact he

/-- The iterator of a stream of `spawn_channel_stream`, for a closure with these answers. -/
def iterated (c : Config B E) (pull : ℕ → Outcome B E) :
    Component Budget (PyRecordBatchStream B E) (Access B E) :=
  (iterator c).restrict (Access.Answers pull)

/-- A call does nothing to the stream but poll it. -/
theorem iterated_stream (h : (iterated c pull).alone.Reachable p) :
    ((component c).restrict (Answers pull)).alone.Reachable (p.1, p.2.stream) := by
  refine System.reachable_invariant (T := (iterated c pull).alone)
    (I := fun p => ((component c).restrict (Answers pull)).alone.Reachable (p.1, p.2.stream)) ?_ ?_ h
  · intro p hp
    have hs : p.2 = {} := hp
    rw [hs]
    exact .of_start rfl
  · rintro ⟨b, s⟩ x ⟨b', t⟩ hs hr
    cases x with
    | none =>
      obtain rfl : t = s := hs
      exact hr.step (a := none) rfl
    | some x =>
      obtain ⟨hs, ha⟩ := hs
      rcases PyRecordBatchStream.step_cases hs with ⟨rfl, hacc⟩ | ⟨a, stream, rfl, hp, hstep, rfl⟩
      · exact hr.step (a := none) hacc.stream_eq
      · rw [PyRecordBatchStream.settle_stream]
        exact hr.step (a := some a) ⟨hstep, ha⟩

theorem iterated_orderly (h : (iterated c pull).alone.Reachable p) : p.2.Orderly := by
  refine System.reachable_invariant_of_reachable (T := (iterated c pull).alone)
    (I := fun p => p.2.Orderly) ?_ ?_ h
  · intro p hp
    have hs : p.2 = {} := hp
    rw [hs]
    exact PyRecordBatchStream.orderly_initial
  · rintro ⟨b, s⟩ x ⟨b', t⟩ hr hs hI
    cases x with
    | none =>
      obtain rfl : t = s := hs
      exact hI
    | some x =>
      obtain ⟨hs, -⟩ := hs
      rcases PyRecordBatchStream.step_cases hs with ⟨rfl, hacc⟩ | ⟨a, stream, rfl, hp, hstep, rfl⟩
      · exact hI.accessed hacc
      · have hstream := Component.alone_reachable_of_restrict (iterated_stream hr)
        have hdone := reachable_step hstream hstep
        exact hI.settle hp hdone fun ending he => ending_stays hstream hdone he

/-- However blocking and asynchronous calls share an iterator, and whichever of them are cancelled: each
call is in one place, those that asked for the mutex are answered in turn, and what they get is together
an initial part of what the source owes, in order. A call that is told that the stream is exhausted, in
its own way, comes after all of it, and one that panics has the panic from the source. -/
theorem iterator_lossless {T α : Type} [DecidableEq T] [ToString T] (schema : Schema T)
    (pull : ℕ → Outcome (RecordBatch T α) DataFusionError) (readAhead : ReadAhead)
    {p : Budget × PyRecordBatchStream (RecordBatch T α) DataFusionError}
    (h : (iterated ⟨checkBatchSchema schema, readAhead⟩ pull).alone.Reachable p) :
    (p.2.calls.Perm p.2.made ∧ p.2.made.map Request.id = List.range p.2.made.length) ∧
      (p.2.replies.map Prod.fst ++ p.2.queue).Sublist p.2.turns ∧
      Within (checkBatchSchema schema) pull p.2.items ∧
      ∀ x ∈ p.2.replies, (∃ item, x.2 = nextStream x.1.sync (some item)) ∨
        (x.2 = nextStream x.1.sync none ∧ Complete (checkBatchSchema schema) pull p.2.items) ∨
          ∃ payload, x.2 = .error (.panic payload) ∧ Panics (checkBatchSchema schema) pull payload := by
  have hI := iterated_orderly h
  have hstream := iterated_stream h
  rw [hI.items]
  refine ⟨⟨hI.calls, hI.ids⟩, hI.turns, delivered_within hstream, fun x hx => ?_⟩
  rcases hI.told x hx with hitem | ⟨hx, he⟩ | ⟨payload, hx, he⟩
  · exact .inl hitem
  · exact .inr (.inl ⟨hx, complete_of_clean hstream he⟩)
  · exact .inr (.inr ⟨payload, hx, panics_of_ending hstream he⟩)

def idSteps (as : List (Action (RecordBatch String ℤ) DataFusionError)) :
    List (Access (RecordBatch String ℤ) DataFusionError) := as.map .stream

/-- An asynchronous call is cancelled while it waits, another one gets the batch, and a blocking one is
told of the end. -/
def idCalls : List (Access (RecordBatch String ℤ) DataFusionError) :=
  [.call false, .call false, .lock ⟨0, false⟩, .lock ⟨1, false⟩] ++
    idSteps [.coordinator true, .coordinator true, .coordinator true, .host, .pollNext, .pending] ++
    [.cancel ⟨0, false⟩] ++ idSteps (requestedRound (idPull 0) ++
      [.host, .host, .host, .host, .host, .coordinator true, .receive]) ++
    [.call true, .lock ⟨2, true⟩] ++ idSteps (requestedRound (idPull 1) ++
      [.host, .host, .coordinator true, .endOfStream])

theorem iterator_lossless_idCalls :
    ∃ p, (iterated ⟨checkBatchSchema idSchema, .onDemand⟩ idPull).alone.Reachable p ∧
      p.2.cancelled = [⟨0, false⟩] ∧ p.2.replies.map Prod.fst = [⟨1, false⟩, ⟨2, true⟩] ∧
        Complete (checkBatchSchema idSchema) idPull p.2.items := by
  obtain ⟨p, hrun, hcancelled, hreplies⟩ : ∃ p, System.replay
      (Component.guarded (Access.Answers idPull)
        (PyRecordBatchStream.step ⟨checkBatchSchema idSchema, .onDemand⟩)) idCalls
        (.initial, {}) = some p ∧ p.2.cancelled = [⟨0, false⟩] ∧
      p.2.replies = [(⟨1, false⟩, .ok (idBatch [1, 2])), (⟨2, true⟩, nextStream true none)] :=
    ⟨_, rfl, rfl, rfl⟩
  obtain ⟨xs, hx, -⟩ := Component.alone_replay
    (C := iterated ⟨checkBatchSchema idSchema, .onDemand⟩ idPull)
    (Component.guarded_step fun _ _ _ hs => hs) hrun
  have hp : (iterated ⟨checkBatchSchema idSchema, .onDemand⟩ idPull).alone.Reachable p :=
    ⟨(.initial, {}), xs, rfl, hx⟩
  refine ⟨p, hp, hcancelled, by rw [hreplies]; rfl, ?_⟩
  obtain ⟨-, -, -, htold⟩ := iterator_lossless _ _ _ hp
  rcases htold (⟨2, true⟩, nextStream true none) (by simp [hreplies]) with
    ⟨item, h⟩ | ⟨-, h⟩ | ⟨payload, h, -⟩
  · rcases item with _ | _ <;> cases h
  · exact h
  · cases h

end XorqDatafusion.Bridge
