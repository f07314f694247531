import XorqDatafusion.Bridge.Iterator
import XorqDatafusion.Bridge.Liveness

/-! Calls of an iterator get their turn, under a runtime that is fair to its stream: a pull in progress
comes back, and the blocking pool has a thread for each round. -/
namespace XorqDatafusion.Bridge

open Transition

variable {B E : Type} {c : Config B E} {a : Action B E} {r r' : Request} {rs : List Request}

/-- A step that answers no call leaves a request as it is, and what there is for its consumer. -/
theorem Step.holds {p q : Budget × Stream B E} (h : Step c p a q)
    (hp : (component c).alone.Reachable p) (hq : Shaped c q.2) (hl : q.2.live = true)
    (hno : ∀ sync, a.reply p.2 sync = none) :
    (p.2.requested = true → q.2.requested = true) ∧ (p.2.Ready → q.2.Ready) := by
  have hover : p.2.coord.over = true → q.2.coord.over = true := by
    intro ho
    by_contra hq
    cases ho.symm.trans ((h.counts (reachable_accounted hp).settled).alive (by simpa using hq))
  have hkeep : (p.2.requested = true → q.2.requested = true) ∧ (p.2.chan ≠ [] → q.2.chan ≠ []) := by
    cases h with
    | pollNext => rw [Stream.pollNext_frame]; exact ⟨fun _ => rfl, id⟩
    | receive hpoll hc => simpa [Action.reply, hc] using hno true
    | dropReceiver => cases hl
    | coordinator h => rw [h.frame]; exact ⟨id, id⟩
    | abort _ h => rw [h.frame]; exact ⟨id, id⟩
    | host h => rw [h.frame]; exact ⟨id, id⟩
    | @answer b s r o hh hr =>
      have hlive : s.live = true := by
        have hl' := hl
        rw [pullReturned_frame] at hl'
        exact hl'
      have hchan := pullReturned_chan c b s r o hlive
      refine ⟨?_, fun hne => ?_⟩
      · rw [pullReturned_frame]
        exact id
      · show (pullReturned c b s r o).2.1.chan ≠ []
        rw [hchan]
        exact List.append_ne_nil_of_left_ne_nil hne _
    | _ => exact ⟨id, id⟩
  refine ⟨hkeep.1, ?_⟩
  rintro (hc | ⟨hc, -⟩ | ⟨payload, hc⟩)
  · exact .inl (hkeep.2 hc)
  · exact hq.ready_of_over hl (hover (by rw [hc]; rfl))
  · exact hq.ready_of_over hl (hover (by rw [hc]; rfl))

/-- A poll brings an answer, or sends a request. -/
theorem Step.takes {p q : Budget × Stream B E} (h : Step c p a q) (ht : a.takes p.2) :
    a.reply p.2 true ≠ none ∨ p.2.requested = false ∧ q.2.requested = true := by
  cases h with
  | pollNext =>
    rw [Stream.pollNext_frame]
    exact .inr ⟨ht, rfl⟩
  | receive hpoll hc => exact .inl (by simp [Action.reply, hc])
  | endOfStream =>
    refine .inl ?_
    intro h
    cases h
  | propagatePanic hpoll hc => exact .inl (by simp [Action.reply, hc])
  | _ => cases ht

namespace PyRecordBatchStream

variable {s t : PyRecordBatchStream B E} {x : Access B E}

theorem Orderly.created_nodup (hI : s.Orderly) : s.created.Nodup :=
  hI.nodup.of_append_left.of_append_right

theorem Orderly.queue_nodup (hI : s.Orderly) : s.queue.Nodup := hI.nodup.of_append_right

/-- A call stays on record, and goes only forward. -/
theorem Accessed.forward (h : s.Accessed x t) (hI : s.Orderly) (hr : r ∈ s.made) :
    r ∈ t.made ∧ (r ∈ t.created → r ∈ s.created) := by
  cases h with
  | refused => exact ⟨List.mem_append_left _ hr, id⟩
  | created =>
    refine ⟨List.mem_append_left _ hr, fun hc => ?_⟩
    rcases List.mem_append.mp hc with hc | hnew
    · exact hc
    · obtain rfl := List.mem_singleton.mp hnew
      have hid := List.mem_map_of_mem (f := Request.id) hr
      rw [hI.ids, List.mem_range] at hid
      exact absurd hid (Nat.lt_irrefl _)
  | lock | cancelCreated => exact ⟨hr, List.mem_of_mem_erase⟩
  | cancelQueued | release => exact ⟨hr, id⟩

theorem Accessed.created_of_lock (h : s.Accessed (.lock r) t) : t.created = s.created.erase r := by
  cases h
  rfl

/-- Leaving a queue brings nobody behind. -/
theorem idxOf_erase_le (hne : r ≠ r') : (rs.erase r').idxOf r ≤ rs.idxOf r := by
  induction rs with
  | nil => exact le_rfl
  | cons r₀ rs ih =>
    by_cases h : r₀ = r'
    · subst h
      rw [List.erase_cons_head, List.idxOf_cons_ne _ (Ne.symm hne)]
      omega
    · rw [List.erase_cons_tail (by simpa using h)]
      by_cases h' : r₀ = r
      · subst h'
        simp
      · rw [List.idxOf_cons_ne _ h', List.idxOf_cons_ne _ h']
        omega

theorem Accessed.idxOf_le (h : s.Accessed x t) (hI : s.Orderly) (hr : r ∈ s.queue)
    (hr' : r ∈ t.queue) : t.queue.idxOf r ≤ s.queue.idxOf r := by
  cases h with
  | lock => rw [List.idxOf_append_of_mem hr]
  | @cancelQueued r₀ hs hmem hp =>
    have hne : r ≠ r₀ := by
      rintro rfl
      exact hI.queue_nodup.not_mem_erase hr'
    exact idxOf_erase_le hne
  | _ => exact le_rfl

end PyRecordBatchStream

section Iterators

variable {T α ι : Type} [DecidableEq T] [ToString T] [DecidableEq ι]

/-- The iterators of a process, each over a closure with its answers. -/
def iterators (schema : ι → Schema T) (pull : ι → ℕ → Outcome (RecordBatch T α) DataFusionError)
    (readAhead : ι → ReadAhead) :
    System (Budget × (ι → PyRecordBatchStream (RecordBatch T α) DataFusionError))
      (ι × Access (RecordBatch T α) DataFusionError) :=
  family (fun i => iterated (streamConfig schema readAhead i) (pull i)) Budget.initial

/-- The runtime does something for the stream of the iterator `i`. -/
def Runs (i : ι) (_ : Budget × (ι → PyRecordBatchStream B E)) (x : ι × Access B E) : Prop :=
  x.1 = i ∧ ∃ a, x.2 = .stream a ∧ a.internal = true

/-- The call that has the mutex of the iterator `i` asks for an item, or takes what it asked for. -/
def Polls (i : ι) (p : Budget × (ι → PyRecordBatchStream B E)) (x : ι × Access B E) : Prop :=
  x.1 = i ∧ ∃ a, x.2 = .stream a ∧ a.takes (p.2 i).stream

/-- A call of the iterator `i` gets its answer. -/
def Replies (i : ι) (p : Budget × (ι → PyRecordBatchStream B E)) (x : ι × Access B E) : Prop :=
  x.1 = i ∧ ∃ a, x.2 = .stream a ∧ ∃ sync, a.reply (p.2 i).stream sync ≠ none

/-- The runtime is fair to the stream of the iterator `i`, to the calls that are to ask for its mutex, and
to the one that has it. -/
structure Scheduled {T : System (Budget × (ι → PyRecordBatchStream B E)) (ι × Access B E)}
    (X : Execution T) (i : ι) : Prop where
  runs : X.Fair (Runs i)
  locks : ∀ r, X.Fair fun _ x => x = (i, .lock r)
  polls : X.Responds (fun p => (p.2 i).queue ≠ [] ∧ (p.2 i).stream.Turn) (Polls i)

variable {schema : ι → Schema T} {pull : ι → ℕ → Outcome (RecordBatch T α) DataFusionError}
  {readAhead : ι → ReadAhead} {X : Execution (iterators schema pull readAhead)} {i : ι} {k m n : ℕ}
  {p q : Budget × (ι → PyRecordBatchStream (RecordBatch T α) DataFusionError)}
  {x : ι × Access (RecordBatch T α) DataFusionError}

theorem iterators_orderly (h : (iterators schema pull readAhead).Reachable p) (i : ι) :
    (p.2 i).Orderly := iterated_orderly (family_reachable_alone h i)

theorem iterators_stream (h : (iterators schema pull readAhead).Reachable p) (i : ι) :
    (component (streamConfig schema readAhead i)).alone.Reachable (p.1, (p.2 i).stream) :=
  Component.alone_reachable_of_restrict (iterated_stream (family_reachable_alone h i))

/-- A step of the process is a call of the iterator `i` or its end, a step of its stream, or leaves it
alone. -/
theorem iterators_step_cases (h : (iterators schema pull readAhead).Reachable p)
    (hs : (iterators schema pull readAhead).step p x q) (i : ι) :
    (x.1 = i ∧ q.1 = p.1 ∧ (p.2 i).Accessed x.2 (q.2 i)) ∨
      (x.1 = i ∧ ∃ a stream, x.2 = .stream a ∧ (p.2 i).Permits a ∧
        Step (streamConfig schema readAhead i) (p.1, (p.2 i).stream) a (q.1, stream) ∧
          q.2 i = (p.2 i).settle a stream) ∨
      (x.1 ≠ i ∧ q.2 i = p.2 i) := by
  obtain ⟨b, s, ⟨hs, -⟩, rfl⟩ := hs
  by_cases hi : x.1 = i
  · subst hi
    simp only [Function.update_self]
    rcases PyRecordBatchStream.step_cases hs with ⟨hb, hacc⟩ | ⟨a, stream, hx, hp, hstep, hset⟩
    · exact .inl ⟨trivial, hb, hacc⟩
    · exact .inr (.inl ⟨trivial, a, stream, hx, hp, reachable_step (iterators_stream h x.1) hstep, hset⟩)
  · exact .inr (.inr ⟨hi, Function.update_of_ne (Ne.symm hi) _ _⟩)

/-- What an access does to the stream. -/
def Access.action : Access B E → Option (Action B E)
  | .stream a => some a
  | _ => none

/-- The process without the calls. -/
def withoutCalls (p : Budget × (ι → PyRecordBatchStream B E)) : Budget × (ι → Stream B E) :=
  (p.1, fun i => (p.2 i).stream)

def streamEvent (x : ι × Access B E) : Option (ι × Action B E) := x.2.action.map (x.1, ·)

theorem withoutCalls_update (p : Budget × (ι → PyRecordBatchStream B E)) (b : Budget) (i : ι)
    (s : PyRecordBatchStream B E) : withoutCalls (b, Function.update p.2 i s) =
      (b, Function.update (withoutCalls p).2 i s.stream) := by
  refine Prod.ext rfl (funext fun j => ?_)
  by_cases hj : j = i
  · subst hj
    simp [withoutCalls]
  · simp [withoutCalls, hj]

theorem withoutCalls_rest (hs : (iterators schema pull readAhead).step p x q)
    (hx : streamEvent x = none) : withoutCalls q = withoutCalls p := by
  obtain ⟨b, s, ⟨hs, -⟩, rfl⟩ := hs
  rcases PyRecordBatchStream.step_cases hs with ⟨rfl, hacc⟩ | ⟨a, stream, hx', -⟩
  · rw [withoutCalls_update, hacc.stream_eq]
    exact Prod.ext rfl (Function.update_eq_self _ _)
  · simp [streamEvent, hx', Access.action] at hx

theorem withoutCalls_step {y : ι × Action (RecordBatch T α) DataFusionError}
    (hs : (iterators schema pull readAhead).step p x q) (hx : streamEvent x = some y) :
    (streams schema pull readAhead).step (withoutCalls p) y (withoutCalls q) := by
  obtain ⟨b, s, ⟨hs, ha⟩, rfl⟩ := hs
  obtain ⟨i, x⟩ := x
  obtain ⟨a, hact, rfl⟩ := Option.map_eq_some_iff.mp hx
  cases x with
  | stream a' =>
    cases hact
    rcases PyRecordBatchStream.step_cases hs with ⟨-, hacc⟩ | ⟨a, stream, hx', -, hstep, rfl⟩
    · cases hacc
    · cases hx'
      rw [withoutCalls_update, PyRecordBatchStream.settle_stream]
      exact ⟨b, stream, ⟨hstep, ha⟩, rfl⟩
  | _ => cases hact

def streamExecution (X : Execution (iterators schema pull readAhead)) :
    Execution (streams schema pull readAhead) :=
  X.map (f := withoutCalls) (g := streamEvent)
    (fun p hp => ⟨hp.1, fun i => show (p.2 i).stream = {} from congrArg _ (hp.2 i)⟩)
    (fun _ _ _ _ hs hx => withoutCalls_rest hs hx) (fun _ _ _ _ _ hs hx => withoutCalls_step hs hx)

/-- To the streams the runtime is as fair as to the iterators. -/
theorem streamExecution_fair (h : X.Fair (Runs i)) : (streamExecution X).Fair (Internal i) := by
  refine Execution.Responds.map (h.mono ?_ ?_)
  · rintro p hp ⟨⟨j, a⟩, t, ⟨rfl, hint⟩, b, stream, ⟨hstep, ha⟩, rfl⟩
    have hpermits : (p.2 j).Permits a := by cases a <;> trivial
    exact ⟨(j, .stream a), _, ⟨rfl, a, rfl, hint⟩, b, _,
      ⟨PyRecordBatchStream.step_stream hpermits hstep, ha⟩, rfl⟩
  · rintro p ⟨j, x⟩ ⟨rfl, a, rfl, hint⟩
    exact ⟨(j, a), rfl, rfl, hint⟩

/-- A poll is the answer of a call, or asks for it. -/
theorem polls_cases (hp : (iterators schema pull readAhead).Reachable p)
    (hs : (iterators schema pull readAhead).step p x q) (hx : Polls i p x) :
    Replies i p x ∨ (p.2 i).stream.requested = false ∧ (q.2 i).stream.requested = true := by
  obtain ⟨hi, a, ha, htakes⟩ := hx
  rcases iterators_step_cases hp hs i with ⟨-, -, hacc⟩ | ⟨-, a', stream, ha', -, hstep, hset⟩ | ⟨hne, -⟩
  · rw [ha] at hacc
    exact absurd hacc PyRecordBatchStream.not_accessed_stream
  · obtain rfl : a = a' := by simpa [ha] using ha'
    rw [hset, PyRecordBatchStream.settle_stream]
    rcases hstep.takes htakes with hreply | hasked
    · exact .inl ⟨hi, a, ha, true, hreply⟩
    · exact .inr hasked
  · exact absurd hi hne

/-- As long as some call has the mutex, one gets its answer: the request that is out is answered, and
whoever has the mutex then takes the answer. -/
theorem reply_comes (h : Scheduled X i) (hq : ∀ k, n ≤ k → ((X.state k).2 i).queue ≠ []) :
    ∃ k, n ≤ k ∧ X.Occurs (Replies i) k := by
  by_contra hnone
  have hno : ∀ k, n ≤ k → ¬X.Occurs (Replies i) k := fun k hk hocc => hnone ⟨k, hk, hocc⟩
  have hlive : ∀ k, n ≤ k → ((X.state k).2 i).stream.live = true := by
    intro k hk
    by_contra hl
    exact hq k hk ((iterators_orderly (X.reachable k) i).live (by simpa using hl)).2.2
  have hstays : ∀ k, n ≤ k → ∀ l, k ≤ l →
      (((X.state k).2 i).stream.requested = true → ((X.state l).2 i).stream.requested = true) ∧
        (((X.state k).2 i).stream.Ready → ((X.state l).2 i).stream.Ready) := by
    intro k hk l hl
    induction l, hl using Nat.le_induction with
    | base => exact ⟨id, id⟩
    | succ l hl ih =>
      cases he : X.event l with
      | none => rwa [X.rest l he]
      | some x =>
        have hs := X.step l x he
        have hreach := (X.reachable l).step hs
        rcases iterators_step_cases (X.reachable l) hs i with
          ⟨-, -, hacc⟩ | ⟨hi, a, stream, ha, -, hstep, hset⟩ | ⟨-, hsame⟩
        · rw [hacc.stream_eq]
          exact ih
        · have hstream : ((X.state (l + 1)).2 i).stream = stream := by
            rw [hset, PyRecordBatchStream.settle_stream]
          have hquiet : ∀ sync, a.reply ((X.state l).2 i).stream sync = none := by
            intro sync
            by_contra hr
            exact hno l (by omega) ⟨x, he, hi, a, ha, sync, hr⟩
          have hkeep := hstep.holds (iterators_stream (X.reachable l) i)
            (hstream ▸ reachable_shaped (iterators_stream hreach i))
            (hstream ▸ hlive (l + 1) (by omega)) hquiet
          rw [hstream]
          exact ⟨fun hr => hkeep.1 (ih.1 hr), fun hr => hkeep.2 (ih.2 hr)⟩
        · rw [hsame]
          exact ih
  -- Somebody asks, and the runtime answers.
  obtain ⟨m, hm, hr⟩ : ∃ m, n ≤ m ∧ ((X.state m).2 i).stream.requested = true := by
    by_contra hnever
    have hfree : ∀ k, n ≤ k → ((X.state k).2 i).stream.requested = false := by
      intro k hk
      by_contra hr
      exact hnever ⟨k, hk, by simpa using hr⟩
    obtain ⟨k, hk, x, he, hx⟩ := h.polls n fun k hk => ⟨hq k hk, .inl (hfree k hk)⟩
    rcases polls_cases (X.reachable k) (X.step k x he) hx with hreply | ⟨-, hr⟩
    · exact hno k hk ⟨x, he, hreply⟩
    · exact hnever ⟨k + 1, by omega, hr⟩
  obtain ⟨k, hk, hready⟩ := request_answered (X := streamExecution X) (streamExecution_fair h.runs) hr
  have hready : ((X.state k).2 i).stream.Ready := by
    refine hready.resolve_left fun hl => ?_
    cases (hlive k (by omega)).symm.trans hl
  obtain ⟨l, hl, x, he, hx⟩ := h.polls k fun l hl =>
    ⟨hq l (by omega), .inr ((hstays k (by omega) l hl).2 hready)⟩
  rcases polls_cases (X.reachable l) (X.step l x he) hx with hreply | ⟨hfree, -⟩
  · exact hno l (by omega) ⟨x, he, hreply⟩
  · cases ((hstays m hm l (by omega)).1 hr).symm.trans hfree

/-- A call that waits for the mutex moves up with every answer, until it has its own or is cancelled. -/
theorem leaves_queue (h : Scheduled X i) : ∃ k, n ≤ k ∧ r ∉ ((X.state k).2 i).queue := by
  refine Execution.eventually (I := fun _ => True) (G := fun p => r ∉ (p.2 i).queue) (W := Replies i)
    (M := fun p => (p.2 i).queue.idxOf r) trivial (fun _ _ _ _ _ _ _ => trivial) ?_ ?_
  · intro p x q hp hs _ hr hr'
    have hr : r ∈ (p.2 i).queue := not_not.mp hr
    have hr' : r ∈ (q.2 i).queue := not_not.mp hr'
    have hI := iterators_orderly hp i
    rcases iterators_step_cases hp hs i with
      ⟨-, -, hacc⟩ | ⟨-, a, stream, ha, -, hstep, hset⟩ | ⟨hi, hsame⟩
    · refine ⟨hacc.idxOf_le hI hr hr', ?_⟩
      rintro ⟨-, a, ha, -⟩
      rw [ha] at hacc
      exact absurd hacc PyRecordBatchStream.not_accessed_stream
    · rw [hset] at hr' ⊢
      rcases PyRecordBatchStream.settle_cases hstep hI.polling with
        ⟨r₀, rest, reply, hqueue, -, hsettle, -⟩ | ⟨hquiet, hsettle, -⟩
      · rw [hsettle] at hr' ⊢
        have hnodup := hI.queue_nodup
        rw [hqueue] at hnodup ⊢
        have hne : r₀ ≠ r := by
          rintro rfl
          exact (List.nodup_cons.mp hnodup).1 hr'
        rw [List.idxOf_cons_ne _ hne]
        exact ⟨Nat.le_succ _, fun _ => Nat.lt_succ_self _⟩
      · rw [hsettle]
        refine ⟨le_rfl, ?_⟩
        rintro ⟨-, a', ha', sync, hreply⟩
        obtain rfl : a = a' := by simpa [ha] using ha'
        exact absurd (hquiet sync) hreply
    · rw [hsame]
      exact ⟨le_rfl, fun hw => absurd hw.1 hi⟩
  · intro k hk hall
    exact reply_comes h fun l hl => List.ne_nil_of_mem (not_not.mp (hall l hl).2)

/-- A call stays on record, and does not come back to where it began. -/
theorem calls_forward (hnk : n ≤ k) (hr : r ∈ ((X.state n).2 i).made) :
    r ∈ ((X.state k).2 i).made ∧
      (r ∉ ((X.state n).2 i).created → r ∉ ((X.state k).2 i).created) := by
  induction k, hnk using Nat.le_induction with
  | base => exact ⟨hr, id⟩
  | succ k hk ih =>
    cases he : X.event k with
    | none => rwa [X.rest k he]
    | some x =>
      rcases iterators_step_cases (X.reachable k) (X.step k x he) i with
        ⟨-, -, hacc⟩ | ⟨-, a, stream, -, -, hstep, hset⟩ | ⟨-, hsame⟩
      · obtain ⟨hmade, hcreated⟩ := hacc.forward (iterators_orderly (X.reachable k) i) ih.1
        exact ⟨hmade, fun hn hc => ih.2 hn (hcreated hc)⟩
      · rw [hset]
        rcases PyRecordBatchStream.settle_cases hstep (iterators_orderly (X.reachable k) i).polling with
          ⟨r₀, rest, reply, -, -, hsettle, -⟩ | ⟨-, hsettle, -⟩
        · rw [hsettle]
          exact ih
        · rw [hsettle]
          exact ih
      · rw [hsame]
        exact ih

/-- A call that is made asks for the mutex, unless it is cancelled before. -/
theorem leaves_created (h : Scheduled X i) : ∃ k, n ≤ k ∧ r ∉ ((X.state k).2 i).created := by
  by_contra hnone
  have hall : ∀ k, n ≤ k → r ∈ ((X.state k).2 i).created := by
    intro k hk
    by_contra hc
    exact hnone ⟨k, hk, hc⟩
  obtain ⟨k, hk, x, he, rfl⟩ := h.locks r n fun k hk =>
    ⟨(i, .lock r), _, rfl, _, _, ⟨if_pos (hall k hk), trivial⟩, rfl⟩
  have hnodup := (iterators_orderly (X.reachable k) i).created_nodup
  have hstill := hall (k + 1) (by omega)
  rcases iterators_step_cases (X.reachable k) (X.step k _ he) i with
    ⟨-, -, hacc⟩ | ⟨-, a, stream, ha, -⟩ | ⟨hne, -⟩
  · rw [hacc.created_of_lock] at hstill
    exact hnodup.not_mem_erase hstill
  · cases ha
  · exact hne rfl

/-- Every call returns: under a fair runtime a call that is made is answered, unless it found the object
borrowed or is cancelled. -/
theorem call_returns (h : Scheduled X i) (hr : r ∈ ((X.state n).2 i).made) :
    ∃ k, n ≤ k ∧ (r ∈ ((X.state k).2 i).refused ∨
      (r.sync = false ∧ r ∈ ((X.state k).2 i).cancelled) ∨
        ∃ reply, (r, reply) ∈ ((X.state k).2 i).replies) := by
  obtain ⟨m, hm, hcreated⟩ := leaves_created (n := n) (r := r) h
  have hmade := (calls_forward hm hr).1
  obtain ⟨k, hk, hqueue⟩ := leaves_queue (n := m) (r := r) h
  obtain ⟨hmade, hcreated⟩ := (calls_forward hk hmade).imp_right (· hcreated)
  have hI := iterators_orderly (X.reachable k) i
  have hmem := hI.calls.mem_iff.mpr hmade
  simp only [PyRecordBatchStream.calls, List.mem_append, hcreated, hqueue, or_false] at hmem
  refine ⟨k, by omega, ?_⟩
  rcases hmem with (hrefused | hcancelled) | hreplied
  · exact .inl hrefused
  · exact .inr (.inl ⟨hI.cancelled r hcancelled, hcancelled⟩)
  · obtain ⟨⟨r, reply⟩, hreply, rfl⟩ := List.mem_map.mp hreplied
    exact .inr (.inr ⟨reply, hreply⟩)

end Iterators

/-- The calls of `idCalls` are all there are, and the pull thread exits. -/
theorem idCalls_scheduled :
    ∃ X : Execution (iterators (fun _ : Unit => idSchema) (fun _ => idPull) fun _ => .onDemand),
      Scheduled X () ∧ ∃ n, ⟨2, true⟩ ∈ ((X.state n).2 ()).made := by
  obtain ⟨b, s, hrun, hcreated, hqueue, hmade, ho, hc⟩ : ∃ b s, System.replay
      (Component.guarded (Access.Answers idPull)
        (PyRecordBatchStream.step ⟨checkBatchSchema idSchema, .onDemand⟩))
        (idCalls ++ idSteps [.host, .host]) (.initial, {}) = some (b, s) ∧ s.created = [] ∧
      s.queue = [] ∧ s.made = [⟨0, false⟩, ⟨1, false⟩, ⟨2, true⟩] ∧ s.stream.coord.over = true ∧
        s.stream.closing = 0 := ⟨_, _, rfl, rfl, rfl, rfl, rfl, rfl⟩
  obtain ⟨X, ⟨n, hn⟩, hX⟩ := Execution.exists_of_replay
    (C := fun _ : Unit => iterated (streamConfig (fun _ => idSchema) (fun _ => .onDemand) ()) idPull)
    (fun _ => {}) (i := ()) (fun _ => rfl) (Component.guarded_step fun _ _ _ hs => hs) hrun
  refine ⟨X, ⟨hX _ _ ?_, fun r => hX _ _ ?_, hX _ _ ?_⟩, n, ?_⟩
  · rintro ⟨⟨⟨⟩, x⟩, t, ⟨-, a, rfl, hint⟩, b', s', ⟨hs, -⟩, -⟩
    have hreach := iterators_stream (X.reachable n) ()
    rw [hn n le_rfl] at hreach
    simp only [Function.update_self] at hreach hs
    rcases PyRecordBatchStream.step_cases hs with ⟨-, hacc⟩ | ⟨a', stream, ha', -, hstep, -⟩
    · exact PyRecordBatchStream.not_accessed_stream hacc
    · cases ha'
      exact no_internal_step hreach (.inr ho) hc hint hstep
  · rintro ⟨x, t, rfl, b', s', ⟨hs, -⟩, -⟩
    simp only [Function.update_self] at hs
    simp [iterator, PyRecordBatchStream.step, hcreated] at hs
  · rintro ⟨hq, -⟩
    simp [hqueue] at hq
  · simp [hn n le_rfl, hmade]

theorem call_returns_idCalls :
    ∃ X : Execution (iterators (fun _ : Unit => idSchema) (fun _ => idPull) fun _ => .onDemand),
      ∃ k, ⟨2, true⟩ ∈ ((X.state k).2 ()).refused ∨
        ∃ reply, (⟨2, true⟩, reply) ∈ ((X.state k).2 ()).replies := by
  obtain ⟨X, hX, n, hn⟩ := idCalls_scheduled
  obtain ⟨k, -, hrefused | ⟨hsync, -⟩ | hreply⟩ := call_returns hX hn
  · exact ⟨X, k, .inl hrefused⟩
  · cases hsync
  · exact ⟨X, k, .inr hreply⟩

end XorqDatafusion.Bridge
