import XorqDatafusion.Bridge.Nesting

/-! Streams that are read by the closures of others come to their ends, as long as the blocking pool has
threads for their rounds. -/
namespace XorqDatafusion.Bridge

open Transition

variable {B E : Type} {c : Config B E} {p q : Budget × Stream B E} {s : Stream B E} {a : Action B E}
  {o : Outcome B E} {m n : ℕ}

/-- The closure of the stream has been called and has not come back. -/
def Stream.Pulling (s : Stream B E) : Prop := ∃ r, s.host.round = some r ∧ r.drain = .inPull

/-- A round, or the closure to be disposed of, is in the queue of the blocking pool. -/
def Stream.Queued (s : Stream B E) : Prop :=
  (∃ credit, s.host = .pool (.queued credit)) ∨ s.home = .disposing

/-- Only the runtime touches the host of a stream. -/
theorem Step.host_eq (h : Step c p a q) (hi : a.internal = false) :
    q.2.host = p.2.host ∧ q.2.home = p.2.home ∧ q.2.answers = p.2.answers := by
  cases h with
  | coordinator | abort | host | answer | dispose => cases hi
  | pollNext => rw [Stream.pollNext_frame]; exact ⟨rfl, rfl, rfl⟩
  | _ => exact ⟨rfl, rfl, rfl⟩

theorem Step.pulling (h : Step c p (.answer o) q) : p.2.Pulling := by
  cases h with
  | answer hr hd => exact ⟨_, hr, hd⟩

theorem Step.queued (h : Step c p a q) (ha : a.NeedsThread p.2) : p.2.Queued := by
  cases h with
  | host => exact .inl ha
  | dispose hd => exact .inr hd
  | _ => cases ha

/-- What a consumer has seen of a stream, it has seen for good. -/
theorem Step.enough (h : Step c p a q) (he : p.2.ending ≠ none ∨ m < p.2.delivered.length) :
    q.2.ending ≠ none ∨ m < q.2.delivered.length := by
  cases h with
  | coordinator h => rw [h.frame]; exact he
  | abort _ h => rw [h.frame]; exact he
  | host h => rw [h.frame]; exact he
  | answer => rw [pullReturned_frame]; exact he
  | pollNext => rw [Stream.pollNext_frame]; exact he
  | receive =>
    refine he.imp_right fun hm => ?_
    simpa using Nat.lt_succ_of_lt hm
  | endOfStream | propagatePanic => exact .inl (by simp)
  | _ => exact he

namespace Nesting

variable {ι : Type} [DecidableEq ι] {N : Nesting ι B E} {checks : ι → B → Except E Unit}
  {pull : ι → ℕ → Outcome B E} {i j : ι}

/-- The call in progress for the stream `i` needs another item of the stream `j`. -/
def WaitsFor (N : Nesting ι B E) (p : Budget × (ι → Stream B E)) (i j : ι) : Prop :=
  Waits (N.reader i (p.2 i).answers.length) (fun k => (p.2 k).seen) j

/-- While its call is in progress, a closure goes on asking the stream it needs an item of, which it has
not dropped. -/
structure Attentive (N : Nesting ι B E) {S : System (Budget × (ι → Stream B E)) (ι × Action B E)}
    (X : Execution S) (i : ι) : Prop where
  asks : ∀ j, X.Responds
    (fun p => ((p.2 i).Pulling ∧ N.WaitsFor p i j) ∧ (p.2 j).Turn ∧ (p.2 j).ending = none) (Taking j)
  keeps : ∀ j n, ((X.state n).2 i).Pulling → N.WaitsFor (X.state n) i j →
    ((X.state n).2 j).live = true

/-- The calls of the closure all come back when it reads its streams as sequences, and so do those of
the closures below it. Of the latter none panics. -/
structure Returning (N : Nesting ι B E) (checks : ι → B → Except E Unit)
    (pull : ι → ℕ → Outcome B E) (i : ι) : Prop where
  answers : ∀ j, Relation.ReflTransGen N.Inner j i → ∀ n,
    Reads (N.reader j n) (fun k => shows (checks k) (pull k)) (pull j n)
  calm : ∀ j, Relation.TransGen N.Inner j i → ∀ payload, ¬Panics (checks j) (pull j) payload

theorem Returning.below (h : N.Returning checks pull i) (hj : Relation.ReflTransGen N.Inner j i) :
    N.Returning checks pull j :=
  ⟨fun k hk => h.answers k (hk.trans hj), fun k hk => h.calm k (hk.trans_left hj)⟩

theorem Returning.sequentialAt (h : N.Returning checks pull i) (j : ι)
    (hj : Relation.ReflTransGen N.Inner j i) : N.SequentialAt checks pull j :=
  fun n _ ho => (h.answers j hj n).unique ho

end Nesting

/-- The runtime is fair to the stream `i`: what it can do for the stream, it does, a call that has seen
enough comes back, and what the stream has in the queue of the blocking pool gets a thread when threads
are free again and again. -/
structure Provided {ι : Type} (threads : ℕ) {S : System (Budget × (ι → Stream B E)) (ι × Action B E)}
    (X : Execution S) (i : ι) : Prop where
  internal : X.Fair (Internal i)
  queue : ∀ n, (∀ k, n ≤ k → ((X.state k).2 i).Queued) →
    (∀ m, ∃ k, m ≤ k ∧ ¬Full threads (X.state k)) → ∃ k, n ≤ k ∧ X.Occurs (Internal i) k

section Process

variable {T α ι : Type} [DecidableEq T] [ToString T] [DecidableEq ι] {schema : ι → Schema T}
  {readAhead : ι → ReadAhead} {N : Nesting ι (RecordBatch T α) DataFusionError} {threads : ℕ}
  {pull pulls : ι → ℕ → Outcome (RecordBatch T α) DataFusionError}
  {p : Budget × (ι → Stream (RecordBatch T α) DataFusionError)} {i j : ι} {k : ℕ}
  {X : Execution (nested schema readAhead N threads)}
  {o : Outcome (RecordBatch T α) DataFusionError}

/-- Where all calls come back and none panics, no panic comes up. -/
theorem Nesting.Returning.calm_of_reachable (hacc : Acc N.Inner i)
    (h : N.Returning (fun i => checkBatchSchema (schema i)) pull i)
    (hp : (nested schema readAhead N threads).Reachable p) : N.Calm p i := by
  induction hacc with
  | intro i _ ih =>
    intro j payload hj
    obtain ⟨l, hjl, hli⟩ := Relation.TransGen.tail'_iff.mp hj
    have hl : Relation.ReflTransGen N.Inner l i := .single hli
    have hcalm := ih l hli (h.below hl)
    rcases Relation.reflTransGen_iff_eq_or_transGen.mp hjl with rfl | hjl
    · intro he
      exact h.calm l (.single hli) payload
        (panics_of_ending (nested_alone (h.below hl).sequentialAt hp hcalm) he)
    · exact hcalm j payload hjl

theorem Nesting.Returning.alone (hacc : Acc N.Inner i)
    (h : N.Returning (fun i => checkBatchSchema (schema i)) pull i)
    (hp : (nested schema readAhead N threads).Reachable p) :
    (spawnChannelStream (schema i) (pull i) (readAhead i)).alone.Reachable (p.1, p.2 i) :=
  nested_alone h.sequentialAt hp (h.calm_of_reachable hacc hp)

/-- `pulls` are the answers that the calls gave in the execution. -/
def Gives (X : Execution (nested schema readAhead N threads))
    (pulls : ι → ℕ → Outcome (RecordBatch T α) DataFusionError) : Prop :=
  ∀ n i o, X.event n = some (i, .answer o) → pulls i ((X.state n).2 i).answers.length = o

/-- An answer stays on record. -/
theorem answer_recorded (he : X.event n = some (i, .answer o)) (hk : n < k) :
    ((X.state k).2 i).answers[((X.state n).2 i).answers.length]? = some o := by
  refine Execution.lasts (E := X) (W := fun _ _ => True)
    (I := fun p => (p.2 i).answers[((X.state n).2 i).answers.length]? = some o) ?_ hk
    (fun _ _ _ _ _ => trivial) ?_
  · intro p a q hp hs _ ho
    rcases nested_step_cases hp hs i with ⟨-, hstep⟩ | ⟨-, hsame⟩
    · rw [hstep.answers, List.getElem?_append_left (List.getElem?_eq_some_iff.mp ho).1, ho]
    · rw [hsame, ho]
  · rcases nested_step_cases (X.reachable n) (X.step n _ he) i with ⟨-, hstep⟩ | ⟨hne, -⟩
    · rw [hstep.answers]
      simp [Action.answers]
    · exact absurd rfl hne

/-- An execution has its answers, whatever the calls make of panics. -/
theorem exists_gives (X : Execution (nested schema readAhead N threads))
    (pull : ι → ℕ → Outcome (RecordBatch T α) DataFusionError) :
    ∃ pulls, Gives X pulls ∧ ∀ i,
      (∀ n o, X.event n = some (i, .answer o) → pull i ((X.state n).2 i).answers.length = o) →
        pulls i = pull i := by
  let given (i : ι) (l : ℕ) (o : Outcome (RecordBatch T α) DataFusionError) : Prop :=
    ∃ n, X.event n = some (i, .answer o) ∧ ((X.state n).2 i).answers.length = l
  have hunique {i l o o'} (h : given i l o) (h' : given i l o') : o = o' := by
    obtain ⟨n, he, rfl⟩ := h
    obtain ⟨n', he', hl⟩ := h'
    have ho := answer_recorded he (Nat.lt_succ_of_le (le_max_left n n'))
    have ho' := answer_recorded he' (Nat.lt_succ_of_le (le_max_right n n'))
    rw [hl, ho] at ho'
    exact Option.some.inj ho'
  have hchoice (i : ι) (l : ℕ) : ∃ o, (∀ o', given i l o' → o = o') ∧
      ((∀ o', given i l o' → pull i l = o') → o = pull i l) := by
    by_cases h : ∃ o, given i l o
    · obtain ⟨o, ho⟩ := h
      exact ⟨o, fun o' ho' => hunique ho ho', fun hpull => (hpull o ho).symm⟩
    · exact ⟨pull i l, fun o' ho' => absurd ⟨o', ho'⟩ h, fun _ => rfl⟩
  choose pulls hgiven hpull using hchoice
  refine ⟨pulls, fun n i o he => hgiven i _ o ⟨n, he, rfl⟩, fun i h => funext fun l => ?_⟩
  refine hpull i l ?_
  rintro o ⟨n, he, rfl⟩
  exact h n o he

/-- The execution, as one in which no closure depends on another stream. -/
def nestedExecution (hg : Gives X pulls) : Execution (streams schema pulls readAhead) where
  state := X.state
  event := X.event
  start := X.start
  rest := X.rest
  step n a he := by
    obtain ⟨⟨b, s, hs, hq⟩, -⟩ := X.step n a he
    refine ⟨b, s, ⟨hs, ?_⟩, hq⟩
    obtain ⟨i, a⟩ := a
    cases a with
    | answer o => exact (hg n i o he).symm
    | _ => trivial

section Fairness

variable {hg : Gives X pulls}

/-- As long as the runtime does nothing for a stream, its pull is where it was. -/
theorem pull_rests (hno : ∀ k, n ≤ k → ¬X.Occurs (Internal i) k) (hk : n ≤ k) :
    ((X.state k).2 i).host = ((X.state n).2 i).host ∧
      ((X.state k).2 i).home = ((X.state n).2 i).home ∧
        ((X.state k).2 i).answers = ((X.state n).2 i).answers := by
  refine Execution.lasts (E := X) (W := fun p a => ¬Internal i p a)
    (I := fun p => (p.2 i).host = ((X.state n).2 i).host ∧
      (p.2 i).home = ((X.state n).2 i).home ∧ (p.2 i).answers = ((X.state n).2 i).answers) ?_ hk ?_
    ⟨rfl, rfl, rfl⟩
  · rintro p a q hp hs hw ⟨hhost, hhome, hans⟩
    rcases nested_step_cases hp hs i with ⟨hi, hstep⟩ | ⟨-, hsame⟩
    · have hint : a.2.internal = false := by
        by_contra hint
        exact hw ⟨hi, by simpa using hint⟩
      obtain ⟨hhost', hhome', hans'⟩ := hstep.host_eq hint
      exact ⟨hhost'.trans hhost, hhome'.trans hhome, hans'.trans hans⟩
    · rw [hsame]
      exact ⟨hhost, hhome, hans⟩
  · intro k hk _ a he hw
    exact hno k hk ⟨a, he, hw⟩

theorem seen_lasts (hmk : m ≤ k) {l : ℕ}
    (he : ((X.state m).2 j).ending ≠ none ∨ l < ((X.state m).2 j).delivered.length) :
    ((X.state k).2 j).ending ≠ none ∨ l < ((X.state k).2 j).delivered.length := by
  refine Execution.lasts (E := X) (W := fun _ _ => True)
    (I := fun p => (p.2 j).ending ≠ none ∨ l < (p.2 j).delivered.length) ?_ hmk
    (fun _ _ _ _ _ => trivial) he
  intro p a q hp hs _ he
  rcases nested_step_cases hp hs j with ⟨-, hstep⟩ | ⟨-, hsame⟩
  · exact hstep.enough he
  · rw [hsame]
    exact he

/-- A call in progress is shown what it asks for. The induction is on what is left to read of the
sequences: a stream that its closure waits for, and goes on asking, advances. -/
theorem reading_comes (hacc : Acc N.Inner i)
    (hret : N.Returning (fun i => checkBatchSchema (schema i)) pull i) (ha : N.Attentive X i)
    (hf : ∀ j, N.Inner j i → (nestedExecution hg).Fair (Internal j))
    (hp : ∀ k, n ≤ k → ((X.state k).2 i).Pulling)
    (hans : ∀ k, n ≤ k → ((X.state k).2 i).answers = ((X.state n).2 i).answers)
    {l : ℕ} {xs : List (ι × Option (Except DataFusionError (RecordBatch T α)))}
    (hread : readOn (N.reader i ((X.state n).2 i).answers.length)
      (fun j => shows (checkBatchSchema (schema j)) (pull j)) l xs = some (.answer o))
    (hm : n ≤ m) (hxs : ∀ k, m ≤ k → ∃ d, ∀ f,
      readOn (N.reader i ((X.state n).2 i).answers.length) (fun j => ((X.state k).2 j).seen) (d + f) [] =
        readOn (N.reader i ((X.state n).2 i).answers.length) (fun j => ((X.state k).2 j).seen) f xs) :
    ∃ m, n ≤ m ∧ ∀ k, m ≤ k → N.Answers (X.state k) (i, .answer o) := by
  induction l generalizing m xs with
  | zero => cases hread
  | succ l ih =>
    cases hr : N.reader i ((X.state n).2 i).answers.length xs with
    | answer o' =>
      rw [readOn_answer hr] at hread
      cases hread
      refine ⟨m, hm, fun k hk => .inl ?_⟩
      obtain ⟨d, hd⟩ := hxs k hk
      rw [hans k (by omega)]
      exact ⟨d + 1, (hd 1).trans (readOn_answer hr)⟩
    | ask j =>
      have hj : N.Inner j i := ⟨_, xs, hr⟩
      have halone := fun k => (hret.below (.single hj)).alone (hacc.inv hj) (X.reachable k)
      have hcalm := fun k => hret.calm_of_reachable hacc (X.reachable k)
      let asked := xs.countP (·.1 = j)
      obtain ⟨x, hx⟩ : ∃ x, shows (checkBatchSchema (schema j)) (pull j) asked = some x :=
        exists_shows (hret.calm j (.single hj)) _
      rw [readOn_seen hr hx] at hread
      -- Until the item is there, the call waits for it.
      have hwaits (k : ℕ) (hk : m ≤ k) (hnone : ((X.state k).2 j).seen asked = none) :
          N.WaitsFor (X.state k) i j := by
        obtain ⟨d, hd⟩ := hxs k hk
        rw [Nesting.WaitsFor, hans k (by omega)]
        exact ⟨d + 1, (hd 1).trans (readOn_unseen hr hnone)⟩
      obtain ⟨m', hm', hgot⟩ : ∃ m', m ≤ m' ∧ (((X.state m').2 j).ending ≠ none ∨
          asked < ((X.state m').2 j).delivered.length) := by
        by_contra hnever
        have hnone : ∀ k, m ≤ k → ((X.state k).2 j).seen asked = none := by
          intro k hk
          obtain ⟨he, hlen⟩ := not_or.mp fun h => hnever ⟨k, hk, h⟩
          simp only [Stream.seen, List.getElem?_eq_none (Nat.le_of_not_lt hlen), not_not.mp he]
          simp
        obtain ⟨m', hm', henough⟩ := stream_advances (X := nestedExecution hg) (n := m) (hf j hj)
          (fun m' hm' hturn => ha.asks j m' fun k hk =>
            ⟨⟨hp k (by omega), hwaits k (by omega) (hnone k (by omega))⟩, hturn k hk⟩)
          (fun k hk => ha.keeps j k (hp k (by omega)) (hwaits k hk (hnone k hk))) (asked + 1)
        exact hnever ⟨m', hm', henough⟩
      refine ih hread (hm.trans hm') fun k hk => ?_
      obtain ⟨d, hd⟩ := hxs k (hm'.trans hk)
      have hseen : ((X.state k).2 j).seen asked = some x := by
        obtain ⟨x', hx'⟩ := Stream.exists_seen (fun payload => hcalm k j payload (.single hj))
          (seen_lasts hk hgot)
        have hshown := seen_shows (halone k) hx'
        rw [hx', ← hshown]
        exact hx
      refine ⟨d + 1, fun f => ?_⟩
      rw [Nat.add_assoc, Nat.add_comm 1 f, hd (f + 1), readOn_seen hr hseen]

/-- A call in progress comes to know enough to come back. -/
theorem answer_comes (hacc : Acc N.Inner i)
    (hret : N.Returning (fun i => checkBatchSchema (schema i)) pull i) (ha : N.Attentive X i)
    (hf : ∀ j, N.Inner j i → (nestedExecution hg).Fair (Internal j))
    (hp : ∀ k, n ≤ k → ((X.state k).2 i).Pulling)
    (hans : ∀ k, n ≤ k → ((X.state k).2 i).answers = ((X.state n).2 i).answers) :
    ∃ m, n ≤ m ∧ ∀ k, m ≤ k →
      N.Answers (X.state k) (i, .answer (pull i ((X.state n).2 i).answers.length)) := by
  obtain ⟨l, hread⟩ := hret.answers i .refl ((X.state n).2 i).answers.length
  refine reading_comes hacc hret ha hf hp hans hread le_rfl fun k _ => ⟨0, fun f => ?_⟩
  rw [Nat.zero_add]

/-- Where the nesting is acyclic and the pool does not stay full, the runtime is fair to a stream as if
its closure depended on no other. The induction is on the nesting: the innermost closures come back by
themselves. -/
theorem nested_fair (hacc : Acc N.Inner i)
    (hret : N.Returning (fun i => checkBatchSchema (schema i)) pull i)
    (hf : ∀ j, Relation.ReflTransGen N.Inner j i → Provided threads X j)
    (ha : ∀ j, Relation.ReflTransGen N.Inner j i → N.Attentive X j)
    (hroom : ∀ m, ∃ k, m ≤ k ∧ ¬Full threads (X.state k)) :
    (nestedExecution hg).Fair (Internal i) := by
  induction hacc with
  | intro i hinner ih =>
    intro n hen
    by_contra hnone
    have hno : ∀ k, n ≤ k → ¬X.Occurs (Internal i) k := fun k hk hocc => hnone ⟨k, hk, hocc⟩
    have hstuck : ∀ m, n ≤ m → ¬∀ k, m ≤ k → ∃ a t, Internal i (X.state k) a ∧
        (nested schema readAhead N threads).step (X.state k) a t := by
      intro m hm hall
      obtain ⟨k, hk, hocc⟩ := (hf i .refl).internal m hall
      exact hno k (by omega) hocc
    have hrest := fun k hk => pull_rests (k := k) hno hk
    by_cases hp : ((X.state n).2 i).Pulling
    · have hpull : ∀ k, n ≤ k → ((X.state k).2 i).Pulling := by
        intro k hk
        rw [Stream.Pulling, (hrest k hk).1]
        exact hp
      have hbelow : ∀ j, N.Inner j i → (nestedExecution hg).Fair (Internal j) := fun j hj =>
        ih j hj (hret.below (.single hj)) (fun k hk => hf k (hk.tail hj)) fun k hk => ha k (hk.tail hj)
      obtain ⟨m, hm, hanswer⟩ := answer_comes (.intro i hinner) hret (ha i .refl) hbelow hpull
        fun k hk => (hrest k hk).2.2
      refine hstuck m hm fun k hk => ?_
      obtain ⟨r, hr, hd⟩ := hpull k (by omega)
      obtain ⟨q, hq⟩ := answer_enabled hr hd (streamConfig schema readAhead i)
        (pull i ((X.state n).2 i).answers.length) (X.state k).1
      exact ⟨(i, .answer _), _, ⟨rfl, rfl⟩, ⟨q.1, q.2, hq, rfl⟩, hanswer k hk, fun h => h.elim⟩
    · by_cases hq : ((X.state n).2 i).Queued
      · obtain ⟨k, hk, hocc⟩ := (hf i .refl).queue n (fun k hk => by
          rw [Stream.Queued, (hrest k hk).1, (hrest k hk).2.1]
          exact hq) hroom
        exact hno k hk hocc
      · refine hstuck n le_rfl fun k hk => ?_
        obtain ⟨⟨l, a⟩, t, ⟨hl, hint⟩, b, s, ⟨hstep, -⟩, rfl⟩ := hen k hk
        obtain rfl : i = l := hl.symm
        have hcase := reachable_step (nested_process (X.reachable k) i) hstep
        refine ⟨(i, a), _, ⟨rfl, hint⟩, ⟨b, s, hstep, rfl⟩, ?_, fun hneeds => ?_⟩
        · -- A call that is not in progress does not come back.
          cases a with
          | answer o =>
            have hpull := hcase.pulling
            rw [Stream.Pulling] at hpull
            simp only [(hrest k hk).1] at hpull
            exact absurd hpull hp
          | _ => trivial
        · have hqueued := hcase.queued hneeds
          rw [Stream.Queued] at hqueued
          simp only [(hrest k hk).1, (hrest k hk).2.1] at hqueued
          exact absurd hqueued hq

/-- Where all calls come back and the closures ask for what they need, each request is answered, unless
the streams hold all threads of the blocking pool from some time on. -/
theorem nested_request_answered (hacc : Acc N.Inner i)
    (hret : N.Returning (fun i => checkBatchSchema (schema i)) pull i)
    (hf : ∀ j, Relation.ReflTransGen N.Inner j i → Provided threads X j)
    (ha : ∀ j, Relation.ReflTransGen N.Inner j i → N.Attentive X j)
    (hr : ((X.state n).2 i).requested = true) :
    (∃ k, n ≤ k ∧ (((X.state k).2 i).live = false ∨ ((X.state k).2 i).Ready)) ∨
      ∃ m, ∀ k, m ≤ k → Full threads (X.state k) := by
  by_cases hfull : ∃ m, ∀ k, m ≤ k → Full threads (X.state k)
  · exact .inr hfull
  · obtain ⟨pulls, hg, -⟩ := exists_gives X pull
    push Not at hfull
    exact .inl (request_answered (X := nestedExecution hg) (nested_fair hacc hret hf ha hfull) hr)

/-- Under the same conditions an attentive consumer reads a finite stream to its end, and gets what the
closures make of one another's items. -/
theorem nested_finite_read (hacc : Acc N.Inner i)
    (hret : N.Returning (fun i => checkBatchSchema (schema i)) pull i)
    (hf : ∀ j, Relation.ReflTransGen N.Inner j i → Provided threads X j)
    (ha : ∀ j, Relation.ReflTransGen N.Inner j i → N.Attentive X j)
    (hi : Attentive X i) (hl : ∀ n, ((X.state n).2 i).live = true) {M : ℕ}
    (hM : verdict (checkBatchSchema (schema i)) (firstCalls (pull i) M) ≠ .going) :
    (∃ k, (verdict (checkBatchSchema (schema i)) (firstCalls (pull i) M) = .ended →
        ((X.state k).2 i).ending = some .clean ∧
        ((X.state k).2 i).delivered = spec (checkBatchSchema (schema i)) (firstCalls (pull i) M)) ∧
      ∀ payload, verdict (checkBatchSchema (schema i)) (firstCalls (pull i) M) = .panicked payload →
        ((X.state k).2 i).ending = some (.panicked payload)) ∨
      ∃ m, ∀ k, m ≤ k → Full threads (X.state k) := by
  by_cases hfull : ∃ m, ∀ k, m ≤ k → Full threads (X.state k)
  · exact .inr hfull
  · obtain ⟨pulls, hg, hpulls⟩ := exists_gives X pull
    have hsame : pulls i = pull i := by
      refine hpulls i fun n o he => ?_
      have hcalm := hret.calm_of_reachable hacc (X.reachable n)
      have hanswer := nested_answers (hret.sequentialAt i .refl) hcalm
        (fun j hj => (hret.below (.single hj)).alone (hacc.inv hj) (X.reachable n))
        (X.step n _ he).2.1
      exact Eq.symm hanswer
    push Not at hfull
    rw [← hsame] at hM ⊢
    exact .inl (finite_source_read (X := nestedExecution hg) (nested_fair hacc hret hf ha hfull) hi hl hM)

end Fairness

end Process

/-- The run is fair: at its end there is nothing to do. -/
theorem idChain_fair : ∃ X : Execution idChainProcess, (∀ i, Provided 512 X i) ∧
    (∀ i, idChain.Attentive X i) ∧ Attentive X 1 ∧ (∀ i n, ((X.state n).2 i).live = true) ∧
      ∃ n, ((X.state n).2 1).requested = true := by
  obtain ⟨p, xs, hrun, -, hall⟩ := idChain_run
  have hreach : idChainProcess.Reachable p := ⟨_, xs, idChain_start, hrun⟩
  have hrest {i : Fin 2} {a : IdAction} {q} (hi : a.internal = true)
      (hs : step (streamConfig (fun _ : Fin 2 => idSchema) (fun _ => .onDemand) i) a (p.1, p.2 i) = some q) :
      False :=
    no_internal_step (nested_process hreach i) (.inr (hall i).1) (hall i).2.1 hi hs
  have hend (n : ℕ) (hn : xs.length ≤ n) :
      (Execution.ofRun idChain_start hrun).state n = p := Execution.held_of_le hn
  have hlive (i : Fin 2) (n : ℕ) :
      (((Execution.ofRun idChain_start hrun).state n).2 i).live = true := by
    by_contra hn
    obtain ⟨pulls, hg, -⟩ := exists_gives (.ofRun idChain_start hrun) idChainPull
    have hdead : (((nestedExecution hg).state n).2 i).live = false := Bool.eq_false_iff.mpr hn
    have hlast := dropped_for_good (le_max_left n xs.length) hdead
    have hp : (nestedExecution hg).state (max n xs.length) = p := hend _ (le_max_right n xs.length)
    rw [hp, (hall i).2.2.2.1] at hlast
    cases hlast
  refine ⟨.ofRun idChain_start hrun, fun i => ⟨?_, fun n hq _ => ?_⟩,
    fun i => ⟨fun j => ?_, fun j n _ _ => hlive j n⟩, ?_, hlive, xs.length, ?_⟩
  · refine Execution.responds_ofRun _ _ ?_
    rintro ⟨⟨l, a⟩, q, ⟨hl, hint⟩, ⟨b, s, hstep, -⟩, -⟩
    exact hrest hint hstep
  · have hqueued := hq (max n xs.length) (le_max_left _ _)
    rw [hend _ (le_max_right _ _)] at hqueued
    rcases hqueued with ⟨credit, hhost⟩ | hhome
    · exact (hrest (i := i) (a := .host) rfl (by simp [step, hostStep, hhost, poolTask]; rfl)).elim
    · exact (hrest (i := i) (a := .dispose) rfl (if_pos hhome)).elim
  · refine Execution.responds_ofRun _ _ ?_
    rintro ⟨-, -, hnone⟩
    cases (hall j).2.2.1.symm.trans hnone
  · refine Execution.responds_ofRun _ _ ?_
    rintro ⟨-, hnone⟩
    cases (hall 1).2.2.1.symm.trans hnone
  · rw [hend _ le_rfl]
    exact (hall 1).2.2.2.2

theorem idChain_returning :
    idChain.Returning (fun _ => checkBatchSchema idSchema) idChainPull 1 :=
  ⟨fun j _ => chain_reads (fun _ => checkBatchSchema idSchema) idPull_ne_panic j,
    fun j _ => chainPull_not_panics (fun _ => checkBatchSchema idSchema) idPull_ne_panic j⟩

theorem nested_request_answered_idChain : ∃ X : Execution idChainProcess,
    ∃ k, ((X.state k).2 1).live = false ∨ ((X.state k).2 1).Ready := by
  obtain ⟨X, hf, ha, -, -, n, hn⟩ := idChain_fair
  rcases nested_request_answered (chain_acyclic.apply 1) idChain_returning (fun j _ => hf j)
    (fun j _ => ha j) hn with ⟨k, -, hk⟩ | ⟨m, hfull⟩
  · exact ⟨X, k, hk⟩
  · exact absurd (hfull m le_rfl) (not_full (by simp) _)

theorem nested_finite_read_idChain : ∃ X : Execution idChainProcess,
    ∃ k, ((X.state k).2 1).ending = some .clean ∧
      ((X.state k).2 1).delivered = [.ok (idBatch [1, 2])] := by
  obtain ⟨X, hf, ha, hi, hl, -⟩ := idChain_fair
  have hv : verdict (checkBatchSchema idSchema) (firstCalls (idChainPull 1) 2) = .ended := by rfl
  rcases nested_finite_read (M := 2) (chain_acyclic.apply 1) idChain_returning (fun j _ => hf j)
    (fun j _ => ha j) hi (hl 1) (by simp [hv]) with ⟨k, hk, -⟩ | ⟨m, hfull⟩
  · exact ⟨X, k, hk hv⟩
  · exact absurd (hfull m le_rfl) (not_full (by simp) _)

end XorqDatafusion.Bridge
