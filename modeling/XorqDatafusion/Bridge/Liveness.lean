import XorqDatafusion.Execution
import XorqDatafusion.Bridge.Progress

/-! What a fair runtime and an attentive consumer bring about: requests are answered, and a finite
source is read to its end. To be fair to a stream includes that its pull comes back once it is called,
and that the blocking pool has a thread for each round it queues. -/
namespace XorqDatafusion.Bridge

open Transition

variable {B E : Type} {c : Config B E} {b : Budget} {s : Stream B E} {r : Round} {host : Host}
  {home : Home} {v : Verdict} {report : Report} {p q : Budget × Stream B E} {a : Action B E}
  {pull : ℕ → Outcome B E}

/-- There is something for the consumer: an item, the end of the stream, or a panic. -/
def Stream.Ready (s : Stream B E) : Prop :=
  s.chan ≠ [] ∨ (s.coord = .finished ∧ s.hasSender = false) ∨ ∃ payload, s.coord = .panicked payload

/-- Once the source has ended, only the coordinator holds a sender. -/
theorem Orphan.no_sender (h : Orphan s.host s.home .ended) (hc : s.coord.over = true) :
    s.hasSender = false := by
  simp only [Stream.hasSender, hc]
  generalize s.host = host at h
  generalize s.home = home at h
  generalize hv : Verdict.ended = v at h
  have hround (r : Round) (hr : .ended = r.drain.verdict) : r.drain.report.isNone = false := by
    cases hd : r.drain <;> simp [hd, Drain.verdict, Drain.report] at hr ⊢
  cases h with
  | draining r | pooled r => simpa using hround r hv
  | unread | unreadJob | parked | posted | queued => cases hv
  | _ => rfl

theorem Shaped.ready_of_over (hs : Shaped c s) (hl : s.live = true) (hc : s.coord.over = true) :
    s.Ready := by
  have hat := hs.at_coord
  cases hcoord : s.coord with
  | finished =>
    rw [hcoord] at hat
    obtain ⟨ho, hv⟩ := hat
    rw [hv hl] at ho
    exact .inr (.inl ⟨hcoord, ho.no_sender (by rw [hcoord]; rfl)⟩)
  | panicked payload => exact .inr (.inr ⟨payload, hcoord⟩)
  | aborted =>
    rw [hcoord] at hat
    cases hl.symm.trans hat.2
  | _ => simp [hcoord, Coord.over] at hc

/-- A round on its way has a step to take, or its pull is executing. -/
theorem Busy.enabled (h : Busy s.host s.home v) (b : Budget) :
    (∃ q, hostStep c b s = some q) ∨ ∃ r, s.host.round = some r ∧ r.drain = .inPull := by
  have hround := fun r hr hd => hostStep_round_ne_none (c := c) (b := b) (s := s) (r := r) hr hd
  rw [← Option.ne_none_iff_exists']
  generalize hh : s.host = host at h hround
  generalize s.home = home at h
  cases h with
  | draining r | pooled r =>
    by_cases hd : r.drain = .inPull
    · exact .inr ⟨r, rfl, hd⟩
    · exact .inl (hround r rfl hd)
  | _ => simp [hostStep, hh, runAffinePull, poolTask]

theorem answer_enabled (hr : s.host.round = some r) (hd : r.drain = .inPull) (c : Config B E)
    (o : Outcome B E) (b : Budget) : ∃ q, answer c o b s = some q := by
  rcases Host.round_eq_some_iff.mp hr with ⟨mailbox, done, hh⟩ | hh <;> simp [answer, hh, hd]

variable (pull) in
/-- While the consumer waits for an item, the runtime can take a step for it. -/
theorem Shaped.internal_enabled (hs : Shaped c s) (ha : Accounted c s) (hI : Lossless c s)
    (hl : s.live = true) (hr : s.requested = true) (hn : ¬s.Ready) (b : Budget) :
    ∃ a q, a.internal = true ∧ Answers pull (b, s) a ∧ step c a (b, s) = some q := by
  have hempty : s.chan = [] := by
    by_contra hne
    exact hn (.inl hne)
  have hover : s.coord.over = false := by
    by_contra ho
    exact hn (hs.ready_of_over hl (by simpa using ho))
  have hat := hs.at_coord
  have hcoord (h : ∃ q, coordinator c true b s = some q) :
      ∃ a q, a.internal = true ∧ Answers pull (b, s) a ∧ step c a (b, s) = some q := by
    obtain ⟨q, hq⟩ := h
    exact ⟨.coordinator true, q, rfl, trivial, hq⟩
  by_cases hc : s.coord = .awaitRound
  · rw [hc] at hat
    rcases hat with hat | ⟨report, hat, -⟩
    · rcases hat.enabled (c := c) b with ⟨q, hq⟩ | ⟨r, hround, hd⟩
      · exact ⟨.host, q, rfl, trivial, hq⟩
      · obtain ⟨q, hq⟩ := answer_enabled hround hd c (pull s.answers.length) b
        exact ⟨.answer _, q, rfl, rfl, hq⟩
    · exact hcoord (by simp [coordinator, hc, finishRound_eq hat])
  · have hwork : s.host.working = false := by
      by_contra hw
      exact hc (hat.busy hover (by simpa using hw)).1
    have hv : verdict c.check s.answers = .going := by
      cases hcoord : s.coord with
      | awaitRound => exact absurd hcoord hc
      | finished | panicked | aborted => simp [hcoord, Coord.over] at hover
      | spawned | spawning | sendInit =>
        rw [hcoord] at hat
        exact hat.2.2
      | _ =>
        rw [hcoord] at hat
        exact hat.2
    exact hcoord (Bridge.coordinator_enabled hs ha hI ⟨hl, hr, hempty, hv, hwork⟩ true b)

/-- A request stands until it is served. -/
theorem Step.requested (h : Step c p a q) (hr : p.2.requested = true) (hn : ¬p.2.Ready) :
    q.2.requested = true := by
  cases h with
  | coordinator h => rw [h.frame]; exact hr
  | abort _ h => rw [h.frame]; exact hr
  | host h => rw [h.frame]; exact hr
  | answer => rw [pullReturned_frame]; exact hr
  | pollNext => rw [Stream.pollNext_frame]
  | receive hp hc => exact absurd (.inl (by simp [hc])) hn
  | _ => exact hr

/-- Only the runtime makes a stream ready. -/
theorem Step.not_ready (h : Step c p a q) (hi : a.internal = false) (hn : ¬p.2.Ready) :
    ¬q.2.Ready := by
  cases h with
  | coordinator | abort | host | answer | dispose => cases hi
  | pollNext => rw [Stream.pollNext_frame]; exact hn
  | receive hp hc => exact absurd (.inl (by simp [hc])) hn
  | dropReceiver =>
    intro hready
    refine hn (hready.imp ?_ id)
    simp
  | _ => exact hn

/-- The consumer pays by taking an item or by leaving. -/
theorem Step.admits (h : Step c p a q) (hn : ¬p.2.Ready) (hl : q.2.live = true) : a.admits = 0 := by
  cases h with
  | receive hp hc => exact absurd (.inl (by simp [hc])) hn
  | dropReceiver => cases hl
  | _ => rfl

/-- A source ends in one way only. -/
theorem verdict_firstCalls_eq {check : B → Except E Unit} {m n : ℕ}
    (hm : verdict check (firstCalls pull m) ≠ .going)
    (hn : verdict check (firstCalls pull n) ≠ .going) :
    verdict check (firstCalls pull m) = verdict check (firstCalls pull n) := by
  rcases Nat.le_total m n with hle | hle
  · obtain ⟨os, hos⟩ := firstCalls_prefix pull hle
    rw [← hos, verdict_append_of_over hm]
  · obtain ⟨os, hos⟩ := firstCalls_prefix pull hle
    rw [← hos, verdict_append_of_over hn]

/-- The consumer asks for the next item, or takes what it asked for. -/
def Action.takes (s : Stream B E) : Action B E → Prop
  | .pollNext => s.requested = false
  | .receive | .endOfStream | .propagatePanic => True
  | _ => False

/-- It is for the consumer to do something. -/
def Stream.Turn (s : Stream B E) : Prop := s.requested = false ∨ s.Ready

/-- The items of a finite source that are still to be delivered, and what the consumer has yet to do
about the next one. -/
def Stream.remaining (items : ℕ) (s : Stream B E) : ℕ :=
  16 * (items - s.delivered.length) + if s.requested then 0 else 1

/-- Every useful step brings the end of a finite source closer. -/
theorem Step.remaining {items : ℕ} (h : Step c p a q)
    (hw : q.2.work c + a.internal.toNat ≤ p.2.work c + a.admits) (hl : q.2.live = true)
    (hd : q.2.delivered.length ≤ items) (he : q.2.ending = none) :
    q.2.work c + q.2.remaining items ≤ p.2.work c + p.2.remaining items ∧
      (a.internal = true ∨ a.takes p.2 →
        q.2.work c + q.2.remaining items < p.2.work c + p.2.remaining items) := by
  have hruntime (hs : q.2.remaining items = p.2.remaining items) (hi : a.internal = true)
      (hf : a.admits = 0) : q.2.work c + q.2.remaining items ≤ p.2.work c + p.2.remaining items ∧
      (a.internal = true ∨ a.takes p.2 →
        q.2.work c + q.2.remaining items < p.2.work c + p.2.remaining items) := by
    simp only [hi, hf, Bool.toNat_true] at hw
    exact ⟨by omega, fun _ => by omega⟩
  cases h with
  | coordinator h => exact hruntime (by rw [h.frame]; rfl) rfl rfl
  | abort _ h => exact hruntime (by rw [h.frame]; rfl) rfl rfl
  | host h => exact hruntime (by rw [h.frame]; rfl) rfl rfl
  | answer => exact hruntime (by rw [pullReturned_frame]; rfl) rfl rfl
  | dispose => exact hruntime rfl rfl rfl
  | @pollNext b s =>
    simp only [Action.internal, Action.admits, Bool.toNat_false] at hw
    have hf : s.pollNext.remaining items + (if s.requested then 0 else 1) = s.remaining items := by
      rw [Stream.pollNext_frame]
      simp [Stream.remaining]
    refine ⟨by simp only; omega, ?_⟩
    rintro (hi | ht)
    · cases hi
    · have hreq : s.requested = false := ht
      simp only [hreq, Bool.false_eq_true, if_false] at hf
      simp only
      omega
  | @receive b s item rest =>
    simp only [Action.internal, Action.admits, Bool.toNat_false] at hw
    simp only [List.length_append, List.length_singleton] at hd
    have hlt : ∀ x y d : ℕ, d + 1 ≤ items → x ≤ y + 14 →
        x + (16 * (items - (d + 1)) + 1) < y + 16 * (items - d) := by omega
    have hless := hlt _ _ _ hd hw
    simp only [Stream.remaining, List.length_append, List.length_singleton, Bool.false_eq_true,
      if_false]
    exact ⟨by omega, fun _ => by omega⟩
  | endOfStream | propagatePanic => cases he
  | dropReceiver => cases hl
  | pending | dropTasks =>
    refine ⟨by simpa [Action.internal, Action.admits, Stream.remaining] using hw, ?_⟩
    rintro (hi | ht)
    · cases hi
    · exact ht.elim

section Streams

variable {T α ι : Type} [DecidableEq T] [ToString T] [DecidableEq ι]

/-- The streams of a process, each over a closure with its answers. -/
def streams (schema : ι → Schema T) (pull : ι → ℕ → Outcome (RecordBatch T α) DataFusionError)
    (readAhead : ι → ReadAhead) : System (Budget × (ι → Stream (RecordBatch T α) DataFusionError))
      (ι × Action (RecordBatch T α) DataFusionError) :=
  family (fun i => spawnChannelStream (schema i) (pull i) (readAhead i)) Budget.initial

/-- The runtime does something for the stream `i`, or its pull comes back. -/
def Internal (i : ι) (_ : Budget × (ι → Stream B E)) (a : ι × Action B E) : Prop :=
  a.1 = i ∧ a.2.internal = true

/-- The consumer of the stream `i` asks for an item, or takes what it asked for. -/
def Taking (i : ι) (p : Budget × (ι → Stream B E)) (a : ι × Action B E) : Prop :=
  a.1 = i ∧ a.2.takes (p.2 i)

/-- A consumer that polls again when it got an item and when it is woken up, until the stream ends. -/
def Attentive {T : System (Budget × (ι → Stream B E)) (ι × Action B E)} (X : Execution T) (i : ι) :
    Prop :=
  X.Responds (fun p => (p.2 i).Turn ∧ (p.2 i).ending = none) (Taking i)

variable {schema : ι → Schema T} {pull : ι → ℕ → Outcome (RecordBatch T α) DataFusionError}
  {readAhead : ι → ReadAhead} {X : Execution (streams schema pull readAhead)} {i : ι} {n : ℕ}
  {p q : Budget × (ι → Stream (RecordBatch T α) DataFusionError)}
  {a : ι × Action (RecordBatch T α) DataFusionError}

/-- The checks of the stream `i`. -/
abbrev streamConfig (schema : ι → Schema T) (readAhead : ι → ReadAhead) (i : ι) :
    Config (RecordBatch T α) DataFusionError := ⟨checkBatchSchema (schema i), readAhead i⟩

theorem streams_reachable (h : (streams schema pull readAhead).Reachable p) (i : ι) :
    (component (streamConfig schema readAhead i)).alone.Reachable (p.1, p.2 i) :=
  Component.alone_reachable_of_restrict (family_reachable_alone h i)

/-- A step of the process is a step of the stream `i`, or leaves it alone. -/
theorem streams_step_cases (h : (streams schema pull readAhead).Reachable p)
    (hs : (streams schema pull readAhead).step p a q) (i : ι) :
    (a.1 = i ∧ Step (streamConfig schema readAhead i) (p.1, p.2 i) a.2 (q.1, q.2 i)) ∨
      (a.1 ≠ i ∧ q.2 i = p.2 i) := by
  obtain ⟨k, s, ⟨hs, -⟩, rfl⟩ := hs
  by_cases hi : a.1 = i
  · subst hi
    refine .inl ⟨rfl, ?_⟩
    simp only [Function.update_self]
    exact reachable_step (streams_reachable h a.1) hs
  · exact .inr ⟨hi, Function.update_of_ne (Ne.symm hi) _ _⟩

theorem streams_internal_enabled (h : (streams schema pull readAhead).Reachable p)
    (hl : (p.2 i).live = true) (hr : (p.2 i).requested = true) (hn : ¬(p.2 i).Ready) :
    ∃ a q, Internal i p a ∧ (streams schema pull readAhead).step p a q := by
  have hp := streams_reachable h i
  obtain ⟨a, q, hi, ha, hs⟩ := (reachable_shaped hp).internal_enabled (pull i)
    (reachable_accounted hp) (reachable_lossless hp) hl hr hn p.1
  exact ⟨(i, a), _, ⟨rfl, hi⟩, q.1, q.2, ⟨hs, ha⟩, rfl⟩

theorem streams_work (h : (streams schema pull readAhead).Reachable p)
    (hs : (streams schema pull readAhead).step p a q)
    (hstep : Step (streamConfig schema readAhead i) (p.1, p.2 i) a.2 (q.1, q.2 i)) :
    (q.2 i).work (streamConfig schema readAhead i) + a.2.internal.toNat ≤
      (p.2 i).work (streamConfig schema readAhead i) + a.2.admits :=
  hstep.work (reachable_shaped (streams_reachable h i)) (reachable_accounted (streams_reachable h i))
    (reachable_shaped (streams_reachable (h.step hs) i))

/-- Under a fair runtime, a request of a live consumer is answered: there will be an item for it, or
the end of the stream, or a panic. -/
theorem request_answered (hf : X.Fair (Internal i)) (hr : ((X.state n).2 i).requested = true) :
    ∃ k, n ≤ k ∧ (((X.state k).2 i).live = false ∨ ((X.state k).2 i).Ready) := by
  refine Execution.eventually (I := fun p => (p.2 i).requested = true)
    (G := fun p => (p.2 i).live = false ∨ (p.2 i).Ready) (W := Internal i)
    (M := fun p => (p.2 i).work (streamConfig schema readAhead i)) hr ?_ ?_ ?_
  · intro p a q hp hs hr hn
    rcases streams_step_cases hp hs i with ⟨-, hstep⟩ | ⟨-, hsame⟩
    · exact hstep.requested hr (fun h => hn (.inr h))
    · rw [hsame]
      exact hr
  · intro p a q hp hs hr hn hn'
    rcases streams_step_cases hp hs i with ⟨hi, hstep⟩ | ⟨hi, hsame⟩
    · have hwork := streams_work hp hs hstep
      have hfree := hstep.admits (fun h => hn (.inr h)) (by simpa using (not_or.mp hn').1)
      refine ⟨by omega, ?_⟩
      rintro ⟨-, hint⟩
      simp only [hint, Bool.toNat_true] at hwork
      omega
    · rw [hsame]
      exact ⟨le_rfl, fun hint => absurd hint.1 hi⟩
  · intro k hk hall
    refine hf k fun l hl => ?_
    obtain ⟨hr, hn⟩ := hall l hl
    obtain ⟨hlive, hready⟩ := not_or.mp hn
    exact streams_internal_enabled (X.reachable l) (by simpa using hlive) hr hready

/-- A step of the stream `i` that brings its end closer. -/
def Useful (i : ι) (p : Budget × (ι → Stream B E)) (a : ι × Action B E) : Prop :=
  a.1 = i ∧ (a.2.internal = true ∨ a.2.takes (p.2 i))

/-- As long as a stream has not ended, it is either for its consumer or for the runtime to act. -/
theorem useful_step_comes (hf : X.Fair (Internal i))
    (ha : (∀ k, n ≤ k → ((X.state k).2 i).Turn) → ∃ k, n ≤ k ∧ X.Occurs (Taking i) k)
    (hall : ∀ k, n ≤ k → ((X.state k).2 i).live = true) : ∃ k, n ≤ k ∧ X.Occurs (Useful i) k := by
  by_cases hturn : ∀ k, n ≤ k → ((X.state k).2 i).Turn
  · obtain ⟨k, hk, a, he, hi, ht⟩ := ha hturn
    exact ⟨k, hk, a, he, hi, .inr ht⟩
  · obtain ⟨m, hturn⟩ := not_forall.mp hturn
    obtain ⟨hm, hturn⟩ := Classical.not_imp.mp hturn
    obtain ⟨hr, hn⟩ := not_or.mp hturn
    by_contra hno
    -- Nobody but the runtime ends the wait, and it can always take a step.
    have hwait : ∀ k, m ≤ k →
        ((X.state k).2 i).requested = true ∧ ¬((X.state k).2 i).Ready := by
      intro k hk
      refine Execution.lasts (W := fun p a => ¬Useful i p a)
        (I := fun p => (p.2 i).requested = true ∧ ¬(p.2 i).Ready) ?_ hk ?_ ⟨by simpa using hr, hn⟩
      · rintro p a q hp hs hu ⟨hr, hn⟩
        rcases streams_step_cases hp hs i with ⟨hi, hstep⟩ | ⟨-, hsame⟩
        · have hint : a.2.internal = false := by
            by_contra hint
            exact hu ⟨hi, .inl (by simpa using hint)⟩
          exact ⟨hstep.requested hr hn, hstep.not_ready hint hn⟩
        · rw [hsame]
          exact ⟨hr, hn⟩
      · intro l hl _ a he hu
        exact hno ⟨l, by omega, a, he, hu⟩
    obtain ⟨k, hk, a, he, hi, hint⟩ := hf m fun k hk =>
      streams_internal_enabled (X.reachable k) (hall k (by omega)) (hwait k hk).1 (hwait k hk).2
    exact hno ⟨k, by omega, a, he, hi, .inl hint⟩

/-- A consumer that is attentive from some time on gets as many items as it likes, unless the stream
ends before. -/
theorem stream_advances (hf : X.Fair (Internal i))
    (ha : ∀ m, n ≤ m → (∀ k, m ≤ k → ((X.state k).2 i).Turn ∧ ((X.state k).2 i).ending = none) →
      ∃ k, m ≤ k ∧ X.Occurs (Taking i) k)
    (hl : ∀ k, n ≤ k → ((X.state k).2 i).live = true) (items : ℕ) :
    ∃ k, n ≤ k ∧ (((X.state k).2 i).ending ≠ none ∨ items ≤ ((X.state k).2 i).delivered.length) := by
  obtain ⟨k, hk, hg⟩ : ∃ k, n ≤ k ∧ ((((X.state k).2 i).ending ≠ none ∨
      items ≤ ((X.state k).2 i).delivered.length) ∨ ((X.state k).2 i).live = false) := by
    refine Execution.eventually (I := fun _ => True)
      (G := fun p => ((p.2 i).ending ≠ none ∨ items ≤ (p.2 i).delivered.length) ∨
        (p.2 i).live = false) (W := Useful i)
      (M := fun p => (p.2 i).work (streamConfig schema readAhead i) + (p.2 i).remaining items)
      trivial (fun _ _ _ _ _ _ _ => trivial) ?_ ?_
    · intro p a q hp hs _ hn hn'
      rcases streams_step_cases hp hs i with ⟨hi, hstep⟩ | ⟨hi, hsame⟩
      · obtain ⟨hgoing, hlive⟩ := not_or.mp hn'
        obtain ⟨he, hless⟩ := not_or.mp hgoing
        have hle := hstep.remaining (streams_work hp hs hstep) (by simpa using hlive)
          (Nat.le_of_not_le hless) (not_not.mp he)
        exact ⟨hle.1, fun hw => hle.2 hw.2⟩
      · rw [hsame]
        exact ⟨le_rfl, fun hw => absurd hw.1 hi⟩
    · intro k hk hall
      refine useful_step_comes hf (fun hturn => ha k hk fun l hkl => ⟨hturn l hkl, ?_⟩)
        fun l hkl => hl l (by omega)
      exact not_not.mp (not_or.mp (not_or.mp (hall l hkl).2).1).1
  rcases hg with hg | hg
  · exact ⟨k, hk, hg⟩
  · cases (hl k hk).symm.trans hg

theorem stream_ends (hf : X.Fair (Internal i)) (ha : Attentive X i)
    (hl : ∀ n, ((X.state n).2 i).live = true) {N : ℕ}
    (hN : verdict (checkBatchSchema (schema i)) (firstCalls (pull i) N) ≠ .going) :
    ∃ k, ((X.state k).2 i).ending ≠ none := by
  let items := (spec (checkBatchSchema (schema i)) (firstCalls (pull i) N)).length
  obtain ⟨k, -, hk⟩ := stream_advances (n := 0) hf (fun m _ => ha m) (fun k _ => hl k) (items + 1)
  refine ⟨k, hk.resolve_right fun hmore => ?_⟩
  obtain ⟨m, hm⟩ := delivered_within (family_reachable_alone (X.reachable k) i)
  have hle : ((X.state k).2 i).delivered.length ≤ items :=
    (hm.trans (spec_prefix_of_over hN m)).length_le
  omega

/-- An attentive consumer reads a finite source to its end under a fair runtime, whatever the other
streams do: it gets all the items in order and then the end, or it gets the panic. -/
theorem finite_source_read (hf : X.Fair (Internal i)) (ha : Attentive X i)
    (hl : ∀ n, ((X.state n).2 i).live = true) {N : ℕ}
    (hN : verdict (checkBatchSchema (schema i)) (firstCalls (pull i) N) ≠ .going) :
    ∃ k, (verdict (checkBatchSchema (schema i)) (firstCalls (pull i) N) = .ended →
        ((X.state k).2 i).ending = some .clean ∧
        ((X.state k).2 i).delivered = spec (checkBatchSchema (schema i)) (firstCalls (pull i) N)) ∧
      ∀ payload, verdict (checkBatchSchema (schema i)) (firstCalls (pull i) N) = .panicked payload →
        ((X.state k).2 i).ending = some (.panicked payload) := by
  obtain ⟨k, hk⟩ := stream_ends hf ha hl hN
  have hp := family_reachable_alone (X.reachable k) i
  refine ⟨k, ?_⟩
  cases he : ((X.state k).2 i).ending with
  | none => exact absurd he hk
  | some ending =>
    cases ending with
    | clean =>
      refine ⟨fun _ => ⟨rfl, ?_⟩, fun payload hv => ?_⟩
      · obtain ⟨m, hm⟩ := delivered_within hp
        have hall := complete_of_clean hp he N
        exact (hm.trans (spec_prefix_of_over hN m)).eq_of_length_le hall.length_le
      · exact absurd he (not_clean_of_panics hp ⟨N, hv⟩)
    | panicked payload =>
      obtain ⟨m, hm⟩ := panics_of_ending hp he
      have hsame := verdict_firstCalls_eq (by rw [hm]; nofun) hN
      refine ⟨fun hv => ?_, fun payload' hv => ?_⟩
      · rw [hm, hv] at hsame
        cases hsame
      · rw [hm, hv] at hsame
        cases hsame
        rfl

/-- A dropped stream was dropped for good. -/
theorem dropped_for_good {m n : ℕ} (hmn : m ≤ n) (h : ((X.state m).2 i).live = false) :
    ((X.state n).2 i).live = false := by
  refine Execution.lasts (E := X) (W := fun _ _ => True) (I := fun p => (p.2 i).live = false) ?_ hmn
    (fun _ _ _ _ _ => trivial) h
  intro p a q hp hs _ hl
  rcases streams_step_cases hp hs i with ⟨-, hstep⟩ | ⟨-, hsame⟩
  · exact hstep.live_eq_false hl
  · exact (congrArg Stream.live hsame).trans hl

/-- A run of the stream `i` to where nothing is left to do for it, as a fair execution. -/
theorem fair_of_replay [DecidableEq α] {as : List (Action (RecordBatch T α) DataFusionError)}
    {b : Budget} {s : Stream (RecordBatch T α) DataFusionError}
    (h : System.replay (answeringStep (streamConfig schema readAhead i) (pull i)) as
      (.initial, {}) = some (b, s)) (ho : s.Over) (hr : s.closing = 0) :
    ∃ X : Execution (streams schema pull readAhead), X.Fair (Internal i) ∧
      (s.ending ≠ none → Attentive X i) ∧ ∃ n, ∀ k, n ≤ k → (X.state k).2 i = s := by
  obtain ⟨X, ⟨n, hn⟩, hX⟩ := Execution.exists_of_replay
    (C := fun i => spawnChannelStream (schema i) (pull i) (readAhead i)) (fun _ => {})
    (fun _ => rfl) (Component.guarded_step fun _ _ _ hs => hs) h
  refine ⟨X, hX _ _ ?_, fun he => hX _ _ ?_, n, fun k hk => by simp [hn k hk]⟩
  · rintro ⟨a, t, ⟨rfl, hi⟩, k, s', ⟨hs, -⟩, rfl⟩
    have hp := streams_reachable (X.reachable n) a.1
    rw [hn n le_rfl] at hp
    exact no_internal_step hp (by simpa using ho) (by simpa using hr) hi hs
  · rintro ⟨-, hnone⟩
    exact he (by simpa using hnone)

end Streams

/-- The consumer reads the source to its end, and the pull thread exits. -/
theorem idRun_fair :
    ∃ X : Execution (streams (fun _ : Unit => idSchema) (fun _ => idPull) fun _ => .onDemand),
      X.Fair (Internal ()) ∧ Attentive X () ∧ (∀ n, ((X.state n).2 ()).live = true) ∧
        ∃ n, ((X.state n).2 ()).requested = true := by
  obtain ⟨b, s, hrun, ho, hr, he, hl, hreq⟩ : ∃ b s, System.replay
      (answeringStep ⟨checkBatchSchema idSchema, .onDemand⟩ idPull) (idRun ++ [.host, .host])
        (.initial, {}) = some (b, s) ∧ s.coord.over = true ∧ s.closing = 0 ∧ s.ending = some .clean ∧
        s.live = true ∧ s.requested = true := ⟨_, _, rfl, rfl, rfl, rfl, rfl, rfl⟩
  obtain ⟨X, hf, ha, n, hn⟩ :
      ∃ X : Execution (streams (fun _ : Unit => idSchema) (fun _ => idPull) fun _ => .onDemand),
        X.Fair (Internal ()) ∧ (s.ending ≠ none → Attentive X ()) ∧
          ∃ n, ∀ k, n ≤ k → (X.state k).2 () = s := fair_of_replay hrun (.inr ho) hr
  refine ⟨X, hf, ha (by simp [he]), fun m => ?_, n, by rw [hn n le_rfl]; exact hreq⟩
  by_contra hm
  have hlast := dropped_for_good (le_max_left m n) (by simpa using hm)
  rw [hn _ (le_max_right m n), hl] at hlast
  cases hlast

theorem request_answered_idPull :
    ∃ X : Execution (streams (fun _ : Unit => idSchema) (fun _ => idPull) fun _ => .onDemand),
      ∃ k, ((X.state k).2 ()).live = false ∨ ((X.state k).2 ()).Ready := by
  obtain ⟨X, hf, -, -, n, hn⟩ := idRun_fair
  obtain ⟨k, -, hk⟩ := request_answered hf hn
  exact ⟨X, k, hk⟩

theorem finite_source_read_idPull :
    ∃ X : Execution (streams (fun _ : Unit => idSchema) (fun _ => idPull) fun _ => .onDemand),
      ∃ k, ((X.state k).2 ()).ending = some .clean ∧
        ((X.state k).2 ()).delivered = [.ok (idBatch [1, 2])] := by
  obtain ⟨X, hf, ha, hl, -⟩ := idRun_fair
  have hv : verdict (checkBatchSchema idSchema) (firstCalls idPull 2) = .ended := by rfl
  obtain ⟨k, hk, -⟩ := finite_source_read (N := 2) hf ha hl (by rw [hv]; nofun)
  exact ⟨X, k, hk hv⟩

end XorqDatafusion.Bridge
