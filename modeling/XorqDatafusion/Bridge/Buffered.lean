import XorqDatafusion.Bridge.Contract

/-! How far a stream can be ahead of its consumer: what it has pulled fits the channel. -/
namespace XorqDatafusion.Bridge

open Transition

variable {B E : Type} {c : Config B E} {b b' : Budget} {s s' : Stream B E} {r r' : Round}
  {p q : Budget × Stream B E} {a : Action B E}

/-- What was pulled and is not delivered has been given room: it is in the channel, or a slot stands
free again in its place. -/
def Buffered (s : Stream B E) : Prop :=
  s.answers.length ≤ s.delivered.length + s.chan.length + s.slots

/-- While the source goes on, every answer is delivered or in the channel. -/
theorem Lossless.answers_length (hI : Lossless c s) (hl : s.live = true)
    (hv : verdict c.check s.answers = .going) :
    s.answers.length = s.delivered.length + s.chan.length := by
  rw [← spec_length_of_going hv, ← hI.items hl, List.length_append]

/-- A round takes a slot only while the source goes on and the consumer is there. -/
theorem drainBatches_buffered (h : drainBatches c b s r = some (b', s', r'))
    (hlive : s.live = true → s.answers.length = s.delivered.length + s.chan.length)
    (hI : Buffered s) : Buffered s' := by
  revert h
  fun_cases drainBatches c b s r with
  | case1 | case3 | case4 | case5 | case6 =>
    intro h
    cases h
    exact hI
  | case2 _ hl =>
    intro h
    cases h
    have hall := hlive hl.1
    simp only [Buffered]
    omega
  | case7 =>
    intro h
    cases h
    simp only [Buffered] at hI ⊢
    omega
  | case8 | case9 | case10 =>
    intro h
    cases h

theorem pullReturned_buffered (c : Config B E) (b : Budget) (s : Stream B E) (r : Round)
    (o : Outcome B E) (hI : Buffered s) : Buffered (pullReturned c b s r o).2.1 := by
  have hroom := (pullReturned_counts c b s r o).2.1
  have hnone := pullReturned_slots c b s r o
  have hf := pullReturned_frame c b s r o
  have hans : (pullReturned c b s r o).2.1.answers = s.answers ++ [o] := by rw [hf]
  have hdel : (pullReturned c b s r o).2.1.delivered = s.delivered := by rw [hf]
  simp only [Buffered, hans, hdel, List.length_append, List.length_singleton] at hI ⊢
  omega

theorem HostStep.buffered (hs : Shaped c p.2) (hl : Lossless c p.2) (h : HostStep c p q)
    (hI : Buffered p.2) : Buffered q.2 := by
  cases h with
  | @drain b b' s s' r r' hh hd =>
    have hgoing := (drainBatches_frame hd).2.1
    have hv : verdict c.check s.answers = .going := (hs.at_coord.setRound hh hgoing).1
    have hI' : Buffered s' := drainBatches_buffered hd (fun hlive => hl.answers_length hlive hv) hI
    exact hI'
  | _ => exact hI

theorem CoordStep.buffered (hs : Shaped c p.2) (hl : Lossless c p.2) (h : CoordStep c p q)
    (hI : Buffered p.2) : Buffered q.2 := by
  cases h with
  | @reserve b s credit hc hlive hslots =>
    have hat := hs.at_coord
    simp only [hc] at hat
    have hall : s.answers.length = s.delivered.length + s.chan.length :=
      hl.answers_length hlive hat.2
    simp only [Buffered]
    omega
  | @collect b s report => rcases report with ⟨_ | _⟩ | payload <;> exact hI
  | _ => exact hI

theorem AbortStep.buffered (h : AbortStep p q) (hI : Buffered p.2) : Buffered q.2 := by
  cases h <;> exact hI

theorem Step.buffered (hs : Shaped c p.2) (hl : Lossless c p.2) (h : Step c p a q)
    (hI : Buffered p.2) : Buffered q.2 := by
  cases h with
  | coordinator h => exact h.buffered hs hl hI
  | abort _ h => exact h.buffered hI
  | host h => exact h.buffered hs hl hI
  | @answer b s r o hh hr =>
    have hI' := pullReturned_buffered c b s r o hI
    exact hI'
  | pollNext => rw [Stream.pollNext_frame]; exact hI
  | receive hp hc =>
    simp only [Buffered, hc, List.length_append, List.length_cons, List.length_nil] at hI ⊢
    omega
  | dropReceiver =>
    simp only [Buffered, List.length_nil] at hI ⊢
    omega
  | _ => exact hI

theorem reachable_buffered (h : (component c).alone.Reachable p) : Buffered p.2 := by
  have hI : (Accounted c p.2 ∧ Lossless c p.2) ∧ Buffered p.2 := by
    refine stream_invariant (I := fun s => (Accounted c s ∧ Lossless c s) ∧ Buffered s)
      ⟨⟨accounted_initial, lossless_initial⟩, Nat.zero_le _⟩ ?_ h
    intro p a q hs hstep hI
    obtain ⟨⟨ha, hl⟩, hb⟩ := hI
    exact ⟨⟨accounted_step ha hstep, lossless_step hs ha hstep hl⟩, hstep.buffered hs hl hb⟩
  exact hI.2

/-- Pulls that were started and whose items the consumer does not have yet fit the channel. -/
theorem pulls_le_capacity (h : (component c).alone.Reachable p) :
    p.2.pulls ≤ p.2.delivered.length + channelCapacity := by
  have hbuffered := reachable_buffered h
  have ha := reachable_accounted h
  have hslots := ha.slots
  have hcalls := ha.calls
  have hheld := p.2.calls_le
  simp only [Buffered] at hbuffered
  omega

/-- A slot is set aside for the next item: it is held, and neither free nor filled. -/
structure RoomAhead (s : Stream B E) : Prop where
  held : s.heldSlots = 1
  capacity : s.slots + s.chan.length + 1 = channelCapacity

theorem roomAhead_of_round (h : (component c).alone.Reachable p) (hr : p.2.host.round = some r)
    (hslots : r.drain.slots = 1) : RoomAhead p.2 := by
  have hs := reachable_shaped h
  have hle := hs.heldSlots_le
  have hslot : r.drain.slots ≤ p.2.heldSlots := by
    have htally : r.drain.slots ≤ p.2.host.tally (fun _ => 1) (·.drain.slots) := by
      rcases Host.round_eq_some_iff.mp hr with ⟨mailbox, done, hh⟩ | hh <;> simp [hh, Host.tally]
    simp only [Stream.heldSlots]
    omega
  have hheld : p.2.heldSlots = 1 := by omega
  have hall := (reachable_accounted h).slots
  rw [hheld] at hall
  exact ⟨hheld, hall⟩

/-- A pull that is under way can return at any time: its answer is put on the channel at once. -/
theorem answer_sent (h : (component c).alone.Reachable p) (hr : p.2.host.round = some r)
    (hd : r.drain = .inPull) (o : Outcome B E) : ∃ q, (component c).step p (.answer o) q ∧
      (p.2.live = true → q.2.chan = p.2.chan ++ o.items c.check ∧
        q.2.chan.length ≤ channelCapacity) := by
  obtain ⟨b, s⟩ := p
  let p' := pullReturned c b s r o
  let q : Budget × Stream B E := (p'.1, { p'.2.1 with host := s.host.setRound p'.2.2 })
  have hstep : (component c).step (b, s) (.answer o) q := by
    have hanswer : answer c o b s = some q := by
      rcases Host.round_eq_some_iff.mp hr with ⟨mailbox, done, hh⟩ | hh
      · have hhost : s.host = .affine (.draining r) mailbox done := hh
        simp [answer, hhost, hd, Host.setRound, q, p']
      · have hhost : s.host = .pool (.draining r) := hh
        simp [answer, hhost, hd, Host.setRound, q, p']
    exact hanswer
  have halone : (component c).alone.step (b, s) (some (.answer o)) q := hstep
  refine ⟨q, hstep, ?_⟩
  intro hl
  refine ⟨pullReturned_chan c b s r o hl, ?_⟩
  have hslots := (reachable_accounted (h.step halone)).slots
  omega

/-- On every schedule a stream is ahead of its consumer by what its channel holds at most. A pull
starts only with a slot set aside for its item, so its answer is put on the channel without waiting,
and while the consumer is there nothing that was pulled is thrown away. -/
theorem buffered_batches_bounded {T α : Type} [DecidableEq T] [ToString T] (schema : Schema T)
    (pull : ℕ → Outcome (RecordBatch T α) DataFusionError) (readAhead : ReadAhead)
    {p : Budget × Stream (RecordBatch T α) DataFusionError}
    (h : (spawnChannelStream schema pull readAhead).alone.Reachable p) :
    p.2.pulls ≤ p.2.delivered.length + channelCapacity ∧
      (∀ a q, (spawnChannelStream schema pull readAhead).step p a q → q.2.pulls ≠ p.2.pulls →
        RoomAhead p.2) ∧
      ∀ r, p.2.host.round = some r → r.drain = .inPull →
        RoomAhead p.2 ∧
        ∃ q, (spawnChannelStream schema pull readAhead).step p (.answer (pull p.2.answers.length)) q ∧
          (p.2.live = true →
            q.2.chan = p.2.chan ++ (pull p.2.answers.length).items (checkBatchSchema schema) ∧
            q.2.chan.length ≤ channelCapacity) := by
  have hp := Component.alone_reachable_of_restrict h
  refine ⟨pulls_le_capacity hp, ?_, ?_⟩
  · intro a q hs hn
    rcases (reachable_step hp hs.1).pulls_cases with he | ⟨r, hr, hd, -⟩
    · exact absurd he hn
    · exact roomAhead_of_round hp hr (by rw [hd]; rfl)
  · intro r hr hd
    obtain ⟨q, hq, hsent⟩ := answer_sent hp hr hd (pull p.2.answers.length)
    exact ⟨roomAhead_of_round hp hr (by rw [hd]; rfl), q, ⟨hq, rfl⟩, hsent⟩

/-- Nobody polls, and the stream reads ahead: a batch is in the channel, the next pull under way. -/
def readAheadRun : List (Action (RecordBatch String ℤ) DataFusionError) :=
  [.coordinator true, .coordinator true, .coordinator true, .coordinator true, .coordinator true,
    .coordinator true, .coordinator true, .host, .host, .host, .answer (idPull 0), .host, .host,
    .host, .host]

theorem buffered_batches_bounded_idPull :
    ∃ p, (spawnChannelStream idSchema idPull .buffered).alone.Reachable p ∧
      p.2.pulls = 2 ∧ p.2.delivered = [] ∧ RoomAhead p.2 ∧
      p.2.pulls ≤ p.2.delivered.length + channelCapacity := by
  obtain ⟨p, hrun, hpulls, hdelivered, r, hr, hd⟩ : ∃ p, System.replay
      (answeringStep ⟨checkBatchSchema idSchema, .buffered⟩ idPull) readAheadRun (.initial, {}) =
        some p ∧ p.2.pulls = 2 ∧ p.2.delivered = [] ∧
        ∃ r, p.2.host.round = some r ∧ r.drain = .inPull :=
    ⟨_, rfl, rfl, rfl, _, rfl, rfl⟩
  have h : (spawnChannelStream idSchema idPull .buffered).alone.Reachable p := answering_reachable hrun
  obtain ⟨hbound, -, hroom⟩ := buffered_batches_bounded idSchema idPull .buffered h
  exact ⟨p, h, hpulls, hdelivered, (hroom r hr hd).1, hbound⟩

end XorqDatafusion.Bridge
