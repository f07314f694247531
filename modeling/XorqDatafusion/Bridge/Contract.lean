import XorqDatafusion.Bridge.Speculation

/-! When the closure of a stream is called: never twice at once, never after a terminal answer. -/
namespace XorqDatafusion.Bridge

open Transition

variable {B E : Type} {c : Config B E} {b b' : Budget} {s s' : Stream B E} {r r' : Round}
  {p q : Budget × Stream B E} {a : Action B E} {xs : List ((Budget × Stream B E) × Option (Action B E))}

/-- Only a round that is about to call the closure does call it. -/
theorem drainBatches_pulls (h : drainBatches c b s r = some (b', s', r')) :
    s'.pulls = s.pulls ∨ r.drain = .call ∧ s'.pulls = s.pulls + 1 := by
  revert h
  fun_cases drainBatches c b s r <;> intro h <;> cases h <;> simp [*]

/-- A step starts no call, or it starts one for a round that is waiting to. -/
theorem Step.pulls_cases (h : Step c p a q) :
    q.2.pulls = p.2.pulls ∨
      ∃ r, p.2.host.round = some r ∧ r.drain = .call ∧ q.2.pulls = p.2.pulls + 1 := by
  cases h with
  | coordinator h => rw [h.frame]; exact .inl rfl
  | abort _ h => rw [h.frame]; exact .inl rfl
  | host h =>
    cases h with
    | drain hh hd =>
      rcases drainBatches_pulls hd with he | ⟨hr, he⟩
      · exact .inl he
      · exact .inr ⟨_, hh, hr, he⟩
    | _ => exact .inl rfl
  | answer => rw [pullReturned_frame]; exact .inl rfl
  | pollNext => rw [Stream.pollNext_frame]; exact .inl rfl
  | _ => exact .inl rfl

/-- A call starts when every call before it has returned, and returned an accepted batch. -/
theorem call_starts_fresh (hp : (component c).alone.Reachable p) (hs : (component c).step p a q)
    (hn : q.2.pulls ≠ p.2.pulls) :
    q.2.pulls = p.2.pulls + 1 ∧ p.2.pulls = p.2.answers.length ∧
      verdict c.check p.2.answers = .going := by
  have hshaped := reachable_shaped hp
  rcases (reachable_step hp hs).pulls_cases with he | ⟨r, hr, hd, he⟩
  · exact absurd he hn
  · obtain ⟨hgoing, -⟩ := hshaped.at_coord.setRound hr (by rw [hd]; rfl)
    obtain ⟨-, htally⟩ := hshaped.at_coord.tally_round hr (fun _ => 0) (fun _ => 0) (·.drain.calls)
    have hnone : p.2.calls = 0 := by
      rw [Stream.calls, htally, hd]
      rfl
    have hcalls := (reachable_accounted hp).calls
    exact ⟨he, by omega, hgoing⟩

/-- After a terminal answer the closure is left alone for good. -/
theorem run_pulls_of_over (hp : (component c).alone.Reachable p)
    (h : (component c).alone.Run p xs q) (hv : verdict c.check p.2.answers ≠ .going) :
    q.2.pulls = p.2.pulls ∧ verdict c.check q.2.answers = verdict c.check p.2.answers := by
  induction h with
  | refl => exact ⟨rfl, rfl⟩
  | @stepL p t q a xs hs _ ih =>
    have hstep : t.2.pulls = p.2.pulls ∧
        verdict c.check t.2.answers = verdict c.check p.2.answers := by
      cases a with
      | none =>
        have ht : t.2 = p.2 := hs
        rw [ht]
        exact ⟨rfl, rfl⟩
      | some a =>
        refine ⟨?_, ?_⟩
        · by_contra hn
          exact hv (call_starts_fresh hp hs hn).2.2
        · rw [(reachable_step hp hs).answers, verdict_append_of_over hv]
    obtain ⟨hpulls, hverdict⟩ := ih (hp.step hs) (by rwa [hstep.2])
    exact ⟨hpulls.trans hstep.1, hverdict.trans hstep.2⟩

theorem Drain.slots_le (d : Drain) : d.slots ≤ 1 := by
  cases d <;> first | exact Nat.zero_le 1 | exact Nat.le_refl 1

theorem Drain.calls_le (d : Drain) : d.calls ≤ d.slots := by
  cases d <;> first | exact Nat.zero_le _ | exact Nat.le_refl _

theorem Host.tally_mono {job job' : Credit → ℕ} {round round' : Round → ℕ}
    (hj : ∀ credit, job credit ≤ job' credit) (hr : ∀ r, round r ≤ round' r) (host : Host) :
    host.tally job round ≤ host.tally job' round' := by
  have hmail (mailbox : List PullMessage) :
      (mailbox.map (PullMessage.tally job)).sum ≤ (mailbox.map (PullMessage.tally job')).sum := by
    apply List.sum_le_sum
    intro message _
    cases message with
    | init => exact Nat.le_refl 0
    | job credit => exact hj credit
  cases host with
  | unmade => exact Nat.le_refl 0
  | affine thread mailbox done =>
    cases thread <;> first | exact hmail mailbox | exact Nat.add_le_add (hmail mailbox) (hr _)
  | pool task => cases task <;> first | exact Nat.le_refl 0 | exact hj _ | exact hr _

theorem Stream.calls_le (s : Stream B E) : s.calls ≤ s.heldSlots := by
  have hle : s.host.tally (fun _ => 0) (·.drain.calls) ≤ s.host.tally (fun _ => 1) (·.drain.slots) :=
    s.host.tally_mono (fun _ => Nat.zero_le 1) fun r => r.drain.calls_le
  simp only [Stream.calls, Stream.heldSlots]
  omega

theorem Busy.slots_le {host : Host} {home : Home} {v : Verdict} (h : Busy host home v) :
    host.tally (fun _ => 1) (·.drain.slots) ≤ 1 := by
  cases h with
  | draining r | pooled r => simpa [Host.tally] using r.drain.slots_le
  | _ => simp [Host.tally, PullMessage.tally]

theorem Orphan.slots_le {host : Host} {home : Home} {v : Verdict} (h : Orphan host home v) :
    host.tally (fun _ => 1) (·.drain.slots) ≤ 1 := by
  cases h with
  | draining r | pooled r => simpa [Host.tally] using r.drain.slots_le
  | _ => simp [Host.tally, PullMessage.tally]

/-- A stream holds one slot of its channel at most. -/
theorem Shaped.heldSlots_le (hs : Shaped c s) : s.heldSlots ≤ 1 := by
  have hat := hs.at_coord
  have hidle (h : Idle s.host s.home) : s.host.tally (fun _ => 1) (·.drain.slots) = 0 :=
    Host.tally_of_not_working h.not_working _ _
  cases hc : s.coord with
  | spawned | spawning | sendInit =>
    rw [hc] at hat
    simp [Stream.heldSlots, hc, hat.1, Coord.tally, Host.tally]
  | awaitRound =>
    rw [hc] at hat
    rcases hat with hb | ⟨report, hr, -⟩
    · simpa [Stream.heldSlots, hc, Coord.tally] using hb.slots_le
    · simp [Stream.heldSlots, hc, Coord.tally, hr.tally]
  | finished | panicked | aborted =>
    rw [hc] at hat
    simpa [Stream.heldSlots, hc, Coord.tally] using hat.1.slots_le
  | _ =>
    rw [hc] at hat
    simp [Stream.heldSlots, hc, Coord.tally, hidle hat.1]

/-- Once the receiver is gone, a slot that a call gives up is not taken again. -/
theorem drainBatches_released (h : drainBatches c b s r = some (b', s', r')) (hl : s.live = false) :
    s.slots ≤ s'.slots := by
  revert h
  fun_cases drainBatches c b s r <;> intro h <;> cases h <;> simp_all

/-- A call that returns gives up its slot. -/
theorem pullReturned_slots (c : Config B E) (b : Budget) (s : Stream B E) (r : Round)
    (o : Outcome B E) : (pullReturned c b s r o).2.2.drain.slots = 0 := by
  cases o with
  | batch batch => cases h : c.check batch <;> simp [pullReturned, h, Drain.slots]
  | error | done | panic => rfl

theorem Step.released (h : Step c p a q) (hl : p.2.live = false) :
    p.2.slots + p.2.chan.length + q.2.answers.length ≤
      q.2.slots + q.2.chan.length + p.2.answers.length := by
  cases h with
  | coordinator h =>
    cases h with
    | reserve _ hlive => cases hlive.symm.trans hl
    | @collect _ _ report => rcases report with ⟨_ | _⟩ | payload <;> exact Nat.le_refl _
    | _ => exact Nat.le_refl _
  | abort _ h => cases h <;> exact Nat.le_refl _
  | host h =>
    cases h with
    | @drain b b' s s' r r' hh hd =>
      have hslots := drainBatches_released hd hl
      have hf := (drainBatches_frame hd).1
      have hchan : s'.chan = s.chan := by rw [hf]
      have hans : s'.answers = s.answers := by rw [hf]
      simp only [hchan, hans]
      omega
    | _ => exact Nat.le_refl _
  | @answer b s r o hh hr =>
    have hcounts := (pullReturned_counts c b s r o).2.1
    have hnone := pullReturned_slots c b s r o
    have hans : (pullReturned c b s r o).2.1.answers = s.answers ++ [o] := by
      rw [pullReturned_frame]
    simp only [hans, List.length_append, List.length_singleton]
    omega
  | pollNext => rw [Stream.pollNext_frame]
  | @receive b s item rest hp hc =>
    simp only [hc, List.length_cons]
    omega
  | dropReceiver hlive => cases hlive.symm.trans hl
  | _ => exact Nat.le_refl _

theorem Step.live_eq_false (h : Step c p a q) (hl : p.2.live = false) : q.2.live = false := by
  cases h with
  | coordinator h => rw [h.frame]; exact hl
  | abort _ h => rw [h.frame]; exact hl
  | host h => rw [h.frame]; exact hl
  | answer => rw [pullReturned_frame]; exact hl
  | pollNext => rw [Stream.pollNext_frame]; exact hl
  | dropReceiver => rfl
  | _ => exact hl

/-- Once the receiver is gone, every call still to come needs a slot that is held now. -/
theorem run_released (hp : (component c).alone.Reachable p) (h : (component c).alone.Run p xs q)
    (hl : p.2.live = false) :
    q.2.answers.length + q.2.heldSlots ≤ p.2.answers.length + p.2.heldSlots := by
  induction h with
  | refl => exact Nat.le_refl _
  | @stepL p t q a xs hs _ ih =>
    cases a with
    | none =>
      have ht : t.2 = p.2 := hs
      simpa only [ht] using ih (hp.step hs) (by rw [ht]; exact hl)
    | some a =>
      have hstep := reachable_step hp hs
      have hreleased := hstep.released hl
      have hslots := (hstep.counts (reachable_accounted hp).settled).slots
      have hrest := ih (hp.step hs) (hstep.live_eq_false hl)
      omega

theorem run_pulls_le_succ (hp : (component c).alone.Reachable p)
    (h : (component c).alone.Run p xs q) (hl : p.2.live = false) : q.2.pulls ≤ p.2.pulls + 1 := by
  have hone := (reachable_shaped hp).heldSlots_le
  have hheld := run_released hp h hl
  have hpulls := (reachable_accounted hp).calls
  have hpulls' := (reachable_accounted (hp.run h)).calls
  have hcalls := q.2.calls_le
  omega

/-- `PullGuard::take` always finds the closure: a round is only started with the pull at home. -/
theorem Shaped.guard_of_dispatch {credit : Credit} {task : Task} (hs : Shaped c s)
    (hc : s.coord = .dispatch credit) (hh : s.host = .pool task) : s.home = .guard := by
  have hat := hs.at_coord
  rw [hc, hh] at hat
  generalize s.home = home at hat
  cases hat.1
  rfl

/-- On every schedule the closure is called as its contract says: a call starts only when all calls
before it have returned accepted batches, none starts after a terminal answer, at most one starts
after the receiver is dropped, and no round is started without the closure. -/
theorem pull_contract_honoured {T α : Type} [DecidableEq T] [ToString T] (schema : Schema T)
    (pull : ℕ → Outcome (RecordBatch T α) DataFusionError) (readAhead : ReadAhead)
    {p : Budget × Stream (RecordBatch T α) DataFusionError}
    (h : (spawnChannelStream schema pull readAhead).alone.Reachable p) :
    (∀ a q, (spawnChannelStream schema pull readAhead).step p a q → q.2.pulls ≠ p.2.pulls →
      q.2.pulls = p.2.pulls + 1 ∧ p.2.pulls = p.2.answers.length ∧
        verdict (checkBatchSchema schema) p.2.answers = .going) ∧
    (∀ xs q, (spawnChannelStream schema pull readAhead).alone.Run p xs q →
      (verdict (checkBatchSchema schema) p.2.answers ≠ .going → q.2.pulls = p.2.pulls) ∧
      (p.2.live = false → q.2.pulls ≤ p.2.pulls + 1)) ∧
    (∀ credit task, p.2.coord = .dispatch credit → p.2.host = .pool task → p.2.home = .guard) := by
  have hp := Component.alone_reachable_of_restrict h
  refine ⟨?_, ?_, ?_⟩
  · intro a q hs hn
    exact call_starts_fresh hp hs.1 hn
  · intro xs q hr
    have hrun := Component.alone_run_of_restrict hr
    exact ⟨fun hv => (run_pulls_of_over hp hrun hv).1, run_pulls_le_succ hp hrun⟩
  · intro credit task hc hh
    exact (reachable_shaped hp).guard_of_dispatch hc hh

/-- Up to the second call of a round, which the consumer's second request pays for. -/
def secondCallRun : List (Action (RecordBatch String ℤ) DataFusionError) :=
  [.coordinator true, .coordinator false] ++ requestedRound (idPull 0) ++
    [.host, .receive, .pollNext, .host]

theorem pull_contract_honoured_idPull :
    ∃ p q, (spawnChannelStream idSchema idPull .onDemand).alone.Reachable p ∧
      (spawnChannelStream idSchema idPull .onDemand).step p .host q ∧
      q.2.pulls = 2 ∧ p.2.answers.length = 1 ∧
      verdict (checkBatchSchema idSchema) p.2.answers = .going := by
  obtain ⟨p, q, hrun, hstep, hp, hq⟩ : ∃ p q, System.replay
      (answeringStep ⟨checkBatchSchema idSchema, .onDemand⟩ idPull) secondCallRun (.initial, {}) =
        some p ∧ step ⟨checkBatchSchema idSchema, .onDemand⟩ .host p = some q ∧
      p.2.pulls = 1 ∧ q.2.pulls = 2 := ⟨_, _, rfl, rfl, rfl, rfl⟩
  have h : (spawnChannelStream idSchema idPull .onDemand).alone.Reachable p :=
    answering_reachable hrun
  have hs : (spawnChannelStream idSchema idPull .onDemand).step p .host q := ⟨hstep, trivial⟩
  obtain ⟨-, hlen, hgoing⟩ :=
    (pull_contract_honoured idSchema idPull .onDemand h).1 .host q hs (by omega)
  exact ⟨p, q, h, hs, hq, by omega, hgoing⟩

end XorqDatafusion.Bridge
