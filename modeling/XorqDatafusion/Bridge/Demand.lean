import XorqDatafusion.Bridge.Lossless

/-! Credit and requests: an on-demand stream never reads ahead, and no request is forgotten. -/
namespace XorqDatafusion.Bridge

open Transition

variable {B E : Type} {c : Config B E} {s : Stream B E} {host : Host}
  {p q r : Budget × Stream B E} {a : Action B E} {xs : List ((Budget × Stream B E) × Option (Action B E))}

/-- Items asked for: one at the first poll after the item before it was delivered. -/
def itemsRequested : Bool → List (Option (Action B E)) → ℕ
  | _, [] => 0
  | asked, some .pollNext :: as => (if asked then 0 else 1) + itemsRequested true as
  | _, some .receive :: as => itemsRequested false as
  | asked, _ :: as => itemsRequested asked as

/-- The stream counts the same items as a reader of the history would. -/
theorem Step.itemsRequested (h : Step c p a q) (as : List (Option (Action B E))) :
    q.2.requests + itemsRequested q.2.requested as =
      p.2.requests + Bridge.itemsRequested p.2.requested (some a :: as) := by
  cases h with
  | coordinator h => rw [h.frame]; rfl
  | abort _ h => rw [h.frame]; rfl
  | host h => rw [h.frame]; rfl
  | answer => rw [pullReturned_frame]; rfl
  | @pollNext b s =>
    cases hr : s.requested <;> simp [Stream.pollNext, Bridge.itemsRequested, hr]
    omega
  | receive | pending | endOfStream | propagatePanic | dropReceiver | dropTasks | dispose => rfl

theorem run_itemsRequested (hp : (component c).alone.Reachable p)
    (h : (component c).alone.Run p xs q) :
    q.2.requests = p.2.requests + itemsRequested p.2.requested (xs.map Prod.snd) := by
  induction h with
  | refl => rfl
  | @stepL p t r a xs hs hr ih =>
    rw [ih (hp.step hs)]
    cases a with
    | none =>
      have ht : t.2 = p.2 := hs
      rw [ht]
      rfl
    | some a => exact (reachable_step hp hs).itemsRequested _

/-- Without a poll, a stream that owes its consumer nothing goes on owing nothing. -/
theorem run_without_poll (hp : (component c).alone.Reachable p)
    (h : (component c).alone.Run p xs q) (hn : ∀ x ∈ xs, x.2 ≠ some .pollNext)
    (hr : p.2.requested = false) : q.2.requested = false ∧ q.2.requests = p.2.requests := by
  let I (t : Budget × Stream B E) : Prop := (component c).alone.Reachable t ∧
    t.2.requested = false ∧ t.2.requests = p.2.requests
  have hI : I q := by
    refine System.run_preserves (T := (component c).alone.restrict fun _ a => a ≠ some .pollNext)
      ?_ (System.run_restrict_iff.mpr ⟨h, hn⟩) ⟨hp, hr, rfl⟩
    rintro t a u ⟨hs, ha⟩ ⟨hreach, hreq, hcount⟩
    refine ⟨hreach.step hs, ?_⟩
    cases a with
    | none =>
      have hu : u.2 = t.2 := hs
      rw [hu]
      exact ⟨hreq, hcount⟩
    | some a =>
      have hstep := reachable_step hreach hs
      have hcounts := hstep.itemsRequested []
      cases hstep with
      | pollNext => exact absurd rfl ha
      | coordinator h => rw [h.frame]; exact ⟨hreq, hcount⟩
      | abort _ h => rw [h.frame]; exact ⟨hreq, hcount⟩
      | host h => rw [h.frame]; exact ⟨hreq, hcount⟩
      | answer => rw [pullReturned_frame]; exact ⟨hreq, hcount⟩
      | receive => exact ⟨rfl, hcount⟩
      | _ => exact ⟨hreq, hcount⟩
  exact hI.2

section OnDemand

variable (hra : c.readAhead = .onDemand)

include hra

theorem Accounted.pulls_le (hI : Accounted c s) : s.pulls ≤ s.requests := by
  have := hI.onDemand hra
  omega

/-- With nothing asked for, every item asked for so far was pulled and delivered. -/
theorem Accounted.pulls_eq (hI : Accounted c s) (hr : s.requested = false) :
    s.pulls = s.requests := by
  have hle := hI.pulls_le hra
  have hasked := hI.asked
  have hsent := hI.sent
  have hcalls := hI.calls
  simp [hr] at hasked
  omega

theorem pulls_le_itemsRequested (h₀ : p.2 = {}) (h : (component c).alone.Run p xs q) :
    q.2.pulls ≤ itemsRequested false (xs.map Prod.snd) := by
  have hp : (component c).alone.Reachable p := .of_start h₀
  have hcount := run_itemsRequested hp h
  have hpulls := (reachable_accounted (hp.run h)).pulls_le hra
  simp only [h₀] at hcount
  omega

theorem pulls_le_delivered (hp : (component c).alone.Reachable p) :
    p.2.pulls ≤ p.2.delivered.length + 1 := by
  have hpulls := (reachable_accounted hp).pulls_le hra
  have hasked := (reachable_accounted hp).asked
  have hone := Bool.toNat_le p.2.requested
  omega

theorem run_pulls_eq (hp : (component c).alone.Reachable p) (h : (component c).alone.Run p xs q)
    (hn : ∀ x ∈ xs, x.2 ≠ some .pollNext) (hr : p.2.requested = false) : q.2.pulls = p.2.pulls := by
  obtain ⟨hr', hsame⟩ := run_without_poll hp h hn hr
  rw [(reachable_accounted (hp.run h)).pulls_eq hra hr', (reachable_accounted hp).pulls_eq hra hr,
    hsame]

end OnDemand

theorem receive_requested (hp : (component c).alone.Reachable p)
    (h : (component c).step p .receive q) : q.2.requested = false := by
  cases reachable_step hp h
  rfl

/-- Whatever the interleaving, an on-demand stream pulls only what its consumer asked for, hence at
most one item more than it delivered, and nothing between a delivery and the next poll. -/
theorem on_demand_never_reads_ahead {T α : Type} [DecidableEq T] [ToString T] (schema : Schema T)
    (pull : ℕ → Outcome (RecordBatch T α) DataFusionError)
    {p₀ p : Budget × Stream (RecordBatch T α) DataFusionError}
    {xs : List (_ × Option (Action (RecordBatch T α) DataFusionError))}
    (h₀ : (spawnChannelStream schema pull .onDemand).alone.start p₀)
    (h : (spawnChannelStream schema pull .onDemand).alone.Run p₀ xs p) :
    p.2.pulls ≤ itemsRequested false (xs.map Prod.snd) ∧ p.2.pulls ≤ p.2.delivered.length + 1 ∧
      ∀ q r ys, (spawnChannelStream schema pull .onDemand).alone.step p (some .receive) q →
        (spawnChannelStream schema pull .onDemand).alone.Run q ys r →
        (∀ y ∈ ys, y.2 ≠ some .pollNext) → r.2.pulls = q.2.pulls := by
  have hrun := Component.alone_run_of_restrict h
  have hp := Component.alone_reachable_of_restrict ((System.Reachable.of_start h₀).run h)
  refine ⟨pulls_le_itemsRequested rfl h₀ hrun, pulls_le_delivered rfl hp, ?_⟩
  intro q r ys hstep hys hn
  have hq := Component.alone_step_of_restrict hstep
  exact run_pulls_eq rfl (hp.step hq) (Component.alone_run_of_restrict hys) hn
    (receive_requested hp hq)

theorem on_demand_never_reads_ahead_idPull :
    ∃ p xs, (spawnChannelStream idSchema idPull .onDemand).alone.Run (.initial, {}) xs p ∧
      p.2.pulls = 2 ∧ p.2.pulls ≤ itemsRequested false (xs.map Prod.snd) := by
  obtain ⟨p, hp, hpulls⟩ : ∃ p, System.replay
      (answeringStep ⟨checkBatchSchema idSchema, .onDemand⟩ idPull) idRun (.initial, {}) = some p ∧
      p.2.pulls = 2 := ⟨_, rfl, rfl⟩
  obtain ⟨xs, hr, -⟩ := answering_run hp
  have h₀ : (spawnChannelStream idSchema idPull .onDemand).alone.start (.initial, {}) := rfl
  exact ⟨p, xs, hr, hpulls, (on_demand_never_reads_ahead _ _ h₀ hr).1⟩

/-- The host is at work on a round: from its dispatch to its report. -/
def Host.working : Host → Bool
  | .affine thread mailbox _ => mailbox.any PullMessage.isJob || match thread with
    | .draining _ | .reporting _ => true
    | _ => false
  | .pool (.queued _) | .pool (.draining _) => true
  | _ => false

def Coord.holdsCredit : Coord → Bool
  | .reserve _ | .dispatch _ => true
  | _ => false

theorem Host.tally_of_not_working (h : host.working = false) (job : Credit → ℕ)
    (round : Round → ℕ) : host.tally job round = 0 := by
  have hmail (mailbox : List PullMessage) (hm : mailbox.any PullMessage.isJob = false) :
      (mailbox.map (PullMessage.tally job)).sum = 0 := by
    induction mailbox with
    | nil => rfl
    | cons message mailbox ih =>
      cases message with
      | init =>
        have hrest := ih (by simpa [PullMessage.isJob] using hm)
        simpa [PullMessage.tally, PullMessage.isJob] using hrest
      | job credit => simp [PullMessage.isJob] at hm
  cases host with
  | unmade => rfl
  | affine thread mailbox done =>
    obtain ⟨hm, ht⟩ := Bool.or_eq_false_iff.mp h
    cases thread <;> first | exact hmail mailbox hm | cases ht
  | pool task => cases task <;> first | rfl | cases h

theorem Busy.working {home : Home} {v : Verdict} (h : Busy host home v) : host.working = true := by
  cases h <;> rfl

theorem Idle.not_working {home : Home} (h : Idle host home) :
    host.working = false := by
  cases h <;> rfl

theorem Reported.not_working {home : Home}
    (h : Reported host home report) : host.working = false := by
  cases h <;> rfl

/-- A live stream whose source has not ended still has its coordinator. -/
theorem Shaped.not_over (hs : Shaped c s) (hl : s.live = true)
    (hv : verdict c.check s.answers = .going) : s.coord.over = false := by
  have hat := hs.at_coord
  rw [hv, hl] at hat
  cases hc : s.coord with
  | finished => simp [ShapeAt, hc] at hat
  | panicked => simp [ShapeAt, hc] at hat
  | aborted => simp [ShapeAt, hc] at hat
  | _ => rfl

/-- The consumer waits for an item: the channel is empty, the source has more, and no round is
running. -/
structure Waiting (c : Config B E) (s : Stream B E) : Prop where
  live : s.live = true
  requested : s.requested = true
  empty : s.chan = []
  going : verdict c.check s.answers = .going
  idle : s.host.working = false

/-- A request nobody serves is a demand permit, unless a credit was taken for it. -/
theorem demand_of_waiting (hs : Shaped c s) (ha : Accounted c s) (hI : Lossless c s)
    (hw : Waiting c s) (hc : s.coord.holdsCredit = false) : 0 < s.demand := by
  have hall : s.delivered = spec c.check s.answers := by simpa [hw.empty] using hI.items hw.live
  have hlen : s.delivered.length = s.answers.length := by
    rw [hall, spec_length_of_going hw.going]
  have hasked := ha.asked
  have howed := ha.owed (hs.not_over hw.live hw.going)
  have hcalls := ha.calls
  have hpending : s.pending = 0 := by
    have hcoord : s.coord.tally (fun _ => 1) (fun _ => 1) = 0 := by
      cases hcoord : s.coord <;> simp_all [Coord.tally, Coord.holdsCredit]
    simp [Stream.pending, hcoord, Host.tally_of_not_working hw.idle]
  have hidle : s.calls = 0 := Host.tally_of_not_working hw.idle _ _
  simp [hw.requested] at hasked
  omega

/-- While no round runs, at most the coordinator holds a slot. -/
theorem slots_of_waiting (ha : Accounted c s) (hw : Waiting c s) : 0 < s.slots := by
  have hslots := ha.slots
  have hheld : s.heldSlots ≤ 1 := by
    have hcoord : s.coord.tally (fun _ => 0) (fun _ => 1) ≤ 1 := by
      cases s.coord <;> simp [Coord.tally]
    simpa [Stream.heldSlots, Host.tally_of_not_working hw.idle] using hcoord
  simp [hw.empty, channelCapacity] at hslots
  omega

theorem coordinator_enabled (hs : Shaped c s) (ha : Accounted c s) (hI : Lossless c s)
    (hw : Waiting c s) (spawns : Bool) (b : Budget) : ∃ q, coordinator c spawns b s = some q := by
  have hat := hs.at_coord
  have hover := hs.not_over hw.live hw.going
  have hslots := slots_of_waiting ha hw
  have hdemand := demand_of_waiting hs ha hI hw
  rw [← Option.isSome_iff_exists]
  cases hc : s.coord with
  | spawned => simp [coordinator, hc]
  | spawning => cases spawns <;> simp [coordinator, hc]
  | sendInit =>
    simp only [hc] at hat
    simp [coordinator, hc, hat.1]
  | tryAcquire => simp only [coordinator, hc]; split <;> rfl
  | trySpeculate => simp only [coordinator, hc]; split <;> rfl
  | acquire =>
    have hpos := hdemand (by simp [hc, Coord.holdsCredit])
    simp [coordinator, hc, hpos]
  | reserve credit => simp [coordinator, hc, hw.live, hslots]
  | dispatch credit =>
    simp only [hc] at hat
    generalize hhost : s.host = host at hat
    generalize hhome : s.home = home at hat
    cases hat.1 with
    | unread | parked => simp [coordinator, hc, startRound, hhost]
    | pool => simp [coordinator, hc, startRound, hhost, hhome]
  | awaitRound =>
    simp only [hc] at hat
    rcases hat with hat | ⟨report, hat, -⟩
    · have hidle := hw.idle
      simp [hat.working] at hidle
    · simp [coordinator, hc, finishRound_eq hat]
  | finished | panicked | aborted => simp [hc, Coord.over] at hover

/-- A waiting consumer is never forgotten: the coordinator can take a step, and either a demand
permit is there for it or it holds a credit and finds a free slot. -/
theorem no_lost_wake_up {T α : Type} [DecidableEq T] [ToString T] (schema : Schema T)
    (pull : ℕ → Outcome (RecordBatch T α) DataFusionError) (readAhead : ReadAhead)
    {p : Budget × Stream (RecordBatch T α) DataFusionError}
    (h : (spawnChannelStream schema pull readAhead).alone.Reachable p)
    (hw : Waiting ⟨checkBatchSchema schema, readAhead⟩ p.2) :
    (∀ spawns, ∃ q, (spawnChannelStream schema pull readAhead).step p (.coordinator spawns) q) ∧
      (0 < p.2.demand ∨ (p.2.coord.holdsCredit = true ∧ 0 < p.2.slots)) := by
  have hp := Component.alone_reachable_of_restrict h
  have hs := reachable_shaped hp
  have ha := reachable_accounted hp
  have hI := reachable_lossless hp
  constructor
  · intro spawns
    obtain ⟨q, hq⟩ := coordinator_enabled hs ha hI hw spawns p.1
    exact ⟨q, hq, trivial⟩
  · cases hc : p.2.coord.holdsCredit with
    | false => exact .inl (demand_of_waiting hs ha hI hw hc)
    | true => exact .inr ⟨rfl, slots_of_waiting ha hw⟩

/-- The coordinator parks for want of demand, and the consumer polls. -/
theorem no_lost_wake_up_parked :
    ∃ p, (spawnChannelStream idSchema idPull .onDemand).alone.Reachable p ∧
      p.2.coord = .acquire ∧
      ∃ q, (spawnChannelStream idSchema idPull .onDemand).step p (.coordinator true) q := by
  obtain ⟨p, hp, hc, hw⟩ : ∃ p, System.replay
      (answeringStep ⟨checkBatchSchema idSchema, .onDemand⟩ idPull)
        [.coordinator true, .coordinator true, .coordinator true, .coordinator true,
          .coordinator true, .pollNext] (.initial, {}) = some p ∧
      p.2.coord = .acquire ∧ Waiting ⟨checkBatchSchema idSchema, .onDemand⟩ p.2 :=
    ⟨_, rfl, rfl, rfl, rfl, rfl, rfl, rfl⟩
  have hr := answering_reachable hp
  exact ⟨p, hr, hc, (no_lost_wake_up _ _ _ hr hw).1 true⟩

end XorqDatafusion.Bridge
