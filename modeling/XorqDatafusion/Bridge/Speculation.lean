import XorqDatafusion.Bridge.Demand

/-! Which pulls nobody asked for hold a speculation permit. -/
namespace XorqDatafusion.Bridge

open Transition

variable {B E : Type} {c : Config B E} {b b' : Budget} {s s' : Stream B E} {r r' : Round}
  {host : Host} {coord : Coord} {home : Home} {v : Verdict} {p q : Budget × Stream B E}
  {a : Action B E}

/-- One if this is permission to pull without a speculation permit. -/
def Credit.unbacked : Credit → ℕ
  | .demanded => 1
  | .speculative => 0

def Round.unbacked (r : Round) : ℕ :=
  match r.drain with
  | .call => 1 - r.permits
  | _ => 0

/-- Pulls about to start without a speculation permit. -/
def Stream.unbacked (s : Stream B E) : ℕ :=
  s.coord.tally Credit.unbacked Credit.unbacked + s.host.tally Credit.unbacked Round.unbacked

/-- A pull of the round in progress started with no request for it. -/
def Stream.unasked (s : Stream B E) : Bool :=
  match s.host.round with
  | some r => r.unasked && r.drain.report.isNone
  | none => false

/-- Every round in which a pull started unasked holds a speculation permit. -/
def Backed (s : Stream B E) : Prop :=
  ∀ r, s.host.round = some r → r.unasked = true → r.drain.report = none → 0 < r.permits

/-- A demand permit is redeemed only while fewer pulls have started than items were requested,
unless the round that redeems it holds a speculation permit. -/
def Fresh (s : Stream B E) : Action B E → Prop
  | .coordinator _ => s.coord = .tryAcquire ∨ s.coord = .acquire → 0 < s.demand →
      s.pulls < s.requests
  | .host => ∀ r ∈ s.host.round, r.drain = .reserved → 0 < s.demand →
      s.pulls < s.requests ∨ 0 < r.permits
  | _ => True

instance : (a : Action B E) → Decidable (Fresh s a)
  | .coordinator _ => inferInstanceAs (Decidable (_ → _ → _))
  | .host => inferInstanceAs (Decidable (∀ r ∈ s.host.round, _))
  | .pollNext | .receive | .pending | .endOfStream | .propagatePanic | .dropReceiver | .dropTasks
  | .abort | .answer _ | .dispose => .isTrue trivial

structure Covered (s : Stream B E) : Prop where
  asked : 0 < s.unbacked → s.pulls < s.requests
  backed : Backed s

theorem Round.unbacked_begin (credit : Credit) : (Round.begin credit).unbacked = credit.unbacked := by
  cases credit <;> rfl

theorem Host.setRound_round (h : host.round = some r) : (host.setRound r').round = some r' := by
  cases host with
  | unmade => cases h
  | affine => rfl
  | pool => rfl

theorem Idle.round (h : Idle host home) : host.round = none := by
  cases h <;> rfl

/-- While a round is in progress, nothing else of the stream is on its way to a pull. -/
theorem ShapeAt.tally_round {live : Bool} (hs : ShapeAt live host home v coord)
    (hr : host.round = some r) (reserve job : Credit → ℕ) (round : Round → ℕ) :
    coord.tally reserve job = 0 ∧ host.tally job round = round r := by
  have hbusy (hb : Busy host home v) : host.tally job round = round r := by
    cases hb with
    | draining => cases hr; simp [Host.tally]
    | pooled => cases hr; rfl
    | _ => cases hr
  have horphan (ho : Orphan host home v) : host.tally job round = round r := by
    cases ho with
    | draining => cases hr; simp [Host.tally]
    | pooled => cases hr; rfl
    | _ => cases hr
  cases coord with
  | awaitRound =>
    rcases hs with hs | ⟨report, hs, -⟩
    · exact ⟨rfl, hbusy hs⟩
    · cases hs <;> cases hr
  | finished | panicked | aborted => exact ⟨rfl, horphan hs.1⟩
  | spawned | spawning | sendInit => obtain ⟨rfl, -⟩ := hs; cases hr
  | _ =>
    have hnone : none = some r := hs.1.round.symm.trans hr
    cases hnone

theorem Shaped.unbacked_round (hs : Shaped c s) (hr : s.host.round = some r) :
    s.unbacked = r.unbacked := by
  obtain ⟨hcoord, hhost⟩ := hs.at_coord.tally_round hr Credit.unbacked Credit.unbacked Round.unbacked
  simp [Stream.unbacked, hcoord, hhost]

/-- A step of `drain_batches` that redeems no stale permit keeps its pulls asked for or backed. -/
theorem drainBatches_covered (h : drainBatches c b s r = some (b', s', r'))
    (hf : r.drain = .reserved → 0 < s.demand → s.pulls < s.requests ∨ 0 < r.permits)
    (hasked : 0 < r.unbacked → s.pulls < s.requests)
    (hbacked : r.unasked = true → r.drain.report = none → 0 < r.permits) :
    (0 < r'.unbacked → s'.pulls < s'.requests) ∧
      (r'.unasked = true → r'.drain.report = none → 0 < r'.permits) := by
  revert h
  fun_cases drainBatches c b s r with
  | case1 hd =>
    intro h
    cases h
    refine ⟨?_, ?_⟩
    · intro hu
      simp [Round.unbacked] at hu
    intro hu _
    by_contra hp
    have hp' : r.permits = 0 := Nat.eq_zero_of_not_pos hp
    have hlt := hasked (by simp [Round.unbacked, hd, hp'])
    have hle : ¬s.requests ≤ s.pulls := by omega
    simp only [hle, decide_false, Bool.or_false] at hu
    exact hp (hbacked hu (by rw [hd]; rfl))
  | case2 hd _ | case5 hd _ =>
    intro h
    cases h
    refine ⟨?_, ?_⟩
    · intro hu
      simp [Round.unbacked] at hu
    · intro hu _
      exact hbacked hu (by rw [hd]; rfl)
  | case3 | case7 =>
    intro h
    cases h
    refine ⟨?_, ?_⟩
    · intro hu
      simp [Round.unbacked] at hu
    · intro _ hn
      simp [Drain.report] at hn
  | case4 hd hp =>
    intro h
    cases h
    refine ⟨?_, fun hu _ => hbacked hu (by rw [hd]; rfl)⟩
    intro hu
    rcases hf hd hp with hlt | hpermits
    · exact hlt
    · have hzero : 1 - r.permits = 0 := by omega
      simp only [Round.unbacked, Round.permits] at hu hzero
      omega
  | case6 hd b₁ ht =>
    intro h
    cases h
    have hpos : 0 < (⟨.call, r.credit, r.credits + 1, r.unasked⟩ : Round).permits := by
      simp only [Round.permits]
      omega
    refine ⟨?_, fun _ _ => hpos⟩
    intro hu
    simp only [Round.unbacked] at hu
    omega
  | case8 | case9 | case10 =>
    intro h
    cases h

/-- No step of the coordinator moves a credit but to take one or to hand it over. -/
theorem CoordStep.covered {spawns : Bool} (h : CoordStep c p q)
    (hf : Fresh p.2 (.coordinator spawns)) (hI : Covered p.2) : Covered q.2 := by
  refine ⟨?_, fun r hr => hI.backed r (h.round_eq hr)⟩
  have hasked := hI.asked
  cases h with
  | grant hc hd => exact fun _ => hf hc hd
  | permit hc | noDemand hc | noBudget hc | reserve hc | closed hc | speculate hc =>
    simp_all [Stream.unbacked, Stream.finish, Stream.dropHost, Coord.tally, Credit.unbacked]
  | noPermit hc hh | spawn hc hh | spawnFails hc hh | sendInit hc hh | dispatchPool hc hh =>
    simp_all [Stream.unbacked, Coord.tally, Host.tally, PullMessage.tally]
  | @dispatch _ _ _ thread _ _ hc hh =>
    cases thread <;> simp_all [Stream.unbacked, Coord.tally, Host.tally, PullMessage.tally] <;> omega
  | @collect _ _ report hc hr =>
    have ht := hr.tally
    rcases report with ⟨_ | _⟩ | payload <;>
      simp [afterRound, Stream.unbacked, Stream.finish, Stream.dropHost, Coord.tally, ht]

theorem AbortStep.covered (h : AbortStep p q) (hI : Covered p.2) : Covered q.2 := by
  refine ⟨?_, fun r hr => hI.backed r (h.round_eq hr)⟩
  have hasked := hI.asked
  cases h with
  | spawned hc hh | output hc hh | crashed hc hh =>
    simp [Stream.unbacked, Stream.dropPull, Coord.tally, Host.tally, hh]
  | acquire hc | round hc | reserve hc =>
    simp_all [Stream.unbacked, Stream.finish, Stream.dropHost, Coord.tally]

theorem Covered.of_round_none (hr : host.round = none) (hh : s.host = host)
    (hu : 0 < s.unbacked → s.pulls < s.requests) : Covered s := by
  refine ⟨hu, ?_⟩
  intro r hr'
  simp [hh, hr] at hr'

theorem HostStep.covered (hs : Shaped c p.2) (hs' : Shaped c q.2) (h : HostStep c p q)
    (hf : Fresh p.2 .host) (hI : Covered p.2) : Covered q.2 := by
  have hasked := hI.asked
  cases h with
  | recvInit hh | hangUp hh | leave hh | exit hh =>
    refine .of_round_none rfl rfl ?_
    simpa [Stream.unbacked, Stream.dropPull, Host.tally, PullMessage.tally, hh] using hasked
  | @announce _ _ _ report hh =>
    refine .of_round_none (by cases hl : report.last <;> rfl) rfl ?_
    cases hl : report.last <;> simpa [Stream.unbacked, Host.tally, hh, hl] using hasked
  | recvJob hh | start hh =>
    refine ⟨?_, ?_⟩
    · simpa [Stream.unbacked, Host.tally, PullMessage.tally, Round.unbacked_begin, hh] using hasked
    · intro r hr
      cases hr
      intro hu
      simp [Round.begin] at hu
  | @drain b b' s s' r r' hh hd =>
    have hround : (s.host.setRound r').round = some r' := Host.setRound_round hh
    have hcov := drainBatches_covered hd (hf r hh) (by rwa [hs.unbacked_round hh] at hasked)
      (hI.backed r hh)
    refine ⟨?_, ?_⟩
    · rw [hs'.unbacked_round hround]
      exact hcov.1
    · intro r₁ hr₁
      obtain rfl := Host.round_setRound hr₁
      exact hcov.2
  | report hh hr | complete hh hr | discard hh hr =>
    refine .of_round_none rfl rfl ?_
    intro hu
    apply hasked
    simp_all [Stream.unbacked, Stream.dropPull, Host.tally]
  | @crash b s r payload hh hr =>
    cases hc : s.coord.over <;>
    · refine .of_round_none rfl rfl ?_
      intro hu
      apply hasked
      simp_all [Stream.unbacked, Stream.dropPull, Host.tally]

/-- The answer of a pull leaves its round without a call to make. -/
theorem pullReturned_covered (c : Config B E) (b : Budget) (s : Stream B E) (r : Round)
    (o : Outcome B E) : (pullReturned c b s r o).2.2.unbacked = 0 ∧
      (pullReturned c b s r o).2.2.unasked = r.unasked ∧
      ((pullReturned c b s r o).2.2.drain.report = none →
        (pullReturned c b s r o).2.2.permits = r.permits) := by
  cases o with
  | batch batch =>
    cases h : c.check batch <;> simp [pullReturned, h, Round.unbacked, Round.permits, Drain.report]
  | error | done | panic => simp [pullReturned, Round.unbacked, Drain.report]

theorem Step.covered (hs : Shaped c p.2) (hs' : Shaped c q.2) (h : Step c p a q)
    (hf : Fresh p.2 a) (hI : Covered p.2) : Covered q.2 := by
  cases h with
  | coordinator h => exact h.covered hf hI
  | abort _ h => exact h.covered hI
  | host h => exact h.covered hs hs' hf hI
  | @answer b s r o hh hr =>
    obtain ⟨hnone, hunasked, hpermits⟩ := pullReturned_covered c b s r o
    refine ⟨?_, ?_⟩
    · rw [hs'.unbacked_round (Host.setRound_round hh), hnone]
      nofun
    · intro r₁ hr₁
      obtain rfl := Host.round_setRound hr₁
      intro hu hrep
      rw [hpermits hrep]
      exact hI.backed r hh (by rw [← hunasked]; exact hu) (by rw [hr]; rfl)
  | @pollNext b s =>
    have hle : s.requests ≤ s.pollNext.requests := by
      cases hr : s.requested <;> simp [Stream.pollNext, hr]
    rw [Stream.pollNext_frame]
    exact ⟨fun hu => Nat.lt_of_lt_of_le (hI.asked hu) hle, hI.backed⟩
  | _ => exact ⟨hI.asked, hI.backed⟩

theorem reachable_covered
    (h : ((component c).restrict fun p a => Fresh p.2 a).alone.Reachable p) : Covered p.2 := by
  have hI : Shaped c p.2 ∧ Covered p.2 := by
    refine Component.alone_invariant (I := fun s => Shaped c s ∧ Covered s) ?_ ?_ h
    · rintro s rfl
      exact ⟨shaped_initial, nofun, nofun⟩
    · rintro p a q ⟨hs, hf⟩ hI
      obtain ⟨hstep, hq⟩ := step_cases hI.1 hs
      exact ⟨hq, hstep.covered hI.1 hq hf hI.2⟩
  exact hI.2

theorem Host.le_tally (h : host.round = some r) (job : Credit → ℕ) (round : Round → ℕ) :
    round r ≤ host.tally job round := by
  rcases Host.round_eq_some_iff.mp h with ⟨mailbox, done, rfl⟩ | rfl
  · exact Nat.le_add_left _ _
  · exact Nat.le_refl _

theorem Backed.permits (h : Backed s) (hu : s.unasked = true) : 0 < s.permits := by
  unfold Stream.unasked at hu
  split at hu
  · rename_i r hr
    simp only [Bool.and_eq_true, Option.isNone_iff_eq_none] at hu
    have hpos := h r hr hu.1 hu.2
    have hle := Host.le_tally hr Credit.permits Round.permits
    simp only [Stream.permits]
    omega
  · cases hu

section Process

variable {ι : Type} [DecidableEq ι] [Fintype ι] {c : ι → Config B E}
  {p₀ p : Budget × (ι → Stream B E)} {xs : List ((Budget × (ι → Stream B E)) × (ι × Action B E))}

/-- The process never hands out more speculation permits than it started with. -/
theorem process_permits (h : (process c).Reachable p) :
    p.1.speculation + ∑ i, (p.2 i).permits = speculationBudget := by
  refine family_conserved Budget.speculation Stream.permits ?_ ?_ h
  · rintro i s rfl
    rfl
  · intro i p a q hp hs
    exact permits_step hp hs

/-- As long as no stale demand permit is redeemed, every pull nobody asked for is paid for, and
with it the number of streams that can be stuck in one. -/
theorem unasked_pulls_hold_permits (h₀ : (process c).start p₀) (h : (process c).Run p₀ xs p)
    (hf : ∀ x ∈ xs, Fresh (x.1.2 x.2.1) x.2.2) :
    (∀ i, Backed (p.2 i)) ∧
      (Finset.univ.filter fun i => (p.2 i).unasked = true).card ≤ speculationBudget := by
  have hbacked (i : ι) : Backed (p.2 i) := by
    have hr := family_run_restrict_iff (P := fun p a => Fresh p.2 a) |>.mpr ⟨h, hf⟩
    have hp : (family (fun i => (component (c i)).restrict fun p a => Fresh p.2 a)
        Budget.initial).Reachable p := ⟨p₀, xs, h₀, hr⟩
    exact (reachable_covered (family_reachable_alone hp i)).backed
  refine ⟨hbacked, ?_⟩
  have hholders := card_holders_le Stream.permits (f := p.2)
    (Q := fun i => (p.2 i).unasked = true) fun i hu => (hbacked i).permits hu
  have htotal := process_permits ⟨p₀, xs, h₀, h⟩
  omega

end Process

def bufferedIds : Config (RecordBatch String ℤ) DataFusionError :=
  ⟨checkBatchSchema idSchema, .buffered⟩

/-- The consumer's first request is served, and the round reads on with a permit of its own. -/
theorem unasked_pulls_hold_permits_readAhead :
    ∃ p, (process fun _ : Unit => bufferedIds).Reachable p ∧ (p.2 ()).unasked = true ∧
      ∀ i, Backed (p.2 i) := by
  obtain ⟨q, hrun, hu⟩ : ∃ q, System.replay
      (Component.guarded (fun p a => Fresh p.2 a) (step bufferedIds))
      [.pollNext, .coordinator true, .coordinator false, .coordinator true, .coordinator true,
        .coordinator true, .host, .host, .answer (.batch (idBatch [])), .host, .host, .host, .host]
      (Budget.initial, {}) = some q ∧ q.2.unasked = true := ⟨_, rfl, rfl⟩
  have hstep := Component.guarded_step (C := component bufferedIds) (P := fun p a => Fresh p.2 a)
    fun _ _ _ hs => hs
  let fresh : Component Budget (Stream _ _) (Action _ _) :=
    (component bufferedIds).restrict fun p a => Fresh p.2 a
  obtain ⟨xs, hr⟩ : ∃ xs, (family (fun _ : Unit => fresh) Budget.initial).Run
      (Budget.initial, fun _ => {}) xs (q.1, Function.update (fun _ => {}) () q.2) :=
    family_replay (C := fun _ => fresh) (fun _ => {}) () hstep hrun
  obtain ⟨h, hfresh⟩ := family_run_restrict_iff.mp hr
  have h₀ : (process fun _ : Unit => bufferedIds).start (Budget.initial, fun _ => {}) :=
    ⟨rfl, fun _ => rfl⟩
  exact ⟨_, ⟨_, xs, h₀, h⟩, by simpa using hu, (unasked_pulls_hold_permits h₀ h hfresh).1⟩

/-- One batch of a round that then draws a speculation permit for the next pull. -/
def speculativeBatch : List (Action (RecordBatch String ℤ) DataFusionError) :=
  [.host, .answer (.batch (idBatch [])), .host, .host, .host]

/-- A buffered stream fills its channel unasked. The consumer then takes the first item, and the
permit it left pays for one more pull, though seven items are waiting. -/
def staleDemandRun : List (Action (RecordBatch String ℤ) DataFusionError) :=
  [.coordinator true, .coordinator false, .coordinator true, .coordinator true, .coordinator true,
    .coordinator true, .host] ++
  (List.replicate 7 speculativeBatch).flatten ++
  [.host, .answer (.batch (idBatch [])), .host, .host, .coordinator true, .pollNext, .receive,
    .coordinator true, .coordinator true, .coordinator true, .host, .host]

theorem replay_staleDemandRun :
    ∃ s, System.replay (step bufferedIds) staleDemandRun (Budget.initial, {}) =
      some (Budget.initial, s) ∧ s.host.round = some ⟨.inPull, .demanded, 0, true⟩ :=
  ⟨_, rfl, rfl⟩

/-- Any number of streams can be stuck in a pull that nobody asked for and no permit pays for. -/
theorem stale_demand_reachable (ι : Type) [DecidableEq ι] [Fintype ι] :
    ∃ s, s.host.round = some ⟨.inPull, .demanded, 0, true⟩ ∧
      (process fun _ : ι => bufferedIds).Reachable (Budget.initial, fun _ => s) := by
  obtain ⟨s, hrun, hs⟩ := replay_staleDemandRun
  have h₀ : (component bufferedIds).start {} := rfl
  exact ⟨s, hs, family_replay_all (fun _ _ _ h => h) h₀ hrun⟩

/-- One stream more than there are permits, each stuck in such a pull. -/
theorem unasked_pulls_exceed_budget :
    ∃ p, (process fun _ : Fin (speculationBudget + 1) => bufferedIds).Reachable p ∧
      (∀ i, ¬Backed (p.2 i)) ∧
      speculationBudget < (Finset.univ.filter fun i => (p.2 i).unasked = true).card := by
  obtain ⟨s, hs, hp⟩ := stale_demand_reachable (Fin (speculationBudget + 1))
  refine ⟨_, hp, fun i hb => absurd (hb _ hs rfl rfl) (by decide), ?_⟩
  have hu : s.unasked = true := by simp [Stream.unasked, hs, Drain.report]
  simp [hu]

end XorqDatafusion.Bridge
