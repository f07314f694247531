import XorqDatafusion.Bridge.Contract
import XorqDatafusion.Bridge.Disposal

/-! The dedicated pull threads: each is paid for, and none is left waiting. -/
namespace XorqDatafusion.Bridge

open Transition

variable {B E : Type} {c : Config B E} {b b' : Budget} {s s' : Stream B E} {r r' : Round}
  {host : Host} {home : Home} {v : Verdict} {report : Report} {p q : Budget × Stream B E}
  {a : Action B E}

/-- The dedicated threads of a host that have not exited. -/
def Host.threads : Host → ℕ
  | .affine .exited _ _ => 0
  | .affine _ _ _ => 1
  | _ => 0

/-- The pull threads of a stream, with the one that is being started. -/
def Stream.threads (s : Stream B E) : ℕ :=
  (if s.coord = .spawning then 1 else 0) + s.host.threads

/-- The stream has a pull thread, and it is not executing a pull. -/
def Stream.Lingers (s : Stream B E) : Prop :=
  s.host.threads = 1 ∧ ∀ r, s.host.round = some r → r.drain ≠ .inPull

/-- How far a drain round is from its end, once the receiver is gone. -/
def Drain.rank : Drain → ℕ
  | .returned _ | .panicked _ => 5
  | .sent => 6
  | .inPull => 7
  | .call => 8
  | .noDemand => 9
  | .reserved => 10

def Thread.rank : Thread → ℕ
  | .exited => 0
  | .exiting => 1
  | .leaving => 2
  | .recvInit | .recvJob => 3
  | .reporting _ => 4
  | .draining r => r.drain.rank

def Task.rank : Task → ℕ
  | .absent | .finished _ => 0
  | .draining r => r.drain.rank
  | .queued _ => 9

/-- How far a host is from its end, if nothing more is handed to it. -/
def Host.rank : Host → ℕ
  | .unmade => 0
  | .affine thread mailbox _ => thread.rank + 8 * mailbox.length
  | .pool task => task.rank

/-- How far a coordinator is from its end, with all that it may still hand to its host. -/
def Coord.rank : Coord → ℕ
  | .finished | .panicked _ | .aborted => 0
  | .reserve _ => 1
  | .acquire => 2
  | .trySpeculate => 3
  | .tryAcquire => 4
  | .awaitRound => 5
  | .sendInit => 13
  | .dispatch _ => 15
  | .spawning => 17
  | .spawned => 18

def Stream.rank (s : Stream B E) : ℕ := s.coord.rank + s.host.rank

/-- The steps of the coordinator, its abort, the host and the pull. -/
def Action.works : Action B E → Bool
  | .coordinator _ | .abort | .host | .answer _ => true
  | _ => false

/-- The stream was dropped, or its coordinator has ended. -/
def Stream.Over (s : Stream B E) : Prop := s.live = false ∨ s.coord.over = true

/-- The stream was dropped, or its source has ended. -/
def Stream.Closing (c : Config B E) (s : Stream B E) : Prop :=
  s.live = false ∨ verdict c.check s.answers ≠ .going

theorem trySpeculate_affine {readAhead : ReadAhead} (h : trySpeculate b readAhead = some b') :
    b'.affine = b.affine := by
  cases readAhead with
  | onDemand => cases h
  | buffered =>
    simp only [trySpeculate] at h
    split at h <;> cases h
    rfl

theorem drainBatches_affine (h : drainBatches c b s r = some (b', s', r')) :
    b'.affine = b.affine := by
  revert h
  fun_cases drainBatches c b s r with
  | case6 hd b₁ ht =>
    intro h
    cases h
    exact trySpeculate_affine ht
  | _ => intro h; cases h <;> rfl

theorem pullReturned_affine (c : Config B E) (b : Budget) (s : Stream B E) (r : Round)
    (o : Outcome B E) : (pullReturned c b s r o).1.affine = b.affine := by
  cases o with
  | batch batch => cases h : c.check batch <;> simp [pullReturned, h, Budget.release]
  | error | done | panic => rfl

theorem Host.threads_setRound (h : host.round = some r) : (host.setRound r').threads = host.threads := by
  rcases Host.round_eq_some_iff.mp h with ⟨mailbox, done, rfl⟩ | rfl <;> rfl

theorem Host.threads_collect (host : Host) : host.collect.threads = host.threads := by
  cases host with
  | pool task => cases task <;> rfl
  | _ => rfl

theorem CoordStep.threads (h : CoordStep c p q) :
    q.1.affine + q.2.threads = p.1.affine + p.2.threads := by
  cases h with
  | noPermit hc hh | spawn hc hh | sendInit hc hh | dispatchPool hc hh =>
    simp [Stream.threads, Host.threads, hc, hh]
  | permit hc hh hb =>
    simp [Stream.threads, Host.threads, hc, hh]
    omega
  | spawnFails hc hh => simp [Stream.threads, Host.threads, hc, hh]
  | grant hc => rcases hc with hc | hc <;> simp [Stream.threads, hc]
  | speculate hc ht => simp [Stream.threads, hc, trySpeculate_affine ht]
  | noDemand hc | noBudget hc | reserve hc | closed hc =>
    simp [Stream.threads, Stream.finish, Stream.dropHost, Budget.release, hc]
  | @dispatch _ _ _ thread _ _ hc hh =>
    cases thread <;> simp [Stream.threads, Host.threads, hc, hh]
  | @collect b s report hc hr =>
    rcases report with ⟨_ | _⟩ | payload <;>
      simp [afterRound, Stream.threads, Stream.finish, Stream.dropHost, Host.threads_collect, hc]

theorem AbortStep.threads (h : AbortStep p q) :
    q.1.affine + q.2.threads = p.1.affine + p.2.threads := by
  cases h with
  | spawned hc hh | output hc hh | crashed hc hh =>
    simp [Stream.threads, Stream.dropPull, Host.threads, hc, hh]
  | acquire hc | reserve hc | round hc =>
    simp [Stream.threads, Stream.finish, Stream.dropHost, Budget.release, hc]

theorem HostStep.threads (h : HostStep c p q) :
    q.1.affine + q.2.threads = p.1.affine + p.2.threads := by
  cases h with
  | recvInit hh | recvJob hh | hangUp hh | leave hh | start hh =>
    simp [Stream.threads, Stream.dropPull, Host.threads, hh]
  | exit hh =>
    simp [Stream.threads, Host.threads, hh]
    omega
  | @announce _ _ _ report hh =>
    cases hl : report.last <;> simp [Stream.threads, Host.threads, hh]
  | @drain b b' s s' r r' hh hd =>
    have hcoord : s'.coord = s.coord := by rw [(drainBatches_frame hd).1]
    simp [Stream.threads, Host.threads_setRound hh, hcoord, drainBatches_affine hd]
  | report hh hr | complete hh hr | discard hh hr =>
    simp [Stream.threads, Stream.dropPull, Host.threads, Budget.release, hh]
  | @crash b s r payload hh hr =>
    cases hc : s.coord.over <;>
      simp [Stream.threads, Stream.dropPull, Host.threads, Budget.release, hh]

/-- A thread permit is taken when a thread is about to be started, and given back when it exits or
could not be started. -/
theorem Step.threads (h : Step c p a q) :
    q.1.affine + q.2.threads = p.1.affine + p.2.threads := by
  cases h with
  | coordinator h => exact h.threads
  | abort _ h => exact h.threads
  | host h => exact h.threads
  | @answer b s r o hh hr =>
    have hcoord : (pullReturned c b s r o).2.1.coord = s.coord := by rw [pullReturned_frame]
    simp [Stream.threads, Host.threads_setRound hh, hcoord, pullReturned_affine]
  | pollNext => rw [Stream.pollNext_frame]; rfl
  | _ => rfl

/-- The end of a stream, however it comes about, is for good. -/
theorem Step.over (hs : Settled p.2.host) (h : Step c p a q) (ho : p.2.Over) : q.2.Over := by
  rcases ho with hl | hc
  · exact .inl (h.live_eq_false hl)
  · by_cases hq : q.2.coord.over = true
    · exact .inr hq
    · have halive := (h.counts hs).alive (by simpa using hq)
      simp [hc] at halive

theorem drainBatches_rank (h : drainBatches c b s r = some (b', s', r')) (hl : s.live = false) :
    r'.drain.rank < r.drain.rank := by
  revert h
  fun_cases drainBatches c b s r with
  | case2 hd hlive => simp [hl] at hlive
  | case8 | case9 | case10 => intro h; cases h
  | _ hd =>
    intro h
    cases h
    simp [hd, Drain.rank]

theorem pullReturned_rank (c : Config B E) (b : Budget) (s : Stream B E) (r : Round)
    (o : Outcome B E) : (pullReturned c b s r o).2.2.drain.rank < Drain.inPull.rank := by
  cases o with
  | batch batch => cases h : c.check batch <;> simp [pullReturned, h, Drain.rank]
  | error | done | panic => simp [pullReturned, Drain.rank]

theorem Drain.rank_of_report {d : Drain} (h : d.report = some report) : d.rank = 5 := by
  cases d <;> first | rfl | cases h

theorem Host.rank_setRound (h : host.round = some r) (r' : Round) :
    (host.setRound r').rank + r.drain.rank = host.rank + r'.drain.rank := by
  rcases Host.round_eq_some_iff.mp h with ⟨mailbox, done, rfl⟩ | rfl
  · simp only [Host.setRound, Host.rank, Thread.rank]
    omega
  · simp only [Host.setRound, Host.rank, Task.rank]
    omega

theorem Host.rank_collect (host : Host) : host.collect.rank = host.rank := by
  cases host with
  | pool task => cases task <;> rfl
  | _ => rfl

theorem Shaped.closing (hs : Shaped c s) (ho : s.Over) : s.Closing c := by
  rcases ho with hl | hc
  · exact .inl hl
  · by_contra hn
    obtain ⟨hl, hv⟩ := not_or.mp hn
    simp [hs.not_over (by simpa using hl) (not_not.mp hv)] at hc

/-- A round of a stream that is closing goes on only when its receiver is gone. -/
theorem Shaped.live_of_round (hs : Shaped c s) (ho : s.Closing c) (hr : s.host.round = some r)
    (hg : r.drain.verdict = .going) : s.live = false := by
  rcases ho with hl | hv
  · exact hl
  · exact absurd (hs.at_coord.setRound hr hg).1 hv

theorem Shaped.live_of_reserve {credit : Credit} (hs : Shaped c s) (ho : s.Closing c)
    (hc : s.coord = .reserve credit) : s.live = false := by
  rcases ho with hl | hv
  · exact hl
  · have hat := hs.at_coord
    rw [hc] at hat
    exact absurd hat.2 hv

theorem CoordStep.rank (hs : Shaped c p.2) (h : CoordStep c p q) (ho : p.2.Closing c) :
    q.2.rank < p.2.rank := by
  cases h with
  | reserve hc hl => cases hl.symm.trans (hs.live_of_reserve ho hc)
  | grant hc => rcases hc with hc | hc <;> simp [Stream.rank, Coord.rank, hc]
  | speculate hc | noDemand hc | noBudget hc | closed hc | permit hc =>
    simp [Stream.rank, Stream.finish, Stream.dropHost, Coord.rank, hc]
  | noPermit hc hh | spawn hc hh | spawnFails hc hh | sendInit hc hh | dispatchPool hc hh =>
    simp [Stream.rank, Coord.rank, Host.rank, Thread.rank, Task.rank, hc, hh]
  | dispatch hc hh =>
    simp [Stream.rank, Coord.rank, Host.rank, hc, hh]
    omega
  | @collect b s report hc hr =>
    rcases report with ⟨_ | _⟩ | payload <;>
      simp [afterRound, Stream.rank, Stream.finish, Stream.dropHost, Coord.rank,
        Host.rank_collect, hc]

theorem AbortStep.rank (h : AbortStep p q) : q.2.rank < p.2.rank := by
  cases h with
  | spawned hc hh | output hc hh | crashed hc hh =>
    simp [Stream.rank, Stream.dropPull, Coord.rank, Host.rank, Task.rank, hc, hh]
  | acquire hc | reserve hc | round hc =>
    simp [Stream.rank, Stream.finish, Stream.dropHost, Coord.rank, hc]

theorem HostStep.rank (hs : Shaped c p.2) (h : HostStep c p q) (ho : p.2.Closing c) :
    q.2.rank < p.2.rank := by
  cases h with
  | recvInit hh | recvJob hh | hangUp hh | leave hh | exit hh | start hh =>
    simp [Stream.rank, Stream.dropPull, Host.rank, Thread.rank, Task.rank, Drain.rank, Round.begin, hh]
  | @announce _ _ _ report hh =>
    cases hl : report.last <;> simp [Stream.rank, Host.rank, Thread.rank, hh]
  | @drain b b' s s' r r' hh hd =>
    obtain ⟨hf, hgoing, -⟩ := drainBatches_frame hd
    have hlt := drainBatches_rank hd (hs.live_of_round ho hh hgoing)
    have hcoord : s'.coord = s.coord := by rw [hf]
    have hsum := Host.rank_setRound hh r'
    simp only [Stream.rank, hcoord]
    omega
  | report hh hr | complete hh hr | discard hh hr =>
    simp [Stream.rank, Stream.dropPull, Host.rank, Thread.rank, Task.rank, Drain.rank_of_report hr, hh]
  | @crash b s r payload hh hr =>
    cases hc : s.coord.over <;>
      simp [Stream.rank, Stream.dropPull, Host.rank, Task.rank, Drain.rank_of_report hr, hh]

/-- Once a stream is closing, every step but the consumer's brings its coordinator and its thread
closer to their end. -/
theorem Step.rank (hs : Shaped c p.2) (h : Step c p a q) (ho : p.2.Closing c) :
    q.2.rank + a.works.toNat ≤ p.2.rank := by
  cases h with
  | coordinator h => exact h.rank hs ho
  | abort _ h => exact h.rank
  | host h => exact h.rank hs ho
  | @answer b s r o hh hr =>
    have hcoord : (pullReturned c b s r o).2.1.coord = s.coord := by rw [pullReturned_frame]
    have hlt := pullReturned_rank c b s r o
    have hsum := Host.rank_setRound hh (pullReturned c b s r o).2.2
    rw [hr] at hsum
    simp only [Stream.rank, Action.works, hcoord, Bool.toNat_true]
    omega
  | pollNext => rw [Stream.pollNext_frame]; exact Nat.le_refl _
  | _ => exact Nat.le_refl _

/-- A thread without a coordinator always finds something to do: its job sender is gone. -/
theorem Shaped.host_enabled (hs : Shaped c s) (b : Budget) (hc : s.coord.over = true)
    (hl : s.Lingers) : ∃ q, step c .host (b, s) = some q := by
  have ho : Orphan s.host s.home (verdict c.check s.answers) := by
    have hat := hs.at_coord
    cases hcoord : s.coord with
    | finished | panicked | aborted =>
      rw [hcoord] at hat
      exact hat.1
    | _ => simp [hcoord, Coord.over] at hc
  obtain ⟨hthread, hround⟩ := hl
  have hstep := fun r hr => hostStep_round_ne_none (c := c) (b := b) hr (hround r hr)
  apply Option.ne_none_iff_exists'.mp
  simp only [step]
  generalize hhost : s.host = host at ho hthread hstep
  generalize s.home = home at ho
  generalize verdict c.check s.answers = v at ho
  cases ho with
  | unmade | exited | disposing | disposed | queued | pooled => cases hthread
  | draining r => exact hstep r rfl
  | _ => simp [hostStep, hhost, runAffinePull, hc]

/-- The coordinator of a dropped stream is always stopped by its abort, or on its way to where it
can be. -/
theorem Shaped.coordinator_enabled (hs : Shaped c s) (b : Budget) (hc : s.coord.over = false)
    (ha : s.aborting = true) : ∃ a q, a.works = true ∧ step c a (b, s) = some q := by
  have hat := hs.at_coord
  cases hcoord : s.coord with
  | spawned | acquire | reserve =>
    refine ⟨.abort, ?_⟩
    simp [step, abort, ha, hcoord, Action.works]
  | awaitRound =>
    refine ⟨.abort, ?_⟩
    simp only [step, abort, ha, hcoord, if_true]
    split <;> simp [Action.works]
  | spawning =>
    refine ⟨.coordinator true, ?_⟩
    simp [step, coordinator, hcoord, Action.works]
  | sendInit =>
    rw [hcoord] at hat
    refine ⟨.coordinator true, ?_⟩
    simp [step, coordinator, hcoord, hat.1, Action.works]
  | tryAcquire =>
    refine ⟨.coordinator true, ?_⟩
    by_cases hd : 0 < s.demand <;> simp [step, coordinator, hcoord, hd, Action.works]
  | trySpeculate =>
    refine ⟨.coordinator true, ?_⟩
    cases ht : trySpeculate b c.readAhead <;> simp [step, coordinator, hcoord, ht, Action.works]
  | dispatch credit =>
    rw [hcoord] at hat
    have hi := hat.1
    refine ⟨.coordinator true, ?_⟩
    simp only [step, coordinator, hcoord]
    generalize hhost : s.host = host at hi
    generalize hhome : s.home = home at hi
    cases hi <;> simp [startRound, hhost, hhome, Action.works]
  | finished | panicked | aborted => simp [hcoord, Coord.over] at hc

section Process

variable {ι : Type} [DecidableEq ι] [Fintype ι] {c : ι → Config B E}
  {p q : Budget × (ι → Stream B E)} {xs : List ((Budget × (ι → Stream B E)) × (ι × Action B E))}

theorem process_threads (h : (process c).Reachable p) :
    p.1.affine + ∑ i, (p.2 i).threads = affineThreadBudget := by
  refine family_conserved Budget.affine Stream.threads ?_ ?_ h
  · rintro i s rfl
    rfl
  · intro i p a q hp hs
    exact (reachable_step hp hs).threads

omit [Fintype ι] in
/-- A stream that is over takes only so many more steps, whatever the others do. -/
theorem process_rank (hp : (process c).Reachable p) (h : (process c).Run p xs q) (i : ι)
    (ho : (p.2 i).Over) :
    xs.countP (fun x => decide (x.2.1 = i) && x.2.2.works) + (q.2 i).rank ≤ (p.2 i).rank := by
  refine System.run_measure (m := fun p => (p.2 i).rank) (I := fun p => (p.2 i).Over)
    (w := fun a => decide (a.1 = i) && a.2.works) ?_ hp ho h
  rintro p a q hr ⟨k, s, hs, rfl⟩ ho
  by_cases hi : a.1 = i
  · subst hi
    have hreach := family_reachable_alone hr a.1
    have hstep : Step (c a.1) (p.1, p.2 a.1) a.2 (k, s) := reachable_step hreach hs
    have hover := hstep.over (reachable_accounted hreach).settled ho
    have hs := reachable_shaped hreach
    have hrank := hstep.rank hs (hs.closing ho)
    simpa using ⟨hover, hrank⟩
  · simp [hi, Ne.symm hi, ho]

/-- The thread budget is what is free and what live or starting threads hold, and a thread that is
not in a pull has a coordinator to serve or a step to take. After the end of its stream it has a
step to take in any case, and every such step brings it closer to its exit. -/
theorem pull_threads_accounted (h : (process c).Reachable p) :
    p.1.affine + ∑ i, (p.2 i).threads = affineThreadBudget ∧
    ∀ i,
      ((p.2 i).Lingers →
        ((p.2 i).coord.over = false ∨ ∃ q, (process c).step p (i, .host) q) ∧
        ((p.2 i).aborting = true → ∃ a q, a.works = true ∧ (process c).step p (i, a) q)) ∧
      ((p.2 i).Over → ∀ xs q, (process c).Run p xs q →
        xs.countP (fun x => decide (x.2.1 = i) && x.2.2.works) + (q.2 i).rank ≤ (p.2 i).rank) := by
  refine ⟨process_threads h, fun i => ⟨fun hl => ?_, fun ho xs q hr => process_rank h hr i ho⟩⟩
  have hs : Shaped (c i) (p.2 i) := reachable_shaped (family_reachable_alone h i)
  have hhost (hc : (p.2 i).coord.over = true) : ∃ q, (process c).step p (i, .host) q := by
    obtain ⟨q, hq⟩ := hs.host_enabled p.1 hc hl
    exact ⟨_, q.1, q.2, hq, rfl⟩
  by_cases hc : (p.2 i).coord.over = true
  · obtain ⟨q, hq⟩ := hhost hc
    exact ⟨.inr ⟨q, hq⟩, fun _ => ⟨.host, q, rfl, hq⟩⟩
  · have hc' : (p.2 i).coord.over = false := by simpa using hc
    refine ⟨.inl hc', fun ha => ?_⟩
    obtain ⟨a, q, hw, hq⟩ := hs.coordinator_enabled p.1 hc' ha
    exact ⟨a, _, hw, q.1, q.2, hq, rfl⟩

end Process

/-- The consumer drops the stream while the pull thread is parked in `recv()`. -/
def parkedThreadRun : List (Action (RecordBatch String ℤ) DataFusionError) :=
  [.coordinator true, .coordinator true, .coordinator true, .host, .coordinator true,
    .coordinator true, .dropReceiver, .dropTasks, .abort]

theorem pull_threads_accounted_parked :
    ∃ p q, (process fun _ : Unit => bufferedIds).Reachable p ∧
      p.1.affine + 1 = affineThreadBudget ∧ (p.2 ()).Lingers ∧ (p.2 ()).coord.over = true ∧
      (process fun _ : Unit => bufferedIds).step p ((), .host) q := by
  obtain ⟨b, s, hrun, hthreads, hround, hc, hone⟩ : ∃ b s,
      System.replay (step bufferedIds) parkedThreadRun (.initial, {}) = some (b, s) ∧
      s.host.threads = 1 ∧ s.host.round = none ∧ s.coord.over = true ∧ s.threads = 1 :=
    ⟨_, _, rfl, rfl, rfl, rfl, rfl⟩
  obtain ⟨xs, hr⟩ : ∃ xs, (process fun _ : Unit => bufferedIds).Run
      (.initial, fun _ => {}) xs (b, Function.update (fun _ => {}) () s) :=
    family_replay (C := fun _ => component bufferedIds) (fun _ => {}) () (fun _ _ _ h => h) hrun
  have h₀ : (process fun _ : Unit => bufferedIds).start (.initial, fun _ => {}) :=
    ⟨rfl, fun _ => rfl⟩
  have hall : Function.update (fun _ => {}) () s = fun _ : Unit => s := by
    funext
    simp
  rw [hall] at hr
  have hp : (process fun _ : Unit => bufferedIds).Reachable (b, fun _ => s) := ⟨_, xs, h₀, hr⟩
  have hl : s.Lingers := ⟨hthreads, by simp [hround]⟩
  obtain ⟨hbudget, hserved⟩ := pull_threads_accounted hp
  rcases ((hserved ()).1 hl).1 with hn | ⟨q, hq⟩
  · simp [hc] at hn
  · exact ⟨_, q, hp, by simpa [hone] using hbudget, hl, hc, hq⟩

end XorqDatafusion.Bridge
