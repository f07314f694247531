import XorqDatafusion.Bridge.Liveness

/-! What is left of streams that have ended or were dropped: nothing. -/
namespace XorqDatafusion.Bridge

open Transition

variable {B E : Type} {c : Config B E} {b : Budget} {s : Stream B E} {v : Verdict}
  {p q : Budget × Stream B E} {a : Action B E}

/-- The tasks of the stream were told to end, or its coordinator has ended by itself. -/
def Stream.Ending (s : Stream B E) : Prop := s.aborting = true ∨ s.coord.over = true

theorem Shaped.over_of_ending (hs : Shaped c s) (he : s.Ending) : s.Over := he.imp_left hs.aborting

theorem Step.ending (ha : Accounted c p.2) (h : Step c p a q) (he : p.2.Ending) : q.2.Ending := by
  rcases he with hab | hc
  · refine .inl ?_
    cases h with
    | coordinator h => rw [h.frame]; exact hab
    | abort _ h => rw [h.frame]; exact hab
    | host h => rw [h.frame]; exact hab
    | answer => rw [pullReturned_frame]; exact hab
    | pollNext => rw [Stream.pollNext_frame]; exact hab
    | dropTasks => rfl
    | _ => exact hab
  · refine .inr ?_
    by_contra hq
    have halive := (h.counts ha.settled).alive (by simpa using hq)
    cases hc.symm.trans halive

/-- A host that has let everything go has no steps left. -/
theorem Orphan.rank_of_atRest (ho : Orphan s.host s.home v) (h : AtRest c (b, s)) :
    s.host.rank = 0 := by
  obtain ⟨hover, hanswered, hstep, hdisposed⟩ := h
  have hround := fun r hr => hostStep_round_ne_none (c := c) (b := b) hr (hanswered r hr)
  simp only at hover hstep hround
  generalize hhost : s.host = host at ho hround
  generalize s.home = home at ho
  cases ho with
  | unmade | exited | disposing | disposed => rfl
  | draining r | pooled r => exact absurd hstep (hround r rfl)
  | _ => simp [hostStep, hhost, runAffinePull, poolTask, hover] at hstep

theorem Shaped.orphan (hs : Shaped c s) (hc : s.coord.over = true) :
    Orphan s.host s.home (verdict c.check s.answers) ∧ s.coord.rank = 0 := by
  have hat := hs.at_coord
  cases hcoord : s.coord with
  | finished | panicked | aborted =>
    rw [hcoord] at hat
    exact ⟨hat.1, rfl⟩
  | _ => simp [hcoord, Coord.over] at hc

/-- A stream that is to end has a step to take as long as anything is left of it. -/
theorem Shaped.ending_enabled (hs : Shaped c s) (he : s.Ending) (hn : s.closing ≠ 0) (b : Budget) :
    ∃ a q, a.internal = true ∧ step c a (b, s) = some q := by
  by_cases hc : s.coord.over = true
  · by_contra hno
    have hstuck (a : Action B E) (hi : a.internal = true) : step c a (b, s) = none := by
      by_contra hsome
      obtain ⟨q, hq⟩ := Option.ne_none_iff_exists'.mp hsome
      exact hno ⟨a, q, hi, hq⟩
    have hrest : AtRest c (b, s) := by
      refine ⟨hc, fun r hr hd => ?_, hstuck .host rfl, fun hd => ?_⟩
      · obtain ⟨q, hq⟩ := answer_enabled hr hd c .done b
        exact absurd (hstuck (.answer .done) rfl) (by simp [step, hq])
      · have hdispose := hstuck .dispose rfl
        simp [step, show s.home = .disposing from hd] at hdispose
    obtain ⟨ho, hcoord⟩ := hs.orphan hc
    have hhome := hs.dropped_of_atRest hrest
    have hhost := ho.rank_of_atRest hrest
    exact hn (by simp [Stream.closing, Stream.rank, hcoord, hhost, hhome])
  · have hab : s.aborting = true := he.resolve_right hc
    obtain ⟨a, q, hw, hq⟩ := hs.coordinator_enabled b (by simpa using hc) hab
    refine ⟨a, q, ?_, hq⟩
    cases a <;> first | rfl | cases hw

theorem Drain.rank_pos (d : Drain) : 0 < d.rank := by
  cases d <;> simp [Drain.rank]

theorem Orphan.nothing_left {host : Host} {home : Home} (ho : Orphan host home v)
    (h : host.rank = 0) (job : Credit → ℕ) (round : Round → ℕ) :
    host.threads = 0 ∧ host.tally job round = 0 := by
  cases ho with
  | unmade | exited | disposing | disposed => exact ⟨rfl, rfl⟩
  | draining r | pooled r =>
    have := r.drain.rank_pos
    simp [Host.rank, Thread.rank, Task.rank] at h
    omega
  | _ => simp [Host.rank, Thread.rank, Task.rank] at h

/-- A stream without steps left holds nothing. -/
theorem Shaped.settled (hs : Shaped c s) (hc : s.coord.over = true) (h : s.closing = 0) :
    s.home = .dropped ∧ s.threads = 0 ∧ s.permits = 0 := by
  obtain ⟨hrank, hhome⟩ : s.host.rank = 0 ∧ s.home = .dropped := by
    simp only [Stream.closing, Stream.rank] at h
    split at h
    · exact ⟨by omega, ‹_›⟩
    · omega
  obtain ⟨hthreads, htally⟩ := (hs.orphan hc).1.nothing_left hrank Credit.permits Round.permits
  refine ⟨hhome, ?_⟩
  cases hcoord : s.coord with
  | finished | panicked | aborted =>
    simp [Stream.threads, Stream.permits, Coord.tally, hcoord, hthreads, htally]
  | _ => simp [hcoord, Coord.over] at hc

/-- A stream without steps left is over. -/
theorem Stream.over_of_closing (h : s.closing = 0) : s.coord.over = true := by
  simp only [Stream.closing, Stream.rank] at h
  cases hc : s.coord with
  | finished | panicked | aborted => rfl
  | _ => simp [hc, Coord.rank] at h

section Process

variable {ι : Type} [DecidableEq ι] {c : ι → Config B E} {p q : Budget × (ι → Stream B E)}
  {a : ι × Action B E} {X : Execution (process c)} {i : ι} {n : ℕ}

theorem process_step_cases (h : (process c).Reachable p) (hs : (process c).step p a q) (i : ι) :
    (a.1 = i ∧ Step (c i) (p.1, p.2 i) a.2 (q.1, q.2 i)) ∨ (a.1 ≠ i ∧ q.2 i = p.2 i) := by
  obtain ⟨k, s, hs, rfl⟩ := hs
  by_cases hi : a.1 = i
  · subst hi
    refine .inl ⟨rfl, ?_⟩
    simp only [Function.update_self]
    exact reachable_step (family_reachable_alone h a.1) hs
  · exact .inr ⟨hi, Function.update_of_ne (Ne.symm hi) _ _⟩

/-- What a stream that is to end does on its way there. -/
theorem process_ending (h : (process c).Reachable p) (hs : (process c).step p a q)
    (he : (p.2 i).Ending) : (q.2 i).Ending ∧ (q.2 i).closing ≤ (p.2 i).closing ∧
      (Internal i p a → (q.2 i).closing < (p.2 i).closing) := by
  have hp := family_reachable_alone h i
  rcases process_step_cases h hs i with ⟨hi, hstep⟩ | ⟨hi, hsame⟩
  · have hshaped := reachable_shaped hp
    have hle := hstep.closing hshaped (hshaped.closing (hshaped.over_of_ending he))
    refine ⟨hstep.ending (reachable_accounted hp) he, ?_, ?_⟩
    · simp only at hle
      omega
    · rintro ⟨-, hint⟩
      simp only [hint, Bool.toNat_true] at hle
      omega
  · rw [hsame]
    exact ⟨he, le_rfl, fun hint => absurd hint.1 hi⟩

/-- A stream that is to end settles, for good. -/
theorem stream_settles (hf : X.Fair (Internal i)) (he : ((X.state n).2 i).Ending) :
    ∃ k, ∀ m, k ≤ m → ((X.state m).2 i).closing = 0 := by
  have hend : ∀ m, n ≤ m → ((X.state m).2 i).Ending := by
    intro m hm
    refine Execution.lasts (E := X) (W := fun _ _ => True) (I := fun p => (p.2 i).Ending)
      (fun _ _ _ hp hs _ he => (process_ending hp hs he).1) hm (fun _ _ _ _ _ => trivial) he
  obtain ⟨k, hk, hzero⟩ : ∃ k, n ≤ k ∧ ((X.state k).2 i).closing = 0 := by
    refine Execution.eventually (I := fun p => (p.2 i).Ending) (G := fun p => (p.2 i).closing = 0)
      (W := Internal i) (M := fun p => (p.2 i).closing) he
      (fun _ _ _ hp hs he _ => (process_ending hp hs he).1)
      (fun _ _ _ hp hs he _ _ => (process_ending hp hs he).2) ?_
    intro k hk hall
    refine hf k fun l hl => ?_
    obtain ⟨he, hn⟩ := hall l hl
    obtain ⟨a, q, hi, hq⟩ :=
      (reachable_shaped (family_reachable_alone (X.reachable l) i)).ending_enabled he hn (X.state l).1
    exact ⟨(i, a), _, ⟨rfl, hi⟩, q.1, q.2, hq, rfl⟩
  refine ⟨k, fun m hm => ?_⟩
  have hlast : ((X.state m).2 i).Ending ∧ ((X.state m).2 i).closing = 0 := by
    refine Execution.lasts (E := X) (W := fun _ _ => True)
      (I := fun p => (p.2 i).Ending ∧ (p.2 i).closing = 0) ?_ hm (fun _ _ _ _ _ => trivial)
      ⟨hend k hk, hzero⟩
    rintro p a q hp hs - ⟨he, hz⟩
    obtain ⟨he', hle, -⟩ := process_ending hp hs he
    exact ⟨he', by omega⟩
  exact hlast.2

/-- When every stream has ended or was dropped, a fair runtime gives back all that they took: the
budgets are full again, no pull thread is left, and every closure was dropped exactly once. -/
theorem everything_reclaimed [Fintype ι] (hf : ∀ i, X.Fair (Internal i))
    (he : ∀ i, ∃ n, ((X.state n).2 i).Ending) :
    ∃ n, ∀ k, n ≤ k → (X.state k).1 = Budget.initial ∧
      ∀ i, ((X.state k).2 i).threads = 0 ∧ ((X.state k).2 i).drops.length = 1 := by
  obtain ⟨n, hn⟩ := Execution.eventually_forall (E := X) (G := fun i p => (p.2 i).closing = 0)
    fun i => by
      obtain ⟨m, hm⟩ := he i
      exact stream_settles (hf i) hm
  refine ⟨n, fun k hk => ?_⟩
  have hp := X.reachable k
  have hall (i : ι) := (reachable_shaped (family_reachable_alone hp i)).settled
    (Stream.over_of_closing (hn k hk i)) (hn k hk i)
  have hpermits := process_permits hp
  have hthreads := process_threads hp
  rw [Finset.sum_eq_zero fun i _ => (hall i).2.2] at hpermits
  rw [Finset.sum_eq_zero fun i _ => (hall i).2.1] at hthreads
  refine ⟨?_, fun i => ⟨(hall i).2.1, ?_⟩⟩
  · generalize (X.state k).1 = b at hpermits hthreads
    obtain ⟨speculation, affine⟩ := b
    simp only [Nat.add_zero] at hpermits hthreads
    rw [hpermits, hthreads]
    rfl
  · have hdrops := reachable_drops (family_reachable_alone hp i)
    rwa [if_pos (hall i).1] at hdrops

end Process

/-- The consumer drops the stream while the pull thread is parked, and the thread exits. -/
theorem everything_reclaimed_parked :
    ∃ X : Execution (process fun _ : Unit => bufferedIds),
      ∃ n, (X.state n).1 = Budget.initial ∧ ((X.state n).2 ()).drops = [.pullThread] := by
  obtain ⟨b, s, hrun, hab, hz, hd⟩ : ∃ b s, System.replay (step bufferedIds)
      (parkedThreadRun ++ [.host, .host, .host]) (.initial, {}) = some (b, s) ∧
      s.aborting = true ∧ s.closing = 0 ∧ s.drops = [.pullThread] := ⟨_, _, rfl, rfl, rfl, rfl⟩
  obtain ⟨X, ⟨n, hn⟩, hX⟩ := Execution.exists_of_replay
    (C := fun _ : Unit => component bufferedIds) (fun _ => {}) (i := ()) (fun _ => rfl)
    (fun _ _ _ hs => hs) hrun
  have hlast (k : ℕ) (hk : n ≤ k) : (X.state k).2 () = s := by simp [hn k hk]
  have hf : X.Fair (Internal ()) := by
    refine hX _ _ ?_
    rintro ⟨a, t, ⟨-, hi⟩, k, s', hs, rfl⟩
    have hp := family_reachable_alone (X.reachable n) ()
    rw [hn n le_rfl] at hp
    exact no_internal_step hp (.inr (by simpa using Stream.over_of_closing hz)) (by simpa using hz)
      hi hs
  obtain ⟨m, hm⟩ := everything_reclaimed (X := X) (fun _ => hf) fun _ => ⟨n, .inl (by rw [hlast n le_rfl, hab])⟩
  refine ⟨X, max n m, (hm _ (le_max_right n m)).1, ?_⟩
  rw [hlast _ (le_max_left n m), hd]

end XorqDatafusion.Bridge
