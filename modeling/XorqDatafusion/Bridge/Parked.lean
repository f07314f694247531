import XorqDatafusion.Bridge.Speculation

/-! Which speculation permits outlive their drain round: those of a coordinator that waits. -/
namespace XorqDatafusion.Bridge

open Transition

variable {B E : Type} {c : Config B E} {b : Budget} {s : Stream B E} {p q : Budget × Stream B E}
  {a : Action B E}

/-- The coordinator waits for the consumer's demand or for a free slot. -/
def Stream.parked (s : Stream B E) : Bool :=
  match s.coord with
  | .acquire => s.demand = 0
  | .reserve _ => s.live && s.slots = 0
  | _ => false

/-- A drain round is under way: from the credit it was granted to its report, but for a wait of the
coordinator on the way. -/
def Stream.underWay (s : Stream B E) : Bool :=
  match s.coord with
  | .dispatch _ => true
  | .reserve _ => !s.live || 0 < s.slots
  | _ => s.host.working

/-- The coordinator holds a speculation permit while it waits for a free slot. -/
def Stream.Hoards (s : Stream B E) : Prop :=
  s.coord = .reserve .speculative ∧ s.live = true ∧ s.slots = 0

/-- A coordinator that is about to take a speculation permit finds a free slot, or no receiver. -/
def Roomy (c : Config B E) (p : Budget × Stream B E) : Action B E → Prop
  | .coordinator _ => p.2.coord = .trySpeculate → c.readAhead = .buffered → 0 < p.1.speculation →
      p.2.live = true → 0 < p.2.slots
  | _ => True

instance : (a : Action B E) → Decidable (Roomy c p a)
  | .coordinator _ => inferInstanceAs (Decidable (_ → _ → _ → _ → _))
  | .pollNext | .receive | .pending | .endOfStream | .propagatePanic | .dropReceiver | .dropTasks
  | .abort | .host | .answer _ | .dispose => .isTrue trivial

theorem Roomy.of_ne {spawns : Bool} (h : p.2.coord ≠ .trySpeculate) :
    Roomy c p (.coordinator spawns) := fun hc => absurd hc h

/-- Taking a permit without a slot to put a batch in is the only way to hoard one. -/
theorem CoordStep.hoards_iff {spawns : Bool} (h : CoordStep c p q) :
    q.2.Hoards ↔ ¬Roomy c p (.coordinator spawns) := by
  have hroomy (hc : p.2.coord ≠ .trySpeculate) (hq : ¬q.2.Hoards) :
      q.2.Hoards ↔ ¬Roomy c p (.coordinator spawns) :=
    iff_of_false hq fun hn => hn (.of_ne hc)
  cases h with
  | @speculate b b' s hc ht =>
    obtain ⟨hra, hb⟩ := trySpeculate_eq_some ht
    have hpos : 0 < b.speculation := by omega
    constructor
    · rintro ⟨-, hl, hs⟩ hr
      have hlt : 0 < s.slots := hr hc hra hpos hl
      have hz : s.slots = 0 := hs
      omega
    · intro hr
      refine ⟨rfl, ?_, ?_⟩
      · by_contra hl
        exact hr fun _ _ _ hl' => absurd hl' hl
      · by_contra hs
        exact hr fun _ _ _ _ => Nat.pos_of_ne_zero hs
  | @noBudget b s hc ht =>
    refine iff_of_false (fun hq => by cases hq.1) fun hn => hn ?_
    intro _ hra hb
    simp [trySpeculate, hra, hb] at ht
  | grant hc =>
    refine hroomy ?_ fun hq => by cases hq.1
    rcases hc with hc | hc <;> simp [hc]
  | @collect b s report hc hr =>
    apply hroomy (by simp [hc])
    intro hq
    have hcoord := hq.1
    rcases report with ⟨_ | _⟩ | payload <;> cases hcoord
  | _ => exact hroomy (by simp [*]) fun hq => by cases hq.1

/-- While the coordinator waits for a slot, only the consumer can free one. -/
theorem Step.hoards_of_hoards (hs : Shaped c p.2) (h : Step c p a q)
    (ha : ∀ spawns, a ≠ .coordinator spawns) (hq : q.2.Hoards) : p.2.Hoards := by
  have hidle : p.2.coord = .reserve .speculative → Idle p.2.host p.2.home := by
    intro hc
    have hat := hs.at_coord
    rw [hc] at hat
    exact hat.1
  cases h with
  | coordinator => exact absurd rfl (ha _)
  | abort _ h =>
    have hcoord := hq.1
    cases h <;> cases hcoord
  | host h =>
    have hcoord : p.2.coord = .reserve .speculative := by
      have hc := hq.1
      rwa [h.frame] at hc
    cases h with
    | drain hh hd =>
      have hnone := (hidle hcoord).round
      rw [hh] at hnone
      cases hnone
    | _ => exact hq
  | @answer b s r o hh hr =>
    have hcoord : s.coord = .reserve .speculative := by
      have hc := hq.1
      rwa [pullReturned_frame] at hc
    have hnone := (hidle hcoord).round
    rw [hh] at hnone
    cases hnone
  | receive =>
    have hslots : _ + 1 = 0 := hq.2.2
    omega
  | dropReceiver =>
    have hlive := hq.2.1
    cases hlive
  | pollNext =>
    rw [Stream.pollNext_frame] at hq
    exact hq
  | _ => exact hq

theorem Step.hoards_iff (hs : Shaped c p.2) (h : Step c p a q) (hp : ¬p.2.Hoards) :
    ¬q.2.Hoards ↔ Roomy c p a := by
  by_cases ha : ∃ spawns, a = .coordinator spawns
  · obtain ⟨spawns, rfl⟩ := ha
    cases h with
    | coordinator h => rw [h.hoards_iff, not_not]
  · have hroomy : Roomy c p a := by
      cases a with
      | coordinator spawns => exact absurd ⟨spawns, rfl⟩ ha
      | _ => trivial
    refine iff_of_true (fun hq => hp (h.hoards_of_hoards hs ?_ hq)) hroomy
    exact fun spawns he => ha ⟨spawns, he⟩

/-- Between rounds, a stream holds what its coordinator holds. -/
theorem Shaped.permits_reserve {credit : Credit} (hs : Shaped c s) (hc : s.coord = .reserve credit) :
    s.permits = credit.permits := by
  have hat := hs.at_coord
  rw [hc] at hat
  simp [Stream.permits, hc, Coord.tally, Host.tally_of_not_working hat.1.not_working]

theorem Shaped.permits_of_parked (hs : Shaped c s) (hh : ¬s.Hoards) (hp : s.parked = true) :
    s.permits = 0 := by
  have hat := hs.at_coord
  unfold Stream.parked at hp
  split at hp
  · rename_i hc
    rw [hc] at hat
    simp [Stream.permits, hc, Coord.tally, Host.tally_of_not_working hat.1.not_working]
  · rename_i credit hc
    rw [hs.permits_reserve hc]
    cases credit with
    | demanded => rfl
    | speculative => exact absurd ⟨hc, by simpa using hp⟩ hh
  · cases hp

/-- What holds a permit is a round under way or a wait for a slot. -/
theorem Shaped.underWay_of_permits (hs : Shaped c s) (hh : ¬s.Hoards) (hp : 0 < s.permits) :
    s.underWay = true := by
  unfold Stream.underWay
  split
  · rfl
  · rename_i credit hc
    rw [hs.permits_reserve hc] at hp
    cases credit with
    | demanded => cases hp
    | speculative =>
      by_contra hn
      refine hh ⟨hc, ?_⟩
      simpa using hn
  · rename_i hd hr
    by_contra hw
    rw [Bool.not_eq_true] at hw
    have hcoord : s.coord.tally Credit.permits Credit.permits = 0 := by
      cases hc : s.coord with
      | reserve credit => exact absurd hc (hr credit)
      | dispatch credit => exact absurd hc (hd credit)
      | _ => rfl
    simp [Stream.permits, hcoord, Host.tally_of_not_working hw] at hp

theorem Shaped.hoards_parked (hs : Shaped c s) (hh : s.Hoards) :
    s.parked = true ∧ s.underWay = false ∧ s.permits = 1 := by
  obtain ⟨hc, hl, hz⟩ := hh
  simp [Stream.parked, Stream.underWay, hs.permits_reserve hc, hc, hl, hz, Credit.permits]

section Process

variable {ι : Type} [DecidableEq ι] [Fintype ι] {c : ι → Config B E}
  {p₀ p q : Budget × (ι → Stream B E)} {xs : List ((Budget × (ι → Stream B E)) × (ι × Action B E))}

/-- Permits belong to rounds under way: a parked coordinator has none, and what the budget lacks is
held by streams that are at work. -/
structure Thrifty (p : Budget × (ι → Stream B E)) : Prop where
  parked : ∀ i, (p.2 i).parked = true → (p.2 i).permits = 0
  underWay : ∀ i, 0 < (p.2 i).permits → (p.2 i).underWay = true
  lent : p.1.speculation + ∑ i with (p.2 i).underWay = true, (p.2 i).permits = speculationBudget

theorem thrifty_iff (h : (process c).Reachable p) : Thrifty p ↔ ∀ i, ¬(p.2 i).Hoards := by
  have hs (i : ι) : Shaped (c i) (p.2 i) := reachable_shaped (family_reachable_alone h i)
  constructor
  · intro ht i hh
    obtain ⟨hparked, -, hone⟩ := (hs i).hoards_parked hh
    have hzero := ht.parked i hparked
    omega
  · intro hn
    have hway (i : ι) : 0 < (p.2 i).permits → (p.2 i).underWay = true :=
      (hs i).underWay_of_permits (hn i)
    refine ⟨fun i => (hs i).permits_of_parked (hn i), hway, ?_⟩
    rw [Finset.sum_filter_of_ne fun i _ hne => hway i (Nat.pos_of_ne_zero hne)]
    exact process_permits h

omit [Fintype ι] in
theorem family_hoards_iff {a : ι × Action B E} (hp : (process c).Reachable p)
    (h : (process c).step p a q) (hn : ∀ i, ¬(p.2 i).Hoards) :
    (∀ i, ¬(q.2 i).Hoards) ↔ Roomy (c a.1) (p.1, p.2 a.1) a.2 := by
  obtain ⟨k, s, hs, rfl⟩ := h
  have hr := family_reachable_alone hp a.1
  have hstep : Step (c a.1) (p.1, p.2 a.1) a.2 (k, s) := reachable_step hr hs
  rw [← hstep.hoards_iff (reachable_shaped hr) (hn a.1)]
  constructor
  · intro hall
    simpa using hall a.1
  · intro ha i
    by_cases hi : i = a.1
    · subst hi
      simpa using ha
    · simpa [hi] using hn i

/-- Along a run no parked coordinator ever holds a permit exactly when each coordinator that takes
one has a slot for the batch. -/
theorem idle_streams_hold_no_permits_iff (h₀ : (process c).start p₀) (h : (process c).Run p₀ xs p) :
    (∀ q ∈ System.visited xs p, Thrifty q) ↔
      ∀ x ∈ xs, Roomy (c x.2.1) (x.1.1, x.1.2 x.2.1) x.2.2 := by
  have hr₀ := System.Reachable.of_start h₀
  have hthrifty : ∀ q ∈ System.visited xs p, (Thrifty q ↔ ∀ i, ¬(q.2 i).Hoards) := by
    intro q hq
    exact thrifty_iff (h.visited_reachable hr₀ hq)
  have hstart (i : ι) : ¬(p₀.2 i).Hoards := by
    have hi : p₀.2 i = {} := h₀.2 i
    rintro ⟨hc, -⟩
    rw [hi] at hc
    cases hc
  rw [forall₂_congr hthrifty]
  exact System.run_stays_iff (I := fun p => ∀ i, ¬(p.2 i).Hoards)
    (P := fun p a => Roomy (c a.1) (p.1, p.2 a.1) a.2)
    (fun s a t hs hstep hn => family_hoards_iff hs hstep hn) hr₀ hstart h

end Process

/-- A buffered stream nobody polls fills its channel; its coordinator is about to read on. -/
def fillingRun : List (Action (RecordBatch String ℤ) DataFusionError) :=
  [.coordinator true, .coordinator false, .coordinator true, .coordinator true, .coordinator true,
    .coordinator true, .host] ++
  (List.replicate 7 speculativeBatch).flatten ++
  [.host, .answer (.batch (idBatch [])), .host, .host, .coordinator true, .coordinator true]

/-- The first batch of an unpolled stream is read ahead, with a slot and a permit for it. -/
theorem idle_streams_hold_no_permits_iff_reading :
    ∃ p xs, (process fun _ : Unit => bufferedIds).Run (.initial, fun _ => {}) xs p ∧
      (p.2 ()).permits = 1 ∧ ∀ q ∈ System.visited xs p, Thrifty q := by
  obtain ⟨q, hrun, hone⟩ : ∃ q, System.replay (Component.guarded (Roomy bufferedIds) (step bufferedIds))
      [.coordinator true, .coordinator false, .coordinator true, .coordinator true,
        .coordinator true, .coordinator true, .host, .host] (.initial, {}) = some q ∧
      q.2.permits = 1 := ⟨_, rfl, rfl⟩
  have hstep := Component.guarded_step (C := component bufferedIds) (P := Roomy bufferedIds)
    fun _ _ _ hs => hs
  let roomy : Component Budget (Stream _ _) (Action _ _) :=
    (component bufferedIds).restrict (Roomy bufferedIds)
  obtain ⟨xs, hr⟩ : ∃ xs, (family (fun _ : Unit => roomy) Budget.initial).Run
      (.initial, fun _ => {}) xs (q.1, Function.update (fun _ => {}) () q.2) :=
    family_replay (C := fun _ => roomy) (fun _ => {}) () hstep hrun
  obtain ⟨h, hroomy⟩ := family_run_restrict_iff.mp hr
  have h₀ : (process fun _ : Unit => bufferedIds).start (.initial, fun _ => {}) :=
    ⟨rfl, fun _ => rfl⟩
  exact ⟨_, xs, h, by simpa using hone, (idle_streams_hold_no_permits_iff h₀ h).mpr hroomy⟩

theorem replay_fillingRun :
    ∃ s, System.replay (step bufferedIds) fillingRun (.initial, {}) = some (.initial, s) ∧
      s.coord = .trySpeculate ∧ s.live = true ∧ s.slots = 0 ∧ s.requests = 0 ∧
      s.host = .pool .absent :=
  ⟨_, rfl, rfl, rfl, rfl, rfl, rfl⟩

/-- As many streams as there are permits, none of them ever polled, each parked on its full channel
with a permit: nobody else can read ahead. -/
theorem parked_streams_exhaust_budget :
    ∃ p, (process fun _ : Fin speculationBudget => bufferedIds).Reachable p ∧
      trySpeculate p.1 .buffered = none ∧
      ∀ i, (p.2 i).requests = 0 ∧ (p.2 i).parked = true ∧ (p.2 i).permits = 1 := by
  obtain ⟨s, hrun, hc, hl, hs, hr, hh⟩ := replay_fillingRun
  let stage (n : ℕ) : Budget := ⟨speculationBudget - n, affineThreadBudget⟩
  have htake : ∀ n < Fintype.card (Fin speculationBudget),
      System.replay (step bufferedIds) [.coordinator true] (stage n, s) =
        some (stage (n + 1), { s with coord := .reserve .speculative }) := by
    intro n hn
    have hpos : 0 < speculationBudget - n := by
      rw [Fintype.card_fin] at hn
      omega
    simp [System.replay, step, coordinator, hc, bufferedIds, trySpeculate, stage, hpos, Nat.sub_sub]
  have hfull : (process fun _ : Fin speculationBudget => bufferedIds).Reachable
      (.initial, fun _ => s) :=
    family_replay_all (C := component bufferedIds) (fun _ _ _ h => h) rfl hrun
  have hp := family_replay_each (C := component bufferedIds) stage (fun _ _ _ h => h) htake hfull
  refine ⟨_, hp, ?_, fun i => ?_⟩
  · simp [trySpeculate, stage]
  · simp [Stream.parked, Stream.permits, Coord.tally, Host.tally, Credit.permits, hl, hs, hr, hh]

end XorqDatafusion.Bridge
