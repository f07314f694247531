import XorqDatafusion.Bridge.Threads

/-! How much a stream works: what a step costs, and what the consumer pays for it. -/
namespace XorqDatafusion.Bridge

open Transition

variable {B E : Type} {c : Config B E} {b b' : Budget} {s s' : Stream B E} {r r' : Round}
  {host : Host} {home : Home} {v : Verdict} {report : Report} {p q : Budget × Stream B E}
  {a : Action B E} {o : Outcome B E}

/-- The steps of the runtime: of the coordinator and its abort, the host, the pull and the
disposal. -/
def Action.internal : Action B E → Bool
  | .coordinator _ | .abort | .host | .answer _ | .dispose => true
  | _ => false

/-- How many steps a drain round is from the end of its next pull. -/
def Drain.lead : Drain → ℕ
  | .panicked _ => 0
  | .inPull => 12
  | .call => 13
  | .returned _ => 22
  | .noDemand => 23
  | .reserved => 24
  | .sent => 25

/-- The same for the host of a coordinator that awaits its round. -/
def Host.lead : Host → ℕ
  | .affine thread mailbox _ => match thread with
    | .recvInit => 15
    | .recvJob => if mailbox = [] then 20 else 14
    | .draining r => r.drain.lead
    | .reporting _ => 21
    | _ => 0
  | .pool task => match task with
    | .queued _ => 14
    | .draining r => r.drain.lead
    | .finished _ => 20
    | .absent => 0
  | .unmade => 0

/-- The pull thread has not received its pull yet. -/
def Host.unread : Host → ℕ
  | .affine .recvInit _ _ => 1
  | _ => 0

def Coord.lead (host : Host) : Coord → ℕ
  | .awaitRound => host.lead
  | .dispatch _ => 15 + host.unread
  | .reserve _ => 16 + host.unread
  | .acquire => 17 + host.unread
  | .trySpeculate => 18 + host.unread
  | .tryAcquire => 19 + host.unread
  | .sendInit => 21
  | .spawning => 22
  | .spawned => 23
  | .finished | .panicked _ | .aborted => 0

/-- The steps a stream has left once no further pull can start. -/
def Stream.closing (s : Stream B E) : ℕ := s.rank + if s.home = .dropped then 0 else 1

/-- Room in the channel, at the price of the steps that fill it. -/
def Stream.room (s : Stream B E) : ℕ :=
  if s.live then 14 * (channelCapacity - s.chan.length) else 0

/-- A bound on the steps of the runtime until the consumer makes room. -/
def Stream.work (c : Config B E) (s : Stream B E) : ℕ :=
  s.room + if s.live = true ∧ verdict c.check s.answers = .going then s.coord.lead s.host
    else s.closing

/-- The work a step of the consumer makes possible: an item received makes room for another, and
dropping the stream has its coordinator and host wound up. -/
def Action.admits : Action B E → ℕ
  | .receive => 14
  | .dropReceiver => 27
  | _ => 0

/-- A host at work is one whose coordinator awaits it. -/
theorem ShapeAt.busy {live : Bool} {coord : Coord} (hs : ShapeAt live host home v coord)
    (ho : coord.over = false) (hw : host.working = true) : coord = .awaitRound ∧ Busy host home v := by
  cases coord with
  | finished | panicked | aborted => cases ho
  | awaitRound =>
    rcases hs with hs | ⟨report, hs, -⟩
    · exact ⟨rfl, hs⟩
    · simp [hs.not_working] at hw
  | spawned | spawning | sendInit =>
    rw [hs.1] at hw
    cases hw
  | _ =>
    have hidle := hs.1
    simp [hidle.not_working] at hw

section Going

/-- While the source has more, a step of the coordinator brings the next pull closer. -/
theorem CoordStep.lead (hs : ShapeAt p.2.live p.2.host p.2.home v p.2.coord)
    (h : CoordStep c p q) (hl : p.2.live = true) (hq : q.2.coord.over = false) :
    q.2.coord.lead q.2.host + 1 ≤ p.2.coord.lead p.2.host := by
  cases h with
  | grant hc =>
    rcases hc with hc | hc
    all_goals
      simp only [Coord.lead, hc]
      omega
  | speculate hc | noDemand hc | noBudget hc | reserve hc =>
    simp only [Coord.lead, hc]
    omega
  | closed hc hl' => cases hl.symm.trans hl'
  | permit hc | noPermit hc | spawn hc | spawnFails hc | sendInit hc =>
    simp [Coord.lead, Host.unread, hc]
  | @dispatch b s credit thread mailbox done hc hh =>
    simp only [hc] at hs
    have hidle := hs.1
    rw [hh] at hidle
    generalize s.home = home at hidle
    cases hidle <;> simp [Coord.lead, Host.lead, Host.unread, hc, hh]
  | dispatchPool hc hh hg => simp [Coord.lead, Host.lead, Host.unread, hc, hh]
  | @collect b s report hc hr =>
    rcases report with ⟨_ | _⟩ | payload
    · generalize hh : s.host = host at hr
      generalize s.home = home at hr
      cases hr with
      | parked => simp [afterRound, Coord.lead, Host.lead, Host.unread, Host.collect, hc]
      | output => simp [afterRound, Coord.lead, Host.lead, Host.unread, Host.collect, hc]
      | leaving report hl | exiting report hl | exited report hl => cases hl
    · simp [afterRound, Stream.finish, Coord.over] at hq
    · simp [afterRound, Stream.finish, Coord.over] at hq

theorem drainBatches_lead (h : drainBatches c b s r = some (b', s', r')) :
    r'.drain.lead + 1 ≤ r.drain.lead := by
  revert h
  fun_cases drainBatches c b s r <;> intro h <;> cases h <;> simp [Drain.lead, *]

theorem Drain.lead_of_report {d : Drain} (h : d.report = some report) (hv : d.verdict = .going) :
    d.lead = 22 := by
  cases d with
  | returned => rfl
  | panicked => cases hv
  | _ => cases h

theorem Host.lead_of_round (h : host.round = some r) : host.lead = r.drain.lead := by
  rcases Host.round_eq_some_iff.mp h with ⟨mailbox, done, rfl⟩ | rfl <;> rfl

theorem Host.round_setRound_self (h : host.round = some r) (r' : Round) :
    (host.setRound r').round = some r' := by
  rcases Host.round_eq_some_iff.mp h with ⟨mailbox, done, rfl⟩ | rfl <;> rfl

theorem Host.working_of_round (h : host.round = some r) : host.working = true := by
  rcases Host.round_eq_some_iff.mp h with ⟨mailbox, done, rfl⟩ | rfl <;> simp [Host.working]

theorem Busy.verdict_of_round (h : Busy host home v) (hr : host.round = some r) :
    v = r.drain.verdict := by
  cases h with
  | draining | pooled => cases hr; rfl
  | _ => cases hr

theorem Busy.verdict_of_reporting {mailbox : List PullMessage} {done : Oneshot}
    (h : Busy (.affine (.reporting report) mailbox done) home v) : v = report.verdict := by
  cases h
  rfl

theorem Report.verdict_of_last (h : report.last = true) : report.verdict ≠ .going := by
  rcases report with ⟨_ | _⟩ | payload <;> simp [Report.last, Report.verdict] at h ⊢

/-- A host that lets its pull go has reported the end of the source. -/
theorem ShapeAt.not_leaving {live : Bool} {coord : Coord} {thread : Thread}
    {mailbox : List PullMessage} {done : Oneshot} (ht : thread = .leaving ∨ thread = .exiting)
    (hs : ShapeAt live (.affine thread mailbox done) home .going coord) : coord.over = true := by
  cases coord with
  | finished | panicked | aborted => rfl
  | awaitRound =>
    rcases hs with hs | ⟨report, hs, hv⟩
    · rcases ht with rfl | rfl <;> cases hs
    · have hlast : report.last = true := by
        rcases ht with rfl | rfl <;> (cases hs; assumption)
      exact absurd hv.symm (Report.verdict_of_last hlast)
  | spawned | spawning | sendInit => rcases ht with rfl | rfl <;> simp [ShapeAt] at hs
  | _ =>
    have hidle := hs.1
    rcases ht with rfl | rfl <;> cases hidle

/-- So does a step of the host. -/
theorem HostStep.lead (hs : ShapeAt p.2.live p.2.host p.2.home .going p.2.coord)
    (h : HostStep c p q) (ho : p.2.coord.over = false) :
    q.2.coord.lead q.2.host + 1 ≤ p.2.coord.lead p.2.host := by
  have hbusy := hs.busy ho
  cases h with
  | @recvInit b s rest done hh =>
    simp only at hs ho
    cases hc : s.coord with
    | awaitRound =>
      rw [hc, hh] at hs
      generalize s.home = home at hs
      rcases hs with hs | ⟨report, hs, -⟩
      · cases hs
        simp [Coord.lead, Host.lead, hh]
      · cases hs
    | spawned | spawning | sendInit => simp [ShapeAt, hc, hh] at hs
    | finished | panicked | aborted => simp [hc, Coord.over] at ho
    | _ => simp [Coord.lead, Host.unread, hh]
  | @recvJob b s credit done hh =>
    obtain ⟨hc, -⟩ : s.coord = _ ∧ _ := hbusy (by simp [hh, Host.working, PullMessage.isJob])
    simp [Coord.lead, Host.lead, Round.begin, Drain.lead, hc, hh]
  | hangUp hh hc => simp [hc] at ho
  | @drain b b' s s' r r' hh hd =>
    obtain ⟨hc, -⟩ : s.coord = _ ∧ _ := hbusy (Host.working_of_round hh)
    have hcoord : s'.coord = .awaitRound := by rw [(drainBatches_frame hd).1, ← hc]
    have hlt := drainBatches_lead hd
    simp only [Coord.lead, hc, hcoord, Host.lead_of_round hh,
      Host.lead_of_round (Host.round_setRound_self hh r')]
    omega
  | @report b s r done report hh hr =>
    obtain ⟨hc, hb⟩ : s.coord = _ ∧ Busy s.host s.home _ := hbusy (by simp [hh, Host.working])
    have hlead := Drain.lead_of_report hr (hb.verdict_of_round (by rw [hh]; rfl)).symm
    simp [Coord.lead, Host.lead, hc, hh, hlead]
  | @announce b s done report hh =>
    obtain ⟨hc, hb⟩ : s.coord = _ ∧ Busy s.host s.home _ := hbusy (by simp [hh, Host.working])
    rw [hh] at hb
    have hgoing : report.verdict = .going := hb.verdict_of_reporting.symm
    cases hl : report.last with
    | true => exact absurd hgoing (Report.verdict_of_last hl)
    | false => simp [Coord.lead, Host.lead, hc, hh]
  | @leave b s done hh =>
    have hs' : ShapeAt s.live s.host s.home .going s.coord := hs
    rw [hh] at hs'
    cases ho.symm.trans (hs'.not_leaving (.inl rfl))
  | @exit b s done hh =>
    have hs' : ShapeAt s.live s.host s.home .going s.coord := hs
    rw [hh] at hs'
    cases ho.symm.trans (hs'.not_leaving (.inr rfl))
  | @start b s credit hh =>
    obtain ⟨hc, -⟩ : s.coord = _ ∧ _ := hbusy (by simp [hh, Host.working])
    simp [Coord.lead, Host.lead, Round.begin, Drain.lead, hc, hh]
  | @complete b s r finished hh hr hc' =>
    obtain ⟨hc, hb⟩ : s.coord = _ ∧ Busy s.host s.home _ := hbusy (by simp [hh, Host.working])
    have hlead := Drain.lead_of_report hr (hb.verdict_of_round (by rw [hh]; rfl)).symm
    simp [Coord.lead, Host.lead, hc, hh, hlead]
  | discard hh hr hc => simp [hc] at ho
  | @crash b s r payload hh hr =>
    obtain ⟨-, hb⟩ : s.coord = _ ∧ Busy s.host s.home _ := hbusy (by simp [hh, Host.working])
    have hgoing : r.drain.verdict = .going := (hb.verdict_of_round (by rw [hh]; rfl)).symm
    rw [Drain.verdict_of_report hr] at hgoing
    cases hgoing

end Going

/-- An answer that leaves the source going fills a place in the channel. -/
theorem pullReturned_lead (hl : s.live = true) (hv : o.verdict c.check = .going) (b : Budget)
    (r : Round) : (pullReturned c b s r o).2.2.drain.lead = 25 ∧
      (pullReturned c b s r o).2.1.chan.length = s.chan.length + 1 := by
  cases o with
  | batch batch =>
    cases hc : c.check batch <;> simp [Outcome.verdict, hc] at hv
    simp [pullReturned, Stream.send, Drain.lead, hc, hl]
  | error | done | panic => cases hv

theorem pullReturned_over (hv : o.verdict c.check ≠ .going) (b : Budget) (s : Stream B E)
    (r : Round) : (pullReturned c b s r o).2.2.drain.rank = 5 ∧
      s.chan.length ≤ (pullReturned c b s r o).2.1.chan.length := by
  cases o with
  | batch batch =>
    cases hc : c.check batch <;> simp [Outcome.verdict, hc] at hv
    cases hl : s.live <;> simp [pullReturned, Stream.send, Drain.rank, hc, hl]
  | error e => cases hl : s.live <;> simp [pullReturned, Stream.send, Drain.rank, hl]
  | done | panic => simp [pullReturned, Drain.rank]

theorem Stream.work_of_going (hl : s.live = true) (hv : verdict c.check s.answers = .going) :
    s.work c = 14 * (channelCapacity - s.chan.length) + s.coord.lead s.host := by
  simp [Stream.work, Stream.room, hl, hv]

theorem Stream.work_of_closing (ho : s.Closing c) : s.work c = s.room + s.closing := by
  rcases ho with hl | hv
  · simp [Stream.work, hl]
  · simp [Stream.work, hv]

/-- What a stream that is closing has left to do gets less with every step of the runtime. -/
theorem Step.closing (hs : Shaped c p.2) (h : Step c p a q) (ho : p.2.Closing c) :
    q.2.closing + a.internal.toNat ≤ p.2.closing := by
  have hrank := h.rank hs ho
  obtain ⟨site, hd, -⟩ := h.disposal hs
  cases hd with
  | kept hd hh =>
    have hi : a.internal.toNat ≤ a.works.toNat := by
      cases h with
      | dispose hdis => simp [hdis, Stream.dropPull] at hh
      | _ => simp [Action.internal, Action.works]
    simp only [Stream.closing, hh]
    omega
  | dropped site hn hh hd =>
    have hi : a.internal.toNat ≤ a.works.toNat + 1 := by
      cases a <;> simp [Action.internal, Action.works]
    simp only [Stream.closing, hh, hn, if_true, if_false]
    omega

theorem Drain.rank_le (d : Drain) : d.rank ≤ 10 := by
  cases d <;> simp [Drain.rank]

theorem Idle.rank_le (h : Idle host home) : host.rank ≤ 11 := by
  cases h <;> simp [Host.rank, Thread.rank, Task.rank]

theorem Busy.rank_le (h : Busy host home v) : host.rank ≤ 19 := by
  cases h with
  | draining r | pooled r =>
    have := r.drain.rank_le
    simp [Host.rank, Thread.rank, Task.rank]
    omega
  | _ => simp [Host.rank, Thread.rank, Task.rank]

theorem Busy.rank_of_round (h : Busy host home v) (hr : host.round = some r) :
    host.rank = r.drain.rank := by
  cases h with
  | draining | pooled => cases hr; rfl
  | _ => cases hr

theorem Reported.rank_le (h : Reported host home report) : host.rank ≤ 3 := by
  cases h <;> simp [Host.rank, Thread.rank, Task.rank]

theorem Orphan.rank_le (h : Orphan host home v) : host.rank ≤ 19 := by
  cases h with
  | draining r | pooled r =>
    have := r.drain.rank_le
    simp [Host.rank, Thread.rank, Task.rank]
    omega
  | _ => simp [Host.rank, Thread.rank, Task.rank]

/-- Wherever a stream stands, it is not far from its end. -/
theorem Shaped.closing_le (hs : Shaped c s) : s.closing ≤ 27 := by
  have hrank : s.rank ≤ 26 := by
    have hat := hs.at_coord
    unfold Stream.rank
    cases hc : s.coord with
    | spawned | spawning | sendInit =>
      rw [hc] at hat
      simp [hat.1, Coord.rank, Host.rank, Thread.rank]
    | awaitRound =>
      rw [hc] at hat
      rcases hat with hat | ⟨report, hat, -⟩
      · have := hat.rank_le
        simp only [Coord.rank]
        omega
      · have := hat.rank_le
        simp only [Coord.rank]
        omega
    | _ =>
      rw [hc] at hat
      have := hat.1.rank_le
      simp only [Coord.rank]
      omega
  unfold Stream.closing
  split <;> omega

theorem Step.room (h : Step c p a q) : q.2.room ≤ p.2.room + a.admits := by
  cases h with
  | coordinator h => rw [h.frame]; exact Nat.le_add_right _ _
  | abort _ h => rw [h.frame]; exact Nat.le_add_right _ _
  | host h => rw [h.frame]; exact Nat.le_add_right _ _
  | @answer b s r o hh hr =>
    have hchan : s.chan.length ≤ (pullReturned c b s r o).2.1.chan.length := by
      cases hl : s.live with
      | true => simp [pullReturned_chan c b s r o hl]
      | false =>
        cases o with
        | batch batch => cases hc : c.check batch <;> simp [pullReturned, Stream.send, hc, hl]
        | error | done | panic => simp [pullReturned, Stream.send, hl]
    have hlive : (pullReturned c b s r o).2.1.live = s.live := by rw [pullReturned_frame]
    simp only [Stream.room, hlive, Action.admits]
    split <;> omega
  | pollNext => rw [Stream.pollNext_frame]; exact Nat.le_add_right _ _
  | @receive b s item rest hp hc =>
    simp only [Stream.room, hc, Action.admits, List.length_cons]
    split <;> omega
  | dropReceiver => simp [Stream.room]
  | _ => exact Nat.le_add_right _ _

/-- A stream that is closing goes on closing. -/
theorem Step.stays_closing (h : Step c p a q) (ho : p.2.Closing c) :
    q.2.Closing c := by
  rcases ho with hl | hv
  · exact .inl (h.live_eq_false hl)
  · refine .inr ?_
    rwa [h.answers, verdict_append_of_over hv]

/-- The answer of a pull takes a step, whatever it is. -/
theorem Shaped.answer_lead (hs : Shaped c s) (ha : Accounted c s) (hl : s.live = true)
    (hv : verdict c.check s.answers = .going) (hh : s.host.round = some r)
    (hr : r.drain = .inPull) (b : Budget) (o : Outcome B E) :
    Stream.work c { (pullReturned c b s r o).2.1 with
      host := s.host.setRound (pullReturned c b s r o).2.2 } + 1 ≤ s.work c := by
  have hat := hs.at_coord
  rw [hv] at hat
  obtain ⟨hc, hb⟩ := hat.busy (hs.not_over hl hv) (Host.working_of_round hh)
  have hheld : s.heldSlots = 1 := by
    obtain ⟨hcoord, hhost⟩ := hs.at_coord.tally_round hh (fun _ => 0) (fun _ => 1) (·.drain.slots)
    rw [Stream.heldSlots, hcoord, hhost, hr]
    rfl
  have hslots := ha.slots
  have hf := pullReturned_frame c b s r o
  have hgo := fun ho : o.verdict c.check = .going => pullReturned_lead (s := s) hl ho b r
  have hover := fun ho : o.verdict c.check ≠ .going => pullReturned_over ho b s r
  rw [Stream.work_of_going hl hv, hc, Coord.lead, Host.lead_of_round hh, hr]
  generalize pullReturned c b s r o = x at hf hgo hover ⊢
  obtain ⟨b₁, s₁, r₁⟩ := x
  simp only at hf hgo hover ⊢
  have hcoord : s₁.coord = .awaitRound := by rw [hf, ← hc]
  have hlive : s₁.live = true := by rw [hf, ← hl]
  have hans : verdict c.check s₁.answers = o.verdict c.check := by
    rw [hf, verdict_append_of_going hv, verdict_singleton]
  by_cases ho : o.verdict c.check = .going
  · obtain ⟨hlead, hchan⟩ := hgo ho
    have hround := Host.lead_of_round (Host.round_setRound_self hh r₁)
    rw [Stream.work_of_going (s := { s₁ with host := s.host.setRound r₁ }) hlive (hans.trans ho)]
    have hpull : Drain.inPull.lead = 12 := rfl
    simp only [hcoord, Coord.lead, hround, hlead, hchan, hpull, channelCapacity] at hslots ⊢
    omega
  · obtain ⟨hrank, hchan⟩ := hover ho
    have hsum := Host.rank_setRound hh r₁
    have hhost : s.host.rank = 7 := by rw [hb.rank_of_round hh, hr]; rfl
    rw [Stream.work_of_closing (.inr (by rwa [hans]))]
    rw [hrank, hr, Drain.rank] at hsum
    simp only [Stream.room, Stream.closing, Stream.rank, hcoord, hlive, Coord.rank, Drain.lead, if_true]
    split <;> omega

theorem ShapeAt.over_of_disposing {live : Bool} {coord : Coord}
    (hs : ShapeAt live host .disposing v coord) : coord.over = true := by
  cases coord with
  | finished | panicked | aborted => rfl
  | awaitRound => rcases hs with hs | ⟨report, hs, -⟩ <;> cases hs
  | spawned | spawning | sendInit => simp [ShapeAt] at hs
  | _ => cases hs.1

/-- A step of the runtime within a stream whose source has more brings the next pull closer. -/
theorem Step.lead (hs : Shaped c p.2) (ha : Accounted c p.2) (hq : Shaped c q.2)
    (h : Step c p a q) (hl : p.2.live = true) (hv : verdict c.check p.2.answers = .going)
    (hi : a.internal = true) : q.2.work c + 1 ≤ p.2.work c := by
  have hat := hs.at_coord
  rw [hv] at hat
  have hover := hs.not_over hl hv
  cases h with
  | coordinator h =>
    have hf := h.frame
    have hl' : q.2.live = true := by rw [hf]; exact hl
    have hv' : verdict c.check q.2.answers = .going := by rw [hf]; exact hv
    have hchan : q.2.chan = p.2.chan := by rw [hf]
    have hlead := h.lead hat hl (hq.not_over hl' hv')
    rw [Stream.work_of_going hl hv, Stream.work_of_going hl' hv', hchan]
    omega
  | abort hab h => simp [hs.aborting hab] at hl
  | host h =>
    have hf := h.frame
    have hl' : q.2.live = true := by rw [hf]; exact hl
    have hv' : verdict c.check q.2.answers = .going := by rw [hf]; exact hv
    have hchan : q.2.chan = p.2.chan := by rw [hf]
    have hlead := h.lead hat hover
    rw [Stream.work_of_going hl hv, Stream.work_of_going hl' hv', hchan]
    omega
  | @answer b s r o hh hr => exact hs.answer_lead ha hl hv hh hr b o
  | @dispose b s hd =>
    have hat' : ShapeAt s.live s.host s.home .going s.coord := hat
    rw [hd] at hat'
    cases hover.symm.trans hat'.over_of_disposing
  | _ => cases hi

/-- Every step of the runtime uses up some of the work that the consumer's steps admitted. -/
theorem Step.work (hs : Shaped c p.2) (ha : Accounted c p.2) (hq : Shaped c q.2)
    (h : Step c p a q) : q.2.work c + a.internal.toNat ≤ p.2.work c + a.admits := by
  have hroom := h.room
  by_cases ho : p.2.Closing c
  · have hle := h.closing hs ho
    rw [Stream.work_of_closing ho, Stream.work_of_closing (h.stays_closing ho)]
    omega
  · obtain ⟨hl, hv⟩ := not_or.mp ho
    have hl' : p.2.live = true := by simpa using hl
    cases hi : a.internal with
    | true =>
      have hle := h.lead hs ha hq hl' (not_not.mp hv) hi
      simp only [Bool.toNat_true]
      omega
    | false =>
      cases h with
      | coordinator | abort | host | answer | dispose => cases hi
      | pollNext => rw [Stream.pollNext_frame]; exact Nat.le_refl _
      | @receive b s item rest =>
        simp only [Stream.work, Action.admits] at hroom ⊢
        have hle : ∀ x y n : ℕ, x ≤ y + 14 → x + n + 0 ≤ y + n + 14 := by omega
        exact hle _ _ _ hroom
      | @dropReceiver b s =>
        have hle : s.closing ≤ 27 := hs.closing_le
        rw [Stream.work_of_closing (.inl rfl)]
        simp only [Stream.room, Action.admits, Bool.toNat_false, Stream.closing, Stream.rank] at hle ⊢
        simp
        omega
      | _ => exact Nat.le_refl _

/-- What the consumer has paid so far. -/
def Stream.paid (s : Stream B E) : ℕ := 14 * s.delivered.length + if s.live then 0 else 27

theorem Step.paid (h : Step c p a q) : q.2.paid = p.2.paid + a.admits := by
  cases h with
  | coordinator h => rw [h.frame]; rfl
  | abort _ h => rw [h.frame]; rfl
  | host h => rw [h.frame]; rfl
  | answer => rw [pullReturned_frame]; rfl
  | pollNext => rw [Stream.pollNext_frame]; rfl
  | receive =>
    simp [Stream.paid, Action.admits]
    omega
  | dropReceiver hl => simp [Stream.paid, Action.admits, hl]
  | _ => rfl

theorem Coord.lead_le (host : Host) (coord : Coord) : coord.lead host ≤ 25 := by
  have hunread : host.unread ≤ 1 := by
    cases host with
    | affine thread => cases thread <;> simp [Host.unread]
    | _ => simp [Host.unread]
  have hdrain (d : Drain) : d.lead ≤ 25 := by
    cases d <;> simp [Drain.lead]
  have hhost : host.lead ≤ 25 := by
    cases host with
    | unmade => simp [Host.lead]
    | affine thread mailbox =>
      cases thread with
      | draining r => exact hdrain r.drain
      | recvJob =>
        simp only [Host.lead]
        split <;> omega
      | _ => simp [Host.lead]
    | pool task =>
      cases task with
      | draining r => exact hdrain r.drain
      | _ => simp [Host.lead]
  cases coord <;> simp only [Coord.lead] <;> omega

theorem Shaped.work_le (hs : Shaped c s) : s.work c ≤ 139 := by
  have hclosing := hs.closing_le
  have hlead := Coord.lead_le s.host s.coord
  have hroom : s.room ≤ 112 := by
    simp only [Stream.room, channelCapacity]
    split <;> omega
  unfold Stream.work
  split <;> omega

/-- A stream that is over and has nothing left to do, does nothing. -/
theorem no_internal_step (hp : (component c).alone.Reachable p) (ho : p.2.Over)
    (h : p.2.closing = 0) (hi : a.internal = true) : ¬(component c).step p a q := by
  intro hs
  have hshaped := reachable_shaped hp
  have hle := (reachable_step hp hs).closing hshaped (hshaped.closing ho)
  simp [h, hi] at hle

section Process

variable {ι : Type} [DecidableEq ι] {c : ι → Config B E} {p q : Budget × (ι → Stream B E)}
  {xs : List ((Budget × (ι → Stream B E)) × (ι × Action B E))}

theorem process_work (hp : (process c).Reachable p) (h : (process c).Run p xs q) (i : ι) :
    xs.countP (fun x => decide (x.2.1 = i) && x.2.2.internal) + (q.2 i).work (c i) +
      (p.2 i).paid ≤ (p.2 i).work (c i) + (q.2 i).paid := by
  refine System.run_amortised (m := fun p => (p.2 i).work (c i)) (g := fun p => (p.2 i).paid)
    (w := fun a => decide (a.1 = i) && a.2.internal) ?_ hp h
  rintro p a q hr ⟨k, s, hs, rfl⟩
  by_cases hi : a.1 = i
  · subst hi
    have hreach := family_reachable_alone hr a.1
    have hstep : Step (c a.1) (p.1, p.2 a.1) a.2 (k, s) := reachable_step hreach hs
    have hq : (component (c a.1)).alone.Reachable (k, s) := hreach.step (a := some a.2) hs
    have hwork := hstep.work (reachable_shaped hreach) (reachable_accounted hreach)
      (reachable_shaped hq)
    have hpaid := hstep.paid
    simp only [decide_true, Bool.true_and, Function.update_self] at hwork hpaid ⊢
    omega
  · simp [hi, Ne.symm hi]

/-- The runtime never works for a stream without end: between any two moments its coordinator, its
host and its pull take a bounded number of steps for each item the consumer received in between, and
a bounded number to wind the stream up after it was dropped. -/
theorem runtime_steps_bounded (hp : (process c).Reachable p) (h : (process c).Run p xs q) (i : ι) :
    xs.countP (fun x => decide (x.2.1 = i) && x.2.2.internal) + 14 * (p.2 i).delivered.length ≤
      139 + 14 * (q.2 i).delivered.length + if (q.2 i).live then 0 else 27 := by
  have hrun := process_work hp h i
  have hle := (reachable_shaped (family_reachable_alone hp i)).work_le
  simp only [Stream.paid] at hrun hle
  split at hrun <;> omega

end Process

def onDemandIds : Config (RecordBatch String ℤ) DataFusionError :=
  ⟨checkBatchSchema idSchema, .onDemand⟩

/-- One item is read, up to the end of the source. -/
theorem runtime_steps_bounded_idRun :
    ∃ p xs, (process fun _ : Unit => onDemandIds).Run (.initial, fun _ => {}) xs p ∧
      xs.countP (fun x => decide (x.2.1 = ()) && x.2.2.internal) ≤ 153 := by
  obtain ⟨b, s, hrun, hd, hl⟩ : ∃ b s, System.replay (step onDemandIds) idRun (.initial, {}) =
      some (b, s) ∧ s.delivered.length = 1 ∧ s.live = true := ⟨_, _, rfl, rfl, rfl⟩
  obtain ⟨xs, hr⟩ : ∃ xs, (process fun _ : Unit => onDemandIds).Run (.initial, fun _ => {}) xs
      (b, Function.update (fun _ => {}) () s) :=
    family_replay (C := fun _ => component onDemandIds) (fun _ => {}) () (fun _ _ _ h => h) hrun
  have h₀ : (process fun _ : Unit => onDemandIds).start (.initial, fun _ => {}) :=
    ⟨rfl, fun _ => rfl⟩
  have hle := runtime_steps_bounded (.of_start h₀) hr ()
  refine ⟨_, xs, hr, ?_⟩
  simpa [hd, hl] using hle

end XorqDatafusion.Bridge
