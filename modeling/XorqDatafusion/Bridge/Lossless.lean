import XorqDatafusion.Bridge.Accounting

/-! The stream delivers what its source answers, in order and to the end. -/
namespace XorqDatafusion.Bridge

open Transition

variable {B E : Type} {c : Config B E} {b : Budget} {s : Stream B E} {r : Round}
  {p q : Budget × Stream B E} {a : Action B E} {o : Outcome B E} {pull : ℕ → Outcome B E}
  {xs : List (Except E B)} {payload : String}

/-- `xs` is an initial part of what a source owes. -/
def Within (check : B → Except E Unit) (pull : ℕ → Outcome B E) (xs : List (Except E B)) : Prop :=
  ∃ n, xs <+: spec check (firstCalls pull n)

/-- `xs` contains everything a source owes, however often it would still be called. -/
def Complete (check : B → Except E Unit) (pull : ℕ → Outcome B E) (xs : List (Except E B)) : Prop :=
  ∀ n, spec check (firstCalls pull n) <+: xs

/-- The source panics before any other terminal answer. -/
def Panics (check : B → Except E Unit) (pull : ℕ → Outcome B E) (payload : String) : Prop :=
  ∃ n, verdict check (firstCalls pull n) = .panicked payload

/-- What reached the consumer, and what is on its way, against the answers of the source. -/
structure Lossless (c : Config B E) (s : Stream B E) : Prop where
  delivered : s.delivered <+: spec c.check s.answers
  items : s.live = true → s.delivered ++ s.chan = spec c.check s.answers
  clean : s.ending = some .clean →
    verdict c.check s.answers = .ended ∧ s.delivered = spec c.check s.answers
  panicked : ∀ payload, s.ending = some (.panicked payload) →
    verdict c.check s.answers = .panicked payload

/-- What one answer puts on the channel. -/
theorem pullReturned_chan (c : Config B E) (b : Budget) (s : Stream B E) (r : Round)
    (o : Outcome B E) (hl : s.live = true) :
    (pullReturned c b s r o).2.1.chan = s.chan ++ o.items c.check := by
  cases o with
  | batch batch => cases h : c.check batch <;> simp [pullReturned, Stream.send, Outcome.items, h, hl]
  | error e => simp [pullReturned, Stream.send, Outcome.items, hl]
  | done | panic => simp [pullReturned, Outcome.items]

theorem Lossless.answer (hI : Lossless c s) (hg : verdict c.check s.answers = .going) (r : Round)
    (o : Outcome B E) : Lossless c (pullReturned c b s r o).2.1 := by
  have hchan := pullReturned_chan c b s r o
  rw [pullReturned_frame]
  constructor
  · exact hI.delivered.trans spec_prefix_append
  · intro hl
    simp only [hchan hl]
    rw [spec_append_of_going hg, spec_singleton, ← hI.items hl, List.append_assoc]
  · intro he
    have hv := (hI.clean he).1
    simp [hg] at hv
  · intro payload he
    have hv := hI.panicked payload he
    simp [hg] at hv

/-- A round in the middle of a pull has no terminal answer behind it. -/
theorem Shaped.going_of_inPull (hs : Shaped c s) (hr : s.host.round = some r)
    (hd : r.drain = .inPull) : verdict c.check s.answers = .going :=
  (hs.at_coord.setRound hr (by simp [hd, Drain.verdict])).1

theorem Step.going (h : Step c p (.answer o) q) (hs : Shaped c p.2) :
    verdict c.check p.2.answers = .going := by
  cases h with
  | answer hh hd => exact hs.going_of_inPull hh hd

theorem Shaped.ended (hs : Shaped c s) (hc : s.coord = .finished) (hl : s.live = true) :
    verdict c.check s.answers = .ended := by
  have hat := hs.at_coord
  simp only [hc] at hat
  exact hat.2 hl

theorem Shaped.panicked (hs : Shaped c s) (hc : s.coord = .panicked payload) :
    verdict c.check s.answers = .panicked payload := by
  have hat := hs.at_coord
  simp only [hc] at hat
  exact hat.2

theorem lossless_step (hs : Shaped c p.2) (ha : Accounted c p.2) (h : Step c p a q)
    (hI : Lossless c p.2) : Lossless c q.2 := by
  cases h with
  | coordinator h => rw [h.frame]; exact ⟨hI.delivered, hI.items, hI.clean, hI.panicked⟩
  | abort _ h => rw [h.frame]; exact ⟨hI.delivered, hI.items, hI.clean, hI.panicked⟩
  | host h => rw [h.frame]; exact ⟨hI.delivered, hI.items, hI.clean, hI.panicked⟩
  | @answer b s r o hh hr =>
    have hI' := hI.answer (b := b) (hs.going_of_inPull hh hr) r o
    exact ⟨hI'.delivered, hI'.items, hI'.clean, hI'.panicked⟩
  | pollNext =>
    rw [Stream.pollNext_frame]
    exact ⟨hI.delivered, hI.items, hI.clean, hI.panicked⟩
  | @receive b s item rest hp hc =>
    have hl : s.live = true := (ha.polling hp).2
    have hitems : s.delivered ++ [item] ++ rest = spec c.check s.answers := by
      rw [← hI.items hl, hc, List.append_assoc, List.singleton_append]
    refine ⟨⟨rest, hitems⟩, fun _ => hitems, ?_, hI.panicked⟩
    intro he
    have hall := (hI.clean he).2
    simp [← hitems] at hall
  | @endOfStream b s hp hc hf =>
    have hl : s.live = true := (ha.polling hp).2
    have hall : s.delivered = spec c.check s.answers := by simpa [hc] using hI.items hl
    exact ⟨hI.delivered, hI.items, fun _ => ⟨hs.ended hf hl, hall⟩, nofun⟩
  | propagatePanic hp hc =>
    refine ⟨hI.delivered, hI.items, nofun, ?_⟩
    intro payload he
    cases he
    exact hs.panicked hc
  | dropReceiver => exact ⟨hI.delivered, nofun, hI.clean, hI.panicked⟩
  | pending | dropTasks | dispose => exact ⟨hI.delivered, hI.items, hI.clean, hI.panicked⟩

theorem lossless_initial : Lossless c ({} : Stream B E) :=
  ⟨List.nil_prefix, fun _ => rfl, nofun, nofun⟩

theorem reachable_lossless (h : (component c).alone.Reachable p) : Lossless c p.2 := by
  have hI : Accounted c p.2 ∧ Lossless c p.2 := by
    refine stream_invariant (I := fun s => Accounted c s ∧ Lossless c s)
      ⟨accounted_initial, lossless_initial⟩ ?_ h
    intro p a q hs hstep hI
    exact ⟨accounted_step hI.1 hstep, lossless_step hs hI.1 hstep hI.2⟩
  exact hI.2

/-- A source that panics never gets to another terminal answer. -/
theorem Panics.verdict_ne_ended {check : B → Except E Unit} (h : Panics check pull payload) (n : ℕ) :
    verdict check (firstCalls pull n) ≠ .ended := by
  obtain ⟨m, hm⟩ := h
  intro hn
  rcases Nat.le_total m n with hmn | hnm
  · obtain ⟨os, hos⟩ := firstCalls_prefix pull hmn
    rw [← hos, verdict_append_of_over (by simp [hm])] at hn
    simp [hm] at hn
  · obtain ⟨os, hos⟩ := firstCalls_prefix pull hnm
    rw [← hos, verdict_append_of_over (by simp [hn])] at hm
    simp [hm] at hn

section Answering

variable (h : ((component c).restrict (Answers pull)).alone.Reachable p)

include h

theorem delivered_within : Within c.check pull p.2.delivered := by
  have hI := (reachable_lossless (Component.alone_reachable_of_restrict h)).delivered
  rw [answers_eq_firstCalls h] at hI
  exact ⟨_, hI⟩

theorem complete_of_clean (he : p.2.ending = some .clean) :
    Complete c.check pull p.2.delivered := by
  obtain ⟨hv, hall⟩ := (reachable_lossless (Component.alone_reachable_of_restrict h)).clean he
  rw [answers_eq_firstCalls h] at hv hall
  rw [hall]
  exact spec_prefix_of_over (by simp [hv])

theorem not_clean_of_panics (hp : Panics c.check pull payload) : p.2.ending ≠ some .clean := by
  intro he
  have hv := ((reachable_lossless (Component.alone_reachable_of_restrict h)).clean he).1
  rw [answers_eq_firstCalls h] at hv
  exact hp.verdict_ne_ended _ hv

theorem panics_of_ending (he : p.2.ending = some (.panicked payload)) :
    Panics c.check pull payload := by
  have hv := (reachable_lossless (Component.alone_reachable_of_restrict h)).panicked payload he
  rw [answers_eq_firstCalls h] at hv
  exact ⟨_, hv⟩

end Answering

/-- `PullHost::round` finds the pull thread gone: it has a job to hand over and the thread has left,
or it waits for a report and the thread dropped it. -/
def ThreadGone (s : Stream B E) : Prop :=
  ∃ mailbox done, (∃ credit, s.coord = .dispatch credit ∧ s.host = .affine .exited mailbox done) ∨
    (s.coord = .awaitRound ∧ ∃ thread, s.host = .affine thread mailbox .closed)

theorem Shaped.not_threadGone (hs : Shaped c s) : ¬ThreadGone s := by
  rintro ⟨mailbox, done, ⟨credit, hc, hh⟩ | ⟨hc, thread, hh⟩⟩
  · have hat := hs.at_coord
    simp only [hc, hh] at hat
    cases hat.1
  · have hat := hs.at_coord
    simp only [hc, hh] at hat
    rcases hat with hat | ⟨report, hat, -⟩ <;> cases hat

/-- Whatever the host and the interleaving, the consumer gets an initial part of what the source
owes; a clean end comes after all of it, and never out of a panic or a missing pull thread. -/
theorem stream_lossless_and_ordered {T α : Type} [DecidableEq T] [ToString T] (schema : Schema T)
    (pull : ℕ → Outcome (RecordBatch T α) DataFusionError) (readAhead : ReadAhead)
    {p : Budget × Stream (RecordBatch T α) DataFusionError}
    (h : (spawnChannelStream schema pull readAhead).alone.Reachable p) :
    Within (checkBatchSchema schema) pull p.2.delivered ∧
      (p.2.ending = some .clean → Complete (checkBatchSchema schema) pull p.2.delivered) ∧
      (∀ payload, Panics (checkBatchSchema schema) pull payload → p.2.ending ≠ some .clean) ∧
      ¬ThreadGone p.2 :=
  ⟨delivered_within h, complete_of_clean h, fun _ => not_clean_of_panics h,
    (reachable_shaped (Component.alone_reachable_of_restrict h)).not_threadGone⟩

/-- A one-column source: one batch, then the end. -/
def idSchema : Schema String := ⟨[⟨"id", "Int64", true, []⟩], []⟩

def idBatch (values : List ℤ) : RecordBatch String ℤ :=
  ⟨idSchema, [⟨"Int64", values⟩], values.length, rfl, by simp⟩

def idPull : ℕ → Outcome (RecordBatch String ℤ) DataFusionError
  | 0 => .batch (idBatch [1, 2])
  | _ => .done

/-- A round the consumer asks for, up to the answer of its pull. -/
def requestedRound (o : Outcome B E) : List (Action B E) :=
  [.pollNext, .coordinator true, .coordinator true, .coordinator true, .host, .host, .answer o]

/-- On a dedicated thread, the consumer reads the source to its end. -/
def idRun : List (Action (RecordBatch String ℤ) DataFusionError) :=
  [.coordinator true, .coordinator true, .coordinator true, .host] ++ requestedRound (idPull 0) ++
    [.host, .host, .host, .host, .host, .coordinator true, .receive] ++ requestedRound (idPull 1) ++
    [.host, .host, .coordinator true, .endOfStream]

theorem stream_lossless_and_ordered_idPull :
    ∃ p, (spawnChannelStream idSchema idPull .onDemand).alone.Reachable p ∧
      p.2.ending = some .clean ∧ Complete (checkBatchSchema idSchema) idPull p.2.delivered := by
  obtain ⟨p, hrun, he⟩ : ∃ p, System.replay
      (answeringStep ⟨checkBatchSchema idSchema, .onDemand⟩ idPull) idRun (.initial, {}) = some p ∧
      p.2.ending = some .clean := ⟨_, rfl, rfl⟩
  have hp := answering_reachable hrun
  exact ⟨p, hp, he, (stream_lossless_and_ordered _ _ _ hp).2.1 he⟩

end XorqDatafusion.Bridge
