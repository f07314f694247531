import XorqDatafusion.Bridge.Lossless

/-! A consumer that keeps asking an on-demand stream gets everything its source owes. -/
namespace XorqDatafusion.Bridge

open Transition

variable {B E : Type} {check : B → Except E Unit} {os : List (Outcome B E)} {o : Outcome B E}
  {b : Budget} {s : Stream B E}

def onDemand (check : B → Except E Unit) : Config B E := ⟨check, .onDemand⟩

/-- A stream on the blocking pool between two rounds, with nothing outstanding. -/
def resting (check : B → Except E Unit) (os : List (Outcome B E)) : Stream B E where
  home := .guard
  host := .pool .absent
  coord := .tryAcquire
  requests := os.length
  pulls := os.length
  answers := os
  delivered := spec check os

/-- The same stream once the next request has got as far as the pull. -/
def calling (check : B → Except E Unit) (os : List (Outcome B E)) : Stream B E :=
  { resting check os with
    polling := true
    requested := true
    slots := channelCapacity - 1
    coord := .awaitRound
    home := .task
    host := .pool (.draining
      { Round.begin .demanded with drain := .inPull, unasked := decide (os.length + 1 ≤ os.length) })
    requests := os.length + 1
    pulls := os.length + 1 }

/-- The consumer has everything these answers owe, and knows how the stream ended if it did. -/
structure Served (check : B → Except E Unit) (os : List (Outcome B E)) (s : Stream B E) : Prop where
  answers : s.answers = os
  delivered : s.delivered = spec check os
  resting : verdict check os = .going → s = resting check os
  clean : verdict check os = .ended → s.ending = some .clean

/-- A request, up to its pull. -/
def callPull : List (Action B E) :=
  [.pollNext, .coordinator false, .coordinator false, .coordinator false, .host, .host]

/-- The rest of a round, up to the consumer's next request or the end of the stream. -/
def afterPull (check : B → Except E Unit) (o : Outcome B E) : List (Action B E) :=
  match o.verdict check with
  | .going => [.host, .host, .host, .host, .coordinator false, .receive]
  | .ended => match o.items check with
    | [] => [.host, .coordinator false, .endOfStream]
    | _ => [.host, .coordinator false, .receive, .pollNext, .endOfStream]
  | .panicked _ => [.host, .coordinator false, .propagatePanic]

theorem callPull_answers : ∀ a ∈ (callPull : List (Action B E)), a.answers = [] := by
  simp [callPull, Action.answers]

theorem afterPull_answers : ∀ a ∈ afterPull check o, a.answers = [] := by
  unfold afterPull
  split
  · simp [Action.answers]
  · split <;> simp [Action.answers]
  · simp [Action.answers]

/-- With no thread permit left, the stream starts on the blocking pool. -/
theorem replay_start (n : ℕ) :
    System.replay (step (onDemand check)) [.coordinator false] (⟨n, 0⟩, {}) =
      some (⟨n, 0⟩, resting check []) := rfl

theorem replay_callPull (check : B → Except E Unit) (os : List (Outcome B E)) :
    System.replay (step (onDemand check)) callPull (b, resting check os) =
      some (b, calling check os) := rfl

theorem served_accepted {batch : B} (hg : verdict check os = .going) (hc : check batch = .ok ()) :
    ∃ s, System.replay (step (onDemand check)) (.answer (.batch batch) ::
        afterPull check (.batch batch)) (b, calling check os) = some (b, s) ∧
      Served check (os ++ [.batch batch]) s := by
  have hanswer : step (onDemand check) (.answer (.batch batch)) (b, calling check os) =
      some (b, { calling check os with
        answers := os ++ [.batch batch]
        chan := [.ok batch]
        host := .pool (.draining { Round.begin .demanded with
          drain := .sent, unasked := decide (os.length + 1 ≤ os.length) }) }) := by
    simp [step, answer, calling, resting, pullReturned, onDemand, hc, Stream.send]
  have hafter : afterPull check (.batch batch : Outcome B E) =
      [.host, .host, .host, .host, .coordinator false, .receive] := by
    simp [afterPull, Outcome.verdict, hc]
  have hspec : spec check (os ++ [.batch batch]) = spec check os ++ [.ok batch] := by
    simp [spec_append_of_going hg, spec_singleton, Outcome.items, hc]
  have hrest : resting check (os ++ [.batch batch]) = { resting check os with
      requests := os.length + 1
      pulls := os.length + 1
      answers := os ++ [.batch batch]
      delivered := spec check os ++ [.ok batch] } := by
    simp [resting, hspec]
  have hgoing : verdict check (os ++ [.batch batch]) = .going := by
    simp [verdict_append_of_going hg, verdict_singleton, Outcome.verdict, hc]
  refine ⟨resting check (os ++ [.batch batch]), ?_, rfl, rfl, fun _ => rfl, by simp [hgoing]⟩
  rw [System.replay, hanswer, hafter, hrest]
  rfl

theorem served_rejected {batch : B} {e : E} (hg : verdict check os = .going)
    (hc : check batch = .error e) :
    ∃ s, System.replay (step (onDemand check)) (.answer (.batch batch) ::
        afterPull check (.batch batch)) (b, calling check os) = some (b, s) ∧
      Served check (os ++ [.batch batch]) s := by
  have hanswer : step (onDemand check) (.answer (.batch batch)) (b, calling check os) =
      some (b, { calling check os with
        answers := os ++ [.batch batch]
        chan := [.error e]
        host := .pool (.draining { Round.begin .demanded with
          drain := .returned true, unasked := decide (os.length + 1 ≤ os.length) }) }) := by
    simp [step, answer, calling, resting, pullReturned, onDemand, hc, Stream.send, Budget.release,
      Round.begin]
  have hafter : afterPull check (.batch batch : Outcome B E) =
      [.host, .coordinator false, .receive, .pollNext, .endOfStream] := by
    simp [afterPull, Outcome.verdict, Outcome.items, hc]
  have hspec : spec check (os ++ [.batch batch]) = spec check os ++ [.error e] := by
    simp [spec_append_of_going hg, spec_singleton, Outcome.items, hc]
  have hended : verdict check (os ++ [.batch batch]) = .ended := by
    simp [verdict_append_of_going hg, verdict_singleton, Outcome.verdict, hc]
  refine ⟨_, by rw [System.replay, hanswer, hafter]; rfl, rfl, hspec.symm, by simp [hended], ?_⟩
  exact fun _ => rfl

/-- The answer to a pull, whatever it is, reaches the consumer. -/
theorem served_answer (hg : verdict check os = .going) (o : Outcome B E) :
    ∃ s, System.replay (step (onDemand check)) (.answer o :: afterPull check o)
        (b, calling check os) = some (b, s) ∧ Served check (os ++ [o]) s := by
  have hspec : spec check (os ++ [o]) = spec check os ++ o.items check := by
    rw [spec_append_of_going hg, spec_singleton]
  have hverdict : verdict check (os ++ [o]) = o.verdict check := by
    rw [verdict_append_of_going hg, verdict_singleton]
  cases o with
  | batch batch =>
    cases hc : check batch with
    | ok u => exact served_accepted hg hc
    | error e => exact served_rejected hg hc
  | error e =>
    refine ⟨_, rfl, rfl, hspec.symm, ?_, fun _ => rfl⟩
    simp [hverdict, Outcome.verdict]
  | done =>
    refine ⟨_, rfl, rfl, hspec.symm ▸ (List.append_nil _).symm, ?_, fun _ => rfl⟩
    simp [hverdict, Outcome.verdict]
  | panic payload =>
    refine ⟨_, rfl, rfl, hspec.symm ▸ (List.append_nil _).symm, ?_, ?_⟩
    · simp [hverdict, Outcome.verdict]
    · simp [hverdict, Outcome.verdict]

end XorqDatafusion.Bridge
