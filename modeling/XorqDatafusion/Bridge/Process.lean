import XorqDatafusion.Bridge.Steps
import XorqDatafusion.RecordBatch
import XorqDatafusion.Transition

/-! Streams as components over the process-wide budgets. -/
namespace XorqDatafusion.Bridge

open Transition

variable {B E : Type} {c : Config B E} {p q : Budget × Stream B E} {a : Action B E}

/-- A stream whose pull may answer anything. -/
def component (c : Config B E) : Component Budget (Stream B E) (Action B E) where
  start s := s = {}
  step p a q := step c a p = some q

/-- The calls of the closure answer what `pull` says, in turn. -/
def Answers (pull : ℕ → Outcome B E) (p : Budget × Stream B E) : Action B E → Prop
  | .answer o => o = pull p.2.answers.length
  | _ => True

instance [DecidableEq B] [DecidableEq E] {pull : ℕ → Outcome B E} :
    (a : Action B E) → Decidable (Answers pull p a)
  | .answer o => inferInstanceAs (Decidable (o = pull p.2.answers.length))
  | .pollNext | .receive | .pending | .endOfStream | .propagatePanic | .dropReceiver | .dropTasks
  | .coordinator _ | .abort | .host | .dispose => .isTrue trivial

/-- A step of a stream whose closure answers as `pull` does. -/
def answeringStep [DecidableEq B] [DecidableEq E] (c : Config B E) (pull : ℕ → Outcome B E) :
    Action B E → Budget × Stream B E → Option (Budget × Stream B E) :=
  Component.guarded (Answers pull) (step c)

/-- `spawn_channel_stream`, for a closure with these answers. -/
def spawnChannelStream {T α : Type} [DecidableEq T] [ToString T] (schema : Schema T)
    (pull : ℕ → Outcome (RecordBatch T α) DataFusionError) (readAhead : ReadAhead) :
    Component Budget (Stream (RecordBatch T α) DataFusionError)
      (Action (RecordBatch T α) DataFusionError) :=
  (component ⟨checkBatchSchema schema, readAhead⟩).restrict (Answers pull)

/-- The streams of a process, over the budgets it starts with. -/
def process {ι : Type} [DecidableEq ι] (c : ι → Config B E) :
    System (Budget × (ι → Stream B E)) (ι × Action B E) :=
  family (fun i => component (c i)) Budget.initial

theorem reachable_shaped (h : (component c).alone.Reachable p) : Shaped c p.2 := by
  refine Component.alone_invariant ?_ ?_ h
  · rintro s rfl
    exact shaped_initial
  · intro p a q hs hI
    exact (step_cases hI hs).2

/-- The stream can get wherever a list of enabled actions takes it. -/
theorem answering_run [DecidableEq B] [DecidableEq E] {pull : ℕ → Outcome B E}
    {as : List (Action B E)} (h : System.replay (answeringStep c pull) as p = some q) :
    ∃ xs, ((component c).restrict (Answers pull)).alone.Run p xs q ∧
      xs.map Prod.snd = as.map some :=
  Component.alone_replay (Component.guarded_step fun _ _ _ hs => hs) h

theorem answering_reachable [DecidableEq B] [DecidableEq E] {pull : ℕ → Outcome B E} {b : Budget}
    {as : List (Action B E)} (h : System.replay (answeringStep c pull) as (b, {}) = some q) :
    ((component c).restrict (Answers pull)).alone.Reachable q := by
  obtain ⟨xs, hr, -⟩ := answering_run h
  exact ⟨(b, {}), xs, rfl, hr⟩

/-- A reachable stream only does what is listed in `Step`. -/
theorem reachable_step (h : (component c).alone.Reachable p)
    (hs : (component c).step p a q) : Step c p a q :=
  (step_cases (reachable_shaped h) hs).1

/-- The invariant rule for one stream, whatever the others do to the budgets. -/
theorem stream_invariant {I : Stream B E → Prop} (hi : I {})
    (hp : ∀ p a q, Shaped c p.2 → Step c p a q → I p.2 → I q.2)
    (h : (component c).alone.Reachable p) : I p.2 := by
  have hI : Shaped c p.2 ∧ I p.2 := by
    refine Component.alone_invariant (I := fun s => Shaped c s ∧ I s) ?_ ?_ h
    · rintro s rfl
      exact ⟨shaped_initial, hi⟩
    · intro p a q hs hI
      obtain ⟨hstep, hq⟩ := step_cases hI.1 hs
      exact ⟨hq, hp p a q hI.1 hstep hI.2⟩
  exact hI.2

/-- The answer an action brings, if it is one. -/
def Action.answers : Action B E → List (Outcome B E)
  | .answer o => [o]
  | _ => []

theorem Step.answers (h : Step c p a q) : q.2.answers = p.2.answers ++ a.answers := by
  cases h with
  | @answer b s r o =>
    have hans : (pullReturned c b s r o).2.1.answers = s.answers ++ [o] := by
      rw [pullReturned_frame]
    exact hans
  | host h | coordinator h => rw [h.frame]; exact (List.append_nil _).symm
  | abort _ h => rw [h.frame]; exact (List.append_nil _).symm
  | pollNext => rw [Stream.pollNext_frame]; exact (List.append_nil _).symm
  | _ => exact (List.append_nil _).symm

/-- The answers so far are those of the first calls. -/
theorem answers_eq_firstCalls {pull : ℕ → Outcome B E}
    (h : ((component c).restrict (Answers pull)).alone.Reachable p) :
    p.2.answers = firstCalls pull p.2.answers.length := by
  have hI : Shaped c p.2 ∧ p.2.answers = firstCalls pull p.2.answers.length := by
    refine Component.alone_invariant
      (I := fun s => Shaped c s ∧ s.answers = firstCalls pull s.answers.length) ?_ ?_ h
    · rintro s rfl
      exact ⟨shaped_initial, rfl⟩
    · rintro ⟨b, s⟩ a ⟨b', s'⟩ ⟨hs, ha⟩ ⟨hshape, hI⟩
      obtain ⟨hstep, hq⟩ := step_cases hshape hs
      refine ⟨hq, ?_⟩
      have hans : s'.answers = s.answers ++ a.answers := hstep.answers
      cases a with
      | answer o =>
        have ho : o = pull s.answers.length := ha
        rw [hans, Action.answers, List.length_append, List.length_singleton, firstCalls_succ, ← hI, ho]
      | _ => simpa [hans, Action.answers] using hI
  exact hI.2

end XorqDatafusion.Bridge
