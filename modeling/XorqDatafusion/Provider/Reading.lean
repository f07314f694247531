import XorqDatafusion.Provider.Exec

/-! What the executions of one plan ask of their reader, without their streams. -/
namespace XorqDatafusion.Provider

open Bridge Transition

variable {T α W I : Type}

/-- An execution reduced to its iterator and the answers of its pulls. -/
structure Reading (T α I : Type) where
  iter : Option I
  answers : List (Outcome (RecordBatch T α) DataFusionError)

def Execution.reading (e : Execution T α I) : Reading T α I := ⟨e.iter, e.stream.answers⟩

section

variable [DecidableEq T] [ToString T]

/-- It pulls until an answer ends the stream. -/
def IbisTableExec.reading (exec : IbisTableExec T α W I) :
    Component W (Reading T α I) (Outcome (RecordBatch T α) DataFusionError) where
  start r := r = ⟨none, []⟩
  step p o q := verdict exec.check p.2.answers = .going ∧
    exec.pull p.2.iter p.1 = (o, q.2.iter, q.1) ∧ q.2.answers = p.2.answers ++ [o]

/-- The pulls of all executions of a plan, in any order. -/
def IbisTableExec.readings (exec : IbisTableExec T α W I) (ι : Type) [DecidableEq ι] (w : W) :
    System (W × (ι → Reading T α I)) (ι × Outcome (RecordBatch T α) DataFusionError) :=
  family (fun _ : ι => exec.reading) w

end

variable [DecidableEq T] [ToString T] {exec : IbisTableExec T α W I} {ι : Type} [DecidableEq ι]
  {w w' : W} {e : Execution T α I} {v : Budget × Bridge.Stream (RecordBatch T α) DataFusionError}

theorem execution_reachable {p : W × Execution T α I} (h : exec.execute.alone.Reachable p) :
    (component (onDemand exec.check)).alone.Reachable p.2.view := by
  refine Component.alone_invariant
    (I := fun e : Execution T α I => (component (onDemand exec.check)).alone.Reachable e.view) ?_ ?_ h
  · intro e he
    exact .of_start he.2
  · intro p a q hs hr
    exact hr.step hs.1

/-- What an execution has delivered is part of what its answers owe, and all of it when it ends. -/
theorem execution_lossless {p : W × Execution T α I} (h : exec.execute.alone.Reachable p) :
    Lossless (onDemand exec.check) p.2.stream :=
  reachable_lossless (execution_reachable h)

/-- A step of an execution is either a pull or of no concern to the reader. -/
theorem execute_step {p q : W × Execution T α I}
    {a : Option (Action (RecordBatch T α) DataFusionError)} (h : exec.execute.step p a q)
    (hr : (component (onDemand exec.check)).alone.Reachable p.2.view) :
    (q.1, q.2.reading) = (p.1, p.2.reading) ∨
      ∃ o, exec.reading.step (p.1, p.2.reading) o (q.1, q.2.reading) := by
  obtain ⟨w, iter, b, s⟩ := p
  obtain ⟨w', iter', b', s'⟩ := q
  obtain ⟨hstep, hpull⟩ := h
  cases a with
  | none =>
    left
    obtain rfl : s' = s := hstep
    cases hpull
    rfl
  | some a =>
    have hs : Step (onDemand exec.check) (b, s) a (b', s') := reachable_step hr hstep
    have hans : s'.answers = s.answers ++ a.answers := hs.answers
    cases a with
    | answer o => exact .inr ⟨o, hs.going (reachable_shaped hr), hpull, hans⟩
    | _ =>
      left
      have hsame : s'.answers = s.answers := hans.trans (List.append_nil _)
      cases hpull
      simp [Execution.reading, Execution.stream, hsame]

/-- The streams add nothing to what their pulls see. -/
theorem reading_of_execution {q : W × (ι → Execution T α I)}
    (h : (exec.executions ι w).Reachable q) :
    (exec.readings ι w).Reachable (q.1, fun i => (q.2 i).reading) := by
  have hsim : ∃ rs, (exec.readings ι w).Reachable (q.1, rs) ∧ ∀ i, rs i = (q.2 i).reading := by
    refine family_simulated (R := fun _ e r => r = e.reading) ?_ ?_ h
    · rintro - ⟨iter, view⟩ ⟨rfl, hs⟩
      exact ⟨_, rfl, by rw [Execution.reading, hs]⟩
    · rintro - p a q _ hp hstep rfl
      rcases execute_step hstep (execution_reachable hp) with heq | ⟨o, ho⟩
      · exact ⟨[], _, by rw [heq]; exact .refl _, rfl⟩
      · exact ⟨_, _, System.Run.single ho, rfl⟩
  obtain ⟨rs, hr, hR⟩ := hsim
  obtain rfl : rs = fun i => (q.2 i).reading := funext hR
  exact hr

/-- An execution on the blocking pool whose consumer has got everything its pulls have brought. -/
structure CaughtUp (exec : IbisTableExec T α W I) (r : Reading T α I) (e : Execution T α I) :
    Prop where
  iter : e.iter = r.iter
  budget : e.view.1 = ⟨0, 0⟩
  stream : r.answers = [] ∧ e.stream = {} ∨ Served exec.check r.answers e.stream

theorem CaughtUp.answers {r : Reading T α I} (h : CaughtUp exec r e) :
    e.stream.answers = r.answers := by
  rcases h.stream with ⟨hans, hs⟩ | hs
  · rw [hans, hs]
  · exact hs.answers

theorem CaughtUp.delivered {r : Reading T α I} (h : CaughtUp exec r e) :
    e.stream.delivered = spec exec.check r.answers := by
  rcases h.stream with ⟨hans, hs⟩ | hs
  · rw [hans, hs]
    rfl
  · exact hs.delivered

theorem CaughtUp.clean {r : Reading T α I} (h : CaughtUp exec r e)
    (hv : verdict exec.check r.answers = .ended) : e.stream.ending = some .clean := by
  rcases h.stream with ⟨hans, -⟩ | hs
  · simp [hans, verdict] at hv
  · exact hs.clean hv

/-- Between pulls the reader is left alone. -/
theorem execute_replay {as : List (Action (RecordBatch T α) DataFusionError)}
    (has : ∀ a ∈ as, a.answers = [])
    (h : System.replay (step (onDemand exec.check)) as e.view = some v) :
    ∃ xs, exec.execute.solo.Run (w, e) xs (w, { e with view := v }) := by
  induction as generalizing e with
  | nil =>
    cases h
    exact ⟨[], .refl _⟩
  | cons a as ih =>
    obtain ⟨ha, has⟩ := List.forall_mem_cons.mp has
    obtain ⟨v', hv, hr⟩ := Option.bind_eq_some_iff.mp h
    obtain ⟨xs, hx⟩ := ih (e := { e with view := v' }) has hr
    have hstep : exec.execute.step (w, e) (some a) (w, { e with view := v' }) := by
      refine ⟨hv, ?_⟩
      cases a with
      | answer o => cases ha
      | _ => rfl
    exact ⟨_, .stepL hstep hx⟩

theorem CaughtUp.resting {r : Reading T α I} (h : CaughtUp exec r e)
    (hg : verdict exec.check r.answers = .going) :
    ∃ xs, exec.execute.solo.Run (w, e) xs
      (w, ⟨r.iter, ⟨0, 0⟩, Bridge.resting exec.check r.answers⟩) := by
  obtain ⟨iter, b, s⟩ := e
  obtain ⟨rfl, rfl, hs⟩ := h
  rcases hs with ⟨hans, rfl⟩ | hs
  · rw [hans]
    exact execute_replay (by simp [Action.answers]) (replay_start 0)
  · obtain rfl := hs.resting hg
    exact ⟨[], .refl _⟩

/-- The next pull brings its answer all the way to the consumer. -/
theorem CaughtUp.pull {r r' : Reading T α I} {o : Outcome (RecordBatch T α) DataFusionError}
    (h : CaughtUp exec r e) (hr : exec.reading.step (w, r) o (w', r')) :
    ∃ xs e', exec.execute.solo.Run (w, e) xs (w', e') ∧ CaughtUp exec r' e' := by
  obtain ⟨hg, hpull, hans⟩ := hr
  obtain ⟨xs, hx⟩ := h.resting (w := w) hg
  obtain ⟨ys, hy⟩ := execute_replay (w := w) (e := ⟨r.iter, ⟨0, 0⟩, _⟩) callPull_answers
    (replay_callPull exec.check r.answers)
  obtain ⟨s, hserve, hserved⟩ := served_answer (b := ⟨0, 0⟩) hg o
  obtain ⟨v, hs, hs'⟩ := Option.bind_eq_some_iff.mp hserve
  have hanswer : exec.execute.step (w, ⟨r.iter, ⟨0, 0⟩, calling exec.check r.answers⟩)
      (some (.answer o)) (w', ⟨r'.iter, v⟩) := ⟨hs, hpull⟩
  obtain ⟨zs, hz⟩ := execute_replay (w := w') (e := ⟨r'.iter, v⟩) afterPull_answers hs'
  refine ⟨_, _, (hx.append hy).append (.stepL hanswer hz), rfl, rfl, .inr ?_⟩
  rw [hans]
  exact hserved

/-- Whatever order of pulls there is, there are executions that pull in it, with consumers that get
all of it. -/
theorem execution_of_reading {r : W × (ι → Reading T α I)} (h : (exec.readings ι w).Reachable r) :
    ∃ es, (exec.executions ι w).Reachable (r.1, es) ∧ ∀ i, CaughtUp exec (r.2 i) (es i) := by
  refine family_simulated (R := fun _ r e => CaughtUp exec r e) ?_ ?_ h
  · rintro - r rfl
    exact ⟨⟨none, ⟨0, 0⟩, {}⟩, ⟨rfl, rfl⟩, rfl, rfl, .inl ⟨rfl, rfl⟩⟩
  · rintro - ⟨w, r⟩ o ⟨w', r'⟩ e - hstep hc
    exact hc.pull hstep

end XorqDatafusion.Provider
