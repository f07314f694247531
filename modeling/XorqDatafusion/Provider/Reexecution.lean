import XorqDatafusion.Provider.Readers

/-! Several executions of one plan, which share its reader. -/
namespace XorqDatafusion.Provider

open Bridge Transition

variable {T α W I B E : Type} {check : B → Except E Unit} {os : List (Outcome B E)}

/-- Batches that pass the check, and then `None`. -/
def Exhausted (check : B → Except E Unit) (os : List (Outcome B E)) : Prop :=
  ∃ bs : List B, os = bs.map .batch ++ [.done] ∧ ∀ b ∈ bs, check b = .ok ()

theorem spec_exhausted {bs : List B} (hbs : ∀ b ∈ bs, check b = .ok ()) :
    spec check (bs.map .batch ++ [.done]) = bs.map .ok := by
  simp [spec_batches hbs, spec_singleton, Outcome.items]

theorem verdict_exhausted {bs : List B} (hbs : ∀ b ∈ bs, check b = .ok ()) :
    verdict check (bs.map .batch ++ [.done]) = .ended := by
  simp [verdict_batches hbs, verdict_singleton, Outcome.verdict]

/-- The consumer has seen the end of the stream, and no error before. -/
structure Execution.EndsCleanly (e : Execution T α I) : Prop where
  ending : e.stream.ending = some .clean
  items : ∀ error, .error error ∉ e.stream.delivered

/-- What a plan shows of a batch of its reader. -/
def IbisTableExec.shown (exec : IbisTableExec T α W I) (batch : RecordBatch T α) :
    Outcome (RecordBatch T α) DataFusionError :=
  exec.keep (some (.ok batch))

/-- The whole scan: all that the reader held when it was handed over, as the plan shows it. -/
def IbisTableExec.Whole (exec : IbisTableExec T α W I) (w : W)
    (xs : List (Except DataFusionError (RecordBatch T α))) : Prop :=
  ∃ fresh kept : List (RecordBatch T α), exec.recordBatchReader.Holds w fresh ∧
    fresh.map exec.shown = kept.map .batch ∧ xs = kept.map .ok

theorem eq_none_of_keep {exec : IbisTableExec T α W I} {g : Given T α} (h : exec.keep g = .done) :
    g = none := by
  unfold IbisTableExec.keep at h
  split at h
  · rfl
  · cases h
  · split at h
    · cases h
    · split at h <;> cases h

/-- Answers that come to `None` after batches alone come of a loop that was given as many. -/
theorem given_of_answers {exec : IbisTableExec T α W I} {gs : List (Given T α)}
    {bs : List (RecordBatch T α)} (h : gs.map exec.keep = bs.map .batch ++ [.done]) :
    ∃ held : List (RecordBatch T α),
      gs = held.map (some ∘ .ok) ++ [none] ∧ held.map exec.shown = bs.map .batch := by
  induction bs generalizing gs with
  | nil =>
    obtain ⟨g, rfl, hg⟩ := List.map_eq_singleton_iff.mp h
    obtain rfl := eq_none_of_keep hg
    exact ⟨[], rfl, rfl⟩
  | cons b bs ih =>
    obtain ⟨g, gs, rfl, hg, hrest⟩ := List.map_eq_cons_iff.mp h
    obtain ⟨held, rfl, hheld⟩ := ih hrest
    match g with
    | none => cases hg
    | some (.error e) => cases hg
    | some (.ok batch) =>
      refine ⟨batch :: held, rfl, ?_⟩
      rw [List.map_cons, List.map_cons, hheld]
      exact congrArg (· :: _) hg

variable [DecidableEq T] [ToString T] {exec : IbisTableExec T α W I} {ι : Type} [DecidableEq ι]
  {w : W}

/-- The batches a plan wants, as it shows them. -/
theorem kept_of_wants {held : List (RecordBatch T α)}
    (h : ∀ b ∈ held, exec.Wants (some (.ok b))) :
    ∃ kept : List (RecordBatch T α), held.map exec.shown = kept.map .batch ∧
      ∀ k ∈ kept, exec.check k = .ok () := by
  induction held with
  | nil => exact ⟨[], rfl, by simp⟩
  | cons b held ih =>
    obtain ⟨⟨k, hk, hc⟩, hheld⟩ := List.forall_mem_cons.mp h
    obtain ⟨kept, hkept, hchecks⟩ := ih hheld
    refine ⟨k :: kept, ?_, List.forall_mem_cons.mpr ⟨hc, hchecks⟩⟩
    rw [List.map_cons, List.map_cons, hkept]
    exact congrArg (· :: _) hk

/-- However loops over the reader interleave, one that comes to the end of it has been given what the
fresh reader holds, as far as the plan shows it. -/
def IbisTableExec.Reiterable (exec : IbisTableExec T α W I) (ι : Type) [DecidableEq ι] (w : W) :
    Prop :=
  exec.recordBatchReader.Reiterable exec.Wants exec.shown ι w

/-- No execution pulls after an answer that ends its stream. -/
theorem reading_going {p : W × Reading T α I} (h : exec.reading.alone.Reachable p)
    {os : List (Outcome (RecordBatch T α) DataFusionError)}
    {o : Outcome (RecordBatch T α) DataFusionError} (hp : p.2.answers = os ++ [o]) :
    verdict exec.check os = .going := by
  revert os o
  refine Component.alone_invariant
    (I := fun r : Reading T α I => ∀ {os o}, r.answers = os ++ [o] → verdict exec.check os = .going)
    ?_ ?_ h
  · rintro r rfl os o hr
    simp at hr
  · rintro p o q ⟨hg, -, hans⟩ - os o' hq
    rw [hans] at hq
    obtain ⟨rfl, -⟩ := List.append_inj' hq rfl
    exact hg

theorem exhausted_of_ended {p : W × Reading T α I} (h : exec.reading.alone.Reachable p)
    (hv : verdict exec.check p.2.answers = .ended)
    (he : ∀ e, .error e ∉ spec exec.check p.2.answers) : Exhausted exec.check p.2.answers := by
  obtain ⟨bs, ps, hans, hbs, hps⟩ := exists_batches he
  rw [hans, verdict_batches hbs] at hv
  cases ps with
  | nil => simp [verdict] at hv
  | cons o ps =>
    rcases hps o rfl with rfl | ⟨payload, rfl⟩
    · rcases List.eq_nil_or_concat ps with rfl | ⟨qs, o, rfl⟩
      · exact ⟨bs, hans, hbs⟩
      · have hcat : p.2.answers = (bs.map .batch ++ .done :: qs) ++ [o] := by simp [hans]
        have hg := reading_going h hcat
        simp [verdict_batches hbs, verdict, Outcome.verdict] at hg
    · simp [verdict, Outcome.verdict] at hv

/-- A clean end comes after an exhausted iterator. -/
theorem Execution.EndsCleanly.exhausted {q : W × (ι → Execution T α I)}
    (h : (exec.executions ι w).Reachable q) {i : ι} (he : (q.2 i).EndsCleanly) :
    Exhausted exec.check (q.2 i).stream.answers ∧
      (q.2 i).stream.delivered = spec exec.check (q.2 i).stream.answers := by
  obtain ⟨hv, hall⟩ := (execution_lossless (family_reachable_alone h i)).clean he.ending
  have hr := family_reachable_alone (reading_of_execution h) i
  exact ⟨exhausted_of_ended hr hv fun e hm => he.items e (hall ▸ hm), hall⟩

/-- A loop that has come to the end is one of an execution that ends cleanly. -/
theorem exists_endsCleanly {v : W × (ι → Visit T α I)} (hv : (exec.visits ι w).Reachable v) {i : ι}
    {held : List (RecordBatch T α)} (hgiven : (v.2 i).given = held.map (some ∘ .ok) ++ [none]) :
    ∃ q, (exec.executions ι w).Reachable q ∧ (q.2 i).EndsCleanly ∧
      ∃ kept : List (RecordBatch T α), held.map exec.shown = kept.map .batch ∧
        (q.2 i).stream.delivered = kept.map .ok := by
  have hwanted := visit_wanted (family_reachable_alone hv i)
  rw [hgiven, List.dropLast_concat] at hwanted
  obtain ⟨kept, hkept, hchecks⟩ := kept_of_wants fun b hb => hwanted _ (List.mem_map_of_mem hb)
  obtain ⟨es, hes, hcaught⟩ := execution_of_visit hv
  have hanswers : (v.2 i).given.map exec.keep = kept.map .batch ++ [.done] := by
    rw [hgiven, List.map_append, List.map_map, ← hkept]
    rfl
  have hdel : (es i).stream.delivered = kept.map .ok := by
    rw [(hcaught i).delivered, hanswers, spec_exhausted hchecks]
  have hend : (es i).stream.ending = some .clean :=
    (hcaught i).clean (by rw [hanswers, verdict_exhausted hchecks])
  exact ⟨_, hes, ⟨hend, by simp [hdel]⟩, kept, hkept, hdel⟩

/-- A single-use reader with one batch, behind a table. -/
def idTable : TableProvider ℤ String ℤ (List (RecordBatch String ℤ)) Unit :=
  .python ⟨⟨.ok idSchema, fun _ => .ok (singleUse idSchema, [idBatch [1, 2]])⟩, idSchema⟩

end XorqDatafusion.Provider
