import XorqDatafusion.Provider.Visits

/-! Which columns a scan delivers: those of the reader's schema, not those of the registered one. -/
namespace XorqDatafusion.Provider

open Bridge XorqDatafusion.Filter Transition

variable {F T α W I : Type} {provider : TableProvider F T α W I} {projection : Option (List ℕ)}
  {filters : List (Expr F)} {exec : IbisTableExec T α W I} {w : W}

variable [DecidableEq T] [ToString T] {ι : Type} [DecidableEq ι]

/-- Every batch that any execution delivers has the names and types of the registered schema at the
projection. -/
def ColumnsRegistered (provider : TableProvider F T α W I) (projection : Option (List ℕ))
    (filters : List (Expr F)) (ι : Type) [DecidableEq ι] : Prop :=
  ∀ exec w s, provider.scan projection filters = .ok (exec, w) →
    projectSchema provider.schema projection = .ok s →
    ∀ q, (exec.executions ι w).Reachable q → ∀ i batch, .ok batch ∈ (q.2 i).stream.delivered →
      batch.schema.signature = s.signature

/-- In some order of the turns, a loop over the reader is given a batch of the reader's own schema. -/
def IbisTableExec.Yields (exec : IbisTableExec T α W I) (ι : Type) [DecidableEq ι] (w : W) : Prop :=
  ∃ v, (exec.visits ι w).Reachable v ∧ ∃ i, ∃ g ∈ (v.2 i).given, exec.Wants g

omit [DecidableEq T] [ToString T] in
theorem IbisTableExec.schema_eq {declared r : Schema T}
    (hd : exec.recordBatchReader.schema = .ok declared)
    (hr : projectSchema declared exec.projection = .ok r) : exec.schema = r := by
  obtain ⟨declared', hd', hr'⟩ := exec.projected
  cases hd.symm.trans hd'
  cases hr.symm.trans hr'
  rfl

theorem signature_of_check {batch : RecordBatch T α} (h : exec.check batch = .ok ()) :
    batch.schema.signature = exec.schema.signature :=
  (checkBatchSchema_eq_ok_iff.mp h).symm

/-- A batch with the names and types the reader declares is never rejected. -/
theorem keep_declared {declared : Schema T} (hd : exec.recordBatchReader.schema = .ok declared)
    {batch : RecordBatch T α} (hb : batch.schema.signature = declared.signature) :
    ∃ kept, exec.keep (some (.ok batch)) = .batch kept ∧ exec.check kept = .ok () := by
  obtain ⟨reader, schema, projection, declared', hd', hs⟩ := exec
  cases hd.symm.trans hd'
  cases projection with
  | none =>
    cases hs
    exact ⟨batch, rfl, checkBatchSchema_eq_ok_iff.mpr hb.symm⟩
  | some indices =>
    have hproject : declared.project indices = .ok schema := hs
    have hlen : declared.fields.length = batch.schema.fields.length := by
      simpa [Schema.signature] using (congrArg List.length hb).symm
    obtain ⟨fields, hf⟩ := pick_ok_of_length (Schema.project_eq_ok_iff.mp hproject).1 hlen
    have hbatch : batch.schema.project indices = .ok { batch.schema with fields } :=
      Schema.project_eq_ok_iff.mpr ⟨hf, rfl⟩
    obtain ⟨kept, hkept⟩ := RecordBatch.project_ok hbatch
    refine ⟨kept, by simp [IbisTableExec.keep, hkept], checkBatchSchema_eq_ok_iff.mpr ?_⟩
    have hpick := Schema.signature_project (RecordBatch.project_schema hkept).1
    rw [hb, Schema.signature_project hproject] at hpick
    exact Except.ok.inj hpick

/-- A delivered batch passed the check, against the reader's schema. -/
theorem check_of_delivered {q : W × (ι → Execution T α I)} (h : (exec.executions ι w).Reachable q)
    {i : ι} {batch : RecordBatch T α} (hb : .ok batch ∈ (q.2 i).stream.delivered) :
    exec.check batch = .ok () :=
  check_of_mem_spec ((execution_lossless (family_reachable_alone h i)).delivered.subset hb)

/-- A batch is delivered in some run if and only if the reader gives one that the plan wants. -/
theorem yields_iff : exec.Yields ι w ↔
    ∃ q, (exec.executions ι w).Reachable q ∧ ∃ i batch, .ok batch ∈ (q.2 i).stream.delivered := by
  constructor
  · rintro ⟨v, hv, i, g, hg, kept, hk, hc⟩
    obtain ⟨es, hes, hcaught⟩ := execution_of_visit hv
    refine ⟨_, hes, i, kept, ?_⟩
    rw [(hcaught i).delivered]
    exact (ok_mem_spec_keep (visit_wanted (family_reachable_alone hv i))).mpr ⟨hc, g, hg, hk⟩
  · rintro ⟨q, hq, i, batch, hb⟩
    obtain ⟨vs, hvs, hfollows⟩ := visit_of_execution hq
    have hspec := (execution_lossless (family_reachable_alone hq i)).delivered.subset hb
    have hwanted := visit_wanted (family_reachable_alone hvs i)
    rw [show (q.2 i).stream.answers = (vs i).given.map exec.keep from (hfollows i).answers] at hspec
    obtain ⟨hc, g, hg, hk⟩ := (ok_mem_spec_keep hwanted).mp hspec
    exact ⟨_, hvs, i, g, hg, batch, hk, hc⟩

theorem columns_registered_iff :
    ColumnsRegistered provider projection filters ι ↔
      ∀ exec w declared r s, provider.scan projection filters = .ok (exec, w) →
        exec.recordBatchReader.schema = .ok declared → projectSchema declared projection = .ok r →
        projectSchema provider.schema projection = .ok s →
        r.signature = s.signature ∨ ¬exec.Yields ι w := by
  constructor
  · intro h exec w declared r s hscan hd hr hs
    rw [or_iff_not_imp_right, not_not]
    intro hyields
    obtain ⟨q, hq, i, batch, hb⟩ := yields_iff.mp hyields
    rw [← h exec w s hscan hs q hq i batch hb, signature_of_check (check_of_delivered hq hb)]
    rw [← (scan_eq_ok_iff.mp hscan).2] at hr
    rw [exec.schema_eq hd hr]
  · intro h exec w s hscan hs q hq i batch hb
    obtain ⟨declared, hd, hr⟩ := exec.projected
    have hr' := hr
    rw [(scan_eq_ok_iff.mp hscan).2] at hr'
    rcases h exec w declared _ s hscan hd hr' hs with hsig | hyields
    · rw [signature_of_check (check_of_delivered hq hb), hsig]
    · exact absurd (yields_iff.mpr ⟨q, hq, i, batch, hb⟩) hyields

/-- A table registered with the columns `a` and `b`, whose reader has them the other way round. -/
def integers (names : List String) : Schema String :=
  ⟨names.map fun name => ⟨name, "Int64", true, []⟩, []⟩

def swappedBatch : RecordBatch String ℤ :=
  ⟨integers ["b", "a"], [⟨"Int64", [2]⟩, ⟨"Int64", [1]⟩], 1, rfl, by simp⟩

def swapped : TableProvider ℤ String ℤ (List (RecordBatch String ℤ)) Unit :=
  .python ⟨⟨.ok (integers ["a", "b"]),
    fun _ => .ok (singleUse swappedBatch.schema, [swappedBatch])⟩, integers ["a", "b"]⟩

/-- Asked for column `a`, the scan delivers the values of `b`, and no error. -/
theorem scan_delivers_other_column :
    ∃ exec w q, swapped.scan (some [0]) [] = .ok (exec, w) ∧
      (exec.executions Unit w).Reachable q ∧
      projectSchema swapped.schema (some [0]) = .ok (integers ["a"]) ∧
      ∃ batch, .ok batch ∈ (q.2 ()).stream.delivered ∧
        batch.schema.signature = [("b", "Int64")] ∧ batch.columns = [⟨"Int64", [2]⟩] := by
  let exec : IbisTableExec String ℤ (List (RecordBatch String ℤ)) Unit :=
    ⟨singleUse swappedBatch.schema, integers ["b"], some [0], swappedBatch.schema, rfl, rfl⟩
  let batch : RecordBatch String ℤ := ⟨integers ["b"], [⟨"Int64", [2]⟩], 1, rfl, by simp⟩
  have hstep : (exec.visits Unit [swappedBatch]).step ([swappedBatch], fun _ => ⟨none, []⟩)
      ((), some (.ok swappedBatch)) ([], Function.update _ () ⟨some (), [some (.ok swappedBatch)]⟩) :=
    ⟨[], _, ⟨by simp, rfl, rfl⟩, rfl⟩
  obtain ⟨es, hes, hcaught⟩ := execution_of_visit ((visits_start _ _ _ _).step hstep)
  refine ⟨exec, _, _, scan_eq_ok_iff.mpr ⟨rfl, rfl⟩, hes, rfl, batch, ?_, rfl, rfl⟩
  rw [(hcaught ()).delivered]
  decide

end XorqDatafusion.Provider
