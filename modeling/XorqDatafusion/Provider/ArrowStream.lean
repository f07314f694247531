import XorqDatafusion.Provider.Reexecution

/-! Tables over a Python object with an Arrow C stream: each execution asks the object for a stream of
its own. -/
namespace XorqDatafusion.Provider

open Bridge Transition

variable {T α W I : Type}

/-- A Python object with `__arrow_c_stream__`. `W` is what all its streams share, `I` tells them
apart. -/
structure ArrowStreamObject (T α W I : Type) where
  arrowCStream : W → Except PyErr I × W
  getNext : I → W → Option (Except String (RecordBatch T α)) × W

structure PyArrowStreamPartition (T α W I : Type) where
  pyObject : ArrowStreamObject T α W I
  schema : Schema T

/-- What a stream gives for its next batch, the text of an Arrow error included. -/
def arrowOutcome : Option (Except String (RecordBatch T α)) →
    Outcome (RecordBatch T α) DataFusionError
  | some (.ok batch) => .batch batch
  | some (.error e) => .error (.arrow e)
  | none => .done

namespace PyArrowStreamPartition

/-- One call of the closure, which acquires its reader on the first. -/
def pull (partition : PyArrowStreamPartition T α W I) (reader : Option I) (w : W) :
    Outcome (RecordBatch T α) DataFusionError × Option I × W :=
  match reader with
  | some r =>
    let (res, w) := partition.pyObject.getNext r w
    (arrowOutcome res, some r, w)
  | none => match partition.pyObject.arrowCStream w with
    | (.error e, w) => (.error (.external e), none, w)
    | (.ok r, w) =>
      let (res, w) := partition.pyObject.getNext r w
      (arrowOutcome res, some r, w)

variable [DecidableEq T] [ToString T]

def config (partition : PyArrowStreamPartition T α W I) : Config (RecordBatch T α) DataFusionError :=
  ⟨checkBatchSchema partition.schema, .buffered⟩

/-- `execute`: a stream that reads ahead, its pulls going to the object the partition holds. -/
def execute (partition : PyArrowStreamPartition T α W I) :
    Component W (Execution T α I) (Option (Action (RecordBatch T α) DataFusionError)) where
  start e := e.iter = none ∧ e.stream = {}
  step p a q := (component partition.config).alone.step p.2.view a q.2.view ∧
    match a with
    | some (.answer o) => partition.pull p.2.iter p.1 = (o, q.2.iter, q.1)
    | _ => (q.2.iter, q.1) = (p.2.iter, p.1)

/-- All executions of one table. -/
def executions (partition : PyArrowStreamPartition T α W I) (ι : Type) [DecidableEq ι] (w : W) :
    System (W × (ι → Execution T α I))
      (ι × Option (Action (RecordBatch T α) DataFusionError)) :=
  family (fun _ : ι => partition.execute) w

variable {partition : PyArrowStreamPartition T α W I}

theorem view_reachable {p : W × Execution T α I}
    (h : partition.execute.alone.Reachable p) :
    (component partition.config).alone.Reachable p.2.view := by
  refine Component.alone_invariant (C := partition.execute)
    (I := fun e : Execution T α I => (component partition.config).alone.Reachable e.view) ?_ ?_ h
  · intro e he
    exact .of_start he.2
  · intro p a q hs hr
    exact hr.step hs.1

/-- A step of an execution is either a pull or of no concern to the object. -/
theorem execute_step {p q : W × Execution T α I}
    {a : Option (Action (RecordBatch T α) DataFusionError)} (h : partition.execute.step p a q)
    (hr : (component partition.config).alone.Reachable p.2.view) :
    (q.1, q.2.reading) = (p.1, p.2.reading) ∨
      ∃ o, verdict partition.config.check p.2.stream.answers = .going ∧
        partition.pull p.2.iter p.1 = (o, q.2.iter, q.1) ∧
        q.2.stream.answers = p.2.stream.answers ++ [o] := by
  obtain ⟨w, iter, b, s⟩ := p
  obtain ⟨w', iter', b', s'⟩ := q
  obtain ⟨hstep, hpull⟩ := h
  cases a with
  | none =>
    left
    obtain rfl : s' = s := hstep
    cases hpull
    rfl
  | some a =>
    have hs : Step partition.config (b, s) a (b', s') := reachable_step hr hstep
    have hans : s'.answers = s.answers ++ a.answers := hs.answers
    cases a with
    | answer o => exact .inr ⟨o, hs.going (reachable_shaped hr), hpull, hans⟩
    | _ =>
      left
      have hsame : s'.answers = s.answers := hans.trans (List.append_nil _)
      cases hpull
      simp [Execution.reading, Execution.stream, hsame]

end PyArrowStreamPartition

/-- The object either refuses a stream with an exception or exports a new one, and each of its streams
goes through the batches on its own: `position` says how many it has given out. -/
structure ArrowStreamObject.Exports [DecidableEq I] (object : ArrowStreamObject T α W I)
    (position : W → I → Option ℕ) (batches : ℕ → Option (Except String (RecordBatch T α))) : Prop where
  arrowCStream : ∀ w, (∃ e w', object.arrowCStream w = (.error e, w') ∧ position w' = position w) ∨
    ∃ r w', object.arrowCStream w = (.ok r, w') ∧ position w r = none ∧
      position w' = Function.update (position w) r (some 0)
  getNext : ∀ w r n, position w r = some n → ∃ w', object.getNext r w = (batches n, w') ∧
    position w' = Function.update (position w) r (some (n + 1))

/-- A single-use object, which refuses a second stream. -/
def ArrowStreamObject.Refuses (object : ArrowStreamObject T α W I) (position : W → I → Option ℕ) :
    Prop :=
  ∀ w r, position w r ≠ none → ∃ e w', object.arrowCStream w = (.error e, w')

/-- What the batches come to as answers of a closure. -/
def answersOf (batches : ℕ → Option (Except String (RecordBatch T α))) (n : ℕ) :
    Outcome (RecordBatch T α) DataFusionError :=
  arrowOutcome (batches n)

variable [DecidableEq I] {partition : PyArrowStreamPartition T α W I} {position : W → I → Option ℕ}
  {batches : ℕ → Option (Except String (RecordBatch T α))} {reader : Option I} {w : W} {n : ℕ}

/-- A pull is refused a stream, or it gets the next batch of its own, and no other stream moves. -/
theorem PyArrowStreamPartition.pull_cases (h : partition.pyObject.Exports position batches)
    (hr : ∀ r, reader = some r → position w r = some n) (hn : reader = none → n = 0) :
    (reader = none ∧ ∃ e w', partition.pull reader w = (.error (.external e), none, w') ∧
      position w' = position w) ∨
    ∃ r w', partition.pull reader w = (answersOf batches n, some r, w') ∧
      position w' r = some (n + 1) ∧ (∀ other, other ≠ r → position w' other = position w other) ∧
      (reader = some r ∨ reader = none ∧ position w r = none ∧
        ∃ w', partition.pyObject.arrowCStream w = (.ok r, w')) := by
  cases reader with
  | some r =>
    obtain ⟨w', hnext, hpos⟩ := h.getNext w r n (hr r rfl)
    refine .inr ⟨r, w', by simp [PyArrowStreamPartition.pull, hnext, answersOf], ?_, ?_, .inl rfl⟩
    · rw [hpos, Function.update_self]
    · intro other hne
      rw [hpos, Function.update_of_ne hne]
  | none =>
    obtain rfl := hn rfl
    rcases h.arrowCStream w with ⟨e, w', hexport, hpos⟩ | ⟨r, w₁, hexport, hnew, hpos⟩
    · exact .inl ⟨rfl, e, w', by simp [PyArrowStreamPartition.pull, hexport], hpos⟩
    · obtain ⟨w', hnext, hpos'⟩ := h.getNext w₁ r 0 (by rw [hpos, Function.update_self])
      refine .inr ⟨r, w', by simp [PyArrowStreamPartition.pull, hexport, hnext, answersOf], ?_, ?_,
        .inr ⟨rfl, hnew, w₁, hexport⟩⟩
      · rw [hpos', Function.update_self]
      · intro other hne
        rw [hpos', Function.update_of_ne hne, hpos, Function.update_of_ne hne]

/-- An execution with its reader stands where its pulls have brought it; one without a reader has not
pulled yet, or was refused. -/
def Acquired (position : W → I → Option ℕ) (batches : ℕ → Option (Except String (RecordBatch T α)))
    (w : W) (r : Reading T α I) : Prop :=
  match r.iter with
  | some reader => position w reader = some r.answers.length ∧
      r.answers = firstCalls (answersOf batches) r.answers.length
  | none => r.answers = [] ∨ ∃ e, r.answers = [.error (.external e)]

section Executions

variable {ι : Type} [DecidableEq ι] {rs : ι → Reading T α I} {i j : ι}

/-- Every execution is on a stream nobody else has; of a single-use object there is one. -/
structure Separate (partition : PyArrowStreamPartition T α W I) (position : W → I → Option ℕ)
    (batches : ℕ → Option (Except String (RecordBatch T α))) (w : W) (rs : ι → Reading T α I) :
    Prop where
  acquired : ∀ i, Acquired position batches w (rs i)
  readers : ∀ i j r, (rs i).iter = some r → (rs j).iter = some r → i = j
  single : partition.pyObject.Refuses position → ∀ i j, (rs i).iter ≠ none → (rs j).iter ≠ none →
    i = j

omit [DecidableEq I] [DecidableEq ι] in
theorem Acquired.position_eq {r : Reading T α I} {reader : I} (h : Acquired position batches w r)
    (hr : r.iter = some reader) : position w reader = some r.answers.length := by
  simp only [Acquired, hr] at h
  exact h.1

omit [DecidableEq I] in
/-- An execution was refused a stream. -/
theorem Separate.refused (h : Separate partition position batches w rs) (hi : (rs i).iter = none)
    (ha : (rs i).answers = []) (e : PyErr) {w' : W} (hpos : position w' = position w) :
    Separate partition position batches w'
      (Function.update rs i ⟨none, [.error (.external e)]⟩) := by
  have hiter : ∀ j, (Function.update rs i ⟨none, [.error (.external e)]⟩ j).iter = (rs j).iter := by
    intro j
    by_cases hj : j = i
    · subst hj
      simp [hi]
    · simp [hj]
  constructor
  · intro j
    by_cases hj : j = i
    · subst hj
      simp [Acquired]
    · have hold := h.acquired j
      simpa [hj, Acquired, hpos] using hold
  · intro j k r hj hk
    exact h.readers j k r (by rwa [← hiter]) (by rwa [← hiter])
  · intro hs j k hj hk
    exact h.single hs j k (by rwa [← hiter]) (by rwa [← hiter])

omit [DecidableEq I] in
/-- An execution got the next batch of its stream. -/
theorem Separate.advanced (h : Separate partition position batches w rs) {r : I} {w' : W}
    (hans : (rs i).answers = firstCalls (answersOf batches) (rs i).answers.length)
    (hpos : position w' r = some ((rs i).answers.length + 1))
    (hothers : ∀ other, other ≠ r → position w' other = position w other)
    (hown : (rs i).iter = some r ∨ (rs i).iter = none ∧ position w r = none ∧
      ∃ w', partition.pyObject.arrowCStream w = (.ok r, w')) :
    Separate partition position batches w' (Function.update rs i
      ⟨some r, (rs i).answers ++ [answersOf batches (rs i).answers.length]⟩) := by
  have hfree : ∀ j, j ≠ i → (rs j).iter ≠ some r := by
    intro j hj hr
    rcases hown with hi | ⟨-, hnew, -⟩
    · exact hj (h.readers j i r hr hi)
    · rw [(h.acquired j).position_eq hr] at hnew
      cases hnew
  have hsingle : partition.pyObject.Refuses position → ∀ j, (rs j).iter ≠ none → j = i := by
    intro hs j hj
    rcases hown with hi | ⟨-, -, w₁, hexport⟩
    · exact h.single hs j i hj (by simp [hi])
    · obtain ⟨r', hr'⟩ := Option.ne_none_iff_exists'.mp hj
      obtain ⟨e, w₂, he⟩ := hs w r' (by rw [(h.acquired j).position_eq hr']; nofun)
      cases hexport.symm.trans he
  constructor
  · intro j
    by_cases hj : j = i
    · subst hj
      simp only [Function.update_self, Acquired, List.length_append, List.length_singleton]
      exact ⟨hpos, by rw [firstCalls_succ, ← hans]⟩
    · have hold := h.acquired j
      simp only [Function.update_of_ne hj]
      cases hr : (rs j).iter with
      | none => simpa [Acquired, hr] using hold
      | some r' =>
        have hne : r' ≠ r := by
          rintro rfl
          exact hfree j hj hr
        simpa [Acquired, hr, hothers r' hne] using hold
  · intro j k r' hj hk
    by_cases hji : j = i
    · by_cases hki : k = i
      · rw [hji, hki]
      · simp only [hji, Function.update_self, Option.some.injEq] at hj
        simp only [Function.update_of_ne hki, ← hj] at hk
        exact absurd hk (hfree k hki)
    · by_cases hki : k = i
      · simp only [hki, Function.update_self, Option.some.injEq] at hk
        simp only [Function.update_of_ne hji, ← hk] at hj
        exact absurd hj (hfree j hji)
      · simp only [Function.update_of_ne hji] at hj
        simp only [Function.update_of_ne hki] at hk
        exact h.readers j k r' hj hk
  · intro hs j k hj hk
    have hall : ∀ l, (Function.update rs i
        ⟨some r, (rs i).answers ++ [answersOf batches (rs i).answers.length]⟩ l).iter ≠ none →
        l = i := by
      intro l hl
      by_contra hli
      simp only [Function.update_of_ne hli] at hl
      exact hli (hsingle hs l hl)
    rw [hall j hj, hall k hk]

variable [DecidableEq T] [ToString T] {w₀ : W} {q : W × (ι → Execution T α I)}

theorem separate_reachable (h : partition.pyObject.Exports position batches)
    (hq : (partition.executions ι w₀).Reachable q) :
    Separate partition position batches q.1 fun i => (q.2 i).reading := by
  refine System.reachable_invariant_of_reachable (T := partition.executions ι w₀)
    (I := fun q => Separate partition position batches q.1 fun i => (q.2 i).reading) ?_ ?_ hq
  · rintro ⟨w, es⟩ ⟨rfl, hs⟩
    have hr : ∀ i, (es i).reading = ⟨none, []⟩ := by
      intro i
      obtain ⟨hiter, hstream⟩ := hs i
      rw [Execution.reading, hiter, hstream]
    constructor <;> simp [hr, Acquired]
  · rintro ⟨w, es⟩ ⟨i, a⟩ _ hr ⟨w', e', hstep, rfl⟩ hI
    have hupdate : (fun j => (Function.update es i e' j).reading) =
        Function.update (fun j => (es j).reading) i e'.reading :=
      Function.comp_update Execution.reading es i e'
    have hview := PyArrowStreamPartition.view_reachable (family_reachable_alone hr i)
    simp only [hupdate]
    rcases PyArrowStreamPartition.execute_step hstep hview with heq | ⟨o, hg, hpull, hans⟩
    · obtain ⟨rfl, hsame⟩ := Prod.mk.inj heq
      rw [hsame]
      simpa using hI
    · have hfirst : (es i).iter = none → (es i).stream.answers = [] := by
        intro hnone
        have hacq := hI.acquired i
        simp only [Acquired, Execution.reading, hnone] at hacq
        rcases hacq with hempty | ⟨e, herror⟩
        · exact hempty
        · simp [herror, verdict, Outcome.verdict] at hg
      rcases PyArrowStreamPartition.pull_cases (n := (es i).stream.answers.length) h
          (fun r hr => (hI.acquired i).position_eq hr) (fun hnone => by simp [hfirst hnone]) with
        ⟨hnone, e, w₁, hp, hpos⟩ | ⟨r, w₁, hp, hpos, hothers, hown⟩
      · obtain ⟨rfl, hiter, rfl⟩ : .error (.external e) = o ∧ none = e'.iter ∧ w₁ = w' := by
          simpa using hp.symm.trans hpull
        have hrefused := hI.refused (i := i) hnone (hfirst hnone) e hpos
        rwa [Execution.reading, ← hiter, hans, hfirst hnone]
      · obtain ⟨rfl, hiter, rfl⟩ : answersOf batches _ = o ∧ some r = e'.iter ∧ w₁ = w' := by
          simpa using hp.symm.trans hpull
        have hcalls : (es i).stream.answers =
            firstCalls (answersOf batches) (es i).stream.answers.length := by
          cases hi : (es i).iter with
          | none => simp [hfirst hi, firstCalls]
          | some r' =>
            have hacq := hI.acquired i
            simp only [Acquired, Execution.reading, hi] at hacq
            exact hacq.2
        have hadvanced := hI.advanced (i := i) hcalls hpos hothers hown
        rwa [Execution.reading, ← hiter, hans]

/-- What an execution without a reader delivers is the exception that refused it one. -/
theorem refused_delivered (h : partition.pyObject.Exports position batches)
    (hq : (partition.executions ι w₀).Reachable q) (hi : (q.2 i).iter = none) :
    ∃ e : PyErr, (q.2 i).stream.delivered <+: [.error (.external e)] ∧
      ((q.2 i).stream.ending = some .clean →
        (q.2 i).stream.delivered = [.error (.external e)]) := by
  have hI := reachable_lossless
    (PyArrowStreamPartition.view_reachable (family_reachable_alone hq i))
  have hacq := (separate_reachable h hq).acquired i
  simp only [Acquired, Execution.reading, hi] at hacq
  rcases hacq with hempty | ⟨e, herror⟩
  · refine ⟨⟨0⟩, ?_, fun he => ?_⟩
    · have hnil : (q.2 i).stream.delivered <+: spec _ (q.2 i).stream.answers := hI.delivered
      rw [hempty] at hnil
      rw [List.prefix_nil.mp hnil]
      exact List.nil_prefix
    · have hv : verdict _ (q.2 i).stream.answers = .ended := (hI.clean he).1
      simp [hempty, verdict] at hv
  · have hspec : spec partition.config.check (q.2 i).stream.answers =
        [.error (.external e)] := by
      rw [herror]
      rfl
    exact ⟨e, hspec ▸ hI.delivered, fun he => (hI.clean he).2.trans hspec⟩

end Executions

section Limited

variable {uses : ℕ} {refusal : PyErr} {given : List (RecordBatch T α)}

/-- An object that exports so many streams: none of a closed one, one of a `RecordBatchReader`, any
number of a `Table`. -/
def limited (uses : ℕ) (refusal : PyErr) (given : List (RecordBatch T α)) :
    ArrowStreamObject T α (List ℕ) ℕ where
  arrowCStream w := if w.length < uses then (.ok w.length, w ++ [0]) else (.error refusal, w)
  getNext r w := match w[r]? with
    | some n => (given[n]?.map .ok, w.set r (n + 1))
    | none => (none, w)

theorem limited_exports :
    (limited uses refusal given).Exports (fun w r => w[r]?) fun n => given[n]?.map .ok := by
  constructor
  · intro w
    by_cases hlt : w.length < uses
    · refine .inr ⟨w.length, w ++ [0], by simp [limited, hlt], by simp, ?_⟩
      funext r
      by_cases hr : r = w.length
      · simp [hr]
      · rw [Function.update_of_ne hr]
        by_cases hle : r < w.length
        · rw [List.getElem?_append_left hle]
        · rw [List.getElem?_eq_none (by simp; omega), List.getElem?_eq_none (by omega)]
    · exact .inl ⟨refusal, w, by simp [limited, hlt], rfl⟩
  · intro w r n hr
    have hlt : r < w.length := (List.getElem?_eq_some_iff.mp hr).1
    refine ⟨w.set r (n + 1), by simp [limited, hr], ?_⟩
    funext other
    by_cases hother : other = r
    · simp [hother, hlt]
    · rw [Function.update_of_ne hother, List.getElem?_set_ne (Ne.symm hother)]

theorem limited_refuses : (limited 1 refusal given).Refuses fun w r => w[r]? := by
  intro w r hr
  have hlt : r < w.length := by
    by_contra hle
    exact hr (List.getElem?_eq_none (by omega))
  exact ⟨refusal, w, if_neg (by omega)⟩

end Limited

/-- A table over a reader with one batch. -/
def idReader : PyArrowStreamPartition String ℤ (List ℕ) ℕ :=
  ⟨limited 1 ⟨7⟩ [idBatch [1, 2]], idSchema⟩

def idReaderStep : Option (Action (RecordBatch String ℤ) DataFusionError) →
    List ℕ × Execution String ℤ ℕ → Option (List ℕ × Execution String ℤ ℕ)
  | none, _ => none
  | some (.answer o), (w, e) =>
    if (idReader.pull e.iter w).1 = o then
      (step idReader.config (.answer o) e.view).map fun v =>
        ((idReader.pull e.iter w).2.2, ⟨(idReader.pull e.iter w).2.1, v⟩)
    else none
  | some a, (w, e) => (step idReader.config a e.view).map fun v => (w, ⟨e.iter, v⟩)

theorem idReaderStep_sound {a : Option (Action (RecordBatch String ℤ) DataFusionError)}
    {p q : List ℕ × Execution String ℤ ℕ} (h : idReaderStep a p = some q) :
    idReader.execute.step p a q := by
  unfold idReaderStep at h
  split at h
  · cases h
  · rename_i o w e
    split at h
    · rename_i ho
      obtain ⟨v, hv, rfl⟩ := Option.map_eq_some_iff.mp h
      exact ⟨hv, Prod.ext ho rfl⟩
    · cases h
  · rename_i a w e ha
    obtain ⟨v, hv, rfl⟩ := Option.map_eq_some_iff.mp h
    refine ⟨hv, ?_⟩
    cases a with
    | answer o => exact absurd rfl (ha o)
    | _ => rfl

/-- The first execution reads the table, the second one is refused. -/
theorem idReader_run : ∃ q, (idReader.executions (Fin 2) []).Reachable q ∧
    (q.2 0).stream.delivered = [.ok (idBatch [1, 2])] ∧ (q.2 0).stream.ending = some .clean ∧
    (q.2 1).stream.delivered = [.error (.external ⟨7⟩)] ∧ (q.2 1).stream.ending = some .clean := by
  let e₀ : Execution String ℤ ℕ := ⟨none, ⟨0, 128⟩, {}⟩
  let refused : List (Action (RecordBatch String ℤ) DataFusionError) :=
    [.coordinator true, .coordinator true, .coordinator true, .host] ++
      requestedRound (.error (.external ⟨7⟩)) ++
      [.host, .host, .coordinator true, .receive, .pollNext, .endOfStream]
  obtain ⟨w, e, f, hrun, hrefused, hall⟩ : ∃ w e f,
      System.replay idReaderStep (idRun.map some) ([], e₀) = some (w, e) ∧
      System.replay idReaderStep (refused.map some) (w, e₀) = some (w, f) ∧
      e.stream.delivered = [.ok (idBatch [1, 2])] ∧ e.stream.ending = some .clean ∧
      f.stream.delivered = [.error (.external ⟨7⟩)] ∧ f.stream.ending = some .clean :=
    ⟨_, _, _, rfl, rfl, rfl, rfl, rfl, rfl⟩
  have h₀ : (idReader.executions (Fin 2) []).Reachable ([], fun _ => e₀) :=
    .of_start ⟨rfl, fun _ => ⟨rfl, rfl⟩⟩
  obtain ⟨xs, hx⟩ : ∃ xs, (idReader.executions (Fin 2) []).Run ([], fun _ => e₀) xs
      (w, Function.update (fun _ => e₀) 0 e) :=
    family_replay (C := fun _ => idReader.execute) _ 0 (fun _ _ _ => idReaderStep_sound) hrun
  obtain ⟨ys, hy⟩ : ∃ ys, (idReader.executions (Fin 2) []).Run
      (w, Function.update (fun _ => e₀) 0 e) ys
      (w, Function.update (Function.update (fun _ => e₀) 0 e) 1 f) :=
    family_replay (C := fun _ => idReader.execute) _ 1 (fun _ _ _ => idReaderStep_sound) hrefused
  exact ⟨_, (h₀.run hx).run hy, by simpa using hall⟩

end XorqDatafusion.Provider
