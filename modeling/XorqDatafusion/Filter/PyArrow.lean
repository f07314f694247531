import XorqDatafusion.Filter.Python

/-! Filters handed to pyarrow. -/
namespace XorqDatafusion.Filter

open Kleene Fallible

variable {F : Type}

/-- The pyarrow expressions `PyArrowFilterExpression` is built from. -/
inductive PyArrowFilterExpression (F : Type)
  | field (name : String)
  | scalar (value : Scalar F)
  | call (op : PyOperator) (left right : PyArrowFilterExpression F)
  | invert (expr : PyArrowFilterExpression F)
  | isValid (expr : PyArrowFilterExpression F)
  | isNull (expr : PyArrowFilterExpression F)
  | isin (expr : PyArrowFilterExpression F) (values : List (Scalar F))

/-- `PyArrowFilterExpression::try_from`. -/
def PyArrowFilterExpression.tryFrom : Expr F → Except (FilterError F) (PyArrowFilterExpression F)
  | .column name => .ok (.field name)
  | .literal v => do
    let value ← literalToPy "PyArrow" v
    return .scalar value
  | .binaryExpr left op right => do
    let operator ← operatorToPy op
    let left ← tryFrom left
    let right ← tryFrom right
    return .call operator left right
  | .not expr => do
    let expr ← tryFrom expr
    return .invert expr
  | .isNotNull expr => do
    let expr ← tryFrom expr
    return .isValid expr
  | .isNull expr => do
    let expr ← tryFrom expr
    return .isNull expr
  | .between expr negated low high => do
    let expr ← tryFrom expr
    let low ← tryFrom low
    let high ← tryFrom high
    -- A comparison with a scalar is an expression, so `and` combines two of them.
    let ret := .call .and (.call .le low expr) (.call .le expr high)
    return if negated then .invert ret else ret
  | .inList expr list negated => do
    let scalars ← extractScalarList list
    let expr ← tryFrom expr
    return if negated then .invert (.isin expr scalars) else .isin expr scalars
  | .other debug => .error ⟨"Unsupported Datafusion expression ", .expr (.other debug)⟩

/-- DataFusion's `conjunction`. -/
def conjunction : List (Expr F) → Option (Expr F)
  | [] => none
  | filter :: filters => some (filters.foldl (fun acc filter => .binaryExpr acc .and filter) filter)

/-- The filter `DatasetExec::new` hands to the scanner. -/
def datasetFilter (filters : List (Expr F)) :
    Except (FilterError F) (Option (PyArrowFilterExpression F)) :=
  (conjunction filters).mapM PyArrowFilterExpression.tryFrom

theorem PyArrowFilterExpression.tryFrom_and {left right : Expr F}
    (hl : ∃ p, tryFrom left = .ok p) (hr : ∃ p, tryFrom right = .ok p) :
    ∃ p, tryFrom (.binaryExpr left .and right) = .ok p := by
  obtain ⟨l, hl⟩ := hl
  obtain ⟨r, hr⟩ := hr
  exact ⟨.call .and l r, by simp only [tryFrom, hl, hr]; rfl⟩

/-- A conjunction can be translated when each of its filters can. -/
theorem datasetFilter_ok {filters : List (Expr F)}
    (h : ∀ filter ∈ filters, ∃ p, PyArrowFilterExpression.tryFrom filter = .ok p) :
    ∃ filter, datasetFilter filters = .ok filter := by
  cases filters with
  | nil => exact ⟨none, rfl⟩
  | cons filter filters =>
    obtain ⟨hhead, htail⟩ := List.forall_mem_cons.mp h
    have hfold : ∃ p, PyArrowFilterExpression.tryFrom
        (filters.foldl (fun acc filter => .binaryExpr acc .and filter) filter) = .ok p := by
      clear h
      induction filters generalizing filter with
      | nil => exact hhead
      | cons next filters ih =>
        obtain ⟨hnext, hrest⟩ := List.forall_mem_cons.mp htail
        exact ih _ (PyArrowFilterExpression.tryFrom_and hhead hnext) hrest
    obtain ⟨p, hp⟩ := hfold
    exact ⟨some p, by simp only [datasetFilter, conjunction, Option.mapM_some, hp]; rfl⟩

/-- The same filter with every test against a list read as two-valued: NULL is in no list. -/
def Expr.guardIn : Expr F → Expr F
  | .binaryExpr left op right => .binaryExpr left.guardIn op right.guardIn
  | .not expr => .not expr.guardIn
  | .isNotNull expr => .isNotNull expr.guardIn
  | .isNull expr => .isNull expr.guardIn
  | .inList expr list negated =>
    let test := .binaryExpr (.isNotNull expr.guardIn) .and (.inList expr.guardIn list false)
    if negated then .not test else test
  | .between expr negated low high => .between expr.guardIn negated low.guardIn high.guardIn
  | expr => expr

/-- Some test for NULL looks at a test against a list. -/
def Expr.nullTestsIn : Expr F → Bool
  | .binaryExpr left _ right => left.nullTestsIn || right.nullTestsIn
  | .not expr | .inList expr _ _ => expr.nullTestsIn
  | .isNotNull expr | .isNull expr => expr.hasIn
  | .between expr _ low high => expr.nullTestsIn || low.nullTestsIn || high.nullTestsIn
  | _ => false

/-- Tests against lists are not negated, and stand under AND and OR only. -/
def Expr.listsPositive : Expr F → Bool
  | .binaryExpr left .and right | .binaryExpr left .or right =>
    left.listsPositive && right.listsPositive
  | .inList expr _ false => !expr.hasIn
  | expr => !expr.hasIn

variable [LinearOrder F] {row : Row F} {expr : Expr F} {filters : List (Expr F)}
  {p : PyArrowFilterExpression F}

/-- `isin` answers false for NULL. -/
def isinValues (v : Value F) (ws : List (Value F)) : Truth :=
  match v with
  | none => some false
  | some v => inValues (some v) ws

def PyArrowFilterExpression.eval (row : Row F) : PyArrowFilterExpression F → Value F
  | .field name => row name
  | .scalar value => some value
  | .call op left right => op.call (left.eval row) (right.eval row)
  | .invert expr => ofTruth (Kleene.not (expr.eval row).truth)
  | .isValid expr => some (.boolean (expr.eval row).isSome)
  | .isNull expr => some (.boolean (expr.eval row).isNone)
  | .isin expr values => ofTruth (isinValues (expr.eval row) (values.map some))

/-- A scan without a filter keeps every row. -/
def scanKeeps (filter : Option (PyArrowFilterExpression F)) (row : Row F) : Prop :=
  ∀ p ∈ filter, (p.eval row).truth = some true

instance {filter : Option (PyArrowFilterExpression F)} : Decidable (scanKeeps filter row) :=
  inferInstanceAs (Decidable (∀ p ∈ filter, _ = some true))

/-- No test against a list finds NULL on this row. -/
def Expr.listsDefined (row : Row F) : Expr F → Bool
  | .binaryExpr left _ right => left.listsDefined row && right.listsDefined row
  | .not expr | .isNotNull expr | .isNull expr => expr.listsDefined row
  | .inList expr _ _ => (expr.eval row).isSome && expr.listsDefined row
  | .between expr _ low high =>
    expr.listsDefined row && low.listsDefined row && high.listsDefined row
  | _ => true

/-- `low <= v` is `v >= low`, NULL or not. -/
theorem comparison_le_swap (v w : Value F) :
    comparison (· != .gt) v w = comparison (· != .lt) w v := by
  rcases v with _ | v <;> rcases w with _ | w <;> try rfl
  simp only [comparison]
  have hswap : v.compare w = (w.compare v).map Ordering.swap := by
    cases v <;> cases w <;> first | rfl | exact congrArg some (cmp_swap _ _).symm
  rw [hswap]
  rcases w.compare v with _ | _ | _ | _ <;> rfl

theorem Expr.eval_guardIn_inList (expr : Expr F) (list : List (Expr F)) (negated : Bool) :
    (Expr.inList expr list negated).guardIn.eval row =
      ofTruth (negateIf negated (isinValues (expr.guardIn.eval row) (evalList row list))) := by
  have htest : (Expr.binaryExpr (.isNotNull expr.guardIn) .and
      (.inList expr.guardIn list false)).eval row =
        ofTruth (isinValues (expr.guardIn.eval row) (evalList row list)) := by
    cases h : expr.guardIn.eval row <;>
      simp [Expr.eval, Operator.eval, negateIf, isinValues, h]
  cases negated with
  | false => exact htest
  | true =>
    simp only [guardIn, if_true]
    rw [Expr.eval, htest, truth_ofTruth]
    rfl

/-- The translation says what the filter says with its tests against lists guarded. -/
theorem PyArrowFilterExpression.eval_tryFrom (h : tryFrom expr = .ok p) :
    p.eval row = expr.guardIn.eval row := by
  induction expr generalizing p with
  | column name =>
    cases h
    rfl
  | literal v =>
    simp only [tryFrom, bind_eq_ok_iff] at h
    obtain ⟨value, hv, h⟩ := h
    cases h
    exact (literalToPy_value hv).symm
  | binaryExpr left op right ihl ihr =>
    simp only [tryFrom, bind_eq_ok_iff] at h
    obtain ⟨operator, ho, l, hl, r, hr, h⟩ := h
    cases h
    simp only [eval, Expr.guardIn, Expr.eval, operatorToPy_call ho, ihl hl, ihr hr]
  | not expr ih | isNotNull expr ih | isNull expr ih =>
    simp only [tryFrom, bind_eq_ok_iff] at h
    obtain ⟨e, he, h⟩ := h
    cases h
    simp only [eval, Expr.guardIn, Expr.eval, ih he]
  | inList expr list negated ih =>
    simp only [tryFrom, bind_eq_ok_iff] at h
    obtain ⟨values, hvs, e, he, h⟩ := h
    cases h
    rw [Expr.eval_guardIn_inList, ← ih he, extractScalarList_evalList hvs]
    cases negated <;> simp [eval, negateIf]
  | between expr negated low high ihe ihl ihh =>
    simp only [tryFrom, bind_eq_ok_iff] at h
    obtain ⟨e, he, lo, hlo, hi, hhi, h⟩ := h
    cases h
    cases negated <;>
      simp [eval, Expr.guardIn, Expr.eval, negateIf, PyOperator.call, betweenValues,
        comparison_le_swap (low.guardIn.eval row), ihl hlo, ihh hhi, ihe he]
  | other debug => cases h

theorem Expr.holds_and {left right : Expr F} :
    (Expr.binaryExpr left .and right).Holds row ↔ left.Holds row ∧ right.Holds row := by
  simp [Expr.Holds, Expr.eval, Operator.eval]

theorem guardIn_foldl_holds (first : Expr F) (filters : List (Expr F)) :
    (filters.foldl (fun acc filter => .binaryExpr acc .and filter) first).guardIn.Holds row ↔
      ∀ f ∈ first :: filters, f.guardIn.Holds row := by
  induction filters generalizing first with
  | nil => simp
  | cons next filters ih =>
    rw [List.foldl_cons, ih]
    simp only [List.forall_mem_cons, Expr.guardIn, Expr.holds_and, and_assoc]

/-- What the scanner is handed keeps the rows that pass every guarded filter. -/
theorem datasetFilter_keeps {filter : Option (PyArrowFilterExpression F)}
    (h : datasetFilter filters = .ok filter) :
    scanKeeps filter row ↔ ∀ f ∈ filters, f.guardIn.Holds row := by
  cases filters with
  | nil =>
    cases h
    simp [scanKeeps]
  | cons first filters =>
    rw [← guardIn_foldl_holds, Expr.Holds]
    simp only [datasetFilter, conjunction, Option.mapM_some] at h
    generalize filters.foldl (fun acc filter => Expr.binaryExpr acc .and filter) first = all at h ⊢
    cases hp : PyArrowFilterExpression.tryFrom all with
    | error e => simp [hp, Functor.map, Except.map] at h
    | ok p =>
      rw [hp] at h
      cases h
      simp [scanKeeps, PyArrowFilterExpression.eval_tryFrom hp]

omit [LinearOrder F] in
/-- A filter without tests against lists is its own guarded form. -/
theorem Expr.guardIn_eq_self (h : expr.hasIn = false) : expr.guardIn = expr := by
  induction expr with
  | column | literal | other => rfl
  | binaryExpr left op right ihl ihr =>
    simp only [hasIn, Bool.or_eq_false_iff] at h
    simp only [guardIn, ihl h.1, ihr h.2]
  | not expr ih | isNotNull expr ih | isNull expr ih => simp only [guardIn, ih h]
  | inList => cases h
  | between expr negated low high ihe ihl ihh =>
    simp only [hasIn, Bool.or_eq_false_iff] at h
    simp only [guardIn, ihe h.1.1, ihl h.1.2, ihh h.2]

/-- On a row without NULL in the tested places, guarding changes nothing. -/
theorem Expr.eval_guardIn (h : expr.listsDefined row = true) :
    expr.guardIn.eval row = expr.eval row := by
  induction expr with
  | column | literal | other => rfl
  | binaryExpr left op right ihl ihr =>
    simp only [listsDefined, Bool.and_eq_true] at h
    simp only [guardIn, Expr.eval, ihl h.1, ihr h.2]
  | not expr ih | isNotNull expr ih | isNull expr ih => simp only [guardIn, Expr.eval, ih h]
  | inList expr list negated ih =>
    simp only [listsDefined, Bool.and_eq_true] at h
    obtain ⟨v, hv⟩ := Option.isSome_iff_exists.mp h.1
    rw [eval_guardIn_inList, ih h.2, Expr.eval, hv]
    rfl
  | between expr negated low high ihe ihl ihh =>
    simp only [listsDefined, Bool.and_eq_true] at h
    simp only [guardIn, Expr.eval, ihe h.1.1, ihl h.1.2, ihh h.2]

section Refinement

variable {v v' w w' : Value F} {t t' : Truth} {ws : List (Value F)}

theorem refines_comparison (test : Ordering → Bool) (hv : Refines v v') (hw : Refines w w') :
    Refines (comparison test v w) (comparison test v' w') := by
  rcases hv with rfl | rfl
  · exact .inl rfl
  · rcases hw with rfl | rfl
    · exact .inl (by cases v <;> rfl)
    · exact .refl _

omit [LinearOrder F] in
theorem refines_truth (h : Refines v v') : Refines v.truth v'.truth := by
  rcases h with rfl | rfl
  · exact .inl rfl
  · exact .refl _

omit [LinearOrder F] in
theorem refines_ofTruth (h : Refines t t') : Refines (ofTruth t : Value F) (ofTruth t') := by
  rcases h with rfl | rfl
  · exact .inl rfl
  · exact .refl _

theorem refines_negateIf (negated : Bool) (h : Refines t t') :
    Refines (negateIf negated t) (negateIf negated t') := by
  cases negated with
  | false => exact h
  | true => exact h.not

theorem refines_eval (op : Operator) (hv : Refines v v') (hw : Refines w w') :
    Refines (op.eval v w) (op.eval v' w') := by
  cases op with
  | and => exact refines_ofTruth ((refines_truth hv).and (refines_truth hw))
  | or => exact refines_ofTruth ((refines_truth hv).or (refines_truth hw))
  | other => exact .refl _
  | _ => exact refines_ofTruth (refines_comparison _ hv hw)

theorem refines_inValues_none (ws : List (Value F)) : Refines (inValues none ws) (some false) := by
  have h : Refines (inValues none ws) (any (fun _ => some false) ws) :=
    Refines.any fun _ => .inl rfl
  rwa [any_false] at h

theorem refines_isinValues (h : Refines v v') : Refines (inValues v ws) (isinValues v' ws) := by
  rcases h with rfl | rfl
  · cases v' with
    | none => exact refines_inValues_none ws
    | some v' => exact Refines.any fun _ => .inl rfl
  · cases v with
    | none => exact refines_inValues_none ws
    | some v => exact .refl _

/-- The guarded filter decides whatever the filter decides, as long as no test for NULL looks at a
test against a list. -/
theorem Expr.refines_guardIn (h : expr.nullTestsIn = false) :
    Refines (expr.eval row) (expr.guardIn.eval row) := by
  induction expr with
  | column | literal | other => exact .refl _
  | binaryExpr left op right ihl ihr =>
    simp only [nullTestsIn, Bool.or_eq_false_iff] at h
    exact refines_eval op (ihl h.1) (ihr h.2)
  | not expr ih => exact refines_ofTruth (refines_truth (ih h)).not
  | isNotNull expr | isNull expr =>
    simp only [guardIn, guardIn_eq_self h]
    exact .refl _
  | inList expr list negated ih =>
    rw [eval_guardIn_inList]
    exact refines_ofTruth (refines_negateIf negated (refines_isinValues (ih h)))
  | between expr negated low high ihe ihl ihh =>
    simp only [nullTestsIn, Bool.or_eq_false_iff] at h
    exact refines_ofTruth (refines_negateIf negated
      ((refines_comparison _ (ihe h.1.1) (ihl h.1.2)).and
        (refines_comparison _ (ihe h.1.1) (ihh h.2))))

end Refinement

/-- The guarded filter decides for a row only where the filter does, as long as tests against lists
stand under AND and OR only. -/
theorem Expr.below_guardIn (h : expr.listsPositive = true) :
    Below (expr.guardIn.eval row).truth (expr.eval row).truth := by
  fun_induction Expr.listsPositive expr with
  | case1 left right ihl ihr =>
    simp only [Bool.and_eq_true] at h
    simpa [guardIn, Expr.eval, Operator.eval] using (ihl h.1).and (ihr h.2)
  | case2 left right ihl ihr =>
    simp only [Bool.and_eq_true] at h
    simpa [guardIn, Expr.eval, Operator.eval] using (ihl h.1).or (ihr h.2)
  | case3 expr list =>
    rw [eval_guardIn_inList, guardIn_eq_self (by simpa using h)]
    simp only [Expr.eval, negateIf, truth_ofTruth]
    cases expr.eval row with
    | none => exact ⟨nofun, fun _ => rfl⟩
    | some v => exact .refl _
  | case4 expr =>
    rw [guardIn_eq_self (by simpa using h)]
    exact .refl _

omit [LinearOrder F] in
theorem Expr.nullTestsIn_eq_false (h : expr.hasIn = false) : expr.nullTestsIn = false := by
  induction expr with
  | column | literal | other => rfl
  | binaryExpr left op right ihl ihr =>
    simp only [hasIn, Bool.or_eq_false_iff] at h
    simp only [nullTestsIn, ihl h.1, ihr h.2, Bool.or_self]
  | not expr ih => exact ih h
  | isNotNull expr | isNull expr => exact h
  | inList => cases h
  | between expr negated low high ihe ihl ihh =>
    simp only [hasIn, Bool.or_eq_false_iff] at h
    simp only [nullTestsIn, ihe h.1.1, ihl h.1.2, ihh h.2, Bool.or_self]

omit [LinearOrder F] in
theorem Expr.nullTestsIn_of_listsPositive (h : expr.listsPositive = true) :
    expr.nullTestsIn = false := by
  fun_induction Expr.listsPositive expr with
  | case1 left right ihl ihr | case2 left right ihl ihr =>
    simp only [Bool.and_eq_true] at h
    simp only [nullTestsIn, ihl h.1, ihr h.2, Bool.or_self]
  | case3 expr list =>
    have htested : expr.nullTestsIn = false := nullTestsIn_eq_false (by simpa using h)
    simpa only [nullTestsIn] using htested
  | case4 expr => exact nullTestsIn_eq_false (by simpa using h)

/-- Such filters keep their meaning. -/
theorem Expr.holds_guardIn_iff (h : expr.listsPositive = true) :
    expr.guardIn.Holds row ↔ expr.Holds row :=
  ⟨(below_guardIn h).1,
    fun hr => (refines_truth (refines_guardIn (nullTestsIn_of_listsPositive h))).eq_some hr⟩

/-- The scan keeps exactly the rows that pass all filters if and only if the row passes them all
alike with every test against a list guarded, that is false where the tested value is NULL. So it is
where no list test finds NULL, and for filters whose list tests are not negated and stand under AND and
OR only, as are those without any. -/
theorem dataset_filters_exact_iff (filters : List (Expr F))
    (h : ∀ answer ∈ supportsFiltersPushdown PyArrowFilterExpression.tryFrom filters,
      answer = .exact) (row : Row F) :
    ((∃ filter, datasetFilter filters = .ok filter ∧
        (scanKeeps filter row ↔ ∀ f ∈ filters, f.Holds row)) ↔
      ((∀ f ∈ filters, f.guardIn.Holds row) ↔ ∀ f ∈ filters, f.Holds row)) ∧
    ((∀ f ∈ filters, f.listsDefined row = true) ∨ (∀ f ∈ filters, f.listsPositive = true) →
      ∃ filter, datasetFilter filters = .ok filter ∧
        (scanKeeps filter row ↔ ∀ f ∈ filters, f.Holds row)) := by
  obtain ⟨filter, hfilter⟩ := datasetFilter_ok (supportsFiltersPushdown_exact_iff.mp h)
  have hiff : (∃ filter, datasetFilter filters = .ok filter ∧
      (scanKeeps filter row ↔ ∀ f ∈ filters, f.Holds row)) ↔
        ((∀ f ∈ filters, f.guardIn.Holds row) ↔ ∀ f ∈ filters, f.Holds row) := by
    rw [← datasetFilter_keeps hfilter]
    simp [hfilter]
  refine ⟨hiff, fun hlists => hiff.mpr ?_⟩
  apply forall₂_congr
  intro f hf
  rcases hlists with hdefined | hpositive
  · rw [Expr.Holds, Expr.eval_guardIn (hdefined f hf), Expr.Holds]
  · exact Expr.holds_guardIn_iff (hpositive f hf)

/-- `x [NOT] IN (1, 2)`. -/
def listed (negated : Bool) : Expr ℤ :=
  .inList (.column "x") [.literal (.int64 (some 1)), .literal (.int64 (some 2))] negated

theorem dataset_filters_exact_iff_listed :
    ∃ filter, datasetFilter [listed false] = .ok filter ∧
      (scanKeeps filter (fun _ => none) ↔ ∀ f ∈ [listed false], f.Holds fun _ => none) :=
  (dataset_filters_exact_iff [listed false] (by decide) _).1.mpr (by decide)

/-- Pushed down as exact, NOT IN keeps a row on which it is NULL. -/
theorem dataset_filter_keeps_null :
    supportsFiltersPushdown PyArrowFilterExpression.tryFrom [listed true] = [.exact] ∧
      ∃ filter, datasetFilter [listed true] = .ok filter ∧
        scanKeeps filter (fun _ => none) ∧ ¬(listed true).Holds fun _ => none :=
  ⟨rfl, _, rfl, by decide, by decide⟩

end XorqDatafusion.Filter
