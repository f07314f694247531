import XorqDatafusion.Filter.Python

/-! Filters handed to ibis. -/
namespace XorqDatafusion.Filter

open Fallible

variable {F : Type}

/-- The ibis expressions `IbisFilterExpression` is built from. -/
inductive IbisFilterExpression (F : Type)
  | deferred (name : String)
  | literal (value : Scalar F)
  | call (op : PyOperator) (left right : IbisFilterExpression F)
  | invert (expr : IbisFilterExpression F)
  | notnull (expr : IbisFilterExpression F)
  | isnull (expr : IbisFilterExpression F)
  | isin (expr : IbisFilterExpression F) (values : List (Scalar F))
  | notin (expr : IbisFilterExpression F) (values : List (Scalar F))
  | between (expr low high : IbisFilterExpression F)

/-- `IbisFilterExpression::try_from`. -/
def IbisFilterExpression.tryFrom : Expr F → Except (FilterError F) (IbisFilterExpression F)
  | .column name => .ok (.deferred name)
  | .literal v => do
    let value ← literalToPy "Ibis" v
    return .literal value
  | .binaryExpr left op right => do
    let operator ← operatorToPy op
    let left ← tryFrom left
    let right ← tryFrom right
    return .call operator left right
  | .not expr => do
    let expr ← tryFrom expr
    return .invert expr
  | .isNotNull expr => do
    let expr ← tryFrom expr
    return .notnull expr
  | .isNull expr => do
    let expr ← tryFrom expr
    return .isnull expr
  | .inList expr list negated => do
    let scalars ← extractScalarList list
    let expr ← tryFrom expr
    return if negated then .isin expr scalars else .notin expr scalars
  | .between expr negated low high => do
    let low ← tryFrom low
    let high ← tryFrom high
    let expr ← tryFrom expr
    let ret := .between expr low high
    return if negated then .invert ret else ret
  | .other debug => .error ⟨"Unsupported Datafusion expression ", .expr (.other debug)⟩

/-- The same filter with every IN taken for NOT IN and the other way round. -/
def Expr.swapIn : Expr F → Expr F
  | .binaryExpr left op right => .binaryExpr left.swapIn op right.swapIn
  | .not expr => .not expr.swapIn
  | .isNotNull expr => .isNotNull expr.swapIn
  | .isNull expr => .isNull expr.swapIn
  | .inList expr list negated => .inList expr.swapIn list !negated
  | .between expr negated low high => .between expr.swapIn negated low.swapIn high.swapIn
  | expr => expr

variable [LinearOrder F] {row : Row F} {expr : Expr F} {p : IbisFilterExpression F}

/-- ibis reads every name as SQL does. -/
def IbisFilterExpression.eval (row : Row F) : IbisFilterExpression F → Value F
  | .deferred name => row name
  | .literal value => some value
  | .call op left right => op.call (left.eval row) (right.eval row)
  | .invert expr => ofTruth (Kleene.not (expr.eval row).truth)
  | .notnull expr => some (.boolean (expr.eval row).isSome)
  | .isnull expr => some (.boolean (expr.eval row).isNone)
  | .isin expr values => ofTruth (inValues (expr.eval row) (values.map some))
  | .notin expr values => ofTruth (Kleene.not (inValues (expr.eval row) (values.map some)))
  | .between expr low high => ofTruth (betweenValues (expr.eval row) (low.eval row) (high.eval row))

def IbisFilterExpression.Keeps (p : IbisFilterExpression F) (row : Row F) : Prop :=
  (p.eval row).truth = some true

instance {p : IbisFilterExpression F} {row : Row F} : Decidable (p.Keeps row) :=
  inferInstanceAs (Decidable (_ = some true))

/-- The translation says what the filter says with IN and NOT IN exchanged. -/
theorem IbisFilterExpression.eval_tryFrom (h : tryFrom expr = .ok p) :
    p.eval row = expr.swapIn.eval row := by
  induction expr generalizing p with
  | column name =>
    cases h
    rfl
  | literal v =>
    simp only [tryFrom, bind_eq_ok_iff] at h
    obtain ⟨value, hv, h⟩ := h
    cases h
    exact (literalToPy_value hv).symm
  | binaryExpr left op right ihl ihr =>
    simp only [tryFrom, bind_eq_ok_iff] at h
    obtain ⟨operator, ho, l, hl, r, hr, h⟩ := h
    cases h
    simp only [eval, Expr.swapIn, Expr.eval, operatorToPy_call ho, ihl hl, ihr hr]
  | not expr ih | isNotNull expr ih | isNull expr ih =>
    simp only [tryFrom, bind_eq_ok_iff] at h
    obtain ⟨e, he, h⟩ := h
    cases h
    simp only [eval, Expr.swapIn, Expr.eval, ih he]
  | inList expr list negated ih =>
    simp only [tryFrom, bind_eq_ok_iff] at h
    obtain ⟨values, hvs, e, he, h⟩ := h
    cases h
    -- The two calls are the wrong way round: `negated` asks for `isin`.
    cases negated <;>
      simp [eval, Expr.swapIn, Expr.eval, negateIf, ih he, extractScalarList_evalList hvs]
  | between expr negated low high ihe ihl ihh =>
    simp only [tryFrom, bind_eq_ok_iff] at h
    obtain ⟨lo, hlo, hi, hhi, e, he, h⟩ := h
    cases h
    cases negated <;>
      simp [eval, Expr.swapIn, Expr.eval, negateIf, ihl hlo, ihh hhi, ihe he]
  | other debug => cases h

omit [LinearOrder F] in
theorem Expr.swapIn_eq_self (h : expr.hasIn = false) : expr.swapIn = expr := by
  induction expr with
  | column | literal | other => rfl
  | binaryExpr left op right ihl ihr =>
    simp only [hasIn, Bool.or_eq_false_iff] at h
    simp only [swapIn, ihl h.1, ihr h.2]
  | not expr ih | isNotNull expr ih | isNull expr ih => simp only [swapIn, ih h]
  | inList => cases h
  | between expr negated low high ihe ihl ihh =>
    simp only [hasIn, Bool.or_eq_false_iff] at h
    simp only [swapIn, ihe h.1.1, ihl h.1.2, ihh h.2]

/-- A filter without IN keeps its meaning. -/
theorem IbisFilterExpression.keeps_iff_holds (h : tryFrom expr = .ok p) (hin : expr.hasIn = false) :
    p.Keeps row ↔ expr.Holds row := by
  rw [Keeps, eval_tryFrom h, Expr.swapIn_eq_self hin, Expr.Holds]

/-- A test against a list never does, on a row where the test is not NULL. -/
theorem IbisFilterExpression.keeps_inList_iff {list : List (Expr F)} {negated : Bool}
    (h : tryFrom (.inList expr list negated) = .ok p) (hin : expr.hasIn = false)
    (hv : ((Expr.inList expr list negated).eval row).truth ≠ none) :
    p.Keeps row ↔ ¬(Expr.inList expr list negated).Holds row := by
  simp only [Keeps, eval_tryFrom h, Expr.Holds, Expr.swapIn, Expr.swapIn_eq_self hin, Expr.eval,
    truth_ofTruth] at hv ⊢
  generalize inValues (expr.eval row) (evalList row list) = t at hv ⊢
  rcases t with _ | _ | _ <;> cases negated <;> simp [negateIf, Kleene.not] at hv ⊢

/-- The translation keeps exactly the rows the filter passes if and only if the filter passes the
row alike with every IN taken for NOT IN and the other way round. Without IN it always does; a test
against a list alone never does, where it is not NULL. -/
theorem ibis_filter_exact_iff (expr : Expr F) (p : IbisFilterExpression F)
    (h : IbisFilterExpression.tryFrom expr = .ok p) (row : Row F) :
    ((p.Keeps row ↔ expr.Holds row) ↔ (expr.swapIn.Holds row ↔ expr.Holds row)) ∧
    (expr.hasIn = false → (p.Keeps row ↔ expr.Holds row)) ∧
    ∀ tested list negated, expr = .inList tested list negated → tested.hasIn = false →
      (expr.eval row).truth ≠ none → (p.Keeps row ↔ ¬expr.Holds row) := by
  refine ⟨?_, IbisFilterExpression.keeps_iff_holds h, ?_⟩
  · simp only [IbisFilterExpression.Keeps, IbisFilterExpression.eval_tryFrom h, Expr.Holds]
  · rintro tested list negated rfl hin hv
    exact IbisFilterExpression.keeps_inList_iff h hin hv

/-- `x < 3 AND x IN (1, 2)`. -/
def smallAndListed : Expr ℤ :=
  .binaryExpr (.binaryExpr (.column "x") .lt (.literal (.int64 (some 3)))) .and
    (.inList (.column "x") [.literal (.int64 (some 1)), .literal (.int64 (some 2))] false)

theorem ibis_filter_exact_iff_large :
    ∃ p, IbisFilterExpression.tryFrom smallAndListed = .ok p ∧
      (p.Keeps (fun _ => some (.integer 5)) ↔
        smallAndListed.Holds fun _ => some (.integer 5)) :=
  ⟨_, rfl, (ibis_filter_exact_iff smallAndListed _ rfl _).1.mpr (by decide)⟩

/-- Pushed down as exact, the filter drops a row it passes. -/
theorem ibis_filter_inverts_in :
    supportsFiltersPushdown IbisFilterExpression.tryFrom [smallAndListed] = [.exact] ∧
      ∃ p, IbisFilterExpression.tryFrom smallAndListed = .ok p ∧
        smallAndListed.Holds (fun _ => some (.integer 1)) ∧
        ¬p.Keeps fun _ => some (.integer 1) :=
  ⟨rfl, _, rfl, by decide, by decide⟩

end XorqDatafusion.Filter
