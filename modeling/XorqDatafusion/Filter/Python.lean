import XorqDatafusion.Fallible
import XorqDatafusion.Filter.Expr

/-! What both translations of filters to Python objects share. -/
namespace XorqDatafusion.Filter

open Fallible

variable {F : Type}

/-- What an error message shows after its text. -/
inductive Subject (F : Type)
  | operator (op : Operator)
  | scalar (v : ScalarValue F)
  | expr (expr : Expr F)

/-- `DataFusionError::Common`: a text followed by the debug form of its subject. -/
structure FilterError (F : Type) where
  text : String
  subject : Subject F

/-- Functions of Python's `operator` module. -/
inductive PyOperator
  | eq
  | ne
  | lt
  | le
  | gt
  | ge
  | and
  | or
deriving DecidableEq

/-- `operator_to_py`; both translations have the same one. -/
def operatorToPy : Operator → Except (FilterError F) PyOperator
  | .eq => .ok .eq
  | .notEq => .ok .ne
  | .lt => .ok .lt
  | .ltEq => .ok .le
  | .gt => .ok .gt
  | .gtEq => .ok .ge
  | .and => .ok .and
  | .or => .ok .or
  | .other debug => .error ⟨"Unsupported operator ", .operator (.other debug)⟩

/-- The Python object of a literal; `library` is the one named in the error. -/
def literalToPy (library : String) (v : ScalarValue F) : Except (FilterError F) (Scalar F) :=
  match v.value with
  | some value => .ok value
  | none => .error ⟨s!"{library} can't handle ScalarValue: ", .scalar v⟩

/-- `extract_scalar_list`. -/
def extractScalarList (exprs : List (Expr F)) : Except (FilterError F) (List (Scalar F)) :=
  exprs.mapM fun
    | .literal v => literalToPy "PyArrow" v
    | expr => .error ⟨"Only a list of Literals are supported got ", .expr expr⟩

inductive TableProviderFilterPushDown
  | unsupported
  | exact
deriving DecidableEq

/-- `supports_filters_pushdown`: exact for whatever can be translated. -/
def supportsFiltersPushdown {P : Type} (tryFrom : Expr F → Except (FilterError F) P)
    (filters : List (Expr F)) : List TableProviderFilterPushDown :=
  filters.map fun filter => match tryFrom filter with
    | .ok _ => .exact
    | .error _ => .unsupported

theorem supportsFiltersPushdown_exact_iff {P : Type} {tryFrom : Expr F → Except (FilterError F) P}
    {filters : List (Expr F)} :
    (∀ answer ∈ supportsFiltersPushdown tryFrom filters, answer = .exact) ↔
      ∀ filter ∈ filters, ∃ p, tryFrom filter = .ok p := by
  simp only [supportsFiltersPushdown, List.forall_mem_map]
  apply forall₂_congr
  intro filter _
  cases tryFrom filter <;> simp

variable [LinearOrder F] {op : Operator} {py : PyOperator} {exprs : List (Expr F)}
  {values : List (Scalar F)} {library : String} {v : ScalarValue F} {value : Scalar F}

/-- Both libraries read an operator as SQL does. -/
def PyOperator.call (op : PyOperator) (v w : Value F) : Value F :=
  match op with
  | .eq => ofTruth (comparison (· == .eq) v w)
  | .ne => ofTruth (comparison (· != .eq) v w)
  | .lt => ofTruth (comparison (· == .lt) v w)
  | .le => ofTruth (comparison (· != .gt) v w)
  | .gt => ofTruth (comparison (· == .gt) v w)
  | .ge => ofTruth (comparison (· != .lt) v w)
  | .and => ofTruth (Kleene.and v.truth w.truth)
  | .or => ofTruth (Kleene.or v.truth w.truth)

theorem operatorToPy_call (h : operatorToPy (F := F) op = .ok py) (v w : Value F) :
    py.call v w = op.eval v w := by
  cases op <;> cases h <;> rfl

omit [LinearOrder F] in
theorem literalToPy_value (h : literalToPy library v = .ok value) : v.value = some value := by
  unfold literalToPy at h
  split at h
  · cases h
    assumption
  · cases h

theorem extractScalarList_evalList (h : extractScalarList exprs = .ok values) (row : Row F) :
    evalList row exprs = values.map some := by
  induction exprs generalizing values with
  | nil =>
    cases h
    rfl
  | cons expr exprs ih =>
    simp only [extractScalarList, List.mapM_cons, bind_eq_ok_iff] at h ih
    obtain ⟨value, hv, values', hvs, hr⟩ := h
    cases hr
    have hhead : expr.eval row = some value := by
      split at hv
      · exact literalToPy_value hv
      · cases hv
    simp [evalList, hhead, ih hvs]

end XorqDatafusion.Filter
