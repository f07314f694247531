import XorqDatafusion.Filter.PyArrow
import XorqDatafusion.Provider.Exec

/-! Which filters are pushed down, and that a scan can translate every one of them. -/
namespace XorqDatafusion.Filter

open Fallible

variable {F : Type} {v : ScalarValue F} {op : Operator} {expr : Expr F} {list : List (Expr F)}

/-- A literal that is not NULL, of one of the twelve types. -/
inductive ScalarValue.Supported : ScalarValue F → Prop
  | boolean (b : Bool) : Supported (.boolean (some b))
  | int8 (i : Int8) : Supported (.int8 (some i))
  | int16 (i : Int16) : Supported (.int16 (some i))
  | int32 (i : Int32) : Supported (.int32 (some i))
  | int64 (i : Int64) : Supported (.int64 (some i))
  | uint8 (i : UInt8) : Supported (.uint8 (some i))
  | uint16 (i : UInt16) : Supported (.uint16 (some i))
  | uint32 (i : UInt32) : Supported (.uint32 (some i))
  | uint64 (i : UInt64) : Supported (.uint64 (some i))
  | float32 (f : F) : Supported (.float32 (some f))
  | float64 (f : F) : Supported (.float64 (some f))
  | utf8 (s : String) : Supported (.utf8 (some s))

/-- One of the eight comparison and boolean operators. -/
inductive Operator.Supported : Operator → Prop
  | eq : Supported .eq
  | notEq : Supported .notEq
  | lt : Supported .lt
  | ltEq : Supported .ltEq
  | gt : Supported .gt
  | gtEq : Supported .gtEq
  | and : Supported .and
  | or : Supported .or

/-- The filters that can be translated, by their form alone. -/
inductive Expr.Supported : Expr F → Prop
  | column (name : String) : Supported (.column name)
  | literal {v : ScalarValue F} (h : v.Supported) : Supported (.literal v)
  | binaryExpr {left right : Expr F} {op : Operator} (ho : op.Supported) (hl : Supported left)
      (hr : Supported right) : Supported (.binaryExpr left op right)
  | not {expr : Expr F} (h : Supported expr) : Supported (.not expr)
  | isNotNull {expr : Expr F} (h : Supported expr) : Supported (.isNotNull expr)
  | isNull {expr : Expr F} (h : Supported expr) : Supported (.isNull expr)
  | between {expr low high : Expr F} (negated : Bool) (h : Supported expr) (hl : Supported low)
      (hh : Supported high) : Supported (.between expr negated low high)
  | inList {expr : Expr F} {list : List (Expr F)} (negated : Bool) (h : Supported expr)
      (hl : ∀ entry ∈ list, ∃ v, entry = .literal v ∧ v.Supported) :
      Supported (.inList expr list negated)

theorem ScalarValue.supported_iff : v.Supported ↔ ∃ value, v.value = some value := by
  constructor
  · intro h
    cases h <;> exact ⟨_, rfl⟩
  · rintro ⟨value, h⟩
    cases v with
    | other debug => cases h
    | boolean v | int8 v | int16 v | int32 v | int64 v | uint8 v | uint16 v | uint32 v | uint64 v
    | float32 v | float64 v | utf8 v =>
      cases v with
      | none => cases h
      | some v => constructor

theorem literalToPy_ok_iff (library : String) : (∃ value, literalToPy library v = .ok value) ↔ v.Supported := by
  rw [ScalarValue.supported_iff]
  unfold literalToPy
  cases v.value <;> simp

theorem operatorToPy_ok_iff : (∃ py, operatorToPy (F := F) op = .ok py) ↔ op.Supported := by
  constructor
  · rintro ⟨py, h⟩
    cases op <;> first | constructor | cases h
  · intro h
    cases h <;> exact ⟨_, rfl⟩

theorem extractScalarList_ok_iff : (∃ values, extractScalarList list = .ok values) ↔
    ∀ entry ∈ list, ∃ v, entry = .literal v ∧ v.Supported := by
  rw [extractScalarList, exists_mapM_ok_iff]
  apply forall₂_congr
  intro entry _
  constructor
  · rintro ⟨value, h⟩
    cases entry with
    | literal v => exact ⟨v, rfl, (literalToPy_ok_iff "PyArrow").mp ⟨value, h⟩⟩
    | _ => cases h
  · rintro ⟨v, rfl, hv⟩
    exact (literalToPy_ok_iff "PyArrow").mpr hv

section Translation

variable {P : Type} {tryFrom : Expr F → Except (FilterError F) P}

/-- The translation gives an object for this expression. -/
def Accepts (tryFrom : Expr F → Except (FilterError F) P) (expr : Expr F) : Prop :=
  ∃ p, tryFrom expr = .ok p

/-- A translation that decides by the form of an expression, one constructor at a time. -/
structure Structural (tryFrom : Expr F → Except (FilterError F) P) : Prop where
  column : ∀ name, Accepts tryFrom (.column name)
  literal : ∀ v, Accepts tryFrom (.literal v) ↔ v.Supported
  binaryExpr : ∀ left op right, Accepts tryFrom (.binaryExpr left op right) ↔
    op.Supported ∧ Accepts tryFrom left ∧ Accepts tryFrom right
  not : ∀ expr, Accepts tryFrom (.not expr) ↔ Accepts tryFrom expr
  isNotNull : ∀ expr, Accepts tryFrom (.isNotNull expr) ↔ Accepts tryFrom expr
  isNull : ∀ expr, Accepts tryFrom (.isNull expr) ↔ Accepts tryFrom expr
  inList : ∀ expr list negated, Accepts tryFrom (.inList expr list negated) ↔
    (∀ entry ∈ list, ∃ v, entry = .literal v ∧ v.Supported) ∧ Accepts tryFrom expr
  between : ∀ expr negated low high, Accepts tryFrom (.between expr negated low high) ↔
    Accepts tryFrom expr ∧ Accepts tryFrom low ∧ Accepts tryFrom high
  other : ∀ debug, ¬Accepts tryFrom (.other debug)

/-- Such a translation accepts the grammar and nothing else. -/
theorem Structural.accepts_iff (h : Structural tryFrom) : Accepts tryFrom expr ↔ expr.Supported := by
  constructor
  · intro ha
    induction expr with
    | column name => exact .column name
    | literal v => exact .literal ((h.literal v).mp ha)
    | binaryExpr left op right ihl ihr =>
      obtain ⟨ho, hl, hr⟩ := (h.binaryExpr left op right).mp ha
      exact .binaryExpr ho (ihl hl) (ihr hr)
    | not expr ih => exact .not (ih ((h.not expr).mp ha))
    | isNotNull expr ih => exact .isNotNull (ih ((h.isNotNull expr).mp ha))
    | isNull expr ih => exact .isNull (ih ((h.isNull expr).mp ha))
    | inList expr list negated ih =>
      obtain ⟨hl, he⟩ := (h.inList expr list negated).mp ha
      exact .inList negated (ih he) hl
    | between expr negated low high ihe ihl ihh =>
      obtain ⟨he, hl, hh⟩ := (h.between expr negated low high).mp ha
      exact .between negated (ihe he) (ihl hl) (ihh hh)
    | other debug => exact absurd ha (h.other debug)
  · intro hs
    induction hs with
    | column name => exact h.column name
    | literal hv => exact (h.literal _).mpr hv
    | binaryExpr ho _ _ ihl ihr => exact (h.binaryExpr _ _ _).mpr ⟨ho, ihl, ihr⟩
    | not _ ih => exact (h.not _).mpr ih
    | isNotNull _ ih => exact (h.isNotNull _).mpr ih
    | isNull _ ih => exact (h.isNull _).mpr ih
    | between negated _ _ _ ihe ihl ihh => exact (h.between _ _ _ _).mpr ⟨ihe, ihl, ihh⟩
    | inList negated _ hl ih => exact (h.inList _ _ _).mpr ⟨hl, ih⟩

end Translation

theorem IbisFilterExpression.structural : Structural (F := F) IbisFilterExpression.tryFrom where
  column name := ⟨_, rfl⟩
  literal v := by
    rw [← literalToPy_ok_iff "Ibis"]
    simp [Accepts, tryFrom, exists_bind_ok_iff, pure, Except.pure]
  binaryExpr left op right := by
    rw [← operatorToPy_ok_iff (F := F)]
    simp [Accepts, tryFrom, exists_bind_ok_iff, pure, Except.pure]
  not expr := by simp [Accepts, tryFrom, exists_bind_ok_iff, pure, Except.pure]
  isNotNull expr := by simp [Accepts, tryFrom, exists_bind_ok_iff, pure, Except.pure]
  isNull expr := by simp [Accepts, tryFrom, exists_bind_ok_iff, pure, Except.pure]
  inList expr list negated := by
    rw [← extractScalarList_ok_iff]
    simp [Accepts, tryFrom, exists_bind_ok_iff, pure, Except.pure]
  between expr negated low high := by
    simp [Accepts, tryFrom, exists_bind_ok_iff, pure, Except.pure]
    tauto
  other debug := by
    rintro ⟨p, h⟩
    cases h

theorem PyArrowFilterExpression.structural : Structural (F := F) PyArrowFilterExpression.tryFrom where
  column name := ⟨_, rfl⟩
  literal v := by
    rw [← literalToPy_ok_iff "PyArrow"]
    simp [Accepts, tryFrom, exists_bind_ok_iff, pure, Except.pure]
  binaryExpr left op right := by
    rw [← operatorToPy_ok_iff (F := F)]
    simp [Accepts, tryFrom, exists_bind_ok_iff, pure, Except.pure]
  not expr := by simp [Accepts, tryFrom, exists_bind_ok_iff, pure, Except.pure]
  isNotNull expr := by simp [Accepts, tryFrom, exists_bind_ok_iff, pure, Except.pure]
  isNull expr := by simp [Accepts, tryFrom, exists_bind_ok_iff, pure, Except.pure]
  inList expr list negated := by
    rw [← extractScalarList_ok_iff]
    simp [Accepts, tryFrom, exists_bind_ok_iff, pure, Except.pure]
  between expr negated low high := by
    simp [Accepts, tryFrom, exists_bind_ok_iff, pure, Except.pure]
  other debug := by
    rintro ⟨p, h⟩
    cases h

end XorqDatafusion.Filter

namespace XorqDatafusion.Provider

open XorqDatafusion.Filter Fallible

variable {T α W I F : Type} {filters : List (Expr F)} {projection : Option (List ℕ)}
  {provider : TableProvider F T α W I}

/-- `supports_filters_pushdown` of both providers over ibis. -/
def TableProvider.supportsFiltersPushdown (_provider : TableProvider F T α W I)
    (filters : List (Expr F)) : List TableProviderFilterPushDown :=
  Filter.supportsFiltersPushdown IbisFilterExpression.tryFrom filters

theorem translate_ok (h : ∀ answer ∈ provider.supportsFiltersPushdown filters, answer = .exact) :
    ∃ args, translate filters = .ok args := by
  rw [translate, exists_mapM_ok_iff]
  intro filter hf
  obtain ⟨p, hp⟩ := supportsFiltersPushdown_exact_iff.mp h filter hf
  exact ⟨p, by rw [hp]; rfl⟩

/-- With its filters translated, a scan has no filter left to unwrap. -/
theorem scan_ne_unwrapFilter {args : List (IbisFilterExpression F)}
    (h : translate filters = .ok args) (e : FilterError F) :
    provider.scan projection filters ≠ .error (.unwrapFilter e) := by
  have hread : provider.read filters ≠ .error (.unwrapFilter e) := by
    intro hr
    cases provider with
    | python p =>
      simp only [TableProvider.read, PyTableProvider.read, h, bind_eq_error_iff,
        mapError_eq_error_iff] at hr
      simp at hr
    | ibis t =>
      simp only [TableProvider.read, IbisTable.read] at hr
      split at hr
      · simp [mapError_eq_error_iff] at hr
      · simp only [h, bind_eq_error_iff, mapError_eq_error_iff] at hr
        simp at hr
  intro hs
  rcases bind_eq_error_iff.mp hs with hs | ⟨⟨reader, w⟩, -, hs⟩
  · exact hread hs
  · rcases bind_eq_error_iff.mp hs with hs | ⟨exec, -, hs⟩
    · simp [mapError_eq_error_iff] at hs
    · cases hs

/-- Both translations accept the same grammar, and the pushdown is answered exact for what they accept;
filters that were pushed down as exact are translated when they come back in a scan, one by one for ibis
and as one conjunction for pyarrow. -/
theorem pushdown_matches_translation (F T α W I : Type) :
    (∀ expr : Expr F,
      ((∃ p, PyArrowFilterExpression.tryFrom expr = .ok p) ↔
        ∃ p, IbisFilterExpression.tryFrom expr = .ok p) ∧
      ((∃ p, PyArrowFilterExpression.tryFrom expr = .ok p) ↔ expr.Supported) ∧
      ((∃ p, IbisFilterExpression.tryFrom expr = .ok p) ↔ expr.Supported)) ∧
    (∀ (provider : TableProvider F T α W I) projection filters,
      (∀ answer ∈ provider.supportsFiltersPushdown filters, answer = .exact) →
        ∀ e, provider.scan projection filters ≠ .error (.unwrapFilter e)) ∧
    (∀ filters : List (Expr F),
      (∀ answer ∈ supportsFiltersPushdown PyArrowFilterExpression.tryFrom filters,
        answer = .exact) → ∃ filter, datasetFilter filters = .ok filter) ∧
    ∀ filters : List (Expr F),
      ((∀ answer ∈ supportsFiltersPushdown PyArrowFilterExpression.tryFrom filters, answer = .exact) ↔
        ∀ filter ∈ filters, filter.Supported) ∧
      ((∀ answer ∈ supportsFiltersPushdown IbisFilterExpression.tryFrom filters, answer = .exact) ↔
        ∀ filter ∈ filters, filter.Supported) := by
  have hpyarrow (expr : Expr F) : Accepts PyArrowFilterExpression.tryFrom expr ↔ expr.Supported :=
    PyArrowFilterExpression.structural.accepts_iff
  have hibis (expr : Expr F) : Accepts IbisFilterExpression.tryFrom expr ↔ expr.Supported :=
    IbisFilterExpression.structural.accepts_iff
  refine ⟨fun expr => ⟨(hpyarrow expr).trans (hibis expr).symm, hpyarrow expr, hibis expr⟩, ?_, ?_, ?_⟩
  · intro provider projection filters h e
    obtain ⟨args, hargs⟩ := translate_ok h
    exact scan_ne_unwrapFilter hargs e
  · intro filters h
    exact datasetFilter_ok (supportsFiltersPushdown_exact_iff.mp h)
  · intro filters
    constructor <;> rw [supportsFiltersPushdown_exact_iff]
    · exact forall₂_congr fun filter _ => hpyarrow filter
    · exact forall₂_congr fun filter _ => hibis filter

end XorqDatafusion.Provider
