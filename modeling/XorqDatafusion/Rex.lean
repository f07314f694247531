import XorqDatafusion.Kleene

/-! Operands of row expressions, and what those of a CASE say. -/
namespace XorqDatafusion.Rex

open Kleene

inductive Operator
  | eq
  | other (symbol : String)
deriving DecidableEq

/-- The expressions that contain one other, as the operand they return. -/
inductive Unary
  | not
  | isNull
  | isNotNull
  | isTrue
  | isFalse
  | isUnknown
  | isNotTrue
  | isNotFalse
  | isNotUnknown
  | negative
  | cast (dataType : String)
  | tryCast (dataType : String)
  | inSubquery (subquery : String) (negated : Bool)

/-- The calls of functions, whose operands are their arguments. -/
inductive Callee
  | aggregateFunction (func : String)
  | scalarFunction (func : String)
  | higherOrderFunction (func : String)
  | windowFunction (func : String)

inductive Unsupported
  | groupingSet
  | unnest
  | outerReferenceColumn
  | wildcard
  | scalarSubquery
  | placeholder
  | exists
  | setComparison

/-- `Expr`, by what `rex_call_operands` tells apart; what has no operands is known by its text. -/
inductive Expr
  | column (name : String)
  | scalarVariable (name : String)
  | literal (value : String)
  | lambdaVariable (name : String)
  | lambda (params : List String) (body : Expr)
  | alias (expr : Expr) (name : String)
  | unary (op : Unary) (expr : Expr)
  | call (callee : Callee) (args : List Expr)
  | case (expr : Option Expr) (whenThenExpr : List (Expr × Expr)) (elseExpr : Option Expr)
  | inList (expr : Expr) (list : List Expr) (negated : Bool)
  | binaryExpr (left : Expr) (op : Operator) (right : Expr)
  | like (negated : Bool) (expr pattern : Expr)
  | similarTo (negated : Bool) (expr pattern : Expr)
  | between (expr : Expr) (negated : Bool) (low high : Expr)
  | unsupported (kind : Unsupported) (text : String)

/-- `PyCase`: its methods return the three parts as they are. -/
structure PyCase where
  expr : Option Expr
  whenThenExpr : List (Expr × Expr)
  elseExpr : Option Expr

def PyCase.toExpr (c : PyCase) : Expr := .case c.expr c.whenThenExpr c.elseExpr

/-- The operands of a CASE with a base compare it with every WHEN. -/
def caseOperands (expr : Option Expr) (whenThenExpr : List (Expr × Expr)) : List Expr :=
  match expr with
  | some e => whenThenExpr.flatMap fun (when, then') => [.binaryExpr e .eq when, then']
  | none => whenThenExpr.flatMap fun (when, then') => [when, then']

/-- `rex_call_operands`; the error is the text of a `RuntimeError`. -/
def rexCallOperands (display : Expr → String) (self : Expr) : Except String (List Expr) :=
  match self with
  | .column _ | .scalarVariable _ | .literal _ | .lambdaVariable _ => .ok [self]
  | .lambda _ body => .ok [body]
  | .alias expr _ => .ok [expr]
  | .unary _ expr => .ok [expr]
  | .call _ args => .ok args
  | .case expr whenThenExpr elseExpr => .ok (caseOperands expr whenThenExpr ++ elseExpr.toList)
  | .inList expr list _ => .ok (expr :: list)
  | .binaryExpr left _ right => .ok [left, right]
  | .like _ expr pattern | .similarTo _ expr pattern => .ok [expr, pattern]
  | .between expr _ low high => .ok [expr, low, high]
  | .unsupported _ _ => .error s!"Unimplemented Expr type: {display self}"

/-- SQL's values other than NULL, of type `S`: what they are as conditions and when two are equal; and
what an expression that is neither a CASE nor an equation comes to on a row. -/
structure Sql (S R : Type) where
  boolean : Bool → S
  condition : S → Truth
  condition_boolean : ∀ b, condition (boolean b) = some b
  equals : S → S → Truth
  other : Expr → R → Option S

variable {S R : Type} (sql : Sql S R) (row : R)

/-- NULL as a condition is unknown. -/
def Sql.truth (v : Option S) : Truth := v.bind sql.condition

/-- Two values are not known to be equal when one of them is NULL. -/
def Sql.equal (v w : Option S) : Truth :=
  match v, w with
  | some a, some b => sql.equals a b
  | _, _ => none

/-- The value at the first condition that is true. -/
def firstTrue {V : Type} (default : V) : List (Truth × V) → V
  | [] => default
  | (some true, v) :: _ => v
  | _ :: rest => firstTrue default rest

/-- What decides about a WHEN: the WHEN itself, or whether the base is equal to it. -/
def Sql.decides (base : Option (Option S)) (when : Option S) : Truth :=
  match base with
  | some base => sql.equal base when
  | none => sql.truth when

mutual

/-- The value of an expression; a CASE without an ELSE ends in NULL. -/
def Expr.eval : Expr → Option S
  | .case expr whenThenExpr elseExpr =>
    firstTrue (evalOption elseExpr).join (evalPairs (evalOption expr) whenThenExpr)
  | .binaryExpr left .eq right => (sql.equal left.eval right.eval).map sql.boolean
  | expr => sql.other expr row

def evalOption : Option Expr → Option (Option S)
  | some expr => some expr.eval
  | none => none

def evalPairs (base : Option (Option S)) : List (Expr × Expr) → List (Truth × Option S)
  | [] => []
  | (when, then') :: rest => (sql.decides base when.eval, then'.eval) :: evalPairs base rest

end

/-- Operands read as conditions, each with its result, and a default where one is left over: the result
of the first condition that is true, else the default, else NULL. -/
def searchedCase : List Expr → Option S
  | when :: then' :: rest =>
    if sql.truth (when.eval sql row) = some true then then'.eval sql row else searchedCase rest
  | [default] => default.eval sql row
  | [] => none

section Operands

variable {sql row} {display : Expr → String}

theorem truth_boolean (t : Truth) : sql.truth (t.map sql.boolean) = t := by
  cases t with
  | none => rfl
  | some b => exact sql.condition_boolean b

theorem evalPairs_eq_map (base : Option (Option S)) (whenThenExpr : List (Expr × Expr)) :
    evalPairs sql row base whenThenExpr = whenThenExpr.map fun p =>
      (sql.decides base (p.1.eval sql row), p.2.eval sql row) := by
  induction whenThenExpr with
  | nil => rfl
  | cons p rest ih =>
    obtain ⟨when, then'⟩ := p
    rw [evalPairs, ih, List.map_cons]

theorem firstTrue_cons {V : Type} (default v : V) (t : Truth) (rest : List (Truth × V)) :
    firstTrue default ((t, v) :: rest) = if t = some true then v else firstTrue default rest := by
  rcases t with _ | _ | _ <;> rfl

/-- Operands made of pairs give the first result whose condition is true, or go on after them. -/
theorem searchedCase_pairs (test : Expr → Expr) (whenThenExpr : List (Expr × Expr)) (tail : List Expr) :
    searchedCase sql row (whenThenExpr.flatMap (fun p => [test p.1, p.2]) ++ tail) =
      firstTrue (searchedCase sql row tail)
        (whenThenExpr.map fun p => (sql.truth ((test p.1).eval sql row), p.2.eval sql row)) := by
  induction whenThenExpr with
  | nil => rfl
  | cons p rest ih =>
    rw [List.map_cons, firstTrue_cons, ← ih]
    rfl

theorem searchedCase_else (elseExpr : Option Expr) :
    searchedCase sql row elseExpr.toList = (evalOption sql row elseExpr).join := by
  cases elseExpr <;> rfl

/-- A WHEN is decided in the operands as it is in the CASE. -/
theorem searchedCase_operands (expr : Option Expr) (whenThenExpr : List (Expr × Expr))
    (tail : List Expr) : searchedCase sql row (caseOperands expr whenThenExpr ++ tail) =
      firstTrue (searchedCase sql row tail)
        (evalPairs sql row (evalOption sql row expr) whenThenExpr) := by
  rw [evalPairs_eq_map]
  cases expr with
  | none => exact searchedCase_pairs id whenThenExpr tail
  | some e =>
    have htest : ∀ when : Expr, sql.truth ((Expr.binaryExpr e .eq when).eval sql row) =
        sql.decides (some (e.eval sql row)) (when.eval sql row) := by
      intro when
      rw [Expr.eval, truth_boolean]
      rfl
    have hpairs := @searchedCase_pairs S R sql row (Expr.binaryExpr e .eq) whenThenExpr tail
    simp only [htest] at hpairs
    exact hpairs

theorem length_caseOperands (expr : Option Expr) (whenThenExpr : List (Expr × Expr)) :
    (caseOperands expr whenThenExpr).length = 2 * whenThenExpr.length := by
  cases expr with
  | none | some e =>
    induction whenThenExpr with
    | nil => rfl
    | cons p rest ih =>
      simp only [caseOperands, List.flatMap_cons, List.length_append, List.length_cons] at ih ⊢
      rw [ih]
      simp only [List.length_nil]
      omega

/-- The operands of a CASE, read as a searched CASE, have its value on every row; their number is odd
exactly when there is an ELSE. -/
theorem case_operands_keep_meaning (display : Expr → String) (c : PyCase) :
    ∃ operands, rexCallOperands display c.toExpr = .ok operands ∧
      (operands.length % 2 = 1 ↔ c.elseExpr.isSome) ∧
      ∀ (S R : Type) (sql : Sql S R) (row : R),
        searchedCase sql row operands = c.toExpr.eval sql row := by
  obtain ⟨expr, whenThenExpr, elseExpr⟩ := c
  refine ⟨_, rfl, ?_, ?_⟩
  · rw [List.length_append, length_caseOperands]
    cases elseExpr <;> simp
  · intro S R sql row
    rw [searchedCase_operands, searchedCase_else, PyCase.toExpr, Expr.eval]

end Operands

end XorqDatafusion.Rex
