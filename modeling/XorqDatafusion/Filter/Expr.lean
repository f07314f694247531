import XorqDatafusion.Kleene
import Mathlib.Data.Bool.Basic
import Mathlib.Data.String.Basic
import Mathlib.Order.Compare

/-! Filter expressions of the query planner, and what SQL says they mean. -/
namespace XorqDatafusion.Filter

open Kleene

/-- `F` is the type of floating-point numbers. -/
inductive Scalar (F : Type)
  | boolean (b : Bool)
  | integer (i : ℤ)
  | float (f : F)
  | utf8 (s : String)
deriving DecidableEq

/-- `None` is SQL's NULL. -/
abbrev Value (F : Type) := Option (Scalar F)

/-- `ScalarValue`; `other` stands for the types neither translation knows. -/
inductive ScalarValue (F : Type)
  | boolean (v : Option Bool)
  | int8 (v : Option Int8)
  | int16 (v : Option Int16)
  | int32 (v : Option Int32)
  | int64 (v : Option Int64)
  | uint8 (v : Option UInt8)
  | uint16 (v : Option UInt16)
  | uint32 (v : Option UInt32)
  | uint64 (v : Option UInt64)
  | float32 (v : Option F)
  | float64 (v : Option F)
  | utf8 (v : Option String)
  | other (debug : String)

inductive Operator
  | eq
  | notEq
  | lt
  | ltEq
  | gt
  | gtEq
  | and
  | or
  | other (debug : String)
deriving DecidableEq

/-- `Expr`; `other` stands for every kind of expression neither translation knows. -/
inductive Expr (F : Type)
  | column (name : String)
  | literal (v : ScalarValue F)
  | binaryExpr (left : Expr F) (op : Operator) (right : Expr F)
  | not (expr : Expr F)
  | isNotNull (expr : Expr F)
  | isNull (expr : Expr F)
  | inList (expr : Expr F) (list : List (Expr F)) (negated : Bool)
  | between (expr : Expr F) (negated : Bool) (low high : Expr F)
  | other (debug : String)

/-- Induction on an expression; the entries of an IN list are not taken apart. -/
@[induction_eliminator]
theorem Expr.induct {F : Type} {motive : Expr F → Prop} (column : ∀ name, motive (.column name))
    (literal : ∀ v, motive (.literal v))
    (binaryExpr : ∀ left op right, motive left → motive right →
      motive (.binaryExpr left op right))
    (not : ∀ expr, motive expr → motive (.not expr))
    (isNotNull : ∀ expr, motive expr → motive (.isNotNull expr))
    (isNull : ∀ expr, motive expr → motive (.isNull expr))
    (inList : ∀ expr list negated, motive expr → motive (.inList expr list negated))
    (between : ∀ expr negated low high, motive expr → motive low → motive high →
      motive (.between expr negated low high))
    (other : ∀ debug, motive (.other debug)) : ∀ expr, motive expr
  | .column name => column name
  | .literal v => literal v
  | .binaryExpr left op right => binaryExpr left op right
      (induct column literal binaryExpr not isNotNull isNull inList between other left)
      (induct column literal binaryExpr not isNotNull isNull inList between other right)
  | .not expr => not expr
      (induct column literal binaryExpr not isNotNull isNull inList between other expr)
  | .isNotNull expr => isNotNull expr
      (induct column literal binaryExpr not isNotNull isNull inList between other expr)
  | .isNull expr => isNull expr
      (induct column literal binaryExpr not isNotNull isNull inList between other expr)
  | .inList expr list negated => inList expr list negated
      (induct column literal binaryExpr not isNotNull isNull inList between other expr)
  | .between expr negated low high => between expr negated low high
      (induct column literal binaryExpr not isNotNull isNull inList between other expr)
      (induct column literal binaryExpr not isNotNull isNull inList between other low)
      (induct column literal binaryExpr not isNotNull isNull inList between other high)
  | .other debug => other debug

/-- Some test in the expression is against a list. -/
def Expr.hasIn {F : Type} : Expr F → Bool
  | .binaryExpr left _ right => left.hasIn || right.hasIn
  | .not expr | .isNotNull expr | .isNull expr => expr.hasIn
  | .inList _ _ _ => true
  | .between expr _ low high => expr.hasIn || low.hasIn || high.hasIn
  | _ => false

/-- The columns of a row by name. -/
abbrev Row (F : Type) := String → Value F

variable {F : Type} [LinearOrder F]

omit [LinearOrder F] in
/-- The value of a literal of a supported type; NULL and the other types have none. -/
def ScalarValue.value : ScalarValue F → Value F
  | .boolean v => v.map .boolean
  | .int8 v => v.map fun i => .integer i.toInt
  | .int16 v => v.map fun i => .integer i.toInt
  | .int32 v => v.map fun i => .integer i.toInt
  | .int64 v => v.map fun i => .integer i.toInt
  | .uint8 v => v.map fun i => .integer i.toNat
  | .uint16 v => v.map fun i => .integer i.toNat
  | .uint32 v => v.map fun i => .integer i.toNat
  | .uint64 v => v.map fun i => .integer i.toNat
  | .float32 v => v.map .float
  | .float64 v => v.map .float
  | .utf8 v => v.map .utf8
  | .other _ => none

/-- Scalars of one type are ordered; those of different types do not compare. -/
def Scalar.compare : Scalar F → Scalar F → Option Ordering
  | .boolean a, .boolean b => some (cmp a b)
  | .integer a, .integer b => some (cmp a b)
  | .float a, .float b => some (cmp a b)
  | .utf8 a, .utf8 b => some (cmp a b)
  | _, _ => none

/-- A comparison is unknown as soon as an operand is NULL. -/
def comparison (test : Ordering → Bool) (v w : Value F) : Truth :=
  match v, w with
  | some a, some b => (a.compare b).map test
  | _, _ => none

omit [LinearOrder F] in
def Value.truth : Value F → Truth
  | some (.boolean b) => some b
  | _ => none

omit [LinearOrder F] in
def ofTruth (t : Truth) : Value F := t.map .boolean

omit [LinearOrder F] in
@[simp]
theorem truth_ofTruth (t : Truth) : Value.truth (ofTruth t : Value F) = t := by
  rcases t with _ | _ <;> rfl

omit [LinearOrder F] in
@[simp]
theorem truth_boolean (b : Bool) : Value.truth (some (.boolean b) : Value F) = some b := rfl

/-- The eight binary operators of the comparison and logical kind. -/
def Operator.eval (op : Operator) (v w : Value F) : Value F :=
  match op with
  | .eq => ofTruth (comparison (· == .eq) v w)
  | .notEq => ofTruth (comparison (· != .eq) v w)
  | .lt => ofTruth (comparison (· == .lt) v w)
  | .ltEq => ofTruth (comparison (· != .gt) v w)
  | .gt => ofTruth (comparison (· == .gt) v w)
  | .gtEq => ofTruth (comparison (· != .lt) v w)
  | .and => ofTruth (Kleene.and v.truth w.truth)
  | .or => ofTruth (Kleene.or v.truth w.truth)
  | .other _ => none

/-- `v IN (ws)`. -/
def inValues (v : Value F) (ws : List (Value F)) : Truth :=
  Kleene.any (fun w => comparison (· == .eq) v w) ws

/-- `v BETWEEN low AND high`. -/
def betweenValues (v low high : Value F) : Truth :=
  Kleene.and (comparison (· != .lt) v low) (comparison (· != .gt) v high)

def negateIf (negated : Bool) (t : Truth) : Truth := if negated then Kleene.not t else t

mutual

/-- The value of an expression on a row. -/
def Expr.eval (row : Row F) : Expr F → Value F
  | .column name => row name
  | .literal v => v.value
  | .binaryExpr left op right => op.eval (left.eval row) (right.eval row)
  | .not expr => ofTruth (Kleene.not (expr.eval row).truth)
  | .isNotNull expr => some (.boolean (expr.eval row).isSome)
  | .isNull expr => some (.boolean (expr.eval row).isNone)
  | .inList expr list negated =>
    ofTruth (negateIf negated (inValues (expr.eval row) (evalList row list)))
  | .between expr negated low high =>
    ofTruth (negateIf negated (betweenValues (expr.eval row) (low.eval row) (high.eval row)))
  | .other _ => none

def evalList (row : Row F) : List (Expr F) → List (Value F)
  | [] => []
  | expr :: list => expr.eval row :: evalList row list

end

/-- The row passes the filter. -/
def Expr.Holds (expr : Expr F) (row : Row F) : Prop := (expr.eval row).truth = some true

instance {expr : Expr F} {row : Row F} : Decidable (expr.Holds row) :=
  inferInstanceAs (Decidable (_ = some true))

end XorqDatafusion.Filter
