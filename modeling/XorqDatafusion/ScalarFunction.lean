import XorqDatafusion.RecordBatch

/-! `make_scalar_function`, for any way a call within it may end. -/
namespace XorqDatafusion.Udf

variable {T α : Type} {m : Type → Type}

/-- A value with its type. -/
structure ScalarValue (T α : Type) where
  dataType : T
  value : α
deriving DecidableEq

inductive ColumnarValue (T α : Type)
  | array (array : ArrayRef T α)
  | scalar (value : ScalarValue T α)
deriving DecidableEq

def ColumnarValue.dataType : ColumnarValue T α → T
  | .array a => a.dataType
  | .scalar s => s.dataType

/-- `ScalarValue::to_array_of_size` and `ScalarValue::try_from_array`. -/
structure Arrow (T α : Type) (m : Type → Type) where
  toArrayOfSize : ScalarValue T α → ℕ → m (ArrayRef T α)
  tryFromArray : ArrayRef T α → ℕ → m (ScalarValue T α)

/-- One step of the fold that looks for the length of an array. -/
def lengthOf (acc : Option ℕ) : ColumnarValue T α → Option ℕ
  | .scalar _ => acc
  | .array a => some a.values.length

variable [Monad m] (arrow : Arrow T α m) (inner : List (ArrayRef T α) → m (ArrayRef T α))

def intoArray (numRows : ℕ) : ColumnarValue T α → m (ArrayRef T α)
  | .array a => pure a
  | .scalar s => arrow.toArrayOfSize s numRows

def makeScalarFunction (args : List (ColumnarValue T α)) : m (ColumnarValue T α) := do
  let len := args.foldl lengthOf none
  let inferredLength := len.getD 1
  let arrays ← args.mapM (intoArray arrow inferredLength)
  let result ← inner arrays
  if len.isNone then
    -- If all inputs are scalar, keeps output as scalar.
    return .scalar (← arrow.tryFromArray result 0)
  else return .array result

end XorqDatafusion.Udf
