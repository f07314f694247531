import XorqDatafusion.RecordBatch

/-! Calls into Python, and what Rust makes of the objects they return. -/
namespace XorqDatafusion

variable {O A V R : Type}

/-- How a call into the accumulator goes wrong. -/
inductive Fault
  | returned (error : DataFusionError)
  | panicked (message : String)
deriving DecidableEq

def toExternalErr {α : Type} (result : Except PyErr α) : Except Fault α :=
  result.mapError fun exception => .returned (.external exception)

/-- Python objects of type `O`, seen through the conversions of pyo3 and arrow; `array` is
`ArrayData::from_pyarrow_bound`, `scalar` the extraction of a `PyScalarValue`. -/
structure PyTypes (O A V : Type) where
  usize : O → Except PyErr ℕ
  bool : O → Except PyErr Bool
  tuple : O → Except PyErr (List O)
  array : O → Except PyErr A
  scalar : O → Except PyErr V
  valueError : String → PyErr

/-- `Result::unwrap`, without the debug form of the error in its message. -/
def unwrap {α : Type} : Except PyErr α → Except Fault α
  | .ok a => .ok a
  | .error _ => .error (.panicked "called `Result::unwrap()` on an `Err` value")

end XorqDatafusion
