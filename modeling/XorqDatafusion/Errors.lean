import XorqDatafusion.RecordBatch

/-! Errors on their way from Python through DataFusion and back. -/
namespace XorqDatafusion.Errors

mutual

/-- `datafusion::error::DataFusionError`; of the variants other than `External` only the text counts. -/
inductive InnerDataFusionError
  | external (boxed : BoxedError)
  | other (text : String)

/-- What this crate puts into an `External`. -/
inductive BoxedError
  | pyErr (exception : PyErr)
  | crateError (error : DataFusionError)

/-- The error type of this crate. -/
inductive DataFusionError
  | executionError (error : InnerDataFusionError)
  | arrowError (text : String)
  | common (text : String)
  | pythonError (exception : PyErr)
  | encodeError (text : String)

end

/-- An exception as the caller gets it: an object that was raised, or a new `ValueError`. -/
inductive Raised
  | object (exception : PyErr)
  | valueError (text : String)
deriving DecidableEq

/-- The `Display` of the two error types. -/
structure Texts where
  boxed : BoxedError → String
  inner : InnerDataFusionError → String

def toExternalErr (e : PyErr) : InnerDataFusionError := .external (.pyErr e)

def fromDatafusionError (texts : Texts) (err : InnerDataFusionError) : Raised :=
  match err with
  | .external (.pyErr e) => .object e
  | .external original => .valueError (texts.boxed original)
  | _ => .valueError (texts.inner err)

/-- An exception is recovered exactly from an external error that holds it. -/
theorem fromDatafusionError_eq_object_iff {texts : Texts} {err : InnerDataFusionError} {e : PyErr} :
    fromDatafusionError texts err = .object e ↔ err = toExternalErr e := by
  unfold fromDatafusionError toExternalErr
  split <;> simp_all

/-- The errors of projections and of the stream bridge among all of DataFusion's. -/
def ofDataFusionError : XorqDatafusion.DataFusionError → InnerDataFusionError
  | .external e => toExternalErr e
  | .execution text | .arrow text => .other text

/-- How an adapter goes wrong: it returns an error, or panics. -/
inductive Failure
  | returned (error : InnerDataFusionError)
  | panicked

def Failure.external (e : PyErr) : Failure := .returned (toExternalErr e)

/-- `DataFusionError::External(Box::new(err))`, for an error of this crate. -/
def Failure.boxed (e : DataFusionError) : Failure := .returned (.external (.crateError e))

end XorqDatafusion.Errors
