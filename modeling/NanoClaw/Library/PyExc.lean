/-! The exceptions of Python that handlers tell apart, with the part of the class tree they
use. -/
namespace NanoClaw

inductive PyExc where
  | jsonDecodeError
  | unicodeDecodeError
  | unicodeEncodeError
  | valueError
  | keyError
  | typeError
  | attributeError
  | overflowError
  | recursionError
  | osError
  | integrityError
  | runtimeError
  | other (name : String)
  deriving DecidableEq, Repr

/-- `isinstance(exc, ValueError)`. -/
def PyExc.isValueError : PyExc → Bool
  | .jsonDecodeError | .unicodeDecodeError | .unicodeEncodeError | .valueError => true
  | _ => false

end NanoClaw
