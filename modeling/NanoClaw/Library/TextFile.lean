import NanoClaw.Library.PyExc
import NanoClaw.Library.Utf8

/-! Reading a text file: what `Path.read_text(encoding="utf-8")` returns or raises. -/
namespace NanoClaw

/-- A file as a process finds it. -/
inductive TextFile where
  | missing
  | unreadable
  | bytes (content : List UInt8)
  deriving DecidableEq, Repr

/-- `read_text`. Line ends are kept: JSON takes the two characters of one alike. -/
def TextFile.readText : TextFile → Except PyExc (List Char)
  | missing | unreadable => .error .osError
  | bytes content =>
    match Utf8.decode? content with
    | none => .error .unicodeDecodeError
    | some text => .ok text

end NanoClaw
