import NanoClaw.Library.PyText
import NanoClaw.Messages.Timezone
import NanoClaw.Store.Messages

/-! The prompt made of a batch of messages, and the text of an agent's output that goes out. -/
namespace NanoClaw.Router
open Store Timezone

/-- `html.escape(value, quote=True)`. -/
def escapeChar : Char → List Char
  | '&' => ['&','a','m','p',';']
  | '<' => ['&','l','t',';']
  | '>' => ['&','g','t',';']
  | '"' => ['&','q','u','o','t',';']
  | '\'' => ['&','#','x','2','7',';']
  | c => [c]

def escapeXml (value : String) : String := String.ofList (value.toList.flatMap escapeChar)

def messageLine (m : NewMessage) (displayTime : String) : String :=
  "<message sender=\"" ++ escapeXml m.senderName ++ "\" time=\"" ++ escapeXml displayTime ++ "\">" ++
    escapeXml m.content ++ "</message>"

/-- The loop of `format_messages`, up to the first time that cannot be shown. -/
def messageLines (zones : Zones) (timezone : String) : List NewMessage → Except PyExc (List String)
  | [] => .ok []
  | m :: ms =>
    match formatLocalTime zones m.timestamp timezone with
    | .error e => .error e
    | .ok displayTime =>
      match messageLines zones timezone ms with
      | .error e => .error e
      | .ok lines => .ok (messageLine m displayTime :: lines)

def formatMessages (zones : Zones) (messages : List NewMessage) (timezone : String) :
    Except PyExc String :=
  match messageLines zones timezone messages with
  | .error e => .error e
  | .ok lines =>
    .ok ("<context timezone=\"" ++ escapeXml timezone ++ "\" />\n" ++ "<messages>\n" ++
      String.intercalate "\n" lines ++ "\n</messages>")

/-- Lower case as `re.IGNORECASE` compares: four letters beside ASCII have an ASCII one. -/
def foldCase (c : Char) : Char :=
  if c = '\u0130' ∨ c = '\u0131' then 'i'
  else if c = '\u017F' then 's'
  else if c = '\u212A' then 'k'
  else c.toLower

/-- What follows a literal that the text starts with, letter case aside. -/
def dropLiteral : List Char → List Char → Option (List Char)
  | [], s => some s
  | _ :: _, [] => none
  | p :: ps, c :: s => if foldCase c = foldCase p then dropLiteral ps s else none

/-- What stands before and after the first occurrence of a literal. -/
def splitLiteral (literal : List Char) : List Char → Option (List Char × List Char)
  | [] => none
  | c :: s =>
    match dropLiteral literal (c :: s) with
    | some rest => some ([],rest)
    | none => (splitLiteral literal s).map (fun p => (c :: p.1,p.2))

def openTag : List Char := "<internal>".toList

def closeTag : List Char := "</internal>".toList

/-- `_INTERNAL_RE.sub("", text)`: each block from an opening tag to the next closing one goes.
An opening tag with no closing one behind it ends the search. -/
def removeInternal : Nat → List Char → List Char
  | 0, s => s
  | fuel + 1, s =>
    match splitLiteral openTag s with
    | none => s
    | some (before, inner) =>
      match splitLiteral closeTag inner with
      | none => s
      | some (_, rest) => before ++ removeInternal fuel rest

def stripInternalTags (text : String) : String :=
  String.ofList (PyText.strip (removeInternal text.length text.toList))

def formatOutbound (rawText : String) : String := stripInternalTags rawText

private theorem messageLines_isOk_iff {zones : Zones} {timezone : String} {ms : List NewMessage} :
    (∃ lines, messageLines zones timezone ms = .ok lines) ↔
      ∀ m ∈ ms, Displayable zones timezone m.timestamp := by
  induction ms with
  | nil => simp [messageLines]
  | cons m ms ih =>
    rw [List.forall_mem_cons, ← formatLocalTime_isOk_iff, ← ih]
    rcases hm : formatLocalTime zones m.timestamp timezone with e | displayTime
    · simp [messageLines, hm]
    · rcases hms : messageLines zones timezone ms with e | lines <;> simp [messageLines, hm, hms]

/-- A prompt is made exactly when the time of every message of the batch can be shown. -/
theorem formatMessages_isOk_iff {zones : Zones} {timezone : String} {ms : List NewMessage} :
    (∃ prompt, formatMessages zones ms timezone = .ok prompt) ↔
      ∀ m ∈ ms, Displayable zones timezone m.timestamp := by
  rw [← messageLines_isOk_iff]
  rcases h : messageLines zones timezone ms with e | lines <;> simp [formatMessages, h]

end NanoClaw.Router
