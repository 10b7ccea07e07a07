import NanoClaw.Library.PyText
import NanoClaw.Library.Utf8

/-! Where a URL leads, as Python's `urllib.request` and `http.client` read it: the authority
is cut out of the text, percent-decoded and split into a host and a port. -/
namespace NanoClaw.Url
open PyText

/-- The characters that end the authority of a URL. -/
def endsAuthority (c : Char) : Bool := c == '/' || c == '?' || c == '#'

/-- The scheme of a URL and what follows its `://`. -/
def splitScheme : List Char → Option (List Char × List Char)
  | [] => none
  | ':' :: '/' :: '/' :: rest => some ([],rest)
  | c :: cs => (splitScheme cs).map (fun (scheme,rest) => (c :: scheme,rest))

def authorityOf (rest : List Char) : List Char := rest.takeWhile (fun c => !endsAuthority c)

def hexDigit? (c : Char) : Option Nat :=
  if '0' ≤ c ∧ c ≤ '9' then some (c.toNat - 48)
  else if 'a' ≤ c ∧ c ≤ 'f' then some (c.toNat - 87)
  else if 'A' ≤ c ∧ c ≤ 'F' then some (c.toNat - 55)
  else none

/-- The text of `urllib.parse.unquote`: escapes and other ASCII characters are bytes of
UTF-8 to decode, any other character stands for itself. -/
def unquoteUnits : Option Utf8.Pending → List Char → List (Option Char)
  | p, [] => Utf8.flush p
  | p, '%' :: a :: b :: cs =>
    match hexDigit? a, hexDigit? b with
    | some m, some n =>
      (Utf8.step p (16 * m + n)).1 ++ unquoteUnits (Utf8.step p (16 * m + n)).2 cs
    | _, _ => (Utf8.step p 0x25).1 ++ unquoteUnits (Utf8.step p 0x25).2 (a :: b :: cs)
  | p, c :: cs =>
    if c.toNat ≤ 0x7f then
      (Utf8.step p c.toNat).1 ++ unquoteUnits (Utf8.step p c.toNat).2 cs
    else Utf8.flush p ++ some c :: unquoteUnits none cs

def unquote (s : List Char) : List Char := (unquoteUnits none s).map (·.getD '\uFFFD')

/-- The port a text stands for: the default when it is empty, none (`InvalidURL`) when it
is not a number. -/
def readPort (default : Int) (text : List Char) : Option Int :=
  match int? text with
  | some n => some n
  | none => if text = [] then some default else none

/-- A host in brackets without them. -/
def stripBrackets (host : List Char) : List Char :=
  if host.head? = some '[' ∧ host.getLast? = some ']' then host.tail.dropLast else host

/-- `HTTPConnection._get_hostport`: the port follows the last colon, unless a closing
bracket stands after that colon. -/
def getHostPort (default : Int) (netloc : List Char) : Option (List Char × Int) :=
  match rpartition ':' netloc with
  | some (host, text) =>
    if ']' ∈ text then some (stripBrackets netloc,default)
    else (readPort default text).map (fun port => (stripBrackets host,port))
  | none => some (stripBrackets netloc,default)

/-- The default port of the connection class that serves a scheme. -/
def defaultPort (scheme : List Char) : Int :=
  if scheme.map Char.toLower = ['h', 't', 't', 'p', 's'] then 443 else 80

/-- The host and port a URL is opened at; none when the port is not a number. -/
def target (url : List Char) : Option (List Char × Int) :=
  (splitScheme url).bind (fun (scheme,rest) =>
    getHostPort (defaultPort scheme) (unquote (authorityOf rest)))

theorem splitScheme_append {scheme : List Char} (h : ':' ∉ scheme) (rest : List Char) :
    splitScheme (scheme ++ ':' :: '/' :: '/' :: rest) = some (scheme,rest) := by
  induction scheme with
  | nil => rfl
  | cons c cs ih =>
    simp only [List.mem_cons, not_or] at h
    rw [List.cons_append, splitScheme, ih h.2]
    · rfl
    · intro s hc _
      exact absurd hc.symm h.1

/-- An authority runs on into whatever is glued to it. -/
theorem authorityOf_append {s : List Char} (h : ∀ c ∈ s, endsAuthority c = false) (t : List Char) :
    authorityOf (s ++ t) = s ++ authorityOf t :=
  List.takeWhile_append_of_pos (fun c hc => by simp [h c hc])

theorem unquote_cons {c : Char} (h : c ≠ '%') (cs : List Char) :
    unquote (c :: cs) = c :: unquote cs := by
  unfold unquote
  rw [unquoteUnits]
  · split
    · rename_i hc
      simp [Utf8.step_ascii hc, Char.ofNat_toNat]
    · simp [Utf8.flush]
  · rintro a b ds rfl
    exact absurd rfl h

@[simp] theorem unquote_nil : unquote [] = [] := rfl

/-- Text without a percent sign in front of an escaped text stays as it is. -/
theorem unquote_append {s : List Char} (h : '%' ∉ s) (t : List Char) :
    unquote (s ++ t) = s ++ unquote t := by
  induction s with
  | nil => rfl
  | cons c cs ih =>
    simp only [List.mem_cons, not_or] at h
    rw [List.cons_append, unquote_cons (Ne.symm h.1), ih h.2, List.cons_append]

theorem target_eq {scheme rest : List Char} (h : ':' ∉ scheme) :
    target (scheme ++ ':' :: '/' :: '/' :: rest) =
      getHostPort (defaultPort scheme) (unquote (authorityOf rest)) := by
  rw [target, splitScheme_append h, Option.bind_some]

end NanoClaw.Url
