import NanoClaw.Library.Dict
import NanoClaw.Library.PyExc
import Mathlib.Data.String.Basic

/-! Python's `json`: values, `dumps` with `ensure_ascii` and `loads`. The value of a float is
kept as its `repr`; a string with a lone surrogate keeps its code points. -/
namespace NanoClaw

inductive Json where
  | null
  | bool (b : Bool)
  | int (n : Int)
  | float (repr : String)
  | str (s : String)
  | illFormed (codes : List Nat)
  | arr (items : List Json)
  | obj (fields : List (String × Json))

namespace Json

/-- `bool(value)`. -/
def truthy : Json → Bool
  | null => false
  | bool b => b
  | int n => n != 0
  | float r => r != "0.0" && r != "-0.0"
  | str s => s != ""
  | illFormed _ => true
  | arr items => !items.isEmpty
  | obj fields => !fields.isEmpty

/-- `a or b`. -/
def orElse (a b : Json) : Json := if a.truthy then a else b

/-- `fields.get(key)`, where a missing key reads as `None`. -/
def getKey (key : String) (fields : List (String × Json)) : Json :=
  (Dict.lookup key fields).getD null

/-- `str(value)`, given the `repr` of containers; none for a text with a lone surrogate, which
no database column takes. -/
def text? (reprOf : Json → String) : Json → Option String
  | null => some "None"
  | bool true => some "True"
  | bool false => some "False"
  | int n => some (toString n)
  | float r => some r
  | str s => some s
  | illFormed _ => none
  | v => some (reprOf v)

def isText : Json → Bool
  | str _ | illFormed _ => true
  | _ => false

def hexDigit (n : Nat) : Char := if n < 10 then Char.ofNat (48 + n) else Char.ofNat (87 + n)

/-- `\uXXXX` for a code unit. -/
def escapeUnit (n : Nat) : List Char :=
  ['\\','u',hexDigit (n / 4096 % 16),hexDigit (n / 256 % 16),hexDigit (n / 16 % 16),
    hexDigit (n % 16)]

/-- The UTF-16 code units of a character. -/
def unitsOf (c : Char) : List Nat :=
  if c.toNat < 0x10000 then [c.toNat]
  else [0xd800 + (c.toNat - 0x10000) / 0x400,0xdc00 + (c.toNat - 0x10000) % 0x400]

/-- The characters `ensure_ascii` writes as they are. -/
def isPlain (c : Char) : Bool :=
  32 ≤ c.toNat && c.toNat ≤ 126 && c != '\\' && c != '"'

def escapeChar (c : Char) : List Char :=
  if isPlain c then [c]
  else
    match c with
    | '\\' => ['\\','\\']
    | '"' => ['\\','"']
    | '\n' => ['\\','n']
    | '\r' => ['\\','r']
    | '\t' => ['\\','t']
    | '\x0c' => ['\\','f']
    | '\x08' => ['\\','b']
    | c => (unitsOf c).flatMap escapeUnit

def escape (s : List Char) : List Char := s.flatMap escapeChar

def quote (s : String) : List Char := '"' :: escape s.toList ++ ['"']

mutual

def dumps : Json → List Char
  | null => ['n','u','l','l']
  | bool true => ['t','r','u','e']
  | bool false => ['f','a','l','s','e']
  | int n => (toString n).toList
  | float r =>
    if r = "nan" then "NaN".toList
    else if r = "inf" then "Infinity".toList
    else if r = "-inf" then "-Infinity".toList
    else r.toList
  | str s => quote s
  | illFormed codes =>
    '"' :: codes.flatMap (fun n =>
      if 0xd800 ≤ n ∧ n ≤ 0xdfff then escapeUnit n else escapeChar (Char.ofNat n)) ++ ['"']
  | arr items => '[' :: dumpsItems items ++ [']']
  | obj fields => '{' :: dumpsFields fields ++ ['}']

def dumpsItems : List Json → List Char
  | [] => []
  | v :: vs => dumps v ++ dumpsMoreItems vs

def dumpsMoreItems : List Json → List Char
  | [] => []
  | v :: vs => ',' :: ' ' :: (dumps v ++ dumpsMoreItems vs)

def dumpsFields : List (String × Json) → List Char
  | [] => []
  | (k, v) :: fields => quote k ++ ':' :: ' ' :: (dumps v ++ dumpsMoreFields fields)

def dumpsMoreFields : List (String × Json) → List Char
  | [] => []
  | (k, v) :: fields => ',' :: ' ' :: (quote k ++ ':' :: ' ' :: (dumps v ++ dumpsMoreFields fields))

end

/-- Whether the interpreter turns a number into text. -/
def printable (n : Int) : Bool := (Nat.toDigits 10 n.natAbs).length ≤ 4300

/-- What a scanner returns: the value read and the rest of the text. -/
abbrev Scan (α : Type) := Except PyExc (α × List Char)

def isWs (c : Char) : Bool := c == ' ' || c == '\t' || c == '\n' || c == '\r'

def skipWs (s : List Char) : List Char := s.dropWhile isWs

def hexValue? (c : Char) : Option Nat :=
  if '0' ≤ c ∧ c ≤ '9' then some (c.toNat - 48)
  else if 'a' ≤ c ∧ c ≤ 'f' then some (c.toNat - 87)
  else if 'A' ≤ c ∧ c ≤ 'F' then some (c.toNat - 55)
  else none

def hex4? (a b c d : Char) : Option Nat :=
  match hexValue? a, hexValue? b, hexValue? c, hexValue? d with
  | some i, some j, some k, some l => some (4096 * i + 256 * j + 16 * k + l)
  | _, _, _, _ => none

def simpleEscape? : Char → Option Char
  | '"' => some '"'
  | '\\' => some '\\'
  | '/' => some '/'
  | 'b' => some '\x08'
  | 'f' => some '\x0c'
  | 'n' => some '\n'
  | 'r' => some '\r'
  | 't' => some '\t'
  | _ => none

/-- Put what was read in front of the rest of a string. -/
def push (n : Nat) : Scan (List Nat) → Scan (List Nat)
  | .ok (ns, rest) => .ok (n :: ns,rest)
  | .error e => .error e

/-- The code units of a string literal after its opening quote. -/
def scanUnits : List Char → Scan (List Nat)
  | [] => .error .jsonDecodeError
  | '"' :: rest => .ok ([],rest)
  | '\\' :: 'u' :: a :: b :: c :: d :: rest =>
    match hex4? a b c d with
    | some n => push n (scanUnits rest)
    | none => .error .jsonDecodeError
  | '\\' :: e :: rest =>
    match simpleEscape? e with
    | some c => push c.toNat (scanUnits rest)
    | none => .error .jsonDecodeError
  | c :: rest =>
    if c = '\\' ∨ c.toNat < 32 then .error .jsonDecodeError else push c.toNat (scanUnits rest)

/-- Surrogate pairs become one code point, lone surrogates stay. -/
def joinSurrogates : List Nat → List Nat
  | hi :: lo :: rest =>
    if 0xd800 ≤ hi ∧ hi ≤ 0xdbff ∧ 0xdc00 ≤ lo ∧ lo ≤ 0xdfff then
      (0x10000 + (hi - 0xd800) * 0x400 + (lo - 0xdc00)) :: joinSurrogates rest
    else hi :: joinSurrogates (lo :: rest)
  | [n] => [n]
  | [] => []

def ofCodes (codes : List Nat) : Json :=
  if codes.all (fun n => n < 0xd800 || 0xdfff < n) then str (String.ofList (codes.map Char.ofNat))
  else illFormed codes

/-- A key; a lone surrogate in it reads as the replacement character, so that it is no key
any program text asks for. -/
def keyOfCodes (codes : List Nat) : String :=
  String.ofList (codes.map (fun n => if n < 0xd800 ∨ 0xdfff < n then Char.ofNat n else '\uFFFD'))

def isDigit (c : Char) : Bool := '0' ≤ c && c ≤ '9'

def natOfDigits (ds : List Char) : Nat := ds.foldl (fun n d => 10 * n + (d.toNat - 48)) 0

/-- The fraction of a number, with its point. -/
def fraction : List Char → List Char
  | '.' :: rest => if rest.takeWhile isDigit = [] then [] else '.' :: rest.takeWhile isDigit
  | _ => []

/-- The exponent of a number, with its letter and sign. -/
def exponent : List Char → List Char
  | e :: rest =>
    if e = 'e' ∨ e = 'E' then
      match rest with
      | s :: rest' =>
        if s = '+' ∨ s = '-' then
          if rest'.takeWhile isDigit = [] then [] else e :: s :: rest'.takeWhile isDigit
        else if rest.takeWhile isDigit = [] then [] else e :: rest.takeWhile isDigit
      | [] => []
    else []
  | [] => []

/-- The digits before the point: a zero alone, or digits that do not start with one. -/
def intPart : List Char → List Char
  | '0' :: _ => ['0']
  | s => s.takeWhile isDigit

/-- What `loads` takes from the interpreter: the `repr` of the double nearest to a literal,
and the nesting its stack has room for. -/
structure Interp where
  floatRepr : List Char → String
  depth : Nat

/-- A number after its sign. -/
def scanNumber (floatRepr : List Char → String) (sign : Bool) (body : List Char) : Scan Json :=
  let ds := intPart body
  let frac := fraction (body.drop ds.length)
  let exp := exponent ((body.drop ds.length).drop frac.length)
  let rest := ((body.drop ds.length).drop frac.length).drop exp.length
  if ds = [] then .error .jsonDecodeError
  else if frac = [] ∧ exp = [] then
    if 4300 < ds.length then .error .valueError
    else .ok (int (if sign then -Int.ofNat (natOfDigits ds) else Int.ofNat (natOfDigits ds)),rest)
  else .ok (float (floatRepr ((if sign then ['-'] else []) ++ ds ++ frac ++ exp)),rest)

section Containers
variable (value : List Char → Scan Json)

/-- The items of an array from a value on, its closing bracket included. -/
def scanItems : Nat → List Json → List Char → Scan Json
  | 0, _, _ => .error .jsonDecodeError
  | fuel + 1, items, text =>
    match value text with
    | .error e => .error e
    | .ok (v, rest) =>
      match skipWs rest with
      | ']' :: rest => .ok (arr (items ++ [v]),rest)
      | ',' :: rest => scanItems fuel (items ++ [v]) (skipWs rest)
      | _ => .error .jsonDecodeError

/-- The fields of an object from a key on, its closing brace included. -/
def scanFields : Nat → List (String × Json) → List Char → Scan Json
  | 0, _, _ => .error .jsonDecodeError
  | fuel + 1, fields, '"' :: text =>
    match scanUnits text with
    | .error e => .error e
    | .ok (key, rest) =>
      match skipWs rest with
      | ':' :: rest =>
        match value (skipWs rest) with
        | .error e => .error e
        | .ok (v, rest) =>
          match skipWs rest with
          | '}' :: rest =>
            .ok (obj (Dict.insert (keyOfCodes (joinSurrogates key)) v fields),rest)
          | ',' :: rest =>
            scanFields fuel (Dict.insert (keyOfCodes (joinSurrogates key)) v fields) (skipWs rest)
          | _ => .error .jsonDecodeError
      | _ => .error .jsonDecodeError
  | _ + 1, _, _ => .error .jsonDecodeError

/-- An array after its opening bracket. -/
def scanArray (text : List Char) : Scan Json :=
  match skipWs text with
  | ']' :: rest => .ok (arr [],rest)
  | rest => scanItems value (rest.length + 1) [] rest

/-- An object after its opening brace. -/
def scanObject (text : List Char) : Scan Json :=
  match skipWs text with
  | '}' :: rest => .ok (obj [],rest)
  | rest => scanFields value (rest.length + 1) [] rest

end Containers

/-- One value, at most `depth` containers deep. -/
def scanValue (floatRepr : List Char → String) : Nat → List Char → Scan Json
  | depth, text =>
    match text with
    | '"' :: rest =>
      match scanUnits rest with
      | .ok (units, rest) => .ok (ofCodes (joinSurrogates units),rest)
      | .error e => .error e
    | '{' :: rest =>
      match depth with
      | 0 => .error .recursionError
      | depth + 1 => scanObject (scanValue floatRepr depth) rest
    | '[' :: rest =>
      match depth with
      | 0 => .error .recursionError
      | depth + 1 => scanArray (scanValue floatRepr depth) rest
    | 'n' :: 'u' :: 'l' :: 'l' :: rest => .ok (null,rest)
    | 't' :: 'r' :: 'u' :: 'e' :: rest => .ok (bool true,rest)
    | 'f' :: 'a' :: 'l' :: 's' :: 'e' :: rest => .ok (bool false,rest)
    | 'N' :: 'a' :: 'N' :: rest => .ok (float "nan",rest)
    | 'I' :: 'n' :: 'f' :: 'i' :: 'n' :: 'i' :: 't' :: 'y' :: rest => .ok (float "inf",rest)
    | '-' :: 'I' :: 'n' :: 'f' :: 'i' :: 'n' :: 'i' :: 't' :: 'y' :: rest => .ok (float "-inf",rest)
    | '-' :: rest => scanNumber floatRepr true rest
    | rest => scanNumber floatRepr false rest

/-- `json.loads` of a text. -/
def loads (interp : Interp) (text : List Char) : Except PyExc Json :=
  if text.head? = some '\uFEFF' then .error .jsonDecodeError
  else
    match scanValue interp.floatRepr interp.depth (skipWs text) with
    | .error e => .error e
    | .ok (v, rest) => if skipWs rest = [] then .ok v else .error .jsonDecodeError

end Json
end NanoClaw
