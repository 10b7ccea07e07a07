import Mathlib.Data.List.Basic

/-! Decoding of UTF-8, one byte after the other. A malformed part becomes one unit of its
own, which strict decoding refuses. -/
namespace NanoClaw.Utf8

/-- A character begun: the bytes it still owes, the bits read so far and the range its
next byte has to be in. -/
structure Pending where
  owed : Nat
  bits : Nat
  low : Nat
  high : Nat
  deriving DecidableEq, Repr

/-- The first byte of a character. -/
def lead (b : Nat) : List (Option Char) × Option Pending :=
  if b ≤ 0x7f then ([some (Char.ofNat b)],none)
  else if 0xc2 ≤ b ∧ b ≤ 0xdf then ([],some ⟨1,b - 0xc0,0x80,0xbf⟩)
  else if b = 0xe0 then ([],some ⟨2,0,0xa0,0xbf⟩)
  else if b = 0xed then ([],some ⟨2,0xd,0x80,0x9f⟩)
  else if 0xe1 ≤ b ∧ b ≤ 0xef then ([],some ⟨2,b - 0xe0,0x80,0xbf⟩)
  else if b = 0xf0 then ([],some ⟨3,0,0x90,0xbf⟩)
  else if 0xf1 ≤ b ∧ b ≤ 0xf3 then ([],some ⟨3,b - 0xf0,0x80,0xbf⟩)
  else if b = 0xf4 then ([],some ⟨3,4,0x80,0x8f⟩)
  else ([none],none)

def step : Option Pending → Nat → List (Option Char) × Option Pending
  | none, b => lead b
  | some p, b =>
    if p.low ≤ b ∧ b ≤ p.high then
      if p.owed = 1 then ([some (Char.ofNat (p.bits * 64 + (b - 0x80)))],none)
      else ([],some ⟨p.owed - 1,p.bits * 64 + (b - 0x80),0x80,0xbf⟩)
    else (none :: (lead b).1,(lead b).2)

/-- What a character cut short leaves behind. -/
def flush : Option Pending → List (Option Char)
  | none => []
  | some _ => [none]

def units : Option Pending → List UInt8 → List (Option Char)
  | p, [] => flush p
  | p, b :: bs => (step p b.toNat).1 ++ units (step p b.toNat).2 bs

/-- Strict decoding; none stands for `UnicodeDecodeError`. -/
def decode? (bytes : List UInt8) : Option (List Char) := (units none bytes).mapM id

/-- Decoding with `errors="ignore"`, which leaves malformed parts out. -/
def decodeIgnore (bytes : List UInt8) : List Char := (units none bytes).filterMap id

private theorem filterMap_of_mapM {units : List (Option Char)} {text : List Char}
    (h : units.mapM id = some text) : units.filterMap id = text := by
  induction units generalizing text with
  | nil =>
    cases h
    rfl
  | cons c units ih =>
    rw [List.mapM_cons] at h
    cases c with
    | none => cases h
    | some c =>
      cases hrest : units.mapM id with
      | none =>
        rw [hrest] at h
        cases h
      | some rest =>
        rw [hrest] at h
        cases h
        rw [List.filterMap_cons, ih hrest]
        rfl

/-- What strict decoding accepts is decoded alike. -/
theorem decodeIgnore_of_decode {bytes : List UInt8} {text : List Char} (h : decode? bytes = some text) :
    decodeIgnore bytes = text := filterMap_of_mapM h

theorem step_ascii {b : Nat} (h : b ≤ 0x7f) : step none b = ([some (Char.ofNat b)],none) := by
  simp only [step, lead, if_pos h]

/-- `text.encode("utf-8")`. -/
def encode (text : List Char) : List UInt8 := text.flatMap String.utf8EncodeChar

theorem encode_inj {a b : List Char} : encode a = encode b ↔ a = b := by
  refine ⟨fun h => String.ofList_injective (String.toByteArray_inj.mp ?_),congrArg _⟩
  simp only [String.toByteArray_ofList, List.utf8Encode]
  exact congrArg List.toByteArray h

/-- Every character has one byte. -/
def Ascii (text : List Char) : Prop := ∀ c ∈ text, c.toNat ≤ 0x7f

instance (text : List Char) : Decidable (Ascii text) :=
  List.decidableBAll (fun c : Char => c.toNat ≤ 0x7f) text

theorem encodeChar_ascii {c : Char} (h : c.toNat ≤ 0x7f) :
    String.utf8EncodeChar c = [UInt8.ofNat c.toNat] := by
  have hsize : c.utf8Size = 1 := Char.utf8Size_eq_one_iff.mpr h
  exact String.utf8EncodeChar_eq_singleton hsize

/-- An ASCII text is decoded from its bytes. -/
theorem decode_encode {text : List Char} (h : Ascii text) : decode? (encode text) = some text := by
  induction text with
  | nil => rfl
  | cons c cs ih =>
    have hc : c.toNat ≤ 0x7f := h c List.mem_cons_self
    have hbyte : (UInt8.ofNat c.toNat).toNat = c.toNat := by
      rw [UInt8.toNat_ofNat']
      omega
    have ih := ih (fun d hd => h d (List.mem_cons_of_mem c hd))
    rw [decode?, encode] at ih
    rw [decode?, encode, List.flatMap_cons, encodeChar_ascii hc, List.singleton_append, units, hbyte,
      step_ascii hc, List.singleton_append, List.mapM_cons, ih, Char.ofNat_toNat]
    rfl

end NanoClaw.Utf8
