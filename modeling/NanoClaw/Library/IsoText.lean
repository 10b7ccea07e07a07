import NanoClaw.Library.CalendarFacts
import Mathlib.Data.String.Basic

/-! The text `isoformat` makes of an instant in UTC, with `+00:00` written as `Z`. Two instants
never have the same text. -/
namespace NanoClaw.IsoText
open Calendar

def digitChar (n : Nat) : Char := Char.ofNat (48 + n % 10)

/-- The last decimal digits of a number, zeros in front. -/
def digits : Nat → Nat → List Char
  | 0, _ => []
  | width + 1, n => digits width (n / 10) ++ [digitChar n]

/-- The fraction of a second, left out when it is zero. -/
def fractionText (microsecond : Nat) : List Char :=
  if microsecond = 0 then [] else '.' :: digits 6 microsecond

def isoText (f : Fields) : List Char :=
  digits 4 f.year ++ '-' :: (digits 2 f.month ++ '-' :: (digits 2 f.day ++ 'T' ::
    (digits 2 f.hour ++ ':' :: (digits 2 f.minute ++ ':' :: (digits 2 f.second ++
      (fractionText f.microsecond ++ ['Z']))))))

/-- `dt.isoformat().replace("+00:00", "Z")` for an instant of a UTC `datetime`. -/
def utcIso (t : Int) : String := String.ofList (isoText (ofMicros t.toNat))

private theorem digitChar_inj {n m : Nat} (h : digitChar n = digitChar m) : n % 10 = m % 10 := by
  have hdigit : ∀ a b : Fin 10, Char.ofNat (48 + a) = Char.ofNat (48 + b) → a = b := by decide
  exact congrArg Fin.val (hdigit ⟨n % 10,by omega⟩ ⟨m % 10,by omega⟩ h)

@[simp] theorem digits_length (width n : Nat) : (digits width n).length = width := by
  induction width generalizing n with
  | zero => rfl
  | succ width ih => simp [digits, ih]

/-- Numbers that fit a width are told apart by their digits. -/
theorem digits_inj {width n m : Nat} (hn : n < 10 ^ width) (hm : m < 10 ^ width)
    (h : digits width n = digits width m) : n = m := by
  induction width generalizing n m with
  | zero => omega
  | succ width ih =>
    rw [Nat.pow_succ] at hn hm
    obtain ⟨hhigh,hlow⟩ := List.append_inj h (by simp)
    have hdiv := ih (by omega) (by omega) hhigh
    have hmod := digitChar_inj (List.cons.inj hlow).1
    omega

/-- A number of fixed width in front of two equal texts comes off them. -/
private theorem digits_append_inj {width n m : Nat} {rest rest' : List Char}
    (hn : n < 10 ^ width) (hm : m < 10 ^ width)
    (h : digits width n ++ rest = digits width m ++ rest') : n = m ∧ rest = rest' := by
  obtain ⟨hdigits,hrest⟩ := List.append_inj h (by simp)
  exact ⟨digits_inj hn hm hdigits,hrest⟩

private theorem fractionText_inj {n m : Nat} (hn : n < 10 ^ 6) (hm : m < 10 ^ 6)
    (h : fractionText n = fractionText m) : n = m := by
  rw [fractionText, fractionText] at h
  split_ifs at h with h0 h1
  · omega
  · exact digits_inj hn hm (List.cons.inj h).2

theorem isoText_inj {f g : Fields} (hf : f.Valid) (hg : g.Valid) (h : isoText f = isoText g) :
    f = g := by
  obtain ⟨hfy,hfm,hfd,hfh,hfmin,hfs,hfu⟩ := hf
  obtain ⟨hgy,hgm,hgd,hgh,hgmin,hgs,hgu⟩ := hg
  have hfd' := daysInMonth_le f.year f.month
  have hgd' := daysInMonth_le g.year g.month
  obtain ⟨hy,h⟩ := digits_append_inj (by omega) (by omega) h
  obtain ⟨hm,h⟩ := digits_append_inj (by omega) (by omega) (List.cons.inj h).2
  obtain ⟨hd,h⟩ := digits_append_inj (by omega) (by omega) (List.cons.inj h).2
  obtain ⟨hh,h⟩ := digits_append_inj (by omega) (by omega) (List.cons.inj h).2
  obtain ⟨hmin,h⟩ := digits_append_inj (by omega) (by omega) (List.cons.inj h).2
  obtain ⟨hs,h⟩ := digits_append_inj (by omega) (by omega) (List.cons.inj h).2
  have hu := fractionText_inj (by omega) (by omega) (List.append_cancel_right h)
  cases f
  cases g
  simp_all

/-- Two instants of `datetime` with one text are one instant. -/
theorem utcIso_inj {a b : Int} (ha : InRange a) (hb : InRange b) (h : utcIso a = utcIso b) :
    a = b := by
  obtain ⟨hva,hma⟩ := ofMicros_spec ha
  obtain ⟨hvb,hmb⟩ := ofMicros_spec hb
  have hfields := isoText_inj hva hvb (String.ofList_injective h)
  rw [hfields, hmb] at hma
  have ha0 : 0 ≤ a := ha.1
  have hb0 : 0 ≤ b := hb.1
  omega

end NanoClaw.IsoText
