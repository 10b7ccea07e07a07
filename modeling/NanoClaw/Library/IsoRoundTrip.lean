import NanoClaw.Library.IsoFormat
import NanoClaw.Library.IsoText

/-! `fromisoformat` reads back what `isoformat` writes of an instant in UTC. -/
namespace NanoClaw.IsoFormat
open Calendar IsoText

/-- The text of an instant up to its offset. -/
def isoFront (f : Fields) : List Char :=
  digits 4 f.year ++ '-' :: (digits 2 f.month ++ '-' :: (digits 2 f.day ++ 'T' ::
    (digits 2 f.hour ++ ':' :: (digits 2 f.minute ++ ':' :: (digits 2 f.second ++
      fractionText f.microsecond)))))

theorem isoText_eq (f : Fields) : isoText f = isoFront f ++ ['Z'] := by
  simp [isoText, isoFront]

/-- The bytes of decimal digits of one width. -/
def digitBytes (width n : Nat) : Bytes := (digits width n).flatMap utf8

theorem utf8_digitChar (n : Nat) : utf8 (digitChar n) = [48 + n % 10] := by
  have hdigit : ∀ a : Fin 10, utf8 (Char.ofNat (48 + a)) = [48 + a.val] := by decide
  exact hdigit ⟨n % 10,Nat.mod_lt n (by omega)⟩

theorem digitBytes_succ (width n : Nat) :
    digitBytes (width + 1) n = digitBytes width (n / 10) ++ [48 + n % 10] := by
  simp [digitBytes, digits, utf8_digitChar]

@[simp] theorem digitBytes_length (width n : Nat) : (digitBytes width n).length = width := by
  induction width generalizing n with
  | zero => rfl
  | succ width ih => simp [digitBytes_succ, ih]

theorem isDigit_of_mem {width n b : Nat} (h : b ∈ digitBytes width n) : isDigit b = true := by
  induction width generalizing n with
  | zero => cases h
  | succ width ih =>
    rw [digitBytes_succ] at h
    rcases List.mem_append.mp h with h | h
    · exact ih h
    · rw [List.mem_singleton.mp h, isDigit, Bool.and_eq_true, decide_eq_true_eq, decide_eq_true_eq]
      omega

/-- From a position on the text reads so. -/
def At (s : Bytes) (i : Nat) (rest : Bytes) : Prop := s.drop i = rest

section At
variable {s rest : Bytes} {i : Nat}

theorem byte_eq (s : Bytes) (i : Nat) : byte s i = (s.drop i).headD 0 := by
  rw [byte, List.getD_eq_getElem?_getD, ← List.head?_drop, List.headD_eq_head?_getD]

theorem At.byte {b : Nat} (h : At s i (b :: rest)) : byte s i = b := by
  rw [byte_eq, h]
  rfl

theorem At.byte_end (h : At s i []) : IsoFormat.byte s i = 0 := by
  rw [byte_eq, h]
  rfl

theorem At.length (h : At s i rest) (hrest : rest ≠ []) : s.length = i + rest.length := by
  have hpos := List.length_pos_of_ne_nil hrest
  rw [← h, List.length_drop] at hpos ⊢
  omega

theorem At.skip {front : Bytes} (h : At s i (front ++ rest)) : At s (i + front.length) rest := by
  rw [At, ← List.drop_drop, h, List.drop_left]

theorem At.next {b : Nat} (h : At s i (b :: rest)) : At s (i + 1) rest :=
  @At.skip s rest i [b] h

/-- The byte so many places on. -/
theorem At.byte_add {front : Bytes} {b : Nat} (h : At s i (front ++ b :: rest)) :
    IsoFormat.byte s (i + front.length) = b :=
  h.skip.byte

/-- A number reads back, whatever stands behind its digits. -/
theorem At.parseDigits {width n : Nat} (hn : n < 10 ^ width)
    (h : At s i (digitBytes width n ++ rest)) : parseDigits s i width = some n := by
  induction width generalizing n rest with
  | zero =>
    obtain rfl : n = 0 := by omega
    rfl
  | succ width ih =>
    rw [Nat.pow_succ] at hn
    rw [digitBytes_succ, List.append_assoc] at h
    have hlast := h.byte_add
    rw [digitBytes_length] at hlast
    have hdigit : isDigit (48 + n % 10) = true :=
      isDigit_of_mem (digitBytes_succ width n ▸ List.mem_append_right _ List.mem_cons_self)
    rw [IsoFormat.parseDigits, hlast, if_pos hdigit, ih (by omega) h, Option.map_some]
    congr 1
    omega

theorem At.digits {width n : Nat} (h : At s i (digitBytes width n ++ rest)) :
    At s (i + width) rest := by
  have h := h.skip
  rwa [digitBytes_length] at h

theorem At.isDigit {width n : Nat} (h : At s i (digitBytes (width + 1) n ++ rest)) :
    isDigit (IsoFormat.byte s i) = true := by
  have hmem := fun b => @isDigit_of_mem (width + 1) n b
  have hlen := digitBytes_length (width + 1) n
  cases hbytes : digitBytes (width + 1) n with
  | nil =>
    rw [hbytes] at hlen
    contradiction
  | cons b tail =>
    rw [hbytes] at h hmem
    rw [h.byte]
    exact hmem b List.mem_cons_self

/-- No byte in front of the offset is a sign or a `Z`. -/
theorem At.findZone {front : Bytes} {b fuel : Nat} (h : At s i (front ++ b :: rest))
    (hfront : ∀ x ∈ front, x ≠ 0x2b ∧ x ≠ 0x2d ∧ x ≠ 0x5a) (hb : b = 0x2b)
    (hfuel : front.length < fuel) : findZone s i fuel = i + front.length := by
  induction front generalizing i fuel with
  | nil =>
    cases fuel with
    | zero => omega
    | succ fuel => rw [IsoFormat.findZone, h.byte, if_pos (Or.inl hb), List.length_nil, Nat.add_zero]
  | cons x front ih =>
    cases fuel with
    | zero => omega
    | succ fuel =>
      obtain ⟨hplus,hminus,hz⟩ := hfront x List.mem_cons_self
      have hx : ¬(x = 0x2b ∨ x = 0x2d ∨ x = 0x5a) := by omega
      rw [List.cons_append] at h
      rw [IsoFormat.findZone, h.byte, if_neg hx,
        ih h.next (fun y hy => hfront y (List.mem_cons_of_mem _ hy))
          (Nat.lt_of_succ_lt_succ hfuel), List.length_cons]
      omega

end At

section Time
variable {s rest : Bytes} {p pEnd fuel v : Nat} {sep : Bool} {c : Clock}

/-- A unit with a colon behind it. -/
theorem parseUnits_colon {i : Nat} (h : At s p (digitBytes 2 v ++ 0x3a :: rest)) (hv : v < 100)
    (hend : p + 3 < pEnd) (hsep : i = 0 ∨ sep = true) :
    parseUnits s pEnd sep (fuel + 1) i p c =
      parseUnits s pEnd true fuel (i + 1) (p + 3) (setUnit c i v) := by
  have hsep' : (if i = 0 then true else sep) = true := by
    rcases hsep with h | h <;> simp [h]
  simp only [parseUnits, h.parseDigits hv, h.digits.byte]
  rw [if_neg (by omega), beq_self_eq_true, hsep', if_pos ⟨rfl,trivial⟩]

/-- A unit at the end. -/
theorem parseUnits_end {i : Nat} (h : At s p (digitBytes 2 v ++ rest)) (hv : v < 100)
    (hend : pEnd ≤ p + 3) :
    parseUnits s pEnd sep (fuel + 1) i p c = some (setUnit c i v,decide (byte s (p + 2) ≠ 0)) := by
  simp only [parseUnits, h.parseDigits hv]
  rw [if_pos hend]

/-- The seconds with a fraction behind them. -/
theorem parseUnits_fraction {u : Nat} (h : At s p (digitBytes 2 v ++ 0x2e :: (digitBytes 6 u ++ rest)))
    (hv : v < 100) (hu : u < 1000000) (hend : pEnd = p + 9) :
    ∃ more, parseUnits s pEnd true (fuel + 1) 2 p c = some (⟨c.hour,c.minute,v,u⟩,more) := by
  have hfraction : parseDigits s (p + 3) 6 = some u := h.digits.next.parseDigits hu
  have hlen : min (pEnd - (p + 3)) 6 = 6 := by omega
  simp only [parseUnits, h.parseDigits hv, h.digits.byte]
  rw [if_neg (by omega), if_neg (by decide), if_pos (Or.inl trivial), parseFraction, hlen, hfraction]
  exact ⟨_,by rw [Nat.sub_self, pow_zero, Option.map_some, mul_one]; rfl⟩

/-- The bytes of a fraction of a second, none when it is zero. -/
def fractionBytes (u : Nat) : Bytes := if u = 0 then [] else 0x2e :: digitBytes 6 u

/-- The bytes of a time of day. -/
def timeBytes (f : Fields) : Bytes :=
  digitBytes 2 f.hour ++ 0x3a :: (digitBytes 2 f.minute ++ 0x3a ::
    (digitBytes 2 f.second ++ fractionBytes f.microsecond))

theorem parseTimeOfDay_timeBytes {f : Fields} (hf : f.Valid) (h : At s p (timeBytes f ++ rest)) :
    ∃ more, parseTimeOfDay s p (p + (timeBytes f).length) =
      some (⟨f.hour,f.minute,f.second,f.microsecond⟩,more) := by
  obtain ⟨_,_,_,hhour,hminute,hsecond,hmicro⟩ := hf
  have hlen : (timeBytes f).length = 8 + (fractionBytes f.microsecond).length := by
    simp only [timeBytes, List.length_append, List.length_cons, digitBytes_length]
    omega
  simp only [timeBytes, List.append_assoc, List.cons_append] at h
  have h₁ := h.digits.next
  have h₂ := h₁.digits.next
  rw [hlen, parseTimeOfDay, parseUnits_colon h (by omega) (by omega) (Or.inl rfl),
    parseUnits_colon h₁ (by omega) (by omega) (Or.inr rfl)]
  rw [fractionBytes] at h₂ ⊢
  split_ifs at h₂ ⊢ with hzero
  · rw [parseUnits_end h₂ (by omega) (by simp), hzero]
    exact ⟨_,rfl⟩
  · rw [List.cons_append] at h₂
    obtain ⟨more,hmore⟩ := @parseUnits_fraction s rest (p + 3 + 3)
      (p + (8 + (0x2e :: digitBytes 6 f.microsecond).length)) 0 f.second
      (setUnit (setUnit ⟨0,0,0,0⟩ 0 f.hour) 1 f.minute) f.microsecond h₂ (by omega) hmicro
      (by simp)
    exact ⟨more,hmore⟩

/-- The offset `00:00`. -/
def zeroOffset : Bytes := digitBytes 2 0 ++ 0x3a :: digitBytes 2 0

theorem parseTimeOfDay_zeroOffset (h : At s p zeroOffset) (hlen : s.length = p + 5) :
    parseTimeOfDay s p s.length = some (⟨0,0,0,0⟩,false) := by
  have hminute : At s (p + 3) (digitBytes 2 0 ++ []) := by simpa using h.digits.next
  rw [parseTimeOfDay, parseUnits_colon h (by omega) (by omega) (Or.inl rfl),
    parseUnits_end hminute (by omega) (by omega), hminute.digits.byte_end]
  rfl

private theorem timeBytes_plain {f : Fields} : ∀ x ∈ timeBytes f, x ≠ 0x2b ∧ x ≠ 0x2d ∧ x ≠ 0x5a := by
  have hdigit : ∀ {width n x : Nat}, x ∈ digitBytes width n → x ≠ 0x2b ∧ x ≠ 0x2d ∧ x ≠ 0x5a := by
    intro width n x hx
    have h := isDigit_of_mem hx
    rw [isDigit, Bool.and_eq_true, decide_eq_true_eq, decide_eq_true_eq] at h
    omega
  have hfraction : ∀ x ∈ fractionBytes f.microsecond, x ≠ 0x2b ∧ x ≠ 0x2d ∧ x ≠ 0x5a := by
    rw [fractionBytes]
    split_ifs
    · simp
    · exact List.forall_mem_cons.mpr ⟨by decide,fun x hx => hdigit hx⟩
  simp only [timeBytes, List.forall_mem_append, List.forall_mem_cons]
  exact ⟨fun x => hdigit,by decide,fun x => hdigit,by decide,fun x => hdigit,hfraction⟩

/-- A time of day in UTC reads back. -/
theorem parseTime_timeBytes {f : Fields} (hf : f.Valid)
    (h : At s p (timeBytes f ++ 0x2b :: zeroOffset)) :
    parseTime s p = some (⟨f.hour,f.minute,f.second,f.microsecond⟩,some 0) := by
  have hlen : s.length = p + (timeBytes f).length + 6 := by
    rw [h.length (by simp), List.length_append, Nat.add_assoc]
    rfl
  have hzone : findZone s p (s.length - p) = p + (timeBytes f).length :=
    h.findZone timeBytes_plain rfl (by omega)
  obtain ⟨more,htime⟩ := parseTimeOfDay_timeBytes hf h
  have hplus : byte s (p + (timeBytes f).length) = 0x2b := h.byte_add
  simp only [parseTime, hzone, htime, hplus, parseTimeOfDay_zeroOffset h.skip.next (by omega)]
  rw [if_neg (by omega)]
  rfl

end Time

section Instant
variable {f : Fields}

/-- The bytes of an instant in UTC. -/
def isoBytes (f : Fields) : Bytes :=
  digitBytes 4 f.year ++ 0x2d :: (digitBytes 2 f.month ++ 0x2d :: (digitBytes 2 f.day ++ 0x54 ::
    (timeBytes f ++ 0x2b :: zeroOffset)))

theorem utf8_isoFront (f : Fields) :
    (isoFront f ++ ['+','0','0',':','0','0']).flatMap utf8 = isoBytes f := by
  have hfraction : (fractionText f.microsecond).flatMap utf8 = fractionBytes f.microsecond := by
    rw [fractionText, fractionBytes]
    split_ifs <;> rfl
  have hoffset : ['+','0','0',':','0','0'].flatMap utf8 = 0x2b :: zeroOffset := by decide
  simp only [isoFront, List.flatMap_append, List.flatMap_cons, hfraction, hoffset, isoBytes,
    timeBytes, List.append_assoc, List.cons_append]
  rfl

section Date
variable (f : Fields)

private theorem at_year : At (isoBytes f) 0 (isoBytes f) := rfl

private theorem at_month : At (isoBytes f) 5 (digitBytes 2 f.month ++ 0x2d ::
    (digitBytes 2 f.day ++ 0x54 :: (timeBytes f ++ 0x2b :: zeroOffset))) :=
  (at_year f).digits.next

private theorem at_day : At (isoBytes f) 8 (digitBytes 2 f.day ++ 0x54 ::
    (timeBytes f ++ 0x2b :: zeroOffset)) :=
  (at_month f).digits.next

private theorem length_isoBytes : 17 ≤ (isoBytes f).length := by
  rw [(at_day f).length (by simp)]
  simp [zeroOffset]
  omega

private theorem month_not_week : byte (isoBytes f) 5 ≠ 0x57 := by
  intro h
  have hdigit := (at_month f).isDigit
  rw [h] at hdigit
  contradiction

theorem findSeparator_isoBytes : findSeparator (isoBytes f) = some 10 := by
  have hlen := length_isoBytes f
  rw [findSeparator]
  simp only [if_neg (show (isoBytes f).length ≠ 7 by omega), (at_year f).digits.byte, if_true,
    if_neg (month_not_week f)]

end Date

theorem parseDate_isoBytes (hf : f.Valid) :
    parseDate (isoBytes f) 10 = some (f.year,f.month,f.day) := by
  obtain ⟨hyear,hmonth,hday,_⟩ := hf
  have hdays := daysInMonth_le f.year f.month
  have hy := (at_year f).parseDigits (show f.year < 10 ^ 4 by omega)
  have hm := (at_month f).parseDigits (show f.month < 10 ^ 2 by omega)
  have hd := (at_day f).parseDigits (show f.day < 10 ^ 2 by omega)
  have hdash : byte (isoBytes f) 4 = 0x2d := (at_year f).digits.byte
  have hdash' : byte (isoBytes f) 7 = 0x2d := (at_month f).digits.byte
  simp [parseDate, hy, hdash, if_neg (month_not_week f), hm, hdash', hd]

/-- An instant in UTC reads back from its text with the offset written out. -/
theorem fromIsoFormat_isoFront (hf : f.Valid) :
    fromIsoFormat (isoFront f ++ ['+','0','0',':','0','0']) = some (f,some 0) := by
  have hlen := length_isoBytes f
  have hseparator : byte (isoBytes f) 10 = 0x54 := (at_day f).digits.byte
  have htime : parseTime (isoBytes f) 11 = _ := parseTime_timeBytes hf (at_day f).digits.next
  have hwidth : 10 + separatorWidth 0x54 = 11 := rfl
  rw [fromIsoFormat]
  simp only [utf8_isoFront, if_neg (show ¬(isoBytes f).length < 7 by omega), findSeparator_isoBytes,
    parseDate_isoBytes hf, if_pos (show 10 < (isoBytes f).length by omega), hseparator, hwidth,
    htime, hf, not_true, if_false]
  rw [if_neg (by decide)]

end Instant

/-- What is read is a valid date and time. -/
theorem fromIsoFormat_valid {text : List Char} {f : Fields} {zone : Option Int}
    (h : fromIsoFormat text = some (f,zone)) : f.Valid := by
  simp only [fromIsoFormat] at h
  split_ifs at h
  split at h
  · cases h
  · split at h
    · cases h
    · split at h
      · cases h
      · split_ifs at h with hvalid
        split at h
        · cases h
          exact hvalid
        · split_ifs at h
          cases h
          exact hvalid

end NanoClaw.IsoFormat
