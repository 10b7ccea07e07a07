import NanoClaw.Library.IsoText
import Mathlib.Data.List.Basic
import Mathlib.Order.Monotone.Basic
import Mathlib.Order.Compare

/-! The order of the texts of instants. Dates and times of day compare as texts do; a fraction of a
second breaks the order, since an instant without one ends in a `Z`, which comes behind the point. -/
namespace NanoClaw.Calendar

theorem isLeap_iff {y : Nat} : isLeap y = true ↔ y % 4 = 0 ∧ (y % 100 ≠ 0 ∨ y % 400 = 0) := by
  simp [isLeap]

/-- A year is over before the next begins. -/
theorem daysBeforeYear_succ (y : Nat) (hy : 1 ≤ y) :
    daysBeforeYear y + daysBeforeMonth y 13 = daysBeforeYear (y + 1) := by
  have hyear : ∀ k, y / k = (y - 1) / k + if y % k = 0 then 1 else 0 := by
    intro k
    have hdiv := @Nat.succ_div (y - 1) k
    simpa only [Nat.sub_add_cancel hy, Nat.dvd_iff_mod_eq_zero] using hdiv
  have h4 := hyear 4
  have h100 := hyear 100
  have h400 := hyear 400
  rw [daysBeforeMonth_year, daysBeforeYear, daysBeforeYear, Nat.add_sub_cancel, h4, h100, h400]
  have hle : (y - 1) / 100 ≤ (y - 1) / 4 := Nat.div_le_div_left (by omega) (by omega)
  by_cases h : isLeap y = true
  · rw [if_pos h]
    rw [isLeap_iff] at h
    split_ifs <;> omega
  · rw [if_neg h]
    rw [isLeap_iff] at h
    split_ifs <;> omega

theorem daysBeforeYear_mono : Monotone daysBeforeYear := by
  apply monotone_nat_of_le_succ
  intro y
  cases y with
  | zero => exact Nat.le_refl _
  | succ y =>
    rw [← daysBeforeYear_succ (y + 1) (Nat.succ_pos y)]
    exact Nat.le_add_right _ _

theorem daysBeforeMonth_mono (y : Nat) : Monotone (daysBeforeMonth y) := by
  apply monotone_nat_of_le_succ
  intro m
  cases m with
  | zero => exact Nat.le_refl _
  | succ m =>
    rw [daysBeforeMonth_succ y (m + 1) (Nat.succ_pos m)]
    exact Nat.le_add_right _ _

/-- A date is one of the days of its year. -/
theorem ymdToOrd_le {y m d : Nat} (hm : 1 ≤ m ∧ m ≤ 12) (hd : d ≤ daysInMonth y m) :
    ymdToOrd y m d ≤ daysBeforeYear y + daysBeforeMonth y (m + 1) := by
  rw [ymdToOrd, daysBeforeMonth_succ y m hm.1]
  omega

/-- An earlier date has a smaller ordinal. -/
theorem ymdToOrd_lt {y m d y' m' d' : Nat} (hy : 1 ≤ y) (hm : 1 ≤ m ∧ m ≤ 12)
    (hd : d ≤ daysInMonth y m) (hd' : 1 ≤ d')
    (h : y < y' ∨ y = y' ∧ (m < m' ∨ m = m' ∧ d < d')) : ymdToOrd y m d < ymdToOrd y' m' d' := by
  have hle := ymdToOrd_le hm hd
  rcases h with hyear | ⟨rfl,hmonth | ⟨rfl,hday⟩⟩
  · have hend := daysBeforeMonth_mono y (show m + 1 ≤ 13 by omega)
    have hnext := daysBeforeYear_succ y hy
    have hstart := daysBeforeYear_mono (show y + 1 ≤ y' from hyear)
    calc ymdToOrd y m d ≤ daysBeforeYear y' := by omega
      _ < ymdToOrd y' m' d' := by rw [ymdToOrd]; omega
  · have hstart := daysBeforeMonth_mono y (show m + 1 ≤ m' from hmonth)
    calc ymdToOrd y m d ≤ daysBeforeYear y + daysBeforeMonth y m' := by omega
      _ < ymdToOrd y m' d' := by rw [ymdToOrd]; omega
  · rw [ymdToOrd, ymdToOrd]
    omega

/-- Valid fields are an instant of `datetime`. -/
theorem inRange_toMicros {f : Fields} (hf : f.Valid) : InRange f.toMicros := by
  obtain ⟨hy,hm,hd,hhour,hminute,hsecond,hmicro⟩ := hf
  have hmonth := daysBeforeMonth_mono f.year (show f.month + 1 ≤ 13 by omega)
  have hend := daysBeforeYear_mono (show f.year + 1 ≤ 10000 by omega)
  have hlast : daysBeforeYear 10000 = maxOrdinal := rfl
  have hday : ymdToOrd f.year f.month f.day ≤ maxOrdinal :=
    calc ymdToOrd f.year f.month f.day
        ≤ daysBeforeYear f.year + daysBeforeMonth f.year (f.month + 1) := ymdToOrd_le hm hd.2
      _ ≤ daysBeforeYear (f.year + 1) := by rw [← daysBeforeYear_succ f.year hy.1]; omega
      _ ≤ maxOrdinal := by rw [← hlast]; exact hend
  simp only [InRange, instantEnd, Fields.toMicros, dayMicros, maxOrdinal] at hday ⊢
  omega

/-- The whole seconds of an instant, from its fields. -/
def Fields.seconds (f : Fields) : Nat :=
  (ymdToOrd f.year f.month f.day - 1) * 86400 + (f.hour * 60 + f.minute) * 60 + f.second

theorem toMicros_eq (f : Fields) : f.toMicros = f.seconds * 1000000 + f.microsecond := by
  simp only [Fields.toMicros, Fields.seconds, dayMicros]
  omega

/-- The order of fields down to the second, greater units first. -/
def Fields.Before (f g : Fields) : Prop :=
  f.year < g.year ∨ f.year = g.year ∧ (f.month < g.month ∨ f.month = g.month ∧ (f.day < g.day ∨
    f.day = g.day ∧ (f.hour < g.hour ∨ f.hour = g.hour ∧ (f.minute < g.minute ∨
      f.minute = g.minute ∧ f.second < g.second))))

private theorem seconds_lt {f g : Fields} (hf : f.Valid) (hg : g.Valid) (h : f.Before g) :
    f.seconds < g.seconds := by
  obtain ⟨hfy,hfm,hfd,hfh,hfmin,hfs,_⟩ := hf
  obtain ⟨hgy,hgm,hgd,hgh,hgmin,hgs,_⟩ := hg
  have hord : ymdToOrd f.year f.month f.day < ymdToOrd g.year g.month g.day ∨
      f.year = g.year ∧ f.month = g.month ∧ f.day = g.day ∧ (f.hour < g.hour ∨ f.hour = g.hour ∧
        (f.minute < g.minute ∨ f.minute = g.minute ∧ f.second < g.second)) := by
    by_cases hdate : f.year < g.year ∨
        f.year = g.year ∧ (f.month < g.month ∨ f.month = g.month ∧ f.day < g.day)
    · exact Or.inl (ymdToOrd_lt hfy.1 hfm hfd.2 hgd.1 hdate)
    · rw [Fields.Before] at h
      omega
  have hpos : 1 ≤ ymdToOrd f.year f.month f.day := by
    rw [ymdToOrd]
    omega
  simp only [Fields.seconds]
  rcases hord with hlt | ⟨hy,hm,hd,htime⟩
  · omega
  · rw [hy, hm, hd]
    omega

/-- Fields are in the order of the whole seconds that they denote. -/
theorem before_iff_seconds_lt {f g : Fields} (hf : f.Valid) (hg : g.Valid) :
    f.Before g ↔ f.seconds < g.seconds := by
  refine ⟨seconds_lt hf hg,fun h => ?_⟩
  by_contra hnot
  have hback : ¬g.Before f := fun hback => Nat.lt_asymm h (seconds_lt hg hf hback)
  have hsame : f.seconds = g.seconds := by
    simp only [Fields.Before] at hnot hback
    have hy : f.year = g.year := by omega
    have hm : f.month = g.month := by omega
    have hd : f.day = g.day := by omega
    have htime : f.hour = g.hour ∧ f.minute = g.minute ∧ f.second = g.second := by omega
    rw [Fields.seconds, Fields.seconds, hy, hm, hd, htime.1, htime.2.1, htime.2.2]
  exact Nat.ne_of_lt h hsame

theorem ofMicros_seconds {t : Int} (ht : InRange t) :
    ((ofMicros t.toNat).seconds : Int) = t / 1000000 ∧
      ((ofMicros t.toNat).microsecond : Int) = t % 1000000 := by
  obtain ⟨hvalid,hmicros⟩ := ofMicros_spec ht
  have hlt : (ofMicros t.toNat).microsecond < 1000000 := hvalid.2.2.2.2.2.2
  have hpos : 0 ≤ t := ht.1
  rw [toMicros_eq] at hmicros
  omega

end NanoClaw.Calendar

namespace NanoClaw.IsoText
open Calendar

private theorem digitChar_lt {n m : Nat} : digitChar n < digitChar m ↔ n % 10 < m % 10 := by
  have hdigit : ∀ a b : Fin 10, Char.ofNat (48 + a) < Char.ofNat (48 + b) ↔ a < b := by decide
  exact hdigit ⟨n % 10,Nat.mod_lt n (by omega)⟩ ⟨m % 10,Nat.mod_lt m (by omega)⟩

/-- Texts that begin with numbers of one width compare by the numbers first. -/
theorem digits_append_lt {width n m : Nat} {rest rest' : List Char} (hn : n < 10 ^ width)
    (hm : m < 10 ^ width) :
    digits width n ++ rest < digits width m ++ rest' ↔ n < m ∨ n = m ∧ rest < rest' := by
  induction width generalizing n m rest rest' with
  | zero =>
    obtain rfl : n = m := by omega
    simp [digits]
  | succ width ih =>
    rw [Nat.pow_succ] at hn hm
    have hchar : digitChar n = digitChar m ↔ n % 10 = m % 10 := by
      constructor
      · intro h
        have hnot : ¬n % 10 < m % 10 := fun h' => (digitChar_lt.mpr h').ne h
        have hnot' : ¬m % 10 < n % 10 := fun h' => (digitChar_lt.mpr h').ne h.symm
        omega
      · intro h
        rw [digitChar, digitChar, h]
    simp only [digits, List.append_assoc, List.singleton_append]
    rw [ih (by omega) (by omega), List.cons_lt_cons_iff, digitChar_lt, hchar]
    constructor
    · rintro (h | ⟨h,h' | ⟨h',hrest⟩⟩)
      · exact Or.inl (by omega)
      · exact Or.inl (by omega)
      · exact Or.inr ⟨by omega,hrest⟩
    · rintro (h | ⟨rfl,hrest⟩)
      · by_cases hdiv : n / 10 < m / 10
        · exact Or.inl hdiv
        · exact Or.inr ⟨by omega,Or.inl (by omega)⟩
      · exact Or.inr ⟨rfl,Or.inr ⟨rfl,hrest⟩⟩

/-- The order of fractions of a second as texts: none comes last. -/
def FractionBefore (n m : Nat) : Prop := n ≠ 0 ∧ (m = 0 ∨ n < m)

theorem fractionText_lt {n m : Nat} (hn : n < 1000000) (hm : m < 1000000) :
    fractionText n ++ ['Z'] < fractionText m ++ ['Z'] ↔ FractionBefore n m := by
  rw [fractionText, fractionText, FractionBefore]
  have hpoint : ¬('Z' < '.') := by decide
  have hpoint' : '.' < 'Z' := by decide
  split_ifs with h0 h1 h1
  · simp [h0]
  · simp [h0, List.cons_lt_cons_iff, hpoint]
  · simp [h0, h1, List.cons_lt_cons_iff, hpoint']
  · rw [List.cons_append, List.cons_append, List.cons_lt_cons_self, digits_append_lt hn hm]
    simp [h0, h1]

/-- The texts of fields compare by the fields, greater units first. -/
theorem isoText_lt_iff {f g : Fields} (hf : f.Valid) (hg : g.Valid) :
    isoText f < isoText g ↔ f.Before g ∨ ¬g.Before f ∧ FractionBefore f.microsecond g.microsecond := by
  obtain ⟨hfy,hfm,hfd,hfh,hfmin,hfs,hfu⟩ := hf
  obtain ⟨hgy,hgm,hgd,hgh,hgmin,hgs,hgu⟩ := hg
  have hfd' := daysInMonth_le f.year f.month
  have hgd' := daysInMonth_le g.year g.month
  simp only [isoText]
  rw [digits_append_lt (by omega) (by omega), List.cons_lt_cons_self,
    digits_append_lt (by omega) (by omega), List.cons_lt_cons_self,
    digits_append_lt (by omega) (by omega), List.cons_lt_cons_self,
    digits_append_lt (by omega) (by omega), List.cons_lt_cons_self,
    digits_append_lt (by omega) (by omega), List.cons_lt_cons_self,
    digits_append_lt (by omega) (by omega), fractionText_lt hfu hgu]
  simp only [Fields.Before]
  by_cases hfraction : FractionBefore f.microsecond g.microsecond
  · simp only [hfraction, and_true]
    omega
  · simp only [hfraction, and_false, or_false]

/-- Two instants in one second have both a fraction of it, or neither. -/
def PrintAlike (a b : Int) : Prop :=
  a / 1000000 = b / 1000000 → (a % 1000000 = 0 ↔ b % 1000000 = 0)

instance (a b : Int) : Decidable (PrintAlike a b) := by
  unfold PrintAlike
  infer_instance

variable {a b : Int}

theorem utcIso_lt_iff (ha : InRange a) (hb : InRange b) : utcIso a < utcIso b ↔
    a / 1000000 < b / 1000000 ∨ a / 1000000 = b / 1000000 ∧ a % 1000000 ≠ 0 ∧
      (b % 1000000 = 0 ∨ a % 1000000 < b % 1000000) := by
  have hva := (ofMicros_spec ha).1
  have hvb := (ofMicros_spec hb).1
  obtain ⟨hsa,hua⟩ := ofMicros_seconds ha
  obtain ⟨hsb,hub⟩ := ofMicros_seconds hb
  rw [utcIso, utcIso, String.lt_iff_toList_lt, String.toList_ofList, String.toList_ofList,
    isoText_lt_iff hva hvb, before_iff_seconds_lt hva hvb, before_iff_seconds_lt hvb hva,
    FractionBefore]
  omega

/-- The text of one instant comes before that of another exactly when the instant does, if they
print alike. -/
theorem utcIso_lt_utcIso_iff (ha : InRange a) (hb : InRange b) (h : PrintAlike a b) :
    utcIso a < utcIso b ↔ a < b := by
  rw [utcIso_lt_iff ha hb]
  rw [PrintAlike] at h
  omega

/-- Instants that do not print alike are in the wrong order. -/
theorem utcIso_lt_of_not_printAlike (ha : InRange a) (hb : InRange b) (h : ¬PrintAlike a b) :
    utcIso a < utcIso b ↔ b < a := by
  rw [utcIso_lt_iff ha hb]
  rw [PrintAlike] at h
  omega

theorem PrintAlike.symm (h : PrintAlike a b) : PrintAlike b a := fun he => (h he.symm).symm

/-- For instants of `datetime` the order of texts is that of time exactly when they print alike. -/
theorem cmp_utcIso_iff (ha : InRange a) (hb : InRange b) :
    cmp (utcIso a) (utcIso b) = cmp a b ↔ PrintAlike a b := by
  constructor
  · intro h
    by_contra hnot
    have hlt : utcIso a < utcIso b ↔ a < b := lt_iff_lt_of_cmp_eq_cmp h
    rw [utcIso_lt_of_not_printAlike ha hb hnot] at hlt
    rw [PrintAlike] at hnot
    omega
  · intro h
    rcases lt_trichotomy a b with hlt | rfl | hgt
    · rw [(cmp_eq_lt_iff a b).mpr hlt, cmp_eq_lt_iff, utcIso_lt_utcIso_iff ha hb h]
      exact hlt
    · rw [cmp_self_eq_eq, cmp_self_eq_eq]
    · rw [(cmp_eq_gt_iff a b).mpr hgt, cmp_eq_gt_iff, utcIso_lt_utcIso_iff hb ha h.symm]
      exact hgt

end NanoClaw.IsoText
