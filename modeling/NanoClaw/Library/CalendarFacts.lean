import NanoClaw.Library.Calendar
import Mathlib.Tactic.SplitIfs

/-! Days and dates are in one-to-one correspondence: the fields of an instant are valid and
denote the instant. -/
namespace NanoClaw.Calendar

theorem daysInMonth_le (y m : Nat) : daysInMonth y m ≤ 31 := by
  unfold daysInMonth
  split
  · split <;> omega
  all_goals omega

theorem daysBeforeMonth_succ (y m : Nat) (hm : 0 < m) :
    daysBeforeMonth y (m + 1) = daysBeforeMonth y m + daysInMonth y m := by
  obtain ⟨k,rfl⟩ := Nat.exists_eq_succ_of_ne_zero (Nat.ne_of_gt hm)
  simp [daysBeforeMonth, List.range_succ]

/-- The days of a year come out as its months have them. -/
theorem daysBeforeMonth_year (y : Nat) :
    daysBeforeMonth y 13 = if isLeap y then 366 else 365 := by
  rcases h : isLeap y with _ | _ <;> simp [daysBeforeMonth, daysInMonth, h, List.range_succ]

/-- The month found for a day of the year: the loop stands before month `13 - fuel`. -/
theorem monthDay_spec (y : Nat) {fuel n : Nat} (hfuel : 0 < fuel ∧ fuel ≤ 12)
    (hn : daysBeforeMonth y (13 - fuel) + n < daysBeforeMonth y 13) :
    (1 ≤ (monthDay y fuel n).1 ∧ (monthDay y fuel n).1 ≤ 12) ∧
      (1 ≤ (monthDay y fuel n).2 ∧ (monthDay y fuel n).2 ≤ daysInMonth y (monthDay y fuel n).1) ∧
      daysBeforeMonth y (monthDay y fuel n).1 + (monthDay y fuel n).2 =
        daysBeforeMonth y (13 - fuel) + n + 1 := by
  induction fuel generalizing n with
  | zero => omega
  | succ fuel ih =>
    have hm : 13 - (fuel + 1) = 12 - fuel := by omega
    rw [hm] at hn ⊢
    simp only [monthDay]
    split
    · rename_i hlt
      exact ⟨⟨by omega,by omega⟩,⟨by omega,hlt⟩,by simp only; omega⟩
    · rename_i hge
      have hnext : daysBeforeMonth y (13 - fuel) = daysBeforeMonth y (12 - fuel) + daysInMonth y (12 - fuel) := by
        rw [← daysBeforeMonth_succ y (12 - fuel) (by omega)]
        congr 1
        omega
      have hpos : 0 < fuel := by
        rcases Nat.eq_zero_or_pos fuel with rfl | h0
        · simp only [Nat.sub_zero] at hnext hn hge
          omega
        · exact h0
      obtain ⟨h1,h2,h3⟩ := ih (n := n - daysInMonth y (12 - fuel)) ⟨hpos,by omega⟩ (by omega)
      exact ⟨h1,h2,by omega⟩

/-- The days before a year, when the years passed are counted in cycles of 400, 100, 4 and 1. -/
private theorem daysBeforeYear_cycles {y a b c d : Nat} (hy : y = 400 * a + 100 * b + 4 * c + d + 1)
    (hb : b ≤ 3) (hc : c ≤ 24) (hd : d ≤ 3) :
    daysBeforeYear y = 146097 * a + 36524 * b + 1461 * c + 365 * d := by
  have h4 : (y - 1) / 4 = 100 * a + 25 * b + c := by omega
  have h100 : (y - 1) / 100 = 4 * a + b := by omega
  have h400 : (y - 1) / 400 = a := by omega
  rw [daysBeforeYear, h4, h100, h400]
  omega

/-- A year that ends a cycle of four, and a cycle of 400 if it ends one of 100. -/
private theorem isLeap_of {y : Nat} (h4 : y % 4 = 0) (h : y % 100 ≠ 0 ∨ y % 400 = 0) :
    isLeap y = true := by
  rcases h with h | h <;> simp [isLeap, h4, h]

private theorem ymdToOrd_last {y : Nat} (h : isLeap y = true) :
    ymdToOrd y 12 31 = daysBeforeYear y + 366 := by
  have hyear := daysBeforeMonth_year y
  rw [daysBeforeMonth_succ y 12 (by omega), h] at hyear
  simp only [daysInMonth, if_true] at hyear
  rw [ymdToOrd]
  omega

/-- The cycles a day count is cut into, with the days left over. -/
private theorem cycles_spec {n : Nat} (hn : n < maxOrdinal) :
    ∃ a b c d r, n / 146097 = a ∧ n % 146097 / 36524 = b ∧ n % 146097 % 36524 / 1461 = c ∧
      n % 146097 % 36524 % 1461 / 365 = d ∧ n % 146097 % 36524 % 1461 % 365 = r ∧
      n = 146097 * a + 36524 * b + 1461 * c + 365 * d + r ∧ r < 365 ∧ a ≤ 24 ∧
      36524 * b + 1461 * c + 365 * d + r < 146097 ∧ 1461 * c + 365 * d + r < 36524 ∧
      365 * d + r < 1461 := by
  refine ⟨_,_,_,_,_,rfl,rfl,rfl,rfl,rfl,?_⟩
  simp only [maxOrdinal] at hn
  have ha := Nat.div_add_mod n 146097
  have hb := Nat.div_add_mod (n % 146097) 36524
  have hc := Nat.div_add_mod (n % 146097 % 36524) 1461
  have hd := Nat.div_add_mod (n % 146097 % 36524 % 1461) 365
  have ha' := Nat.mod_lt n (show 0 < 146097 by omega)
  have hb' := Nat.mod_lt (n % 146097) (show 0 < 36524 by omega)
  have hc' := Nat.mod_lt (n % 146097 % 36524) (show 0 < 1461 by omega)
  have hd' := Nat.mod_lt (n % 146097 % 36524 % 1461) (show 0 < 365 by omega)
  omega

private theorem leap_year_end {y : Nat} (hy : 1 ≤ y ∧ y ≤ 9999) (h : isLeap y = true) :
    (1 ≤ y ∧ y ≤ 9999) ∧ (1 ≤ 12 ∧ 12 ≤ 12) ∧ (1 ≤ 31 ∧ 31 ≤ daysInMonth y 12) ∧
      ymdToOrd y 12 31 = daysBeforeYear y + 366 :=
  ⟨hy,by omega,⟨by omega,Nat.le_refl 31⟩,ymdToOrd_last h⟩

/-- Every ordinal of `datetime` is that of a valid date. -/
theorem ordToYmd_spec {n : Nat} (hn : 1 ≤ n ∧ n ≤ maxOrdinal) :
    ∃ y m d, ordToYmd n = (y,m,d) ∧ (1 ≤ y ∧ y ≤ 9999) ∧ (1 ≤ m ∧ m ≤ 12) ∧
      (1 ≤ d ∧ d ≤ daysInMonth y m) ∧ ymdToOrd y m d = n := by
  obtain ⟨a,b,c,d,r,ea,eb,ec,ed,er,hsum,hr,ha,h400,h100,h4⟩ := cycles_spec (n := n - 1) (by omega)
  simp only [maxOrdinal] at hn
  simp only [ordToYmd, ea, eb, ec, ed, er]
  split_ifs with h
  · -- The last day of a cycle of four or of 400 years.
    refine ⟨_,_,_,rfl,?_⟩
    have hleap : isLeap (a * 400 + 1 + b * 100 + c * 4 + d - 1) = true := by
      rcases h with rfl | rfl
      · exact isLeap_of (by omega) (Or.inl (by omega))
      · exact isLeap_of (by omega) (Or.inr (by omega))
    obtain ⟨hy,hm,hd,hord⟩ := leap_year_end (by omega) hleap
    refine ⟨hy,hm,hd,hord.trans ?_⟩
    rcases h with rfl | rfl
    · rw [daysBeforeYear_cycles (a := a) (b := b) (c := c) (d := 3) (by omega) (by omega) (by omega)
        (by omega)]
      omega
    · rw [daysBeforeYear_cycles (a := a) (b := 3) (c := 24) (d := 3) (by omega) (by omega)
        (by omega) (by omega)]
      omega
  · have hday : daysBeforeMonth (a * 400 + 1 + b * 100 + c * 4 + d) (13 - 12) + r <
        daysBeforeMonth (a * 400 + 1 + b * 100 + c * 4 + d) 13 := by
      rw [daysBeforeMonth_year]
      simp only [daysBeforeMonth, Nat.reduceSub, List.range_zero, List.foldl_nil]
      split <;> omega
    obtain ⟨hm,hd,hord⟩ := monthDay_spec _ ⟨by omega,Nat.le_refl 12⟩ hday
    refine ⟨_,_,_,rfl,by omega,hm,hd,?_⟩
    have hyear := daysBeforeYear_cycles (y := a * 400 + 1 + b * 100 + c * 4 + d) (a := a) (b := b)
      (c := c) (d := d) (by omega) (by omega) (by omega) (by omega)
    simp only [daysBeforeMonth, Nat.reduceSub, List.range_zero, List.foldl_nil] at hord
    rw [ymdToOrd, hyear]
    simp only [daysBeforeMonth]
    omega

/-- The fields of an instant are a valid date and time, and that of the instant. -/
theorem ofMicros_spec {t : Int} (ht : InRange t) :
    (ofMicros t.toNat).Valid ∧ (ofMicros t.toNat).toMicros = t.toNat := by
  have hday : t.toNat / dayMicros < maxOrdinal := by
    simp only [InRange, instantEnd, dayMicros, maxOrdinal] at ht ⊢
    omega
  obtain ⟨y,m,d,hord,hy,hm,hd,heq⟩ := ordToYmd_spec (n := t.toNat / dayMicros + 1) ⟨Nat.le_add_left 1 _,hday⟩
  have hfields : ofMicros t.toNat = ⟨y,m,d,t.toNat % dayMicros / 1000000 / 3600,
      t.toNat % dayMicros / 1000000 / 60 % 60,t.toNat % dayMicros / 1000000 % 60,
      t.toNat % 1000000⟩ := by
    simp only [ofMicros, hord]
  rw [hfields]
  simp only [dayMicros] at heq ⊢
  refine ⟨⟨hy,hm,hd,?_⟩,?_⟩
  · simp only
    omega
  · simp only [Fields.toMicros, heq, dayMicros]
    omega

end NanoClaw.Calendar
