import Mathlib.Order.Bounds.Basic
import Mathlib.Tactic.Ring
import Mathlib.Tactic.Linarith

/-! Instants at equal distances from an anchor, and the first of them behind a given instant. -/
namespace NanoClaw.Grid
variable {anchor step now t u : Int}

/-- The instants a whole number of steps from the anchor on. -/
def OnGrid (anchor step t : Int) : Prop := ∃ k : Nat, t = anchor + k * step

theorem OnGrid.refl (anchor step : Int) : OnGrid anchor step anchor :=
  ⟨0,by simp⟩

theorem OnGrid.next (h : OnGrid anchor step t) : OnGrid anchor step (t + step) := by
  obtain ⟨k,rfl⟩ := h
  refine ⟨k + 1,?_⟩
  push_cast
  ring

theorem OnGrid.trans (h : OnGrid anchor step t) (h' : OnGrid t step u) : OnGrid anchor step u := by
  obtain ⟨k,rfl⟩ := h
  obtain ⟨l,rfl⟩ := h'
  refine ⟨k + l,?_⟩
  push_cast
  ring

theorem OnGrid.le (hstep : 0 ≤ step) (h : OnGrid anchor step t) : anchor ≤ t := by
  obtain ⟨k,rfl⟩ := h
  exact le_add_of_nonneg_right (mul_nonneg (Int.natCast_nonneg k) hstep)

/-- The first instant of the grid behind `now`. -/
def after (anchor step now : Int) : Int :=
  if now < anchor then anchor else anchor + ((now - anchor) / step + 1) * step

theorem after_eq_anchor (h : now < anchor) : after anchor step now = anchor := if_pos h

theorem after_eq (h : anchor ≤ now) :
    after anchor step now = anchor + ((now - anchor) / step + 1) * step :=
  if_neg (not_lt.mpr h)

section Step
variable (hstep : 0 < step)
include hstep

theorem onGrid_after : OnGrid anchor step (after anchor step now) := by
  rcases lt_or_ge now anchor with h | h
  · rw [after_eq_anchor h]
    exact OnGrid.refl anchor step
  · have hquot : 0 ≤ (now - anchor) / step + 1 :=
      Int.add_nonneg (Int.ediv_nonneg (Int.sub_nonneg_of_le h) hstep.le) Int.one_nonneg
    exact ⟨((now - anchor) / step + 1).toNat,by rw [after_eq h, Int.toNat_of_nonneg hquot]⟩

theorem lt_after : now < after anchor step now := by
  rcases lt_or_ge now anchor with h | h
  · rwa [after_eq_anchor h]
  · have hlt := Int.lt_ediv_add_one_mul_self (now - anchor) hstep
    rw [after_eq h]
    linarith

theorem after_le (h : anchor ≤ now) : after anchor step now ≤ now + step := by
  have hle := Int.ediv_mul_le (now - anchor) hstep.ne'
  rw [after_eq h, add_mul, one_mul]
  linarith

/-- No instant of the grid between `now` and the one behind it. -/
theorem isLeast_after : IsLeast {t | OnGrid anchor step t ∧ now < t} (after anchor step now) := by
  refine ⟨⟨onGrid_after hstep,lt_after hstep⟩,?_⟩
  rintro _ ⟨⟨k,rfl⟩,hlt⟩
  rcases lt_or_ge now anchor with h | h
  · rw [after_eq_anchor h]
    exact OnGrid.le hstep.le ⟨k,rfl⟩
  · have hquot : (now - anchor) / step < k := by
      apply Int.ediv_lt_of_lt_mul hstep
      linarith
    have hmul := mul_le_mul_of_nonneg_right (Int.add_one_le_of_lt hquot) hstep.le
    rw [after_eq h]
    linarith

/-- An anchor that is not behind `now` may give way to the next instant. -/
theorem after_next (h : anchor ≤ now) :
    after (anchor + step) step now = after anchor step now := by
  have hleast : IsLeast {t | OnGrid anchor step t ∧ now < t} (after anchor step now) :=
    isLeast_after hstep
  refine (isLeast_after hstep).unique ⟨⟨?_,lt_after hstep⟩,?_⟩
  · obtain ⟨⟨k,hk⟩,hlt⟩ := hleast.1
    cases k with
    | zero =>
      rw [hk] at hlt
      simp at hlt
      omega
    | succ k =>
      refine ⟨k,hk.trans ?_⟩
      push_cast
      ring
  · rintro t ⟨ht,hlt⟩
    exact hleast.2 ⟨(OnGrid.refl anchor step).next.trans ht,hlt⟩

end Step

end NanoClaw.Grid
