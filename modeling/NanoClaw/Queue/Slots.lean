import NanoClaw.Queue.GroupQueue
import Mathlib.Data.List.Count
import Mathlib.Tactic.Common

/-! The accounting of run slots: the counter, the flags of the groups and the
coroutines in flight agree before shutdown, whatever starts or ends a run. -/
namespace NanoClaw.GroupQueue
variable {F : Type}

/-- The group of every run in flight, with multiplicity. -/
def runGroups (s : GroupQueue F) : List String :=
  s.backgroundTasks.filterMap (fun b => b.coro.runGroup)

/-- The runs of one group in flight. -/
def runsOf (s : GroupQueue F) (g : String) : List (Background F) :=
  s.backgroundTasks.filter (fun b => b.coro.runGroup = some g)

theorem mem_runsOf {s : GroupQueue F} {g : String} {b : Background F} :
    b ∈ s.runsOf g ↔ b ∈ s.backgroundTasks ∧ b.coro.runGroup = some g := by
  simp [runsOf]

theorem length_runsOf (s : GroupQueue F) (g : String) :
    (s.runsOf g).length = s.runGroups.count g := by
  unfold runsOf runGroups
  induction s.backgroundTasks with
  | nil => rfl
  | cons b bs ih =>
    cases h : b.coro.runGroup with
    | none => simp [h, ih]
    | some g' =>
      by_cases hg : g' = g
      · simp [h, hg, ih]
      · simp [h, hg, ih]

/-- What a run in flight leaves in the state of its group. -/
def Marks (state : GroupState F) : Coroutine F → Prop
  | .runForGroup _ => state.runningTaskId = none
  | .runTask _ task => state.runningTaskId = some task.id ∧ state.isTaskContainer = true
  | .retry _ _ => True

structure Slots (s : GroupQueue F) : Prop where
  running : s.loopRunning = true
  uncancelled : ∀ b ∈ s.backgroundTasks, b.cancelled = false
  single : ∀ g, s.runGroups.count g = if (s.groups g).active then 1 else 0
  counted : s.activeCount = s.runGroups.length
  bounded : s.activeCount ≤ s.maxConcurrent
  marked : ∀ b ∈ s.backgroundTasks, ∀ g, b.coro.runGroup = some g → Marks (s.groups g) b.coro
  unmarked : ∀ g, (s.groups g).active = false → (s.groups g).runningTaskId = none

theorem slots_init (maxC maxR base maxMs : Int) (p c : Bool) :
    Slots (init (F := F) maxC maxR base maxMs p c) where
  running := rfl
  uncancelled := by simp [init]
  single := by simp [init, runGroups]
  counted := rfl
  bounded := by
    change (0 : Int) ≤ max 1 maxC
    omega
  marked := by simp [init]
  unmarked := by simp [init]

/-- The part of a group state that the accounting of slots reads. -/
def GroupState.slot (state : GroupState F) : Bool × Option String × Bool :=
  (state.active, state.runningTaskId, state.isTaskContainer)

private theorem marks_of_slot {a b : GroupState F} (h : GroupState.slot a = GroupState.slot b)
    (c : Coroutine F) (hm : Marks a c) : Marks b c := by
  simp only [GroupState.slot, Prod.mk.injEq] at h
  obtain ⟨_,hid,hc⟩ := h
  cases c with
  | runForGroup g => exact hid.symm.trans hm
  | runTask g task => exact ⟨hid.symm.trans hm.1,hc.symm.trans hm.2⟩
  | retry g d => trivial

/-- Operations that touch neither slots nor coroutines, timers and bodies begun aside. -/
theorem Slots.frame {s t : GroupQueue F} (h : Slots s)
    (hloop : t.loopRunning = s.loopRunning) (hcount : t.activeCount = s.activeCount)
    (hmax : t.maxConcurrent = s.maxConcurrent)
    (hgroups : ∀ g, GroupState.slot (s.groups g) = GroupState.slot (t.groups g))
    (hruns : t.runGroups.Perm s.runGroups)
    (htasks : ∀ b ∈ t.backgroundTasks, b.cancelled = false ∧
      (b.coro.runGroup = none ∨ ∃ a ∈ s.backgroundTasks, a.coro = b.coro)) : Slots t where
  running := hloop ▸ h.running
  uncancelled b hb := (htasks b hb).1
  single g := by
    have ha : (s.groups g).active = (t.groups g).active := congrArg Prod.fst (hgroups g)
    rw [hruns.count_eq, h.single, ha]
  counted := by rw [hcount, h.counted, hruns.length_eq]
  bounded := by rw [hcount, hmax]; exact h.bounded
  marked b hb g hg := by
    obtain hnone | ⟨a,ha,he⟩ := (htasks b hb).2
    · rw [hnone] at hg; cases hg
    · exact marks_of_slot (hgroups g) _ (he ▸ h.marked a ha g (he ▸ hg))
  unmarked g hg := by
    have he := hgroups g
    simp only [GroupState.slot, Prod.mk.injEq] at he
    exact he.2.1 ▸ h.unmarked g (he.1 ▸ hg)

/-- A group without a run gets one, and takes a free slot. -/
theorem Slots.start {s t : GroupQueue F} (h : Slots s) (c : Coroutine F) (g : String)
    (hc : c.runGroup = some g) (hidle : (s.groups g).active = false)
    (hroom : s.activeCount < s.maxConcurrent)
    (hloop : t.loopRunning = s.loopRunning) (hcount : t.activeCount = s.activeCount + 1)
    (hmax : t.maxConcurrent = s.maxConcurrent)
    (hother : ∀ g', g' ≠ g → t.groups g' = s.groups g')
    (hactive : (t.groups g).active = true) (hmark : Marks (t.groups g) c)
    (htasks : t.backgroundTasks = s.backgroundTasks ++ [{ coro := c }]) : Slots t := by
  have hruns : t.runGroups = s.runGroups ++ [g] := by simp [runGroups, htasks, hc]
  have hnone : s.runGroups.count g = 0 := by rw [h.single, hidle]; rfl
  refine ⟨hloop ▸ h.running,?_,?_,?_,?_,?_,?_⟩
  · intro b hb
    rw [htasks, List.mem_append, List.mem_singleton] at hb
    obtain hb | rfl := hb
    · exact h.uncancelled b hb
    · rfl
  · intro g'
    rw [hruns, List.count_append]
    by_cases he : g' = g
    · subst he; rw [hnone, hactive]; simp
    · rw [h.single, hother g' he, List.count_singleton]
      simp [Ne.symm he]
  · rw [hcount, h.counted, hruns]; simp
  · rw [hcount, hmax]; omega
  · intro b hb g' hg'
    rw [htasks, List.mem_append, List.mem_singleton] at hb
    obtain hb | rfl := hb
    · have hne : g' ≠ g := by
        rintro rfl
        have : g' ∈ s.runGroups := List.mem_filterMap.mpr ⟨b,hb,hg'⟩
        exact absurd (List.count_pos_iff.mpr this) (by omega)
      rw [hother g' hne]
      exact h.marked b hb g' hg'
    · rw [hc] at hg'
      cases hg'
      exact hmark
  · intro g' hg'
    by_cases he : g' = g
    · subst he; rw [hactive] at hg'; cases hg'
    · rw [hother g' he] at hg' ⊢
      exact h.unmarked g' hg'

/-- A run ends: its group has none left, and its slot is free again. -/
theorem Slots.end {s t : GroupQueue F} (h : Slots s) (g : String)
    (hruns : s.runGroups.Perm (g :: t.runGroups))
    (htasks : ∀ b ∈ t.backgroundTasks, b.cancelled = false ∧
      (b.coro.runGroup = none ∨ ∃ a ∈ s.backgroundTasks, a.coro = b.coro))
    (hloop : t.loopRunning = s.loopRunning) (hcount : t.activeCount = s.activeCount - 1)
    (hmax : t.maxConcurrent = s.maxConcurrent)
    (hother : ∀ g', g' ≠ g → t.groups g' = s.groups g')
    (hactive : (t.groups g).active = false) (hid : (t.groups g).runningTaskId = none) :
    Slots t ∧ t.activeCount < t.maxConcurrent ∧ (s.groups g).active = true := by
  have hone := h.single g
  rw [hruns.count_eq, List.count_cons_self] at hone
  have hwas : (s.groups g).active = true := by
    cases ha : (s.groups g).active with
    | true => rfl
    | false => rw [ha] at hone; simp at hone
  rw [hwas] at hone
  have hzero : t.runGroups.count g = 0 := by simpa using hone
  have hlen := hruns.length_eq
  have hbound := h.bounded
  refine ⟨⟨hloop ▸ h.running,fun b hb => (htasks b hb).1,?_,?_,?_,?_,?_⟩,?_,hwas⟩
  · intro g'
    by_cases he : g' = g
    · subst he; rw [hzero, hactive]; rfl
    · have hs := h.single g'
      rw [hruns.count_eq, List.count_cons_of_ne (Ne.symm he)] at hs
      rw [hs, hother g' he]
  · rw [hcount, h.counted, hlen]; simp
  · rw [hcount, hmax]; omega
  · intro b hb g' hg'
    have hne : g' ≠ g := by
      rintro rfl
      have : g' ∈ t.runGroups := List.mem_filterMap.mpr ⟨b,hb,hg'⟩
      exact absurd (List.count_pos_iff.mpr this) (by omega)
    obtain hnone | ⟨a,ha,he⟩ := (htasks b hb).2
    · rw [hnone] at hg'; cases hg'
    · rw [hother g' hne]
      exact he ▸ h.marked a ha g' (he ▸ hg')
  · intro g' hg'
    by_cases he : g' = g
    · subst he; exact hid
    · rw [hother g' he] at hg' ⊢
      exact h.unmarked g' hg'
  · rw [hcount, hmax]; omega

end NanoClaw.GroupQueue
