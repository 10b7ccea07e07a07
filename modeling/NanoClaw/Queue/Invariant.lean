import NanoClaw.Queue.Moves
import NanoClaw.Queue.Slots
import Mathlib.Data.List.Nodup
import Mathlib.Data.List.Perm.Basic

/-! The invariant of the queue before shutdown, preserved by every move of the
event loop: slots are accounted for, and waiting groups wait for a reason. -/
namespace NanoClaw.GroupQueue
variable {F : Type}

/-- The waiting list holds idle groups with work, each once. -/
structure Waiting (s : GroupQueue F) : Prop where
  nodup : s.waitingGroups.Nodup
  waits : ∀ g ∈ s.waitingGroups, (s.groups g).active = false ∧ HasWork (s.groups g)

structure Inv (s : GroupQueue F) : Prop extends Slots s, Waiting s where
  covered : ∀ g, HasWork (s.groups g) → (s.groups g).active = true ∨ g ∈ s.waitingGroups
  full : s.waitingGroups ≠ [] → s.activeCount = s.maxConcurrent

theorem startRunForGroup_slots {s : GroupQueue F} (h : Slots s) {g : String}
    (hidle : (s.groups g).active = false) (hroom : s.activeCount < s.maxConcurrent) :
    Slots (s.startRunForGroup g) := by
  have hmark : Marks ((s.startRunForGroup g).groups g) (.runForGroup g) := by
    simpa [startRunForGroup, createBackgroundTask, setGroup, Marks] using h.unmarked g hidle
  refine h.start (.runForGroup g) g rfl hidle hroom rfl rfl rfl ?_ ?_ hmark ?_
  · intro g' hne
    simp [startRunForGroup, createBackgroundTask, setGroup, hne]
  · simp [startRunForGroup, createBackgroundTask, setGroup]
  · simp [startRunForGroup, createBackgroundTask, setGroup, h.running]

theorem startRunTask_slots {s : GroupQueue F} (h : Slots s) {g : String} (task : QueuedTask F)
    (hidle : (s.groups g).active = false) (hroom : s.activeCount < s.maxConcurrent) :
    Slots (s.startRunTask g task) := by
  have hmark : Marks ((s.startRunTask g task).groups g) (.runTask g task) := by
    simp [startRunTask, createBackgroundTask, setGroup, Marks]
  refine h.start (.runTask g task) g rfl hidle hroom rfl rfl rfl ?_ ?_ hmark ?_
  · intro g' hne
    simp [startRunTask, createBackgroundTask, setGroup, hne]
  · simp [startRunTask, createBackgroundTask, setGroup]
  · simp [startRunTask, createBackgroundTask, setGroup, h.running]

/-- Writing a group state that keeps the slot fields. -/
theorem Slots.setGroup {s : GroupQueue F} (h : Slots s) (g : String) (state : GroupState F)
    (hslot : GroupState.slot (s.groups g) = GroupState.slot state) : Slots (s.setGroup g state) := by
  refine h.frame rfl rfl rfl ?_ (.refl _) (fun b hb => ⟨h.uncancelled b hb,.inr ⟨b,hb,rfl⟩⟩)
  intro g'
  by_cases he : g' = g
  · subst he; simpa [GroupQueue.setGroup] using hslot
  · simp [GroupQueue.setGroup, he]

theorem Slots.record {s : GroupQueue F} (h : Slots s) (e : Event) : Slots (s.record e) :=
  h.frame rfl rfl rfl (fun _ => rfl) (.refl _) (fun b hb => ⟨h.uncancelled b hb,.inr ⟨b,hb,rfl⟩⟩)

theorem Slots.setWaiting {s : GroupQueue F} (h : Slots s) (l : List String) :
    Slots { s with waitingGroups := l } :=
  h.frame rfl rfl rfl (fun _ => rfl) (.refl _) (fun b hb => ⟨h.uncancelled b hb,.inr ⟨b,hb,rfl⟩⟩)

theorem Slots.enterWaiting {s : GroupQueue F} (h : Slots s) (g : String) : Slots (s.enterWaiting g) := by
  unfold GroupQueue.enterWaiting
  split
  · exact h
  · exact (h.setWaiting _).record _

theorem Slots.closeStdin {s : GroupQueue F} (h : Slots s) (g : String) : Slots (s.closeStdin g) := by
  unfold GroupQueue.closeStdin
  split
  · exact h.record _
  · exact h

/-- A waiting or finishing group with work takes a free slot. -/
theorem startPending_slots {s : GroupQueue F} (h : Slots s) {g : String}
    (hidle : (s.groups g).active = false) (hwork : HasWork (s.groups g))
    (hroom : s.activeCount < s.maxConcurrent) :
    Slots (s.startPending g) ∧ ((s.startPending g).groups g).active = true ∧
      (s.startPending g).activeCount = s.activeCount + 1 := by
  obtain ⟨task,rest,_,he⟩ | ⟨_,_,he⟩ | ⟨hno,_⟩ := startPending_cases s g
  · rw [he]
    have hs := h.setGroup g { s.groups g with pendingTasks := rest } rfl
    refine ⟨startRunTask_slots hs task ?_ hroom,?_,rfl⟩
    · simpa [GroupQueue.setGroup] using hidle
    · simp [startRunTask, createBackgroundTask, GroupQueue.setGroup]
  · rw [he]
    refine ⟨startRunForGroup_slots h hidle hroom,?_,rfl⟩
    simp [startRunForGroup, createBackgroundTask, GroupQueue.setGroup]
  · exact absurd hwork hno

private theorem waiting_startPending {s : GroupQueue F} (h : Waiting s) {g : String}
    (hout : g ∉ s.waitingGroups) : Waiting (s.startPending g) where
  nodup := by simpa using h.nodup
  waits := by
    intro g' hg'
    rw [startPending_waitingGroups] at hg'
    have hne : g' ≠ g := fun he => hout (he ▸ hg')
    rw [startPending_other s g hne]
    exact h.waits g' hg'

/-- The group that has waited longest leaves the others waiting. -/
private theorem Waiting.leave {s : GroupQueue F} (h : Waiting s) {g : String} {rest : List String}
    (hl : s.waitingGroups = g :: rest) :
    Waiting ({ s with waitingGroups := rest }.record (.waitLeft g)) ∧
      (s.groups g).active = false ∧ HasWork (s.groups g) ∧ g ∉ rest := by
  obtain ⟨hout,hnodup⟩ := List.nodup_cons.mp (hl ▸ h.nodup)
  obtain ⟨hidle,hwork⟩ := h.waits g (by simp [hl])
  refine ⟨⟨hnodup,fun g' hg' => h.waits g' ?_⟩,hidle,hwork,hout⟩
  rw [hl]
  exact List.mem_cons_of_mem g hg'

/-- The loop hands out free slots in waiting order, and stops for want of either. -/
theorem drainWaitingLoop_inv (l : List String) (s : GroupQueue F) (hl : s.waitingGroups = l)
    (hs : Slots s) (hw : Waiting s)
    (hcov : ∀ g, HasWork (s.groups g) → (s.groups g).active = true ∨ g ∈ s.waitingGroups) :
    Inv (drainWaitingLoop l s) := by
  induction l generalizing s with
  | nil => exact { hs, hw with covered := hcov, full := fun hne => absurd hl hne }
  | cons g rest ih =>
    unfold drainWaitingLoop
    split
    next hroom =>
      obtain ⟨hw₁,hidle,hwork,hout⟩ := hw.leave hl
      have hs₁ := (hs.setWaiting rest).record (.waitLeft g)
      obtain ⟨hs₂,hact,_⟩ := startPending_slots hs₁ hidle hwork hroom
      refine ih _ (by simp [GroupQueue.record]) hs₂ (waiting_startPending hw₁ hout) ?_
      intro g' hg'
      by_cases he : g' = g
      · subst he; exact .inl hact
      · rw [startPending_other _ _ he] at hg' ⊢
        refine (hcov g' hg').imp id (fun hm => ?_)
        rw [hl] at hm
        simpa [GroupQueue.record] using (List.mem_cons.mp hm).resolve_left he
    next hroom =>
      have := hs.bounded
      exact { hs, hw with covered := hcov, full := fun _ => by omega }

/-- A state whose run has just ended, before its drain. -/
structure Freed (s : GroupQueue F) (g : String) : Prop extends Slots s, Waiting s where
  idle : (s.groups g).active = false
  out : g ∉ s.waitingGroups
  room : s.activeCount < s.maxConcurrent
  covered : ∀ g', g' ≠ g → HasWork (s.groups g') →
    (s.groups g').active = true ∨ g' ∈ s.waitingGroups
  full : s.waitingGroups ≠ [] → s.activeCount + 1 = s.maxConcurrent

/-- What leaving the waiting list and starting an idle group preserve, the drain of a finished
group preserves. -/
theorem Freed.rule {P : GroupQueue F → Prop} {s : GroupQueue F} {g : String} (hf : Freed s g)
    (hleave : ∀ s g rest, P s → P ({ s with waitingGroups := rest }.record (.waitLeft g)))
    (hstart : ∀ s g, P s → Slots s → (s.groups g).active = false → P (s.startPending g))
    (h : P s) : P (s.drainGroup g) := by
  simp only [drainGroup]
  split
  · exact h
  · split
    · exact hstart s g h hf.toSlots hf.idle
    · have hloop := drainWaitingLoop_rule (P := fun t => P t ∧ Slots t ∧ Waiting t) ?_ rfl
        ⟨h,hf.toSlots,hf.toWaiting⟩
      · exact hloop.1
      · rintro t g' rest hl hroom ⟨h,hs,hw⟩
        obtain ⟨hw₁,hidle,hwork,hout⟩ := hw.leave hl
        have hs₁ := (hs.setWaiting rest).record (.waitLeft g')
        refine ⟨hstart _ g' (hleave t g' rest h) hs₁ hidle,?_,waiting_startPending hw₁ hout⟩
        exact (startPending_slots hs₁ hidle hwork hroom).1

/-- The drain of a finished group: it restarts itself or hands its slot on. -/
theorem Freed.inv {s : GroupQueue F} {g : String} (h : Freed s g) (hrun : s.shuttingDown = false) :
    Inv (s.drainGroup g) := by
  simp only [drainGroup, hrun, Bool.false_eq_true, if_false]
  split
  next hwork =>
    have hwork : HasWork (s.groups g) := by
      refine hwork.elim (fun hne => .inr ?_) .inl
      simpa using hne
    obtain ⟨hs',hact,hcount⟩ := startPending_slots h.toSlots h.idle hwork h.room
    refine { hs', waiting_startPending h.toWaiting h.out with covered := ?_, full := ?_ }
    · intro g' hg'
      by_cases he : g' = g
      · subst he; exact .inl hact
      · rw [startPending_other _ _ he] at hg' ⊢
        simpa using h.covered g' he hg'
    · intro hne
      rw [hcount, startPending_maxConcurrent]
      exact h.full (by simpa using hne)
  next hnone =>
    refine drainWaitingLoop_inv _ s rfl h.toSlots h.toWaiting ?_
    intro g' hg'
    by_cases he : g' = g
    · subst he
      exact absurd (hg'.symm.imp (by simp) id) hnone
    · exact h.covered g' he hg'

/-- The end of any run, once its flags are cleared, leaves the drain a free slot. -/
theorem Inv.freed {s t : GroupQueue F} (h : Inv s) (g : String)
    (hruns : s.runGroups.Perm (g :: t.runGroups))
    (htasks : ∀ b ∈ t.backgroundTasks, b.cancelled = false ∧
      (b.coro.runGroup = none ∨ ∃ a ∈ s.backgroundTasks, a.coro = b.coro))
    (hloop : t.loopRunning = s.loopRunning) (hcount : t.activeCount = s.activeCount - 1)
    (hmax : t.maxConcurrent = s.maxConcurrent) (hwait : t.waitingGroups = s.waitingGroups)
    (hother : ∀ g', g' ≠ g → t.groups g' = s.groups g')
    (hactive : (t.groups g).active = false) (hid : (t.groups g).runningTaskId = none) :
    Freed t g := by
  obtain ⟨hs,hroom,hwas⟩ := h.toSlots.end g hruns htasks hloop hcount hmax hother hactive hid
  have hout : g ∉ s.waitingGroups := fun hm => by
    rw [(h.waits g hm).1] at hwas
    cases hwas
  refine
    { hs with
      nodup := hwait ▸ h.nodup, waits := ?_, idle := hactive, out := hwait ▸ hout, room := hroom,
      covered := ?_, full := ?_ }
  · intro g' hg'
    rw [hwait] at hg'
    have hne : g' ≠ g := by rintro rfl; exact hout hg'
    rw [hother g' hne]
    exact h.waits g' hg'
  · intro g' hne hg'
    rw [hwait]
    rw [hother g' hne] at hg' ⊢
    exact h.covered g' hg'
  · intro hne
    have := h.full (hwait ▸ hne)
    rw [hcount, hmax]
    omega

/-- The retry accounting moves one counter and adds at most one timer. -/
theorem settleRetry_eq (s : GroupQueue F) (g : String) (outcome : Outcome) :
    ∃ k events timers, (∀ b ∈ timers, ∃ d, b = { coro := .retry g d }) ∧
      (∀ e ∈ events, ∃ d, e = .retryScheduled g d) ∧
      s.settleRetry g outcome = { s with
        groups := Function.update s.groups g { s.groups g with retryCount := k }
        history := s.history ++ events
        backgroundTasks := s.backgroundTasks ++ timers } := by
  have hretry : ∃ k events timers, (∀ b ∈ timers, ∃ d, b = { coro := .retry g d }) ∧
      (∀ e ∈ events, ∃ d, e = .retryScheduled g d) ∧ s.scheduleRetry g = { s with
        groups := Function.update s.groups g { s.groups g with retryCount := k }
        history := s.history ++ events
        backgroundTasks := s.backgroundTasks ++ timers } := by
    simp only [scheduleRetry]
    split
    · exact ⟨0,[],[],by simp,by simp,by simp [setGroup]⟩
    · let k := (s.groups g).retryCount + 1
      refine ⟨k,[.retryScheduled g (s.retryDelayMs k)],
        if s.loopRunning then [{ coro := .retry g (s.retryDelayMs k) }] else [],?_,by simp,?_⟩
      · intro b hb
        split at hb
        · exact ⟨_,by simpa using hb⟩
        · simp at hb
      · simp only [createBackgroundTask, record, setGroup, k]
        by_cases hl : s.loopRunning = true <;> simp [hl]
  cases outcome with
  | success => exact ⟨0,[],[],by simp,by simp,by simp [settleRetry, setGroup]⟩
  | failure => exact hretry
  | exception => exact hretry
  | cancelled =>
    exact ⟨(s.groups g).retryCount,[],[],by simp,by simp,by simp [settleRetry]⟩

theorem erase_perm {s : GroupQueue F} {i : Nat} {b : Background F}
    (hb : s.backgroundTasks[i]? = some b) :
    s.backgroundTasks.Perm (b :: s.backgroundTasks.eraseIdx i) := by
  obtain ⟨hi,he⟩ := List.getElem?_eq_some_iff.mp hb
  exact he ▸ (List.getElem_cons_eraseIdx_perm hi).symm

private theorem erase_runs {s : GroupQueue F} {i : Nat} {b : Background F}
    (hb : s.backgroundTasks[i]? = some b) {g : String} (hg : b.coro.runGroup = some g) :
    s.runGroups.Perm (g :: (s.dropTask i).runGroups) := by
  have := (erase_perm hb).filterMap (fun b => b.coro.runGroup)
  rwa [List.filterMap_cons, hg] at this

/-- The end of a message run, up to its drain. -/
def freeRunForGroup (s : GroupQueue F) (g : String) (outcome : Outcome) : GroupQueue F :=
  let s := s.settleRetry g outcome
  { s.setGroup g { s.groups g with active := false } with activeCount := s.activeCount - 1 }

/-- The end of a task run, up to its drain. -/
def freeRunTask (s : GroupQueue F) (g : String) : GroupQueue F :=
  { s.setGroup g { s.groups g with
      active := false, idleWaiting := false, isTaskContainer := false, runningTaskId := none } with
    activeCount := s.activeCount - 1 }

theorem endRunForGroup_eq (s : GroupQueue F) (g : String) (outcome : Outcome) :
    s.endRunForGroup g outcome = (s.freeRunForGroup g outcome).drainGroup g := rfl

theorem endRunTask_eq (s : GroupQueue F) (g : String) :
    s.endRunTask g = (s.freeRunTask g).drainGroup g := rfl

/-- `u` is the state whose run has just left the loop, with the history written to. -/
theorem freeRunForGroup_freed {s u : GroupQueue F} (h : Inv s) {i : Nat} {b : Background F}
    {g : String} (hb : s.backgroundTasks[i]? = some b) (hg : b.coro = .runForGroup g)
    (l : List Event) (hu : u = { s.dropTask i with history := l }) (outcome : Outcome) :
    Freed (u.freeRunForGroup g outcome) g := by
  subst hu
  have hmem := List.mem_of_getElem? hb
  have hmark := h.marked b hmem g (by rw [hg]; rfl)
  obtain ⟨k,events,timers,ht,_,he⟩ := settleRetry_eq { s.dropTask i with history := l } g outcome
  have htimers : timers.filterMap (fun b => b.coro.runGroup) = [] := by
    simp only [List.filterMap_eq_nil_iff]
    rintro b hb
    obtain ⟨d,rfl⟩ := ht b hb
    rfl
  unfold freeRunForGroup
  rw [he]
  refine h.freed g ?_ ?_ rfl rfl rfl rfl ?_ ?_ ?_
  · have := erase_runs hb (g := g) (by rw [hg]; rfl)
    simpa [runGroups, setGroup, dropTask, htimers] using this
  · intro x hx
    simp only [setGroup, dropTask, List.mem_append] at hx
    obtain hx | hx := hx
    · have hx := List.mem_of_mem_eraseIdx hx
      exact ⟨h.uncancelled x hx,.inr ⟨x,hx,rfl⟩⟩
    · obtain ⟨d,rfl⟩ := ht x hx
      exact ⟨rfl,.inl rfl⟩
  · intro g' hne
    simp [setGroup, dropTask, hne]
  · simp [setGroup]
  · rw [hg] at hmark
    simpa [setGroup, dropTask, Marks] using hmark

theorem freeRunTask_freed {s : GroupQueue F} (h : Inv s) {i : Nat} {b : Background F} {g : String}
    {task : QueuedTask F} (hb : s.backgroundTasks[i]? = some b) (hg : b.coro = .runTask g task) :
    Freed ((s.dropTask i).freeRunTask g) g := by
  refine h.freed g (erase_runs hb (by rw [hg]; rfl)) ?_ rfl rfl rfl rfl ?_ ?_ ?_
  · intro x hx
    have hx := List.mem_of_mem_eraseIdx hx
    exact ⟨h.uncancelled x hx,.inr ⟨x,hx,rfl⟩⟩
  · intro g' hne
    simp [freeRunTask, setGroup, dropTask, hne]
  · simp [freeRunTask, setGroup]
  · simp [freeRunTask, setGroup]

@[simp] theorem freeRunForGroup_shuttingDown (s : GroupQueue F) (g : String) (outcome : Outcome) :
    (s.freeRunForGroup g outcome).shuttingDown = s.shuttingDown := by
  obtain ⟨k,events,timers,_,_,he⟩ := settleRetry_eq s g outcome
  unfold freeRunForGroup
  rw [he]
  rfl

theorem endRunForGroup_inv {s u : GroupQueue F} (h : Inv s) {i : Nat} {b : Background F}
    {g : String} (hrun : s.shuttingDown = false) (hb : s.backgroundTasks[i]? = some b)
    (hg : b.coro = .runForGroup g) (l : List Event) (hu : u = { s.dropTask i with history := l })
    (outcome : Outcome) : Inv (u.endRunForGroup g outcome) := by
  refine (freeRunForGroup_freed h hb hg l hu outcome).inv ?_
  rw [freeRunForGroup_shuttingDown, hu]
  exact hrun

theorem endRunTask_inv {s : GroupQueue F} (h : Inv s) {i : Nat} {b : Background F} {g : String}
    {task : QueuedTask F} (hrun : s.shuttingDown = false) (hb : s.backgroundTasks[i]? = some b)
    (hg : b.coro = .runTask g task) : Inv ((s.dropTask i).endRunTask g) :=
  (freeRunTask_freed h hb hg).inv hrun

theorem Inv.record {s : GroupQueue F} (h : Inv s) (e : Event) : Inv (s.record e) :=
  { h.toSlots.record e, h with }

theorem Inv.closeStdin {s : GroupQueue F} (h : Inv s) (g : String) : Inv (s.closeStdin g) := by
  unfold GroupQueue.closeStdin
  split
  · exact h.record _
  · exact h

/-- Writing the state of a group whose work is accounted for. -/
theorem Inv.setGroup {s : GroupQueue F} (h : Inv s) (g : String) (state : GroupState F)
    (hslot : GroupState.slot (s.groups g) = GroupState.slot state)
    (hkeep : HasWork (s.groups g) → HasWork state)
    (hcov : HasWork state → state.active = true ∨ g ∈ s.waitingGroups) :
    Inv (s.setGroup g state) := by
  refine { h.toSlots.setGroup g state hslot with nodup := h.nodup, waits := ?_, covered := ?_, full := h.full }
  · intro g' hg'
    by_cases he : g' = g
    · subst he
      obtain ⟨hidle,hwork⟩ := h.waits g' hg'
      simpa [GroupQueue.setGroup, ← hidle] using
        ⟨(congrArg Prod.fst hslot).symm,hkeep hwork⟩
    · simpa [GroupQueue.setGroup, he] using h.waits g' hg'
  · intro g' hg'
    by_cases he : g' = g
    · subst he
      simp only [GroupQueue.setGroup, Function.update_self] at hg' ⊢
      exact hcov hg'
    · simp only [GroupQueue.setGroup, Function.update_of_ne he] at hg' ⊢
      exact h.covered g' hg'

/-- An idle group that gets work while every slot is taken joins the waiting groups. -/
theorem enterWaiting_inv {s : GroupQueue F} (h : Inv s) (g : String) (state : GroupState F)
    (hslot : GroupState.slot (s.groups g) = GroupState.slot state)
    (hidle : (s.groups g).active = false) (hwork : HasWork state)
    (hfull : s.maxConcurrent ≤ s.activeCount) : Inv ((s.setGroup g state).enterWaiting g) := by
  have hbound := h.bounded
  by_cases hm : g ∈ s.waitingGroups
  · have he : (s.setGroup g state).enterWaiting g = s.setGroup g state := by
      simp [GroupQueue.enterWaiting, GroupQueue.setGroup, hm]
    rw [he]
    exact h.setGroup g state hslot (fun _ => hwork) (fun _ => .inr hm)
  · have hs := (h.toSlots.setGroup g state hslot).enterWaiting g
    have hw : ((s.setGroup g state).enterWaiting g).waitingGroups = s.waitingGroups ++ [g] := by
      simp [GroupQueue.enterWaiting, GroupQueue.setGroup, GroupQueue.record, hm]
    have hg : ((s.setGroup g state).enterWaiting g).groups = Function.update s.groups g state := by
      simp [GroupQueue.enterWaiting, GroupQueue.setGroup, GroupQueue.record, hm]
    refine { hs with nodup := ?_, waits := ?_, covered := ?_, full := ?_ }
    · rw [hw]
      exact h.nodup.append (List.nodup_singleton g) (by simpa using hm)
    · intro g' hg'
      rw [hw, List.mem_append, List.mem_singleton] at hg'
      rw [hg]
      by_cases he : g' = g
      · subst he
        simpa using ⟨(congrArg Prod.fst hslot).symm.trans hidle,hwork⟩
      · simpa [he] using h.waits g' (hg'.resolve_right he)
    · intro g' hg'
      rw [hg] at hg' ⊢
      rw [hw, List.mem_append, List.mem_singleton]
      by_cases he : g' = g
      · exact .inr (.inr he)
      · simp only [Function.update_of_ne he] at hg' ⊢
        exact (h.covered g' hg').imp id .inl
    · intro _
      simp [GroupQueue.enterWaiting, GroupQueue.setGroup, GroupQueue.record, hm]
      omega

/-- With a free slot nobody waits, so a group that is started leaves nobody behind. -/
theorem started_inv {s t : GroupQueue F} (h : Inv s) (g : String) (hs : Slots t)
    (hroom : s.activeCount < s.maxConcurrent) (hwait : t.waitingGroups = s.waitingGroups)
    (hother : ∀ g', g' ≠ g → t.groups g' = s.groups g') (hact : (t.groups g).active = true) :
    Inv t := by
  have hnone : s.waitingGroups = [] := by
    by_contra hne
    have := h.full hne
    omega
  refine
    { hs with
      nodup := by simp [hwait, hnone], waits := by simp [hwait, hnone], covered := ?_,
      full := by simp [hwait, hnone] }
  intro g' hg'
  by_cases he : g' = g
  · subst he; exact .inl hact
  · rw [hother g' he] at hg' ⊢
    rw [hwait]
    exact h.covered g' hg'

theorem enqueueMessageCheck_inv {s : GroupQueue F} (h : Inv s) (g : String) :
    Inv (s.enqueueMessageCheck g) := by
  have hu := h.record (.checkAccepted g)
  rcases enqueueMessageCheck_cases s g with
    ⟨_,he⟩ | ⟨hactive,he⟩ | ⟨hidle,hfull,he⟩ | ⟨hidle,hroom,he⟩ <;> rw [he]
  · exact h
  · exact hu.setGroup g _ rfl (fun _ => .inl rfl) (fun _ => .inl hactive)
  · exact enterWaiting_inv hu g _ rfl hidle (.inl rfl) hfull
  · apply started_inv hu g (startRunForGroup_slots hu.toSlots hidle hroom) hroom rfl
    · intro g' hne
      simp [startRunForGroup, createBackgroundTask, GroupQueue.setGroup, hne]
    · simp [startRunForGroup, createBackgroundTask, GroupQueue.setGroup]

theorem enqueueTask_inv {s : GroupQueue F} (h : Inv s) (g taskId : String) (fn : F) :
    Inv (s.enqueueTask g taskId fn) := by
  have hu := h.record (.taskAccepted g taskId)
  have hadd : (s.groups g).active = true → Inv (s.addPending g ⟨taskId,g,fn⟩) :=
    fun hactive => hu.setGroup g _ rfl (fun _ => .inr (by simp)) (fun _ => .inl hactive)
  rcases enqueueTask_cases s g taskId fn with ⟨_,he⟩ | ⟨_,_,_,⟨hactive,_,he⟩ | ⟨hactive,_,he⟩ |
    ⟨hidle,hfull,he⟩ | ⟨hidle,hroom,he⟩⟩ <;> rw [he]
  · exact h
  · exact (hadd hactive).closeStdin g
  · exact hadd hactive
  · exact enterWaiting_inv hu g _ rfl hidle (.inr (by simp)) hfull
  · apply started_inv hu g (startRunTask_slots hu.toSlots _ hidle hroom) hroom rfl
    · intro g' hne
      simp [startRunTask, createBackgroundTask, GroupQueue.setGroup, hne]
    · simp [startRunTask, createBackgroundTask, GroupQueue.setGroup]

theorem notifyIdle_inv {s : GroupQueue F} (h : Inv s) (g : String) : Inv (s.notifyIdle g) := by
  have hmark : Inv (s.markIdle g) := h.setGroup g _ rfl id (h.covered g)
  rcases notifyIdle_cases s g with ⟨_,he⟩ | ⟨_,he⟩ <;> rw [he]
  · exact hmark
  · exact hmark.closeStdin g

/-- A coroutine whose body reaches its await keeps its place among the runs. -/
theorem parkTask_inv {s : GroupQueue F} (h : Inv s) {i : Nat} {b : Background F}
    (hb : s.backgroundTasks[i]? = some b) : Inv (s.parkTask i b) := by
  have hmem := List.mem_of_getElem? hb
  have hruns : (s.parkTask i b).runGroups.Perm s.runGroups := by
    have hp := (erase_perm hb).filterMap (fun b => b.coro.runGroup)
    refine List.Perm.trans ?_ hp.symm
    unfold runGroups parkTask
    rw [List.filterMap_append, List.filterMap_cons, List.filterMap_nil, List.filterMap_cons]
    cases b.coro.runGroup with
    | none => simp
    | some g => simp
  have hs : Slots (s.parkTask i b) := by
    refine h.toSlots.frame rfl rfl rfl (fun _ => rfl) hruns ?_
    intro x hx
    simp only [parkTask, List.mem_append, List.mem_singleton] at hx
    obtain hx | rfl := hx
    · have hx := List.mem_of_mem_eraseIdx hx
      exact ⟨h.uncancelled x hx,.inr ⟨x,hx,rfl⟩⟩
    · exact ⟨h.uncancelled b hmem,.inr ⟨b,hmem,rfl⟩⟩
  exact { hs, h with }

/-- A timer that has fired was no run. -/
theorem dropTimer_inv {s : GroupQueue F} (h : Inv s) {i : Nat} {b : Background F}
    (hb : s.backgroundTasks[i]? = some b) (hg : b.coro.runGroup = none) : Inv (s.dropTask i) := by
  have hruns : (s.dropTask i).runGroups.Perm s.runGroups := by
    have hp := (erase_perm hb).filterMap (fun b => b.coro.runGroup)
    rw [List.filterMap_cons, hg] at hp
    exact hp.symm
  have hs : Slots (s.dropTask i) := by
    refine h.toSlots.frame rfl rfl rfl (fun _ => rfl) hruns (fun x hx => ?_)
    have hx := List.mem_of_mem_eraseIdx hx
    exact ⟨h.uncancelled x hx,.inr ⟨x,hx,rfl⟩⟩
  exact { hs, h with }

end NanoClaw.GroupQueue
