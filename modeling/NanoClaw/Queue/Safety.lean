import NanoClaw.Queue.Invariant
import Mathlib.Data.Set.Card

/-! Safety of the queue over whole runs: one run for each active group, no run for
any other, and never more runs than the limit. -/
namespace NanoClaw.GroupQueue
open Execution
variable {F : Type}

theorem inv_init (maxC maxR base maxMs : Int) (p c : Bool) :
    Inv (init (F := F) maxC maxR base maxMs p c) where
  toSlots := slots_init maxC maxR base maxMs p c
  nodup := List.nodup_nil
  waits := by simp [init]
  covered := by simp [init, HasWork]
  full := by simp [init]

/-- Every move before shutdown keeps the invariant. -/
theorem step_inv {s t : GroupQueue F} {a : Action F} (h : Inv s) (hrun : s.shuttingDown = false)
    (ht : t.shuttingDown = false) (hstep : step s a = some t) : Inv t := by
  cases a with
  | enqueueMessageCheck g => cases hstep; exact enqueueMessageCheck_inv h g
  | enqueueTask g taskId fn => cases hstep; exact enqueueTask_inv h g taskId fn
  | notifyIdle g => cases hstep; exact notifyIdle_inv h g
  | begin i =>
    obtain ⟨b,hb,_,_,hc⟩ := begin_cases hstep
    rcases hc with ⟨g,_,_,rfl⟩ | ⟨g,hg,_,rfl⟩ | ⟨g,task,_,rfl⟩ | ⟨_,rfl⟩
    · exact (parkTask_inv h hb).record _
    · exact endRunForGroup_inv h hrun hb hg s.history rfl .success
    · exact (parkTask_inv h hb).record _
    · exact parkTask_inv h hb
  | finish i outcome =>
    obtain ⟨b,hb,_,hc⟩ := finish_cases hstep
    rcases hc with ⟨g,hg,rfl⟩ | ⟨g,task,hg,rfl⟩
    · exact endRunForGroup_inv h hrun hb hg _ rfl outcome
    · exact endRunTask_inv h hrun hb hg
  | fireRetry i =>
    obtain ⟨b,g,d,hb,hg,rfl⟩ := fireRetry_cases hstep
    rw [if_neg (by simp [hrun])]
    exact enqueueMessageCheck_inv (dropTimer_inv h hb (by rw [hg]; rfl)) g
  | shutdown => cases hstep; cases ht
  | dropCancelled i =>
    obtain ⟨b,hb,hc,_⟩ := dropCancelled_cases hstep
    rw [h.uncancelled b (List.mem_of_getElem? hb)] at hc
    cases hc

theorem reachable_settings {s t : GroupQueue F} (h : Reachable step s t)
    (ht : t.shuttingDown = false) : t.settings = s.settings := by
  refine h.invariant (P := fun t => t.shuttingDown = false → t.settings = s.settings) ?_ (fun _ => rfl) ht
  intro u a v hu hstep hv
  rcases step_settings hstep with he | rfl
  · exact he.trans (hu (step_shuttingDown hstep hv))
  · cases hstep; cases hv

theorem reachable_limits {s t : GroupQueue F} (h : Reachable step s t) : t.limits = s.limits :=
  h.invariant (P := fun t => t.limits = s.limits) (fun _ _ _ hu hstep => (step_limits hstep).trans hu) rfl

theorem reachable_inv {s t : GroupQueue F} (h : Reachable step s t) (hs : Inv s)
    (ht : t.shuttingDown = false) : Inv t := by
  refine h.invariant (P := fun t => t.shuttingDown = false → Inv t) ?_ (fun _ => hs) ht
  intro u a v hu hstep hv
  have hrun := step_shuttingDown hstep hv
  exact step_inv (hu hrun) hrun hv hstep

/-- The queue after shutdown: every run that is left has been cancelled. -/
structure Stopped (s : GroupQueue F) : Prop where
  shut : s.shuttingDown = true
  cancelled : ∀ b ∈ s.backgroundTasks, b.coro.runGroup ≠ none → b.cancelled = true

theorem drainGroup_shut {s : GroupQueue F} (h : s.shuttingDown = true) (g : String) :
    s.drainGroup g = s := by simp only [drainGroup, h, if_true]

/-- After shutdown no run starts: the moves that are left begin timers, end runs that had begun
or report that they are idle. -/
theorem Stopped.step_cases {s t : GroupQueue F} {a : Action F} (h : Stopped s)
    (hstep : step s a = some t) :
    t = s ∨ t = s.shutdown ∨ (∃ g, a = .notifyIdle g ∧ t = s.notifyIdle g) ∨
    (∃ i b, s.backgroundTasks[i]? = some b ∧ (t = s.dropTask i ∨
      (b.coro.runGroup = none ∧ t = s.parkTask i b) ∨
      (∃ g outcome, b.coro = .runForGroup g ∧
        t = ((s.dropTask i).record (.messagesEnded g outcome)).freeRunForGroup g outcome) ∨
      (∃ g task, b.coro = .runTask g task ∧ t = (s.dropTask i).freeRunTask g))) := by
  cases a with
  | enqueueMessageCheck g =>
    cases hstep
    exact .inl (by simp [enqueueMessageCheck, h.shut])
  | enqueueTask g taskId fn =>
    cases hstep
    exact .inl (by simp [enqueueTask, h.shut])
  | notifyIdle g => exact .inr (.inr (.inl ⟨g,rfl,(Option.some.inj hstep).symm⟩))
  | begin i =>
    obtain ⟨b,hb,_,hcancelled,hc⟩ := begin_cases hstep
    have hnone : b.coro.runGroup = none := by
      by_contra hrun
      rw [h.cancelled b (List.mem_of_getElem? hb) hrun] at hcancelled
      cases hcancelled
    refine .inr (.inr (.inr ⟨i,b,hb,.inr (.inl ⟨hnone,?_⟩)⟩))
    rcases hc with ⟨g,hg,_⟩ | ⟨g,hg,_⟩ | ⟨g,task,hg,_⟩ | ⟨_,ht⟩
    · rw [hg] at hnone
      cases hnone
    · rw [hg] at hnone
      cases hnone
    · rw [hg] at hnone
      cases hnone
    · exact ht
  | finish i outcome =>
    obtain ⟨b,hb,_,hc⟩ := finish_cases hstep
    refine .inr (.inr (.inr ⟨i,b,hb,.inr (.inr ?_)⟩))
    rcases hc with ⟨g,hg,ht⟩ | ⟨g,task,hg,ht⟩
    · refine .inl ⟨g,outcome,hg,ht.trans ?_⟩
      refine drainGroup_shut ?_ g
      exact (freeRunForGroup_shuttingDown _ g outcome).trans h.shut
    · exact .inr ⟨g,task,hg,ht.trans (drainGroup_shut (s := (s.dropTask i).freeRunTask g) h.shut g)⟩
  | fireRetry i =>
    obtain ⟨b,g,d,hb,_,ht⟩ := fireRetry_cases hstep
    rw [if_pos h.shut] at ht
    exact .inr (.inr (.inr ⟨i,b,hb,.inl ht⟩))
  | shutdown => exact .inr (.inl (Option.some.inj hstep).symm)
  | dropCancelled i =>
    obtain ⟨b,hb,_,_,ht⟩ := dropCancelled_cases hstep
    exact .inr (.inr (.inr ⟨i,b,hb,.inl ht⟩))

theorem stopped_shutdown (s : GroupQueue F) : Stopped s.shutdown := by
  refine ⟨rfl,fun b hb _ => ?_⟩
  obtain ⟨b',_,rfl⟩ := List.mem_map.mp hb
  rfl

/-- Shutdown stays in force. -/
theorem Stopped.step {s t : GroupQueue F} {a : Action F} (h : Stopped s)
    (hstep : GroupQueue.step s a = some t) : Stopped t := by
  have hdrop : ∀ i, ∀ b ∈ (s.dropTask i).backgroundTasks, b.coro.runGroup ≠ none → b.cancelled = true :=
    fun i b hb => h.cancelled b (List.mem_of_mem_eraseIdx hb)
  rcases h.step_cases hstep with rfl | rfl | ⟨g,_,rfl⟩ | ⟨i,b,hb,hc⟩
  · exact h
  · exact stopped_shutdown s
  · have hsame : (s.notifyIdle g).backgroundTasks = s.backgroundTasks := by
      rcases notifyIdle_cases s g with ⟨_,he⟩ | ⟨_,he⟩ <;> rw [he]
      · rfl
      · unfold closeStdin
        split <;> rfl
    exact ⟨(congrArg Settings.shuttingDown (settings_notifyIdle s g)).trans h.shut,
      fun b hb => h.cancelled b (hsame ▸ hb)⟩
  · rcases hc with rfl | ⟨hnone,rfl⟩ | ⟨g,outcome,_,rfl⟩ | ⟨g,task,_,rfl⟩
    · exact ⟨h.shut,hdrop i⟩
    · refine ⟨h.shut,fun b' hb' hrun => ?_⟩
      rcases List.mem_append.mp hb' with hb' | hb'
      · exact hdrop i b' hb' hrun
      · rw [List.mem_singleton.mp hb'] at hrun
        exact absurd hnone hrun
    · refine ⟨(freeRunForGroup_shuttingDown _ g outcome).trans h.shut,fun b' hb' hrun => ?_⟩
      obtain ⟨k,events,timers,htimers,_,he⟩ :=
        settleRetry_eq ((s.dropTask i).record (.messagesEnded g outcome)) g outcome
      rw [freeRunForGroup, he] at hb'
      rcases List.mem_append.mp hb' with hb' | hb'
      · exact hdrop i b' hb' hrun
      · obtain ⟨d,rfl⟩ := htimers b' hb'
        exact absurd rfl hrun
    · exact ⟨h.shut,hdrop i⟩

/-- A property of whole runs: one form holds until shutdown, another one from then on. -/
theorem reachable_phases {P Q : GroupQueue F → Prop}
    (hrun : ∀ s a t, Inv s → s.shuttingDown = false → t.shuttingDown = false → P s →
      GroupQueue.step s a = some t → P t)
    (hshut : ∀ s, Inv s → P s → Q s.shutdown)
    (hafter : ∀ s a t, Stopped s → Q s → GroupQueue.step s a = some t → Q t)
    {s t : GroupQueue F} (h : Reachable GroupQueue.step s t) (hs : Inv s)
    (hopen : s.shuttingDown = false) (hP : P s) :
    (t.shuttingDown = false ∧ Inv t ∧ P t) ∨ (Stopped t ∧ Q t) := by
  refine h.invariant (P := fun t => (t.shuttingDown = false ∧ Inv t ∧ P t) ∨ (Stopped t ∧ Q t))
    ?_ (.inl ⟨hopen,hs,hP⟩)
  rintro u a v (⟨hu,hinv,hPu⟩ | ⟨hstopped,hQ⟩) hstep
  · rcases step_settings hstep with he | rfl
    · have hv : v.shuttingDown = false := (congrArg Settings.shuttingDown he).trans hu
      exact .inl ⟨hv,step_inv hinv hu hv hstep,hrun u a v hinv hu hv hPu hstep⟩
    · cases hstep
      exact .inr ⟨stopped_shutdown u,hshut u hinv hPu⟩
  · exact .inr ⟨hstopped.step hstep,hafter u a v hstopped hQ hstep⟩

/-- The counter is the number of active groups. -/
theorem Slots.count_active {s : GroupQueue F} (h : Slots s) :
    {g | (s.groups g).active = true}.Finite ∧
      s.activeCount = ({g | (s.groups g).active = true}.ncard : Int) := by
  have hset : {g | (s.groups g).active = true} = (s.runGroups.toFinset : Set String) := by
    ext g
    have hg := h.single g
    simp only [Set.mem_ofPred_eq, List.coe_toFinset]
    rw [← List.count_pos_iff, hg]
    cases (s.groups g).active <;> simp
  have hnodup : s.runGroups.Nodup := List.nodup_iff_count_le_one.mpr (fun g => by
    rw [h.single g]
    split <;> omega)
  rw [hset]
  refine ⟨s.runGroups.toFinset.finite_toSet,?_⟩
  rw [Set.ncard_coe_finset, List.toFinset_card_of_nodup hnodup]
  exact h.counted

theorem Slots.runsOf_active {s : GroupQueue F} (h : Slots s) {g : String}
    (hg : (s.groups g).active = true) : ∃ b, s.runsOf g = [b] := by
  apply List.length_eq_one_iff.mp
  rw [length_runsOf, h.single, hg]
  rfl

theorem Slots.runsOf_idle {s : GroupQueue F} (h : Slots s) {g : String}
    (hg : (s.groups g).active = false) : s.runsOf g = [] := by
  apply List.length_eq_zero_iff.mp
  rw [length_runsOf, h.single, hg]
  rfl

/-- A group has one run in flight at most. -/
theorem Slots.run_unique {s : GroupQueue F} (h : Slots s) {g : String} {b b' : Background F}
    (hb : b ∈ s.runsOf g) (hb' : b' ∈ s.runsOf g) : b = b' := by
  cases hact : (s.groups g).active with
  | true =>
    obtain ⟨b₁,hone⟩ := h.runsOf_active hact
    rw [hone, List.mem_singleton] at hb hb'
    rw [hb, hb']
  | false =>
    rw [h.runsOf_idle hact] at hb
    cases hb

/-- The mark of a task run is there exactly while a task run is in flight. -/
theorem Slots.running_iff {s : GroupQueue F} (h : Slots s) (g id : String) :
    (s.groups g).runningTaskId = some id ↔
      ∃ b ∈ s.runsOf g, ∃ task, b.coro = .runTask g task ∧ task.id = id := by
  constructor
  · intro hid
    have hact : (s.groups g).active = true := by
      by_contra hidle
      rw [h.unmarked g (Bool.eq_false_iff.mpr hidle)] at hid
      cases hid
    obtain ⟨b,hb⟩ := h.runsOf_active hact
    have hmem : b ∈ s.runsOf g := by simp [hb]
    obtain ⟨hin,hg⟩ := mem_runsOf.mp hmem
    have hmark := h.marked b hin g hg
    cases hc : b.coro with
    | runForGroup g' =>
      rw [hc] at hmark
      rw [show (s.groups g).runningTaskId = none from hmark] at hid
      cases hid
    | runTask g' task =>
      rw [hc] at hmark hg
      cases hg
      exact ⟨b,hmem,task,hc,Option.some.inj (hmark.1.symm.trans hid)⟩
    | retry g' d => rw [hc] at hg; cases hg
  · rintro ⟨b,hb,task,hc,rfl⟩
    obtain ⟨hin,hg⟩ := mem_runsOf.mp hb
    have hmark := h.marked b hin g hg
    rw [hc] at hmark
    exact hmark.1

theorem Slots.container {s : GroupQueue F} (h : Slots s) (g id : String)
    (hid : (s.groups g).runningTaskId = some id) : (s.groups g).isTaskContainer = true := by
  obtain ⟨b,hb,task,hc,_⟩ := (h.running_iff g id).mp hid
  obtain ⟨hin,hg⟩ := mem_runsOf.mp hb
  have hmark := h.marked b hin g hg
  rw [hc] at hmark
  exact hmark.2

/-- Before shutdown the counter, the flags, the coroutines and the task marks agree,
after any interleaving of enqueues, idle reports, run ends and retry timers. -/
theorem slots_safe (maxC maxR base maxMs : Int) (p c : Bool) (s : GroupQueue F)
    (h : Reachable step (init maxC maxR base maxMs p c) s) (hrun : s.shuttingDown = false) :
    {g | (s.groups g).active = true}.Finite ∧
    s.activeCount = ({g | (s.groups g).active = true}.ncard : Int) ∧
    (∀ g, (s.groups g).active = true → ∃ b, s.runsOf g = [b]) ∧
    (∀ g, (s.groups g).active = false → s.runsOf g = []) ∧
    s.activeCount ≤ max 1 maxC ∧
    (∀ g id, (s.groups g).runningTaskId = some id ↔
      ∃ b ∈ s.runsOf g, ∃ task, b.coro = .runTask g task ∧ task.id = id) ∧
    (∀ g id, (s.groups g).runningTaskId = some id → (s.groups g).isTaskContainer = true) := by
  have hinv := reachable_inv h (inv_init maxC maxR base maxMs p c) hrun
  have hmax : s.maxConcurrent = max 1 maxC := by
    have he := reachable_settings h hrun
    exact congrArg Settings.maxConcurrent he
  obtain ⟨hfin,hcount⟩ := hinv.toSlots.count_active
  refine ⟨hfin,hcount,fun g => hinv.toSlots.runsOf_active,fun g => hinv.toSlots.runsOf_idle,?_,
    hinv.toSlots.running_iff,hinv.toSlots.container⟩
  rw [← hmax]
  exact hinv.bounded

/-- Two groups and one slot: a task runs, and the other group waits for its slot. -/
theorem slots_safe_one_slot :
    let s := ((init 1 5 5000 300000 true true : GroupQueue Unit).enqueueTask "a" "t" ()).enqueueMessageCheck "b"
    s.activeCount = ({g | (s.groups g).active = true}.ncard : Int) ∧ s.activeCount ≤ max 1 1 := by
  intro s
  have h : Reachable step (init 1 5 5000 300000 true true) s :=
    ⟨[.enqueueTask "a" "t" (),.enqueueMessageCheck "b"],rfl⟩
  have hsafe := slots_safe 1 5 5000 300000 true true s h (by decide)
  exact ⟨hsafe.2.1,hsafe.2.2.2.2.1⟩

end NanoClaw.GroupQueue
