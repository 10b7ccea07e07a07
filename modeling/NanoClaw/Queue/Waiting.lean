import NanoClaw.Queue.Safety

/-! How long a group waits. A run that ends without more work of its own group hands its slot on, and
each handover starts the group that has waited longest; no other step before shutdown moves the waiting
groups. -/
namespace NanoClaw.GroupQueue
open Execution
variable {F : Type}

/-- The group whose run a step ends. -/
def endedBy (s : GroupQueue F) : Action F → Option String
  | .begin i =>
    match s.backgroundTasks[i]? with
    | some ⟨.runForGroup g,_,_⟩ => if s.processMessagesFn then none else some g
    | _ => none
  | .finish i _ => s.backgroundTasks[i]?.bind (·.coro.runGroup)
  | _ => none

/-- The step ends a run. -/
def endsRun (s : GroupQueue F) (a : Action F) : Bool := (s.endedBy a).isSome

/-- The step ends a run of a group that has nothing more to do. -/
def handsOn (s : GroupQueue F) (a : Action F) : Bool :=
  (s.endedBy a).any (fun g => (s.groups g).pendingTasks.isEmpty && !(s.groups g).pendingMessages)

def handovers (s : GroupQueue F) (actions : List (Action F)) : Nat := tally step handsOn s actions

def runEnds (s : GroupQueue F) (actions : List (Action F)) : Nat := tally step endsRun s actions

/-- What a step does to the waiting groups: with a slot handed on, the first of them starts; without,
they all stay, and others may join them. -/
structure Serves (s t : GroupQueue F) (handed : Bool) : Prop where
  stays : handed = false → ∃ joined, t.waitingGroups = s.waitingGroups ++ joined
  starts : handed = true → ∀ g rest, s.waitingGroups = g :: rest →
    t.waitingGroups = rest ∧ (t.groups g).active = true

section Steps
variable {s t : GroupQueue F} {g : String}

theorem serves_same (hw : t.waitingGroups = s.waitingGroups) : Serves s t false :=
  ⟨fun _ => ⟨[],by rw [hw, List.append_nil]⟩,fun h => Bool.noConfusion h⟩

theorem serves_enterWaiting (hw : t.waitingGroups = s.waitingGroups) :
    Serves s (t.enterWaiting g) false := by
  refine ⟨fun _ => ?_,fun h => Bool.noConfusion h⟩
  rw [enterWaiting, hw]
  split
  · exact ⟨[],by rw [hw, List.append_nil]⟩
  · exact ⟨[g],rfl⟩

theorem enqueueMessageCheck_serves : Serves s (s.enqueueMessageCheck g) false := by
  rcases enqueueMessageCheck_cases s g with ⟨_,h⟩ | ⟨_,h⟩ | ⟨_,_,h⟩ | ⟨_,_,h⟩ <;> rw [h]
  · exact serves_same rfl
  · exact serves_same rfl
  · exact serves_enterWaiting rfl
  · exact serves_same rfl

theorem closeStdin_waitingGroups : (s.closeStdin g).waitingGroups = s.waitingGroups := by
  rw [closeStdin]
  split <;> rfl

theorem enqueueTask_serves (taskId : String) (fn : F) : Serves s (s.enqueueTask g taskId fn) false := by
  rcases enqueueTask_cases s g taskId fn with
    ⟨_,h⟩ | ⟨_,_,_,⟨_,_,h⟩ | ⟨_,_,h⟩ | ⟨_,_,h⟩ | ⟨_,_,h⟩⟩ <;> rw [h]
  · exact serves_same rfl
  · exact serves_same closeStdin_waitingGroups
  · exact serves_same rfl
  · exact serves_enterWaiting rfl
  · exact serves_same rfl

theorem notifyIdle_serves : Serves s (s.notifyIdle g) false := by
  rcases notifyIdle_cases s g with ⟨_,h⟩ | ⟨_,h⟩ <;> rw [h]
  · exact serves_same rfl
  · exact serves_same closeStdin_waitingGroups

/-- One free slot is for the first of the waiting groups, and then the loop stops. -/
theorem drainWaitingLoop_one {rest : List String} (hs : Slots s) (hw : Waiting s)
    (hl : s.waitingGroups = g :: rest) (hone : s.activeCount + 1 = s.maxConcurrent) :
    (drainWaitingLoop (g :: rest) s).waitingGroups = rest ∧
      ((drainWaitingLoop (g :: rest) s).groups g).active = true := by
  obtain ⟨hidle,hwork⟩ := hw.waits g (hl ▸ List.mem_cons_self)
  have hroom : s.activeCount < s.maxConcurrent := by omega
  obtain ⟨_,hactive,hcount⟩ :=
    startPending_slots ((hs.setWaiting rest).record (.waitLeft g)) hidle hwork hroom
  have hfull : drainWaitingLoop rest (({ s with waitingGroups := rest }.record (.waitLeft g)).startPending g) =
      ({ s with waitingGroups := rest }.record (.waitLeft g)).startPending g := by
    cases rest with
    | nil => rfl
    | cons g' rest =>
      refine if_neg ?_
      rw [hcount, startPending_maxConcurrent]
      exact Int.not_lt.mpr (Int.le_of_eq hone.symm)
  rw [drainWaitingLoop, if_pos hroom, hfull]
  exact ⟨startPending_waitingGroups _ g,hactive⟩

/-- The drain after a run: the group goes on with its own work, or the first waiting group starts. -/
theorem Freed.serves (h : Freed t g) (hrun : t.shuttingDown = false)
    (hw : t.waitingGroups = s.waitingGroups) :
    Serves s (t.drainGroup g) ((t.groups g).pendingTasks.isEmpty && !(t.groups g).pendingMessages) := by
  simp only [drainGroup, hrun, Bool.false_eq_true, if_false]
  split
  next hwork =>
    have hno : ((t.groups g).pendingTasks.isEmpty && !(t.groups g).pendingMessages) = false := by
      simpa [or_iff_not_imp_left] using hwork
    rw [hno]
    exact serves_same ((startPending_waitingGroups t g).trans hw)
  next hnone =>
    have hyes : ((t.groups g).pendingTasks.isEmpty && !(t.groups g).pendingMessages) = true := by
      simpa using hnone
    rw [hyes]
    refine ⟨fun h => Bool.noConfusion h,fun _ g' rest hl => ?_⟩
    rw [← hw] at hl
    rw [drainWaiting, hl]
    exact drainWaitingLoop_one h.toSlots h.toWaiting hl (h.full (by simp [hl]))

/-- The work of the group is the same before and after the accounting of its run. -/
theorem freeRunForGroup_pending (outcome : Outcome) :
    ((s.freeRunForGroup g outcome).groups g).pendingTasks = (s.groups g).pendingTasks ∧
      ((s.freeRunForGroup g outcome).groups g).pendingMessages = (s.groups g).pendingMessages ∧
      (s.freeRunForGroup g outcome).waitingGroups = s.waitingGroups := by
  obtain ⟨k,events,timers,_,_,he⟩ := settleRetry_eq s g outcome
  rw [freeRunForGroup, he]
  simp [setGroup]

end Steps

theorem endedBy_begin {s : GroupQueue F} {i : Nat} {b : Background F}
    (hb : s.backgroundTasks[i]? = some b) :
    s.endedBy (.begin i) =
      match b.coro with
      | .runForGroup g => if s.processMessagesFn then none else some g
      | _ => none := by
  obtain ⟨coro,_,_⟩ := b
  simp only [endedBy, hb]
  cases coro <;> rfl

/-- Every step before shutdown serves the waiting groups in this way. -/
theorem step_serves {s t : GroupQueue F} {a : Action F} (h : Inv s) (ht : t.shuttingDown = false)
    (hstep : step s a = some t) : Serves s t (s.handsOn a) := by
  have hrun := step_shuttingDown hstep ht
  have hended {u : GroupQueue F} {i : Nat} {b : Background F} {g : String}
      (hb : s.backgroundTasks[i]? = some b) (hg : b.coro = .runForGroup g) (l : List Event)
      (hu : u = { s.dropTask i with history := l }) (outcome : Outcome) :
      Serves s (u.endRunForGroup g outcome)
        ((s.groups g).pendingTasks.isEmpty && !(s.groups g).pendingMessages) := by
    have hfreed := freeRunForGroup_freed h hb hg l hu outcome
    obtain ⟨htasks,hmessages,hwaiting⟩ := @freeRunForGroup_pending _ u g outcome
    have hserves := hfreed.serves ((freeRunForGroup_shuttingDown u g outcome).trans (by rw [hu]; exact hrun))
      (hwaiting.trans (by rw [hu]; rfl) : _ = s.waitingGroups)
    rw [htasks, hmessages] at hserves
    subst hu
    exact hserves
  cases a with
  | enqueueMessageCheck g => cases hstep; exact enqueueMessageCheck_serves
  | enqueueTask g taskId fn => cases hstep; exact enqueueTask_serves taskId fn
  | notifyIdle g => cases hstep; exact notifyIdle_serves
  | begin i =>
    obtain ⟨b,hb,_,_,hc⟩ := begin_cases hstep
    rw [handsOn, endedBy_begin hb]
    rcases hc with ⟨g,hg,hfn,rfl⟩ | ⟨g,hg,hfn,rfl⟩ | ⟨g,task,hg,rfl⟩ | ⟨hg,rfl⟩
    · simp only [hg, hfn, if_true]
      exact serves_same rfl
    · simp only [hg, hfn, Bool.false_eq_true, if_false]
      exact hended hb hg s.history rfl .success
    · simp only [hg]
      exact serves_same rfl
    · cases hcoro : b.coro with
      | retry g d => exact serves_same rfl
      | runForGroup g => simp [hcoro, Coroutine.runGroup] at hg
      | runTask g task => simp [hcoro, Coroutine.runGroup] at hg
  | finish i outcome =>
    obtain ⟨b,hb,_,hc⟩ := finish_cases hstep
    rcases hc with ⟨g,hg,rfl⟩ | ⟨g,task,hg,rfl⟩
    · simp only [handsOn, endedBy, hb, Option.bind_some, hg, Coroutine.runGroup, Option.any_some]
      exact hended hb hg _ rfl outcome
    · simp only [handsOn, endedBy, hb, Option.bind_some, hg, Coroutine.runGroup, Option.any_some]
      have hserves := (freeRunTask_freed h hb hg).serves hrun (rfl : _ = s.waitingGroups)
      simpa [freeRunTask, setGroup, dropTask, endRunTask_eq] using hserves
  | fireRetry i =>
    obtain ⟨b,g,d,hb,hg,rfl⟩ := fireRetry_cases hstep
    rw [if_neg (by simp [hrun])]
    exact ⟨(@enqueueMessageCheck_serves _ (s.dropTask i) g).stays,fun h => Bool.noConfusion h⟩
  | shutdown => cases hstep; cases ht
  | dropCancelled i =>
    obtain ⟨b,_,_,_,rfl⟩ := dropCancelled_cases hstep
    exact serves_same rfl

section Runs
variable {s t : GroupQueue F} {g : String}

theorem handovers_cons {a : Action F} {actions : List (Action F)} (h : step s a = some t) :
    s.handovers (a :: actions) = (s.handsOn a).toNat + t.handovers actions := tally_cons h

/-- One of the steps starts a run of the group: a handover before which the group was the first to
wait, with `n` handovers before it. -/
def StartedAfter (s : GroupQueue F) (actions : List (Action F)) (g : String) (n : Nat) : Prop :=
  ∃ before a after u v, actions = before ++ a :: after ∧ exec step s before = some u ∧
    step u a = some v ∧ s.handovers before = n ∧ u.handsOn a = true ∧
    u.waitingGroups.head? = some g ∧ (u.groups g).active = false ∧ (v.groups g).active = true

theorem StartedAfter.cons {u : GroupQueue F} {a : Action F} {actions : List (Action F)} {n : Nat}
    (hstep : step s a = some u) (h : u.StartedAfter actions g n) :
    s.StartedAfter (a :: actions) g ((s.handsOn a).toNat + n) := by
  obtain ⟨before,b,after,v,w,rfl,hv,hw,hn,hrest⟩ := h
  refine ⟨a :: before,b,after,v,w,rfl,?_,hw,?_,hrest⟩
  · rw [exec, hstep]
    exact hv
  · rw [handovers_cons hstep, hn]

theorem reachable_shuttingDown (h : Reachable step s t) (ht : t.shuttingDown = false) :
    s.shuttingDown = false := by
  refine h.invariant (P := fun t => t.shuttingDown = false → s.shuttingDown = false) ?_ id ht
  intro u a v hu hstep hv
  exact hu (step_shuttingDown hstep hv)

theorem inv_waits (h : Inv s) {actions : List (Action F)} {k : Nat}
    (hk : s.waitingGroups[k]? = some g) (he : exec step s actions = some t)
    (ht : t.shuttingDown = false) :
    (s.handovers actions ≤ k ∧ t.waitingGroups[k - s.handovers actions]? = some g) ∨
      (k < s.handovers actions ∧ s.StartedAfter actions g k) := by
  induction actions generalizing s k with
  | nil =>
    cases he
    exact .inl ⟨Nat.zero_le k,hk⟩
  | cons a actions ih =>
    obtain ⟨u,hu,he⟩ := (exec_cons_iff step s t a actions).mp he
    have hrun := reachable_shuttingDown ⟨actions,he⟩ ht
    have hserves := step_serves h hrun hu
    have hnext := step_inv h (step_shuttingDown hu hrun) hrun hu
    rw [handovers_cons hu]
    cases hhanded : s.handsOn a with
    | false =>
      obtain ⟨joined,hjoined⟩ := hserves.stays hhanded
      have hk : u.waitingGroups[k]? = some g := by
        rw [hjoined]
        exact List.getElem?_append_left (List.getElem?_eq_some_iff.mp hk).1 ▸ hk
      rw [Bool.toNat_false, Nat.zero_add]
      refine (ih hnext hk he).imp_right (And.imp_right fun hstarted => ?_)
      have hstarted := hstarted.cons hu
      rwa [hhanded, Bool.toNat_false, Nat.zero_add] at hstarted
    | true =>
      cases hl : s.waitingGroups with
      | nil => simp [hl] at hk
      | cons first rest =>
        obtain ⟨hrest,hactive⟩ := hserves.starts hhanded first rest hl
        rw [hl] at hk
        cases k with
        | zero =>
          obtain rfl : first = g := Option.some.inj hk
          have hidle := (h.waits first (hl ▸ List.mem_cons_self)).1
          refine .inr ⟨Nat.add_pos_left Nat.one_pos _,[],a,actions,s,u,rfl,rfl,hu,rfl,hhanded,?_,hidle,
            hactive⟩
          rw [hl]
          rfl
        | succ k =>
          have hk : u.waitingGroups[k]? = some g := hrest ▸ hk
          rw [Bool.toNat_true, Nat.add_comm, Nat.add_sub_add_right]
          refine (ih hnext hk he).imp (And.imp_left Nat.succ_le_succ) ?_
          rintro ⟨hlt,hstarted⟩
          have hstarted := hstarted.cons hu
          rw [hhanded, Bool.toNat_true, Nat.add_comm] at hstarted
          exact ⟨Nat.succ_lt_succ hlt,hstarted⟩

/-- In every run before shutdown, the group at place `k` of the waiting list starts with the handover
that comes after `k` others: until then it waits, one place further to the front for each, and then it
has started, whatever other groups and timers do in between. -/
theorem waits_for_handovers {maxC maxR base maxMs : Int} {p c : Bool}
    (hs : Reachable step (init maxC maxR base maxMs p c) s) (actions : List (Action F)) {k : Nat}
    (hk : s.waitingGroups[k]? = some g) (he : exec step s actions = some t)
    (ht : t.shuttingDown = false) :
    (s.handovers actions ≤ k ∧ t.waitingGroups[k - s.handovers actions]? = some g) ∨
      (k < s.handovers actions ∧ s.StartedAfter actions g k) :=
  inv_waits (reachable_inv hs (inv_init maxC maxR base maxMs p c) (reachable_shuttingDown ⟨actions,he⟩ ht))
    hk he ht

end Runs

/-- Three groups and one slot: the last of them starts with the second handover. -/
theorem waits_for_handovers_last : ∃ s t : GroupQueue Unit,
    exec step (init 1 5 5000 300000 true true)
      [.enqueueMessageCheck "a",.begin 0,.enqueueMessageCheck "b",.enqueueMessageCheck "c"] = some s ∧
    exec step s [.finish 0 .success,.begin 0,.finish 0 .success] = some t ∧
      s.StartedAfter [.finish 0 .success,.begin 0,.finish 0 .success] "c" 1 := by
  let s : GroupQueue Unit := (((init 1 5 5000 300000 true true).enqueueMessageCheck "a").parkTask 0
    ⟨.runForGroup "a",false,false⟩ |>.record (.messagesInvoked "a")).enqueueMessageCheck "b"
      |>.enqueueMessageCheck "c"
  have hs : exec step (init 1 5 5000 300000 true true)
      [.enqueueMessageCheck "a",.begin 0,.enqueueMessageCheck "b",.enqueueMessageCheck "c"] = some s := rfl
  have hruns : (exec step s [.finish 0 .success,.begin 0,.finish 0 .success]).map (·.shuttingDown) =
      some false := by decide +kernel
  obtain ⟨t,ht,hopen⟩ := Option.map_eq_some_iff.mp hruns
  have hwaits := waits_for_handovers ⟨_,hs⟩ _ (rfl : s.waitingGroups[1]? = some "c") ht hopen
  have hcount : s.handovers [.finish 0 .success,.begin 0,.finish 0 .success] = 2 := by decide +kernel
  rw [hcount] at hwaits
  exact ⟨s,t,hs,ht,(hwaits.resolve_left (fun h => absurd h.1 (by decide))).2⟩

section Busy
variable {s t : GroupQueue F} {g : String}

/-- The queue is open, with a started run of the group in flight. -/
structure Holds (s : GroupQueue F) (g : String) (i : Nat) (b : Background F) : Prop where
  inv : Inv s
  opened : s.shuttingDown = false
  calls : s.processMessagesFn = true
  flies : s.backgroundTasks[i]? = some b
  started : b.started = true
  runs : b.coro.runGroup = some g

theorem Slots.active_of_run (h : Slots s) {i : Nat} {b : Background F}
    (hb : s.backgroundTasks[i]? = some b) (hg : b.coro.runGroup = some g) : (s.groups g).active = true := by
  by_contra hidle
  have hcount := h.single g
  rw [if_neg hidle, List.count_eq_zero] at hcount
  exact hcount (List.mem_filterMap.mpr ⟨b,List.mem_of_getElem? hb,hg⟩)

/-- A group that goes on with its own work does so in a run at the end of the list. -/
theorem startPending_run (hloop : s.loopRunning = true) (hwork : HasWork (s.groups g)) :
    ∃ coro : Coroutine F, coro.runGroup = some g ∧
      (s.startPending g).backgroundTasks = s.backgroundTasks ++ [⟨coro,false,false⟩] := by
  obtain ⟨task,rest,_,he⟩ | ⟨_,_,he⟩ | ⟨hno,_⟩ := startPending_cases s g
  · exact ⟨.runTask g task,rfl,by rw [he]; simp [startRunTask, createBackgroundTask, setGroup, hloop]⟩
  · exact ⟨.runForGroup g,rfl,by rw [he]; simp [startRunForGroup, createBackgroundTask, setGroup, hloop]⟩
  · exact absurd hwork hno

/-- The end of a run of a group that has been asked for another check: a new run of the group is
created, and the others wait on. -/
theorem Holds.restart {i : Nat} {b : Background F} (h : Holds s g i b)
    (hpending : (s.groups g).pendingMessages = true) :
    ∃ t coro, step s (.finish i .success) = some t ∧ coro.runGroup = some g ∧
      t.backgroundTasks[(s.backgroundTasks.eraseIdx i).length]? = some ⟨coro,false,false⟩ ∧
      t.waitingGroups = s.waitingGroups ∧ t.settings = s.settings := by
  have hdrain {u : GroupQueue F} (hfreed : Freed u g) (hsettings : u.settings = s.settings)
      (hmessages : (u.groups g).pendingMessages = true) (hw : u.waitingGroups = s.waitingGroups)
      (htasks : u.backgroundTasks = s.backgroundTasks.eraseIdx i) :
      ∃ coro : Coroutine F, coro.runGroup = some g ∧
        (u.drainGroup g).backgroundTasks[(s.backgroundTasks.eraseIdx i).length]? = some ⟨coro,false,false⟩ ∧
        (u.drainGroup g).waitingGroups = s.waitingGroups ∧ (u.drainGroup g).settings = s.settings := by
    obtain ⟨coro,hg,hcoro⟩ := startPending_run hfreed.running (.inl hmessages)
    have hrun : u.shuttingDown = false := (congrArg Settings.shuttingDown hsettings).trans h.opened
    have hstart : u.drainGroup g = u.startPending g := by
      simp [drainGroup, hrun, hmessages]
    rw [hstart]
    refine ⟨coro,hg,?_,(startPending_waitingGroups u g).trans hw,(settings_startPending u g).trans hsettings⟩
    rw [hcoro, htasks, List.getElem?_concat_length]
  have hruns := h.runs
  cases hcoro : b.coro with
  | retry g' d =>
    rw [hcoro] at hruns
    cases hruns
  | runForGroup g' =>
    rw [hcoro] at hruns
    cases hruns
    have hfinish : step s (.finish i .success) =
        some (((s.dropTask i).record (.messagesEnded g .success)).endRunForGroup g .success) := by
      simp [step, finish, h.flies, h.started, hcoro]
    obtain ⟨coro,hg,hlast,hw,hs⟩ := hdrain (freeRunForGroup_freed h.inv h.flies hcoro _ rfl .success)
      rfl (by simpa [freeRunForGroup, settleRetry, setGroup, record, dropTask] using hpending) rfl rfl
    exact ⟨_,coro,hfinish,hg,hlast,hw,hs⟩
  | runTask g' task =>
    rw [hcoro] at hruns
    cases hruns
    have hfinish : step s (.finish i .success) = some ((s.dropTask i).endRunTask g) := by
      simp [step, finish, h.flies, h.started, hcoro]
    obtain ⟨coro,hg,hlast,hw,hs⟩ := hdrain (freeRunTask_freed h.inv h.flies hcoro) rfl
      (by simpa [freeRunTask, setGroup, dropTask] using hpending) rfl rfl
    exact ⟨_,coro,hfinish,hg,hlast,hw,hs⟩

/-- A check for a group with a run in flight is noted for it, and changes nothing else. -/
theorem Holds.check {i : Nat} {b : Background F} (h : Holds s g i b) :
    step s (.enqueueMessageCheck g) = some (s.notePending g) ∧ Holds (s.notePending g) g i b := by
  have hactive := h.inv.active_of_run h.flies h.runs
  have hstep : step s (.enqueueMessageCheck g) = some (s.notePending g) := by
    simp [step, enqueueMessageCheck, h.opened, hactive, notePending, record]
  exact ⟨hstep,step_inv h.inv h.opened h.opened hstep,h.opened,h.calls,h.flies,h.started,h.runs⟩

/-- The body of the new run begins, and the group holds a slot as before. -/
theorem begin_holds {j : Nat} {coro : Coroutine F} (hinv : Inv s) (hopen : s.shuttingDown = false)
    (hcalls : s.processMessagesFn = true) (hj : s.backgroundTasks[j]? = some ⟨coro,false,false⟩)
    (hg : coro.runGroup = some g) :
    ∃ t k b, step s (.begin j) = some t ∧ Holds t g k b ∧ t.waitingGroups = s.waitingGroups ∧
      s.endedBy (.begin j) = none := by
  have hpark {l : List Event} (hstep : step s (.begin j) = some
      { s.parkTask j ⟨coro,false,false⟩ with history := l }) (hended : s.endedBy (.begin j) = none) :
      ∃ t k b, step s (.begin j) = some t ∧ Holds t g k b ∧ t.waitingGroups = s.waitingGroups ∧
        s.endedBy (.begin j) = none :=
    ⟨_,(s.backgroundTasks.eraseIdx j).length,⟨coro,true,false⟩,hstep,
      ⟨step_inv hinv hopen hopen hstep,hopen,hcalls,List.getElem?_concat_length,rfl,hg⟩,rfl,hended⟩
  cases coro with
  | retry g' d => cases hg
  | runForGroup g' =>
    refine @hpark (s.history ++ [.messagesInvoked g']) ?_ ?_
    · simp [step, begin, hj, hcalls, record, parkTask]
    · simp [endedBy_begin hj, hcalls]
  | runTask g' task =>
    refine @hpark (s.history ++ [.taskInvoked g' task.id]) ?_ ?_
    · simp [step, begin, hj, record, parkTask]
    · simp [endedBy_begin hj]

/-- One more run of the group, with a check in time: no slot is handed on. -/
theorem Holds.round {i : Nat} {b : Background F} (h : Holds s g i b) :
    ∃ actions t j c, exec step s actions = some t ∧ Holds t g j c ∧ t.waitingGroups = s.waitingGroups ∧
      s.runEnds actions = 1 ∧ s.handovers actions = 0 := by
  obtain ⟨hcheck,hholds⟩ := h.check
  have hpending : ((s.notePending g).groups g).pendingMessages = true := by simp [notePending, setGroup]
  obtain ⟨u,coro,hfinish,hg,hlast,hw,hsettings⟩ := hholds.restart hpending
  have hopen : u.shuttingDown = false := (congrArg Settings.shuttingDown hsettings).trans hholds.opened
  have hcalls : u.processMessagesFn = true :=
    (congrArg Settings.processMessagesFn hsettings).trans hholds.calls
  obtain ⟨t,j,c,hbegin,ht,hwt,hended⟩ :=
    begin_holds (step_inv hholds.inv hholds.opened hopen hfinish) hopen hcalls hlast hg
  have hfirst : s.endedBy (.enqueueMessageCheck g) = none := rfl
  have hsecond : (s.notePending g).endedBy (.finish i .success) = some g := by
    simp [endedBy, hholds.flies, hholds.runs]
  refine ⟨[.enqueueMessageCheck g,.finish i .success,
    .begin ((s.notePending g).backgroundTasks.eraseIdx i).length],t,j,c,?_,ht,hwt.trans hw,?_,?_⟩
  · rw [exec, hcheck, Option.bind_some, exec, hfinish, Option.bind_some, exec, hbegin]
    rfl
  · rw [runEnds, tally_cons hcheck, tally_cons hfinish, tally_cons hbegin]
    simp [endsRun, hfirst, hsecond, hended, tally]
  · rw [handovers, tally_cons hcheck, tally_cons hfinish, tally_cons hbegin]
    simp [handsOn, hfirst, hsecond, hended, tally, hpending]

/-- There is no bound on the runs a waiting group sees end: wherever a run of a group is in flight, any
number of runs can end while not one slot is handed on and all the others wait on as they stand. -/
theorem busy_group_keeps_slot {maxC maxR base maxMs : Int} {c : Bool}
    (hs : Reachable step (init maxC maxR base maxMs true c) s) (hopen : s.shuttingDown = false) {i : Nat}
    {b : Background F} (hb : s.backgroundTasks[i]? = some b) (hstarted : b.started = true)
    (hg : b.coro.runGroup = some g) (n : Nat) :
    ∃ actions t, exec step s actions = some t ∧ t.shuttingDown = false ∧ s.runEnds actions = n ∧
      s.handovers actions = 0 ∧ t.waitingGroups = s.waitingGroups := by
  have hholds : Holds s g i b :=
    ⟨reachable_inv hs (inv_init maxC maxR base maxMs true c) hopen,hopen,
      congrArg Settings.processMessagesFn (reachable_limits hs),hb,hstarted,hg⟩
  clear hs hopen hb hstarted hg
  induction n generalizing s i b with
  | zero => exact ⟨[],s,rfl,hholds.opened,rfl,rfl,rfl⟩
  | succ n ih =>
    obtain ⟨first,u,j,c,hu,hnext,hw,hends,hhanded⟩ := hholds.round
    obtain ⟨rest,t,ht,hopen,hends',hhanded',hw'⟩ := ih hnext
    refine ⟨first ++ rest,t,?_,hopen,?_,?_,hw'.trans hw⟩
    · rw [exec_append, hu]
      exact ht
    · rw [runEnds, tally_append hu]
      exact (congrArg₂ (· + ·) hends hends').trans (Nat.add_comm 1 n)
    · rw [handovers, tally_append hu]
      exact congrArg₂ (· + ·) hhanded hhanded'

end Busy

/-- A run of one group, with another group waiting, and a thousand runs that end meanwhile. -/
theorem busy_group_keeps_slot_thousand : ∃ s t : GroupQueue Unit, ∃ actions,
    exec step (init 1 5 5000 300000 true true)
      [.enqueueMessageCheck "a",.begin 0,.enqueueMessageCheck "b"] = some s ∧
    exec step s actions = some t ∧ s.runEnds actions = 1000 ∧ t.waitingGroups = ["b"] := by
  let s : GroupQueue Unit := (((init 1 5 5000 300000 true true).enqueueMessageCheck "a").parkTask 0
    ⟨.runForGroup "a",false,false⟩ |>.record (.messagesInvoked "a")).enqueueMessageCheck "b"
  have hs : exec step (init 1 5 5000 300000 true true)
      [.enqueueMessageCheck "a",.begin 0,.enqueueMessageCheck "b"] = some s := rfl
  obtain ⟨actions,t,ht,_,hends,_,hw⟩ := busy_group_keeps_slot ⟨_,hs⟩ rfl
    (rfl : s.backgroundTasks[0]? = some ⟨.runForGroup "a",true,false⟩) rfl rfl 1000
  exact ⟨s,t,actions,hs,ht,hends,hw⟩

end NanoClaw.GroupQueue
