import NanoClaw.Queue.Safety

/-! Requests that come while `asyncio.create_task` raises `RuntimeError`, which
`_create_background_task` swallows: which of them leave the queue consistent. -/
namespace NanoClaw.GroupQueue
open Execution
variable {F : Type}

/-- A call that asks for a run. -/
inductive Request (F : Type) where
  | messageCheck (groupJid : String)
  | task (groupJid taskId : String) (fn : F)

def Request.action : Request F → Action F
  | .messageCheck g => .enqueueMessageCheck g
  | .task g taskId fn => .enqueueTask g taskId fn

def Request.group : Request F → String
  | .messageCheck g => g
  | .task g _ _ => g

def request (s : GroupQueue F) : Request F → GroupQueue F
  | .messageCheck g => s.enqueueMessageCheck g
  | .task g taskId fn => s.enqueueTask g taskId fn

/-- The call at a moment at which `create_task` raises. -/
def requestUnstarted (s : GroupQueue F) (r : Request F) : GroupQueue F :=
  { ({ s with loopRunning := false }).request r with loopRunning := s.loopRunning }

/-- A move of the event loop, or a request that comes at such a moment. -/
inductive Move (F : Type) where
  | step (a : Action F)
  | unstarted (r : Request F)

def move (s : GroupQueue F) : Move F → Option (GroupQueue F)
  | .step a => s.step a
  | .unstarted r => some (s.requestUnstarted r)

/-- The group has this very work already: its task is running or pending. -/
def Doubled (s : GroupQueue F) : Request F → Prop
  | .messageCheck _ => False
  | .task g taskId _ =>
    (s.groups g).runningTaskId = some taskId ∨ ∃ q ∈ (s.groups g).pendingTasks, q.id = taskId

/-- The request comes to the start of a run. -/
structure Starts (s : GroupQueue F) (r : Request F) : Prop where
  opened : s.shuttingDown = false
  idle : (s.groups r.group).active = false
  room : s.activeCount < s.maxConcurrent
  single : ¬Doubled s r

/-- The work that was asked for waits in the queue, or is in flight. -/
def Held (s : GroupQueue F) : Request F → Prop
  | .messageCheck g => (s.groups g).pendingMessages = true
  | .task g taskId _ =>
    (∃ q ∈ (s.groups g).pendingTasks, q.id = taskId) ∨
      ∃ b ∈ s.runsOf g, ∃ task, b.coro = .runTask g task ∧ task.id = taskId

/-- No group is marked active without a run in flight. -/
def Flying (s : GroupQueue F) : Prop := ∀ g, (s.groups g).active = true → s.runsOf g ≠ []

/-- What is owed after a request that could not be started. The work may also be left to a later
request for it, once the event loop has gone on. -/
structure Consistent (s : GroupQueue F) (r : Request F) (t : GroupQueue F) : Prop where
  flying : Flying t
  count : t.activeCount = s.activeCount
  work : Held t r ∨ ∃ u, Reachable step t u ∧ Starts u r

/-- The request does not come to a start. After shutdown, when it is refused, its work has to be
there already. -/
def Parks (s : GroupQueue F) (m : Move F) : Prop :=
  ∀ r, m = .unstarted r → ¬Starts s r ∧ (s.shuttingDown = true → Flying s ∧ Held s r)

section Calls
variable {s : GroupQueue F} {r : Request F}

theorem request_shut (h : s.shuttingDown = true) (r : Request F) : s.request r = s := by
  cases r with
  | messageCheck g => simp [request, enqueueMessageCheck, h]
  | task g taskId fn => simp [request, enqueueTask, h]

theorem requestUnstarted_shut (h : s.shuttingDown = true) (r : Request F) :
    s.requestUnstarted r = s := by
  rw [requestUnstarted, request_shut (s := { s with loopRunning := false }) h]

/-- Only a start needs `create_task`. -/
theorem requestUnstarted_of_not_starts (h : ¬Starts s r) : s.requestUnstarted r = s.request r := by
  by_cases hshut : s.shuttingDown = true
  · rw [requestUnstarted_shut hshut, request_shut hshut]
  have hopen : s.shuttingDown = false := Bool.eq_false_iff.mpr hshut
  cases r with
  | messageCheck g =>
    rw [requestUnstarted, request, request, enqueueMessageCheck, enqueueMessageCheck, if_neg hshut,
      if_neg hshut]
    by_cases hactive : (s.groups g).active = true
    · simp [record, hactive, setGroup]
    by_cases hfull : s.activeCount ≥ s.maxConcurrent
    · simp [record, hactive, hfull, setGroup, enterWaiting]
      split_ifs <;> rfl
    · exact absurd ⟨hopen,Bool.eq_false_iff.mpr hactive,Int.not_le.mp hfull,id⟩ h
  | task g taskId fn =>
    rw [requestUnstarted, request, request, enqueueTask, enqueueTask, if_neg hshut, if_neg hshut]
    by_cases hrunning : (s.groups g).runningTaskId = some taskId
    · simp [hrunning]
    by_cases hpending : (s.groups g).pendingTasks.any (fun task => task.id == taskId) = true
    · simp [hrunning, hpending]
    by_cases hactive : (s.groups g).active = true
    · simp [hrunning, hpending, hactive, setGroup, closeStdin, record]
      split_ifs <;> rfl
    by_cases hfull : s.activeCount ≥ s.maxConcurrent
    · simp [hrunning, hpending, hactive, hfull, setGroup, enterWaiting, record]
      split_ifs <;> rfl
    · refine absurd ⟨hopen,Bool.eq_false_iff.mpr hactive,Int.not_le.mp hfull,?_⟩ h
      rintro (hsame | hsame)
      · exact hrunning hsame
      · exact hpending (by simpa using hsame)

/-- A request whose run could not be started has marked its group. -/
theorem requestUnstarted_starts (h : Starts s r) :
    ((s.requestUnstarted r).groups r.group).active = true ∧
      (s.requestUnstarted r).backgroundTasks = s.backgroundTasks := by
  obtain ⟨hopen,hidle,hroom,hsingle⟩ := h
  cases r with
  | messageCheck g =>
    simp only [Request.group] at hidle
    simp [requestUnstarted, request, enqueueMessageCheck, hopen, hidle, Int.not_le.mpr hroom,
      startRunForGroup, createBackgroundTask, setGroup, record, Request.group]
  | task g taskId fn =>
    simp only [Request.group] at hidle
    simp only [Doubled, not_or, not_exists, not_and] at hsingle
    have hpending : (s.groups g).pendingTasks.any (fun task => task.id == taskId) = false := by
      simpa using hsingle.2
    simp [requestUnstarted, request, enqueueTask, hopen, hidle, Int.not_le.mpr hroom, hsingle.1,
      hpending, startRunTask, createBackgroundTask, setGroup, record, Request.group]

end Calls

section Moves
variable {s : GroupQueue F} {r : Request F}

private theorem enqueueMessageCheck_parks {g : String} (hopen : s.shuttingDown = false)
    (hstarts : ¬Starts s (.messageCheck g)) :
    s.enqueueMessageCheck g = s.notePending g ∨
      s.enqueueMessageCheck g = (s.notePending g).enterWaiting g := by
  rw [enqueueMessageCheck, if_neg (Bool.eq_false_iff.mp hopen)]
  dsimp only
  split
  next hactive => exact .inl rfl
  next hactive =>
    split
    next hfull => exact .inr rfl
    next hroom =>
      exact absurd ⟨hopen,Bool.eq_false_iff.mpr hactive,Int.not_le.mp hroom,id⟩ hstarts

private theorem enqueueTask_parks {g taskId : String} {fn : F} (hopen : s.shuttingDown = false)
    (hstarts : ¬Starts s (.task g taskId fn)) :
    (s.enqueueTask g taskId fn = s ∧ Doubled s (.task g taskId fn)) ∨
      s.enqueueTask g taskId fn = s.addPending g ⟨taskId,g,fn⟩ ∨
      s.enqueueTask g taskId fn = (s.addPending g ⟨taskId,g,fn⟩).closeStdin g ∨
      s.enqueueTask g taskId fn = (s.addPending g ⟨taskId,g,fn⟩).enterWaiting g := by
  rw [enqueueTask, if_neg (Bool.eq_false_iff.mp hopen)]
  dsimp only
  split
  next hrunning => exact .inl ⟨rfl,.inl hrunning⟩
  next hrunning =>
    split
    next hpending => exact .inl ⟨rfl,.inr (by simpa using hpending)⟩
    next hpending =>
      split
      next hactive =>
        split
        next => exact .inr (.inr (.inl rfl))
        next => exact .inr (.inl rfl)
      next hactive =>
        split
        next => exact .inr (.inr (.inr rfl))
        next hroom =>
          refine absurd ⟨hopen,Bool.eq_false_iff.mpr hactive,Int.not_le.mp hroom,?_⟩ hstarts
          rintro (hsame | hsame)
          · exact hrunning hsame
          · exact hpending (by simpa using hsame)

theorem notePending_held (s : GroupQueue F) (g : String) :
    Held (s.notePending g) (.messageCheck g) := by
  simp [Held, notePending, setGroup, record]

theorem addPending_held (s : GroupQueue F) (g taskId : String) (fn : F) :
    Held (s.addPending g ⟨taskId,g,fn⟩) (.task g taskId fn) :=
  .inl ⟨⟨taskId,g,fn⟩,by simp [addPending, setGroup, record],rfl⟩

private theorem Held.of_groups {t : GroupQueue F} (h : Held s r) (hgroups : t.groups = s.groups)
    (htasks : t.backgroundTasks = s.backgroundTasks) : Held t r := by
  cases r with
  | messageCheck g =>
    rw [Held, hgroups]
    exact h
  | task g taskId fn =>
    rw [Held, hgroups, runsOf, htasks]
    exact h

private theorem Held.enterWaiting {t : GroupQueue F} (h : Held t r) (g : String) :
    Held (t.enterWaiting g) r ∧ (t.enterWaiting g).activeCount = t.activeCount := by
  unfold GroupQueue.enterWaiting
  split
  · exact ⟨h,rfl⟩
  · exact ⟨h.of_groups rfl rfl,rfl⟩

private theorem Held.closeStdin {t : GroupQueue F} (h : Held t r) (g : String) :
    Held (t.closeStdin g) r ∧ (t.closeStdin g).activeCount = t.activeCount := by
  unfold GroupQueue.closeStdin
  split
  · exact ⟨h.of_groups rfl rfl,rfl⟩
  · exact ⟨h,rfl⟩

/-- Before shutdown a request that starts no run leaves its work in the queue, and every slot as it
is. -/
theorem request_held (h : Slots s) (hopen : s.shuttingDown = false) (hstarts : ¬Starts s r) :
    Held (s.request r) r ∧ (s.request r).activeCount = s.activeCount := by
  cases r with
  | messageCheck g =>
    have hpending := notePending_held s g
    rw [request]
    rcases enqueueMessageCheck_parks hopen hstarts with he | he
    · rw [he]
      exact ⟨hpending,rfl⟩
    · rw [he]
      exact hpending.enterWaiting g
  | task g taskId fn =>
    have hpending := addPending_held s g taskId fn
    rw [request]
    rcases enqueueTask_parks hopen hstarts with ⟨he,hrunning | hqueued⟩ | he | he | he
    · rw [he]
      exact ⟨.inr ((h.running_iff g taskId).mp hrunning),rfl⟩
    · rw [he]
      exact ⟨.inl hqueued,rfl⟩
    · rw [he]
      exact ⟨hpending,rfl⟩
    · rw [he]
      exact hpending.closeStdin g
    · rw [he]
      exact hpending.enterWaiting g

theorem Slots.flying (h : Slots s) : Flying s := by
  intro g hg
  obtain ⟨b,hb⟩ := h.runsOf_active hg
  rw [hb]
  exact List.cons_ne_nil b []

theorem request_eq_step (s : GroupQueue F) (r : Request F) : s.step r.action = some (s.request r) := by
  cases r <;> rfl

theorem request_shuttingDown (s : GroupQueue F) (r : Request F) :
    (s.request r).shuttingDown = s.shuttingDown := by
  cases r with
  | messageCheck g => exact congrArg Settings.shuttingDown (settings_enqueueMessageCheck s g)
  | task g taskId fn => exact congrArg Settings.shuttingDown (settings_enqueueTask s g taskId fn)

/-- Shutdown is never taken back. -/
theorem reachable_shut {t : GroupQueue F} (h : Reachable step s t) (hshut : s.shuttingDown = true) :
    t.shuttingDown = true := by
  refine h.invariant (P := fun t => t.shuttingDown = true) (fun u a v hu hstep => ?_) hshut
  by_contra hv
  rw [step_shuttingDown hstep (Bool.eq_false_iff.mpr hv)] at hu
  cases hu

/-- A request that could not be started leaves the queue consistent exactly when it does not come to a
start. -/
theorem consistent_iff (hinv : s.shuttingDown = false → Inv s) :
    Consistent s r (s.requestUnstarted r) ↔
      ¬Starts s r ∧ (s.shuttingDown = true → Flying s ∧ Held s r) := by
  constructor
  · intro h
    have hstarts : ¬Starts s r := by
      intro hstarts
      obtain ⟨hactive,htasks⟩ := requestUnstarted_starts hstarts
      refine h.flying r.group hactive ?_
      rw [runsOf, htasks]
      exact (hinv hstarts.opened).toSlots.runsOf_idle hstarts.idle
    refine ⟨hstarts,fun hshut => ?_⟩
    rw [requestUnstarted_shut hshut] at h
    refine ⟨h.flying,h.work.resolve_right ?_⟩
    rintro ⟨u,hreach,hu⟩
    have hopen := hu.opened
    rw [reachable_shut hreach hshut] at hopen
    cases hopen
  · rintro ⟨hstarts,hheld⟩
    rcases hshut : s.shuttingDown with _ | _
    · have hslots := (hinv hshut).toSlots
      obtain ⟨hwork,hcount⟩ := request_held hslots hshut hstarts
      rw [requestUnstarted_of_not_starts hstarts]
      have hopen : (s.request r).shuttingDown = false := (request_shuttingDown s r).trans hshut
      have hnext := step_inv (hinv hshut) hshut hopen (request_eq_step s r)
      exact ⟨hnext.toSlots.flying,hcount,.inl hwork⟩
    · obtain ⟨hflying,hwork⟩ := hheld hshut
      rw [requestUnstarted_shut hshut]
      exact ⟨hflying,rfl,.inl hwork⟩

end Moves

section Runs
variable (maxC maxR base maxMs : Int) (p c : Bool)

/-- Where every earlier request of the kind parked its work, the queue is in order until shutdown. -/
private theorem move_inv {s t : GroupQueue F} {m : Move F} (h : s.shuttingDown = false → Inv s)
    (hparks : Parks s m) (hmove : s.move m = some t) : t.shuttingDown = false → Inv t := by
  intro hopen
  cases m with
  | step a =>
    have hwas := step_shuttingDown hmove hopen
    exact step_inv (h hwas) hwas hopen hmove
  | unstarted r =>
    cases Option.some.inj hmove
    have hwas : s.shuttingDown = false := by
      by_contra hshut
      rw [requestUnstarted_shut (Bool.not_eq_false _ ▸ hshut)] at hopen
      exact hshut hopen
    rw [requestUnstarted_of_not_starts (hparks r rfl).1] at hopen ⊢
    exact step_inv (h hwas) hwas hopen (request_eq_step s r)

/-- All requests that could not be started leave the queue consistent, wherever the moves before them
lead, exactly when none of them comes to a start. -/
theorem unstarted_consistent_iff (moves : List (Move F)) :
    (∀ n r s, moves[n]? = some (.unstarted r) →
      exec move (init maxC maxR base maxMs p c) (moves.take n) = some s →
      Consistent s r (s.requestUnstarted r)) ↔
    Allowed move Parks (init maxC maxR base maxMs p c) moves := by
  have hiff : ∀ (s : GroupQueue F) (m : Move F), (s.shuttingDown = false → Inv s) →
      ((∀ r, m = .unstarted r → Consistent s r (s.requestUnstarted r)) ↔ Parks s m) :=
    fun s m hinv => forall₂_congr (fun r _ => consistent_iff hinv)
  rw [← allowed_congr (fun s m t => move_inv) hiff (fun _ => inv_init maxC maxR base maxMs p c),
    allowed_iff_take]
  constructor
  · rintro h n m s hm hs r rfl
    exact h n r s hm hs
  · intro h n r s hm hs
    exact h n (.unstarted r) s hm hs r rfl

/-- A check in an empty queue: its group is marked for good, and its slot is gone. -/
theorem first_check_unstarted : ∃ (s : GroupQueue Unit) (r : Request Unit),
    exec move (init 1 5 5000 300000 true true) [] = some s ∧ ¬Consistent s r (s.requestUnstarted r) := by
  refine ⟨_,.messageCheck "a",rfl,fun h => ?_⟩
  exact h.flying "a" rfl rfl

end Runs

end NanoClaw.GroupQueue
