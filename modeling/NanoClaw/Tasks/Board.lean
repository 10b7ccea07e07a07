import NanoClaw.Queue.Held
import NanoClaw.Queue.Safety
import NanoClaw.Tasks.Scheduler

/-! The board of a system: its tasks by what has become of them, without slots, waiting lists and
coroutines. Every step of the system is a move of the board. -/
namespace NanoClaw.Tasks
open Store Calendar IsoText GroupQueue

/-- The tasks of each group that wait for their start, those whose function has been called and
has not ended, and what else the system keeps. -/
structure Board where
  unstarted : String → Multiset (QueuedTask ScheduledTask)
  invoked : String → Multiset (QueuedTask ScheduledTask)
  db : TaskDb
  now : Int
  started : List Invocation

def System.board (s : System) : Board := ⟨s.queue.unstarted,s.queue.invoked,s.db,s.now,s.started⟩

namespace Board

def tasks (b : Board) (g : String) : Multiset (QueuedTask ScheduledTask) := b.unstarted g + b.invoked g

/-- Due rows join the tasks that wait, each in the group of its chat, where it is not held yet. -/
inductive Accepted (b : Board) : Board → Prop where
  | refl : Accepted b b
  | accept {c : Board} (task : ScheduledTask) : Accepted b c →
      b.db.getTaskById task.id = some task → TaskDb.IsDue (utcIso b.now) task →
      (∀ q ∈ c.tasks task.chatJid, q.id ≠ task.id) →
      Accepted b { c with
        unstarted := withTask c.unstarted task.chatJid ⟨task.id,task.chatJid,task⟩ }

/-- What a step is to the board. -/
inductive Move where
  | quiet
  | tick (now : Int)
  | poll
  | mutate (source : String) (isMain : Bool) (payloadType taskId : Json)
  | begin (task : QueuedTask ScheduledTask)
  | finish (task : QueuedTask ScheduledTask) (outcome : TaskOutcome) (durationMs : Int)

/-- What a move does. A task that begins calls its function, or leaves the board because its
folder is invalid or its group is not registered. -/
inductive Moved (cfg : Config) (b : Board) : Move → Board → Prop where
  | quiet : Moved cfg b .quiet b
  | ticked (now : Int) : b.now ≤ now → Moved cfg b (.tick now) { b with now := now }
  | polled {c : Board} : Accepted b c → Moved cfg b .poll c
  | mutated (source : String) (isMain : Bool) (payloadType taskId : Json) :
      Moved cfg b (.mutate source isMain payloadType taskId)
        { b with
          db := (Ipc.handleTaskMutation source isMain ⟨b.db,[]⟩ payloadType taskId).state.db }
  | called (g : String) (q : QueuedTask ScheduledTask)
      (rest : String → Multiset (QueuedTask ScheduledTask)) : b.unstarted = withTask rest g q →
      Moved cfg b (.begin q)
        { b with
          unstarted := rest
          invoked := withTask b.invoked g q
          started := b.started ++ [⟨q.fn,b.db.getTaskById q.fn.id⟩] }
  | refused (g : String) (q : QueuedTask ScheduledTask)
      (rest : String → Multiset (QueuedTask ScheduledTask)) (log : TaskRunLog) :
      b.unstarted = withTask rest g q →
      Moved cfg b (.begin q)
        { b with unstarted := rest, db := (b.db.updateStatus q.fn.id .paused).logTaskRun log }
  | missed (g : String) (q : QueuedTask ScheduledTask)
      (rest : String → Multiset (QueuedTask ScheduledTask)) (error : String) :
      b.unstarted = withTask rest g q →
      Moved cfg b (.begin q)
        { b with unstarted := rest, db := recordRun cfg b.db b.now q.fn none (some error) 0 }
  | ended (outcome : TaskOutcome) (durationMs : Int) (g : String)
      (q : QueuedTask ScheduledTask) (rest : String → Multiset (QueuedTask ScheduledTask)) :
      b.invoked = withTask rest g q →
      Moved cfg b (.finish q outcome durationMs)
        { b with
          invoked := rest
          db := recordOutcome cfg b.db b.now q.fn durationMs outcome }

/-- Rows keep their plans, a task is held in the group of its chat, and none is held twice. -/
structure Sound (planOf : String → String × ScheduleType) (b : Board) : Prop where
  rows : ∀ id row, b.db.getTaskById id = some row → plan row = planOf id
  held : ∀ g, ∀ q ∈ b.tasks g, q.fn.id = q.id ∧ plan q.fn = planOf q.id ∧ q.fn.chatJid = g
  single : ∀ g, ((b.tasks g).map QueuedTask.id).Nodup

variable {cfg : Config} {planOf : String → String × ScheduleType} {b c : Board} {g g' : String}
  {q q' : QueuedTask ScheduledTask} {rest : String → Multiset (QueuedTask ScheduledTask)}

theorem mem_unstarted (he : b.unstarted = withTask rest g q) : q ∈ b.unstarted g := by
  rw [he, mem_withTask]
  exact Or.inl ⟨rfl,rfl⟩

theorem mem_tasks_of_unstarted (he : b.unstarted = withTask rest g q) : q ∈ b.tasks g :=
  Multiset.mem_add.mpr (Or.inl (mem_unstarted he))

theorem mem_tasks_of_invoked (he : b.invoked = withTask rest g q) : q ∈ b.tasks g := by
  rw [tasks, he, Multiset.mem_add, mem_withTask]
  exact Or.inr (Or.inl ⟨rfl,rfl⟩)

/-- The group of a task is that of its plan. -/
theorem Sound.group (h : b.Sound planOf) (hq : q ∈ b.tasks g) : (planOf q.id).1 = g := by
  obtain ⟨_,hplan,hchat⟩ := h.held g q hq
  exact (congrArg Prod.fst hplan).symm.trans hchat

/-- A task that is put apart from the others is the only one of its id. -/
private theorem Sound.apart (h : b.Sound planOf) (htasks : ∀ g', b.tasks g' = withTask rest g q g')
    (hq' : q' ∈ rest g') : q'.id ≠ q.id := by
  intro hid
  have hmem : q ∈ b.tasks g := by
    rw [htasks, mem_withTask]
    exact Or.inl ⟨rfl,rfl⟩
  have hmem' : q' ∈ b.tasks g' := by
    rw [htasks, mem_withTask]
    exact Or.inr hq'
  obtain rfl : g' = g :=
    (h.group hmem').symm.trans ((congrArg (fun id => (planOf id).1) hid).trans (h.group hmem))
  have hsingle := h.single g'
  rw [htasks, withTask, Function.update_self, Multiset.map_cons, Multiset.nodup_cons] at hsingle
  exact hsingle.1 (Multiset.mem_map.mpr ⟨q',hq',hid⟩)

theorem Sound.unstarted_apart (h : b.Sound planOf) (he : b.unstarted = withTask rest g q)
    (hq' : q' ∈ rest g' ∨ q' ∈ b.invoked g') : q'.id ≠ q.id := by
  have hall : ∀ g', b.tasks g' = withTask (fun g' => rest g' + b.invoked g') g q g' := by
    intro g'
    rw [tasks, he, withTask_add_eq]
  have hrest : q' ∈ rest g' + b.invoked g' := Multiset.mem_add.mpr hq'
  exact h.apart hall hrest

theorem Sound.invoked_apart (h : b.Sound planOf) (he : b.invoked = withTask rest g q)
    (hq' : q' ∈ b.unstarted g' ∨ q' ∈ rest g') : q'.id ≠ q.id := by
  have hall : ∀ g', b.tasks g' = withTask (fun g' => b.unstarted g' + rest g') g q g' := by
    intro g'
    rw [tasks, he, ← withTask_add, withTask_add_eq]
  have hrest : q' ∈ b.unstarted g' + rest g' := Multiset.mem_add.mpr hq'
  exact h.apart hall hrest

/-- The task in flight that ends, and the others. -/
theorem Sound.invoked_cases (h : b.Sound planOf) (he : b.invoked = withTask rest g q)
    (hq' : q' ∈ b.invoked g') : q' = q ∨ q' ∈ rest g' ∧ q'.id ≠ q.id := by
  rw [he, mem_withTask] at hq'
  rcases hq' with ⟨_,rfl⟩ | hq'
  · exact Or.inl rfl
  · exact Or.inr ⟨hq',h.invoked_apart he (Or.inr hq')⟩

/-- The same or fewer tasks on the board. -/
theorem Sound.fewer (h : b.Sound planOf) (htasks : ∀ g, c.tasks g ≤ b.tasks g)
    (hrows : ∀ id row', c.db.getTaskById id = some row' →
      ∃ row, b.db.getTaskById id = some row ∧ plan row' = plan row) : c.Sound planOf where
  rows id row' hrow' := by
    obtain ⟨row,hrow,hplan⟩ := hrows id row' hrow'
    exact hplan.trans (h.rows id row hrow)
  held g q hq := h.held g q (Multiset.mem_of_le (htasks g) hq)
  single g := Multiset.nodup_of_le (Multiset.map_le_map (htasks g)) (h.single g)

theorem Sound.accept (h : b.Sound planOf) {task : ScheduledTask}
    (hrow : b.db.getTaskById task.id = some task)
    (hfresh : ∀ q ∈ b.tasks task.chatJid, q.id ≠ task.id) :
    Sound planOf { b with
      unstarted := withTask b.unstarted task.chatJid ⟨task.id,task.chatJid,task⟩ } := by
  have htasks : ∀ g, tasks { b with
      unstarted := withTask b.unstarted task.chatJid ⟨task.id,task.chatJid,task⟩ } g =
        withTask b.tasks task.chatJid ⟨task.id,task.chatJid,task⟩ g :=
    fun g => withTask_add_eq b.unstarted b.invoked task.chatJid g _
  refine ⟨h.rows,fun g q hq => ?_,fun g => ?_⟩
  · rw [htasks, mem_withTask] at hq
    rcases hq with ⟨rfl,rfl⟩ | hq
    · exact ⟨rfl,h.rows _ _ hrow,rfl⟩
    · exact h.held g q hq
  · rw [htasks, withTask, Function.update_apply]
    split
    · rw [Multiset.map_cons, Multiset.nodup_cons]
      refine ⟨fun hmem => ?_,h.single _⟩
      obtain ⟨q,hq,hid⟩ := Multiset.mem_map.mp hmem
      exact hfresh q hq hid
    · exact h.single g

theorem Accepted.sound (h : b.Sound planOf) (hc : Accepted b c) :
    c.Sound planOf ∧ c.db = b.db := by
  induction hc with
  | refl => exact ⟨h,rfl⟩
  | accept task _ hrow _ hfresh ih =>
    obtain ⟨hc,hdb⟩ := ih
    exact ⟨hc.accept (by rw [hdb]; exact hrow) hfresh,hdb⟩

theorem Moved.sound {m : Move} (h : b.Sound planOf) (hm : Moved cfg b m c) : c.Sound planOf := by
  have hrest : ∀ {g rest q}, b.unstarted = withTask rest g q →
      ∀ g', rest g' + b.invoked g' ≤ b.tasks g' := by
    intro g rest q he g'
    rw [tasks, he]
    exact add_le_add (le_withTask rest g g' q) le_rfl
  cases hm with
  | quiet => exact h
  | ticked now _ => exact h.fewer (fun _ => le_rfl) (fun _ row hrow => ⟨row,hrow,rfl⟩)
  | polled hc => exact (Accepted.sound h hc).1
  | mutated source isMain payloadType taskId =>
    refine h.fewer (fun _ => le_rfl) (fun id row' hrow' => ?_)
    obtain ⟨row,hrow,hplan,_⟩ := handleTaskMutation_row hrow'
    exact ⟨row,hrow,hplan⟩
  | called g q rest he =>
    refine h.fewer (fun g' => ?_) (fun _ row hrow => ⟨row,hrow,rfl⟩)
    rw [tasks, tasks, he, withTask_add]
  | refused g q rest log he =>
    refine h.fewer (hrest he) (fun id row' hrow' => ?_)
    obtain ⟨row,hrow,hplan,_⟩ := updateStatus_row hrow'
    exact ⟨row,hrow,hplan⟩
  | missed g q rest error he =>
    exact h.fewer (hrest he) (fun id row' hrow' => recordRun_plan hrow')
  | ended outcome durationMs g q rest he =>
    refine h.fewer (fun g' => ?_) (fun id row' hrow' => recordOutcome_plan hrow')
    rw [tasks, tasks, he]
    exact add_le_add le_rfl (le_withTask rest g g' q)

end Board

/-- The move of the board that an action stands for. -/
def System.move (s : System) : Action → Board.Move
  | .tick now => .tick now
  | .poll => .poll
  | .mutate source isMain payloadType taskId => .mutate source isMain payloadType taskId
  | .begin i _ =>
    match s.taskAt i with
    | some (_,_,task) => .begin task
    | none => .quiet
  | .finishTask i outcome durationMs =>
    match s.taskAt i with
    | some (_,_,task) => .finish task outcome durationMs
    | none => .quiet
  | .enqueueMessageCheck _ | .notifyIdle _ | .fireRetry _ | .finishMessages _ _ => .quiet

/-- What holds of a system before shutdown: the accounts of its queue, and its board. -/
structure Sound (planOf : String → String × ScheduleType) (s : System) : Prop where
  queue : s.queue.Inv
  accepting : s.queue.shuttingDown = false
  board : s.board.Sound planOf

section Simulation
open Board
variable {cfg : Config} {planOf : String → String × ScheduleType} {s t : System}

/-- A move of the queue that holds the tasks as they were. -/
private theorem moveQueue_quiet (h : Sound planOf s) {a : GroupQueue.Action ScheduledTask}
    (ha : a ≠ .shutdown) (hstep : s.moveQueue a = some t)
    (hheld : ∀ queue, s.queue.step a = some queue → queue.held = s.queue.held) :
    Sound planOf t ∧ t.board = s.board := by
  obtain ⟨queue,hqueue,rfl⟩ := Option.map_eq_some_iff.mp hstep
  have hsettings := (step_settings hqueue).resolve_right ha
  have hopen : queue.shuttingDown = false :=
    (congrArg Settings.shuttingDown hsettings).trans h.accepting
  have hboard : System.board { s with queue := queue } = s.board := by
    have hh := Prod.mk.inj (hheld queue hqueue)
    simp only [System.board, hh.1, hh.2]
  exact ⟨⟨step_inv h.queue h.accepting hopen hqueue,hopen,hboard ▸ h.board⟩,hboard⟩

theorem taskAt_eq_none (h : s.taskAt i = none) :
    ∀ b ∈ s.queue.backgroundTasks[i]?, ∀ g, b.coro.taskOf g = none := by
  intro b hb g
  rw [Option.mem_def] at hb
  simp only [System.taskAt, hb] at h
  cases hc : b.coro with
  | runTask g' task => simp only [hc] at h; cases h
  | runForGroup g' => rfl
  | retry g' d => rfl

theorem taskAt_eq_some {b : Background ScheduledTask} {g : String}
    {task : QueuedTask ScheduledTask} (h : s.taskAt i = some (b,g,task)) :
    s.queue.backgroundTasks[i]? = some b ∧ b.coro = .runTask g task := by
  simp only [System.taskAt] at h
  split at h
  · rename_i b' hb
    split at h
    · rename_i g' task' hc
      cases h
      exact ⟨hb,hc⟩
    · cases h
  · cases h

/-- A task that is accepted is not held in its group: the queue would know it. -/
private theorem enqueueTask_accepted (h : Sound planOf s) {task : ScheduledTask}
    (hrow : s.db.getTaskById task.id = some task) :
    Sound planOf { s with queue := s.queue.enqueueTask task.chatJid task.id task } ∧
      (System.board { s with queue := s.queue.enqueueTask task.chatJid task.id task } = s.board ∨
        ((∀ q ∈ s.board.tasks task.chatJid, q.id ≠ task.id) ∧
          System.board { s with queue := s.queue.enqueueTask task.chatJid task.id task } =
            { s.board with
              unstarted := withTask s.board.unstarted task.chatJid ⟨task.id,task.chatJid,task⟩ })) := by
  have hinv := enqueueTask_inv h.queue task.chatJid task.id task
  have hopen : (s.queue.enqueueTask task.chatJid task.id task).shuttingDown = false :=
    (congrArg Settings.shuttingDown (settings_enqueueTask s.queue _ _ _)).trans h.accepting
  rcases held_enqueueTask s.queue task.chatJid task.id task h.queue.running with hheld | ⟨hrun,hpend,hheld⟩
  · have hboard : System.board { s with queue := s.queue.enqueueTask task.chatJid task.id task } =
        s.board := by
      have hh := Prod.mk.inj hheld
      simp only [System.board, hh.1, hh.2]
    exact ⟨⟨hinv,hopen,hboard ▸ h.board⟩,Or.inl hboard⟩
  · have hfresh : ∀ q ∈ s.board.tasks task.chatJid, q.id ≠ task.id := by
      intro q hq hid
      rcases h.queue.held_marks hq with hmem | hmark
      · exact hpend q hmem hid
      · exact hrun (hid ▸ hmark)
    have hboard : System.board { s with queue := s.queue.enqueueTask task.chatJid task.id task } =
        { s.board with
          unstarted := withTask s.board.unstarted task.chatJid ⟨task.id,task.chatJid,task⟩ } := by
      have hh := Prod.mk.inj hheld
      simp only [System.board, hh.1, hh.2]
    exact ⟨⟨hinv,hopen,hboard ▸ h.board.accept hrow hfresh⟩,Or.inr ⟨hfresh,hboard⟩⟩

/-- The loop of a poll, over rows that are due. -/
private theorem enqueueDue_loop {s : System} {b : Board} (h : Sound planOf s) (hdb : b.db = s.db)
    (hnow : b.now = s.now) (hb : Accepted b s.board) (due : List ScheduledTask)
    (hdue : ∀ task ∈ due, s.db.getTaskById task.id = some task ∧ TaskDb.IsDue (utcIso s.now) task) :
    Sound planOf { s with queue := due.foldl s.enqueueDue s.queue } ∧
      Accepted b (System.board { s with queue := due.foldl s.enqueueDue s.queue }) := by
  induction due generalizing s with
  | nil => exact ⟨h,hb⟩
  | cons task due ih =>
    obtain ⟨hrow,hready⟩ := hdue task List.mem_cons_self
    have hone : s.enqueueDue s.queue task = s.queue.enqueueTask task.chatJid task.id task := by
      rw [System.enqueueDue, hrow]
      exact if_pos hready.1
    obtain ⟨hnext,hcase⟩ := enqueueTask_accepted h hrow
    rw [List.foldl_cons, hone]
    refine ih (s := { s with queue := s.queue.enqueueTask task.chatJid task.id task }) hnext hdb hnow
      ?_ (fun task hmem => hdue task (List.mem_cons_of_mem _ hmem))
    rcases hcase with hsame | ⟨hfresh,hmore⟩
    · rw [hsame]
      exact hb
    · rw [hmore]
      exact hb.accept task (by rw [hdb]; exact hrow) (by rw [hnow]; exact hready) hfresh

private theorem runOnce_moved (h : Sound planOf s) :
    Sound planOf (s.runOnce cfg) ∧ Moved cfg s.board .poll (s.runOnce cfg).board := by
  have hloop := enqueueDue_loop h rfl rfl Accepted.refl (s.db.getDueTasks cfg.scan (utcIso s.now))
    (fun task ht => (TaskDb.mem_getDueTasks cfg.scan_perm).mp ht)
  exact ⟨hloop.1,Moved.polled hloop.2⟩

variable {i : Nat} {b : Background ScheduledTask} {g : String} {task : QueuedTask ScheduledTask}

/-- The end of a task's coroutine, whatever becomes of the table. -/
private theorem endRunTask_board (h : Sound planOf s) (hb : s.queue.backgroundTasks[i]? = some b)
    (hc : b.coro = .runTask g task) (db : TaskDb) :
    let t : System := { s with queue := (s.queue.dropTask i).endRunTask g, db := db }
    t.queue.Inv ∧ t.queue.shuttingDown = false ∧
      t.board = ⟨(s.queue.dropTask i).unstarted,(s.queue.dropTask i).invoked,db,s.now,s.started⟩ := by
  have hopen : ((s.queue.dropTask i).endRunTask g).shuttingDown = false :=
    (congrArg Settings.shuttingDown (settings_endRunTask (s.queue.dropTask i) g)).trans h.accepting
  have hh := Prod.mk.inj (held_endRunTask (s.queue.dropTask i) g h.queue.running)
  refine ⟨endRunTask_inv h.queue h.accepting hb hc,hopen,?_⟩
  simp only [System.board, hh.1, hh.2]

private theorem endAtOnce_board (h : Sound planOf s) (hb : s.queue.backgroundTasks[i]? = some b)
    (hc : b.coro = .runTask g task) (hstarted : b.started = false) (db : TaskDb) :
    (s.endAtOnce i g task.id db).queue.Inv ∧ (s.endAtOnce i g task.id db).queue.shuttingDown = false ∧
      ∃ rest, s.board.unstarted = withTask rest g task ∧
        (s.endAtOnce i g task.id db).board = { s.board with unstarted := rest, db := db } := by
  have hrecord : Sound planOf { s with queue := s.queue.record (.taskInvoked g task.id) } :=
    ⟨h.queue.record _,h.accepting,h.board⟩
  obtain ⟨hinv,hopen,hboard⟩ := endRunTask_board hrecord hb hc db
  obtain ⟨htake,hkeep⟩ := held_dropTask_unstarted hb hstarted hc
  refine ⟨hinv,hopen,_,htake,hboard.trans ?_⟩
  simp only [System.board, ← hkeep]
  rfl

private theorem beginTask_moved (h : Sound planOf s) (hb : s.queue.backgroundTasks[i]? = some b)
    (hc : b.coro = .runTask g task) (hstarted : b.started = false) (groups : Groups) :
    Sound planOf (s.beginTask cfg groups i b g task) ∧
      Moved cfg s.board (.begin task) (s.beginTask cfg groups i b g task).board := by
  have hmove : ∀ {t : System}, t.queue.Inv → t.queue.shuttingDown = false →
      Moved cfg s.board (.begin task) t.board →
        Sound planOf t ∧ Moved cfg s.board (.begin task) t.board :=
    fun hinv hopen hm => ⟨⟨hinv,hopen,hm.sound h.board⟩,hm⟩
  simp only [System.beginTask]
  split
  · rename_i error _
    obtain ⟨hinv,hopen,rest,htake,hboard⟩ := endAtOnce_board h hb hc hstarted
      ((s.db.updateStatus task.fn.id .paused).logTaskRun ⟨task.fn.id,utcIso s.now,0,true,none,some error⟩)
    exact hmove hinv hopen (hboard ▸ Moved.refused g task rest _ htake)
  · split
    · obtain ⟨htake,hcall⟩ := held_parkTask_runTask hb hstarted hc
      refine hmove ((parkTask_inv h.queue hb).record _) h.accepting ?_
      have hm : Moved cfg s.board (.begin task) _ := Moved.called g task _ htake
      rw [show withTask s.board.invoked g task = _ from hcall.symm] at hm
      exact hm
    · obtain ⟨hinv,hopen,rest,htake,hboard⟩ := endAtOnce_board h hb hc hstarted
        (recordRun cfg s.db s.now task.fn none (some ("Group not found: " ++ task.fn.groupFolder)) 0)
      exact hmove hinv hopen (hboard ▸ Moved.missed g task rest _ htake)

private theorem finishTask_moved (h : Sound planOf s) (hb : s.queue.backgroundTasks[i]? = some b)
    (hc : b.coro = .runTask g task) (hstarted : b.started = true) (outcome : TaskOutcome)
    (durationMs : Int) :
    let t : System :=
      { s with
        queue := (s.queue.dropTask i).endRunTask g
        db := recordOutcome cfg s.db s.now task.fn durationMs outcome }
    Sound planOf t ∧ Moved cfg s.board (.finish task outcome durationMs) t.board := by
  obtain ⟨hinv,hopen,hboard⟩ := endRunTask_board h hb hc
    (recordOutcome cfg s.db s.now task.fn durationMs outcome)
  obtain ⟨hkeep,htake⟩ := held_dropTask_runTask hb hstarted hc
  have hm : Moved cfg s.board (.finish task outcome durationMs) _ :=
    Moved.ended outcome durationMs g task _ htake
  have ht : Moved cfg s.board (.finish task outcome durationMs) (System.board
      { s with
        queue := (s.queue.dropTask i).endRunTask g
        db := recordOutcome cfg s.db s.now task.fn durationMs outcome }) := by
    rw [hboard, hkeep]
    exact hm
  exact ⟨⟨hinv,hopen,ht.sound h.board⟩,ht⟩

/-- Every step of the system is a move of its board, and keeps what holds before shutdown. -/
theorem step_moved {a : Action} (h : Sound planOf s) (hstep : step cfg s a = some t) :
    Sound planOf t ∧ Moved cfg s.board (s.move a) t.board := by
  have hquiet : Sound planOf t ∧ t.board = s.board → Sound planOf t ∧ Moved cfg s.board .quiet t.board :=
    fun hq => ⟨hq.1,hq.2 ▸ Moved.quiet⟩
  cases a with
  | tick now =>
    simp only [step] at hstep
    split at hstep
    · rename_i hnow
      cases hstep
      have hm : Moved cfg s.board (.tick now) _ := Moved.ticked now hnow.1
      exact ⟨⟨h.queue,h.accepting,hm.sound h.board⟩,hm⟩
    · cases hstep
  | poll =>
    cases hstep
    exact runOnce_moved h
  | mutate source isMain payloadType taskId =>
    cases hstep
    have hm : Moved cfg s.board _ _ := Moved.mutated source isMain payloadType taskId
    exact ⟨⟨h.queue,h.accepting,hm.sound h.board⟩,hm⟩
  | enqueueMessageCheck g =>
    refine hquiet (moveQueue_quiet h (by rintro ⟨⟩) hstep ?_)
    rintro queue ⟨⟩
    exact held_enqueueMessageCheck s.queue g
  | notifyIdle g =>
    refine hquiet (moveQueue_quiet h (by rintro ⟨⟩) hstep ?_)
    rintro queue ⟨⟩
    exact held_notifyIdle s.queue g
  | fireRetry i => exact hquiet (moveQueue_quiet h (by rintro ⟨⟩) hstep (fun _ => held_fireRetry))
  | begin i groups =>
    simp only [step] at hstep
    split at hstep
    · rename_i b g task hat
      obtain ⟨hb,hc⟩ := taskAt_eq_some hat
      simp only [System.move, hat]
      split at hstep
      · cases hstep
      · rename_i hfresh
        cases hstep
        exact beginTask_moved h hb hc (Bool.eq_false_iff.mpr (fun hs => hfresh (Or.inl hs))) groups
    · rename_i hnone
      simp only [System.move, hnone]
      exact hquiet (moveQueue_quiet h (by rintro ⟨⟩) hstep
        (fun _ => held_begin h.queue.running (taskAt_eq_none hnone)))
  | finishMessages i outcome =>
    simp only [step] at hstep
    split at hstep
    · cases hstep
    · rename_i hnone
      exact hquiet (moveQueue_quiet h (by rintro ⟨⟩) hstep
        (fun _ => held_finish h.queue.running (taskAt_eq_none hnone)))
  | finishTask i outcome durationMs =>
    simp only [step] at hstep
    split at hstep
    · rename_i b g task hat
      obtain ⟨hb,hc⟩ := taskAt_eq_some hat
      simp only [System.move, hat]
      split at hstep
      · rename_i hstarted
        cases hstep
        exact finishTask_moved h hb hc hstarted outcome durationMs
      · cases hstep
    · cases hstep

/-- The plans of the tasks in a table. -/
def tablePlan (db : TaskDb) (id : String) : String × ScheduleType :=
  (db.getTaskById id).elim ("",.once) plan

/-- A process that has just started holds no tasks. -/
theorem sound_init (maxConcurrent maxRetries baseRetryMs maxRetryMs : Int)
    (processMessagesFn closeStdinFn : Bool) (db : TaskDb) (now : Int) :
    Sound (tablePlan db)
      (System.init maxConcurrent maxRetries baseRetryMs maxRetryMs processMessagesFn closeStdinFn db
        now) where
  queue := inv_init maxConcurrent maxRetries baseRetryMs maxRetryMs processMessagesFn closeStdinFn
  accepting := rfl
  board :=
    { rows := fun id row (hrow : db.getTaskById id = some row) => by rw [tablePlan, hrow]; rfl
      held := fun g q hq => absurd hq (Multiset.notMem_zero q)
      single := fun g => Multiset.nodup_zero }

end Simulation

end NanoClaw.Tasks
