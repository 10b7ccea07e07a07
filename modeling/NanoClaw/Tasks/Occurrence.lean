import NanoClaw.Tasks.Board

/-! Occurrences of scheduled tasks: a task never runs beside itself, and while runs outlast the
instants they were due at and can be recorded, no occurrence is run twice. -/
namespace NanoClaw.Tasks
open Store IsoText GroupQueue Execution

theorem IsLater.mono {now now' : Int} {text : String} (hle : now ≤ now') (h : IsLater now' text) :
    IsLater now text := by
  obtain ⟨t,ht,hr,rfl⟩ := h
  exact ⟨t,Int.lt_of_le_of_lt hle ht,hr,rfl⟩

namespace Board

def occurrences (b : Board) : List (String × Option String) :=
  b.started.map (fun i => occurrence i.task)

/-- What comes of a run can be recorded: its texts fit the table, its task has a next run or
none, and a task that comes again has not ended before the instant it was due at. -/
def OnTime (cfg : Config) (b : Board) : Move → Prop
  | .finish q outcome _ => outcome ≠ .unencodable ∧
      (∃ n, computeNextRun cfg.lib b.now q.fn = .ok n) ∧
      (q.fn.scheduleType = .once ∨ ∀ n ∈ q.fn.nextRun, ¬IsLater b.now n)
  | _ => True

/-- An occurrence that has started is in flight, or over for good: its task does not come again,
or its instant is past. What waits has not started yet, nor has a row whose task is not in
flight. -/
structure Once (planOf : String → String × ScheduleType) (b : Board) : Prop where
  due : ∀ g, ∀ q ∈ b.tasks g, q.fn.nextRun ≠ none
  finished : ∀ o ∈ b.occurrences, (∃ g, ∃ q ∈ b.invoked g, occurrence q.fn = o) ∨
    (planOf o.1).2 = .once ∨ ∀ n ∈ o.2, ¬IsLater b.now n
  waiting : ∀ g, ∀ q ∈ b.unstarted g, occurrence q.fn ∉ b.occurrences
  inFlight : ∀ id row, b.db.getTaskById id = some row → ∀ n ∈ row.nextRun,
    (id,some n) ∈ b.occurrences → ∃ g, ∃ q ∈ b.invoked g, q.id = id
  once : b.occurrences.Nodup

variable {cfg : Config} {planOf : String → String × ScheduleType} {b c : Board} {g : String}
  {q : QueuedTask ScheduledTask} {rest : String → Multiset (QueuedTask ScheduledTask)}

theorem Once.accept (hs : b.Sound planOf) (h : Once planOf b) {task : ScheduledTask}
    (hrow : b.db.getTaskById task.id = some task) {n : String} (hn : n ∈ task.nextRun)
    (hfresh : ∀ q ∈ b.tasks task.chatJid, q.id ≠ task.id) :
    Once planOf
      { b with unstarted := withTask b.unstarted task.chatJid ⟨task.id,task.chatJid,task⟩ } := by
  rw [Option.mem_def] at hn
  refine ⟨fun g q hq => ?_,h.finished,fun g q hq => ?_,h.inFlight,h.once⟩
  · rw [tasks, withTask_add_eq, mem_withTask] at hq
    rcases hq with ⟨rfl,rfl⟩ | hq
    · exact hn ▸ Option.some_ne_none n
    · exact h.due g q hq
  · rw [mem_withTask] at hq
    rcases hq with ⟨rfl,rfl⟩ | hq
    · -- A row that has started is in flight, and the group would hold its task.
      intro hmem
      have hocc : occurrence task = (task.id,some n) := by rw [occurrence, hn]
      obtain ⟨g',q,hq,hid⟩ := h.inFlight task.id task hrow n hn (hocc ▸ hmem)
      have htask : q ∈ b.tasks g' := Multiset.mem_add.mpr (Or.inr hq)
      have hgroup : g' = task.chatJid := by
        rw [← hs.group htask, hid, ← hs.rows _ _ hrow]
        rfl
      exact hfresh q (hgroup ▸ htask) hid
    · exact h.waiting g q hq

theorem Once.accepted (hs : b.Sound planOf) (h : Once planOf b) (hc : Accepted b c) :
    Once planOf c := by
  induction hc with
  | refl => exact h
  | accept task hbc hrow hready hfresh ih =>
    obtain ⟨hsc,hdb⟩ := hbc.sound hs
    obtain ⟨n,hn,_⟩ := hready.2
    exact ih.accept hsc (by rw [hdb]; exact hrow) hn hfresh

theorem Once.called (hs : b.Sound planOf) (h : Once planOf b) (he : b.unstarted = withTask rest g q)
    (row : Option ScheduledTask) :
    Once planOf
      { b with
        unstarted := rest
        invoked := withTask b.invoked g q
        started := b.started ++ [⟨q.fn,row⟩] } := by
  have hid := (hs.held g q (mem_tasks_of_unstarted he)).1
  have hocc : occurrences { b with
      unstarted := rest, invoked := withTask b.invoked g q, started := b.started ++ [⟨q.fn,row⟩] } =
        b.occurrences ++ [occurrence q.fn] := List.map_append
  refine ⟨fun g' q' hq' => ?_,?_,fun g' q' hq' => ?_,fun id row hrow n hn => ?_,?_⟩
  · refine h.due g' q' ?_
    rwa [tasks, he, withTask_add]
  · intro o ho
    rw [hocc, List.mem_append, List.mem_singleton] at ho
    rcases ho with ho | rfl
    · refine (h.finished o ho).imp_left ?_
      rintro ⟨g',q',hq',hocc'⟩
      exact ⟨g',q',mem_withTask.mpr (Or.inr hq'),hocc'⟩
    · exact Or.inl ⟨g,q,mem_withTask.mpr (Or.inl ⟨rfl,rfl⟩),rfl⟩
  · have hmem' : q' ∈ b.unstarted g' := by
      rw [he, mem_withTask]
      exact Or.inr hq'
    have hid' := (hs.held g' q' (Multiset.mem_add.mpr (Or.inl hmem'))).1
    rw [hocc, List.mem_append, List.mem_singleton, not_or]
    refine ⟨h.waiting g' q' hmem',fun hsame => ?_⟩
    have hfn : q'.fn.id = q.fn.id := congrArg Prod.fst hsame
    exact hs.unstarted_apart he (Or.inl hq') (hid'.symm.trans (hfn.trans hid))
  · rw [hocc, List.mem_append, List.mem_singleton]
    rintro (hold | hnew)
    · obtain ⟨g',q',hq',hid'⟩ := h.inFlight id row hrow n hn hold
      exact ⟨g',q',mem_withTask.mpr (Or.inr hq'),hid'⟩
    · exact ⟨g,q,mem_withTask.mpr (Or.inl ⟨rfl,rfl⟩),hid.symm.trans (congrArg Prod.fst hnew).symm⟩
  · rw [hocc, List.nodup_append]
    refine ⟨h.once,List.nodup_singleton _,fun o ho o' ho' => ?_⟩
    rw [List.mem_singleton] at ho'
    exact fun hsame => h.waiting g q (mem_unstarted he) (ho' ▸ hsame ▸ ho)

/-- A next run that is computed for a task is none that has started, unless by this very run. -/
private theorem computed_fresh (hs : b.Sound planOf) (h : Once planOf b)
    (hcron : ∀ e zone base t, cfg.lib.cronNext e zone base = .ok t → base < t)
    (hq : q ∈ b.tasks g) {n : String} (hn : computeNextRun cfg.lib b.now q.fn = .ok (some n))
    (hmem : (q.id,some n) ∈ b.occurrences) : ∃ g, ∃ q' ∈ b.invoked g, occurrence q'.fn = (q.id,some n) := by
  have hplan := (hs.held g q hq).2.1
  refine (h.finished _ hmem).resolve_right ?_
  rintro (honce | hpast)
  · have htype : q.fn.scheduleType = .once := (congrArg Prod.snd hplan).trans honce
    rw [computeNextRun_once htype] at hn
    cases hn
  · exact hpast n rfl (computeNextRun_later hcron (h.due g q hq) hn)

/-- Where a row has its next run from, after a run of a task was recorded. -/
private theorem recorded_row (hs : b.Sound planOf) (hq : q ∈ b.tasks g) {result error : Option String}
    {durationMs : Int} {id n : String} {row' : ScheduledTask}
    (hrow' : (recordRun cfg b.db b.now q.fn result error durationMs).getTaskById id = some row')
    (hn : n ∈ row'.nextRun) :
    (id = q.id ∧ computeNextRun cfg.lib b.now q.fn = .ok (some n)) ∨
      (∃ row, b.db.getTaskById id = some row ∧ n ∈ row.nextRun ∧
        (id = q.id → ∃ e, computeNextRun cfg.lib b.now q.fn = .error e)) := by
  have hfn := (hs.held g q hq).1
  rcases eq_or_ne id q.fn.id with rfl | hid
  · obtain ⟨row,hrow,_,hnext | ⟨rfl,herror⟩⟩ := recordRun_self hrow'
    · rw [Option.mem_def.mp hn] at hnext
      exact Or.inl ⟨hfn,hnext⟩
    · exact Or.inr ⟨row',hrow,hn,fun _ => herror⟩
  · rw [recordRun_ne hid] at hrow'
    exact Or.inr ⟨row',hrow',hn,fun he => absurd (he.trans hfn.symm) hid⟩

/-- No call begins or ends, and a row that has started keeps its task in flight. -/
private theorem Once.settled (h : Once planOf b) {unstarted : String → Multiset (QueuedTask ScheduledTask)}
    {db : TaskDb} (hunstarted : ∀ g, unstarted g ≤ b.unstarted g)
    (hrows : ∀ id row', db.getTaskById id = some row' → ∀ n ∈ row'.nextRun,
      (id,some n) ∈ b.occurrences → ∃ g, ∃ q ∈ b.invoked g, q.id = id) :
    Once planOf { b with unstarted := unstarted, db := db } where
  due g q hq := h.due g q (Multiset.mem_of_le (add_le_add (hunstarted g) le_rfl) hq)
  finished := h.finished
  waiting g q hq := h.waiting g q (Multiset.mem_of_le (hunstarted g) hq)
  inFlight := hrows
  once := h.once

theorem Once.missed (hs : b.Sound planOf) (h : Once planOf b)
    (hcron : ∀ e zone base t, cfg.lib.cronNext e zone base = .ok t → base < t)
    (he : b.unstarted = withTask rest g q) (error : String) :
    Once planOf
      { b with unstarted := rest, db := recordRun cfg b.db b.now q.fn none (some error) 0 } := by
  have hq := mem_tasks_of_unstarted he
  refine h.settled (fun g' => he ▸ le_withTask rest g g' q) (fun id row' hrow' n hn hmem => ?_)
  rcases recorded_row hs hq hrow' hn with ⟨rfl,hnext⟩ | ⟨row,hrow,hrn,_⟩
  · -- The task itself is not in flight, and no other has its id.
    obtain ⟨g',q',hq',hocc⟩ := computed_fresh hs h hcron hq hnext hmem
    have hid := (hs.held g' q' (Multiset.mem_add.mpr (Or.inr hq'))).1
    exact absurd (hid.symm.trans (congrArg Prod.fst hocc)) (hs.unstarted_apart he (Or.inr hq'))
  · exact h.inFlight id row hrow n hrn hmem

theorem Once.ended (hs : b.Sound planOf) (h : Once planOf b)
    (hcron : ∀ e zone base t, cfg.lib.cronNext e zone base = .ok t → base < t)
    {outcome : TaskOutcome} {durationMs : Int} (hc : OnTime cfg b (.finish q outcome durationMs))
    (he : b.invoked = withTask rest g q) :
    Once planOf
      { b with invoked := rest, db := recordOutcome cfg b.db b.now q.fn durationMs outcome } := by
  obtain ⟨hrecord,⟨next,hnext⟩,hpast⟩ := hc
  obtain ⟨result,error,hdb⟩ := recordOutcome_eq cfg b.db b.now q.fn durationMs hrecord
  have hq := mem_tasks_of_invoked he
  obtain ⟨hfn,hplan,_⟩ := hs.held g q hq
  refine ⟨fun g' q' hq' => ?_,fun o ho => ?_,h.waiting,fun id row' hrow' n hn hmem => ?_,h.once⟩
  · refine h.due g' q' (Multiset.mem_of_le ?_ hq')
    rw [tasks, tasks, he]
    exact add_le_add le_rfl (le_withTask rest g g' q)
  · rcases h.finished o ho with ⟨g',q',hq',rfl⟩ | hover
    · rcases hs.invoked_cases he hq' with rfl | ⟨hq',_⟩
      · refine Or.inr (hpast.imp (fun honce => ?_) id)
        change (planOf q'.fn.id).2 = .once
        rw [hfn, ← hplan]
        exact honce
      · exact Or.inl ⟨g',q',hq',rfl⟩
    · exact Or.inr hover
  · simp only [hdb] at hrow'
    rcases recorded_row hs hq hrow' hn with ⟨rfl,hsome⟩ | ⟨row,hrow,hrn,herror⟩
    · obtain ⟨g',q',hq',hocc⟩ := computed_fresh hs h hcron hq hsome hmem
      rcases hs.invoked_cases he hq' with rfl | ⟨hq',hne⟩
      · rcases hpast with honce | hpast
        · rw [computeNextRun_once honce] at hsome
          cases hsome
        · exact absurd (computeNextRun_later hcron (h.due g q' hq) hsome)
            (hpast n (congrArg Prod.snd hocc))
      · have hin : q' ∈ b.invoked g' := by
          rw [he, mem_withTask]
          exact Or.inr hq'
        have hid := (hs.held g' q' (Multiset.mem_add.mpr (Or.inr hin))).1
        exact absurd (hid.symm.trans (congrArg Prod.fst hocc)) hne
    · obtain ⟨g',q',hq',hid⟩ := h.inFlight id row hrow n hrn hmem
      rcases hs.invoked_cases he hq' with rfl | ⟨hq',_⟩
      · obtain ⟨e,herr⟩ := herror hid.symm
        rw [hnext] at herr
        cases herr
      · exact ⟨g',q',hq',hid⟩

/-- A move in time keeps occurrences from being run twice. -/
theorem Moved.once {m : Move}
    (hcron : ∀ e zone base t, cfg.lib.cronNext e zone base = .ok t → base < t)
    (hs : b.Sound planOf) (h : Once planOf b) (hc : OnTime cfg b m) (hm : Moved cfg b m c) :
    Once planOf c := by
  cases hm with
  | quiet => exact h
  | ticked now hle =>
    refine ⟨h.due,fun o ho => ?_,h.waiting,h.inFlight,h.once⟩
    exact (h.finished o ho).imp_right (Or.imp_right (fun hpast n hn hlater => hpast n hn (hlater.mono hle)))
  | polled hacc => exact h.accepted hs hacc
  | mutated source isMain payloadType taskId =>
    refine h.settled (fun _ => le_rfl) (fun id row' hrow' n hn hmem => ?_)
    obtain ⟨row,hrow,_,hnext⟩ := handleTaskMutation_row hrow'
    exact h.inFlight id row hrow n (hnext ▸ hn) hmem
  | called g q rest he => exact h.called hs he _
  | refused g q rest log he =>
    refine h.settled (fun g' => he ▸ le_withTask rest g g' q) (fun id row' hrow' n hn hmem => ?_)
    obtain ⟨row,hrow,_,hnext⟩ := updateStatus_row hrow'
    exact h.inFlight id row hrow n (hnext ▸ hn) hmem
  | missed g q rest error he => exact h.missed hs hcron he error
  | ended outcome durationMs g q rest he => exact h.ended hs hcron hc he

end Board

/-- The ids of the tasks whose `run_task_fn` has been called and has not returned. -/
def System.inFlight (s : System) : List String :=
  s.queue.backgroundTasks.filterMap (fun b =>
    match b.coro with
    | .runTask _ task => if b.started then some task.id else none
    | _ => none)

section Runs
open Board
variable {cfg : Config} {planOf : String → String × ScheduleType} {s : System}

/-- Tasks in flight run in different groups, so they are different tasks. -/
theorem Sound.inFlight_nodup (h : Sound planOf s) : s.inFlight.Nodup := by
  have hruns : s.queue.runGroups.Nodup := by
    refine List.nodup_iff_count_le_one.mpr (fun g => ?_)
    rw [h.queue.single g]
    split <;> omega
  have hid : ∀ b ∈ s.queue.backgroundTasks, ∀ id,
      (match b.coro with
        | .runTask _ task => if b.started then some task.id else none
        | _ => none) = some id → b.coro.runGroup = some (planOf id).1 := by
    intro b hb id he
    cases hc : b.coro with
    | runTask g task =>
      simp only [hc] at he
      split at he
      · rename_i hstarted
        cases he
        have hmem : task ∈ s.board.tasks g := by
          refine Multiset.mem_add.mpr (Or.inr (List.mem_filterMap.mpr ⟨b,hb,?_⟩))
          rw [if_pos hstarted, hc, Coroutine.taskOf_runTask, if_pos rfl]
        exact congrArg some (h.board.group hmem).symm
      · cases he
    | runForGroup g => simp only [hc] at he; cases he
    | retry g d => simp only [hc] at he; cases he
  rw [GroupQueue.runGroups, List.Nodup, List.pairwise_filterMap] at hruns
  rw [System.inFlight, List.Nodup, List.pairwise_filterMap]
  refine hruns.imp_of_mem (fun {b b'} hb hb' hne id hb₁ id' hb₂ hsame => ?_)
  exact hne _ (hid b hb id hb₁) _ (hid b' hb' id' hb₂) (congrArg (fun id => (planOf id).1) hsame)

/-- No run of the system has a task in flight twice. Where runs are recorded and outlast the
instants they were due at, none starts an occurrence twice either. -/
theorem occurrences_once
    (hcron : ∀ e zone base t, cfg.lib.cronNext e zone base = .ok t → base < t)
    (maxConcurrent maxRetries baseRetryMs maxRetryMs : Int) (processMessagesFn closeStdinFn : Bool)
    (db : TaskDb) (now : Int) {as : List Action}
    (he : exec (step cfg) (System.init maxConcurrent maxRetries baseRetryMs maxRetryMs
      processMessagesFn closeStdinFn db now) as = some s) :
    s.inFlight.Nodup ∧
      (Allowed (step cfg) (fun s a => OnTime cfg s.board (s.move a)) (System.init maxConcurrent
          maxRetries baseRetryMs maxRetryMs processMessagesFn closeStdinFn db now) as →
        (s.started.map (fun i => occurrence i.task)).Nodup) := by
  have hinit := sound_init maxConcurrent maxRetries baseRetryMs maxRetryMs processMessagesFn
    closeStdinFn db now
  constructor
  · have hreach : Reachable (step cfg) _ s := ⟨as,he⟩
    exact (hreach.invariant (fun _ _ _ h hstep => (step_moved h hstep).1) hinit).inFlight_nodup
  · intro hok
    have hinv : Sound (tablePlan db) s ∧ Once (tablePlan db) s.board := by
      refine allowed_invariant (P := fun s => Sound (tablePlan db) s ∧ Once (tablePlan db) s.board)
        ?_ ⟨hinit,?_⟩ hok he
      · rintro s a t ⟨hs,ho⟩ hc hstep
        obtain ⟨ht,hm⟩ := step_moved hs hstep
        exact ⟨ht,hm.once hcron hs.board ho hc⟩
      · exact ⟨fun g q hq => absurd hq (Multiset.notMem_zero q),
          fun o ho => absurd ho List.not_mem_nil,fun g q hq => absurd hq (Multiset.notMem_zero q),
          fun _ _ _ _ _ hmem => absurd hmem List.not_mem_nil,List.nodup_nil⟩
    exact hinv.2.once

/-- Only the ends of tasks have to be in time. -/
private theorem onTime_of_ne {a : Action} (h : ∀ i outcome durationMs, a ≠ .finishTask i outcome durationMs) :
    OnTime cfg s.board (s.move a) := by
  cases a with
  | finishTask i outcome durationMs => exact absurd rfl (h i outcome durationMs)
  | begin i groups =>
    simp only [System.move]
    split <;> trivial
  | _ => trivial

def hourly (nextRun : String) : ScheduledTask where
  id := "t"
  groupFolder := "main"
  chatJid := "local:main"
  prompt := "hi"
  scheduleType := .interval
  scheduleValue := "3600000"
  contextMode := .isolated
  nextRun := some nextRun
  lastRun := none
  lastResult := none
  status := .active
  createdAt := "2025-12-31T00:00:00Z"

private def table (nextRun : String) : TaskDb := ⟨⟨[hourly nextRun],List.nodup_singleton _⟩,[]⟩

private theorem localCron (e : String) (zone : Timezone.Zone) (base t : Int)
    (h : localCfg.lib.cronNext e zone base = .ok t) : base < t := by
  cases h
  omega

/-- A run during which another poll finds its row still due, and the run an hour later. -/
private def twoHours : List Action :=
  [.poll,.begin 0 mainGroups,.poll,.finishTask 0 (.returned none) 0,.tick (newYear + 3600000000),
    .poll,.begin 0 mainGroups]

theorem occurrences_once_two_hours :
    ∃ s, exec (step localCfg) (System.init 1 5 5000 300000 true true (table (utcIso newYear)) newYear)
        twoHours = some s ∧
      s.started.length = 2 ∧ (s.started.map (fun i => occurrence i.task)).Nodup := by
  have hrun : (exec (step localCfg) (System.init 1 5 5000 300000 true true (table (utcIso newYear))
      newYear) twoHours).map (fun s => s.started.length) = some 2 := by decide +kernel
  obtain ⟨s,hs,hlength⟩ := Option.map_eq_some_iff.mp hrun
  refine ⟨s,hs,hlength,(occurrences_once localCron 1 5 5000 300000 true true _ newYear hs).2 ?_⟩
  have hat : (exec (step localCfg) (System.init 1 5 5000 300000 true true (table (utcIso newYear))
      newYear) (twoHours.take 3)).map (fun s => (s.now,(s.taskAt 0).map (fun x => x.2.2.fn))) =
        some (newYear,some (hourly (utcIso newYear))) := by decide +kernel
  refine allowed_of_take (fun n a t ha ht => ?_)
  match n, ha with
  | 0, rfl | 1, rfl | 2, rfl | 4, rfl | 5, rfl | 6, rfl => exact onTime_of_ne (by rintro _ _ _ ⟨⟩)
  | 3, rfl =>
    rw [ht] at hat
    obtain ⟨hnow,htask⟩ := Prod.mk.inj (Option.some.inj hat)
    obtain ⟨⟨b,g,q⟩,hq,hfn⟩ := Option.map_eq_some_iff.mp htask
    have hmove : t.move (.finishTask 0 (.returned none) 0) = .finish q (.returned none) 0 := by
      simp only [System.move, hq]
    have htime : t.board.now = newYear := hnow
    have hrow : q.fn = hourly (utcIso newYear) := hfn
    rw [hmove, OnTime, htime, hrow]
    refine ⟨by rintro ⟨⟩,⟨some "2026-01-01T01:00:00Z",by decide +kernel⟩,Or.inr ?_⟩
    rintro text ⟨⟩
    exact not_isLater_utcIso (by decide) le_rfl

/-- A row whose next run has a fraction of a second is due at the whole second before, for a
point comes before a `Z`. Its run ends before the fraction is over, and starts once more. -/
theorem fraction_runs_twice :
    ∃ s, exec (step localCfg) (System.init 1 5 5000 300000 true true
        (table "2026-01-01T00:00:00.700000Z") newYear)
        [.poll,.begin 0 mainGroups,.finishTask 0 (.returned none) 0,.tick (newYear + 1000000),.poll,
          .begin 0 mainGroups] = some s ∧
      computeNextRun localCfg.lib newYear (hourly "2026-01-01T00:00:00.700000Z") =
        .ok (some "2026-01-01T00:00:00.700000Z") ∧
      ¬(s.started.map (fun i => occurrence i.task)).Nodup := by
  have hrun : (exec (step localCfg) (System.init 1 5 5000 300000 true true
      (table "2026-01-01T00:00:00.700000Z") newYear)
      [.poll,.begin 0 mainGroups,.finishTask 0 (.returned none) 0,.tick (newYear + 1000000),.poll,
        .begin 0 mainGroups]).map (fun s => s.started.map (fun i => occurrence i.task)) =
        some [("t",some "2026-01-01T00:00:00.700000Z"),("t",some "2026-01-01T00:00:00.700000Z")] := by
    decide +kernel
  obtain ⟨s,hs,hstarted⟩ := Option.map_eq_some_iff.mp hrun
  refine ⟨s,hs,by decide +kernel,?_⟩
  rw [hstarted]
  decide

end Runs

end NanoClaw.Tasks
