import NanoClaw.Library.Grid
import NanoClaw.Library.IsoOrder
import NanoClaw.Tasks.Scheduler

/-! The runs of an interval task: the loop of `compute_next_run` next to the grid of instants that
the first run anchors. -/
namespace NanoClaw.Tasks
open Store Calendar IsoFormat IsoText Timezone Grid

/-- The loop `while next_time <= now` as a relation between where it starts and how it ends. -/
inductive Loops (offset interval now : Int) : Int → Except PyExc Int → Prop where
  | exit {t : Int} : now < t → Loops offset interval now t (.ok t)
  | turn {t : Int} {result : Except PyExc Int} : t ≤ now → InRange (t + interval + offset) →
      Loops offset interval now (t + interval) result → Loops offset interval now t result
  | overflow {t : Int} : t ≤ now → ¬InRange (t + interval + offset) →
      Loops offset interval now t (.error .overflowError)

section Loop
variable {offset interval now t : Int} {result result' : Except PyExc Int}

theorem Loops.unique (h : Loops offset interval now t result)
    (h' : Loops offset interval now t result') : result = result' := by
  induction h with
  | exit hlt =>
    cases h' with
    | exit _ => rfl
    | turn hle _ _ => exact absurd hlt (not_lt.mpr hle)
    | overflow hle _ => exact absurd hlt (not_lt.mpr hle)
  | turn hle hrange _ ih =>
    cases h' with
    | exit hlt => exact absurd hlt (not_lt.mpr hle)
    | turn _ _ hrest => exact ih hrest
    | overflow _ hnot => exact absurd hrange hnot
  | overflow hle hnot =>
    cases h' with
    | exit hlt => exact absurd hlt (not_lt.mpr hle)
    | turn _ hrange _ => exact absurd hrange hnot
    | overflow _ _ => rfl

/-- With turns enough the loop comes to its end. -/
theorem loops_advance (hpos : 0 < interval) {fuel : Nat} (hfuel : now - t < fuel) :
    Loops offset interval now t (advance offset interval now fuel t) := by
  induction fuel generalizing t with
  | zero => exact .exit (by omega)
  | succ fuel ih =>
    rw [advance]
    split_ifs with hle hrange
    · exact .turn hle hrange (ih (by omega))
    · exact .overflow hle hrange
    · exact .exit (not_le.mp hle)

/-- The loop ends at the first instant of its grid behind `now`, unless that lies behind the last
year. -/
theorem Loops.eq_after (hpos : 0 < interval) (hstart : 0 ≤ t + offset)
    (hstart' : now < t → InRange (t + offset)) (h : Loops offset interval now t result) :
    result = if InRange (after t interval now + offset) then .ok (after t interval now)
      else .error .overflowError := by
  induction h with
  | exit hlt => rw [after_eq_anchor hlt, if_pos (hstart' hlt)]
  | turn hle hrange _ ih =>
    rw [ih hrange.1 (fun _ => hrange), after_next hpos hle]
  | @overflow t hle hnot =>
    rw [if_neg]
    intro hrange
    -- the first turn leaves the range upwards, and the grid goes on from there
    have hfirst : t + interval ≤ after t interval now := by
      rw [← after_next hpos hle]
      exact (onGrid_after hpos).le hpos.le
    exact hnot ⟨by omega,lt_of_le_of_lt (by omega) hrange.2⟩

end Loop

/-- A task that runs every `ms` milliseconds, with the instant that its stored next run denotes, on
a clock with an offset from UTC. -/
structure RunsEvery (ms stored offset : Int) (task : ScheduledTask) : Prop where
  kind : task.scheduleType = .interval
  value : PyText.int? task.scheduleValue.toList = some ms
  positive : 0 < ms
  next : ∃ text ∈ task.nextRun, ∃ f zone, fromIsoFormat (replaceZ text.toList) = some (f,zone) ∧
    stored = f.toMicros - zone.getD 0 ∧ offset = zone.getD 0

/-- A thousand microseconds for each millisecond. -/
abbrev interval (ms : Int) : Int := ms * 1000

section Task
variable {lib : Lib} {task : ScheduledTask} {ms stored offset now : Int}

theorem RunsEvery.inRange (h : RunsEvery ms stored offset task) : InRange (stored + offset) := by
  obtain ⟨_,_,f,zone,hread,rfl,rfl⟩ := h.next
  rw [Int.sub_add_cancel]
  exact inRange_toMicros (fromIsoFormat_valid hread)

/-- What is computed is the first instant of the grid behind `now`. -/
theorem RunsEvery.computeNextRun_eq (h : RunsEvery ms stored offset task) (lib : Lib) (now : Int) :
    computeNextRun lib now task =
      if InRange (after stored (interval ms) now + offset) ∧ InRange (after stored (interval ms) now)
      then .ok (some (utcIso (after stored (interval ms) now))) else .error .overflowError := by
  have hpos : 0 < interval ms := Int.mul_pos h.positive (by omega)
  have hrange := h.inRange
  obtain ⟨text,htext,f,zone,hread,hstored,hoffset⟩ := h.next
  have hloop := (@loops_advance offset (interval ms) now stored hpos ((now - stored).toNat + 1)
    (by omega)).eq_after hpos hrange.1 (fun _ => hrange)
  subst hstored hoffset
  simp only [computeNextRun, h.kind, h.value, if_neg (not_le.mpr h.positive), Option.mem_def.mp htext,
    nextInterval, hread, hloop]
  by_cases hlocal : InRange (after (f.toMicros - zone.getD 0) (interval ms) now + zone.getD 0)
  · by_cases hutc : InRange (after (f.toMicros - zone.getD 0) (interval ms) now)
    · simp [utcText, hutc, hlocal, Except.map]
    · simp [utcText, hutc, hlocal, Except.map]
  · simp [hlocal, Except.map]

/-- A run leaves the row on the grid: its next run moves to the instant that is computed, or stays
where nothing can be. -/
theorem RunsEvery.recordOutcome {cfg : Config} {db : TaskDb} {durationMs : Int}
    {outcome : TaskOutcome} (h : RunsEvery ms stored offset task)
    (hrow : db.getTaskById task.id = some task) :
    ∃ task' stored' offset',
      (recordOutcome cfg db now task durationMs outcome).getTaskById task.id = some task' ∧
        RunsEvery ms stored' offset' task' ∧ OnGrid stored (interval ms) stored' := by
  have hstay : ∃ task' stored' offset', some task = some task' ∧
      RunsEvery ms stored' offset' task' ∧ OnGrid stored (interval ms) stored' :=
    ⟨task,stored,offset,rfl,h,OnGrid.refl _ _⟩
  by_cases hout : outcome = .unencodable
  · rw [hout, Tasks.recordOutcome, hrow]
    exact hstay
  · obtain ⟨result,error,heq⟩ := recordOutcome_eq cfg db now task durationMs hout
    rw [heq, recordRun, h.computeNextRun_eq]
    split_ifs with hrange
    · rw [TaskDb.getTaskById_updateTaskAfterRun, if_pos rfl, TaskDb.getTaskById_logTaskRun, hrow]
      refine ⟨_,_,_,rfl,⟨h.kind,h.value,h.positive,_,rfl,_,_,fromIsoFormat_utcIso hrange.2,rfl,rfl⟩,?_⟩
      have hgrid : OnGrid stored (interval ms) (after stored (interval ms) now) :=
        onGrid_after (Int.mul_pos h.positive (by omega))
      rwa [(ofMicros_spec hrange.2).2, Int.toNat_of_nonneg hrange.2.1, Option.getD_some, sub_zero]
    · rw [TaskDb.getTaskById_logTaskRun, hrow]
      exact hstay

end Task

/-- A run that has come to its end. -/
structure FinishedRun where
  now : Int
  outcome : TaskOutcome
  durationMs : Int

/-- Runs of a task one after the other, each with the row that the one before has left. -/
def runAgain (cfg : Config) (id : String) : TaskDb → List FinishedRun → TaskDb
  | db, [] => db
  | db, run :: runs =>
    match db.getTaskById id with
    | none => db
    | some task =>
      runAgain cfg id (recordOutcome cfg db run.now task run.durationMs run.outcome) runs

section Runs
variable {task : ScheduledTask} {ms stored offset : Int}

theorem RunsEvery.runAgain {cfg : Config} {db : TaskDb} {id : String}
    (h : RunsEvery ms stored offset task) (hrow : db.getTaskById id = some task)
    (runs : List FinishedRun) :
    ∃ task' stored' offset', (runAgain cfg id db runs).getTaskById id = some task' ∧
      RunsEvery ms stored' offset' task' ∧ OnGrid stored (interval ms) stored' := by
  induction runs generalizing db task stored offset with
  | nil => exact ⟨task,stored,offset,hrow,h,OnGrid.refl _ _⟩
  | cons run runs ih =>
    obtain rfl : task.id = id := (TaskDb.getTaskById_eq_some_iff.mp hrow).2
    obtain ⟨task₁,stored₁,offset₁,hrow₁,h₁,hgrid₁⟩ :=
      @RunsEvery.recordOutcome task ms stored offset run.now cfg db run.durationMs run.outcome h hrow
    obtain ⟨task₂,stored₂,offset₂,hrow₂,h₂,hgrid₂⟩ := ih h₁ hrow₁
    refine ⟨task₂,stored₂,offset₂,?_,h₂,hgrid₁.trans hgrid₂⟩
    rw [Tasks.runAgain, hrow]
    exact hrow₂

/-- The loop ends, at the first instant of the grid of the stored run that is later than now. Run
after run, however late, the task stays on the grid. -/
theorem interval_stays_on_grid (h : RunsEvery ms stored offset task) (lib : Lib) (now : Int) :
    let r := after stored (interval ms) now
    (∃! result, Loops offset (interval ms) now stored result) ∧
    (InRange (r + offset) → Loops offset (interval ms) now stored (.ok r)) ∧
    (InRange (r + offset) → InRange r → computeNextRun lib now task = .ok (some (utcIso r))) ∧
    IsLeast {t | (∃ k : Nat, t = stored + k * interval ms) ∧ now < t} r ∧
    (now < stored → r = stored) ∧
    (stored ≤ now → r = stored + ((now - stored) / interval ms + 1) * interval ms ∧
      0 < r - now ∧ r - now ≤ interval ms) ∧
    ∀ (cfg : Config) (db : TaskDb) (id : String) (runs : List FinishedRun),
      db.getTaskById id = some task →
      ∃ task' stored' offset', (runAgain cfg id db runs).getTaskById id = some task' ∧
        RunsEvery ms stored' offset' task' ∧ ∃ k : Nat, stored' = stored + k * interval ms := by
  have hpos : 0 < interval ms := Int.mul_pos h.positive (by omega)
  have hloop := @loops_advance offset (interval ms) now stored hpos ((now - stored).toNat + 1)
    (by omega)
  have hafter := hloop.eq_after hpos h.inRange.1 (fun _ => h.inRange)
  intro r
  refine ⟨⟨_,hloop,fun _ h' => h'.unique hloop⟩,?_,?_,isLeast_after hpos,after_eq_anchor,?_,?_⟩
  · intro hrange
    rwa [hafter, if_pos hrange] at hloop
  · intro hlocal hutc
    rw [h.computeNextRun_eq, if_pos ⟨hlocal,hutc⟩]
  · intro hle
    have hlt : now < r := lt_after hpos
    have hle' : r ≤ now + interval ms := after_le hpos hle
    exact ⟨after_eq hle,by omega,by omega⟩
  · intro cfg db id runs hrow
    exact h.runAgain hrow runs

private def minutely : ScheduledTask where
  id := "t"
  groupFolder := "main"
  chatJid := "local:main"
  prompt := "hi"
  scheduleType := .interval
  scheduleValue := "60000"
  contextMode := .isolated
  nextRun := some "2026-01-01T00:00:00Z"
  lastRun := none
  lastResult := none
  status := .active
  createdAt := "2026-01-01T00:00:00Z"

/-- Ten minutes late to the microsecond, a task that runs every minute runs next after eleven. -/
theorem interval_stays_on_grid_ten_minutes_late :
    RunsEvery 60000 63902822400000000 0 minutely ∧
      computeNextRun ⟨⟨fun _ => .ok (fun _ => 0),0⟩,"UTC",fun _ _ _ => .error .valueError⟩
        63902823000000000 minutely = .ok (some "2026-01-01T00:11:00Z") := by
  have h : RunsEvery 60000 63902822400000000 0 minutely :=
    ⟨rfl,by decide,by decide,"2026-01-01T00:00:00Z",rfl,⟨2026,1,1,0,0,0,0⟩,some 0,by decide +kernel,
      by decide +kernel,rfl⟩
  refine ⟨h,?_⟩
  have hnext := (interval_stays_on_grid h
    ⟨⟨fun _ => .ok (fun _ => 0),0⟩,"UTC",fun _ _ _ => .error .valueError⟩ 63902823000000000).2.2.1
  exact (hnext (by decide) (by decide)).trans (by decide +kernel)

end Runs

end NanoClaw.Tasks
