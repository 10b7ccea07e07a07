import NanoClaw.Ipc.Watcher

/-! Which files end the watcher: the ones that make it raise an exception its handlers let
through, told from their contents, the surroundings and the tasks that exist. -/
namespace NanoClaw.Ipc
open Store Json Calendar IsoFormat
variable {lib : Lib} {groups : Groups} {source : String} {isMain : Bool} {env : Env}

theorem isStr_eq_true {v : Json} {t : String} : isStr v t = true ↔ v = .str t := by
  cases v <;> simp [isStr]

/-- The library behind a schedule raises on its value: `croniter` with an exception outside the
four families, an interval or a single time outside the range of `datetime`. -/
def ScheduleRaises (lib : Lib) (now : Int) (scheduleType scheduleValue : Json) : Prop :=
  (scheduleType = .str "cron" ∧
    ∃ e, lib.cronNext scheduleValue now = .error e ∧ isCaught e = false) ∨
  (scheduleType = .str "interval" ∧ ∃ value ms, scheduleValue = .str value ∧
    PyText.int? value.toList = some ms ∧ 0 < ms ∧ ¬InRange (now + ms * 1000)) ∨
  (scheduleType = .str "once" ∧ ∃ value f offset, scheduleValue = .str value ∧
    fromIsoFormat (Timezone.replaceZ value.toList) = some (f,some offset) ∧
    ¬InRange (f.toMicros - offset))

/-- A request to schedule a task in a chat the source may use, with texts in its four fields. -/
def Schedules (groups : Groups) (source : String) (isMain : Bool) (fields : List (String × Json)) :
    Prop :=
  getKey "type" fields = .str "schedule_task" ∧
    ((getKey "targetJid" fields).isText ∧ (getKey "prompt" fields).isText ∧
      (getKey "schedule_type" fields).isText ∧ (getKey "schedule_value" fields).isText) ∧
    ∃ g, groupOf groups (getKey "targetJid" fields) = some g ∧ (isMain = true ∨ g.folder = source)

/-- A new task whose texts can all be stored has the id of a row that exists. -/
def IdTaken (s : State) (env : Env) (fields : List (String × Json)) : Prop :=
  ∃ id prompt value, newTaskId env (getKey "taskId" fields) = some id ∧
    getKey "prompt" fields = .str prompt ∧ getKey "schedule_value" fields = .str value ∧
    s.db.getTaskById id ≠ none

/-- A file that ends the loop over tasks: nested too deep, no object, or a task request that
raises in the schedule library or at a taken id. -/
def FatalTask (lib : Lib) (groups : Groups) (source : String) (isMain : Bool) (s : State) (f : File) :
    Prop :=
  (∃ e, readJson lib.interp f = .error e ∧ isCaught e = false) ∨
  (∃ v, readJson lib.interp f = .ok v ∧ ∀ fields, v ≠ .obj fields) ∨
  ∃ fields, readJson lib.interp f = .ok (.obj fields) ∧ Schedules groups source isMain fields ∧
    (ScheduleRaises lib f.env.now (getKey "schedule_type" fields) (getKey "schedule_value" fields) ∨
      ((∃ schedule, computeFirstRun lib f.env.now (getKey "schedule_type" fields)
          (getKey "schedule_value" fields) = .ok (some schedule)) ∧ IdTaken s f.env fields))

/-- A file that ends the loop over messages: nested too deep, no object, or a message whose
sending raises outside the four families. -/
def FatalMessage (lib : Lib) (groups : Groups) (source : String) (isMain : Bool) (f : File) : Prop :=
  (∃ e, readJson lib.interp f = .error e ∧ isCaught e = false) ∨
  (∃ v, readJson lib.interp f = .ok v ∧ ∀ fields, v ≠ .obj fields) ∨
  ∃ fields, readJson lib.interp f = .ok (.obj fields) ∧
    getKey "type" fields = .str "message" ∧
    ((getKey "chatJid" fields).isText ∧ (getKey "text" fields).isText) ∧
    (isMain = true ∨ ownsChat groups source (getKey "chatJid" fields) = true) ∧
    ∃ e, f.env.sendFailure = some e ∧ isCaught e = false

/-- An exception that gets past the handlers. -/
def Handled.Escapes (h : Handled) : Prop := ∃ e, h.exc = some e ∧ isCaught e = false

theorem handleFile_exc_iff {process : Env → State → Json → Handled} {s : State} {f : File} :
    (handleFile lib process s f).exc ≠ none ↔
      (∃ e, readJson lib.interp f = .error e ∧ isCaught e = false) ∨
        ∃ v, readJson lib.interp f = .ok v ∧ (process f.env s v).Escapes := by
  rcases hread : readJson lib.interp f with e | v
  · simp [handleFile, hread, Option.filter]
  · rcases hexc : (process f.env s v).exc with _ | e <;>
      simp [handleFile, hread, hexc, Handled.Escapes, Option.filter]

private theorem processMessagePayload_escapes {s : State} {v : Json} :
    (processMessagePayload groups source isMain env s v).Escapes ↔
      (∀ fields, v ≠ .obj fields) ∨ ∃ fields, v = .obj fields ∧
        getKey "type" fields = .str "message" ∧
        ((getKey "chatJid" fields).isText ∧ (getKey "text" fields).isText) ∧
        (isMain = true ∨ ownsChat groups source (getKey "chatJid" fields) = true) ∧
        ∃ e, env.sendFailure = some e ∧ isCaught e = false := by
  cases v with
  | obj fields =>
    simp only [processMessagePayload, Handled.Escapes]
    split
    · rename_i h
      simp only [Bool.and_eq_true, Bool.or_eq_true, isStr_eq_true] at h
      simp [h]
    · rename_i h
      simp only [Bool.and_eq_true, Bool.or_eq_true, isStr_eq_true, not_and] at h
      simp only [reduceCtorEq, false_and, exists_false, ne_eq, Json.obj.injEq, false_iff, not_or,
        not_forall, not_exists, not_and]
      refine ⟨⟨fields,by simp⟩,?_⟩
      rintro _ rfl htype hchat hmay
      exact absurd hmay (h ⟨⟨htype,hchat.1⟩,hchat.2⟩)
  | _ => simp [processMessagePayload, Handled.Escapes, isCaught, PyExc.isValueError]

theorem handleMessage_exc_iff {s : State} {f : File} :
    (handleMessage lib groups source s f).exc ≠ none ↔
      FatalMessage lib groups source (isMainFolder groups source) f := by
  rw [handleMessage, handleFile_exc_iff, FatalMessage]
  refine or_congr_right ?_
  simp only [processMessagePayload_escapes]
  constructor
  · rintro ⟨v,hread,hv | ⟨fields,rfl,h⟩⟩
    · exact Or.inl ⟨v,hread,hv⟩
    · exact Or.inr ⟨fields,hread,h⟩
  · rintro (⟨v,hread,hv⟩ | ⟨fields,hread,h⟩)
    · exact ⟨v,hread,Or.inl hv⟩
    · exact ⟨_,hread,Or.inr ⟨fields,rfl,h⟩⟩

private theorem firstInterval_escapes {now ms : Int} :
    (∃ e, firstInterval now ms = .error e ∧ isCaught e = false) ↔
      0 < ms ∧ ¬InRange (now + ms * 1000) := by
  rw [firstInterval]
  split_ifs with hms hr
  · simp [hms]
  · simp [hr]
  · simp [hr, isCaught, PyExc.isValueError]
    omega

private theorem firstOnce_escapes {value : String} :
    (∃ e, firstOnce value = .error e ∧ isCaught e = false) ↔
      ∃ f offset, fromIsoFormat (Timezone.replaceZ value.toList) = some (f,some offset) ∧
        ¬InRange (f.toMicros - offset) := by
  rw [firstOnce, Timezone.parseIsoTimestamp]
  rcases fromIsoFormat (Timezone.replaceZ value.toList) with _ | ⟨f,_ | offset⟩
  · simp
  · simp
  · simp only
    split_ifs with hr
    · simpa using hr
    · simpa [isCaught, PyExc.isValueError] using hr

private theorem map_escapes {α β : Type} {x : Except PyExc α} {g : α → β} :
    (∃ e, x.map g = .error e ∧ isCaught e = false) ↔ ∃ e, x = .error e ∧ isCaught e = false := by
  cases x <;> simp [Except.map]

theorem computeFirstRun_escapes {now : Int} {scheduleType scheduleValue : Json} :
    (∃ e, computeFirstRun lib now scheduleType scheduleValue = .error e ∧ isCaught e = false) ↔
      ScheduleRaises lib now scheduleType scheduleValue := by
  by_cases hcron : isStr scheduleType "cron" = true
  · simp only [computeFirstRun, hcron, if_true, map_escapes]
    rw [isStr_eq_true] at hcron
    simp [ScheduleRaises, hcron]
  · have hcron' := hcron
    rw [isStr_eq_true] at hcron'
    cases scheduleValue with
    | str value =>
      simp only [computeFirstRun, hcron, Bool.false_eq_true, if_false]
      split_ifs with hinterval honce
      · rw [isStr_eq_true] at hinterval
        rcases hint : PyText.int? value.toList with _ | ms
        · simp [ScheduleRaises, hinterval, hint]
        · simp [ScheduleRaises, map_escapes, firstInterval_escapes, hinterval, hint]
      · rw [isStr_eq_true] at honce
        simp [ScheduleRaises, map_escapes, firstOnce_escapes, honce]
      · rw [isStr_eq_true] at hinterval honce
        simp [ScheduleRaises, hcron', hinterval, honce]
    | _ => simp [computeFirstRun, ScheduleRaises, hcron, hcron']

private theorem storeTask_escapes {s : State} {folder jid : String} {fields : List (String × Json)}
    {schedule : ScheduleType × Int} (hjid : getKey "targetJid" fields = .str jid) :
    (storeTask env s folder fields schedule).Escapes ↔ IdTaken s env fields := by
  simp only [storeTask, hjid]
  split
  · rename_i id chatJid prompt value hid _ hprompt hvalue
    simp only [IdTaken, hid, hprompt, hvalue]
    split
    · rename_i hdb
      rw [TaskDb.createTask_eq_none_iff] at hdb
      simpa [Handled.Escapes, isCaught, PyExc.isValueError] using hdb
    · rename_i db hdb
      have hnew := (TaskDb.createTask_eq_some hdb).1
      simpa [Handled.Escapes] using hnew
  · rename_i h
    simp only [Handled.Escapes, IdTaken, Option.some.injEq]
    constructor
    · rintro ⟨_,rfl,he⟩
      cases he
    · rintro ⟨id,prompt,value,hid,hprompt,hvalue,_⟩
      exact absurd hvalue (h id jid prompt value hid rfl hprompt)

private theorem handleTaskMutation_escapes {s : State} {payloadType taskId : Json} :
    ¬(handleTaskMutation source isMain s payloadType taskId).Escapes := by
  cases taskId with
  | str id =>
    simp only [handleTaskMutation]
    split
    · simp [Handled.Escapes]
    · split_ifs <;> simp [Handled.Escapes]
  | _ => simp [handleTaskMutation, Handled.Escapes, isCaught, PyExc.isValueError]

private theorem handleScheduleTask_escapes {s : State} {fields : List (String × Json)}
    (htype : getKey "type" fields = .str "schedule_task") :
    (handleScheduleTask lib groups source isMain env s fields).Escapes ↔
      Schedules groups source isMain fields ∧
        (ScheduleRaises lib env.now (getKey "schedule_type" fields) (getKey "schedule_value" fields) ∨
          ((∃ schedule, computeFirstRun lib env.now (getKey "schedule_type" fields)
            (getKey "schedule_value" fields) = .ok (some schedule)) ∧ IdTaken s env fields)) := by
  rw [← computeFirstRun_escapes]
  simp only [handleScheduleTask]
  split
  · rename_i htexts
    have hno : ¬Schedules groups source isMain fields := by
      rintro ⟨_,⟨h₁,h₂,h₃,h₄⟩,_⟩
      simp [h₁, h₂, h₃, h₄] at htexts
    simp [Handled.Escapes, hno]
  · rename_i htexts
    simp only [Bool.and_eq_true, not_not] at htexts
    obtain ⟨⟨⟨h₁,h₂⟩,h₃⟩,h₄⟩ := htexts
    rcases hg : groupOf groups (getKey "targetJid" fields) with _ | g
    · simp [Handled.Escapes, Schedules, hg]
    · simp only
      have hjid : ∃ jid, getKey "targetJid" fields = .str jid := by
        rcases hjid : getKey "targetJid" fields with _ | _ | _ | _ | jid | _ | _ | _ <;>
          simp [hjid, groupOf] at hg ⊢
      obtain ⟨jid,hjid⟩ := hjid
      split
      · rename_i hmay
        have hno : ¬Schedules groups source isMain fields := by
          rintro ⟨_,_,g',hg',hmay'⟩
          rw [hg] at hg'
          cases hg'
          rcases hmay' with h | h
          · exact hmay.1 h
          · exact hmay.2 h
        simp [Handled.Escapes, hno]
      · rename_i hmay
        have hyes : Schedules groups source isMain fields := by
          refine ⟨htype,⟨h₁,h₂,h₃,h₄⟩,g,hg,?_⟩
          by_contra hno
          simp only [not_or] at hno
          exact hmay hno
        rcases computeFirstRun lib env.now (getKey "schedule_type" fields)
          (getKey "schedule_value" fields) with e | _ | schedule
        · simp [Handled.Escapes, hyes]
        · simp [Handled.Escapes]
        · simp [storeTask_escapes hjid, hyes]

theorem handleTask_exc_iff {s : State} {f : File} :
    (handleTask lib groups source s f).exc ≠ none ↔
      FatalTask lib groups source (isMainFolder groups source) s f := by
  rw [handleTask, handleFile_exc_iff, FatalTask]
  refine or_congr_right ?_
  constructor
  · rintro ⟨v,hread,hv⟩
    cases v with
    | obj fields =>
      simp only [processTaskPayload] at hv
      split at hv
      · rename_i htype
        rw [isStr_eq_true] at htype
        exact Or.inr ⟨fields,hread,(handleScheduleTask_escapes htype).mp hv⟩
      · exact absurd hv handleTaskMutation_escapes
    | _ => exact Or.inl ⟨_,hread,by simp⟩
  · rintro (⟨v,hread,hv⟩ | ⟨fields,hread,h⟩)
    · refine ⟨v,hread,?_⟩
      cases v with
      | obj fields => exact absurd rfl (hv fields)
      | _ => exact ⟨.attributeError,rfl,rfl⟩
    · refine ⟨_,hread,?_⟩
      rw [processTaskPayload, if_pos (isStr_eq_true.mpr h.1.1)]
      exact (handleScheduleTask_escapes h.1.1).mpr h

end NanoClaw.Ipc
