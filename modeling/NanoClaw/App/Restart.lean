import NanoClaw.App.World
import NanoClaw.Library.JsonLayout

/-! The app over its whole life: chats are registered, replies are sent from elsewhere, and a new
process starts on the same database. -/
namespace NanoClaw.App
open Store Channels Execution Json

/-- The app with its calls in flight, and the rows of `registered_groups`. -/
structure Installation where
  world : World
  groupRows : List GroupRow

/-- What happens over the life of an installation. `store` is a call of `store_message` that is
not the app's own, `send` a call of `send_message` by the IPC watcher or a scheduled task, and
`restart` ends the process and starts a new one. -/
inductive LifeAction where
  | app (a : Action)
  | register (jid : String) (group : RegisteredGroup)
  | store (m : NewMessage)
  | send (jid text uuid now : String) (failure : Option PyExc)
  | save
  | restart

/-- The texts of a decoded object; none where a value is of another type. -/
def textsOf (fields : List (String × Json)) : Option (Dict String String) :=
  fields.foldlM (fun texts field =>
    match field.2 with
    | .str text => some (texts.set field.1 text)
    | _ => none) Dict.empty

/-- What `load_state` makes of the stored cursors. None where it raises, or where the text holds
no object of texts: nothing that `save_state` writes. -/
def loadCursors (interp : Interp) : Option String → Option (Dict String String)
  | none => some Dict.empty
  | some raw =>
    if raw = "" then some Dict.empty
    else
      match loads interp raw.toList with
      | .error .jsonDecodeError => some Dict.empty
      | .ok (.obj fields) => textsOf fields
      | _ => none

/-- A new app after `load_state`, on the database of an old one. -/
def loadState (interp : Interp) (db : AppState) (rows : List GroupRow) : Option AppState :=
  (loadCursors interp (db.routerState.get? "last_agent_timestamp")).bind (fun cursors =>
    (getAllRegisteredGroups interp rows).map (fun groups =>
      { db with
        registeredGroups := groups
        lastTimestamp := (db.routerState.get? "last_timestamp").getD ""
        lastAgentTimestamp := cursors
        sessions := db.savedSessions }))

namespace Installation

section
variable (s : Installation)

/-- A new app on an empty database. -/
def fresh : Installation where
  world := World.init
    { registeredGroups := Dict.empty
      messages := []
      lastTimestamp := ""
      lastAgentTimestamp := Dict.empty
      sessions := Dict.empty
      routerState := Dict.empty
      savedSessions := Dict.empty
      sent := [] }
  groupRows := []

def app : AppState := s.world.app

def setApp (app : AppState) : Installation := { s with world := { s.world with app := app } }

/-- `register_group`, raising after its first statement or not. -/
def registerGroup (jid : String) (group : RegisteredGroup) : Installation :=
  let s := s.setApp { s.app with registeredGroups := s.app.registeredGroups.set jid group }
  match setRegisteredGroup s.groupRows jid group with
  | .ok rows => { s with groupRows := rows }
  | .error _ => s

/-- The chats that the database keeps. -/
def Keeps (jid : String) : Prop :=
  ∃ row ∈ s.groupRows, row.jid = jid ∧ isValidGroupFolder row.folder = true

end

def step (cfg : Config) (interp : Interp) (s : Installation) : LifeAction → Option Installation
  | .app a => (App.step cfg s.world a).map (fun w => { s with world := w })
  | .register jid group => some (s.registerGroup jid group)
  | .store m => some (s.setApp { s.app with messages := storeMessage s.app.messages m })
  | .send jid text uuid now failure =>
    match sendMessage cfg s.app jid text uuid now failure with
    | .ok app => some (s.setApp app)
    | .error _ => some s
  | .save => some (s.setApp (saveState s.app))
  | .restart =>
    (loadState interp s.app s.groupRows).map (fun app =>
      { s with world := { s.world with app := app, flights := fun _ => none } })

/-- A registration sets the group in memory, and in the table where it does not raise. -/
theorem registerGroup_cases (s : Installation) (jid : String) (group : RegisteredGroup) :
    ∃ rows, s.registerGroup jid group =
        { world := { s.world with app :=
            { s.app with registeredGroups := s.app.registeredGroups.set jid group } }
          groupRows := rows } ∧
      (setRegisteredGroup s.groupRows jid group = .ok rows ∨
        (∃ e, setRegisteredGroup s.groupRows jid group = .error e) ∧ rows = s.groupRows) := by
  cases hset : setRegisteredGroup s.groupRows jid group with
  | ok rows =>
    refine ⟨rows,?_,.inl rfl⟩
    simp only [registerGroup, setApp, hset]
  | error e =>
    refine ⟨s.groupRows,?_,.inr ⟨⟨e,rfl⟩,rfl⟩⟩
    simp only [registerGroup, setApp, hset]

/-- A call of `send_message` stores its row, unless it raises. -/
theorem send_cases {cfg : Config} {interp : Interp} {s t : Installation} {jid text uuid now : String}
    {failure : Option PyExc} (h : step cfg interp s (.send jid text uuid now failure) = some t) :
    t = s ∨ t = s.setApp
      { s.app with
        sent := s.app.sent ++ [(jid,text)]
        messages := storeMessage s.app.messages (sentRow cfg jid text uuid now) } := by
  simp only [step] at h
  split at h
  · rename_i app hsend
    cases h
    cases sendMessage_ok hsend
    exact .inr rfl
  · cases h
    exact .inl rfl

/-- A new process has the chats and the cursors that the database gives, and no call in flight. -/
theorem restart_cases {cfg : Config} {interp : Interp} {s t : Installation}
    (h : step cfg interp s .restart = some t) :
    ∃ cursors groups,
      loadCursors interp (s.app.routerState.get? "last_agent_timestamp") = some cursors ∧
        getAllRegisteredGroups interp s.groupRows = some groups ∧
        t = { s with world :=
          { s.world with
            app :=
              { s.app with
                registeredGroups := groups
                lastTimestamp := (s.app.routerState.get? "last_timestamp").getD ""
                lastAgentTimestamp := cursors
                sessions := s.app.savedSessions }
            flights := fun _ => none } } := by
  obtain ⟨app,hload,rfl⟩ := Option.map_eq_some_iff.mp h
  obtain ⟨cursors,hcursors,hload⟩ := Option.bind_eq_some_iff.mp hload
  obtain ⟨groups,hgroups,rfl⟩ := Option.map_eq_some_iff.mp hload
  exact ⟨cursors,groups,hcursors,hgroups,rfl⟩

end Installation

section Loading
variable {interp : Interp}

private theorem foldlM_texts (l : List (String × String)) (acc : Dict String String) :
    (l.map (fun (k, v) => (k,str v))).foldlM (fun (texts : Dict String String) field =>
      match field.2 with
      | .str text => some (texts.set field.1 text)
      | _ => none) acc = some (l.foldl (fun texts p => texts.set p.1 p.2) acc) := by
  induction l generalizing acc with
  | nil => rfl
  | cons p rest ih => exact ih (acc.set p.1 p.2)

private theorem entries_foldl_set (l : List (String × String)) (acc : Dict String String) :
    (l.foldl (fun texts p => texts.set p.1 p.2) acc).entries =
      l.foldl (fun acc p => Dict.insert p.1 p.2 acc) acc.entries := by
  induction l generalizing acc with
  | nil => rfl
  | cons p rest ih => exact ih (acc.set p.1 p.2)

theorem textsOf_entries (d : Dict String String) :
    textsOf (d.entries.map (fun (k, v) => (k,str v))) = some d := by
  rw [textsOf, foldlM_texts]
  refine congrArg some (Dict.eq_of_entries ((entries_foldl_set d.entries Dict.empty).trans ?_))
  have hnodup : (([] ++ d.entries).map Prod.fst).Nodup := d.nodup
  exact Dict.foldl_insert hnodup

/-- The stored cursors are those in memory. -/
def Saved (interp : Interp) (s : AppState) : Prop :=
  loadCursors interp (s.routerState.get? "last_agent_timestamp") = some s.lastAgentTimestamp

/-- `load_state` reads back the cursors that `save_state` wrote. -/
theorem saved_saveState (hdepth : 0 < interp.depth) (s : AppState) : Saved interp (saveState s) := by
  have hloads : ∀ d : Dict String String,
      loads interp (dumps (obj (d.entries.map (fun (k, v) => (k,str v))))) =
        .ok (obj (d.entries.map (fun (k, v) => (k,str v)))) := by
    intro d
    refine loads_dumps hdepth ⟨?_,?_⟩
    · intro p hp
      obtain ⟨q,_,rfl⟩ := List.mem_map.mp hp
      exact .inr ⟨q.2,rfl⟩
    · rw [List.map_map]
      exact d.nodup
  have hraw : (saveState s).routerState.get? "last_agent_timestamp" = some (String.ofList
      (dumps (obj ((saveState s).lastAgentTimestamp.entries.map (fun (k, v) => (k,str v)))))) := by
    simp only [saveState]
    rw [Dict.get?_set_self]
  have hne : String.ofList (dumps (obj ((saveState s).lastAgentTimestamp.entries.map
      (fun (k, v) => (k,str v))))) ≠ "" := by
    simp [dumps, String.ofList_eq_empty_iff]
  rw [Saved, hraw, loadCursors, if_neg hne, String.toList_ofList, hloads]
  exact textsOf_entries _

theorem saved_commitCursor (hdepth : 0 < interp.depth) {s : AppState} (h : Saved interp s) (run : Run) :
    Saved interp (commitCursor s run) := by
  rw [commitCursor]
  split
  · exact h
  · exact saved_saveState hdepth _

theorem saved_keepSession {s : AppState} (h : Saved interp s) (run : Run) (result : AgentOutput) :
    Saved interp (keepSession s run result) := by
  rw [keepSession]
  split
  · exact h
  · split
    · exact h
    · exact h

/-- The running app stores its cursors with every change. -/
theorem saved_step {cfg : Config} (hdepth : 0 < interp.depth) {w w' : World} {a : Action}
    (h : Saved interp w.app) (hstep : step cfg w a = some w') : Saved interp w'.app := by
  rcases app_step hstep with ⟨messages,sent,happ⟩ | ⟨flight,result,happ,_⟩
  · rw [happ]
    exact h
  · rw [happ]
    exact saved_keepSession (saved_commitCursor hdepth h flight.run) flight.run result

end Loading

/-- A parser with a low limit on nesting. -/
def localInterp : Interp := ⟨String.ofList,10⟩

end NanoClaw.App
