import NanoClaw.App.Conversation

/-! The sessions of the groups, in memory and in the table: what the calls for messages, `save_state` and a
new process do to them. -/
namespace NanoClaw.App
open Store Execution

/-- The session that a call keeps. -/
def keptSession (run : Run) (result : AgentOutput) : List (String × String) :=
  if run.succeeds result then
    match result.newSessionId with
    | none => []
    | some id => if id = "" then [] else [(run.folder,id)]
  else []

namespace Installation

/-- The session that an action brings: a call ends well, and its agent has returned one. -/
def returned (s : Installation) : LifeAction → List (String × String)
  | .app (.finish chatJid result) => (s.world.flights chatJid).toList.flatMap (keptSession ·.run result)
  | _ => []

/-- A row for each folder, the later over the earlier ones. -/
def setSessions (d : Dict String String) (sessions : List (String × String)) : Dict String String :=
  sessions.foldl (fun d entry => d.set entry.1 entry.2) d

/-- Sessions in memory are those of the table. -/
def Held (s : AppState) : Prop :=
  ∀ folder id, s.sessions.get? folder = some id → s.savedSessions.get? folder = some id

/-- Calls in flight are run in sessions that their folder has. -/
def RunsIn (has : String → String → Prop) (s : Installation) : Prop :=
  ∀ jid flight id, s.world.flights jid = some flight → flight.run.sessionId = some id →
    has flight.run.folder id

end Installation

section Calls
variable {cfg : Config} {s : AppState} {run : Run} {result : AgentOutput}

theorem savedSessions_saveState : (saveState s).savedSessions = s.savedSessions := by
  simp only [saveState]
  split <;> rfl

theorem savedSessions_commitCursor : (commitCursor s run).savedSessions = s.savedSessions := by
  rw [commitCursor]
  split
  · rfl
  · exact savedSessions_saveState

theorem keepSession_eq (h : run.succeeds result = true) :
    (keepSession s run result).savedSessions =
        Installation.setSessions s.savedSessions (keptSession run result) ∧
      (keepSession s run result).sessions =
        Installation.setSessions s.sessions (keptSession run result) := by
  rw [keepSession, keptSession, if_pos h]
  cases result.newSessionId with
  | none => exact ⟨rfl,rfl⟩
  | some id =>
    dsimp only
    split_ifs
    · exact ⟨rfl,rfl⟩
    · exact ⟨rfl,rfl⟩

theorem mem_keptSession {e : String × String} (h : e ∈ keptSession run result) :
    e.1 = run.folder ∧ result.newSessionId = some e.2 := by
  rw [keptSession] at h
  split_ifs at h
  · cases hid : result.newSessionId with
    | none =>
      rw [hid] at h
      cases h
    | some id =>
      rw [hid] at h
      dsimp only at h
      split_ifs at h
      · cases h
      · cases List.mem_singleton.mp h
        exact ⟨rfl,rfl⟩
  · cases h

theorem savedSessions_finishRun :
    (finishRun s run result).1.savedSessions =
      Installation.setSessions s.savedSessions (keptSession run result) := by
  rw [finishRun]
  split_ifs with h
  · rw [(keepSession_eq h).1, savedSessions_commitCursor]
  · rw [keptSession, if_neg h]
    rfl

/-- An output leaves the folder of its call and the session it is run in. -/
theorem onOutput_run {s' : AppState} {run' : Run} {out : AgentOutput} {uuid now : String}
    {failure : Option PyExc} (h : onOutput cfg s run out uuid now failure = .ok (s',run')) :
    run'.folder = run.folder ∧ run'.sessionId = run.sessionId := by
  simp only [onOutput] at h
  split_ifs at h
  · cases h
    exact ⟨rfl,rfl⟩
  · split at h
    · cases h
    · cases h
      exact ⟨rfl,rfl⟩

/-- A filter keeps no entry that was not there. -/
theorem get?_filterKeys_some {d : Dict String String} {p : String → Bool} {folder id : String}
    (h : (d.filterKeys p).get? folder = some id) : d.get? folder = some id := by
  have hmem := Dict.mem_of_lookup h
  have hp : p folder = true := (List.mem_filter.mp hmem).2
  rwa [Dict.get?_filterKeys d hp] at h

theorem sessions_saveState {folder id : String} (h : (saveState s).sessions.get? folder = some id) :
    s.sessions.get? folder = some id := by
  simp only [saveState] at h
  split_ifs at h
  · exact h
  · exact get?_filterKeys_some h

theorem sessions_of_commitCursor {folder id : String}
    (h : (commitCursor s run).sessions.get? folder = some id) : s.sessions.get? folder = some id := by
  rw [commitCursor] at h
  split at h
  · exact h
  · exact (sessions_saveState h :)

/-- Setting the same sessions in two tables keeps the one within the other. -/
theorem setSessions_mono {d d' : Dict String String}
    (h : ∀ folder id, d.get? folder = some id → d'.get? folder = some id)
    (sessions : List (String × String)) : ∀ folder id,
      (Installation.setSessions d sessions).get? folder = some id →
        (Installation.setSessions d' sessions).get? folder = some id := by
  induction sessions generalizing d d' with
  | nil => exact h
  | cons e sessions ih =>
    refine ih (fun folder id hid => ?_)
    rcases eq_or_ne folder e.1 with rfl | hfolder
    · rw [Dict.get?_set_self] at hid ⊢
      exact hid
    · rw [Dict.get?_set_ne _ _ hfolder] at hid ⊢
      exact h folder id hid

/-- A session is set in memory and in the table alike. -/
theorem held_finishRun (h : Installation.Held s) : Installation.Held (finishRun s run result).1 := by
  have hcommit : Installation.Held (commitCursor s run) := by
    intro folder id hid
    rw [savedSessions_commitCursor]
    exact h folder id (sessions_of_commitCursor hid)
  rw [finishRun]
  split_ifs with hsucceeds
  · obtain ⟨hsaved,hsessions⟩ := keepSession_eq (s := commitCursor s run) hsucceeds
    rw [Installation.Held, hsaved, hsessions]
    exact setSessions_mono hcommit _
  · exact h

end Calls

section Steps
variable {cfg : Config} {w w' : World} {b : Action}

/-- A step of the running app ends a call, or leaves all sessions. -/
theorem sessions_app_step (h : App.step cfg w b = some w') :
    (∃ chatJid result flight, b = .finish chatJid result ∧ w.flights chatJid = some flight ∧
        w' = { w with
          app := (finishRun w.app flight.run result).1
          delivered := w.delivered ++ World.committed flight result }.setFlight chatJid none) ∨
      (∀ chatJid result, b ≠ .finish chatJid result) ∧ w'.app.sessions = w.app.sessions ∧
        w'.app.savedSessions = w.app.savedSessions := by
  by_cases hfinish : ∃ chatJid result, b = .finish chatJid result
  · obtain ⟨chatJid,result,rfl⟩ := hfinish
    obtain ⟨flight,hflight,rfl⟩ := Option.map_eq_some_iff.mp h
    exact Or.inl ⟨chatJid,result,flight,rfl,hflight,rfl⟩
  · have hother : ∀ chatJid result, b ≠ .finish chatJid result :=
      fun chatJid result hb => hfinish ⟨chatJid,result,hb⟩
    rcases app_step h with ⟨messages,sent,hsame⟩ | ⟨_,result,_,chatJid,hb,_⟩
    · rw [hsame]
      exact Or.inr ⟨hother,rfl,rfl⟩
    · exact absurd hb (hother chatJid result)

/-- A call in flight has the folder and the session it began with. -/
theorem flights_app_step (h : App.step cfg w b = some w') {jid : String} {f : Flight}
    (hf : w'.flights jid = some f) :
    (∃ f₀, w.flights jid = some f₀ ∧ f.run.folder = f₀.run.folder ∧
        f.run.sessionId = f₀.run.sessionId) ∨
      w.app.sessions.get? f.run.folder = f.run.sessionId := by
  cases b with
  | inbound allowlist m =>
    cases h
    exact Or.inl ⟨f,hf,rfl,rfl⟩
  | process allowlist chatJid =>
    rw [step] at h
    cases hflight : w.flights chatJid with
    | some flight =>
      rw [hflight] at h
      cases h
    | none =>
      rw [hflight] at h
      dsimp only at h
      cases hcall : processGroupMessages cfg allowlist w.app chatJid with
      | invokes run =>
        rw [hcall] at h
        cases h
        rcases eq_or_ne jid chatJid with rfl | hjid
        · simp only [World.setFlight, Function.update_self] at hf
          cases hf
          obtain ⟨group,_,_,hfolder,_,hsession,_⟩ := invokes_spec hcall
          right
          dsimp only
          rw [hfolder, hsession]
        · simp only [World.setFlight, Function.update_of_ne hjid] at hf
          exact Or.inl ⟨f,hf,rfl,rfl⟩
      | _ =>
        rw [hcall] at h
        cases h
        exact Or.inl ⟨f,hf,rfl,rfl⟩
  | output chatJid out uuid now failure =>
    obtain ⟨flight,hflight,rfl⟩ := Option.map_eq_some_iff.mp h
    left
    rcases eq_or_ne jid chatJid with rfl | hjid
    · cases hout : onOutput cfg w.app flight.run out uuid now failure with
      | error e =>
        simp only [hout, World.setFlight, Function.update_self] at hf
        cases hf
      | ok next =>
        obtain ⟨app,run⟩ := next
        rw [hout] at hf
        dsimp only at hf
        simp only [World.setFlight, Function.update_self] at hf
        cases hf
        exact ⟨flight,hflight,onOutput_run hout⟩
    · cases hout : onOutput cfg w.app flight.run out uuid now failure with
      | error e =>
        simp only [hout, World.setFlight, Function.update_of_ne hjid] at hf
        exact ⟨f,hf,rfl,rfl⟩
      | ok next =>
        rw [hout] at hf
        dsimp only at hf
        simp only [World.setFlight, Function.update_of_ne hjid] at hf
        exact ⟨f,hf,rfl,rfl⟩
  | finish chatJid result =>
    obtain ⟨flight,_,rfl⟩ := Option.map_eq_some_iff.mp h
    rcases eq_or_ne jid chatJid with rfl | hjid
    · simp only [World.setFlight, Function.update_self] at hf
      cases hf
    · simp only [World.setFlight, Function.update_of_ne hjid] at hf
      exact Or.inl ⟨f,hf,rfl,rfl⟩
  | fail chatJid =>
    obtain ⟨flight,_,rfl⟩ := Option.map_eq_some_iff.mp h
    rcases eq_or_ne jid chatJid with rfl | hjid
    · simp only [World.setFlight, Function.update_self] at hf
      cases hf
    · simp only [World.setFlight, Function.update_of_ne hjid] at hf
      exact Or.inl ⟨f,hf,rfl,rfl⟩

end Steps

namespace Installation
variable {cfg : Config} {interp : Json.Interp} {s t : Installation} {a : LifeAction}

/-- The actions that are no step of the running app leave its calls alone; they leave the table of the
sessions, and those in memory but for a new process and for `save_state`. -/
theorem step_frame (h : step cfg interp s a = some t) (happ : ∀ b, a ≠ .app b) :
    t.app.savedSessions = s.app.savedSessions ∧ s.returned a = [] ∧
      (t.world.flights = s.world.flights ∨ t.world.flights = fun _ => none) ∧
      (t.app.sessions = s.app.sessions ∨ t.app.sessions = (saveState s.app).sessions ∨
        t.app.sessions = s.app.savedSessions) := by
  cases a with
  | app b => exact absurd rfl (happ b)
  | register jid group =>
    cases h
    obtain ⟨rows,hrows,_⟩ := registerGroup_cases s jid group
    rw [hrows]
    exact ⟨rfl,rfl,Or.inl rfl,Or.inl rfl⟩
  | store m =>
    cases h
    exact ⟨rfl,rfl,Or.inl rfl,Or.inl rfl⟩
  | send jid text uuid now failure =>
    rcases send_cases h with rfl | rfl
    · exact ⟨rfl,rfl,Or.inl rfl,Or.inl rfl⟩
    · exact ⟨rfl,rfl,Or.inl rfl,Or.inl rfl⟩
  | save =>
    cases h
    exact ⟨savedSessions_saveState,rfl,Or.inl rfl,Or.inr (Or.inl rfl)⟩
  | restart =>
    obtain ⟨cursors,groups,_,_,rfl⟩ := restart_cases h
    exact ⟨rfl,rfl,Or.inr rfl,Or.inr (Or.inr rfl)⟩

/-- What an action does to the table of the sessions: what its agent returned is set. -/
theorem savedSessions_step (h : step cfg interp s a = some t) :
    t.app.savedSessions = setSessions s.app.savedSessions (s.returned a) := by
  by_cases happ : ∃ b, a = .app b
  · obtain ⟨b,rfl⟩ := happ
    obtain ⟨w,hw,rfl⟩ := Option.map_eq_some_iff.mp h
    rcases sessions_app_step hw with ⟨chatJid,result,flight,rfl,hflight,rfl⟩ | ⟨hother,_,hsaved⟩
    · simp only [returned, hflight, Option.toList_some, List.flatMap_singleton]
      exact savedSessions_finishRun
    · have hnone : s.returned (.app b) = [] := by
        cases b with
        | finish chatJid result => exact absurd rfl (hother chatJid result)
        | _ => rfl
      rw [hnone]
      exact hsaved
  · obtain ⟨hsaved,hreturned,_⟩ := step_frame h (fun b hb => happ ⟨b,hb⟩)
    rw [hsaved, hreturned]
    rfl

/-- Sessions in memory stay those of the table. -/
theorem held_step (hheld : Held s.app) (h : step cfg interp s a = some t) : Held t.app := by
  by_cases happ : ∃ b, a = .app b
  · obtain ⟨b,rfl⟩ := happ
    obtain ⟨w,hw,rfl⟩ := Option.map_eq_some_iff.mp h
    rcases sessions_app_step hw with ⟨chatJid,result,flight,rfl,_,rfl⟩ | ⟨_,hsessions,hsaved⟩
    · exact held_finishRun hheld
    · intro folder id hid
      exact (congrArg (·.get? folder) hsaved).trans
        (hheld folder id ((congrArg (·.get? folder) hsessions).symm.trans hid))
  · obtain ⟨hsaved,_,_,hsessions⟩ := step_frame h (fun b hb => happ ⟨b,hb⟩)
    intro folder id hid
    rw [hsaved]
    rcases hsessions with hsame | hsame | hsame
    · exact hheld folder id (hsame ▸ hid)
    · exact hheld folder id (sessions_saveState (hsame ▸ hid))
    · exact hsame ▸ hid

/-- A call is run in a session of the table. -/
theorem runsIn_step {has : String → String → Prop} (hheld : Held s.app)
    (hsaved : ∀ folder id, s.app.savedSessions.get? folder = some id → has folder id)
    (hruns : RunsIn has s) (h : step cfg interp s a = some t) : RunsIn has t := by
  intro jid flight id hflight hid
  by_cases happ : ∃ b, a = .app b
  · obtain ⟨b,rfl⟩ := happ
    obtain ⟨w,hw,rfl⟩ := Option.map_eq_some_iff.mp h
    rcases flights_app_step hw hflight with ⟨f₀,hf₀,hfolder,hsession⟩ | hsession
    · rw [hfolder]
      exact hruns jid f₀ id hf₀ (hsession ▸ hid)
    · exact hsaved _ _ (hheld _ _ (hsession.trans hid))
  · obtain ⟨_,_,hflights,_⟩ := step_frame h (fun b hb => happ ⟨b,hb⟩)
    rcases hflights with hsame | hnone
    · exact hruns jid flight id (hsame ▸ hflight) hid
    · rw [hnone] at hflight
      cases hflight

theorem mem_returned {e : String × String} (h : e ∈ s.returned a) :
    ∃ chatJid flight result, a = .app (.finish chatJid result) ∧
      s.world.flights chatJid = some flight ∧ e ∈ keptSession flight.run result := by
  cases a with
  | app b =>
    cases b with
    | finish chatJid result =>
      obtain ⟨flight,hflight,hkept⟩ := List.mem_flatMap.mp h
      exact ⟨chatJid,flight,result,rfl,Option.mem_toList.mp hflight,hkept⟩
    | _ => cases h
  | _ => cases h

/-- Sessions that a table has leave it as it is. -/
theorem setSessions_known {d : Dict String String} {sessions : List (String × String)}
    (h : ∀ e ∈ sessions, d.get? e.1 = some e.2) : setSessions d sessions = d := by
  induction sessions with
  | nil => rfl
  | cons e sessions ih =>
    rw [setSessions, List.foldl_cons, Dict.set_eq_self_iff.mpr (h e List.mem_cons_self)]
    exact ih (fun e' he' => h e' (List.mem_cons_of_mem _ he'))

theorem of_get?_setSessions {d : Dict String String} {sessions : List (String × String)}
    {folder id : String} (h : (setSessions d sessions).get? folder = some id) :
    d.get? folder = some id ∨ (folder,id) ∈ sessions := by
  induction sessions generalizing d with
  | nil => exact Or.inl h
  | cons e sessions ih =>
    rcases ih h with h | h
    · rcases eq_or_ne folder e.1 with rfl | hfolder
      · rw [Dict.get?_set_self] at h
        cases h
        exact Or.inr List.mem_cons_self
      · rw [Dict.get?_set_ne _ _ hfolder] at h
        exact Or.inl h
    · exact Or.inr (List.mem_cons_of_mem _ h)

end Installation

end NanoClaw.App
