import NanoClaw.App.Restart
import NanoClaw.App.Service

/-! The service from one process to the next. A process may end at any moment, and the next one starts
on what the database holds: its tables are all that is left. -/
namespace NanoClaw.App
open Store Channels Execution Json
variable {F : Type}

/-- `build_default_main_group`. -/
def buildDefaultMainGroup (cfg : Config) (now : String) : String × RegisteredGroup :=
  ("local:main",{
    name := "Main"
    folder := "main"
    trigger := "@" ++ cfg.assistantName
    addedAt := now
    requiresTrigger := some false
    isMain := some true })

/-- The settings of a queue. -/
structure Limits where
  maxConcurrent : Int
  maxRetries : Int
  baseRetryMs : Int
  maxRetryMs : Int
  closes : Bool

def Limits.queue (l : Limits) : GroupQueue F :=
  GroupQueue.init l.maxConcurrent l.maxRetries l.baseRetryMs l.maxRetryMs true l.closes

/-- A service and the rows of `registered_groups`. -/
structure Lifetime (F : Type) where
  service : Service F
  groupRows : List GroupRow

namespace Lifetime

/-- `restart` ends the process wherever it is, and starts the next. -/
inductive Event (F : Type) where
  | service (a : Service.Action F)
  | restart (now : String)

variable (cfg : Config) (interp : Interp) (limits : Limits)

/-- `_run` up to its services: the app on the database, with its main group registered. None where
reading the tables or writing them raises. -/
def run (now : String) (db : AppState) (rows : List GroupRow) :
    Option (AppState × List GroupRow) :=
  (loadState interp db rows).bind fun app =>
    let (mainJid,mainGroup) := buildDefaultMainGroup cfg now
    if (app.registeredGroups.get? mainJid).isSome then some (app,rows)
    else
      match setRegisteredGroup rows mainJid mainGroup with
      | .ok rows =>
        some ({ app with registeredGroups := app.registeredGroups.set mainJid mainGroup },rows)
      | .error _ => none

def boot (now : String) (db : AppState) (rows : List GroupRow) : Option (Lifetime F) :=
  (run cfg interp now db rows).map fun (app,rows) => ⟨Service.start cfg limits.queue app,rows⟩

def step (s : Lifetime F) : Event F → Option (Lifetime F)
  | .service a => (Service.step cfg s.service a).map (fun service => { s with service })
  | .restart now => boot cfg interp limits now s.service.app s.groupRows

end Lifetime

section Apps
variable {cfg : Config} {interp : Interp} {s t : Service F} {a : Service.Action F}

namespace Service

/-- What a step does to the app: rows and replies apart, only a call that ends changes it. -/
theorem app_step (h : step cfg s a = some t) :
    (∃ messages sent, t.app = { s.app with messages, sent }) ∨
      ∃ flight result, t.app = (finishRun s.app flight result).1 := by
  have hended {i : Nat} {g : String} {x : AppState} {read : List NewMessage} {done : Ending}
      {ended : Except PyExc Bool} (hend : { s with app := x }.endCall i g read done ended = some t) :
      t.app = x := by
    obtain ⟨queue,_,rfl⟩ := Option.map_eq_some_iff.mp hend
    rfl
  cases a with
  | inbound allowlist m =>
    rw [step] at h
    split_ifs at h with htakes
    · cases h
      exact .inl ⟨_,_,by rw [onInboundMessage, if_pos htakes]⟩
    · cases h
      exact .inl ⟨_,_,rfl⟩
  | post jid text uuid now failure =>
    rw [step] at h
    split at h
    · rename_i app hsend
      cases h
      exact .inl ⟨_,_,sendMessage_ok hsend⟩
    · cases h
      exact .inl ⟨_,_,rfl⟩
  | enqueueTask g taskId fn => cases h; exact .inl ⟨_,_,rfl⟩
  | notifyIdle g => cases h; exact .inl ⟨_,_,rfl⟩
  | begin allowlist i =>
    obtain ⟨queue,_,h⟩ := Option.bind_eq_some_iff.mp h
    dsimp only at h
    split at h
    · split at h
      · cases h
        exact .inl ⟨_,_,rfl⟩
      · obtain ⟨_,_,rfl⟩ := Option.map_eq_some_iff.mp h
        exact .inl ⟨_,_,rfl⟩
      · obtain ⟨_,_,rfl⟩ := Option.map_eq_some_iff.mp h
        exact .inl ⟨_,_,rfl⟩
    · cases h
      exact .inl ⟨_,_,rfl⟩
  | output i out uuid now failure =>
    obtain ⟨⟨g,flight⟩,_,h⟩ := Option.bind_eq_some_iff.mp h
    dsimp only at h
    split at h
    · exact .inl ⟨_,_,hended (x := s.app) h⟩
    · rename_i app run hout
      cases h
      rcases (onOutput_sent hout).2 with rfl | ⟨text,rfl⟩
      · exact .inl ⟨_,_,rfl⟩
      · exact .inl ⟨_,_,rfl⟩
  | finish i result =>
    obtain ⟨⟨g,flight⟩,_,h⟩ := Option.bind_eq_some_iff.mp h
    exact .inr ⟨flight.run,result,hended h⟩
  | fail i exc =>
    obtain ⟨⟨g,flight⟩,_,h⟩ := Option.bind_eq_some_iff.mp h
    exact .inl ⟨_,_,hended (x := s.app) h⟩
  | finishTask i outcome =>
    rw [step] at h
    split at h
    · obtain ⟨_,_,rfl⟩ := Option.map_eq_some_iff.mp h
      exact .inl ⟨_,_,rfl⟩
    · cases h
  | fireRetry i =>
    obtain ⟨_,_,rfl⟩ := Option.map_eq_some_iff.mp h
    exact .inl ⟨_,_,rfl⟩

theorem registeredGroups_step (h : step cfg s a = some t) :
    t.app.registeredGroups = s.app.registeredGroups := by
  rcases app_step h with ⟨messages,sent,happ⟩ | ⟨flight,result,happ⟩
  · rw [happ]
  · rw [happ, registeredGroups_finishRun]

/-- The running app stores its cursors with every change. -/
theorem saved_step (hdepth : 0 < interp.depth) (h : Saved interp s.app) (hstep : step cfg s a = some t) :
    Saved interp t.app := by
  rcases app_step hstep with ⟨messages,sent,happ⟩ | ⟨flight,result,happ⟩
  · rw [happ]
    exact h
  · rw [happ, finishRun]
    split
    · exact saved_keepSession (saved_commitCursor hdepth h flight) flight result
    · exact h

end Service
end Apps

namespace Lifetime
section Boots
variable {cfg : Config} {interp : Interp} {limits : Limits}

/-- The folder of the main chat is free for it. -/
def Free (rows : List GroupRow) : Prop :=
  (∃ row ∈ rows, row.jid = "local:main") ∨ ∀ row ∈ rows, row.folder ≠ "main"

/-- What a process keeps for the next one. -/
structure Kept (cfg : Config) (interp : Interp) (s : Lifetime F) : Prop where
  inv : s.service.Inv cfg
  saved : Saved interp s.service.app
  table : GroupTable interp s.groupRows
  main : ∃ row ∈ s.groupRows, row.jid = "local:main"
  chats : ∀ jid, (s.service.app.registeredGroups.get? jid).isSome ↔ ∃ row ∈ s.groupRows, row.jid = jid

/-- What `_run` makes of a database: the chats of its rows, with the main chat among them. -/
structure Loads (interp : Interp) (db : AppState) (rows : List GroupRow) (cursors : Dict String String)
    (app : AppState) (rows' : List GroupRow) : Prop where
  messages : app.messages = db.messages
  stored : app.routerState = db.routerState
  cursors : app.lastAgentTimestamp = cursors
  table : GroupTable interp rows'
  main : ∃ row ∈ rows', row.jid = "local:main"
  same : (∃ row ∈ rows, row.jid = "local:main") → rows' = rows
  chats : ∀ jid, (app.registeredGroups.get? jid).isSome ↔ ∃ row ∈ rows', row.jid = jid

theorem run_loads (cfg : Config) (now : String) {db : AppState} {rows : List GroupRow} {cursors : Dict String String}
    (hdepth : 3 ≤ interp.depth) (htable : GroupTable interp rows) (hfree : Free rows)
    (hcursors : loadCursors interp (db.routerState.get? "last_agent_timestamp") = some cursors) :
    ∃ app rows', run cfg interp now db rows = some (app,rows') ∧ Loads interp db rows cursors app rows' := by
  obtain ⟨groups,hgroups,hrows,hothers⟩ := htable.getAllRegisteredGroups
  have hknown (jid : String) : (groups.get? jid).isSome ↔ ∃ row ∈ rows, row.jid = jid := by
    constructor
    · intro hsome
      by_contra hno
      rw [hothers jid (fun row hrow he => hno ⟨row,hrow,he⟩)] at hsome
      cases hsome
    · rintro ⟨row,hrow,rfl⟩
      rw [hrows row hrow]
      exact htable.read row hrow
  let app : AppState := { db with
    registeredGroups := groups
    lastTimestamp := (db.routerState.get? "last_timestamp").getD ""
    lastAgentTimestamp := cursors
    sessions := db.savedSessions }
  have hload : loadState interp db rows = some app := by
    rw [loadState, hcursors, Option.bind_some, hgroups]
    rfl
  by_cases hmain : ∃ row ∈ rows, row.jid = "local:main"
  · refine ⟨app,rows,?_,rfl,rfl,rfl,htable,hmain,fun _ => rfl,hknown⟩
    rw [run, hload, Option.bind_some]
    exact if_pos ((hknown "local:main").mpr hmain)
  · have hvalid : isValidGroupFolder "main" = true := by decide +kernel
    let mainGroup := (buildDefaultMainGroup cfg now).2
    obtain ⟨rows',hset⟩ : ∃ rows', setRegisteredGroup rows "local:main" mainGroup = .ok rows' :=
      setRegisteredGroup_succeeds hvalid rfl
    have htable' := htable.set hdepth hset
    obtain ⟨_,row,hjid,_,_,rfl⟩ := setRegisteredGroup_stored hdepth hset
    have hkeep : rows.filter (fun r => r.jid ≠ "local:main" ∧ r.folder ≠ "main") = rows :=
      List.filter_eq_self.mpr (fun r hr =>
        decide_eq_true ⟨fun he => hmain ⟨r,hr,he⟩,hfree.resolve_left hmain r hr⟩)
    have hmem : ∀ r, r ∈ rows.filter (fun r => r.jid ≠ "local:main" ∧ r.folder ≠ "main") ++ [row] ↔
        r ∈ rows ∨ r = row := by
      intro r
      rw [hkeep, List.mem_append, List.mem_singleton]
    refine ⟨{ app with registeredGroups := groups.set "local:main" mainGroup },_,?_,rfl,rfl,rfl,htable',
      ⟨row,(hmem row).mpr (.inr rfl),hjid⟩,fun h => absurd h hmain,fun jid => ?_⟩
    · have hnew : ¬(app.registeredGroups.get? "local:main").isSome := fun h => hmain ((hknown _).mp h)
      have hrun : run cfg interp now db rows = if (app.registeredGroups.get? "local:main").isSome then
          some (app,rows)
        else
          match setRegisteredGroup rows "local:main" mainGroup with
          | .ok rows =>
            some ({ app with registeredGroups := app.registeredGroups.set "local:main" mainGroup },rows)
          | .error _ => none := by
        rw [run, hload, Option.bind_some]
        rfl
      rw [hrun, if_neg hnew, hset]
    · by_cases hj : jid = "local:main"
      · subst hj
        rw [Dict.get?_set_self]
        exact ⟨fun _ => ⟨row,(hmem row).mpr (.inr rfl),hjid⟩,fun _ => rfl⟩
      · rw [Dict.get?_set_ne _ _ hj, hknown]
        constructor
        · rintro ⟨r,hr,he⟩
          exact ⟨r,(hmem r).mpr (.inl hr),he⟩
        · rintro ⟨r,hr,he⟩
          rcases (hmem r).mp hr with hr | rfl
          · exact ⟨r,hr,he⟩
          · exact absurd (he.symm.trans hjid) hj

/-- A process that starts has a call to come for whatever is pending. -/
theorem boot_kept (cfg : Config) (limits : Limits) (now : String) {db : AppState} {rows : List GroupRow} {cursors : Dict String String}
    (hdepth : 3 ≤ interp.depth) (htable : GroupTable interp rows) (hfree : Free rows)
    (hcursors : loadCursors interp (db.routerState.get? "last_agent_timestamp") = some cursors) :
    ∃ t : Lifetime F, boot cfg interp limits now db rows = some t ∧ Kept cfg interp t ∧
      Loads interp db rows cursors t.service.app t.groupRows ∧
      ∀ g, (t.service.app.registeredGroups.get? g).isSome → ∀ m ∈ t.service.pending cfg g,
        t.service.queue.Awake g := by
  obtain ⟨app,rows',hrun,hloads⟩ := run_loads cfg now hdepth htable hfree hcursors
  obtain ⟨_,hawake⟩ := (Service.runs_init _ _ _ _ _).recover (F := F) (recoverPendingMessages cfg app)
  have hsaved : Saved interp app := by
    rw [Saved, hloads.stored, hloads.cursors]
    exact hcursors
  refine ⟨⟨Service.start cfg limits.queue app,rows'⟩,by rw [boot, hrun]; rfl,
    ⟨Service.inv_start (Service.runs_init _ _ _ _ _) app,hsaved,hloads.table,hloads.main,hloads.chats⟩,hloads,
    fun g hg m hm => hawake g (.inr ?_)⟩
  exact mem_recoverPendingMessages.mpr ⟨hg,hasMessagesSince_iff_getMessagesSince.mp
    (hasMessagesSince_iff.mpr ⟨m,mem_pendingSince.mp hm⟩)⟩

theorem Kept.restart {s : Lifetime F} (h : Kept cfg interp s) (limits : Limits)
    (hdepth : 3 ≤ interp.depth) (now : String) :
    ∃ t, step cfg interp limits s (.restart now) = some t ∧ Kept cfg interp t ∧
      ∀ g, ((t.service.app.registeredGroups.get? g).isSome ↔ (s.service.app.registeredGroups.get? g).isSome) ∧
        t.service.pending cfg g = s.service.pending cfg g ∧
          ((s.service.app.registeredGroups.get? g).isSome →
            ∀ m ∈ s.service.pending cfg g, t.service.queue.Awake g) := by
  obtain ⟨t,hboot,hkept,hloads,hawake⟩ := boot_kept (F := F) cfg limits now
    hdepth h.table (.inl h.main) h.saved
  have hchats (g : String) : (t.service.app.registeredGroups.get? g).isSome ↔
      (s.service.app.registeredGroups.get? g).isSome := by
    rw [hkept.chats, h.chats, hloads.same h.main]
  have hpending (g : String) : t.service.pending cfg g = s.service.pending cfg g := by
    simp only [Service.pending, AppState.cursor, hloads.messages, hloads.cursors]
  refine ⟨t,hboot,hkept,fun g => ⟨hchats g,hpending g,fun hg m hm => ?_⟩⟩
  exact hawake g ((hchats g).mpr hg) m (hpending g ▸ hm)

theorem step_kept {s t : Lifetime F} {e : Event F} (hdepth : 3 ≤ interp.depth) (h : Kept cfg interp s)
    (hstep : step cfg interp limits s e = some t) : Kept cfg interp t := by
  cases e with
  | service a =>
    obtain ⟨service,hservice,rfl⟩ := Option.map_eq_some_iff.mp hstep
    refine ⟨Service.step_inv h.inv hservice,Service.saved_step (by omega) h.saved hservice,h.table,h.main,
      fun jid => ?_⟩
    rw [Service.registeredGroups_step hservice]
    exact h.chats jid
  | restart now =>
    obtain ⟨t',hboot,hkept,_⟩ := h.restart limits hdepth now
    cases Option.some.inj (hstep.symm.trans hboot)
    exact hkept

/-- A process may end at any moment of any run of processes on one database, whose groups can be read and
leave the folder of the main chat free for it. The next one starts, on the same chats with the same
messages pending, and each chat that has some has a call to come; at every moment each pending message
has a call to come or was seen by one. -/
theorem crash_loses_no_message (cfg : Config) {interp : Interp} (limits : Limits)
    (hdepth : 3 ≤ interp.depth) {now : String} {db : AppState} {rows : List GroupRow}
    (htable : GroupTable interp rows) (hfree : Free rows) {s₀ s : Lifetime F}
    (hboot : boot cfg interp limits now db rows = some s₀)
    (h : Reachable (step cfg interp limits) s₀ s) :
    (∀ g, (s.service.app.registeredGroups.get? g).isSome → ∀ m ∈ s.service.pending cfg g,
        s.service.Stands cfg g m) ∧
      ∀ now, ∃ t, step cfg interp limits s (.restart now) = some t ∧
        ∀ g, ((t.service.app.registeredGroups.get? g).isSome ↔
            (s.service.app.registeredGroups.get? g).isSome) ∧
          t.service.pending cfg g = s.service.pending cfg g ∧
            ((s.service.app.registeredGroups.get? g).isSome →
              ∀ m ∈ s.service.pending cfg g, t.service.queue.Awake g) := by
  obtain ⟨loaded,hrun,_⟩ := Option.map_eq_some_iff.mp hboot
  obtain ⟨app,hload,_⟩ := Option.bind_eq_some_iff.mp hrun
  obtain ⟨cursors,hcursors,_⟩ := Option.bind_eq_some_iff.mp hload
  obtain ⟨t,ht,hkept,_⟩ := boot_kept (F := F) cfg limits now hdepth htable hfree
    hcursors
  obtain rfl : s₀ = t := Option.some.inj (hboot.symm.trans ht)
  have hall : Kept cfg interp s := h.invariant (fun _ _ _ h hstep => step_kept hdepth h hstep) hkept
  refine ⟨hall.inv.stands,fun now => ?_⟩
  obtain ⟨t,ht,_,hsame⟩ := hall.restart limits hdepth now
  exact ⟨t,ht,hsame⟩

private def crashInterp : Interp := ⟨String.ofList,3⟩

private def crashLimits : Limits := ⟨1,0,10,10,true⟩

/-- A process that crashes while its agent answers the first message. -/
private def crashing : List (Event Unit) :=
  [.service (.inbound everyone (firstMessage "local:main")),
    .service (.begin everyone 0)]

theorem crash_loses_no_message_first : ∃ s₀ s : Lifetime Unit,
    boot localCfg crashInterp crashLimits "" Installation.fresh.app [] = some s₀ ∧
      exec (step localCfg crashInterp crashLimits) s₀ crashing = some s ∧
      (s.service.pending localCfg "local:main").length = 1 ∧
      ∃ t, step localCfg crashInterp crashLimits s (.restart "") = some t ∧
        ∀ m ∈ s.service.pending localCfg "local:main", t.service.queue.Awake "local:main" := by
  have hruns : ((boot localCfg crashInterp crashLimits "" Installation.fresh.app []).bind (fun s₀ =>
      (exec (step localCfg crashInterp crashLimits) s₀ crashing).map (fun s =>
        ((s.service.pending localCfg "local:main").length,
          (s.service.app.registeredGroups.get? "local:main").isSome)))) = some (1,true) := by decide +kernel
  obtain ⟨s₀,hboot,hruns⟩ := Option.bind_eq_some_iff.mp hruns
  obtain ⟨s,he,hpair⟩ := Option.map_eq_some_iff.mp hruns
  obtain ⟨hlength,hknown⟩ := Prod.mk.inj hpair
  obtain ⟨_,hrestart⟩ := crash_loses_no_message localCfg crashLimits (by decide) GroupTable.nil
    (.inr (by simp)) hboot ⟨crashing,he⟩
  obtain ⟨t,ht,hsame⟩ := hrestart ""
  exact ⟨s₀,s,hboot,he,hlength,t,ht,(hsame "local:main").2.2 hknown⟩

end Boots
end Lifetime

end NanoClaw.App
