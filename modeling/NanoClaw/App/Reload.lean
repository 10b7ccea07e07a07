import NanoClaw.App.LiveInstallation

/-! What a restart would give: a new process on the database as it is, next to the running app. -/
namespace NanoClaw.App
open Store Channels Execution Json Framing
variable {cfg : Config} {env : Outside} {interp : Interp}

namespace LiveInstallation

/-- A new app that loads the database now knows the same chats, as they are stored, and has the
cursor and the session of each. -/
def Agrees (interp : Interp) (s : LiveInstallation) : Prop :=
  ∃ app, loadState interp s.live.app s.groupRows = some app ∧ ∀ jid,
    app.registeredGroups.get? jid = (s.live.registeredGroups.get? jid).map (·.stored) ∧
      ∀ group, s.live.registeredGroups.get? jid = some group →
        app.lastAgentTimestamp.get? jid = s.live.lastAgentTimestamp.get? jid ∧
          (app.sessions.get? group.folder).map Json.str = s.live.sessions.get? group.folder

/-- A chat is registered for a folder that no other chat has, and whose session the running app has
not lost. A call that ends without an error has no new session for its group, or one that is a
text. -/
def Separate (s : LiveInstallation) : LiveAction → Prop
  | .register jid group =>
    (∀ jid' group', s.live.registeredGroups.get? jid' = some group' → jid' ≠ jid →
      group'.folder ≠ group.folder) ∧
      s.live.sessions.get? group.folder = (s.live.savedSessions.get? group.folder).map Json.str
  | .finish chatJid result =>
    ∀ run, s.flights chatJid = some run → (hasStatus "error" result || run.hadError) = false →
      (∃ jid group, s.live.registeredGroups.get? jid = some group ∧ group.folder = run.folder) →
        result.newSessionId.truthy = true → ∃ id, result.newSessionId = .str id
  | _ => True

theorem Passing.separate {s : LiveInstallation} {a : LiveAction} (h : Passing s a) : Separate s a := by
  cases a with
  | register jid group => exact h.elim
  | finish chatJid result =>
    intro run hrun herror
    rw [h run hrun] at herror
    cases herror
  | _ => trivial

/-- The sessions of the registered groups are stored as they are in memory. -/
def Paired (l : Live) : Prop :=
  ∀ jid group, l.registeredGroups.get? jid = some group →
    l.sessions.get? group.folder = (l.savedSessions.get? group.folder).map Json.str

/-- What is stored can be loaded. -/
structure Stored (interp : Interp) (s : LiveInstallation) : Prop where
  saved : Saved interp s.live.app
  table : GroupTable interp s.groupRows

/-- The table of groups holds the chats in memory, each as it is there. -/
structure Mirrored (interp : Interp) (s : LiveInstallation) : Prop where
  rows : ∀ row ∈ s.groupRows, ∃ group, s.live.registeredGroups.get? row.jid = some group ∧
    rowToRegisteredGroup interp row = some group.stored
  chats : ∀ jid, (s.live.registeredGroups.get? jid).isSome → ∃ row ∈ s.groupRows, row.jid = jid
  paired : Paired s.live

section Calls
variable {l : Live} {run : Run}

/-- `save_state` drops sessions in memory only, and none of a registered group. -/
theorem paired_saveState (h : Paired l) : Paired l.saveState := by
  intro jid group hgroup
  have hold := h jid group hgroup
  have hfolder : group.folder ∈ l.registeredGroups.values.map (·.folder) :=
    List.mem_map_of_mem (Dict.mem_values_of_get? hgroup)
  simp only [Live.saveState]
  split
  · exact hold
  · refine Eq.trans (Dict.get?_filterKeys _ ?_) hold
    exact decide_eq_true hfolder

theorem paired_commitCursor (h : Paired l) : Paired (l.commitCursor run) := by
  rw [Live.commitCursor]
  split
  · exact h
  · apply paired_saveState
    exact h

theorem saved_liveSave (hdepth : 0 < interp.depth) (l : Live) : Saved interp l.saveState.app :=
  saved_saveState hdepth l.app

theorem saved_liveCommit (hdepth : 0 < interp.depth) (h : Saved interp l.app) :
    Saved interp (l.commitCursor run).app := by
  rw [Live.commitCursor]
  split
  · exact h
  · exact saved_liveSave hdepth _

@[simp] theorem groups_liveCommit : (l.commitCursor run).registeredGroups = l.registeredGroups := by
  rw [Live.commitCursor]
  split <;> rfl

/-- A call keeps a new session in memory, and where it is a text, in its row too. -/
theorem keepSession_cases (newSessionId : Json) :
    (newSessionId.truthy = false ∧ (l.keepSession env run newSessionId).1 = l) ∨
      newSessionId.truthy = true ∧ ∃ saved, (l.keepSession env run newSessionId).1 =
          { l with sessions := l.sessions.set run.folder newSessionId, savedSessions := saved } ∧
        (∀ folder, folder ≠ run.folder → saved.get? folder = l.savedSessions.get? folder) ∧
        ∀ id, newSessionId = .str id → saved.get? run.folder = some id := by
  rw [Live.keepSession]
  cases htruthy : newSessionId.truthy with
  | false => exact .inl ⟨rfl,rfl⟩
  | true =>
    rw [if_neg (by simp)]
    refine .inr ⟨rfl,?_⟩
    cases hcolumn : columnText env.realText newSessionId with
    | error e =>
      refine ⟨l.savedSessions,rfl,fun _ _ => rfl,?_⟩
      rintro id rfl
      cases hcolumn
    | ok text =>
      cases text with
      | none =>
        refine ⟨l.savedSessions,rfl,fun _ _ => rfl,?_⟩
        rintro id rfl
        cases hcolumn
      | some text =>
        refine ⟨_,rfl,fun folder hne => Dict.get?_set_ne _ _ hne,?_⟩
        rintro id rfl
        cases hcolumn
        exact Dict.get?_set_self _ _ _

/-- What is kept of a session agrees exactly when it is a text, or no group has the folder. -/
theorem paired_keepSession_iff (h : Paired l) {newSessionId : Json} :
    Paired (l.keepSession env run newSessionId).1 ↔
      ((∃ jid group, l.registeredGroups.get? jid = some group ∧ group.folder = run.folder) →
        newSessionId.truthy = true → ∃ id, newSessionId = .str id) := by
  rcases @keepSession_cases env l run newSessionId with ⟨hfalse,he⟩ | ⟨_,saved,he,hothers,hown⟩
  · rw [he, hfalse]
    exact iff_of_true h (by simp)
  rw [he]
  constructor
  · rintro hpaired ⟨jid,group,hgroup,hfolder⟩ _
    have hkept := hpaired jid group hgroup
    simp only [hfolder, Dict.get?_set_self] at hkept
    obtain ⟨id,_,hid⟩ := Option.map_eq_some_iff.mp hkept.symm
    exact ⟨id,hid.symm⟩
  · intro htext jid group hgroup
    by_cases hfolder : group.folder = run.folder
    · obtain ⟨id,rfl⟩ := htext ⟨jid,group,hgroup,hfolder⟩ ‹_›
      simp only [hfolder, Dict.get?_set_self, hown id rfl, Option.map_some]
    · simp only [Dict.get?_set_ne _ _ hfolder, hothers _ hfolder]
      exact h jid group hgroup

theorem saved_liveKeep (h : Saved interp l.app) (newSessionId : Json) :
    Saved interp (l.keepSession env run newSessionId).1.app := by
  rcases @keepSession_cases env l run newSessionId with ⟨_,he⟩ | ⟨_,saved,he,_⟩
  · rw [he]
    exact h
  · rw [he]
    exact h

theorem groups_liveKeep (newSessionId : Json) :
    (l.keepSession env run newSessionId).1.registeredGroups = l.registeredGroups := by
  rcases @keepSession_cases env l run newSessionId with ⟨_,he⟩ | ⟨_,saved,he,_⟩ <;> rw [he]

end Calls

section Loading
variable {s t : LiveInstallation} {a : LiveAction}

/-- What loading gives. -/
theorem Stored.load (h : Stored interp s) :
    ∃ groups, loadState interp s.live.app s.groupRows = some
        { s.live.app with
          registeredGroups := groups
          lastTimestamp := (s.live.routerState.get? "last_timestamp").getD ""
          sessions := s.live.savedSessions } ∧
      (∀ row ∈ s.groupRows, groups.get? row.jid = rowToRegisteredGroup interp row) ∧
      ∀ jid, (∀ row ∈ s.groupRows, row.jid ≠ jid) → groups.get? jid = none := by
  obtain ⟨groups,hgroups,hrows,hothers⟩ := h.table.getAllRegisteredGroups
  refine ⟨groups,?_,hrows,hothers⟩
  rw [loadState, h.saved, Option.bind_some, hgroups]
  rfl

/-- A new app would agree exactly when memory is mirrored in the tables. -/
theorem Stored.agrees_iff (h : Stored interp s) : Agrees interp s ↔ Mirrored interp s := by
  obtain ⟨groups,hload,hrows,hothers⟩ := h.load
  constructor
  · rintro ⟨app,hload',hagrees⟩
    cases Option.some.inj (hload.symm.trans hload')
    refine ⟨fun row hrow => ?_,fun jid hjid => ?_,fun jid group hgroup => ?_⟩
    · obtain ⟨group,hread⟩ := Option.isSome_iff_exists.mp (h.table.read row hrow)
      have hgroup := (hagrees row.jid).1.symm.trans ((hrows row hrow).trans hread)
      obtain ⟨group',hmem,rfl⟩ := Option.map_eq_some_iff.mp hgroup
      exact ⟨group',hmem,hread⟩
    · by_contra hno
      obtain ⟨group,hgroup⟩ := Option.isSome_iff_exists.mp hjid
      have hlost := (hothers jid (fun row hrow he => hno ⟨row,hrow,he⟩)).symm.trans (hagrees jid).1
      rw [hgroup] at hlost
      cases hlost
    · exact ((hagrees jid).2 group hgroup).2.symm
  · intro hm
    refine ⟨_,hload,fun jid => ⟨?_,fun group hgroup => ⟨rfl,(hm.paired jid group hgroup).symm⟩⟩⟩
    by_cases hrow : ∃ row ∈ s.groupRows, row.jid = jid
    · obtain ⟨row,hrow,rfl⟩ := hrow
      obtain ⟨group,hgroup,hread⟩ := hm.rows row hrow
      rw [hgroup]
      exact (hrows row hrow).trans hread
    · have hnone : s.live.registeredGroups.get? jid = none := by
        rw [← Option.not_isSome_iff_eq_none]
        exact fun hsome => hrow (hm.chats jid hsome)
      rw [hnone]
      exact hothers jid (fun row hmem he => hrow ⟨row,hmem,he⟩)

/-- What loading needs is stored, whatever happens. -/
theorem step_stored (hdepth : 3 ≤ interp.depth) (h : Stored interp s)
    (hstep : step cfg env interp s a = some t) : Stored interp t := by
  rcases step_cases hstep with ⟨_,messages,sent,flights,rfl⟩ | ⟨chatJid,result,run,rfl,_,_,hlive,hrows⟩ |
    ⟨jid,group,rows,rfl,hset,rfl⟩ | ⟨rfl,rfl⟩ | ⟨rfl,app,hload,rfl⟩
  · exact ⟨h.saved,h.table⟩
  · refine ⟨?_,hrows ▸ h.table⟩
    rw [hlive]
    exact saved_liveKeep (saved_liveCommit (by omega) h.saved) _
  · exact ⟨h.saved,h.table.set hdepth hset⟩
  · exact ⟨saved_liveSave (by omega) _,h.table⟩
  · obtain ⟨groups,hgroups,_⟩ := h.load
    cases Option.some.inj (hload.symm.trans hgroups)
    refine ⟨?_,h.table⟩
    rw [Live.app_ofApp]
    exact h.saved

private theorem folder_eq_of_read {row : GroupRow} {group : RegisteredGroup}
    (h : rowToRegisteredGroup interp row = some group.stored) : row.folder = group.folder := by
  obtain ⟨config,_,hgroup⟩ := Option.map_eq_some_iff.mp h
  exact congrArg RegisteredGroup.folder hgroup

/-- A registration keeps the tables a mirror of memory exactly when no other chat has its folder and
the session of the folder is in memory as it is stored. -/
theorem Mirrored.register_iff {jid : String} {group : RegisteredGroup} {rows : List GroupRow}
    (hdepth : 3 ≤ interp.depth) (h : Mirrored interp s)
    (hset : setRegisteredGroup s.groupRows jid group = .ok rows) :
    Mirrored interp { s with
        live := { s.live with registeredGroups := s.live.registeredGroups.set jid group }
        groupRows := rows } ↔ Separate s (.register jid group) := by
  obtain ⟨_,row,rfl,hfolder,hread,rfl⟩ := setRegisteredGroup_stored hdepth hset
  constructor
  · intro ht
    refine ⟨fun jid' group' hgroup' hne hsame => ?_,?_⟩
    · -- The row of the other chat is gone, while memory still has it.
      have hmem := (Dict.get?_set_ne s.live.registeredGroups group hne).trans hgroup'
      obtain ⟨r,hr,rfl⟩ := ht.chats jid' (Option.isSome_iff_exists.mpr ⟨group',hmem⟩)
      rcases List.mem_append.mp hr with hr | hr
      · obtain ⟨hr,hkept⟩ := List.mem_filter.mp hr
        obtain ⟨group'',hgroup'',hread''⟩ := h.rows r hr
        cases Option.some.inj (hgroup'.symm.trans hgroup'')
        exact (of_decide_eq_true hkept).2 ((folder_eq_of_read hread'').trans hsame)
      · exact hne (congrArg GroupRow.jid (List.mem_singleton.mp hr))
    · exact ht.paired row.jid group (Dict.get?_set_self _ _ _)
  · rintro ⟨halone,hsession⟩
    refine ⟨fun r hr => ?_,fun jid' hjid' => ?_,fun jid' group' hgroup' => ?_⟩
    · rcases List.mem_append.mp hr with hr | hr
      · obtain ⟨hr,hne⟩ := List.mem_filter.mp hr
        obtain ⟨group',hgroup',hread'⟩ := h.rows r hr
        exact ⟨group',(Dict.get?_set_ne _ _ (of_decide_eq_true hne).1).trans hgroup',hread'⟩
      · rw [List.mem_singleton.mp hr]
        exact ⟨group,Dict.get?_set_self _ _ _,hread⟩
    · by_cases hj : jid' = row.jid
      · exact ⟨row,List.mem_append_right _ (List.mem_singleton_self row),hj.symm⟩
      · have hold : (s.live.registeredGroups.get? jid').isSome :=
          Dict.get?_set_ne s.live.registeredGroups group hj ▸ hjid'
        obtain ⟨r,hr,rfl⟩ := h.chats jid' hold
        obtain ⟨group',hgroup',hread'⟩ := h.rows r hr
        have hother : r.folder ≠ group.folder :=
          folder_eq_of_read hread' ▸ halone r.jid group' hgroup' hj
        exact ⟨r,List.mem_append_left _ (List.mem_filter.mpr ⟨hr,decide_eq_true ⟨hj,hother⟩⟩),rfl⟩
    · by_cases hj : jid' = row.jid
      · rw [hj] at hgroup'
        cases Option.some.inj (hgroup'.symm.trans (Dict.get?_set_self _ _ _))
        exact hsession
      · exact h.paired jid' group' ((Dict.get?_set_ne _ _ hj).symm.trans hgroup')

/-- One step keeps the tables a mirror of memory exactly when it meets its condition. -/
theorem step_mirrored_iff (hdepth : 3 ≤ interp.depth) (hs : Stored interp s) (h : Mirrored interp s)
    (hstep : step cfg env interp s a = some t) : Mirrored interp t ↔ Separate s a := by
  rcases step_cases hstep with ⟨hpassing,messages,sent,flights,rfl⟩ |
    ⟨chatJid,result,run,rfl,hrun,herror,hlive,hrows⟩ | ⟨jid,group,rows,rfl,hset,rfl⟩ | ⟨rfl,rfl⟩ |
    ⟨rfl,app,hload,rfl⟩
  · exact iff_of_true ⟨h.rows,h.chats,h.paired⟩ hpassing.separate
  · have hgroups : t.live.registeredGroups = s.live.registeredGroups := by
      rw [hlive, groups_liveKeep, groups_liveCommit]
    have hpaired := @paired_keepSession_iff env (s.live.commitCursor run) run
      (paired_commitCursor h.paired) result.newSessionId
    rw [← hlive, groups_liveCommit] at hpaired
    have hcond : Separate s (.finish chatJid result) ↔ Paired t.live := by
      rw [hpaired]
      refine ⟨fun hc => hc run hrun herror,fun hc run' hrun' _ => ?_⟩
      cases Option.some.inj (hrun.symm.trans hrun')
      exact hc
    rw [hcond]
    refine ⟨fun ht => ht.paired,fun hp => ⟨?_,?_,hp⟩⟩
    · rw [hrows, hgroups]
      exact h.rows
    · rw [hrows, hgroups]
      exact h.chats
  · exact h.register_iff hdepth hset
  · exact iff_of_true ⟨h.rows,h.chats,paired_saveState h.paired⟩ trivial
  · obtain ⟨groups,hgroups,hrows,hothers⟩ := hs.load
    cases Option.some.inj (hload.symm.trans hgroups)
    refine iff_of_true ⟨fun row hrow => ?_,fun jid hjid => ?_,fun jid group _ => ?_⟩ trivial
    · obtain ⟨group,_,hread⟩ := h.rows row hrow
      refine ⟨group.stored,(hrows row hrow).trans hread,?_⟩
      rw [hread, group.stored_stored]
    · by_contra hno
      have hnone := hothers jid (fun row hrow he => hno ⟨row,hrow,he⟩)
      have hsome : (groups.get? jid).isSome := hjid
      rw [hnone] at hsome
      cases hsome
    · exact Dict.get?_mapValues Json.str s.live.savedSessions group.folder

end Loading

/-- A new process can start on the database at any moment. -/
theorem restart_enabled {s : LiveInstallation} (hdepth : 3 ≤ interp.depth)
    (h : Reachable (step cfg env interp) fresh s) :
    ∃ t, step cfg env interp s .restart = some t := by
  have hstored : Stored interp s :=
    h.invariant (fun _ _ _ hs hstep => step_stored hdepth hs hstep) ⟨rfl,GroupTable.nil⟩
  obtain ⟨groups,hload,_⟩ := hstored.load
  exact ⟨_,congrArg (Option.map _) hload⟩

/-- A new process would at every moment of a run know what the running one does exactly when every
registration of the run is for a folder that no other chat has and whose session is not lost, and
every new session that a call keeps for a registered group is a text. -/
theorem reload_agrees {s : LiveInstallation} {as : List LiveAction} (hdepth : 3 ≤ interp.depth)
    (he : exec (step cfg env interp) fresh as = some s) :
    (∀ n t, exec (step cfg env interp) fresh (as.take n) = some t → Agrees interp t) ↔
      Allowed (step cfg env interp) Separate fresh as := by
  have hfresh : Stored interp fresh := ⟨rfl,GroupTable.nil⟩
  have hmirrored : Mirrored interp fresh := by
    refine ⟨fun row hrow => ?_,fun jid hjid => ?_,fun jid group hgroup => ?_⟩
    · cases hrow
    · cases hjid
    · cases hgroup
  refine (allowed_iff_prefixes (I := Stored interp) (P := Agrees interp)
    (fun _ _ _ hs hstep => step_stored hdepth hs hstep) (fun u a v hu hagrees hstep => ?_) hfresh
    (hfresh.agrees_iff.mpr hmirrored) he).symm
  rw [(step_stored hdepth hu hstep).agrees_iff]
  exact step_mirrored_iff hdepth hu (hu.agrees_iff.mp hagrees) hstep

end LiveInstallation

section Runs
open LiveInstallation

private def reloadEnv : Outside := ⟨id,fun _ => none⟩

/-- Two chats are registered for one folder: the database forgets the first, which the running app
still has. -/
theorem shared_folder_lost :
    ∃ s app, exec (LiveInstallation.step localCfg reloadEnv localInterp) fresh
        [.register "local:a" mainGroup,.register "local:b" mainGroup] = some s ∧
      loadState localInterp s.live.app s.groupRows = some app ∧
      s.live.registeredGroups.get? "local:a" = some mainGroup ∧
      app.registeredGroups.get? "local:a" = none ∧ ¬Agrees localInterp s := by
  have hrun : ((exec (LiveInstallation.step localCfg reloadEnv localInterp) fresh
      [.register "local:a" mainGroup,.register "local:b" mainGroup]).bind (fun s =>
      (loadState localInterp s.live.app s.groupRows).map (fun app =>
        (s.live.registeredGroups.get? "local:a",app.registeredGroups.get? "local:a")))) =
      some (some mainGroup,none) := by decide +kernel
  obtain ⟨s,hs,hrun⟩ := Option.bind_eq_some_iff.mp hrun
  obtain ⟨app,hload,hgroups⟩ := Option.map_eq_some_iff.mp hrun
  obtain ⟨hmem,hgone⟩ := Prod.mk.inj hgroups
  refine ⟨s,app,hs,hload,hmem,hgone,?_⟩
  rintro ⟨app',hload',hagrees⟩
  cases Option.some.inj (hload.symm.trans hload')
  have hlost := (hagrees "local:a").1
  rw [hgone, hmem] at hlost
  cases hlost

/-- A message of the main chat is answered, its agent opens a session, and the process starts
anew. -/
private def oneAnswer : List LiveAction :=
  [.register "local:a" mainGroup,
    .inbound everyone
      ⟨"1","local:a","local:user","User","hi","2024-01-01T00:00:00Z",false,false⟩,
    .process everyone "local:a",
    .finish "local:a" ⟨.str "success",.null,.str "s1",.null⟩,.restart]

theorem reload_agrees_one_answer :
    ∃ s, exec (LiveInstallation.step localCfg reloadEnv localInterp) fresh oneAnswer = some s ∧
      s.live.savedSessions.get? "main" = some "s1" ∧
      s.live.lastAgentTimestamp.get? "local:a" = some "2024-01-01T00:00:00Z" ∧
      ∀ n t, exec (LiveInstallation.step localCfg reloadEnv localInterp) fresh
        (oneAnswer.take n) = some t → Agrees localInterp t := by
  have hrun : (exec (LiveInstallation.step localCfg reloadEnv localInterp) fresh oneAnswer).map
      (fun s => (s.live.savedSessions.get? "main",s.live.lastAgentTimestamp.get? "local:a")) =
      some (some "s1",some "2024-01-01T00:00:00Z") := by decide +kernel
  obtain ⟨s,hs,h⟩ := Option.map_eq_some_iff.mp hrun
  have hC : Allowed (LiveInstallation.step localCfg reloadEnv localInterp) Separate fresh
      oneAnswer := by
    refine ⟨⟨fun jid group hgroup => ?_,rfl⟩,fun _ _ => ⟨trivial,fun _ _ => ⟨trivial,fun _ _ =>
      ⟨fun _ _ _ _ _ => ⟨"s1",rfl⟩,fun _ _ => ⟨trivial,fun _ _ => trivial⟩⟩⟩⟩⟩
    cases hgroup
  exact ⟨s,hs,congrArg Prod.fst h,congrArg Prod.snd h,(reload_agrees (by decide) hs).mpr hC⟩

end Runs

end NanoClaw.App
