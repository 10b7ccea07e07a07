import NanoClaw.Ipc.Watcher

/-! What the requests of a group that is not the main one can reach: its own chats and its own
tasks, over any sequence of requests. -/
namespace NanoClaw.Ipc
open Store Json
variable {lib : Lib} {groups : Groups} {source : String} {isMain : Bool} {env : Env}

/-- A chat of a group the source may act for. -/
def MayUse (groups : Groups) (source : String) (isMain : Bool) (chatJid : Json) : Prop :=
  isMain = true ∨ ∃ jid g, chatJid = .str jid ∧ groups.get? jid = some g ∧ g.folder = source

/-- What a task request can do: nothing, create a row, or change or delete one. -/
def TaskEffect (groups : Groups) (source : String) (isMain : Bool) (s t : State) : Prop :=
  t = s ∨
    (∃ task db g, s.db.createTask task = some db ∧ t = { s with db := db } ∧
      groups.get? task.chatJid = some g ∧ task.groupFolder = g.folder ∧
      (isMain = true ∨ g.folder = source)) ∨
    ∃ task ∈ s.db.tasks.rows, (isMain = true ∨ task.groupFolder = source) ∧
      ((∃ status, t = { s with db := s.db.updateStatus task.id status }) ∨
        t = { s with db := s.db.deleteTask task.id })

theorem ownsChat_eq_true {chatJid : Json} (h : ownsChat groups source chatJid = true) :
    ∃ jid g, chatJid = .str jid ∧ groups.get? jid = some g ∧ g.folder = source := by
  cases chatJid with
  | str jid =>
    rcases hg : groups.get? jid with _ | g
    · simp [ownsChat, groupOf, hg] at h
    · exact ⟨jid,g,rfl,hg,by simpa [ownsChat, groupOf, hg] using h⟩
  | _ => cases h

/-- A message request makes at most one call of `send_message`, for a chat it may use. -/
theorem processMessagePayload_cases (s : State) (data : Json) :
    (processMessagePayload groups source isMain env s data).state = s ∨
      ∃ chatJid text, MayUse groups source isMain chatJid ∧
        (processMessagePayload groups source isMain env s data).state =
          { s with sends := s.sends ++ [(chatJid,text)] } := by
  cases data with
  | obj fields =>
    simp only [processMessagePayload]
    split
    · rename_i h
      simp only [Bool.and_eq_true, Bool.or_eq_true] at h
      exact Or.inr ⟨_,_,h.2.imp_right ownsChat_eq_true,rfl⟩
    · exact Or.inl rfl
  | _ => exact Or.inl rfl

private theorem storeTask_cases (s : State) {folder jid : String} {g : RegisteredGroup}
    {fields : List (String × Json)} {schedule : ScheduleType × Int}
    (hjid : getKey "targetJid" fields = .str jid) (hg : groups.get? jid = some g)
    (hfolder : folder = g.folder) (hmay : isMain = true ∨ g.folder = source) :
    TaskEffect groups source isMain s (storeTask env s folder fields schedule).state := by
  rw [storeTask]
  split
  · rename_i id chatJid prompt value hid hchat hprompt hvalue
    rw [hjid, Json.str.injEq] at hchat
    subst hchat
    simp only
    split
    · exact Or.inl rfl
    · rename_i db hdb
      exact Or.inr (Or.inl ⟨_,db,g,hdb,rfl,hg,hfolder,hmay⟩)
  · exact Or.inl rfl

theorem handleScheduleTask_cases (s : State) (fields : List (String × Json)) :
    TaskEffect groups source isMain s
      (handleScheduleTask lib groups source isMain env s fields).state := by
  simp only [handleScheduleTask]
  split
  · exact Or.inl rfl
  · split
    · exact Or.inl rfl
    · rename_i target htarget
      split
      · exact Or.inl rfl
      · rename_i hmay
        split
        · exact Or.inl rfl
        · exact Or.inl rfl
        · rcases hjid : getKey "targetJid" fields with _ | _ | _ | _ | jid | _ | _ | _ <;>
            rw [hjid] at htarget <;> try cases htarget
          refine storeTask_cases s hjid htarget rfl ?_
          rcases isMain with _ | _
          · exact Or.inr (by simpa using hmay)
          · exact Or.inl rfl

private theorem handleTaskMutation_effect (s : State) (payloadType taskId : Json) :
    TaskEffect groups source isMain s
      (handleTaskMutation source isMain s payloadType taskId).state := by
  rcases handleTaskMutation_cases source isMain s payloadType taskId with
    hs | ⟨task,htask,_,hmay,⟨_,hs⟩ | ⟨_,hs⟩ | ⟨_,hs⟩⟩ <;> rw [hs]
  · exact Or.inl rfl
  all_goals have hrow := (TaskDb.getTaskById_eq_some_iff.mp htask).1
  · exact Or.inr (Or.inr ⟨task,hrow,hmay,Or.inl ⟨_,rfl⟩⟩)
  · exact Or.inr (Or.inr ⟨task,hrow,hmay,Or.inl ⟨_,rfl⟩⟩)
  · exact Or.inr (Or.inr ⟨task,hrow,hmay,Or.inr rfl⟩)

theorem processTaskPayload_cases (s : State) (data : Json) :
    TaskEffect groups source isMain s
      (processTaskPayload lib groups source isMain env s data).state := by
  cases data with
  | obj fields =>
    simp only [processTaskPayload]
    split
    · exact handleScheduleTask_cases s fields
    · exact handleTaskMutation_effect s _ _
  | _ => exact Or.inl rfl

/-- What one group's requests may change between two states. -/
structure Isolated (groups : Groups) (source : String) (s t : State) : Prop where
  sends : ∃ calls, t.sends = s.sends ++ calls ∧
    ∀ c ∈ calls, ∃ jid g, c.1 = .str jid ∧ groups.get? jid = some g ∧ g.folder = source
  created : ∀ r ∈ t.db.tasks.rows,
    (∃ r₀ ∈ s.db.tasks.rows, r₀.id = r.id ∧ r₀.groupFolder = r.groupFolder ∧ r₀.chatJid = r.chatJid) ∨
      (r.groupFolder = source ∧ ∃ g, groups.get? r.chatJid = some g ∧ g.folder = source)
  others : t.db.tasks.rows.filter (fun r => r.groupFolder ≠ source) =
    s.db.tasks.rows.filter (fun r => r.groupFolder ≠ source)
  logs : ∀ r ∈ s.db.tasks.rows, r.groupFolder ≠ source →
    t.db.logs.filter (fun l => l.taskId = r.id) = s.db.logs.filter (fun l => l.taskId = r.id)

theorem Isolated.refl (s : State) : Isolated groups source s s where
  sends := ⟨[],by simp,by simp⟩
  created := fun r hr => Or.inl ⟨r,hr,rfl,rfl,rfl⟩
  others := rfl
  logs := fun _ _ _ => rfl

theorem Isolated.trans {s t u : State} (h : Isolated groups source s t)
    (h' : Isolated groups source t u) : Isolated groups source s u where
  sends := by
    obtain ⟨calls,ht,hcalls⟩ := h.sends
    obtain ⟨calls',hu,hcalls'⟩ := h'.sends
    refine ⟨calls ++ calls',by rw [hu, ht, List.append_assoc],fun c hc => ?_⟩
    exact (List.mem_append.mp hc).elim (hcalls c) (hcalls' c)
  created := by
    intro r hr
    rcases h'.created r hr with ⟨r₁,hr₁,hid,hfolder,hchat⟩ | hnew
    · rcases h.created r₁ hr₁ with ⟨r₀,hr₀,hid₀,hfolder₀,hchat₀⟩ | hnew
      · exact Or.inl ⟨r₀,hr₀,hid₀.trans hid,hfolder₀.trans hfolder,hchat₀.trans hchat⟩
      · exact Or.inr (hfolder ▸ hchat ▸ hnew)
    · exact Or.inr hnew
  others := h'.others.trans h.others
  logs := by
    intro r hr hfolder
    have hmem : r ∈ s.db.tasks.rows.filter (fun r => r.groupFolder ≠ source) :=
      List.mem_filter.mpr ⟨hr,decide_eq_true hfolder⟩
    rw [← h.others] at hmem
    exact (h'.logs r (List.mem_filter.mp hmem).1 hfolder).trans (h.logs r hr hfolder)

/-- A row with the id of another row is that row. -/
private theorem row_eq {db : TaskDb} {r task : ScheduledTask} (hr : r ∈ db.tasks.rows)
    (htask : task ∈ db.tasks.rows) (hid : r.id = task.id) : r = task :=
  List.inj_on_of_nodup_map db.tasks.nodup hr htask hid

theorem TaskEffect.isolated {s t : State} (h : TaskEffect groups source false s t) :
    Isolated groups source s t := by
  rcases h with rfl | ⟨task,db,g,hdb,rfl,hg,hfolder,hmay⟩ | ⟨task,htask,hmay,h⟩
  · exact Isolated.refl t
  · have hmay : g.folder = source := by simpa using hmay
    obtain ⟨_,hrows,hlogs⟩ := TaskDb.createTask_eq_some hdb
    refine ⟨⟨[],by simp,by simp⟩,fun r hr => ?_,?_,fun _ _ _ => by rw [hlogs]⟩
    · rw [hrows] at hr
      rcases List.mem_append.mp hr with hr | hr
      · exact Or.inl ⟨r,hr,rfl,rfl,rfl⟩
      · rw [List.mem_singleton.mp hr]
        exact Or.inr ⟨hfolder.trans hmay,g,hg,hmay⟩
    · simp [hrows, List.filter_append, hfolder, hmay]
  · have hmay : task.groupFolder = source := by simpa using hmay
    rcases h with ⟨status,rfl⟩ | rfl
    · refine ⟨⟨[],by simp,by simp⟩,fun r hr => ?_,?_,fun _ _ _ => rfl⟩
      · obtain ⟨r₀,hr₀,rfl⟩ := List.mem_map.mp hr
        refine Or.inl ⟨r₀,hr₀,?_⟩
        split <;> exact ⟨rfl,rfl,rfl⟩
      · refine Table.filter_modify ?_ (fun r hr hid => ?_)
        · exact fun _ => rfl
        · rw [row_eq hr htask hid]
          simp [hmay]
    · refine ⟨⟨[],by simp,by simp⟩,fun r hr => ?_,?_,fun r hr hfolder => ?_⟩
      · exact Or.inl ⟨r,(Table.mem_erase.mp hr).1,rfl,rfl,rfl⟩
      · refine Table.filter_erase (fun r hr hid => ?_)
        rw [row_eq hr htask hid]
        simp [hmay]
      · have hne : r.id ≠ task.id := fun hid => hfolder (row_eq hr htask hid ▸ hmay)
        simp only [TaskDb.deleteTask, List.filter_filter]
        apply List.filter_congr
        intro l _
        by_cases hl : l.taskId = r.id
        · simp [hl, hne]
        · simp [hl]

/-- A JSON object found in one of the two directories of a group. -/
inductive Request where
  | message (fields : List (String × Json)) (env : Env)
  | task (fields : List (String × Json)) (env : Env)

def handleRequest (lib : Lib) (groups : Groups) (source : String) (s : State) : Request → State
  | .message fields env =>
    (processMessagePayload groups source (isMainFolder groups source) env s (.obj fields)).state
  | .task fields env =>
    (processTaskPayload lib groups source (isMainFolder groups source) env s (.obj fields)).state

private theorem processMessagePayload_isolated (s : State) (data : Json) :
    Isolated groups source s (processMessagePayload groups source false env s data).state := by
  rcases @processMessagePayload_cases groups source false env s data with h | ⟨chatJid,text,hmay,h⟩
  · rw [h]
    exact Isolated.refl s
  · rw [h]
    refine ⟨⟨_,rfl,fun c hc => ?_⟩,fun r hr => Or.inl ⟨r,hr,rfl,rfl,rfl⟩,rfl,fun _ _ _ => rfl⟩
    rw [List.mem_singleton.mp hc]
    simpa [MayUse] using hmay

private theorem handleRequest_isolated (hmain : isMainFolder groups source = false) (s : State)
    (r : Request) : Isolated groups source s (handleRequest lib groups source s r) := by
  cases r with
  | message fields env =>
    simp only [handleRequest, hmain]
    exact processMessagePayload_isolated s _
  | task fields env =>
    simp only [handleRequest, hmain]
    exact (processTaskPayload_cases s _).isolated

/-- Any sequence of requests of a group that is not the main one calls `send_message` only for
the group's own chats, creates only its own tasks in its own chats, and leaves the tasks of all
other folders and their logs as they were. -/
theorem requests_isolated (hmain : isMainFolder groups source = false) (s : State)
    (rs : List Request) :
    Isolated groups source s (rs.foldl (handleRequest lib groups source) s) := by
  induction rs generalizing s with
  | nil => exact Isolated.refl s
  | cons r rs ih => exact (handleRequest_isolated hmain s r).trans (ih _)

private theorem processFiles_isolated {process : Env → State → Json → Handled}
    (hprocess : ∀ env s data, Isolated groups source s (process env s data).state) (s : State)
    (files : List File) :
    Isolated groups source s (processFiles (handleFile lib process) s files).1.state := by
  have hfile : ∀ s f, Isolated groups source s (handleFile lib process s f).state := by
    intro s f
    simp only [handleFile]
    split
    · exact Isolated.refl s
    · exact hprocess _ s _
  induction files generalizing s with
  | nil => exact Isolated.refl s
  | cons f fs ih =>
    rw [processFiles]
    split
    · exact hfile s f
    · exact (hfile s f).trans (ih _)

/-- The same for the turn of `run_once` that reads the group's directory, whatever its files
hold. -/
theorem processGroupDir_isolated {d : GroupDir} (hmain : isMainFolder groups d.name = false)
    (s : State) : Isolated groups d.name s (processGroupDir lib groups s d).1.state := by
  have hmessages := @processFiles_isolated lib groups d.name
    (fun env => processMessagePayload groups d.name false env)
    (fun _ s data => processMessagePayload_isolated s data) s d.messages
  have htasks := fun s' => @processFiles_isolated lib groups d.name
    (fun env => processTaskPayload lib groups d.name false env)
    (fun _ s data => (processTaskPayload_cases s data).isolated) s' d.tasks
  simp only [processGroupDir, handleMessage, handleTask, hmain]
  split
  · rename_i hrun
    rw [hrun] at hmessages
    exact hmessages
  · rename_i s₁ left hrun
    rw [hrun] at hmessages
    have htasks := htasks s₁
    split
    · rename_i hrun'
      rw [hrun'] at htasks
      exact hmessages.trans htasks
    · rename_i hrun'
      rw [hrun'] at htasks
      exact hmessages.trans htasks

section Runs

private def twoGroups : Groups :=
  (Dict.empty.set "local:a" { name := "A", folder := "alpha", trigger := "@A", addedAt := "" }).set
    "local:b" { name := "B", folder := "beta", trigger := "@B", addedAt := "" }

private def idle : State := ⟨TaskDb.empty,[]⟩

private def calm : Env := ⟨0,"00000000",none⟩

/-- Alpha writes to both chats and schedules a task in its own. -/
private def requests : List Request :=
  [.message [("type",str "message"),("chatJid",str "local:a"),("text",str "hi")] calm,
    .message [("type",str "message"),("chatJid",str "local:b"),("text",str "hi")] calm,
    .task [("type",str "schedule_task"),("targetJid",str "local:a"),("prompt",str "p"),
      ("schedule_type",str "interval"),("schedule_value",str "60000")] calm]

theorem requests_isolated_alpha :
    Isolated twoGroups "alpha" idle
      (requests.foldl (handleRequest ⟨⟨String.ofList,10⟩,fun _ t => .ok (t + 1)⟩ twoGroups "alpha") idle) :=
  requests_isolated (by decide +kernel) idle requests

/-- Only the call for its own chat is made, and the task is created. -/
example :
    let t := requests.foldl
      (handleRequest ⟨⟨String.ofList,10⟩,fun _ t => .ok (t + 1)⟩ twoGroups "alpha") idle
    t.sends.length = 1 ∧ t.db.tasks.rows.map (·.nextRun) = [some "0001-01-01T00:01:00Z"] := by
  decide +kernel

end Runs

end NanoClaw.Ipc
