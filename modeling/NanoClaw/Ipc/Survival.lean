import NanoClaw.Ipc.Fatal

/-! `run_once` over whole directory trees: when it returns, what it removes, and that files which
are not well formed change nothing. -/
namespace NanoClaw.Ipc
open Store Json
variable {lib : Lib} {groups : Groups} {source : String} {isMain : Bool} {env : Env}

def wellFormedMessage (lib : Lib) (f : File) : Bool :=
  match readJson lib.interp f with
  | .ok (.obj fields) =>
    isStr (getKey "type" fields) "message" && (getKey "chatJid" fields).isText &&
      (getKey "text" fields).isText
  | _ => false

/-- A schedule value from which a first run can be computed. -/
def hasFirstRun (lib : Lib) (now : Int) (scheduleType scheduleValue : Json) : Bool :=
  match computeFirstRun lib now scheduleType scheduleValue with
  | .ok (some _) => true
  | _ => false

def wellFormedTask (lib : Lib) (f : File) : Bool :=
  match readJson lib.interp f with
  | .ok (.obj fields) =>
    let payloadType := getKey "type" fields
    if isStr payloadType "schedule_task" then
      (getKey "targetJid" fields).isText && (getKey "prompt" fields).isText &&
        (getKey "schedule_type" fields).isText && (getKey "schedule_value" fields).isText &&
        hasFirstRun lib f.env.now (getKey "schedule_type" fields) (getKey "schedule_value" fields)
    else
      (isStr payloadType "pause_task" || isStr payloadType "resume_task" ||
        isStr payloadType "cancel_task") && (getKey "taskId" fields).isText
  | _ => false

theorem handleMessage_malformed {f : File} (h : wellFormedMessage lib f = false) (s : State) :
    (handleMessage lib groups source s f).state = s := by
  simp only [handleMessage, handleFile]
  rcases hread : readJson lib.interp f with e | v
  · rfl
  · cases v with
    | obj fields =>
      simp only [wellFormedMessage, hread] at h
      simp [processMessagePayload, h]
    | _ => rfl

private theorem handleTaskMutation_unknown {payloadType taskId : Json}
    (h : ((isStr payloadType "pause_task" || isStr payloadType "resume_task" ||
      isStr payloadType "cancel_task") && taskId.isText) = false) (s : State) :
    (handleTaskMutation source isMain s payloadType taskId).state = s := by
  cases taskId with
  | str id =>
    simp only [Json.isText, Bool.and_true, Bool.or_eq_false_iff] at h
    simp only [handleTaskMutation, h.1.1, h.1.2, h.2, Bool.false_eq_true, if_false]
    split
    · rfl
    · split <;> rfl
  | _ => rfl

private theorem handleScheduleTask_malformed {fields : List (String × Json)}
    (h : ((getKey "targetJid" fields).isText && (getKey "prompt" fields).isText &&
        (getKey "schedule_type" fields).isText && (getKey "schedule_value" fields).isText &&
        hasFirstRun lib env.now (getKey "schedule_type" fields) (getKey "schedule_value" fields)) =
      false) (s : State) :
    (handleScheduleTask lib groups source isMain env s fields).state = s := by
  simp only [handleScheduleTask]
  split
  · rfl
  · rename_i htexts
    rw [not_not] at htexts
    rw [htexts, Bool.true_and, hasFirstRun] at h
    split
    · rfl
    · split
      · rfl
      · split <;> simp_all

theorem handleTask_malformed {f : File} (h : wellFormedTask lib f = false) (s : State) :
    (handleTask lib groups source s f).state = s := by
  simp only [handleTask, handleFile]
  rcases hread : readJson lib.interp f with e | v
  · rfl
  · cases v with
    | obj fields =>
      simp only [wellFormedTask, hread] at h
      simp only [processTaskPayload]
      split at h
      · rename_i htype
        rw [if_pos htype]
        exact handleScheduleTask_malformed h s
      · rename_i htype
        rw [if_neg htype]
        exact handleTaskMutation_unknown h s
    | _ => rfl

section Loop
variable {handle : State → File → Handled} {fatal : State → File → Prop} {good : File → Bool}

/-- The state after all of the files, when no exception gets in the way. -/
def fileEffects (handle : State → File → Handled) (s : State) (files : List File) : State :=
  files.foldl (fun s f => (handle s f).state) s

/-- No file is fatal in the state it is met in. -/
def QuietFiles (handle : State → File → Handled) (fatal : State → File → Prop) :
    State → List File → Prop
  | _, [] => True
  | s, f :: fs => ¬fatal s f ∧ QuietFiles handle fatal (handle s f).state fs

theorem processFiles_quiet (hfatal : ∀ s f, (handle s f).exc ≠ none ↔ fatal s f) {s : State}
    {files : List File} (h : QuietFiles handle fatal s files) :
    processFiles handle s files = (⟨none,fileEffects handle s files⟩,[]) := by
  induction files generalizing s with
  | nil => rfl
  | cons f fs ih =>
    have hexc : (handle s f).exc = none := not_not.mp (fun hne => h.1 ((hfatal s f).mp hne))
    rw [processFiles, hexc, ih h.2]
    rfl

theorem quiet_of_returns (hfatal : ∀ s f, (handle s f).exc ≠ none ↔ fatal s f) {s : State}
    {files : List File} (h : (processFiles handle s files).1.exc = none) :
    QuietFiles handle fatal s files := by
  induction files generalizing s with
  | nil => trivial
  | cons f fs ih =>
    rw [processFiles] at h
    split at h
    · cases h
    · rename_i hexc
      exact ⟨fun hf => (hfatal s f).mpr hf hexc,ih h⟩

theorem fileEffects_filter (hgood : ∀ s f, good f = false → (handle s f).state = s) (s : State)
    (files : List File) : fileEffects handle s (files.filter good) = fileEffects handle s files := by
  induction files generalizing s with
  | nil => rfl
  | cons f fs ih =>
    rcases hf : good f with _ | _
    · rw [List.filter_cons_of_neg (by simp [hf]), ih]
      exact congrArg (fileEffects handle · fs) (hgood s f hf).symm
    · rw [List.filter_cons_of_pos hf]
      exact ih _

theorem QuietFiles.filter (hgood : ∀ s f, good f = false → (handle s f).state = s) {s : State}
    {files : List File} (h : QuietFiles handle fatal s files) :
    QuietFiles handle fatal s (files.filter good) := by
  induction files generalizing s with
  | nil => trivial
  | cons f fs ih =>
    rcases hf : good f with _ | _
    · rw [List.filter_cons_of_neg (by simp [hf])]
      exact ih (hgood s f hf ▸ h.2)
    · rw [List.filter_cons_of_pos hf]
      exact ⟨h.1,ih h.2⟩

end Loop

def dirEffects (lib : Lib) (groups : Groups) (s : State) (d : GroupDir) : State :=
  fileEffects (handleTask lib groups d.name)
    (fileEffects (handleMessage lib groups d.name) s d.messages) d.tasks

/-- A directory without fatal files, and with a name the snapshot can be written for. -/
structure QuietDir (lib : Lib) (groups : Groups) (s : State) (d : GroupDir) : Prop where
  messages : QuietFiles (handleMessage lib groups d.name)
    (fun _ f => FatalMessage lib groups d.name (isMainFolder groups d.name) f) s d.messages
  tasks : QuietFiles (handleTask lib groups d.name)
    (FatalTask lib groups d.name (isMainFolder groups d.name))
    (fileEffects (handleMessage lib groups d.name) s d.messages) d.tasks
  valid : isValidGroupFolder d.name = true

/-- Every directory is quiet in the state it is met in; the one called `errors` is never met. -/
def QuietDirs (lib : Lib) (groups : Groups) : State → List GroupDir → Prop
  | _, [] => True
  | s, d :: ds =>
    (d.name ≠ "errors" → QuietDir lib groups s d) ∧
      QuietDirs lib groups (if d.name = "errors" then s else dirEffects lib groups s d) ds

def treeEffects (lib : Lib) (groups : Groups) (s : State) (ds : List GroupDir) : State :=
  ds.foldl (fun s d => if d.name = "errors" then s else dirEffects lib groups s d) s

/-- A directory after its turn. -/
def emptied (d : GroupDir) : GroupDir := if d.name = "errors" then d else ⟨d.name,[],[]⟩

/-- The directory without its malformed files. -/
def wellFormedOnly (lib : Lib) (d : GroupDir) : GroupDir :=
  ⟨d.name,d.messages.filter (wellFormedMessage lib),d.tasks.filter (wellFormedTask lib)⟩

theorem processGroupDir_quiet {s : State} {d : GroupDir} (h : QuietDir lib groups s d) :
    processGroupDir lib groups s d = (⟨none,dirEffects lib groups s d⟩,⟨d.name,[],[]⟩) := by
  rw [processGroupDir, processFiles_quiet (fun _ _ => handleMessage_exc_iff) h.messages]
  simp only
  rw [processFiles_quiet (fun _ _ => handleTask_exc_iff) h.tasks]
  simp only [h.valid, if_true]
  rfl

theorem quietDir_of_returns {s : State} {d : GroupDir}
    (h : (processGroupDir lib groups s d).1.exc = none) : QuietDir lib groups s d := by
  rw [processGroupDir] at h
  rcases hm : processFiles (handleMessage lib groups d.name) s d.messages with ⟨⟨exc,s₁⟩,left⟩
  rw [hm] at h
  rcases exc with _ | e
  · have hmessages := quiet_of_returns (fun _ _ => handleMessage_exc_iff) (congrArg (·.1.exc) hm)
    rw [processFiles_quiet (fun _ _ => handleMessage_exc_iff) hmessages] at hm
    cases hm
    rcases ht : processFiles (handleTask lib groups d.name)
      (fileEffects (handleMessage lib groups d.name) s d.messages) d.tasks with ⟨⟨exc,s₂⟩,left'⟩
    simp only [ht] at h
    rcases exc with _ | e
    · refine ⟨hmessages,quiet_of_returns (fun _ _ => handleTask_exc_iff) (congrArg (·.1.exc) ht),?_⟩
      by_contra hvalid
      simp [hvalid] at h
    · cases h
  · cases h

theorem runOnce_quiet {s : State} {ds : List GroupDir} (h : QuietDirs lib groups s ds) :
    runOnce lib groups s ds = (⟨none,treeEffects lib groups s ds⟩,ds.map emptied) := by
  induction ds generalizing s with
  | nil => rfl
  | cons d ds ih =>
    obtain ⟨hd,hds⟩ := h
    by_cases herrors : d.name = "errors"
    · rw [if_pos herrors] at hds
      simp [runOnce, treeEffects, emptied, herrors, ih hds]
    · rw [if_neg herrors] at hds
      simp [runOnce, treeEffects, emptied, herrors, processGroupDir_quiet (hd herrors), ih hds]

theorem quietDirs_of_returns {s : State} {ds : List GroupDir}
    (h : (runOnce lib groups s ds).1.exc = none) : QuietDirs lib groups s ds := by
  induction ds generalizing s with
  | nil => trivial
  | cons d ds ih =>
    by_cases herrors : d.name = "errors"
    · rw [runOnce, if_pos herrors] at h
      exact ⟨fun hne => absurd herrors hne,by rw [if_pos herrors]; exact ih h⟩
    · rw [runOnce, if_neg herrors] at h
      rcases hd : processGroupDir lib groups s d with ⟨⟨exc,s₁⟩,d'⟩
      rw [hd] at h
      rcases exc with _ | e
      · have hquiet := quietDir_of_returns (congrArg (·.1.exc) hd)
        rw [processGroupDir_quiet hquiet] at hd
        cases hd
        exact ⟨fun _ => hquiet,by rw [if_neg herrors]; exact ih h⟩
      · cases h

private theorem dirEffects_wellFormedOnly (s : State) (d : GroupDir) :
    dirEffects lib groups s (wellFormedOnly lib d) = dirEffects lib groups s d := by
  simp only [dirEffects, wellFormedOnly]
  rw [fileEffects_filter (fun s f hf => handleMessage_malformed hf s),
    fileEffects_filter (fun s f hf => handleTask_malformed hf s)]

private theorem QuietDir.wellFormedOnly {s : State} {d : GroupDir} (h : QuietDir lib groups s d) :
    QuietDir lib groups s (wellFormedOnly lib d) where
  messages := h.messages.filter (fun s f hf => handleMessage_malformed hf s)
  tasks := by
    simp only [Ipc.wellFormedOnly]
    rw [fileEffects_filter (fun s f hf => handleMessage_malformed hf s)]
    exact h.tasks.filter (fun s f hf => handleTask_malformed hf s)
  valid := h.valid

private theorem QuietDirs.wellFormedOnly {s : State} {ds : List GroupDir}
    (h : QuietDirs lib groups s ds) :
    QuietDirs lib groups s (ds.map (wellFormedOnly lib)) ∧
      treeEffects lib groups s (ds.map (Ipc.wellFormedOnly lib)) = treeEffects lib groups s ds := by
  induction ds generalizing s with
  | nil => exact ⟨trivial,rfl⟩
  | cons d ds ih =>
    obtain ⟨hd,hds⟩ := h
    obtain ⟨hquiet,heffects⟩ := ih hds
    have hstate : (if d.name = "errors" then s
        else dirEffects lib groups s (Ipc.wellFormedOnly lib d)) =
        if d.name = "errors" then s else dirEffects lib groups s d := by
      rw [dirEffects_wellFormedOnly]
    refine ⟨⟨fun hne => (hd hne).wellFormedOnly,hstate ▸ hquiet⟩,?_⟩
    calc treeEffects lib groups s ((d :: ds).map (Ipc.wellFormedOnly lib))
        = treeEffects lib groups (if d.name = "errors" then s
            else dirEffects lib groups s (Ipc.wellFormedOnly lib d))
            (ds.map (Ipc.wellFormedOnly lib)) := rfl
      _ = treeEffects lib groups (if d.name = "errors" then s else dirEffects lib groups s d) ds := by
          rw [hstate, heffects]
      _ = treeEffects lib groups s (d :: ds) := rfl

/-- What the watcher owes for a directory tree: `run_once` returns, the files of registered
groups are gone, and the outcome is the one the well-formed files alone would have had. -/
structure Survives (lib : Lib) (groups : Groups) (s : State) (ds : List GroupDir) : Prop where
  returns : (runOnce lib groups s ds).1.exc = none
  removed : ∀ d ∈ (runOnce lib groups s ds).2, (∃ g ∈ groups.values, g.folder = d.name) →
    d.messages = [] ∧ d.tasks = []
  effect : (runOnce lib groups s ds).1.state =
    (runOnce lib groups s (ds.map (wellFormedOnly lib))).1.state

/-- The watcher survives a directory tree exactly when no file is fatal in the state it is met
in, every directory has the name of a group folder, and no group with files is called
`errors`. -/
theorem survives_iff {s : State} {ds : List GroupDir} :
    Survives lib groups s ds ↔
      QuietDirs lib groups s ds ∧
        ∀ d ∈ ds, d.name = "errors" → (∃ g ∈ groups.values, g.folder = d.name) →
          d.messages = [] ∧ d.tasks = [] := by
  constructor
  · intro h
    have hquiet := quietDirs_of_returns h.returns
    refine ⟨hquiet,fun d hd herrors hreg => ?_⟩
    have hremoved := h.removed
    rw [runOnce_quiet hquiet] at hremoved
    refine hremoved d (List.mem_map.mpr ⟨d,hd,?_⟩) hreg
    rw [emptied, if_pos herrors]
  · rintro ⟨hquiet,herrors⟩
    obtain ⟨hquiet',heffects⟩ := hquiet.wellFormedOnly
    refine ⟨by rw [runOnce_quiet hquiet],fun d hd hreg => ?_,?_⟩
    · rw [runOnce_quiet hquiet] at hd
      obtain ⟨d₀,hd₀,rfl⟩ := List.mem_map.mp hd
      by_cases he : d₀.name = "errors"
      · rw [emptied, if_pos he] at hreg ⊢
        exact herrors d₀ hd₀ he hreg
      · rw [emptied, if_neg he]
        exact ⟨rfl,rfl⟩
    · rw [runOnce_quiet hquiet, runOnce_quiet hquiet', heffects]

/-- The file `[]` among the messages of a group, and no other file. -/
theorem empty_array_ends_watcher :
    ¬Survives ⟨⟨String.ofList,10⟩,fun _ t => .ok (t + 1)⟩
      mainGroups ⟨TaskDb.empty,[]⟩ [⟨"main",[⟨[91,93],⟨0,"00000000",none⟩⟩],[]⟩] := by
  intro h
  have hreturns := h.returns
  revert hreturns
  decide +kernel

end NanoClaw.Ipc
