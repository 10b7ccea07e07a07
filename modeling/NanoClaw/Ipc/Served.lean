import NanoClaw.Ipc.Survival
import NanoClaw.Ipc.Written
import NanoClaw.Library.Latest

/-! Which files a `run_once` handles, in which order and under which flag, and when it serves every
registered group. -/
namespace NanoClaw.Ipc
open Store Json

/-- A file by its name in a directory. -/
structure NamedFile where
  name : String
  file : File

abbrev FileSet := Table NamedFile.name

/-- The directory of a group, with the `*.json` files in its two directories. -/
structure Directory where
  name : String
  messages : FileSet
  tasks : FileSet

/-- `sorted(directory.glob("*.json"))`. -/
def sortedFiles (files : FileSet) : List File :=
  (Latest.ascending NamedFile.name files.rows).map NamedFile.file

def Directory.listed (d : Directory) : GroupDir := ⟨d.name,sortedFiles d.messages,sortedFiles d.tasks⟩

/-- `sorted(self._base_dir.iterdir())`. -/
def listTree (tree : Table Directory.name) : List GroupDir :=
  (Latest.ascending Directory.name tree.rows).map Directory.listed

/-- The turn of one file, with the flag it is handled under. -/
structure Handling where
  source : String
  dir : IpcDir
  file : File
  isMain : Bool

section Log
variable (lib : Lib) (groups : Groups)

/-- The files that a loop comes to. -/
def visited (handle : State → File → Handled) : State → List File → List File
  | _, [] => []
  | s, f :: fs =>
    f :: match (handle s f).exc with
      | some _ => []
      | none => visited handle (handle s f).state fs

def handlingOf (groups : Groups) (source : String) (dir : IpcDir) (f : File) : Handling :=
  ⟨source,dir,f,isMainFolder groups source⟩

/-- The turns of a call for one directory. -/
def dirHandlings (s : State) (d : GroupDir) : List Handling :=
  (visited (handleMessage lib groups d.name) s d.messages).map (handlingOf groups d.name .messages) ++
    match processFiles (handleMessage lib groups d.name) s d.messages with
    | (⟨some _, _⟩, _) => []
    | (⟨none, s⟩, _) =>
      (visited (handleTask lib groups d.name) s d.tasks).map (handlingOf groups d.name .tasks)

/-- The turns of a `run_once`. -/
def handlings : State → List GroupDir → List Handling
  | _, [] => []
  | s, d :: ds =>
    if d.name = "errors" then handlings s ds
    else
      dirHandlings lib groups s d ++
        match processGroupDir lib groups s d with
        | (⟨some _, _⟩, _) => []
        | (⟨none, s⟩, _) => handlings s ds

/-- What a turn does. -/
def carryOut (s : State) (h : Handling) : State :=
  match h.dir with
  | .messages =>
    (handleFile lib (fun env => processMessagePayload groups h.source h.isMain env) s h.file).state
  | .tasks =>
    (handleFile lib (fun env => processTaskPayload lib groups h.source h.isMain env) s h.file).state

end Log

section Turns
variable {lib : Lib} {groups : Groups}

/-- What a loop does is done by the files it comes to. -/
theorem processFiles_visited {handle : State → File → Handled} {s : State} {files : List File} :
    (processFiles handle s files).1.state = fileEffects handle s (visited handle s files) := by
  induction files generalizing s with
  | nil => rfl
  | cons f fs ih =>
    rw [processFiles, visited]
    cases (handle s f).exc with
    | some e => rfl
    | none => exact ih

private theorem fileEffects_messages (s : State) (source : String) (files : List File) :
    fileEffects (handleMessage lib groups source) s files =
      (files.map (handlingOf groups source .messages)).foldl (carryOut lib groups) s := by
  rw [fileEffects, List.foldl_map]
  rfl

private theorem fileEffects_tasks (s : State) (source : String) (files : List File) :
    fileEffects (handleTask lib groups source) s files =
      (files.map (handlingOf groups source .tasks)).foldl (carryOut lib groups) s := by
  rw [fileEffects, List.foldl_map]
  rfl

theorem processGroupDir_state (s : State) (d : GroupDir) :
    (processGroupDir lib groups s d).1.state =
      (dirHandlings lib groups s d).foldl (carryOut lib groups) s := by
  have hmessages := @processFiles_visited (handleMessage lib groups d.name) s d.messages
  rw [fileEffects_messages] at hmessages
  rw [processGroupDir, dirHandlings, List.foldl_append, ← hmessages]
  rcases processFiles (handleMessage lib groups d.name) s d.messages with ⟨⟨_ | e,s₁⟩,left⟩
  · have htasks := @processFiles_visited (handleTask lib groups d.name) s₁ d.tasks
    rw [fileEffects_tasks] at htasks
    dsimp only
    rw [← htasks]
    rcases processFiles (handleTask lib groups d.name) s₁ d.tasks with ⟨⟨_ | e,s₂⟩,left'⟩ <;> rfl
  · rfl

/-- A `run_once` does nothing but carry out its turns, one after the other. -/
theorem runOnce_state (s : State) (ds : List GroupDir) :
    (runOnce lib groups s ds).1.state = (handlings lib groups s ds).foldl (carryOut lib groups) s := by
  induction ds generalizing s with
  | nil => rfl
  | cons d ds ih =>
    rw [runOnce, handlings]
    split_ifs with herrors
    · exact ih s
    · have hdir := @processGroupDir_state lib groups s d
      rw [List.foldl_append, ← hdir]
      rcases processGroupDir lib groups s d with ⟨⟨_ | e,s₁⟩,d'⟩
      · exact ih s₁
      · rfl

/-- All turns that the files of a directory call for. -/
def dirOwed (groups : Groups) (d : GroupDir) : List Handling :=
  d.messages.map (handlingOf groups d.name .messages) ++ d.tasks.map (handlingOf groups d.name .tasks)

private theorem visited_quiet {handle : State → File → Handled} {fatal : State → File → Prop}
    (hfatal : ∀ s f, (handle s f).exc ≠ none ↔ fatal s f) {s : State} {files : List File}
    (h : QuietFiles handle fatal s files) : visited handle s files = files := by
  induction files generalizing s with
  | nil => rfl
  | cons f fs ih =>
    have hexc : (handle s f).exc = none := not_not.mp (fun hne => h.1 ((hfatal s f).mp hne))
    rw [visited, hexc]
    exact congrArg (f :: ·) (ih h.2)

private theorem dirHandlings_quiet {s : State} {d : GroupDir} (h : QuietDir lib groups s d) :
    dirHandlings lib groups s d = dirOwed groups d := by
  rw [dirHandlings, visited_quiet (fun _ _ => handleMessage_exc_iff) h.messages,
    processFiles_quiet (fun _ _ => handleMessage_exc_iff) h.messages]
  dsimp only
  rw [visited_quiet (fun _ _ => handleTask_exc_iff) h.tasks]
  rfl

/-- Where no file is fatal, every file outside the directory called `errors` has its turn. -/
theorem handlings_quiet {s : State} {ds : List GroupDir} (h : QuietDirs lib groups s ds) :
    handlings lib groups s ds =
      (ds.filter (fun d => d.name ≠ "errors")).flatMap (dirOwed groups) := by
  induction ds generalizing s with
  | nil => rfl
  | cons d ds ih =>
    obtain ⟨hd,hds⟩ := h
    by_cases herrors : d.name = "errors"
    · rw [if_pos herrors] at hds
      rw [handlings, if_pos herrors, ih hds, List.filter_cons_of_neg (by simpa using herrors)]
    · rw [if_neg herrors] at hds
      have hquiet := hd herrors
      rw [handlings, if_neg herrors, dirHandlings_quiet hquiet, processGroupDir_quiet hquiet]
      dsimp only
      rw [ih hds, List.filter_cons_of_pos (by simpa using herrors), List.flatMap_cons]

end Turns

section Service
variable (lib : Lib) (groups : Groups)

/-- A request for a new task comes with the id of a row that exists. -/
def Collides (s : State) (f : File) : Prop :=
  ∃ fields, readJson lib.interp f = .ok (.obj fields) ∧
    getKey "type" fields = .str "schedule_task" ∧ IdTaken s f.env fields

/-- The statements for the tasks in the directories succeed, each in the state it is met in. -/
def DatabaseSucceeds : State → List GroupDir → Prop
  | _, [] => True
  | s, d :: ds =>
    (d.name ≠ "errors" → QuietFiles (handleTask lib groups d.name) (Collides lib)
      (fileEffects (handleMessage lib groups d.name) s d.messages) d.tasks) ∧
    DatabaseSucceeds (if d.name = "errors" then s else dirEffects lib groups s d) ds

/-- Directories of registered groups with well-formed files, which can be sent and stored. -/
structure Admissible (s : State) (tree : Table Directory.name) : Prop where
  valid : ∀ g ∈ groups.values, isValidGroupFolder g.folder = true
  registered : ∀ d ∈ tree.rows, ∃ g ∈ groups.values, g.folder = d.name
  messages : ∀ d ∈ tree.rows, ∀ f ∈ d.messages.rows, wellFormedMessage lib f.file = true
  tasks : ∀ d ∈ tree.rows, ∀ f ∈ d.tasks.rows, wellFormedTask lib f.file = true
  sends : ∀ d ∈ tree.rows, ∀ f ∈ d.messages.rows, f.file.env.sendFailure = none
  stores : DatabaseSucceeds lib groups s (listTree tree)

/-- Every file has one turn, in the order of the names of directories and files, under the main flag of
the group whose directory it lies in, and no file is left. -/
structure ServesAll (s : State) (tree : Table Directory.name) : Prop where
  handled : (handlings lib groups s (listTree tree)).map (fun h => (h.source,h.dir,h.file)) =
    (listTree tree).flatMap (fun d =>
      d.messages.map (d.name,IpcDir.messages,·) ++ d.tasks.map (d.name,IpcDir.tasks,·))
  flag : ∀ h ∈ handlings lib groups s (listTree tree), ∀ g ∈ groups.values, g.folder = h.source →
    h.isMain = decide (g.isMain = some true)
  left : ∀ d ∈ (runOnce lib groups s (listTree tree)).2, d.messages = [] ∧ d.tasks = []

/-- Groups with one folder have one flag. -/
def Agreed (folder : String) : Prop :=
  ∀ g ∈ groups.values, g.folder = folder → ∀ g' ∈ groups.values, g'.folder = folder →
    (g.isMain = some true ↔ g'.isMain = some true)

end Service

section Served
variable {lib : Lib} {groups : Groups} {s : State} {tree : Table Directory.name}

theorem mem_listTree {d : GroupDir} : d ∈ listTree tree ↔ ∃ d' ∈ tree.rows, d'.listed = d := by
  simp [listTree, (Latest.ascending_perm tree.rows).mem_iff]

theorem mem_sortedFiles {files : FileSet} {f : File} :
    f ∈ sortedFiles files ↔ ∃ f' ∈ files.rows, f'.file = f := by
  simp [sortedFiles, (Latest.ascending_perm files.rows).mem_iff]

theorem not_fatalMessage {source : String} {isMain : Bool} {f : File}
    (h : wellFormedMessage lib f = true) (hsend : f.env.sendFailure = none) :
    ¬FatalMessage lib groups source isMain f := by
  rw [wellFormedMessage] at h
  rcases hread : readJson lib.interp f with e | v
  · simp [hread] at h
  · cases v with
    | obj fields => simp [FatalMessage, hread, hsend]
    | _ => simp [hread] at h

/-- A well-formed request is fatal in the database at most. -/
theorem not_fatalTask {source : String} {isMain : Bool} {f : File}
    (h : wellFormedTask lib f = true) (hstores : ¬Collides lib s f) :
    ¬FatalTask lib groups source isMain s f := by
  rw [wellFormedTask] at h
  rcases hread : readJson lib.interp f with e | v
  · simp [hread] at h
  cases v with
  | obj fields =>
    rintro (⟨e,he,_⟩ | ⟨v,hv,hno⟩ | ⟨fields',hfields,hschedules,hcase⟩)
    · rw [hread] at he
      cases he
    · rw [hread] at hv
      cases hv
      exact hno fields rfl
    · rw [hread] at hfields
      cases hfields
      rcases hcase with hraises | ⟨_,htaken⟩
      · obtain ⟨e,he,_⟩ := computeFirstRun_escapes.mpr hraises
        simp [hread, isStr_eq_true.mpr hschedules.1, hasFirstRun, he] at h
      · exact hstores ⟨fields,hread,hschedules.1,htaken⟩
  | _ => simp [hread] at h

private theorem quietFiles_of {handle : State → File → Handled} {fatal fatal' : State → File → Prop}
    {files : List File} (hfiles : ∀ s, ∀ f ∈ files, ¬fatal' s f → ¬fatal s f)
    (h : QuietFiles handle fatal' s files) : QuietFiles handle fatal s files := by
  induction files generalizing s with
  | nil => trivial
  | cons f fs ih =>
    exact ⟨hfiles s f List.mem_cons_self h.1,
      ih (fun s f hf => hfiles s f (List.mem_cons_of_mem _ hf)) h.2⟩

private theorem quietFiles_of_forall {handle : State → File → Handled} {fatal : State → File → Prop}
    {files : List File} (hfiles : ∀ s, ∀ f ∈ files, ¬fatal s f) : QuietFiles handle fatal s files := by
  induction files generalizing s with
  | nil => trivial
  | cons f fs ih =>
    exact ⟨hfiles s f List.mem_cons_self,ih (fun s f hf => hfiles s f (List.mem_cons_of_mem _ hf))⟩

private theorem quietDirs_of {ds : List GroupDir}
    (hvalid : ∀ d ∈ ds, isValidGroupFolder d.name = true)
    (hmessages : ∀ d ∈ ds, ∀ f ∈ d.messages,
      wellFormedMessage lib f = true ∧ f.env.sendFailure = none)
    (htasks : ∀ d ∈ ds, ∀ f ∈ d.tasks, wellFormedTask lib f = true)
    (h : DatabaseSucceeds lib groups s ds) : QuietDirs lib groups s ds := by
  induction ds generalizing s with
  | nil => trivial
  | cons d ds ih =>
    rw [List.forall_mem_cons] at hvalid hmessages htasks
    refine ⟨fun herrors => ⟨?_,?_,hvalid.1⟩,ih hvalid.2 hmessages.2 htasks.2 h.2⟩
    · exact quietFiles_of_forall
        (fun _ f hf => not_fatalMessage (hmessages.1 f hf).1 (hmessages.1 f hf).2)
    · exact quietFiles_of (fun _ f hf hstores => not_fatalTask (htasks.1 f hf) hstores) (h.1 herrors)

/-- No admissible file ends a `run_once`. -/
theorem Admissible.quiet (h : Admissible lib groups s tree) :
    QuietDirs lib groups s (listTree tree) := by
  refine quietDirs_of ?_ ?_ ?_ h.stores
  · intro d hd
    obtain ⟨d',hd',rfl⟩ := mem_listTree.mp hd
    obtain ⟨g,hg,hfolder⟩ := h.registered d' hd'
    exact (congrArg isValidGroupFolder hfolder).symm.trans (h.valid g hg)
  · intro d hd f hf
    obtain ⟨d',hd',rfl⟩ := mem_listTree.mp hd
    obtain ⟨f',hf',rfl⟩ := mem_sortedFiles.mp hf
    exact ⟨h.messages d' hd' f' hf',h.sends d' hd' f' hf'⟩
  · intro d hd f hf
    obtain ⟨d',hd',rfl⟩ := mem_listTree.mp hd
    obtain ⟨f',hf',rfl⟩ := mem_sortedFiles.mp hf
    exact h.tasks d' hd' f' hf'

/-- The flag of a directory is that of a group with this folder. -/
theorem isMainFolder_of_mem {folder : String} {g : RegisteredGroup} (hg : g ∈ groups.values)
    (hfolder : g.folder = folder) : ∃ g' ∈ groups.values, g'.folder = folder ∧
      isMainFolder groups folder = decide (g'.isMain = some true) := by
  rw [isMainFolder]
  rcases hfind : groups.values.reverse.find? (fun g => decide (g.folder = folder)) with _ | g'
  · have hnone := List.find?_eq_none.mp hfind g (List.mem_reverse.mpr hg)
    simp [hfolder] at hnone
  · have hsome := List.find?_some hfind
    exact ⟨g',List.mem_reverse.mp (List.mem_of_find?_eq_some hfind),by simpa using hsome,
      congrArg (Option.any _) hfind⟩

theorem mem_dirOwed {d : GroupDir} {h : Handling} (hh : h ∈ dirOwed groups d) :
    h.source = d.name ∧ h.isMain = isMainFolder groups d.name := by
  rcases List.mem_append.mp hh with hh | hh
  · obtain ⟨f,_,rfl⟩ := List.mem_map.mp hh
    exact ⟨rfl,rfl⟩
  · obtain ⟨f,_,rfl⟩ := List.mem_map.mp hh
    exact ⟨rfl,rfl⟩

theorem dirOwed_eq_nil_iff {d : Directory} :
    dirOwed groups d.listed = [] ↔ d.messages.rows = [] ∧ d.tasks.rows = [] := by
  have hnil : ∀ files : FileSet, sortedFiles files = [] ↔ files.rows = [] := by
    intro files
    rw [sortedFiles, List.map_eq_nil_iff, ← List.length_eq_zero_iff,
      (Latest.ascending_perm files.rows).length_eq, List.length_eq_zero_iff]
  rw [dirOwed, List.append_eq_nil_iff, List.map_eq_nil_iff, List.map_eq_nil_iff]
  exact and_congr (hnil d.messages) (hnil d.tasks)

private theorem flatMap_filter_of_nil {α β : Type} {p : α → Prop} [DecidablePred p] {f : α → List β}
    {l : List α} (h : ∀ x ∈ l, ¬p x → f x = []) : (l.filter p).flatMap f = l.flatMap f := by
  induction l with
  | nil => rfl
  | cons x l ih =>
    obtain ⟨hx,hl⟩ := List.forall_mem_cons.mp h
    rw [List.filter_cons, List.flatMap_cons, ← ih hl]
    by_cases hp : p x
    · rw [if_pos (decide_eq_true hp), List.flatMap_cons]
    · rw [if_neg (by simpa using hp), hx hp, List.nil_append]

/-- The files of the directory called `errors` are left, and no others. -/
theorem Admissible.left (h : Admissible lib groups s tree) :
    (runOnce lib groups s (listTree tree)).2 = (listTree tree).map emptied :=
  congrArg Prod.snd (runOnce_quiet h.quiet)

theorem Admissible.mem_handlings_iff (h : Admissible lib groups s tree) {turn : Handling} :
    turn ∈ handlings lib groups s (listTree tree) ↔
      ∃ d ∈ tree.rows, d.name ≠ "errors" ∧ turn ∈ dirOwed groups d.listed := by
  rw [handlings_quiet h.quiet, List.mem_flatMap]
  constructor
  · rintro ⟨d,hd,hturn⟩
    obtain ⟨hmem,hname⟩ := List.mem_filter.mp hd
    obtain ⟨d',hd',rfl⟩ := mem_listTree.mp hmem
    exact ⟨d',hd',of_decide_eq_true hname,hturn⟩
  · rintro ⟨d,hd,hname,hturn⟩
    have hmem : d.listed ∈ listTree tree := mem_listTree.mpr ⟨d,hd,rfl⟩
    exact ⟨d.listed,List.mem_filter.mpr ⟨hmem,decide_eq_true hname⟩,hturn⟩

theorem ServesAll.name_ne_errors (h : Admissible lib groups s tree) (hserves : ServesAll lib groups s tree)
    {d : Directory} (hd : d ∈ tree.rows) (hfiles : ¬(d.messages.rows = [] ∧ d.tasks.rows = [])) :
    d.name ≠ "errors" := by
  intro herrors
  have hkept : d.listed ∈ (runOnce lib groups s (listTree tree)).2 := by
    rw [h.left]
    exact List.mem_map.mpr ⟨d.listed,mem_listTree.mpr ⟨d,hd,rfl⟩,if_pos herrors⟩
  obtain ⟨hmessages,htasks⟩ := hserves.left _ hkept
  refine hfiles ((@dirOwed_eq_nil_iff groups d).mp ?_)
  rw [dirOwed, hmessages, htasks]
  rfl

/-- A turn has one flag, for all groups with the folder. -/
theorem ServesAll.agreed (h : Admissible lib groups s tree) (hserves : ServesAll lib groups s tree)
    {d : Directory} (hd : d ∈ tree.rows) (hfiles : ¬(d.messages.rows = [] ∧ d.tasks.rows = [])) :
    Agreed groups d.name := by
  intro g hg hfolder g' hg' hfolder'
  have howed : dirOwed groups d.listed ≠ [] := fun hnil => hfiles (dirOwed_eq_nil_iff.mp hnil)
  obtain ⟨turn,hturn⟩ := List.exists_mem_of_ne_nil _ howed
  have hin := h.mem_handlings_iff.mpr ⟨d,hd,hserves.name_ne_errors h hd hfiles,hturn⟩
  have hsource : turn.source = d.name := (mem_dirOwed hturn).1
  have hflag := hserves.flag turn hin g hg (hfolder.trans hsource.symm)
  have hflag' := hserves.flag turn hin g' hg' (hfolder'.trans hsource.symm)
  simpa using hflag.symm.trans hflag'

/-- The turns are those of all files where none lies in the directory called `errors`. -/
theorem Admissible.handled (h : Admissible lib groups s tree)
    (hnames : ∀ d ∈ tree.rows, ¬(d.messages.rows = [] ∧ d.tasks.rows = []) → d.name ≠ "errors") :
    (handlings lib groups s (listTree tree)).map (fun h => (h.source,h.dir,h.file)) =
      (listTree tree).flatMap (fun d =>
        d.messages.map (d.name,IpcDir.messages,·) ++ d.tasks.map (d.name,IpcDir.tasks,·)) := by
  rw [handlings_quiet h.quiet, flatMap_filter_of_nil, List.map_flatMap]
  · refine congrArg (List.flatMap · (listTree tree)) (funext fun d => ?_)
    simp only [dirOwed, List.map_append, List.map_map]
    rfl
  · intro d hd hname
    obtain ⟨d',hd',rfl⟩ := mem_listTree.mp hd
    rw [dirOwed_eq_nil_iff]
    by_contra hfiles
    exact hname (hnames d' hd' hfiles)

theorem Admissible.flag (h : Admissible lib groups s tree)
    (hagreed : ∀ d ∈ tree.rows, ¬(d.messages.rows = [] ∧ d.tasks.rows = []) → Agreed groups d.name)
    {turn : Handling} (hturn : turn ∈ handlings lib groups s (listTree tree)) {g : RegisteredGroup}
    (hg : g ∈ groups.values) (hfolder : g.folder = turn.source) :
    turn.isMain = decide (g.isMain = some true) := by
  obtain ⟨d,hd,_,hin⟩ := h.mem_handlings_iff.mp hturn
  obtain ⟨hsource,hflag⟩ := mem_dirOwed hin
  have hfiles : ¬(d.messages.rows = [] ∧ d.tasks.rows = []) := by
    rw [← @dirOwed_eq_nil_iff groups d]
    exact List.ne_nil_of_mem hin
  obtain ⟨g',hg',hfolder',hmain⟩ := isMainFolder_of_mem hg (hfolder.trans hsource)
  rw [hflag, hmain, decide_eq_decide]
  exact hagreed d hd hfiles g' hg' hfolder' g hg (hfolder.trans hsource)

theorem Admissible.none_left (h : Admissible lib groups s tree)
    (hnames : ∀ d ∈ tree.rows, ¬(d.messages.rows = [] ∧ d.tasks.rows = []) → d.name ≠ "errors")
    {d : GroupDir} (hd : d ∈ (runOnce lib groups s (listTree tree)).2) :
    d.messages = [] ∧ d.tasks = [] := by
  rw [h.left] at hd
  obtain ⟨d₀,hd₀,rfl⟩ := List.mem_map.mp hd
  obtain ⟨d',hd',rfl⟩ := mem_listTree.mp hd₀
  by_cases hname : d'.listed.name = "errors"
  · rw [emptied, if_pos hname]
    have hempty : d'.messages.rows = [] ∧ d'.tasks.rows = [] := by
      by_contra hfiles
      exact hnames d' hd' hfiles hname
    have hnil := (@dirOwed_eq_nil_iff groups d').mpr hempty
    rw [dirOwed, List.append_eq_nil_iff, List.map_eq_nil_iff, List.map_eq_nil_iff] at hnil
    exact hnil
  · rw [emptied, if_neg hname]
    exact ⟨rfl,rfl⟩

/-- Admissible files are all served exactly when none lies in a directory called `errors`, and the groups
of a directory with files agree on their flag. -/
theorem every_group_served_iff (h : Admissible lib groups s tree) :
    ServesAll lib groups s tree ↔
      ∀ d ∈ tree.rows, ¬(d.messages.rows = [] ∧ d.tasks.rows = []) →
        d.name ≠ "errors" ∧ Agreed groups d.name := by
  constructor
  · intro hserves d hd hfiles
    exact ⟨hserves.name_ne_errors h hd hfiles,hserves.agreed h hd hfiles⟩
  · intro hall
    have hnames := fun d hd hfiles => (hall d hd hfiles).1
    have hagreed := fun d hd hfiles => (hall d hd hfiles).2
    refine ⟨h.handled hnames,?_,?_⟩
    · intro turn hturn g hg hfolder
      exact h.flag hagreed hturn hg hfolder
    · intro d hd
      exact h.none_left hnames hd

end Served

section Runs

private def hourlyCron : Lib := ⟨⟨String.ofList,10⟩,fun _ now => .ok (now + 3600000000)⟩

private def chatIn (folder : String) : Groups :=
  Dict.empty.set "local:main" { mainGroup with folder }

private def jsonFile (name : String) (fields : List (String × Json)) : NamedFile :=
  ⟨name,⟨(Json.dumps (.obj fields)).map (UInt8.ofNat ·.toNat),⟨0,"0",none⟩⟩⟩

private def greeting (name chatJid : String) : NamedFile :=
  jsonFile name [("type",.str "message"),("chatJid",.str chatJid),("text",.str "hello")]

/-- A directory with one message. -/
private def greeted (folder : String) : Table Directory.name where
  rows := [⟨folder,⟨[greeting "m1.json" "local:main"],by decide⟩,Table.empty⟩]
  nodup := List.nodup_singleton folder

private theorem greeted_admissible {folder : String} (hfolder : isValidGroupFolder folder = true) :
    Admissible hourlyCron (chatIn folder) ⟨TaskDb.empty,[]⟩ (greeted folder) where
  valid := by simpa [chatIn, Dict.values, Dict.set, Dict.empty, Dict.insert] using hfolder
  registered := by simp [chatIn, greeted, Dict.values, Dict.set, Dict.empty, Dict.insert]
  messages := by
    intro d hd f hf
    cases List.mem_singleton.mp hd
    cases List.mem_singleton.mp hf
    decide +kernel
  tasks := by
    intro d hd f hf
    cases List.mem_singleton.mp hd
    cases hf
  sends := by
    intro d hd f hf
    cases List.mem_singleton.mp hd
    cases List.mem_singleton.mp hf
    rfl
  stores := ⟨fun _ => trivial,trivial⟩

private def household : Groups :=
  mainGroups.set "local:family"
    { name := "Family", folder := "family", trigger := "@Andy", addedAt := "" }

private def pauseT : List (String × Json) := [("type",.str "pause_task"),("taskId",.str "t")]

/-- Messages of both groups, and a task that the main group creates and pauses. -/
private def requested : Table Directory.name where
  rows := [
    ⟨"main",⟨[greeting "m2.json" "local:family",greeting "m1.json" "local:main"],by decide⟩,
      ⟨[jsonFile "t1.json" [("type",.str "schedule_task"),("targetJid",.str "local:main"),
          ("prompt",.str "hi"),("schedule_type",.str "interval"),("schedule_value",.str "3600000"),
          ("taskId",.str "t")],
        jsonFile "t2.json" pauseT],by decide⟩⟩,
    ⟨"family",⟨[greeting "m1.json" "local:family"],by decide⟩,Table.empty⟩]
  nodup := by decide

theorem every_group_served_iff_main :
    ServesAll hourlyCron household ⟨TaskDb.empty,[]⟩ requested := by
  have hadmissible : Admissible hourlyCron household ⟨TaskDb.empty,[]⟩ requested := by
    refine ⟨by decide,by decide,by decide +kernel,by decide +kernel,by decide,?_⟩
    refine ⟨fun _ => trivial,fun _ => ⟨?_,?_,trivial⟩,trivial⟩
    · rintro ⟨fields,_,_,_,_,_,_,_,_,htaken⟩
      exact htaken rfl
    · rintro ⟨fields,hread,htype,_⟩
      have hpause : readJson hourlyCron.interp (jsonFile "t2.json" pauseT).file = .ok (.obj pauseT) := rfl
      cases hread.symm.trans hpause
      exact absurd (Json.str.inj htype) (by decide)
  have hnames : ∀ d ∈ requested.rows, d.name ≠ "errors" ∧ Agreed household d.name := by
    simp only [Agreed]
    decide
  exact (every_group_served_iff hadmissible).mpr (fun d hd _ => hnames d hd)

/-- The name is that of a valid folder, and the watcher passes it over. -/
theorem errors_folder_unserved : isValidGroupFolder "errors" = true ∧
    Admissible hourlyCron (chatIn "errors") ⟨TaskDb.empty,[]⟩ (greeted "errors") ∧
    ¬ServesAll hourlyCron (chatIn "errors") ⟨TaskDb.empty,[]⟩ (greeted "errors") := by
  refine ⟨by decide,greeted_admissible (by decide),fun h => ?_⟩
  have hleft := h.left
  simp [listTree, greeted, Latest.ascending, Directory.listed, runOnce, sortedFiles] at hleft

end Runs

end NanoClaw.Ipc
