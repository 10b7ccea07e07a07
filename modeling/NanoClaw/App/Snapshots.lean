import NanoClaw.Ipc.Watcher
import NanoClaw.Store.Chats

/-! The snapshot of the groups an agent may reach. A call of `process_group_messages` writes it
from the table of chats, the watcher from the registered groups, both into the same file. -/
namespace NanoClaw.App
open Store Ipc IsoText

structure AvailableGroup where
  jid : String
  name : String
  lastActivity : String
  isRegistered : Bool
  deriving DecidableEq, Repr

/-- `str(chat.get("name") or jid)`. -/
def shownName (chat : ChatRow) : String :=
  match chat.name with
  | none => chat.jid
  | some name => if name = "" then chat.jid else name

/-- The chats that `get_available_groups` does not skip. -/
def isListed (chat : ChatRow) : Bool := chat.jid ≠ "__group_sync__" && chat.isGroup = some true

/-- `get_available_groups`, over the rows of `get_all_chats`. -/
def getAvailableGroups (groups : Groups) (chats : List ChatRow) : List AvailableGroup :=
  (chats.filter isListed).map (fun chat =>
    { jid := chat.jid
      name := shownName chat
      lastActivity := chat.lastMessageTime
      isRegistered := chat.jid ∈ groups.keys })

/-- What `run_once` of the watcher passes for every directory. -/
def watchedGroups (groups : Groups) (now : Int) : List AvailableGroup :=
  groups.entries.map (fun (jid, group) =>
    { jid := jid
      name := group.name
      lastActivity := utcIso now
      isRegistered := true })

/-- `write_groups_snapshot`: the list it writes, or the error for a folder that is not valid. -/
def writeGroupsSnapshot (groupFolder : String) (isMain : Bool) (groups : List AvailableGroup) :
    Except PyExc (List AvailableGroup) :=
  if isValidGroupFolder groupFolder then .ok (if isMain then groups else [])
  else .error .valueError

section Writers
variable (groups : Groups) (scan : List ChatRow → List ChatRow) (chats : ChatTable)

/-- The snapshot a call of `process_group_messages` writes for its group. -/
def callSnapshot (group : RegisteredGroup) : Except PyExc (List AvailableGroup) :=
  writeGroupsSnapshot group.folder (group.isMain = some true)
    (getAvailableGroups groups (getAllChats scan chats))

/-- The snapshot the watcher writes when it visits a directory. -/
def watcherSnapshot (now : Int) (source : String) : Except PyExc (List AvailableGroup) :=
  writeGroupsSnapshot source (isMainFolder groups source) (watchedGroups groups now)

/-- The listed chats are the registered groups, in their order and under their names. -/
def ListsRegistered : Prop :=
  List.Forall₂ (fun chat entry => chat.jid = entry.1 ∧ shownName chat = entry.2.name)
    ((getAllChats scan chats).filter isListed) groups.entries

end Writers

/-- An entry without the time of writing. -/
def AvailableGroup.listing (g : AvailableGroup) : String × String × Bool :=
  (g.jid,g.name,g.isRegistered)

variable {groups : Groups} {scan : List ChatRow → List ChatRow} {chats : ChatTable}

/-- The two lists have the same entries exactly when every listed chat is registered. -/
theorem listing_eq_iff {now : Int} :
    (getAvailableGroups groups (getAllChats scan chats)).map (·.listing) =
        (watchedGroups groups now).map (·.listing) ↔ ListsRegistered groups scan chats := by
  rw [getAvailableGroups, watchedGroups, List.map_map, List.map_map, ListsRegistered,
    ← List.forall₂_eq_eq_eq, List.forall₂_map_left_iff, List.forall₂_map_right_iff]
  constructor
  · intro h
    exact h.imp (fun _ _ h => ⟨congrArg (·.1) h,congrArg (·.2.1) h⟩)
  · intro h
    obtain ⟨hlen,hget⟩ := List.forall₂_iff_get.mp h
    refine List.forall₂_iff_get.mpr ⟨hlen,fun i h₁ h₂ => ?_⟩
    obtain ⟨hjid,hname⟩ := hget i h₁ h₂
    have hkey : (groups.entries.get ⟨i,h₂⟩).1 ∈ groups.keys :=
      List.mem_map_of_mem (List.get_mem _ _)
    exact Prod.ext hjid (Prod.ext hname (decide_eq_true (hjid ▸ hkey)))

theorem listed_eq_nil_iff (hscan : ∀ rows, (scan rows).Perm rows) :
    getAvailableGroups groups (getAllChats scan chats) = [] ↔
      ∀ chat ∈ chats.rows, isListed chat = false := by
  rw [getAvailableGroups, List.map_eq_nil_iff, List.filter_eq_nil_iff]
  simp only [mem_getAllChats hscan, Bool.not_eq_true]

/-- For every table of chats, all registered groups and the folder of one of them: a call and the
watcher write the same entries exactly when the folder is not valid, so that both fail, or the
watcher takes it for the main folder, the group is the main one and the listed chats are the
registered groups; or the watcher does not, and the group is not the main one or no chat is
listed. -/
theorem snapshots_agree_iff (hscan : ∀ rows, (scan rows).Perm rows) {now : Int} {jid : String}
    {group : RegisteredGroup} (hgroup : groups.get? jid = some group) :
    (callSnapshot groups scan chats group).map (·.map (·.listing)) =
        (watcherSnapshot groups now group.folder).map (·.map (·.listing)) ↔
      isValidGroupFolder group.folder = false ∨
        (isMainFolder groups group.folder = true ∧ group.isMain = some true ∧
          ListsRegistered groups scan chats) ∨
        (isMainFolder groups group.folder = false ∧
          (group.isMain = some true → ∀ chat ∈ chats.rows, isListed chat = false)) := by
  have hnonempty : (watchedGroups groups now).map (·.listing) ≠ [] := by
    have hmem := Dict.mem_of_lookup hgroup
    rw [watchedGroups, List.map_map]
    exact List.ne_nil_of_mem (List.mem_map_of_mem hmem)
  rw [callSnapshot, watcherSnapshot, writeGroupsSnapshot, writeGroupsSnapshot]
  cases hvalid : isValidGroupFolder group.folder with
  | false => simp
  | true =>
    cases hwatched : isMainFolder groups group.folder with
    | true =>
      by_cases hmain : group.isMain = some true
      · simp [hmain, Except.map, listing_eq_iff]
      · simp [hmain, Except.map, hnonempty.symm]
    | false =>
      by_cases hmain : group.isMain = some true
      · simp [hmain, Except.map, listed_eq_nil_iff hscan]
      · simp [hmain, Except.map]

section Runs

private def chatRow (jid name : String) : ChatRow :=
  ⟨jid,some name,"2024-01-01T00:00:00Z",some "local-file",some true⟩

/-- The table has the registered chat alone. -/
private def mainChatTable : ChatTable := upsertChat Table.empty (chatRow "local:main" "Main")

theorem snapshots_agree_iff_registered :
    (callSnapshot mainGroups id mainChatTable mainGroup).map (·.map (·.listing)) =
        (watcherSnapshot mainGroups 0 "main").map (·.map (·.listing)) ↔
      isValidGroupFolder "main" = false ∨
        (isMainFolder mainGroups "main" = true ∧ mainGroup.isMain = some true ∧
          ListsRegistered mainGroups id mainChatTable) ∨
        (isMainFolder mainGroups "main" = false ∧
          (mainGroup.isMain = some true →
            ∀ chat ∈ mainChatTable.rows, isListed chat = false)) := by
  have hgroup : mainGroups.get? "local:main" = some mainGroup := rfl
  exact snapshots_agree_iff (fun _ => .refl _) hgroup

/-- A chat that is not registered stands in the call's list, and the watcher drops it. -/
theorem watcher_hides_chat :
    let chats := upsertChat mainChatTable (chatRow "local:family" "Family")
    (callSnapshot mainGroups id chats mainGroup).map (·.map (·.listing)) =
        .ok [("local:main","Main",true),("local:family","Family",false)] ∧
      (watcherSnapshot mainGroups 0 "main").map (·.map (·.listing)) =
        .ok [("local:main","Main",true)] := by
  decide +kernel

end Runs

end NanoClaw.App
