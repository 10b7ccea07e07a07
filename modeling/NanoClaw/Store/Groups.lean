import NanoClaw.Library.JsonLayout
import NanoClaw.Library.PyText

/-! Registered groups, the names their folders may have, and the table that keeps them. -/
namespace NanoClaw.Store
open Json

structure AdditionalMount where
  hostPath : String
  containerPath : Option String := none
  readonly : Bool := true
  deriving DecidableEq, Repr

structure ContainerConfig where
  additionalMounts : Option (List AdditionalMount) := none
  timeout : Option Int := none
  deriving DecidableEq, Repr

structure RegisteredGroup where
  name : String
  folder : String
  trigger : String
  addedAt : String
  containerConfig : Option ContainerConfig := none
  requiresTrigger : Option Bool := none
  isMain : Option Bool := none
  deriving DecidableEq, Repr

abbrev Groups := Dict String RegisteredGroup

def isFolderStart (c : Char) : Bool :=
  ('A' ≤ c && c ≤ 'Z') || ('a' ≤ c && c ≤ 'z') || ('0' ≤ c && c ≤ '9')

/-- `GROUP_FOLDER_PATTERN.fullmatch`. -/
def matchesFolderPattern : List Char → Bool
  | [] => false
  | c :: cs =>
    isFolderStart c && cs.length ≤ 63 && cs.all (fun c => isFolderStart c || c == '_' || c == '-')

def isValidGroupFolder (folder : String) : Bool :=
  let s := folder.toList
  !s.isEmpty && s == PyText.strip s && matchesFolderPattern s &&
    !(s.contains '/' || s.contains '\\' || PyText.hasDotDot s) &&
    s.map Char.toLower != "global".toList

/-- `asdict` of a mount. -/
def AdditionalMount.asdict (mount : AdditionalMount) : Json :=
  .obj [("host_path",str mount.hostPath),
    ("container_path",(mount.containerPath.map str).getD null),("readonly",bool mount.readonly)]

/-- `asdict` of a container config. -/
def ContainerConfig.asdict (config : ContainerConfig) : Json :=
  .obj [("additional_mounts",
      (config.additionalMounts.map (fun mounts => arr (mounts.map (·.asdict)))).getD null),
    ("timeout",(config.timeout.map int).getD null)]

/-- A row of `registered_groups`. The last two columns hold numbers that stand for truth values. -/
structure GroupRow where
  jid : String
  name : String
  folder : String
  triggerPattern : String
  addedAt : String
  containerConfig : Option String
  requiresTrigger : Option Bool
  isMain : Bool
  deriving DecidableEq, Repr

/-- The text of a container config. `dumps` raises for a number the interpreter does not print. -/
def configJson : Option ContainerConfig → Except PyExc (Option String)
  | none => .ok none
  | some config =>
    if (config.timeout.map printable).getD true then
      .ok (some (String.ofList (dumps config.asdict)))
    else .error .valueError

/-- `set_registered_group`: `INSERT OR REPLACE` removes the rows with the same jid or the same
folder, and both are unique. -/
def setRegisteredGroup (rows : List GroupRow) (jid : String) (group : RegisteredGroup) :
    Except PyExc (List GroupRow) :=
  if ¬isValidGroupFolder group.folder then .error .valueError
  else
    match configJson group.containerConfig with
    | .error e => .error e
    | .ok config =>
      .ok (rows.filter (fun r => r.jid ≠ jid ∧ r.folder ≠ group.folder) ++
        [{ jid := jid
           name := group.name
           folder := group.folder
           triggerPattern := group.trigger
           addedAt := group.addedAt
           containerConfig := config
           requiresTrigger := some (group.requiresTrigger ≠ some false)
           isMain := group.isMain = some true }])

theorem setRegisteredGroup_succeeds {rows : List GroupRow} {jid : String} {group : RegisteredGroup}
    {raw : Option String} (hvalid : isValidGroupFolder group.folder = true)
    (hraw : configJson group.containerConfig = .ok raw) :
    ∃ rows', setRegisteredGroup rows jid group = .ok rows' := by
  rw [setRegisteredGroup, if_neg (not_not_intro hvalid), hraw]
  exact ⟨_,rfl⟩

theorem mem_setRegisteredGroup {rows rows' : List GroupRow} {jid : String} {group : RegisteredGroup}
    (h : setRegisteredGroup rows jid group = .ok rows') {row : GroupRow} (hrow : row ∈ rows') :
    row ∈ rows ∨ row.jid = jid := by
  simp only [setRegisteredGroup] at h
  split_ifs at h
  split at h
  · cases h
  · cases h
    rcases List.mem_append.mp hrow with hrow | hrow
    · exact .inl (List.mem_filter.mp hrow).1
    · rw [List.mem_singleton.mp hrow]
      exact .inr rfl

section Reading
variable (interp : Interp)

/-- What one mount of a stored config adds to the list; none for a path of a type that
`AdditionalMount` does not declare. -/
def mountOf : Json → Option (List AdditionalMount)
  | .obj fields =>
    let readonly := ((Dict.lookup "readonly" fields).getD (bool true)).truthy
    match (getKey "hostPath" fields).orElse (getKey "host_path" fields) with
    | .str hostPath =>
      match (getKey "containerPath" fields).orElse (getKey "container_path" fields) with
      | .null => some [⟨hostPath,none,readonly⟩]
      | .str containerPath => some [⟨hostPath,some containerPath,readonly⟩]
      | _ => none
    | .illFormed _ => none
    | _ => some []
  | _ => some []

def mountsOf : Json → Option (List AdditionalMount)
  | .arr items => (items.mapM mountOf).map List.flatten
  | _ => some []

/-- The container config of a row. None where reading it raises or gives a value of a type that
`ContainerConfig` does not declare: nothing that `set_registered_group` writes. -/
def configOf : Option String → Option (Option ContainerConfig)
  | none => some none
  | some raw =>
    if raw = "" then some none
    else
      match loads interp raw.toList with
      | .error .jsonDecodeError => some none
      | .ok (.obj fields) =>
        let rawMounts := ((getKey "additionalMounts" fields).orElse
          (getKey "additional_mounts" fields)).orElse (arr [])
        match mountsOf rawMounts, getKey "timeout" fields with
        | some mounts, .null => some (some ⟨if mounts = [] then none else some mounts,none⟩)
        | some mounts, .int n => some (some ⟨if mounts = [] then none else some mounts,some n⟩)
        | _, _ => none
      | _ => none

/-- `_row_to_registered_group`. -/
def rowToRegisteredGroup (row : GroupRow) : Option RegisteredGroup :=
  (configOf interp row.containerConfig).map (fun config =>
    { name := row.name
      folder := row.folder
      trigger := row.triggerPattern
      addedAt := row.addedAt
      containerConfig := config
      requiresTrigger := row.requiresTrigger
      isMain := some row.isMain })

/-- `get_all_registered_groups`: rows with a folder that is not valid are skipped. -/
def getAllRegisteredGroups (rows : List GroupRow) : Option Groups :=
  rows.foldlM (fun result row =>
    if isValidGroupFolder row.folder then (rowToRegisteredGroup interp row).map (result.set row.jid)
    else some result) Dict.empty

/-- Every row with a valid folder is read. -/
theorem isSome_getAllRegisteredGroups {rows : List GroupRow} {groups : Groups}
    (h : getAllRegisteredGroups interp rows = some groups) {row : GroupRow} (hmem : row ∈ rows)
    (hvalid : isValidGroupFolder row.folder = true) : (groups.get? row.jid).isSome := by
  have hgo : ∀ (rows : List GroupRow) (acc : Groups), rows.foldlM (fun result row =>
      if isValidGroupFolder row.folder then
        (rowToRegisteredGroup interp row).map (result.set row.jid)
      else some result) acc = some groups →
      (∀ jid, (acc.get? jid).isSome → (groups.get? jid).isSome) ∧
      ∀ row ∈ rows, isValidGroupFolder row.folder = true → (groups.get? row.jid).isSome := by
    intro rows
    induction rows with
    | nil =>
      intro acc h
      cases h
      exact ⟨fun _ h => h,by simp⟩
    | cons r rows ih =>
      intro acc h
      rw [List.foldlM_cons] at h
      obtain ⟨acc',hacc,h⟩ := Option.bind_eq_some_iff.mp h
      obtain ⟨hkept,hrest⟩ := ih acc' h
      split at hacc
      · obtain ⟨group,_,rfl⟩ := Option.map_eq_some_iff.mp hacc
        refine ⟨fun jid hjid => hkept jid ?_,fun row hrow hvalid => ?_⟩
        · by_cases hj : jid = r.jid
          · rw [hj, Dict.get?_set_self]
            rfl
          · rwa [Dict.get?_set_ne _ _ hj]
        · rcases List.mem_cons.mp hrow with rfl | hrow
          · refine hkept _ ?_
            rw [Dict.get?_set_self]
            rfl
          · exact hrest row hrow hvalid
      · rename_i hbad
        cases hacc
        refine ⟨hkept,fun row hrow hvalid => ?_⟩
        rcases List.mem_cons.mp hrow with rfl | hrow
        · exact absurd hvalid hbad
        · exact hrest row hrow hvalid
  exact (hgo rows Dict.empty h).2 row hmem hvalid

end Reading

/-- What is left of a container config that is stored and read back: an empty list of mounts
comes back as none. -/
def ContainerConfig.stored (config : ContainerConfig) : ContainerConfig :=
  { config with additionalMounts :=
      if config.additionalMounts = some [] then none else config.additionalMounts }

/-- What is left of a group that is stored and read back: defaults take the place of `None`. -/
def RegisteredGroup.stored (group : RegisteredGroup) : RegisteredGroup :=
  { group with
    containerConfig := group.containerConfig.map (·.stored)
    requiresTrigger := some (group.requiresTrigger ≠ some false)
    isMain := some (group.isMain = some true) }

section RoundTrip
variable {interp : Interp}

theorem ContainerConfig.stored_stored (config : ContainerConfig) :
    config.stored.stored = config.stored := by
  unfold ContainerConfig.stored
  by_cases h : config.additionalMounts = some []
  · simp [h]
  · simp [h]

theorem RegisteredGroup.stored_stored (group : RegisteredGroup) :
    group.stored.stored = group.stored := by
  have hconfig : ∀ config : Option ContainerConfig,
      (config.map (·.stored)).map (·.stored) = config.map (·.stored) := by
    intro config
    cases config with
    | none => rfl
    | some config => exact congrArg some config.stored_stored
  simp only [RegisteredGroup.stored, hconfig]
  simp

private theorem mountOf_asdict (mount : AdditionalMount) : mountOf mount.asdict = some [mount] := by
  obtain ⟨hostPath,containerPath,readonly⟩ := mount
  cases containerPath with
  | none => simp [AdditionalMount.asdict, mountOf, getKey, Dict.lookup, orElse, truthy]
  | some path => simp [AdditionalMount.asdict, mountOf, getKey, Dict.lookup, orElse, truthy]

private theorem mapM_mountOf (mounts : List AdditionalMount) :
    (mounts.map (·.asdict)).mapM mountOf = some (mounts.map (fun mount => [mount])) := by
  induction mounts with
  | nil => rfl
  | cons mount mounts ih =>
    rw [List.map_cons, List.mapM_cons, mountOf_asdict, ih]
    rfl

theorem mountsOf_asdict (mounts : List AdditionalMount) :
    mountsOf (arr (mounts.map (·.asdict))) = some mounts := by
  rw [mountsOf, mapM_mountOf, Option.map_some]
  congr 1
  induction mounts with
  | nil => rfl
  | cons mount mounts ih =>
    rw [List.map_cons, List.flatten_cons, ih]
    rfl

theorem ContainerConfig.readable {config : ContainerConfig} {depth : Nat}
    (h : (config.timeout.map printable).getD true = true) :
    Readable (depth + 3) config.asdict := by
  have hmount : ∀ mount : AdditionalMount, Readable (depth + 1) mount.asdict := by
    intro mount
    refine .obj (fun p hp => ?_) (by simp)
    simp only [List.mem_cons, List.not_mem_nil, or_false] at hp
    rcases hp with rfl | rfl | rfl
    · exact .str _
    · cases mount.containerPath with
      | none => exact .null
      | some path => exact .str path
    · exact .bool _
  refine .obj (fun p hp => ?_) (by simp)
  simp only [List.mem_cons, List.not_mem_nil, or_false] at hp
  rcases hp with rfl | rfl
  · cases config.additionalMounts with
    | none => exact .null
    | some mounts =>
      refine .arr (fun v hv => ?_)
      obtain ⟨mount,_,rfl⟩ := List.mem_map.mp hv
      exact hmount mount
  · cases ht : config.timeout with
    | none => exact .null
    | some n =>
      rw [ht] at h
      exact .int h

/-- A container config is read back as it was stored. -/
theorem configOf_configJson (hdepth : 3 ≤ interp.depth) {config : Option ContainerConfig}
    {raw : Option String} (h : configJson config = .ok raw) :
    configOf interp raw = some (config.map (·.stored)) := by
  cases config with
  | none =>
    cases h
    rfl
  | some config =>
    simp only [configJson] at h
    split_ifs at h with hprint
    cases h
    obtain ⟨depth,hd⟩ := Nat.exists_eq_add_of_le' hdepth
    have hloads : loads interp (dumps config.asdict) = .ok config.asdict :=
      loads_readable (hd.symm ▸ ContainerConfig.readable hprint)
    have hne : String.ofList (dumps config.asdict) ≠ "" := by
      simp [ContainerConfig.asdict, dumps, String.ofList_eq_empty_iff]
    obtain ⟨mounts,timeout⟩ := config
    have hmounts : ∀ fields : List (String × Json), getKey "additionalMounts" fields = null →
        getKey "additional_mounts" fields =
          (mounts.map (fun mounts => arr (mounts.map (·.asdict)))).getD null →
        mountsOf (((getKey "additionalMounts" fields).orElse
          (getKey "additional_mounts" fields)).orElse (arr [])) = some (mounts.getD []) := by
      intro fields hcamel hsnake
      rw [hcamel, hsnake]
      cases mounts with
      | none => rfl
      | some mounts =>
        cases mounts with
        | nil => rfl
        | cons mount mounts => exact mountsOf_asdict (mount :: mounts)
    have hkept : (if mounts.getD [] = [] then none else some (mounts.getD [])) =
        if mounts = some [] then none else mounts := by
      cases mounts with
      | none => rfl
      | some mounts => simp
    rw [configOf, if_neg hne, String.toList_ofList, hloads]
    simp only [ContainerConfig.asdict]
    rw [hmounts _ rfl rfl]
    have hback : ∀ timeout : Option ℤ,
        some (some (⟨if mounts.getD [] = [] then none else some (mounts.getD []),timeout⟩ :
          ContainerConfig)) = some ((some (⟨mounts,timeout⟩ : ContainerConfig)).map (·.stored)) := by
      intro timeout
      rw [hkept]
      rfl
    cases timeout with
    | none => exact hback none
    | some n => exact hback (some n)

/-- The row that `set_registered_group` writes takes the place of those with its jid or its
folder. -/
theorem setRegisteredGroup_stored (hdepth : 3 ≤ interp.depth) {rows rows' : List GroupRow}
    {jid : String} {group : RegisteredGroup} (h : setRegisteredGroup rows jid group = .ok rows') :
    isValidGroupFolder group.folder = true ∧ ∃ row, row.jid = jid ∧ row.folder = group.folder ∧
      rowToRegisteredGroup interp row = some group.stored ∧
      rows' = rows.filter (fun r => r.jid ≠ jid ∧ r.folder ≠ group.folder) ++ [row] := by
  simp only [setRegisteredGroup] at h
  split_ifs at h with hvalid
  split at h
  · cases h
  · rename_i config hconfig
    cases h
    refine ⟨by simpa using hvalid,_,rfl,rfl,?_,rfl⟩
    rw [rowToRegisteredGroup, configOf_configJson hdepth hconfig]
    rfl

/-- Rows of the table that `get_all_registered_groups` reads. -/
structure GroupTable (interp : Interp) (rows : List GroupRow) : Prop where
  jids : (rows.map (·.jid)).Nodup
  valid : ∀ row ∈ rows, isValidGroupFolder row.folder = true
  read : ∀ row ∈ rows, (rowToRegisteredGroup interp row).isSome

theorem GroupTable.nil : GroupTable interp [] := ⟨List.nodup_nil,by simp,by simp⟩

theorem GroupTable.set (hdepth : 3 ≤ interp.depth) {rows rows' : List GroupRow} {jid : String}
    {group : RegisteredGroup} (h : GroupTable interp rows)
    (hset : setRegisteredGroup rows jid group = .ok rows') : GroupTable interp rows' := by
  obtain ⟨hvalid,row,rfl,hfolder,hread,rfl⟩ := setRegisteredGroup_stored hdepth hset
  have hmem : ∀ r ∈ rows.filter (fun r => r.jid ≠ row.jid ∧ r.folder ≠ group.folder) ++ [row],
      (r ∈ rows ∧ r.jid ≠ row.jid) ∨ r = row := by
    intro r hr
    rcases List.mem_append.mp hr with hr | hr
    · obtain ⟨hr,hne⟩ := List.mem_filter.mp hr
      exact .inl ⟨hr,(of_decide_eq_true hne).1⟩
    · exact .inr (List.mem_singleton.mp hr)
  refine ⟨?_,fun r hr => ?_,fun r hr => ?_⟩
  · rw [List.map_append, List.map_singleton]
    refine List.Nodup.append (h.jids.sublist (List.filter_sublist.map _)) (by simp) ?_
    intro jid hold hnew
    obtain ⟨r,hr,rfl⟩ := List.mem_map.mp hold
    exact (of_decide_eq_true (List.mem_filter.mp hr).2).1 (List.mem_singleton.mp hnew)
  · rcases hmem r hr with ⟨hr,_⟩ | rfl
    · exact h.valid r hr
    · exact hfolder ▸ hvalid
  · rcases hmem r hr with ⟨hr,_⟩ | rfl
    · exact h.read r hr
    · rw [hread]
      rfl

/-- What reading a table gives for each chat. -/
theorem GroupTable.getAllRegisteredGroups {rows : List GroupRow} (h : GroupTable interp rows) :
    ∃ groups, getAllRegisteredGroups interp rows = some groups ∧
      (∀ row ∈ rows, groups.get? row.jid = rowToRegisteredGroup interp row) ∧
      ∀ jid, (∀ row ∈ rows, row.jid ≠ jid) → groups.get? jid = none := by
  have hgo : ∀ (rows : List GroupRow) (acc : Groups), GroupTable interp rows →
      ∃ groups, rows.foldlM (fun result row =>
          if isValidGroupFolder row.folder then
            (rowToRegisteredGroup interp row).map (result.set row.jid)
          else some result) acc = some groups ∧
        (∀ row ∈ rows, groups.get? row.jid = rowToRegisteredGroup interp row) ∧
        ∀ jid, (∀ row ∈ rows, row.jid ≠ jid) → groups.get? jid = acc.get? jid := by
    intro rows
    induction rows with
    | nil => exact fun acc _ => ⟨acc,rfl,by simp,fun _ _ => rfl⟩
    | cons r rows ih =>
      intro acc h
      obtain ⟨hnew,hjids⟩ := List.nodup_cons.mp h.jids
      obtain ⟨group,hgroup⟩ := Option.isSome_iff_exists.mp (h.read r List.mem_cons_self)
      obtain ⟨groups,hfold,hrows,hothers⟩ := ih (acc.set r.jid group)
        ⟨hjids,fun row hrow => h.valid row (List.mem_cons_of_mem r hrow),
          fun row hrow => h.read row (List.mem_cons_of_mem r hrow)⟩
      refine ⟨groups,?_,fun row hrow => ?_,fun jid hjid => ?_⟩
      · rw [List.foldlM_cons, if_pos (h.valid r List.mem_cons_self), hgroup]
        exact hfold
      · rcases List.mem_cons.mp hrow with rfl | hrow
        · have hlast := hothers row.jid
            (fun r' hr' he => hnew (List.mem_map.mpr ⟨r',hr',he⟩))
          rw [hlast, Dict.get?_set_self, hgroup]
        · exact hrows row hrow
      · rw [hothers jid (fun row hrow => hjid row (List.mem_cons_of_mem r hrow)),
          Dict.get?_set_ne _ _ (hjid r List.mem_cons_self).symm]
  exact hgo rows Dict.empty h

end RoundTrip

/-- The main group of an installation, and a table that holds it alone. -/
def mainGroup : RegisteredGroup :=
  { name := "Main", folder := "main", trigger := "@Andy", addedAt := "", isMain := some true }

def mainGroups : Groups := Dict.empty.set "local:main" mainGroup

end NanoClaw.Store
