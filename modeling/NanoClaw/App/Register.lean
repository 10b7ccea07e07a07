import NanoClaw.App.Restart

/-! `register_group` with everything in it that can raise, and when a call that raises leaves memory
and table as they were. -/
namespace NanoClaw.App
open Store Json

/-- The registered groups in memory, and the rows of `registered_groups`. -/
structure Registry where
  groups : Groups
  rows : List GroupRow

/-- What goes wrong outside: the statement, the commit, and the directory of the group (its path or
its creation). -/
structure RegisterFaults where
  execute : Option PyExc
  commit : Option PyExc
  directory : Option PyExc
  deriving DecidableEq

/-- `set_registered_group` with the errors of the database. A statement whose commit fails stays in
the open transaction, where the connection sees its row. -/
def Registry.store (s : Registry) (jid : String) (group : RegisteredGroup) (faults : RegisterFaults) :
    Registry × Except PyExc Unit :=
  match setRegisteredGroup s.rows jid group with
  | .error e => (s,.error e)
  | .ok rows =>
    match faults.execute with
    | some e => (s,.error e)
    | none =>
      match faults.commit with
      | some e => ({ s with rows := rows },.error e)
      | none => ({ s with rows := rows },.ok ())

/-- `register_group`. -/
def Registry.register (s : Registry) (jid : String) (group : RegisteredGroup)
    (faults : RegisterFaults) : Registry × Except PyExc Unit :=
  match Registry.store { s with groups := s.groups.set jid group } jid group faults with
  | (s, .error e) => (s,.error e)
  | (s, .ok ()) =>
    match faults.directory with
    | some e => (s,.error e)
    | none => (s,.ok ())

/-- The row that stands for a group. -/
def groupRow (jid : String) (group : RegisteredGroup) (config : Option String) : GroupRow where
  jid := jid
  name := group.name
  folder := group.folder
  triggerPattern := group.trigger
  addedAt := group.addedAt
  containerConfig := config
  requiresTrigger := some (group.requiresTrigger ≠ some false)
  isMain := group.isMain = some true

/-- The statement is executed: the folder is valid, the config has a JSON text and the database takes
the row. -/
def Written (group : RegisteredGroup) (faults : RegisterFaults) (config : Option String) : Prop :=
  isValidGroupFolder group.folder = true ∧ configJson group.containerConfig = .ok config ∧
    faults.execute = none

/-- The table has the row of a group already, and no other with its jid or its folder. -/
def HasRow (rows : List GroupRow) (row : GroupRow) : Prop :=
  row ∈ rows ∧ ∀ r ∈ rows, r.jid = row.jid ∨ r.folder = row.folder → r = row

/-- Where a call raises, memory and the rows of the table are as before. -/
def AtomicOnError (s : Registry) (after : Registry × Except PyExc Unit) : Prop :=
  ∀ e, after.2 = .error e → after.1.groups = s.groups ∧ ∀ r, r ∈ after.1.rows ↔ r ∈ s.rows

section Register
variable {s : Registry} {jid : String} {group : RegisteredGroup} {faults : RegisterFaults}

theorem setRegisteredGroup_written {rows : List GroupRow} {config : Option String}
    (h : Written group faults config) : setRegisteredGroup rows jid group =
      .ok (rows.filter (fun r => r.jid ≠ jid ∧ r.folder ≠ group.folder) ++
        [groupRow jid group config]) := by
  rw [setRegisteredGroup, if_neg (not_not_intro h.1), h.2.1]
  rfl

/-- What a call does, and when it raises. -/
theorem register_spec : (s.register jid group faults).1.groups = s.groups.set jid group ∧
    ((∃ config, Written group faults config ∧
        (s.register jid group faults).1.rows =
          s.rows.filter (fun r => r.jid ≠ jid ∧ r.folder ≠ group.folder) ++
            [groupRow jid group config] ∧
        ((s.register jid group faults).2 = .ok () ↔ faults.commit = none ∧ faults.directory = none)) ∨
      (∀ config, ¬Written group faults config) ∧ (s.register jid group faults).1.rows = s.rows ∧
        ∃ e, (s.register jid group faults).2 = .error e) := by
  by_cases hwritten : ∃ config, Written group faults config
  · obtain ⟨config,h⟩ := hwritten
    delta Registry.register Registry.store
    simp only [setRegisteredGroup_written h, h.2.2]
    cases faults.commit with
    | some e => exact ⟨rfl,Or.inl ⟨config,h,rfl,by simp⟩⟩
    | none =>
      cases faults.directory with
      | some e => exact ⟨rfl,Or.inl ⟨config,h,rfl,by simp⟩⟩
      | none => exact ⟨rfl,Or.inl ⟨config,h,rfl,by simp⟩⟩
  · have hnever := not_exists.mp hwritten
    delta Registry.register Registry.store
    dsimp only
    cases hset : setRegisteredGroup s.rows jid group with
    | error e => exact ⟨rfl,Or.inr ⟨hnever,rfl,e,rfl⟩⟩
    | ok rows =>
      cases hexecute : faults.execute with
      | some e => exact ⟨rfl,Or.inr ⟨hnever,rfl,e,rfl⟩⟩
      | none =>
        simp only [setRegisteredGroup] at hset
        split_ifs at hset with hvalid
        cases hconfig : configJson group.containerConfig with
        | error e =>
          rw [hconfig] at hset
          cases hset
        | ok config => exact absurd ⟨by simpa using hvalid,hconfig,hexecute⟩ (hnever config)

/-- A row that is written leaves the rows as they were exactly when it was there. -/
theorem written_same_iff {rows : List GroupRow} {row : GroupRow} :
    (∀ r, r ∈ rows.filter (fun r => r.jid ≠ row.jid ∧ r.folder ≠ row.folder) ++ [row] ↔ r ∈ rows) ↔
      HasRow rows row := by
  simp only [List.mem_append, List.mem_filter, List.mem_singleton, decide_eq_true_eq]
  constructor
  · intro h
    refine ⟨(h row).mp (Or.inr rfl),fun r hr hsame => ?_⟩
    rcases (h r).mpr hr with ⟨_,hjid,hfolder⟩ | hrow
    · exact absurd hsame (not_or.mpr ⟨hjid,hfolder⟩)
    · exact hrow
  · rintro ⟨hrow,honly⟩ r
    constructor
    · rintro (⟨hr,_⟩ | rfl)
      · exact hr
      · exact hrow
    · intro hr
      by_cases hsame : r.jid = row.jid ∨ r.folder = row.folder
      · exact Or.inr (honly r hr hsame)
      · exact Or.inl ⟨hr,not_or.mp hsame⟩

end Register

/-- Nothing is left behind by a call that raises exactly when the call does not raise, or the group is
in memory already, and in the table too where the statement is executed. -/
theorem atomic_on_error_iff (s : Registry) (jid : String) (group : RegisteredGroup)
    (faults : RegisterFaults) :
    AtomicOnError s (s.register jid group faults) ↔
      (∃ config, Written group faults config) ∧ faults.commit = none ∧ faults.directory = none ∨
        s.groups.get? jid = some group ∧
          ∀ config, Written group faults config → HasRow s.rows (groupRow jid group config) := by
  have hset : s.groups.set jid group = s.groups ↔ s.groups.get? jid = some group :=
    Dict.set_eq_self_iff
  obtain ⟨hgroups,⟨config,hwritten,hrows,hreturns⟩ | ⟨hnever,hrows,e,hraises⟩⟩ :=
    @register_spec s jid group faults
  · have honly : (∀ config, Written group faults config → HasRow s.rows (groupRow jid group config)) ↔
        HasRow s.rows (groupRow jid group config) := by
      refine ⟨fun h => h config hwritten,fun h config' h' => ?_⟩
      obtain rfl := Except.ok.inj (h'.2.1.symm.trans hwritten.2.1)
      exact h
    rw [honly, ← hset, and_iff_right ⟨config,hwritten⟩, ← hreturns, AtomicOnError, hgroups, hrows,
      ← written_same_iff]
    cases (s.register jid group faults).2 with
    | ok u => simp
    | error e => simp [groupRow]
  · rw [AtomicOnError, hgroups, hrows, hraises, ← hset]
    simp [hnever]

section Runs

private def intruder : RegisteredGroup :=
  { name := "Intruder", folder := "../other", trigger := "@Andy", addedAt := "" }

private def emptyRegistry : Registry := ⟨Dict.empty,[]⟩

/-- A folder that is not valid: the call raises, with the group in memory. -/
theorem invalid_folder_registered :
    ¬AtomicOnError emptyRegistry (emptyRegistry.register "x" intruder ⟨none,none,none⟩) ∧
      (emptyRegistry.register "x" intruder ⟨none,none,none⟩).2 = .error .valueError ∧
      (emptyRegistry.register "x" intruder ⟨none,none,none⟩).1.groups.get? "x" = some intruder := by
  refine ⟨fun h => ?_,by decide,by decide⟩
  have hkept := (h .valueError (by decide)).1
  have hgot : (emptyRegistry.register "x" intruder ⟨none,none,none⟩).1.groups.get? "x" = some intruder := by
    decide
  rw [hkept] at hgot
  cases hgot

end Runs

/-- Without errors of the database and the directory the call does what it does over the life of an
installation. -/
theorem registerGroup_eq_register (s : Installation) (jid : String) (group : RegisteredGroup)
    {faults : RegisterFaults} (hexecute : faults.execute = none) :
    let after := (Registry.register ⟨s.app.registeredGroups,s.groupRows⟩ jid group faults).1
    (s.registerGroup jid group).app.registeredGroups = after.groups ∧
      (s.registerGroup jid group).groupRows = after.rows := by
  delta Registry.register Registry.store
  simp only [Installation.registerGroup, Installation.setApp, Installation.app, hexecute]
  cases setRegisteredGroup s.groupRows jid group with
  | error e => exact ⟨rfl,rfl⟩
  | ok rows =>
    cases faults.commit with
    | some e => exact ⟨rfl,rfl⟩
    | none => cases faults.directory <;> exact ⟨rfl,rfl⟩

end NanoClaw.App
