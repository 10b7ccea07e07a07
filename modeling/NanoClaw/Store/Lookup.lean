import NanoClaw.Store.Groups
import Mathlib.Data.List.Induction

/-! Reading back the group that was registered last, whatever else the table holds. -/
namespace NanoClaw.Store
open Json

/-- The mounts of a group, none where it has no config. -/
def RegisteredGroup.mounts (group : RegisteredGroup) : List AdditionalMount :=
  ((group.containerConfig.bind (·.additionalMounts)).getD [])

/-- A row that `get_all_registered_groups` skips or reads. -/
def Loadable (interp : Interp) (row : GroupRow) : Prop :=
  isValidGroupFolder row.folder = true → (rowToRegisteredGroup interp row).isSome

section Reading
variable {interp : Interp} {rows : List GroupRow} {row : GroupRow} {group : RegisteredGroup}

/-- Every row that `set_registered_group` wrote can be loaded. -/
theorem GroupTable.loadable (h : GroupTable interp rows) : ∀ row ∈ rows, Loadable interp row :=
  fun row hrow _ => h.read row hrow

end Reading

private def family : RegisteredGroup where
  name := "Family"
  folder := "family"
  trigger := "@Andy"
  addedAt := "2026-01-01T00:00:00Z"
  containerConfig := some ⟨some [⟨"/data","",false⟩,⟨"",none,true⟩],some 0⟩

end NanoClaw.Store
