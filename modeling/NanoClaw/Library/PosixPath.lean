import NanoClaw.Library.PyText
import Mathlib.Data.List.Infix

/-! Paths of POSIX systems: the text of a path and its components, `os.path.basename` and
`os.path.normpath`, and canonical paths with the relation of lying below one. -/
namespace NanoClaw.PosixPath
open PyText

/-- `os.path.basename`. -/
def basename (path : List Char) : List Char :=
  match rpartition '/' path with
  | some (_, after) => after
  | none => path

/-- One component met by `normpath` on its way down from the root. -/
def pushComponent (done : List (List Char)) (c : List Char) : List (List Char) :=
  if c = [] ∨ c = ['.'] then done
  else if c = ['.','.'] then done.dropLast
  else done ++ [c]

/-- The components of `os.path.normpath` of a path that starts at the root. -/
def normComponents (path : List Char) : List (List Char) :=
  (path.splitOn '/').foldl pushComponent []

theorem hasDotDot_of_isInfix {s : List Char} (h : ['.','.'] <:+: s) : hasDotDot s = true := by
  induction s with
  | nil => exact absurd (List.eq_nil_of_infix_nil h) (by simp)
  | cons c s ih =>
    rcases List.infix_cons_iff.mp h with hfront | hrest
    · obtain ⟨t,ht⟩ := hfront
      rw [← ht]
      rfl
    · unfold hasDotDot
      split
      · rfl
      · rename_i hc
        cases hc
        exact ih hrest
      · rename_i hc
        cases hc

theorem infix_intercalate {α : Type} {sep c : List α} {ls : List (List α)} (h : c ∈ ls) :
    c <:+: sep.intercalate ls := by
  induction ls with
  | nil => cases h
  | cons hd tl ih =>
    rcases eq_or_ne tl [] with rfl | hne
    · rw [List.mem_singleton.mp h, List.intercalate_singleton]
    · rw [List.intercalate_cons_of_ne_nil hne]
      rcases List.mem_cons.mp h with rfl | h
      · rw [List.append_assoc]
        exact (List.prefix_append c _).isInfix
      · exact (ih h).trans (List.suffix_append _ _).isInfix

/-- A text without two dots in a row has no component for the parent directory. -/
theorem component_ne_parent {s c : List Char} (hs : hasDotDot s = false) (hc : c ∈ s.splitOn '/') :
    c ≠ ['.','.'] := by
  rintro rfl
  have hinfix := @infix_intercalate _ ['/'] _ _ hc
  rw [List.intercalate_splitOn] at hinfix
  rw [hasDotDot_of_isInfix hinfix] at hs
  cases hs

/-- Without a parent component nothing that is done is taken back. -/
theorem prefix_foldl_push {cs : List (List Char)} (h : ∀ c ∈ cs, c ≠ ['.','.'])
    (done : List (List Char)) : done <+: cs.foldl pushComponent done := by
  induction cs generalizing done with
  | nil => exact List.prefix_refl done
  | cons c cs ih =>
    obtain ⟨hc,hcs⟩ := List.forall_mem_cons.mp h
    rw [List.foldl_cons]
    refine List.IsPrefix.trans ?_ (ih hcs _)
    rw [pushComponent, if_neg hc]
    split_ifs
    · exact List.prefix_refl done
    · exact List.prefix_append done [c]

/-- What is joined to a directory stays below it when it has no two dots in a row. -/
theorem normComponents_below {s : List Char} (base : List Char) (hs : hasDotDot s = false) :
    normComponents base <+: normComponents (base ++ '/' :: s) := by
  rw [normComponents, normComponents, List.splitOn_append_cons_self, List.foldl_append]
  exact prefix_foldl_push (fun c hc => component_ne_parent hs hc) _

/-- An absolute path without links, and without `.` and `..`. The characters of its names are code
points, since a name may hold bytes that are no UTF-8. -/
structure RealPath where
  components : List (List Nat)
  canonical : ∀ c ∈ components, c ≠ [] ∧ 47 ∉ c ∧ c ≠ [46] ∧ c ≠ [46,46]

namespace RealPath

/-- `str(path)`. -/
def text (path : RealPath) : List Nat := 47 :: [47].intercalate path.components

/-- `path.parts`. -/
def parts (path : RealPath) : List (List Nat) := [47] :: path.components

/-- A path lies at or below another one; where it does not, `relative_to` raises. -/
def Below (path top : RealPath) : Prop := top.components <+: path.components

instance (path top : RealPath) : Decidable (path.Below top) :=
  inferInstanceAs (Decidable (_ <+: _))

end RealPath

end NanoClaw.PosixPath
