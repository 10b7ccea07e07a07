import Mathlib.Data.List.DropRight
import Mathlib.Data.List.TakeWhile
import Mathlib.Data.String.Basic

/-! Text operations of Python's `str`, on lists of characters: the white space of
`isspace`, `strip`, `rpartition`, and the reading of decimal integers by `int`. -/
namespace NanoClaw.PyText

/-- The characters `str.isspace` accepts, so the ones `str.strip` removes. -/
def isSpace (c : Char) : Bool :=
  let n := c.toNat
  (9 ≤ n && n ≤ 13) || (28 ≤ n && n ≤ 32) || n == 0x85 || n == 0xa0 || n == 0x1680 ||
    (0x2000 ≤ n && n ≤ 0x200a) || n == 0x2028 || n == 0x2029 || n == 0x202f || n == 0x205f ||
    n == 0x3000

/-- The white space `int` skips: `isspace` without the four information separators. -/
def isIntSpace (c : Char) : Bool :=
  isSpace c && !(28 ≤ c.toNat && c.toNat ≤ 31)

def lstripBy (p : Char → Bool) (s : List Char) : List Char := s.dropWhile p

def rstripBy (p : Char → Bool) (s : List Char) : List Char := s.rdropWhile p

def stripBy (p : Char → Bool) (s : List Char) : List Char := rstripBy p (lstripBy p s)

def strip (s : List Char) : List Char := stripBy isSpace s

/-- `s.rpartition(sep)` for a one-character separator: what stands before and after
its last occurrence. -/
def rpartition (sep : Char) : List Char → Option (List Char × List Char)
  | [] => none
  | c :: cs =>
    match rpartition sep cs with
    | some (before, after) => some (c :: before, after)
    | none => if c = sep then some ([], cs) else none

/-- `".." in s`. -/
def hasDotDot : List Char → Bool
  | '.' :: '.' :: _ => true
  | _ :: cs => hasDotDot cs
  | [] => false

/-- The code points of the digit zero in each run of ten decimal digits. -/
def decimalZeros : List Nat :=
  [0x30, 0x660, 0x6f0, 0x7c0, 0x966, 0x9e6, 0xa66, 0xae6, 0xb66, 0xbe6, 0xc66, 0xce6, 0xd66,
   0xde6, 0xe50, 0xed0, 0xf20, 0x1040, 0x1090, 0x17e0, 0x1810, 0x1946, 0x19d0, 0x1a80, 0x1a90,
   0x1b50, 0x1bb0, 0x1c40, 0x1c50, 0xa620, 0xa8d0, 0xa900, 0xa9d0, 0xa9f0, 0xaa50, 0xabf0,
   0xff10, 0x104a0, 0x10d30, 0x11066, 0x110f0, 0x11136, 0x111d0, 0x112f0, 0x11450, 0x114d0,
   0x11650, 0x116c0, 0x11730, 0x118e0, 0x11950, 0x11c50, 0x11d50, 0x11da0, 0x16a60, 0x16ac0,
   0x16b50, 0x1d7ce, 0x1d7d8, 0x1d7e2, 0x1d7ec, 0x1d7f6, 0x1e140, 0x1e2f0, 0x1e950, 0x1fbf0]

def digit? (c : Char) : Option Nat :=
  (decimalZeros.find? (fun z => z ≤ c.toNat && c.toNat < z + 10)).map (c.toNat - ·)

/-- Decimal digits with single underscores between them. -/
def digitRun : List Char → Option (List Nat)
  | [] => none
  | [c] => (digit? c).map ([·])
  | c :: '_' :: cs => (digit? c).bind (fun d => (digitRun cs).map (d :: ·))
  | c :: cs => (digit? c).bind (fun d => (digitRun cs).map (d :: ·))

def ofDigits (ds : List Nat) : Nat := ds.foldl (fun n d => 10 * n + d) 0

/-- The longest digit string `int` converts (`sys.int_info.default_max_str_digits`). -/
def maxStrDigits : Nat := 4300

def natOfText (s : List Char) : Option Nat :=
  (digitRun s).bind (fun ds => if ds.length ≤ maxStrDigits then some (ofDigits ds) else none)

/-- `int(s)` for a text; none stands for `ValueError`. -/
def int? (s : List Char) : Option Int :=
  match stripBy isIntSpace s with
  | '-' :: cs => (natOfText cs).map (fun n => -Int.ofNat n)
  | '+' :: cs => (natOfText cs).map Int.ofNat
  | cs => (natOfText cs).map Int.ofNat

theorem rpartition_of_not_mem {sep : Char} {s : List Char} (h : sep ∉ s) :
    rpartition sep s = none := by
  induction s with
  | nil => rfl
  | cons c cs ih =>
    simp only [List.mem_cons, not_or] at h
    simp only [rpartition, ih h.2, if_neg (Ne.symm h.1)]

theorem rpartition_append (sep : Char) (before : List Char) {after : List Char}
    (h : sep ∉ after) : rpartition sep (before ++ sep :: after) = some (before,after) := by
  induction before with
  | nil => simp only [List.nil_append, rpartition, rpartition_of_not_mem h, if_true]
  | cons c cs ih => simp only [List.cons_append, rpartition, ih]

theorem exists_last_occurrence {sep : Char} {s : List Char} (h : sep ∈ s) :
    ∃ before after, s = before ++ sep :: after ∧ sep ∉ after := by
  induction s with
  | nil => cases h
  | cons c cs ih =>
    by_cases hcs : sep ∈ cs
    · obtain ⟨before,after,rfl,hafter⟩ := ih hcs
      exact ⟨c :: before,after,rfl,hafter⟩
    · rcases List.mem_cons.mp h with rfl | h
      · exact ⟨[],cs,rfl,hcs⟩
      · exact absurd h hcs

/-- A character that `int` can read past: white space, a sign, an underscore or a digit. -/
def IntChar (c : Char) : Prop :=
  isIntSpace c = true ∨ c = '+' ∨ c = '-' ∨ c = '_' ∨ (digit? c).isSome = true

theorem digitRun_chars {s : List Char} {ds : List Nat} (h : digitRun s = some ds) :
    ∀ c ∈ s, IntChar c := by
  induction s using digitRun.induct generalizing ds with
  | case1 => cases h
  | case2 c =>
    simp only [digitRun, Option.map_eq_some_iff] at h
    obtain ⟨d,hd,_⟩ := h
    simp [IntChar, hd]
  | case3 c cs ih =>
    simp only [digitRun, Option.bind_eq_some_iff, Option.map_eq_some_iff] at h
    obtain ⟨d,hd,es,hes,_⟩ := h
    intro x hx
    rcases List.mem_cons.mp hx with rfl | hx
    · simp [IntChar, hd]
    · rcases List.mem_cons.mp hx with rfl | hx
      · simp [IntChar]
      · exact ih hes x hx
  | case4 c cs hne hne' ih =>
    rw [digitRun] at h
    · simp only [Option.bind_eq_some_iff, Option.map_eq_some_iff] at h
      obtain ⟨d,hd,es,hes,_⟩ := h
      intro x hx
      rcases List.mem_cons.mp hx with rfl | hx
      · simp [IntChar, hd]
      · exact ih hes x hx
    all_goals assumption

theorem natOfText_chars {s : List Char} {n : Nat} (h : natOfText s = some n) :
    ∀ c ∈ s, IntChar c := by
  obtain ⟨ds,hds,_⟩ := Option.bind_eq_some_iff.mp h
  exact digitRun_chars hds

private theorem mem_of_dropWhile {p : Char → Bool} {s : List Char} {c : Char} (h : c ∈ s) :
    p c = true ∨ c ∈ s.dropWhile p := by
  rw [← List.takeWhile_append_dropWhile (p := p) (l := s)] at h
  rcases List.mem_append.mp h with h | h
  · exact Or.inl (List.mem_takeWhile_imp h)
  · exact Or.inr h

theorem mem_stripBy {p : Char → Bool} {s : List Char} {c : Char} (h : c ∈ s) :
    p c = true ∨ c ∈ stripBy p s := by
  rcases mem_of_dropWhile (p := p) h with h | h
  · exact Or.inl h
  · rcases mem_of_dropWhile (p := p) (List.mem_reverse.mpr h) with h | h
    · exact Or.inl h
    · exact Or.inr (List.mem_reverse.mpr h)

theorem rstripBy_append_cons {p : Char → Bool} {x : Char} (hx : p x = false) (a b : List Char) :
    rstripBy p (a ++ x :: b) = a ++ x :: rstripBy p b := by
  induction b using List.reverseRecOn with
  | nil => exact List.rdropWhile_concat_neg _ _ _ (by simp [hx])
  | append_singleton b y ih =>
    rw [← List.cons_append, ← List.append_assoc]
    by_cases hy : p y = true
    · rw [rstripBy, rstripBy, List.rdropWhile_concat_pos _ _ _ hy,
        List.rdropWhile_concat_pos _ _ _ hy]
      exact ih
    · rw [rstripBy, rstripBy, List.rdropWhile_concat_neg _ _ _ hy,
        List.rdropWhile_concat_neg _ _ _ hy, List.append_assoc, List.cons_append]

/-- What is stripped off is white space. -/
theorem strip_spec (s : List Char) : ∃ a b, s = a ++ (strip s ++ b) ∧
    (∀ c ∈ a, isSpace c = true) ∧ ∀ c ∈ b, isSpace c = true := by
  refine ⟨s.takeWhile isSpace,(s.dropWhile isSpace).rtakeWhile isSpace,?_,
    fun c hc => List.mem_takeWhile_imp hc,fun c hc => List.mem_rtakeWhile_imp hc⟩
  rw [strip, stripBy, rstripBy, lstripBy, List.rdropWhile_append_rtakeWhile,
    List.takeWhile_append_dropWhile]

theorem strip_strip (s : List Char) : strip (strip s) = strip s := by
  have hhead : lstripBy isSpace (strip s) = strip s := by
    apply List.dropWhile_eq_self_iff.mpr
    intro hlen
    have hprefix : strip s <+: s.dropWhile isSpace := List.rdropWhile_prefix _ _
    have hfirst := List.dropWhile_get_zero_not isSpace s (hlen.trans_le hprefix.length_le)
    rwa [List.get_eq_getElem, ← hprefix.getElem hlen] at hfirst
  rw [strip, stripBy, hhead]
  exact List.rdropWhile_idempotent _ _

/-- What `int` accepts is built from white space, a sign, underscores and digits only. -/
theorem int?_chars {s : List Char} {n : Int} (h : int? s = some n) :
    ∀ c ∈ s, IntChar c := by
  have hbody : ∀ c ∈ stripBy isIntSpace s, IntChar c := by
    simp only [int?] at h
    split at h
    · rename_i cs heq
      obtain ⟨m,hm,_⟩ := Option.map_eq_some_iff.mp h
      intro c hc
      rcases List.mem_cons.mp (heq ▸ hc) with rfl | hc
      · simp [IntChar]
      · exact natOfText_chars hm c hc
    · rename_i cs heq
      obtain ⟨m,hm,_⟩ := Option.map_eq_some_iff.mp h
      intro c hc
      rcases List.mem_cons.mp (heq ▸ hc) with rfl | hc
      · simp [IntChar]
      · exact natOfText_chars hm c hc
    · obtain ⟨m,hm,_⟩ := Option.map_eq_some_iff.mp h
      exact natOfText_chars hm
  intro c hc
  rcases mem_stripBy (p := isIntSpace) hc with h | h
  · exact Or.inl h
  · exact hbody c h

end NanoClaw.PyText
