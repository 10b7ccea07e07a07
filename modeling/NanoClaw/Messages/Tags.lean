import NanoClaw.Messages.Router

/-! Where the search for a literal ends, letter case aside, and what a tag adds: no occurrence
reaches into one that follows it. -/
namespace NanoClaw.Router

/-- A literal matches a text, letter case aside. -/
def Matches (literal t : List Char) : Prop := t.map foldCase = literal.map foldCase

instance (literal t : List Char) : Decidable (Matches literal t) :=
  inferInstanceAs (Decidable (_ = _))

def Occurs (literal s : List Char) : Prop := ∃ a t b, Matches literal t ∧ s = a ++ (t ++ b)

section Literals
variable {literal s rest : List Char}

theorem dropLiteral_eq_some : dropLiteral literal s = some rest ↔
    ∃ t, Matches literal t ∧ s = t ++ rest := by
  induction literal generalizing s with
  | nil =>
    simp [dropLiteral, Matches]
  | cons p ps ih =>
    cases s with
    | nil =>
      simp only [dropLiteral, reduceCtorEq, false_iff, not_exists, not_and]
      intro t ht hs
      rw [(List.append_eq_nil_iff.mp hs.symm).1] at ht
      cases ht
    | cons c s =>
      rw [dropLiteral]
      split
      · rename_i hfold
        rw [ih]
        constructor
        · rintro ⟨t,ht,rfl⟩
          exact ⟨c :: t,List.cons_eq_cons.mpr ⟨hfold,ht⟩,rfl⟩
        · rintro ⟨t,ht,hs⟩
          cases t with
          | nil => cases ht
          | cons d t =>
            cases hs
            exact ⟨t,(List.cons_eq_cons.mp ht).2,rfl⟩
      · rename_i hfold
        simp only [reduceCtorEq, false_iff, not_exists, not_and]
        intro t ht hs
        cases t with
        | nil => cases ht
        | cons d t =>
          cases hs
          exact hfold (List.cons_eq_cons.mp ht).1

theorem Occurs.append_left (h : Occurs literal s) (p : List Char) : Occurs literal (p ++ s) := by
  obtain ⟨a,t,b,ht,rfl⟩ := h
  exact ⟨p ++ a,t,b,ht,(List.append_assoc ..).symm⟩

theorem Occurs.append_right (h : Occurs literal s) (q : List Char) : Occurs literal (s ++ q) := by
  obtain ⟨a,t,b,ht,rfl⟩ := h
  exact ⟨a,t,b ++ q,ht,by simp only [List.append_assoc]⟩

theorem Matches.length_eq {t : List Char} (h : Matches literal t) : t.length = literal.length := by
  simpa using congrArg List.length h

/-- An occurrence begins at the first character or behind it. -/
theorem occurs_cons {c : Char} (h : Occurs literal (c :: s)) :
    (∃ rest, dropLiteral literal (c :: s) = some rest) ∨ Occurs literal s := by
  obtain ⟨a,t,b,ht,hs⟩ := h
  cases a with
  | nil => exact .inl ⟨b,dropLiteral_eq_some.mpr ⟨t,ht,hs⟩⟩
  | cons d a =>
    cases hs
    exact .inr ⟨a,t,b,ht,rfl⟩

theorem not_occurs_nil (hne : literal ≠ []) : ¬Occurs literal [] := by
  rintro ⟨a,t,b,ht,hs⟩
  have hnil : t = [] := by simp_all
  rw [Matches, hnil] at ht
  exact hne (List.map_eq_nil_iff.mp ht.symm)

theorem splitLiteral_eq_none_iff (hne : literal ≠ []) :
    splitLiteral literal s = none ↔ ¬Occurs literal s := by
  induction s with
  | nil => simp [splitLiteral, not_occurs_nil hne]
  | cons c s ih =>
    rw [splitLiteral]
    cases hdrop : dropLiteral literal (c :: s) with
    | some rest =>
      obtain ⟨t,ht,hs⟩ := dropLiteral_eq_some.mp hdrop
      simp only [reduceCtorEq, false_iff, not_not]
      exact ⟨[],t,rest,ht,hs⟩
    | none =>
      simp only [Option.map_eq_none_iff, ih]
      refine not_congr ⟨fun h => h.append_left [c],fun h => ?_⟩
      rcases occurs_cons h with ⟨rest,hrest⟩ | h
      · rw [hdrop] at hrest
        cases hrest
      · exact h

/-- What stands before the first occurrence holds none. -/
theorem splitLiteral_eq_some {u v : List Char} (hne : literal ≠ []) (h : splitLiteral literal s = some (u,v)) :
    (∃ t, Matches literal t ∧ s = u ++ (t ++ v)) ∧ ¬Occurs literal u := by
  induction s generalizing u with
  | nil => cases h
  | cons c s ih =>
    rw [splitLiteral] at h
    cases hdrop : dropLiteral literal (c :: s) with
    | some rest =>
      simp only [hdrop] at h
      cases h
      obtain ⟨t,ht,hs⟩ := dropLiteral_eq_some.mp hdrop
      exact ⟨⟨t,ht,hs⟩,not_occurs_nil hne⟩
    | none =>
      simp only [hdrop] at h
      obtain ⟨⟨u',v'⟩,hsplit,hpair⟩ := Option.map_eq_some_iff.mp h
      cases hpair
      obtain ⟨⟨t,ht,rfl⟩,hu⟩ := ih hsplit
      refine ⟨⟨t,ht,rfl⟩,fun hocc => ?_⟩
      rcases occurs_cons hocc with ⟨rest,hrest⟩ | hocc
      · obtain ⟨t',ht',hs⟩ := dropLiteral_eq_some.mp hrest
        have hearly : dropLiteral literal (c :: (u' ++ (t ++ v'))) = some (rest ++ (t ++ v')) := by
          apply dropLiteral_eq_some.mpr
          exact ⟨t',ht',by rw [← List.cons_append, hs, List.append_assoc]⟩
        rw [hdrop] at hearly
        cases hearly
      · exact hu hocc

end Literals

/-- A literal that begins with a character it does not hold again, and that ends with `>`. -/
structure Tag (literal : List Char) : Prop where
  head : literal.head? = some '<'
  once : '<' ∉ literal.tail
  last : literal.getLast? = some '>'

theorem tag_open : Tag openTag := ⟨by decide,by decide,by decide⟩

theorem tag_close : Tag closeTag := ⟨by decide,by decide,by decide⟩

private theorem eq_of_toLower {c d : Char} (hd : d.toNat < 97) (h : c.toLower = d) : c = d := by
  unfold Char.toLower at h
  split at h
  · -- A capital would become a letter from 97 on.
    rename_i hrange
    have hval := congrArg (fun c => c.val.toNat) h
    have hshift : 'a'.val - 'A'.val = 32 := by decide
    have hlow := UInt32.le_iff_toNat_le.mp hrange.1
    have hhigh := UInt32.le_iff_toNat_le.mp hrange.2
    simp only [hshift, UInt32.toNat_add] at hval
    simp only [Char.reduceVal, UInt32.reduceToNat] at hval hlow hhigh
    have hd : d.val.toNat < 97 := hd
    omega
  · exact h

/-- Only letters match other characters than themselves. -/
theorem eq_of_foldCase {c d : Char} (hd : d.toNat < 97) (h : foldCase c = d) : c = d := by
  unfold foldCase at h
  split_ifs at h
  · subst h
    exact absurd hd (by decide)
  · subst h
    exact absurd hd (by decide)
  · subst h
    exact absurd hd (by decide)
  · exact eq_of_toLower hd h

section Tags
variable {literal t u v s : List Char}

theorem Tag.ne_nil (h : Tag literal) : literal ≠ [] := by
  rintro rfl
  cases h.head

/-- A text that a tag matches begins with `<`, has no other one, and ends with `>`. -/
theorem Tag.shape (h : Tag literal) (ht : Matches literal t) :
    (∃ t', t = '<' :: t' ∧ '<' ∉ t') ∧ ∃ t', t = t' ++ ['>'] := by
  constructor
  · obtain ⟨l,rfl⟩ := List.head?_eq_some_iff.mp h.head
    obtain ⟨c,t',rfl,hc,ht'⟩ := List.map_eq_cons_iff.mp ht
    have hlt : c = '<' := eq_of_foldCase (by decide) (hc.trans (by decide))
    refine ⟨t',by rw [hlt],fun hmem => ?_⟩
    have hfold := List.mem_map_of_mem (f := foldCase) hmem
    rw [ht'] at hfold
    obtain ⟨d,hd,he⟩ := List.mem_map.mp hfold
    have hlt' : d = '<' := eq_of_foldCase (by decide) (he.trans (by decide))
    exact h.once (hlt' ▸ hd)
  · obtain ⟨l,rfl⟩ := List.getLast?_eq_some_iff.mp h.last
    rw [Matches, List.map_append] at ht
    obtain ⟨t',t₂,rfl,_,ht₂⟩ := List.map_eq_append_iff.mp ht
    obtain ⟨c,t₃,rfl,hc,ht₃⟩ := List.map_eq_cons_iff.mp ht₂
    have hgt : c = '>' := eq_of_foldCase (by decide) (hc.trans (by decide))
    exact ⟨t',by rw [List.map_eq_nil_iff.mp ht₃, hgt]⟩

/-- A text without an occurrence ends where the tag begins, also if its end is a part of one. -/
theorem Tag.split (h : Tag literal) (ht : Matches literal t) (hu : ¬Occurs literal u) (v : List Char) :
    splitLiteral literal (u ++ (t ++ v)) = some (u,v) := by
  obtain ⟨⟨t',rfl,_⟩,_⟩ := h.shape ht
  induction u with
  | nil =>
    have hdrop : dropLiteral literal ('<' :: (t' ++ v)) = some v := dropLiteral_eq_some.mpr ⟨_,ht,rfl⟩
    simp only [List.nil_append, List.cons_append, splitLiteral, hdrop]
  | cons c u ih =>
    have hdrop : dropLiteral literal (c :: (u ++ ('<' :: t' ++ v))) = none := by
      by_contra hsome
      obtain ⟨rest,hrest⟩ := Option.ne_none_iff_exists'.mp hsome
      obtain ⟨t₂,ht₂,hs⟩ := dropLiteral_eq_some.mp hrest
      rw [← List.cons_append] at hs
      rcases List.append_eq_append_iff.mp hs with ⟨w,rfl,hw⟩ | ⟨w,hw,_⟩
      · -- The occurrence goes on into the tag, whose first character it would hold twice.
        obtain ⟨⟨t₃,ht₃,honce⟩,_⟩ := h.shape ht₂
        cases w with
        | nil => exact hu ⟨[],_,[],ht₂,by simp⟩
        | cons d w =>
          obtain ⟨rfl,_⟩ := List.cons_eq_cons.mp hw
          obtain ⟨_,rfl⟩ := List.cons_eq_cons.mp ht₃
          exact honce (by simp)
      · exact hu ⟨[],t₂,w,ht₂,hw⟩
    rw [List.cons_append, splitLiteral, hdrop]
    simp only [ih (fun hocc => hu (hocc.append_left [c])), Option.map_some]

end Tags

end NanoClaw.Router
