import Mathlib.Data.List.Infix

/-! Cutting a text at the first occurrence of a pattern, as `find` and slicing do. -/
namespace NanoClaw.Cut
variable {α : Type}

/-- An element foreign to the pattern ends every occurrence before it. -/
theorem prefix_append_cons {m a b : List α} {x : α} (hx : x ∉ m) :
    m <+: a ++ x :: b ↔ m <+: a := by
  constructor
  · intro h
    rcases List.prefix_or_prefix_of_prefix h (List.prefix_append a (x :: b)) with h' | h'
    · exact h'
    · obtain ⟨t,rfl⟩ := h'
      rw [List.prefix_append_right_inj] at h
      cases t with
      | nil => simp
      | cons y t =>
        obtain ⟨rfl,_⟩ := List.cons_prefix_cons.mp h
        simp at hx
  · exact fun h => h.trans (List.prefix_append a (x :: b))

variable [DecidableEq α]

/-- What stands before and after the first occurrence of the pattern. -/
def cut (m : List α) : List α → Option (List α × List α)
  | [] => if m = [] then some ([],[]) else none
  | c :: cs =>
    if m.isPrefixOf (c :: cs) then some ([],(c :: cs).drop m.length)
    else (cut m cs).map (fun p => (c :: p.1,p.2))

theorem cut_cons_later {m : List α} {c : α} {cs : List α} (h : ¬m <+: c :: cs) :
    cut m (c :: cs) = (cut m cs).map (fun p => (c :: p.1,p.2)) := by
  rw [cut, if_neg]
  rwa [List.isPrefixOf_iff_prefix]

theorem cut_front (m b : List α) : cut m (m ++ b) = some ([],b) := by
  cases h : m ++ b with
  | nil =>
    obtain ⟨rfl,rfl⟩ := List.append_eq_nil_iff.mp h
    rfl
  | cons c cs =>
    have hp : m <+: c :: cs := ⟨b,h⟩
    rw [cut, if_pos (List.isPrefixOf_iff_prefix.mpr hp), ← h, List.drop_left]

/-- A text without the first element of the pattern ends where the pattern begins. -/
theorem cut_at_head {x : α} {m u : List α} (hm : m.head? = some x) (hu : x ∉ u) (v : List α) :
    cut m (u ++ (m ++ v)) = some (u,v) := by
  obtain ⟨t,rfl⟩ := List.head?_eq_some_iff.mp hm
  induction u with
  | nil => exact cut_front (x :: t) v
  | cons c u ih =>
    obtain ⟨hne,hu⟩ := not_or.mp (List.mem_cons.not.mp hu)
    have hp : ¬x :: t <+: c :: (u ++ (x :: t ++ v)) := fun h => hne (List.cons_prefix_cons.mp h).1
    rw [List.cons_append, cut_cons_later hp, ih hu]
    rfl

theorem cut_eq_some {m s u v : List α} (h : cut m s = some (u,v)) : s = u ++ m ++ v := by
  induction s generalizing u with
  | nil =>
    rw [cut] at h
    split at h
    · rename_i hm
      cases h
      simp [hm]
    · cases h
  | cons c cs ih =>
    by_cases hp : m <+: c :: cs
    · obtain ⟨b,hb⟩ := hp
      rw [← hb, cut_front] at h
      cases h
      rw [← hb, List.nil_append]
    · rw [cut_cons_later hp] at h
      obtain ⟨⟨u',v'⟩,hcs,hpair⟩ := Option.map_eq_some_iff.mp h
      cases hpair
      rw [ih hcs]
      rfl

theorem cut_eq_none_iff {m s : List α} : cut m s = none ↔ ¬m <:+: s := by
  induction s with
  | nil =>
    rw [cut, List.infix_nil]
    split <;> simp_all
  | cons c cs ih =>
    rw [List.infix_cons_iff]
    by_cases hp : m <+: c :: cs
    · obtain ⟨b,hb⟩ := hp
      simp [← hb, cut_front]
    · rw [cut_cons_later hp, Option.map_eq_none_iff, ih]
      simp [hp]

theorem cut_append_cons {m : List α} {x : α} (hm : m ≠ []) (hx : x ∉ m) (a b : List α) :
    cut m (a ++ x :: b) =
      match cut m a with
      | some (u,v) => some (u,v ++ x :: b)
      | none => (cut m b).map (fun p => (a ++ x :: p.1,p.2)) := by
  induction a with
  | nil =>
    have hp : ¬m <+: x :: b := by
      rw [show x :: b = [] ++ x :: b from rfl, prefix_append_cons hx, List.prefix_nil]
      exact hm
    rw [List.nil_append, cut_cons_later hp, cut, if_neg hm]
    rfl
  | cons c cs ih =>
    by_cases hp : m <+: c :: cs
    · obtain ⟨t,ht⟩ := hp
      rw [← ht, cut_front, List.append_assoc, cut_front]
    · have hp' : ¬m <+: c :: (cs ++ x :: b) := by
        rw [← List.cons_append, prefix_append_cons hx]
        exact hp
      rw [List.cons_append, cut_cons_later hp', cut_cons_later hp, ih]
      cases cut m cs with
      | none => simp [Function.comp_def]
      | some p => rfl

/-- A part without the pattern, ended by a foreign element, is passed over. -/
theorem cut_skip {m : List α} {x : α} (hm : m ≠ []) (hx : x ∉ m) {a : List α}
    (ha : cut m a = none) (b : List α) :
    cut m (a ++ x :: b) = (cut m b).map (fun p => (a ++ x :: p.1,p.2)) := by
  rw [cut_append_cons hm hx, ha]

/-- The search ends inside a part that holds the pattern. -/
theorem cut_stop {m : List α} {x : α} (hm : m ≠ []) (hx : x ∉ m) {a u v : List α}
    (ha : cut m a = some (u,v)) (b : List α) : cut m (a ++ x :: b) = some (u,v ++ x :: b) := by
  rw [cut_append_cons hm hx, ha]

/-- Whether an occurrence is the first does not depend on what follows it. -/
theorem cut_first {m u : List α} (h : cut m (u ++ m) = some (u,[])) (v : List α) :
    cut m (u ++ (m ++ v)) = some (u,v) := by
  induction u with
  | nil => exact cut_front m v
  | cons c u ih =>
    have hfirst : ¬m <+: c :: (u ++ m) := by
      rintro ⟨t,ht⟩
      rw [List.cons_append, ← ht, cut_front] at h
      cases h
    have hlater : ¬m <+: c :: (u ++ (m ++ v)) := by
      intro hp
      have hlen : m.length ≤ (c :: (u ++ m)).length := by
        rw [List.length_cons, List.length_append]
        omega
      have hfront : c :: (u ++ m) <+: c :: (u ++ (m ++ v)) := ⟨v,by simp⟩
      exact hfirst (List.prefix_of_prefix_length_le hp hfront hlen)
    rw [List.cons_append, cut_cons_later hfirst] at h
    obtain ⟨⟨u',v'⟩,hcut,hpair⟩ := Option.map_eq_some_iff.mp h
    cases hpair
    rw [List.cons_append, cut_cons_later hlater, ih hcut]
    rfl

end NanoClaw.Cut
