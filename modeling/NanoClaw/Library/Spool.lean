import NanoClaw.Library.Latest

/-! A spool: producers put entries under keys, and drains list what lies there by key and take it one
by one. Every entry is taken once, and those of one producer in the order they were put. -/
namespace NanoClaw
variable {E K W : Type}

/-- All entries put so far, those not yet listed, those listed and not yet taken, if a drain is under
way, what it has taken, and what the drains before it took. -/
structure Spool (E : Type) where
  put : List E
  waiting : List E
  listed : Option (List E)
  taken : List E
  done : List (List E)

namespace Spool

def empty : Spool E := ⟨[],[],none,[],[]⟩

/-- The number of drains that have listed. -/
def rounds (s : Spool E) : Nat := s.done.length + if s.listed.isSome then 1 else 0

/-- The entries in the order they are taken, as far as it is known. -/
def inOrder (s : Spool E) : List E := (s.done.flatten ++ s.taken) ++ (s.listed.getD [] ++ s.waiting)

section Steps
variable [LinearOrder K] (key : E → K) (writer : E → W) (round : E → Nat)

/-- A producer's keys grow, and an entry knows how many drains had listed before it was put. -/
inductive Step : Spool E → Spool E → Prop where
  | put {s : Spool E} {e : E} (hnew : ∀ e' ∈ s.put, key e' ≠ key e)
      (hgrows : ∀ e' ∈ s.put, writer e' = writer e → key e' < key e) (hround : round e = s.rounds) :
      Step s { s with put := s.put ++ [e], waiting := s.waiting ++ [e] }
  | list {s : Spool E} (h : s.listed = none) :
      Step s { s with waiting := [], listed := some (Latest.ascending key s.waiting) }
  | take {s : Spool E} {e : E} {rest : List E} (h : s.listed = some (e :: rest)) :
      Step s { s with listed := some rest, taken := s.taken ++ [e] }
  | close {s : Spool E} (h : s.listed = some []) :
      Step s { s with listed := none, taken := [], done := s.done ++ [s.taken] }

structure Valid [DecidableEq W] (s : Spool E) : Prop where
  between : s.listed = none → s.taken = []
  distinct : (s.put.map key).Nodup
  grows : s.put.Pairwise (fun a b => writer a = writer b → key a < key b)
  kept : s.inOrder.Perm s.put
  ordered : ∀ w, s.inOrder.filter (fun e => writer e = w) = s.put.filter (fun e => writer e = w)
  fresh : ∀ e ∈ s.waiting, round e = s.rounds
  current : ∀ e ∈ s.taken ++ s.listed.getD [], round e = s.done.length

end Steps

variable [LinearOrder K] [DecidableEq W] {key : E → K} {writer : E → W} {round : E → Nat} {s t : Spool E}

theorem valid_empty : Valid key writer round (empty : Spool E) where
  between := fun _ => rfl
  distinct := List.nodup_nil
  grows := List.Pairwise.nil
  kept := List.Perm.refl _
  ordered := fun _ => rfl
  fresh := fun _ he => absurd he List.not_mem_nil
  current := fun _ he => absurd he List.not_mem_nil

/-- Sorting does not change the order of entries whose keys grow. -/
theorem filter_ascending {p : E → Bool} {l : List E}
    (h : (l.filter p).Pairwise (fun a b => key a < key b)) :
    (Latest.ascending key l).filter p = l.filter p := by
  have hperm : ((Latest.ascending key l).filter p).Perm (l.filter p) :=
    (Latest.ascending_perm l).filter p
  have hsorted : ((Latest.ascending key l).filter p).Pairwise (fun a b => key a ≤ key b) :=
    (Latest.ascending_sorted l).filter p
  have hdistinct : ((Latest.ascending key l).filter p).Pairwise (fun a b => key a ≠ key b) :=
    (hperm.pairwise_iff (fun h => Ne.symm h)).mpr (h.imp ne_of_lt)
  refine hperm.eq_of_pairwise (fun a b _ _ hab hba => absurd hba hab.asymm) ?_ h
  exact hsorted.imp₂ (fun _ _ hle hne => lt_of_le_of_ne hle hne) hdistinct

/-- The entries of one producer, wherever they are, have growing keys. -/
theorem Valid.pairwise_filter (h : Valid key writer round s) (w : W) :
    (s.inOrder.filter (fun e => writer e = w)).Pairwise (fun a b => key a < key b) := by
  rw [h.ordered]
  refine (h.grows.filter _).imp_of_mem (fun {a b} ha hb hlt => hlt ?_)
  rw [of_decide_eq_true (List.mem_filter.mp ha).2, of_decide_eq_true (List.mem_filter.mp hb).2]

theorem Valid.step_put (h : Valid key writer round s) {e : E} (hnew : ∀ e' ∈ s.put, key e' ≠ key e)
    (hgrows : ∀ e' ∈ s.put, writer e' = writer e → key e' < key e) (hround : round e = s.rounds) :
    Valid key writer round { s with put := s.put ++ [e], waiting := s.waiting ++ [e] } := by
  have horder : inOrder { s with put := s.put ++ [e], waiting := s.waiting ++ [e] } =
      s.inOrder ++ [e] := by
    simp [inOrder]
  refine ⟨h.between,?_,?_,?_,?_,?_,h.current⟩
  · rw [List.map_append, List.nodup_append]
    refine ⟨h.distinct,List.nodup_singleton _,?_⟩
    rintro k hk k' hk' rfl
    obtain ⟨e',he',hkey⟩ := List.mem_map.mp hk
    exact hnew e' he' (hkey.trans (List.mem_singleton.mp hk'))
  · rw [List.pairwise_append]
    refine ⟨h.grows,List.pairwise_singleton _ _,fun a ha b hb => ?_⟩
    rw [List.mem_singleton.mp hb]
    exact hgrows a ha
  · rw [horder]
    exact h.kept.append_right [e]
  · intro w
    rw [horder, List.filter_append, List.filter_append, h.ordered]
  · intro e' he'
    rcases List.mem_append.mp he' with he' | he'
    · exact h.fresh e' he'
    · rw [List.mem_singleton.mp he']
      exact hround

theorem Valid.step_list (h : Valid key writer round s) (hlisted : s.listed = none) :
    Valid key writer round
      { s with waiting := [], listed := some (Latest.ascending key s.waiting) } := by
  have hbefore : s.inOrder = s.done.flatten ++ s.waiting := by
    simp [inOrder, hlisted, h.between hlisted]
  have hafter : inOrder { s with waiting := [], listed := some (Latest.ascending key s.waiting) } =
      s.done.flatten ++ Latest.ascending key s.waiting := by
    simp [inOrder, h.between hlisted]
  refine ⟨fun hnone => (by cases hnone),h.distinct,h.grows,?_,?_,?_,?_⟩
  · rw [hafter]
    refine List.Perm.trans ?_ h.kept
    rw [hbefore]
    exact (Latest.ascending_perm s.waiting).append_left _
  · intro w
    have hgrows := h.pairwise_filter w
    rw [hbefore, List.filter_append] at hgrows
    rw [hafter, ← h.ordered, hbefore, List.filter_append, List.filter_append,
      filter_ascending (List.pairwise_append.mp hgrows).2.1]
  · exact fun _ he => absurd he List.not_mem_nil
  · intro e he
    rw [h.between hlisted] at he
    have hwaiting : e ∈ s.waiting := (Latest.ascending_perm s.waiting).mem_iff.mp he
    rw [h.fresh e hwaiting, rounds, hlisted]
    rfl

theorem Valid.step_take (h : Valid key writer round s) {e : E} {rest : List E}
    (hlisted : s.listed = some (e :: rest)) :
    Valid key writer round { s with listed := some rest, taken := s.taken ++ [e] } := by
  have horder : inOrder { s with listed := some rest, taken := s.taken ++ [e] } = s.inOrder := by
    simp [inOrder, hlisted]
  refine ⟨fun hnone => (by cases hnone),h.distinct,h.grows,?_,?_,?_,?_⟩
  · rw [horder]
    exact h.kept
  · rw [horder]
    exact h.ordered
  · intro e' he'
    rw [h.fresh e' he', rounds, rounds, hlisted]
    rfl
  · intro e' he'
    refine h.current e' ?_
    simpa [hlisted] using he'

theorem Valid.step_close (h : Valid key writer round s) (hlisted : s.listed = some []) :
    Valid key writer round { s with listed := none, taken := [], done := s.done ++ [s.taken] } := by
  have horder : inOrder { s with listed := none, taken := [], done := s.done ++ [s.taken] } =
      s.inOrder := by
    simp [inOrder, hlisted]
  refine ⟨fun _ => rfl,h.distinct,h.grows,?_,?_,?_,fun _ he => absurd he List.not_mem_nil⟩
  · rw [horder]
    exact h.kept
  · rw [horder]
    exact h.ordered
  · intro e he
    rw [h.fresh e he, rounds, rounds, hlisted]
    simp

theorem Valid.step (h : Valid key writer round s) (hstep : Step key writer round s t) :
    Valid key writer round t := by
  cases hstep with
  | put hnew hgrows hround => exact h.step_put hnew hgrows hround
  | list hlisted => exact h.step_list hlisted
  | take hlisted => exact h.step_take hlisted
  | close hlisted => exact h.step_close hlisted

/-- What is in no later place was taken by a drain that has ended. -/
theorem Valid.mem_done (h : Valid key writer round s) {e : E} (he : e ∈ s.put)
    (hround : round e < s.done.length) : e ∈ s.done.flatten := by
  have hmem := h.kept.mem_iff.mpr he
  rw [inOrder, List.mem_append, List.mem_append, List.mem_append] at hmem
  rcases hmem with (hdone | htaken) | hlisted | hwaiting
  · exact hdone
  · have := h.current e (List.mem_append_left _ htaken)
    omega
  · have := h.current e (List.mem_append_right _ hlisted)
    omega
  · have := h.fresh e hwaiting
    rw [rounds] at this
    omega

theorem Valid.nodup_inOrder (h : Valid key writer round s) : (s.inOrder.map key).Nodup :=
  (h.kept.map key).nodup_iff.mpr h.distinct

/-- Among lists without a common member, one holds a member of their join. -/
theorem countP_of_mem_flatten {α : Type} [DecidableEq α] {ks : List (List α)} {k : α} (hnodup : ks.flatten.Nodup)
    (h : k ∈ ks.flatten) : ks.countP (fun l => k ∈ l) = 1 := by
  induction ks with
  | nil => cases h
  | cons l ks ih =>
    rw [List.flatten_cons, List.nodup_append] at hnodup
    obtain ⟨_,hks,hdisjoint⟩ := hnodup
    by_cases hl : k ∈ l
    · have hnone : ks.countP (fun l => k ∈ l) = 0 := by
        rw [List.countP_eq_zero]
        intro l' hl' hk
        exact hdisjoint k hl k (List.mem_flatten.mpr ⟨l',hl',of_decide_eq_true hk⟩) rfl
      rw [List.countP_cons, hnone, if_pos (decide_eq_true hl)]
    · rw [List.flatten_cons, List.mem_append, or_iff_right hl] at h
      rw [List.countP_cons, ih hks h, if_neg (fun hk => hl (of_decide_eq_true hk))]

/-- Every entry is taken by exactly one of the drains once one that has listed it has ended. -/
theorem Valid.once (h : Valid key writer round s) {e : E} (he : e ∈ s.put)
    (hround : round e < s.done.length) :
    s.done.countP (fun drain => key e ∈ drain.map key) = 1 := by
  have hnodup : (s.done.flatten.map key).Nodup := by
    have hall := h.nodup_inOrder
    rw [inOrder, List.append_assoc, List.map_append] at hall
    exact (List.nodup_append.mp hall).1
  rw [List.map_flatten] at hnodup
  have hmem : key e ∈ (s.done.map (List.map key)).flatten := by
    rw [← List.map_flatten]
    exact List.mem_map_of_mem (h.mem_done he hround)
  have hone := countP_of_mem_flatten hnodup hmem
  rwa [List.countP_map] at hone

/-- What has been taken of a producer's entries, up to any moment, is the first part of what it has
put. -/
theorem Valid.fifo (h : Valid key writer round s) {l : List E} (hl : l <+: s.inOrder) (w : W) :
    l.filter (fun e => writer e = w) <+: s.put.filter (fun e => writer e = w) := by
  rw [← h.ordered]
  exact hl.filter _

end Spool
end NanoClaw
