import Mathlib.Data.List.Nodup

/-! A table whose rows have distinct keys, with the operations of a database on it. -/
namespace NanoClaw
variable {R K : Type} {key : R → K}

structure Table (key : R → K) where
  rows : List R
  nodup : (rows.map key).Nodup

namespace Table

def empty : Table key := ⟨[],List.nodup_nil⟩

variable [DecidableEq K]

def find? (t : Table key) (k : K) : Option R := t.rows.find? (fun r => key r = k)

theorem find?_eq_some_iff {t : Table key} {k : K} {r : R} :
    t.find? k = some r ↔ r ∈ t.rows ∧ key r = k := by
  constructor
  · intro h
    exact ⟨List.mem_of_find?_eq_some h,by simpa using List.find?_some h⟩
  · rintro ⟨hr,hk⟩
    rcases hf : t.find? k with _ | r'
    · exact absurd hk (by simpa using List.find?_eq_none.mp hf r hr)
    · have hkey : key r' = k := by simpa using List.find?_some hf
      exact congrArg some (List.inj_on_of_nodup_map t.nodup (List.mem_of_find?_eq_some hf) hr
        (hkey.trans hk.symm))

theorem find?_eq_none_iff {t : Table key} {k : K} : t.find? k = none ↔ k ∉ t.rows.map key := by
  simp only [find?, List.find?_eq_none, decide_eq_true_eq, List.mem_map, not_exists, not_and]

/-- The new row comes last; a key that is there already is refused. -/
def insert (t : Table key) (r : R) : Option (Table key) :=
  if h : key r ∈ t.rows.map key then none
  else
    some
      { rows := t.rows ++ [r]
        nodup := by
          rw [List.map_append, List.nodup_append]
          refine ⟨t.nodup,by simp,fun a ha b hb hab => h ?_⟩
          rw [List.map_singleton, List.mem_singleton] at hb
          exact hb ▸ hab ▸ ha }

/-- Change the row with a key by a function that keeps keys. -/
def modify (t : Table key) (k : K) (f : R → R) (hf : ∀ r, key (f r) = key r) : Table key where
  rows := t.rows.map (fun r => if key r = k then f r else r)
  nodup := by
    have hkeys : key ∘ (fun r => if key r = k then f r else r) = key := by
      funext r
      simp only [Function.comp]
      split
      · exact hf r
      · rfl
    rw [List.map_map, hkeys]
    exact t.nodup

def erase (t : Table key) (k : K) : Table key where
  rows := t.rows.filter (fun r => key r ≠ k)
  nodup := t.nodup.sublist (List.filter_sublist.map key)

theorem insert_eq_some_iff {t t' : Table key} {r : R} :
    t.insert r = some t' ↔ t.find? (key r) = none ∧ t'.rows = t.rows ++ [r] := by
  rw [find?_eq_none_iff, insert]
  split
  · simp_all
  · rename_i h
    obtain ⟨rows',nodup'⟩ := t'
    simp [h, eq_comm]

theorem insert_eq_none_iff {t : Table key} {r : R} : t.insert r = none ↔ t.find? (key r) ≠ none := by
  rw [ne_eq, find?_eq_none_iff, insert]
  split <;> simp_all

theorem find?_modify {t : Table key} {k k' : K} {f : R → R} (hf : ∀ r, key (f r) = key r) :
    (t.modify k f hf).find? k' = if k' = k then (t.find? k).map f else t.find? k' := by
  simp only [find?, modify, List.find?_map]
  split
  · rename_i h
    subst h
    have hp : ((fun r => decide (key r = k')) ∘ fun r => if key r = k' then f r else r) =
        fun r => decide (key r = k') := by
      funext r
      simp only [Function.comp]
      split <;> simp_all
    rw [hp]
    rcases hfind : t.rows.find? (fun r => decide (key r = k')) with _ | r
    · rfl
    · have hr : key r = k' := by simpa using List.find?_some hfind
      simp [hr]
  · rename_i h
    have hp : ((fun r => decide (key r = k')) ∘ fun r => if key r = k then f r else r) =
        fun r => decide (key r = k') := by
      funext r
      simp only [Function.comp]
      split <;> simp_all
    rw [hp]
    rcases hfind : t.rows.find? (fun r => decide (key r = k')) with _ | r
    · rfl
    · have hr : key r = k' := by simpa using List.find?_some hfind
      simp [hr, h]

theorem find?_erase {t : Table key} {k k' : K} :
    (t.erase k).find? k' = if k' = k then none else t.find? k' := by
  rw [find?, erase, List.find?_filter]
  split
  · rename_i h
    subst h
    simp
  · rename_i h
    rw [find?]
    congr 1
    funext r
    by_cases hk : key r = k'
    · simp [hk, h]
    · simp [hk]

theorem mem_erase {t : Table key} {k : K} {r : R} : r ∈ (t.erase k).rows ↔ r ∈ t.rows ∧ key r ≠ k := by
  simp [erase]

/-- A view of the table that shows the row of no `k` stays as it is when that row changes. -/
theorem filter_modify {t : Table key} {k : K} {f : R → R} (hf : ∀ r, key (f r) = key r)
    {p : R → Bool} (h : ∀ r ∈ t.rows, key r = k → p r = false ∧ p (f r) = false) :
    (t.modify k f hf).rows.filter p = t.rows.filter p := by
  simp only [modify]
  have hr := h
  generalize t.rows = rows at hr
  induction rows with
  | nil => rfl
  | cons r rows ih =>
    have ih := ih (fun r hm => hr r (List.mem_cons_of_mem _ hm))
    by_cases hk : key r = k
    · simp [hk, hr r List.mem_cons_self hk, ih]
    · simp [hk, List.filter_cons, ih]

theorem filter_erase {t : Table key} {k : K} {p : R → Bool}
    (h : ∀ r ∈ t.rows, key r = k → p r = false) :
    (t.erase k).rows.filter p = t.rows.filter p := by
  rw [erase, List.filter_filter]
  apply List.filter_congr
  intro r hr
  by_cases hk : key r = k
  · simp [h r hr hk]
  · simp [hk]

end Table
end NanoClaw
