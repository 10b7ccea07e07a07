import Mathlib.Data.List.Nodup
import Mathlib.Data.List.Basic

/-! Python's `dict`: entries in the order their keys were first set, each key once. -/
namespace NanoClaw
variable {K V : Type} [DecidableEq K]

structure Dict (K V : Type) where
  entries : List (K × V)
  nodup : (entries.map Prod.fst).Nodup

namespace Dict

def lookup (k : K) : List (K × V) → Option V
  | [] => none
  | (k', v) :: rest => if k' = k then some v else lookup k rest

def insert (k : K) (v : V) : List (K × V) → List (K × V)
  | [] => [(k,v)]
  | (k', v') :: rest => if k' = k then (k',v) :: rest else (k',v') :: insert k v rest

theorem mem_keys_insert (k : K) (v : V) (l : List (K × V)) (x : K) :
    x ∈ (insert k v l).map Prod.fst ↔ x = k ∨ x ∈ l.map Prod.fst := by
  induction l with
  | nil => simp [insert]
  | cons p rest ih =>
    obtain ⟨k',v'⟩ := p
    simp only [insert]
    split
    · rename_i h
      subst h
      simp
    · simp only [List.map_cons, List.mem_cons, ih]
      tauto

theorem nodup_insert (k : K) (v : V) {l : List (K × V)} (h : (l.map Prod.fst).Nodup) :
    ((insert k v l).map Prod.fst).Nodup := by
  induction l with
  | nil => simp [insert]
  | cons p rest ih =>
    obtain ⟨k',v'⟩ := p
    obtain ⟨hk,hrest⟩ := List.nodup_cons.mp h
    simp only [insert]
    split
    · exact h
    · rename_i hne
      refine List.nodup_cons.mpr ⟨?_,ih hrest⟩
      rw [mem_keys_insert]
      rintro (rfl | hmem)
      · exact hne rfl
      · exact hk hmem

theorem insert_new {k : K} {l : List (K × V)} (h : k ∉ l.map Prod.fst) (v : V) :
    insert k v l = l ++ [(k,v)] := by
  induction l with
  | nil => rfl
  | cons p rest ih =>
    obtain ⟨k',v'⟩ := p
    simp only [List.map_cons, List.mem_cons, not_or] at h
    rw [insert, if_neg (Ne.symm h.1), ih h.2, List.cons_append]

/-- Setting distinct new keys one after the other appends their entries. -/
theorem foldl_insert {l : List (K × V)} {acc : List (K × V)}
    (h : ((acc ++ l).map Prod.fst).Nodup) :
    l.foldl (fun acc p => insert p.1 p.2 acc) acc = acc ++ l := by
  induction l generalizing acc with
  | nil => simp
  | cons p rest ih =>
    have hnew : p.1 ∉ acc.map Prod.fst := by
      rw [List.map_append, List.nodup_append] at h
      exact fun hp => h.2.2 p.1 hp p.1 (by simp) rfl
    rw [List.foldl_cons, insert_new hnew, ih (by simpa using h), List.append_assoc,
      List.singleton_append]

omit [DecidableEq K] in
theorem eq_of_entries {d d' : Dict K V} (h : d.entries = d'.entries) : d = d' := by
  obtain ⟨l,hl⟩ := d
  obtain ⟨l',hl'⟩ := d'
  cases h
  rfl

def empty : Dict K V := ⟨[],List.nodup_nil⟩

def get? (d : Dict K V) (k : K) : Option V := lookup k d.entries

def set (d : Dict K V) (k : K) (v : V) : Dict K V := ⟨insert k v d.entries,nodup_insert k v d.nodup⟩

def keys (d : Dict K V) : List K := d.entries.map Prod.fst

def values (d : Dict K V) : List V := d.entries.map Prod.snd

theorem lookup_insert (k : K) (v : V) (l : List (K × V)) (x : K) :
    lookup x (insert k v l) = if x = k then some v else lookup x l := by
  induction l with
  | nil => simp [insert, lookup, eq_comm]
  | cons p rest ih =>
    obtain ⟨k',v'⟩ := p
    simp only [insert]
    split
    · rename_i h
      subst h
      by_cases hx : k' = x
      · simp [lookup, hx]
      · simp [lookup, hx, Ne.symm hx]
    · rename_i hne
      by_cases hx : k' = x
      · subst hx
        simp [lookup, hne]
      · simp [lookup, hx, ih]

@[simp] theorem get?_set_self (d : Dict K V) (k : K) (v : V) : (d.set k v).get? k = some v := by
  simp [get?, set, lookup_insert]

theorem get?_set_ne (d : Dict K V) {k x : K} (v : V) (h : x ≠ k) : (d.set k v).get? x = d.get? x := by
  simp [get?, set, lookup_insert, h]

/-- Setting a key to the value it has changes nothing. -/
theorem set_eq_self_iff {d : Dict K V} {k : K} {v : V} : d.set k v = d ↔ d.get? k = some v := by
  constructor
  · intro h
    rw [← h, get?_set_self]
  · intro h
    have hinsert : ∀ l : List (K × V), lookup k l = some v → insert k v l = l := by
      intro l hl
      induction l with
      | nil => cases hl
      | cons p rest ih =>
        obtain ⟨k',v'⟩ := p
        rw [lookup] at hl
        rw [insert]
        split_ifs at hl ⊢ with hk
        · rw [Option.some.inj hl]
        · rw [ih hl]
    exact eq_of_entries (hinsert d.entries h)

theorem lookup_filter_keys {p : K → Bool} {k : K} (hk : p k = true) (l : List (K × V)) :
    lookup k (l.filter (fun e => p e.1)) = lookup k l := by
  induction l with
  | nil => rfl
  | cons e rest ih =>
    rcases eq_or_ne e.1 k with he | he
    · simp [lookup, he, hk]
    · rcases hp : p e.1 with _ | _ <;>
        simp [lookup, hp, he, ih]

/-- `{k: v for k, v in d.items() if p(k)}`. -/
def filterKeys (d : Dict K V) (p : K → Bool) : Dict K V :=
  ⟨d.entries.filter (fun e => p e.1),d.nodup.sublist (List.filter_sublist.map Prod.fst)⟩

theorem get?_filterKeys (d : Dict K V) {p : K → Bool} {k : K} (hk : p k = true) :
    (d.filterKeys p).get? k = d.get? k := lookup_filter_keys hk d.entries

theorem mem_keys_of_lookup {k : K} {l : List (K × V)} (h : (lookup k l).isSome) :
    k ∈ l.map Prod.fst := by
  induction l with
  | nil => cases h
  | cons e rest ih =>
    rcases eq_or_ne e.1 k with he | he
    · exact he ▸ List.mem_cons_self
    · exact List.mem_cons_of_mem _ (ih (by simpa [lookup, he] using h))

theorem mem_keys_of_get? {d : Dict K V} {k : K} (h : (d.get? k).isSome) : k ∈ d.keys :=
  mem_keys_of_lookup h

theorem lookup_of_mem_keys {k : K} {l : List (K × V)} (h : k ∈ l.map Prod.fst) :
    (lookup k l).isSome := by
  induction l with
  | nil => cases h
  | cons e rest ih =>
    rcases eq_or_ne e.1 k with he | he
    · simp [lookup, he]
    · rcases List.mem_cons.mp h with hk | hk
      · exact absurd hk.symm he
      · simpa [lookup, he] using ih hk

theorem mem_keys_iff {d : Dict K V} {k : K} : k ∈ d.keys ↔ (d.get? k).isSome :=
  ⟨lookup_of_mem_keys,mem_keys_of_get?⟩

theorem mem_of_lookup {k : K} {v : V} {l : List (K × V)} (h : lookup k l = some v) : (k,v) ∈ l := by
  induction l with
  | nil => cases h
  | cons e rest ih =>
    obtain ⟨k',v'⟩ := e
    rcases eq_or_ne k' k with rfl | he
    · simp only [lookup, if_true] at h
      rw [Option.some.inj h]
      exact List.mem_cons_self
    · simp only [lookup, if_neg he] at h
      exact List.mem_cons_of_mem _ (ih h)

theorem mem_values_of_get? {d : Dict K V} {k : K} {v : V} (h : d.get? k = some v) : v ∈ d.values :=
  List.mem_map_of_mem (mem_of_lookup h)

/-- What holds of the values that are set one after the other, and of those there before, holds of every
value in the end. -/
theorem of_get?_foldl_set {P : V → Prop} {k : K} {v : V} {l : List (K × V)} {d : Dict K V}
    (hl : ∀ e ∈ l, P e.2) (hd : ∀ v, d.get? k = some v → P v)
    (h : (l.foldl (fun d e => d.set e.1 e.2) d).get? k = some v) : P v := by
  induction l generalizing d with
  | nil => exact hd v h
  | cons e rest ih =>
    obtain ⟨he,hrest⟩ := List.forall_mem_cons.mp hl
    apply @ih (d.set e.1 e.2) hrest _ h
    intro w hw
    by_cases hk : k = e.1
    · rw [hk, get?_set_self] at hw
      exact Option.some.inj hw ▸ he
    · rw [get?_set_ne _ _ hk] at hw
      exact hd w hw

section MapValues
variable {W : Type} (f : V → W)

/-- The same keys with other values. -/
def mapValues (d : Dict K V) : Dict K W where
  entries := d.entries.map (fun e => (e.1,f e.2))
  nodup := by
    rw [List.map_map]
    exact d.nodup

theorem insert_map (k : K) (v : V) (l : List (K × V)) :
    insert k (f v) (l.map (fun e => (e.1,f e.2))) = (insert k v l).map (fun e => (e.1,f e.2)) := by
  induction l with
  | nil => rfl
  | cons e rest ih =>
    simp only [List.map_cons, insert]
    split <;> simp [ih]

theorem mapValues_set (d : Dict K V) (k : K) (v : V) :
    (d.mapValues f).set k (f v) = (d.set k v).mapValues f :=
  eq_of_entries (insert_map f k v d.entries)

theorem get?_mapValues (d : Dict K V) (k : K) : (d.mapValues f).get? k = (d.get? k).map f := by
  have hlookup : ∀ l : List (K × V), lookup k (l.map (fun e => (e.1,f e.2))) = (lookup k l).map f := by
    intro l
    induction l with
    | nil => rfl
    | cons e rest ih =>
      simp only [List.map_cons, lookup]
      split
      · rfl
      · exact ih
  exact hlookup d.entries

omit [DecidableEq K] in
theorem mapValues_filterKeys (d : Dict K V) (p : K → Bool) :
    (d.mapValues f).filterKeys p = (d.filterKeys p).mapValues f :=
  eq_of_entries List.filter_map

end MapValues

end Dict
end NanoClaw
