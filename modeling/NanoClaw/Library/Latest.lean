import Mathlib.Data.List.Sort

/-! The rows with the latest keys: a query that sorts down, limits, and sorts up again. -/
namespace NanoClaw.Latest
variable {α κ : Type} [LinearOrder κ] {key : α → κ}

def descending (key : α → κ) (rows : List α) : List α :=
  rows.insertionSort (fun a b => key b ≤ key a)

def ascending (key : α → κ) (rows : List α) : List α :=
  rows.insertionSort (fun a b => key a ≤ key b)

/-- `scan` is the order in which the rows come to a sort. It decides between equal keys. -/
def latest (key : α → κ) (scan : List α → List α) (limit : Nat) (rows : List α) : List α :=
  ascending key (scan ((descending key (scan rows)).take limit))

theorem descending_perm (rows : List α) : (descending key rows).Perm rows :=
  List.perm_insertionSort _ rows

theorem ascending_perm (rows : List α) : (ascending key rows).Perm rows :=
  List.perm_insertionSort _ rows

theorem ascending_sorted (rows : List α) :
    (ascending key rows).Pairwise (fun a b => key a ≤ key b) := by
  have : Std.Total (fun a b : α => key a ≤ key b) := ⟨fun a b => le_total (key a) (key b)⟩
  have : IsTrans α (fun a b => key a ≤ key b) := ⟨fun _ _ _ => le_trans⟩
  exact List.pairwise_insertionSort _ rows

theorem descending_sorted (rows : List α) :
    (descending key rows).Pairwise (fun a b => key b ≤ key a) := by
  have : Std.Total (fun a b : α => key b ≤ key a) := ⟨fun a b => le_total (key b) (key a)⟩
  have : IsTrans α (fun a b => key b ≤ key a) := ⟨fun _ _ _ hab hbc => hbc.trans hab⟩
  exact List.pairwise_insertionSort _ rows

/-- What such a query is for: it returns as many rows as the limit allows, in order, and omits none
that is later than one it returns. -/
structure IsLatest (key : α → κ) (limit : Nat) (rows result : List α) : Prop where
  sorted : result.Pairwise (fun a b => key a ≤ key b)
  count : result.length = min limit rows.length
  omits : ∃ omitted, (result ++ omitted).Perm rows ∧ ∀ o ∈ omitted, ∀ r ∈ result, key o ≤ key r

section Scan
variable {scan : List α → List α} (hscan : ∀ rows, (scan rows).Perm rows)
include hscan

theorem latest_perm (limit : Nat) (rows : List α) :
    (latest key scan limit rows).Perm ((descending key (scan rows)).take limit) :=
  (ascending_perm _).trans (hscan _)

theorem mem_of_mem_latest {limit : Nat} {rows : List α} {row : α}
    (h : row ∈ latest key scan limit rows) : row ∈ rows := by
  have h := List.mem_of_mem_take ((latest_perm hscan limit rows).mem_iff.mp h)
  exact ((descending_perm _).trans (hscan rows)).mem_iff.mp h

theorem latest_spec (limit : Nat) (rows : List α) :
    IsLatest key limit rows (latest key scan limit rows) := by
  have hperm : (latest key scan limit rows).Perm ((descending key (scan rows)).take limit) :=
    latest_perm hscan limit rows
  have hall : (descending key (scan rows)).Perm rows := (descending_perm _).trans (hscan rows)
  refine ⟨ascending_sorted _,?_,(descending key (scan rows)).drop limit,?_,?_⟩
  · rw [hperm.length_eq, List.length_take, hall.length_eq]
  · apply (hperm.append_right _).trans
    rwa [List.take_append_drop]
  · intro o ho r hr
    have hsorted : (descending key (scan rows)).Pairwise (fun a b => key b ≤ key a) :=
      descending_sorted _
    rw [← List.take_append_drop limit (descending key (scan rows))] at hsorted
    exact (List.pairwise_append.mp hsorted).2.2 r (hperm.mem_iff.mp hr) o ho

/-- Within the limit nothing is omitted. -/
theorem mem_latest {limit : Nat} {rows : List α} (hlimit : rows.length ≤ limit) {row : α}
    (h : row ∈ rows) : row ∈ latest key scan limit rows := by
  have hall : (descending key (scan rows)).Perm rows := (descending_perm _).trans (hscan rows)
  have hlen : (descending key (scan rows)).length ≤ limit := hall.length_eq.trans_le hlimit
  rw [(latest_perm hscan limit rows).mem_iff, List.take_of_length_le hlen, hall.mem_iff]
  exact h

theorem latest_eq_nil_iff {limit : Nat} (hlimit : 0 < limit) {rows : List α} :
    latest key scan limit rows = [] ↔ rows = [] := by
  have hcount : (latest key scan limit rows).length = min limit rows.length :=
    (latest_spec hscan limit rows).count
  rw [← List.length_eq_zero_iff, ← List.length_eq_zero_iff, hcount]
  omega

end Scan

/-- The query commutes with a map that keeps the order of keys. -/
theorem latest_map {β μ : Type} [LinearOrder μ] {key' : β → μ} {f : α → β} {scan : List α → List α}
    {scan' : List β → List β} (hkey : ∀ a b, key a ≤ key b ↔ key' (f a) ≤ key' (f b))
    (hscan : ∀ rows, scan' (rows.map f) = (scan rows).map f) (limit : Nat) (rows : List α) :
    latest key' scan' limit (rows.map f) = (latest key scan limit rows).map f := by
  have hdown : ∀ rows : List α, descending key' (rows.map f) = (descending key rows).map f :=
    fun rows => (List.map_insertionSort _ _ f rows (fun a _ b _ => hkey b a)).symm
  have hup : ∀ rows : List α, ascending key' (rows.map f) = (ascending key rows).map f :=
    fun rows => (List.map_insertionSort _ _ f rows (fun a _ b _ => hkey a b)).symm
  rw [latest, latest, hscan, hdown, ← List.map_take, hscan, hup]

section Hidden
variable {limit : Nat} {rows result : List α} {visible : α → Bool}

private theorem hidden_omitted (hvisible : IsLatest key limit (rows.filter visible) result)
    {x : α} (hx : x ∈ rows) (hhidden : visible x = false) {omitted : List α}
    (hperm : (result ++ omitted).Perm rows) : x ∈ omitted := by
  obtain ⟨_,hsplit,_⟩ := hvisible.omits
  rcases List.mem_append.mp (hperm.mem_iff.mpr hx) with hmem | hmem
  · have hmem := hsplit.mem_iff.mp (List.mem_append_left _ hmem)
    rw [(List.mem_filter.mp hmem).2] at hhidden
    contradiction
  · exact hmem

/-- The latest of the visible rows are the latest of all rows exactly when for each row that is
hidden enough visible ones are not older. -/
theorem isLatest_filter_iff (hvisible : IsLatest key limit (rows.filter visible) result) :
    IsLatest key limit rows result ↔
      ∀ x ∈ rows, visible x = false →
        limit ≤ ((rows.filter visible).filter (fun v => key x ≤ key v)).length := by
  obtain ⟨older,hsplit,holder⟩ := hvisible.omits
  constructor
  · intro hall x hx hhidden
    obtain ⟨omitted,hperm,hle⟩ := hall.omits
    have hfewer : (rows.filter visible).length < rows.length := by
      rw [List.length_filter_lt_length_iff_exists]
      exact ⟨x,hx,by simp [hhidden]⟩
    have hfull : result.length = limit := by
      have hv := hvisible.count
      have ha := hall.count
      omega
    -- no row of the result is older than a hidden one
    have hresult : result.filter (fun v => key x ≤ key v) = result :=
      List.filter_eq_self.mpr (fun r hr =>
        decide_eq_true (hle x (hidden_omitted hvisible hx hhidden hperm) r hr))
    calc limit = (result.filter (fun v => key x ≤ key v)).length := by rw [hresult, hfull]
      _ ≤ ((result ++ older).filter (fun v => key x ≤ key v)).length := by
        rw [List.filter_append, List.length_append]
        exact Nat.le_add_right _ _
      _ = ((rows.filter visible).filter (fun v => key x ≤ key v)).length :=
        (hsplit.filter _).length_eq
  · intro henough
    have hrows : (result ++ (older ++ rows.filter (fun x => !visible x))).Perm rows := by
      rw [← List.append_assoc]
      exact (hsplit.append_right _).trans (List.filter_append_perm visible rows)
    refine ⟨hvisible.sorted,?_,_,hrows,?_⟩
    · have hlength := (List.filter_append_perm visible rows).length_eq
      rw [List.length_append] at hlength
      rw [hvisible.count]
      rcases Nat.eq_zero_or_pos (rows.filter (fun x => !visible x)).length with hnone | hsome
      · omega
      · obtain ⟨x,hx⟩ := List.exists_mem_of_length_pos hsome
        obtain ⟨hx,hhidden⟩ := List.mem_filter.mp hx
        have h := henough x hx (by simpa using hhidden)
        have := (rows.filter visible).length_filter_le (fun v => key x ≤ key v)
        omega
    · intro o ho r hr
      rcases List.mem_append.mp ho with ho | ho
      · exact holder o ho r hr
      · obtain ⟨ho,hhidden⟩ := List.mem_filter.mp ho
        by_contra hlater
        -- the visible rows that are not older than `o` are then in the result, and `r` is none
        have holderNone : older.filter (fun v => key o ≤ key v) = [] := by
          refine List.filter_eq_nil_iff.mpr (fun v hv hle => hlater ?_)
          exact (of_decide_eq_true hle).trans (holder v hv r hr)
        have hfewer : (result.filter (fun v => key o ≤ key v)).length < result.length := by
          rw [List.length_filter_lt_length_iff_exists]
          exact ⟨r,hr,by simpa using hlater⟩
        have henough := henough o ho (by simpa using hhidden)
        rw [← (hsplit.filter _).length_eq, List.filter_append, holderNone, List.append_nil]
          at henough
        have := hvisible.count
        omega

end Hidden

end NanoClaw.Latest
