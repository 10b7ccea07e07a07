import Mathlib.Logic.Relation
import NanoClaw.Library.Spool

/-! An inbox whose reader may stop at any moment and start again: it lists what lies there by key, handles
one entry after the other, and takes each away behind its turn. What it had in hand when it stopped is
handled again. -/
namespace NanoClaw
variable {E K W : Type}

/-- A list with each of its entries once or several times in a row. -/
inductive Repeats : List E → List E → Prop where
  | nil : Repeats [] []
  | next {h l : List E} (e : E) : Repeats h l → Repeats (h ++ [e]) (l ++ [e])
  | again {h l : List E} (e : E) : Repeats h (l ++ [e]) → Repeats (h ++ [e]) (l ++ [e])

theorem Repeats.map {F : Type} (f : E → F) {h l : List E} (hr : Repeats h l) :
    Repeats (h.map f) (l.map f) := by
  induction hr with
  | nil => exact .nil
  | next e _ ih =>
    rw [List.map_append, List.map_append]
    exact ih.next (f e)
  | again e _ ih =>
    rw [List.map_append] at ih ⊢
    rw [List.map_append]
    exact ih.again (f e)

/-- Where the reader stands: between two rounds, in front of the next of the listed entries, or behind the
turn of one that still lies there. -/
inductive Inbox.Turn (E : Type) where
  | idle
  | listed (rest : List E)
  | holding (e : E) (rest : List E)

/-- The entries put so far and those that lie there, the entries handled in turn, how often an entry was
left in hand, and the number of rounds begun, in all and up to the latest that came to its end. -/
structure Inbox (E : Type) where
  put : List E
  lying : List E
  turn : Inbox.Turn E
  handled : List E
  cuts : Nat
  rounds : Nat
  closed : Nat

namespace Inbox

def empty : Inbox E := ⟨[],[],.idle,[],0,0,0⟩

/-- The listed entries that still lie there. -/
def Turn.rest : Turn E → List E
  | .idle => []
  | .listed rest => rest
  | .holding e rest => e :: rest

/-- One behind the turn of an entry that still lies there. -/
def Turn.held : Turn E → Nat
  | .holding _ _ => 1
  | _ => 0

/-- The entries of one writer. -/
def own [DecidableEq W] (writer : E → W) (w : W) (l : List E) : List E := l.filter (fun e => writer e = w)

section Steps
variable [LinearOrder K] (key : E → K) (round : E → Nat)

/-- Keys do not repeat, and an entry knows how many rounds had begun before it was put. -/
inductive Step : Inbox E → Inbox E → Prop where
  | put {s : Inbox E} {e : E} (hnew : ∀ e' ∈ s.put, key e' ≠ key e) (hround : round e = s.rounds) :
      Step s { s with put := s.put ++ [e], lying := s.lying ++ [e] }
  | list {s : Inbox E} (h : s.turn = .idle) :
      Step s { s with turn := .listed (Latest.ascending key s.lying), rounds := s.rounds + 1 }
  | handle {s : Inbox E} {e : E} {rest : List E} (h : s.turn = .listed (e :: rest)) :
      Step s { s with turn := .holding e rest, handled := s.handled ++ [e] }
  | remove {s : Inbox E} {e : E} {rest : List E} (h : s.turn = .holding e rest) :
      Step s { s with turn := .listed rest, lying := s.lying.filter (fun x => key x ≠ key e) }
  | close {s : Inbox E} (h : s.turn = .listed []) : Step s { s with turn := .idle, closed := s.rounds }
  | leave {s : Inbox E} {rest : List E} (h : s.turn = .listed rest) : Step s { s with turn := .idle }
  | cut {s : Inbox E} {e : E} {rest : List E} (h : s.turn = .holding e rest) :
      Step s { s with turn := .idle, cuts := s.cuts + 1 }

/-- Of what a writer has put, the first part is gone, the others lie there, and the listed ones come first
among these. What is gone has been handled in order, and the next one perhaps. -/
structure Ordered [DecidableEq W] (writer : E → W) (s : Inbox E) (w : W) (gone : List E) : Prop where
  put : own writer w s.put = gone ++ own writer w s.lying
  first : own writer w s.turn.rest <+: own writer w s.lying
  served : Repeats (own writer w s.handled) gone ∨
    ∃ e, (own writer w s.lying).head? = some e ∧ Repeats (own writer w s.handled) (gone ++ [e])
  held : ∀ e rest, s.turn = .holding e rest → writer e = w →
    Repeats (own writer w s.handled) (gone ++ [e])

structure Valid [DecidableEq W] (writer : E → W) (s : Inbox E) : Prop where
  distinct : (s.put.map key).Nodup
  kept : s.lying.Sublist s.put
  known : ∀ e ∈ s.handled, e ∈ s.put
  served : ∀ e ∈ s.put, e ∈ s.lying ∨ e ∈ s.handled
  count : s.handled.length + s.lying.length = s.put.length + s.cuts + s.turn.held
  listed : s.turn.rest ⊆ s.lying
  apart : (s.turn.rest.map key).Nodup
  current : s.turn ≠ .idle → ∀ e ∈ s.lying, e ∈ s.turn.rest ∨ s.rounds ≤ round e
  fresh : ∀ e ∈ s.lying, s.closed ≤ round e
  closed_le : s.closed ≤ s.rounds
  hand : ∀ e rest, s.turn = .holding e rest → e ∈ s.handled
  ordered : ∀ w, (own writer w s.put).Pairwise (fun a b => key a < key b) → ∃ gone, Ordered writer s w gone

end Steps

section Lists
variable [DecidableEq W] {writer : E → W} {w : W}

theorem own_append (l l' : List E) : own writer w (l ++ l') = own writer w l ++ own writer w l' :=
  List.filter_append ..

theorem own_cons_self {e : E} (h : writer e = w) (l : List E) : own writer w (e :: l) = e :: own writer w l :=
  List.filter_cons_of_pos (decide_eq_true h)

theorem own_cons_ne {e : E} (h : writer e ≠ w) (l : List E) : own writer w (e :: l) = own writer w l :=
  List.filter_cons_of_neg (by simpa using h)

variable [LinearOrder K] {key : E → K}

theorem filter_key_ne {l : List E} {k : K} (h : ∀ x ∈ l, key x ≠ k) : l.filter (fun x => key x ≠ k) = l :=
  List.filter_eq_self.mpr (fun x hx => decide_eq_true (h x hx))

/-- An entry that is taken out was there once. -/
theorem perm_filter_key {l : List E} {e : E} (hnodup : (l.map key).Nodup) (he : e ∈ l) :
    l.Perm (e :: l.filter (fun x => key x ≠ key e)) := by
  induction l with
  | nil => cases he
  | cons x l ih =>
    obtain ⟨hx,hnodup⟩ := List.nodup_cons.mp hnodup
    rcases List.mem_cons.mp he with rfl | he
    · rw [List.filter_cons_of_neg (by simp), filter_key_ne (fun y hy hkey => ?_)]
      exact hx (hkey ▸ List.mem_map_of_mem hy)
    · have hne : key x ≠ key e := fun hkey => hx (hkey ▸ List.mem_map_of_mem he)
      rw [List.filter_cons, if_pos (decide_eq_true hne)]
      exact ((ih hnodup he).cons x).trans (List.Perm.swap e x _)

end Lists

variable [DecidableEq W] [LinearOrder K] {key : E → K} {writer : E → W} {round : E → Nat} {s t : Inbox E} {w : W}

theorem valid_empty : Valid key round writer (empty : Inbox E) where
  distinct := List.nodup_nil
  kept := List.Sublist.refl _
  known _ he := absurd he List.not_mem_nil
  served _ he := absurd he List.not_mem_nil
  count := rfl
  listed := List.nil_subset _
  apart := List.nodup_nil
  current h := absurd rfl h
  fresh _ he := absurd he List.not_mem_nil
  closed_le := Nat.le_refl _
  hand _ _ h := by cases h
  ordered w _ := ⟨[],rfl,List.prefix_rfl,.inl .nil,fun _ _ h => by cases h⟩

theorem Valid.key_inj (h : Valid key round writer s) {x e : E} (hx : x ∈ s.put) (he : e ∈ s.put)
    (hkey : key x = key e) : x = e := List.inj_on_of_nodup_map h.distinct hx he hkey

theorem Valid.lying_nodup (h : Valid key round writer s) : (s.lying.map key).Nodup :=
  h.distinct.sublist (h.kept.map key)

theorem Ordered.snoc {gone : List E} (h : Ordered writer s w gone) (e : E) :
    Ordered writer { s with put := s.put ++ [e], lying := s.lying ++ [e] } w gone where
  put := by rw [own_append, own_append, h.put, List.append_assoc]
  first := by
    rw [own_append]
    exact h.first.trans (List.prefix_append ..)
  served := by
    refine h.served.imp_right ?_
    rintro ⟨e',hhead,hserved⟩
    refine ⟨e',?_,hserved⟩
    rw [own_append, List.head?_append, hhead]
    rfl
  held := h.held

theorem Valid.step_put (h : Valid key round writer s) {e : E} (hnew : ∀ e' ∈ s.put, key e' ≠ key e)
    (hround : round e = s.rounds) :
    Valid key round writer { s with put := s.put ++ [e], lying := s.lying ++ [e] } where
  distinct := by
    rw [List.map_append, List.nodup_append]
    refine ⟨h.distinct,List.nodup_singleton _,?_⟩
    rintro k hk k' hk' rfl
    obtain ⟨e',he',hkey⟩ := List.mem_map.mp hk
    exact hnew e' he' (hkey.trans (List.mem_singleton.mp hk'))
  kept := h.kept.append (List.Sublist.refl _)
  known x hx := List.mem_append_left _ (h.known x hx)
  served x hx := by
    rcases List.mem_append.mp hx with hx | hx
    · exact (h.served x hx).imp_left (List.mem_append_left _)
    · exact .inl (List.mem_append_right _ hx)
  count := by
    have hcount := h.count
    simp only [List.length_append, List.length_singleton]
    omega
  listed x hx := List.mem_append_left _ (h.listed hx)
  apart := h.apart
  current hturn x hx := by
    rcases List.mem_append.mp hx with hx | hx
    · exact h.current hturn x hx
    · exact .inr (List.mem_singleton.mp hx ▸ hround.ge)
  fresh x hx := by
    rcases List.mem_append.mp hx with hx | hx
    · exact h.fresh x hx
    · rw [List.mem_singleton.mp hx, hround]
      exact h.closed_le
  closed_le := h.closed_le
  hand := h.hand
  ordered w hgrows := by
    rw [own_append, List.pairwise_append] at hgrows
    obtain ⟨gone,hgone⟩ := h.ordered w hgrows.1
    exact ⟨gone,hgone.snoc e⟩

theorem Valid.step_list (h : Valid key round writer s) (hturn : s.turn = .idle) :
    Valid key round writer
      { s with turn := .listed (Latest.ascending key s.lying), rounds := s.rounds + 1 } := by
  have hperm : (Latest.ascending key s.lying).Perm s.lying := Latest.ascending_perm s.lying
  have hcount := h.count
  rw [hturn] at hcount
  refine { h with
    count := hcount
    listed := hperm.subset
    apart := (hperm.map key).nodup_iff.mpr h.lying_nodup
    current := fun _ x hx => .inl (hperm.mem_iff.mpr hx)
    closed_le := h.closed_le.trans (Nat.le_succ _)
    hand := fun _ _ he => by cases he
    ordered := fun w hgrows => ?_ }
  obtain ⟨gone,hgone⟩ := h.ordered w hgrows
  refine ⟨gone,hgone.put,?_,hgone.served,fun _ _ he => by cases he⟩
  have hlying : (own writer w s.lying).Pairwise (fun a b => key a < key b) :=
    hgrows.sublist (h.kept.filter _)
  have hsame : own writer w (Latest.ascending key s.lying) = own writer w s.lying :=
    Spool.filter_ascending hlying
  exact hsame ▸ List.prefix_rfl

theorem own_prefix_cons {e : E} {rest l : List E} (h : own writer w (e :: rest) <+: own writer w l)
    (hw : writer e = w) :
    ∃ tail, own writer w l = e :: tail ∧ own writer w rest <+: tail := by
  obtain ⟨more,hmore⟩ := h
  rw [own_cons_self hw, List.cons_append] at hmore
  exact ⟨own writer w rest ++ more,hmore.symm,List.prefix_append ..⟩

theorem Valid.step_handle (h : Valid key round writer s) {e : E} {rest : List E}
    (hturn : s.turn = .listed (e :: rest)) :
    Valid key round writer { s with turn := .holding e rest, handled := s.handled ++ [e] } := by
  have hcount := h.count
  have hlisted := h.listed
  have hapart := h.apart
  have hcurrent := h.current (by simp [hturn])
  rw [hturn] at hcount hlisted hapart hcurrent
  have he : e ∈ s.lying := hlisted List.mem_cons_self
  refine { h with
    known := fun x hx => ?_
    served := fun x hx => (h.served x hx).imp_right (List.mem_append_left _)
    count := ?_
    listed := hlisted
    apart := hapart
    current := fun _ => hcurrent
    hand := fun e' rest' he' => ?_
    ordered := fun w hgrows => ?_ }
  · rcases List.mem_append.mp hx with hx | hx
    · exact h.known x hx
    · rw [List.mem_singleton.mp hx]
      exact h.kept.subset he
  · rw [List.length_append, List.length_singleton]
    simp only [Turn.held] at hcount ⊢
    omega
  · cases he'
    exact List.mem_append_right _ (List.mem_singleton_self e)
  · obtain ⟨gone,hgone⟩ := h.ordered w hgrows
    have hfirst := hgone.first
    rw [hturn] at hfirst
    by_cases hw : writer e = w
    · obtain ⟨tail,hlying,_⟩ := own_prefix_cons hfirst hw
      have hserved : Repeats (own writer w (s.handled ++ [e])) (gone ++ [e]) := by
        rw [own_append, own_cons_self hw]
        rcases hgone.served with hserved | ⟨e',hhead,hserved⟩
        · exact hserved.next e
        · rw [hlying] at hhead
          cases hhead
          exact hserved.again e
      refine ⟨gone,hgone.put,hfirst,.inr ⟨e,by rw [hlying]; rfl,hserved⟩,fun e' rest' he' _ => ?_⟩
      cases he'
      exact hserved
    · have hsame : own writer w (s.handled ++ [e]) = own writer w s.handled := by
        rw [own_append, own_cons_ne hw]
        exact List.append_nil _
      refine ⟨gone,hgone.put,hfirst,hsame.symm ▸ hgone.served,fun e' rest' he' hw' => ?_⟩
      cases he'
      exact absurd hw' hw

/-- The entry that is taken away was the first of its writer. -/
theorem Ordered.remove (hvalid : Valid key round writer s) {gone : List E} (h : Ordered writer s w gone) {e : E}
    {rest : List E} (hturn : s.turn = .holding e rest) :
    ∃ gone', Ordered writer
      { s with turn := .listed rest, lying := s.lying.filter (fun x => key x ≠ key e) } w gone' := by
  have hfirst := h.first
  rw [hturn] at hfirst
  have hcomm : own writer w (s.lying.filter (fun x => key x ≠ key e)) =
      (own writer w s.lying).filter (fun x => key x ≠ key e) := List.filter_comm ..
  have he : e ∈ s.put := hvalid.known e (hvalid.hand e rest hturn)
  have hnodup : ((own writer w s.lying).map key).Nodup :=
    hvalid.lying_nodup.sublist (List.filter_sublist.map key)
  by_cases hw : writer e = w
  · obtain ⟨tail,hlying,hrest⟩ := own_prefix_cons hfirst hw
    rw [hlying, List.map_cons, List.nodup_cons] at hnodup
    have htail : own writer w (s.lying.filter (fun x => key x ≠ key e)) = tail := by
      rw [hcomm, hlying, List.filter_cons, if_neg (by simp)]
      exact filter_key_ne (fun x hx hkey => hnodup.1 (hkey ▸ List.mem_map_of_mem hx))
    refine ⟨gone ++ [e],?_,htail.symm ▸ hrest,.inl (h.held e rest hturn hw),fun _ _ he' => by cases he'⟩
    rw [htail, h.put, hlying, List.append_assoc]
    rfl
  · have hsame : own writer w (s.lying.filter (fun x => key x ≠ key e)) = own writer w s.lying := by
      rw [hcomm]
      refine filter_key_ne (fun x hx hkey => hw ?_)
      obtain ⟨hx,hwriter⟩ := List.mem_filter.mp hx
      rw [← hvalid.key_inj (hvalid.kept.subset hx) he hkey]
      exact of_decide_eq_true hwriter
    have hrest : own writer w rest <+: own writer w s.lying := own_cons_ne hw rest ▸ hfirst
    exact ⟨gone,hsame.symm ▸ h.put,hsame.symm ▸ hrest,hsame.symm ▸ h.served,fun _ _ he' => by cases he'⟩

theorem Valid.step_remove (h : Valid key round writer s) {e : E} {rest : List E}
    (hturn : s.turn = .holding e rest) :
    Valid key round writer
      { s with turn := .listed rest, lying := s.lying.filter (fun x => key x ≠ key e) } := by
  have hcount := h.count
  have hlisted := h.listed
  have hapart := h.apart
  have hcurrent := h.current (by simp [hturn])
  rw [hturn] at hcount hlisted hapart hcurrent
  have he : e ∈ s.lying := hlisted List.mem_cons_self
  obtain ⟨hnot,hapart⟩ := List.nodup_cons.mp hapart
  have hstays {x : E} (hx : x ∈ s.lying) (hkey : key x ≠ key e) :
      x ∈ s.lying.filter (fun x => key x ≠ key e) := List.mem_filter.mpr ⟨hx,decide_eq_true hkey⟩
  refine { h with
    kept := List.filter_sublist.trans h.kept
    served := fun x hx => ?_
    count := ?_
    listed := fun x hx => ?_
    apart := hapart
    current := fun _ x hx => ?_
    fresh := fun x hx => h.fresh x (List.mem_of_mem_filter hx)
    hand := fun _ _ he' => by cases he'
    ordered := fun w hgrows => ?_ }
  · rcases h.served x hx with hlies | hserved
    · by_cases hkey : key x = key e
      · exact .inr (h.key_inj hx (h.kept.subset he) hkey ▸ h.hand e rest hturn)
      · exact .inl (hstays hlies hkey)
    · exact .inr hserved
  · have hlength := (perm_filter_key h.lying_nodup he).length_eq
    rw [List.length_cons] at hlength
    simp only [Turn.held] at hcount ⊢
    omega
  · exact hstays (hlisted (List.mem_cons_of_mem e hx)) (fun hkey => hnot (hkey ▸ List.mem_map_of_mem hx))
  · obtain ⟨hx,hkey⟩ := List.mem_filter.mp hx
    refine (hcurrent x hx).imp_left (fun hmem => ?_)
    rcases List.mem_cons.mp hmem with rfl | hmem
    · exact absurd rfl (of_decide_eq_true hkey)
    · exact hmem
  · obtain ⟨gone,hgone⟩ := h.ordered w hgrows
    exact hgone.remove h hturn

/-- The reader puts down what it has listed. -/
theorem Valid.idle (h : Valid key round writer s) {cuts closed : Nat}
    (hcuts : cuts = s.cuts + s.turn.held) (hclosed : closed ≤ s.rounds)
    (hfresh : ∀ e ∈ s.lying, closed ≤ round e) :
    Valid key round writer { s with turn := .idle, cuts := cuts, closed := closed } := by
  refine { h with
    count := ?_
    listed := List.nil_subset _
    apart := List.nodup_nil
    current := fun hne => absurd rfl hne
    fresh := hfresh
    closed_le := hclosed
    hand := fun _ _ he' => by cases he'
    ordered := fun w hgrows => ?_ }
  · have hcount := h.count
    change s.handled.length + s.lying.length = s.put.length + cuts
    omega
  · obtain ⟨gone,hgone⟩ := h.ordered w hgrows
    exact ⟨gone,hgone.put,List.nil_prefix,hgone.served,fun _ _ he' => by cases he'⟩

theorem Valid.step (h : Valid key round writer s) (hstep : Step key round s t) : Valid key round writer t := by
  cases hstep with
  | put hnew hround => exact h.step_put hnew hround
  | list hturn => exact h.step_list hturn
  | handle hturn => exact h.step_handle hturn
  | remove hturn => exact h.step_remove hturn
  | close hturn =>
    refine h.idle (by rw [hturn]; rfl) (Nat.le_refl _) (fun x hx => ?_)
    have hcurrent := h.current (by simp [hturn]) x hx
    rw [hturn] at hcurrent
    exact hcurrent.resolve_left List.not_mem_nil
  | leave hturn => exact h.idle (by rw [hturn]; rfl) h.closed_le h.fresh
  | cut hturn => exact h.idle (by rw [hturn]; rfl) h.closed_le h.fresh

theorem Valid.steps (h : Valid key round writer s) (hsteps : Relation.ReflTransGen (Step key round) s t) :
    Valid key round writer t := by
  induction hsteps with
  | refl => exact h
  | tail _ hstep ih => exact ih.step hstep

/-- What was put before a round that came to its end has been handled. -/
theorem Valid.handled_of_closed (h : Valid key round writer s) {e : E} (he : e ∈ s.put)
    (hround : round e < s.closed) : e ∈ s.handled := by
  refine (h.served e he).resolve_left (fun hlies => ?_)
  have := h.fresh e hlies
  omega

/-- The keys of what is gone, and that of the entry in hand, are all handled. -/
theorem Valid.gone (h : Valid key round writer s) :
    ∃ gone : List K, gone.Nodup ∧ gone ⊆ s.handled.map key ∧
      gone.length + s.lying.length = s.put.length + s.turn.held := by
  let left : List K := (s.put.map key).filter (fun k => k ∉ s.lying.map key)
  have hleft : left ⊆ s.handled.map key := by
    intro k hk
    obtain ⟨hk,hnot⟩ := List.mem_filter.mp hk
    obtain ⟨e,he,rfl⟩ := List.mem_map.mp hk
    refine List.mem_map_of_mem ((h.served e he).resolve_left (fun hlies => ?_))
    exact of_decide_eq_true hnot (List.mem_map_of_mem hlies)
  have hlength : left.length + s.lying.length = s.put.length := by
    have hlies : ((s.put.map key).filter (fun k => k ∈ s.lying.map key)).Perm (s.lying.map key) := by
      rw [List.perm_ext_iff_of_nodup (h.distinct.filter _) h.lying_nodup]
      intro k
      rw [List.mem_filter, decide_eq_true_iff]
      exact and_iff_right_of_imp (fun hk => (h.kept.map key).subset hk)
    have hsplit := List.length_eq_length_filter_add (l := s.put.map key)
      (fun k => decide (k ∈ s.lying.map key))
    have hleft : left = (s.put.map key).filter (fun k => !decide (k ∈ s.lying.map key)) :=
      List.filter_congr (fun k _ => decide_not)
    rw [hlies.length_eq, ← hleft, List.length_map, List.length_map] at hsplit
    omega
  cases hturn : s.turn with
  | idle | listed => exact ⟨left,h.distinct.filter _,hleft,by simpa [Turn.held] using hlength⟩
  | holding e rest =>
    have he : e ∈ s.lying := h.listed (by rw [hturn]; exact List.mem_cons_self)
    refine ⟨key e :: left,List.nodup_cons.mpr ⟨fun hk => ?_,h.distinct.filter _⟩,?_,?_⟩
    · exact of_decide_eq_true (List.mem_filter.mp hk).2 (List.mem_map_of_mem he)
    · exact List.cons_subset.mpr ⟨List.mem_map_of_mem (h.hand e rest hturn),hleft⟩
    · rw [List.length_cons]
      simp only [Turn.held]
      omega

/-- An entry is handled once, and once more for each time that one was left in hand. -/
theorem Valid.count_le (h : Valid key round writer s) (k : K) :
    (s.handled.map key).count k ≤ 1 + s.cuts := by
  obtain ⟨gone,hnodup,hgone,hlength⟩ := h.gone
  obtain ⟨l,hperm,hsub⟩ := List.subperm_of_subset hnodup hgone
  have hcount := hsub.le_countP (· == k)
  have hone : l.countP (· == k) ≤ 1 := by
    rw [hperm.countP_eq]
    exact List.nodup_iff_count_le_one.mp hnodup k
  have hall := h.count
  have hl := hperm.length_eq
  rw [List.length_map] at hcount
  rw [List.count]
  omega

/-- The entries of a writer whose keys grow are handled in the order they were put, each once or several
times in a row, and none is left out. -/
theorem Valid.in_order (h : Valid key round writer s)
    (hgrows : (own writer w s.put).Pairwise (fun a b => key a < key b)) :
    ∃ served, Repeats (own writer w s.handled) served ∧ served <+: own writer w s.put := by
  obtain ⟨gone,hgone⟩ := h.ordered w hgrows
  rcases hgone.served with hserved | ⟨e,hhead,hserved⟩
  · exact ⟨gone,hserved,hgone.put ▸ List.prefix_append ..⟩
  · obtain ⟨tail,htail⟩ := List.head?_eq_some_iff.mp hhead
    refine ⟨gone ++ [e],hserved,tail,?_⟩
    rw [hgone.put, htail, List.append_assoc]
    rfl

end Inbox
end NanoClaw
