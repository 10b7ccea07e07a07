import NanoClaw.Agent.Framing
import NanoClaw.Library.JsonLayout
import Mathlib.Data.Bool.AllAny

/-! The text of a frame around an end marker that a payload holds: every occurrence lies
inside a string of the JSON text, and what is cut off there reads as no payload. -/
namespace NanoClaw.Framing
open Json Cut PyText

/-- A character of the markers. None of them is ever part of a JSON escape. -/
def MarkerChar (c : Char) : Prop := c = '-' ∨ c = '_' ∨ 'A' ≤ c ∧ c ≤ 'Z'

instance (c : Char) : Decidable (MarkerChar c) := by
  unfold MarkerChar
  infer_instance

structure Marker (m : List Char) : Prop where
  chars : ∀ c ∈ m, MarkerChar c
  dash : '-' ∈ m

theorem marker_start : Marker outputStartMarker :=
  ⟨List.all_iff_forall_prop.mp (by decide),by decide⟩

theorem marker_end : Marker outputEndMarker :=
  ⟨List.all_iff_forall_prop.mp (by decide),by decide⟩

theorem Marker.ne_nil {m : List Char} (h : Marker m) : m ≠ [] := List.ne_nil_of_mem h.dash

theorem Marker.foreign {m : List Char} (h : Marker m) {c : Char} (hc : ¬MarkerChar c) : c ∉ m :=
  fun hm => hc (h.chars c hm)

/-- No marker stands in a text without dashes. -/
theorem Marker.cut_none {m a : List Char} (h : Marker m) (ha : '-' ∉ a) : cut m a = none :=
  cut_eq_none_iff.mpr (fun hm => ha (hm.subset h.dash))

theorem MarkerChar.plain {c : Char} (h : MarkerChar c) : isPlain c = true := by
  rcases h with rfl | rfl | ⟨hlow,hhigh⟩
  · decide
  · decide
  · have hlow : 65 ≤ c.toNat := hlow
    have hhigh : c.toNat ≤ 90 := hhigh
    simp only [isPlain, Bool.and_eq_true, decide_eq_true_eq, bne_iff_ne]
    refine ⟨⟨⟨by omega,by omega⟩,?_⟩,?_⟩
    · rintro rfl
      revert hhigh
      decide
    · rintro rfl
      revert hlow
      decide

theorem escapeChar_plain {c : Char} (h : isPlain c = true) : escapeChar c = [c] := if_pos h

private theorem escapeUnit_chars {n : Nat} {c : Char} (h : c ∈ escapeUnit n) :
    ¬MarkerChar c ∧ isSpace c = false := by
  have hhex : ∀ n, n < 16 → ¬MarkerChar (hexDigit n) ∧ isSpace (hexDigit n) = false := by decide
  simp only [escapeUnit, List.mem_cons, List.not_mem_nil, or_false] at h
  rcases h with rfl | rfl | rfl | rfl | rfl | rfl
  · decide
  · decide
  all_goals exact hhex _ (Nat.mod_lt _ (by decide))

/-- An escape has no character of a marker, and none that is stripped. -/
theorem escapeChar_chars {d c : Char} (hd : isPlain d = false) (h : c ∈ escapeChar d) :
    ¬MarkerChar c ∧ isSpace c = false := by
  unfold escapeChar at h
  rw [hd, if_neg Bool.false_ne_true] at h
  split at h
  all_goals first
    | (simp only [List.mem_cons, List.not_mem_nil, or_false] at h
       rcases h with rfl | rfl <;> decide)
    | skip
  obtain ⟨n,_,hn⟩ := List.mem_flatMap.mp h
  exact escapeUnit_chars hn

theorem escapeChar_slash {c : Char} (h : isPlain c = false) : ∃ cs, escapeChar c = '\\' :: cs := by
  have hunits : ∀ l : List Nat, l ≠ [] → ∃ cs, l.flatMap escapeUnit = '\\' :: cs := by
    intro l hl
    obtain ⟨n,l',rfl⟩ := List.exists_cons_of_ne_nil hl
    exact ⟨_,rfl⟩
  have hne : unitsOf c ≠ [] := by
    unfold unitsOf
    split <;> exact List.cons_ne_nil _ _
  unfold escapeChar
  rw [h, if_neg Bool.false_ne_true]
  split
  all_goals first
    | exact hunits _ hne
    | exact ⟨_,rfl⟩

theorem escapeChar_ne_nil (c : Char) : escapeChar c ≠ [] := by
  cases h : isPlain c with
  | true => simp [escapeChar_plain h]
  | false =>
    obtain ⟨cs,hcs⟩ := escapeChar_slash h
    simp [hcs]

theorem escape_append (s t : List Char) : escape (s ++ t) = escape s ++ escape t :=
  List.flatMap_append

theorem escape_cons (c : Char) (s : List Char) : escape (c :: s) = escapeChar c ++ escape s := rfl

theorem Marker.escape_eq {m : List Char} (h : ∀ c ∈ m, MarkerChar c) : escape m = m := by
  induction m with
  | nil => rfl
  | cons c cs ih =>
    rw [escape_cons, escapeChar_plain (h c (List.mem_cons_self ..)).plain,
      ih (fun d hd => h d (List.mem_cons_of_mem _ hd)), List.singleton_append]

private theorem escape_begins {m : List Char} (h : ∀ c ∈ m, MarkerChar c) {s w : List Char}
    (he : escape s = m ++ w) : ∃ s', s = m ++ s' ∧ w = escape s' := by
  induction m generalizing s with
  | nil => exact ⟨s,rfl,he.symm⟩
  | cons c cs ih =>
    cases s with
    | nil => cases he
    | cons d ds =>
      rw [escape_cons] at he
      by_cases hd : isPlain d = true
      · rw [escapeChar_plain hd, List.singleton_append, List.cons_append] at he
        obtain ⟨rfl,htail⟩ := List.cons.inj he
        obtain ⟨s',rfl,hw⟩ := ih (fun x hx => h x (List.mem_cons_of_mem _ hx)) htail
        exact ⟨s',rfl,hw⟩
      · obtain ⟨e,es,hes⟩ := List.exists_cons_of_ne_nil (escapeChar_ne_nil d)
        rw [hes, List.cons_append, List.cons_append] at he
        obtain ⟨rfl,_⟩ := List.cons.inj he
        have hmem : e ∈ escapeChar d := by simp [hes]
        exact absurd (h e (List.mem_cons_self ..))
          (escapeChar_chars (Bool.not_eq_true _ ▸ hd) hmem).1

/-- An occurrence of a marker in an escaped text is one in the text itself. -/
theorem Marker.escape_split {m : List Char} (h : Marker m) {s u w : List Char}
    (he : escape s = u ++ (m ++ w)) :
    ∃ s₁ s₂, s = s₁ ++ (m ++ s₂) ∧ u = escape s₁ ∧ w = escape s₂ := by
  induction s generalizing u with
  | nil =>
    have hnil : u ++ (m ++ w) = [] := he.symm
    rw [List.append_eq_nil_iff, List.append_eq_nil_iff] at hnil
    exact absurd hnil.2.1 h.ne_nil
  | cons d ds ih =>
    cases u with
    | nil =>
      obtain ⟨s',hs,hw⟩ := escape_begins h.chars he
      exact ⟨[],s',hs,rfl,hw⟩
    | cons x u =>
      have hskip : ∀ u', x :: u = escapeChar d ++ u' → escape ds = u' ++ (m ++ w) →
          ∃ s₁ s₂, d :: ds = s₁ ++ (m ++ s₂) ∧ x :: u = escape s₁ ∧ w = escape s₂ := by
        intro u' hu hds
        obtain ⟨s₁,s₂,rfl,rfl,hw⟩ := ih hds
        exact ⟨d :: s₁,s₂,rfl,hu,hw⟩
      rw [escape_cons] at he
      rcases List.append_eq_append_iff.mp he with ⟨u',hu,hds⟩ | ⟨t,ht,hrest⟩
      · exact hskip u' hu hds
      · cases t with
        | nil => exact hskip [] (by rw [ht, List.append_nil, List.append_nil]) hrest.symm
        | cons y t =>
          obtain ⟨c,cs,rfl⟩ := List.exists_cons_of_ne_nil h.ne_nil
          obtain ⟨rfl,_⟩ := List.cons.inj hrest
          have hc : MarkerChar c := h.chars c (List.mem_cons_self ..)
          by_cases hd : isPlain d = true
          · rw [escapeChar_plain hd] at ht
            have := congrArg List.length ht
            simp at this
          · have hmem : c ∈ escapeChar d := by simp [ht]
            exact absurd hc (escapeChar_chars (Bool.not_eq_true _ ▸ hd) hmem).1

/-- A key of letters. -/
def PlainKey (k : String) : Prop := k.toList ≠ [] ∧ ∀ c ∈ k.toList, c.isAlpha = true

/-- A field of a payload: a key of letters, and a text or `None`. -/
def PlainField (p : String × Json) : Prop := PlainKey p.1 ∧ Flat p.2

theorem alpha_plain {c : Char} (h : c.isAlpha = true) :
    isPlain c = true ∧ c ≠ '-' ∧ c ≠ ':' ∧ isWs c = false := by
  have hc : (65 ≤ c.toNat ∧ c.toNat ≤ 90) ∨ (97 ≤ c.toNat ∧ c.toNat ≤ 122) := by
    have hranges : (decide (c.val ≥ 'A'.val ∧ c.val ≤ 'Z'.val) ||
        (decide (c.val ≥ 'a'.val) && decide (c.val ≤ 'z'.val))) = true := h
    simp only [Bool.or_eq_true, Bool.and_eq_true, decide_eq_true_eq] at hranges
    exact hranges
  have hne : ∀ d : Char, ¬((65 ≤ d.toNat ∧ d.toNat ≤ 90) ∨ (97 ≤ d.toNat ∧ d.toNat ≤ 122)) → c ≠ d :=
    fun d hd hcd => hd (hcd ▸ hc)
  refine ⟨?_,hne _ (by decide),hne _ (by decide),?_⟩
  · simp only [isPlain, Bool.and_eq_true, decide_eq_true_eq, bne_iff_ne]
    exact ⟨⟨⟨by omega,by omega⟩,hne _ (by decide)⟩,hne _ (by decide)⟩
  · simp only [isWs, Bool.or_eq_false_iff, beq_eq_false_iff_ne]
    exact ⟨⟨⟨hne _ (by decide),hne _ (by decide)⟩,hne _ (by decide)⟩,hne _ (by decide)⟩

theorem PlainKey.escape_eq {k : String} (h : PlainKey k) : escape k.toList = k.toList := by
  have hall : ∀ s : List Char, (∀ c ∈ s, c.isAlpha = true) → escape s = s := by
    intro s hs
    induction s with
    | nil => rfl
    | cons c cs ih =>
      rw [escape_cons, escapeChar_plain (alpha_plain (hs c (List.mem_cons_self ..))).1,
        ih (fun d hd => hs d (List.mem_cons_of_mem _ hd)), List.singleton_append]
  exact hall _ h.2

/-- The fields of an object up to the key of a further one. -/
def opening : List (String × Json) → List Char
  | [] => []
  | (k, v) :: fields => quote k ++ ':' :: ' ' :: (dumps v ++ ',' :: ' ' :: opening fields)

/-- The rest of an object's text behind a value. -/
def closing (fields : List (String × Json)) : List Char := dumpsMoreFields fields ++ ['}']

theorem closing_cons (k : String) (v : Json) (fields : List (String × Json)) :
    closing ((k,v) :: fields) =
      ',' :: ' ' :: (quote k ++ ':' :: ' ' :: (dumps v ++ closing fields)) := by
  simp only [closing, dumpsMoreFields, List.cons_append, List.append_assoc]

theorem closing_head (fields : List (String × Json)) :
    ∃ c t, closing fields = c :: t ∧ (c = '}' ∨ c = ',') := by
  cases fields with
  | nil => exact ⟨'}',[],rfl,Or.inl rfl⟩
  | cons p fields =>
    obtain ⟨k,v⟩ := p
    exact ⟨',',_,closing_cons k v fields,Or.inr rfl⟩

theorem Marker.foreign_closing {m : List Char} (h : Marker m) {c : Char} (hc : c = '}' ∨ c = ',') :
    c ∉ m := by
  rcases hc with rfl | rfl <;> exact h.foreign (by decide)

private theorem quote_dash {k : String} (h : PlainKey k) : '-' ∉ quote k := by
  rw [quote, h.escape_eq]
  simp only [List.cons_append, List.mem_cons, List.mem_append, List.not_mem_nil, or_false, not_or]
  exact ⟨by decide,fun hm => (alpha_plain (h.2 _ hm)).2.1 rfl,by decide⟩

theorem cut_closing {m : List Char} (hm : Marker m) {fields : List (String × Json)}
    {u w : List Char} (hc : cut m (closing fields) = some (u,w)) :
    ∃ k v rest u', fields = (k,v) :: rest ∧ u = ',' :: ' ' :: u' ∧
      cut m (quote k ++ ':' :: ' ' :: (dumps v ++ closing rest)) = some (u',w) := by
  have hcons : ∀ (c : Char) (b : List Char), ¬MarkerChar c →
      cut m (c :: b) = (cut m b).map (fun p => (c :: p.1,p.2)) :=
    fun c b h => cut_skip hm.ne_nil (hm.foreign h) (hm.cut_none List.not_mem_nil) b
  cases fields with
  | nil =>
    rw [closing, dumpsMoreFields, List.nil_append, hm.cut_none (by decide)] at hc
    cases hc
  | cons p fields =>
    obtain ⟨k,v⟩ := p
    rw [closing_cons, hcons ',' _ (by decide), hcons ' ' _ (by decide), Option.map_map] at hc
    obtain ⟨⟨u',w'⟩,hcut,hpair⟩ := Option.map_eq_some_iff.mp hc
    cases hpair
    exact ⟨k,v,fields,u',rfl,rfl,hcut⟩

private theorem cut_before_closing {m a : List Char} (hm : Marker m) (ha : '-' ∉ a)
    (fields : List (String × Json)) :
    cut m (a ++ closing fields) = (cut m (closing fields)).map (fun p => (a ++ p.1,p.2)) := by
  obtain ⟨c,t,ht,hc⟩ := closing_head fields
  have hforeign := hm.foreign_closing hc
  have hnone := hm.cut_none List.not_mem_nil
  rw [ht, cut_skip hm.ne_nil hforeign (hm.cut_none ha) t, ← List.nil_append (c :: t),
    cut_skip hm.ne_nil hforeign hnone t, Option.map_map]
  rfl

/-- The end marker in an object's text stands inside one of its texts. -/
theorem Marker.cut_fields {m : List Char} (hm : Marker m) (fields : List (String × Json))
    (k : String) (v : Json) (h : ∀ p ∈ (k,v) :: fields, PlainField p) {u w : List Char}
    (hc : cut m (quote k ++ ':' :: ' ' :: (dumps v ++ closing fields)) = some (u,w)) :
    ∃ done k' s₁ s₂ rest, (k,v) :: fields = done ++ (k',str (String.ofList (s₁ ++ (m ++ s₂)))) :: rest ∧
      u = opening done ++ (quote k' ++ ':' :: ' ' :: '"' :: escape s₁) ∧
      w = escape s₂ ++ '"' :: closing rest := by
  obtain ⟨hk,hv⟩ := h (k,v) (List.mem_cons_self ..)
  -- the marker is in a later field
  have hlater : ∀ u', cut m (closing fields) = some (u',w) →
      u = quote k ++ ':' :: ' ' :: (dumps v ++ u') →
      ∃ done k' s₁ s₂ rest, (k,v) :: fields =
          done ++ (k',str (String.ofList (s₁ ++ (m ++ s₂)))) :: rest ∧
        u = opening done ++ (quote k' ++ ':' :: ' ' :: '"' :: escape s₁) ∧
        w = escape s₂ ++ '"' :: closing rest := by
    intro u' hcut hu
    obtain ⟨k₂,v₂,rest₂,u₂,rfl,rfl,hnext⟩ := cut_closing hm hcut
    obtain ⟨done,k',s₁,s₂,rest,hfields,rfl,hw⟩ :=
      Marker.cut_fields hm rest₂ k₂ v₂ (fun q hq => h q (List.mem_cons_of_mem _ hq)) hnext
    refine ⟨(k,v) :: done,k',s₁,s₂,rest,?_,?_,hw⟩
    · rw [hfields, List.cons_append]
    · rw [hu]
      simp only [opening, List.append_assoc, List.cons_append]
  rcases hv with rfl | ⟨s,rfl⟩
  · have hdash : '-' ∉ quote k ++ ':' :: ' ' :: dumps null := by
      rw [List.mem_append, not_or]
      exact ⟨quote_dash hk,by decide⟩
    have hsplit : quote k ++ ':' :: ' ' :: (dumps null ++ closing fields) =
        (quote k ++ ':' :: ' ' :: dumps null) ++ closing fields := by
      simp only [List.append_assoc, List.cons_append]
    rw [hsplit, cut_before_closing hm hdash] at hc
    obtain ⟨⟨u',w'⟩,hcut,hpair⟩ := Option.map_eq_some_iff.mp hc
    cases hpair
    exact hlater u' hcut (by simp only [List.append_assoc, List.cons_append])
  · have hdash : '-' ∉ quote k ++ [':',' '] := by
      rw [List.mem_append, not_or]
      exact ⟨quote_dash hk,by decide⟩
    have hsplit : quote k ++ ':' :: ' ' :: (dumps (str s) ++ closing fields) =
        (quote k ++ [':',' ']) ++ '"' :: (escape s.toList ++ '"' :: closing fields) := by
      simp only [dumps, quote, List.append_assoc, List.cons_append, List.nil_append]
    have hquote : '"' ∉ m := hm.foreign (by decide)
    rw [hsplit, cut_skip hm.ne_nil hquote (hm.cut_none hdash)] at hc
    obtain ⟨⟨u',w'⟩,hcut,hpair⟩ := Option.map_eq_some_iff.mp hc
    cases hpair
    rw [cut_append_cons hm.ne_nil hquote] at hcut
    split at hcut
    · rename_i u₁ w₁ hin
      cases hcut
      obtain ⟨s₁,s₂,hs,rfl,rfl⟩ := hm.escape_split ((cut_eq_some hin).trans (List.append_assoc ..))
      refine ⟨[],k,s₁,s₂,fields,?_,?_,rfl⟩
      · rw [← hs, String.ofList_toList, List.nil_append]
      · simp only [opening, List.append_assoc, List.cons_append, List.nil_append]
    · obtain ⟨⟨u₂,w₂⟩,hcut₂,hpair₂⟩ := Option.map_eq_some_iff.mp hcut
      cases hpair₂
      refine hlater u₂ hcut₂ ?_
      simp only [dumps, quote, List.append_assoc, List.cons_append, List.nil_append]

end NanoClaw.Framing
