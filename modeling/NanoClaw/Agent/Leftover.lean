import NanoClaw.Agent.FrameText

/-! What the host reads from the pieces an end marker inside a payload leaves: a frame cut
off inside a text is no JSON, and text from inside one on is at most an empty object. -/
namespace NanoClaw.Framing
open Json Cut PyText

theorem scanUnits_open (s : List Char) : scanUnits (escape s) = .error .jsonDecodeError := by
  have hpush : ∀ l : List Nat, l.foldr push (.error .jsonDecodeError) = .error .jsonDecodeError := by
    intro l
    induction l with
    | nil => rfl
    | cons n l ih => rw [List.foldr_cons, ih, push]
  induction s with
  | nil => rfl
  | cons c cs ih => rw [escape_cons, scanUnits_escapeChar, ih, hpush]

/-- Stripping an escaped text on the right takes whole characters off. -/
theorem rstrip_escape (s : List Char) : ∃ t, rstripBy isSpace (escape s) = escape t := by
  induction s using List.reverseRecOn with
  | nil => exact ⟨[],rfl⟩
  | append_singleton s c ih =>
    rw [escape_append, escape_cons]
    cases hc : isPlain c with
    | true =>
      rw [escapeChar_plain hc]
      by_cases hs : isSpace c = true
      · obtain ⟨t,ht⟩ := ih
        refine ⟨t,?_⟩
        rw [← ht]
        exact List.rdropWhile_concat_pos _ _ _ hs
      · refine ⟨s ++ [c],?_⟩
        rw [escape_append, escape_cons, escapeChar_plain hc]
        exact List.rdropWhile_concat_neg _ _ _ hs
    | false =>
      refine ⟨s ++ [c],?_⟩
      rw [escape_append, escape_cons]
      refine List.rdropWhile_eq_self_iff.mpr (fun hne hspace => ?_)
      have hne' : escapeChar c ++ escape [] ≠ [] := by simp [escape, escapeChar_ne_nil]
      have hmem : (escape s ++ (escapeChar c ++ escape [])).getLast hne ∈ escapeChar c := by
        rw [List.getLast_append_of_ne_nil hne hne']
        simp [escape]
      rw [(escapeChar_chars hc hmem).2] at hspace
      cases hspace

/-- An object whose text ends inside a string is refused. -/
theorem scanFields_open (floatRepr : List Char → String) (depth : Nat)
    {done : List (String × Json)} (h : ∀ p ∈ done, Flat p.2) (k : String) (s : List Char)
    (fuel : Nat) (acc : List (String × Json)) :
    scanFields (scanValue floatRepr depth) fuel acc
      (opening done ++ (quote k ++ ':' :: ' ' :: '"' :: escape s)) = .error .jsonDecodeError := by
  induction done generalizing fuel acc with
  | nil =>
    cases fuel with
    | zero => rfl
    | succ fuel =>
      have hcolon : skipWs (':' :: ' ' :: '"' :: escape s) = ':' :: ' ' :: '"' :: escape s := rfl
      have hspace : skipWs (' ' :: '"' :: escape s) = '"' :: escape s := rfl
      simp only [opening, quote, List.cons_append, List.append_assoc, List.nil_append, scanFields,
        scanUnits_escape, hcolon, hspace, scanValue, scanUnits_open]
  | cons p done ih =>
    obtain ⟨k',v⟩ := p
    cases fuel with
    | zero => rfl
    | succ fuel =>
      have hmore : ∀ t, skipWs (',' :: ' ' :: t) = ',' :: ' ' :: t := fun _ => rfl
      have hspace : skipWs (' ' :: (opening done ++ (quote k ++ ':' :: ' ' :: '"' :: escape s))) =
          opening done ++ (quote k ++ ':' :: ' ' :: '"' :: escape s) := by
        cases done <;> rfl
      simp only [opening, List.append_assoc, List.cons_append]
      rw [scanFields_field floatRepr depth fuel acc k' (h _ (List.mem_cons_self ..)), hmore]
      simp only [hspace]
      exact ih (fun q hq => h q (List.mem_cons_of_mem _ hq)) fuel _

theorem loads_open (host : Host) {done : List (String × Json)}
    (h : ∀ p ∈ done, Flat p.2) (k : String) (s : List Char) :
    loads host.toInterp ('{' :: (opening done ++ (quote k ++ ':' :: ' ' :: '"' :: escape s))) =
      .error .jsonDecodeError := by
  obtain ⟨depth,hd⟩ := Nat.exists_eq_succ_of_ne_zero (Nat.ne_of_gt host.room)
  have hskip : ∀ t, skipWs ('{' :: t) = '{' :: t := fun _ => rfl
  have hquote : ∃ t, opening done ++ (quote k ++ ':' :: ' ' :: '"' :: escape s) = '"' :: t := by
    cases done <;> exact ⟨_,rfl⟩
  have hscan := fun fuel => scanFields_open host.floatRepr depth h k s fuel []
  obtain ⟨t,ht⟩ := hquote
  rw [ht] at hscan ⊢
  have hvalue : scanValue host.floatRepr host.depth ('{' :: '"' :: t) = .error .jsonDecodeError := by
    rw [hd]
    exact hscan (t.length + 2)
  rw [loads, if_neg (by simp), hskip, hvalue]

theorem scanItems_arr {value : List Char → Scan Json} {fuel : Nat} {items : List Json}
    {text rest : List Char} {v : Json} (h : scanItems value fuel items text = .ok (v,rest)) :
    ∃ vs, v = arr vs := by
  induction fuel generalizing items text with
  | zero => cases h
  | succ fuel ih =>
    rw [scanItems] at h
    split at h
    · cases h
    · split at h
      · cases h
        exact ⟨_,rfl⟩
      · exact ih h
      · cases h

theorem scanNumber_ne_obj {floatRepr : List Char → String} {sign : Bool} {body rest : List Char}
    {fields : List (String × Json)} : scanNumber floatRepr sign body ≠ .ok (obj fields,rest) := by
  intro h
  simp only [scanNumber] at h
  split at h
  · cases h
  · split at h
    · split at h <;> cases h
    · cases h

/-- Only a text that starts with a brace is read as an object. -/
theorem scanValue_obj {floatRepr : List Char → String} {depth : Nat} {text rest : List Char}
    {fields : List (String × Json)} (h : scanValue floatRepr depth text = .ok (obj fields,rest)) :
    ∃ d t, text = '{' :: t ∧ scanObject (scanValue floatRepr d) t = .ok (obj fields,rest) := by
  unfold scanValue at h
  split at h
  · split at h
    · rename_i units _ _
      unfold ofCodes at h
      split at h <;> cases h
    · cases h
  · split at h
    · cases h
    · exact ⟨_,_,rfl,h⟩
  · split at h
    · cases h
    · unfold scanArray at h
      split at h
      · cases h
      · obtain ⟨vs,hvs⟩ := scanItems_arr h
        cases hvs
  all_goals first
    | cases h
    | exact absurd h scanNumber_ne_obj

/-- An object that is not empty starts with a key and a colon. -/
theorem scanObject_cons {value : List Char → Scan Json} {text rest : List Char}
    {p : String × Json} {fields : List (String × Json)}
    (h : scanObject value text = .ok (obj (p :: fields),rest)) :
    ∃ z units r r', skipWs text = '"' :: z ∧ scanUnits z = .ok (units,r) ∧ skipWs r = ':' :: r' := by
  unfold scanObject at h
  split at h
  · cases h
  · generalize skipWs text = t at h
    unfold scanFields at h
    split at h
    · cases h
    · split at h
      · cases h
      · rename_i heq
        split at h
        · rename_i hcolon
          exact ⟨_,_,_,_,rfl,heq,hcolon⟩
        · cases h
    · cases h

theorem loads_cons {interp : Interp} {text : List Char} {p : String × Json}
    {fields : List (String × Json)} (h : loads interp text = .ok (obj (p :: fields))) :
    ∃ pre z units r r', text = pre ++ '"' :: z ∧ (∀ c ∈ pre, c = '{' ∨ isWs c = true) ∧
      scanUnits z = .ok (units,r) ∧ skipWs r = ':' :: r' := by
  unfold loads at h
  split at h
  · cases h
  · split at h
    · cases h
    · rename_i v rest hv
      split at h
      · cases h
        obtain ⟨d,t,ht,hobj⟩ := scanValue_obj hv
        obtain ⟨z,units,r,r',hz,hunits,hr⟩ := scanObject_cons hobj
        refine ⟨text.takeWhile isWs ++ '{' :: t.takeWhile isWs,z,units,r,r',?_,?_,hunits,hr⟩
        · have htext := List.takeWhile_append_dropWhile (p := isWs) (l := text)
          have htail := List.takeWhile_append_dropWhile (p := isWs) (l := t)
          rw [skipWs] at ht hz
          rw [ht] at htext
          rw [hz] at htail
          rw [List.append_assoc, List.cons_append, htail, htext]
        · intro c hc
          rcases List.mem_append.mp hc with hc | hc
          · exact Or.inr (List.mem_takeWhile_imp hc)
          · rcases List.mem_cons.mp hc with rfl | hc
            · exact Or.inl rfl
            · exact Or.inr (List.mem_takeWhile_imp hc)
      · cases h

/-- The text of a frame from inside one of its strings on. -/
def Inside (w : List Char) : Prop :=
  ∃ s fields, (∀ p ∈ fields, PlainField p) ∧ w = escape s ++ '"' :: closing fields

theorem Inside.marker {m w : List Char} (hm : Marker m) (h : Inside w) : Inside (m ++ w) := by
  obtain ⟨s,fields,hf,rfl⟩ := h
  refine ⟨m ++ s,fields,hf,?_⟩
  rw [escape_append, Marker.escape_eq hm.chars, List.append_assoc]

theorem Inside.cut {m v u w : List Char} (hm : Marker m) (h : Inside v)
    (hc : cut m v = some (u,w)) : Inside w := by
  obtain ⟨s,fields,hf,rfl⟩ := h
  rw [cut_append_cons hm.ne_nil (hm.foreign (by decide))] at hc
  split at hc
  · rename_i u₁ w₁ hin
    cases hc
    obtain ⟨s₁,s₂,_,_,rfl⟩ := hm.escape_split ((cut_eq_some hin).trans (List.append_assoc ..))
    exact ⟨s₂,fields,hf,rfl⟩
  · obtain ⟨⟨u',w'⟩,hcut,hpair⟩ := Option.map_eq_some_iff.mp hc
    cases hpair
    obtain ⟨k,v,rest,u₂,rfl,rfl,hnext⟩ := cut_closing hm hcut
    obtain ⟨done,k',s₁,s₂,rest',hfields,_,rfl⟩ := hm.cut_fields rest k v hf hnext
    refine ⟨s₂,rest',fun p hp => hf p ?_,rfl⟩
    rw [hfields]
    exact List.mem_append_right _ (List.mem_cons_of_mem _ hp)

/-- The first quote that no backslash precedes is the one that ends the string. -/
private theorem quote_after {x z s t : List Char} (hx : ∀ c ∈ x, c ≠ '\\' ∧ c ≠ '"')
    (h : x ++ '"' :: z <+: escape s ++ '"' :: t) : z <+: t := by
  induction s generalizing x with
  | nil =>
    cases x with
    | nil => exact (List.cons_prefix_cons.mp h).2
    | cons c cs => exact absurd (List.cons_prefix_cons.mp h).1 (hx c (List.mem_cons_self ..)).2
  | cons d ds ih =>
    rw [escape_cons, List.append_assoc] at h
    by_cases hd : isPlain d = true
    · rw [escapeChar_plain hd, List.singleton_append] at h
      cases x with
      | nil =>
        obtain ⟨rfl,_⟩ := List.cons_prefix_cons.mp h
        exact absurd hd (by decide)
      | cons c cs =>
        exact ih (fun e he => hx e (List.mem_cons_of_mem _ he)) (List.cons_prefix_cons.mp h).2
    · obtain ⟨es,hes⟩ := escapeChar_slash (Bool.not_eq_true _ ▸ hd)
      rw [hes, List.cons_append] at h
      cases x with
      | nil => exact absurd (List.cons_prefix_cons.mp h).1 (by decide)
      | cons c cs => exact absurd (List.cons_prefix_cons.mp h).1 (hx c (List.mem_cons_self ..)).1

/-- Behind the quote that ends a string there is no key with its colon. -/
private theorem no_key {fields : List (String × Json)} (hf : ∀ p ∈ fields, PlainField p)
    {z r r' : List Char} {units : List Nat} (hz : z <+: closing fields ++ ['\n'])
    (hunits : scanUnits z = .ok (units,r)) : skipWs r ≠ ':' :: r' := by
  cases fields with
  | nil =>
    rcases List.prefix_cons_iff.mp hz with rfl | ⟨z₁,rfl,hz₁⟩
    · cases hunits
    · rcases List.prefix_cons_iff.mp hz₁ with rfl | ⟨z₂,rfl,_⟩ <;> cases hunits
  | cons p fields =>
    obtain ⟨k,v⟩ := p
    obtain ⟨⟨hne,halpha⟩,_⟩ := hf (k,v) (List.mem_cons_self ..)
    have hk : escape k.toList = k.toList := PlainKey.escape_eq ⟨hne,halpha⟩
    rw [closing_cons, quote, hk] at hz
    rcases List.prefix_cons_iff.mp hz with rfl | ⟨z₁,rfl,hz₁⟩
    · cases hunits
    rcases List.prefix_cons_iff.mp hz₁ with rfl | ⟨z₂,rfl,hz₂⟩
    · cases hunits
    rcases List.prefix_cons_iff.mp hz₂ with rfl | ⟨z₃,rfl,hz₃⟩
    · cases hunits
    cases hunits
    intro hr
    obtain ⟨c,cs,hc⟩ := List.exists_cons_of_ne_nil hne
    have hplain := alpha_plain (halpha c (by simp [hc]))
    rw [hc] at hz₃
    rcases List.prefix_cons_iff.mp hz₃ with rfl | ⟨z₄,rfl,_⟩
    · cases hr
    · rw [skipWs, List.dropWhile_cons_of_neg (by simp [hplain.2.2.2])] at hr
      exact hplain.2.2.1 (List.cons.inj hr).1

/-- Text from inside a string on is read as no object but the empty one. -/
theorem Inside.loads {interp : Interp} {w raw : List Char} (h : Inside w)
    (hraw : raw <+: w ++ ['\n']) {fields : List (String × Json)}
    (hl : Json.loads interp (strip raw) = .ok (obj fields)) : fields = [] := by
  cases fields with
  | nil => rfl
  | cons p fields =>
    obtain ⟨s,rest,hf,rfl⟩ := h
    obtain ⟨pre,z,units,r,r',hstrip,hpre,hunits,hr⟩ := loads_cons hl
    obtain ⟨a,b,hab,ha,_⟩ := strip_spec raw
    have hsplit : (a ++ pre) ++ '"' :: z <+: escape s ++ '"' :: (closing rest ++ ['\n']) := by
      have hleft : (a ++ pre) ++ '"' :: z <+: raw := by
        rw [List.append_assoc, ← hstrip]
        conv_rhs => rw [hab, ← List.append_assoc]
        exact List.prefix_append _ _
      exact hleft.trans (by simpa using hraw)
    have hclean : ∀ c ∈ a ++ pre, c ≠ '\\' ∧ c ≠ '"' := by
      have hno : ∀ c, isSpace c = true → c ≠ '\\' ∧ c ≠ '"' := by
        intro c hc
        constructor <;> (rintro rfl; revert hc; decide)
      intro c hc
      rcases List.mem_append.mp hc with hc | hc
      · exact hno c (ha c hc)
      · rcases hpre c hc with rfl | hc
        · decide
        · constructor <;> (rintro rfl; revert hc; decide)
    exact absurd hr (no_key hf (quote_after hclean hsplit) hunits)

end NanoClaw.Framing
