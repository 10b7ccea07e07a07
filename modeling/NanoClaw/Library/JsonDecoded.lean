import NanoClaw.Library.JsonLiterals

/-! The values that `loads` returns, how deep they nest and how their texts begin. -/
namespace NanoClaw.Json

/-- The `repr` of a float: a literal that has this `repr`, or one of three words. -/
def FloatText (floatRepr : List Char → String) (r : String) : Prop :=
  r = "nan" ∨ r = "inf" ∨ r = "-inf" ∨ FloatLiteral r.toList ∧ floatRepr r.toList = r

/-- The `repr` of a float reads as the same float. -/
def ReprLaw (floatRepr : List Char → String) : Prop :=
  ∀ literal, FloatLiteral literal → FloatText floatRepr (floatRepr literal)

inductive Decoded (floatRepr : List Char → String) : Json → Prop where
  | null : Decoded floatRepr null
  | bool (b : Bool) : Decoded floatRepr (bool b)
  | int {n : Int} (h : printable n = true) : Decoded floatRepr (int n)
  | float {r : String} (h : FloatText floatRepr r) : Decoded floatRepr (float r)
  | str (s : String) : Decoded floatRepr (str s)
  | illFormed {codes : List Nat} (h : Codes codes)
      (hlone : ¬(codes.all (fun n => n < 0xd800 || 0xdfff < n) = true)) :
      Decoded floatRepr (illFormed codes)
  | arr {items : List Json} (h : ∀ v ∈ items, Decoded floatRepr v) : Decoded floatRepr (arr items)
  | obj {fields : List (String × Json)} (h : ∀ p ∈ fields, Decoded floatRepr p.2)
      (hnodup : (fields.map Prod.fst).Nodup) : Decoded floatRepr (obj fields)

mutual

/-- How deep containers nest. -/
def nesting : Json → Nat
  | arr items => nestingItems items + 1
  | obj fields => nestingFields fields + 1
  | _ => 0

def nestingItems : List Json → Nat
  | [] => 0
  | v :: vs => max (nesting v) (nestingItems vs)

def nestingFields : List (String × Json) → Nat
  | [] => 0
  | (_, v) :: fields => max (nesting v) (nestingFields fields)

end

theorem nestingItems_le_iff {items : List Json} {depth : Nat} :
    nestingItems items ≤ depth ↔ ∀ v ∈ items, nesting v ≤ depth := by
  induction items with
  | nil => simp [nestingItems]
  | cons v items ih => simp [nestingItems, ih]

theorem nestingFields_le_iff {fields : List (String × Json)} {depth : Nat} :
    nestingFields fields ≤ depth ↔ ∀ p ∈ fields, nesting p.2 ≤ depth := by
  induction fields with
  | nil => simp [nestingFields]
  | cons p fields ih =>
    obtain ⟨k,v⟩ := p
    rw [nestingFields, max_le_iff, ih, List.forall_mem_cons]

/-- A text of code points is a value, with or without a lone surrogate. -/
theorem Decoded.text {floatRepr : List Char → String} {codes : List Nat} (h : Codes codes) :
    Decoded floatRepr (ofCodes codes) := by
  rw [ofCodes]
  split_ifs with hall
  · exact .str _
  · exact .illFormed h hall

/-- The beginning of a value's text: no white space, and no bracket that closes. -/
def Opens (text : List Char) : Prop :=
  ∃ c t, text = c :: t ∧ isWs c = false ∧ c ≠ ']' ∧ c ≠ '\uFEFF'

theorem opens_digit {c : Char} (h : isDigit c = true) (t : List Char) : Opens (c :: t) := by
  refine ⟨c,t,rfl,?_,?_,?_⟩
  · by_contra hws
    simp only [isWs, Bool.not_eq_false, Bool.or_eq_true, beq_iff_eq] at hws
    rcases hws with ((rfl | rfl) | rfl) | rfl <;> cases h
  · rintro rfl
    cases h
  · rintro rfl
    cases h

theorem opens_toDigits (n : Nat) : Opens (Nat.toDigits 10 n) := by
  obtain ⟨c,t,hd,hc⟩ := (digits_toDigits n).head
  rw [hd]
  exact opens_digit hc t

theorem IntPart.head {ds : List Char} (h : IntPart ds) : ∃ c t, ds = c :: t ∧ isDigit c = true := by
  cases h with
  | zero => exact ⟨_,_,rfl,rfl⟩
  | digits h hhead => exact h.head

theorem FloatBody.head {body : List Char} (h : FloatBody body) :
    ∃ c t, body = c :: t ∧ isDigit c = true := by
  obtain ⟨hds,_,_,_⟩ := h
  obtain ⟨c,t,rfl,hc⟩ := hds.head
  exact ⟨c,_,by rw [List.append_assoc, List.cons_append],hc⟩

theorem FloatLiteral.opens {literal : List Char} (h : FloatLiteral literal) : Opens literal := by
  obtain ⟨sign,body,hbody,rfl⟩ := h
  obtain ⟨c,t,rfl,hc⟩ := hbody.head
  cases sign with
  | false => exact opens_digit hc t
  | true => exact ⟨'-',c :: t,rfl,by decide,by decide,by decide⟩

/-- A literal is none of the words for the floats that have no literal. -/
theorem dumps_literal {r : String} (h : FloatLiteral r.toList) : dumps (float r) = r.toList := by
  have hword : ∀ {word : String}, r = word →
      (word = "nan" ∨ word = "inf" ∨ word = "-inf") → False := by
    rintro _ rfl hword
    obtain ⟨sign,body,hbody,hr⟩ := h
    obtain ⟨c,t,rfl,hc⟩ := hbody.head
    rcases hword with rfl | rfl | rfl <;> cases sign <;> cases hr <;> cases hc
  rw [dumps, if_neg (fun he => hword he (by simp)), if_neg (fun he => hword he (by simp)),
    if_neg (fun he => hword he (by simp))]

section Reading
variable {floatRepr : List Char → String}

/-- The text of a value begins with no white space and with no bracket that closes. -/
theorem Decoded.opens {v : Json} (h : Decoded floatRepr v) : Opens (dumps v) := by
  cases h with
  | null => exact ⟨_,_,rfl,by decide,by decide,by decide⟩
  | bool b => cases b <;> exact ⟨_,_,rfl,by decide,by decide,by decide⟩
  | @int n hn =>
    cases n with
    | ofNat m =>
      rw [dumps_ofNat]
      exact opens_toDigits m
    | negSucc m => exact ⟨'-',_,dumps_negSucc m,by decide,by decide,by decide⟩
  | float h =>
    rcases h with rfl | rfl | rfl | ⟨h,_⟩
    · exact ⟨_,_,rfl,by decide,by decide,by decide⟩
    · exact ⟨_,_,rfl,by decide,by decide,by decide⟩
    · exact ⟨_,_,rfl,by decide,by decide,by decide⟩
    · rw [dumps_literal h]
      exact h.opens
  | str s => exact ⟨'"',_,rfl,by decide,by decide,by decide⟩
  | illFormed h hlone => exact ⟨'"',_,rfl,by decide,by decide,by decide⟩
  | arr h => exact ⟨'[',_,rfl,by decide,by decide,by decide⟩
  | obj h hnodup => exact ⟨'{',_,rfl,by decide,by decide,by decide⟩

theorem Decoded.skipWs {v : Json} (h : Decoded floatRepr v) (rest : List Char) :
    skipWs (dumps v ++ rest) = dumps v ++ rest := by
  obtain ⟨c,text,hd,hws,_⟩ := h.opens
  rw [hd, List.cons_append, Json.skipWs, List.dropWhile_cons, hws]
  rfl

end Reading

section Values
variable {floatRepr : List Char → String}

theorem scanValue_float {r : String} (h : FloatText floatRepr r) (depth : Nat) {rest : List Char}
    (hrest : Ends rest) :
    scanValue floatRepr depth (dumps (float r) ++ rest) = .ok (float r,rest) := by
  rcases h with rfl | rfl | rfl | ⟨h,hr⟩
  · cases depth <;> rfl
  · cases depth <;> rfl
  · cases depth <;> rfl
  · rw [dumps_literal h]
    obtain ⟨sign,body,hbody,hliteral⟩ := h
    have hscan := scanNumber_body floatRepr sign hbody hrest
    rw [← hliteral, hr] at hscan
    rw [hliteral]
    obtain ⟨c,t,rfl,hc⟩ := hbody.head
    cases sign with
    | false => exact (scanValue_digit floatRepr depth hc).trans hscan
    | true => exact (scanValue_minus floatRepr depth hc).trans hscan

theorem scanValue_illFormed {codes : List Nat} (h : Codes codes)
    (hlone : ¬(codes.all (fun n => n < 0xd800 || 0xdfff < n) = true)) (depth : Nat)
    (rest : List Char) :
    scanValue floatRepr depth (dumps (illFormed codes) ++ rest) = .ok (illFormed codes,rest) := by
  rw [dumps_illFormed]
  simp only [List.cons_append, List.append_assoc, List.nil_append, scanValue, scanUnits_codes h.lt,
    joinSurrogates_codes h, ofCodes, if_neg hlone]

end Values

end NanoClaw.Json
