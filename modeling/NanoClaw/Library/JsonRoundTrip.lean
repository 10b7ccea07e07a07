import NanoClaw.Library.Json

/-! Reading back what `dumps` wrote: string literals, and the objects of texts a payload is made of. -/
namespace NanoClaw.Json

theorem hexValue_hexDigit : ∀ n, n < 16 → hexValue? (hexDigit n) = some n := by decide

theorem hex4_digits {n : Nat} (h : n < 65536) :
    hex4? (hexDigit (n / 4096 % 16)) (hexDigit (n / 256 % 16)) (hexDigit (n / 16 % 16))
      (hexDigit (n % 16)) = some n := by
  simp only [hex4?, hexValue_hexDigit _ (Nat.mod_lt _ (by decide : 0 < 16)), Option.some.injEq]
  omega

theorem scanUnits_escapeUnit {n : Nat} (h : n < 65536) (rest : List Char) :
    scanUnits (escapeUnit n ++ rest) = push n (scanUnits rest) := by
  simp only [escapeUnit, List.cons_append, List.nil_append, scanUnits, hex4_digits h]

private theorem toNat_cases (c : Char) :
    c.toNat < 0xd800 ∨ 0xdfff < c.toNat ∧ c.toNat < 0x110000 := c.valid

theorem unitsOf_small {c : Char} (h : c.toNat < 0x10000) : unitsOf c = [c.toNat] := if_pos h

theorem unitsOf_large {c : Char} (h : ¬c.toNat < 0x10000) :
    unitsOf c = [0xd800 + (c.toNat - 0x10000) / 0x400,0xdc00 + (c.toNat - 0x10000) % 0x400] :=
  if_neg h

theorem unitsOf_lt {c : Char} {n : Nat} (h : n ∈ unitsOf c) : n < 65536 := by
  have hc := toNat_cases c
  by_cases hlt : c.toNat < 0x10000
  · rw [unitsOf_small hlt, List.mem_singleton] at h
    omega
  · rw [unitsOf_large hlt] at h
    simp only [List.mem_cons, List.not_mem_nil, or_false] at h
    rcases h with h | h <;> omega

theorem unitsOf_plain {c : Char} (h : isPlain c = true) : unitsOf c = [c.toNat] := by
  simp only [isPlain, Bool.and_eq_true, decide_eq_true_eq] at h
  exact unitsOf_small (by omega)

theorem scanUnits_plain {c : Char} (h : isPlain c = true) (rest : List Char) :
    scanUnits (c :: rest) = push c.toNat (scanUnits rest) := by
  simp only [isPlain, Bool.and_eq_true, decide_eq_true_eq, bne_iff_ne] at h
  obtain ⟨⟨⟨hlow,_⟩,hslash⟩,hquote⟩ := h
  rw [scanUnits, if_neg]
  · simp only [hslash, false_or]
    omega
  · exact hquote
  · rintro a b c d ds rfl
    exact absurd rfl hslash
  · rintro e es rfl
    exact absurd rfl hslash

private theorem scanUnits_units {l : List Nat} (h : ∀ n ∈ l, n < 65536) (rest : List Char) :
    scanUnits (l.flatMap escapeUnit ++ rest) = l.foldr push (scanUnits rest) := by
  induction l with
  | nil => rfl
  | cons n l ih =>
    rw [List.flatMap_cons, List.append_assoc, scanUnits_escapeUnit (h n (List.mem_cons_self ..)),
      ih (fun m hm => h m (List.mem_cons_of_mem _ hm)), List.foldr_cons]

/-- An escaped character is read back as its code units. -/
theorem scanUnits_escapeChar (c : Char) (rest : List Char) :
    scanUnits (escapeChar c ++ rest) = (unitsOf c).foldr push (scanUnits rest) := by
  unfold escapeChar
  split
  · rename_i hc
    rw [unitsOf_plain hc]
    exact scanUnits_plain hc rest
  · split
    all_goals first
      | exact scanUnits_units (fun n hn => unitsOf_lt hn) rest
      | rfl

theorem foldr_push (l ns : List Nat) (rest : List Char) :
    l.foldr push (.ok (ns,rest)) = .ok (l ++ ns,rest) := by
  induction l with
  | nil => rfl
  | cons n l ih => rw [List.foldr_cons, ih, push, List.cons_append]

theorem scanUnits_escape (s rest : List Char) :
    scanUnits (escape s ++ '"' :: rest) = .ok (s.flatMap unitsOf,rest) := by
  induction s with
  | nil => rfl
  | cons c cs ih =>
    rw [escape, List.flatMap_cons, List.append_assoc, scanUnits_escapeChar, ← escape, ih, foldr_push,
      List.flatMap_cons]

theorem joinSurrogates_cons {n : Nat} {l : List Nat}
    (h : ∀ m ∈ l.head?, ¬((0xd800 ≤ n ∧ n ≤ 0xdbff) ∧ 0xdc00 ≤ m ∧ m ≤ 0xdfff)) :
    joinSurrogates (n :: l) = n :: joinSurrogates l := by
  cases l with
  | nil => rfl
  | cons m l =>
    have hm := h m rfl
    rw [joinSurrogates, if_neg (by omega)]

/-- The units of a character are joined into its code point. -/
theorem joinSurrogates_unitsOf (c : Char) (l : List Nat) :
    joinSurrogates (unitsOf c ++ l) = c.toNat :: joinSurrogates l := by
  have hc := toNat_cases c
  by_cases hlt : c.toNat < 0x10000
  · rw [unitsOf_small hlt]
    exact joinSurrogates_cons (fun m _ hm => by omega)
  · rw [unitsOf_large hlt, List.cons_append, List.cons_append, List.nil_append, joinSurrogates,
      if_pos (by omega)]
    have hjoin : 0x10000 + (0xd800 + (c.toNat - 0x10000) / 0x400 - 0xd800) * 0x400 +
        (0xdc00 + (c.toNat - 0x10000) % 0x400 - 0xdc00) = c.toNat := by omega
    rw [hjoin]

theorem joinSurrogates_units (s : List Char) :
    joinSurrogates (s.flatMap unitsOf) = s.map Char.toNat := by
  induction s with
  | nil => rfl
  | cons c cs ih => rw [List.flatMap_cons, List.map_cons, joinSurrogates_unitsOf, ih]

private theorem toNat_valid (s : List Char) :
    ∀ n ∈ s.map Char.toNat, n < 0xd800 ∨ 0xdfff < n := by
  intro n hn
  obtain ⟨c,_,rfl⟩ := List.mem_map.mp hn
  exact c.valid.imp id And.left

private theorem map_ofNat_toNat (s : List Char) : (s.map Char.toNat).map Char.ofNat = s := by
  simp [Function.comp_def, Char.ofNat_toNat]

theorem ofCodes_toNat (s : String) : ofCodes (s.toList.map Char.toNat) = str s := by
  rw [ofCodes, if_pos, map_ofNat_toNat, String.ofList_toList]
  simpa using fun c hc => toNat_valid s.toList _ (List.mem_map_of_mem hc)

theorem keyOfCodes_toNat (s : String) : keyOfCodes (s.toList.map Char.toNat) = s := by
  have hmap : (s.toList.map Char.toNat).map
      (fun n => if n < 0xd800 ∨ 0xdfff < n then Char.ofNat n else '\uFFFD') = s.toList := by
    rw [← map_ofNat_toNat s.toList]
    rw [map_ofNat_toNat s.toList]
    exact (List.map_congr_left (fun n hn => if_pos (toNat_valid _ n hn))).trans
      (map_ofNat_toNat s.toList)
  rw [keyOfCodes, hmap, String.ofList_toList]

/-- A value that is a text or `None`. -/
def Flat (v : Json) : Prop := v = null ∨ ∃ s, v = str s

section Reading
variable (floatRepr : List Char → String) (depth : Nat)

theorem scanValue_dumps {v : Json} (h : Flat v) (rest : List Char) :
    scanValue floatRepr depth (dumps v ++ rest) = .ok (v,rest) := by
  rcases h with rfl | ⟨s,rfl⟩
  · simp only [dumps, List.cons_append, List.nil_append, scanValue]
  · simp only [dumps, quote, List.cons_append, List.append_assoc, List.nil_append, scanValue,
      scanUnits_escape, joinSurrogates_units, ofCodes_toNat]

private theorem skipWs_dumps {v : Json} (h : Flat v) (rest : List Char) :
    skipWs (' ' :: (dumps v ++ rest)) = dumps v ++ rest := by
  rcases h with rfl | ⟨s,rfl⟩ <;> rfl

/-- One field of an object, read up to what follows its value. -/
theorem scanFields_field (fuel : Nat) (acc : List (String × Json)) (k : String) {v : Json}
    (h : Flat v) (t : List Char) :
    scanFields (scanValue floatRepr depth) (fuel + 1) acc (quote k ++ ':' :: ' ' :: (dumps v ++ t)) =
      match skipWs t with
      | '}' :: rest => .ok (obj (Dict.insert k v acc),rest)
      | ',' :: rest =>
        scanFields (scanValue floatRepr depth) fuel (Dict.insert k v acc) (skipWs rest)
      | _ => .error .jsonDecodeError := by
  have hcolon : skipWs (':' :: ' ' :: (dumps v ++ t)) = ':' :: ' ' :: (dumps v ++ t) := rfl
  have hscan := scanFields.eq_2 (scanValue floatRepr depth) acc fuel
    (escape k.toList ++ '"' :: ':' :: ' ' :: (dumps v ++ t))
  simp only [scanUnits_escape, hcolon, skipWs_dumps h, scanValue_dumps floatRepr depth h,
    joinSurrogates_units, keyOfCodes_toNat] at hscan
  simp only [quote, List.cons_append, List.append_assoc, List.nil_append]
  exact hscan

end Reading

/-- Values that are read back from their text: at most `depth` containers deep, with distinct
keys, and with numbers the interpreter prints. -/
inductive Readable : Nat → Json → Prop where
  | null {depth : Nat} : Readable depth null
  | bool {depth : Nat} (b : Bool) : Readable depth (bool b)
  | int {depth : Nat} {n : Int} (h : printable n = true) : Readable depth (int n)
  | str {depth : Nat} (s : String) : Readable depth (str s)
  | arr {depth : Nat} {items : List Json} (h : ∀ v ∈ items, Readable depth v) :
      Readable (depth + 1) (arr items)
  | obj {depth : Nat} {fields : List (String × Json)} (h : ∀ p ∈ fields, Readable depth p.2)
      (hnodup : (fields.map Prod.fst).Nodup) : Readable (depth + 1) (obj fields)

/-- An object of texts and `None`s with distinct keys. -/
structure FlatObject (fields : List (String × Json)) : Prop where
  flat : ∀ p ∈ fields, Flat p.2
  nodup : (fields.map Prod.fst).Nodup

end NanoClaw.Json
