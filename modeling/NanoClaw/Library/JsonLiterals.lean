import NanoClaw.Library.JsonRoundTrip
import Mathlib.Data.List.Chain

/-! The literals of JSON as a grammar: numbers with a fraction or an exponent, and texts whose code
points may be surrogates. What the scanner accepts is in the grammar, and what is in the grammar is
read as a whole. -/
namespace NanoClaw.Json

def Digits (l : List Char) : Prop := l ≠ [] ∧ ∀ c ∈ l, isDigit c = true

/-- The digits before the point. -/
inductive IntPart : List Char → Prop where
  | zero : IntPart ['0']
  | digits {l : List Char} (h : Digits l) (hhead : l.head? ≠ some '0') : IntPart l

inductive Fraction : List Char → Prop where
  | none : Fraction []
  | digits {l : List Char} (h : Digits l) : Fraction ('.' :: l)

inductive Exponent : List Char → Prop where
  | none : Exponent []
  | plain {e : Char} {l : List Char} (he : e = 'e' ∨ e = 'E') (h : Digits l) : Exponent (e :: l)
  | signed {e s : Char} {l : List Char} (he : e = 'e' ∨ e = 'E') (hs : s = '+' ∨ s = '-')
      (h : Digits l) : Exponent (e :: s :: l)

/-- A number that is read as a float, after its sign. -/
inductive FloatBody : List Char → Prop where
  | mk {ds frac exp : List Char} (hds : IntPart ds) (hfrac : Fraction frac) (hexp : Exponent exp)
      (h : ¬(frac = [] ∧ exp = [])) : FloatBody (ds ++ frac ++ exp)

def signText (sign : Bool) : List Char := if sign then ['-'] else []

/-- A number that is read as a float. -/
def FloatLiteral (literal : List Char) : Prop :=
  ∃ sign body, FloatBody body ∧ literal = signText sign ++ body

/-- What stands behind a value: no character that a number could go on with. -/
def Ends (rest : List Char) : Prop :=
  ∀ c, rest.head? = some c → isDigit c = false ∧ c ≠ '.' ∧ c ≠ 'e' ∧ c ≠ 'E'

/-- What stands behind digits: no further digit. -/
def NoDigit (rest : List Char) : Prop := ∀ c, rest.head? = some c → isDigit c = false

theorem ends_nil : Ends [] := by
  intro c hc
  cases hc

theorem Ends.cons {c : Char} (h : isDigit c = false ∧ c ≠ '.' ∧ c ≠ 'e' ∧ c ≠ 'E')
    (rest : List Char) : Ends (c :: rest) := by
  rintro d ⟨⟩
  exact h

theorem Ends.noDigit {rest : List Char} (h : Ends rest) : NoDigit rest := fun c hc => (h c hc).1

theorem Ends.notPoint {rest : List Char} (h : Ends rest) : rest.head? ≠ some '.' :=
  fun hc => (h '.' hc).2.1 rfl

theorem Digits.takeWhile {l rest : List Char} (h : Digits l) (hrest : NoDigit rest) :
    (l ++ rest).takeWhile isDigit = l := by
  rw [List.takeWhile_append_of_pos h.2]
  cases rest with
  | nil => simp
  | cons c rest => simp [hrest c rfl]

theorem Digits.head {l : List Char} (h : Digits l) : ∃ c t, l = c :: t ∧ isDigit c = true := by
  obtain ⟨c,t,rfl⟩ := List.exists_cons_of_ne_nil h.1
  exact ⟨c,t,rfl,h.2 c List.mem_cons_self⟩

theorem digits_takeWhile {s : List Char} (h : s.takeWhile isDigit ≠ []) :
    Digits (s.takeWhile isDigit) := ⟨h,List.all_eq_true.mp List.all_takeWhile⟩

section Scanning

theorem IntPart.scan {ds : List Char} (h : IntPart ds) {rest : List Char} (hrest : NoDigit rest) :
    intPart (ds ++ rest) = ds := by
  cases h with
  | zero => rfl
  | digits h hhead =>
    obtain ⟨c,t,rfl,_⟩ := h.head
    rw [intPart]
    · exact h.takeWhile hrest
    · rintro t' ht
      exact hhead (congrArg some (List.cons.inj ht).1)

theorem Fraction.scan {frac : List Char} (h : Fraction frac) {rest : List Char}
    (hrest : NoDigit rest) (hpoint : rest.head? ≠ some '.') : fraction (frac ++ rest) = frac := by
  cases h with
  | none =>
    rw [List.nil_append, fraction]
    rintro t rfl
    exact hpoint rfl
  | digits h => rw [List.cons_append, fraction, h.takeWhile hrest, if_neg h.1]

theorem Exponent.scan {exp : List Char} (h : Exponent exp) {rest : List Char} (hrest : Ends rest) :
    exponent (exp ++ rest) = exp := by
  cases h with
  | none =>
    cases rest with
    | nil => rfl
    | cons c rest =>
      obtain ⟨_,_,he,hE⟩ := hrest c rfl
      simp [exponent, he, hE]
  | plain he h =>
    obtain ⟨c,t,rfl,hc⟩ := h.head
    have hsign : ¬(c = '+' ∨ c = '-') := by
      rintro (rfl | rfl) <;> cases hc
    have hdigits := h.takeWhile hrest.noDigit
    rw [List.cons_append] at hdigits
    rw [List.cons_append, List.cons_append, exponent, if_pos he]
    simp only [if_neg hsign, hdigits, if_neg h.1]
  | signed he hs h =>
    rw [List.cons_append, List.cons_append, exponent, if_pos he]
    simp only [if_pos hs, h.takeWhile hrest.noDigit, if_neg h.1]

theorem Exponent.stops {exp : List Char} (h : Exponent exp) {rest : List Char} (hrest : Ends rest) :
    NoDigit (exp ++ rest) ∧ (exp ++ rest).head? ≠ some '.' := by
  have hletter : ∀ {e : Char} (t : List Char), e = 'e' ∨ e = 'E' →
      NoDigit (e :: t) ∧ (e :: t).head? ≠ some '.' := by
    rintro e t (rfl | rfl) <;> exact ⟨by rintro c ⟨⟩; rfl,by simp⟩
  cases h with
  | none => exact ⟨hrest.noDigit,hrest.notPoint⟩
  | plain he h => exact hletter _ he
  | signed he hs h => exact hletter _ he

theorem Fraction.stops {frac : List Char} (h : Fraction frac) {rest : List Char}
    (hrest : NoDigit rest) : NoDigit (frac ++ rest) := by
  cases h with
  | none => exact hrest
  | digits h =>
    rintro c ⟨⟩
    rfl

end Scanning

section Integers

theorem isDigit_toDigits (n : Nat) : ∀ c ∈ Nat.toDigits 10 n, isDigit c = true := by
  intro c hc
  have hdigit := Nat.isDigit_of_mem_toDigits (by decide) (by decide) hc
  simp only [Char.isDigit, Bool.and_eq_true, decide_eq_true_eq] at hdigit
  simp only [isDigit, Bool.and_eq_true, decide_eq_true_eq]
  exact hdigit

/-- A number is written without a leading zero. -/
theorem head_toDigits {n : Nat} (h : 0 < n) : (Nat.toDigits 10 n).head? ≠ some '0' := by
  have hdigits : ∀ m < 10, 0 < m → m.digitChar ≠ '0' := by decide
  induction n using Nat.base_induction 10 (by decide) with
  | single m hm =>
    rw [Nat.toDigits_of_lt_base hm]
    simpa using hdigits m hm h
  | digit m k hk hm ih =>
    rw [← Nat.toDigits_append_toDigits (by decide) hm hk]
    have hne : Nat.toDigits 10 m ≠ [] := Nat.toDigits_ne_nil
    rw [List.head?_append_of_ne_nil _ hne]
    exact ih hm

theorem digits_toDigits (n : Nat) : Digits (Nat.toDigits 10 n) :=
  ⟨Nat.toDigits_ne_nil,isDigit_toDigits n⟩

theorem intPart_toDigits (n : Nat) : IntPart (Nat.toDigits 10 n) := by
  rcases Nat.eq_zero_or_pos n with rfl | hn
  · exact .zero
  · exact .digits (digits_toDigits n) (head_toDigits hn)

theorem scanNumber_toDigits (floatRepr : List Char → String) (sign : Bool) {n : Nat}
    (h : (Nat.toDigits 10 n).length ≤ 4300) {rest : List Char} (hrest : Ends rest) :
    scanNumber floatRepr sign (Nat.toDigits 10 n ++ rest) =
      .ok (int (if sign then -Int.ofNat n else Int.ofNat n),rest) := by
  have hvalue : natOfDigits (Nat.toDigits 10 n) = n := Nat.ofDigitChars_ten_toDigits
  have hint := (intPart_toDigits n).scan hrest.noDigit
  have hfraction : fraction rest = [] := Fraction.none.scan hrest.noDigit (hrest.notPoint)
  have hexponent : exponent rest = [] := Exponent.none.scan hrest
  have hlen : ¬4300 < (Nat.toDigits 10 n).length := by omega
  simp only [scanNumber, hint, List.drop_left, hfraction, hexponent, List.drop_zero, List.length_nil,
    if_neg (digits_toDigits n).1, hlen, hvalue, and_self, if_true, if_false]

/-- A text that begins with a digit is a number. -/
theorem scanValue_digit (floatRepr : List Char → String) (depth : Nat) {c : Char} {text : List Char}
    (h : isDigit c = true) : scanValue floatRepr depth (c :: text) =
      scanNumber floatRepr false (c :: text) := by
  rw [scanValue]
  all_goals
    intro tail htail
    rw [(List.cons.inj htail).1] at h
    cases h

/-- A minus sign before a digit begins a number. -/
theorem scanValue_minus (floatRepr : List Char → String) (depth : Nat) {c : Char} {text : List Char}
    (h : isDigit c = true) : scanValue floatRepr depth ('-' :: c :: text) =
      scanNumber floatRepr true (c :: text) := by
  rw [scanValue]
  intro tail htail
  rw [(List.cons.inj htail).1] at h
  cases h

theorem dumps_ofNat (n : Nat) : dumps (int (Int.ofNat n)) = Nat.toDigits 10 n := by
  simp [dumps, Int.repr]

theorem dumps_negSucc (n : Nat) : dumps (int (Int.negSucc n)) = '-' :: Nat.toDigits 10 (n + 1) := by
  simp [dumps, Int.repr]

theorem scanValue_int (floatRepr : List Char → String) (depth : Nat) {n : Int}
    (h : printable n = true) {rest : List Char} (hrest : Ends rest) :
    scanValue floatRepr depth (dumps (int n) ++ rest) = .ok (int n,rest) := by
  cases n with
  | ofNat m =>
    have hlen : (Nat.toDigits 10 m).length ≤ 4300 := of_decide_eq_true h
    have hscan := scanNumber_toDigits floatRepr false hlen hrest
    obtain ⟨c,t,hd,hc⟩ := (digits_toDigits m).head
    rw [hd] at hscan
    rw [dumps_ofNat, hd, List.cons_append, scanValue_digit floatRepr depth hc]
    exact hscan
  | negSucc m =>
    have hlen : (Nat.toDigits 10 (m + 1)).length ≤ 4300 := of_decide_eq_true h
    have hscan := scanNumber_toDigits floatRepr true hlen hrest
    obtain ⟨c,t,hd,hc⟩ := (digits_toDigits (m + 1)).head
    rw [hd] at hscan
    rw [dumps_negSucc, hd, List.cons_append, List.cons_append, scanValue_minus floatRepr depth hc]
    exact hscan

end Integers

section Floats
variable (floatRepr : List Char → String) (sign : Bool)

/-- A float literal is read as a whole. -/
theorem scanNumber_body {body : List Char} (h : FloatBody body) {rest : List Char}
    (hrest : Ends rest) : scanNumber floatRepr sign (body ++ rest) =
      .ok (float (floatRepr (signText sign ++ body)),rest) := by
  obtain ⟨hds,hfrac,hexp,h⟩ := h
  rename_i ds frac exp
  obtain ⟨hstop,hpoint⟩ := hexp.stops hrest
  have hint : intPart (ds ++ (frac ++ (exp ++ rest))) = ds := hds.scan (hfrac.stops hstop)
  have hfraction : fraction (frac ++ (exp ++ rest)) = frac := hfrac.scan hstop hpoint
  have hexponent : exponent (exp ++ rest) = exp := hexp.scan hrest
  have hne : ds ≠ [] := by
    cases hds with
    | zero => simp
    | digits h hhead => exact h.1
  simp only [scanNumber, List.append_assoc, hint, List.drop_left, hfraction, hexponent, if_neg hne,
    if_neg h, signText]

theorem intPart_grammar {body : List Char} (h : intPart body ≠ []) : IntPart (intPart body) := by
  unfold intPart at h ⊢
  split at h
  · exact .zero
  · rename_i hzero
    refine .digits (digits_takeWhile h) ?_
    cases body with
    | nil => exact absurd rfl h
    | cons c t =>
      rw [List.takeWhile_cons]
      split
      · rintro ⟨⟩
        exact hzero t rfl
      · simp

theorem fraction_grammar (s : List Char) : Fraction (fraction s) := by
  unfold fraction
  split
  · split_ifs with h
    · exact .none
    · exact .digits (digits_takeWhile h)
  · exact .none

theorem exponent_grammar (s : List Char) : Exponent (exponent s) := by
  unfold exponent
  split
  · rename_i e rest
    by_cases he : e = 'e' ∨ e = 'E'
    · rw [if_pos he]
      split
      · rename_i c t
        by_cases hs : c = '+' ∨ c = '-'
        · rw [if_pos hs]
          split_ifs with h
          · exact .none
          · exact .signed he hs (digits_takeWhile h)
        · rw [if_neg hs]
          split_ifs with h
          · exact .none
          · exact .plain he (digits_takeWhile h)
      · exact .none
    · rw [if_neg he]
      exact .none
  · exact .none

/-- Digits up to the limit denote a number that is printed with no more of them. -/
theorem length_natOfDigits {ds : List Char} (hds : ∀ c ∈ ds, isDigit c = true) {limit : Nat}
    (hlimit : 0 < limit) (h : ds.length ≤ limit) :
    (Nat.toDigits 10 (natOfDigits ds)).length ≤ limit := by
  have hlt : natOfDigits ds < 10 ^ ds.length := by
    clear h
    induction ds using List.reverseRecOn with
    | nil => decide
    | append_singleton ds c ih =>
      have hc : c.toNat - 48 < 10 := by
        have hdigit := hds c (by simp)
        simp only [isDigit, Bool.and_eq_true, decide_eq_true_eq] at hdigit
        have hnine : c.toNat ≤ 57 := hdigit.2
        omega
      have hds' := ih (fun d hd => hds d (by simp [hd]))
      rw [natOfDigits, List.foldl_append, ← natOfDigits, List.length_append, List.length_singleton,
        Nat.pow_succ]
      simp only [List.foldl_cons, List.foldl_nil]
      omega
  rw [Nat.length_toDigits_le_iff (by decide) hlimit]
  exact hlt.trans_le (Nat.pow_le_pow_right (by decide) h)

/-- What the scanner reads as a number: an integer that can be printed, or a float literal. -/
theorem scanNumber_cases {body rest : List Char} {v : Json}
    (h : scanNumber floatRepr sign body = .ok (v,rest)) :
    (∃ n, v = int n ∧ printable n = true) ∨
      ∃ literal, FloatLiteral literal ∧ v = float (floatRepr literal) := by
  simp only [scanNumber] at h
  by_cases hds : intPart body = []
  · rw [if_pos hds] at h
    cases h
  rw [if_neg hds] at h
  have hint := intPart_grammar hds
  split at h
  · split at h
    · cases h
    · rename_i hlen
      cases h
      have hdigits : ∀ c ∈ intPart body, isDigit c = true := by
        generalize intPart body = ds at hint
        cases hint with
        | zero => exact List.all_eq_true.mp rfl
        | digits h hhead => exact h.2
      have hprint := length_natOfDigits hdigits (by decide) (not_lt.mp hlen)
      refine Or.inl ⟨_,rfl,?_⟩
      rw [printable, decide_eq_true_eq]
      split
      · simpa using hprint
      · simpa using hprint
  · rename_i hfloat
    cases h
    refine Or.inr ⟨_,⟨sign,_,.mk hint (fraction_grammar _) (exponent_grammar _) hfloat,?_⟩,rfl⟩
    simp only [signText, List.append_assoc]

end Floats

section Texts

def IsHigh (n : Nat) : Prop := 0xd800 ≤ n ∧ n ≤ 0xdbff

def IsLow (n : Nat) : Prop := 0xdc00 ≤ n ∧ n ≤ 0xdfff

/-- The code points of a text: no high surrogate stands before a low one. -/
structure Codes (codes : List Nat) : Prop where
  lt : ∀ n ∈ codes, n < 0x110000
  chain : codes.IsChain (fun a b => ¬(IsHigh a ∧ IsLow b))

theorem Codes.part {codes part : List Nat} (h : Codes codes) (hpart : part <:+: codes) :
    Codes part where
  lt n hn := h.lt n (hpart.subset hn)
  chain := List.IsChain.infix h.chain hpart

/-- What `dumps` writes for a code point. -/
def encodeCode (n : Nat) : List Char :=
  if 0xd800 ≤ n ∧ n ≤ 0xdfff then escapeUnit n else escapeChar (Char.ofNat n)

/-- The code units of a code point; a surrogate is its own. -/
def codeUnits (n : Nat) : List Nat :=
  if 0xd800 ≤ n ∧ n ≤ 0xdfff then [n] else unitsOf (Char.ofNat n)

theorem dumps_illFormed (codes : List Nat) :
    dumps (illFormed codes) = '"' :: codes.flatMap encodeCode ++ ['"'] := by
  rw [dumps]
  rfl

private theorem toNat_ofNat {n : Nat} (h : n < 0x110000) (hsurrogate : ¬(0xd800 ≤ n ∧ n ≤ 0xdfff)) :
    (Char.ofNat n).toNat = n := by
  have hvalid : n.isValidChar := by
    simp only [Nat.isValidChar]
    omega
  rw [Char.ofNat, dif_pos hvalid]
  rfl

theorem scanUnits_encodeCode {n : Nat} (h : n < 0x110000) (rest : List Char) :
    scanUnits (encodeCode n ++ rest) = (codeUnits n).foldr push (scanUnits rest) := by
  rw [encodeCode, codeUnits]
  split_ifs with hsurrogate
  · exact scanUnits_escapeUnit (by omega) rest
  · exact scanUnits_escapeChar _ rest

theorem scanUnits_codes {codes : List Nat} (h : ∀ n ∈ codes, n < 0x110000) (rest : List Char) :
    scanUnits (codes.flatMap encodeCode ++ '"' :: rest) = .ok (codes.flatMap codeUnits,rest) := by
  induction codes with
  | nil => rfl
  | cons n codes ih =>
    rw [List.flatMap_cons, List.append_assoc, scanUnits_encodeCode (h n List.mem_cons_self),
      ih (fun m hm => h m (List.mem_cons_of_mem n hm)), foldr_push, List.flatMap_cons]

theorem codeUnits_surrogate {n : Nat} (h : 0xd800 ≤ n ∧ n ≤ 0xdfff) : codeUnits n = [n] := if_pos h

theorem codeUnits_scalar {n : Nat} (h : ¬(0xd800 ≤ n ∧ n ≤ 0xdfff)) :
    codeUnits n = unitsOf (Char.ofNat n) := if_neg h

/-- Units begin with a low surrogate only for a code point that is one. -/
private theorem codeUnits_head {n : Nat} (hn : n < 0x110000) {l : List Nat} {m : Nat}
    (hm : m ∈ (codeUnits n ++ l).head?) (hlow : IsLow m) : m = n := by
  by_cases hsurrogate : 0xd800 ≤ n ∧ n ≤ 0xdfff
  · rw [codeUnits_surrogate hsurrogate] at hm
    exact (Option.some.inj hm).symm
  · have hchar := toNat_ofNat hn hsurrogate
    rw [codeUnits_scalar hsurrogate] at hm
    by_cases hlt : (Char.ofNat n).toNat < 0x10000
    · rw [unitsOf_small hlt, hchar] at hm
      exact (Option.some.inj hm).symm
    · rw [unitsOf_large hlt] at hm
      have hhigh := Option.some.inj hm
      rw [IsLow] at hlow
      omega

/-- The units of a text are joined into its code points again. -/
theorem joinSurrogates_codes {codes : List Nat} (h : Codes codes) :
    joinSurrogates (codes.flatMap codeUnits) = codes := by
  obtain ⟨hlt,hchain⟩ := h
  induction codes with
  | nil => rfl
  | cons n codes ih =>
    have hn := hlt n List.mem_cons_self
    have ih := ih (fun m hm => hlt m (List.mem_cons_of_mem n hm)) hchain.tail
    rw [List.flatMap_cons]
    by_cases hsurrogate : 0xd800 ≤ n ∧ n ≤ 0xdfff
    · rw [codeUnits_surrogate hsurrogate, List.singleton_append, joinSurrogates_cons, ih]
      rintro m hm ⟨hhigh,hlow⟩
      cases codes with
      | nil => cases hm
      | cons n' codes =>
        rw [List.flatMap_cons] at hm
        cases codeUnits_head (hlt n' (by simp)) hm hlow
        exact hchain.rel_head? rfl ⟨hhigh,hlow⟩
    · rw [codeUnits_scalar hsurrogate, joinSurrogates_unitsOf, toNat_ofNat hn hsurrogate, ih]

private theorem joinSurrogates_head {n : Nat} {l : List Nat} {m : Nat}
    (hm : m ∈ (joinSurrogates (n :: l)).head?) (hlow : IsLow m) : m = n := by
  cases l with
  | nil => exact (Option.some.inj hm).symm
  | cons n' l =>
    rw [joinSurrogates] at hm
    split at hm
    · have hjoined := Option.some.inj hm
      rw [IsLow] at hlow
      omega
    · exact (Option.some.inj hm).symm

/-- Joining leaves no pair to be joined. -/
theorem codes_joinSurrogates {units : List Nat} (h : ∀ n ∈ units, n < 0x110000) :
    Codes (joinSurrogates units) := by
  fun_induction joinSurrogates units with
  | case1 hi lo rest hpair ih =>
    obtain ⟨hlt,hchain⟩ := ih (fun n hn => h n (by simp [hn]))
    refine ⟨?_,hchain.cons (fun m _ hm => ?_)⟩
    · intro n hn
      rcases List.mem_cons.mp hn with hjoined | hn
      · omega
      · exact hlt n hn
    · have hhigh := hm.1
      rw [IsHigh] at hhigh
      omega
  | case2 hi lo rest hpair ih =>
    obtain ⟨hlt,hchain⟩ := ih (fun n hn => h n (List.mem_cons_of_mem hi hn))
    refine ⟨?_,hchain.cons ?_⟩
    · intro n hn
      rcases List.mem_cons.mp hn with rfl | hn
      · exact h n List.mem_cons_self
      · exact hlt n hn
    · rintro m hm ⟨hhigh,hlow⟩
      cases joinSurrogates_head hm hlow
      exact hpair ⟨hhigh.1,hhigh.2,hlow.1,hlow.2⟩
  | case3 n => exact ⟨h,List.isChain_singleton n⟩
  | case4 => exact ⟨h,List.isChain_nil⟩

private theorem hexValue_lt {c : Char} {n : Nat} (h : hexValue? c = some n) : n < 16 := by
  have hle : ∀ {a b : Char}, a ≤ b ↔ a.toNat ≤ b.toNat := Iff.rfl
  simp only [hexValue?, hle] at h
  split_ifs at h with h1 h2 h3
  all_goals
    cases h
  · have : c.toNat ≤ 57 := h1.2
    omega
  · have : c.toNat ≤ 102 := h2.2
    omega
  · have : c.toNat ≤ 70 := h3.2
    omega

private theorem hex4_lt {a b c d : Char} {n : Nat} (h : hex4? a b c d = some n) : n < 0x10000 := by
  rw [hex4?] at h
  split at h
  · rename_i i j k l hi hj hk hl
    cases h
    have := hexValue_lt hi
    have := hexValue_lt hj
    have := hexValue_lt hk
    have := hexValue_lt hl
    omega
  · cases h

private theorem push_lt {n : Nat} {scan : Scan (List Nat)} {units : List Nat} {rest : List Char}
    (hn : n < 0x110000) (hscan : ∀ units rest, scan = .ok (units,rest) → ∀ m ∈ units, m < 0x110000)
    (h : push n scan = .ok (units,rest)) : ∀ m ∈ units, m < 0x110000 := by
  rcases scan with e | ⟨ns,rest'⟩
  · cases h
  · cases h
    intro m hm
    rcases List.mem_cons.mp hm with rfl | hm
    · exact hn
    · exact hscan _ _ rfl m hm

/-- The units of a literal are code points or UTF-16 units. -/
theorem scanUnits_lt {text rest : List Char} {units : List Nat}
    (h : scanUnits text = .ok (units,rest)) : ∀ n ∈ units, n < 0x110000 := by
  have hchar : ∀ c : Char, c.toNat < 0x110000 := by
    intro c
    rcases c.valid with hc | hc
    · exact Nat.lt_trans hc (by decide)
    · exact hc.2
  fun_induction scanUnits text generalizing units rest with
  | case1 => cases h
  | case2 => cases h; simp
  | case3 a b c d rest n hn ih =>
    have hunit := hex4_lt hn
    exact push_lt (by omega) (fun _ _ => ih) h
  | case4 => cases h
  | case5 => rename_i c _ ih; exact push_lt (hchar c) (fun _ _ => ih) h
  | case6 => cases h
  | case7 => cases h
  | case8 c _ _ _ _ _ ih => exact push_lt (hchar c) (fun _ _ => ih) h

end Texts

end NanoClaw.Json
