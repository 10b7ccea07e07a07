import Mathlib.Data.List.Basic

/-! Splitting a command line as `shlex.split` does: at white space, with quotes and backslashes taken
away. -/
namespace NanoClaw.Shlex

inductive Fault where
  | noClosingQuotation
  | noEscapedCharacter
  deriving DecidableEq, Repr

def Fault.text : Fault → String
  | noClosingQuotation => "No closing quotation"
  | noEscapedCharacter => "No escaped character"

/-- Where the lexer stands. Behind a backslash it keeps the quote around it. -/
inductive Mode where
  | between
  | word
  | quoted (quote : Char)
  | escaped (quote : Option Char)
  deriving DecidableEq, Repr

/-- The words that are complete, and the one begun. A word with a quote in it counts when it is
empty. -/
structure Lexer where
  mode : Mode
  quoted : Bool
  token : List Char
  words : List (List Char)
  deriving DecidableEq, Repr

def isSpace (c : Char) : Bool := c == ' ' || c == '\t' || c == '\r' || c == '\n'

def isQuote (c : Char) : Bool := c == '\'' || c == '"'

/-- The characters that do not stand for themselves outside quotes. -/
def isSpecial (c : Char) : Bool := isSpace c || isQuote c || c == '\\'

namespace Lexer

def start : Lexer := ⟨.between,false,[],[]⟩

/-- The words with the one begun. -/
def emitted (l : Lexer) : List (List Char) :=
  if l.token = [] ∧ l.quoted = false then l.words else l.words ++ [l.token]

/-- A character outside quotes. -/
def plain (l : Lexer) (c : Char) : Lexer :=
  if isQuote c then { l with mode := .quoted c, quoted := true }
  else if c = '\\' then { l with mode := .escaped none }
  else { l with mode := .word, token := l.token ++ [c] }

/-- `read_token`, one character further. -/
def step (l : Lexer) (c : Char) : Lexer :=
  match l.mode with
  | .between => if isSpace c then l else l.plain c
  | .word => if isSpace c then ⟨.between,false,[],l.emitted⟩ else l.plain c
  | .quoted quote =>
    if c = quote then { l with mode := .word }
    else if c = '\\' ∧ quote = '"' then { l with mode := .escaped (some quote) }
    else { l with token := l.token ++ [c] }
  | .escaped none => { l with mode := .word, token := l.token ++ [c] }
  | .escaped (some quote) =>
    { l with
      mode := .quoted quote
      token := if c = '\\' ∨ c = quote then l.token ++ [c] else l.token ++ ['\\',c] }

/-- The end of the text. -/
def finish (l : Lexer) : Except Fault (List (List Char)) :=
  match l.mode with
  | .between | .word => .ok l.emitted
  | .quoted _ => .error .noClosingQuotation
  | .escaped _ => .error .noEscapedCharacter

end Lexer

def split (text : List Char) : Except Fault (List (List Char)) :=
  (text.foldl Lexer.step Lexer.start).finish

example : split "docker run  -e 'A=b c' \"x\\\"y\" ''".toList =
    .ok ["docker".toList,"run".toList,"-e".toList,"A=b c".toList,"x\"y".toList,[]] := by
  decide +kernel

/-- Nothing is begun between words, and only quotes quote. -/
structure Lexer.Wf (l : Lexer) : Prop where
  between : l.mode = .between → l.token = [] ∧ l.quoted = false
  quote : ∀ q, l.mode = .quoted q ∨ l.mode = .escaped (some q) → isQuote q = true

section Steps
variable {l : Lexer} {c : Char}

theorem not_isSpecial_iff : isSpecial c = false ↔ isSpace c = false ∧ isQuote c = false ∧ c ≠ '\\' := by
  simp [isSpecial, and_assoc]

/-- A character that stands for itself. -/
theorem step_ordinary (hmode : l.mode = .between ∨ l.mode = .word) (hc : isSpecial c = false) :
    l.step c = { l with mode := .word, token := l.token ++ [c] } := by
  obtain ⟨hspace,hquote,hslash⟩ := not_isSpecial_iff.mp hc
  have hplain : l.plain c = { l with mode := .word, token := l.token ++ [c] } := by
    simp [Lexer.plain, hquote, hslash]
  rcases hmode with hmode | hmode
  · simp [Lexer.step, hmode, hspace, hplain]
  · simp [Lexer.step, hmode, hspace, hplain]

theorem step_space (hmode : l.mode = .between ∨ l.mode = .word) (hwf : l.Wf) :
    l.step ' ' = ⟨.between,false,[],l.emitted⟩ := by
  rcases hmode with hmode | hmode
  · obtain ⟨htoken,hquoted⟩ := hwf.between hmode
    obtain ⟨mode,quoted,token,words⟩ := l
    dsimp only at hmode htoken hquoted
    subst hmode htoken hquoted
    rfl
  · simp [Lexer.step, hmode, isSpace]

theorem Lexer.Wf.step (h : l.Wf) (c : Char) : (l.step c).Wf := by
  obtain ⟨mode,quoted,token,words⟩ := l
  have hquote := h.quote
  cases mode with
  | between =>
    simp only [Lexer.step, Lexer.plain]
    split_ifs with hspace hq
    · exact h
    · exact ⟨by simp,by simpa using hq⟩
    · exact ⟨by simp,by simp⟩
    · exact ⟨by simp,by simp⟩
  | word =>
    simp only [Lexer.step, Lexer.plain]
    split_ifs with hspace hq
    · exact ⟨by simp,by simp⟩
    · exact ⟨by simp,by simpa using hq⟩
    · exact ⟨by simp,by simp⟩
    · exact ⟨by simp,by simp⟩
  | quoted quote =>
    have hq : isQuote quote = true := hquote quote (Or.inl rfl)
    simp only [Lexer.step]
    split_ifs
    · exact ⟨by simp,by simp⟩
    · exact ⟨by simp,by simpa using hq⟩
    · exact ⟨by simp,by simpa using hq⟩
  | escaped quote =>
    cases quote with
    | none => exact ⟨by simp [Lexer.step],by simp [Lexer.step]⟩
    | some quote =>
      have hq : isQuote quote = true := hquote quote (Or.inr rfl)
      exact ⟨by simp [Lexer.step],by simpa [Lexer.step] using hq⟩

theorem Lexer.Wf.foldl (h : l.Wf) (text : List Char) : (text.foldl Lexer.step l).Wf := by
  induction text generalizing l with
  | nil => exact h
  | cons c text ih => exact ih (h.step c)

theorem wf_start : Lexer.start.Wf := ⟨fun _ => ⟨rfl,rfl⟩,by simp [Lexer.start]⟩

end Steps

section Words
variable {l : Lexer} {w : List Char} {args : List (List Char)}

/-- A word without special characters is taken as it is. -/
theorem foldl_ordinary (hmode : l.mode = .between ∨ l.mode = .word) (hne : w ≠ [])
    (hw : ∀ c ∈ w, isSpecial c = false) :
    w.foldl Lexer.step l = { l with mode := .word, token := l.token ++ w } := by
  induction w generalizing l with
  | nil => exact absurd rfl hne
  | cons c w ih =>
    obtain ⟨hc,hw⟩ := List.forall_mem_cons.mp hw
    rw [List.foldl_cons, step_ordinary hmode hc]
    cases w with
    | nil => rfl
    | cons d w =>
      rw [ih (Or.inr rfl) (List.cons_ne_nil _ _) hw]
      simp

/-- Words behind white space come out as they are. -/
theorem finish_args (hmode : l.mode = .between ∨ l.mode = .word) (hwf : l.Wf)
    (hargs : ∀ w ∈ args, w ≠ [] ∧ ∀ c ∈ w, isSpecial c = false) :
    ((args.flatMap (' ' :: ·)).foldl Lexer.step l).finish = .ok (l.emitted ++ args) := by
  induction args generalizing l with
  | nil =>
    rw [List.flatMap_nil, List.foldl_nil, List.append_nil, Lexer.finish]
    rcases hmode with hmode | hmode <;> rw [hmode]
  | cons w args ih =>
    obtain ⟨⟨hne,hw⟩,hargs⟩ := List.forall_mem_cons.mp hargs
    have hword : (' ' :: w).foldl Lexer.step l = ⟨.word,false,w,l.emitted⟩ := by
      rw [List.foldl_cons, step_space hmode hwf, foldl_ordinary (Or.inl rfl) hne hw]
      rfl
    have hemitted : Lexer.emitted ⟨.word,false,w,l.emitted⟩ = l.emitted ++ [w] := if_neg (by simp [hne])
    rw [List.flatMap_cons, List.foldl_append, hword,
      ih (Or.inr rfl) ⟨by simp,by simp⟩ hargs, hemitted, List.append_assoc, List.singleton_append]

/-- Inside quotes a text without quotes and backslashes stays inside. -/
theorem foldl_quoted {q : Char} {text : List Char} (hq : isQuote q = true) (hmode : l.mode = .quoted q)
    (htext : ∀ c ∈ text, isQuote c = false ∧ c ≠ '\\') :
    (text.foldl Lexer.step l).mode = .quoted q := by
  induction text generalizing l with
  | nil => exact hmode
  | cons c text ih =>
    obtain ⟨⟨hquote,hslash⟩,htext⟩ := List.forall_mem_cons.mp htext
    have hne : c ≠ q := fun he => by rw [he, hq] at hquote; cases hquote
    refine ih ?_ htext
    simp [Lexer.step, hmode, hne, hslash]

end Words

section Kept

/-- The characters that the lexer has put into words, with a backslash it may still put. -/
def Lexer.kept (l : Lexer) : Nat :=
  l.words.flatten.length + l.token.length +
    match l.mode with
    | .escaped (some _) => 1
    | _ => 0

theorem emitted_length (l : Lexer) :
    l.emitted.flatten.length = l.words.flatten.length + l.token.length := by
  rw [Lexer.emitted]
  split_ifs with h
  · simp [h.1]
  · simp

/-- A character adds one at most. -/
theorem kept_step_le (l : Lexer) (c : Char) : (l.step c).kept ≤ l.kept + 1 := by
  obtain ⟨mode,q,token,words⟩ := l
  cases mode with
  | between =>
    simp only [Lexer.step, Lexer.plain]
    split_ifs <;> simp [Lexer.kept]
    omega
  | word =>
    simp only [Lexer.step, Lexer.plain]
    split_ifs
    · simp [Lexer.kept, emitted_length, -List.length_flatten]
    · simp [Lexer.kept]
    · simp [Lexer.kept]
    · simp [Lexer.kept]
      omega
  | quoted quote =>
    simp only [Lexer.step]
    split_ifs <;> simp [Lexer.kept]
    omega
  | escaped quote =>
    cases quote with
    | none =>
      simp [Lexer.step, Lexer.kept]
      omega
    | some quote =>
      simp only [Lexer.step]
      split_ifs <;> simp [Lexer.kept] <;> omega

theorem kept_foldl_le (text : List Char) (l : Lexer) :
    (text.foldl Lexer.step l).kept ≤ l.kept + text.length := by
  induction text generalizing l with
  | nil => exact Nat.le_refl _
  | cons c text ih =>
    have hstep := kept_step_le l c
    have htext := ih (l.step c)
    rw [List.foldl_cons, List.length_cons]
    omega

/-- Outside quotes a special character adds none. -/
theorem kept_step_special {l : Lexer} {c : Char} (hmode : l.mode = .between ∨ l.mode = .word)
    (hc : isSpecial c = true) : (l.step c).kept = l.kept := by
  obtain ⟨mode,q,token,words⟩ := l
  dsimp only at hmode
  rcases hmode with rfl | rfl
  · simp only [Lexer.step, Lexer.plain]
    split_ifs with hspace hquote hslash
    · rfl
    · rfl
    · rfl
    · simp [isSpecial, hspace, hquote, hslash] at hc
  · simp only [Lexer.step, Lexer.plain]
    split_ifs with hspace hquote hslash
    · simp [Lexer.kept, emitted_length, -List.length_flatten]
    · rfl
    · rfl
    · simp [isSpecial, hspace, hquote, hslash] at hc

/-- A text with a special character loses one at least. -/
theorem kept_lt {text : List Char} (h : ¬∀ c ∈ text, isSpecial c = false) {l : Lexer}
    (hmode : l.mode = .between ∨ l.mode = .word) :
    (text.foldl Lexer.step l).kept < l.kept + text.length := by
  induction text generalizing l with
  | nil => exact absurd (List.forall_mem_nil _) h
  | cons c text ih =>
    rw [List.foldl_cons, List.length_cons]
    by_cases hc : isSpecial c = true
    · have hstep := kept_step_special hmode hc
      have htext := kept_foldl_le text (l.step c)
      omega
    · rw [Bool.not_eq_true] at hc
      have hrest : ¬∀ c ∈ text, isSpecial c = false := fun hall =>
        h (List.forall_mem_cons.mpr ⟨hc,hall⟩)
      have hstep := kept_step_le l c
      have htext := ih hrest (l := l.step c) (Or.inr (by rw [step_ordinary hmode hc]))
      omega

end Kept

section Commands
variable {l : Lexer} {text : List Char} {args : List (List Char)}

/-- What stands behind a text: white space and words without special characters. -/
theorem flatMap_unquoted (hargs : ∀ w ∈ args, w ≠ [] ∧ ∀ c ∈ w, isSpecial c = false) :
    ∀ c ∈ args.flatMap (' ' :: ·), isQuote c = false ∧ c ≠ '\\' := by
  intro c hc
  obtain ⟨w,hw,hc⟩ := List.mem_flatMap.mp hc
  rcases List.mem_cons.mp hc with rfl | hc
  · exact ⟨rfl,by decide⟩
  · exact (not_isSpecial_iff.mp ((hargs w hw).2 c hc)).2

/-- Words inside an open quote do not end it. -/
theorem finish_quoted {q : Char} (hq : isQuote q = true) (hmode : l.mode = .quoted q)
    (hargs : ∀ w ∈ args, w ≠ [] ∧ ∀ c ∈ w, isSpecial c = false) :
    ((args.flatMap (' ' :: ·)).foldl Lexer.step l).finish = .error .noClosingQuotation := by
  rw [Lexer.finish, foldl_quoted hq hmode (flatMap_unquoted hargs)]

/-- A backslash at the end takes the white space behind it into its word. -/
theorem finish_escaped (hmode : l.mode = .escaped none) {w : List Char}
    (hargs : ∀ w' ∈ w :: args, w' ≠ [] ∧ ∀ c ∈ w', isSpecial c = false) :
    (((w :: args).flatMap (' ' :: ·)).foldl Lexer.step l).finish =
      .ok (l.words ++ (l.token ++ ' ' :: w) :: args) := by
  obtain ⟨⟨hne,hw⟩,hargs⟩ := List.forall_mem_cons.mp hargs
  have hword : (' ' :: w).foldl Lexer.step l = ⟨.word,l.quoted,l.token ++ ' ' :: w,l.words⟩ := by
    have hstep : l.step ' ' = { l with mode := .word, token := l.token ++ [' '] } := by
      rw [Lexer.step, hmode]
    rw [List.foldl_cons, hstep, foldl_ordinary (Or.inr rfl) hne hw]
    simp
  have hemitted : Lexer.emitted ⟨.word,l.quoted,l.token ++ ' ' :: w,l.words⟩ =
      l.words ++ [l.token ++ ' ' :: w] := if_neg (by simp)
  rw [List.flatMap_cons, List.foldl_append, hword,
    finish_args (Or.inr rfl) ⟨by simp,by simp⟩ hargs, hemitted, List.append_assoc,
    List.singleton_append]

/-- Where the words come back behind the text, the lexer stood at its end with the text as its only
word. -/
theorem emitted_of_finish (hwf : l.Wf) (hargs : ∀ w ∈ args, w ≠ [] ∧ ∀ c ∈ w, isSpecial c = false)
    (h : ((args.flatMap (' ' :: ·)).foldl Lexer.step l).finish = .ok (text :: args)) :
    l.emitted = [text] := by
  cases hmode : l.mode with
  | between | word =>
    rw [finish_args (by simp [hmode]) hwf hargs] at h
    exact (List.append_left_inj args).mp (Except.ok.inj h)
  | quoted q =>
    rw [finish_quoted (hwf.quote q (Or.inl hmode)) hmode hargs] at h
    cases h
  | escaped quote =>
    cases args with
    | nil =>
      rw [List.flatMap_nil, List.foldl_nil, Lexer.finish, hmode] at h
      cases h
    | cons w args =>
      cases quote with
      | some q =>
        have hstep : (l.step ' ').mode = .quoted q := by rw [Lexer.step, hmode]
        rw [List.flatMap_cons, List.cons_append, List.foldl_cons] at h
        have hrest : ∀ c ∈ w ++ args.flatMap (' ' :: ·), isQuote c = false ∧ c ≠ '\\' :=
          fun c hc => flatMap_unquoted hargs c (List.mem_cons_of_mem _ hc)
        rw [Lexer.finish, foldl_quoted (hwf.quote q (Or.inr hmode)) hstep hrest] at h
        cases h
      | none =>
        rw [finish_escaped hmode hargs] at h
        have hwords := Except.ok.inj h
        have hlen := congrArg List.length hwords
        simp only [List.length_append, List.length_cons] at hlen
        obtain ⟨word,hword⟩ := List.length_eq_one_iff.mp (show l.words.length = 1 by omega)
        rw [hword, List.singleton_append] at hwords
        have hlast := congrArg List.length (List.cons.inj (List.cons.inj hwords).2).1
        simp only [List.length_append, List.length_cons] at hlast
        omega

/-- A text with words behind it is split into itself and these words exactly when it is not empty and has
no white space, quote or backslash. -/
theorem split_command_iff (hargs : ∀ w ∈ args, w ≠ [] ∧ ∀ c ∈ w, isSpecial c = false) :
    split (text ++ args.flatMap (' ' :: ·)) = .ok (text :: args) ↔
      text ≠ [] ∧ ∀ c ∈ text, isSpecial c = false := by
  rw [split, List.foldl_append]
  constructor
  · intro hsplit
    have hemitted := emitted_of_finish (wf_start.foldl text) hargs hsplit
    have hne : text ≠ [] := by
      rintro rfl
      cases hemitted
    refine ⟨hne,?_⟩
    by_contra hspecial
    have hlt := kept_lt hspecial (l := .start) (Or.inl rfl)
    have hlen := emitted_length (text.foldl Lexer.step .start)
    rw [hemitted] at hlen
    simp only [Lexer.start, Lexer.kept, List.flatten_cons, List.flatten_nil, List.append_nil,
      List.length_nil] at hlt hlen
    omega
  · rintro ⟨hne,htext⟩
    rw [foldl_ordinary (Or.inl rfl) hne htext, finish_args (Or.inr rfl) ⟨by simp,by simp⟩ hargs]
    exact congrArg _ (congrArg (· ++ args) (if_neg (by simp [Lexer.start, hne])))

end Commands

end NanoClaw.Shlex
