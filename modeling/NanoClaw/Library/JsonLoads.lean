import NanoClaw.Library.JsonLayout
import NanoClaw.Library.Utf8

/-! What `loads` returns is decoded, and the text of a decoded value is ASCII, so that it passes
unchanged through a file. -/
namespace NanoClaw

theorem Dict.mem_insert {K V : Type} [DecidableEq K] {k : K} {v : V} {l : List (K × V)} {p : K × V}
    (h : p ∈ Dict.insert k v l) : p.2 = v ∨ p ∈ l := by
  induction l with
  | nil => exact Or.inl (congrArg Prod.snd (List.mem_singleton.mp h))
  | cons q l ih =>
    obtain ⟨k',v'⟩ := q
    rw [Dict.insert] at h
    split at h
    · rcases List.mem_cons.mp h with rfl | h
      · exact Or.inl rfl
      · exact Or.inr (List.mem_cons_of_mem _ h)
    · rcases List.mem_cons.mp h with rfl | h
      · exact Or.inr List.mem_cons_self
      · exact (ih h).imp id (List.mem_cons_of_mem _)

namespace Json

section Scanning
variable {floatRepr : List Char → String} {value : List Char → Scan Json}

/-- What a scanner returns is decoded. -/
def Decodes (floatRepr : List Char → String) (value : List Char → Scan Json) : Prop :=
  ∀ text v rest, value text = .ok (v,rest) → Decoded floatRepr v

theorem scanItems_decodes (hvalue : Decodes floatRepr value) (fuel : Nat) {items : List Json}
    (hitems : ∀ v ∈ items, Decoded floatRepr v) :
    Decodes floatRepr (scanItems value fuel items) := by
  induction fuel generalizing items with
  | zero =>
    rintro text v rest ⟨⟩
  | succ fuel ih =>
    intro text v rest h
    rw [scanItems] at h
    split at h
    · cases h
    · rename_i x rest' hx
      have hitems' : ∀ y ∈ items ++ [x], Decoded floatRepr y := by
        intro y hy
        rcases List.mem_append.mp hy with hy | hy
        · exact hitems y hy
        · rw [List.mem_singleton.mp hy]
          exact hvalue _ _ _ hx
      split at h
      · cases h
        exact .arr hitems'
      · exact ih hitems' _ _ _ h
      · cases h

theorem scanFields_decodes (hvalue : Decodes floatRepr value) (fuel : Nat)
    {fields : List (String × Json)} (hfields : ∀ p ∈ fields, Decoded floatRepr p.2)
    (hnodup : (fields.map Prod.fst).Nodup) : Decodes floatRepr (scanFields value fuel fields) := by
  induction fuel generalizing fields with
  | zero =>
    intro text v rest h
    rw [scanFields] at h
    cases h
  | succ fuel ih =>
    intro text v rest h
    by_cases hquote : ∃ t, text = '"' :: t
    · obtain ⟨t,rfl⟩ := hquote
      rw [scanFields] at h
      split at h
      · cases h
      rename_i key _ _
      split at h
      · split at h
        · cases h
        rename_i x _ hx
        have hfields' : ∀ p ∈ Dict.insert (keyOfCodes (joinSurrogates key)) x fields,
            Decoded floatRepr p.2 := by
          intro p hp
          rcases Dict.mem_insert hp with hp | hp
          · rw [hp]
            exact hvalue _ _ _ hx
          · exact hfields p hp
        have hnodup' := Dict.nodup_insert (keyOfCodes (joinSurrogates key)) x hnodup
        split at h
        · cases h
          exact .obj hfields' hnodup'
        · exact ih hfields' hnodup' _ _ _ h
        · cases h
      · cases h
    · rw [scanFields] at h
      · cases h
      · intro t ht
        exact hquote ⟨t,ht⟩

theorem scanArray_decodes (hvalue : Decodes floatRepr value) :
    Decodes floatRepr (scanArray value) := by
  intro text v rest h
  rw [scanArray] at h
  split at h
  · cases h
    exact .arr (fun _ h => absurd h List.not_mem_nil)
  · exact scanItems_decodes hvalue _ (by simp) _ _ _ h

theorem scanObject_decodes (hvalue : Decodes floatRepr value) :
    Decodes floatRepr (scanObject value) := by
  intro text v rest h
  rw [scanObject] at h
  split at h
  · cases h
    exact .obj (fun _ h => absurd h List.not_mem_nil) List.nodup_nil
  · exact @scanFields_decodes _ _ hvalue _ [] (fun _ h => absurd h List.not_mem_nil) List.nodup_nil
      _ _ _ h

theorem scanNumber_decodes (hrepr : ReprLaw floatRepr) (sign : Bool) :
    Decodes floatRepr (scanNumber floatRepr sign) := by
  intro text v rest h
  rcases scanNumber_cases floatRepr sign h with ⟨n,rfl,hn⟩ | ⟨literal,hliteral,rfl⟩
  · exact .int hn
  · exact .float (hrepr literal hliteral)

/-- The containers of a value are read with less stack than the value. -/
private theorem scanValue_decodes_of (hrepr : ReprLaw floatRepr) {depth : Nat}
    (hinner : ∀ d, depth = d + 1 → Decodes floatRepr (scanValue floatRepr d)) :
    Decodes floatRepr (scanValue floatRepr depth) := by
  intro text v rest h
  unfold scanValue at h
  split at h
  · split at h
    · rename_i units _ hunits
      cases h
      exact .text (codes_joinSurrogates (scanUnits_lt hunits))
    · cases h
  · split at h
    · cases h
    · exact scanObject_decodes (hinner _ rfl) _ _ _ h
  · split at h
    · cases h
    · exact scanArray_decodes (hinner _ rfl) _ _ _ h
  · cases h
    exact .null
  · cases h
    exact .bool true
  · cases h
    exact .bool false
  · cases h
    exact .float (.inl rfl)
  · cases h
    exact .float (.inr (.inl rfl))
  · cases h
    exact .float (.inr (.inr (.inl rfl)))
  · exact scanNumber_decodes hrepr true _ _ _ h
  · exact scanNumber_decodes hrepr false _ _ _ h

theorem scanValue_decodes (hrepr : ReprLaw floatRepr) (depth : Nat) :
    Decodes floatRepr (scanValue floatRepr depth) := by
  induction depth with
  | zero => exact scanValue_decodes_of hrepr (fun d hd => absurd hd (Nat.succ_ne_zero d).symm)
  | succ depth ih =>
    apply scanValue_decodes_of hrepr
    rintro d hd
    rwa [← Nat.succ.inj hd]

/-- Every value that `loads` returns is decoded. -/
theorem decoded_of_loads {interp : Interp} (hrepr : ReprLaw interp.floatRepr) {text : List Char}
    {v : Json} (h : loads interp text = .ok v) : Decoded interp.floatRepr v := by
  rw [loads] at h
  split at h
  · cases h
  · split at h
    · cases h
    · rename_i w rest hw
      split at h
      · cases h
        exact scanValue_decodes hrepr interp.depth _ _ _ hw
      · cases h

end Scanning

section Bytes
open Utf8

@[simp] theorem ascii_nil : Ascii [] := fun _ h => absurd h List.not_mem_nil

@[simp] theorem ascii_cons {c : Char} {s : List Char} :
    Ascii (c :: s) ↔ c.toNat ≤ 0x7f ∧ Ascii s := List.forall_mem_cons

@[simp] theorem ascii_append {s t : List Char} : Ascii (s ++ t) ↔ Ascii s ∧ Ascii t :=
  List.forall_mem_append

theorem ascii_flatMap {α : Type} {f : α → List Char} {l : List α} (h : ∀ x ∈ l, Ascii (f x)) :
    Ascii (l.flatMap f) := by
  intro c hc
  obtain ⟨x,hx,hc⟩ := List.mem_flatMap.mp hc
  exact h x hx c hc

theorem Digits.ascii {l : List Char} (h : Digits l) : Ascii l := by
  intro c hc
  have hdigit := h.2 c hc
  simp only [isDigit, Bool.and_eq_true, decide_eq_true_eq] at hdigit
  have hnine : c.toNat ≤ 57 := hdigit.2
  omega

theorem ascii_escapeUnit (n : Nat) : Ascii (escapeUnit n) := by
  have hhex : ∀ n < 16, (hexDigit n).toNat ≤ 0x7f := by decide
  have hdigit : ∀ n, (hexDigit (n % 16)).toNat ≤ 0x7f := fun n => hhex _ (Nat.mod_lt n (by decide))
  simp [escapeUnit, hdigit]

theorem ascii_escapeChar (c : Char) : Ascii (escapeChar c) := by
  unfold escapeChar
  split
  · rename_i hplain
    simp only [isPlain, Bool.and_eq_true, decide_eq_true_eq] at hplain
    rw [ascii_cons]
    exact ⟨by omega,ascii_nil⟩
  · split
    all_goals first
      | exact ascii_flatMap (fun n _ => ascii_escapeUnit n)
      | simp

theorem ascii_quote (s : String) : Ascii (quote s) := by
  simp [quote, escape, ascii_flatMap (fun c _ => ascii_escapeChar c)]

theorem ascii_encodeCode (n : Nat) : Ascii (encodeCode n) := by
  rw [encodeCode]
  split_ifs
  · exact ascii_escapeUnit n
  · exact ascii_escapeChar _

theorem FloatLiteral.ascii {literal : List Char} (h : FloatLiteral literal) : Ascii literal := by
  obtain ⟨sign,_,⟨hds,hfrac,hexp,_⟩,rfl⟩ := h
  have hletter : ∀ {e : Char}, e = 'e' ∨ e = 'E' → e.toNat ≤ 0x7f := by
    rintro e (rfl | rfl) <;> decide
  have hmark : ∀ {s : Char}, s = '+' ∨ s = '-' → s.toNat ≤ 0x7f := by
    rintro s (rfl | rfl) <;> decide
  rw [ascii_append, ascii_append, ascii_append]
  refine ⟨?_,⟨?_,?_⟩,?_⟩
  · cases sign <;> simp [signText]
  · cases hds with
    | zero => simp
    | digits h hhead => exact h.ascii
  · cases hfrac with
    | none => exact ascii_nil
    | digits h => exact ascii_cons.mpr ⟨by decide,h.ascii⟩
  · cases hexp with
    | none => exact ascii_nil
    | plain he h => exact ascii_cons.mpr ⟨hletter he,h.ascii⟩
    | signed he hs h => exact ascii_cons.mpr ⟨hletter he,ascii_cons.mpr ⟨hmark hs,h.ascii⟩⟩

theorem ascii_ws {ws : List Char} (h : ∀ c ∈ ws, isWs c = true) : Ascii ws := by
  intro c hc
  have hws := h c hc
  simp only [isWs, Bool.or_eq_true, beq_iff_eq] at hws
  rcases hws with ((rfl | rfl) | rfl) | rfl <;> decide

section Layouts
variable {L : Layout} {level : Nat}

theorem ascii_renderItems {items : List Json} (h : ∀ v ∈ items, ∀ level, Ascii (render L level v)) :
    Ascii (renderItems L level items) := by
  have hmore : ∀ {items : List Json} {level : Nat}, (∀ v ∈ items, ∀ level, Ascii (render L level v)) →
      Ascii (renderMoreItems L level items) := by
    intro items level h
    induction items with
    | nil => exact ascii_nil
    | cons v items ih =>
      have hv := h v List.mem_cons_self level
      have hitems := ih (fun x hx => h x (List.mem_cons_of_mem v hx))
      simp [renderMoreItems, hv, hitems, ascii_ws (L.sep_ws level)]
  cases items with
  | nil => exact ascii_nil
  | cons v items =>
    have hv := h v List.mem_cons_self (level + 1)
    have hitems := @hmore items (level + 1) (fun x hx => h x (List.mem_cons_of_mem v hx))
    simp [renderItems, hv, hitems, ascii_ws (L.gap_ws _)]

theorem ascii_renderFields {fields : List (String × Json)}
    (h : ∀ p ∈ fields, ∀ level, Ascii (render L level p.2)) :
    Ascii (renderFields L level fields) := by
  have hmore : ∀ {fields : List (String × Json)} {level : Nat},
      (∀ p ∈ fields, ∀ level, Ascii (render L level p.2)) →
      Ascii (renderMoreFields L level fields) := by
    intro fields level h
    induction fields with
    | nil => exact ascii_nil
    | cons p fields ih =>
      obtain ⟨k,v⟩ := p
      have hv : Ascii (render L level v) := h (k,v) List.mem_cons_self level
      have hfields := ih (fun q hq => h q (List.mem_cons_of_mem _ hq))
      simp [renderMoreFields, hv, hfields, ascii_quote, ascii_ws (L.sep_ws level)]
  cases fields with
  | nil => exact ascii_nil
  | cons p fields =>
    obtain ⟨k,v⟩ := p
    have hv : Ascii (render L (level + 1) v) := h (k,v) List.mem_cons_self _
    have hfields := @hmore fields (level + 1) (fun q hq => h q (List.mem_cons_of_mem _ hq))
    simp [renderFields, hv, hfields, ascii_quote, ascii_ws (L.gap_ws _)]

/-- `ensure_ascii`. -/
theorem Decoded.ascii_render {floatRepr : List Char → String} {v : Json} (h : Decoded floatRepr v) :
    ∀ level, Ascii (render L level v) := by
  induction h with
  | null => simp [render, dumps]
  | bool b => cases b <;> simp [render, dumps]
  | @int n h =>
    intro level
    change Ascii (dumps (Json.int n))
    cases n with
    | ofNat m =>
      rw [dumps_ofNat]
      exact (digits_toDigits m).ascii
    | negSucc m =>
      rw [dumps_negSucc, ascii_cons]
      exact ⟨by decide,(digits_toDigits (m + 1)).ascii⟩
  | @float r h =>
    intro level
    change Ascii (dumps (Json.float r))
    rcases h with rfl | rfl | rfl | ⟨h,_⟩
    · simp [dumps]
    · simp [dumps]
    · simp [dumps]
    · rw [dumps_literal h]
      exact h.ascii
  | str s =>
    exact fun _ => ascii_quote s
  | @illFormed codes h hlone =>
    intro level
    change Ascii (dumps (Json.illFormed codes))
    rw [dumps_illFormed]
    simp [ascii_flatMap (fun n _ => ascii_encodeCode n)]
  | arr h ih => simp [render, ascii_renderItems ih]
  | obj h hnodup ih => simp [render, ascii_renderFields ih]

end Layouts

theorem Decoded.ascii {floatRepr : List Char → String} {v : Json} (h : Decoded floatRepr v) :
    Ascii (dumps v) := by
  rw [← render_compact 0]
  exact h.ascii_render 0

end Bytes
end Json
end NanoClaw
