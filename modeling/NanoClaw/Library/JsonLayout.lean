import NanoClaw.Library.JsonDecoded

/-! The texts of a value under any white space between its parts. `loads` reads a value back from each
of them, if the stack of the reader has room for its nesting, and fails otherwise. The text of `dumps` is
one of them, the indented text is another. -/
namespace NanoClaw.Json

/-- The white space at a depth: around the elements of a container, and behind a comma. -/
structure Layout where
  gap : Nat → List Char
  sep : Nat → List Char
  gap_ws : ∀ level, ∀ c ∈ gap level, isWs c = true
  sep_ws : ∀ level, ∀ c ∈ sep level, isWs c = true

/-- The layout of `json.dumps` without arguments. -/
def Layout.compact : Layout where
  gap _ := []
  sep _ := [' ']
  gap_ws _ _ h := absurd h List.not_mem_nil
  sep_ws _ c h := by
    rw [List.mem_singleton.mp h]
    rfl

/-- A new line, indented by some spaces for each level. -/
def newline (indent level : Nat) : List Char := '\n' :: List.replicate (indent * level) ' '

theorem newline_ws (indent level : Nat) : ∀ c ∈ newline indent level, isWs c = true := by
  intro c hc
  rcases List.mem_cons.mp hc with rfl | hc
  · rfl
  · rw [List.eq_of_mem_replicate hc]
    rfl

/-- The layout of `json.dumps` with `indent`. -/
def Layout.indented (indent : Nat) : Layout :=
  ⟨newline indent,newline indent,newline_ws indent,newline_ws indent⟩

mutual

def render (L : Layout) (level : Nat) : Json → List Char
  | arr items => '[' :: renderItems L level items ++ [']']
  | obj fields => '{' :: renderFields L level fields ++ ['}']
  | v => dumps v

def renderItems (L : Layout) (level : Nat) : List Json → List Char
  | [] => []
  | v :: vs =>
    L.gap (level + 1) ++ (render L (level + 1) v ++ (renderMoreItems L (level + 1) vs ++ L.gap level))

def renderMoreItems (L : Layout) (level : Nat) : List Json → List Char
  | [] => []
  | v :: vs => ',' :: (L.sep level ++ (render L level v ++ renderMoreItems L level vs))

def renderFields (L : Layout) (level : Nat) : List (String × Json) → List Char
  | [] => []
  | (k, v) :: fields =>
    L.gap (level + 1) ++ (quote k ++ ':' :: ' ' :: (render L (level + 1) v ++
      (renderMoreFields L (level + 1) fields ++ L.gap level)))

def renderMoreFields (L : Layout) (level : Nat) : List (String × Json) → List Char
  | [] => []
  | (k, v) :: fields =>
    ',' :: (L.sep level ++
      (quote k ++ ':' :: ' ' :: (render L level v ++ renderMoreFields L level fields)))

end

/-- `json.dumps(value, indent=indent)`. -/
def dumpsIndent (indent : Nat) (v : Json) : List Char := render (.indented indent) 0 v

example : dumpsIndent 2 (.obj [("a",.arr [.int 1,.null]),("b",.arr [])]) =
    "\x7b\n  \"a\": [\n    1,\n    null\n  ],\n  \"b\": []\n\x7d".toList := by decide +kernel

section Compact

mutual

/-- `dumps` is the compact layout, at every depth. -/
theorem render_compact (level : Nat) (v : Json) : render .compact level v = dumps v := by
  cases v with
  | arr items => rw [render, dumps, renderItems_compact]
  | obj fields => rw [render, dumps, renderFields_compact]
  | _ => rfl

theorem renderItems_compact (level : Nat) (items : List Json) :
    renderItems .compact level items = dumpsItems items := by
  cases items with
  | nil => rfl
  | cons v vs =>
    rw [renderItems, dumpsItems, render_compact, renderMoreItems_compact]
    simp [Layout.compact]

theorem renderMoreItems_compact (level : Nat) (items : List Json) :
    renderMoreItems .compact level items = dumpsMoreItems items := by
  cases items with
  | nil => rfl
  | cons v vs =>
    rw [renderMoreItems, dumpsMoreItems, render_compact, renderMoreItems_compact]
    rfl

theorem renderFields_compact (level : Nat) (fields : List (String × Json)) :
    renderFields .compact level fields = dumpsFields fields := by
  cases fields with
  | nil => rfl
  | cons p fields =>
    obtain ⟨k,v⟩ := p
    rw [renderFields, dumpsFields, render_compact, renderMoreFields_compact]
    simp [Layout.compact]

theorem renderMoreFields_compact (level : Nat) (fields : List (String × Json)) :
    renderMoreFields .compact level fields = dumpsMoreFields fields := by
  cases fields with
  | nil => rfl
  | cons p fields =>
    obtain ⟨k,v⟩ := p
    rw [renderMoreFields, dumpsMoreFields, render_compact, renderMoreFields_compact]
    rfl

end

end Compact

theorem skipWs_append {ws : List Char} (h : ∀ c ∈ ws, isWs c = true) (text : List Char) :
    skipWs (ws ++ text) = skipWs text := by
  induction ws with
  | nil => rfl
  | cons c ws ih =>
    obtain ⟨hc,hws⟩ := List.forall_mem_cons.mp h
    rw [List.cons_append, skipWs, List.dropWhile_cons_of_pos hc]
    exact ih hws

/-- White space ends a number, as what stands behind it does. -/
theorem ends_ws {ws text : List Char} (h : ∀ c ∈ ws, isWs c = true) (htext : Ends text) :
    Ends (ws ++ text) := by
  cases ws with
  | nil => exact htext
  | cons c ws =>
    have hc := h c List.mem_cons_self
    simp only [isWs, Bool.or_eq_true, beq_iff_eq] at hc
    rcases hc with ((rfl | rfl) | rfl) | rfl <;> exact .cons (by decide) _

section Reading
variable {floatRepr : List Char → String} {L : Layout}

theorem Decoded.render_opens {v : Json} (h : Decoded floatRepr v) (level : Nat) :
    Opens (render L level v) := by
  have hdumps := h.opens
  cases v with
  | arr items => exact ⟨'[',_,rfl,by decide,by decide,by decide⟩
  | obj fields => exact ⟨'{',_,rfl,by decide,by decide,by decide⟩
  | _ => exact hdumps

theorem Opens.skipWs {text : List Char} (h : Opens text) (rest : List Char) :
    skipWs (text ++ rest) = text ++ rest := by
  obtain ⟨c,t,rfl,hws,_⟩ := h
  rw [List.cons_append, Json.skipWs, List.dropWhile_cons, hws]
  rfl

end Reading

section Containers
variable {floatRepr : List Char → String} {value : List Char → Scan Json} {depth : Nat} {L : Layout}

/-- A scanner reads a value back under a layout exactly when the value does not nest too deep for it. -/
def ReadsBack (floatRepr : List Char → String) (L : Layout) (depth : Nat)
    (value : List Char → Scan Json) : Prop :=
  ∀ v, Decoded floatRepr v → ∀ level rest, Ends rest → value (render L level v ++ rest) =
    if nesting v ≤ depth then .ok (v,rest) else .error .recursionError

theorem scanItems_render (hvalue : ReadsBack floatRepr L depth value) (level : Nat) (items : List Json)
    (v : Json) (h : ∀ x ∈ v :: items, Decoded floatRepr x) (fuel : Nat) (hfuel : items.length < fuel)
    (acc : List Json) {ws : List Char} (hws : ∀ c ∈ ws, isWs c = true) (rest : List Char) :
    scanItems value fuel acc
        (render L level v ++ (renderMoreItems L level items ++ (ws ++ ']' :: rest))) =
      if nestingItems (v :: items) ≤ depth then .ok (arr (acc ++ v :: items),rest)
      else .error .recursionError := by
  have hdecoded : Decoded floatRepr v := h v List.mem_cons_self
  induction items generalizing v acc fuel with
  | nil =>
    cases fuel with
    | zero => cases hfuel
    | succ fuel =>
      have hv := hvalue v hdecoded level (ws ++ ']' :: rest) (ends_ws hws (.cons (by decide) rest))
      have hskip : skipWs (ws ++ ']' :: rest) = ']' :: rest := skipWs_append hws _
      have hnesting : nestingItems [v] = nesting v := Nat.max_zero _
      rw [hnesting]
      by_cases hdepth : nesting v ≤ depth
      · rw [if_pos hdepth] at hv ⊢
        simp only [renderMoreItems, List.nil_append, scanItems, hv, hskip]
      · rw [if_neg hdepth] at hv ⊢
        simp only [renderMoreItems, List.nil_append, scanItems, hv]
  | cons x items ih =>
    cases fuel with
    | zero => cases hfuel
    | succ fuel =>
      have hx : Decoded floatRepr x := h x (by simp)
      have hv := hvalue v hdecoded level (',' :: (L.sep level ++ (render L level x ++
        (renderMoreItems L level items ++ (ws ++ ']' :: rest))))) (.cons (by decide) _)
      have hcomma : ∀ t, skipWs (',' :: t) = ',' :: t := fun _ => rfl
      have hsep : ∀ t, skipWs (L.sep level ++ (render L level x ++ t)) = render L level x ++ t :=
        fun t => (skipWs_append (L.sep_ws level) _).trans ((hx.render_opens level).skipWs t)
      have hnesting : nestingItems (v :: x :: items) ≤ depth ↔
          nesting v ≤ depth ∧ nestingItems (x :: items) ≤ depth := max_le_iff
      by_cases hdepth : nesting v ≤ depth
      · rw [if_pos hdepth] at hv
        have hrest := ih x (fun y hy => h y (List.mem_cons_of_mem v hy)) fuel
          (by simpa using hfuel) (acc ++ [v]) hx
        simp only [renderMoreItems, List.cons_append, List.append_assoc, scanItems, hv, hcomma,
          hsep, hrest, hnesting, hdepth, true_and, List.nil_append]
      · rw [if_neg hdepth] at hv
        simp only [renderMoreItems, List.cons_append, List.append_assoc, scanItems, hv, hnesting,
          hdepth, false_and, if_false]

theorem scanFields_render (hvalue : ReadsBack floatRepr L depth value) (level : Nat)
    (fields : List (String × Json)) (k : String) (v : Json)
    (h : ∀ p ∈ (k,v) :: fields, Decoded floatRepr p.2) (fuel : Nat) (hfuel : fields.length < fuel)
    (acc : List (String × Json)) {ws : List Char} (hws : ∀ c ∈ ws, isWs c = true)
    (rest : List Char) :
    scanFields value fuel acc (quote k ++ ':' :: ' ' ::
        (render L level v ++ (renderMoreFields L level fields ++ (ws ++ '}' :: rest)))) =
      if nestingFields ((k,v) :: fields) ≤ depth then
        .ok (obj (((k,v) :: fields).foldl (fun acc p => Dict.insert p.1 p.2 acc) acc),rest)
      else .error .recursionError := by
  have hcolon : ∀ t, skipWs (':' :: t) = ':' :: t := fun _ => rfl
  have hquote : ∀ k t, skipWs (L.sep level ++ (quote k ++ t)) = quote k ++ t :=
    fun _ _ => skipWs_append (L.sep_ws level) _
  have hdecoded : Decoded floatRepr v := h (k,v) List.mem_cons_self
  have hspace : ∀ t, skipWs (' ' :: (render L level v ++ t)) = render L level v ++ t :=
    (hdecoded.render_opens level).skipWs
  induction fields generalizing k v acc fuel with
  | nil =>
    cases fuel with
    | zero => cases hfuel
    | succ fuel =>
      have hv := hvalue v hdecoded level (ws ++ '}' :: rest) (ends_ws hws (.cons (by decide) rest))
      have hskip : skipWs (ws ++ '}' :: rest) = '}' :: rest := skipWs_append hws _
      have hnesting : nestingFields [(k,v)] = nesting v := Nat.max_zero _
      rw [hnesting]
      by_cases hdepth : nesting v ≤ depth
      · rw [if_pos hdepth] at hv ⊢
        simp only [quote, renderMoreFields, List.cons_append, List.append_assoc, List.nil_append,
          scanFields, scanUnits_escape, joinSurrogates_units, keyOfCodes_toNat, hcolon, hspace, hv,
          hskip, List.foldl_cons, List.foldl_nil]
      · rw [if_neg hdepth] at hv ⊢
        simp only [quote, renderMoreFields, List.cons_append, List.append_assoc, List.nil_append,
          scanFields, scanUnits_escape, hcolon, hspace, hv]
  | cons p fields ih =>
    obtain ⟨k',v'⟩ := p
    cases fuel with
    | zero => cases hfuel
    | succ fuel =>
      have hv' : Decoded floatRepr v' := h (k',v') (by simp)
      have hv := hvalue v hdecoded level (',' :: (L.sep level ++ (quote k' ++ ':' :: ' ' ::
        (render L level v' ++ (renderMoreFields L level fields ++ (ws ++ '}' :: rest))))))
        (.cons (by decide) _)
      have hcomma : ∀ t, skipWs (',' :: t) = ',' :: t := fun _ => rfl
      have hrest := ih k' v' (fun q hq => h q (List.mem_cons_of_mem _ hq)) fuel (by simpa using hfuel)
        (Dict.insert k v acc) hv' (hv'.render_opens level).skipWs
      have hmore : renderMoreFields L level ((k',v') :: fields) ++ (ws ++ '}' :: rest) =
          ',' :: (L.sep level ++ (quote k' ++ ':' :: ' ' ::
            (render L level v' ++ (renderMoreFields L level fields ++ (ws ++ '}' :: rest))))) := by
        simp only [renderMoreFields, List.cons_append, List.append_assoc]
      have hnesting : nestingFields ((k,v) :: (k',v') :: fields) ≤ depth ↔
          nesting v ≤ depth ∧ nestingFields ((k',v') :: fields) ≤ depth := max_le_iff
      rw [hmore, quote, List.cons_append, List.cons_append, List.append_assoc, List.cons_append,
        List.nil_append, scanFields]
      by_cases hdepth : nesting v ≤ depth
      · rw [if_pos hdepth] at hv
        simp only [scanUnits_escape, joinSurrogates_units, keyOfCodes_toNat, hcolon, hspace, hv,
          hcomma, hquote, hrest, hnesting, hdepth, true_and, List.foldl_cons]
      · rw [if_neg hdepth] at hv
        simp only [scanUnits_escape, hcolon, hspace, hv, hnesting, hdepth, false_and, if_false]

theorem length_renderMoreFields (level : Nat) (fields : List (String × Json)) :
    fields.length ≤ (renderMoreFields L level fields).length := by
  induction fields with
  | nil => exact Nat.le_refl _
  | cons p fields ih =>
    obtain ⟨k,v⟩ := p
    simp only [renderMoreFields, List.length_cons, List.length_append]
    omega

theorem length_renderMoreItems (level : Nat) (items : List Json) :
    items.length ≤ (renderMoreItems L level items).length := by
  induction items with
  | nil => exact Nat.le_refl _
  | cons v items ih =>
    simp only [renderMoreItems, List.length_cons, List.length_append]
    omega

theorem scanArray_render (hvalue : ReadsBack floatRepr L depth value) (level : Nat)
    {items : List Json} (h : ∀ v ∈ items, Decoded floatRepr v) (rest : List Char) :
    scanArray value (renderItems L level items ++ ']' :: rest) =
      if nestingItems items ≤ depth then .ok (arr items,rest) else .error .recursionError := by
  cases items with
  | nil => exact (if_pos (Nat.zero_le _)).symm
  | cons v items =>
    have hv : Decoded floatRepr v := h v List.mem_cons_self
    have hskip : skipWs (renderItems L level (v :: items) ++ ']' :: rest) =
        render L (level + 1) v ++
          (renderMoreItems L (level + 1) items ++ (L.gap level ++ ']' :: rest)) := by
      simp only [renderItems, List.append_assoc]
      rw [skipWs_append (L.gap_ws _)]
      exact (hv.render_opens _).skipWs _
    have hlen : items.length < (render L (level + 1) v ++
        (renderMoreItems L (level + 1) items ++ (L.gap level ++ ']' :: rest))).length + 1 := by
      have := length_renderMoreItems (L := L) (level + 1) items
      simp only [List.length_append, List.length_cons]
      omega
    have hscan := scanItems_render hvalue (level + 1) items v h _ hlen [] (L.gap_ws level) rest
    rw [scanArray, hskip]
    obtain ⟨c,text,hd,_,hc,_⟩ := hv.render_opens (L := L) (level + 1)
    rw [hd, List.cons_append] at hscan ⊢
    split
    · rename_i he
      exact absurd (List.cons.inj he).1 hc
    · exact hscan

theorem scanObject_render (hvalue : ReadsBack floatRepr L depth value) (level : Nat)
    {fields : List (String × Json)} (h : ∀ p ∈ fields, Decoded floatRepr p.2)
    (hnodup : (fields.map Prod.fst).Nodup) (rest : List Char) :
    scanObject value (renderFields L level fields ++ '}' :: rest) =
      if nestingFields fields ≤ depth then .ok (obj fields,rest) else .error .recursionError := by
  cases fields with
  | nil => exact (if_pos (Nat.zero_le _)).symm
  | cons p fields =>
    obtain ⟨k,v⟩ := p
    have hskip : skipWs (renderFields L level ((k,v) :: fields) ++ '}' :: rest) =
        quote k ++ ':' :: ' ' :: (render L (level + 1) v ++
          (renderMoreFields L (level + 1) fields ++ (L.gap level ++ '}' :: rest))) := by
      simp only [renderFields, List.append_assoc, List.cons_append]
      exact skipWs_append (L.gap_ws _) _
    have hlen : fields.length < (quote k ++ ':' :: ' ' :: (render L (level + 1) v ++
        (renderMoreFields L (level + 1) fields ++ (L.gap level ++ '}' :: rest)))).length + 1 := by
      have := length_renderMoreFields (L := L) (level + 1) fields
      simp only [List.length_append, List.length_cons]
      omega
    have hscan := scanFields_render hvalue (level + 1) fields k v h _ hlen [] (L.gap_ws level) rest
    rw [Dict.foldl_insert hnodup, List.nil_append] at hscan
    rw [scanObject, hskip]
    exact hscan

end Containers

section Values
variable {floatRepr : List Char → String} {L : Layout}

/-- A value is read back from its text under any layout, whatever ends the text, if its nesting fits the
stack. -/
theorem scanValue_render (depth : Nat) : ReadsBack floatRepr L depth (scanValue floatRepr depth) := by
  have hflat : ∀ {depth : Nat} {v : Json} {rest : List Char}, nesting v = 0 →
      scanValue floatRepr depth (dumps v ++ rest) = .ok (v,rest) →
      scanValue floatRepr depth (dumps v ++ rest) =
        if nesting v ≤ depth then .ok (v,rest) else .error .recursionError := by
    intro depth v rest hv hscan
    rw [hscan, if_pos (by omega)]
  induction depth with
  | zero =>
    intro v h level rest hrest
    cases h with
    | null => exact hflat rfl (scanValue_dumps floatRepr 0 (.inl rfl) rest)
    | bool b => cases b <;> rfl
    | int h => exact hflat rfl (scanValue_int floatRepr 0 h hrest)
    | float h => exact hflat rfl (scanValue_float h 0 hrest)
    | str s => exact hflat rfl (scanValue_dumps floatRepr 0 (.inr ⟨s,rfl⟩) rest)
    | illFormed h hlone => exact hflat rfl (scanValue_illFormed h hlone 0 rest)
    | arr h => rfl
    | obj h hnodup => rfl
  | succ depth ih =>
    intro v h level rest hrest
    cases h with
    | null => exact hflat rfl (scanValue_dumps floatRepr (depth + 1) (.inl rfl) rest)
    | bool b => cases b <;> exact hflat rfl rfl
    | int h => exact hflat rfl (scanValue_int floatRepr (depth + 1) h hrest)
    | float h => exact hflat rfl (scanValue_float h (depth + 1) hrest)
    | str s => exact hflat rfl (scanValue_dumps floatRepr (depth + 1) (.inr ⟨s,rfl⟩) rest)
    | illFormed h hlone => exact hflat rfl (scanValue_illFormed h hlone (depth + 1) rest)
    | arr h =>
      simp only [render, List.cons_append, List.append_assoc, List.nil_append, scanValue, nesting,
        Nat.add_le_add_iff_right]
      exact scanArray_render ih level h rest
    | obj h hnodup =>
      simp only [render, List.cons_append, List.append_assoc, List.nil_append, scanValue, nesting,
        Nat.add_le_add_iff_right]
      exact scanObject_render ih level h hnodup rest

/-- `loads` reads a value back from any layout of it, or runs out of stack. -/
theorem loads_render {interp : Interp} {v : Json} (h : Decoded interp.floatRepr v) (level : Nat) :
    loads interp (render L level v) =
      if nesting v ≤ interp.depth then .ok v else .error .recursionError := by
  have hscan := scanValue_render (L := L) interp.depth v h level [] ends_nil
  have hskip := (h.render_opens (L := L) level).skipWs []
  rw [List.append_nil] at hscan hskip
  have hhead : (render L level v).head? ≠ some '\uFEFF' := by
    obtain ⟨c,text,hd,_,_,hc⟩ := h.render_opens (L := L) level
    rw [hd]
    exact fun he => hc (Option.some.inj he)
  rw [loads, if_neg hhead, hskip, hscan]
  split_ifs <;> rfl

/-- `loads` reads a value back from the text that `dumps` made of it, or runs out of stack. -/
theorem loads_decoded {interp : Interp} {v : Json} (h : Decoded interp.floatRepr v) :
    loads interp (dumps v) =
      if nesting v ≤ interp.depth then .ok v else .error .recursionError := by
  rw [← render_compact 0]
  exact loads_render h 0

theorem Readable.decoded {depth : Nat} {v : Json} (h : Readable depth v) :
    Decoded floatRepr v ∧ nesting v ≤ depth := by
  induction h with
  | null => exact ⟨.null,Nat.zero_le _⟩
  | bool b => exact ⟨.bool b,Nat.zero_le _⟩
  | int h => exact ⟨.int h,Nat.zero_le _⟩
  | str s => exact ⟨.str s,Nat.zero_le _⟩
  | arr h ih =>
    refine ⟨.arr (fun v hv => (ih v hv).1),Nat.succ_le_succ ?_⟩
    exact nestingItems_le_iff.mpr (fun v hv => (ih v hv).2)
  | obj h hnodup ih =>
    refine ⟨.obj (fun p hp => (ih p hp).1) hnodup,Nat.succ_le_succ ?_⟩
    exact nestingFields_le_iff.mpr (fun p hp => (ih p hp).2)

/-- `loads` reads a value back from the text `dumps` made of it. -/
theorem loads_readable {interp : Interp} {v : Json} (h : Readable interp.depth v) :
    loads interp (dumps v) = .ok v := by
  obtain ⟨hdecoded,hdepth⟩ := h.decoded
  rw [loads_decoded hdecoded, if_pos hdepth]

theorem FlatObject.readable {fields : List (String × Json)} (h : FlatObject fields) {depth : Nat}
    (hdepth : 0 < depth) : Readable depth (obj fields) := by
  obtain ⟨depth,rfl⟩ := Nat.exists_eq_succ_of_ne_zero (Nat.ne_of_gt hdepth)
  refine .obj (fun p hp => ?_) h.nodup
  rcases h.flat p hp with hv | ⟨s,hv⟩
  · rw [hv]
    exact .null
  · rw [hv]
    exact .str s

/-- `loads` reads an object back from the text `dumps` made of it. -/
theorem loads_dumps {interp : Interp} (hdepth : 0 < interp.depth)
    {fields : List (String × Json)} (h : FlatObject fields) :
    loads interp (dumps (obj fields)) = .ok (obj fields) :=
  loads_readable (h.readable hdepth)

end Values

end NanoClaw.Json
