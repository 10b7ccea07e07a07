import NanoClaw.Messages.Tags

/-! What is left of a text when the internal blocks are cut out of it: the public pieces around
them. No piece before the last holds a tag that opens a block, but two of them may join to one. -/
namespace NanoClaw.Router
open PyText

/-- `<internal>...</internal>` somewhere in a text. -/
def HasBlock (s : List Char) : Prop :=
  ∃ a o rest, Matches openTag o ∧ s = a ++ (o ++ rest) ∧ Occurs closeTag rest

/-- The pieces of a text around the blocks that are cut out. -/
def publicPieces : Nat → List Char → List (List Char)
  | 0, s => [s]
  | fuel + 1, s =>
    match splitLiteral openTag s with
    | none => [s]
    | some (before, inner) =>
      match splitLiteral closeTag inner with
      | none => [s]
      | some (_, rest) => before :: publicPieces fuel rest

/-- Pieces that no block is left in. -/
inductive Cleared : List (List Char) → Prop where
  | last {p : List Char} (h : ¬HasBlock p) : Cleared [p]
  | cons {p : List Char} {ps : List (List Char)} (h : ¬Occurs openTag p) (hs : Cleared ps) :
      Cleared (p :: ps)

/-- An opening tag comes together over one or more of the cuts, and a closing tag follows. -/
def Reforms (pieces : List (List Char)) : Prop :=
  ∃ front back a x y b, pieces = front ++ back ∧ front.flatten = a ++ x ∧ back.flatten = y ++ b ∧
    x ≠ [] ∧ y ≠ [] ∧ Matches openTag (x ++ y) ∧ Occurs closeTag b

theorem removeInternal_eq (fuel : Nat) (s : List Char) :
    removeInternal fuel s = (publicPieces fuel s).flatten := by
  induction fuel generalizing s with
  | zero => simp [removeInternal, publicPieces]
  | succ fuel ih =>
    rw [removeInternal, publicPieces]
    cases splitLiteral openTag s with
    | none => simp
    | some p =>
      simp only
      cases splitLiteral closeTag p.2 with
      | none => simp
      | some q => simp only [ih, List.flatten_cons]

section Blocks
variable {s : List Char}

theorem HasBlock.append_left (h : HasBlock s) (p : List Char) : HasBlock (p ++ s) := by
  obtain ⟨a,o,rest,ho,rfl,hclose⟩ := h
  exact ⟨p ++ a,o,rest,ho,(List.append_assoc ..).symm,hclose⟩

theorem HasBlock.append_right (h : HasBlock s) (q : List Char) : HasBlock (s ++ q) := by
  obtain ⟨a,o,rest,ho,rfl,hclose⟩ := h
  exact ⟨a,o,rest ++ q,ho,by simp only [List.append_assoc],hclose.append_right q⟩

theorem HasBlock.occurs (h : HasBlock s) : Occurs openTag s := by
  obtain ⟨a,o,rest,ho,hs,_⟩ := h
  exact ⟨a,o,rest,ho,hs⟩

/-- Without a closing tag behind the first opening one there is no block. -/
theorem not_hasBlock {before inner : List Char}
    (hopen : splitLiteral openTag s = some (before,inner)) (hclose : ¬Occurs closeTag inner) :
    ¬HasBlock s := by
  rintro ⟨a,o,rest,ho,rfl,hocc⟩
  obtain ⟨⟨t,ht,hs⟩,hbefore⟩ := splitLiteral_eq_some tag_open.ne_nil hopen
  have hfirst : before.length ≤ a.length := by
    by_contra hlt
    have hprefix : before <+: a ++ (o ++ rest) := ⟨t ++ inner,hs.symm⟩
    obtain ⟨w,rfl⟩ : a <+: before :=
      List.prefix_of_prefix_length_le (List.prefix_append ..) hprefix (by omega)
    rw [tag_open.split ho (fun h => hbefore (h.append_right w))] at hopen
    have hsame := congrArg List.length (Prod.mk.inj (Option.some.inj hopen)).1
    omega
  have hrest : rest <:+ a ++ (o ++ rest) := (List.suffix_append o rest).trans (List.suffix_append a _)
  have hinner : inner <:+ a ++ (o ++ rest) := by
    rw [hs]
    exact (List.suffix_append t inner).trans (List.suffix_append before _)
  have hsuffix : rest <:+ inner := by
    apply List.suffix_of_suffix_length_le hrest hinner
    have hlen := congrArg List.length hs
    have ho := ho.length_eq
    have ht := ht.length_eq
    simp only [List.length_append] at hlen
    omega
  obtain ⟨w,rfl⟩ := hsuffix
  exact hclose (hocc.append_left w)

/-- A character that is no tag's first one can go in front of a block. -/
theorem HasBlock.of_cons {c : Char} (hc : c ≠ '<') (h : HasBlock (c :: s)) : HasBlock s := by
  obtain ⟨a,o,rest,ho,hs,hclose⟩ := h
  cases a with
  | nil =>
    obtain ⟨⟨o',rfl,_⟩,_⟩ := tag_open.shape ho
    exact absurd (List.cons_eq_cons.mp hs).1 hc
  | cons d a => exact ⟨a,o,rest,ho,(List.cons_eq_cons.mp hs).2,hclose⟩

/-- A character that is no tag's last one can go behind a closing tag. -/
theorem Occurs.of_concat {c : Char} (hc : c ≠ '>') (h : Occurs closeTag (s ++ [c])) :
    Occurs closeTag s := by
  obtain ⟨a,t,b,ht,hs⟩ := h
  rcases List.eq_nil_or_concat b with rfl | ⟨b,d,rfl⟩
  · obtain ⟨_,t',rfl⟩ := tag_close.shape ht
    rw [List.append_nil, ← List.append_assoc] at hs
    exact absurd (List.append_singleton_inj.mp hs).2 hc
  · rw [List.concat_eq_append, ← List.append_assoc, ← List.append_assoc] at hs
    obtain ⟨rfl,_⟩ := List.append_singleton_inj.mp hs
    exact ⟨a,t,b,ht,List.append_assoc ..⟩

theorem HasBlock.of_concat {c : Char} (hc : c ≠ '>') (h : HasBlock (s ++ [c])) : HasBlock s := by
  obtain ⟨a,o,rest,ho,hs,hclose⟩ := h
  rcases List.eq_nil_or_concat rest with rfl | ⟨rest,d,rfl⟩
  · exact absurd hclose (not_occurs_nil tag_close.ne_nil)
  · rw [List.concat_eq_append] at hs hclose
    rw [← List.append_assoc, ← List.append_assoc] at hs
    obtain ⟨rfl,rfl⟩ := List.append_singleton_inj.mp hs
    exact ⟨a,o,rest,ho,List.append_assoc ..,hclose.of_concat hc⟩

/-- White space around a text belongs to no block. -/
theorem hasBlock_strip : HasBlock (strip s) ↔ HasBlock s := by
  obtain ⟨a,b,hs,ha,hb⟩ := strip_spec s
  constructor
  · intro h
    rw [hs]
    exact (h.append_right b).append_left a
  · intro h
    rw [hs] at h
    have hleft : HasBlock (strip s ++ b) := by
      clear hs hb
      induction a with
      | nil => exact h
      | cons c a ih =>
        have hc : c ≠ '<' := by
          rintro rfl
          exact absurd (ha _ (List.mem_cons_self ..)) (by decide)
        exact ih (fun d hd => ha d (List.mem_cons_of_mem _ hd)) (h.of_cons hc)
    clear hs ha h
    induction b using List.reverseRecOn with
    | nil => exact List.append_nil (strip s) ▸ hleft
    | append_singleton b c ih =>
      have hc : c ≠ '>' := by
        rintro rfl
        exact absurd (hb '>' (by simp)) (by decide)
      rw [← List.append_assoc] at hleft
      exact ih (fun d hd => hb d (List.mem_append_left _ hd)) (hleft.of_concat hc)

end Blocks

/-- The search leaves no block in its pieces. -/
theorem publicPieces_cleared {fuel : Nat} {s : List Char} (h : s.length ≤ fuel) :
    Cleared (publicPieces fuel s) := by
  induction fuel generalizing s with
  | zero =>
    rw [List.length_eq_zero_iff.mp (Nat.le_zero.mp h)]
    exact .last (fun hblock => not_occurs_nil tag_open.ne_nil hblock.occurs)
  | succ fuel ih =>
    rw [publicPieces]
    cases hopen : splitLiteral openTag s with
    | none =>
      have hocc := (splitLiteral_eq_none_iff tag_open.ne_nil).mp hopen
      exact .last (fun hblock => hocc hblock.occurs)
    | some p =>
      obtain ⟨before,inner⟩ := p
      simp only
      cases hclose : splitLiteral closeTag inner with
      | none => exact .last (not_hasBlock hopen ((splitLiteral_eq_none_iff tag_close.ne_nil).mp hclose))
      | some q =>
        obtain ⟨block,rest⟩ := q
        obtain ⟨⟨o,ho,rfl⟩,hbefore⟩ := splitLiteral_eq_some tag_open.ne_nil hopen
        obtain ⟨⟨c,hc,rfl⟩,_⟩ := splitLiteral_eq_some tag_close.ne_nil hclose
        refine .cons hbefore (ih ?_)
        have hlen : o.length = 10 := ho.length_eq
        simp only [List.length_append] at h
        omega

/-- Where no piece holds a block, a block of the whole is one whose opening tag lies over a cut. -/
theorem Cleared.hasBlock_iff {pieces : List (List Char)} (h : Cleared pieces) :
    HasBlock pieces.flatten ↔ Reforms pieces := by
  constructor
  · intro hblock
    induction h with
    | last h =>
      rw [List.flatten_singleton] at hblock
      exact absurd hblock h
    | @cons p ps hp _ ih =>
      have hlater : HasBlock ps.flatten → Reforms (p :: ps) := by
        intro hps
        obtain ⟨front,back,a,x,y,b,rfl,hfront,hrest⟩ := ih hps
        exact ⟨p :: front,back,p ++ a,x,y,b,rfl,by simp [hfront],hrest⟩
      obtain ⟨a,o,rest,ho,hs,hclose⟩ := hblock
      rw [List.flatten_cons] at hs
      rcases List.append_eq_append_iff.mp hs with ⟨w,rfl,hw⟩ | ⟨w,rfl,hw⟩
      · exact hlater ⟨w,o,rest,ho,hw,hclose⟩
      · rcases List.append_eq_append_iff.mp hw with ⟨w',rfl,hw'⟩ | ⟨w',rfl,hw'⟩
        · exact absurd ⟨a,o,w',ho,rfl⟩ hp
        · -- The tag begins with `w` in this piece and goes on with `w'` in the later ones.
          rcases eq_or_ne w [] with rfl | hw
          · exact hlater ⟨[],w',rest,ho,hw',hclose⟩
          · rcases eq_or_ne w' [] with rfl | hne
            · exact absurd ⟨a,w,[],List.append_nil w ▸ ho,by simp⟩ hp
            · exact ⟨[a ++ w],ps,a,w,w',rest,rfl,List.flatten_singleton,hw',hw,hne,ho,hclose⟩
  · rintro ⟨front,back,a,x,y,b,rfl,hfront,hback,_,_,hopen,hclose⟩
    exact ⟨a,x ++ y,b,hopen,by simp [hfront, hback],hclose⟩

theorem toList_formatOutbound (rawText : String) : (formatOutbound rawText).toList =
    strip (publicPieces rawText.length rawText.toList).flatten := by
  rw [formatOutbound, stripInternalTags, String.toList_ofList, removeInternal_eq]

/-- Nothing is cut out of a text without a block. -/
theorem removeInternal_of_not_hasBlock {s : List Char} (h : ¬HasBlock s) (fuel : Nat) :
    removeInternal fuel s = s := by
  cases fuel with
  | zero => rfl
  | succ fuel =>
    rw [removeInternal]
    cases hopen : splitLiteral openTag s with
    | none => rfl
    | some p =>
      obtain ⟨before,inner⟩ := p
      simp only
      cases hclose : splitLiteral closeTag inner with
      | none => rfl
      | some q =>
        obtain ⟨block,rest⟩ := q
        obtain ⟨⟨o,ho,rfl⟩,_⟩ := splitLiteral_eq_some tag_open.ne_nil hopen
        obtain ⟨⟨c,hc,rfl⟩,_⟩ := splitLiteral_eq_some tag_close.ne_nil hclose
        exact absurd ⟨before,o,_,ho,rfl,block,c,rest,hc,rfl⟩ h

/-- What goes out holds no block, and stays as it is when it goes through once more, exactly when
no opening tag comes together where blocks were cut out. -/
theorem internal_removed_iff (rawText : String) :
    (¬HasBlock (formatOutbound rawText).toList ∧
        formatOutbound (formatOutbound rawText) = formatOutbound rawText) ↔
      ¬Reforms (publicPieces rawText.length rawText.toList) := by
  have hblock : HasBlock (formatOutbound rawText).toList ↔
      Reforms (publicPieces rawText.length rawText.toList) := by
    rw [toList_formatOutbound, hasBlock_strip, (publicPieces_cleared String.length_toList.le).hasBlock_iff]
  rw [hblock]
  refine ⟨fun h => h.1,fun h => ⟨h,?_⟩⟩
  rw [← hblock] at h
  apply String.toList_injective
  have hagain : (formatOutbound (formatOutbound rawText)).toList =
      strip (formatOutbound rawText).toList := by
    conv_lhs => rw [formatOutbound, stripInternalTags, String.toList_ofList]
    rw [removeInternal_of_not_hasBlock h]
  rw [hagain, toList_formatOutbound, strip_strip]

/-- Two halves of a tag around a block join to a tag, and the secret behind it goes out. -/
theorem nested_block_stays :
    formatOutbound "<inter<internal>x</internal>nal>secret</internal>" = "<internal>secret</internal>" ∧
      HasBlock "<internal>secret</internal>".toList ∧
      formatOutbound "<internal>secret</internal>" = "" :=
  ⟨by decide +kernel,⟨[],openTag,_,rfl,rfl,"secret".toList,closeTag,[],rfl,rfl⟩,by decide +kernel⟩

/-- A public piece with the block behind it. -/
structure Block where
  before : List Char
  opening : List Char
  inner : List Char
  closing : List Char
  noOpening : ¬Occurs openTag before
  opens : Matches openTag opening
  noClosing : ¬Occurs closeTag inner
  closes : Matches closeTag closing

def Block.text (b : Block) : List Char := b.before ++ (b.opening ++ (b.inner ++ b.closing))

theorem length_blocks (blocks : List Block) : blocks.length ≤ (blocks.flatMap Block.text).length := by
  induction blocks with
  | nil => exact le_refl _
  | cons b blocks ih =>
    have hopen : b.opening.length = 10 := b.opens.length_eq
    simp only [List.flatMap_cons, Block.text, List.length_append, List.length_cons]
    omega

/-- One turn of the substitution takes one block away, if there is one. -/
theorem removeInternal_blocks {last : List Char} (hlast : ¬Occurs openTag last) (blocks : List Block)
    {fuel : Nat} (hfuel : blocks.length ≤ fuel) :
    removeInternal fuel (blocks.flatMap Block.text ++ last) = blocks.flatMap Block.before ++ last := by
  induction blocks generalizing fuel with
  | nil => exact removeInternal_of_not_hasBlock (fun h => hlast h.occurs) fuel
  | cons b blocks ih =>
    obtain ⟨fuel,rfl⟩ := Nat.exists_eq_add_of_lt (Nat.lt_of_succ_le hfuel)
    have htext : (b :: blocks).flatMap Block.text ++ last =
        b.before ++ (b.opening ++ (b.inner ++ (b.closing ++ (blocks.flatMap Block.text ++ last)))) := by
      simp only [List.flatMap_cons, Block.text, List.append_assoc]
    rw [htext, removeInternal, tag_open.split b.opens b.noOpening]
    simp only [tag_close.split b.closes b.noClosing, List.flatMap_cons, List.append_assoc]
    rw [ih (by omega)]

/-- The public pieces go out, all of them and nothing else, but for the white space around them. -/
theorem public_text_kept (blocks : List Block) {last : List Char} (hlast : ¬Occurs openTag last) :
    formatOutbound (String.ofList (blocks.flatMap Block.text ++ last)) =
      String.ofList (strip (blocks.flatMap Block.before ++ last)) := by
  have hfuel : blocks.length ≤ (String.ofList (blocks.flatMap Block.text ++ last)).length := by
    rw [String.length_ofList, List.length_append]
    exact (length_blocks blocks).trans (Nat.le_add_right _ _)
  rw [formatOutbound, stripInternalTags, String.toList_ofList, removeInternal_blocks hlast blocks hfuel]

private def partialTags : Block where
  before := "a <inter".toList
  opening := "<INTERNAL>".toList
  inner := "x</internal".toList
  closing := "</Internal>".toList
  noOpening := (splitLiteral_eq_none_iff tag_open.ne_nil).mp (by decide +kernel)
  opens := by decide +kernel
  noClosing := (splitLiteral_eq_none_iff tag_close.ne_nil).mp (by decide +kernel)
  closes := by decide +kernel

theorem public_text_kept_partial_tags :
    formatOutbound "a <inter<INTERNAL>x</internal</Internal> b</internal>" = "a <inter b</internal>" := by
  have hlast : ¬Occurs openTag " b</internal>".toList :=
    (splitLiteral_eq_none_iff tag_open.ne_nil).mp (by decide +kernel)
  have hkept := public_text_kept [partialTags] hlast
  have htext : String.ofList ([partialTags].flatMap Block.text ++ " b</internal>".toList) =
      "a <inter<INTERNAL>x</internal</Internal> b</internal>" := by decide +kernel
  have hpublic : String.ofList (strip ([partialTags].flatMap Block.before ++ " b</internal>".toList)) =
      "a <inter b</internal>" := by decide +kernel
  rwa [htext, hpublic] at hkept

end NanoClaw.Router
