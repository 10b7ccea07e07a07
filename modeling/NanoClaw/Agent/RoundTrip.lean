import NanoClaw.Agent.Leftover

/-! The framing over whole outputs. Frames are read one by one: a frame whose payload holds
no end marker gives its output back, any other gives nothing or outputs of an empty object. -/
namespace NanoClaw.Framing
open Json Cut PyText

theorem extractMarkers_eq (host : Host) (text : List Char) :
    extractMarkers host text =
      match nextFrame text with
      | none => .ok []
      | some (raw, after) =>
        match decodeRaw host raw with
        | .error e => .error e
        | .ok out => (extractMarkers host after).map (out.toList ++ ·) := by
  rw [extractMarkers]
  split
  · rename_i h
    rw [h]
  · rename_i raw after h
    cases hraw : decodeRaw host raw <;> simp only [h, hraw]

theorem extractMarkers_congr (host : Host) {s t : List Char} (h : nextFrame s = nextFrame t) :
    extractMarkers host s = extractMarkers host t := by
  rw [extractMarkers_eq, h, ← extractMarkers_eq]

/-- Text without a start marker is passed over. -/
theorem extractMarkers_skip (host : Host) {a : List Char} (ha : cut outputStartMarker a = none)
    (b : List Char) : extractMarkers host (a ++ '\n' :: b) = extractMarkers host b := by
  apply extractMarkers_congr
  have hcut := cut_skip marker_start.ne_nil (marker_start.foreign (c := '\n') (by decide)) ha b
  unfold nextFrame
  rw [hcut]
  cases cut outputStartMarker b <;> rfl

theorem extractMarkers_newline (host : Host) (b : List Char) :
    extractMarkers host ('\n' :: b) = extractMarkers host b :=
  extractMarkers_skip host (marker_start.cut_none List.not_mem_nil) b

/-- The text of the payload's object. -/
def Payload.text (p : Payload) : List Char := dumps (obj p.fields)

theorem optional_flat (s : Option String) : Flat (optional s) := by
  cases s with
  | none => exact Or.inl rfl
  | some s => exact Or.inr ⟨s,rfl⟩

theorem Payload.plain (p : Payload) : ∀ q ∈ p.fields, PlainField q := by
  obtain ⟨status,result,newSessionId,error⟩ := p
  intro q hq
  have hkey : ∀ k : String, k.toList ≠ [] ∧ k.toList.all Char.isAlpha = true → PlainKey k :=
    fun k h => ⟨h.1,List.all_eq_true.mp h.2⟩
  have hstatus := hkey "status" (by decide)
  have hresult := hkey "result" (by decide)
  have hsession := hkey "newSessionId" (by decide)
  have herror := hkey "error" (by decide)
  simp only [Payload.fields, List.mem_append, List.mem_cons, List.not_mem_nil, or_false,
    List.mem_map] at hq
  rcases hq with (rfl | rfl) | ⟨s,_,rfl⟩ | ⟨s,_,rfl⟩
  · exact ⟨hstatus,Or.inr ⟨status,rfl⟩⟩
  · exact ⟨hresult,optional_flat result⟩
  · exact ⟨hsession,optional_flat s⟩
  · exact ⟨herror,optional_flat s⟩

theorem Payload.flatObject (p : Payload) : FlatObject p.fields := by
  refine ⟨fun q hq => (p.plain q hq).2,?_⟩
  obtain ⟨status,result,newSessionId,error⟩ := p
  cases newSessionId <;> cases error <;> simp [Payload.fields]

theorem Payload.text_eq (p : Payload) : ∃ fields, p.fields = ("status",str p.status) :: fields ∧
    p.text = '{' :: (quote "status" ++ ':' :: ' ' :: (dumps (str p.status) ++ closing fields)) := by
  refine ⟨p.fields.tail,rfl,?_⟩
  have hfields : p.fields = ("status",str p.status) :: p.fields.tail := rfl
  conv_lhs => rw [Payload.text, hfields]
  simp only [dumps, dumpsFields, closing, List.append_assoc, List.cons_append]

private theorem cut_brace (b : List Char) : cut outputEndMarker ('{' :: b) =
    (cut outputEndMarker b).map (fun p => ('{' :: p.1,p.2)) :=
  cut_skip marker_end.ne_nil (marker_end.foreign (by decide)) (marker_end.cut_none List.not_mem_nil) b

/-- Where the first end marker in a payload's text stands. -/
theorem Payload.cut_text {p : Payload} {u w : List Char}
    (h : cut outputEndMarker p.text = some (u,w)) :
    ∃ done k s₁ s₂ more,
      p.fields = done ++ (k,str (String.ofList (s₁ ++ (outputEndMarker ++ s₂)))) :: more ∧
      u = '{' :: (opening done ++ (quote k ++ ':' :: ' ' :: '"' :: escape s₁)) ∧
      w = escape s₂ ++ '"' :: closing more := by
  obtain ⟨fields,hfields,htext⟩ := p.text_eq
  have hplain := p.plain
  rw [hfields] at hplain
  rw [htext, cut_brace] at h
  obtain ⟨⟨u',w'⟩,hcut,hpair⟩ := Option.map_eq_some_iff.mp h
  cases hpair
  obtain ⟨done,k,s₁,s₂,more,hsplit,rfl,rfl⟩ := marker_end.cut_fields fields _ _ hplain hcut
  exact ⟨done,k,s₁,s₂,more,hfields.trans hsplit,rfl,rfl⟩

theorem writeOutput_append (p : Payload) (rest : List Char) :
    writeOutput p ++ rest = outputStartMarker ++ '\n' :: (p.text ++ '\n' ::
      (outputEndMarker ++ '\n' :: rest)) := by
  simp only [writeOutput, Payload.text, List.append_assoc, List.cons_append, List.nil_append]

/-- The next frame of a text that starts with one: the first end marker behind the newline
ends it. -/
theorem nextFrame_frame {body u w : List Char} (h : cut outputEndMarker body = some (u,w)) :
    nextFrame (outputStartMarker ++ '\n' :: body) = some (strip ('\n' :: u),w) := by
  have hend := cut_skip marker_end.ne_nil (marker_end.foreign (c := '\n') (by decide))
    (a := outputStartMarker) (by decide) body
  unfold nextFrame
  rw [cut_front]
  simp only [hend, h, Option.map_some, List.drop_left]

theorem cut_body (text rest : List Char) :
    cut outputEndMarker (text ++ '\n' :: (outputEndMarker ++ '\n' :: rest)) =
      match cut outputEndMarker text with
      | some (u, w) => some (u,w ++ '\n' :: (outputEndMarker ++ '\n' :: rest))
      | none => some (text ++ ['\n'],'\n' :: rest) := by
  rw [cut_append_cons marker_end.ne_nil (marker_end.foreign (by decide)), cut_front]
  cases cut outputEndMarker text <;> rfl

theorem strip_object (fields : List (String × Json)) :
    strip ('\n' :: (dumps (obj fields) ++ ['\n'])) = dumps (obj fields) := by
  have htext : dumps (obj fields) = '{' :: dumpsFields fields ++ ['}'] := rfl
  have hleft : lstripBy isSpace ('\n' :: (dumps (obj fields) ++ ['\n'])) =
      dumps (obj fields) ++ ['\n'] := by
    rw [htext]
    rfl
  rw [strip, stripBy, hleft, rstripBy, List.rdropWhile_concat_pos _ _ _ (by decide), htext,
    List.rdropWhile_concat_neg _ _ _ (by decide)]

/-- A frame without an end marker inside gives its object back, if the host can read it. -/
theorem extractMarkers_object (host : Host) {fields : List (String × Json)}
    (hclean : cut outputEndMarker (dumps (obj fields)) = none)
    (hread : loads host.toInterp (dumps (obj fields)) = .ok (obj fields)) (rest : List Char) :
    extractMarkers host (writeObject fields ++ rest) =
      (extractMarkers host rest).map (decodeFields host fields :: ·) := by
  have hbody := cut_body (dumps (obj fields)) rest
  rw [hclean] at hbody
  have hne : dumps (obj fields) ≠ [] := List.cons_ne_nil _ _
  have hraw : decodeRaw host (dumps (obj fields)) = .ok (some (decodeFields host fields)) := by
    rw [decodeRaw, if_neg hne, hread]
  have hwritten : writeObject fields ++ rest = outputStartMarker ++ '\n' ::
      (dumps (obj fields) ++ '\n' :: (outputEndMarker ++ '\n' :: rest)) := by
    simp only [writeObject, List.append_assoc, List.cons_append, List.nil_append]
  rw [hwritten, extractMarkers_eq, nextFrame_frame hbody]
  simp only [strip_object, hraw, extractMarkers_newline]
  rfl

/-- A frame without an end marker inside gives its payload back. -/
theorem extractMarkers_clean (host : Host) {p : Payload} (h : cut outputEndMarker p.text = none)
    (rest : List Char) : extractMarkers host (writeOutput p ++ rest) =
      (extractMarkers host rest).map (decodeFields host p.fields :: ·) :=
  extractMarkers_object host h (loads_dumps host.room p.flatObject) rest

/-- The output an object without fields stands for. -/
def emptyOutput : ContainerOutput := ⟨str "error",null,null,null⟩

theorem decodeRaw_inside (host : Host) {w raw : List Char} (h : Inside w)
    (hraw : raw <+: w ++ ['\n']) {out : Option ContainerOutput}
    (hout : decodeRaw host (strip raw) = .ok out) : ∀ o ∈ out, o = emptyOutput := by
  rw [decodeRaw] at hout
  split at hout
  · cases hout
    simp
  · split at hout
    · cases hout
      simp
    · cases hout
    · rename_i fields heq
      cases hout
      obtain rfl := h.loads hraw heq
      intro o ho
      exact (Option.some.inj ho).symm
    · cases hout

private theorem drop_marker {u b t : List Char} (h : outputStartMarker ++ b = u ++ t) :
    u.drop outputStartMarker.length <+: b := by
  have hp : u <+: outputStartMarker ++ b := ⟨t,h.symm⟩
  simpa using hp.drop outputStartMarker.length

/-- One turn on a frame that begins inside a string: at most an output of an empty object. -/
private theorem extractMarkers_turn (host : Host) {text raw after : List Char}
    {outs : List ContainerOutput} (h : extractMarkers host text = .ok outs)
    (hnext : nextFrame text = some (strip raw,after))
    (hraw : ∃ b, Inside b ∧ raw <+: b ++ ['\n']) :
    ∃ junk outs', outs = junk ++ outs' ∧ (∀ o ∈ junk, o = emptyOutput) ∧
      extractMarkers host after = .ok outs' := by
  obtain ⟨b,hb,hraw⟩ := hraw
  rw [extractMarkers_eq, hnext] at h
  cases hout : decodeRaw host (strip raw) with
  | error e =>
    simp only [hout] at h
    cases h
  | ok out =>
    simp only [hout] at h
    cases hafter : extractMarkers host after with
    | error e =>
      rw [hafter] at h
      cases h
    | ok outs' =>
      rw [hafter] at h
      cases h
      exact ⟨out.toList,outs',rfl,
        fun o ho => decodeRaw_inside host hb hraw hout o (Option.mem_toList.mp ho),rfl⟩

/-- The rest of a frame, read from inside one of its strings on, gives only outputs of empty
objects, and the frames behind it are read as they stand. -/
theorem extractMarkers_inside (host : Host) (rest v : List Char) (hv : Inside v)
    {outs : List ContainerOutput}
    (h : extractMarkers host (v ++ '\n' :: (outputEndMarker ++ '\n' :: rest)) = .ok outs) :
    ∃ junk outs', outs = junk ++ outs' ∧ (∀ o ∈ junk, o = emptyOutput) ∧
      extractMarkers host rest = .ok outs' := by
  cases hstart : cut outputStartMarker v with
  | none =>
    rw [extractMarkers_skip host hstart,
      extractMarkers_skip host (a := outputEndMarker) (by decide)] at h
    exact ⟨[],outs,rfl,by simp,h⟩
  | some p =>
    obtain ⟨a,b⟩ := p
    have hb : Inside b := hv.cut marker_start hstart
    have hlen := congrArg List.length (cut_eq_some hstart)
    have hnewline : '\n' ∉ outputStartMarker := marker_start.foreign (by decide)
    have hnewline' : '\n' ∉ outputEndMarker := marker_end.foreign (by decide)
    have hcut := cut_stop marker_start.ne_nil hnewline hstart (outputEndMarker ++ '\n' :: rest)
    have hassoc : outputStartMarker ++ (b ++ '\n' :: (outputEndMarker ++ '\n' :: rest)) =
        (outputStartMarker ++ b) ++ '\n' :: (outputEndMarker ++ '\n' :: rest) := by
      rw [List.append_assoc]
    cases hend : cut outputEndMarker (outputStartMarker ++ b) with
    | some q =>
      obtain ⟨u,w⟩ := q
      have hw : Inside w := (hb.marker marker_start).cut marker_end hend
      have hnext := cut_stop marker_end.ne_nil hnewline' hend (outputEndMarker ++ '\n' :: rest)
      have hframe : nextFrame (v ++ '\n' :: (outputEndMarker ++ '\n' :: rest)) =
          some (strip (u.drop outputStartMarker.length),
            w ++ '\n' :: (outputEndMarker ++ '\n' :: rest)) := by
        rw [nextFrame, hcut]
        simp only [hassoc, hnext, Option.map_some]
      obtain ⟨junk,outs',rfl,hjunk,hafter⟩ := extractMarkers_turn host h hframe
        ⟨b,hb,(drop_marker ((cut_eq_some hend).trans (List.append_assoc ..))).trans
          (List.prefix_append b _)⟩
      have hw' := congrArg List.length (cut_eq_some hend)
      obtain ⟨junk₂,outs₂,rfl,hjunk₂,hrest⟩ := extractMarkers_inside host rest w hw hafter
      refine ⟨junk ++ junk₂,outs₂,(List.append_assoc ..).symm,?_,hrest⟩
      intro o ho
      exact (List.mem_append.mp ho).elim (hjunk o) (hjunk₂ o)
    | none =>
      have hnext := cut_skip marker_end.ne_nil hnewline' hend (outputEndMarker ++ '\n' :: rest)
      rw [cut_front] at hnext
      have hframe : nextFrame (v ++ '\n' :: (outputEndMarker ++ '\n' :: rest)) =
          some (strip (b ++ ['\n']),'\n' :: rest) := by
        rw [nextFrame, hcut]
        simp only [hassoc, hnext, Option.map_some]
        rw [List.append_assoc, List.drop_left]
      obtain ⟨junk,outs',rfl,hjunk,hafter⟩ := extractMarkers_turn host h hframe
        ⟨b,hb,List.prefix_refl _⟩
      rw [extractMarkers_newline] at hafter
      exact ⟨junk,outs',rfl,hjunk,hafter⟩
termination_by v.length
decreasing_by
  simp only [List.length_append] at hlen hw'
  have : outputEndMarker.length = 25 := rfl
  omega

/-- A frame with an end marker inside gives at most outputs of empty objects. -/
theorem extractMarkers_cut (host : Host) {p : Payload} {u w : List Char}
    (h : cut outputEndMarker p.text = some (u,w)) (rest : List Char) {outs : List ContainerOutput}
    (ho : extractMarkers host (writeOutput p ++ rest) = .ok outs) :
    ∃ junk outs', outs = junk ++ outs' ∧ (∀ o ∈ junk, o = emptyOutput) ∧
      extractMarkers host rest = .ok outs' := by
  have hbody := cut_body p.text rest
  rw [h] at hbody
  obtain ⟨done,k,s₁,s₂,more,hsplit,rfl,rfl⟩ := p.cut_text h
  have hplain := p.plain
  have hdone : ∀ q ∈ done, Flat q.2 := fun q hq =>
    (hplain q (hsplit ▸ List.mem_append_left _ hq)).2
  have hinside : Inside (escape s₂ ++ '"' :: closing more) :=
    ⟨s₂,more,fun q hq => hplain q (hsplit ▸ List.mem_append_right _ (List.mem_cons_of_mem _ hq)),rfl⟩
  obtain ⟨s₃,hs₃⟩ := rstrip_escape s₁
  have hraw : strip ('\n' :: '{' :: (opening done ++ (quote k ++ ':' :: ' ' :: '"' :: escape s₁))) =
      '{' :: (opening done ++ (quote k ++ ':' :: ' ' :: '"' :: escape s₃)) := by
    have hleft : ∀ t, lstripBy isSpace ('\n' :: '{' :: t) = '{' :: t := fun _ => rfl
    have hassoc : ∀ e, '{' :: (opening done ++ (quote k ++ ':' :: ' ' :: '"' :: e)) =
        ('{' :: (opening done ++ (quote k ++ [':',' ']))) ++ '"' :: e := by
      intro e
      simp only [List.append_assoc, List.cons_append, List.nil_append]
    rw [strip, stripBy, hleft, hassoc, rstripBy_append_cons (by decide), hs₃, ← hassoc]
  have hdecode : decodeRaw host
      ('{' :: (opening done ++ (quote k ++ ':' :: ' ' :: '"' :: escape s₃))) = .ok none := by
    rw [decodeRaw, if_neg (List.cons_ne_nil _ _), loads_open host hdone]
  rw [writeOutput_append, extractMarkers_eq, nextFrame_frame hbody] at ho
  simp only [hraw, hdecode] at ho
  refine extractMarkers_inside host rest _ hinside ?_
  rw [← ho]
  cases extractMarkers host (escape s₂ ++ '"' :: closing more ++ '\n' ::
    (outputEndMarker ++ '\n' :: rest)) <;> rfl

namespace Payload

/-- The texts a payload holds. -/
def texts (p : Payload) : List String :=
  p.status :: (p.result.toList ++ (p.newSessionId.join.toList ++ p.error.join.toList))

/-- A payload that comes back as it is: no text holds the end marker, and neither status nor
session is the empty text, which the host takes for a missing one. -/
structure Faithful (p : Payload) : Prop where
  status : p.status ≠ ""
  session : p.newSessionId.join ≠ some ""
  clean : ∀ t ∈ p.texts, ¬outputEndMarker <:+: t.toList

theorem mem_fields_str (p : Payload) (t : String) :
    (∃ k, (k,str t) ∈ p.fields) ↔ t ∈ p.texts := by
  have hopt : ∀ o : Option String, str t = optional o ↔ o = some t := by
    intro o
    cases o <;> simp [optional, eq_comm]
  obtain ⟨status,result,newSessionId,error⟩ := p
  simp only [fields, texts, List.mem_append, List.mem_cons, List.not_mem_nil, or_false,
    List.mem_map, Option.mem_toList, Prod.mk.injEq]
  constructor
  · rintro ⟨k,(⟨_,h⟩ | ⟨_,h⟩) | ⟨o,ho,_,h⟩ | ⟨o,ho,_,h⟩⟩
    · exact Or.inl (str.inj h)
    · exact Or.inr (Or.inl ((hopt _).mp h))
    · rw [(hopt o).mp h.symm] at ho
      simp [ho]
    · rw [(hopt o).mp h.symm] at ho
      simp [ho]
  · rintro (rfl | h | h | h)
    · exact ⟨"status",by simp⟩
    · exact ⟨"result",by simp [h, optional]⟩
    · exact ⟨"newSessionId",by simp [Option.join_eq_some_iff.mp h, optional]⟩
    · exact ⟨"error",by simp [Option.join_eq_some_iff.mp h, optional]⟩

end Payload

theorem infix_dumpsFields {k t : String} {fields : List (String × Json)}
    (h : (k,str t) ∈ fields) : escape t.toList <:+: closing fields := by
  induction fields with
  | nil => cases h
  | cons q fields ih =>
    obtain ⟨k',v⟩ := q
    rw [closing_cons]
    rcases List.mem_cons.mp h with h | h
    · cases h
      exact ⟨',' :: ' ' :: (quote k ++ [':',' ','"']),'"' :: closing fields,
        by simp only [dumps, quote, List.append_assoc, List.cons_append, List.nil_append]⟩
    · exact (ih h).trans ⟨',' :: ' ' :: (quote k' ++ ':' :: ' ' :: dumps v),[],
        by simp only [List.append_assoc, List.cons_append, List.append_nil]⟩

/-- The JSON text holds the end marker exactly when a text of the payload does. -/
theorem cut_text_none_iff (p : Payload) : cut outputEndMarker p.text = none ↔
    ∀ t ∈ p.texts, ¬outputEndMarker <:+: t.toList := by
  constructor
  · intro hnone t ht hin
    obtain ⟨k,hk⟩ := (p.mem_fields_str t).mpr ht
    obtain ⟨a,b,hab⟩ := hin
    have hescape : outputEndMarker <:+: escape t.toList := by
      rw [← hab, escape_append, escape_append, Marker.escape_eq marker_end.chars]
      exact ⟨escape a,escape b,rfl⟩
    have hclosing := hescape.trans (infix_dumpsFields hk)
    obtain ⟨fields,hfields,htext⟩ := p.text_eq
    rw [hfields] at hclosing
    cases hcut : cut outputEndMarker (closing (("status",str p.status) :: fields)) with
    | none => exact cut_eq_none_iff.mp hcut hclosing
    | some q =>
      obtain ⟨k',v,rest,u,hrest,_,hnext⟩ := cut_closing marker_end hcut
      cases hrest
      rw [htext, cut_brace, hnext] at hnone
      cases hnone
  · intro hclean
    cases hcut : cut outputEndMarker p.text with
    | none => rfl
    | some q =>
      obtain ⟨done,k,s₁,s₂,more,hsplit,_⟩ := p.cut_text hcut
      have hmem := (p.mem_fields_str _).mp ⟨k,hsplit ▸ List.mem_append_right _ (List.mem_cons_self ..)⟩
      refine absurd ?_ (hclean _ hmem)
      rw [String.toList_ofList]
      exact ⟨s₁,s₂,List.append_assoc ..⟩

/-- Every output read from the frames of the payloads stands for a payload without an end
marker inside, or for an empty object. -/
theorem extractMarkers_outputs (host : Host) {ps : List Payload} {outs : List ContainerOutput}
    (h : extractMarkers host (stdout ps) = .ok outs) :
    ∀ o ∈ outs, o = emptyOutput ∨
      ∃ p ∈ ps, cut outputEndMarker p.text = none ∧ o = decodeFields host p.fields := by
  induction ps generalizing outs with
  | nil =>
    rw [stdout, List.flatMap_nil, extractMarkers_eq] at h
    cases h
    simp
  | cons p ps ih =>
    rw [stdout, List.flatMap_cons, ← stdout] at h
    have hlater : ∀ outs', extractMarkers host (stdout ps) = .ok outs' → ∀ o ∈ outs',
        o = emptyOutput ∨ ∃ q ∈ p :: ps, cut outputEndMarker q.text = none ∧
          o = decodeFields host q.fields := by
      intro outs' hps o ho
      exact (ih hps o ho).imp id (fun ⟨q,hq,h⟩ => ⟨q,List.mem_cons_of_mem _ hq,h⟩)
    cases hcut : cut outputEndMarker p.text with
    | none =>
      rw [extractMarkers_clean host hcut] at h
      cases hps : extractMarkers host (stdout ps) with
      | error e =>
        rw [hps] at h
        cases h
      | ok outs' =>
        rw [hps] at h
        cases h
        intro o ho
        rcases List.mem_cons.mp ho with rfl | ho
        · exact Or.inr ⟨p,List.mem_cons_self ..,hcut,rfl⟩
        · exact hlater outs' hps o ho
    | some q =>
      obtain ⟨u,w⟩ := q
      obtain ⟨junk,outs',rfl,hjunk,hps⟩ := extractMarkers_cut host hcut _ h
      intro o ho
      rcases List.mem_append.mp ho with ho | ho
      · exact Or.inl (hjunk o ho)
      · exact hlater outs' hps o ho

theorem decodeFields_payload (host : Host) (p : Payload) : decodeFields host p.fields =
    { status := if p.status = "" then str "error" else str p.status
      result := optional p.result
      newSessionId := if p.newSessionId.join = some "" then null else optional p.newSessionId.join
      error := optional p.error.join } := by
  have hstatus : orElse (str p.status) (str "error") =
      if p.status = "" then str "error" else str p.status := by
    by_cases h : p.status = "" <;> simp [orElse, truthy, h]
  have hsession : ∀ o : Option String, orElse (optional o) null =
      if o = some "" then null else optional o := by
    intro o
    cases o with
    | none => rfl
    | some s => by_cases h : s = "" <;> simp [orElse, optional, truthy, h]
  obtain ⟨status,result,newSessionId,error⟩ := p
  have hget : decodeFields host (Payload.fields ⟨status,result,newSessionId,error⟩) =
      ⟨pyStr host.strOf (orElse (str status) (str "error")),optional result,
        orElse (optional newSessionId.join) null,optional error.join⟩ := by
    cases newSessionId <;> cases error <;>
      simp [decodeFields, Payload.fields, getKey, Dict.lookup, optional]
  rw [hget, hsession]
  simp only at hstatus ⊢
  rw [hstatus]
  split <;> rfl

private theorem optional_inj {a b : Option String} (h : optional a = optional b) : a = b := by
  cases a <;> cases b <;> simp_all [optional]

/-- A payload that stands for an empty object: an error without texts. -/
private theorem Payload.faithful_of_empty {p : Payload} (h : p.output = emptyOutput) : p.Faithful := by
  obtain ⟨hstatus,hresult,hsession,herror⟩ := ContainerOutput.mk.inj h
  have hstatus : p.status = "error" := str.inj hstatus
  have hresult : p.result = none := optional_inj (b := none) hresult
  have hsession : p.newSessionId.join = none := optional_inj (b := none) hsession
  have herror : p.error.join = none := optional_inj (b := none) herror
  refine ⟨by simp [hstatus],by simp [hsession],?_⟩
  intro t ht
  simp only [Payload.texts, hstatus, hresult, hsession, herror, Option.toList_none,
    List.append_nil, List.mem_singleton] at ht
  rw [ht, ← cut_eq_none_iff]
  decide

/-- A payload that reads like one without an end marker. -/
private theorem Payload.faithful_of_clean (host : Host) {p q : Payload}
    (hq : cut outputEndMarker q.text = none) (h : p.output = decodeFields host q.fields) :
    p.Faithful := by
  have hclean := (cut_text_none_iff q).mp hq
  rw [decodeFields_payload] at h
  obtain ⟨hstatus,hresult,hsession,herror⟩ := ContainerOutput.mk.inj h
  have hresult := optional_inj hresult
  have herror := optional_inj herror
  have hstatus : p.status = if q.status = "" then "error" else q.status := by
    split at hstatus <;> rename_i hempty <;> simp [hempty, str.inj hstatus]
  have hsession : p.newSessionId.join =
      if q.newSessionId.join = some "" then none else q.newSessionId.join := by
    split at hsession <;> rename_i hempty
    · simpa [hempty] using optional_inj (b := none) hsession
    · simpa [hempty] using optional_inj hsession
  refine ⟨?_,?_,?_⟩
  · rw [hstatus]
    split <;> simp_all
  · rw [hsession]
    split <;> simp_all
  · have herror' : ¬outputEndMarker <:+: "error".toList := by
      rw [← cut_eq_none_iff]
      decide
    intro t ht
    simp only [Payload.texts, List.mem_cons, List.mem_append, Option.mem_toList] at ht hclean
    rcases ht with rfl | ht | ht | ht
    · rw [hstatus]
      split
      · exact herror'
      · exact hclean _ (Or.inl rfl)
    · exact hclean t (Or.inr (Or.inl (hresult ▸ ht)))
    · rw [hsession] at ht
      split at ht
      · cases ht
      · exact hclean t (Or.inr (Or.inr (Or.inl ht)))
    · exact hclean t (Or.inr (Or.inr (Or.inr (herror ▸ ht))))

/-- A payload whose output was read is a faithful one. -/
theorem faithful_of_read (host : Host) {p : Payload}
    (h : p.output = emptyOutput ∨
      ∃ q : Payload, cut outputEndMarker q.text = none ∧ p.output = decodeFields host q.fields) :
    p.Faithful := by
  rcases h with h | ⟨q,hq,h⟩
  · exact Payload.faithful_of_empty h
  · exact Payload.faithful_of_clean host hq h

theorem extractMarkers_faithful (host : Host) {ps : List Payload} (h : ∀ p ∈ ps, p.Faithful) :
    extractMarkers host (stdout ps) = .ok (ps.map Payload.output) := by
  induction ps with
  | nil =>
    rw [stdout, List.flatMap_nil, extractMarkers_eq]
    rfl
  | cons p ps ih =>
    have hp := h p (List.mem_cons_self ..)
    have hout : decodeFields host p.fields = p.output := by
      rw [decodeFields_payload, if_neg hp.status, if_neg hp.session]
      rfl
    rw [stdout, List.flatMap_cons, ← stdout, extractMarkers_clean host
      ((cut_text_none_iff p).mpr hp.clean), ih (fun q hq => h q (List.mem_cons_of_mem _ hq)), hout]
    rfl

/-- The framing gives every payload back exactly when no text of a payload holds the end
marker and no status or session is empty. -/
theorem extractMarkers_stdout_iff (host : Host) (ps : List Payload) :
    extractMarkers host (stdout ps) = .ok (ps.map Payload.output) ↔ ∀ p ∈ ps, p.Faithful := by
  constructor
  · intro h p hp
    rcases extractMarkers_outputs host h p.output (List.mem_map_of_mem hp) with h | ⟨q,_,hq,h⟩
    · exact faithful_of_read host (Or.inl h)
    · exact faithful_of_read host (Or.inr ⟨q,hq,h⟩)
  · exact extractMarkers_faithful host

/-- An answer that quotes the end marker. -/
def quotingPayload : Payload where
  status := "success"
  result := some "The marker is ---NANOCLAW_OUTPUT_END---."
  newSessionId := some none
  error := none

/-- The answer does not come back. -/
theorem marker_breaks_frame :
    ¬∀ (host : Host) (ps : List Payload),
      extractMarkers host (stdout ps) = .ok (ps.map Payload.output) := by
  intro h
  have hout := extractMarkers_outputs _ (h ⟨⟨fun _ => "",1⟩,fun _ => "",by decide⟩ [quotingPayload])
    quotingPayload.output (by simp)
  have hfaithful : quotingPayload.Faithful := faithful_of_read _ (hout.imp id (fun ⟨q,_,h⟩ => ⟨q,h⟩))
  refine hfaithful.clean "The marker is ---NANOCLAW_OUTPUT_END---." (by simp [Payload.texts, quotingPayload]) ?_
  exact ⟨"The marker is ".toList,".".toList,by decide⟩

end NanoClaw.Framing
