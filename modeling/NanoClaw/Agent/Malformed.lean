import NanoClaw.Agent.RoundTrip

/-! Frames that end but hold no output: which of them the host's loop passes over, and which end it. -/
namespace NanoClaw.Framing
open Json Cut PyText

/-- What stands in the frames of a text that end, in order. -/
def frames (text : List Char) : List (List Char) :=
  match _h : nextFrame text with
  | none => []
  | some (raw, after) => raw :: frames after
termination_by text.length
decreasing_by exact nextFrame_length _h

/-- The output of a well-formed frame. -/
def frameOutput? (host : Host) (raw : List Char) : Option ContainerOutput :=
  match loads host.toInterp raw with
  | .ok (obj fields) => some (decodeFields host fields)
  | _ => none

/-- A frame that the loop does not raise at: its text is no JSON, or an object. -/
def Harmless (host : Host) (raw : List Char) : Prop :=
  loads host.toInterp raw = .error .jsonDecodeError ∨
    ∃ fields, loads host.toInterp raw = .ok (obj fields)

/-- A stretch of the standard output: other output, and then a frame that ends. No marker comes
before the one it is written with. -/
structure Stretch where
  noise : List Char
  body : List Char
  starts : cut outputStartMarker (noise ++ outputStartMarker) = some (noise,[])
  ends : cut outputEndMarker (outputStartMarker ++ body ++ outputEndMarker) =
    some (outputStartMarker ++ body,[])

def Stretch.print (s : Stretch) : List Char :=
  s.noise ++ (outputStartMarker ++ (s.body ++ outputEndMarker))

theorem frames_eq (text : List Char) :
    frames text =
      match nextFrame text with
      | none => []
      | some (raw, after) => raw :: frames after := by
  rw [frames]
  split <;> simp_all

/-- The loop finds the frame of a stretch, and goes on behind it. -/
theorem frames_stretch (s : Stretch) (rest : List Char) :
    frames (s.print ++ rest) = strip s.body :: frames rest := by
  have hnext : nextFrame (s.print ++ rest) = some (strip s.body,rest) := by
    have hstart := cut_first s.starts (s.body ++ (outputEndMarker ++ rest))
    have hend := cut_first s.ends rest
    rw [List.append_assoc] at hend
    simp only [nextFrame, Stretch.print, List.append_assoc, hstart, hend, Option.map_some,
      List.drop_left]
  rw [frames_eq, hnext]

section Loop
variable {host : Host} {raw : List Char}

theorem loads_nil {interp : Interp} : loads interp [] = .error .jsonDecodeError := by
  simp [loads, skipWs, scanValue, scanNumber, intPart]

/-- A harmless frame adds its output, if it has one. -/
theorem decodeRaw_harmless (h : Harmless host raw) :
    decodeRaw host raw = .ok (frameOutput? host raw) := by
  rw [decodeRaw, frameOutput?]
  split_ifs with hempty
  · rw [hempty, loads_nil]
  · rcases h with h | ⟨fields,h⟩
    · rw [h]
    · rw [h]

/-- Any other frame ends the loop. -/
theorem decodeRaw_raises (h : ¬Harmless host raw) : ∃ e, decodeRaw host raw = .error e := by
  have hne : raw ≠ [] := by
    rintro rfl
    exact h (Or.inl loads_nil)
  rw [decodeRaw, if_neg hne]
  cases hloads : loads host.toInterp raw with
  | error e =>
    have he : e ≠ .jsonDecodeError := by
      rintro rfl
      exact h (Or.inl hloads)
    cases e <;> first | contradiction | exact ⟨_,rfl⟩
  | ok v =>
    cases v with
    | obj fields => exact absurd (Or.inr ⟨fields,hloads⟩) h
    | null | bool | int | float | str | illFormed | arr => exact ⟨_,rfl⟩

/-- With harmless frames only, the loop returns the outputs of the well-formed ones, in order. -/
theorem extractMarkers_harmless {text : List Char} (h : ∀ raw ∈ frames text, Harmless host raw) :
    extractMarkers host text = .ok ((frames text).filterMap (frameOutput? host)) := by
  induction text using frames.induct with
  | case1 text hnext =>
    rw [extractMarkers_eq, frames_eq, hnext]
    rfl
  | case2 text raw after hnext ih =>
    rw [frames_eq, hnext] at h
    obtain ⟨hraw,hafter⟩ := List.forall_mem_cons.mp h
    rw [extractMarkers_eq, frames_eq, hnext]
    simp only [decodeRaw_harmless hraw, ih hafter, Except.map, List.filterMap_cons]
    cases frameOutput? host raw <;> rfl

/-- Where the loop returns, it met harmless frames only. -/
theorem harmless_of_extractMarkers {text : List Char} {outs : List ContainerOutput}
    (h : extractMarkers host text = .ok outs) : ∀ raw ∈ frames text, Harmless host raw := by
  induction text using frames.induct generalizing outs with
  | case1 text hnext =>
    rw [frames_eq, hnext]
    exact List.forall_mem_nil _
  | case2 text raw after hnext ih =>
    rw [extractMarkers_eq, hnext] at h
    by_cases hraw : Harmless host raw
    · simp only [decodeRaw_harmless hraw] at h
      cases hafter : extractMarkers host after with
      | error e =>
        rw [hafter] at h
        cases h
      | ok outs' =>
        rw [frames_eq, hnext]
        exact List.forall_mem_cons.mpr ⟨hraw,ih hafter⟩
    · obtain ⟨e,he⟩ := decodeRaw_raises hraw
      simp only [he] at h
      cases h

/-- A well-formed frame behind stretches with harmless frames is returned behind their outputs. -/
theorem extractMarkers_stretches {stretches : List Stretch}
    (h : ∀ s ∈ stretches, Harmless host (strip s.body)) {tail : List Char}
    (htail : ∀ raw ∈ frames tail, Harmless host raw) :
    extractMarkers host (stretches.flatMap Stretch.print ++ tail) =
      .ok (stretches.filterMap (fun s => frameOutput? host (strip s.body)) ++
        (frames tail).filterMap (frameOutput? host)) := by
  have hframes : frames (stretches.flatMap Stretch.print ++ tail) =
      stretches.map (fun s => strip s.body) ++ frames tail := by
    clear h
    induction stretches with
    | nil => rfl
    | cons s stretches ih =>
      rw [List.flatMap_cons, List.append_assoc, frames_stretch, ih, List.map_cons, List.cons_append]
  rw [extractMarkers_harmless, hframes, List.filterMap_append, List.filterMap_map]
  · rfl
  · intro raw hraw
    rw [hframes] at hraw
    rcases List.mem_append.mp hraw with hraw | hraw
    · obtain ⟨s,hs,rfl⟩ := List.mem_map.mp hraw
      exact h s hs
    · exact htail raw hraw

end Loop

/-- The loop returns, with the output of every well-formed frame, exactly when all frames are
harmless. -/
theorem malformed_skipped_iff (host : Host) (text : List Char) :
    (∃ outs, extractMarkers host text = .ok outs ∧
      ∀ raw ∈ frames text, ∀ out, frameOutput? host raw = some out → out ∈ outs) ↔
      ∀ raw ∈ frames text, Harmless host raw := by
  constructor
  · rintro ⟨outs,hreturns,_⟩
    exact harmless_of_extractMarkers hreturns
  · intro h
    exact ⟨_,extractMarkers_harmless h,
      fun raw hraw out hout => List.mem_filterMap.mpr ⟨raw,hraw,hout⟩⟩

private def shallow : Host := ⟨⟨String.ofList,10⟩,fun _ => "",Nat.succ_pos 9⟩

/-- A frame that holds a list. -/
theorem list_frame_raises :
    ¬∃ outs, extractMarkers shallow (outputStartMarker ++ '\n' :: '[' :: ']' :: '\n' ::
      (outputEndMarker ++ ['\n'])) = .ok outs := by
  have hbody : cut outputEndMarker (outputStartMarker ++ "\n[]\n".toList ++ outputEndMarker) =
      some (outputStartMarker ++ "\n[]\n".toList,[]) := by decide
  rintro ⟨outs,h⟩
  have hframe := frames_stretch ⟨[],"\n[]\n".toList,by decide,hbody⟩ ['\n']
  have hlist := harmless_of_extractMarkers h (strip "\n[]\n".toList)
    (hframe.symm ▸ List.mem_cons_self)
  have hloads : loads shallow.toInterp (strip "\n[]\n".toList) = .ok (arr []) := rfl
  rcases hlist with hlist | ⟨fields,hlist⟩
  · rw [hloads] at hlist
    cases hlist
  · rw [hloads] at hlist
    cases hlist

end NanoClaw.Framing
