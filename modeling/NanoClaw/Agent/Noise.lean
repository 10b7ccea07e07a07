import NanoClaw.Agent.RoundTrip

/-! Frames among other output: lines without a start marker, wherever they stand between the
frames, are passed over. -/
namespace NanoClaw.Framing
open Json Cut

/-- A dictionary that `_write_output` writes as a frame without an end marker inside, and that the
host's stack has room to read. -/
structure Frame (host : Host) where
  fields : List (String × Json)
  decoded : Decoded host.floatRepr (obj fields)
  room : nesting (obj fields) ≤ host.depth
  clean : ¬outputEndMarker <:+: dumps (obj fields)

/-- A line of other output, without its newline. -/
structure Line where
  text : List Char
  clean : ¬outputStartMarker <:+: text

inductive Segment (host : Host) where
  | line (l : Line)
  | frame (f : Frame host)

namespace Segment
variable {host : Host}

/-- What a segment adds to the standard output. -/
def print : Segment host → List Char
  | .line l => l.text ++ ['\n']
  | .frame f => writeObject f.fields

/-- What the host makes of a segment. -/
def output? : Segment host → Option ContainerOutput
  | .line _ => none
  | .frame f => some (decodeFields host f.fields)

end Segment

variable {host : Host}

/-- The cursor comes behind a line with nothing read. -/
theorem extractMarkers_line (l : Line) (rest : List Char) :
    extractMarkers host (l.text ++ ['\n'] ++ rest) = extractMarkers host rest := by
  rw [List.append_assoc]
  exact extractMarkers_skip host (cut_eq_none_iff.mpr l.clean) rest

/-- The cursor comes behind a frame with its output read. -/
theorem extractMarkers_frame (f : Frame host) (rest : List Char) :
    extractMarkers host (writeObject f.fields ++ rest) =
      (extractMarkers host rest).map (decodeFields host f.fields :: ·) := by
  apply extractMarkers_object host (cut_eq_none_iff.mpr f.clean)
  rw [loads_decoded f.decoded, if_pos f.room]

/-- The outputs of the frames come back in order, whatever lines stand before, between and behind
them. -/
theorem extractMarkers_segments (segments : List (Segment host)) :
    extractMarkers host (segments.flatMap Segment.print) =
      .ok (segments.filterMap Segment.output?) := by
  induction segments with
  | nil =>
    rw [List.flatMap_nil, extractMarkers_eq]
    rfl
  | cons segment segments ih =>
    rw [List.flatMap_cons]
    cases segment with
    | line l =>
      rw [List.filterMap_cons_none rfl, ← ih]
      exact extractMarkers_line l _
    | frame f =>
      have hout : Segment.output? (.frame f) = some (decodeFields host f.fields) := rfl
      rw [List.filterMap_cons_some hout]
      apply (extractMarkers_frame f _).trans
      rw [ih]
      rfl

/-- Every payload of the agent without an end marker inside is such a frame. -/
def Payload.frame (host : Host) (p : Payload) (h : ¬outputEndMarker <:+: p.text) : Frame host where
  fields := p.fields
  decoded := (p.flatObject.readable host.room).decoded.1
  room := (@Readable.decoded host.floatRepr _ _ (p.flatObject.readable host.room)).2
  clean := h

end NanoClaw.Framing
