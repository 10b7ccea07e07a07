import NanoClaw.Ipc.Input
import NanoClaw.Ipc.Tools
import NanoClaw.Library.Execution
import NanoClaw.Library.IsoOrder
import NanoClaw.Library.JsonLayout
import NanoClaw.Library.Spool

/-! The input directory while it is written and drained at the same time: the steps of the writers,
which are calls of one process, and of the reader, and what a file's name and bytes are. -/
namespace NanoClaw.Ipc
open Json Runner IsoText

/-- A text as the decoders of Python give it, by its code points: a pair of surrogates is the one
character it stands for. -/
structure PyString where
  codes : List Nat
  canonical : Codes codes

def PyString.json (t : PyString) : Json := ofCodes t.codes

/-- `_ordered_filename`, with a clock and a sequence number that fit their fields. -/
def orderedFilename (ts seq : Nat) : String :=
  String.ofList (digits 20 ts ++ '-' :: (digits 8 seq ++ ".json".toList))

/-- The name a file has while it is written. -/
def tmpName (filename : String) : String := filename ++ ".tmp"

/-- What `send_container_input` writes for a text. -/
def inputPayload (text : PyString) : List UInt8 :=
  Utf8.encode (dumps (.obj [("type",.str "message"),("text",text.json)]))

/-- Where a writer stands: it has read the clock, taken its number, or written a part of its file. -/
inductive Sending where
  | idle
  | timed (text : PyString) (ts : Nat)
  | named (text : PyString) (ts seq : Nat)
  | writing (text : PyString) (ts seq written : Nat)

/-- A send whose file has got its name, and the number of listings before that. -/
structure Send (W : Type) where
  writer : W
  text : PyString
  ts : Nat
  seq : Nat
  listings : Nat

def Send.name {W : Type} (e : Send W) : String := orderedFilename e.ts e.seq

/-- What a drain returns of a send, under the name of its file. -/
def Send.message {W : Type} (e : Send W) : String × Json := (e.name,e.text.json)

/-- Where the reader stands: between two drains, in the loop over the listed names, in the `finally`
clause of a turn, or behind a drain that has raised. Each message is kept under the name of its file. -/
inductive Reader where
  | idle
  | looping (names : List String) (messages : List (String × Json))
  | unlinking (name : String) (names : List String) (messages : Except PyExc (List (String × Json)))
  | raised (e : PyExc)

/-- The reader behind the `finally` clause of a turn. -/
def Reader.resume (names : List String) : Except PyExc (List (String × Json)) → Reader
  | .ok messages => .looping names messages
  | .error e => .raised e

/-- The interpreter of the reader, with room for the one object of a file. -/
structure ReadingInterp extends Interp where
  room : 0 < depth

/-- The process of the writers, the directory and the reader, with what has been sent and what the
drains that have ended returned. -/
structure System (W : Type) where
  clock : Nat
  sequence : Nat
  writers : W → Sending
  dir : InputFiles
  reader : Reader
  listings : Nat
  sent : List (Send W)
  drains : List (List (String × Json))

/-- The clock goes on, a call for another directory takes a number, or a writer or the reader does its
next step. A file is written piece by piece. -/
inductive Action (W : Type) where
  | tick (now : Nat)
  | elsewhere
  | begin (w : W) (text : PyString)
  | takeNumber (w : W)
  | write (w : W) (written : Nat)
  | rename (w : W)
  | list
  | read
  | unlink
  | finish

section Steps
variable {W : Type} [DecidableEq W]

/-- The temporary file now holds the first bytes of the payload. -/
def System.writeTmp (s : System W) (w : W) (text : PyString) (ts seq written : Nat) : System W :=
  { s with
    dir := s.dir.set (tmpName (orderedFilename ts seq)) ((inputPayload text).take written)
    writers := Function.update s.writers w (.writing text ts seq written) }

/-- The clock stays below 10^20, and the sequence below 10^8. -/
def step (interp : ReadingInterp) (s : System W) : Action W → Option (System W)
  | .tick now => if s.clock ≤ now then some { s with clock := now } else none
  | .elsewhere => if s.sequence < 10 ^ 8 then some { s with sequence := s.sequence + 1 } else none
  | .begin w text =>
    match s.writers w with
    | .idle =>
      if s.clock < 10 ^ 20 then
        some { s with writers := Function.update s.writers w (.timed text s.clock) }
      else none
    | _ => none
  | .takeNumber w =>
    match s.writers w with
    | .timed text ts =>
      if s.sequence < 10 ^ 8 then
        some { s with
          sequence := s.sequence + 1
          writers := Function.update s.writers w (.named text ts s.sequence) }
      else none
    | _ => none
  | .write w written =>
    match s.writers w with
    | .named text ts seq => some (s.writeTmp w text ts seq written)
    | .writing text ts seq before =>
      if before ≤ written then some (s.writeTmp w text ts seq written) else none
    | _ => none
  | .rename w =>
    match s.writers w with
    | .writing text ts seq written =>
      let filename := orderedFilename ts seq
      if (inputPayload text).length ≤ written then
        (s.dir.get? (tmpName filename)).map (fun bytes =>
          { s with
            dir := (s.dir.unlink (tmpName filename)).set filename bytes
            writers := Function.update s.writers w .idle
            sent := s.sent ++ [⟨w,text,ts,seq,s.listings⟩] })
      else none
    | _ => none
  | .list =>
    match s.reader with
    | .idle => some { s with reader := .looping (jsonNames s.dir) [], listings := s.listings + 1 }
    | _ => none
  | .read =>
    match s.reader with
    | .looping (name :: names) messages =>
      let turn := (readTurn interp.toInterp s.dir name).map (fun out =>
        messages ++ out.toList.map (fun text => (name,text)))
      some { s with reader := .unlinking name names turn }
    | _ => none
  | .unlink =>
    match s.reader with
    | .unlinking name names turn =>
      some { s with dir := s.dir.unlink name, reader := .resume names turn }
    | _ => none
  | .finish =>
    match s.reader with
    | .looping [] messages => some { s with reader := .idle, drains := s.drains ++ [messages] }
    | _ => none

/-- A process before its first send, with a directory that holds no input. -/
structure System.Fresh (s : System W) : Prop where
  writers : ∀ w, s.writers w = .idle
  dir : ∀ name, isJsonName name = true → s.dir.get? name = none
  reader : s.reader = .idle
  listings : s.listings = 0
  sent : s.sent = []
  drains : s.drains = []

end Steps

section Names
variable {ts seq ts' seq' : Nat}

/-- Names compare by the time first, then by the number. -/
theorem orderedFilename_lt_iff (hts : ts < 10 ^ 20) (hts' : ts' < 10 ^ 20) (hseq : seq < 10 ^ 8)
    (hseq' : seq' < 10 ^ 8) :
    orderedFilename ts seq < orderedFilename ts' seq' ↔ ts < ts' ∨ ts = ts' ∧ seq < seq' := by
  rw [orderedFilename, orderedFilename, String.lt_iff_toList_lt]
  simp only [String.toList_ofList]
  rw [digits_append_lt hts hts', List.cons_lt_cons_self, digits_append_lt hseq hseq']
  simp

theorem orderedFilename_seq (hts : ts < 10 ^ 20) (hts' : ts' < 10 ^ 20) (hseq : seq < 10 ^ 8)
    (hseq' : seq' < 10 ^ 8) (h : orderedFilename ts seq = orderedFilename ts' seq') : seq = seq' := by
  have hnot := (orderedFilename_lt_iff hts hts' hseq hseq').not.mp h.not_lt
  have hnot' := (orderedFilename_lt_iff hts' hts hseq' hseq).not.mp h.symm.not_lt
  omega

theorem isJsonName_orderedFilename : isJsonName (orderedFilename ts seq) = true := by
  rw [isJsonName, List.isSuffixOf_iff_suffix, orderedFilename, String.toList_ofList]
  exact ⟨digits 20 ts ++ '-' :: digits 8 seq,by simp⟩

theorem isJsonName_tmpName (filename : String) : isJsonName (tmpName filename) = false := by
  rw [Bool.eq_false_iff]
  intro h
  rw [isJsonName, List.isSuffixOf_iff_suffix, tmpName, String.toList_append] at h
  have hlast := List.reverse_prefix.mpr h
  rw [List.reverse_append] at hlast
  simp at hlast

theorem tmpName_inj {filename filename' : String} (h : tmpName filename = tmpName filename') :
    filename = filename' := by
  have htexts := congrArg String.toList h
  rw [tmpName, tmpName, String.toList_append, String.toList_append] at htexts
  exact String.toList_injective (List.append_cancel_right htexts)

end Names

/-- A file that is read after it has got its name gives its text. -/
theorem messageOf_inputPayload (interp : ReadingInterp) (text : PyString) :
    messageOf interp.toInterp (inputPayload text) = .ok (some text.json) := by
  have hdecoded : Decoded interp.floatRepr (.obj [("type",.str "message"),("text",text.json)]) := by
    refine .obj ?_ (by simp)
    simp only [List.forall_mem_cons]
    exact ⟨.str _,.text text.canonical,fun _ h => absurd h List.not_mem_nil⟩
  have hread : readInput interp.toInterp (inputPayload text) =
      .ok (.obj [("type",.str "message"),("text",text.json)]) := by
    have hnesting : nesting (.obj [("type",.str "message"),("text",text.json)]) ≤ interp.depth := by
      have htext : nesting text.json = 0 := nesting_of_isText (isText_ofCodes _)
      have hroom := interp.room
      simp only [nesting, nestingFields, htext]
      omega
    rw [readInput, inputPayload, Utf8.decode_encode hdecoded.ascii]
    exact (loads_decoded hdecoded).trans (if_pos hnesting)
  have htype : isStr (getKey "type" [("type",.str "message"),("text",text.json)]) "message" = true := rfl
  have htext : getKey "text" [("type",.str "message"),("text",text.json)] = text.json := rfl
  rw [messageOf, hread]
  have hisText : text.json.isText = true := isText_ofCodes _
  dsimp only
  rw [htype, htext, hisText]
  rfl

section Alone
variable {W : Type} [DecidableEq W] {interp : ReadingInterp} {s : System W}
open Execution

/-- The reader's steps over the listed names, with no writer in between, are the loop of a drain. -/
theorem exec_looping {names : List String} {messages : List (String × Json)} {out : List Json}
    {left : InputFiles} (hreader : s.reader = .looping names messages)
    (hdrain : drain interp.toInterp names s.dir = (.ok out,left)) :
    ∃ all : List (String × Json),
      exec (step interp) s (names.flatMap (fun _ => [.read,.unlink])) =
        some { s with dir := left, reader := .looping [] all } ∧
      all.map Prod.snd = messages.map Prod.snd ++ out := by
  induction names generalizing s messages out with
  | nil =>
    cases hdrain
    refine ⟨messages,?_,(List.append_nil _).symm⟩
    rw [← hreader]
    rfl
  | cons name names ih =>
    rw [drain] at hdrain
    cases hturn : readTurn interp.toInterp s.dir name with
    | error e =>
      rw [hturn] at hdrain
      cases hdrain
    | ok text =>
      rw [hturn] at hdrain
      rcases hrest : drain interp.toInterp names (s.dir.unlink name) with ⟨e | rest,left'⟩
      · rw [hrest] at hdrain
        cases hdrain
      · rw [hrest] at hdrain
        cases hdrain
        obtain ⟨all,hexec,hall⟩ := @ih
          { s with
            dir := s.dir.unlink name
            reader := .looping names (messages ++ text.toList.map (fun text => (name,text))) }
          _ rest rfl hrest
        refine ⟨all,?_,?_⟩
        · rw [List.flatMap_cons]
          simp only [List.cons_append, List.nil_append, exec, step, hreader, hturn, Option.bind_some,
            Except.map]
          exact hexec
        · rw [hall, List.map_append, List.append_assoc]
          congr 2
          cases text <;> rfl

/-- A drain of its own returns what `drain_container_inputs` does. -/
theorem exec_drainContainerInputs {out : List Json} {left : InputFiles} (hreader : s.reader = .idle)
    (hdrain : drainContainerInputs interp.toInterp s.dir = (.ok out,left)) :
    ∃ as t, exec (step interp) s as = some t ∧ t.dir = left ∧ t.reader = .idle ∧
      ∃ messages, t.drains = s.drains ++ [messages] ∧ messages.map Prod.snd = out := by
  obtain ⟨all,hexec,hall⟩ := @exec_looping W _ interp
    { s with reader := .looping (jsonNames s.dir) [], listings := s.listings + 1 }
    _ _ _ _ rfl hdrain
  let t : System W :=
    { s with dir := left, reader := .idle, listings := s.listings + 1, drains := s.drains ++ [all] }
  refine ⟨.list :: (jsonNames s.dir).flatMap (fun _ => [.read,.unlink]) ++ [.finish],t,?_,rfl,rfl,all,rfl,
    hall⟩
  rw [exec_append, exec, step, hreader]
  dsimp only [Option.bind_some]
  rw [hexec]
  rfl

end Alone

end NanoClaw.Ipc
