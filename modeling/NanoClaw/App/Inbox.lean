import NanoClaw.App.Callbacks
import NanoClaw.Library.Table

/-! Polls of the local-file channel: the files of its inbound directory, handled in the order of
their names by one loop that any exception ends. -/
namespace NanoClaw.App
open Store Channels Json

/-- A `*.json` file of the inbound directory. -/
structure InboundFile where
  name : String
  bytes : List UInt8
  deriving DecidableEq, Repr

/-- The channel and the app's tables. `calls` lists the calls of `on_message`, each with the file
it is made for. -/
structure Inbox where
  connected : Bool
  files : Table InboundFile.name
  chats : ChatTable
  messages : List NewMessage
  calls : List (InboundFile × Inbound)

/-- The clock and `uuid4` in the turn for a file. -/
structure Stamp where
  now : String
  uuid : String

/-- `json.loads(file_path.read_text(encoding="utf-8"))`. -/
def loadFile (interp : Interp) (f : InboundFile) : Except PyExc Json :=
  match Utf8.decode? f.bytes with
  | none => .error .unicodeDecodeError
  | some text => loads interp text

/-- `bool(data.get("is_group", True))`. -/
def isGroupOf : Json → Bool
  | .obj fields => (Dict.lookup "is_group" fields).elim true truthy
  | _ => true

/-- `sorted` over the paths of one directory. -/
def sortedFiles (files : Table InboundFile.name) : List InboundFile :=
  files.rows.insertionSort (fun a b => a.name ≤ b.name)

section Polls
variable (cb : Callbacks) (env : Env)

/-- The message that a file holds. -/
def inboundOf (stamp : Stamp) (f : InboundFile) : Option Inbound :=
  localFileInbound { env with now := stamp.now, uuid := stamp.uuid } f.bytes

/-- The turn of `poll` for one file up to the `unlink` at its end, with the exception that keeps
the turn from it. -/
def pollFile (stamp : Stamp) (s : Inbox) (f : InboundFile) : Option PyExc × Inbox :=
  match loadFile env.interp f with
  | .error .jsonDecodeError => (none,s)
  | .error e => (some e,s)
  | .ok data =>
    match inboundOf env stamp f with
    | none => (none,s)
    | some inbound =>
      match onChatMetadata cb s.chats inbound "local-file" (isGroupOf data) with
      | .error e => (some e,s)
      | .ok chats =>
        let s := { s with chats := chats, calls := s.calls ++ [(f,inbound)] }
        match onMessage cb s.messages inbound with
        | .error e => (some e,s)
        | .ok messages => (none,{ s with messages := messages })

def pollFiles (stamps : String → Stamp) (s : Inbox) : List InboundFile → Option PyExc × Inbox
  | [] => (none,s)
  | f :: fs =>
    match pollFile cb env (stamps f.name) s f with
    | (some e, s) => (some e,s)
    | (none, s) => pollFiles stamps { s with files := s.files.erase f.name } fs

/-- `LocalFileChannel.poll`. -/
def poll (s : Inbox) (stamps : String → Stamp) : Option PyExc × Inbox :=
  if s.connected then pollFiles cb env stamps s (sortedFiles s.files) else (none,s)

/-- One `poll_channels` after the other; what a poll raises is logged. -/
def polls (s : Inbox) : List (String → Stamp) → Inbox
  | [] => s
  | stamps :: rest => polls (poll cb env s stamps).2 rest

/-- The channel with files to handle, before its first poll. -/
def Inbox.start (files : Table InboundFile.name) (chats : ChatTable) (messages : List NewMessage) :
    Inbox where
  connected := true
  files := files
  chats := chats
  messages := messages
  calls := []

/-- The optional fields of an object have the types the channel expects, where they are there. -/
def wellTyped (fields : List (String × Json)) : Bool :=
  ["id","chat_jid","timestamp","sender","sender_name","chat_name"].all
      (fun k => (Dict.lookup k fields).elim true isText) &&
    ["is_group","is_from_me","is_bot_message"].all
      (fun k => (Dict.lookup k fields).elim true (fun v => v matches .bool _))

/-- A file with an object of well-typed fields and a content that is not blank. -/
def isProper (f : InboundFile) : Bool :=
  match loadFile env.interp f with
  | .ok (.obj fields) => !isBlank (textOr env fields "content" "") && wellTyped fields
  | _ => false

/-- No file is left, and every proper file was passed to `on_message` exactly once, in the order
of names and with the message it holds. -/
def Emptied (s t : Inbox) : Prop :=
  t.files.rows = [] ∧
    (t.calls.map Prod.fst).filter (isProper env) = (sortedFiles s.files).filter (isProper env) ∧
    ∀ c ∈ t.calls, ∃ stamp, inboundOf env stamp c.1 = some c.2

/-- Reading the file raises something other than a JSON error, or its message has a chat that
cannot be stored or is one that `on_message` raises for. -/
def Stuck (f : InboundFile) : Prop :=
  match loadFile env.interp f with
  | .error e => e ≠ .jsonDecodeError
  | .ok _ => ∃ stamp inbound, inboundOf env stamp f = some inbound ∧
      (HasStorableChat inbound → RaisesOnMessage cb inbound)

end Polls

variable {cb : Callbacks} {env : Env}

/-- The clock and `uuid4` decide about no refusal: they are defaults, and defaults can be stored. -/
private theorem inboundOf_stamp {stamp : Stamp} {f : InboundFile} {i : Inbound}
    (h : inboundOf env stamp f = some i) (stamp' : Stamp) :
    ∃ id timestamp, id.isSome = i.id.isSome ∧ timestamp.isSome = i.timestamp.isSome ∧
      inboundOf env stamp' f = some { i with id := id, timestamp := timestamp } := by
  have hsome : ∀ fields key d d',
      (textOr env fields key d).isSome = (textOr env fields key d').isSome := by
    intro fields key d d'
    simp only [textOr, Json.orElse]
    split <;> rfl
  simp only [inboundOf, localFileInbound] at h ⊢
  split at h
  · cases h
  · rename_i text htext
    split at h
    · rename_i fields hv
      split_ifs at h with hblank
      cases h
      refine ⟨textOr env fields "id" stamp'.uuid,textOr env fields "timestamp" stamp'.now,
        hsome _ _ _ _,hsome _ _ _ _,?_⟩
      exact (if_neg hblank).trans rfl
    · cases h

section Turns
variable {stamp : Stamp} {s : Inbox} {f : InboundFile}

theorem inboundOf_of_loadFile_error {e : PyExc} (h : loadFile env.interp f = .error e) :
    inboundOf env stamp f = none := by
  rw [loadFile] at h
  cases hdecode : Utf8.decode? f.bytes with
  | none => simp only [inboundOf, localFileInbound, hdecode]
  | some text =>
    rw [hdecode] at h
    simp only at h
    simp only [inboundOf, localFileInbound, hdecode, h]

/-- A turn ends with the `unlink` exactly for the files that are not stuck. -/
theorem pollFile_eq_none_iff : (pollFile cb env stamp s f).1 = none ↔ ¬Stuck cb env f := by
  have hcongr : ∀ i, inboundOf env stamp f = some i →
      ((∃ stamp' i', inboundOf env stamp' f = some i' ∧ (HasStorableChat i' → RaisesOnMessage cb i')) ↔
        (HasStorableChat i → RaisesOnMessage cb i)) := by
    intro i hi
    constructor
    · rintro ⟨stamp',i',hi',hraises⟩
      obtain ⟨id,timestamp,hid,htime,hi''⟩ := inboundOf_stamp hi stamp'
      rw [hi'', Option.some.injEq] at hi'
      subst hi'
      rwa [hasStorableChat_congr htime, raisesOnMessage_congr hid htime] at hraises
    · intro hraises
      exact ⟨stamp,i,hi,hraises⟩
  rw [pollFile, Stuck]
  cases hload : loadFile env.interp f with
  | error e => cases e <;> simp
  | ok data =>
    simp only
    cases hi : inboundOf env stamp f with
    | none =>
      simp only [true_iff]
      rintro ⟨stamp',i,hi',_⟩
      obtain ⟨_,_,_,_,h⟩ := inboundOf_stamp hi' stamp
      rw [hi] at h
      cases h
    | some i =>
      have hchat := @onChatMetadata_ok_iff cb s.chats i "local-file" (isGroupOf data)
      have hmessage := @onMessage_ok_iff cb s.messages i
      rw [hcongr i hi, Classical.not_imp, ← hchat, ← hmessage]
      cases hstored : onChatMetadata cb s.chats i "local-file" (isGroupOf data) with
      | error e => simp [hstored]
      | ok chats =>
        cases hpassed : onMessage cb s.messages i with
        | error e => simp [hstored, hpassed]
        | ok messages => simp [hstored, hpassed]

private theorem pollFile_frame : (pollFile cb env stamp s f).2.files = s.files ∧
    (pollFile cb env stamp s f).2.connected = s.connected ∧
    ((pollFile cb env stamp s f).1 = none → (pollFile cb env stamp s f).2.calls =
      s.calls ++ (inboundOf env stamp f).toList.map (fun i => (f,i))) := by
  rw [pollFile]
  cases hload : loadFile env.interp f with
  | error e => cases e <;> simp [inboundOf_of_loadFile_error hload]
  | ok data =>
    simp only
    cases inboundOf env stamp f with
    | none => simp
    | some i =>
      simp only
      cases onChatMetadata cb s.chats i "local-file" (isGroupOf data) with
      | error e => simp
      | ok chats =>
        simp only
        cases onMessage cb s.messages i <;> simp

/-- The turn for a file that is not stuck passes on the message it holds, if any. -/
theorem pollFile_free (h : ¬Stuck cb env f) (stamp : Stamp) (s : Inbox) :
    ∃ t, pollFile cb env stamp s f = (none,t) ∧ t.files = s.files ∧ t.connected = s.connected ∧
      t.calls = s.calls ++ (inboundOf env stamp f).toList.map (fun i => (f,i)) := by
  have hnone : (pollFile cb env stamp s f).1 = none := pollFile_eq_none_iff.mpr h
  obtain ⟨hfiles,hconnected,hcalls⟩ := @pollFile_frame cb env stamp s f
  exact ⟨_,Prod.ext hnone rfl,hfiles,hconnected,hcalls hnone⟩

theorem pollFile_stuck (h : Stuck cb env f) (stamp : Stamp) (s : Inbox) :
    ∃ e t, pollFile cb env stamp s f = (some e,t) ∧ t.files = s.files := by
  have hsome : (pollFile cb env stamp s f).1 ≠ none := fun hnone => pollFile_eq_none_iff.mp hnone h
  obtain ⟨e,he⟩ := Option.ne_none_iff_exists'.mp hsome
  exact ⟨e,_,Prod.ext he rfl,pollFile_frame.1⟩

end Turns

section Loop
variable {stamps : String → Stamp} {fs : List InboundFile} {s : Inbox}

/-- Over files none of which is stuck the loop comes to its end. -/
theorem pollFiles_free (h : ∀ f ∈ fs, ¬Stuck cb env f) :
    (pollFiles cb env stamps s fs).2.files.rows =
        s.files.rows.filter (fun r => r.name ∉ fs.map (·.name)) ∧
      (pollFiles cb env stamps s fs).2.connected = s.connected ∧
      (pollFiles cb env stamps s fs).2.calls = s.calls ++
        fs.flatMap (fun f => (inboundOf env (stamps f.name) f).toList.map (fun i => (f,i))) := by
  induction fs generalizing s with
  | nil => simp [pollFiles]
  | cons f fs ih =>
    obtain ⟨hfree,hrest⟩ := List.forall_mem_cons.mp h
    obtain ⟨t,hturn,hfiles,hconnected,hcalls⟩ := pollFile_free hfree (stamps f.name) s
    obtain ⟨hfiles',hconnected',hcalls'⟩ := @ih { t with files := t.files.erase f.name } hrest
    simp only [pollFiles, hturn]
    refine ⟨?_,hconnected'.trans hconnected,?_⟩
    · rw [hfiles', hfiles, Table.erase, List.filter_filter]
      apply List.filter_congr
      intro r _
      rw [List.map_cons, Bool.eq_iff_iff]
      simp [and_comm]
    · rw [hcalls', List.flatMap_cons, ← List.append_assoc, ← hcalls]

/-- A stuck file is never removed. -/
theorem mem_pollFiles {f : InboundFile} (hstuck : Stuck cb env f) (hf : f ∈ s.files.rows)
    (hfs : ∀ g ∈ fs, g.name = f.name → g = f) :
    f ∈ (pollFiles cb env stamps s fs).2.files.rows := by
  induction fs generalizing s with
  | nil => exact hf
  | cons g fs ih =>
    obtain ⟨hg,hrest⟩ := List.forall_mem_cons.mp hfs
    by_cases hgstuck : Stuck cb env g
    · obtain ⟨e,t,hturn,hfiles⟩ := pollFile_stuck hgstuck (stamps g.name) s
      simp only [pollFiles, hturn]
      exact hfiles ▸ hf
    · obtain ⟨t,hturn,hfiles,_,_⟩ := pollFile_free hgstuck (stamps g.name) s
      simp only [pollFiles, hturn]
      refine ih (Table.mem_erase.mpr ⟨hfiles ▸ hf,fun hname => hgstuck ?_⟩) hrest
      rwa [hg hname.symm]

end Loop

theorem mem_sortedFiles {files : Table InboundFile.name} {f : InboundFile} :
    f ∈ sortedFiles files ↔ f ∈ files.rows := List.mem_insertionSort _

section Polls
variable {s : Inbox}

/-- One poll empties the directory when no file is stuck. -/
theorem poll_free (hconnected : s.connected = true) (h : ∀ f ∈ s.files.rows, ¬Stuck cb env f)
    (stamps : String → Stamp) :
    (poll cb env s stamps).2.files.rows = [] ∧ (poll cb env s stamps).2.calls = s.calls ++
      (sortedFiles s.files).flatMap
        (fun f => (inboundOf env (stamps f.name) f).toList.map (fun i => (f,i))) := by
  rw [poll, if_pos hconnected]
  obtain ⟨hfiles,_,hcalls⟩ := @pollFiles_free cb env stamps (sortedFiles s.files) s
    (fun f hf => h f (mem_sortedFiles.mp hf))
  refine ⟨?_,hcalls⟩
  rw [hfiles, List.filter_eq_nil_iff]
  intro r hr
  simpa using ⟨r,mem_sortedFiles.mpr hr,rfl⟩

theorem mem_polls {f : InboundFile} (hstuck : Stuck cb env f) (hf : f ∈ s.files.rows)
    (stamps : List (String → Stamp)) : f ∈ (polls cb env s stamps).files.rows := by
  induction stamps generalizing s with
  | nil => exact hf
  | cons stamp stamps ih =>
    apply ih
    rw [poll]
    split
    · apply mem_pollFiles hstuck hf
      intro g hg hname
      exact List.inj_on_of_nodup_map s.files.nodup (mem_sortedFiles.mp hg) hf hname
    · exact hf

/-- Polls of an empty directory pass nothing on. -/
theorem polls_empty (h : s.files.rows = []) (stamps : List (String → Stamp)) :
    polls cb env s stamps = s := by
  induction stamps with
  | nil => rfl
  | cons stamp stamps ih =>
    have hpoll : (poll cb env s stamp).2 = s := by
      rw [poll, sortedFiles, h]
      split <;> rfl
    rw [polls, hpoll, ih]

theorem isSome_inboundOf_of_isProper {f : InboundFile} (h : isProper env f = true) (stamp : Stamp) :
    (inboundOf env stamp f).isSome := by
  rw [isProper, loadFile] at h
  cases hdecode : Utf8.decode? f.bytes with
  | none =>
    rw [hdecode] at h
    cases h
  | some text =>
    rw [hdecode] at h
    simp only at h
    split at h
    · rename_i fields hload
      obtain ⟨hcontent,_⟩ := Bool.and_eq_true_iff.mp h
      simp only [inboundOf, localFileInbound, hdecode, hload]
      rw [if_neg]
      · rfl
      · exact fun hblank => Bool.false_ne_true ((Bool.not_eq_true' _ ▸ hcontent).symm.trans hblank)
    · cases h

/-- The files of the calls of a poll, one by one. -/
private theorem map_fst_calls (passed : InboundFile → Option Inbound) (fs : List InboundFile) :
    (fs.flatMap (fun f => (passed f).toList.map (fun i => (f,i)))).map Prod.fst =
      fs.filter (fun f => (passed f).isSome) := by
  induction fs with
  | nil => rfl
  | cons f fs ih =>
    rw [List.flatMap_cons, List.map_append, ih, List.filter_cons]
    cases passed f <;> rfl

/-- For every set of files, whatever they hold, and any callbacks: some number of polls leaves no
file and has passed every proper file on, exactly once and in order, if and only if no file is
stuck. -/
theorem inbox_empties_iff {files : Table InboundFile.name} {chats : ChatTable}
    {messages : List NewMessage} :
    (∃ n, ∀ stamps : List (String → Stamp), n ≤ stamps.length →
      Emptied env (.start files chats messages)
        (polls cb env (.start files chats messages) stamps)) ↔
      ∀ f ∈ files.rows, ¬Stuck cb env f := by
  constructor
  · rintro ⟨n,h⟩ f hf hstuck
    have hempty := (h (List.replicate n (fun _ => ⟨"",""⟩)) (by simp)).1
    have hmem : f ∈ (polls cb env (.start files chats messages)
      (List.replicate n (fun _ => ⟨"",""⟩))).files.rows := mem_polls hstuck hf _
    rw [hempty] at hmem
    cases hmem
  · intro h
    refine ⟨1,fun stamps hlen => ?_⟩
    cases stamps with
    | nil => cases hlen
    | cons stamp stamps =>
      obtain ⟨hfiles,hcalls⟩ := @poll_free cb env (.start files chats messages) rfl h stamp
      rw [polls, polls_empty hfiles]
      refine ⟨hfiles,?_,?_⟩
      · rw [hcalls, Inbox.start, List.nil_append, map_fst_calls, List.filter_filter]
        apply List.filter_congr
        intro f _
        cases hproper : isProper env f with
        | false => simp
        | true => simp [isSome_inboundOf_of_isProper hproper]
      · intro c hc
        rw [hcalls] at hc
        obtain ⟨f,_,hc⟩ := List.mem_flatMap.mp hc
        obtain ⟨i,hi,rfl⟩ := List.mem_map.mp hc
        exact ⟨stamp f.name,Option.mem_toList.mp hi⟩

end Polls

section Runs

private def inboxEnv : Env := ⟨⟨String.ofList,10⟩,fun _ => "","",""⟩

/-- A byte that is no UTF-8, in front of a message. -/
private def badFirst : Table InboundFile.name where
  rows := [⟨"1.json",[0xff]⟩,
    ⟨"2.json","\x7b\"content\": \"hi\"\x7d".toList.map (fun c => UInt8.ofNat c.toNat)⟩]
  nodup := by decide

/-- The file that cannot be decoded stays, and with it the message behind it. -/
theorem undecodable_file_blocks :
    badFirst.rows.map (isProper inboxEnv) = [false,true] ∧
      ¬∃ n, ∀ stamps : List (String → Stamp), n ≤ stamps.length →
        Emptied inboxEnv (.start badFirst Table.empty [])
          (polls noGroups inboxEnv (.start badFirst Table.empty []) stamps) := by
  refine ⟨by decide +kernel,?_⟩
  rintro ⟨n,h⟩
  have hstuck : Stuck noGroups inboxEnv ⟨"1.json",[0xff]⟩ := by
    have hload : loadFile inboxEnv.interp ⟨"1.json",[0xff]⟩ = .error .unicodeDecodeError := rfl
    simp [Stuck, hload]
  have hempty := (h (List.replicate n (fun _ => ⟨"",""⟩)) (by simp)).1
  have hmem := mem_polls (s := .start badFirst Table.empty []) hstuck List.mem_cons_self
    (List.replicate n (fun _ => ⟨"",""⟩))
  rw [hempty] at hmem
  cases hmem

end Runs

end NanoClaw.App
