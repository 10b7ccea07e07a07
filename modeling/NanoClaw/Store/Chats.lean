import NanoClaw.Library.Json
import NanoClaw.Library.Table
import Mathlib.Data.List.Sort

/-! The table of chats, what its columns keep of a parameter, and the query that lists it. -/
namespace NanoClaw.Store
open Json

/-- A row of `chats`. -/
structure ChatRow where
  jid : String
  name : Option String
  lastMessageTime : String
  channel : Option String
  isGroup : Option Bool
  deriving DecidableEq, Repr

abbrev ChatTable := Table ChatRow.jid

/-- What a `TEXT` column keeps of a parameter, or what binding it raises. `realText` is the text
SQLite makes of a float; a NaN is bound as `NULL`. -/
def columnText (realText : String → String) : Json → Except PyExc (Option String)
  | .null => .ok none
  | .bool b => .ok (some (if b then "1" else "0"))
  | .int n =>
    if -9223372036854775808 ≤ n ∧ n ≤ 9223372036854775807 then .ok (some (toString n))
    else .error .overflowError
  | .float r => .ok (if r = "nan" then none else some (realText r))
  | .str s => .ok (some s)
  | .illFormed _ => .error .unicodeEncodeError
  | .arr _ | .obj _ => .error (.other "sqlite3.ProgrammingError")

/-- `INSERT … ON CONFLICT(jid) DO UPDATE`. -/
def upsertChat (chats : ChatTable) (row : ChatRow) : ChatTable :=
  match chats.insert row with
  | some chats => chats
  | none =>
    chats.modify row.jid
      (fun r =>
        { r with
          name := row.name.or r.name
          lastMessageTime := max r.lastMessageTime row.lastMessageTime
          channel := row.channel.or r.channel
          isGroup := row.isGroup.or r.isGroup })
      (fun _ => rfl)

/-- `store_chat_metadata`. A text is none where it has a lone surrogate. -/
def storeChatMetadata (realText : String → String) (chats : ChatTable)
    (chatJid timestamp : Option String) (name : Json) (channel : Option String)
    (isGroup : Option Bool) : Except PyExc ChatTable :=
  match chatJid with
  | none => .error .unicodeEncodeError
  | some jid =>
    match columnText realText (name.orElse (str jid)) with
    | .error e => .error e
    | .ok visibleName =>
      match timestamp with
      | none => .error .unicodeEncodeError
      | some time =>
        .ok (upsertChat chats
          { jid := jid
            name := visibleName
            lastMessageTime := time
            channel := channel
            isGroup := isGroup })

/-- `get_all_chats`. The order in which SQLite visits rows decides between equal times. -/
def getAllChats (scan : List ChatRow → List ChatRow) (chats : ChatTable) : List ChatRow :=
  (scan chats.rows).insertionSort (fun a b => b.lastMessageTime ≤ a.lastMessageTime)

theorem mem_getAllChats {scan : List ChatRow → List ChatRow} (hscan : ∀ rows, (scan rows).Perm rows)
    {chats : ChatTable} {chat : ChatRow} : chat ∈ getAllChats scan chats ↔ chat ∈ chats.rows := by
  rw [getAllChats, List.mem_insertionSort, (hscan _).mem_iff]

end NanoClaw.Store
