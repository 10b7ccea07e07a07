import NanoClaw.Library.Latest
import Mathlib.Data.List.Pairwise
import Mathlib.Data.List.Sort
import Mathlib.Data.String.Basic

/-! The table of messages and the queries that select what an agent has still to see. -/
namespace NanoClaw.Store

structure NewMessage where
  id : String
  chatJid : String
  sender : String
  senderName : String
  content : String
  timestamp : String
  isFromMe : Bool
  isBotMessage : Bool
  deriving DecidableEq, Repr

/-- SQLite's `LIKE`: `%` stands for any text, `_` for any character, and ASCII letters match
whatever their case. -/
def sqlLike : List Char → List Char → Bool
  | [], s => s.isEmpty
  | '%' :: pattern, s => s.tails.any (fun t => sqlLike pattern t)
  | _ :: _, [] => false
  | p :: pattern, c :: s => (p == '_' || p.toLower == c.toLower) && sqlLike pattern s

/-- The text `LIKE` reads: it ends at the first zero character. -/
def cText (s : String) : List Char := s.toList.takeWhile (· ≠ '\x00')

/-- A message an agent may see: not by the bot, not empty, not carrying the bot's prefix. -/
def Eligible (botPrefix : String) (m : NewMessage) : Prop :=
  m.isBotMessage = false ∧ sqlLike (botPrefix ++ ":%").toList (cText m.content) = false ∧
    m.content ≠ ""

instance (botPrefix : String) (m : NewMessage) : Decidable (Eligible botPrefix m) := by
  unfold Eligible
  infer_instance

/-- `INSERT OR REPLACE`: the row with the same id and chat gives way to the new one. -/
def storeMessage (rows : List NewMessage) (m : NewMessage) : List NewMessage :=
  rows.filter (fun r => r.id ≠ m.id ∨ r.chatJid ≠ m.chatJid) ++ [m]

/-- The rows the `WHERE` clause selects. -/
def pendingSince (rows : List NewMessage) (chatJid since botPrefix : String) : List NewMessage :=
  rows.filter (fun m => m.chatJid = chatJid ∧ since < m.timestamp ∧ Eligible botPrefix m)

/-- The order in which SQLite hands rows to a sort. It decides between equal timestamps, and
nothing else is said about it. -/
structure Plan where
  scan : List NewMessage → List NewMessage
  perm : ∀ rows, (scan rows).Perm rows

/-- The rows as they were stored. -/
def Plan.stored : Plan := ⟨id,fun _ => .refl _⟩

/-- The number of rows `get_messages_since` returns at most. -/
def defaultLimit : Nat := 200

def newestFirst (rows : List NewMessage) : List NewMessage :=
  rows.insertionSort (fun a b => b.timestamp ≤ a.timestamp)

def oldestFirst (rows : List NewMessage) : List NewMessage :=
  rows.insertionSort (fun a b => a.timestamp ≤ b.timestamp)

/-- `get_messages_since`: the newest rows up to the limit, oldest first. -/
def getMessagesSince (plan : Plan) (rows : List NewMessage) (chatJid since botPrefix : String)
    (limit : Nat) : List NewMessage :=
  oldestFirst (plan.scan
    ((newestFirst (plan.scan (pendingSince rows chatJid since botPrefix))).take limit))

def hasMessagesSince (rows : List NewMessage) (chatJid since botPrefix : String) : Bool :=
  !(pendingSince rows chatJid since botPrefix).isEmpty

theorem mem_storeMessage {rows : List NewMessage} {m r : NewMessage} (h : r ∈ storeMessage rows m) :
    r ∈ rows ∨ r = m := by
  rcases List.mem_append.mp h with h | h
  · exact Or.inl (List.mem_filter.mp h).1
  · exact Or.inr (List.mem_singleton.mp h)

theorem mem_pendingSince {rows : List NewMessage} {chatJid since botPrefix : String}
    {m : NewMessage} : m ∈ pendingSince rows chatJid since botPrefix ↔
      m ∈ rows ∧ m.chatJid = chatJid ∧ since < m.timestamp ∧ Eligible botPrefix m := by
  simp only [pendingSince, List.mem_filter, decide_eq_true_eq]

theorem hasMessagesSince_iff {rows : List NewMessage} {chatJid since botPrefix : String} :
    hasMessagesSince rows chatJid since botPrefix = true ↔
      ∃ m ∈ rows, m.chatJid = chatJid ∧ since < m.timestamp ∧ Eligible botPrefix m := by
  simp only [hasMessagesSince, Bool.not_eq_true', List.isEmpty_eq_false_iff_exists_mem,
    mem_pendingSince]

/-- The rows of a batch are pending rows. -/
theorem mem_of_mem_getMessagesSince {plan : Plan} {rows : List NewMessage}
    {chatJid since botPrefix : String} {limit : Nat} {m : NewMessage}
    (h : m ∈ getMessagesSince plan rows chatJid since botPrefix limit) :
    m ∈ pendingSince rows chatJid since botPrefix :=
  Latest.mem_of_mem_latest plan.perm h

/-- The primary key of the table. -/
def NewMessage.key (m : NewMessage) : String × String := (m.id,m.chatJid)

theorem storeMessage_nodup {rows : List NewMessage} (h : (rows.map (·.key)).Nodup) (m : NewMessage) :
    ((storeMessage rows m).map (·.key)).Nodup := by
  rw [storeMessage, List.map_append]
  refine (h.sublist (List.filter_sublist.map _)).append (List.nodup_singleton _) ?_
  intro k hk hm
  obtain ⟨r,hr,rfl⟩ := List.mem_map.mp hk
  have hkey : r.key = m.key := List.mem_singleton.mp hm
  obtain ⟨hid,hchat⟩ := Prod.ext_iff.mp hkey
  rcases of_decide_eq_true (List.mem_filter.mp hr).2 with hne | hne
  · exact hne hid
  · exact hne hchat

theorem newestFirst_perm (rows : List NewMessage) : (newestFirst rows).Perm rows :=
  Latest.descending_perm rows

theorem oldestFirst_perm (rows : List NewMessage) : (oldestFirst rows).Perm rows :=
  Latest.ascending_perm rows

theorem oldestFirst_sorted (rows : List NewMessage) :
    (oldestFirst rows).Pairwise (fun a b => a.timestamp ≤ b.timestamp) :=
  Latest.ascending_sorted rows

section Batch
variable {plan : Plan} {rows : List NewMessage} {chatJid since botPrefix : String} {limit : Nat}

/-- A batch holds the latest of the pending rows. -/
theorem getMessagesSince_isLatest :
    Latest.IsLatest (·.timestamp) limit (pendingSince rows chatJid since botPrefix)
      (getMessagesSince plan rows chatJid since botPrefix limit) :=
  Latest.latest_spec plan.perm limit _

/-- No row is twice in a batch. -/
theorem getMessagesSince_nodup (h : (rows.map (·.key)).Nodup) :
    ((getMessagesSince plan rows chatJid since botPrefix limit).map (·.key)).Nodup := by
  obtain ⟨omitted,hsplit,_⟩ :=
    @getMessagesSince_isLatest plan rows chatJid since botPrefix limit |>.omits
  have hpending : ((pendingSince rows chatJid since botPrefix).map (·.key)).Nodup :=
    h.sublist (List.filter_sublist.map _)
  have hall := ((hsplit.map (·.key)).nodup_iff).mpr hpending
  rw [List.map_append] at hall
  exact hall.of_append_left

/-- The last row of a batch is its latest. -/
theorem getMessagesSince_le_last {last m : NewMessage}
    (hlast : (getMessagesSince plan rows chatJid since botPrefix limit).getLast? = some last)
    (hm : m ∈ getMessagesSince plan rows chatJid since botPrefix limit) :
    m.timestamp ≤ last.timestamp := by
  rw [List.getLast?_eq_getLast_of_ne_nil (List.ne_nil_of_mem hm)] at hlast
  rw [← Option.some.inj hlast]
  exact getMessagesSince_isLatest.sorted.rel_getLast_of_rel_getLast_getLast hm (le_refl _)

end Batch

/-- Below the limit the batch holds every pending row. -/
theorem mem_getMessagesSince {plan : Plan} {rows : List NewMessage}
    {chatJid since botPrefix : String} {limit : Nat}
    (hlimit : (pendingSince rows chatJid since botPrefix).length ≤ limit) {m : NewMessage}
    (h : m ∈ pendingSince rows chatJid since botPrefix) :
    m ∈ getMessagesSince plan rows chatJid since botPrefix limit :=
  Latest.mem_latest plan.perm hlimit h

end NanoClaw.Store
