import NanoClaw.Store.Chats
import Mathlib.Data.List.Induction
import Mathlib.Order.Bounds.Basic

/-! What any number of calls of `store_chat_metadata` for one chat leave in its row. -/
namespace NanoClaw.Store
open Json

/-- What a call says about a chat. -/
structure MetadataCall where
  timestamp : String
  name : Option String
  channel : Option String
  isGroup : Option Bool
  deriving DecidableEq, Repr

section Calls
variable (realText : String → String) (jid : String)

end Calls

def stamps (calls : List MetadataCall) : Set String := {t | t ∈ calls.map (·.timestamp)}

section Fold
variable {realText : String → String} {jid : String} {chats chats' : ChatTable}
  {calls : List MetadataCall} {c : MetadataCall}

section Runs

private def seen : MetadataCall := ⟨"2026-01-01T00:00:00Z",none,none,some true⟩

private def named : MetadataCall := ⟨"2026-01-02T00:00:00Z",some "Family",some "webhook",none⟩

end Runs

end Fold

end NanoClaw.Store
