import NanoClaw.Library.Latest
import NanoClaw.Library.PyExc
import NanoClaw.Store.Messages
import Mathlib.Data.List.Forall2
import Mathlib.Data.List.Infix
import Mathlib.Data.List.TakeWhile
import Mathlib.Order.WithBot

/-! The table of messages as SQLite holds it, with columns that may be `NULL`, and the two queries
over it next to the rows an agent should see. -/
namespace NanoClaw.Store.Rows
open Latest

/-- A row of `messages`. -/
structure MessageRow where
  id : Option String
  chatJid : Option String
  sender : Option String
  senderName : Option String
  content : Option String
  timestamp : Option String
  isFromMe : Option Int
  isBotMessage : Option Int
  deriving DecidableEq, Repr

def isNameChar (c : Char) : Bool := c.isAlphanum || c == ' ' || c == '_' || c == '-'

/-- `re.fullmatch(r"[A-Za-z0-9 _-]{1,64}", name)`. -/
def isAllowedName (name : String) : Bool :=
  decide (1 ≤ name.length ∧ name.length ≤ 64) && name.toList.all isNameChar

/-- The names `config.py` admits. -/
structure AssistantName where
  text : String
  allowed : isAllowedName text = true

/-- `ASSISTANT_NAME`, from what is configured. -/
def assistantName (configured : String) : AssistantName :=
  if h : isAllowedName configured = true then ⟨configured,h⟩ else ⟨"Andy",by decide⟩

/-- Python's `str` of a column. -/
def str (column : Option String) : String := column.getD "None"

def MessageRow.decode (row : MessageRow) : NewMessage where
  id := str row.id
  chatJid := str row.chatJid
  sender := str row.sender
  senderName := str row.senderName
  content := str row.content
  timestamp := str row.timestamp
  isFromMe := row.isFromMe.any (· ≠ 0)
  isBotMessage := row.isBotMessage.any (· ≠ 0)

/-- The row `store_message` writes. -/
def MessageRow.ofMessage (m : NewMessage) : MessageRow where
  id := some m.id
  chatJid := some m.chatJid
  sender := some m.sender
  senderName := some m.senderName
  content := some m.content
  timestamp := some m.timestamp
  isFromMe := some m.isFromMe.toInt
  isBotMessage := some m.isBotMessage.toInt

/-- The `WHERE` clause of both queries. A comparison with `NULL` is not true. -/
def MessageRow.Selected (chatJid since botPrefix : String) (row : MessageRow) : Prop :=
  row.chatJid.any (· = chatJid) ∧ row.timestamp.any (since < ·) ∧ row.isBotMessage.any (· = 0) ∧
    row.content.any (fun c => !sqlLike (botPrefix ++ ":%").toList (cText c)) ∧
    row.content.any (· ≠ "") ∧ row.content.isSome

instance (chatJid since botPrefix : String) (row : MessageRow) :
    Decidable (row.Selected chatJid since botPrefix) := by
  unfold MessageRow.Selected
  infer_instance

/-- What `ORDER BY timestamp` compares: `NULL` comes first. -/
def MessageRow.stamp (row : MessageRow) : WithBot String := row.timestamp

/-- The order in which SQLite hands rows to a sort. -/
structure Scan where
  order : List MessageRow → List MessageRow
  perm : ∀ rows, (order rows).Perm rows

/-- The rows `get_messages_since` fetches. A limit below zero is none, and one that takes more than
64 bits is not bound. -/
def selectMessagesSince (scan : Scan) (rows : List MessageRow) (chatJid since botPrefix : String)
    (limit : Int) : Except PyExc (List MessageRow) :=
  let selected := rows.filter (·.Selected chatJid since botPrefix)
  if limit < -9223372036854775808 ∨ 9223372036854775807 < limit then .error .overflowError
  else .ok (latest MessageRow.stamp scan.order
    (if limit < 0 then selected.length else limit.toNat) selected)

def getMessagesSince (scan : Scan) (rows : List MessageRow) (chatJid since botPrefix : String)
    (limit : Int) : Except PyExc (List NewMessage) :=
  (selectMessagesSince scan rows chatJid since botPrefix limit).map (·.map MessageRow.decode)

def hasMessagesSince (scan : Scan) (rows : List MessageRow) (chatJid since botPrefix : String) :
    Bool :=
  ((scan.order (rows.filter (·.Selected chatJid since botPrefix))).take 1).head?.isSome

/-- What the query is for: the messages of the chat after the cursor that are not the bot's own. -/
def MessageRow.Wanted (chatJid since name : String) (row : MessageRow) : Prop :=
  row.chatJid = some chatJid ∧ (∃ time ∈ row.timestamp, since < time) ∧ row.isBotMessage = some 0 ∧
    ∃ content ∈ row.content, content ≠ "" ∧ ¬ (name ++ ":").toList <+: content.toList

instance (chatJid since name : String) (row : MessageRow) :
    Decidable (row.Wanted chatJid since name) := by
  unfold MessageRow.Wanted
  infer_instance

/-- A text that begins like the prefix, if the case of letters does not count and `_` stands for any
character but zero. -/
def LooksPrefixed (name content : String) : Prop :=
  ∃ start rest, content.toList = start ++ ':' :: rest ∧ '\x00' ∉ start ∧
    name.toList.Forall₂ (fun p c => p = '_' ∨ p.toLower = c.toLower) start

section Like

private theorem toLower_eq_colon {c : Char} (h : ':'.toLower = c.toLower) : c = ':' := by
  delta Char.toLower at h
  rw [dif_neg (by decide)] at h
  split at h
  · next hupper =>
    have hval : (58 : Nat) = (c.val + 32).toNat := congrArg (fun c : Char => c.val.toNat) h
    have hlow : 65 ≤ c.val.toNat := hupper.1
    have hhigh : c.val.toNat ≤ 90 := hupper.2
    have hshift : (32 : UInt32).toNat = 32 := rfl
    rw [UInt32.toNat_add, hshift, Nat.mod_eq_of_lt (by omega)] at hval
    omega
  · exact h.symm

private theorem sqlLike_percent (s : List Char) : sqlLike ['%'] s = true := by
  rw [sqlLike, List.any_eq_true]
  exact ⟨[],(List.mem_tails _ _).mpr List.nil_suffix,rfl⟩

private theorem sqlLike_nil {p : Char} {pattern : List Char} (hp : p ≠ '%') :
    sqlLike (p :: pattern) [] = false := by
  rw [sqlLike]
  exact hp

private theorem sqlLike_cons {p c : Char} {pattern s : List Char} (hp : p ≠ '%') :
    sqlLike (p :: pattern) (c :: s) = true ↔
      (p = '_' ∨ p.toLower = c.toLower) ∧ sqlLike pattern s = true := by
  rw [sqlLike, Bool.and_eq_true, Bool.or_eq_true, beq_iff_eq, beq_iff_eq]
  exact hp

/-- A pattern without `%` but at its end. -/
theorem sqlLike_literal {literal s : List Char} (hliteral : '%' ∉ literal) :
    sqlLike (literal ++ [':','%']) s = true ↔
      ∃ start rest, s = start ++ ':' :: rest ∧
        literal.Forall₂ (fun p c => p = '_' ∨ p.toLower = c.toLower) start := by
  induction literal generalizing s with
  | nil =>
    simp only [List.nil_append, List.forall₂_nil_left_iff]
    cases s with
    | nil => simp [sqlLike_nil]
    | cons c s =>
      rw [sqlLike_cons (by decide), and_iff_left (sqlLike_percent s), or_iff_right (by decide)]
      constructor
      · intro h
        exact ⟨[],s,by rw [toLower_eq_colon h]; rfl,rfl⟩
      · rintro ⟨_,rest,hs,rfl⟩
        rw [(List.cons.inj hs).1]
  | cons p literal ih =>
    obtain ⟨hp,hliteral⟩ := not_or.mp (mt List.mem_cons.mpr hliteral)
    cases s with
    | nil =>
      rw [List.cons_append, sqlLike_nil (Ne.symm hp)]
      constructor
      · simp
      · rintro ⟨start,rest,hs,_⟩
        simp at hs
    | cons c s =>
      rw [List.cons_append, sqlLike_cons (Ne.symm hp), ih hliteral]
      constructor
      · rintro ⟨hc,start,rest,rfl,hstart⟩
        exact ⟨c :: start,rest,rfl,.cons hc hstart⟩
      · rintro ⟨_,rest,hs,hstart⟩
        cases hstart with
        | cons hc hstart =>
          obtain ⟨rfl,rfl⟩ := List.cons.inj hs
          exact ⟨hc,_,rest,rfl,hstart⟩

end Like

section Prefix
variable {name : AssistantName} {content : String}

private theorem AssistantName.not_mem {c : Char} (hc : isNameChar c = false) :
    c ∉ name.text.toList := by
  intro h
  have hall := (Bool.and_eq_true_iff.mp name.allowed).2
  rw [List.all_eq_true.mp hall c h] at hc
  contradiction

private theorem zero_not_mem_cText (s : String) : '\x00' ∉ cText s := by
  intro h
  have hne := List.mem_takeWhile_imp (p := fun c => decide (c ≠ '\x00')) h
  exact of_decide_eq_true hne rfl

theorem sqlLike_prefix :
    sqlLike (name.text ++ ":%").toList (cText content) = true ↔ LooksPrefixed name.text content := by
  have hpattern : (name.text ++ ":%").toList = name.text.toList ++ [':','%'] :=
    String.toList_append
  rw [hpattern, sqlLike_literal (AssistantName.not_mem (by decide))]
  constructor
  · rintro ⟨start,rest,htext,hstart⟩
    refine ⟨start,rest ++ content.toList.dropWhile (· ≠ '\x00'),?_,?_,hstart⟩
    · rw [← List.cons_append, ← List.append_assoc, ← htext, cText, List.takeWhile_append_dropWhile]
    · intro hzero
      exact zero_not_mem_cText content (htext ▸ List.mem_append_left _ hzero)
  · rintro ⟨start,rest,htext,hzero,hstart⟩
    refine ⟨start,rest.takeWhile (· ≠ '\x00'),?_,hstart⟩
    rw [cText, htext, List.takeWhile_append_of_pos]
    · rfl
    · intro c hc
      exact decide_eq_true (fun h => hzero (h ▸ hc))

/-- The prefix itself looks like the prefix. -/
theorem LooksPrefixed.of_prefix (h : (name.text ++ ":").toList <+: content.toList) :
    LooksPrefixed name.text content := by
  obtain ⟨rest,hrest⟩ := h
  refine ⟨name.text.toList,rest,?_,AssistantName.not_mem (by decide),?_⟩
  · rw [← hrest, String.toList_append, List.append_assoc]
    rfl
  · exact List.forall₂_same.mpr (fun _ _ => Or.inr rfl)

end Prefix

section Queries
variable {rows : List MessageRow} {chatJid since : String} {name : AssistantName}

/-- The rows the query selects are the wanted ones that do not look prefixed. -/
theorem MessageRow.selected_iff {row : MessageRow} :
    row.Selected chatJid since name.text ↔
      row.Wanted chatJid since name.text ∧
        ∀ content ∈ row.content, ¬ LooksPrefixed name.text content := by
  cases hcontent : row.content with
  | none => simp [MessageRow.Selected, MessageRow.Wanted, hcontent]
  | some content =>
    have hlike : (!sqlLike (name.text ++ ":%").toList (cText content)) = true ↔
        ¬ LooksPrefixed name.text content := by
      rw [← sqlLike_prefix, Bool.not_eq_true', Bool.not_eq_true]
    have hliteral : ¬ LooksPrefixed name.text content →
        ¬ (name.text ++ ":").toList <+: content.toList := mt LooksPrefixed.of_prefix
    simp only [MessageRow.Selected, MessageRow.Wanted, hcontent, Option.any_some, hlike,
      Option.any_eq_true, Option.isSome_some, Option.mem_def, Option.some.injEq, forall_eq',
      exists_eq_left', decide_eq_true_eq, and_true, exists_eq_right]
    constructor
    · rintro ⟨hchat,htime,hbot,hlooks,hempty⟩
      exact ⟨⟨hchat,htime,hbot,hempty,hliteral hlooks⟩,hlooks⟩
    · rintro ⟨⟨hchat,htime,hbot,hempty,_⟩,hlooks⟩
      exact ⟨hchat,htime,hbot,hlooks,hempty⟩

private theorem filter_selected :
    rows.filter (·.Selected chatJid since name.text) =
      (rows.filter (·.Wanted chatJid since name.text)).filter
        (·.Selected chatJid since name.text) := by
  rw [List.filter_filter]
  refine List.filter_congr (fun row _ => ?_)
  have h : row.Selected chatJid since name.text → row.Wanted chatJid since name.text :=
    fun h => (MessageRow.selected_iff.mp h).1
  grind

private theorem not_selected_iff {row : MessageRow} (h : row.Wanted chatJid since name.text) :
    ¬ row.Selected chatJid since name.text ↔
      ∃ content ∈ row.content, LooksPrefixed name.text content := by
  rw [MessageRow.selected_iff, and_iff_right h]
  push Not
  exact Iff.rfl

/-- The latest of the selected rows are the latest of the wanted ones exactly when enough of them
are not older than each wanted row that looks prefixed. -/
theorem isLatest_wanted_iff {bound : Nat} {fetched : List MessageRow}
    (h : IsLatest MessageRow.stamp bound (rows.filter (·.Selected chatJid since name.text)) fetched) :
    IsLatest MessageRow.stamp bound (rows.filter (·.Wanted chatJid since name.text)) fetched ↔
      ∀ row ∈ rows, row.Wanted chatJid since name.text →
        (∃ content ∈ row.content, LooksPrefixed name.text content) →
        bound ≤ ((rows.filter (·.Selected chatJid since name.text)).filter
          (fun seen => row.stamp ≤ seen.stamp)).length := by
  rw [filter_selected] at h
  rw [isLatest_filter_iff h, ← filter_selected]
  constructor
  · intro henough row hrow hwanted hlooks
    refine henough row (List.mem_filter.mpr ⟨hrow,decide_eq_true hwanted⟩) ?_
    exact decide_eq_false ((not_selected_iff hwanted).mpr hlooks)
  · intro henough row hrow hhidden
    obtain ⟨hrow,hwanted⟩ := List.mem_filter.mp hrow
    have hwanted := of_decide_eq_true hwanted
    exact henough row hrow hwanted ((not_selected_iff hwanted).mp (of_decide_eq_false hhidden))

theorem selectMessagesSince_eq {scan : Scan} {botPrefix : String} {bound : Nat}
    (hbound : bound ≤ 9223372036854775807) :
    selectMessagesSince scan rows chatJid since botPrefix bound =
      .ok (latest MessageRow.stamp scan.order bound
        (rows.filter (·.Selected chatJid since botPrefix))) := by
  rw [selectMessagesSince, if_neg (by omega), if_neg (by omega), Int.toNat_natCast]

/-- The query is exact if each message it takes for the bot's own, because its beginning looks like
the prefix, is no later than as many of the selected ones as the limit asks for, and only then. -/
theorem getMessagesSince_exact_iff (scan : Scan) (rows : List MessageRow) (chatJid since : String)
    (limit : Int) (name : AssistantName) :
    (∃ (bound : Nat) (fetched : List MessageRow), limit = bound ∧
      selectMessagesSince scan rows chatJid since name.text limit = .ok fetched ∧
      getMessagesSince scan rows chatJid since name.text limit =
        .ok (fetched.map MessageRow.decode) ∧
      IsLatest MessageRow.stamp bound (rows.filter (·.Wanted chatJid since name.text)) fetched) ↔
    0 ≤ limit ∧ limit ≤ 9223372036854775807 ∧
      ∀ row ∈ rows, row.Wanted chatJid since name.text →
        (∃ content ∈ row.content, LooksPrefixed name.text content) →
        limit ≤ ((rows.filter (·.Selected chatJid since name.text)).filter
          (fun seen => row.stamp ≤ seen.stamp)).length := by
  constructor
  · rintro ⟨bound,fetched,rfl,hfetched,_,hlatest⟩
    have hbound : bound ≤ 9223372036854775807 := by
      by_contra hover
      rw [selectMessagesSince, if_pos (Or.inr (by omega))] at hfetched
      contradiction
    rw [selectMessagesSince_eq hbound, Except.ok.injEq] at hfetched
    subst hfetched
    refine ⟨by omega,by omega,fun row hrow hwanted hlooks => ?_⟩
    have henough := (isLatest_wanted_iff (latest_spec scan.perm bound _)).mp hlatest
    exact Int.ofNat_le.mpr (henough row hrow hwanted hlooks)
  · rintro ⟨hnonneg,hbound,henough⟩
    obtain ⟨bound,rfl⟩ := Int.eq_ofNat_of_zero_le hnonneg
    have hselect : selectMessagesSince scan rows chatJid since name.text bound =
        .ok (latest MessageRow.stamp scan.order bound
          (rows.filter (·.Selected chatJid since name.text))) :=
      selectMessagesSince_eq (by omega)
    refine ⟨bound,_,rfl,hselect,?_,?_⟩
    · rw [getMessagesSince, hselect]
      rfl
    · apply (isLatest_wanted_iff (latest_spec scan.perm bound _)).mpr
      intro row hrow hwanted hlooks
      exact Int.ofNat_le.mp (henough row hrow hwanted hlooks)

private def saidRow (content : String) : MessageRow :=
  { id := some "1", chatJid := some "local:main", sender := some "u", senderName := some "U",
    content := some content, timestamp := some "2026-01-01T00:00:00Z", isFromMe := some 0,
    isBotMessage := some 0 }

private def Scan.stored : Scan := ⟨id,fun _ => .refl _⟩

/-- A user who begins with `My Bot:` is not heard by an assistant called `My_Bot`. -/
theorem wildcard_in_name_hides_message :
    ¬ ∃ (bound : Nat) (fetched : List MessageRow), (200 : Int) = bound ∧
      selectMessagesSince Scan.stored [saidRow "My Bot: hello"] "local:main" ""
        (assistantName "My_Bot").text 200 = .ok fetched ∧
      getMessagesSince Scan.stored [saidRow "My Bot: hello"] "local:main" ""
        (assistantName "My_Bot").text 200 = .ok (fetched.map MessageRow.decode) ∧
      IsLatest MessageRow.stamp bound
        ([saidRow "My Bot: hello"].filter (·.Wanted "local:main" "" (assistantName "My_Bot").text))
        fetched := by
  rintro ⟨bound,fetched,hbound,hfetched,_,hlatest⟩
  obtain rfl : 200 = bound := Int.ofNat_inj.mp hbound
  have hnone : selectMessagesSince Scan.stored [saidRow "My Bot: hello"] "local:main" ""
      (assistantName "My_Bot").text 200 = .ok [] := by decide +kernel
  have hone : ([saidRow "My Bot: hello"].filter
      (·.Wanted "local:main" "" (assistantName "My_Bot").text)).length = 1 := by decide +kernel
  obtain rfl := Except.ok.inj (hnone.symm.trans hfetched)
  have hcount := hlatest.count
  rw [hone] at hcount
  contradiction

end Queries

section Messages
variable {scan : Scan} {chatJid since botPrefix : String}

theorem hasMessagesSince_iff {rows : List MessageRow} :
    hasMessagesSince scan rows chatJid since botPrefix = true ↔
      rows.filter (·.Selected chatJid since botPrefix) ≠ [] := by
  have hperm := scan.perm (rows.filter (·.Selected chatJid since botPrefix))
  rw [hasMessagesSince, List.head?_take, if_neg one_ne_zero, List.isSome_head?, Ne, Ne,
    ← List.length_eq_zero_iff, hperm.length_eq, List.length_eq_zero_iff]

/-- There is something to fetch exactly when something is fetched. -/
theorem hasMessagesSince_iff_fetched {rows : List MessageRow} :
    hasMessagesSince scan rows chatJid since botPrefix = true ↔
      ∃ messages, getMessagesSince scan rows chatJid since botPrefix defaultLimit = .ok messages ∧
        messages ≠ [] := by
  have hlatest : latest MessageRow.stamp scan.order defaultLimit
      (rows.filter (·.Selected chatJid since botPrefix)) = [] ↔
      rows.filter (·.Selected chatJid since botPrefix) = [] :=
    latest_eq_nil_iff scan.perm (by decide)
  rw [getMessagesSince, selectMessagesSince_eq (by decide), hasMessagesSince_iff, ← hlatest.ne]
  simp [Except.map]

@[simp] theorem MessageRow.decode_ofMessage (m : NewMessage) : (ofMessage m).decode = m := by
  obtain ⟨id,chatJid,sender,senderName,content,timestamp,isFromMe,isBotMessage⟩ := m
  cases isFromMe <;> cases isBotMessage <;> rfl

theorem MessageRow.selected_ofMessage {m : NewMessage} :
    (ofMessage m).Selected chatJid since botPrefix ↔
      m.chatJid = chatJid ∧ since < m.timestamp ∧ Eligible botPrefix m := by
  simp only [Selected, ofMessage, Eligible, Option.any_some, Option.isSome_some, and_true,
    decide_eq_true_eq, Bool.not_eq_true']
  cases m.isBotMessage <;> simp

theorem filter_selected_ofMessage (messages : List NewMessage) :
    (messages.map MessageRow.ofMessage).filter (·.Selected chatJid since botPrefix) =
      (pendingSince messages chatJid since botPrefix).map MessageRow.ofMessage := by
  rw [List.filter_map, pendingSince]
  congr 2
  funext m
  exact decide_eq_decide.mpr MessageRow.selected_ofMessage

/-- Over the rows `store_message` writes the queries are those of the table of messages. -/
theorem getMessagesSince_ofMessages {plan : Plan} {messages : List NewMessage} {bound : Nat}
    (hscan : ∀ l, scan.order (l.map MessageRow.ofMessage) = (plan.scan l).map MessageRow.ofMessage)
    (hbound : bound ≤ 9223372036854775807) :
    getMessagesSince scan (messages.map MessageRow.ofMessage) chatJid since botPrefix bound =
      .ok (Store.getMessagesSince plan messages chatJid since botPrefix bound) := by
  have hkey : ∀ a b : NewMessage, a.timestamp ≤ b.timestamp ↔
      (MessageRow.ofMessage a).stamp ≤ (MessageRow.ofMessage b).stamp :=
    fun _ _ => WithBot.coe_le_coe.symm
  have hlatest := latest_map hkey hscan bound (pendingSince messages chatJid since botPrefix)
  have hdecode : MessageRow.decode ∘ MessageRow.ofMessage = id := funext MessageRow.decode_ofMessage
  rw [getMessagesSince, selectMessagesSince_eq hbound, filter_selected_ofMessage, hlatest,
    Except.map, List.map_map, hdecode, List.map_id]
  rfl

theorem hasMessagesSince_ofMessages (messages : List NewMessage) :
    hasMessagesSince scan (messages.map MessageRow.ofMessage) chatJid since botPrefix =
      Store.hasMessagesSince messages chatJid since botPrefix := by
  rw [Bool.eq_iff_iff, hasMessagesSince_iff, filter_selected_ofMessage]
  simp [Store.hasMessagesSince]

end Messages
end NanoClaw.Store.Rows
