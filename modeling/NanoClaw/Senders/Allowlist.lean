import NanoClaw.Library.Each
import NanoClaw.Library.Json
import NanoClaw.Library.TextFile

/-! The sender allowlist: what a file of it configures, and which files a load raises on. -/
namespace NanoClaw.Senders
open Json

/-- An entry as the file has it. -/
structure ChatAllowlistEntry where
  allow : Json
  mode : Json

/-- A configuration, with its chats in the order of the file. -/
structure SenderAllowlistConfig where
  default : ChatAllowlistEntry := ⟨str "*",str "trigger"⟩
  chats : List (String × ChatAllowlistEntry) := []
  logDenied : Bool := true

/-- `allow == "*"`, or a list of texts. -/
def isValidAllow : Json → Bool
  | .str s => s == "*"
  | .arr items => items.all isText
  | _ => false

def isValidMode : Json → Bool
  | .str s => s == "trigger" || s == "drop"
  | _ => false

/-- `_is_valid_entry`. A list or an object cannot be looked for in a set, since it has no hash. -/
def isValidEntry : Json → Except PyExc Bool
  | .obj fields =>
    match getKey "mode" fields with
    | .arr _ | .obj _ => .error .typeError
    | mode => .ok (isValidAllow (getKey "allow" fields) && isValidMode mode)
  | _ => .ok false

def entryOf : Json → ChatAllowlistEntry
  | .obj fields => ⟨getKey "allow" fields,getKey "mode" fields⟩
  | _ => ⟨null,null⟩

/-- `raw_chats.items()`, and nothing where it is no object. -/
def chatItems (fields : List (String × Json)) : List (String × Json) :=
  match getKey "chats" fields with
  | .obj items => items
  | _ => []

/-- `parsed.get("logDenied") is not False`. -/
def logsDenied (fields : List (String × Json)) : Bool :=
  match getKey "logDenied" fields with
  | .bool false => false
  | _ => true

/-- The loop over the chats; each key of an object is met once. -/
def loadChats (items : List (String × Json)) :
    Except PyExc (List (String × ChatAllowlistEntry)) :=
  Each.collect (fun item =>
    (isValidEntry item.2).map (fun valid =>
      if valid then some (item.1,entryOf item.2) else none)) items

/-- The object in the file, once it is parsed. -/
def loadDocument (fields : List (String × Json)) : Except PyExc SenderAllowlistConfig :=
  match isValidEntry (getKey "default" fields) with
  | .error e => .error e
  | .ok false => .ok {}
  | .ok true =>
    (loadChats (chatItems fields)).map (fun chats =>
      { default := entryOf (getKey "default" fields), chats, logDenied := logsDenied fields })

section Loading
variable (loads : List Char → Except PyExc Json)

/-- `_load_sender_allowlist_uncached`, given `json.loads`. -/
def loadUncached (file : TextFile) : Except PyExc SenderAllowlistConfig :=
  match file.readText with
  | .error .osError => .ok {}
  | .error e => .error e
  | .ok raw =>
    match loads raw with
    | .error .jsonDecodeError => .ok {}
    | .error e => .error e
    | .ok (.obj fields) => loadDocument fields
    | .ok _ => .ok {}

/-- `_allowlist_cache` and `_allowlist_mtime`. Modification times are only compared. -/
structure Cache where
  value : Option SenderAllowlistConfig := none
  mtime : Nat := 0

/-- The part of `load_sender_allowlist` behind the look at the cache. -/
def reload (cache : Cache) (file : TextFile) (mtime : Option Nat) :
    Except PyExc SenderAllowlistConfig × Cache :=
  match loadUncached loads file with
  | .error e => (.error e,cache)
  | .ok result => (.ok result,⟨some result,mtime.getD cache.mtime⟩)

/-- `load_sender_allowlist` without an override of the path. `before` and `after` are what `stat` says
around the reading of the file, none for an `OSError`. -/
def loadSenderAllowlist (cache : Cache) (before : Option Nat) (file : TextFile)
    (after : Option Nat) : Except PyExc SenderAllowlistConfig × Cache :=
  match cache.value, before with
  | none, _ => reload loads cache file after
  | some cached, none => (.ok cached,cache)
  | some cached, some mtime =>
    if mtime = cache.mtime then (.ok cached,cache) else reload loads cache file after

end Loading

section Expected

/-- The entry that a value gives, none where the value is not valid. -/
def validEntry : Json → Option ChatAllowlistEntry
  | .obj fields =>
    if isValidAllow (getKey "allow" fields) ∧ isValidMode (getKey "mode" fields) then
      some ⟨getKey "allow" fields,getKey "mode" fields⟩
    else none
  | _ => none

/-- The object in a file; none where no object can be read from it. -/
def documentOf (loads : List Char → Except PyExc Json) (file : TextFile) :
    Option (List (String × Json)) :=
  match file.readText with
  | .error _ => none
  | .ok raw =>
    match loads raw with
    | .ok (.obj fields) => some fields
    | _ => none

/-- What the object configures: its default with its valid chats, or everything open where it has no
valid default. -/
def documentConfig (fields : List (String × Json)) : SenderAllowlistConfig :=
  match validEntry (getKey "default" fields) with
  | none => {}
  | some default =>
    { default
      chats := (chatItems fields).filterMap (fun item => (validEntry item.2).map (item.1,·))
      logDenied := logsDenied fields }

def configured (loads : List Char → Except PyExc Json) (file : TextFile) : SenderAllowlistConfig :=
  match documentOf loads file with
  | none => {}
  | some fields => documentConfig fields

/-- Everyone or a list of texts, and one of the two modes. -/
def ChatAllowlistEntry.Valid (entry : ChatAllowlistEntry) : Prop :=
  (entry.allow = str "*" ∨ ∃ items, entry.allow = arr items ∧ ∀ x ∈ items, x.isText = true) ∧
    (entry.mode = str "trigger" ∨ entry.mode = str "drop")

def SenderAllowlistConfig.Valid (config : SenderAllowlistConfig) : Prop :=
  config.default.Valid ∧ ∀ item ∈ config.chats, item.2.Valid

/-- An object whose mode is a list or an object. -/
def Unhashable (value : Json) : Prop :=
  ∃ fields, value = obj fields ∧
    ((∃ items, getKey "mode" fields = arr items) ∨ ∃ inner, getKey "mode" fields = obj inner)

/-- No entry that is looked at has a list or an object for its mode. -/
def HashableDocument (fields : List (String × Json)) : Prop :=
  ¬Unhashable (getKey "default" fields) ∧
    ((validEntry (getKey "default" fields)).isSome = true →
      ∀ item ∈ chatItems fields, ¬Unhashable item.2)

/-- A file without a text that is not UTF-8 or that `json.loads` refuses in another way than as no
JSON, and without an object that is not hashable where it has to be. -/
structure Digestible (loads : List Char → Except PyExc Json) (file : TextFile) : Prop where
  readable : ∀ e, file.readText = .error e → e = .osError
  loadable : ∀ raw, file.readText = .ok raw → ∀ e, loads raw = .error e → e = .jsonDecodeError
  hashable : ∀ fields, documentOf loads file = some fields → HashableDocument fields

end Expected

section Entries
variable {value : Json}

theorem unhashable_obj {fields : List (String × Json)} :
    Unhashable (obj fields) ↔
      (∃ items, getKey "mode" fields = arr items) ∨ ∃ inner, getKey "mode" fields = obj inner := by
  constructor
  · rintro ⟨_,⟨rfl⟩,h⟩
    exact h
  · exact fun h => ⟨fields,rfl,h⟩

theorem isValidEntry_ok_iff : (∃ valid, isValidEntry value = .ok valid) ↔ ¬Unhashable value := by
  cases value with
  | obj fields =>
    rw [unhashable_obj, isValidEntry]
    cases getKey "mode" fields <;> simp
  | _ =>
    refine iff_of_true ⟨false,rfl⟩ ?_
    rintro ⟨_,⟨⟩,_⟩

/-- An entry is valid exactly when it gives one, and then that is what is read from it. -/
theorem isValidEntry_eq {valid : Bool} (h : isValidEntry value = .ok valid) :
    validEntry value = if valid then some (entryOf value) else none := by
  cases value with
  | obj fields =>
    rw [isValidEntry] at h
    have hvalid : (isValidAllow (getKey "allow" fields) && isValidMode (getKey "mode" fields)) =
        valid := by
      split at h
      · cases h
      · cases h
      · exact Except.ok.inj h
    rw [validEntry, ← hvalid, entryOf]
    simp only [Bool.and_eq_true]
  | _ =>
    cases h
    rfl

theorem isValidAllow_spec {allow : Json} (h : isValidAllow allow = true) :
    allow = str "*" ∨ ∃ items, allow = arr items ∧ ∀ x ∈ items, x.isText = true := by
  cases allow with
  | str s => exact Or.inl (congrArg str (beq_iff_eq.mp h))
  | arr items => exact Or.inr ⟨items,rfl,List.all_eq_true.mp h⟩
  | _ => cases h

theorem isValidMode_spec {mode : Json} (h : isValidMode mode = true) :
    mode = str "trigger" ∨ mode = str "drop" := by
  cases mode with
  | str s =>
    rw [isValidMode, Bool.or_eq_true, beq_iff_eq, beq_iff_eq] at h
    exact h.imp (congrArg str) (congrArg str)
  | _ => cases h

theorem valid_of_validEntry {entry : ChatAllowlistEntry} (h : validEntry value = some entry) :
    entry.Valid := by
  cases value with
  | obj fields =>
    rw [validEntry] at h
    split_ifs at h with hvalid
    · cases h
      exact ⟨isValidAllow_spec hvalid.1,isValidMode_spec hvalid.2⟩
  | _ => cases h

end Entries

section Documents
variable {fields items : List (String × Json)}

theorem loadChats_ok_iff :
    (∃ chats, loadChats items = .ok chats) ↔ ∀ item ∈ items, ¬Unhashable item.2 := by
  rw [loadChats, Each.collect_ok_iff]
  refine forall₂_congr (fun item _ => ?_)
  rw [← isValidEntry_ok_iff]
  cases isValidEntry item.2 with
  | error e => simp [Except.map]
  | ok valid => simp [Except.map]

/-- Where no chat raises, the chats that are valid are kept. -/
theorem loadChats_eq (h : ∀ item ∈ items, ¬Unhashable item.2) :
    loadChats items = .ok (items.filterMap (fun item => (validEntry item.2).map (item.1,·))) := by
  refine Each.collect_eq_filterMap (fun item hitem => ?_)
  obtain ⟨valid,hvalid⟩ := isValidEntry_ok_iff.mpr (h item hitem)
  rw [hvalid, isValidEntry_eq hvalid]
  cases valid <;> rfl

theorem loadDocument_ok_iff :
    (∃ config, loadDocument fields = .ok config) ↔ HashableDocument fields := by
  rw [loadDocument, HashableDocument, ← isValidEntry_ok_iff, ← loadChats_ok_iff]
  cases hvalid : isValidEntry (getKey "default" fields) with
  | error e => simp
  | ok valid =>
    rw [isValidEntry_eq hvalid, and_iff_right ⟨valid,rfl⟩]
    cases valid with
    | false => simp
    | true => cases loadChats (chatItems fields) <;> simp [Except.map]

theorem loadDocument_eq {config : SenderAllowlistConfig} (h : loadDocument fields = .ok config) :
    config = documentConfig fields := by
  have hhash := loadDocument_ok_iff.mp ⟨config,h⟩
  rw [loadDocument] at h
  rw [documentConfig]
  cases hvalid : isValidEntry (getKey "default" fields) with
  | error e =>
    rw [hvalid] at h
    cases h
  | ok valid =>
    rw [HashableDocument, isValidEntry_eq hvalid] at hhash
    rw [hvalid] at h
    rw [isValidEntry_eq hvalid]
    cases valid with
    | false =>
      cases h
      rfl
    | true =>
      rw [loadChats_eq (hhash.2 rfl)] at h
      cases h
      rfl

theorem valid_documentConfig (fields : List (String × Json)) : (documentConfig fields).Valid := by
  rw [documentConfig]
  cases hdefault : validEntry (getKey "default" fields) with
  | none => exact ⟨⟨Or.inl rfl,Or.inl rfl⟩,by simp⟩
  | some default =>
    refine ⟨valid_of_validEntry hdefault,fun item hitem => ?_⟩
    obtain ⟨raw,_,hraw⟩ := List.mem_filterMap.mp hitem
    obtain ⟨entry,hentry,rfl⟩ := Option.map_eq_some_iff.mp hraw
    exact valid_of_validEntry hentry

end Documents

section Files
variable {loads : List Char → Except PyExc Json} {file : TextFile}

theorem documentOf_eq {raw : List Char} {fields : List (String × Json)}
    (hraw : file.readText = .ok raw) (hparsed : loads raw = .ok (obj fields)) :
    documentOf loads file = some fields := by
  rw [documentOf, hraw]
  simp only [hparsed]

/-- A file with no object in it is digestible when both errors it can meet are handled. -/
theorem digestible_iff_of_none (h : documentOf loads file = none) :
    Digestible loads file ↔ (∀ e, file.readText = .error e → e = .osError) ∧
      ∀ raw, file.readText = .ok raw → ∀ e, loads raw = .error e → e = .jsonDecodeError := by
  constructor
  · exact fun h => ⟨h.readable,h.loadable⟩
  · rintro ⟨hreadable,hloadable⟩
    refine ⟨hreadable,hloadable,?_⟩
    rw [h]
    rintro _ ⟨⟩

/-- A file loads exactly when it is digestible. -/
theorem loadUncached_ok_iff :
    (∃ config, loadUncached loads file = .ok config) ↔ Digestible loads file := by
  rw [loadUncached]
  cases hraw : file.readText with
  | error e =>
    rw [digestible_iff_of_none (by rw [documentOf, hraw]), hraw]
    cases e <;> simp
  | ok raw =>
    cases hparsed : loads raw with
    | error e =>
      rw [digestible_iff_of_none (by rw [documentOf, hraw]; simp only [hparsed]), hraw]
      cases e <;> simp [hparsed]
    | ok value =>
      cases value with
      | obj fields =>
        simp only [hparsed]
        rw [loadDocument_ok_iff]
        constructor
        · intro h
          refine ⟨by simp [hraw],by simp [hraw, hparsed],?_⟩
          rw [documentOf_eq hraw hparsed]
          rintro _ ⟨⟩
          exact h
        · exact fun h => h.hashable fields (documentOf_eq hraw hparsed)
      | _ =>
        rw [digestible_iff_of_none (by rw [documentOf, hraw]; simp only [hparsed]), hraw]
        simp [hparsed]

/-- What is loaded is what the file configures. -/
theorem loadUncached_eq {config : SenderAllowlistConfig}
    (h : loadUncached loads file = .ok config) : config = configured loads file := by
  rw [loadUncached] at h
  rw [configured, documentOf]
  cases hraw : file.readText with
  | error e =>
    rw [hraw] at h
    cases e with
    | osError => exact (Except.ok.inj h).symm
    | _ => cases h
  | ok raw =>
    rw [hraw] at h
    dsimp only at h ⊢
    cases hparsed : loads raw with
    | error e =>
      rw [hparsed] at h
      cases e with
      | jsonDecodeError => exact (Except.ok.inj h).symm
      | _ => cases h
    | ok value =>
      rw [hparsed] at h
      cases value with
      | obj fields => exact loadDocument_eq h
      | _ => exact (Except.ok.inj h).symm

theorem valid_configured (loads : List Char → Except PyExc Json) (file : TextFile) :
    (configured loads file).Valid := by
  rw [configured]
  cases documentOf loads file with
  | none => exact ⟨⟨Or.inl rfl,Or.inl rfl⟩,by simp⟩
  | some fields => exact valid_documentConfig fields

theorem loadSenderAllowlist_fresh (mtime : Nat) (before after : Option Nat) :
    (loadSenderAllowlist loads ⟨none,mtime⟩ before file after).1 = loadUncached loads file := by
  change (reload loads ⟨none,mtime⟩ file after).1 = loadUncached loads file
  rw [reload]
  cases loadUncached loads file <;> rfl

/-- While nothing is cached, a file yields the valid configuration it describes exactly when it is
digestible. -/
theorem any_file_configures_iff (loads : List Char → Except PyExc Json) (file : TextFile)
    (mtime : Nat) (before after : Option Nat) :
    (∃ config, (loadSenderAllowlist loads ⟨none,mtime⟩ before file after).1 = .ok config ∧
        config = configured loads file ∧ config.Valid) ↔ Digestible loads file := by
  rw [loadSenderAllowlist_fresh, ← loadUncached_ok_iff]
  refine exists_congr (fun config => ?_)
  constructor
  · exact And.left
  · intro h
    obtain rfl := loadUncached_eq h
    exact ⟨h,rfl,valid_configured loads file⟩

def parser : List Char → Except PyExc Json := Json.loads ⟨String.ofList,100⟩

/-- A default whose mode is a list, and a byte that UTF-8 has no place for. -/
theorem list_mode_raises :
    (loadSenderAllowlist parser {} (some 1)
        (.bytes (Utf8.encode "\x7b\"default\": \x7b\"allow\": \"*\", \"mode\": []\x7d\x7d".toList))
        (some 1)).1 = .error .typeError ∧
      (loadSenderAllowlist parser {} (some 1) (.bytes [0xff]) (some 1)).1 = .error .unicodeDecodeError :=
  ⟨rfl,rfl⟩

end Files

end NanoClaw.Senders
