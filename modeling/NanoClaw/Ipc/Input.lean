import NanoClaw.Agent.Runner
import NanoClaw.Ipc.Fatal
import NanoClaw.Library.Each
import NanoClaw.Library.Latest

/-! The input directory of a container, and the two loops that drain it: the host's and the agent's. -/
namespace NanoClaw.Ipc
open Json Runner

/-- The files of a directory by their names. -/
abbrev InputFiles := Dict String (List UInt8)

/-- `path.unlink(missing_ok=True)`. -/
def InputFiles.unlink (dir : InputFiles) (name : String) : InputFiles :=
  dir.filterKeys (fun n => n != name)

def isJsonName (name : String) : Bool := ".json".toList.isSuffixOf name.toList

/-- `sorted(input_dir.glob("*.json"))`. -/
def jsonNames (dir : InputFiles) : List String :=
  Latest.ascending (id : String → String) (dir.keys.filter isJsonName)

/-- The bytes of these files, in the order of their names. -/
def contents (dir : InputFiles) : List (List UInt8) := (jsonNames dir).filterMap dir.get?

section Loop
variable (interp : Interp)

/-- The text that a turn of the loop appends for a file with these bytes. -/
def messageOf (bytes : List UInt8) : Except PyExc (Option Json) :=
  match readInput interp bytes with
  | .error .jsonDecodeError => .ok none
  | .error e => .error e
  | .ok (.obj fields) =>
    let text := getKey "text" fields
    .ok (if isStr (getKey "type" fields) "message" && text.isText then some text else none)
  | .ok _ => .error .attributeError

/-- `file_path.read_text` and what the turn makes of it. -/
def readTurn (dir : InputFiles) (name : String) : Except PyExc (Option Json) :=
  match dir.get? name with
  | none => .error .osError
  | some bytes => messageOf interp bytes

/-- The loop over the listed names. A file is removed behind its turn, also behind one that raises. -/
def drain : List String → InputFiles → Except PyExc (List Json) × InputFiles
  | [], dir => (.ok [],dir)
  | name :: names, dir =>
    match readTurn interp dir name with
    | .error e => (.error e,dir.unlink name)
    | .ok out =>
      let (messages,left) := drain names (dir.unlink name)
      (messages.map (out.toList ++ ·),left)

/-- The host's loop. The agent's is `Runner.drainIpcInputs`, over the bytes. -/
def drainContainerInputs (dir : InputFiles) : Except PyExc (List Json) × InputFiles :=
  drain interp (jsonNames dir) dir

/-- The text of a file that holds an object with the type `message` and a string text. -/
def goodText? (bytes : List UInt8) : Option Json :=
  match readInput interp bytes with
  | .ok (.obj fields) =>
    let text := getKey "text" fields
    if isStr (getKey "type" fields) "message" && text.isText then some text else none
  | _ => none

/-- A file that holds an object, or a text that is no JSON. -/
def HarmlessInput (bytes : List UInt8) : Prop :=
  readInput interp bytes = .error .jsonDecodeError ∨
    ∃ fields, readInput interp bytes = .ok (.obj fields)

/-- A drain of these files that returns exactly the good texts, in the order of the names, and the
files that it leaves. -/
structure Drained (files : List (List UInt8)) (messages : Except PyExc (List Json))
    (left : List (List UInt8)) : Prop where
  returned : messages = .ok (files.filterMap (goodText? interp))
  emptied : left = []

end Loop

section Directory
variable {dir : InputFiles} {name : String}

theorem get?_unlink_ne {other : String} (h : other ≠ name) : (dir.unlink name).get? other = dir.get? other :=
  dir.get?_filterKeys (bne_iff_ne.mpr h)

theorem mem_keys_unlink {other : String} :
    other ∈ (dir.unlink name).keys ↔ other ∈ dir.keys ∧ other ≠ name := by
  simp only [InputFiles.unlink, Dict.filterKeys, Dict.keys, List.mem_map, List.mem_filter, bne_iff_ne]
  constructor
  · rintro ⟨e,⟨he,hne⟩,rfl⟩
    exact ⟨⟨e,he,rfl⟩,hne⟩
  · rintro ⟨⟨e,he,rfl⟩,hne⟩
    exact ⟨e,⟨he,hne⟩,rfl⟩

theorem get?_unlink_self : (dir.unlink name).get? name = none := by
  rw [← Option.not_isSome_iff_eq_none, ← Dict.mem_keys_iff, mem_keys_unlink]
  exact fun h => h.2 rfl

theorem mem_jsonNames : name ∈ jsonNames dir ↔ name ∈ dir.keys ∧ isJsonName name = true := by
  rw [jsonNames, (Latest.ascending_perm _).mem_iff, List.mem_filter]

theorem jsonNames_nodup : (jsonNames dir).Nodup :=
  (Latest.ascending_perm _).nodup_iff.mpr (dir.nodup.filter _)

theorem jsonNames_sorted : (jsonNames dir).Pairwise (· ≤ ·) := Latest.ascending_sorted _

theorem mem_contents {bytes : List UInt8} :
    bytes ∈ contents dir ↔ ∃ name, isJsonName name = true ∧ dir.get? name = some bytes := by
  rw [contents, List.mem_filterMap]
  constructor
  · rintro ⟨name,hname,hbytes⟩
    exact ⟨name,(mem_jsonNames.mp hname).2,hbytes⟩
  · rintro ⟨name,hname,hbytes⟩
    exact ⟨name,mem_jsonNames.mpr ⟨Dict.mem_keys_of_get? (by rw [hbytes]; rfl),hname⟩,hbytes⟩

end Directory

section Drain
variable {interp : Interp}

theorem messageOf_ok_iff {bytes : List UInt8} :
    (∃ out, messageOf interp bytes = .ok out) ↔ HarmlessInput interp bytes := by
  rw [messageOf, HarmlessInput]
  rcases readInput interp bytes with e | v
  · cases e <;> simp
  · cases v <;> simp

theorem messageOf_harmless {bytes : List UInt8} (h : HarmlessInput interp bytes) :
    messageOf interp bytes = .ok (goodText? interp bytes) := by
  rcases h with h | ⟨fields,h⟩
  · rw [messageOf, goodText?, h]
  · rw [messageOf, goodText?, h]

/-- Each turn reads what lay there when the loop began. -/
theorem drain_messages {names : List String} {dir : InputFiles} (hnodup : names.Nodup)
    (hmem : ∀ name ∈ names, name ∈ dir.keys) :
    (drain interp names dir).1 = Each.collect (messageOf interp) (names.filterMap dir.get?) := by
  induction names generalizing dir with
  | nil => rfl
  | cons name names ih =>
    obtain ⟨hname,hnames⟩ := List.forall_mem_cons.mp hmem
    obtain ⟨hnew,hnodup⟩ := List.nodup_cons.mp hnodup
    obtain ⟨bytes,hbytes⟩ := Option.isSome_iff_exists.mp (Dict.mem_keys_iff.mp hname)
    have hne : ∀ other ∈ names, other ≠ name := fun other hother he => hnew (he ▸ hother)
    have hrest : names.filterMap (dir.unlink name).get? = names.filterMap dir.get? :=
      List.filterMap_congr (fun other hother => get?_unlink_ne (hne other hother))
    rw [List.filterMap_cons_some hbytes, Each.collect_cons, drain, readTurn, hbytes]
    dsimp only
    cases messageOf interp bytes with
    | error e => rfl
    | ok out =>
      have ih := @ih (dir.unlink name) hnodup
        (fun other hother => mem_keys_unlink.mpr ⟨hnames other hother,hne other hother⟩)
      rw [hrest] at ih
      exact congrArg (Except.map (out.toList ++ ·)) ih

/-- A drain that returns has removed the names it was given, and nothing else. -/
theorem mem_keys_drain {names : List String} {dir : InputFiles} {messages : List Json}
    (h : (drain interp names dir).1 = .ok messages) {name : String} :
    name ∈ (drain interp names dir).2.keys ↔ name ∈ dir.keys ∧ name ∉ names := by
  induction names generalizing dir messages with
  | nil => simp [drain]
  | cons first names ih =>
    rw [drain] at h ⊢
    cases hturn : readTurn interp dir first with
    | error e =>
      rw [hturn] at h
      cases h
    | ok out =>
      rw [hturn] at h
      dsimp only at h ⊢
      cases hrest : (drain interp names (dir.unlink first)).1 with
      | error e =>
        rw [hrest] at h
        cases h
      | ok rest => rw [ih hrest, mem_keys_unlink, List.mem_cons, not_or, and_assoc, ne_eq]

theorem contents_eq_nil {dir : InputFiles} (h : jsonNames dir = []) : contents dir = [] := by
  rw [contents, h, List.filterMap_nil]

/-- The agent's loop collects the same. -/
theorem drainIpcInputs_messages (files : List (List UInt8)) :
    (drainIpcInputs interp files).1 = Each.collect (messageOf interp) files := by
  induction files with
  | nil => rfl
  | cons bytes files ih =>
    rw [Each.collect_cons, drainIpcInputs, messageOf, ← ih]
    rcases readInput interp bytes with e | v
    · cases e with
      | jsonDecodeError => cases (drainIpcInputs interp files).1 <;> rfl
      | _ => rfl
    · cases v with
      | obj fields =>
        dsimp only
        split
        · rename_i htype
          rw [isStr_eq_true.mpr htype, Bool.true_and]
          cases (getKey "text" fields).isText <;> cases (drainIpcInputs interp files).1 <;> rfl
        · rename_i htype
          rw [Bool.eq_false_iff.mpr (fun h => htype (isStr_eq_true.mp h)), Bool.false_and]
          cases (drainIpcInputs interp files).1 <;> rfl
      | _ => rfl

theorem drainIpcInputs_left {files : List (List UInt8)} {messages : List Json}
    (h : (drainIpcInputs interp files).1 = .ok messages) : (drainIpcInputs interp files).2 = [] := by
  induction files generalizing messages with
  | nil => rfl
  | cons bytes files ih =>
    have hall := Each.collect_ok_iff.mp ⟨messages,(drainIpcInputs_messages _).symm.trans h⟩
    obtain ⟨hbytes,hfiles⟩ := List.forall_mem_cons.mp hall
    obtain ⟨rest,hrest⟩ := Each.collect_ok_iff.mpr hfiles
    have hleft := ih ((drainIpcInputs_messages files).trans hrest)
    rw [drainIpcInputs]
    rcases messageOf_ok_iff.mp hbytes with hread | ⟨fields,hread⟩
    · simp only [hread]
      exact hleft
    · simp only [hread]
      split
      · exact hleft
      · exact hleft

end Drain

/-- Both loops return exactly the good texts, in the order of the names, and leave no such file exactly
when each file holds an object or a text that is no JSON. -/
theorem drained_iff (interp : Interp) (dir : InputFiles) :
    (Drained interp (contents dir) (drainContainerInputs interp dir).1
        (contents (drainContainerInputs interp dir).2) ∧
      Drained interp (contents dir) (drainIpcInputs interp (contents dir)).1
        (drainIpcInputs interp (contents dir)).2) ↔
      ∀ name bytes, isJsonName name = true → dir.get? name = some bytes →
        HarmlessInput interp bytes := by
  have hhost : (drainContainerInputs interp dir).1 = Each.collect (messageOf interp) (contents dir) :=
    drain_messages jsonNames_nodup (fun name hname => (mem_jsonNames.mp hname).1)
  have hagent := @drainIpcInputs_messages interp (contents dir)
  constructor
  · rintro ⟨hdrained,_⟩ name bytes hname hbytes
    have hall := Each.collect_ok_iff.mp ⟨_,hhost ▸ hdrained.returned⟩
    exact messageOf_ok_iff.mp (hall bytes (mem_contents.mpr ⟨name,hname,hbytes⟩))
  · intro hall
    have hcollect := Each.collect_eq_filterMap (l := contents dir) (fun bytes hbytes =>
      let ⟨name,hname,hget⟩ := mem_contents.mp hbytes
      messageOf_harmless (hall name bytes hname hget))
    rw [← hhost] at hcollect
    refine ⟨⟨hcollect,contents_eq_nil ?_⟩,?_⟩
    · refine List.eq_nil_iff_forall_not_mem.mpr (fun name hname => ?_)
      obtain ⟨hkey,hjson⟩ := mem_jsonNames.mp hname
      obtain ⟨hkey,hnot⟩ := (mem_keys_drain hcollect).mp hkey
      exact hnot (mem_jsonNames.mpr ⟨hkey,hjson⟩)
    · rw [hhost, ← hagent] at hcollect
      exact ⟨hcollect,drainIpcInputs_left hcollect⟩

private def shallow : Interp := ⟨String.ofList,10⟩

/-- A good message, and behind it a list. -/
private def listBehind : InputFiles :=
  (Dict.empty.set "1.json" (Utf8.encode (dumps (.obj [("type",.str "message"),("text",.str "hi")])))).set
    "2.json" [91,93]

/-- Both loops raise at the list, and the message is gone with it. -/
theorem list_loses_message :
    contents (drainContainerInputs shallow listBehind).2 = [] ∧
      ¬(Drained shallow (contents listBehind) (drainContainerInputs shallow listBehind).1
          (contents (drainContainerInputs shallow listBehind).2) ∧
        Drained shallow (contents listBehind) (drainIpcInputs shallow (contents listBehind)).1
          (drainIpcInputs shallow (contents listBehind)).2) := by
  have hraises : (drainContainerInputs shallow listBehind).1 = .error .attributeError := rfl
  refine ⟨rfl,?_⟩
  rintro ⟨⟨hreturned,_⟩,_⟩
  rw [hraises] at hreturned
  cases hreturned

end NanoClaw.Ipc
