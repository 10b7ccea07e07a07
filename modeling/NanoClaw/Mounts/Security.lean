import NanoClaw.Library.Cut
import NanoClaw.Library.Each
import NanoClaw.Library.JsonLoads
import NanoClaw.Library.PosixPath
import NanoClaw.Library.TextFile
import NanoClaw.Store.Groups
import Mathlib.Data.List.Dedup

/-! Additional mounts: the allowlist of directories, and the check of the mounts that a group asks
for against what their paths resolve to. -/
namespace NanoClaw.Mounts
open Store Json PosixPath

/-- The errors that path resolution raises, as far as the check tells them apart. -/
inductive PathError where
  | fileNotFoundError
  | notADirectoryError
  | permissionError
  | osError
  | runtimeError
  | valueError
  deriving DecidableEq, Repr

/-- The file system and its users: `Path.home`, `expanduser`, `resolve` with `strict` and without, and
`exists`. A path is the code points of its text. -/
structure Paths where
  home : Except PathError (List Nat)
  expanduser : List Nat → Except PathError (List Nat)
  resolveStrict : List Nat → Except PathError RealPath
  resolve : List Nat → Except PathError RealPath
  isThere : RealPath → Except PathError Bool

def codes (s : String) : List Nat := s.toList.map Char.toNat

def defaultBlockedPatterns : List String :=
  [".ssh",".gnupg",".gpg",".aws",".azure",".gcloud",".kube",".docker","credentials",".env",".netrc",
    ".npmrc",".pypirc","id_rsa","id_ed25519","private_key",".secret"]

structure AllowedRoot where
  path : List Nat
  allowReadWrite : Bool
  deriving DecidableEq, Repr

/-- An allowlist. The default patterns are among the blocked ones. -/
structure MountAllowlist where
  allowedRoots : List AllowedRoot
  blockedPatterns : List (List Nat)
  nonMainReadOnly : Bool
  blocksDefaults : ∀ pattern ∈ defaultBlockedPatterns, codes pattern ∈ blockedPatterns

section Loading

/-- The code points of a text. -/
def textCodes : Json → Option (List Nat)
  | .str s => some (codes s)
  | .illFormed ns => some ns
  | _ => none

/-- `list(value)`; none where the value cannot be iterated over. -/
def pyList : Json → Option (List Json)
  | .arr items => some items
  | .str s => some (s.toList.map (fun c => .str (String.ofList [c])))
  | .illFormed ns => some (ns.map (fun n => ofCodes [n]))
  | .obj fields => some (fields.map (fun field => .str field.1))
  | _ => none

def rootOf : Json → Option AllowedRoot
  | .obj fields =>
    (textCodes (getKey "path" fields)).map (fun path =>
      ⟨path,((Dict.lookup "allowReadWrite" fields).getD (bool false)).truthy⟩)
  | _ => none

/-- `sorted(set(DEFAULT_BLOCKED_PATTERNS + configured))`. -/
def blockedPatternsWith (configured : List (List Nat)) : List (List Nat) :=
  (defaultBlockedPatterns.map codes ++ configured).dedup.mergeSort (fun a b => decide (a ≤ b))

theorem mem_blockedPatternsWith {configured : List (List Nat)} {pattern : List Nat} :
    pattern ∈ blockedPatternsWith configured ↔
      pattern ∈ defaultBlockedPatterns.map codes ∨ pattern ∈ configured := by
  rw [blockedPatternsWith, List.mem_mergeSort, List.mem_dedup, List.mem_append]

/-- The allowlist that an object stands for; none where its structure is not valid. A pattern that is
no text cannot be sorted among texts. -/
def parseAllowlist (fields : List (String × Json)) : Option MountAllowlist :=
  match (Dict.lookup "allowedRoots" fields).bind pyList,
    (pyList ((Dict.lookup "blockedPatterns" fields).getD (arr []))).bind (·.mapM textCodes) with
  | some roots, some configured =>
    some
      { allowedRoots := roots.filterMap rootOf
        blockedPatterns := blockedPatternsWith configured
        nonMainReadOnly := ((Dict.lookup "nonMainReadOnly" fields).getD (bool true)).truthy
        blocksDefaults := fun _ h => mem_blockedPatternsWith.mpr (Or.inl (List.mem_map_of_mem h)) }
  | _, _ => none

/-- An allowlist blocks the default patterns and the configured ones, and no others. -/
theorem mem_blockedPatterns_iff {fields : List (String × Json)} {allowlist : MountAllowlist}
    (h : parseAllowlist fields = some allowlist) {pattern : List Nat} :
    pattern ∈ allowlist.blockedPatterns ↔
      pattern ∈ defaultBlockedPatterns.map codes ∨
        ∃ items, pyList ((Dict.lookup "blockedPatterns" fields).getD (arr [])) = some items ∧
          ∃ item ∈ items, textCodes item = some pattern := by
  rw [parseAllowlist] at h
  split at h
  · rename_i roots configured hroots hconfigured
    obtain ⟨items,hitems,hconfigured⟩ := Option.bind_eq_some_iff.mp hconfigured
    cases h
    rw [mem_blockedPatternsWith, Each.mem_mapM hconfigured]
    apply or_congr_right
    constructor
    · exact fun h => ⟨items,hitems,h⟩
    · rintro ⟨items',hitems',h⟩
      rw [hitems] at hitems'
      cases hitems'
      exact h
  · cases h

/-- `load_mount_allowlist`, where `found` is what `exists()` answers: it raises for a directory that may
not be searched, outside of the `try`. -/
def loadMountAllowlist (interp : Interp) (found : Except PyExc Bool) (file : TextFile) :
    Except PyExc (Option MountAllowlist) :=
  match found with
  | .error e => .error e
  | .ok false => .ok none
  | .ok true =>
    match file.readText with
    | .error .osError => .ok none
    | .error e => .error e
    | .ok raw =>
      match loads interp raw with
      | .error .jsonDecodeError => .ok none
      | .error e => .error e
      | .ok (.obj fields) => .ok (parseAllowlist fields)
      | .ok _ => .ok none

/-- An allowlist is loaded from an object alone, and blocks what that configures. -/
theorem loadMountAllowlist_blocks {interp : Interp} {found : Except PyExc Bool} {file : TextFile}
    {allowlist : MountAllowlist} (h : loadMountAllowlist interp found file = .ok (some allowlist)) :
    ∃ raw fields, found = .ok true ∧ file.readText = .ok raw ∧ loads interp raw = .ok (obj fields) ∧
      ∀ pattern, pattern ∈ allowlist.blockedPatterns ↔
        pattern ∈ defaultBlockedPatterns.map codes ∨
          ∃ items, pyList ((Dict.lookup "blockedPatterns" fields).getD (arr [])) = some items ∧
            ∃ item ∈ items, textCodes item = some pattern := by
  rcases found with e | _ | _
  · cases h
  · cases h
  rw [loadMountAllowlist] at h
  cases hraw : file.readText with
  | error e =>
    rw [hraw] at h
    cases e <;> cases h
  | ok raw =>
    rw [hraw] at h
    dsimp only at h
    cases hparsed : loads interp raw with
    | error e =>
      rw [hparsed] at h
      cases e <;> cases h
    | ok value =>
      rw [hparsed] at h
      cases value with
      | obj fields =>
        exact ⟨raw,fields,rfl,rfl,hparsed,fun pattern => mem_blockedPatterns_iff (Except.ok.inj h)⟩
      | _ => cases h

end Loading

section Checking
variable (fs : Paths)

/-- `base / rest`, where an absolute `rest` takes the place of the base. -/
def joinPath (base rest : List Nat) : List Nat :=
  if rest.head? = some 47 then rest
  else if base.getLast? = some 47 then base ++ rest
  else base ++ 47 :: rest

/-- `_expand_path`. -/
def expandPath : List Nat → Except PathError (List Nat)
  | 126 :: 47 :: rest => fs.home.map (fun home => joinPath home rest)
  | [126] => fs.home
  | path => .ok path

/-- `_expand_path(path).expanduser()`. -/
def expandUser (path : List Nat) : Except PathError (List Nat) :=
  (expandPath fs path).bind fs.expanduser

/-- The path a mount asks for. -/
def resolveMount (mount : AdditionalMount) : Except PathError RealPath :=
  (expandUser fs (codes mount.hostPath)).bind fs.resolveStrict

/-- The directory a root stands for. -/
def resolveRoot (root : AllowedRoot) : Except PathError RealPath :=
  (expandUser fs root.path).bind fs.resolve

/-- `_is_valid_container_path`. -/
def isValidContainerPath (containerPath : List Char) : Bool :=
  PyText.strip containerPath ≠ [] && !PyText.hasDotDot containerPath &&
    containerPath.head? ≠ some '/'

/-- `pattern in text`. -/
def occursIn (pattern text : List Nat) : Bool := (Cut.cut pattern text).isSome

/-- `_matches_blocked_pattern`. -/
def matchesBlockedPattern (realPath : RealPath) (blockedPatterns : List (List Nat)) :
    Option (List Nat) :=
  blockedPatterns.find? (fun pattern =>
    realPath.parts.any (occursIn pattern) || occursIn pattern realPath.text)

/-- `_find_allowed_root`. -/
def findAllowedRoot (realPath : RealPath) : List AllowedRoot → Except PathError (Option AllowedRoot)
  | [] => .ok none
  | root :: roots =>
    match resolveRoot fs root with
    | .error e => .error e
    | .ok top =>
      match fs.isThere top with
      | .error e => .error e
      | .ok false => findAllowedRoot realPath roots
      | .ok true =>
        if realPath.Below top then .ok (some root) else findAllowedRoot realPath roots

/-- A mount as it is handed on. -/
structure ValidatedMount where
  hostPath : List Nat
  containerPath : List Char
  readonly : Bool
  deriving DecidableEq, Repr

def containerBase : List Char := "/workspace/extra".toList

/-- `mount.container_path or os.path.basename(mount.host_path.rstrip("/"))`. -/
def containerPathOf (mount : AdditionalMount) : List Char :=
  match (mount.containerPath.getD "").toList with
  | [] => basename (PyText.rstripBy (· == '/') mount.hostPath.toList)
  | containerPath => containerPath

variable (allowlist : MountAllowlist) (isMain : Bool)

/-- The part of the loop's body behind the resolution of the path. -/
def judgeResolved (mount : AdditionalMount) (realHostPath : RealPath) :
    Except PathError (Option ValidatedMount) :=
  if (matchesBlockedPattern realHostPath allowlist.blockedPatterns).isSome then .ok none
  else
    match findAllowedRoot fs realHostPath allowlist.allowedRoots with
    | .error e => .error e
    | .ok none => .ok none
    | .ok (some root) =>
      let canWrite := mount.readonly = false ∧ root.allowReadWrite = true ∧
        (isMain = true ∨ allowlist.nonMainReadOnly = false)
      .ok (some
        { hostPath := realHostPath.text
          containerPath := containerBase ++ '/' :: containerPathOf mount
          readonly := ¬canWrite })

/-- The body of the loop. The handler of `FileNotFoundError` is around `resolve` alone. -/
def judge (mount : AdditionalMount) : Except PathError (Option ValidatedMount) :=
  if isValidContainerPath (containerPathOf mount) = false then .ok none
  else
    match expandUser fs (codes mount.hostPath) with
    | .error e => .error e
    | .ok hostPath =>
      match fs.resolveStrict hostPath with
      | .error .fileNotFoundError => .ok none
      | .error e => .error e
      | .ok realHostPath => judgeResolved fs allowlist isMain mount realHostPath

/-- `validate_additional_mounts`, with the allowlist that `load_mount_allowlist` returns. -/
def validateAdditionalMounts (allowlist : Option MountAllowlist) (mounts : List AdditionalMount)
    (isMain : Bool) : Except PathError (List ValidatedMount) :=
  match allowlist with
  | none => .ok []
  | some allowlist => Each.collect (judge fs allowlist isMain) mounts

end Checking

end NanoClaw.Mounts
