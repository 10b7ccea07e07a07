import NanoClaw.Ipc.InputSpool
import NanoClaw.Ipc.Written

/-! The directory of a group's requests while the servers in its containers write it and the watcher
empties it: either may stop at any moment, and the watcher starts again. -/
namespace NanoClaw.Ipc.Requests
open Store Json IsoText Execution

/-- What `_write_ipc_file` draws for a name: the clock, and eight digits of `uuid4`. -/
def requestStem (ts : Nat) (hex : String) : String := String.ofList (digits 20 ts ++ '-' :: hex.toList)

def requestName (stem : String) : String := stem ++ ".json"

/-- `path.with_suffix(".tmp")`. -/
def tmpOf (stem : String) : String := stem ++ ".tmp"

def bytesOf (payload : List (String × Json)) : List UInt8 := Utf8.encode (dumps (.obj payload))

/-- A request whose file has not got its name yet, with how much of it is written. -/
structure Draft where
  payload : List (String × Json)
  ts : Nat
  hex : String
  written : Option Nat

def Draft.stem (d : Draft) : String := requestStem d.ts d.hex

/-- A request whose file has got its name, and the number of rounds begun before that. -/
structure Request (W : Type) where
  writer : W
  payload : List (String × Json)
  ts : Nat
  hex : String
  rounds : Nat

section Request
variable {W : Type}

def Request.stem (e : Request W) : String := requestStem e.ts e.hex

def Request.name (e : Request W) : String := requestName e.stem

def Request.bytes (e : Request W) : List UInt8 := bytesOf e.payload

end Request

/-- Where the watcher stands: between two rounds, in the loop over the listed names, in the `finally`
clause of a turn, or ended by an exception. -/
inductive Watcher where
  | idle
  | looping (groups : Groups) (names : List String)
  | unlinking (groups : Groups) (name : String) (names : List String) (exc : Option PyExc)
  | ended

/-- The watcher behind the `finally` clause of a turn. -/
def Watcher.resume (groups : Groups) (names : List String) : Option PyExc → Watcher
  | none => .looping groups names
  | some _ => .ended

/-- One behind the turn of a file that still lies there. -/
def Watcher.held : Watcher → Nat
  | .unlinking _ _ _ _ => 1
  | _ => 0

/-- A turn of the loop: what it has read under which name, and the states around it. -/
structure Handling where
  name : String
  bytes : List UInt8
  groups : Groups
  env : Env
  before : State
  after : State

/-- The directory, the servers that write it and the watcher, with what has been put and handled, how
often the watcher stopped between a turn and the removal of its file, and its rounds. -/
structure Intake (W : Type) where
  drawn : List String
  drafts : W → Option Draft
  dir : InputFiles
  watcher : Watcher
  state : State
  put : List (Request W)
  handled : List Handling
  cuts : Nat
  rounds : Nat
  closed : Nat

/-- Others act on the state, a server does its next step or is stopped, or the watcher does its next
step, ends elsewhere, or starts again. -/
inductive Action (W : Type) where
  | elsewhere (state : State)
  | draw (w : W) (payload : List (String × Json)) (ts : Nat) (hex : String)
  | write (w : W) (written : Nat)
  | rename (w : W)
  | abandon (w : W)
  | list (groups : Groups)
  | handle (env : Env)
  | unlink
  | finish
  | fail
  | restart

section Steps
variable {W : Type} [DecidableEq W] (lib : Lib) (source : String) (d : IpcDir)

/-- The temporary file now holds the first bytes of the payload. -/
def Intake.writeTmp (s : Intake W) (w : W) (draft : Draft) (written : Nat) : Intake W :=
  { s with
    dir := s.dir.set (tmpOf draft.stem) ((bytesOf draft.payload).take written)
    drafts := Function.update s.drafts w (some { draft with written := some written }) }

/-- The file gets its name. -/
def Intake.install (s : Intake W) (w : W) (draft : Draft) (bytes : List UInt8) : Intake W :=
  { s with
    dir := (s.dir.unlink (tmpOf draft.stem)).set (requestName draft.stem) bytes
    drafts := Function.update s.drafts w none
    put := s.put ++ [⟨w,draft.payload,draft.ts,draft.hex,s.rounds⟩] }

/-- What the turn of a file does. -/
def Intake.turn (s : Intake W) (groups : Groups) (name : String) (names : List String) (env : Env)
    (bytes : List UInt8) : Intake W :=
  let h := handleIn lib groups source d s.state ⟨bytes,env⟩
  { s with
    watcher := .unlinking groups name names h.exc
    state := h.state
    handled := s.handled ++ [⟨name,bytes,groups,env,s.state,h.state⟩] }

/-- The clock stays below 10^20, and no two draws of a name agree. A directory with the name `errors` is
skipped. -/
def step (s : Intake W) : Action W → Option (Intake W)
  | .elsewhere state => some { s with state := state }
  | .draw w payload ts hex =>
    if s.drafts w = none ∧ ts < 10 ^ 20 ∧ requestStem ts hex ∉ s.drawn then
      some { s with
        drawn := s.drawn ++ [requestStem ts hex]
        drafts := Function.update s.drafts w (some ⟨payload,ts,hex,none⟩) }
    else none
  | .write w written =>
    match s.drafts w with
    | some draft => if draft.written.getD 0 ≤ written then some (s.writeTmp w draft written) else none
    | none => none
  | .rename w =>
    match s.drafts w with
    | some draft =>
      match draft.written with
      | some written =>
        if (bytesOf draft.payload).length ≤ written then
          (s.dir.get? (tmpOf draft.stem)).map (s.install w draft)
        else none
      | none => none
    | none => none
  | .abandon w => some { s with drafts := Function.update s.drafts w none }
  | .list groups =>
    match s.watcher with
    | .idle =>
      if source = "errors" then none
      else some { s with watcher := .looping groups (jsonNames s.dir), rounds := s.rounds + 1 }
    | _ => none
  | .handle env =>
    match s.watcher with
    | .looping groups (name :: names) =>
      match s.dir.get? name with
      | some bytes => some (s.turn lib source d groups name names env bytes)
      | none => some { s with watcher := .unlinking groups name names none }
    | _ => none
  | .unlink =>
    match s.watcher with
    | .unlinking groups name names exc =>
      some { s with dir := s.dir.unlink name, watcher := .resume groups names exc }
    | _ => none
  | .finish =>
    match s.watcher with
    | .looping _ [] => some { s with watcher := .idle, closed := s.rounds }
    | _ => none
  | .fail =>
    match s.watcher with
    | .idle => some { s with watcher := .ended }
    | _ => none
  | .restart => some { s with watcher := .idle, cuts := s.cuts + s.watcher.held }

/-- A directory that holds no request yet, and a watcher before its first round. -/
structure Intake.Fresh (s : Intake W) : Prop where
  drafts : ∀ w, s.drafts w = none
  dir : ∀ name, isJsonName name = true → s.dir.get? name = none
  watcher : s.watcher = .idle
  put : s.put = []
  handled : s.handled = []
  cuts : s.cuts = 0
  rounds : s.rounds = 0
  closed : s.closed = 0

end Steps

section Names
variable {stem stem' : String} {ts ts' : Nat} {hex hex' : String}

theorem isJsonName_requestName : isJsonName (requestName stem) = true := by
  rw [isJsonName, List.isSuffixOf_iff_suffix, requestName, String.toList_append]
  exact List.suffix_append _ _

theorem isJsonName_tmpOf : isJsonName (tmpOf stem) = false := by
  rw [Bool.eq_false_iff]
  intro h
  rw [isJsonName, List.isSuffixOf_iff_suffix, tmpOf, String.toList_append] at h
  have hlast := List.reverse_prefix.mpr h
  rw [List.reverse_append] at hlast
  simp at hlast

theorem tmpOf_ne {name : String} (h : isJsonName name = true) : tmpOf stem ≠ name := by
  rintro rfl
  rw [isJsonName_tmpOf] at h
  cases h

theorem requestName_inj (h : requestName stem = requestName stem') : stem = stem' := by
  have htexts := congrArg String.toList h
  rw [requestName, requestName, String.toList_append, String.toList_append] at htexts
  exact String.toList_injective (List.append_cancel_right htexts)

theorem tmpOf_inj (h : tmpOf stem = tmpOf stem') : stem = stem' := by
  have htexts := congrArg String.toList h
  rw [tmpOf, tmpOf, String.toList_append, String.toList_append] at htexts
  exact String.toList_injective (List.append_cancel_right htexts)

/-- Of two times the earlier one has the smaller name. -/
theorem requestName_lt (hts : ts < 10 ^ 20) (hts' : ts' < 10 ^ 20) (h : ts < ts') :
    requestName (requestStem ts hex) < requestName (requestStem ts' hex') := by
  rw [String.lt_iff_toList_lt]
  simp only [requestName, requestStem, String.toList_append, String.toList_ofList, List.append_assoc]
  exact (digits_append_lt hts hts').mpr (.inl h)

end Names

variable {W : Type} [DecidableEq W] {lib : Lib} {source : String} {d : IpcDir} {s t : Intake W}

/-- What a step can do. -/
inductive Moves (lib : Lib) (source : String) (d : IpcDir) (s : Intake W) : Intake W → Prop where
  | elsewhere (state : State) : Moves lib source d s { s with state := state }
  | draw {w : W} {payload : List (String × Json)} {ts : Nat} {hex : String} (hw : s.drafts w = none)
      (hts : ts < 10 ^ 20) (hnew : requestStem ts hex ∉ s.drawn) :
      Moves lib source d s
        { s with
          drawn := s.drawn ++ [requestStem ts hex]
          drafts := Function.update s.drafts w (some ⟨payload,ts,hex,none⟩) }
  | write {w : W} {draft : Draft} {written : Nat} (hw : s.drafts w = some draft) :
      Moves lib source d s (s.writeTmp w draft written)
  | rename {w : W} {draft : Draft} {written : Nat} {bytes : List UInt8} (hw : s.drafts w = some draft)
      (hwritten : draft.written = some written) (hwhole : (bytesOf draft.payload).length ≤ written)
      (hbytes : s.dir.get? (tmpOf draft.stem) = some bytes) :
      Moves lib source d s (s.install w draft bytes)
  | abandon {w : W} : Moves lib source d s { s with drafts := Function.update s.drafts w none }
  | list {groups : Groups} (hwatcher : s.watcher = .idle) (herrors : source ≠ "errors") :
      Moves lib source d s
        { s with watcher := .looping groups (jsonNames s.dir), rounds := s.rounds + 1 }
  | handle {groups : Groups} {name : String} {names : List String} {env : Env} {bytes : List UInt8}
      (hwatcher : s.watcher = .looping groups (name :: names)) (hbytes : s.dir.get? name = some bytes) :
      Moves lib source d s (s.turn lib source d groups name names env bytes)
  | miss {groups : Groups} {name : String} {names : List String}
      (hwatcher : s.watcher = .looping groups (name :: names)) (hnone : s.dir.get? name = none) :
      Moves lib source d s { s with watcher := .unlinking groups name names none }
  | unlink {groups : Groups} {name : String} {names : List String} {exc : Option PyExc}
      (hwatcher : s.watcher = .unlinking groups name names exc) :
      Moves lib source d s { s with dir := s.dir.unlink name, watcher := .resume groups names exc }
  | finish {groups : Groups} (hwatcher : s.watcher = .looping groups []) :
      Moves lib source d s { s with watcher := .idle, closed := s.rounds }
  | fail (hwatcher : s.watcher = .idle) : Moves lib source d s { s with watcher := .ended }
  | restart : Moves lib source d s { s with watcher := .idle, cuts := s.cuts + s.watcher.held }

theorem moves_of_step {act : Action W} (h : step lib source d s act = some t) :
    Moves lib source d s t := by
  cases act with
  | elsewhere state =>
    cases h
    exact .elsewhere state
  | draw w payload ts hex =>
    simp only [step] at h
    split_ifs at h with hdraw
    cases h
    exact .draw hdraw.1 hdraw.2.1 hdraw.2.2
  | write w written =>
    simp only [step] at h
    split at h
    · rename_i draft hw
      split_ifs at h
      cases h
      exact .write hw
    · cases h
  | rename w =>
    simp only [step] at h
    split at h
    · rename_i draft hw
      split at h
      · rename_i written hwritten
        split_ifs at h with hwhole
        obtain ⟨bytes,hbytes,rfl⟩ := Option.map_eq_some_iff.mp h
        exact .rename hw hwritten hwhole hbytes
      · cases h
    · cases h
  | abandon w =>
    cases h
    exact .abandon
  | list groups =>
    simp only [step] at h
    split at h
    · rename_i hwatcher
      split_ifs at h with herrors
      cases h
      exact .list hwatcher herrors
    · cases h
  | handle env =>
    simp only [step] at h
    split at h
    · rename_i groups name names hwatcher
      split at h
      · rename_i bytes hbytes
        cases h
        exact .handle hwatcher hbytes
      · rename_i hnone
        cases h
        exact .miss hwatcher hnone
    · cases h
  | unlink =>
    simp only [step] at h
    split at h
    · rename_i groups name names exc hwatcher
      cases h
      exact .unlink hwatcher
    · cases h
  | finish =>
    simp only [step] at h
    split at h
    · rename_i groups hwatcher
      cases h
      exact .finish hwatcher
    · cases h
  | fail =>
    simp only [step] at h
    split at h
    · rename_i hwatcher
      cases h
      exact .fail hwatcher
    · cases h
  | restart =>
    cases h
    exact .restart

section Drawing

theorem update_cases {drafts : W → Option Draft} {w w' : W} {x : Option Draft} {draft : Draft}
    (h : Function.update drafts w x w' = some draft) :
    w' = w ∧ x = some draft ∨ w' ≠ w ∧ drafts w' = some draft := by
  rcases eq_or_ne w' w with rfl | hne
  · rw [Function.update_self] at h
    exact .inl ⟨rfl,h⟩
  · rw [Function.update_of_ne hne] at h
    exact .inr ⟨hne,h⟩

/-- No two servers hold one name. -/
def Apart (drafts : W → Option Draft) : Prop :=
  ∀ w w' draft draft', drafts w = some draft → drafts w' = some draft' → draft.stem = draft'.stem → w = w'

theorem Apart.update {drafts : W → Option Draft} (h : Apart drafts) {w : W} {x : Option Draft}
    (hx : ∀ w' draft draft', x = some draft → drafts w' = some draft' → draft.stem = draft'.stem → w' = w) :
    Apart (Function.update drafts w x) := by
  intro a b draft draft' ha hb hstem
  obtain ⟨rfl,hdraft⟩ | ⟨_,hdraft⟩ := update_cases ha
  · obtain ⟨rfl,_⟩ | ⟨_,hdraft'⟩ := update_cases hb
    · rfl
    · exact (hx b draft draft' hdraft hdraft' hstem).symm
  · obtain ⟨rfl,hdraft'⟩ | ⟨_,hdraft'⟩ := update_cases hb
    · exact hx a draft' draft hdraft' hdraft hstem.symm
    · exact h a b draft draft' hdraft hdraft' hstem

/-- No two servers hold one name, no request has a name that is held, and a temporary file holds the first
bytes of its payload. -/
structure Drawn (s : Intake W) : Prop where
  held : ∀ w draft, s.drafts w = some draft →
    draft.ts < 10 ^ 20 ∧ draft.stem ∈ s.drawn ∧ ∀ e ∈ s.put, e.stem ≠ draft.stem
  apart : Apart s.drafts
  put : ∀ e ∈ s.put, e.ts < 10 ^ 20 ∧ e.stem ∈ s.drawn
  part : ∀ w draft written, s.drafts w = some draft → draft.written = some written →
    s.dir.get? (tmpOf draft.stem) = some ((bytesOf draft.payload).take written)

omit [DecidableEq W] in
/-- Where no server moves, and no temporary file changes. -/
theorem Drawn.still (h : Drawn s) (hdrawn : t.drawn = s.drawn) (hdrafts : t.drafts = s.drafts)
    (hput : t.put = s.put) (hdir : ∀ stem, t.dir.get? (tmpOf stem) = s.dir.get? (tmpOf stem)) :
    Drawn t where
  held := by
    rw [hdrawn, hdrafts, hput]
    exact h.held
  apart := by
    rw [hdrafts]
    exact h.apart
  put := by
    rw [hdrawn, hput]
    exact h.put
  part w draft written hw hwritten := by
    rw [hdrafts] at hw
    exact (hdir _).trans (h.part w draft written hw hwritten)

theorem Drawn.draw (h : Drawn s) {w : W} {payload : List (String × Json)} {ts : Nat} {hex : String}
    (hts : ts < 10 ^ 20) (hnew : requestStem ts hex ∉ s.drawn) :
    Drawn { s with
      drawn := s.drawn ++ [requestStem ts hex]
      drafts := Function.update s.drafts w (some ⟨payload,ts,hex,none⟩) } := by
  refine ⟨fun w' draft hw' => ?_,h.apart.update ?_,fun e he => ?_,fun w' draft written hw' hwritten => ?_⟩
  · obtain ⟨rfl,hdraft⟩ | ⟨_,hw'⟩ := update_cases hw'
    · cases hdraft
      refine ⟨hts,List.mem_append_right _ (List.mem_singleton_self _),fun e he hstem => hnew ?_⟩
      have hsame : e.stem = requestStem ts hex := hstem
      exact hsame ▸ (h.put e he).2
    · obtain ⟨hfits,hdrawn,hput⟩ := h.held w' draft hw'
      exact ⟨hfits,List.mem_append_left _ hdrawn,hput⟩
  · rintro w' draft draft' hdraft hw' hstem
    cases hdraft
    have hsame : requestStem ts hex = draft'.stem := hstem
    exact absurd (hsame ▸ (h.held w' draft' hw').2.1) hnew
  · obtain ⟨hfits,hdrawn⟩ := h.put e he
    exact ⟨hfits,List.mem_append_left _ hdrawn⟩
  · obtain ⟨rfl,hdraft⟩ | ⟨_,hw'⟩ := update_cases hw'
    · cases hdraft
      cases hwritten
    · exact h.part w' draft written hw' hwritten

theorem Drawn.write (h : Drawn s) {w : W} {draft : Draft} (hw : s.drafts w = some draft) (written : Nat) :
    Drawn (s.writeTmp w draft written) := by
  refine ⟨fun w' draft' hw' => ?_,h.apart.update ?_,h.put,fun w' draft' written' hw' hwritten => ?_⟩
  · obtain ⟨rfl,hdraft⟩ | ⟨_,hw'⟩ := update_cases hw'
    · cases hdraft
      exact h.held w' draft hw
    · exact h.held w' draft' hw'
  · rintro w' _ draft' hdraft hw' hstem
    cases hdraft
    exact h.apart w' w draft' draft hw' hw hstem.symm
  · obtain ⟨rfl,hdraft⟩ | ⟨hne,hw'⟩ := update_cases hw'
    · cases hdraft
      cases hwritten
      exact Dict.get?_set_self _ _ _
    · have hother : tmpOf draft'.stem ≠ tmpOf draft.stem := fun hsame =>
        hne (h.apart w' w draft' draft hw' hw (tmpOf_inj hsame))
      exact (Dict.get?_set_ne _ _ hother).trans (h.part w' draft' written' hw' hwritten)

/-- A server that has no draft any more. -/
theorem Drawn.drop (h : Drawn s) (w : W) :
    Drawn { s with drafts := Function.update s.drafts w none } := by
  refine ⟨fun w' draft hw' => ?_,h.apart.update ?_,h.put,fun w' draft written hw' hwritten => ?_⟩
  · obtain ⟨_,hdraft⟩ | ⟨_,hw'⟩ := update_cases hw'
    · cases hdraft
    · exact h.held w' draft hw'
  · rintro _ _ _ hdraft
    cases hdraft
  · obtain ⟨_,hdraft⟩ | ⟨_,hw'⟩ := update_cases hw'
    · cases hdraft
    · exact h.part w' draft written hw' hwritten

theorem Drawn.install (h : Drawn s) {w : W} {draft : Draft} (hw : s.drafts w = some draft)
    (bytes : List UInt8) : Drawn (s.install w draft bytes) := by
  obtain ⟨hfits,hdrawn,_⟩ := h.held w draft hw
  have hother : ∀ w' draft', Function.update s.drafts w none w' = some draft' → draft'.stem ≠ draft.stem := by
    intro w' draft' hw' hstem
    obtain ⟨_,hdraft⟩ | ⟨hne,hw'⟩ := update_cases hw'
    · cases hdraft
    · exact hne (h.apart w' w draft' draft hw' hw hstem)
  have hdrop := h.drop w
  refine ⟨fun w' draft' hw' => ?_,hdrop.apart,fun e he => ?_,fun w' draft' written hw' hwritten => ?_⟩
  · obtain ⟨hfits',hdrawn',hput'⟩ := hdrop.held w' draft' hw'
    refine ⟨hfits',hdrawn',fun e he => ?_⟩
    rcases List.mem_append.mp he with he | he
    · exact hput' e he
    · rw [List.mem_singleton.mp he]
      exact (hother w' draft' hw').symm
  · rcases List.mem_append.mp he with he | he
    · exact h.put e he
    · rw [List.mem_singleton.mp he]
      exact ⟨hfits,hdrawn⟩
  · have hne : tmpOf draft'.stem ≠ tmpOf draft.stem := fun hsame => hother w' draft' hw' (tmpOf_inj hsame)
    rw [Intake.install]
    dsimp only
    rw [Dict.get?_set_ne _ _ (tmpOf_ne isJsonName_requestName), get?_unlink_ne hne]
    exact hdrop.part w' draft' written hw' hwritten

/-- What is known of the names is kept by every step. -/
theorem Drawn.moves (h : Drawn s)
    (hjson : ∀ groups name names exc, s.watcher = .unlinking groups name names exc → isJsonName name = true)
    (hmoves : Moves lib source d s t) : Drawn t := by
  cases hmoves with
  | elsewhere | list | handle | miss | finish | fail | restart =>
    exact h.still rfl rfl rfl (fun _ => rfl)
  | draw hw hts hnew => exact h.draw hts hnew
  | write hw => exact h.write hw _
  | rename hw => exact h.install hw _
  | abandon => exact h.drop _
  | unlink hwatcher =>
    refine h.still rfl rfl rfl (fun stem => get?_unlink_ne ?_)
    exact tmpOf_ne (hjson _ _ _ _ hwatcher)

end Drawing

end NanoClaw.Ipc.Requests
