import NanoClaw.Ipc.Requests
import NanoClaw.Library.Inbox

/-! The directory of a group's requests as an inbox: no request is lost however often the watcher stops,
and one is repeated only where a stop came between its turn and the removal of its file. -/
namespace NanoClaw.Ipc.Requests
open Store Json Execution
variable {W : Type} {lib : Lib} {source : String} {d : IpcDir} {s t : Intake W}

section Refinement

abbrev InboxStep : Inbox (Request W) → Inbox (Request W) → Prop := Inbox.Step Request.name Request.rounds

/-- Where the watcher stands in the inbox. -/
def TurnAt (turn : Inbox.Turn (Request W)) : Watcher → Prop
  | .idle | .ended => turn = .idle
  | .looping _ names => ∃ rest, turn = .listed rest ∧ names = rest.map Request.name
  | .unlinking _ name names _ => ∃ e rest, turn = .holding e rest ∧ name = e.name ∧
    names = rest.map Request.name

/-- The files of the directory are the whole files of these requests. -/
def Lies (dir : InputFiles) (l : List (Request W)) : Prop :=
  ∀ name, isJsonName name = true → ∀ bytes, dir.get? name = some bytes ↔
    ∃ e ∈ l, e.name = name ∧ e.bytes = bytes

structure Refines (s : Intake W) (a : Inbox (Request W)) : Prop where
  put : a.put = s.put
  handled : s.handled.map (fun h => (h.name,h.bytes)) = a.handled.map (fun e => (e.name,e.bytes))
  cuts : a.cuts = s.cuts
  rounds : a.rounds = s.rounds
  closed : a.closed = s.closed
  turn : TurnAt a.turn s.watcher
  files : Lies s.dir a.lying

variable {a : Inbox (Request W)} {dir : InputFiles} {l : List (Request W)}

theorem isJsonName_name (e : Request W) : isJsonName e.name = true := isJsonName_requestName

theorem Lies.install (h : Lies dir l) {e : Request W} (hnew : ∀ e' ∈ l, e'.name ≠ e.name) :
    Lies ((dir.unlink (tmpOf e.stem)).set e.name e.bytes) (l ++ [e]) := by
  intro name hname bytes
  rcases eq_or_ne name e.name with rfl | hne
  · rw [Dict.get?_set_self, Option.some.injEq]
    constructor
    · rintro rfl
      exact ⟨e,List.mem_append_right _ (List.mem_singleton_self e),rfl,rfl⟩
    · rintro ⟨e',he',hsame,rfl⟩
      rcases List.mem_append.mp he' with he' | he'
      · exact absurd hsame (hnew e' he')
      · rw [List.mem_singleton.mp he']
  · rw [Dict.get?_set_ne _ _ hne, get?_unlink_ne (tmpOf_ne hname).symm, h name hname]
    constructor
    · rintro ⟨e',he',hrest⟩
      exact ⟨e',List.mem_append_left _ he',hrest⟩
    · rintro ⟨e',he',hsame,hbytes⟩
      rcases List.mem_append.mp he' with he' | he'
      · exact ⟨e',he',hsame,hbytes⟩
      · rw [List.mem_singleton.mp he'] at hsame
        exact absurd hsame.symm hne

theorem Lies.unlink (h : Lies dir l) {l' : List (Request W)} {e : Request W}
    (hmem : ∀ x, x ∈ l' ↔ x ∈ l ∧ x.name ≠ e.name) : Lies (dir.unlink e.name) l' := by
  intro name hname bytes
  rcases eq_or_ne name e.name with rfl | hne
  · rw [get?_unlink_self]
    refine iff_of_false (by simp) ?_
    rintro ⟨x,hx,hsame,_⟩
    exact ((hmem x).mp hx).2 hsame
  · rw [get?_unlink_ne hne, h name hname]
    constructor
    · rintro ⟨x,hx,rfl,hbytes⟩
      exact ⟨x,(hmem x).mpr ⟨hx,hne⟩,rfl,hbytes⟩
    · rintro ⟨x,hx,hrest⟩
      exact ⟨x,((hmem x).mp hx).1,hrest⟩

/-- The listed names are those of the requests that lie there, by name. -/
theorem Lies.jsonNames (h : Lies dir l) (hnodup : (l.map Request.name).Nodup) :
    jsonNames dir = (Latest.ascending Request.name l).map Request.name := by
  have hsorted : ((Latest.ascending Request.name l).map Request.name).Pairwise (· ≤ ·) :=
    List.pairwise_map.mpr (Latest.ascending_sorted l)
  have hnames : ((Latest.ascending Request.name l).map Request.name).Perm (l.map Request.name) :=
    (Latest.ascending_perm l).map Request.name
  have hperm : (Ipc.jsonNames dir).Perm (l.map Request.name) := by
    rw [List.perm_ext_iff_of_nodup jsonNames_nodup hnodup]
    intro name
    rw [mem_jsonNames, List.mem_map, Dict.mem_keys_iff, Option.isSome_iff_exists]
    constructor
    · rintro ⟨⟨bytes,hbytes⟩,hjson⟩
      obtain ⟨e,he,hname,_⟩ := (h name hjson bytes).mp hbytes
      exact ⟨e,he,hname⟩
    · rintro ⟨e,he,rfl⟩
      exact ⟨⟨_,(h e.name (isJsonName_name e) _).mpr ⟨e,he,rfl,rfl⟩⟩,isJsonName_name e⟩
  exact (hperm.trans hnames.symm).eq_of_pairwise (fun _ _ _ _ hab hba => le_antisymm hab hba)
    jsonNames_sorted hsorted

theorem Refines.held (h : Refines s a) : a.turn.held = s.watcher.held := by
  have hturn := h.turn
  cases hwatcher : s.watcher with
  | idle | ended =>
    rw [hwatcher, TurnAt] at hturn
    rw [hturn]
    rfl
  | looping =>
    rw [hwatcher] at hturn
    obtain ⟨rest,hlisted,_⟩ := hturn
    rw [hlisted]
    rfl
  | unlinking =>
    rw [hwatcher] at hturn
    obtain ⟨e,rest,hholding,_⟩ := hturn
    rw [hholding]
    rfl

/-- A step that changes no request, nor the watcher. -/
theorem Refines.still (h : Refines s a) (hput : t.put = s.put) (hhandled : t.handled = s.handled)
    (hcuts : t.cuts = s.cuts) (hrounds : t.rounds = s.rounds) (hclosed : t.closed = s.closed)
    (hwatcher : t.watcher = s.watcher)
    (hdir : ∀ name, isJsonName name = true → t.dir.get? name = s.dir.get? name) : Refines t a where
  put := h.put.trans hput.symm
  handled := hhandled ▸ h.handled
  cuts := h.cuts.trans hcuts.symm
  rounds := h.rounds.trans hrounds.symm
  closed := h.closed.trans hclosed.symm
  turn := hwatcher ▸ h.turn
  files name hname bytes := by
    rw [hdir name hname]
    exact h.files name hname bytes

theorem Refines.turn_idle (h : Refines s a) (hwatcher : s.watcher = .idle ∨ s.watcher = .ended) :
    a.turn = .idle := by
  have hturn := h.turn
  rcases hwatcher with hwatcher | hwatcher
  · rwa [hwatcher] at hturn
  · rwa [hwatcher] at hturn

/-- A handled file is removed. An exception that was not caught ends the watcher behind that. -/
theorem Refines.unlink (h : Refines s a) {groups : Groups} {name : String} {names : List String}
    {exc : Option PyExc} (hwatcher : s.watcher = .unlinking groups name names exc) :
    ∃ a', Relation.ReflTransGen InboxStep a a' ∧
      Refines { s with dir := s.dir.unlink name, watcher := .resume groups names exc } a' := by
  have hturn := h.turn
  rw [hwatcher] at hturn
  obtain ⟨e,rest,hholding,rfl,rfl⟩ := hturn
  have hremove : InboxStep a _ := .remove hholding
  cases exc with
  | none =>
    refine ⟨_,.single hremove,h.put,h.handled,h.cuts,h.rounds,h.closed,⟨rest,rfl,rfl⟩,?_⟩
    exact h.files.unlink (by simp [List.mem_filter])
  | some exc =>
    refine ⟨_,.tail (.single hremove) (.leave rfl),h.put,h.handled,h.cuts,h.rounds,h.closed,rfl,?_⟩
    exact h.files.unlink (by simp [List.mem_filter])

theorem Refines.finish (h : Refines s a) {groups : Groups} (hwatcher : s.watcher = .looping groups []) :
    ∃ a', InboxStep a a' ∧ Refines { s with watcher := .idle, closed := s.rounds } a' := by
  have hturn := h.turn
  rw [hwatcher] at hturn
  obtain ⟨rest,hlisted,hnames⟩ := hturn
  obtain rfl : rest = [] := List.map_eq_nil_iff.mp hnames.symm
  exact ⟨_,.close hlisted,h.put,h.handled,h.cuts,h.rounds,h.rounds,rfl,h.files⟩

/-- A watcher that starts again has put down what it had listed. -/
theorem Refines.restart (h : Refines s a) :
    ∃ a', Relation.ReflTransGen InboxStep a a' ∧
      Refines { s with watcher := .idle, cuts := s.cuts + s.watcher.held } a' := by
  have hturn := h.turn
  cases hwatcher : s.watcher with
  | idle =>
    exact ⟨a,.refl,h.put,h.handled,h.cuts,h.rounds,h.closed,h.turn_idle (.inl hwatcher),h.files⟩
  | ended =>
    exact ⟨a,.refl,h.put,h.handled,h.cuts,h.rounds,h.closed,h.turn_idle (.inr hwatcher),h.files⟩
  | looping =>
    rw [hwatcher] at hturn
    obtain ⟨rest,hlisted,_⟩ := hturn
    exact ⟨_,.single (.leave hlisted),h.put,h.handled,h.cuts,h.rounds,h.closed,rfl,h.files⟩
  | unlinking =>
    rw [hwatcher] at hturn
    obtain ⟨e,rest,hholding,_⟩ := hturn
    exact ⟨_,.single (.cut hholding),h.put,h.handled,congrArg (· + 1) h.cuts,h.rounds,h.closed,rfl,h.files⟩

theorem Refines.fresh (h : s.Fresh) : Refines s Inbox.empty where
  put := h.put.symm
  handled := by
    rw [h.handled]
    rfl
  cuts := h.cuts.symm
  rounds := h.rounds.symm
  closed := h.closed.symm
  turn := by
    rw [h.watcher]
    rfl
  files name hname bytes := by
    rw [h.dir name hname]
    refine iff_of_false (by simp) ?_
    rintro ⟨e,he,_⟩
    cases he

theorem Drawn.fresh (h : s.Fresh) : Drawn s := by
  have hnone : ∀ w draft, s.drafts w ≠ some draft := by
    intro w draft hw
    rw [h.drafts] at hw
    cases hw
  refine ⟨fun w draft hw => absurd hw (hnone w draft),fun w _ draft _ hw => absurd hw (hnone w draft),
    fun e he => ?_,fun w draft _ hw => absurd hw (hnone w draft)⟩
  rw [h.put] at he
  cases he

/-- Each turn has done to the state what the loop over this directory does with the bytes it has read. -/
def Effective (lib : Lib) (source : String) (d : IpcDir) (s : Intake W) : Prop :=
  ∀ h ∈ s.handled, h.after = (handleIn lib h.groups source d h.before ⟨h.bytes,h.env⟩).state

theorem Effective.turn (h : Effective lib source d s) (groups : Groups) (name : String)
    (names : List String) (env : Env) (bytes : List UInt8) :
    Effective lib source d (s.turn lib source d groups name names env bytes) := by
  intro x hx
  rcases List.mem_append.mp hx with hx | hx
  · exact h x hx
  · rw [List.mem_singleton.mp hx]

variable [DecidableEq W]

abbrev InboxValid : Inbox (Request W) → Prop := Inbox.Valid Request.name Request.rounds Request.writer

/-- A file that gets its name is a new request, and lies there whole. -/
theorem Refines.install (h : Refines s a) (hvalid : InboxValid a) (hdrawn : Drawn s) {w : W} {draft : Draft}
    {written : Nat} {bytes : List UInt8} (hw : s.drafts w = some draft)
    (hwritten : draft.written = some written) (hwhole : (bytesOf draft.payload).length ≤ written)
    (hbytes : s.dir.get? (tmpOf draft.stem) = some bytes) :
    ∃ a', InboxStep a a' ∧ Refines (s.install w draft bytes) a' := by
  obtain rfl : bytes = bytesOf draft.payload := by
    have hpart := hdrawn.part w draft written hw hwritten
    rw [List.take_of_length_le hwhole, hbytes] at hpart
    exact Option.some.inj hpart
  let e : Request W := ⟨w,draft.payload,draft.ts,draft.hex,s.rounds⟩
  have hnew : ∀ e' ∈ a.put, e'.name ≠ e.name := by
    intro e' he' hsame
    exact (hdrawn.held w draft hw).2.2 e' (h.put ▸ he') (requestName_inj hsame)
  have hfiles : Lies ((s.dir.unlink (tmpOf e.stem)).set e.name e.bytes) (a.lying ++ [e]) :=
    h.files.install (fun e' he' => hnew e' (hvalid.kept.subset he'))
  exact ⟨_,.put hnew h.rounds.symm,congrArg (· ++ [e]) h.put,h.handled,h.cuts,h.rounds,h.closed,h.turn,hfiles⟩

theorem Refines.list (h : Refines s a) (hvalid : InboxValid a) (hwatcher : s.watcher = .idle)
    (groups : Groups) :
    ∃ a', InboxStep a a' ∧
      Refines { s with watcher := .looping groups (jsonNames s.dir), rounds := s.rounds + 1 } a' := by
  refine ⟨_,.list (h.turn_idle (.inl hwatcher)),h.put,h.handled,h.cuts,?_,h.closed,?_,h.files⟩
  · exact congrArg (· + 1) h.rounds
  · exact ⟨_,rfl,h.files.jsonNames hvalid.lying_nodup⟩

/-- The file whose turn it is lies there whole. -/
theorem Refines.first (h : Refines s a) (hvalid : InboxValid a) {groups : Groups} {name : String}
    {names : List String} (hwatcher : s.watcher = .looping groups (name :: names)) :
    ∃ e rest, a.turn = .listed (e :: rest) ∧ name = e.name ∧ names = rest.map Request.name ∧
      s.dir.get? name = some e.bytes := by
  have hturn := h.turn
  rw [hwatcher] at hturn
  obtain ⟨rest,hlisted,hnames⟩ := hturn
  cases rest with
  | nil => cases hnames
  | cons e rest =>
    rw [List.map_cons, List.cons.injEq] at hnames
    obtain ⟨rfl,rfl⟩ := hnames
    refine ⟨e,rest,hlisted,rfl,rfl,(h.files e.name (isJsonName_name e) e.bytes).mpr ⟨e,?_,rfl,rfl⟩⟩
    refine hvalid.listed ?_
    rw [hlisted]
    exact List.mem_cons_self

theorem Refines.handle (h : Refines s a) (hvalid : InboxValid a) {groups : Groups} {name : String}
    {names : List String} {env : Env} {bytes : List UInt8}
    (hwatcher : s.watcher = .looping groups (name :: names)) (hbytes : s.dir.get? name = some bytes) :
    ∃ a', InboxStep a a' ∧ Refines (s.turn lib source d groups name names env bytes) a' := by
  obtain ⟨e,rest,hlisted,rfl,rfl,hlies⟩ := h.first hvalid hwatcher
  obtain rfl : e.bytes = bytes := Option.some.inj (hlies.symm.trans hbytes)
  refine ⟨_,.handle hlisted,h.put,?_,h.cuts,h.rounds,h.closed,⟨e,rest,rfl,rfl,rfl⟩,h.files⟩
  rw [Intake.turn, List.map_append, List.map_append, h.handled]
  rfl

/-- Every step of the directory is some steps of the inbox. -/
theorem Refines.moves (h : Refines s a) (hvalid : InboxValid a) (hdrawn : Drawn s)
    (hmoves : Moves lib source d s t) : ∃ a', Relation.ReflTransGen InboxStep a a' ∧ Refines t a' := by
  have hsingle : (∃ a', InboxStep a a' ∧ Refines t a') →
      ∃ a', Relation.ReflTransGen InboxStep a a' ∧ Refines t a' := by
    rintro ⟨a',hstep,hrefines⟩
    exact ⟨a',.single hstep,hrefines⟩
  cases hmoves with
  | elsewhere | draw | abandon =>
    exact ⟨a,.refl,h.still rfl rfl rfl rfl rfl rfl (fun _ _ => rfl)⟩
  | write =>
    refine ⟨a,.refl,h.still rfl rfl rfl rfl rfl rfl (fun name hname => ?_)⟩
    exact Dict.get?_set_ne _ _ (tmpOf_ne hname).symm
  | rename hw hwritten hwhole hbytes =>
    exact hsingle (h.install hvalid hdrawn hw hwritten hwhole hbytes)
  | list hwatcher => exact hsingle (h.list hvalid hwatcher _)
  | handle hwatcher hbytes => exact hsingle (h.handle hvalid hwatcher hbytes)
  | miss hwatcher hnone =>
    obtain ⟨e,rest,_,_,_,hlies⟩ := h.first hvalid hwatcher
    rw [hlies] at hnone
    cases hnone
  | unlink hwatcher => exact h.unlink hwatcher
  | finish hwatcher => exact hsingle (h.finish hwatcher)
  | fail hwatcher =>
    exact ⟨a,.refl,h.put,h.handled,h.cuts,h.rounds,h.closed,h.turn_idle (.inl hwatcher),h.files⟩
  | restart => exact h.restart

theorem Effective.moves (h : Effective lib source d s) (hmoves : Moves lib source d s t) :
    Effective lib source d t := by
  cases hmoves with
  | handle => exact h.turn _ _ _ _ _
  | _ => exact h

/-- The state of an inbox that the directory is in. -/
structure Received (lib : Lib) (source : String) (d : IpcDir) (s : Intake W) : Prop where
  inbox : ∃ a, Refines s a ∧ InboxValid a
  drawn : Drawn s
  effective : Effective lib source d s

theorem Received.step {act : Action W} (h : Received lib source d s)
    (hstep : step lib source d s act = some t) : Received lib source d t := by
  obtain ⟨⟨a,hrefines,hvalid⟩,hdrawn,heffective⟩ := h
  have hmoves := moves_of_step hstep
  have hjson : ∀ groups name names exc, s.watcher = .unlinking groups name names exc →
      isJsonName name = true := by
    intro groups name names exc hwatcher
    have hturn := hrefines.turn
    rw [hwatcher] at hturn
    obtain ⟨e,_,_,rfl,_⟩ := hturn
    exact isJsonName_name e
  obtain ⟨a',hsteps,hrefines'⟩ := hrefines.moves hvalid hdrawn hmoves
  exact ⟨⟨a',hrefines',hvalid.steps hsteps⟩,hdrawn.moves hjson hmoves,heffective.moves hmoves⟩

theorem received_of_reachable {s₀ : Intake W} (h₀ : s₀.Fresh) (h : Reachable (step lib source d) s₀ s) :
    Received lib source d s := by
  refine h.invariant (fun _ _ _ hs hstep => hs.step hstep)
    ⟨⟨Inbox.empty,Refines.fresh h₀,Inbox.valid_empty⟩,Drawn.fresh h₀,?_⟩
  intro x hx
  rw [h₀.handled] at hx
  cases hx

end Refinement

/-- A turn does what the loop does with the whole payload of a request. Where the payload can be read back,
this is what the payload asks for, unless it nests too deep for the watcher. -/
structure CarriesOut (lib : Lib) (source : String) (d : IpcDir) (h : Handling)
    (payload : List (String × Json)) : Prop where
  turn : h.after = (handleIn lib h.groups source d h.before ⟨bytesOf payload,h.env⟩).state
  asked : Decoded lib.interp.floatRepr (.obj payload) → h.after =
    if nesting (.obj payload) ≤ lib.interp.depth then
      processWritten lib h.groups source h.env h.before payload d
    else h.before

theorem handleIn_written {groups : Groups} {payload : List (String × Json)} {before : State} {env : Env}
    (h : Decoded lib.interp.floatRepr (.obj payload)) :
    (handleIn lib groups source d before ⟨bytesOf payload,env⟩).state =
      if nesting (.obj payload) ≤ lib.interp.depth then processWritten lib groups source env before payload d
      else before := by
  by_cases hdepth : nesting (.obj payload) ≤ lib.interp.depth
  · cases d <;>
      simp [handleIn, handleMessage, handleTask, handleFile, bytesOf, readJson_written h, processWritten,
        hdepth]
  · cases d <;>
      simp [handleIn, handleMessage, handleTask, handleFile, bytesOf, readJson_written h, hdepth]

section AtLeastOnce
variable [DecidableEq W]

/-- The names of the handled files, turn by turn. -/
def Intake.names (s : Intake W) : List String := s.handled.map Handling.name

/-- The requests of a server, in the order their files got their names. -/
def Intake.putBy (s : Intake W) (w : W) : List (Request W) := Inbox.own Request.writer w s.put

/-- What lies in the directory is a whole request; a request lies there or was handled, and is handled once a
round has ended that has listed behind its renaming; each turn has read one whole request and done what it
asks for; a request is repeated only where the watcher stopped before the removal of a file; and the requests
of a server whose clock grows are handled in the order they were put. -/
structure AtLeastOnce (lib : Lib) (source : String) (d : IpcDir) (s : Intake W) : Prop where
  whole : ∀ name bytes, isJsonName name = true → s.dir.get? name = some bytes →
    ∃ e ∈ s.put, e.name = name ∧ e.bytes = bytes
  kept : ∀ e ∈ s.put, s.dir.get? e.name = some e.bytes ∨ e.name ∈ s.names
  served : ∀ e ∈ s.put, e.rounds < s.closed → e.name ∈ s.names
  effective : ∀ h ∈ s.handled, ∃ e ∈ s.put, h.name = e.name ∧ CarriesOut lib source d h e.payload
  count : s.handled.length + (jsonNames s.dir).length = s.put.length + s.cuts + s.watcher.held
  repeated : ∀ name, s.names.count name ≤ 1 + s.cuts
  inOrder : ∀ w, ((s.putBy w).map Request.ts).Pairwise (· < ·) → ∃ served,
    Repeats (s.names.filter (fun name => name ∈ (s.putBy w).map Request.name)) served ∧
      served <+: (s.putBy w).map Request.name

variable {a : Inbox (Request W)}

omit [DecidableEq W] in
theorem Refines.names (h : Refines s a) : s.names = a.handled.map Request.name := by
  have hnames := congrArg (List.map Prod.fst) h.handled
  rw [List.map_map, List.map_map] at hnames
  exact hnames

omit [DecidableEq W] in
theorem Refines.mem_names (h : Refines s a) {e : Request W} (he : e ∈ a.handled) : e.name ∈ s.names := by
  rw [h.names]
  exact List.mem_map_of_mem he

omit [DecidableEq W] in
/-- A turn has read the whole of a request that was put. -/
theorem Refines.read (h : Refines s a) {x : Handling} (hx : x ∈ s.handled) :
    ∃ e ∈ a.handled, x.name = e.name ∧ x.bytes = e.bytes := by
  have hmem : (x.name,x.bytes) ∈ s.handled.map (fun h => (h.name,h.bytes)) := List.mem_map_of_mem hx
  rw [h.handled] at hmem
  obtain ⟨e,he,hsame⟩ := List.mem_map.mp hmem
  obtain ⟨hname,hbytes⟩ := Prod.mk.inj hsame
  exact ⟨e,he,hname.symm,hbytes.symm⟩

/-- The turns of a server's requests. -/
theorem Refines.names_filter (h : Refines s a) (hvalid : InboxValid a) (w : W) :
    s.names.filter (fun name => name ∈ (s.putBy w).map Request.name) =
      (Inbox.own Request.writer w a.handled).map Request.name := by
  rw [h.names, List.filter_map]
  refine congrArg _ (List.filter_congr (fun e he => ?_))
  rw [Function.comp_apply, decide_eq_decide, Intake.putBy, ← h.put, List.mem_map]
  constructor
  · rintro ⟨e',he',hname⟩
    obtain ⟨he',hwriter⟩ := List.mem_filter.mp he'
    rw [← hvalid.key_inj he' (hvalid.known e he) hname]
    exact of_decide_eq_true hwriter
  · intro hwriter
    exact ⟨e,List.mem_filter.mpr ⟨hvalid.known e he,decide_eq_true hwriter⟩,rfl⟩

theorem Received.atLeastOnce (h : Received lib source d s) : AtLeastOnce lib source d s := by
  obtain ⟨⟨a,hrefines,hvalid⟩,hdrawn,heffective⟩ := h
  have hmem : ∀ e, e ∈ s.put ↔ e ∈ a.put := fun e => by rw [hrefines.put]
  refine ⟨?_,?_,?_,?_,?_,?_,?_⟩
  · intro name bytes hname hbytes
    obtain ⟨e,he,hrest⟩ := (hrefines.files name hname bytes).mp hbytes
    exact ⟨e,(hmem e).mpr (hvalid.kept.subset he),hrest⟩
  · intro e he
    rcases hvalid.served e ((hmem e).mp he) with hlies | hserved
    · exact .inl ((hrefines.files e.name (isJsonName_name e) e.bytes).mpr ⟨e,hlies,rfl,rfl⟩)
    · exact .inr (hrefines.mem_names hserved)
  · intro e he hclosed
    exact hrefines.mem_names (hvalid.handled_of_closed ((hmem e).mp he) (hrefines.closed ▸ hclosed))
  · intro x hx
    obtain ⟨e,he,hname,hbytes⟩ := hrefines.read hx
    have hturn : x.after = (handleIn lib x.groups source d x.before ⟨bytesOf e.payload,x.env⟩).state :=
      (heffective x hx).trans (by rw [hbytes]; rfl)
    exact ⟨e,(hmem e).mpr (hvalid.known e he),hname,hturn,fun h => hturn.trans (handleIn_written h)⟩
  · have hcount := hvalid.count
    have hhandled := congrArg List.length hrefines.handled
    have hlies := congrArg List.length (hrefines.files.jsonNames hvalid.lying_nodup)
    rw [List.length_map, List.length_map] at hhandled
    rw [List.length_map, (Latest.ascending_perm a.lying).length_eq] at hlies
    rw [hhandled, hlies, hcount, hrefines.put, hrefines.cuts, hrefines.held]
  · intro name
    rw [hrefines.names, ← hrefines.cuts]
    exact hvalid.count_le name
  · intro w hgrows
    have hnames : (Inbox.own Request.writer w a.put).Pairwise (fun x y => x.name < y.name) := by
      rw [hrefines.put]
      refine (List.pairwise_map.mp hgrows).imp_of_mem (fun {x y} hx hy hlt => ?_)
      exact requestName_lt (hdrawn.put x (List.mem_of_mem_filter hx)).1
        (hdrawn.put y (List.mem_of_mem_filter hy)).1 hlt
    obtain ⟨served,hrepeats,hfront⟩ := hvalid.in_order hnames
    refine ⟨served.map Request.name,?_,?_⟩
    · rw [hrefines.names_filter hvalid]
      exact hrepeats.map Request.name
    · rw [Intake.putBy, ← hrefines.put]
      exact hfront.map Request.name

/-- Whatever servers, the watcher and stops do to the directory of a group's requests, in any order, each
request is handled at least once, and more often only where the watcher was stopped. The servers draw no
name twice, at times below 10^20 nanoseconds. -/
theorem requests_at_least_once {s₀ : Intake W} (h₀ : s₀.Fresh) (h : Reachable (step lib source d) s₀ s) :
    AtLeastOnce lib source d s :=
  (received_of_reachable h₀ h).atLeastOnce

private def shopGroups : Groups := Dict.empty.set "local:shop"
  { name := "Shop", folder := "shop", trigger := "@Andy", addedAt := "" }

private def shopLib : Lib := ⟨⟨String.ofList,10⟩,fun _ t => .ok (t + 60000000)⟩

private def noRequests : Intake Bool := ⟨[],fun _ => none,Dict.empty,.idle,⟨TaskDb.empty,[]⟩,[],[],0,0,0⟩

private theorem noRequests_fresh : noRequests.Fresh := ⟨fun _ => rfl,fun _ _ => rfl,rfl,rfl,rfl,rfl,rfl,rfl⟩

private def greeting (text : String) : List (String × Json) :=
  [("type",.str "message"),("chatJid",.str "local:shop"),("text",.str text)]

/-- Two servers that overlap, and a watcher that is stopped behind the turn of the first request. -/
private def stopped : List (Action Bool) :=
  [.draw true (greeting "first") 1 "00000000",.draw false (greeting "second") 1 "ffffffff",.write true 7,
    .write false 100,.write true 100,.rename true,.list shopGroups,.rename false,.handle ⟨0,"",none⟩,.restart,
    .list shopGroups,.handle ⟨0,"",none⟩,.unlink,.handle ⟨0,"",none⟩,.unlink,.finish]

theorem requests_at_least_once_stopped :
    ∃ s, Reachable (step shopLib "shop" .messages) noRequests s ∧ s.put.length = 2 ∧ s.cuts = 1 ∧
      s.state.sends.length = 3 ∧ AtLeastOnce shopLib "shop" .messages s := by
  have hruns : (exec (step shopLib "shop" .messages) noRequests stopped).map
      (fun s => (s.put.length,s.cuts,s.state.sends.length)) = some (2,1,3) := by
    decide +kernel
  obtain ⟨s,hexec,hlengths⟩ := Option.map_eq_some_iff.mp hruns
  obtain ⟨hput,hrest⟩ := Prod.mk.inj hlengths
  obtain ⟨hcuts,hsends⟩ := Prod.mk.inj hrest
  exact ⟨s,⟨_,hexec⟩,hput,hcuts,hsends,requests_at_least_once noRequests_fresh ⟨_,hexec⟩⟩

end AtLeastOnce

end NanoClaw.Ipc.Requests
