import NanoClaw.Ipc.InputNumbers

/-! The input directory as a queue: it refines a spool, so that every text is returned by exactly one
drain, and the texts of a writer in the order they were sent. -/
namespace NanoClaw.Ipc
open Json Runner Execution
variable {W : Type} [DecidableEq W] {interp : ReadingInterp} {s t : System W}

section Refinement

/-- Where the reader stands in the spool. -/
def ReaderAt (a : Spool (Send W)) : Reader → Prop
  | .idle => a.listed = none
  | .looping names messages => ∃ todo, a.listed = some todo ∧ names = todo.map Send.name ∧
    messages = a.taken.map Send.message
  | .unlinking name names turn => ∃ e todo, a.listed = some (e :: todo) ∧ name = e.name ∧
    names = todo.map Send.name ∧ turn = .ok ((a.taken ++ [e]).map Send.message)
  | .raised _ => False

/-- The directory holds the whole files of the entries that lie in the spool. -/
structure Refines (s : System W) (a : Spool (Send W)) : Prop where
  put : a.put = s.sent
  drains : s.drains = a.done.map (List.map Send.message)
  listings : s.listings = a.rounds
  reader : ReaderAt a s.reader
  files : ∀ name, isJsonName name = true → ∀ bytes, s.dir.get? name = some bytes ↔
    ∃ e ∈ a.listed.getD [] ++ a.waiting, e.name = name ∧ inputPayload e.text = bytes

/-- The steps of the spool. -/
abbrev SpoolStep : Spool (Send W) → Spool (Send W) → Prop :=
  Spool.Step Send.name Send.writer Send.listings

abbrev SpoolValid : Spool (Send W) → Prop := Spool.Valid Send.name Send.writer Send.listings

variable {a : Spool (Send W)}

omit [DecidableEq W] in
theorem isJsonName_name (e : Send W) : isJsonName e.name = true := isJsonName_orderedFilename

omit [DecidableEq W] in
/-- A step that changes no input file, nor the reader. -/
theorem Refines.still (h : Refines s a) (hsent : t.sent = s.sent) (hdrains : t.drains = s.drains)
    (hlistings : t.listings = s.listings) (hreader : t.reader = s.reader)
    (hdir : ∀ name, isJsonName name = true → t.dir.get? name = s.dir.get? name) : Refines t a where
  put := h.put.trans hsent.symm
  drains := hdrains.trans h.drains
  listings := hlistings.trans h.listings
  reader := hreader ▸ h.reader
  files := by
    intro name hname bytes
    rw [hdir name hname]
    exact h.files name hname bytes

/-- The entries that lie in the spool have distinct names. -/
theorem nodup_lying (hvalid : SpoolValid a) : ((a.listed.getD [] ++ a.waiting).map Send.name).Nodup := by
  have hall := hvalid.nodup_inOrder
  rw [Spool.inOrder, List.map_append] at hall
  exact (List.nodup_append.mp hall).2.1

theorem mem_put_of_lying (hvalid : SpoolValid a) {e : Send W} (he : e ∈ a.listed.getD [] ++ a.waiting) :
    e ∈ a.put :=
  hvalid.kept.mem_iff.mp (List.mem_append_right _ he)

omit [DecidableEq W] in
/-- The name that a writer has taken is new, and behind those of its earlier sends. -/
theorem Numbered.name_lt (h : Numbered s) {w : W} {e e' : Send W} (htime : TimeRead s w e.ts)
    (hnumber : NumberTaken s w e.seq) (he' : e' ∈ s.sent) :
    e'.name ≠ e.name ∧ (e'.writer = w → e'.name < e.name) := by
  have hts := (h.ts e' he').2
  have hseq := (h.seq e' he').2
  constructor
  · exact fun hname => hnumber.unused e' he'
      (orderedFilename_seq hts htime.fits hseq hnumber.fits hname)
  · intro hwriter
    have hle := htime.later e' he' hwriter
    have hlt := hnumber.later e' he' hwriter
    rw [Send.name, Send.name, orderedFilename_lt_iff hts htime.fits hseq hnumber.fits]
    omega

/-- Renaming adds one file to those that lie there. -/
theorem files_rename (hvalid : SpoolValid a) {e : Send W} (hnew : ∀ e' ∈ a.put, e'.name ≠ e.name)
    (h : ∀ name, isJsonName name = true → ∀ bytes, s.dir.get? name = some bytes ↔
      ∃ e' ∈ a.listed.getD [] ++ a.waiting, e'.name = name ∧ inputPayload e'.text = bytes)
    {name : String} (hname : isJsonName name = true) {bytes : List UInt8} :
    ((s.dir.unlink (tmpName e.name)).set e.name (inputPayload e.text)).get? name = some bytes ↔
      ∃ e' ∈ a.listed.getD [] ++ (a.waiting ++ [e]), e'.name = name ∧ inputPayload e'.text = bytes := by
  rw [← List.append_assoc]
  rcases eq_or_ne name e.name with rfl | hne
  · rw [Dict.get?_set_self, Option.some.injEq]
    constructor
    · rintro rfl
      exact ⟨e,List.mem_append_right _ (List.mem_singleton_self e),rfl,rfl⟩
    · rintro ⟨e',he',hsame,rfl⟩
      rcases List.mem_append.mp he' with he' | he'
      · exact absurd hsame (hnew e' (mem_put_of_lying hvalid he'))
      · rw [List.mem_singleton.mp he']
  · rw [Dict.get?_set_ne _ _ hne, get?_unlink_ne (tmpName_ne_of_isJsonName hname).symm, h name hname]
    constructor
    · rintro ⟨e',he',hrest⟩
      exact ⟨e',List.mem_append_left _ he',hrest⟩
    · rintro ⟨e',he',hsame,hbytes⟩
      rcases List.mem_append.mp he' with he' | he'
      · exact ⟨e',he',hsame,hbytes⟩
      · rw [List.mem_singleton.mp he'] at hsame
        exact absurd hsame.symm hne

/-- The new file of a writer is a new entry. -/
theorem Refines.rename (h : Refines s a) (hvalid : SpoolValid a) (hnumbered : Numbered s) {w : W}
    {text : PyString} {ts seq written : Nat} {bytes : List UInt8}
    (hw : s.writers w = .writing text ts seq written) (hwhole : (inputPayload text).length ≤ written)
    (hbytes : s.dir.get? (tmpName (orderedFilename ts seq)) = some bytes) :
    ∃ a', SpoolStep a a' ∧ Refines { s with
      dir := (s.dir.unlink (tmpName (orderedFilename ts seq))).set (orderedFilename ts seq) bytes
      writers := Function.update s.writers w .idle
      sent := s.sent ++ [⟨w,text,ts,seq,s.listings⟩] } a' := by
  obtain ⟨htime,hnumber,_⟩ := hnumbered.named (Or.inr ⟨written,hw⟩)
  obtain rfl : bytes = inputPayload text := by
    have hw' := hnumbered.writers w
    rw [WriterValid, hw] at hw'
    have htmp := hw'.2.2
    rw [List.take_of_length_le hwhole, hbytes] at htmp
    exact Option.some.inj htmp
  let e : Send W := ⟨w,text,ts,seq,s.listings⟩
  have hput : ∀ e' ∈ a.put, e'.name ≠ e.name ∧ (e'.writer = w → e'.name < e.name) := by
    intro e' he'
    rw [h.put] at he'
    exact hnumbered.name_lt htime hnumber he'
  have hnew : ∀ e' ∈ a.put, e'.name ≠ e.name := fun e' he' => (hput e' he').1
  have hstep : SpoolStep a { a with put := a.put ++ [e], waiting := a.waiting ++ [e] } :=
    .put hnew (fun e' he' => (hput e' he').2) h.listings
  refine ⟨_,hstep,?_,h.drains,h.listings,?_,fun name hname bytes => ?_⟩
  · rw [h.put]
  · have hreader := h.reader
    dsimp only
    cases hpos : s.reader with
    | idle | looping | unlinking | raised =>
      rw [hpos] at hreader
      exact hreader
  · exact files_rename hvalid hnew h.files hname

omit [DecidableEq W] in
/-- The listed names are those of the entries, by name. -/
theorem jsonNames_eq {l : List (Send W)} (hnodup : (l.map Send.name).Nodup)
    (h : ∀ name, isJsonName name = true → ∀ bytes, s.dir.get? name = some bytes ↔
      ∃ e ∈ l, e.name = name ∧ inputPayload e.text = bytes) :
    jsonNames s.dir = (Latest.ascending Send.name l).map Send.name := by
  have hsorted : ((Latest.ascending Send.name l).map Send.name).Pairwise (· ≤ ·) :=
    List.pairwise_map.mpr (Latest.ascending_sorted l)
  have hperm : (jsonNames s.dir).Perm ((Latest.ascending Send.name l).map Send.name) := by
    have hnames : ((Latest.ascending Send.name l).map Send.name).Perm (l.map Send.name) :=
      (Latest.ascending_perm l).map Send.name
    refine List.Perm.trans ?_ hnames.symm
    rw [List.perm_ext_iff_of_nodup jsonNames_nodup hnodup]
    intro name
    rw [mem_jsonNames, List.mem_map, Dict.mem_keys_iff, Option.isSome_iff_exists]
    constructor
    · rintro ⟨⟨bytes,hbytes⟩,hjson⟩
      obtain ⟨e,he,hname,_⟩ := (h name hjson bytes).mp hbytes
      exact ⟨e,he,hname⟩
    · rintro ⟨e,he,rfl⟩
      exact ⟨⟨_,(h e.name (isJsonName_name e) _).mpr ⟨e,he,rfl,rfl⟩⟩,isJsonName_name e⟩
  exact hperm.eq_of_pairwise (fun _ _ _ _ hab hba => le_antisymm hab hba) jsonNames_sorted hsorted

theorem Refines.list (h : Refines s a) (hvalid : SpoolValid a) (hreader : s.reader = .idle) :
    ∃ a', SpoolStep a a' ∧
      Refines { s with reader := .looping (jsonNames s.dir) [], listings := s.listings + 1 } a' := by
  have hlisted : a.listed = none := by
    have hat := h.reader
    rwa [hreader] at hat
  have hfiles := h.files
  have hnodup := nodup_lying hvalid
  rw [hlisted, Option.getD_none, List.nil_append] at hfiles hnodup
  refine ⟨_,.list hlisted,h.put,h.drains,?_,?_,?_⟩
  · rw [h.listings, Spool.rounds, Spool.rounds, hlisted]
    rfl
  · exact ⟨_,rfl,jsonNames_eq hnodup hfiles,by rw [hvalid.between hlisted]; rfl⟩
  · intro name hname bytes
    rw [hfiles name hname, Option.getD_some, List.append_nil]
    simp only [(Latest.ascending_perm a.waiting).mem_iff]

omit [DecidableEq W] in
/-- The file whose turn it is lies there whole. -/
theorem Refines.read (h : Refines s a) {name : String} {names : List String}
    {messages : List (String × Json)} (hreader : s.reader = .looping (name :: names) messages) :
    Refines { s with
      reader := .unlinking name names ((readTurn interp.toInterp s.dir name).map (fun out =>
        messages ++ out.toList.map (fun text => (name,text)))) } a := by
  have hat := h.reader
  rw [hreader] at hat
  obtain ⟨todo,hlisted,hnames,rfl⟩ := hat
  cases todo with
  | nil => cases hnames
  | cons e todo =>
    rw [List.map_cons, List.cons.injEq] at hnames
    obtain ⟨rfl,rfl⟩ := hnames
    have hread : readTurn interp.toInterp s.dir e.name = .ok (some e.text.json) := by
      have hlies : ∃ e' ∈ a.listed.getD [] ++ a.waiting, e'.name = e.name ∧
          inputPayload e'.text = inputPayload e.text := by
        refine ⟨e,?_,rfl,rfl⟩
        rw [hlisted]
        exact List.mem_append_left _ List.mem_cons_self
      rw [readTurn, (h.files e.name (isJsonName_name e) _).mpr hlies]
      exact messageOf_inputPayload interp e.text
    refine ⟨h.put,h.drains,h.listings,⟨e,todo,hlisted,rfl,rfl,?_⟩,h.files⟩
    rw [hread, List.map_append]
    rfl

omit [DecidableEq W] in
/-- Unlinking takes one file from those that lie there. -/
theorem files_unlink {e : Send W} {l : List (Send W)} (hgone : e.name ∉ l.map Send.name)
    (h : ∀ name, isJsonName name = true → ∀ bytes, s.dir.get? name = some bytes ↔
      ∃ e' ∈ e :: l, e'.name = name ∧ inputPayload e'.text = bytes)
    {name : String} (hname : isJsonName name = true) {bytes : List UInt8} :
    (s.dir.unlink e.name).get? name = some bytes ↔
      ∃ e' ∈ l, e'.name = name ∧ inputPayload e'.text = bytes := by
  rcases eq_or_ne name e.name with rfl | hne
  · refine iff_of_false ?_ ?_
    · rw [get?_unlink_self]
      intro hnone
      cases hnone
    · rintro ⟨e',he',hsame,_⟩
      exact hgone (List.mem_map.mpr ⟨e',he',hsame⟩)
  · rw [get?_unlink_ne hne, h name hname]
    constructor
    · rintro ⟨e',he',hsame,hbytes⟩
      rcases List.mem_cons.mp he' with rfl | he'
      · exact absurd hsame.symm hne
      · exact ⟨e',he',hsame,hbytes⟩
    · rintro ⟨e',he',hrest⟩
      exact ⟨e',List.mem_cons_of_mem _ he',hrest⟩

/-- What is read is unlinked, and leaves the spool. -/
theorem Refines.unlink (h : Refines s a) (hvalid : SpoolValid a) {name : String} {names : List String}
    {turn : Except PyExc (List (String × Json))} (hreader : s.reader = .unlinking name names turn) :
    ∃ a', SpoolStep a a' ∧
      Refines { s with dir := s.dir.unlink name, reader := .resume names turn } a' := by
  have hat := h.reader
  rw [hreader] at hat
  obtain ⟨e,todo,hlisted,rfl,rfl,rfl⟩ := hat
  have hfiles := h.files
  have hnodup := nodup_lying hvalid
  rw [hlisted, Option.getD_some, List.cons_append] at hfiles hnodup
  have hgone : e.name ∉ (todo ++ a.waiting).map Send.name := (List.nodup_cons.mp hnodup).1
  refine ⟨_,.take hlisted,h.put,h.drains,?_,⟨todo,rfl,rfl,rfl⟩,?_⟩
  · rw [h.listings, Spool.rounds, Spool.rounds, hlisted]
    rfl
  · intro name hname bytes
    exact files_unlink hgone hfiles hname

omit [DecidableEq W] in
theorem Refines.finish (h : Refines s a) {messages : List (String × Json)}
    (hreader : s.reader = .looping [] messages) :
    ∃ a', SpoolStep a a' ∧ Refines { s with reader := .idle, drains := s.drains ++ [messages] } a' := by
  have hat := h.reader
  rw [hreader] at hat
  obtain ⟨todo,hlisted,hnames,rfl⟩ := hat
  obtain rfl : todo = [] := List.map_eq_nil_iff.mp hnames.symm
  refine ⟨_,.close hlisted,h.put,?_,?_,rfl,?_⟩
  · rw [h.drains, List.map_append]
    rfl
  · rw [h.listings, Spool.rounds, Spool.rounds, hlisted]
    simp
  · have hfiles := h.files
    rw [hlisted] at hfiles
    exact hfiles

/-- Every step of the system is a step of the spool, or none. -/
theorem Refines.moves (h : Refines s a) (hvalid : SpoolValid a) (hnumbered : Numbered s)
    (hmoves : Moves interp s t) : ∃ a', (a' = a ∨ SpoolStep a a') ∧ Refines t a' := by
  cases hmoves with
  | tick | elsewhere | begin | takeNumber =>
    exact ⟨a,Or.inl rfl,h.still rfl rfl rfl rfl (fun _ _ => rfl)⟩
  | write =>
    refine ⟨a,Or.inl rfl,h.still rfl rfl rfl rfl (fun name hname => ?_)⟩
    exact Dict.get?_set_ne _ _ (tmpName_ne_of_isJsonName hname).symm
  | rename hw hwhole hbytes =>
    obtain ⟨a',hstep,hrefines⟩ := h.rename hvalid hnumbered hw hwhole hbytes
    exact ⟨a',Or.inr hstep,hrefines⟩
  | list hreader =>
    obtain ⟨a',hstep,hrefines⟩ := h.list hvalid hreader
    exact ⟨a',Or.inr hstep,hrefines⟩
  | read hreader => exact ⟨a,Or.inl rfl,h.read hreader⟩
  | unlink hreader =>
    obtain ⟨a',hstep,hrefines⟩ := h.unlink hvalid hreader
    exact ⟨a',Or.inr hstep,hrefines⟩
  | finish hreader =>
    obtain ⟨a',hstep,hrefines⟩ := h.finish hreader
    exact ⟨a',Or.inr hstep,hrefines⟩

omit [DecidableEq W] in
/-- A fresh process refines the empty spool. -/
theorem Refines.fresh (h : s.Fresh) : Refines s Spool.empty where
  put := h.sent.symm
  drains := h.drains
  listings := h.listings
  reader := by
    rw [h.reader]
    rfl
  files := by
    intro name hname bytes
    rw [h.dir name hname]
    refine iff_of_false (fun hnone => by cases hnone) ?_
    rintro ⟨e,he,_⟩
    cases he

omit [DecidableEq W] in
theorem Numbered.fresh (h : s.Fresh) : Numbered s where
  writers w := by
    rw [WriterValid, h.writers]
    trivial
  apart w w' seq hw _ := by
    rw [h.writers] at hw
    cases hw
  ts e he := by
    rw [h.sent] at he
    cases he
  seq e he := by
    rw [h.sent] at he
    cases he

/-- The state of a spool that the system is in. -/
def Spooled (s : System W) : Prop := ∃ a, Refines s a ∧ SpoolValid a ∧ Numbered s

theorem Spooled.step {act : Action W} (h : Spooled s) (hstep : step interp s act = some t) :
    Spooled t := by
  obtain ⟨a,hrefines,hvalid,hnumbered⟩ := h
  have hmoves := moves_of_step hstep
  have hjson : ∀ name names turn, s.reader = .unlinking name names turn → isJsonName name = true := by
    intro name names turn hreader
    have hat := hrefines.reader
    rw [hreader] at hat
    obtain ⟨e,_,_,rfl,_⟩ := hat
    exact isJsonName_name e
  have hnumbered' := hnumbered.moves hjson hmoves
  obtain ⟨a',hsame | hspool,hrefines'⟩ := hrefines.moves hvalid hnumbered hmoves
  · exact ⟨a,hsame ▸ hrefines',hvalid,hnumbered'⟩
  · exact ⟨a',hrefines',hvalid.step hspool,hnumbered'⟩

theorem spooled_of_reachable {s₀ : System W} (h₀ : s₀.Fresh) (h : Reachable (step interp) s₀ s) :
    Spooled s :=
  h.invariant (fun _ _ _ hs hstep => hs.step hstep)
    ⟨Spool.empty,Refines.fresh h₀,Spool.valid_empty,Numbered.fresh h₀⟩

end Refinement

section Queue

/-- The messages that the drains have read so far, the one under way included. -/
def System.messages (s : System W) : List (String × Json) :=
  s.drains.flatten ++
    match s.reader with
    | .looping _ messages | .unlinking _ _ (.ok messages) => messages
    | _ => []

/-- The messages of a writer, in the order it has sent them. -/
def System.sentBy (s : System W) (w : W) : List (String × Json) :=
  (s.sent.filter (fun e => e.writer = w)).map Send.message

/-- Nothing raises; every message is the whole text of one send; a send is returned by one drain once a
drain that has listed after its renaming has ended; and what is returned of a writer's texts is the
first part of what it has sent. -/
structure ExactlyOnce (s : System W) : Prop where
  drainsReturn : ∀ e, s.reader ≠ .raised e
  renames : ∀ w text ts seq written, s.writers w = .writing text ts seq written →
    (s.dir.get? (tmpName (orderedFilename ts seq))).isSome
  distinct : (s.sent.map Send.name).Nodup
  whole : ∀ m ∈ s.messages, ∃ e ∈ s.sent, m = e.message
  noRepeat : (s.messages.map Prod.fst).Nodup
  once : ∀ e ∈ s.sent, e.listings < s.drains.length →
    (∃ drain ∈ s.drains, e.message ∈ drain) ∧
      s.drains.countP (fun drain => e.name ∈ drain.map Prod.fst) = 1
  inOrder : ∀ w, s.messages.filter (fun m => m.1 ∈ (s.sentBy w).map Prod.fst) <+: s.sentBy w

variable {a : Spool (Send W)}

omit [DecidableEq W] in
/-- The messages read are those of the first entries of the spool's order. -/
theorem Refines.messages (h : Refines s a) :
    ∃ l, s.messages = l.map Send.message ∧ l <+: a.inOrder := by
  have hat := h.reader
  have hdrains : s.drains.flatten = a.done.flatten.map Send.message := by
    rw [h.drains, List.map_flatten]
  rw [System.messages, hdrains]
  cases hpos : s.reader with
  | idle =>
    exact ⟨a.done.flatten,List.append_nil _,(List.prefix_append _ _).trans (List.prefix_append _ _)⟩
  | looping names messages =>
    rw [hpos] at hat
    obtain ⟨todo,_,_,rfl⟩ := hat
    exact ⟨a.done.flatten ++ a.taken,List.map_append.symm,List.prefix_append _ _⟩
  | unlinking name names turn =>
    rw [hpos] at hat
    obtain ⟨e,todo,hlisted,_,_,rfl⟩ := hat
    refine ⟨a.done.flatten ++ a.taken ++ [e],?_,?_⟩
    · rw [List.append_assoc]
      exact List.map_append.symm
    · rw [Spool.inOrder, hlisted, Option.getD_some, List.cons_append]
      exact (List.prefix_append_right_inj _).mpr (List.prefix_append [e] _)
  | raised e =>
    rw [hpos] at hat
    exact hat.elim

/-- The messages of a writer among those of the entries. -/
theorem filter_messages {l : List (Send W)} (hl : ∀ e ∈ l, e ∈ s.sent)
    (hdistinct : (s.sent.map Send.name).Nodup) (w : W) :
    (l.map Send.message).filter (fun m => m.1 ∈ (s.sentBy w).map Prod.fst) =
      (l.filter (fun e => e.writer = w)).map Send.message := by
  rw [List.filter_map]
  refine congrArg _ (List.filter_congr (fun e he => ?_))
  rw [Function.comp_apply, decide_eq_decide, System.sentBy, List.map_map, List.mem_map]
  constructor
  · rintro ⟨e',he',hname⟩
    obtain ⟨he',hwriter⟩ := List.mem_filter.mp he'
    have hsame : e' = e := List.inj_on_of_nodup_map hdistinct he' (hl e he) hname
    rw [← hsame]
    exact of_decide_eq_true hwriter
  · intro hwriter
    exact ⟨e,List.mem_filter.mpr ⟨hl e he,decide_eq_true hwriter⟩,rfl⟩

theorem Spooled.exactlyOnce (h : Spooled s) : ExactlyOnce s := by
  obtain ⟨a,hrefines,hvalid,hnumbered⟩ := h
  obtain ⟨l,hmessages,hfront⟩ := hrefines.messages
  have hdistinct : (s.sent.map Send.name).Nodup := hrefines.put ▸ hvalid.distinct
  have hsent : ∀ e ∈ l, e ∈ s.sent := fun e he =>
    hrefines.put ▸ hvalid.kept.mem_iff.mp (hfront.subset he)
  refine ⟨?_,?_,hdistinct,?_,?_,?_,?_⟩
  · intro e hraised
    have hat := hrefines.reader
    rw [hraised] at hat
    exact hat
  · intro w text ts seq written hw
    have hvalid := hnumbered.writers w
    rw [WriterValid, hw] at hvalid
    rw [hvalid.2.2]
    rfl
  · intro m hm
    rw [hmessages] at hm
    obtain ⟨e,he,rfl⟩ := List.mem_map.mp hm
    exact ⟨e,hsent e he,rfl⟩
  · rw [hmessages, List.map_map]
    exact hvalid.nodup_inOrder.sublist (hfront.sublist.map Send.name)
  · intro e he hlistings
    rw [hrefines.drains, List.length_map] at hlistings
    rw [← hrefines.put] at he
    obtain ⟨drain,hdrain,hmem⟩ := List.mem_flatten.mp (hvalid.mem_done he hlistings)
    rw [hrefines.drains]
    refine ⟨⟨_,List.mem_map_of_mem hdrain,List.mem_map_of_mem hmem⟩,?_⟩
    have hone := hvalid.once he hlistings
    rw [List.countP_map]
    simp only [Function.comp_def, List.map_map]
    exact hone
  · intro w
    rw [hmessages, filter_messages hsent hdistinct, System.sentBy, ← hrefines.put]
    exact (hvalid.fifo hfront w).map Send.message

/-- In every state that writers and the reader reach, the input directory is a queue that returns each
text once, and those of a writer in order. -/
theorem input_exactly_once {s₀ : System W} (h₀ : s₀.Fresh) (h : Reachable (step interp) s₀ s) :
    ExactlyOnce s :=
  (spooled_of_reachable h₀ h).exactlyOnce

end Queue

section Run

private def inputReading : ReadingInterp := ⟨⟨String.ofList,2⟩,Nat.zero_lt_two⟩

private def started : System Bool := ⟨1700000000000000000,0,fun _ => .idle,Dict.empty,.idle,0,[],[]⟩

private theorem started_fresh : started.Fresh := ⟨fun _ => rfl,fun _ _ => rfl,rfl,rfl,rfl,rfl⟩

private def hello : PyString where
  codes := [104,105]
  canonical := ⟨by decide,by simp [IsHigh]⟩

/-- Two writers that overlap, and a drain that begins between their renamings. -/
private def overlapping : List (Action Bool) :=
  [.begin true hello,.begin false hello,.takeNumber false,.takeNumber true,.write true 3,
    .write false 60,.rename false,.list,.write true 60,.read,.rename true,.unlink,.finish,.list,.read,
    .unlink,.finish]

theorem input_exactly_once_overlapping :
    ∃ s, Reachable (step inputReading) started s ∧ s.drains.length = 2 ∧ s.sent.length = 2 ∧
      ExactlyOnce s := by
  have hruns : (exec (step inputReading) started overlapping).map
      (fun s => (s.drains.length,s.sent.length)) = some (2,2) := by
    decide +kernel
  obtain ⟨s,hexec,hlengths⟩ := Option.map_eq_some_iff.mp hruns
  obtain ⟨hdrains,hsent⟩ := Prod.mk.inj hlengths
  exact ⟨s,⟨_,hexec⟩,hdrains,hsent,input_exactly_once started_fresh ⟨_,hexec⟩⟩

end Run

end NanoClaw.Ipc
