import NanoClaw.Ipc.InputSpool

/-! What a step of the writers and the reader can do, and what is known of the times and numbers that
the writers hold. -/
namespace NanoClaw.Ipc
open Json Runner Execution
variable {W : Type} [DecidableEq W] {interp : ReadingInterp} {s t : System W}

/-- What a step can do. -/
inductive Moves (interp : ReadingInterp) (s : System W) : System W → Prop where
  | tick {now : Nat} (hclock : s.clock ≤ now) : Moves interp s { s with clock := now }
  | elsewhere : Moves interp s { s with sequence := s.sequence + 1 }
  | begin {w : W} {text : PyString} (hw : s.writers w = .idle) (hclock : s.clock < 10 ^ 20) :
      Moves interp s { s with writers := Function.update s.writers w (.timed text s.clock) }
  | takeNumber {w : W} {text : PyString} {ts : Nat} (hw : s.writers w = .timed text ts)
      (hsequence : s.sequence < 10 ^ 8) :
      Moves interp s
        { s with
          sequence := s.sequence + 1
          writers := Function.update s.writers w (.named text ts s.sequence) }
  | write {w : W} {text : PyString} {ts seq written : Nat}
      (hw : s.writers w = .named text ts seq ∨ ∃ before, s.writers w = .writing text ts seq before) :
      Moves interp s (s.writeTmp w text ts seq written)
  | rename {w : W} {text : PyString} {ts seq written : Nat} {bytes : List UInt8}
      (hw : s.writers w = .writing text ts seq written)
      (hwhole : (inputPayload text).length ≤ written)
      (hbytes : s.dir.get? (tmpName (orderedFilename ts seq)) = some bytes) :
      Moves interp s
        { s with
          dir := (s.dir.unlink (tmpName (orderedFilename ts seq))).set (orderedFilename ts seq) bytes
          writers := Function.update s.writers w .idle
          sent := s.sent ++ [⟨w,text,ts,seq,s.listings⟩] }
  | list (hreader : s.reader = .idle) :
      Moves interp s { s with reader := .looping (jsonNames s.dir) [], listings := s.listings + 1 }
  | read {name : String} {names : List String} {messages : List (String × Json)}
      (hreader : s.reader = .looping (name :: names) messages) :
      Moves interp s
        { s with
          reader := .unlinking name names ((readTurn interp.toInterp s.dir name).map (fun out =>
            messages ++ out.toList.map (fun text => (name,text)))) }
  | unlink {name : String} {names : List String} {turn : Except PyExc (List (String × Json))}
      (hreader : s.reader = .unlinking name names turn) :
      Moves interp s { s with dir := s.dir.unlink name, reader := .resume names turn }
  | finish {messages : List (String × Json)} (hreader : s.reader = .looping [] messages) :
      Moves interp s { s with reader := .idle, drains := s.drains ++ [messages] }

theorem moves_of_step {act : Action W} (h : step interp s act = some t) : Moves interp s t := by
  cases act with
  | tick now =>
    simp only [step] at h
    split_ifs at h with hclock
    cases h
    exact .tick hclock
  | elsewhere =>
    simp only [step] at h
    split_ifs at h
    cases h
    exact .elsewhere
  | begin w text =>
    simp only [step] at h
    split at h
    · rename_i hw
      split_ifs at h with hclock
      cases h
      exact .begin hw hclock
    · cases h
  | takeNumber w =>
    simp only [step] at h
    split at h
    · rename_i text ts hw
      split_ifs at h with hsequence
      cases h
      exact .takeNumber hw hsequence
    · cases h
  | write w written =>
    simp only [step] at h
    split at h
    · rename_i text ts seq hw
      cases h
      exact .write (Or.inl hw)
    · rename_i text ts seq before hw
      split_ifs at h
      cases h
      exact .write (Or.inr ⟨before,hw⟩)
    · cases h
  | rename w =>
    simp only [step] at h
    split at h
    · rename_i text ts seq written hw
      split_ifs at h with hwhole
      obtain ⟨bytes,hbytes,rfl⟩ := Option.map_eq_some_iff.mp h
      exact .rename hw hwhole hbytes
    · cases h
  | list =>
    simp only [step] at h
    split at h
    · rename_i hreader
      cases h
      exact .list hreader
    · cases h
  | read =>
    simp only [step] at h
    split at h
    · rename_i name names messages hreader
      cases h
      exact .read hreader
    · cases h
  | unlink =>
    simp only [step] at h
    split at h
    · rename_i name names turn hreader
      cases h
      exact .unlink hreader
    · cases h
  | finish =>
    simp only [step] at h
    split at h
    · rename_i messages hreader
      cases h
      exact .finish hreader
    · cases h

section Numbers

/-- The number that a writer holds. -/
def Sending.seq? : Sending → Option Nat
  | .named _ _ seq | .writing _ _ seq _ => some seq
  | _ => none

/-- A time that a writer has read: it is not before those of its earlier sends. -/
structure TimeRead (s : System W) (w : W) (ts : Nat) : Prop where
  le : ts ≤ s.clock
  fits : ts < 10 ^ 20
  later : ∀ e ∈ s.sent, e.writer = w → e.ts ≤ ts

/-- A number that a writer has taken: no send has it, and those of its earlier sends are less. -/
structure NumberTaken (s : System W) (w : W) (seq : Nat) : Prop where
  lt : seq < s.sequence
  fits : seq < 10 ^ 8
  unused : ∀ e ∈ s.sent, e.seq ≠ seq
  later : ∀ e ∈ s.sent, e.writer = w → e.seq < seq

/-- What is known of a writer where it stands. -/
def WriterValid (s : System W) (w : W) : Prop :=
  match s.writers w with
  | .idle => True
  | .timed _ ts => TimeRead s w ts
  | .named _ ts seq => TimeRead s w ts ∧ NumberTaken s w seq
  | .writing text ts seq written => TimeRead s w ts ∧ NumberTaken s w seq ∧
    s.dir.get? (tmpName (orderedFilename ts seq)) = some ((inputPayload text).take written)

/-- No two writers hold one number. -/
def Apart (writers : W → Sending) : Prop :=
  ∀ w w' seq, (writers w).seq? = some seq → (writers w').seq? = some seq → w = w'

structure Numbered (s : System W) : Prop where
  writers : ∀ w, WriterValid s w
  apart : Apart s.writers
  ts : ∀ e ∈ s.sent, e.ts ≤ s.clock ∧ e.ts < 10 ^ 20
  seq : ∀ e ∈ s.sent, e.seq < s.sequence ∧ e.seq < 10 ^ 8

omit [DecidableEq W] in
/-- A writer that does not move stays valid while the clock, the sequence and the sends grow. -/
theorem WriterValid.grow {w : W} (h : WriterValid s w) (hsame : t.writers w = s.writers w)
    (hclock : s.clock ≤ t.clock) (hsequence : s.sequence ≤ t.sequence)
    (hsent : ∀ e ∈ t.sent, e ∈ s.sent ∨ e.writer ≠ w ∧ (s.writers w).seq? ≠ some e.seq)
    (hdir : ∀ text ts seq written, s.writers w = .writing text ts seq written →
      t.dir.get? (tmpName (orderedFilename ts seq)) = s.dir.get? (tmpName (orderedFilename ts seq))) :
    WriterValid t w := by
  have htime : ∀ ts, TimeRead s w ts → TimeRead t w ts := by
    intro ts h
    refine ⟨h.le.trans hclock,h.fits,fun e he hwriter => ?_⟩
    rcases hsent e he with he | ⟨hne,_⟩
    · exact h.later e he hwriter
    · exact absurd hwriter hne
  have hnumber : ∀ seq, (s.writers w).seq? = some seq → NumberTaken s w seq → NumberTaken t w seq := by
    intro seq hseq h
    refine ⟨h.lt.trans_le hsequence,h.fits,fun e he heq => ?_,fun e he hwriter => ?_⟩
    · rcases hsent e he with he | ⟨_,hne⟩
      · exact h.unused e he heq
      · exact hne (heq ▸ hseq)
    · rcases hsent e he with he | ⟨hne,_⟩
      · exact h.later e he hwriter
      · exact absurd hwriter hne
  rw [WriterValid] at h ⊢
  rw [hsame]
  cases hw : s.writers w with
  | idle => trivial
  | timed text ts =>
    rw [hw] at h
    exact htime ts h
  | named text ts seq =>
    rw [hw] at h
    exact ⟨htime ts h.1,hnumber seq (by rw [hw]; rfl) h.2⟩
  | writing text ts seq written =>
    rw [hw] at h
    exact ⟨htime ts h.1,hnumber seq (by rw [hw]; rfl) h.2.1,(hdir text ts seq written hw).trans h.2.2⟩

theorem Apart.update {writers : W → Sending} (h : Apart writers) {w : W} {x : Sending}
    (hx : ∀ seq, x.seq? = some seq → ∀ w', w' ≠ w → (writers w').seq? ≠ some seq) :
    Apart (Function.update writers w x) := by
  intro a b seq ha hb
  rcases eq_or_ne a w with rfl | haw
  · rcases eq_or_ne b a with rfl | hba
    · rfl
    · rw [Function.update_self] at ha
      rw [Function.update_of_ne hba] at hb
      exact absurd hb (hx seq ha b hba)
  · rw [Function.update_of_ne haw] at ha
    rcases eq_or_ne b w with rfl | hbw
    · rw [Function.update_self] at hb
      exact absurd ha (hx seq hb a haw)
    · rw [Function.update_of_ne hbw] at hb
      exact h a b seq ha hb

/-- A writer that moves on with its number, or without one. -/
theorem Apart.update_same {writers : W → Sending} (h : Apart writers) {w : W} {x : Sending}
    (hx : ∀ seq, x.seq? = some seq → (writers w).seq? = some seq) :
    Apart (Function.update writers w x) :=
  h.update (fun seq hseq w' hne hw' => hne (h w' w seq hw' (hx seq hseq)))

omit [DecidableEq W] in
theorem Numbered.timed (h : Numbered s) {w : W} {text : PyString} {ts : Nat}
    (hw : s.writers w = .timed text ts) : TimeRead s w ts := by
  have hvalid := h.writers w
  rwa [WriterValid, hw] at hvalid

omit [DecidableEq W] in
theorem Numbered.named (h : Numbered s) {w : W} {text : PyString} {ts seq : Nat}
    (hw : s.writers w = .named text ts seq ∨ ∃ before, s.writers w = .writing text ts seq before) :
    TimeRead s w ts ∧ NumberTaken s w seq ∧ (s.writers w).seq? = some seq := by
  have hvalid := h.writers w
  rcases hw with hw | ⟨before,hw⟩
  · rw [WriterValid, hw] at hvalid
    exact ⟨hvalid.1,hvalid.2,by rw [hw]; rfl⟩
  · rw [WriterValid, hw] at hvalid
    exact ⟨hvalid.1,hvalid.2.1,by rw [hw]; rfl⟩

omit [DecidableEq W] in
/-- The numbers that are held were all taken before. -/
theorem Numbered.numberTaken (h : Numbered s) {w : W} {seq : Nat}
    (hseq : (s.writers w).seq? = some seq) : NumberTaken s w seq := by
  have hvalid := h.writers w
  rw [WriterValid] at hvalid
  cases hw : s.writers w with
  | idle | timed =>
    rw [hw] at hseq
    cases hseq
  | named _ _ seq' =>
    rw [hw] at hvalid hseq
    cases hseq
    exact hvalid.2
  | writing _ _ seq' =>
    rw [hw] at hvalid hseq
    cases hseq
    exact hvalid.2.1

omit [DecidableEq W] in
/-- The temporary file of another writer has another name. -/
theorem Numbered.tmpName_ne (h : Numbered s) {w w' : W} (hne : w' ≠ w) {text text' : PyString}
    {ts seq ts' seq' written' : Nat}
    (hw : s.writers w = .named text ts seq ∨ ∃ before, s.writers w = .writing text ts seq before)
    (hw' : s.writers w' = .writing text' ts' seq' written') :
    tmpName (orderedFilename ts' seq') ≠ tmpName (orderedFilename ts seq) := by
  intro he
  obtain ⟨htime,hnumber,hseq⟩ := h.named hw
  obtain ⟨htime',hnumber',hseq'⟩ := h.named (Or.inr ⟨written',hw'⟩)
  have hsame := orderedFilename_seq htime'.fits htime.fits hnumber'.fits hnumber.fits (tmpName_inj he)
  exact hne (h.apart w' w seq' hseq' (hsame ▸ hseq))

theorem tmpName_ne_of_isJsonName {filename name : String} (h : isJsonName name = true) :
    tmpName filename ≠ name := by
  rintro rfl
  rw [isJsonName_tmpName] at h
  cases h

omit [DecidableEq W] in
/-- Where no writer moves, and no temporary file changes. -/
theorem Numbered.still (h : Numbered s) (hwriters : t.writers = s.writers) (hclock : s.clock ≤ t.clock)
    (hsequence : s.sequence ≤ t.sequence) (hsent : t.sent = s.sent)
    (hdir : ∀ filename, t.dir.get? (tmpName filename) = s.dir.get? (tmpName filename)) : Numbered t := by
  have hmem : ∀ e ∈ t.sent, e ∈ s.sent := fun e he => hsent ▸ he
  refine ⟨fun w => ?_,?_,fun e he => ?_,fun e he => ?_⟩
  · exact (h.writers w).grow (congrFun hwriters w) hclock hsequence (fun e he => Or.inl (hmem e he))
      (fun _ _ _ _ _ => hdir _)
  · rw [hwriters]
    exact h.apart
  · obtain ⟨hle,hfits⟩ := h.ts e (hmem e he)
    exact ⟨hle.trans hclock,hfits⟩
  · obtain ⟨hlt,hfits⟩ := h.seq e (hmem e he)
    exact ⟨hlt.trans_le hsequence,hfits⟩

theorem Numbered.begin (h : Numbered s) {w : W} (text : PyString) (hclock : s.clock < 10 ^ 20) :
    Numbered { s with writers := Function.update s.writers w (.timed text s.clock) } := by
  refine ⟨fun w' => ?_,h.apart.update_same (fun seq hseq => by cases hseq),h.ts,h.seq⟩
  rcases eq_or_ne w' w with rfl | hne
  · simp only [WriterValid, Function.update_self]
    exact ⟨le_rfl,hclock,fun e he _ => (h.ts e he).1⟩
  · exact (h.writers w').grow (Function.update_of_ne hne _ _) le_rfl le_rfl (fun e he => Or.inl he)
      (fun _ _ _ _ _ => rfl)

theorem Numbered.takeNumber (h : Numbered s) {w : W} {text : PyString} {ts : Nat}
    (hw : s.writers w = .timed text ts) (hsequence : s.sequence < 10 ^ 8) :
    Numbered { s with
      sequence := s.sequence + 1
      writers := Function.update s.writers w (.named text ts s.sequence) } := by
  refine ⟨fun w' => ?_,h.apart.update ?_,h.ts,?_⟩
  · rcases eq_or_ne w' w with rfl | hne
    · simp only [WriterValid, Function.update_self]
      obtain ⟨hle,hfits,hlater⟩ := h.timed hw
      exact ⟨⟨hle,hfits,hlater⟩,Nat.lt_succ_self _,hsequence,fun e he => (h.seq e he).1.ne,
        fun e he _ => (h.seq e he).1⟩
    · exact (h.writers w').grow (Function.update_of_ne hne _ _) le_rfl (Nat.le_succ _)
        (fun e he => Or.inl he) (fun _ _ _ _ _ => rfl)
  · rintro seq hseq w' hne hw'
    cases hseq
    exact absurd (h.numberTaken hw').lt (Nat.lt_irrefl _)
  · intro e he
    obtain ⟨hlt,hfits⟩ := h.seq e he
    exact ⟨hlt.trans (Nat.lt_succ_self _),hfits⟩

theorem Numbered.write (h : Numbered s) {w : W} {text : PyString} {ts seq : Nat}
    (hw : s.writers w = .named text ts seq ∨ ∃ before, s.writers w = .writing text ts seq before)
    (written : Nat) : Numbered (s.writeTmp w text ts seq written) := by
  obtain ⟨htime,hnumber,hseq⟩ := h.named hw
  refine ⟨fun w' => ?_,h.apart.update_same (fun seq' hseq' => ?_),h.ts,h.seq⟩
  · rcases eq_or_ne w' w with rfl | hne
    · simp only [WriterValid, System.writeTmp, Function.update_self]
      have htime' : TimeRead (s.writeTmp w' text ts seq written) w' ts :=
        ⟨htime.le,htime.fits,htime.later⟩
      have hnumber' : NumberTaken (s.writeTmp w' text ts seq written) w' seq :=
        ⟨hnumber.lt,hnumber.fits,hnumber.unused,hnumber.later⟩
      exact ⟨htime',hnumber',Dict.get?_set_self _ _ _⟩
    · exact (h.writers w').grow (Function.update_of_ne hne _ _) le_rfl le_rfl (fun e he => Or.inl he)
        (fun _ _ _ _ hw' => Dict.get?_set_ne _ _ (h.tmpName_ne hne hw hw'))
  · cases hseq'
    exact hseq

theorem Numbered.rename (h : Numbered s) {w : W} {text : PyString} {ts seq written : Nat}
    (hw : s.writers w = .writing text ts seq written) (bytes : List UInt8) :
    Numbered { s with
      dir := (s.dir.unlink (tmpName (orderedFilename ts seq))).set (orderedFilename ts seq) bytes
      writers := Function.update s.writers w .idle
      sent := s.sent ++ [⟨w,text,ts,seq,s.listings⟩] } := by
  obtain ⟨htime,hnumber,hseq⟩ := h.named (Or.inr ⟨written,hw⟩)
  refine ⟨fun w' => ?_,h.apart.update_same (fun seq' hseq' => by cases hseq'),?_,?_⟩
  · rcases eq_or_ne w' w with rfl | hne
    · simp only [WriterValid, Function.update_self]
    · refine (h.writers w').grow (Function.update_of_ne hne _ _) le_rfl le_rfl ?_ ?_
      · intro e he
        rcases List.mem_append.mp he with he | he
        · exact Or.inl he
        · rw [List.mem_singleton.mp he]
          exact Or.inr ⟨hne.symm,fun hw' => hne (h.apart w' w seq hw' hseq)⟩
      · intro text' ts' seq' written' hw'
        dsimp only
        rw [Dict.get?_set_ne _ _ (tmpName_ne_of_isJsonName isJsonName_orderedFilename),
          get?_unlink_ne (h.tmpName_ne hne (Or.inr ⟨written,hw⟩) hw')]
  · intro e he
    rcases List.mem_append.mp he with he | he
    · exact h.ts e he
    · rw [List.mem_singleton.mp he]
      exact ⟨htime.le,htime.fits⟩
  · intro e he
    rcases List.mem_append.mp he with he | he
    · exact h.seq e he
    · rw [List.mem_singleton.mp he]
      exact ⟨hnumber.lt,hnumber.fits⟩

/-- The invariant of the numbers is kept by every step. -/
theorem Numbered.moves (h : Numbered s)
    (hjson : ∀ name names turn, s.reader = .unlinking name names turn → isJsonName name = true)
    (hmoves : Moves interp s t) : Numbered t := by
  cases hmoves with
  | tick hclock => exact h.still rfl hclock le_rfl rfl (fun _ => rfl)
  | elsewhere => exact h.still rfl le_rfl (Nat.le_succ _) rfl (fun _ => rfl)
  | begin hw hclock => exact h.begin _ hclock
  | takeNumber hw hsequence => exact h.takeNumber hw hsequence
  | write hw => exact h.write hw _
  | rename hw hwhole hbytes => exact h.rename hw _
  | list hreader => exact h.still rfl le_rfl le_rfl rfl (fun _ => rfl)
  | read hreader => exact h.still rfl le_rfl le_rfl rfl (fun _ => rfl)
  | unlink hreader =>
    refine h.still rfl le_rfl le_rfl rfl (fun filename => get?_unlink_ne ?_)
    exact tmpName_ne_of_isJsonName (hjson _ _ _ hreader)
  | finish hreader => exact h.still rfl le_rfl le_rfl rfl (fun _ => rfl)

end Numbers

end NanoClaw.Ipc
