import NanoClaw.Library.Execution
import NanoClaw.Senders.Allowlist
import Mathlib.Data.List.Basic

/-! The cache of the sender allowlist while its file is replaced: the steps of the loads in every order
with replacements, and the replacements after which the cache follows the file. -/
namespace NanoClaw.Senders
open Execution

/-- Where a load that missed the cache stands. -/
inductive Phase where
  | reading
  | stamping (result : SenderAllowlistConfig)

/-- A load under way; `since` counts the replacements before it started. -/
structure Call where
  since : Nat
  phase : Phase

/-- The file with the modification times it had before, the cache, the loads under way, and what was
returned to the loads that started at a version of the file. -/
structure Process where
  content : List UInt8
  mtime : Nat
  past : List Nat
  cache : Cache
  calls : List Call
  returned : List (Nat × Except PyExc SenderAllowlistConfig)

/-- `stat` and the look at the cache, the reading of the file, `stat` again, and a replacement. -/
inductive Action where
  | start
  | read (i : Nat)
  | stamp (i : Nat)
  | replace (content : List UInt8) (mtime : Nat)

def Action.isReplace : Action → Bool
  | .replace _ _ => true
  | _ => false

/-- The number of replacements so far. -/
def Process.version (s : Process) : Nat := s.past.length

def launch (content : List UInt8) (mtime : Nat) : Process := ⟨content,mtime,[],{},[],[]⟩

section Steps
variable (loads : List Char → Except PyExc Json)

/-- What a load without the cache returns now. -/
def Process.current (s : Process) : Except PyExc SenderAllowlistConfig :=
  loadUncached loads (.bytes s.content)

/-- A step of `load_sender_allowlist`, or a replacement by a file with a new modification time. -/
def step (s : Process) : Action → Option Process
  | .start =>
    match s.cache.value with
    | none => some { s with calls := s.calls ++ [⟨s.version,.reading⟩] }
    | some cached =>
      if s.mtime = s.cache.mtime then
        some { s with returned := s.returned ++ [(s.version,.ok cached)] }
      else some { s with calls := s.calls ++ [⟨s.version,.reading⟩] }
  | .read i =>
    match s.calls[i]? with
    | some ⟨since,.reading⟩ =>
      match s.current loads with
      | .error e =>
        some { s with
          calls := s.calls.eraseIdx i
          returned := s.returned ++ [(since,.error e)] }
      | .ok result =>
        some { s with
          cache := { s.cache with value := some result }
          calls := s.calls.set i ⟨since,.stamping result⟩ }
    | _ => none
  | .stamp i =>
    match s.calls[i]? with
    | some ⟨since,.stamping result⟩ =>
      some { s with
        cache := { s.cache with mtime := s.mtime }
        calls := s.calls.eraseIdx i
        returned := s.returned ++ [(since,.ok result)] }
    | _ => none
  | .replace content mtime =>
    if mtime ∈ s.mtime :: s.past then none
    else some { s with content, mtime, past := s.mtime :: s.past }

/-- Every load that started at this version of the file was given what it configures. -/
def Fresh (s : Process) : Prop := ∀ entry ∈ s.returned, entry.1 = s.version → entry.2 = s.current loads

/-- A load that starts now can go on to its end, and is then given what the file configures. -/
def Answers (s : Process) : Prop :=
  ∃ as t, (∀ a ∈ as, a.isReplace = false) ∧ exec (step loads) s (.start :: as) = some t ∧
    t.returned = s.returned ++ [(s.version,s.current loads)]

/-- Without another replacement, loads that start from now on are given what the file configures. -/
def Converges (s : Process) : Prop :=
  ∀ as t, (∀ a ∈ as, a.isReplace = false) → exec (step loads) s as = some t →
    Fresh loads t ∧ Answers loads t

/-- Some load has read the file and not yet taken its modification time again. -/
def Process.Stamps (s : Process) : Prop := ∃ call ∈ s.calls, ∃ result, call.phase = .stamping result

/-- No replacement falls between the reading of a load and its second `stat`, but by a file that
configures what is cached. -/
def Harmless (s : Process) : Action → Prop
  | .replace content _ =>
    s.Stamps → ∀ cached, s.cache.value = some cached → loadUncached loads (.bytes content) = .ok cached
  | _ => True

end Steps

section Alone
variable (loads : List Char → Except PyExc Json)

theorem eraseIdx_concat (l : List Call) (c : Call) : (l ++ [c]).eraseIdx l.length = l := by
  rw [List.eraseIdx_append_of_length_le (Nat.le_refl _), Nat.sub_self]
  exact List.append_nil l

theorem set_concat (l : List Call) (c d : Call) : (l ++ [c]).set l.length d = l ++ [d] := by
  rw [List.set_append_right _ _ (Nat.le_refl _), Nat.sub_self]
  rfl

/-- The steps of a load that missed the cache, none other between them. -/
theorem reload_alone (s : Process) (since : Nat) :
    ∃ as t, (∀ a ∈ as, a.isReplace = false) ∧
      exec (step loads) { s with calls := s.calls ++ [⟨since,.reading⟩] } as = some t ∧
      t.returned =
        s.returned ++ [(since,(reload loads s.cache (.bytes s.content) (some s.mtime)).1)] ∧
      t.cache = (reload loads s.cache (.bytes s.content) (some s.mtime)).2 ∧ t.calls = s.calls := by
  rw [reload]
  cases hcurrent : loadUncached loads (.bytes s.content) with
  | error e =>
    refine ⟨[.read s.calls.length],
      { s with returned := s.returned ++ [(since,.error e)] },by simp [Action.isReplace],?_,rfl,rfl,rfl⟩
    simp only [exec, step, Option.bind_some, List.getElem?_concat_length, Process.current, hcurrent,
      eraseIdx_concat]
  | ok result =>
    refine ⟨[.read s.calls.length,.stamp s.calls.length],
      { s with
        cache := ⟨some result,s.mtime⟩
        returned := s.returned ++ [(since,.ok result)] },by simp [Action.isReplace],?_,rfl,rfl,rfl⟩
    simp only [exec, step, Option.bind_some, List.getElem?_concat_length, Process.current, hcurrent,
      eraseIdx_concat, set_concat]

/-- The steps of a load, none other between them, are `load_sender_allowlist`. -/
theorem load_alone (s : Process) : ∃ as t, (∀ a ∈ as, a.isReplace = false) ∧
    exec (step loads) s (.start :: as) = some t ∧
      t.returned = s.returned ++ [(s.version,
        (loadSenderAllowlist loads s.cache (some s.mtime) (.bytes s.content) (some s.mtime)).1)] ∧
      t.cache =
        (loadSenderAllowlist loads s.cache (some s.mtime) (.bytes s.content) (some s.mtime)).2 ∧
      t.calls = s.calls := by
  have hmiss : step loads s .start = some { s with calls := s.calls ++ [⟨s.version,.reading⟩] } →
      ∃ as t, (∀ a ∈ as, a.isReplace = false) ∧ exec (step loads) s (.start :: as) = some t ∧
        t.returned =
          s.returned ++ [(s.version,(reload loads s.cache (.bytes s.content) (some s.mtime)).1)] ∧
        t.cache = (reload loads s.cache (.bytes s.content) (some s.mtime)).2 ∧ t.calls = s.calls := by
    intro hstart
    obtain ⟨as,t,has,he,ht⟩ := reload_alone loads s s.version
    exact ⟨as,t,has,(exec_cons_iff _ _ _ _ _).mpr ⟨_,hstart,he⟩,ht⟩
  obtain ⟨content,mtime,past,⟨value,stamp⟩,calls,returned⟩ := s
  cases value with
  | none => exact hmiss rfl
  | some cached =>
    by_cases hmtime : mtime = stamp
    · refine ⟨[],_,by simp,(exec_cons_iff _ _ _ _ _).mpr ⟨_,if_pos hmtime,rfl⟩,?_⟩
      simp only [loadSenderAllowlist, if_pos hmtime, and_self]
    · simp only [loadSenderAllowlist, if_neg hmtime]
      exact hmiss (if_neg hmtime)

end Alone

/-- What holds in every run, whenever the file is replaced. -/
structure Inv (loads : List Char → Except PyExc Json) (s : Process) : Prop where
  logged : ∀ entry ∈ s.returned, entry.1 ≤ s.version
  since : ∀ call ∈ s.calls, call.since ≤ s.version
  loaded : ∀ call ∈ s.calls, ∀ result, call.phase = .stamping result → call.since = s.version →
    s.current loads = .ok result
  cached : s.Stamps → s.cache.value.isSome = true
  stamped : s.cache.value.isSome = true → s.Stamps ∨ s.cache.mtime ∈ s.mtime :: s.past

/-- The cache cannot hide the file: what it holds is what the file configures, or its modification time
is another one and stays so. -/
def Current (loads : List Char → Except PyExc Json) (s : Process) : Prop :=
  ∀ cached, s.cache.value = some cached → s.mtime = s.cache.mtime ∨ s.Stamps →
    s.current loads = .ok cached

section Moves
variable {loads : List Char → Except PyExc Json} {s t : Process} {a : Action}

/-- What a step does, each with what it needs. -/
inductive Moves (loads : List Char → Except PyExc Json) (s : Process) : Action → Process → Prop where
  | hit (cached : SenderAllowlistConfig) : s.cache.value = some cached → s.mtime = s.cache.mtime →
      Moves loads s .start { s with returned := s.returned ++ [(s.version,.ok cached)] }
  | miss : Moves loads s .start { s with calls := s.calls ++ [⟨s.version,.reading⟩] }
  | fail (i since : Nat) (e : PyExc) : s.calls[i]? = some ⟨since,.reading⟩ →
      s.current loads = .error e →
      Moves loads s (.read i) { s with
        calls := s.calls.eraseIdx i
        returned := s.returned ++ [(since,.error e)] }
  | load (i since : Nat) (result : SenderAllowlistConfig) : s.calls[i]? = some ⟨since,.reading⟩ →
      s.current loads = .ok result →
      Moves loads s (.read i) { s with
        cache := { s.cache with value := some result }
        calls := s.calls.set i ⟨since,.stamping result⟩ }
  | stamp (i since : Nat) (result : SenderAllowlistConfig) :
      s.calls[i]? = some ⟨since,.stamping result⟩ →
      Moves loads s (.stamp i) { s with
        cache := { s.cache with mtime := s.mtime }
        calls := s.calls.eraseIdx i
        returned := s.returned ++ [(since,.ok result)] }
  | replace (content : List UInt8) (mtime : Nat) : mtime ∉ s.mtime :: s.past →
      Moves loads s (.replace content mtime)
        { s with content, mtime, past := s.mtime :: s.past }

theorem moves (h : step loads s a = some t) : Moves loads s a t := by
  cases a with
  | start =>
    rw [step] at h
    split at h
    · cases h
      exact .miss
    · rename_i cached hcached
      split_ifs at h with hmtime
      · cases h
        exact .hit cached hcached hmtime
      · cases h
        exact .miss
  | read i =>
    rw [step] at h
    split at h
    · rename_i since hcall
      split at h
      · rename_i e hcurrent
        cases h
        exact .fail i since e hcall hcurrent
      · rename_i result hcurrent
        cases h
        exact .load i since result hcall hcurrent
    · cases h
  | stamp i =>
    rw [step] at h
    split at h
    · rename_i since result hcall
      cases h
      exact .stamp i since result hcall
    · cases h
  | replace content mtime =>
    rw [step] at h
    split_ifs at h with hmtime
    cases h
    exact .replace content mtime hmtime

/-- A load that is over or still to read takes no stamping load away. -/
theorem stamps_eraseIdx {calls : List Call} {i since : Nat}
    (hcall : calls[i]? = some ⟨since,.reading⟩)
    (h : ∃ call ∈ calls, ∃ result, call.phase = .stamping result) :
    ∃ call ∈ calls.eraseIdx i, ∃ result, call.phase = .stamping result := by
  obtain ⟨call,hmem,result,hphase⟩ := h
  obtain ⟨j,hj⟩ := List.mem_iff_getElem?.mp hmem
  refine ⟨call,List.mem_eraseIdx_iff_getElem?.mpr ⟨j,?_,hj⟩,result,hphase⟩
  rintro rfl
  rw [hcall] at hj
  cases hj
  cases hphase

theorem stamps_concat_reading {calls : List Call} {since : Nat} :
    (∃ call ∈ calls ++ [⟨since,.reading⟩], ∃ result, call.phase = .stamping result) ↔
      ∃ call ∈ calls, ∃ result, call.phase = .stamping result := by
  constructor
  · rintro ⟨call,hmem,result,hphase⟩
    rcases List.mem_append.mp hmem with hmem | hmem
    · exact ⟨call,hmem,result,hphase⟩
    · rw [List.mem_singleton.mp hmem] at hphase
      cases hphase
  · rintro ⟨call,hmem,result,hphase⟩
    exact ⟨call,List.mem_append_left _ hmem,result,hphase⟩

theorem logged_concat {returned : List (Nat × Except PyExc SenderAllowlistConfig)} {n since : Nat}
    (h : ∀ entry ∈ returned, entry.1 ≤ n) (hsince : since ≤ n)
    (result : Except PyExc SenderAllowlistConfig) :
    ∀ entry ∈ returned ++ [(since,result)], entry.1 ≤ n := by
  intro entry hentry
  rcases List.mem_append.mp hentry with hentry | hentry
  · exact h entry hentry
  · rw [List.mem_singleton.mp hentry]
    exact hsince

/-- Every step keeps the invariant. -/
theorem Inv.step (h : Inv loads s) (hstep : step loads s a = some t) : Inv loads t := by
  cases moves hstep with
  | hit cached _ _ =>
    exact ⟨logged_concat h.logged (Nat.le_refl _) _,h.since,h.loaded,h.cached,h.stamped⟩
  | miss =>
    refine ⟨h.logged,?_,?_,fun hs => h.cached (stamps_concat_reading.mp hs),fun hv =>
      (h.stamped hv).imp_left stamps_concat_reading.mpr⟩
    · intro call hcall
      rcases List.mem_append.mp hcall with hcall | hcall
      · exact h.since call hcall
      · rw [List.mem_singleton.mp hcall]
        exact Nat.le_refl _
    · intro call hcall result hphase
      rcases List.mem_append.mp hcall with hcall | hcall
      · exact h.loaded call hcall result hphase
      · rw [List.mem_singleton.mp hcall] at hphase
        cases hphase
  | fail i since e hcall _ =>
    have hsince := h.since _ (List.mem_of_getElem? hcall)
    refine ⟨logged_concat h.logged hsince _,fun call hcall => h.since call (List.mem_of_mem_eraseIdx hcall),
      fun call hcall => h.loaded call (List.mem_of_mem_eraseIdx hcall),?_,fun hv =>
      (h.stamped hv).imp_left (stamps_eraseIdx hcall)⟩
    rintro ⟨call,hmem,hphase⟩
    exact h.cached ⟨call,List.mem_of_mem_eraseIdx hmem,hphase⟩
  | load i since result hcall hcurrent =>
    have hlt : i < s.calls.length := (List.getElem?_eq_some_iff.mp hcall).1
    have hsince := h.since _ (List.mem_of_getElem? hcall)
    refine ⟨h.logged,?_,?_,fun _ => rfl,fun _ =>
      Or.inl ⟨_,List.mem_set hlt _,result,rfl⟩⟩
    · intro call hmem
      rcases List.mem_or_eq_of_mem_set hmem with hmem | rfl
      · exact h.since call hmem
      · exact hsince
    · intro call hmem result' hphase
      rcases List.mem_or_eq_of_mem_set hmem with hmem | rfl
      · exact h.loaded call hmem result' hphase
      · cases hphase
        exact fun _ => hcurrent
  | stamp i since result hcall =>
    have hmem := List.mem_of_getElem? hcall
    refine ⟨logged_concat h.logged (h.since _ hmem) _,
      fun call hcall => h.since call (List.mem_of_mem_eraseIdx hcall),
      fun call hcall => h.loaded call (List.mem_of_mem_eraseIdx hcall),?_,fun _ =>
      Or.inr List.mem_cons_self⟩
    exact fun _ => h.cached ⟨_,hmem,result,rfl⟩
  | replace content mtime _ =>
    refine ⟨fun entry hentry => Nat.le_succ_of_le (h.logged entry hentry),
      fun call hcall => Nat.le_succ_of_le (h.since call hcall),?_,h.cached,fun hv =>
      (h.stamped hv).imp_right (List.mem_cons_of_mem mtime)⟩
    intro call hcall result _ hsince
    have hle := h.since call hcall
    rw [hsince] at hle
    exact absurd hle (Nat.not_succ_le_self _)

/-- A step that replaces nothing keeps the file. -/
theorem current_of_step (hstep : step loads s a = some t) (ha : a.isReplace = false) :
    t.current loads = s.current loads ∧ t.version = s.version := by
  cases moves hstep with
  | replace => cases ha
  | _ => exact ⟨rfl,rfl⟩

theorem fresh_concat {since : Nat} {result : Except PyExc SenderAllowlistConfig}
    (h : Fresh loads s) (hresult : since = s.version → result = s.current loads) :
    ∀ entry ∈ s.returned ++ [(since,result)], entry.1 = s.version → entry.2 = s.current loads := by
  intro entry hentry
  rcases List.mem_append.mp hentry with hentry | hentry
  · exact h entry hentry
  · rw [List.mem_singleton.mp hentry]
    exact hresult

/-- Until the next replacement, a current cache stays so, and loads are given what the file
configures. -/
theorem current_step (hinv : Inv loads s) (hfresh : Fresh loads s) (hcurrent : Current loads s)
    (hstep : step loads s a = some t) (ha : a.isReplace = false) :
    Fresh loads t ∧ Current loads t := by
  cases moves hstep with
  | hit cached hcached hmtime =>
    exact ⟨fresh_concat hfresh (fun _ => (hcurrent cached hcached (Or.inl hmtime)).symm),hcurrent⟩
  | miss =>
    exact ⟨hfresh,fun cached hcached h => hcurrent cached hcached (h.imp_right stamps_concat_reading.mp)⟩
  | fail i since e hcall herror =>
    refine ⟨fresh_concat hfresh (fun _ => herror.symm),fun cached hcached h => hcurrent cached hcached ?_⟩
    refine h.imp_right ?_
    rintro ⟨call,hmem,hphase⟩
    exact ⟨call,List.mem_of_mem_eraseIdx hmem,hphase⟩
  | load i since result hcall hread =>
    refine ⟨hfresh,fun cached hcached _ => ?_⟩
    cases hcached
    exact hread
  | stamp i since result hcall =>
    have hmem := List.mem_of_getElem? hcall
    refine ⟨fresh_concat hfresh (fun hsince => (hinv.loaded _ hmem result rfl hsince).symm),?_⟩
    exact fun cached hcached _ => hcurrent cached hcached (Or.inr ⟨_,hmem,result,rfl⟩)
  | replace => cases ha

end Moves

section Runs
variable {loads : List Char → Except PyExc Json} {s t : Process}

theorem current_run {as : List Action} (hinv : Inv loads s) (hfresh : Fresh loads s)
    (hcurrent : Current loads s) (has : ∀ a ∈ as, a.isReplace = false)
    (he : exec (step loads) s as = some t) : Fresh loads t := by
  induction as generalizing s with
  | nil =>
    cases he
    exact hfresh
  | cons a as ih =>
    obtain ⟨u,hu,he⟩ := (exec_cons_iff _ _ _ _ _).mp he
    obtain ⟨ha,has⟩ := List.forall_mem_cons.mp has
    obtain ⟨hfresh,hcurrent⟩ := current_step hinv hfresh hcurrent hu ha
    exact ih (hinv.step hu) hfresh hcurrent has he

theorem file_of_run {as : List Action} (has : ∀ a ∈ as, a.isReplace = false)
    (he : exec (step loads) s as = some t) :
    t.current loads = s.current loads ∧ t.version = s.version := by
  induction as generalizing s with
  | nil =>
    cases he
    exact ⟨rfl,rfl⟩
  | cons a as ih =>
    obtain ⟨u,hu,he⟩ := (exec_cons_iff _ _ _ _ _).mp he
    obtain ⟨ha,has⟩ := List.forall_mem_cons.mp has
    obtain ⟨hcurrent,hversion⟩ := current_of_step hu ha
    obtain ⟨hcurrent',hversion'⟩ := ih has he
    exact ⟨hcurrent'.trans hcurrent,hversion'.trans hversion⟩

/-- A load that starts where the loads to come are fresh is given what the file configures. -/
theorem answers_of_fresh
    (h : ∀ as t, (∀ a ∈ as, a.isReplace = false) → exec (step loads) s as = some t → Fresh loads t) :
    Answers loads s := by
  obtain ⟨as,t,has,he,hreturned,_⟩ := load_alone loads s
  have has' : ∀ a ∈ Action.start :: as, a.isReplace = false := List.forall_mem_cons.mpr ⟨rfl,has⟩
  obtain ⟨hcurrent,hversion⟩ := file_of_run has' he
  refine ⟨as,t,has,he,?_⟩
  rw [hreturned]
  have hfresh := h _ t has' he
  rw [Fresh, hreturned, hcurrent, hversion] at hfresh
  rw [← hfresh _ (List.mem_append_right _ List.mem_cons_self) rfl]

theorem Converges.step {a : Action} (h : Converges loads s) (hstep : step loads s a = some t)
    (ha : a.isReplace = false) : Converges loads t := by
  intro as u has he
  exact h (a :: as) u (List.forall_mem_cons.mpr ⟨ha,has⟩) ((exec_cons_iff _ _ _ _ _).mpr ⟨t,hstep,he⟩)

theorem Converges.hit {cached : SenderAllowlistConfig} (h : Converges loads s)
    (hvalue : s.cache.value = some cached) (hmtime : s.mtime = s.cache.mtime) :
    s.current loads = .ok cached := by
  have he : exec (NanoClaw.Senders.step loads) s [.start] =
      some { s with returned := s.returned ++ [(s.version,.ok cached)] } := by
    simp only [exec, NanoClaw.Senders.step, hvalue, if_pos hmtime, Option.bind_some]
  obtain ⟨hfresh,_⟩ := h [.start] _ (by simp [Action.isReplace]) he
  exact (hfresh _ (List.mem_append_right _ List.mem_cons_self) rfl).symm

/-- The loads to come are given what the file configures exactly when those that are over were and the
cache is current. -/
theorem converges_iff_current (hinv : Inv loads s) :
    Converges loads s ↔ Fresh loads s ∧ Current loads s := by
  constructor
  · intro h
    refine ⟨(h [] s (by simp) rfl).1,?_⟩
    rintro cached hcached (hmtime | ⟨⟨since,phase⟩,hmem,result,rfl⟩)
    · exact h.hit hcached hmtime
    · obtain ⟨i,hi⟩ := List.mem_iff_getElem?.mp hmem
      -- the load's second `stat` makes the cache look like that of the present file
      have hstamp : NanoClaw.Senders.step loads s (.stamp i) = some { s with
          cache := { s.cache with mtime := s.mtime }
          calls := s.calls.eraseIdx i
          returned := s.returned ++ [(since,.ok result)] } := by
        simp only [NanoClaw.Senders.step, hi]
      exact (h.step hstamp rfl).hit hcached rfl
  · rintro ⟨hfresh,hcurrent⟩ as t has he
    refine ⟨current_run hinv hfresh hcurrent has he,answers_of_fresh (fun bs u hbs hu => ?_)⟩
    refine @current_run loads s u (as ++ bs) hinv hfresh hcurrent ?_ ?_
    · exact List.forall_mem_append.mpr ⟨has,hbs⟩
    · rw [exec_append, he]
      exact hu

/-- After a replacement the cache follows the file exactly when the replacement was harmless. -/
theorem converges_replace_iff {content : List UInt8} {mtime : Nat} (hinv : Inv loads s)
    (hstep : step loads s (.replace content mtime) = some t) :
    Converges loads t ↔ Harmless loads s (.replace content mtime) := by
  rw [converges_iff_current (hinv.step hstep)]
  cases moves hstep with
  | replace _ _ hnew =>
    constructor
    · exact fun h hstamps cached hcached => h.2 cached hcached (Or.inr hstamps)
    · intro h
      refine ⟨fun entry hentry hversion => ?_,?_⟩
      · have hle := hinv.logged entry hentry
        rw [hversion] at hle
        exact absurd hle (Nat.not_succ_le_self _)
      · rintro cached hcached (hmtime | hstamps)
        · change s.cache.value = some cached at hcached
          rcases hinv.stamped (by rw [hcached]; rfl) with hstamps | hpast
          · exact h hstamps cached hcached
          · change mtime = s.cache.mtime at hmtime
            rw [← hmtime] at hpast
            exact absurd hpast hnew
        · exact h hstamps cached hcached

theorem inv_launch (loads : List Char → Except PyExc Json) (content : List UInt8) (mtime : Nat) :
    Inv loads (launch content mtime) := by
  refine ⟨by simp [launch],by simp [launch],by simp [launch],?_,by simp [launch]⟩
  rintro ⟨_,⟨⟩,_⟩

theorem converges_launch (loads : List Char → Except PyExc Json) (content : List UInt8)
    (mtime : Nat) : Converges loads (launch content mtime) := by
  refine (converges_iff_current (inv_launch loads content mtime)).mpr ⟨?_,?_⟩
  · rintro _ ⟨⟩
  · rintro _ ⟨⟩

/-- In every interleaving of loads and replacements: from each of its states on, loads are given what
the file configures while no further replacement comes, exactly when every replacement was harmless. -/
theorem cache_converges_iff (loads : List Char → Except PyExc Json) (content : List UInt8)
    (mtime : Nat) (as : List Action) (s : Process)
    (he : exec (step loads) (launch content mtime) as = some s) :
    (∀ n t, exec (step loads) (launch content mtime) (as.take n) = some t → Converges loads t) ↔
      Allowed (step loads) (Harmless loads) (launch content mtime) as := by
  refine (allowed_iff_prefixes (I := Inv loads) (fun _ _ _ h hstep => h.step hstep) ?_
    (inv_launch loads content mtime) (converges_launch loads content mtime) he).symm
  intro s a t hinv hconverges hstep
  cases ha : a.isReplace with
  | true =>
    cases a with
    | replace content mtime => exact converges_replace_iff hinv hstep
    | _ => cases ha
  | false =>
    refine iff_of_true (hconverges.step hstep ha) ?_
    cases a with
    | replace => cases ha
    | _ => trivial

end Runs

section Served

/-- A file that lets nobody in and logs nothing. -/
private def closed : List UInt8 :=
  Utf8.encode
    "\x7b\"default\": \x7b\"allow\": [], \"mode\": \"drop\"\x7d, \"logDenied\": false\x7d".toList

private def closedConfig : SenderAllowlistConfig := ⟨⟨.arr [],.str "drop"⟩,[],false⟩

private def reloaded : Process :=
  ⟨closed,2,[1],⟨some closedConfig,2⟩,[],[(0,.ok {}),(1,.ok closedConfig)]⟩

theorem cache_converges_iff_reloaded :
    exec (step parser) (launch [] 1)
        [.start,.read 0,.stamp 0,.replace closed 2,.start,.read 0,.stamp 0] = some reloaded ∧
      ((∀ n t, exec (step parser) (launch [] 1)
            ([.start,.read 0,.stamp 0,.replace closed 2,.start,.read 0,.stamp 0].take n) = some t →
          Converges parser t) ↔
        Allowed (step parser) (Harmless parser) (launch [] 1)
          [.start,.read 0,.stamp 0,.replace closed 2,.start,.read 0,.stamp 0]) :=
  ⟨rfl,cache_converges_iff parser [] 1 _ reloaded rfl⟩

/-- The file is replaced between the reading of a load and its second `stat`: the next load lets
everyone in, though the file lets in nobody. -/
theorem stale_allowlist_served : ∃ s,
    exec (step parser) (launch [] 1) [.start,.read 0,.replace closed 2,.stamp 0,.start] = some s ∧
      s.returned = [(0,.ok {}),(s.version,.ok {})] ∧ s.current parser = .ok closedConfig ∧
      ¬Fresh parser s := by
  refine ⟨_,rfl,rfl,rfl,fun h => ?_⟩
  have hserved : (.ok {} : Except PyExc SenderAllowlistConfig) = .ok closedConfig :=
    h (1,.ok {}) (List.mem_cons_of_mem _ List.mem_cons_self) rfl
  have hlog := congrArg SenderAllowlistConfig.logDenied (Except.ok.inj hserved)
  cases hlog

end Served

end NanoClaw.Senders
