import NanoClaw.Library.Execution
import NanoClaw.Library.PyExc
import Mathlib.Algebra.Order.Ring.Rat
import Mathlib.Tactic.Linarith

/-! The check that a container runtime answers: its cache, its probes, and the warning of the degraded
mode. -/
namespace NanoClaw.ContainerRuntime
open Execution

/-- How the probe ends: well, by an exception that is caught, with its text, or by another. -/
inductive Probe where
  | answers
  | fails (text : String)
  | raises (exc : PyExc)
  deriving DecidableEq, Repr

/-- A call at a time; its probe, if it makes one, ends at another. -/
structure Call where
  required : Bool
  now : ℚ
  done : ℚ
  probe : Probe
  deriving DecidableEq, Repr

/-- What a call gives: its value, the text of its `RuntimeError`, or what the probe raises. -/
inductive Answer where
  | returns (running : Bool)
  | unavailable (text : String)
  | raises (exc : PyExc)
  deriving DecidableEq, Repr

/-- The variables of the module. -/
structure Cache where
  result : Option Bool
  time : ℚ
  warned : Bool
  deriving DecidableEq, Repr

/-- `_RUNTIME_CHECK_TTL`, in seconds. -/
def runtimeCheckTtl : ℚ := 30

/-- What a call takes from the cache. -/
def Cache.answer (cache : Cache) (required : Bool) (now : ℚ) : Option Bool :=
  match cache.result with
  | none => none
  | some result =>
    if now - cache.time < runtimeCheckTtl then
      if result then some true
      else if required = false ∧ cache.warned = true then some false
      else none
    else none

section Calls
variable (bin : String)

def runtimeErrorMessage (text : String) : String := bin ++ " runtime check failed: " ++ text

/-- `ensure_container_runtime_running`, with the warning it logs. -/
def ensureContainerRuntimeRunning (cache : Cache) (call : Call) : Cache × Answer × Option String :=
  match cache.answer call.required call.now with
  | some running => (cache,.returns running,none)
  | none =>
    match call.probe with
    | .answers => ({ cache with result := some true, time := call.done },.returns true,none)
    | .raises exc => (cache,.raises exc,none)
    | .fails text =>
      let cache := { cache with result := some false, time := call.done }
      let msg := runtimeErrorMessage bin text
      if call.required then
        (cache,.unavailable ("Container runtime is required but unavailable: " ++ msg),none)
      else if cache.warned then (cache,.returns false,none)
      else
        ({ cache with warned := true },.returns false,
          some (msg ++ "; continuing in degraded mode (set NANOCLAW_REQUIRE_CONTAINER_RUNTIME=1 to enforce)"))

/-- The process: the probes that said something, the latest first, with the calls that made them, what was
logged and what the calls gave. -/
structure Monitor where
  cache : Cache
  clock : ℚ
  probes : List (Call × Bool)
  warnings : List String
  answers : List (Call × Answer)

def Monitor.start : Monitor := ⟨⟨none,0,false⟩,0,[],[],[]⟩

/-- The probe of a call, if it makes one that says something. -/
def probed (cache : Cache) (call : Call) : Option Bool :=
  match cache.answer call.required call.now with
  | some _ => none
  | none =>
    match call.probe with
    | .answers => some true
    | .fails _ => some false
    | .raises _ => none

/-- A call, one behind the other on the one event loop. -/
def step (m : Monitor) (call : Call) : Option Monitor :=
  if m.clock ≤ call.now ∧ call.now ≤ call.done then
    let (cache,answer,warning) := ensureContainerRuntimeRunning bin m.cache call
    some
      { cache := cache
        clock := call.done
        probes := ((probed m.cache call).map (fun ok => (call,ok))).toList ++ m.probes
        warnings := m.warnings ++ warning.toList
        answers := m.answers ++ [(call,answer)] }
  else none

end Calls

/-- A probe behind another one, where it comes less than the time to live behind it: the first failed, and
one of the two calls required the runtime. -/
def Spaced (later earlier : Call × Bool) : Prop :=
  runtimeCheckTtl ≤ later.1.now - earlier.1.done ∨
    earlier.2 = false ∧ (earlier.1.required = true ∨ later.1.required = true)

/-- An optional call has found the runtime missing. -/
def Degraded (probes : List (Call × Bool)) : Prop := ∃ p ∈ probes, p.2 = false ∧ p.1.required = false

/-- A call that required the runtime was not told that it is missing. Every value was found by a probe
that ended less than the time to live before. Probes keep their distance. The first optional call that
fails is warned of, and no other. -/
structure Sound (m : Monitor) : Prop where
  required : ∀ a ∈ m.answers, a.1.required = true → a.2 ≠ .returns false
  backed : ∀ a ∈ m.answers, ∀ running, a.2 = .returns running →
    ∃ p ∈ m.probes, p.2 = running ∧ p.1.done ≤ a.1.done ∧ a.1.now - p.1.done < runtimeCheckTtl
  spaced : m.probes.Pairwise Spaced
  warned : (Degraded m.probes → m.warnings.length = 1) ∧ (¬Degraded m.probes → m.warnings = [])

/-- The cache holds what the latest probe said. -/
structure Current (m : Monitor) : Prop where
  result : m.cache.result = m.probes.head?.map (·.2)
  time : ∀ p, m.probes.head? = some p → m.cache.time = p.1.done
  past : ∀ p ∈ m.probes, p.1.now ≤ p.1.done ∧ p.1.done ≤ m.clock
  ordered : m.probes.Pairwise (fun later earlier => earlier.1.done ≤ later.1.now)
  warned : m.cache.warned = true ↔ Degraded m.probes

section Steps
variable {bin : String} {m t : Monitor} {call : Call}

/-- What a call does: the cache answers, the probe raises, or the probe says something. -/
theorem step_cases (h : step bin m call = some t) :
    (m.clock ≤ call.now ∧ call.now ≤ call.done) ∧
      ((∃ running, m.cache.answer call.required call.now = some running ∧
          t = { m with clock := call.done, answers := m.answers ++ [(call,.returns running)] }) ∨
        (∃ exc, t = { m with clock := call.done, answers := m.answers ++ [(call,.raises exc)] }) ∨
        m.cache.answer call.required call.now = none ∧ ∃ ok answer warnings,
          t = ⟨⟨some ok,call.done,m.cache.warned || (!ok && !call.required)⟩,call.done,
            (call,ok) :: m.probes,m.warnings ++ warnings,m.answers ++ [(call,answer)]⟩ ∧
          (∀ running, answer = .returns running → running = ok ∧ (call.required = true → ok = true)) ∧
          (warnings.length = if ok = false ∧ call.required = false ∧ m.cache.warned = false then 1
            else 0)) := by
  rw [step] at h
  split_ifs at h with htime
  refine ⟨htime,?_⟩
  rw [ensureContainerRuntimeRunning, probed] at h
  cases hcache : m.cache.answer call.required call.now with
  | some running =>
    rw [hcache] at h
    cases h
    exact Or.inl ⟨running,rfl,by simp⟩
  | none =>
    rw [hcache] at h
    right
    cases hprobe : call.probe with
    | raises exc =>
      rw [hprobe] at h
      cases h
      exact Or.inl ⟨exc,by simp⟩
    | answers =>
      rw [hprobe] at h
      cases h
      refine Or.inr ⟨rfl,true,.returns true,[],by simp,?_,by simp⟩
      intro running hrunning
      cases hrunning
      exact ⟨rfl,fun _ => rfl⟩
    | fails text =>
      rw [hprobe] at h
      right
      refine ⟨rfl,false,?_⟩
      cases hrequired : call.required with
      | true =>
        simp only [hrequired, if_true] at h
        cases h
        refine ⟨.unavailable ("Container runtime is required but unavailable: " ++
          runtimeErrorMessage bin text),[],by simp,?_,by simp⟩
        · intro running hrunning
          cases hrunning
      | false =>
        cases hwarned : m.cache.warned with
        | true =>
          simp only [hrequired, hwarned, Bool.false_eq_true, if_true, if_false] at h
          cases h
          exact ⟨.returns false,[],by simp,by simp,by simp⟩
        | false =>
          simp only [hrequired, hwarned, Bool.false_eq_true, if_false] at h
          cases h
          exact ⟨_,_,rfl,by simp,by simp⟩

/-- The cache answers with what the latest probe said, while that is not too old. -/
theorem Current.answer (h : Current m) {required running : Bool} {now : ℚ}
    (hanswer : m.cache.answer required now = some running) :
    (∃ p, m.probes.head? = some p ∧ p.2 = running ∧ now - p.1.done < runtimeCheckTtl) ∧
      (required = true → running = true) := by
  rw [Cache.answer, h.result] at hanswer
  cases hhead : m.probes.head? with
  | none =>
    rw [hhead] at hanswer
    cases hanswer
  | some p =>
    rw [hhead] at hanswer
    simp only [Option.map_some, h.time p hhead] at hanswer
    split_ifs at hanswer with httl hok hdegraded
    · cases hanswer
      exact ⟨⟨p,rfl,hok,httl⟩,fun _ => rfl⟩
    · cases hanswer
      refine ⟨⟨p,rfl,Bool.eq_false_iff.mpr hok,httl⟩,fun hrequired => ?_⟩
      rw [hdegraded.1] at hrequired
      cases hrequired

/-- What the cache is asked for behind the latest probe. -/
theorem Current.answer_near (h : Current m) {p : Call × Bool} {rest : List (Call × Bool)}
    (hprobes : m.probes = p :: rest) {required : Bool} {now : ℚ}
    (hnear : now - p.1.done < runtimeCheckTtl) :
    m.cache.answer required now = if p.2 then some true
      else if required = false ∧ m.cache.warned = true then some false else none := by
  have hhead : m.probes.head? = some p := by rw [hprobes, List.head?_cons]
  rw [Cache.answer, h.result, hhead, Option.map_some]
  simp only [h.time p hhead, if_pos hnear]

/-- A call that probes keeps its distance to all probes before it: of two optional ones that came closer
the first would have set the warning, behind which the cache answers. -/
theorem Current.spaced (h : Current m) (hspaced : m.probes.Pairwise Spaced)
    (hclock : m.clock ≤ call.now) (hanswer : m.cache.answer call.required call.now = none) (ok : Bool) :
    ∀ p ∈ m.probes, Spaced (call,ok) p := by
  intro p hp
  by_contra hclose
  rw [Spaced, not_or, not_le] at hclose
  obtain ⟨hnear,hquiet⟩ := hclose
  cases hprobes : m.probes with
  | nil =>
    rw [hprobes] at hp
    cases hp
  | cons last rest =>
    have hlast := h.past last (hprobes ▸ List.mem_cons_self)
    have horder := h.ordered
    rw [hprobes] at horder hspaced hp
    obtain ⟨horder,_⟩ := List.pairwise_cons.mp horder
    obtain ⟨hspaced,_⟩ := List.pairwise_cons.mp hspaced
    have hnearLast : call.now - last.1.done < runtimeCheckTtl := by
      rcases List.mem_cons.mp hp with rfl | hp
      · exact hnear
      · have hle := horder p hp
        dsimp only at hnear
        linarith
    rw [h.answer_near hprobes hnearLast] at hanswer
    split_ifs at hanswer with hok hdegraded
    have hfailed : p.2 = false := by
      rcases List.mem_cons.mp hp with rfl | hp
      · exact Bool.eq_false_iff.mpr hok
      · rcases hspaced p hp with hfar | hfailed
        · dsimp only at hnear
          linarith
        · exact hfailed.1
    have hoptional : p.1.required = false ∧ call.required = false := by
      simpa [hfailed] using hquiet
    refine hdegraded ⟨hoptional.2,h.warned.mpr ⟨p,?_,hfailed,hoptional.1⟩⟩
    exact hprobes ▸ hp

theorem degraded_cons {ok : Bool} {probes : List (Call × Bool)} :
    Degraded ((call,ok) :: probes) ↔ ok = false ∧ call.required = false ∨ Degraded probes := by
  simp [Degraded]

theorem Current.step (h : Current m) (hstep : step bin m call = some t) : Current t := by
  obtain ⟨⟨hnow,hdone⟩,hcases⟩ := step_cases hstep
  have hpast : ∀ p ∈ m.probes, p.1.now ≤ p.1.done ∧ p.1.done ≤ call.done := fun p hp =>
    ⟨(h.past p hp).1,(h.past p hp).2.trans (hnow.trans hdone)⟩
  rcases hcases with ⟨running,_,rfl⟩ | ⟨exc,rfl⟩ | ⟨_,ok,answer,warnings,rfl,_,_⟩
  · exact ⟨h.result,h.time,hpast,h.ordered,h.warned⟩
  · exact ⟨h.result,h.time,hpast,h.ordered,h.warned⟩
  · refine ⟨rfl,?_,List.forall_mem_cons.mpr ⟨⟨hdone,le_rfl⟩,hpast⟩,
      List.pairwise_cons.mpr ⟨fun p hp => (h.past p hp).2.trans hnow,h.ordered⟩,?_⟩
    · intro p hp
      cases hp
      rfl
    · rw [degraded_cons, ← h.warned]
      simp [or_comm]

/-- Every call keeps the promises. -/
theorem Sound.step (h : Sound m) (hcurrent : Current m) (hstep : step bin m call = some t) :
    Sound t := by
  obtain ⟨⟨hnow,hdone⟩,hcases⟩ := step_cases hstep
  rcases hcases with ⟨running,hanswer,rfl⟩ | ⟨exc,rfl⟩ | ⟨hanswer,ok,answer,warnings,rfl,hvalue,hlog⟩
  · obtain ⟨⟨p,hhead,hok,httl⟩,hrequired⟩ := hcurrent.answer hanswer
    have hmem := List.mem_of_mem_head? hhead
    refine ⟨?_,?_,h.spaced,h.warned⟩
    · refine List.forall_mem_append.mpr ⟨h.required,List.forall_mem_singleton.mpr (fun hr hfalse => ?_)⟩
      cases hfalse
      exact absurd (hrequired hr) (by simp)
    · refine List.forall_mem_append.mpr ⟨h.backed,List.forall_mem_singleton.mpr (fun b hb => ?_)⟩
      cases hb
      exact ⟨p,hmem,hok,(hcurrent.past p hmem).2.trans (hnow.trans hdone),httl⟩
  · refine ⟨?_,?_,h.spaced,h.warned⟩
    · refine List.forall_mem_append.mpr ⟨h.required,List.forall_mem_singleton.mpr (fun _ hfalse => ?_)⟩
      cases hfalse
    · refine List.forall_mem_append.mpr ⟨h.backed,List.forall_mem_singleton.mpr (fun b hb => ?_)⟩
      cases hb
  · refine ⟨?_,?_,?_,?_⟩
    · refine List.forall_mem_append.mpr ⟨h.required,List.forall_mem_singleton.mpr (fun hr hfalse => ?_)⟩
      obtain ⟨hok,htrue⟩ := hvalue false hfalse
      rw [← hok] at htrue
      exact absurd (htrue hr) (by simp)
    · refine List.forall_mem_append.mpr ⟨?_,List.forall_mem_singleton.mpr (fun b hb => ?_)⟩
      · intro a ha b hb
        obtain ⟨p,hp,hbacked⟩ := h.backed a ha b hb
        exact ⟨p,List.mem_cons_of_mem _ hp,hbacked⟩
      · refine ⟨(call,ok),List.mem_cons_self,(hvalue b hb).1.symm,le_rfl,?_⟩
        have hpos : (0 : ℚ) < runtimeCheckTtl := by norm_num [runtimeCheckTtl]
        dsimp only
        linarith
    · exact List.pairwise_cons.mpr ⟨hcurrent.spaced h.spaced hnow hanswer ok,h.spaced⟩
    · rw [degraded_cons]
      dsimp only
      cases hwarned : m.cache.warned with
      | true =>
        have hdegraded := hcurrent.warned.mp hwarned
        have hnone : warnings = [] := by
          rw [← List.length_eq_zero_iff, hlog, hwarned]
          simp
        rw [hnone, List.append_nil]
        exact ⟨fun _ => h.warned.1 hdegraded,fun hnot => absurd (Or.inr hdegraded) hnot⟩
      | false =>
        have hdegraded : ¬Degraded m.probes := by
          rw [← hcurrent.warned, hwarned]
          simp
        rw [h.warned.2 hdegraded, List.nil_append, or_iff_left hdegraded]
        simp only [hwarned, and_true] at hlog
        constructor
        · intro hnew
          rw [hlog, if_pos hnew]
        · intro hnew
          rw [← List.length_eq_zero_iff, hlog, if_neg hnew]

theorem current_start : Current .start := by
  refine ⟨rfl,?_,?_,List.Pairwise.nil,?_⟩
  · intro p hp
    cases hp
  · intro p hp
    cases hp
  · simp [Monitor.start, Degraded]

theorem sound_start : Sound .start := by
  refine ⟨?_,?_,List.Pairwise.nil,?_⟩
  · intro a ha
    cases ha
  · intro a ha
    cases ha
  · simp [Monitor.start, Degraded]

/-- Every sequence of calls, required or optional, keeps the promises, however the probes end. -/
theorem runtime_check_sound (bin : String) (m : Monitor) (h : Reachable (step bin) .start m) :
    Sound m := by
  have hinv : Current m ∧ Sound m :=
    h.invariant (P := fun m => Current m ∧ Sound m)
      (fun _ _ _ h hstep => ⟨h.1.step hstep,h.2.step h.1 hstep⟩) ⟨current_start,sound_start⟩
  exact hinv.2

/-- A call that finds no runtime, with a second for its probe. -/
private def failing (required : Bool) (now : ℚ) : Call := ⟨required,now,now + 1,.fails "exit status 1"⟩

/-- Two optional calls and one that requires the runtime, within a few seconds. -/
theorem runtime_check_sound_down : ∃ m,
    exec (step "docker") .start [failing false 0,failing false 5,failing true 6] = some m ∧
      m.probes.length = 2 ∧ Sound m := by
  have hruns : (exec (step "docker") .start
      [failing false 0,failing false 5,failing true 6]).map (·.probes.length) = some 2 := by
    decide +kernel
  obtain ⟨m,hm,hprobes⟩ := Option.map_eq_some_iff.mp hruns
  exact ⟨m,hm,hprobes,runtime_check_sound "docker" m ⟨_,hm⟩⟩

end Steps

end NanoClaw.ContainerRuntime
