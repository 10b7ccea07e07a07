import NanoClaw.Queue.Safety
import NanoClaw.Queue.Termination

/-! Systems that are built over the queue. Where each of their actions is a short run of the queue, the
queue's size bounds their moves as well. -/
namespace NanoClaw.GroupQueue
open Execution
variable {F : Type}

/-- A run of the queue for one action of a system over it, before shutdown: as many moves as the action
itself at least, and from inside where the action is. -/
structure Path (s t : GroupQueue F) (inner : Prop) (moving : Bool) (path : List (Action F)) : Prop where
  run : exec step s path = some t
  opened : ∀ x ∈ path, x ≠ .shutdown
  internal : inner → ∀ x ∈ path, x.internal
  moves : moving.toNat ≤ path.countP Action.moves

/-- The work of the queue is in these groups, and has a size. -/
structure Sized (retries : Nat) (G : Finset String) (s : GroupQueue F) : Prop where
  within : Within G s
  accounted : Accounted s
  limit : s.maxRetries.toNat = retries

section Paths
variable {s t : GroupQueue F} {inner : Prop} {moving : Bool} {path : List (Action F)} {retries : Nat}
  {G : Finset String}

theorem path_nil (hmoving : moving = false) (h : t = s) : Path s t inner moving [] :=
  ⟨by rw [h]; rfl,by simp,by simp,by rw [hmoving]; exact Nat.zero_le _⟩

theorem path_one {x : Action F} (hstep : step s x = some t) (hopened : x ≠ .shutdown)
    (hinternal : inner → x.internal) (hmoves : moving = true → x.moves = true) :
    Path s t inner moving [x] := by
  refine ⟨by rw [exec, hstep]; rfl,fun y hy => List.mem_singleton.mp hy ▸ hopened,
    fun hi y hy => List.mem_singleton.mp hy ▸ hinternal hi,?_⟩
  cases moving with
  | false => exact Nat.zero_le _
  | true => rw [List.countP_cons, hmoves rfl]; rfl

/-- The accounts of the queue are kept along the run. -/
theorem Path.inv (h : Path s t inner moving path) (hinv : Inv s) (hopen : s.shuttingDown = false) :
    Inv t ∧ t.shuttingDown = false := by
  refine allowed_invariant (C := fun _ x => x ≠ .shutdown) (P := fun u => Inv u ∧ u.shuttingDown = false)
    ?_ ⟨hinv,hopen⟩ (allowed_of_take fun n x _ hx _ => h.opened x (List.mem_of_getElem? hx)) h.run
  rintro u x v ⟨hu,hopen⟩ hx hstep
  have hnext : v.shuttingDown = false :=
    (congrArg Settings.shuttingDown ((step_settings hstep).resolve_right hx)).trans hopen
  exact ⟨step_inv hu hopen hnext hstep,hnext⟩

theorem Sized.step {x : Action F} (h : Sized retries G s) (hx : x.internal) (hstep : step s x = some t) :
    Sized retries G t ∧ workLeft retries G t + x.moves.toNat ≤ workLeft retries G s := by
  obtain ⟨hwithin,hless⟩ := step_work h.within h.accounted h.limit hx hstep
  have hmax : t.maxRetries = s.maxRetries := congrArg Settings.maxRetries (step_limits hstep)
  exact ⟨⟨hwithin,step_accounted h.accounted hstep,hmax ▸ h.limit⟩,hless⟩

/-- What the queue has left bounds what the system has left. -/
theorem Path.work (h : Path s t inner moving path) (hinner : inner) (hsized : Sized retries G s) :
    Sized retries G t ∧ workLeft retries G t + moving.toNat ≤ workLeft retries G s := by
  obtain ⟨hsized,hless⟩ := count_moves_le Action.moves (workLeft retries G)
    (fun _ _ _ h hx hstep => h.step hx hstep) hsized (h.internal hinner) h.run
  have hmoves := h.moves
  exact ⟨hsized,by omega⟩

end Paths

section Systems
variable {S A : Type} {next : S → A → Option S} {queue : S → GroupQueue F} {internal : A → Prop}
  {moves : A → Bool} {s t : S}

theorem reachable_of_paths
    (hpath : ∀ s a t, next s a = some t → ∃ path, Path (queue s) (queue t) (internal a) (moves a) path)
    {q : GroupQueue F} (hq : Reachable step q (queue s)) (h : Reachable next s t) :
    Reachable step q (queue t) := by
  refine h.invariant (P := fun u => Reachable step q (queue u)) ?_ hq
  intro u a v hu hstep
  obtain ⟨path,hpath⟩ := hpath u a v hstep
  exact hu.extend hpath.run

/-- From inside, a system over the queue makes a bounded number of moves. -/
theorem bounded_of_paths
    (hpath : ∀ s a t, next s a = some t → ∃ path, Path (queue s) (queue t) (internal a) (moves a) path)
    {maxC maxR base maxMs : Int} {p c : Bool}
    (h : Reachable step (init maxC maxR base maxMs p c) (queue s)) :
    ∃ bound, ∀ as t, (∀ a ∈ as, internal a) → exec next s as = some t → as.countP moves ≤ bound := by
  obtain ⟨G,hG⟩ := reachable_within h
  let retries := (queue s).maxRetries.toNat
  refine ⟨workLeft retries G (queue s),fun as t has he => ?_⟩
  have hcount := count_moves_le (I := internal) (P := fun u => Sized retries G (queue u)) moves
    (fun u => workLeft retries G (queue u)) ?_ ⟨hG,reachable_accounted h,rfl⟩ has he
  · exact (Nat.le_add_left _ _).trans hcount.2
  · intro u a v hsized ha hstep
    obtain ⟨path,hpath⟩ := hpath u a v hstep
    exact hpath.work ha hsized

end Systems

end NanoClaw.GroupQueue
