import Mathlib.Data.List.Basic

/-! A loop that appends what each element gives on its own, and ends with the first error. -/
namespace NanoClaw.Each
variable {α β ε : Type}

def collectStep (f : α → Except ε (Option β)) (done : List β) (x : α) : Except ε (List β) :=
  (f x).map (fun out => done ++ out.toList)

def collect (f : α → Except ε (Option β)) (l : List α) : Except ε (List β) :=
  l.foldlM (collectStep f) []

theorem bind_eq_ok_iff {x : Except ε α} {f : α → Except ε β} {out : β} :
    x >>= f = .ok out ↔ ∃ a, x = .ok a ∧ f a = .ok out := by
  cases x with
  | error e =>
    refine iff_of_false (fun h => by cases h) ?_
    rintro ⟨a,h,_⟩
    cases h
  | ok a =>
    constructor
    · intro h
      exact ⟨a,rfl,h⟩
    · rintro ⟨b,hb,h⟩
      cases hb
      exact h

theorem bind_ok_iff {x : Except ε α} {f : α → Except ε β} :
    (∃ out, x >>= f = .ok out) ↔ ∃ a, x = .ok a ∧ ∃ out, f a = .ok out := by
  simp only [bind_eq_ok_iff]
  rw [exists_comm]
  simp only [exists_and_left]

variable {f : α → Except ε (Option β)}

/-- What is done already stays in front. -/
theorem foldlM_collectStep (l : List α) (done : List β) :
    l.foldlM (collectStep f) done = (collect f l).map (fun outs => done ++ outs) := by
  induction l generalizing done with
  | nil => simp [collect, Except.map, pure, Except.pure]
  | cons x l ih =>
    rw [collect, List.foldlM_cons, List.foldlM_cons]
    cases hx : f x with
    | error e =>
      simp only [collectStep, hx]
      rfl
    | ok out =>
      have hstep : ∀ done : List β, collectStep f done x = .ok (done ++ out.toList) := by
        intro done
        rw [collectStep, hx]
        rfl
      rw [hstep, hstep]
      change l.foldlM (collectStep f) (done ++ out.toList) =
        (l.foldlM (collectStep f) ([] ++ out.toList)).map (fun outs => done ++ outs)
      rw [ih, ih]
      cases collect f l <;> simp [Except.map]

theorem collect_cons (x : α) (l : List α) :
    collect f (x :: l) =
      match f x with
      | .error e => .error e
      | .ok out => (collect f l).map (fun outs => out.toList ++ outs) := by
  rw [collect, List.foldlM_cons, collectStep]
  cases f x with
  | error e => rfl
  | ok out => exact foldlM_collectStep l ([] ++ out.toList)

theorem collect_singleton (x : α) : collect f [x] = (f x).map Option.toList := by
  rw [collect_cons]
  cases f x with
  | error e => rfl
  | ok out => simp [collect, Except.map, pure, Except.pure]

/-- What is collected was given by an element. -/
theorem mem_collect {l : List α} {outs : List β} (h : collect f l = .ok outs) {y : β} (hy : y ∈ outs) :
    ∃ x ∈ l, f x = .ok (some y) := by
  induction l generalizing outs with
  | nil =>
    cases h
    cases hy
  | cons x l ih =>
    rw [collect_cons] at h
    cases hx : f x with
    | error e =>
      rw [hx] at h
      cases h
    | ok out =>
      rw [hx] at h
      cases hl : collect f l with
      | error e =>
        rw [hl] at h
        cases h
      | ok outs' =>
        rw [hl] at h
        cases h
        rcases List.mem_append.mp hy with hy | hy
        · exact ⟨x,List.mem_cons_self,hx.trans (congrArg _ (Option.mem_toList.mp hy))⟩
        · obtain ⟨x',hx',hfx'⟩ := ih hl hy
          exact ⟨x',List.mem_cons_of_mem x hx',hfx'⟩

/-- Where no element is an error, what each gives is collected. -/
theorem collect_eq_filterMap {g : α → Option β} {l : List α} (h : ∀ x ∈ l, f x = .ok (g x)) :
    collect f l = .ok (l.filterMap g) := by
  induction l with
  | nil => rfl
  | cons x l ih =>
    obtain ⟨hx,hl⟩ := List.forall_mem_cons.mp h
    rw [collect_cons, hx, ih hl, List.filterMap_cons]
    cases g x <;> rfl

theorem collect_ok_iff {l : List α} :
    (∃ outs, collect f l = .ok outs) ↔ ∀ x ∈ l, ∃ out, f x = .ok out := by
  induction l with
  | nil => exact iff_of_true ⟨[],rfl⟩ (by simp)
  | cons x l ih =>
    rw [List.forall_mem_cons, ← ih, collect_cons]
    cases f x with
    | error e =>
      refine iff_of_false ?_ ?_
      · rintro ⟨outs,h⟩
        cases h
      · rintro ⟨⟨out,h⟩,_⟩
        cases h
    | ok out =>
      rw [and_iff_right ⟨out,rfl⟩]
      cases collect f l with
      | error e =>
        refine iff_of_false ?_ ?_
        · rintro ⟨outs,h⟩
          cases h
        · rintro ⟨outs,h⟩
          cases h
      | ok outs => exact iff_of_true ⟨_,rfl⟩ ⟨outs,rfl⟩

/-- The loop collects what it collects of each element alone exactly when no element is an error. -/
theorem collect_separate_iff {l : List α} :
    (∃ results, l.mapM (fun x => collect f [x]) = .ok results ∧ collect f l = .ok results.flatten) ↔
      ∀ x ∈ l, ∃ out, f x = .ok out := by
  induction l with
  | nil => exact iff_of_true ⟨[],rfl,rfl⟩ (by simp)
  | cons x l ih =>
    rw [List.forall_mem_cons, ← ih, List.mapM_cons, collect_singleton, collect_cons]
    cases f x with
    | error e =>
      refine iff_of_false ?_ ?_
      · rintro ⟨results,h,_⟩
        cases h
      · rintro ⟨⟨out,h⟩,_⟩
        cases h
    | ok out =>
      constructor
      · rintro ⟨results,hmap,hcollect⟩
        refine ⟨⟨out,rfl⟩,?_⟩
        cases hmap' : l.mapM (fun x => collect f [x]) with
        | error e =>
          rw [hmap'] at hmap
          cases hmap
        | ok results' =>
          rw [hmap'] at hmap
          cases hmap
          refine ⟨results',rfl,?_⟩
          cases hcollect' : collect f l with
          | error e =>
            rw [hcollect'] at hcollect
            cases hcollect
          | ok outs =>
            rw [hcollect'] at hcollect
            exact congrArg _ (List.append_cancel_left (Except.ok.inj hcollect))
      · rintro ⟨_,results,hmap,hcollect⟩
        refine ⟨out.toList :: results,?_,?_⟩
        · rw [hmap]
          rfl
        · rw [hcollect]
          rfl

/-- Where every element gives something, that is what there is. -/
theorem mem_mapM {g : α → Option β} {l : List α} {outs : List β} (h : l.mapM g = some outs) {y : β} :
    y ∈ outs ↔ ∃ x ∈ l, g x = some y := by
  induction l generalizing outs with
  | nil =>
    cases h
    simp
  | cons x l ih =>
    rw [List.mapM_cons] at h
    obtain ⟨z,hz,h⟩ := Option.bind_eq_some_iff.mp h
    obtain ⟨rest,hrest,h⟩ := Option.bind_eq_some_iff.mp h
    cases h
    rw [List.mem_cons, ih hrest, List.exists_mem_cons_iff, hz, Option.some.injEq, eq_comm]

end NanoClaw.Each
