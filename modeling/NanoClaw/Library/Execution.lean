import Mathlib.Logic.Basic

/-! Finite executions of a partial step function. An action that is not enabled
has no successor, so an execution is a list of actions each enabled in its turn. -/
namespace NanoClaw.Execution
variable {S A : Type}

/-- The state after the whole list, when every action is enabled in its turn. -/
def exec (step : S → A → Option S) : S → List A → Option S
  | s, [] => some s
  | s, a :: as => (step s a).bind (fun t => exec step t as)

def Reachable (step : S → A → Option S) (s t : S) : Prop := ∃ as, exec step s as = some t

/-- Every step of the execution meets a condition on the state before it. -/
def Allowed (step : S → A → Option S) (C : S → A → Prop) : S → List A → Prop
  | _, [] => True
  | s, a :: as => C s a ∧ ∀ t, step s a = some t → Allowed step C t as

/-- How many steps of the execution meet a condition on the state before them. -/
def tally (step : S → A → Option S) (p : S → A → Bool) : S → List A → Nat
  | _, [] => 0
  | s, a :: as => (p s a).toNat + ((step s a).elim 0 (fun t => tally step p t as))

theorem tally_cons {step : S → A → Option S} {p : S → A → Bool} {s t : S} {a : A} {as : List A}
    (h : step s a = some t) : tally step p s (a :: as) = (p s a).toNat + tally step p t as := by
  rw [tally, h]
  rfl

theorem exec_cons_iff (step : S → A → Option S) (s u : S) (a : A) (as : List A) :
    exec step s (a :: as) = some u ↔ ∃ t, step s a = some t ∧ exec step t as = some u := by
  simp [exec, Option.bind_eq_some_iff]

theorem tally_append {step : S → A → Option S} {p : S → A → Bool} {s t : S} {l l' : List A}
    (h : exec step s l = some t) : tally step p s (l ++ l') = tally step p s l + tally step p t l' := by
  induction l generalizing s with
  | nil =>
    cases h
    simp [tally]
  | cons a l ih =>
    obtain ⟨u,hu,h⟩ := (exec_cons_iff step s t a l).mp h
    rw [List.cons_append, tally_cons hu, tally_cons hu, ih h, Nat.add_assoc]

theorem Allowed.cons {step : S → A → Option S} {C : S → A → Prop} {s t : S} {a : A} {as : List A}
    (hC : C s a) (ht : step s a = some t) (h : Allowed step C t as) :
    Allowed step C s (a :: as) := by
  refine ⟨hC,fun u hu => ?_⟩
  rw [ht] at hu
  exact Option.some.inj hu ▸ h

theorem Allowed.and {step : S → A → Option S} {C D : S → A → Prop} {s : S} {as : List A}
    (hC : Allowed step C s as) (hD : Allowed step D s as) :
    Allowed step (fun s a => C s a ∧ D s a) s as := by
  induction as generalizing s with
  | nil => trivial
  | cons a as ih => exact ⟨⟨hC.1,hD.1⟩,fun t ht => ih (hC.2 t ht) (hD.2 t ht)⟩

/-- An execution is allowed when each action is, wherever the actions before it lead. -/
theorem allowed_of_take {step : S → A → Option S} {C : S → A → Prop} {s : S} {as : List A}
    (h : ∀ n a t, as[n]? = some a → exec step s (as.take n) = some t → C t a) :
    Allowed step C s as := by
  induction as generalizing s with
  | nil => trivial
  | cons a as ih =>
    refine ⟨h 0 a s rfl rfl,fun t ht => ih (fun n b u hb hu => h (n + 1) b u hb ?_)⟩
    rw [List.take_succ_cons, exec, ht]
    exact hu

theorem allowed_iff_take {step : S → A → Option S} {C : S → A → Prop} {s : S} {as : List A} :
    Allowed step C s as ↔
      ∀ n a t, as[n]? = some a → exec step s (as.take n) = some t → C t a := by
  refine ⟨fun h => ?_,allowed_of_take⟩
  induction as generalizing s with
  | nil =>
    intro n a t ha
    cases ha
  | cons b as ih =>
    intro n a t ha ht
    cases n with
    | zero =>
      cases ha
      cases ht
      exact h.1
    | succ n =>
      obtain ⟨u,hu,ht⟩ := (exec_cons_iff step s t b (as.take n)).mp ht
      exact ih (h.2 u hu) n a t ha ht

/-- Two conditions that agree wherever steps that meet them lead allow the same executions. -/
theorem allowed_congr {step : S → A → Option S} {C D : S → A → Prop} {P : S → Prop}
    (hinv : ∀ s a t, P s → C s a → step s a = some t → P t) (hiff : ∀ s a, P s → (D s a ↔ C s a))
    {s : S} {as : List A} (hs : P s) : Allowed step D s as ↔ Allowed step C s as := by
  induction as generalizing s with
  | nil => exact Iff.rfl
  | cons a as ih =>
    constructor
    · rintro ⟨hD,hrest⟩
      have hC := (hiff s a hs).mp hD
      exact ⟨hC,fun t ht => (ih (hinv s a t hs hC ht)).mp (hrest t ht)⟩
    · rintro ⟨hC,hrest⟩
      exact ⟨(hiff s a hs).mpr hC,fun t ht => (ih (hinv s a t hs hC ht)).mpr (hrest t ht)⟩

/-- Where one step keeps a property exactly when it meets a condition, an execution has the
property in all its states exactly when all its steps meet the condition. -/
theorem allowed_iff_prefixes {step : S → A → Option S} {C : S → A → Prop} {I P : S → Prop}
    (hinv : ∀ s a t, I s → step s a = some t → I t)
    (hstep : ∀ s a t, I s → P s → step s a = some t → (P t ↔ C s a))
    {s u : S} {as : List A} (hI : I s) (hP : P s) (he : exec step s as = some u) :
    Allowed step C s as ↔ ∀ n t, exec step s (as.take n) = some t → P t := by
  induction as generalizing s with
  | nil =>
    refine ⟨fun _ n t ht => ?_,fun _ => trivial⟩
    rw [List.take_nil] at ht
    exact Option.some.inj ht ▸ hP
  | cons a as ih =>
    obtain ⟨t,ht,he⟩ := (exec_cons_iff step s u a as).mp he
    constructor
    · intro h n v hv
      have hPt : P t := (hstep s a t hI hP ht).mpr h.1
      cases n with
      | zero => exact Option.some.inj hv ▸ hP
      | succ n =>
        obtain ⟨t',ht',hv⟩ := (exec_cons_iff step s v a (as.take n)).mp hv
        rw [ht] at ht'
        cases ht'
        exact (ih (hinv s a t hI ht) hPt he).mp (h.2 t ht) n v hv
    · intro h
      have hPt : P t := h 1 t ((exec_cons_iff step s t a _).mpr ⟨t,ht,rfl⟩)
      refine Allowed.cons ((hstep s a t hI hP ht).mp hPt) ht ((ih (hinv s a t hI ht) hPt he).mpr ?_)
      exact fun n v hv => h (n + 1) v ((exec_cons_iff step s v a _).mpr ⟨t,ht,hv⟩)

/-- Where a step does something exactly when it meets a condition, all steps of an execution do it
exactly when all meet the condition. -/
theorem allowed_iff_steps {step : S → A → Option S} {C : S → A → Prop} {D : S → A → S → Prop}
    (hstep : ∀ s a t, step s a = some t → (D s a t ↔ C s a)) {s u : S} {as : List A}
    (he : exec step s as = some u) :
    Allowed step C s as ↔ ∀ n a t v, as[n]? = some a → exec step s (as.take n) = some t →
      step t a = some v → D t a v := by
  induction as generalizing s with
  | nil =>
    refine ⟨fun _ n a t v ha => ?_,fun _ => trivial⟩
    cases ha
  | cons a as ih =>
    obtain ⟨t,ht,he⟩ := (exec_cons_iff step s u a as).mp he
    constructor
    · intro h n b v w hb hv hw
      cases n with
      | zero =>
        cases hb
        cases hv
        exact (hstep _ _ _ hw).mpr h.1
      | succ n =>
        obtain ⟨t',ht',hv⟩ := (exec_cons_iff step s v a (as.take n)).mp hv
        rw [ht] at ht'
        cases ht'
        exact (ih he).mp (h.2 t ht) n b v w hb hv hw
    · intro h
      refine Allowed.cons ((hstep s a t ht).mp (h 0 a s t rfl rfl ht)) ht ((ih he).mpr ?_)
      intro n b v w hb hv hw
      exact h (n + 1) b v w hb ((exec_cons_iff step s v a _).mpr ⟨t,ht,hv⟩) hw

/-- What one allowed step preserves, a whole allowed execution preserves. -/
theorem allowed_invariant {step : S → A → Option S} {C : S → A → Prop} {P : S → Prop}
    (hstep : ∀ s a t, P s → C s a → step s a = some t → P t)
    {s t : S} {as : List A} (hs : P s) (hC : Allowed step C s as)
    (he : exec step s as = some t) : P t := by
  induction as generalizing s with
  | nil => exact Option.some.inj he ▸ hs
  | cons a as ih =>
    obtain ⟨u,hu,he⟩ := (exec_cons_iff step s t a as).mp he
    exact ih (hstep s a u hs hC.1 hu) (hC.2 u hu) he

private theorem allowed_true (step : S → A → Option S) (s : S) (as : List A) :
    Allowed step (fun _ _ => True) s as := by
  induction as generalizing s with
  | nil => trivial
  | cons a as ih => exact ⟨trivial,fun t _ => ih t⟩

theorem Reachable.invariant {step : S → A → Option S} {P : S → Prop}
    (hstep : ∀ s a t, P s → step s a = some t → P t)
    {s t : S} (h : Reachable step s t) (hs : P s) : P t := by
  obtain ⟨as,he⟩ := h
  exact allowed_invariant (fun s a t hp _ => hstep s a t hp) hs (allowed_true step s as) he

/-- A measure that no internal action raises and that every move lowers bounds the moves of an
execution of internal actions. -/
theorem count_moves_le {step : S → A → Option S} {P : S → Prop} {I : A → Prop} (moves : A → Bool)
    (size : S → Nat)
    (hstep : ∀ s a t, P s → I a → step s a = some t → P t ∧ size t + (moves a).toNat ≤ size s)
    {s t : S} {as : List A} (hs : P s) (hI : ∀ a ∈ as, I a) (he : exec step s as = some t) :
    P t ∧ size t + as.countP moves ≤ size s := by
  induction as generalizing s with
  | nil =>
    cases he
    exact ⟨hs,Nat.le_refl _⟩
  | cons a as ih =>
    obtain ⟨u,hu,he⟩ := (exec_cons_iff step s t a as).mp he
    obtain ⟨hP,hle⟩ := hstep s a u hs (hI a List.mem_cons_self) hu
    obtain ⟨hP,hrest⟩ := ih hP (fun b hb => hI b (List.mem_cons_of_mem a hb)) he
    refine ⟨hP,?_⟩
    rw [List.countP_cons]
    cases hm : moves a <;> simp [hm] at hle ⊢ <;> omega

/-- An execution goes on where another one ended. -/
theorem exec_append (step : S → A → Option S) (s : S) (as bs : List A) :
    exec step s (as ++ bs) = (exec step s as).bind (fun t => exec step t bs) := by
  induction as generalizing s with
  | nil => rfl
  | cons a as ih =>
    simp only [List.cons_append, exec, Option.bind_assoc, ih]

theorem Reachable.extend {step : S → A → Option S} {s t u : S} {as : List A}
    (h : Reachable step s t) (he : exec step t as = some u) : Reachable step s u := by
  obtain ⟨bs,hbs⟩ := h
  refine ⟨bs ++ as,?_⟩
  rw [exec_append, hbs]
  exact he

/-- What one allowed step preserves of the state and of the actions that led to it, a whole
allowed execution preserves. -/
theorem allowed_trace_invariant {step : S → A → Option S} {C : S → A → Prop} {s₀ : S}
    {P : List A → S → Prop}
    (hstep : ∀ as s a t, exec step s₀ as = some s → P as s → C s a → step s a = some t →
      P (as ++ [a]) t)
    {t : S} {bs : List A} (hs : P [] s₀) (hC : Allowed step C s₀ bs)
    (he : exec step s₀ bs = some t) : P bs t := by
  have hgo : ∀ as s, exec step s₀ as = some s → P as s → Allowed step C s bs →
      exec step s bs = some t → P (as ++ bs) t := by
    clear hC he
    induction bs with
    | nil =>
      intro as s _ hP _ he
      rw [List.append_nil]
      exact Option.some.inj he ▸ hP
    | cons b bs ih =>
      intro as s hs hP hC he
      obtain ⟨u,hu,he⟩ := (exec_cons_iff step s t b bs).mp he
      have hsnoc : exec step s₀ (as ++ [b]) = some u := by
        rw [exec_append, hs]
        exact (exec_cons_iff step s u b []).mpr ⟨u,hu,rfl⟩
      have hlast := ih (as ++ [b]) u hsnoc (hstep as s b u hs hP hC.1 hu) (hC.2 u hu) he
      rwa [List.append_assoc] at hlast
  exact hgo [] s₀ rfl hs hC he

/-- What one step preserves of the state and of the actions that led to it, an execution preserves. -/
theorem trace_invariant {step : S → A → Option S} {s₀ : S} {P : List A → S → Prop}
    (hstep : ∀ as s a t, exec step s₀ as = some s → P as s → step s a = some t → P (as ++ [a]) t)
    {t : S} {bs : List A} (hs : P [] s₀) (he : exec step s₀ bs = some t) : P bs t :=
  allowed_trace_invariant (fun as s a t he hP _ => hstep as s a t he hP) hs (allowed_true step s₀ bs) he

/-- A view that shows nothing of the actions that are left out, and under which the others go on. -/
structure Hides (step : S → A → Option S) (I : S → Prop) (view : S → S) (keeps : A → Bool) : Prop where
  inv : ∀ s a t, I s → step s a = some t → I t
  kept : ∀ s a t, I s → keeps a = true → step s a = some t → step (view s) a = some (view t)
  hidden : ∀ s a t, I s → keeps a = false → step s a = some t → view t = view s

/-- Without the hidden actions the others lead to the same view. -/
theorem Hides.exec {step : S → A → Option S} {I : S → Prop} {view : S → S} {keeps : A → Bool}
    (h : Hides step I view keeps) {s t : S} {as : List A} (hs : I s)
    (he : Execution.exec step s as = some t) :
    Execution.exec step (view s) (as.filter keeps) = some (view t) := by
  induction as generalizing s with
  | nil =>
    cases he
    rfl
  | cons a as ih =>
    obtain ⟨u,hu,he⟩ := (exec_cons_iff step s t a as).mp he
    have hrest := ih (h.inv s a u hs hu) he
    cases hkeeps : keeps a with
    | true =>
      rw [List.filter_cons_of_pos hkeeps]
      exact (exec_cons_iff ..).mpr ⟨view u,h.kept s a u hs hkeeps hu,hrest⟩
    | false =>
      rw [List.filter_cons_of_neg (by simp [hkeeps]), ← h.hidden s a u hs hkeeps hu]
      exact hrest

theorem Reachable.refl (step : S → A → Option S) (s : S) : Reachable step s s := ⟨[],rfl⟩

end NanoClaw.Execution
