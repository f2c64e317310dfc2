/-
  Runs of a state machine. A total machine `step : σ → ε → σ` runs a list of events by
  `List.foldl`; a machine that may stop (`step : σ → ε → Option σ`) runs by `Run`.

  `StepsMeet step C s es` says that every step of the run from `s` meets `C` at the state
  it starts from. The induction over runs is packaged here: `foldl_inv` and
  `StepsMeet.inv` for total machines, `Run.inv`, `Run.history_inv` and `RunMeets.inv` for
  partial ones.
-/
import Mathlib.Algebra.Ring.Nat
import Mathlib.Data.List.Basic
import Mathlib.Data.List.Induction

namespace Free5gc.Lib

variable {σ ε : Type}

/-! ## Total machines -/

section

variable {step : σ → ε → σ} {s : σ} {C : σ → ε → Prop}

/-- An invariant of every step holds after every run. -/
theorem foldl_inv (I : σ → Prop) (hstep : ∀ s e, I s → I (step s e)) (es : List ε) (h : I s) :
    I (es.foldl step s) := by
  induction es generalizing s with
  | nil => exact h
  | cons e es ih => exact ih (hstep s e h)

/-- As `foldl_inv`, for a run over the elements of a list that all satisfy `P`. -/
theorem foldl_inv_of_mem (I : σ → Prop) (P : ε → Prop) (hstep : ∀ s e, P e → I s → I (step s e))
    (es : List ε) (hP : ∀ e ∈ es, P e) (h : I s) : I (es.foldl step s) := by
  induction es generalizing s with
  | nil => exact h
  | cons e es ih =>
    refine ih (fun e' he' => hP e' (List.mem_cons_of_mem e he')) ?_
    exact hstep s e (hP e List.mem_cons_self) h

/-- A function of the state that no step changes is the same after every run. -/
theorem foldl_frame {α : Type} (step : σ → ε → σ) (f : σ → α)
    (hstep : ∀ s e, f (step s e) = f s) (es : List ε) (s : σ) :
    f (es.foldl step s) = f s :=
  foldl_inv (fun s' => f s' = f s) (fun s' e h => (hstep s' e).trans h) es rfl

/-- A loop whose turn for `e` adds `key e` to a set that the state holds adds the keys of its
    list. -/
theorem foldl_adds {β : Type} (step : σ → ε → σ) (view : σ → β → Prop) (key : ε → β)
    (hstep : ∀ s e b, view (step s e) b ↔ view s b ∨ b = key e) (es : List ε) (s : σ) (b : β) :
    view (es.foldl step s) b ↔ view s b ∨ b ∈ es.map key := by
  induction es generalizing s with
  | nil => simp
  | cons e es ih => rw [List.foldl_cons, ih, hstep, List.map_cons, List.mem_cons, or_assoc]

/-- A loop whose turn for `e` drops `key e` from a set that the state holds drops the keys of
    its list. -/
theorem foldl_drops {β : Type} (step : σ → ε → σ) (view : σ → β → Prop) (key : ε → β)
    (hstep : ∀ s e b, view (step s e) b ↔ view s b ∧ b ≠ key e) (es : List ε) (s : σ) (b : β) :
    view (es.foldl step s) b ↔ view s b ∧ b ∉ es.map key := by
  induction es generalizing s with
  | nil => simp
  | cons e es ih =>
    rw [List.foldl_cons, ih, hstep, List.map_cons, List.mem_cons, not_or, and_assoc]

/-- Every step of the run of `es` from `s` meets `C` at the state it starts from. -/
def StepsMeet (step : σ → ε → σ) (C : σ → ε → Prop) : σ → List ε → Prop
  | _, [] => True
  | s, e :: es => C s e ∧ StepsMeet step C (step s e) es

instance StepsMeet.decidable {step : σ → ε → σ} {C : σ → ε → Prop}
    [∀ s e, Decidable (C s e)] : ∀ (s : σ) (es : List ε), Decidable (StepsMeet step C s es)
  | _, [] => isTrue trivial
  | s, e :: es =>
    @instDecidableAnd _ _ (inferInstanceAs (Decidable (C s e)))
      (StepsMeet.decidable (step s e) es)

theorem stepsMeet_append (s : σ) (es fs : List ε) :
    StepsMeet step C s (es ++ fs) ↔
      StepsMeet step C s es ∧ StepsMeet step C (es.foldl step s) fs := by
  induction es generalizing s with
  | nil => simp [StepsMeet]
  | cons e es ih => simp only [List.cons_append, StepsMeet, List.foldl_cons, ih, and_assoc]

/-- A property that every step meeting `C` keeps holds after every run whose steps all
    meet `C`. -/
theorem StepsMeet.inv (I : σ → Prop) (hstep : ∀ s e, C s e → I s → I (step s e)) {es : List ε}
    (hC : StepsMeet step C s es) (h : I s) : I (es.foldl step s) := by
  induction es generalizing s with
  | nil => exact h
  | cons e es ih => exact ih hC.2 (hstep s e hC.1 h)

/-- If an invariant `I` gives `P`, a step that meets `C` keeps `I`, and only such a step gives `P`,
    then `P` holds at every time of a run exactly if all its steps meet `C`. -/
theorem forall_take_iff_stepsMeet_of_gives (I P : σ → Prop) (hP : ∀ s, I s → P s)
    (hstep : ∀ s e, I s → (C s e → I (step s e)) ∧ (P (step s e) → C s e)) (es : List ε)
    (h : I s) : (∀ n, P ((es.take n).foldl step s)) ↔ StepsMeet step C s es := by
  induction es generalizing s with
  | nil => simp [StepsMeet, hP s h]
  | cons e es ih =>
    obtain ⟨hkeep, honly⟩ := hstep s e h
    constructor
    · intro hall
      have hC := honly (hall 1)
      exact ⟨hC, (ih (hkeep hC)).mp fun n => hall (n + 1)⟩
    · rintro ⟨hC, hrest⟩ n
      cases n with
      | zero => exact hP s h
      | succ n => exact (ih (hkeep hC)).mpr hrest n

/-- A property that, next to an invariant, a step keeps exactly if it meets `C` holds at every
    time of a run exactly if all its steps meet `C`. -/
theorem forall_take_iff_stepsMeet_of_inv (I P : σ → Prop)
    (hstep : ∀ s e, I s → P s → I (step s e) ∧ (P (step s e) ↔ C s e)) (es : List ε) (hI : I s)
    (h : P s) : (∀ n, P ((es.take n).foldl step s)) ↔ StepsMeet step C s es := by
  refine forall_take_iff_stepsMeet_of_gives (fun s => I s ∧ P s) P (fun _ h => h.2) ?_ es ⟨hI, h⟩
  intro s e h
  obtain ⟨hI', hiff⟩ := hstep s e h.1 h.2
  exact ⟨fun hC => ⟨hI', hiff.mpr hC⟩, hiff.mp⟩

theorem forall_take_iff_stepsMeet (P : σ → Prop) (hstep : ∀ s e, P s → (P (step s e) ↔ C s e))
    (es : List ε) (h : P s) : (∀ n, P ((es.take n).foldl step s)) ↔ StepsMeet step C s es :=
  forall_take_iff_stepsMeet_of_inv (fun _ => True) P (fun s e _ hP => ⟨trivial, hstep s e hP⟩) es
    trivial h

/-- What a run costs is the sum of what its steps cost: `R s n s'` says that getting from `s`
    to `s'` costs `n`. -/
theorem StepsMeet.sum {R : σ → Nat → σ → Prop} (hrefl : ∀ s, R s 0 s)
    (htrans : ∀ s m t n u, R s m t → R t n u → R s (m + n) u) (I : σ → Prop) (cost : ε → Nat)
    {es : List ε} (hstep : ∀ s e, e ∈ es → C s e → I s → R s (cost e) (step s e) ∧ I (step s e))
    (hC : StepsMeet step C s es) (h : I s) :
    R s (es.map cost).sum (es.foldl step s) ∧ I (es.foldl step s) := by
  induction es generalizing s with
  | nil => exact ⟨hrefl s, h⟩
  | cons e es ih =>
    obtain ⟨hhead, hI⟩ := hstep s e List.mem_cons_self hC.1 h
    obtain ⟨htail, hI'⟩ := ih (fun s' e' he' => hstep s' e' (List.mem_cons_of_mem e he')) hC.2 hI
    rw [List.map_cons, List.sum_cons]
    exact ⟨htrans s (cost e) (step s e) _ _ hhead htail, hI'⟩

end

/-! ## Machines that may stop -/

section

/-- `Run step s es s'`: the machine takes every event of `es` in turn, from `s` to `s'`. -/
inductive Run (step : σ → ε → Option σ) : σ → List ε → σ → Prop where
  | nil (s : σ) : Run step s [] s
  | cons {s s' s'' : σ} {e : ε} {es : List ε} :
      step s e = some s' → Run step s' es s'' → Run step s (e :: es) s''

variable {step : σ → ε → Option σ} {s s' : σ} {es : List ε} {C : σ → ε → Prop}

theorem Run.append {s'' : σ} {fs : List ε} (h : Run step s es s') (h' : Run step s' fs s'') :
    Run step s (es ++ fs) s'' := by
  induction h with
  | nil => exact h'
  | cons he _ ih => exact Run.cons he (ih h')

theorem run_concat {e : ε} :
    Run step s (es ++ [e]) s' ↔ ∃ t, Run step s es t ∧ step t e = some s' := by
  constructor
  · intro h
    induction es generalizing s with
    | nil =>
      cases h with
      | cons he hrest =>
        cases hrest
        exact ⟨s, Run.nil s, he⟩
    | cons e' es ih =>
      cases h with
      | cons he hrest =>
        obtain ⟨t, ht, hlast⟩ := ih hrest
        exact ⟨t, Run.cons he ht, hlast⟩
  · rintro ⟨t, ht, he⟩
    exact ht.append (Run.cons he (Run.nil s'))

/-- A run can be computed. -/
theorem run_iff_foldlM : Run step s es s' ↔ es.foldlM step s = some s' := by
  constructor
  · intro h
    induction h with
    | nil => rfl
    | cons he _ ih => simpa [List.foldlM_cons, he] using ih
  · intro h
    induction es generalizing s with
    | nil =>
      obtain rfl : s = s' := Option.some.inj h
      exact Run.nil s
    | cons e es ih =>
      rw [List.foldlM_cons] at h
      obtain ⟨t, ht, hrest⟩ := Option.bind_eq_some_iff.mp h
      exact Run.cons ht (ih hrest)

/-- A relation between the events taken so far and the state reached, by induction on the
    last event. -/
theorem Run.history_inv (I : List ε → σ → Prop) (h : I [] s)
    (hstep : ∀ es t e t', Run step s es t → step t e = some t' → I es t → I (es ++ [e]) t')
    (hrun : Run step s es s') : I es s' := by
  induction es using List.reverseRecOn generalizing s' with
  | nil =>
    cases hrun
    exact h
  | append_singleton es e ih =>
    obtain ⟨t, ht, he⟩ := run_concat.mp hrun
    exact hstep es t e s' ht he (ih ht)

/-- An invariant of every step holds after every run. -/
theorem Run.inv (I : σ → Prop) (hrun : Run step s es s')
    (hstep : ∀ t e t', e ∈ es → step t e = some t' → I t → I t') (h : I s) : I s' := by
  induction hrun with
  | nil => exact h
  | cons he _ ih =>
    refine ih (fun t e' t' hm => hstep t e' t' (List.mem_cons_of_mem _ hm)) ?_
    exact hstep _ _ _ List.mem_cons_self he h

/-- A loop that goes on exactly at the elements with `P` ends exactly if all its elements have `P`. -/
theorem exists_foldlM_iff (I : σ → Prop) (P : ε → Prop)
    (hstep : ∀ t e, e ∈ es → I t → ((∃ t', step t e = some t') ↔ P e))
    (hkeep : ∀ t e t', step t e = some t' → I t → I t') (h : I s) :
    (∃ s', es.foldlM step s = some s') ↔ ∀ e ∈ es, P e := by
  induction es generalizing s with
  | nil => exact iff_of_true ⟨s, rfl⟩ (List.forall_mem_nil P)
  | cons e es ih =>
    have ih := fun t ht => @ih t (fun t e he => hstep t e (List.mem_cons_of_mem _ he)) ht
    rw [List.forall_mem_cons, List.foldlM_cons, ← hstep s e List.mem_cons_self h]
    constructor
    · rintro ⟨s', hs'⟩
      obtain ⟨t, ht, hrest⟩ := Option.bind_eq_some_iff.mp hs'
      exact ⟨⟨t, ht⟩, (ih t (hkeep s e t ht h)).mp ⟨s', hrest⟩⟩
    · rintro ⟨⟨t, ht⟩, hall⟩
      obtain ⟨s', hs'⟩ := (ih t (hkeep s e t ht h)).mpr hall
      exact ⟨s', Option.bind_eq_some_iff.mpr ⟨t, ht, hs'⟩⟩

/-- Every step of the run of `es` from `s` meets `C` at the state it starts from. -/
def RunMeets (step : σ → ε → Option σ) (C : σ → ε → Prop) : σ → List ε → Prop
  | _, [] => True
  | s, e :: es => C s e ∧ ∀ s', step s e = some s' → RunMeets step C s' es

theorem RunMeets.cons {e : ε} (hC : C s e) (he : step s e = some s') (h : RunMeets step C s' es) :
    RunMeets step C s (e :: es) := by
  refine ⟨hC, fun t ht => ?_⟩
  obtain rfl : s' = t := Option.some.inj (he.symm.trans ht)
  exact h

theorem RunMeets.append {fs : List ε} (h : RunMeets step C s es) (hrun : Run step s es s')
    (h' : RunMeets step C s' fs) : RunMeets step C s (es ++ fs) := by
  induction hrun with
  | nil => exact h'
  | cons he _ ih => exact RunMeets.cons h.1 he (ih (h.2 _ he) h')

/-- A property that every step meeting `C` keeps holds after every run whose steps all
    meet `C`. -/
theorem RunMeets.inv (I : σ → Prop) (hstep : ∀ t e t', C t e → step t e = some t' → I t → I t')
    (hC : RunMeets step C s es) (hrun : Run step s es s') (h : I s) : I s' := by
  induction hrun with
  | nil => exact h
  | cons he _ ih => exact ih (hC.2 _ he) (hstep _ _ _ hC.1 he h)

theorem runMeets_trivial (step : σ → ε → Option σ) (s : σ) (es : List ε) :
    RunMeets step (fun _ _ => True) s es := by
  induction es generalizing s with
  | nil => exact trivial
  | cons e es ih => exact ⟨trivial, fun s' _ => ih s'⟩

/-- For runs whose steps meet `A`: if a step that meets `C` keeps an invariant that has `P`, and any
    other loses `P`, then `P` holds at every time of a run exactly if all its steps meet `C`. -/
theorem forall_take_iff_runMeets_of_inv {A : σ → ε → Prop} (I P : σ → Prop) (hP : ∀ s, I s → P s)
    (hkeep : ∀ s e s', A s e → step s e = some s' → I s → C s e → I s')
    (hlose : ∀ s e s', A s e → step s e = some s' → I s → P s' → C s e)
    (hstop : ∀ s e, step s e = none → C s e) (es : List ε) (hA : RunMeets step A s es) (hI : I s) :
    (∀ n s', Run step s (es.take n) s' → P s') ↔ RunMeets step C s es := by
  induction es generalizing s with
  | nil =>
    refine iff_of_true (fun n s' hrun => ?_) trivial
    rw [List.take_nil] at hrun
    cases hrun
    exact hP s hI
  | cons e es ih =>
    unfold RunMeets
    constructor
    · intro hall
      cases he : step s e with
      | none => exact ⟨hstop s e he, fun s' hs' => nomatch hs'⟩
      | some t =>
        have ht : P t := hall 1 t (Run.cons he (Run.nil t))
        have hC := hlose s e t hA.1 he hI ht
        refine ⟨hC, fun s' hs' => ?_⟩
        obtain rfl : t = s' := Option.some.inj hs'
        exact (ih (hA.2 t he) (hkeep s e t hA.1 he hI hC)).mp
          fun n s' hrun => hall (n + 1) s' (Run.cons he hrun)
    · rintro ⟨hC, hrest⟩ n s' hrun
      cases n with
      | zero =>
        cases hrun
        exact hP s hI
      | succ n =>
        cases hrun with
        | cons he hrun =>
          exact (ih (hA.2 _ he) (hkeep s e _ hA.1 he hI hC)).mpr (hrest _ he) n s' hrun

/-- A property that, next to an invariant, a step keeps exactly if it meets `C` holds at every
    time of a run exactly if all its steps meet `C`. -/
theorem forall_take_iff_runMeets (I P : σ → Prop)
    (hstep : ∀ s e s', step s e = some s' → I s → P s → I s' ∧ (P s' ↔ C s e))
    (hstop : ∀ s e, step s e = none → C s e) (es : List ε) (hI : I s) (hP : P s) :
    (∀ n s', Run step s (es.take n) s' → P s') ↔ RunMeets step C s es := by
  refine forall_take_iff_runMeets_of_inv (fun s => I s ∧ P s) P (fun _ h => h.2) ?_ ?_ hstop es
    (runMeets_trivial step s es) ⟨hI, hP⟩
  · rintro s e s' _ he ⟨hI, hP⟩ hC
    obtain ⟨hI', hiff⟩ := hstep s e s' he hI hP
    exact ⟨hI', hiff.mpr hC⟩
  · rintro s e s' _ he ⟨hI, hP⟩ hP'
    exact (hstep s e s' he hI hP).2.mp hP'

end

end Free5gc.Lib
