/-
  Computations that may fail, in `Except`: what a successful sequence of them has done.
-/
import Mathlib.Data.List.Basic
import Mathlib.Data.List.Forall2

namespace Free5gc.Lib

variable {ε α β σ : Type} {f : α → Except ε β} {x : Except ε α} {l : List α}

theorem bind_eq_ok {b : β} :
    x >>= f = .ok b ↔ ∃ a, x = .ok a ∧ f a = .ok b := by
  cases x with
  | error e =>
    constructor
    · intro h
      cases h
    · rintro ⟨a, h, _⟩
      cases h
  | ok a =>
    constructor
    · intro h
      exact ⟨a, rfl, h⟩
    · rintro ⟨a', h, hf⟩
      cases h
      exact hf

theorem pure_eq_ok {a b : α} : (pure a : Except ε α) = .ok b ↔ a = b :=
  ⟨fun h => Except.ok.inj h, fun h => congrArg Except.ok h⟩

theorem map_eq_ok {f : α → β} {b : β} :
    x.map f = .ok b ↔ ∃ a, x = .ok a ∧ f a = b := by
  cases x with
  | error e => exact ⟨fun h => (nomatch h), fun ⟨_, h, _⟩ => (nomatch h)⟩
  | ok a => exact ⟨fun h => ⟨a, rfl, Except.ok.inj h⟩, fun ⟨_, h, hb⟩ => by cases h; rw [← hb]; rfl⟩

/-- Every result of a successful `mapM` is the result of one of its calls. -/
theorem mapM_ok_mem {ys : List β} (h : l.mapM f = .ok ys) {y : β} (hy : y ∈ ys) :
    ∃ x ∈ l, f x = .ok y := by
  induction l generalizing ys with
  | nil =>
    rw [List.mapM_nil, pure_eq_ok] at h
    subst h
    exact absurd hy List.not_mem_nil
  | cons a l ih =>
    rw [List.mapM_cons, bind_eq_ok] at h
    obtain ⟨b, hb, h⟩ := h
    obtain ⟨bs, hbs, h⟩ := bind_eq_ok.mp h
    rw [pure_eq_ok] at h
    subst h
    rcases List.mem_cons.mp hy with rfl | hy
    · exact ⟨a, List.mem_cons_self, hb⟩
    · obtain ⟨x, hx, hfx⟩ := ih hbs hy
      exact ⟨x, List.mem_cons_of_mem a hx, hfx⟩

/-- A loop none of whose turns fails is the loop without failure. -/
theorem foldlM_eq_ok {step : σ → α → Except ε σ} {step' : σ → α → σ}
    (hstep : ∀ s a, step s a = .ok (step' s a)) (l : List α) (s : σ) :
    l.foldlM step s = .ok (l.foldl step' s) := by
  induction l generalizing s with
  | nil => rfl
  | cons a l ih =>
    rw [List.foldlM_cons, hstep]
    exact ih (step' s a)

theorem mapM_eq_map {g : α → β} (h : ∀ a ∈ l, f a = .ok (g a)) : l.mapM f = .ok (l.map g) := by
  induction l with
  | nil => rfl
  | cons a l ih =>
    rw [List.mapM_cons, h a List.mem_cons_self, ih fun b hb => h b (List.mem_cons_of_mem a hb)]
    rfl

/-- A loop whose turns end well or not whatever the state ends well exactly if all of them do. -/
theorem foldlM_ok_iff {step : σ → α → Except ε σ} {P : α → Prop}
    (hstep : ∀ s a, (∃ r, step s a = .ok r) ↔ P a) {s : σ} :
    (∃ r, l.foldlM step s = .ok r) ↔ ∀ a ∈ l, P a := by
  induction l generalizing s with
  | nil => exact ⟨fun _ a ha => absurd ha List.not_mem_nil, fun _ => ⟨s, rfl⟩⟩
  | cons a l ih =>
    rw [List.foldlM_cons, List.forall_mem_cons]
    constructor
    · rintro ⟨r, h⟩
      obtain ⟨s', ha, hl⟩ := bind_eq_ok.mp h
      exact ⟨(hstep s a).mp ⟨s', ha⟩, ih.mp ⟨r, hl⟩⟩
    · rintro ⟨ha, hl⟩
      obtain ⟨s', hs'⟩ := (hstep s a).mpr ha
      obtain ⟨r, hr⟩ := ih.mpr hl
      exact ⟨r, bind_eq_ok.mpr ⟨s', hs', hr⟩⟩

/-- A loop that computes something for each element and stores it ends well exactly if everything
    can be computed. -/
theorem exists_foldlM_ok_iff {store : σ → α → β → σ} {s : σ} :
    (∃ r, l.foldlM (fun s a => do let b ← f a; pure (store s a b)) s = .ok r) ↔
      ∀ a ∈ l, ∃ b, f a = .ok b := by
  refine foldlM_ok_iff fun s a => ⟨fun ⟨r, h⟩ => ?_, fun ⟨b, h⟩ => ?_⟩
  · obtain ⟨b, hb, -⟩ := bind_eq_ok.mp h
    exact ⟨b, hb⟩
  · exact ⟨store s a b, bind_eq_ok.mpr ⟨b, h, rfl⟩⟩

/-- A loop whose steps agree with those of another one under a map of the states. -/
theorem foldlM_map {τ : Type} {step : τ → α → Except ε τ} {step' : σ → α → Except ε σ} {g : σ → τ}
    (h : ∀ a ∈ l, ∀ s, step (g s) a = (step' s a).map g) (s : σ) :
    l.foldlM step (g s) = (l.foldlM step' s).map g := by
  induction l generalizing s with
  | nil => rfl
  | cons a l ih =>
    rw [List.foldlM_cons, List.foldlM_cons, h a (by simp)]
    cases step' s a with
    | error e => rfl
    | ok s' => exact ih (fun b hb => h b (by simp [hb])) s'

/-! ## One computation for another -/

theorem bind_then_map {γ : Type} (x : Except ε α) (f : α → Except ε β) (k : β → γ) :
    (x >>= f).map k = x >>= fun a => (f a).map k := by
  cases x <;> rfl

theorem map_then_bind {γ : Type} (x : Except ε α) (f : α → β) (k : β → Except ε γ) :
    x.map f >>= k = x >>= fun a => k (f a) := by
  cases x <;> rfl

theorem bind_eq_bind_of_map_eq {γ δ : Type} {y : Except ε β} {f : α → γ} {g : β → γ}
    {k : α → Except ε δ} {l : β → Except ε δ} (h : x.map f = y.map g)
    (hkl : ∀ a b, f a = g b → k a = l b) : x >>= k = y >>= l := by
  cases x with
  | error e =>
    cases y with
    | error e' =>
      cases h
      rfl
    | ok b => cases h
  | ok a =>
    cases y with
    | error e' => cases h
    | ok b => exact hkl a b (Except.ok.inj h)

theorem map_mapM {γ : Type} (f : α → Except ε β) (g : β → γ) (l : List α) :
    (l.mapM f).map (List.map g) = l.mapM fun a => (f a).map g := by
  induction l with
  | nil => rfl
  | cons a l ih =>
    rw [List.mapM_cons, List.mapM_cons, ← ih]
    cases f a with
    | error e => rfl
    | ok b => cases l.mapM f <;> rfl

/-- `y` does what `x` does, unless `x` fails with `e`. -/
def Extends (e : ε) (x y : Except ε α) : Prop := x = .error e ∨ y = x

section

variable {e : ε} {y : Except ε α}

theorem Extends.refl (e : ε) (x : Except ε α) : Extends e x x := Or.inr rfl

theorem Extends.ok {a : α} (h : Extends e x y) (hx : x = .ok a) : y = .ok a := by
  rcases h with h | h
  · cases h.symm.trans hx
  · exact h.trans hx

theorem Extends.map_bind {γ : Type} {k : α → γ} {z : Except ε γ} {g : γ → Except ε β}
    (h : Extends e (x.map k) z) (hf : ∀ a, Extends e (f a) (g (k a))) :
    Extends e (x >>= f) (z >>= g) := by
  cases x with
  | ok a =>
    rw [h.ok rfl]
    exact hf a
  | error e' =>
    rcases h with h | rfl
    · cases h
      exact Or.inl rfl
    · exact Or.inr rfl

theorem Extends.bind {g : α → Except ε β} (h : Extends e x y) (hf : ∀ a, Extends e (f a) (g a)) :
    Extends e (x >>= f) (y >>= g) :=
  Extends.map_bind (k := id) (by rwa [Except.map_id]) hf

theorem Extends.map (h : Extends e x y) (f : α → β) : Extends e (x.map f) (y.map f) := by
  rcases h with rfl | rfl
  · exact Or.inl rfl
  · exact Or.inr rfl

theorem Extends.mapM {g : α → Except ε β} (hf : ∀ a, Extends e (f a) (g a)) (l : List α) :
    Extends e (l.mapM f) (l.mapM g) := by
  induction l with
  | nil => exact .refl e _
  | cons a l ih =>
    rw [List.mapM_cons, List.mapM_cons]
    exact (hf a).bind fun _ => ih.bind fun _ => .refl e _

end

/-! ## The first of several faults -/

/-- Without a fault the computation succeeds, and else it fails with the first one. -/
def FailsBy : List ε → Except ε α → Prop
  | [], x => ∃ a, x = .ok a
  | e :: _, x => x = .error e

section

variable {es es' : List ε}

theorem FailsBy.ok (a : α) : FailsBy ([] : List ε) (.ok a) := ⟨a, rfl⟩

theorem FailsBy.bind (h : FailsBy es x) (hf : ∀ a, x = .ok a → FailsBy es' (f a)) :
    FailsBy (es ++ es') (x >>= f) := by
  cases es with
  | nil =>
    obtain ⟨a, rfl⟩ := h
    exact hf a rfl
  | cons e es =>
    rw [show x = .error e from h]
    rfl

theorem FailsBy.map (h : FailsBy es x) (f : α → β) : FailsBy es (x.map f) := by
  cases es with
  | nil =>
    obtain ⟨a, rfl⟩ := h
    exact ⟨f a, rfl⟩
  | cons e es =>
    rw [show x = .error e from h]
    rfl

theorem FailsBy.mapM {g : α → List ε} (h : ∀ a ∈ l, FailsBy (g a) (f a)) :
    FailsBy (l.flatMap g) (l.mapM f) := by
  induction l with
  | nil => exact .ok []
  | cons a l ih =>
    rw [List.mapM_cons, List.flatMap_cons]
    refine (h a (by simp)).bind fun b _ => ?_
    exact ((ih fun c hc => h c (by simp [hc])).map fun bs => b :: bs)

theorem FailsBy.head? {e : ε} (h : FailsBy es (.error e : Except ε α)) : es.head? = some e := by
  cases es with
  | nil =>
    obtain ⟨a, ha⟩ := h
    cases ha
  | cons e' es =>
    cases h
    rfl

theorem FailsBy.eq_nil {a : α} (h : FailsBy es (.ok a : Except ε α)) : es = [] := by
  cases es with
  | nil => rfl
  | cons e es => cases h

theorem failsBy_error {e : ε} (h : es.head? = some e) : FailsBy es (.error e : Except ε α) := by
  cases es with
  | nil => cases h
  | cons e' es =>
    cases h
    rfl

/-- A loop fails by what `walk` lists, if each turn either moves the list on or fails by its
    first. -/
theorem FailsBy.foldlM {step : σ → α → Except ε σ} (walk : σ → List α → List ε)
    (hnil : ∀ s, walk s [] = []) (hok : ∀ s a l s', step s a = .ok s' → walk s (a :: l) = walk s' l)
    (herror : ∀ s a l e, step s a = .error e → (walk s (a :: l)).head? = some e) (l : List α)
    (s : σ) : FailsBy (walk s l) (l.foldlM step s) := by
  induction l generalizing s with
  | nil =>
    rw [hnil]
    exact .ok s
  | cons a l ih =>
    rw [List.foldlM_cons]
    cases hs : step s a with
    | error e => exact failsBy_error (herror s a l e hs)
    | ok s' =>
      rw [hok s a l s' hs]
      exact ih s'

theorem FailsBy.ne_error_iff (h : FailsBy es x) (e : ε) : x ≠ .error e ↔ es.head? ≠ some e := by
  cases es with
  | nil =>
    obtain ⟨a, rfl⟩ := h
    simp
  | cons e' es =>
    rw [show x = .error e' from h]
    simp

end

end Free5gc.Lib
