/-
  Which SM context a session id resolves to. All requests here are for one subscriber and one
  PDU session id, so `canonicalRef` has one entry. A create request looks the id up, releases
  the context it finds under that context's lock, stores its own context in `smContextPool`
  and then in `canonicalRef` (NewSMContext), and goes on under the lock of the new context.
  Releases start removers, which wait for the lock of their context and delete it from the
  pool and then the entry of the session id, whatever it names (RemoveSMContext).

  The create requests are numbered, and the context that request `j` creates is named `j`. A
  run is any interleaving of the steps of any number of create requests, of releases and
  updates of created contexts, and of removers.

  The entry of a newer context is deleted by the remover of an older one
  (`recreated_session_not_found`). `resolveRef_names_newest_iff`: the entry names the newest
  context at every time exactly if each remover gets to its last step when no other context of
  the session id is left.
-/
import Free5gc.Lib.Run
import Free5gc.Smf.Session.Handlers
import Mathlib.Data.List.Nodup

namespace Free5gc.Smf.Session

open Free5gc.Lib

/-- Where a create request stands. -/
inductive CreatePhase where
  | start
  /-- `ResolveRef` has named a context -/
  | resolved (ref : Nat)
  /-- `GetSMContextById` has found it -/
  | found (ref : Nat)
  /-- no duplicate, or its local release is over -/
  | releasedDup
  /-- the new context is in `smContextPool` -/
  | stored
  /-- and in `canonicalRef` -/
  | registered
  /-- the request has the lock of the new context -/
  | locked
  | done
  deriving DecidableEq, Repr

structure Refs where
  phase : Nat → CreatePhase
  smContextPool : Nat → Bool
  canonicalRef : Option Nat
  /-- the removers of a context that wait for its lock -/
  removers : Nat → Nat
  /-- what the remover that has the lock of a context still has to do -/
  removing : Nat → List Effect
  /-- the contexts that were registered and are not removed, the newest first -/
  live : List Nat

inductive RefsEvent where
  /-- `canonicalRef.Load` of a create request -/
  | resolveRef (j : Nat)
  /-- `smContextPool.Load` of a create request -/
  | load (j : Nat)
  /-- the local release of the duplicate, with the duplicate's context -/
  | localRelease (j : Nat) (c : SMContext) (d : Deletions)
  /-- `smContextPool.Store` of a create request -/
  | store (j : Nat)
  /-- `canonicalRef.Store` of a create request -/
  | register (j : Nat)
  | lock (j : Nat)
  /-- a create request ends, and gives its context up if it fails -/
  | finish (j : Nat) (ok : Bool)
  /-- a network release of a created context -/
  | release (ref : Nat) (c : SMContext) (d : Deletions)
  /-- an update of a created context -/
  | update (ref : Nat) (c : SMContext) (u : Update)
  /-- a remover gets the lock and looks its context up -/
  | remove (ref : Nat) (c : SMContext)
  /-- a remover does its next step -/
  | act (ref : Nat)

namespace Refs

def empty : Refs where
  phase _ := .start
  smContextPool _ := false
  canonicalRef := none
  removers _ := 0
  removing _ := []
  live := []

def goto (s : Refs) (j : Nat) (p : CreatePhase) : Refs :=
  { s with phase := Function.update s.phase j p }

/-- Start the removers that a handler of the context asks for. -/
def spawn (s : Refs) (ref : Nat) (es : List Effect) : Refs :=
  { s with removers := Function.update s.removers ref (s.removers ref + es.count .goRemove) }

/-- Nobody has the lock of the context. -/
def LockFree (s : Refs) (ref : Nat) : Prop := s.removing ref = [] ∧ s.phase ref ≠ .locked

instance (s : Refs) (ref : Nat) : Decidable (s.LockFree ref) :=
  inferInstanceAs (Decidable (_ ∧ _))

/-- A step of the remover of `ref`. Only the deletions in the two maps are seen here; the last
    one ends the removal. -/
def perform (s : Refs) (ref : Nat) : Effect → Refs
  | .deleteRef => { s with smContextPool := Function.update s.smContextPool ref false }
  | .deleteCanonical => { s with canonicalRef := none, live := s.live.erase ref }
  | _ => s

def step (s : Refs) : RefsEvent → Option Refs
  | .resolveRef j =>
    if s.phase j = .start then
      match s.canonicalRef with
      | some ref => some (s.goto j (.resolved ref))
      | none => some (s.goto j .releasedDup)
    else none
  | .load j =>
    match s.phase j with
    | .resolved ref =>
      if s.smContextPool ref then some (s.goto j (.found ref)) else some (s.goto j .releasedDup)
    | _ => none
  | .localRelease j c d =>
    match s.phase j with
    | .found ref =>
      if s.LockFree ref then
        some ((s.spawn ref (handlePDUSessionSMContextLocalRelease c d).effects).goto j .releasedDup)
      else none
    | _ => none
  | .store j =>
    if s.phase j = .releasedDup then
      some ({ s with smContextPool := Function.update s.smContextPool j true }.goto j .stored)
    else none
  | .register j =>
    if s.phase j = .stored then
      some ({ s with canonicalRef := some j, live := j :: s.live }.goto j .registered)
    else none
  | .lock j =>
    if s.phase j = .registered ∧ s.removing j = [] then some (s.goto j .locked) else none
  | .finish j ok =>
    if s.phase j = .locked then
      if ok then some (s.goto j .done)
      -- makeEstRejectResAndReleaseSMContext calls RemoveSMContextFromAllNF
      else some ((s.spawn j [.unSubscribe, .goRemove]).goto j .done)
    else none
  | .release ref c d =>
    if s.phase ref = .done ∧ s.LockFree ref then
      some (s.spawn ref (handlePDUSessionSMContextRelease c d).effects)
    else none
  | .update ref c u =>
    if s.phase ref = .done ∧ s.LockFree ref then
      some (s.spawn ref (handlePDUSessionSMContextUpdate c u).effects)
    else none
  | .remove ref c =>
    if 0 < s.removers ref ∧ s.LockFree ref then
      let s := { s with removers := Function.update s.removers ref (s.removers ref - 1) }
      if s.smContextPool ref then
        some { s with removing := Function.update s.removing ref (removeSMContext c).effects }
      else some s
    else none
  | .act ref =>
    match s.removing ref with
    | [] => none
    | e :: es => some ({ s with removing := Function.update s.removing ref es }.perform ref e)

/-! ## Findable contexts -/

/-- `ResolveRef` names the newest context that is not removed. -/
def Findable (s : Refs) : Prop := s.canonicalRef = s.live.head?

/-- A remover deletes the entry of the session id only when no context but its own is left. -/
def Sole (s : Refs) : RefsEvent → Prop
  | .act ref => (s.removing ref).head? = some .deleteCanonical → ∀ ref' ∈ s.live, ref' = ref
  | _ => True

/-- A context is live once, from its registration on. -/
structure Orderly (s : Refs) : Prop where
  nodup : s.live.Nodup
  registered : ∀ ref ∈ s.live,
    s.phase ref = .registered ∨ s.phase ref = .locked ∨ s.phase ref = .done

variable {s : Refs}

theorem orderly_empty : Orderly empty := ⟨List.nodup_nil, by simp [empty]⟩

theorem Orderly.goto (h : s.Orderly) {j : Nat} {p : CreatePhase}
    (hp : s.phase j = .registered ∨ s.phase j = .locked ∨ s.phase j = .done →
      p = .registered ∨ p = .locked ∨ p = .done) : (s.goto j p).Orderly where
  nodup := h.nodup
  registered ref href := by
    by_cases hj : ref = j
    · subst hj
      simpa [Refs.goto] using hp (h.registered ref href)
    · simpa [Refs.goto, hj] using h.registered ref href

theorem Orderly.spawn (h : s.Orderly) (ref : Nat) (es : List Effect) : (s.spawn ref es).Orderly :=
  ⟨h.nodup, h.registered⟩

theorem erase_eq_nil_iff {l : List Nat} (h : l.Nodup) (a : Nat) :
    l.erase a = [] ↔ ∀ b ∈ l, b = a := by
  simp only [List.eq_nil_iff_forall_not_mem, h.mem_erase_iff, not_and, ne_eq]
  refine forall_congr' fun b => ⟨fun hb hm => ?_, fun hb hne hm => hne (hb hm)⟩
  exact by_contra fun hne => hb hne hm

/-- The last step of a remover keeps the entry right exactly if its context is the only one. -/
theorem findable_perform_deleteCanonical (h : s.Orderly) (ref : Nat) :
    (s.perform ref .deleteCanonical).Findable ↔ ∀ ref' ∈ s.live, ref' = ref := by
  rw [← erase_eq_nil_iff h.nodup, ← List.head?_eq_none_iff]
  exact eq_comm

/-- No other effect of a remover touches the entry. -/
theorem findable_perform_iff (h : s.Orderly) (hf : s.Findable) (ref : Nat) (e : Effect) :
    (s.perform ref e).Findable ↔ (e = .deleteCanonical → ∀ ref' ∈ s.live, ref' = ref) := by
  cases e with
  | deleteCanonical =>
    rw [findable_perform_deleteCanonical h ref]
    simp
  | _ => exact iff_of_true hf (fun heq => by cases heq)

theorem Orderly.perform (h : s.Orderly) (ref : Nat) (e : Effect) : (s.perform ref e).Orderly := by
  cases e with
  | deleteCanonical =>
    exact ⟨h.nodup.erase ref, fun ref' href' => h.registered ref' (List.mem_of_mem_erase href')⟩
  | _ => exact ⟨h.nodup, h.registered⟩

theorem Orderly.register (h : s.Orderly) {j : Nat} (hj : s.phase j = .stored) :
    ({ s with canonicalRef := some j, live := j :: s.live }.goto j .registered).Orderly where
  nodup := by
    refine List.nodup_cons.mpr ⟨fun hmem => ?_, h.nodup⟩
    simpa [hj] using h.registered j hmem
  registered ref href := by
    by_cases hr : ref = j
    · subst hr
      simp [Refs.goto]
    · rcases List.mem_cons.mp href with heq | hmem
      · exact absurd heq hr
      · simpa [Refs.goto, hr] using h.registered ref hmem

theorem step_spec (s : Refs) (e : RefsEvent) (s' : Refs) (hstep : s.step e = some s')
    (h : s.Orderly) (hf : s.Findable) : s'.Orderly ∧ (s'.Findable ↔ s.Sole e) := by
  cases e with
  | resolveRef j =>
    simp only [step] at hstep
    split_ifs at hstep with hj
    split at hstep <;> cases hstep <;>
      exact ⟨h.goto (by simp [hj]), iff_of_true hf trivial⟩
  | load j =>
    simp only [step] at hstep
    split at hstep
    · rename_i ref hj
      split_ifs at hstep <;> cases hstep <;>
        exact ⟨h.goto (by simp [hj]), iff_of_true hf trivial⟩
    · cases hstep
  | localRelease j c d =>
    simp only [step] at hstep
    split at hstep
    · rename_i ref hj
      split_ifs at hstep
      cases hstep
      exact ⟨(h.spawn ref _).goto (by simp [spawn, hj]), iff_of_true hf trivial⟩
    · cases hstep
  | store j =>
    simp only [step] at hstep
    split_ifs at hstep with hj
    cases hstep
    have hpool : Orderly { s with smContextPool := Function.update s.smContextPool j true } :=
      ⟨h.nodup, h.registered⟩
    exact ⟨hpool.goto (by simp [hj]), iff_of_true hf trivial⟩
  | register j =>
    simp only [step] at hstep
    split_ifs at hstep with hj
    cases hstep
    exact ⟨h.register hj, iff_of_true rfl trivial⟩
  | lock j =>
    simp only [step] at hstep
    split_ifs at hstep
    cases hstep
    exact ⟨h.goto (by simp), iff_of_true hf trivial⟩
  | finish j ok =>
    simp only [step] at hstep
    split_ifs at hstep
    · cases hstep
      exact ⟨h.goto (by simp), iff_of_true hf trivial⟩
    · cases hstep
      exact ⟨(h.spawn j _).goto (by simp), iff_of_true hf trivial⟩
  | release ref c d =>
    simp only [step] at hstep
    split_ifs at hstep
    cases hstep
    exact ⟨h.spawn ref _, iff_of_true hf trivial⟩
  | update ref c u =>
    simp only [step] at hstep
    split_ifs at hstep
    cases hstep
    exact ⟨h.spawn ref _, iff_of_true hf trivial⟩
  | remove ref c =>
    simp only [step] at hstep
    split_ifs at hstep <;> cases hstep <;>
      exact ⟨⟨h.nodup, h.registered⟩, iff_of_true hf trivial⟩
  | act ref =>
    simp only [step] at hstep
    split at hstep
    · cases hstep
    · rename_i e es hqueue
      cases hstep
      have hpop : Orderly { s with removing := Function.update s.removing ref es } :=
        ⟨h.nodup, h.registered⟩
      refine ⟨hpop.perform ref e, ?_⟩
      rw [findable_perform_iff hpop hf ref e]
      simp only [Sole, hqueue, List.head?_cons, Option.some.injEq]

theorem sole_of_step_eq_none (s : Refs) (e : RefsEvent) (hstep : s.step e = none) : s.Sole e := by
  cases e with
  | act ref =>
    simp only [step] at hstep
    split at hstep
    · rename_i hqueue
      simp [Sole, hqueue]
    · cases hstep
  | _ => trivial

/-- In an interleaving of create requests for one session id, of releases and updates of the
    contexts they create and of the removers these start, `ResolveRef` names the newest context
    that is not removed at every time, if and only if every remover deletes the entry when no
    context but its own is left. -/
theorem resolveRef_names_newest_iff (es : List RefsEvent) :
    (∀ n s, Run step empty (es.take n) s → s.Findable) ↔ RunMeets step Sole empty es :=
  forall_take_iff_runMeets Orderly Findable step_spec sole_of_step_eq_none es orderly_empty rfl

/-- A context in use, and a PFCP deletion that succeeds. -/
def sampleContext : SMContext where
  state := .active
  selectedUPF := true
  pDUAddress := some 10
  anIPAddress := true
  nrdcIndicator := false
  pDUSessionReleaseDueToDupPduId := false
  tunnel := [7]
  dcTunnel := []

/-- A session is created and then created again; the remover of the first context runs when
    the second is registered, and the session is not found any more. -/
theorem recreated_session_not_found :
    ∃ es s, Run step empty es s ∧ s.live = [1] ∧ s.phase 1 = .registered ∧
      s.smContextPool 1 = true ∧ s.canonicalRef = none := by
  refine ⟨[.resolveRef 0, .store 0, .register 0, .lock 0, .finish 0 true,
    .resolveRef 1, .load 1, .localRelease 1 sampleContext ⟨fun _ => .accepted, fun _ => .accepted⟩,
    .store 1, .register 1, .remove 0 sampleContext, .act 0, .act 0, .act 0], _,
    run_iff_foldlM.mpr rfl, rfl, rfl, rfl, rfl⟩

end Refs

end Free5gc.Smf.Session
