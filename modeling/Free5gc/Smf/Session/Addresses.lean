/-
  When the address of a PDU session may be handed out again. Contexts are released by updates,
  by network releases and by local releases, each under the lock of its context and each with
  any outcome of its PFCP deletion requests; what a handler does outside of its context is
  done one effect at a time, interleaved with the effects of the others.

  The network release and the remover return the address after the deletion requests, but
  whether these were accepted or not, and the N1 release request returns it before them. So
  an address can be free, or with another UE, while a UPF still forwards for the context that
  had it: `address_reused_while_forwarding` is such a run, in which the old context is Active.
  `address_kept_while_forwarding` says which requests and outcomes are needed: no release
  message from the UE while a PFCP session lives, and accepted deletions wherever the context
  is removed regardless of them.
-/
import Free5gc.Lib.Run
import Free5gc.Smf.Session.Handlers
import Mathlib.Data.Finset.Basic

namespace Free5gc.Smf.Session

open Free5gc.Lib

/-! ## What a list of effects does -/

/-- The addresses that the effects return, in order. -/
def freed (es : List Effect) : List UInt32 :=
  es.filterMap fun
    | .releaseUEIP addr => some addr
    | _ => none

/-- What an effect leaves of the PFCP sessions of its context. -/
def Effect.leaves (S : Finset Nat) : Effect → Finset Nat
  | .deletePfcpSession upf outcome => if outcome.deletes then S.erase upf else S
  | _ => S

/-- What the effects leave of the PFCP sessions `S`. -/
def remaining (S : Finset Nat) (es : List Effect) : Finset Nat := es.foldl Effect.leaves S

variable {S : Finset Nat} {c : SMContext} {d : Deletions} {p : Progress} {u : Update}

@[simp] theorem freed_append (es fs : List Effect) : freed (es ++ fs) = freed es ++ freed fs :=
  List.filterMap_append

@[simp] theorem freed_releaseTunnel (upfs : List Nat) (d : Nat → Deletion) :
    freed (Progress.releaseTunnel upfs d) = [] := by
  simp [freed, Progress.releaseTunnel]

@[simp] theorem remaining_nil (S : Finset Nat) : remaining S [] = S := rfl

@[simp] theorem remaining_cons (S : Finset Nat) (e : Effect) (es : List Effect) :
    remaining S (e :: es) = remaining (e.leaves S) es := rfl

theorem mem_remaining {es : List Effect} {x : Nat} :
    x ∈ remaining S es ↔
      x ∈ S ∧ ∀ outcome, .deletePfcpSession x outcome ∈ es → outcome.deletes = false := by
  induction es generalizing S with
  | nil => simp
  | cons e es ih =>
    rw [remaining_cons, ih]
    cases e with
    | deletePfcpSession upf outcome =>
      by_cases hx : x = upf
      · subst hx
        by_cases hd : outcome.deletes <;> simp [Effect.leaves, hd]
      · by_cases hd : outcome.deletes <;> simp [Effect.leaves, hd, hx]
    | _ => simp [Effect.leaves]

theorem remaining_empty (es : List Effect) : remaining ∅ es = ∅ := by
  ext x
  simp [mem_remaining]

/-! ## What a release of the session does -/

@[simp] theorem freed_deletions (c : SMContext) (d : Deletions) : freed (deletions c d) = [] := by
  unfold deletions
  split <;> simp

theorem goRemove_notMem_deletions (c : SMContext) (d : Deletions) :
    Effect.goRemove ∉ deletions c d := by
  unfold deletions
  split <;> simp [Progress.releaseTunnel]

/-- A successful release leaves no session on the UPFs of the context. -/
theorem remaining_deletions {es : List Effect} (hreach : ∀ x ∈ S, x ∈ c.reach)
    (hd : sessionReleased c d = true) (hes : ∀ e ∈ deletions c d, e ∈ es) : remaining S es = ∅ := by
  rw [Finset.eq_empty_iff_forall_notMem]
  intro x hx
  obtain ⟨hxS, hkept⟩ := mem_remaining.mp hx
  have hdel : Effect.deletePfcpSession x .accepted ∉ es :=
    fun h => absurd (hkept _ h) (by simp [Deletion.deletes])
  have hmem : Effect.deletePfcpSession x .accepted ∈ deletions c d := by
    have hr := hreach x hxS
    simp only [sessionReleased, Progress.released, Bool.and_eq_true, List.all_eq_true,
      decide_eq_true_eq, Bool.or_eq_true, Bool.not_eq_true'] at hd
    unfold SMContext.reach at hr
    unfold deletions
    cases hn : c.nrdcIndicator with
    | false =>
      simp only [hn, Bool.false_eq_true, if_false] at hr
      simp only [Bool.and_false, Bool.false_eq_true, if_false, List.append_nil]
      exact List.mem_map.mpr ⟨x, List.mem_dedup.mpr hr, by rw [hd.1 x hr]⟩
    | true =>
      have hfirst : Progress.released c.tunnel d.tunnel = true := by
        simpa [Progress.released] using hd.1
      simp only [hn, if_true, List.mem_append] at hr
      simp only [hfirst, Bool.and_true, if_true, List.mem_append]
      rcases hr with hr | hr
      · exact Or.inl (List.mem_map.mpr ⟨x, List.mem_dedup.mpr hr, by rw [hd.1 x hr]⟩)
      · have hacc := (hd.2.resolve_left (by simp [hn])) x hr
        exact Or.inr (List.mem_map.mpr ⟨x, List.mem_dedup.mpr hr, by rw [hacc]⟩)
  exact hdel (hes _ hmem)

/-! ## What the handlers do with the address

A handler returns at most one address, the one its context owns, and the context owns none
afterwards. -/

/-- The handler went from `p` to `q` without touching the address. -/
def SameAddress (p q : Progress) : Prop :=
  freed q.effects = freed p.effects ∧ q.ctx.owned = p.ctx.owned

theorem SameAddress.trans {q r : Progress} (h : SameAddress p q) (h' : SameAddress q r) :
    SameAddress p r :=
  ⟨h'.1.trans h.1, h'.2.trans h.2⟩

/-- The switch at the end of an update sets the state, and not to InActive. -/
theorem handleState_spec (u : Update) (p : Progress) :
    (u.handleState p).effects = p.effects ∧
      ∃ s, (u.handleState p).ctx = { p.ctx with state := s } ∧
        (s = .inActive → p.ctx.state = .inActive) := by
  have hset : ∀ (q : Progress) (s : SMContextState), s ≠ .inActive → q.effects = p.effects →
      q.ctx = p.ctx → (q.setState s).effects = p.effects ∧
        ∃ s', (q.setState s).ctx = { p.ctx with state := s' } ∧
          (s' = .inActive → p.ctx.state = .inActive) :=
    fun q s hs hes hctx => ⟨hes, s, by simp [Progress.setState, hctx], fun h => absurd h hs⟩
  have hkeep : ∀ q : Progress, q.effects = p.effects → q.ctx = p.ctx → q.effects = p.effects ∧
      ∃ s', q.ctx = { p.ctx with state := s' } ∧ (s' = .inActive → p.ctx.state = .inActive) :=
    fun q hes hctx => ⟨hes, p.ctx.state, hctx, id⟩
  unfold Update.handleState
  split
  · by_cases hs : p.sendPFCPModification
    · simp only [hs, if_true]
      split <;> first | exact hset _ _ (by decide) rfl rfl | exact hkeep _ rfl rfl
    · simp only [hs, Bool.false_eq_true, if_false]
      split <;> first | exact hset _ _ (by decide) rfl rfl | exact hkeep _ rfl rfl
  · exact hset _ _ (by decide) rfl rfl
  · exact hkeep _ rfl rfl

theorem sameAddress_setState (p : Progress) (s : SMContextState) : SameAddress p (p.setState s) :=
  ⟨rfl, rfl⟩

theorem sameAddress_releaseSession (p : Progress) (d : Deletions) :
    SameAddress p (p.releaseSession d) := by
  rw [releaseSession_eq]
  exact ⟨by simp, rfl⟩

theorem sameAddress_removeSMContextFromAllNF (p : Progress) :
    SameAddress p p.removeSMContextFromAllNF :=
  ⟨by simp [Progress.removeSMContextFromAllNF, Progress.emit, Progress.setState, freed], rfl⟩

theorem sameAddress_handleUpCnxState (u : Update) (p : Progress) :
    SameAddress p (u.handleUpCnxState p) := by
  unfold Update.handleUpCnxState
  split <;> exact ⟨rfl, rfl⟩

theorem sameAddress_handleHoState (u : Update) (p : Progress) :
    SameAddress p (u.handleHoState p) := by
  unfold Update.handleHoState
  split <;> exact ⟨rfl, rfl⟩

theorem sameAddress_handleN2 (u : Update) (p : Progress) : SameAddress p (u.handleN2 p) := by
  unfold Update.handleN2
  split
  · dsimp only
    split
    · exact sameAddress_removeSMContextFromAllNF
        { p with ctx := { p.ctx with anIPAddress := false } }
    · exact ⟨rfl, rfl⟩
  · exact ⟨rfl, rfl⟩
  · exact ⟨rfl, rfl⟩

theorem sameAddress_handleCause (u : Update) (p : Progress) : SameAddress p (u.handleCause p) := by
  unfold Update.handleCause
  split
  · have hflag : SameAddress p
        { p with ctx := { p.ctx with pDUSessionReleaseDueToDupPduId := true } } := ⟨rfl, rfl⟩
    dsimp only
    split
    · exact hflag.trans (sameAddress_releaseSession _ _)
    · exact hflag.trans (sameAddress_releaseSession _ _)
    · exact hflag.trans (sameAddress_releaseSession _ _)
    · exact hflag
  · exact ⟨rfl, rfl⟩

theorem sameAddress_handleState (u : Update) (p : Progress) : SameAddress p (u.handleState p) := by
  obtain ⟨hes, s, hctx, -⟩ := handleState_spec u p
  refine ⟨by rw [hes], ?_⟩
  rw [hctx]
  rfl

theorem sameAddress_handleDup (p : Progress) : SameAddress p (Update.handleDup p) := by
  unfold Update.handleDup
  split
  · exact sameAddress_removeSMContextFromAllNF p
  · exact ⟨rfl, rfl⟩

/-- The handler that got to `p` returned nothing, or the address that its context owned. -/
def Frees (c : SMContext) (p : Progress) : Prop :=
  (freed p.effects = [] ∧ p.ctx.owned = c.owned) ∨
    ∃ addr, c.owned = some addr ∧ p.ctx.owned = none ∧ freed p.effects = [addr]

theorem Frees.trans {q : Progress} (h : Frees c p) (hs : SameAddress p q) : Frees c q := by
  rcases h with ⟨hf, ho⟩ | ⟨addr, hc, ho, hf⟩
  · exact Or.inl ⟨hs.1.trans hf, hs.2.trans ho⟩
  · exact Or.inr ⟨addr, hc, hs.2.trans ho, hs.1.trans hf⟩

theorem frees_handleN1 (u : Update) (c : SMContext) :
    Frees c (u.handleN1 (Progress.mk c [] .sessionEstablishSuccess false)) := by
  unfold Update.handleN1
  split
  · refine Frees.trans ?_ (sameAddress_releaseSession _ _)
    cases hc : c.owned with
    | none =>
      exact Or.inl ⟨by simp [Progress.emit, Progress.setState, freed], rfl⟩
    | some addr =>
      refine Or.inr ⟨addr, hc, ?_, ?_⟩
      · show (if c.selectedUPF then none else none) = none
        split <;> rfl
      · simp [Progress.emit, Progress.setState, freed]
  · have hset : Frees c ((Progress.mk c [] .sessionEstablishSuccess false).setState .inActive) :=
      Or.inl ⟨rfl, rfl⟩
    dsimp only
    split
    · exact hset
    · exact hset.trans (sameAddress_removeSMContextFromAllNF _)
  · exact Or.inl ⟨rfl, rfl⟩

theorem frees_update (c : SMContext) (u : Update) :
    Frees c (handlePDUSessionSMContextUpdate c u) := by
  unfold handlePDUSessionSMContextUpdate
  exact (frees_handleN1 u c).trans
    (((((sameAddress_handleUpCnxState u _).trans (sameAddress_handleN2 u _)).trans
      (sameAddress_handleHoState u _)).trans (sameAddress_handleCause u _)).trans
      ((sameAddress_handleState u _).trans (sameAddress_handleDup _)))

/-- Both releases start with the same part. -/
theorem frees_releaseSession (c : SMContext) (d : Deletions) :
    Frees c ((Progress.mk c [.unSubscribe] .sessionEstablishSuccess false).releaseSession d) := by
  have hstart : Frees c (Progress.mk c [.unSubscribe] .sessionEstablishSuccess false) :=
    Or.inl ⟨rfl, rfl⟩
  exact hstart.trans (sameAddress_releaseSession _ d)

theorem frees_localRelease (c : SMContext) (d : Deletions) :
    Frees c (handlePDUSessionSMContextLocalRelease c d) := by
  unfold handlePDUSessionSMContextLocalRelease
  have hrel := frees_releaseSession c d
  dsimp only
  split
  · exact hrel.trans ((sameAddress_setState _ _).trans (sameAddress_removeSMContextFromAllNF _))
  · exact hrel.trans (sameAddress_setState _ _)

theorem frees_release (c : SMContext) (d : Deletions) :
    Frees c (handlePDUSessionSMContextRelease c d) := by
  unfold handlePDUSessionSMContextRelease
  have hrel := frees_releaseSession c d
  dsimp only
  split
  · exact hrel.trans ((sameAddress_setState _ _).trans (sameAddress_removeSMContextFromAllNF _))
  · exact hrel.trans ((sameAddress_setState _ _).trans (sameAddress_removeSMContextFromAllNF _))

theorem frees_remove (c : SMContext) : Frees c (removeSMContext c) := by
  unfold removeSMContext
  cases hc : c.owned with
  | none => exact Or.inl ⟨rfl, rfl⟩
  | some addr => exact Or.inr ⟨addr, hc, by simp [SMContext.owned], rfl⟩

/-! ## What the handlers do with the PFCP sessions -/

/-- What a handler of a context `c` with the PFCP sessions `S` must do for the address to
    stay with the context while a session lives. -/
structure Handled (S : Finset Nat) (c : SMContext) (p : Progress) : Prop where
  frees : Frees c p
  keeps : S.Nonempty → p.ctx.owned = c.owned
  reaches : ∀ x ∈ S, x ∈ p.ctx.reach
  gone : .goRemove ∈ p.effects ∨ p.ctx.state = .inActive ∨
    p.ctx.pDUSessionReleaseDueToDupPduId = true → remaining S p.effects = ∅

theorem handled_of_empty (h : Frees c p) : Handled ∅ c p where
  frees := h
  keeps := by simp
  reaches := by simp
  gone := fun _ => remaining_empty p.effects

/-- The UPFs that a release after the change sends deletion requests to. -/
def Change.reach (ch : Change) : List Nat :=
  if ch.nrdcIndicator then ch.tunnel ++ ch.dcTunnel else ch.tunnel

/-- The parts of an update that change the context. -/
def Update.changes (u : Update) : List Change :=
  u.upCnxState.toList ++
    (match u.n2SmInfo with
      | some (.other ch) => [ch]
      | _ => []) ++
    u.hoState.toList

/-- An update that is harmless for a context with living PFCP sessions: no release message,
    tunnels that still pass through the UPFs of these sessions, and, if the session is given
    up as a duplicate, nothing else, from a state in which that sends deletion requests, all
    of them accepted. -/
def Update.Harmless (u : Update) (S : Finset Nat) (c : SMContext) : Prop :=
  u.n1SmMessage = none ∧
    (∀ ch ∈ u.changes, ∀ x ∈ S, x ∈ ch.reach) ∧
    (u.relDueToDuplicateSessionId = true → u.changes = [] ∧ u.dupDeletions.Accepted ∧
      (c.state = .activePending ∨ c.state = .modificationPending ∨ c.state = .active))

/-- The progress of a harmless update that gives nothing up. -/
structure Calm (S : Finset Nat) (c : SMContext) (p : Progress) : Prop where
  effects : p.effects = []
  owned : p.ctx.owned = c.owned
  state : p.ctx.state ≠ .inActive
  dup : p.ctx.pDUSessionReleaseDueToDupPduId = false
  reaches : ∀ x ∈ S, x ∈ p.ctx.reach

theorem Calm.change (h : Calm S c p) {ch : Change} (hch : ∀ x ∈ S, x ∈ ch.reach) :
    Calm S c (ch.apply p) where
  effects := h.effects
  owned := h.owned
  state := by
    cases hs : ch.state with
    | none => simpa [Change.apply, hs] using h.state
    | some s =>
      have hne : s ≠ .inActive := fun heq => ch.state_ne (by rw [hs, heq])
      simpa [Change.apply, hs] using hne
  dup := h.dup
  reaches := hch

theorem Calm.handleUpCnxState (h : Calm S c p) (hch : ∀ ch ∈ u.changes, ∀ x ∈ S, x ∈ ch.reach) :
    Calm S c (u.handleUpCnxState p) := by
  unfold Update.handleUpCnxState
  cases hu : u.upCnxState with
  | none => exact h
  | some ch => exact h.change (hch ch (by simp [Update.changes, hu]))

theorem Calm.handleN2 (h : Calm S c p) (hch : ∀ ch ∈ u.changes, ∀ x ∈ S, x ∈ ch.reach) :
    Calm S c (u.handleN2 p) := by
  unfold Update.handleN2
  cases hu : u.n2SmInfo with
  | none => exact h
  | some info =>
    cases info with
    | pduResRelRsp =>
      simp only [h.state, if_false]
      exact ⟨h.effects, h.owned, h.state, h.dup, h.reaches⟩
    | other ch => exact h.change (hch ch (by simp [Update.changes, hu]))

theorem Calm.handleHoState (h : Calm S c p) (hch : ∀ ch ∈ u.changes, ∀ x ∈ S, x ∈ ch.reach) :
    Calm S c (u.handleHoState p) := by
  unfold Update.handleHoState
  cases hu : u.hoState with
  | none => exact h
  | some ch => exact h.change (hch ch (by simp [Update.changes, hu]))

theorem Calm.handleState (u : Update) (h : Calm S c p) : Calm S c (u.handleState p) := by
  obtain ⟨hes, s, hctx, hs⟩ := handleState_spec u p
  refine ⟨hes.trans h.effects, ?_, ?_, ?_, ?_⟩
  · rw [hctx]
    exact h.owned
  · rw [hctx]
    exact fun heq => h.state (hs heq)
  · rw [hctx]
    exact h.dup
  · rw [hctx]
    exact h.reaches

theorem Calm.handled (h : Calm S c p) : Handled S c p where
  frees := Or.inl ⟨by rw [h.effects]; rfl, h.owned⟩
  keeps := fun _ => h.owned
  reaches := h.reaches
  gone := by
    rintro (hgo | hstate | hdup)
    · simp [h.effects] at hgo
    · exact absurd hstate h.state
    · simp [h.dup] at hdup

/-- A successful release of the session, followed by the removal of the context. -/
theorem handled_given_up (hfrees : Frees c p) (howned : p.ctx.owned = c.owned)
    (hreach : ∀ x ∈ S, x ∈ c.reach) (hreach' : p.ctx.reach = c.reach)
    (hd : sessionReleased c d = true) (hes : ∀ e ∈ deletions c d, e ∈ p.effects) :
    Handled S c p where
  frees := hfrees
  keeps := fun _ => howned
  reaches := by rwa [hreach']
  gone := fun _ => remaining_deletions hreach hd hes

theorem handleCause_of_dup (hcause : u.relDueToDuplicateSessionId = true)
    (hstate : p.ctx.state = .activePending ∨ p.ctx.state = .modificationPending ∨
      p.ctx.state = .active) :
    u.handleCause p =
      Progress.releaseSession
        { p with ctx := { p.ctx with pDUSessionReleaseDueToDupPduId := true } } u.dupDeletions := by
  simp only [Update.handleCause, hcause, if_true]
  rcases hstate with h | h | h <;> rw [h]

/-- An update without changes gets to its cause with the context as it was, up to the AN
    information. -/
theorem stages_of_changes_nil (hn1 : u.n1SmMessage = none) (hnone : u.changes = [])
    (hstate : c.state ≠ .inActive) :
    ∃ an, u.handleHoState (u.handleN2 (u.handleUpCnxState
        (u.handleN1 (Progress.mk c [] .sessionEstablishSuccess false)))) =
      Progress.mk { c with anIPAddress := an } [] .sessionEstablishSuccess false := by
  simp only [Update.changes, List.append_eq_nil_iff, Option.toList_eq_nil_iff] at hnone
  obtain ⟨⟨hup, hn2⟩, hho⟩ := hnone
  simp only [Update.handleN1, hn1, Update.handleUpCnxState, hup, Update.handleHoState, hho]
  unfold Update.handleN2
  cases hinfo : u.n2SmInfo with
  | none => exact ⟨c.anIPAddress, rfl⟩
  | some info =>
    cases info with
    | pduResRelRsp =>
      simp only [hstate, if_false]
      exact ⟨false, rfl⟩
    | other ch => simp [hinfo] at hn2

theorem handled_update_dup (hreach : ∀ x ∈ S, x ∈ c.reach) (hn1 : u.n1SmMessage = none)
    (hcause : u.relDueToDuplicateSessionId = true) (hnone : u.changes = [])
    (hacc : u.dupDeletions.Accepted)
    (hfrom : c.state = .activePending ∨ c.state = .modificationPending ∨ c.state = .active) :
    Handled S c (handlePDUSessionSMContextUpdate c u) := by
  have hstate : c.state ≠ .inActive := by
    rcases hfrom with h | h | h <;> rw [h] <;> decide
  obtain ⟨an, hstages⟩ := stages_of_changes_nil hn1 hnone hstate
  have hfrees := frees_update c u
  unfold handlePDUSessionSMContextUpdate at hfrees ⊢
  dsimp only at hfrees ⊢
  rw [hstages, handleCause_of_dup hcause hfrom, releaseSession_eq] at hfrees ⊢
  obtain ⟨hes, s, hctx, -⟩ := handleState_spec u _
  unfold Update.handleDup at hfrees ⊢
  rw [if_pos (by rw [hctx])] at hfrees ⊢
  refine handled_given_up hfrees ?_ hreach ?_ (sessionReleased_of_accepted c hacc) ?_
  · show (Progress.ctx _).owned = _
    simp only [Progress.removeSMContextFromAllNF, Progress.emit, Progress.setState, hctx]
    rfl
  · simp only [Progress.removeSMContextFromAllNF, Progress.emit, Progress.setState, hctx]
    rfl
  · intro e he
    simp only [Progress.removeSMContextFromAllNF, Progress.emit, Progress.setState, hes]
    exact List.mem_append_left _ he

theorem handled_update (hreach : ∀ x ∈ S, x ∈ c.reach)
    (hgone : c.state = .inActive ∨ c.pDUSessionReleaseDueToDupPduId = true → S = ∅)
    (hu : S = ∅ ∨ u.Harmless S c) : Handled S c (handlePDUSessionSMContextUpdate c u) := by
  by_cases hS : S = ∅
  · subst hS
    exact handled_of_empty (frees_update c u)
  obtain ⟨hn1, hch, hdup⟩ := hu.resolve_left hS
  have hstate : c.state ≠ .inActive := fun h => hS (hgone (Or.inl h))
  have hflag : c.pDUSessionReleaseDueToDupPduId = false := by
    rw [← Bool.not_eq_true]
    exact fun h => hS (hgone (Or.inr h))
  cases hcause : u.relDueToDuplicateSessionId with
  | true =>
    obtain ⟨hnone, hacc, hfrom⟩ := hdup hcause
    exact handled_update_dup hreach hn1 hcause hnone hacc hfrom
  | false =>
    have hstart : u.handleN1 (Progress.mk c [] .sessionEstablishSuccess false) =
        Progress.mk c [] .sessionEstablishSuccess false := by
      simp only [Update.handleN1, hn1]
    have hcalm : Calm S c (Progress.mk c [] .sessionEstablishSuccess false) :=
      ⟨rfl, rfl, hstate, hflag, hreach⟩
    have hchanged := ((hcalm.handleUpCnxState hch).handleN2 hch).handleHoState hch
    have hsame : ∀ p, u.handleCause p = p := fun p => by simp [Update.handleCause, hcause]
    have hend := hchanged.handleState u
    unfold handlePDUSessionSMContextUpdate
    dsimp only
    rw [hstart, hsame, Update.handleDup, if_neg (by simp [hend.dup])]
    exact hend.handled

theorem handled_release (hreach : ∀ x ∈ S, x ∈ c.reach) (hd : S = ∅ ∨ d.Accepted) :
    Handled S c (handlePDUSessionSMContextRelease c d) := by
  by_cases hS : S = ∅
  · subst hS
    exact handled_of_empty (frees_release c d)
  have hacc := sessionReleased_of_accepted c (hd.resolve_left hS)
  have hfrees := frees_release c d
  simp only [handlePDUSessionSMContextRelease, releaseSession_eq, hacc, if_true,
    Progress.removeSMContextFromAllNF, Progress.emit, Progress.setState] at hfrees ⊢
  exact handled_given_up hfrees rfl hreach rfl hacc (fun e he => by simp [he])

/-- A local release that fails does not remove the context. -/
theorem handled_localRelease (d : Deletions) (hreach : ∀ x ∈ S, x ∈ c.reach)
    (hdup : c.pDUSessionReleaseDueToDupPduId = true → S = ∅) :
    Handled S c (handlePDUSessionSMContextLocalRelease c d) := by
  have hfrees := frees_localRelease c d
  cases hrel : sessionReleased c d with
  | true =>
    simp only [handlePDUSessionSMContextLocalRelease, releaseSession_eq, hrel, if_true,
      Progress.removeSMContextFromAllNF, Progress.emit, Progress.setState] at hfrees ⊢
    exact handled_given_up hfrees rfl hreach rfl hrel (fun e he => by simp [he])
  | false =>
    simp only [handlePDUSessionSMContextLocalRelease, releaseSession_eq, hrel, Bool.false_eq_true,
      if_false, Progress.setState] at hfrees ⊢
    refine ⟨hfrees, fun _ => rfl, hreach, ?_⟩
    rintro (hgo | hstate | hflag)
    · simp [goRemove_notMem_deletions] at hgo
    · simp at hstate
    · rw [hdup hflag]
      exact remaining_empty _

/-! ## Contexts, UPFs and the pool

Contexts are numbered in the order of their creation. -/

/-- The SMF's contexts and what stands outside of them. -/
structure World where
  /-- the context was created -/
  created : Nat → Bool
  ctx : Nat → SMContext
  /-- what the handler that holds the lock of a context still has to do -/
  queue : Nat → List Effect
  /-- the UPFs that hold a PFCP session of a context, with PDRs for its address -/
  sessions : Nat → Finset Nat
  /-- the address in these PDRs -/
  ueAddr : Nat → UInt32
  /-- the removers of a context that wait for its lock -/
  removers : Nat → Nat
  smContextPool : Nat → Bool
  /-- the context that an address was allocated to; none if it is in its pool -/
  holder : UInt32 → Option Nat

/-- No context yet, and every address in its pool. -/
def World.empty : World where
  created _ := false
  ctx _ :=
    { state := .inActive
      selectedUPF := false
      pDUAddress := none
      anIPAddress := false
      nrdcIndicator := false
      pDUSessionReleaseDueToDupPduId := false
      tunnel := []
      dcTunnel := [] }
  queue _ := []
  sessions _ := ∅
  ueAddr _ := 0
  removers _ := 0
  smContextPool _ := false
  holder _ := none

inductive Event where
  /-- a session is established over the UPFs, with an address from the pool -/
  | establish (i : Nat) (addr : UInt32) (upfs : List Nat) (anIPAddress : Bool)
  | update (i : Nat) (u : Update)
  | release (i : Nat) (d : Deletions)
  | localRelease (i : Nat) (d : Deletions)
  /-- a remover gets the lock -/
  | remove (i : Nat)
  /-- the handler of a context does the next thing outside of it -/
  | act (i : Nat)

namespace World

/-- A handler takes the lock of a context. -/
def serve (w : World) (i : Nat) (handler : SMContext → Progress) : Option World :=
  if w.created i ∧ w.queue i = [] then
    some { w with
      ctx := Function.update w.ctx i (handler (w.ctx i)).ctx
      queue := Function.update w.queue i (handler (w.ctx i)).effects }
  else none

/-- An effect takes place. -/
def perform (w : World) (i : Nat) : Effect → World
  | .releaseUEIP addr => { w with holder := Function.update w.holder addr none }
  | .deletePfcpSession upf outcome =>
    { w with
      sessions := Function.update w.sessions i
        (Effect.leaves (w.sessions i) (.deletePfcpSession upf outcome)) }
  | .unSubscribe => w
  | .goRemove => { w with removers := Function.update w.removers i (w.removers i + 1) }
  | .deleteRef => { w with smContextPool := Function.update w.smContextPool i false }
  | .deleteCanonical => w

def step (w : World) : Event → Option World
  | .establish i addr upfs an =>
    if w.created i = false ∧ w.holder addr = none then
      some { w with
        created := Function.update w.created i true
        ctx := Function.update w.ctx i
          { state := .active
            selectedUPF := true
            pDUAddress := some addr
            anIPAddress := an
            nrdcIndicator := false
            pDUSessionReleaseDueToDupPduId := false
            tunnel := upfs
            dcTunnel := [] }
        sessions := Function.update w.sessions i upfs.toFinset
        ueAddr := Function.update w.ueAddr i addr
        smContextPool := Function.update w.smContextPool i true
        holder := Function.update w.holder addr (some i) }
    else none
  | .update i u => w.serve i (handlePDUSessionSMContextUpdate · u)
  | .release i d => w.serve i (handlePDUSessionSMContextRelease · d)
  | .localRelease i d => w.serve i (handlePDUSessionSMContextLocalRelease · d)
  | .remove i =>
    if w.removers i = 0 then none
    else
      let w := { w with removers := Function.update w.removers i (w.removers i - 1) }
      -- a context that is not in the pool any more has been removed already
      if w.smContextPool i then w.serve i removeSMContext else w.serve i (fun c => { ctx := c })
  | .act i =>
    match w.queue i with
    | [] => none
    | e :: es => some ({ w with queue := Function.update w.queue i es }.perform i e)

/-- While a UPF has a PFCP session of a context, the context owns the address in its PDRs and
    nobody else can get it from the pool. -/
def Safe (w : World) : Prop :=
  ∀ i, (w.sessions i).Nonempty →
    (w.ctx i).owned = some (w.ueAddr i) ∧ w.holder (w.ueAddr i) = some i

/-- A step that releases with care: updates are harmless, and a network release, which removes
    the context in any case, has all its deletion requests accepted. -/
def Careful (w : World) : Event → Prop
  | .update i u => w.sessions i = ∅ ∨ u.Harmless (w.sessions i) (w.ctx i)
  | .release i d => w.sessions i = ∅ ∨ d.Accepted
  | _ => True

/-! ## Careful runs keep addresses -/

/-- What careful steps keep of a context. -/
structure Kept (w : World) (i : Nat) : Prop where
  owner : ∀ addr, (w.ctx i).owned = some addr → w.holder addr = some i
  queued : freed (w.queue i) = [] ∨
    ∃ addr, freed (w.queue i) = [addr] ∧ (w.ctx i).owned = none ∧ w.holder addr = some i
  live : (w.sessions i).Nonempty → (w.ctx i).owned = some (w.ueAddr i)
  reaches : ∀ x ∈ w.sessions i, x ∈ (w.ctx i).reach
  gone : 0 < w.removers i ∨ .goRemove ∈ w.queue i ∨ (w.ctx i).state = .inActive ∨
    (w.ctx i).pDUSessionReleaseDueToDupPduId = true → remaining (w.sessions i) (w.queue i) = ∅
  absent : w.created i = false → w.queue i = [] ∧ w.removers i = 0

variable {w w' : World} {i : Nat} {es : List Effect}

theorem Kept.safe (h : ∀ i, Kept w i) : Safe w :=
  fun i hi => ⟨(h i).live hi, (h i).owner _ ((h i).live hi)⟩

/-- A step that touches a context only through the pool, and takes no address from it, keeps
    what is kept of it. -/
theorem Kept.frame (h : Kept w i) (hcreated : w'.created i = w.created i)
    (hctx : w'.ctx i = w.ctx i) (hqueue : w'.queue i = w.queue i)
    (hsessions : w'.sessions i = w.sessions i) (haddr : w'.ueAddr i = w.ueAddr i)
    (hremovers : w'.removers i = w.removers i)
    (hholder : ∀ addr, w.holder addr = some i → w'.holder addr = some i) : Kept w' i where
  owner addr ho := hholder addr (h.owner addr (by rwa [hctx] at ho))
  queued := by
    rw [hqueue, hctx]
    rcases h.queued with hnil | ⟨addr, hf, ho, hh⟩
    · exact Or.inl hnil
    · exact Or.inr ⟨addr, hf, ho, hholder addr hh⟩
  live := by
    rw [hsessions, hctx, haddr]
    exact h.live
  reaches := by
    rw [hsessions, hctx]
    exact h.reaches
  gone := by
    rw [hsessions, hctx, hqueue, hremovers]
    exact h.gone
  absent := by
    rw [hcreated, hqueue, hremovers]
    exact h.absent

theorem kept_empty (i : Nat) : Kept World.empty i where
  owner addr ho := by simp [World.empty, SMContext.owned] at ho
  queued := Or.inl rfl
  live h := by simp [World.empty] at h
  reaches x hx := by simp [World.empty] at hx
  gone _ := rfl
  absent _ := ⟨rfl, rfl⟩

/-- A handler that does as `Handled` says keeps what is kept of its context. -/
theorem kept_serve {handler : SMContext → Progress} (h : ∀ j, Kept w j)
    (hh : w.queue i = [] → Handled (w.sessions i) (w.ctx i) (handler (w.ctx i)))
    (hstep : w.serve i handler = some w') (j : Nat) : Kept w' j := by
  unfold serve at hstep
  split at hstep
  case isFalse => cases hstep
  case isTrue hlock =>
    obtain ⟨hcreated, hqueue⟩ := hlock
    cases hstep
    have hk := h i
    have hp := hh hqueue
    by_cases hj : j = i
    · subst hj
      refine ⟨?_, ?_, ?_, ?_, ?_, ?_⟩
      · intro addr ho
        simp only [Function.update_self] at ho
        refine hk.owner addr ?_
        rcases hp.frees with ⟨-, hsame⟩ | ⟨addr', -, hnone, -⟩
        · rwa [hsame] at ho
        · rw [hnone] at ho
          cases ho
      · simp only [Function.update_self]
        rcases hp.frees with ⟨hf, -⟩ | ⟨addr, ho, hnone, hf⟩
        · exact Or.inl hf
        · exact Or.inr ⟨addr, hf, hnone, hk.owner addr ho⟩
      · intro hlive
        simp only [Function.update_self]
        rw [hp.keeps hlive]
        exact hk.live hlive
      · simp only [Function.update_self]
        exact hp.reaches
      · simp only [Function.update_self]
        rintro (hrem | hrest)
        · have hempty := hk.gone (Or.inl hrem)
          rw [hqueue, remaining_nil] at hempty
          rw [hempty]
          exact remaining_empty _
        · exact hp.gone hrest
      · intro habs
        exact absurd habs (by simp [hcreated])
    · refine (h j).frame rfl ?_ ?_ rfl rfl rfl (fun _ ha => ha)
      · exact Function.update_of_ne hj _ _
      · exact Function.update_of_ne hj _ _

theorem leaves_subset (S : Finset Nat) (e : Effect) : e.leaves S ⊆ S := by
  cases e with
  | deletePfcpSession upf outcome =>
    simp only [Effect.leaves]
    split
    · exact Finset.erase_subset upf S
    · exact Finset.Subset.refl S
  | _ => exact Finset.Subset.refl S

/-- An effect other than the return of an address keeps what is kept of its context. -/
theorem Kept.pop {e : Effect} (h : Kept w i) (hqueue : w.queue i = e :: es)
    (hfreed : freed (e :: es) = freed es) (hcreated : w'.created i = w.created i)
    (hctx : w'.ctx i = w.ctx i) (hqueue' : w'.queue i = es)
    (hsessions : w'.sessions i = e.leaves (w.sessions i)) (haddr : w'.ueAddr i = w.ueAddr i)
    (hremovers : w'.removers i = w.removers i ∨ e = .goRemove) (hholder : w'.holder = w.holder) :
    Kept w' i := by
  have hsub := leaves_subset (w.sessions i) e
  refine ⟨?_, ?_, ?_, ?_, ?_, ?_⟩
  · rw [hctx, hholder]
    exact h.owner
  · rw [hctx, hqueue', hholder, ← hfreed, ← hqueue]
    exact h.queued
  · rw [hsessions, hctx, haddr]
    exact fun hlive => h.live (hlive.mono hsub)
  · rw [hsessions, hctx]
    exact fun x hx => h.reaches x (hsub hx)
  · rw [hsessions, hctx, hqueue', ← remaining_cons, ← hqueue]
    rintro (hrem | hgo | hrest)
    · rcases hremovers with hsame | hgo
      · exact h.gone (Or.inl (by rwa [hsame] at hrem))
      · exact h.gone (Or.inr (Or.inl (by rw [hqueue, hgo]; exact List.mem_cons_self)))
    · exact h.gone (Or.inr (Or.inl (by rw [hqueue]; exact List.mem_cons_of_mem e hgo)))
    · exact h.gone (Or.inr (Or.inr hrest))
  · rw [hcreated]
    intro habs
    rw [(h.absent habs).1] at hqueue
    cases hqueue

/-- An address on its way back is the only one, and no longer the context's. -/
theorem Kept.returning {addr : UInt32} (h : Kept w i) (hqueue : w.queue i = .releaseUEIP addr :: es)
    : freed es = [] ∧ (w.ctx i).owned = none ∧ w.holder addr = some i := by
  rcases h.queued with hnil | ⟨addr', hf, ho, hh⟩
  · simp [hqueue, freed] at hnil
  · simp only [hqueue, freed, List.filterMap_cons, List.cons.injEq] at hf
    obtain ⟨rfl, hes⟩ := hf
    exact ⟨hes, ho, hh⟩

/-- An effect that takes place keeps what is kept of all contexts. -/
theorem kept_act {e : Effect} (h : ∀ j, Kept w j) (hqueue : w.queue i = e :: es) (j : Nat) :
    Kept ({ w with queue := Function.update w.queue i es }.perform i e) j := by
  have hk := h i
  by_cases hj : j = i
  · subst hj
    have hcreated : w.created j ≠ false := by
      intro habs
      rw [(hk.absent habs).1] at hqueue
      cases hqueue
    cases e with
    | releaseUEIP addr =>
      obtain ⟨hes, ho, -⟩ := hk.returning hqueue
      refine ⟨?_, Or.inl ?_, hk.live, hk.reaches, ?_, fun habs => absurd habs hcreated⟩
      · intro a ha
        exact absurd ha (by simp [perform, ho])
      · simpa [perform] using hes
      · have hgone := hk.gone
        rw [hqueue] at hgone
        simpa [perform, Effect.leaves] using hgone
    | deletePfcpSession upf outcome =>
      refine hk.pop hqueue rfl rfl rfl ?_ ?_ rfl (Or.inl rfl) rfl <;> simp [perform]
    | goRemove =>
      refine hk.pop hqueue rfl rfl rfl ?_ rfl rfl (Or.inr rfl) rfl
      simp [perform]
    | unSubscribe =>
      refine hk.pop hqueue rfl rfl rfl ?_ rfl rfl (Or.inl rfl) rfl
      simp [perform]
    | deleteRef =>
      refine hk.pop hqueue rfl rfl rfl ?_ rfl rfl (Or.inl rfl) rfl
      simp [perform]
    | deleteCanonical =>
      refine hk.pop hqueue rfl rfl rfl ?_ rfl rfl (Or.inl rfl) rfl
      simp [perform]
  · have hq : Function.update w.queue i es j = w.queue j := Function.update_of_ne hj _ _
    cases e with
    | releaseUEIP addr =>
      refine (h j).frame rfl rfl hq rfl rfl rfl (fun a ha => ?_)
      obtain ⟨-, -, hh⟩ := hk.returning hqueue
      have hne : a ≠ addr := by
        rintro rfl
        exact hj (Option.some.inj (ha.symm.trans hh))
      exact (Function.update_of_ne hne _ _).trans ha
    | deletePfcpSession upf outcome =>
      exact (h j).frame rfl rfl hq (Function.update_of_ne hj _ _) rfl rfl (fun _ ha => ha)
    | goRemove =>
      exact (h j).frame rfl rfl hq rfl rfl (Function.update_of_ne hj _ _) (fun _ ha => ha)
    | unSubscribe => exact (h j).frame rfl rfl hq rfl rfl rfl (fun _ ha => ha)
    | deleteRef => exact (h j).frame rfl rfl hq rfl rfl rfl (fun _ ha => ha)
    | deleteCanonical => exact (h j).frame rfl rfl hq rfl rfl rfl (fun _ ha => ha)

theorem kept_establish {addr : UInt32} {upfs : List Nat} {an : Bool} (h : ∀ j, Kept w j)
    (hstep : w.step (.establish i addr upfs an) = some w') (j : Nat) : Kept w' j := by
  simp only [step] at hstep
  split at hstep
  case isFalse => cases hstep
  case isTrue hnew =>
    obtain ⟨habs, hfree⟩ := hnew
    cases hstep
    obtain ⟨hqueue, hremovers⟩ := (h i).absent habs
    by_cases hj : j = i
    · subst hj
      refine ⟨?_, Or.inl ?_, ?_, ?_, ?_, ?_⟩
      · intro a ha
        simp only [Function.update_self, SMContext.owned, if_true, Option.some.injEq] at ha
        subst ha
        simp
      · rw [hqueue]
        rfl
      · simp [SMContext.owned]
      · simp [SMContext.reach]
      · simp [hqueue, hremovers]
      · simp
    · refine (h j).frame ?_ ?_ rfl ?_ ?_ rfl (fun a ha => ?_)
      · exact Function.update_of_ne hj _ _
      · exact Function.update_of_ne hj _ _
      · exact Function.update_of_ne hj _ _
      · exact Function.update_of_ne hj _ _
      · have hne : a ≠ addr := by
          rintro rfl
          rw [hfree] at ha
          cases ha
        exact (Function.update_of_ne hne _ _).trans ha

/-- With no handler at work and a remover waiting, no PFCP session is left. -/
theorem kept_remove (h : ∀ j, Kept w j) (hstep : w.step (.remove i) = some w') (j : Nat) :
    Kept w' j := by
  simp only [step] at hstep
  split at hstep
  · cases hstep
  rename_i hwait
  have hk' : ∀ j, Kept { w with removers := Function.update w.removers i (w.removers i - 1) } j := by
    intro j
    refine ⟨(h j).owner, (h j).queued, (h j).live, (h j).reaches, ?_, ?_⟩
    · rintro (hrem | hrest)
      · refine (h j).gone (Or.inl ?_)
        by_cases hj : j = i
        · subst hj
          omega
        · simpa [hj] using hrem
      · exact (h j).gone (Or.inr hrest)
    · intro habs
      refine ⟨((h j).absent habs).1, ?_⟩
      by_cases hj : j = i
      · subst hj
        simp [((h j).absent habs).2]
      · simpa [hj] using ((h j).absent habs).2
  have hempty : w.queue i = [] → w.sessions i = ∅ := by
    intro hqueue
    have hgone := (h i).gone (Or.inl (by omega))
    rwa [hqueue, remaining_nil] at hgone
  split at hstep
  · refine kept_serve hk' (fun hqueue => ?_) hstep j
    show Handled (w.sessions i) _ _
    rw [hempty hqueue]
    exact handled_of_empty (frees_remove _)
  · refine kept_serve hk' (fun hqueue => ?_) hstep j
    show Handled (w.sessions i) _ _
    rw [hempty hqueue]
    exact handled_of_empty (Or.inl ⟨rfl, rfl⟩)

theorem kept_step {e : Event} (hC : w.Careful e) (hstep : w.step e = some w') (h : ∀ j, Kept w j)
    (j : Nat) : Kept w' j := by
  cases e with
  | establish i addr upfs an => exact kept_establish h hstep j
  | update i u =>
    have hserve : w.serve i (handlePDUSessionSMContextUpdate · u) = some w' := hstep
    refine kept_serve h (fun hqueue => handled_update (h i).reaches ?_ hC) hserve j
    intro hend
    have hgone := (h i).gone (Or.inr (Or.inr hend))
    rwa [hqueue, remaining_nil] at hgone
  | release i d =>
    have hserve : w.serve i (handlePDUSessionSMContextRelease · d) = some w' := hstep
    exact kept_serve h (fun _ => handled_release (h i).reaches hC) hserve j
  | localRelease i d =>
    have hserve : w.serve i (handlePDUSessionSMContextLocalRelease · d) = some w' := hstep
    refine kept_serve h (fun hqueue => handled_localRelease d (h i).reaches ?_) hserve j
    intro hdup
    have hgone := (h i).gone (Or.inr (Or.inr (Or.inr hdup)))
    rwa [hqueue, remaining_nil] at hgone
  | remove i => exact kept_remove h hstep j
  | act i =>
    simp only [step] at hstep
    split at hstep
    · cases hstep
    · rename_i e es hqueue
      cases hstep
      exact kept_act h hqueue j

/-- In every run of establishments, updates, releases and local releases whose steps are
    careful, a context owns its address for as long as a UPF has a PFCP session of it. -/
theorem address_kept_while_forwarding {es : List Event} {w : World}
    (hrun : Run step World.empty es w) (hC : RunMeets step Careful World.empty es) : Safe w :=
  Kept.safe (hC.inv (fun w => ∀ i, Kept w i) (fun _ _ _ hc hstep h => kept_step hc hstep h) hrun
    kept_empty)

/-- A local release that the UPF rejects, then a network release that it accepts: the remover
    returns the address, and the next context gets it. -/
theorem released_address_reused :
    ∃ es w, Run step World.empty es w ∧ Safe w ∧ w.sessions 0 = ∅ ∧ w.holder 10 = some 1 := by
  have hrun : Run step World.empty [.establish 0 10 [7] true,
    .localRelease 0 ⟨fun _ => .rejected, fun _ => .rejected⟩, .act 0, .act 0,
    .release 0 ⟨fun _ => .accepted, fun _ => .accepted⟩, .act 0, .act 0, .act 0, .act 0,
    .remove 0, .act 0, .establish 1 10 [7] true] _ := run_iff_foldlM.mpr rfl
  refine ⟨_, _, hrun, address_kept_while_forwarding hrun ?_, rfl, rfl⟩
  refine .cons trivial rfl (.cons trivial rfl (.cons trivial rfl (.cons trivial rfl ?_)))
  refine .cons (Or.inr fun _ => ⟨rfl, rfl⟩) rfl ?_
  exact .cons trivial rfl (.cons trivial rfl (.cons trivial rfl (.cons trivial rfl
    (.cons trivial rfl (.cons trivial rfl (.cons trivial rfl trivial))))))

/-- The UE asks for a release and the UPF rejects the deletion: the context is Active and the
    UPF forwards for it, while its address is with the next context. -/
theorem address_reused_while_forwarding :
    ∃ es w, Run step World.empty es w ∧ ¬ Safe w ∧ (w.ctx 0).state = .active ∧
      w.sessions 0 = {7} ∧ w.ueAddr 0 = 10 ∧ w.holder 10 = some 1 := by
  refine ⟨[.establish 0 10 [7] true,
    .update 0 { n1SmMessage := some .pDUSessionReleaseRequest,
                n1Deletions := ⟨fun _ => .rejected, fun _ => .rejected⟩,
                dupDeletions := ⟨fun _ => .rejected, fun _ => .rejected⟩ },
    .act 0, .act 0, .act 0, .establish 1 10 [7] true], _, run_iff_foldlM.mpr rfl,
    ?_, rfl, rfl, rfl, rfl⟩
  intro hsafe
  exact absurd (hsafe 0 ⟨7, by decide⟩).2 (by decide)

end World

end Free5gc.Smf.Session
