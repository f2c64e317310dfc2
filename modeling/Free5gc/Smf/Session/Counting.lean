/-
  The number of PDU sessions that the SMF counts for a UE (NFs/smf/internal/context/sm_ue.go,
  Subscribe and UnSubscribe of NFs/smf/internal/sbi/consumer/udm_service.go). The first session
  of a UE subscribes to its subscription data at the UDM and each session is counted; each call
  of UnSubscribe counts one down, and the call that finds the count at 1 deletes the
  subscription and the entry of the UE.

  Every completed release calls UnSubscribe twice, once in its handler and once in
  RemoveSMContextFromAllNF (`count_unSubscribe_release`). So the count is exact after a release
  only if it was the UE's only session, and otherwise the subscription goes while sessions of
  the UE are left (`pdu_session_count_exact_iff`). All calls to the UDM succeed here.
-/
import Free5gc.Lib.GoMap
import Free5gc.Lib.Run
import Free5gc.Smf.Session.Handlers

namespace Free5gc.Smf.Session

open Free5gc.Lib

/-! ## The UEs of the SMF -/

structure UeData where
  pduSessionCount : Nat
  sdmSubscriptionId : String
  deriving DecidableEq, Repr

abbrev Ues := GoMap String UeData

namespace Ues

/-- `u.ues[ueId]`, with the zero value for an unknown UE. -/
def getUeData (u : Ues) (ueId : String) : UeData := (u.lookup ueId).getD ⟨0, ""⟩

def incrementPduSessionCount (u : Ues) (ueId : String) : Ues :=
  u.insert ueId
    { u.getUeData ueId with pduSessionCount := (u.getUeData ueId).pduSessionCount + 1 }

def decrementPduSessionCount (u : Ues) (ueId : String) : Ues :=
  if 0 < (u.getUeData ueId).pduSessionCount then
    u.insert ueId
      { u.getUeData ueId with pduSessionCount := (u.getUeData ueId).pduSessionCount - 1 }
  else u

def setSubscriptionId (u : Ues) (ueId subscriptionId : String) : Ues :=
  u.insert ueId { u.getUeData ueId with sdmSubscriptionId := subscriptionId }

def deleteUe (u : Ues) (ueId : String) : Ues := u.erase ueId

def ueExists (u : Ues) (ueId : String) : Bool := (u.lookup ueId).isSome

def isLastPduSession (u : Ues) (ueId : String) : Bool :=
  (u.getUeData ueId).pduSessionCount == 1

def getPduSessionCount (u : Ues) (ueId : String) : Nat := (u.getUeData ueId).pduSessionCount

/-- `Subscribe`; the UDM answers with a subscription id. -/
def subscribe (u : Ues) (supi subscriptionId : String) : Ues :=
  (u.setSubscriptionId supi subscriptionId).incrementPduSessionCount supi

def unSubscribe (u : Ues) (supi : String) : Ues :=
  if u.isLastPduSession supi then u.deleteUe supi else u.decrementPduSessionCount supi

/-- What a session creation does when it has succeeded. -/
def countCreated (u : Ues) (supi subscriptionId : String) : Ues :=
  if !u.ueExists supi then u.subscribe supi subscriptionId
  else u.incrementPduSessionCount supi

/-- What an effect of a handler for a context of `supi` does. -/
def perform (supi : String) (u : Ues) : Effect → Ues
  | .unSubscribe => if u.ueExists supi then u.unSubscribe supi else u
  | _ => u

/-! ## The count of one UE

An entry is never left with a count of 0, so a UE is known exactly if its count is positive. -/

/-- The UE is counted with `n` sessions, and has a subscription exactly if it has sessions. -/
def Counts (u : Ues) (supi : String) (n : Nat) : Prop :=
  u.getPduSessionCount supi = n ∧ (u.ueExists supi = true ↔ 0 < n)

variable {u : Ues} {supi other : String} {n : Nat}

theorem Counts.eq {m : Nat} (h : u.Counts supi m) (h' : u.Counts supi n) : m = n :=
  h.1.symm.trans h'.1

theorem counts_of_lookup {d : UeData} (h : u.lookup supi = some d) (hpos : 0 < d.pduSessionCount) :
    u.Counts supi d.pduSessionCount := by
  simp [Counts, getPduSessionCount, getUeData, ueExists, h, hpos]

theorem counts_zero_iff : u.Counts supi 0 ↔ u.lookup supi = none := by
  constructor
  · rintro ⟨-, h⟩
    simpa [ueExists] using h
  · intro h
    simp [Counts, getPduSessionCount, getUeData, ueExists, h]

theorem lookup_of_counts (h : u.Counts supi (n + 1)) : ∃ id, u.lookup supi = some ⟨n + 1, id⟩ := by
  obtain ⟨hcount, hex⟩ := h
  obtain ⟨d, hd⟩ := Option.isSome_iff_exists.mp (hex.mpr (Nat.succ_pos n))
  refine ⟨d.sdmSubscriptionId, ?_⟩
  simp only [getPduSessionCount, getUeData, hd, Option.getD_some] at hcount
  rw [hd, ← hcount]

theorem counts_congr {u' : Ues} (h : u'.lookup supi = u.lookup supi) (n : Nat) :
    u'.Counts supi n ↔ u.Counts supi n := by
  simp only [Counts, getPduSessionCount, getUeData, ueExists, h]

theorem counts_countCreated (h : u.Counts supi n) (id : String) :
    (u.countCreated supi id).Counts supi (n + 1) := by
  cases n with
  | zero =>
    have hnone := counts_zero_iff.mp h
    have hlookup : (u.countCreated supi id).lookup supi = some ⟨1, id⟩ := by
      simp [countCreated, ueExists, hnone, subscribe, setSubscriptionId, incrementPduSessionCount,
        getUeData]
    exact counts_of_lookup hlookup Nat.one_pos
  | succ n =>
    obtain ⟨id', hd⟩ := lookup_of_counts h
    have hlookup : (u.countCreated supi id).lookup supi = some ⟨n + 1 + 1, id'⟩ := by
      simp [countCreated, ueExists, hd, incrementPduSessionCount, getUeData]
    exact counts_of_lookup hlookup (Nat.succ_pos (n + 1))

/-- One call of UnSubscribe counts one down, to no entry in the end. -/
theorem counts_perform_unSubscribe (h : u.Counts supi n) :
    (u.perform supi .unSubscribe).Counts supi (n - 1) := by
  match n, h with
  | 0, h =>
    have hnone := counts_zero_iff.mp h
    have hsame : u.perform supi .unSubscribe = u := by simp [perform, ueExists, hnone]
    rw [hsame]
    exact h
  | 1, h =>
    obtain ⟨id, hd⟩ := lookup_of_counts h
    refine counts_zero_iff.mpr ?_
    simp [perform, ueExists, hd, unSubscribe, isLastPduSession, getUeData, deleteUe]
  | n + 2, h =>
    obtain ⟨id, hd⟩ := lookup_of_counts h
    have hlookup : (u.perform supi .unSubscribe).lookup supi = some ⟨n + 1, id⟩ := by
      simp [perform, ueExists, hd, unSubscribe, isLastPduSession, getUeData,
        decrementPduSessionCount]
    exact counts_of_lookup hlookup (Nat.succ_pos n)

theorem counts_foldl_perform (es : List Effect) (h : u.Counts supi n) :
    (es.foldl (perform supi) u).Counts supi (n - es.count .unSubscribe) := by
  induction es generalizing u n with
  | nil => exact h
  | cons e es ih =>
    rw [List.foldl_cons]
    by_cases he : e = .unSubscribe
    · subst he
      have hrest := ih (counts_perform_unSubscribe h)
      rwa [Nat.sub_sub, Nat.add_comm, ← List.count_cons_self] at hrest
    · have hsame : u.perform supi e = u := by
        cases e with
        | unSubscribe => exact absurd rfl he
        | _ => rfl
      rw [hsame, List.count_cons_of_ne he]
      exact ih h

/-! ## Frames: the other UEs -/

theorem lookup_countCreated_of_ne (h : other ≠ supi) (id : String) :
    (u.countCreated supi id).lookup other = u.lookup other := by
  unfold countCreated
  split
  · simp [subscribe, setSubscriptionId, incrementPduSessionCount, h]
  · simp [incrementPduSessionCount, h]

theorem lookup_perform_of_ne (h : other ≠ supi) (e : Effect) :
    (u.perform supi e).lookup other = u.lookup other := by
  cases e with
  | unSubscribe =>
    simp only [perform, unSubscribe, deleteUe, decrementPduSessionCount]
    split_ifs <;> simp [h]
  | _ => rfl

theorem lookup_foldl_perform_of_ne (h : other ≠ supi) (es : List Effect) (u : Ues) :
    (es.foldl (perform supi) u).lookup other = u.lookup other :=
  foldl_frame (perform supi) (fun u => u.lookup other) (fun _ e => lookup_perform_of_ne h e) es u

end Ues

/-! ## Completed releases -/

/-- A PDU Session Release Request alone. -/
def releaseRequest (d : Deletions) : Update where
  n1SmMessage := some .pDUSessionReleaseRequest
  n1Deletions := d
  dupDeletions := d

/-- A PDU Session Release Complete alone. -/
def releaseComplete (d : Deletions) : Update where
  n1SmMessage := some .pDUSessionReleaseComplete
  n1Deletions := d
  dupDeletions := d

/-- The RAN's answer to the release alone. -/
def releaseResponse (d : Deletions) : Update where
  n2SmInfo := some .pduResRelRsp
  n1Deletions := d
  dupDeletions := d

/-- Several updates of a context, one after the other. -/
def handleUpdates (c : SMContext) (us : List Update) : Progress :=
  us.foldl (fun p u =>
    { ctx := (handlePDUSessionSMContextUpdate p.ctx u).ctx
      effects := p.effects ++ (handlePDUSessionSMContextUpdate p.ctx u).effects }) { ctx := c }

/-- A release of a context that is carried through. The RAN answers the release if it has
    resources of the session, before or after the UE does. -/
inductive Release where
  | network (c : SMContext) (d : Deletions)
  | duplicate (c : SMContext) (d : Deletions) (released : sessionReleased c d = true)
  | ue (c : SMContext) (d : Deletions) (responseFirst : Bool) (released : sessionReleased c d = true)
      (unflagged : c.pDUSessionReleaseDueToDupPduId = false)

/-- What the handlers of a release do. -/
def Release.effects : Release → List Effect
  | network c d => (handlePDUSessionSMContextRelease c d).effects
  | duplicate c d _ => (handlePDUSessionSMContextLocalRelease c d).effects
  | ue c d responseFirst _ _ =>
    if c.anIPAddress then
      if responseFirst then
        (handleUpdates c [releaseRequest d, releaseResponse d, releaseComplete d]).effects
      else
        (handleUpdates c [releaseRequest d, releaseComplete d, releaseResponse d]).effects
    else (handleUpdates c [releaseRequest d, releaseComplete d]).effects

variable {c : SMContext}

theorem count_unSubscribe_deletions (c : SMContext) (d : Deletions) :
    (deletions c d).count .unSubscribe = 0 := by
  rw [List.count_eq_zero]
  unfold deletions
  split <;> simp [Progress.releaseTunnel]

/-- An update with an N1 message alone. -/
theorem update_of_n1 {u : Update} (hup : u.upCnxState = none) (hn2 : u.n2SmInfo = none)
    (hho : u.hoState = none) (hcause : u.relDueToDuplicateSessionId = false) :
    handlePDUSessionSMContextUpdate c u =
      Update.handleDup (u.handleState
        (u.handleN1 (Progress.mk c [] .sessionEstablishSuccess false))) := by
  simp [handlePDUSessionSMContextUpdate, Update.handleUpCnxState, hup, Update.handleN2, hn2,
    Update.handleHoState, hho, Update.handleCause, hcause]

theorem handleDup_of_unflagged {p : Progress} (h : p.ctx.pDUSessionReleaseDueToDupPduId = false) :
    Update.handleDup p = p := by
  simp [Update.handleDup, h]

theorem handleState_of_released {p : Progress} (u : Update)
    (hstate : p.ctx.state = .pfcpModification)
    (hsend : p.sendPFCPModification = false)
    (hstatus : p.pfcpResponseStatus = .sessionReleaseSuccess) :
    u.handleState p = p.setState .inActivePending := by
  simp [Update.handleState, hstate, hsend, hstatus]

/-- A release request whose deletions are accepted counts once and leaves the context to the
    release complete. -/
theorem update_releaseRequest {d : Deletions} (hrel : sessionReleased c d = true)
    (hflag : c.pDUSessionReleaseDueToDupPduId = false) :
    (handlePDUSessionSMContextUpdate c (releaseRequest d)).effects.count .unSubscribe = 1 ∧
      ∃ addr, (handlePDUSessionSMContextUpdate c (releaseRequest d)).ctx =
        { c with state := .inActivePending, pDUAddress := addr } := by
  -- with and without an address to return
  obtain ⟨addr, es, hes, hn1⟩ : ∃ addr es, es.count .unSubscribe = 1 ∧
      (releaseRequest d).handleN1 (Progress.mk c [] .sessionEstablishSuccess false) =
        (Progress.mk { c with pDUAddress := addr, state := .pfcpModification } es
          .sessionEstablishSuccess false).releaseSession d := by
    cases hc : c.owned with
    | none =>
      refine ⟨c.pDUAddress, [.unSubscribe], rfl, ?_⟩
      simp only [Update.handleN1, releaseRequest, hc]
      rfl
    | some addr =>
      refine ⟨none, [.releaseUEIP addr, .unSubscribe], rfl, ?_⟩
      simp only [Update.handleN1, releaseRequest, hc]
      rfl
  have hrel' : sessionReleased { c with pDUAddress := addr, state := .pfcpModification } d = true :=
    hrel
  rw [update_of_n1 rfl rfl rfl rfl, hn1, releaseSession_eq, hrel', if_pos rfl,
    handleState_of_released _ rfl rfl rfl, handleDup_of_unflagged hflag]
  refine ⟨?_, addr, rfl⟩
  show List.count _ (es ++ _) = 1
  rw [List.count_append, hes, count_unSubscribe_deletions]

/-- A release complete removes the context if the RAN has no resources of it. -/
theorem update_releaseComplete (d : Deletions) (hflag : c.pDUSessionReleaseDueToDupPduId = false) :
    handlePDUSessionSMContextUpdate c (releaseComplete d) =
      { ctx := { c with state := .inActive }
        effects := if c.anIPAddress then [] else [.unSubscribe, .goRemove] } := by
  rw [update_of_n1 rfl rfl rfl rfl]
  cases han : c.anIPAddress <;>
    simp [Update.handleN1, releaseComplete, Progress.setState, han, Update.handleState,
      Update.handleDup, hflag, Progress.removeSMContextFromAllNF, Progress.emit]

/-- The answer of the RAN removes the context if the UE has completed the release. -/
theorem update_releaseResponse (d : Deletions)
    (hstate : c.state = .inActive ∨ c.state = .inActivePending)
    (hflag : c.pDUSessionReleaseDueToDupPduId = false) :
    handlePDUSessionSMContextUpdate c (releaseResponse d) =
      { ctx := { c with anIPAddress := false }
        effects := if c.state = .inActive then [.unSubscribe, .goRemove] else [] } := by
  rcases hstate with h | h <;>
    simp [handlePDUSessionSMContextUpdate, Update.handleN1, releaseResponse,
      Update.handleUpCnxState, Update.handleN2, h, Update.handleHoState, Update.handleCause,
      Update.handleState, Update.handleDup, hflag, Progress.removeSMContextFromAllNF,
      Progress.emit, Progress.setState]

theorem release_effects (c : SMContext) (d : Deletions) :
    (handlePDUSessionSMContextRelease c d).effects =
      .unSubscribe :: (deletions c d ++ [.unSubscribe, .goRemove]) := by
  cases hrel : sessionReleased c d <;>
    simp [handlePDUSessionSMContextRelease, releaseSession_eq, hrel,
      Progress.removeSMContextFromAllNF, Progress.emit, Progress.setState]

theorem localRelease_effects {d : Deletions} (hrel : sessionReleased c d = true) :
    (handlePDUSessionSMContextLocalRelease c d).effects =
      .unSubscribe :: (deletions c d ++ [.unSubscribe, .goRemove]) := by
  simp [handlePDUSessionSMContextLocalRelease, releaseSession_eq, hrel,
    Progress.removeSMContextFromAllNF, Progress.emit, Progress.setState]

/-- A completed release calls UnSubscribe twice. -/
theorem count_unSubscribe_release (r : Release) : r.effects.count .unSubscribe = 2 := by
  have htwice : ∀ c d, (Effect.unSubscribe :: (deletions c d ++ [.unSubscribe, .goRemove])).count
      .unSubscribe = 2 := by
    intro c d
    rw [List.count_cons_self, List.count_append, count_unSubscribe_deletions]
    rfl
  cases r with
  | network c d =>
    rw [Release.effects, release_effects]
    exact htwice c d
  | duplicate c d hrel =>
    rw [Release.effects, localRelease_effects hrel]
    exact htwice c d
  | ue c d responseFirst hrel hflag =>
    obtain ⟨hone, addr, hctx⟩ := update_releaseRequest hrel hflag
    unfold Release.effects handleUpdates
    cases han : c.anIPAddress with
    | false =>
      simp [hctx, update_releaseComplete, hflag, han, List.count_append, hone]
    | true =>
      cases responseFirst <;>
        simp [hctx, update_releaseComplete, update_releaseResponse, hflag, han, List.count_append,
          hone]

/-! ## Creations and releases of sessions -/

/-- The UEs that the SMF counts, and the UE of every session that is established and not
    released. -/
structure Counted where
  ues : Ues
  established : List String

inductive SessionEvent where
  /-- a session of the UE is created; the id is what the UDM answers if it is asked -/
  | create (supi subscriptionId : String)
  /-- an established session, named by its position, is released -/
  | release (k : Nat) (r : Release)

namespace Counted

def empty : Counted := ⟨∅, []⟩

def step (s : Counted) : SessionEvent → Counted
  | .create supi subscriptionId =>
    ⟨s.ues.countCreated supi subscriptionId, supi :: s.established⟩
  | .release k r =>
    match s.established[k]? with
    | some supi => ⟨r.effects.foldl (Ues.perform supi) s.ues, s.established.eraseIdx k⟩
    | none => s

/-- Every UE is counted with as many sessions as it has, and has a subscription exactly if it
    has a session. -/
def Exact (s : Counted) : Prop := ∀ supi, s.ues.Counts supi (s.established.count supi)

/-- A session is only released if its UE has no other. -/
def Lone (s : Counted) : SessionEvent → Prop
  | .create _ _ => True
  | .release k _ => ∀ supi, s.established[k]? = some supi → s.established.count supi = 1

variable {s : Counted}

theorem exact_empty : Exact empty := fun _ => Ues.counts_zero_iff.mpr rfl

theorem count_eraseIdx {l : List String} {k : Nat} {supi : String} (h : l[k]? = some supi)
    (other : String) :
    l.count other = (l.eraseIdx k).count other + if other = supi then 1 else 0 := by
  obtain ⟨hk, hget⟩ := List.getElem?_eq_some_iff.mp h
  have hperm := (List.getElem_cons_eraseIdx_perm hk).count_eq other
  rw [hget, List.count_cons] at hperm
  have hsame : (supi == other) = true ↔ other = supi := by rw [beq_iff_eq, eq_comm]
  rw [← hperm]
  simp only [hsame]

theorem exact_create (h : s.Exact) (supi id : String) : (s.step (.create supi id)).Exact := by
  intro other
  show Ues.Counts (s.ues.countCreated supi id) other ((supi :: s.established).count other)
  by_cases ho : other = supi
  · subst ho
    rw [List.count_cons_self]
    exact Ues.counts_countCreated (h other) id
  · rw [List.count_cons_of_ne (Ne.symm ho),
      Ues.counts_congr (Ues.lookup_countCreated_of_ne ho id)]
    exact h other

/-- A release counts its UE down by two and the others not at all. -/
theorem exact_release_iff (h : s.Exact) {k : Nat} {supi : String}
    (hk : s.established[k]? = some supi) (r : Release) :
    (s.step (.release k r)).Exact ↔ s.established.count supi = 1 := by
  have hstep : s.step (.release k r) =
      ⟨r.effects.foldl (Ues.perform supi) s.ues, s.established.eraseIdx k⟩ := by
    simp [step, hk]
  have hcount := count_eraseIdx hk
  have hself := hcount supi
  rw [if_pos rfl] at hself
  have hafter := Ues.counts_foldl_perform r.effects (h supi)
  rw [count_unSubscribe_release] at hafter
  rw [hstep]
  constructor
  · intro hexact
    have heq := Ues.Counts.eq (hexact supi) hafter
    simp only at heq
    omega
  · intro hone other
    show Ues.Counts _ other ((s.established.eraseIdx k).count other)
    by_cases ho : other = supi
    · subst ho
      have hzero : (s.established.eraseIdx k).count other = s.established.count other - 2 := by
        omega
      rw [hzero]
      exact hafter
    · rw [Ues.counts_congr (Ues.lookup_foldl_perform_of_ne ho _ _)]
      have hsame := hcount other
      rw [if_neg ho, Nat.add_zero] at hsame
      rw [← hsame]
      exact h other

/-- From an exact count, a creation leads to an exact count, and a release does exactly if the
    UE has no other session. -/
theorem exact_step_iff (h : s.Exact) (e : SessionEvent) : (s.step e).Exact ↔ s.Lone e := by
  cases e with
  | create supi id => exact iff_of_true (exact_create h supi id) trivial
  | release k r =>
    cases hk : s.established[k]? with
    | none =>
      simp [step, Lone, hk, h]
    | some supi =>
      rw [exact_release_iff h hk r]
      simp [Lone, hk]

/-- In a sequence of session creations and releases every UE is counted exactly at every time,
    and has its subscription exactly while it has a session, if and only if no session of a UE
    is released while the UE has another. -/
theorem pdu_session_count_exact_iff (es : List SessionEvent) :
    (∀ n, ((es.take n).foldl step empty).Exact) ↔ StepsMeet step Lone empty es :=
  forall_take_iff_stepsMeet Exact (fun _ e h => exact_step_iff h e) es exact_empty

/-- Two sessions of a UE; after a network release of one, the UE is not counted any more and
    its subscription is gone. -/
theorem subscription_deleted_early :
    let s := [SessionEvent.create "imsi-1" "sub-1", .create "imsi-1" "sub-2",
      .release 0 (.network
        { state := .active, selectedUPF := true, pDUAddress := some 10, anIPAddress := true,
          nrdcIndicator := false, pDUSessionReleaseDueToDupPduId := false, tunnel := [7],
          dcTunnel := [] } ⟨fun _ => .accepted, fun _ => .accepted⟩)].foldl step empty
    s.established = ["imsi-1"] ∧ s.ues.getPduSessionCount "imsi-1" = 0 ∧
      s.ues.ueExists "imsi-1" = false := by
  decide

end Counted

end Free5gc.Smf.Session
