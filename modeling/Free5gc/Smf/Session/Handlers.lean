/-
  Releasing an SM context in the SMF (NFs/smf/internal/sbi/processor: pdu_session.go,
  sm_common.go, datapath.go; NFs/smf/internal/context/sm_context.go).

  A handler runs under the lock of its context. It is modelled as a function from the
  context and the outcome of its PFCP requests to the new context and the list of what it
  does outside of the context, in the order in which it does it (`Effect`): addresses
  returned, PFCP sessions deleted, the UE's subscription counted down, removers started.
  Three developments read these lists: when an address may be returned (Addresses), which
  context a session id resolves to (Refs), and how many sessions of a UE are counted
  (Counting).

  Policy association, UE CM registration, charging and the notifications to AMF and BSF are
  left out: they change nothing that is read here. An update that returns early changes
  nothing here either and is no event.
-/
import Mathlib.Data.List.Dedup

namespace Free5gc.Smf.Session

/-! ## Contexts -/

/-- `SMContextState`. -/
inductive SMContextState where
  | inActive
  | activePending
  | active
  | inActivePending
  | modificationPending
  | pfcpModification
  deriving DecidableEq, Repr

/-- `PFCPSessionResponseStatus`; the zero value comes first. -/
inductive PFCPSessionResponseStatus where
  | sessionEstablishSuccess
  | sessionEstablishFailed
  | sessionUpdateSuccess
  | sessionUpdateFailed
  | sessionReleaseSuccess
  | sessionReleaseFailed
  deriving DecidableEq, Repr

/-- The fields of an `SMContext` that its release reads or writes. A tunnel is given by the
    UPFs on its data paths, `anIPAddress` says that `Tunnel.ANInformation.IPAddress` is set. -/
structure SMContext where
  state : SMContextState
  selectedUPF : Bool
  pDUAddress : Option UInt32
  anIPAddress : Bool
  nrdcIndicator : Bool
  pDUSessionReleaseDueToDupPduId : Bool
  tunnel : List Nat
  dcTunnel : List Nat
  deriving DecidableEq, Repr

/-- The address that a release of this context would return to its pool. -/
def SMContext.owned (c : SMContext) : Option UInt32 :=
  if c.selectedUPF then c.pDUAddress else none

/-- The UPFs that a release of this context sends deletion requests to. -/
def SMContext.reach (c : SMContext) : List Nat :=
  if c.nrdcIndicator then c.tunnel ++ c.dcTunnel else c.tunnel

/-- How a session deletion request ends. Nothing is known about the session when the answer
    is lost: the UPF may have carried the request out or not. -/
inductive Deletion where
  | accepted
  | rejected
  | timedOut (deleted : Bool)
  deriving DecidableEq, Repr

def Deletion.deletes : Deletion → Bool
  | accepted => true
  | rejected => false
  | timedOut deleted => deleted

/-- The outcomes of the deletion requests of one `releaseSession`, by UPF. -/
structure Deletions where
  tunnel : Nat → Deletion
  dcTunnel : Nat → Deletion

/-- Every deletion request is accepted. -/
def Deletions.Accepted (d : Deletions) : Prop :=
  ∀ upf, d.tunnel upf = .accepted ∧ d.dcTunnel upf = .accepted

/-- What a handler does outside of its context. -/
inductive Effect where
  /-- `upi.ReleaseUEIP` -/
  | releaseUEIP (addr : UInt32)
  /-- a session deletion request to a UPF, with its outcome -/
  | deletePfcpSession (upf : Nat) (outcome : Deletion)
  /-- `UnSubscribe`, if `Ues.UeExists` -/
  | unSubscribe
  /-- `go sendSMContextStatusNotificationAndRemoveSMContext` -/
  | goRemove
  /-- `smContextPool.Delete` -/
  | deleteRef
  /-- `canonicalRef.Delete` -/
  | deleteCanonical
  deriving DecidableEq, Repr

/-! ## Handlers under way -/

/-- A handler under way: its context, what it did so far, and its local variables
    `pfcpResponseStatus` and `sendPFCPModification`. -/
structure Progress where
  ctx : SMContext
  effects : List Effect := []
  pfcpResponseStatus : PFCPSessionResponseStatus := .sessionEstablishSuccess
  sendPFCPModification : Bool := false

namespace Progress

def emit (p : Progress) (es : List Effect) : Progress :=
  { p with effects := p.effects ++ es }

def setState (p : Progress) (s : SMContextState) : Progress :=
  { p with ctx := { p.ctx with state := s } }

/-- `ReleaseTunnel` and `ReleaseDcTunnel`: one deletion request to each UPF of the tunnel. -/
def releaseTunnel (upfs : List Nat) (d : Nat → Deletion) : List Effect :=
  upfs.dedup.map fun upf => .deletePfcpSession upf (d upf)

/-- Whether all results of `ReleaseTunnel` are `SessionReleaseSuccess`. -/
def released (upfs : List Nat) (d : Nat → Deletion) : Bool :=
  upfs.all fun upf => decide (d upf = .accepted)

def releaseSession (p : Progress) (d : Deletions) : Progress :=
  let p := (p.setState .pfcpModification).emit (releaseTunnel p.ctx.tunnel d.tunnel)
  if !released p.ctx.tunnel d.tunnel then
    { p with pfcpResponseStatus := .sessionReleaseFailed }
  else if !p.ctx.nrdcIndicator then
    { p with pfcpResponseStatus := .sessionReleaseSuccess }
  else
    let p := p.emit (releaseTunnel p.ctx.dcTunnel d.dcTunnel)
    if !released p.ctx.dcTunnel d.dcTunnel then
      { p with pfcpResponseStatus := .sessionReleaseFailed }
    else
      { p with pfcpResponseStatus := .sessionReleaseSuccess }

def removeSMContextFromAllNF (p : Progress) : Progress :=
  (p.setState .inActive).emit [.unSubscribe, .goRemove]

end Progress

/-! ## What `releaseSession` does -/

/-- The deletion requests of `releaseSession`: the second tunnel is only reached when the
    first is released. -/
def deletions (c : SMContext) (d : Deletions) : List Effect :=
  Progress.releaseTunnel c.tunnel d.tunnel ++
    if Progress.released c.tunnel d.tunnel && c.nrdcIndicator then
      Progress.releaseTunnel c.dcTunnel d.dcTunnel
    else []

/-- Whether `releaseSession` returns `SessionReleaseSuccess`. -/
def sessionReleased (c : SMContext) (d : Deletions) : Bool :=
  Progress.released c.tunnel d.tunnel &&
    (!c.nrdcIndicator || Progress.released c.dcTunnel d.dcTunnel)

theorem releaseSession_eq (p : Progress) (d : Deletions) :
    p.releaseSession d =
      { ctx := { p.ctx with state := .pfcpModification }
        effects := p.effects ++ deletions p.ctx d
        pfcpResponseStatus :=
          if sessionReleased p.ctx d then .sessionReleaseSuccess else .sessionReleaseFailed
        sendPFCPModification := p.sendPFCPModification } := by
  unfold Progress.releaseSession deletions sessionReleased
  cases ht : Progress.released p.ctx.tunnel d.tunnel <;>
    cases hn : p.ctx.nrdcIndicator <;>
    cases hdc : Progress.released p.ctx.dcTunnel d.dcTunnel <;>
    simp [Progress.emit, Progress.setState, ht, hn, hdc]

theorem sessionReleased_of_accepted (c : SMContext) {d : Deletions} (h : d.Accepted) :
    sessionReleased c d = true := by
  simp [sessionReleased, Progress.released, fun upf => (h upf).1, fun upf => (h upf).2]

/-! ## The handlers -/

/-- `HandlePDUSessionSMContextRelease`. -/
def handlePDUSessionSMContextRelease (c : SMContext) (d : Deletions) : Progress :=
  let p := Progress.mk c [.unSubscribe] .sessionEstablishSuccess false
  let p := p.releaseSession d
  let p := match p.pfcpResponseStatus with
    | .sessionReleaseSuccess => p.setState .inActive
    | _ => p.setState .active
  p.removeSMContextFromAllNF

/-- `HandlePDUSessionSMContextLocalRelease`. -/
def handlePDUSessionSMContextLocalRelease (c : SMContext) (d : Deletions) : Progress :=
  let p := Progress.mk c [.unSubscribe] .sessionEstablishSuccess false
  let p := p.releaseSession d
  match p.pfcpResponseStatus with
  | .sessionReleaseSuccess => (p.setState .inActivePending).removeSMContextFromAllNF
  | _ => p.setState .active

/-- `RemoveSMContext`, for a context that is still in the pool. -/
def removeSMContext (c : SMContext) : Progress :=
  match c.owned with
  | some addr =>
    { ctx := { c with selectedUPF := false, nrdcIndicator := false }
      effects := [.releaseUEIP addr, .deleteRef, .deleteCanonical] }
  | none =>
    { ctx := { c with nrdcIndicator := false }, effects := [.deleteRef, .deleteCanonical] }

/-! ## Updates -/

/-- The N1 messages of an update that take part in a release. -/
inductive N1Message where
  | pDUSessionReleaseRequest
  | pDUSessionReleaseComplete
  deriving DecidableEq, Repr

/-- What the parts of an update that do not release the session do to the context: they may
    change its state, though never to InActive, its AN information and its tunnels, and ask
    for a PFCP modification. -/
structure Change where
  state : Option SMContextState
  anIPAddress : Bool
  nrdcIndicator : Bool
  tunnel : List Nat
  dcTunnel : List Nat
  sendPFCPModification : Bool
  state_ne : state ≠ some .inActive

def Change.apply (ch : Change) (p : Progress) : Progress :=
  { p with
    ctx := { p.ctx with
      state := ch.state.getD p.ctx.state
      anIPAddress := ch.anIPAddress
      nrdcIndicator := ch.nrdcIndicator
      tunnel := ch.tunnel
      dcTunnel := ch.dcTunnel }
    sendPFCPModification := p.sendPFCPModification || ch.sendPFCPModification }

/-- `N2SmInfoType`: a release response, or an information that only changes the context. -/
inductive N2SmInfo where
  | pduResRelRsp
  | other (ch : Change)

/-- A request to `HandlePDUSessionSMContextUpdate`, with what happens while it is served:
    the outcomes of the deletion requests (of the release request and of the duplicate
    cause) and whether a PFCP modification succeeds. -/
structure Update where
  n1SmMessage : Option N1Message := none
  upCnxState : Option Change := none
  n2SmInfo : Option N2SmInfo := none
  hoState : Option Change := none
  relDueToDuplicateSessionId : Bool := false
  n1Deletions : Deletions
  dupDeletions : Deletions
  modified : Bool := true

namespace Update

/-- The N1 message. A release request returns the address at once. -/
def handleN1 (u : Update) (p : Progress) : Progress :=
  match u.n1SmMessage with
  | some .pDUSessionReleaseRequest =>
    let p := match p.ctx.owned with
      | some addr =>
        { p.emit [.releaseUEIP addr] with ctx := { p.ctx with pDUAddress := none } }
      | none => p
    ((p.emit [.unSubscribe]).setState .pfcpModification).releaseSession u.n1Deletions
  | some .pDUSessionReleaseComplete =>
    let p := p.setState .inActive
    if p.ctx.anIPAddress then p else p.removeSMContextFromAllNF
  | none => p

def handleUpCnxState (u : Update) (p : Progress) : Progress :=
  match u.upCnxState with
  | some ch => ch.apply p
  | none => p

def handleN2 (u : Update) (p : Progress) : Progress :=
  match u.n2SmInfo with
  | some .pduResRelRsp =>
    let p := { p with ctx := { p.ctx with anIPAddress := false } }
    -- with and without the duplicate flag
    if p.ctx.state = .inActive then p.removeSMContextFromAllNF else p
  | some (.other ch) => ch.apply p
  | none => p

def handleHoState (u : Update) (p : Progress) : Progress :=
  match u.hoState with
  | some ch => ch.apply p
  | none => p

def handleCause (u : Update) (p : Progress) : Progress :=
  if u.relDueToDuplicateSessionId then
    let p := { p with ctx := { p.ctx with pDUSessionReleaseDueToDupPduId := true } }
    match p.ctx.state with
    | .activePending | .modificationPending | .active => p.releaseSession u.dupDeletions
    | _ => p
  else p

/-- The switch on the state at the end of an update. -/
def handleState (u : Update) (p : Progress) : Progress :=
  match p.ctx.state with
  | .pfcpModification =>
    let p := if p.sendPFCPModification then
        { p with pfcpResponseStatus :=
            if u.modified then .sessionUpdateSuccess else .sessionUpdateFailed }
      else p
    match p.pfcpResponseStatus with
    | .sessionUpdateSuccess => p.setState .active
    | .sessionUpdateFailed => p.setState .active
    | .sessionReleaseSuccess => p.setState .inActivePending
    | .sessionReleaseFailed => p.setState .active
    | _ => p
  | .modificationPending => p.setState .active
  | _ => p

/-- The local release that ends an update of a context with the duplicate flag. -/
def handleDup (p : Progress) : Progress :=
  if p.ctx.pDUSessionReleaseDueToDupPduId then p.removeSMContextFromAllNF else p

end Update

/-- `HandlePDUSessionSMContextUpdate`. -/
def handlePDUSessionSMContextUpdate (c : SMContext) (u : Update) : Progress :=
  let p := Progress.mk c [] .sessionEstablishSuccess false
  let p := u.handleN1 p
  let p := u.handleUpCnxState p
  let p := u.handleN2 p
  let p := u.handleHoState p
  let p := u.handleCause p
  let p := u.handleState p
  Update.handleDup p

end Free5gc.Smf.Session
