/-
  What the request handlers do to the parts of the server: a response touches the RX
  transactions and the connection only, and every handler is one of a few operations on the
  rest. The proofs about handlers go by these case lemmas and never unfold a handler again.
-/
import Free5gc.Upf.Pfcp.Session

namespace Free5gc.Upf.PfcpServer

open Free5gc.Lib

/-! ## Responses -/

/-- `s'` is `s` but for the response kept under `key` and the datagrams written. -/
def SameButResponse (key : String) (s s' : PfcpServer) : Prop :=
  { s' with rxTrans := s.rxTrans, conn := s.conn } = s ∧
    ∀ k, k ≠ key → s'.rxTrans.lookup k = s.rxTrans.lookup k

theorem sameButResponse_refl (key : String) (s : PfcpServer) : SameButResponse key s s :=
  ⟨rfl, fun _ _ => rfl⟩

theorem sameButResponse_sendRspTo (W : World) (s : PfcpServer) (msg : Message) (addr : Addr) :
    SameButResponse (trID addr msg.sequence) s (s.sendRspTo W msg addr) := by
  unfold sendRspTo
  split_ifs
  · split
    · exact sameButResponse_refl _ s
    · rename_i rx hrx
      unfold rxSend
      split
      · exact sameButResponse_refl _ s
      · refine ⟨rfl, fun k hk => ?_⟩
        exact Finmap.lookup_insert_of_ne _ hk
  · exact sameButResponse_refl _ s

section

variable (W : World) (s : PfcpServer) (msg : Message) (addr : Addr)

@[simp] theorem sendRspTo_driver : (s.sendRspTo W msg addr).driver = s.driver := by
  have h := congrArg driver (sameButResponse_sendRspTo W s msg addr).1
  exact h

@[simp] theorem sendRspTo_lnode : (s.sendRspTo W msg addr).lnode = s.lnode := by
  have h := congrArg lnode (sameButResponse_sendRspTo W s msg addr).1
  exact h

@[simp] theorem sendRspTo_nodes : (s.sendRspTo W msg addr).nodes = s.nodes := by
  have h := congrArg nodes (sameButResponse_sendRspTo W s msg addr).1
  exact h

@[simp] theorem sendRspTo_rnodes : (s.sendRspTo W msg addr).rnodes = s.rnodes := by
  have h := congrArg rnodes (sameButResponse_sendRspTo W s msg addr).1
  exact h

end

/-- The cause of a session response. -/
def causeOf : Option Message → Option Cause
  | some (.sessionEstablishmentResponse rsp) => some rsp.cause
  | some (.sessionModificationResponse rsp) => some rsp.cause
  | some (.sessionDeletionResponse rsp) => some rsp.cause
  | _ => none

/-- The request is answered with a cause other than Request Accepted. -/
def Rejects (rsp : Option Message) : Prop := ∃ c, causeOf rsp = some c ∧ c ≠ .requestAccepted

instance (rsp : Option Message) : Decidable (Rejects rsp) :=
  decidable_of_iff ((causeOf rsp).any (· != .requestAccepted) = true) (by
    rw [Option.any_eq_true]
    simp [Rejects])

/-- The SEID of the session that an accepting establishment response announces. -/
def acceptedSEID : Option Message → Option Nat
  | some (.sessionEstablishmentResponse rsp) =>
    if rsp.cause = .requestAccepted then rsp.fseid.map Prod.fst else none
  | _ => none

theorem acceptedSEID_of_ne {rsp : SessionEstablishmentResponse}
    (h : rsp.cause ≠ .requestAccepted) :
    acceptedSEID (some (.sessionEstablishmentResponse rsp)) = none :=
  if_neg h

/-! ## Establishment -/

/-- `handleSessionEstablishmentRequest` rejects at once, or allocates a session under a
    registered node and goes on with it. -/
theorem handleSessionEstablishmentRequest_cases (W : World) (s : PfcpServer)
    (req : SessionEstablishmentRequest) (addr : Addr) :
    ((∀ rnodeid n rSeid, req.nodeID = some (some rnodeid) →
        s.rnodes.lookup rnodeid = some n → req.cpFSEID ≠ some (some rSeid)) ∧
      ∃ rsp, rsp.cause ≠ .requestAccepted ∧
        s.handleSessionEstablishmentRequest W req addr =
          (s.sendRspTo W (.sessionEstablishmentResponse rsp) addr,
            some (.sessionEstablishmentResponse rsp))) ∨
    (∃ rnodeid n rSeid, req.nodeID = some (some rnodeid) ∧ req.cpFSEID = some (some rSeid) ∧
      s.rnodes.lookup rnodeid = some n ∧
      s.handleSessionEstablishmentRequest W req addr =
        (s.newSess n rSeid).1.establish W req addr n (s.newSess n rSeid).2) := by
  have hfail : ∀ cause, cause ≠ Cause.requestAccepted →
      ∃ rsp : SessionEstablishmentResponse, rsp.cause ≠ .requestAccepted ∧
        s.sendSessEstFailRsp W req.seq addr cause =
          (s.sendRspTo W (.sessionEstablishmentResponse rsp) addr,
            some (.sessionEstablishmentResponse rsp)) :=
    fun _ hc => ⟨_, hc, rfl⟩
  unfold handleSessionEstablishmentRequest
  split
  · rename_i hid
    refine Or.inl ⟨fun rnodeid n rSeid hid' => ?_, hfail _ (by decide)⟩
    rw [hid'] at hid
    cases hid
  · rename_i rnodeid hid
    rw [Option.join_eq_some_iff] at hid
    split
    · rename_i hn
      refine Or.inl ⟨fun rnodeid' n rSeid hid' hn' => ?_, hfail _ (by decide)⟩
      rw [hid] at hid'
      cases hid'
      rw [hn] at hn'
      cases hn'
    · rename_i n hn
      split
      · rename_i hseid
        refine Or.inl ⟨fun rnodeid' n' rSeid _ _ hseid' => ?_, hfail _ (by decide)⟩
        rw [hseid'] at hseid
        cases hseid
      · rename_i rSeid hseid
        rw [Option.join_eq_some_iff] at hseid
        exact Or.inr ⟨rnodeid, n, rSeid, hid, hseid, hn, rfl⟩

theorem pfcpCauseFromError_ne (e : RuleError) : pfcpCauseFromError e ≠ .requestAccepted := by
  cases e
  all_goals decide

/-- The driver after a failed establishment, before the session is deleted: as it was when
    the plan is not valid, and as the failed execution left it otherwise. -/
def failedDriver (W : World) (g : Gtp5g) (sess : Sess) (req : SessionEstablishmentRequest) :
    Option Gtp5g :=
  match establishmentPlan sess req with
  | .error _ => some g
  | .ok plan =>
    match executeEstablishmentPlan W.toOracle g plan with
    | .error g' => some g'
    | .ok _ => none

/-- `establish` fails and deletes the session again, or stores the session with the plan
    applied. -/
theorem establish_cases (W : World) (s : PfcpServer) (req : SessionEstablishmentRequest)
    (addr : Addr) (n : Nat) (sess : Sess) :
    (∃ g rsp, failedDriver W s.driver sess req = some g ∧ rsp.cause ≠ .requestAccepted ∧
      s.establish W req addr n sess =
        (((({ s with driver := g } : PfcpServer).sendRspTo W
          (.sessionEstablishmentResponse rsp) addr).deleteSess W n sess.localID).1,
          some (.sessionEstablishmentResponse rsp))) ∨
    (∃ plan g rsp, establishmentPlan sess req = .ok plan ∧
      executeEstablishmentPlan W.toOracle s.driver plan = .ok g ∧
      acceptedSEID (some (.sessionEstablishmentResponse rsp)) =
        some (sess.applyCreates plan).localID ∧ rsp.cause = .requestAccepted ∧
      s.establish W req addr n sess =
        ((({ s with driver := g } : PfcpServer).setSess (sess.applyCreates plan)).sendRspTo W
          (.sessionEstablishmentResponse rsp) addr,
          some (.sessionEstablishmentResponse rsp))) := by
  unfold establish failedDriver
  cases hplan : establishmentPlan sess req with
  | error e => exact Or.inl ⟨_, _, rfl, pfcpCauseFromError_ne e, rfl⟩
  | ok plan =>
    dsimp only
    cases hg : executeEstablishmentPlan W.toOracle s.driver plan with
    | error g =>
      refine Or.inl ⟨g, _, rfl, ?_, rfl⟩
      intro h
      cases h
    | ok g => exact Or.inr ⟨plan, g, _, rfl, hg, rfl, rfl, rfl⟩

/-! ## Modification -/

/-- The server in which a modification is validated: the session's node is renamed when the
    request has a Node ID. -/
def renamed (s : PfcpServer) (sess : Sess) (req : SessionModificationRequest) : PfcpServer :=
  match req.nodeID with
  | some (some rnodeid) => s.updateNodeID sess.rnode rnodeid
  | _ => s

theorem handleSessionModificationRequest_found {W : World} {s : PfcpServer}
    {req : SessionModificationRequest} {addr : Addr} {sess : Sess}
    (hs : s.lnode.sessOf req.seid = some sess) (hid : req.nodeID ≠ some none) :
    s.handleSessionModificationRequest W req addr =
      (s.renamed sess req).modifySess W sess req addr := by
  unfold handleSessionModificationRequest renamed
  rw [hs]
  dsimp only
  split
  · rename_i h
    rw [h]
  · rename_i h
    exact absurd h hid
  · rename_i rnodeid h
    rw [h]

/-- `handleSessionModificationRequest` finds no session, ignores a request whose Node ID does
    not decode, or validates the request on the renamed server and rejects or executes it. -/
theorem handleSessionModificationRequest_cases (W : World) (s : PfcpServer)
    (req : SessionModificationRequest) (addr : Addr) :
    (s.lnode.sessOf req.seid = none ∧
      s.handleSessionModificationRequest W req addr =
        s.sendSessModRsp W req.seq 0 addr .sessionContextNotFound []) ∨
    (∃ sess, s.lnode.sessOf req.seid = some sess ∧ req.nodeID = some none ∧
      s.handleSessionModificationRequest W req addr = (s, none)) ∨
    (∃ sess e, s.lnode.sessOf req.seid = some sess ∧ req.nodeID ≠ some none ∧
      modificationPlan sess req = .error e ∧
      s.handleSessionModificationRequest W req addr =
        (s.renamed sess req).sendSessModRsp W req.seq sess.remoteID addr
          (pfcpCauseFromError e) []) ∨
    (∃ sess plan, s.lnode.sessOf req.seid = some sess ∧ req.nodeID ≠ some none ∧
      modificationPlan sess req = .ok plan ∧
      s.handleSessionModificationRequest W req addr =
        (s.renamed sess req).executePlan W sess plan req.seq addr) := by
  cases hs : s.lnode.sessOf req.seid with
  | none =>
    refine Or.inl ⟨rfl, ?_⟩
    unfold handleSessionModificationRequest
    rw [hs]
  | some sess =>
    refine Or.inr ?_
    by_cases hid : req.nodeID = some none
    · refine Or.inl ⟨sess, rfl, hid, ?_⟩
      unfold handleSessionModificationRequest
      rw [hs, hid]
    · refine Or.inr ?_
      rw [handleSessionModificationRequest_found hs hid]
      unfold modifySess
      cases hplan : modificationPlan sess req with
      | error e => exact Or.inl ⟨sess, e, rfl, hid, hplan, rfl⟩
      | ok plan => exact Or.inr ⟨sess, plan, rfl, hid, hplan, rfl⟩

/-- What `executePlan` does, written with projections. -/
theorem executePlan_eq (W : World) (s : PfcpServer) (sess : Sess) (plan : ModificationPlan)
    (seq : UInt32) (addr : Addr) :
    s.executePlan W sess plan seq addr =
      let x := sess.runPlan W.toOracle plan s.driver
      let rsp := Message.sessionModificationResponse
        ⟨seq, x.2.1.remoteID, .requestAccepted, x.2.2⟩
      ((({ s with driver := x.1 } : PfcpServer).setSess x.2.1).sendRspTo W rsp addr, some rsp) :=
  rfl

/-! ## Deletion -/

/-- `handleSessionDeletionRequest` finds no session, or deletes the one it finds through the
    session's node. -/
theorem handleSessionDeletionRequest_cases (W : World) (s : PfcpServer) (seq : UInt32)
    (lSeid : Nat) (addr : Addr) :
    (s.lnode.sessOf lSeid = none ∧ ∃ rsp, rsp.usageReport = [] ∧
      s.handleSessionDeletionRequest W seq lSeid addr =
        (s.sendRspTo W (.sessionDeletionResponse rsp) addr,
          some (.sessionDeletionResponse rsp))) ∨
    (∃ sess, s.lnode.sessOf lSeid = some sess ∧
      let d := s.deleteSess W sess.rnode lSeid
      let rsp := Message.sessionDeletionResponse
        ⟨seq, sess.remoteID, .requestAccepted, false,
          (d.2.1.foldl Sess.putReportDel (d.2.2.getD sess, [])).2⟩
      s.handleSessionDeletionRequest W seq lSeid addr =
        (d.1.sendRspTo W rsp addr, some rsp)) := by
  unfold handleSessionDeletionRequest
  cases hs : s.lnode.sessOf lSeid with
  | none => exact Or.inl ⟨rfl, _, rfl, rfl⟩
  | some sess => exact Or.inr ⟨sess, rfl, rfl⟩

/-! ## Association setup -/

theorem handleAssociationSetupRequest_cases (W : World) (s : PfcpServer)
    (req : AssociationSetupRequest) (addr : Addr) :
    (setupNodeID req = none ∧ s.handleAssociationSetupRequest W req addr = (s, none)) ∨
    (∃ rnodeid rsp, setupNodeID req = some rnodeid ∧
      s.handleAssociationSetupRequest W req addr =
        (((s.deleteNode W rnodeid).addNode rnodeid addr).sendRspTo W rsp addr, some rsp)) := by
  unfold handleAssociationSetupRequest
  cases hid : setupNodeID req with
  | none => exact Or.inl ⟨rfl, rfl⟩
  | some rnodeid => exact Or.inr ⟨rnodeid, _, rfl, rfl⟩

/-! ## Runs of requests -/

/-- A request and where it came from. -/
abbrev Request := Message × Addr

/-- The server after a request was dispatched. -/
def handle (W : World) (s : PfcpServer) (r : Request) : PfcpServer :=
  (s.reqDispacher W r.1 r.2).1

/-- An Association Setup Request that is accepted. -/
def setupRequest (seq : UInt32) (id : String) : Message :=
  .associationSetupRequest ⟨seq, some (some id), some true⟩

/-- A Session Establishment Request of this node without rules. -/
def establishRequest (seq : UInt32) (id : String) (rSeid : Nat) :
    SessionEstablishmentRequest :=
  { seq, nodeID := some (some id), cpFSEID := some (some rSeid), createFAR := [],
    createQER := [], createURR := [], createBAR := none, createPDR := [] }

/-- Two associations with one session each: SEID 1 under `smf1` and SEID 2 under `smf2`. -/
def twoAssociations : List Request :=
  [(setupRequest 1 "smf1", "10.0.0.1:8805"), (setupRequest 1 "smf2", "10.0.0.2:8805"),
    (.sessionEstablishmentRequest (establishRequest 2 "smf1" 10), "10.0.0.1:8805"),
    (.sessionEstablishmentRequest (establishRequest 2 "smf2" 20), "10.0.0.2:8805")]

end Free5gc.Upf.PfcpServer
