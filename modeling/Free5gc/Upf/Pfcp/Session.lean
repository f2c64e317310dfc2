/-
  The request handlers of the PFCP server: sessions (`internal/pfcp/session.go`),
  associations (`association.go`) and heartbeats (`heartbeat.go`).

  A handler returns the server and the response that it hands to `sendRspTo`, `none` where
  it sends nothing. The validation loops read the plan built so far only through the create
  lists that are already complete, so a loop that validates and appends is `List.mapM`.
-/
import Free5gc.Upf.Pfcp.Server

namespace Free5gc.Upf

open Free5gc.Lib

/-! ## Validation -/

/-- `pfcpCauseFromError`. -/
def pfcpCauseFromError : RuleError → Cause
  | .missingMandatoryIE => .mandatoryIEMissing
  | .missingConditionalIE => .conditionalIEMissing
  | .ruleNotFound => .ruleCreationModificationFailure
  | .ruleCreationModificationFailed => .ruleCreationModificationFailure
  | .mutualExclusionConflict => .ruleCreationModificationFailure

/-- `checkDuplicates` of `validateMutualExclusion`. -/
def checkDuplicates {α : Type} [DecidableEq α] (ids : List α) : Except RuleError Unit :=
  if ids.Nodup then .ok () else .error .mutualExclusionConflict

/-- `checkOverlap` of `validateMutualExclusion`. -/
def checkOverlap {α : Type} [DecidableEq α] (ids₁ ids₂ : List α) : Except RuleError Unit :=
  if ids₂.any fun id => id ∈ ids₁ then .error .mutualExclusionConflict else .ok ()

/-- `validateMutualExclusion`: no rule is created twice, removed twice, or removed and
    updated (or queried) in one request. -/
def validateMutualExclusion (plan : ModificationPlan) : Except RuleError Unit := do
  checkDuplicates (plan.createPDRs.map (·.pdrid))
  checkDuplicates (plan.removePDRs.map (·.pdrid))
  checkOverlap (plan.removePDRs.map (·.pdrid)) (plan.updatePDRs.map (·.pdrid))
  checkDuplicates (plan.createFARs.map (·.farid))
  checkDuplicates (plan.removeFARs.map (·.farid))
  checkOverlap (plan.removeFARs.map (·.farid)) (plan.updateFARs.map (·.farid))
  checkDuplicates (plan.createQERs.map (·.qerid))
  checkDuplicates (plan.removeQERs.map (·.qerid))
  checkOverlap (plan.removeQERs.map (·.qerid)) (plan.updateQERs.map (·.qerid))
  checkDuplicates (plan.createURRs.map (·.urrid))
  checkDuplicates (plan.removeURRs.map (·.urrid))
  checkOverlap (plan.removeURRs.map (·.urrid)) (plan.updateURRs.map (·.urrid))
  checkOverlap (plan.removeURRs.map (·.urrid)) (plan.queryURRs.map (·.queryURRID))
  checkDuplicates (plan.createBARs.map (·.barid))
  checkDuplicates (plan.removeBARs.map (·.barid))
  checkOverlap (plan.removeBARs.map (·.barid)) (plan.updateBARs.map (·.barid))

/-- Phase 1 of `handleSessionEstablishmentRequest`. -/
def establishmentPlan (sess : Sess) (req : SessionEstablishmentRequest) :
    Except RuleError ModificationPlan := do
  let plan := ModificationPlan.new sess.localID
  let createFARs ← req.createFAR.mapM sess.validateCreateFAR
  let createQERs ← req.createQER.mapM sess.validateCreateQER
  let createURRs ← req.createURR.mapM sess.validateCreateURR
  let createBARs ← req.createBAR.toList.mapM sess.validateCreateBAR
  let plan := { plan with createFARs, createQERs, createURRs, createBARs }
  let createPDRs ← req.createPDR.mapM (sess.validateCreatePDR plan)
  return { plan with createPDRs }

/-- Phase 1 of `handleSessionModificationRequest`. -/
def modificationPlan (sess : Sess) (req : SessionModificationRequest) :
    Except RuleError ModificationPlan := do
  let plan := ModificationPlan.new sess.localID
  let createFARs ← req.createFAR.mapM sess.validateCreateFAR
  let createQERs ← req.createQER.mapM sess.validateCreateQER
  let createURRs ← req.createURR.mapM sess.validateCreateURR
  let createBARs ← req.createBAR.toList.mapM sess.validateCreateBAR
  let plan := { plan with createFARs, createQERs, createURRs, createBARs }
  let createPDRs ← req.createPDR.mapM (sess.validateCreatePDR plan)
  let plan := { plan with createPDRs }
  let updateFARs ← req.updateFAR.mapM (sess.validateUpdateFAR plan)
  let updateQERs ← req.updateQER.mapM (sess.validateUpdateQER plan)
  let updateURRs ← req.updateURR.mapM (sess.validateUpdateURR plan)
  let updateBARs ← req.updateBAR.toList.mapM (sess.validateUpdateBAR plan)
  let updatePDRs ← req.updatePDR.mapM (sess.validateUpdatePDR plan)
  let queryURRs ← req.queryURR.mapM (sess.validateQueryURR plan)
  let removeFARs ← req.removeFAR.mapM (sess.validateRemoveFAR plan)
  let removeQERs ← req.removeQER.mapM (sess.validateRemoveQER plan)
  let removeURRs ← req.removeURR.mapM (sess.validateRemoveURR plan)
  let removeBARs ← req.removeBAR.toList.mapM (sess.validateRemoveBAR plan)
  let removePDRs ← req.removePDR.mapM (sess.validateRemovePDR plan)
  let plan := { plan with
    updateFARs, updateQERs, updateURRs, updateBARs, updatePDRs, queryURRs,
    removeFARs, removeQERs, removeURRs, removeBARs, removePDRs }
  validateMutualExclusion plan
  return plan

/-! ## Execution and apply -/

/-- The triggers that `handleSessionModificationRequest` adds to an executed report. -/
def markTriggers (plan : ModificationPlan) (r : USAReport) : USAReport :=
  let r := if plan.removeURRs.any fun p => p.urrid == r.urrid then r.flag usarTrigTermr else r
  if plan.queryURRs.any fun p => p.queryURRID == r.urrid then r.flag usarTrigImmer else r

/-- Phases 2 and 3 of `handleSessionModificationRequest`: the driver, the session and the
    usage reports to be sent. -/
def Sess.executeAndApply (O : Oracle) (plan : ModificationPlan) (g : Gtp5g) (s : Sess) :
    Gtp5g × Sess × List USAReport :=
  let (g, q, reports) := executeModificationPlan O g s.q plan
  let s := { s with q }.applyCreates plan
  let s := plan.updateURRs.foldl Sess.applyUpdateURR s
  let (g, s, usars) := Sess.applyPDRs (Sess.applyUpdatePDR O) plan.updatePDRs g s []
  let (g, s, usars) := Sess.applyPDRs (Sess.applyRemovePDR O) plan.removePDRs g s usars
  (g, s.applyRemoves plan, usars ++ reports.map (markTriggers plan))

/-- Number a usage report and put it into a message, rendered by `render`; a report of a
    URR the session does not have is dropped. -/
def Sess.putReport (render : USAReport → MeasureMethod → MeasureInformation → List UsageIE)
    (acc : Sess × List UsageReport) (r : USAReport) : Sess × List UsageReport :=
  match acc.1.urrIDs.lookup r.urrid with
  | none => acc
  | some info =>
    let (urseqn, s) := acc.1.urrSeq r.urrid
    let r := { r with urseqn }
    (s, acc.2 ++ [⟨r, render r info.measureMethod info.measureInformation⟩])

/-- Execute and apply a plan, put the usage reports into the response, and sweep the URRs
    that were removed. -/
def Sess.runPlan (O : Oracle) (plan : ModificationPlan) (g : Gtp5g) (s : Sess) :
    Gtp5g × Sess × List UsageReport :=
  let (g, s, usars) := s.executeAndApply O plan g
  let (s, reports) := usars.foldl (Sess.putReport USAReport.iesWithinSessModRsp) (s, [])
  let (g, s) := s.cleanupRemovedURRs O g
  (g, s, reports)

/-- `putReport` in `handleSessionDeletionRequest`, which also flags the report and deletes the
    entry of a URR that is marked removed, inside the loop. -/
def Sess.putReportDel (acc : Sess × List UsageReport) (r : USAReport) :
    Sess × List UsageReport :=
  match acc.1.urrIDs.lookup r.urrid with
  | none => acc
  | some info =>
    let (urseqn, s) := acc.1.urrSeq r.urrid
    let r := { r with urseqn }.flag usarTrigTermr
    (if info.removed then { s with urrIDs := s.urrIDs.erase r.urrid } else s,
      acc.2 ++ [⟨r, r.iesWithinSessDelRsp info.measureMethod info.measureInformation⟩])

/-- `getUEAddressFromPDR`: the first UE IP Address of the first PDI that has one, `none`
    as soon as an element does not decode. -/
def getUEAddressFromPDR (pdr : GroupedIE) : Option String :=
  match pdr with
  | none => none
  | some ies => go ies
where
  go : List IE → Option String
    | [] => none
    | .pdi p :: rest =>
      match p.ueIPAddresses with
      | none => none
      | some [] => go rest
      | some (x :: _) => x
    | _ :: rest => go rest

/-- `getPDRIDFromPDR`: the first PDR id, 0 where there is none. -/
def getPDRIDFromPDR (pdr : GroupedIE) : UInt16 :=
  match pdr with
  | none => 0
  | some ies => (ies.findSome? fun i =>
      match i with
      | .pdrID v => some (v.getD 0)
      | _ => none).getD 0

/-- The Created PDR elements of an accepting establishment response. -/
def createdPDRList (plan : ModificationPlan) : List (UInt16 × String) :=
  plan.createPDRs.filterMap fun p =>
    (getUEAddressFromPDR p.originalIE).map fun ue => (getPDRIDFromPDR p.originalIE, ue)

namespace PfcpServer

/-! ## Session handlers -/

/-- `sendSessEstFailRsp`. -/
def sendSessEstFailRsp (W : World) (s : PfcpServer) (seq : UInt32) (addr : Addr)
    (cause : Cause) : PfcpServer × Option Message :=
  let rsp := .sessionEstablishmentResponse
    { seq, seid := 0, cause, nodeID := none, fseid := none, createdPDR := [] }
  (s.sendRspTo W rsp addr, some rsp)

/-- The part of `handleSessionEstablishmentRequest` after a session was allocated. -/
def establish (W : World) (s : PfcpServer) (req : SessionEstablishmentRequest) (addr : Addr)
    (n : Nat) (sess : Sess) : PfcpServer × Option Message :=
  match establishmentPlan sess req with
  | .error e =>
    let (s, rsp) := s.sendSessEstFailRsp W req.seq addr (pfcpCauseFromError e)
    ((s.deleteSess W n sess.localID).1, rsp)
  | .ok plan =>
    match executeEstablishmentPlan W.toOracle s.driver plan with
    | .error g =>
      let (s, rsp) := { s with driver := g }.sendSessEstFailRsp W req.seq addr
        .ruleCreationModificationFailure
      ((s.deleteSess W n sess.localID).1, rsp)
    | .ok g =>
      let sess := sess.applyCreates plan
      let rsp := .sessionEstablishmentResponse
        { seq := req.seq, seid := sess.remoteID, cause := .requestAccepted,
          nodeID := some W.nodeID, fseid := some (sess.localID, W.resolveIPAddr W.nodeID),
          createdPDR := createdPDRList plan }
      (({ s with driver := g }.setSess sess).sendRspTo W rsp addr, some rsp)

def handleSessionEstablishmentRequest (W : World) (s : PfcpServer)
    (req : SessionEstablishmentRequest) (addr : Addr) : PfcpServer × Option Message :=
  match req.nodeID.join with
  | none => s.sendSessEstFailRsp W req.seq addr .mandatoryIEMissing
  | some rnodeid =>
    match s.rnodes.lookup rnodeid with
    | none => s.sendSessEstFailRsp W req.seq addr .noEstablishedPFCPAssociation
    | some n =>
      match req.cpFSEID.join with
      | none => s.sendSessEstFailRsp W req.seq addr .mandatoryIEMissing
      | some rSeid =>
        let (s, sess) := s.newSess n rSeid
        s.establish W req addr n sess

/-- The end of `handleSessionModificationRequest`: a response of this cause. -/
def sendSessModRsp (W : World) (s : PfcpServer) (seq : UInt32) (seid : Nat) (addr : Addr)
    (cause : Cause) (usageReport : List UsageReport) : PfcpServer × Option Message :=
  let rsp := .sessionModificationResponse { seq, seid, cause, usageReport }
  (s.sendRspTo W rsp addr, some rsp)

/-- Phases 2 and 3 of `handleSessionModificationRequest` and the accepting response. -/
def executePlan (W : World) (s : PfcpServer) (sess : Sess) (plan : ModificationPlan)
    (seq : UInt32) (addr : Addr) : PfcpServer × Option Message :=
  let (g, sess, reports) := sess.runPlan W.toOracle plan s.driver
  ({ s with driver := g }.setSess sess).sendSessModRsp W seq sess.remoteID addr
    .requestAccepted reports

/-- `handleSessionModificationRequest` after the Node ID was dealt with. -/
def modifySess (W : World) (s : PfcpServer) (sess : Sess) (req : SessionModificationRequest)
    (addr : Addr) : PfcpServer × Option Message :=
  match modificationPlan sess req with
  | .error e => s.sendSessModRsp W req.seq sess.remoteID addr (pfcpCauseFromError e) []
  | .ok plan => s.executePlan W sess plan req.seq addr

def handleSessionModificationRequest (W : World) (s : PfcpServer)
    (req : SessionModificationRequest) (addr : Addr) : PfcpServer × Option Message :=
  match s.lnode.sessOf req.seid with
  | none => s.sendSessModRsp W req.seq 0 addr .sessionContextNotFound []
  | some sess =>
    match req.nodeID with
    | none => s.modifySess W sess req addr
    | some none => (s, none)
    | some (some rnodeid) => (s.updateNodeID sess.rnode rnodeid).modifySess W sess req addr

def handleSessionDeletionRequest (W : World) (s : PfcpServer) (seq : UInt32) (lSeid : Nat)
    (addr : Addr) : PfcpServer × Option Message :=
  match s.lnode.sessOf lSeid with
  | none =>
    let rsp := .sessionDeletionResponse
      { seq, seid := 0, cause := .sessionContextNotFound, reportType := true,
        usageReport := [] }
    (s.sendRspTo W rsp addr, some rsp)
  | some sess =>
    let (s, usars, closed) := s.deleteSess W sess.rnode lSeid
    let (_, usageReport) := usars.foldl Sess.putReportDel (closed.getD sess, [])
    let rsp := .sessionDeletionResponse
      { seq, seid := sess.remoteID, cause := .requestAccepted, reportType := false,
        usageReport }
    (s.sendRspTo W rsp addr, some rsp)

/-! ## Association and heartbeat handlers -/

/-- The Node ID of an Association Setup Request that passes validation. -/
def setupNodeID (req : AssociationSetupRequest) : Option String :=
  match req.nodeID.join with
  | none => none
  | some rnodeid =>
    if rnodeid = "" then none
    else if req.recoveryTimeStamp = some true then some rnodeid
    else none

/-- Delete the association under this id, if there is one, with its sessions. -/
def deleteNode (W : World) (s : PfcpServer) (rnodeid : String) : PfcpServer :=
  match s.rnodes.lookup rnodeid with
  | none => s
  | some n =>
    let s := s.reset W n
    { s with rnodes := s.rnodes.erase rnodeid }

/-- Register a new node under this id. -/
def addNode (s : PfcpServer) (rnodeid : String) (addr : Addr) : PfcpServer :=
  let (s, n) := s.newNode rnodeid addr
  { s with rnodes := s.rnodes.insert rnodeid n }

def handleAssociationSetupRequest (W : World) (s : PfcpServer)
    (req : AssociationSetupRequest) (addr : Addr) : PfcpServer × Option Message :=
  match setupNodeID req with
  | none => (s, none)
  | some rnodeid =>
    let s := (s.deleteNode W rnodeid).addNode rnodeid addr
    let rsp := .associationSetupResponse req.seq W.nodeID .requestAccepted W.recoveryTime
    (s.sendRspTo W rsp addr, some rsp)

def handleHeartbeatRequest (W : World) (s : PfcpServer) (seq : UInt32) (addr : Addr) :
    PfcpServer × Option Message :=
  let rsp := .heartbeatResponse seq W.recoveryTime
  (s.sendRspTo W rsp addr, some rsp)

/-- `reqDispacher`. Association Update and Release requests are only logged. -/
def reqDispacher (W : World) (s : PfcpServer) (msg : Message) (addr : Addr) :
    PfcpServer × Option Message :=
  match msg with
  | .heartbeatRequest seq => s.handleHeartbeatRequest W seq addr
  | .associationSetupRequest req => s.handleAssociationSetupRequest W req addr
  | .sessionEstablishmentRequest req => s.handleSessionEstablishmentRequest W req addr
  | .sessionModificationRequest req => s.handleSessionModificationRequest W req addr
  | .sessionDeletionRequest seq seid => s.handleSessionDeletionRequest W seq seid addr
  | _ => (s, none)

end PfcpServer

end Free5gc.Upf
