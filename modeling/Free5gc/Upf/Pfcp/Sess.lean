/-
  PFCP sessions (`type Sess` and its methods in `internal/pfcp/node.go`).

  A method that calls the driver takes the driver and the session and returns both. Entries
  of `PDRIDs` and `URRIDs` are pointers in the source and are only reached through their
  map, so mutating one is an update of the map.

  `SEID`s are natural numbers. The log lines are left out.
-/
import Free5gc.Upf.Forwarder.Gtp5g

namespace Free5gc.Upf

open Free5gc.Lib

/-- `BUFFQ_LEN`. -/
def buffqLen : Nat := 512

structure URRInfo where
  removed : Bool
  seqn : UInt32
  measureMethod : MeasureMethod
  measureInformation : MeasureInformation
  refPdrNum : UInt16
  deriving DecidableEq, Repr

structure PDRInfo where
  relatedURRIDs : Finset UInt32
  deriving DecidableEq

/-- `Sess`. `rnode` refers to a node of the server's node table. -/
structure Sess where
  rnode : Nat
  localID : Nat
  remoteID : Nat
  pdrIDs : GoMap UInt16 PDRInfo
  farIDs : Finset UInt32
  qerIDs : Finset UInt32
  urrIDs : GoMap UInt32 URRInfo
  barIDs : Finset UInt8
  q : Queues
  qlen : Nat
  deriving DecidableEq

/-- The session that `LocalNode.NewSess` builds, under the node that asked for it. -/
def Sess.new (rnode localID remoteID : Nat) : Sess :=
  { rnode, localID, remoteID, pdrIDs := ∅, farIDs := ∅, qerIDs := ∅, urrIDs := ∅,
    barIDs := ∅, q := ∅, qlen := buffqLen }

/-- The errors of the validation phase. -/
inductive RuleError where
  | missingMandatoryIE
  | missingConditionalIE
  | ruleNotFound
  | ruleCreationModificationFailed
  | mutualExclusionConflict
  deriving DecidableEq, Repr

namespace Sess

/-! ## Buffered packets -/

/-- `Push`: a packet for a full buffer is dropped. -/
def push (s : Sess) (pdrid : UInt16) (pkt : List UInt8) : Sess :=
  let pkts := (s.q.lookup pdrid).getD []
  { s with q := s.q.insert pdrid (if pkts.length < s.qlen then pkts ++ [pkt] else pkts) }

/-! ## Usage reports -/

/-- `URRSeq`: the number of the next report of a URR, and the session with the counter
    advanced; 0 for a URR the session does not have. -/
def urrSeq (s : Sess) (urrid : UInt32) : UInt32 × Sess :=
  match s.urrIDs.lookup urrid with
  | none => (0, s)
  | some info =>
    (info.seqn, { s with urrIDs := s.urrIDs.insert urrid { info with seqn := info.seqn + 1 } })

/-- `diassociateURR`: one PDR less refers to the URR; with the last one gone the URR is
    queried for its termination report. -/
def diassociateURR (O : Oracle) (urrid : UInt32) (g : Gtp5g) (s : Sess) :
    Gtp5g × Sess × List USAReport :=
  match s.urrIDs.lookup urrid with
  | none => (g, s, [])
  | some info =>
    if 0 < info.refPdrNum then
      let info' := { info with refPdrNum := info.refPdrNum - 1 }
      let s' := { s with urrIDs := s.urrIDs.insert urrid info' }
      if info'.refPdrNum = 0 then
        let (g', usars) := g.queryURR O s.localID urrid
        (g', s', (usars.getD []).map fun r => r.flag usarTrigTermr)
      else (g, s', [])
    else (g, s, [])

/-- A loop of `diassociateURR` over URR ids, collecting the reports. -/
def diassociateURRs (O : Oracle) (urrids : List UInt32) (g : Gtp5g) (s : Sess) :
    Gtp5g × Sess × List USAReport :=
  urrids.foldl (fun acc urrid =>
    let (g, s, usars) := acc
    let (g, s, rs) := diassociateURR O urrid g s
    (g, s, usars ++ rs)) (g, s, [])

/-! ## Validate: check the session's state and build the plan -/

/-- The checks of `ValidateCreateFAR`, `ValidateCreateQER`, `ValidateCreateURR` and
    `ValidateCreateBAR`: the plan can be built. -/
def validateBuilt {α : Type} (plan : Option α) : Except RuleError α :=
  match plan with
  | none => .error .missingMandatoryIE
  | some p => .ok p

/-- The checks of the other `Validate` methods, `ValidateCreatePDR` apart: the plan can be
    built, and the session has the rule or the request creates it. -/
def validateKnown {α : Type} (plan : Option α) (known : α → Bool) : Except RuleError α := do
  let p ← validateBuilt plan
  if known p then return p else .error .ruleNotFound

/-- `ValidateCreatePDR`: every URR the PDR names exists or is created by the request. -/
def validateCreatePDR (s : Sess) (modPlan : ModificationPlan) (req : GroupedIE) :
    Except RuleError PDRPlan :=
  match buildCreatePDRPlan s.localID req with
  | none => .error .ruleCreationModificationFailed
  | some plan =>
    if plan.urrids.all fun u => u ∈ s.urrIDs || modPlan.hasCreateURR u then .ok plan
    else .error .ruleCreationModificationFailed

def validateUpdatePDR (s : Sess) (modPlan : ModificationPlan) (req : GroupedIE) :
    Except RuleError PDRPlan :=
  validateKnown (buildUpdatePDRPlan s.localID req) fun p =>
    p.pdrid ∈ s.pdrIDs || modPlan.hasCreatePDR p.pdrid

def validateRemovePDR (s : Sess) (modPlan : ModificationPlan) (req : Option UInt16) :
    Except RuleError PDRPlan :=
  validateKnown (buildRemovePDRPlan s.localID req) fun p =>
    p.pdrid ∈ s.pdrIDs || modPlan.hasCreatePDR p.pdrid

def validateCreateFAR (s : Sess) (req : GroupedIE) : Except RuleError FARPlan :=
  validateBuilt (buildCreateFARPlan s.localID req)

def validateUpdateFAR (s : Sess) (modPlan : ModificationPlan) (req : GroupedIE) :
    Except RuleError FARPlan :=
  validateKnown (buildUpdateFARPlan s.localID req) fun p =>
    p.farid ∈ s.farIDs || modPlan.hasCreateFAR p.farid

def validateRemoveFAR (s : Sess) (modPlan : ModificationPlan) (req : Option UInt32) :
    Except RuleError FARPlan :=
  validateKnown (buildRemoveFARPlan s.localID req) fun p =>
    p.farid ∈ s.farIDs || modPlan.hasCreateFAR p.farid

def validateCreateQER (s : Sess) (req : GroupedIE) : Except RuleError QERPlan :=
  validateBuilt (buildCreateQERPlan s.localID req)

def validateUpdateQER (s : Sess) (modPlan : ModificationPlan) (req : GroupedIE) :
    Except RuleError QERPlan :=
  validateKnown (buildUpdateQERPlan s.localID req) fun p =>
    p.qerid ∈ s.qerIDs || modPlan.hasCreateQER p.qerid

def validateRemoveQER (s : Sess) (modPlan : ModificationPlan) (req : Option UInt32) :
    Except RuleError QERPlan :=
  validateKnown (buildRemoveQERPlan s.localID req) fun p =>
    p.qerid ∈ s.qerIDs || modPlan.hasCreateQER p.qerid

def validateCreateURR (s : Sess) (req : CreateURRIE) : Except RuleError URRPlan :=
  validateBuilt (buildCreateURRPlan s.localID req)

def validateUpdateURR (s : Sess) (modPlan : ModificationPlan) (req : GroupedIE) :
    Except RuleError URRPlan :=
  validateKnown (buildUpdateURRPlan s.localID req) fun p =>
    p.urrid ∈ s.urrIDs || modPlan.hasCreateURR p.urrid

def validateRemoveURR (s : Sess) (modPlan : ModificationPlan) (req : Option UInt32) :
    Except RuleError URRPlan :=
  validateKnown (buildRemoveURRPlan s.localID req) fun p =>
    p.urrid ∈ s.urrIDs || modPlan.hasCreateURR p.urrid

def validateQueryURR (s : Sess) (modPlan : ModificationPlan) (req : Option UInt32) :
    Except RuleError URRPlan :=
  validateKnown (buildQueryURRPlan s.localID req) fun p =>
    p.queryURRID ∈ s.urrIDs || modPlan.hasCreateURR p.queryURRID

def validateCreateBAR (s : Sess) (req : GroupedIE) : Except RuleError BARPlan :=
  validateBuilt (buildCreateBARPlan s.localID req)

def validateUpdateBAR (s : Sess) (modPlan : ModificationPlan) (req : GroupedIE) :
    Except RuleError BARPlan :=
  validateKnown (buildUpdateBARPlan s.localID req) fun p =>
    p.barid ∈ s.barIDs || modPlan.hasCreateBAR p.barid

def validateRemoveBAR (s : Sess) (modPlan : ModificationPlan) (req : Option UInt8) :
    Except RuleError BARPlan :=
  validateKnown (buildRemoveBARPlan s.localID req) fun p =>
    p.barid ∈ s.barIDs || modPlan.hasCreateBAR p.barid

/-! ## Apply: update the session after execution -/

/-- `urrInfo.refPdrNum++` for a URR the session has. -/
def associateURR (s : Sess) (urrid : UInt32) : Sess :=
  { s with urrIDs := s.urrIDs.modify urrid fun info =>
      { info with refPdrNum := info.refPdrNum + 1 } }

/-- `ApplyCreatePDR`: the counter of a URR is advanced once for each time the plan lists
    it. -/
def applyCreatePDR (s : Sess) (plan : PDRPlan) : Sess :=
  let s := plan.urrids.foldl associateURR s
  { s with pdrIDs := s.pdrIDs.insert plan.pdrid ⟨plan.urrids.toFinset⟩ }

/-- `ApplyUpdatePDR`: the PDR leaves the URRs the plan does not list. -/
def applyUpdatePDR (O : Oracle) (plan : PDRPlan) (g : Gtp5g) (s : Sess) :
    Gtp5g × Sess × List USAReport :=
  match s.pdrIDs.lookup plan.pdrid with
  | none => (g, s, [])
  | some pdrInfo =>
    let newUrrids := plan.urrids.toFinset
    let left := (O.urrs.keys g.ranges pdrInfo.relatedURRIDs).filter (· ∉ newUrrids)
    let (g, s, usars) := diassociateURRs O left g.range s
    (g, { s with pdrIDs := s.pdrIDs.insert plan.pdrid ⟨newUrrids⟩ }, usars)

/-- `ApplyRemovePDR`: the PDR leaves all its URRs. -/
def applyRemovePDR (O : Oracle) (plan : PDRPlan) (g : Gtp5g) (s : Sess) :
    Gtp5g × Sess × List USAReport :=
  match s.pdrIDs.lookup plan.pdrid with
  | none => (g, s, [])
  | some pdrInfo =>
    let left := O.urrs.keys g.ranges pdrInfo.relatedURRIDs
    let (g, s, usars) := diassociateURRs O left g.range s
    (g, { s with pdrIDs := s.pdrIDs.erase plan.pdrid }, usars)

def applyCreateFAR (s : Sess) (plan : FARPlan) : Sess :=
  { s with farIDs := insert plan.farid s.farIDs }

def applyRemoveFAR (s : Sess) (plan : FARPlan) : Sess :=
  { s with farIDs := s.farIDs.erase plan.farid }

def applyCreateQER (s : Sess) (plan : QERPlan) : Sess :=
  { s with qerIDs := insert plan.qerid s.qerIDs }

def applyRemoveQER (s : Sess) (plan : QERPlan) : Sess :=
  { s with qerIDs := s.qerIDs.erase plan.qerid }

/-- The entry that `ApplyCreateURR` stores. -/
def newURRInfo (plan : URRPlan) : URRInfo :=
  { removed := false, seqn := 0, measureMethod := plan.method,
    measureInformation := plan.measureInfo.getD MeasureInformation.none, refPdrNum := 0 }

/-- `ApplyCreateURR`: a fresh entry, also over one that exists. -/
def applyCreateURR (s : Sess) (plan : URRPlan) : Sess :=
  { s with urrIDs := s.urrIDs.insert plan.urrid (newURRInfo plan) }

/-- `ApplyUpdateURR`: the measurement method when the plan has one that is not 0, the
    measurement information when the plan has one. -/
def applyUpdateURR (s : Sess) (plan : URRPlan) : Sess :=
  { s with urrIDs := s.urrIDs.modify plan.urrid fun info =>
      { info with
        measureMethod :=
          if plan.measureMethod != 0 then
            ⟨plan.measureMethod &&& 1 != 0, plan.measureMethod &&& 2 != 0,
              plan.measureMethod &&& 4 != 0⟩
          else info.measureMethod
        measureInformation := plan.measureInfo.getD info.measureInformation } }

/-- `ApplyRemoveURR`: the entry is marked, and swept by `CleanupRemovedURRs`. -/
def applyRemoveURR (s : Sess) (plan : URRPlan) : Sess :=
  { s with urrIDs := s.urrIDs.modify plan.urrid fun info => { info with removed := true } }

def applyCreateBAR (s : Sess) (plan : BARPlan) : Sess :=
  { s with barIDs := insert plan.barid s.barIDs }

def applyRemoveBAR (s : Sess) (plan : BARPlan) : Sess :=
  { s with barIDs := s.barIDs.erase plan.barid }

/-- `delete(s.URRIDs, id)` for an entry that is marked removed. -/
def sweepURR (s : Sess) (urrid : UInt32) : Sess :=
  match s.urrIDs.lookup urrid with
  | some info => if info.removed then { s with urrIDs := s.urrIDs.erase urrid } else s
  | none => s

/-- `CleanupRemovedURRs`. -/
def cleanupRemovedURRs (O : Oracle) (g : Gtp5g) (s : Sess) : Gtp5g × Sess :=
  (g.range, (O.urrs.keys g.ranges s.urrIDs.keys).foldl sweepURR s)

/-! ## Loops over a plan -/

/-- A loop of `ApplyUpdatePDR` or `ApplyRemovePDR` over plans, collecting the reports. -/
def applyPDRs (apply : PDRPlan → Gtp5g → Sess → Gtp5g × Sess × List USAReport)
    (plans : List PDRPlan) (g : Gtp5g) (s : Sess) (usars : List USAReport) :
    Gtp5g × Sess × List USAReport :=
  plans.foldl (fun acc p =>
    let (g, s, usars) := acc
    let (g, s, rs) := apply p g s
    (g, s, usars ++ rs)) (g, s, usars)

/-- The create loops of the apply phase. -/
def applyCreates (s : Sess) (plan : ModificationPlan) : Sess :=
  let s := plan.createFARs.foldl applyCreateFAR s
  let s := plan.createQERs.foldl applyCreateQER s
  let s := plan.createURRs.foldl applyCreateURR s
  let s := plan.createBARs.foldl applyCreateBAR s
  plan.createPDRs.foldl applyCreatePDR s

/-- The remove loops of the apply phase, after those over PDRs. -/
def applyRemoves (s : Sess) (plan : ModificationPlan) : Sess :=
  let s := plan.removeBARs.foldl applyRemoveBAR s
  let s := plan.removeURRs.foldl applyRemoveURR s
  let s := plan.removeQERs.foldl applyRemoveQER s
  plan.removeFARs.foldl applyRemoveFAR s

/-! ## Close -/

/-- The plan that `Close` builds: every rule the session has is removed. -/
def closePlan (O : Oracle) (t : Nat) (s : Sess) : ModificationPlan :=
  { ModificationPlan.new s.localID with
    removeFARs := (O.fars.keys t s.farIDs).filterMap fun id =>
      buildRemoveFARPlan s.localID (some id)
    removeQERs := (O.qers.keys t s.qerIDs).filterMap fun id =>
      buildRemoveQERPlan s.localID (some id)
    removeURRs := (O.urrs.keys t s.urrIDs.keys).filterMap fun id =>
      buildRemoveURRPlan s.localID (some id)
    removeBARs := (O.bars.keys t s.barIDs).filterMap fun id =>
      buildRemoveBARPlan s.localID (some id)
    removePDRs := (O.pdrs.keys t s.pdrIDs.keys).filterMap fun id =>
      buildRemovePDRPlan s.localID (some id) }

/-- `Close`: every rule is removed from the driver and from the session, URRs being only
    marked; the reports of this are returned, flagged as termination reports. -/
def close (O : Oracle) (g : Gtp5g) (s : Sess) : Gtp5g × Sess × List USAReport :=
  let plan := s.closePlan O g.ranges
  let (g, q, reports) := executeModificationPlan O g.range s.q plan
  let (g, s, usars) := applyPDRs (applyRemovePDR O) plan.removePDRs g { s with q } []
  (g, s.applyRemoves plan, usars ++ reports.map fun r => r.flag usarTrigTermr)

end Sess

end Free5gc.Upf
