/-
  The gtp5g driver (`internal/forwarder/gtp5g.go`): execution of plans.

  The kernel module is not part of the repository. It is a set of rules that exist, keyed
  by kind and `OID`, and an answer for each call made to it: an error or not, the usage
  reports it returns, the action and PDRs of a FAR, the QERs of a PDR. The answers and the
  iteration orders of Go maps are an `Oracle`; what is proved for every oracle holds for
  every kernel and every iteration order. A call that reports an error leaves the rules as
  they are.

  `Gtp5g.calls` logs each call with its answer. `AddPeriodReportTimer` and
  `DelPeriodReportTimer` send an event to the periodic-report server, which handles events
  in the order sent, so the event is handled here at once.
-/
import Free5gc.Upf.Forwarder.Perio
import Free5gc.Upf.Forwarder.Plan

namespace Free5gc.Upf

open Free5gc.Lib

/-! ## The kernel -/

inductive RuleKind where
  | far
  | qer
  | urr
  | bar
  | pdr
  deriving DecidableEq, Repr

/-- The calls of `gtp5gnl` that the driver makes. -/
inductive Call where
  | create (kind : RuleKind) (oid : OID)
  | update (kind : RuleKind) (oid : OID)
  | remove (kind : RuleKind) (oid : OID)
  | getReport (oid : OID)
  | getFAR (oid : OID)
  | getPDR (oid : OID)
  | getQER (oid : OID)
  deriving DecidableEq, Repr

/-- `gtp5gnl.USAReport`: a usage report as the kernel returns it. -/
structure KernelReport where
  urrid : UInt32
  usarTrigger : UInt32
  volMeasurement : VolumeMeasure
  queryUrrRef : UInt32
  startTime : Int
  endTime : Int
  deriving DecidableEq, Repr

/-- What the kernel answers to a call. A call reads the parts it asks for. -/
structure Answer where
  err : Bool
  reports : List KernelReport
  action : UInt16
  pdrids : List UInt16
  qerids : List UInt32
  qfi : UInt8
  deriving DecidableEq, Repr

/-- The answer of a call that succeeds and returns nothing. -/
def Answer.done : Answer :=
  { err := false, reports := [], action := 0, pdrids := [], qerids := [], qfi := 0 }

/-- What the code leaves open: the kernel's answer to the `n`-th call, and the iteration
    orders of the maps. -/
structure Oracle where
  answer : Nat → Answer
  perio : Perio.Orders
  pdrs : RangeOrder UInt16
  fars : RangeOrder UInt32
  qers : RangeOrder UInt32
  urrs : RangeOrder UInt32
  bars : RangeOrder UInt8
  seids : RangeOrder Nat

/-- A kernel whose answers are `answer`, with every map in increasing order of its keys. -/
def Oracle.ofAnswers (answer : Nat → Answer) : Oracle where
  answer := answer
  perio := Perio.Orders.increasing
  pdrs := RangeOrder.ofCode UInt16.toNat toNat16_injective
  fars := RangeOrder.ofCode UInt32.toNat toNat32_injective
  qers := RangeOrder.ofCode UInt32.toNat toNat32_injective
  urrs := RangeOrder.ofCode UInt32.toNat toNat32_injective
  bars := RangeOrder.ofCode UInt8.toNat toNat8_injective
  seids := RangeOrder.ofCode id Function.injective_id

/-- A packet handed to `WritePacket`: the FAR, the QFI when a QER gives one, the payload. -/
structure WrittenPacket where
  far : OID
  qfi : Option UInt8
  payload : List UInt8
  deriving DecidableEq, Repr

/-- The driver. `ranges` counts the `range` loops over session maps and picks the order of
    the next one. -/
structure Gtp5g where
  rules : Finset (RuleKind × OID)
  ps : Perio.Server
  calls : List (Call × Answer)
  written : List WrittenPacket
  ranges : Nat

/-- A driver without rules, right after `OpenGtp5g`. -/
def Gtp5g.open : Gtp5g :=
  { rules := ∅, ps := Perio.Server.open, calls := [], written := [], ranges := 0 }

/-- What a call that succeeds does to the rules. -/
def Call.applyTo (c : Call) (rules : Finset (RuleKind × OID)) : Finset (RuleKind × OID) :=
  match c with
  | .create kind oid => insert (kind, oid) rules
  | .remove kind oid => rules.erase (kind, oid)
  | _ => rules

/-- The answer to the next call. -/
def Gtp5g.nextAnswer (O : Oracle) (g : Gtp5g) : Answer := O.answer g.calls.length

/-- Make a call. -/
def Gtp5g.call (O : Oracle) (g : Gtp5g) (c : Call) : Gtp5g :=
  { g with
    rules := if (g.nextAnswer O).err then g.rules else c.applyTo g.rules
    calls := g.calls ++ [(c, g.nextAnswer O)] }

/-- `AddPeriodReportTimer`, `DelPeriodReportTimer`: an event for the periodic-report
    server. -/
def Gtp5g.notify (O : Oracle) (g : Gtp5g) (e : Perio.Event) : Gtp5g :=
  { g with ps := (g.ps.serve O.perio (fun _ => none) e).1 }

/-- Start another `range` loop. -/
def Gtp5g.range (g : Gtp5g) : Gtp5g := { g with ranges := g.ranges + 1 }

/-- A rule of session `lSeid` is held for periodic reports. -/
def Gtp5g.Registered (g : Gtp5g) (lSeid : Nat) (urrid : UInt32) : Prop :=
  ∃ p, g.ps.Holds p lSeid urrid

/-! ## Usage reports -/

/-- `convertUSAReport`. -/
def convertUSAReport (r : KernelReport) : USAReport :=
  { urrid := r.urrid, urseqn := 0, usarTrigger := r.usarTrigger,
    volumMeasure := r.volMeasurement, queryUrrRef := r.queryUrrRef,
    startTime := r.startTime, endTime := r.endTime }

/-- The conversion inside `queryURR`, which does not copy the trigger. -/
def queriedUSAReport (r : KernelReport) : USAReport :=
  { urrid := r.urrid, urseqn := 0, usarTrigger := 0,
    volumMeasure := r.volMeasurement, queryUrrRef := r.queryUrrRef,
    startTime := r.startTime, endTime := r.endTime }

/-- `QueryURR`; the reports, or `none` for an error. -/
def Gtp5g.queryURR (O : Oracle) (g : Gtp5g) (lSeid : Nat) (urrid : UInt32) :
    Gtp5g × Option (List USAReport) :=
  let a := g.nextAnswer O
  (g.call O (.getReport (lSeid, urrid.toNat)),
    if a.err then none else some (a.reports.map queriedUSAReport))

/-! ## Buffered packets -/

/-- The buffers of a session, `Sess.q`: the packets held for each PDR. -/
abbrev Queues := GoMap UInt16 (List (List UInt8))

/-- `Pop` until it fails: the packets taken out, and the emptied buffer. -/
def drain (q : Queues) (pdrid : UInt16) : Queues × List (List UInt8) :=
  match q.lookup pdrid with
  | some pkts => (q.insert pdrid [], pkts)
  | none => (q, [])

/-- The search for a QER with a QFI inside `applyAction`. -/
def findQFI (O : Oracle) (lSeid : Nat) : Gtp5g → List UInt32 → Gtp5g × Option UInt8
  | g, [] => (g, none)
  | g, qerid :: rest =>
    let a := g.nextAnswer O
    let g' := g.call O (.getQER (lSeid, qerid.toNat))
    if !a.err && a.qfi != 0 then (g', some a.qfi) else findQFI O lSeid g' rest

/-- One turn of the BUFF → FORW loop of `applyAction`. -/
def forwardPDR (O : Oracle) (lSeid : Nat) (far : OID) (gq : Gtp5g × Queues)
    (pdrid : UInt16) : Gtp5g × Queues :=
  let (g, q) := gq
  let a := g.nextAnswer O
  let g := g.call O (.getPDR (lSeid, pdrid.toNat))
  if a.err then (g, q)
  else
    let (g, qfi) := findQFI O lSeid g a.qerids
    let (q, pkts) := drain q pdrid
    ({ g with written := g.written ++ pkts.map fun p => ⟨far, qfi, p⟩ }, q)

/-- `applyAction`: packets buffered under a FAR are dropped or forwarded when its action
    changes. -/
def applyAction (O : Oracle) (lSeid : Nat) (farid : UInt32) (action : UInt16)
    (gq : Gtp5g × Queues) : Gtp5g × Queues :=
  let (g, q) := gq
  let oid := (lSeid, farid.toNat)
  let a := g.nextAnswer O
  let g := g.call O (.getFAR oid)
  if a.err then (g, q)
  else if a.action &&& applyActBuff == 0 then (g, q)
  else if action &&& applyActDrop != 0 then
    (g, a.pdrids.foldl (fun q pdrid => (drain q pdrid).1) q)
  else if action &&& applyActForw != 0 then
    a.pdrids.foldl (forwardPDR O lSeid oid) (g, q)
  else (g, q)

/-! ## Execution -/

/-- The timer of a URR that is being created: registered when the URR asks for periodic
    reports with a positive period. -/
def Gtp5g.addTimer (O : Oracle) (seid : Nat) (p : URRPlan) (g : Gtp5g) : Gtp5g :=
  if h : 0 < p.measurePeriod then
    if reportingTriggerPERIO p.reportingTrigger then
      g.notify O (.add seid p.urrid ⟨p.measurePeriod, h⟩)
    else g
  else g

/-- Create one URR in `ExecuteModificationPlan`. -/
def createURR (O : Oracle) (seid : Nat) (g : Gtp5g) (p : URRPlan) : Gtp5g :=
  (g.addTimer O seid p).call O (.create .urr p.oid)

/-- Remove one URR: its timer goes, and its last reports are collected. -/
def removeURR (O : Oracle) (seid : Nat) (acc : Gtp5g × List USAReport) (p : URRPlan) :
    Gtp5g × List USAReport :=
  let g := acc.1.notify O (.del seid p.urrid)
  (g.call O (.remove .urr p.oid),
    acc.2 ++ (g.nextAnswer O).reports.map convertUSAReport)

/-- Update one URR; the reports are collected whether or not the call fails. -/
def updateURR (O : Oracle) (acc : Gtp5g × List USAReport) (p : URRPlan) :
    Gtp5g × List USAReport :=
  (acc.1.call O (.update .urr p.oid),
    acc.2 ++ (acc.1.nextAnswer O).reports.map convertUSAReport)

/-- Query one URR; a failed query collects nothing. -/
def queryURRPlan (O : Oracle) (acc : Gtp5g × List USAReport) (p : URRPlan) :
    Gtp5g × List USAReport :=
  let a := acc.1.nextAnswer O
  (acc.1.call O (.getReport p.oid),
    if a.err then acc.2 else acc.2 ++ a.reports.map convertUSAReport)

/-- Update one FAR, with the side effect of its new action on buffered packets. -/
def updateFAR (O : Oracle) (seid : Nat) (gq : Gtp5g × Queues) (p : FARPlan) :
    Gtp5g × Queues :=
  let g := gq.1.call O (.update .far p.oid)
  match p.applyAction with
  | some action => applyAction O seid p.farid action (g, gq.2)
  | none => (g, gq.2)

/-- The create loops of `ExecuteModificationPlan`. -/
def executeCreates (O : Oracle) (plan : ModificationPlan) (g : Gtp5g) : Gtp5g :=
  let g := plan.createFARs.foldl (fun g p => g.call O (.create .far p.oid)) g
  let g := plan.createQERs.foldl (fun g p => g.call O (.create .qer p.oid)) g
  let g := plan.createURRs.foldl (createURR O plan.seid) g
  let g := plan.createBARs.foldl (fun g p => g.call O (.create .bar p.oid)) g
  plan.createPDRs.foldl (fun g p => g.call O (.create .pdr p.oid)) g

/-- The remove loops of `ExecuteModificationPlan`. -/
def executeRemoves (O : Oracle) (plan : ModificationPlan) (g : Gtp5g) :
    Gtp5g × List USAReport :=
  let g := plan.removePDRs.foldl (fun g p => g.call O (.remove .pdr p.oid)) g
  let g := plan.removeBARs.foldl (fun g p => g.call O (.remove .bar p.oid)) g
  let (g, usars) := plan.removeURRs.foldl (removeURR O plan.seid) (g, [])
  let g := plan.removeQERs.foldl (fun g p => g.call O (.remove .qer p.oid)) g
  (plan.removeFARs.foldl (fun g p => g.call O (.remove .far p.oid)) g, usars)

/-- The update and query loops of `ExecuteModificationPlan`. -/
def executeUpdates (O : Oracle) (plan : ModificationPlan) (g : Gtp5g) (q : Queues)
    (usars : List USAReport) : Gtp5g × Queues × List USAReport :=
  let (g, q) := plan.updateFARs.foldl (updateFAR O plan.seid) (g, q)
  let g := plan.updateQERs.foldl (fun g p => g.call O (.update .qer p.oid)) g
  let (g, usars) := plan.updateURRs.foldl (updateURR O) (g, usars)
  let g := plan.updateBARs.foldl (fun g p => g.call O (.update .bar p.oid)) g
  let g := plan.updatePDRs.foldl (fun g p => g.call O (.update .pdr p.oid)) g
  let (g, usars) := plan.queryURRs.foldl (queryURRPlan O) (g, usars)
  (g, q, usars)

/-- `ExecuteModificationPlan`: best effort, errors are only logged. `q` are the buffers of
    the plan's session. -/
def executeModificationPlan (O : Oracle) (g : Gtp5g) (q : Queues)
    (plan : ModificationPlan) : Gtp5g × Queues × List USAReport :=
  let g := executeCreates O plan g
  let (g, usars) := executeRemoves O plan g
  executeUpdates O plan g q usars

/-- A create call of `ExecuteEstablishmentPlan`: an error ends the execution, with the
    driver as it is then. -/
def createOrFail (O : Oracle) (kind : RuleKind) (oid : OID) (g : Gtp5g) :
    Except Gtp5g Gtp5g :=
  if (g.nextAnswer O).err then .error (g.call O (.create kind oid))
  else .ok (g.call O (.create kind oid))

/-- `ExecuteEstablishmentPlan`: fail fast. -/
def executeEstablishmentPlan (O : Oracle) (g : Gtp5g) (plan : ModificationPlan) :
    Except Gtp5g Gtp5g := do
  let g ← plan.createFARs.foldlM (fun g p => createOrFail O .far p.oid g) g
  let g ← plan.createQERs.foldlM (fun g p => createOrFail O .qer p.oid g) g
  let g ← plan.createURRs.foldlM
    (fun g p => createOrFail O .urr p.oid (g.addTimer O plan.seid p)) g
  let g ← plan.createBARs.foldlM (fun g p => createOrFail O .bar p.oid g) g
  plan.createPDRs.foldlM (fun g p => createOrFail O .pdr p.oid g) g

end Free5gc.Upf
