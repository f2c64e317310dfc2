/-
  Plans (`internal/forwarder/plan.go`) and the plan builders of the gtp5g driver
  (`Build…Plan` in `internal/forwarder/gtp5g.go`).

  go-pfcp is not part of the repository. An information element is kept as what its
  accessor returns: `none` for a decoding error. A grouped element is the list of its
  children, or `none` when the group itself does not decode. Elements whose value only goes
  into the netlink attributes of a rule are kept as "decodes or not"; the attributes
  themselves are left out, since the driver is a map of rule ids to rules that exist.
-/
import Free5gc.Upf.Report
import Mathlib.Data.Finset.Dedup

namespace Free5gc.Upf

/-! ## Information elements -/

/-- A PDI element: whether `newPdi` accepts it, and its UE IP Address children in order, as
    `getUEAddressFromPDR` decodes them. -/
structure PDI where
  accepted : Bool
  ueIPAddresses : Option (List (Option String))
  deriving DecidableEq, Repr

/-- The children of rule elements that the plan builders tell apart. -/
inductive IE where
  | pdrID (v : Option UInt16)
  | farID (v : Option UInt32)
  | qerID (v : Option UInt32)
  | urrID (v : Option UInt32)
  | barID (v : Option UInt8)
  | precedence (decodes : Bool)
  | pdi (v : PDI)
  | outerHeaderRemoval (decodes : Bool)
  | applyAction (octets : Option (List UInt8))
  | forwardingParameters (decodes : Bool)
  | updateForwardingParameters (decodes : Bool)
  | measurementMethod (v : Option UInt8)
  | reportingTriggers (octets : Option (List UInt8))
  | measurementPeriod (v : Option Int)
  | measurementInformation (decodes : Bool) (flags : MeasureInformation)
  | downlinkDataNotificationDelay (decodes : Bool)
  | suggestedBufferingPacketsCount (decodes : Bool)
  | other
  deriving DecidableEq, Repr

/-- A grouped element: its children, or `none` when it does not decode. -/
abbrev GroupedIE := Option (List IE)

/-- A Create URR element, with what `HasDURAT`, `HasVOLUM` and `HasEVENT` say of it. -/
structure CreateURRIE where
  ies : GroupedIE
  method : MeasureMethod
  deriving DecidableEq, Repr

/-! ## Plans -/

inductive OpType where
  | create
  | update
  | remove
  deriving DecidableEq, Repr

/-- `gtp5gnl.OID`: the session's SEID and the rule's id. -/
abbrev OID := Nat × Nat

structure PDRPlan where
  op : OpType
  oid : OID
  originalIE : GroupedIE
  pdrid : UInt16
  urrids : List UInt32
  deriving DecidableEq, Repr

structure FARPlan where
  op : OpType
  oid : OID
  farid : UInt32
  applyAction : Option UInt16
  deriving DecidableEq, Repr

structure QERPlan where
  op : OpType
  oid : OID
  qerid : UInt32
  deriving DecidableEq, Repr

/-- `URRPlan`. `method` is what the `Has…` accessors say of `OriginalIE`, `measureInfo` the
    flags of `MeasureInfoIE` when there is one. -/
structure URRPlan where
  op : OpType
  oid : OID
  method : MeasureMethod
  urrid : UInt32
  measureMethod : UInt8
  reportingTrigger : UInt32
  measurePeriod : Int
  measureInfo : Option MeasureInformation
  queryURRID : UInt32
  deriving DecidableEq, Repr

structure BARPlan where
  op : OpType
  oid : OID
  barid : UInt8
  deriving DecidableEq, Repr

/-- `ModificationPlan`. -/
structure ModificationPlan where
  seid : Nat
  createFARs : List FARPlan
  createQERs : List QERPlan
  createURRs : List URRPlan
  createBARs : List BARPlan
  createPDRs : List PDRPlan
  removePDRs : List PDRPlan
  removeBARs : List BARPlan
  removeURRs : List URRPlan
  removeQERs : List QERPlan
  removeFARs : List FARPlan
  updateFARs : List FARPlan
  updateQERs : List QERPlan
  updateURRs : List URRPlan
  updateBARs : List BARPlan
  updatePDRs : List PDRPlan
  queryURRs : List URRPlan
  deriving DecidableEq, Repr

/-- `NewModificationPlan`. -/
def ModificationPlan.new (seid : Nat) : ModificationPlan :=
  ⟨seid, [], [], [], [], [], [], [], [], [], [], [], [], [], [], [], []⟩

def ModificationPlan.hasCreateFAR (p : ModificationPlan) (farid : UInt32) : Bool :=
  p.createFARs.any fun f => f.farid == farid

def ModificationPlan.hasCreateQER (p : ModificationPlan) (qerid : UInt32) : Bool :=
  p.createQERs.any fun q => q.qerid == qerid

def ModificationPlan.hasCreateURR (p : ModificationPlan) (urrid : UInt32) : Bool :=
  p.createURRs.any fun u => u.urrid == urrid

def ModificationPlan.hasCreateBAR (p : ModificationPlan) (barid : UInt8) : Bool :=
  p.createBARs.any fun b => b.barid == barid

def ModificationPlan.hasCreatePDR (p : ModificationPlan) (pdrid : UInt16) : Bool :=
  p.createPDRs.any fun d => d.pdrid == pdrid

/-! ## Builders -/

/-- Fail unless the element decodes. -/
def require {α : Type} (decodes : Bool) (a : α) : Option α := if decodes then some a else none

/-- The loop of `BuildCreatePDRPlan` over the children: the PDR id and the URR ids so far.
    QER and URR ids that do not decode are skipped, anything else that does not decode
    ends the build. -/
def createPDRChild (acc : UInt16 × List UInt32) : IE → Option (UInt16 × List UInt32)
  | .pdrID v => v.map fun id => (id, acc.2)
  | .precedence ok => require ok acc
  | .pdi p => require p.accepted acc
  | .outerHeaderRemoval ok => require ok acc
  | .farID v => require v.isSome acc
  | .urrID (some u) => some (acc.1, acc.2 ++ [u])
  | _ => some acc

/-- The loop of `BuildUpdatePDRPlan`: only the PDR id and the PDI end the build. -/
def updatePDRChild (acc : UInt16 × List UInt32) : IE → Option (UInt16 × List UInt32)
  | .pdrID v => v.map fun id => (id, acc.2)
  | .pdi p => require p.accepted acc
  | .urrID (some u) => some (acc.1, acc.2 ++ [u])
  | _ => some acc

def buildCreatePDRPlan (lSeid : Nat) (req : GroupedIE) : Option PDRPlan := do
  let ies ← req
  let (pdrid, urrids) ← ies.foldlM createPDRChild (0, [])
  return { op := .create, oid := (lSeid, pdrid.toNat), originalIE := req, pdrid, urrids }

def buildUpdatePDRPlan (lSeid : Nat) (req : GroupedIE) : Option PDRPlan := do
  let ies ← req
  let (pdrid, urrids) ← ies.foldlM updatePDRChild (0, [])
  return { op := .update, oid := (lSeid, pdrid.toNat), originalIE := req, pdrid, urrids }

/-- `BuildRemovePDRPlan`; `req` is what `req.PDRID()` returns. -/
def buildRemovePDRPlan (lSeid : Nat) (req : Option UInt16) : Option PDRPlan := do
  let v ← req
  return { op := .remove, oid := (lSeid, v.toNat), originalIE := none, pdrid := v, urrids := [] }

/-- The loop of `BuildCreateFARPlan` and `BuildUpdateFARPlan`: the FAR id and the apply
    action so far. They differ in the element that carries the forwarding parameters. -/
def farChild (params : IE → Option Bool) (acc : UInt32 × Option UInt16) (i : IE) :
    Option (UInt32 × Option UInt16) :=
  match i with
  | .farID v => v.map fun id => (id, acc.2)
  | .applyAction octets => do
    let b ← octets
    let act ← applyActionUnmarshal b
    return (acc.1, some act)
  | _ =>
    match params i with
    | some decodes => require decodes acc
    | none => some acc

def createFARParams : IE → Option Bool
  | .forwardingParameters ok => some ok
  | _ => none

def updateFARParams : IE → Option Bool
  | .updateForwardingParameters ok => some ok
  | _ => none

/-- `BuildCreateFARPlan`. The apply action goes into the rule's attributes only. -/
def buildCreateFARPlan (lSeid : Nat) (req : GroupedIE) : Option FARPlan := do
  let ies ← req
  let (farid, _) ← ies.foldlM (farChild createFARParams) (0, none)
  return { op := .create, oid := (lSeid, farid.toNat), farid, applyAction := none }

def buildUpdateFARPlan (lSeid : Nat) (req : GroupedIE) : Option FARPlan := do
  let ies ← req
  let (farid, applyAction) ← ies.foldlM (farChild updateFARParams) (0, none)
  return { op := .update, oid := (lSeid, farid.toNat), farid, applyAction }

def buildRemoveFARPlan (lSeid : Nat) (req : Option UInt32) : Option FARPlan := do
  let v ← req
  return { op := .remove, oid := (lSeid, v.toNat), farid := v, applyAction := none }

/-- The loop of the QER builders: nothing ends the build, and a QER id that does not decode
    is skipped. -/
def qerChild (qerid : UInt32) : IE → UInt32
  | .qerID (some v) => v
  | _ => qerid

/-- The body shared by `BuildCreateQERPlan` and `BuildUpdateQERPlan`. -/
def buildQERPlan (op : OpType) (lSeid : Nat) (req : GroupedIE) : Option QERPlan := do
  let ies ← req
  let qerid := ies.foldl qerChild 0
  return { op, oid := (lSeid, qerid.toNat), qerid }

def buildCreateQERPlan : Nat → GroupedIE → Option QERPlan := buildQERPlan .create

def buildUpdateQERPlan : Nat → GroupedIE → Option QERPlan := buildQERPlan .update

def buildRemoveQERPlan (lSeid : Nat) (req : Option UInt32) : Option QERPlan := do
  let v ← req
  return { op := .remove, oid := (lSeid, v.toNat), qerid := v }

/-- The variables of the URR builders' loops. -/
structure URRFields where
  urrid : UInt32
  measureMethod : UInt8
  reportingTrigger : UInt32
  measurePeriod : Int
  measureInfo : Option MeasureInformation

def URRFields.zero : URRFields := ⟨0, 0, 0, 0, none⟩

/-- The loop of `BuildCreateURRPlan`. A measurement period that is not positive ends the
    build. -/
def createURRChild (acc : URRFields) : IE → Option URRFields
  | .urrID v => v.map fun id => { acc with urrid := id }
  | .measurementMethod v => v.map fun m => { acc with measureMethod := m }
  | .reportingTriggers octets => do
    let b ← octets
    let flags ← reportingTriggerUnmarshal b
    return { acc with reportingTrigger := flags }
  | .measurementPeriod v => do
    let period ← v
    if period ≤ 0 then none else return { acc with measurePeriod := period }
  | .measurementInformation ok flags => require ok { acc with measureInfo := some flags }
  | _ => some acc

/-- The loop of `BuildUpdateURRPlan`: the triggers and the period are decoded for the
    attributes and not kept in the plan. -/
def updateURRChild (acc : URRFields) : IE → Option URRFields
  | .urrID v => v.map fun id => { acc with urrid := id }
  | .measurementMethod v => v.map fun m => { acc with measureMethod := m }
  | .reportingTriggers octets => do
    let b ← octets
    let _ ← reportingTriggerUnmarshal b
    return acc
  | .measurementPeriod v => require v.isSome acc
  | .measurementInformation ok flags => require ok { acc with measureInfo := some flags }
  | _ => some acc

def buildCreateURRPlan (lSeid : Nat) (req : CreateURRIE) : Option URRPlan := do
  let ies ← req.ies
  let f ← ies.foldlM createURRChild URRFields.zero
  if reportingTriggerPERIO f.reportingTrigger && f.measurePeriod ≤ 0 then none
  else return {
    op := .create, oid := (lSeid, f.urrid.toNat), method := req.method, urrid := f.urrid,
    measureMethod := f.measureMethod, reportingTrigger := f.reportingTrigger,
    measurePeriod := f.measurePeriod, measureInfo := f.measureInfo, queryURRID := 0 }

def buildUpdateURRPlan (lSeid : Nat) (req : GroupedIE) : Option URRPlan := do
  let ies ← req
  let f ← ies.foldlM updateURRChild URRFields.zero
  return {
    op := .update, oid := (lSeid, f.urrid.toNat), method := ⟨false, false, false⟩,
    urrid := f.urrid, measureMethod := f.measureMethod, reportingTrigger := 0,
    measurePeriod := 0, measureInfo := f.measureInfo, queryURRID := 0 }

def buildRemoveURRPlan (lSeid : Nat) (req : Option UInt32) : Option URRPlan := do
  let v ← req
  return {
    op := .remove, oid := (lSeid, v.toNat), method := ⟨false, false, false⟩, urrid := v,
    measureMethod := 0, reportingTrigger := 0, measurePeriod := 0, measureInfo := none,
    queryURRID := 0 }

/-- `BuildQueryURRPlan`: the id goes to `queryURRID`, `urrid` stays 0 and the operation is
    set to `remove`, as in the source. -/
def buildQueryURRPlan (lSeid : Nat) (req : Option UInt32) : Option URRPlan := do
  let v ← req
  return {
    op := .remove, oid := (lSeid, v.toNat), method := ⟨false, false, false⟩, urrid := 0,
    measureMethod := 0, reportingTrigger := 0, measurePeriod := 0, measureInfo := none,
    queryURRID := v }

/-- The loop shared by `BuildCreateBARPlan` and `BuildUpdateBARPlan`. -/
def barChild (barid : UInt8) : IE → Option UInt8
  | .barID v => v
  | .downlinkDataNotificationDelay ok => require ok barid
  | .suggestedBufferingPacketsCount ok => require ok barid
  | _ => some barid

def buildBARPlan (op : OpType) (lSeid : Nat) (req : GroupedIE) : Option BARPlan := do
  let ies ← req
  let barid ← ies.foldlM barChild 0
  return { op, oid := (lSeid, barid.toNat), barid }

def buildCreateBARPlan : Nat → GroupedIE → Option BARPlan := buildBARPlan .create

def buildUpdateBARPlan : Nat → GroupedIE → Option BARPlan := buildBARPlan .update

def buildRemoveBARPlan (lSeid : Nat) (req : Option UInt8) : Option BARPlan := do
  let v ← req
  return { op := .remove, oid := (lSeid, v.toNat), barid := v }

end Free5gc.Upf
