/-
  `sessionChargingReservation` of the CHF: one turn of its loop for each unit usage of a
  charging data request, with the exchanges it makes with the rating function and the
  account.

  An exchange may fail before the request reaches its server or after: `net t` says what
  becomes of the `t`-th one. The state is that of one subscriber: its charging context and
  its documents.
-/
import Free5gc.Lib.GoMap
import Free5gc.Chf.Charging.Servers

namespace Free5gc.Chf.Charging

open Free5gc.Lib

/-! ## Requests -/

inductive TriggerType where
  | quotaThreshold
  | quotaExhausted
  | volumeLimit
  | validityTime
  | maxNumberOfChangesInChargingConditions
  | managementIntervention
  | final
  | other
  deriving DecidableEq, Repr

inductive TriggerCategory where
  | immediateReport
  | deferredReport
  deriving DecidableEq, Repr

structure Trigger where
  triggerType : TriggerType
  triggerCategory : TriggerCategory
  volumeLimit : Int32 := 0
  deriving DecidableEq, Repr

inductive QuotaManagementIndicator where
  | onlineCharging
  | offlineCharging
  | quotaManagementSuspended
  | unset
  deriving DecidableEq, Repr

structure UsedUnitContainer where
  quotaManagementIndicator : QuotaManagementIndicator
  totalVolume : Int32
  deriving DecidableEq, Repr

/-- A unit usage; `requestedUnit` is the total volume of its requested unit, if it has one. -/
structure MultipleUnitUsage where
  ratingGroup : Int32
  upfID : String := ""
  requestedUnit : Option Int32 := none
  usedUnitContainer : List UsedUnitContainer := []
  deriving DecidableEq, Repr

structure ChargingDataRequest where
  triggers : List Trigger := []
  multipleUnitUsage : List MultipleUnitUsage := []
  deriving DecidableEq, Repr

/-- The answer for one rating group. `grantedUnit` is the total volume granted; the uplink
    and downlink volumes are set to the same number. -/
structure MultipleUnitInformation where
  ratingGroup : Int32
  upfID : String
  terminate : Bool := false
  triggers : List Trigger := []
  volumeQuotaThreshold : Int32 := 0
  grantedUnit : Option Int32 := none
  validityTime : Int32 := 0
  deriving DecidableEq, Repr

/-- The volume requested, 0 when there is none: the code tests for `> 0`. -/
def MultipleUnitUsage.requestedVolume (u : MultipleUnitUsage) : Int32 := u.requestedUnit.getD 0

/-! ## State -/

/-- The charging context of a subscriber. `volumeThreshold` is the product of a volume and
    `VolumeThresholdRate`, computed in `float32`. -/
structure ChfUe where
  ratingGroups : List Int32
  ratingType : GoMap Int32 RequestSubType
  reservedQuota : GoMap Int32 Int64
  unitCost : GoMap Int32 UInt32
  acctRequestNum : GoMap Int32 UInt32
  quotaValidityTime : Int32
  volumeLimit : Int32
  volumeLimitPDU : Int32
  volumeThreshold : UInt32 → Int32

/-- The context, the documents that the subscriber's filter finds, and how many exchanges
    were made. -/
structure World where
  ue : ChfUe
  chargingDatas : GoMap Int32 ChargingData
  exchanges : Nat

namespace World

def ratingTypeOf (w : World) (rg : Int32) : RequestSubType := (w.ue.ratingType.lookup rg).getD .aoc

def reserved (w : World) (rg : Int32) : Int64 := (w.ue.reservedQuota.lookup rg).getD 0

def setRatingType (w : World) (rg : Int32) (t : RequestSubType) : World :=
  { w with ue := { w.ue with ratingType := w.ue.ratingType.insert rg t } }

def setReserved (w : World) (rg : Int32) (q : Int64) : World :=
  { w with ue := { w.ue with reservedQuota := w.ue.reservedQuota.insert rg q } }

def setUnitCost (w : World) (rg : Int32) (c : UInt32) : World :=
  { w with ue := { w.ue with unitCost := w.ue.unitCost.insert rg c } }

/-- `ue.AcctRequestNum[rg]++` -/
def countRequest (w : World) (rg : Int32) : World :=
  { w with ue := { w.ue with
      acctRequestNum := w.ue.acctRequestNum.insert rg
        ((w.ue.acctRequestNum.lookup rg).getD 0 + 1) } }

/-- An exchange is made. -/
def tick (w : World) : World := { w with exchanges := w.exchanges + 1 }

/-- The account stores a balance in the document of the rating group. -/
def putQuota (w : World) (rg : Int32) (q : Int64) : World :=
  { w with chargingDatas := w.chargingDatas.modify rg fun d => { d with quota := q } }

/-- A rating group that is new is noted, in RESERVE mode. -/
def findRatingGroup (w : World) (rg : Int32) : World :=
  if rg ∈ w.ue.ratingGroups then w
  else
    { w with ue := { w.ue with
        ratingGroups := w.ue.ratingGroups ++ [rg]
        ratingType := w.ue.ratingType.insert rg .reserve } }

end World

/-! ## Exchanges -/

/-- What becomes of an exchange: answered; lost before the server saw it; or handled by the
    server, with the answer lost. -/
inductive Fate where
  | answered
  | lost
  | unanswered
  deriving DecidableEq, Repr

variable (net : Nat → Fate)

/-- `SendServiceUsageRequest`. The rating function keeps no state. -/
def sendServiceUsageRequest (w : World) (rg : Int32) (sr : ServiceRating) :
    World × Option ServiceUsageResponse :=
  (w.tick,
    match net w.exchanges with
    | .answered => handleSUR (w.chargingDatas.lookup rg) sr
    | .lost => none
    | .unanswered => none)

/-- The account handles a request. Without a document it does not answer. -/
def accountHandle (w : World) (rg : Int32) (ccr : AccountDebitRequest) :
    World × Option AccountDebitResponse :=
  match (w.chargingDatas.lookup rg).bind fun d => handleCCR d.quota ccr with
  | none => (w, none)
  | some (quota, cca) => (w.putQuota rg quota, some cca)

/-- `SendAccountDebitRequest` -/
def sendAccountDebitRequest (w : World) (rg : Int32) (ccr : AccountDebitRequest) :
    World × Option AccountDebitResponse :=
  match net w.exchanges with
  | .answered => accountHandle w.tick rg ccr
  | .lost => (w.tick, none)
  | .unanswered => ((accountHandle w.tick rg ccr).1, none)

/-- The request of RESERVE mode. -/
def updateRequest (octets : UInt64) : AccountDebitRequest :=
  { requestedAction := .directDebiting
    ccRequestType := some .updateRequest
    requestedServiceUnit := some octets }

/-- The request of DEBIT mode for a reservation that was too large; its type stays unset. -/
def refundRequest (octets : UInt64) : AccountDebitRequest :=
  { requestedAction := .refundAccount, requestedServiceUnit := some octets }

/-- The request of DEBIT mode for a reservation that was too small. -/
def terminationRequest (octets : UInt64) : AccountDebitRequest :=
  { requestedAction := .directDebiting
    ccRequestType := some .terminationRequest
    usedServiceUnit := some octets }

/-- `getUnitCost`: a tariff that cannot be had counts as 1. -/
def getUnitCost (w : World) (rg : Int32) : World × UInt32 :=
  match sendServiceUsageRequest net w rg { requestSubType := .reserve } with
  | (w, some rsp) => (w, rsp.unitCost.cost)
  | (w, none) => (w, 1)

/-! ## The used unit containers -/

/-- What the loop over the used unit containers accumulates. -/
structure Scan where
  creditControl : Bool := false
  finalSeen : Bool := false
  totalUsedUnit : UInt32 := 0
  triggers : List Trigger := []
  volumeQuotaThreshold : Int32 := 0
  deriving DecidableEq, Repr

/-- The loop over the triggers of the request acts on FINAL only. -/
def scanTrigger (s : Scan) (t : Trigger) : Scan :=
  match t.triggerType with
  | .final => { s with finalSeen := true }
  | _ => s

def scanContainer (triggers : List Trigger) (s : Scan) (c : UsedUnitContainer) : Scan :=
  match c.quotaManagementIndicator with
  | .offlineCharging =>
    { s with
      triggers := s.triggers ++ [⟨.quotaThreshold, .immediateReport, 0⟩]
      volumeQuotaThreshold := 30000000 }
  | .onlineCharging =>
    let s := triggers.foldl scanTrigger { s with creditControl := true }
    { s with totalUsedUnit := s.totalUsedUnit + c.totalVolume.toUInt32 }
  | .quotaManagementSuspended => s
  | .unset => s

def scan (triggers : List Trigger) (containers : List UsedUnitContainer) : Scan :=
  containers.foldl (scanContainer triggers) {}

/-- `partialRecord` after the containers of every unit usage: each trigger of the request sets
    it, and FINAL clears it again. -/
def partialRecord (req : ChargingDataRequest) : Bool :=
  req.multipleUnitUsage.foldl (fun p u =>
    u.usedUnitContainer.foldl (fun p c =>
      match c.quotaManagementIndicator with
      | .onlineCharging => req.triggers.foldl (fun _ t => t.triggerType != .final) p
      | _ => p) p) false

/-! ## Amounts

Products of 32 bits, widened afterwards. -/

abbrev usedQuota (used cost : UInt32) : UInt64 := (used * cost).toUInt64

abbrev requestedQuota (requested : Int32) (cost : UInt32) : UInt64 :=
  (requested.toUInt32 * cost).toUInt64

/-- What the rating function is asked in RESERVE mode. -/
abbrev reserveRating (requestedQuota : UInt64) : ServiceRating :=
  { requestSubType := .reserve, monetaryQuota := requestedQuota.toUInt32 }

/-- What the rating function is asked in DEBIT mode. -/
abbrev debitRating (used : UInt32) : ServiceRating :=
  { requestSubType := .debit, consumedUnits := used }

/-! ## One unit usage -/

/-- The answer of RESERVE mode. -/
def grantInformation (num : Nat) (w : World) (s : Scan) (u : MultipleUnitUsage)
    (grantedUnit : UInt32) (terminate : Bool) : MultipleUnitInformation :=
  let reserving := w.ratingTypeOf u.ratingGroup = .reserve
  let threshold : List Trigger := if reserving then [⟨.quotaThreshold, .immediateReport, 0⟩] else []
  let exhausted : List Trigger := [⟨.quotaExhausted, .immediateReport, 0⟩]
  let limit : List Trigger :=
    if w.ue.volumeLimit ≠ 0 then [⟨.volumeLimit, .deferredReport, w.ue.volumeLimit⟩] else []
  let limitPDU : List Trigger :=
    if w.ue.volumeLimitPDU ≠ 0 ∧ num = 0 then
      [⟨.volumeLimit, .immediateReport, w.ue.volumeLimitPDU⟩]
    else []
  let validity : List Trigger :=
    if w.ue.quotaValidityTime ≠ 0 then [⟨.validityTime, .immediateReport, 0⟩] else []
  { ratingGroup := u.ratingGroup
    upfID := u.upfID
    terminate := terminate
    triggers := s.triggers ++ threshold ++ exhausted ++ limit ++ limitPDU ++ validity
    volumeQuotaThreshold :=
      if reserving then w.ue.volumeThreshold grantedUnit else s.volumeQuotaThreshold
    grantedUnit := some grantedUnit.toInt32
    validityTime := w.ue.quotaValidityTime }

/-- The second half of RESERVE mode: the price of the request is turned into units. -/
def grant (num : Nat) (w : World) (s : Scan) (u : MultipleUnitUsage) (requestedQuota : UInt64)
    (terminate : Bool) : World × Option MultipleUnitInformation :=
  match sendServiceUsageRequest net w u.ratingGroup (reserveRating requestedQuota) with
  | (w, none) => (w, none)
  | (w, some rsp) =>
    let (w, cost) := getUnitCost net w u.ratingGroup
    let w := w.setUnitCost u.ratingGroup cost
    let requested := u.requestedVolume.toUInt32
    let grantedUnit := if rsp.allowedUnits ≤ requested then rsp.allowedUnits else requested
    (w.countRequest u.ratingGroup, some (grantInformation num w s u grantedUnit terminate))

/-- The reservation on the account, made when nothing is left of the last one. The flag says
    that the account granted its last quota; `none` that the exchange failed. -/
def reserveQuota (w : World) (rg : Int32) (requestedQuota : UInt64) : World × Option Bool :=
  if w.reserved rg ≤ 0 then
    match sendAccountDebitRequest net w rg
        (updateRequest (-(w.reserved rg).toUInt64 + requestedQuota)) with
    | (w, none) => (w, none)
    | (w, some rsp) =>
      let w := w.setReserved rg (w.reserved rg + rsp.grantedServiceUnit.toInt64)
      if rsp.terminate then (w.setRatingType rg .debit, some true) else (w, some false)
  else (w, some false)

/-- The unit cost is noted and the used units are taken from the reservation. -/
def useQuota (w : World) (rg : Int32) (cost used : UInt32) : World :=
  let w := w.setUnitCost rg cost
  w.setReserved rg (w.reserved rg - (usedQuota used cost).toInt64)

/-- RESERVE mode, for a unit usage that requests units. -/
def reserveMode (num : Nat) (w : World) (s : Scan) (u : MultipleUnitUsage) :
    World × Option MultipleUnitInformation :=
  let rg := u.ratingGroup
  let (w, cost) := getUnitCost net w rg
  let w := useQuota w rg cost s.totalUsedUnit
  let requested := requestedQuota u.requestedVolume cost
  match reserveQuota net w rg requested with
  | (w, none) => (w, none)
  | (w, some terminate) => grant net num w s u requested terminate

/-- The last request of DEBIT mode: what the reservation exceeds the price by is refunded,
    what the price exceeds the reservation by is debited. -/
def settle (w : World) (rg : Int32) (price : UInt32) : World × Option AccountDebitResponse :=
  let price := price.toUInt64.toInt64
  if price < w.reserved rg then
    let reservedRemained := w.reserved rg - price
    sendAccountDebitRequest net (w.setRatingType rg .reserve) rg
      (refundRequest reservedRemained.toUInt64)
  else
    let extraConsumed := price - w.reserved rg
    sendAccountDebitRequest net w rg (terminationRequest extraConsumed.toUInt64)

/-- DEBIT mode: the used units are priced, and the reservation is closed. -/
def debitMode (w : World) (s : Scan) (u : MultipleUnitUsage) :
    World × Option MultipleUnitInformation :=
  let rg := u.ratingGroup
  match sendServiceUsageRequest net w rg (debitRating s.totalUsedUnit) with
  | (w, none) => (w, none)
  | (w, some rsp) =>
    match settle net w rg rsp.price with
    | (w, none) => (w, none)
    | (w, some _) =>
      ((w.setReserved rg 0).countRequest rg,
        some {
          ratingGroup := rg
          upfID := u.upfID
          triggers := s.triggers ++ [⟨.quotaExhausted, .immediateReport, 0⟩]
          volumeQuotaThreshold := s.volumeQuotaThreshold
          grantedUnit := some 0 })

/-- The state in which the mode of the rating group is read: FINAL switches it to DEBIT, and
    back to RESERVE when units are requested. -/
def switchMode (w : World) (s : Scan) (u : MultipleUnitUsage) : World :=
  if s.finalSeen then
    if 0 < u.requestedVolume then
      (w.setRatingType u.ratingGroup .debit).setRatingType u.ratingGroup .reserve
    else w.setRatingType u.ratingGroup .debit
  else w

/-- The switch on the mode of the rating group. -/
def serve (num : Nat) (w : World) (s : Scan) (u : MultipleUnitUsage) :
    World × Option MultipleUnitInformation :=
  match w.ratingTypeOf u.ratingGroup with
  | .reserve =>
    -- without requested units the turn ends here, whatever was used
    if 0 < u.requestedVolume then reserveMode net num w s u else (w, none)
  | .debit => debitMode net w s u
  | _ =>
    (w.countRequest u.ratingGroup,
      some {
        ratingGroup := u.ratingGroup
        upfID := u.upfID
        triggers := s.triggers
        volumeQuotaThreshold := s.volumeQuotaThreshold })

/-- One turn of the loop over the unit usages. -/
def unitUsage (triggers : List Trigger) (num : Nat) (w : World) (u : MultipleUnitUsage) :
    World × Option MultipleUnitInformation :=
  let w := w.findRatingGroup u.ratingGroup
  let s := scan triggers u.usedUnitContainer
  -- FINAL is only looked for under online charging, so the mode stays as it is here
  if !s.creditControl then (w, none) else serve net num (switchMode w s u) s u

/-- `sessionChargingReservation`: the answers, in the order of the unit usages, and whether a
    partial record is to be written. -/
def sessionChargingReservation (w : World) (req : ChargingDataRequest) :
    World × List MultipleUnitInformation × Bool :=
  let r := req.multipleUnitUsage.zipIdx.foldl (fun acc e =>
    let turn := unitUsage net req.triggers e.2 acc.1 e.1
    (turn.1, acc.2 ++ turn.2.toList)) (w, [])
  (r.1, r.2, partialRecord req)

end Free5gc.Chf.Charging
