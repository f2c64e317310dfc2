/-
  The charging data of an SM context (NFs/smf/internal/context: charging.go, pfcp_rules.go,
  sm_context.go): the usage reports that wait for the next charging request, what is charged
  for a URR, and the URRs of each UPF with the state of their deployment. RegisterUrr puts a
  rule into the table of its UPF under the rule's own number, so the number is left out of the
  rule here and an entry owns its rule.
-/
import Free5gc.Lib.GoMap
import Mathlib.Algebra.Ring.Int.Defs

namespace Free5gc.Smf.Charging

open Free5gc.Lib

/-- `ChfConvergedChargingTriggerType`; the empty text is `none`. -/
inductive TriggerType where
  | quotaThreshold
  | quotaExhausted
  | validityTime
  | startOfServiceDataFlow
  | finalUsage
  | volumeLimit
  | maxNumberOfChangesInChargingConditions
  | userLocationChange
  | other (name : String)
  deriving DecidableEq, Repr

inductive TriggerCategory where
  | immediateReport
  | deferredReport
  deriving DecidableEq, Repr

/-- `ChfConvergedChargingTrigger` -/
structure Trigger where
  triggerType : TriggerType
  triggerCategory : TriggerCategory
  volumeLimit : Int32 := 0
  eventLimit : Int32 := 0
  deriving DecidableEq, Repr

inductive QuotaManagementIndicator where
  | onlineCharging
  | offlineCharging
  | quotaManagementSuspended
  deriving DecidableEq, Repr

inductive ChargingLevel where
  | pduSessionCharging
  | flowCharging
  deriving DecidableEq, Repr

/-- A timer that makes the SMF query the URR, and then report to the CHF or not. -/
structure ExpiryTimer where
  seconds : Int32
  upfId : String
  urrId : UInt32
  reports : Bool
  deriving DecidableEq, Repr

structure ChargingInfo where
  chargingMethod : QuotaManagementIndicator
  volumeLimitExpiryTimer : Option ExpiryTimer := none
  eventLimitExpiryTimer : Option ExpiryTimer := none
  chargingLevel : ChargingLevel
  ratingGroup : Int32
  upfId : String
  deriving DecidableEq, Repr

/-- `UsageReport`, as cached for the next charging request. -/
structure UsageReport where
  urrId : UInt32 := 0
  upfId : String := ""
  totalVolume : UInt64 := 0
  uplinkVolume : UInt64 := 0
  downlinkVolume : UInt64 := 0
  totalPktNum : UInt64 := 0
  uplinkPktNum : UInt64 := 0
  downlinkPktNum : UInt64 := 0
  reportTpye : Option TriggerType := none
  deriving DecidableEq, Repr

/-- The flags of `pfcpType.ReportingTriggers` that the SMF sets. -/
structure ReportingTriggers where
  perio : Bool := false
  volth : Bool := false
  volqu : Bool := false
  quvti : Bool := false
  start : Bool := false
  deriving DecidableEq, Repr

inductive RuleState where
  | initial
  | create
  | update
  | remove
  | query
  deriving DecidableEq, Repr

inductive MeasureMethod where
  | vol
  | time
  deriving DecidableEq, Repr

/-- The zero `time.Time`, the first day of the year 1, in nanoseconds since 1900. -/
def zeroTime : Int := -59926608000 * 10 ^ 9

/-- `URR`. A time is given in nanoseconds since 1900. -/
structure URR where
  measureMethod : MeasureMethod := .vol
  reportingTrigger : ReportingTriggers := {}
  measurementPeriod : Nat := 0
  quotaValidityTime : Int := zeroTime
  mnop : Bool := true
  mbqe : Bool := false
  volumeThreshold : UInt64 := 0
  volumeQuota : UInt64 := 0
  deriving DecidableEq, Repr

structure UrrEntry where
  rule : URR
  state : RuleState
  deriving DecidableEq, Repr

/-- The fields of an `SMContext` that charging reads or writes. -/
structure SMContext where
  urrReports : List UsageReport := []
  chargingInfo : GoMap UInt32 ChargingInfo := ∅
  urrTable : GoMap String (GoMap UInt32 UrrEntry) := ∅
  requestedUnit : Int32 := 1000

end Free5gc.Smf.Charging
