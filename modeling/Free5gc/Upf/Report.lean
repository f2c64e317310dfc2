/-
  UPF reports (`internal/report/report.go`): usage reports, their trigger bits, and the
  information elements a usage report is rendered to in a PFCP message.

  Times are kept as integers; nothing here computes with them. A usage report inside a
  message (`UsageReport`) is kept as the numbered report and the elements go-pfcp is given.
-/
import Mathlib.Data.UInt

namespace Free5gc.Upf

/-- Which measurements a URR asks for. -/
structure MeasureMethod where
  durat : Bool
  volum : Bool
  event : Bool
  deriving DecidableEq, Repr

/-- The Measurement Information flags the UPF reads. `SSPOC`, `ASPOC` and `CIAM` of the
    source struct are never set or read. -/
structure MeasureInformation where
  mbqe : Bool
  inam : Bool
  radi : Bool
  istm : Bool
  mnop : Bool
  deriving DecidableEq, Repr

/-- All flags clear: what an absent Measurement Information IE gives. -/
def MeasureInformation.none : MeasureInformation := ⟨false, false, false, false, false⟩

/-! ## Trigger bits -/

/-- Reporting Triggers bit `PERIO` (`RPT_TRIG_PERIO`). -/
def rptTrigPerio : UInt32 := 1

/-- `ReportingTrigger.PERIO` on the flag word. -/
def reportingTriggerPERIO (flags : UInt32) : Bool := flags &&& rptTrigPerio != 0

/-- `ReportingTrigger.Unmarshal`: at least two octets, read as a little-endian word of the
    first four of the octets padded with two zeros. -/
def reportingTriggerUnmarshal (b : List UInt8) : Option UInt32 :=
  if b.length < 2 then none
  else
    let v := b ++ [0, 0]
    let octet := fun i => (v.getD i 0).toUInt32
    some (octet 0 ||| octet 1 <<< 8 ||| octet 2 <<< 16 ||| octet 3 <<< 24)

def usarTrigPerio : UInt32 := 1
def usarTrigStart : UInt32 := 0x10
def usarTrigStopt : UInt32 := 0x20
def usarTrigImmer : UInt32 := 0x80
def usarTrigTermr : UInt32 := 0x800
def usarTrigMacar : UInt32 := 0x4000

/-- Apply Action bits (`APPLY_ACT_*`) the UPF tests. -/
def applyActDrop : UInt16 := 1
def applyActForw : UInt16 := 2
def applyActBuff : UInt16 := 4
def applyActNocp : UInt16 := 8

/-- `ApplyAction.Unmarshal`: at least one octet, padded to two, little-endian. -/
def applyActionUnmarshal (b : List UInt8) : Option UInt16 :=
  if b.length < 1 then none
  else
    let octet := fun i => (b.getD i 0).toUInt16
    some (octet 0 ||| octet 1 <<< 8)

/-! ## Usage reports -/

/-- `VolumeMeasure` without its flag octet, which `SetFlags` fills when the report is
    rendered. -/
structure VolumeMeasure where
  totalVolume : UInt64
  uplinkVolume : UInt64
  downlinkVolume : UInt64
  totalPktNum : UInt64
  uplinkPktNum : UInt64
  downlinkPktNum : UInt64
  deriving DecidableEq, Repr

/-- `report.USAReport`. `DuratMeasure` is never set by the UPF and is rendered as 0. -/
structure USAReport where
  urrid : UInt32
  urseqn : UInt32
  usarTrigger : UInt32
  volumMeasure : VolumeMeasure
  queryUrrRef : UInt32
  startTime : Int
  endTime : Int
  deriving DecidableEq, Repr

/-- `r.USARTrigger.Flags |= bit`. -/
def USAReport.flag (r : USAReport) (bit : UInt32) : USAReport :=
  { r with usarTrigger := r.usarTrigger ||| bit }

/-- The elements of a usage report in a PFCP message. -/
inductive UsageIE where
  | urrID (v : UInt32)
  | urSEQN (v : UInt32)
  | usageReportTrigger (octets : List UInt8)
  | startTime (v : Int)
  | endTime (v : Int)
  | volumeMeasurement (flags : UInt8) (v : VolumeMeasure)
  | durationMeasurement (v : Int)
  deriving DecidableEq, Repr

/-- `UsageReportTrigger.IE`: the three low octets of the flag word. -/
def usageReportTriggerIE (flags : UInt32) : UsageIE :=
  .usageReportTrigger [flags.toUInt8, (flags >>> 8).toUInt8, (flags >>> 16).toUInt8]

/-- `VolumeMeasure.SetFlags` from a clear flag octet: the three volume bits, and with
    `mnop` the three packet-count bits. -/
def volumeFlags (mnop : Bool) : UInt8 := if mnop then 0x3f else 0x07

/-- The body shared by the three `IEsWithin…` methods, which are the same in the source. -/
def USAReport.ies (r : USAReport) (m : MeasureMethod) (i : MeasureInformation) :
    List UsageIE :=
  let timed := r.usarTrigger &&& (usarTrigStart ||| usarTrigStopt ||| usarTrigMacar) == 0
  [.urrID r.urrid, .urSEQN r.urseqn, usageReportTriggerIE r.usarTrigger]
    ++ (if timed then [.startTime r.startTime, .endTime r.endTime] else [])
    ++ (if m.volum then [.volumeMeasurement (volumeFlags i.mnop) r.volumMeasure] else [])
    ++ (if m.durat then [.durationMeasurement 0] else [])

def USAReport.iesWithinSessReportReq : USAReport → MeasureMethod → MeasureInformation →
    List UsageIE := USAReport.ies

def USAReport.iesWithinSessModRsp : USAReport → MeasureMethod → MeasureInformation →
    List UsageIE := USAReport.ies

def USAReport.iesWithinSessDelRsp : USAReport → MeasureMethod → MeasureInformation →
    List UsageIE := USAReport.ies

/-- A usage report put into a message: the numbered report and the elements it was
    rendered to. -/
structure UsageReport where
  report : USAReport
  ies : List UsageIE
  deriving DecidableEq, Repr

/-- `report.DLDReport`. -/
structure DLDReport where
  pdrid : UInt16
  action : UInt16
  bufPkt : List UInt8
  deriving DecidableEq, Repr

/-- `report.Report`: the two report types the UPF produces, and the rest, which
    `ServeReport` only logs. -/
inductive Report where
  | dld (r : DLDReport)
  | usa (r : USAReport)
  | unsupported
  deriving DecidableEq, Repr

/-- `report.SessReport`. -/
structure SessReport where
  seid : Nat
  reports : List Report
  deriving DecidableEq, Repr

end Free5gc.Upf
