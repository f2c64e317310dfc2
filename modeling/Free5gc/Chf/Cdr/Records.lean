/-
  The charging data records of one subscriber (`processor/cdr.go`,
  `processor/converged_charging.go`): how the three kinds of charging data requests open,
  extend, split and close records, and which records they hand to `dumpCdrFile`.

  `ue.Records` holds a pointer to every record of the subscriber, `ue.Cdr` one for each session.
  A record is put into both at once, so the list of records serves as the heap and a session
  maps to a position in it.

  Fields of a record that no handler sets are left out with their tags: they are optional and
  take no octets. Triggers are among them, for `TriggersToCdr` always returns an empty slice.
-/
import Free5gc.Lib.GoMap
import Free5gc.Chf.Asn.Ber
import Free5gc.Chf.Cdr.CdrFile
import Free5gc.Chf.Charging.Reservation
import Free5gc.Lib.Hex

namespace Free5gc.Chf.Cdr

open Free5gc.Lib Free5gc.Chf.Asn

/-! ## Requests -/

structure UsedUnitContainer extends Charging.UsedUnitContainer where
  localSequenceNumber : Int32 := 0
  uplinkVolume : Int32 := 0
  downlinkVolume : Int32 := 0
  serviceSpecificUnits : Int32 := 0

structure MultipleUnitUsage where
  ratingGroup : Int32
  upfID : String := ""
  requestedUnit : Option Int32 := none
  usedUnitContainer : List UsedUnitContainer := []

inductive NodeFunctionality where
  | smf | amf | smsf | pgwCSmf | nef | sgw | iSmf | ePDG | cef | mnSProducer | other
  deriving DecidableEq, Repr

/-- The consumer of the charging service. A text that is empty is not there; a PLMN id is an MCC
    and an MNC. -/
structure NFIdentification where
  nFName : String := ""
  nFIPv4Address : String := ""
  nFIPv6Address : String := ""
  nFFqdn : String := ""
  nFPLMNID : Option (List Char × List Char) := none
  nodeFunctionality : NodeFunctionality := .other

/-- `networkSlicingInfo` may hold an S-NSSAI: its SST and SD. -/
structure PduSessionInformation where
  pduSessionID : Int32
  dnnId : String
  networkSlicingInfo : Option (Option (Int32 × String))

structure PDUSessionCharging where
  chargingId : Int32
  pduSessionInformation : Option PduSessionInformation

structure ChargingDataRequest where
  triggers : List Charging.Trigger := []
  multipleUnitUsage : List MultipleUnitUsage := []
  nfConsumerIdentification : Option NFIdentification := none
  chargingId : Int32 := 0
  oneTimeEvent : Bool := false
  serviceSpecificationInfo : String := ""
  registrationChargingInformation : Bool := false
  pDUSessionChargingInformation : Option PDUSessionCharging := none

/-- What the reservation sees of a request. -/
def ChargingDataRequest.charging (req : ChargingDataRequest) : Charging.ChargingDataRequest where
  triggers := req.triggers
  multipleUnitUsage := req.multipleUnitUsage.map fun u =>
    { ratingGroup := u.ratingGroup, upfID := u.upfID, requestedUnit := u.requestedUnit
      usedUnitContainer := u.usedUnitContainer.map (·.toUsedUnitContainer) }

/-! ## Types of records -/

/-- `ber:"tagNum:n"` -/
def required (n : Nat) : List Char := "tagNum:".toList ++ Nat.toDigits 10 n

/-- `ber:"tagNum:n,optional"` -/
def optional (n : Nat) : List Char := required n ++ ",optional".toList

abbrev usedUnitContainerFields : Fields :=
  .cons (optional 4) (.ptr (.value .int))
    (.cons (optional 5) (.ptr (.value .int))
      (.cons (optional 6) (.ptr (.value .int))
        (.cons (optional 7) (.ptr .int)
          (.cons (optional 9) (.ptr (.value .int)) .nil))))

abbrev multipleUnitUsageFields : Fields :=
  .cons (required 0) (.value .int)
    (.cons (optional 1) (.slice (.struct usedUnitContainerFields))
      (.cons (optional 2) (.ptr (.value .string)) .nil))

abbrev subscriptionIDFields : Fields :=
  .cons (required 0) (.value .enumerated) (.cons (required 1) .string .nil)

/-- `IPAddress` up to its last alternative that is used. -/
abbrev ipAddress : Ty :=
  .choice (.cons (required 0) (.ptr (.value .octetString))
    (.cons (required 1) (.ptr (.value .octetString))
      (.cons (required 2) (.ptr .string) (.cons (required 3) (.ptr .string) .nil))))

abbrev nodeAddress : Ty :=
  .choice (.cons (required 0) (.ptr ipAddress) (.cons (required 1) (.ptr .string) .nil))

abbrev networkFunctionInformationFields : Fields :=
  .cons (required 0) (.value .enumerated)
    (.cons (optional 1) (.ptr (.value .string))
      (.cons (optional 2) (.ptr ipAddress)
        (.cons (optional 3) (.ptr (.value .octetString))
          (.cons (optional 4) (.ptr ipAddress)
            (.cons (optional 5) (.ptr nodeAddress) .nil)))))

abbrev singleNSSAIFields : Fields :=
  .cons (required 0) (.value .int) (.cons (optional 1) (.ptr (.value .octetString)) .nil)

abbrev pduSessionChargingInformationFields : Fields :=
  .cons (required 0) (.value .int)
    (.cons (required 6) (.value .int)
      (.cons (optional 7) (.ptr (.struct singleNSSAIFields))
        (.cons (optional 13) (.ptr (.value .string)) .nil)))

abbrev registrationChargingInformationFields : Fields :=
  .cons (required 0) (.value .enumerated) .nil

/-- The fields behind `CauseForRecClosing`. -/
abbrev laterFields : Fields :=
  .cons (optional 11) (.ptr (.value .int))
    (.cons (optional 13) (.ptr (.struct pduSessionChargingInformationFields))
      (.cons (optional 16) (.ptr (.value .octetString))
        (.cons (optional 17) (.ptr .octetString)
          (.cons (optional 19) (.ptr (.struct registrationChargingInformationFields))
            (.cons (optional 27) (.ptr (.value .int)) .nil)))))

abbrev chargingRecordFields : Fields :=
  .cons (required 0) (.value .int)
    (.cons (required 1) (.value .string)
      (.cons (optional 2) (.ptr (.struct subscriptionIDFields))
        (.cons (required 3) (.struct networkFunctionInformationFields)
          (.cons (optional 5) (.slice (.struct multipleUnitUsageFields))
            (.cons (required 6) (.value .octetString)
              (.cons (required 7) (.value .int)
                (.cons (optional 8) (.ptr .int)
                  (.cons (required 9) (.value .int) laterFields))))))))

abbrev chfRecord : Ty :=
  .choice (.cons (required 200) (.ptr (.struct chargingRecordFields)) .nil)

/-! ## Records -/

structure CdrUsedUnitContainer where
  dataTotalVolume : Int64
  dataVolumeUplink : Int64
  dataVolumeDownlink : Int64
  serviceSpecificUnits : Int64
  localSequenceNumber : Int64

structure CdrMultipleUnitUsage where
  ratingGroup : Int64
  usedUnitContainers : List CdrUsedUnitContainer
  upfID : List UInt8

structure NetworkFunctionInformation where
  networkFunctionality : Int64
  networkFunctionName : Option (List UInt8)
  networkFunctionIPv4Address : Option (List UInt8)
  networkFunctionPLMNIdentifier : Option (List UInt8)
  networkFunctionIPv6Address : Option (List UInt8)
  networkFunctionFQDN : Option (List UInt8)

structure PDUSessionChargingInformation where
  pDUSessionChargingID : Int64
  pDUSessionId : Int64
  sst : Int64
  sd : List UInt8
  dataNetworkNameIdentifier : List UInt8

/-- A `CHFRecord` with the `ChargingRecord` it points to. -/
structure ChargingRecord where
  recordType : Int64
  recordingNetworkFunctionID : List UInt8
  subscriberIdentifier : Option (Int64 × List UInt8)
  nFunctionConsumerInformation : NetworkFunctionInformation
  listOfMultipleUnitUsage : Option (List CdrMultipleUnitUsage)
  recordOpeningTime : List UInt8
  duration : Int64
  recordSequenceNumber : Option Int64
  causeForRecClosing : Int64
  localRecordSequenceNumber : Int64
  pDUSessionChargingInformation : Option PDUSessionChargingInformation
  chargingSessionIdentifier : Option (List UInt8)
  serviceSpecificationInformation : Option (List UInt8)
  registrationChargingInformation : Option Int64
  chargingID : Int64

def CdrUsedUnitContainer.val (c : CdrUsedUnitContainer) : usedUnitContainerFields.Val :=
  (some c.dataTotalVolume, some c.dataVolumeUplink, some c.dataVolumeDownlink,
    some c.serviceSpecificUnits, some c.localSequenceNumber, ())

def CdrMultipleUnitUsage.val (u : CdrMultipleUnitUsage) : multipleUnitUsageFields.Val :=
  (u.ratingGroup, some (u.usedUnitContainers.map (·.val)), some u.upfID, ())

def NetworkFunctionInformation.val (i : NetworkFunctionInformation) :
    networkFunctionInformationFields.Val :=
  (i.networkFunctionality, i.networkFunctionName,
    i.networkFunctionIPv4Address.map fun a => (3, none, none, some a, none, ()),
    i.networkFunctionPLMNIdentifier.map some,
    i.networkFunctionIPv6Address.map fun a => (4, none, none, none, some a, ()),
    i.networkFunctionFQDN.map fun a => (2, none, some a, ()), ())

def PDUSessionChargingInformation.val (i : PDUSessionChargingInformation) :
    pduSessionChargingInformationFields.Val :=
  (i.pDUSessionChargingID, i.pDUSessionId, some (i.sst, some (some i.sd), ()),
    some i.dataNetworkNameIdentifier, ())

def ChargingRecord.later (r : ChargingRecord) : laterFields.Val :=
  (some r.localRecordSequenceNumber, r.pDUSessionChargingInformation.map (·.val),
    r.chargingSessionIdentifier.map some, r.serviceSpecificationInformation.map some,
    r.registrationChargingInformation.map fun m => (m, ()), some r.chargingID, ())

def ChargingRecord.val (r : ChargingRecord) : chargingRecordFields.Val :=
  (r.recordType, r.recordingNetworkFunctionID,
    r.subscriberIdentifier.map fun i => (i.1, i.2, ()),
    r.nFunctionConsumerInformation.val, r.listOfMultipleUnitUsage.map (·.map (·.val)),
    some r.recordOpeningTime, r.duration, r.recordSequenceNumber, r.causeForRecClosing, r.later)

/-- The parameters every record is written with. -/
def berParams : List Char := "explicit,choice".toList

/-- `BerMarshalWithParams(&record, "explicit,choice")` of a pointer to a record. -/
def ChargingRecord.ber (r : ChargingRecord) : Except BerError (List UInt8) :=
  berMarshalWithParams (.ptr (.ptr chfRecord)) (some (some (1, some r.val, ()))) berParams

/-! ## Conversion -/

def octets (s : String) : List UInt8 := s.toUTF8.data.toList

def usedUnitContainerToCdr (c : UsedUnitContainer) : CdrUsedUnitContainer where
  dataTotalVolume := c.totalVolume.toInt64
  dataVolumeUplink := c.uplinkVolume.toInt64
  dataVolumeDownlink := c.downlinkVolume.toInt64
  serviceSpecificUnits := c.serviceSpecificUnits.toInt64
  localSequenceNumber := c.localSequenceNumber.toInt64

def multiUnitUsageToCdr (us : List MultipleUnitUsage) : List CdrMultipleUnitUsage :=
  us.map fun u =>
    { ratingGroup := u.ratingGroup.toInt64
      usedUnitContainers := u.usedUnitContainer.map usedUnitContainerToCdr
      upfID := octets u.upfID }

/-- The octets of the unit usages of a request, none when it has none. -/
def unitsBer (req : ChargingDataRequest) : Except BerError (List UInt8) :=
  if req.multipleUnitUsage.isEmpty then .ok []
  else
    berMarshalWithParams (.ptr (.slice (.struct multipleUnitUsageFields)))
      (some (some ((multiUnitUsageToCdr req.multipleUnitUsage).map (·.val)))) berParams

/-- A local time and the seconds its zone is east of UTC. -/
structure Time where
  year : Int
  month : Int
  day : Int
  hour : Int
  minute : Int
  second : Int
  zone : Int

/-- Two digits in one octet. -/
def bcd (high low : Int) : UInt8 := UInt8.ofInt high <<< 4 ||| UInt8.ofInt low

def timeStampToCdr (t : Time) : List UInt8 :=
  [bcd ((t.year.tmod 100).tdiv 10) (t.year.tmod 10), bcd (t.month.tdiv 10) (t.month.tmod 10),
    bcd (t.day.tdiv 10) (t.day.tmod 10), bcd (t.hour.tdiv 10) (t.hour.tmod 10),
    bcd (t.minute.tdiv 10) (t.minute.tmod 10), bcd (t.second.tdiv 10) (t.second.tmod 10),
    if 0 ≤ t.zone then 0x2b else 0x2d,
    bcd ((t.zone.tdiv 3600).tdiv 10) ((t.zone.tdiv 3600).tmod 10),
    bcd ((t.zone.tmod 3600).tdiv 10) ((t.zone.tmod 3600).tmod 10)]

/-- The CHF: its id, and the check of PLMN ids, which is not part of the repository. -/
structure CHFContext where
  nfId : String
  isValidPlmnIdParts : List Char → List Char → Bool

def plmnIdToCdr (chf : CHFContext) (mcc mnc : List Char) : Option (List UInt8) :=
  if chf.isValidPlmnIdParts mcc mnc then
    match mcc, mnc with
    | [m₁, m₂, m₃], [n₁, n₂] => decodeHex [m₂, m₁, 'f', m₃, n₂, n₁]
    | [m₁, m₂, m₃], [n₁, n₂, n₃] => decodeHex [m₂, m₁, n₃, m₃, n₂, n₁]
    | _, _ => none
  else none

def NodeFunctionality.toCdr : NodeFunctionality → Int64
  | .smf => 1
  | .amf => 2
  | .smsf => 3
  | .sgw => 4
  | .iSmf => 5
  | .ePDG => 6
  | .cef => 7
  | .nef => 8
  | .pgwCSmf => 9
  | .mnSProducer => 10
  | .other => 0

/-! ## Opening, extending and closing -/

/-- A text that is not empty. -/
def textToCdr (s : String) : Option (List UInt8) := if s = "" then none else some (octets s)

def consumerInfo (chf : CHFContext) (c : NFIdentification) : Option NetworkFunctionInformation := do
  let plmn ←
    match c.nFPLMNID with
    | none => some none
    | some (mcc, mnc) => (plmnIdToCdr chf mcc mnc).map some
  some
    { networkFunctionality := c.nodeFunctionality.toCdr
      networkFunctionName := textToCdr c.nFName
      networkFunctionIPv4Address := textToCdr c.nFIPv4Address
      networkFunctionPLMNIdentifier := plmn
      networkFunctionIPv6Address := textToCdr c.nFIPv6Address
      networkFunctionFQDN := textToCdr c.nFFqdn }

/-- The information on the PDU session. All of its parts must be there. -/
def pduSessionInfo (p : PDUSessionCharging) : Option PDUSessionChargingInformation := do
  let info ← p.pduSessionInformation
  if info.pduSessionID = 0 ∨ info.dnnId = "" then none
  else do
    let slicing ← info.networkSlicingInfo
    let (sst, sd) ← slicing
    some
      { pDUSessionChargingID := p.chargingId.toInt64
        pDUSessionId := info.pduSessionID.toInt64
        sst := sst.toInt64
        sd := octets sd
        dataNetworkNameIdentifier := octets info.dnnId }

def pduSession (req : ChargingDataRequest) : Option (Option PDUSessionChargingInformation) :=
  match req.pDUSessionChargingInformation with
  | none => some none
  | some p => (pduSessionInfo p).map some

/-- `OpenCDR` of a new record; `none` where it returns an error. Every subscriber is known by an
    IMSI. -/
def openCDR (chf : CHFContext) (supi : String) (req : ChargingDataRequest) (sessionId : String)
    (now : Time) (localRecordSequenceNumber : UInt64) : Option ChargingRecord := do
  let consumer ← req.nfConsumerIdentification
  let info ← consumerInfo chf consumer
  let pdu ← pduSession req
  some
    { recordType := 200
      recordingNetworkFunctionID := octets chf.nfId
      subscriberIdentifier := some (1, (octets supi).drop 5)
      nFunctionConsumerInformation := info
      listOfMultipleUnitUsage := none
      recordOpeningTime := timeStampToCdr now
      duration := 0
      recordSequenceNumber := none
      causeForRecClosing := 0
      localRecordSequenceNumber := localRecordSequenceNumber.toInt64
      pDUSessionChargingInformation := pdu
      chargingSessionIdentifier := textToCdr sessionId
      serviceSpecificationInformation := textToCdr req.serviceSpecificationInfo
      registrationChargingInformation :=
        if req.registrationChargingInformation then some 0 else none
      chargingID := req.chargingId.toInt64 }

/-- The number of a partial record: the one the map holds for the session, counted up. -/
def partialRecordSeqNum (recordSequenceNumber : GoMap String Int64) (sessionId : String) : Int64 :=
  (recordSequenceNumber.lookup sessionId).getD 0 + 1

theorem partialRecordSeqNum_empty (sessionId : String) : partialRecordSeqNum ∅ sessionId = 1 := by
  rw [partialRecordSeqNum, Finmap.lookup_empty]
  rfl

/-- `OpenCDR` of a partial record: the record stays and gets a sequence number. The number that
    was counted is not stored. -/
def reopenCDR (recordSequenceNumber : GoMap String Int64) (sessionId : String)
    (r : ChargingRecord) : ChargingRecord :=
  { r with recordSequenceNumber := some (partialRecordSeqNum recordSequenceNumber sessionId) }

def updateCDR (r : ChargingRecord) (req : ChargingDataRequest) : ChargingRecord :=
  if req.multipleUnitUsage.isEmpty then r
  else
    { r with
      listOfMultipleUnitUsage :=
        some (r.listOfMultipleUnitUsage.getD [] ++ multiUnitUsageToCdr req.multipleUnitUsage) }

def closeCDR (r : ChargingRecord) (isPartial : Bool) : ChargingRecord :=
  { r with causeForRecClosing := if isPartial then 1 else 0 }

/-- The copy that continues a record which has become too long. -/
def emptied (r : ChargingRecord) : ChargingRecord := { r with listOfMultipleUnitUsage := some [] }

/-! ## Files -/

/-- The octets of a record. An error is only logged. -/
def ChargingRecord.bytes (r : ChargingRecord) : List UInt8 :=
  match r.ber with
  | .ok bs => bs
  | .error _ => []

/-- The CDR for a record: `DataRecordFormat` is BER, all else is zero. -/
def cdrOf (r : ChargingRecord) : CDR where
  hdr :=
    { cdrLength := UInt16.ofNat r.bytes.length, releaseIdentifier := 0, versionIdentifier := 0
      dataRecordFormat := 1, tsNumber := 0, releaseIdentifierExtension := 0 }
  cdrByte := r.bytes

def zeroTimeStamp : CdrHdrTimeStamp := ⟨0, 0, 0, 0, 0, 0, 0⟩

/-- The file that `dumpCdrFile` writes. -/
def dumpCdrFile (records : List ChargingRecord) : CDRFile where
  hdr :=
    { fileLength := records.foldl (fun n r => n + UInt32.ofNat r.bytes.length + 4) 52
      headerLength := 52
      highReleaseIdentifier := 0
      highVersionIdentifier := 0
      lowReleaseIdentifier := 0
      lowVersionIdentifier := 0
      fileOpeningTimestamp := zeroTimeStamp
      timestampWhenLastCdrWasAppendedToFIle := zeroTimeStamp
      numberOfCdrsInFile := UInt32.ofNat records.length
      fileSequenceNumber := 0
      fileClosureTriggerReason := 0
      ipAddressOfNodeThatGeneratedFile := Vector.replicate 20 0
      lostCdrIndicator := 0
      lengthOfCdrRouteingFilter := 0
      cdrRouteingFilter := []
      lengthOfPrivateExtension := 0
      privateExtension := []
      highReleaseIdentifierExtension := 0
      lowReleaseIdentifierExtension := 0 }
  cdrList := records.map cdrOf

/-! ## Requests and runs -/

/-- The records of a subscriber, and the map `RecordSequenceNumber` of the CHF, which all have in
    common. `dumps` is the history of what was passed to `dumpCdrFile`. -/
structure ChfUe where
  supi : String
  records : List ChargingRecord
  cdr : GoMap String Nat
  recordSequenceNumber : GoMap String Int64
  dumps : List (List ChargingRecord)

def ChfUe.dump (ue : ChfUe) (records : List ChargingRecord) : ChfUe :=
  { ue with dumps := ue.dumps ++ [records] }

/-- `ue.Cdr[sessionId] = r; ue.Records = append(ue.Records, r)` -/
def ChfUe.addRecord (ue : ChfUe) (sessionId : String) (r : ChargingRecord) : ChfUe :=
  { ue with
    records := ue.records ++ [r]
    cdr := ue.cdr.insert sessionId ue.records.length }

/-- A write through the pointer to the record at `i`. -/
def ChfUe.write (ue : ChfUe) (i : Nat) (r : ChargingRecord) : ChfUe :=
  { ue with records := ue.records.set i r }

/-- The record of a session with its position. -/
def ChfUe.find (ue : ChfUe) (sessionId : String) : Option (Nat × ChargingRecord) := do
  let i ← ue.cdr.lookup sessionId
  let r ← ue.records[i]?
  some (i, r)

/-- The id of a new session. A one-time event has none. -/
def newSessionId (supi : String) (req : ChargingDataRequest) (localRecordSequenceNumber : UInt64) :
    String :=
  if req.oneTimeEvent then ""
  else
    supi ++ ((req.nfConsumerIdentification.map (·.nFName)).getD "") ++
      toString localRecordSequenceNumber.toInt64.toInt

/-- The counter is shared by all subscribers: a request finds it at any value. -/
def chargingDataCreate (chf : CHFContext) (ue : ChfUe) (req : ChargingDataRequest) (now : Time)
    (localRecordSequenceNumber : UInt64) : ChfUe :=
  let sessionId := newSessionId ue.supi req localRecordSequenceNumber
  if "imsi-".toList.isPrefixOf ue.supi.toList then
    match openCDR chf ue.supi req sessionId now (localRecordSequenceNumber + 1) with
    | none => ue
    | some cdr =>
      let cdr := updateCDR cdr req
      ue.addRecord sessionId (if req.oneTimeEvent then closeCDR cdr false else cdr)
  else ue

/-- The record that takes the unit usages of a request: the one of the session, or a copy when
    the two lengths together do not fit 16 bits. -/
def splitRecord (ue : ChfUe) (sessionId : String) (i : Nat) (cdr : ChargingRecord)
    (cdrBytes chgDataBytes : List UInt8) : ChfUe × Nat × ChargingRecord :=
  if cdrBytes.length + chgDataBytes.length > 65535 then
    (ue.addRecord sessionId (emptied cdr), ue.records.length, emptied cdr)
  else (ue, i, cdr)

/-- The end of an update. `written` says whether the file of a partial record could be
    written. -/
def finishUpdate (ue : ChfUe) (req : ChargingDataRequest) (sessionId : String) (i : Nat)
    (cdr : ChargingRecord) (written : Bool) : ChfUe :=
  let cdr := updateCDR cdr req
  if Charging.partialRecord req.charging then
    let cdr := closeCDR cdr true
    let ue := (ue.write i cdr).dump [cdr]
    if written then
      let ue := ue.write i (reopenCDR ue.recordSequenceNumber sessionId cdr)
      ue.dump ue.records
    else ue
  else
    let ue := ue.write i cdr
    ue.dump ue.records

def chargingDataUpdate (ue : ChfUe) (req : ChargingDataRequest) (sessionId : String)
    (written : Bool) : ChfUe :=
  match ue.find sessionId with
  | none => ue
  | some (i, cdr) =>
    match cdr.ber, unitsBer req with
    | .ok cdrBytes, .ok chgDataBytes =>
      let (ue, i, cdr) := splitRecord ue sessionId i cdr cdrBytes chgDataBytes
      finishUpdate ue req sessionId i cdr written
    | _, _ => ue

/-- A release does not compare lengths. -/
def chargingDataRelease (ue : ChfUe) (req : ChargingDataRequest) (sessionId : String) : ChfUe :=
  match ue.find sessionId with
  | none => ue
  | some (i, cdr) =>
    let cdr := closeCDR (updateCDR cdr req) false
    (ue.write i cdr).dump [cdr]

inductive Event where
  | create (req : ChargingDataRequest) (now : Time) (localRecordSequenceNumber : UInt64)
  | update (req : ChargingDataRequest) (sessionId : String) (written : Bool)
  | release (req : ChargingDataRequest) (sessionId : String)

def step (chf : CHFContext) (ue : ChfUe) : Event → ChfUe
  | .create req now n => chargingDataCreate chf ue req now n
  | .update req sessionId written => chargingDataUpdate ue req sessionId written
  | .release req sessionId => chargingDataRelease ue req sessionId

/-- A subscriber without records. -/
def ChfUe.init (supi : String) : ChfUe where
  supi := supi
  records := []
  cdr := ∅
  recordSequenceNumber := ∅
  dumps := []

end Free5gc.Chf.Cdr
