/-
  PFCP messages as the UPF reads and builds them (go-pfcp's `message` package, and
  `isRequest`, `isResponse`, `setReqSeq`, `validatePfcpPacketLength` of
  `internal/pfcp/pfcp.go`).

  A mandatory or conditional element of a request is `none` when the message does not have
  it, and `some none` when its accessor fails. Parsing and marshalling are go-pfcp's: they
  are parameters of the model (`Codec`), with what the code relies on as named laws.
-/
import Free5gc.Upf.Forwarder.Plan

namespace Free5gc.Upf

/-- The causes the UPF answers with. -/
inductive Cause where
  | requestAccepted
  | mandatoryIEMissing
  | conditionalIEMissing
  | noEstablishedPFCPAssociation
  | sessionContextNotFound
  | ruleCreationModificationFailure
  | systemFailure
  deriving DecidableEq, Repr

structure AssociationSetupRequest where
  seq : UInt32
  nodeID : Option (Option String)
  /-- Present or not, and whether it decodes. -/
  recoveryTimeStamp : Option Bool
  deriving DecidableEq, Repr

structure SessionEstablishmentRequest where
  seq : UInt32
  nodeID : Option (Option String)
  cpFSEID : Option (Option Nat)
  createFAR : List GroupedIE
  createQER : List GroupedIE
  createURR : List CreateURRIE
  createBAR : Option GroupedIE
  createPDR : List GroupedIE
  deriving DecidableEq, Repr

/-- A remove or query element is kept as what its id accessor returns. -/
structure SessionModificationRequest where
  seq : UInt32
  seid : Nat
  nodeID : Option (Option String)
  createFAR : List GroupedIE
  createQER : List GroupedIE
  createURR : List CreateURRIE
  createBAR : Option GroupedIE
  createPDR : List GroupedIE
  updateFAR : List GroupedIE
  updateQER : List GroupedIE
  updateURR : List GroupedIE
  updateBAR : Option GroupedIE
  updatePDR : List GroupedIE
  queryURR : List (Option UInt32)
  removeFAR : List (Option UInt32)
  removeQER : List (Option UInt32)
  removeURR : List (Option UInt32)
  removeBAR : Option (Option UInt8)
  removePDR : List (Option UInt16)
  deriving DecidableEq, Repr

/-- A modification request for session `seid` that asks for nothing. -/
def SessionModificationRequest.empty (seq : UInt32) (seid : Nat) :
    SessionModificationRequest :=
  { seq, seid, nodeID := none, createFAR := [], createQER := [], createURR := [],
    createBAR := none, createPDR := [], updateFAR := [], updateQER := [], updateURR := [],
    updateBAR := none, updatePDR := [], queryURR := [], removeFAR := [], removeQER := [],
    removeURR := [], removeBAR := none, removePDR := [] }

/-- What a Session Report Request carries: a downlink data report for a PDR, or usage
    reports. -/
inductive ReportContent where
  | downlinkData (pdrid : UInt16)
  | usage (reports : List UsageReport)
  deriving DecidableEq, Repr

structure SessionReportRequest where
  seq : UInt32
  seid : Nat
  content : ReportContent
  deriving DecidableEq, Repr

/-- `fseid` and `nodeID` are set in an accepting response only. -/
structure SessionEstablishmentResponse where
  seq : UInt32
  seid : Nat
  cause : Cause
  nodeID : Option String
  fseid : Option (Nat × Option String)
  createdPDR : List (UInt16 × String)
  deriving DecidableEq, Repr

structure SessionModificationResponse where
  seq : UInt32
  seid : Nat
  cause : Cause
  usageReport : List UsageReport
  deriving DecidableEq, Repr

/-- `reportType` tells whether the response has a Report Type element. -/
structure SessionDeletionResponse where
  seq : UInt32
  seid : Nat
  cause : Cause
  reportType : Bool
  usageReport : List UsageReport
  deriving DecidableEq, Repr

inductive Message where
  | heartbeatRequest (seq : UInt32)
  | pfdManagementRequest (seq : UInt32)
  | associationSetupRequest (r : AssociationSetupRequest)
  | associationUpdateRequest (seq : UInt32)
  | associationReleaseRequest (seq : UInt32)
  | nodeReportRequest (seq : UInt32)
  | sessionSetDeletionRequest (seq : UInt32)
  | sessionEstablishmentRequest (r : SessionEstablishmentRequest)
  | sessionModificationRequest (r : SessionModificationRequest)
  | sessionDeletionRequest (seq : UInt32) (seid : Nat)
  | sessionReportRequest (r : SessionReportRequest)
  | heartbeatResponse (seq : UInt32) (recoveryTime : Int)
  | pfdManagementResponse (seq : UInt32)
  | associationSetupResponse (seq : UInt32) (nodeID : String) (cause : Cause)
      (recoveryTime : Int)
  | associationUpdateResponse (seq : UInt32)
  | associationReleaseResponse (seq : UInt32)
  | nodeReportResponse (seq : UInt32)
  | sessionSetDeletionResponse (seq : UInt32)
  | sessionEstablishmentResponse (r : SessionEstablishmentResponse)
  | sessionModificationResponse (r : SessionModificationResponse)
  | sessionDeletionResponse (r : SessionDeletionResponse)
  | sessionReportResponse (seq : UInt32) (seid : Nat)
  /-- A message of a type that is neither a request nor a response to the UPF. -/
  | other (seq : UInt32)
  deriving DecidableEq, Repr

namespace Message

/-- `Sequence`. -/
def sequence : Message → UInt32
  | heartbeatRequest seq => seq
  | pfdManagementRequest seq => seq
  | associationSetupRequest r => r.seq
  | associationUpdateRequest seq => seq
  | associationReleaseRequest seq => seq
  | nodeReportRequest seq => seq
  | sessionSetDeletionRequest seq => seq
  | sessionEstablishmentRequest r => r.seq
  | sessionModificationRequest r => r.seq
  | sessionDeletionRequest seq _ => seq
  | sessionReportRequest r => r.seq
  | heartbeatResponse seq _ => seq
  | pfdManagementResponse seq => seq
  | associationSetupResponse seq _ _ _ => seq
  | associationUpdateResponse seq => seq
  | associationReleaseResponse seq => seq
  | nodeReportResponse seq => seq
  | sessionSetDeletionResponse seq => seq
  | sessionEstablishmentResponse r => r.seq
  | sessionModificationResponse r => r.seq
  | sessionDeletionResponse r => r.seq
  | sessionReportResponse seq _ => seq
  | other seq => seq

/-- `SEID`: the header's SEID, 0 where the header has none. A Session Establishment Request
    is sent with SEID 0. -/
def seid : Message → Nat
  | sessionModificationRequest r => r.seid
  | sessionDeletionRequest _ seid => seid
  | sessionReportRequest r => r.seid
  | sessionEstablishmentResponse r => r.seid
  | sessionModificationResponse r => r.seid
  | sessionDeletionResponse r => r.seid
  | sessionReportResponse _ seid => seid
  | _ => 0

def isRequest : Message → Bool
  | heartbeatRequest _ => true
  | pfdManagementRequest _ => true
  | associationSetupRequest _ => true
  | associationUpdateRequest _ => true
  | associationReleaseRequest _ => true
  | nodeReportRequest _ => true
  | sessionSetDeletionRequest _ => true
  | sessionEstablishmentRequest _ => true
  | sessionModificationRequest _ => true
  | sessionDeletionRequest _ _ => true
  | sessionReportRequest _ => true
  | _ => false

def isResponse : Message → Bool
  | heartbeatResponse _ _ => true
  | pfdManagementResponse _ => true
  | associationSetupResponse _ _ _ _ => true
  | associationUpdateResponse _ => true
  | associationReleaseResponse _ => true
  | nodeReportResponse _ => true
  | sessionSetDeletionResponse _ => true
  | sessionEstablishmentResponse _ => true
  | sessionModificationResponse _ => true
  | sessionDeletionResponse _ => true
  | sessionReportResponse _ _ => true
  | _ => false

/-- `setReqSeq`: only requests are numbered. -/
def setReqSeq (seq : UInt32) : Message → Message
  | heartbeatRequest _ => heartbeatRequest seq
  | pfdManagementRequest _ => pfdManagementRequest seq
  | associationSetupRequest r => associationSetupRequest { r with seq }
  | associationUpdateRequest _ => associationUpdateRequest seq
  | associationReleaseRequest _ => associationReleaseRequest seq
  | nodeReportRequest _ => nodeReportRequest seq
  | sessionSetDeletionRequest _ => sessionSetDeletionRequest seq
  | sessionEstablishmentRequest r => sessionEstablishmentRequest { r with seq }
  | sessionModificationRequest r => sessionModificationRequest { r with seq }
  | sessionDeletionRequest _ seid => sessionDeletionRequest seq seid
  | sessionReportRequest r => sessionReportRequest { r with seq }
  | m => m

theorem sequence_setReqSeq (seq : UInt32) (m : Message) (h : m.isRequest = true) :
    (m.setReqSeq seq).sequence = seq := by
  unfold isRequest at h
  split at h
  all_goals first
    | rfl
    | exact absurd h (by decide)

end Message

/-! ## The wire -/

/-- go-pfcp's `Parse` and `MarshalTo`; `none` is an error. -/
structure Codec where
  parse : List UInt8 → Option Message
  marshal : Message → Option (List UInt8)

/-- Every message has a header, so no message marshals to nothing. -/
def Codec.HasHeader (c : Codec) : Prop := ∀ m b, c.marshal m = some b → b ≠ []

/-- The header's sequence number is 24 bits wide: what is read from a marshalled message is
    the number modulo 2 ^ 24. -/
def Codec.Seq24 (c : Codec) : Prop :=
  ∀ m b m', c.marshal m = some b → c.parse b = some m' →
    m'.sequence.toNat = m.sequence.toNat % 2 ^ 24

/-- `validatePfcpPacketLength`: the length declared in octets 2 and 3 is the length
    received. -/
def validatePfcpPacketLength (buf : List UInt8) : Bool :=
  if buf.length < 8 then false
  else
    let declaredLen := (buf.getD 2 0).toNat * 256 + (buf.getD 3 0).toNat
    buf.length == declaredLen + 4

/-! ### A codec of headers

A codec to run the main loop with, in which a message is its type and number. -/

/-- The header of a message without further elements: its type and number. -/
def pfcpHeader (ty : UInt8) (seq : UInt32) : List UInt8 :=
  [0x20, ty, 0, 4, UInt8.ofNat (seq.toNat / 65536), UInt8.ofNat (seq.toNat / 256),
    UInt8.ofNat seq.toNat, 0]

/-- A message is written as the header of its type, and read by `body`. -/
def Codec.ofHeaders (ty : Message → UInt8) (body : UInt8 → UInt32 → Option Message) : Codec where
  parse
    | [_, t, _, _, a, b, c, _] =>
      body t (UInt32.ofNat (a.toNat * 65536 + b.toNat * 256 + c.toNat))
    | _ => none
  marshal m := some (pfcpHeader (ty m) m.sequence)

theorem validatePfcpPacketLength_pfcpHeader (ty : UInt8) (seq : UInt32) :
    validatePfcpPacketLength (pfcpHeader ty seq) = true := by
  simp [validatePfcpPacketLength, pfcpHeader]

namespace Codec

variable (ty : Message → UInt8) (body : UInt8 → UInt32 → Option Message)

theorem parse_pfcpHeader (t : UInt8) (seq : UInt32) :
    (ofHeaders ty body).parse (pfcpHeader t seq) =
      body t (UInt32.ofNat (seq.toNat % 2 ^ 24)) := by
  have hnum : (UInt8.ofNat (seq.toNat / 65536)).toNat * 65536 +
      (UInt8.ofNat (seq.toNat / 256)).toNat * 256 + (UInt8.ofNat seq.toNat).toNat =
        seq.toNat % 2 ^ 24 := by
    rw [UInt8.toNat_ofNat', UInt8.toNat_ofNat', UInt8.toNat_ofNat']
    omega
  show body t (UInt32.ofNat _) = _
  rw [hnum]

theorem hasHeader_ofHeaders : (ofHeaders ty body).HasHeader := by
  intro m b hb
  cases hb
  exact List.cons_ne_nil _ _

theorem seq24_ofHeaders (hbody : ∀ t seq m, body t seq = some m → m.sequence = seq) :
    (ofHeaders ty body).Seq24 := by
  intro m b m' hb hparse
  cases hb
  rw [parse_pfcpHeader] at hparse
  rw [hbody _ _ _ hparse, UInt32.toNat_ofNat']
  omega

end Codec

end Free5gc.Upf
