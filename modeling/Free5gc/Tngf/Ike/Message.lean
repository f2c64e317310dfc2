/-
  TNGF: IKEv2 messages (`pkg/ike/message`): what `Encode` writes and how `Decode` reads it.

  Lengths and offsets are computed in the types of the fields they come from: `8 + spiSize` of a
  proposal and `4 + spiSize` of a notification in 8 bits, `4 + length` of a configuration
  attribute in 16.
-/
import Free5gc.Tngf.Eap

namespace Free5gc.Tngf.Ike

open Free5gc.Lib

/-! ## Messages -/

structure Transform where
  transformType : UInt8
  transformID : UInt16
  attributePresent : Bool := false
  attributeFormat : UInt8 := 0
  attributeType : UInt16 := 0
  attributeValue : UInt16 := 0
  variableLengthAttributeValue : List UInt8 := []
  deriving DecidableEq, Repr

structure Proposal where
  proposalNumber : UInt8
  protocolID : UInt8
  spi : List UInt8
  encryptionAlgorithm : List Transform := []
  pseudorandomFunction : List Transform := []
  integrityAlgorithm : List Transform := []
  diffieHellmanGroup : List Transform := []
  extendedSequenceNumbers : List Transform := []
  deriving DecidableEq, Repr

structure IndividualTrafficSelector where
  tsType : UInt8
  ipProtocolID : UInt8
  startPort : UInt16
  endPort : UInt16
  startAddress : List UInt8
  endAddress : List UInt8
  deriving DecidableEq, Repr

structure IndividualConfigurationAttribute where
  type : UInt16
  value : List UInt8
  deriving DecidableEq, Repr

inductive IKEPayload where
  | securityAssociation (proposals : List Proposal)
  | keyExchange (diffieHellmanGroup : UInt16) (keyExchangeData : List UInt8)
  | identificationInitiator (idType : UInt8) (idData : List UInt8)
  | identificationResponder (idType : UInt8) (idData : List UInt8)
  | certificate (certificateEncoding : UInt8) (certificateData : List UInt8)
  | certificateRequest (certificateEncoding : UInt8) (certificationAuthority : List UInt8)
  | authentication (authenticationMethod : UInt8) (authenticationData : List UInt8)
  | nonce (nonceData : List UInt8)
  | notification (protocolID : UInt8) (notifyMessageType : UInt16) (spi : List UInt8)
    (notificationData : List UInt8)
  | delete (protocolID spiSize : UInt8) (numberOfSPI : UInt16) (spis : List UInt8)
  | vendorID (vendorIDData : List UInt8)
  | trafficSelectorInitiator (trafficSelectors : List IndividualTrafficSelector)
  | trafficSelectorResponder (trafficSelectors : List IndividualTrafficSelector)
  | encrypted (nextPayload : UInt8) (encryptedData : List UInt8)
  | configuration (configurationType : UInt8)
    (configurationAttribute : List IndividualConfigurationAttribute)
  | eap (packet : EAP)
  deriving DecidableEq, Repr

structure IKEMessage where
  initiatorSPI : UInt64
  responderSPI : UInt64
  version : UInt8
  exchangeType : UInt8
  flags : UInt8
  messageID : UInt32
  payloads : List IKEPayload
  deriving DecidableEq, Repr

def IKEPayload.type : IKEPayload → UInt8
  | .securityAssociation _ => 33
  | .keyExchange _ _ => 34
  | .identificationInitiator _ _ => 35
  | .identificationResponder _ _ => 36
  | .certificate _ _ => 37
  | .certificateRequest _ _ => 38
  | .authentication _ _ => 39
  | .nonce _ => 40
  | .notification _ _ _ _ => 41
  | .delete _ _ _ _ => 42
  | .vendorID _ => 43
  | .trafficSelectorInitiator _ => 44
  | .trafficSelectorResponder _ => 45
  | .encrypted _ _ => 46
  | .configuration _ _ => 47
  | .eap _ => 48

/-! ## Encoding -/

/-- The attribute of a transform: TLV for format 0, else TV. -/
def Transform.attributeData (t : Transform) : Except Fault (List UInt8) :=
  let attributeFormatAndType := (t.attributeFormat.toUInt16 &&& 1) <<< 15 ||| t.attributeType
  let value := t.variableLengthAttributeValue
  if t.attributePresent = false then .ok []
  else if t.attributeFormat ≠ 0 then
    .ok (beBytes 2 attributeFormatAndType.toNat ++ beBytes 2 t.attributeValue.toNat)
  else if value = [] then .error (.error "attribute of one transform not specified")
  else .ok (beBytes 2 attributeFormatAndType.toNat ++ (beBytes 2 value.length ++ value))

def marshalTransforms : List Transform → Except Fault (List UInt8)
  | [] => .ok []
  | t :: rest => do
    let attr ← t.attributeData
    let more ← marshalTransforms rest
    .ok ((if rest = [] then 0 else 3) :: 0 :: (beBytes 2 (8 + attr.length) ++
      (t.transformType :: 0 :: (beBytes 2 t.transformID.toNat ++ (attr ++ more)))))

/-- All transforms, in the order in which they are written. -/
def Proposal.transformList (p : Proposal) : List Transform :=
  p.encryptionAlgorithm ++ p.pseudorandomFunction ++ p.integrityAlgorithm ++
    p.diffieHellmanGroup ++ p.extendedSequenceNumbers

def marshalProposals : List Proposal → Except Fault (List UInt8)
  | [] => .ok []
  | p :: rest => do
    failIf (p.transformList = []) "one proposal has no any transform"
    let data ← marshalTransforms p.transformList
    let more ← marshalProposals rest
    .ok ((if rest = [] then 0 else 2) :: 0 :: (beBytes 2 (8 + p.spi.length + data.length) ++
      (p.proposalNumber :: p.protocolID :: UInt8.ofNat p.spi.length ::
        UInt8.ofNat p.transformList.length :: (p.spi ++ (data ++ more)))))

/-- `[]byte{tag, 0, …, 0}` with data behind it. -/
def marshalTagged (pad : Nat) (tag : UInt8) (data : List UInt8) : List UInt8 :=
  tag :: (List.replicate pad 0 ++ data)

/-- The length of an address of a selector type, and the words for it. -/
def addressFamily (tsType : UInt8) : Option (Nat × String × String) :=
  if tsType = 7 then some (4, "IPv4", "IPV4")
  else if tsType = 8 then some (16, "IPv6", "IPV6")
  else none

def IndividualTrafficSelector.marshal (s : IndividualTrafficSelector) :
    Except Fault (List UInt8) :=
  match addressFamily s.tsType with
  | none => .error (.error "TrafficSelector: Unsupported traffic selector type")
  | some (size, family, _) =>
    if s.startAddress.length ≠ size then
      .error (.error s!"TrafficSelector: Start {family} address length is not correct")
    else if s.endAddress.length ≠ size then
      .error (.error s!"TrafficSelector: End {family} address length is not correct")
    else .ok (s.tsType :: s.ipProtocolID :: (beBytes 2 (8 + 2 * size) ++
      (beBytes 2 s.startPort.toNat ++ (beBytes 2 s.endPort.toNat ++
        (s.startAddress ++ s.endAddress)))))

def marshalSelectors : List IndividualTrafficSelector → Except Fault (List UInt8)
  | [] => .ok []
  | s :: rest => do
    let data ← s.marshal
    let more ← marshalSelectors rest
    .ok (data ++ more)

def marshalTrafficSelector (selectors : List IndividualTrafficSelector) :
    Except Fault (List UInt8) :=
  if selectors = [] then
    .error (.error "TrafficSelector: Contains no traffic selector for marshaling message")
  else do
    let data ← marshalSelectors selectors
    .ok (marshalTagged 3 (UInt8.ofNat selectors.length) data)

def marshalAttributes : List IndividualConfigurationAttribute → List UInt8
  | [] => []
  | attr :: rest => beBytes 2 (attr.type &&& 0x7fff).toNat ++
    (beBytes 2 attr.value.length ++ (attr.value ++ marshalAttributes rest))

def IKEPayload.marshal : IKEPayload → Except Fault (List UInt8)
  | .securityAssociation proposals => marshalProposals proposals
  | .keyExchange group data => .ok (beBytes 2 group.toNat ++ (0 :: 0 :: data))
  | .identificationInitiator idType data => .ok (marshalTagged 3 idType data)
  | .identificationResponder idType data => .ok (marshalTagged 3 idType data)
  | .certificate encoding data => .ok (marshalTagged 0 encoding data)
  | .certificateRequest encoding authority => .ok (marshalTagged 0 encoding authority)
  | .authentication method data => .ok (marshalTagged 3 method data)
  | .nonce data => .ok data
  | .notification protocolID messageType spi data =>
    .ok (protocolID :: UInt8.ofNat spi.length :: (beBytes 2 messageType.toNat ++ (spi ++ data)))
  | .delete protocolID spiSize numberOfSPI spis =>
    if spis.length ≠ spiSize.toNat * numberOfSPI.toNat then
      .error (.error "total bytes of all SPIs not correct")
    else .ok (protocolID :: spiSize :: (beBytes 2 numberOfSPI.toNat ++ spis))
  | .vendorID data => .ok data
  | .trafficSelectorInitiator selectors => marshalTrafficSelector selectors
  | .trafficSelectorResponder selectors => marshalTrafficSelector selectors
  | .encrypted _ data => .ok data
  | .configuration configurationType attributes =>
    .ok (marshalTagged 3 configurationType (marshalAttributes attributes))
  | .eap packet => packet.marshal

/-- The next-payload byte of a payload: the type of its successor, for the last payload 0 or what
    an encrypted payload says is inside it. -/
def nextType (payload : IKEPayload) : List IKEPayload → UInt8
  | next :: _ => next.type
  | [] =>
    match payload with
    | .encrypted nextPayload _ => nextPayload
    | _ => 0

/-- `IKEPayloadContainer.Encode`. -/
def encodePayloads : List IKEPayload → Except Fault (List UInt8)
  | [] => .ok []
  | payload :: rest => do
    let data ← wrapError "EncodePayload(): Failed to marshal payload: " payload.marshal
    let more ← encodePayloads rest
    .ok (nextType payload rest :: 0 :: (beBytes 2 (4 + data.length) ++ (data ++ more)))

/-- The type in the header of the message. -/
def firstType : List IKEPayload → UInt8
  | [] => 0
  | payload :: _ => payload.type

/-- `IKEMessage.Encode`. -/
def IKEMessage.encode (m : IKEMessage) : Except Fault (List UInt8) := do
  let data ← wrapError "Encode(): EncodePayload failed: " (encodePayloads m.payloads)
  .ok (beBytes 8 m.initiatorSPI.toNat ++ (beBytes 8 m.responderSPI.toNat ++
    (firstType m.payloads :: m.version :: m.exchangeType :: m.flags ::
      (beBytes 4 m.messageID.toNat ++ (beBytes 4 (28 + data.length) ++ data)))))

/-! ## Decoding -/

/-- The checks at the start of a payload, a proposal and a transform: the length in the third and
    fourth byte, which is at least that of the header and at most that of the data. -/
def chunkLength (header : Nat) (short : String) (illegal : Nat → String) (mismatch : String)
    (raw : List UInt8) : Except Fault Nat := do
  failIf (raw.length < header) short
  let length ← readU16 raw 2
  failIf (length < header) (illegal length)
  failIf (raw.length < length) mismatch
  .ok length

/-- The attribute that stands in a transform of more than 8 bytes. The value of a TLV is copied
    into an empty slice, so nothing of it is kept. -/
def Transform.readAttribute (t : Transform) (transformLength : Nat) (data : List UInt8) :
    Except Fault Transform := do
  failIf (transformLength < 12)
    s!"Transform: insufficient bytes for attribute fields, transformLength={transformLength}"
  let first ← index data 8
  let attributeType ← readU16 data 8
  let attributeLength ← readU16 data 10
  let t := { t with
    attributePresent := true
    attributeFormat := (first &&& 0x80) >>> 7
    attributeType := UInt16.ofNat attributeType &&& 0x7f }
  if t.attributeFormat = 0 then do
    failIf ((12 + attributeLength) % 2 ^ 16 ≠ transformLength)
      s!"illegal attribute length {attributeLength} not satisfies the transform length {transformLength}"
    let _ ← cut data 12 ((12 + attributeLength) % 2 ^ 16)
    .ok t
  else .ok { t with attributeValue := UInt16.ofNat attributeLength }

/-- The transform goes to the list of its type, if there is one. -/
def Proposal.add (p : Proposal) (t : Transform) : Proposal :=
  if t.transformType = 1 then { p with encryptionAlgorithm := p.encryptionAlgorithm ++ [t] }
  else if t.transformType = 2 then
    { p with pseudorandomFunction := p.pseudorandomFunction ++ [t] }
  else if t.transformType = 3 then { p with integrityAlgorithm := p.integrityAlgorithm ++ [t] }
  else if t.transformType = 4 then { p with diffieHellmanGroup := p.diffieHellmanGroup ++ [t] }
  else if t.transformType = 5 then
    { p with extendedSequenceNumbers := p.extendedSequenceNumbers ++ [t] }
  else p

def unmarshalTransform (p : Proposal) (data : List UInt8) :
    Except Fault (Proposal × List UInt8) := do
  let transformLength ← chunkLength 8 "Transform: No sufficient bytes to decode next transform"
    (fun _ => "Transform: Illegal payload length %d < header length 8")
    "Transform: The length of received message not matchs the length specified in header" data
  let transformType ← index data 4
  let transformID ← readU16 data 6
  let t : Transform := { transformType, transformID := UInt16.ofNat transformID }
  let t ← (if 8 < transformLength then t.readAttribute transformLength data else .ok t)
  let rest ← cut data transformLength data.length
  .ok (p.add t, rest)

/-- The SPI of a proposal, which ends at `8 + spiSize` in 8 bits. -/
def unmarshalSPI (raw : List UInt8) (spiSize : UInt8) : Except Fault (List UInt8) :=
  if 0 < spiSize then do
    failIf (raw.length < (8 + spiSize).toNat)
      "Proposal: No sufficient bytes for unmarshalling SPI of proposal"
    cut raw 8 (8 + spiSize).toNat
  else .ok []

def unmarshalProposal (proposals : List Proposal) (raw : List UInt8) :
    Except Fault (List Proposal × List UInt8) := do
  let proposalLength ← chunkLength 8 "Proposal: No sufficient bytes to decode next proposal"
    (fun _ => "Proposal: Illegal payload length %d < header length 8")
    "Proposal: The length of received message not matchs the length specified in header" raw
  let proposalNumber ← index raw 4
  let protocolID ← index raw 5
  let spiSize ← index raw 6
  let spi ← unmarshalSPI raw spiSize
  let transformData ← cut raw (8 + spiSize).toNat proposalLength
  let proposal ← loop 1 unmarshalTransform transformData.length
    { proposalNumber, protocolID, spi } transformData
  let rest ← cut raw proposalLength raw.length
  .ok (proposals ++ [proposal], rest)

/-- `SecurityAssociation.unmarshal`. -/
def unmarshalProposals (raw : List UInt8) : Except Fault (List Proposal) :=
  loop 1 unmarshalProposal raw.length [] raw

/-- What `marshalTagged` writes; without data the fields stay as they are made. -/
def unmarshalTagged (pad : Nat) (text : String) (raw : List UInt8) :
    Except Fault (UInt8 × List UInt8) :=
  if raw = [] then .ok (0, [])
  else do
    failIf (raw.length ≤ 1 + pad) text
    let tag ← index raw 0
    let data ← cut raw (1 + pad) raw.length
    .ok (tag, data)

def unmarshalKeyExchange (raw : List UInt8) : Except Fault IKEPayload :=
  if raw = [] then .ok (.keyExchange 0 [])
  else do
    failIf (raw.length ≤ 4) "KeyExchange: No sufficient bytes to decode next key exchange data"
    let group ← readU16 raw 0
    let data ← cut raw 4 raw.length
    .ok (.keyExchange (UInt16.ofNat group) data)

def unmarshalNotification (raw : List UInt8) : Except Fault IKEPayload :=
  if raw = [] then .ok (.notification 0 0 [] [])
  else do
    failIf (raw.length < 4) "notification: No sufficient bytes to decode next notification"
    let spiSize ← index raw 1
    failIf (raw.length < (4 + spiSize).toNat)
      "notification: No sufficient bytes to get SPI according to the length specified in header"
    let protocolID ← index raw 0
    let messageType ← readU16 raw 2
    let spi ← cut raw 4 (4 + spiSize).toNat
    let data ← cut raw (4 + spiSize).toNat raw.length
    .ok (.notification protocolID (UInt16.ofNat messageType) spi data)

def unmarshalDelete (raw : List UInt8) : Except Fault IKEPayload :=
  if raw = [] then .ok (.delete 0 0 0 [])
  else do
    failIf (raw.length ≤ 4) "Delete: No sufficient bytes to decode next delete"
    let spiSize ← index raw 1
    let numberOfSPI ← readU16 raw 2
    failIf (raw.length < 4 + spiSize.toNat * numberOfSPI)
      "Delete: No Sufficient bytes to get SPIs according to the length specified in header"
    let protocolID ← index raw 0
    let spis ← cut raw 4 raw.length
    .ok (.delete protocolID spiSize (UInt16.ofNat numberOfSPI) spis)

/-- The loop over the number of selectors that the header says. -/
def unmarshalSelectors : Nat → List UInt8 → Except Fault (List IndividualTrafficSelector)
  | 0, _ => .ok []
  | n + 1, raw => do
    failIf (raw.length < 4)
      "TrafficSelector: No sufficient bytes to decode next individual traffic selector length in header"
    let tsType ← index raw 0
    match addressFamily tsType with
    | none => .error (.error "TrafficSelector: Unsupported traffic selector type")
    | some (size, _, family) => do
      let selectorLength ← readU16 raw 2
      let whole := 8 + 2 * size
      failIf (selectorLength ≠ whole)
        s!"TrafficSelector: A TS_{family}_ADDR_RANGE type traffic selector should has length {whole} bytes"
      failIf (raw.length < selectorLength)
        "TrafficSelector: No sufficient bytes to decode next individual traffic selector"
      let ipProtocolID ← index raw 1
      let startPort ← readU16 raw 4
      let endPort ← readU16 raw 6
      let startAddress ← cut raw 8 (8 + size)
      let endAddress ← cut raw (8 + size) whole
      let rest ← cut raw whole raw.length
      let more ← unmarshalSelectors n rest
      .ok (⟨tsType, ipProtocolID, UInt16.ofNat startPort, UInt16.ofNat endPort, startAddress,
        endAddress⟩ :: more)

def unmarshalTrafficSelector (raw : List UInt8) :
    Except Fault (List IndividualTrafficSelector) :=
  if raw = [] then .ok []
  else do
    failIf (raw.length < 4)
      "TrafficSelector: No sufficient bytes to get number of traffic selector in header"
    let numberOfSPI ← index raw 0
    let rest ← cut raw 4 raw.length
    unmarshalSelectors numberOfSPI.toNat rest

def unmarshalAttribute (attributes : List IndividualConfigurationAttribute) (data : List UInt8) :
    Except Fault (List IndividualConfigurationAttribute × List UInt8) := do
  failIf (data.length < 4)
    "ConfigurationAttribute: No sufficient bytes to decode next configuration attribute"
  let length ← readU16 data 2
  failIf (data.length < (4 + length) % 2 ^ 16) "ConfigurationAttribute: TLV attribute length error"
  let type ← readU16 data 0
  let data ← cut data 4 data.length
  let value ← cut data 0 length
  let rest ← cut data length data.length
  .ok (attributes ++ [⟨UInt16.ofNat type, value⟩], rest)

def unmarshalConfiguration (raw : List UInt8) : Except Fault IKEPayload :=
  if raw = [] then .ok (.configuration 0 [])
  else do
    failIf (raw.length ≤ 4) "Configuration: No sufficient bytes to decode next configuration"
    let configurationType ← index raw 0
    let data ← cut raw 4 raw.length
    let attributes ← loop 1 unmarshalAttribute data.length [] data
    .ok (.configuration configurationType attributes)

/-- The switch on the type, with the `unmarshal` of the payload it stands for; `none` for a type
    that is not known. `next` is the first byte of the payload's header. -/
def unmarshalPayload (type next : UInt8) (raw : List UInt8) : Option (Except Fault IKEPayload) :=
  let identification := "identification: No sufficient bytes to decode next identification"
  match type.toNat with
  | 33 => some (.securityAssociation <$> unmarshalProposals raw)
  | 34 => some (unmarshalKeyExchange raw)
  | 35 => some ((fun x => .identificationInitiator x.1 x.2) <$>
      unmarshalTagged 3 identification raw)
  | 36 => some ((fun x => .identificationResponder x.1 x.2) <$>
      unmarshalTagged 3 identification raw)
  | 37 => some ((fun x => .certificate x.1 x.2) <$>
      unmarshalTagged 0 "Certificate: No sufficient bytes to decode next certificate" raw)
  | 38 => some ((fun x => .certificateRequest x.1 x.2) <$> unmarshalTagged 0
      "CertificateRequest: No sufficient bytes to decode next certificate request" raw)
  | 39 => some ((fun x => .authentication x.1 x.2) <$>
      unmarshalTagged 3 "Authentication: No sufficient bytes to decode next authentication" raw)
  | 40 => some (.ok (.nonce raw))
  | 41 => some (unmarshalNotification raw)
  | 42 => some (unmarshalDelete raw)
  | 43 => some (.ok (.vendorID raw))
  | 44 => some (.trafficSelectorInitiator <$> unmarshalTrafficSelector raw)
  | 45 => some (.trafficSelectorResponder <$> unmarshalTrafficSelector raw)
  | 46 => some (.ok (.encrypted next raw))
  | 47 => some (unmarshalConfiguration raw)
  | 48 => some (.eap <$> EAP.unmarshal raw)
  | _ => none

/-- The payload, or that it is skipped: one of unknown type whose critical bit is not set. -/
def takePayload (type next flags : UInt8) (raw : List UInt8) : Except Fault (List IKEPayload) :=
  match unmarshalPayload type next raw with
  | some payload => (fun x => [x]) <$> wrapError "DecodePayload(): Unmarshal payload failed: " payload
  | none =>
    if (flags &&& 0x80) >>> 7 = 0 then .ok []
    else .error (.error s!"unknown payload type: {type}")

/-- A turn of `IKEPayloadContainer.Decode`; the state is the type of the payload at hand and the
    payloads read. -/
def decodePayload (s : UInt8 × List IKEPayload) (raw : List UInt8) :
    Except Fault ((UInt8 × List IKEPayload) × List UInt8) := do
  let payloadLength ← chunkLength 4
    "decodePayload(): No sufficient bytes to decode next payload"
    (fun length => s!"DecodePayload(): Illegal payload length {length} < header length 4")
    "decodePayload(): The length of received message not matchs the length specified in header" raw
  let flags ← index raw 1
  let next ← index raw 0
  let body ← cut raw 4 payloadLength
  let payload ← takePayload s.1 next flags body
  let rest ← cut raw payloadLength raw.length
  .ok ((next, s.2 ++ payload), rest)

def decodePayloads (nextPayload : UInt8) (raw : List UInt8) :
    Except Fault (UInt8 × List IKEPayload) :=
  loop 1 decodePayload raw.length (nextPayload, []) raw

/-- `IKEMessage.Decode`, into a new message. -/
def IKEMessage.decode (raw : List UInt8) : Except Fault IKEMessage := do
  failIf (raw.length < 28) "decode(): Received broken IKE header"
  let ikeMessageLength ← readU32 raw 24
  failIf (ikeMessageLength < 28)
    s!"Decode(): Illegal IKE message length {ikeMessageLength} < header length 20"
  failIf (raw.length ≠ ikeMessageLength)
    "decode(): The length of received message not matchs the length specified in header"
  let nextPayload ← index raw 16
  let initiatorSPI ← cut raw 0 8
  let responderSPI ← cut raw 8 16
  let version ← index raw 17
  let exchangeType ← index raw 18
  let flags ← index raw 19
  let messageID ← readU32 raw 20
  let data ← cut raw 28 raw.length
  let payloads ← wrapError "Decode(): DecodePayload failed: " (decodePayloads nextPayload data)
  .ok ⟨UInt64.ofNat (beNat initiatorSPI), UInt64.ofNat (beNat responderSPI), version, exchangeType,
    flags, UInt32.ofNat messageID, payloads.2⟩

end Free5gc.Tngf.Ike
