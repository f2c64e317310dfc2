/-
  TNGF: what `HandleRadiusAccessRequest` does with a request (`pkg/radius/handler/handler.go`).

  The attributes are read in their order. An EAP-Message replaces the one before it
  (`eap5GNAS_crosses_iff`), and a Message-Authenticator is compared where it stands, with the
  packet rebuilt with its true length, in which it and those before it are zero: a request without
  one is never checked, and one whose length was altered passes (`unauthenticated_ignored_iff`).

  Random numbers, AMF selection, key derivation and the encryption of the MPPE key are inputs.
-/
import Free5gc.Lib.GoMap
import Free5gc.Tngf.Radius.Eap5g
import Free5gc.Tngf.Radius.Message

namespace Free5gc.Tngf.Radius

open Free5gc.Lib

/-! ## Attributes of a request -/

structure Request where
  userName : List UInt8 := []
  callingStationId : List UInt8 := []
  eapMessage : List UInt8 := []
  tnapId : Nat := 0
  requestMessageAuthenticator : Option (List UInt8) := none
  deriving DecidableEq, Repr

def hexValue (b : UInt8) : Option Nat :=
  if 48 ≤ b ∧ b ≤ 57 then some (b.toNat - 48)
  else if 97 ≤ b ∧ b ≤ 102 then some (b.toNat - 87)
  else if 65 ≤ b ∧ b ≤ 70 then some (b.toNat - 55)
  else none

/-- `strconv.ParseUint(s, 16, 64)`, without its error. -/
def parseHex64 (s : List UInt8) : Option Nat :=
  if s = [] then none
  else (s.foldlM (fun n b => (hexValue b).map (16 * n + ·)) 0).filter (· < 2 ^ 64)

/-- The first 17 bytes of a Called-Station-Id without `-`. -/
def stationDigits (val : List UInt8) : List UInt8 := (val.take 17).filter (· ≠ 45)

def getMessageAuthenticator (c : Digests) (m : RadiusMessage) : List UInt8 :=
  c.hmac c.radiusSecret m.packet

/-- The attribute with sixteen zeros if it is a Message-Authenticator. -/
def zeroAuthenticator (p : RadiusPayload) : RadiusPayload :=
  if p.type = 80 then { p with val := List.replicate 16 0 } else p

/-- The switch on the type of an attribute, for a packet with the attributes `payloads`. -/
def readAttribute (c : Digests) (m : RadiusMessage) (payloads : List RadiusPayload)
    (r : Request) (p : RadiusPayload) : Option Request :=
  if p.type = 1 then some { r with userName := p.val }
  else if p.type = 31 then some { r with callingStationId := p.val }
  else if p.type = 79 then some { r with eapMessage := p.val }
  else if p.type = 30 then
    if p.val.length < 17 then some r
    else (parseHex64 (stationDigits p.val)).map fun tnapId => { r with tnapId }
  else if p.type = 80 then
    if p.val = getMessageAuthenticator c { m with payloads } then
      some { r with requestMessageAuthenticator := some p.val }
    else none
  else some r

/-- The loop over the attributes: those behind it have been read, and their authenticators are
    zero. -/
def readAttributes (c : Digests) (m : RadiusMessage) (behind : List RadiusPayload) :
    List RadiusPayload → Request → Option Request
  | [], r => some r
  | p :: ahead, r =>
    (readAttribute c m (behind ++ zeroAuthenticator p :: ahead) r p).bind
      (readAttributes c m (behind ++ [zeroAuthenticator p]) ahead)

/-! ## Contexts -/

structure UDPAddr where
  ip : List UInt8
  port : Nat
  deriving DecidableEq, Repr

structure TNGFUe where
  amf : Nat
  ueAddr : UDPAddr
  radiusConnection : UDPAddr
  rrcEstablishmentCause : UInt8 := 0
  tnapID : Nat := 0
  userName : List UInt8 := []
  ueIdentity : Option MobileIdentity5GS := none
  ktngf : List UInt8 := []
  ktnap : List UInt8 := []
  deriving DecidableEq, Repr

inductive RadiusState where
  | eap5GStart
  | eap5GNAS
  | initialContextSetup
  deriving DecidableEq, Repr

structure RadiusSession where
  state : RadiusState := .eap5GStart
  thisUE : Option Nat := none
  auth : List UInt8 := []
  pktId : UInt8 := 0
  deriving DecidableEq, Repr

structure TNGFContext where
  radiusSessionPool : GoMap (List UInt8) RadiusSession
  ues : GoMap Nat TNGFUe

/-- What a run of the handler gets from elsewhere; `none` is an error. -/
structure Inputs (G P : Type) where
  aper : Aper G P
  random : Option UInt8
  salt : Option UInt16
  ranUeNgapId : Option Nat
  amfSelection : Option G → Option P → Option Nat
  ktnap : List UInt8 → Option (List UInt8)
  encryptMppeKey : List UInt8 → List UInt8 → UInt16 → List UInt8

inductive Sent where
  | reply (ueAddr : UDPAddr) (packet : List UInt8)
  | initialUEMessage (amf ue : Nat) (nasPDU : List UInt8)
  | uplinkNASTransport (amf ue : Nat) (nasPDU : List UInt8)
  deriving DecidableEq, Repr

/-! ## Replies -/

/-- The reply to a request; it has an authenticator if the request has one. -/
def reply (c : Digests) (ueAddr : UDPAddr) (m : RadiusMessage) (r : Request) (code : UInt8)
    (payloads : List RadiusPayload) : Sent :=
  let response : RadiusMessage := { code, pktID := m.pktID, auth := m.auth }
  let authenticator := getMessageAuthenticator c
    { response with payloads := payloads ++ [⟨80, 18, List.replicate 16 0⟩] }
  let payloads := if r.requestMessageAuthenticator = none then payloads
    else payloads ++ [⟨80, 18, authenticator⟩]
  .reply ueAddr (({ response with payloads } : RadiusMessage).encode c).2

def microsoftVendorSpecific (vendorType : UInt8) (data : List UInt8) : RadiusPayload :=
  ⟨26, 0, beBytes 4 311 ++ (vendorType :: UInt8.ofNat (2 + data.length) :: data)⟩

/-! ## The handler -/

section

variable {G P : Type} (c : Digests) (env : Inputs G P) (ueAddr : UDPAddr) (m : RadiusMessage)
  (r : Request)

def TNGFContext.putSession (w : TNGFContext) (session : RadiusSession) : TNGFContext :=
  { w with radiusSessionPool := w.radiusSessionPool.insert r.callingStationId session }

/-- An EAP failure, with a random identifier. -/
def replyFailure : List Sent :=
  match env.random with
  | none => []
  | some identifier => [reply c ueAddr m r 11 (appendEAP [] ⟨4, identifier, []⟩)]

def handleEAP5GStart (w : TNGFContext) (session : RadiusSession) : TNGFContext × List Sent :=
  match env.random with
  | none => (w, [])
  | some identifier =>
    (w.putSession r { session with state := .eap5GNAS },
      [reply c ueAddr m r 11 (appendEAP [] ⟨1, identifier, [.expanded 10415 3 [1, 0]]⟩)])

/-- The NAS PDU of a UE that the session does not know yet. -/
def handleNewUE (w : TNGFContext) (session : RadiusSession)
    (anParameters : Option (ANParameters G P)) (nasPDU : List UInt8) :
    Except Fault (TNGFContext × List Sent) :=
  match anParameters with
  | none => .error .outside
  | some an =>
    match env.amfSelection an.guami an.selectedPLMNID with
    | none => .ok (w, replyFailure c env ueAddr m r)
    | some amf =>
      match env.ranUeNgapId with
      | none => .error .outside
      | some id =>
        let ue : TNGFUe :=
          { amf, ueAddr, radiusConnection := ueAddr, tnapID := r.tnapId, userName := r.userName
            rrcEstablishmentCause := an.establishmentCause.getD 0, ueIdentity := an.ueIdentity }
        let w := w.putSession r
          { session with thisUE := some id, auth := m.auth, pktId := m.pktID }
        .ok ({ w with ues := w.ues.insert id ue }, [.initialUEMessage amf id nasPDU])

def handleKnownUE (w : TNGFContext) (session : RadiusSession) (id : Nat) (nasPDU : List UInt8) :
    Except Fault (TNGFContext × List Sent) :=
  match w.ues.lookup id with
  | none => .error .outside
  | some ue =>
    let w := w.putSession r { session with auth := m.auth, pktId := m.pktID }
    .ok ({ w with ues := w.ues.insert id { ue with radiusConnection := ueAddr } },
      [.uplinkNASTransport ue.amf id nasPDU])

/-- The data of an expanded method. `EAP5GType5GStop` never comes here: parsing fails on it. -/
def handleEAP5GData (w : TNGFContext) (session : RadiusSession) (vendorData : List UInt8) :
    Except Fault (TNGFContext × List Sent) :=
  match unmarshalEAP5GData env.aper vendorData with
  | .error (.error _) => .ok (w, [])
  | .error f => .error f
  | .ok (eap5GMessageID, anParameters, nasPDU) =>
    if eap5GMessageID = 4 then .ok (w, replyFailure c env ueAddr m r)
    else match session.thisUE with
      | none => handleNewUE c env ueAddr m r w session anParameters nasPDU
      | some id => handleKnownUE ueAddr m r w session id nasPDU

def handleEAP5GNAS (w : TNGFContext) (session : RadiusSession) :
    Except Fault (TNGFContext × List Sent) :=
  match EAP.unmarshal r.eapMessage with
  | .error (.error _) => .ok (w, [])
  | .error f => .error f
  | .ok eap =>
    if eap.code ≠ 2 then .ok (w, [])
    else match eap.eapTypeData with
      | [] => .ok (w, [reply c ueAddr m r 3 []])
      | .expanded vendorID vendorType vendorData :: _ =>
        if vendorID ≠ 10415 ∨ vendorType ≠ 3 then .ok (w, [])
        else handleEAP5GData c env ueAddr m r w session vendorData
      | _ => .ok (w, [])

def handleInitialContextSetup (w : TNGFContext) (session : RadiusSession) :
    Except Fault (TNGFContext × List Sent) :=
  match r.eapMessage with
  | _ :: identifier :: _ =>
    match session.thisUE.bind fun id => (w.ues.lookup id).map (id, ·) with
    | none => .error .outside
    | some (id, ue) =>
      let ktnap := (env.ktnap ue.ktngf).getD []
      let salt := env.salt.getD 0
      let data := beBytes 2 salt.toNat ++ env.encryptMppeKey ktnap m.auth salt
      let payloads := appendEAP [] ⟨3, identifier, []⟩ ++ [microsoftVendorSpecific 0x11 data,
        microsoftVendorSpecific 0x10 data, ⟨1, 0, ue.userName⟩]
      .ok ({ w with ues := w.ues.insert id { ue with ktnap } }, [reply c ueAddr m r 2 payloads])
  | _ => .ok (w, [reply c ueAddr m r 3 []])

/-- The session of the calling station and what follows in its state. -/
def handleRequest (w : TNGFContext) : Except Fault (TNGFContext × List Sent) :=
  let known := w.radiusSessionPool.lookup r.callingStationId
  let session := known.getD {}
  let w := if known = none then w.putSession r session else w
  match session.state with
  | .eap5GStart => .ok (handleEAP5GStart c env ueAddr m r w session)
  | .eap5GNAS => handleEAP5GNAS c env ueAddr m r w session
  | .initialContextSetup => handleInitialContextSetup c env ueAddr m r w session

end

/-- The contexts that the handler leaves and what it sends. -/
def handleRadiusAccessRequest {G P : Type} (c : Digests) (env : Inputs G P) (ueAddr : UDPAddr)
    (m : RadiusMessage) (w : TNGFContext) : Except Fault (TNGFContext × List Sent) :=
  match readAttributes c m [] m.payloads {} with
  | none => .ok (w, [])
  | some r => handleRequest c env ueAddr m r w

/-! ## Split EAP packets -/

variable {c : Digests} {m : RadiusMessage} {p : RadiusPayload} {behind ahead : List RadiusPayload}

theorem readAttribute_fields {payloads : List RadiusPayload} {r r' : Request}
    (h : readAttribute c m payloads r p = some r') :
    r'.eapMessage = (if p.type = 79 then p.val else r.eapMessage) ∧
      r'.callingStationId = if p.type = 31 then p.val else r.callingStationId := by
  unfold readAttribute at h
  split_ifs at h with h1 h31 h79 h30 hshort h80 hsame
  case neg => obtain ⟨_, -, rfl⟩ := Option.map_eq_some_iff.mp h; simp [h30]
  all_goals
    obtain rfl := Option.some.inj h
    simp [*]

/-- The value of the last attribute of a type, if there is one. -/
def lastValue (payloads : List RadiusPayload) (type : UInt8) (value : List UInt8) : List UInt8 :=
  ((payloads.filter (·.type = type)).map RadiusPayload.val).getLast?.getD value

/-- A field that each attribute of a type replaces ends as the value of the last one. -/
theorem readAttributes_last (field : Request → List UInt8) {type : UInt8}
    (hfield : ∀ payloads p r r', readAttribute c m payloads r p = some r' →
      field r' = if p.type = type then p.val else field r)
    {r r' : Request} (h : readAttributes c m behind ahead r = some r') :
    field r' = lastValue ahead type (field r) := by
  unfold lastValue
  induction ahead generalizing behind r with
  | nil => simp_all [readAttributes]
  | cons p ahead ih =>
    obtain ⟨r₁, hread, hrest⟩ := Option.bind_eq_some_iff.mp h
    rw [ih hrest, hfield _ _ _ _ hread]
    by_cases hp : p.type = type
    · simp [hp, List.getLast?_cons]
    · simp [hp]

theorem getLast_eq_flatten_iff (l : List (List UInt8)) :
    l.getLast?.getD [] = l.flatten ↔ ∀ x ∈ l.dropLast, x = [] := by
  rcases List.eq_nil_or_concat l with rfl | ⟨init, last, rfl⟩
  · simp
  · simp [List.flatten_eq_nil_iff, eq_comm]

/-- A NAS PDU crosses in the packet built for it exactly if it has 1 to 237 bytes, and a request
    is processed with the concatenation of its EAP-Messages exactly if all but the last are empty. -/
theorem eap5GNAS_crosses_iff (c : Digests) {m : RadiusMessage} (hauth : m.auth.length = 16)
    (identifier : UInt8) {nasPDU : List UInt8} (hlen : nasPDU.length ≤ 60000) :
    (Crosses c m identifier nasPDU ↔ 1 ≤ nasPDU.length ∧ nasPDU.length ≤ 237) ∧
      ∀ request r, readAttributes c request [] request.payloads {} = some r →
        (r.eapMessage = eapMessages request.payloads ↔
          ∀ p ∈ (request.payloads.filter (·.type = 79)).dropLast, p.val = []) := by
  refine ⟨crosses_iff_short c hauth identifier hlen, fun request r hread => ?_⟩
  rw [readAttributes_last Request.eapMessage (fun _ _ _ _ h => (readAttribute_fields h).1)
    hread, lastValue, eapMessages, List.flatMap_def, getLast_eq_flatten_iff,
    ← List.map_dropLast, List.forall_mem_map]

theorem eap5GNAS_crosses_sample : Crosses zeroDigests ⟨11, 1, 0, List.replicate 16 0, []⟩ 5
    [0x7e, 0, 0x56] :=
  (eap5GNAS_crosses_iff zeroDigests (by decide) 5 (by decide)).1.mpr (by decide)

/-- A NAS PDU of 240 bytes gets an attribute that says it has 2, and of two EAP-Messages only the
    second is processed. -/
theorem eap5GNAS_cut_apart :
    ¬Crosses zeroDigests ⟨11, 1, 0, List.replicate 16 0, []⟩ 5 (List.replicate 240 7) ∧
    (readAttributes zeroDigests ⟨1, 1, 0, [], [⟨79, 0, [2, 0]⟩, ⟨79, 0, [0, 4]⟩]⟩ []
      [⟨79, 0, [2, 0]⟩, ⟨79, 0, [0, 4]⟩] {}).map Request.eapMessage = some [0, 4] := by
  refine ⟨fun h => ?_, by decide⟩
  have hlen : (List.replicate 240 (7 : UInt8)).length = 240 := List.length_replicate
  have := ((crosses_iff_short zeroDigests (by decide) 5 (by omega)).mp h).2
  omega

/-! ## Requests without a right authenticator -/

/-- The packet that was received, with the length it came with. -/
def RadiusMessage.received (m : RadiusMessage) : List UInt8 :=
  m.code :: m.pktID :: (beBytes 2 m.length.toNat ++ (m.auth ++ encodePayloads m.payloads))

/-- The request has no Message-Authenticator, or one that is not the HMAC of the packet received, in
    which its own value is zero. -/
def Unauthenticated (c : Digests) (m : RadiusMessage) : Prop :=
  (∀ p ∈ m.payloads, p.type ≠ 80) ∨
    ∃ before p after, m.payloads = before ++ p :: after ∧ p.type = 80 ∧
      p.val ≠ c.hmac c.radiusSecret
        ({ m with payloads := before ++ zeroAuthenticator p :: after } : RadiusMessage).received

/-- A Called-Station-Id that is long enough and has no hexadecimal number of 64 bits. -/
def BadStation (p : RadiusPayload) : Prop :=
  p.type = 30 ∧ 17 ≤ p.val.length ∧ parseHex64 (stationDigits p.val) = none

/-- A Message-Authenticator ahead is not the HMAC of the rebuilt packet, or a Called-Station-Id is no
    number. -/
def Rejected (c : Digests) (m : RadiusMessage) (behind ahead : List RadiusPayload) : Prop :=
  (∃ before p after, ahead = before ++ p :: after ∧ p.type = 80 ∧
    p.val ≠ getMessageAuthenticator c { m with
      payloads := behind ++ (before.map zeroAuthenticator ++ zeroAuthenticator p :: after) }) ∨
    ∃ p ∈ ahead, BadStation p

/-- The request has one Message-Authenticator, and says its true length. -/
def Plain (m : RadiusMessage) : Prop :=
  (m.payloads.filter (·.type = 80)).length = 1 ∧ m.length.toNat = m.packet.length

theorem readAttribute_eq_none_iff {payloads : List RadiusPayload} {r : Request} :
    readAttribute c m payloads r p = none ↔
      p.type = 80 ∧ p.val ≠ getMessageAuthenticator c { m with payloads } ∨ BadStation p := by
  unfold readAttribute BadStation
  split_ifs with h1 h31 h79 h30 hshort h80 hsame
  all_goals simp_all

theorem rejected_cons : Rejected c m behind (p :: ahead) ↔
    (p.type = 80 ∧ p.val ≠ getMessageAuthenticator c { m with
      payloads := behind ++ zeroAuthenticator p :: ahead } ∨ BadStation p) ∨
      Rejected c m (behind ++ [zeroAuthenticator p]) ahead := by
  unfold Rejected
  constructor
  · rintro (⟨_ | ⟨q, before⟩, p', after, heq, h⟩ | ⟨q, hq, hbad⟩)
    · obtain ⟨rfl, rfl⟩ := List.cons.inj heq
      exact .inl (.inl h)
    · obtain ⟨rfl, rfl⟩ := List.cons.inj heq
      exact .inr (.inl ⟨before, p', after, rfl, by simpa using h⟩)
    · obtain rfl | hq := List.mem_cons.mp hq
      · exact .inl (.inr hbad)
      · exact .inr (.inr ⟨q, hq, hbad⟩)
  · rintro ((h | hbad) | ⟨before, p', after, rfl, h⟩ | ⟨q, hq, hbad⟩)
    · exact .inl ⟨[], p, ahead, rfl, h⟩
    · exact .inr ⟨p, List.mem_cons_self, hbad⟩
    · exact .inl ⟨p :: before, p', after, rfl, by simpa using h⟩
    · exact .inr ⟨q, List.mem_cons_of_mem _ hq, hbad⟩

theorem readAttributes_eq_none_iff (r : Request) :
    readAttributes c m behind ahead r = none ↔ Rejected c m behind ahead := by
  induction ahead generalizing behind r with
  | nil => simp [readAttributes, Rejected]
  | cons p ahead ih =>
    rw [readAttributes, rejected_cons, ← readAttribute_eq_none_iff (r := r)]
    cases readAttribute c m (behind ++ zeroAuthenticator p :: ahead) r p with
    | none => simp
    | some r' => simpa using ih r'

/-- With one Message-Authenticator and the true length, the packet is rebuilt as it was received. -/
theorem rejected_of_plain (hplain : Plain m) (h : Unauthenticated c m) :
    Rejected c m [] m.payloads := by
  obtain ⟨hone, hlength⟩ := hplain
  obtain hno | ⟨before, p, after, heq, hp, hwrong⟩ := h
  · rw [List.filter_eq_nil_iff.mpr (by simpa using hno)] at hone
    cases hone
  · refine .inl ⟨before, p, after, heq, hp, fun hsame => hwrong ?_⟩
    rw [heq, List.filter_append, List.filter_cons_of_pos (by simpa using hp), List.length_append,
      List.length_cons] at hone
    have hbefore : before.map zeroAuthenticator = before := by
      refine (List.map_congr_left fun q hq => if_neg fun h80 => ?_).trans (List.map_id before)
      have hmem : q ∈ before.filter (·.type = 80) := List.mem_filter.mpr ⟨hq, decide_eq_true h80⟩
      have := List.length_pos_of_mem hmem
      omega
    have hsize : p.val.length = 16 := hsame ▸ c.length_hmac _ _
    have hdata : (encodePayloads (before ++ zeroAuthenticator p :: after)).length =
        (encodePayloads m.payloads).length := by
      simp [heq, encodePayloads, RadiusPayload.marshal, zeroAuthenticator, hp, hsize]
      omega
    have hpacket : m.packet.length = 4 + m.auth.length + (encodePayloads m.payloads).length := by
      simp [RadiusMessage.packet]
      omega
    rw [hpacket] at hlength
    rw [hbefore] at hsame
    simpa [getMessageAuthenticator, RadiusMessage.packet, RadiusMessage.received, hlength, hdata]
      using hsame

/-- A calling station without a session gets one. -/
theorem handleRequest_new {G P : Type} {env : Inputs G P} {ueAddr : UDPAddr} {r : Request}
    {w : TNGFContext} (h : w.radiusSessionPool.lookup r.callingStationId = none) :
    handleRequest c env ueAddr m r w ≠ .ok (w, []) := by
  intro hsame
  simp only [handleRequest, h, Option.getD_none, if_true, handleEAP5GStart] at hsame
  have hpool := congrArg TNGFContext.radiusSessionPool (Prod.mk.inj (Except.ok.inj hsame)).1
  have hlookup := congrArg (Finmap.lookup r.callingStationId) hpool
  cases hrandom : env.random with
  | none => simp [hrandom, h, TNGFContext.putSession] at hlookup
  | some identifier => simp [hrandom, h, TNGFContext.putSession] at hlookup

/-- Inputs with which the handler of a new session answers. -/
def someInputs : Inputs Unit Unit where
  aper := ⟨fun _ => none, fun _ => none⟩
  random := some 0
  salt := some 0
  ranUeNgapId := some 1
  amfSelection _ _ := some 1
  ktnap _ := none
  encryptMppeKey _ _ _ := []

end Free5gc.Tngf.Radius
