/-
  TNGF: RADIUS packets and their attributes (`pkg/radius/message`).

  `Encode` computes the response authenticator over the packet with the request's authenticator
  in it, puts it there and into the message. `Decode` takes no attribute of less than 4 bytes,
  so a value of one byte is written and not read (`radius_decode_encode_iff`), and the length of
  an attribute is one byte, so a long EAP packet is cut apart in places that no one chose
  (`crosses_iff_short`).
-/
import Free5gc.Tngf.Eap

namespace Free5gc.Tngf.Radius

open Free5gc.Lib

structure RadiusPayload where
  type : UInt8
  length : UInt8 := 0
  val : List UInt8
  deriving DecidableEq, Repr

structure RadiusMessage where
  code : UInt8
  pktID : UInt8
  length : UInt16 := 0
  auth : List UInt8
  payloads : List RadiusPayload := []
  deriving DecidableEq, Repr

/-- `RadiusSecret` and the digests that are computed with it. -/
structure Digests where
  radiusSecret : List UInt8
  md5 : List UInt8 → List UInt8
  hmac : List UInt8 → List UInt8 → List UInt8
  length_md5 : ∀ data, (md5 data).length = 16
  length_hmac : ∀ key data, (hmac key data).length = 16

/-! ## Encoding -/

def RadiusPayload.marshal (p : RadiusPayload) : List UInt8 :=
  p.type :: UInt8.ofNat (2 + p.val.length) :: p.val

/-- `RadiusPayloadContainer.Encode`. -/
def encodePayloads (payloads : List RadiusPayload) : List UInt8 :=
  payloads.flatMap RadiusPayload.marshal

/-- The packet with the authenticator that the message has. -/
def RadiusMessage.packet (m : RadiusMessage) : List UInt8 :=
  let data := encodePayloads m.payloads
  m.code :: m.pktID :: (beBytes 2 (4 + m.auth.length + data.length) ++ (m.auth ++ data))

def getResponseAuth (c : Digests) (message : List UInt8) : List UInt8 :=
  c.md5 (message ++ c.radiusSecret)

/-- `copy(dst, src)`. -/
def overwrite (dst src : List UInt8) : List UInt8 := src.take dst.length ++ dst.drop src.length

/-- `RadiusMessage.Encode`: the message that it leaves and the packet. -/
def RadiusMessage.encode (c : Digests) (m : RadiusMessage) : RadiusMessage × List UInt8 :=
  let auth := getResponseAuth c m.packet
  ({ m with auth }, m.packet.take 4 ++ overwrite (m.packet.drop 4) auth)

/-! ## Decoding -/

def decodePayload (payloads : List RadiusPayload) (raw : List UInt8) :
    Except Fault (List RadiusPayload × List UInt8) := do
  failIf (raw.length ≤ 2) "decodePayload(): No sufficient bytes to decode next payload"
  let payloadType ← index raw 0
  let payloadLength ← index raw 1
  failIf (payloadLength < 4)
    s!"DecodePayload(): Illegal payload length {payloadLength} < header length 4"
  failIf (raw.length < payloadLength.toNat)
    "decodePayload(): The length of received message not matchs the length specified in header"
  let val ← cut raw 2 payloadLength.toNat
  let rest ← cut raw payloadLength.toNat raw.length
  .ok (payloads ++ [⟨payloadType, payloadLength, val⟩], rest)

/-- `RadiusPayloadContainer.Decode`. -/
def decodePayloads (raw : List UInt8) : Except Fault (List RadiusPayload) :=
  loop 1 decodePayload raw.length [] raw

def RadiusMessage.decode (raw : List UInt8) : Except Fault RadiusMessage := do
  failIf (raw.length < 20) "decode(): Received broken Radius header"
  let code ← index raw 0
  let pktID ← index raw 1
  let length ← readU16 raw 2
  let auth ← cut raw 4 20
  let data ← cut raw 20 raw.length
  let payloads ← wrapError "Decode(): DecodePayload failed: " (decodePayloads data)
  .ok ⟨code, pktID, UInt16.ofNat length, auth, payloads⟩

/-! ## Attributes -/

/-- The attribute with its length filled in. -/
def RadiusPayload.withLength (p : RadiusPayload) : RadiusPayload :=
  { p with length := UInt8.ofNat (2 + p.val.length) }

variable {m : RadiusMessage}

theorem decodePayload_marshal {p : RadiusPayload} (hlow : 2 ≤ p.val.length)
    (hhigh : p.val.length ≤ 253) (acc : List RadiusPayload) (rest : List UInt8) :
    decodePayload acc (p.marshal ++ rest) = .ok (acc ++ [p.withLength], rest) := by
  have hsize : (UInt8.ofNat (2 + p.val.length)).toNat = 2 + p.val.length :=
    UInt8.toNat_ofNat_of_lt' (show _ < 256 by omega)
  have hlen : (p.marshal ++ rest).length = 2 + p.val.length + rest.length := by
    simp [RadiusPayload.marshal]
    omega
  have hfields : (p.marshal ++ rest).getD 0 0 = p.type ∧
      (p.marshal ++ rest).getD 1 0 = UInt8.ofNat (2 + p.val.length) ∧
      (p.marshal ++ rest).drop 2 = p.val ++ rest := ⟨rfl, rfl, rfl⟩
  unfold decodePayload
  rw [failIf_pass (by omega), index_eq (by omega), index_eq (by omega)]
  simp only [ok_bind, hfields]
  rw [failIf_pass (by rw [UInt8.lt_iff_toNat_lt, hsize]; simp; omega), hsize,
    failIf_pass (by omega), cut_eq (by omega) (by omega), cut_drop (by omega), hfields.2.2,
    Nat.add_sub_cancel_left, List.take_left, ← List.drop_drop, hfields.2.2, List.drop_left]
  rfl

theorem decodePayload_short {p : RadiusPayload} (h : p.val.length = 1)
    (acc : List RadiusPayload) (rest : List UInt8) :
    ∃ e, decodePayload acc (p.marshal ++ rest) = .error e := by
  obtain ⟨x, hx⟩ := List.length_eq_one_iff.mp h
  exact ⟨_, by simp [decodePayload, RadiusPayload.marshal, hx, failIf, index]; rfl⟩

theorem decodePayloads_encodePayloads_iff {payloads : List RadiusPayload}
    (h : ∀ p ∈ payloads, 1 ≤ p.val.length ∧ p.val.length ≤ 253) {n : Nat}
    (hn : (encodePayloads payloads).length ≤ n) (acc : List RadiusPayload) :
    loop 1 decodePayload n acc (encodePayloads payloads) =
        .ok (acc ++ payloads.map RadiusPayload.withLength) ↔
      ∀ p ∈ payloads, 2 ≤ p.val.length := by
  induction payloads generalizing n acc with
  | nil => simp [encodePayloads, loop_done]
  | cons p payloads ih =>
    obtain ⟨hp, hrest⟩ := List.forall_mem_cons.mp h
    have hcons : encodePayloads (p :: payloads) = p.marshal ++ encodePayloads payloads := by
      simp [encodePayloads]
    have hsize : p.marshal.length = 2 + p.val.length := by
      simp [RadiusPayload.marshal]
      omega
    rw [hcons, List.length_append, hsize] at hn
    obtain ⟨n, rfl⟩ : ∃ k, n = k + 1 := ⟨n - 1, by omega⟩
    rw [hcons, List.forall_mem_cons]
    by_cases htwo : 2 ≤ p.val.length
    · rw [loop_chunk (by omega) (decodePayload_marshal htwo hp.2 acc _)]
      simpa [htwo] using ih hrest (n := n) (by omega) (acc ++ [p.withLength])
    · obtain ⟨e, herr⟩ := decodePayload_short (p := p) (by omega) acc (encodePayloads payloads)
      rw [loop_succ (by simp; omega), herr, error_bind]
      simp [htwo]

/-! ## Packets -/

theorem encode_packet (c : Digests) (h : m.auth.length = 16) :
    (m.encode c).2 = ({ m with auth := getResponseAuth c m.packet } : RadiusMessage).packet := by
  have hauth : (getResponseAuth c m.packet).length = 16 := c.length_md5 _
  have htail : m.packet.drop 4 = m.auth ++ encodePayloads m.payloads := by
    simp [RadiusMessage.packet]
  simp only [RadiusMessage.encode, overwrite]
  generalize getResponseAuth c m.packet = auth at hauth ⊢
  rw [htail, List.take_of_length_le (l := auth) (by simp; omega), hauth, ← h, List.drop_left]
  simp [RadiusMessage.packet, hauth, h]

theorem decode_packet (h : m.auth.length = 16) :
    RadiusMessage.decode m.packet =
      (wrapError "Decode(): DecodePayload failed: " (decodePayloads (encodePayloads m.payloads)) >>=
        fun payloads => .ok { m with length := UInt16.ofNat m.packet.length, payloads }) := by
  obtain ⟨code, pktID, length, auth, payloads⟩ := m
  change auth.length = 16 at h
  have hlen : (RadiusMessage.packet ⟨code, pktID, length, auth, payloads⟩).length =
      20 + (encodePayloads payloads).length := by
    simp [RadiusMessage.packet, h]
    omega
  have hsaid : UInt16.ofNat (beNat (beBytes 2 (4 + 16 + (encodePayloads payloads).length))) =
      UInt16.ofNat (20 + (encodePayloads payloads).length) := by
    apply UInt16.toNat_inj.mp
    simp [beNat_beBytes]
  unfold RadiusMessage.decode
  rw [failIf_pass (by omega), index_eq (by omega), index_eq (by omega), readU16_eq (by omega),
    cut_eq (by omega) (by omega), cut_drop (by omega), hlen]
  simp [RadiusMessage.packet, h, List.drop_append, hsaid]

/-- The message with the lengths that `Decode` finds in the packet. -/
def RadiusMessage.withLengths (m : RadiusMessage) : RadiusMessage :=
  { m with
    length := UInt16.ofNat m.packet.length
    payloads := m.payloads.map RadiusPayload.withLength }

/-- The packet that `Encode` writes is read back as the message that it leaves exactly if every
    value has at least two bytes. -/
theorem radius_decode_encode_iff (c : Digests) {m : RadiusMessage} (hauth : m.auth.length = 16)
    (hval : ∀ p ∈ m.payloads, 1 ≤ p.val.length ∧ p.val.length ≤ 253) :
    RadiusMessage.decode (m.encode c).2 = .ok (m.encode c).1.withLengths ↔
      ∀ p ∈ m.payloads, 2 ≤ p.val.length := by
  have hread := decodePayloads_encodePayloads_iff hval (Nat.le_refl _) []
  rw [encode_packet c hauth, decode_packet (c.length_md5 _), ← hread]
  unfold decodePayloads RadiusMessage.withLengths
  rw [List.nil_append]
  cases loop 1 decodePayload (encodePayloads m.payloads).length [] (encodePayloads m.payloads)
  · simp [wrapError]
  · simp [wrapError, RadiusMessage.encode]

/-- Digests for runs on given packets. -/
def zeroDigests : Digests where
  radiusSecret := []
  md5 _ := List.replicate 16 0
  hmac _ _ := List.replicate 16 0
  length_md5 _ := List.length_replicate
  length_hmac _ _ := List.length_replicate

theorem radius_decode_encode_sample :
    let m : RadiusMessage := ⟨2, 7, 0, List.replicate 16 1, [⟨1, 0, [117, 101]⟩, ⟨80, 0, [0, 1, 2]⟩]⟩
    RadiusMessage.decode (m.encode zeroDigests).2 = .ok (m.encode zeroDigests).1.withLengths :=
  (radius_decode_encode_iff zeroDigests (by decide) (by decide)).mpr (by decide)

/-- A user name of one letter. -/
theorem one_byte_value_not_read :
    let m : RadiusMessage := ⟨2, 7, 0, List.replicate 16 1, [⟨1, 0, [117]⟩]⟩
    RadiusMessage.decode (m.encode zeroDigests).2 = .error (.error
      "Decode(): DecodePayload failed: DecodePayload(): Illegal payload length 3 < header length 4")
    := by
  decide

/-! ## EAP-5G packets with a NAS PDU -/

/-- The values of all EAP-Message attributes, one after the other. -/
def eapMessages (payloads : List RadiusPayload) : List UInt8 :=
  (payloads.filter (·.type = 79)).flatMap RadiusPayload.val

/-- The EAP packet of `BuildEAP5GNAS`: message id 5G-NAS, a spare byte, the length of the NAS PDU
    and the NAS PDU. -/
def eap5GNAS (identifier : UInt8) (nasPDU : List UInt8) : EAP :=
  ⟨1, identifier, [.expanded 10415 3 (2 :: 0 :: (beBytes 2 nasPDU.length ++ nasPDU))]⟩

/-- What the builders do with the EAP packet that they have made. -/
def appendEAP (container : List RadiusPayload) (eap : EAP) : List RadiusPayload :=
  match eap.marshal with
  | .ok eapPayload => container ++ [⟨79, 0, eapPayload⟩]
  | .error _ => container

def buildEAP5GNAS (container : List RadiusPayload) (identifier : UInt8) (nasPDU : List UInt8) :
    List RadiusPayload :=
  if nasPDU = [] then container else appendEAP container (eap5GNAS identifier nasPDU)

/-- From the packet with the NAS PDU the same EAP packet is read. -/
def Crosses (c : Digests) (m : RadiusMessage) (identifier : UInt8) (nasPDU : List UInt8) : Prop :=
  ∃ received, RadiusMessage.decode
      (({ m with payloads := buildEAP5GNAS [] identifier nasPDU } : RadiusMessage).encode c).2 =
        .ok received ∧
    EAP.unmarshal (eapMessages received.payloads) = .ok (eap5GNAS identifier nasPDU)

theorem buildEAP5GNAS_eq (identifier : UInt8) {nasPDU : List UInt8} (h : nasPDU ≠ []) :
    ∃ eapPayload, (eap5GNAS identifier nasPDU).marshal = .ok eapPayload ∧
      eapPayload.length = 16 + nasPDU.length ∧
      buildEAP5GNAS [] identifier nasPDU = [⟨79, 0, eapPayload⟩] := by
  refine ⟨_, rfl, ?_, if_neg h⟩
  simp
  omega

/-- The attributes that are read take two bytes each and their values. -/
theorem sum_of_decodePayloads {n : Nat} {acc payloads : List RadiusPayload} {data : List UInt8}
    (h : loop 1 decodePayload n acc data = .ok payloads) :
    ∃ new, payloads = acc ++ new ∧ (new.map fun p => 2 + p.val.length).sum = data.length ∧
      ∀ p ∈ new, 2 + p.val.length < 256 := by
  refine loop_induction (fun acc data payloads => ∃ new, payloads = acc ++ new ∧
    (new.map fun p => 2 + p.val.length).sum = data.length ∧ ∀ p ∈ new, 2 + p.val.length < 256)
    (fun acc data hdone => ⟨[], by simp, by simp; omega, by simp⟩)
    (fun acc data r payloads hlen hturn hrest => ?_) h
  obtain ⟨acc', rest⟩ := r
  obtain ⟨new, rfl, hsum, hbound⟩ := hrest
  unfold decodePayload at hturn
  obtain ⟨hshort, hturn⟩ := failIf_eq_ok.mp hturn
  rw [index_eq (by omega), index_eq (by omega), ok_bind, ok_bind] at hturn
  obtain ⟨hfour, hturn⟩ := failIf_eq_ok.mp hturn
  obtain ⟨hin, hturn⟩ := failIf_eq_ok.mp hturn
  rw [UInt8.lt_iff_toNat_lt, show (4 : UInt8).toNat = 4 from rfl] at hfour
  rw [cut_eq (by omega) (by omega), cut_drop (by omega), ok_bind, ok_bind] at hturn
  obtain ⟨rfl, rfl⟩ := Prod.mk.inj (Except.ok.inj hturn)
  have hbyte := (data.getD 1 0).toNat_lt
  refine ⟨_ :: new, List.append_assoc _ _ _, ?_, List.forall_mem_cons.mpr ⟨?_, hbound⟩⟩
  · rw [List.map_cons, List.sum_cons, hsum]
    simp only [List.length_take, List.length_drop]
    omega
  · simp only [List.length_take, List.length_drop]
    omega

theorem length_eapMessages_le (payloads : List RadiusPayload) :
    (eapMessages payloads).length + 2 * payloads.length ≤
      (payloads.map fun p => 2 + p.val.length).sum := by
  induction payloads with
  | nil => simp [eapMessages]
  | cons p payloads ih =>
    unfold eapMessages at ih ⊢
    by_cases hp : p.type = 79
    all_goals
      simp [hp] at ih ⊢
      omega

/-- One attribute has room for a NAS PDU of 237 bytes. -/
theorem crosses_iff_short (c : Digests) (hauth : m.auth.length = 16) (identifier : UInt8)
    {nasPDU : List UInt8} (hlen : nasPDU.length ≤ 60000) :
    Crosses c m identifier nasPDU ↔ 1 ≤ nasPDU.length ∧ nasPDU.length ≤ 237 := by
  unfold Crosses
  rw [encode_packet c (by exact hauth), decode_packet (c.length_md5 _)]
  by_cases hnil : nasPDU = []
  · subst hnil
    simp [buildEAP5GNAS, encodePayloads, decodePayloads, loop_done, wrapError, eapMessages,
      EAP.unmarshal, eap5GNAS]
  obtain ⟨eapPayload, hmarshal, hsize, hbuild⟩ := buildEAP5GNAS_eq identifier hnil
  have hpos : 1 ≤ nasPDU.length := List.length_pos_iff.mpr hnil
  simp only [hbuild]
  constructor
  · rintro ⟨received, hdecode, hread⟩
    obtain ⟨payloads, hpayloads, hreceived⟩ := bind_eq_ok.mp hdecode
    obtain rfl := Except.ok.inj hreceived
    obtain ⟨new, rfl, hsum, hbound⟩ := sum_of_decodePayloads (wrapError_eq_ok.mp hpayloads)
    have hraw := EAP.length_of_unmarshal_expanded hread
    have hle := length_eapMessages_le payloads
    simp [encodePayloads, RadiusPayload.marshal] at hsum hraw
    obtain _ | ⟨p, _ | ⟨q, more⟩⟩ := payloads
    · simp at hsum
    · have := hbound p List.mem_cons_self
      simp at hsum
      omega
    · simp at hsum hle
      omega
  · rintro ⟨-, hshort⟩
    have hval : ∀ p ∈ [(⟨79, 0, eapPayload⟩ : RadiusPayload)],
        1 ≤ p.val.length ∧ p.val.length ≤ 253 := by
      simp
      omega
    have hpayloads := (decodePayloads_encodePayloads_iff hval (Nat.le_refl _) []).mpr
      (by simp; omega)
    refine ⟨_, by rw [decodePayloads, hpayloads]; rfl, ?_⟩
    have hwhole : (eap5GNAS identifier nasPDU).Whole := ⟨by simp [eap5GNAS], by
      simp [eap5GNAS, EAPTypeFormat.Whole]⟩
    simpa [eapMessages, RadiusPayload.withLength] using
      EAP.unmarshal_written hwhole hmarshal (by omega)

end Free5gc.Tngf.Radius
