/-
  TNGF: `IKEMessage.Decode` reads what `IKEMessage.Encode` writes.

  `IKEPayload.Valid` says which payloads come back, security associations apart. The chain of
  payloads is read by `decodePayloads_encode`: the type of a payload stands in front of it, in the
  header of its predecessor, so the induction is over the chain with the type at hand.
-/
import Free5gc.Tngf.Ike.Robust

namespace Free5gc.Tngf.Ike

open Free5gc.Lib

variable {data : List UInt8}

theorem saidLength_cons (a b : UInt8) {v : Nat} (h : v < 2 ^ 16) (rest : List UInt8) :
    saidLength (a :: b :: (beBytes 2 v ++ rest)) = v := by
  unfold saidLength
  rw [List.drop_succ_cons, List.drop_succ_cons, List.drop_zero, take_beBytes,
    beNat_beBytes_of_lt h]

/-! ## Traffic selectors -/

/-- A selector with addresses of its family. -/
def IndividualTrafficSelector.Valid (s : IndividualTrafficSelector) : Prop :=
  s.tsType = 7 ∧ s.startAddress.length = 4 ∧ s.endAddress.length = 4 ∨
    s.tsType = 8 ∧ s.startAddress.length = 16 ∧ s.endAddress.length = 16

namespace IndividualTrafficSelector

/-- What is written for a valid selector. -/
def bytes (s : IndividualTrafficSelector) : List UInt8 :=
  s.tsType :: s.ipProtocolID :: (beBytes 2 (8 + 2 * s.startAddress.length) ++
    (beBytes 2 s.startPort.toNat ++ (beBytes 2 s.endPort.toNat ++
      (s.startAddress ++ s.endAddress))))

variable {s : IndividualTrafficSelector}

theorem Valid.family (h : s.Valid) :
    ∃ family word, addressFamily s.tsType = some (s.startAddress.length, family, word) ∧
      s.startAddress.length ≤ 16 ∧ s.endAddress.length = s.startAddress.length := by
  obtain ⟨hty, hstart, hend⟩ | ⟨hty, hstart, hend⟩ := h
  · exact ⟨"IPv4", "IPV4", by rw [hty, hstart]; rfl, by omega, by omega⟩
  · exact ⟨"IPv6", "IPV6", by rw [hty, hstart]; rfl, by omega, by omega⟩

theorem Valid.marshal_eq (h : s.Valid) : s.marshal = .ok s.bytes := by
  obtain ⟨family, word, hfamily, -, hend⟩ := h.family
  simp [marshal, hfamily, hend, bytes]

theorem Valid.unmarshal_bytes (h : s.Valid) (n : Nat) (more : List UInt8) :
    unmarshalSelectors (n + 1) (s.bytes ++ more) = (s :: ·) <$> unmarshalSelectors n more := by
  obtain ⟨family, word, hfamily, hsize, hend⟩ := h.family
  have hlen : s.bytes.length = 8 + 2 * s.startAddress.length := by
    simp [bytes, hend]
    omega
  have hraw : (s.bytes ++ more).length = 8 + 2 * s.startAddress.length + more.length := by
    rw [List.length_append, hlen]
  have hsaid : beNat (((s.bytes ++ more).drop 2).take 2) = 8 + 2 * s.startAddress.length :=
    saidLength_cons _ _ (by omega) _
  have htype : (s.bytes ++ more).getD 0 0 = s.tsType := rfl
  have haddr : (s.bytes ++ more).drop 8 = s.startAddress ++ (s.endAddress ++ more) := by
    simp [bytes, List.drop_append]
  have hlast : (s.bytes ++ more).drop (8 + s.startAddress.length) = s.endAddress ++ more := by
    rw [← List.drop_drop, haddr, List.drop_left]
  rw [unmarshalSelectors, failIf_pass (by omega), index_eq (by omega), ok_bind, htype, hfamily]
  dsimp only
  rw [readU16_eq (by omega), hsaid, ok_bind, failIf_pass (by omega), failIf_pass (by omega),
    index_eq (by omega), readU16_eq (by omega), readU16_eq (by omega), cut_eq (by omega) (by omega),
    cut_eq (by omega) (by omega), cut_drop (by omega), haddr, hlast, List.drop_left' hlen]
  have hsize' : 8 + 2 * s.startAddress.length - (8 + s.startAddress.length) =
      s.endAddress.length := by omega
  simp only [ok_bind, hsize', List.take_left, Nat.add_sub_cancel_left]
  simp only [bytes, List.cons_append, List.append_assoc, List.drop_succ_cons,
    List.drop_append, length_beBytes]
  simp [ofNat_beBytes_16]
  cases unmarshalSelectors n more <;> rfl

theorem unmarshalSelectors_bytes {selectors : List IndividualTrafficSelector}
    (h : ∀ s ∈ selectors, s.Valid) :
    marshalSelectors selectors = .ok (selectors.flatMap bytes) ∧
      unmarshalSelectors selectors.length (selectors.flatMap bytes) = .ok selectors := by
  induction selectors with
  | nil => exact ⟨rfl, rfl⟩
  | cons s selectors ih =>
    obtain ⟨hs, hrest⟩ := List.forall_mem_cons.mp h
    obtain ⟨hwrite, hread⟩ := ih hrest
    rw [List.flatMap_cons]
    constructor
    · rw [marshalSelectors, hs.marshal_eq, hwrite]
      rfl
    · rw [List.length_cons, hs.unmarshal_bytes, hread]
      rfl

end IndividualTrafficSelector

theorem unmarshalTrafficSelector_marshal {selectors : List IndividualTrafficSelector}
    (h : ∀ s ∈ selectors, s.Valid) (hpos : selectors ≠ []) (hmax : selectors.length < 256) :
    ∃ data, marshalTrafficSelector selectors = .ok data ∧
      unmarshalTrafficSelector data = .ok selectors := by
  obtain ⟨hwrite, hread⟩ := IndividualTrafficSelector.unmarshalSelectors_bytes h
  refine ⟨_, by rw [marshalTrafficSelector, if_neg hpos, hwrite, ok_bind], ?_⟩
  unfold unmarshalTrafficSelector marshalTagged
  rw [if_neg (List.cons_ne_nil _ _), failIf_pass (by simp), index_eq (by simp), cut_drop (by simp)]
  simp [UInt8.toNat_ofNat_of_lt' hmax, hread]

/-! ## Configuration attributes -/

theorem and_7fff {x : UInt16} (h : x.toNat < 2 ^ 15) : x &&& 0x7fff = x := by
  apply UInt16.toNat_inj.mp
  rw [UInt16.toNat_and]
  show _ &&& (2 ^ 15 - 1) = _
  rw [Nat.and_two_pow_sub_one_eq_mod, Nat.mod_eq_of_lt h]

theorem unmarshalAttribute_chunk {a : IndividualConfigurationAttribute}
    (htype : a.type.toNat < 2 ^ 15) (hlen : a.value.length < 65532)
    (acc : List IndividualConfigurationAttribute) (rest : List UInt8) :
    unmarshalAttribute acc (beBytes 2 (a.type &&& 0x7fff).toNat ++
      (beBytes 2 a.value.length ++ (a.value ++ rest))) = .ok (acc ++ [a], rest) := by
  have hvalue : beNat (beBytes 2 a.value.length) = a.value.length :=
    beNat_beBytes_of_lt (show _ < 65536 by omega)
  unfold unmarshalAttribute
  rw [and_7fff htype, failIf_pass (by simp; omega), readU16_eq (by simp; omega), readU16_eq (by simp),
    cut_drop (by simp; omega)]
  simp only [ok_bind, drop_beBytes, take_beBytes, hvalue, List.drop_zero, ofNat_beBytes_16]
  rw [failIf_pass (by simp; omega), ← List.drop_drop (i := 2) (j := 2), drop_beBytes, drop_beBytes,
    cut_eq (by omega) (by simp), cut_drop (by simp)]
  simp

theorem unmarshalAttributes_marshal {attributes acc : List IndividualConfigurationAttribute}
    (h : ∀ a ∈ attributes, a.type.toNat < 2 ^ 15)
    (hlen : (marshalAttributes attributes).length < 65532) {n : Nat}
    (hn : (marshalAttributes attributes).length ≤ n) :
    loop 1 unmarshalAttribute n acc (marshalAttributes attributes) = .ok (acc ++ attributes) := by
  induction attributes generalizing acc n with
  | nil => rw [loop_done (by simp [marshalAttributes]), List.append_nil]
  | cons a attributes ih =>
    obtain ⟨ha, hrest⟩ := List.forall_mem_cons.mp h
    simp only [marshalAttributes, List.length_append, length_beBytes] at hlen hn
    obtain ⟨n, rfl⟩ : ∃ k, n = k + 1 := ⟨n - 1, by omega⟩
    rw [marshalAttributes, loop_succ (by simp; omega), unmarshalAttribute_chunk ha (by omega),
      ok_bind, ih hrest (by omega) (by omega), List.append_assoc]
    rfl

theorem unmarshalConfiguration_marshal (configurationType : UInt8)
    {attributes : List IndividualConfigurationAttribute} (hne : attributes ≠ [])
    (h : ∀ a ∈ attributes, a.type.toNat < 2 ^ 15)
    (hlen : (marshalAttributes attributes).length < 65532) :
    unmarshalConfiguration (marshalTagged 3 configurationType (marshalAttributes attributes)) =
      .ok (.configuration configurationType attributes) := by
  have hpos : 0 < (marshalAttributes attributes).length := by
    obtain ⟨a, rest, rfl⟩ := List.exists_cons_of_ne_nil hne
    simp [marshalAttributes]
  unfold unmarshalConfiguration marshalTagged
  have hraw : (configurationType :: (List.replicate 3 0 ++ marshalAttributes attributes)).length =
      4 + (marshalAttributes attributes).length := by
    simp
    omega
  rw [if_neg (List.cons_ne_nil _ _), failIf_pass (by omega), index_eq (by omega),
    cut_drop (by omega)]
  simp [unmarshalAttributes_marshal h hlen]

/-! ## Payloads -/

/-- The payloads that are read back, security associations apart. -/
def IKEPayload.Valid : IKEPayload → Prop
  | .securityAssociation _ => False
  | .keyExchange _ data | .identificationInitiator _ data | .identificationResponder _ data
  | .certificate _ data | .certificateRequest _ data | .authentication _ data => data ≠ []
  | .nonce _ | .vendorID _ | .encrypted _ _ => True
  | .notification _ _ spi _ => spi.length = 0 ∨ spi.length = 4 ∨ spi.length = 8
  | .delete _ spiSize numberOfSPI spis =>
    spis ≠ [] ∧ spis.length = spiSize.toNat * numberOfSPI.toNat
  | .trafficSelectorInitiator selectors | .trafficSelectorResponder selectors =>
    selectors ≠ [] ∧ selectors.length < 256 ∧ ∀ s ∈ selectors, s.Valid
  | .configuration _ attributes =>
    attributes ≠ [] ∧ ∀ a ∈ attributes, a.type.toNat < 2 ^ 15
  | .eap packet => packet.Whole

theorem unmarshalTagged_marshal (pad : Nat) (text : String) (tag : UInt8) (h : data ≠ []) :
    unmarshalTagged pad text (marshalTagged pad tag data) = .ok (tag, data) := by
  have hpos := List.length_pos_of_ne_nil h
  unfold unmarshalTagged marshalTagged
  rw [if_neg (List.cons_ne_nil _ _), failIf_pass (by simp; omega), index_eq (by simp),
    cut_drop (by simp; omega)]
  simp [Nat.add_comm 1 pad]

theorem unmarshalKeyExchange_marshal (group : UInt16) (h : data ≠ []) :
    unmarshalKeyExchange (beBytes 2 group.toNat ++ (0 :: 0 :: data)) =
      .ok (.keyExchange group data) := by
  have hpos := List.length_pos_of_ne_nil h
  unfold unmarshalKeyExchange
  rw [if_neg (by simp [beBytes]), failIf_pass (by simp; omega), readU16_eq (by simp),
    cut_drop (by simp; omega)]
  simp [ofNat_beBytes_16, List.drop_append]

theorem unmarshalNotification_marshal (protocolID : UInt8) (messageType : UInt16)
    {spi : List UInt8} (data : List UInt8) (h : spi.length < 252) :
    unmarshalNotification (protocolID :: UInt8.ofNat spi.length ::
      (beBytes 2 messageType.toNat ++ (spi ++ data))) =
      .ok (.notification protocolID messageType spi data) := by
  have hspi : (UInt8.ofNat spi.length).toNat = spi.length :=
    UInt8.toNat_ofNat_of_lt' (show _ < 256 by omega)
  have hend : (4 + UInt8.ofNat spi.length).toNat = 4 + spi.length := by
    have hmod : (4 + UInt8.ofNat spi.length).toNat = (4 + (UInt8.ofNat spi.length).toNat) % 256 :=
      toNat_add_small (by decide) _
    omega
  unfold unmarshalNotification
  rw [if_neg (List.cons_ne_nil _ _), failIf_pass (by simp), index_eq (by simp)]
  simp only [ok_bind, List.getD_cons_succ, List.getD_cons_zero, hend]
  rw [failIf_pass (by simp; omega), index_eq (by simp), readU16_eq (by simp),
    cut_eq (by omega) (by simp; omega), cut_drop (by simp; omega), ← List.drop_drop]
  simp [ofNat_beBytes_16]

theorem unmarshalDelete_marshal (protocolID spiSize : UInt8) (numberOfSPI : UInt16)
    {spis : List UInt8} (hne : spis ≠ [])
    (h : spis.length = spiSize.toNat * numberOfSPI.toNat) :
    unmarshalDelete (protocolID :: spiSize :: (beBytes 2 numberOfSPI.toNat ++ spis)) =
      .ok (.delete protocolID spiSize numberOfSPI spis) := by
  have hpos := List.length_pos_of_ne_nil hne
  have hnumber : beNat (beBytes 2 numberOfSPI.toNat) = numberOfSPI.toNat :=
    beNat_beBytes_of_lt (show _ < 65536 from numberOfSPI.toNat_lt)
  unfold unmarshalDelete
  rw [if_neg (List.cons_ne_nil _ _), failIf_pass (by simp; omega), index_eq (by simp),
    readU16_eq (by simp)]
  simp only [ok_bind, List.getD_cons_succ, List.getD_cons_zero, List.drop_succ_cons,
    List.drop_zero, take_beBytes, hnumber]
  rw [failIf_pass (by simp; omega), index_eq (by simp), cut_drop (by simp)]
  simp

/-- A valid payload is written, and its `unmarshal` reads it back. An encrypted payload needs the
    byte in front of it, too. -/
theorem IKEPayload.Valid.read {p : IKEPayload} (h : p.Valid) (next : UInt8)
    (hshort : ∀ data, p.marshal = .ok data → 4 + data.length < 2 ^ 16)
    (hnext : ∀ inside data, p = .encrypted inside data → inside = next) :
    ∃ data, p.marshal = .ok data ∧ unmarshalPayload p.type next data = some (.ok p) := by
  cases p with
  | securityAssociation proposals => exact absurd h id
  | keyExchange group data =>
    exact ⟨_, rfl, congrArg some (unmarshalKeyExchange_marshal group h)⟩
  | identificationInitiator idType data =>
    exact ⟨_, rfl, congrArg (fun x => some (_ <$> x)) (unmarshalTagged_marshal 3 _ idType h)⟩
  | identificationResponder idType data =>
    exact ⟨_, rfl, congrArg (fun x => some (_ <$> x)) (unmarshalTagged_marshal 3 _ idType h)⟩
  | certificate encoding data =>
    exact ⟨_, rfl, congrArg (fun x => some (_ <$> x)) (unmarshalTagged_marshal 0 _ encoding h)⟩
  | certificateRequest encoding data =>
    exact ⟨_, rfl, congrArg (fun x => some (_ <$> x)) (unmarshalTagged_marshal 0 _ encoding h)⟩
  | authentication method data =>
    exact ⟨_, rfl, congrArg (fun x => some (_ <$> x)) (unmarshalTagged_marshal 3 _ method h)⟩
  | nonce data => exact ⟨data, rfl, rfl⟩
  | notification protocolID messageType spi data =>
    have hspi : spi.length < 252 := by
      rcases h with h | h | h <;> omega
    exact ⟨_, rfl, congrArg some (unmarshalNotification_marshal protocolID messageType data hspi)⟩
  | delete protocolID spiSize numberOfSPI spis =>
    exact ⟨_, if_neg (not_not.mpr h.2), congrArg some (unmarshalDelete_marshal _ _ _ h.1 h.2)⟩
  | vendorID data => exact ⟨data, rfl, rfl⟩
  | trafficSelectorInitiator selectors =>
    obtain ⟨data, hwrite, hread⟩ := unmarshalTrafficSelector_marshal h.2.2 h.1 h.2.1
    exact ⟨data, hwrite, congrArg (fun x => some (_ <$> x)) hread⟩
  | trafficSelectorResponder selectors =>
    obtain ⟨data, hwrite, hread⟩ := unmarshalTrafficSelector_marshal h.2.2 h.1 h.2.1
    exact ⟨data, hwrite, congrArg (fun x => some (_ <$> x)) hread⟩
  | encrypted inside data =>
    obtain rfl := hnext inside data rfl
    exact ⟨data, rfl, rfl⟩
  | configuration configurationType attributes =>
    have hlen : (marshalAttributes attributes).length < 65532 := by
      have := hshort _ rfl
      simp [marshalTagged] at this
      omega
    exact ⟨_, rfl, congrArg some (unmarshalConfiguration_marshal _ h.1 h.2 hlen)⟩
  | eap packet =>
    obtain ⟨data, hwrite⟩ := EAP.Whole.written h
    have hlen : data.length < 2 ^ 16 := by
      have := hshort data hwrite
      omega
    exact ⟨data, hwrite, congrArg (fun x => some (_ <$> x)) (EAP.unmarshal_written h hwrite hlen)⟩

/-! ## Messages -/

theorem decodePayload_chunk {p : IKEPayload} {next : UInt8}
    (hread : unmarshalPayload p.type next data = some (.ok p)) (hlen : 4 + data.length < 2 ^ 16)
    (acc : List IKEPayload) (more : List UInt8) :
    decodePayload (p.type, acc) ((next :: 0 :: (beBytes 2 (4 + data.length) ++ data)) ++ more) =
      .ok ((next, acc ++ [p]), more) := by
  have hraw : ((next :: 0 :: (beBytes 2 (4 + data.length) ++ data)) ++ more).length =
      4 + data.length + more.length := by
    simp
    omega
  have hsaid : saidLength ((next :: 0 :: (beBytes 2 (4 + data.length) ++ data)) ++ more) =
      4 + data.length := by
    rw [List.cons_append, List.cons_append, List.append_assoc]
    exact saidLength_cons _ _ hlen _
  have hrest : ((next :: 0 :: (beBytes 2 (4 + data.length) ++ data)) ++ more).drop
      (4 + data.length) = more := List.drop_left' (by simp; omega)
  unfold decodePayload
  rw [chunkLength_eq (by decide) (by omega) (by omega), ok_bind, hsaid, index_eq (by omega),
    index_eq (by omega), cut_eq (by omega) (by omega), cut_drop (by omega), hrest]
  simp [takePayload, hread, wrapError]

theorem nextType_of_ne_nil (p : IKEPayload) {payloads : List IKEPayload} (h : payloads ≠ []) :
    nextType p payloads = firstType payloads := by
  cases payloads with
  | nil => exact absurd rfl h
  | cons _ _ => rfl

theorem decodePayloads_encode {payloads : List IKEPayload} (h : ∀ p ∈ payloads, p.Valid)
    (hshort : ∀ p ∈ payloads, ∀ data, p.marshal = .ok data → 4 + data.length < 2 ^ 16)
    (hlast : ∀ p ∈ payloads.dropLast, ∀ inside data, p ≠ .encrypted inside data) :
    ∃ data, encodePayloads payloads = .ok data ∧ ∀ n acc type, data.length ≤ n →
      (payloads ≠ [] → type = firstType payloads) →
        ∃ last, loop 1 decodePayload n (type, acc) data = .ok (last, acc ++ payloads) := by
  induction payloads with
  | nil =>
    refine ⟨[], rfl, fun n acc type _ _ => ⟨type, ?_⟩⟩
    rw [loop_done (by simp), List.append_nil]
  | cons p payloads ih =>
    obtain ⟨hp, hrest⟩ := List.forall_mem_cons.mp h
    obtain ⟨hpshort, hrestshort⟩ := List.forall_mem_cons.mp hshort
    obtain ⟨more, hmore, hloop⟩ := ih hrest hrestshort fun q hq =>
      hlast q (by
        cases payloads with
        | nil => exact absurd hq List.not_mem_nil
        | cons _ _ => exact List.mem_cons_of_mem p hq)
    obtain ⟨data, hdata, hread⟩ := hp.read (nextType p payloads) hpshort (by
      rintro inside data rfl
      cases payloads with
      | nil => rfl
      | cons _ _ => exact absurd rfl (hlast _ List.mem_cons_self inside data))
    refine ⟨(nextType p payloads :: 0 :: (beBytes 2 (4 + data.length) ++ data)) ++ more, ?_,
      fun n acc type hn htype => ?_⟩
    · simp [encodePayloads, hdata, hmore, wrapError]
    · obtain rfl := htype (List.cons_ne_nil _ _)
      obtain ⟨n, rfl⟩ : ∃ k, n = k + 1 := ⟨n - 1, by simp at hn; omega⟩
      obtain ⟨last, hend⟩ := hloop n (acc ++ [p]) (nextType p payloads) (by simp at hn; omega)
        fun hne => nextType_of_ne_nil p hne
      refine ⟨last, ?_⟩
      rw [firstType, loop_chunk (by simp) (decodePayload_chunk hread (hpshort data hdata) acc more),
        hend, List.append_assoc]
      rfl

/-- The messages that are read back: valid payloads, each shorter than 2^16 bytes with its header,
    an encrypted one only at the end, and less than 2^32 bytes in all. -/
structure IKEMessage.Valid (m : IKEMessage) : Prop where
  payload : ∀ p ∈ m.payloads, p.Valid
  short : ∀ p ∈ m.payloads, ∀ data, p.marshal = .ok data → 4 + data.length < 2 ^ 16
  encryptedLast : ∀ p ∈ m.payloads.dropLast, ∀ inside data, p ≠ .encrypted inside data
  total : ∀ raw, m.encode = .ok raw → raw.length < 2 ^ 32

theorem decode_encode {m : IKEMessage} (h : m.Valid) :
    (m.encode >>= IKEMessage.decode) = .ok m := by
  obtain ⟨data, hdata, hloop⟩ := decodePayloads_encode h.payload h.short h.encryptedLast
  obtain ⟨last, hread⟩ := hloop data.length [] (firstType m.payloads) (Nat.le_refl _) fun _ => rfl
  have hencode : m.encode = .ok (beBytes 8 m.initiatorSPI.toNat ++
      (beBytes 8 m.responderSPI.toNat ++ (firstType m.payloads :: m.version :: m.exchangeType ::
        m.flags :: (beBytes 4 m.messageID.toNat ++ (beBytes 4 (28 + data.length) ++ data))))) := by
    simp [IKEMessage.encode, hdata, wrapError]
  have htotal := h.total _ hencode
  have hlen : beNat (beBytes 4 (28 + data.length)) = 28 + data.length :=
    beNat_beBytes_of_lt (by simp at htotal; omega)
  rw [hencode, ok_bind]
  generalize hraw : beBytes 8 m.initiatorSPI.toNat ++ _ = raw
  have hsize : raw.length = 28 + data.length := by
    rw [← hraw]
    simp
    omega
  have hbytes : raw.getD 16 0 = firstType m.payloads ∧ raw.getD 17 0 = m.version ∧
      raw.getD 18 0 = m.exchangeType ∧ raw.getD 19 0 = m.flags := by
    rw [← hraw]
    exact ⟨rfl, rfl, rfl, rfl⟩
  have hparts : (raw.drop 0).take 8 = beBytes 8 m.initiatorSPI.toNat ∧
      (raw.drop 8).take 8 = beBytes 8 m.responderSPI.toNat ∧
      (raw.drop 20).take 4 = beBytes 4 m.messageID.toNat ∧
      (raw.drop 24).take 4 = beBytes 4 (28 + data.length) ∧ raw.drop 28 = data := by
    rw [← hraw]
    simp [List.drop_append]
  unfold IKEMessage.decode
  rw [failIf_pass (by omega), readU32_eq (by omega), readU32_eq (by omega), index_eq (by omega),
    index_eq (by omega), index_eq (by omega), index_eq (by omega), cut_eq (by omega) (by omega),
    cut_eq (by omega) (by omega), cut_drop (by omega)]
  simp only [ok_bind, hbytes, hparts, hlen]
  rw [failIf_pass (by omega), failIf_pass (by omega), decodePayloads, hread]
  simp [wrapError, ofNat_beBytes_32, ofNat_beBytes_64]

/-- A notification, a selector and, at the end, an encrypted payload. -/
def sampleMessage : IKEMessage :=
  ⟨1, 2, 0x20, 35, 8, 1, [.notification 1 16388 [1, 2, 3, 4] [9],
    .trafficSelectorInitiator [⟨7, 0, 0, 65535, [10, 0, 0, 1], [10, 0, 0, 9]⟩],
    .encrypted 35 [5, 6, 7]]⟩

theorem sampleMessage_valid : sampleMessage.Valid := by
  refine ⟨?_, ?_, ?_, ?_⟩
  · simp [sampleMessage, IKEPayload.Valid, IndividualTrafficSelector.Valid]
  · intro p hp data hdata
    simp only [sampleMessage, List.mem_cons, List.not_mem_nil, or_false] at hp
    rcases hp with rfl | rfl | rfl <;> obtain rfl := Except.ok.inj hdata <;> decide
  · simp [sampleMessage]
  · intro raw hraw
    obtain rfl := Except.ok.inj hraw
    decide

theorem decode_encode_sample :
    (sampleMessage.encode >>= IKEMessage.decode) = .ok sampleMessage :=
  decode_encode sampleMessage_valid

/-- An expanded EAP method whose vendor id takes more than 24 bits comes back with another id. -/
theorem vendorID_not_read_back :
    let m : IKEMessage := ⟨0, 0, 0, 0, 0, 0, [.eap ⟨1, 1, [.expanded 0x01000000 3 []]⟩]⟩
    (m.encode >>= IKEMessage.decode) ≠ .ok m := by
  decide

/-! ## Security associations -/

/-- A transform without an attribute, or with one in type/value form whose type takes 7 bits. -/
def Transform.Plain (t : Transform) : Prop :=
  t = { transformType := t.transformType, transformID := t.transformID } ∨
    t.attributePresent = true ∧ t.attributeFormat = 1 ∧ t.attributeType.toNat < 2 ^ 7 ∧
      t.variableLengthAttributeValue = []

/-- What is written for a transform with the bytes `attr` of its attribute. -/
def Transform.bytes (flag : UInt8) (attr : List UInt8) (t : Transform) : List UInt8 :=
  flag :: 0 :: (beBytes 2 (8 + attr.length) ++ (t.transformType :: 0 ::
    (beBytes 2 t.transformID.toNat ++ attr)))

section

variable (t : Transform) (flag : UInt8) (attr rest : List UInt8)

theorem length_transformBytes : (t.bytes flag attr ++ rest).length =
    8 + attr.length + rest.length := by
  simp [Transform.bytes]
  omega

theorem saidLength_transformBytes {attr : List UInt8} (h : 8 + attr.length < 2 ^ 16) :
    saidLength (t.bytes flag attr ++ rest) = 8 + attr.length := by
  unfold Transform.bytes
  rw [List.cons_append, List.cons_append, List.append_assoc]
  exact saidLength_cons _ _ h _

theorem unmarshalTransform_bytes {attr : List UInt8} (h : 8 + attr.length < 2 ^ 16) (p : Proposal) :
    unmarshalTransform p (t.bytes flag attr ++ rest) =
      (if 8 < 8 + attr.length then
        ({ transformType := t.transformType, transformID := t.transformID } : Transform).readAttribute
          (8 + attr.length) (t.bytes flag attr ++ rest)
      else .ok { transformType := t.transformType, transformID := t.transformID }) >>=
        fun t => .ok (p.add t, rest) := by
  have hlen := length_transformBytes t flag attr rest
  have hrest : (t.bytes flag attr ++ rest).drop (8 + attr.length) = rest :=
    List.drop_left' (by simp [Transform.bytes]; omega)
  have htype : (t.bytes flag attr ++ rest).getD 4 0 = t.transformType := rfl
  have hid : ((t.bytes flag attr ++ rest).drop 6).take 2 = beBytes 2 t.transformID.toNat := by
    simp [Transform.bytes, List.drop_append]
  have hsaid := saidLength_transformBytes t flag rest h
  unfold unmarshalTransform
  rw [chunkLength_eq (by decide) (by omega) (by omega), ok_bind, hsaid, index_eq (by omega),
    readU16_eq (by omega), cut_drop (by omega), hrest, htype, hid]
  simp only [ok_bind, ofNat_beBytes_16]

end

/-- The first word of an attribute in type/value form. -/
def typeValueWord (type : UInt16) : UInt16 := ((1 : UInt8).toUInt16 &&& 1) <<< 15 ||| type

section

variable {type : UInt16} (h : type.toNat < 2 ^ 7)

include h

theorem toNat_typeValueWord : (typeValueWord type).toNat = 1 * 2 ^ 15 + type.toNat := by
  unfold typeValueWord
  rw [UInt16.toNat_or]
  exact or_eq_add 1 (show type.toNat < 2 ^ 15 by omega)

theorem typeValueWord_type : typeValueWord type &&& 0x7f = type := by
  apply UInt16.toNat_inj.mp
  rw [UInt16.toNat_and, toNat_typeValueWord h]
  show _ &&& (2 ^ 7 - 1) = _
  rw [Nat.and_two_pow_sub_one_eq_mod]
  omega

theorem typeValueWord_first : UInt8.ofNat ((typeValueWord type).toNat / 256 ^ 1) = 128 := by
  rw [toNat_typeValueWord h, show (1 * 2 ^ 15 + type.toNat) / 256 ^ 1 = 128 by omega]
  rfl

theorem readAttribute_typeValue (t : Transform) {data rest : List UInt8} {value : UInt16}
    (hdata : data.drop 8 = beBytes 2 (typeValueWord type).toNat ++
      (beBytes 2 value.toNat ++ rest)) :
    t.readAttribute 12 data = .ok { t with
      attributePresent := true
      attributeFormat := 1
      attributeType := type
      attributeValue := value } := by
  have hlen := congrArg List.length hdata
  simp only [List.length_drop, List.length_append, length_beBytes] at hlen
  have hfirst : data.getD 8 0 = 128 := by
    have := congrArg (fun l => l.getD 0 0) hdata
    simpa [List.getD_eq_getElem?_getD, beBytes, ← typeValueWord_first h] using this
  have hvalue : data.drop 10 = beBytes 2 value.toNat ++ rest := by
    rw [← drop_beBytes 2 (typeValueWord type).toNat (beBytes 2 value.toNat ++ rest), ← hdata,
      List.drop_drop]
  unfold Transform.readAttribute
  rw [failIf_pass (by decide), index_eq (by omega), readU16_eq (by omega), readU16_eq (by omega),
    hfirst, hdata, hvalue]
  simp [ofNat_beBytes_16, typeValueWord_type h, show (128 : UInt8) >>> 7 = 1 from rfl]

end

theorem Transform.Plain.read {t : Transform} (h : t.Plain) : ∃ attr, attr.length ≤ 4 ∧
    t.attributeData = .ok attr ∧ ∀ flag p rest,
      unmarshalTransform p (t.bytes flag attr ++ rest) = .ok (p.add t, rest) := by
  obtain h | ⟨hpresent, hformat, htype, hvalue⟩ := h
  · refine ⟨[], by decide, by rw [h]; rfl, fun flag p rest => ?_⟩
    rw [unmarshalTransform_bytes _ flag rest (by decide), if_neg (by decide), ← h, ok_bind]
  · obtain ⟨ty, id, present, format, type, value, rest⟩ := t
    dsimp only at hpresent hformat htype hvalue
    subst hpresent hformat hvalue
    refine ⟨beBytes 2 (typeValueWord type).toNat ++ beBytes 2 value.toNat, by simp, rfl,
      fun flag p rest => ?_⟩
    have hdata : (Transform.bytes flag (beBytes 2 (typeValueWord type).toNat ++
        beBytes 2 value.toNat) ⟨ty, id, true, 1, type, value, []⟩ ++ rest).drop 8 =
        beBytes 2 (typeValueWord type).toNat ++ (beBytes 2 value.toNat ++ rest) := by
      simp [Transform.bytes, List.drop_append]
    rw [unmarshalTransform_bytes _ flag rest (by simp), if_pos (by simp), List.length_append,
      length_beBytes, length_beBytes, readAttribute_typeValue htype _ hdata, ok_bind]

theorem marshalTransforms_read {l : List Transform} (h : ∀ t ∈ l, t.Plain) :
    ∃ data, marshalTransforms l = .ok data ∧ ∀ n p, data.length ≤ n →
      loop 1 unmarshalTransform n p data = .ok (l.foldl Proposal.add p) := by
  induction l with
  | nil => exact ⟨[], rfl, fun n p _ => loop_done (by simp)⟩
  | cons t l ih =>
    obtain ⟨ht, hl⟩ := List.forall_mem_cons.mp h
    obtain ⟨attr, -, hattr, hread⟩ := ht.read
    obtain ⟨more, hmore, hloop⟩ := ih hl
    refine ⟨t.bytes (if l = [] then 0 else 3) attr ++ more, ?_, fun n p hn => ?_⟩
    · simp [marshalTransforms, hattr, hmore, Transform.bytes]
    · have hlen := length_transformBytes t (if l = [] then 0 else 3) attr more
      obtain ⟨n, rfl⟩ : ∃ k, n = k + 1 := ⟨n - 1, by omega⟩
      rw [loop_chunk (by simp [Transform.bytes]) (hread _ p more), hloop n _ (by omega)]
      rfl

/-! ### Transforms go back to their lists -/

/-- Transforms of one type are all put at the end of the list of that type. -/
theorem foldl_add {type : UInt8} {f : Proposal → List Transform → Proposal}
    (hadd : ∀ p t, t.transformType = type → p.add t = f p [t]) (hnil : ∀ p, f p [] = p)
    (happend : ∀ p a b, f (f p a) b = f p (a ++ b)) {l : List Transform}
    (hl : ∀ t ∈ l, t.transformType = type) (p : Proposal) : l.foldl Proposal.add p = f p l := by
  induction l generalizing p with
  | nil => exact (hnil p).symm
  | cons t l ih =>
    obtain ⟨ht, hrest⟩ := List.forall_mem_cons.mp hl
    rw [List.foldl_cons, ih hrest, hadd p t ht, happend]
    rfl

/-- A proposal that is read back. -/
structure Proposal.Plain (p : Proposal) : Prop where
  spi : p.spi.length ≤ 247
  transforms : p.transformList ≠ []
  plain : ∀ t ∈ p.transformList, t.Plain
  encryption : ∀ t ∈ p.encryptionAlgorithm, t.transformType = 1
  pseudorandom : ∀ t ∈ p.pseudorandomFunction, t.transformType = 2
  integrity : ∀ t ∈ p.integrityAlgorithm, t.transformType = 3
  diffieHellman : ∀ t ∈ p.diffieHellmanGroup, t.transformType = 4
  sequenceNumbers : ∀ t ∈ p.extendedSequenceNumbers, t.transformType = 5
  short : ∀ data, marshalTransforms p.transformList = .ok data →
    8 + p.spi.length + data.length < 2 ^ 16

theorem Proposal.Plain.foldl {p : Proposal} (h : p.Plain) :
    p.transformList.foldl Proposal.add
      { proposalNumber := p.proposalNumber, protocolID := p.protocolID, spi := p.spi } = p := by
  have h1 := foldl_add
    (f := fun p l => { p with encryptionAlgorithm := p.encryptionAlgorithm ++ l })
    (by intro p t ht; simp [Proposal.add, ht]) (by simp) (by simp) h.encryption
  have h2 := foldl_add
    (f := fun p l => { p with pseudorandomFunction := p.pseudorandomFunction ++ l })
    (by intro p t ht; simp [Proposal.add, ht]) (by simp) (by simp) h.pseudorandom
  have h3 := foldl_add (f := fun p l => { p with integrityAlgorithm := p.integrityAlgorithm ++ l })
    (by intro p t ht; simp [Proposal.add, ht]) (by simp) (by simp) h.integrity
  have h4 := foldl_add (f := fun p l => { p with diffieHellmanGroup := p.diffieHellmanGroup ++ l })
    (by intro p t ht; simp [Proposal.add, ht]) (by simp) (by simp) h.diffieHellman
  have h5 := foldl_add
    (f := fun p l => { p with extendedSequenceNumbers := p.extendedSequenceNumbers ++ l })
    (by intro p t ht; simp [Proposal.add, ht]) (by simp) (by simp) h.sequenceNumbers
  unfold Proposal.transformList
  simp only [List.foldl_append, h1, h2, h3, h4, h5, List.nil_append]

/-- What is written for a proposal with the bytes `data` of its transforms. -/
def Proposal.bytes (flag : UInt8) (data : List UInt8) (p : Proposal) : List UInt8 :=
  flag :: 0 :: (beBytes 2 (8 + p.spi.length + data.length) ++ (p.proposalNumber :: p.protocolID ::
    UInt8.ofNat p.spi.length :: UInt8.ofNat p.transformList.length :: (p.spi ++ data)))

theorem unmarshalProposal_bytes {p : Proposal} (h : p.Plain)
    (hdata : marshalTransforms p.transformList = .ok data) (hread : ∀ n q, data.length ≤ n →
      loop 1 unmarshalTransform n q data = .ok (p.transformList.foldl Proposal.add q))
    (flag : UInt8) (acc : List Proposal) (rest : List UInt8) :
    unmarshalProposal acc (p.bytes flag data ++ rest) = .ok (acc ++ [p], rest) := by
  have hspi := h.spi
  have hsize : (UInt8.ofNat p.spi.length).toNat = p.spi.length :=
    UInt8.toNat_ofNat_of_lt' (show _ < 256 by omega)
  have hend : (8 + UInt8.ofNat p.spi.length).toNat = 8 + p.spi.length := by
    have hmod : (8 + UInt8.ofNat p.spi.length).toNat =
        (8 + (UInt8.ofNat p.spi.length).toNat) % 256 := toNat_add_small (by decide) _
    omega
  have hlen : (p.bytes flag data).length = 8 + p.spi.length + data.length := by
    simp [Proposal.bytes]
    omega
  have hraw : (p.bytes flag data ++ rest).length =
      8 + p.spi.length + data.length + rest.length := by
    rw [List.length_append, hlen]
  have hsaid : saidLength (p.bytes flag data ++ rest) = 8 + p.spi.length + data.length := by
    unfold Proposal.bytes
    rw [List.cons_append, List.cons_append, List.append_assoc]
    exact saidLength_cons _ _ (h.short data hdata) _
  have hbody : (p.bytes flag data ++ rest).drop 8 = p.spi ++ (data ++ rest) := by
    simp [Proposal.bytes, List.drop_append]
  have hfields : (p.bytes flag data ++ rest).getD 4 0 = p.proposalNumber ∧
      (p.bytes flag data ++ rest).getD 5 0 = p.protocolID ∧
      (p.bytes flag data ++ rest).getD 6 0 = UInt8.ofNat p.spi.length := ⟨rfl, rfl, rfl⟩
  have hcut : cut (p.bytes flag data ++ rest) (8 + p.spi.length) (8 + p.spi.length + data.length) =
      .ok data := by
    rw [cut_eq (by omega) (by omega), ← List.drop_drop, hbody, List.drop_left,
      Nat.add_sub_cancel_left, List.take_left]
  have hspiRead : unmarshalSPI (p.bytes flag data ++ rest) (UInt8.ofNat p.spi.length) =
      .ok p.spi := by
    unfold unmarshalSPI
    rw [hend]
    split_ifs with hpos
    · rw [failIf_pass (by omega), cut_eq (by omega) (by omega), hbody, Nat.add_sub_cancel_left,
        List.take_left]
    · have hzero : p.spi.length = 0 := by
        rw [UInt8.lt_iff_toNat_lt, hsize] at hpos
        simpa using hpos
      rw [List.eq_nil_of_length_eq_zero hzero]
  unfold unmarshalProposal
  rw [chunkLength_eq (by decide) (by omega) (by omega), ok_bind, hsaid, index_eq (by omega),
    index_eq (by omega), index_eq (by omega)]
  simp only [ok_bind, hfields]
  rw [hspiRead, hend, ok_bind, hcut, ok_bind, hread _ _ (Nat.le_refl _), ok_bind, h.foldl,
    cut_drop (by omega), List.drop_left' hlen, ok_bind]

theorem marshalProposals_read {proposals : List Proposal} (h : ∀ p ∈ proposals, p.Plain) :
    ∃ data, marshalProposals proposals = .ok data ∧ ∀ n acc, data.length ≤ n →
      loop 1 unmarshalProposal n acc data = .ok (acc ++ proposals) := by
  induction proposals with
  | nil => exact ⟨[], rfl, fun n acc _ => by rw [loop_done (by simp), List.append_nil]⟩
  | cons p proposals ih =>
    obtain ⟨hp, hrest⟩ := List.forall_mem_cons.mp h
    obtain ⟨data, hdata, hread⟩ := marshalTransforms_read hp.plain
    obtain ⟨more, hmore, hloop⟩ := ih hrest
    refine ⟨p.bytes (if proposals = [] then 0 else 2) data ++ more, ?_, fun n acc hn => ?_⟩
    · rw [marshalProposals, failIf_pass hp.transforms, hdata, hmore]
      simp [Proposal.bytes]
    · obtain ⟨n, rfl⟩ : ∃ k, n = k + 1 := ⟨n - 1, by simp [Proposal.bytes] at hn; omega⟩
      rw [loop_chunk (by simp [Proposal.bytes]) (unmarshalProposal_bytes hp hdata hread _ acc more),
        hloop n _ (by simp [Proposal.bytes] at hn; omega), List.append_assoc]
      rfl

/-- A security association of plain proposals is read back as it was written. -/
theorem unmarshalProposals_marshalProposals {proposals : List Proposal}
    (h : ∀ p ∈ proposals, p.Plain) :
    (marshalProposals proposals >>= unmarshalProposals) = .ok proposals := by
  obtain ⟨data, hdata, hread⟩ := marshalProposals_read h
  rw [hdata, ok_bind]
  exact hread data.length [] (Nat.le_refl _)

/-- AES-CBC with a key length, a PRF and integrity protection. -/
def sampleProposal : Proposal where
  proposalNumber := 1
  protocolID := 1
  spi := [1, 2, 3, 4, 5, 6, 7, 8]
  encryptionAlgorithm := [⟨1, 12, true, 1, 14, 256, []⟩]
  pseudorandomFunction := [{ transformType := 2, transformID := 2 }]
  integrityAlgorithm := [{ transformType := 3, transformID := 2 }]

theorem sampleProposal_plain : sampleProposal.Plain := by
  refine ⟨by decide, by decide, ?_, ?_, ?_, ?_, ?_, ?_, ?_⟩
  all_goals simp [sampleProposal, Proposal.transformList, Transform.Plain]
  intro data hdata
  obtain rfl := Except.ok.inj hdata
  decide

theorem marshalProposals_sample :
    (marshalProposals [sampleProposal] >>= unmarshalProposals) = .ok [sampleProposal] :=
  unmarshalProposals_marshalProposals fun _ hp => List.mem_singleton.mp hp ▸ sampleProposal_plain

/-- A transform whose attribute has no value is not written. -/
theorem emptyAttribute_not_written :
    let p : Proposal := { sampleProposal with
      encryptionAlgorithm := [⟨1, 12, true, 0, 14, 0, []⟩] }
    (marshalProposals [p] >>= unmarshalProposals) ≠ .ok [p] := by
  decide

end Free5gc.Tngf.Ike
