/-
  TNGF: EAP packets, as both `pkg/ike/message` and `pkg/radius/message` write and read them (the
  two packages have the same code).

  A packet is read back as it was written if it has at most one method, the method has data and
  a vendor id takes 24 bits. Reading never leaves the data.
-/
import Free5gc.Lib.Decoder

namespace Free5gc.Tngf

open Free5gc.Lib

inductive EAPTypeFormat where
  | identity (identityData : List UInt8)
  | notification (notificationData : List UInt8)
  | nak (nakData : List UInt8)
  | expanded (vendorID vendorType : UInt32) (vendorData : List UInt8)
  deriving DecidableEq, Repr

structure EAP where
  code : UInt8
  identifier : UInt8
  eapTypeData : List EAPTypeFormat
  deriving DecidableEq, Repr

/-- `marshal` of the methods that are a type and data. -/
def marshalTyped (eapType : UInt8) (empty : String) (data : List UInt8) :
    Except Fault (List UInt8) :=
  if data = [] then .error (.error empty) else .ok (eapType :: data)

/-- The first word of an expanded method. -/
def typeAndVendorID (vendorID : UInt32) : UInt32 :=
  (254 : UInt32) <<< 24 ||| (vendorID &&& 0x00ffffff)

def EAPTypeFormat.marshal : EAPTypeFormat → Except Fault (List UInt8)
  | .identity data => marshalTyped 1 "EAPIdentity: EAP identity is empty" data
  | .notification data => marshalTyped 2 "EAPNotification: EAP notification is empty" data
  | .nak data => marshalTyped 3 "EAPNak: EAP nak is empty" data
  | .expanded vendorID vendorType vendorData =>
    .ok (beBytes 4 (typeAndVendorID vendorID).toNat ++
      (beBytes 4 vendorType.toNat ++ vendorData))

/-- Only the first method is written. -/
def marshalTypeData : List EAPTypeFormat → Except Fault (List UInt8)
  | [] => .ok []
  | data :: _ => wrapError "EAP: EAP type data marshal failed: " data.marshal

def EAP.marshal (eap : EAP) : Except Fault (List UInt8) := do
  let eapTypeData ← marshalTypeData eap.eapTypeData
  .ok (eap.code :: eap.identifier :: (beBytes 2 (4 + eapTypeData.length) ++ eapTypeData))

/-- The data from a position on, nothing if there is none. -/
def restFrom (raw : List UInt8) (k : Nat) : Except Fault (List UInt8) :=
  if k < raw.length then cut raw k raw.length else .ok []

def unmarshalExpanded (raw : List UInt8) : Except Fault EAPTypeFormat :=
  if raw = [] then .ok (.expanded 0 0 [])
  else if raw.length < 8 then
    .error (.error "EAPExpanded: No sufficient bytes to decode the EAP expanded type")
  else do
    let typeAndVendorID ← readU32 raw 0
    let vendorType ← readU32 raw 4
    let vendorData ← restFrom raw 8
    .ok (.expanded (UInt32.ofNat typeAndVendorID &&& 0x00ffffff) (UInt32.ofNat vendorType)
      vendorData)

/-- The switch on the type, with the `unmarshal` of the method it stands for. -/
def EAPTypeFormat.unmarshal (eapType : UInt8) (raw : List UInt8) : Except Fault EAPTypeFormat :=
  let failed := wrapError "EAP: Unamrshal EAP type data failed: "
  if eapType = 1 then failed (.identity <$> restFrom raw 1)
  else if eapType = 2 then failed (.notification <$> restFrom raw 1)
  else if eapType = 3 then failed (.nak <$> restFrom raw 1)
  else if eapType = 254 then failed (unmarshalExpanded raw)
  else .error (.error "EAP: Not supported EAP type")

/-- `EAP.unmarshal` for data of the length that its header says. -/
def EAP.unmarshalBody (raw : List UInt8) : Except Fault EAP := do
  let code ← index raw 0
  let identifier ← index raw 1
  if raw.length = 4 then .ok ⟨code, identifier, []⟩
  else do
    let eapType ← index raw 4
    let rest ← cut raw 4 raw.length
    let eapTypeData ← EAPTypeFormat.unmarshal eapType rest
    .ok ⟨code, identifier, [eapTypeData]⟩

def EAP.unmarshal (raw : List UInt8) : Except Fault EAP :=
  if raw = [] then .ok ⟨0, 0, []⟩
  else if raw.length < 4 then
    .error (.error "EAP: No sufficient bytes to decode next EAP payload")
  else do
    let eapPayloadLength ← readU16 raw 2
    if eapPayloadLength < 4 then
      .error (.error "EAP: Payload length specified in the header is too small for EAP")
    else if raw.length ≠ eapPayloadLength then
      .error (.error "EAP: Received payload length not matches the length specified in header")
    else EAP.unmarshalBody raw

/-! ## Reading stays inside the data -/

variable {raw : List UInt8}

theorem restFrom_eq (raw : List UInt8) (k : Nat) : restFrom raw k = .ok (raw.drop k) := by
  unfold restFrom
  split_ifs with h
  · exact cut_drop (Nat.le_of_lt h)
  · rw [List.drop_eq_nil_of_le (by omega)]

theorem unmarshalExpanded_eq (h : 8 ≤ raw.length) :
    unmarshalExpanded raw = .ok (.expanded (UInt32.ofNat (beNat (raw.take 4)) &&& 0x00ffffff)
      (UInt32.ofNat (beNat ((raw.drop 4).take 4))) (raw.drop 8)) := by
  have hne : raw ≠ [] := by rintro rfl; simp at h
  unfold unmarshalExpanded
  rw [if_neg hne, if_neg (by omega), readU32_eq (by omega), readU32_eq (by omega), restFrom_eq]
  simp

theorem EAPTypeFormat.sound_unmarshal (eapType : UInt8) (raw : List UInt8) :
    Sound (EAPTypeFormat.unmarshal eapType raw) := by
  have hexpanded : Sound (unmarshalExpanded raw) := by
    by_cases h : 8 ≤ raw.length
    · simp [unmarshalExpanded_eq h]
    · unfold unmarshalExpanded
      split_ifs
      · simp
      · simp
      · omega
  unfold EAPTypeFormat.unmarshal
  simp only [restFrom_eq, Except.map_ok]
  split_ifs
  all_goals simp [sound_wrapError, hexpanded]

theorem EAP.sound_unmarshal (raw : List UInt8) : Sound (EAP.unmarshal raw) := by
  unfold EAP.unmarshal
  split_ifs with hnil hshort
  · simp
  · simp
  · rw [readU16_eq (by omega), ok_bind]
    split_ifs with hlow hlen
    · simp
    · simp
    · unfold EAP.unmarshalBody
      rw [index_eq (by omega), index_eq (by omega), ok_bind, ok_bind]
      split_ifs with hfour
      · simp
      · rw [index_eq (by omega), cut_drop (by omega), ok_bind, ok_bind, sound_bind]
        exact ⟨EAPTypeFormat.sound_unmarshal _ _, fun _ _ => sound_ok _⟩

/-- An expanded method has 12 bytes before its data. -/
theorem EAP.length_of_unmarshal_expanded {vendorData : List UInt8} {code identifier : UInt8}
    {vendorID vendorType : UInt32}
    (h : EAP.unmarshal raw = .ok ⟨code, identifier, [.expanded vendorID vendorType vendorData]⟩) :
    raw.length = 12 + vendorData.length := by
  unfold EAP.unmarshal at h
  split_ifs at h with hnil hshort
  · cases h
  rw [readU16_eq (by omega), ok_bind] at h
  split_ifs at h with hlow hlen
  unfold EAP.unmarshalBody at h
  rw [index_eq (by omega), index_eq (by omega), ok_bind, ok_bind] at h
  split_ifs at h with hfour
  · cases h
  rw [index_eq (by omega), cut_drop (by omega), ok_bind, ok_bind] at h
  obtain ⟨method, hmethod, h⟩ := bind_eq_ok.mp h
  obtain rfl : method = .expanded vendorID vendorType vendorData := by
    simpa using congrArg EAP.eapTypeData (Except.ok.inj h)
  unfold EAPTypeFormat.unmarshal at hmethod
  simp only [restFrom_eq, Except.map_ok] at hmethod
  split_ifs at hmethod
  any_goals cases hmethod
  have hexpanded := wrapError_eq_ok.mp hmethod
  by_cases height : 8 ≤ (raw.drop 4).length
  · rw [unmarshalExpanded_eq height] at hexpanded
    obtain rfl := (EAPTypeFormat.expanded.inj (Except.ok.inj hexpanded)).2.2
    simp at height ⊢
    omega
  · have hrest : raw.drop 4 ≠ [] := fun hnone => by
      have := congrArg List.length hnone
      simp at this
      omega
    rw [unmarshalExpanded, if_neg hrest, if_pos (by omega)] at hexpanded
    cases hexpanded

/-! ## Round trip -/

/-- A method that `marshal` writes whole. -/
def EAPTypeFormat.Whole : EAPTypeFormat → Prop
  | .identity data | .notification data | .nak data => data ≠ []
  | .expanded vendorID _ _ => vendorID.toNat < 2 ^ 24

theorem toNat_typeAndVendorID (vendorID : UInt32) :
    (typeAndVendorID vendorID).toNat = 254 * 2 ^ 24 + vendorID.toNat % 2 ^ 24 := by
  have hmask : (vendorID &&& 0x00ffffff).toNat = vendorID.toNat % 2 ^ 24 :=
    (UInt32.toNat_and _ _).trans (Nat.and_two_pow_sub_one_eq_mod _ 24)
  unfold typeAndVendorID
  rw [UInt32.toNat_or, hmask]
  exact or_eq_add 254 (show vendorID.toNat % 2 ^ 24 < 2 ^ 24 by omega)

theorem vendorID_read {vendorID : UInt32} (h : vendorID.toNat < 2 ^ 24) :
    typeAndVendorID vendorID &&& 0x00ffffff = vendorID := by
  apply UInt32.toNat_inj.mp
  rw [UInt32.toNat_and, toNat_typeAndVendorID]
  show _ &&& (2 ^ 24 - 1) = _
  rw [Nat.and_two_pow_sub_one_eq_mod]
  omega

theorem expanded_eq_cons (vendorID : UInt32) (rest : List UInt8) :
    ∃ tail, beBytes 4 (typeAndVendorID vendorID).toNat ++ rest = 254 :: tail := by
  refine ⟨_, congrArg (· :: _) ?_⟩
  rw [toNat_typeAndVendorID]
  have hdigit : (254 * 2 ^ 24 + vendorID.toNat % 2 ^ 24) / 256 ^ 3 = 254 := by omega
  rw [hdigit]
  rfl

theorem EAPTypeFormat.unmarshal_written {data : EAPTypeFormat} (h : data.Whole) :
    ∃ eapType tail, data.marshal = .ok (eapType :: tail) ∧
      EAPTypeFormat.unmarshal eapType (eapType :: tail) = .ok data := by
  cases data with
  | identity data =>
    refine ⟨1, data, if_neg h, ?_⟩
    simp [EAPTypeFormat.unmarshal, restFrom_eq, wrapError]
  | notification data =>
    refine ⟨2, data, if_neg h, ?_⟩
    simp [EAPTypeFormat.unmarshal, restFrom_eq, wrapError]
  | nak data =>
    refine ⟨3, data, if_neg h, ?_⟩
    simp [EAPTypeFormat.unmarshal, restFrom_eq, wrapError]
  | expanded vendorID vendorType vendorData =>
    obtain ⟨tail, htail⟩ := expanded_eq_cons vendorID (beBytes 4 vendorType.toNat ++ vendorData)
    refine ⟨254, tail, congrArg Except.ok htail, ?_⟩
    rw [← htail]
    have hlen : 8 ≤ (beBytes 4 (typeAndVendorID vendorID).toNat ++
        (beBytes 4 vendorType.toNat ++ vendorData)).length := by
      simp only [List.length_append, length_beBytes]
      omega
    have hdrop : (beBytes 4 (typeAndVendorID vendorID).toNat ++
        (beBytes 4 vendorType.toNat ++ vendorData)).drop 8 = vendorData := by
      rw [← List.drop_drop (i := 4) (j := 4), drop_beBytes, drop_beBytes]
    simp [EAPTypeFormat.unmarshal, unmarshalExpanded_eq hlen, hdrop, vendorID_read h,
      ofNat_beBytes_32, wrapError]

/-- A packet that `EAP.marshal` writes whole. -/
structure EAP.Whole (eap : EAP) : Prop where
  single : eap.eapTypeData.length ≤ 1
  method : ∀ data ∈ eap.eapTypeData, data.Whole

theorem EAP.Whole.written {eap : EAP} (h : eap.Whole) : ∃ raw, eap.marshal = .ok raw := by
  obtain ⟨code, identifier, methods⟩ := eap
  cases methods with
  | nil => exact ⟨_, rfl⟩
  | cons data rest =>
    obtain ⟨eapType, tail, hmarshal, -⟩ :=
      EAPTypeFormat.unmarshal_written (h.method data List.mem_cons_self)
    exact ⟨_, by simp [EAP.marshal, marshalTypeData, hmarshal, wrapError]; rfl⟩

theorem EAP.unmarshal_header (code identifier : UInt8) {data : List UInt8}
    (h : 4 + data.length < 2 ^ 16) :
    EAP.unmarshal (code :: identifier :: (beBytes 2 (4 + data.length) ++ data)) =
      EAP.unmarshalBody (code :: identifier :: (beBytes 2 (4 + data.length) ++ data)) := by
  unfold EAP.unmarshal
  rw [if_neg (List.cons_ne_nil _ _), if_neg (by simp), readU16_eq (by simp)]
  simp only [List.drop_succ_cons, List.drop_zero, take_beBytes, ok_bind,
    beNat_beBytes_of_lt (show 4 + data.length < 256 ^ 2 from h)]
  rw [if_neg (by omega), if_neg (by simp; omega)]

theorem EAP.unmarshal_written {eap : EAP} (h : eap.Whole) (hraw : eap.marshal = .ok raw)
    (hlen : raw.length < 2 ^ 16) : EAP.unmarshal raw = .ok eap := by
  obtain ⟨code, identifier, methods⟩ := eap
  rcases methods with _ | ⟨data, _ | ⟨_, _⟩⟩
  · obtain rfl := Except.ok.inj hraw
    exact EAP.unmarshal_header code identifier (by decide)
  · obtain ⟨eapType, tail, hmarshal, hread⟩ :=
      EAPTypeFormat.unmarshal_written (h.method data List.mem_cons_self)
    simp only [EAP.marshal, marshalTypeData, hmarshal, wrapError, ok_bind] at hraw
    obtain rfl := Except.ok.inj hraw
    rw [EAP.unmarshal_header _ _ (by simp at hlen ⊢; omega)]
    unfold EAP.unmarshalBody
    rw [index_eq (by simp), index_eq (by simp), index_eq (by simp; omega), cut_drop (by simp)]
    simp [hread, beBytes]
  · have := h.single
    simp at this

end Free5gc.Tngf
