/-
  TNGF: the EAP-5G data of a response (`pkg/radius/handler/3gpp_types.go`).

  `UnmarshalEAP5GData` steps over an AN parameter by `2 + parameterLength` in 8 bits and over all
  of them by `2 + anParameterLength` in 16, and cuts at that place without a check of its own.
  `unmarshalEAP5GData_total_iff` says for which data the steps are the ones that were meant.

  APER decoding is not in the repository: it is a parameter.
-/
import Free5gc.Lib.Decoder

namespace Free5gc.Tngf.Radius

open Free5gc.Lib

structure SNSSAI where
  sst : UInt8
  sd : Option (List UInt8)
  deriving DecidableEq, Repr

structure MobileIdentity5GS where
  iei : UInt8
  contents : List UInt8
  deriving DecidableEq, Repr

/-- `aper.UnmarshalWithParams` for the two types that it is called with. -/
structure Aper (GUAMI PLMNIdentity : Type) where
  guami : List UInt8 → Option GUAMI
  plmn : List UInt8 → Option PLMNIdentity

structure ANParameters (GUAMI PLMNIdentity : Type) where
  guami : Option GUAMI := none
  selectedPLMNID : Option PLMNIdentity := none
  requestedNSSAI : Option (List SNSSAI) := none
  establishmentCause : Option UInt8 := none
  ueIdentity : Option MobileIdentity5GS := none
  deriving DecidableEq, Repr

variable {G P : Type}

/-- The value of the parameter at the start of a field. -/
def parameterValue (field : List UInt8) (parameterLength : UInt8) : Except Fault (List UInt8) := do
  let parameterValue ← cut field 2 field.length
  failIf (parameterValue.length < parameterLength.toNat) "error formatting"
  cut parameterValue 0 parameterLength.toNat

/-- The result of an APER decoder. -/
def decoded {α : Type} (text : String) : Option α → Except Fault α
  | some a => .ok a
  | none => .error (.error text)

def readSNSSAI (snssaiValue : List UInt8) : Except Fault SNSSAI := do
  failIf (snssaiValue.length ≠ 1 ∧ snssaiValue.length ≠ 4) "error formatting"
  let sst ← index snssaiValue 0
  .ok ⟨sst, if snssaiValue.length = 1 then none else some (snssaiValue.drop 1)⟩

/-- One S-NSSAI of the requested ones. Its length is 1 or 4 when `1 + snssaiLength` is taken. -/
def unmarshalSNSSAI (nssai : List SNSSAI) (value : List UInt8) :
    Except Fault (List SNSSAI × List UInt8) := do
  let snssaiLength ← index value 0
  let snssaiValue ← cut value 1 value.length
  failIf (snssaiValue.length < snssaiLength.toNat) "error formatting"
  let snssaiValue ← cut snssaiValue 0 snssaiLength.toNat
  let snssai ← readSNSSAI snssaiValue
  let rest ← cut value (1 + snssaiLength).toNat value.length
  .ok (nssai ++ [snssai], rest)

/-- A cause that is not known counts as mo-Data. -/
def establishmentCause (octet : UInt8) : UInt8 :=
  if octet &&& 0x0f ∈ [0, 1, 3, 4, 8, 9] then octet &&& 0x0f else 4

def readUEIdentity (value : List UInt8) : Except Fault MobileIdentity5GS := do
  failIf (value.length < 3) "invalid UEIdentity parameter: missing IEI/length"
  let iei ← index value 0
  let valLen ← readU16 value 1
  let mobileIdentityContents ← cut value 3 value.length
  failIf (valLen ≠ mobileIdentityContents.length) "invalid UEIdentity parameter: length mismatch"
  .ok ⟨iei, mobileIdentityContents⟩

/-- The switch on the type: what the parameter at the start of a field sets. -/
def readParameter (aper : Aper G P) (parameterType parameterLength : UInt8) (field : List UInt8) :
    Except Fault (ANParameters G P → ANParameters G P) :=
  if parameterLength = 0 then .ok id
  else if parameterType = 1 then do
    let value ← parameterValue field parameterLength
    failIf (value.length ≠ 6) "unmatched GUAMI length"
    let guami ← decoded "unmarshal failed when decoding GUAMI" (aper.guami (0 :: value))
    .ok fun p => { p with guami := some guami }
  else if parameterType = 2 then do
    let value ← parameterValue field parameterLength
    failIf (value.length ≠ 3) "unmatched PLMN ID length"
    let plmn ← decoded "unmarshal failed when decoding PLMN" (aper.plmn (0 :: value))
    .ok fun p => { p with selectedPLMNID := some plmn }
  else if parameterType = 3 then do
    let value ← parameterValue field parameterLength
    let nssai ← loop 2 unmarshalSNSSAI value.length [] value
    .ok fun p => { p with requestedNSSAI := some nssai }
  else if parameterType = 4 then do
    let value ← parameterValue field parameterLength
    failIf (value.length ≠ 1) "unmatched Establishment Cause length"
    let octet ← index value 0
    .ok fun p => { p with establishmentCause := some (establishmentCause octet) }
  else if parameterType = 5 then do
    let _ ← parameterValue field parameterLength
    .ok id
  else if parameterType = 6 then do
    failIf (parameterLength < 3) "invalid UEIdentity parameter: too short"
    let value ← parameterValue field parameterLength
    let ueIdentity ← readUEIdentity value
    .ok fun p => { p with ueIdentity := some ueIdentity }
  else .ok id

def unmarshalParameter (aper : Aper G P) (p : ANParameters G P) (field : List UInt8) :
    Except Fault (ANParameters G P × List UInt8) := do
  let parameterType ← index field 0
  let parameterLength ← index field 1
  let set ← readParameter aper parameterType parameterLength field
  let rest ← cut field (2 + parameterLength).toNat field.length
  .ok (set p, rest)

def unmarshalANParameters (aper : Aper G P) (anParameterLength : Nat) (codedData : List UInt8) :
    Except Fault (Option (ANParameters G P)) :=
  if anParameterLength = 0 then .ok none
  else do
    let field ← cut codedData 2 codedData.length
    failIf (field.length < anParameterLength) "error formatting"
    let field ← cut field 0 anParameterLength
    some <$> loop 2 (unmarshalParameter aper) field.length {} field

def unmarshalNASPDU (codedData : List UInt8) : Except Fault (List UInt8) := do
  failIf (codedData.length < 2) "error formatting"
  let nasPDULength ← readU16 codedData 0
  failIf (nasPDULength = 0) "no NAS PDU"
  let nasPDUField ← cut codedData 2 codedData.length
  failIf (nasPDUField.length < nasPDULength) "error formatting"
  cut nasPDUField 0 nasPDULength

def unmarshalEAP5GData (aper : Aper G P) (codedData : List UInt8) :
    Except Fault (UInt8 × Option (ANParameters G P) × List UInt8) := do
  failIf (codedData.length < 2) "no data to decode"
  let eap5GMessageID ← index codedData 0
  failIf (eap5GMessageID = 4) "eap5GType5GStop"
  let codedData ← cut codedData 2 codedData.length
  failIf (codedData.length < 2) "error formatting"
  let anParameterLength ← readU16 codedData 0
  let anParameters ← unmarshalANParameters aper anParameterLength codedData
  let codedData ← cut codedData ((2 + anParameterLength) % 2 ^ 16) codedData.length
  let nasPDU ← unmarshalNASPDU codedData
  .ok (eap5GMessageID, anParameters, nasPDU)

/-! ## One parameter -/

variable {field data : List UInt8}

theorem sound_parameterValue {α : Type} {n : UInt8} {f : List UInt8 → Except Fault α}
    (h : 2 ≤ field.length) (hf : ∀ value, value.length = n.toNat → Sound (f value)) :
    Sound (parameterValue field n >>= f) := by
  have hvalue : Sound (parameterValue field n) ∧
      ∀ value, parameterValue field n = .ok value → value.length = n.toNat := by
    unfold parameterValue
    rw [cut_drop h, ok_bind, sound_failIf]
    refine ⟨fun hlong => ?_, fun value hvalue => ?_⟩
    · rw [cut_eq (Nat.zero_le _) (by omega)]
      exact sound_ok _
    · obtain ⟨hlong, hcut⟩ := failIf_eq_ok.mp hvalue
      rw [cut_eq (Nat.zero_le _) (by omega)] at hcut
      obtain rfl := Except.ok.inj hcut
      simp at hlong ⊢
      omega
  exact sound_bind.mpr ⟨hvalue.1, fun value hok => hf value (hvalue.2 value hok)⟩

theorem toNat_two_add (n : UInt8) : (2 + n).toNat = (2 + n.toNat) % 256 := by
  rw [UInt8.toNat_add]
  rfl

/-- A turn over the S-NSSAIs stays inside the data and takes something off it. -/
theorem unmarshalSNSSAI_turn (nssai : List SNSSAI) {value : List UInt8} (h : 2 ≤ value.length) :
    Sound (unmarshalSNSSAI nssai value) ∧
      ∀ r, unmarshalSNSSAI nssai value = .ok r → r.2.length < value.length := by
  have hnext : (1 + value.getD 0 0).toNat = (1 + (value.getD 0 0).toNat) % 256 := by
    rw [UInt8.toNat_add]
    rfl
  unfold unmarshalSNSSAI readSNSSAI
  rw [index_eq (by omega), ok_bind, cut_drop (by omega), ok_bind]
  refine ⟨sound_failIf.mpr fun hlong => ?_, fun r hr => ?_⟩
  · rw [cut_eq (Nat.zero_le _) (by omega), ok_bind]
    refine sound_bind.mpr ⟨sound_failIf.mpr fun hsize => ?_, fun snssai hread => ?_⟩
    · rw [index_eq (by omega)]
      exact sound_ok _
    · obtain ⟨hsize, -⟩ := failIf_eq_ok.mp hread
      simp only [List.drop_zero, List.length_take, List.length_drop] at hlong hsize
      rw [cut_drop (by omega)]
      exact sound_ok _
  · obtain ⟨hlong, hr⟩ := failIf_eq_ok.mp hr
    rw [cut_eq (Nat.zero_le _) (by omega), ok_bind] at hr
    obtain ⟨snssai, hread, hr⟩ := bind_eq_ok.mp hr
    obtain ⟨hsize, -⟩ := failIf_eq_ok.mp hread
    simp only [List.drop_zero, List.length_take, List.length_drop] at hlong hsize
    rw [cut_drop (by omega)] at hr
    obtain rfl := Except.ok.inj hr
    simp only [List.length_drop]
    omega

theorem sound_readParameter (aper : Aper G P) (t n : UInt8) (h : 2 ≤ field.length) :
    Sound (readParameter aper t n field) := by
  have hdecoded : ∀ {α β : Type} (text : String) (x : Option α) (f : α → β),
      Sound (decoded text x >>= fun a => .ok (f a)) := by
    intro α β text x f
    cases x
    · exact sound_error text
    · exact sound_ok _
  unfold readParameter
  split_ifs with h0 h1 h2 h3 h4 h5 h6
  · exact sound_ok _
  · exact sound_parameterValue h fun value _ => sound_failIf.mpr fun _ => hdecoded _ _ _
  · exact sound_parameterValue h fun value _ => sound_failIf.mpr fun _ => hdecoded _ _ _
  · refine sound_parameterValue h fun value _ => ?_
    rw [sound_bind_of_sound fun _ => sound_ok _, sound_loop (by decide)
      (fun nssai d r hd hr => (unmarshalSNSSAI_turn nssai hd).2 r hr) (Nat.le_refl _)]
    intro turn hturn
    exact (unmarshalSNSSAI_turn turn.1 (length_of_mem_turns hturn)).1
  · refine sound_parameterValue h fun value _ => sound_failIf.mpr fun hone => ?_
    rw [index_eq (by omega)]
    exact sound_ok _
  · exact sound_parameterValue h fun value _ => sound_ok _
  · refine sound_failIf.mpr fun _ => sound_parameterValue h fun value _ => ?_
    rw [sound_bind_of_sound fun _ => sound_ok _]
    refine sound_failIf.mpr fun hlong => ?_
    rw [index_eq (by omega), readU16_eq (by omega), cut_drop (by omega)]
    exact sound_failIf.mpr fun _ => sound_ok _
  · exact sound_ok _

/-! ## All parameters -/

/-- The length that the parameter at the start of a field says it has. -/
def saidLength (field : List UInt8) : Nat := (field.getD 1 0).toNat

/-- The turn over a parameter, if it comes to an end, moves on by the parameter's own length. -/
def StepsOver (aper : Aper G P) (p : ANParameters G P) (field : List UInt8) : Prop :=
  ∀ r, unmarshalParameter aper p field = .ok r →
    2 + saidLength field ≤ field.length ∧ r.2 = field.drop (2 + saidLength field)

/-- Every parameter that is not rejected has at most 253 bytes, all of them in the field. -/
def ParametersFit (aper : Aper G P) : Nat → List UInt8 → Prop
  | 0, _ => True
  | n + 1, field => 2 ≤ field.length →
    ∀ set, readParameter aper (field.getD 0 0) (field.getD 1 0) field = .ok set →
      saidLength field ≤ 253 ∧ 2 + saidLength field ≤ field.length ∧
        ParametersFit aper n (field.drop (2 + saidLength field))

theorem unmarshalParameter_eq (aper : Aper G P) (p : ANParameters G P) (h : 2 ≤ field.length) :
    unmarshalParameter aper p field =
      (readParameter aper (field.getD 0 0) (field.getD 1 0) field >>= fun set =>
        cut field ((2 + saidLength field) % 256) field.length >>= fun rest =>
          .ok (set p, rest)) := by
  unfold unmarshalParameter
  rw [index_eq (by omega), index_eq (by omega), ok_bind, ok_bind, toNat_two_add]
  rfl

/-- The loop over the parameters is sound and steps over each by its own length exactly if they
    fit. A length of 254 or 255 wraps, and then the step is not by that length. -/
theorem loop_unmarshalParameter_iff (aper : Aper G P) {n : Nat} {p : ANParameters G P}
    (hn : field.length ≤ n) :
    (Sound (loop 2 (unmarshalParameter aper) n p field) ∧
        ∀ t ∈ turns 2 (unmarshalParameter aper) n p field, StepsOver aper t.1 t.2) ↔
      ParametersFit aper n field := by
  induction n generalizing p field with
  | zero => simp [loop_done (show field.length < 2 by omega), turns, ParametersFit]
  | succ n ih =>
    by_cases hshort : field.length < 2
    · simp [loop_done hshort, turns, hshort, ParametersFit]
    have hlen : saidLength field < 256 := (field.getD 1 0).toNat_lt
    have htwo : 2 ≤ field.length := Nat.le_of_not_lt hshort
    have hturn := unmarshalParameter_eq aper p htwo
    have hread := sound_readParameter aper (field.getD 0 0) (field.getD 1 0) htwo
    rw [loop_succ (by omega), turns_succ (by omega), List.forall_mem_cons, ParametersFit]
    cases hset : readParameter aper (field.getD 0 0) (field.getD 1 0) field with
    | error e =>
      rw [hset, error_bind] at hturn
      rw [hset] at hread
      simp [StepsOver, hturn, Except.toOption, Sound] at hread ⊢
      exact hread
    | ok set =>
      rw [hset, ok_bind] at hturn
      by_cases hfits : saidLength field ≤ 253 ∧ 2 + saidLength field ≤ field.length
      · have hstep : unmarshalParameter aper p field =
            .ok (set p, field.drop (2 + saidLength field)) := by
          rw [hturn, Nat.mod_eq_of_lt (by omega), cut_drop hfits.2, ok_bind]
        have hshorter : (field.drop (2 + saidLength field)).length ≤ n := by
          simp
          omega
        have hrest := ih (p := set p) hshorter
        simp [StepsOver, hstep, Except.toOption, hfits, ← hrest, htwo]
      · refine iff_of_false (fun hok => ?_) fun h => ?_
        · -- the cut lies outside the data, or takes less than the parameter
          by_cases hcut : (2 + saidLength field) % 256 ≤ field.length
          · rw [cut_drop hcut, ok_bind] at hturn
            obtain ⟨hin, hrest⟩ := hok.2.1 _ hturn
            have := congrArg List.length hrest
            simp only [List.length_drop] at this
            omega
          · rw [hturn, cut_outside (by omega)] at hok
            simp at hok
        · have := h (by omega) set rfl
          exact hfits ⟨this.1, this.2.1⟩

/-! ## The whole -/

/-- The length of the AN parameters, and the bytes of them. -/
def anParameterLength (data : List UInt8) : Nat := beNat ((data.drop 2).take 2)

def anParameterField (data : List UInt8) : List UInt8 :=
  (data.drop 4).take (anParameterLength data)

/-- `pdu` is what the NAS PDU length behind the AN parameters announces. -/
def Announced (data pdu : List UInt8) : Prop :=
  let nas := data.drop (4 + anParameterLength data)
  2 + pdu.length ≤ nas.length ∧ beNat (nas.take 2) = pdu.length ∧ pdu = (nas.drop 2).take pdu.length

/-- The AN parameters are looked at. -/
def ParametersReached (data : List UInt8) : Prop :=
  4 + anParameterLength data ≤ data.length ∧ data.getD 0 0 ≠ 4

/-- What the parser is for: it returns a result or an error, it steps over each AN parameter by
    its own length, and what it returns is the NAS PDU that the data announce. -/
structure Parses (aper : Aper G P) (data : List UInt8) : Prop where
  sound : Sound (unmarshalEAP5GData aper data)
  steps : ParametersReached data → ∀ t ∈ turns 2 (unmarshalParameter aper)
    (anParameterLength data) {} (anParameterField data), StepsOver aper t.1 t.2
  nasPDU : ∀ r, unmarshalEAP5GData aper data = .ok r → Announced data r.2.2

/-- The NAS PDU stands where it is looked for. The AN parameters have at most 65533 bytes; or they
    have 65534, and are the announced NAS PDU themselves; or they have 65535, and the announced NAS
    PDU is their bytes from the second on, as many as `0xff` and the first one say, if there are so
    many. -/
def NASInPlace (data : List UInt8) : Prop :=
  let nas := data.drop (4 + anParameterLength data)
  let n := 65280 + (data.getD 4 0).toNat
  anParameterLength data ≤ 65533 ∨
    anParameterLength data = 65534 ∧ beNat (nas.take 2) = 65534 ∧
      (nas.drop 2).take 65534 = anParameterField data ∨
    anParameterLength data = 65535 ∧ (data.length < 5 + n ∨
      beNat (nas.take 2) = n ∧ (nas.drop 2).take n = (data.drop 5).take n)

theorem sound_unmarshalNASPDU (data : List UInt8) : Sound (unmarshalNASPDU data) := by
  unfold unmarshalNASPDU
  refine sound_failIf.mpr fun hlong => ?_
  rw [readU16_eq (by omega), ok_bind]
  refine sound_failIf.mpr fun _ => ?_
  rw [cut_drop (by omega), ok_bind]
  refine sound_failIf.mpr fun _ => ?_
  rw [cut_eq (Nat.zero_le _) (by omega)]
  exact sound_ok _

theorem unmarshalNASPDU_ok_iff {pdu : List UInt8} :
    unmarshalNASPDU data = .ok pdu ↔ 0 < beNat (data.take 2) ∧
      2 + beNat (data.take 2) ≤ data.length ∧ pdu = (data.drop 2).take (beNat (data.take 2)) := by
  unfold unmarshalNASPDU
  by_cases hlong : data.length < 2
  · simp only [failIf, if_pos hlong, error_bind, reduceCtorEq, false_iff]
    omega
  rw [failIf_pass hlong, readU16_eq (by omega), ok_bind, failIf_eq_ok, cut_drop (by omega), ok_bind,
    failIf_eq_ok, List.drop_zero, List.length_drop]
  constructor
  · rintro ⟨hsome, hin, h⟩
    rw [cut_eq (Nat.zero_le _) (by rw [List.length_drop]; omega)] at h
    exact ⟨by omega, by omega, (Except.ok.inj h).symm⟩
  · rintro ⟨hsome, hin, rfl⟩
    refine ⟨by omega, by omega, ?_⟩
    rw [cut_eq (Nat.zero_le _) (by rw [List.length_drop]; omega)]
    rfl

/-- The bytes at `k` are the announced ones exactly if they are there twice. -/
theorem announced_iff (data : List UInt8) (k : Nat) {n : Nat} (hpos : 0 < n) (hin : k + n ≤ data.length) :
    Announced data ((data.drop k).take n) ↔
      let nas := data.drop (4 + anParameterLength data)
      beNat (nas.take 2) = n ∧ (nas.drop 2).take n = (data.drop k).take n := by
  have hlen : ((data.drop k).take n).length = n :=
    List.length_take_of_le (by rw [List.length_drop]; omega)
  unfold Announced
  rw [hlen]
  refine ⟨fun h => ⟨h.2.1, h.2.2.symm⟩, fun h => ⟨?_, h.1, h.2.symm⟩⟩
  have hsame := congrArg List.length h.2
  rw [hlen, List.length_take, List.length_drop] at hsame
  omega

/-- With 65535 bytes of AN parameters the length of the NAS PDU is read from the second byte of
    their length and from the first of them. -/
theorem beNat_shifted (h : ParametersReached data) (hfull : anParameterLength data = 65535) :
    beNat ((data.drop 3).take 2) = 65280 + (data.getD 4 0).toNat := by
  have hin : 5 ≤ data.length := by
    have := h.1
    omega
  match data, hin, hfull with
  | a :: b :: c :: d :: e :: tail, _, hfull =>
    have hc := c.toNat_lt
    have hd := d.toNat_lt
    have hlow : d.toNat = 255 := by
      change (0 * 256 + c.toNat) * 256 + d.toNat = 65535 at hfull
      omega
    simp [beNat, hlow]

theorem nasInPlace_iff (h : ParametersReached data) : NASInPlace data ↔
    ∀ pdu, unmarshalNASPDU (data.drop (2 + (2 + anParameterLength data) % 2 ^ 16)) = .ok pdu →
      Announced data pdu := by
  have hin := h.1
  have hmax : anParameterLength data < 65536 :=
    Nat.lt_of_lt_of_le (beNat_lt _) (Nat.pow_le_pow_right (by decide) (List.length_take_le 2 _))
  simp only [unmarshalNASPDU_ok_iff, List.drop_drop, List.length_drop, and_imp]
  obtain hsmall | hedge | hfull : anParameterLength data ≤ 65533 ∨
    anParameterLength data = 65534 ∨ anParameterLength data = 65535 := by omega
  · rw [Nat.mod_eq_of_lt (by omega), ← Nat.add_assoc]
    refine iff_of_true (.inl hsmall) ?_
    rintro pdu hpos hlong rfl
    exact (announced_iff data _ hpos (by omega)).mpr ⟨rfl, by rw [List.drop_drop]⟩
  · have hread : beNat ((data.drop 2).take 2) = 65534 := hedge
    have hplace := announced_iff data 4 (n := 65534) (by omega) (by omega)
    rw [hedge] at hplace hin
    simp only [NASInPlace, anParameterField, hedge, ← hplace, Nat.reduceAdd, Nat.reducePow,
      Nat.reduceMod, hread]
    constructor
    · rintro (_ | ⟨-, hthere⟩ | _) pdu _ _ rfl
      · omega
      · exact hthere
      · omega
    · exact fun hall => .inr (.inl ⟨trivial, hall _ (by omega) (by omega) rfl⟩)
  · have hread := beNat_shifted h hfull
    have hplace := announced_iff data 5 (n := 65280 + (data.getD 4 0).toNat)
      (by omega)
    simp only [NASInPlace, hfull, Nat.reduceAdd, Nat.reducePow, Nat.reduceMod, hread] at hplace ⊢
    constructor
    · rintro (_ | _ | ⟨-, hthere⟩) pdu _ hlong rfl
      · omega
      · omega
      · exact (hplace (by omega)).mpr (hthere.resolve_left (by omega))
    · intro hall
      refine .inr (.inr ⟨trivial, or_iff_not_imp_left.mpr fun hlong => (hplace (by omega)).mp ?_⟩)
      exact hall _ (by omega) (by omega) rfl

theorem unmarshalEAP5GData_rejected (aper : Aper G P) (h : ¬ParametersReached data) :
    ∃ text, unmarshalEAP5GData aper data = .error (.error text) := by
  unfold unmarshalEAP5GData
  by_cases hdata : data.length < 2
  · exact ⟨_, by rw [failIf, if_pos hdata]; rfl⟩
  rw [failIf_pass hdata, index_eq (by omega), ok_bind]
  by_cases hstop : data.getD 0 0 = 4
  · exact ⟨_, by rw [failIf, if_pos hstop]; rfl⟩
  rw [failIf_pass hstop, cut_drop (by omega), ok_bind]
  by_cases hshort : (data.drop 2).length < 2
  · exact ⟨_, by rw [failIf, if_pos hshort]; rfl⟩
  rw [failIf_pass hshort, readU16_eq (by omega), ok_bind]
  simp only [List.length_drop] at hshort
  have hlong : ¬4 + anParameterLength data ≤ data.length := fun hin => h ⟨hin, hstop⟩
  have hfield : (data.drop 4).length < beNat ((data.drop 2).take 2) := by
    unfold anParameterLength at hlong
    simp only [List.length_drop]
    omega
  unfold unmarshalANParameters
  rw [if_neg (by simp only [List.drop_zero]; omega), cut_drop (by simp; omega), ok_bind,
    List.drop_drop, List.drop_zero, failIf, if_pos hfield]
  exact ⟨_, rfl⟩

theorem unmarshalEAP5GData_reached (aper : Aper G P) (h : ParametersReached data) :
    ∃ f : ANParameters G P → Option (ANParameters G P),
      unmarshalEAP5GData aper data = (loop 2 (unmarshalParameter aper) (anParameterLength data) {}
        (anParameterField data) >>= fun p =>
          unmarshalNASPDU (data.drop (2 + (2 + anParameterLength data) % 2 ^ 16)) >>= fun pdu =>
            .ok (data.getD 0 0, f p, pdu)) := by
  obtain ⟨hin, hstart⟩ := h
  have hlow := Nat.mod_le (2 + anParameterLength data) (2 ^ 16)
  have hfield : (anParameterField data).length = anParameterLength data :=
    List.length_take_of_le (by simp; omega)
  unfold unmarshalEAP5GData
  rw [failIf_pass (by omega), index_eq (by omega), ok_bind, failIf_pass hstart,
    cut_drop (by omega), ok_bind, failIf_pass (by simp; omega), readU16_eq (by simp; omega),
    ok_bind, List.drop_zero]
  change ∃ f, (unmarshalANParameters aper (anParameterLength data) (data.drop 2) >>= fun an =>
    cut (data.drop 2) ((2 + anParameterLength data) % 2 ^ 16) (data.drop 2).length >>= fun rest =>
      unmarshalNASPDU rest >>= fun pdu => .ok (data.getD 0 0, an, pdu)) = _
  rw [cut_drop (by simp; omega), List.drop_drop]
  unfold unmarshalANParameters
  split_ifs with hzero
  · refine ⟨fun _ => none, ?_⟩
    rw [loop_done (by omega)]
    rfl
  · refine ⟨some, ?_⟩
    rw [cut_drop (by simp; omega), List.drop_drop, ok_bind, failIf_pass (by simp; omega),
      cut_eq (Nat.zero_le _) (by simp; omega), ok_bind]
    change (some <$> loop 2 _ (anParameterField data).length _ (anParameterField data) >>= _) = _
    rw [hfield]
    cases loop 2 (unmarshalParameter aper) (anParameterLength data) {} (anParameterField data)
    · rfl
    · rfl

/-- Parsing does what it is for exactly if every AN parameter that it gets to and does not reject
    has at most 253 bytes, all in the field, and the NAS PDU stands where it is looked for. -/
theorem unmarshalEAP5GData_total_iff (aper : Aper G P) (data : List UInt8) :
    Parses aper data ↔ (ParametersReached data →
      ParametersFit aper (anParameterLength data) (anParameterField data) ∧
        ((∃ p, loop 2 (unmarshalParameter aper) (anParameterLength data) {}
          (anParameterField data) = .ok p) → NASInPlace data)) := by
  by_cases hreached : ParametersReached data
  · obtain ⟨f, hwhole⟩ := unmarshalEAP5GData_reached aper hreached
    have hfield : (anParameterField data).length ≤ anParameterLength data := by
      simp [anParameterField]
    have hnas := sound_unmarshalNASPDU (data.drop (2 + (2 + anParameterLength data) % 2 ^ 16))
    rw [← loop_unmarshalParameter_iff aper hfield, nasInPlace_iff hreached]
    constructor
    · intro h _
      have hsound := h.sound
      rw [hwhole, sound_bind] at hsound
      refine ⟨⟨hsound.1, h.steps hreached⟩, ?_⟩
      rintro ⟨p, hp⟩ pdu hpdu
      exact h.nasPDU (data.getD 0 0, f p, pdu) (by rw [hwhole, hp, ok_bind, hpdu, ok_bind])
    · intro h
      obtain ⟨⟨hloop, hsteps⟩, hplace⟩ := h hreached
      refine ⟨?_, fun _ => hsteps, fun r hr => ?_⟩
      · rw [hwhole, sound_bind]
        exact ⟨hloop, fun p _ => (sound_bind_of_sound fun _ => sound_ok _).mpr hnas⟩
      · rw [hwhole] at hr
        obtain ⟨p, hp, hr⟩ := bind_eq_ok.mp hr
        obtain ⟨pdu, hpdu, hr⟩ := bind_eq_ok.mp hr
        obtain rfl := Except.ok.inj hr
        exact hplace ⟨p, hp⟩ pdu hpdu
  · obtain ⟨text, herr⟩ := unmarshalEAP5GData_rejected aper hreached
    refine iff_of_true ⟨?_, fun h => absurd h hreached, fun r hr => ?_⟩ fun h => absurd h hreached
    · rw [herr]
      exact sound_error text
    · rw [herr] at hr
      cases hr

/-- A parameter of an unsupported type that says it has 254 bytes is never left. -/
theorem unsupported_parameter_stuck :
    unmarshalEAP5GData (⟨fun _ => none, fun _ => none⟩ : Aper Unit Unit)
      [2, 0, 0, 2, 9, 254, 0, 1, 126] = .error .stuck := by
  decide

end Free5gc.Tngf.Radius
