/-
  TNGF: what `IKEMessage.Decode` does with any bytes.

  It returns, and it stays inside the data, except where an offset computed in the type of the
  field it comes from is not the one that was meant: the end of the SPI of a proposal or of a
  notification, and the end of a configuration attribute. `decode_sound_iff` says when that is.
-/
import Free5gc.Tngf.Ike.Message

namespace Free5gc.Tngf.Ike

open Free5gc.Lib

/-- The length that a payload, a proposal or a transform says it has. -/
def saidLength (raw : List UInt8) : Nat := beNat ((raw.drop 2).take 2)

section

variable {header : Nat} {short mismatch : String} {illegal : Nat → String} {raw : List UInt8}

theorem chunkLength_eq (hheader : 4 ≤ header) (h : header ≤ saidLength raw)
    (h' : saidLength raw ≤ raw.length) :
    chunkLength header short illegal mismatch raw = .ok (saidLength raw) := by
  unfold chunkLength
  rw [failIf_pass (by omega), readU16_eq (by omega), ok_bind]
  change (failIf (saidLength raw < header) _ >>= fun _ =>
    failIf (raw.length < saidLength raw) _ >>= fun _ => .ok (saidLength raw)) = _
  rw [failIf_pass (by omega), failIf_pass (by omega)]

theorem chunkLength_error (hheader : 4 ≤ header)
    (h : ¬(header ≤ saidLength raw ∧ saidLength raw ≤ raw.length)) :
    ∃ text, chunkLength header short illegal mismatch raw = .error (.error text) := by
  unfold chunkLength failIf
  by_cases hshort : raw.length < header
  · exact ⟨short, by simp [hshort]⟩
  rw [readU16_eq (by omega)]
  by_cases hsmall : saidLength raw < header
  · exact ⟨illegal (saidLength raw), by simp [hshort, show beNat _ < header from hsmall]; rfl⟩
  · have hlong : raw.length < saidLength raw := by omega
    exact ⟨mismatch, by
      simp [hshort, show ¬beNat _ < header from hsmall, show raw.length < beNat _ from hlong]⟩

variable {α : Type} {f : Nat → Except Fault α}

theorem sound_chunkLength (hheader : 4 ≤ header) :
    Sound (chunkLength header short illegal mismatch raw >>= f) ↔
      (header ≤ saidLength raw → saidLength raw ≤ raw.length → Sound (f (saidLength raw))) := by
  by_cases h : header ≤ saidLength raw ∧ saidLength raw ≤ raw.length
  · rw [chunkLength_eq hheader h.1 h.2, ok_bind]
    exact ⟨fun hf _ _ => hf, fun hf => hf h.1 h.2⟩
  · obtain ⟨text, herr⟩ := chunkLength_error hheader h
    rw [herr, error_bind]
    exact iff_of_true (sound_error text) fun h₁ h₂ => absurd ⟨h₁, h₂⟩ h

theorem chunkLength_eq_ok (hheader : 4 ≤ header) {a : α}
    (h : (chunkLength header short illegal mismatch raw >>= f) = .ok a) :
    header ≤ saidLength raw ∧ saidLength raw ≤ raw.length ∧ f (saidLength raw) = .ok a := by
  by_cases hlen : header ≤ saidLength raw ∧ saidLength raw ≤ raw.length
  · rw [chunkLength_eq hheader hlen.1 hlen.2, ok_bind] at h
    exact ⟨hlen.1, hlen.2, h⟩
  · obtain ⟨text, herr⟩ := chunkLength_error hheader hlen
    rw [herr, error_bind] at h
    cases h

end

/-! ## Security associations -/

variable {data raw : List UInt8}

theorem Transform.sound_readAttribute (t : Transform) {transformLength : Nat}
    (h : transformLength ≤ data.length) : Sound (t.readAttribute transformLength data) := by
  unfold Transform.readAttribute
  rw [sound_failIf]
  intro hlong
  rw [index_eq (by omega), readU16_eq (by omega), readU16_eq (by omega)]
  simp only [ok_bind]
  split_ifs with hformat
  · rw [sound_failIf]
    intro hsame
    rw [cut_eq (by omega) (by omega)]
    simp
  · simp

theorem sound_unmarshalTransform (p : Proposal) (data : List UInt8) :
    Sound (unmarshalTransform p data) := by
  unfold unmarshalTransform
  rw [sound_chunkLength (by decide)]
  intro hlow hhigh
  rw [index_eq (by omega), readU16_eq (by omega), cut_drop hhigh]
  simp only [ok_bind]
  rw [sound_bind_of_sound fun _ => sound_ok _]
  split_ifs
  · exact Transform.sound_readAttribute _ hhigh
  · simp

theorem unmarshalTransform_shorter {p : Proposal} {r : Proposal × List UInt8}
    (h : unmarshalTransform p data = .ok r) : r.2.length < data.length := by
  obtain ⟨hlow, hhigh, h⟩ := chunkLength_eq_ok (by decide) h
  rw [index_eq (by omega), readU16_eq (by omega), cut_drop hhigh] at h
  simp only [ok_bind] at h
  obtain ⟨t, -, h⟩ := bind_eq_ok.mp h
  obtain rfl := Except.ok.inj h
  simp
  omega

/-- The SPI of a proposal ends inside the proposal, or behind all the data. -/
def ProposalFits (raw : List UInt8) : Prop :=
  let spiSize := (raw.getD 6 0).toNat
  8 ≤ saidLength raw → saidLength raw ≤ raw.length →
    spiSize < 248 ∧ (8 + spiSize ≤ saidLength raw ∨ raw.length < 8 + spiSize)

theorem toNat_add_small {k : Nat} (hk : k < 256) (x : UInt8) :
    (UInt8.ofNat k + x).toNat = (k + x.toNat) % 256 := by
  rw [UInt8.toNat_add, UInt8.toNat_ofNat_of_lt' hk]

/-- The SPI and the transforms of a proposal are cut out inside the data exactly if it fits. -/
theorem sound_spi {spiSize : UInt8} {n : Nat} (hlow : 8 ≤ n) (hhigh : n ≤ raw.length) :
    (Sound (unmarshalSPI raw spiSize) ∧
        ∀ spi, unmarshalSPI raw spiSize = .ok spi → Sound (cut raw (8 + spiSize).toNat n)) ↔
      spiSize.toNat < 248 ∧ (8 + spiSize.toNat ≤ n ∨ raw.length < 8 + spiSize.toNat) := by
  have hmod : (8 + spiSize).toNat = (8 + spiSize.toNat) % 256 := toNat_add_small (by decide) spiSize
  have hlt := spiSize.toNat_lt
  have hpos : 0 < spiSize ↔ 0 < spiSize.toNat := UInt8.lt_iff_toNat_lt
  unfold unmarshalSPI
  by_cases hsmall : spiSize.toNat < 248
  · have hend : (8 + spiSize).toNat = 8 + spiSize.toNat := by omega
    rw [hend]
    split_ifs with h
    · by_cases hshort : raw.length < 8 + spiSize.toNat
      · simp [failIf, hshort, hsmall]
      · rw [failIf_pass hshort, cut_eq (by omega) (by omega)]
        simp [sound_cut]
        omega
    · rw [hpos] at h
      simp [sound_cut]
      omega
  · have hend : (8 + spiSize).toNat = spiSize.toNat - 248 := by omega
    rw [hend, if_pos (hpos.mpr (by omega)), failIf_pass (by omega), cut_outside (by omega)]
    simp [hsmall]

theorem sound_unmarshalProposal (proposals : List Proposal) (raw : List UInt8) :
    Sound (unmarshalProposal proposals raw) ↔ ProposalFits raw := by
  have hloop : ∀ p data, Sound (loop 1 unmarshalTransform data.length p data) := fun p data =>
    (sound_loop Nat.one_pos (fun _ _ _ _ => unmarshalTransform_shorter) (Nat.le_refl _)).mpr
      fun _ _ => sound_unmarshalTransform _ _
  unfold unmarshalProposal ProposalFits
  rw [sound_chunkLength (by decide)]
  refine imp_congr_right fun hlow => imp_congr_right fun hhigh => ?_
  rw [index_eq (by omega), index_eq (by omega), index_eq (by omega), cut_drop hhigh]
  simp only [ok_bind]
  rw [sound_bind, ← sound_spi hlow hhigh]
  refine and_congr_right fun _ => forall_congr' fun spi => imp_congr_right fun _ => ?_
  rw [sound_bind_of_sound fun data => ?_]
  rw [sound_bind_of_sound fun _ => sound_ok _]
  exact hloop _ _

theorem unmarshalProposal_shorter {proposals : List Proposal} {r : List Proposal × List UInt8}
    (h : unmarshalProposal proposals raw = .ok r) : r.2.length < raw.length := by
  obtain ⟨hlow, hhigh, h⟩ := chunkLength_eq_ok (by decide) h
  rw [index_eq (by omega), index_eq (by omega), index_eq (by omega), cut_drop hhigh] at h
  simp only [ok_bind] at h
  obtain ⟨spi, -, h⟩ := bind_eq_ok.mp h
  obtain ⟨data, -, h⟩ := bind_eq_ok.mp h
  obtain ⟨p, -, h⟩ := bind_eq_ok.mp h
  obtain rfl := Except.ok.inj h
  simp
  omega

/-! ## The other payloads -/

theorem sound_unmarshalTagged (pad : Nat) (text : String) (raw : List UInt8) :
    Sound (unmarshalTagged pad text raw) := by
  unfold unmarshalTagged
  split_ifs
  · simp
  rw [sound_failIf]
  intro h
  rw [index_eq (by omega), cut_drop (by omega)]
  simp

theorem sound_unmarshalKeyExchange (raw : List UInt8) : Sound (unmarshalKeyExchange raw) := by
  unfold unmarshalKeyExchange
  split_ifs
  · simp
  rw [sound_failIf]
  intro h
  rw [readU16_eq (by omega), cut_drop (by omega)]
  simp

theorem sound_unmarshalDelete (raw : List UInt8) : Sound (unmarshalDelete raw) := by
  unfold unmarshalDelete
  split_ifs
  · simp
  rw [sound_failIf]
  intro h
  rw [index_eq (by omega), index_eq (by omega), readU16_eq (by omega), cut_drop (by omega)]
  simp only [ok_bind]
  rw [sound_failIf]
  simp

theorem sound_unmarshalSelectors (n : Nat) (raw : List UInt8) :
    Sound (unmarshalSelectors n raw) := by
  induction n generalizing raw with
  | zero => exact sound_ok []
  | succ n ih =>
    unfold unmarshalSelectors
    rw [sound_failIf]
    intro h
    rw [index_eq (by omega), ok_bind]
    split
    · simp
    · rw [readU16_eq (by omega), ok_bind, sound_failIf]
      intro hsize
      rw [sound_failIf]
      intro hlen
      rw [index_eq (by omega), readU16_eq (by omega), readU16_eq (by omega),
        cut_eq (by omega) (by omega), cut_eq (by omega) (by omega), cut_drop (by omega)]
      simp only [ok_bind]
      exact (sound_bind_of_sound fun _ => sound_ok _).mpr (ih _)

theorem sound_unmarshalTrafficSelector (raw : List UInt8) :
    Sound (unmarshalTrafficSelector raw) := by
  unfold unmarshalTrafficSelector
  split_ifs
  · simp
  rw [sound_failIf]
  intro h
  rw [index_eq (by omega), cut_drop (by omega)]
  exact sound_unmarshalSelectors _ _

/-- The SPI of a notification ends where the code says. -/
def NotificationFits (raw : List UInt8) : Prop := 4 ≤ raw.length → (raw.getD 1 0).toNat < 252

theorem sound_unmarshalNotification (raw : List UInt8) :
    Sound (unmarshalNotification raw) ↔ NotificationFits raw := by
  unfold unmarshalNotification NotificationFits
  split_ifs with hnil
  · simp [hnil]
  rw [sound_failIf, Nat.not_lt]
  refine imp_congr_right fun h => ?_
  rw [index_eq (by omega), index_eq (by omega), readU16_eq (by omega)]
  simp only [ok_bind]
  generalize raw.getD 1 0 = spiSize
  have hlt := spiSize.toNat_lt
  have hmod : (4 + spiSize).toNat = (4 + spiSize.toNat) % 256 := toNat_add_small (by decide) spiSize
  rw [sound_failIf]
  by_cases hsmall : spiSize.toNat < 252
  · refine iff_of_true (fun hlen => ?_) hsmall
    rw [cut_eq (by omega) (by omega), cut_drop (by omega)]
    simp
  · rw [cut_outside (by omega)]
    simp [hsmall]
    omega

/-- A configuration attribute ends where the code says, or else inside the data. -/
def AttributeFits (data : List UInt8) : Prop :=
  4 ≤ data.length → saidLength data < 65532 ∨ 4 + saidLength data ≤ data.length

theorem saidLength_lt (raw : List UInt8) : saidLength raw < 65536 := beNat_take_lt _ 2

theorem sound_unmarshalAttribute (attributes : List IndividualConfigurationAttribute)
    (data : List UInt8) : Sound (unmarshalAttribute attributes data) ↔ AttributeFits data := by
  have hlt := saidLength_lt data
  unfold unmarshalAttribute AttributeFits
  rw [sound_failIf, Nat.not_lt]
  refine imp_congr_right fun h => ?_
  rw [readU16_eq (by omega), readU16_eq (by omega), cut_drop h]
  simp only [ok_bind]
  change Sound (failIf (data.length < (4 + saidLength data) % 2 ^ 16) _ >>= fun _ =>
    cut (data.drop 4) 0 (saidLength data) >>= fun _ =>
      cut (data.drop 4) (saidLength data) (data.drop 4).length >>= fun _ => _) ↔ _
  rw [sound_failIf]
  by_cases hin : 4 + saidLength data ≤ data.length
  · refine iff_of_true (fun _ => ?_) (Or.inr hin)
    rw [cut_eq (by omega) (by simp; omega), cut_drop (by simp; omega)]
    simp
  · rw [cut_outside (by simp; omega)]
    simp [hin]
    omega

theorem unmarshalAttribute_shorter {attributes : List IndividualConfigurationAttribute}
    {r : List IndividualConfigurationAttribute × List UInt8}
    (h : unmarshalAttribute attributes data = .ok r) : r.2.length < data.length := by
  obtain ⟨hlen, h⟩ := failIf_eq_ok.mp h
  rw [readU16_eq (by omega), readU16_eq (by omega), cut_drop (by omega)] at h
  simp only [ok_bind] at h
  obtain ⟨-, h⟩ := failIf_eq_ok.mp h
  obtain ⟨value, -, h⟩ := bind_eq_ok.mp h
  obtain ⟨rest, hrest, h⟩ := bind_eq_ok.mp h
  obtain rfl := Except.ok.inj h
  unfold cut at hrest
  split_ifs at hrest
  obtain rfl := Except.ok.inj hrest
  simp
  omega

def ConfigurationFits (raw : List UInt8) : Prop :=
  4 < raw.length → ∀ t ∈ turns 1 unmarshalAttribute (raw.drop 4).length [] (raw.drop 4),
    AttributeFits t.2

theorem sound_unmarshalConfiguration (raw : List UInt8) :
    Sound (unmarshalConfiguration raw) ↔ ConfigurationFits raw := by
  unfold unmarshalConfiguration ConfigurationFits
  split_ifs with hnil
  · simp [hnil]
  rw [sound_failIf, Nat.not_le]
  refine imp_congr_right fun h => ?_
  rw [index_eq (by omega), cut_drop (by omega)]
  simp only [ok_bind]
  rw [sound_bind_of_sound fun _ => sound_ok _,
    sound_loop Nat.one_pos (fun _ _ _ _ => unmarshalAttribute_shorter) (Nat.le_refl _)]
  simp only [sound_unmarshalAttribute]

/-! ## Messages -/

/-- What the body of a payload must be for its offsets to lie in it: that of each proposal, of
    the notification and of each attribute that decoding gets to. -/
def BodyFits (type : UInt8) (body : List UInt8) : Prop :=
  match type.toNat with
  | 33 => ∀ t ∈ turns 1 unmarshalProposal body.length [] body, ProposalFits t.2
  | 41 => NotificationFits body
  | 47 => ConfigurationFits body
  | _ => True

theorem sound_unmarshalProposals (raw : List UInt8) : Sound (unmarshalProposals raw) ↔
    ∀ t ∈ turns 1 unmarshalProposal raw.length [] raw, ProposalFits t.2 := by
  unfold unmarshalProposals
  rw [sound_loop Nat.one_pos (fun _ _ _ _ => unmarshalProposal_shorter) (Nat.le_refl _)]
  simp only [sound_unmarshalProposal]

theorem sound_unmarshalPayload {type next : UInt8} {body : List UInt8}
    {x : Except Fault IKEPayload} (h : unmarshalPayload type next body = some x) :
    Sound x ↔ BodyFits type body := by
  unfold unmarshalPayload at h
  unfold BodyFits
  dsimp only at h
  split at h
  all_goals cases h <;>
    simp only [*, sound_map, sound_ok, sound_unmarshalProposals, sound_unmarshalTagged,
      sound_unmarshalKeyExchange, sound_unmarshalNotification, sound_unmarshalDelete,
      sound_unmarshalTrafficSelector, sound_unmarshalConfiguration, EAP.sound_unmarshal]

theorem bodyFits_of_unknown {type next : UInt8} {body : List UInt8}
    (h : unmarshalPayload type next body = none) : BodyFits type body := by
  unfold unmarshalPayload at h
  unfold BodyFits
  dsimp only at h
  split at h <;> simp_all

theorem sound_takePayload (type next flags : UInt8) (body : List UInt8) :
    Sound (takePayload type next flags body) ↔ BodyFits type body := by
  unfold takePayload
  split
  · next x hx => rw [sound_map, sound_wrapError, sound_unmarshalPayload hx]
  · next hnone =>
    refine iff_of_true ?_ (bodyFits_of_unknown hnone)
    split_ifs <;> simp

def PayloadFits (type : UInt8) (raw : List UInt8) : Prop :=
  4 ≤ saidLength raw → saidLength raw ≤ raw.length →
    BodyFits type ((raw.drop 4).take (saidLength raw - 4))

theorem sound_decodePayload (s : UInt8 × List IKEPayload) (raw : List UInt8) :
    Sound (decodePayload s raw) ↔ PayloadFits s.1 raw := by
  unfold decodePayload PayloadFits
  rw [sound_chunkLength (by decide)]
  refine imp_congr_right fun hlow => imp_congr_right fun hhigh => ?_
  rw [index_eq (by omega), index_eq (by omega), cut_eq hlow hhigh, cut_drop hhigh]
  simp only [ok_bind]
  rw [sound_bind_of_sound fun _ => sound_ok _, sound_takePayload]

theorem decodePayload_shorter {s : UInt8 × List IKEPayload}
    {r : (UInt8 × List IKEPayload) × List UInt8} (h : decodePayload s raw = .ok r) :
    r.2.length < raw.length := by
  obtain ⟨hlow, hhigh, h⟩ := chunkLength_eq_ok (by decide) h
  rw [index_eq (by omega), index_eq (by omega), cut_eq hlow hhigh, cut_drop hhigh] at h
  simp only [ok_bind] at h
  obtain ⟨payload, -, h⟩ := bind_eq_ok.mp h
  obtain rfl := Except.ok.inj h
  simp
  omega

/-- At every payload that decoding gets to, the offsets lie where they are meant to. -/
def MessageFits (raw : List UInt8) : Prop :=
  28 ≤ raw.length → beNat ((raw.drop 24).take 4) = raw.length →
    ∀ t ∈ turns 1 decodePayload (raw.drop 28).length (raw.getD 16 0, []) (raw.drop 28),
      PayloadFits t.1.1 t.2

/-- `Decode` returns a message or an error for exactly those bytes whose offsets fit. -/
theorem decode_sound_iff (raw : List UInt8) :
    Sound (IKEMessage.decode raw) ↔ MessageFits raw := by
  unfold IKEMessage.decode MessageFits
  rw [sound_failIf, Nat.not_lt]
  refine imp_congr_right fun h => ?_
  rw [readU32_eq (by omega), readU32_eq (by omega), index_eq (by omega), index_eq (by omega),
    index_eq (by omega), index_eq (by omega), cut_eq (by omega) (by omega),
    cut_eq (by omega) (by omega), cut_drop h]
  simp only [ok_bind]
  rw [sound_failIf, sound_failIf, sound_bind_of_sound fun _ => sound_ok _, sound_wrapError]
  unfold decodePayloads
  rw [sound_loop Nat.one_pos (fun _ _ _ _ => decodePayload_shorter) (Nat.le_refl _)]
  simp only [sound_decodePayload]
  constructor
  · intro hall hlen
    exact hall (by omega) (by omega)
  · intro hall _ hlen
    exact hall (by omega)

/-- A notification whose SPI size is 252: the SPI is cut out from 4 to 0. -/
theorem decode_outside : ¬Sound (IKEMessage.decode (List.replicate 16 0 ++
    [41, 0, 0, 0, 0, 0, 0, 0, 0, 0, 0, 36] ++ [0, 0, 0, 8, 0, 252, 0, 0])) := by
  decide

end Free5gc.Tngf.Ike
