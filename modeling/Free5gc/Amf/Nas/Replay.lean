/-
  AMF, nas/nas_security/security.go: replay protection by ULCount.

  A trace is a UE between two changes of its security context, with the counts it has had and
  the payloads accepted with a verified MAC. `ReplayProtected` says that ULCount never went
  down, that each accepted payload was checked with a count greater than all before, and that
  no payload was accepted twice.

  `Decode` guesses the count from the sequence number: a smaller number is taken for a
  wrap-around, an equal one for the count itself. So the last payload verifies again, the count
  wraps around at its end, and a message under a new context is always checked with overflow 0.
  A run is replay protected exactly if it has none of these (`CountAdvances`).
-/
import Free5gc.Lib.Run
import Free5gc.Amf.Nas.Security

namespace Free5gc.Amf.Nas

open Free5gc.Lib
open NasCount (overflow sqn)

variable {Mac Msg C : Type}

/-! ## Traces -/

/-- One call of `Decode`. -/
structure Uplink (Mac : Type) where
  accessType : AccessType
  payload : Payload Mac
  initialMessage : Bool

/-- A UE with its history since its security context was last changed, latest first. -/
structure Trace (Mac C : Type) where
  ue : SecurityContext C
  /-- the ULCounts before the current one -/
  counts : List C
  /-- the payloads accepted with a verified MAC, and the count each was checked with -/
  accepted : List (Payload Mac × C)

/-- The UE as the last change of its security context leaves it. -/
def Trace.start (ue : SecurityContext C) : Trace Mac C := ⟨ue, [], []⟩

variable [NasCount C]

/-- Replay protection, up to now. -/
structure ReplayProtected (s : Trace Mac C) : Prop where
  neverDecreases : (s.ue.ulCount :: s.counts).Pairwise fun later earlier =>
    NasCount.get earlier ≤ NasCount.get later
  increases : s.accepted.Pairwise fun later earlier => NasCount.get earlier.2 < NasCount.get later.2
  once : (s.accepted.map Prod.fst).Nodup

/-! ## What every trace satisfies -/

/-- The accepted payload carries the MAC of its text for the count it was checked with. -/
def CarriesMac (lib : NasLib Mac Msg) (ue : SecurityContext C) (x : Payload Mac × C) : Prop :=
  ∃ header mac sequenceNumber body bearer, x.1 = .secured header mac sequenceNumber body ∧
    lib.macCalculate ue.integrityAlg ue.knasInt (NasCount.get x.2) bearer sequenceNumber body =
      some mac

variable {lib : NasLib Mac Msg} {ue : SecurityContext C} {s : Trace Mac C}

/-- Two acceptances of one payload were checked with the same count. -/
theorem CarriesMac.count_eq (hideal : IdealMac lib) {x y : Payload Mac × C}
    (hx : CarriesMac lib ue x) (hy : CarriesMac lib ue y) (hxy : x.1 = y.1) :
    NasCount.get x.2 = NasCount.get y.2 := by
  obtain ⟨header, mac, sqn, body, bearer, hpx, hmx⟩ := hx
  obtain ⟨header', mac', sqn', body', bearer', hpy, hmy⟩ := hy
  obtain ⟨-, rfl, rfl, rfl⟩ := Payload.secured.inj (hpx.symm.trans (hxy.trans hpy))
  exact (hideal _ _ _ _ _ _ _ _ _ _ _ _ _ hmx hmy).2.1

/-- The accepted payloads carry their MACs, and ULCount is the count of the last one. -/
structure Recorded (lib : NasLib Mac Msg) (s : Trace Mac C) : Prop where
  carriesMac : ∀ x ∈ s.accepted, CarriesMac lib s.ue x
  last : ∀ x ∈ s.accepted.head?, x.2 = s.ue.ulCount

theorem Recorded.start (lib : NasLib Mac Msg) (ue : SecurityContext C) :
    Recorded lib (Trace.start ue) :=
  ⟨fun _ hx => (by cases hx), fun _ hx => (by cases hx)⟩

/-- With the counts of the accepted payloads in order, all are at most ULCount. -/
theorem Recorded.le_ulCount (h : Recorded lib s)
    (hinc : s.accepted.Pairwise fun later earlier => NasCount.get earlier.2 < NasCount.get later.2) :
    ∀ x ∈ s.accepted, NasCount.get x.2 ≤ NasCount.get s.ue.ulCount := by
  intro x hx
  cases hacc : s.accepted with
  | nil =>
    rw [hacc] at hx
    cases hx
  | cons y ys =>
    have hy : y.2 = s.ue.ulCount := h.last y (by rw [hacc, List.head?_cons]; exact rfl)
    rw [hacc] at hx hinc
    rw [← hy]
    obtain rfl | hx := List.mem_cons.mp hx
    · exact le_rfl
    · exact le_of_lt (List.rel_of_pairwise_cons hinc hx)

theorem Recorded.below_iff (h : Recorded lib s)
    (hinc : s.accepted.Pairwise fun later earlier => NasCount.get earlier.2 < NasCount.get later.2)
    (n : Nat) :
    (∀ x ∈ s.accepted, NasCount.get x.2 < n) ↔ s.accepted = [] ∨ NasCount.get s.ue.ulCount < n := by
  constructor
  · intro hall
    cases hacc : s.accepted with
    | nil => exact Or.inl rfl
    | cons y ys =>
      have hy : y.2 = s.ue.ulCount := h.last y (by rw [hacc, List.head?_cons]; exact rfl)
      exact Or.inr (hy ▸ hall y (hacc ▸ List.mem_cons_self))
  · rintro (hnil | hlt) x hx
    · rw [hnil] at hx
      cases hx
    · exact lt_of_le_of_lt (h.le_ulCount hinc x hx) hlt

/-! ## When the count advances -/

/-- The payload's MAC is the one of its text for the guessed count, and its message can be
    read and passes. -/
structure Verifies (lib : NasLib Mac Msg) (ue : SecurityContext C) (up : Uplink Mac)
    (header : SecurityHeaderType) (mac : Mac) (sequenceNumber : UInt8) (body : Bytes) : Prop where
  payload : up.payload = .secured header mac sequenceNumber body
  available : ue.securityContextAvailable = true
  mac : lib.macCalculate ue.integrityAlg ue.knasInt
    (NasCount.get (ulCountNew ue.ulCount header sequenceNumber)) (getBearerType up.accessType)
    sequenceNumber body = some mac
  passes : ∃ isCiphered plain msg, ciphered header = some isCiphered ∧
    decipher lib ue up.accessType (ulCountNew ue.ulCount header sequenceNumber) isCiphered true body
      = .ok plain ∧
    lib.plainNasDecode plain = some msg ∧
    admits true header true up.initialMessage (lib.kind msg) = none

/-- The guessed count is new: it goes up, or it is the count the trace began with and nothing has
    been accepted yet. Under a new context the overflow is guessed as 0. -/
def NewCount (s : Trace Mac C) (header : SecurityHeaderType) (sequenceNumber : UInt8) : Prop :=
  if header = .integrityProtectedAndCipheredWithNewContext then
    overflow s.ue.ulCount = 0 ∧ (sqn s.ue.ulCount < sequenceNumber ∨
      sqn s.ue.ulCount = sequenceNumber ∧ s.accepted = [])
  else
    (sequenceNumber < sqn s.ue.ulCount → overflow s.ue.ulCount ≠ 65535) ∧
      (sequenceNumber = sqn s.ue.ulCount → s.accepted = [])

/-- A payload that verifies has a new count. -/
def CountAdvances (lib : NasLib Mac Msg) (s : Trace Mac C) (up : Uplink Mac) : Prop :=
  ∀ header mac sequenceNumber body, Verifies lib s.ue up header mac sequenceNumber body →
    NewCount s header sequenceNumber

theorem get_ulCountNew (c : C) (header : SecurityHeaderType) (n : UInt8) :
    NasCount.get (ulCountNew c header n) =
      if header = .integrityProtectedAndCipheredWithNewContext then n.toNat
      else if n < sqn c then ((overflow c).toNat + 1) % 65536 * 256 + n.toNat
      else (overflow c).toNat * 256 + n.toNat := by
  have hzero : ¬n < 0 := UInt8.not_lt_zero
  unfold ulCountNew
  rw [NasCount.get_setSQN]
  by_cases hnew : header = .integrityProtectedAndCipheredWithNewContext
  · simp [hnew, NasCount.sqn_set, NasCount.overflow_set, hzero]
  · by_cases hover : n < sqn c
    · simp [hnew, hover, NasCount.overflow_setOverflow]
    · simp [hnew, hover]

/-- A new count is one that does not go down, and that goes up once something is accepted. -/
theorem newCount_iff (s : Trace Mac C) (header : SecurityHeaderType) (n : UInt8) :
    NewCount s header n ↔
      NasCount.get s.ue.ulCount ≤ NasCount.get (ulCountNew s.ue.ulCount header n) ∧
        (s.accepted = [] ∨
          NasCount.get s.ue.ulCount < NasCount.get (ulCountNew s.ue.ulCount header n)) := by
  have hover := (overflow s.ue.ulCount).toNat_lt
  have hsqn := (sqn s.ue.ulCount).toNat_lt
  have hlt : n.toNat < 256 := n.toNat_lt
  have hnone : (0 : UInt16).toNat = 0 := rfl
  have hfull : (65535 : UInt16).toNat = 65535 := rfl
  rw [get_ulCountNew, NasCount.get_eq]
  unfold NewCount
  simp only [UInt8.lt_iff_toNat_lt, ← UInt8.toNat_inj, ← UInt16.toNat_inj, ne_eq, hnone, hfull]
  by_cases hnew : header = .integrityProtectedAndCipheredWithNewContext
  · simp only [if_pos hnew]
    by_cases hnil : s.accepted = []
    · simp only [hnil, and_true, true_or]
      omega
    · simp only [hnil, and_false, or_false, false_or]
      omega
  · simp only [if_neg hnew]
    by_cases hnil : s.accepted = []
    · simp only [hnil, implies_true, and_true, true_or]
      split
      · omega
      · omega
    · simp only [hnil, imp_false, false_or]
      split
      · omega
      · omega

/-! ## One more payload -/

variable [DecidableEq Mac]

/-- `Decode` accepts a payload with a verified MAC exactly if it verifies, and leaves the count it
    was checked with. -/
theorem decode_protected_iff {up : Uplink Mac} {count : C} :
    (∃ d, decode lib ue up.accessType up.payload up.initialMessage = .ok d ∧
        d.integrityProtected = true ∧ d.ulCount = count) ↔
      ∃ header mac sequenceNumber body, Verifies lib ue up header mac sequenceNumber body ∧
        count = ulCountNew ue.ulCount header sequenceNumber := by
  constructor
  · rintro ⟨d, hdec, hprot, rfl⟩
    cases hp : up.payload with
    | short =>
      rw [hp] at hdec
      cases hdec
    | plain body =>
      rw [hp] at hdec
      obtain ⟨-, -, hfalse, -⟩ := decodePlain_ok_iff.mp hdec
      cases hfalse.symm.trans hprot
    | secured header mac sequenceNumber body =>
      rw [hp, decode_secured_ok_iff] at hdec
      obtain ⟨c, p, plain, hciph, -, hmac, hplain, hdec⟩ := hdec
      obtain ⟨hmsg, hadm, hpp, hcount⟩ := decodePlain_ok_iff.mp hdec
      obtain rfl : p = true := hpp.symm.trans hprot
      obtain ⟨hav, hmac⟩ := checkMac_ok_true_iff.mp hmac
      rw [hav] at hadm
      exact ⟨header, mac, sequenceNumber, body,
        ⟨hp, hav, hmac, c, plain, d.msg, hciph, hplain, hmsg, hadm⟩, hcount⟩
  · rintro ⟨header, mac, sequenceNumber, body, hv, rfl⟩
    obtain ⟨c, plain, msg, hciph, hplain, hmsg, hadm⟩ := hv.passes
    refine ⟨⟨msg, true, ulCountNew ue.ulCount header sequenceNumber⟩, ?_, rfl, rfl⟩
    rw [hv.payload, decode_secured_ok_iff]
    refine ⟨c, true, plain, hciph, fun _ => hv.available,
      checkMac_ok_true_iff.mpr ⟨hv.available, hv.mac⟩, hplain, ?_⟩
    exact decodePlain_ok_iff.mpr ⟨hmsg, by rw [hv.available, hadm], rfl, rfl⟩

/-- Whatever `Decode` accepts without a verified MAC leaves ULCount as it was. -/
theorem decode_ulCount_of_unprotected {up : Uplink Mac} {d : Decoded Msg C}
    (hdec : decode lib ue up.accessType up.payload up.initialMessage = .ok d)
    (hprot : d.integrityProtected = false) : d.ulCount = ue.ulCount := by
  cases hp : up.payload with
  | short =>
    rw [hp] at hdec
    cases hdec
  | plain body =>
    rw [hp] at hdec
    obtain ⟨-, -, -, hcount⟩ := decodePlain_ok_iff.mp hdec
    exact hcount
  | secured header mac sequenceNumber body =>
    rw [hp, decode_secured_ok_iff] at hdec
    obtain ⟨_, p, _, -, -, -, -, hdec⟩ := hdec
    obtain ⟨-, -, hpp, hcount⟩ := decodePlain_ok_iff.mp hdec
    obtain rfl : p = false := hpp.symm.trans hprot
    exact hcount

/-- `Decode` is given one more payload. -/
def Trace.receive (lib : NasLib Mac Msg) (s : Trace Mac C) (up : Uplink Mac) : Trace Mac C :=
  match decode lib s.ue up.accessType up.payload up.initialMessage with
  | .error _ => { s with counts := s.ue.ulCount :: s.counts }
  | .ok d =>
    { ue := { s.ue with ulCount := d.ulCount }
      counts := s.ue.ulCount :: s.counts
      accepted := if d.integrityProtected then (up.payload, d.ulCount) :: s.accepted
        else s.accepted }

/-- The two things a payload can do to a trace. -/
theorem Trace.receive_cases (lib : NasLib Mac Msg) (s : Trace Mac C) (up : Uplink Mac) :
    (∃ header mac sequenceNumber body, Verifies lib s.ue up header mac sequenceNumber body ∧
      s.receive lib up =
        ⟨{ s.ue with ulCount := ulCountNew s.ue.ulCount header sequenceNumber },
          s.ue.ulCount :: s.counts,
          (up.payload, ulCountNew s.ue.ulCount header sequenceNumber) :: s.accepted⟩) ∨
    ((∀ header mac sequenceNumber body, ¬Verifies lib s.ue up header mac sequenceNumber body) ∧
      s.receive lib up = ⟨s.ue, s.ue.ulCount :: s.counts, s.accepted⟩) := by
  unfold Trace.receive
  cases hdec : decode lib s.ue up.accessType up.payload up.initialMessage with
  | error err =>
    refine Or.inr ⟨fun header mac sqn body hv => ?_, rfl⟩
    obtain ⟨d, hd, -⟩ := decode_protected_iff.mpr ⟨header, mac, sqn, body, hv, rfl⟩
    cases hdec.symm.trans hd
  | ok d =>
    cases hprot : d.integrityProtected with
    | true =>
      obtain ⟨header, mac, sqn, body, hv, hcount⟩ :=
        decode_protected_iff.mp ⟨d, hdec, hprot, rfl⟩
      refine Or.inl ⟨header, mac, sqn, body, hv, ?_⟩
      simp [hprot, hcount]
    | false =>
      refine Or.inr ⟨fun header mac sqn body hv => ?_, ?_⟩
      · obtain ⟨d', hd', hprot', -⟩ := decode_protected_iff.mpr ⟨header, mac, sqn, body, hv, rfl⟩
        obtain rfl := Except.ok.inj (hdec.symm.trans hd')
        cases hprot.symm.trans hprot'
      · have hcount := decode_ulCount_of_unprotected hdec hprot
        simp [hprot, hcount]

theorem Recorded.receive (h : Recorded lib s) (up : Uplink Mac) :
    Recorded lib (s.receive lib up) := by
  obtain ⟨header, mac, sqn, body, hv, heq⟩ | ⟨-, heq⟩ := s.receive_cases lib up
  · rw [heq]
    refine ⟨fun x hx => ?_, fun x hx => ?_⟩
    · obtain rfl | hx := List.mem_cons.mp hx
      · exact ⟨header, mac, sqn, body, getBearerType up.accessType, hv.payload, hv.mac⟩
      · exact h.carriesMac x hx
    · obtain rfl := Option.some.inj hx
      rfl
  · rw [heq]
    exact ⟨h.carriesMac, h.last⟩

/-- One payload keeps the trace replay protected exactly if the count advances. -/
theorem ReplayProtected.receive_iff (hideal : IdealMac lib) (hrec : Recorded lib s)
    (h : ReplayProtected s) (up : Uplink Mac) :
    ReplayProtected (s.receive lib up) ↔ CountAdvances lib s up := by
  obtain ⟨header, mac, sqn, body, hv, heq⟩ | ⟨hnone, heq⟩ := s.receive_cases lib up
  · have hrec' := hrec.receive up
    rw [heq] at hrec' ⊢
    have hnew : CountAdvances lib s up ↔ NewCount s header sqn := by
      refine ⟨fun hC => hC header mac sqn body hv, fun hN header' mac' sqn' body' hv' => ?_⟩
      obtain ⟨rfl, -, rfl, -⟩ := Payload.secured.inj (hv.payload.symm.trans hv'.payload)
      exact hN
    rw [hnew, newCount_iff, ← hrec.below_iff h.increases]
    constructor
    · intro h'
      exact ⟨List.rel_of_pairwise_cons h'.neverDecreases List.mem_cons_self,
        fun x hx => List.rel_of_pairwise_cons h'.increases hx⟩
    · rintro ⟨hle, hlt⟩
      refine ⟨List.pairwise_cons.mpr ⟨fun c hc => ?_, h.neverDecreases⟩,
        List.pairwise_cons.mpr ⟨hlt, h.increases⟩, List.nodup_cons.mpr ⟨fun hmem => ?_, h.once⟩⟩
      · obtain rfl | hc := List.mem_cons.mp hc
        · exact hle
        · exact le_trans (List.rel_of_pairwise_cons h.neverDecreases hc) hle
      · -- a payload accepted before was checked with the same count, which is not below itself
        obtain ⟨x, hx, hpx⟩ := List.mem_map.mp hmem
        have hsame := CarriesMac.count_eq hideal (hrec'.carriesMac x (List.mem_cons_of_mem _ hx))
          (hrec'.carriesMac _ List.mem_cons_self) hpx
        exact absurd hsame (ne_of_lt (hlt x hx))
  · rw [heq]
    refine iff_of_true ⟨?_, h.increases, h.once⟩ fun header mac sqn body hv => ?_
    · refine List.pairwise_cons.mpr ⟨fun c hc => ?_, h.neverDecreases⟩
      obtain rfl | hc := List.mem_cons.mp hc
      · exact le_rfl
      · exact List.rel_of_pairwise_cons h.neverDecreases hc
    · exact absurd hv (hnone header mac sqn body)

/-- A UE stays replay protected throughout a run exactly if the count advances with every payload
    that verifies. -/
theorem replayProtected_iff (lib : NasLib Mac Msg) (hideal : IdealMac lib) (ue : SecurityContext C)
    (ups : List (Uplink Mac)) :
    (∀ n, ReplayProtected ((ups.take n).foldl (Trace.receive lib) (Trace.start ue))) ↔
      StepsMeet (Trace.receive lib) (CountAdvances lib) (Trace.start ue) ups := by
  refine forall_take_iff_stepsMeet_of_inv (Recorded lib) ReplayProtected
    (fun s up hrec h => ⟨hrec.receive up, h.receive_iff hideal hrec up⟩) ups
    (Recorded.start lib ue) ⟨List.pairwise_singleton _ _, List.Pairwise.nil, List.nodup_nil⟩

/-! ## A library with an ideal MAC -/

/-- A MAC that is all it was made from. -/
structure Tag where
  key : Key
  count : Nat
  bearer : Nat
  sequenceNumber : UInt8
  body : Bytes
  deriving DecidableEq

/-- Tags for MACs, the null cipher, and messages told apart by their first byte. -/
def tagLib : NasLib Tag UInt8 where
  macCalculate _ key count bearer sequenceNumber body :=
    some ⟨key, count, bearer, sequenceNumber, body⟩
  encrypt _ _ _ _ body := some body
  plainNasDecode body := body.head?
  kind msg := if msg = 0x5e then .securityModeComplete else .other

theorem tagLib_idealMac : IdealMac tagLib := by
  intro alg key count bearer sqn body alg' key' count' bearer' sqn' body' mac h h'
  obtain ⟨rfl, rfl, rfl, rfl, rfl⟩ := Tag.mk.inj (Option.some.inj (h.trans h'.symm))
  exact ⟨rfl, rfl, rfl, rfl, rfl⟩

/-- A UE whose security mode command has just been sent. -/
def commandedUe : SecurityContext (UInt16 × UInt8) where
  securityContextAvailable := true
  ulCount := (0, 0)
  integrityAlg := 2
  cipheringAlg := 0
  knasInt := 7
  knasEnc := 8

/-- The UE's message with first byte `msg` and count `sequenceNumber`, over 3GPP access. -/
def uplink (header : SecurityHeaderType) (sequenceNumber msg : UInt8) : Uplink Tag where
  accessType := .threeGpp
  payload := .secured header ⟨7, sequenceNumber.toNat, 1, sequenceNumber, [msg]⟩ sequenceNumber
    [msg]
  initialMessage := false

def securityModeComplete : Uplink Tag :=
  uplink .integrityProtectedAndCipheredWithNewContext 0 0x5e

def ulNasTransport : Uplink Tag := uplink .integrityProtectedAndCiphered 1 0x67

theorem replayProtected_iff_twoMessages :
    IdealMac tagLib ∧
      ((([securityModeComplete, ulNasTransport].foldl (Trace.receive tagLib)
        (Trace.start commandedUe)).accepted.map fun x => NasCount.get x.2) = [1, 0]) ∧
      (∀ n, ReplayProtected (([securityModeComplete, ulNasTransport].take n).foldl
        (Trace.receive tagLib) (Trace.start commandedUe))) := by
  refine ⟨tagLib_idealMac, by decide, ?_⟩
  refine (replayProtected_iff tagLib tagLib_idealMac commandedUe _).mpr ⟨?_, ?_, trivial⟩
  · intro header mac sqn body hv
    obtain ⟨rfl, -, rfl, -⟩ := Payload.secured.inj hv.payload
    exact ⟨rfl, Or.inr ⟨rfl, rfl⟩⟩
  · intro header mac sqn body hv
    obtain ⟨rfl, -, rfl, -⟩ := Payload.secured.inj hv.payload
    exact ⟨fun h => absurd h (by decide), fun h => absurd h (by decide)⟩

/-- The last message is accepted again, and the security mode complete message is accepted again
    and takes ULCount back. -/
theorem replayed_messages_accepted :
    IdealMac tagLib ∧
      ([securityModeComplete, ulNasTransport, ulNasTransport, securityModeComplete].foldl
        (Trace.receive tagLib) (Trace.start commandedUe)).accepted =
        [(securityModeComplete.payload, (0, 0)),
          (ulNasTransport.payload, (0, 1)),
          (ulNasTransport.payload, (0, 1)),
          (securityModeComplete.payload, (0, 0))] ∧
      ¬ReplayProtected ([securityModeComplete, ulNasTransport, ulNasTransport].foldl
        (Trace.receive tagLib) (Trace.start commandedUe)) ∧
      ¬ReplayProtected ([securityModeComplete, ulNasTransport, securityModeComplete].foldl
        (Trace.receive tagLib) (Trace.start commandedUe)) :=
  ⟨tagLib_idealMac, by decide, fun h => absurd h.once (by decide),
    fun h => absurd h.neverDecreases (by decide)⟩

end Free5gc.Amf.Nas
