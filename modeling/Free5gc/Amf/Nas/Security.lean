/-
  AMF, nas/nas_security/security.go: checking and deciphering uplink NAS messages.

  A payload is read off its bytes: the security header type, the message authentication code
  (MAC), the sequence number and the rest. The NAS library is abstract (`NasLib`): the MAC, the
  cipher and the decoder of plain messages. MACs are of an arbitrary type, so that a MAC which
  is made for one key, count, bearer and text only (`IdealMac`) exists.

  `decode` follows the source step by step: the count is guessed from the sequence number
  (`ulCountNew`), the MAC is checked, and `admits` says which messages pass under which header.
  Of the UE only ULCount may change, and only for a message whose MAC verified.
-/
import Mathlib.Data.List.Basic
import Free5gc.Lib.Fallible
import Free5gc.Lib.NasCount

namespace Free5gc.Amf.Nas

open Free5gc.Lib
open NasCount (overflow sqn setOverflow setSQN)

/-! ## Payloads and the library -/

/-- The access type of a RAN: `other` is the empty string of a RAN whose type is not known. -/
inductive AccessType where
  | threeGpp
  | nonThreeGpp
  | other
  deriving DecidableEq, Repr

/-- `GetBearerType`: the bearers of the NAS library. -/
def getBearerType : AccessType → Nat
  | .threeGpp => 1
  | .nonThreeGpp => 2
  | .other => 0

/-- The security header types of a protected message. -/
inductive SecurityHeaderType where
  | plainNas
  | integrityProtected
  | integrityProtectedAndCiphered
  | integrityProtectedWithNewContext
  | integrityProtectedAndCipheredWithNewContext
  | other (value : Nat)
  deriving DecidableEq, Repr

abbrev Bytes := List UInt8

/-- An uplink payload as `Decode` reads it. -/
inductive Payload (Mac : Type) where
  /-- too short for its header type -/
  | short
  | plain (body : Bytes)
  | secured (header : SecurityHeaderType) (mac : Mac) (sequenceNumber : UInt8) (body : Bytes)
  deriving DecidableEq

/-- What `Decode` tells apart of a decoded message. -/
inductive MsgKind where
  | nonGmm
  | registrationRequest
  | deregistrationRequest
  | serviceRequest
  | identityResponse (suci : Bool)
  | authenticationResponse
  | authenticationFailure
  | securityModeReject
  | deregistrationAccept
  | securityModeComplete
  | other
  deriving DecidableEq, Repr

abbrev Key := Nat

/-- The NAS library: keys and algorithms are numbers, `none` is an error. -/
structure NasLib (Mac Msg : Type) where
  /-- `NASMacCalculate(alg, key, count, bearer, uplink, sqn || body)` -/
  macCalculate : Nat → Key → Nat → Nat → UInt8 → Bytes → Option Mac
  /-- `NASEncrypt(alg, key, count, bearer, uplink, body)` -/
  encrypt : Nat → Key → Nat → Nat → Bytes → Option Bytes
  plainNasDecode : Bytes → Option Msg
  kind : Msg → MsgKind

/-- The MAC verifies only for the key, count, bearer and text it was made for. -/
def IdealMac {Mac Msg : Type} (lib : NasLib Mac Msg) : Prop :=
  ∀ alg key count bearer sqn body alg' key' count' bearer' sqn' body' mac,
    lib.macCalculate alg key count bearer sqn body = some mac →
    lib.macCalculate alg' key' count' bearer' sqn' body' = some mac →
    key = key' ∧ count = count' ∧ bearer = bearer' ∧ sqn = sqn' ∧ body = body'

/-- The security data of a UE, whose counts are of the type `C`. -/
structure SecurityContext (C : Type) where
  securityContextAvailable : Bool
  ulCount : C
  integrityAlg : Nat
  cipheringAlg : Nat
  knasInt : Key
  knasEnc : Key

inductive DecodeError where
  | tooShort
  | wrongSecurityHeader
  | cipheredWithoutContext
  | macCalculate
  | cipheredMacFailed
  | decrypt
  | plainNasDecode
  | noSecurityContext
  | macVerificationFailed
  deriving DecidableEq, Repr

/-! ## Decode -/

/-- The count a protected message is checked with. -/
def ulCountNew {C : Type} [NasCount C] (ulCount : C) (header : SecurityHeaderType)
    (sequenceNumber : UInt8) : C :=
  let start := if header = .integrityProtectedAndCipheredWithNewContext then NasCount.set 0 0
    else ulCount
  let next := if sqn start > sequenceNumber then setOverflow start (overflow start + 1) else start
  setSQN next sequenceNumber

/-- `SecurityContextAvailable`, the right header and a verified MAC. -/
def requireProtected (available : Bool) (header wanted : SecurityHeaderType)
    (integrityProtected : Bool) : Option DecodeError :=
  if available = false then some .noSecurityContext
  else if header ≠ wanted then some .wrongSecurityHeader
  else if integrityProtected = false then some .macVerificationFailed
  else none

/-- The same, asked only if there is a security context. -/
def requireIfAvailable (available : Bool) (header : SecurityHeaderType)
    (integrityProtected : Bool) : Option DecodeError :=
  if available = false then none
  else requireProtected available header .integrityProtectedAndCiphered integrityProtected

/-- Whether a message passes: the check after `PlainNasDecode`. -/
def admits (available : Bool) (header : SecurityHeaderType) (integrityProtected initialMessage : Bool)
    (kind : MsgKind) : Option DecodeError :=
  match kind with
  | .registrationRequest | .deregistrationRequest =>
    if initialMessage then
      if header = .integrityProtectedAndCiphered ∨
          header = .integrityProtectedAndCipheredWithNewContext then some .wrongSecurityHeader
      else none
    else requireIfAvailable available header integrityProtected
  | .serviceRequest =>
    if initialMessage then
      if header ≠ .integrityProtected then some .wrongSecurityHeader else none
    else requireProtected available header .integrityProtectedAndCiphered integrityProtected
  | .identityResponse true => requireIfAvailable available header integrityProtected
  | .authenticationResponse | .authenticationFailure | .securityModeReject
  | .deregistrationAccept => requireIfAvailable available header integrityProtected
  | .securityModeComplete =>
    requireProtected available header .integrityProtectedAndCipheredWithNewContext
      integrityProtected
  | .identityResponse false | .nonGmm | .other =>
    requireProtected available header .integrityProtectedAndCiphered integrityProtected

/-- What `Decode` returns, with the ULCount it leaves. -/
structure Decoded (Msg C : Type) where
  msg : Msg
  integrityProtected : Bool
  ulCount : C

variable {Mac Msg C : Type}

/-- The rest of `Decode`, once the MAC is checked and the text deciphered. -/
def decodePlain (lib : NasLib Mac Msg) (ue : SecurityContext C) (initialMessage : Bool)
    (header : SecurityHeaderType) (integrityProtected : Bool) (count : C) (body : Bytes) :
    Except DecodeError (Decoded Msg C) :=
  match lib.plainNasDecode body with
  | none => .error .plainNasDecode
  | some msg =>
    match admits ue.securityContextAvailable header integrityProtected initialMessage
        (lib.kind msg) with
    | some err => .error err
    | none => .ok ⟨msg, integrityProtected, if integrityProtected then count else ue.ulCount⟩

variable {lib : NasLib Mac Msg} {ue : SecurityContext C} {body : Bytes}

theorem decodePlain_ok_iff {initialMessage : Bool} {header : SecurityHeaderType}
    {integrityProtected : Bool} {count : C} {d : Decoded Msg C} :
    decodePlain lib ue initialMessage header integrityProtected count body = .ok d ↔
      lib.plainNasDecode body = some d.msg ∧
        admits ue.securityContextAvailable header integrityProtected initialMessage
          (lib.kind d.msg) = none ∧
        d.integrityProtected = integrityProtected ∧
        d.ulCount = if integrityProtected then count else ue.ulCount := by
  obtain ⟨msg', p, c⟩ := d
  unfold decodePlain
  cases lib.plainNasDecode body with
  | none => simp
  | some msg =>
    cases hadm : admits ue.securityContextAvailable header integrityProtected initialMessage
        (lib.kind msg) with
    | some err =>
      simp only [hadm, Option.some.injEq]
      constructor
      · intro h
        cases h
      · rintro ⟨rfl, hnone, -⟩
        cases hadm.symm.trans hnone
    | none =>
      simp only [hadm, Except.ok.injEq, Decoded.mk.injEq, Option.some.injEq]
      constructor
      · rintro ⟨rfl, rfl, rfl⟩
        exact ⟨rfl, hadm, rfl, rfl⟩
      · rintro ⟨rfl, -, rfl, rfl⟩
        exact ⟨rfl, rfl, rfl⟩

/-- Whether the header type means a ciphered message; `none` for a wrong one. -/
def ciphered : SecurityHeaderType → Option Bool
  | .integrityProtected => some false
  | .integrityProtectedAndCiphered => some true
  | .integrityProtectedAndCipheredWithNewContext => some true
  | _ => none

variable [NasCount C]

/-- Deciphering, for a ciphered message whose MAC verified. -/
def decipher (lib : NasLib Mac Msg) (ue : SecurityContext C) (accessType : AccessType) (count : C)
    (isCiphered integrityProtected : Bool) (body : Bytes) : Except DecodeError Bytes :=
  if isCiphered = false then .ok body
  else if integrityProtected = false then .error .cipheredMacFailed
  else
    match lib.encrypt ue.cipheringAlg ue.knasEnc (NasCount.get count) (getBearerType accessType)
        body with
    | none => .error .decrypt
    | some plain => .ok plain

variable [DecidableEq Mac]

/-- The MAC check; without a security context it is skipped. -/
def checkMac (lib : NasLib Mac Msg) (ue : SecurityContext C) (accessType : AccessType) (count : C)
    (mac : Mac) (sequenceNumber : UInt8) (body : Bytes) : Except DecodeError Bool :=
  if ue.securityContextAvailable = false then .ok false
  else
    match lib.macCalculate ue.integrityAlg ue.knasInt (NasCount.get count) (getBearerType accessType)
        sequenceNumber body with
    | none => .error .macCalculate
    | some mac32 => .ok (mac32 = mac)

def decode (lib : NasLib Mac Msg) (ue : SecurityContext C) (accessType : AccessType)
    (payload : Payload Mac) (initialMessage : Bool) : Except DecodeError (Decoded Msg C) :=
  match payload with
  | .short => .error .tooShort
  | .plain body => decodePlain lib ue initialMessage .plainNas false ue.ulCount body
  | .secured header mac sequenceNumber body =>
    match ciphered header with
    | none => .error .wrongSecurityHeader
    | some isCiphered =>
      if isCiphered = true ∧ ue.securityContextAvailable = false then .error .cipheredWithoutContext
      else do
        let count := ulCountNew ue.ulCount header sequenceNumber
        let integrityProtected ← checkMac lib ue accessType count mac sequenceNumber body
        let plain ← decipher lib ue accessType count isCiphered integrityProtected body
        decodePlain lib ue initialMessage header integrityProtected count plain

/-! ## What is accepted -/

theorem decode_secured_ok_iff {accessType : AccessType} {header : SecurityHeaderType} {mac : Mac}
    {sequenceNumber : UInt8} {initialMessage : Bool} {d : Decoded Msg C} :
    decode lib ue accessType (.secured header mac sequenceNumber body) initialMessage = .ok d ↔
      ∃ isCiphered integrityProtected plain, ciphered header = some isCiphered ∧
        (isCiphered = true → ue.securityContextAvailable = true) ∧
        checkMac lib ue accessType (ulCountNew ue.ulCount header sequenceNumber) mac sequenceNumber
          body = .ok integrityProtected ∧
        decipher lib ue accessType (ulCountNew ue.ulCount header sequenceNumber) isCiphered
          integrityProtected body = .ok plain ∧
        decodePlain lib ue initialMessage header integrityProtected
          (ulCountNew ue.ulCount header sequenceNumber) plain = .ok d := by
  unfold decode
  cases hc : ciphered header with
  | none => simp [hc]
  | some isCiphered =>
    simp only [hc]
    by_cases hrefused : isCiphered = true ∧ ue.securityContextAvailable = false
    · rw [if_pos hrefused]
      constructor
      · intro h
        cases h
      · rintro ⟨c, p, plain, hcc, hav, -⟩
        obtain rfl := Option.some.inj hcc
        cases hrefused.2.symm.trans (hav hrefused.1)
    · rw [if_neg hrefused]
      constructor
      · intro h
        obtain ⟨p, hp, h⟩ := bind_eq_ok.mp h
        obtain ⟨plain, hplain, h⟩ := bind_eq_ok.mp h
        refine ⟨isCiphered, p, plain, rfl, fun hci => ?_, hp, hplain, h⟩
        exact Bool.not_eq_false _ |>.mp fun hav => hrefused ⟨hci, hav⟩
      · rintro ⟨c, p, plain, hcc, -, hp, hplain, h⟩
        obtain rfl := Option.some.inj hcc
        exact bind_eq_ok.mpr ⟨p, hp, bind_eq_ok.mpr ⟨plain, hplain, h⟩⟩

/-- The MAC check says yes exactly for the MAC the library computes. -/
theorem checkMac_ok_true_iff {accessType : AccessType} {count : C} {mac : Mac}
    {sequenceNumber : UInt8} :
    checkMac lib ue accessType count mac sequenceNumber body = .ok true ↔
      ue.securityContextAvailable = true ∧
        lib.macCalculate ue.integrityAlg ue.knasInt (NasCount.get count) (getBearerType accessType)
          sequenceNumber body = some mac := by
  unfold checkMac
  cases ue.securityContextAvailable with
  | false => simp
  | true =>
    cases lib.macCalculate ue.integrityAlg ue.knasInt (NasCount.get count) (getBearerType accessType)
        sequenceNumber body with
    | none => simp
    | some mac32 => simp

end Free5gc.Amf.Nas
