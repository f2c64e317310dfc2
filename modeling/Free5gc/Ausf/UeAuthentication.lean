/-
  AUSF: authentication requests and confirmations
  (`internal/sbi/processor/ue_authentication.go`, `internal/context/context.go`).

  There is one context for a SUPI. A request makes a new one with the vector of the method that
  the UDM chose; the fields of the other method stay empty. The confirmation of 5G AKA compares
  the response with XRES*, that of EAP-AKA' the MAC and then the response with XRES.

  The answers of the UDM, key derivation and the parser of EAP packets are inputs; the challenge
  that an EAP-AKA' request carries is left out.
-/
import Free5gc.Lib.Decoder
import Free5gc.Lib.GoMap
import Free5gc.Lib.Hex
import Free5gc.Lib.Text

namespace Free5gc.Ausf

open Free5gc.Lib

/-! ## Contexts -/

inductive AuthResult where
  | success
  | failure
  | ongoing
  deriving DecidableEq, Repr

inductive AuthType where
  | fiveGAka
  | eapAkaPrime
  deriving DecidableEq, Repr

structure AusfUeContext where
  servingNetworkName : List Char
  authStatus : AuthResult := .ongoing
  kseaf : List Char := []
  xresStar : List Char := []
  kAut : List UInt8 := []
  xres : List Char := []
  rand : List Char := []
  eapID : UInt8 := 0
  resynced : Bool := false
  deriving DecidableEq, Repr

structure AUSFContext where
  suciSupiMap : GoMap (List Char) (List Char)
  uePool : GoMap (List Char) AusfUeContext

/-- The SUPI that a resource id stands for, with its context. -/
def AUSFContext.find (w : AUSFContext) (id : List Char) : Option (List Char × AusfUeContext) :=
  (w.suciSupiMap.lookup id).bind fun supi => (w.uePool.lookup supi).map (supi, ·)

def AUSFContext.put (w : AUSFContext) (supi : List Char) (ctx : AusfUeContext) : AUSFContext :=
  { w with uePool := w.uePool.insert supi ctx }

/-- Settings, and the functions that derive keys and MACs: SHA-256 and `ueauth.GetKDFValue` are not
    part of the repository, `eapAkaPrimePrf` and `CalculateAtMAC` are and stay abstract. -/
structure Env where
  eapAkaSupiImsiPrefix : Bool
  /-- the last 16 bytes of the SHA-256 of RAND and XRES* -/
  hxresStar : List UInt8 → List UInt8
  /-- `ueauth.GetKDFValue` for Kseaf -/
  kseaf : List UInt8 → List Char → Option (List UInt8)
  /-- K_aut and Kausf of `eapAkaPrimePrf` -/
  eapAkaPrimePrf : List Char → List Char → List Char → List UInt8 × List UInt8
  calculateAtMAC : List UInt8 → List UInt8 → List UInt8

/-! ## Requests -/

/-- What the UDM answers; `authType` is `none` for another method than the two. -/
structure AuthInfoResult where
  supi : List Char
  authType : Option AuthType
  rand : List Char
  autn : List Char
  xresStar : List Char
  xres : List Char
  kausf : List Char
  ikPrime : List Char
  ckPrime : List Char
  deriving DecidableEq, Repr

/-- A request; of the resynchronization info, which goes on to the UDM, only whether it is there. -/
structure AuthenticationInfo where
  supiOrSuci : List Char
  servingNetworkName : List Char
  resynchronization : Bool
  deriving DecidableEq, Repr

/-- `5G:mnc[0-9]{3}[.]mcc[0-9]{3}[.]3gppnetwork[.]org`, character by character. -/
def snRegex : List (Char → Bool) :=
  let lit := fun text : String => text.toList.map fun c d => d == c
  lit "5G:mnc" ++ List.replicate 3 Char.isDigit ++ lit ".mcc" ++ List.replicate 3 Char.isDigit ++
    lit ".3gppnetwork.org"

def matchesAt : List (Char → Bool) → List Char → Bool
  | [], _ => true
  | _ :: _, [] => false
  | p :: ps, c :: cs => p c && matchesAt ps cs

/-- The expression is not anchored: it may match anywhere in the name. -/
def isServingNetworkAuthorized (lookup : List Char) : Bool := lookup.tails.any (matchesAt snRegex)

/-- What a request gets from elsewhere: the UDM's answer (a problem, or a vector) and a random
    identifier. -/
structure Upstream where
  udm : Except (Nat × String) AuthInfoResult
  randIdentifier : UInt8

inductive Reply where
  | problem (status : Nat) (cause : String)
  | challenge5gAka (rand autn hxresStar : List Char)
  | challengeEap (eapID : UInt8) (rand autn : List Char)
  | otherMethod
  | confirmation (authResult : AuthResult) (supi kseaf : List Char)
  | eapSession (status : Nat) (authResult : Option AuthResult) (supi kseaf : List Char)
  | panicked
  deriving DecidableEq, Repr

section

variable (env : Env)

/-- The context of a 5G AKA vector, or the problem with it. -/
def fill5gAka (ctx : AusfUeContext) (r : AuthInfoResult) : Except (Nat × String) AusfUeContext :=
  match decodeHex (r.rand ++ r.xresStar), decodeHex r.kausf with
  | none, _ => .error (500, "CONCAT_DECODE_PROBLEM")
  | _, none => .error (500, "KAUSF_DECODE_PROBLEM")
  | some _, some kausf =>
    match env.kseaf kausf ctx.servingNetworkName with
    | none => .error (500, "KSEAF_DERIVATION_PROBLEM")
    | some kseaf => .ok { ctx with xresStar := r.xresStar, kseaf := encodeHex kseaf, rand := r.rand }

/-- The identity for the key derivation; the slices of a short SUPI are out of range. -/
def identity (supi : List Char) : Option (List Char) :=
  if supi.length < 4 then none
  else if supi.take 4 ≠ "imsi".toList then some []
  else if env.eapAkaSupiImsiPrefix then some supi
  else if supi.length < 5 then none
  else some (supi.drop 5)

def fillEap (ctx : AusfUeContext) (r : AuthInfoResult) (eapID : UInt8) (identity : List Char) :
    AusfUeContext :=
  let keys := env.eapAkaPrimePrf r.ikPrime r.ckPrime identity
  { ctx with
    xres := r.xres
    rand := r.rand
    kAut := keys.1
    kseaf := encodeHex ((env.kseaf keys.2 ctx.servingNetworkName).getD [])
    eapID }

/-- A new context for the SUPI that the UDM answers with. -/
def newUe (w : AUSFContext) (info : AuthenticationInfo) (supi : List Char) : AUSFContext :=
  { w.put supi { servingNetworkName := info.servingNetworkName } with
    suciSupiMap := w.suciSupiMap.insert info.supiOrSuci supi }

/-- The answer of the UDM is taken: the new context gets the fields of the method. -/
def issue (w : AUSFContext) (info : AuthenticationInfo) (eapID : UInt8) (r : AuthInfoResult) :
    Reply × AUSFContext :=
  let ctx : AusfUeContext := { servingNetworkName := info.servingNetworkName }
  let w := newUe w info r.supi
  match r.authType with
  | none => (.otherMethod, w)
  | some .fiveGAka =>
    match fill5gAka env ctx r with
    | .error (status, cause) => (.problem status cause, w)
    | .ok ctx =>
      let hxresStar := env.hxresStar ((decodeHex (r.rand ++ r.xresStar)).getD [])
      (.challenge5gAka r.rand r.autn (encodeHex hxresStar), w.put r.supi ctx)
  | some .eapAkaPrime =>
    match identity env r.supi with
    | none => (.panicked, w)
    | some identity =>
      (.challengeEap eapID r.rand r.autn, w.put r.supi (fillEap env ctx r eapID identity))

/-- `UeAuthPostRequestProcedure`. -/
def ueAuthPost (w : AUSFContext) (info : AuthenticationInfo) (up : Upstream) :
    Reply × AUSFContext :=
  if isServingNetworkAuthorized info.servingNetworkName = false then
    (.problem 403 "SERVING_NETWORK_NOT_AUTHORIZED", w)
  else
    let known := w.find info.supiOrSuci
    if info.resynchronization ∧ known = none then (.problem 404 "USER_NOT_FOUND", w)
    else match up.udm with
      | .error (status, cause) => (.problem status cause, w)
      | .ok r =>
        let eapID := if info.resynchronization then (known.elim 0 fun x => x.2.eapID) + 1
          else up.randIdentifier
        issue env w info eapID r

/-! ## Confirmations -/

/-- `Auth5gAkaComfirmRequestProcedure`; `sent` says whether the UDM takes the result. -/
def confirm5gAka (w : AUSFContext) (id resStar : List Char) (sent : Bool) : Reply × AUSFContext :=
  match w.find id with
  | none => (.problem 400 "USER_NOT_FOUND", w)
  | some (supi, ctx) =>
    if equalFold resStar ctx.xresStar then
      (if sent then .confirmation .success supi ctx.kseaf
        else .problem 500 "UPSTREAM_SERVER_ERROR", w.put supi { ctx with authStatus := .success })
    else
      (if sent then .confirmation .failure [] [] else .problem 500 "UPSTREAM_SERVER_ERROR",
        w.put supi { ctx with authStatus := .failure })

/-- What the parser makes of the payload of a confirmation. -/
structure EapContent where
  code : UInt8
  type : UInt8
  contents : List UInt8
  deriving DecidableEq, Repr

structure EapAkaPrimePkt where
  subtype : UInt8
  attributes : List (UInt8 × List UInt8)
  macInput : List UInt8
  deriving DecidableEq, Repr

/-- The value of an attribute and what is left in its place: AT_MAC is overwritten by zeros. -/
def attributeValue (attrType : UInt8) (attr : List UInt8) :
    Except Fault (Option (List UInt8) × List UInt8) :=
  if attrType = 3 then do
    let bits ← index attr 3
    let accLen := (bits >>> 3).toNat
    failIf (16 < accLen ∨ accLen < 4 ∨ attr.length < accLen + 4) "attribute AT_RES decode err"
    .ok (some ((attr.drop 4).take accLen), attr)
  else if attrType = 11 then do
    failIf (attr.length ≠ 20) "attribute AT_MAC decode err"
    .ok (some (attr.drop 4), attr.take 4 ++ List.replicate 16 0)
  else if attrType = 24 then do
    failIf (attr.length ≠ 4) "attribute AT_KDF decode err"
    .ok (some (attr.drop 2), attr)
  else if attrType = 4 then do
    failIf (attr.length ≠ 16) "attribute AT_AUTS decode err"
    .ok (some (attr.drop 2), attr)
  else if attrType = 22 then do
    failIf (attr.length ≠ 4) "attribute AT_CLIENT_ERROR_CODE decode err"
    .ok (some (attr.drop 2), attr)
  else .ok (none, attr)

/-- `attributes[attrType] = value`. -/
def putAttribute (attributes : List (UInt8 × List UInt8)) (attrType : UInt8) :
    Option (List UInt8) → List (UInt8 × List UInt8)
  | none => attributes
  | some value => (attrType, value) :: attributes.filter (·.1 ≠ attrType)

/-- A turn of the loop over the attributes; the state has those read and the bytes behind. -/
def decodeAttribute (s : List (UInt8 × List UInt8) × List UInt8) (data : List UInt8) :
    Except Fault ((List (UInt8 × List UInt8) × List UInt8) × List UInt8) := do
  let attrType ← index data 0
  let length ← index data 1
  failIf (length = 0) "attribute length equal to zero"
  failIf (data.length < 4 * length.toNat) "packet length out of range"
  let attr ← cut data 0 (4 * length.toNat)
  let rest ← cut data (4 * length.toNat) data.length
  let r ← attributeValue attrType attr
  .ok ((putAttribute s.1 attrType r.1, s.2 ++ r.2), rest)

/-- The attributes that a subtype must have. -/
def checkAttributes (subtype : UInt8) (attributes : List (UInt8 × List UInt8)) :
    Except Fault Unit :=
  let has := fun t => (attributes.lookup t).isSome
  if subtype = 1 then failIf ((has 3 && has 11) = false) "AKA-Challenge attributes error"
  else if subtype = 2 then failIf (attributes ≠ []) "AKA-Authentication-Reject attributes error"
  else if subtype = 4 then
    failIf (attributes.length ≠ 2 ∨ has 4 = false ∨ attributes.lookup 24 ≠ some [0, 1])
      "AKA-Synchornization-Failure attributes error"
  else if subtype = 14 then
    failIf (attributes.length ≠ 1 ∨ has 22 = false) "AKA-Client-Error attributes error"
  else .ok ()

def decodeEapAkaPrime (eapPkt : List UInt8) : Except Fault EapAkaPrimePkt := do
  let data ← cut eapPkt 5 eapPkt.length
  let subtype ← index data 0
  let s ← loop 1 decodeAttribute (data.drop 3).length ([], []) (data.drop 3)
  checkAttributes subtype s.1
  .ok ⟨subtype, s.1, eapPkt.take 8 ++ s.2⟩

inductive Verdict where
  | right
  | bad
  | rejected
  | resync
  deriving DecidableEq, Repr

/-- The packet of a confirmation against the context of its SUPI. -/
def judge (ctx : AusfUeContext) : Option EapContent → Except Fault Verdict
  | none => .ok .bad
  | some content =>
    if content.code ≠ 2 ∨ content.type ≠ 50 then .ok .bad
    else match decodeEapAkaPrime content.contents with
      | .error (.error _) => .ok .bad
      | .error f => .error f
      | .ok pkt =>
        let value := fun t => (pkt.attributes.lookup t).getD []
        if pkt.subtype = 1 then
          if value 11 ≠ env.calculateAtMAC ctx.kAut pkt.macInput then .ok .bad
          else if ctx.xres = encodeHex (value 3) then .ok .right
          else .ok .bad
        else if pkt.subtype = 4 then
          if ctx.resynced then .ok .bad else .ok .resync
        else .ok .rejected

/-- `EapAuthComfirmRequestProcedure`. A packet that cannot be parsed is answered with a panic: its
    identifier is needed for the notification. -/
def confirmEap (w : AUSFContext) (id : List Char) (content : Option EapContent) (sent : Bool)
    (up : Upstream) : Reply × AUSFContext :=
  match w.find id with
  | none => (.problem 404 "USER_NOT_FOUND", w)
  | some (supi, ctx) =>
    if ctx.authStatus = .failure then (.eapSession 401 (some .failure) [] [], w)
    else match judge env ctx content with
      | .error _ => (.panicked, w)
      | .ok .right =>
        if sent then (.eapSession 200 (some .success) supi ctx.kseaf,
          w.put supi { ctx with authStatus := .success })
        else (.problem 500 "UPSTREAM_SERVER_ERROR", w)
      | .ok .bad =>
        if sent then
          (if content = none then .panicked else .eapSession 200 (some .ongoing) [] [],
            w.put supi { ctx with authStatus := .failure })
        else (.problem 500 "UPSTREAM_SERVER_ERROR", w)
      | .ok .rejected =>
        (if sent then .eapSession 200 (some .failure) [] []
          else .problem 500 "UPSTREAM_SERVER_ERROR", w.put supi { ctx with authStatus := .failure })
      | .ok .resync => ueAuthPost env w ⟨id, ctx.servingNetworkName, true⟩ up

end

end Free5gc.Ausf
