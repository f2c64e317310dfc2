/-
  AMF: the context of a UE that moves to another AMF (`buildUEContextModel` in
  `internal/sbi/processor/ue_context.go`, `CopyDataFromUeContextModel` in
  `internal/context/amf_ue.go`).

  What one function writes into the model of the context and the other reads from it. The GPSI is
  written and never read; of an allowed S-NSSAI and of an SM context only some fields are written, and
  of the policy triggers and the algorithms only those that the model has names for.

  Base64, NAS counts and the `SetLen` of the NAS library are not part of the repository. `SetLen` may
  do anything with the buffer. Event subscriptions, which are written and not read, and
  restrictions, which are read and not written, are left out.
-/
import Free5gc.Amf.Gmm.RequestedNssai
import Free5gc.Lib.GoMap
import Free5gc.Lib.Hex
import Free5gc.Lib.NasCount

namespace Free5gc.Amf.Transfer

open Free5gc.Lib
open Free5gc.Amf.Gmm (AccessType Snssai AllowedSnssai)

/-! ## Contexts -/

structure NgKsi where
  tsc : String := ""
  ksi : Int := 0
  deriving DecidableEq

structure UESecurityCapability where
  len : UInt8 := 0
  buffer : List UInt8 := []
  deriving DecidableEq

structure Ambr where
  uplink : String
  downlink : String
  deriving DecidableEq

structure AccessAndMobilitySubscriptionData where
  subscribedUeAmbr : Option Ambr := none
  rfspIndex : Int := 0
  deriving DecidableEq

/-- `PcfAmPolicyControlRequestTrigger`, with the triggers that the model has no name for. -/
inductive Trigger where
  | locCh
  | praCh
  | allowedNssaiCh
  | nwdafDataCh
  | smfSelectCh
  | accessTypeCh
  | other (name : String)
  deriving DecidableEq

/-- The fields of an SM context that the model has no place for. -/
structure SmLocal where
  userLocation : Option String := none
  plmnID : String × String := ("", "")
  smfID : String := ""
  smfUri : String := ""
  ulNASTransport : Option (List UInt8) := none
  duplicated : Bool := false
  deriving DecidableEq

structure SmContext where
  pduSessionID : Int
  smContextRef : String
  snssai : Snssai
  dnn : String
  accessType : AccessType
  nsInstance : String
  hSmfID : String
  vSmfID : String
  rest : SmLocal := {}
  deriving DecidableEq

structure AmfUe (C : Type) where
  supi : String := ""
  unauthenticatedSupi : Bool := true
  gpsi : String := ""
  pei : String := ""
  udmGroupId : String := ""
  ausfGroupId : String := ""
  routingIndicator : String := ""
  ngKsi : NgKsi := {}
  kamf : String := ""
  nh : List UInt8 := []
  ncc : UInt8 := 0
  securityContextAvailable : Bool := false
  integrityAlg : UInt8 := 0
  cipheringAlg : UInt8 := 0
  dlCount : C
  ulCount : C
  ueSecurityCapability : UESecurityCapability := {}
  subscriptionData : Option AccessAndMobilitySubscriptionData := none
  allowedNssai : AccessType → List AllowedSnssai := fun _ => []
  smContextList : GoMap Int SmContext := ∅
  pcfId : String := ""
  amPolicyUri : String := ""
  /-- the triggers of `AmPolicyAssociation` -/
  amPolicyTriggers : Option (List Trigger) := none
  traceData : Option String := none

/-- A fresh context; it may have been made for a SUPI. -/
def newAmfUe {C : Type} [NasCount C] (supi : String) : AmfUe C :=
  { supi, dlCount := NasCount.zero, ulCount := NasCount.zero }

/-! ## The model of a context -/

inductive Algorithm where
  | alg0
  | alg1
  | alg2
  | alg3
  deriving DecidableEq

def Algorithm.code : Algorithm → UInt8
  | .alg0 => 0
  | .alg1 => 1
  | .alg2 => 2
  | .alg3 => 3

/-- `NIA0` to `NIA3` and `NEA0` to `NEA3` have the same codes. -/
def Algorithm.of (code : UInt8) : Option Algorithm :=
  [Algorithm.alg0, .alg1, .alg2, .alg3].find? fun a => a.code = code

structure NasSecurityMode where
  integrityAlgorithm : Option Algorithm
  cipheringAlgorithm : Option Algorithm

inductive KeyAmfType where
  | kamf
  | kprimeamf
  deriving DecidableEq

structure SeafData where
  ngKsi : NgKsi
  keyAmf : Option (KeyAmfType × String)
  nh : List Char
  ncc : Nat

structure MmContext where
  accessType : AccessType
  nasSecurityMode : Option NasSecurityMode
  nasDownlinkCount : Nat
  nasUplinkCount : Nat
  ueSecurityCapability : List Char
  allowedNssai : List Snssai

inductive PolicyReqTrigger where
  | locationChange
  | praChange
  | allowedNssaiChange
  | nwdafDataChange
  | smfSelectChange
  | accessTypeChange
  deriving DecidableEq

structure PduSessionContext where
  pduSessionId : Int
  smContextRef : String
  sNssai : Snssai
  dnn : String
  accessType : AccessType
  nsInstance : String
  hsmfId : String
  vsmfId : String

structure UeContext where
  supi : String
  supiUnauthInd : Bool
  gpsiList : List String
  pei : String
  udmGroupId : String
  ausfGroupId : String
  routingIndicator : String
  subUeAmbr : Option Ambr
  subRfsp : Int
  seafData : Option SeafData
  pcfId : String
  pcfAmPolicyUri : String
  amPolicyReqTriggerList : List PolicyReqTrigger
  sessionContextList : List PduSessionContext
  mmContextList : List MmContext
  traceData : Option String

/-- The text of some bytes, which is empty for no bytes only. -/
structure Base64 where
  encode : List UInt8 → List Char
  decode : List Char → Option (List UInt8)
  decode_encode : ∀ bytes, decode (encode bytes) = some bytes
  encode_eq_nil : ∀ bytes, encode bytes = [] ↔ bytes = []

inductive TransferReason where
  | initReg
  | mobiReg
  | mobiRegUeValidated
  deriving DecidableEq

/-! ## Writing -/

def Trigger.request : Trigger → Option PolicyReqTrigger
  | .locCh => some .locationChange
  | .praCh => some .praChange
  | .allowedNssaiCh => some .allowedNssaiChange
  | .nwdafDataCh => some .nwdafDataChange
  | .smfSelectCh => some .smfSelectChange
  | .accessTypeCh => some .accessTypeChange
  | .other _ => none

def buildAmPolicyReqTriggers (triggers : List Trigger) : List PolicyReqTrigger :=
  triggers.filterMap Trigger.request

def SmContext.session (c : SmContext) : PduSessionContext :=
  ⟨c.pduSessionID, c.smContextRef, c.snssai, c.dnn, c.accessType, c.nsInstance, c.hSmfID, c.vSmfID⟩

section

variable {C : Type} (base64 : Base64) (order : RangeOrder Int)

def buildMmContext [NasCount C] (ue : AmfUe C) : MmContext where
  accessType := .threeGppAccess
  nasSecurityMode := some ⟨Algorithm.of ue.integrityAlg, Algorithm.of ue.cipheringAlg⟩
  nasDownlinkCount := NasCount.get ue.dlCount
  nasUplinkCount := NasCount.get ue.ulCount
  ueSecurityCapability := base64.encode ue.ueSecurityCapability.buffer
  allowedNssai := (ue.allowedNssai .threeGppAccess).map AllowedSnssai.allowedSnssai

def buildSeafData (ue : AmfUe C) : SeafData :=
  ⟨ue.ngKsi, some (.kamf, ue.kamf), encodeHex ue.nh, ue.ncc.toNat⟩

/-- The SM contexts in the order in which `Range` comes to them. -/
def AmfUe.smContexts (ue : AmfUe C) : List SmContext :=
  (order.keys 0 ue.smContextList.keys).filterMap ue.smContextList.lookup

def buildUEContextModel [NasCount C] (ue : AmfUe C) (reason : TransferReason) : UeContext where
  supi := ue.supi
  supiUnauthInd := ue.unauthenticatedSupi
  gpsiList := if ue.gpsi = "" then [] else [ue.gpsi]
  pei := ue.pei
  udmGroupId := ue.udmGroupId
  ausfGroupId := ue.ausfGroupId
  routingIndicator := ue.routingIndicator
  subUeAmbr := ue.subscriptionData.bind AccessAndMobilitySubscriptionData.subscribedUeAmbr
  subRfsp := ue.subscriptionData.elim 0 AccessAndMobilitySubscriptionData.rfspIndex
  seafData := if reason = .initReg ∨ reason = .mobiReg then some (buildSeafData ue) else none
  pcfId := ue.pcfId
  pcfAmPolicyUri := ue.amPolicyUri
  amPolicyReqTriggerList := buildAmPolicyReqTriggers (ue.amPolicyTriggers.getD [])
  sessionContextList :=
    if reason = .mobiRegUeValidated ∨ reason = .mobiReg then
      (ue.smContexts order).map SmContext.session
    else []
  mmContextList := if reason = .initReg ∨ reason = .mobiReg then [buildMmContext base64 ue] else []
  traceData := ue.traceData

end

/-! ## Reading -/

/-- `if text != "" { field = text }`. -/
def keep (text field : String) : String := if text = "" then field else text

def PolicyReqTrigger.trigger : PolicyReqTrigger → Trigger
  | .locationChange => .locCh
  | .praChange => .praCh
  | .allowedNssaiChange => .allowedNssaiCh
  | .nwdafDataChange => .nwdafDataCh
  | .smfSelectChange => .smfSelectCh
  | .accessTypeChange => .accessTypeCh

def copySubscription (c : UeContext) (data : Option AccessAndMobilitySubscriptionData) :
    Option AccessAndMobilitySubscriptionData :=
  let data := match c.subUeAmbr with
    | none => data
    | some ambr => some { data.getD {} with subscribedUeAmbr := some ambr }
  if c.subRfsp = 0 then data else some { data.getD {} with rfspIndex := c.subRfsp }

variable {C : Type}

/-- The fields before the security context. -/
def copyIdentity (c : UeContext) (ue : AmfUe C) : AmfUe C :=
  { ue with
    supi := keep c.supi ue.supi
    unauthenticatedSupi := if c.supi = "" then ue.unauthenticatedSupi else c.supiUnauthInd
    pei := keep c.pei ue.pei
    udmGroupId := keep c.udmGroupId ue.udmGroupId
    ausfGroupId := keep c.ausfGroupId ue.ausfGroupId
    routingIndicator := keep c.routingIndicator ue.routingIndicator
    subscriptionData := copySubscription c ue.subscriptionData }

/-- A function that returns early leaves the context as it is then. -/
abbrev Copying (C : Type) := Except (AmfUe C)

def copySeafData (ue : AmfUe C) : Option SeafData → Copying C (AmfUe C)
  | none => .ok { ue with securityContextAvailable := false }
  | some seafData =>
    let kamf := match seafData.keyAmf with
      | some (.kamf, key) => key
      | _ => ue.kamf
    let ue := { ue with ngKsi := seafData.ngKsi, kamf }
    match decodeHex seafData.nh with
    | none => .error ue
    | some nh => .ok { ue with nh, ncc := UInt8.ofNat seafData.ncc }

def copyTriggers (requests : List PolicyReqTrigger) (triggers : Option (List Trigger)) :
    Option (List Trigger) :=
  if requests = [] then triggers
  else some (triggers.getD [] ++ requests.map PolicyReqTrigger.trigger)

def storeSmContext (m : GoMap Int SmContext) (s : PduSessionContext) : GoMap Int SmContext :=
  m.insert s.pduSessionId
    { pduSessionID := s.pduSessionId
      smContextRef := s.smContextRef
      snssai := s.sNssai
      dnn := s.dnn
      accessType := s.accessType
      nsInstance := s.nsInstance
      hSmfID := s.hsmfId
      vSmfID := s.vsmfId }

def copyCount [NasCount C] (n : Nat) (count : C) : C :=
  if n = 0 then count else NasCount.set (UInt16.ofNat (n / 256 % 65536)) (UInt8.ofNat (n % 256))

def copyAlgorithm (algorithm : Option Algorithm) (code : UInt8) : UInt8 :=
  algorithm.elim code Algorithm.code

section

variable [NasCount C] (base64 : Base64)
  (setLen : UInt8 → UESecurityCapability → UESecurityCapability)

def copyCapability (text : List Char) (capability : UESecurityCapability) :
    Option UESecurityCapability :=
  if text = [] then some capability
  else (base64.decode text).map fun buf =>
    setLen (UInt8.ofNat buf.length) { capability with buffer := buf }

def copySecurityMode (mm : MmContext) (ue : AmfUe C) : Copying C (AmfUe C) :=
  match mm.nasSecurityMode with
  | none => .ok ue
  | some mode =>
    let ue := { ue with
      integrityAlg := copyAlgorithm mode.integrityAlgorithm ue.integrityAlg
      cipheringAlg := copyAlgorithm mode.cipheringAlgorithm ue.cipheringAlg
      dlCount := copyCount mm.nasDownlinkCount ue.dlCount
      ulCount := copyCount mm.nasUplinkCount ue.ulCount }
    match copyCapability base64 setLen mm.ueSecurityCapability ue.ueSecurityCapability with
    | none => .error ue
    | some ueSecurityCapability => .ok { ue with ueSecurityCapability }

def copyAllowed (mm : MmContext) (ue : AmfUe C) : AmfUe C :=
  { ue with
    allowedNssai := Function.update ue.allowedNssai mm.accessType
      (ue.allowedNssai mm.accessType ++ mm.allowedNssai.map fun s => { allowedSnssai := s }) }

def copyMmContext (ue : AmfUe C) (mm : MmContext) : Copying C (AmfUe C) :=
  copyAllowed mm <$> if mm.accessType = .threeGppAccess then copySecurityMode base64 setLen mm ue
    else .ok ue

def copyRest (c : UeContext) (ue : AmfUe C) : Copying C (AmfUe C) :=
  c.mmContextList.foldlM (copyMmContext base64 setLen)
    { ue with
      pcfId := keep c.pcfId ue.pcfId
      amPolicyUri := keep c.pcfAmPolicyUri ue.amPolicyUri
      amPolicyTriggers := copyTriggers c.amPolicyReqTriggerList ue.amPolicyTriggers
      smContextList := c.sessionContextList.foldl storeSmContext ue.smContextList }

def copyDataFromUeContextModel (c : UeContext) (ue : AmfUe C) : AmfUe C :=
  match copySeafData (copyIdentity c ue) c.seafData >>= copyRest base64 setLen c with
  | .error ue => ue
  | .ok ue => { ue with traceData := c.traceData <|> ue.traceData }

end

/-! ## What is promised -/

structure SameContext (ue ue' : AmfUe C) : Prop where
  supi : ue'.supi = ue.supi
  gpsi : ue'.gpsi = ue.gpsi
  pei : ue'.pei = ue.pei
  groupIds : ue'.udmGroupId = ue.udmGroupId ∧ ue'.ausfGroupId = ue.ausfGroupId
  routingIndicator : ue'.routingIndicator = ue.routingIndicator
  ngKsi : ue'.ngKsi = ue.ngKsi
  kamf : ue'.kamf = ue.kamf
  nh : ue'.nh = ue.nh
  ncc : ue'.ncc = ue.ncc
  integrityAlg : ue'.integrityAlg = ue.integrityAlg
  cipheringAlg : ue'.cipheringAlg = ue.cipheringAlg
  counts : ue'.ulCount = ue.ulCount ∧ ue'.dlCount = ue.dlCount
  capability : ue'.ueSecurityCapability = ue.ueSecurityCapability
  ambr : ue'.subscriptionData.bind AccessAndMobilitySubscriptionData.subscribedUeAmbr =
    ue.subscriptionData.bind AccessAndMobilitySubscriptionData.subscribedUeAmbr
  rfsp : ue'.subscriptionData.elim 0 AccessAndMobilitySubscriptionData.rfspIndex =
    ue.subscriptionData.elim 0 AccessAndMobilitySubscriptionData.rfspIndex
  allowedNssai : ue'.allowedNssai = ue.allowedNssai
  smContexts : ue'.smContextList = ue.smContextList
  triggers : ue'.amPolicyTriggers.getD [] = ue.amPolicyTriggers.getD []

/-- What the model has a place for. -/
structure Transferable (setLen : UInt8 → UESecurityCapability → UESecurityCapability) (supi : String)
    (ue : AmfUe C) : Prop where
  supi : ue.supi = "" → supi = ""
  gpsi : ue.gpsi = ""
  algorithms : ue.integrityAlg < 4 ∧ ue.cipheringAlg < 4
  capability :
    let buffer := ue.ueSecurityCapability.buffer
    ue.ueSecurityCapability =
      if buffer = [] then {} else setLen (UInt8.ofNat buffer.length) { buffer }
  allowedNssai : ∀ a ∈ ue.allowedNssai .threeGppAccess, a = { allowedSnssai := a.allowedSnssai }
  otherAccess : ue.allowedNssai .nonThreeGppAccess = []
  smContexts : ∀ id c, ue.smContextList.lookup id = some c → c.pduSessionID = id ∧ c.rest = {}
  triggers : ∀ t ∈ ue.amPolicyTriggers.getD [], t.request ≠ none

/-! ## Field by field -/

variable {base64 : Base64} {order : RangeOrder Int}
  {setLen : UInt8 → UESecurityCapability → UESecurityCapability} {ue : AmfUe C} {supi : String}

theorem keep_empty (text : String) : keep text "" = text := by
  unfold keep
  split_ifs with h
  · exact h.symm
  · rfl

theorem keep_eq_iff (text field : String) : keep text field = text ↔ (text = "" → field = "") := by
  unfold keep
  split_ifs with h
  · simp [h]
  · simp [h]

theorem copyCount_get [NasCount C] (c : C) : copyCount (NasCount.get c) NasCount.zero = c := by
  have ho := (NasCount.overflow c).toNat_lt
  have hs := (NasCount.sqn c).toNat_lt
  unfold copyCount
  rw [NasCount.get_eq]
  conv_rhs => rw [← NasCount.set_self c]
  split_ifs with h
  · rw [NasCount.zero_eq]
    congr 1
    · exact UInt16.toNat_inj.mp (by simp; omega)
    · exact UInt8.toNat_inj.mp (by simp; omega)
  · rw [Nat.mul_add_mod', Nat.mod_eq_of_lt hs, Nat.mul_comm, Nat.mul_add_div (by decide),
      Nat.div_eq_of_lt hs, Nat.add_zero, Nat.mod_eq_of_lt ho, UInt16.ofNat_toNat, UInt8.ofNat_toNat]

theorem copyAlgorithm_bits : ∀ v : BitVec 8,
    copyAlgorithm (Algorithm.of ⟨v⟩) 0 = ⟨v⟩ ↔ (⟨v⟩ : UInt8) < 4 := by
  decide +kernel

theorem copyAlgorithm_eq_iff (code : UInt8) : copyAlgorithm (Algorithm.of code) 0 = code ↔ code < 4 :=
  copyAlgorithm_bits code.toBitVec

theorem copyCapability_encode (buffer : List UInt8) :
    copyCapability base64 setLen (base64.encode buffer) {} =
      some (if buffer = [] then {} else setLen (UInt8.ofNat buffer.length) { buffer }) := by
  unfold copyCapability
  by_cases h : buffer = []
  · rw [if_pos ((base64.encode_eq_nil buffer).mpr h), if_pos h]
  · rw [if_neg fun hnil => h ((base64.encode_eq_nil buffer).mp hnil), base64.decode_encode, if_neg h]
    rfl

theorem copySubscription_fresh (c : UeContext) :
    (copySubscription c none).bind AccessAndMobilitySubscriptionData.subscribedUeAmbr = c.subUeAmbr ∧
      (copySubscription c none).elim 0 AccessAndMobilitySubscriptionData.rfspIndex = c.subRfsp := by
  unfold copySubscription
  cases c.subUeAmbr with
  | none => by_cases h : c.subRfsp = 0 <;> simp [h]
  | some ambr => by_cases h : c.subRfsp = 0 <;> simp [h]

theorem trigger_request {t : Trigger} {r : PolicyReqTrigger} (h : t.request = some r) :
    r.trigger = t := by
  cases t <;> cases h <;> rfl

theorem triggers_back (ts : List Trigger) :
    (copyTriggers (buildAmPolicyReqTriggers ts) none).getD [] =
      ts.filter fun t => t.request.isSome := by
  have hmap : (buildAmPolicyReqTriggers ts).map PolicyReqTrigger.trigger =
      ts.filter fun t => t.request.isSome := by
    unfold buildAmPolicyReqTriggers
    induction ts with
    | nil => rfl
    | cons t ts ih =>
      cases hreq : t.request with
      | none => rw [List.filterMap_cons_none hreq, List.filter_cons_of_neg (by simp [hreq]), ih]
      | some r =>
        rw [List.filterMap_cons_some hreq, List.filter_cons_of_pos (by simp [hreq]), List.map_cons, ih,
          trigger_request hreq]
  rw [← hmap, copyTriggers]
  split_ifs with hnil
  · rw [hnil]
    rfl
  · rfl

theorem map_eq_self_iff {α : Type} {f : α → α} {l : List α} : l.map f = l ↔ ∀ a ∈ l, f a = a := by
  constructor
  · exact fun h => List.map_eq_map_iff.mp (h.trans (List.map_id l).symm)
  · intro h
    rw [List.map_congr_left h, List.map_id']

/-! ## SM contexts -/

/-- Filed under its own number, with nothing in the fields that the model has no place for. -/
def Stored (m : GoMap Int SmContext) : Prop :=
  ∀ id c, m.lookup id = some c → c.pduSessionID = id ∧ c.rest = {}

theorem stored_insert {m : GoMap Int SmContext} (h : Stored m) (s : PduSessionContext) :
    Stored (storeSmContext m s) :=
  GoMap.forall_lookup_insert ⟨rfl, rfl⟩ h

theorem stored_foldl {m : GoMap Int SmContext} (h : Stored m) (l : List PduSessionContext) :
    Stored (l.foldl storeSmContext m) := by
  induction l generalizing m with
  | nil => exact h
  | cons s l ih => exact ih (stored_insert h s)

theorem storeSmContext_session {m : GoMap Int SmContext} {id : Int} {c : SmContext}
    (hid : c.pduSessionID = id) (hrest : c.rest = {}) :
    storeSmContext m c.session = m.insert id c := by
  obtain ⟨pduSessionID, _, _, _, _, _, _, _, rest⟩ := c
  subst hid hrest
  rfl

theorem lookup_foldl_store {m acc : GoMap Int SmContext} (h : Stored m) (ks : List Int) (id : Int) :
    (((ks.filterMap fun k => m.lookup k).map SmContext.session).foldl storeSmContext acc).lookup id =
      if id ∈ ks then (m.lookup id).or (acc.lookup id) else acc.lookup id := by
  induction ks generalizing acc with
  | nil => simp
  | cons k ks ih =>
    cases hk : m.lookup k with
    | none =>
      simp only [List.filterMap_cons, hk, ih, List.mem_cons]
      by_cases hid : id = k
      · subst hid
        simp [hk]
      · simp [hid]
    | some c =>
      obtain ⟨hcid, hrest⟩ := h k c hk
      simp only [List.filterMap_cons, hk, List.map_cons, List.foldl_cons,
        storeSmContext_session hcid hrest, ih, List.mem_cons, GoMap.lookup_insert_eq]
      by_cases hid : id = k
      · subst hid
        simp [hk]
      · simp [hid]

theorem smContexts_back_iff :
    ((ue.smContexts order).map SmContext.session).foldl storeSmContext ∅ = ue.smContextList ↔
      Stored ue.smContextList := by
  constructor
  · intro h
    rw [← h]
    exact stored_foldl (fun id c hc => by simp at hc) _
  · intro h
    refine Finmap.ext_lookup fun id => ?_
    unfold AmfUe.smContexts
    rw [lookup_foldl_store h, Finmap.lookup_empty, Option.or_none]
    split_ifs with hid
    · rfl
    · rw [order.mem_keys, Finmap.mem_keys] at hid
      exact (Finmap.lookup_eq_none.mpr hid).symm

/-! ## The transfer -/

/-- What arrives at the new AMF. -/
theorem copy_build [NasCount C] (base64 : Base64) (order : RangeOrder Int)
    (setLen : UInt8 → UESecurityCapability → UESecurityCapability) (ue : AmfUe C) (supi : String) :
    let c := buildUEContextModel base64 order ue .mobiReg
    let buffer := ue.ueSecurityCapability.buffer
    copyDataFromUeContextModel base64 setLen c (newAmfUe supi) =
      { supi := keep ue.supi supi
        unauthenticatedSupi := if ue.supi = "" then true else ue.unauthenticatedSupi
        pei := ue.pei
        udmGroupId := ue.udmGroupId
        ausfGroupId := ue.ausfGroupId
        routingIndicator := ue.routingIndicator
        ngKsi := ue.ngKsi
        kamf := ue.kamf
        nh := ue.nh
        ncc := ue.ncc
        integrityAlg := copyAlgorithm (Algorithm.of ue.integrityAlg) 0
        cipheringAlg := copyAlgorithm (Algorithm.of ue.cipheringAlg) 0
        dlCount := ue.dlCount
        ulCount := ue.ulCount
        ueSecurityCapability :=
          if buffer = [] then {} else setLen (UInt8.ofNat buffer.length) { buffer }
        subscriptionData := copySubscription c none
        allowedNssai := Function.update (fun _ => []) .threeGppAccess
          ((ue.allowedNssai .threeGppAccess).map fun a => { allowedSnssai := a.allowedSnssai })
        smContextList := ((ue.smContexts order).map SmContext.session).foldl storeSmContext ∅
        pcfId := ue.pcfId
        amPolicyUri := ue.amPolicyUri
        amPolicyTriggers := copyTriggers (buildAmPolicyReqTriggers (ue.amPolicyTriggers.getD [])) none
        traceData := ue.traceData } := by
  dsimp only
  have hbind : ∀ (x : AmfUe C) (f : AmfUe C → Copying C (AmfUe C)), (Except.ok x >>= f) = f x :=
    fun _ _ => rfl
  have hpure : ∀ x : AmfUe C, (pure x : Copying C (AmfUe C)) = .ok x := fun _ => rfl
  simp [copyDataFromUeContextModel, buildUEContextModel, copySeafData, buildSeafData, decodeHex_encodeHex,
    copyRest, copyMmContext, buildMmContext, copySecurityMode, copyIdentity, newAmfUe, hbind, hpure,
    copyCapability_encode, copyAllowed, keep_empty, copyCount_get, Function.comp_def]

/-- The context arrives as it was exactly if the model has a place for all that it holds. -/
theorem transfer_same_iff [NasCount C] (base64 : Base64) (order : RangeOrder Int)
    (setLen : UInt8 → UESecurityCapability → UESecurityCapability) (ue : AmfUe C) (supi : String) :
    SameContext ue (copyDataFromUeContextModel base64 setLen
        (buildUEContextModel base64 order ue .mobiReg) (newAmfUe supi)) ↔
      Transferable setLen supi ue := by
  rw [copy_build]
  have hsub := copySubscription_fresh (buildUEContextModel base64 order ue .mobiReg)
  have htriggers := triggers_back (ue.amPolicyTriggers.getD [])
  constructor
  · intro h
    refine ⟨(keep_eq_iff _ _).mp h.supi, h.gpsi.symm, ⟨(copyAlgorithm_eq_iff _).mp h.integrityAlg,
      (copyAlgorithm_eq_iff _).mp h.cipheringAlg⟩, h.capability.symm, ?_, ?_, ?_, ?_⟩
    · have hallowed := congrFun h.allowedNssai .threeGppAccess
      dsimp only at hallowed
      rw [Function.update_self] at hallowed
      exact fun a ha => (map_eq_self_iff.mp hallowed a ha).symm
    · exact (congrFun h.allowedNssai .nonThreeGppAccess).symm
    · exact smContexts_back_iff.mp h.smContexts
    · have hfilter := htriggers.symm.trans h.triggers
      intro t ht hnone
      have := List.filter_eq_self.mp hfilter t ht
      simp [hnone] at this
  · intro h
    refine
      { supi := (keep_eq_iff _ _).mpr h.supi, gpsi := h.gpsi.symm, pei := rfl, groupIds := ⟨rfl, rfl⟩,
        routingIndicator := rfl, ngKsi := rfl, kamf := rfl, nh := rfl, ncc := rfl,
        integrityAlg := (copyAlgorithm_eq_iff _).mpr h.algorithms.1,
        cipheringAlg := (copyAlgorithm_eq_iff _).mpr h.algorithms.2, counts := ⟨rfl, rfl⟩,
        capability := h.capability.symm, ambr := hsub.1, rfsp := hsub.2, allowedNssai := ?_,
        smContexts := smContexts_back_iff.mpr h.smContexts, triggers := ?_ }
    · funext access
      cases access with
      | threeGppAccess => exact map_eq_self_iff.mpr fun a ha => (h.allowedNssai a ha).symm
      | nonThreeGppAccess => exact h.otherAccess.symm
    · refine htriggers.trans (List.filter_eq_self.mpr fun t ht => ?_)
      exact Option.isSome_iff_ne_none.mpr (h.triggers t ht)

/-- A UE with a GPSI and a security context. -/
def withGpsi : AmfUe (UInt16 × UInt8) :=
  { supi := "imsi-208930000000001", unauthenticatedSupi := false, gpsi := "msisdn-0900000000",
    dlCount := (0, 0), ulCount := (0, 0), kamf := "00", securityContextAvailable := true,
    integrityAlg := 2 }

theorem gpsi_lost : withGpsi.gpsi = "msisdn-0900000000" ∧
    ∀ base64 order setLen, (copyDataFromUeContextModel base64 setLen
      (buildUEContextModel base64 order withGpsi .mobiReg)
      (newAmfUe "" : AmfUe (UInt16 × UInt8))).gpsi = "" :=
  ⟨rfl, fun base64 order setLen => by rw [copy_build]⟩

end Free5gc.Amf.Transfer
