/-
  AMF: the allowed NSSAI of a registration (`handleRequestedNssai` in `internal/gmm/handler.go`,
  `InAllowedNssai` and `InSubscribedNssai` in `internal/context/amf_ue.go`, `InPlmnSupportList` in
  `internal/context/context.go`, `NSSelectionGetForRegistration` in
  `internal/sbi/consumer/nssf_service.go`).

  The list of an access is never cleared. A registration that stays on this AMF appends to what it
  finds, so the list afterwards is sound exactly if what it finds is sound already and, where it takes
  the default S-NSSAIs of the subscription, no two of these are the same.

  What the NSSF, the NRF and the target AMF answer is an input. The search for an NSSF, which is
  repeated until it succeeds, is taken to have succeeded.
-/
import Mathlib.Logic.Function.Basic
import Mathlib.Tactic.SplitIfs

namespace Free5gc.Amf.Gmm

inductive AccessType where
  | threeGppAccess
  | nonThreeGppAccess
  deriving DecidableEq, Repr

structure Snssai where
  sst : Int
  sd : List Char
  deriving DecidableEq, Repr

/-- `openapi.SnssaiEqualFold`, of which only reflexivity is used. -/
class SnssaiEquality where
  snssaiEqualFold : Snssai → Snssai → Bool
  snssaiEqualFold_refl : ∀ s, snssaiEqualFold s s = true

open SnssaiEquality (snssaiEqualFold snssaiEqualFold_refl)

structure NsiInformation where
  nrfId : String
  nsiId : String
  deriving DecidableEq, Repr

structure AllowedSnssai where
  allowedSnssai : Snssai
  nsiInformationList : List NsiInformation := []
  mappedHomeSnssai : Option Snssai := none
  deriving DecidableEq, Repr

structure SubscribedSnssai where
  subscribedSnssai : Snssai
  defaultIndication : Bool
  deriving DecidableEq, Repr

structure MappingOfSnssai where
  servingSnssai : Snssai
  homeSnssai : Option Snssai
  deriving DecidableEq, Repr

structure AmfUe where
  allowedNssai : AccessType → List AllowedSnssai
  subscribedNssai : List SubscribedSnssai

/-- The S-NSSAIs of each item of `PlmnSupportList`. -/
abbrev PlmnSupportList := List (List Snssai)

section

variable [SnssaiEquality]

def inAllowedNssai (allowed : List AllowedSnssai) (target : Snssai) : Bool :=
  allowed.any fun a => snssaiEqualFold a.allowedSnssai target

def inSubscribedNssai (subscribed : List SubscribedSnssai) (target : Snssai) : Bool :=
  subscribed.any fun s => snssaiEqualFold s.subscribedSnssai target

def inPlmnSupportList (amf : PlmnSupportList) (snssai : Snssai) : Bool :=
  amf.any fun item => item.any fun s => snssaiEqualFold s snssai

def allow (allowed : List AllowedSnssai) (requested : MappingOfSnssai) : List AllowedSnssai :=
  if inAllowedNssai allowed requested.servingSnssai then allowed
  else allowed ++ [⟨requested.servingSnssai, [], requested.homeSnssai⟩]

/-- The loop over the requested S-NSSAIs on the list of the access, and `needSliceSelection` at its
    end. An S-NSSAI is appended before it is checked for support. -/
def rangeRequestedNssai (amf : PlmnSupportList) (subscribed : List SubscribedSnssai) :
    List AllowedSnssai → List MappingOfSnssai → List AllowedSnssai × Bool
  | allowed, [] => (allowed, false)
  | allowed, requested :: rest =>
    if inSubscribedNssai subscribed requested.servingSnssai then
      if inPlmnSupportList amf requested.servingSnssai then
        rangeRequestedNssai amf subscribed (allow allowed requested) rest
      else (allow allowed requested, true)
    else (allowed, true)

def defaultNssai (amf : PlmnSupportList) (subscribed : List SubscribedSnssai) : List AllowedSnssai :=
  (subscribed.filter fun s => s.defaultIndication && inPlmnSupportList amf s.subscribedSnssai).map
    fun s => { allowedSnssai := s.subscribedSnssai }

/-- `AllowedNssaiList` of the NSSF's answer. -/
abbrev AllowedNssaiList := List (AccessType × List AllowedSnssai)

/-- The request, and what the other functions answer. -/
structure Registration where
  /-- `RequestedNSSAI` with the outcome of its conversion, if it is there -/
  requestedNSSAI : Option (Except String (List MappingOfSnssai))
  /-- nothing if the selection fails in any way -/
  nssf : Option AllowedNssaiList
  searchAmf : Except String Unit
  encodeRequest : Except String Unit
  n1MessageNotify : Except String Unit

/-- What `handleRequestedNssai` leaves and returns. -/
structure Handled where
  ue : AmfUe
  err : Option String
  /-- the request was handed to another AMF -/
  moved : Bool
  /-- the NSSF's answer, if it was asked for and came -/
  nssf : Option AllowedNssaiList

/-- A list of the answer takes the place of the list of its access. -/
def AmfUe.nsSelection (ue : AmfUe) (answer : AllowedNssaiList) : AmfUe :=
  { ue with
    allowedNssai := answer.foldl (fun m entry => Function.update m entry.1 entry.2) ue.allowedNssai }

/-- Without a target AMF, or without a message to it, the request is rerouted by the RAN and the error
    is returned. -/
def sliceSelection (r : Registration) (ue : AmfUe) : Handled :=
  match r.nssf with
  | none => ⟨ue, some "handle Requested Nssai of UE failed", false, none⟩
  | some answer =>
    match (do r.searchAmf; r.encodeRequest; r.n1MessageNotify : Except String Unit) with
    | .error err => ⟨ue.nsSelection answer, some err, false, answer⟩
    | .ok () => ⟨ue.nsSelection answer, none, true, answer⟩

def AmfUe.setAllowed (ue : AmfUe) (anType : AccessType) (allowed : List AllowedSnssai) : AmfUe :=
  { ue with allowedNssai := Function.update ue.allowedNssai anType allowed }

def useDefault (amf : PlmnSupportList) (anType : AccessType) (ue : AmfUe) : Handled :=
  if ue.allowedNssai anType = [] then
    ⟨ue.setAllowed anType (defaultNssai amf ue.subscribedNssai), none, false, none⟩
  else ⟨ue, none, false, none⟩

def handleRequestedNssai (amf : PlmnSupportList) (r : Registration) (ue : AmfUe) (anType : AccessType) :
    Handled :=
  match r.requestedNSSAI with
  | none => useDefault amf anType ue
  | some (.error err) =>
    ⟨ue, some ("decode failed at RequestedNSSAI[" ++ err ++ "]"), false, none⟩
  | some (.ok requested) =>
    let (allowed, needSliceSelection) :=
      rangeRequestedNssai amf ue.subscribedNssai (ue.allowedNssai anType) requested
    let ue := ue.setAllowed anType allowed
    if needSliceSelection then sliceSelection r ue else useDefault amf anType ue

/-! ## What is promised -/

/-- Subscribed and supported. -/
def Served (amf : PlmnSupportList) (subscribed : List SubscribedSnssai) (snssai : Snssai) : Prop :=
  inSubscribedNssai subscribed snssai ∧ inPlmnSupportList amf snssai

/-- No S-NSSAI twice. -/
def Distinct (allowed : List AllowedSnssai) : Prop :=
  allowed.Pairwise fun a b => snssaiEqualFold a.allowedSnssai b.allowedSnssai = false

def Handled.AllowedByNssf (h : Handled) (anType : AccessType) (a : AllowedSnssai) : Prop :=
  ∃ answer, h.nssf = some answer ∧ ∃ entry ∈ answer, entry.1 = anType ∧ a ∈ entry.2

def Handled.Sound (amf : PlmnSupportList) (anType : AccessType) (h : Handled) : Prop :=
  h.err = none → h.moved = false →
    (∀ a ∈ h.ue.allowedNssai anType,
      Served amf h.ue.subscribedNssai a.allowedSnssai ∨ h.AllowedByNssf anType a) ∧
    Distinct (h.ue.allowedNssai anType)

/-- The requested S-NSSAIs, if they can be read. -/
def Registration.requested (r : Registration) : Option (List MappingOfSnssai) :=
  match r.requestedNSSAI with
  | none => some []
  | some (.error _) => none
  | some (.ok requested) => some requested

/-! ## The two loops -/

variable {amf : PlmnSupportList} {subscribed : List SubscribedSnssai} {allowed : List AllowedSnssai}
  {anType : AccessType}

theorem distinct_append_one {a : AllowedSnssai} (h : Distinct allowed)
    (hnew : inAllowedNssai allowed a.allowedSnssai = false) : Distinct (allowed ++ [a]) := by
  refine List.pairwise_append.mpr ⟨h, List.pairwise_singleton _ _, ?_⟩
  intro b hb c hc
  rw [List.mem_singleton.mp hc]
  simpa using List.any_eq_false.mp hnew b hb

theorem rangeRequestedNssai_needs (allowed : List AllowedSnssai) (requested : List MappingOfSnssai)
    (h : ¬ ∀ m ∈ requested, Served amf subscribed m.servingSnssai) :
    (rangeRequestedNssai amf subscribed allowed requested).2 = true := by
  induction requested generalizing allowed with
  | nil => exact absurd (by simp) h
  | cons m rest ih =>
    rw [rangeRequestedNssai]
    split_ifs with hsub hplmn
    · exact ih _ fun hrest => h (List.forall_mem_cons.mpr ⟨⟨hsub, hplmn⟩, hrest⟩)
    · rfl
    · rfl

/-- If all that is requested is served, it is what the list has been extended by. -/
theorem rangeRequestedNssai_served (allowed : List AllowedSnssai) (requested : List MappingOfSnssai)
    (h : ∀ m ∈ requested, Served amf subscribed m.servingSnssai) :
    ∃ added, rangeRequestedNssai amf subscribed allowed requested = (allowed ++ added, false) ∧
      (∀ a ∈ added, Served amf subscribed a.allowedSnssai) ∧
      (Distinct allowed → Distinct (allowed ++ added)) ∧
      (allowed ++ added = [] → requested = []) := by
  induction requested generalizing allowed with
  | nil => exact ⟨[], by simp [rangeRequestedNssai], by simp, by simp, fun _ => rfl⟩
  | cons m rest ih =>
    obtain ⟨⟨hsub, hplmn⟩, hrest⟩ := List.forall_mem_cons.mp h
    rw [rangeRequestedNssai, if_pos hsub, if_pos hplmn, allow]
    by_cases hin : inAllowedNssai allowed m.servingSnssai = true
    · obtain ⟨added, hrun, hserved, hdistinct, -⟩ := ih allowed hrest
      refine ⟨added, by rw [if_pos hin, hrun], hserved, hdistinct, fun hnil => ?_⟩
      -- the list had the S-NSSAI, so it is not empty
      rw [(List.append_eq_nil_iff.mp hnil).1] at hin
      cases hin
    · obtain ⟨added, hrun, hserved, hdistinct, -⟩ :=
        ih (allowed ++ [⟨m.servingSnssai, [], m.homeSnssai⟩]) hrest
      rw [List.append_assoc] at hrun hdistinct
      refine ⟨[⟨m.servingSnssai, [], m.homeSnssai⟩] ++ added, by rw [if_neg hin, hrun], ?_, ?_, by simp⟩
      · exact List.forall_mem_cons.mpr ⟨⟨hsub, hplmn⟩, hserved⟩
      · exact fun hd => hdistinct (distinct_append_one hd (by simpa using hin))

theorem defaultNssai_served {a : AllowedSnssai} (h : a ∈ defaultNssai amf subscribed) :
    Served amf subscribed a.allowedSnssai := by
  obtain ⟨s, hs, rfl⟩ := List.mem_map.mp h
  obtain ⟨hmem, hcond⟩ := List.mem_filter.mp hs
  refine ⟨List.any_eq_true.mpr ⟨s, hmem, snssaiEqualFold_refl _⟩, ?_⟩
  exact (Bool.and_eq_true_iff.mp hcond).2

/-! ## The registration -/

omit [SnssaiEquality] in
theorem setAllowed_self (ue : AmfUe) (allowed : List AllowedSnssai) :
    (ue.setAllowed anType allowed).allowedNssai anType = allowed :=
  Function.update_self ..

/-- What was in the list of the access, or the default S-NSSAIs. -/
theorem useDefault_sound_iff (amf : PlmnSupportList) (anType : AccessType) (ue : AmfUe) :
    (useDefault amf anType ue).Sound amf anType ↔
      (∀ a ∈ ue.allowedNssai anType, Served amf ue.subscribedNssai a.allowedSnssai) ∧
        Distinct (ue.allowedNssai anType) ∧
        (ue.allowedNssai anType = [] → Distinct (defaultNssai amf ue.subscribedNssai)) := by
  unfold useDefault Handled.Sound Handled.AllowedByNssf
  split_ifs with hnil
  · rw [hnil]
    simp only [setAllowed_self]
    constructor
    · exact fun h => ⟨by simp, .nil, fun _ => (h trivial trivial).2⟩
    · exact fun h _ _ => ⟨fun a ha => .inl (defaultNssai_served ha), h.2.2 trivial⟩
  · simp [hnil]

theorem sliceSelection_sound (r : Registration) (ue : AmfUe) :
    (sliceSelection r ue).Sound amf anType := by
  unfold sliceSelection Handled.Sound
  split
  · simp
  · split <;> simp

/-- The allowed NSSAI of a registration that stays on this AMF is sound exactly if what it finds is,
    with the default S-NSSAIs where it takes them. -/
theorem handleRequestedNssai_sound_iff (amf : PlmnSupportList) (r : Registration) (ue : AmfUe)
    (anType : AccessType) :
    (handleRequestedNssai amf r ue anType).Sound amf anType ↔
      ∀ requested, r.requested = some requested →
        (∀ m ∈ requested, Served amf ue.subscribedNssai m.servingSnssai) →
        (∀ a ∈ ue.allowedNssai anType, Served amf ue.subscribedNssai a.allowedSnssai) ∧
          Distinct (ue.allowedNssai anType) ∧
          (ue.allowedNssai anType = [] → requested = [] →
            Distinct (defaultNssai amf ue.subscribedNssai)) := by
  unfold handleRequestedNssai Registration.requested
  match r.requestedNSSAI with
  | none =>
    simp [useDefault_sound_iff]
  | some (.error err) => simp [Handled.Sound]
  | some (.ok requested) =>
    by_cases hserved : ∀ m ∈ requested, Served amf ue.subscribedNssai m.servingSnssai
    · obtain ⟨added, hrun, hadded, hdistinct, hempty⟩ :=
        rangeRequestedNssai_served (ue.allowedNssai anType) requested hserved
      have huse := useDefault_sound_iff amf anType
        (ue.setAllowed anType (ue.allowedNssai anType ++ added))
      rw [setAllowed_self] at huse
      simp only [hrun, Bool.false_eq_true, if_false, huse, Option.some.injEq, forall_eq']
      constructor
      · intro h _
        refine ⟨fun a ha => h.1 a (List.mem_append_left _ ha), (List.pairwise_append.mp h.2.1).1, ?_⟩
        intro hnil hreq
        subst hreq
        rw [rangeRequestedNssai] at hrun
        exact h.2.2 ((Prod.mk.inj hrun).1 ▸ hnil)
      · intro h
        obtain ⟨hleft, hdist, hdefault⟩ := h hserved
        refine ⟨?_, hdistinct hdist, fun hnil => ?_⟩
        · exact List.forall_mem_append.mpr ⟨hleft, hadded⟩
        · exact hdefault (List.append_eq_nil_iff.mp hnil).1 (hempty hnil)
    · have hneeds := rangeRequestedNssai_needs (ue.allowedNssai anType) requested hserved
      simp [hneeds, sliceSelection_sound, hserved]

end

/-- A subscribed S-NSSAI that this AMF does not support stays in the list when the NSSF does not answer,
    and the next registration, which requests nothing, takes it for allowed. -/
theorem handleRequestedNssai_keeps_unsupported :
    let _ : SnssaiEquality := ⟨fun s t => decide (s = t), fun _ => decide_eq_true rfl⟩
    let amf : PlmnSupportList := [[⟨1, "010203".toList⟩]]
    let other : Snssai := ⟨1, "112233".toList⟩
    let ue : AmfUe := ⟨fun _ => [], [⟨⟨1, "010203".toList⟩, true⟩, ⟨other, false⟩]⟩
    let first : Registration := ⟨some (.ok [⟨other, none⟩]), none, .ok (), .ok (), .ok ()⟩
    let second : Registration := ⟨none, none, .ok (), .ok (), .ok ()⟩
    let failed := handleRequestedNssai amf first ue .threeGppAccess
    let h := handleRequestedNssai amf second failed.ue .threeGppAccess
    failed.err = some "handle Requested Nssai of UE failed" ∧
      h.err = none ∧ h.moved = false ∧ h.nssf = none ∧
      h.ue.allowedNssai .threeGppAccess = [⟨other, [], none⟩] ∧ inPlmnSupportList amf other = false := by
  decide +kernel

end Free5gc.Amf.Gmm
