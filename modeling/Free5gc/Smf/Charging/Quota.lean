/-
  The CHF's decision on its way to the UPF: updateGrantedQuota
  (NFs/smf/internal/sbi/processor/charging_trigger.go) writes the triggers, the threshold, the
  validity time and the quota of each item of a charging response into the URRs of its rating
  group, and BuildPfcpSessionModificationRequest with urrToUpdateURR
  (NFs/smf/internal/pfcp/message/build.go) turns the URRs that wait for an update into Update
  URRs.

  The validity time sets its trigger in the URR and not in the copy that replaces the URR's
  triggers in the end, urrToUpdateURR sends a validity time exactly if there is none, and it
  leaves a quota of 0 out. A volume or event limit starts a timer, and NewTimer panics if the
  limit is not positive; `none` stands for that. `decision_reaches_upf_iff` says for which
  decisions and earlier states none of this shows.

  Not modelled: the content of Create URRs. Expiry timers are kept as data and do not fire.
  The clock does not move during a call and shows a time after 1900.
-/
import Free5gc.Lib.Int64
import Free5gc.Lib.Run
import Free5gc.Smf.Charging.Context
import Mathlib.Algebra.Ring.Nat

namespace Free5gc.Smf.Charging

open Free5gc.Lib

/-! ## The table of URRs -/

namespace SMContext

def urrEntry (c : SMContext) (upfId : String) (urrID : UInt32) : Option UrrEntry :=
  (c.urrTable.lookup upfId).bind fun entries => entries.lookup urrID

/-- Change an entry of the table; an absent entry changes nothing. -/
def modifyUrrEntry (c : SMContext) (upfId : String) (urrID : UInt32) (f : UrrEntry → UrrEntry) :
    SMContext :=
  { c with urrTable := c.urrTable.modify upfId fun entries => entries.modify urrID f }

def setUrrState (c : SMContext) (upfId : String) (urrID : UInt32) (state : RuleState) : SMContext :=
  c.modifyUrrEntry upfId urrID fun entry => { entry with state := state }

def getUrrState (c : SMContext) (upfId : String) (urrID : UInt32) : RuleState :=
  match c.urrEntry upfId urrID with
  | some entry => entry.state
  | none => .initial

theorem urrEntry_modifyUrrEntry (c : SMContext) (upfId upfId' : String) (urrID urrID' : UInt32)
    (f : UrrEntry → UrrEntry) :
    (c.modifyUrrEntry upfId urrID f).urrEntry upfId' urrID' =
      if upfId' = upfId ∧ urrID' = urrID then (c.urrEntry upfId' urrID').map f
      else c.urrEntry upfId' urrID' := by
  unfold modifyUrrEntry urrEntry
  dsimp only
  rw [GoMap.lookup_modify]
  by_cases hu : upfId' = upfId
  · rw [if_pos hu]
    cases c.urrTable.lookup upfId' with
    | none => simp
    | some entries => simp [GoMap.lookup_modify, hu]
  · rw [if_neg hu, if_neg (fun h => hu h.1)]

end SMContext

/-! ## updateGrantedQuota -/

structure GrantedUnit where
  totalVolume : Int32
  deriving DecidableEq, Repr

structure MultipleUnitInformation where
  ratingGroup : Int32
  uPFID : String
  triggers : List Trigger := []
  volumeQuotaThreshold : Int32 := 0
  validityTime : Int32 := 0
  grantedUnit : Option GrantedUnit := none
  deriving DecidableEq, Repr

/-- `uint64(x)` of an `int32` -/
def extend (x : Int32) : UInt64 := x.toInt64.toUInt64

variable {order : RangeOrder UInt32} {c : SMContext} {upfId : String} {rg x : Int32}
  {urrID : UInt32} {ui : MultipleUnitInformation} {entry : UrrEntry}
  {method : QuotaManagementIndicator} {ids : List UInt32}

@[simp] theorem extend_zero : extend 0 = 0 := rfl

/-- The numbers of the URRs that `getUrrsByRg` finds. -/
def getUrrsByRg (order : RangeOrder UInt32) (c : SMContext) (upfId : String) (rg : Int32) :
    List UInt32 :=
  match c.urrTable.lookup upfId with
  | some entries =>
    (order.keys 0 entries.keys).filter fun urrID =>
      (c.chargingInfo.lookup urrID).any fun chgInfo => decide (chgInfo.ratingGroup = rg)
  | none => []

/-- The variables of the loop over the triggers of an item. -/
structure Granting where
  trigger : ReportingTriggers
  urr : URR
  chgInfo : ChargingInfo

/-- `NewTimer` calls `time.NewTicker`, which panics if the interval is not positive. -/
def newTimer (seconds : Int32) (upfId : String) (urrId : UInt32) (reports : Bool) :
    Option ExpiryTimer :=
  if 0 < seconds then some ⟨seconds, upfId, urrId, reports⟩ else none

/-- The body of the loop over the triggers of an item. -/
def Granting.apply (now : Nat) (ui : MultipleUnitInformation) (urrID : UInt32) (g : Granting)
    (t : Trigger) : Option Granting :=
  match t.triggerType with
  | .volumeLimit =>
    match g.chgInfo.chargingLevel, t.triggerCategory with
    | .pduSessionCharging, .immediateReport =>
      (newTimer t.volumeLimit ui.uPFID urrID true).map fun timer =>
        { g with chgInfo := { g.chgInfo with volumeLimitExpiryTimer := some timer } }
    | .flowCharging, .deferredReport =>
      (newTimer t.volumeLimit ui.uPFID urrID false).map fun timer =>
        { g with chgInfo := { g.chgInfo with volumeLimitExpiryTimer := some timer } }
    | _, _ => some g
  | .maxNumberOfChangesInChargingConditions =>
    match g.chgInfo.chargingLevel with
    | .pduSessionCharging =>
      (newTimer t.eventLimit ui.uPFID urrID true).map fun timer =>
        { g with chgInfo := { g.chgInfo with eventLimitExpiryTimer := some timer } }
    | _ => some g
  | .quotaThreshold =>
    if ui.volumeQuotaThreshold ≠ 0 then
      some { g with
        trigger := { g.trigger with volth := true }
        urr := { g.urr with volumeThreshold := extend ui.volumeQuotaThreshold } }
    else some g
  | .validityTime =>
    if ui.validityTime ≠ 0 then
      some { g with urr := { g.urr with
          reportingTrigger := { g.urr.reportingTrigger with quvti := true }
          quotaValidityTime := now + ui.validityTime.toInt * 10 ^ 9 } }
    else some g
  | .quotaExhausted =>
    if g.chgInfo.chargingMethod = .onlineCharging then
      match ui.grantedUnit with
      | some unit =>
        some { g with
          trigger := { g.trigger with volqu := true }
          urr := { g.urr with volumeQuota := extend unit.totalVolume } }
      | none =>
        some { g with
          trigger := { g.trigger with volqu := true }
          urr := { g.urr with volumeQuota := 0 } }
    else some g
  | _ => some g

/-- An item applied to one URR. -/
def grantUrr (now : Nat) (ui : MultipleUnitInformation) (c : SMContext) (urrID : UInt32) :
    Option SMContext :=
  match c.urrEntry ui.uPFID urrID, c.chargingInfo.lookup urrID with
  | some entry, some chgInfo => do
    let c := c.setUrrState ui.uPFID urrID .update
    let g ← ui.triggers.foldlM (Granting.apply now ui urrID) ⟨{}, entry.rule, chgInfo⟩
    let c := c.modifyUrrEntry ui.uPFID urrID fun entry =>
      { entry with rule := { g.urr with reportingTrigger := g.trigger } }
    some { c with chargingInfo := c.chargingInfo.insert urrID g.chgInfo }
  | _, _ => some c

/-- An item applied to all URRs of its rating group. -/
def grantItem (order : RangeOrder UInt32) (now : Nat) (c : SMContext)
    (ui : MultipleUnitInformation) : Option SMContext :=
  (getUrrsByRg order c ui.uPFID ui.ratingGroup).foldlM (grantUrr now ui) c

def updateGrantedQuota (order : RangeOrder UInt32) (now : Nat) (c : SMContext)
    (multipleUnitInformation : List MultipleUnitInformation) : Option SMContext :=
  multipleUnitInformation.foldlM (grantItem order now) c

/-! ## Update URRs -/

/-- A `VolumeThreshold` or `VolumeQuota` with all three volumes. -/
structure Volumes where
  totalVolume : UInt64
  downlinkVolume : UInt64
  uplinkVolume : UInt64
  deriving DecidableEq, Repr

structure UpdateURR where
  uRRID : UInt32
  volum : Bool
  durat : Bool
  reportingTriggers : ReportingTriggers
  measurementPeriod : Option UInt32
  quotaValidityTime : Option UInt32
  volumeThreshold : Option Volumes
  volumeQuota : Option Volumes
  mnop : Bool
  mbqe : Bool
  deriving DecidableEq, Repr

/-- `uint32(t.Sub(1900) / 1000000000)`; a duration is at most 2^63 nanoseconds either way. -/
def secondsSince1900 (t : Int) : UInt32 :=
  UInt32.ofInt ((max (-2 ^ 63) (min (2 ^ 63 - 1) t)).tdiv (10 ^ 9))

def urrToUpdateURR (urrID : UInt32) (urr : URR) : UpdateURR where
  uRRID := urrID
  volum := urr.measureMethod == .vol
  durat := urr.measureMethod == .time
  reportingTriggers := urr.reportingTrigger
  measurementPeriod :=
    if urr.measurementPeriod ≠ 0 then some (UInt32.ofNat (urr.measurementPeriod / 10 ^ 9)) else none
  quotaValidityTime :=
    if urr.quotaValidityTime = zeroTime then some (secondsSince1900 urr.quotaValidityTime) else none
  volumeThreshold :=
    if urr.volumeThreshold ≠ 0 then
      some ⟨urr.volumeThreshold, urr.volumeThreshold, urr.volumeThreshold⟩
    else none
  volumeQuota :=
    if urr.volumeQuota ≠ 0 then some ⟨urr.volumeQuota, urr.volumeQuota, urr.volumeQuota⟩ else none
  mnop := urr.mnop
  mbqe := urr.mbqe

/-- The URRs of a session modification request. -/
structure ModificationURRs where
  createURR : List UInt32 := []
  updateURR : List UpdateURR := []
  removeURR : List UInt32 := []
  queryURR : List UInt32 := []

/-- The body of the loop over the URRs of `BuildPfcpSessionModificationRequest`. -/
def addUrr (upfId : String) (p : ModificationURRs × SMContext) (urrID : UInt32) :
    ModificationURRs × SMContext :=
  match p.2.getUrrState upfId urrID with
  | .initial =>
    ({ p.1 with createURR := p.1.createURR ++ [urrID] }, p.2.setUrrState upfId urrID .create)
  | .create => p
  | .update =>
    match p.2.urrEntry upfId urrID with
    | some entry =>
      ({ p.1 with updateURR := p.1.updateURR ++ [urrToUpdateURR urrID entry.rule] },
        p.2.setUrrState upfId urrID .create)
    | none => p
  | .remove => ({ p.1 with removeURR := p.1.removeURR ++ [urrID] }, p.2)
  | .query =>
    ({ p.1 with queryURR := p.1.queryURR ++ [urrID] }, p.2.setUrrState upfId urrID .create)

/-- The URRs of `BuildPfcpSessionModificationRequest` for rules of the table; a rule that is
    listed twice is looked at once. -/
def buildModificationURRs (order : RangeOrder UInt32) (c : SMContext) (upfId : String)
    (urrList : List UInt32) : ModificationURRs × SMContext :=
  (order.keys 1 urrList.toFinset).foldl (addUrr upfId) ({}, c)

/-- The rules of a UPF that wait for an update, as `ReportUsageAndUpdateQuota` collects them. -/
def urrsToUpdate (order : RangeOrder UInt32) (c : SMContext) (upfId : String) : List UInt32 :=
  match c.urrTable.lookup upfId with
  | some entries =>
    (order.keys 0 entries.keys).filter fun urrID =>
      (entries.lookup urrID).any fun entry => decide (entry.state = .update)
  | none => []

/-! ## What an item asks for -/

namespace MultipleUnitInformation

/-- The item has a trigger of the type. -/
def has (ui : MultipleUnitInformation) (type : TriggerType) : Bool :=
  ui.triggers.any fun t => decide (t.triggerType = type)

def asksThreshold (ui : MultipleUnitInformation) : Bool :=
  ui.has .quotaThreshold && decide (ui.volumeQuotaThreshold ≠ 0)

def asksValidity (ui : MultipleUnitInformation) : Bool :=
  ui.has .validityTime && decide (ui.validityTime ≠ 0)

/-- For a URR that is charged by the method. -/
def asksQuota (ui : MultipleUnitInformation) (method : QuotaManagementIndicator) : Bool :=
  ui.has .quotaExhausted && decide (method = .onlineCharging)

/-- The quota that the item grants. -/
def grantedTotal (ui : MultipleUnitInformation) : Int32 :=
  (ui.grantedUnit.map GrantedUnit.totalVolume).getD 0

end MultipleUnitInformation

/-- A URR that is charged by the method, after an item. -/
def granted (now : Nat) (ui : MultipleUnitInformation) (method : QuotaManagementIndicator)
    (urr : URR) : URR :=
  { urr with
    reportingTrigger := { volth := ui.asksThreshold, volqu := ui.asksQuota method }
    quotaValidityTime :=
      if ui.asksValidity then now + ui.validityTime.toInt * 10 ^ 9 else urr.quotaValidityTime
    volumeThreshold :=
      if ui.asksThreshold then extend ui.volumeQuotaThreshold else urr.volumeThreshold
    volumeQuota := if ui.asksQuota method then extend ui.grantedTotal else urr.volumeQuota }

variable (now : Nat)

/-- The charging information apart from the timers. -/
def ChargingInfo.untimed (info : ChargingInfo) : ChargingInfo :=
  { info with volumeLimitExpiryTimer := none, eventLimitExpiryTimer := none }

theorem untimed_apply {g g' : Granting} {t : Trigger}
    (h : Granting.apply now ui urrID g t = some g') :
    g'.chgInfo.untimed = g.chgInfo.untimed := by
  unfold Granting.apply at h
  repeat' split at h
  all_goals first
    | cases h; rfl
    | obtain ⟨timer, -, rfl⟩ := Option.map_eq_some_iff.mp h; rfl

/-- A timer changes neither the triggers nor the URR. -/
theorem apply_limit {g g' : Granting} {t : Trigger} (h : Granting.apply now ui urrID g t = some g')
    (ht : t.triggerType = .volumeLimit ∨
      t.triggerType = .maxNumberOfChangesInChargingConditions) :
    g'.trigger = g.trigger ∧ g'.urr = g.urr := by
  unfold Granting.apply at h
  rcases ht with ht | ht
  all_goals
    rw [ht] at h
    dsimp only at h
    split at h
  all_goals first
    | cases h; exact ⟨rfl, rfl⟩
    | obtain ⟨timer, -, rfl⟩ := Option.map_eq_some_iff.mp h; exact ⟨rfl, rfl⟩

/-- What the loop over the triggers does to the triggers, to the URR and to the parts of the
    charging information that decide later on. -/
theorem foldlM_apply {ts : List Trigger} {g g' : Granting}
    (h : ts.foldlM (Granting.apply now ui urrID) g = some g') (r : ReportingTriggers) :
    g'.trigger =
        { g.trigger with
          volth := g.trigger.volth || { ui with triggers := ts }.asksThreshold
          volqu :=
            g.trigger.volqu || { ui with triggers := ts }.asksQuota g.chgInfo.chargingMethod } ∧
      { g'.urr with reportingTrigger := r } =
        { granted now { ui with triggers := ts } g.chgInfo.chargingMethod g.urr with
          reportingTrigger := r } ∧
      g'.chgInfo.untimed = g.chgInfo.untimed := by
  induction ts generalizing g with
  | nil =>
    cases h
    simp [granted, MultipleUnitInformation.asksThreshold, MultipleUnitInformation.asksQuota,
      MultipleUnitInformation.asksValidity, MultipleUnitInformation.has]
  | cons t ts ih =>
    rw [List.foldlM_cons] at h
    obtain ⟨g₁, hstep, hrest⟩ := Option.bind_eq_some_iff.mp h
    obtain ⟨htrigger, hurr, hinfo⟩ := ih hrest
    have hsame := untimed_apply now hstep
    have hmethod : g₁.chgInfo.chargingMethod = g.chgInfo.chargingMethod :=
      show g₁.chgInfo.untimed.chargingMethod = _ from hsame ▸ rfl
    rw [htrigger, hurr, hmethod, hinfo, hsame]
    simp only [granted, MultipleUnitInformation.asksThreshold, MultipleUnitInformation.asksQuota,
      MultipleUnitInformation.asksValidity, MultipleUnitInformation.has,
      MultipleUnitInformation.grantedTotal, List.any_cons]
    obtain ⟨type, category, volumeLimit, eventLimit⟩ := t
    cases type with
    | quotaThreshold =>
      by_cases h0 : ui.volumeQuotaThreshold = 0 <;> simp [Granting.apply, h0] at hstep <;>
        simp [← hstep, h0]
    | validityTime =>
      by_cases h0 : ui.validityTime = 0 <;> simp [Granting.apply, h0] at hstep <;>
        simp [← hstep, h0]
    | quotaExhausted =>
      by_cases hon : g.chgInfo.chargingMethod = .onlineCharging
      · cases hunit : ui.grantedUnit <;> simp [Granting.apply, hon, hunit] at hstep <;>
          simp [← hstep, hon]
      · simp [Granting.apply, hon] at hstep
        simp [← hstep, hon]
    | volumeLimit =>
      simp [apply_limit now hstep (Or.inl rfl)]
    | maxNumberOfChangesInChargingConditions =>
      simp [apply_limit now hstep (Or.inr rfl)]
    | _ =>
      cases hstep
      simp

/-! ## What becomes of a URR

A URR is written by the items that select it, one after the other, and by no others. -/

/-- What of the charging information decides about a URR. No item changes it. -/
def SMContext.charging (c : SMContext) (urrID : UInt32) :
    Option (Int32 × QuotaManagementIndicator) :=
  (c.chargingInfo.lookup urrID).map fun chgInfo => (chgInfo.ratingGroup, chgInfo.chargingMethod)

/-- An entry of the table after an item that selects it. -/
def grantEntry (now : Nat) (method : QuotaManagementIndicator) (entry : UrrEntry)
    (ui : MultipleUnitInformation) : UrrEntry where
  rule := granted now ui method entry.rule
  state := .update

theorem mem_getUrrsByRg :
    urrID ∈ getUrrsByRg order c upfId rg ↔
      (∃ entry, c.urrEntry upfId urrID = some entry) ∧
        ∃ method, c.charging urrID = some (rg, method) := by
  have hcharging : ((c.chargingInfo.lookup urrID).any fun chgInfo =>
      decide (chgInfo.ratingGroup = rg)) = true ↔
      ∃ method, c.charging urrID = some (rg, method) := by
    unfold SMContext.charging
    cases c.chargingInfo.lookup urrID <;> simp
  unfold getUrrsByRg SMContext.urrEntry
  cases c.urrTable.lookup upfId with
  | none => simp
  | some entries =>
    simp only [List.mem_filter, order.mem_keys, hcharging, Option.bind_some]
    rw [Finmap.mem_keys, ← Finmap.lookup_isSome, Option.isSome_iff_exists]

theorem nodup_getUrrsByRg (order : RangeOrder UInt32) (c : SMContext) (upfId : String)
    (rg : Int32) : (getUrrsByRg order c upfId rg).Nodup := by
  unfold getUrrsByRg
  split
  · exact (order.nodup 0 _).filter _
  · exact List.nodup_nil

theorem grantUrr_eq {c' : SMContext} {chgInfo : ChargingInfo}
    (h : grantUrr now ui c urrID = some c') (hentry : c.urrEntry ui.uPFID urrID = some entry)
    (hinfo : c.chargingInfo.lookup urrID = some chgInfo) :
    ∃ chgInfo', chgInfo'.untimed = chgInfo.untimed ∧
      c' = { (c.setUrrState ui.uPFID urrID .update).modifyUrrEntry ui.uPFID urrID fun e =>
            { e with rule := granted now ui chgInfo.chargingMethod entry.rule } with
          chargingInfo := c.chargingInfo.insert urrID chgInfo' } := by
  unfold grantUrr at h
  rw [hentry, hinfo] at h
  obtain ⟨g, hg, hc'⟩ := Option.bind_eq_some_iff.mp h
  obtain ⟨htrigger, hurr, huntimed⟩ := foldlM_apply now hg
    { volth := ui.asksThreshold, volqu := ui.asksQuota chgInfo.chargingMethod }
  have hrule : { g.urr with reportingTrigger := g.trigger } =
      granted now ui chgInfo.chargingMethod entry.rule := by
    rw [htrigger]
    exact hurr
  refine ⟨g.chgInfo, huntimed, ?_⟩
  rw [← Option.some.inj hc', hrule]
  rfl

/-- A number without an entry or without charging information is left alone. -/
theorem grantUrr_cases {c' : SMContext} (h : grantUrr now ui c urrID = some c') :
    c' = c ∨ ∃ entry chgInfo, c.urrEntry ui.uPFID urrID = some entry ∧
      c.chargingInfo.lookup urrID = some chgInfo := by
  cases hentry : c.urrEntry ui.uPFID urrID with
  | none => exact Or.inl (by simpa [grantUrr, hentry, eq_comm] using h)
  | some entry =>
    cases hinfo : c.chargingInfo.lookup urrID with
    | none => exact Or.inl (by simpa [grantUrr, hentry, hinfo, eq_comm] using h)
    | some chgInfo => exact Or.inr ⟨entry, chgInfo, rfl, rfl⟩

theorem urrEntry_grantUrr_of_ne {c' : SMContext} (h : grantUrr now ui c urrID = some c')
    {urrID' : UInt32} (hne : ¬ (upfId = ui.uPFID ∧ urrID' = urrID)) :
    c'.urrEntry upfId urrID' = c.urrEntry upfId urrID' := by
  rcases grantUrr_cases now h with hsame | ⟨entry, chgInfo, hentry, hinfo⟩
  · rw [hsame]
  · obtain ⟨chgInfo', -, rfl⟩ := grantUrr_eq now h hentry hinfo
    show SMContext.urrEntry (SMContext.modifyUrrEntry _ _ _ _) upfId urrID' = _
    rw [SMContext.urrEntry_modifyUrrEntry, if_neg hne, SMContext.setUrrState,
      SMContext.urrEntry_modifyUrrEntry, if_neg hne]

theorem urrEntry_grantUrr_self {c' : SMContext} (h : grantUrr now ui c urrID = some c')
    (hentry : c.urrEntry ui.uPFID urrID = some entry)
    (hcharging : c.charging urrID = some (rg, method)) :
    c'.urrEntry ui.uPFID urrID = some (grantEntry now method entry ui) := by
  obtain ⟨chgInfo, hinfo, hpair⟩ := Option.map_eq_some_iff.mp hcharging
  obtain ⟨chgInfo', -, rfl⟩ := grantUrr_eq now h hentry hinfo
  show SMContext.urrEntry (SMContext.modifyUrrEntry _ _ _ _) ui.uPFID urrID = _
  rw [SMContext.urrEntry_modifyUrrEntry, if_pos ⟨rfl, rfl⟩, SMContext.setUrrState,
    SMContext.urrEntry_modifyUrrEntry, if_pos ⟨rfl, rfl⟩, hentry]
  cases hpair
  rfl

/-- An item changes neither which URRs there are nor what is charged for them. -/
structure SameUrrs (c c' : SMContext) : Prop where
  entries : ∀ upfId urrID, (c'.urrEntry upfId urrID).isSome = (c.urrEntry upfId urrID).isSome
  untimed : ∀ urrID, (c'.chargingInfo.lookup urrID).map ChargingInfo.untimed =
    (c.chargingInfo.lookup urrID).map ChargingInfo.untimed

theorem SameUrrs.refl (c : SMContext) : SameUrrs c c := ⟨fun _ _ => rfl, fun _ => rfl⟩

theorem SameUrrs.trans {c' c'' : SMContext} (h : SameUrrs c c') (h' : SameUrrs c' c'') :
    SameUrrs c c'' :=
  ⟨fun upfId urrID => (h'.entries upfId urrID).trans (h.entries upfId urrID),
    fun urrID => (h'.untimed urrID).trans (h.untimed urrID)⟩

theorem SameUrrs.charging_eq {c' : SMContext} (h : SameUrrs c c') (urrID : UInt32) :
    c'.charging urrID = c.charging urrID := by
  have heq := congrArg (Option.map fun info => (info.ratingGroup, info.chargingMethod))
    (h.untimed urrID)
  rwa [Option.map_map, Option.map_map] at heq

theorem SameUrrs.grantUrr {c' : SMContext} (h : Charging.grantUrr now ui c urrID = some c') :
    SameUrrs c c' := by
  rcases grantUrr_cases now h with rfl | ⟨entry, chgInfo, hentry, hinfo⟩
  · exact .refl c'
  · refine ⟨fun upfId urrID' => ?_, fun urrID' => ?_⟩
    · by_cases hself : upfId = ui.uPFID ∧ urrID' = urrID
      · obtain ⟨rfl, rfl⟩ := hself
        rw [urrEntry_grantUrr_self now h hentry (by rw [SMContext.charging, hinfo]; rfl), hentry]
        rfl
      · rw [urrEntry_grantUrr_of_ne now h hself]
    · obtain ⟨chgInfo', huntimed, rfl⟩ := grantUrr_eq now h hentry hinfo
      dsimp only
      rw [GoMap.lookup_insert_eq]
      split
      · rename_i heq
        rw [heq, hinfo, Option.map_some, Option.map_some, huntimed]
      · rfl

theorem SameUrrs.foldlM_grantUrr {c' : SMContext}
    (h : ids.foldlM (Charging.grantUrr now ui) c = some c') : SameUrrs c c' :=
  Run.inv (SameUrrs c) (run_iff_foldlM.mpr h) (fun _ _ _ _ hstep hc => hc.trans (.grantUrr now hstep))
    (.refl c)

/-- The loop over the URRs of an item. -/
theorem foldlM_grantUrr {c' : SMContext} (hnodup : ids.Nodup)
    (h : ids.foldlM (grantUrr now ui) c = some c') (hentry : c.urrEntry upfId urrID = some entry)
    (hcharging : c.charging urrID = some (rg, method)) :
    c'.urrEntry upfId urrID =
      some (if ui.uPFID = upfId ∧ urrID ∈ ids then grantEntry now method entry ui else entry) := by
  induction ids generalizing c entry with
  | nil =>
    cases h
    simp [hentry]
  | cons id ids ih =>
    obtain ⟨hid, hnodup'⟩ := List.nodup_cons.mp hnodup
    rw [List.foldlM_cons] at h
    obtain ⟨c₁, hstep, hrest⟩ := Option.bind_eq_some_iff.mp h
    have hcharging' := ((SameUrrs.grantUrr now hstep).charging_eq urrID).trans hcharging
    by_cases hself : ui.uPFID = upfId ∧ urrID = id
    · obtain ⟨rfl, rfl⟩ := hself
      rw [ih hnodup' hrest (urrEntry_grantUrr_self now hstep hentry hcharging) hcharging',
        if_neg (by simp [hid])]
      simp
    · have hother : c₁.urrEntry upfId urrID = c.urrEntry upfId urrID :=
        urrEntry_grantUrr_of_ne now hstep fun h => hself ⟨h.1.symm, h.2⟩
      rw [ih hnodup' hrest (hother.trans hentry) hcharging']
      congr 2
      simp only [List.mem_cons, eq_iff_iff]
      tauto

/-- The items that select a URR. -/
def selecting (order : RangeOrder UInt32) (c : SMContext) (infos : List MultipleUnitInformation)
    (upfId : String) (urrID : UInt32) : List MultipleUnitInformation :=
  infos.filter fun ui =>
    decide (ui.uPFID = upfId ∧ urrID ∈ getUrrsByRg order c ui.uPFID ui.ratingGroup)

/-- Which items select a URR depends on its charging information and on nothing that an item
    changes. -/
theorem selects_iff (hentry : c.urrEntry upfId urrID = some entry)
    (hcharging : c.charging urrID = some (rg, method)) (ui : MultipleUnitInformation) :
    ui.uPFID = upfId ∧ urrID ∈ getUrrsByRg order c ui.uPFID ui.ratingGroup ↔
      ui.uPFID = upfId ∧ ui.ratingGroup = rg := by
  refine and_congr_right fun hupf => ?_
  rw [mem_getUrrsByRg, hupf, hentry, hcharging]
  simp [eq_comm]

theorem selecting_eq (hentry : c.urrEntry upfId urrID = some entry)
    (hcharging : c.charging urrID = some (rg, method)) (infos : List MultipleUnitInformation) :
    selecting order c infos upfId urrID =
      infos.filter fun ui => decide (ui.uPFID = upfId ∧ ui.ratingGroup = rg) :=
  List.filter_congr fun ui _ => decide_eq_decide.mpr (selects_iff hentry hcharging ui)

/-- An update writes the items that select a URR into it, one after the other. -/
theorem urrEntry_updateGrantedQuota {c' : SMContext} {infos : List MultipleUnitInformation}
    (h : updateGrantedQuota order now c infos = some c')
    (hentry : c.urrEntry upfId urrID = some entry)
    (hcharging : c.charging urrID = some (rg, method)) :
    c'.urrEntry upfId urrID =
      some ((selecting order c infos upfId urrID).foldl (grantEntry now method) entry) := by
  rw [selecting_eq hentry hcharging]
  unfold updateGrantedQuota at h
  induction infos generalizing c entry with
  | nil =>
    cases h
    simpa using hentry
  | cons ui infos ih =>
    rw [List.foldlM_cons] at h
    obtain ⟨c₁, hstep, hrest⟩ := Option.bind_eq_some_iff.mp h
    have hcharging' := ((SameUrrs.foldlM_grantUrr now hstep).charging_eq urrID).trans hcharging
    have hitem := foldlM_grantUrr now (nodup_getUrrsByRg order c _ _) hstep hentry hcharging
    simp only [selects_iff hentry hcharging ui] at hitem
    rw [ih hrest hitem hcharging']
    by_cases h : ui.uPFID = upfId ∧ ui.ratingGroup = rg
    · rw [List.filter_cons_of_pos (by simp [h]), List.foldl_cons, if_pos h]
    · rw [List.filter_cons_of_neg (by simpa using h), if_neg h]

/-! ## The timers of an update -/

/-- The limit of the timer that a trigger starts for a URR that is charged at the level. -/
def Trigger.timer (t : Trigger) (level : ChargingLevel) : Option Int32 :=
  match t.triggerType, level, t.triggerCategory with
  | .volumeLimit, .pduSessionCharging, .immediateReport => some t.volumeLimit
  | .volumeLimit, .flowCharging, .deferredReport => some t.volumeLimit
  | .maxNumberOfChangesInChargingConditions, .pduSessionCharging, _ => some t.eventLimit
  | _, _, _ => none

/-- Every timer that the item starts for the URR has a positive limit. -/
def SMContext.TimersRun (c : SMContext) (ui : MultipleUnitInformation) (urrID : UInt32) : Prop :=
  ∀ level ∈ (c.chargingInfo.lookup urrID).map ChargingInfo.chargingLevel,
    ∀ t ∈ ui.triggers, ∀ limit ∈ t.timer level, 0 < limit

/-- No update of the answer makes `NewTimer` panic. -/
def SMContext.TimersStart (order : RangeOrder UInt32) (c : SMContext)
    (infos : List MultipleUnitInformation) : Prop :=
  ∀ ui ∈ infos, ∀ urrID ∈ getUrrsByRg order c ui.uPFID ui.ratingGroup, c.TimersRun ui urrID

theorem SameUrrs.timersRun_iff {c' : SMContext} (h : SameUrrs c c') :
    c'.TimersRun ui urrID ↔ c.TimersRun ui urrID := by
  have heq := congrArg (Option.map ChargingInfo.chargingLevel) (h.untimed urrID)
  rw [Option.map_map, Option.map_map] at heq
  unfold SMContext.TimersRun
  rw [show (c'.chargingInfo.lookup urrID).map ChargingInfo.chargingLevel =
    (c.chargingInfo.lookup urrID).map ChargingInfo.chargingLevel from heq]

theorem SameUrrs.mem_getUrrsByRg_iff {c' : SMContext} (h : SameUrrs c c') :
    urrID ∈ getUrrsByRg order c' upfId rg ↔ urrID ∈ getUrrsByRg order c upfId rg := by
  rw [mem_getUrrsByRg, mem_getUrrsByRg, h.charging_eq, ← Option.isSome_iff_exists, h.entries,
    Option.isSome_iff_exists]

theorem exists_apply_iff (g : Granting) (t : Trigger) :
    (∃ g', Granting.apply now ui urrID g t = some g') ↔
      ∀ limit ∈ t.timer g.chgInfo.chargingLevel, 0 < limit := by
  obtain ⟨type, category, volumeLimit, eventLimit⟩ := t
  have hnew : ∀ limit upfId reports, (∃ timer, newTimer limit upfId urrID reports = some timer) ↔
      0 < limit := by
    intro limit upfId reports
    unfold newTimer
    split <;> simp [*]
  cases type with
  | volumeLimit =>
    cases hl : g.chgInfo.chargingLevel <;> cases category <;>
      simp [Granting.apply, Trigger.timer, hl, hnew]
  | maxNumberOfChangesInChargingConditions =>
    cases hl : g.chgInfo.chargingLevel <;> simp [Granting.apply, Trigger.timer, hl, hnew]
  | _ =>
    simp only [Granting.apply, Trigger.timer]
    repeat' split
    all_goals simp

theorem exists_grantUrr_iff (hmem : urrID ∈ getUrrsByRg order c ui.uPFID rg) :
    (∃ c', grantUrr now ui c urrID = some c') ↔ c.TimersRun ui urrID := by
  obtain ⟨⟨entry, hentry⟩, method, hcharging⟩ := mem_getUrrsByRg.mp hmem
  obtain ⟨info, hinfo, -⟩ := Option.map_eq_some_iff.mp hcharging
  have hloop : (∃ g, ui.triggers.foldlM (Granting.apply now ui urrID) ⟨{}, entry.rule, info⟩ =
      some g) ↔ ∀ t ∈ ui.triggers, ∀ limit ∈ t.timer info.chargingLevel, 0 < limit := by
    refine exists_foldlM_iff (fun g => g.chgInfo.untimed = info.untimed) _ (fun g t _ hg => ?_)
      (fun _ _ _ h hg => (untimed_apply now h).trans hg) rfl
    have hlevel : g.chgInfo.chargingLevel = info.chargingLevel :=
      show g.chgInfo.untimed.chargingLevel = _ from hg ▸ rfl
    rw [exists_apply_iff, hlevel]
  unfold grantUrr SMContext.TimersRun
  rw [hentry, hinfo, Option.map_some]
  simp only [Option.mem_some_iff, forall_eq']
  rw [← hloop]
  constructor
  · rintro ⟨c', h⟩
    obtain ⟨g, hg, -⟩ := Option.bind_eq_some_iff.mp h
    exact ⟨g, hg⟩
  · rintro ⟨g, hg⟩
    exact ⟨_, Option.bind_eq_some_iff.mpr ⟨g, hg, rfl⟩⟩

/-- The update ends exactly if no timer of the answer panics. -/
theorem exists_updateGrantedQuota_iff (order : RangeOrder UInt32) (c : SMContext)
    (infos : List MultipleUnitInformation) :
    (∃ c', updateGrantedQuota order now c infos = some c') ↔ c.TimersStart order infos := by
  refine exists_foldlM_iff (SameUrrs c) _ (fun c₁ ui _ h₁ => ?_)
    (fun c₁ ui c₂ h h₁ => h₁.trans (.foldlM_grantUrr now h)) (.refl c)
  have hitem : (∃ c', grantItem order now c₁ ui = some c') ↔
      ∀ urrID ∈ getUrrsByRg order c₁ ui.uPFID ui.ratingGroup, c₁.TimersRun ui urrID := by
    refine exists_foldlM_iff (SameUrrs c₁) _ (fun c₂ urrID hmem h₂ => ?_)
      (fun c₂ urrID c₃ h h₂ => h₂.trans (.grantUrr now h)) (.refl c₁)
    rw [exists_grantUrr_iff now (h₂.mem_getUrrsByRg_iff.mpr hmem), h₂.timersRun_iff]
  rw [hitem]
  simp only [h₁.mem_getUrrsByRg_iff, h₁.timersRun_iff]

/-! ## What is sent for a URR -/

/-- The Update URRs of a request for one URR. -/
def ModificationURRs.updatesOf (urrs : ModificationURRs) (urrID : UInt32) : List UpdateURR :=
  urrs.updateURR.filter fun upd => decide (upd.uRRID = urrID)

theorem addUrr_of_ne (upfId : String) (p : ModificationURRs × SMContext) {urrID' : UInt32}
    (hne : urrID' ≠ urrID) :
    (addUrr upfId p urrID).1.updatesOf urrID' = p.1.updatesOf urrID' ∧
      (addUrr upfId p urrID).2.urrEntry upfId urrID' = p.2.urrEntry upfId urrID' := by
  have hset : ∀ state, (p.2.setUrrState upfId urrID state).urrEntry upfId urrID' =
      p.2.urrEntry upfId urrID' := by
    intro state
    rw [SMContext.setUrrState, SMContext.urrEntry_modifyUrrEntry, if_neg (fun h => hne h.2)]
  unfold addUrr
  split
  · exact ⟨rfl, hset _⟩
  · exact ⟨rfl, rfl⟩
  · split
    · refine ⟨?_, hset _⟩
      simp [ModificationURRs.updatesOf, urrToUpdateURR, hne.symm]
    · exact ⟨rfl, rfl⟩
  · exact ⟨rfl, rfl⟩
  · exact ⟨rfl, hset _⟩

theorem addUrr_self {p : ModificationURRs × SMContext}
    (hentry : p.2.urrEntry upfId urrID = some entry) (hstate : entry.state = .update) :
    (addUrr upfId p urrID).1.updatesOf urrID =
      p.1.updatesOf urrID ++ [urrToUpdateURR urrID entry.rule] := by
  have hget : p.2.getUrrState upfId urrID = .update := by
    unfold SMContext.getUrrState
    rw [hentry]
    exact hstate
  unfold addUrr
  rw [hget, hentry]
  simp [ModificationURRs.updatesOf, urrToUpdateURR]

theorem foldl_addUrr_of_notMem (upfId : String) (hmem : urrID ∉ ids)
    (p : ModificationURRs × SMContext) :
    (ids.foldl (addUrr upfId) p).1.updatesOf urrID = p.1.updatesOf urrID := by
  induction ids generalizing p with
  | nil => rfl
  | cons id ids ih =>
    rw [List.mem_cons, not_or] at hmem
    rw [List.foldl_cons, ih hmem.2, (addUrr_of_ne upfId p hmem.1).1]

/-- A URR that waits for an update gets one Update URR. -/
theorem foldl_addUrr (hnodup : ids.Nodup) {p : ModificationURRs × SMContext} (hmem : urrID ∈ ids)
    (hentry : p.2.urrEntry upfId urrID = some entry) (hstate : entry.state = .update) :
    (ids.foldl (addUrr upfId) p).1.updatesOf urrID =
      p.1.updatesOf urrID ++ [urrToUpdateURR urrID entry.rule] := by
  induction ids generalizing p with
  | nil => cases hmem
  | cons id ids ih =>
    obtain ⟨hid, hnodup'⟩ := List.nodup_cons.mp hnodup
    rw [List.foldl_cons]
    by_cases heq : urrID = id
    · subst heq
      rw [foldl_addUrr_of_notMem upfId hid, addUrr_self hentry hstate]
    · obtain ⟨hupdates, hkept⟩ := addUrr_of_ne upfId p heq
      rw [ih hnodup' ((List.mem_cons.mp hmem).resolve_left heq) (hkept.trans hentry), hupdates]

theorem mem_urrsToUpdate :
    urrID ∈ urrsToUpdate order c upfId ↔
      ∃ entry, c.urrEntry upfId urrID = some entry ∧ entry.state = .update := by
  unfold urrsToUpdate SMContext.urrEntry
  cases c.urrTable.lookup upfId with
  | none => simp
  | some entries =>
    simp only [List.mem_filter, order.mem_keys, Option.bind_some, Finmap.mem_keys,
      ← Finmap.lookup_isSome]
    cases entries.lookup urrID <;> simp

theorem updatesOf_buildModificationURRs (order : RangeOrder UInt32)
    (hentry : c.urrEntry upfId urrID = some entry) (hstate : entry.state = .update) :
    (buildModificationURRs order c upfId (urrsToUpdate order c upfId)).1.updatesOf urrID =
      [urrToUpdateURR urrID entry.rule] := by
  have hmem : urrID ∈ order.keys 1 (urrsToUpdate order c upfId).toFinset := by
    rw [order.mem_keys, List.mem_toFinset]
    exact mem_urrsToUpdate.mpr ⟨entry, hentry, hstate⟩
  exact foldl_addUrr (order.nodup 1 _) hmem hentry hstate

/-! ## The decision at the UPF -/

/-- The Update URR asks for what the item asks for, for a URR that is charged by the method. -/
structure Delivered (ui : MultipleUnitInformation) (method : QuotaManagementIndicator)
    (upd : UpdateURR) : Prop where
  triggers : upd.reportingTriggers =
    { volth := ui.asksThreshold, quvti := ui.asksValidity, volqu := ui.asksQuota method }
  threshold : ui.asksThreshold = true → ∃ v, upd.volumeThreshold = some v ∧
    (v.totalVolume.toNat : Int) = ui.volumeQuotaThreshold.toInt ∧
    (v.downlinkVolume.toNat : Int) = ui.volumeQuotaThreshold.toInt ∧
    (v.uplinkVolume.toNat : Int) = ui.volumeQuotaThreshold.toInt
  validity : upd.quotaValidityTime.isSome = ui.asksValidity
  quota : ui.asksQuota method = true → ∃ v, upd.volumeQuota = some v ∧
    (v.totalVolume.toNat : Int) = ui.grantedTotal.toInt ∧
    (v.downlinkVolume.toNat : Int) = ui.grantedTotal.toInt ∧
    (v.uplinkVolume.toNat : Int) = ui.grantedTotal.toInt

theorem toNat_extend_eq_iff : ((extend x).toNat : Int) = x.toInt ↔ 0 ≤ x.toInt := by
  have hwide : x.toInt64.toInt = x.toInt := Int32.toInt_toInt64 x
  constructor
  · intro h
    omega
  · intro h
    rw [← hwide] at h ⊢
    exact toNat_toUInt64_of_nonneg h

theorem extend_eq_zero_iff : extend x = 0 ↔ x.toInt = 0 := by
  constructor
  · intro h
    have hwide : x.toInt64 = 0 := congrArg UInt64.toInt64 h
    rw [← Int32.toInt_toInt64 x, hwide]
    rfl
  · intro h
    have hx : x = 0 := Int32.toInt_inj.mp h
    rw [hx, extend_zero]

/-- A volume that is sent unless it is 0 arrives exactly if it is positive. -/
theorem volumes_sent_iff :
    (∃ v : Volumes, (if extend x ≠ 0 then some (Volumes.mk (extend x) (extend x) (extend x))
        else none) = some v ∧ (v.totalVolume.toNat : Int) = x.toInt ∧
        (v.downlinkVolume.toNat : Int) = x.toInt ∧ (v.uplinkVolume.toNat : Int) = x.toInt) ↔
      0 < x.toInt := by
  by_cases h0 : extend x = 0
  · have := extend_eq_zero_iff.mp h0
    simp [h0, this]
  · have hx : x.toInt ≠ 0 := fun h => h0 (extend_eq_zero_iff.mpr h)
    simp only [ne_eq, h0, not_false_eq_true, if_true, Option.some.injEq, exists_eq_left',
      toNat_extend_eq_iff, and_self]
    omega

theorem validity_ne_zeroTime (x : Int32) :
    (now : Int) + x.toInt * 10 ^ 9 ≠ zeroTime := by
  have := x.le_toInt
  unfold zeroTime
  omega

/-- A validity time stays once there is one. -/
theorem quotaValidityTime_foldl_grantEntry (method : QuotaManagementIndicator)
    (uis : List MultipleUnitInformation) (entry : UrrEntry) :
    (uis.foldl (grantEntry now method) entry).rule.quotaValidityTime = zeroTime ↔
      entry.rule.quotaValidityTime = zeroTime ∧ ∀ ui ∈ uis, ui.asksValidity = false := by
  induction uis generalizing entry with
  | nil => simp
  | cons ui uis ih =>
    rw [List.foldl_cons, ih, List.forall_mem_cons]
    cases hasks : ui.asksValidity with
    | true =>
      have hne := validity_ne_zeroTime now ui.validityTime
      simp only [grantEntry, granted, hasks, if_true, hne, false_and, Bool.true_eq_false, and_false]
    | false => simp [grantEntry, granted, hasks]

/-- An item arrives if the UPF sees no difference between what the item asks for and the
    parts of it that are kept and sent. -/
theorem delivered_granted_iff (ui : MultipleUnitInformation) (method : QuotaManagementIndicator)
    (urrID : UInt32) (urr : URR) :
    Delivered ui method (urrToUpdateURR urrID (granted now ui method urr)) ↔
      ui.asksValidity = false ∧ urr.quotaValidityTime ≠ zeroTime ∧
        (ui.asksThreshold = true → 0 < ui.volumeQuotaThreshold.toInt) ∧
        (ui.asksQuota method = true → 0 < ui.grantedTotal.toInt) := by
  constructor
  · intro h
    have hasks : ui.asksValidity = false := by
      have hquvti := congrArg ReportingTriggers.quvti h.triggers
      exact hquvti.symm
    refine ⟨hasks, ?_, ?_, ?_⟩
    · intro hzero
      have hsome := h.validity
      simp [urrToUpdateURR, granted, hasks, hzero] at hsome
    · intro hth
      have hsent := h.threshold hth
      simp only [urrToUpdateURR, granted, hth, if_true] at hsent
      exact volumes_sent_iff.mp hsent
    · intro hqu
      have hsent := h.quota hqu
      simp only [urrToUpdateURR, granted, hqu, if_true] at hsent
      exact volumes_sent_iff.mp hsent
  · rintro ⟨hasks, hkept, hth, hqu⟩
    refine ⟨?_, ?_, ?_, ?_⟩
    · simp [urrToUpdateURR, granted, hasks]
    · intro h
      simp only [urrToUpdateURR, granted, h, if_true]
      exact volumes_sent_iff.mpr (hth h)
    · simp [urrToUpdateURR, granted, hasks, hkept]
    · intro h
      simp only [urrToUpdateURR, granted, h, if_true]
      exact volumes_sent_iff.mpr (hqu h)

theorem mem_selecting {infos : List MultipleUnitInformation}
    (h : ui ∈ selecting order c infos upfId urrID) :
    (∃ entry, c.urrEntry upfId urrID = some entry) ∧
      ∃ rg method, c.charging urrID = some (rg, method) := by
  obtain ⟨-, hsel⟩ := List.mem_filter.mp h
  obtain ⟨rfl, hmem⟩ := of_decide_eq_true hsel
  obtain ⟨hentry, method, hcharging⟩ := mem_getUrrsByRg.mp hmem
  exact ⟨hentry, _, method, hcharging⟩

/-- The part of the decision and of the earlier state of a URR for which nothing is lost on
    the way: `ui` is the last item that selects the URR. -/
structure Arrives (selected : List MultipleUnitInformation) (ui : MultipleUnitInformation)
    (method : QuotaManagementIndicator) (entry : UrrEntry) : Prop where
  noValidity : ui.asksValidity = false
  validityBefore : entry.rule.quotaValidityTime ≠ zeroTime ∨
    ∃ ui' ∈ selected, ui'.asksValidity = true
  threshold : ui.asksThreshold = true → 0 < ui.volumeQuotaThreshold.toInt
  quota : ui.asksQuota method = true → 0 < ui.grantedTotal.toInt

theorem delivered_iff_arrives {c' : SMContext} {infos : List MultipleUnitInformation}
    {info : ChargingInfo} (hupdate : updateGrantedQuota order now c infos = some c')
    (hlast : (selecting order c infos upfId urrID).getLast? = some ui)
    (hentry : c.urrEntry upfId urrID = some entry)
    (hinfo : c.chargingInfo.lookup urrID = some info) :
    (∃ upd, (buildModificationURRs order c' upfId (urrsToUpdate order c' upfId)).1.updatesOf urrID =
        [upd] ∧ Delivered ui info.chargingMethod upd) ↔
      Arrives (selecting order c infos upfId urrID) ui info.chargingMethod entry := by
  obtain ⟨before, hbefore⟩ := List.getLast?_eq_some_iff.mp hlast
  have hcharging : c.charging urrID = some (info.ratingGroup, info.chargingMethod) := by
    simp [SMContext.charging, hinfo]
  have hafter := urrEntry_updateGrantedQuota now hupdate hentry hcharging
  rw [hbefore, List.foldl_append, List.foldl_cons, List.foldl_nil] at hafter
  rw [updatesOf_buildModificationURRs order hafter rfl]
  simp only [List.cons.injEq, and_true, exists_eq_left']
  rw [grantEntry, delivered_granted_iff, ne_eq, quotaValidityTime_foldl_grantEntry, hbefore]
  constructor
  · rintro ⟨hasks, hkept, hth, hqu⟩
    refine ⟨hasks, ?_, hth, hqu⟩
    by_cases hzero : entry.rule.quotaValidityTime = zeroTime
    · right
      simp only [hzero, true_and, not_forall, Bool.not_eq_false] at hkept
      obtain ⟨ui', hmem, hasks'⟩ := hkept
      exact ⟨ui', List.mem_append_left _ hmem, hasks'⟩
    · exact Or.inl hzero
  · rintro ⟨hasks, hkept, hth, hqu⟩
    refine ⟨hasks, ?_, hth, hqu⟩
    rintro ⟨hzero, hnone⟩
    obtain ⟨ui', hmem, hasks'⟩ := hkept.resolve_left (fun h => h hzero)
    rcases List.mem_append.mp hmem with hmem | hmem
    · simp [hnone ui' hmem] at hasks'
    · rw [List.mem_singleton.mp hmem, hasks] at hasks'
      cases hasks'

/-- The CHF's decision reaches the UPF, for every URR that it selects, exactly if no timer of it
    panics and for each of the URRs the last item that selects it gives no validity time, the URR
    has had one before, and the threshold and the quota that are asked for are positive. -/
theorem decision_reaches_upf_iff (order : RangeOrder UInt32) (now : Nat) (c : SMContext)
    (infos : List MultipleUnitInformation) :
    (∃ c', updateGrantedQuota order now c infos = some c' ∧
      ∀ upfId urrID ui info, (selecting order c infos upfId urrID).getLast? = some ui →
        c.chargingInfo.lookup urrID = some info →
        ∃ upd, (buildModificationURRs order c' upfId
          (urrsToUpdate order c' upfId)).1.updatesOf urrID = [upd] ∧
            Delivered ui info.chargingMethod upd) ↔
      c.TimersStart order infos ∧
      ∀ upfId urrID ui info entry, (selecting order c infos upfId urrID).getLast? = some ui →
        c.chargingInfo.lookup urrID = some info → c.urrEntry upfId urrID = some entry →
        Arrives (selecting order c infos upfId urrID) ui info.chargingMethod entry := by
  rw [← exists_updateGrantedQuota_iff now]
  constructor
  · rintro ⟨c', hupdate, h⟩
    refine ⟨⟨c', hupdate⟩, fun upfId urrID ui info entry hlast hinfo hentry => ?_⟩
    exact (delivered_iff_arrives now hupdate hlast hentry hinfo).mp
      (h upfId urrID ui info hlast hinfo)
  · rintro ⟨⟨c', hupdate⟩, h⟩
    refine ⟨c', hupdate, fun upfId urrID ui info hlast hinfo => ?_⟩
    obtain ⟨⟨entry, hentry⟩, -⟩ := mem_selecting (List.mem_of_getLast? hlast)
    exact (delivered_iff_arrives now hupdate hlast hentry hinfo).mpr
      (h upfId urrID ui info entry hlast hinfo hentry)

/-- A session with one online URR. -/
def onlineSession : SMContext where
  chargingInfo := Finmap.singleton 1 ⟨.onlineCharging, none, none, .flowCharging, 1, "upf"⟩
  urrTable := Finmap.singleton "upf" (Finmap.singleton 1 ⟨{}, .create⟩)

/-- An exhausted quota for which nothing is granted: the Update URR asks to report the end of
    the quota and has none, and it has a validity time that nobody gave. -/
theorem zero_quota_not_sent :
    let order := RangeOrder.ofCode UInt32.toNat fun _ _ => UInt32.toNat_inj.mp
    let ui : MultipleUnitInformation :=
      { ratingGroup := 1, uPFID := "upf", triggers := [⟨.quotaExhausted, .immediateReport, 0, 0⟩] }
    let upd : UpdateURR :=
      ⟨1, true, false, { volqu := true }, none, some 3661529852, none, none, true, false⟩
    ((updateGrantedQuota order 0 onlineSession [ui]).map fun c =>
        (buildModificationURRs order c "upf" (urrsToUpdate order c "upf")).1.updateURR) =
      some [upd] ∧
      (selecting order onlineSession [ui] "upf" 1).getLast? = some ui ∧
      ¬ Delivered ui .onlineCharging upd := by
  refine ⟨by decide +kernel, by decide +kernel, fun h => ?_⟩
  obtain ⟨v, hsome, -⟩ := h.quota rfl
  cases hsome

end Free5gc.Smf.Charging
