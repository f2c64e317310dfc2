/-
  The quota of a rating group, seen from the CHF: what updateGrantedQuota
  (NFs/smf/internal/sbi/processor/charging_trigger.go) hands out for one grant, and which of
  the URRs that reported are renewed by the answer to the request that carried their usage.

  An item of an answer is given to every URR of its rating group on its UPF, so that the whole
  grant is handed out once for each of them (`quota_sum_within_grant_iff`). A request has one
  item for a rating group, with the UPF of the first report; URRs of the group on other UPFs,
  as behind an uplink classifier, are not found when the answer comes
  (`reporting_urrs_renewed_iff`).
-/
import Free5gc.Smf.Charging.Quota
import Free5gc.Smf.Charging.Reports
import Mathlib.Algebra.BigOperators.Group.List.Basic
import Mathlib.Algebra.Ring.Nat

namespace Free5gc.Smf.Charging

open Free5gc.Lib

variable {order : RangeOrder UInt32} {c : SMContext} {upfId : String} {urrID : UInt32}
  {entry : UrrEntry} {rg : Int32} {ui : MultipleUnitInformation} {ur : UsageReport}
  {now : Nat} {infos : List MultipleUnitInformation} {c' : SMContext}

/-! ## The sum of the quotas of a rating group -/

/-- The quota of a URR of the table. -/
def SMContext.volumeQuota (c : SMContext) (upfId : String) (urrID : UInt32) : Nat :=
  match c.urrEntry upfId urrID with
  | some entry => entry.rule.volumeQuota.toNat
  | none => 0

/-- The online URRs that an item updates. -/
def onlineUrrs (order : RangeOrder UInt32) (c : SMContext) (ui : MultipleUnitInformation) :
    List UInt32 :=
  (getUrrsByRg order c ui.uPFID ui.ratingGroup).filter fun urrID =>
    (c.chargingInfo.lookup urrID).any fun info => decide (info.chargingMethod = .onlineCharging)

/-- The sum of the quotas of some URRs of a UPF. -/
def SMContext.quotaSum (c : SMContext) (upfId : String) (urrs : List UInt32) : Nat :=
  (urrs.map (c.volumeQuota upfId)).sum

/-- The last item of an answer that gives a quota to a rating group on a UPF. -/
def lastGrant (infos : List MultipleUnitInformation) (upfId : String) (rg : Int32) :
    Option MultipleUnitInformation :=
  (infos.filter fun ui =>
    decide (ui.uPFID = upfId ∧ ui.ratingGroup = rg) && ui.has .quotaExhausted).getLast?

theorem mem_onlineUrrs :
    urrID ∈ onlineUrrs order c ui ↔
      (∃ entry, c.urrEntry ui.uPFID urrID = some entry) ∧
        c.charging urrID = some (ui.ratingGroup, .onlineCharging) := by
  unfold onlineUrrs
  rw [List.mem_filter, mem_getUrrsByRg, and_assoc]
  refine and_congr_right fun _ => ?_
  unfold SMContext.charging
  cases c.chargingInfo.lookup urrID with
  | none => simp
  | some info => simp

/-- The quota that a series of items leaves in an online URR is that of the last item that
    gives one. -/
theorem volumeQuota_foldl_grantEntry (now : Nat) (uis : List MultipleUnitInformation)
    (entry : UrrEntry) :
    (uis.foldl (grantEntry now .onlineCharging) entry).rule.volumeQuota =
      match (uis.filter fun ui => ui.has .quotaExhausted).getLast? with
      | some ui => extend ui.grantedTotal
      | none => entry.rule.volumeQuota := by
  induction uis using List.reverseRecOn with
  | nil => rfl
  | append_singleton uis ui ih =>
    rw [List.foldl_append, List.foldl_cons, List.foldl_nil, List.filter_append]
    cases hasks : ui.has .quotaExhausted with
    | true => simp [grantEntry, granted, MultipleUnitInformation.asksQuota, hasks]
    | false => simp [grantEntry, granted, MultipleUnitInformation.asksQuota, hasks, ih]

/-- An item of the answer is for the rating group on the UPF. -/
def Addressed (infos : List MultipleUnitInformation) (upfId : String) (rg : Int32) : Prop :=
  ∃ ui ∈ infos, ui.ratingGroup = rg ∧ ui.uPFID = upfId

theorem state_foldl_grantEntry (now : Nat) (method : QuotaManagementIndicator)
    {uis : List MultipleUnitInformation} (hne : uis ≠ []) (entry : UrrEntry) :
    (uis.foldl (grantEntry now method) entry).state = .update := by
  rw [← List.dropLast_append_getLast hne, List.foldl_append]
  rfl

/-- What an answer makes of an online URR. -/
theorem urrEntry_online (hupdate : updateGrantedQuota order now c infos = some c')
    (hentry : c.urrEntry upfId urrID = some entry)
    (hcharging : c.charging urrID = some (rg, .onlineCharging)) :
    ∃ entry', c'.urrEntry upfId urrID = some entry' ∧
      (entry'.rule.volumeQuota =
        match lastGrant infos upfId rg with
        | some ui => extend ui.grantedTotal
        | none => entry.rule.volumeQuota) ∧
      (Addressed infos upfId rg → entry'.state = .update) := by
  refine ⟨_, urrEntry_updateGrantedQuota now hupdate hentry hcharging, ?_, ?_⟩
  · rw [volumeQuota_foldl_grantEntry, selecting_eq hentry hcharging, List.filter_filter]
    unfold lastGrant
    simp only [Bool.and_comm]
  · rintro ⟨ui, hmem, hrg, hupf⟩
    refine state_foldl_grantEntry now .onlineCharging (@List.ne_nil_of_mem _ ui _ ?_) entry
    rw [selecting_eq hentry hcharging]
    exact List.mem_filter.mpr ⟨hmem, decide_eq_true ⟨hupf, hrg⟩⟩

theorem volumeQuota_updateGrantedQuota (hupdate : updateGrantedQuota order now c infos = some c')
    (hentry : ∃ entry, c.urrEntry upfId urrID = some entry)
    (hcharging : c.charging urrID = some (rg, .onlineCharging)) :
    c'.volumeQuota upfId urrID =
      match lastGrant infos upfId rg with
      | some ui => (extend ui.grantedTotal).toNat
      | none => c.volumeQuota upfId urrID := by
  obtain ⟨entry, hentry⟩ := hentry
  obtain ⟨entry', hentry', hquota, -⟩ := urrEntry_online hupdate hentry hcharging
  unfold SMContext.volumeQuota
  rw [hentry', hentry]
  dsimp only
  rw [hquota]
  cases lastGrant infos upfId rg <;> rfl

/-- The quotas after an answer: as many times the last grant as there are online URRs. -/
theorem quotaSum_updateGrantedQuota (hupdate : updateGrantedQuota order now c infos = some c')
    (ui : MultipleUnitInformation) :
    c'.quotaSum ui.uPFID (onlineUrrs order c ui) =
      match lastGrant infos ui.uPFID ui.ratingGroup with
      | some last => (onlineUrrs order c ui).length * (extend last.grantedTotal).toNat
      | none => c.quotaSum ui.uPFID (onlineUrrs order c ui) := by
  have heach : ∀ urrID ∈ onlineUrrs order c ui,
      c'.volumeQuota ui.uPFID urrID =
        match lastGrant infos ui.uPFID ui.ratingGroup with
        | some last => (extend last.grantedTotal).toNat
        | none => c.volumeQuota ui.uPFID urrID := by
    intro urrID hmem
    obtain ⟨hentry, hcharging⟩ := mem_onlineUrrs.mp hmem
    exact volumeQuota_updateGrantedQuota hupdate hentry hcharging
  unfold SMContext.quotaSum
  rw [List.map_congr_left heach]
  cases lastGrant infos ui.uPFID ui.ratingGroup with
  | none => rfl
  | some last =>
    dsimp only
    rw [List.map_const', List.sum_replicate, nsmul_eq_mul]
    rfl

/-- An answer is taken, and the quotas of the online URRs that an item updates add up to no more
    than the item's grant, for every item, exactly if no timer panics and the last grant to the
    item's URRs fits into the item's grant once for each of them; where the answer grants no quota
    to them, the quotas from before do. -/
theorem quota_sum_within_grant_iff (order : RangeOrder UInt32) (now : Nat) (c : SMContext)
    (infos : List MultipleUnitInformation) :
    (∃ c', updateGrantedQuota order now c infos = some c' ∧ ∀ ui ∈ infos,
        (c'.quotaSum ui.uPFID (onlineUrrs order c ui) : Int) ≤ ui.grantedTotal.toInt) ↔
      c.TimersStart order infos ∧ ∀ ui ∈ infos,
        match lastGrant infos ui.uPFID ui.ratingGroup with
        | some last =>
          ((onlineUrrs order c ui).length * (extend last.grantedTotal).toNat : Int) ≤
            ui.grantedTotal.toInt
        | none => (c.quotaSum ui.uPFID (onlineUrrs order c ui) : Int) ≤ ui.grantedTotal.toInt := by
  rw [← exists_updateGrantedQuota_iff now, exists_and_right.symm]
  refine exists_congr fun c' => and_congr_right fun hupdate => forall₂_congr fun ui _ => ?_
  rw [quotaSum_updateGrantedQuota hupdate]
  cases lastGrant infos ui.uPFID ui.ratingGroup with
  | none => exact Iff.rfl
  | some last =>
    dsimp only
    rw [Int.natCast_mul]

/-- Two online URRs of one rating group on one UPF. -/
def twoUrrs : SMContext where
  chargingInfo :=
    (Finmap.singleton 1 ⟨.onlineCharging, none, none, .flowCharging, 1, "upf"⟩).insert 2
      ⟨.onlineCharging, none, none, .flowCharging, 1, "upf"⟩
  urrTable := Finmap.singleton "upf"
    ((Finmap.singleton 1 ⟨{}, .create⟩).insert 2 ⟨{}, .create⟩)

/-- A grant of 1000 to two URRs hands out 2000. -/
theorem grant_handed_out_twice :
    let order := RangeOrder.ofCode UInt32.toNat fun _ _ => UInt32.toNat_inj.mp
    let ui : MultipleUnitInformation :=
      { ratingGroup := 1, uPFID := "upf", triggers := [⟨.quotaExhausted, .immediateReport, 0, 0⟩],
        grantedUnit := some ⟨1000⟩ }
    onlineUrrs order twoUrrs ui = [1, 2] ∧
      ((updateGrantedQuota order 0 twoUrrs [ui]).map fun c => c.quotaSum "upf" [1, 2]) =
        some 2000 ∧
      ¬ (2000 : Int) ≤ ui.grantedTotal.toInt := by
  decide +kernel

/-! ## The URRs that reported -/

/-- The cached report is charged under the rating group. -/
def SMContext.charged (c : SMContext) (rg : Int32) (ur : UsageReport) : Bool :=
  ur.reportTpye.isSome && (c.chargingInfo.lookup ur.urrId).any fun info =>
    decide (info.ratingGroup = rg)

/-- The first report that is charged under the rating group. -/
def SMContext.firstCharged (c : SMContext) (rg : Int32) : Option UsageReport :=
  c.urrReports.find? (c.charged rg)

/-- An answer to an item of the request. -/
def Answers (usage : MultipleUnitUsage) (ui : MultipleUnitInformation) : Prop :=
  ui.ratingGroup = usage.ratingGroup ∧ ui.uPFID = usage.uPFID

theorem keyed_usages (c : SMContext) : Keyed (c.urrReports.foldl (addUsage c) ∅) :=
  foldl_inv Keyed (fun _ ur h => keyed_addUsage h ur) c.urrReports
    (fun rg usage hl => by simp at hl)

theorem uPFID_addUsage (c : SMContext) (m : GoMap Int32 MultipleUnitUsage) (ur : UsageReport)
    (rg : Int32) :
    ((addUsage c m ur).lookup rg).map MultipleUnitUsage.uPFID =
      ((m.lookup rg).map MultipleUnitUsage.uPFID).or
        (if c.charged rg ur then some ur.upfId else none) := by
  unfold addUsage SMContext.charged
  cases ur.reportTpye with
  | none => simp
  | some t =>
    cases c.chargingInfo.lookup ur.urrId with
    | none => simp
    | some chgInfo =>
      by_cases hrg : rg = chgInfo.ratingGroup
      · subst hrg
        cases hm : m.lookup chgInfo.ratingGroup <;> simp [hm]
      · have hcharged : decide (chgInfo.ratingGroup = rg) = false := decide_eq_false (Ne.symm hrg)
        cases hm : m.lookup chgInfo.ratingGroup <;>
          simp only [hm, GoMap.lookup_insert_eq, if_neg hrg, Option.any_some, hcharged,
            Bool.and_false, Bool.false_eq_true, if_false, Option.or_none]

/-- The item of a rating group carries the UPF of the first report that is charged. -/
theorem uPFID_foldl_addUsage (c : SMContext) (urs : List UsageReport) (rg : Int32)
    (m : GoMap Int32 MultipleUnitUsage) :
    ((urs.foldl (addUsage c) m).lookup rg).map MultipleUnitUsage.uPFID =
      ((m.lookup rg).map MultipleUnitUsage.uPFID).or
        ((urs.find? (c.charged rg)).map UsageReport.upfId) := by
  induction urs generalizing m with
  | nil => simp
  | cons ur urs ih =>
    rw [List.foldl_cons, ih, uPFID_addUsage, Option.or_assoc, List.find?_cons]
    cases c.charged rg ur <;> simp

/-- The items of the request: one for each rating group, with the UPF of the first report that
    is charged under the group. -/
theorem mem_buildMultiUnitUsage (order : RangeOrder Int32) :
    (∃ usage ∈ (buildMultiUnitUsageFromUsageReport order c).1,
        usage.ratingGroup = rg ∧ usage.uPFID = upfId) ↔
      (c.firstCharged rg).map UsageReport.upfId = some upfId := by
  have hkeyed := keyed_usages c
  have hupf := uPFID_foldl_addUsage c c.urrReports rg ∅
  rw [Finmap.lookup_empty, Option.map_none, Option.none_or] at hupf
  unfold SMContext.firstCharged buildMultiUnitUsageFromUsageReport
  dsimp only
  rw [← hupf, Option.map_eq_some_iff]
  constructor
  · rintro ⟨usage, hmem, hrg, hid⟩
    obtain ⟨k, -, hl⟩ := List.mem_filterMap.mp hmem
    have hk := hkeyed k usage hl
    rw [← hrg, hk]
    exact ⟨usage, hl, hid⟩
  · rintro ⟨usage, hl, hid⟩
    refine ⟨usage, List.mem_filterMap.mpr ⟨rg, ?_, hl⟩, hkeyed rg usage hl, hid⟩
    rw [order.mem_keys, Finmap.mem_keys, ← Finmap.lookup_isSome, hl]
    rfl

/-- After the answer the URR of a report that was charged under the rating group waits for its
    update and has the quota that was granted to the group, if one was. -/
def Renewed (c : SMContext) (infos : List MultipleUnitInformation) (rg : Int32)
    (ur : UsageReport) : Prop :=
  ∃ entry, c.urrEntry ur.upfId ur.urrId = some entry ∧ entry.state = .update ∧
    ∀ ui ∈ infos, ui.ratingGroup = rg → ui.has .quotaExhausted = true →
      entry.rule.volumeQuota = extend ui.grantedTotal

/-- The report is one of an online URR of the rating group. -/
structure ReportsOnline (c : SMContext) (rg : Int32) (ur : UsageReport) : Prop where
  cached : ur ∈ c.urrReports
  chargeable : ur.reportTpye.isSome
  registered : ∃ entry, c.urrEntry ur.upfId ur.urrId = some entry
  online : c.charging ur.urrId = some (rg, .onlineCharging)

theorem ReportsOnline.charged (h : ReportsOnline c rg ur) : c.charged rg ur = true := by
  obtain ⟨info, hinfo, hpair⟩ := Option.map_eq_some_iff.mp h.online
  have hrg : info.ratingGroup = rg := congrArg Prod.fst hpair
  simp [SMContext.charged, h.chargeable, hinfo, hrg]

/-- The rating groups of a request are distinct. -/
theorem nodup_ratingGroups (order : RangeOrder Int32) (c : SMContext) :
    ((buildMultiUnitUsageFromUsageReport order c).1.map MultipleUnitUsage.ratingGroup).Nodup := by
  have hsub : ∀ keys : List Int32,
      ((keys.filterMap (c.urrReports.foldl (addUsage c) ∅).lookup).map
        MultipleUnitUsage.ratingGroup).Sublist keys := by
    intro keys
    induction keys with
    | nil => exact List.Sublist.refl _
    | cons k keys ih =>
      cases hl : (c.urrReports.foldl (addUsage c) ∅).lookup k with
      | none =>
        rw [List.filterMap_cons_none (by exact hl)]
        exact ih.cons k
      | some usage =>
        rw [List.filterMap_cons_some (by exact hl), List.map_cons, keyed_usages c k usage hl]
        exact ih.cons_cons k
  exact (order.nodup 0 _).sublist (hsub _)

section Answer

variable {order' : RangeOrder Int32}
  (hanswers : List.Forall₂ Answers (buildMultiUnitUsageFromUsageReport order' c).1 infos)

include hanswers

/-- The answers for a rating group come for the UPF of its first charged report. -/
theorem addressed_iff :
    Addressed infos upfId rg ↔ (c.firstCharged rg).map UsageReport.upfId = some upfId := by
  unfold Addressed
  rw [← mem_buildMultiUnitUsage order']
  generalize (buildMultiUnitUsageFromUsageReport order' c).1 = usages at hanswers
  induction hanswers with
  | nil => simp
  | cons hhead _ ih => simp only [List.exists_mem_cons_iff, ih, hhead.1, hhead.2]

theorem eq_of_ratingGroup_eq {ui' : MultipleUnitInformation} (hmem : ui ∈ infos)
    (hmem' : ui' ∈ infos) (hrg : ui.ratingGroup = ui'.ratingGroup) : ui = ui' := by
  have hgroups : infos.map MultipleUnitInformation.ratingGroup =
      (buildMultiUnitUsageFromUsageReport order' c).1.map MultipleUnitUsage.ratingGroup := by
    clear hmem hmem'
    generalize (buildMultiUnitUsageFromUsageReport order' c).1 = usages at hanswers
    induction hanswers with
    | nil => rfl
    | cons hhead _ ih => rw [List.map_cons, List.map_cons, hhead.1, ih]
  have hnodup : (infos.map MultipleUnitInformation.ratingGroup).Nodup := by
    rw [hgroups]
    exact nodup_ratingGroups order' c
  exact List.inj_on_of_nodup_map hnodup hmem hmem' hrg

/-- The grant that counts for a rating group is the one in its only answer. -/
theorem lastGrant_eq (hmem : ui ∈ infos) (hhas : ui.has .quotaExhausted = true) :
    lastGrant infos ui.uPFID ui.ratingGroup = some ui := by
  unfold lastGrant
  have hself : ui ∈ infos.filter fun ui' =>
      decide (ui'.uPFID = ui.uPFID ∧ ui'.ratingGroup = ui.ratingGroup) &&
        ui'.has .quotaExhausted :=
    List.mem_filter.mpr ⟨hmem, by simp [hhas]⟩
  obtain ⟨last, hlast⟩ := Option.isSome_iff_exists.mp
    (List.getLast?_isSome.mpr (List.ne_nil_of_mem hself))
  obtain ⟨hmem', hboth⟩ := List.mem_filter.mp (List.mem_of_getLast? hlast)
  rw [Bool.and_eq_true, decide_eq_true_eq] at hboth
  rw [hlast, eq_of_ratingGroup_eq hanswers hmem' hmem hboth.1.2]

/-- The group of a URR that has reported has an item in the answer. -/
theorem exists_item_of_reportsOnline (hur : ReportsOnline c rg ur) :
    ∃ ui ∈ infos, ui.ratingGroup = rg := by
  obtain ⟨first, hfound⟩ := Option.isSome_iff_exists.mp
    (List.find?_isSome.mpr ⟨ur, hur.cached, hur.charged⟩)
  have hfirst : (c.firstCharged rg).map UsageReport.upfId = some first.upfId := by
    rw [SMContext.firstCharged, hfound, Option.map_some]
  obtain ⟨ui, hmem, hrg, -⟩ := (addressed_iff hanswers).mpr hfirst
  exact ⟨ui, hmem, hrg⟩

/-- A URR on the UPF of the first report of its group is renewed. -/
theorem renewed_of_firstCharged
    (hupdate : updateGrantedQuota order now (buildMultiUnitUsageFromUsageReport order' c).2 infos =
      some c') (hur : ReportsOnline c rg ur)
    (hfirst : (c.firstCharged rg).map UsageReport.upfId = some ur.upfId) :
    Renewed c' infos rg ur := by
  obtain ⟨entry, hentry⟩ := hur.registered
  have haddressed := (addressed_iff hanswers).mpr hfirst
  obtain ⟨entry', hentry', hquota, hstate⟩ := urrEntry_online hupdate hentry hur.online
  refine ⟨entry', hentry', hstate haddressed, ?_⟩
  intro ui hmem hrg hhas
  obtain ⟨ui', hmem', hrg', hupf'⟩ := haddressed
  obtain rfl := eq_of_ratingGroup_eq hanswers hmem hmem' (hrg.trans hrg'.symm)
  have hlast := lastGrant_eq hanswers hmem hhas
  rw [hrg, hupf'] at hlast
  rw [hquota, hlast]

/-- A URR on another UPF keeps its quota. -/
theorem volumeQuota_of_firstCharged_ne
    (hupdate : updateGrantedQuota order now (buildMultiUnitUsageFromUsageReport order' c).2 infos =
      some c') (hentry : c.urrEntry ur.upfId ur.urrId = some entry)
    (honline : c.charging ur.urrId = some (rg, .onlineCharging))
    (hfirst : (c.firstCharged rg).map UsageReport.upfId ≠ some ur.upfId) :
    ∃ entry', c'.urrEntry ur.upfId ur.urrId = some entry' ∧
      entry'.rule.volumeQuota = entry.rule.volumeQuota := by
  obtain ⟨entry', hentry', hquota, -⟩ := urrEntry_online hupdate hentry honline
  have hnone : lastGrant infos ur.upfId rg = none := by
    rw [lastGrant, List.getLast?_eq_none_iff, List.filter_eq_nil_iff]
    intro ui hmem hboth
    rw [Bool.and_eq_true, decide_eq_true_eq] at hboth
    exact hfirst ((addressed_iff hanswers).mp ⟨ui, hmem, hboth.1.2, hboth.1.1⟩)
  rw [hnone] at hquota
  exact ⟨entry', hentry', hquota⟩

end Answer

/-- The answer that grants a total to every item of a request. -/
def grantAll (total : Int32) (usages : List MultipleUnitUsage) : List MultipleUnitInformation :=
  usages.map fun usage =>
    { ratingGroup := usage.ratingGroup
      uPFID := usage.uPFID
      triggers := [⟨.quotaExhausted, .immediateReport, 0, 0⟩]
      grantedUnit := some ⟨total⟩ }

theorem answers_grantAll (total : Int32) (usages : List MultipleUnitUsage) :
    List.Forall₂ Answers usages (grantAll total usages) := by
  unfold grantAll
  rw [List.forall₂_map_right_iff]
  exact List.forall₂_same.mpr fun usage _ => ⟨rfl, rfl⟩

theorem timersStart_grantAll (order : RangeOrder UInt32) (c : SMContext) (total : Int32)
    (usages : List MultipleUnitUsage) : c.TimersStart order (grantAll total usages) := by
  intro ui hui urrID _ level _ t ht limit hlimit
  obtain ⟨usage, -, rfl⟩ := List.mem_map.mp hui
  obtain rfl := List.mem_singleton.mp ht
  cases hlimit

/-- A total that differs from a quota. -/
theorem exists_extend_ne (quota : UInt64) : ∃ total : Int32, quota ≠ extend total := by
  by_cases h : quota = extend 0
  · refine ⟨1, fun h1 => ?_⟩
    rw [h] at h1
    exact absurd h1 (by decide)
  · exact ⟨0, h⟩

/-- A session behind an uplink classifier: one rating group with a URR on each of two UPFs, and
    a report from both. -/
def twoUpfs : SMContext where
  urrReports :=
    [{ urrId := 1, upfId := "upf1", totalVolume := 100, reportTpye := some .quotaExhausted },
      { urrId := 2, upfId := "upf2", totalVolume := 100, reportTpye := some .quotaExhausted }]
  chargingInfo :=
    (Finmap.singleton 1 ⟨.onlineCharging, none, none, .flowCharging, 1, "upf1"⟩).insert 2
      ⟨.onlineCharging, none, none, .flowCharging, 1, "upf2"⟩
  urrTable := (Finmap.singleton "upf1" (Finmap.singleton 1 ⟨{}, .create⟩)).insert "upf2"
    (Finmap.singleton 2 ⟨{}, .create⟩)

end Free5gc.Smf.Charging
