/-
  From PFCP usage reports to the used units of a charging request: HandleReports
  (NFs/smf/internal/context/pfcp_reports.go) and buildMultiUnitUsageFromUsageReport
  (NFs/smf/internal/sbi/processor/charging_trigger.go).

  HandleReports fills one variable over and over, so a report without a volume measurement
  keeps the volumes of the last report of the same call that had one, and the charging request
  narrows the volumes from 64 to 32 bits. `usage_charged_unchanged_iff` says when neither
  shows: every charged report with a measurement has volumes below 2^31, and every charged
  report without one follows no measurement, or one whose volumes are multiples of 2^32.

  Not modelled: the timestamps of the containers. The UPF of a call is known and the mandatory
  parts of a report are there; the code would panic without them.
-/
import Free5gc.Lib.Int64
import Free5gc.Lib.Run
import Free5gc.Smf.Charging.Context

namespace Free5gc.Smf.Charging

open Free5gc.Lib

/-! ## HandleReports -/

structure VolumeMeasurement where
  totalVolume : UInt64 := 0
  uplinkVolume : UInt64 := 0
  downlinkVolume : UInt64 := 0
  totalPktNum : UInt64 := 0
  uplinkPktNum : UInt64 := 0
  downlinkPktNum : UInt64 := 0
  deriving DecidableEq, Repr

structure UsageReportTrigger where
  volth : Bool := false
  volqu : Bool := false
  quvti : Bool := false
  start : Bool := false
  immer : Bool := false
  termr : Bool := false
  deriving DecidableEq, Repr

/-- A usage report of a PFCP message. -/
structure PfcpReport where
  uRRID : UInt32
  volumeMeasurement : Option VolumeMeasurement
  usageReportTrigger : UsageReportTrigger
  deriving DecidableEq, Repr

def identityTriggerType (usarTrigger : UsageReportTrigger) : Option TriggerType :=
  if usarTrigger.volth then some .quotaThreshold
  else if usarTrigger.volqu then some .quotaExhausted
  else if usarTrigger.quvti then some .validityTime
  else if usarTrigger.start then some .startOfServiceDataFlow
  else if usarTrigger.immer then none
  else if usarTrigger.termr then some .finalUsage
  else none

/-- The arguments of a call of `HandleReports`. -/
structure ReportCall where
  usageReportRequest : List PfcpReport := []
  usageReportModification : List PfcpReport := []
  usageReportDeletion : List PfcpReport := []
  upfId : String
  reportTpye : Option TriggerType := none
  deriving DecidableEq, Repr

/-- The type that a report of the call gets. -/
def ReportCall.typeOf (call : ReportCall) (report : PfcpReport) : Option TriggerType :=
  if call.reportTpye ≠ none then call.reportTpye
  else identityTriggerType report.usageReportTrigger

/-- The body of the three loops: the variable `usageReport` after a report. -/
def ReportCall.fill (call : ReportCall) (usageReport : UsageReport) (report : PfcpReport) :
    UsageReport :=
  match report.volumeMeasurement with
  | none =>
    { usageReport with
      urrId := report.uRRID
      upfId := call.upfId
      reportTpye := call.typeOf report }
  | some v =>
    { urrId := report.uRRID
      upfId := call.upfId
      totalVolume := v.totalVolume
      uplinkVolume := v.uplinkVolume
      downlinkVolume := v.downlinkVolume
      totalPktNum := v.totalPktNum
      uplinkPktNum := v.uplinkPktNum
      downlinkPktNum := v.downlinkPktNum
      reportTpye := call.typeOf report }

/-- One of the three loops: the variable and the reports cached so far. -/
def ReportCall.loop (call : ReportCall) (p : UsageReport × List UsageReport)
    (reports : List PfcpReport) : UsageReport × List UsageReport :=
  reports.foldl (fun p report => (call.fill p.1 report, p.2 ++ [call.fill p.1 report])) p

def handleReports (c : SMContext) (call : ReportCall) : SMContext :=
  let p := call.loop ({}, c.urrReports) call.usageReportRequest
  let p := call.loop p call.usageReportModification
  let p := call.loop p call.usageReportDeletion
  { c with urrReports := p.2 }

/-! ## buildMultiUnitUsageFromUsageReport -/

structure UsedUnitContainer where
  quotaManagementIndicator : QuotaManagementIndicator
  triggers : List Trigger
  downlinkVolume : Int32
  uplinkVolume : Int32
  totalVolume : Int32
  deriving DecidableEq, Repr

structure RequestedUnit where
  totalVolume : Int32 := 0
  downlinkVolume : Int32 := 0
  uplinkVolume : Int32 := 0
  deriving DecidableEq, Repr

structure MultipleUnitUsage where
  ratingGroup : Int32
  uPFID : String
  usedUnitContainer : List UsedUnitContainer
  requestedUnit : RequestedUnit
  deriving DecidableEq, Repr

/-- `int32(x)` -/
def narrow (x : UInt64) : Int32 := x.toUInt32.toInt32

/-- The container for a report of the given type. -/
def usedUnit (chgInfo : ChargingInfo) (ur : UsageReport) (t : TriggerType) : UsedUnitContainer where
  quotaManagementIndicator := chgInfo.chargingMethod
  triggers :=
    if chgInfo.chargingLevel = .flowCharging ∧ t = .volumeLimit then
      [{ triggerType := t, triggerCategory := .deferredReport }]
    else [{ triggerType := t, triggerCategory := .immediateReport }]
  downlinkVolume := narrow ur.downlinkVolume
  uplinkVolume := narrow ur.uplinkVolume
  totalVolume := narrow ur.totalVolume

/-- The body of the loop over the cached reports. -/
def addUsage (c : SMContext) (m : GoMap Int32 MultipleUnitUsage) (ur : UsageReport) :
    GoMap Int32 MultipleUnitUsage :=
  match ur.reportTpye with
  | none => m
  | some t =>
    match c.chargingInfo.lookup ur.urrId with
    | none => m
    | some chgInfo =>
      match m.lookup chgInfo.ratingGroup with
      | none =>
        m.insert chgInfo.ratingGroup
          { ratingGroup := chgInfo.ratingGroup
            uPFID := ur.upfId
            usedUnitContainer := [usedUnit chgInfo ur t]
            -- offline charging is only for recording usage
            requestedUnit :=
              if chgInfo.chargingMethod = .onlineCharging then
                ⟨c.requestedUnit, c.requestedUnit, c.requestedUnit⟩
              else {} }
      | some unitUsage =>
        m.insert chgInfo.ratingGroup
          { unitUsage with
            usedUnitContainer := unitUsage.usedUnitContainer ++ [usedUnit chgInfo ur t] }

/-- The usage for the next charging request, in the order in which the map is ranged over, and
    the context without its reports. -/
def buildMultiUnitUsageFromUsageReport (order : RangeOrder Int32) (c : SMContext) :
    List MultipleUnitUsage × SMContext :=
  let m := c.urrReports.foldl (addUsage c) ∅
  ((order.keys 0 m.keys).filterMap m.lookup, { c with urrReports := [] })

/-! ## What is cached for a report -/

/-- The reports of a call, in the order in which they are handled. -/
def ReportCall.reports (call : ReportCall) : List PfcpReport :=
  call.usageReportRequest ++ call.usageReportModification ++ call.usageReportDeletion

/-- The reports with what is cached for them, from the variable `usageReport` on. -/
def ReportCall.readings (call : ReportCall) : UsageReport → List PfcpReport →
    List (PfcpReport × UsageReport)
  | _, [] => []
  | usageReport, report :: reports =>
    (report, call.fill usageReport report) :: call.readings (call.fill usageReport report) reports

variable (call : ReportCall)

theorem ReportCall.loop_append (p : UsageReport × List UsageReport) (rs rs' : List PfcpReport) :
    call.loop (call.loop p rs) rs' = call.loop p (rs ++ rs') :=
  List.foldl_append.symm

theorem ReportCall.loop_snd (p : UsageReport × List UsageReport) (rs : List PfcpReport) :
    (call.loop p rs).2 = p.2 ++ (call.readings p.1 rs).map Prod.snd := by
  induction rs generalizing p with
  | nil => simp [loop, readings]
  | cons r rs ih =>
    have hstep : call.loop p (r :: rs) =
        call.loop (call.fill p.1 r, p.2 ++ [call.fill p.1 r]) rs := rfl
    rw [hstep, ih]
    simp [readings]

/-- A call caches its readings behind the reports that wait already. -/
theorem handleReports_eq (c : SMContext) (call : ReportCall) :
    handleReports c call =
      { c with urrReports := c.urrReports ++ (call.readings {} call.reports).map Prod.snd } := by
  unfold handleReports
  dsimp only
  rw [call.loop_append, call.loop_append, call.loop_snd, ReportCall.reports, List.append_assoc]

/-- The readings of several calls. -/
def readingsOf (calls : List ReportCall) : List (PfcpReport × UsageReport) :=
  calls.flatMap fun call => call.readings {} call.reports

theorem foldl_handleReports (calls : List ReportCall) (c : SMContext) :
    calls.foldl handleReports c =
      { c with urrReports := c.urrReports ++ (readingsOf calls).map Prod.snd } := by
  induction calls generalizing c with
  | nil => simp [readingsOf]
  | cons call calls ih =>
    rw [List.foldl_cons, ih, handleReports_eq]
    simp [readingsOf]

@[simp] theorem ReportCall.fill_urrId (u : UsageReport) (r : PfcpReport) :
    (call.fill u r).urrId = r.uRRID := by
  unfold fill
  split <;> rfl

@[simp] theorem ReportCall.fill_reportTpye (u : UsageReport) (r : PfcpReport) :
    (call.fill u r).reportTpye = call.typeOf r := by
  unfold fill
  split <;> rfl

/-- A report is read at its place, with what the reports before it left. -/
theorem ReportCall.mem_readings {call : ReportCall} {u : UsageReport} {rs : List PfcpReport}
    {p : PfcpReport × UsageReport} :
    p ∈ call.readings u rs ↔
      ∃ pre post, rs = pre ++ p.1 :: post ∧ p.2 = call.fill (pre.foldl call.fill u) p.1 := by
  induction rs generalizing u with
  | nil => simp [readings]
  | cons r rs ih =>
    rw [readings, List.mem_cons, ih]
    constructor
    · rintro (rfl | ⟨pre, post, rfl, hp⟩)
      · exact ⟨[], rs, rfl, rfl⟩
      · exact ⟨r :: pre, post, rfl, hp⟩
    · rintro ⟨pre, post, hrs, hp⟩
      cases pre with
      | nil =>
        obtain ⟨rfl, rfl⟩ := List.cons.inj hrs
        exact Or.inl (Prod.ext rfl hp)
      | cons r' pre =>
        obtain ⟨rfl, rfl⟩ := List.cons.inj hrs
        exact Or.inr ⟨pre, post, rfl, hp⟩

/-- The volumes of a cached report. -/
def UsageReport.volumes (u : UsageReport) : VolumeMeasurement where
  totalVolume := u.totalVolume
  uplinkVolume := u.uplinkVolume
  downlinkVolume := u.downlinkVolume
  totalPktNum := u.totalPktNum
  uplinkPktNum := u.uplinkPktNum
  downlinkPktNum := u.downlinkPktNum

/-- The last measurement among reports. -/
def lastMeasurement (rs : List PfcpReport) : Option VolumeMeasurement :=
  (rs.filterMap PfcpReport.volumeMeasurement).getLast?

theorem ReportCall.fill_volumes (u : UsageReport) (r : PfcpReport) :
    (call.fill u r).volumes = r.volumeMeasurement.getD u.volumes := by
  unfold fill
  split
  · rename_i h
    rw [h]
    rfl
  · rename_i v h
    rw [h]
    rfl

/-- The variable holds the volumes of the last measurement. -/
theorem ReportCall.foldl_fill_volumes (u : UsageReport) (rs : List PfcpReport) :
    (rs.foldl call.fill u).volumes = (lastMeasurement rs).getD u.volumes := by
  induction rs using List.reverseRecOn with
  | nil => rfl
  | append_singleton rs r ih =>
    rw [List.foldl_append, List.foldl_cons, List.foldl_nil, call.fill_volumes, ih]
    unfold lastMeasurement
    cases hr : r.volumeMeasurement <;> simp [List.filterMap_append, hr]

/-! ## What is charged -/

/-- The container of a cached report under a rating group, if the report is charged there. -/
def containerOf (info : GoMap UInt32 ChargingInfo) (rg : Int32) (ur : UsageReport) :
    Option UsedUnitContainer :=
  match ur.reportTpye, info.lookup ur.urrId with
  | some t, some chgInfo => if chgInfo.ratingGroup = rg then some (usedUnit chgInfo ur t) else none
  | _, _ => none

/-- The containers that a map has for a rating group. -/
def containersIn (m : GoMap Int32 MultipleUnitUsage) (rg : Int32) : List UsedUnitContainer :=
  ((m.lookup rg).map MultipleUnitUsage.usedUnitContainer).getD []

/-- Every usage stands under its rating group. -/
def Keyed (m : GoMap Int32 MultipleUnitUsage) : Prop :=
  ∀ rg usage, m.lookup rg = some usage → usage.ratingGroup = rg

theorem containersIn_insert (m : GoMap Int32 MultipleUnitUsage) (rg rg' : Int32)
    (usage : MultipleUnitUsage) :
    containersIn (m.insert rg' usage) rg =
      if rg = rg' then usage.usedUnitContainer else containersIn m rg := by
  unfold containersIn
  rw [GoMap.lookup_insert_eq]
  split <;> rfl

theorem containersIn_addUsage (c : SMContext) (m : GoMap Int32 MultipleUnitUsage) (ur : UsageReport)
    (rg : Int32) :
    containersIn (addUsage c m ur) rg =
      containersIn m rg ++ (containerOf c.chargingInfo rg ur).toList := by
  unfold addUsage containerOf
  cases ur.reportTpye with
  | none => simp
  | some t =>
    cases c.chargingInfo.lookup ur.urrId with
    | none => simp
    | some chgInfo =>
      -- the item of the rating group, new or not, gets the container
      cases hm : m.lookup chgInfo.ratingGroup
      all_goals
        simp only [hm, containersIn_insert]
        by_cases hrg : rg = chgInfo.ratingGroup
        · subst hrg
          simp [containersIn, hm]
        · simp [hrg, Ne.symm hrg]

theorem keyed_addUsage {c : SMContext} {m : GoMap Int32 MultipleUnitUsage} (h : Keyed m)
    (ur : UsageReport) : Keyed (addUsage c m ur) := by
  have hinsert : ∀ rg usage, usage.ratingGroup = rg → Keyed (m.insert rg usage) := by
    intro rg usage hu
    exact GoMap.forall_lookup_insert hu h
  unfold addUsage
  split
  · exact h
  · split
    · exact h
    · split
      · exact hinsert _ _ rfl
      · rename_i unitUsage hl
        have hgroup := h _ unitUsage hl
        exact hinsert _ _ hgroup

theorem containersIn_foldl_addUsage (c : SMContext) (urs : List UsageReport) (rg : Int32)
    (m : GoMap Int32 MultipleUnitUsage) :
    containersIn (urs.foldl (addUsage c) m) rg =
      containersIn m rg ++ urs.filterMap (containerOf c.chargingInfo rg) := by
  induction urs generalizing m with
  | nil => simp
  | cons ur urs ih =>
    rw [List.foldl_cons, ih, containersIn_addUsage, List.append_assoc]
    cases hur : containerOf c.chargingInfo rg ur <;> simp [hur]

/-- The used units of a charging request for a rating group. -/
def containersFor (out : List MultipleUnitUsage) (rg : Int32) : List UsedUnitContainer :=
  (out.filter fun usage => usage.ratingGroup = rg).flatMap MultipleUnitUsage.usedUnitContainer

/-- Ranging over a map meets the usage of a rating group once. -/
theorem containersFor_range {m : GoMap Int32 MultipleUnitUsage} (h : Keyed m) (rg : Int32)
    {keys : List Int32} (hnodup : keys.Nodup) :
    containersFor (keys.filterMap m.lookup) rg = if rg ∈ keys then containersIn m rg else [] := by
  induction keys with
  | nil => rfl
  | cons k keys ih =>
    obtain ⟨hk, hnodup'⟩ := List.nodup_cons.mp hnodup
    have hrest := ih hnodup'
    cases hl : m.lookup k with
    | none =>
      simp only [List.filterMap_cons, hl]
      rw [hrest]
      by_cases hrg : rg = k
      · subst hrg
        simp [hk, containersIn, hl]
      · simp [hrg]
    | some usage =>
      have hkey := h k usage hl
      simp only [List.filterMap_cons, hl]
      unfold containersFor at hrest ⊢
      by_cases hrg : rg = k
      · subst hrg
        rw [if_neg hk] at hrest
        simp [hkey, hrest, containersIn, hl]
      · simp [hkey, Ne.symm hrg, hrg, hrest]

theorem containersFor_build (order : RangeOrder Int32) (c : SMContext) (rg : Int32) :
    containersFor (buildMultiUnitUsageFromUsageReport order c).1 rg =
      c.urrReports.filterMap (containerOf c.chargingInfo rg) := by
  have hkeyed : Keyed (c.urrReports.foldl (addUsage c) ∅) :=
    foldl_inv Keyed (fun _ ur h => keyed_addUsage h ur) c.urrReports
      (fun rg usage hl => by simp at hl)
  have hall := containersIn_foldl_addUsage c c.urrReports rg ∅
  unfold buildMultiUnitUsageFromUsageReport
  dsimp only
  rw [containersFor_range hkeyed rg (order.nodup 0 _)]
  split
  · exact hall
  · rename_i hmem
    rw [order.mem_keys, Finmap.mem_keys, ← Finmap.lookup_isSome, Bool.not_eq_true,
      Option.isSome_eq_false_iff, Option.isNone_iff_eq_none] at hmem
    have hnil : containersIn (c.urrReports.foldl (addUsage c) ∅) rg = [] := by
      simp [containersIn, hmem]
    rw [← hnil]
    exact hall

/-! ## Reports charged unchanged -/

/-- The report of the call is charged under the rating group: its type is not empty and its URR
    has charging information of the group. -/
def ReportCall.chargedUnder (call : ReportCall) (info : GoMap UInt32 ChargingInfo) (rg : Int32)
    (report : PfcpReport) : Bool :=
  (call.typeOf report).isSome &&
    (info.lookup report.uRRID).any fun chgInfo => decide (chgInfo.ratingGroup = rg)

/-- What the UPF measured for a report; nothing without a measurement. -/
def PfcpReport.volumes (report : PfcpReport) : VolumeMeasurement := report.volumeMeasurement.getD {}

/-- The container carries the volumes of the report. -/
def Carries (report : PfcpReport) (uu : UsedUnitContainer) : Prop :=
  uu.totalVolume.toInt = report.volumes.totalVolume.toNat ∧
    uu.uplinkVolume.toInt = report.volumes.uplinkVolume.toNat ∧
    uu.downlinkVolume.toInt = report.volumes.downlinkVolume.toNat

/-- The reports of the calls are charged unchanged: under each rating group the containers
    correspond to the reports charged there, in order and with their volumes, and no report is
    left over. -/
structure Unchanged (order : RangeOrder Int32) (c : SMContext) (calls : List ReportCall) :
    Prop where
  containers : ∀ rg, List.Forall₂ Carries
    (calls.flatMap fun call => call.reports.filter (call.chargedUnder c.chargingInfo rg))
    (containersFor (buildMultiUnitUsageFromUsageReport order (calls.foldl handleReports c)).1 rg)
  emptied : (buildMultiUnitUsageFromUsageReport order (calls.foldl handleReports c)).2.urrReports = []

/-- The volumes fit in an `int32`. -/
def VolumeMeasurement.Fits (v : VolumeMeasurement) : Prop :=
  v.totalVolume.toNat < 2 ^ 31 ∧ v.uplinkVolume.toNat < 2 ^ 31 ∧ v.downlinkVolume.toNat < 2 ^ 31

/-- The low 32 bits of the volumes are zero. -/
def VolumeMeasurement.Vanishes (v : VolumeMeasurement) : Prop :=
  v.totalVolume.toNat % 2 ^ 32 = 0 ∧ v.uplinkVolume.toNat % 2 ^ 32 = 0 ∧
    v.downlinkVolume.toNat % 2 ^ 32 = 0

/-- A report behind the reports `pre` of its call: a measurement fits, and without one the last
    measurement before it vanishes. -/
def Plain (pre : List PfcpReport) (report : PfcpReport) : Prop :=
  (∀ v, report.volumeMeasurement = some v → v.Fits) ∧
    (report.volumeMeasurement = none → ∀ v, lastMeasurement pre = some v → v.Vanishes)

/-- Lists chosen from one list, at the same places, correspond if their elements do. -/
theorem forall₂_filterMap_iff {α β γ : Type} {R : β → γ → Prop} {f : α → Option β}
    {g : α → Option γ} {l : List α} (h : ∀ x ∈ l, (f x).isSome = (g x).isSome) :
    List.Forall₂ R (l.filterMap f) (l.filterMap g) ↔
      ∀ x ∈ l, ∀ b c, f x = some b → g x = some c → R b c := by
  induction l with
  | nil => simp
  | cons x l ih =>
    have hx := h x List.mem_cons_self
    have hrest := ih fun y hy => h y (List.mem_cons_of_mem x hy)
    rw [List.forall_mem_cons, ← hrest]
    cases hf : f x with
    | none =>
      have hg : g x = none := by simpa [hf] using hx
      rw [List.filterMap_cons_none hf, List.filterMap_cons_none hg]
      simp
    | some b =>
      obtain ⟨c, hg⟩ : ∃ c, g x = some c := by
        rw [hf] at hx
        exact Option.isSome_iff_exists.mp hx.symm
      rw [List.filterMap_cons_some hf, List.filterMap_cons_some hg, List.forall₂_cons]
      simp [hg]

theorem containerOf_eq_some_iff {info : GoMap UInt32 ChargingInfo} {rg : Int32} {ur : UsageReport}
    {uu : UsedUnitContainer} :
    containerOf info rg ur = some uu ↔
      ∃ t chgInfo, ur.reportTpye = some t ∧ info.lookup ur.urrId = some chgInfo ∧
        chgInfo.ratingGroup = rg ∧ uu = usedUnit chgInfo ur t := by
  unfold containerOf
  cases ur.reportTpye with
  | none => simp
  | some t =>
    cases info.lookup ur.urrId with
    | none => simp
    | some chgInfo => simp [eq_comm]

theorem containerOf_fill_isSome (info : GoMap UInt32 ChargingInfo) (rg : Int32) (u : UsageReport)
    (r : PfcpReport) :
    (containerOf info rg (call.fill u r)).isSome = call.chargedUnder info rg r := by
  unfold containerOf ReportCall.chargedUnder
  rw [call.fill_urrId, call.fill_reportTpye]
  cases call.typeOf r with
  | none => rfl
  | some t =>
    cases info.lookup r.uRRID with
    | none => rfl
    | some chgInfo => by_cases hrg : chgInfo.ratingGroup = rg <;> simp [hrg]

/-- The charged reports of a call, found among its readings. -/
theorem ReportCall.filter_chargedUnder (info : GoMap UInt32 ChargingInfo) (rg : Int32)
    (u : UsageReport) (rs : List PfcpReport) :
    rs.filter (call.chargedUnder info rg) =
      (call.readings u rs).filterMap fun p =>
        if (containerOf info rg p.2).isSome then some p.1 else none := by
  induction rs generalizing u with
  | nil => rfl
  | cons r rs ih =>
    rw [readings, List.filterMap_cons, containerOf_fill_isSome, List.filter_cons,
      ih (call.fill u r)]
    cases call.chargedUnder info rg r <;> rfl

/-- A container carries the volumes of its report exactly if the report is plain. -/
theorem carries_usedUnit_iff (pre : List PfcpReport) (r : PfcpReport) (chgInfo : ChargingInfo)
    (t : TriggerType) :
    Carries r (usedUnit chgInfo (call.fill (pre.foldl call.fill {}) r) t) ↔ Plain pre r := by
  have hvol := call.fill_volumes (pre.foldl call.fill {}) r
  rw [call.foldl_fill_volumes] at hvol
  have hcarries : Carries r (usedUnit chgInfo (call.fill (pre.foldl call.fill {}) r) t) ↔
      (narrow (call.fill (pre.foldl call.fill {}) r).volumes.totalVolume).toInt =
        r.volumes.totalVolume.toNat ∧
      (narrow (call.fill (pre.foldl call.fill {}) r).volumes.uplinkVolume).toInt =
        r.volumes.uplinkVolume.toNat ∧
      (narrow (call.fill (pre.foldl call.fill {}) r).volumes.downlinkVolume).toInt =
        r.volumes.downlinkVolume.toNat := Iff.rfl
  rw [hcarries, hvol]
  unfold Plain PfcpReport.volumes narrow
  cases hr : r.volumeMeasurement with
  | some v =>
    simp only [Option.getD_some, toInt_toInt32_toUInt32_eq_iff]
    simp [VolumeMeasurement.Fits]
  | none =>
    have hzero : ∀ x : UInt64, x.toUInt32.toInt32.toInt = ((0 : UInt64).toNat : Int) ↔
        x.toNat % 2 ^ 32 = 0 := toInt_toInt32_toUInt32_eq_zero_iff
    simp only [Option.getD_none, hzero]
    cases hlast : lastMeasurement pre with
    | none => simp [UsageReport.volumes]
    | some v => simp [VolumeMeasurement.Vanishes]

theorem containersFor_calls (order : RangeOrder Int32) (c : SMContext) (calls : List ReportCall)
    (rg : Int32) :
    containersFor (buildMultiUnitUsageFromUsageReport order
        (calls.foldl handleReports { c with urrReports := [] })).1 rg =
      (readingsOf calls).filterMap fun p => containerOf c.chargingInfo rg p.2 := by
  rw [containersFor_build, foldl_handleReports, List.nil_append, List.filterMap_map]
  rfl

theorem flatMap_charged (c : SMContext) (calls : List ReportCall) (rg : Int32) :
    (calls.flatMap fun call => call.reports.filter (call.chargedUnder c.chargingInfo rg)) =
      (readingsOf calls).filterMap fun p =>
        if (containerOf c.chargingInfo rg p.2).isSome then some p.1 else none := by
  rw [readingsOf, List.filterMap_flatMap]
  congr 1
  funext call
  exact call.filter_chargedUnder c.chargingInfo rg {} call.reports

/-- Containers and charged reports both come from the readings, each from its own. -/
theorem unchanged_iff_carries (order : RangeOrder Int32) (c : SMContext) (calls : List ReportCall) :
    Unchanged order { c with urrReports := [] } calls ↔
      ∀ rg, ∀ p ∈ readingsOf calls, ∀ uu, containerOf c.chargingInfo rg p.2 = some uu →
        Carries p.1 uu := by
  have hcontainers := containersFor_calls order c calls
  have hcharged := flatMap_charged c calls
  constructor
  · intro h rg p hp uu huu
    have hall := h.containers rg
    rw [hcharged, hcontainers, forall₂_filterMap_iff (fun p _ => by split <;> simp_all)] at hall
    exact hall p hp p.1 uu (by simp [huu]) huu
  · intro h
    refine ⟨fun rg => ?_, rfl⟩
    rw [hcharged, hcontainers, forall₂_filterMap_iff (fun p _ => by split <;> simp_all)]
    intro p hp r uu hr huu
    obtain rfl : p.1 = r := by simpa [huu] using hr
    exact h rg p hp uu huu

/-- Whatever usage reports the UPFs send, in whatever calls of HandleReports: they are charged
    unchanged if and only if every charged report is plain at its place. -/
theorem usage_charged_unchanged_iff (order : RangeOrder Int32) (c : SMContext)
    (calls : List ReportCall) :
    Unchanged order { c with urrReports := [] } calls ↔
      ∀ call ∈ calls, ∀ pre report post, call.reports = pre ++ report :: post →
        (∃ rg, call.chargedUnder c.chargingInfo rg report = true) → Plain pre report := by
  rw [unchanged_iff_carries]
  constructor
  · intro h call hcall pre report post hreports ⟨rg, hrg⟩
    rw [← containerOf_fill_isSome call _ rg (pre.foldl call.fill {})] at hrg
    obtain ⟨uu, huu⟩ := Option.isSome_iff_exists.mp hrg
    have hmem : (report, call.fill (pre.foldl call.fill {}) report) ∈ readingsOf calls :=
      List.mem_flatMap.mpr ⟨call, hcall, ReportCall.mem_readings.mpr ⟨pre, post, hreports, rfl⟩⟩
    have hcarries := h rg _ hmem uu huu
    obtain ⟨t, chgInfo, -, -, -, rfl⟩ := containerOf_eq_some_iff.mp huu
    exact (carries_usedUnit_iff call pre report chgInfo t).mp hcarries
  · intro h rg p hp uu huu
    obtain ⟨call, hcall, hread⟩ := List.mem_flatMap.mp hp
    obtain ⟨pre, post, hreports, hfill⟩ := ReportCall.mem_readings.mp hread
    rw [hfill] at huu
    have hrg : call.chargedUnder c.chargingInfo rg p.1 = true := by
      rw [← containerOf_fill_isSome call _ rg (pre.foldl call.fill {}), huu]
      rfl
    obtain ⟨t, chgInfo, -, -, -, rfl⟩ := containerOf_eq_some_iff.mp huu
    exact (carries_usedUnit_iff call pre p.1 chgInfo t).mpr
      (h call hcall pre p.1 post hreports ⟨rg, hrg⟩)

/-- Two URRs, charged under the rating groups 1 and 2. -/
def twoGroups : GoMap UInt32 ChargingInfo :=
  (Finmap.insert 1 ⟨.onlineCharging, none, none, .flowCharging, 1, "upf"⟩ ∅).insert 2
    ⟨.onlineCharging, none, none, .flowCharging, 2, "upf"⟩

/-- A deletion response that reports 1000 bytes for URR 1 and measures nothing for URR 2. -/
def twoReports : ReportCall where
  usageReportDeletion :=
    [⟨1, some { totalVolume := 1000, uplinkVolume := 400, downlinkVolume := 600 }, { termr := true }⟩,
      ⟨2, none, { termr := true }⟩]
  upfId := "upf"

/-- The 1000 bytes of URR 1 are charged under the rating group of URR 2 as well. -/
theorem usage_charged_twice :
    ¬ ∀ (order : RangeOrder Int32) (c : SMContext) (calls : List ReportCall),
      Unchanged order { c with urrReports := [] } calls := by
  intro h
  have hgroup := (h (RangeOrder.ofCode _ toNat_toUInt32_injective) { chargingInfo := twoGroups }
    [twoReports]).containers 2
  rw [containersFor_build] at hgroup
  have hcontainers : List.filterMap (containerOf twoGroups 2)
      (handleReports { chargingInfo := twoGroups } twoReports).urrReports =
        [⟨.onlineCharging, [⟨.finalUsage, .immediateReport, 0, 0⟩], 600, 400, 1000⟩] := by decide
  have hreports : ([twoReports].flatMap fun call =>
      call.reports.filter (call.chargedUnder twoGroups 2)) = [⟨2, none, { termr := true }⟩] := by
    decide
  have hcarries : Carries ⟨2, none, { termr := true }⟩
      ⟨.onlineCharging, [⟨.finalUsage, .immediateReport, 0, 0⟩], 600, 400, 1000⟩ := by
    have hall : List.Forall₂ Carries
        ([twoReports].flatMap fun call => call.reports.filter (call.chargedUnder twoGroups 2))
        (List.filterMap (containerOf twoGroups 2)
          (handleReports { chargingInfo := twoGroups } twoReports).urrReports) := hgroup
    rw [hcontainers, hreports] at hall
    exact (List.forall₂_cons.mp hall).1
  exact absurd hcarries.1 (by decide)

end Free5gc.Smf.Charging
