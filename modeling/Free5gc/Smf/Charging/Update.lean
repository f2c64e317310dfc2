/-
  A charging update and the state of the session: ReportUsageAndUpdateQuota
  (NFs/smf/internal/sbi/processor/charging_trigger.go) reports the cached usage to the CHF, writes
  the answer into the URRs and sends those that wait for an update to their UPFs.

  The session leaves the state Active after the answer, and is put back to it for each UPF that
  answers a request. A request that cannot be sent leaves no response, which is read all the same,
  and a timer of the answer can panic. `keepsActive_iff` says for which sessions, answers and
  outcomes the session is Active afterwards.

  The states of the URRs, which a request changes on its way, are not read after the URRs have been
  collected and are left as the answer makes them.
-/
import Free5gc.Smf.Charging.Renewal

namespace Free5gc.Smf.Charging

open Free5gc.Lib

inductive SMContextState where
  | inActive
  | activePending
  | active
  | inActivePending
  | modificationPending
  | pfcpModification
  deriving DecidableEq

structure Session where
  ctx : SMContext
  state : SMContextState

/-- What `SendConvergedChargingRequest` returns. -/
inductive ChfAnswer where
  | problem
  | error
  | response (multipleUnitInformation : List MultipleUnitInformation)

/-- What `SendPfcpSessionModificationRequest` to a known UPF comes to. -/
inductive PfcpOutcome where
  | accepted
  | rejected
  | sendError
  deriving DecidableEq

/-- The response of a request that was not sent is dereferenced, or `time.NewTicker` is called with
    an interval that is not positive. -/
inductive Panic where
  | nilResponse
  | interval

/-- The request to one UPF; `none` is a UPF that `GetUpfById` does not know. -/
def sendUpdate (outcome : String → Option PfcpOutcome) (s : Session) (upfId : String) :
    Except Panic Session :=
  match outcome upfId with
  | none => .ok s
  | some .sendError => .error .nilResponse
  | some .accepted => .ok { s with state := .active }
  | some .rejected => .ok { s with state := .active }

/-- The iteration orders of a call: of the rating groups, the URRs and the UPFs. -/
structure Orders where
  groups : RangeOrder Int32
  urrs : RangeOrder UInt32
  upfs : RangeOrder String

/-- The keys of `upfUrrMap`: the UPFs with a URR that waits for an update. -/
def upfUrrMap (order : RangeOrder UInt32) (c : SMContext) : Finset String :=
  c.urrTable.keys.filter fun upfId => urrsToUpdate order c upfId ≠ []

def reportUsageAndUpdateQuota (orders : Orders) (now : Nat) (answer : ChfAnswer)
    (outcome : String → Option PfcpOutcome) (s : Session) : Except Panic Session :=
  let (multipleUnitUsage, c) := buildMultiUnitUsageFromUsageReport orders.groups s.ctx
  if multipleUnitUsage = [] then .ok { s with ctx := c }
  else match answer with
    | .problem => .ok { s with ctx := c }
    | .error => .ok { s with ctx := c }
    | .response infos =>
      match updateGrantedQuota orders.urrs now c infos with
      | none => .error .interval
      | some c =>
        let s : Session := ⟨c, .pfcpModification⟩
        if upfUrrMap orders.urrs c = ∅ then .ok s
        else (orders.upfs.keys 0 (upfUrrMap orders.urrs c)).foldlM (sendUpdate outcome) s

/-! ## When usage is reported -/

variable {order : RangeOrder UInt32} {c c' : SMContext} {upfId : String} {urrID : UInt32}
  {now : Nat} {infos : List MultipleUnitInformation}

/-- A cached report is reported to the CHF if it has a type and its URR is charged. -/
def SMContext.Chargeable (c : SMContext) : Prop :=
  ∃ ur ∈ c.urrReports, ur.reportTpye ≠ none ∧ ur.urrId ∈ c.chargingInfo

theorem mem_addUsage {m : GoMap Int32 MultipleUnitUsage} {ur : UsageReport} {rg : Int32} :
    rg ∈ addUsage c m ur ↔ rg ∈ m ∨
      ur.reportTpye ≠ none ∧ ∃ info, c.chargingInfo.lookup ur.urrId = some info ∧
        info.ratingGroup = rg := by
  unfold addUsage
  cases ur.reportTpye with
  | none => simp
  | some t =>
    cases c.chargingInfo.lookup ur.urrId with
    | none => simp
    | some info =>
      dsimp only
      split <;> simp [eq_comm, or_comm]

theorem mem_foldl_addUsage {urs : List UsageReport} {m : GoMap Int32 MultipleUnitUsage}
    {rg : Int32} :
    rg ∈ urs.foldl (addUsage c) m ↔ rg ∈ m ∨ ∃ ur ∈ urs,
      ur.reportTpye ≠ none ∧ ∃ info, c.chargingInfo.lookup ur.urrId = some info ∧
        info.ratingGroup = rg := by
  induction urs generalizing m with
  | nil => simp
  | cons ur urs ih =>
    rw [List.foldl_cons, ih, mem_addUsage, or_assoc]
    simp only [List.mem_cons, exists_eq_or_imp]

theorem build_ne_nil_iff (groups : RangeOrder Int32) (c : SMContext) :
    (buildMultiUnitUsageFromUsageReport groups c).1 ≠ [] ↔ c.Chargeable := by
  have hkeys : (buildMultiUnitUsageFromUsageReport groups c).1 ≠ [] ↔
      ∃ rg, rg ∈ c.urrReports.foldl (addUsage c) ∅ := by
    unfold buildMultiUnitUsageFromUsageReport
    generalize c.urrReports.foldl (addUsage c) ∅ = m
    rw [ne_eq, List.filterMap_eq_nil_iff]
    simp only [groups.mem_keys, Finmap.mem_keys, not_forall]
    constructor
    · exact fun ⟨rg, hrg, _⟩ => ⟨rg, hrg⟩
    · intro ⟨rg, hrg⟩
      exact ⟨rg, hrg, Option.isSome_iff_ne_none.mp (Finmap.lookup_isSome.mpr hrg)⟩
  rw [hkeys]
  simp only [mem_foldl_addUsage]
  constructor
  · intro ⟨rg, h⟩
    rcases h with h | ⟨ur, hur, ht, info, hinfo, -⟩
    · exact absurd h Finmap.notMem_empty
    · exact ⟨ur, hur, ht, Finmap.mem_iff.mpr ⟨info, hinfo⟩⟩
  · intro ⟨ur, hur, ht, hmem⟩
    obtain ⟨info, hinfo⟩ := Finmap.mem_iff.mp hmem
    exact ⟨info.ratingGroup, .inr ⟨ur, hur, ht, info, hinfo, rfl⟩⟩

/-! ## Which URRs wait for an update -/

/-- An item of the answer is for the rating group of the URR, on its UPF. -/
def SMContext.Selected (c : SMContext) (infos : List MultipleUnitInformation) (upfId : String)
    (urrID : UInt32) : Prop :=
  ∃ ui ∈ infos, ui.uPFID = upfId ∧ ∃ method, c.charging urrID = some (ui.ratingGroup, method)

/-- The UPF has a URR that waits for an update already or is selected by the answer. -/
def SMContext.ToUpdate (c : SMContext) (infos : List MultipleUnitInformation) (upfId : String) :
    Prop :=
  ∃ urrID entry, c.urrEntry upfId urrID = some entry ∧
    (entry.state = .update ∨ c.Selected infos upfId urrID)

/-- A number without an entry or without charging information is left as it is. -/
theorem urrEntry_updateGrantedQuota_of_not
    (hupdate : updateGrantedQuota order now c infos = some c')
    (h : c.urrEntry upfId urrID = none ∨ c.charging urrID = none) :
    c'.urrEntry upfId urrID = c.urrEntry upfId urrID := by
  have hid : ∀ c₁, SameUrrs c c₁ → ∀ ui : MultipleUnitInformation, ∀ id,
      id ∈ getUrrsByRg order c₁ ui.uPFID ui.ratingGroup → ¬ (upfId = ui.uPFID ∧ urrID = id) := by
    rintro c₁ h₁ ui _ hmem ⟨rfl, rfl⟩
    obtain ⟨⟨entry, hentry⟩, method, hcharging⟩ :=
      mem_getUrrsByRg.mp (h₁.mem_getUrrsByRg_iff.mp hmem)
    rcases h with h | h
    · exact Option.some_ne_none _ (hentry.symm.trans h)
    · exact Option.some_ne_none _ (hcharging.symm.trans h)
  refine (Run.inv (fun c₁ => SameUrrs c c₁ ∧ c₁.urrEntry upfId urrID = c.urrEntry upfId urrID)
    (run_iff_foldlM.mpr hupdate) ?_ ⟨.refl c, rfl⟩).2
  rintro c₁ ui c₂ - hitem ⟨h₁, hkept⟩
  refine ⟨h₁.trans (.foldlM_grantUrr now hitem), ?_⟩
  refine Run.inv (fun c₃ => c₃.urrEntry upfId urrID = c.urrEntry upfId urrID)
    (run_iff_foldlM.mpr hitem) (fun c₃ id c₄ hmem hstep h₃ => ?_) hkept
  exact (urrEntry_grantUrr_of_ne now hstep (hid c₁ h₁ ui id hmem)).trans h₃

/-- The URRs that wait for an update after the answer. -/
theorem waits_updateGrantedQuota_iff (hupdate : updateGrantedQuota order now c infos = some c') :
    (∃ entry, c'.urrEntry upfId urrID = some entry ∧ entry.state = .update) ↔
    ∃ entry, c.urrEntry upfId urrID = some entry ∧
      (entry.state = .update ∨ c.Selected infos upfId urrID) := by
  cases hentry : c.urrEntry upfId urrID with
  | none =>
    rw [urrEntry_updateGrantedQuota_of_not hupdate (.inl hentry), hentry]
    simp
  | some entry =>
    cases hcharging : c.charging urrID with
    | none =>
      rw [urrEntry_updateGrantedQuota_of_not hupdate (.inr hcharging), hentry]
      simp [SMContext.Selected, hcharging]
    | some p =>
      obtain ⟨rg, method⟩ := p
      have hsel : selecting order c infos upfId urrID ≠ [] ↔ c.Selected infos upfId urrID := by
        rw [selecting_eq hentry hcharging, ne_eq, List.filter_eq_nil_iff]
        simp only [SMContext.Selected, hcharging, decide_eq_true_eq, not_forall, not_not]
        simp [eq_comm, and_left_comm]
      rw [urrEntry_updateGrantedQuota now hupdate hentry hcharging]
      by_cases hnil : selecting order c infos upfId urrID = []
      · have hnot : ¬ c.Selected infos upfId urrID := fun h => hsel.mpr h hnil
        simp [hnil, hnot]
      · have hyes := hsel.mp hnil
        simp [state_foldl_grantEntry now method hnil entry, hyes]

theorem mem_upfUrrMap (order : RangeOrder UInt32) (c : SMContext) (upfId : String) :
    upfId ∈ upfUrrMap order c ↔
      ∃ urrID entry, c.urrEntry upfId urrID = some entry ∧ entry.state = .update := by
  have hne : urrsToUpdate order c upfId ≠ [] ↔
      ∃ urrID entry, c.urrEntry upfId urrID = some entry ∧ entry.state = .update := by
    constructor
    · intro h
      obtain ⟨urrID, hmem⟩ := List.exists_mem_of_ne_nil _ h
      exact ⟨urrID, mem_urrsToUpdate.mp hmem⟩
    · exact fun ⟨urrID, h⟩ => List.ne_nil_of_mem (mem_urrsToUpdate.mpr h)
  unfold upfUrrMap
  rw [Finset.mem_filter, hne]
  refine ⟨And.right, fun h => ⟨?_, h⟩⟩
  obtain ⟨urrID, entry, hentry, -⟩ := h
  obtain ⟨entries, hentries, -⟩ := Option.bind_eq_some_iff.mp hentry
  exact Finmap.mem_keys.mpr (Finmap.mem_iff.mpr ⟨entries, hentries⟩)

theorem mem_upfUrrMap_updateGrantedQuota (hupdate : updateGrantedQuota order now c infos = some c')
    (upfId : String) : upfId ∈ upfUrrMap order c' ↔ c.ToUpdate infos upfId := by
  rw [mem_upfUrrMap]
  exact exists_congr fun urrID => waits_updateGrantedQuota_iff hupdate

/-! ## The state after the requests -/

/-- The loop over the UPFs ends if every request to a known UPF is sent, and ends in the state Active
    if it begins in it or some UPF is known. -/
theorem foldlM_sendUpdate (outcome : String → Option PfcpOutcome) (upfs : List String) (s : Session) :
    (∃ s', upfs.foldlM (sendUpdate outcome) s = .ok s' ∧ s'.state = .active) ↔
      (∀ upfId ∈ upfs, outcome upfId ≠ some .sendError) ∧
        (s.state = .active ∨ ∃ upfId ∈ upfs, outcome upfId ≠ none) := by
  induction upfs generalizing s with
  | nil => simp [pure, Except.pure]
  | cons upfId upfs ih =>
    rw [List.foldlM_cons, sendUpdate]
    match ho : outcome upfId with
    | none =>
      refine (ih s).trans ?_
      simp [ho]
    | some .sendError => simp [ho, bind, Except.bind]
    | some .accepted =>
      refine (ih { s with state := .active }).trans ?_
      simp [ho]
    | some .rejected =>
      refine (ih { s with state := .active }).trans ?_
      simp [ho]

variable {orders : Orders} {answer : ChfAnswer} {outcome : String → Option PfcpOutcome} {s : Session}

/-- Without usage or without a response only the cached reports are taken. -/
theorem report_without_response (h : s.ctx.Chargeable → ∀ infos, answer ≠ .response infos) :
    reportUsageAndUpdateQuota orders now answer outcome s =
      .ok { s with ctx := { s.ctx with urrReports := [] } } := by
  unfold reportUsageAndUpdateQuota
  dsimp only
  split_ifs with hnil
  · rfl
  · match answer with
    | .problem => rfl
    | .error => rfl
    | .response infos =>
      exact absurd rfl (h ((build_ne_nil_iff orders.groups s.ctx).mp hnil) infos)

theorem report_chargeable (h : s.ctx.Chargeable) :
    reportUsageAndUpdateQuota orders now (.response infos) outcome s =
      match updateGrantedQuota orders.urrs now { s.ctx with urrReports := [] } infos with
      | none => .error .interval
      | some c =>
        if upfUrrMap orders.urrs c = ∅ then .ok ⟨c, .pfcpModification⟩
        else (orders.upfs.keys 0 (upfUrrMap orders.urrs c)).foldlM (sendUpdate outcome)
          ⟨c, .pfcpModification⟩ := by
  unfold reportUsageAndUpdateQuota
  dsimp only
  rw [if_neg ((build_ne_nil_iff orders.groups s.ctx).mpr h)]
  rfl

/-- An answer that leaves no URR to update leaves the session as it is then. -/
theorem report_stranded (h : s.ctx.Chargeable) (hno : ∀ upfId, ¬ s.ctx.ToUpdate infos upfId)
    (hupdate : updateGrantedQuota orders.urrs now { s.ctx with urrReports := [] } infos = some c) :
    reportUsageAndUpdateQuota orders now (.response infos) outcome s =
      .ok ⟨c, .pfcpModification⟩ := by
  rw [report_chargeable h, hupdate]
  refine if_pos (Finset.eq_empty_of_forall_notMem fun upfId hmem => hno upfId ?_)
  exact (mem_upfUrrMap_updateGrantedQuota hupdate upfId).mp hmem

/-- What is asked of a charging update: it ends, in the state Active. -/
def KeepsActive (orders : Orders) (now : Nat) (answer : ChfAnswer)
    (outcome : String → Option PfcpOutcome) (s : Session) : Prop :=
  ∃ s', reportUsageAndUpdateQuota orders now answer outcome s = .ok s' ∧ s'.state = .active

/-- Once the answer is taken, the session is Active if a UPF is asked and no request fails. -/
theorem keepsActive_of_update (h : s.ctx.Chargeable)
    (hupdate : updateGrantedQuota orders.urrs now { s.ctx with urrReports := [] } infos = some c) :
    KeepsActive orders now (.response infos) outcome s ↔
      (∃ upfId, s.ctx.ToUpdate infos upfId ∧ outcome upfId ≠ none) ∧
        ∀ upfId, s.ctx.ToUpdate infos upfId → outcome upfId ≠ some .sendError := by
  have hmem := mem_upfUrrMap_updateGrantedQuota hupdate
  unfold KeepsActive
  by_cases hno : ∀ upfId, ¬ s.ctx.ToUpdate infos upfId
  · rw [report_stranded h hno hupdate]
    constructor
    · intro ⟨s', hs', hstate⟩
      rw [← Except.ok.inj hs'] at hstate
      cases hstate
    · exact fun ⟨⟨upfId, hto, _⟩, _⟩ => absurd hto (hno upfId)
  · have hne : upfUrrMap orders.urrs c ≠ ∅ := by
      obtain ⟨upfId, hto⟩ := not_forall_not.mp hno
      exact Finset.ne_empty_of_mem ((hmem upfId).mpr hto)
    rw [report_chargeable h, hupdate]
    dsimp only
    rw [if_neg hne, foldlM_sendUpdate, or_iff_right SMContextState.noConfusion, and_comm]
    simp only [orders.upfs.mem_keys, hmem]
    rfl

theorem keepsActive_response (h : s.ctx.Chargeable) :
    KeepsActive orders now (.response infos) outcome s ↔
      s.ctx.TimersStart orders.urrs infos ∧
      (∃ upfId, s.ctx.ToUpdate infos upfId ∧ outcome upfId ≠ none) ∧
        ∀ upfId, s.ctx.ToUpdate infos upfId → outcome upfId ≠ some .sendError := by
  have hends : (∃ c, updateGrantedQuota orders.urrs now { s.ctx with urrReports := [] } infos =
      some c) ↔ s.ctx.TimersStart orders.urrs infos := exists_updateGrantedQuota_iff now _ _ _
  rw [← hends]
  constructor
  · intro hactive
    cases hupdate : updateGrantedQuota orders.urrs now { s.ctx with urrReports := [] } infos with
    | none =>
      obtain ⟨s', hs', -⟩ := hactive
      rw [report_chargeable h, hupdate] at hs'
      cases hs'
    | some c => exact ⟨⟨c, rfl⟩, (keepsActive_of_update h hupdate).mp hactive⟩
  · rintro ⟨⟨c, hupdate⟩, hsent⟩
    exact (keepsActive_of_update h hupdate).mpr hsent

/-- An active session is Active after a charging update exactly if no usage is reported, the CHF does
    not answer with a response, or no timer of the response panics, some UPF with a URR to update is
    known and every request to one of these is sent. -/
theorem keepsActive_iff (orders : Orders) (now : Nat) (answer : ChfAnswer)
    (outcome : String → Option PfcpOutcome) (s : Session) (hactive : s.state = .active) :
    KeepsActive orders now answer outcome s ↔
      (s.ctx.Chargeable → ∀ infos, answer = .response infos →
        s.ctx.TimersStart orders.urrs infos ∧
        (∃ upfId, s.ctx.ToUpdate infos upfId ∧ outcome upfId ≠ none) ∧
          ∀ upfId, s.ctx.ToUpdate infos upfId → outcome upfId ≠ some .sendError) := by
  by_cases hno : s.ctx.Chargeable → ∀ infos, answer ≠ .response infos
  · exact ⟨fun _ hc infos ha => absurd ha (hno hc infos),
      fun _ => ⟨_, report_without_response hno, hactive⟩⟩
  · push Not at hno
    obtain ⟨hcharge, infos, rfl⟩ := hno
    rw [keepsActive_response hcharge]
    exact ⟨fun h _ _ ha => ChfAnswer.response.inj ha ▸ h, fun h => h hcharge infos rfl⟩

/-- A session with one charged URR and a report of it. -/
def chargedSession : Session where
  ctx :=
    { urrReports := [{ urrId := 1, upfId := "upf", reportTpye := some .volumeLimit }]
      chargingInfo := (∅ : GoMap UInt32 ChargingInfo).insert 1
        ⟨.onlineCharging, none, none, .flowCharging, 7, "upf"⟩
      urrTable := (∅ : GoMap String (GoMap UInt32 UrrEntry)).insert "upf"
        ((∅ : GoMap UInt32 UrrEntry).insert 1 ⟨{}, .create⟩) }
  state := .active

theorem chargeable_chargedSession : chargedSession.ctx.Chargeable := by
  refine ⟨_, List.mem_cons_self, Option.some_ne_none _, ?_⟩
  exact Finmap.mem_insert.mpr (.inl rfl)

/-- The entry of a session is the one of its only URR. -/
theorem urrEntry_chargedSession {upfId : String} {urrID : UInt32} {entry : UrrEntry}
    (h : chargedSession.ctx.urrEntry upfId urrID = some entry) : entry = ⟨{}, .create⟩ := by
  obtain ⟨entries, hentries, hentry⟩ := Option.bind_eq_some_iff.mp h
  unfold chargedSession at hentries
  rw [GoMap.lookup_insert_eq, Finmap.lookup_empty] at hentries
  split_ifs at hentries
  rw [← Option.some.inj hentries, GoMap.lookup_insert_eq, Finmap.lookup_empty] at hentry
  split_ifs at hentry
  exact (Option.some.inj hentry).symm

/-- A response without unit information leaves nothing to update, and the session where it is. -/
theorem chargedSession_stranded :
    chargedSession.state = .active ∧
      ∀ orders now outcome, reportUsageAndUpdateQuota orders now (.response []) outcome
        chargedSession = .ok ⟨{ chargedSession.ctx with urrReports := [] }, .pfcpModification⟩ := by
  refine ⟨rfl, fun orders now outcome => report_stranded chargeable_chargedSession ?_ rfl⟩
  intro upfId ⟨urrID, entry, hentry, h⟩
  rw [urrEntry_chargedSession hentry] at h
  rcases h with h | ⟨ui, hui, -⟩
  · cases h
  · exact List.not_mem_nil hui

/-- Some iteration orders. -/
noncomputable def someOrders : Orders where
  groups := ⟨fun _ s => s.toList, fun _ s => s.nodup_toList, fun _ _ _ => Finset.mem_toList⟩
  urrs := ⟨fun _ s => s.toList, fun _ s => s.nodup_toList, fun _ _ _ => Finset.mem_toList⟩
  upfs := ⟨fun _ s => s.toList, fun _ s => s.nodup_toList, fun _ _ _ => Finset.mem_toList⟩

theorem keepsActive_iff_chargedSession :
    chargedSession.state = .active ∧
    (KeepsActive someOrders 0 (.response []) (fun _ => some .accepted) chargedSession ↔
      (chargedSession.ctx.Chargeable → ∀ infos, ChfAnswer.response [] = .response infos →
        chargedSession.ctx.TimersStart someOrders.urrs infos ∧
        (∃ upfId, chargedSession.ctx.ToUpdate infos upfId ∧ some PfcpOutcome.accepted ≠ none) ∧
          ∀ upfId, chargedSession.ctx.ToUpdate infos upfId →
            some PfcpOutcome.accepted ≠ some .sendError)) :=
  ⟨rfl, keepsActive_iff someOrders 0 (.response []) (fun _ => some .accepted) chargedSession rfl⟩

end Free5gc.Smf.Charging
