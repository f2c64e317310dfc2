/-
  Plans that passed validation.

  The plan of a Session Modification Request that passes the `Validate…` methods and
  `validateMutualExclusion` is for its own session, removes no rule twice, removes, updates
  and queries only rules that the session has or the request creates, and neither updates nor
  queries a rule that it removes (`checked_modificationPlan`).

  `Phase P Q g g'` follows the calls from `g` to `g'`: on rules that satisfy `P` every call
  finds the rule that it is for, as long as the calls before it succeeded, and the rules
  satisfy `Q` when all of them did. Phases compose, so `validated_targets_present` goes through
  `ExecuteModificationPlan` loop by loop: the create loops bring every rule that is still to
  be removed, updated or queried (`Coming`), the remove loops take each of theirs once and
  keep the rest (`Due`), and the update and query loops change nothing.
-/
import Free5gc.Upf.Forwarder.Rules
import Free5gc.Upf.Pfcp.Session

namespace Free5gc.Upf

open Free5gc.Lib

/-- The ids of the rules of one kind. -/
def Sess.ids (s : Sess) : RuleKind → Finset Nat
  | .far => s.farIDs.image UInt32.toNat
  | .qer => s.qerIDs.image UInt32.toNat
  | .urr => s.urrIDs.keys.image UInt32.toNat
  | .bar => s.barIDs.image UInt8.toNat
  | .pdr => s.pdrIDs.keys.image UInt16.toNat

/-! ## Validated plans -/

variable {req : GroupedIE} {sess : Sess} {plan : ModificationPlan} {l lSeid : Nat}
  {keep : List (RuleKind × OID)} {α β : Type}

variable (O : Oracle)

theorem validateBuilt_ok {o : Option α} {p : α} (h : Sess.validateBuilt o = .ok p) :
    o = some p := by
  unfold Sess.validateBuilt at h
  split at h
  · cases h
  · cases h
    rfl

theorem validateKnown_ok {o : Option α} {known : α → Bool} {p : α}
    (h : Sess.validateKnown o known = .ok p) : o = some p ∧ known p = true := by
  unfold Sess.validateKnown at h
  obtain ⟨p', hp', h⟩ := bind_eq_ok.mp h
  split_ifs at h with hk
  rw [pure_eq_ok] at h
  subst h
  exact ⟨validateBuilt_ok hp', hk⟩

theorem validateCreatePDR_ok {s : Sess} {modPlan : ModificationPlan} {p : PDRPlan}
    (h : s.validateCreatePDR modPlan req = .ok p) : buildCreatePDRPlan s.localID req = some p := by
  unfold Sess.validateCreatePDR at h
  split at h
  · cases h
  · rename_i p' hp'
    split_ifs at h
    cases h
    exact hp'

/-- What holds of every result of a validation holds of every element of the list. -/
theorem forall_of_mapM_ok {ε : Type} {f : α → Except ε β} {l : List α} {ys : List β}
    (h : l.mapM f = .ok ys) {P : β → Prop} (hf : ∀ x y, f x = .ok y → P y) :
    ∀ y ∈ ys, P y := by
  intro y hy
  obtain ⟨x, _, hx⟩ := mapM_ok_mem h hy
  exact hf x y hx

/-- The part of a plan that creates rules. -/
theorem onSess_creates {modPlan : ModificationPlan} {far qer bar pdr : List GroupedIE}
    {urr : List CreateURRIE} {createFARs : List FARPlan} {createQERs : List QERPlan}
    {createURRs : List URRPlan} {createBARs : List BARPlan} {createPDRs : List PDRPlan}
    (hfars : far.mapM sess.validateCreateFAR = .ok createFARs)
    (hqers : qer.mapM sess.validateCreateQER = .ok createQERs)
    (hurrs : urr.mapM sess.validateCreateURR = .ok createURRs)
    (hbars : bar.mapM sess.validateCreateBAR = .ok createBARs)
    (hpdrs : pdr.mapM (sess.validateCreatePDR modPlan) = .ok createPDRs) :
    ({ ModificationPlan.new sess.localID with
      createFARs, createQERs, createURRs, createBARs, createPDRs } : ModificationPlan).OnSess
        sess.localID := by
  constructor
  case createFAR => exact forall_of_mapM_ok hfars fun _ _ h => oid_buildCreateFARPlan (validateBuilt_ok h)
  case createQER => exact forall_of_mapM_ok hqers fun _ _ h => oid_buildCreateQERPlan (validateBuilt_ok h)
  case createURR => exact forall_of_mapM_ok hurrs fun _ _ h => oid_buildCreateURRPlan (validateBuilt_ok h)
  case createBAR => exact forall_of_mapM_ok hbars fun _ _ h => oid_buildCreateBARPlan (validateBuilt_ok h)
  case createPDR =>
    exact forall_of_mapM_ok hpdrs fun _ _ h => oid_buildCreatePDRPlan (validateCreatePDR_ok h)
  all_goals exact List.forall_mem_nil _

theorem onSess_establishmentPlan {req : SessionEstablishmentRequest}
    (h : establishmentPlan sess req = .ok plan) : plan.OnSess sess.localID := by
  unfold establishmentPlan at h
  obtain ⟨fars, hfars, h⟩ := bind_eq_ok.mp h
  obtain ⟨qers, hqers, h⟩ := bind_eq_ok.mp h
  obtain ⟨urrs, hurrs, h⟩ := bind_eq_ok.mp h
  obtain ⟨bars, hbars, h⟩ := bind_eq_ok.mp h
  obtain ⟨pdrs, hpdrs, h⟩ := bind_eq_ok.mp h
  rw [pure_eq_ok] at h
  subst h
  exact onSess_creates hfars hqers hurrs hbars hpdrs

/-! ## Checked plans -/

/-- The rules that a plan updates or queries, as kind and id. -/
def ModificationPlan.read (plan : ModificationPlan) : List (RuleKind × Nat) :=
  plan.updateFARs.map (fun p => (.far, p.farid.toNat)) ++
  plan.updateQERs.map (fun p => (.qer, p.qerid.toNat)) ++
  plan.updateURRs.map (fun p => (.urr, p.urrid.toNat)) ++
  plan.updateBARs.map (fun p => (.bar, p.barid.toNat)) ++
  plan.updatePDRs.map (fun p => (.pdr, p.pdrid.toNat)) ++
  plan.queryURRs.map (fun p => (.urr, p.queryURRID.toNat))

/-- What the two validations establish for a session's plan. -/
structure ModificationPlan.Checked (sess : Sess) (plan : ModificationPlan) : Prop where
  seid : plan.seid = sess.localID
  onSess : plan.OnSess sess.localID
  updateFAR : ∀ p ∈ plan.updateFARs, p.oid = (sess.localID, p.farid.toNat)
  updateQER : ∀ p ∈ plan.updateQERs, p.oid = (sess.localID, p.qerid.toNat)
  updateBAR : ∀ p ∈ plan.updateBARs, p.oid = (sess.localID, p.barid.toNat)
  updatePDR : ∀ p ∈ plan.updatePDRs, p.oid = (sess.localID, p.pdrid.toNat)
  nodup : plan.removed.Nodup
  known : ∀ r ∈ plan.read ++ plan.removed, r.2 ∈ sess.ids r.1 ∨ r ∈ plan.created
  apart : ∀ r ∈ plan.read, r ∉ plan.removed

theorem oid_buildUpdateFARPlan {p : FARPlan} (h : buildUpdateFARPlan l req = some p) :
    p.oid = (l, p.farid.toNat) := by
  unfold buildUpdateFARPlan at h
  obtain ⟨ies, _, h⟩ := Option.bind_eq_some_iff.mp h
  obtain ⟨f, _, h⟩ := Option.bind_eq_some_iff.mp h
  cases h
  rfl

theorem oid_buildUpdateQERPlan {p : QERPlan} (h : buildUpdateQERPlan l req = some p) :
    p.oid = (l, p.qerid.toNat) := by
  unfold buildUpdateQERPlan buildQERPlan at h
  obtain ⟨ies, _, h⟩ := Option.bind_eq_some_iff.mp h
  cases h
  rfl

theorem oid_buildUpdateBARPlan {p : BARPlan} (h : buildUpdateBARPlan l req = some p) :
    p.oid = (l, p.barid.toNat) := by
  unfold buildUpdateBARPlan buildBARPlan at h
  obtain ⟨ies, _, h⟩ := Option.bind_eq_some_iff.mp h
  obtain ⟨barid, _, h⟩ := Option.bind_eq_some_iff.mp h
  cases h
  rfl

theorem oid_buildUpdatePDRPlan {p : PDRPlan} (h : buildUpdatePDRPlan l req = some p) :
    p.oid = (l, p.pdrid.toNat) := by
  unfold buildUpdatePDRPlan at h
  obtain ⟨ies, _, h⟩ := Option.bind_eq_some_iff.mp h
  obtain ⟨f, _, h⟩ := Option.bind_eq_some_iff.mp h
  cases h
  rfl

theorem checkDuplicates_ok [DecidableEq α] {ids : List α} :
    checkDuplicates ids = .ok () ↔ ids.Nodup := by
  unfold checkDuplicates
  split_ifs with hn
  · exact iff_of_true rfl hn
  · exact iff_of_false (fun h => by cases h) hn

theorem checkOverlap_ok [DecidableEq α] {ids₁ ids₂ : List α} :
    checkOverlap ids₁ ids₂ = .ok () ↔ ∀ id ∈ ids₂, id ∉ ids₁ := by
  unfold checkOverlap
  split_ifs with hn
  · obtain ⟨id, h2, h1⟩ := List.any_eq_true.mp hn
    refine iff_of_false (fun h => by cases h) fun h => ?_
    exact h id h2 (of_decide_eq_true h1)
  · refine iff_of_true rfl fun id h2 h1 => hn ?_
    exact List.any_eq_true.mpr ⟨id, h2, decide_eq_true h1⟩

/-- One check after another. -/
theorem check_bind_ok {x : Except RuleError Unit} {y : Except RuleError Unit} :
    (x >>= fun _ => y) = .ok () ↔ x = .ok () ∧ y = .ok () := by
  rw [bind_eq_ok]
  exact ⟨fun ⟨_, hx, hy⟩ => ⟨hx, hy⟩, fun ⟨hx, hy⟩ => ⟨(), hx, hy⟩⟩

/-- Ids that differ make rules of one kind that differ. -/
theorem nodup_rules {l : List α} {id : α → β} {toNat : β → Nat} (hinj : Function.Injective toNat)
    (kind : RuleKind) (h : (l.map id).Nodup) :
    (l.map fun p => (kind, toNat (id p))).Nodup := by
  have hmap : (l.map fun p => (kind, toNat (id p))) =
      (l.map id).map fun i => (kind, toNat i) := by
    rw [List.map_map]
    rfl
  rw [hmap]
  refine h.map fun i j e => hinj ?_
  exact congrArg Prod.snd e

theorem nodup_append_kind {l : List (RuleKind × Nat)} {ps : List α} {kind : RuleKind} {id : α → Nat}
    (hl : l.Nodup) (hps : (ps.map fun p => (kind, id p)).Nodup) (hk : ∀ n, (kind, n) ∉ l) :
    (l ++ ps.map fun p => (kind, id p)).Nodup := by
  refine List.nodup_append.mpr ⟨hl, hps, fun r hr r' hr' e => ?_⟩
  obtain ⟨p, _, rfl⟩ := List.mem_map.mp hr'
  exact hk (id p) (e ▸ hr)

/-- Ids that differ make rules that differ, also between two lists. -/
theorem apart_rules {γ : Type} {l : List α} {l' : List γ} {id : α → β} {id' : γ → β}
    {toNat : β → Nat} (hinj : Function.Injective toNat) (h : ∀ i ∈ l'.map id', i ∉ l.map id)
    {n : Nat} (hl : ∃ p ∈ l, toNat (id p) = n) (hl' : ∃ p ∈ l', toNat (id' p) = n) : False := by
  obtain ⟨p, hp, hn⟩ := hl
  obtain ⟨p', hp', hn'⟩ := hl'
  refine h (id' p') (List.mem_map_of_mem hp') ?_
  rw [hinj (hn'.trans hn.symm)]
  exact List.mem_map_of_mem hp

/-- What `validateMutualExclusion` says of the order of execution: nothing is removed twice,
    and nothing that is removed is updated or queried. -/
theorem validateMutualExclusion_ok (h : validateMutualExclusion plan = .ok ()) :
    plan.removed.Nodup ∧ ∀ r ∈ plan.read, r ∉ plan.removed := by
  unfold validateMutualExclusion at h
  simp only [check_bind_ok, checkDuplicates_ok, checkOverlap_ok] at h
  obtain ⟨_, pdr, pdr', _, far, far', _, qer, qer', _, urr, urr', query, _, bar, bar'⟩ := h
  constructor
  · have hpdr := nodup_rules toNat16_injective .pdr pdr
    have hbar := nodup_rules toNat8_injective .bar bar
    have hurr := nodup_rules toNat32_injective .urr urr
    have hqer := nodup_rules toNat32_injective .qer qer
    have hfar := nodup_rules toNat32_injective .far far
    unfold ModificationPlan.removed
    refine nodup_append_kind (nodup_append_kind (nodup_append_kind (nodup_append_kind hpdr
      hbar ?_) hurr ?_) hqer ?_) hfar ?_
    all_goals simp
  · rintro ⟨kind, n⟩ hread hremoved
    unfold ModificationPlan.read at hread
    unfold ModificationPlan.removed at hremoved
    cases kind with
    | far =>
      simp at hread hremoved
      exact apart_rules toNat32_injective far' hremoved hread
    | qer =>
      simp at hread hremoved
      exact apart_rules toNat32_injective qer' hremoved hread
    | urr =>
      simp at hread hremoved
      rcases hread with hread | hread
      · exact apart_rules toNat32_injective urr' hremoved hread
      · exact apart_rules toNat32_injective query hremoved hread
    | bar =>
      simp at hread hremoved
      exact apart_rules toNat8_injective bar' hremoved hread
    | pdr =>
      simp at hread hremoved
      exact apart_rules toNat16_injective pdr' hremoved hread

/-! ### The plan of a request -/

section Known

variable {sess : Sess} {plan : ModificationPlan}

variable {id : UInt32}

theorem known_far (h : (id ∈ sess.farIDs || plan.hasCreateFAR id) = true) :
    id.toNat ∈ sess.ids .far ∨ (.far, id.toNat) ∈ plan.created := by
  simpa [ModificationPlan.hasCreateFAR, ModificationPlan.created, Sess.ids, UInt32.toNat_inj]
    using h

theorem known_qer (h : (id ∈ sess.qerIDs || plan.hasCreateQER id) = true) :
    id.toNat ∈ sess.ids .qer ∨ (.qer, id.toNat) ∈ plan.created := by
  simpa [ModificationPlan.hasCreateQER, ModificationPlan.created, Sess.ids, UInt32.toNat_inj]
    using h

theorem known_urr (h : (id ∈ sess.urrIDs || plan.hasCreateURR id) = true) :
    id.toNat ∈ sess.ids .urr ∨ (.urr, id.toNat) ∈ plan.created := by
  simpa [ModificationPlan.hasCreateURR, ModificationPlan.created, Sess.ids, UInt32.toNat_inj,
    Finmap.mem_keys] using h

theorem known_bar {id : UInt8} (h : (id ∈ sess.barIDs || plan.hasCreateBAR id) = true) :
    id.toNat ∈ sess.ids .bar ∨ (.bar, id.toNat) ∈ plan.created := by
  simpa [ModificationPlan.hasCreateBAR, ModificationPlan.created, Sess.ids, UInt8.toNat_inj]
    using h

theorem known_pdr {id : UInt16} (h : (id ∈ sess.pdrIDs || plan.hasCreatePDR id) = true) :
    id.toNat ∈ sess.ids .pdr ∨ (.pdr, id.toNat) ∈ plan.created := by
  simpa [ModificationPlan.hasCreatePDR, ModificationPlan.created, Sess.ids, UInt16.toNat_inj,
    Finmap.mem_keys] using h

/-- The rules of a validated list are known when every rule that passes is. -/
theorem known_of_mapM {f : α → Except RuleError β} {l : List α} {ys : List β} {kind : RuleKind}
    {id : β → Nat} (h : l.mapM f = .ok ys)
    (hf : ∀ x y, f x = .ok y → id y ∈ sess.ids kind ∨ (kind, id y) ∈ plan.created) :
    ∀ r ∈ ys.map fun p => (kind, id p), r.2 ∈ sess.ids r.1 ∨ r ∈ plan.created :=
  List.forall_mem_map.mpr (forall_of_mapM_ok h hf)

end Known

theorem checked_modificationPlan {req : SessionModificationRequest}
    (h : modificationPlan sess req = .ok plan) : plan.Checked sess := by
  unfold modificationPlan at h
  obtain ⟨fars, hfars, h⟩ := bind_eq_ok.mp h
  obtain ⟨qers, hqers, h⟩ := bind_eq_ok.mp h
  obtain ⟨urrs, hurrs, h⟩ := bind_eq_ok.mp h
  obtain ⟨bars, hbars, h⟩ := bind_eq_ok.mp h
  obtain ⟨pdrs, hpdrs, h⟩ := bind_eq_ok.mp h
  obtain ⟨ufars, hufars, h⟩ := bind_eq_ok.mp h
  obtain ⟨uqers, huqers, h⟩ := bind_eq_ok.mp h
  obtain ⟨uurrs, huurrs, h⟩ := bind_eq_ok.mp h
  obtain ⟨ubars, hubars, h⟩ := bind_eq_ok.mp h
  obtain ⟨updrs, hupdrs, h⟩ := bind_eq_ok.mp h
  obtain ⟨qurrs, hqurrs, h⟩ := bind_eq_ok.mp h
  obtain ⟨rfars, hrfars, h⟩ := bind_eq_ok.mp h
  obtain ⟨rqers, hrqers, h⟩ := bind_eq_ok.mp h
  obtain ⟨rurrs, hrurrs, h⟩ := bind_eq_ok.mp h
  obtain ⟨rbars, hrbars, h⟩ := bind_eq_ok.mp h
  obtain ⟨rpdrs, hrpdrs, h⟩ := bind_eq_ok.mp h
  obtain ⟨_, hexcl, h⟩ := bind_eq_ok.mp h
  rw [pure_eq_ok] at h
  subst h
  obtain ⟨hnodup, hapart⟩ := validateMutualExclusion_ok hexcl
  refine ⟨rfl, ?_, ?_, ?_, ?_, ?_, hnodup, ?_, hapart⟩
  · have hcreates := onSess_creates hfars hqers hurrs hbars hpdrs
    constructor
    case createFAR => exact hcreates.createFAR
    case createQER => exact hcreates.createQER
    case createURR => exact hcreates.createURR
    case createBAR => exact hcreates.createBAR
    case createPDR => exact hcreates.createPDR
    case removePDR =>
      exact forall_of_mapM_ok hrpdrs fun _ _ h => oid_buildRemovePDRPlan (validateKnown_ok h).1
    case removeBAR =>
      exact forall_of_mapM_ok hrbars fun _ _ h => oid_buildRemoveBARPlan (validateKnown_ok h).1
    case removeURR =>
      exact forall_of_mapM_ok hrurrs fun _ _ h => oid_buildRemoveURRPlan (validateKnown_ok h).1
    case removeQER =>
      exact forall_of_mapM_ok hrqers fun _ _ h => oid_buildRemoveQERPlan (validateKnown_ok h).1
    case removeFAR =>
      exact forall_of_mapM_ok hrfars fun _ _ h => oid_buildRemoveFARPlan (validateKnown_ok h).1
    case updateURR =>
      exact forall_of_mapM_ok huurrs fun _ _ h => oid_buildUpdateURRPlan (validateKnown_ok h).1
    case queryURR =>
      exact forall_of_mapM_ok hqurrs fun _ _ h => oid_buildQueryURRPlan (validateKnown_ok h).1
  · exact forall_of_mapM_ok hufars fun _ _ h => oid_buildUpdateFARPlan (validateKnown_ok h).1
  · exact forall_of_mapM_ok huqers fun _ _ h => oid_buildUpdateQERPlan (validateKnown_ok h).1
  · exact forall_of_mapM_ok hubars fun _ _ h => oid_buildUpdateBARPlan (validateKnown_ok h).1
  · exact forall_of_mapM_ok hupdrs fun _ _ h => oid_buildUpdatePDRPlan (validateKnown_ok h).1
  · unfold ModificationPlan.read ModificationPlan.removed
    simp only [List.forall_mem_append]
    refine ⟨⟨⟨⟨⟨⟨?_, ?_⟩, ?_⟩, ?_⟩, ?_⟩, ?_⟩, ⟨⟨⟨?_, ?_⟩, ?_⟩, ?_⟩, ?_⟩
    · exact known_of_mapM hufars fun _ _ h => known_far (validateKnown_ok h).2
    · exact known_of_mapM huqers fun _ _ h => known_qer (validateKnown_ok h).2
    · exact known_of_mapM huurrs fun _ _ h => known_urr (validateKnown_ok h).2
    · exact known_of_mapM hubars fun _ _ h => known_bar (validateKnown_ok h).2
    · exact known_of_mapM hupdrs fun _ _ h => known_pdr (validateKnown_ok h).2
    · exact known_of_mapM hqurrs fun _ _ h => known_urr (validateKnown_ok h).2
    · exact known_of_mapM hrpdrs fun _ _ h => known_pdr (validateKnown_ok h).2
    · exact known_of_mapM hrbars fun _ _ h => known_bar (validateKnown_ok h).2
    · exact known_of_mapM hrurrs fun _ _ h => known_urr (validateKnown_ok h).2
    · exact known_of_mapM hrqers fun _ _ h => known_qer (validateKnown_ok h).2
    · exact known_of_mapM hrfars fun _ _ h => known_far (validateKnown_ok h).2

/-! ## Calls and the rules they are for -/

/-- The rule that a call needs. A create call needs none; the PDRs and QERs that
    `applyAction` reads are the ones that the kernel has just named. -/
def Call.target : Call → Option (RuleKind × OID)
  | .create _ _ => none
  | .update kind oid => some (kind, oid)
  | .remove kind oid => some (kind, oid)
  | .getReport oid => some (.urr, oid)
  | .getFAR oid => some (.far, oid)
  | .getPDR _ => none
  | .getQER _ => none

/-- Every call finds its rule among the rules of its moment, given that the calls before it
    succeeded, and the rules satisfy `Q` in the end if all of them did. -/
def PresentThen (Q : Finset (RuleKind × OID) → Prop) :
    Finset (RuleKind × OID) → List (Call × Answer) → Prop
  | rules, [] => Q rules
  | rules, (c, a) :: rest =>
    (∀ r, c.target = some r → r ∈ rules) ∧
      (a.err = false → PresentThen Q (c.applyTo rules) rest)

/-- Every call finds its rule. -/
def AllPresent (rules : Finset (RuleKind × OID)) (calls : List (Call × Answer)) : Prop :=
  PresentThen (fun _ => True) rules calls

theorem PresentThen.append {Q R : Finset (RuleKind × OID) → Prop} {rules : Finset (RuleKind × OID)}
    {l l' : List (Call × Answer)} (h : PresentThen Q rules l)
    (h' : ∀ rules, Q rules → PresentThen R rules l') : PresentThen R rules (l ++ l') := by
  induction l generalizing rules with
  | nil => exact h' rules h
  | cons ca l ih => exact ⟨h.1, fun hok => ih (h.2 hok)⟩

/-- The calls between `g` and `g'` are in order on rules that satisfy `P`, and leave rules
    that satisfy `Q`. -/
def Phase (P Q : Finset (RuleKind × OID) → Prop) (g g' : Gtp5g) : Prop :=
  ∃ new, g'.calls = g.calls ++ new ∧ ∀ rules, P rules → PresentThen Q rules new

namespace Phase

variable {P Q R : Finset (RuleKind × OID) → Prop} {g g' g'' : Gtp5g}

/-- A step of the driver without a call; what follows from `P` may be taken for it. -/
theorem silent (h : g'.calls = g.calls) (hPQ : ∀ rules, P rules → Q rules) : Phase P Q g g' :=
  ⟨[], by rw [h, List.append_nil], hPQ⟩

theorem trans (h : Phase P Q g g') (h' : Phase Q R g' g'') : Phase P R g g'' := by
  obtain ⟨l, hl, hP⟩ := h
  obtain ⟨l', hl', hQ⟩ := h'
  refine ⟨l ++ l', by rw [hl', hl, List.append_assoc], fun rules hr => ?_⟩
  exact (hP rules hr).append hQ

theorem call (g : Gtp5g) {c : Call}
    (hc : ∀ rules, P rules → (∀ r, c.target = some r → r ∈ rules) ∧ Q (c.applyTo rules)) :
    Phase P Q g (g.call O c) :=
  ⟨[(c, g.nextAnswer O)], rfl, fun rules hr => ⟨(hc rules hr).1, fun _ => (hc rules hr).2⟩⟩

/-- A call that needs no rule and changes none. -/
theorem read (g : Gtp5g) {c : Call} (ht : c.target = none) (hc : ∀ rules, c.applyTo rules = rules) :
    Phase P P g (g.call O c) := by
  refine call O g fun rules hr => ⟨fun r h => ?_, ?_⟩
  · rw [ht] at h
    cases h
  · rw [hc]
    exact hr

/-- A loop that keeps `P`. `drv` is the driver in the loop's state. -/
theorem foldl {σ : Type} (drv : σ → Gtp5g) {step : σ → α → σ} {l : List α}
    (hstep : ∀ a ∈ l, ∀ s, Phase P P (drv s) (drv (step s a))) (s : σ) :
    Phase P P (drv s) (drv (l.foldl step s)) := by
  induction l generalizing s with
  | nil => exact silent rfl fun _ h => h
  | cons a l ih =>
    exact (hstep a List.mem_cons_self s).trans
      (ih (fun a' ha' => hstep a' (List.mem_cons_of_mem a ha')) (step s a))

/-- A loop that works off the head of a list, one element a turn. -/
theorem consume {σ κ : Type} (drv : σ → Gtp5g) {step : σ → α → σ} (key : α → κ)
    {W : List κ → Finset (RuleKind × OID) → Prop}
    (hstep : ∀ a rest s, Phase (W (key a :: rest)) (W rest) (drv s) (drv (step s a))) (l : List α)
    (rest : List κ) (s : σ) :
    Phase (W (l.map key ++ rest)) (W rest) (drv s) (drv (l.foldl step s)) := by
  induction l generalizing s with
  | nil => exact silent rfl fun _ h => h
  | cons a l ih => exact (hstep a (l.map key ++ rest) s).trans (ih (step s a))

end Phase

/-! ### Creates -/

/-- Every rule that is needed is there or about to be created. -/
def Coming (need rest : List (RuleKind × OID)) (rules : Finset (RuleKind × OID)) : Prop :=
  ∀ r ∈ need, r ∈ rules ∨ r ∈ rest

theorem phase_create (need rest : List (RuleKind × OID)) (kind : RuleKind) (oid : OID) (g : Gtp5g) :
    Phase (Coming need ((kind, oid) :: rest)) (Coming need rest) g
      (g.call O (.create kind oid)) := by
  refine Phase.call O g fun rules hr => ⟨fun r h => ?_, fun r hneed => ?_⟩
  · cases h
  · show r ∈ insert (kind, oid) rules ∨ r ∈ rest
    rw [Finset.mem_insert]
    rcases hr r hneed with h | h
    · exact Or.inl (Or.inr h)
    · rcases List.mem_cons.mp h with h | h
      · exact Or.inl (Or.inl h)
      · exact Or.inr h

theorem calls_addTimer (seid : Nat) (p : URRPlan) (g : Gtp5g) :
    (g.addTimer O seid p).calls = g.calls := by
  unfold Gtp5g.addTimer
  split
  · split
    · rfl
    · rfl
  · rfl

theorem phase_createURR (seid : Nat) (need rest : List (RuleKind × OID)) (p : URRPlan) (g : Gtp5g) :
    Phase (Coming need ((.urr, p.oid) :: rest)) (Coming need rest) g (createURR O seid g p) :=
  (Phase.silent (calls_addTimer O seid p g) fun _ h => h).trans (phase_create O need rest .urr p.oid _)

/-- The create loops bring what is needed. -/
theorem phase_executeCreates (hp : plan.OnSess lSeid) (need : List (RuleKind × OID)) (g : Gtp5g) :
    Phase (Coming need (plan.created.map (ruleOf lSeid))) (Coming need []) g
      (executeCreates O plan g) := by
  unfold ModificationPlan.created executeCreates
  dsimp only
  simp only [List.map_append, map_ruleOf hp.createFAR, map_ruleOf hp.createQER,
    map_ruleOf hp.createURR, map_ruleOf hp.createBAR, map_ruleOf hp.createPDR,
    List.append_assoc]
  refine (Phase.consume id _ (fun p rest => phase_create O need rest .far p.oid) _ _ g).trans ?_
  refine (Phase.consume id _ (fun p rest => phase_create O need rest .qer p.oid) _ _ _).trans ?_
  refine (Phase.consume id _ (fun p rest => phase_createURR O plan.seid need rest p) _ _ _).trans ?_
  refine (Phase.consume id _ (fun p rest => phase_create O need rest .bar p.oid) _ _ _).trans ?_
  rw [← List.append_nil (plan.createPDRs.map _)]
  exact Phase.consume id _ (fun p rest => phase_create O need rest .pdr p.oid) _ _ _

/-! ### Removes -/

/-- The rules that are still to be removed and those to be kept are all there, and no removal
    touches another rule of either. -/
structure Due (keep rest : List (RuleKind × OID)) (rules : Finset (RuleKind × OID)) : Prop where
  nodup : rest.Nodup
  apart : ∀ r ∈ keep, r ∉ rest
  rest_mem : ∀ r ∈ rest, r ∈ rules
  keep_mem : ∀ r ∈ keep, r ∈ rules

theorem phase_remove (keep rest : List (RuleKind × OID)) (kind : RuleKind) (oid : OID) (g : Gtp5g) :
    Phase (Due keep ((kind, oid) :: rest)) (Due keep rest) g (g.call O (.remove kind oid)) := by
  refine Phase.call O g fun rules hr => ⟨fun r h => ?_, ?_⟩
  · cases h
    exact hr.rest_mem _ List.mem_cons_self
  · have hnd := List.nodup_cons.mp hr.nodup
    refine ⟨hnd.2, fun r hk h => hr.apart r hk (List.mem_cons_of_mem _ h), ?_, ?_⟩
    · intro r h
      refine Finset.mem_erase.mpr ⟨?_, hr.rest_mem r (List.mem_cons_of_mem _ h)⟩
      rintro rfl
      exact hnd.1 h
    · intro r h
      refine Finset.mem_erase.mpr ⟨?_, hr.keep_mem r h⟩
      rintro rfl
      exact hr.apart _ h List.mem_cons_self

theorem phase_removeURR (seid : Nat) (keep rest : List (RuleKind × OID)) (p : URRPlan)
    (acc : Gtp5g × List USAReport) :
    Phase (Due keep ((.urr, p.oid) :: rest)) (Due keep rest) acc.1 (removeURR O seid acc p).1 := by
  have htimer : Phase (Due keep ((.urr, p.oid) :: rest)) (Due keep ((.urr, p.oid) :: rest)) acc.1
      (acc.1.notify O (.del seid p.urrid)) := Phase.silent rfl fun _ h => h
  exact htimer.trans (phase_remove O keep rest .urr p.oid _)

/-- The remove loops find what they remove, and keep the rest. -/
theorem phase_executeRemoves (hp : plan.OnSess lSeid) (keep : List (RuleKind × OID)) (g : Gtp5g) :
    Phase (Due keep (plan.removed.map (ruleOf lSeid))) (Due keep []) g
      (executeRemoves O plan g).1 := by
  unfold ModificationPlan.removed executeRemoves
  dsimp only
  simp only [List.map_append, map_ruleOf hp.removePDR, map_ruleOf hp.removeBAR,
    map_ruleOf hp.removeURR, map_ruleOf hp.removeQER, map_ruleOf hp.removeFAR,
    List.append_assoc]
  refine (Phase.consume id _ (fun p rest => phase_remove O keep rest .pdr p.oid) _ _ g).trans ?_
  refine (Phase.consume id _ (fun p rest => phase_remove O keep rest .bar p.oid) _ _ _).trans ?_
  refine (Phase.consume Prod.fst _ (fun p rest => phase_removeURR O plan.seid keep rest p)
    _ _ (_, [])).trans ?_
  refine (Phase.consume id _ (fun p rest => phase_remove O keep rest .qer p.oid) _ _ _).trans ?_
  rw [← List.append_nil (plan.removeFARs.map _)]
  exact Phase.consume id _ (fun p rest => phase_remove O keep rest .far p.oid) _ _ _

/-! ### Updates and queries -/

/-- A call that changes no rule, for a rule that is kept. -/
theorem phase_keep {c : Call} {r : RuleKind × OID} (g : Gtp5g) (ht : c.target = some r)
    (hc : ∀ rules, c.applyTo rules = rules) (hr : r ∈ keep) :
    Phase (Due keep []) (Due keep []) g (g.call O c) := by
  refine Phase.call O g fun rules h => ⟨fun r' h' => ?_, ?_⟩
  · rw [ht] at h'
    cases h'
    exact h.keep_mem r hr
  · rw [hc]
    exact h

theorem phase_findQFI {P : Finset (RuleKind × OID) → Prop} (lSeid : Nat) (qerids : List UInt32)
    (g : Gtp5g) : Phase P P g (findQFI O lSeid g qerids).1 := by
  induction qerids generalizing g with
  | nil => exact Phase.silent rfl fun _ h => h
  | cons qerid rest ih =>
    have hcall : Phase P P g (g.call O (.getQER (lSeid, qerid.toNat))) :=
      Phase.read O g rfl fun _ => rfl
    unfold findQFI
    dsimp only
    split_ifs
    · exact hcall
    · exact hcall.trans (ih _)

theorem phase_forwardPDR {P : Finset (RuleKind × OID) → Prop} (lSeid : Nat) (far : OID)
    (pdrid : UInt16) (gq : Gtp5g × Queues) :
    Phase P P gq.1 (forwardPDR O lSeid far gq pdrid).1 := by
  have hcall : Phase P P gq.1 (gq.1.call O (.getPDR (lSeid, pdrid.toNat))) :=
    Phase.read O gq.1 rfl fun _ => rfl
  unfold forwardPDR
  dsimp only
  split_ifs
  · exact hcall
  · have hq := phase_findQFI (P := P) O lSeid (gq.1.nextAnswer O).qerids
      (gq.1.call O (.getPDR (lSeid, pdrid.toNat)))
    exact (hcall.trans hq).trans (Phase.silent rfl fun _ h => h)

theorem phase_applyAction (lSeid : Nat) (farid : UInt32) (action : UInt16) (gq : Gtp5g × Queues)
    (hr : (.far, (lSeid, farid.toNat)) ∈ keep) :
    Phase (Due keep []) (Due keep []) gq.1 (applyAction O lSeid farid action gq).1 := by
  have hcall := phase_keep O gq.1 (c := .getFAR (lSeid, farid.toNat)) rfl (fun _ => rfl) hr
  unfold applyAction
  dsimp only
  split_ifs
  · exact hcall
  · exact hcall
  · exact hcall
  · exact hcall.trans
      (Phase.foldl Prod.fst (fun pdrid _ => phase_forwardPDR O lSeid _ pdrid) (_, gq.2))
  · exact hcall

theorem phase_updateFAR {seid : Nat} {p : FARPlan} (hoid : p.oid = (seid, p.farid.toNat))
    (hr : (.far, p.oid) ∈ keep) (gq : Gtp5g × Queues) :
    Phase (Due keep []) (Due keep []) gq.1 (updateFAR O seid gq p).1 := by
  have hcall := phase_keep O gq.1 (c := .update .far p.oid) rfl (fun _ => rfl) hr
  unfold updateFAR
  dsimp only
  split
  · rename_i action _
    rw [hoid] at hr
    exact hcall.trans (phase_applyAction O seid p.farid action (_, gq.2) hr)
  · exact hcall

/-- The calls of one loop are for rules that the plan reads. -/
theorem ModificationPlan.mem_read {ps : List α} {kind : RuleKind} {oid : α → OID} {id : α → Nat}
    (hoid : ∀ p ∈ ps, oid p = (lSeid, id p)) (hsub : ps.map (fun p => (kind, id p)) ⊆ plan.read)
    {p : α} (hp : p ∈ ps) :
    (kind, oid p) ∈ plan.read.map (ruleOf lSeid) := by
  rw [hoid p hp, ruleOf_mem_map]
  exact ⟨rfl, hsub (List.mem_map_of_mem hp)⟩

/-- The update and query loops find every rule they are for. -/
theorem phase_executeUpdates (hp : plan.Checked sess) (g : Gtp5g) (q : Queues)
    (usars : List USAReport) :
    let keep := plan.read.map (ruleOf sess.localID)
    Phase (Due keep []) (Due keep []) g (executeUpdates O plan g q usars).1 := by
  intro keep
  have hfar : ∀ p ∈ plan.updateFARs, (.far, p.oid) ∈ keep := fun p h =>
    ModificationPlan.mem_read hp.updateFAR (fun _ hr => by simp [ModificationPlan.read, hr]) h
  have hqer : ∀ p ∈ plan.updateQERs, (.qer, p.oid) ∈ keep := fun p h =>
    ModificationPlan.mem_read hp.updateQER (fun _ hr => by simp [ModificationPlan.read, hr]) h
  have hurr : ∀ p ∈ plan.updateURRs, (.urr, p.oid) ∈ keep := fun p h =>
    ModificationPlan.mem_read hp.onSess.updateURR
      (fun _ hr => by simp [ModificationPlan.read, hr]) h
  have hbar : ∀ p ∈ plan.updateBARs, (.bar, p.oid) ∈ keep := fun p h =>
    ModificationPlan.mem_read hp.updateBAR (fun _ hr => by simp [ModificationPlan.read, hr]) h
  have hpdr : ∀ p ∈ plan.updatePDRs, (.pdr, p.oid) ∈ keep := fun p h =>
    ModificationPlan.mem_read hp.updatePDR (fun _ hr => by simp [ModificationPlan.read, hr]) h
  have hquery : ∀ p ∈ plan.queryURRs, (.urr, p.oid) ∈ keep := fun p h =>
    ModificationPlan.mem_read hp.onSess.queryURR
      (fun _ hr => by simp [ModificationPlan.read, hr]) h
  have hoid : ∀ p ∈ plan.updateFARs, p.oid = (plan.seid, p.farid.toNat) := by
    rw [hp.seid]
    exact hp.updateFAR
  have hupdate : ∀ p ∈ plan.updateURRs, ∀ acc,
      Phase (Due keep []) (Due keep []) acc.1 (updateURR O acc p).1 := fun p h acc =>
    phase_keep O acc.1 rfl (fun _ => rfl) (hurr p h)
  have hask : ∀ p ∈ plan.queryURRs, ∀ acc,
      Phase (Due keep []) (Due keep []) acc.1 (queryURRPlan O acc p).1 := fun p h acc =>
    phase_keep O acc.1 rfl (fun _ => rfl) (hquery p h)
  unfold executeUpdates
  dsimp only
  refine (Phase.foldl Prod.fst (fun p h => phase_updateFAR O (hoid p h) (hfar p h)) (g, q)).trans ?_
  refine (Phase.foldl id (fun p h g => phase_keep O g (c := .update .qer p.oid) rfl
    (fun _ => rfl) (hqer p h)) _).trans ?_
  refine (Phase.foldl Prod.fst hupdate (_, usars)).trans ?_
  refine (Phase.foldl id (fun p h g => phase_keep O g (c := .update .bar p.oid) rfl
    (fun _ => rfl) (hbar p h)) _).trans ?_
  refine (Phase.foldl id (fun p h g => phase_keep O g (c := .update .pdr p.oid) rfl
    (fun _ => rfl) (hpdr p h)) _).trans ?_
  exact Phase.foldl Prod.fst hask (_, _)

theorem ruleOf_injective (lSeid : Nat) : Function.Injective (ruleOf lSeid) := by
  rintro ⟨k, n⟩ ⟨k', n'⟩ h
  cases h
  rfl

/-- Once everything that is needed is there, the removals are due. -/
theorem ModificationPlan.Checked.due (hp : plan.Checked sess) {rules : Finset (RuleKind × OID)}
    (h : Coming ((plan.read ++ plan.removed).map (ruleOf sess.localID)) [] rules) :
    Due (plan.read.map (ruleOf sess.localID)) (plan.removed.map (ruleOf sess.localID)) rules := by
  have hmem : ∀ r ∈ plan.read ++ plan.removed, ruleOf sess.localID r ∈ rules := fun r hr =>
    (h _ (List.mem_map_of_mem hr)).resolve_right List.not_mem_nil
  refine ⟨hp.nodup.map (ruleOf_injective _), ?_, ?_, ?_⟩
  · rintro _ h' hr'
    obtain ⟨r, hr, rfl⟩ := List.mem_map.mp h'
    exact hp.apart r hr ((List.mem_map_of_injective (ruleOf_injective _)).mp hr')
  · rintro _ h'
    obtain ⟨r, hr, rfl⟩ := List.mem_map.mp h'
    exact hmem r (List.mem_append_right _ hr)
  · rintro _ h'
    obtain ⟨r, hr, rfl⟩ := List.mem_map.mp h'
    exact hmem r (List.mem_append_left _ hr)

/-- In the order in which `ExecuteModificationPlan` makes its calls, every remove, update and
    query of a plan that passed validation is for a rule that is there at that moment, given
    that the calls before it succeeded. -/
theorem validated_targets_present (O : Oracle) {sess : Sess} {req : SessionModificationRequest}
    {plan : ModificationPlan} (hplan : modificationPlan sess req = .ok plan) (g : Gtp5g)
    (q : Queues) (hview : ∀ kind n, (kind, (sess.localID, n)) ∈ g.rules ↔ n ∈ sess.ids kind) :
    ∃ new, (executeModificationPlan O g q plan).1.calls = g.calls ++ new ∧
      AllPresent g.rules new := by
  have hp := checked_modificationPlan hplan
  have hcoming : Coming ((plan.read ++ plan.removed).map (ruleOf sess.localID))
      (plan.created.map (ruleOf sess.localID)) g.rules := by
    rintro _ h'
    obtain ⟨r, hr, rfl⟩ := List.mem_map.mp h'
    rcases hp.known r hr with hid | hnew
    · exact Or.inl ((hview r.1 r.2).mpr hid)
    · exact Or.inr (List.mem_map_of_mem hnew)
  have hall : Phase (Coming ((plan.read ++ plan.removed).map (ruleOf sess.localID))
      (plan.created.map (ruleOf sess.localID))) (fun _ => True) g
      (executeModificationPlan O g q plan).1 := by
    refine (phase_executeCreates O hp.onSess _ g).trans ?_
    refine (Phase.silent rfl fun _ h => hp.due h).trans ?_
    refine (phase_executeRemoves O hp.onSess _ _).trans ?_
    exact (phase_executeUpdates O hp _ q _).trans (Phase.silent rfl fun _ _ => trivial)
  obtain ⟨new, hcalls, hnew⟩ := hall
  exact ⟨new, hcalls, hnew g.rules hcoming⟩

/-- A session with one FAR. -/
def oneFARSess : Sess := { Sess.new 0 1 7 with farIDs := {1} }

/-- A driver with that FAR. -/
def oneFARDriver : Gtp5g := { Gtp5g.open with rules := {(.far, (1, 1))} }

/-- Update the FAR, and create and remove another one. -/
def swapFARRequest : SessionModificationRequest :=
  { SessionModificationRequest.empty 1 1 with
    createFAR := [some [.farID (some 2)]]
    updateFAR := [some [.farID (some 1)]]
    removeFAR := [some 2] }

theorem oneFAR_view (kind : RuleKind) (n : Nat) :
    (kind, (oneFARSess.localID, n)) ∈ oneFARDriver.rules ↔ n ∈ oneFARSess.ids kind := by
  cases kind with
  | _ => simp [oneFARSess, oneFARDriver, Sess.ids, Sess.new]

theorem swapFARRequest_targets_present :
    ∃ plan, modificationPlan oneFARSess swapFARRequest = .ok plan ∧
      ∃ new, (executeModificationPlan (Oracle.ofAnswers fun _ => Answer.done) oneFARDriver ∅
          plan).1.calls = oneFARDriver.calls ++ new ∧
        AllPresent oneFARDriver.rules new := by
  have hplan : ∃ plan, modificationPlan oneFARSess swapFARRequest = .ok plan := ⟨_, rfl⟩
  obtain ⟨plan, hplan⟩ := hplan
  exact ⟨plan, hplan, validated_targets_present _ hplan oneFARDriver ∅ oneFAR_view⟩

end Free5gc.Upf
