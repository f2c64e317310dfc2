/-
  What the driver's operations do to the rules that the kernel holds.

  `Gtp5g.OnlyReads` is what queries, updates and packet forwarding keep: the rules and the
  timers. For a kernel that fails no call, a plan adds the rules that it creates and then
  drops the rules that it removes (`mem_rules_executeModificationPlan`), and an establishment
  ends as its create loops do (`executeEstablishmentPlan_ok`).
-/
import Free5gc.Lib.Fallible
import Free5gc.Lib.Run
import Free5gc.Upf.Forwarder.Gtp5g

namespace Free5gc.Upf

open Free5gc.Lib

/-! ## Operations that only read -/

/-- The rules and the timers are as they were. -/
structure Gtp5g.OnlyReads (g g' : Gtp5g) : Prop where
  rules : g'.rules = g.rules
  ps : g'.ps = g.ps

namespace Gtp5g

theorem OnlyReads.refl (g : Gtp5g) : g.OnlyReads g := ⟨rfl, rfl⟩

theorem OnlyReads.trans {g g' g'' : Gtp5g} (h : g.OnlyReads g') (h' : g'.OnlyReads g'') :
    g.OnlyReads g'' :=
  ⟨h'.rules.trans h.rules, h'.ps.trans h.ps⟩

theorem onlyReads_range (g : Gtp5g) : g.OnlyReads g.range := ⟨rfl, rfl⟩

/-- A call that neither creates nor removes only reads. -/
theorem onlyReads_call (O : Oracle) (g : Gtp5g) {c : Call}
    (hc : ∀ rules, c.applyTo rules = rules) : g.OnlyReads (g.call O c) := by
  refine ⟨?_, rfl⟩
  show (if (g.nextAnswer O).err then g.rules else c.applyTo g.rules) = g.rules
  rw [hc]
  exact ite_self _

theorem onlyReads_queryURR (O : Oracle) (g : Gtp5g) (lSeid : Nat) (urrid : UInt32) :
    g.OnlyReads (g.queryURR O lSeid urrid).1 :=
  g.onlyReads_call O fun _ => rfl

/-- A loop whose turns only read only reads. `drv` is the driver in the loop's state. -/
theorem onlyReads_foldl {σ α : Type} (drv : σ → Gtp5g) {step : σ → α → σ}
    (hstep : ∀ s a, (drv s).OnlyReads (drv (step s a))) (l : List α) (s : σ) :
    (drv s).OnlyReads (drv (l.foldl step s)) :=
  foldl_inv (fun s' => (drv s).OnlyReads (drv s')) (fun s' a h => h.trans (hstep s' a)) l
    (OnlyReads.refl (drv s))

/-- A loop of calls that neither create nor remove only reads. -/
theorem onlyReads_calls {α : Type} (O : Oracle) (c : α → Call)
    (hc : ∀ a rules, (c a).applyTo rules = rules) (l : List α) (g : Gtp5g) :
    g.OnlyReads (l.foldl (fun g a => g.call O (c a)) g) :=
  onlyReads_foldl (fun g => g) (fun g a => g.onlyReads_call O (hc a)) l g

end Gtp5g

variable {l : Nat} {req : GroupedIE} {p : URRPlan}

theorem onlyReads_findQFI (O : Oracle) (lSeid : Nat) (qerids : List UInt32) (g : Gtp5g) :
    g.OnlyReads (findQFI O lSeid g qerids).1 := by
  induction qerids generalizing g with
  | nil => exact Gtp5g.OnlyReads.refl g
  | cons qerid rest ih =>
    have hcall := g.onlyReads_call O (c := .getQER (lSeid, qerid.toNat)) fun _ => rfl
    unfold findQFI
    dsimp only
    split_ifs
    · exact hcall
    · exact hcall.trans (ih _)

theorem onlyReads_forwardPDR (O : Oracle) (lSeid : Nat) (far : OID) (gq : Gtp5g × Queues)
    (pdrid : UInt16) : gq.1.OnlyReads (forwardPDR O lSeid far gq pdrid).1 := by
  have hcall := gq.1.onlyReads_call O (c := .getPDR (lSeid, pdrid.toNat)) fun _ => rfl
  unfold forwardPDR
  dsimp only
  split_ifs
  · exact hcall
  · have hq := onlyReads_findQFI O lSeid (gq.1.nextAnswer O).qerids
      (gq.1.call O (.getPDR (lSeid, pdrid.toNat)))
    exact (hcall.trans hq).trans ⟨rfl, rfl⟩

theorem onlyReads_applyAction (O : Oracle) (lSeid : Nat) (farid : UInt32) (action : UInt16)
    (gq : Gtp5g × Queues) : gq.1.OnlyReads (applyAction O lSeid farid action gq).1 := by
  have hcall := gq.1.onlyReads_call O (c := .getFAR (lSeid, farid.toNat)) fun _ => rfl
  unfold applyAction
  dsimp only
  split_ifs
  · exact hcall
  · exact hcall
  · exact hcall
  · exact hcall.trans
      (Gtp5g.onlyReads_foldl Prod.fst (onlyReads_forwardPDR O lSeid _) _ (_, gq.2))
  · exact hcall

theorem onlyReads_updateFAR (O : Oracle) (seid : Nat) (gq : Gtp5g × Queues) (p : FARPlan) :
    gq.1.OnlyReads (updateFAR O seid gq p).1 := by
  have hcall := gq.1.onlyReads_call O (c := .update .far p.oid) fun _ => rfl
  unfold updateFAR
  dsimp only
  split
  · rename_i action _
    exact hcall.trans (onlyReads_applyAction O seid p.farid action (_, gq.2))
  · exact hcall

/-- The update and query loops only read. -/
theorem onlyReads_executeUpdates (O : Oracle) (plan : ModificationPlan) (g : Gtp5g)
    (q : Queues) (usars : List USAReport) :
    g.OnlyReads (executeUpdates O plan g q usars).1 := by
  unfold executeUpdates
  dsimp only
  refine Gtp5g.OnlyReads.trans ?_ (Gtp5g.onlyReads_foldl Prod.fst
    (fun acc _ => acc.1.onlyReads_call O fun _ => rfl) plan.queryURRs _)
  refine Gtp5g.OnlyReads.trans ?_
    (Gtp5g.onlyReads_calls O (fun p => .update .pdr p.oid) (fun _ _ => rfl) plan.updatePDRs _)
  refine Gtp5g.OnlyReads.trans ?_
    (Gtp5g.onlyReads_calls O (fun p => .update .bar p.oid) (fun _ _ => rfl) plan.updateBARs _)
  refine Gtp5g.OnlyReads.trans ?_ (Gtp5g.onlyReads_foldl Prod.fst
    (fun acc _ => acc.1.onlyReads_call O fun _ => rfl) plan.updateURRs _)
  refine Gtp5g.OnlyReads.trans ?_
    (Gtp5g.onlyReads_calls O (fun p => .update .qer p.oid) (fun _ _ => rfl) plan.updateQERs _)
  exact Gtp5g.onlyReads_foldl Prod.fst (onlyReads_updateFAR O plan.seid) plan.updateFARs (g, q)

/-! ## The rules of a plan -/

/-- The rules that a plan creates, as kind and id. -/
def ModificationPlan.created (plan : ModificationPlan) : List (RuleKind × Nat) :=
  plan.createFARs.map (fun p => (.far, p.farid.toNat)) ++
  plan.createQERs.map (fun p => (.qer, p.qerid.toNat)) ++
  plan.createURRs.map (fun p => (.urr, p.urrid.toNat)) ++
  plan.createBARs.map (fun p => (.bar, p.barid.toNat)) ++
  plan.createPDRs.map (fun p => (.pdr, p.pdrid.toNat))

/-- The rules that a plan removes, as kind and id. -/
def ModificationPlan.removed (plan : ModificationPlan) : List (RuleKind × Nat) :=
  plan.removePDRs.map (fun p => (.pdr, p.pdrid.toNat)) ++
  plan.removeBARs.map (fun p => (.bar, p.barid.toNat)) ++
  plan.removeURRs.map (fun p => (.urr, p.urrid.toNat)) ++
  plan.removeQERs.map (fun p => (.qer, p.qerid.toNat)) ++
  plan.removeFARs.map (fun p => (.far, p.farid.toNat))

/-- The rule that the kernel holds for a rule of session `lSeid`. -/
def ruleOf (lSeid : Nat) (r : RuleKind × Nat) : RuleKind × OID := (r.1, (lSeid, r.2))

theorem ruleOf_mem_map {lSeid : Nat} {k : RuleKind} {oid : OID} {l : List (RuleKind × Nat)} :
    (k, oid) ∈ l.map (ruleOf lSeid) ↔ oid.1 = lSeid ∧ (k, oid.2) ∈ l := by
  rw [List.mem_map]
  constructor
  · rintro ⟨r, hr, h⟩
    cases h
    exact ⟨rfl, hr⟩
  · rintro ⟨h, hr⟩
    refine ⟨(k, oid.2), hr, ?_⟩
    subst h
    rfl

/-- The calls of one loop of a plan, by the ids that the plan names. -/
theorem map_ruleOf {α : Type} {ps : List α} {kind : RuleKind} {oid : α → OID} {id : α → Nat}
    {lSeid : Nat} (h : ∀ p ∈ ps, oid p = (lSeid, id p)) :
    (ps.map fun p => (kind, id p)).map (ruleOf lSeid) = ps.map fun p => (kind, oid p) := by
  rw [List.map_map]
  refine List.map_congr_left fun p hp => ?_
  rw [h p hp]
  rfl

/-- The calls of the plan that create or remove rules or return usage reports are for the
    rules of session `lSeid` that the plan names. -/
structure ModificationPlan.OnSess (plan : ModificationPlan) (lSeid : Nat) : Prop where
  createFAR : ∀ p ∈ plan.createFARs, p.oid = (lSeid, p.farid.toNat)
  createQER : ∀ p ∈ plan.createQERs, p.oid = (lSeid, p.qerid.toNat)
  createURR : ∀ p ∈ plan.createURRs, p.oid = (lSeid, p.urrid.toNat)
  createBAR : ∀ p ∈ plan.createBARs, p.oid = (lSeid, p.barid.toNat)
  createPDR : ∀ p ∈ plan.createPDRs, p.oid = (lSeid, p.pdrid.toNat)
  removePDR : ∀ p ∈ plan.removePDRs, p.oid = (lSeid, p.pdrid.toNat)
  removeBAR : ∀ p ∈ plan.removeBARs, p.oid = (lSeid, p.barid.toNat)
  removeURR : ∀ p ∈ plan.removeURRs, p.oid = (lSeid, p.urrid.toNat)
  removeQER : ∀ p ∈ plan.removeQERs, p.oid = (lSeid, p.qerid.toNat)
  removeFAR : ∀ p ∈ plan.removeFARs, p.oid = (lSeid, p.farid.toNat)
  updateURR : ∀ p ∈ plan.updateURRs, p.oid = (lSeid, p.urrid.toNat)
  queryURR : ∀ p ∈ plan.queryURRs, p.oid = (lSeid, p.queryURRID.toNat)

/-! ### Builders

Every builder puts the rule's own id into the `OID`. -/

theorem exists_built {α β : Type} {x : Option α} {build : α → β} {p : β}
    (h : (x >>= fun a => pure (build a)) = some p) : ∃ a, build a = p := by
  obtain ⟨a, _, ha⟩ := Option.bind_eq_some_iff.mp h
  exact ⟨a, Option.some.inj ha⟩

theorem oid_buildCreateFARPlan {p : FARPlan} (h : buildCreateFARPlan l req = some p) :
    p.oid = (l, p.farid.toNat) := by
  obtain ⟨ies, _, h⟩ := Option.bind_eq_some_iff.mp h
  obtain ⟨f, rfl⟩ := exists_built h
  rfl

theorem oid_buildCreateQERPlan {p : QERPlan} (h : buildCreateQERPlan l req = some p) :
    p.oid = (l, p.qerid.toNat) := by
  obtain ⟨v, rfl⟩ := exists_built h
  rfl

theorem oid_buildCreateURRPlan {req : CreateURRIE} (h : buildCreateURRPlan l req = some p) :
    p.oid = (l, p.urrid.toNat) := by
  unfold buildCreateURRPlan at h
  obtain ⟨ies, _, h⟩ := Option.bind_eq_some_iff.mp h
  obtain ⟨f, _, h⟩ := Option.bind_eq_some_iff.mp h
  split at h
  · cases h
  · cases h
    rfl

theorem oid_buildCreateBARPlan {p : BARPlan} (h : buildCreateBARPlan l req = some p) :
    p.oid = (l, p.barid.toNat) := by
  obtain ⟨ies, _, h⟩ := Option.bind_eq_some_iff.mp h
  obtain ⟨f, rfl⟩ := exists_built h
  rfl

theorem oid_buildCreatePDRPlan {p : PDRPlan} (h : buildCreatePDRPlan l req = some p) :
    p.oid = (l, p.pdrid.toNat) := by
  obtain ⟨ies, _, h⟩ := Option.bind_eq_some_iff.mp h
  obtain ⟨f, rfl⟩ := exists_built h
  rfl

theorem oid_buildRemovePDRPlan {req : Option UInt16} {p : PDRPlan}
    (h : buildRemovePDRPlan l req = some p) : p.oid = (l, p.pdrid.toNat) := by
  obtain ⟨v, rfl⟩ := exists_built h
  rfl

theorem oid_buildRemoveBARPlan {req : Option UInt8} {p : BARPlan}
    (h : buildRemoveBARPlan l req = some p) : p.oid = (l, p.barid.toNat) := by
  obtain ⟨v, rfl⟩ := exists_built h
  rfl

theorem oid_buildRemoveURRPlan {req : Option UInt32} (h : buildRemoveURRPlan l req = some p) :
    p.oid = (l, p.urrid.toNat) := by
  obtain ⟨v, rfl⟩ := exists_built h
  rfl

theorem oid_buildRemoveQERPlan {req : Option UInt32} {p : QERPlan}
    (h : buildRemoveQERPlan l req = some p) : p.oid = (l, p.qerid.toNat) := by
  obtain ⟨v, rfl⟩ := exists_built h
  rfl

theorem oid_buildRemoveFARPlan {req : Option UInt32} {p : FARPlan}
    (h : buildRemoveFARPlan l req = some p) : p.oid = (l, p.farid.toNat) := by
  obtain ⟨v, rfl⟩ := exists_built h
  rfl

theorem oid_buildUpdateURRPlan (h : buildUpdateURRPlan l req = some p) :
    p.oid = (l, p.urrid.toNat) := by
  obtain ⟨ies, _, h⟩ := Option.bind_eq_some_iff.mp h
  obtain ⟨f, rfl⟩ := exists_built h
  rfl

theorem oid_buildQueryURRPlan {req : Option UInt32} (h : buildQueryURRPlan l req = some p) :
    p.oid = (l, p.queryURRID.toNat) := by
  obtain ⟨v, rfl⟩ := exists_built h
  rfl

/-! ## Execution without failures -/

/-- The kernel fails no call. -/
def Oracle.Succeeds (O : Oracle) : Prop := ∀ n, (O.answer n).err = false

section

variable {O : Oracle} (hO : O.Succeeds)
include hO

variable {plan : ModificationPlan} {lSeid : Nat}

theorem Oracle.Succeeds.rules_call (g : Gtp5g) (c : Call) :
    (g.call O c).rules = c.applyTo g.rules := by
  have hok : (g.nextAnswer O).err = false := hO g.calls.length
  show (if (g.nextAnswer O).err then g.rules else c.applyTo g.rules) = _
  rw [hok]
  rfl

theorem Oracle.Succeeds.mem_call_create (g : Gtp5g) (kind : RuleKind) (oid : OID)
    (r : RuleKind × OID) :
    r ∈ (g.call O (.create kind oid)).rules ↔ r ∈ g.rules ∨ r = (kind, oid) := by
  rw [hO.rules_call]
  show r ∈ insert (kind, oid) g.rules ↔ _
  rw [Finset.mem_insert, or_comm]

theorem Oracle.Succeeds.mem_call_remove (g : Gtp5g) (kind : RuleKind) (oid : OID)
    (r : RuleKind × OID) :
    r ∈ (g.call O (.remove kind oid)).rules ↔ r ∈ g.rules ∧ r ≠ (kind, oid) := by
  rw [hO.rules_call]
  show r ∈ g.rules.erase (kind, oid) ↔ _
  rw [Finset.mem_erase, and_comm]

theorem mem_rules_executeCreates (hp : plan.OnSess lSeid) (g : Gtp5g) (r : RuleKind × OID) :
    r ∈ (executeCreates O plan g).rules ↔
      r ∈ g.rules ∨ r ∈ plan.created.map (ruleOf lSeid) := by
  have hurr : ∀ g p r, r ∈ (createURR O plan.seid g p).rules ↔
      r ∈ g.rules ∨ r = (.urr, p.oid) := by
    intro g p r
    have htimer : (g.addTimer O plan.seid p).rules = g.rules := by
      unfold Gtp5g.addTimer
      split
      · split
        · rfl
        · rfl
      · rfl
    rw [← htimer]
    exact hO.mem_call_create _ .urr p.oid r
  unfold executeCreates
  dsimp only
  rw [foldl_adds _ (fun g r => r ∈ Gtp5g.rules g) (fun p : PDRPlan => (.pdr, p.oid))
      fun g p => hO.mem_call_create g .pdr p.oid,
    foldl_adds _ (fun g r => r ∈ Gtp5g.rules g) (fun p : BARPlan => (.bar, p.oid))
      fun g p => hO.mem_call_create g .bar p.oid,
    foldl_adds _ (fun g r => r ∈ Gtp5g.rules g) (fun p : URRPlan => (.urr, p.oid)) hurr,
    foldl_adds _ (fun g r => r ∈ Gtp5g.rules g) (fun p : QERPlan => (.qer, p.oid))
      fun g p => hO.mem_call_create g .qer p.oid,
    foldl_adds _ (fun g r => r ∈ Gtp5g.rules g) (fun p : FARPlan => (.far, p.oid))
      fun g p => hO.mem_call_create g .far p.oid]
  unfold ModificationPlan.created
  simp only [List.map_append, List.mem_append, or_assoc, map_ruleOf hp.createFAR,
    map_ruleOf hp.createQER, map_ruleOf hp.createURR, map_ruleOf hp.createBAR,
    map_ruleOf hp.createPDR]

theorem mem_rules_executeRemoves (hp : plan.OnSess lSeid) (g : Gtp5g) (r : RuleKind × OID) :
    r ∈ (executeRemoves O plan g).1.rules ↔
      r ∈ g.rules ∧ r ∉ plan.removed.map (ruleOf lSeid) := by
  unfold executeRemoves
  dsimp only
  rw [foldl_drops _ (fun g r => r ∈ Gtp5g.rules g) (fun p : FARPlan => (.far, p.oid))
      fun g p => hO.mem_call_remove g .far p.oid,
    foldl_drops _ (fun g r => r ∈ Gtp5g.rules g) (fun p : QERPlan => (.qer, p.oid))
      fun g p => hO.mem_call_remove g .qer p.oid,
    foldl_drops (removeURR O plan.seid) (fun acc r => r ∈ acc.1.rules)
      (fun p : URRPlan => (.urr, p.oid)) fun acc p => hO.mem_call_remove _ .urr p.oid,
    foldl_drops _ (fun g r => r ∈ Gtp5g.rules g) (fun p : BARPlan => (.bar, p.oid))
      fun g p => hO.mem_call_remove g .bar p.oid,
    foldl_drops _ (fun g r => r ∈ Gtp5g.rules g) (fun p : PDRPlan => (.pdr, p.oid))
      fun g p => hO.mem_call_remove g .pdr p.oid]
  unfold ModificationPlan.removed
  simp only [List.map_append, List.mem_append, not_or, and_assoc, map_ruleOf hp.removeFAR,
    map_ruleOf hp.removeQER, map_ruleOf hp.removeURR, map_ruleOf hp.removeBAR,
    map_ruleOf hp.removePDR]

/-- A plan adds the rules that it creates and then drops those that it removes. -/
theorem mem_rules_executeModificationPlan (hp : plan.OnSess lSeid) (g : Gtp5g) (q : Queues)
    (k : RuleKind) (oid : OID) :
    (k, oid) ∈ (executeModificationPlan O g q plan).1.rules ↔
      ((k, oid) ∈ g.rules ∨ oid.1 = lSeid ∧ (k, oid.2) ∈ plan.created) ∧
        ¬ (oid.1 = lSeid ∧ (k, oid.2) ∈ plan.removed) := by
  unfold executeModificationPlan
  dsimp only
  rw [(onlyReads_executeUpdates O plan _ q _).rules, mem_rules_executeRemoves hO hp,
    mem_rules_executeCreates hO hp, ruleOf_mem_map, ruleOf_mem_map]

/-- An establishment ends as its create loops do. -/
theorem executeEstablishmentPlan_ok (plan : ModificationPlan) (g : Gtp5g) :
    executeEstablishmentPlan O g plan = .ok (executeCreates O plan g) := by
  have hok : ∀ (kind : RuleKind) (oid : OID) (g : Gtp5g),
      createOrFail O kind oid g = .ok (g.call O (.create kind oid)) := by
    intro kind oid g
    have hans : (g.nextAnswer O).err = false := hO g.calls.length
    unfold createOrFail
    rw [hans]
    rfl
  unfold executeEstablishmentPlan executeCreates
  refine bind_eq_ok.mpr ⟨_, foldlM_eq_ok (fun g p => hok .far p.oid g) plan.createFARs g, ?_⟩
  refine bind_eq_ok.mpr ⟨_, foldlM_eq_ok (fun g p => hok .qer p.oid g) plan.createQERs _, ?_⟩
  refine bind_eq_ok.mpr ⟨_, foldlM_eq_ok (fun g p => hok .urr p.oid (g.addTimer O plan.seid p))
    plan.createURRs _, ?_⟩
  refine bind_eq_ok.mpr ⟨_, foldlM_eq_ok (fun g p => hok .bar p.oid g) plan.createBARs _, ?_⟩
  exact foldlM_eq_ok (fun g p => hok .pdr p.oid g) plan.createPDRs _

end

end Free5gc.Upf
