/-
  The control view and the data-plane view of the rules.

  The driver executes a plan in the order create, remove, update; the session applies it in
  the order create, update, remove, and only marks a URR removed until the response has been
  built. `Sess.kept` are the rule ids of a session without the URRs that are marked. On both
  sides a plan adds the rules that it creates and then drops those that it removes, so the
  two views agree after every request of a run in which no driver call fails
  (`control_view_eq_data_plane_view`).
-/
import Free5gc.Upf.Pfcp.Effects
import Free5gc.Upf.Pfcp.Establish
import Free5gc.Upf.Pfcp.NodeIds
import Free5gc.Upf.Pfcp.Validated

namespace Free5gc.Upf

open Free5gc.Lib

namespace Sess

/-! ## The rules of a session -/

/-- The URRs that are not marked removed. -/
def keptURRs (s : Sess) : Finset UInt32 :=
  s.urrIDs.keys.filter fun u => (s.urrIDs.lookup u).any fun info => !info.removed

/-- The ids of the rules of one kind, without URRs that are marked removed. -/
def kept (s : Sess) : RuleKind → Finset Nat
  | .urr => s.keptURRs.image UInt32.toNat
  | kind => s.ids kind

/-- The session has this rule, not marked removed. -/
def Keeps (s : Sess) (r : RuleKind × Nat) : Prop := r.2 ∈ s.kept r.1

/-- No URR is marked removed. -/
def Swept (s : Sess) : Prop := ∀ u info, s.urrIDs.lookup u = some info → info.removed = false

variable {s s' : Sess}

theorem mem_keptURRs (s : Sess) (u : UInt32) :
    u ∈ s.keptURRs ↔ ∃ info, s.urrIDs.lookup u = some info ∧ info.removed = false := by
  unfold keptURRs
  rw [Finset.mem_filter, Finmap.mem_keys, ← Finmap.lookup_isSome]
  cases s.urrIDs.lookup u with
  | none => simp
  | some info => simp

theorem Swept.kept_eq_ids (h : s.Swept) (kind : RuleKind) : s.kept kind = s.ids kind := by
  have hurr : s.keptURRs = s.urrIDs.keys := by
    ext u
    rw [mem_keptURRs, Finmap.mem_keys, ← Finmap.lookup_isSome, Option.isSome_iff_exists]
    constructor
    · rintro ⟨info, hinfo, _⟩
      exact ⟨info, hinfo⟩
    · rintro ⟨info, hinfo⟩
      exact ⟨info, hinfo, h u info hinfo⟩
  cases kind with
  | urr =>
    show s.keptURRs.image UInt32.toNat = s.urrIDs.keys.image UInt32.toNat
    rw [hurr]
  | _ => rfl

/-- An operation that inserts into the ids of one kind adds one rule. -/
theorem keeps_insert {kind : RuleKind} {n : Nat}
    (h : ∀ k, s'.kept k = if k = kind then insert n (s.kept k) else s.kept k) (r : RuleKind × Nat) :
    s'.Keeps r ↔ s.Keeps r ∨ r = (kind, n) := by
  unfold Keeps
  rw [h, Prod.ext_iff]
  split_ifs with e
  · simp [e, or_comm]
  · simp [e]

/-- An operation that erases from the ids of one kind drops one rule. -/
theorem keeps_erase {kind : RuleKind} {n : Nat}
    (h : ∀ k, s'.kept k = if k = kind then (s.kept k).erase n else s.kept k) (r : RuleKind × Nat) :
    s'.Keeps r ↔ s.Keeps r ∧ r ≠ (kind, n) := by
  unfold Keeps
  rw [h, Ne, Prod.ext_iff]
  split_ifs with e
  · simp [e, and_comm]
  · simp [e]

/-! ### Operations on sets of ids -/

theorem keeps_applyCreateFAR (s : Sess) (p : FARPlan) :
    ∀ r, (s.applyCreateFAR p).Keeps r ↔ s.Keeps r ∨ r = (.far, p.farid.toNat) := by
  refine keeps_insert fun k => ?_
  cases k with
  | far => exact Finset.image_insert UInt32.toNat p.farid s.farIDs
  | _ => rfl

theorem keeps_applyCreateQER (s : Sess) (p : QERPlan) :
    ∀ r, (s.applyCreateQER p).Keeps r ↔ s.Keeps r ∨ r = (.qer, p.qerid.toNat) := by
  refine keeps_insert fun k => ?_
  cases k with
  | qer => exact Finset.image_insert UInt32.toNat p.qerid s.qerIDs
  | _ => rfl

theorem keeps_applyCreateBAR (s : Sess) (p : BARPlan) :
    ∀ r, (s.applyCreateBAR p).Keeps r ↔ s.Keeps r ∨ r = (.bar, p.barid.toNat) := by
  refine keeps_insert fun k => ?_
  cases k with
  | bar => exact Finset.image_insert UInt8.toNat p.barid s.barIDs
  | _ => rfl

theorem keeps_applyRemoveFAR (s : Sess) (p : FARPlan) :
    ∀ r, (s.applyRemoveFAR p).Keeps r ↔ s.Keeps r ∧ r ≠ (.far, p.farid.toNat) := by
  refine keeps_erase fun k => ?_
  cases k with
  | far => exact Finset.image_erase toNat32_injective s.farIDs p.farid
  | _ => rfl

theorem keeps_applyRemoveQER (s : Sess) (p : QERPlan) :
    ∀ r, (s.applyRemoveQER p).Keeps r ↔ s.Keeps r ∧ r ≠ (.qer, p.qerid.toNat) := by
  refine keeps_erase fun k => ?_
  cases k with
  | qer => exact Finset.image_erase toNat32_injective s.qerIDs p.qerid
  | _ => rfl

theorem keeps_applyRemoveBAR (s : Sess) (p : BARPlan) :
    ∀ r, (s.applyRemoveBAR p).Keeps r ↔ s.Keeps r ∧ r ≠ (.bar, p.barid.toNat) := by
  refine keeps_erase fun k => ?_
  cases k with
  | bar => exact Finset.image_erase toNat8_injective s.barIDs p.barid
  | _ => rfl

/-! ### Operations on URRs -/

/-- Sessions with the same ids keep the same rules. -/
theorem keeps_congr (ho : ∀ k, k ≠ .urr → s'.kept k = s.kept k)
    (hu : ∀ u, u ∈ s'.keptURRs ↔ u ∈ s.keptURRs) (r : RuleKind × Nat) : s'.Keeps r ↔ s.Keeps r := by
  obtain ⟨k, id⟩ := r
  unfold Keeps
  by_cases e : k = .urr
  · subst e
    show id ∈ s'.keptURRs.image UInt32.toNat ↔ id ∈ s.keptURRs.image UInt32.toNat
    rw [Finset.ext hu]
  · rw [ho k e]

/-- A URR is kept by its mark alone. -/
theorem mem_keptURRs_congr {u : UInt32}
    (h : (s'.urrIDs.lookup u).map (·.removed) = (s.urrIDs.lookup u).map (·.removed)) :
    u ∈ s'.keptURRs ↔ u ∈ s.keptURRs := by
  have key : ∀ t : Sess, u ∈ t.keptURRs ↔ (t.urrIDs.lookup u).map (·.removed) = some false := by
    intro t
    rw [mem_keptURRs, Option.map_eq_some_iff]
  rw [key, key, h]

theorem SameButURRs.kept (h : s.SameButURRs s') {k : RuleKind} (hk : k ≠ .urr) :
    s'.kept k = s.kept k := by
  have e := congrArg (fun t => Sess.kept t k) h
  cases k with
  | urr => exact absurd rfl hk
  | _ => exact e

theorem keeps_applyCreateURR (s : Sess) (p : URRPlan) :
    ∀ r, (s.applyCreateURR p).Keeps r ↔ s.Keeps r ∨ r = (.urr, p.urrid.toNat) := by
  have hurr : (s.applyCreateURR p).keptURRs = insert p.urrid s.keptURRs := by
    ext u
    rw [Finset.mem_insert, mem_keptURRs, mem_keptURRs]
    show (∃ info, (s.urrIDs.insert p.urrid (newURRInfo p)).lookup u = some info ∧ _) ↔ _
    rw [GoMap.lookup_insert_eq]
    split_ifs with e
    · simp [e, newURRInfo]
    · simp [e]
  refine keeps_insert fun k => ?_
  cases k with
  | urr => exact (congrArg (Finset.image UInt32.toNat) hurr).trans (Finset.image_insert _ _ _)
  | _ => rfl

theorem keeps_applyRemoveURR (s : Sess) (p : URRPlan) :
    ∀ r, (s.applyRemoveURR p).Keeps r ↔ s.Keeps r ∧ r ≠ (.urr, p.urrid.toNat) := by
  have hurr : (s.applyRemoveURR p).keptURRs = s.keptURRs.erase p.urrid := by
    ext u
    rw [Finset.mem_erase, mem_keptURRs, mem_keptURRs]
    show (∃ info, (s.urrIDs.modify p.urrid _).lookup u = some info ∧ _) ↔ _
    rw [GoMap.lookup_modify]
    split_ifs with e
    · simp [e]
    · simp [e]
  refine keeps_erase fun k => ?_
  cases k with
  | urr =>
    exact (congrArg (Finset.image UInt32.toNat) hurr).trans
      (Finset.image_erase toNat32_injective _ _)
  | _ => rfl

/-- Changing an entry without touching its mark keeps the rules. -/
theorem keeps_modifyURR (s : Sess) (u : UInt32) (f : URRInfo → URRInfo)
    (hf : ∀ info, (f info).removed = info.removed) (r : RuleKind × Nat) :
    ({ s with urrIDs := s.urrIDs.modify u f } : Sess).Keeps r ↔ s.Keeps r := by
  have hsame : s.SameButURRs { s with urrIDs := s.urrIDs.modify u f } := rfl
  refine keeps_congr (fun k hk => hsame.kept hk) (fun v => mem_keptURRs_congr ?_) r
  dsimp only
  rw [GoMap.lookup_modify]
  split_ifs with e
  · cases s.urrIDs.lookup v with
    | none => rfl
    | some info => exact congrArg some (hf info)
  · rfl

theorem keeps_applyUpdateURR (s : Sess) (p : URRPlan) (r : RuleKind × Nat) :
    (s.applyUpdateURR p).Keeps r ↔ s.Keeps r :=
  s.keeps_modifyURR p.urrid _ (fun _ => by rfl) r

theorem keeps_putReport
    (render : USAReport → MeasureMethod → MeasureInformation → List UsageIE)
    (acc : Sess × List UsageReport) (x : USAReport) (r : RuleKind × Nat) :
    (putReport render acc x).1.Keeps r ↔ acc.1.Keeps r := by
  refine keeps_congr (fun k hk => (sameButURRs_putReport render acc x).kept hk)
    (fun v => mem_keptURRs_congr ?_) r
  rw [lookup_putReport]
  split_ifs
  · rw [Option.map_map]
    rfl
  · rfl

/-- Sweeping the marked URRs keeps the others, and leaves none marked. -/
theorem keeps_cleanupRemovedURRs (O : Oracle) (g : Gtp5g) (s : Sess) :
    (s.cleanupRemovedURRs O g).2.Swept ∧
      ∀ r, (s.cleanupRemovedURRs O g).2.Keeps r ↔ s.Keeps r := by
  have hlook := lookup_cleanupRemovedURRs O g s
  refine ⟨fun u info hinfo => ?_, fun r => ?_⟩
  · rw [hlook, Option.filter_eq_some_iff] at hinfo
    simpa using hinfo.2
  · refine keeps_congr (fun k hk => (sameButURRs_cleanupRemovedURRs O g s).kept hk)
      (fun u => ?_) r
    rw [mem_keptURRs, mem_keptURRs]
    refine exists_congr fun info => ?_
    rw [hlook, Option.filter_eq_some_iff]
    constructor
    · rintro ⟨⟨h, _⟩, hrem⟩
      exact ⟨h, hrem⟩
    · rintro ⟨h, hrem⟩
      exact ⟨⟨h, by rw [hrem]; rfl⟩, hrem⟩

/-! ### Operations on PDRs -/

theorem keeps_applyCreatePDR (s : Sess) (p : PDRPlan) :
    ∀ r, (s.applyCreatePDR p).Keeps r ↔ s.Keeps r ∨ r = (.pdr, p.pdrid.toNat) := by
  have hassoc : ∀ r, (p.urrids.foldl associateURR s).Keeps r ↔ s.Keeps r := by
    intro r
    refine foldl_inv (fun t : Sess => t.Keeps r ↔ s.Keeps r) ?_ p.urrids Iff.rfl
    intro t u h
    exact (t.keeps_modifyURR u _ (fun _ => by rfl) r).trans h
  intro r
  rw [← hassoc r]
  refine keeps_insert (fun k => ?_) r
  cases k with
  | pdr =>
    show ((p.urrids.foldl associateURR s).pdrIDs.insert p.pdrid _).keys.image UInt16.toNat = _
    rw [GoMap.keys_insert, Finset.image_insert]
    rfl
  | _ => rfl

theorem KeepsURRs.keeps (h : s.KeepsURRs s') (hp : s'.pdrIDs.keys = s.pdrIDs.keys)
    (r : RuleKind × Nat) : s'.Keeps r ↔ s.Keeps r := by
  refine keeps_congr (fun k hk => ?_) (fun u => mem_keptURRs_congr ?_) r
  · cases k with
    | urr => exact absurd rfl hk
    | far => exact congrArg (Finset.image UInt32.toNat) h.farIDs
    | qer => exact congrArg (Finset.image UInt32.toNat) h.qerIDs
    | bar => exact congrArg (Finset.image UInt8.toNat) h.barIDs
    | pdr => exact congrArg (Finset.image UInt16.toNat) hp
  · have hu := congrArg (Option.map (·.removed)) (h.urr u)
    rw [Option.map_map, Option.map_map] at hu
    exact hu

theorem keeps_applyUpdatePDR (O : Oracle) (p : PDRPlan) (g : Gtp5g) (s : Sess)
    (r : RuleKind × Nat) : (applyUpdatePDR O p g s).2.1.Keeps r ↔ s.Keeps r := by
  refine (keepsURRs_applyUpdatePDR O p g s).1.keeps ?_ r
  unfold applyUpdatePDR
  split
  · rfl
  · rename_i info hinfo
    dsimp only
    rw [GoMap.keys_insert, pdrIDs_diassociateURRs]
    apply Finset.insert_eq_of_mem
    rw [Finmap.mem_keys, ← Finmap.lookup_isSome, hinfo]
    rfl

theorem keeps_applyRemovePDR (O : Oracle) (p : PDRPlan) (g : Gtp5g) (s : Sess) :
    ∀ r, (applyRemovePDR O p g s).2.1.Keeps r ↔ s.Keeps r ∧ r ≠ (.pdr, p.pdrid.toNat) := by
  unfold applyRemovePDR
  split
  · rename_i hnone
    refine keeps_erase fun k => (ite_eq_right_iff.mpr fun e => ?_).symm
    refine Finset.erase_eq_of_notMem fun hmem => ?_
    rw [e] at hmem
    obtain ⟨id, hid, e⟩ := Finset.mem_image.mp hmem
    rw [toNat16_injective e, Finmap.mem_keys, ← Finmap.lookup_isSome, hnone] at hid
    cases hid
  · rename_i info hinfo
    dsimp only
    have hkeep := keepsURRs_diassociateURRs O (O.urrs.keys g.ranges info.relatedURRIDs) g.range s
    have hpdrs := pdrIDs_diassociateURRs O (O.urrs.keys g.ranges info.relatedURRIDs) g.range s
    generalize diassociateURRs O _ g.range s = x at hkeep hpdrs ⊢
    intro r
    rw [← hkeep.1.keeps (by rw [hpdrs]) r]
    refine keeps_erase (fun k => ?_) r
    cases k with
    | pdr =>
      show (x.2.1.pdrIDs.erase p.pdrid).keys.image UInt16.toNat = _
      rw [GoMap.keys_erase, Finset.image_erase toNat16_injective]
      rfl
    | _ => rfl

/-! ### Plans -/

theorem keeps_applyCreates (s : Sess) (plan : ModificationPlan) (r : RuleKind × Nat) :
    (s.applyCreates plan).Keeps r ↔ s.Keeps r ∨ r ∈ plan.created := by
  unfold applyCreates ModificationPlan.created
  dsimp only
  rw [foldl_adds _ Keeps _ keeps_applyCreatePDR, foldl_adds _ Keeps _ keeps_applyCreateBAR,
    foldl_adds _ Keeps _ keeps_applyCreateURR, foldl_adds _ Keeps _ keeps_applyCreateQER,
    foldl_adds _ Keeps _ keeps_applyCreateFAR]
  simp only [List.mem_append, or_assoc]

/-- The remove loops of the apply phase, those over PDRs included. -/
theorem keeps_removes (O : Oracle) (plan : ModificationPlan) (g : Gtp5g) (s : Sess)
    (usars : List USAReport) (r : RuleKind × Nat) :
    ((applyPDRs (applyRemovePDR O) plan.removePDRs g s usars).2.1.applyRemoves plan).Keeps r ↔
      s.Keeps r ∧ r ∉ plan.removed := by
  have hpdrs : (applyPDRs (applyRemovePDR O) plan.removePDRs g s usars).2.1.Keeps r ↔
      s.Keeps r ∧ r ∉ plan.removePDRs.map fun p => (.pdr, p.pdrid.toNat) := by
    unfold applyPDRs
    refine foldl_drops _ (fun acc : Gtp5g × Sess × List USAReport => acc.2.1.Keeps) _ ?_
      plan.removePDRs (g, s, usars) r
    intro acc p
    exact keeps_applyRemovePDR O p acc.1 acc.2.1
  unfold applyRemoves ModificationPlan.removed
  dsimp only
  rw [foldl_drops _ Keeps _ keeps_applyRemoveFAR, foldl_drops _ Keeps _ keeps_applyRemoveQER,
    foldl_drops _ Keeps _ keeps_applyRemoveURR, foldl_drops _ Keeps _ keeps_applyRemoveBAR,
    hpdrs]
  simp only [List.mem_append, not_or, and_assoc]

theorem keeps_executeAndApply (O : Oracle) (plan : ModificationPlan) (g : Gtp5g) (s : Sess)
    (r : RuleKind × Nat) :
    (s.executeAndApply O plan g).2.1.Keeps r ↔
      (s.Keeps r ∨ r ∈ plan.created) ∧ r ∉ plan.removed := by
  rw [executeAndApply_eq]
  dsimp only
  rw [keeps_removes]
  refine and_congr_left fun _ => ?_
  have hupd : ∀ g (t : Sess) usars,
      (applyPDRs (applyUpdatePDR O) plan.updatePDRs g t usars).2.1.Keeps r ↔ t.Keeps r := by
    intro g t usars
    refine foldl_inv (fun acc : Gtp5g × Sess × List USAReport => acc.2.1.Keeps r ↔ t.Keeps r) ?_
      plan.updatePDRs Iff.rfl
    intro acc p h
    exact (keeps_applyUpdatePDR O p acc.1 acc.2.1 r).trans h
  rw [hupd]
  unfold applyPrepared
  have hprep : ∀ t : Sess, (plan.updateURRs.foldl applyUpdateURR t).Keeps r ↔ t.Keeps r := by
    intro t
    refine foldl_inv (fun t' : Sess => t'.Keeps r ↔ t.Keeps r) ?_ plan.updateURRs Iff.rfl
    intro t' p h
    exact (keeps_applyUpdateURR t' p r).trans h
  rw [hprep, keeps_applyCreates]
  exact Iff.rfl

/-- A modification adds the rules that its plan creates and then drops those that it
    removes, and leaves no URR marked. -/
theorem keeps_runPlan (O : Oracle) (plan : ModificationPlan) (g : Gtp5g) (s : Sess) :
    (s.runPlan O plan g).2.1.Swept ∧
      ∀ r, (s.runPlan O plan g).2.1.Keeps r ↔
        (s.Keeps r ∨ r ∈ plan.created) ∧ r ∉ plan.removed := by
  rw [runPlan_eq]
  dsimp only
  obtain ⟨hswept, hkeep⟩ := keeps_cleanupRemovedURRs O (s.executeAndApply O plan g).1
    ((s.executeAndApply O plan g).2.2.foldl (putReport USAReport.iesWithinSessModRsp)
      ((s.executeAndApply O plan g).2.1, [])).1
  refine ⟨hswept, fun r => (hkeep r).trans ?_⟩
  rw [← keeps_executeAndApply O plan g s r]
  refine foldl_inv (fun acc : Sess × List UsageReport =>
    acc.1.Keeps r ↔ (s.executeAndApply O plan g).2.1.Keeps r) ?_ _ Iff.rfl
  intro acc x h
  exact (keeps_putReport _ acc x r).trans h

end Sess

/-! ## Close -/

/-- The plan of `Close` removes the rules of the session, and creates none. -/
theorem mem_removed_closePlan (O : Oracle) (t : Nat) (s : Sess) (kind : RuleKind) (n : Nat) :
    (kind, n) ∈ (s.closePlan O t).removed ↔ n ∈ s.ids kind := by
  unfold ModificationPlan.removed Sess.closePlan
  cases kind with
  | _ =>
    simp [Sess.ids, buildRemoveFARPlan, buildRemoveQERPlan, buildRemoveURRPlan,
      buildRemoveBARPlan, buildRemovePDRPlan]

theorem onSess_closePlan (O : Oracle) (t : Nat) (s : Sess) :
    (s.closePlan O t).OnSess s.localID := by
  have hmap : ∀ {α β : Type} {f : α → Option β} {l : List α} {P : β → Prop},
      (∀ a b, f a = some b → P b) → ∀ b ∈ l.filterMap f, P b := by
    intro α β f l P hf b hb
    obtain ⟨a, _, ha⟩ := List.mem_filterMap.mp hb
    exact hf a b ha
  constructor
  case removePDR => exact hmap fun _ _ h => oid_buildRemovePDRPlan h
  case removeBAR => exact hmap fun _ _ h => oid_buildRemoveBARPlan h
  case removeURR => exact hmap fun _ _ h => oid_buildRemoveURRPlan h
  case removeQER => exact hmap fun _ _ h => oid_buildRemoveQERPlan h
  case removeFAR => exact hmap fun _ _ h => oid_buildRemoveFARPlan h
  all_goals exact List.forall_mem_nil _

/-- `Close` takes the rules of the session out of the driver. -/
theorem mem_rules_close {O : Oracle} (hO : O.Succeeds) (g : Gtp5g) (s : Sess) (k : RuleKind)
    (oid : OID) :
    (k, oid) ∈ (s.close O g).1.rules ↔
      (k, oid) ∈ g.rules ∧ ¬ (oid.1 = s.localID ∧ oid.2 ∈ s.ids k) := by
  unfold Sess.close
  dsimp only
  rw [(Sess.keepsURRs_applyPDRs (Sess.keepsURRs_applyRemovePDR O) _ _ _ _).2.rules,
    mem_rules_executeModificationPlan hO (onSess_closePlan O g.ranges s), mem_removed_closePlan]
  have hnone : (s.closePlan O g.ranges).created = [] := rfl
  rw [hnone]
  simp [Gtp5g.range]

/-! ## The two views -/

namespace PfcpServer

/-- The kernel has a rule of session `k` exactly when `f k` is a session that keeps it, and
    no URR of a session is marked. `f` is the table of live sessions. -/
structure Mirrors (f : Nat → Option Sess) (g : Gtp5g) : Prop where
  localID : ∀ k sess, f k = some sess → sess.localID = k
  swept : ∀ k sess, f k = some sess → sess.Swept
  rules : ∀ k oid, (k, oid) ∈ g.rules ↔ ∃ sess, f oid.1 = some sess ∧ sess.Keeps (k, oid.2)

variable {f : Nat → Option Sess} {g g' : Gtp5g}

theorem Mirrors.withRules (h : Mirrors f g) (hg : g'.rules = g.rules) : Mirrors f g' where
  localID := h.localID
  swept := h.swept
  rules := by
    intro k oid
    rw [hg]
    exact h.rules k oid

/-- The views agree after session `k` was replaced when they agree on `k` and the rules of
    the other sessions are as they were. -/
theorem Mirrors.replace (h : Mirrors f g) {k : Nat} {o : Option Sess}
    (hid : ∀ sess, o = some sess → sess.localID = k ∧ sess.Swept)
    (hk : ∀ kind n, (kind, (k, n)) ∈ g'.rules ↔ ∃ sess, o = some sess ∧ sess.Keeps (kind, n))
    (ho : ∀ kind oid, oid.1 ≠ k → ((kind, oid) ∈ g'.rules ↔ (kind, oid) ∈ g.rules)) :
    Mirrors (fun j => if j = k then o else f j) g' where
  localID := by
    intro j sess hj
    split_ifs at hj with e
    · rw [e]
      exact (hid sess hj).1
    · exact h.localID j sess hj
  swept := by
    intro j sess hj
    split_ifs at hj with e
    · exact (hid sess hj).2
    · exact h.swept j sess hj
  rules := by
    intro kind oid
    by_cases e : oid.1 = k
    · rw [if_pos e, ← hk, ← e]
    · rw [if_neg e, ho kind oid e]
      exact h.rules kind oid

theorem swept_new (n k rSeid : Nat) : (Sess.new n k rSeid).Swept := by
  intro u info hinfo
  have hnone : (Sess.new n k rSeid).urrIDs.lookup u = none := Finmap.lookup_empty u
  rw [hnone] at hinfo
  cases hinfo

theorem swept_applyCreates {s : Sess} (h : s.Swept) (plan : ModificationPlan) :
    (s.applyCreates plan).Swept := by
  have hmod : ∀ (t : Sess) u f, (∀ info, (f info).removed = info.removed) → t.Swept →
      ({ t with urrIDs := t.urrIDs.modify u f } : Sess).Swept := by
    intro t u f hf ht v info hv
    dsimp only at hv
    rw [GoMap.lookup_modify] at hv
    split_ifs at hv
    · obtain ⟨info', hinfo', rfl⟩ := Option.map_eq_some_iff.mp hv
      rw [hf]
      exact ht v info' hinfo'
    · exact ht v info hv
  have hpdr : ∀ (t : Sess) p, t.Swept → (t.applyCreatePDR p).Swept := by
    intro t p ht
    have hassoc : (p.urrids.foldl Sess.associateURR t).Swept :=
      foldl_inv Sess.Swept (fun t u ht => hmod t u _ (fun _ => by rfl) ht) p.urrids ht
    exact hassoc
  have hurr : ∀ (t : Sess) p, t.Swept → (t.applyCreateURR p).Swept := by
    intro t p ht
    exact GoMap.forall_lookup_insert rfl ht
  unfold Sess.applyCreates
  dsimp only
  refine foldl_inv Sess.Swept hpdr _ ?_
  refine @foldl_inv _ _ Sess.applyCreateBAR _ Sess.Swept (fun t _ ht => ht) _ ?_
  refine foldl_inv Sess.Swept hurr _ ?_
  refine @foldl_inv _ _ Sess.applyCreateQER _ Sess.Swept (fun t _ ht => ht) _ ?_
  exact @foldl_inv _ _ Sess.applyCreateFAR _ Sess.Swept (fun t _ ht => ht) _ h

theorem not_keeps_new (n k rSeid : Nat) (r : RuleKind × Nat) : ¬ (Sess.new n k rSeid).Keeps r := by
  obtain ⟨kind, id⟩ := r
  intro h
  unfold Sess.Keeps at h
  rw [(swept_new n k rSeid).kept_eq_ids] at h
  cases kind with
  | _ => simp [Sess.ids, Sess.new] at h

section

variable {W : World} (hW : W.Succeeds) {f : Nat → Option Sess} {g : Gtp5g} (h : Mirrors f g)
include hW h

theorem Mirrors.close {k : Nat} {sess : Sess} (hs : f k = some sess) :
    Mirrors (fun j => if j = k then none else f j) (sess.close W.toOracle g).1 := by
  have hid := h.localID k sess hs
  refine h.replace ?_ ?_ ?_
  · intro sess' hs'
    cases hs'
  · intro kind n
    rw [mem_rules_close hW, hid, h.rules]
    constructor
    · rintro ⟨⟨sess', hs', hkeep⟩, hno⟩
      rw [hs] at hs'
      cases hs'
      unfold Sess.Keeps at hkeep
      rw [(h.swept k sess hs).kept_eq_ids] at hkeep
      exact absurd ⟨rfl, hkeep⟩ hno
    · rintro ⟨sess', hs', _⟩
      cases hs'
  · intro kind oid hne
    rw [mem_rules_close hW, hid]
    exact ⟨fun hr => hr.1, fun hr => ⟨hr, fun x => hne x.1⟩⟩

theorem Mirrors.runPlan {k : Nat} {sess : Sess} {plan : ModificationPlan} (hs : f k = some sess)
    (hp : plan.OnSess sess.localID) :
    Mirrors (fun j => if j = k then some (sess.runPlan W.toOracle plan g).2.1 else f j)
      (sess.runPlan W.toOracle plan g).1 := by
  have hid := h.localID k sess hs
  have hident := Sess.ident_runPlan W.toOracle plan g sess
  have hloc : (sess.runPlan W.toOracle plan g).2.1.localID = sess.localID :=
    congrArg (fun i => i.2.1) hident
  obtain ⟨hswept, hkeep⟩ := Sess.keeps_runPlan W.toOracle plan g sess
  have hrules : ∀ kind oid, (kind, oid) ∈ (sess.runPlan W.toOracle plan g).1.rules ↔
      ((kind, oid) ∈ g.rules ∨ oid.1 = k ∧ (kind, oid.2) ∈ plan.created) ∧
        ¬ (oid.1 = k ∧ (kind, oid.2) ∈ plan.removed) := by
    intro kind oid
    rw [← hid, ← mem_rules_executeModificationPlan hW hp g sess.q, Sess.runPlan_eq,
      Sess.executeAndApply_eq]
    dsimp only
    show (kind, oid) ∈ (Sess.applyPDRs _ _ _ _ _).1.rules ↔ _
    rw [(Sess.keepsURRs_applyPDRs (Sess.keepsURRs_applyRemovePDR _) _ _ _ _).2.rules,
      (Sess.keepsURRs_applyPDRs (Sess.keepsURRs_applyUpdatePDR _) _ _ _ _).2.rules]
  refine h.replace ?_ ?_ ?_
  · rintro sess' hs'
    cases hs'
    exact ⟨hloc.trans hid, hswept⟩
  · intro kind n
    rw [hrules, h.rules]
    simp only [hs, Option.some.injEq, exists_eq_left', true_and]
    exact (hkeep (kind, n)).symm
  · intro kind oid hne
    rw [hrules]
    simp [hne]

end

theorem Mirrors.establish {W : World} (hW : W.Succeeds) (h : Mirrors f g) {n k rSeid : Nat}
    {req : SessionEstablishmentRequest} {plan : ModificationPlan} (hfree : f k = none)
    (hplan : establishmentPlan (Sess.new n k rSeid) req = .ok plan)
    (hexec : executeEstablishmentPlan W.toOracle g plan = .ok g') :
    Mirrors (fun j => if j = k then some ((Sess.new n k rSeid).applyCreates plan) else f j) g' := by
  have hp := onSess_establishmentPlan hplan
  rw [executeEstablishmentPlan_ok hW] at hexec
  cases hexec
  have hrules : ∀ kind oid, (kind, oid) ∈ (executeCreates W.toOracle plan g).rules ↔
      (kind, oid) ∈ g.rules ∨ oid.1 = k ∧ (kind, oid.2) ∈ plan.created := by
    intro kind oid
    rw [mem_rules_executeCreates hW hp, ruleOf_mem_map]
    exact Iff.rfl
  refine h.replace ?_ ?_ ?_
  · rintro sess hs
    cases hs
    refine ⟨congrArg (fun i => i.2.1) (Sess.ident_applyCreates _ plan), ?_⟩
    exact swept_applyCreates (swept_new n k rSeid) plan
  · intro kind id
    rw [hrules, h.rules]
    simp only [hfree, Option.some.injEq, exists_eq_left', true_and, Sess.keeps_applyCreates]
    simp [not_keeps_new]
  · intro kind oid hne
    rw [hrules]
    simp [hne]

/-- One request keeps the views in agreement. -/
theorem Mirrors.handle {W : World} (hW : W.Succeeds) {s : PfcpServer} (hs : Sound s)
    (h : Mirrors s.lnode.sessOf s.driver) (r : Request) :
    Mirrors (s.handle W r).lnode.sessOf (s.handle W r).driver := by
  have hsame : ∀ s', SameSessions s s' → Mirrors s'.lnode.sessOf s'.driver := by
    intro s' hs'
    rw [hs'.driver, funext hs'.sessOf]
    exact h
  obtain ⟨msg, addr⟩ := r
  unfold PfcpServer.handle reqDispacher
  dsimp only
  split
  · rename_i seq
    exact hsame _ (sameSessions_sendRspTo W s (.heartbeatResponse seq W.recoveryTime) addr)
  · rename_i req
    refine hs.table.setup_inv W Mirrors (fun f g hm => hm.withRules rfl) ?_ h req addr
    intro f g k sess hk hm
    exact hm.close hW hk
  · rename_i req
    obtain ⟨hsm, _⟩ | ⟨_, n, k, rSeid, _, _, _, _, hfree, ⟨g, hg, hrep, _⟩ |
        ⟨plan, g, hplan, hexec, hrep, _⟩⟩ :=
      hs.table.establishment_effect W
        (fun id n hid => idOf_lt (hs.registry id n hid)) req addr
    · exact hsame _ hsm
    · -- no execution fails, so the driver is as it was when the session is closed
      have hg' : g = s.driver := by
        unfold failedDriver at hg
        split at hg
        · exact (Option.some.inj hg).symm
        · rw [executeEstablishmentPlan_ok hW] at hg
          cases hg
      rw [hrep.driver, funext hrep.sessOf, hg']
      have hm : Mirrors (fun j => if j = k then none else s.lnode.sessOf j) s.driver := by
        refine h.replace (fun sess hx => by cases hx) ?_ fun _ _ _ => Iff.rfl
        intro kind id
        rw [h.rules]
        simp [hfree]
      exact hm.withRules (onlyReads_close_new W.toOracle s.driver n k rSeid).rules
    · rw [hrep.driver, funext hrep.sessOf]
      exact h.establish hW hfree hplan hexec
  · rename_i req
    obtain ⟨hsm, _⟩ | ⟨sess, plan, hk, hplan, hrep, _⟩ := hs.table.modification_effect W req addr
    · exact hsame _ hsm
    · rw [hrep.driver, funext hrep.sessOf]
      exact h.runPlan hW hk (checked_modificationPlan hplan).onSess
  · rename_i seq seid
    obtain ⟨hsm, _⟩ | ⟨sess, hk, hrep, _⟩ := hs.table.deletion_effect W seq seid addr
    · exact hsame _ hsm
    · rw [hrep.driver, funext hrep.sessOf]
      exact h.close hW hk
  · exact h

theorem mirrors_new : Mirrors PfcpServer.new.lnode.sessOf PfcpServer.new.driver where
  localID := by
    intro k sess hk
    rw [sessOf_new] at hk
    cases hk
  swept := by
    intro k sess hk
    rw [sessOf_new] at hk
    cases hk
  rules := by
    intro k oid
    rw [sessOf_new]
    simp [PfcpServer.new, Gtp5g.open]

/-- In every run of requests in which no driver call fails, after each request the ids that
    a live session has are exactly those of the rules that the driver holds for its SEID, and
    the driver holds no rule for an SEID without a live session. -/
theorem control_view_eq_data_plane_view (W : World) (hW : W.Succeeds) (rs : List Request) :
    let s := rs.foldl (PfcpServer.handle W) PfcpServer.new
    (∀ k sess, s.lnode.sessOf k = some sess →
      ∀ kind id, id ∈ sess.ids kind ↔ (kind, (k, id)) ∈ s.driver.rules) ∧
    ∀ k, s.lnode.sessOf k = none → ∀ kind id, (kind, (k, id)) ∉ s.driver.rules := by
  intro s
  have hinv : Sound s ∧ Mirrors s.lnode.sessOf s.driver :=
    foldl_inv (fun t : PfcpServer => Sound t ∧ Mirrors t.lnode.sessOf t.driver)
      (fun t r h => ⟨h.1.handle W r, h.2.handle hW h.1 r⟩) rs ⟨sound_new, mirrors_new⟩
  obtain ⟨_, hm⟩ := hinv
  refine ⟨?_, ?_⟩
  · intro k sess hs kind id
    rw [← (hm.swept k sess hs).kept_eq_ids, hm.rules]
    simp only [hs, Option.some.injEq, exists_eq_left']
    exact Iff.rfl
  · intro k hs kind id hr
    obtain ⟨sess, hs', _⟩ := (hm.rules kind (k, id)).mp hr
    rw [hs] at hs'
    cases hs'

/-- A session with FAR 1 and QER 1, then a modification that removes the FAR, creates QER 2
    and creates and removes URR 7. -/
def mixedRun : List Request :=
  [(setupRequest 1 "smf1", "10.0.0.1:8805"),
    (.sessionEstablishmentRequest farAndQer, "10.0.0.1:8805"),
    (.sessionModificationRequest { SessionModificationRequest.empty 3 1 with
      createQER := [some [.qerID (some 2)]]
      createURR := [⟨some [.urrID (some 7)], ⟨true, false, false⟩⟩]
      removeFAR := [some 1]
      removeURR := [some 7] }, "10.0.0.1:8805")]

theorem control_view_eq_data_plane_view_mixedRun :
    let W := World.isolated fun _ => Answer.done
    let s := mixedRun.foldl (PfcpServer.handle W) PfcpServer.new
    W.Succeeds ∧ (s.lnode.sessOf 1).isSome ∧
      (∀ sess, s.lnode.sessOf 1 = some sess → sess.ids .qer = {1, 2} ∧ sess.ids .urr = ∅ ∧
        ∀ kind id, id ∈ sess.ids kind ↔ (kind, (1, id)) ∈ s.driver.rules) ∧
      ∀ k, s.lnode.sessOf k = none → ∀ kind id, (kind, (k, id)) ∉ s.driver.rules := by
  intro W s
  have hW : W.Succeeds := fun _ => rfl
  obtain ⟨hlive, hdead⟩ := control_view_eq_data_plane_view W hW mixedRun
  have hids : (s.lnode.sessOf 1).map (fun sess => (sess.ids .qer, sess.ids .urr)) =
      some ({1, 2}, ∅) := by
    decide +kernel
  refine ⟨hW, ?_, fun sess hs => ?_, hdead⟩
  · decide +kernel
  · rw [hs] at hids
    have hids' := Option.some.inj hids
    exact ⟨congrArg Prod.fst hids', congrArg Prod.snd hids', hlive 1 sess hs⟩

end PfcpServer

end Free5gc.Upf
