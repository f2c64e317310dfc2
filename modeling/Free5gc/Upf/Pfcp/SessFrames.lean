/-
  What the operations on a session leave alone. `Sess.KeepsURRs` is what the apply phase of
  PDRs keeps: everything but the PDRs and the reference counts of the URRs.
-/
import Free5gc.Upf.Forwarder.Rules
import Free5gc.Upf.Pfcp.Session

namespace Free5gc.Upf

open Free5gc.Lib

/-! ## PDRs and reference counts -/

/-- An entry without its reference count. -/
def URRInfo.unref (info : URRInfo) : URRInfo := { info with refPdrNum := 0 }

namespace Sess

/-- Only the PDRs and the reference counts of the URRs differ. -/
structure KeepsURRs (s s' : Sess) : Prop where
  rest : { s' with urrIDs := s.urrIDs, pdrIDs := s.pdrIDs } = s
  urr : ∀ u, (s'.urrIDs.lookup u).map URRInfo.unref = (s.urrIDs.lookup u).map URRInfo.unref

variable {s s' : Sess}

variable (O : Oracle)

theorem KeepsURRs.refl (s : Sess) : s.KeepsURRs s := ⟨rfl, fun _ => rfl⟩

theorem KeepsURRs.trans {s'' : Sess} (h : s.KeepsURRs s') (h' : s'.KeepsURRs s'') :
    s.KeepsURRs s'' := by
  refine ⟨?_, fun u => (h'.urr u).trans (h.urr u)⟩
  have e := h'.rest
  have e' := h.rest
  rw [← e] at e'
  exact e'

section

variable {s s' : Sess} (h : s.KeepsURRs s')
include h

theorem KeepsURRs.farIDs : s'.farIDs = s.farIDs := by
  have e := congrArg Sess.farIDs h.rest
  exact e

theorem KeepsURRs.qerIDs : s'.qerIDs = s.qerIDs := by
  have e := congrArg Sess.qerIDs h.rest
  exact e

theorem KeepsURRs.barIDs : s'.barIDs = s.barIDs := by
  have e := congrArg Sess.barIDs h.rest
  exact e

end

theorem keepsURRs_diassociateURR (u : UInt32) (g : Gtp5g) (s : Sess) :
    s.KeepsURRs (diassociateURR O u g s).2.1 ∧ g.OnlyReads (diassociateURR O u g s).1 := by
  unfold diassociateURR
  split
  · exact ⟨KeepsURRs.refl s, Gtp5g.OnlyReads.refl g⟩
  · rename_i info hinfo
    have hkeep : s.KeepsURRs { s with
        urrIDs := s.urrIDs.insert u ({ info with refPdrNum := info.refPdrNum - 1 }) } := by
      refine ⟨rfl, fun v => ?_⟩
      dsimp only
      rw [GoMap.lookup_insert_eq]
      split_ifs with e
      · rw [e, hinfo]
        rfl
      · rfl
    dsimp only
    split_ifs
    · exact ⟨hkeep, g.onlyReads_queryURR O s.localID u⟩
    · exact ⟨hkeep, Gtp5g.OnlyReads.refl g⟩
    · exact ⟨KeepsURRs.refl s, Gtp5g.OnlyReads.refl g⟩

theorem keepsURRs_diassociateURRs (us : List UInt32) (g : Gtp5g) (s : Sess) :
    s.KeepsURRs (diassociateURRs O us g s).2.1 ∧ g.OnlyReads (diassociateURRs O us g s).1 := by
  refine foldl_inv (fun acc : Gtp5g × Sess × List USAReport =>
    s.KeepsURRs acc.2.1 ∧ g.OnlyReads acc.1) ?_ us ⟨KeepsURRs.refl s, Gtp5g.OnlyReads.refl g⟩
  intro acc u h
  have hu := keepsURRs_diassociateURR O u acc.1 acc.2.1
  exact ⟨h.1.trans hu.1, h.2.trans hu.2⟩

theorem keepsURRs_applyUpdatePDR (p : PDRPlan) (g : Gtp5g) (s : Sess) :
    s.KeepsURRs (applyUpdatePDR O p g s).2.1 ∧ g.OnlyReads (applyUpdatePDR O p g s).1 := by
  unfold applyUpdatePDR
  split
  · exact ⟨KeepsURRs.refl s, Gtp5g.OnlyReads.refl g⟩
  · rename_i info hinfo
    have h := keepsURRs_diassociateURRs O ((O.urrs.keys g.ranges info.relatedURRIDs).filter
      (· ∉ p.urrids.toFinset)) g.range s
    exact ⟨h.1.trans ⟨rfl, fun _ => rfl⟩, g.onlyReads_range.trans h.2⟩

theorem keepsURRs_applyRemovePDR (p : PDRPlan) (g : Gtp5g) (s : Sess) :
    s.KeepsURRs (applyRemovePDR O p g s).2.1 ∧ g.OnlyReads (applyRemovePDR O p g s).1 := by
  unfold applyRemovePDR
  split
  · exact ⟨KeepsURRs.refl s, Gtp5g.OnlyReads.refl g⟩
  · rename_i info hinfo
    have h := keepsURRs_diassociateURRs O (O.urrs.keys g.ranges info.relatedURRIDs) g.range s
    exact ⟨h.1.trans ⟨rfl, fun _ => rfl⟩, g.onlyReads_range.trans h.2⟩

/-- A loop over PDR plans keeps what each of its turns keeps. -/
theorem keepsURRs_applyPDRs {apply : PDRPlan → Gtp5g → Sess → Gtp5g × Sess × List USAReport}
    (happly : ∀ p g (s : Sess), s.KeepsURRs (apply p g s).2.1 ∧ g.OnlyReads (apply p g s).1)
    (plans : List PDRPlan) (g : Gtp5g) (s : Sess) (usars : List USAReport) :
    s.KeepsURRs (applyPDRs apply plans g s usars).2.1 ∧
      g.OnlyReads (applyPDRs apply plans g s usars).1 := by
  refine foldl_inv (fun acc : Gtp5g × Sess × List USAReport =>
    s.KeepsURRs acc.2.1 ∧ g.OnlyReads acc.1) ?_ plans
    ⟨KeepsURRs.refl s, Gtp5g.OnlyReads.refl g⟩
  intro acc p h
  have hp := happly p acc.1 acc.2.1
  exact ⟨h.1.trans hp.1, h.2.trans hp.2⟩

theorem pdrIDs_diassociateURR (u : UInt32) (g : Gtp5g) (s : Sess) :
    (diassociateURR O u g s).2.1.pdrIDs = s.pdrIDs := by
  unfold diassociateURR
  split
  · rfl
  · dsimp only
    split_ifs
    · rfl
    · rfl
    · rfl

theorem pdrIDs_diassociateURRs (us : List UInt32) (g : Gtp5g) (s : Sess) :
    (diassociateURRs O us g s).2.1.pdrIDs = s.pdrIDs := by
  refine foldl_inv (fun acc : Gtp5g × Sess × List USAReport => acc.2.1.pdrIDs = s.pdrIDs)
    ?_ us rfl
  intro acc u h
  exact (pdrIDs_diassociateURR O u acc.1 acc.2.1).trans h

/-! ## Numbering and sweeping

Numbering a report and sweeping the URRs that are marked removed touch the URR entries
only. -/

/-- Only the URR entries differ. -/
def SameButURRs (s s' : Sess) : Prop := { s' with urrIDs := s.urrIDs } = s

theorem SameButURRs.trans {s'' : Sess} (h : s.SameButURRs s') (h' : s'.SameButURRs s'') :
    s.SameButURRs s'' := by
  unfold SameButURRs at h h' ⊢
  rw [← h'] at h
  exact h

theorem sameButURRs_urrSeq (s : Sess) (u : UInt32) : s.SameButURRs (s.urrSeq u).2 := by
  unfold urrSeq
  split
  · rfl
  · rfl

theorem sameButURRs_putReport
    (render : USAReport → MeasureMethod → MeasureInformation → List UsageIE)
    (acc : Sess × List UsageReport) (r : USAReport) :
    acc.1.SameButURRs (putReport render acc r).1 := by
  unfold putReport
  split
  · rfl
  · exact sameButURRs_urrSeq acc.1 r.urrid

theorem sameButURRs_putReports
    (render : USAReport → MeasureMethod → MeasureInformation → List UsageIE) (rs : List USAReport)
    (acc : Sess × List UsageReport) :
    acc.1.SameButURRs (rs.foldl (putReport render) acc).1 := by
  refine foldl_inv (fun acc' : Sess × List UsageReport => acc.1.SameButURRs acc'.1) ?_ rs rfl
  intro acc' r h
  exact h.trans (sameButURRs_putReport render acc' r)

/-- Putting a report advances the counter of its URR. -/
theorem lookup_putReport (render : USAReport → MeasureMethod → MeasureInformation → List UsageIE)
    (acc : Sess × List UsageReport) (r : USAReport) (v : UInt32) :
    (putReport render acc r).1.urrIDs.lookup v =
      if v = r.urrid then
        (acc.1.urrIDs.lookup v).map fun info => { info with seqn := info.seqn + 1 }
      else acc.1.urrIDs.lookup v := by
  unfold putReport
  split
  · rename_i hnone
    split_ifs with e
    · rw [e, hnone]
      rfl
    · rfl
  · rename_i info hinfo
    unfold urrSeq
    rw [hinfo]
    dsimp only
    rw [GoMap.lookup_insert_eq]
    split_ifs with e
    · rw [e, hinfo]
      rfl
    · rfl

theorem sameButURRs_sweepURR (s : Sess) (u : UInt32) : s.SameButURRs (s.sweepURR u) := by
  unfold sweepURR
  split
  · split_ifs
    · rfl
    · rfl
  · rfl

theorem sameButURRs_cleanupRemovedURRs (g : Gtp5g) (s : Sess) :
    s.SameButURRs (s.cleanupRemovedURRs O g).2 :=
  foldl_inv s.SameButURRs (fun t u h => h.trans (sameButURRs_sweepURR t u)) _ rfl

theorem lookup_sweepURR (s : Sess) (u v : UInt32) :
    (s.sweepURR u).urrIDs.lookup v =
      if v = u then (s.urrIDs.lookup v).filter fun info => !info.removed
      else s.urrIDs.lookup v := by
  unfold sweepURR
  split
  · rename_i info hinfo
    split_ifs with hrem e e
    · subst e
      dsimp only
      rw [GoMap.lookup_erase_eq, if_pos rfl, hinfo, Option.filter_some, hrem]
      rfl
    · dsimp only
      rw [GoMap.lookup_erase_eq, if_neg e]
    · subst e
      rw [hinfo, Option.filter_some, if_pos (by simpa using hrem)]
    · rfl
  · rename_i hnone
    split_ifs with e
    · rw [e, hnone]
      rfl
    · rfl

/-- `CleanupRemovedURRs` drops the entries that are marked removed. -/
theorem lookup_cleanupRemovedURRs (g : Gtp5g) (s : Sess) (v : UInt32) :
    (s.cleanupRemovedURRs O g).2.urrIDs.lookup v =
      (s.urrIDs.lookup v).filter fun info => !info.removed := by
  have key : ∀ (us : List UInt32) (t : Sess), (us.foldl sweepURR t).urrIDs.lookup v =
      if v ∈ us then (t.urrIDs.lookup v).filter fun info => !info.removed
      else t.urrIDs.lookup v := by
    intro us
    induction us with
    | nil => intro t; rfl
    | cons u us ih =>
      intro t
      rw [List.foldl_cons, ih, lookup_sweepURR]
      by_cases hu : v = u
      · rw [if_pos hu]
        simp [hu]
      · rw [if_neg hu]
        simp [hu]
  refine (key (O.urrs.keys g.ranges s.urrIDs.keys) s).trans ?_
  split_ifs with hv
  · rfl
  · rw [O.urrs.mem_keys, Finmap.mem_keys, ← Finmap.lookup_eq_none] at hv
    rw [hv]
    rfl

/-! ## Identity

No operation on a session changes whose it is, its SEIDs, or the bound of its buffers. -/

/-- The fields of a session that are set once. -/
def ident (s : Sess) : Nat × Nat × Nat × Nat := (s.rnode, s.localID, s.remoteID, s.qlen)

theorem KeepsURRs.ident (h : s.KeepsURRs s') : s'.ident = s.ident := by
  have e := congrArg Sess.ident h.rest
  exact e

theorem ident_applyCreatePDR (s : Sess) (p : PDRPlan) : (s.applyCreatePDR p).ident = s.ident :=
  foldl_frame associateURR ident (fun _ _ => rfl) p.urrids s

theorem ident_applyCreates (s : Sess) (plan : ModificationPlan) :
    (s.applyCreates plan).ident = s.ident := by
  unfold applyCreates
  dsimp only
  rw [foldl_frame applyCreatePDR ident ident_applyCreatePDR,
    foldl_frame applyCreateBAR ident (fun _ _ => rfl),
    foldl_frame applyCreateURR ident (fun _ _ => rfl),
    foldl_frame applyCreateQER ident (fun _ _ => rfl),
    foldl_frame applyCreateFAR ident (fun _ _ => rfl)]

theorem ident_applyRemoves (s : Sess) (plan : ModificationPlan) :
    (s.applyRemoves plan).ident = s.ident := by
  unfold applyRemoves
  dsimp only
  rw [foldl_frame applyRemoveFAR ident (fun _ _ => rfl),
    foldl_frame applyRemoveQER ident (fun _ _ => rfl),
    foldl_frame applyRemoveURR ident (fun _ _ => rfl),
    foldl_frame applyRemoveBAR ident (fun _ _ => rfl)]

theorem SameButURRs.ident (h : s.SameButURRs s') : s'.ident = s.ident := by
  have e := congrArg Sess.ident h
  exact e

/-! ## Phases 2 and 3 in steps -/

/-- The session after the create and update loops of the apply phase that make no call. -/
def applyPrepared (plan : ModificationPlan) (s : Sess) : Sess :=
  plan.updateURRs.foldl applyUpdateURR (s.applyCreates plan)

/-- `executeAndApply` written with projections. -/
theorem executeAndApply_eq (plan : ModificationPlan) (g : Gtp5g) (s : Sess) :
    s.executeAndApply O plan g =
      let x := executeModificationPlan O g s.q plan
      let u := applyPDRs (applyUpdatePDR O) plan.updatePDRs x.1
        (applyPrepared plan { s with q := x.2.1 }) []
      let r := applyPDRs (applyRemovePDR O) plan.removePDRs u.1 u.2.1 u.2.2
      (r.1, r.2.1.applyRemoves plan, r.2.2 ++ x.2.2.map (markTriggers plan)) :=
  rfl

theorem ident_executeAndApply (plan : ModificationPlan) (g : Gtp5g) (s : Sess) :
    (s.executeAndApply O plan g).2.1.ident = s.ident := by
  rw [executeAndApply_eq]
  dsimp only
  rw [ident_applyRemoves,
    (keepsURRs_applyPDRs (keepsURRs_applyRemovePDR O) plan.removePDRs _ _ _).1.ident,
    (keepsURRs_applyPDRs (keepsURRs_applyUpdatePDR O) plan.updatePDRs _ _ _).1.ident]
  unfold applyPrepared
  rw [foldl_frame applyUpdateURR ident (fun _ _ => rfl), ident_applyCreates]
  rfl

/-- `runPlan` written with projections. -/
theorem runPlan_eq (plan : ModificationPlan) (g : Gtp5g) (s : Sess) :
    s.runPlan O plan g =
      let x := s.executeAndApply O plan g
      let p := x.2.2.foldl (putReport USAReport.iesWithinSessModRsp) (x.2.1, [])
      (x.1.range, (p.1.cleanupRemovedURRs O x.1).2, p.2) :=
  rfl

theorem ident_runPlan (plan : ModificationPlan) (g : Gtp5g) (s : Sess) :
    (s.runPlan O plan g).2.1.ident = s.ident := by
  rw [runPlan_eq]
  dsimp only
  rw [(sameButURRs_cleanupRemovedURRs O _ _).ident,
    (sameButURRs_putReports USAReport.iesWithinSessModRsp _ _).ident]
  exact ident_executeAndApply O plan g s

end Sess

end Free5gc.Upf
