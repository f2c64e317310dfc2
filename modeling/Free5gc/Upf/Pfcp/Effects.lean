/-
  What each request does to the sessions and to the driver, on a session table that is in
  order. A request changes nothing there, or replaces one session and the driver; an
  association setup closes the sessions of one node in turn. The invariants over runs of
  requests go by these lemmas.
-/
import Free5gc.Upf.Pfcp.SessFrames
import Free5gc.Upf.Pfcp.SessTable

namespace Free5gc.Upf.PfcpServer

open Free5gc.Lib

/-- The sessions and the driver are as they were. -/
structure SameSessions (s s' : PfcpServer) : Prop where
  driver : s'.driver = s.driver
  sessOf : ∀ j, s'.lnode.sessOf j = s.lnode.sessOf j

/-- The session under `k` is now `o` and the driver `g`; the other sessions are as they
    were. -/
structure Replaces (s s' : PfcpServer) (k : Nat) (o : Option Sess) (g : Gtp5g) : Prop where
  driver : s'.driver = g
  sessOf : ∀ j, s'.lnode.sessOf j = if j = k then o else s.lnode.sessOf j

variable {s : PfcpServer}

theorem sameSessions_sendRspTo (W : World) (s : PfcpServer) (msg : Message) (addr : Addr) :
    SameSessions s (s.sendRspTo W msg addr) := by
  refine ⟨sendRspTo_driver W s msg addr, fun j => ?_⟩
  rw [sendRspTo_lnode]

theorem Replaces.sendRspTo {s' : PfcpServer} {k : Nat} {o : Option Sess} {g : Gtp5g}
    (h : Replaces s s' k o g) (W : World) (msg : Message) (addr : Addr) :
    Replaces s (s'.sendRspTo W msg addr) k o g := by
  refine ⟨(sendRspTo_driver W s' msg addr).trans h.driver, fun j => ?_⟩
  rw [sendRspTo_lnode]
  exact h.sessOf j

/-- Writing a session back replaces it. -/
theorem SessTable.replaces_setSess (h : SessTable s) {k : Nat} {old sess : Sess}
    (hs : s.lnode.sessOf k = some old) (hid : sess.localID = old.localID) (g : Gtp5g) :
    Replaces s (({ s with driver := g } : PfcpServer).setSess sess) k (some sess) g :=
  ⟨rfl, (h.withDriver g).sessOf_setSess hs hid⟩

/-- The reports that a message carries. -/
def reported : Option Message → List UsageReport
  | some (.sessionModificationResponse rsp) => rsp.usageReport
  | some (.sessionDeletionResponse rsp) => rsp.usageReport
  | some (.sessionReportRequest req) =>
    match req.content with
    | .usage reports => reports
    | _ => []
  | _ => []

section

variable {s : PfcpServer} (h : SessTable s) (W : World)
include h

/-- Deleting a session of its own node closes it. -/
theorem SessTable.replaces_deleteSess {k : Nat} {sess : Sess}
    (hs : s.lnode.sessOf k = some sess) :
    Replaces s (s.deleteSess W sess.rnode k).1 k none (sess.close W.toOracle s.driver).1 ∧
      (s.deleteSess W sess.rnode k).2 = ((sess.close W.toOracle s.driver).2.2,
        some (sess.close W.toOracle s.driver).2.1) := by
  obtain ⟨sess', hs', _, heq⟩ :=
    h.deleteSess_of_owns W ((h.owner sess.rnode k).mpr ⟨sess, hs, rfl⟩)
  rw [hs] at hs'
  cases hs'
  rw [heq]
  exact ⟨⟨rfl, sessOf_closed W hs⟩, rfl⟩

/-- An establishment changes nothing, or fails with the session it allocated closed again,
    or stores a session with the plan applied. -/
theorem SessTable.establishment_effect
    (hreg : ∀ id n, s.rnodes.lookup id = some n → n < s.nodes.length)
    (req : SessionEstablishmentRequest) (addr : Addr) :
    let x := s.handleSessionEstablishmentRequest W req addr
    (SameSessions s x.1 ∧ acceptedSEID x.2 = none) ∨
      ∃ id n k rSeid, req.nodeID = some (some id) ∧ s.rnodes.lookup id = some n ∧
        req.cpFSEID = some (some rSeid) ∧ (s.newSess n rSeid).2 = Sess.new n k rSeid ∧
        s.lnode.sessOf k = none ∧
        ((∃ g, failedDriver W s.driver (Sess.new n k rSeid) req = some g ∧
          Replaces s x.1 k none ((Sess.new n k rSeid).close W.toOracle g).1 ∧
          acceptedSEID x.2 = none) ∨
        ∃ plan g, establishmentPlan (Sess.new n k rSeid) req = .ok plan ∧
          executeEstablishmentPlan W.toOracle s.driver plan = .ok g ∧
          Replaces s x.1 k (some ((Sess.new n k rSeid).applyCreates plan)) g ∧
          acceptedSEID x.2 = some k) := by
  intro x
  obtain ⟨_, rsp, hrsp, heq⟩ | ⟨id, n, rSeid, hnode, hseid, hid, heq⟩ :=
    handleSessionEstablishmentRequest_cases W s req addr
  · have hx : x = _ := heq
    rw [hx]
    dsimp only
    exact Or.inl ⟨sameSessions_sendRspTo W s _ addr, acceptedSEID_of_ne hrsp⟩
  · have hnew := h.newSess (hreg id n hid) rSeid
    have hof := h.sessOf_newSess n rSeid
    have hfresh := h.newSess_fresh n rSeid
    have hsess := (LocalNode.newSess_spec h.free n rSeid).1
    have hx : x = _ := heq
    have hdrv : (s.newSess n rSeid).1.driver = s.driver := rfl
    have hsess' : (s.newSess n rSeid).2 =
        Sess.new n (s.newSess n rSeid).2.localID rSeid := hsess
    rw [hx]
    refine Or.inr ⟨id, n, (s.newSess n rSeid).2.localID, rSeid, hnode, hid, hseid, hsess',
      hfresh, ?_⟩
    rw [← hsess']
    have hrn : (s.newSess n rSeid).2.rnode = n := h.newSess_rnode n rSeid
    generalize (s.newSess n rSeid).2 = sess at hof hfresh hrn ⊢
    generalize (s.newSess n rSeid).1 = t at hnew hof hdrv ⊢
    have hown : t.lnode.sessOf sess.localID = some sess := by rw [hof, if_pos rfl]
    have hrest : ∀ (o : Option Sess) j, (if j = sess.localID then o else t.lnode.sessOf j) =
        if j = sess.localID then o else s.lnode.sessOf j := by
      intro o j
      rw [hof]
      split_ifs with e
      · rfl
      · rfl
    obtain ⟨g, rsp, hg, hrsp, heq'⟩ | ⟨plan, g, rsp, hplan, hg, hrsp, _, heq'⟩ :=
      establish_cases W t req addr n sess
    · rw [hdrv] at hg
      rw [heq']
      refine Or.inl ⟨g, hg, ?_, acceptedSEID_of_ne hrsp⟩
      have hu := (hnew.withDriver g).sendRspTo W (.sessionEstablishmentResponse rsp) addr
      have hsame := sameSessions_sendRspTo W ({ t with driver := g } : PfcpServer)
        (.sessionEstablishmentResponse rsp) addr
      generalize PfcpServer.sendRspTo W _ _ _ = u at hu hsame ⊢
      have hown' : u.lnode.sessOf sess.localID = some sess := (hsame.sessOf _).trans hown
      obtain ⟨hdel, _⟩ := hu.replaces_deleteSess W hown'
      rw [hrn] at hdel
      refine ⟨hdel.driver.trans ?_, fun j => ?_⟩
      · rw [hsame.driver]
      · rw [hdel.sessOf, hsame.sessOf]
        exact hrest none j
    · rw [hdrv] at hg
      rw [heq']
      have hid := Sess.ident_applyCreates sess plan
      have hloc : (sess.applyCreates plan).localID = sess.localID :=
        congrArg (fun i => i.2.1) hid
      rw [hloc] at hrsp
      dsimp only
      refine Or.inr ⟨plan, g, hplan, hg, Replaces.sendRspTo ?_ W _ addr, hrsp⟩
      have hset := hnew.replaces_setSess hown hloc g
      exact ⟨hset.driver, fun j => (hset.sessOf j).trans (hrest _ j)⟩

/-- A modification changes nothing and reports nothing, or runs its plan on the session. -/
theorem SessTable.modification_effect (req : SessionModificationRequest) (addr : Addr) :
    let x := s.handleSessionModificationRequest W req addr
    (SameSessions s x.1 ∧ causeOf x.2 ≠ some .requestAccepted ∧ reported x.2 = []) ∨
      ∃ sess plan, s.lnode.sessOf req.seid = some sess ∧ modificationPlan sess req = .ok plan ∧
        Replaces s x.1 req.seid (some (sess.runPlan W.toOracle plan s.driver).2.1)
          (sess.runPlan W.toOracle plan s.driver).1 ∧ causeOf x.2 = some .requestAccepted ∧
        reported x.2 = (sess.runPlan W.toOracle plan s.driver).2.2 := by
  intro x
  have hren : ∀ sess, (s.renamed sess req).lnode = s.lnode ∧
      (s.renamed sess req).driver = s.driver ∧ SessTable (s.renamed sess req) := by
    intro sess
    unfold PfcpServer.renamed
    split
    · rename_i newId _
      refine ⟨?_, ?_, h.updateNodeID sess.rnode newId⟩
      · unfold PfcpServer.updateNodeID
        split
        · rfl
        · rfl
      · unfold PfcpServer.updateNodeID
        split
        · rfl
        · rfl
    · exact ⟨rfl, rfl, h⟩
  obtain ⟨hs, heq⟩ | ⟨sess, hs, hid, heq⟩ | ⟨sess, e, hs, hid, _, heq⟩ |
    ⟨sess, plan, hs, hid, hplan, heq⟩ := handleSessionModificationRequest_cases W s req addr
  · have hx : x = _ := heq
    rw [hx]
    unfold sendSessModRsp
    dsimp only
    exact Or.inl ⟨sameSessions_sendRspTo W s _ addr, by simp [causeOf], rfl⟩
  · have hx : x = _ := heq
    rw [hx]
    exact Or.inl ⟨⟨rfl, fun _ => rfl⟩, by simp [causeOf], rfl⟩
  · have hx : x = _ := heq
    rw [hx]
    obtain ⟨hl, hd, _⟩ := hren sess
    refine Or.inl ⟨?_, fun hc => pfcpCauseFromError_ne e (Option.some.inj hc), rfl⟩
    have hsame := sameSessions_sendRspTo W (s.renamed sess req)
      (.sessionModificationResponse ⟨req.seq, sess.remoteID, pfcpCauseFromError e, []⟩) addr
    refine ⟨hsame.driver.trans hd, fun j => ?_⟩
    rw [← hl]
    exact hsame.sessOf j
  · have hx : x = _ := heq
    rw [hx, executePlan_eq]
    obtain ⟨hl, hd, ht⟩ := hren sess
    refine Or.inr ⟨sess, plan, hs, hplan, ?_⟩
    dsimp only
    rw [hd]
    have hident := Sess.ident_runPlan W.toOracle plan s.driver sess
    generalize sess.runPlan W.toOracle plan s.driver = y at hident ⊢
    have hloc : y.2.1.localID = sess.localID := congrArg (fun i => i.2.1) hident
    refine ⟨Replaces.sendRspTo ?_ W _ addr, rfl, rfl⟩
    have hset := ht.replaces_setSess (hl ▸ hs) hloc y.1
    refine ⟨hset.driver, fun j => ?_⟩
    rw [← hl]
    exact hset.sessOf j

/-- A deletion changes nothing and reports nothing, or closes the session. -/
theorem SessTable.deletion_effect (seq : UInt32) (lSeid : Nat) (addr : Addr) :
    let x := s.handleSessionDeletionRequest W seq lSeid addr
    (SameSessions s x.1 ∧ reported x.2 = []) ∨
      ∃ sess, s.lnode.sessOf lSeid = some sess ∧
        Replaces s x.1 lSeid none (sess.close W.toOracle s.driver).1 ∧
        reported x.2 = ((sess.close W.toOracle s.driver).2.2.foldl Sess.putReportDel
          ((sess.close W.toOracle s.driver).2.1, [])).2 := by
  intro x
  obtain ⟨hs, rsp, hrsp, heq⟩ | ⟨sess, hs, heq⟩ :=
    handleSessionDeletionRequest_cases W s seq lSeid addr
  · have hx : x = _ := heq
    rw [hx]
    dsimp only
    exact Or.inl ⟨sameSessions_sendRspTo W s _ addr, hrsp⟩
  · have hx : x = _ := heq
    rw [hx]
    obtain ⟨hdel, hres⟩ := h.replaces_deleteSess W hs
    dsimp only
    refine Or.inr ⟨sess, hs, hdel.sendRspTo W _ addr, ?_⟩
    rw [hres]
    rfl

end

/-- What every closing of a session keeps is kept by an association setup. `P` speaks about
    the live sessions and the driver. -/
theorem SessTable.setup_inv (h : SessTable s) (W : World) (P : (Nat → Option Sess) → Gtp5g → Prop)
    (hrange : ∀ f g, P f g → P f g.range) (hclose : ∀ f g k sess, f k = some sess → P f g →
      P (fun j => if j = k then none else f j) (sess.close W.toOracle g).1)
    (hs : P s.lnode.sessOf s.driver) (req : AssociationSetupRequest) (addr : Addr) :
    let s' := (s.handleAssociationSetupRequest W req addr).1
    P s'.lnode.sessOf s'.driver := by
  have hdel : ∀ (t : PfcpServer) n k, SessTable t → P t.lnode.sessOf t.driver →
      P (t.deleteSess W n k).1.lnode.sessOf (t.deleteSess W n k).1.driver := by
    intro t n k ht hP
    by_cases ho : t.Owns n k
    · obtain ⟨sess, hsess, rfl⟩ := (ht.owner n k).mp ho
      obtain ⟨hrep, _⟩ := ht.replaces_deleteSess W hsess
      rw [hrep.driver, funext hrep.sessOf]
      exact hclose _ _ k sess hsess hP
    · rw [deleteSess_of_not_owns W ho]
      exact hP
  intro s'
  obtain ⟨_, heq⟩ | ⟨rnodeid, rsp, _, heq⟩ := handleAssociationSetupRequest_cases W s req addr
  · have hs' : s' = s := congrArg Prod.fst heq
    rw [hs']
    exact hs
  · have hs' : s' = ((s.deleteNode W rnodeid).addNode rnodeid addr).sendRspTo W rsp addr :=
      congrArg Prod.fst heq
    rw [hs', sendRspTo_driver, sendRspTo_lnode]
    show P (s.deleteNode W rnodeid).lnode.sessOf (s.deleteNode W rnodeid).driver
    unfold deleteNode PfcpServer.reset
    split
    · exact hs
    · rename_i n _
      dsimp only
      split
      · exact hs
      · dsimp only
        refine (foldl_inv (fun t : PfcpServer => SessTable t ∧ P t.lnode.sessOf t.driver) ?_ _
          ⟨h.withDriver s.driver.range, hrange _ _ hs⟩).2
        intro t k ht
        exact ⟨ht.1.deleteSess W n k, hdel t n k ht.1 ht.2⟩

end Free5gc.Upf.PfcpServer
