/-
  Node ids: which remote node is registered under which id, across every order of requests.

  `Registry` holds in every reachable state: what `rnodes` has under `k` is a node with id
  `k`. That every live session's node is the one registered under its id is not kept by
  every run: a modification with a Node ID renames the session's node over whatever was
  registered under the new id, and does so before the request is validated. The two main
  results say when nothing goes wrong:

  * `rejected_modification_unchanged_iff`: a rejected modification leaves the server as it
    was exactly when it does not rename.
  * `ownedByAssociation_iff_keepsID`: all sessions stay owned along a run, by the id they
    were created under, exactly when no request of the run renames a node.
-/
import Free5gc.Upf.Pfcp.Handlers
import Free5gc.Upf.Pfcp.SessFrames
import Free5gc.Upf.Pfcp.SessTable

namespace Free5gc.Upf.PfcpServer

open Free5gc.Lib

/-! ## Renaming -/

variable {s s' : PfcpServer} {n : Nat}

variable (W : World)

/-- Renaming a node changes nothing exactly when it is registered under that id already. -/
theorem updateNodeID_eq_self_iff (s : PfcpServer) (n : Nat) (newId : String) :
    s.updateNodeID n newId = s ↔
      ∀ node, s.nodes[n]? = some node → node.id = newId ∧ s.rnodes.lookup newId = some n := by
  unfold updateNodeID
  split
  · rename_i hnone
    simp [hnone]
  · rename_i node hnode
    constructor
    · intro h node' hnode'
      rw [hnode] at hnode'
      cases hnode'
      have hn := congrArg nodes h
      have hr := congrArg rnodes h
      dsimp only at hn hr
      refine ⟨?_, ?_⟩
      · have hget : (s.nodes.modify n fun node => { node with id := newId })[n]? =
            s.nodes[n]? := by rw [hn]
        rw [List.getElem?_modify_eq, hnode] at hget
        exact (congrArg RemoteNode.id (Option.some.inj hget)).symm
      · rw [← hr]
        exact Finmap.lookup_insert _
    · intro h
      obtain ⟨hid, hreg⟩ := h node hnode
      have hn : (s.nodes.modify n fun node => { node with id := newId }) = s.nodes := by
        apply List.ext_getElem?
        intro i
        rw [List.getElem?_modify]
        by_cases e : n = i
        · subst e
          rw [hnode, ← hid]
          simp
        · simp [e]
      rw [hn, hid, GoMap.insert_erase_self hreg]

/-! ## Rejected modifications -/

/-- The request does not rename: it has no Node ID that decodes, or its SEID names no
    session, or the session's node has this id and is registered under it. -/
def KeepsNodeID (s : PfcpServer) (req : SessionModificationRequest) : Prop :=
  ∀ sess newId, s.lnode.sessOf req.seid = some sess → req.nodeID = some (some newId) →
    ∀ node, s.nodes[sess.rnode]? = some node →
      node.id = newId ∧ s.rnodes.lookup newId = some sess.rnode

theorem renamed_eq_self_iff {req : SessionModificationRequest} {sess : Sess}
    (hs : s.lnode.sessOf req.seid = some sess) : s.renamed sess req = s ↔ s.KeepsNodeID req := by
  unfold renamed KeepsNodeID
  split
  · rename_i newId hid
    rw [updateNodeID_eq_self_iff]
    constructor
    · intro h sess' newId' hs' hid' node hnode
      rw [hs] at hs'
      cases hs'
      rw [hid] at hid'
      cases hid'
      exact h node hnode
    · intro h node hnode
      exact h sess newId hs hid node hnode
  · rename_i hid
    refine ⟨fun _ sess' newId hs' hid' => ?_, fun _ => rfl⟩
    exact absurd hid' (hid newId)

/-- A response to a server that differs from `s` shows the difference. -/
theorem sameButResponse_sendSessModRsp_iff {t : PfcpServer} (seq : UInt32) (seid : Nat)
    (addr : Addr) (cause : Cause) (reports : List UsageReport) (hrx : t.rxTrans = s.rxTrans)
    (hconn : t.conn = s.conn) :
    SameButResponse (trID addr seq) s (t.sendSessModRsp W seq seid addr cause reports).1 ↔
      t = s := by
  have h := sameButResponse_sendRspTo W t
    (.sessionModificationResponse { seq, seid, cause, usageReport := reports }) addr
  constructor
  · intro hs
    have e := hs.1
    rw [← hrx, ← hconn] at e
    exact h.1.symm.trans e
  · rintro rfl
    exact h

theorem renamed_rxTrans (s : PfcpServer) (sess : Sess) (req : SessionModificationRequest) :
    (s.renamed sess req).rxTrans = s.rxTrans ∧ (s.renamed sess req).conn = s.conn := by
  unfold renamed
  split
  · unfold updateNodeID
    split
    · exact ⟨rfl, rfl⟩
    · exact ⟨rfl, rfl⟩
  · exact ⟨rfl, rfl⟩

/-- A rejected modification leaves the server as it was, the kept response apart, exactly
    when it does not rename the session's node. -/
theorem rejected_modification_unchanged_iff (W : World) (s : PfcpServer)
    (req : SessionModificationRequest) (addr : Addr)
    (hrej : Rejects (s.handleSessionModificationRequest W req addr).2) :
    SameButResponse (trID addr req.seq) s (s.handleSessionModificationRequest W req addr).1 ↔
      s.KeepsNodeID req := by
  obtain ⟨hs, heq⟩ | ⟨sess, hs, hid, heq⟩ | ⟨sess, e, hs, hid, _, heq⟩ |
    ⟨sess, plan, hs, hid, _, heq⟩ := handleSessionModificationRequest_cases W s req addr
  · rw [heq, sameButResponse_sendSessModRsp_iff W req.seq 0 addr _ _ rfl rfl]
    refine ⟨fun _ sess newId hs' => ?_, fun _ => rfl⟩
    rw [hs] at hs'
    cases hs'
  · rw [heq] at hrej
    obtain ⟨c, hc, _⟩ := hrej
    cases hc
  · obtain ⟨hrx, hconn⟩ := renamed_rxTrans s sess req
    rw [heq, sameButResponse_sendSessModRsp_iff W req.seq _ addr _ _ hrx hconn,
      renamed_eq_self_iff hs]
  · rw [heq] at hrej
    obtain ⟨c, hc, hne⟩ := hrej
    cases hc
    exact absurd rfl hne

/-- The removal of a FAR the session does not have, without a Node ID. -/
theorem rejected_modification_unchanged_removeFAR :
    let W := World.isolated fun _ => Answer.done
    let s := twoAssociations.foldl (handle W) PfcpServer.new
    let req := { SessionModificationRequest.empty 3 1 with removeFAR := [some 9] }
    let r := s.handleSessionModificationRequest W req "10.0.0.1:8805"
    Rejects r.2 ∧ SameButResponse (trID "10.0.0.1:8805" req.seq) s r.1 := by
  intro W s req r
  have hrej : Rejects r.2 := by decide +kernel
  have hkeep : s.KeepsNodeID req := by
    intro sess newId _ hid
    cases hid
  exact ⟨hrej, (rejected_modification_unchanged_iff W s req "10.0.0.1:8805" hrej).mpr hkeep⟩

/-- The same removal with the Node ID of another SMF is rejected as well, but takes the
    session's node over to that id. -/
theorem rejected_modification_renames :
    let W := World.isolated fun _ => Answer.done
    let s := twoAssociations.foldl (handle W) PfcpServer.new
    let req := { SessionModificationRequest.empty 3 1 with
      nodeID := some (some "smf3"), removeFAR := [some 9] }
    let r := s.handleSessionModificationRequest W req "10.0.0.3:8805"
    Rejects r.2 ∧ ¬ SameButResponse (trID "10.0.0.3:8805" req.seq) s r.1 := by
  intro W s req r
  have hrej : Rejects r.2 := by decide +kernel
  have hbefore : s.rnodes.lookup "smf1" = some 0 := by decide +kernel
  have hafter : r.1.rnodes.lookup "smf1" = none := by decide +kernel
  have hchanged : ¬ SameButResponse (trID "10.0.0.3:8805" req.seq) s r.1 := by
    intro h
    have hrnodes := congrArg rnodes h.1
    dsimp only at hrnodes
    rw [hrnodes, hbefore] at hafter
    cases hafter
  exact ⟨hrej, hchanged⟩

/-! ## The registry -/

/-- The id of a node. -/
def idOf (s : PfcpServer) (n : Nat) : Option String := s.nodes[n]?.map (·.id)

theorem idOf_modify {f : RemoteNode → RemoteNode} (h : s'.nodes = s.nodes.modify n f)
    (hf : ∀ node, (f node).id = node.id) (m : Nat) : s'.idOf m = s.idOf m := by
  unfold idOf
  rw [h, List.getElem?_modify]
  cases s.nodes[m]? with
  | none => rfl
  | some node =>
    show some (if n = m then f node else node).id = some node.id
    split_ifs
    · rw [hf]
    · rfl

theorem idOf_newSess (s : PfcpServer) (n rSeid m : Nat) :
    (s.newSess n rSeid).1.idOf m = s.idOf m :=
  idOf_modify (s := s) rfl (fun _ => by rfl) m

theorem rnodes_deleteSess (s : PfcpServer) (n k : Nat) :
    (s.deleteSess W n k).1.rnodes = s.rnodes ∧
      ∀ m, (s.deleteSess W n k).1.idOf m = s.idOf m := by
  have hdrop : ∀ m, (s.dropSess n k).idOf m = s.idOf m :=
    fun m => idOf_modify (s := s) rfl (fun _ => by rfl) m
  unfold deleteSess localDeleteSess
  split
  · exact ⟨rfl, fun _ => rfl⟩
  · split_ifs
    · split
      · exact ⟨rfl, hdrop⟩
      · exact ⟨rfl, hdrop⟩
    · exact ⟨rfl, fun _ => rfl⟩

theorem rnodes_reset (s : PfcpServer) (n : Nat) :
    (s.reset W n).rnodes = s.rnodes ∧ ∀ m, (s.reset W n).idOf m = s.idOf m := by
  unfold reset
  split
  · exact ⟨rfl, fun _ => rfl⟩
  · rename_i node hnode
    dsimp only
    have hloop : ∀ ks : List Nat, ∀ t : PfcpServer,
        (ks.foldl (fun s k => (s.deleteSess W n k).1) t).rnodes = t.rnodes ∧
        ∀ m, (ks.foldl (fun s k => (s.deleteSess W n k).1) t).idOf m = t.idOf m := by
      intro ks t
      refine foldl_inv (fun t' : PfcpServer => t'.rnodes = t.rnodes ∧ ∀ m, t'.idOf m = t.idOf m)
        ?_ ks ⟨rfl, fun _ => rfl⟩
      intro t' k h
      obtain ⟨h1, h2⟩ := rnodes_deleteSess W t' n k
      exact ⟨h1.trans h.1, fun m => (h2 m).trans (h.2 m)⟩
    obtain ⟨h1, h2⟩ := hloop (W.seids.keys s.driver.ranges node.sess)
      { s with driver := s.driver.range }
    refine ⟨h1, fun m => ?_⟩
    exact (idOf_modify (n := n) rfl (fun _ => by rfl) m).trans (h2 m)

theorem idOf_addNode (s : PfcpServer) (rnodeid : String) (addr : Addr) (m : Nat) :
    (s.addNode rnodeid addr).idOf m =
      if m = s.nodes.length then some rnodeid else s.idOf m := by
  show ((s.nodes ++ [⟨rnodeid, addr, ∅⟩])[m]?).map (·.id) = _
  unfold idOf
  rcases Nat.lt_trichotomy m s.nodes.length with hlt | heq | hgt
  · rw [List.getElem?_append_left hlt, if_neg (by omega)]
  · rw [if_pos heq, heq]
    simp
  · rw [if_neg (by omega), List.getElem?_eq_none (by simp; omega),
      List.getElem?_eq_none (by omega)]

theorem idOf_updateNodeID (s : PfcpServer) (hn : n < s.nodes.length) (newId : String) (m : Nat) :
    (s.updateNodeID n newId).idOf m = if m = n then some newId else s.idOf m := by
  unfold updateNodeID
  rw [List.getElem?_eq_getElem hn]
  unfold idOf
  dsimp only
  rw [List.getElem?_modify]
  by_cases e : m = n
  · subst e
    rw [if_pos rfl, List.getElem?_eq_getElem hn]
    simp
  · have e' : n ≠ m := fun x => e x.symm
    simp [e, e']

theorem rnodes_updateNodeID (s : PfcpServer) {k : String} (hk : s.idOf n = some k)
    (newId x : String) :
    (s.updateNodeID n newId).rnodes.lookup x =
      if x = newId then some n else if x = k then none else s.rnodes.lookup x := by
  unfold idOf at hk
  obtain ⟨node, hnode, rfl⟩ := Option.map_eq_some_iff.mp hk
  unfold updateNodeID
  rw [hnode]
  dsimp only
  rw [GoMap.lookup_insert_eq, GoMap.lookup_erase_eq]

/-- What `rnodes` has under `k` is a node with id `k`. -/
def Registry (s : PfcpServer) : Prop :=
  ∀ k n, s.rnodes.lookup k = some n → s.idOf n = some k

theorem Registry.congr (h : Registry s) (hr : s'.rnodes = s.rnodes)
    (hid : ∀ m, s'.idOf m = s.idOf m) : Registry s' := by
  intro k n hk
  rw [hr] at hk
  rw [hid]
  exact h k n hk

theorem idOf_lt {k : String} (h : s.idOf n = some k) : n < s.nodes.length := by
  obtain ⟨node, hnode, _⟩ := Option.map_eq_some_iff.mp h
  exact (List.getElem?_eq_some_iff.mp hnode).1

theorem idOf_of_lt (h : n < s.nodes.length) : ∃ k, s.idOf n = some k := by
  unfold idOf
  rw [List.getElem?_eq_getElem h]
  exact ⟨_, rfl⟩

/-! ## What the handlers keep -/

/-- The session table and the registry are in order. -/
structure Sound (s : PfcpServer) : Prop where
  table : SessTable s
  registry : Registry s

theorem sound_new : Sound PfcpServer.new where
  table := sessTable_new
  registry := by
    intro k n hk
    simp [PfcpServer.new] at hk

theorem Sound.sendRspTo (h : Sound s) (W : World) (msg : Message) (addr : Addr) :
    Sound (s.sendRspTo W msg addr) := by
  refine ⟨h.table.sendRspTo W msg addr, h.registry.congr (sendRspTo_rnodes W s msg addr) ?_⟩
  intro m
  unfold idOf
  rw [sendRspTo_nodes]

theorem idOf_sendRspTo (s : PfcpServer) (msg : Message) (addr : Addr) (m : Nat) :
    (s.sendRspTo W msg addr).idOf m = s.idOf m := by
  unfold idOf
  rw [sendRspTo_nodes]

/-- `s'` has the registry of `s`, and every node its id. -/
structure SameIds (s s' : PfcpServer) : Prop where
  rnodes : s'.rnodes = s.rnodes
  ids : ∀ m, s'.idOf m = s.idOf m

theorem SameIds.trans {s'' : PfcpServer} (h : SameIds s s') (h' : SameIds s' s'') : SameIds s s'' :=
  ⟨h'.rnodes.trans h.rnodes, fun m => (h'.ids m).trans (h.ids m)⟩

theorem sameIds_sendRspTo (s : PfcpServer) (msg : Message) (addr : Addr) :
    SameIds s (s.sendRspTo W msg addr) :=
  ⟨sendRspTo_rnodes W s msg addr, idOf_sendRspTo W s msg addr⟩

theorem sameIds_deleteSess (s : PfcpServer) (n k : Nat) :
    SameIds s (s.deleteSess W n k).1 :=
  ⟨(rnodes_deleteSess W s n k).1, (rnodes_deleteSess W s n k).2⟩

theorem sameIds_newSess (s : PfcpServer) (n rSeid : Nat) : SameIds s (s.newSess n rSeid).1 :=
  ⟨rfl, idOf_newSess s n rSeid⟩

/-- An establishment keeps the registry. It leaves the sessions as they were, or adds one
    under a free SEID that belongs to a registered node. -/
theorem Sound.establishment (h : Sound s) (W : World) (req : SessionEstablishmentRequest)
    (addr : Addr) :
    let s' := (s.handleSessionEstablishmentRequest W req addr).1
    SessTable s' ∧ SameIds s s' ∧
      ((∀ j, s'.lnode.sessOf j = s.lnode.sessOf j) ∨
        ∃ k sess id, s.lnode.sessOf k = none ∧ s.rnodes.lookup id = some sess.rnode ∧
          ∀ j, s'.lnode.sessOf j = if j = k then some sess else s.lnode.sessOf j) := by
  intro s'
  obtain ⟨_, rsp, _, heq⟩ | ⟨id, n, rSeid, _, _, hreg, heq⟩ :=
    handleSessionEstablishmentRequest_cases W s req addr
  · have hs' : s' = s.sendRspTo W (.sessionEstablishmentResponse rsp) addr :=
      congrArg Prod.fst heq
    rw [hs']
    refine ⟨h.table.sendRspTo W _ addr, sameIds_sendRspTo W s _ addr, Or.inl fun j => ?_⟩
    exact congrArg (fun l => LocalNode.sessOf l j) (sendRspTo_lnode W s _ addr)
  · have hn : n < s.nodes.length := idOf_lt (h.registry id n hreg)
    have hnew := h.table.newSess hn rSeid
    have hof := h.table.sessOf_newSess n rSeid
    have hrn := h.table.newSess_rnode n rSeid
    have hfresh := h.table.newSess_fresh n rSeid
    have hids := sameIds_newSess s n rSeid
    have hs' : s' = ((s.newSess n rSeid).1.establish W req addr n (s.newSess n rSeid).2).1 :=
      congrArg Prod.fst heq
    rw [hs']
    generalize (s.newSess n rSeid).2 = sess at hof hrn hfresh ⊢
    generalize (s.newSess n rSeid).1 = t at hnew hof hids ⊢
    have hsess : t.lnode.sessOf sess.localID = some sess := by rw [hof, if_pos rfl]
    obtain ⟨g, rsp, _, _, heq'⟩ | ⟨plan, g, rsp, _, _, _, _, heq'⟩ :=
      establish_cases W t req addr n sess
    · rw [heq']
      have ht := (hnew.withDriver g).sendRspTo W (.sessionEstablishmentResponse rsp) addr
      have hl := sendRspTo_lnode W ({ t with driver := g } : PfcpServer)
        (.sessionEstablishmentResponse rsp) addr
      have hi := sameIds_sendRspTo W ({ t with driver := g } : PfcpServer)
        (.sessionEstablishmentResponse rsp) addr
      generalize PfcpServer.sendRspTo W _ _ _ = u at ht hl hi ⊢
      refine ⟨ht.deleteSess W n _, ?_, Or.inl fun j => ?_⟩
      · have hi' : SameIds t u := ⟨hi.rnodes, hi.ids⟩
        exact (hids.trans hi').trans (sameIds_deleteSess W u n sess.localID)
      · apply Option.ext
        intro x
        rw [ht.sessOf_deleteSess, hl]
        show t.lnode.sessOf j = some x ∧ _ ↔ _
        rw [hof]
        split_ifs with e
        · rw [e, hfresh]
          constructor
          · rintro ⟨hx, hne⟩
            cases hx
            exact absurd ⟨hrn, rfl⟩ hne
          · intro hx
            cases hx
        · simp [e]
    · rw [heq']
      dsimp only
      have hid := Sess.ident_applyCreates sess plan
      have hloc : (sess.applyCreates plan).localID = sess.localID :=
        congrArg (fun i => i.2.1) hid
      have hnode : (sess.applyCreates plan).rnode = sess.rnode := congrArg (fun i => i.1) hid
      have ht := hnew.withDriver g
      have hset := ht.setSess hsess hloc hnode
      refine ⟨hset.sendRspTo W _ addr, ?_, Or.inr ⟨sess.localID,
        sess.applyCreates plan, id, hfresh, ?_, ?_⟩⟩
      · have hi : SameIds t (({ t with driver := g } : PfcpServer).setSess
          (sess.applyCreates plan)) := ⟨rfl, fun _ => rfl⟩
        exact (hids.trans hi).trans (sameIds_sendRspTo W _ _ addr)
      · rw [hnode, hrn]
        exact hreg
      · intro j
        rw [sendRspTo_lnode, ht.sessOf_setSess hsess hloc]
        split_ifs with e
        · rfl
        · show t.lnode.sessOf j = _
          rw [hof, if_neg e]

/-- Which node a live SEID belongs to. -/
def rnodeOf (s : PfcpServer) (k : Nat) : Option Nat := (s.lnode.sessOf k).map (·.rnode)

theorem Sound.renamed (h : Sound s) (sess : Sess) (req : SessionModificationRequest) :
    SessTable (s.renamed sess req) ∧ (s.renamed sess req).lnode = s.lnode := by
  unfold PfcpServer.renamed
  split
  · rename_i newId hid
    refine ⟨h.table.updateNodeID sess.rnode newId, ?_⟩
    unfold updateNodeID
    split
    · rfl
    · rfl
  · exact ⟨h.table, rfl⟩

/-- The ids after a modification: as they were, or as the renaming leaves them. -/
def Renames (s : PfcpServer) (req : SessionModificationRequest) (s' : PfcpServer) : Prop :=
  SameIds s s' ∧ (∀ sess newId, s.lnode.sessOf req.seid = some sess →
      req.nodeID ≠ some (some newId)) ∨
    ∃ sess newId, s.lnode.sessOf req.seid = some sess ∧ req.nodeID = some (some newId) ∧
      SameIds (s.updateNodeID sess.rnode newId) s'

/-- The ids of a server that answers after the renaming. -/
theorem renames_of_renamed {s s' : PfcpServer} {sess : Sess} {req : SessionModificationRequest}
    (hs : s.lnode.sessOf req.seid = some sess) (hi : SameIds (s.renamed sess req) s') :
    Renames s req s' := by
  unfold PfcpServer.renamed at hi
  split at hi
  · rename_i newId hid
    exact Or.inr ⟨sess, newId, hs, hid, hi⟩
  · rename_i hid
    exact Or.inl ⟨hi, fun _ newId _ => hid newId⟩

/-- A modification leaves every session with its node. -/
theorem Sound.modification (h : Sound s) (W : World) (req : SessionModificationRequest)
    (addr : Addr) :
    let s' := (s.handleSessionModificationRequest W req addr).1
    SessTable s' ∧ (∀ j, s'.rnodeOf j = s.rnodeOf j) ∧ Renames s req s' := by
  intro s'
  obtain ⟨hs, heq⟩ | ⟨sess, hs, hid, heq⟩ | ⟨sess, e, hs, hid, _, heq⟩ |
    ⟨sess, plan, hs, hid, _, heq⟩ := handleSessionModificationRequest_cases W s req addr
  · have hs' : s' = s.sendRspTo W (.sessionModificationResponse
        ⟨req.seq, 0, .sessionContextNotFound, []⟩) addr := congrArg Prod.fst heq
    rw [hs']
    refine ⟨h.table.sendRspTo W _ addr, fun j => ?_, Or.inl ⟨sameIds_sendRspTo W s _ addr, ?_⟩⟩
    · unfold rnodeOf
      rw [sendRspTo_lnode]
    · intro sess newId hsess
      rw [hs] at hsess
      cases hsess
  · have hs' : s' = s := congrArg Prod.fst heq
    rw [hs']
    refine ⟨h.table, fun _ => rfl, Or.inl ⟨⟨rfl, fun _ => rfl⟩, ?_⟩⟩
    intro _ newId _ hid'
    rw [hid] at hid'
    cases hid'
  · have hs' : s' = (s.renamed sess req).sendRspTo W (.sessionModificationResponse
        ⟨req.seq, sess.remoteID, pfcpCauseFromError e, []⟩) addr := congrArg Prod.fst heq
    obtain ⟨ht, hl⟩ := h.renamed sess req
    refine ⟨?_, fun j => ?_, renames_of_renamed hs ?_⟩
    · rw [hs']
      exact ht.sendRspTo W _ addr
    · unfold rnodeOf
      rw [hs', sendRspTo_lnode, hl]
    · rw [hs']
      exact sameIds_sendRspTo W _ _ addr
  · rw [executePlan_eq] at heq
    have hs' := congrArg Prod.fst heq
    dsimp only at hs'
    obtain ⟨ht, hl⟩ := h.renamed sess req
    have hident := Sess.ident_runPlan W.toOracle plan (s.renamed sess req).driver sess
    generalize sess.runPlan W.toOracle plan (s.renamed sess req).driver = x at hs' hident
    have hloc : x.2.1.localID = sess.localID := congrArg (fun i => i.2.1) hident
    have hnode : x.2.1.rnode = sess.rnode := congrArg (fun i => i.1) hident
    have htd := ht.withDriver x.1
    have hsess : ({ s.renamed sess req with driver := x.1 } : PfcpServer).lnode.sessOf
        req.seid = some sess := by
      rw [← hs, ← hl]
    refine ⟨?_, fun j => ?_, renames_of_renamed hs ?_⟩
    · rw [show s' = _ from hs']
      exact (htd.setSess hsess hloc hnode).sendRspTo W _ addr
    · unfold rnodeOf
      rw [show s' = _ from hs', sendRspTo_lnode, htd.sessOf_setSess hsess hloc]
      split_ifs with e
      · rw [e, hs, Option.map_some, Option.map_some, hnode]
      · show ((s.renamed sess req).lnode.sessOf j).map _ = _
        rw [hl]
    · rw [show s' = _ from hs']
      have hi : SameIds (s.renamed sess req)
          (({ s.renamed sess req with driver := x.1 } : PfcpServer).setSess x.2.1) :=
        ⟨rfl, fun _ => rfl⟩
      exact hi.trans (sameIds_sendRspTo W _ _ addr)

/-- A deletion keeps the ids and adds no session. -/
theorem Sound.deletion (h : Sound s) (W : World) (seq : UInt32) (lSeid : Nat) (addr : Addr) :
    let s' := (s.handleSessionDeletionRequest W seq lSeid addr).1
    SessTable s' ∧ SameIds s s' ∧
      ∀ j sess, s'.lnode.sessOf j = some sess → s.lnode.sessOf j = some sess := by
  intro s'
  obtain ⟨hs, rsp, _, heq⟩ | ⟨sess, hs, heq⟩ :=
    handleSessionDeletionRequest_cases W s seq lSeid addr
  · have hs' : s' = s.sendRspTo W (.sessionDeletionResponse rsp) addr := congrArg Prod.fst heq
    rw [hs']
    refine ⟨h.table.sendRspTo W _ addr, sameIds_sendRspTo W s _ addr, fun j x hx => ?_⟩
    rw [sendRspTo_lnode] at hx
    exact hx
  · have hs' := congrArg Prod.fst heq
    dsimp only at hs'
    rw [show s' = _ from hs']
    refine ⟨(h.table.deleteSess W _ lSeid).sendRspTo W _ addr, ?_, fun j x hx => ?_⟩
    · exact (sameIds_deleteSess W s _ lSeid).trans (sameIds_sendRspTo W _ _ addr)
    · rw [sendRspTo_lnode, h.table.sessOf_deleteSess] at hx
      exact hx.1

theorem SameIds.length (h : SameIds s s') : s'.nodes.length = s.nodes.length := by
  have key : ∀ t u : PfcpServer, (∀ m, u.idOf m = t.idOf m) → t.nodes.length ≤ u.nodes.length := by
    intro t u hid
    by_contra hlt
    obtain ⟨k, hget⟩ := idOf_of_lt (s := t) (n := u.nodes.length) (by omega)
    rw [← hid] at hget
    exact absurd (idOf_lt hget) (by omega)
  have h1 := key s s' h.ids
  have h2 := key s' s fun m => (h.ids m).symm
  omega

/-- An association setup deletes the sessions of the node registered under its id, if there
    is one, and registers a new node there. -/
theorem Sound.setup (h : Sound s) (W : World) (rnodeid : String) (addr : Addr) :
    let s' := (s.deleteNode W rnodeid).addNode rnodeid addr
    SessTable s' ∧
      (∀ k, s'.rnodes.lookup k =
        if k = rnodeid then some s.nodes.length else s.rnodes.lookup k) ∧
      (∀ m, s'.idOf m = if m = s.nodes.length then some rnodeid else s.idOf m) ∧
      ∀ j sess, s'.lnode.sessOf j = some sess ↔
        s.lnode.sessOf j = some sess ∧ s.rnodes.lookup rnodeid ≠ some sess.rnode := by
  intro s'
  obtain ⟨t, ht, htab, hr, hids, hof⟩ : ∃ t, t = s.deleteNode W rnodeid ∧ SessTable t ∧
      (∀ k, k ≠ rnodeid → t.rnodes.lookup k = s.rnodes.lookup k) ∧
      (t.nodes.length = s.nodes.length ∧ ∀ m, t.idOf m = s.idOf m) ∧
      ∀ j sess, t.lnode.sessOf j = some sess ↔
        s.lnode.sessOf j = some sess ∧ s.rnodes.lookup rnodeid ≠ some sess.rnode := by
    refine ⟨s.deleteNode W rnodeid, rfl, ?_⟩
    unfold deleteNode
    split
    · rename_i hnone
      refine ⟨h.table, fun _ _ => rfl, ⟨rfl, fun _ => rfl⟩, fun j sess => ?_⟩
      rw [hnone]
      simp
    · rename_i n hn
      obtain ⟨hreset, _, hsess⟩ := h.table.reset W n
      obtain ⟨hrn, hid⟩ := rnodes_reset W s n
      have hsame : SameIds s (s.reset W n) := ⟨hrn, hid⟩
      refine ⟨hreset.congr rfl fun _ _ => Iff.rfl, fun k hk => ?_, ⟨hsame.length, hid⟩, ?_⟩
      · show ((s.reset W n).rnodes.erase rnodeid).lookup k = _
        rw [GoMap.lookup_erase_eq, if_neg hk, hrn]
      · intro j sess
        show (s.reset W n).lnode.sessOf j = some sess ↔ _
        rw [hsess, hn]
        refine and_congr_right fun _ => not_congr ?_
        exact ⟨fun e => congrArg some e.symm, fun e => (Option.some.inj e).symm⟩
  have hs' : s' = t.addNode rnodeid addr := by rw [ht]
  rw [hs']
  refine ⟨?_, ?_, ?_, ?_⟩
  · exact (htab.newNode rnodeid addr).congr rfl fun _ _ => Iff.rfl
  · intro k
    show (t.rnodes.insert rnodeid t.nodes.length).lookup k = _
    rw [GoMap.lookup_insert_eq, hids.1]
    split_ifs with e
    · rfl
    · exact hr k e
  · intro m
    rw [idOf_addNode, hids.1, hids.2]
  · exact hof

theorem Sound.handle (h : Sound s) (W : World) (r : Request) : Sound (s.handle W r) := by
  obtain ⟨msg, addr⟩ := r
  unfold PfcpServer.handle reqDispacher
  dsimp only
  split
  · rename_i seq
    exact h.sendRspTo W (.heartbeatResponse seq W.recoveryTime) addr
  · rename_i req
    obtain ⟨_, heq⟩ | ⟨rnodeid, rsp, _, heq⟩ := handleAssociationSetupRequest_cases W s req addr
    · rw [heq]
      exact h
    · rw [heq]
      obtain ⟨htab, hr, hid, _⟩ := h.setup W rnodeid addr
      refine Sound.sendRspTo ⟨htab, ?_⟩ W rsp addr
      intro k n hk
      rw [hr] at hk
      rw [hid]
      split_ifs at hk with e
      · cases hk
        rw [if_pos rfl, e]
      · have hn := h.registry k n hk
        have hlt := idOf_lt hn
        rw [if_neg (by omega)]
        exact hn
  · rename_i req
    obtain ⟨htab, hids, _⟩ := h.establishment W req addr
    exact ⟨htab, h.registry.congr hids.rnodes hids.ids⟩
  · rename_i req
    obtain ⟨htab, _, ⟨hids, _⟩ | ⟨sess, newId, hs, _, hids⟩⟩ := h.modification W req addr
    · exact ⟨htab, h.registry.congr hids.rnodes hids.ids⟩
    · refine ⟨htab, Registry.congr ?_ hids.rnodes hids.ids⟩
      have hn := h.table.rnode_lt hs
      obtain ⟨k, hk⟩ := idOf_of_lt hn
      intro x m hx
      rw [rnodes_updateNodeID s hk] at hx
      rw [idOf_updateNodeID s hn]
      split_ifs at hx with e1 e2
      · cases hx
        rw [if_pos rfl, e1]
      · have hm := h.registry x m hx
        rw [if_neg ?_]
        · exact hm
        · rintro rfl
          rw [hk] at hm
          exact e2 (Option.some.inj hm).symm
  · rename_i seq seid
    obtain ⟨htab, hids, _⟩ := h.deletion W seq seid addr
    exact ⟨htab, h.registry.congr hids.rnodes hids.ids⟩
  · exact h

/-! ## Ownership -/

/-- The server, with the id that each session was created under. -/
structure Tracked where
  server : PfcpServer
  createdUnder : Nat → Option String

def Tracked.new : Tracked := ⟨PfcpServer.new, fun _ => none⟩

/-- The server has become `s'`. A session that is new was created under the id of its node. -/
def Tracked.next (t : Tracked) (s' : PfcpServer) : Tracked where
  server := s'
  createdUnder j := (s'.rnodeOf j).bind fun n =>
    if (t.server.rnodeOf j).isSome then t.createdUnder j else s'.idOf n

def Tracked.handle (W : World) (t : Tracked) (r : Request) : Tracked :=
  t.next (t.server.handle W r)

/-- `rnodes[k].ID = k` for every key `k`; every live session has a node `n` with
    `rnodes[n.ID] = n`; and an association setup that is accepted deletes every session
    created under the id it names. -/
structure OwnedByAssociation (W : World) (t : Tracked) : Prop where
  keys : ∀ k n, t.server.rnodes.lookup k = some n → t.server.idOf n = some k
  owner : ∀ j n, t.server.rnodeOf j = some n →
    ∃ k, t.server.idOf n = some k ∧ t.server.rnodes.lookup k = some n
  setup : ∀ req addr k, setupNodeID req = some k → ∀ j, t.createdUnder j = some k →
    (t.server.handleAssociationSetupRequest W req addr).1.lnode.sessOf j = none

/-- A modification does not rename its session's node; other requests rename nothing. -/
def KeepsID (t : Tracked) (r : Request) : Prop :=
  match r.1 with
  | .sessionModificationRequest req => t.server.KeepsNodeID req
  | _ => True

/-- The node of every live session is registered under the id that the session was created under.
    No node is registered without an id. -/
structure Owned (t : Tracked) : Prop where
  named : t.server.rnodes.lookup "" = none
  sessions : ∀ j n, t.server.rnodeOf j = some n → ∃ k, t.createdUnder j = some k ∧
    t.server.idOf n = some k ∧ t.server.rnodes.lookup k = some n

variable {t : Tracked}

/-- An association setup deletes a session exactly if the session's node is registered under its
    id. -/
theorem Sound.setup_deletes_iff (h : Sound s) (W : World) {req : AssociationSetupRequest}
    {k : String} (hk : setupNodeID req = some k) (addr : Addr) (j : Nat) :
    (s.handleAssociationSetupRequest W req addr).1.lnode.sessOf j = none ↔
      ∀ n, s.rnodeOf j = some n → s.rnodes.lookup k = some n := by
  obtain ⟨hnone, _⟩ | ⟨rnodeid, rsp, hid, heq⟩ := handleAssociationSetupRequest_cases W s req addr
  · cases hnone.symm.trans hk
  obtain rfl := Option.some.inj (hid.symm.trans hk)
  obtain ⟨_, _, _, hof⟩ := h.setup W rnodeid addr
  rw [heq, sendRspTo_lnode, Option.eq_none_iff_forall_ne_some]
  constructor
  · intro hgone n hn
    obtain ⟨sess, hsess, rfl⟩ := Option.map_eq_some_iff.mp hn
    by_contra hne
    exact hgone sess ((hof j sess).mpr ⟨hsess, hne⟩)
  · intro hreg sess hsess
    obtain ⟨hold, hne⟩ := (hof j sess).mp hsess
    exact hne (hreg sess.rnode (congrArg (Option.map Sess.rnode) hold))

theorem Owned.ownedByAssociation (ho : Owned t) (h : Sound t.server) (W : World) :
    OwnedByAssociation W t := by
  refine ⟨h.registry, fun j n hn => ?_, fun req addr k hk j hcreated => ?_⟩
  · obtain ⟨k, -, hk⟩ := ho.sessions j n hn
    exact ⟨k, hk⟩
  · refine (h.setup_deletes_iff W hk addr j).mpr fun n hn => ?_
    obtain ⟨k', hk', -, hreg⟩ := ho.sessions j n hn
    obtain rfl := Option.some.inj (hk'.symm.trans hcreated)
    exact hreg

/-- Sessions stay owned if each was there before and keeps its registration, or is new and has a
    registered node. -/
theorem Owned.next (ho : Owned t) (hnamed : s'.rnodes.lookup "" = none)
    (hkept : ∀ j n, s'.rnodeOf j = some n →
      (t.server.rnodeOf j = some n ∧ ∀ k, t.server.idOf n = some k →
        t.server.rnodes.lookup k = some n → s'.idOf n = some k ∧ s'.rnodes.lookup k = some n) ∨
      t.server.rnodeOf j = none ∧ ∃ k, s'.idOf n = some k ∧ s'.rnodes.lookup k = some n) :
    Owned (t.next s') := by
  refine ⟨hnamed, fun j n (hj : s'.rnodeOf j = some n) => ?_⟩
  obtain ⟨hold, hsame⟩ | ⟨hnone, k, hk⟩ := hkept j n hj
  · obtain ⟨k, hcreated, hid, hreg⟩ := ho.sessions j n hold
    exact ⟨k, by simp [Tracked.next, hj, hold, hcreated], hsame k hid hreg⟩
  · exact ⟨k, by simp [Tracked.next, hj, hnone, hk.1], hk⟩

/-- The ids are as they were, and no session is new. -/
theorem Owned.next_of_sameIds (ho : Owned t) (hids : SameIds t.server s')
    (hsub : ∀ j n, s'.rnodeOf j = some n → t.server.rnodeOf j = some n) : Owned (t.next s') := by
  refine ho.next (by rw [hids.rnodes]; exact ho.named) fun j n hj => ?_
  refine .inl ⟨hsub j n hj, fun k hid hreg => ⟨(hids.ids n).trans hid, ?_⟩⟩
  rw [hids.rnodes]
  exact hreg

theorem Owned.setup (ho : Owned t) (h : Sound t.server) (W : World) (rnodeid : String)
    (hne : rnodeid ≠ "") (rsp : Message) (addr : Addr) :
    Owned (t.next (((t.server.deleteNode W rnodeid).addNode rnodeid addr).sendRspTo W rsp addr)) := by
  obtain ⟨_, hr, hid, hof⟩ := h.setup W rnodeid addr
  have hsame := sameIds_sendRspTo W ((t.server.deleteNode W rnodeid).addNode rnodeid addr) rsp addr
  refine ho.next ?_ fun j n hj => ?_
  · rw [hsame.rnodes, hr, if_neg (Ne.symm hne)]
    exact ho.named
  · unfold rnodeOf at hj
    rw [sendRspTo_lnode] at hj
    obtain ⟨sess, hsess, rfl⟩ := Option.map_eq_some_iff.mp hj
    obtain ⟨hold, hother⟩ := (hof j sess).mp hsess
    have hlt := h.table.rnode_lt hold
    refine .inl ⟨congrArg (Option.map Sess.rnode) hold, fun k hk hreg => ?_⟩
    rw [hsame.ids, hsame.rnodes, hid, hr, if_neg (by omega), if_neg]
    · exact ⟨hk, hreg⟩
    · rintro rfl
      exact hother hreg

theorem setupNodeID_ne {req : AssociationSetupRequest} {k : String} (h : setupNodeID req = some k) :
    k ≠ "" := by
  unfold setupNodeID at h
  split at h
  · cases h
  · split_ifs at h with hempty
    exact Option.some.inj h ▸ hempty

theorem Owned.establishment (ho : Owned t) (h : Sound t.server) (W : World)
    (req : SessionEstablishmentRequest) (addr : Addr) :
    Owned (t.next (t.server.handleSessionEstablishmentRequest W req addr).1) := by
  obtain ⟨_, hids, hof⟩ := h.establishment W req addr
  refine ho.next (by rw [hids.rnodes]; exact ho.named) fun j n hj => ?_
  have hkept : ∀ k, t.server.idOf n = some k → t.server.rnodes.lookup k = some n → _ ∧ _ :=
    fun k hid hreg => ⟨(hids.ids n).trans hid, (congrArg _ hids.rnodes).trans hreg⟩
  obtain hof | ⟨k, sess, id, hnew, hreg, hof⟩ := hof
  · exact .inl ⟨(congrArg (Option.map Sess.rnode) (hof j)).symm.trans hj, hkept⟩
  · unfold rnodeOf at hj
    rw [hof] at hj
    split_ifs at hj with e
    · obtain rfl := Option.some.inj hj
      exact .inr ⟨by rw [rnodeOf, e, hnew]; rfl, id, hkept id (h.registry id _ hreg) hreg⟩
    · exact .inl ⟨hj, hkept⟩

theorem Owned.modification (ho : Owned t) (h : Sound t.server) (W : World)
    (req : SessionModificationRequest) (addr : Addr) (hkeep : t.server.KeepsNodeID req) :
    Owned (t.next (t.server.handleSessionModificationRequest W req addr).1) := by
  obtain ⟨_, hrn, ⟨hids, -⟩ | ⟨sess, newId, hs, hid, hids⟩⟩ := h.modification W req addr
  · exact ho.next_of_sameIds hids fun j n hj => (hrn j).symm.trans hj
  · rw [(updateNodeID_eq_self_iff _ _ _).mpr (hkeep sess newId hs hid)] at hids
    exact ho.next_of_sameIds hids fun j n hj => (hrn j).symm.trans hj

theorem Owned.deletion (ho : Owned t) (h : Sound t.server) (W : World) (seq : UInt32)
    (lSeid : Nat) (addr : Addr) :
    Owned (t.next (t.server.handleSessionDeletionRequest W seq lSeid addr).1) := by
  obtain ⟨_, hids, hof⟩ := h.deletion W seq lSeid addr
  refine ho.next_of_sameIds hids fun j n hj => ?_
  obtain ⟨sess, hsess, rfl⟩ := Option.map_eq_some_iff.mp hj
  exact congrArg (Option.map Sess.rnode) (hof j sess hsess)

/-- A request that does not rename keeps every session owned. -/
theorem Owned.handle (ho : Owned t) (h : Sound t.server) (W : World) (r : Request)
    (hkeep : KeepsID t r) : Owned (t.handle W r) := by
  obtain ⟨msg, addr⟩ := r
  unfold KeepsID at hkeep
  unfold Tracked.handle PfcpServer.handle reqDispacher
  dsimp only at hkeep ⊢
  split
  · rename_i seq
    let rsp : Message := .heartbeatResponse seq W.recoveryTime
    have hids := sameIds_sendRspTo W t.server rsp addr
    have hlnode := sendRspTo_lnode W t.server rsp addr
    refine ho.next_of_sameIds hids fun j n hj => ?_
    unfold rnodeOf at hj ⊢
    exact hlnode ▸ hj
  · rename_i req
    obtain ⟨_, heq⟩ | ⟨rnodeid, rsp, hid, heq⟩ :=
      handleAssociationSetupRequest_cases W t.server req addr
    · rw [heq]
      exact ho.next_of_sameIds ⟨rfl, fun _ => rfl⟩ fun _ _ hj => hj
    · rw [heq]
      exact ho.setup h W rnodeid (setupNodeID_ne hid) rsp addr
  · exact ho.establishment h W _ addr
  · exact ho.modification h W _ addr hkeep
  · exact ho.deletion h W _ _ addr
  · exact ho.next_of_sameIds ⟨rfl, fun _ => rfl⟩ fun _ _ hj => hj

/-- Only a request that does not rename leaves every session to the setups of the id that it was
    created under. -/
theorem keepsID_of_ownedByAssociation (ho : Owned t) (h : Sound t.server) (W : World) (r : Request)
    (hown : OwnedByAssociation W (t.handle W r)) : KeepsID t r := by
  obtain ⟨msg, addr⟩ := r
  unfold KeepsID
  dsimp only
  split
  · rename_i req
    intro sess newId hs hid node hnode
    have hrn : t.server.rnodeOf req.seid = some sess.rnode := congrArg (Option.map Sess.rnode) hs
    obtain ⟨k, hcreated, hk, hreg⟩ := ho.sessions _ _ hrn
    -- a setup for the id that the session was created under
    have hk' : setupNodeID ⟨0, some (some k), some true⟩ = some k := by
      have hne : k ≠ "" := fun e => by rw [e, ho.named] at hreg; cases hreg
      simp [setupNodeID, hne]
    obtain ⟨_, hafter, ⟨_, hno⟩ | ⟨sess', newId', hs', hid', hids⟩⟩ := h.modification W req addr
    · exact absurd hid (hno sess newId hs)
    obtain rfl := Option.some.inj (hs.symm.trans hs')
    obtain rfl := Option.some.inj (Option.some.inj (hid.symm.trans hid'))
    have hrn' := (hafter req.seid).trans hrn
    have hdeleted := hown.setup _ addr k hk' req.seid
      (by simp [Tracked.handle, Tracked.next, PfcpServer.handle, reqDispacher, hrn', hrn, hcreated])
    have hlookup := ((h.handle W _).setup_deletes_iff W hk' addr _).mp hdeleted _ hrn'
    have hsame := hids.ids sess.rnode
    rw [idOf_updateNodeID _ (h.table.rnode_lt hs), if_pos rfl] at hsame
    obtain rfl := Option.some.inj (((h.handle W _).registry _ _ hlookup).symm.trans hsame)
    rw [idOf, hnode] at hk
    exact ⟨Option.some.inj hk, hreg⟩
  · trivial

/-- Along a run of requests every live session stays owned by the association that it was created
    under exactly when no modification of the run renames its session's node. -/
theorem ownedByAssociation_iff_keepsID (W : World) (rs : List Request) :
    (∀ n, OwnedByAssociation W ((rs.take n).foldl (Tracked.handle W) Tracked.new)) ↔
      StepsMeet (Tracked.handle W) KeepsID Tracked.new rs := by
  refine forall_take_iff_stepsMeet_of_gives (fun t => Sound t.server ∧ Owned t) _
    (fun t h => h.2.ownedByAssociation h.1 W) (fun t r h => ?_) rs ⟨sound_new, rfl, ?_⟩
  · exact ⟨fun hkeep => ⟨h.1.handle W r, h.2.handle h.1 W r hkeep⟩,
      keepsID_of_ownedByAssociation h.2 h.1 W r⟩
  · intro j n hj
    obtain ⟨sess, hsess, _⟩ := Option.map_eq_some_iff.mp hj
    obtain ⟨i, _, hi⟩ := LocalNode.sessOf_eq_some.mp hsess
    simp [Tracked.new, PfcpServer.new] at hi

/-- A session of `smf1` is taken over by `smf2`, which has an association and a session of
    its own: that session's node is no longer registered. -/
theorem takeover_orphans_session :
    let W := World.isolated fun _ => Answer.done
    let takeover : Message := .sessionModificationRequest
      { SessionModificationRequest.empty 3 1 with nodeID := some (some "smf2") }
    ¬ OwnedByAssociation W ((twoAssociations ++ [(takeover, "10.0.0.2:8805")]).foldl
      (Tracked.handle W) Tracked.new) := by
  intro W takeover
  generalize hrun : (twoAssociations ++ [(takeover, "10.0.0.2:8805")]).foldl
    (Tracked.handle W) Tracked.new = t
  have hfacts : t.server.rnodeOf 2 = some 1 ∧ t.server.idOf 1 = some "smf2" ∧
      t.server.rnodes.lookup "smf2" = some 0 := by
    rw [← hrun]
    decide +kernel
  intro h
  obtain ⟨k, hid, hreg⟩ := h.owner 2 1 hfacts.1
  obtain rfl := Option.some.inj (hfacts.2.1.symm.trans hid)
  cases hfacts.2.2.symm.trans hreg

end Free5gc.Upf.PfcpServer
