/-
  The session table. `SessTable` ties the three structures that the operations keep in step
  by hand: the slots of `LocalNode.sess`, the free list, and the `sess` sets of the remote
  nodes. It holds initially and every operation keeps it, so local SEIDs are never aliased:
  a new session gets an SEID that no live session has, and a node reaches its own sessions
  only.

  Each operation has one lemma that says what it does to `sessOf` and `Owns`; the proofs
  about runs and handlers use these.
-/
import Free5gc.Lib.FreeList
import Free5gc.Lib.Run
import Free5gc.Upf.Pfcp.Handlers

namespace Free5gc.Upf

open Free5gc.Lib

/-! ## Slots -/

variable {n : LocalNode}

theorem LocalNode.sessOf_eq_some {lSeid : Nat} {sess : Sess} :
    n.sessOf lSeid = some sess ↔ ∃ j, lSeid = j + 1 ∧ n.sess[j]? = some (some sess) := by
  unfold LocalNode.sessOf
  split_ifs with h
  · subst h
    simp
  · rw [Option.join_eq_some_iff]
    constructor
    · intro hs
      exact ⟨lSeid - 1, by omega, hs⟩
    · rintro ⟨j, rfl, hs⟩
      exact hs

theorem LocalNode.sessOf_succ (n : LocalNode) (j : Nat) : n.sessOf (j + 1) = n.sess[j]?.join := by
  unfold LocalNode.sessOf
  rw [if_neg (Nat.succ_ne_zero j), Nat.add_sub_cancel]

theorem LocalNode.sessOf_zero (n : LocalNode) : n.sessOf 0 = none := rfl

/-- Overwriting slot `j` changes what SEID `j + 1` names, and nothing else. -/
theorem LocalNode.sessOf_set {j : Nat} (hj : j < n.sess.length) (x : Option Sess) (free : List Nat)
    (k : Nat) :
    LocalNode.sessOf ⟨n.sess.set j x, free⟩ k = if k = j + 1 then x else n.sessOf k := by
  rcases Nat.eq_zero_or_eq_succ_pred k with h0 | hk
  · rw [h0, LocalNode.sessOf_zero, LocalNode.sessOf_zero, if_neg (by omega)]
  · rw [hk, LocalNode.sessOf_succ, LocalNode.sessOf_succ]
    dsimp only
    split_ifs with e
    · rw [Nat.succ.inj e, List.getElem?_set_self hj]
      rfl
    · rw [List.getElem?_set_ne (by omega)]

/-- Appending a slot changes what the next SEID names, and nothing else. -/
theorem LocalNode.sessOf_append (n : LocalNode) (sess : Sess) (free : List Nat) (k : Nat) :
    LocalNode.sessOf ⟨n.sess ++ [some sess], free⟩ k =
      if k = n.sess.length + 1 then some sess else n.sessOf k := by
  rcases Nat.eq_zero_or_eq_succ_pred k with h0 | hk
  · rw [h0, LocalNode.sessOf_zero, LocalNode.sessOf_zero, if_neg (by omega)]
  · rw [hk, LocalNode.sessOf_succ, LocalNode.sessOf_succ]
    dsimp only
    split_ifs with e
    · rw [Nat.succ.inj e]
      simp
    · rcases Nat.lt_or_ge k.pred n.sess.length with hlt | hge
      · rw [List.getElem?_append_left hlt]
      · have hle : (n.sess ++ [some sess]).length ≤ k.pred := by
          rw [List.length_append, List.length_singleton]
          omega
        rw [List.getElem?_eq_none hle, List.getElem?_eq_none hge]

/-- What `LocalNode.NewSess` does on an exact free list: a fresh session under an SEID that
    named none. -/
theorem LocalNode.newSess_spec (h : FreeExact n.sess n.free) (rnode rSeid : Nat) :
    let r := n.newSess rnode rSeid
    r.2 = Sess.new rnode r.2.localID rSeid ∧ 0 < r.2.localID ∧
      n.sessOf r.2.localID = none ∧ FreeExact r.1.sess r.1.free ∧
      ∀ k, r.1.sessOf k = if k = r.2.localID then some r.2 else n.sessOf k := by
  intro r
  rcases List.eq_nil_or_concat n.free with hf | ⟨fs, i, hf⟩
  · have hr : r = ({ n with sess := n.sess ++ [some (Sess.new rnode (n.sess.length + 1) rSeid)] },
        Sess.new rnode (n.sess.length + 1) rSeid) := by
      show n.newSess rnode rSeid = _
      unfold LocalNode.newSess
      rw [hf]
      rfl
    rw [hr]
    refine ⟨rfl, Nat.succ_pos _, ?_, ?_, ?_⟩
    · show n.sessOf (n.sess.length + 1) = none
      rw [LocalNode.sessOf_succ, List.getElem?_eq_none (Nat.le_refl _)]
      rfl
    · show FreeExact (n.sess ++ _) n.free
      rw [hf] at h ⊢
      exact h.grow _
    · intro k
      exact n.sessOf_append _ _ k
  · rw [List.concat_eq_append] at hf
    rw [hf] at h
    obtain ⟨j, rfl⟩ := h.pos_of_mem (i := i) (by simp)
    have hslot : n.sess[j]? = some none := h.slot_of_mem (by simp)
    have hlt : j < n.sess.length := (List.getElem?_eq_some_iff.mp hslot).1
    have hr : r = (⟨n.sess.set j (some (Sess.new rnode (j + 1) rSeid)), fs⟩,
        Sess.new rnode (j + 1) rSeid) := by
      show n.newSess rnode rSeid = _
      unfold LocalNode.newSess
      rw [hf, List.getLast?_concat, List.dropLast_concat]
      rfl
    rw [hr]
    refine ⟨rfl, Nat.succ_pos _, ?_, h.take _, ?_⟩
    · show n.sessOf (j + 1) = none
      rw [LocalNode.sessOf_succ, hslot]
      rfl
    · intro k
      exact LocalNode.sessOf_set hlt _ _ k

namespace PfcpServer

/-! ## The nodes' sets -/

/-- Node `n` has `lSeid` in its `sess` set. -/
def Owns (s : PfcpServer) (n lSeid : Nat) : Prop :=
  ∃ node, s.nodes[n]? = some node ∧ lSeid ∈ node.sess

variable {s : PfcpServer} {n k : Nat} {sess : Sess}

variable (W : World)

theorem owns_modify {s' : PfcpServer} {f : RemoteNode → RemoteNode}
    (h : s'.nodes = s.nodes.modify n f) (m k : Nat) :
    s'.Owns m k ↔
      if m = n then ∃ node, s.nodes[n]? = some node ∧ k ∈ (f node).sess else s.Owns m k := by
  unfold Owns
  rw [h, List.getElem?_modify]
  by_cases e : m = n
  · subst e
    simp
  · have e' : n ≠ m := fun x => e x.symm
    simp [e, e']

theorem owns_newSess (s : PfcpServer) (hn : n < s.nodes.length) (rSeid m k : Nat) :
    (s.newSess n rSeid).1.Owns m k ↔
      s.Owns m k ∨ m = n ∧ k = (s.newSess n rSeid).2.localID := by
  rw [owns_modify (s := s) rfl]
  obtain ⟨node, hnode⟩ : ∃ node, s.nodes[n]? = some node := ⟨_, List.getElem?_eq_getElem hn⟩
  split_ifs with e
  · subst e
    unfold Owns
    simp only [hnode, Option.some.injEq, exists_eq_left', Finset.mem_insert, true_and]
    exact or_comm
  · simp [e]

theorem owns_dropSess (s : PfcpServer) (n lSeid m k : Nat) :
    (s.dropSess n lSeid).Owns m k ↔ s.Owns m k ∧ ¬ (m = n ∧ k = lSeid) := by
  rw [owns_modify (s := s) rfl]
  split_ifs with e
  · subst e
    unfold Owns
    simp only [Finset.mem_erase, true_and]
    constructor
    · rintro ⟨node, hnode, hne, hk⟩
      exact ⟨⟨node, hnode, hk⟩, hne⟩
    · rintro ⟨⟨node, hnode, hk⟩, hne⟩
      exact ⟨node, hnode, hne, hk⟩
  · simp [e]

theorem owns_updateNodeID (s : PfcpServer) (n : Nat) (newId : String) (m k : Nat) :
    (s.updateNodeID n newId).Owns m k ↔ s.Owns m k := by
  unfold updateNodeID
  split
  · exact Iff.rfl
  · rename_i node hnode
    rw [owns_modify (s := s) rfl]
    split_ifs with e
    · rw [e]
      rfl
    · exact Iff.rfl

theorem owns_newNode (s : PfcpServer) (id : String) (addr : Addr) (m k : Nat) :
    (s.newNode id addr).1.Owns m k ↔ s.Owns m k := by
  unfold Owns newNode
  dsimp only
  rcases Nat.lt_or_ge m s.nodes.length with hlt | hge
  · rw [List.getElem?_append_left hlt]
  · rw [List.getElem?_append_right hge, List.getElem?_eq_none hge]
    constructor
    · rintro ⟨node, hnode, hk⟩
      rw [List.getElem?_singleton] at hnode
      split_ifs at hnode
      cases hnode
      exact absurd hk (Finset.notMem_empty k)
    · rintro ⟨node, hnode, _⟩
      cases hnode

/-! ## The invariant -/

/-- The session table is in order: the free list holds exactly the numbers of the empty
    slots, once each; the session in slot `i` has SEID `i + 1`; and a live SEID is in the
    `sess` set of the session's own node and of no other, and these sets hold nothing
    else. -/
structure SessTable (s : PfcpServer) : Prop where
  free : FreeExact s.lnode.sess s.lnode.free
  localID : ∀ k sess, s.lnode.sessOf k = some sess → sess.localID = k
  owner : ∀ n k, s.Owns n k ↔ ∃ sess, s.lnode.sessOf k = some sess ∧ sess.rnode = n

theorem sessOf_new (k : Nat) : PfcpServer.new.lnode.sessOf k = none := by
  rcases Nat.eq_zero_or_eq_succ_pred k with h0 | hk
  · rw [h0, LocalNode.sessOf_zero]
  · rw [hk, LocalNode.sessOf_succ]
    rfl

theorem sessTable_new : SessTable PfcpServer.new where
  free := freeExact_nil
  localID := by
    intro k sess h
    rw [sessOf_new] at h
    cases h
  owner := by
    intro n k
    rw [sessOf_new]
    constructor
    · rintro ⟨node, hnode, _⟩
      simp [PfcpServer.new] at hnode
    · rintro ⟨sess, h, _⟩
      cases h

/-- The invariant reads the session table and the nodes only. -/
theorem SessTable.congr {s' : PfcpServer} (h : SessTable s) (hl : s'.lnode = s.lnode)
    (hn : ∀ n k, s'.Owns n k ↔ s.Owns n k) : SessTable s' where
  free := by rw [hl]; exact h.free
  localID := by rw [hl]; exact h.localID
  owner := by
    intro n k
    rw [hn, hl]
    exact h.owner n k

/-- The node of a live session exists. -/
theorem SessTable.rnode_lt (h : SessTable s) (hs : s.lnode.sessOf k = some sess) :
    sess.rnode < s.nodes.length := by
  obtain ⟨node, hnode, _⟩ := (h.owner sess.rnode k).mpr ⟨sess, hs, rfl⟩
  exact (List.getElem?_eq_some_iff.mp hnode).1

theorem SessTable.newSess (h : SessTable s) (hn : n < s.nodes.length) (rSeid : Nat) :
    SessTable (s.newSess n rSeid).1 := by
  obtain ⟨hsess, _, hfresh, hfree, hof⟩ := LocalNode.newSess_spec h.free n rSeid
  refine ⟨hfree, ?_, ?_⟩
  · intro k sess hk
    replace hk : (s.lnode.newSess n rSeid).1.sessOf k = some sess := hk
    rw [hof] at hk
    split_ifs at hk with e
    · cases hk
      exact e.symm
    · exact h.localID k sess hk
  · intro m k
    rw [owns_newSess s hn, h.owner]
    show _ ↔ ∃ sess, (s.lnode.newSess n rSeid).1.sessOf k = some sess ∧ _
    rw [hof]
    split_ifs with e
    · have hnew : (s.lnode.newSess n rSeid).2.rnode = n := by
        rw [hsess]
        rfl
      constructor
      · rintro (⟨sess, hs, _⟩ | ⟨rfl, _⟩)
        · rw [e, hfresh] at hs
          cases hs
        · exact ⟨_, rfl, hnew⟩
      · rintro ⟨sess, hs, hm⟩
        cases hs
        exact Or.inr ⟨by rw [← hm, hnew], e⟩
    · constructor
      · rintro (hs | ⟨_, hk⟩)
        · exact hs
        · exact absurd hk e
      · exact Or.inl

/-! ### Deletion -/

/-- A node deletes nothing under an SEID that it does not own. -/
theorem deleteSess_of_not_owns (h : ¬ s.Owns n k) :
    s.deleteSess W n k = (s, [], none) := by
  unfold deleteSess
  split
  · rfl
  · rename_i node hnode
    rw [if_neg (fun hk => h ⟨node, hnode, hk⟩)]

/-- The server after the session `sess` under SEID `k` of node `n` was closed. -/
def closed (W : World) (s : PfcpServer) (n k : Nat) (sess : Sess) : PfcpServer :=
  { s.dropSess n k with
    driver := (sess.close W.toOracle s.driver).1
    lnode := { sess := s.lnode.sess.set (k - 1) none, free := s.lnode.free ++ [k] } }

/-- A node that owns an SEID closes its own session. -/
theorem SessTable.deleteSess_of_owns (h : SessTable s) (W : World) (ho : s.Owns n k) :
    ∃ sess, s.lnode.sessOf k = some sess ∧ sess.rnode = n ∧
      s.deleteSess W n k = (s.closed W n k sess, (sess.close W.toOracle s.driver).2.2,
        some (sess.close W.toOracle s.driver).2.1) := by
  obtain ⟨sess, hs, hr⟩ := (h.owner n k).mp ho
  obtain ⟨node, hnode, hk⟩ := ho
  refine ⟨sess, hs, hr, ?_⟩
  have hs' : (s.dropSess n k).lnode.sessOf k = some sess := hs
  unfold deleteSess localDeleteSess
  rw [hnode]
  dsimp only
  rw [if_pos hk, hs']
  rfl

theorem sessOf_closed (hs : s.lnode.sessOf k = some sess) (j : Nat) :
    (s.closed W n k sess).lnode.sessOf j = if j = k then none else s.lnode.sessOf j := by
  obtain ⟨i, rfl, hi⟩ := LocalNode.sessOf_eq_some.mp hs
  have hlt : i < s.lnode.sess.length := (List.getElem?_eq_some_iff.mp hi).1
  exact LocalNode.sessOf_set hlt none _ j

section

variable (h : SessTable s)

include h

theorem SessTable.closed (W : World) (hs : s.lnode.sessOf k = some sess) :
    SessTable (s.closed W sess.rnode k sess) := by
  obtain ⟨i, rfl, hi⟩ := LocalNode.sessOf_eq_some.mp hs
  refine ⟨h.free.release hi, ?_, ?_⟩
  · intro j sess' hj
    rw [sessOf_closed W hs] at hj
    split_ifs at hj with e
    exact h.localID j sess' hj
  · intro m j
    have hdrop : (s.closed W sess.rnode (i + 1) sess).Owns m j ↔
        (s.dropSess sess.rnode (i + 1)).Owns m j := Iff.rfl
    rw [hdrop, owns_dropSess, h.owner, sessOf_closed W hs]
    split_ifs with e
    · subst e
      constructor
      · rintro ⟨⟨sess', hs', hm⟩, hne⟩
        rw [hs] at hs'
        cases hs'
        exact absurd ⟨hm.symm, rfl⟩ hne
      · rintro ⟨sess', hs', _⟩
        cases hs'
    · constructor
      · intro hm
        exact hm.1
      · intro hm
        exact ⟨hm, fun x => e x.2⟩

theorem SessTable.deleteSess (W : World) (n k : Nat) :
    SessTable (s.deleteSess W n k).1 := by
  by_cases ho : s.Owns n k
  · obtain ⟨sess, hs, rfl, heq⟩ := h.deleteSess_of_owns W ho
    rw [heq]
    exact h.closed W hs
  · rw [deleteSess_of_not_owns W ho]
    exact h

/-- A deletion keeps every session but the node's own under that SEID. -/
theorem SessTable.sessOf_deleteSess (W : World) (n k j : Nat) (sess : Sess) :
    (s.deleteSess W n k).1.lnode.sessOf j = some sess ↔
      s.lnode.sessOf j = some sess ∧ ¬ (sess.rnode = n ∧ j = k) := by
  by_cases ho : s.Owns n k
  · obtain ⟨sess', hs', hr, heq⟩ := h.deleteSess_of_owns W ho
    rw [heq, sessOf_closed W hs']
    split_ifs with e
    · subst e
      rw [hs']
      constructor
      · intro hx
        cases hx
      · rintro ⟨hx, hne⟩
        cases hx
        exact absurd ⟨hr, rfl⟩ hne
    · simp [e]
  · rw [deleteSess_of_not_owns W ho]
    refine ⟨fun hs => ⟨hs, ?_⟩, fun hs => hs.1⟩
    rintro ⟨hr, rfl⟩
    exact ho ((h.owner n j).mpr ⟨sess, hs, hr⟩)

theorem SessTable.owns_deleteSess (W : World) (n k m j : Nat) :
    (s.deleteSess W n k).1.Owns m j ↔ s.Owns m j ∧ ¬ (m = n ∧ j = k) := by
  by_cases ho : s.Owns n k
  · obtain ⟨sess, hs, _, heq⟩ := h.deleteSess_of_owns W ho
    rw [heq]
    exact owns_dropSess s n k m j
  · rw [deleteSess_of_not_owns W ho]
    constructor
    · intro hm
      refine ⟨hm, ?_⟩
      rintro ⟨rfl, rfl⟩
      exact ho hm
    · exact fun hm => hm.1

/-- The loop of `Reset`: it keeps the table and deletes the node's sessions under the SEIDs
    it visits. -/
theorem SessTable.deleteAll (W : World) (n : Nat) (ks : List Nat) :
    let s' := ks.foldl (fun s k => (s.deleteSess W n k).1) s
    SessTable s' ∧ (∀ m j, s'.Owns m j ↔ s.Owns m j ∧ ¬ (m = n ∧ j ∈ ks)) ∧
      ∀ j sess, s'.lnode.sessOf j = some sess ↔
        s.lnode.sessOf j = some sess ∧ ¬ (sess.rnode = n ∧ j ∈ ks) := by
  induction ks generalizing s with
  | nil => simp [h]
  | cons k ks ih =>
    obtain ⟨h1, h2, h3⟩ := ih (h.deleteSess W n k)
    refine ⟨h1, ?_, ?_⟩
    · intro m j
      rw [List.foldl_cons, h2, h.owns_deleteSess, List.mem_cons]
      tauto
    · intro j sess
      rw [List.foldl_cons, h3, h.sessOf_deleteSess, List.mem_cons]
      tauto

/-- `Reset` deletes every session of its node and no other. -/
theorem SessTable.reset (W : World) (n : Nat) :
    SessTable (s.reset W n) ∧ (∀ m j, (s.reset W n).Owns m j ↔ s.Owns m j ∧ m ≠ n) ∧
      ∀ j sess, (s.reset W n).lnode.sessOf j = some sess ↔
        s.lnode.sessOf j = some sess ∧ sess.rnode ≠ n := by
  unfold PfcpServer.reset
  split
  · rename_i hnone
    have hno : ∀ j, ¬ s.Owns n j := by
      rintro j ⟨node, hnode, _⟩
      rw [hnone] at hnode
      cases hnode
    refine ⟨h, ?_, ?_⟩
    · intro m j
      refine ⟨fun hm => ⟨hm, ?_⟩, fun hm => hm.1⟩
      rintro rfl
      exact hno j hm
    · intro j sess
      refine ⟨fun hs => ⟨hs, ?_⟩, fun hs => hs.1⟩
      rintro rfl
      exact hno j ((h.owner _ j).mpr ⟨sess, hs, rfl⟩)
  · rename_i node hnode
    dsimp only
    have howns : ∀ j, s.Owns n j ↔ j ∈ W.seids.keys s.driver.ranges node.sess := by
      intro j
      rw [W.seids.mem_keys]
      unfold Owns
      simp [hnode]
    have h0 : SessTable { s with driver := s.driver.range } := h.congr rfl fun _ _ => Iff.rfl
    obtain ⟨h1, h2, h3⟩ := h0.deleteAll W n (W.seids.keys s.driver.ranges node.sess)
    generalize List.foldl _ _ _ = s' at h1 h2 h3 ⊢
    have h2' : ∀ m j, s'.Owns m j ↔ s.Owns m j ∧ m ≠ n := by
      intro m j
      rw [h2, ← howns]
      show s.Owns m j ∧ _ ↔ _
      constructor
      · rintro ⟨hm, hne⟩
        refine ⟨hm, ?_⟩
        rintro rfl
        exact hne ⟨rfl, hm⟩
      · rintro ⟨hm, hne⟩
        exact ⟨hm, fun x => hne x.1⟩
    -- the node's set is already empty when it is replaced by a new one
    have hset : ∀ m j, ({ s' with nodes := s'.nodes.modify n fun node =>
        { node with sess := ∅ } } : PfcpServer).Owns m j ↔ s'.Owns m j := by
      intro m j
      rw [owns_modify (s := s') rfl]
      split_ifs with e
      · rw [e, h2']
        simp
      · exact Iff.rfl
    refine ⟨h1.congr rfl hset, ?_, ?_⟩
    · intro m j
      rw [hset, h2']
    · intro j sess
      show s'.lnode.sessOf j = some sess ↔ _
      rw [h3, ← howns]
      show s.lnode.sessOf j = some sess ∧ _ ↔ _
      refine ⟨fun hs => ⟨hs.1, fun hr => hs.2 ⟨hr, ?_⟩⟩, fun hs => ⟨hs.1, fun x => hs.2 x.1⟩⟩
      exact (h.owner n j).mpr ⟨sess, hs.1, hr⟩

theorem SessTable.updateNodeID (n : Nat) (newId : String) :
    SessTable (s.updateNodeID n newId) := by
  refine h.congr ?_ (owns_updateNodeID s n newId)
  unfold PfcpServer.updateNodeID
  split
  · rfl
  · rfl

theorem SessTable.newNode (id : String) (addr : Addr) :
    SessTable (s.newNode id addr).1 :=
  h.congr rfl (owns_newNode s id addr)

/-! ### Writing a session back -/

/-- Writing back a session under its own SEID replaces it there. -/
theorem SessTable.sessOf_setSess {old : Sess} (hs : s.lnode.sessOf k = some old)
    (hid : sess.localID = old.localID) (j : Nat) :
    (s.setSess sess).lnode.sessOf j = if j = k then some sess else s.lnode.sessOf j := by
  have hk : old.localID = k := h.localID k old hs
  obtain ⟨i, rfl, hi⟩ := LocalNode.sessOf_eq_some.mp hs
  have hlt : i < s.lnode.sess.length := (List.getElem?_eq_some_iff.mp hi).1
  have hi' : sess.localID - 1 = i := by
    rw [hid, hk]
    rfl
  have hset : (s.setSess sess).lnode = ⟨s.lnode.sess.set i (some sess), s.lnode.free⟩ := by
    unfold PfcpServer.setSess
    rw [hi']
  rw [hset]
  exact LocalNode.sessOf_set hlt _ _ j

theorem SessTable.setSess {old : Sess} (hs : s.lnode.sessOf k = some old)
    (hid : sess.localID = old.localID) (hr : sess.rnode = old.rnode) :
    SessTable (s.setSess sess) := by
  have hof := h.sessOf_setSess hs hid
  have hk : old.localID = k := h.localID k old hs
  refine ⟨?_, ?_, ?_⟩
  · obtain ⟨i, rfl, hi⟩ := LocalNode.sessOf_eq_some.mp hs
    have hi' : sess.localID - 1 = i := by
      rw [hid, hk]
      rfl
    show FreeExact (s.lnode.sess.set (sess.localID - 1) (some sess)) s.lnode.free
    rw [hi']
    exact h.free.overwrite hi sess
  · intro j sess' hj
    rw [hof] at hj
    split_ifs at hj with e
    · cases hj
      rw [hid, hk, e]
    · exact h.localID j sess' hj
  · intro n j
    have howns : (s.setSess sess).Owns n j ↔ s.Owns n j := Iff.rfl
    rw [howns, h.owner, hof]
    split_ifs with e
    · rw [e, hs]
      simp [hr]
    · exact Iff.rfl

/-! ### Handlers

The table goes through the handlers by the operations above. -/

theorem SessTable.sendRspTo (W : World) (msg : Message) (addr : Addr) :
    SessTable (s.sendRspTo W msg addr) := by
  refine h.congr (sendRspTo_lnode W s msg addr) fun n k => ?_
  unfold Owns
  rw [sendRspTo_nodes]

theorem SessTable.withDriver (g : Gtp5g) : SessTable { s with driver := g } :=
  h.congr rfl fun _ _ => Iff.rfl

/-- A new session is the one under its SEID; the others are as they were. -/
theorem SessTable.sessOf_newSess (n rSeid k : Nat) :
    (s.newSess n rSeid).1.lnode.sessOf k =
      if k = (s.newSess n rSeid).2.localID then some (s.newSess n rSeid).2
      else s.lnode.sessOf k :=
  (LocalNode.newSess_spec h.free n rSeid).2.2.2.2 k

theorem SessTable.newSess_rnode (n rSeid : Nat) :
    (s.newSess n rSeid).2.rnode = n := by
  have e := (LocalNode.newSess_spec h.free n rSeid).1
  exact congrArg Sess.rnode e

end

/-! ## Runs -/

/-- The operations on the session table and the nodes. `n` is a node that exists. -/
inductive NodeOp where
  | newNode (id : String) (addr : Addr)
  | newSess (n : Nat) (rSeid : Nat)
  | deleteSess (n : Nat) (lSeid : Nat)
  | reset (n : Nat)
  | updateNodeID (n : Nat) (newId : String)

/-- Run one operation. There is no pointer to a node that does not exist: an operation on
    one is none. -/
def NodeOp.apply (W : World) (s : PfcpServer) : NodeOp → PfcpServer
  | .newNode id addr => (s.newNode id addr).1
  | .newSess n rSeid => if n < s.nodes.length then (s.newSess n rSeid).1 else s
  | .deleteSess n lSeid => (s.deleteSess W n lSeid).1
  | .reset n => s.reset W n
  | .updateNodeID n newId => s.updateNodeID n newId

theorem SessTable.apply (h : SessTable s) (W : World) (op : NodeOp) : SessTable (op.apply W s) := by
  cases op with
  | newNode id addr => exact h.newNode id addr
  | newSess n rSeid =>
    unfold NodeOp.apply
    dsimp only
    split_ifs with hn
    · exact h.newSess hn rSeid
    · exact h
  | deleteSess n lSeid => exact h.deleteSess W n lSeid
  | reset n => exact (h.reset W n).1
  | updateNodeID n newId => exact h.updateNodeID n newId

theorem sessTable_run (ops : List NodeOp) :
    SessTable (ops.foldl (NodeOp.apply W) PfcpServer.new) :=
  foldl_inv SessTable (fun _ op h => h.apply W op) ops sessTable_new

/-- A new session's SEID names no live session. -/
theorem SessTable.newSess_fresh (h : SessTable s) (n rSeid : Nat) :
    s.lnode.sessOf (s.newSess n rSeid).2.localID = none :=
  (LocalNode.newSess_spec h.free n rSeid).2.2.1

/-- A node finds its own sessions only. -/
theorem SessTable.nodeSess_own (h : SessTable s) (hs : s.nodeSess n k = some sess) :
    sess.rnode = n ∧ sess.localID = k := by
  unfold nodeSess at hs
  split at hs
  · cases hs
  · rename_i node hnode
    split_ifs at hs with hk
    obtain ⟨sess', hs', hr⟩ := (h.owner n k).mp ⟨node, hnode, hk⟩
    rw [hs] at hs'
    cases hs'
    exact ⟨hr, h.localID k sess hs⟩

/-- Local SEIDs are never aliased. After every run of operations the free list is exact,
    every live session has the SEID of its slot and is in the set of its own node only; so
    a new session gets an SEID that is not live, a node finds its own sessions only, and a
    deletion through a node leaves the other nodes' sessions as they are. -/
theorem seids_never_alias (W : World) (ops : List NodeOp) :
    let s := ops.foldl (NodeOp.apply W) PfcpServer.new
    (s.lnode.free.Nodup ∧
      ∀ i, i ∈ s.lnode.free ↔ ∃ j, i = j + 1 ∧ s.lnode.sess[j]? = some none) ∧
    (∀ i sess, s.lnode.sess[i]? = some (some sess) →
      sess.localID = i + 1 ∧ ∀ n, s.Owns n (i + 1) ↔ n = sess.rnode) ∧
    (∀ n rSeid, s.lnode.sessOf (s.newSess n rSeid).2.localID = none) ∧
    (∀ n k sess, s.nodeSess n k = some sess → sess.rnode = n ∧ sess.localID = k) ∧
    (∀ n k sess, s.lnode.sessOf k = some sess → sess.rnode ≠ n →
      s.deleteSess W n k = (s, [], none) ∧
        ∀ j, (s.deleteSess W n j).1.lnode.sessOf k = some sess) := by
  intro s
  have h : SessTable s := sessTable_run W ops
  refine ⟨h.free, ?_, h.newSess_fresh, fun n k sess hs => h.nodeSess_own hs, ?_⟩
  · intro i sess hi
    have hs : s.lnode.sessOf (i + 1) = some sess := LocalNode.sessOf_eq_some.mpr ⟨i, rfl, hi⟩
    refine ⟨h.localID _ _ hs, fun n => ?_⟩
    rw [h.owner]
    constructor
    · rintro ⟨sess', hs', hr⟩
      rw [hs] at hs'
      cases hs'
      exact hr.symm
    · rintro rfl
      exact ⟨sess, hs, rfl⟩
  · intro n k sess hs hr
    have hno : ¬ s.Owns n k := by
      rw [h.owner]
      rintro ⟨sess', hs', hr'⟩
      rw [hs] at hs'
      cases hs'
      exact hr hr'
    refine ⟨deleteSess_of_not_owns W hno, fun j => ?_⟩
    exact (h.sessOf_deleteSess W n j k sess).mpr ⟨hs, fun x => hr x.1⟩

/-- Two nodes, three sessions, one of them deleted and its SEID given to the other node. -/
def recycledOps : List NodeOp :=
  [.newNode "smf1" "10.0.0.1:8805", .newNode "smf2" "10.0.0.2:8805", .newSess 0 10,
    .newSess 1 20, .deleteSess 0 1, .newSess 1 30]

theorem seids_never_alias_recycled :
    let W := World.isolated fun _ => Answer.done
    let s := recycledOps.foldl (NodeOp.apply W) PfcpServer.new
    s.lnode.sess[0]? = some (some (Sess.new 1 1 30)) ∧
      (Sess.new 1 1 30).rnode ≠ 0 ∧ s.deleteSess W 0 1 = (s, [], none) := by
  intro W s
  have hslot : s.lnode.sess[0]? = some (some (Sess.new 1 1 30)) := by decide
  have hsess : s.lnode.sessOf 1 = some (Sess.new 1 1 30) := by decide
  have hne : (Sess.new 1 1 30).rnode ≠ 0 := by decide
  exact ⟨hslot, hne, ((seids_never_alias W recycledOps).2.2.2.2 0 1 _ hsess hne).1⟩

end PfcpServer

end Free5gc.Upf
