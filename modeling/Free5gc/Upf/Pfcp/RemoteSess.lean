/-
  Looking a session up by the peer's SEID (`LocalNode.RemoteSess` in `internal/pfcp/node.go`).

  The loop reads every slot of the session table from the first one on, the empty ones
  included, and an empty slot is a nil pointer. It stops at the first session that matches.
  So the look-up is right where every empty slot lies behind a session that matches, and a
  nil dereference everywhere else: `remoteSess_right_iff`.
-/
import Free5gc.Upf.Pfcp.Main
import Free5gc.Upf.Pfcp.SessTable

namespace Free5gc.Upf

open Free5gc.Lib

/-- A session of the peer at `addr`, under the SEID `rSeid` of the peer's. -/
def Sess.HasPeer (nodes : List RemoteNode) (rSeid : Nat) (addr : Addr) (sess : Sess) : Prop :=
  sess.remoteID = rSeid ∧ (nodes[sess.rnode]?.map (·.addr)) = some addr

section Loop

variable {nodes : List RemoteNode} {rSeid : Nat} {addr : Addr} {slots : List (Option Sess)}

/-- A session that the loop returns is in a slot, and matches. -/
theorem remoteSessLoop_found {sess : Sess}
    (h : remoteSessLoop nodes rSeid addr slots = some (some sess)) :
    ∃ j : Nat, slots[j]? = some (some sess) ∧ sess.HasPeer nodes rSeid addr := by
  induction slots with
  | nil => cases h
  | cons slot rest ih =>
    cases slot with
    | none => cases h
    | some s =>
      unfold remoteSessLoop at h
      split_ifs at h with hs
      · cases h
        exact ⟨0, rfl, hs⟩
      · obtain ⟨j, hj, hm⟩ := ih h
        exact ⟨j + 1, hj, hm⟩

/-- A loop that ends without a session has passed no session that matches. -/
theorem remoteSessLoop_missed (h : remoteSessLoop nodes rSeid addr slots = some none) {j : Nat}
    {sess : Sess} (hj : slots[j]? = some (some sess)) : ¬ sess.HasPeer nodes rSeid addr := by
  induction slots generalizing j with
  | nil => cases hj
  | cons slot rest ih =>
    cases slot with
    | none => cases h
    | some s =>
      unfold remoteSessLoop at h
      split_ifs at h with hs
      · cases h
      · cases j with
        | zero =>
          cases hj
          exact hs
        | succ j => exact ih h hj

/-- The loop reads no empty slot exactly when a session that matches stands before each. -/
theorem remoteSessLoop_ne_none_iff :
    remoteSessLoop nodes rSeid addr slots ≠ none ↔
      ∀ i : Nat, slots[i]? = some none →
        ∃ j < i, ∃ sess : Sess, slots[j]? = some (some sess) ∧
          sess.HasPeer nodes rSeid addr := by
  induction slots with
  | nil => simp [remoteSessLoop]
  | cons slot rest ih =>
    cases slot with
    | none =>
      refine ⟨fun h => absurd rfl h, fun h => ?_⟩
      obtain ⟨j, hj, _⟩ := h 0 rfl
      exact absurd hj (Nat.not_lt_zero j)
    | some s =>
      unfold remoteSessLoop
      split_ifs with hs
      · refine ⟨fun _ i hi => ?_, fun _ => Option.some_ne_none _⟩
        cases i with
        | zero => cases hi
        | succ i => exact ⟨0, Nat.succ_pos i, s, rfl, hs⟩
      · rw [ih]
        constructor
        · intro h i hi
          cases i with
          | zero => cases hi
          | succ i =>
            obtain ⟨j, hj, found⟩ := h i hi
            exact ⟨j + 1, Nat.succ_lt_succ hj, found⟩
        · intro h i hi
          obtain ⟨j, hj, sess, hslot, hm⟩ := h (i + 1) hi
          cases j with
          | zero =>
            cases hslot
            exact absurd hm hs
          | succ j => exact ⟨j, Nat.lt_of_succ_lt_succ hj, sess, hslot, hm⟩

end Loop

namespace PfcpServer

/-- `LocalNode.RemoteSess`. -/
def remoteSess (s : PfcpServer) (rSeid : Nat) (addr : Addr) : Option (Option Sess) :=
  remoteSessLoop s.nodes rSeid addr s.lnode.sess

/-- A live session, under its local SEID `k`, that `rSeid` and `addr` ask for. -/
def Wanted (s : PfcpServer) (rSeid : Nat) (addr : Addr) (k : Nat) (sess : Sess) : Prop :=
  s.lnode.sessOf k = some sess ∧ sess.HasPeer s.nodes rSeid addr

/-- What the look-up and its caller are to do: `RemoteSess` returns a live session that was
    asked for, or an error when there is none; and a Session Report Response with SEID 0 to
    a request for `rSeid` deletes such a session and no other, or nothing. -/
structure RemoteSessRight (W : World) (s : PfcpServer) (rSeid : Nat) (addr : Addr) : Prop where
  lookup : (∃ k sess, s.Wanted rSeid addr k sess ∧ s.remoteSess rSeid addr = some (some sess)) ∨
    (∀ k sess, ¬ s.Wanted rSeid addr k sess) ∧ s.remoteSess rSeid addr = some none
  response : ∀ req : Message, req.seid = rSeid →
    ∃ s', s.handleSessionReportResponse W 0 addr req = some s' ∧
      ((∃ k sess, s.Wanted rSeid addr k sess ∧
          ∀ j, s'.lnode.sessOf j = if j = k then none else s.lnode.sessOf j) ∨
        (∀ k sess, ¬ s.Wanted rSeid addr k sess) ∧ s' = s)

/-- Every empty slot lies behind a session that was asked for. -/
def HolesBehind (s : PfcpServer) (rSeid : Nat) (addr : Addr) : Prop :=
  ∀ i : Nat, s.lnode.sess[i]? = some none → ∃ k ≤ i, ∃ sess, s.Wanted rSeid addr k sess

variable {s : PfcpServer} {rSeid : Nat} {addr : Addr}

theorem wanted_succ {j : Nat} {sess : Sess} :
    s.Wanted rSeid addr (j + 1) sess ↔
      s.lnode.sess[j]? = some (some sess) ∧ sess.HasPeer s.nodes rSeid addr := by
  unfold Wanted
  rw [LocalNode.sessOf_succ, Option.join_eq_some_iff]

theorem Wanted.pos {k : Nat} {sess : Sess} (h : s.Wanted rSeid addr k sess) : ∃ j, k = j + 1 := by
  obtain ⟨j, hk, _⟩ := LocalNode.sessOf_eq_some.mp h.1
  exact ⟨j, hk⟩

theorem remoteSess_ne_none_iff (s : PfcpServer) (rSeid : Nat) (addr : Addr) :
    s.remoteSess rSeid addr ≠ none ↔ s.HolesBehind rSeid addr := by
  unfold remoteSess HolesBehind
  rw [remoteSessLoop_ne_none_iff]
  refine forall_congr' fun i => imp_congr_right fun _ => ?_
  constructor
  · rintro ⟨j, hj, sess, hm⟩
    exact ⟨j + 1, hj, sess, wanted_succ.mpr hm⟩
  · rintro ⟨k, hk, sess, hm⟩
    obtain ⟨j, rfl⟩ := hm.pos
    exact ⟨j, hk, sess, wanted_succ.mp hm⟩

/-- A look-up that reads no empty slot is right. -/
theorem remoteSess_lookup (h : s.remoteSess rSeid addr ≠ none) :
    (∃ k sess, s.Wanted rSeid addr k sess ∧ s.remoteSess rSeid addr = some (some sess)) ∨
      (∀ k sess, ¬ s.Wanted rSeid addr k sess) ∧ s.remoteSess rSeid addr = some none := by
  obtain ⟨r, hr⟩ := Option.ne_none_iff_exists'.mp h
  cases r with
  | none =>
    refine Or.inr ⟨fun k sess hw => ?_, hr⟩
    obtain ⟨j, rfl⟩ := hw.pos
    have hslot := wanted_succ.mp hw
    exact remoteSessLoop_missed hr hslot.1 hslot.2
  | some sess =>
    obtain ⟨j, hj⟩ := remoteSessLoop_found hr
    exact Or.inl ⟨j + 1, sess, wanted_succ.mpr hj, hr⟩

/-- After a right look-up the response deletes the session found, through its own node. -/
theorem SessTable.response_deletes (h : SessTable s) (W : World)
    (hne : s.remoteSess rSeid addr ≠ none) {req : Message} (hreq : req.seid = rSeid) :
    ∃ s', s.handleSessionReportResponse W 0 addr req = some s' ∧
      ((∃ k sess, s.Wanted rSeid addr k sess ∧
          ∀ j, s'.lnode.sessOf j = if j = k then none else s.lnode.sessOf j) ∨
        (∀ k sess, ¬ s.Wanted rSeid addr k sess) ∧ s' = s) := by
  subst hreq
  unfold handleSessionReportResponse
  rw [if_pos rfl]
  rcases remoteSess_lookup hne with ⟨k, sess, hw, hr⟩ | ⟨hno, hr⟩
  all_goals unfold remoteSess at hr
  · rw [hr]
    refine ⟨_, rfl, Or.inl ⟨k, sess, hw, fun j => ?_⟩⟩
    have howns : s.Owns sess.rnode sess.localID := by
      rw [h.localID k sess hw.1]
      exact (h.owner sess.rnode k).mpr ⟨sess, hw.1, rfl⟩
    obtain ⟨sess', hs', _, heq⟩ := h.deleteSess_of_owns W howns
    rw [heq, sessOf_closed W hs', h.localID k sess hw.1]
  · rw [hr]
    exact ⟨s, rfl, Or.inr ⟨hno, rfl⟩⟩

/-- In every reachable session table, for every SEID and address: the look-up and the
    responses that rest on it are right exactly when every empty slot lies behind a session
    that was asked for. -/
theorem remoteSess_right_iff (W : World) (ops : List NodeOp) (rSeid : Nat) (addr : Addr) :
    let s := ops.foldl (NodeOp.apply W) PfcpServer.new
    s.RemoteSessRight W rSeid addr ↔ s.HolesBehind rSeid addr := by
  intro s
  have h : SessTable s := sessTable_run W ops
  rw [← remoteSess_ne_none_iff]
  constructor
  · rintro ⟨⟨k, sess, _, hr⟩ | ⟨_, hr⟩, _⟩
    · rw [hr]
      exact Option.some_ne_none _
    · rw [hr]
      exact Option.some_ne_none _
  · intro hne
    exact ⟨remoteSess_lookup hne, fun req hreq => h.response_deletes W hne hreq⟩

/-- Two sessions of one node, the first of which is deleted. -/
def firstDeleted : List NodeOp :=
  [.newNode "smf" "10.0.0.1:8805", .newSess 0 1, .newSess 0 2, .deleteSess 0 1]

/-- The second session is live, and its look-up dereferences the first one's slot. -/
theorem remoteSess_reads_emptySlot :
    let s := firstDeleted.foldl (NodeOp.apply (World.isolated fun _ => Answer.done)) PfcpServer.new
    (∃ sess, s.Wanted 2 "10.0.0.1:8805" 2 sess) ∧ s.remoteSess 2 "10.0.0.1:8805" = none := by
  exact ⟨⟨_, rfl, rfl, rfl⟩, rfl⟩

end PfcpServer

end Free5gc.Upf
