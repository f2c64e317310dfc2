/-
  What a failed session establishment leaves in the driver.

  `ExecuteEstablishmentPlan` stops at the first create call that fails. The session's own id
  sets are filled in after a successful execution only, so the `Close` that follows a failure
  finds them empty and removes nothing: every rule created, and every timer registered,
  before the failing call stays. `performed` lists these actions from the request's plan and
  the kernel's answers; `failed_establishment_clean_iff` says that a failed establishment
  leaves the driver as it was exactly when the driver already held all of them.
-/
import Free5gc.Upf.Forwarder.PerioRuns
import Free5gc.Upf.Pfcp.Handlers
import Free5gc.Upf.Pfcp.SessFrames

namespace Free5gc.Upf

open Free5gc.Lib

/-! ## The actions of an establishment -/

/-- What `ExecuteEstablishmentPlan` does in turn. -/
inductive EstAction where
  | register (lSeid : Nat) (urrid : UInt32) (period : Perio.Period)
  | create (kind : RuleKind) (oid : OID)

/-- The timer of a URR that is being created. -/
def timerActions (seid : Nat) (p : URRPlan) : List EstAction :=
  if h : 0 < p.measurePeriod then
    if reportingTriggerPERIO p.reportingTrigger then
      [.register seid p.urrid ⟨p.measurePeriod, h⟩]
    else []
  else []

/-- The actions of a plan, in order. -/
def ModificationPlan.actions (plan : ModificationPlan) : List EstAction :=
  plan.createFARs.map (fun p => .create .far p.oid) ++
  (plan.createQERs.map (fun p => .create .qer p.oid) ++
  (plan.createURRs.flatMap (fun p => timerActions plan.seid p ++ [.create .urr p.oid]) ++
  (plan.createBARs.map (fun p => .create .bar p.oid) ++
  plan.createPDRs.map (fun p => .create .pdr p.oid))))

def EstAction.run (O : Oracle) (g : Gtp5g) : EstAction → Except Gtp5g Gtp5g
  | .register lSeid urrid period => .ok (g.notify O (.add lSeid urrid period))
  | .create kind oid => createOrFail O kind oid g

theorem run_timerActions (O : Oracle) (seid : Nat) (p : URRPlan) (g : Gtp5g) :
    (timerActions seid p).foldlM (EstAction.run O) g = .ok (g.addTimer O seid p) := by
  unfold timerActions Gtp5g.addTimer
  split
  · split
    · rfl
    · rfl
  · rfl

/-- `ExecuteEstablishmentPlan` runs the plan's actions. -/
theorem executeEstablishmentPlan_eq (O : Oracle) (g : Gtp5g) (plan : ModificationPlan) :
    executeEstablishmentPlan O g plan = plan.actions.foldlM (EstAction.run O) g := by
  have hurrs : ∀ (ps : List URRPlan) (g : Gtp5g),
      (ps.flatMap fun p => timerActions plan.seid p ++ [.create .urr p.oid]).foldlM
        (EstAction.run O) g =
      ps.foldlM (fun g p => createOrFail O .urr p.oid (g.addTimer O plan.seid p)) g := by
    intro ps
    induction ps with
    | nil => intro g; rfl
    | cons p ps ih =>
      intro g
      rw [List.flatMap_cons, List.foldlM_append, List.foldlM_append, run_timerActions,
        List.foldlM_cons]
      show (createOrFail O .urr p.oid (g.addTimer O plan.seid p) >>= fun g => pure g) >>= _ = _
      rw [bind_pure]
      exact bind_congr fun g' => ih g'
  unfold executeEstablishmentPlan ModificationPlan.actions
  simp only [List.foldlM_append, List.foldlM_map, hurrs]
  rfl

/-! ## What they leave -/

/-- The actions that take effect when the next call has number `n`: all up to the first
    create call that fails. -/
def performed (O : Oracle) : Nat → List EstAction → List EstAction
  | _, [] => []
  | n, .register lSeid urrid period :: rest =>
    .register lSeid urrid period :: performed O n rest
  | n, .create kind oid :: rest =>
    if (O.answer n).err then [] else .create kind oid :: performed O (n + 1) rest

/-- The driver holds what the action would add. A periodic-report server that is closed
    takes no registration. -/
def EstAction.Held (g : Gtp5g) : EstAction → Prop
  | .register lSeid urrid _ => g.ps.closed = true ∨ g.Registered lSeid urrid
  | .create kind oid => (kind, oid) ∈ g.rules

/-- The driver that an execution ends with, failed or not. -/
def driverOf : Except Gtp5g Gtp5g → Gtp5g
  | .ok g => g
  | .error g => g

theorem notify_add_closed (O : Oracle) (g : Gtp5g) (x : Nat) (u : UInt32) (p : Perio.Period) :
    (g.notify O (.add x u p)).ps.closed = g.ps.closed := by
  show (g.ps.serve O.perio (fun _ => none) (.add x u p)).1.closed = _
  unfold Perio.Server.serve
  split_ifs
  · rfl
  · exact Perio.add_closed g.ps x u p

theorem registered_notify_add (O : Oracle) (g : Gtp5g) (x : Nat) (u : UInt32)
    (p : Perio.Period) (y : Nat) (v : UInt32) :
    (g.notify O (.add x u p)).Registered y v ↔
      g.Registered y v ∨ g.ps.closed = false ∧ y = x ∧ v = u := by
  unfold Gtp5g.Registered
  show (∃ q, (g.ps.serve O.perio (fun _ => none) (.add x u p)).1.Holds q y v) ↔ _
  unfold Perio.Server.serve
  split_ifs with hc
  · simp [hc]
  · have hc' : g.ps.closed = false := by simpa using hc
    simp only [Perio.holds_turn, Perio.holds_add, hc', true_and]
    constructor
    · rintro ⟨q, hq | ⟨_, hy, hv⟩⟩
      · exact Or.inl ⟨q, hq⟩
      · exact Or.inr ⟨hy, hv⟩
    · rintro (⟨q, hq⟩ | ⟨hy, hv⟩)
      · exact ⟨q, Or.inl hq⟩
      · exact ⟨p, Or.inr ⟨rfl, hy, hv⟩⟩

section Create

variable {O : Oracle} {g : Gtp5g} {kind : RuleKind} {oid : OID}

theorem rules_call_create : (g.call O (.create kind oid)).rules =
    if (O.answer g.calls.length).err then g.rules else insert (kind, oid) g.rules := rfl

/-- A rule that the driver refuses ends the execution. -/
theorem driverOf_create (as : List EstAction) :
    driverOf ((.create kind oid :: as).foldlM (EstAction.run O) g) =
      if (O.answer g.calls.length).err then g.call O (.create kind oid)
      else driverOf (as.foldlM (EstAction.run O) (g.call O (.create kind oid))) := by
  show driverOf ((createOrFail O kind oid g) >>= _) = _
  unfold createOrFail
  rw [show g.nextAnswer O = O.answer g.calls.length from rfl]
  split_ifs
  · rfl
  · rfl

end Create

/-- An execution adds the rules and the registrations of the actions performed, and nothing
    else. -/
theorem driverOf_actions (O : Oracle) (as : List EstAction) (g : Gtp5g) :
    let g' := driverOf (as.foldlM (EstAction.run O) g)
    let done := performed O g.calls.length as
    (∀ k oid, (k, oid) ∈ g'.rules ↔ (k, oid) ∈ g.rules ∨ .create k oid ∈ done) ∧
      ∀ x u, g'.Registered x u ↔
        g.Registered x u ∨ g.ps.closed = false ∧ ∃ p, .register x u p ∈ done := by
  induction as generalizing g with
  | nil =>
    intro g' done
    have hg' : g' = g := rfl
    have hdone : done = [] := rfl
    rw [hg', hdone]
    simp
  | cons a as ih =>
    cases a with
    | register x u p =>
      obtain ⟨h1, h2⟩ := ih (g.notify O (.add x u p))
      rw [notify_add_closed] at h2
      refine ⟨fun k oid => ?_, fun y v => ?_⟩
      · refine (h1 k oid).trans ?_
        show (k, oid) ∈ g.rules ∨ _ ↔ _
        simp only [performed, List.mem_cons, reduceCtorEq, false_or]
        exact Iff.rfl
      · refine (h2 y v).trans ?_
        rw [registered_notify_add]
        simp only [performed, List.mem_cons, EstAction.register.injEq]
        show (_ ∨ g.ps.closed = false ∧ ∃ q, .register y v q ∈ performed O g.calls.length as) ↔ _
        constructor
        · rintro ((hy | ⟨hc, hy, hv⟩) | ⟨hc, q, hq⟩)
          · exact Or.inl hy
          · exact Or.inr ⟨hc, p, Or.inl ⟨hy, hv, rfl⟩⟩
          · exact Or.inr ⟨hc, q, Or.inr hq⟩
        · rintro (hy | ⟨hc, q, ⟨hy, hv, _⟩ | hq⟩)
          · exact Or.inl (Or.inl hy)
          · exact Or.inl (Or.inr ⟨hc, hy, hv⟩)
          · exact Or.inr ⟨hc, q, hq⟩
    | create kind oid₀ =>
      intro g' done
      by_cases herr : (O.answer g.calls.length).err = true
      · have hg' : g' = g.call O (.create kind oid₀) := (driverOf_create as).trans (if_pos herr)
        have hdone : done = [] := if_pos herr
        have hrules : g'.rules = g.rules := by rw [hg', rules_call_create, if_pos herr]
        have hps : g'.ps = g.ps := by rw [hg']; rfl
        rw [hdone]
        refine ⟨fun k oid => by rw [hrules]; simp, fun x u => ?_⟩
        unfold Gtp5g.Registered
        rw [hps]
        simp
      · have hg' : g' = driverOf (as.foldlM (EstAction.run O) (g.call O (.create kind oid₀))) :=
          (driverOf_create as).trans (if_neg herr)
        have hdone : done = .create kind oid₀ :: performed O (g.calls.length + 1) as :=
          if_neg herr
        have hlen : (g.call O (.create kind oid₀)).calls.length = g.calls.length + 1 := by
          show (g.calls ++ [_]).length = _
          rw [List.length_append]
          rfl
        obtain ⟨h1, h2⟩ := ih (g.call O (.create kind oid₀))
        rw [hlen] at h1 h2
        rw [hg', hdone]
        refine ⟨fun k oid => ?_, fun x u => ?_⟩
        · refine (h1 k oid).trans ?_
          rw [rules_call_create, if_neg herr, Finset.mem_insert, List.mem_cons, Prod.mk.injEq,
            EstAction.create.injEq]
          tauto
        · refine (h2 x u).trans ?_
          simp only [List.mem_cons, reduceCtorEq, false_or]
          exact Iff.rfl

/-- An execution leaves the rules and the registrations as they were exactly when the driver
    held all it performed. -/
theorem driverOf_unchanged_iff (O : Oracle) (as : List EstAction) (g : Gtp5g) :
    ((driverOf (as.foldlM (EstAction.run O) g)).rules = g.rules ∧
      ∀ x u, (driverOf (as.foldlM (EstAction.run O) g)).Registered x u ↔ g.Registered x u) ↔
      ∀ a ∈ performed O g.calls.length as, a.Held g := by
  obtain ⟨hrules, hreg⟩ := driverOf_actions O as g
  generalize driverOf (as.foldlM (EstAction.run O) g) = g' at hrules hreg ⊢
  constructor
  · rintro ⟨h1, h2⟩ a ha
    cases a with
    | register x u p =>
      show g.ps.closed = true ∨ g.Registered x u
      by_cases hc : g.ps.closed = true
      · exact Or.inl hc
      · have hc' : g.ps.closed = false := by simpa using hc
        exact Or.inr ((h2 x u).mp ((hreg x u).mpr (Or.inr ⟨hc', p, ha⟩)))
    | create k oid =>
      show (k, oid) ∈ g.rules
      rw [← h1]
      exact (hrules k oid).mpr (Or.inr ha)
  · intro hheld
    refine ⟨?_, fun x u => ?_⟩
    · ext ⟨k, oid⟩
      rw [hrules]
      refine ⟨fun h => ?_, Or.inl⟩
      rcases h with h | h
      · exact h
      · exact hheld _ h
    · rw [hreg]
      refine ⟨fun h => ?_, Or.inl⟩
      rcases h with h | ⟨hc, p, hp⟩
      · exact h
      · rcases hheld _ hp with hcl | hr
        · rw [hc] at hcl
          cases hcl
        · exact hr

/-! ## Deleting the session again -/

/-- Closing a session without rules makes no call. -/
theorem close_new_driver (O : Oracle) (g : Gtp5g) (rnode localID remoteID : Nat) :
    ((Sess.new rnode localID remoteID).close O g).1 = g.range := by
  have hplan : (Sess.new rnode localID remoteID).closePlan O g.ranges =
      ModificationPlan.new localID := by
    unfold Sess.closePlan Sess.new
    simp [ModificationPlan.new]
  unfold Sess.close
  rw [hplan]
  rfl

theorem onlyReads_close_new (O : Oracle) (g : Gtp5g) (rnode localID remoteID : Nat) :
    g.OnlyReads ((Sess.new rnode localID remoteID).close O g).1 := by
  rw [close_new_driver]
  exact g.onlyReads_range

/-- The SEID of a new session names that session or none, in any state of the table. -/
theorem LocalNode.sessOf_newSess_self (n : LocalNode) (rnode rSeid : Nat) :
    (∃ lSeid, (n.newSess rnode rSeid).1.sessOf (n.newSess rnode rSeid).2.localID =
      some (Sess.new rnode lSeid rSeid)) ∨
    (n.newSess rnode rSeid).1.sessOf (n.newSess rnode rSeid).2.localID = none := by
  unfold LocalNode.newSess
  split
  · rename_i lSeid _
    show (∃ l, LocalNode.sessOf _ lSeid = _) ∨ LocalNode.sessOf _ lSeid = none
    unfold LocalNode.sessOf
    split_ifs
    · exact Or.inr rfl
    · dsimp only
      rcases Nat.lt_or_ge (lSeid - 1) n.sess.length with hlt | hge
      · rw [List.getElem?_set_self hlt]
        exact Or.inl ⟨lSeid, rfl⟩
      · rw [List.getElem?_eq_none (by rw [List.length_set]; exact hge)]
        exact Or.inr rfl
  · refine Or.inl ⟨n.sess.length + 1, ?_⟩
    show LocalNode.sessOf _ (n.sess.length + 1) = _
    unfold LocalNode.sessOf
    simp

namespace PfcpServer

/-- Deleting a session that has just been allocated leaves the driver's rules and timers. -/
theorem onlyReads_deleteSess_new (W : World) {s t : PfcpServer} {n rSeid : Nat}
    (ht : t.lnode = (s.newSess n rSeid).1.lnode) :
    t.driver.OnlyReads (t.deleteSess W n (s.newSess n rSeid).2.localID).1.driver := by
  unfold deleteSess localDeleteSess
  split
  · exact Gtp5g.OnlyReads.refl _
  · split_ifs
    · have hl : (t.dropSess n (s.newSess n rSeid).2.localID).lnode =
          (s.lnode.newSess n rSeid).1 := ht
      rw [hl]
      obtain ⟨lSeid, h⟩ | h := s.lnode.sessOf_newSess_self n rSeid
      · rw [show (s.newSess n rSeid).2.localID = (s.lnode.newSess n rSeid).2.localID from rfl, h]
        exact onlyReads_close_new W.toOracle _ n lSeid rSeid
      · rw [show (s.newSess n rSeid).2.localID = (s.lnode.newSess n rSeid).2.localID from rfl, h]
        exact Gtp5g.OnlyReads.refl _
    · exact Gtp5g.OnlyReads.refl _

/-- The driver held before the request all that the request's execution adds before its
    first failing create call. The plan is the validated request, for the SEID that the
    session table gives out next. -/
def AddsNothing (W : World) (s : PfcpServer) (req : SessionEstablishmentRequest) : Prop :=
  ∀ rnodeid n rSeid plan, req.nodeID = some (some rnodeid) →
    s.rnodes.lookup rnodeid = some n → req.cpFSEID = some (some rSeid) →
    establishmentPlan (s.newSess n rSeid).2 req = .ok plan →
    ∀ a ∈ performed W.toOracle s.driver.calls.length plan.actions, a.Held s.driver

/-- A rejected establishment leaves the driver's rules and periodic-report registrations
    exactly as they were if and only if its execution added nothing before it failed. -/
theorem failed_establishment_clean_iff (W : World) (s : PfcpServer)
    (req : SessionEstablishmentRequest) (addr : Addr)
    (hrej : Rejects (s.handleSessionEstablishmentRequest W req addr).2) :
    ((s.handleSessionEstablishmentRequest W req addr).1.driver.rules = s.driver.rules ∧
      ∀ x u, (s.handleSessionEstablishmentRequest W req addr).1.driver.Registered x u ↔
        s.driver.Registered x u) ↔ AddsNothing W s req := by
  obtain ⟨hno, rsp, _, heq⟩ | ⟨rnodeid, n, rSeid, hid, hseid, hreg, heq⟩ :=
    handleSessionEstablishmentRequest_cases W s req addr
  · rw [heq, sendRspTo_driver]
    refine iff_of_true ⟨rfl, fun _ _ => Iff.rfl⟩ ?_
    intro rnodeid n rSeid plan hid hreg hseid
    exact absurd hseid (hno rnodeid n rSeid hid hreg)
  · -- the condition speaks about this node, SEID and plan only
    have hcond : AddsNothing W s req ↔ ∀ plan,
        establishmentPlan (s.newSess n rSeid).2 req = .ok plan →
        ∀ a ∈ performed W.toOracle s.driver.calls.length plan.actions, a.Held s.driver := by
      constructor
      · intro h plan hplan
        exact h rnodeid n rSeid plan hid hreg hseid hplan
      · intro h rnodeid' n' rSeid' plan hid' hreg' hseid' hplan
        rw [hid] at hid'
        cases hid'
        rw [hreg] at hreg'
        cases hreg'
        rw [hseid] at hseid'
        cases hseid'
        exact h plan hplan
    rw [hcond, heq]
    rw [heq] at hrej
    obtain ⟨g, rsp, hg, _, heq'⟩ | ⟨plan, g, rsp, _, _, _, hacc, heq'⟩ :=
      establish_cases W (s.newSess n rSeid).1 req addr n (s.newSess n rSeid).2
    · rw [heq']
      dsimp only
      have hread := onlyReads_deleteSess_new W
        (sendRspTo_lnode W ({ (s.newSess n rSeid).1 with driver := g } : PfcpServer)
          (.sessionEstablishmentResponse rsp) addr)
      rw [sendRspTo_driver] at hread
      unfold Gtp5g.Registered
      rw [hread.rules, hread.ps]
      show (g.rules = s.driver.rules ∧ ∀ x u, g.Registered x u ↔ s.driver.Registered x u) ↔ _
      have hg' : failedDriver W s.driver (s.newSess n rSeid).2 req = some g := hg
      unfold failedDriver at hg'
      cases hplan : establishmentPlan (s.newSess n rSeid).2 req with
      | error e =>
        rw [hplan] at hg'
        cases hg'
        refine iff_of_true ⟨rfl, fun _ _ => Iff.rfl⟩ ?_
        intro plan hplan'
        cases hplan'
      | ok plan =>
        rw [hplan] at hg'
        dsimp only at hg'
        have hdrv : g = driverOf (plan.actions.foldlM (EstAction.run W.toOracle) s.driver) := by
          rw [← executeEstablishmentPlan_eq]
          cases hexec : executeEstablishmentPlan W.toOracle s.driver plan with
          | error g' =>
            rw [hexec] at hg'
            exact (Option.some.inj hg').symm
          | ok g' =>
            rw [hexec] at hg'
            cases hg'
        rw [hdrv, driverOf_unchanged_iff]
        constructor
        · intro h plan' hplan'
          cases hplan'
          exact h
        · intro h
          exact h plan rfl
    · rw [heq'] at hrej
      obtain ⟨c, hc, hne⟩ := hrej
      cases hc
      exact absurd hacc hne

/-- An establishment of `smf1` with FAR 1 and QER 1. -/
def farAndQer : SessionEstablishmentRequest :=
  { establishRequest 2 "smf1" 10 with
    createFAR := [some [.farID (some 1), .applyAction (some [2])]]
    createQER := [some [.qerID (some 1)]] }

/-- A kernel that refuses its `n`-th call. -/
def refusesCall (n : Nat) : World :=
  World.isolated fun k => if k = n then { Answer.done with err := true } else Answer.done

theorem failed_establishment_clean_first_call :
    let W := refusesCall 0
    let s := [(setupRequest 1 "smf1", "10.0.0.1:8805")].foldl (handle W) PfcpServer.new
    let r := s.handleSessionEstablishmentRequest W farAndQer "10.0.0.1:8805"
    Rejects r.2 ∧ r.1.driver.rules = s.driver.rules ∧
      ∀ x u, r.1.driver.Registered x u ↔ s.driver.Registered x u := by
  intro W s r
  have hrej : Rejects r.2 := by decide +kernel
  have hadds : AddsNothing W s farAndQer := by
    intro rnodeid n rSeid plan _ _ _ hplan a ha
    have hplan' : establishmentPlan (s.newSess n rSeid).2 farAndQer =
        .ok { ModificationPlan.new 1 with
          createFARs := [⟨.create, (1, 1), 1, none⟩], createQERs := [⟨.create, (1, 1), 1⟩] } := rfl
    rw [hplan'] at hplan
    cases hplan
    -- the first action is the create call that fails
    exact absurd ha List.not_mem_nil
  exact ⟨hrej, (failed_establishment_clean_iff W s farAndQer "10.0.0.1:8805" hrej).mpr hadds⟩

/-- The kernel refuses the QER after it has created the FAR: the establishment is rejected
    and FAR 1 of SEID 1 stays in the driver, without a session. -/
theorem failed_establishment_leaves_far :
    let W := refusesCall 1
    let s := [(setupRequest 1 "smf1", "10.0.0.1:8805")].foldl (handle W) PfcpServer.new
    let r := s.handleSessionEstablishmentRequest W farAndQer "10.0.0.1:8805"
    Rejects r.2 ∧ r.1.lnode.sessOf 1 = none ∧ r.1.driver.rules ≠ s.driver.rules := by
  decide +kernel

end PfcpServer

end Free5gc.Upf
