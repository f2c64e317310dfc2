/-
  Usage reports on their way from a PFCP response to the charging request: QueryReport,
  ReleaseTunnel, modifyExistingPfcpSession and deletePfcpSession
  (NFs/smf/internal/sbi/processor/datapath.go). The requesting goroutine starts one goroutine
  per UPF and receives one result from each over an unbuffered channel; a goroutine sends its
  result first and only then hands the usage reports of its response to HandleReports.

  A run is any interleaving of the results and of the calls of HandleReports; the requester
  returns with the last result. Nothing makes it wait for the calls: the reports are in the
  cache at every return exactly if there are none (`usage_appended_before_return_iff`).

  A call of HandleReports is one step here. Calls of two goroutines append to the same slice
  without a lock, so in the code they can in addition undo each other's appends.
-/
import Free5gc.Smf.Charging.Reports

namespace Free5gc.Smf.Charging

open Free5gc.Lib

/-- How a PFCP modification or deletion request ends: with an error, no cause or a cause other
    than accepted, or accepted, with the usage reports of the response if it has any. -/
inductive PfcpResponse where
  | failed
  | accepted (usageReport : Option (List PfcpReport))

/-- The usage reports of an accepted response. -/
def PfcpResponse.usage : PfcpResponse → List PfcpReport
  | failed => []
  | accepted usageReport => usageReport.getD []

/-- A PFCP goroutine: the call of HandleReports that follows its result, if one does. -/
structure Goroutine where
  handleReports : Option ReportCall

def modifyExistingPfcpSession (upfId : String) (reportResaon : Option TriggerType)
    (rsp : PfcpResponse) : Goroutine where
  handleReports :=
    match rsp with
    | .accepted (some usageReport) =>
      some { usageReportModification := usageReport, upfId := upfId, reportTpye := reportResaon }
    | _ => none

def deletePfcpSession (upfId : String) (rsp : PfcpResponse) : Goroutine where
  handleReports :=
    match rsp with
    | .accepted (some usageReport) => some { usageReportDeletion := usageReport, upfId := upfId }
    | _ => none

/-- The goroutines that `QueryReport` starts. -/
def queryReport (upfId : String) (reportResaon : Option TriggerType) (rsp : PfcpResponse) :
    List Goroutine :=
  [modifyExistingPfcpSession upfId reportResaon rsp]

/-- The goroutines that `ReleaseTunnel` starts for the UPFs of a tunnel. -/
def releaseTunnel (upfs : List (String × PfcpResponse)) : List Goroutine :=
  upfs.map fun upf => deletePfcpSession upf.1 upf.2

/-! ## Interleavings -/

inductive GoroutinePhase where
  | requesting
  | resultSent
  | finished
  deriving DecidableEq, Repr

/-- The goroutines of a request, by number, the results that the requester has received, and
    the context. -/
structure Gather where
  phase : Nat → GoroutinePhase
  received : Nat
  ctx : SMContext

inductive GatherEvent where
  /-- a result goes over the channel -/
  | result (i : Nat)
  /-- a goroutine hands its reports over, if it has any -/
  | handleReports (i : Nat)
  deriving DecidableEq, Repr

namespace Gather

def start (c : SMContext) : Gather where
  phase _ := .requesting
  received := 0
  ctx := c

def step (gs : List Goroutine) (s : Gather) : GatherEvent → Option Gather
  | .result i =>
    if i < gs.length ∧ s.phase i = .requesting then
      some { s with phase := Function.update s.phase i .resultSent, received := s.received + 1 }
    else none
  | .handleReports i =>
    match gs[i]? with
    | some g =>
      if s.phase i = .resultSent then
        some { s with
          phase := Function.update s.phase i .finished
          ctx := (g.handleReports.map (Charging.handleReports s.ctx)).getD s.ctx }
      else none
    | none => none

/-- The requester has received all results. -/
def Returned (gs : List Goroutine) (s : Gather) : Prop := s.received = gs.length

end Gather

/-- What a goroutine adds to the cache. -/
def Goroutine.cached (g : Goroutine) : List UsageReport :=
  (g.handleReports.map fun call => (call.readings {} call.reports).map Prod.snd).getD []

/-- The reports of all goroutines stand behind those that waited in `c`, in some order of the
    goroutines. -/
def Appended (gs : List Goroutine) (c : SMContext) (s : Gather) : Prop :=
  ∃ order : List Goroutine, order.Perm gs ∧
    s.ctx.urrReports = c.urrReports ++ order.flatMap Goroutine.cached

/-- Whenever the requester returns, the reports of all goroutines are in the cache. -/
def AlwaysAppended (gs : List Goroutine) (c : SMContext) : Prop :=
  ∀ es s, Run (Gather.step gs) (Gather.start c) es s → s.Returned gs → Appended gs c s

namespace Gather

/-- All results of the first `k` goroutines are over the channel, and nothing more happened. -/
def results (c : SMContext) (k : Nat) : Gather where
  phase i := if i < k then .resultSent else .requesting
  received := k
  ctx := c

variable {gs : List Goroutine}

theorem step_results {k : Nat} (c : SMContext) (hk : k < gs.length) :
    step gs (results c k) (.result k) = some (results c (k + 1)) := by
  have hphase : Function.update (results c k).phase k .resultSent = (results c (k + 1)).phase := by
    funext i
    by_cases hi : i = k
    · subst hi
      simp [results]
    · have hlt : i < k + 1 ↔ i < k := by omega
      rw [Function.update_of_ne hi]
      simp only [results, hlt]
  simp only [step, hk, true_and]
  rw [if_pos (by simp [results]), hphase]
  rfl

/-- The requester can return before any report is handed over. -/
theorem run_results (c : SMContext) {k : Nat} (hk : k ≤ gs.length) :
    Run (step gs) (start c) ((List.range k).map .result) (results c k) := by
  induction k with
  | zero =>
    have hstart : start c = results c 0 := by simp [start, results]
    rw [hstart]
    exact Run.nil _
  | succ k ih =>
    rw [List.range_succ, List.map_append]
    exact run_concat.mpr ⟨results c k, ih (by omega), step_results c (by omega)⟩

/-- Without reports no step changes the cache. -/
theorem urrReports_step (hgs : ∀ g ∈ gs, g.cached = []) {s s' : Gather} {e : GatherEvent}
    (hstep : step gs s e = some s') : s'.ctx.urrReports = s.ctx.urrReports := by
  cases e with
  | result i =>
    simp only [step] at hstep
    split at hstep <;> cases hstep
    rfl
  | handleReports i =>
    simp only [step] at hstep
    split at hstep
    case h_2 => cases hstep
    case h_1 g hg =>
      split at hstep <;> cases hstep
      have hcached := hgs g (List.mem_of_getElem? hg)
      unfold Goroutine.cached at hcached
      cases hcall : g.handleReports with
      | none => rfl
      | some call =>
        rw [hcall] at hcached
        show (Charging.handleReports s.ctx call).urrReports = _
        rw [handleReports_eq]
        simpa using hcached

end Gather

/-- Whenever the requester returns everything is cached, if and only if there is nothing to be
    cached. -/
theorem alwaysAppended_iff (gs : List Goroutine) (c : SMContext) :
    AlwaysAppended gs c ↔ ∀ g ∈ gs, g.cached = [] := by
  constructor
  · intro h g hg
    obtain ⟨order, hperm, heq⟩ := h _ _ (Gather.run_results c le_rfl) rfl
    have hnil : order.flatMap Goroutine.cached = [] := by
      rw [← List.append_right_inj c.urrReports, List.append_nil]
      exact heq.symm
    exact List.flatMap_eq_nil_iff.mp hnil g (hperm.mem_iff.mpr hg)
  · intro h es s hrun _
    refine ⟨gs, List.Perm.refl gs, ?_⟩
    have hnil : gs.flatMap Goroutine.cached = [] := List.flatMap_eq_nil_iff.mpr h
    rw [hnil, List.append_nil]
    exact hrun.inv (fun s => s.ctx.urrReports = c.urrReports)
      (fun t e t' _ hstep ht => (Gather.urrReports_step h hstep).trans ht) rfl

theorem ReportCall.readings_eq_nil_iff (call : ReportCall) (u : UsageReport)
    (rs : List PfcpReport) : call.readings u rs = [] ↔ rs = [] := by
  cases rs <;> simp [readings]

theorem cached_modifyExistingPfcpSession (upfId : String) (reportResaon : Option TriggerType)
    (rsp : PfcpResponse) :
    (modifyExistingPfcpSession upfId reportResaon rsp).cached = [] ↔ rsp.usage = [] := by
  cases rsp with
  | failed => simp [modifyExistingPfcpSession, Goroutine.cached, PfcpResponse.usage]
  | accepted usageReport =>
    cases usageReport <;>
      simp [modifyExistingPfcpSession, Goroutine.cached, PfcpResponse.usage,
        ReportCall.readings_eq_nil_iff, ReportCall.reports]

theorem cached_deletePfcpSession (upfId : String) (rsp : PfcpResponse) :
    (deletePfcpSession upfId rsp).cached = [] ↔ rsp.usage = [] := by
  cases rsp with
  | failed => simp [deletePfcpSession, Goroutine.cached, PfcpResponse.usage]
  | accepted usageReport =>
    cases usageReport <;>
      simp [deletePfcpSession, Goroutine.cached, PfcpResponse.usage,
        ReportCall.readings_eq_nil_iff, ReportCall.reports]

/-- Whatever the scheduler does, the reports of the accepted responses are in the cache when
    QueryReport, or ReleaseTunnel, returns, if and only if the responses have no reports. -/
theorem usage_appended_before_return_iff (c : SMContext) :
    (∀ upfId reportResaon rsp,
      AlwaysAppended (queryReport upfId reportResaon rsp) c ↔ rsp.usage = []) ∧
    ∀ upfs, AlwaysAppended (releaseTunnel upfs) c ↔ ∀ upf ∈ upfs, upf.2.usage = [] := by
  constructor
  · intro upfId reportResaon rsp
    rw [alwaysAppended_iff, queryReport, List.forall_mem_singleton,
      cached_modifyExistingPfcpSession]
  · intro upfs
    rw [alwaysAppended_iff, releaseTunnel, List.forall_mem_map]
    simp only [cached_deletePfcpSession]

/-- A query of a URR with 1000 bytes; the requester returns with the result, and the cache is
    empty. -/
theorem query_returns_before_usage :
    ∃ es s, Run (Gather.step (queryReport "upf" (some .userLocationChange) (.accepted (some
        [⟨1, some { totalVolume := 1000 }, { immer := true }⟩])))) (Gather.start {}) es s ∧
      s.received = 1 ∧ s.ctx.urrReports = [] :=
  ⟨[.result 0], _, run_iff_foldlM.mpr rfl, rfl, rfl⟩

end Free5gc.Smf.Charging
