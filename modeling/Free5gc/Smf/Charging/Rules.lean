/-
  Charging rules and the URRs they share a table with: AddChargingRules, CreateUrrAndChgInfo,
  GetOrCreateUrr and addUrrToPath (NFs/smf/internal/context/datapath.go) as a policy decision calls
  them, and chargingNotificationProcedure (NFs/smf/internal/sbi/processor/notifier.go), which looks
  up what is charged for every URR of the table.

  Nil is read in three places: the charging data of a flow rule that has none beside PDU-level
  data, the URR of charging data that is neither online nor offline or whose URR cannot be made,
  and the charging information of a URR that only measures. `charging_completes_iff` says, for
  every session that policy decisions reach, which calls and which histories are free of it.

  UrrIDGenerator is any generator with the laws of `IDGenerator`. A number is never given back, and
  no URR leaves the table: PDRReleaseURRs, which would mark one for removal, has no caller. The
  reference counts and the URR lists of the PDRs, which no function here reads, are left out. So
  are the query of the URRs and the report that follow a notification; they read no charging
  information that is not there (`Reports`, `Quota`).
-/
import Free5gc.Lib.Fallible
import Free5gc.Lib.IDs
import Free5gc.Smf.Charging.Quota
import Mathlib.Logic.Function.Basic

namespace Free5gc.Smf.Charging

open Free5gc.Lib

/-! ## Sessions and paths -/

/-- `models.ChargingData` -/
structure ChargingData where
  ratingGroup : Int32
  online : Bool := false
  offline : Bool := false
  deriving DecidableEq

/-- What is read although it is nil. -/
inductive NilDereference where
  | chargingData
  | chargingInfo
  | urr
  deriving DecidableEq

/-- A node of a data path: its UPF, and whether that is associated. -/
structure PathNode where
  upfId : String
  associated : Bool
  deriving DecidableEq

inductive UrrType where
  | n3n6MbqeUrr
  | n3n6MaqeUrr
  | n9n6MbqeUrr
  | n9n6MaqeUrr
  | n3n9MbqeUrr
  | n3n9MaqeUrr
  deriving DecidableEq

structure ChargedSession (G : Type) where
  ctx : SMContext := {}
  urrIDGenerator : G
  /-- a type that is not in the map reads as 0 -/
  urrIdMap : UrrType → UInt32 := fun _ => 0
  urrReportTime : Nat
  urrReportThreshold : UInt64

variable {G : Type} [IDGenerator G]

open IDGenerator

/-- The number of one type; without a number the map stays as it is. -/
def ChargedSession.generate (s : ChargedSession G) (type : UrrType) : ChargedSession G :=
  match allocate s.urrIDGenerator with
  | none => s
  | some (id, g) =>
    { s with
      urrIDGenerator := g
      urrIdMap := Function.update s.urrIdMap type (UInt32.ofNat id) }

def ChargedSession.generateUrrId (s : ChargedSession G) : ChargedSession G :=
  [.n3n6MbqeUrr, .n3n6MaqeUrr, .n9n6MbqeUrr, .n9n6MaqeUrr, .n3n9MbqeUrr, .n3n9MaqeUrr].foldl
    ChargedSession.generate s

def newSMContext (G : Type) [IDGenerator G] (urrReportTime : Nat) (urrReportThreshold : UInt64) :
    ChargedSession G :=
  ChargedSession.generateUrrId
    { urrIDGenerator := newGenerator 1 (2 ^ 32 - 1)
      urrReportTime := urrReportTime
      urrReportThreshold := urrReportThreshold }

/-- A number is left. -/
def ChargedSession.HasNumber (s : ChargedSession G) : Prop := (allocate s.urrIDGenerator).isSome

def SMContext.registerUrr (c : SMContext) (upfId : String) (urrID : UInt32) (rule : URR) :
    SMContext :=
  let entries := (c.urrTable.lookup upfId).getD ∅
  { c with urrTable := if urrID ∈ entries then c.urrTable
      else c.urrTable.insert upfId (entries.insert urrID ⟨rule, .initial⟩) }

def ChargedSession.register (s : ChargedSession G) (upfId : String) (urrID : UInt32) (rule : URR) :
    ChargedSession G :=
  { s with ctx := s.ctx.registerUrr upfId urrID rule }

/-! ## URRs that only measure -/

def PathNode.addUrrToNode (node : PathNode) (urrID : UInt32) (isMeasureBeforeQos : Bool)
    (s : ChargedSession G) : ChargedSession G :=
  if (s.ctx.urrEntry node.upfId urrID).isNone ∧ node.associated then
    s.register node.upfId urrID
      { mnop := true
        mbqe := isMeasureBeforeQos
        reportingTrigger := { perio := true, volth := true }
        measurementPeriod := s.urrReportTime
        volumeThreshold := s.urrReportThreshold }
  else s

/-- The two URRs of one node. -/
def addUrrsToNode (mbqe maqe : UrrType) (s : ChargedSession G) (node : PathNode) :
    ChargedSession G :=
  node.addUrrToNode (s.urrIdMap maqe) false (node.addUrrToNode (s.urrIdMap mbqe) true s)

def addUrrToPath (path : List PathNode) (s : ChargedSession G) : ChargedSession G :=
  if s.urrReportTime = 0 ∧ s.urrReportThreshold = 0 then s
  else match path with
    | [] => s
    | [node] => addUrrsToNode .n3n6MbqeUrr .n3n6MaqeUrr s node
    | node :: next =>
      next.foldl (addUrrsToNode .n9n6MbqeUrr .n9n6MaqeUrr)
        (addUrrsToNode .n3n9MbqeUrr .n3n9MaqeUrr s node)

/-! ## AddChargingRules -/

/-- The method that the data asks for and the URR that goes with it. -/
def ChargingData.method (chgData : ChargingData) (threshold : UInt64) :
    Option (QuotaManagementIndicator × URR) :=
  if chgData.online then
    some (.onlineCharging, { mnop := false, mbqe := false, reportingTrigger := { start := true } })
  else if chgData.offline then
    some (.offlineCharging,
      { mnop := false
        mbqe := false
        reportingTrigger := { volth := true }
        volumeThreshold := threshold })
  else none

/-- The new URR's number and what is charged for it; `none` is the pair of nils. -/
def createUrrAndChgInfo (s : ChargedSession G) (chgData : Option ChargingData)
    (chgLevel : ChargingLevel) (upf : PathNode) :
    Except NilDereference (Option (UInt32 × ChargingInfo) × ChargedSession G) :=
  match allocate s.urrIDGenerator with
  | none => .ok (none, s)
  | some (id, g) =>
    let urrID := UInt32.ofNat id
    let s := { s with urrIDGenerator := g }
    match chgData with
    | none => .error .chargingData
    | some chgData =>
      match chgData.method s.urrReportThreshold with
      | none => .ok (none, s)
      | some (method, rule) =>
        if upf.associated then
          let chgInfo : ChargingInfo :=
            { ratingGroup := chgData.ratingGroup
              chargingLevel := chgLevel
              upfId := upf.upfId
              chargingMethod := method }
          .ok (some (urrID, chgInfo), s.register upf.upfId urrID rule)
        else .ok (none, s)

/-- `smContext.ChargingInfo[urr.URRID] = chgInfo`, if there is a URR. -/
def ChargedSession.bind (s : ChargedSession G) : Option (UInt32 × ChargingInfo) → ChargedSession G
  | none => s
  | some (urrID, chgInfo) =>
    { s with ctx := { s.ctx with chargingInfo := s.ctx.chargingInfo.insert urrID chgInfo } }

def getOrCreateUrr (upf : PathNode) (s : ChargedSession G) :
    Option ChargingData → Except NilDereference (ChargedSession G)
  -- read by the comparison of the rating groups, by the call or by the warning after it
  | none => .error .chargingData
  | some chgData =>
    if s.ctx.chargingInfo.any fun _ info => info.upfId = upf.upfId ∧
        info.chargingLevel = .pduSessionCharging ∧ info.ratingGroup = chgData.ratingGroup then .ok s
    else do
      let (created, s) ← createUrrAndChgInfo s (some chgData) .pduSessionCharging upf
      pure (s.bind created)

/-- The PDU-level URRs of a flow rule's path. -/
def addPduUrrs (upf : PathNode) (chgLevel : ChargingLevel)
    (pduChgDatas : List (Option ChargingData)) (s : ChargedSession G) :
    Except NilDereference (ChargedSession G) :=
  if chgLevel = .pduSessionCharging then .ok s else pduChgDatas.foldlM (getOrCreateUrr upf) s

/-- A pointer is read. -/
def NilDereference.unless (e : NilDereference) (there : Bool) : Except NilDereference Unit :=
  if there then .ok () else .error e

def addChargingRules (path : List PathNode) (chgLevel : ChargingLevel)
    (chgData : Option ChargingData) (pduChgDatas : List (Option ChargingData))
    (s : ChargedSession G) : Except NilDereference (ChargedSession G) :=
  if chgData = none ∧ pduChgDatas = [] then .ok s
  else match path.getLast? with
    | none => .ok s
    | some upf => do
      let (created, s) ← createUrrAndChgInfo s chgData chgLevel upf
      -- the warning about a URR that was not created prints the rating group
      NilDereference.chargingData.unless (created.isSome || chgData.isSome)
      let s ← addPduUrrs upf chgLevel pduChgDatas (s.bind created)
      -- and the line after the loop the URR's number
      NilDereference.urr.unless created.isSome
      pure s

/-! ## Policy decisions -/

/-- A PCC rule on its way through `processRule`. Its path has got through the activation of the
    tunnels or not. A rule that refers to charging data may do so in vain. -/
structure ProcessedRule where
  path : List PathNode
  tunnelsUp : Bool
  refChgData : Option (Option ChargingData)

/-- What `ApplyPccRules` does about charging: the rules of its two passes in the order in which
    they are taken, and the data of the PDU-level rules that stay. A decision that fails on its way
    is one with fewer rules. -/
structure Decision where
  pduRules : List ProcessedRule
  flowRules : List ProcessedRule
  kept : List (Option ChargingData)
  pduChgDatas : List (Option ChargingData)
  /-- collected in the order of a map -/
  collected : pduChgDatas.Perm (kept ++ pduRules.filterMap ProcessedRule.refChgData)

/-- A call of `CreatePccRuleDataPath`. The default path of a session is the path of a call without
    charging data. -/
structure RuleCall where
  rule : ProcessedRule
  chgLevel : ChargingLevel
  pduChgDatas : List (Option ChargingData)

def RuleCall.chgData (call : RuleCall) : Option ChargingData := call.rule.refChgData.join

def Decision.calls (decision : Decision) : List RuleCall :=
  (decision.pduRules.map fun rule => ⟨rule, .pduSessionCharging, []⟩) ++
    decision.flowRules.map fun rule => ⟨rule, .flowCharging, decision.pduChgDatas⟩

/-- The part of `ActivateTunnelAndPDR` that creates URRs. -/
def activateUrrs (rule : ProcessedRule) (s : ChargedSession G) : ChargedSession G :=
  if rule.tunnelsUp then addUrrToPath rule.path s else s

def createPccRuleDataPath (s : ChargedSession G) (call : RuleCall) :
    Except NilDereference (ChargedSession G) :=
  addChargingRules call.rule.path call.chgLevel call.chgData call.pduChgDatas
    (activateUrrs call.rule s)

/-- The session after these calls, all made by policy decisions. -/
structure Reached (urrReportTime : Nat) (urrReportThreshold : UInt64) (calls : List RuleCall)
    (s : ChargedSession G) : Prop where
  decided : ∃ decisions : List Decision, calls <+: decisions.flatMap Decision.calls
  run : calls.foldlM createPccRuleDataPath (newSMContext G urrReportTime urrReportThreshold) = .ok s

/-! ## chargingNotificationProcedure -/

/-- The body of the loops: what is charged for the URR decides whether it is queried. -/
def queryUrr (c : SMContext) (rg : Int32) (upfId : String) (queried : List (String × UInt32))
    (urrID : UInt32) : Except NilDereference (List (String × UInt32)) :=
  match c.chargingInfo.lookup urrID with
  | none => .error .chargingInfo
  | some chgInfo =>
    .ok (if chgInfo.ratingGroup = rg ∨ chgInfo.chargingLevel = .pduSessionCharging then
      queried ++ [(upfId, urrID)] else queried)

/-- The numbers of the URRs of a UPF, in the order of the map. -/
def urrIDsOf (order : RangeOrder UInt32) (c : SMContext) (upfId : String) : List UInt32 :=
  order.keys 0 ((c.urrTable.lookup upfId).getD ∅).keys

/-- The URRs that a notification queries; it lists the rating groups of its details. -/
def chargingNotificationProcedure (upfs : RangeOrder String) (urrs : RangeOrder UInt32)
    (reauthorizationDetails : List Int32) (c : SMContext) :
    Except NilDereference (List (String × UInt32)) :=
  reauthorizationDetails.foldlM (fun queried rg =>
    (upfs.keys 0 c.urrTable.keys).foldlM (fun queried upfId =>
      (urrIDsOf urrs c upfId).foldlM (queryUrr c rg upfId) queried) queried) []

/-! ## Which calls complete -/

variable {s s' : ChargedSession G} {chgData : Option ChargingData} {chgLevel : ChargingLevel}
  {upf : PathNode} {created : Option (UInt32 × ChargingInfo)} {c : SMContext} {upfId : String}
  {urrID : UInt32} {path : List PathNode} {pduChgDatas : List (Option ChargingData)}

/-- A URR can be made for the data. -/
def Creates (s : ChargedSession G) (upf : PathNode) (chgData : ChargingData) : Prop :=
  s.HasNumber ∧ (chgData.online ∨ chgData.offline) ∧ upf.associated

theorem method_eq_none_iff {d : ChargingData} {threshold : UInt64} :
    d.method threshold = none ↔ ¬ (d.online ∨ d.offline) := by
  unfold ChargingData.method
  cases d.online <;> cases d.offline <;> simp

/-- Everything that CreateUrrAndChgInfo can do with the data. -/
theorem created_cases (s : ChargedSession G) (d : ChargingData) (chgLevel : ChargingLevel)
    (upf : PathNode) :
    (¬ Creates s upf d ∧ ∃ g, free g ⊆ free s.urrIDGenerator ∧
      createUrrAndChgInfo s (some d) chgLevel upf = .ok (none, { s with urrIDGenerator := g })) ∨
    Creates s upf d ∧ ∃ id g info rule, allocate s.urrIDGenerator = some (id, g) ∧
      createUrrAndChgInfo s (some d) chgLevel upf =
        .ok (some (UInt32.ofNat id, info),
          { s with urrIDGenerator := g }.register upf.upfId (UInt32.ofNat id) rule) := by
  unfold createUrrAndChgInfo Creates ChargedSession.HasNumber
  cases halloc : allocate s.urrIDGenerator with
  | none => exact Or.inl ⟨fun h => Bool.false_ne_true h.1, _, subset_rfl, rfl⟩
  | some r =>
    have hsub : free r.2 ⊆ free s.urrIDGenerator := free_subset halloc
    dsimp only
    cases hmethod : d.method s.urrReportThreshold with
    | none => exact Or.inl ⟨fun h => method_eq_none_iff.mp hmethod h.2.1, r.2, hsub, rfl⟩
    | some m =>
      by_cases hassoc : upf.associated
      · have hdata : d.online ∨ d.offline := by
          by_contra hno
          rw [method_eq_none_iff.mpr hno] at hmethod
          cases hmethod
        dsimp only
        rw [if_pos hassoc]
        exact Or.inr ⟨⟨rfl, hdata, hassoc⟩, r.1, r.2, _, m.2, rfl, rfl⟩
      · dsimp only
        rw [if_neg hassoc]
        exact Or.inl ⟨fun h => hassoc h.2.2, r.2, hsub, rfl⟩

/-- Without data there is no URR, whether the data is read or no number is left. -/
theorem created_none (s : ChargedSession G) (chgLevel : ChargingLevel) (upf : PathNode) :
    createUrrAndChgInfo s none chgLevel upf = .error .chargingData ∨
      createUrrAndChgInfo s none chgLevel upf = .ok (none, s) := by
  unfold createUrrAndChgInfo
  cases allocate s.urrIDGenerator with
  | none => exact Or.inr rfl
  | some r => exact Or.inl rfl

theorem getOrCreateUrr_ok_iff {d : Option ChargingData} :
    (∃ s', getOrCreateUrr upf s d = .ok s') ↔ d ≠ none := by
  cases d with
  | none => exact ⟨fun ⟨_, h⟩ => (nomatch h), fun h => absurd rfl h⟩
  | some d =>
    refine ⟨fun _ => Option.some_ne_none d, fun _ => ?_⟩
    unfold getOrCreateUrr
    dsimp only
    split_ifs
    · exact ⟨s, rfl⟩
    · obtain ⟨-, g, -, h⟩ | ⟨-, id, g, info, rule, -, h⟩ :=
        created_cases s d .pduSessionCharging upf
      · rw [h]
        exact ⟨_, rfl⟩
      · rw [h]
        exact ⟨_, rfl⟩

theorem addPduUrrs_ok_iff :
    (∃ s', addPduUrrs upf chgLevel pduChgDatas s = .ok s') ↔
      chgLevel = .pduSessionCharging ∨ none ∉ pduChgDatas := by
  unfold addPduUrrs
  by_cases hlevel : chgLevel = .pduSessionCharging
  · rw [if_pos hlevel]
    exact ⟨fun _ => Or.inl hlevel, fun _ => ⟨s, rfl⟩⟩
  · have hloop : (∃ s', pduChgDatas.foldlM (getOrCreateUrr upf) s = .ok s') ↔
        ∀ d ∈ pduChgDatas, d ≠ none :=
      foldlM_ok_iff (P := fun d => d ≠ none) fun _ _ => getOrCreateUrr_ok_iff
    rw [if_neg hlevel, hloop, or_iff_right hlevel]
    exact ⟨fun h hn => h none hn rfl, fun h d hd hn => h (hn ▸ hd)⟩

/-- A path without nodes, or with a rule that nothing is charged for. Otherwise the data of the
    rule has a URR made for it, and the PDU-level data of a flow rule is there. -/
def Sound (s : ChargedSession G) (path : List PathNode) (chgLevel : ChargingLevel)
    (chgData : Option ChargingData) (pduChgDatas : List (Option ChargingData)) : Prop :=
  (chgData = none ∧ pduChgDatas = []) ∨
    ∀ upf ∈ path.getLast?, (∃ d ∈ chgData, Creates s upf d) ∧
      (chgLevel = .pduSessionCharging ∨ none ∉ pduChgDatas)

/-- A rule without data beside PDU-level data is not added. -/
theorem addChargingRules_none (hlast : path.getLast? = some upf) (hpdu : pduChgDatas ≠ []) :
    addChargingRules path chgLevel none pduChgDatas s = .error .chargingData := by
  unfold addChargingRules
  rw [if_neg fun h => hpdu h.2, hlast]
  dsimp only
  obtain h | h := created_none s chgLevel upf
  · rw [h]
    rfl
  · rw [h]
    rfl

/-- Everything that AddChargingRules can do with a rule that is charged for: it fails for want of a
    URR, or has one and goes on to the PDU-level data. -/
theorem addChargingRules_cases (s : ChargedSession G) (chgLevel : ChargingLevel)
    (hskip : ¬ (chgData = none ∧ pduChgDatas = [])) (hlast : path.getLast? = some upf) :
    ((¬ ∃ d ∈ chgData, Creates s upf d) ∧
      ∀ s', addChargingRules path chgLevel chgData pduChgDatas s ≠ .ok s') ∨
    ∃ d ∈ chgData, Creates s upf d ∧ ∃ id g info rule, allocate s.urrIDGenerator = some (id, g) ∧
      addChargingRules path chgLevel chgData pduChgDatas s =
        addPduUrrs upf chgLevel pduChgDatas
          (({ s with urrIDGenerator := g }.register upf.upfId (UInt32.ofNat id) rule).bind
            (some (UInt32.ofNat id, info))) := by
  cases chgData with
  | none =>
    rw [addChargingRules_none hlast fun h => hskip ⟨rfl, h⟩]
    exact Or.inl ⟨by simp, fun _ h => (nomatch h)⟩
  | some d =>
    unfold addChargingRules
    rw [if_neg hskip, hlast]
    dsimp only
    obtain ⟨hnot, g, -, hcreated⟩ | ⟨hcreates, id, g, info, rule, halloc, hcreated⟩ :=
      created_cases s d chgLevel upf
    · rw [hcreated]
      refine Or.inl ⟨by simpa using hnot, fun s' h => ?_⟩
      obtain ⟨_, _, h⟩ := bind_eq_ok.mp
        (show (addPduUrrs upf chgLevel pduChgDatas _ >>= fun _ => .error .urr) = .ok s' from h)
      cases h
    · rw [hcreated]
      exact Or.inr ⟨d, rfl, hcreates, id, g, info, rule, halloc,
        bind_pure (addPduUrrs upf chgLevel pduChgDatas _)⟩

theorem addChargingRules_skip (h : (chgData = none ∧ pduChgDatas = []) ∨ path.getLast? = none) :
    addChargingRules path chgLevel chgData pduChgDatas s = .ok s := by
  unfold addChargingRules
  split_ifs with hskip
  · rfl
  · rw [h.resolve_left hskip]

theorem addChargingRules_ok_iff :
    (∃ s', addChargingRules path chgLevel chgData pduChgDatas s = .ok s') ↔
      Sound s path chgLevel chgData pduChgDatas := by
  unfold Sound
  by_cases hskip : chgData = none ∧ pduChgDatas = []
  · exact iff_of_true ⟨s, addChargingRules_skip (Or.inl hskip)⟩ (Or.inl hskip)
  rw [or_iff_right hskip]
  cases hlast : path.getLast? with
  | none => exact iff_of_true ⟨s, addChargingRules_skip (Or.inr hlast)⟩ (fun _ h => (nomatch h))
  | some upf =>
    simp only [Option.mem_some_iff, forall_eq']
    obtain ⟨hno, hfail⟩ | ⟨d, hd, hcreates, id, g, info, rule, -, heq⟩ :=
      addChargingRules_cases s chgLevel hskip hlast
    · exact iff_of_false (fun ⟨s', h⟩ => hfail s' h) (fun h => hno h.1)
    · rw [heq, addPduUrrs_ok_iff, and_iff_right ⟨d, hd, hcreates⟩]

/-! ## What a notification finds in the table -/

/-- A URR in the table that nothing is charged for. -/
def Unbilled (c : SMContext) (upfId : String) (urrID : UInt32) : Prop :=
  (c.urrEntry upfId urrID).isSome ∧ urrID ∉ c.chargingInfo

theorem mem_urrIDsOf {order : RangeOrder UInt32} :
    urrID ∈ urrIDsOf order c upfId ↔ (c.urrEntry upfId urrID).isSome := by
  unfold urrIDsOf SMContext.urrEntry
  rw [order.mem_keys, Finmap.mem_keys]
  cases c.urrTable.lookup upfId with
  | none => simp [Finmap.notMem_empty]
  | some entries => simp [Finmap.lookup_isSome]

theorem queryUrr_ok_iff {rg : Int32} {queried : List (String × UInt32)} :
    (∃ r, queryUrr c rg upfId queried urrID = .ok r) ↔ urrID ∈ c.chargingInfo := by
  unfold queryUrr
  rw [← Finmap.lookup_isSome]
  cases c.chargingInfo.lookup urrID with
  | none => simp
  | some info => simp

theorem notification_ok_iff {upfs : RangeOrder String} {urrs : RangeOrder UInt32}
    {details : List Int32} :
    (∃ r, chargingNotificationProcedure upfs urrs details c = .ok r) ↔
      details = [] ∨ ¬ ∃ upfId urrID, Unbilled c upfId urrID := by
  have hurrs : ∀ rg upfId queried,
      (∃ r, (urrIDsOf urrs c upfId).foldlM (queryUrr c rg upfId) queried = .ok r) ↔
        ∀ urrID ∈ urrIDsOf urrs c upfId, urrID ∈ c.chargingInfo := fun _ _ _ =>
    foldlM_ok_iff (P := fun urrID => urrID ∈ c.chargingInfo) fun _ _ => queryUrr_ok_iff
  have hloop : (∃ r, chargingNotificationProcedure upfs urrs details c = .ok r) ↔
      ∀ rg ∈ details, ∀ upfId ∈ upfs.keys 0 c.urrTable.keys,
        ∀ urrID ∈ urrIDsOf urrs c upfId, urrID ∈ c.chargingInfo :=
    foldlM_ok_iff fun _ rg => foldlM_ok_iff fun queried upfId => hurrs rg upfId queried
  rw [hloop]
  have hkey : ∀ upfId urrID, (c.urrEntry upfId urrID).isSome → upfId ∈ c.urrTable.keys := by
    intro upfId urrID h
    rw [Finmap.mem_keys, ← Finmap.lookup_isSome]
    exact Option.isSome_of_isSome_bind h
  constructor
  · intro h
    by_cases hnil : details = []
    · exact Or.inl hnil
    · obtain ⟨rg, hrg⟩ := List.exists_mem_of_ne_nil details hnil
      refine Or.inr fun ⟨upfId, urrID, hentry, hbilled⟩ => hbilled ?_
      exact h rg hrg upfId ((upfs.mem_keys 0 _ _).mpr (hkey upfId urrID hentry)) urrID
        (mem_urrIDsOf.mpr hentry)
  · rintro (rfl | hall) rg hrg upfId - urrID hid
    · exact absurd hrg List.not_mem_nil
    · by_contra hbilled
      exact hall ⟨upfId, urrID, mem_urrIDsOf.mp hid, hbilled⟩

/-! ## Measuring and charging in one table -/

theorem isSome_urrEntry_registerUrr {rule : URR} {upfId' : String} {urrID' : UInt32} :
    ((c.registerUrr upfId urrID rule).urrEntry upfId' urrID').isSome ↔
      (upfId' = upfId ∧ urrID' = urrID) ∨ (c.urrEntry upfId' urrID').isSome := by
  unfold SMContext.registerUrr SMContext.urrEntry
  dsimp only
  by_cases hu : upfId' = upfId
  · subst hu
    cases hl : c.urrTable.lookup upfId' with
    | none => simp [Finmap.notMem_empty, GoMap.lookup_insert_eq]
    | some entries =>
      by_cases hin : urrID ∈ entries
      · simp only [Option.getD_some, if_pos hin, hl, Option.bind_some, Finmap.lookup_isSome,
          true_and]
        exact ⟨Or.inr, fun h => h.elim (fun h => h ▸ hin) id⟩
      · simp [hin, Finmap.lookup_isSome, Finmap.mem_insert]
  · split_ifs with hin
    · simp [hu]
    · simp [hu]

/-- The tunnels of the path are up and it has a UPF that takes a URR. -/
def RuleCall.Measured (call : RuleCall) : Prop :=
  call.rule.tunnelsUp ∧ ∃ node ∈ call.rule.path, node.associated

/-- The numbers that are left are numbers of 32 bits, and none of them measures. -/
structure Numbered (s : ChargedSession G) : Prop where
  bound : ∀ id ∈ free s.urrIDGenerator, id < 2 ^ 32
  measuring : ∀ t, (s.urrIdMap t).toNat ∉ free s.urrIDGenerator

theorem Numbered.toNat_allocated (h : Numbered s) {id : Nat} {g : G}
    (halloc : allocate s.urrIDGenerator = some (id, g)) :
    (UInt32.ofNat id).toNat = id ∧ ∀ t, s.urrIdMap t ≠ UInt32.ofNat id := by
  obtain ⟨hfree, -⟩ := allocate_eq_some halloc
  have hid : (UInt32.ofNat id).toNat = id := UInt32.toNat_ofNat_of_lt' (h.bound id hfree)
  refine ⟨hid, fun t ht => h.measuring t ?_⟩
  rw [ht, hid]
  exact hfree

theorem Numbered.generate (h : Numbered s) (type : UrrType) : Numbered (s.generate type) := by
  unfold ChargedSession.generate
  cases halloc : allocate s.urrIDGenerator with
  | none => exact h
  | some r =>
    obtain ⟨hid, -⟩ := h.toNat_allocated halloc
    obtain ⟨-, hfree⟩ := allocate_eq_some halloc
    refine ⟨fun id hmem => ?_, fun t => ?_⟩
    · rw [hfree] at hmem
      exact h.bound id (Finset.mem_of_mem_erase hmem)
    · dsimp only
      rw [hfree, Finset.mem_erase, Function.update_apply]
      split_ifs
      · rw [hid]
        exact fun hmem => hmem.1 rfl
      · exact fun hmem => h.measuring t hmem.2

/-- The URRs of a session that has set up measurement or not (`m`): the measuring ones have the
    numbers of `urrIdMap`, and what is charged for is under others. -/
structure Tracks (time : Nat) (threshold : UInt64) (m : Prop) (s : ChargedSession G) : Prop where
  time : s.urrReportTime = time
  threshold : s.urrReportThreshold = threshold
  numbered : Numbered s
  charged : ∀ urrID ∈ s.ctx.chargingInfo, ∀ t, s.urrIdMap t ≠ urrID
  entry : ∀ upfId urrID, (s.ctx.urrEntry upfId urrID).isSome →
    urrID ∈ s.ctx.chargingInfo ∨ (∃ t, s.urrIdMap t = urrID) ∧ m
  measured : m → ∃ upfId t, (s.ctx.urrEntry upfId (s.urrIdMap t)).isSome

variable {time : Nat} {threshold : UInt64} {m m' : Prop}

theorem tracks_new : Tracks time threshold False (newSMContext G time threshold) := by
  have hrun : Numbered (newSMContext G time threshold) ∧
      (newSMContext G time threshold).ctx = {} ∧
      (newSMContext G time threshold).urrReportTime = time ∧
      (newSMContext G time threshold).urrReportThreshold = threshold := by
    refine foldl_inv (fun s => Numbered s ∧ s.ctx = {} ∧ s.urrReportTime = time ∧
      s.urrReportThreshold = threshold) (fun s type h => ⟨h.1.generate type, ?_⟩) _
      ⟨⟨?_, ?_⟩, rfl, rfl, rfl⟩
    · unfold ChargedSession.generate
      split
      · exact h.2
      · exact h.2
    · intro id hid
      rw [free_new, Finset.mem_Icc] at hid
      omega
    · intro t
      rw [free_new, Finset.mem_Icc]
      exact fun h => Nat.not_succ_le_zero 0 h.1
  obtain ⟨hnumbered, hctx, htime, hthreshold⟩ := hrun
  refine ⟨htime, hthreshold, hnumbered, ?_, ?_, False.elim⟩
  · rw [hctx]
    exact fun _ h => absurd h Finmap.notMem_empty
  · rw [hctx]
    intro _ _ h
    cases h

section

variable (h : Tracks time threshold m s)

include h

theorem Tracks.exists_unbilled_iff :
    (∃ upfId urrID, Unbilled s.ctx upfId urrID) ↔ m := by
  constructor
  · rintro ⟨upfId, urrID, hentry, hbilled⟩
    exact ((h.entry upfId urrID hentry).resolve_left hbilled).2
  · intro hm
    obtain ⟨upfId, t, hentry⟩ := h.measured hm
    exact ⟨upfId, s.urrIdMap t, hentry, fun hbilled => h.charged _ hbilled t rfl⟩

theorem Tracks.taken {g : G} (hg : free g ⊆ free s.urrIDGenerator) :
    Tracks time threshold m { s with urrIDGenerator := g } :=
  ⟨h.time, h.threshold, ⟨fun id hid => h.numbered.bound id (hg hid),
    fun t ht => h.numbered.measuring t (hg ht)⟩, h.charged, h.entry, h.measured⟩

theorem Tracks.charge {id : Nat} {g : G} (halloc : allocate s.urrIDGenerator = some (id, g))
    (upfId : String) (rule : URR) (info : ChargingInfo) :
    Tracks time threshold m
      (({ s with urrIDGenerator := g }.register upfId (UInt32.ofNat id) rule).bind
        (some (UInt32.ofNat id, info))) := by
  obtain ⟨hbound, hmeasuring⟩ := (h.taken (free_subset halloc)).numbered
  refine ⟨h.time, h.threshold, ⟨hbound, hmeasuring⟩, ?_, ?_, ?_⟩
  · intro urrID hid
    rcases Finmap.mem_insert.mp hid with rfl | hid
    · exact (h.numbered.toNat_allocated halloc).2
    · exact h.charged urrID hid
  · intro upfId' urrID' hentry
    rcases isSome_urrEntry_registerUrr.mp hentry with ⟨-, rfl⟩ | hentry
    · exact Or.inl (Finmap.mem_insert.mpr (Or.inl rfl))
    · exact (h.entry upfId' urrID' hentry).imp_left fun hid => Finmap.mem_insert.mpr (Or.inr hid)
  · intro hm
    obtain ⟨upfId', t, hentry⟩ := h.measured hm
    exact ⟨upfId', t, isSome_urrEntry_registerUrr.mpr (Or.inr hentry)⟩

theorem Tracks.getOrCreateUrr {d : Option ChargingData} (hs' : getOrCreateUrr upf s d = .ok s') :
    Tracks time threshold m s' := by
  cases d with
  | none => cases hs'
  | some d =>
    unfold Charging.getOrCreateUrr at hs'
    dsimp only at hs'
    split_ifs at hs'
    · cases hs'
      exact h
    · obtain ⟨-, g, hg, hcreated⟩ | ⟨-, id, g, info, rule, halloc, hcreated⟩ :=
        created_cases s d .pduSessionCharging upf
      · rw [hcreated] at hs'
        cases hs'
        exact h.taken hg
      · rw [hcreated] at hs'
        cases hs'
        exact h.charge halloc upf.upfId rule info

theorem Tracks.addPduUrrs (hs' : addPduUrrs upf chgLevel pduChgDatas s = .ok s') :
    Tracks time threshold m s' := by
  unfold Charging.addPduUrrs at hs'
  split_ifs at hs'
  · cases hs'
    exact h
  · induction pduChgDatas generalizing s with
    | nil =>
      cases hs'
      exact h
    | cons d ds ih =>
      obtain ⟨s₁, h₁, h₂⟩ := bind_eq_ok.mp hs'
      exact ih (h.getOrCreateUrr h₁) h₂

theorem Tracks.addChargingRules
    (hs' : addChargingRules path chgLevel chgData pduChgDatas s = .ok s') :
    Tracks time threshold m s' := by
  by_cases hskip : (chgData = none ∧ pduChgDatas = []) ∨ path.getLast? = none
  · rw [addChargingRules_skip hskip] at hs'
    cases hs'
    exact h
  rw [not_or] at hskip
  obtain ⟨upf, hlast⟩ := Option.ne_none_iff_exists'.mp hskip.2
  obtain ⟨-, hfail⟩ | ⟨d, -, -, id, g, info, rule, halloc, heq⟩ :=
    addChargingRules_cases s chgLevel hskip.1 hlast
  · exact absurd hs' (hfail s')
  · rw [heq] at hs'
    exact (h.charge halloc upf.upfId rule info).addPduUrrs hs'

theorem Tracks.addUrrToNode (t : UrrType) (b : Bool) :
    Tracks time threshold (m ∨ upf.associated) (upf.addUrrToNode (s.urrIdMap t) b s) := by
  unfold PathNode.addUrrToNode
  split_ifs with hnew
  · refine ⟨h.time, h.threshold, ⟨h.numbered.bound, h.numbered.measuring⟩, h.charged, ?_, ?_⟩
    · intro upfId' urrID' hentry
      rcases isSome_urrEntry_registerUrr.mp hentry with ⟨-, rfl⟩ | hentry
      · exact Or.inr ⟨⟨t, rfl⟩, Or.inr hnew.2⟩
      · exact (h.entry upfId' urrID' hentry).imp_right fun hold => ⟨hold.1, Or.inl hold.2⟩
    · exact fun _ => ⟨upf.upfId, t, isSome_urrEntry_registerUrr.mpr (Or.inl ⟨rfl, rfl⟩)⟩
  · have hm : m ∨ upf.associated → m := by
      rintro (hm | hassoc)
      · exact hm
      · -- the URR is there already, under a number that nothing is charged for
        have hentry : (s.ctx.urrEntry upf.upfId (s.urrIdMap t)).isSome := by
          by_contra hnone
          exact hnew ⟨Option.not_isSome_iff_eq_none.mp hnone ▸ rfl, hassoc⟩
        exact ((h.entry upf.upfId _ hentry).resolve_left fun hc => h.charged _ hc t rfl).2
    refine ⟨h.time, h.threshold, h.numbered, h.charged, ?_, fun h' => h.measured (hm h')⟩
    exact fun upfId' urrID' hentry =>
      (h.entry upfId' urrID' hentry).imp_right fun hold => ⟨hold.1, Or.inl hold.2⟩

theorem Tracks.congr (hm : m ↔ m') :
    Tracks time threshold m' s :=
  propext hm ▸ h

theorem Tracks.addUrrsToNode (mbqe maqe : UrrType) :
    Tracks time threshold (m ∨ upf.associated) (addUrrsToNode mbqe maqe s upf) := by
  have hmap : (upf.addUrrToNode (s.urrIdMap mbqe) true s).urrIdMap = s.urrIdMap := by
    unfold PathNode.addUrrToNode
    split_ifs
    · rfl
    · rfl
  have hboth : Tracks time threshold ((m ∨ upf.associated) ∨ upf.associated)
      (upf.addUrrToNode _ false (upf.addUrrToNode (s.urrIdMap mbqe) true s)) :=
    (h.addUrrToNode mbqe true).addUrrToNode maqe false
  rw [hmap, or_assoc, or_self] at hboth
  exact hboth

theorem Tracks.foldl_addUrrsToNode (mbqe maqe : UrrType) (path : List PathNode) :
    Tracks time threshold (m ∨ ∃ node ∈ path, node.associated)
      (path.foldl (Charging.addUrrsToNode mbqe maqe) s) := by
  induction path generalizing s m with
  | nil => exact h.congr (by simp)
  | cons node path ih =>
    refine (ih (h.addUrrsToNode mbqe maqe)).congr ?_
    simp only [List.mem_cons, exists_eq_or_imp, or_assoc]

theorem Tracks.addUrrToPath (hon : ¬ (time = 0 ∧ threshold = 0)) (path : List PathNode) :
    Tracks time threshold (m ∨ ∃ node ∈ path, node.associated) (addUrrToPath path s) := by
  unfold Charging.addUrrToPath
  rw [h.time, h.threshold, if_neg hon]
  cases path with
  | nil => exact h.congr (by simp)
  | cons node path =>
    cases path with
    | nil => exact (h.addUrrsToNode .n3n6MbqeUrr .n3n6MaqeUrr).congr (by simp)
    | cons next path =>
      refine ((h.addUrrsToNode .n3n9MbqeUrr .n3n9MaqeUrr).foldl_addUrrsToNode .n9n6MbqeUrr
        .n9n6MaqeUrr (next :: path)).congr ?_
      simp only [List.mem_cons, exists_eq_or_imp, or_assoc]

theorem Tracks.createPccRuleDataPath {call : RuleCall}
    (hs' : createPccRuleDataPath s call = .ok s') :
    Tracks time threshold (m ∨ ¬ (time = 0 ∧ threshold = 0) ∧ call.Measured) s' := by
  refine Tracks.addChargingRules ?_ hs'
  unfold activateUrrs RuleCall.Measured
  by_cases hoff : time = 0 ∧ threshold = 0
  · have hsame : Charging.addUrrToPath call.rule.path s = s := by
      unfold Charging.addUrrToPath
      rw [h.time, h.threshold, if_pos hoff]
    rw [hsame, ite_self]
    exact h.congr (by simp [hoff])
  · split_ifs with hup
    · exact (h.addUrrToPath hoff call.rule.path).congr (by simp only [hoff, hup]; simp)
    · exact h.congr (by simp [hup])

end

theorem Reached.tracks {calls : List RuleCall} (h : Reached time threshold calls s) :
    Tracks time threshold (¬ (time = 0 ∧ threshold = 0) ∧ ∃ call ∈ calls, call.Measured) s := by
  have hrun : ∀ {calls : List RuleCall} {s₀ : ChargedSession G} {m : Prop},
      Tracks time threshold m s₀ → calls.foldlM Charging.createPccRuleDataPath s₀ = .ok s →
      Tracks time threshold
        (m ∨ ¬ (time = 0 ∧ threshold = 0) ∧ ∃ call ∈ calls, call.Measured) s := by
    intro calls
    induction calls with
    | nil =>
      intro s₀ m h₀ hs
      cases hs
      exact h₀.congr (by simp)
    | cons call calls ih =>
      intro s₀ m h₀ hs
      obtain ⟨s₁, h₁, h₂⟩ := bind_eq_ok.mp hs
      refine (ih (h₀.createPccRuleDataPath h₁) h₂).congr ?_
      simp only [List.mem_cons, exists_eq_or_imp, or_assoc, and_or_left]
  exact (hrun tracks_new h.run).congr (by rw [false_or])

/-- Charging rules and notifications in a session that policy decisions have reached: the rules of
    a path are added without reading nil exactly if they are `Sound`, and a notification reads no
    nil exactly if it has no details, usage is not measured or no path with a UPF has been set
    up. -/
theorem charging_completes_iff {calls : List RuleCall} (hs : Reached time threshold calls s) :
    (∀ path chgLevel chgData pduChgDatas,
      (∃ s', addChargingRules path chgLevel chgData pduChgDatas s = .ok s') ↔
        Sound s path chgLevel chgData pduChgDatas) ∧
    ∀ upfs urrs details, (∃ r, chargingNotificationProcedure upfs urrs details s.ctx = .ok r) ↔
      details = [] ∨ (time = 0 ∧ threshold = 0) ∨ ∀ call ∈ calls, ¬ call.Measured := by
  refine ⟨fun _ _ _ _ => addChargingRules_ok_iff, fun _ _ _ => ?_⟩
  rw [notification_ok_iff, hs.tracks.exists_unbilled_iff, not_and_or, not_not, not_exists]
  simp only [not_and]

/-- One UPF, and offline data for the rating group 1. -/
def upfPath : List PathNode := [⟨"upf", true⟩]

def offlineData : ChargingData := { ratingGroup := 1, offline := true }

/-- A PDU-level rule with charging data, and a flow rule without. -/
def mixedDecision : Decision where
  pduRules := [⟨upfPath, true, some (some offlineData)⟩]
  flowRules := [⟨upfPath, true, none⟩]
  kept := []
  pduChgDatas := [some offlineData]
  collected := List.Perm.refl _

def pduCall : RuleCall := ⟨⟨upfPath, true, some (some offlineData)⟩, .pduSessionCharging, []⟩

theorem measured_pduCall : ∃ call ∈ [pduCall], call.Measured :=
  ⟨pduCall, List.mem_singleton_self _, rfl, ⟨"upf", true⟩, List.mem_singleton_self _, rfl⟩

/-- The session after the PDU-level rule, with usage measured every ten seconds. -/
theorem reached_pduCall : ∃ s : ChargedSession Counter, Reached 10 0 [pduCall] s ∧ s.HasNumber :=
  ⟨_, ⟨⟨[mixedDecision], ⟨_, rfl⟩⟩, bind_eq_ok.mpr ⟨_, rfl, rfl⟩⟩, rfl⟩

/-- In this session a flow rule with charging data is added, and a notification is taken exactly if
    it has no details. -/
theorem charging_completes_iff_run : ∃ s : ChargedSession Counter, Reached 10 0 [pduCall] s ∧
    (∃ s', addChargingRules upfPath .flowCharging (some offlineData) [some offlineData] s =
      .ok s') ∧
    ∀ upfs urrs details,
      (∃ r, chargingNotificationProcedure upfs urrs details s.ctx = .ok r) ↔ details = [] := by
  obtain ⟨s, hreached, hnumber⟩ := reached_pduCall
  obtain ⟨hrules, hnotify⟩ := charging_completes_iff hreached
  refine ⟨s, hreached, (hrules _ _ _ _).mpr (Or.inr ?_), fun upfs urrs details =>
    (hnotify upfs urrs details).trans (or_iff_left ?_)⟩
  · rintro upf ⟨rfl⟩
    exact ⟨⟨offlineData, rfl, hnumber, Or.inr rfl, rfl⟩, Or.inr (by simp)⟩
  · rintro (hoff | hnone)
    · exact absurd hoff.1 (by decide)
    · obtain ⟨call, hcall, hmeasured⟩ := measured_pduCall
      exact hnone call hcall hmeasured

/-- With usage measured every ten seconds, the PDU-level rule leaves a session in which the flow rule
    reads its missing charging data, and every notification with a detail missing charging
    information. -/
theorem mixedDecision_reads_nil : ∃ flow, ∃ s : ChargedSession Counter,
    mixedDecision.calls = [pduCall, flow] ∧ Reached 10 0 [pduCall] s ∧
      createPccRuleDataPath s flow = .error .chargingData ∧
      ∀ upfs urrs rg details r,
        chargingNotificationProcedure upfs urrs (rg :: details) s.ctx ≠ .ok r := by
  obtain ⟨s, hreached, -⟩ := reached_pduCall
  refine ⟨_, s, rfl, hreached, ?_, fun upfs urrs rg details r hr => ?_⟩
  · exact addChargingRules_none rfl (List.cons_ne_nil _ _)
  · obtain hnil | hnone := notification_ok_iff.mp ⟨r, hr⟩
    · cases hnil
    · exact hnone (hreached.tracks.exists_unbilled_iff.mpr ⟨by decide, measured_pduCall⟩)

end Free5gc.Smf.Charging
