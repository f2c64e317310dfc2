/-
  The tunnels of a data path (`internal/context/datapath.go`): `ActivateTunnelAndPDR` gives every
  UPF of a session a packet detection rule for each direction, and with it a forwarding rule that
  encapsulates towards the neighbour.

  The nodes are doubly linked: `Prev` is the end point that the uplink tunnel comes from, `Next`
  that of the downlink tunnel. End points are positions among the nodes of the path. Both loops
  follow `Next` from the first node.

  A forwarding rule takes the neighbour's address anew, and an interface that has a name for an end
  point resolves it at each use. The resolver is therefore given for each rule apart. AN addresses
  are written as IPv4 addresses. `chained_iff` says what this leaves of the chain.

  Left out are PFCP sessions, QERs and URRs, rule ids and what else the rules hold; whether a PDR
  or QER can be had is given by `Env`. A return before `Activated` and a panic are both `none`.
-/
import Free5gc.Lib.Net
import Free5gc.Lib.Run
import Mathlib.Data.List.Basic

namespace Free5gc.Smf.UserPlane

open Free5gc.Lib

/-! ## Addresses -/

/-- `net.IP`; nil is empty. -/
abbrev IP := List UInt8

def to4 (ip : IP) : IP := (Lib.to4 ip).getD []

def to16 (ip : IP) : IP :=
  if ip.length = 4 then v4InV6Prefix ++ ip else if ip.length = 16 then ip else []

inductive PDUSessionType where
  | ipv4
  | ipv6
  | ipv4IPv6
  | other
  deriving DecidableEq

structure UPFInterfaceInfo where
  networkInstances : List String
  ipv4EndPointAddresses : List IP
  ipv6EndPointAddresses : List IP
  endpointFQDN : String

/-- `UPFInterfaceInfo.IP`; `none` is an error. -/
def UPFInterfaceInfo.ip (i : UPFInterfaceInfo) (type : PDUSessionType)
    (resolve : String → Option IP) : Option IP :=
  if (type = .ipv4 ∨ type = .ipv4IPv6) ∧ i.ipv4EndPointAddresses ≠ [] then
    i.ipv4EndPointAddresses.head?
  else if (type = .ipv6 ∨ type = .ipv4IPv6) ∧ i.ipv6EndPointAddresses ≠ [] then
    i.ipv6EndPointAddresses.head?
  else if i.endpointFQDN = "" then none
  else
    (resolve i.endpointFQDN).map fun ip =>
      match type with
      | .ipv4 => to4 ip
      | .ipv6 => to16 ip
      | _ => if to4 ip ≠ [] then to4 ip else to16 ip

inductive UpInterfaceType where
  | n3
  | n9

structure UPF where
  n3Interfaces : List UPFInterfaceInfo
  n9Interfaces : List UPFInterfaceInfo

def UPF.getInterface (upf : UPF) (type : UpInterfaceType) (dnn : String) :
    Option UPFInterfaceInfo :=
  match type with
  | .n3 => upf.n3Interfaces.find? fun iface => iface.networkInstances.contains dnn
  | .n9 => upf.n9Interfaces.find? fun iface => iface.networkInstances.contains dnn

/-! ## Data paths -/

/-- A tunnel end point: the local F-TEID of a PDR, or the outer header that a FAR creates. -/
structure FTEID where
  address : IP
  teid : UInt32
  deriving DecidableEq

structure FAR where
  outerHeaderCreation : Option FTEID := none

structure PDR where
  localFTeid : Option FTEID := none
  far : FAR := {}

structure GTPTunnel where
  srcEndPoint : Option Nat := none
  destEndPoint : Option Nat := none
  teid : UInt32 := 0
  pdr : Option PDR := none

structure DataPathNode where
  upf : UPF
  upLinkTunnel : GTPTunnel := {}
  downLinkTunnel : GTPTunnel := {}

namespace DataPathNode

def addNext (node : DataPathNode) (next : Option Nat) : DataPathNode :=
  { node with downLinkTunnel := { node.downLinkTunnel with srcEndPoint := next } }

def addPrev (node : DataPathNode) (prev : Option Nat) : DataPathNode :=
  { node with upLinkTunnel := { node.upLinkTunnel with srcEndPoint := prev } }

def next (node : DataPathNode) : Option Nat := node.downLinkTunnel.srcEndPoint

def prev (node : DataPathNode) : Option Nat := node.upLinkTunnel.srcEndPoint

def isANUPF (node : DataPathNode) : Bool := node.prev.isNone

def isAnchorUPF (node : DataPathNode) : Bool := node.next.isNone

end DataPathNode

structure DataPath where
  nodes : List DataPathNode
  activated : Bool := false

/-- `FirstDPNode` -/
def DataPath.firstDPNode (path : DataPath) : Option Nat :=
  if path.nodes = [] then none else some 0

/-- One turn of the loop of `GenerateDataPath`. -/
def addNode (nodes : List DataPathNode) (upf : UPF) : List DataPathNode :=
  match nodes.length with
  | 0 => [{ upf }]
  | k + 1 =>
    nodes.modify k (fun node => node.addNext (some (k + 1))) ++
      [DataPathNode.addPrev { upf } (some k)]

def generateDataPath (upPath : List UPF) : Option DataPath :=
  if upPath = [] then none else some { nodes := upPath.foldl addNode [] }

/-! ## Activation -/

structure ANInformation where
  ipAddress : Option IP
  teid : UInt32

structure SMContext where
  dnn : String
  selectedPDUSessionType : PDUSessionType
  localULTeid : UInt32
  localDLTeid : UInt32
  anInformation : ANInformation

/-- The rules that take an address. -/
inductive Rule where
  | upLinkPDR
  | upLinkFAR
  | downLinkPDR
  | downLinkFAR

/-- What is around the activation, for each node: whether it gets its PDRs and QERs, and how names
    are resolved when a rule needs it. -/
structure Env where
  addPDR : Nat → Bool
  addQER : Nat → Bool
  resolve : Nat → Rule → String → Option IP

/-- The address of an interface that serves the session. -/
def UPF.address (upf : UPF) (s : SMContext) (type : UpInterfaceType)
    (resolve : String → Option IP) : Option IP := do
  let iface ← upf.getInterface type s.dnn
  iface.ip s.selectedPDUSessionType resolve

/-- A loop along the path. -/
def forNodes (body : Nat → List DataPathNode → Option (List DataPathNode)) :
    (fuel : Nat) → (cursor : Option Nat) → List DataPathNode → Option (List DataPathNode)
  | _, none, nodes => some nodes
  | 0, some _, _ => none
  | k + 1, some i, nodes => do
    let nodes ← body i nodes
    let node ← nodes[i]?
    forNodes body k node.next nodes

section Activation

variable (s : SMContext) (env : Env)

def activateUpLinkTunnel (i : Nat) (node : DataPathNode) : DataPathNode :=
  { node with upLinkTunnel := ⟨node.prev, some i, s.localULTeid, some {}⟩ }

def activateDownLinkTunnel (i : Nat) (node : DataPathNode) : DataPathNode :=
  { node with downLinkTunnel := ⟨node.next, some i, s.localDLTeid, some {}⟩ }

def activateTunnels (i : Nat) (nodes : List DataPathNode) : Option (List DataPathNode) := do
  let node ← nodes[i]?
  if env.addPDR i then
    some (nodes.set i (activateDownLinkTunnel s i (activateUpLinkTunnel s i node)))
  else none

def upLinkFAR (nodes : List DataPathNode) (i : Nat) (node : DataPathNode) : Option FAR :=
  match node.next with
  | none => some {}
  | some j => do
    let next ← nodes[j]?
    let dest ← next.upLinkTunnel.destEndPoint
    let destNode ← nodes[dest]?
    let upIP ← destNode.upf.address s .n9 (env.resolve i .upLinkFAR)
    some ⟨some ⟨upIP, next.upLinkTunnel.teid⟩⟩

def upLinkPDR (nodes : List DataPathNode) (i : Nat) : Option PDR := do
  let node ← nodes[i]?
  let dest ← node.upLinkTunnel.destEndPoint
  let destNode ← nodes[dest]?
  let upIP ← destNode.upf.address s (if node.isANUPF then .n3 else .n9) (env.resolve i .upLinkPDR)
  let far ← upLinkFAR s env nodes i node
  some ⟨some ⟨upIP, node.upLinkTunnel.teid⟩, far⟩

/-- The first node, which has no previous one, forwards to the AN. -/
def downLinkFAR (nodes : List DataPathNode) (i : Nat) (node : DataPathNode) : Option FAR :=
  match node.prev with
  | some j => do
    let prev ← nodes[j]?
    let upIP ← prev.upf.address s .n9 (env.resolve i .downLinkFAR)
    some ⟨some ⟨upIP, prev.downLinkTunnel.teid⟩⟩
  | none =>
    some ⟨s.anInformation.ipAddress.map fun ip => ⟨to4 ip, s.anInformation.teid⟩⟩

def downLinkPDR (nodes : List DataPathNode) (i : Nat) : Option PDR := do
  let node ← nodes[i]?
  let dest ← node.downLinkTunnel.destEndPoint
  let destNode ← nodes[dest]?
  let far ← downLinkFAR s env nodes i node
  if node.isAnchorUPF then some ⟨none, far⟩
  else do
    let upIP ← destNode.upf.address s .n9 (env.resolve i .downLinkPDR)
    some ⟨some ⟨upIP, node.downLinkTunnel.teid⟩, far⟩

def activatePDR (i : Nat) (nodes : List DataPathNode) : Option (List DataPathNode) := do
  let node ← nodes[i]?
  if env.addQER i then do
    let ul ← upLinkPDR s env nodes i
    let dl ← downLinkPDR s env nodes i
    some (nodes.set i
      { node with
        upLinkTunnel := { node.upLinkTunnel with pdr := ul }
        downLinkTunnel := { node.downLinkTunnel with pdr := dl } })
  else none

def activateTunnelAndPDR (path : DataPath) : Option DataPath := do
  let nodes ← forNodes (activateTunnels s env) path.nodes.length path.firstDPNode path.nodes
  let nodes ← forNodes (activatePDR s env) path.nodes.length path.firstDPNode nodes
  some { nodes, activated := true }

end Activation

/-! ## Links -/

def prevOf (i : Nat) : Option Nat := if i = 0 then none else some (i - 1)

def nextOf (n i : Nat) : Option Nat := if i + 1 < n then some (i + 1) else none

/-- Every node is linked to its neighbours in the list. -/
def Linked (nodes : List DataPathNode) : Prop :=
  ∀ i node, nodes[i]? = some node → node.prev = prevOf i ∧ node.next = nextOf nodes.length i

theorem linked_addNode {nodes : List DataPathNode} (h : Linked nodes) (upf : UPF) :
    Linked (addNode nodes upf) := by
  unfold addNode
  cases hlen : nodes.length with
  | zero =>
    intro i node hi
    obtain ⟨rfl, rfl⟩ : i = 0 ∧ node = { upf } := by
      cases i with
      | zero => exact ⟨rfl, (Option.some.inj hi).symm⟩
      | succ i => cases hi
    exact ⟨rfl, rfl⟩
  | succ k =>
    intro i node hi
    dsimp only at hi ⊢
    rw [List.length_append, List.length_modify, hlen, List.length_singleton]
    rw [List.getElem?_append, List.length_modify, hlen] at hi
    split_ifs at hi with hlt
    · rw [List.getElem?_modify] at hi
      obtain ⟨old, hold, rfl⟩ := Option.map_eq_some_iff.mp hi
      obtain ⟨hprev, hnext⟩ := h i old hold
      have hin : i + 1 < k + 1 + 1 := Nat.succ_lt_succ hlt
      rw [nextOf, if_pos hin]
      by_cases hk : k = i
      · rw [if_pos hk, ← hk]
        exact ⟨hk ▸ hprev, rfl⟩
      · rw [if_neg hk]
        rw [nextOf, if_pos (by omega)] at hnext
        exact ⟨hprev, hnext⟩
    · rw [List.getElem?_singleton] at hi
      split_ifs at hi with hzero
      cases hi
      obtain rfl : i = k + 1 := by omega
      exact ⟨rfl, (if_neg (by omega)).symm⟩

/-- `GenerateDataPath` links the nodes. -/
theorem linked_generateDataPath {upPath : List UPF} {path : DataPath}
    (h : generateDataPath upPath = some path) : Linked path.nodes := by
  unfold generateDataPath at h
  split_ifs at h
  cases h
  exact foldl_inv Linked (fun _ upf hnodes => linked_addNode hnodes upf) upPath
    fun _ _ hi => (nomatch hi)

/-! ## The loops -/

theorem map_set_of_eq {α β : Type} {f : α → β} {l : List α} {i : Nat} {a b : α}
    (hi : l[i]? = some a) (h : f b = f a) : (l.set i b).map f = l.map f := by
  apply List.ext_getElem?
  intro j
  rw [List.map_set, h, ← List.map_set]
  by_cases hj : i = j
  · subst hj
    rw [List.getElem?_map, List.getElem?_map, List.getElem?_set_self', hi]
    rfl
  · rw [List.getElem?_map, List.getElem?_map, List.getElem?_set_ne hj]

/-- What no activation changes in a node. -/
def DataPathNode.frame (node : DataPathNode) : UPF × Option Nat × Option Nat :=
  (node.upf, node.prev, node.next)

theorem upfs_of_frame {nodes nodes' : List DataPathNode}
    (h : nodes'.map DataPathNode.frame = nodes.map DataPathNode.frame) :
    nodes'.map (·.upf) = nodes.map (·.upf) := by
  have hfst := congrArg (List.map Prod.fst) h
  rw [List.map_map, List.map_map] at hfst
  exact hfst

theorem linked_of_frame {nodes nodes' : List DataPathNode} (h : Linked nodes)
    (hframe : nodes'.map DataPathNode.frame = nodes.map DataPathNode.frame) : Linked nodes' := by
  have hlen : nodes'.length = nodes.length := by
    simpa using congrArg List.length hframe
  intro i node' hi
  have hat : (nodes.map DataPathNode.frame)[i]? = some node'.frame := by
    rw [← hframe, List.getElem?_map, hi]
    rfl
  rw [List.getElem?_map] at hat
  obtain ⟨node, hnode, heq⟩ := Option.map_eq_some_iff.mp hat
  obtain ⟨_, hprev, hnext⟩ : node.upf = node'.upf ∧ node.prev = node'.prev ∧
      node.next = node'.next := by
    simpa [DataPathNode.frame] using heq
  rw [← hprev, ← hnext, hlen]
  exact h i node hnode

section Loops

variable {body : Nat → List DataPathNode → Option (List DataPathNode)} {n : Nat}

/-- On linked nodes a loop that keeps the frame goes through all of them. -/
theorem forNodes_eq (hbody : ∀ i nodes nodes', body i nodes = some nodes' →
      nodes'.map DataPathNode.frame = nodes.map DataPathNode.frame) (m i : Nat) (hm : i + m = n)
    (nodes : List DataPathNode) (hlen : nodes.length = n) (h : Linked nodes) :
    forNodes body m (if i < n then some i else none) nodes =
      (List.range' i m).foldlM (fun nodes j => body j nodes) nodes := by
  induction m generalizing i nodes with
  | zero =>
    rw [if_neg (by omega)]
    rfl
  | succ k ih =>
    rw [if_pos (by omega), forNodes, List.range'_succ, List.foldlM_cons]
    cases hb : body i nodes with
    | none => rfl
    | some nodes' =>
      have hframe := hbody i nodes nodes' hb
      have hlen' : nodes'.length = n := by
        have := congrArg List.length hframe
        rw [List.length_map, List.length_map] at this
        omega
      have hlinked := linked_of_frame h hframe
      have hi : i < nodes'.length := by omega
      have hnext := (hlinked i nodes'[i] (List.getElem?_eq_getElem hi)).2
      show (nodes'[i]? >>= fun node => forNodes body k node.next nodes') = _
      rw [List.getElem?_eq_getElem hi]
      show forNodes body k nodes'[i].next nodes' = _
      rw [hnext, hlen']
      exact ih (i + 1) (by omega) nodes' hlen' hlinked

/-- What a loop does at each position it has done when it ends. -/
theorem forNodes_each (hbody : ∀ i nodes nodes', body i nodes = some nodes' →
      nodes'.map DataPathNode.frame = nodes.map DataPathNode.frame)
    {nodes nodes' : List DataPathNode} (h : Linked nodes) {I : List DataPathNode → Prop}
    {P : Nat → DataPathNode → Prop} (hI : I nodes)
    (hstep : ∀ i nodes nodes', body i nodes = some nodes' → I nodes → I nodes' ∧
      (∀ node, nodes'[i]? = some node → P i node) ∧ ∀ j, j ≠ i → nodes'[j]? = nodes[j]?)
    (hrun : forNodes body nodes.length (DataPath.firstDPNode ⟨nodes, false⟩) nodes = some nodes') :
    nodes'.map DataPathNode.frame = nodes.map DataPathNode.frame ∧ I nodes' ∧
      ∀ i node, nodes'[i]? = some node → P i node := by
  have hfirst : DataPath.firstDPNode ⟨nodes, false⟩ =
      if 0 < nodes.length then some 0 else none := by
    cases nodes <;> rfl
  rw [hfirst, forNodes_eq hbody nodes.length 0 (Nat.zero_add _) nodes rfl h] at hrun
  have hall : nodes'.map DataPathNode.frame = nodes.map DataPathNode.frame ∧ I nodes' ∧
      ∀ i ∈ List.range' 0 nodes.length, ∀ node, nodes'[i]? = some node → P i node := by
    refine Run.history_inv (fun is t => t.map DataPathNode.frame = nodes.map DataPathNode.frame ∧
      I t ∧ ∀ i ∈ is, ∀ node, t[i]? = some node → P i node) ⟨rfl, hI, fun _ hi => (nomatch hi)⟩
      ?_ (run_iff_foldlM.mpr hrun)
    intro is u i u' _ hu hinv
    obtain ⟨hframe, hIu, hP⟩ := hinv
    obtain ⟨hIu', hat, hother⟩ := hstep i u u' hu hIu
    refine ⟨(hbody i u u' hu).trans hframe, hIu', fun j hj node hnode => ?_⟩
    by_cases hji : j = i
    · subst hji
      exact hat node hnode
    · rw [hother j hji] at hnode
      exact hP j ((List.mem_append.mp hj).resolve_right (mt List.mem_singleton.mp hji)) node hnode
  obtain ⟨hframe, hI', hP⟩ := hall
  refine ⟨hframe, hI', fun i node hi => hP i ?_ node hi⟩
  have hlen : nodes'.length = nodes.length := by
    simpa using congrArg List.length hframe
  obtain ⟨hlt, _⟩ := List.getElem?_eq_some_iff.mp hi
  rw [List.mem_range'_1]
  omega

end Loops

section Chain

variable {nodes nodes' : List DataPathNode} {s : SMContext} {env : Env}

/-- A node whose tunnels are there. -/
structure Opened (s : SMContext) (i : Nat) (node : DataPathNode) : Prop where
  upLinkDest : node.upLinkTunnel.destEndPoint = some i
  upLinkTeid : node.upLinkTunnel.teid = s.localULTeid
  downLinkDest : node.downLinkTunnel.destEndPoint = some i
  downLinkTeid : node.downLinkTunnel.teid = s.localDLTeid

theorem activateTunnels_eq {i : Nat}
    (h : activateTunnels s env i nodes = some nodes') :
    ∃ node, nodes[i]? = some node ∧
      nodes' = nodes.set i (activateDownLinkTunnel s i (activateUpLinkTunnel s i node)) := by
  obtain ⟨node, hnode, h⟩ := Option.bind_eq_some_iff.mp h
  split_ifs at h
  exact ⟨node, hnode, (Option.some.inj h).symm⟩

theorem opened_of_activateTunnels (h : Linked nodes)
    (hrun : forNodes (activateTunnels s env) nodes.length (DataPath.firstDPNode ⟨nodes, false⟩)
      nodes = some nodes') :
    nodes'.map DataPathNode.frame = nodes.map DataPathNode.frame ∧
      ∀ i node, nodes'[i]? = some node → Opened s i node := by
  refine (forNodes_each ?_ h (I := fun _ => True) trivial ?_ hrun).imp_right And.right
  · intro i u u' hu
    obtain ⟨node, hnode, rfl⟩ := activateTunnels_eq hu
    exact map_set_of_eq hnode rfl
  · intro i u u' hu _
    obtain ⟨old, hold, rfl⟩ := activateTunnels_eq hu
    refine ⟨trivial, fun node hnode => ?_, fun j hj => List.getElem?_set_ne (Ne.symm hj)⟩
    rw [List.getElem?_set_self', hold] at hnode
    cases hnode
    exact ⟨rfl, rfl, rfl, rfl⟩

/-- Linked nodes whose tunnels are there. -/
structure Ready (s : SMContext) (nodes : List DataPathNode) : Prop where
  linked : Linked nodes
  opened : ∀ i node, nodes[i]? = some node → Opened s i node

/-- What the uplink rules of the node at `i` say, by the UPFs of the path. -/
structure UpLinkRules (s : SMContext) (env : Env) (upfs : List UPF) (i : Nat) (pdr : PDR) :
    Prop where
  fTeid : ∀ upf, upfs[i]? = some upf →
    ∃ a, upf.address s (if i = 0 then .n3 else .n9) (env.resolve i .upLinkPDR) = some a ∧
      pdr.localFTeid = some ⟨a, s.localULTeid⟩
  outerHeader : ∀ upf, upfs[i + 1]? = some upf →
    ∃ a, upf.address s .n9 (env.resolve i .upLinkFAR) = some a ∧
      pdr.far.outerHeaderCreation = some ⟨a, s.localULTeid⟩
  last : upfs[i + 1]? = none → pdr.far.outerHeaderCreation = none

structure DownLinkRules (s : SMContext) (env : Env) (upfs : List UPF) (i : Nat) (pdr : PDR) :
    Prop where
  fTeid : ∀ upf upf', upfs[i]? = some upf → upfs[i + 1]? = some upf' →
    ∃ a, upf.address s .n9 (env.resolve i .downLinkPDR) = some a ∧
      pdr.localFTeid = some ⟨a, s.localDLTeid⟩
  last : upfs[i + 1]? = none → pdr.localFTeid = none
  outerHeader : ∀ j upf, i = j + 1 → upfs[j]? = some upf →
    ∃ a, upf.address s .n9 (env.resolve i .downLinkFAR) = some a ∧
      pdr.far.outerHeaderCreation = some ⟨a, s.localDLTeid⟩
  first : i = 0 → pdr.far.outerHeaderCreation =
    s.anInformation.ipAddress.map fun ip => ⟨to4 ip, s.anInformation.teid⟩

section Rules

variable {nodes : List DataPathNode} {i : Nat} {node : DataPathNode} {pdr : PDR} {far : FAR}

theorem getElem?_upfs : (nodes.map (·.upf))[i]? = nodes[i]?.map (·.upf) := List.getElem?_map

variable (h : Ready s nodes)

include h

/-- The next node, if there is one. -/
theorem Ready.next_cases (hi : nodes[i]? = some node) :
    (node.next = none ∧ nodes[i + 1]? = none) ∨
      ∃ next, node.next = some (i + 1) ∧ nodes[i + 1]? = some next := by
  have hnext := (h.linked i node hi).2
  unfold nextOf at hnext
  split_ifs at hnext with hlt
  · exact Or.inr ⟨_, hnext, List.getElem?_eq_getElem hlt⟩
  · exact Or.inl ⟨hnext, List.getElem?_eq_none (by omega)⟩

theorem upLinkFAR_of_next {next : DataPathNode} (hi : nodes[i]? = some node)
    (hnext : nodes[i + 1]? = some next) (hfar : upLinkFAR s env nodes i node = some far) :
    ∃ a, next.upf.address s .n9 (env.resolve i .upLinkFAR) = some a ∧
      far.outerHeaderCreation = some ⟨a, s.localULTeid⟩ := by
  have hopened := h.opened (i + 1) next hnext
  rcases h.next_cases hi with ⟨_, hnone⟩ | ⟨_, hlink, _⟩
  · cases hnone.symm.trans hnext
  · unfold upLinkFAR at hfar
    rw [hlink] at hfar
    simp only [Option.bind_eq_bind, Option.bind_some, hnext, hopened.upLinkDest,
      hopened.upLinkTeid] at hfar
    obtain ⟨a, ha, hfar⟩ := Option.bind_eq_some_iff.mp hfar
    cases hfar
    exact ⟨a, ha, rfl⟩

theorem upLinkFAR_of_last (hi : nodes[i]? = some node) (hlast : nodes[i + 1]? = none)
    (hfar : upLinkFAR s env nodes i node = some far) :
    far.outerHeaderCreation = none := by
  rcases h.next_cases hi with ⟨hnone, _⟩ | ⟨_, _, hsome⟩
  · unfold upLinkFAR at hfar
    rw [hnone] at hfar
    cases hfar
    rfl
  · cases hlast.symm.trans hsome

theorem downLinkFAR_of_prev {prev : DataPathNode} (hi : nodes[i + 1]? = some node)
    (hprev : nodes[i]? = some prev) (hfar : downLinkFAR s env nodes (i + 1) node = some far) :
    ∃ a, prev.upf.address s .n9 (env.resolve (i + 1) .downLinkFAR) = some a ∧
      far.outerHeaderCreation = some ⟨a, s.localDLTeid⟩ := by
  have hopened := h.opened i prev hprev
  have hlink : node.prev = some i := (h.linked (i + 1) node hi).1
  unfold downLinkFAR at hfar
  rw [hlink] at hfar
  simp only [Option.bind_eq_bind, Option.bind_some, hprev, hopened.downLinkTeid] at hfar
  obtain ⟨a, ha, hfar⟩ := Option.bind_eq_some_iff.mp hfar
  cases hfar
  exact ⟨a, ha, rfl⟩

theorem downLinkFAR_of_first (hi : nodes[0]? = some node)
    (hfar : downLinkFAR s env nodes 0 node = some far) :
    far.outerHeaderCreation =
      s.anInformation.ipAddress.map fun ip => ⟨to4 ip, s.anInformation.teid⟩ := by
  have hlink : node.prev = none := (h.linked 0 node hi).1
  unfold downLinkFAR at hfar
  rw [hlink] at hfar
  cases hfar
  rfl

theorem upLinkRules (hpdr : upLinkPDR s env nodes i = some pdr) :
    UpLinkRules s env (nodes.map (·.upf)) i pdr := by
  unfold upLinkPDR at hpdr
  obtain ⟨node, hi, hpdr⟩ := Option.bind_eq_some_iff.mp hpdr
  have hopened := h.opened i node hi
  rw [hopened.upLinkDest, hopened.upLinkTeid] at hpdr
  simp only [Option.bind_eq_bind, Option.bind_some, hi] at hpdr
  obtain ⟨a, ha, hpdr⟩ := Option.bind_eq_some_iff.mp hpdr
  obtain ⟨far, hfar, hpdr⟩ := Option.bind_eq_some_iff.mp hpdr
  cases hpdr
  have hfirst : node.isANUPF = true ↔ i = 0 := by
    unfold DataPathNode.isANUPF
    rw [(h.linked i node hi).1, prevOf]
    split_ifs with hzero <;> simp [hzero]
  simp only [hfirst] at ha
  refine ⟨fun upf hupf => ?_, fun upf hupf => ?_, fun hnone => ?_⟩
  · rw [getElem?_upfs, hi] at hupf
    cases hupf
    exact ⟨a, ha, rfl⟩
  · rw [getElem?_upfs] at hupf
    obtain ⟨next, hnext, rfl⟩ := Option.map_eq_some_iff.mp hupf
    exact upLinkFAR_of_next h hi hnext hfar
  · rw [getElem?_upfs, Option.map_eq_none_iff] at hnone
    exact upLinkFAR_of_last h hi hnone hfar

theorem downLinkRules (hpdr : downLinkPDR s env nodes i = some pdr) :
    DownLinkRules s env (nodes.map (·.upf)) i pdr := by
  unfold downLinkPDR at hpdr
  obtain ⟨node, hi, hpdr⟩ := Option.bind_eq_some_iff.mp hpdr
  have hopened := h.opened i node hi
  rw [hopened.downLinkDest, hopened.downLinkTeid] at hpdr
  simp only [Option.bind_eq_bind, Option.bind_some, hi] at hpdr
  obtain ⟨far, hfar, hpdr⟩ := Option.bind_eq_some_iff.mp hpdr
  have hrules : pdr.far = far ∧
      (∀ next, nodes[i + 1]? = some next →
        ∃ a, node.upf.address s .n9 (env.resolve i .downLinkPDR) = some a ∧
          pdr.localFTeid = some ⟨a, s.localDLTeid⟩) ∧
      (nodes[i + 1]? = none → pdr.localFTeid = none) := by
    unfold DataPathNode.isAnchorUPF at hpdr
    rcases h.next_cases hi with ⟨hlink, hnone⟩ | ⟨next, hlink, hsome⟩
    · rw [hlink, Option.isNone_none, if_pos rfl] at hpdr
      cases hpdr
      exact ⟨rfl, fun _ hnext => (nomatch hnone.symm.trans hnext), fun _ => rfl⟩
    · rw [hlink, Option.isNone_some, if_neg Bool.false_ne_true] at hpdr
      obtain ⟨a, ha, hpdr⟩ := Option.bind_eq_some_iff.mp hpdr
      cases hpdr
      exact ⟨rfl, fun _ _ => ⟨a, ha, rfl⟩, fun hnone => (nomatch hnone.symm.trans hsome)⟩
  obtain ⟨rfl, hsome, hnone⟩ := hrules
  refine ⟨fun upf upf' hupf hupf' => ?_, fun hlast => ?_, fun j upf hj hupf => ?_, fun hzero => ?_⟩
  · rw [getElem?_upfs] at hupf hupf'
    rw [hi] at hupf
    cases hupf
    obtain ⟨next, hnext, _⟩ := Option.map_eq_some_iff.mp hupf'
    exact hsome next hnext
  · rw [getElem?_upfs, Option.map_eq_none_iff] at hlast
    exact hnone hlast
  · subst hj
    rw [getElem?_upfs] at hupf
    obtain ⟨prev, hprev, rfl⟩ := Option.map_eq_some_iff.mp hupf
    exact downLinkFAR_of_prev h hi hprev hfar
  · subst hzero
    exact downLinkFAR_of_first h hi hfar

end Rules

/-- A node with its rules. -/
structure Ruled (s : SMContext) (env : Env) (upfs : List UPF) (i : Nat) (node : DataPathNode) :
    Prop where
  upLink : ∃ pdr, node.upLinkTunnel.pdr = some pdr ∧ UpLinkRules s env upfs i pdr
  downLink : ∃ pdr, node.downLinkTunnel.pdr = some pdr ∧ DownLinkRules s env upfs i pdr

theorem activatePDR_eq {i : Nat}
    (h : activatePDR s env i nodes = some nodes') :
    ∃ node ul dl, nodes[i]? = some node ∧ upLinkPDR s env nodes i = some ul ∧
      downLinkPDR s env nodes i = some dl ∧
      nodes' = nodes.set i
        { node with
          upLinkTunnel := { node.upLinkTunnel with pdr := ul }
          downLinkTunnel := { node.downLinkTunnel with pdr := dl } } := by
  obtain ⟨node, hnode, h⟩ := Option.bind_eq_some_iff.mp h
  split_ifs at h
  obtain ⟨ul, hul, h⟩ := Option.bind_eq_some_iff.mp h
  obtain ⟨dl, hdl, h⟩ := Option.bind_eq_some_iff.mp h
  exact ⟨node, ul, dl, hnode, hul, hdl, (Option.some.inj h).symm⟩

theorem ruled_of_activatePDR (h : Ready s nodes)
    (hrun : forNodes (activatePDR s env) nodes.length (DataPath.firstDPNode ⟨nodes, false⟩) nodes =
      some nodes') :
    nodes'.map DataPathNode.frame = nodes.map DataPathNode.frame ∧
      ∀ i node, nodes'[i]? = some node → Ruled s env (nodes.map (·.upf)) i node := by
  have hframe : ∀ i u u', activatePDR s env i u = some u' →
      u'.map DataPathNode.frame = u.map DataPathNode.frame := by
    intro i u u' hu
    obtain ⟨node, ul, dl, hnode, _, _, rfl⟩ := activatePDR_eq hu
    exact map_set_of_eq hnode rfl
  refine (forNodes_each hframe h.linked
    (I := fun u => Ready s u ∧ u.map (·.upf) = nodes.map (·.upf)) ⟨h, rfl⟩ ?_ hrun).imp_right
      And.right
  intro i u u' hu hinv
  obtain ⟨hready, hupfs⟩ := hinv
  have hkept := hframe i u u' hu
  obtain ⟨old, ul, dl, hold, hul, hdl, rfl⟩ := activatePDR_eq hu
  refine ⟨⟨⟨linked_of_frame hready.linked hkept, fun j node hnode => ?_⟩, ?_⟩,
    fun node hnode => ?_, fun j hj => List.getElem?_set_ne (Ne.symm hj)⟩
  · by_cases hj : i = j
    · subst hj
      rw [List.getElem?_set_self', hold] at hnode
      cases hnode
      have hopened := hready.opened i old hold
      exact ⟨hopened.upLinkDest, hopened.upLinkTeid, hopened.downLinkDest, hopened.downLinkTeid⟩
    · rw [List.getElem?_set_ne hj] at hnode
      exact hready.opened j node hnode
  · exact (upfs_of_frame hkept).trans hupfs
  · rw [List.getElem?_set_self', hold] at hnode
    cases hnode
    rw [← hupfs]
    exact ⟨⟨ul, rfl, upLinkRules hready hul⟩, dl, rfl, downLinkRules hready hdl⟩

end Chain

/-! ## The chain -/

/-- Two forms of one address. -/
def SameAddress (a b : IP) : Prop := to16 a ≠ [] ∧ to16 a = to16 b

/-- Every FAR encapsulates to the F-TEID that the neighbour's PDR matches, the first towards the AN
    if that is known, the last without an outer header; only the PDR towards the data network
    matches without an F-TEID. -/
structure Chained (s : SMContext) (nodes : List DataPathNode) : Prop where
  upLink : ∀ i x y, nodes[i]? = some x → nodes[i + 1]? = some y →
    ∃ p q f, x.upLinkTunnel.pdr = some p ∧ y.upLinkTunnel.pdr = some q ∧
      p.far.outerHeaderCreation = some f ∧ q.localFTeid = some f
  downLink : ∀ i x y, nodes[i]? = some x → nodes[i + 1]? = some y →
    ∃ p q f, x.downLinkTunnel.pdr = some p ∧ y.downLinkTunnel.pdr = some q ∧
      q.far.outerHeaderCreation = some f ∧ p.localFTeid = some f
  first : ∀ x ip, nodes[0]? = some x → s.anInformation.ipAddress = some ip →
    ∃ p f, x.downLinkTunnel.pdr = some p ∧ p.far.outerHeaderCreation = some f ∧
      SameAddress f.address ip ∧ f.teid = s.anInformation.teid
  last : ∀ x, nodes.getLast? = some x →
    ∃ p, x.upLinkTunnel.pdr = some p ∧ p.far.outerHeaderCreation = none
  anchor : ∀ i x, nodes[i]? = some x →
    ∃ p, x.downLinkTunnel.pdr = some p ∧ (p.localFTeid = none ↔ i + 1 = nodes.length)

/-- Both rules that need the N9 address of a UPF get the same one. -/
def AddressesAgree (s : SMContext) (env : Env) (upfs : List UPF) : Prop :=
  ∀ i u w, upfs[i]? = some u → upfs[i + 1]? = some w →
    w.address s .n9 (env.resolve i .upLinkFAR) =
        w.address s .n9 (env.resolve (i + 1) .upLinkPDR) ∧
      u.address s .n9 (env.resolve (i + 1) .downLinkFAR) =
        u.address s .n9 (env.resolve i .downLinkPDR)

/-- Names that are resolved alike at each use give the rules the same addresses. -/
theorem addressesAgree_of_steady (s : SMContext) {env : Env} {resolve : String → Option IP}
    (h : ∀ i rule, env.resolve i rule = resolve) (upfs : List UPF) :
    AddressesAgree s env upfs := by
  intro i u w _ _
  rw [h, h, h, h]
  exact ⟨rfl, rfl⟩

theorem sameAddress_to4_iff (ip : IP) : SameAddress (to4 ip) ip ↔ to4 ip ≠ [] := by
  have hlong : ∀ a : IP, v4InV6Prefix ++ a ≠ [] := fun a => by simp [v4InV6Prefix]
  unfold SameAddress
  by_cases hfour : ip.length = 4
  · have hto4 : to4 ip = ip := by simp [to4, Lib.to4, hfour]
    have hto16 : to16 ip = v4InV6Prefix ++ ip := if_pos hfour
    rw [hto4, hto16]
    refine iff_of_true ⟨hlong ip, rfl⟩ ?_
    rintro rfl
    cases hfour
  · by_cases hmapped : ip.length = 16 ∧ ip.take 12 = v4InV6Prefix
    · have hto4 : to4 ip = ip.drop 12 := by
        rw [to4, Lib.to4, if_neg hfour, if_pos hmapped]
        rfl
      have hlen : (ip.drop 12).length = 4 := by rw [List.length_drop, hmapped.1]
      have hto16 : to16 ip = v4InV6Prefix ++ ip.drop 12 := by
        rw [to16, if_neg hfour, if_pos hmapped.1, ← hmapped.2, List.take_append_drop]
      have hback : to16 (ip.drop 12) = v4InV6Prefix ++ ip.drop 12 := if_pos hlen
      rw [hto4, hto16, hback]
      refine iff_of_true ⟨hlong _, rfl⟩ ?_
      intro hnil
      rw [hnil] at hlen
      cases hlen
    · have hto4 : to4 ip = [] := by
        rw [to4, Lib.to4, if_neg hfour, if_neg hmapped]
        rfl
      rw [hto4]
      exact iff_of_false (fun h => h.1 rfl) (fun h => h rfl)

section Meet

variable {s : SMContext} {env : Env} {upfs : List UPF} {i : Nat} {u w : UPF} {p q : PDR}

theorem upLink_meet_iff (hp : UpLinkRules s env upfs i p) (hq : UpLinkRules s env upfs (i + 1) q)
    (hw : upfs[i + 1]? = some w) :
    (∃ f, p.far.outerHeaderCreation = some f ∧ q.localFTeid = some f) ↔
      w.address s .n9 (env.resolve i .upLinkFAR) =
        w.address s .n9 (env.resolve (i + 1) .upLinkPDR) := by
  obtain ⟨a, ha, hpa⟩ := hp.outerHeader w hw
  obtain ⟨b, hb, hqb⟩ := hq.fTeid w hw
  rw [if_neg (Nat.succ_ne_zero i)] at hb
  rw [ha, hb, hpa, hqb]
  simp [eq_comm]

theorem downLink_meet_iff (hp : DownLinkRules s env upfs i p)
    (hq : DownLinkRules s env upfs (i + 1) q) (hu : upfs[i]? = some u)
    (hw : upfs[i + 1]? = some w) :
    (∃ f, q.far.outerHeaderCreation = some f ∧ p.localFTeid = some f) ↔
      u.address s .n9 (env.resolve (i + 1) .downLinkFAR) =
        u.address s .n9 (env.resolve i .downLinkPDR) := by
  obtain ⟨a, ha, hpa⟩ := hp.fTeid u w hu hw
  obtain ⟨b, hb, hqb⟩ := hq.outerHeader i u rfl hu
  rw [ha, hb, hpa, hqb]
  simp [eq_comm]

end Meet

section Activated

variable {s : SMContext} {env : Env} {path path' : DataPath}

theorem firstDPNode_of_length {nodes nodes' : List DataPathNode} (h : nodes'.length = nodes.length)
    (a b : Bool) :
    DataPath.firstDPNode ⟨nodes', a⟩ = DataPath.firstDPNode ⟨nodes, b⟩ := by
  unfold DataPath.firstDPNode
  have hnil : nodes' = [] ↔ nodes = [] := by
    rw [← List.length_eq_zero_iff, ← List.length_eq_zero_iff, h]
  simp only [hnil]

theorem ruled_of_activated (hlinked : Linked path.nodes)
    (h : activateTunnelAndPDR s env path = some path') :
    path'.nodes.map (·.upf) = path.nodes.map (·.upf) ∧
      ∀ i node, path'.nodes[i]? = some node → Ruled s env (path.nodes.map (·.upf)) i node := by
  obtain ⟨nodes, hopen, h⟩ := Option.bind_eq_some_iff.mp h
  obtain ⟨nodes', hrules, h⟩ := Option.bind_eq_some_iff.mp h
  cases h
  obtain ⟨hframe, hopened⟩ := opened_of_activateTunnels hlinked hopen
  have hlen : nodes.length = path.nodes.length := by
    simpa using congrArg List.length hframe
  rw [← hlen, ← firstDPNode_of_length (b := path.activated) hlen false] at hrules
  obtain ⟨hframe', hruled⟩ :=
    ruled_of_activatePDR ⟨linked_of_frame hlinked hframe, hopened⟩ hrules
  rw [upfs_of_frame hframe] at hruled
  exact ⟨(upfs_of_frame hframe').trans (upfs_of_frame hframe), hruled⟩

end Activated

section Chained

variable {s : SMContext} {env : Env} {nodes : List DataPathNode}

theorem agree_of_chained
    (hruled : ∀ i node, nodes[i]? = some node → Ruled s env (nodes.map (·.upf)) i node)
    (hchain : Chained s nodes) : AddressesAgree s env (nodes.map (·.upf)) := by
  intro i u w hu hw
  obtain ⟨x, hx, rfl⟩ := Option.map_eq_some_iff.mp (getElem?_upfs.symm.trans hu)
  obtain ⟨y, hy, rfl⟩ := Option.map_eq_some_iff.mp (getElem?_upfs.symm.trans hw)
  have hxr := hruled i x hx
  have hyr := hruled (i + 1) y hy
  refine ⟨?_, ?_⟩
  · obtain ⟨p, hp, hprules⟩ := hxr.upLink
    obtain ⟨q, hq, hqrules⟩ := hyr.upLink
    obtain ⟨_, _, f, hp', hq', hfar, hteid⟩ := hchain.upLink i x y hx hy
    cases hp.symm.trans hp'
    cases hq.symm.trans hq'
    exact (upLink_meet_iff hprules hqrules hw).mp ⟨f, hfar, hteid⟩
  · obtain ⟨p, hp, hprules⟩ := hxr.downLink
    obtain ⟨q, hq, hqrules⟩ := hyr.downLink
    obtain ⟨_, _, f, hp', hq', hfar, hteid⟩ := hchain.downLink i x y hx hy
    cases hp.symm.trans hp'
    cases hq.symm.trans hq'
    exact (downLink_meet_iff hprules hqrules hu hw).mp ⟨f, hfar, hteid⟩

theorem chained_of_agree
    (hruled : ∀ i node, nodes[i]? = some node → Ruled s env (nodes.map (·.upf)) i node)
    (hagree : AddressesAgree s env (nodes.map (·.upf)))
    (han : ∀ ip, s.anInformation.ipAddress = some ip → to4 ip ≠ []) : Chained s nodes := by
  have hat : ∀ (i : Nat) (x : DataPathNode), nodes[i]? = some x →
      (nodes.map (·.upf))[i]? = some x.upf := by
    intro i x hx
    rw [getElem?_upfs, hx]
    rfl
  refine ⟨fun i x y hx hy => ?_, fun i x y hx hy => ?_, fun x ip hx hip => ?_, fun x hx => ?_,
    fun i x hx => ?_⟩
  · obtain ⟨p, hp, hprules⟩ := (hruled i x hx).upLink
    obtain ⟨q, hq, hqrules⟩ := (hruled (i + 1) y hy).upLink
    obtain ⟨f, hfar, hteid⟩ := (upLink_meet_iff hprules hqrules (hat _ y hy)).mpr
      (hagree i x.upf y.upf (hat i x hx) (hat _ y hy)).1
    exact ⟨p, q, f, hp, hq, hfar, hteid⟩
  · obtain ⟨p, hp, hprules⟩ := (hruled i x hx).downLink
    obtain ⟨q, hq, hqrules⟩ := (hruled (i + 1) y hy).downLink
    obtain ⟨f, hfar, hteid⟩ := (downLink_meet_iff hprules hqrules (hat i x hx) (hat _ y hy)).mpr
      (hagree i x.upf y.upf (hat i x hx) (hat _ y hy)).2
    exact ⟨p, q, f, hp, hq, hfar, hteid⟩
  · obtain ⟨p, hp, hprules⟩ := (hruled 0 x hx).downLink
    have hfar := hprules.first rfl
    rw [hip] at hfar
    exact ⟨p, _, hp, hfar, (sameAddress_to4_iff ip).mpr (han ip hip), rfl⟩
  · rw [List.getLast?_eq_getElem?] at hx
    obtain ⟨p, hp, hprules⟩ := (hruled _ x hx).upLink
    refine ⟨p, hp, hprules.last ?_⟩
    rw [List.getElem?_eq_none]
    rw [List.length_map]
    omega
  · obtain ⟨p, hp, hprules⟩ := (hruled i x hx).downLink
    obtain ⟨hlt, _⟩ := List.getElem?_eq_some_iff.mp hx
    refine ⟨p, hp, ?_⟩
    by_cases hlast : i + 1 = nodes.length
    · refine iff_of_true (hprules.last ?_) hlast
      rw [getElem?_upfs, List.getElem?_eq_none (Nat.le_of_eq hlast.symm)]
      rfl
    · have hy : nodes[i + 1]? = some nodes[i + 1] := List.getElem?_eq_getElem (by omega)
      obtain ⟨a, _, hteid⟩ := hprules.fTeid _ _ (hat i x hx) (hat (i + 1) _ hy)
      rw [hteid]
      exact iff_of_false (by simp) hlast

end Chained

/-- On an activated path the rules are chained exactly when the two rules that need an address get
    the same one and the AN, if it is known, has an IPv4 address. -/
theorem chained_iff {s : SMContext} {env : Env} {path path' : DataPath} (hne : path.nodes ≠ [])
    (hlinked : Linked path.nodes) (h : activateTunnelAndPDR s env path = some path') :
    Chained s path'.nodes ↔ AddressesAgree s env (path.nodes.map (·.upf)) ∧
      ∀ ip, s.anInformation.ipAddress = some ip → to4 ip ≠ [] := by
  obtain ⟨hupfs, hruled⟩ := ruled_of_activated hlinked h
  rw [← hupfs] at hruled ⊢
  constructor
  · intro hchain
    refine ⟨agree_of_chained hruled hchain, fun ip hip => ?_⟩
    have hlen : path'.nodes.length = path.nodes.length := by
      simpa using congrArg List.length hupfs
    have hpos : 0 < path'.nodes.length := by
      rw [hlen]
      exact List.length_pos_iff.mpr hne
    have hx : path'.nodes[0]? = some path'.nodes[0] := List.getElem?_eq_getElem hpos
    obtain ⟨p, hp, hprules⟩ := (hruled 0 _ hx).downLink
    obtain ⟨_, f, hp', hfar, hsame, _⟩ := hchain.first _ ip hx hip
    cases hp.symm.trans hp'
    have hfirst := hprules.first rfl
    rw [hip, hfar] at hfirst
    cases hfirst
    exact (sameAddress_to4_iff ip).mp hsame
  · rintro ⟨hagree, han⟩
    exact chained_of_agree hruled hagree han

/-- A UPF with one address on each side. -/
def upfAt (n3 n9 : IP) : UPF where
  n3Interfaces := [⟨["internet"], [n3], [], ""⟩]
  n9Interfaces := [⟨["internet"], [n9], [], ""⟩]

def sessionFrom (an : IP) : SMContext where
  dnn := "internet"
  selectedPDUSessionType := .ipv4
  localULTeid := 1
  localDLTeid := 2
  anInformation := ⟨some an, 7⟩

/-- Every PDR and QER can be had, no name can be resolved. -/
def unnamed : Env := ⟨fun _ => true, fun _ => true, fun _ _ _ => none⟩

def edgeToAnchor : List UPF := [upfAt [10, 0, 0, 1] [10, 1, 0, 1], upfAt [10, 0, 0, 2] [10, 1, 0, 2]]

theorem edgeToAnchor_chained :
    ∃ path path', generateDataPath edgeToAnchor = some path ∧
      activateTunnelAndPDR (sessionFrom [10, 2, 0, 1]) unnamed path = some path' ∧
      Chained (sessionFrom [10, 2, 0, 1]) path'.nodes := by
  have hpath : generateDataPath edgeToAnchor = some ⟨edgeToAnchor.foldl addNode [], false⟩ := rfl
  have hsteady : ∀ i rule, unnamed.resolve i rule = fun _ => none := fun _ _ => rfl
  refine ⟨_, _, hpath, rfl, ?_⟩
  refine (chained_iff (by simp [edgeToAnchor, addNode]) (linked_generateDataPath hpath) rfl).mpr
    ⟨addressesAgree_of_steady _ hsteady _, fun ip hip => ?_⟩
  cases hip
  decide

/-- The outer header towards an AN with an IPv6 address has no address. -/
theorem ipv6_an_lost :
    ∃ path path', generateDataPath edgeToAnchor = some path ∧
      activateTunnelAndPDR (sessionFrom (List.replicate 16 1)) unnamed path = some path' ∧
      ¬ Chained (sessionFrom (List.replicate 16 1)) path'.nodes := by
  refine ⟨_, _, rfl, rfl, fun h => ?_⟩
  obtain ⟨p, f, hp, hf, hsame, _⟩ := h.first _ _ rfl rfl
  cases hp
  cases hf
  exact hsame.1 rfl

end Free5gc.Smf.UserPlane
