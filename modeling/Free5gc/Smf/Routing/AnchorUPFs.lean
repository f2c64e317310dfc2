/-
  The default paths of a UE routing group (`NewUEDefaultPaths` of
  `internal/context/ue_defaultPath.go`): the anchor UPFs are found by a breadth-first search that
  takes a link in both directions, the path to each of them by a search from A to B.

  `newUEDefaultPaths_ends` says what follows: how the links are written does not change the anchors,
  and all paths are found exactly if every anchor can be reached from A to B, which is the uplink
  direction in `config/uerouting.yaml`.
-/
import Free5gc.Lib.Fallible
import Free5gc.Lib.Run
import Free5gc.Smf.Routing.UEDefaultPaths
import Mathlib.Data.List.Sort

namespace Free5gc.Smf.Routing

open Free5gc.Lib

/-- How a call ends without a result. -/
inductive Stop where
  | error (text : String)
  /-- The UPF of an AN node is dereferenced. -/
  | nilUPF
  | outOfFuel

/-- The names of the access networks and UPFs of the `UserPlaneInformation`, in the order in which
    the maps are walked. -/
structure UPNodes where
  accessNetwork : List String
  upfs : List String

/-- The link has `n` as an end. -/
def UPLink.has (link : UPLink) (n : String) : Prop := link.a = n ∨ link.b = n

instance (link : UPLink) (n : String) : Decidable (link.has n) :=
  inferInstanceAs (Decidable (_ ∨ _))

def findSourceInTopology (upi : UPNodes) (topology : List UPLink) : Except Stop String :=
  match upi.accessNetwork.find? fun anName => topology.any fun link => link.has anName with
  | some anName => .ok anName
  | none => .error (.error "not found AN node in topology")

/-! ## `extractAnchorUPFForULCL` -/

/-- The variables that the loop over the links changes. -/
structure Scan where
  queue : List String
  queued : Finset String
  findNewLink : Bool

/-- One end of a link whose other end is the node at hand. -/
def scanEnd (visited : Finset String) (other : String) (st : Scan) : Scan :=
  let st := if other ∈ st.queued then st
    else ⟨st.queue ++ [other], insert other st.queued, true⟩
  if other ∈ visited then st else { st with findNewLink := true }

def scanLink (visited : Finset String) (node : String) (st : Scan) (link : UPLink) : Scan :=
  let st := if link.a = node then scanEnd visited link.b st else st
  if link.b = node then scanEnd visited link.a st else st

/-- The loop over the queue, to the anchors in the order in which they are found. -/
def extractLoop (topology : List UPLink) :
    Nat → List String → Finset String → Finset String → List String → Option (List String)
  | _, [], _, _, upList => some upList
  | 0, _ :: _, _, _, _ => none
  | fuel + 1, node :: queue, queued, visited, upList =>
    let st := topology.foldl (scanLink visited node) ⟨queue, queued, false⟩
    extractLoop topology fuel st.queue st.queued (insert node visited)
      (if st.findNewLink then upList else upList ++ [node])

/-- A pass for the source and for every end of a link is enough. -/
def anchorsFrom (source : String) (topology : List UPLink) : Option (List String) :=
  extractLoop topology (2 * topology.length + 1) [source] {source} ∅ []

def extractAnchorUPFForULCL (source : String) (topology : List UPLink) :
    Except Stop (List String) :=
  match anchorsFrom source topology with
  | none => .error .outOfFuel
  | some [] => .error (.error "not found Anchor UPF in topology")
  | some (anchor :: rest) => .ok ((anchor :: rest).insertionSort (· ≤ ·))

/-! ## The paths -/

/-- `NewUEDataPathNode`: the UPF of the node, nil for an AN. -/
def newUEDataPathNode (upi : UPNodes) (name : String) : Except Stop (Option String) :=
  if name ∈ upi.upfs then .ok (some name)
  else if name ∈ upi.accessNetwork then .ok none
  else .error (.error ("UPNode " ++ name ++ " isn't exist in smfcfg.yaml, but in UERouting.yaml"))

/-- The UPF of a node is dereferenced. -/
def readUPF (upf : Option String) : Except Stop String := upf.elim (.error .nilUPF) .ok

/-- The UPFs of the path that is built. Its text, which is logged, reads the UPF of every node. -/
def generateDefaultDataPath (upi : UPNodes) (source destination : String)
    (topology : List UPLink) : Except Stop (List String) :=
  match getAllPathByNodeName source destination topology with
  | none => .error .outOfFuel
  | some (allPaths, _) =>
    match allPaths.lookup 0 with
    | none => .error (.error ("path not exist: " ++ source ++ " to " ++ destination))
    | some path => do
      let nodes ← path.mapM (newUEDataPathNode upi)
      nodes.mapM readUPF

structure UEDefaultPaths where
  anchorUPFs : List String
  defaultPathPool : GoMap String (List String)

/-- The loop of `NewUEDefaultPaths` over the destinations. -/
def buildPathPool (upi : UPNodes) (source : String) (topology : List UPLink)
    (destinations : List String) : Except Stop (GoMap String (List String)) :=
  destinations.foldlM (fun (pool : GoMap String (List String)) destination => do
    let path ← generateDefaultDataPath upi source destination topology
    pure (pool.insert destination path)) ∅

def newUEDefaultPaths (upi : UPNodes) (topology : List UPLink) : Except Stop UEDefaultPaths := do
  let source ← findSourceInTopology upi topology
  let destinations ← extractAnchorUPFForULCL source topology
  let pool ← buildPathPool upi source topology destinations
  pure ⟨destinations, pool⟩

/-! ## The anchors do not depend on how a link is written -/

/-- The link written the other way round. -/
def UPLink.swap (link : UPLink) : UPLink := ⟨link.b, link.a⟩

/-- Some links of the list are written the other way round. -/
def Rewritten : List UPLink → List UPLink → Prop :=
  List.Forall₂ fun link link' => link' = link ∨ link' = link.swap

theorem scanLink_swap (visited : Finset String) (node : String) (st : Scan) (link : UPLink) :
    scanLink visited node st link.swap = scanLink visited node st link := by
  unfold scanLink UPLink.swap
  by_cases ha : link.a = node <;> by_cases hb : link.b = node
  · rw [ha, hb]
  · simp only [ha, hb, if_true, if_false]
  · simp only [ha, hb, if_true, if_false]
  · simp only [ha, hb, if_false]

theorem foldl_rewritten {topology topology' : List UPLink} (h : Rewritten topology topology')
    (visited : Finset String) (node : String) (st : Scan) :
    topology'.foldl (scanLink visited node) st = topology.foldl (scanLink visited node) st := by
  induction h generalizing st with
  | nil => rfl
  | @cons link link' _ _ hlink _ ih =>
    rw [List.foldl_cons, List.foldl_cons, ih]
    rcases hlink with rfl | rfl
    · rfl
    · rw [scanLink_swap]

theorem extractLoop_rewritten {topology topology' : List UPLink}
    (h : Rewritten topology topology') : extractLoop topology' = extractLoop topology := by
  funext fuel queue queued visited upList
  induction fuel generalizing queue queued visited upList with
  | zero =>
    match queue with
    | [] => rfl
    | node :: queue => rfl
  | succ fuel ih =>
    match queue with
    | [] => rfl
    | node :: queue => rw [extractLoop, extractLoop, foldl_rewritten h, ih]

theorem anchorsFrom_rewritten {topology topology' : List UPLink} (h : Rewritten topology topology')
    (source : String) : anchorsFrom source topology' = anchorsFrom source topology := by
  unfold anchorsFrom
  rw [extractLoop_rewritten h, List.Forall₂.length_eq h]

/-! ## The search for anchors ends -/

section

variable {topology : List UPLink} {visited nodes queued : Finset String} {node other source : String}
  {queue upList found : List String} {st : Scan} {fuel : Nat}

/-- A link joins the two nodes, in either direction. -/
def Joined (topology : List UPLink) (node other : String) : Prop :=
  ∃ link ∈ topology, link = ⟨node, other⟩ ∨ link = ⟨other, node⟩

/-- A property that the scan of an end keeps is kept by the scan of all links of the node. -/
theorem scan_inv (topology : List UPLink) (visited : Finset String) (node : String)
    (I : Scan → Prop)
    (hend : ∀ other, Joined topology node other → ∀ st, I st → I (scanEnd visited other st))
    (h : I st) : I (topology.foldl (scanLink visited node) st) := by
  refine foldl_inv_of_mem I (· ∈ topology) ?_ topology (fun _ hl => hl) h
  intro st link hl hst
  unfold scanLink
  split_ifs with ha hb hb
  · exact hend _ ⟨link, hl, .inr (by rw [← hb])⟩ _ (hend _ ⟨link, hl, .inl (by rw [← ha])⟩ _ hst)
  · exact hend _ ⟨link, hl, .inl (by rw [← ha])⟩ _ hst
  · exact hend _ ⟨link, hl, .inr (by rw [← hb])⟩ _ hst
  · exact hst

/-- The passes that are left: the nodes in the queue and those that have not been in it. -/
def passesLeft (nodes queued : Finset String) (queue : List String) : Nat :=
  (nodes \ queued).card + queue.length

theorem passesLeft_scanEnd (hother : other ∈ nodes) :
    passesLeft nodes (scanEnd visited other st).queued (scanEnd visited other st).queue =
      passesLeft nodes st.queued st.queue := by
  unfold scanEnd
  by_cases hq : other ∈ st.queued
  · split_ifs <;> rfl
  · have hcard : (nodes \ insert other st.queued).card + 1 = (nodes \ st.queued).card := by
      rw [Finset.sdiff_insert]
      exact Finset.card_erase_add_one (Finset.mem_sdiff.mpr ⟨hother, hq⟩)
    have hpass : passesLeft nodes (insert other st.queued) (st.queue ++ [other]) =
        passesLeft nodes st.queued st.queue := by
      unfold passesLeft
      rw [List.length_append, List.length_singleton]
      omega
    rw [if_neg hq]
    split_ifs <;> exact hpass

/-- A pass takes one node from the queue, and what it adds had not been in it. -/
theorem exists_extractLoop (hends : ∀ link ∈ topology, link.a ∈ nodes ∧ link.b ∈ nodes)
    (hfuel : passesLeft nodes queued queue ≤ fuel) :
    ∃ found, extractLoop topology fuel queue queued visited upList = some found := by
  induction fuel generalizing queue queued visited upList with
  | zero =>
    match queue with
    | [] => exact ⟨upList, rfl⟩
    | node :: queue => exact absurd hfuel (by simp [passesLeft])
  | succ fuel ih =>
    match queue with
    | [] => exact ⟨upList, rfl⟩
    | node :: queue =>
      let st := topology.foldl (scanLink visited node) ⟨queue, queued, false⟩
      have hscan : passesLeft nodes st.queued st.queue = passesLeft nodes queued queue := by
        refine scan_inv topology visited node
          (fun st => passesLeft nodes st.queued st.queue = passesLeft nodes queued queue) ?_ rfl
        intro other ⟨link, hl, ho⟩ st hst
        rw [passesLeft_scanEnd, hst]
        rcases ho with rfl | rfl
        · exact (hends _ hl).2
        · exact (hends _ hl).1
      refine ih (hscan.trans_le ?_)
      unfold passesLeft at hfuel ⊢
      rw [List.length_cons] at hfuel
      omega

theorem exists_anchorsFrom (source : String) (topology : List UPLink) :
    ∃ found, anchorsFrom source topology = some found := by
  let ends := topology.map UPLink.a ++ topology.map UPLink.b
  have hends : ∀ link ∈ topology,
      link.a ∈ insert source ends.toFinset ∧ link.b ∈ insert source ends.toFinset := by
    intro link hl
    have hmem : ∀ x ∈ ends, x ∈ insert source ends.toFinset := fun x hx =>
      Finset.mem_insert_of_mem (List.mem_toFinset.mpr hx)
    exact ⟨hmem _ (List.mem_append_left _ (List.mem_map_of_mem hl)),
      hmem _ (List.mem_append_right _ (List.mem_map_of_mem hl))⟩
  refine exists_extractLoop hends ?_
  have hlen : ends.length = topology.length + topology.length := by simp [ends]
  have hcard := Finset.card_insert_le source ends.toFinset
  have hle := List.toFinset_card_le ends
  have herase := Finset.card_erase_add_one (Finset.mem_insert_self source ends.toFinset)
  unfold passesLeft
  rw [Finset.sdiff_singleton_eq_erase, List.length_singleton]
  omega

/-! ## An anchor is found -/

variable (visited node) in
/-- What holds while the links of `node` are scanned. -/
structure Scanning (topology : List UPLink) (st : Scan) : Prop where
  queued : ∀ x, x ∈ st.queued ↔ x ∈ visited ∨ x = node ∨ x ∈ st.queue
  new : st.findNewLink = true → ∃ x ∈ st.queued, x ∉ visited ∧ Joined topology node x

theorem Scanning.scanEnd (hj : Joined topology node other) (h : Scanning visited node topology st) :
    Scanning visited node topology (scanEnd visited other st) := by
  unfold Routing.scanEnd
  by_cases hq : other ∈ st.queued
  · rw [if_pos hq]
    by_cases hv : other ∈ visited
    · rwa [if_pos hv]
    · rw [if_neg hv]
      exact ⟨h.queued, fun _ => ⟨other, hq, hv, hj⟩⟩
  · have hv : other ∉ visited := fun hv => hq ((h.queued other).mpr (.inl hv))
    rw [if_neg hq, if_neg hv]
    refine ⟨fun x => ?_, fun _ => ⟨other, Finset.mem_insert_self _ _, hv, hj⟩⟩
    rw [Finset.mem_insert, h.queued, List.mem_append, List.mem_singleton]
    tauto

/-- A new link of a node without a link to itself leads to a node in the queue. -/
theorem Scanning.queue_ne_nil (hself : ∀ link ∈ topology, link.a ≠ link.b)
    (h : Scanning visited node topology st) (hnew : st.findNewLink = true) : st.queue ≠ [] := by
  obtain ⟨x, hx, hv, link, hl, hlink⟩ := h.new hnew
  have hne : x ≠ node := by
    intro heq
    refine hself link hl ?_
    rcases hlink with rfl | rfl
    · exact heq.symm
    · exact heq
  exact List.ne_nil_of_mem ((((h.queued x).mp hx).resolve_left hv).resolve_left hne)

/-- Unless a link joins a node to itself, the last node in the queue is an anchor. -/
theorem extractLoop_ne_nil (hself : ∀ link ∈ topology, link.a ≠ link.b)
    (hqueued : ∀ x, x ∈ queued ↔ x ∈ visited ∨ x ∈ queue) (hne : queue ≠ [])
    (h : extractLoop topology fuel queue queued visited upList = some found) : found ≠ [] := by
  induction fuel generalizing queue queued visited upList with
  | zero =>
    match queue with
    | [] => exact absurd rfl hne
    | node :: queue => cases h
  | succ fuel ih =>
    match queue with
    | [] => exact absurd rfl hne
    | node :: queue =>
      have hscan : Scanning visited node topology
          (topology.foldl (scanLink visited node) ⟨queue, queued, false⟩) := by
        refine scan_inv topology visited node (Scanning visited node topology)
          (fun other hj st hst => hst.scanEnd hj) ⟨fun x => ?_, fun hn => absurd hn Bool.false_ne_true⟩
        rw [hqueued, List.mem_cons]
      rw [extractLoop] at h
      generalize topology.foldl (scanLink visited node) ⟨queue, queued, false⟩ = st at h hscan
      by_cases hnil : st.queue = []
      · have hnew : st.findNewLink = false :=
          Bool.eq_false_iff.mpr fun hnew => hscan.queue_ne_nil hself hnew hnil
        rw [hnil, hnew] at h
        unfold extractLoop at h
        rw [← Option.some.inj h]
        simp
      · refine ih (fun x => ?_) hnil h
        rw [hscan.queued, Finset.mem_insert]
        tauto

theorem anchorsFrom_ne_nil (hself : ∀ link ∈ topology, link.a ≠ link.b)
    (h : anchorsFrom source topology = some found) : found ≠ [] :=
  extractLoop_ne_nil hself (by simp) (List.cons_ne_nil _ _) h

end

/-! ## When the default paths are found -/

section

variable {upi : UPNodes} {topology : List UPLink} {source destination : String}

/-- The links are between known nodes, and `source` is the one AN among them. -/
structure Routable (upi : UPNodes) (topology : List UPLink) (source : String) : Prop where
  an : source ∈ upi.accessNetwork
  used : ∃ link ∈ topology, link.has source
  one : ∀ link ∈ topology, ∀ n, link.has n → n ∈ upi.accessNetwork → n = source
  known : ∀ link ∈ topology, ∀ n, link.has n → n ∈ upi.accessNetwork ∨ n ∈ upi.upfs

theorem nodes_of_upfs {path : List String} (h : ∀ n ∈ path, n ∈ upi.upfs) :
    (do let nodes ← path.mapM (newUEDataPathNode upi); nodes.mapM readUPF) = .ok path := by
  have hnodes : path.mapM (newUEDataPathNode upi) = .ok (path.map some) :=
    mapM_eq_map fun n hn => by rw [newUEDataPathNode, if_pos (h n hn)]
  have hread : (path.map some).mapM readUPF = .ok ((path.map some).map (·.getD "")) := by
    refine mapM_eq_map fun upf hupf => ?_
    obtain ⟨n, -, rfl⟩ := List.mem_map.mp hupf
    rfl
  rw [hnodes]
  refine hread.trans ?_
  simp

section

variable (h : Routable upi topology source)

include h

theorem Routable.findSource :
    findSourceInTopology upi topology = .ok source := by
  have hfind : upi.accessNetwork.find? (fun anName => topology.any fun link => link.has anName) =
      some source := by
    obtain ⟨link, hl, hhas⟩ := h.used
    have hany : (topology.any fun link => link.has source) = true :=
      List.any_eq_true.mpr ⟨link, hl, decide_eq_true hhas⟩
    have hsome : (upi.accessNetwork.find?
        fun anName => topology.any fun link => link.has anName).isSome :=
      List.find?_isSome.mpr ⟨source, h.an, hany⟩
    obtain ⟨an, han⟩ := Option.isSome_iff_exists.mp hsome
    rw [han]
    have hany' : (topology.any fun link => link.has an) = true :=
      List.find?_some (p := fun an => topology.any fun link => link.has an) han
    obtain ⟨link', hl', hhas'⟩ := List.any_eq_true.mp hany'
    rw [h.one link' hl' an (of_decide_eq_true hhas') (List.mem_of_find?_eq_some han)]
  rw [findSourceInTopology, hfind]

/-- Behind its source a path has known UPFs only. -/
theorem Routable.mem_upfs {path : List String}
    (hpath : SimplePath (linked topology) source destination path) {n : String}
    (hn : n ∈ path.tail) : n ∈ upi.upfs := by
  obtain ⟨u, hu⟩ := hpath.mem_next hn
  obtain ⟨link, hl, rfl⟩ := List.mem_map.mp hu
  have hhas : link.has link.b := .inr rfl
  refine (h.known link (List.mem_filter.mp hl).1 _ hhas).resolve_left fun han => ?_
  have hsource := h.one link (List.mem_filter.mp hl).1 _ hhas han
  obtain ⟨rest, rfl⟩ := hpath.eq_cons
  exact (List.nodup_cons.mp hpath.nodup).1 (hsource ▸ hn)

/-- The path to a destination is found exactly if it can be reached from A to B. -/
theorem Routable.generateDefaultDataPath_iff :
    (∃ path, generateDefaultDataPath upi source destination topology = .ok path) ↔
      Relation.ReflTransGen (fun u v => v ∈ linked topology u) source destination := by
  obtain ⟨allPaths, hrun, hlookup⟩ := getAllPathByNodeName_lookup source destination topology
  unfold generateDefaultDataPath
  rw [hrun, ← exists_simplePath_iff]
  dsimp only
  rw [hlookup]
  constructor
  · intro ⟨path, hpath⟩
    match hzero : (pathsBehind source destination topology)[0]? with
    | none =>
      rw [hzero] at hpath
      cases hpath
    | some q =>
      obtain ⟨p, hp, -⟩ := mem_pathsBehind.mp (List.mem_of_getElem? hzero)
      exact ⟨p, hp⟩
  · intro ⟨p, hp⟩
    have hne := List.ne_nil_of_mem (mem_pathsBehind.mpr ⟨p, hp, rfl⟩)
    obtain ⟨q, rest, hq⟩ := List.exists_cons_of_ne_nil hne
    obtain ⟨p', hp', rfl⟩ := mem_pathsBehind.mp (hq ▸ List.mem_cons_self)
    refine ⟨p'.tail, ?_⟩
    rw [hq, List.getElem?_cons_zero]
    dsimp only
    exact nodes_of_upfs fun n hn => h.mem_upfs hp' hn

theorem Routable.newUEDefaultPaths_source :
    newUEDefaultPaths upi topology = (do
      let destinations ← extractAnchorUPFForULCL source topology
      let pool ← buildPathPool upi source topology destinations
      pure ⟨destinations, pool⟩) := by
  rw [newUEDefaultPaths, h.findSource]
  rfl

/-- With its source and anchors known, the loop over the anchors is left. -/
theorem Routable.newUEDefaultPaths_eq {anchors : List String}
    (hanchors : anchorsFrom source topology = some anchors) (hne : anchors ≠ []) :
    newUEDefaultPaths upi topology =
      (buildPathPool upi source topology (anchors.insertionSort (· ≤ ·))).map
        (UEDefaultPaths.mk (anchors.insertionSort (· ≤ ·))) := by
  rw [h.newUEDefaultPaths_source, extractAnchorUPFForULCL, hanchors]
  match anchors with
  | [] => exact absurd rfl hne
  | anchor :: rest => rfl

theorem Routable.newUEDefaultPaths_nil (hanchors : anchorsFrom source topology = some [])
    (paths : UEDefaultPaths) :
    newUEDefaultPaths upi topology ≠ .ok paths := by
  rw [h.newUEDefaultPaths_source, extractAnchorUPFForULCL, hanchors]
  intro hok
  cases hok

end

/-- How the links are written does not change the anchors, and unless a link joins a node to itself
    there is one. The default paths are found exactly if there is an anchor and every anchor can be
    reached along the links from A to B; they are then for these anchors. -/
theorem newUEDefaultPaths_ends (upi : UPNodes) (topology : List UPLink) (source : String)
    (h : Routable upi topology source) :
    ∃ anchors, anchorsFrom source topology = some anchors ∧
      (∀ topology', Rewritten topology topology' →
        anchorsFrom source topology' = some anchors) ∧
      ((∀ link ∈ topology, link.a ≠ link.b) → anchors ≠ []) ∧
      ((∃ paths, newUEDefaultPaths upi topology = .ok paths) ↔ anchors ≠ [] ∧ ∀ d ∈ anchors,
        Relation.ReflTransGen (fun u v => v ∈ linked topology u) source d) ∧
      ∀ paths, newUEDefaultPaths upi topology = .ok paths →
        paths.anchorUPFs = anchors.insertionSort (· ≤ ·) := by
  obtain ⟨anchors, hanchors⟩ := exists_anchorsFrom source topology
  refine ⟨anchors, hanchors, fun topology' hr => (anchorsFrom_rewritten hr source).trans hanchors,
    fun hself => anchorsFrom_ne_nil hself hanchors, ?_⟩
  by_cases hne : anchors = []
  · subst hne
    exact ⟨⟨fun ⟨paths, hp⟩ => absurd hp (h.newUEDefaultPaths_nil hanchors paths),
      fun hn => absurd rfl hn.1⟩, fun paths hp => absurd hp (h.newUEDefaultPaths_nil hanchors paths)⟩
  · rw [h.newUEDefaultPaths_eq hanchors hne]
    constructor
    · have hpool : (∃ pool, buildPathPool upi source topology (anchors.insertionSort (· ≤ ·)) =
          .ok pool) ↔ ∀ d ∈ anchors.insertionSort (· ≤ ·),
            ∃ path, generateDefaultDataPath upi source d topology = .ok path :=
        exists_foldlM_ok_iff
      simp only [h.generateDefaultDataPath_iff, List.mem_insertionSort] at hpool
      rw [← hpool]
      constructor
      · intro ⟨paths, hp⟩
        obtain ⟨pool, hpool, -⟩ := map_eq_ok.mp hp
        exact ⟨hne, pool, hpool⟩
      · intro ⟨_, pool, hpool⟩
        exact ⟨_, map_eq_ok.mpr ⟨pool, hpool, rfl⟩⟩
    · intro paths hp
      obtain ⟨pool, -, rfl⟩ := map_eq_ok.mp hp
      rfl

end

/-- One AN and one UPF. -/
def oneUPF : UPNodes := ⟨["gNB"], ["UPF"]⟩

/-- The only link, written from the UPF to the AN, has the same anchor and no path to it. -/
theorem rewritten_fails :
    Rewritten [⟨"gNB", "UPF"⟩] [⟨"UPF", "gNB"⟩] ∧
      newUEDefaultPaths oneUPF [⟨"gNB", "UPF"⟩] =
        .ok ⟨["UPF"], (∅ : GoMap String (List String)).insert "UPF" ["UPF"]⟩ ∧
      newUEDefaultPaths oneUPF [⟨"UPF", "gNB"⟩] =
        .error (.error "path not exist: gNB to UPF") := by
  refine ⟨.cons (.inr rfl) .nil, ?_, ?_⟩
  · rfl
  · rfl

/-- An AN, a branching UPF and two anchors behind it. -/
def twoAnchors : UPNodes := ⟨["gNB"], ["I-UPF", "PSA1", "PSA2"]⟩

/-- The link of the second anchor is written from the anchor to the branching UPF. -/
def swappedLinks : List UPLink := [⟨"gNB", "I-UPF"⟩, ⟨"I-UPF", "PSA1"⟩, ⟨"PSA2", "I-UPF"⟩]

theorem routable_swappedLinks : Routable twoAnchors swappedLinks "gNB" := by
  refine ⟨by decide, ⟨_, List.mem_cons_self, .inl rfl⟩, ?_, ?_⟩
  · intro link hl n hn han
    exact List.mem_singleton.mp han
  · have hends : ∀ link ∈ swappedLinks, (link.a = "gNB" ∨ link.a ∈ twoAnchors.upfs) ∧
        link.b ∈ twoAnchors.upfs := by decide
    rintro link hl n (rfl | rfl)
    · exact (hends link hl).1.imp_left List.mem_singleton.mpr
    · exact .inr (hends link hl).2

/-- Both ways of writing the links have the two anchors, but the paths are not found. -/
theorem newUEDefaultPaths_ends_swappedLinks :
    Routable twoAnchors swappedLinks "gNB" ∧
    anchorsFrom "gNB" swappedLinks = some ["PSA1", "PSA2"] ∧
    anchorsFrom "gNB" [⟨"gNB", "I-UPF"⟩, ⟨"I-UPF", "PSA1"⟩, ⟨"I-UPF", "PSA2"⟩] =
      some ["PSA1", "PSA2"] ∧
    ¬ ∃ paths, newUEDefaultPaths twoAnchors swappedLinks = .ok paths := by
  have hanchors : anchorsFrom "gNB" swappedLinks = some ["PSA1", "PSA2"] := by decide +kernel
  obtain ⟨anchors, hfrom, hrewritten, -, hfound, -⟩ :=
    newUEDefaultPaths_ends _ _ _ routable_swappedLinks
  obtain rfl := Option.some.inj (hanchors.symm.trans hfrom)
  refine ⟨routable_swappedLinks, hanchors,
    hrewritten _ (.cons (.inl rfl) (.cons (.inl rfl) (.cons (.inr rfl) .nil))), fun hpaths => ?_⟩
  obtain heq | ⟨u, -, hu⟩ := ((hfound.mp hpaths).2 "PSA2" (by decide)).cases_tail
  · exact absurd heq (by decide)
  · -- no link is written towards the second anchor
    obtain ⟨link, hlink, hb⟩ := List.mem_map.mp hu
    have hnone : ∀ link ∈ swappedLinks, link.b ≠ "PSA2" := by decide
    exact hnone link (List.mem_of_mem_filter hlink) hb

end Free5gc.Smf.Routing
