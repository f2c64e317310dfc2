/-
  Path search in the SMF's user plane topology (`internal/context/user_plane_information.go`):
  `getPathBetween` looks depth first for a path from an access network to a UPF, and
  `GenerateDefaultPath` keeps such a path for a selection of DNN, S-NSSAI and DNAI.

  A node is a pointer; `N` is the finite type of the pointers of one topology. The UPF of an AN node
  is nil, and reading it is the outcome `nilUPF`. The visited map is shared by all calls of one
  search, so a call returns it. The recursion takes fuel; every result says how much is enough.

  Texts are compared without regard to the case of ASCII letters where the code calls
  `strings.EqualFold`; an SD has hexadecimal digits only.
-/
import Free5gc.Lib.Fallible
import Free5gc.Lib.GoMap
import Free5gc.Lib.Text
import Mathlib.Data.Fin.VecNotation
import Mathlib.Data.Fintype.Card
import Mathlib.Data.List.Chain
import Mathlib.Logic.Relation

namespace Free5gc.Smf.Upi

open Free5gc.Lib

/-! ## Slices and selections -/

structure SNssai where
  sst : Int
  sd : List Char

/-- `SNssai.Equal` -/
def SNssai.equal (s target : SNssai) : Bool := s.sst == target.sst && equalFold s.sd target.sd

structure DnnUPFInfoItem where
  dnn : String
  dnaiList : List String

/-- `ContainsDNAI`: a selection without a DNAI asks for a DNN without any. -/
def DnnUPFInfoItem.containsDNAI (d : DnnUPFInfoItem) (targetDnai : String) : Bool :=
  if targetDnai = "" then d.dnaiList.isEmpty else d.dnaiList.contains targetDnai

structure SnssaiUPFInfo where
  sNssai : SNssai
  dnnList : List DnnUPFInfoItem

structure UPF where
  sNssaiInfos : List SnssaiUPFInfo

def UPF.isSupportSnssai (upf : UPF) (snssai : SNssai) : Bool :=
  upf.sNssaiInfos.any fun info => info.sNssai.equal snssai

structure UPFSelectionParams where
  dnn : String
  sNssai : SNssai
  dnai : String
  /-- The text of the address; `none` is nil. -/
  pduAddress : Option String

/-- `UPFSelectionParams.String`, the key of a cached path. -/
def UPFSelectionParams.string (sel : UPFSelectionParams) : String :=
  (if sel.dnn = "" then "" else "Dnn: " ++ sel.dnn ++ "\n") ++
    ("Sst: " ++ toString sel.sNssai.sst ++ ", Sd: " ++ String.ofList sel.sNssai.sd ++ "\n") ++
    (if sel.dnai = "" then "" else "DNAI: " ++ sel.dnai ++ "\n") ++
    (sel.pduAddress.elim "" fun a => "PDUAddress: " ++ a ++ "\n")

/-- `UPNode.MatchedSelection`, on the node's UPF. -/
def UPF.matchedSelection (upf : UPF) (sel : UPFSelectionParams) : Bool :=
  upf.sNssaiInfos.any fun info => info.sNssai.equal sel.sNssai &&
    info.dnnList.any fun d => d.dnn == sel.dnn && (sel.dnai == "" || d.containsDNAI sel.dnai)

theorem UPF.isSupportSnssai_of_matched {upf : UPF} {sel : UPFSelectionParams}
    (h : upf.matchedSelection sel = true) : upf.isSupportSnssai sel.sNssai = true := by
  obtain ⟨info, hinfo, hm⟩ := List.any_eq_true.mp h
  exact List.any_eq_true.mpr ⟨info, hinfo, (Bool.and_eq_true_iff.mp hm).1⟩

/-! ## The topology -/

inductive UPNodeKind where
  | an
  | upf (upf : UPF)

/-- The nodes and links of a `UserPlaneInformation`. Nodes hold different names, so that
    `reflect.DeepEqual` tells them apart. -/
structure Topology (N : Type) where
  kind : N → UPNodeKind
  links : N → List N
  deepEqual : N → N → Bool
  deepEqual_iff : ∀ u v, deepEqual u v = true ↔ u = v

namespace Topology

variable {N : Type} (T : Topology N)

def IsAN (v : N) : Prop := T.kind v = .an

/-- `v` is a UPF with the property `p`. -/
def IsUPFWith (p : UPF → Bool) (v : N) : Prop := ∃ upf, T.kind v = .upf upf ∧ p upf = true

/-- A link to a UPF with the property `p`. -/
def Step (p : UPF → Bool) (u v : N) : Prop := v ∈ T.links u ∧ T.IsUPFWith p v

/-- `v` can be reached from `u` through UPFs with the property `p`, `v` included. -/
def Reaches (p : UPF → Bool) : N → N → Prop := Relation.ReflTransGen (T.Step p)

abbrev Supports (sel : UPFSelectionParams) : N → Prop :=
  T.IsUPFWith (UPF.isSupportSnssai · sel.sNssai)

abbrev ReachesSlice (sel : UPFSelectionParams) : N → N → Prop :=
  T.Reaches (UPF.isSupportSnssai · sel.sNssai)

variable {T} {p q : UPF → Bool} {u v w : N}

theorem IsUPFWith.not_an (h : T.IsUPFWith p v) : ¬ T.IsAN v := by
  obtain ⟨upf, hk, -⟩ := h
  unfold IsAN
  rw [hk]
  exact UPNodeKind.noConfusion

theorem isUPFWith_iff {upf : UPF} (hk : T.kind v = .upf upf) :
    T.IsUPFWith p v ↔ p upf = true := by
  constructor
  · intro ⟨upf', hk', hp⟩
    rw [hk] at hk'
    rwa [UPNodeKind.upf.inj hk']
  · exact fun hp => ⟨upf, hk, hp⟩

theorem Reaches.mono (hpq : ∀ upf, p upf = true → q upf = true) (h : T.Reaches p u v) :
    T.Reaches q u v := by
  have hstep : T.Step p ≤ T.Step q :=
    fun _ _ ⟨hlink, upf, hk, hp⟩ => ⟨hlink, upf, hk, hpq upf hp⟩
  exact Relation.ReflTransGen.mono hstep u v h

/-- What is reached is the start or a UPF with the property. -/
theorem Reaches.eq_or (h : T.Reaches p u v) : v = u ∨ T.IsUPFWith p v := by
  induction h with
  | refl => exact .inl rfl
  | tail _ hstep _ => exact .inr hstep.2

/-- A set with the start, closed under the steps, holds all that is reached. -/
theorem Reaches.mem_of_closed {S : N → Prop} (hu : S u)
    (hclosed : ∀ x y, S x → T.Step p x y → S y) (h : T.Reaches p u v) : S v := by
  induction h with
  | refl => exact hu
  | tail _ hstep ih => exact hclosed _ _ ih hstep

/-- The topology with the given nodes and links. -/
def ofLinks [DecidableEq N] (kind : N → UPNodeKind) (links : N → List N) : Topology N where
  kind := kind
  links := links
  deepEqual u v := decide (u = v)
  deepEqual_iff _ _ := decide_eq_true_iff

end Topology

/-! ## `getPathBetween` -/

inductive Fault where
  /-- The UPF of an AN node is dereferenced. -/
  | nilUPF
  | outOfFuel
  deriving DecidableEq

section Search

variable {N : Type} [DecidableEq N] (T : Topology N) (sel : UPFSelectionParams)

/-- What a call leaves: the nodes visited so far and the path, if it exists. -/
abbrev Searched (N : Type) := Except Fault (Finset N × Option (List N))

/-- The loop over `cur.Links` in `getPathBetween`, which calls itself by `search`. -/
def searchLinks (search : N → Finset N → Searched N) (cur : N) :
    List N → Finset N → Searched N
  | [], visited => .ok (visited, none)
  | node :: rest, visited =>
    if node ∈ visited then searchLinks search cur rest visited
    else match T.kind node with
      | .an => .error .nilUPF
      | .upf upf =>
        if upf.isSupportSnssai sel.sNssai then
          match search node visited with
          | .error e => .error e
          | .ok (visited, some tail) => .ok (visited, some (cur :: tail))
          | .ok (visited, none) => searchLinks search cur rest visited
        else searchLinks search cur rest (insert node visited)

def getPathBetween (dest : N) : Nat → N → Finset N → Searched N
  | 0, _, _ => .error .outOfFuel
  | fuel + 1, cur, visited =>
    if T.deepEqual cur dest then .ok (insert cur visited, some [cur])
    else searchLinks T sel (getPathBetween dest fuel) cur (T.links cur) (insert cur visited)

end Search

/-! ## What a call of `getPathBetween` leaves -/

section Spec

variable {N : Type} (T : Topology N) (sel : UPFSelectionParams)

/-- A path from `cur` to `dest` over links, without repetition, outside `visited`, whose nodes
    after the first support the slice. -/
structure FoundPath (visited : Finset N) (cur dest : N) (path : List N) : Prop where
  head : path.head? = some cur
  last : path.getLast? = some dest
  follows : path.IsChain fun u v => v ∈ T.links u
  supported : ∀ v ∈ path.tail, T.Supports sel v
  nodup : path.Nodup
  fresh : ∀ v ∈ path, v ∉ visited

/-- The nodes visited between `before` and `after` are UPFs; those that support the slice are not
    `dest` and have all their links visited. -/
structure Exhausted (dest : N) (before after : Finset N) : Prop where
  grows : before ⊆ after
  upf : ∀ v ∈ after, v ∉ before → ¬ T.IsAN v
  closed : ∀ v ∈ after, v ∉ before → T.Supports sel v → v ≠ dest ∧ ∀ w ∈ T.links v, w ∈ after

/-- An AN node that is not visited and stands in `links` or is linked to a node that can be reached
    from there. -/
def MeetsAN (visited : Finset N) (links : List N) : Prop :=
  ∃ a, T.IsAN a ∧ a ∉ visited ∧
    (a ∈ links ∨ ∃ node ∈ links, T.Supports sel node ∧
      ∃ u, T.ReachesSlice sel node u ∧ a ∈ T.links u)

variable {T sel} {dest cur node : N} {before mid after : Finset N} {links path : List N}

theorem Exhausted.refl : Exhausted T sel dest before before where
  grows := subset_rfl
  upf := fun _ hv hn => absurd hv hn
  closed := fun _ hv hn => absurd hv hn

theorem Exhausted.trans (h₁ : Exhausted T sel dest before mid)
    (h₂ : Exhausted T sel dest mid after) : Exhausted T sel dest before after where
  grows := h₁.grows.trans h₂.grows
  upf := by
    intro v hv hn
    by_cases hm : v ∈ mid
    · exact h₁.upf v hm hn
    · exact h₂.upf v hv hm
  closed := by
    intro v hv hn hs
    by_cases hm : v ∈ mid
    · obtain ⟨hne, hw⟩ := h₁.closed v hm hn hs
      exact ⟨hne, fun w hwl => h₂.grows (hw w hwl)⟩
    · exact h₂.closed v hv hm hs

theorem FoundPath.anti (hsub : before ⊆ after) (h : FoundPath T sel after cur dest path) :
    FoundPath T sel before cur dest path :=
  { h with fresh := fun v hv hb => h.fresh v hv (hsub hb) }

/-- A path from `cur` shows that `dest` is reached. -/
theorem FoundPath.reaches (h : FoundPath T sel before cur dest path) :
    T.ReachesSlice sel cur dest := by
  induction path generalizing cur with
  | nil => exact absurd h.head (by simp)
  | cons x rest ih =>
    obtain rfl : x = cur := Option.some.inj h.head
    match rest with
    | [] =>
      obtain rfl : x = dest := Option.some.inj h.last
      exact .refl
    | y :: rest =>
      have hs : T.Supports sel y := h.supported y List.mem_cons_self
      have hrest : FoundPath T sel before y dest (y :: rest) :=
        ⟨rfl, by rw [← h.last, List.getLast?_cons_cons], h.follows.tail,
          fun v hv => h.supported v (List.mem_cons_of_mem _ hv), h.nodup.tail,
          fun v hv => h.fresh v (List.mem_cons_of_mem _ hv)⟩
      exact .head ⟨(List.isChain_cons_cons.mp h.follows).1, hs⟩ (ih hrest)

theorem MeetsAN.anti (hsub : before ⊆ after) (h : MeetsAN T sel after links) :
    MeetsAN T sel before links := by
  obtain ⟨a, ha, hn, hw⟩ := h
  exact ⟨a, ha, fun hb => hn (hsub hb), hw⟩

theorem MeetsAN.of_tail (h : MeetsAN T sel before links) : MeetsAN T sel before (node :: links) := by
  obtain ⟨a, ha, hn, hw⟩ := h
  refine ⟨a, ha, hn, hw.imp (List.mem_cons_of_mem _) ?_⟩
  intro ⟨x, hx, hrest⟩
  exact ⟨x, List.mem_cons_of_mem _ hx, hrest⟩

/-- The three outcomes of the loop at `cur` over `links`. -/
def LoopOutcome (T : Topology N) (sel : UPFSelectionParams) (dest cur : N) (links : List N)
    (visited : Finset N) : Searched N → Prop
  | .ok (_, some path) =>
    ∃ node ∈ links, T.Supports sel node ∧
      ∃ tail, path = cur :: tail ∧ FoundPath T sel visited node dest tail
  | .ok (visited', none) => Exhausted T sel dest visited visited' ∧ ∀ w ∈ links, w ∈ visited'
  | .error .nilUPF => MeetsAN T sel visited links
  | .error .outOfFuel => False

/-- What the loop over the other links leaves, after the first link has been dealt with. -/
theorem LoopOutcome.cons {r : Searched N} (hex : Exhausted T sel dest before mid)
    (hnode : node ∈ mid) (h : LoopOutcome T sel dest cur links mid r) :
    LoopOutcome T sel dest cur (node :: links) before r := by
  match r with
  | .ok (_, some path) =>
    obtain ⟨x, hx, hs, tail, htail, hf⟩ := h
    exact ⟨x, List.mem_cons_of_mem _ hx, hs, tail, htail, hf.anti hex.grows⟩
  | .ok (visited', none) =>
    refine ⟨hex.trans h.1, ?_⟩
    intro w hw
    rcases List.mem_cons.mp hw with rfl | hw
    · exact h.1.grows hnode
    · exact h.2 w hw
  | .error .nilUPF => exact (MeetsAN.anti hex.grows h).of_tail
  | .error .outOfFuel => exact h

variable [DecidableEq N]

/-- A UPF visited and skipped, since it does not support the slice. -/
theorem Exhausted.skip (hk : ¬ T.IsAN node) (hs : ¬ T.Supports sel node) :
    Exhausted T sel dest before (insert node before) where
  grows := Finset.subset_insert _ _
  upf := by
    intro v hv hn
    rwa [(Finset.mem_insert.mp hv).resolve_right hn]
  closed := by
    intro v hv hn hsv
    rw [(Finset.mem_insert.mp hv).resolve_right hn] at hsv
    exact absurd hsv hs

/-- A UPF whose search failed. -/
theorem Exhausted.failed (hs : T.Supports sel node) (hne : node ≠ dest)
    (h : Exhausted T sel dest (insert node before) after) (hlinks : ∀ w ∈ T.links node, w ∈ after) :
    Exhausted T sel dest before after where
  grows := (Finset.subset_insert _ _).trans h.grows
  upf := by
    intro v hv hn
    by_cases hvn : v = node
    · exact hvn ▸ hs.not_an
    · exact h.upf v hv fun hm => (Finset.mem_insert.mp hm).elim hvn hn
  closed := by
    intro v hv hn hsv
    by_cases hvn : v = node
    · exact hvn ▸ ⟨hne, hlinks⟩
    · exact h.closed v hv (fun hm => (Finset.mem_insert.mp hm).elim hvn hn) hsv

/-- A path found behind a link of `cur` goes on from `cur`. -/
theorem FoundPath.cons {tail : List N} (hlink : node ∈ T.links cur) (hs : T.Supports sel node)
    (hc : cur ∉ before) (h : FoundPath T sel (insert cur before) node dest tail) :
    FoundPath T sel before cur dest (cur :: tail) := by
  obtain ⟨rest, rfl⟩ : ∃ rest, tail = node :: rest := List.head?_eq_some_iff.mp h.head
  refine ⟨rfl, ?_, h.follows.cons_cons hlink, ?_, ?_, ?_⟩
  · rw [List.getLast?_cons_cons]
    exact h.last
  · intro v hv
    rcases List.mem_cons.mp hv with rfl | hv
    · exact hs
    · exact h.supported v hv
  · exact List.nodup_cons.mpr ⟨fun hm => h.fresh cur hm (Finset.mem_insert_self _ _), h.nodup⟩
  · intro v hv
    rcases List.mem_cons.mp hv with rfl | hv
    · exact hc
    · exact fun hb => h.fresh v hv (Finset.mem_insert_of_mem hb)

/-- An AN node met behind a link is met from the link. -/
theorem MeetsAN.behind (hs : T.Supports sel node)
    (h : MeetsAN T sel (insert node before) (T.links node)) :
    MeetsAN T sel before (node :: links) := by
  obtain ⟨a, ha, hn, hw⟩ := h
  refine ⟨a, ha, fun hb => hn (Finset.mem_insert_of_mem hb), .inr ⟨node, List.mem_cons_self, hs, ?_⟩⟩
  rcases hw with hw | ⟨x, hx, hsx, u, hu, hau⟩
  · exact ⟨node, .refl, hw⟩
  · exact ⟨u, .head ⟨hx, hsx⟩ hu, hau⟩

/-- The three outcomes of a call at `cur`. -/
def Outcome (T : Topology N) (sel : UPFSelectionParams) (dest cur : N) (visited : Finset N) :
    Searched N → Prop
  | .ok (_, some path) => FoundPath T sel visited cur dest path
  | .ok (visited', none) =>
    cur ≠ dest ∧ Exhausted T sel dest (insert cur visited) visited' ∧
      ∀ w ∈ T.links cur, w ∈ visited'
  | .error .nilUPF => MeetsAN T sel (insert cur visited) (T.links cur)
  | .error .outOfFuel => False

/-- The loop over all links of `cur` is the call at `cur`. -/
theorem LoopOutcome.outcome {r : Searched N} (hcur : cur ∉ before) (hne : cur ≠ dest)
    (h : LoopOutcome T sel dest cur (T.links cur) (insert cur before) r) :
    Outcome T sel dest cur before r := by
  match r with
  | .ok (_, some path) =>
    obtain ⟨node, hnode, hs, tail, htail, hf⟩ := h
    rw [htail]
    exact hf.cons hnode hs hcur
  | .ok (visited', none) => exact ⟨hne, h⟩
  | .error .nilUPF => exact h
  | .error .outOfFuel => exact h

/-- The loop keeps to its outcomes if the calls for links that are not visited do. -/
theorem searchLinks_outcome {search : N → Finset N → Searched N}
    (hsearch : ∀ node visited, before ⊆ visited → node ∉ visited →
      Outcome T sel dest node visited (search node visited)) :
    LoopOutcome T sel dest cur links before (searchLinks T sel search cur links before) := by
  induction links generalizing before with
  | nil => exact ⟨.refl, fun w hw => absurd hw List.not_mem_nil⟩
  | cons node links ih =>
    rw [searchLinks]
    split_ifs with hvis
    · exact .cons .refl hvis (ih hsearch)
    · cases hk : T.kind node with
      | an => exact ⟨node, hk, hvis, .inl List.mem_cons_self⟩
      | upf upf =>
        simp only
        split_ifs with hs
        · have hsup : T.Supports sel node := ⟨upf, hk, hs⟩
          have hout := hsearch node before subset_rfl hvis
          match hr : search node before with
          | .error .nilUPF =>
            rw [hr] at hout
            exact MeetsAN.behind hsup hout
          | .error .outOfFuel =>
            rw [hr] at hout
            exact hout
          | .ok (visited', some tail) =>
            rw [hr] at hout
            exact ⟨node, List.mem_cons_self, hsup, tail, rfl, hout⟩
          | .ok (visited', none) =>
            rw [hr] at hout
            obtain ⟨hne, hex, hlinks⟩ := hout
            have hfail := Exhausted.failed hsup hne hex hlinks
            exact .cons hfail (hex.grows (Finset.mem_insert_self _ _))
              (ih fun x vis hsub hx => hsearch x vis (hfail.grows.trans hsub) hx)
        · have hnot : ¬ T.Supports sel node := fun h => hs ((Topology.isUPFWith_iff hk).mp h)
          have hupf : ¬ T.IsAN node := by
            unfold Topology.IsAN
            rw [hk]
            exact UPNodeKind.noConfusion
          refine .cons (.skip hupf hnot) (Finset.mem_insert_self _ _) (ih fun x vis hsub hx => ?_)
          exact hsearch x vis ((Finset.subset_insert _ _).trans hsub) hx

/-- The nodes that a failed search leaves visited hold all that can be reached. -/
theorem visited_of_reaches {source v : N}
    (hex : Exhausted T sel dest (insert source ∅) after)
    (hlinks : ∀ w ∈ T.links source, w ∈ after) (h : T.ReachesSlice sel source v) : v ∈ after := by
  have hclosed : v ∈ after ∧ (v = source ∨ T.Supports sel v) := by
    refine Topology.Reaches.mem_of_closed
      (S := fun v => v ∈ after ∧ (v = source ∨ T.Supports sel v))
      ⟨hex.grows (Finset.mem_insert_self _ _), .inl rfl⟩ ?_ h
    intro x y ⟨hx, hkind⟩ hstep
    by_cases hxs : x = source
    · exact ⟨hlinks y (hxs ▸ hstep.1), .inr hstep.2⟩
    · have hfresh : x ∉ insert source (∅ : Finset N) := by simpa using hxs
      exact ⟨(hex.closed x hx hfresh (hkind.resolve_left hxs)).2 y hstep.1, .inr hstep.2⟩
  exact hclosed.1

/-- A failed search has not missed `dest`. -/
theorem not_reaches_of_exhausted {source : N} (hne : source ≠ dest)
    (hex : Exhausted T sel dest (insert source ∅) after)
    (hlinks : ∀ w ∈ T.links source, w ∈ after) : ¬ T.ReachesSlice sel source dest := by
  intro h
  have hmem := visited_of_reaches hex hlinks h
  have hfresh : dest ∉ insert source (∅ : Finset N) := by simpa using hne.symm
  exact (hex.closed dest hmem hfresh (h.eq_or.resolve_left hne.symm)).1 rfl

/-- With no AN but the source, no nil UPF is met. -/
theorem not_meetsAN {source : N} (hupf : ∀ v, v ≠ source → ¬ T.IsAN v) :
    ¬ MeetsAN T sel (insert source ∅) links := by
  intro ⟨a, ha, hfresh, _⟩
  exact hupf a (by simpa using hfresh) ha

variable [Fintype N]

/-- Every call at a node that is not visited keeps to the outcomes, with as much fuel as there are
    nodes not visited. -/
theorem getPathBetween_outcome (fuel : Nat) (hcur : cur ∉ before) (hfuel : beforeᶜ.card ≤ fuel) :
    Outcome T sel dest cur before (getPathBetween T sel dest fuel cur before) := by
  induction fuel generalizing cur before with
  | zero =>
    have hempty : beforeᶜ = ∅ := Finset.card_eq_zero.mp (Nat.le_zero.mp hfuel)
    exact absurd (Finset.mem_compl.mpr hcur) (hempty ▸ Finset.notMem_empty cur)
  | succ fuel ih =>
    rw [getPathBetween]
    split_ifs with heq
    · rw [(T.deepEqual_iff cur dest).mp heq] at hcur ⊢
      refine ⟨rfl, rfl, .singleton _, fun v hv => absurd hv List.not_mem_nil,
        List.nodup_singleton _, ?_⟩
      intro v hv
      rwa [List.mem_singleton.mp hv]
    · have hne : cur ≠ dest := fun h => heq ((T.deepEqual_iff cur dest).mpr h)
      -- `cur` is visited by the calls below, so that one node less is left for them.
      have hcard : (insert cur before)ᶜ.card ≤ fuel := by
        rw [Finset.compl_insert]
        have := Finset.card_erase_lt_of_mem (Finset.mem_compl.mpr hcur)
        omega
      refine LoopOutcome.outcome hcur hne (searchLinks_outcome fun node visited hsub hnode => ?_)
      exact ih hnode ((Finset.card_le_card (Finset.compl_subset_compl.mpr hsub)).trans hcard)

/-- A search from `source` with all nodes unvisited. -/
theorem search_outcome (T : Topology N) (sel : UPFSelectionParams) (dest source : N) {fuel : Nat}
    (hfuel : Fintype.card N ≤ fuel) :
    Outcome T sel dest source ∅ (getPathBetween T sel dest fuel source ∅) := by
  refine getPathBetween_outcome fuel (Finset.notMem_empty _) ?_
  rwa [Finset.compl_empty, Finset.card_univ]

/-- A search from the only AN ends, with a path or with `dest` out of reach. -/
theorem search_cases (T : Topology N) (sel : UPFSelectionParams) (dest : N) {source : N}
    (hupf : ∀ v, v ≠ source → ¬ T.IsAN v) {fuel : Nat} (hfuel : Fintype.card N ≤ fuel) :
    (∃ visited path, getPathBetween T sel dest fuel source ∅ = .ok (visited, some path) ∧
      FoundPath T sel ∅ source dest path) ∨
    ∃ visited, getPathBetween T sel dest fuel source ∅ = .ok (visited, none) ∧
      ¬ T.ReachesSlice sel source dest := by
  have hout := search_outcome T sel dest source hfuel
  match hr : getPathBetween T sel dest fuel source ∅ with
  | .error .nilUPF =>
    rw [hr] at hout
    exact absurd hout (not_meetsAN hupf)
  | .error .outOfFuel =>
    rw [hr] at hout
    exact hout.elim
  | .ok (visited, some path) =>
    rw [hr] at hout
    exact .inl ⟨visited, path, rfl, hout⟩
  | .ok (visited, none) =>
    rw [hr] at hout
    obtain ⟨hne, hex, hlinks⟩ := hout
    exact .inr ⟨visited, rfl, not_reaches_of_exhausted hne hex hlinks⟩

/-- The search is sound and complete: it ends, finds a path exactly if `dest` can be reached through
    UPFs that support the slice, and what it finds is such a path. -/
theorem getPathBetween_correct (T : Topology N) (sel : UPFSelectionParams) (source dest : N)
    (fuel : Nat) (hupf : ∀ v, v ≠ source → ¬ T.IsAN v) (hfuel : Fintype.card N ≤ fuel) :
    ∃ visited path, getPathBetween T sel dest fuel source ∅ = .ok (visited, path) ∧
      (path.isSome ↔ T.ReachesSlice sel source dest) ∧
      ∀ found, path = some found → FoundPath T sel ∅ source dest found := by
  rcases search_cases T sel dest hupf hfuel with ⟨visited, path, hr, hfound⟩ | ⟨visited, hr, hnot⟩
  · refine ⟨visited, some path, hr, ⟨fun _ => hfound.reaches, fun _ => rfl⟩, ?_⟩
    intro found h
    exact Option.some.inj h ▸ hfound
  · exact ⟨visited, none, hr, ⟨fun h => absurd h Bool.false_ne_true, fun h => absurd h hnot⟩,
      fun found h => (Option.some_ne_none found h.symm).elim⟩

/-- The AN 0 and four UPFs in a circle. -/
def circle : Topology (Fin 5) :=
  .ofLinks (fun v => if v = 0 then .an else .upf ⟨[⟨⟨1, []⟩, []⟩]⟩) fun v => [v + 1, v - 1]

def sliceOne : UPFSelectionParams := ⟨"internet", ⟨1, []⟩, "", none⟩

theorem getPathBetween_correct_circle :
    (∀ v, v ≠ 0 → ¬ circle.IsAN v) ∧
      ∃ visited path, getPathBetween circle sliceOne 2 5 0 ∅ = .ok (visited, path) ∧
        (path.isSome ↔ circle.ReachesSlice sliceOne 0 2) ∧
        ∀ found, path = some found → FoundPath circle sliceOne ∅ 0 2 found := by
  have hupf : ∀ v, v ≠ 0 → ¬ circle.IsAN v := by
    intro v hv h
    have hkind : circle.kind v = .upf _ := if_neg hv
    cases hkind.symm.trans h
  exact ⟨hupf, getPathBetween_correct circle sliceOne 0 2 5 hupf (le_refl _)⟩

end Spec

end Free5gc.Smf.Upi
