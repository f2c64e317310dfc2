/-
  The choice of anchor UPFs (`selectAnchorUPF` of `internal/context/user_plane_information.go`): a
  queue search from an access network through UPFs that match DNN and S-NSSAI, which collects the
  UPFs that lead to no further one. A node is marked when it is taken from the queue.

  The search is an instance of `Lib.Swept` as long as it does not come to an AN node again, whose UPF
  is nil. `selectsAnchors_iff` says when no UPF is chosen twice, `toleratesANs_iff` when this search
  and `getPathBetween` never read the UPF of an AN node. Sorting by name is left out.
-/
import Free5gc.Lib.Sweep
import Free5gc.Smf.Upi.Topology

namespace Free5gc.Smf.Upi

open Free5gc.Lib

section

variable {N : Type} [DecidableEq N] (T : Topology N)

/-- The node is a UPF and its `MatchedSelection` is true. -/
def Topology.matched (sel : UPFSelectionParams) (v : N) : Bool :=
  match T.kind v with
  | .an => false
  | .upf upf => upf.matchedSelection sel

/-- `selectionForIUPF` -/
def UPFSelectionParams.forIUPF (sel : UPFSelectionParams) : UPFSelectionParams :=
  { sel with dnai := "", pduAddress := none }

/-- The links that one node adds to the queue. -/
def newNodes (sel : UPFSelectionParams) (visited : Finset N) : List N → Except Fault (List N)
  | [] => .ok []
  | link :: rest =>
    if link ∈ visited then newNodes sel visited rest
    else match T.kind link with
      | .an => .error .nilUPF
      | .upf upf =>
        (newNodes sel visited rest).map fun found =>
          if upf.matchedSelection sel then link :: found else found

/-- The loop of `selectAnchorUPF`. -/
def selectAnchorLoop (sel : UPFSelectionParams) :
    Nat → Finset N → List N → List N → Except Fault (List N)
  | _, _, [], upList => .ok upList
  | 0, _, _ :: _, _ => .error .outOfFuel
  | fuel + 1, visited, node :: queue, upList =>
    match newNodes T sel.forIUPF (insert node visited) (T.links node) with
    | .error e => .error e
    | .ok found =>
      selectAnchorLoop sel fuel (insert node visited) (queue ++ found)
        (if found = [] ∧ T.matched sel node then upList ++ [node] else upList)

def selectAnchorUPF (sel : UPFSelectionParams) (fuel : Nat) (source : N) : Except Fault (List N) :=
  selectAnchorLoop T sel fuel ∅ [source] []

end

/-! ## The search as a sweep -/

section

variable {N : Type} {T : Topology N} {sel : UPFSelectionParams} {u v source : N}

theorem Topology.matched_iff :
    T.matched sel v = true ↔ T.IsUPFWith (UPF.matchedSelection · sel) v := by
  unfold Topology.matched
  cases hk : T.kind v with
  | an => exact ⟨fun h => absurd h Bool.false_ne_true, fun h => absurd hk h.not_an⟩
  | upf upf => rw [Topology.isUPFWith_iff hk]

variable (T sel) in
/-- The links of a node to UPFs that match DNN and S-NSSAI. -/
def matchingLinks (u : N) : List N := (T.links u).filter (T.matched sel.forIUPF)

theorem mem_matchingLinks :
    v ∈ matchingLinks T sel u ↔ T.Step (UPF.matchedSelection · sel.forIUPF) u v := by
  unfold matchingLinks
  rw [List.mem_filter, Topology.matched_iff]
  rfl

variable (T sel source) in
/-- No AN but the source is linked to a node that the search can reach. -/
def OnlySourceMet : Prop :=
  ∀ u, T.Reaches (UPF.matchedSelection · sel.forIUPF) source u →
    ∀ a ∈ T.links u, T.IsAN a → a = source

variable (T sel source) in
/-- A state of the search from the source, with `done` taken from the queue. -/
structure Searching (done queue : List N) : Prop where
  reached : ∀ v ∈ queue, T.Reaches (UPF.matchedSelection · sel.forIUPF) source v
  first : source ∈ done ∨ queue.head? = some source

variable {done queue upList leaves found : List N} {node : N} {fuel : Nat}

theorem searching_start : Searching T sel source [] [source] where
  reached _ hv := List.mem_singleton.mp hv ▸ .refl
  first := .inr rfl

theorem Searching.source_mem (h : Searching T sel source done (node :: queue)) :
    source ∈ done ++ [node] :=
  h.first.elim (List.mem_append_left _) fun hhead =>
    Option.some.inj hhead ▸ List.mem_append_right _ List.mem_cons_self

theorem onlySourceMet_of_one (hs : ∀ a, T.IsAN a ↔ a = source) : OnlySourceMet T sel source :=
  fun _ _ a _ ha => (hs a).mp ha

theorem matched_forIUPF (hdnai : sel.dnai = "") : T.matched sel.forIUPF = T.matched sel := by
  funext v
  unfold Topology.matched UPF.matchedSelection UPFSelectionParams.forIUPF
  rw [hdnai]

theorem matched_source (hs : T.IsAN source) : T.matched sel source = false := by
  rw [Topology.matched, hs]

variable (T sel) in
/-- No AN is linked to another or to a UPF that the other reaches through UPFs of the slice. -/
def ANsApart : Prop :=
  ∀ source, T.IsAN source → ∀ u, T.ReachesSlice sel source u →
    ∀ a ∈ T.links u, T.IsAN a → a = source

theorem ANsApart.onlySourceMet (h : ANsApart T sel) (hs : T.IsAN source) :
    OnlySourceMet T sel source := by
  have hsup : ∀ upf : UPF, upf.matchedSelection sel.forIUPF = true →
      upf.isSupportSnssai sel.forIUPF.sNssai = true := fun _ => UPF.isSupportSnssai_of_matched
  exact fun u hu => h source hs u (hu.mono hsup)

variable [DecidableEq N]

/-- The links that are added if every AN among the links has been visited. -/
theorem newNodes_eq {visited : Finset N} {links : List N}
    (han : ∀ a ∈ links, T.IsAN a → a ∈ visited) :
    newNodes T sel visited links = .ok (links.filter fun w => T.matched sel w && w ∉ visited) := by
  induction links with
  | nil => rfl
  | cons link rest ih =>
    have hrest := ih fun a ha => han a (List.mem_cons_of_mem _ ha)
    rw [newNodes]
    split_ifs with hvis
    · rw [hrest, List.filter_cons_of_neg (by simp [hvis])]
    · cases hk : T.kind link with
      | an => exact absurd (han link List.mem_cons_self hk) hvis
      | upf upf =>
        rw [hrest, List.filter_cons]
        have hmatched : T.matched sel link = upf.matchedSelection sel := by
          rw [Topology.matched, hk]
        simp only [hmatched, hvis, not_false_eq_true, decide_true, Bool.and_true]
        rfl

theorem Searching.step (h : Searching T sel source done (node :: queue)) :
    Searching T sel source (done ++ [node]) (queue ++ fresh (matchingLinks T sel) done node) where
  reached v hv := by
    rcases List.mem_append.mp hv with hv | hv
    · exact h.reached v (List.mem_cons_of_mem _ hv)
    · exact (h.reached node List.mem_cons_self).tail (mem_matchingLinks.mp (mem_fresh.mp hv).1)
  first := .inl h.source_mem

theorem swept_of_loop_nil {visited : Finset N}
    (hrun : selectAnchorLoop T sel fuel visited [] upList = .ok found) (done : List N) :
    ∃ leaves, Swept (matchingLinks T sel) done [] leaves ∧
      found = upList ++ leaves.filter (T.matched sel) := by
  refine ⟨[], .nil done, ?_⟩
  unfold selectAnchorLoop at hrun
  rw [List.filter_nil, List.append_nil, Except.ok.inj hrun]

section

variable (hmet : OnlySourceMet T sel source)

include hmet

/-- What a node adds to the queue of `selectAnchorUPF` is what it adds to the sweep. -/
theorem Searching.newNodes_eq (h : Searching T sel source done (node :: queue)) :
    newNodes T sel.forIUPF (insert node done.toFinset) (T.links node) =
      .ok (fresh (matchingLinks T sel) done node) := by
  have hvisited : ∀ w, w ∈ insert node done.toFinset ↔ w ∈ node :: done := fun w => by simp
  rw [Upi.newNodes_eq, fresh, matchingLinks, List.filter_filter]
  · congr 1
    refine List.filter_congr fun w _ => ?_
    simp only [hvisited]
    exact Bool.and_comm _ _
  · intro a ha hk
    rw [hvisited, hmet node (h.reached node List.mem_cons_self) a ha hk]
    simpa [or_comm] using h.source_mem

/-- One pass of the loop. -/
theorem Searching.loop_succ (h : Searching T sel source done (node :: queue)) (fuel : Nat) :
    selectAnchorLoop T sel (fuel + 1) done.toFinset (node :: queue) upList =
      selectAnchorLoop T sel fuel (done ++ [node]).toFinset
        (queue ++ fresh (matchingLinks T sel) done node)
        (if fresh (matchingLinks T sel) done node = [] ∧ T.matched sel node then upList ++ [node]
          else upList) := by
  rw [selectAnchorLoop, h.newNodes_eq hmet, toFinset_snoc]

/-- The loop returns the leaves of the sweep that match the selection. -/
theorem Searching.loop_of_swept (h : Searching T sel source done queue)
    (hs : Swept (matchingLinks T sel) done queue leaves) (upList : List N) :
    ∃ fuel, selectAnchorLoop T sel fuel done.toFinset queue upList =
      .ok (upList ++ leaves.filter (T.matched sel)) := by
  induction hs generalizing upList with
  | nil => exact ⟨0, by rw [selectAnchorLoop, List.filter_nil, List.append_nil]⟩
  | @leaf done queue leaves n hnone _ ih =>
    obtain ⟨fuel, hrun⟩ := ih h.step _
    refine ⟨fuel + 1, ?_⟩
    rw [h.loop_succ hmet, hrun, List.filter_cons]
    by_cases hm : T.matched sel n <;> simp [hnone, hm]
  | @inner done queue leaves n hsome _ ih =>
    obtain ⟨fuel, hrun⟩ := ih h.step _
    refine ⟨fuel + 1, ?_⟩
    rw [h.loop_succ hmet, hrun, if_neg fun hn => hsome hn.1]

theorem Searching.swept_of_loop (h : Searching T sel source done queue)
    (hrun : selectAnchorLoop T sel fuel done.toFinset queue upList = .ok found) :
    ∃ leaves, Swept (matchingLinks T sel) done queue leaves ∧
      found = upList ++ leaves.filter (T.matched sel) := by
  induction fuel generalizing done queue upList with
  | zero =>
    match queue with
    | [] => exact swept_of_loop_nil hrun done
    | node :: queue => cases hrun
  | succ fuel ih =>
    match queue with
    | [] => exact swept_of_loop_nil hrun done
    | node :: queue =>
      rw [h.loop_succ hmet] at hrun
      obtain ⟨leaves, hs, rfl⟩ := ih h.step hrun
      refine ⟨_, hs.cons, ?_⟩
      by_cases hf : fresh (matchingLinks T sel) done node = [] <;>
        by_cases hm : T.matched sel node <;> simp [hf, hm]

/-- What `selectAnchorUPF` returns are the leaves of the sweep that match the selection. -/
theorem selectAnchorUPF_swept (hrun : selectAnchorUPF T sel fuel source = .ok found) :
    ∃ leaves, Swept (matchingLinks T sel) [] [source] leaves ∧
      found = leaves.filter (T.matched sel) :=
  searching_start.swept_of_loop hmet hrun

theorem exists_selectAnchorUPF [Fintype N] :
    ∃ fuel found, selectAnchorUPF T sel fuel source = .ok found := by
  obtain ⟨leaves, hs⟩ := exists_swept (matchingLinks T sel) [] [source]
  obtain ⟨fuel, hrun⟩ := searching_start.loop_of_swept hmet hs []
  exact ⟨fuel, _, hrun⟩

end

/-! ## Several access networks -/

variable (T sel) in
/-- Started from any AN, both searches end without reading the UPF of an AN. -/
def ToleratesANs [Fintype N] : Prop :=
  ∀ source, T.IsAN source → (∃ fuel found, selectAnchorUPF T sel fuel source = .ok found) ∧
    ∀ dest fuel, Fintype.card N ≤ fuel → ∃ r, getPathBetween T sel dest fuel source ∅ = .ok r

/-- A search that meets an AN meets it at a node that can be reached. -/
theorem ANsApart.not_meetsAN (h : ANsApart T sel) (hs : T.IsAN source) :
    ¬ MeetsAN T sel (insert source ∅) (T.links source) := by
  intro ⟨a, ha, hfresh, hlink⟩
  have hne : a ≠ source := by simpa using hfresh
  rcases hlink with hlink | ⟨node, hnode, hsup, u, hu, hau⟩
  · exact hne (h source hs source .refl a hlink ha)
  · exact hne (h source hs u (.head ⟨hnode, hsup⟩ hu) a hau ha)

/-- A search for another AN, linked to what can be reached, reads its UPF. -/
theorem nilUPF_of_linked [Fintype N] {a : N} {fuel : Nat} (hfuel : Fintype.card N ≤ fuel)
    (ha : T.IsAN a) (hne : a ≠ source) (hu : T.ReachesSlice sel source u) (hau : a ∈ T.links u) :
    getPathBetween T sel a fuel source ∅ = .error .nilUPF := by
  have hout := search_outcome T sel a source hfuel
  match hr : getPathBetween T sel a fuel source ∅ with
  | .error .nilUPF => rfl
  | .error .outOfFuel =>
    rw [hr] at hout
    exact hout.elim
  | .ok (_, some path) =>
    rw [hr] at hout
    exact absurd ha ((FoundPath.reaches hout).eq_or.resolve_left hne).not_an
  | .ok (visited, none) =>
    rw [hr] at hout
    obtain ⟨-, hex, hlinks⟩ := hout
    have hvisited : a ∈ visited := by
      by_cases hus : u = source
      · exact hlinks a (hus ▸ hau)
      · exact (hex.closed u (visited_of_reaches hex hlinks hu) (by simpa using hus)
          (hu.eq_or.resolve_left hus)).2 a hau
    exact absurd ha (hex.upf a hvisited (by simpa using hne))

/-- The searches tolerate several access networks exactly if these are apart. -/
theorem toleratesANs_iff [Fintype N] (T : Topology N) (sel : UPFSelectionParams) :
    ToleratesANs T sel ↔ ANsApart T sel := by
  constructor
  · intro h source hs u hu a hau ha
    by_contra hne
    obtain ⟨r, hr⟩ := (h source hs).2 a (Fintype.card N) (le_refl _)
    rw [nilUPF_of_linked (le_refl _) ha hne hu hau] at hr
    cases hr
  · intro h source hs
    refine ⟨exists_selectAnchorUPF (h.onlySourceMet hs), fun dest fuel hfuel => ?_⟩
    have hout := search_outcome T sel dest source hfuel
    match hr : getPathBetween T sel dest fuel source ∅ with
    | .error .nilUPF =>
      rw [hr] at hout
      exact absurd hout (h.not_meetsAN hs)
    | .error .outOfFuel =>
      rw [hr] at hout
      exact hout.elim
    | .ok r => exact ⟨r, rfl⟩

/-- The UPF 1 is linked to the ANs 0 and 2 and to the UPF 3. -/
def twoANs : Topology (Fin 4) :=
  .ofLinks ![.an, .upf ⟨[⟨⟨1, []⟩, [⟨"internet", []⟩]⟩]⟩, .an,
    .upf ⟨[⟨⟨1, []⟩, [⟨"internet", []⟩]⟩]⟩] ![[1], [0, 2, 3], [1], [1]]

/-- Both searches from the AN 0 read the UPF of the AN 2. -/
theorem twoANs_nilUPF :
    twoANs.IsAN 0 ∧ selectAnchorUPF twoANs sliceOne 9 0 = .error .nilUPF ∧
      getPathBetween twoANs sliceOne 3 4 0 ∅ = .error .nilUPF :=
  ⟨rfl, rfl, rfl⟩

/-! ## One access network -/

variable (T sel source) in
/-- What is asked of `selectAnchorUPF` from the only AN. -/
structure SelectsAnchors : Prop where
  terminates : ∃ fuel found, selectAnchorUPF T sel fuel source = .ok found
  sound : ∀ fuel found, selectAnchorUPF T sel fuel source = .ok found → ∀ v ∈ found,
    T.IsUPFWith (UPF.matchedSelection · sel) v ∧
      T.Reaches (UPF.matchedSelection · sel.forIUPF) source v
  nodup : ∀ fuel found, selectAnchorUPF T sel fuel source = .ok found → found.Nodup
  nonempty : sel.dnai = "" → ∀ fuel found, selectAnchorUPF T sel fuel source = .ok found →
    (found ≠ [] ↔ ∃ v ∈ T.links source, T.IsUPFWith (UPF.matchedSelection · sel) v)

theorem mem_fresh_source (hs : T.IsAN source) :
    v ∈ fresh (matchingLinks T sel) [] source ↔
      v ∈ T.links source ∧ T.matched sel.forIUPF v = true := by
  rw [mem_fresh, matchingLinks, List.mem_filter, List.mem_singleton]
  refine ⟨And.left, fun h => ⟨h, fun hv => ?_⟩⟩
  rw [hv, matched_source hs] at h
  exact Bool.false_ne_true h.2

/-- The sweep finds a UPF behind the source exactly if a link of the source matches. -/
theorem exists_leaf_iff (hs : T.IsAN source)
    (hswept : Swept (matchingLinks T sel) [] [source] leaves) :
    (∃ v ∈ leaves, T.matched sel.forIUPF v = true) ↔
      ∃ v ∈ T.links source, T.matched sel.forIUPF v = true := by
  cases hswept with
  | leaf hnone hrest =>
    rw [hnone, List.append_nil] at hrest
    cases hrest
    constructor
    · intro ⟨v, hv, hm⟩
      rw [List.mem_singleton.mp hv, matched_source hs] at hm
      exact absurd hm Bool.false_ne_true
    · intro ⟨v, hv, hm⟩
      have hmem := (mem_fresh_source hs).mpr ⟨hv, hm⟩
      rw [hnone] at hmem
      exact absurd hmem List.not_mem_nil
  | inner hsome hrest =>
    have hall : ∀ v ∈ leaves, T.matched sel.forIUPF v = true := by
      refine hrest.forall_leaves (fun u _ w hw => (List.mem_filter.mp hw).2) ?_
      intro v hv
      exact ((mem_fresh_source hs).mp hv).2
    obtain ⟨v, hv⟩ := List.exists_mem_of_ne_nil _ (hrest.ne_nil hsome)
    obtain ⟨w, hw⟩ := List.exists_mem_of_ne_nil _ hsome
    exact ⟨fun _ => ⟨w, (mem_fresh_source hs).mp hw⟩, fun _ => ⟨v, hv, hall v hv⟩⟩

/-- All but the absence of repetitions holds of every selection. -/
theorem selectsAnchors_of_nodup [Fintype N] (hs : ∀ a, T.IsAN a ↔ a = source)
    (hnodup : ∀ fuel found, selectAnchorUPF T sel fuel source = .ok found → found.Nodup) :
    SelectsAnchors T sel source where
  terminates := exists_selectAnchorUPF (onlySourceMet_of_one hs)
  sound := by
    intro fuel found hrun v hv
    obtain ⟨leaves, hswept, rfl⟩ := selectAnchorUPF_swept (onlySourceMet_of_one hs) hrun
    obtain ⟨hleaf, hm⟩ := List.mem_filter.mp hv
    refine ⟨Topology.matched_iff.mp hm, hswept.forall_leaves ?_ ?_ v hleaf⟩
    · exact fun u hu w hw => hu.tail (mem_matchingLinks.mp hw)
    · exact fun w hw => List.mem_singleton.mp hw ▸ .refl
  nodup := hnodup
  nonempty := by
    intro hdnai fuel found hrun
    obtain ⟨leaves, hswept, rfl⟩ := selectAnchorUPF_swept (onlySourceMet_of_one hs) hrun
    have hiff := exists_leaf_iff ((hs source).mpr rfl) hswept
    rw [matched_forIUPF hdnai] at hiff
    have hne : leaves.filter (T.matched sel) ≠ [] ↔ ∃ v ∈ leaves, T.matched sel v = true := by
      rw [ne_eq, List.filter_eq_nil_iff]
      push Not
      rfl
    rw [hne, hiff]
    simp only [Topology.matched_iff]

/-- From the only AN, the anchors are right if the UPFs that the search can reach are listed once:
    each node's matching links, without those at or before it in the list, follow one another without
    repetition. If no DNAI is requested, they are right only then. -/
theorem selectsAnchors_iff [Fintype N] (T : Topology N) (sel : UPFSelectionParams) (source : N)
    (hs : ∀ a, T.IsAN a ↔ a = source) :
    let ListedOnce := ∃ order, order.Nodup ∧ Listed (matchingLinks T sel) source order
    (ListedOnce → SelectsAnchors T sel source) ∧
      (sel.dnai = "" → SelectsAnchors T sel source → ListedOnce) := by
  constructor
  · intro ⟨order, hnodup, hlisted⟩
    refine selectsAnchors_of_nodup hs fun fuel found hrun => ?_
    obtain ⟨leaves, hswept, rfl⟩ := selectAnchorUPF_swept (onlySourceMet_of_one hs) hrun
    exact (hswept.nodup_of_listed hnodup hlisted).filter _
  · intro hdnai h
    obtain ⟨fuel, found, hrun⟩ := h.terminates
    obtain ⟨leaves, hswept, rfl⟩ := selectAnchorUPF_swept (onlySourceMet_of_one hs) hrun
    have hnodup := h.nodup fuel _ hrun
    refine (hswept.not_twice_iff (Q := fun v => T.matched sel v = true) ?_).mp ?_
    · intro u w hw
      rw [← matched_forIUPF hdnai]
      exact (List.mem_filter.mp hw).2
    · intro ⟨x, hx, hcount⟩
      have hone := List.nodup_iff_count_le_one.mp hnodup x
      rw [List.count_filter hx] at hone
      omega

/-- The UPFs 1 and 2 are linked to the AN 0 and to the UPF 3. -/
def diamond : Topology (Fin 4) :=
  .ofLinks (fun v => if v = 0 then .an else .upf ⟨[⟨⟨1, []⟩, [⟨"internet", []⟩]⟩]⟩)
    ![[1, 2], [0, 3], [0, 3], [1, 2]]

theorem isAN_diamond (a : Fin 4) : diamond.IsAN a ↔ a = 0 := by
  constructor
  · intro h
    by_contra hne
    exact UPNodeKind.noConfusion ((if_neg hne).symm.trans h)
  · exact fun h => if_pos h

/-- The UPF 3 enters the queue from both its neighbours and is returned twice. -/
theorem diamond_twice :
    (∀ a, diamond.IsAN a ↔ a = 0) ∧ selectAnchorUPF diamond sliceOne 9 0 = .ok [3, 3] :=
  ⟨isAN_diamond, rfl⟩

theorem selectsAnchors_iff_diamond :
    (∀ a, diamond.IsAN a ↔ a = 0) ∧ sliceOne.dnai = "" ∧
    (SelectsAnchors diamond sliceOne 0 →
      ∃ order, order.Nodup ∧ Listed (matchingLinks diamond sliceOne) 0 order) :=
  ⟨isAN_diamond, rfl, (selectsAnchors_iff diamond sliceOne 0 isAN_diamond).2 rfl⟩

end
end Free5gc.Smf.Upi
