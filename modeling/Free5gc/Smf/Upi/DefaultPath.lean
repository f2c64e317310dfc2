/-
  The default path of a selection (`GenerateDefaultPath`, `GetDefaultUserPlanePathByDNN` of
  `internal/context/user_plane_information.go`).

  The UPFs that offer the DNN are collected in the order in which the map `UPFs` is walked, and the
  first of them is the one destination that is searched for. `findsDefaultPath_iff` says for which
  topologies this finds a path whenever there is one.
-/
import Free5gc.Smf.Upi.Topology

namespace Free5gc.Smf.Upi

open Free5gc.Lib

/-- The condition of `selectMatchUPF` on an entry for an S-NSSAI. -/
def SnssaiUPFInfo.offers (sel : UPFSelectionParams) (info : SnssaiUPFInfo) : Bool :=
  info.sNssai.equal sel.sNssai &&
    info.dnnList.any fun d => d.dnn == sel.dnn && d.containsDNAI sel.dnai

def UPF.offers (sel : UPFSelectionParams) (upf : UPF) : Bool :=
  upf.sNssaiInfos.any (SnssaiUPFInfo.offers sel)

section

variable {N : Type} (T : Topology N) (sel : UPFSelectionParams)

/-- A UPF that matches DNN, S-NSSAI and DNAI. -/
abbrev Topology.Matching : N → Prop := T.IsUPFWith (UPF.offers sel)

/-- The orders in which the maps `UPFs` and `AccessNetwork` are walked. -/
structure Walked where
  upfs : List N
  accessNetwork : List N
  mem_upfs : ∀ n, n ∈ upfs ↔ ¬ T.IsAN n
  mem_accessNetwork : ∀ n, n ∈ accessNetwork ↔ T.IsAN n
  nodup_upfs : upfs.Nodup
  nodup_accessNetwork : accessNetwork.Nodup

/-- `selectMatchUPF`: the inner `break` leaves the entries of one S-NSSAI only, so a UPF stands in
    the list once for each of its entries that match. -/
def selectMatchUPF (upfs : List N) : List N :=
  upfs.flatMap fun upNode =>
    match T.kind upNode with
    | .an => []
    | .upf upf => (upf.sNssaiInfos.filter (SnssaiUPFInfo.offers sel)).map fun _ => upNode

variable [DecidableEq N] [Fintype N]

/-- The loop over the access networks in `GenerateDefaultPath`. -/
def generateFrom (dest : N) :
    List N → GoMap String (List N) → Except Fault (GoMap String (List N) × Bool)
  | [], paths => .ok (paths, false)
  | node :: rest, paths =>
    match getPathBetween T sel dest (Fintype.card N) node ∅ with
    | .error e => .error e
    | .ok (_, none) => generateFrom dest rest paths
    | .ok (_, some path) =>
      -- The first node is left out if it is an AN.
      let path := match path.map T.kind with
        | .an :: _ => path.tail
        | _ => path
      .ok (paths.insert sel.string path, true)

def generateDefaultPath (walked : Walked T) (paths : GoMap String (List N)) :
    Except Fault (GoMap String (List N) × Bool) :=
  match selectMatchUPF T sel walked.upfs with
  | [] => .ok (paths, false)
  | dest :: _ => generateFrom T sel dest walked.accessNetwork paths

/-- The path returned, `none` for nil, and the paths kept in `DefaultUserPlanePath`. -/
def getDefaultUserPlanePathByDNN (walked : Walked T) (paths : GoMap String (List N)) :
    Except Fault (GoMap String (List N) × Option (List N)) :=
  match paths.lookup sel.string with
  | some path => .ok (paths, some path)
  | none =>
    match generateDefaultPath T sel walked paths with
    | .error e => .error e
    | .ok (paths, true) => .ok (paths, paths.lookup sel.string)
    | .ok (paths, false) => .ok (paths, none)

end

/-! ## The first candidate decides -/

section

variable {N : Type} {T : Topology N} {sel : UPFSelectionParams} {source m : N}

theorem mem_selectMatchUPF {upfs : List N} :
    m ∈ selectMatchUPF T sel upfs ↔ m ∈ upfs ∧ T.Matching sel m := by
  unfold selectMatchUPF
  rw [List.mem_flatMap]
  constructor
  · intro ⟨n, hn, hm⟩
    cases hk : T.kind n with
    | an =>
      rw [hk] at hm
      exact absurd hm List.not_mem_nil
    | upf upf =>
      rw [hk] at hm
      obtain ⟨info, hinfo, rfl⟩ := List.mem_map.mp hm
      obtain ⟨hmem, hoffers⟩ := List.mem_filter.mp hinfo
      exact ⟨hn, upf, hk, List.any_eq_true.mpr ⟨info, hmem, hoffers⟩⟩
  · intro ⟨hm, upf, hk, hoffers⟩
    obtain ⟨info, hmem, hinfo⟩ := List.any_eq_true.mp hoffers
    refine ⟨m, hm, ?_⟩
    rw [hk]
    exact List.mem_map.mpr ⟨info, List.mem_filter.mpr ⟨hmem, hinfo⟩, rfl⟩

theorem Walked.accessNetwork_eq (walked : Walked T) (hs : ∀ a, T.IsAN a ↔ a = source) :
    walked.accessNetwork = [source] := by
  refine List.perm_singleton.mp ((List.perm_ext_iff_of_nodup walked.nodup_accessNetwork
    (List.nodup_singleton _)).mpr ?_)
  intro a
  rw [walked.mem_accessNetwork, hs, List.mem_singleton]

theorem Topology.Matching.ne_source (hs : ∀ a, T.IsAN a ↔ a = source) (hm : T.Matching sel m) :
    m ≠ source :=
  fun h => hm.not_an ((hs m).mpr h)

/-- Without its AN the path found still ends in the destination. -/
theorem FoundPath.getLast?_tail {path : List N} (hm : m ≠ source)
    (h : FoundPath T sel ∅ source m path) : path.tail.getLast? = some m := by
  obtain ⟨rest, rfl⟩ : ∃ rest, path = source :: rest := List.head?_eq_some_iff.mp h.head
  match rest with
  | [] => exact absurd (Option.some.inj h.last).symm hm
  | x :: rest =>
    rw [← h.last, List.getLast?_cons_cons]
    rfl

variable [DecidableEq N] [Fintype N]

variable (T sel source) in
/-- What is asked of `GetDefaultUserPlanePathByDNN` on an empty cache. -/
def FindsDefaultPath (walked : Walked T) : Prop :=
  ∃ paths path, getDefaultUserPlanePathByDNN T sel walked ∅ = .ok (paths, path) ∧
    (path.isSome ↔ ∃ m, T.Matching sel m ∧ T.ReachesSlice sel source m) ∧
    ∀ found, path = some found →
      ∃ m, T.Matching sel m ∧ T.ReachesSlice sel source m ∧ found.getLast? = some m

/-- From the only AN `m` is found or cannot be reached. -/
theorem generateFrom_cases (sel : UPFSelectionParams) (hs : ∀ a, T.IsAN a ↔ a = source)
    (hm : m ≠ source) (paths : GoMap String (List N)) :
    (T.ReachesSlice sel source m ∧ ∃ path, path.getLast? = some m ∧
      generateFrom T sel m [source] paths = .ok (paths.insert sel.string path, true)) ∨
    ¬ T.ReachesSlice sel source m ∧ generateFrom T sel m [source] paths = .ok (paths, false) := by
  have hupf : ∀ v, v ≠ source → ¬ T.IsAN v := fun v hv ha => hv ((hs v).mp ha)
  rcases search_cases T sel m hupf (le_refl _) with ⟨visited, path, hr, hfound⟩ | ⟨visited, hr, hnot⟩
  · refine .inl ⟨hfound.reaches, path.tail, hfound.getLast?_tail hm, ?_⟩
    obtain ⟨rest, rfl⟩ : ∃ rest, path = source :: rest := List.head?_eq_some_iff.mp hfound.head
    have hk : T.kind source = .an := (hs source).mpr rfl
    simp only [generateFrom, hr, List.map_cons, hk]
  · refine .inr ⟨hnot, ?_⟩
    simp only [generateFrom, hr]

/-- Without a candidate nothing is found, as it should. -/
theorem findsDefaultPath_of_none (walked : Walked T)
    (hsel : selectMatchUPF T sel walked.upfs = []) : FindsDefaultPath T sel source walked := by
  have hnone : ¬ ∃ m, T.Matching sel m ∧ T.ReachesSlice sel source m := by
    intro ⟨m, hm, _⟩
    have hmem : m ∈ selectMatchUPF T sel walked.upfs :=
      mem_selectMatchUPF.mpr ⟨(walked.mem_upfs m).mpr hm.not_an, hm⟩
    rw [hsel] at hmem
    exact List.not_mem_nil hmem
  refine ⟨∅, none, ?_, ⟨fun h => absurd h Bool.false_ne_true, fun h => absurd h hnone⟩,
    fun found h => (Option.some_ne_none found h.symm).elim⟩
  simp only [getDefaultUserPlanePathByDNN, Finmap.lookup_empty, generateDefaultPath, hsel]

/-- The first candidate decides: the search is right if it can be reached or if no candidate can. -/
theorem findsDefaultPath_of_first (hs : ∀ a, T.IsAN a ↔ a = source) (walked : Walked T)
    {rest : List N} (hsel : selectMatchUPF T sel walked.upfs = m :: rest) :
    FindsDefaultPath T sel source walked ↔
      (T.ReachesSlice sel source m ∨ ∀ x, T.Matching sel x → ¬ T.ReachesSlice sel source x) := by
  have hm : T.Matching sel m := by
    have hmem : m ∈ selectMatchUPF T sel walked.upfs := by rw [hsel]; exact List.mem_cons_self
    exact (mem_selectMatchUPF.mp hmem).2
  have hgen : generateDefaultPath T sel walked ∅ = generateFrom T sel m [source] ∅ := by
    rw [generateDefaultPath, hsel, walked.accessNetwork_eq hs]
  rcases generateFrom_cases sel hs (hm.ne_source hs) ∅ with ⟨hreach, path, hlast, hrun⟩ | ⟨hnot, hrun⟩
  · have hget : getDefaultUserPlanePathByDNN T sel walked ∅ =
        .ok ((∅ : GoMap String (List N)).insert sel.string path, some path) := by
      simp only [getDefaultUserPlanePathByDNN, Finmap.lookup_empty, hgen, hrun, Finmap.lookup_insert]
    refine ⟨fun _ => .inl hreach, fun _ => ⟨_, some path, hget, ⟨fun _ => ⟨m, hm, hreach⟩,
      fun _ => rfl⟩, ?_⟩⟩
    intro found h
    exact ⟨m, hm, hreach, Option.some.inj h ▸ hlast⟩
  · have hget : getDefaultUserPlanePathByDNN T sel walked ∅ = .ok (∅, none) := by
      simp only [getDefaultUserPlanePathByDNN, Finmap.lookup_empty, hgen, hrun]
    constructor
    · intro ⟨paths, path, hrun', hiff, _⟩
      rw [hget] at hrun'
      obtain ⟨-, rfl⟩ := Prod.mk.inj (Except.ok.inj hrun')
      exact .inr fun x hx hr => Bool.false_ne_true (hiff.mpr ⟨x, hx, hr⟩)
    · intro h
      have hnone := h.resolve_left hnot
      exact ⟨∅, none, hget, ⟨fun h => absurd h Bool.false_ne_true, fun ⟨x, hx, hr⟩ =>
        absurd hr (hnone x hx)⟩, fun found h => (Option.some_ne_none found h.symm).elim⟩

/-- Any candidate may come first. -/
theorem exists_walked_first (hs : ∀ a, T.IsAN a ↔ a = source) (hm : T.Matching sel m) :
    ∃ walked : Walked T, ∃ rest, selectMatchUPF T sel walked.upfs = m :: rest := by
  let others := (Finset.univ.filter fun n => n ≠ source ∧ n ≠ m).toList
  have hothers : ∀ n, n ∈ others ↔ n ≠ source ∧ n ≠ m := fun n => by simp [others]
  let walked : Walked T :=
    { upfs := m :: others
      accessNetwork := [source]
      mem_upfs := by
        intro n
        rw [List.mem_cons, hothers, hs]
        have := hm.ne_source hs
        grind
      mem_accessNetwork := by
        intro n
        rw [List.mem_singleton, hs]
      nodup_upfs := List.nodup_cons.mpr ⟨fun h => ((hothers m).mp h).2 rfl, Finset.nodup_toList _⟩
      nodup_accessNetwork := List.nodup_singleton _ }
  obtain ⟨upf, hk, hoffers⟩ := hm
  obtain ⟨info, hinfo, ho⟩ := List.any_eq_true.mp hoffers
  have hne : upf.sNssaiInfos.filter (SnssaiUPFInfo.offers sel) ≠ [] :=
    List.ne_nil_of_mem (List.mem_filter.mpr ⟨hinfo, ho⟩)
  obtain ⟨first, rest, hfirst⟩ := List.exists_cons_of_ne_nil hne
  refine ⟨walked, rest.map (fun _ => m) ++ selectMatchUPF T sel others, ?_⟩
  simp only [walked, selectMatchUPF, List.flatMap_cons, hk, hfirst, List.map_cons, List.cons_append]

/-- A default path is found whenever there is one, in whatever order the maps are walked, exactly if
    all matching UPFs can be reached from the access network or none can. -/
theorem findsDefaultPath_iff (T : Topology N) (sel : UPFSelectionParams) (source : N)
    (hs : ∀ a, T.IsAN a ↔ a = source) :
    (∀ walked : Walked T, FindsDefaultPath T sel source walked) ↔
      (∀ m, T.Matching sel m → T.ReachesSlice sel source m) ∨
        ∀ m, T.Matching sel m → ¬ T.ReachesSlice sel source m := by
  constructor
  · intro h
    by_cases hnone : ∀ m, T.Matching sel m → ¬ T.ReachesSlice sel source m
    · exact .inr hnone
    · refine .inl fun m hm => ?_
      obtain ⟨walked, rest, hsel⟩ := exists_walked_first hs hm
      exact ((findsDefaultPath_of_first hs walked hsel).mp (h walked)).resolve_right hnone
  · intro h walked
    match hsel : selectMatchUPF T sel walked.upfs with
    | [] => exact findsDefaultPath_of_none walked hsel
    | m :: rest =>
      refine (findsDefaultPath_of_first hs walked hsel).mpr (h.imp_left fun hall => hall m ?_)
      have hmem : m ∈ selectMatchUPF T sel walked.upfs := by rw [hsel]; exact List.mem_cons_self
      exact (mem_selectMatchUPF.mp hmem).2

end

/-- A UPF that offers the DNN `internet` in slice 1. -/
def internetUPF : UPF := ⟨[⟨⟨1, []⟩, [⟨"internet", []⟩]⟩]⟩

/-- The AN 0 is linked to the UPF 1; the UPF 2 has no link. -/
def stray : Topology (Fin 3) :=
  .ofLinks ![.an, .upf internetUPF, .upf internetUPF] ![[1], [0], []]

theorem isAN_stray : ∀ a, stray.IsAN a ↔ a = 0
  | 0 => ⟨fun _ => rfl, fun _ => rfl⟩
  | 1 => ⟨fun h => UPNodeKind.noConfusion h, fun h => absurd h (by decide)⟩
  | 2 => ⟨fun h => UPNodeKind.noConfusion h, fun h => absurd h (by decide)⟩

theorem mem_stray_upfs : ∀ n, n ∈ [(2 : Fin 3), 1] ↔ ¬ stray.IsAN n := by
  intro n
  rw [isAN_stray]
  revert n
  decide

def strayWalked : Walked stray where
  upfs := [2, 1]
  accessNetwork := [0]
  mem_upfs := mem_stray_upfs
  mem_accessNetwork _ := List.mem_singleton.trans (isAN_stray _).symm
  nodup_upfs := by decide
  nodup_accessNetwork := by decide

/-- The UPF without a link comes first, and no path is found to the other. -/
theorem stray_not_found :
    (∀ a, stray.IsAN a ↔ a = 0) ∧
      getDefaultUserPlanePathByDNN stray sliceOne strayWalked ∅ = .ok (∅, none) ∧
      stray.Matching sliceOne 1 ∧ stray.ReachesSlice sliceOne 0 1 := by
  refine ⟨isAN_stray, rfl, ?_, ?_⟩
  · exact ⟨internetUPF, rfl, rfl⟩
  · exact .single ⟨by decide, internetUPF, rfl, rfl⟩

theorem findsDefaultPath_iff_stray :
    (∀ a, stray.IsAN a ↔ a = 0) ∧
    ((∀ walked : Walked stray, FindsDefaultPath stray sliceOne 0 walked) ↔
      (∀ m, stray.Matching sliceOne m → stray.ReachesSlice sliceOne 0 m) ∨
        ∀ m, stray.Matching sliceOne m → ¬ stray.ReachesSlice sliceOne 0 m) :=
  ⟨isAN_stray, findsDefaultPath_iff stray sliceOne 0 isAN_stray⟩

end Free5gc.Smf.Upi
