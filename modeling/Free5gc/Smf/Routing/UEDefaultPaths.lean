/-
  The paths between two nodes of a UE routing topology (`getAllPathByNodeName` of
  `internal/context/ue_defaultPath.go`): a back-tracking search along the links from A to B, which
  shares one visited map and numbers the paths it finds.

  The recursion takes fuel, and `none` is a search that runs out of it. Slices are values: a path is
  copied when it is found, and a call writes only behind the part it was given.
-/
import Free5gc.Lib.GoMap
import Free5gc.Lib.SimplePaths
import Mathlib.Data.Finset.Card

namespace Free5gc.Smf.Routing

open Free5gc.Lib

/-- `factory.UPLink` -/
structure UPLink where
  a : String
  b : String
  deriving DecidableEq

/-- The nodes that `u` has a link to, from A to B. -/
def linked (links : List UPLink) (u : String) : List String :=
  (links.filter fun l => l.a = u).map UPLink.b

/-- The variables that the calls of `findPath` share. -/
structure Finding where
  visited : Finset String
  allPaths : GoMap Nat (List String)
  count : Nat

/-- `findPath` -/
def findPath (links : List UPLink) (dest : String) :
    Nat → String → List String → Finding → Option Finding
  | 0, _, _, _ => none
  | fuel + 1, src, currentPath, f =>
    if src ∈ f.visited then some f
    else
      let f := { f with visited := insert src f.visited }
      let currentPath := currentPath ++ [src]
      if src = dest then
        some
          { visited := f.visited.erase src
            allPaths := f.allPaths.insert f.count (currentPath.drop 1)
            count := f.count + 1 }
      else
        (links.foldlM
          (fun f link =>
            if link.a = src then findPath links dest fuel link.b currentPath f else some f) f).map
          fun f => { f with visited := f.visited.erase src }

/-- `getAllPathByNodeName`; a call goes as deep as there are B ends, the source, and a node met
    again. -/
def getAllPathByNodeName (src dest : String) (links : List UPLink) :
    Option (GoMap Nat (List String) × Nat) :=
  (findPath links dest (links.length + 2) src [] ⟨∅, ∅, 0⟩).map fun f => (f.allPaths, f.count)

/-! ## The search lists the simple paths -/

/-- The paths `ps` are numbered on from `count`. -/
def Finding.add (f : Finding) : List (List String) → Finding
  | [] => f
  | p :: ps => Finding.add { f with allPaths := f.allPaths.insert f.count p, count := f.count + 1 } ps

variable {links : List UPLink} {src dest : String} {currentPath : List String} {f : Finding}
  {fuel : Nat}

theorem Finding.add_append (ps qs : List (List String)) : f.add (ps ++ qs) = (f.add ps).add qs := by
  induction ps generalizing f with
  | nil => rfl
  | cons p ps ih => exact ih

@[simp]
theorem Finding.visited_add (ps : List (List String)) : (f.add ps).visited = f.visited := by
  induction ps generalizing f with
  | nil => rfl
  | cons p ps ih => exact ih

theorem Finding.add_visited (ps : List (List String)) (s : Finset String) :
    { f.add ps with visited := s } = Finding.add { f with visited := s } ps := by
  induction ps generalizing f with
  | nil => rfl
  | cons p ps ih => exact ih

theorem Finding.count_add (ps : List (List String)) : (f.add ps).count = f.count + ps.length := by
  induction ps generalizing f with
  | nil => rfl
  | cons p ps ih =>
    rw [Finding.add, ih, List.length_cons]
    simp only
    omega

/-- The number that is looked up decides between the paths there before and those added. -/
theorem Finding.lookup_add (ps : List (List String)) (i : Nat) :
    (f.add ps).allPaths.lookup i =
      if f.count ≤ i ∧ i < f.count + ps.length then ps[i - f.count]? else f.allPaths.lookup i := by
  induction ps generalizing f with
  | nil =>
    rw [if_neg (by simp)]
    rfl
  | cons p ps ih =>
    rw [Finding.add, ih, GoMap.lookup_insert_eq]
    simp only [List.length_cons]
    by_cases hi : i = f.count
    · subst hi
      rw [if_neg (by omega), if_pos rfl, if_pos (by omega), Nat.sub_self, List.getElem?_cons_zero]
    · by_cases hlt : f.count < i ∧ i < f.count + (ps.length + 1)
      · obtain ⟨k, hk⟩ : ∃ k, i - f.count = k + 1 := ⟨i - f.count - 1, by omega⟩
        rw [if_pos (by omega), if_pos (by omega), hk, List.getElem?_cons_succ]
        congr 1
        omega
      · rw [if_neg (by omega), if_neg hi, if_neg (by omega)]

theorem linked_cons (link : UPLink) (links : List UPLink) (u : String) :
    linked (link :: links) u = if link.a = u then link.b :: linked links u else linked links u := by
  unfold linked
  split_ifs with h <;> simp [h]

/-- The loop over the links calls for the linked nodes in order. -/
theorem foldlM_linked {call : String → Finding → Option Finding}
    {paths : String → List (List String)} {s : Finset String}
    (hcall : ∀ v ∈ linked links src, ∀ f : Finding, f.visited = s →
      call v f = some (f.add (paths v)))
    (hf : f.visited = s) :
    links.foldlM (fun f link => if link.a = src then call link.b f else some f) f =
      some (f.add ((linked links src).flatMap paths)) := by
  induction links generalizing f with
  | nil => rfl
  | cons link links ih =>
    rw [List.foldlM_cons]
    by_cases ha : link.a = src
    · rw [linked_cons, if_pos ha] at hcall ⊢
      rw [if_pos ha, hcall link.b List.mem_cons_self f hf, Option.bind_eq_bind, Option.bind_some,
        ih (fun v hv => hcall v (List.mem_cons_of_mem _ hv)) (by rw [Finding.visited_add, hf]),
        List.flatMap_cons, Finding.add_append]
    · rw [linked_cons, if_neg ha] at hcall ⊢
      rw [if_neg ha, Option.bind_eq_bind, Option.bind_some, ih hcall hf]

/-- A call appends the simple paths from `src` that avoid the visited nodes, each behind the current
    path, and leaves the visited nodes as they were. -/
theorem findPath_eq {nodes : Finset String} (hb : ∀ l ∈ links, l.b ∈ nodes) (hsrc : src ∈ nodes)
    (hfuel : (nodes \ f.visited).card < fuel) :
    findPath links dest fuel src currentPath f =
      some (f.add ((pathsFrom (linked links) dest fuel f.visited src).map
        fun p => (currentPath ++ p).drop 1)) := by
  induction fuel generalizing src currentPath f with
  | zero => exact absurd hfuel (Nat.not_lt_zero _)
  | succ fuel ih =>
    rw [findPath, pathsFrom]
    split_ifs with hvis hdest
    · rfl
    · dsimp only
      rw [List.map_singleton, Finset.erase_insert hvis]
      rfl
    · have hcard : (nodes \ insert src f.visited).card < fuel := by
        rw [Finset.sdiff_insert]
        have := Finset.card_erase_lt_of_mem (Finset.mem_sdiff.mpr ⟨hsrc, hvis⟩)
        omega
      have hcall : ∀ v ∈ linked links src, ∀ g : Finding, g.visited = insert src f.visited →
          findPath links dest fuel v (currentPath ++ [src]) g =
            some (g.add ((pathsFrom (linked links) dest fuel (insert src f.visited) v).map
              fun p => (currentPath ++ [src] ++ p).drop 1)) := by
        intro v hv g hg
        obtain ⟨l, hl, rfl⟩ := List.mem_map.mp hv
        rw [ih (hb l (List.mem_filter.mp hl).1) (by rwa [hg]), hg]
      dsimp only
      rw [foldlM_linked hcall rfl, Option.map_some, Finding.visited_add, Finding.add_visited,
        Finset.erase_insert hvis, List.map_flatMap]
      simp only [List.map_map, Function.comp_def, List.append_assoc, List.singleton_append]

/-- The number of nodes that a search can meet. -/
theorem card_nodes_lt (links : List UPLink) (src : String) :
    (insert src (links.map UPLink.b).toFinset \ ∅).card < links.length + 2 := by
  rw [Finset.sdiff_empty]
  have hcard := Finset.card_insert_le src (links.map UPLink.b).toFinset
  have hlen := List.toFinset_card_le (links.map UPLink.b)
  rw [List.length_map] at hlen
  omega

/-- The paths from `src` to `dest` without their first node, in the order in which they are found. -/
def pathsBehind (src dest : String) (links : List UPLink) : List (List String) :=
  (pathsFrom (linked links) dest (links.length + 2) ∅ src).map (List.drop 1)

theorem getAllPathByNodeName_eq (src dest : String) (links : List UPLink) :
    getAllPathByNodeName src dest links =
      some ((Finding.add ⟨∅, ∅, 0⟩ (pathsBehind src dest links)).allPaths,
        (pathsBehind src dest links).length) := by
  have hb : ∀ l ∈ links, l.b ∈ insert src (links.map UPLink.b).toFinset := by
    intro l hl
    exact Finset.mem_insert_of_mem (List.mem_toFinset.mpr (List.mem_map_of_mem hl))
  rw [getAllPathByNodeName, findPath_eq hb (Finset.mem_insert_self _ _) (card_nodes_lt links src),
    Option.map_some, Finding.count_add, Nat.zero_add]
  rfl

theorem getAllPathByNodeName_lookup (src dest : String) (links : List UPLink) :
    ∃ allPaths, getAllPathByNodeName src dest links =
        some (allPaths, (pathsBehind src dest links).length) ∧
      ∀ i, allPaths.lookup i = (pathsBehind src dest links)[i]? := by
  refine ⟨_, getAllPathByNodeName_eq src dest links, fun i => ?_⟩
  rw [Finding.lookup_add, Finmap.lookup_empty]
  simp only [Nat.zero_le, true_and, Nat.zero_add, Nat.sub_zero]
  split_ifs with hi
  · rfl
  · exact (List.getElem?_eq_none (by omega)).symm

theorem nodup_linked (h : links.Nodup) (u : String) : (linked links u).Nodup := by
  refine List.Nodup.map_on ?_ (h.filter _)
  intro l hl m hm hb
  have hla := of_decide_eq_true (List.mem_filter.mp hl).2
  have hma := of_decide_eq_true (List.mem_filter.mp hm).2
  cases l
  cases m
  simp_all

/-- A simple path is no longer than the links allow. -/
theorem length_simplePath {path : List String} (h : SimplePath (linked links) src dest path) :
    path.length ≤ links.length + 2 := by
  have hsub : path.tail ⊆ links.map UPLink.b := by
    intro x hx
    obtain ⟨u, hu⟩ := h.mem_next hx
    obtain ⟨l, hl, rfl⟩ := List.mem_map.mp hu
    exact List.mem_map_of_mem (List.mem_filter.mp hl).1
  have hle := (List.subperm_of_subset h.nodup.tail hsub).length_le
  rw [List.length_tail, List.length_map] at hle
  omega

theorem mem_pathsBehind {q : List String} :
    q ∈ pathsBehind src dest links ↔
      ∃ path, SimplePath (linked links) src dest path ∧ q = path.tail := by
  unfold pathsBehind
  rw [List.mem_map]
  constructor
  · intro ⟨path, hmem, hq⟩
    exact ⟨path, (simplePath_of_mem hmem).1, by rw [← hq, List.drop_one]⟩
  · intro ⟨path, hpath, hq⟩
    refine ⟨path, mem_pathsFrom_of_simplePath (length_simplePath hpath) hpath ?_, ?_⟩
    · exact fun x _ => Finset.notMem_empty x
    · rw [hq, List.drop_one]

theorem nodup_pathsBehind (h : links.Nodup) (src dest : String) :
    (pathsBehind src dest links).Nodup := by
  refine List.Nodup.map_on ?_ (nodup_pathsFrom (nodup_linked h))
  intro p hp q hq hpq
  -- Both paths begin with `src`, so they are one where the rest is one.
  obtain ⟨p', rfl⟩ := (simplePath_of_mem hp).1.eq_cons
  obtain ⟨q', rfl⟩ := (simplePath_of_mem hq).1.eq_cons
  exact congrArg (src :: ·) hpq

/-- The search ends, and numbers the simple paths from `src` to `dest`, without `src`, each by one
    number below `count`. -/
theorem getAllPathByNodeName_exact (src dest : String) (links : List UPLink)
    (hnodup : links.Nodup) :
    ∃ allPaths count, getAllPathByNodeName src dest links = some (allPaths, count) ∧
      (∀ i, i ∈ allPaths ↔ i < count) ∧
      (∀ i q, allPaths.lookup i = some q →
        ∃ path, SimplePath (linked links) src dest path ∧ q = path.tail) ∧
      ∀ path, SimplePath (linked links) src dest path → ∃! i, allPaths.lookup i = some path.tail := by
  obtain ⟨allPaths, hrun, hlookup⟩ := getAllPathByNodeName_lookup src dest links
  refine ⟨allPaths, _, hrun, fun i => ?_, fun i q hq => ?_, fun path hpath => ?_⟩
  · rw [← Finmap.lookup_isSome, hlookup, isSome_getElem?]
  · rw [hlookup] at hq
    exact mem_pathsBehind.mp (List.mem_of_getElem? hq)
  · obtain ⟨i, hi⟩ := List.mem_iff_getElem?.mp (mem_pathsBehind.mpr ⟨path, hpath, rfl⟩)
    refine ⟨i, (hlookup i).trans hi, fun j hj => ?_⟩
    have hlen : i < (pathsBehind src dest links).length := (List.getElem?_eq_some_iff.mp hi).1
    have hji : (pathsBehind src dest links)[i]? = (pathsBehind src dest links)[j]? :=
      hi.trans (hj.symm.trans (hlookup j))
    exact ((List.getElem?_inj hlen (nodup_pathsBehind hnodup src dest)).mp hji).symm

/-- A link to itself and a cycle: the two simple paths to `D` are numbered 0 and 1. -/
theorem getAllPathByNodeName_exact_cycle :
    let links : List UPLink :=
      [⟨"A", "A"⟩, ⟨"A", "B"⟩, ⟨"B", "C"⟩, ⟨"C", "A"⟩, ⟨"B", "D"⟩, ⟨"C", "D"⟩]
    links.Nodup ∧ ∃ allPaths count, getAllPathByNodeName "A" "D" links = some (allPaths, count) ∧
      (∀ i, i ∈ allPaths ↔ i < count) ∧
      (∀ i q, allPaths.lookup i = some q →
        ∃ path, SimplePath (linked links) "A" "D" path ∧ q = path.tail) ∧
      ∀ path, SimplePath (linked links) "A" "D" path → ∃! i, allPaths.lookup i = some path.tail :=
  ⟨by decide, getAllPathByNodeName_exact _ _ _ (by decide)⟩

end Free5gc.Smf.Routing
