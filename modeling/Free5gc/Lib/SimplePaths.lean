/-
  The simple paths of a directed graph, enumerated by back-tracking. `pathsFrom` lists the paths to
  `dest` that avoid the nodes of `seen`; its depth is bounded by fuel. With fuel for every path the
  list holds exactly the simple paths (`mem_pathsFrom`), each once (`nodup_pathsFrom`). A simple path
  exists where the end can be reached (`exists_simplePath_iff`). Nothing in this file names the
  repository.
-/
import Mathlib.Data.Finset.Insert
import Mathlib.Data.List.Chain
import Mathlib.Data.List.Nodup
import Mathlib.Logic.Relation

namespace Free5gc.Lib

variable {V : Type} (next : V → List V)

/-- A path from `src` to `dest` without repetition. -/
structure SimplePath (src dest : V) (path : List V) : Prop where
  head : path.head? = some src
  last : path.getLast? = some dest
  follows : path.IsChain fun u v => v ∈ next u
  nodup : path.Nodup

variable {next} {src dest u v w : V} {path : List V} {fuel : Nat}

theorem SimplePath.eq_cons (h : SimplePath next src dest path) : ∃ rest, path = src :: rest :=
  List.head?_eq_some_iff.mp h.head

theorem simplePath_singleton : SimplePath next dest dest [dest] :=
  ⟨rfl, rfl, .singleton _, List.nodup_singleton _⟩

theorem SimplePath.cons (h : SimplePath next v dest path) (hv : v ∈ next u) (hu : u ∉ path) :
    SimplePath next u dest (u :: path) := by
  obtain ⟨rest, rfl⟩ := h.eq_cons
  refine ⟨rfl, ?_, h.follows.cons_cons hv, List.nodup_cons.mpr ⟨hu, h.nodup⟩⟩
  rw [List.getLast?_cons_cons]
  exact h.last

/-- The part of a path behind its first node. -/
theorem SimplePath.behind {rest : List V} (h : SimplePath next u dest (u :: v :: rest)) :
    v ∈ next u ∧ u ≠ dest ∧ u ∉ v :: rest ∧ SimplePath next v dest (v :: rest) := by
  obtain ⟨hu, hnodup⟩ := List.nodup_cons.mp h.nodup
  have hlast : (v :: rest).getLast? = some dest := by rw [← h.last, List.getLast?_cons_cons]
  refine ⟨(List.isChain_cons_cons.mp h.follows).1, ?_, hu, rfl, hlast, h.follows.tail, hnodup⟩
  intro hud
  exact hu (hud ▸ List.mem_of_getLast? hlast)

theorem SimplePath.reaches (h : SimplePath next src dest path) :
    Relation.ReflTransGen (fun u v => v ∈ next u) src dest := by
  obtain ⟨rest, rfl⟩ := h.eq_cons
  induction rest generalizing src with
  | nil =>
    obtain rfl : src = dest := Option.some.inj h.last
    exact .refl
  | cons v rest ih =>
    obtain ⟨hv, -, -, hrest⟩ := h.behind
    exact .head hv (ih hrest)

/-- Behind its first node a path has successors only. -/
theorem SimplePath.mem_next (h : SimplePath next src dest path) {x : V} (hx : x ∈ path.tail) :
    ∃ u, x ∈ next u := by
  obtain ⟨rest, rfl⟩ := h.eq_cons
  induction rest generalizing src with
  | nil => exact absurd hx List.not_mem_nil
  | cons v rest ih =>
    obtain ⟨hv, -, -, hrest⟩ := h.behind
    rcases List.mem_cons.mp hx with rfl | hx
    · exact ⟨src, hv⟩
    · exact ih hrest hx

variable [DecidableEq V]

/-- A path from a node of a simple path on. -/
theorem SimplePath.from_mem (h : SimplePath next src dest path) (hu : u ∈ path) :
    ∃ rest, SimplePath next u dest rest ∧ ∀ x ∈ rest, x ∈ path := by
  obtain ⟨tail, rfl⟩ := h.eq_cons
  induction tail generalizing src with
  | nil =>
    rw [List.mem_singleton.mp hu]
    exact ⟨_, h, fun x hx => hx⟩
  | cons v tail ih =>
    by_cases hus : u = src
    · exact ⟨_, hus ▸ h, fun x hx => hx⟩
    · obtain ⟨rest, hrest, hsub⟩ := ih h.behind.2.2.2 ((List.mem_cons.mp hu).resolve_left hus)
      exact ⟨rest, hrest, fun x hx => List.mem_cons_of_mem _ (hsub x hx)⟩

/-- What can be reached has a simple path. -/
theorem exists_simplePath_iff :
    (∃ path, SimplePath next src dest path) ↔
      Relation.ReflTransGen (fun u v => v ∈ next u) src dest := by
  constructor
  · exact fun ⟨_, h⟩ => h.reaches
  · intro h
    induction h using Relation.ReflTransGen.head_induction_on with
    | refl => exact ⟨_, simplePath_singleton⟩
    | @head u v hv _ ih =>
      obtain ⟨path, hpath⟩ := ih
      by_cases hu : u ∈ path
      · obtain ⟨rest, hrest, -⟩ := hpath.from_mem hu
        exact ⟨rest, hrest⟩
      · exact ⟨_, hpath.cons hv hu⟩

/-! ## The enumeration -/

variable (next dest) in
def pathsFrom : Nat → Finset V → V → List (List V)
  | 0, _, _ => []
  | fuel + 1, seen, u =>
    if u ∈ seen then []
    else if u = dest then [[u]]
    else (next u).flatMap fun v => (pathsFrom fuel (insert u seen) v).map (u :: ·)

variable {seen : Finset V}

/-- What is listed is a simple path that avoids `seen`. -/
theorem simplePath_of_mem (h : path ∈ pathsFrom next dest fuel seen u) :
    SimplePath next u dest path ∧ ∀ x ∈ path, x ∉ seen := by
  induction fuel generalizing seen u path with
  | zero => exact absurd h List.not_mem_nil
  | succ fuel ih =>
    rw [pathsFrom] at h
    split_ifs at h with hseen hdest
    · exact absurd h List.not_mem_nil
    · rw [List.mem_singleton.mp h, hdest]
      refine ⟨simplePath_singleton, fun x hx => ?_⟩
      rwa [List.mem_singleton.mp hx, ← hdest]
    · obtain ⟨v, hv, hmem⟩ := List.mem_flatMap.mp h
      obtain ⟨rest, hrest, rfl⟩ := List.mem_map.mp hmem
      obtain ⟨hpath, hout⟩ := ih hrest
      refine ⟨hpath.cons hv fun hu => hout u hu (Finset.mem_insert_self _ _), fun x hx => ?_⟩
      rcases List.mem_cons.mp hx with rfl | hx
      · exact hseen
      · exact fun hs => hout x hx (Finset.mem_insert_of_mem hs)

/-- A simple path that avoids `seen` is listed if the fuel is as long as it is. -/
theorem mem_pathsFrom_of_simplePath (hlen : path.length ≤ fuel) (h : SimplePath next u dest path)
    (hout : ∀ x ∈ path, x ∉ seen) : path ∈ pathsFrom next dest fuel seen u := by
  obtain ⟨rest, rfl⟩ := h.eq_cons
  induction rest generalizing u seen fuel with
  | nil =>
    obtain ⟨k, rfl⟩ : ∃ k, fuel = k + 1 := ⟨fuel - 1, by simp at hlen; omega⟩
    obtain rfl : u = dest := Option.some.inj h.last
    rw [pathsFrom, if_neg (hout u List.mem_cons_self), if_pos rfl]
    exact List.mem_cons_self
  | cons v rest ih =>
    obtain ⟨k, rfl⟩ : ∃ k, fuel = k + 1 := ⟨fuel - 1, by simp at hlen; omega⟩
    obtain ⟨hv, hne, hu, hrest⟩ := h.behind
    rw [pathsFrom, if_neg (hout u List.mem_cons_self), if_neg hne]
    refine List.mem_flatMap.mpr ⟨v, hv, List.mem_map.mpr ⟨v :: rest, ih ?_ hrest ?_, rfl⟩⟩
    · simpa using hlen
    · intro x hx hs
      rcases Finset.mem_insert.mp hs with rfl | hs
      · exact hu hx
      · exact hout x (List.mem_cons_of_mem _ hx) hs

/-- No path is listed twice. -/
theorem nodup_pathsFrom (hnext : ∀ u, (next u).Nodup) :
    (pathsFrom next dest fuel seen u).Nodup := by
  induction fuel generalizing seen u with
  | zero => exact List.nodup_nil
  | succ fuel ih =>
    rw [pathsFrom]
    split_ifs with hseen hdest
    · exact List.nodup_nil
    · exact List.nodup_singleton _
    · refine List.nodup_flatMap.mpr ⟨fun v _ => ih.map (List.cons_injective), ?_⟩
      -- Paths over different successors differ in their second node.
      refine (hnext u).imp fun {v w} hvw => ?_
      intro path hv hw
      obtain ⟨p, hp, rfl⟩ := List.mem_map.mp hv
      obtain ⟨q, hq, hqp⟩ := List.mem_map.mp hw
      obtain rfl : q = p := (List.cons.inj hqp).2
      have hhead := (simplePath_of_mem hp).1.head
      rw [(simplePath_of_mem hq).1.head] at hhead
      exact hvw (Option.some.inj hhead).symm

end Free5gc.Lib
