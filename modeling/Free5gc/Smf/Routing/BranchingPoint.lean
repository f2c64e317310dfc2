/-
  The uplink classifier (`FindULCL` of `internal/context/bp_manager.go`): the path that is being
  activated is compared with every activated path node by node, and the UPF met deepest becomes the
  ULCL.

  UPFs are pointers, of any type `P`; two of them are compared by their node ids, and are keys of
  `UpdatedBranchingPoint` themselves. A path is the list of the UPFs of its nodes. The loop is bounded
  by the activating path only: behind the end of an activated path it dereferences nil.
  `findsLastCommon_iff` says when the ULCL is the last UPF of the longest common part.
-/
import Free5gc.Lib.Fallible
import Free5gc.Lib.GoMap
import Free5gc.Lib.Run
import Mathlib.Data.List.Basic

namespace Free5gc.Smf.Routing

open Free5gc.Lib

/-- A node behind the end of a path is dereferenced. -/
inductive NilNode where
  | nilNode

variable {P I : Type} [DecidableEq P] [DecidableEq I] (nodeID : P → I)

structure BPManager (P : Type) where
  activatedPaths : List (List P)
  activatingPath : List P
  updatedBranchingPoint : GoMap P Nat
  ulcl : Option P

/-- The loop over the activating path, beside the activated path `psa1`. -/
def walkPaths : List P → List P → Nat → GoMap P Nat → Except NilNode (GoMap P Nat)
  | [], _, _, points => .ok points
  | _ :: _, [], _, _ => .error .nilNode
  | upf :: psa2, upf1 :: psa1, depth, points =>
    if nodeID upf = nodeID upf1 then
      walkPaths psa2 psa1 (depth + 1)
        (if upf ∈ points then points else points.insert upf (depth + 1))
    else .ok points

/-- The loop over `UpdatedBranchingPoint`, to the ULCL and `maxDepth`. -/
def deepest (points : GoMap P Nat) (ulcl : Option P) (upfs : List P) : Option P × Nat :=
  upfs.foldl (fun best upf =>
    let depth := (points.lookup upf).getD 0
    if best.2 < depth then (some upf, depth) else best) (ulcl, 0)

def findULCL (order : RangeOrder P) (bp : BPManager P) : Except NilNode (BPManager P) :=
  (bp.activatedPaths.foldlM (fun points psa1 => walkPaths nodeID bp.activatingPath psa1 0 points)
    (∅ : GoMap P Nat)).map fun points =>
      { bp with
        updatedBranchingPoint := points
        ulcl := (deepest points bp.ulcl (order.keys 0 points.keys)).1 }

/-! ## The depths -/

/-- The number of nodes that two paths have in common at their front. -/
def commonLength : List P → List P → Nat
  | [], _ => 0
  | _ :: _, [] => 0
  | upf :: psa2, upf1 :: psa1 => if nodeID upf = nodeID upf1 then commonLength psa2 psa1 + 1 else 0

/-- The front that the activating path has in common with some activated path. -/
def longestCommon (bp : BPManager P) : Nat :=
  (bp.activatedPaths.map (commonLength nodeID bp.activatingPath)).foldl max 0

/-- An activated path ends where the activating one goes on in the same way. -/
def RunsOut (path psa1 : List P) : Prop :=
  psa1.length < path.length ∧ commonLength nodeID path psa1 = psa1.length

variable {nodeID} {path psa1 : List P} {points : GoMap P Nat} {k : Nat}

/-- `points` holds the UPFs of the first `k` nodes of the path, each with the depth at which it is
    first met. -/
def Depths (path : List P) (k : Nat) (points : GoMap P Nat) : Prop :=
  ∀ upf, points.lookup upf = if path.idxOf upf < k then some (path.idxOf upf + 1) else none

theorem Depths.mem (h : Depths path k points) {upf : P} : upf ∈ points ↔ path.idxOf upf < k := by
  rw [← Finmap.lookup_isSome, h]
  split_ifs with hlt
  · exact ⟨fun _ => hlt, fun _ => rfl⟩
  · exact ⟨fun hn => absurd hn Bool.false_ne_true, fun hn => absurd hn hlt⟩

theorem idxOf_le_of_getElem? {i : Nat} {upf : P} (h : path[i]? = some upf) :
    path.idxOf upf ≤ i := by
  induction path generalizing i with
  | nil => exact absurd h (by simp)
  | cons x path ih =>
    by_cases hx : x = upf
    · rw [List.idxOf_cons_eq _ hx]
      exact Nat.zero_le i
    · rw [List.idxOf_cons_ne _ hx]
      match i with
      | 0 => exact absurd (Option.some.inj h) hx
      | i + 1 => exact Nat.succ_le_succ (ih h)

theorem getElem?_idxOf {upf : P} (h : path.idxOf upf < path.length) :
    path[path.idxOf upf]? = some upf := by
  rw [List.getElem?_eq_getElem h, List.getElem_idxOf]

/-- One more node is compared, which may stand within the first `k`. -/
theorem Depths.step (h : Depths path k points) {i : Nat} {upf : P} (hi : path[i]? = some upf)
    (hik : i ≤ k) :
    Depths path (max k (i + 1)) (if upf ∈ points then points else points.insert upf (i + 1)) := by
  have hle := idxOf_le_of_getElem? hi
  have hlen : i < path.length := (List.getElem?_eq_some_iff.mp hi).1
  -- A UPF first met at `i` is the one at `i`.
  have hat : ∀ x, path.idxOf x = i → x = upf := by
    intro x hx
    have hget : path[path.idxOf x]? = some x := getElem?_idxOf (hx.trans_lt hlen)
    rw [hx, hi] at hget
    exact (Option.some.inj hget).symm
  intro x
  split_ifs with hmem hlt hlt
  · rw [h]
    by_cases hx : path.idxOf x = i
    · have hk : path.idxOf x < k := h.mem.mp (hat x hx ▸ hmem)
      rw [if_pos hk]
    · rw [if_pos (by omega)]
  · rw [h, if_neg (by omega)]
  · rw [GoMap.lookup_insert_eq, h]
    have hnot : ¬ path.idxOf upf < k := fun hn => hmem (h.mem.mpr hn)
    split_ifs with hx hk
    · rw [hx]
      congr 1
      omega
    · rfl
    · exact absurd (hat x (by omega)) hx
  · rw [GoMap.lookup_insert_eq, h]
    have hne : x ≠ upf := by
      intro hx
      rw [hx] at hlt
      omega
    rw [if_neg hne, if_neg (by omega)]

/-- What the loop over the activating path does from its node `i` on. -/
theorem walkPaths_spec (nodeID : P → I) (psa1 : List P) {rest : List P} {i : Nat} (hrest : path.drop i = rest)
    (h : Depths path k points) (hik : i ≤ k) :
    (RunsOut nodeID rest psa1 ∧ walkPaths nodeID rest psa1 i points = .error .nilNode) ∨
      ¬ RunsOut nodeID rest psa1 ∧ ∃ points', walkPaths nodeID rest psa1 i points = .ok points' ∧
        Depths path (max k (i + commonLength nodeID rest psa1)) points' := by
  induction rest generalizing i k points psa1 with
  | nil =>
    refine .inr ⟨fun hr => absurd hr.1 (Nat.not_lt_zero _), points, rfl, ?_⟩
    rw [commonLength, Nat.add_zero, max_eq_left hik]
    exact h
  | cons upf rest ih =>
    match psa1 with
    | [] => exact .inl ⟨⟨Nat.succ_pos _, rfl⟩, rfl⟩
    | upf1 :: psa1 =>
      have hi : path[i]? = some upf := by
        rw [← List.head?_drop, hrest]
        rfl
      have hdrop : path.drop (i + 1) = rest := by
        rw [← List.tail_drop, hrest]
        rfl
      by_cases heq : nodeID upf = nodeID upf1
      · have hruns : RunsOut nodeID (upf :: rest) (upf1 :: psa1) ↔ RunsOut nodeID rest psa1 := by
          unfold RunsOut
          rw [commonLength, if_pos heq, List.length_cons, List.length_cons, Nat.add_lt_add_iff_right,
            Nat.add_right_cancel_iff]
        have hcommon : max (max k (i + 1)) (i + 1 + commonLength nodeID rest psa1) =
            max k (i + commonLength nodeID (upf :: rest) (upf1 :: psa1)) := by
          rw [commonLength, if_pos heq]
          omega
        rw [walkPaths, if_pos heq, hruns, ← hcommon]
        exact ih psa1 hdrop (h.step hi hik) (le_max_right _ _)
      · have hnot : ¬ RunsOut nodeID (upf :: rest) (upf1 :: psa1) := by
          intro ⟨_, hr⟩
          rw [commonLength, if_neg heq] at hr
          exact absurd hr (Nat.succ_ne_zero _).symm
        rw [walkPaths, if_neg heq, commonLength, if_neg heq, Nat.add_zero, max_eq_left hik]
        exact .inr ⟨hnot, points, rfl, h⟩

/-- What the loop over the activated paths does. -/
theorem foldlM_walkPaths (nodeID : P → I) (psa1s : List (List P)) (h : Depths path k points) :
    ((∃ psa1 ∈ psa1s, RunsOut nodeID path psa1) ∧
      psa1s.foldlM (fun points psa1 => walkPaths nodeID path psa1 0 points) points =
        .error .nilNode) ∨
      (¬ ∃ psa1 ∈ psa1s, RunsOut nodeID path psa1) ∧ ∃ points',
        psa1s.foldlM (fun points psa1 => walkPaths nodeID path psa1 0 points) points = .ok points' ∧
        Depths path ((psa1s.map (commonLength nodeID path)).foldl max k) points' := by
  induction psa1s generalizing k points with
  | nil => exact .inr ⟨fun ⟨_, hm, _⟩ => absurd hm List.not_mem_nil, points, rfl, h⟩
  | cons psa1 psa1s ih =>
    rw [List.foldlM_cons]
    rcases walkPaths_spec nodeID psa1 List.drop_zero h (Nat.zero_le k) with
      ⟨hruns, hwalk⟩ | ⟨hruns, points', hwalk, hd⟩
    · rw [hwalk]
      exact .inl ⟨⟨psa1, List.mem_cons_self, hruns⟩, rfl⟩
    · rw [hwalk]
      rw [Nat.zero_add] at hd
      rcases ih hd with ⟨⟨p, hp, hpr⟩, hrest⟩ | ⟨hno, points'', hrest, hd'⟩
      · exact .inl ⟨⟨p, List.mem_cons_of_mem _ hp, hpr⟩, hrest⟩
      · refine .inr ⟨?_, points'', hrest, hd'⟩
        intro ⟨p, hp, hpr⟩
        rcases List.mem_cons.mp hp with rfl | hp
        · exact hruns hpr
        · exact hno ⟨p, hp, hpr⟩

/-! ## The deepest UPF -/

/-- The UPF chosen is one of the greatest depth, or none is deeper than 0. -/
theorem deepest_spec (points : GoMap P Nat) (ulcl : Option P) (upfs : List P) :
    (∀ x ∈ upfs, (points.lookup x).getD 0 ≤ (deepest points ulcl upfs).2) ∧
      (deepest points ulcl upfs = (ulcl, 0) ∨ ∃ x ∈ upfs,
        deepest points ulcl upfs = (some x, (points.lookup x).getD 0)) := by
  induction upfs using List.reverseRecOn with
  | nil => exact ⟨fun x hx => absurd hx List.not_mem_nil, .inl rfl⟩
  | append_singleton upfs upf ih =>
    obtain ⟨hall, hbest⟩ := ih
    have hstep : deepest points ulcl (upfs ++ [upf]) =
        if (deepest points ulcl upfs).2 < (points.lookup upf).getD 0
        then (some upf, (points.lookup upf).getD 0) else deepest points ulcl upfs := by
      rw [deepest, List.foldl_append]
      rfl
    rw [hstep]
    split_ifs with hlt
    · refine ⟨fun x hx => ?_, .inr ⟨upf, List.mem_append_right _ List.mem_cons_self, rfl⟩⟩
      rcases List.mem_append.mp hx with hx | hx
      · exact (hall x hx).trans hlt.le
      · rw [List.mem_singleton.mp hx]
    · refine ⟨fun x hx => ?_, hbest.imp_right fun ⟨x, hx, hb⟩ => ⟨x, List.mem_append_left _ hx, hb⟩⟩
      rcases List.mem_append.mp hx with hx | hx
      · exact hall x hx
      · rw [List.mem_singleton.mp hx]
        omega

/-- The UPF chosen is the one of the first `k` nodes that is met last. -/
theorem deepest_of_depths (h : Depths path k points) (hk : k ≤ path.length) (order : RangeOrder P)
    (ulcl : Option P) :
    (k = 0 ∧ (deepest points ulcl (order.keys 0 points.keys)).1 = ulcl) ∨
      ∃ x, path.idxOf x < k ∧ (∀ y, path.idxOf y < k → path.idxOf y ≤ path.idxOf x) ∧
        (deepest points ulcl (order.keys 0 points.keys)).1 = some x := by
  have hmem : ∀ x, x ∈ order.keys 0 points.keys ↔ path.idxOf x < k := fun x => by
    rw [order.mem_keys, Finmap.mem_keys, h.mem]
  have hdepth : ∀ x, path.idxOf x < k → (points.lookup x).getD 0 = path.idxOf x + 1 := fun x hx => by
    rw [h, if_pos hx, Option.getD_some]
  obtain ⟨hall, hbest⟩ := deepest_spec points ulcl (order.keys 0 points.keys)
  rcases hbest with hbest | ⟨x, hx, hbest⟩
  · refine .inl ⟨?_, by rw [hbest]⟩
    by_contra hpos
    -- The first node of the path has depth 1.
    obtain ⟨y, rest, rfl⟩ := List.exists_cons_of_length_pos (l := path) (by omega)
    have hy : (y :: rest).idxOf y < k := by
      rw [List.idxOf_cons_self]
      omega
    have := hall y ((hmem y).mpr hy)
    rw [hbest, hdepth y hy] at this
    omega
  · have hxk := (hmem x).mp hx
    refine .inr ⟨x, hxk, fun y hy => ?_, by rw [hbest]⟩
    have := hall y ((hmem y).mpr hy)
    rw [hbest, hdepth x hxk, hdepth y hy] at this
    omega

/-! ## The uplink classifier -/

omit [DecidableEq P] in
theorem commonLength_le (path psa1 : List P) : commonLength nodeID path psa1 ≤ path.length := by
  induction path generalizing psa1 with
  | nil => exact Nat.le_refl 0
  | cons upf path ih =>
    match psa1 with
    | [] => exact Nat.zero_le _
    | upf1 :: psa1 =>
      rw [commonLength, List.length_cons]
      split_ifs
      · exact Nat.succ_le_succ (ih psa1)
      · exact Nat.zero_le _

omit [DecidableEq P] in
theorem longestCommon_le (nodeID : P → I) (bp : BPManager P) :
    longestCommon nodeID bp ≤ bp.activatingPath.length := by
  refine foldl_inv_of_mem (· ≤ bp.activatingPath.length) (· ≤ bp.activatingPath.length)
    (fun _ _ hb ha => max_le ha hb) _ ?_ (Nat.zero_le _)
  intro n hn
  obtain ⟨psa1, -, rfl⟩ := List.mem_map.mp hn
  exact commonLength_le _ psa1

theorem mem_take_iff (hk : k ≤ path.length) {upf : P} :
    upf ∈ path.take k ↔ path.idxOf upf < k := by
  constructor
  · intro hmem
    obtain ⟨i, hi⟩ := List.mem_iff_getElem?.mp hmem
    rw [List.getElem?_take] at hi
    split_ifs at hi with hik
    · exact (idxOf_le_of_getElem? hi).trans_lt hik
  · intro hlt
    refine List.mem_iff_getElem?.mpr ⟨path.idxOf upf, ?_⟩
    rw [List.getElem?_take, if_pos hlt, getElem?_idxOf (hlt.trans_le hk)]

variable (nodeID) in
/-- The UPFs of the longest part in common. -/
def commonPath (bp : BPManager P) : List P := bp.activatingPath.take (longestCommon nodeID bp)

variable (nodeID) in
/-- What is asked of `FindULCL`: it ends, and the ULCL is the last UPF of the longest part in common,
    none if nothing is in common. -/
def FindsLastCommon (order : RangeOrder P) (bp : BPManager P) : Prop :=
  ∃ bp', findULCL nodeID order bp = .ok bp' ∧ bp'.ulcl = (commonPath nodeID bp).getLast?

/-- The ULCL is right exactly if no activated path ends where the activating path goes on in the same
    way, there is a common part or no ULCL from an earlier search, and no UPF of the common part is
    met for the first time after its last one is. -/
theorem findsLastCommon_iff (nodeID : P → I) (order : RangeOrder P) (bp : BPManager P) :
    FindsLastCommon nodeID order bp ↔
      (∀ psa1 ∈ bp.activatedPaths, ¬ RunsOut nodeID bp.activatingPath psa1) ∧
      (longestCommon nodeID bp = 0 → bp.ulcl = none) ∧
      ∀ last, (commonPath nodeID bp).getLast? = some last → ∀ upf ∈ commonPath nodeID bp,
        bp.activatingPath.idxOf upf ≤ bp.activatingPath.idxOf last := by
  have hstart : Depths bp.activatingPath 0 (∅ : GoMap P Nat) := by
    intro upf
    rw [Finmap.lookup_empty, if_neg (Nat.not_lt_zero _)]
  rcases foldlM_walkPaths nodeID bp.activatedPaths hstart with
    ⟨⟨psa1, hmem, hruns⟩, hrun⟩ | ⟨hno, points, hrun, hd⟩
  · constructor
    · intro ⟨bp', hok, _⟩
      rw [findULCL, hrun] at hok
      cases hok
    · exact fun h => absurd hruns (h.1 psa1 hmem)
  · have hd : Depths bp.activatingPath (longestCommon nodeID bp) points := hd
    have hle := longestCommon_le nodeID bp
    have hfinds : FindsLastCommon nodeID order bp ↔
        (deepest points bp.ulcl (order.keys 0 points.keys)).1 = (commonPath nodeID bp).getLast? := by
      unfold FindsLastCommon findULCL
      rw [hrun]
      exact ⟨fun ⟨bp', hok, hu⟩ => by cases hok; exact hu, fun hu => ⟨_, rfl, hu⟩⟩
    have hcommon : ∀ upf, upf ∈ commonPath nodeID bp ↔
        bp.activatingPath.idxOf upf < longestCommon nodeID bp := fun upf => mem_take_iff hle
    rw [hfinds]
    rcases deepest_of_depths hd hle order bp.ulcl with ⟨hzero, hulcl⟩ | ⟨x, hx, hmax, hulcl⟩
    · have hnil : commonPath nodeID bp = [] := by rw [commonPath, hzero, List.take_zero]
      rw [hulcl, hnil]
      refine ⟨fun h => ⟨fun psa1 hm hr => hno ⟨psa1, hm, hr⟩, fun _ => h, ?_⟩, fun h => h.2.1 hzero⟩
      exact fun last _ upf hupf => absurd hupf List.not_mem_nil
    · obtain ⟨last, hlast⟩ : ∃ last, (commonPath nodeID bp).getLast? = some last :=
        ⟨_, List.getLast?_eq_getLast_of_ne_nil (List.ne_nil_of_mem ((hcommon x).mpr hx))⟩
      have hlastk := (hcommon last).mp (List.mem_of_getLast? hlast)
      rw [hulcl, hlast, Option.some_inj]
      constructor
      · intro hxl
        refine ⟨fun psa1 hm hr => hno ⟨psa1, hm, hr⟩, fun hzero => absurd hx (by omega), ?_⟩
        intro last' hlast' upf hupf
        rw [← Option.some.inj hlast', ← hxl]
        exact hmax upf ((hcommon upf).mp hupf)
      · intro ⟨_, _, h⟩
        have hidx : bp.activatingPath.idxOf x = bp.activatingPath.idxOf last :=
          Nat.le_antisymm (h last rfl x ((hcommon x).mpr hx)) (hmax last hlastk)
        have hget := getElem?_idxOf (hx.trans_le hle)
        rw [hidx, getElem?_idxOf (hlastk.trans_le hle)] at hget
        exact (Option.some.inj hget).symm

/-- UPFs are their own node ids. The activated path goes to the UPF 0, the activating one on to 1. -/
def trunk : BPManager Nat := ⟨[[0]], [0, 1], ∅, none⟩

/-- The first UPF is common; the node behind the end of the activated path is dereferenced. -/
theorem trunk_nilNode :
    (commonPath id trunk).getLast? = some 0 ∧
      ∀ order : RangeOrder Nat, findULCL id order trunk = .error .nilNode :=
  ⟨rfl, fun _ => rfl⟩

end Free5gc.Smf.Routing
