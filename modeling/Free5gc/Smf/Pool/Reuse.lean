/-
  Duplicated frees and lazy reuse.

  `Free` looks at the head and then goes along the list until a segment is not below the
  value. The list is not sorted, so that segment need not be the one that holds the value:
  `free_right_iff` says for which states and values a duplicated free is found.

  The head segment of a new pool ends at the pool's last number, and no value that `Free`
  takes touches it from behind. So with `Allocate` and `Free` alone it only loses its front,
  until every number has been handed out once: `lazy_reuse`.
-/
import Free5gc.Smf.Pool.PoolRuns

namespace Free5gc.Smf.Pool

open Free5gc.Lib

/-! ## Positions

The bound `minValue < s.first` is there because `s.first - 1` wraps. -/

namespace Segment

variable {s : Segment} {v : Int64}

/-- `relativePosisionOf` finds `v` in the segment. -/
def Finds (s : Segment) (v : Int64) : Prop :=
  Int64.minValue < s.first ∧ s.first ≤ v ∧ v ≤ s.last

/-- The segment ends right before `v`. -/
def Touches (s : Segment) (v : Int64) : Prop :=
  Int64.minValue < s.first ∧ s.first ≤ v ∧ s.last.toInt + 1 = v.toInt

/-- The segment ends before `v`, with a gap. -/
def Below (s : Segment) (v : Int64) : Prop :=
  Int64.minValue < s.first ∧ s.first ≤ v ∧ s.last.toInt + 1 < v.toInt

theorem min_or_toInt_sub_one (x : Int64) :
    x = Int64.minValue ∨ Int64.minValue < x ∧ (x - 1).toInt = x.toInt - 1 := by
  rcases lt_or_ge (-2 ^ 63) x.toInt with h | h
  · refine Or.inr ⟨?_, toInt_sub_one h⟩
    rw [Int64.lt_iff_toInt_lt]
    exact h
  · refine Or.inl (Int64.toInt_inj.mp ?_)
    have hx := x.le_toInt
    rw [Int64.toInt_minValue]
    omega

/-- What the outcomes of `relativePosisionOf` say that make `Free` go on or end. -/
theorem relativePosisionOf_iff (s : Segment) (v : Int64) :
    (s.relativePosisionOf v = .withinThisSegment ↔ s.Finds v) ∧
      (s.relativePosisionOf v = .adjacentToTheBack ↔ s.Touches v) ∧
      (s.relativePosisionOf v = .after ↔ s.Below v) := by
  have hv := v.toInt_lt
  unfold relativePosisionOf Finds Touches Below
  rcases min_or_toInt_sub_one s.first with hmin | ⟨hmin, hsub⟩
  · -- `s.first - 1` is the largest number, and every value is before it or equal to it
    have hnot : ¬ Int64.minValue < s.first := by
      rw [hmin]
      exact Int64.lt_irrefl
    simp only [hnot, false_and, iff_false]
    have hle : v ≤ s.first - 1 := by
      rw [hmin]
      exact Int64.le_maxValue v
    rcases Int64.lt_or_eq_of_le hle with h | h
    · rw [if_pos h]
      exact ⟨nofun, nofun, nofun⟩
    · have hirr : ¬ v < s.first - 1 := by
        rw [h]
        exact Int64.lt_irrefl
      rw [if_neg hirr, if_pos h]
      exact ⟨nofun, nofun, nofun⟩
  · simp only [hmin, true_and, Int64.lt_iff_toInt_lt, Int64.le_iff_toInt_le, ← Int64.toInt_inj,
      hsub]
    split_ifs with hbefore hfront hin hback
    · exact ⟨iff_of_false nofun (by omega), iff_of_false nofun (by omega),
        iff_of_false nofun (by omega)⟩
    · exact ⟨iff_of_false nofun (by omega), iff_of_false nofun (by omega),
        iff_of_false nofun (by omega)⟩
    · exact ⟨iff_of_true rfl hin, iff_of_false nofun (by omega), iff_of_false nofun (by omega)⟩
    · have hsucc : (s.last + 1).toInt = s.last.toInt + 1 := toInt_add_one (by omega)
      exact ⟨iff_of_false nofun (by omega), iff_of_true rfl (by omega),
        iff_of_false nofun (by omega)⟩
    · have hsucc : (s.last + 1).toInt = s.last.toInt + 1 := toInt_add_one (by omega)
      exact ⟨iff_of_false nofun (by omega), iff_of_false nofun (by omega),
        iff_of_true rfl (by omega)⟩

end Segment

/-! ## Duplicated frees -/

/-- The search of `Free` behind the head comes to a segment in which it finds `v`: the
    segments before that one are all below `v`, with a gap. -/
def FoundBehind (v : Int64) (segs : List Segment) : Prop :=
  ∃ before s rest, segs = before ++ s :: rest ∧ (∀ t ∈ before, t.Below v) ∧ s.Finds v

/-- `Free` finds `v` in the head, or behind a head that does not end right before `v`. -/
def Found (v : Int64) : List Segment → Prop
  | [] => False
  | h :: next => h.Finds v ∨ ¬ h.Touches v ∧ FoundBehind v next

variable {v : Int64} {segs : List Segment}

theorem foundBehind_nil (v : Int64) : ¬ FoundBehind v [] := by
  rintro ⟨before, s, rest, h, _⟩
  simp at h

theorem foundBehind_cons {s : Segment} {next : List Segment} :
    FoundBehind v (s :: next) ↔ s.Finds v ∨ s.Below v ∧ FoundBehind v next := by
  constructor
  · rintro ⟨before, t, rest, h, hbelow, ht⟩
    cases before with
    | nil =>
      cases h
      exact Or.inl ht
    | cons b before =>
      cases h
      obtain ⟨hb, hbelow⟩ := List.forall_mem_cons.mp hbelow
      exact Or.inr ⟨hb, before, t, rest, rfl, hbelow, ht⟩
  · rintro (hs | ⟨hs, before, t, rest, rfl, hbelow, ht⟩)
    · exact ⟨[], s, next, rfl, List.forall_mem_nil _, hs⟩
    · exact ⟨s :: before, t, rest, rfl, List.forall_mem_cons.mpr ⟨hs, hbelow⟩, ht⟩

theorem freeLoop_eq_none_iff : freeLoop v segs = none ↔ FoundBehind v segs := by
  induction segs with
  | nil => exact iff_of_false (Option.some_ne_none _) (foundBehind_nil v)
  | cons cur next ih =>
    obtain ⟨hfinds, _, hbelow⟩ := cur.relativePosisionOf_iff v
    rw [foundBehind_cons, ← hfinds, ← hbelow]
    unfold freeLoop
    cases cur.relativePosisionOf v with
    | before => simp
    | adjacentToTheFront => simp
    | withinThisSegment => simp
    | adjacentToTheBack => simp
    | after =>
      cases next with
      | nil => simp [foundBehind_nil]
      | cons n next =>
        rw [← ih]
        simp

theorem freeBehind_eq_none_iff {h : Segment} {next : List Segment} :
    freeBehind v h next = none ↔ FoundBehind v next := by
  cases next with
  | nil => exact iff_of_false (Option.some_ne_none _) (foundBehind_nil v)
  | cons n next =>
    rw [← freeLoop_eq_none_iff]
    exact Option.map_eq_none_iff

theorem freeInto_eq_none_iff : freeInto v segs = none ↔ Found v segs := by
  cases segs with
  | nil => exact iff_of_false (Option.some_ne_none _) id
  | cons h next =>
    obtain ⟨hfinds, htouches, _⟩ := h.relativePosisionOf_iff v
    unfold freeInto Found
    dsimp only
    rw [← hfinds, ← htouches, ← freeBehind_eq_none_iff (h := h)]
    cases h.relativePosisionOf v with
    | before => simp
    | adjacentToTheFront => simp
    | withinThisSegment => simp
    | adjacentToTheBack => simp
    | after => simp

/-- A segment in which `v` is found has it. -/
theorem Segment.Finds.held {s : Segment} (h : s.Finds v) (hs : s ∈ segs) :
    0 < held segs v.toInt := by
  have hin : s.first.toInt ≤ v.toInt ∧ v.toInt ≤ s.last.toInt :=
    ⟨Int64.le_iff_toInt_le.mp h.2.1, Int64.le_iff_toInt_le.mp h.2.2⟩
  induction segs with
  | nil => cases hs
  | cons t segs ih =>
    rw [held_cons]
    rcases List.mem_cons.mp hs with rfl | hs
    · rw [if_pos hin]
      omega
    · have := ih hs
      omega

theorem Found.held (h : Found v segs) : 0 < held segs v.toInt := by
  cases segs with
  | nil => exact absurd h id
  | cons s next =>
    rcases h with h | ⟨_, before, t, rest, rfl, _, h⟩
    · exact h.held List.mem_cons_self
    · exact h.held (by simp)

namespace LazyReusePool

/-- `Free(v)` succeeds exactly for a number of the pool that is not free, and a failed call
    changes nothing. -/
def FreeRight (p : LazyReusePool) (v : Int64) : Prop :=
  ((p.free v).2 = true ↔ (p.first ≤ v ∧ v ≤ p.last) ∧ v.toInt ∉ p.freeSet) ∧
    ((p.free v).2 = false → (p.free v).1 = p)

variable {first last : Int64}

/-- In every state of a pool and for every value: `Free` is right exactly when it finds the
    value if that is a free number of the pool. -/
theorem free_right_iff (p : LazyReusePool) (v : Int64) :
    p.FreeRight v ↔ (p.first ≤ v ∧ v ≤ p.last → v.toInt ∈ p.freeSet → Found v p.head) := by
  unfold FreeRight free
  by_cases hout : v < p.first ∨ p.last < v
  · have hrange : ¬ (p.first ≤ v ∧ v ≤ p.last) := by
      simp only [Int64.lt_iff_toInt_lt, Int64.le_iff_toInt_le] at hout ⊢
      omega
    simp [hout, hrange]
  · have hrange : p.first ≤ v ∧ v ≤ p.last := by
      simp only [Int64.lt_iff_toInt_lt, Int64.le_iff_toInt_le] at hout ⊢
      omega
    rw [if_neg hout, mem_freeSet]
    cases hfree : freeInto v p.head with
    | none =>
      -- found in a segment, so it is free
      have hfound := freeInto_eq_none_iff.mp hfree
      simp [hfound, hfound.held]
    | some l =>
      have hnot : ¬ Found v p.head := by
        rw [← freeInto_eq_none_iff, hfree]
        exact Option.some_ne_none l
      simp [hrange, hnot]

/-- The pool after `Allocate`, `Free(1)` and `Use(5)` on the numbers from 1 to 9: the upper
    half of the head stands before the freed number. -/
theorem free_accepts_duplicate :
    ∃ p, newLazyReusePool 1 9 = .ok p ∧
      let q := ([.allocate, .free 1, .use 5].foldl apply p)
      (1 : Int64).toInt ∈ q.freeSet ∧ (q.free 1).2 = true ∧
        (q.free 1).1.head = [⟨2, 4⟩, ⟨1, 1⟩, ⟨6, 9⟩, ⟨1, 1⟩] := by
  refine ⟨_, rfl, ?_, rfl, rfl⟩
  decide

/-! ## Lazy reuse -/

/-- A call of a client that only allocates and frees. -/
inductive Call where
  | allocate
  | free (value : Int64)
  deriving DecidableEq, Repr

/-- Run a call, with the numbers handed out so far. -/
def run (s : LazyReusePool × List Int64) : Call → LazyReusePool × List Int64
  | .allocate => (s.1.allocate.1, s.2 ++ s.1.allocate.2.toList)
  | .free v => ((s.1.free v).1, s.2)

/-- `Free` does not touch a head that does not end before the value. -/
theorem freeInto_keeps_head {h : Segment} {next l : List Segment} {v : Int64} (hle : v ≤ h.last)
    (hfree : freeInto v (h :: next) = some l) : ∃ next', l = h :: next' := by
  have hnot : h.relativePosisionOf v ≠ .adjacentToTheBack := by
    rw [Ne, (h.relativePosisionOf_iff v).2.1]
    rintro ⟨_, _, htouch⟩
    rw [Int64.le_iff_toInt_le] at hle
    omega
  have hbehind : freeBehind v h next = some l → ∃ next', l = h :: next' := by
    intro hb
    cases next with
    | nil =>
      cases hb
      exact ⟨_, rfl⟩
    | cons n next =>
      obtain ⟨next', _, rfl⟩ := Option.map_eq_some_iff.mp hb
      exact ⟨next', rfl⟩
  unfold freeInto at hfree
  dsimp only at hfree
  cases hpos : h.relativePosisionOf v with
  | withinThisSegment => simp [hpos] at hfree
  | adjacentToTheBack => exact absurd hpos hnot
  | before =>
    rw [hpos] at hfree
    exact hbehind hfree
  | adjacentToTheFront =>
    rw [hpos] at hfree
    exact hbehind hfree
  | after =>
    rw [hpos] at hfree
    exact hbehind hfree

/-- The numbers handed out are the pool's in their order, and while some are left the rest of
    them is the head. -/
structure InOrder (first last : Int64) (s : LazyReusePool × List Int64) : Prop where
  last_eq : s.1.last = last
  out : ∀ (k : Nat) (v : Int64), s.2[k]? = some v → k < last.toInt - first.toInt + 1 →
    v.toInt = first.toInt + k
  head : s.2.length < last.toInt - first.toInt + 1 →
    ∃ a next, s.1.head = ⟨a, last⟩ :: next ∧ a.toInt = first.toInt + s.2.length

theorem allocate_last (p : LazyReusePool) : p.allocate.1.last = p.last := by
  unfold allocate
  split
  · rfl
  · rfl

theorem InOrder.allocate {s : LazyReusePool × List Int64} (h : InOrder first last s) :
    InOrder first last (run s .allocate) := by
  have hlast : (run s .allocate).1.last = last := (allocate_last s.1).trans h.last_eq
  by_cases hlt : s.2.length < last.toInt - first.toInt + 1
  · obtain ⟨a, next, hhead, ha⟩ := h.head hlt
    have hrun : run s .allocate =
        ({ s.1 with head := allocateFrom ⟨a, last⟩ next, remain := s.1.remain - 1 },
          s.2 ++ [a]) := by
      unfold run LazyReusePool.allocate
      rw [hhead]
      rfl
    refine ⟨hlast, ?_, ?_⟩
    · intro k v hk hsize
      rw [hrun] at hk
      rcases Nat.lt_or_ge k s.2.length with hold | hnew
      · rw [List.getElem?_append_left hold] at hk
        exact h.out k v hk hsize
      · rw [List.getElem?_append_right hnew, List.getElem?_singleton] at hk
        split_ifs at hk with hzero
        cases hk
        rw [ha]
        omega
    · intro hsize
      rw [hrun] at hsize ⊢
      rw [List.length_append, List.length_singleton] at hsize ⊢
      have hsucc : (a + 1).toInt = a.toInt + 1 := toInt_add_one (by have := last.toInt_lt; omega)
      have hnot : ¬ last < a + 1 := by
        rw [Int64.lt_iff_toInt_lt]
        omega
      refine ⟨a + 1, next, ?_, by push_cast; omega⟩
      exact if_neg hnot
  · refine ⟨hlast, ?_, ?_⟩
    · intro k v hk hsize
      have hold : k < s.2.length := by omega
      refine h.out k v ?_ hsize
      rw [← hk]
      exact (List.getElem?_append_left hold).symm
    · intro hsize
      have hlen : s.2.length ≤ (run s .allocate).2.length := by
        unfold run
        dsimp only
        rw [List.length_append]
        omega
      omega

theorem InOrder.free {s : LazyReusePool × List Int64} (h : InOrder first last s) (v : Int64) :
    InOrder first last (run s (.free v)) := by
  unfold run LazyReusePool.free
  dsimp only
  split_ifs with hout
  · exact h
  · cases hfree : freeInto v s.1.head with
    | none => exact h
    | some l =>
      refine ⟨h.last_eq, h.out, fun hsize => ?_⟩
      obtain ⟨a, next, hhead, ha⟩ := h.head hsize
      rw [hhead] at hfree
      have hle : v ≤ last := by
        rw [← h.last_eq]
        simp only [Int64.lt_iff_toInt_lt, Int64.le_iff_toInt_le] at hout ⊢
        omega
      obtain ⟨next', rfl⟩ := freeInto_keeps_head (h := ⟨a, last⟩) hle hfree
      exact ⟨a, next', rfl, ha⟩

theorem inOrder_new {p : LazyReusePool} (hnew : newLazyReusePool first last = .ok p) :
    InOrder first last (p, []) := by
  obtain ⟨_, rfl⟩ := newLazyReusePool_eq_ok hnew
  refine ⟨rfl, fun k v hk => by simp at hk, fun _ => ⟨first, [], rfl, ?_⟩⟩
  simp

/-- For every pool and every sequence of `Allocate` and `Free` calls, the `k`-th number handed
    out, counted from 0, is the pool's `k`-th one, as long as the pool has so many; and until
    then `Allocate` does hand one out. -/
theorem lazy_reuse {first last : Int64} {p : LazyReusePool}
    (hnew : newLazyReusePool first last = .ok p) (calls : List Call) :
    let s := calls.foldl run (p, [])
    (∀ (k : Nat) (v : Int64), s.2[k]? = some v → k < last.toInt - first.toInt + 1 →
      v.toInt = first.toInt + k) ∧
    (s.2.length < last.toInt - first.toInt + 1 → ∃ v, s.1.allocate.2 = some v) := by
  intro s
  have h : InOrder first last s := by
    refine foldl_inv (InOrder first last) (fun s call hs => ?_) calls (inOrder_new hnew)
    cases call with
    | allocate => exact hs.allocate
    | free v => exact hs.free v
  refine ⟨h.out, fun hsize => ?_⟩
  obtain ⟨a, next, hhead, _⟩ := h.head hsize
  refine ⟨a, ?_⟩
  unfold LazyReusePool.allocate
  rw [hhead]

/-- Frees between the allocations of a pool of three numbers. -/
theorem lazy_reuse_three :
    ∃ p, newLazyReusePool 1 3 = .ok p ∧
      ([.allocate, .free 1, .allocate, .free 3, .free 2, .allocate].foldl run (p, [])).2 =
        [1, 2, 3] ∧
      ∀ (k : Nat) (v : Int64),
        ([.allocate, .free 1, .allocate, .free 3, .free 2, .allocate].foldl run (p, [])).2[k]? =
          some v → k < (3 : Int64).toInt - (1 : Int64).toInt + 1 →
        v.toInt = (1 : Int64).toInt + k :=
  ⟨_, rfl, rfl, (lazy_reuse (rfl : newLazyReusePool 1 3 = .ok _) _).1⟩

end LazyReusePool

end Free5gc.Smf.Pool
