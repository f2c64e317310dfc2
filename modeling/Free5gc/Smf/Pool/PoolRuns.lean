/-
  What the pool's operations do to the set of free numbers, over every run of them.

  The segments are not sorted, so the invariant is only that no number is in two of them;
  `cover` counts in how many it is, and each operation has one lemma that says how it
  changes `cover` and the sum of the sizes. Sums wrap at the ends of `int`: the pool is right
  exactly when its bounds keep away from them, and its size is an `int`.
-/
import Free5gc.Smf.Pool.LazyReusePool

namespace Free5gc.Smf.Pool

open Free5gc.Lib

/-! ## Segments as spans of integers -/

def Segment.span (s : Segment) : Span := ⟨s.first.toInt, s.last.toInt⟩

def spans (segs : List Segment) : List Span := segs.map Segment.span

/-- In how many segments a number is. -/
def held (segs : List Segment) (v : Int) : Nat := cover (spans segs) v

/-- The sum of the sizes, as an `int`. -/
def sizes (segs : List Segment) : Int64 := Int64.ofInt (sizeOfAll (spans segs))

/-- A segment between `lo` and `hi`, not empty. -/
structure Segment.Within (lo hi : Int) (s : Segment) : Prop where
  lower : lo ≤ s.first.toInt
  nonempty : s.first.toInt ≤ s.last.toInt
  upper : s.last.toInt ≤ hi

/-- Bounds whose neighbours are `int`s too. -/
structure Inner (lo hi : Int) : Prop where
  lower : -2 ^ 63 < lo
  upper : hi < 2 ^ 63 - 1

variable {lo hi : Int} {v first last : Int64} {s : Segment} {l : List Segment}

theorem within_mk {a b : Int64} (hlo : lo ≤ a.toInt) (hne : a.toInt ≤ b.toInt) (hhi : b.toInt ≤ hi) :
    Segment.Within lo hi ⟨a, b⟩ := ⟨hlo, hne, hhi⟩

theorem held_nil (v : Int) : held [] v = 0 := rfl

theorem held_cons (s : Segment) (segs : List Segment) (v : Int) :
    held (s :: segs) v =
      (if s.first.toInt ≤ v ∧ v ≤ s.last.toInt then 1 else 0) + held segs v :=
  cover_cons s.span (spans segs) v

theorem held_cons_mk (a b : Int64) (segs : List Segment) (v : Int) :
    held (⟨a, b⟩ :: segs) v = (if a.toInt ≤ v ∧ v ≤ b.toInt then 1 else 0) + held segs v :=
  held_cons ⟨a, b⟩ segs v

theorem sizes_nil : sizes [] = 0 := rfl

theorem sizes_cons (s : Segment) (segs : List Segment) :
    sizes (s :: segs) = s.last - s.first + 1 + sizes segs := by
  unfold sizes spans
  rw [List.map_cons, sizeOfAll_cons, Int64.ofInt_add, Span.size, Int64.ofInt_add, Int64.ofInt_sub]
  unfold Segment.span
  rw [Int64.ofInt_toInt, Int64.ofInt_toInt]
  rfl

/-- `l'` is `l` with the number `v` added, once. -/
structure Adds (lo hi : Int) (v : Int64) (l l' : List Segment) : Prop where
  within : ∀ t ∈ l', t.Within lo hi
  held : ∀ w, held l' w = held l w + (if w = v.toInt then 1 else 0)
  sizes : sizes l' = sizes l + 1

/-- `l'` is `l` with the number `v` removed, once. -/
structure Removes (lo hi : Int) (v : Int64) (l l' : List Segment) : Prop where
  within : ∀ t ∈ l', t.Within lo hi
  held : ∀ w, held l w = held l' w + (if w = v.toInt then 1 else 0)
  sizes : sizes l' = sizes l - 1

theorem Adds.cons {l' : List Segment} (h : Adds lo hi v l l') (hs : s.Within lo hi) :
    Adds lo hi v (s :: l) (s :: l') := by
  refine ⟨List.forall_mem_cons.mpr ⟨hs, h.within⟩, fun w => ?_, ?_⟩
  · rw [held_cons, held_cons, h.held w, Nat.add_assoc]
  · rw [sizes_cons, sizes_cons, h.sizes]
    grind

theorem Removes.cons {l' : List Segment} (h : Removes lo hi v l l') (hs : s.Within lo hi) :
    Removes lo hi v (s :: l) (s :: l') := by
  refine ⟨List.forall_mem_cons.mpr ⟨hs, h.within⟩, fun w => ?_, ?_⟩
  · rw [held_cons, held_cons, h.held w, Nat.add_assoc]
  · rw [sizes_cons, sizes_cons, h.sizes]
    grind

section Bounds

variable {lo hi : Int} (hin : Inner lo hi)
include hin

variable {s : Segment} {next : List Segment} {v : Int64}

theorem Segment.Within.toInt_first_sub_one (h : s.Within lo hi) :
    (s.first - 1).toInt = s.first.toInt - 1 := by
  have hlo := hin.lower
  have hs := h.lower
  exact toInt_sub_one (by omega)

theorem Segment.Within.toInt_last_add_one (h : s.Within lo hi) :
    (s.last + 1).toInt = s.last.toInt + 1 := by
  have hhi := hin.upper
  have hs := h.upper
  exact toInt_add_one (by omega)

theorem Segment.Within.toInt_first_add_one (h : s.Within lo hi) :
    (s.first + 1).toInt = s.first.toInt + 1 := by
  have hhi := hin.upper
  have hs := h.upper
  have hne := h.nonempty
  exact toInt_add_one (by omega)

/-! ## Allocate -/

theorem removes_allocateFrom (hs : s.Within lo hi) (hnext : ∀ t ∈ next, t.Within lo hi) :
    Removes lo hi s.first (s :: next) (allocateFrom s next) := by
  have hfirst := hs.toInt_first_add_one hin
  have hlow := hs.lower
  have hne := hs.nonempty
  unfold allocateFrom
  split_ifs with hempty
  · rw [Int64.lt_iff_toInt_lt, hfirst] at hempty
    have hsame : s.last = s.first := Int64.toInt_inj.mp (by omega)
    refine ⟨hnext, fun w => ?_, ?_⟩
    · rw [held_cons]
      split_ifs <;> omega
    · rw [sizes_cons, hsame]
      grind
  · rw [Int64.lt_iff_toInt_lt, hfirst] at hempty
    refine ⟨List.forall_mem_cons.mpr ⟨within_mk (by omega) (by omega) hs.upper, hnext⟩,
      fun w => ?_, ?_⟩
    · rw [held_cons, held_cons_mk, hfirst]
      split_ifs <;> omega
    · rw [sizes_cons, sizes_cons]
      grind

/-! ## Use -/

theorem relativePosisionOf_within_iff (hs : s.Within lo hi) :
    s.relativePosisionOf v = .withinThisSegment ↔
      s.first.toInt ≤ v.toInt ∧ v.toInt ≤ s.last.toInt := by
  have hfirst := hs.toInt_first_sub_one hin
  unfold Segment.relativePosisionOf
  simp only [Int64.lt_iff_toInt_lt, Int64.le_iff_toInt_le, ← Int64.toInt_inj, hfirst]
  split_ifs with hbefore hfront hin' hback
  · exact ⟨nofun, fun h => by omega⟩
  · exact ⟨nofun, fun h => by omega⟩
  · exact ⟨fun _ => hin', fun _ => rfl⟩
  · exact ⟨nofun, fun h => absurd h hin'⟩
  · exact ⟨nofun, fun h => absurd h hin'⟩

theorem removes_split (hs : s.Within lo hi) (hnext : ∀ t ∈ next, t.Within lo hi)
    (hv : s.first.toInt ≤ v.toInt ∧ v.toInt ≤ s.last.toInt) (hne : s.first ≠ s.last) :
    Removes lo hi v (s :: next) (s.split v ++ next) := by
  have hlt : s.first.toInt < s.last.toInt := by
    have h : s.first.toInt ≠ s.last.toInt := fun h => hne (Int64.toInt_inj.mp h)
    omega
  have hlow := hs.lower
  have hupp := hs.upper
  have hfirst := hs.toInt_first_add_one hin
  have hlast : (s.last - 1).toInt = s.last.toInt - 1 := toInt_sub_one (by have := hin.lower; omega)
  have hpred : (v - 1).toInt = v.toInt - 1 := toInt_sub_one (by have := hin.lower; omega)
  have hsucc : (v + 1).toInt = v.toInt + 1 := toInt_add_one (by have := hin.upper; omega)
  unfold Segment.split
  split_ifs with hout hfst hlst
  · rw [Int64.lt_iff_toInt_lt, Int64.lt_iff_toInt_lt] at hout
    omega
  · subst hfst
    refine ⟨List.forall_mem_cons.mpr ⟨within_mk (by omega) (by omega) hs.upper, hnext⟩,
      fun w => ?_, ?_⟩
    · rw [List.singleton_append, held_cons, held_cons_mk, hfirst]
      split_ifs <;> omega
    · rw [List.singleton_append, sizes_cons, sizes_cons]
      grind
  · subst hlst
    refine ⟨List.forall_mem_cons.mpr ⟨within_mk hs.lower (by omega) (by omega), hnext⟩,
      fun w => ?_, ?_⟩
    · rw [List.singleton_append, held_cons, held_cons_mk, hlast]
      split_ifs <;> omega
    · rw [List.singleton_append, sizes_cons, sizes_cons]
      grind
  · rw [← Int64.toInt_inj] at hfst hlst
    refine ⟨List.forall_mem_cons.mpr ⟨within_mk hs.lower (by omega) (by omega),
      List.forall_mem_cons.mpr ⟨within_mk (by omega) (by omega) hs.upper, hnext⟩⟩,
      fun w => ?_, ?_⟩
    · rw [List.cons_append, List.singleton_append, held_cons, held_cons_mk, held_cons_mk, hpred,
        hsucc]
      split_ifs <;> omega
    · rw [List.cons_append, List.singleton_append, sizes_cons, sizes_cons, sizes_cons]
      grind

theorem held_of_useLoop_none {segs : List Segment} (hsegs : ∀ s ∈ segs, s.Within lo hi)
    (h : useLoop v segs = none) : held segs v.toInt = 0 := by
  induction segs with
  | nil => rfl
  | cons cur next ih =>
    rw [List.forall_mem_cons] at hsegs
    unfold useLoop at h
    split_ifs at h with hpos hone
    rw [relativePosisionOf_within_iff hin hsegs.1] at hpos
    rw [Option.map_eq_none_iff] at h
    rw [held_cons, if_neg hpos, ih hsegs.2 h]

theorem removes_of_useLoop_some {segs segs' : List Segment} (hsegs : ∀ s ∈ segs, s.Within lo hi)
    (h : useLoop v segs = some segs') : Removes lo hi v segs segs' := by
  induction segs generalizing segs' with
  | nil => cases h
  | cons cur next ih =>
    rw [List.forall_mem_cons] at hsegs
    unfold useLoop at h
    split_ifs at h with hpos hone
    · cases h
      rw [relativePosisionOf_within_iff hin hsegs.1, hone] at hpos
      refine ⟨hsegs.2, fun w => ?_, ?_⟩
      · rw [held_cons, hone]
        split_ifs <;> omega
      · rw [sizes_cons, hone]
        grind
    · cases h
      exact removes_split hin hsegs.1 hsegs.2
        ((relativePosisionOf_within_iff hin hsegs.1).mp hpos) hone
    · obtain ⟨rest, hrest, rfl⟩ := Option.map_eq_some_iff.mp h
      exact (ih hsegs.2 hrest).cons hsegs.1

/-! ## Free -/

omit hin in
theorem adds_newSingleSegment (hlo : lo ≤ v.toInt) (hhi : v.toInt ≤ hi) {l : List Segment}
    (hl : ∀ t ∈ l, t.Within lo hi) : Adds lo hi v l (newSingleSegment v :: l) := by
  unfold newSingleSegment
  refine ⟨List.forall_mem_cons.mpr ⟨within_mk hlo (Int.le_refl _) hhi, hl⟩, fun w => ?_, ?_⟩
  · rw [held_cons_mk]
    split_ifs <;> omega
  · rw [sizes_cons]
    grind

theorem adds_extendFirst (hs : s.Within lo hi) (hnext : ∀ t ∈ next, t.Within lo hi)
    (hv : v = s.first - 1) (hlo : lo ≤ v.toInt) :
    Adds lo hi v (s :: next) ({ s with first := v } :: next) := by
  have hfirst := hs.toInt_first_sub_one hin
  have hne := hs.nonempty
  rw [← hv] at hfirst
  refine ⟨List.forall_mem_cons.mpr ⟨within_mk hlo (by omega) hs.upper, hnext⟩, fun w => ?_, ?_⟩
  · rw [held_cons_mk, held_cons s, hfirst]
    split_ifs <;> omega
  · rw [sizes_cons, sizes_cons, hv]
    grind

theorem adds_extendLast (hs : s.Within lo hi) (hnext : ∀ t ∈ next, t.Within lo hi)
    (hv : v = s.last + 1) (hhi : v.toInt ≤ hi) : Adds lo hi v (s :: next) (s.extendLast next) := by
  have hlast := hs.toInt_last_add_one hin
  rw [← hv] at hlast
  have hlow := hs.lower
  have hne := hs.nonempty
  have hadd : Adds lo hi v (s :: next) ({ s with last := s.last + 1 } :: next) := by
    rw [← hv]
    refine ⟨List.forall_mem_cons.mpr ⟨within_mk hlow (by omega) hhi, hnext⟩, fun w => ?_, ?_⟩
    · rw [held_cons_mk, held_cons s, hlast]
      split_ifs <;> omega
    · rw [sizes_cons, sizes_cons, hv]
      grind
  unfold Segment.extendLast
  cases next with
  | nil => exact hadd
  | cons n next =>
    dsimp only
    split_ifs with hjoin
    · -- the extended segment and the next one are joined: nothing is gained or lost
      rw [List.forall_mem_cons] at hnext
      have hn := hnext.1
      have hnne := hn.nonempty
      have hnhi := hn.upper
      have hnfirst : n.first.toInt = s.last.toInt + 2 := by
        rw [← hjoin, ← hv, toInt_add_one (by have := hin.upper; omega)]
        omega
      refine ⟨List.forall_mem_cons.mpr ⟨within_mk hlow (by omega) hnhi, hnext.2⟩,
        fun w => ?_, ?_⟩
      · rw [held_cons_mk, held_cons s, held_cons n]
        split_ifs <;> omega
      · rw [sizes_cons, sizes_cons, sizes_cons, ← hjoin]
        grind
    · exact hadd

end Bounds

/-- What a free of `v` may make of the list `l`: it is found to hold `v` already, or `v` is
    added. -/
def FreeSpec (lo hi : Int) (v : Int64) (l : List Segment) (r : Option (List Segment)) : Prop :=
  (r = none ∧ 0 < held l v.toInt) ∨ ∃ l', r = some l' ∧ Adds lo hi v l l'

theorem FreeSpec.map_cons {r : Option (List Segment)} (h : FreeSpec lo hi v l r)
    (hs : s.Within lo hi) : FreeSpec lo hi v (s :: l) (r.map (s :: ·)) := by
  rcases h with ⟨rfl, hheld⟩ | ⟨l', rfl, hadds⟩
  · refine Or.inl ⟨rfl, ?_⟩
    rw [held_cons]
    omega
  · exact Or.inr ⟨s :: l', rfl, hadds.cons hs⟩

theorem eq_of_adjacentToTheFront (h : s.relativePosisionOf v = .adjacentToTheFront) :
    v = s.first - 1 := by
  unfold Segment.relativePosisionOf at h
  split_ifs at h with h1 h2
  exact h2

theorem eq_of_adjacentToTheBack (h : s.relativePosisionOf v = .adjacentToTheBack) :
    v = s.last + 1 := by
  unfold Segment.relativePosisionOf at h
  split_ifs at h with h1 h2 h3 h4
  exact h4

section Bounds

variable {lo hi : Int} (hin : Inner lo hi) {v : Int64} (hlo : lo ≤ v.toInt) (hhi : v.toInt ≤ hi)
include hin hlo hhi

omit hlo hhi in
theorem freeSpec_within {s : Segment} (hs : s.Within lo hi) (next : List Segment)
    (hpos : s.relativePosisionOf v = .withinThisSegment) :
    FreeSpec lo hi v (s :: next) none := by
  refine Or.inl ⟨rfl, ?_⟩
  rw [held_cons, if_pos ((relativePosisionOf_within_iff hin hs).mp hpos)]
  omega

theorem freeLoop_spec {segs : List Segment} (hne : segs ≠ [])
    (hsegs : ∀ s ∈ segs, s.Within lo hi) : FreeSpec lo hi v segs (freeLoop v segs) := by
  induction segs with
  | nil => exact absurd rfl hne
  | cons cur next ih =>
    obtain ⟨hcur, hnext⟩ := List.forall_mem_cons.mp hsegs
    unfold freeLoop
    cases hpos : cur.relativePosisionOf v with
    | before => exact Or.inr ⟨_, rfl, adds_newSingleSegment hlo hhi hsegs⟩
    | adjacentToTheFront =>
      exact Or.inr ⟨_, rfl, adds_extendFirst hin hcur hnext (eq_of_adjacentToTheFront hpos) hlo⟩
    | withinThisSegment => exact freeSpec_within hin hcur next hpos
    | adjacentToTheBack =>
      exact Or.inr ⟨_, rfl, adds_extendLast hin hcur hnext (eq_of_adjacentToTheBack hpos) hhi⟩
    | after =>
      cases next with
      | nil => exact Or.inr ⟨_, rfl, (adds_newSingleSegment hlo hhi hnext).cons hcur⟩
      | cons n next => exact (ih (List.cons_ne_nil n next) hnext).map_cons hcur

theorem freeInto_spec {segs : List Segment} (hsegs : ∀ s ∈ segs, s.Within lo hi) :
    FreeSpec lo hi v segs (freeInto v segs) := by
  cases segs with
  | nil => exact Or.inr ⟨_, rfl, adds_newSingleSegment hlo hhi hsegs⟩
  | cons h next =>
    obtain ⟨hh, hnext⟩ := List.forall_mem_cons.mp hsegs
    -- the value goes behind the head unless it touches the head's back
    have hbehind : FreeSpec lo hi v (h :: next) (freeBehind v h next) := by
      cases next with
      | nil => exact Or.inr ⟨_, rfl, (adds_newSingleSegment hlo hhi hnext).cons hh⟩
      | cons n next =>
        exact (freeLoop_spec hin hlo hhi (List.cons_ne_nil n next) hnext).map_cons hh
    unfold freeInto
    dsimp only
    cases hpos : h.relativePosisionOf v with
    | before => exact hbehind
    | adjacentToTheFront => exact hbehind
    | withinThisSegment => exact freeSpec_within hin hh next hpos
    | adjacentToTheBack =>
      exact Or.inr ⟨_, rfl, adds_extendLast hin hh hnext (eq_of_adjacentToTheBack hpos) hhi⟩
    | after => exact hbehind

end Bounds

/-! ## Reserve -/

/-- What `Reserve` leaves of one segment. -/
def cut (first last : Int64) (s : Segment) : List Segment :=
  if first ≤ s.first ∧ s.first ≤ last ∧ last < s.last then [⟨last + 1, s.last⟩]
  else if s.first < first ∧ first ≤ s.last ∧ s.last ≤ last then [⟨s.first, first - 1⟩]
  else if s.first < first ∧ last < s.last then [⟨s.first, first - 1⟩, ⟨last + 1, s.last⟩]
  else if first ≤ s.first ∧ s.last ≤ last then []
  else [s]

/-- What `Reserve` takes off the counter for one segment. -/
def taken (first last : Int64) (s : Segment) : Int64 :=
  if first ≤ s.first ∧ s.first ≤ last ∧ last < s.last then last - s.first + 1
  else if s.first < first ∧ first ≤ s.last ∧ s.last ≤ last then s.last - first + 1
  else if s.first < first ∧ last < s.last then last - first + 1
  else if first ≤ s.first ∧ s.last ≤ last then s.last - s.first + 1
  else 0

def takenAll (first last : Int64) (segs : List Segment) : Int64 :=
  (segs.map (taken first last)).sum

/-- A segment behind the range is passed over. -/
theorem reserveLoop_behind {a b : Int64} (hle : first ≤ last) (ha : last < a) (hb : last < b)
    (fuel : Nat) (next : List Segment) (remain : Int64) :
    reserveLoop first last (fuel + 1) (⟨a, b⟩ :: next) remain =
      (⟨a, b⟩ :: (reserveLoop first last fuel next remain).1,
        (reserveLoop first last fuel next remain).2) := by
  rw [Int64.le_iff_toInt_le] at hle
  rw [Int64.lt_iff_toInt_lt] at ha hb
  rw [reserveLoop]
  simp only [Int64.lt_iff_toInt_lt, Int64.le_iff_toInt_le]
  rw [if_neg (by omega), if_neg (by omega), if_neg (by omega), if_neg (by omega)]

theorem takenAll_cons (first last : Int64) (s : Segment) (segs : List Segment) :
    takenAll first last (s :: segs) = taken first last s + takenAll first last segs := by
  unfold takenAll
  rw [List.map_cons, List.sum_cons]

/-- One segment, and two turns of the loop at most. -/
theorem reserveLoop_cons (hle : first ≤ last) (cur : Segment) (next : List Segment) (fuel : Nat)
    (remain : Int64) :
    ∃ n, fuel ≤ n ∧ reserveLoop first last (fuel + 2) (cur :: next) remain =
      (cut first last cur ++
          (reserveLoop first last n next (remain - taken first last cur)).1,
        (reserveLoop first last n next (remain - taken first last cur)).2) := by
  rw [reserveLoop]
  unfold cut taken
  split_ifs with h1 h2 h3 h4
  · exact ⟨fuel + 1, Nat.le_succ fuel, rfl⟩
  · exact ⟨fuel + 1, Nat.le_succ fuel, rfl⟩
  · -- the second half of the segment takes one more turn
    have hsucc : last < last + 1 := by
      have hlt := Int64.lt_iff_toInt_lt.mp h3.2
      have hmax := cur.last.toInt_lt
      rw [Int64.lt_iff_toInt_lt, toInt_add_one (by omega)]
      omega
    refine ⟨fuel, Nat.le_refl fuel, ?_⟩
    rw [reserveLoop_behind hle hsucc h3.2]
    rfl
  · exact ⟨fuel + 1, Nat.le_succ fuel, rfl⟩
  · rw [Int64.sub_zero]
    exact ⟨fuel + 1, Nat.le_succ fuel, rfl⟩

/-- The loop ends, and has cut every segment. -/
theorem reserveLoop_eq (hle : first ≤ last) (segs : List Segment) (fuel : Nat)
    (hfuel : 2 * segs.length ≤ fuel) (remain : Int64) :
    reserveLoop first last fuel segs remain =
      (segs.flatMap (cut first last), remain - takenAll first last segs) := by
  induction segs generalizing fuel remain with
  | nil =>
    have hzero : remain - takenAll first last [] = remain := Int64.sub_zero remain
    rw [hzero]
    cases fuel with
    | zero => rfl
    | succ fuel => rfl
  | cons cur next ih =>
    rw [List.length_cons] at hfuel
    obtain ⟨m, rfl⟩ : ∃ m, fuel = m + 2 := ⟨fuel - 2, by omega⟩
    obtain ⟨n, hn, hloop⟩ := reserveLoop_cons hle cur next m remain
    have hsub (a b : Int64) : remain - a - b = remain - (a + b) := by grind
    rw [hloop, ih n (by omega), List.flatMap_cons, takenAll_cons, hsub]

section Bounds

variable {lo hi : Int} (hin : Inner lo hi) {first last : Int64} (hfirst : lo ≤ first.toInt)
  (hlast : last.toInt ≤ hi)
include hin hfirst hlast

/-- What is left of a segment: its numbers outside of the range. -/
theorem cut_spec {s : Segment} (hs : s.Within lo hi) (hle : first.toInt ≤ last.toInt)
    (rest : List Segment) :
    (∀ t ∈ cut first last s, t.Within lo hi) ∧
      (∀ w, held (cut first last s ++ rest) w =
        (if (s.first.toInt ≤ w ∧ w ≤ s.last.toInt) ∧ ¬ (first.toInt ≤ w ∧ w ≤ last.toInt)
          then 1 else 0) + held rest w) ∧
      sizes (cut first last s ++ rest) = sizes (s :: rest) - taken first last s := by
  have hlow := hs.lower
  have hne := hs.nonempty
  have hupp := hs.upper
  have hpred : (first - 1).toInt = first.toInt - 1 := toInt_sub_one (by have := hin.lower; omega)
  have hsucc : (last + 1).toInt = last.toInt + 1 := toInt_add_one (by have := hin.upper; omega)
  unfold cut taken
  split_ifs with h1 h2 h3 h4
  · simp only [Int64.lt_iff_toInt_lt, Int64.le_iff_toInt_le] at h1
    refine ⟨List.forall_mem_singleton.mpr (within_mk (by omega) (by omega) hupp), fun w => ?_, ?_⟩
    · rw [List.singleton_append, held_cons_mk, hsucc]
      split_ifs <;> omega
    · rw [List.singleton_append, sizes_cons, sizes_cons]
      grind
  · simp only [Int64.lt_iff_toInt_lt, Int64.le_iff_toInt_le] at h2
    refine ⟨List.forall_mem_singleton.mpr (within_mk hlow (by omega) (by omega)), fun w => ?_, ?_⟩
    · rw [List.singleton_append, held_cons_mk, hpred]
      split_ifs <;> omega
    · rw [List.singleton_append, sizes_cons, sizes_cons]
      grind
  · simp only [Int64.lt_iff_toInt_lt] at h3
    refine ⟨List.forall_mem_cons.mpr ⟨within_mk hlow (by omega) (by omega),
      List.forall_mem_singleton.mpr (within_mk (by omega) (by omega) hupp)⟩, fun w => ?_, ?_⟩
    · rw [List.cons_append, List.singleton_append, held_cons_mk, held_cons_mk, hpred, hsucc]
      split_ifs <;> omega
    · rw [List.cons_append, List.singleton_append, sizes_cons, sizes_cons, sizes_cons]
      grind
  · simp only [Int64.le_iff_toInt_le] at h4
    refine ⟨List.forall_mem_nil _, fun w => ?_, ?_⟩
    · rw [List.nil_append]
      split_ifs <;> omega
    · rw [List.nil_append, sizes_cons]
      grind
  · simp only [Int64.lt_iff_toInt_lt, Int64.le_iff_toInt_le] at h1 h2 h3 h4
    refine ⟨List.forall_mem_singleton.mpr hs, fun w => ?_, ?_⟩
    · rw [List.singleton_append, held_cons]
      split_ifs <;> omega
    · rw [List.singleton_append, Int64.sub_zero]

theorem flatMap_cut_spec {segs : List Segment} (hsegs : ∀ s ∈ segs, s.Within lo hi)
    (hle : first.toInt ≤ last.toInt) :
    (∀ t ∈ segs.flatMap (cut first last), t.Within lo hi) ∧
      (∀ w, held (segs.flatMap (cut first last)) w =
        if first.toInt ≤ w ∧ w ≤ last.toInt then 0 else held segs w) ∧
      sizes (segs.flatMap (cut first last)) = sizes segs - takenAll first last segs := by
  induction segs with
  | nil =>
    refine ⟨List.forall_mem_nil _, fun w => ?_, (Int64.sub_zero _).symm⟩
    rw [List.flatMap_nil, held_nil, ite_self]
  | cons s segs ih =>
    rw [List.forall_mem_cons] at hsegs
    obtain ⟨hwithin, hheld, hsizes⟩ := ih hsegs.2
    obtain ⟨hwithin', hheld', hsizes'⟩ := cut_spec hin hfirst hlast hsegs.1 hle
      (segs.flatMap (cut first last))
    rw [List.flatMap_cons]
    refine ⟨fun t ht => ?_, fun w => ?_, ?_⟩
    · rcases List.mem_append.mp ht with ht | ht
      · exact hwithin' t ht
      · exact hwithin t ht
    · rw [hheld', hheld, held_cons]
      split_ifs <;> omega
    · rw [hsizes', sizes_cons, sizes_cons, hsizes, takenAll_cons]
      grind

end Bounds

/-! ## Pools -/

namespace LazyReusePool

/-- The free numbers. -/
def freeSet (p : LazyReusePool) : Finset Int := valuesOf (spans p.head)

/-- The segments are not empty, disjoint and inside of the pool, and `remain` counts the free
    numbers. -/
structure Good (p : LazyReusePool) : Prop where
  nonempty : ∀ s ∈ p.head, s.first ≤ s.last
  disjoint : p.head.Pairwise fun s t => Disjoint s.span.values t.span.values
  inside : ∀ s ∈ p.head, p.first ≤ s.first ∧ s.last ≤ p.last
  remain : p.remain.toInt = p.freeSet.card

inductive Op where
  | allocate
  | use (value : Int64)
  | reserve (first last : Int64)
  | free (value : Int64)
  deriving DecidableEq, Repr

def apply (p : LazyReusePool) : Op → LazyReusePool
  | .allocate => p.allocate.1
  | .use v => (p.use v).1
  | .reserve a b => (p.reserve a b).1
  | .free v => (p.free v).1

def step (p : LazyReusePool) (op : Op) : Option LazyReusePool := some (p.apply op)

/-- Only numbers that are not free are freed. -/
def Legal (p : LazyReusePool) : Op → Prop
  | .free v => v.toInt ∉ p.freeSet
  | _ => True

/-- What an operation is to do to the set of free numbers. -/
def Meets (p : LazyReusePool) : Op → Prop
  | .allocate =>
    (p.allocate.2 = none ↔ p.freeSet = ∅) ∧
      ∀ v, p.allocate.2 = some v →
        v.toInt ∈ p.freeSet ∧ p.allocate.1.freeSet = p.freeSet.erase v.toInt
  | .use v =>
    ((p.use v).2 = true ↔ v.toInt ∈ p.freeSet) ∧
      (p.use v).1.freeSet = p.freeSet.erase v.toInt
  | .reserve a b =>
    p.contains a b = true → (p.reserve a b).2 = true ∧
      (p.reserve a b).1.freeSet = p.freeSet \ (Span.mk a.toInt b.toInt).values
  | .free v =>
    p.first ≤ v ∧ v ≤ p.last → (p.free v).2 = true ∧
      (p.free v).1.freeSet = insert v.toInt p.freeSet

/-! ### The invariant -/

structure Inv (p : LazyReusePool) : Prop where
  within : ∀ s ∈ p.head, s.Within p.first.toInt p.last.toInt
  once : ∀ v, held p.head v ≤ 1
  remain : p.remain = sizes p.head

variable {p : LazyReusePool} {first last : Int64}

theorem mem_freeSet {v : Int} : v ∈ p.freeSet ↔ 0 < held p.head v :=
  mem_valuesOf

theorem notMem_freeSet {v : Int} : v ∉ p.freeSet ↔ held p.head v = 0 :=
  notMem_valuesOf

theorem Inv.good (h : p.Inv) (hsize : p.last.toInt - p.first.toInt < 2 ^ 63 - 1) : p.Good := by
  have hne : ∀ s ∈ spans p.head, s.lo ≤ s.hi := by
    intro s hs
    obtain ⟨t, ht, rfl⟩ := List.mem_map.mp hs
    exact (h.within t ht).nonempty
  have hcard := card_valuesOf hne h.once
  refine ⟨fun s hs => ?_, ?_, fun s hs => ⟨?_, ?_⟩, ?_⟩
  · exact Int64.le_iff_toInt_le.mpr (h.within s hs).nonempty
  · have hpair := pairwise_disjoint_iff.mpr h.once
    rw [spans, List.pairwise_map] at hpair
    exact hpair
  · exact Int64.le_iff_toInt_le.mpr (h.within s hs).lower
  · exact Int64.le_iff_toInt_le.mpr (h.within s hs).upper
  · -- the free numbers are numbers of the pool, so their count is an `int`
    have hsub : p.freeSet ⊆ (Span.mk p.first.toInt p.last.toInt).values := by
      intro v hv
      obtain ⟨s, hs, hlo, hhi⟩ := exists_holds_of_mem hv
      obtain ⟨t, ht, rfl⟩ := List.mem_map.mp hs
      exact Span.mem_values.mpr
        ⟨(h.within t ht).lower.trans hlo, hhi.trans (h.within t ht).upper⟩
    have hle := Finset.card_le_card hsub
    rw [Span.card_values] at hle
    dsimp only at hle
    rw [h.remain, sizes, freeSet, hcard]
    have hcard' : (p.freeSet.card : Int) = sizeOfAll (spans p.head) := hcard
    exact Int64.toInt_ofInt_of_le (by omega) (by omega)

/-- A pool whose bounds have neighbours. -/
def InnerPool (p : LazyReusePool) : Prop := Inner p.first.toInt p.last.toInt

theorem Inv.removes (h : p.Inv) {v : Int64} {l : List Segment}
    (hl : Removes p.first.toInt p.last.toInt v p.head l) :
    ({ p with head := l, remain := p.remain - 1 } : LazyReusePool).Inv ∧ v.toInt ∈ p.freeSet ∧
      ({ p with head := l, remain := p.remain - 1 } : LazyReusePool).freeSet =
        p.freeSet.erase v.toInt := by
  refine ⟨⟨hl.within, fun w => ?_, ?_⟩, ?_, ?_⟩
  · have hw := hl.held w
    have honce := h.once w
    dsimp only
    omega
  · dsimp only
    rw [hl.sizes, h.remain]
  · have hv := hl.held v.toInt
    rw [if_pos rfl] at hv
    rw [mem_freeSet]
    omega
  · refine Finset.ext fun w => ?_
    have hw := hl.held w
    have honce := h.once w
    rw [Finset.mem_erase, mem_freeSet, mem_freeSet]
    dsimp only
    split_ifs at hw <;> omega

theorem Inv.adds (h : p.Inv) {v : Int64} {l : List Segment}
    (hl : Adds p.first.toInt p.last.toInt v p.head l) (hv : v.toInt ∉ p.freeSet) :
    ({ p with head := l, remain := p.remain + 1 } : LazyReusePool).Inv ∧
      ({ p with head := l, remain := p.remain + 1 } : LazyReusePool).freeSet =
        insert v.toInt p.freeSet := by
  rw [notMem_freeSet] at hv
  refine ⟨⟨hl.within, fun w => ?_, ?_⟩, ?_⟩
  · have hw := hl.held w
    have honce := h.once w
    dsimp only
    split_ifs at hw with heq
    · rw [heq] at hw ⊢
      omega
    · omega
  · dsimp only
    rw [hl.sizes, h.remain]
  · refine Finset.ext fun w => ?_
    have hw := hl.held w
    rw [Finset.mem_insert, mem_freeSet, mem_freeSet]
    dsimp only
    split_ifs at hw <;> omega

/-! ### The operations -/

section Ops

variable {p : LazyReusePool} (hin : p.InnerPool) (h : p.Inv)
include hin h

theorem Inv.allocate : p.allocate.1.Inv ∧ p.Meets .allocate := by
  cases hhead : p.head with
  | nil =>
    have hempty : p.freeSet = ∅ := by
      unfold freeSet
      rw [hhead]
      rfl
    have hres : p.allocate = (p, none) := by
      unfold LazyReusePool.allocate
      rw [hhead]
    unfold Meets
    dsimp only
    rw [hres]
    exact ⟨h, ⟨fun _ => hempty, fun _ => rfl⟩, nofun⟩
  | cons s next =>
    have hsegs := h.within
    rw [hhead, List.forall_mem_cons] at hsegs
    have hrem := removes_allocateFrom hin hsegs.1 hsegs.2
    rw [← hhead] at hrem
    obtain ⟨hinv, hmem, hset⟩ := h.removes hrem
    have hres : p.allocate =
        ({ p with head := allocateFrom s next, remain := p.remain - 1 }, some s.first) := by
      unfold LazyReusePool.allocate
      rw [hhead]
    unfold Meets
    dsimp only
    rw [hres]
    refine ⟨hinv, ⟨nofun, fun hempty => ?_⟩, fun v hv => ?_⟩
    · rw [hempty] at hmem
      exact absurd hmem (Finset.notMem_empty _)
    · cases hv
      exact ⟨hmem, hset⟩

theorem Inv.use (v : Int64) : (p.use v).1.Inv ∧ p.Meets (.use v) := by
  cases hloop : useLoop v p.head with
  | none =>
    have hnot : v.toInt ∉ p.freeSet := notMem_freeSet.mpr (held_of_useLoop_none hin h.within hloop)
    have hres : p.use v = (p, false) := by
      unfold LazyReusePool.use
      rw [hloop]
    unfold Meets
    dsimp only
    rw [hres]
    exact ⟨h, ⟨nofun, fun hmem => absurd hmem hnot⟩, (Finset.erase_eq_of_notMem hnot).symm⟩
  | some l =>
    obtain ⟨hinv, hmem, hset⟩ := h.removes (removes_of_useLoop_some hin h.within hloop)
    have hres : p.use v = ({ p with head := l, remain := p.remain - 1 }, true) := by
      unfold LazyReusePool.use
      rw [hloop]
    unfold Meets
    dsimp only
    rw [hres]
    exact ⟨hinv, ⟨fun _ => hmem, fun _ => rfl⟩, hset⟩

theorem Inv.reserve (a b : Int64) : (p.reserve a b).1.Inv ∧ p.Meets (.reserve a b) := by
  by_cases hcont : p.contains a b = true
  · have hbounds : a ≤ b ∧ p.first ≤ a ∧ b ≤ p.last := of_decide_eq_true hcont
    obtain ⟨hab, ha, hb⟩ := hbounds
    have hloop := reserveLoop_eq hab p.head _ (Nat.le_refl _) p.remain
    have hres : p.reserve a b = ({ p with
        head := p.head.flatMap (cut a b), remain := p.remain - takenAll a b p.head }, true) := by
      unfold LazyReusePool.reserve
      rw [if_pos hcont, hloop]
    rw [Int64.le_iff_toInt_le] at hab ha hb
    obtain ⟨hwithin, hheld, hsizes⟩ := flatMap_cut_spec hin ha hb h.within hab
    unfold Meets
    dsimp only
    rw [hres]
    refine ⟨⟨hwithin, fun w => ?_, ?_⟩, fun _ => ⟨rfl, Finset.ext fun w => ?_⟩⟩
    · have honce := h.once w
      dsimp only
      rw [hheld]
      split_ifs <;> omega
    · dsimp only
      rw [hsizes, h.remain]
    · rw [Finset.mem_sdiff, Span.mem_values, mem_freeSet, mem_freeSet]
      unfold Span.Holds
      dsimp only
      rw [hheld]
      split_ifs <;> omega
  · have hres : p.reserve a b = (p, false) := if_neg hcont
    unfold Meets
    dsimp only
    rw [hres]
    exact ⟨h, fun hc => absurd hc hcont⟩

theorem Inv.free (v : Int64) (hv : v.toInt ∉ p.freeSet) :
    (p.free v).1.Inv ∧ p.Meets (.free v) := by
  by_cases hrange : v < p.first ∨ p.last < v
  · have hres : p.free v = (p, false) := if_pos hrange
    unfold Meets
    dsimp only
    rw [hres]
    refine ⟨h, fun hmem => ?_⟩
    simp only [Int64.lt_iff_toInt_lt, Int64.le_iff_toInt_le] at hrange hmem
    omega
  · have hbounds := hrange
    simp only [Int64.lt_iff_toInt_lt] at hbounds
    rcases freeInto_spec hin (v := v) (by omega) (by omega) h.within with
      ⟨_, hheld⟩ | ⟨l, hinto, hadds⟩
    · exact absurd (mem_freeSet.mpr hheld) hv
    · obtain ⟨hinv, hset⟩ := h.adds hadds hv
      have hres : p.free v = ({ p with head := l, remain := p.remain + 1 }, true) := by
        unfold LazyReusePool.free
        rw [if_neg hrange, hinto]
      unfold Meets
      dsimp only
      rw [hres]
      exact ⟨hinv, fun _ => ⟨rfl, hset⟩⟩

theorem Inv.apply (op : Op) (hop : p.Legal op) : (p.apply op).Inv ∧ p.Meets op := by
  cases op with
  | allocate => exact Inv.allocate hin h
  | use v => exact Inv.use hin h v
  | reserve a b => exact Inv.reserve hin h a b
  | free v => exact Inv.free hin h v hop

end Ops

/-- The bounds of a pool never change. -/
theorem apply_bounds (p : LazyReusePool) (op : Op) :
    (p.apply op).first = p.first ∧ (p.apply op).last = p.last := by
  cases op with
  | allocate =>
    change p.allocate.1.first = _ ∧ p.allocate.1.last = _
    unfold LazyReusePool.allocate
    split
    · exact ⟨rfl, rfl⟩
    · exact ⟨rfl, rfl⟩
  | use v =>
    change (p.use v).1.first = _ ∧ (p.use v).1.last = _
    unfold LazyReusePool.use
    split
    · exact ⟨rfl, rfl⟩
    · exact ⟨rfl, rfl⟩
  | reserve a b =>
    change (p.reserve a b).1.first = _ ∧ (p.reserve a b).1.last = _
    unfold LazyReusePool.reserve
    split_ifs
    · exact ⟨rfl, rfl⟩
    · exact ⟨rfl, rfl⟩
  | free v =>
    change (p.free v).1.first = _ ∧ (p.free v).1.last = _
    unfold LazyReusePool.free
    split_ifs
    · exact ⟨rfl, rfl⟩
    · split
      · exact ⟨rfl, rfl⟩
      · exact ⟨rfl, rfl⟩

theorem newLazyReusePool_eq_ok (h : newLazyReusePool first last = .ok p) :
    first ≤ last ∧ p = ⟨[⟨first, last⟩], first, last, last - first + 1⟩ := by
  unfold newLazyReusePool at h
  split_ifs at h with hlt
  cases h
  refine ⟨?_, rfl⟩
  rw [Int64.lt_iff_toInt_lt] at hlt
  rw [Int64.le_iff_toInt_le]
  omega

theorem inv_new (hle : first ≤ last) :
    (⟨[⟨first, last⟩], first, last, last - first + 1⟩ : LazyReusePool).Inv := by
  rw [Int64.le_iff_toInt_le] at hle
  refine ⟨List.forall_mem_singleton.mpr (within_mk (Int.le_refl _) hle (Int.le_refl _)),
    fun v => ?_, ?_⟩
  · rw [held_cons_mk, held_nil]
    split_ifs <;> omega
  · rw [sizes_cons, sizes_nil]
    grind

/-! ### Runs -/

/-- In every run that frees only what is not free, the pool stays good and every operation
    does what it is to do. -/
def Right (p : LazyReusePool) : Prop :=
  ∀ ops q, RunMeets step Legal p ops → Run step p ops q →
    q.Good ∧ ∀ op, q.Legal op → q.Meets op

theorem right_of_inner (h : p.Inv) (hin : p.InnerPool)
    (hsize : p.last.toInt - p.first.toInt < 2 ^ 63 - 1) : p.Right := by
  intro ops q hlegal hrun
  have hq : (q.first = p.first ∧ q.last = p.last) ∧ q.Inv := by
    refine hlegal.inv (fun t => (t.first = p.first ∧ t.last = p.last) ∧ t.Inv)
      (fun t op t' hop hstep ht => ?_) hrun ⟨⟨rfl, rfl⟩, h⟩
    cases hstep
    have hb := t.apply_bounds op
    have htin : t.InnerPool := by
      unfold InnerPool
      rw [ht.1.1, ht.1.2]
      exact hin
    exact ⟨⟨hb.1.trans ht.1.1, hb.2.trans ht.1.2⟩, (Inv.apply htin ht.2 op hop).1⟩
  obtain ⟨⟨hfirst, hlast⟩, hinv⟩ := hq
  have hqin : q.InnerPool := by
    unfold InnerPool
    rw [hfirst, hlast]
    exact hin
  refine ⟨hinv.good ?_, fun op hop => (Inv.apply hqin hinv op hop).2⟩
  rw [hfirst, hlast]
  exact hsize

/-! ### Where the sums wrap -/

/-- A pool that is too large has no count. -/
theorem not_right_of_size (h : p.Inv) (hp : p.head = [⟨p.first, p.last⟩])
    (hsize : 2 ^ 63 - 1 ≤ p.last.toInt - p.first.toInt) : ¬ p.Right := by
  intro hright
  have hgood := (hright [] p trivial (Run.nil p)).1
  have hcard : (p.freeSet.card : Int) = sizeOfAll (spans p.head) := by
    refine card_valuesOf (fun s hs => ?_) h.once
    obtain ⟨t, ht, rfl⟩ := List.mem_map.mp hs
    exact (h.within t ht).nonempty
  have hmax := p.remain.toInt_lt
  rw [hgood.remain, hcard, hp] at hmax
  change (p.last.toInt - p.first.toInt + 1) + 0 < 2 ^ 63 at hmax
  omega

/-- With the least `int` in the pool, `Use` does not find it: its place before the first
    segment wraps to the largest `int`. -/
theorem not_right_of_min (hle : Int64.minValue ≤ last) :
    ¬ (⟨[⟨Int64.minValue, last⟩], Int64.minValue, last,
      last - Int64.minValue + 1⟩ : LazyReusePool).Right := by
  intro hright
  have hmeets := ((hright [] _ trivial (Run.nil _)).2 (.use Int64.minValue) trivial).1
  have hmem : Int64.minValue.toInt ∈ (⟨[⟨Int64.minValue, last⟩], Int64.minValue, last,
      last - Int64.minValue + 1⟩ : LazyReusePool).freeSet := by
    rw [mem_freeSet, held_cons_mk, if_pos ⟨Int.le_refl _, Int64.le_iff_toInt_le.mp hle⟩]
    omega
  have huse := hmeets.mpr hmem
  have hpos : (⟨Int64.minValue, last⟩ : Segment).relativePosisionOf Int64.minValue = .before :=
    if_pos (by decide : Int64.minValue < Int64.minValue - 1)
  unfold LazyReusePool.use useLoop at huse
  rw [hpos] at huse
  cases huse

/-- The pool whose last free number is the largest `int`, once that is allocated: the segment
    has grown to all `int`s. -/
theorem not_good_allocate_max (remain : Int64) (hfirst : Int64.minValue < first) :
    ¬ (⟨[⟨Int64.maxValue, Int64.maxValue⟩], first, Int64.maxValue, remain⟩ :
      LazyReusePool).allocate.1.Good := by
  intro hgood
  have hinside := (hgood.inside ⟨Int64.minValue, Int64.maxValue⟩ List.mem_cons_self).1
  change first ≤ Int64.minValue at hinside
  rw [Int64.le_iff_toInt_le] at hinside
  rw [Int64.lt_iff_toInt_lt] at hfirst
  omega

theorem reserve_all_but_max (remain : Int64) (hlt : first < Int64.maxValue) :
    ∃ remain', (⟨[⟨first, Int64.maxValue⟩], first, Int64.maxValue, remain⟩ :
        LazyReusePool).reserve first (Int64.maxValue - 1) =
      (⟨[⟨Int64.maxValue, Int64.maxValue⟩], first, Int64.maxValue, remain'⟩, true) := by
  have hpred : first ≤ Int64.maxValue - 1 := by
    have hmax : (Int64.maxValue - 1).toInt = Int64.maxValue.toInt - 1 := by decide
    rw [Int64.lt_iff_toInt_lt] at hlt
    rw [Int64.le_iff_toInt_le, hmax]
    omega
  have hcont : (⟨[⟨first, Int64.maxValue⟩], first, Int64.maxValue, remain⟩ :
      LazyReusePool).contains first (Int64.maxValue - 1) = true :=
    decide_eq_true
      ⟨hpred, Int64.le_refl first, (by decide : Int64.maxValue - 1 ≤ Int64.maxValue)⟩
  have hcut : cut first (Int64.maxValue - 1) ⟨first, Int64.maxValue⟩ =
      [⟨Int64.maxValue, Int64.maxValue⟩] :=
    if_pos ⟨Int64.le_refl first, hpred, (by decide : Int64.maxValue - 1 < Int64.maxValue)⟩
  refine ⟨remain - takenAll first (Int64.maxValue - 1) [⟨first, Int64.maxValue⟩], ?_⟩
  unfold LazyReusePool.reserve
  rw [if_pos hcont, reserveLoop_eq hpred _ _ (Nat.le_refl _), List.flatMap_cons, hcut]
  rfl

/-- With the largest `int` in the pool, its allocation as the last free number wraps. -/
theorem not_right_of_max (remain : Int64) (hfirst : Int64.minValue < first)
    (hle : first ≤ Int64.maxValue) :
    ¬ (⟨[⟨first, Int64.maxValue⟩], first, Int64.maxValue, remain⟩ : LazyReusePool).Right := by
  intro hright
  by_cases hsame : first = Int64.maxValue
  · refine not_good_allocate_max remain hfirst ?_
    refine (hright [.allocate] _ ⟨trivial, fun _ _ => trivial⟩ (Run.cons ?_ (Run.nil _))).1
    rw [hsame]
    rfl
  · obtain ⟨remain', hres⟩ := reserve_all_but_max remain (Int64.lt_of_le_of_ne hle hsame)
    have hstep : step ⟨[⟨first, Int64.maxValue⟩], first, Int64.maxValue, remain⟩
        (.reserve first (Int64.maxValue - 1)) =
        some ⟨[⟨Int64.maxValue, Int64.maxValue⟩], first, Int64.maxValue, remain'⟩ := by
      unfold step apply
      dsimp only
      rw [hres]
    refine not_good_allocate_max remain' hfirst ?_
    exact (hright [.reserve first (Int64.maxValue - 1), .allocate] _
      ⟨trivial, fun _ _ => ⟨trivial, fun _ _ => trivial⟩⟩
      (Run.cons hstep (Run.cons rfl (Run.nil _)))).1

/-- A new pool is right in every run exactly when neither bound is an end of `int` and its
    size is an `int`. -/
theorem right_iff {first last : Int64} {p : LazyReusePool}
    (hnew : newLazyReusePool first last = .ok p) :
    p.Right ↔ Int64.minValue < first ∧ last < Int64.maxValue ∧
      last.toInt - first.toInt + 1 ≤ Int64.maxValue.toInt := by
  obtain ⟨hle, rfl⟩ := newLazyReusePool_eq_ok hnew
  have hinv := inv_new hle
  have hmax : Int64.maxValue.toInt = 2 ^ 63 - 1 := by decide
  have hmin : Int64.minValue.toInt = -2 ^ 63 := by decide
  constructor
  · intro hright
    have hfirst : Int64.minValue < first := by
      by_contra hnot
      have hfirst : first = Int64.minValue := by
        have hlo := first.le_toInt
        rw [Int64.lt_iff_toInt_lt] at hnot
        exact Int64.toInt_inj.mp (by omega)
      subst hfirst
      exact not_right_of_min hle hright
    refine ⟨hfirst, ?_, ?_⟩
    · by_contra hnot
      have hlast : last = Int64.maxValue := by
        have hhi := last.toInt_lt
        rw [Int64.lt_iff_toInt_lt] at hnot
        exact Int64.toInt_inj.mp (by omega)
      subst hlast
      exact not_right_of_max _ hfirst hle hright
    · by_contra hnot
      exact not_right_of_size hinv rfl (by dsimp only; omega) hright
  · rintro ⟨hfirst, hlast, hsize⟩
    rw [Int64.lt_iff_toInt_lt] at hfirst hlast
    exact right_of_inner hinv ⟨by dsimp only; omega, by dsimp only; omega⟩ (by dsimp only; omega)

/-- A pool of IPv4 addresses. -/
theorem right_address_pool : ∃ p, newLazyReusePool 0x0a3c0001 0x0a3cfffe = .ok p ∧ p.Right :=
  ⟨_, rfl, (right_iff (rfl : newLazyReusePool 0x0a3c0001 0x0a3cfffe = .ok _)).mpr (by decide)⟩

/-- The pool of the largest `int` hands out that number, and then the least one. -/
theorem max_pool_hands_out_min :
    ∃ p, newLazyReusePool Int64.maxValue Int64.maxValue = .ok p ∧
      p.allocate.2 = some Int64.maxValue ∧ ¬ p.allocate.1.Good ∧
      p.allocate.1.allocate.2 = some Int64.minValue ∧ ¬ p.Right := by
  refine ⟨_, rfl, rfl, ?_, rfl, ?_⟩
  · exact not_good_allocate_max _ (by decide)
  · exact not_right_of_max _ (by decide) (by decide)

end LazyReusePool

end Free5gc.Smf.Pool
