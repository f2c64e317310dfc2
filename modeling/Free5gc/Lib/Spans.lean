/-
  Lists of spans of integers, in any order. `cover l v` is the number of spans that hold `v`.
  The spans are disjoint when it is at most 1 everywhere, and what an operation does to the
  set of the list's values is read off what it does to `cover`. Nothing in this file names
  the repository.
-/
import Mathlib.Algebra.Ring.Int.Defs
import Mathlib.Data.Finset.Card
import Mathlib.Data.Finset.Image

namespace Free5gc.Lib

/-- The integers from `lo` to `hi`. -/
structure Span where
  lo : Int
  hi : Int
  deriving DecidableEq, Repr

namespace Span

def values (s : Span) : Finset Int :=
  (Finset.range (s.hi + 1 - s.lo).toNat).image fun k : Nat => s.lo + k

def Holds (s : Span) (v : Int) : Prop := s.lo ≤ v ∧ v ≤ s.hi

instance (s : Span) (v : Int) : Decidable (s.Holds v) := inferInstanceAs (Decidable (_ ∧ _))

theorem mem_values {s : Span} {v : Int} : v ∈ s.values ↔ s.Holds v := by
  unfold values Holds
  rw [Finset.mem_image]
  constructor
  · rintro ⟨k, hk, rfl⟩
    rw [Finset.mem_range] at hk
    omega
  · rintro ⟨hlo, hhi⟩
    refine ⟨(v - s.lo).toNat, ?_, ?_⟩
    · rw [Finset.mem_range]
      omega
    · omega

theorem card_values (s : Span) : s.values.card = (s.hi + 1 - s.lo).toNat := by
  unfold values
  rw [Finset.card_image_of_injective, Finset.card_range]
  intro j k hjk
  dsimp only at hjk
  omega

def size (s : Span) : Int := s.hi - s.lo + 1

end Span

/-- The number of spans that hold `v`. -/
def cover (l : List Span) (v : Int) : Nat := l.countP (fun s => s.Holds v)

/-- The values of all spans. -/
def valuesOf (l : List Span) : Finset Int := l.foldr (fun s F => s.values ∪ F) ∅

/-- The sizes of all spans, added. -/
def sizeOfAll (l : List Span) : Int := (l.map Span.size).sum

variable {l : List Span} {v : Int}

@[simp] theorem cover_cons (s : Span) (l : List Span) (v : Int) :
    cover (s :: l) v = (if s.Holds v then 1 else 0) + cover l v := by
  unfold cover
  rw [List.countP_cons, Nat.add_comm]
  simp only [decide_eq_true_eq]

@[simp] theorem sizeOfAll_cons (s : Span) (l : List Span) :
    sizeOfAll (s :: l) = s.size + sizeOfAll l := by
  unfold sizeOfAll
  rw [List.map_cons, List.sum_cons]

theorem mem_valuesOf : v ∈ valuesOf l ↔ 0 < cover l v := by
  induction l with
  | nil => exact ⟨fun h => absurd h (Finset.notMem_empty v), fun h => absurd h (Nat.lt_irrefl 0)⟩
  | cons s l ih =>
    rw [cover_cons]
    change v ∈ s.values ∪ valuesOf l ↔ _
    rw [Finset.mem_union, Span.mem_values, ih]
    split_ifs with hs
    · exact ⟨fun _ => by omega, fun _ => Or.inl hs⟩
    · exact ⟨fun h => by rcases h with h | h; exacts [absurd h hs, by omega],
        fun h => Or.inr (by omega)⟩

theorem exists_holds_of_mem (h : v ∈ valuesOf l) : ∃ s ∈ l, s.Holds v := by
  obtain ⟨s, hs, hv⟩ := List.countP_pos_iff.mp (mem_valuesOf.mp h)
  exact ⟨s, hs, of_decide_eq_true hv⟩

theorem notMem_valuesOf : v ∉ valuesOf l ↔ cover l v = 0 := by
  rw [mem_valuesOf]
  omega

/-- Spans are disjoint when no value is held twice. -/
theorem pairwise_disjoint_iff :
    l.Pairwise (fun s t => Disjoint s.values t.values) ↔ ∀ v, cover l v ≤ 1 := by
  induction l with
  | nil => exact ⟨fun _ v => Nat.zero_le 1, fun _ => List.Pairwise.nil⟩
  | cons s l ih =>
    have hhead : (∀ t ∈ l, Disjoint s.values t.values) ↔ ∀ v, s.Holds v → cover l v = 0 := by
      constructor
      · intro h v hv
        rw [cover, List.countP_eq_zero]
        intro t ht hvt
        exact (Finset.disjoint_left.mp (h t ht)) (Span.mem_values.mpr hv)
          (Span.mem_values.mpr (of_decide_eq_true hvt))
      · intro h t ht
        refine Finset.disjoint_left.mpr fun v hs hvt => ?_
        have hzero := h v (Span.mem_values.mp hs)
        rw [cover, List.countP_eq_zero] at hzero
        exact hzero t ht (decide_eq_true (Span.mem_values.mp hvt))
    rw [List.pairwise_cons, ih, hhead]
    constructor
    · rintro ⟨hs, hl⟩ v
      have hlv := hl v
      rw [cover_cons]
      split_ifs with hv
      · rw [hs v hv]
      · omega
    · intro h
      refine ⟨fun v hv => ?_, fun v => ?_⟩
      · have hv' := h v
        rw [cover_cons, if_pos hv] at hv'
        omega
      · have hv' := h v
        rw [cover_cons] at hv'
        omega

/-- Disjoint spans have as many values as their sizes say. -/
theorem card_valuesOf (hne : ∀ s ∈ l, s.lo ≤ s.hi) (h : ∀ v, cover l v ≤ 1) :
    ((valuesOf l).card : Int) = sizeOfAll l := by
  induction l with
  | nil => rfl
  | cons s l ih =>
    rw [List.forall_mem_cons] at hne
    have hl : ∀ v, cover l v ≤ 1 := fun v => by
      have hv := h v
      rw [cover_cons] at hv
      omega
    have hdisj : Disjoint s.values (valuesOf l) := by
      refine Finset.disjoint_left.mpr fun v hs hv => ?_
      have hcover := h v
      rw [cover_cons, if_pos (Span.mem_values.mp hs)] at hcover
      have hpos := mem_valuesOf.mp hv
      omega
    have hsize : (s.values.card : Int) = s.size := by
      rw [s.card_values]
      unfold Span.size
      omega
    change ((s.values ∪ valuesOf l).card : Int) = _
    rw [Finset.card_union_of_disjoint hdisj, sizeOfAll_cons, ← hsize, ← ih hne.2 hl]
    exact Int.natCast_add _ _

end Free5gc.Lib
