/-
  A generator of numbers, as its users know it: it gives out a number of its range that it has not
  given out before. Which one is left open. Nothing in this file names the repository.
-/
import Mathlib.Order.Interval.Finset.Nat

namespace Free5gc.Lib

class IDGenerator (G : Type) where
  newGenerator (minValue maxValue : Nat) : G
  allocate : G → Option (Nat × G)
  /-- the numbers that are left -/
  free : G → Finset Nat
  free_new (minValue maxValue : Nat) :
    free (newGenerator minValue maxValue) = Finset.Icc minValue maxValue
  allocate_eq_some {g g' : G} {id : Nat} :
    allocate g = some (id, g') → id ∈ free g ∧ free g' = (free g).erase id

theorem IDGenerator.free_subset {G : Type} [IDGenerator G] {g g' : G} {id : Nat}
    (h : allocate g = some (id, g')) : free g' ⊆ free g := by
  rw [(allocate_eq_some h).2]
  exact Finset.erase_subset _ _

/-- The next number and the last one. -/
structure Counter where
  next : Nat
  last : Nat

instance : IDGenerator Counter where
  newGenerator := Counter.mk
  allocate g := if g.next ≤ g.last then some (g.next, { g with next := g.next + 1 }) else none
  free g := Finset.Icc g.next g.last
  free_new _ _ := rfl
  allocate_eq_some {g g' id} h := by
    split_ifs at h with hle
    cases h
    refine ⟨Finset.left_mem_Icc.mpr hle, ?_⟩
    ext n
    simp only [Finset.mem_erase, Finset.mem_Icc]
    omega

end Free5gc.Lib
