/-
  Slot tables recycled through a free list. A table is a list of slots, `none` for an empty
  one, with a list of the empty slots' numbers, counted from 1. `FreeExact` says that the
  free list is exact: no number twice, and the numbers of the empty slots and no others.

  One lemma for each thing a table's owner does: open a slot taken from the free list, grow
  the table, overwrite a used slot, empty a used slot.
-/
import Mathlib.Data.List.Nodup
import Mathlib.Data.List.Basic

namespace Free5gc.Lib

variable {α : Type}

/-- The free list holds each empty slot's number (counted from 1) once, and nothing else. -/
def FreeExact (slots : List (Option α)) (free : List Nat) : Prop :=
  free.Nodup ∧ ∀ i, i ∈ free ↔ ∃ j, i = j + 1 ∧ slots[j]? = some none

variable {slots : List (Option α)} {free : List Nat} {j : Nat}

theorem freeExact_nil : FreeExact ([] : List (Option α)) [] := by
  refine ⟨List.nodup_nil, fun i => ?_⟩
  simp

/-- The slot that a number of the free list names is empty. -/
theorem FreeExact.slot_of_mem (h : FreeExact slots free) (hj : j + 1 ∈ free) :
    slots[j]? = some none := by
  obtain ⟨k, hk, hs⟩ := (h.2 (j + 1)).mp hj
  rw [Nat.succ.inj hk]
  exact hs

/-- No number of the free list is 0. -/
theorem FreeExact.pos_of_mem (h : FreeExact slots free) {i : Nat} (hi : i ∈ free) :
    ∃ j, i = j + 1 := by
  obtain ⟨j, rfl, _⟩ := (h.2 i).mp hi
  exact ⟨j, rfl⟩

/-- Taking the last free number and filling its slot keeps the free list exact. -/
theorem FreeExact.take {fs : List Nat} (h : FreeExact slots (fs ++ [j + 1])) (a : α) :
    FreeExact (slots.set j (some a)) fs := by
  have hnd := List.nodup_append.mp h.1
  have hslot : slots[j]? = some none := h.slot_of_mem (by simp)
  have hlt : j < slots.length := (List.getElem?_eq_some_iff.mp hslot).1
  refine ⟨hnd.1, fun i => ?_⟩
  constructor
  · intro hi
    obtain ⟨k, rfl, hk⟩ := (h.2 i).mp (List.mem_append_left _ hi)
    refine ⟨k, rfl, ?_⟩
    have hne : j ≠ k := by
      intro e
      subst e
      exact hnd.2.2 (j + 1) hi (j + 1) (by simp) rfl
    rw [List.getElem?_set_ne hne]
    exact hk
  · rintro ⟨k, rfl, hk⟩
    have hne : j ≠ k := by
      intro e
      subst e
      rw [List.getElem?_set_self hlt] at hk
      simp at hk
    rw [List.getElem?_set_ne hne] at hk
    have hm := (h.2 (k + 1)).mpr ⟨k, rfl, hk⟩
    rcases List.mem_append.mp hm with hm | hm
    · exact hm
    · rw [List.mem_singleton] at hm
      exact absurd (Nat.succ.inj hm).symm hne

/-- Growing a full table by one used slot keeps the free list exact. -/
theorem FreeExact.grow (h : FreeExact slots []) (a : α) : FreeExact (slots ++ [some a]) [] := by
  refine ⟨List.nodup_nil, fun i => ?_⟩
  constructor
  · intro hi
    simp at hi
  · rintro ⟨k, rfl, hk⟩
    rcases Nat.lt_or_ge k slots.length with hlt | hge
    · rw [List.getElem?_append_left hlt] at hk
      exact (h.2 (k + 1)).mpr ⟨k, rfl, hk⟩
    · rw [List.getElem?_append_right hge] at hk
      rcases Nat.eq_zero_or_pos (k - slots.length) with h0 | h0
      · rw [h0] at hk
        simp at hk
      · have hle : [some a].length ≤ k - slots.length := h0
        rw [List.getElem?_eq_none hle] at hk
        simp at hk

/-- Overwriting a used slot with a used slot keeps the free list exact. -/
theorem FreeExact.overwrite {a : α} (h : FreeExact slots free) (hj : slots[j]? = some (some a))
    (b : α) : FreeExact (slots.set j (some b)) free := by
  have hlt : j < slots.length := (List.getElem?_eq_some_iff.mp hj).1
  refine ⟨h.1, fun i => (h.2 i).trans ?_⟩
  refine exists_congr fun k => and_congr_right fun _ => ?_
  rcases eq_or_ne j k with rfl | hne
  · rw [List.getElem?_set_self hlt, hj]
    simp
  · rw [List.getElem?_set_ne hne]

/-- Emptying a used slot and appending its number keeps the free list exact. -/
theorem FreeExact.release {a : α} (h : FreeExact slots free) (hj : slots[j]? = some (some a)) :
    FreeExact (slots.set j none) (free ++ [j + 1]) := by
  have hlt : j < slots.length := (List.getElem?_eq_some_iff.mp hj).1
  have hnot : j + 1 ∉ free := by
    intro hm
    rw [h.slot_of_mem hm] at hj
    simp at hj
  refine ⟨?_, fun i => ?_⟩
  · refine List.nodup_append.mpr ⟨h.1, List.nodup_singleton _, ?_⟩
    intro x hx y hy e
    rw [List.mem_singleton] at hy
    exact hnot (hy ▸ e ▸ hx)
  · rw [List.mem_append, List.mem_singleton, h.2 i]
    constructor
    · rintro (⟨k, rfl, hk⟩ | rfl)
      · refine ⟨k, rfl, ?_⟩
        have hne : j ≠ k := by
          intro e
          rw [← e, hj] at hk
          simp at hk
        rw [List.getElem?_set_ne hne]
        exact hk
      · exact ⟨j, rfl, List.getElem?_set_self hlt⟩
    · rintro ⟨k, rfl, hk⟩
      rcases eq_or_ne j k with rfl | hne
      · exact Or.inr rfl
      · rw [List.getElem?_set_ne hne] at hk
        exact Or.inl ⟨k, rfl, hk⟩

end Free5gc.Lib
