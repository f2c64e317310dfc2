/-
  Go maps. A `map[K]V` is a finite map compared by its entries (Mathlib's `Finmap`), a
  `map[K]struct{}` is a `Finset`. Nothing in this file names the repository.

  `range` over a map visits every key once, in an order the language leaves open and that
  may differ from one loop to the next. A `RangeOrder` is a choice of all these orders:
  `keys t s` is the order of the `t`-th loop when the keys present are `s`. A statement
  proved for every `RangeOrder` holds for every iteration order.
-/
import Mathlib.Algebra.Ring.Nat
import Mathlib.Data.Finmap
import Mathlib.Data.List.Induction
import Mathlib.Data.List.Sort
import Mathlib.Data.Finset.Dedup

namespace Free5gc.Lib

/-! ## Maps -/

/-- A Go map with keys in `K` and values in `V`. -/
abbrev GoMap (K V : Type) := Finmap (fun _ : K => V)

namespace GoMap

variable {K V : Type} [DecidableEq K]

/-- `m[k] = f(m[k])` for a present key; an absent key changes nothing. This is how a
    method mutates an entry that the map holds by pointer. -/
def modify (m : GoMap K V) (k : K) (f : V → V) : GoMap K V :=
  match m.lookup k with
  | some v => m.insert k (f v)
  | none => m

variable {m : GoMap K V} {k : K} {v : V}

theorem lookup_insert_eq (m : GoMap K V) (k a : K) (v : V) :
    (m.insert k v).lookup a = if a = k then some v else m.lookup a := by
  split_ifs with h
  · subst h
    exact Finmap.lookup_insert m
  · exact Finmap.lookup_insert_of_ne m h

/-- What holds of the new entry and of every old one holds of every entry. -/
theorem forall_lookup_insert {P : K → V → Prop} (hnew : P k v)
    (hold : ∀ a w, m.lookup a = some w → P a w) :
    ∀ a w, (m.insert k v).lookup a = some w → P a w := by
  intro a w hw
  rw [lookup_insert_eq] at hw
  split_ifs at hw with e
  · rw [e, ← Option.some.inj hw]
    exact hnew
  · exact hold a w hw

theorem lookup_erase_eq (m : GoMap K V) (k a : K) :
    (m.erase k).lookup a = if a = k then none else m.lookup a := by
  split_ifs with h
  · subst h
    exact Finmap.lookup_erase a m
  · exact Finmap.lookup_erase_ne h

theorem lookup_of_erase {a : K} (h : (m.erase k).lookup a = some v) : m.lookup a = some v := by
  rw [lookup_erase_eq] at h
  split_ifs at h
  exact h

theorem lookup_modify (m : GoMap K V) (k a : K) (f : V → V) :
    (m.modify k f).lookup a = if a = k then (m.lookup a).map f else m.lookup a := by
  unfold modify
  split
  · rename_i v hv
    rw [lookup_insert_eq]
    split_ifs with h
    · rw [h, hv]
      rfl
    · rfl
  · rename_i hv
    split_ifs with h
    · rw [h, hv]
      rfl
    · rfl

/-- Deleting a key and storing what it held gives the map back. -/
theorem insert_erase_self (h : m.lookup k = some v) : (m.erase k).insert k v = m := by
  apply Finmap.ext_lookup
  intro a
  rw [lookup_insert_eq, lookup_erase_eq]
  split_ifs with ha
  · rw [ha, h]
  · rfl

theorem keys_insert (m : GoMap K V) (k : K) (v : V) : (m.insert k v).keys = insert k m.keys := by
  ext a
  rw [Finset.mem_insert, Finmap.mem_keys, Finmap.mem_keys, Finmap.mem_insert]

theorem keys_erase (m : GoMap K V) (k : K) : (m.erase k).keys = m.keys.erase k := by
  ext a
  rw [Finset.mem_erase, Finmap.mem_keys, Finmap.mem_keys, Finmap.mem_erase]

end GoMap

/-! ## Iteration orders -/

theorem toNat32_injective : Function.Injective UInt32.toNat := fun _ _ h => UInt32.toNat_inj.mp h

theorem toNat16_injective : Function.Injective UInt16.toNat := fun _ _ h => UInt16.toNat_inj.mp h

theorem toNat8_injective : Function.Injective UInt8.toNat := fun _ _ h => UInt8.toNat_inj.mp h

/-- A choice of iteration orders for maps with keys in `K`: the `t`-th `range` loop over a
    map with key set `s` visits `keys t s`, which lists `s` without repetition. -/
structure RangeOrder (K : Type) [DecidableEq K] where
  keys : Nat → Finset K → List K
  nodup : ∀ t s, (keys t s).Nodup
  mem_keys : ∀ t s k, k ∈ keys t s ↔ k ∈ s

namespace RangeOrder

variable {K : Type} [DecidableEq K]

attribute [simp] mem_keys

/-- The order by increasing value of an injective code: one computable `RangeOrder`, used
    to run the model on a concrete input. -/
def ofCode (f : K → Nat) (hf : Function.Injective f) : RangeOrder K :=
  let r : K → K → Prop := fun a b => f a ≤ f b
  haveI : Std.Antisymm r := ⟨fun _ _ h₁ h₂ => hf (Nat.le_antisymm h₁ h₂)⟩
  haveI : IsTrans K r := ⟨fun _ _ _ h₁ h₂ => Nat.le_trans h₁ h₂⟩
  haveI : Std.Total r := ⟨fun a b => Nat.le_total (f a) (f b)⟩
  let sorted : Multiset K → List K := fun s =>
    Quot.liftOn s (List.insertionSort r) fun l₁ l₂ h =>
      List.Perm.eq_of_pairwise' (List.pairwise_insertionSort r l₁)
        (List.pairwise_insertionSort r l₂)
        ((List.perm_insertionSort r l₁).trans (h.trans (List.perm_insertionSort r l₂).symm))
  have perm : ∀ s : Finset K, (sorted s.val : Multiset K) = s.val := by
    intro s
    refine Quot.inductionOn s.val fun l => ?_
    exact Quot.sound (List.perm_insertionSort r l)
  { keys := fun _ s => sorted s.val
    nodup := by
      intro _ s
      rw [← Multiset.coe_nodup, perm]
      exact s.nodup
    mem_keys := by
      intro _ s k
      rw [← Multiset.mem_coe, perm]
      rfl }

end RangeOrder

end Free5gc.Lib
