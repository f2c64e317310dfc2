/-
  Go's `int` on a 64-bit machine: sums and differences that do not leave its range are those
  of the integers, and conversions from and to 32 bits keep the numbers that both have.
  Nothing in this file names the repository.
-/
import Mathlib.Algebra.Ring.Int.Defs
import Mathlib.Algebra.Ring.Nat
import Mathlib.Data.List.Basic

namespace Free5gc.Lib

variable {x : Int64}

theorem toInt_add_of_mem_range {y : Int64} (hlo : -2 ^ 63 ≤ x.toInt + y.toInt)
    (hhi : x.toInt + y.toInt < 2 ^ 63) : (x + y).toInt = x.toInt + y.toInt := by
  rw [Int64.toInt_add]
  exact Int.bmod_eq_of_le (by omega) (by omega)

theorem toInt_sub_of_mem_range {y : Int64} (hlo : -2 ^ 63 ≤ x.toInt - y.toInt)
    (hhi : x.toInt - y.toInt < 2 ^ 63) : (x - y).toInt = x.toInt - y.toInt := by
  rw [Int64.toInt_sub]
  exact Int.bmod_eq_of_le (by omega) (by omega)

theorem toInt_add_one (h : x.toInt < 2 ^ 63 - 1) : (x + 1).toInt = x.toInt + 1 := by
  have hx := x.le_toInt
  exact toInt_add_of_mem_range (y := 1) (by rw [Int64.toInt_one]; omega)
    (by rw [Int64.toInt_one]; omega)

theorem toInt_sub_one (h : -2 ^ 63 < x.toInt) : (x - 1).toInt = x.toInt - 1 := by
  have hx := x.toInt_lt
  exact toInt_sub_of_mem_range (y := 1) (by rw [Int64.toInt_one]; omega)
    (by rw [Int64.toInt_one]; omega)

/-- A number of 64 bits read with a sign. -/
theorem toInt_toInt64 (x : UInt64) :
    x.toInt64.toInt = if x.toNat < 2 ^ 63 then (x.toNat : Int) else x.toNat - 2 ^ 64 := by
  have hint : x.toInt64.toInt = x.toBitVec.toInt := rfl
  have hnat : x.toNat = x.toBitVec.toNat := rfl
  rw [hint, hnat, BitVec.toInt_eq_toNat_cond]
  split_ifs <;> omega

theorem toInt_toInt64_of_lt {x : UInt64} (h : x.toNat < 2 ^ 63) : x.toInt64.toInt = x.toNat := by
  rw [toInt_toInt64, if_pos h]

theorem toInt_toInt64_toUInt64 (x : UInt32) : x.toUInt64.toInt64.toInt = x.toNat := by
  have hx := x.toNat_lt
  have hnat : x.toUInt64.toNat = x.toNat := UInt32.toNat_toUInt64 x
  rw [toInt_toInt64_of_lt (by omega), hnat]

theorem toNat_toUInt64 (i : Int64) :
    (i.toUInt64.toNat : Int) = if 0 ≤ i.toInt then i.toInt else i.toInt + 2 ^ 64 := by
  have hint : i.toInt = i.toBitVec.toInt := rfl
  have hnat : i.toUInt64.toNat = i.toBitVec.toNat := rfl
  have hlt := i.toBitVec.isLt
  rw [hint, hnat, BitVec.toInt_eq_toNat_cond]
  split_ifs <;> omega

theorem toNat_toUInt64_of_nonneg {i : Int64} (h : 0 ≤ i.toInt) :
    (i.toUInt64.toNat : Int) = i.toInt := by
  rw [toNat_toUInt64, if_pos h]

theorem toNat_toUInt64_of_neg {i : Int64} (h : i.toInt < 0) :
    (i.toUInt64.toNat : Int) = i.toInt + 2 ^ 64 := by
  rw [toNat_toUInt64, if_neg (Int.not_le.mpr h)]

theorem toInt_toInt32_of_lt {x : UInt32} (h : x.toNat < 2 ^ 31) : x.toInt32.toInt = x.toNat :=
  calc x.toInt32.toInt = (UInt32.ofNat x.toNat).toInt32.toInt := by rw [UInt32.ofNat_toNat]
    _ = (Int32.ofNat x.toNat).toInt := by rw [UInt32.toInt32_ofNat']
    _ = x.toNat := Int32.toInt_ofNat_of_lt h

/-- A number of 64 bits cut to 32 bits and read with a sign. -/
theorem toInt_toInt32_toUInt32 (x : UInt64) :
    x.toUInt32.toInt32.toInt = Int.bmod (x.toNat : Int) (2 ^ 32) := by
  have hint : x.toUInt32.toInt32.toInt = x.toUInt32.toBitVec.toInt := rfl
  have hnat : x.toUInt32.toBitVec.toNat = x.toNat % 2 ^ 32 := UInt64.toNat_toUInt32 x
  rw [hint, BitVec.toInt_eq_toNat_bmod, hnat]
  exact Int.emod_bmod (x.toNat : Int) (2 ^ 32)

theorem toInt_toInt32_toUInt32_eq_iff (x : UInt64) :
    x.toUInt32.toInt32.toInt = x.toNat ↔ x.toNat < 2 ^ 31 := by
  rw [toInt_toInt32_toUInt32]
  constructor
  · intro h
    have := Int.bmod_lt (x := (x.toNat : Int)) (m := 2 ^ 32) (by decide)
    omega
  · intro h
    exact Int.bmod_eq_of_le (by omega) (by omega)

theorem toInt_toInt32_toUInt32_eq_zero_iff (x : UInt64) :
    x.toUInt32.toInt32.toInt = 0 ↔ x.toNat % 2 ^ 32 = 0 := by
  rw [toInt_toInt32_toUInt32]
  unfold Int.bmod
  dsimp only
  split <;> omega

theorem toNat_toUInt32_injective : Function.Injective fun x : Int32 => x.toUInt32.toNat := by
  intro x y h
  rw [← Int32.toInt32_toUInt32 x, UInt32.toNat_inj.mp h, Int32.toInt32_toUInt32]

theorem toNat_toUInt32_of_pos {r : Int32} (h : 0 < r) : r.toUInt32.toNat < 2 ^ 31 := by
  have hpos := Int32.lt_iff_toInt_lt.mp h
  have hint : r.toInt = r.toBitVec.toInt := rfl
  have hnat : r.toUInt32.toNat = r.toBitVec.toNat := rfl
  rw [hint, BitVec.toInt_eq_toNat_cond, Int32.toInt_zero] at hpos
  rw [hnat]
  split_ifs at hpos <;> omega

end Free5gc.Lib
