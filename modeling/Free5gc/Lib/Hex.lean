/-
  Hexadecimal texts, as Go's `encoding/hex` writes and reads them. Nothing in this file names the
  repository.
-/
import Mathlib.Data.UInt

namespace Free5gc.Lib

def hexDigit (c : Char) : Option UInt8 :=
  if c.isDigit then some (UInt8.ofNat (c.toNat - '0'.toNat))
  else if 'a' ≤ c ∧ c ≤ 'f' then some (UInt8.ofNat (c.toNat - 'a'.toNat + 10))
  else if 'A' ≤ c ∧ c ≤ 'F' then some (UInt8.ofNat (c.toNat - 'A'.toNat + 10))
  else none

/-- `hex.DecodeString`, without its error. -/
def decodeHex : List Char → Option (List UInt8)
  | [] => some []
  | [_] => none
  | a :: b :: cs => do
    let high ← hexDigit a
    let low ← hexDigit b
    let rest ← decodeHex cs
    some ((high <<< 4 ||| low) :: rest)

/-- The digit of the low half of a byte. -/
def hexChar (b : UInt8) : Char := "0123456789abcdef".toList.getD (b &&& 15).toNat '0'

/-- `hex.EncodeToString`. -/
def encodeHex (bytes : List UInt8) : List Char :=
  bytes.flatMap fun (b : UInt8) => [hexChar (b >>> 4), hexChar b]

theorem length_encodeHex (bytes : List UInt8) : (encodeHex bytes).length = 2 * bytes.length := by
  simp [encodeHex, Nat.mul_comm]

theorem hexDigit_digits (n : Fin 16) :
    hexDigit ("0123456789abcdef".toList.getD n.val '0') = some (UInt8.ofNat n.val) := by
  revert n
  decide

theorem hexDigit_hexChar (b : UInt8) : hexDigit (hexChar b) = some (b &&& 15) := by
  have h : (b &&& 15).toNat < 16 := by
    rw [UInt8.toNat_and]
    exact Nat.lt_of_le_of_lt Nat.and_le_right (by decide)
  unfold hexChar
  simpa using hexDigit_digits ⟨_, h⟩

theorem halves_of_bits : ∀ v : BitVec 8, ((v >>> 4) &&& 15) <<< 4 ||| (v &&& 15) = v := by
  decide +kernel

theorem halves (b : UInt8) : ((b >>> 4) &&& 15) <<< 4 ||| (b &&& 15) = b :=
  UInt8.toBitVec_inj.mp (by simpa using halves_of_bits b.toBitVec)

theorem decodeHex_encodeHex (bytes : List UInt8) : decodeHex (encodeHex bytes) = some bytes := by
  induction bytes with
  | nil => rfl
  | cons b bytes ih =>
    have hcons : encodeHex (b :: bytes) = hexChar (b >>> 4) :: hexChar b :: encodeHex bytes := rfl
    rw [hcons, decodeHex, hexDigit_hexChar, hexDigit_hexChar, ih]
    simp [halves]

theorem mem_digits_of_isDigit {c : Char} (h : c.isDigit = true) :
    c ∈ ['0', '1', '2', '3', '4', '5', '6', '7', '8', '9'] := by
  unfold Char.isDigit at h
  rw [Bool.and_eq_true, decide_eq_true_eq, decide_eq_true_eq] at h
  have hlow : 48 ≤ c.toNat := h.1
  have hhigh : c.toNat ≤ 57 := h.2
  rw [← Char.ofNat_toNat c]
  generalize c.toNat = n at hlow hhigh
  obtain rfl | rfl | rfl | rfl | rfl | rfl | rfl | rfl | rfl | rfl : n = 48 ∨ n = 49 ∨ n = 50 ∨
      n = 51 ∨ n = 52 ∨ n = 53 ∨ n = 54 ∨ n = 55 ∨ n = 56 ∨ n = 57 := by omega
  all_goals decide

end Free5gc.Lib
