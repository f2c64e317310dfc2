/-
  The contents of integers and bit strings (`cdr/asn`).

  `int64Encoder` writes two's complement in as few octets as it takes. `parseInt64` puts the octets
  together without regard to the sign of the first: a negative number comes back only from all
  eight of them (`integer_roundTrip_iff`).

  `bitStringEncoder` gives the bits that are unused in the last octet as 8 less the remainder, also
  where there is none (`bitString_roundTrip_iff`).
-/
import Free5gc.Chf.Asn.Encoders

namespace Free5gc.Chf.Asn

open Free5gc.Lib

/-! ## Integers -/

variable {i : Int64}

theorem twosComplement_int64Bytes (i : Int64) : twosComplement (int64Bytes i) = i.toInt := by
  obtain ⟨n, hlen, hn, ⟨hlo, hhi⟩, _⟩ := int64Len_spec i
  obtain ⟨c, hc⟩ := toNat_eq_add i hn
  unfold int64Bytes
  rw [hlen]
  exact twosComplement_beBytes hlo hhi hc

theorem length_int64Bytes (i : Int64) : (int64Bytes i).length = int64Len i.toInt :=
  length_beBytes _ _

theorem length_int64Bytes_le {bs : List UInt8} (hne : bs ≠ []) (h : twosComplement bs = i.toInt) :
    (int64Bytes i).length ≤ bs.length := by
  obtain ⟨n, hlen, _, _, hleast⟩ := int64Len_spec i
  obtain ⟨m, hm⟩ : ∃ m, bs.length = m + 1 :=
    ⟨bs.length - 1, (Nat.succ_pred (List.length_pos_iff.mpr hne).ne').symm⟩
  have hroom : Room m i.toInt := h ▸ twosComplement_mem hm
  have := hleast m hroom
  rw [length_int64Bytes, hlen, hm]
  omega

/-- A negative number in fewer than eight octets comes back as a positive one. -/
theorem parseInt64_int64Bytes_iff (i : Int64) :
    parseInt64 (int64Bytes i) = .ok i ↔ 0 ≤ i.toInt ∨ i.toInt < -2 ^ 55 := by
  rcases Int.lt_or_le i.toInt 0 with hneg | hnonneg
  · obtain ⟨n, hlen, hn, ⟨hlo, _⟩, hleast⟩ := int64Len_spec i
    have hlow := i.le_toInt
    have hnat := toNat_toUInt64_of_neg hneg
    unfold int64Bytes parseInt64
    rw [hlen, length_beBytes, if_neg (by omega), beNat_beBytes, Except.ok.injEq]
    rcases Nat.lt_or_ge n 7 with hshort | hlong
    · have hpow : 256 ^ (n + 1) ≤ 256 ^ 7 := Nat.pow_le_pow_right (by decide) (by omega)
      have hmod : i.toUInt64.toNat % 256 ^ (n + 1) < 256 ^ (n + 1) :=
        Nat.mod_lt _ (Nat.pow_pos (by decide))
      have hroom : 128 * 256 ^ n ≤ 128 * 256 ^ 6 :=
        Nat.mul_le_mul_left _ (Nat.pow_le_pow_right (by decide) (by omega))
      refine iff_of_false (fun h => ?_) (by omega)
      have hint := congrArg Int64.toInt h
      rw [Int64.toInt_ofNat_of_lt (by omega)] at hint
      omega
    · have heq : n = 7 := by omega
      have hfar : i.toInt < -2 ^ 55 := by
        by_contra h
        have := hleast 6 ⟨by omega, by omega⟩
        omega
      refine iff_of_true ?_ (Or.inr hfar)
      have hlt : i.toUInt64.toNat < 256 ^ 8 := i.toUInt64.toNat_lt
      rw [heq, Nat.mod_eq_of_lt hlt, ← UInt64.toInt64_ofNat', UInt64.ofNat_toNat,
        Int64.toInt64_toUInt64]
  · exact iff_of_true (parseInt64_int64Bytes hnonneg) (Or.inl hnonneg)

/-- A negative number of 32 bits in fewer than four octets comes back as a positive one. -/
theorem parseInt64_int32 {v : Int32} (h : 0 ≤ v.toInt ∨ v.toInt < -2 ^ 23) :
    (parseInt64 (int64Bytes v.toInt64) >>= fun i => .ok i.toInt32) = .ok v := by
  have hwide : v.toInt64.toInt = v.toInt := Int32.toInt_toInt64 v
  rcases h with hnonneg | hneg
  · rw [parseInt64_int64Bytes (by omega)]
    exact congrArg Except.ok (Int32.toInt32_toInt64 v)
  · obtain ⟨n, hlen, _, ⟨hlo, _⟩, hleast⟩ := int64Len_spec v.toInt64
    have hlow := v.le_toInt
    have hroom : n ≤ 3 := hleast 3 ⟨by omega, by omega⟩
    have hn : n = 3 := by
      by_contra hne
      have hshort : 256 ^ n ≤ 256 ^ 2 := Nat.pow_le_pow_right (by decide) (by omega)
      omega
    have hnat := toNat_toUInt64_of_neg (i := v.toInt64) (by omega)
    unfold int64Bytes parseInt64
    rw [hlen, hn, length_beBytes, if_neg (by decide), beNat_beBytes]
    refine congrArg Except.ok (Int32.toInt_inj.mp ?_)
    rw [Int64.toInt_toInt32, Int64.toInt_ofNat_of_lt (by omega)]
    rw [Int.bmod_eq_iff (by decide)]
    omega

/-- INTEGER and ENUMERATED are written by `int64Encoder`, which writes as many octets as `Len`
    says, in two's complement and as few as there can be, and the number is read back. -/
structure IntegerRoundTrip (i : Int64) : Prop where
  integer : ∀ params, makeEncoder .int i params = .ok (berTypeEncoder 0 false 2 (.int64 i) params)
  enumerated : ∀ params,
    makeEncoder .enumerated i params = .ok (berTypeEncoder 0 false 10 (.int64 i) params)
  writes : (Encoder.int64 i).encode (List.replicate (Encoder.int64 i).len 0) = .ok (int64Bytes i)
  length : (int64Bytes i).length = (Encoder.int64 i).len
  value : twosComplement (int64Bytes i) = i.toInt
  minimal : ∀ bs ≠ [], twosComplement bs = i.toInt → (int64Bytes i).length ≤ bs.length
  returns : parseInt64 (int64Bytes i) = .ok i

/-- Integers come back when they are not negative or need eight octets. -/
theorem integer_roundTrip_iff (i : Int64) :
    IntegerRoundTrip i ↔ 0 ≤ i.toInt ∨ i.toInt < -2 ^ 55 := by
  rw [← parseInt64_int64Bytes_iff]
  refine ⟨fun h => h.returns, fun h => ?_⟩
  exact ⟨fun _ => rfl, fun _ => rfl, Encoder.encode_replicate _, length_int64Bytes i,
    twosComplement_int64Bytes i, fun bs hne hbs => length_int64Bytes_le hne hbs, h⟩

/-- The number -1 is written as `ff` and read as 255. -/
theorem minus_one_misread : ¬ IntegerRoundTrip (-1) := by
  intro h
  have hread : parseInt64 (int64Bytes (-1)) = .ok 255 := rfl
  exact absurd (Except.ok.inj (hread.symm.trans h.returns)) (by decide)

/-! ## Bit strings -/

/-- The first octet of a BIT STRING. -/
def unused (bitLength : UInt64) : UInt8 := (8 - bitLength % 8).toUInt8

theorem toNat_unused (bitLength : UInt64) :
    (unused bitLength).toNat = 8 - bitLength.toNat % 8 := by
  have hmod : (bitLength % 8).toNat = bitLength.toNat % 8 := UInt64.toNat_mod bitLength 8
  have hle : bitLength % 8 ≤ 8 := by
    rw [UInt64.le_iff_toNat_le, hmod]
    show _ ≤ 8
    omega
  unfold unused
  rw [UInt64.toNat_toUInt8, UInt64.toNat_sub_of_le _ _ hle, hmod]
  show (8 - bitLength.toNat % 8) % 256 = _
  omega

/-- The decoder subtracts from the octets of a BIT STRING the count of unused bits, which the
    encoder sets to 8 when no bit is unused. -/
def WholeBits (bytes : List UInt8) (bitLength : UInt64) : Prop :=
  bytes.length * 8 = bitLength.toNat + (8 - bitLength.toNat % 8)

theorem parseBitString_of_wholeBits {bytes : List UInt8} {bitLength : UInt64}
    (h : WholeBits bytes bitLength) :
    parseBitString (unused bitLength :: bytes) = .ok (bytes, bitLength) := by
  unfold WholeBits at h
  rw [parseBitString]
  congr 2
  apply UInt64.toNat_inj.mp
  have hlt := bitLength.toNat_lt
  rw [UInt64.toNat_sub, UInt8.toNat_toUInt64, toNat_unused, UInt64.toNat_ofNat']
  omega

/-- The octets that `bitStringEncoder` writes start with a count of unused bits from 0 to 7 and are
    read back. -/
structure BitStringRoundTrip (bytes : List UInt8) (bitLength : UInt64) : Prop where
  writes : (Encoder.bitString bytes bitLength).encode
    (List.replicate (Encoder.bitString bytes bitLength).len 0) = .ok (unused bitLength :: bytes)
  unused_le : (unused bitLength).toNat ≤ 7
  returns : parseBitString (unused bitLength :: bytes) = .ok (bytes, bitLength)

/-- Bit strings come back when their last octet is not full. -/
theorem bitString_roundTrip_iff {bytes : List UInt8} {bitLength : UInt64}
    (h : bytes.length = (bitLength.toNat + 7) / 8) :
    BitStringRoundTrip bytes bitLength ↔ bitLength.toNat % 8 ≠ 0 := by
  constructor
  · intro hbits
    have := hbits.unused_le
    rw [toNat_unused] at this
    omega
  · intro hmod
    refine ⟨Encoder.encode_replicate _, ?_, parseBitString_of_wholeBits ?_⟩
    · rw [toNat_unused]
      omega
    · unfold WholeBits
      omega

theorem bitString_roundTrip_three : BitStringRoundTrip [0xa0] 3 :=
  (bitString_roundTrip_iff rfl).mpr (by decide)

/-- Eight bits are written with eight of them unused. -/
theorem whole_octet_misread : [0xa5].length = ((8 : UInt64).toNat + 7) / 8 ∧
    ¬ BitStringRoundTrip [0xa5] 8 :=
  ⟨rfl, fun h => absurd h.unused_le (by decide)⟩

end Free5gc.Chf.Asn
