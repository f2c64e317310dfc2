/-
  Tariffs and prices: the unit cost of a rating group from its text to the number that
  `handleSUR` divides by, and the products of units and costs.

  A cost such as "1.50" becomes the digits 150 and the exponent 2, and both readers multiply by
  the power of ten, so that a fraction makes the cost larger. The products are formed in 32 bits
  and widened afterwards.
-/
import Mathlib.Data.List.TakeWhile
import Mathlib.Data.Rat.Cast.CharZero
import Mathlib.RingTheory.Coprime.Lemmas
import Mathlib.Tactic.FieldSimp
import Mathlib.Tactic.NormNum
import Free5gc.Chf.Charging.Conservation

namespace Free5gc.Chf.Charging

open Free5gc.Lib

/-! ## The text of a cost -/

/-- What is read of a text when its dots are left out. -/
def digitsOf (s : List Char) : Int := ((atoi (s.filter (· ≠ '.'))).getD 0).toInt

/-- How many characters are behind the first dot. -/
def decimalsOf (s : List Char) : Nat := (s.dropWhile (· ≠ '.')).length - 1

theorem dropWhile_of_notMem {c : Char} {s : List Char} (h : c ∉ s) :
    s.dropWhile (· ≠ c) = [] := by
  refine List.dropWhile_eq_nil_iff.mpr fun d hd => decide_eq_true ?_
  rintro rfl
  exact h hd

theorem filter_of_notMem {c : Char} {s : List Char} (h : c ∉ s) : s.filter (· ≠ c) = s := by
  refine List.filter_eq_self.mpr fun d hd => decide_eq_true ?_
  rintro rfl
  exact h hd

theorem length_dropWhile_of_idxOf? {c : Char} {s : List Char} {i : Nat}
    (h : s.idxOf? c = some i) : (s.dropWhile (· ≠ c)).length = s.length - i := by
  induction s generalizing i with
  | nil => cases h
  | cons d s ih =>
    rw [List.idxOf?_cons] at h
    by_cases hd : d = c
    · rw [if_pos (beq_iff_eq.mpr hd)] at h
      cases h
      rw [List.dropWhile_cons_of_neg (by simp [hd])]
      rfl
    · rw [if_neg (by simpa using hd)] at h
      obtain ⟨j, hj, rfl⟩ := Option.map_eq_some_iff.mp h
      rw [List.dropWhile_cons_of_pos (by simp [hd]), ih hj, List.length_cons]
      omega

theorem buildTaffif_eq (s : List Char) :
    (buildTaffif s).valueDigits.toInt = digitsOf s ∧ (buildTaffif s).exponent = decimalsOf s := by
  unfold buildTaffif
  cases h : s.idxOf? '.' with
  | none =>
    have hmem : '.' ∉ s := List.idxOf?_eq_none_iff.mp h
    unfold digitsOf decimalsOf
    rw [filter_of_notMem hmem, dropWhile_of_notMem hmem]
    exact ⟨rfl, rfl⟩
  | some i =>
    refine ⟨rfl, ?_⟩
    unfold decimalsOf
    rw [length_dropWhile_of_idxOf? h]

/-! ## The cost of one unit -/

theorem toNat_toUInt32_toUInt64 (x : Int64) :
    (x.toUInt64.toUInt32.toNat : Int) = x.toInt % 2 ^ 32 := by
  have hint : x.toInt = x.toBitVec.toInt := rfl
  have hnat : x.toUInt64.toUInt32.toNat = x.toBitVec.toNat % 2 ^ 32 := rfl
  rw [hint, hnat, BitVec.toInt_eq_toNat_cond]
  split_ifs <;> omega

/-- A product of 32 bits is the product of the integers modulo `2 ^ 32`. -/
theorem toNat_mul_emod {x y : UInt32} {i j : Int} (hx : (x.toNat : Int) = i % 2 ^ 32)
    (hy : (y.toNat : Int) = j % 2 ^ 32) : ((x * y).toNat : Int) = i * j % 2 ^ 32 := by
  rw [UInt32.toNat_mul, Int.natCast_emod, Int.natCast_mul, hx, hy]
  exact (Int.mul_emod i j _).symm

theorem toNat_pow10 {k : Nat} (h : k ≤ 18) : ((pow10 k).toNat : Int) = 10 ^ k % 2 ^ 32 := by
  unfold pow10
  rw [if_pos (by omega), UInt32.toNat_ofNat', Int.natCast_emod, Int.natCast_pow]
  rfl

/-- Up to 18 decimals the cost is the digits times the power of ten, modulo `2 ^ 32`. -/
theorem toNat_cost {u : UnitCost} (h : u.exponent ≤ 18) :
    (u.cost.toNat : Int) = u.valueDigits.toInt * 10 ^ u.exponent % 2 ^ 32 :=
  toNat_mul_emod (toNat_toUInt32_toUInt64 u.valueDigits) (toNat_pow10 h)

theorem cost_of_many_decimals {u : UnitCost} (h : 18 < u.exponent) : u.cost = 0 := by
  unfold UnitCost.cost pow10
  rw [if_neg (by omega), UInt32.mul_zero]

/-- Of the factors of a power of ten only the twos matter. -/
theorem dvd_mul_ten_pow_iff {v : Int} {k : Nat} (h : k ≤ 32) :
    (2 : Int) ^ 32 ∣ v * 10 ^ k ↔ 2 ^ (32 - k) ∣ v := by
  have hten : (10 : Int) ^ k = 2 ^ k * 5 ^ k := by rw [← mul_pow]; rfl
  have hpow : (2 : Int) ^ 32 = 2 ^ (32 - k) * 2 ^ k := by
    rw [← pow_add, Nat.sub_add_cancel h]
  have hcoprime : IsCoprime ((2 : Int) ^ 32) (5 ^ k) :=
    IsCoprime.pow (Int.isCoprime_iff_gcd_eq_one.mpr rfl)
  have htwos : (2 : Int) ^ 32 ∣ v * 2 ^ k * 5 ^ k ↔ 2 ^ 32 ∣ v * 2 ^ k :=
    ⟨hcoprime.dvd_of_dvd_mul_right, fun hdvd => hdvd.mul_right _⟩
  rw [hten, ← mul_assoc, htwos, hpow]
  exact mul_dvd_mul_iff_right (pow_ne_zero k two_ne_zero)

theorem cost_eq_zero_iff (s : List Char) :
    (buildTaffif s).cost = 0 ↔ 18 < decimalsOf s ∨ (2 : Int) ^ (32 - decimalsOf s) ∣ digitsOf s := by
  obtain ⟨hdigits, hdecimals⟩ := buildTaffif_eq s
  by_cases hmany : 18 < decimalsOf s
  · exact iff_of_true (cost_of_many_decimals (by rw [hdecimals]; exact hmany)) (Or.inl hmany)
  · have hcost := toNat_cost (u := buildTaffif s) (by omega)
    rw [hdigits, hdecimals] at hcost
    rw [or_iff_right hmany, ← dvd_mul_ten_pow_iff (by omega), Int.dvd_iff_emod_eq_zero, ← hcost,
      ← UInt32.toNat_inj]
    exact Int.natCast_eq_zero.symm

/-- The rating function gets through a request for the stored cost, without dividing by zero,
    exactly if it need not divide, or the cost has at most 18 decimals `k` and its digits are no
    multiple of `2 ^ (32 - k)`. A text that is no number counts as the digits 0. -/
theorem rating_answers_iff (quota : Int64) (unitCost : List Char) (sr : ServiceRating) :
    (handleSUR (some ⟨quota, unitCost⟩) sr).isSome ↔
      (sr.requestSubType = .reserve →
        decimalsOf unitCost ≤ 18 ∧ ¬ (2 : Int) ^ (32 - decimalsOf unitCost) ∣ digitsOf unitCost) := by
  have hcost : (⟨quota, unitCost⟩ : ChargingData).cost = (buildTaffif unitCost).cost := rfl
  unfold handleSUR
  dsimp only
  cases hsub : sr.requestSubType with
  | aoc | debit | release => exact iff_of_true rfl (by rintro ⟨⟩)
  | reserve =>
    dsimp only
    rw [hcost, imp_iff_right rfl, ← not_lt, ← not_or, ← cost_eq_zero_iff]
    split_ifs with hzero
    · exact iff_of_false Bool.false_ne_true (not_not.mpr hzero)
    · exact iff_of_true rfl hzero

/-- The cost "0", one that is no number, and `2 ^ 32` make the rating function divide by zero. -/
theorem rating_divides_by_zero :
    ["0".toList, "free".toList, "4294967296".toList].all (fun unitCost =>
      (handleSUR (some ⟨100, unitCost⟩)
        { requestSubType := .reserve, monetaryQuota := 10 }).isNone) = true := by
  decide

/-! ## Decimal costs -/

/-- A decimal number as it is written: digits, and perhaps a dot and more digits. -/
structure Decimal where
  whole : List Char
  fraction : Option (List Char)
  whole_numeral : IsNumeral whole
  fraction_numeral : ∀ f ∈ fraction, IsNumeral f

namespace Decimal

variable {d : Decimal}

def text (d : Decimal) : List Char :=
  match d.fraction with
  | none => d.whole
  | some f => d.whole ++ '.' :: f

def decimals (d : Decimal) : List Char := d.fraction.getD []

/-- The number that is meant. -/
def value (d : Decimal) : ℚ :=
  numeralValue d.whole + numeralValue d.decimals / 10 ^ d.decimals.length

/-- All digits read as one number. -/
def mantissa (d : Decimal) : Nat := numeralValue (d.whole ++ d.decimals)

theorem mantissa_eq (d : Decimal) :
    d.mantissa = numeralValue d.whole * 10 ^ d.decimals.length + numeralValue d.decimals := by
  unfold mantissa numeralValue
  rw [Nat.ofDigitChars_append, Nat.ofDigitChars_eq_ofDigitChars_zero, Nat.mul_comm]

theorem value_eq (d : Decimal) : d.value = d.mantissa / 10 ^ d.decimals.length := by
  have hpos : (10 : ℚ) ^ d.decimals.length ≠ 0 := pow_ne_zero _ (by norm_num)
  rw [value, mantissa_eq]
  push_cast
  field_simp

theorem value_eq_zero_iff (d : Decimal) : d.value = 0 ↔ d.mantissa = 0 := by
  have hpos : (10 : ℚ) ^ d.decimals.length ≠ 0 := pow_ne_zero _ (by norm_num)
  rw [value_eq, div_eq_zero_iff, or_iff_left hpos, Nat.cast_eq_zero]

theorem length_decimals_eq_zero_iff (d : Decimal) : d.decimals.length = 0 ↔ d.fraction = none := by
  unfold decimals
  cases hf : d.fraction with
  | none => exact iff_of_true rfl rfl
  | some f =>
    refine iff_of_false ?_ (Option.some_ne_none f)
    rw [Option.getD_some, List.length_eq_zero_iff]
    exact (d.fraction_numeral f hf).ne_nil

theorem isNumeral_digits (d : Decimal) : IsNumeral (d.whole ++ d.decimals) := by
  refine ⟨List.append_ne_nil_of_left_ne_nil d.whole_numeral.ne_nil _, fun c hc => ?_⟩
  rcases List.mem_append.mp hc with hc | hc
  · exact d.whole_numeral.digit c hc
  · unfold decimals at hc
    cases hf : d.fraction with
    | none =>
      rw [hf] at hc
      cases hc
    | some f =>
      rw [hf] at hc
      exact (d.fraction_numeral f hf).digit c hc

/-- The text without its dot. -/
theorem filter_text (d : Decimal) : d.text.filter (· ≠ '.') = d.whole ++ d.decimals := by
  have hdigits : '.' ∉ d.whole ++ d.decimals := d.isNumeral_digits.notMem rfl
  unfold text decimals at *
  cases hf : d.fraction with
  | none =>
    rw [hf] at hdigits
    rw [Option.getD_none, List.append_nil] at hdigits ⊢
    exact filter_of_notMem hdigits
  | some f =>
    rw [hf, Option.getD_some, List.mem_append, not_or] at hdigits
    dsimp only
    rw [Option.getD_some, List.filter_append, List.filter_cons_of_neg (by simp),
      filter_of_notMem hdigits.1, filter_of_notMem hdigits.2]

theorem decimalsOf_text (d : Decimal) : decimalsOf d.text = d.decimals.length := by
  have hwhole : ∀ c ∈ d.whole, decide (c ≠ '.') = true := by
    intro c hc
    refine decide_eq_true ?_
    rintro rfl
    exact d.whole_numeral.notMem rfl hc
  unfold decimalsOf text decimals
  cases d.fraction with
  | none =>
    dsimp only
    rw [dropWhile_of_notMem (d.whole_numeral.notMem rfl)]
    rfl
  | some f =>
    dsimp only
    rw [List.dropWhile_append_of_pos hwhole, List.dropWhile_cons_of_neg (by simp)]
    rfl

end Decimal

/-- Digits without a sign are read as their number. -/
theorem atoi_numeral {t : List Char} (h : IsNumeral t) (hfit : numeralValue t < 2 ^ 63) :
    atoi t = some (Int64.ofNat (numeralValue t)) := by
  have hparse : parseUint t 64 = .ok (numeralValue t) :=
    parseUint_eq_ok.mpr ⟨h, rfl, by omega⟩
  have hunsigned : atoi.unsigned t = some (Int64.ofNat (numeralValue t)) := by
    unfold atoi.unsigned
    rw [hparse]
    exact if_pos hfit
  unfold atoi
  split
  · exact absurd List.mem_cons_self (h.notMem (c := '-') rfl)
  · exact absurd List.mem_cons_self (h.notMem (c := '+') rfl)
  · exact hunsigned

theorem digitsOf_text {d : Decimal} (hfit : d.mantissa < 2 ^ 63) :
    digitsOf d.text = d.mantissa := by
  unfold digitsOf
  rw [d.filter_text, atoi_numeral d.isNumeral_digits hfit, Option.getD_some]
  exact Int64.toInt_ofNat_of_lt hfit

/-- The tariff built from `d` says the number `d`, and the unit cost computed from the tariff is
    `d` if that is an integer of 32 bits. -/
structure KeepsValue (d : Decimal) : Prop where
  tariff : ((buildTaffif d.text).valueDigits.toInt : ℚ) * 10 ^ (buildTaffif d.text).exponent =
    d.value
  cost : ∀ n : Nat, d.value = n → n < 2 ^ 32 → (buildTaffif d.text).cost.toNat = n

/-- The exponent counts the decimals up where the number has them down. -/
theorem tariff_eq_iff {d : Decimal} (hfit : d.mantissa < 2 ^ 63) :
    ((buildTaffif d.text).valueDigits.toInt : ℚ) * 10 ^ (buildTaffif d.text).exponent = d.value ↔
      d.fraction = none ∨ d.value = 0 := by
  obtain ⟨hdigits, hdecimals⟩ := buildTaffif_eq d.text
  rw [hdigits, hdecimals, digitsOf_text hfit, d.decimalsOf_text, ← d.length_decimals_eq_zero_iff,
    d.value_eq_zero_iff, d.value_eq]
  generalize d.decimals.length = k
  have hpos : (10 : ℚ) ^ k ≠ 0 := pow_ne_zero _ (by norm_num)
  have hone : (10 : ℚ) ^ (k + k) = 1 ↔ k = 0 := by
    constructor
    · intro h
      by_contra hk
      have : (1 : ℚ) < 10 ^ (k + k) := one_lt_pow₀ (by norm_num) (by omega)
      exact this.ne' h
    · rintro rfl
      rfl
  rw [Int.cast_natCast, eq_div_iff hpos, mul_assoc, ← pow_add, mul_right_eq_self₀, hone,
    Nat.cast_eq_zero]

theorem toNat_cost_of_whole {d : Decimal} (hfit : d.mantissa < 2 ^ 63)
    (h : d.fraction = none ∨ d.value = 0) {n : Nat} (hn : d.value = n) (hlt : n < 2 ^ 32) :
    (buildTaffif d.text).cost.toNat = n := by
  obtain ⟨hdigits, hdecimals⟩ := buildTaffif_eq d.text
  rw [digitsOf_text hfit] at hdigits
  rw [d.decimalsOf_text] at hdecimals
  rcases h with hnone | hzero
  · have hlength := d.length_decimals_eq_zero_iff.mpr hnone
    rw [hlength] at hdecimals
    have hm : d.mantissa = n := by
      rw [d.value_eq, hlength, pow_zero, div_one] at hn
      exact Nat.cast_injective hn
    have hcost := toNat_cost (u := buildTaffif d.text) (by omega)
    rw [hdigits, hdecimals, pow_zero, mul_one, hm] at hcost
    omega
  · have hn0 : n = 0 := Nat.cast_eq_zero.mp (hn.symm.trans hzero)
    rw [d.value_eq_zero_iff.mp hzero] at hdigits
    rw [hn0]
    refine congrArg UInt32.toNat ((cost_eq_zero_iff d.text).mpr (Or.inr ?_))
    rw [← (buildTaffif_eq d.text).1, hdigits]
    exact dvd_zero _

/-- A cost keeps its value exactly if it is written without decimals, or is zero. -/
theorem tariff_keeps_value_iff {d : Decimal} (hfit : d.mantissa < 2 ^ 63) :
    KeepsValue d ↔ d.fraction = none ∨ d.value = 0 := by
  constructor
  · intro h
    exact (tariff_eq_iff hfit).mp h.tariff
  · intro h
    exact ⟨(tariff_eq_iff hfit).mpr h, fun _ hn hlt => toNat_cost_of_whole hfit h hn hlt⟩

theorem isNumeral_of_all {t : List Char} (h : (!t.isEmpty && t.all Char.isDigit) = true) :
    IsNumeral t := by
  rw [Bool.and_eq_true] at h
  exact ⟨by simpa using h.1, List.all_eq_true.mp h.2⟩

def twelve : Decimal :=
  ⟨['1', '2'], none, isNumeral_of_all rfl, fun _ h => absurd h (Option.not_mem_none _)⟩

theorem isNumeral_of_mem_some {t : List Char} (h : IsNumeral t) : ∀ f ∈ some t, IsNumeral f := by
  rintro _ ⟨⟩
  exact h

def twoPointZero : Decimal :=
  ⟨['2'], some ['0'], isNumeral_of_all rfl, isNumeral_of_mem_some (isNumeral_of_all rfl)⟩

theorem tariff_of_twelve : KeepsValue twelve :=
  (tariff_keeps_value_iff (d := twelve) (by decide)).mpr (Or.inl rfl)

/-- A cost of "2.0" is built as 20 times ten, and 200 is charged for a unit. -/
theorem tariff_of_two_point_zero :
    twoPointZero.mantissa < 2 ^ 63 ∧ (buildTaffif twoPointZero.text).cost = 200 ∧
      ¬ KeepsValue twoPointZero := by
  refine ⟨by decide, by decide, fun h => ?_⟩
  have hvalue : twoPointZero.value = ((2 : Nat) : ℚ) := by
    have hm : twoPointZero.mantissa = 20 := by decide
    rw [Decimal.value_eq, hm]
    show ((20 : Nat) : ℚ) / 10 ^ 1 = _
    norm_num
  exact absurd (h.cost 2 hvalue (by decide)) (by decide)

/-! ## Products -/

/-- The volume of the containers that are counted, those under online charging. -/
def MultipleUnitUsage.usedVolume (u : MultipleUnitUsage) : Int :=
  ((u.usedUnitContainer.filter UsedUnitContainer.isOnline).map (·.totalVolume.toInt)).sum

/-- The amounts of a turn with the unit cost `cost`, and the price that the rating function
    returns for the used units by its document `d`, are the products of the integers. The quotas
    are computed only for a request for units. -/
structure ExactAmounts (triggers : List Trigger) (u : MultipleUnitUsage) (cost : UInt32)
    (d : ChargingData) : Prop where
  used : 0 < u.requestedVolume →
    ((usedQuota (scan triggers u.usedUnitContainer).totalUsedUnit cost).toNat : Int) =
      u.usedVolume * cost.toNat
  requested : 0 < u.requestedVolume →
    ((requestedQuota u.requestedVolume cost).toNat : Int) = u.requestedVolume.toInt * cost.toNat
  monetary : 0 < u.requestedVolume →
    ((reserveRating (requestedQuota u.requestedVolume cost)).monetaryQuota.toNat : Int) =
      u.requestedVolume.toInt * cost.toNat
  price : ∀ rsp, handleSUR (some d)
      (debitRating (scan triggers u.usedUnitContainer).totalUsedUnit) = some rsp →
    (rsp.price.toNat : Int) = u.usedVolume * d.cost.toNat

theorem toNat_toUInt32_emod (x : Int32) : (x.toUInt32.toNat : Int) = x.toInt % 2 ^ 32 := by
  have hint : x.toInt = x.toBitVec.toInt := rfl
  have hnat : x.toUInt32.toNat = x.toBitVec.toNat := rfl
  have hlt := x.toBitVec.isLt
  rw [hint, hnat, BitVec.toInt_eq_toNat_cond]
  split_ifs <;> omega

theorem toNat_emod_self (x : UInt32) : (x.toNat : Int) = x.toNat % 2 ^ 32 := by
  have := x.toNat_lt
  omega

theorem reported_eq_usedVolume {u : MultipleUnitUsage}
    (h : ∀ c ∈ u.usedUnitContainer, 0 ≤ c.totalVolume.toInt) : (u.reported : Int) = u.usedVolume := by
  unfold MultipleUnitUsage.reported MultipleUnitUsage.usedVolume
  generalize u.usedUnitContainer = cs at h
  induction cs with
  | nil => rfl
  | cons c cs ih =>
    obtain ⟨hc, hcs⟩ := List.forall_mem_cons.mp h
    have hvolume := toNat_toUInt32_emod c.totalVolume
    have hlt := c.totalVolume.toInt_lt
    rw [List.map_cons, List.sum_cons, Int.natCast_add, ih hcs, List.filter_cons,
      UsedUnitContainer.online]
    split_ifs
    · rw [List.map_cons, List.sum_cons]
      omega
    · rw [Int.natCast_zero, Int.zero_add]

/-- The used units times a cost, in 32 bits. -/
theorem toNat_used_mul {u : MultipleUnitUsage}
    (h : ∀ c ∈ u.usedUnitContainer, 0 ≤ c.totalVolume.toInt) (triggers : List Trigger)
    (cost : UInt32) :
    (((scan triggers u.usedUnitContainer).totalUsedUnit * cost).toNat : Int) =
      u.usedVolume * cost.toNat % 2 ^ 32 := by
  refine toNat_mul_emod ?_ (toNat_emod_self cost)
  rw [totalUsedUnit_scan, UInt32.toNat_ofNat', Int.natCast_emod, reported_eq_usedVolume h]
  rfl

/-- A residue is the number itself if that is in range, and only then. -/
theorem emod_eq_self_iff {x y : Int} (h : y = x % 2 ^ 32) : y = x ↔ 0 ≤ x ∧ x < 2 ^ 32 := by
  omega

/-- Charging computes with the products of the integers exactly if they fit 32 bits: the used
    volume times the cost of the tariff, and, if units are requested, the used and the requested
    volume times the unit cost. -/
theorem charging_amounts_exact_iff (triggers : List Trigger) {u : MultipleUnitUsage}
    (h : ∀ c ∈ u.usedUnitContainer, 0 ≤ c.totalVolume.toInt) (cost : UInt32) (d : ChargingData) :
    ExactAmounts triggers u cost d ↔
      u.usedVolume * d.cost.toNat < 2 ^ 32 ∧
        (0 < u.requestedVolume → u.usedVolume * cost.toNat < 2 ^ 32 ∧
          u.requestedVolume.toInt * cost.toNat < 2 ^ 32) := by
  have hused := toNat_used_mul h triggers cost
  have hprice := toNat_used_mul h triggers d.cost
  have hrequested := toNat_mul_emod (toNat_toUInt32_emod u.requestedVolume) (toNat_emod_self cost)
  have hpos : ∀ c : UInt32, 0 ≤ u.usedVolume * c.toNat := by
    intro c
    rw [← reported_eq_usedVolume h]
    exact Int.natCast_nonneg (u.reported * c.toNat)
  constructor
  · rintro ⟨h1, h2, -, h4⟩
    refine ⟨((emod_eq_self_iff hprice).mp (h4 _ rfl)).2, fun hvolume => ⟨?_, ?_⟩⟩
    · have hquota := h1 hvolume
      rw [UInt32.toNat_toUInt64] at hquota
      exact ((emod_eq_self_iff hused).mp hquota).2
    · have hquota := h2 hvolume
      rw [UInt32.toNat_toUInt64] at hquota
      exact ((emod_eq_self_iff hrequested).mp hquota).2
  · rintro ⟨hdebit, hreserve⟩
    have hquota : 0 < u.requestedVolume → ((u.requestedVolume.toUInt32 * cost).toNat : Int) =
        u.requestedVolume.toInt * cost.toNat := by
      intro hvolume
      have hle : 0 ≤ u.requestedVolume.toInt := Int.le_of_lt (Int32.lt_iff_toInt_lt.mp hvolume)
      exact (emod_eq_self_iff hrequested).mpr
        ⟨Int.mul_nonneg hle (Int.natCast_nonneg _), (hreserve hvolume).2⟩
    refine ⟨fun hvolume => ?_, fun hvolume => ?_, fun hvolume => ?_, ?_⟩
    · rw [UInt32.toNat_toUInt64]
      exact (emod_eq_self_iff hused).mpr ⟨hpos cost, (hreserve hvolume).1⟩
    · rw [UInt32.toNat_toUInt64]
      exact hquota hvolume
    · show ((u.requestedVolume.toUInt32 * cost).toUInt64.toUInt32.toNat : Int) = _
      rw [UInt32.toUInt32_toUInt64]
      exact hquota hvolume
    · rintro rsp ⟨⟩
      exact (emod_eq_self_iff hprice).mpr ⟨hpos d.cost, hdebit⟩

/-- Online containers with these volumes, and a request for one volume. -/
def usageOf (volumes : List Int32) (requested : Int32) : MultipleUnitUsage :=
  { ratingGroup := 1, requestedUnit := some requested
    usedUnitContainer := volumes.map fun v => ⟨.onlineCharging, v⟩ }

theorem volumes_nonneg {volumes : List Int32}
    (h : (volumes.all fun v => decide (0 ≤ v.toInt)) = true) (requested : Int32) :
    ∀ c ∈ (usageOf volumes requested).usedUnitContainer, 0 ≤ c.totalVolume.toInt := by
  intro c hc
  obtain ⟨v, hv, rfl⟩ := List.mem_map.mp hc
  exact of_decide_eq_true (List.all_eq_true.mp h v hv)

theorem charging_amounts_exact_small :
    ExactAmounts [] (usageOf [300, 200] 1000) 3 ⟨100, ['3']⟩ := by
  refine (charging_amounts_exact_iff [] (volumes_nonneg rfl 1000) 3 ⟨100, ['3']⟩).mpr ?_
  decide

/-- Four containers of `2 ^ 30` units at a cost of 1 use nothing. -/
theorem charging_amounts_wrap :
    (∀ c ∈ (usageOf [1073741824, 1073741824, 1073741824, 1073741824] 1).usedUnitContainer,
      0 ≤ c.totalVolume.toInt) ∧
      ¬ ExactAmounts [] (usageOf [1073741824, 1073741824, 1073741824, 1073741824] 1) 1
        ⟨100, ['1']⟩ := by
  refine ⟨volumes_nonneg rfl 1, fun h => ?_⟩
  exact absurd (h.used (by decide)) (by decide)

end Free5gc.Chf.Charging
