/-
  Bit rates (`internal/util/qos_convert.go`): the text of a rate as kbit/s for a QER, as Mbit/s for
  NAS and as bit/s for NGAP.

  Each function scales by itself: in 64 bits without a sign, in 64 bits with one of which 16 are
  kept, and in 64 bits with a sign. Two of them have no error to return. `sameRate_iff` says for
  which texts the three agree with what the text says.

  The value of `strconv.ParseFloat` is used through its conversion to `uint64`, which is exact for
  decimal integers below 2^53.
-/
import Free5gc.Lib.Int64
import Free5gc.Lib.Text

namespace Free5gc.Smf.Util

open Free5gc.Lib

/-! ## Texts -/

inductive RateUnit where
  | bps
  | kbps
  | mbps
  | gbps
  | tbps
  deriving DecidableEq, Repr

namespace RateUnit

def text : RateUnit → List Char
  | bps => "bps".toList
  | kbps => "Kbps".toList
  | mbps => "Mbps".toList
  | gbps => "Gbps".toList
  | tbps => "Tbps".toList

def all : List RateUnit := [bps, kbps, mbps, gbps, tbps]

/-- The case of a switch on the unit. -/
def ofText (t : List Char) : Option RateUnit := all.find? (·.text = t)

def bitsPerSecond : RateUnit → Nat
  | bps => 1
  | kbps => 1000
  | mbps => 1000000
  | gbps => 1000000000
  | tbps => 1000000000000

theorem ofText_text (unit : RateUnit) : ofText unit.text = some unit := by
  cases unit <;> decide

end RateUnit

/-! ## Conversions -/

inductive Converted (α : Type) where
  | rate (value : α)
  | refused (error : String)
  | panicked
  deriving DecidableEq, Repr

/-- `strconv.ParseFloat(s, 64)` and `uint64(f)`. -/
structure ParseFloat where
  toUint64 : List Char → Option UInt64
  exact : ∀ t, IsNumeral t → numeralValue t < 2 ^ 53 →
    toUint64 t = some (UInt64.ofNat (numeralValue t))

def toKbps (digit : UInt64) : Option RateUnit → UInt64
  | some .bps => digit / 1000
  | some .kbps => digit * 1
  | some .mbps => digit * 1000
  | some .gbps => digit * 1000000
  | some .tbps => digit * 1000000000
  | none => 0

def bitRateTokbps (pf : ParseFloat) (bitrate : List Char) : Converted UInt64 :=
  if bitrate = [] then .rate 0
  else match bitrate.splitOn ' ' with
    | value :: unit :: _ =>
      match pf.toUint64 value with
      | none => .refused "invalid bitrate value"
      | some digit => .rate (toKbps digit (RateUnit.ofText unit))
    | _ => .refused "invalid bitrate format"

def toMbps (digit : Int64) : Option RateUnit → UInt16
  | some .bps => (digit / 1000000).toUInt64.toUInt16
  | some .kbps => (digit / 1000).toUInt64.toUInt16
  | some .mbps => (digit * 1).toUInt64.toUInt16
  | some .gbps => (digit * 1000).toUInt64.toUInt16
  | some .tbps => (digit * 1000000).toUInt64.toUInt16
  | none => 0

def toBps (digit : Int64) : Option RateUnit → Int64
  | some .kbps => digit * 1000
  | some .mbps => digit * 1000000
  | some .gbps => digit * 1000000000
  | some .tbps => digit * 1000000000000
  | _ => digit

/-- `s[1]` is read once `Atoi` has taken `s[0]`. -/
def convertInt {α : Type} (zero : α) (convert : Int64 → Option RateUnit → α) (bitrate : List Char) :
    Converted α :=
  match bitrate.splitOn ' ' with
  | [] => .panicked
  | value :: rest =>
    match atoi value, rest with
    | none, _ => .rate zero
    | some _, [] => .panicked
    | some digit, unit :: _ => .rate (convert digit (RateUnit.ofText unit))

def bitRateTombps (bitrate : List Char) : Converted UInt16 := convertInt 0 toMbps bitrate

def stringToBitRate (bitrate : List Char) : Converted Int64 := convertInt 0 toBps bitrate

/-! ## What a text says -/

def rateText (digits : List Char) (unit : RateUnit) : List Char := digits ++ ' ' :: unit.text

/-- bit/s -/
def rateOf (digits : List Char) (unit : RateUnit) : Nat := numeralValue digits * unit.bitsPerSecond

def HasUnit (bitrate : List Char) : Prop := ∃ unit : RateUnit, (bitrate.splitOn ' ')[1]? = some unit.text

def Refuses {α : Type} (x : Converted α) : Prop := ∃ error, x = .refused error

structure SameRate (pf : ParseFloat) (bitrate : List Char) : Prop where
  read : ∀ digits unit, IsNumeral digits → numeralValue digits < 2 ^ 53 →
    bitrate = rateText digits unit →
      (rateOf digits unit < 2 ^ 63 →
        ∃ r, stringToBitRate bitrate = .rate r ∧ r.toInt = rateOf digits unit) ∧
      (∃ r, bitRateTokbps pf bitrate = .rate r ∧ r.toNat = rateOf digits unit / 1000) ∧
      ∃ r, bitRateTombps bitrate = .rate r ∧ r.toNat = min (rateOf digits unit / 1000000) 65535
  refuses : ¬ HasUnit bitrate →
    Refuses (stringToBitRate bitrate) ∧ Refuses (bitRateTokbps pf bitrate) ∧
      Refuses (bitRateTombps bitrate)

/-! ## What the functions return -/

variable {digits : List Char} {unit : RateUnit}

theorem splitOn_rateText (h : IsNumeral digits) :
    (rateText digits unit).splitOn ' ' = [digits, unit.text] := by
  have hdigits : ∀ c ∈ digits, (c == ' ') = false := by
    intro c hc
    have := h.digit c hc
    by_contra heq
    obtain rfl : c = ' ' := by simpa using heq
    exact absurd this (by decide)
  have hall : (unit.text.all fun c => !(c == ' ')) = true := by
    cases unit <;> decide
  have hunit : ∀ c ∈ unit.text, (c == ' ') = false := by
    simpa using hall
  rw [rateText, List.splitOn, List.splitOnP_append_cons_of_forall_mem hdigits ' ' (by decide),
    List.splitOnP_eq_singleton hunit]

theorem atoi_numeral (h : IsNumeral digits) (hlt : numeralValue digits < 2 ^ 63) :
    atoi digits = some (Int64.ofNat (numeralValue digits)) := by
  have hparse : parseUint digits 64 = .ok (numeralValue digits) :=
    parseUint_eq_ok.mpr ⟨h, rfl, by omega⟩
  have hunsigned : atoi.unsigned digits = some (Int64.ofNat (numeralValue digits)) := by
    rw [atoi.unsigned, hparse]
    exact if_pos hlt
  unfold atoi
  split
  · exact absurd (h.digit '-' List.mem_cons_self) (by decide)
  · exact absurd (h.digit '+' List.mem_cons_self) (by decide)
  · exact hunsigned

theorem convertInt_rateText {α : Type} (zero : α) (convert : Int64 → Option RateUnit → α)
    (h : IsNumeral digits) (hlt : numeralValue digits < 2 ^ 63) :
    convertInt zero convert (rateText digits unit) =
      .rate (convert (Int64.ofNat (numeralValue digits)) (some unit)) := by
  unfold convertInt
  rw [splitOn_rateText h]
  dsimp only
  rw [atoi_numeral h hlt]
  dsimp only
  rw [RateUnit.ofText_text]

theorem convertInt_not_refused {α : Type} (zero : α) (convert : Int64 → Option RateUnit → α)
    (bitrate : List Char) : ¬ Refuses (convertInt zero convert bitrate) := by
  rintro ⟨error, h⟩
  unfold convertInt at h
  split at h
  · cases h
  · split at h <;> cases h

theorem bitRateTokbps_rateText (pf : ParseFloat) (h : IsNumeral digits)
    (hlt : numeralValue digits < 2 ^ 53) :
    bitRateTokbps pf (rateText digits unit) =
      .rate (toKbps (UInt64.ofNat (numeralValue digits)) (some unit)) := by
  unfold bitRateTokbps
  rw [if_neg (by simp [rateText]), splitOn_rateText h]
  dsimp only
  rw [pf.exact digits h hlt, RateUnit.ofText_text]

/-! ## Their values -/

theorem toNat_toKbps {v : Nat} (h : v < 2 ^ 53) :
    (toKbps (UInt64.ofNat v) (some unit)).toNat = v * unit.bitsPerSecond / 1000 % 2 ^ 64 := by
  have hv : (UInt64.ofNat v).toNat = v := by
    rw [UInt64.toNat_ofNat']
    omega
  cases unit <;>
    simp [toKbps, RateUnit.bitsPerSecond, UInt64.toNat_mul, UInt64.toNat_div, hv] <;> omega

/-- What is left of a number when all but its last 16 bits are dropped. -/
theorem toNat_toUInt16 (i : Int64) : (i.toUInt64.toUInt16.toNat : Int) = i.toInt % 65536 := by
  have h := toNat_toUInt64 i
  have hlo := i.le_toInt
  have hhi := i.toInt_lt
  rw [UInt64.toNat_toUInt16]
  split_ifs at h <;> omega

theorem bmod_emod_65536 (x : Int) : x.bmod (2 ^ 64) % 65536 = x % 65536 := by
  rw [Int.bmod_def]
  split_ifs <;> omega

theorem toNat_toMbps (unit : RateUnit) {v : Nat} (h : v < 2 ^ 53) :
    ((toMbps (Int64.ofNat v) (some unit)).toNat : Int) =
      (v * unit.bitsPerSecond : Nat) / 1000000 % 65536 := by
  have hv : (Int64.ofNat v).toInt = v := Int64.toInt_ofNat_of_lt (by omega)
  have hdiv : ∀ k : Int, (v : Int).tdiv k = v / k := fun _ =>
    Int.tdiv_eq_ediv_of_nonneg (Int.natCast_nonneg v)
  have hliterals : (1 : Int64).toInt = 1 ∧ (1000 : Int64).toInt = 1000 ∧
      (1000000 : Int64).toInt = 1000000 := by decide
  cases unit <;>
    simp only [toMbps, RateUnit.bitsPerSecond, toNat_toUInt16, Int64.toInt_mul, Int64.toInt_div, hv,
      hdiv, hliterals, bmod_emod_65536] <;> omega

theorem toInt_toBps {v : Nat} (h : v * unit.bitsPerSecond < 2 ^ 63) :
    (toBps (Int64.ofNat v) (some unit)).toInt = (v * unit.bitsPerSecond : Nat) := by
  have hv : (Int64.ofNat v).toInt = v :=
    Int64.toInt_ofNat_of_lt (lt_of_le_of_lt (Nat.le_mul_of_pos_right v (by cases unit <;> decide)) h)
  cases unit <;>
    simp [toBps, RateUnit.bitsPerSecond, Int64.toInt_mul, hv] at h ⊢ <;>
    exact Int.bmod_eq_of_le (by omega) (by omega)

/-! ## Which texts -/

/-- The rate as kbit/s has 64 bits, and as Mbit/s 16, unless those that are kept say the maximum. -/
def Fits (rate : Nat) : Prop :=
  rate / 1000 < 2 ^ 64 ∧ (rate / 1000000 < 2 ^ 16 ∨ rate / 1000000 % 2 ^ 16 = 65535)

theorem sameRate_iff (pf : ParseFloat) (bitrate : List Char) :
    SameRate pf bitrate ↔
      HasUnit bitrate ∧ ∀ digits unit, IsNumeral digits → numeralValue digits < 2 ^ 53 →
        bitrate = rateText digits unit → Fits (rateOf digits unit) := by
  constructor
  · intro h
    refine ⟨?_, ?_⟩
    · by_contra hunit
      exact convertInt_not_refused 0 toMbps bitrate (h.refuses hunit).2.2
    · rintro digits unit hnum hlt rfl
      obtain ⟨-, ⟨r, hr, hkbps⟩, ⟨r', hr', hmbps⟩⟩ := h.read digits unit hnum hlt rfl
      rw [bitRateTokbps_rateText pf hnum hlt] at hr
      cases hr
      rw [bitRateTombps, convertInt_rateText _ _ hnum (by omega)] at hr'
      cases hr'
      rw [toNat_toKbps hlt] at hkbps
      have hlow := toNat_toMbps unit hlt
      unfold rateOf at hkbps hmbps
      unfold Fits rateOf
      omega
  · rintro ⟨hunit, hfits⟩
    refine ⟨?_, fun hno => absurd hunit hno⟩
    rintro digits unit hnum hlt rfl
    obtain ⟨hkbps, hmbps⟩ := hfits digits unit hnum hlt rfl
    refine ⟨fun hbps => ⟨_, convertInt_rateText 0 toBps hnum (by omega), toInt_toBps hbps⟩,
      ⟨_, bitRateTokbps_rateText pf hnum hlt, ?_⟩,
      ⟨_, convertInt_rateText 0 toMbps hnum (by omega), ?_⟩⟩
    · rw [toNat_toKbps hlt]
      exact Nat.mod_eq_of_lt hkbps
    · have hlow := toNat_toMbps unit hlt
      unfold rateOf at hmbps ⊢
      omega

/-- 70 Gbps are 70000 Mbps, of which 16 bits say 4464. -/
theorem bitRateTombps_wraps :
    bitRateTombps "70 Gbps".toList = .rate 4464 ∧ stringToBitRate "70".toList = .panicked := by
  decide +kernel

end Free5gc.Smf.Util
