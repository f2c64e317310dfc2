/-
  BER headers and integers (`cdr/asn`): the identifier and length octets that stand before
  every value, and the contents of INTEGER and ENUMERATED.

  A tag number above 30 is written in base 128, a length above 127 in base 256 behind an octet
  that counts its digits. `parseTagAndLength_append` reads back what `appendTagAndLen` wrote,
  whatever follows.
-/
import Free5gc.Lib.Bytes
import Free5gc.Lib.Int64
import Free5gc.Lib.Fallible

namespace Free5gc.Chf.Asn

open Free5gc.Lib

/-! ## Errors -/

/-- What the coders do not check. -/
inductive Panic where
  /-- `bytes[0]` where a header is due -/
  | noHeader
  /-- the slice of length octets that are not in the input -/
  | lengthOctets
  /-- the first octet of a BIT STRING or a BOOLEAN that has none -/
  | noContent
  /-- a `bool` is assigned to a field of the NULL type -/
  | nullField
  /-- `Field(0)` of a struct type without fields -/
  | noFields
  /-- the tag number of a field that has none -/
  | noTagNumber
  /-- `IsNil` of an optional field of a kind that has no nil -/
  | noNil
  /-- `Field(present)` of a CHOICE that does not have so many fields -/
  | outsideChoice
  /-- `Len()` of a struct none of whose fields is there -/
  | nothingPresent
  /-- `Len()` of an alternative whose error was only printed -/
  | faultyAlternative
  /-- a write behind the end of a buffer -/
  | shortBuffer
  /-- a loop of the model that has run out of fuel -/
  | fuel
  deriving DecidableEq, Repr

/-- The errors of the two coders; `panic` stands for a Go panic. -/
inductive BerError where
  | nilValue
  | unsupportedObjectIdentifier
  | presentIsZero
  | presentTooBig
  | openTypeNotImplemented
  | iterateSubtype
  | tagNumberTooLarge
  | truncated
  | lengthTooLarge
  | outOfRangeOfInt64
  | valueOutOfRange
  | correspondingTypeNotFound
  | panic (cause : Panic)
  deriving DecidableEq, Repr

/-! ## Encoding -/

structure TagAndLen where
  cls : Nat
  constructed : Bool
  tagNumber : Nat
  len : Nat
  deriving DecidableEq, Repr

/-- How often a number is divided by `b` until it is below `b`, at most `fuel` times. -/
def loopCount (b : Nat) : (fuel v : Nat) → Nat
  | 0, _ => 0
  | k + 1, v => if b ≤ v then loopCount b k (v / b) + 1 else 0

/-- `n` digits of a tag number in base 128. All but the last have their top bit set. -/
def tagDigits : (n v : Nat) → List UInt8
  | 0, _ => []
  | 1, v => [(UInt8.ofNat v ||| 0x80) &&& 0x7f]
  | k + 2, v => (UInt8.ofNat (v / 128 ^ (k + 1)) ||| 0x80) :: tagDigits (k + 1) v

/-- The first octet: class, the constructed bit and five bits of tag number. -/
def firstByte (cls : Nat) (constructed : Bool) (number : Nat) : UInt8 :=
  (UInt8.ofNat cls <<< 6 ||| (if constructed then 0x20 else 0)) ||| UInt8.ofNat number

/-- The identifier octets. A tag number has 64 bits, ten digits at most. -/
def identifier (t : TagAndLen) : List UInt8 :=
  if t.tagNumber ≤ 30 then [firstByte t.cls t.constructed t.tagNumber]
  else
    firstByte t.cls t.constructed 31 ::
      tagDigits (1 + loopCount 128 9 t.tagNumber) t.tagNumber

/-- The length octets. A length has 64 bits, eight digits at most. -/
def lengthOctets (len : Nat) : List UInt8 :=
  if len ≤ 127 then [UInt8.ofNat len]
  else
    (UInt8.ofNat (1 + loopCount 256 7 len) ||| 0x80) :: beBytes (1 + loopCount 256 7 len) len

def appendTagAndLen (t : TagAndLen) : List UInt8 := identifier t ++ lengthOctets t.len

/-- `int64Encoder.Len`: how many octets the two's complement of `i` takes. The first loop runs
    for positive numbers, the second for negative ones. -/
def int64Len (i : Int) : Nat := 1 + shifts (127 < ·) 8 i + shifts (· < -128) 8 i
where
  shifts (p : Int → Bool) : (fuel : Nat) → Int → Nat
    | 0, _ => 0
    | k + 1, i => if p i then shifts p k (i / 256) + 1 else 0

/-- `int64Encoder.Encode` -/
def int64Bytes (i : Int64) : List UInt8 := beBytes (int64Len i.toInt) i.toUInt64.toNat

/-! ## Decoding -/

/-- The loop over the digits of a long tag number: the number, how many octets were read, and
    those that follow. -/
def parseTagNumber : List UInt8 → (acc off : Nat) → Nat × Nat × List UInt8
  | [], acc, off => (acc, off, [])
  | b :: bs, acc, off =>
    let acc := (acc * 128 + (b &&& 0x7f).toNat) % 2 ^ 64
    if b &&& 0x80 = 0 then (acc, off + 1, bs) else parseTagNumber bs acc (off + 1)

def parseInt64 (bytes : List UInt8) : Except BerError Int64 :=
  if bytes.length > 8 then .error .outOfRangeOfInt64 else .ok (Int64.ofNat (beNat bytes))

/-- The length octets in `bytes`, which follow `off` octets: the length, and the offset behind
    them. Go bounds a slice expression by the capacity, so that the digits may be taken from the
    octets of the input `beyond` the slice. -/
def parseLength (bytes beyond : List UInt8) (off : Nat) : Except BerError (Nat × Nat) :=
  match bytes with
  | [] => .error .truncated
  | b :: rest =>
    if b ≤ 127 then .ok (b.toNat, off + 1)
    else
      let k := (b &&& 0x7f).toNat
      if k > 3 then .error .lengthTooLarge
      else
        match slice (rest ++ beyond) 0 k with
        | none => .error (.panic .lengthOctets)
        | some digits => .ok (beNat digits, off + 1 + k)

/-- The header at the front of `bytes`, and its length. -/
def parseTagAndLength (bytes beyond : List UInt8) : Except BerError (TagAndLen × Nat) :=
  match bytes with
  | [] => .error (.panic .noHeader)
  | b :: rest =>
    let cls := (b >>> 6).toNat
    let constructed := b &&& 0x20 != 0
    if b &&& 0x1f ≠ 0x1f then do
      let (len, off) ← parseLength rest beyond 1
      .ok (⟨cls, constructed, (b &&& 0x1f).toNat, len⟩, off)
    else do
      let (number, off, rest) := parseTagNumber rest 0 1
      if off > 10 then .error .tagNumberTooLarge
      else do
        let (len, off) ← parseLength rest beyond off
        .ok (⟨cls, constructed, number, len⟩, off)

/-! ## Digits -/

theorem lt_pow_loopCount {b : Nat} (hb : 2 ≤ b) (fuel v : Nat) (h : v < b ^ (fuel + 1)) :
    v < b ^ (1 + loopCount b fuel v) := by
  induction fuel generalizing v with
  | zero => exact h
  | succ k ih =>
    unfold loopCount
    split_ifs with hle
    · have hdiv : v / b < b ^ (k + 1) := Nat.div_lt_of_lt_mul (by rw [← Nat.pow_succ']; exact h)
      have hlt := ih (v / b) hdiv
      have hstep : v < b * b ^ (1 + loopCount b k (v / b)) :=
        (Nat.div_lt_iff_lt_mul (by omega)).mp hlt |>.trans_eq (Nat.mul_comm _ _)
      rw [← Nat.add_assoc, Nat.pow_succ']
      exact hstep
    · rw [Nat.add_zero, Nat.pow_one]
      omega

/-- A number below `b ^ n` is divided fewer than `n` times. -/
theorem loopCount_lt_of_lt_pow {b : Nat} (fuel v : Nat) {n : Nat} (hn : 1 ≤ n)
    (h : v < b ^ n) : loopCount b fuel v < n := by
  induction fuel generalizing v n with
  | zero => exact hn
  | succ k ih =>
    unfold loopCount
    split_ifs with hle
    · obtain ⟨m, rfl⟩ : ∃ m, n = m + 1 := ⟨n - 1, by omega⟩
      have hm : 1 ≤ m := by
        by_contra hm
        have : m = 0 := by omega
        subst this
        rw [Nat.zero_add, Nat.pow_one] at h
        omega
      have hdiv : v / b < b ^ m := Nat.div_lt_of_lt_mul (by rw [← Nat.pow_succ']; exact h)
      exact Nat.succ_lt_succ (ih (v / b) hm hdiv)
    · exact hn

/-! ## Octets -/

theorem flagged_and_digit (x : Nat) : ((UInt8.ofNat x ||| 0x80) &&& 0x7f).toNat = x % 128 := by
  have hbyte : ∀ i : Fin 256, ((i.val ||| 0x80) &&& 0x7f) = i.val % 128 := by decide +kernel
  rw [UInt8.toNat_and, UInt8.toNat_or, UInt8.toNat_ofNat']
  show (x % 256 ||| 0x80) &&& 0x7f = x % 128
  rw [hbyte ⟨x % 256, Nat.mod_lt _ (by decide)⟩]
  exact Nat.mod_mod_of_dvd x (by decide)

theorem flagged_and_flag (x : Nat) : (UInt8.ofNat x ||| 0x80) &&& 0x80 ≠ 0 := by
  have hbyte : ∀ i : Fin 256, ((i.val ||| 0x80) &&& 0x80) ≠ 0 := by decide +kernel
  intro h
  have hnat := congrArg UInt8.toNat h
  rw [UInt8.toNat_and, UInt8.toNat_or, UInt8.toNat_ofNat'] at hnat
  exact hbyte ⟨x % 256, Nat.mod_lt _ (by decide)⟩ hnat

theorem digit_and_digit (b : UInt8) : (b &&& 0x7f) &&& 0x7f = b &&& 0x7f := by
  rw [UInt8.and_assoc]
  rfl

theorem digit_and_flag (b : UInt8) : (b &&& 0x7f) &&& 0x80 = 0 := by
  rw [UInt8.and_assoc]
  exact UInt8.and_zero

/-- The fields of a first octet. -/
theorem firstByte_fields {cls number : Nat} (constructed : Bool) (hc : cls < 4)
    (hn : number < 32) :
    (firstByte cls constructed number >>> 6).toNat = cls ∧
      (firstByte cls constructed number &&& 0x20 != 0) = constructed ∧
      (firstByte cls constructed number &&& 0x1f).toNat = number := by
  have hall : ∀ (c : Fin 4) (k : Bool) (n : Fin 32),
      (firstByte c k n >>> 6).toNat = c ∧ (firstByte c k n &&& 0x20 != 0) = k ∧
        (firstByte c k n &&& 0x1f).toNat = n := by decide +kernel
  exact hall ⟨cls, hc⟩ constructed ⟨number, hn⟩

/-! ## Reading headers -/

theorem length_tagDigits (n v : Nat) : (tagDigits n v).length = n := by
  induction n, v using tagDigits.induct with
  | case1 => rfl
  | case2 => rfl
  | case3 k v ih => rw [tagDigits, List.length_cons, ih]

theorem parseTagNumber_tagDigits {n v acc : Nat} (hn : 1 ≤ n)
    (hfit : acc * 128 ^ n + v % 128 ^ n < 2 ^ 64) (off : Nat) (rest : List UInt8) :
    parseTagNumber (tagDigits n v ++ rest) acc off =
      (acc * 128 ^ n + v % 128 ^ n, off + n, rest) := by
  induction n, v using tagDigits.induct generalizing acc off with
  | case1 => omega
  | case2 v =>
    rw [Nat.pow_one] at hfit ⊢
    rw [tagDigits, List.singleton_append, parseTagNumber]
    rw [if_pos (digit_and_flag _), digit_and_digit, flagged_and_digit, Nat.mod_eq_of_lt hfit]
  | case3 k v ih =>
    -- the leading digit moves into the accumulator
    have hdigit : acc * 128 ^ (k + 2) + v % 128 ^ (k + 2) =
        (acc * 128 + v / 128 ^ (k + 1) % 128) * 128 ^ (k + 1) + v % 128 ^ (k + 1) := by
      rw [Nat.pow_succ 128 (k + 1), Nat.mod_mul]
      ring
    have hpos : 0 < 128 ^ (k + 1) := Nat.pow_pos (by decide)
    have hacc : acc * 128 + v / 128 ^ (k + 1) % 128 < 2 ^ 64 := by
      rw [hdigit] at hfit
      have := Nat.le_mul_of_pos_right (acc * 128 + v / 128 ^ (k + 1) % 128) hpos
      omega
    rw [tagDigits, List.cons_append, parseTagNumber]
    rw [if_neg (flagged_and_flag _), flagged_and_digit, Nat.mod_eq_of_lt hacc,
      ih (by omega) (by rw [← hdigit]; exact hfit), ← hdigit]
    congr 2
    omega

theorem parseLength_lengthOctets {len : Nat} (h : len < 2 ^ 24) (off : Nat)
    (rest beyond : List UInt8) :
    parseLength (lengthOctets len ++ rest) beyond off =
      .ok (len, off + (lengthOctets len).length) := by
  unfold lengthOctets
  split_ifs with hshort
  · have hbyte : (UInt8.ofNat len).toNat = len := by
      rw [UInt8.toNat_ofNat']
      exact Nat.mod_eq_of_lt (by omega)
    have hle : UInt8.ofNat len ≤ 127 := by
      rw [UInt8.le_iff_toNat_le, hbyte]
      exact hshort
    rw [List.singleton_append, parseLength]
    rw [if_pos hle, hbyte]
    rfl
  · have hcount : loopCount 256 7 len < 3 := loopCount_lt_of_lt_pow 7 len (by omega) (by omega)
    have hlt : len < 256 ^ (1 + loopCount 256 7 len) :=
      lt_pow_loopCount (by omega) 7 len (by omega)
    generalize loopCount 256 7 len = c at hcount hlt ⊢
    have hflag : ¬ (UInt8.ofNat (1 + c) ||| 0x80) ≤ 127 := by
      match c, hcount with
      | 0, _ => decide
      | 1, _ => decide
      | 2, _ => decide
    have hdigits : ((UInt8.ofNat (1 + c) ||| 0x80) &&& 0x7f).toNat = 1 + c := by
      rw [flagged_and_digit]
      omega
    have hslice : slice (beBytes (1 + c) len ++ rest ++ beyond) 0 (1 + c) =
        some (beBytes (1 + c) len) := by
      have := slice_append [] (beBytes (1 + c) len) (rest ++ beyond)
      rw [length_beBytes] at this
      simpa using this
    rw [List.cons_append, parseLength]
    dsimp only
    rw [if_neg hflag, hdigits, if_neg (by omega), hslice]
    dsimp only
    rw [beNat_beBytes_of_lt hlt, List.length_cons, length_beBytes]
    congr 2
    omega

/-- A header that `parseTagAndLength` can read. -/
structure TagAndLen.Fits (t : TagAndLen) : Prop where
  cls : t.cls < 4
  tagNumber : t.tagNumber < 2 ^ 63
  len : t.len < 2 ^ 24

/-- What was written is read back, whatever follows. -/
theorem parseTagAndLength_append {t : TagAndLen} (ht : t.Fits) (rest beyond : List UInt8) :
    parseTagAndLength (appendTagAndLen t ++ rest) beyond =
      .ok (t, (appendTagAndLen t).length) := by
  unfold appendTagAndLen identifier
  split_ifs with hshort
  · obtain ⟨hcls, hcons, hnum⟩ := firstByte_fields t.constructed ht.cls (by omega : t.tagNumber < 32)
    have hne : firstByte t.cls t.constructed t.tagNumber &&& 0x1f ≠ 0x1f := by
      intro h
      rw [h] at hnum
      have : (0x1f : UInt8).toNat = 31 := rfl
      omega
    rw [List.singleton_append, List.cons_append, parseTagAndLength]
    dsimp only
    rw [if_pos hne, parseLength_lengthOctets ht.len, hcls, hcons, hnum, List.length_cons]
    show Except.ok _ = Except.ok _
    congr 2
    omega
  · obtain ⟨hcls, hcons, hnum⟩ := firstByte_fields t.constructed ht.cls (by omega : 31 < 32)
    have heq : firstByte t.cls t.constructed 31 &&& 0x1f = 0x1f := UInt8.toNat_inj.mp hnum
    have hlt : t.tagNumber < 128 ^ (1 + loopCount 128 9 t.tagNumber) :=
      lt_pow_loopCount (by omega) 9 t.tagNumber (by have := ht.tagNumber; omega)
    have hcount : loopCount 128 9 t.tagNumber < 9 :=
      loopCount_lt_of_lt_pow 9 t.tagNumber (by omega) (by have := ht.tagNumber; omega)
    generalize loopCount 128 9 t.tagNumber = c at hlt hcount ⊢
    have hmod : t.tagNumber % 128 ^ (1 + c) = t.tagNumber := Nat.mod_eq_of_lt hlt
    have hdigits := @parseTagNumber_tagDigits (1 + c) t.tagNumber 0 (by omega)
      (by rw [Nat.zero_mul, hmod]; have := ht.tagNumber; omega) 1 (lengthOctets t.len ++ rest)
    rw [Nat.zero_mul, hmod, Nat.zero_add] at hdigits
    rw [List.cons_append, List.cons_append, List.append_assoc, parseTagAndLength]
    dsimp only
    rw [if_neg (not_not.mpr heq), hdigits]
    dsimp only
    rw [if_neg (by omega), parseLength_lengthOctets ht.len, hcls, hcons, List.length_cons,
      List.length_append, length_tagDigits]
    show Except.ok _ = Except.ok _
    congr 2
    omega

/-! ## Integers -/

theorem lt_shifts (fuel n : Nat) (h : n < 128 * 256 ^ fuel) :
    n < 128 * 256 ^ int64Len.shifts (127 < ·) fuel n := by
  induction fuel generalizing n with
  | zero => exact h
  | succ k ih =>
    unfold int64Len.shifts
    split_ifs with hlarge
    · have hdiv : n / 256 < 128 * 256 ^ k := by
        rw [Nat.pow_succ] at h
        omega
      have hlt := ih (n / 256) hdiv
      rw [Int.natCast_div] at hlt
      rw [Nat.pow_succ]
      show n < 128 * (256 ^ int64Len.shifts (127 < ·) k ((n : Int) / 256) * 256)
      have : ((256 : Nat) : Int) = 256 := rfl
      rw [this] at hlt
      omega
    · rw [decide_eq_true_eq] at hlarge
      omega

theorem shifts_le (fuel n : Nat) {m : Nat} (h : n < 128 * 256 ^ m) :
    int64Len.shifts (127 < ·) fuel n ≤ m := by
  induction fuel generalizing n m with
  | zero => exact Nat.zero_le m
  | succ k ih =>
    unfold int64Len.shifts
    split_ifs with hlarge
    · rw [decide_eq_true_eq] at hlarge
      obtain ⟨l, rfl⟩ : ∃ l, m = l + 1 := by
        refine ⟨m - 1, ?_⟩
        rcases m with _ | l
        · omega
        · rfl
      have hdiv : n / 256 < 128 * 256 ^ l := by
        rw [Nat.pow_succ] at h
        omega
      have hle := ih (n / 256) hdiv
      rw [Int.natCast_div] at hle
      exact Nat.succ_le_succ hle
    · exact Nat.zero_le m

theorem shifts_eq_zero {p : Int → Bool} {x : Int} (h : p x = false) (fuel : Nat) :
    int64Len.shifts p fuel x = 0 := by
  cases fuel with
  | zero => rfl
  | succ k =>
    unfold int64Len.shifts
    rw [h, if_neg Bool.false_ne_true]

theorem shifts_negative (fuel n : Nat) : int64Len.shifts (· < -128) fuel n = 0 :=
  shifts_eq_zero (decide_eq_false (by omega)) fuel

theorem shifts_of_neg (fuel m : Nat) : int64Len.shifts (127 < ·) fuel (-(m : Int) - 1) = 0 :=
  shifts_eq_zero (decide_eq_false (by omega)) fuel

/-- The second loop on a negative number is the first one on its complement. -/
theorem shifts_complement (fuel m : Nat) :
    int64Len.shifts (· < -128) fuel (-(m : Int) - 1) = int64Len.shifts (127 < ·) fuel m := by
  induction fuel generalizing m with
  | zero => rfl
  | succ k ih =>
    have hdiv : (-(m : Int) - 1) / 256 = -((m / 256 : Nat) : Int) - 1 := by omega
    unfold int64Len.shifts
    rw [hdiv, ih]
    by_cases h : 127 < (m : Int)
    · rw [if_pos (by rw [decide_eq_true_eq]; omega), if_pos (by rw [decide_eq_true_eq]; exact h)]
      rfl
    · rw [if_neg (by rw [decide_eq_true_eq]; omega), if_neg (by rw [decide_eq_true_eq]; exact h)]

/-- `n + 1` octets of two's complement have room for `i`. -/
def Room (n : Nat) (i : Int) : Prop := -(128 * 256 ^ n : Nat) ≤ i ∧ i < (128 * 256 ^ n : Nat)

/-- `Len` is the least number of octets that has room. -/
theorem int64Len_spec (i : Int64) :
    ∃ n, int64Len i.toInt = n + 1 ∧ n ≤ 7 ∧ Room n i.toInt ∧ ∀ m, Room m i.toInt → n ≤ m := by
  have hlo := i.le_toInt
  have hhi := i.toInt_lt
  unfold int64Len Room
  rcases Int.lt_or_le i.toInt 0 with hneg | hnonneg
  · obtain ⟨m, hm⟩ : ∃ m : Nat, i.toInt = -(m : Int) - 1 := ⟨(-i.toInt - 1).toNat, by omega⟩
    have hlow := lt_shifts 8 m (by omega)
    rw [hm, shifts_of_neg, shifts_complement]
    refine ⟨_, by omega, shifts_le 8 m (by omega), ⟨by omega, by omega⟩, ?_⟩
    exact fun k hk => shifts_le 8 m (by omega)
  · obtain ⟨m, hm⟩ := Int.eq_ofNat_of_zero_le hnonneg
    have hlow := lt_shifts 8 m (by omega)
    rw [hm, shifts_negative]
    refine ⟨_, by omega, shifts_le 8 m (by omega), ⟨by omega, by omega⟩, ?_⟩
    exact fun k hk => shifts_le 8 m (by omega)

/-- The 64 bits of an integer end in its octets. -/
theorem toNat_eq_add (i : Int64) {n : Nat} (h : n ≤ 7) :
    ∃ c : Int, (i.toUInt64.toNat : Int) = i.toInt + (256 ^ (n + 1) : Nat) * c := by
  rcases Int.lt_or_le i.toInt 0 with hneg | hnonneg
  · refine ⟨(256 ^ (7 - n) : Nat), ?_⟩
    rw [← Int.natCast_mul, ← Nat.pow_add, show n + 1 + (7 - n) = 8 by omega,
      toNat_toUInt64_of_neg hneg]
    rfl
  · exact ⟨0, by rw [toNat_toUInt64_of_nonneg hnonneg, Int.mul_zero, Int.add_zero]⟩

/-- An integer that is not negative is read back from its octets. -/
theorem parseInt64_int64Bytes {i : Int64} (h : 0 ≤ i.toInt) : parseInt64 (int64Bytes i) = .ok i := by
  obtain ⟨n, hlen, hn, ⟨_, hroom⟩, _⟩ := int64Len_spec i
  have hnat := toNat_toUInt64_of_nonneg h
  unfold int64Bytes parseInt64
  rw [hlen, length_beBytes, if_neg (by omega), beNat_beBytes_of_lt (by rw [Nat.pow_succ]; omega)]
  congr 1
  apply Int64.toInt_inj.mp
  rw [Int64.toInt_ofNat_of_lt (by have := i.toInt_lt; omega), hnat]

end Free5gc.Chf.Asn
