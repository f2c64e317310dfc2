/-
  `appendTagAndLen` (`cdr/asn/ber_marshal.go`) statement by statement: the digits of a long tag
  number and of a long length are written from the last to the first, through indices into the
  slice that has been grown for them.

  `writeTagAndLen_nil` says that on an empty slice, which both callers pass, this gives the octets of
  `Header`. No index is out of range, and what is written is read back.
-/
import Free5gc.Chf.Asn.Header

namespace Free5gc.Chf.Asn

open Free5gc.Lib

/-! ## The writer -/

/-- `for i := 0; i < n; i++ { dst[n-1-i+offset] = byte(v) | flag; v >>= shift }`, by what is left of
    `n`; `none` is an index out of range. -/
def fillBack (flag : UInt8) (shift offset : Nat) : (n v : Nat) → List UInt8 → Option (List UInt8)
  | 0, _, dst => some dst
  | k + 1, v, dst =>
    if k + offset < dst.length then
      fillBack flag shift offset k (v >>> shift) (dst.set (k + offset) (UInt8.ofNat v ||| flag))
    else none

/-- `dst[i] &= 0x7f` -/
def clearFlag (dst : List UInt8) (i : Nat) : Option (List UInt8) :=
  dst[i]?.map fun b => dst.set i (b &&& 0x7f)

/-- The identifier octets behind `dst`, and `offset`. -/
def writeTag (dst : List UInt8) (t : TagAndLen) : Option (List UInt8 × Nat) :=
  if t.tagNumber ≤ 30 then some (dst ++ [firstByte t.cls t.constructed t.tagNumber], 1)
  else do
    let n := 1 + loopCount 128 9 t.tagNumber
    let dst := dst ++ [firstByte t.cls t.constructed 31] ++ List.replicate n 0
    let dst ← fillBack 0x80 7 1 n t.tagNumber dst
    let dst ← clearFlag dst (n - 1 + 1)
    some (dst, 1 + n)

def writeTagAndLen (dst : List UInt8) (t : TagAndLen) : Option (List UInt8) := do
  let (dst, offset) ← writeTag dst t
  if t.len ≤ 127 then some (dst ++ [UInt8.ofNat t.len])
  else
    let n := 1 + loopCount 256 7 t.len
    fillBack 0 8 (offset + 1) n t.len (dst ++ [UInt8.ofNat n ||| 0x80] ++ List.replicate n 0)

/-! ## The digits -/

/-- What `fillBack` writes: the digits of `v`, the last of them at the end. -/
def digitsBack (flag : UInt8) (shift : Nat) : (n v : Nat) → List UInt8
  | 0, _ => []
  | k + 1, v => digitsBack flag shift k (v >>> shift) ++ [UInt8.ofNat v ||| flag]

theorem fillBack_zeros (flag : UInt8) (shift : Nat) (w tail : List UInt8) (n v : Nat) :
    fillBack flag shift w.length n v (w ++ (List.replicate n 0 ++ tail)) =
      some (w ++ (digitsBack flag shift n v ++ tail)) := by
  induction n generalizing v tail with
  | zero => rfl
  | succ k ih =>
    have hset : (w ++ (List.replicate (k + 1) 0 ++ tail)).set (k + w.length) (UInt8.ofNat v ||| flag) =
        w ++ (List.replicate k 0 ++ ((UInt8.ofNat v ||| flag) :: tail)) := by
      rw [List.replicate_succ', List.append_assoc, List.singleton_append, ← List.append_assoc,
        List.set_append_right _ _ (by simp [Nat.add_comm])]
      simp [Nat.add_comm k]
    rw [fillBack, if_pos (by simp; omega), hset, ih, digitsBack, List.append_assoc,
      List.singleton_append]

theorem digitsBack_bytes (n v : Nat) : digitsBack 0 8 n v = beBytes n v := by
  induction n generalizing v with
  | zero => rfl
  | succ k ih =>
    rw [digitsBack, ih, beBytes_succ, Nat.shiftRight_eq_div_pow, UInt8.or_zero]

/-- The first digit first. -/
theorem digitsBack_cons (n v : Nat) :
    digitsBack 0x80 7 (n + 1) v =
      (UInt8.ofNat (v / 128 ^ n) ||| 0x80) :: digitsBack 0x80 7 n v := by
  induction n generalizing v with
  | zero => rw [Nat.pow_zero, Nat.div_one]; rfl
  | succ k ih =>
    rw [digitsBack, ih, digitsBack, Nat.shiftRight_eq_div_pow, Nat.div_div_eq_div_mul,
      ← Nat.pow_succ']
    rfl

/-- The tag number as it stands once the flag of the last digit is cleared. -/
theorem digitsBack_tag (n v : Nat) :
    digitsBack 0x80 7 n (v >>> 7) ++ [(UInt8.ofNat v ||| 0x80) &&& 0x7f] = tagDigits (n + 1) v := by
  induction n with
  | zero => rfl
  | succ k ih =>
    rw [digitsBack_cons, List.cons_append, ih, tagDigits, Nat.shiftRight_eq_div_pow,
      Nat.div_div_eq_div_mul, ← Nat.pow_succ']

/-! ## The octets -/

theorem clearFlag_concat (w : List UInt8) (b : UInt8) :
    clearFlag (w ++ [b]) w.length = some (w ++ [b &&& 0x7f]) := by
  rw [clearFlag, List.getElem?_concat_length]
  simp [List.set_append_right]

theorem writeTag_nil (t : TagAndLen) :
    writeTag [] t = some (identifier t, (identifier t).length) := by
  unfold writeTag identifier
  split_ifs with hshort
  · rfl
  · have hfill := fillBack_zeros 0x80 7 [firstByte t.cls t.constructed 31] []
      (1 + loopCount 128 9 t.tagNumber) t.tagNumber
    rw [List.append_nil, List.append_nil, List.length_singleton] at hfill
    rw [Nat.add_comm 1] at hfill ⊢
    dsimp only
    rw [List.nil_append, hfill, Option.bind_eq_bind, Option.bind_some]
    generalize loopCount 128 9 t.tagNumber = n
    have hlen : (digitsBack 0x80 7 n (t.tagNumber >>> 7)).length = n := by
      have := congrArg List.length (digitsBack_tag n t.tagNumber)
      rw [length_tagDigits] at this
      simpa using this
    have hclear := clearFlag_concat
      (firstByte t.cls t.constructed 31 :: digitsBack 0x80 7 n (t.tagNumber >>> 7))
      (UInt8.ofNat t.tagNumber ||| 0x80)
    rw [List.length_cons, hlen, List.cons_append, List.cons_append, digitsBack_tag] at hclear
    rw [digitsBack, List.singleton_append, Nat.add_sub_cancel, hclear, List.length_cons,
      length_tagDigits, Nat.add_comm 1]
    rfl

/-- The indices meet the octets of `Header`. -/
theorem writeTagAndLen_nil (t : TagAndLen) : writeTagAndLen [] t = some (appendTagAndLen t) := by
  unfold writeTagAndLen appendTagAndLen lengthOctets
  rw [writeTag_nil, Option.bind_eq_bind, Option.bind_some]
  dsimp only
  split_ifs with hshort
  · rfl
  · have hfill := fillBack_zeros 0 8
      (identifier t ++ [UInt8.ofNat (1 + loopCount 256 7 t.len) ||| 0x80]) []
      (1 + loopCount 256 7 t.len) t.len
    rw [List.append_nil, List.append_nil, List.length_append, List.length_singleton] at hfill
    rw [hfill, digitsBack_bytes, List.append_assoc, List.singleton_append]

theorem berHeader_read_back {cls tagNumber len : Nat} (constructed : Bool) (hcls : cls < 4)
    (htag : tagNumber < 2 ^ 63) (hlen : len < 2 ^ 24) (rest beyond : List UInt8) :
    ∃ bytes, writeTagAndLen [] ⟨cls, constructed, tagNumber, len⟩ = some bytes ∧
      parseTagAndLength (bytes ++ rest) beyond =
        .ok (⟨cls, constructed, tagNumber, len⟩, bytes.length) :=
  ⟨_, writeTagAndLen_nil _, parseTagAndLength_append ⟨hcls, htag, hlen⟩ rest beyond⟩

/-- The largest header: nine digits of tag number and three of length. -/
theorem berHeader_read_back_largest :
    ∃ bytes, writeTagAndLen [] ⟨3, true, 2 ^ 63 - 1, 2 ^ 24 - 1⟩ = some bytes ∧
      parseTagAndLength (bytes ++ [7]) [] = .ok (⟨3, true, 2 ^ 63 - 1, 2 ^ 24 - 1⟩, bytes.length) :=
  berHeader_read_back true (by decide) (by decide) (by decide) [7] []

end Free5gc.Chf.Asn
