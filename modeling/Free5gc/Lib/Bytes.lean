/-
  Byte strings: numbers written as big-endian bytes and read back, bit fields of a word,
  writes at a position of a buffer and reads of a part of it. Nothing in this file names the
  repository.
-/
import Mathlib.Data.List.Basic
import Mathlib.Tactic.Ring

namespace Free5gc.Lib

/-! ## Big-endian numbers -/

/-- The last `k` bytes of a number, the most significant first. -/
def beBytes : Nat → Nat → List UInt8
  | 0, _ => []
  | k + 1, v => UInt8.ofNat (v / 256 ^ k) :: beBytes k v

/-- The number that bytes say, the most significant first. -/
def beNat (bs : List UInt8) : Nat := bs.foldl (fun n b => n * 256 + b.toNat) 0

variable {k : Nat} {r v : UInt8}

@[simp] theorem length_beBytes (k v : Nat) : (beBytes k v).length = k := by
  induction k with
  | zero => rfl
  | succ k ih => rw [beBytes, List.length_cons, ih]

theorem foldl_beNat (bs : List UInt8) (n : Nat) :
    bs.foldl (fun n b => n * 256 + b.toNat) n = n * 256 ^ bs.length + beNat bs := by
  induction bs generalizing n with
  | nil => simp [beNat]
  | cons b bs ih =>
    unfold beNat
    rw [List.foldl_cons, List.foldl_cons, ih, ih (0 * 256 + b.toNat), List.length_cons]
    ring

theorem beNat_cons (b : UInt8) (bs : List UInt8) :
    beNat (b :: bs) = b.toNat * 256 ^ bs.length + beNat bs := by
  have h := foldl_beNat bs (0 * 256 + b.toNat)
  rw [Nat.zero_mul, Nat.zero_add] at h
  unfold beNat at h ⊢
  rw [List.foldl_cons, Nat.zero_mul, Nat.zero_add, h]

theorem beNat_beBytes (k v : Nat) : beNat (beBytes k v) = v % 256 ^ k := by
  induction k with
  | zero => simp [beBytes, beNat, Nat.mod_one]
  | succ k ih =>
    rw [beBytes, beNat_cons, ih, length_beBytes, UInt8.toNat_ofNat']
    -- the first byte is the digit of `256 ^ k`
    have hdigit : v % 256 ^ (k + 1) = v % 256 ^ k + 256 ^ k * (v / 256 ^ k % 256) := Nat.mod_mul
    rw [hdigit, Nat.add_comm, Nat.mul_comm (256 ^ k)]

theorem beNat_beBytes_of_lt {v : Nat} (h : v < 256 ^ k) : beNat (beBytes k v) = v := by
  rw [beNat_beBytes, Nat.mod_eq_of_lt h]

theorem beNat_lt (bs : List UInt8) : beNat bs < 256 ^ bs.length := by
  induction bs with
  | nil => decide
  | cons b bs ih =>
    have hb := b.toNat_lt
    rw [beNat_cons, List.length_cons, Nat.pow_succ]
    have : b.toNat * 256 ^ bs.length ≤ 255 * 256 ^ bs.length := Nat.mul_le_mul_right _ (by omega)
    omega

/-- The last byte first. -/
theorem beBytes_succ (k v : Nat) : beBytes (k + 1) v = beBytes k (v / 256) ++ [UInt8.ofNat v] := by
  induction k with
  | zero => simp [beBytes]
  | succ k ih =>
    rw [beBytes, ih, beBytes, List.cons_append, Nat.div_div_eq_div_mul, Nat.pow_succ']

/-- The number that bytes say in two's complement. -/
def twosComplement (bs : List UInt8) : Int := Int.bmod (beNat bs) (256 ^ bs.length)

theorem twosComplement_mem {bs : List UInt8} {n : Nat} (h : bs.length = n + 1) :
    -(128 * 256 ^ n : Nat) ≤ twosComplement bs ∧ twosComplement bs < (128 * 256 ^ n : Nat) := by
  have hpos : 0 < 256 ^ n := Nat.pow_pos (by decide)
  unfold twosComplement
  rw [h, Nat.pow_succ]
  have hlo := Int.le_bmod (x := (beNat bs : Int)) (m := 256 ^ n * 256) (by omega)
  have hhi := Int.bmod_lt (x := (beNat bs : Int)) (m := 256 ^ n * 256) (by omega)
  omega

/-- A number that `n + 1` bytes have room for is the two's complement of its last bytes. -/
theorem twosComplement_beBytes {i c : Int} {n v : Nat} (hlo : -(128 * 256 ^ n : Nat) ≤ i)
    (hhi : i < (128 * 256 ^ n : Nat)) (hv : (v : Int) = i + (256 ^ (n + 1) : Nat) * c) :
    twosComplement (beBytes (n + 1) v) = i := by
  unfold twosComplement
  rw [beNat_beBytes, length_beBytes, Int.natCast_mod, Int.emod_bmod, hv,
    Int.add_mul_bmod_self_left]
  rw [Nat.pow_succ]
  exact Int.bmod_eq_of_le (by omega) (by omega)

/-! ## Bit fields -/

/-- A field below the bits of another one is added to it. -/
theorem or_eq_add (a : Nat) {b : Nat} (h : b < 2 ^ k) : a * 2 ^ k ||| b = a * 2 ^ k + b := by
  rw [Nat.mul_comm, ← Nat.two_pow_add_eq_or_of_lt h]

/-- A field of three bits above one of five. -/
theorem toNat_fields (hr : r.toNat < 8) (hv : v.toNat < 32) :
    (r <<< 5 ||| v).toNat = r.toNat * 2 ^ 5 + v.toNat := by
  have hshift : (r <<< 5).toNat = r.toNat * 2 ^ 5 := by
    rw [UInt8.toNat_shiftLeft, Nat.shiftLeft_eq]
    show r.toNat * 2 ^ 5 % 2 ^ 8 = r.toNat * 2 ^ 5
    omega
  rw [UInt8.toNat_or, hshift, or_eq_add _ hv]

theorem fields_shiftRight (hr : r.toNat < 8) (hv : v.toNat < 32) : (r <<< 5 ||| v) >>> 5 = r := by
  apply UInt8.toNat_inj.mp
  rw [UInt8.toNat_shiftRight, toNat_fields hr hv, Nat.shiftRight_eq_div_pow]
  show (r.toNat * 2 ^ 5 + v.toNat) / 2 ^ 5 = r.toNat
  omega

theorem fields_and (hr : r.toNat < 8) (hv : v.toNat < 32) : (r <<< 5 ||| v) &&& 31 = v := by
  apply UInt8.toNat_inj.mp
  rw [UInt8.toNat_and, toNat_fields hr hv]
  show _ &&& (2 ^ 5 - 1) = _
  rw [Nat.and_two_pow_sub_one_eq_mod]
  omega

/-! ## Buffers -/

/-- `copy(b[pos:], bs)` for bytes that the buffer has room for; `none` where Go panics. -/
def writeAt (b : List UInt8) (pos : Nat) (bs : List UInt8) : Option (List UInt8) :=
  if pos + bs.length ≤ b.length then some (b.take pos ++ (bs ++ b.drop (pos + bs.length)))
  else none

/-- Writing at the start of the part of a new buffer that is still zero. -/
theorem writeAt_zeros (w bs : List UInt8) {pos : Nat} (hpos : pos = w.length) (hk : bs.length ≤ k) :
    writeAt (w ++ List.replicate k 0) pos bs =
      some ((w ++ bs) ++ List.replicate (k - bs.length) 0) := by
  subst hpos
  unfold writeAt
  rw [if_pos (by rw [List.length_append, List.length_replicate]; omega), List.take_left,
    List.drop_append, List.drop_replicate, List.drop_eq_nil_of_le (by omega),
    Nat.add_sub_cancel_left, List.nil_append, List.append_assoc]

/-- `b[lo:hi]`; `none` where Go panics. -/
def slice (b : List UInt8) (lo hi : Nat) : Option (List UInt8) :=
  if lo ≤ hi ∧ hi ≤ b.length then some ((b.drop lo).take (hi - lo)) else none

theorem slice_append (a b c : List UInt8) :
    slice (a ++ (b ++ c)) a.length (a.length + b.length) = some b := by
  unfold slice
  rw [if_pos (by simp), List.drop_left, Nat.add_sub_cancel_left, List.take_left]

theorem slice_eq_none {b : List UInt8} {lo hi : Nat} (h : hi < lo) : slice b lo hi = none :=
  if_neg fun h' => absurd h'.1 (by omega)

theorem flatten_eq_append {ps : List (List UInt8)} {i : Nat} {p : List UInt8}
    (hp : ps[i]? = some p) :
    ps.flatten = (ps.take i).flatten ++ (p ++ (ps.drop (i + 1)).flatten) := by
  obtain ⟨hi, hget⟩ := List.getElem?_eq_some_iff.mp hp
  conv_lhs => rw [← List.take_append_drop i ps, List.drop_eq_getElem_cons hi, hget]
  rw [List.flatten_append, List.flatten_cons]

/-- The `i`-th part of a buffer that was written in parts. -/
theorem slice_flatten {ps : List (List UInt8)} {i : Nat} {p : List UInt8} (hp : ps[i]? = some p)
    {lo hi : Nat} (hlo : lo = (ps.take i).flatten.length) (hhi : hi = lo + p.length) :
    slice ps.flatten lo hi = some p := by
  rw [flatten_eq_append hp, hhi, hlo]
  exact slice_append _ _ _

/-- As `slice_flatten`, for a part of one byte. -/
theorem getElem?_flatten_parts {ps : List (List UInt8)} {i : Nat} {b : UInt8}
    (hp : ps[i]? = some [b]) (hk : k = (ps.take i).flatten.length) : ps.flatten[k]? = some b := by
  rw [flatten_eq_append hp, hk, List.getElem?_append_right (Nat.le_refl _), Nat.sub_self]
  rfl

end Free5gc.Lib
