/-
  MS-MPPE keys (`EncryptMppeKey` of `pkg/radius/handler/security.go`). The key, with its length in
  front and zeros behind, is added block by block to a keystream: the MD5 of the secret with the
  request authenticator and the salt for the first block, with the block of the result before for the
  others. `decryptMppeKey` is RFC 2548's way back. MD5 is any function to 16 octets.

  `chain` is the result block by block; `encryptLoop_eq` says that the indices of the loop meet it.
-/
import Free5gc.Lib.Bytes

namespace Free5gc.Tngf.Radius

open Free5gc.Lib

/-- `[md5.Size]byte` -/
abbrev Digest := { b : List UInt8 // b.length = 16 }

variable (md5 : List UInt8 → Digest) (secret : List UInt8)

/-! ## Encryption -/

/-- `n` turns of `result[k] ^= plain[k]` from the index `k` on; `none` is an index out of range. -/
def xorFrom (plain : List UInt8) : (n k : Nat) → List UInt8 → Option (List UInt8)
  | 0, _, result => some result
  | n + 1, k, result => do
    let a ← result[k]?
    let b ← plain[k]?
    xorFrom plain n (k + 1) (result.set k (a ^^^ b))

/-- The loop over the blocks from the index `i` on; `first` holds at the index 0 alone. -/
def encryptLoop (authenticator salt plain : List UInt8) :
    (fuel i : Nat) → List UInt8 → Option (List UInt8)
  | 0, _, result => some result
  | n + 1, i, result =>
    if i < plain.length then do
      let block := if i = 0 then secret ++ authenticator ++ salt
        else secret ++ (result.drop (i - 16)).take 16
      let result ← xorFrom plain 16 i (result ++ (md5 block).1)
      encryptLoop authenticator salt plain n (i + 16) result
    else some result

def mppePlain (key : List UInt8) : List UInt8 :=
  let padlen := (16 - (key.length + 1) % 16) % 16
  [UInt8.ofNat key.length] ++ key ++ List.replicate padlen 0

def encryptMppeKey (key authenticator : List UInt8) (saltVal : UInt16) : Option (List UInt8) :=
  let plain := mppePlain key
  encryptLoop md5 secret authenticator (beBytes 2 saltVal.toNat) plain plain.length 0 []

/-! ## Decryption -/

def xorBytes (a b : List UInt8) : List UInt8 := List.zipWith (· ^^^ ·) a b

/-- `n` blocks, the first of them behind `prev`. -/
def unchain : (n : Nat) → (prev cipher : List UInt8) → List UInt8
  | 0, _, _ => []
  | n + 1, prev, cipher =>
    xorBytes (md5 (secret ++ prev)).1 (cipher.take 16) ++ unchain n (cipher.take 16) (cipher.drop 16)

/-- The key behind its length octet; `none` if the length says more than there is. -/
def decryptMppeKey (authenticator : List UInt8) (saltVal : UInt16) (cipher : List UInt8) :
    Option (List UInt8) :=
  match unchain md5 secret (cipher.length / 16) (authenticator ++ beBytes 2 saltVal.toNat) cipher with
  | [] => none
  | len :: rest => if len.toNat ≤ rest.length then some (rest.take len.toNat) else none

/-! ## The blocks -/

/-- The result for `n` blocks of `plain`, the first of them behind `prev`. -/
def chain : (n : Nat) → (prev plain : List UInt8) → List UInt8
  | 0, _, _ => []
  | n + 1, prev, plain =>
    let c := xorBytes (md5 (secret ++ prev)).1 (plain.take 16)
    c ++ chain n c (plain.drop 16)

variable {md5 secret} {plain : List UInt8}

theorem xorBytes_cancel {a b : List UInt8} (h : a.length = b.length) :
    xorBytes a (xorBytes a b) = b := by
  induction a generalizing b with
  | nil => exact (List.length_eq_zero_iff.mp h.symm).symm
  | cons x a ih =>
    match b, h with
    | y :: b, h =>
      have hxy : x ^^^ (x ^^^ y) = y := by rw [← UInt8.xor_assoc, UInt8.xor_self, UInt8.zero_xor]
      show (x ^^^ (x ^^^ y)) :: xorBytes a (xorBytes a b) = y :: b
      rw [hxy, ih (Nat.succ.inj h)]

theorem length_xorBytes_digest (d : Digest) (h : 16 ≤ plain.length) :
    (xorBytes d.1 (plain.take 16)).length = 16 := by
  rw [xorBytes, List.length_zipWith, d.2, List.length_take]
  omega

theorem length_chain (n : Nat) (prev : List UInt8) (h : plain.length = 16 * n) :
    (chain md5 secret n prev plain).length = 16 * n := by
  induction n generalizing prev plain with
  | zero => rfl
  | succ n ih =>
    rw [chain, List.length_append, length_xorBytes_digest _ (by omega),
      ih _ (by rw [List.length_drop]; omega)]
    omega

/-- Each block is read with the block of the result before it. -/
theorem unchain_chain (n : Nat) (prev : List UInt8) (h : plain.length = 16 * n) :
    unchain md5 secret n prev (chain md5 secret n prev plain) = plain := by
  induction n generalizing prev plain with
  | zero => exact (List.length_eq_zero_iff.mp h).symm
  | succ n ih =>
    have hlen := length_xorBytes_digest (md5 (secret ++ prev)) (by omega : 16 ≤ plain.length)
    rw [chain, unchain, List.take_left' hlen, List.drop_left' hlen,
      ih _ (by rw [List.length_drop]; omega), xorBytes_cancel, List.take_append_drop]
    rw [(md5 (secret ++ prev)).2, List.length_take]
    omega

/-! ## The indices -/

theorem xorFrom_eq (u p v w b : List UInt8) (huw : u.length = w.length) (hpb : p.length = b.length) :
    xorFrom (u ++ (p ++ v)) p.length w.length (w ++ b) = some (w ++ xorBytes b p) := by
  induction p generalizing u w b with
  | nil => rw [List.length_eq_zero_iff.mp hpb.symm]; rfl
  | cons y p ih =>
    match b, hpb with
    | x :: b, hpb =>
      have hset : (w ++ x :: b).set w.length (x ^^^ y) = (w ++ [x ^^^ y]) ++ b := by
        rw [List.set_append_right _ _ (Nat.le_refl _), Nat.sub_self, List.append_assoc]
        rfl
      have hplain : u ++ (y :: p ++ v) = (u ++ [y]) ++ (p ++ v) := by simp
      have hx : (w ++ x :: b)[w.length]? = some x := by simp
      have hy : (u ++ (y :: p ++ v))[w.length]? = some y := by simp [← huw]
      have hrest := ih (u ++ [y]) (w ++ [x ^^^ y]) b (by simp [huw]) (Nat.succ.inj hpb)
      rw [List.length_append, List.length_singleton] at hrest
      rw [List.length_cons, xorFrom, hx, hy, Option.bind_eq_bind, Option.bind_some,
        Option.bind_some, hset, hplain, hrest, List.append_assoc]
      rfl

/-- One turn of the loop at the index `i`, with `prev` hashed behind the secret. -/
theorem encryptLoop_turn {authenticator salt prev u rest result : List UInt8} {fuel : Nat}
    (hu : u.length = result.length) (hrest : 16 ≤ rest.length)
    (hprev : prev = if result.length = 0 then authenticator ++ salt
      else (result.drop (result.length - 16)).take 16) :
    encryptLoop md5 secret authenticator salt (u ++ rest) (fuel + 1) result.length result =
      encryptLoop md5 secret authenticator salt (u ++ rest) fuel (result.length + 16)
        (result ++ xorBytes (md5 (secret ++ prev)).1 (rest.take 16)) := by
  have hblock : (if result.length = 0 then secret ++ authenticator ++ salt
      else secret ++ (result.drop (result.length - 16)).take 16) = secret ++ prev := by
    rw [hprev]
    split_ifs
    · rw [List.append_assoc]
    · rfl
  have htake : (rest.take 16).length = 16 := by rw [List.length_take]; omega
  have hxor := xorFrom_eq u (rest.take 16) (rest.drop 16) result (md5 (secret ++ prev)).1 hu
    (by rw [htake, (md5 (secret ++ prev)).2])
  rw [List.take_append_drop, htake] at hxor
  rw [encryptLoop, if_pos (by rw [List.length_append, hu]; omega), hblock]
  dsimp only
  rw [hxor]
  rfl

/-- The loop from the index at which `result` ends. -/
theorem encryptLoop_eq {authenticator salt prev u rest result : List UInt8} (n : Nat) {fuel : Nat}
    (hu : u.length = result.length) (hrest : rest.length = 16 * n) (hfuel : n ≤ fuel)
    (hprev : prev = if result.length = 0 then authenticator ++ salt
      else (result.drop (result.length - 16)).take 16) :
    encryptLoop md5 secret authenticator salt (u ++ rest) fuel result.length result =
      some (result ++ chain md5 secret n prev rest) := by
  induction n generalizing prev u rest result fuel with
  | zero =>
    rw [List.length_eq_zero_iff.mp hrest, List.append_nil, chain, List.append_nil]
    cases fuel with
    | zero => rfl
    | succ fuel => exact if_neg (by omega)
  | succ n ih =>
    obtain ⟨fuel, rfl⟩ : ∃ k, fuel = k + 1 := ⟨fuel - 1, by omega⟩
    have hc := length_xorBytes_digest (md5 (secret ++ prev)) (by omega : 16 ≤ rest.length)
    rw [encryptLoop_turn hu (by omega) hprev, chain]
    generalize xorBytes (md5 (secret ++ prev)).1 (rest.take 16) = c at hc ⊢
    have hlen : (result ++ c).length = result.length + 16 := by rw [List.length_append, hc]
    have hlast : c = if (result ++ c).length = 0 then authenticator ++ salt
        else ((result ++ c).drop ((result ++ c).length - 16)).take 16 := by
      rw [if_neg (by omega), hlen, Nat.add_sub_cancel, List.drop_left, List.take_of_length_le hc.le]
    have hsplit : u ++ rest = (u ++ rest.take 16) ++ rest.drop 16 := by
      rw [List.append_assoc, List.take_append_drop]
    rw [← hlen, hsplit, ih (by rw [hlen, List.length_append, hu, List.length_take]; omega)
      (by rw [List.length_drop]; omega) (by omega) hlast, List.append_assoc]

/-! ## Keys -/

theorem length_mppePlain (key : List UInt8) :
    (mppePlain key).length = 16 * (key.length / 16 + 1) := by
  simp only [mppePlain, List.length_append, List.length_singleton, List.length_replicate]
  omega

theorem mppeKey_decrypts (md5 : List UInt8 → Digest) (secret key authenticator : List UInt8)
    (saltVal : UInt16) (hkey : key.length ≤ 255) :
    ∃ out, encryptMppeKey md5 secret key authenticator saltVal = some out ∧
      0 < out.length ∧ out.length % 16 = 0 ∧
      decryptMppeKey md5 secret authenticator saltVal out = some key := by
  have hplain := length_mppePlain key
  have hlen : (chain md5 secret (key.length / 16 + 1) (authenticator ++ beBytes 2 saltVal.toNat)
      (mppePlain key)).length = 16 * (key.length / 16 + 1) := length_chain _ _ hplain
  have hout : encryptMppeKey md5 secret key authenticator saltVal = some (chain md5 secret
      (key.length / 16 + 1) (authenticator ++ beBytes 2 saltVal.toNat) (mppePlain key)) :=
    encryptLoop_eq (u := []) _ rfl hplain (by omega) rfl
  refine ⟨_, hout, by omega, by omega, ?_⟩
  have hbyte : (UInt8.ofNat key.length).toNat = key.length := by
    rw [UInt8.toNat_ofNat']
    omega
  rw [decryptMppeKey, hlen, Nat.mul_div_cancel_left _ (by decide), unchain_chain _ _ hplain,
    mppePlain, List.append_assoc, List.singleton_append]
  dsimp only
  rw [hbyte, if_pos (by simp), List.take_left]

/-- A key of 32 octets: with its length it takes three blocks, of which the last is padded. -/
theorem mppeKey_decrypts_blocks : ∃ out,
    encryptMppeKey (fun _ => ⟨List.replicate 16 7, rfl⟩) [1] (List.replicate 32 9) [2] 0x8000 =
      some out ∧ 0 < out.length ∧ out.length % 16 = 0 ∧
    decryptMppeKey (fun _ => ⟨List.replicate 16 7, rfl⟩) [1] [2] 0x8000 out =
      some (List.replicate 32 9) :=
  mppeKey_decrypts _ [1] (List.replicate 32 9) [2] 0x8000 (by decide)

end Free5gc.Tngf.Radius
