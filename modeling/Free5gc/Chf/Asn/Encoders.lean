/-
  The encoders of `cdr/asn`. `makeField` builds a tree of them; `Len` says how many octets a tree
  is going to write, and `Encode` writes them to the front of a buffer. A nested encoder gets the
  part of the buffer behind what the encoders before it announced.

  Every encoder writes as many octets as it announces (`encode_eq`), so the buffer that
  `BerMarshalWithParams` makes is filled, and what it holds then is what `makeField` of the model
  says (`berMarshalBuffer_eq`). A tree need not come about, though. `Ty.encodeFaults` lists what is
  wrong with a value in the order of its fields, and the first of it decides.
-/
import Free5gc.Chf.Asn.Ber

namespace Free5gc.Chf.Asn

open Free5gc.Lib

/-! ## Encoders -/

inductive Encoder where
  | byte (b : UInt8)
  | bytes (b : List UInt8)
  | string (s : List UInt8)
  | int64 (i : Int64)
  | bitString (bits : List UInt8) (bitLength : UInt64)
  | struct (s : List Encoder)
  | berType (tagAndLen value : Encoder)

/-- `dst[i] = b` -/
def store (dst : List UInt8) (i : Nat) (b : UInt8) : Except BerError (List UInt8) :=
  if i < dst.length then .ok (dst.set i b) else .error (.panic .shortBuffer)

/-- `copy(dst, b)` -/
def copyTo (dst b : List UInt8) : List UInt8 := b.take dst.length ++ dst.drop b.length

/-- Writing behind the first `n` octets: `dst[n:]` is a part of `dst`. -/
def behind (dst : List UInt8) (n : Nat) (write : List UInt8 → Except BerError (List UInt8)) :
    Except BerError (List UInt8) :=
  if n ≤ dst.length then (write (dst.drop n)).map (dst.take n ++ ·)
  else .error (.panic .shortBuffer)

/-- The loop of `int64Encoder.Encode`, from the last octet to the first. -/
def int64Loop : (n : Nat) → Int → List UInt8 → Except BerError (List UInt8)
  | 0, _, dst => .ok dst
  | k + 1, i, dst => do
    let dst ← store dst k (UInt8.ofInt i)
    int64Loop k (i / 256) dst

namespace Encoder

mutual

def len : Encoder → Nat
  | .byte _ => 1
  | .bytes b => b.length
  | .string s => s.length
  | .int64 i => int64Len i.toInt
  | .bitString bits _ => bits.length + 1
  | .struct s => lenAll s
  | .berType tagAndLen value => tagAndLen.len + value.len

def lenAll : List Encoder → Nat
  | [] => 0
  | e :: s => e.len + lenAll s

end

mutual

def encode : Encoder → List UInt8 → Except BerError (List UInt8)
  | .byte b, dst => store dst 0 b
  | .bytes b, dst => .ok (copyTo dst b)
  | .string s, dst => .ok (copyTo dst s)
  | .int64 i, dst => int64Loop (int64Len i.toInt) i.toInt dst
  | .bitString bits bitLength, dst => do
    let dst ← store dst 0 (8 - bitLength % 8).toUInt8
    behind dst 1 fun rest => .ok (copyTo rest bits)
  | .struct s, dst => encodeAll s dst
  | .berType tagAndLen value, dst => do
    let dst ← tagAndLen.encode dst
    behind dst tagAndLen.len value.encode

def encodeAll : List Encoder → List UInt8 → Except BerError (List UInt8)
  | [], dst => .ok dst
  | e :: s, dst => do
    let dst ← e.encode dst
    behind dst e.len (encodeAll s)

end

mutual

/-- What an encoder writes. -/
def octets : Encoder → List UInt8
  | .byte b => [b]
  | .bytes b => b
  | .string s => s
  | .int64 i => int64Bytes i
  | .bitString bits bitLength => (8 - bitLength % 8).toUInt8 :: bits
  | .struct s => octetsAll s
  | .berType tagAndLen value => tagAndLen.octets ++ value.octets

def octetsAll : List Encoder → List UInt8
  | [] => []
  | e :: s => e.octets ++ octetsAll s

end

mutual

theorem length_octets : ∀ e : Encoder, e.octets.length = e.len
  | .byte _ | .bytes _ | .string _ | .bitString _ _ => rfl
  | .int64 _ => length_beBytes _ _
  | .struct s => length_octetsAll s
  | .berType tagAndLen value => by
    rw [octets, len, List.length_append, length_octets tagAndLen, length_octets value]

theorem length_octetsAll : ∀ s : List Encoder, (octetsAll s).length = lenAll s
  | [] => rfl
  | e :: s => by rw [octetsAll, lenAll, List.length_append, length_octets e, length_octetsAll s]

end

theorem octetsAll_eq_flatten (s : List Encoder) : octetsAll s = (s.map octets).flatten := by
  induction s with
  | nil => rfl
  | cons e s ih => rw [octetsAll, ih, List.map_cons, List.flatten_cons]

end Encoder

/-! ## What is written -/

/-- `write` puts `bs` in the place of the first octets of a buffer that has room for them. -/
def Writes (bs : List UInt8) (write : List UInt8 → Except BerError (List UInt8)) : Prop :=
  ∀ dst : List UInt8, bs.length ≤ dst.length → write dst = .ok (bs ++ dst.drop bs.length)

section Writes

variable {bs cs : List UInt8} {write write' : List UInt8 → Except BerError (List UInt8)}

theorem writes_store (b : UInt8) : Writes [b] fun dst => store dst 0 b := by
  intro dst h
  cases dst with
  | nil => exact absurd h (Nat.not_succ_le_zero 0)
  | cons c cs => exact if_pos (Nat.succ_pos _)

theorem writes_copyTo (b : List UInt8) : Writes b fun dst => .ok (copyTo dst b) := by
  intro dst h
  show Except.ok (b.take dst.length ++ _) = _
  rw [List.take_of_length_le h]

theorem Writes.behind (h : Writes bs write) (h' : Writes cs write') {n : Nat} (hn : bs.length = n) :
    Writes (bs ++ cs) fun dst => write dst >>= fun dst => behind dst n write' := by
  intro dst hdst
  subst hn
  rw [List.length_append] at hdst ⊢
  have hrest : cs.length ≤ (dst.drop bs.length).length := by
    rw [List.length_drop]
    omega
  dsimp only
  rw [h dst (by omega)]
  show Free5gc.Chf.Asn.behind (bs ++ dst.drop bs.length) bs.length write' = _
  unfold Free5gc.Chf.Asn.behind
  rw [if_pos (by rw [List.length_append]; omega), List.drop_left, List.take_left, h' _ hrest,
    List.drop_drop]
  show Except.ok _ = _
  rw [List.append_assoc]

/-- The loop writes the digits that its number and `v` have in common. -/
theorem writes_int64Loop : ∀ (n : Nat) (i c : Int) (v : Nat),
    (v : Int) = i + (256 ^ n : Nat) * c → Writes (beBytes n v) (int64Loop n i)
  | 0, _, _, _, _ => fun _ _ => rfl
  | k + 1, i, c, v, hv => by
    intro dst hdst
    rw [length_beBytes] at hdst ⊢
    have hpow : ((256 ^ (k + 1) : Nat) : Int) = 256 * (256 ^ k : Nat) := by
      rw [Nat.pow_succ', Int.natCast_mul]
      rfl
    have hsplit : (v : Int) = i + 256 * ((256 ^ k : Nat) * c) := by
      rw [hv, hpow, Int.mul_assoc]
    have hdigit : UInt8.ofInt i = UInt8.ofNat v := by
      show UInt8.ofNat (i % 256).toNat = _
      have hmod : (i % 256).toNat = v % 256 := by omega
      rw [hmod]
      exact UInt8.ofNat_mod_size
    have hrest := writes_int64Loop k (i / 256) c (v / 256) (by omega)
    rw [int64Loop, store, if_pos (Nat.lt_of_succ_le hdst)]
    show int64Loop k (i / 256) (dst.set k _) = _
    rw [hrest _ (by rw [length_beBytes, List.length_set]; omega), length_beBytes, beBytes_succ,
      hdigit, List.set_eq_take_cons_drop _ hdst, List.drop_left' (by rw [List.length_take]; omega),
      List.append_assoc]
    rfl

end Writes

namespace Encoder

mutual

/-- An encoder writes its octets, which are as many as `Len` says. -/
theorem writes_encode : ∀ e : Encoder, Writes e.octets e.encode
  | .byte b => writes_store b
  | .bytes b | .string b => writes_copyTo b
  | .int64 i => by
    obtain ⟨n, hlen, hn, _⟩ := int64Len_spec i
    obtain ⟨c, hc⟩ := toNat_eq_add i hn
    show Writes (beBytes (int64Len i.toInt) _) (int64Loop (int64Len i.toInt) i.toInt)
    rw [hlen]
    exact writes_int64Loop (n + 1) i.toInt c _ hc
  | .bitString bits bitLength =>
    (writes_store (8 - bitLength % 8).toUInt8).behind (writes_copyTo bits) rfl
  | .struct s => writes_encodeAll s
  | .berType tagAndLen value =>
    (writes_encode tagAndLen).behind (writes_encode value) (length_octets tagAndLen)

theorem writes_encodeAll : ∀ s : List Encoder, Writes (octetsAll s) (encodeAll s)
  | [] => fun _ _ => rfl
  | e :: s => (writes_encode e).behind (writes_encodeAll s) (length_octets e)

end

/-- A buffer of the announced length is filled. -/
theorem encode_replicate (e : Encoder) : e.encode (List.replicate e.len 0) = .ok e.octets := by
  have hlen : e.octets.length = (List.replicate e.len (0 : UInt8)).length := by
    rw [e.length_octets, List.length_replicate]
  rw [e.writes_encode _ hlen.le, hlen, List.drop_length, List.append_nil]

end Encoder

/-! ## Building the encoders -/

/-- The end of `makeField`. The lengths in the headers are those that the encoders announce. -/
def berTypeEncoder (cls : Nat) (constructed : Bool) (number : Nat) (value : Encoder)
    (params : FieldParameters) : Encoder :=
  match params.tagNumber with
  | none => .berType (.bytes (appendTagAndLen ⟨cls, constructed, number, value.len⟩)) value
  | some n =>
    if params.explicitTag then
      let t := .berType (.bytes (appendTagAndLen ⟨cls, constructed, number, value.len⟩)) value
      .berType (.bytes (appendTagAndLen ⟨2, true, n, t.len⟩)) t
    else .berType (.bytes (appendTagAndLen ⟨2, constructed, n, value.len⟩)) value

/-- What an embedded CHOICE does with the encoder of its alternative: the error is only printed,
    and a nil encoder has no `Len`. -/
def embeddedEncoder : Except BerError Encoder → Except BerError Encoder
  | .ok e => .ok e
  | .error .unsupportedObjectIdentifier => .ok (.bytes [])
  | .error (.panic p) => .error (.panic p)
  | .error _ => .error (.panic .faultyAlternative)

mutual

def makeEncoder : (t : Ty) → t.Val → FieldParameters → Except BerError Encoder
  | .ptr _, none, _ => .error .nilValue
  | .ptr t, some v, params => makeEncoder t v params
  | .bitString, (bytes, bitLength), params =>
    .ok (berTypeEncoder 0 false 3 (.bitString bytes bitLength) params)
  | .objectIdentifier, _, _ => .error .unsupportedObjectIdentifier
  | .octetString, v, params => .ok (berTypeEncoder 0 false 4 (.bytes (v.getD [])) params)
  | .enumerated, v, params => .ok (berTypeEncoder 0 false 10 (.int64 v) params)
  | .null, _, params => .ok (berTypeEncoder 0 false 5 (.bytes []) params)
  | .bool, v, params => .ok (berTypeEncoder 0 false 1 (.byte (if v then 0xff else 0)) params)
  | .int, v, params => .ok (berTypeEncoder 0 false 2 (.int64 v) params)
  | .int32, v, params => .ok (berTypeEncoder 0 false 2 (.int64 v.toInt64) params)
  | .value t, v, params => makeEncoder t v params
  | .list t, v, params => makeEncoder t v params
  | .choice alts, (present, v), params =>
    if present < 0 ∨ (alts.length : Int) < present then .error (.panic .outsideChoice)
    else if present = 0 then .error .presentIsZero
    else if params.openType then .error .openTypeNotImplemented
    else
      match params.tagNumber with
      | none => makeAlternativeEncoder alts v (present.toNat - 1)
      | some _ => do
        let value ← embeddedEncoder (makeAlternativeEncoder alts v (present.toNat - 1))
        .ok (berTypeEncoder 0 true 0 value params)
  | .struct fs, v, params => do
    let (s, assigned) ← makeFieldEncoders fs v
    if assigned then .ok (berTypeEncoder 0 true (setOrSequence params) (.struct s) params)
    else .error (.panic .nothingPresent)
  | .slice t, v, params => do
    let s ← (v.getD []).mapM fun x => iterate (makeEncoder t x { params with tagNumber := none })
    .ok (berTypeEncoder 0 true (setOrSequence params) (.struct s) params)
  | .string, v, params => .ok (berTypeEncoder 0 false params.stringType (.string v) params)

/-- The loop over the fields: their encoders, an empty one for each that is not there, and
    whether the value of the struct was assigned. -/
def makeFieldEncoders : (fs : Fields) → fs.Val → Except BerError (List Encoder × Bool)
  | .nil, _ => .ok ([], false)
  | .cons tag t rest, (v, vs) => do
    let params := parseFieldParameters tag
    if ← isAbsent params t v then do
      let (s, assigned) ← makeFieldEncoders rest vs
      .ok (.bytes [] :: s, assigned)
    else if params.openType then .error .openTypeNotImplemented
    else do
      let e ← iterate (makeEncoder t v params)
      let (s, _) ← makeFieldEncoders rest vs
      .ok (e :: s, true)

def makeAlternativeEncoder : (alts : Fields) → alts.Val → (i : Nat) → Except BerError Encoder
  | .nil, _, _ => .error (.panic .outsideChoice)
  | .cons tag t _, (v, _), 0 => makeEncoder t v (parseFieldParameters tag)
  | .cons _ _ rest, (_, vs), i + 1 => makeAlternativeEncoder rest vs i

end

/-- `BerMarshalWithParams`: the buffer is made as long as the encoder announces. -/
def berMarshalBuffer (t : Ty) (v : t.Val) (params : List Char) : Except BerError (List UInt8) := do
  let e ← makeEncoder t v (parseFieldParameters params)
  e.encode (List.replicate e.len 0)

theorem octets_berTypeEncoder (cls : Nat) (constructed : Bool) (number : Nat) (value : Encoder)
    (params : FieldParameters) :
    (berTypeEncoder cls constructed number value params).octets =
      berType cls constructed number value.octets params := by
  unfold berTypeEncoder berType
  cases params.tagNumber with
  | none =>
    dsimp only
    rw [Encoder.octets, Encoder.octets, value.length_octets]
  | some n =>
    dsimp only
    split_ifs
    · rw [Encoder.octets, Encoder.octets, Encoder.octets, Encoder.octets, value.length_octets,
        List.length_append, value.length_octets]
      rfl
    · rw [Encoder.octets, Encoder.octets, value.length_octets]

theorem map_iterate {α β : Type} (f : α → β) (x : Except BerError α) :
    (iterate x).map f = iterate (x.map f) := by
  cases x with
  | ok a => rfl
  | error e => cases e <;> rfl

mutual

theorem map_makeEncoder : ∀ (t : Ty) (v : t.Val) (params : FieldParameters),
    (makeEncoder t v params).map Encoder.octets = makeField t v params
  | .ptr _, none, _ | .objectIdentifier, _, _ => rfl
  | .ptr t, some v, params => map_makeEncoder t v params
  | .value t, v, params => map_makeEncoder t v params
  | .list t, v, params => map_makeEncoder t v params
  | .bitString, (_, _), _ | .octetString, _, _ | .enumerated, _, _ | .null, _, _ | .bool, _, _
  | .int, _, _ | .int32, _, _ | .string, _, _ => congrArg Except.ok (octets_berTypeEncoder ..)
  | .choice alts, (present, v), params => by
    have halt := map_makeAlternativeEncoder alts v (present.toNat - 1)
    rw [makeEncoder, makeField]
    split_ifs
    · rfl
    · rfl
    · rfl
    cases params.tagNumber with
    | none => exact halt
    | some _ =>
      dsimp only
      rw [← halt]
      cases makeAlternativeEncoder alts v (present.toNat - 1) with
      | ok e => exact congrArg Except.ok (octets_berTypeEncoder ..)
      | error e =>
        cases e
        case unsupportedObjectIdentifier => exact congrArg Except.ok (octets_berTypeEncoder ..)
        all_goals rfl
  | .struct fs, v, params => by
    rw [makeEncoder, makeField, bind_then_map]
    refine bind_eq_bind_of_map_eq (map_makeFieldEncoders fs v) fun r s heq => ?_
    obtain ⟨hoctets, hassigned⟩ := Prod.mk.inj heq
    dsimp only
    rw [hassigned]
    cases s.isEmpty with
    | false =>
      refine congrArg Except.ok ((octets_berTypeEncoder ..).trans ?_)
      rw [Encoder.octets, hoctets]
    | true => rfl
  | .slice t, v, params => by
    rw [makeEncoder, makeField, bind_then_map]
    have helements : (v.getD []).mapM (fun x =>
        iterate (makeField t x { params with tagNumber := none })) = ((v.getD []).mapM fun x =>
          iterate (makeEncoder t x { params with tagNumber := none })).map
            (List.map Encoder.octets) := by
      rw [map_mapM]
      congr 1
      funext x
      rw [map_iterate, map_makeEncoder t x]
    rw [helements, map_then_bind]
    congr 1
    funext s
    refine congrArg Except.ok ((octets_berTypeEncoder ..).trans ?_)
    rw [Encoder.octets, Encoder.octetsAll_eq_flatten]

theorem map_makeFieldEncoders : ∀ (fs : Fields) (v : fs.Val),
    (makeFieldEncoders fs v).map (fun r => (Encoder.octetsAll r.1, r.2)) =
      (makeFields fs v).map fun s => (s.flatten, !s.isEmpty)
  | .nil, _ => rfl
  | .cons tag t rest, (v, vs) => by
    have hrest := map_makeFieldEncoders rest vs
    rw [makeFieldEncoders, makeFields]
    cases isAbsent (parseFieldParameters tag) t v with
    | error e => rfl
    | ok absent =>
      cases absent with
      | true =>
        show ((makeFieldEncoders rest vs) >>= _).map _ = (makeFields rest vs).map _
        rw [← hrest]
        cases makeFieldEncoders rest vs <;> rfl
      | false =>
        show (if _ then _ else _ : Except _ _).map _ = (if _ then _ else _ : Except _ _).map _
        split_ifs
        · rfl
        rw [← map_makeEncoder t v, ← map_iterate, map_then_bind, bind_then_map, bind_then_map]
        congr 1
        funext e
        rw [bind_then_map, bind_then_map]
        refine bind_eq_bind_of_map_eq hrest fun r s hrs => ?_
        show Except.ok (e.octets ++ _, true) = Except.ok (e.octets ++ s.flatten, true)
        rw [← (Prod.mk.inj hrs).1]

theorem map_makeAlternativeEncoder : ∀ (alts : Fields) (v : alts.Val) (i : Nat),
    (makeAlternativeEncoder alts v i).map Encoder.octets = makeAlternative alts v i
  | .nil, _, _ => rfl
  | .cons tag t _, (v, _), 0 => map_makeEncoder t v (parseFieldParameters tag)
  | .cons _ _ rest, (_, vs), i + 1 => map_makeAlternativeEncoder rest vs i

end

/-- The buffer is filled with the octets that `makeField` is given by. -/
theorem berMarshalBuffer_eq (t : Ty) (v : t.Val) (params : List Char) :
    berMarshalBuffer t v params = berMarshalWithParams t v params := by
  unfold berMarshalBuffer berMarshalWithParams
  rw [← map_makeEncoder]
  cases makeEncoder t v (parseFieldParameters params) with
  | error e => rfl
  | ok e => exact e.encode_replicate

/-! ## What is wrong with a value -/

/-- An error in a component is replaced, a panic is not. -/
def iterated : BerError → BerError
  | .panic p => .panic p
  | _ => .iterateSubtype

/-- What becomes of the faults of an alternative under an outer header. -/
def embeddedFaults : List BerError → List BerError
  | [] => []
  | .unsupportedObjectIdentifier :: _ => []
  | .panic p :: _ => [.panic p]
  | _ :: _ => [.panic .faultyAlternative]

/-- Whether some field is there. -/
def Fields.hasPresent : (fs : Fields) → fs.Val → Bool
  | .nil, _ => false
  | .cons tag t rest, (v, vs) =>
    isAbsent (parseFieldParameters tag) t v = .ok false || rest.hasPresent vs

mutual

/-- The faults of a value in the order of its fields: nil pointers and object identifiers, CHOICEs
    without an alternative, open types. Those that panic are structs none of whose fields is
    there, CHOICEs of an alternative that does not exist, and whatever is wrong with an
    alternative under an outer header. -/
def Ty.encodeFaults : (t : Ty) → t.Val → FieldParameters → List BerError
  | .objectIdentifier, _, _ => [.unsupportedObjectIdentifier]
  | .ptr _, none, _ => [.nilValue]
  | .ptr t, some v, params => t.encodeFaults v params
  | .value t, v, params => t.encodeFaults v params
  | .list t, v, params => t.encodeFaults v params
  | .choice alts, (present, v), params =>
    if present < 0 ∨ (alts.length : Int) < present then [.panic .outsideChoice]
    else if present = 0 then [.presentIsZero]
    else if params.openType then [.openTypeNotImplemented]
    else if params.tagNumber.isSome then
      embeddedFaults (alts.encodeFaultsAt v (present.toNat - 1))
    else alts.encodeFaultsAt v (present.toNat - 1)
  | .struct fs, v, _ =>
    fs.encodeFaults v ++ if fs.hasPresent v then [] else [.panic .nothingPresent]
  | .slice t, v, params =>
    (v.getD []).flatMap fun x =>
      (t.encodeFaults x { params with tagNumber := none }).map iterated
  | .bitString, _, _ | .octetString, _, _ | .enumerated, _, _ | .null, _, _ | .bool, _, _
  | .int, _, _ | .int32, _, _ | .string, _, _ => []

/-- An optional field must be of a kind that can be nil. -/
def Fields.encodeFaults : (fs : Fields) → fs.Val → List BerError
  | .nil, _ => []
  | .cons tag t rest, (v, vs) =>
    if isAbsent (parseFieldParameters tag) t v = .ok true then rest.encodeFaults vs
    else if isAbsent (parseFieldParameters tag) t v = .ok false then
      if (parseFieldParameters tag).openType then [.openTypeNotImplemented]
      else (t.encodeFaults v (parseFieldParameters tag)).map iterated ++ rest.encodeFaults vs
    else [.panic .noNil]

def Fields.encodeFaultsAt : (alts : Fields) → alts.Val → (i : Nat) → List BerError
  | .nil, _, _ => [.panic .outsideChoice]
  | .cons tag t _, (v, _), 0 => t.encodeFaults v (parseFieldParameters tag)
  | .cons _ _ rest, (_, vs), i + 1 => rest.encodeFaultsAt vs i

end

theorem failsBy_iterate {α : Type} {es : List BerError} {x : Except BerError α}
    (h : FailsBy es x) : FailsBy (es.map iterated) (iterate x) := by
  cases es with
  | nil =>
    obtain ⟨a, rfl⟩ := h
    exact .ok a
  | cons e es =>
    rw [show x = .error e from h]
    cases e <;> rfl

theorem failsBy_embeddedEncoder {es : List BerError} {x : Except BerError Encoder}
    (h : FailsBy es x) : FailsBy (embeddedFaults es) (embeddedEncoder x) := by
  cases es with
  | nil =>
    obtain ⟨a, rfl⟩ := h
    exact .ok a
  | cons e es =>
    rw [show x = .error e from h]
    cases e
    case unsupportedObjectIdentifier => exact .ok _
    all_goals rfl

theorem isAbsent_error {params : FieldParameters} {t : Ty} {v : t.Val} {e : BerError}
    (h : isAbsent params t v = .error e) : e = .panic .noNil := by
  unfold isAbsent at h
  split_ifs at h
  cases t <;> cases h <;> rfl

mutual

theorem failsBy_makeEncoder : ∀ (t : Ty) (v : t.Val) (params : FieldParameters),
    FailsBy (t.encodeFaults v params) (makeEncoder t v params)
  | .objectIdentifier, _, _ | .ptr _, none, _ => rfl
  | .bitString, (_, _), _ | .octetString, _, _ | .enumerated, _, _ | .null, _, _ | .bool, _, _
  | .int, _, _ | .int32, _, _ | .string, _, _ => .ok _
  | .ptr t, some v, params => failsBy_makeEncoder t v params
  | .value t, v, params => failsBy_makeEncoder t v params
  | .list t, v, params => failsBy_makeEncoder t v params
  | .choice alts, (present, v), params => by
    have halt := failsBy_makeAlternativeEncoder alts v (present.toNat - 1)
    rw [makeEncoder, Ty.encodeFaults]
    split_ifs with hout hzero hopen htag
    · rfl
    · rfl
    · rfl
    · obtain ⟨n, hn⟩ := Option.isSome_iff_exists.mp htag
      rw [hn]
      exact (failsBy_embeddedEncoder halt).map fun value => berTypeEncoder 0 true 0 value params
    · rw [Option.not_isSome_iff_eq_none.mp htag]
      exact halt
  | .struct fs, v, params => by
    rw [makeEncoder, Ty.encodeFaults]
    refine (failsBy_makeFieldEncoders fs v).1.bind fun r hr => ?_
    dsimp only
    rw [(failsBy_makeFieldEncoders fs v).2 r hr]
    cases fs.hasPresent v with
    | true => exact .ok _
    | false => rfl
  | .slice t, v, params => by
    have helements := FailsBy.mapM fun x (_ : x ∈ v.getD []) =>
      failsBy_iterate (failsBy_makeEncoder t x { params with tagNumber := none })
    exact helements.map fun s =>
      berTypeEncoder 0 true (setOrSequence params) (.struct s) params

/-- The value of a struct is assigned if some field is there. -/
theorem failsBy_makeFieldEncoders : ∀ (fs : Fields) (v : fs.Val),
    FailsBy (fs.encodeFaults v) (makeFieldEncoders fs v) ∧
      ∀ r, makeFieldEncoders fs v = .ok r → r.2 = fs.hasPresent v
  | .nil, _ => ⟨.ok _, fun r hr => by cases hr; rfl⟩
  | .cons tag t rest, (v, vs) => by
    obtain ⟨hrest, hassigned⟩ := failsBy_makeFieldEncoders rest vs
    rw [makeFieldEncoders, Fields.encodeFaults, Fields.hasPresent]
    cases habsent : isAbsent (parseFieldParameters tag) t v with
    | error e =>
      rw [isAbsent_error habsent]
      exact ⟨rfl, fun r hr => by cases hr⟩
    | ok absent =>
      cases absent with
      | true =>
        rw [if_pos rfl]
        refine ⟨?_, fun r hr => ?_⟩
        · exact hrest.map fun r => (Encoder.bytes [] :: r.1, r.2)
        · obtain ⟨r', hr', hok⟩ := bind_eq_ok.mp (show makeFieldEncoders rest vs >>= _ = .ok r from hr)
          cases hok
          exact hassigned r' hr'
      | false =>
        rw [if_neg (by decide), if_pos rfl]
        show FailsBy _ (if (parseFieldParameters tag).openType then _ else _) ∧
          ∀ r, (if (parseFieldParameters tag).openType then _ else _) = _ → _
        split_ifs with hopen
        · exact ⟨rfl, fun r hr => by cases hr⟩
        refine ⟨?_, fun r hr => ?_⟩
        · refine (failsBy_iterate (failsBy_makeEncoder t v _)).bind fun e _ => ?_
          exact hrest.map fun r => (e :: r.1, true)
        · obtain ⟨e, _, hr⟩ := bind_eq_ok.mp hr
          obtain ⟨r', _, hok⟩ := bind_eq_ok.mp hr
          cases hok
          rfl

theorem failsBy_makeAlternativeEncoder : ∀ (alts : Fields) (v : alts.Val) (i : Nat),
    FailsBy (alts.encodeFaultsAt v i) (makeAlternativeEncoder alts v i)
  | .nil, _, _ => rfl
  | .cons tag t _, (v, _), 0 => failsBy_makeEncoder t v (parseFieldParameters tag)
  | .cons _ _ rest, (_, vs), i + 1 => failsBy_makeAlternativeEncoder rest vs i

end

/-- The encoder writes as many octets as it announces, at the front of any buffer that has room
    for them. -/
def Encoder.Announces (e : Encoder) : Prop :=
  ∃ bs : List UInt8, bs.length = e.len ∧
    ∀ dst : List UInt8, e.len ≤ dst.length → e.encode dst = .ok (bs ++ dst.drop e.len)

theorem Encoder.announces (e : Encoder) : e.Announces := by
  refine ⟨e.octets, e.length_octets, fun dst hdst => ?_⟩
  rw [← e.length_octets] at hdst ⊢
  exact e.writes_encode dst hdst

/-- Marshalling returns octets or an error, and every encoder keeps to its `Len`. -/
structure MarshalsTotally (t : Ty) (v : t.Val) (params : List Char) : Prop where
  answers : ∀ p, berMarshalBuffer t v params ≠ .error (.panic p)
  announces : ∀ e : Encoder, e.Announces

/-- Marshalling panics exactly when the first fault of the value is one of those that do. -/
theorem marshals_totally_iff (t : Ty) (v : t.Val) (params : List Char) :
    MarshalsTotally t v params ↔
      ∀ p, (t.encodeFaults v (parseFieldParameters params)).head? ≠ some (.panic p) := by
  have hfails : FailsBy (t.encodeFaults v (parseFieldParameters params))
      (berMarshalBuffer t v params) := by
    rw [berMarshalBuffer_eq, berMarshalWithParams, ← map_makeEncoder]
    exact (failsBy_makeEncoder t v _).map _
  rw [← forall_congr' fun p => hfails.ne_error_iff (.panic p)]
  exact ⟨fun h => h.answers, fun h => ⟨h, Encoder.announces⟩⟩

def optionalTag : List Char := "tagNum:0,optional".toList

/-- A struct of one optional number. -/
abbrev OptionalNumber : Ty := .struct (.cons optionalTag (.ptr .int) .nil)

/-- Without the number no encoder is assigned, and its `Len` is called. -/
theorem all_absent_panics : ¬ MarshalsTotally OptionalNumber (none, ()) [] := by
  intro h
  exact h.answers .nothingPresent (by decide +kernel)

end Free5gc.Chf.Asn
