/-
  The BER coder of charging records (`cdr/asn`): `BerMarshalWithParams` and
  `UnmarshalWithParams`.

  The source walks a Go type by reflection. Here the type is a term of `Ty` and its values are
  `Ty.Val`, so that both coders are recursions over the type. A field keeps the text of its `ber`
  tag, which `parseFieldParameters` reads as often as the source does.

  Parameters that neither coder looks at (bounds, defaults, references, `choice`, `null`) are
  left out, and so are fields of interface type.
-/
import Free5gc.Chf.Asn.Header
import Free5gc.Lib.Text

namespace Free5gc.Chf.Asn

open Free5gc.Lib

/-! ## Parameters -/

structure FieldParameters where
  optional : Bool := false
  openType : Bool := false
  tagNumber : Option Nat := none
  explicitTag : Bool := false
  set : Bool := false
  stringType : Nat := 0
  deriving DecidableEq, Repr

/-- One part of a `ber` tag. A number that `ParseInt` refuses leaves the parameters alone, a
    negative one is taken modulo `2 ^ 64`. -/
def parsePart (params : FieldParameters) (part : List Char) : FieldParameters :=
  if part = "optional".toList then { params with optional := true }
  else if part = "openType".toList then { params with openType := true }
  else if "tagNum:".toList.isPrefixOf part then
    match atoi (part.drop 7) with
    | none => params
    | some i => { params with tagNumber := some i.toUInt64.toNat }
  else if part = "explicit".toList then { params with explicitTag := true }
  else if part = "set".toList then { params with set := true }
  else if part = "utf8".toList then { params with stringType := 12 }
  else if part = "ia5".toList then { params with stringType := 22 }
  else if part = "graphic".toList then { params with stringType := 25 }
  else params

def parseFieldParameters (str : List Char) : FieldParameters :=
  (str.splitOn ',').foldl parsePart {}

/-! ## Types and values -/

mutual

/-- The Go types the coders tell apart. `value` and `list` are structs whose first field has
    that name, `choice` one whose first field is `Present`. -/
inductive Ty where
  | bitString
  | objectIdentifier
  | octetString
  | enumerated
  | null
  | bool
  | int
  | int32
  | string
  | ptr (t : Ty)
  | value (t : Ty)
  | list (t : Ty)
  | choice (alts : Fields)
  | struct (fs : Fields)
  | slice (t : Ty)

/-- The fields of a struct with their `ber` tags; those of a CHOICE without `Present`. -/
inductive Fields where
  | nil
  | cons (tag : List Char) (t : Ty) (rest : Fields)

end

mutual

/-- The values of a type. Pointers and slices can be nil. -/
@[reducible]
def Ty.Val : Ty → Type
  | .bitString => List UInt8 × UInt64
  | .objectIdentifier => Option (List UInt8)
  | .octetString => Option (List UInt8)
  | .enumerated => Int64
  | .null => Bool
  | .bool => Bool
  | .int => Int64
  | .int32 => Int32
  | .string => List UInt8
  | .ptr t => Option t.Val
  | .value t => t.Val
  | .list t => t.Val
  | .choice alts => Int × alts.Val
  | .struct fs => fs.Val
  | .slice t => Option (List t.Val)

@[reducible]
def Fields.Val : Fields → Type
  | .nil => Unit
  | .cons _ t rest => t.Val × rest.Val

end

def Fields.length : Fields → Nat
  | .nil => 0
  | .cons _ _ rest => rest.length + 1

mutual

/-- The zero value of a type. -/
def Ty.zero : (t : Ty) → t.Val
  | .bitString => ([], 0)
  | .objectIdentifier => none
  | .octetString => none
  | .enumerated => 0
  | .null => false
  | .bool => false
  | .int => 0
  | .int32 => 0
  | .string => []
  | .ptr _ => none
  | .value t => t.zero
  | .list t => t.zero
  | .choice alts => (0, alts.zero)
  | .struct fs => fs.zero
  | .slice _ => none

def Fields.zero : (fs : Fields) → fs.Val
  | .nil => ()
  | .cons _ t rest => (t.zero, rest.zero)

end

/-- `reflect.Value.IsNil`, which panics on a kind that has no nil. -/
def Ty.isNil : (t : Ty) → t.Val → Except BerError Bool
  | .objectIdentifier, v => .ok v.isNone
  | .octetString, v => .ok v.isNone
  | .ptr _, v => .ok v.isNone
  | .slice _, v => .ok v.isNone
  | _, _ => .error (.panic .noNil)

/-- Whether a field is optional and not there. -/
def isAbsent (params : FieldParameters) (t : Ty) (v : t.Val) : Except BerError Bool :=
  if params.optional then t.isNil v else .ok false

/-! ## Encoding -/

/-- The end of `makeField`: the header before the value, and under an explicit tag a second
    header before both. An encoder is given by the octets it writes. -/
def berType (cls : Nat) (constructed : Bool) (number : Nat) (value : List UInt8)
    (params : FieldParameters) : List UInt8 :=
  match params.tagNumber with
  | none => appendTagAndLen ⟨cls, constructed, number, value.length⟩ ++ value
  | some n =>
    if params.explicitTag then
      let t := appendTagAndLen ⟨cls, constructed, number, value.length⟩ ++ value
      appendTagAndLen ⟨2, true, n, t.length⟩ ++ t
    else appendTagAndLen ⟨2, constructed, n, value.length⟩ ++ value

/-- The universal tag of a struct or slice. -/
def setOrSequence (params : FieldParameters) : Nat := if params.set then 17 else 16

/-- What an embedded CHOICE does with its alternative. An error is only printed: the encoder
    that came with it is used, which is nil for all errors but one. -/
def embedded : Except BerError (List UInt8) → Except BerError (List UInt8)
  | .ok e => .ok e
  | .error .unsupportedObjectIdentifier => .ok []
  | .error (.panic p) => .error (.panic p)
  | .error _ => .error (.panic .faultyAlternative)

/-- Errors of a component other than a panic are replaced by one text. -/
def iterate : Except BerError α → Except BerError α
  | .ok e => .ok e
  | .error (.panic p) => .error (.panic p)
  | .error _ => .error .iterateSubtype

mutual

def makeField : (t : Ty) → t.Val → FieldParameters → Except BerError (List UInt8)
  | .ptr _, none, _ => .error .nilValue
  | .ptr t, some v, params => makeField t v params
  | .bitString, (bytes, bitLength), params =>
    .ok (berType 0 false 3 ((8 - bitLength % 8).toUInt8 :: bytes) params)
  | .objectIdentifier, _, _ => .error .unsupportedObjectIdentifier
  | .octetString, v, params => .ok (berType 0 false 4 (v.getD []) params)
  | .enumerated, v, params => .ok (berType 0 false 10 (int64Bytes v) params)
  | .null, _, params => .ok (berType 0 false 5 [] params)
  | .bool, v, params => .ok (berType 0 false 1 [if v then 0xff else 0] params)
  | .int, v, params => .ok (berType 0 false 2 (int64Bytes v) params)
  | .int32, v, params => .ok (berType 0 false 2 (int64Bytes v.toInt64) params)
  | .value t, v, params => makeField t v params
  | .list t, v, params => makeField t v params
  | .choice alts, (present, v), params =>
    -- the tag of the alternative is looked up before `present` is checked
    if present < 0 ∨ (alts.length : Int) < present then .error (.panic .outsideChoice)
    else if present = 0 then .error .presentIsZero
    else if params.openType then .error .openTypeNotImplemented
    else
      match params.tagNumber with
      | none => makeAlternative alts v (present.toNat - 1)
      | some _ => do
        let value ← embedded (makeAlternative alts v (present.toNat - 1))
        .ok (berType 0 true 0 value params)
  | .struct fs, v, params => do
    let s ← makeFields fs v
    -- the value is assigned with the first field that is there; without one it stays nil
    if s.isEmpty then .error (.panic .nothingPresent)
    else .ok (berType 0 true (setOrSequence params) s.flatten params)
  | .slice t, v, params => do
    let s ← (v.getD []).mapM fun x => iterate (makeField t x { params with tagNumber := none })
    .ok (berType 0 true (setOrSequence params) s.flatten params)
  | .string, v, params => .ok (berType 0 false params.stringType v params)

/-- The encoders of the fields that are there. -/
def makeFields : (fs : Fields) → fs.Val → Except BerError (List (List UInt8))
  | .nil, _ => .ok []
  | .cons tag t rest, (v, vs) => do
    let params := parseFieldParameters tag
    if ← isAbsent params t v then makeFields rest vs
    else if params.openType then .error .openTypeNotImplemented
    else do
      let e ← iterate (makeField t v params)
      let s ← makeFields rest vs
      .ok (e :: s)

/-- The alternative at position `i`. -/
def makeAlternative : (alts : Fields) → alts.Val → (i : Nat) → Except BerError (List UInt8)
  | .nil, _, _ => .error (.panic .outsideChoice)
  | .cons tag t _, (v, _), 0 => makeField t v (parseFieldParameters tag)
  | .cons _ _ rest, (_, vs), i + 1 => makeAlternative rest vs i

end

def berMarshalWithParams (t : Ty) (v : t.Val) (params : List Char) :
    Except BerError (List UInt8) :=
  makeField t v (parseFieldParameters params)

/-! ## Decoding

A slice of the input is given by its octets and those `beyond` it, up to the end of the input. -/

/-- The header of a value that lies within `bytes`. -/
def readHeader (bytes beyond : List UInt8) : Except BerError (TagAndLen × Nat) := do
  let (tal, off) ← parseTagAndLength bytes beyond
  if off + tal.len > bytes.length then .error .valueOutOfRange else .ok (tal, off)

/-- The loop over the values that stand one after the other in `bytes`. Every header has an
    octet at least, so `fuel` is as long as the octets. -/
def forValues {σ : Type} (body : σ → Nat → List UInt8 → List UInt8 → Except BerError σ) :
    (fuel : Nat) → (bytes beyond : List UInt8) → σ → Except BerError σ
  | _, [], _, s => .ok s
  | 0, _ :: _, _, _ => .error (.panic .fuel)
  | k + 1, b :: bs, beyond, s => do
    let (tal, off) ← readHeader (b :: bs) beyond
    let rest := (b :: bs).drop (off + tal.len)
    let s ← body s tal.tagNumber ((b :: bs).take (off + tal.len)) (rest ++ beyond)
    forValues body k rest beyond s

def parseBitString : List UInt8 → Except BerError (List UInt8 × UInt64)
  | [] => .error (.panic .noContent)
  | b :: rest => .ok (rest, UInt64.ofNat (rest.length * 8) - b.toUInt64)

def parseBool : List UInt8 → Except BerError Bool
  | [] => .error (.panic .noContent)
  | b :: _ => .ok (b != 0)

/-- The position of the first alternative with this tag number. -/
def findAlternative (number : Nat) : Fields → Option Nat
  | .nil => none
  | .cons tag _ rest =>
    if (parseFieldParameters tag).tagNumber = some number then some 0
    else (findAlternative number rest).map (· + 1)

mutual

/-- `ParseField` with the variable it stores to: its value before and after. -/
def parseField : (t : Ty) → t.Val → (bytes beyond : List UInt8) → FieldParameters →
    Except BerError t.Val
  | .ptr t, _, bytes, beyond, params => do
    let v ← parseField t t.zero bytes beyond params
    .ok (some v)
  | .bitString, _, bytes, beyond, _ => do
    let (_, off) ← readHeader bytes beyond
    parseBitString (bytes.drop off)
  | .objectIdentifier, _, bytes, beyond, _ => do
    let _ ← readHeader bytes beyond
    .error .unsupportedObjectIdentifier
  | .octetString, _, bytes, beyond, _ => do
    let (_, off) ← readHeader bytes beyond
    .ok (some (bytes.drop off))
  | .enumerated, _, bytes, beyond, _ => do
    let (_, off) ← readHeader bytes beyond
    parseInt64 (bytes.drop off)
  | .null, _, bytes, beyond, _ => do
    let _ ← readHeader bytes beyond
    -- a `bool` is not assignable to a `NULL`
    .error (.panic .nullField)
  | .bool, _, bytes, beyond, _ => do
    let (_, off) ← readHeader bytes beyond
    parseBool (bytes.drop off)
  | .int, _, bytes, beyond, _ => do
    let (_, off) ← readHeader bytes beyond
    parseInt64 (bytes.drop off)
  | .int32, _, bytes, beyond, _ => do
    let (_, off) ← readHeader bytes beyond
    let i ← parseInt64 (bytes.drop off)
    .ok i.toInt32
  | .value t, v, bytes, beyond, params => do
    let _ ← readHeader bytes beyond
    parseField t v bytes beyond params
  | .list t, v, bytes, beyond, params => do
    let _ ← readHeader bytes beyond
    parseField t v bytes beyond params
  | .choice alts, (_, v), bytes, beyond, params => do
    let (tal, off) ← readHeader bytes beyond
    if params.openType then .error .openTypeNotImplemented
    else
      match params.tagNumber with
      | none =>
        match findAlternative tal.tagNumber alts with
        | none => .error .presentIsZero
        | some i => do
          let v ← parseAlternative alts v i bytes beyond
          .ok ((i : Int) + 1, v)
      | some _ => do
        -- the offset of an embedded CHOICE is the length of the inner header
        let (inner, offset) ← parseTagAndLength (bytes.drop off) beyond
        if offset + inner.len > bytes.length then .error .valueOutOfRange
        else
          match findAlternative inner.tagNumber alts with
          | none => .error .presentIsZero
          | some i => do
            let v ← parseAlternative alts v i (bytes.drop offset) beyond
            .ok ((i : Int) + 1, v)
  | .struct fs, v, bytes, beyond, params => do
    let (_, off) ← readHeader bytes beyond
    if fs.length = 0 then .error (.panic .noFields)
    else if params.set then
      forValues (fun v number value beyond =>
        if params.openType then .error .openTypeNotImplemented
        else (setField fs v 0 number value beyond).map Prod.snd)
          bytes.length (bytes.drop off) beyond v
    else do
      let (_, v) ← forValues (fun (current, v) number value beyond =>
        if params.openType then .error .openTypeNotImplemented
        else (setField fs v current number value beyond).map fun (i, v) => (i + 1, v))
          bytes.length (bytes.drop off) beyond (0, v)
      .ok v
  | .slice t, _, bytes, beyond, params => do
    let (_, off) ← readHeader bytes beyond
    let valArray ← forValues (fun values _ value beyond => .ok (values ++ [(value, beyond)]))
      bytes.length (bytes.drop off) beyond []
    let newSlice ← valArray.mapM fun (value, beyond) => parseField t t.zero value beyond params
    .ok (some newSlice)
  | .string, _, bytes, beyond, _ => do
    let (_, off) ← readHeader bytes beyond
    .ok (bytes.drop off)

/-- The search for the field with this tag number from field `current` on, which is then
    parsed: its position and the fields after it. A field without a tag number is a nil
    dereference. -/
def setField : (fs : Fields) → fs.Val → (current number : Nat) →
    (bytes beyond : List UInt8) → Except BerError (Nat × fs.Val)
  | .nil, _, _, _, _, _ => .error .correspondingTypeNotFound
  | .cons _ _ rest, (v, vs), current + 1, number, bytes, beyond => do
    let (i, vs) ← setField rest vs current number bytes beyond
    .ok (i + 1, v, vs)
  | .cons tag t rest, (v, vs), 0, number, bytes, beyond =>
    match (parseFieldParameters tag).tagNumber with
    | none => .error (.panic .noTagNumber)
    | some n =>
      if n = number then do
        let v ← parseField t v bytes beyond (parseFieldParameters tag)
        .ok (0, v, vs)
      else do
        let (i, vs) ← setField rest vs 0 number bytes beyond
        .ok (i + 1, v, vs)

def parseAlternative : (alts : Fields) → alts.Val → (i : Nat) → (bytes beyond : List UInt8) →
    Except BerError alts.Val
  | .nil, _, _, _, _ => .error (.panic .outsideChoice)
  | .cons tag t _, (v, vs), 0, bytes, beyond => do
    let v ← parseField t v bytes beyond (parseFieldParameters tag)
    .ok (v, vs)
  | .cons _ _ rest, (v, vs), i + 1, bytes, beyond => do
    let vs ← parseAlternative rest vs i bytes beyond
    .ok (v, vs)

end

/-- Decoding into a fresh variable. -/
def unmarshalWithParams (t : Ty) (bytes : List UInt8) (params : List Char) :
    Except BerError t.Val :=
  parseField t t.zero bytes [] (parseFieldParameters params)

end Free5gc.Chf.Asn
