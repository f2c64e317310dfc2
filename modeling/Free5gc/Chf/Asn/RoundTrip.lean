/-
  What `BerMarshalWithParams` writes is what `UnmarshalWithParams` reads.

  Every value is written as a header and a content whose length the header gives. A struct is a
  row of such values, one for each field that is there, and the decoder's loops walk along that
  row: in a SEQUENCE from field to field, in a SET by a search for each value.

  The decoder never looks at `explicit`, under which the encoder writes a second header. This and
  the other inputs that do not come back are kept out by `Ty.Supported`.
-/
import Free5gc.Chf.Asn.Beyond
import Free5gc.Chf.Asn.Leaves

namespace Free5gc.Chf.Asn

open Free5gc.Lib

/-! ## Encoded values -/

/-- A header and as many octets as it says. -/
structure Tlv where
  tal : TagAndLen
  content : List UInt8
  cls_lt : tal.cls < 4
  number_lt : tal.tagNumber < 2 ^ 63
  len_eq : tal.len = content.length

namespace Tlv

def bytes (x : Tlv) : List UInt8 := appendTagAndLen x.tal ++ x.content

/-- Short enough for the three octets of length that the decoder takes. -/
def Short (x : Tlv) : Prop := x.content.length < 2 ^ 24

theorem short_of_bytes {x : Tlv} (h : x.bytes.length < 2 ^ 24) : x.Short := by
  unfold Short
  unfold bytes at h
  rw [List.length_append] at h
  omega

theorem drop_header (x : Tlv) : x.bytes.drop (appendTagAndLen x.tal).length = x.content :=
  List.drop_left

theorem length_bytes (x : Tlv) :
    x.bytes.length = (appendTagAndLen x.tal).length + x.tal.len := by
  rw [bytes, List.length_append, x.len_eq]

theorem bytes_ne_nil (x : Tlv) : x.bytes ≠ [] := by
  unfold bytes appendTagAndLen identifier
  split_ifs <;> simp

end Tlv

variable {params : FieldParameters} {t : Ty} {R : FieldParameters → Prop}

theorem readHeader_append {x : Tlv} (h : x.Short) (rest beyond : List UInt8) :
    readHeader (x.bytes ++ rest) beyond = .ok (x.tal, (appendTagAndLen x.tal).length) := by
  have hfits : x.tal.Fits := ⟨x.cls_lt, x.number_lt, by rw [x.len_eq]; exact h⟩
  have hparse : parseTagAndLength (x.bytes ++ rest) beyond =
      .ok (x.tal, (appendTagAndLen x.tal).length) := by
    rw [Tlv.bytes, List.append_assoc]
    exact parseTagAndLength_append hfits _ beyond
  have hin : ¬ (appendTagAndLen x.tal).length + x.tal.len > (x.bytes ++ rest).length := by
    rw [List.length_append, x.length_bytes]
    omega
  unfold readHeader
  rw [hparse]
  exact if_neg hin

theorem readHeader_bytes {x : Tlv} (h : x.Short) :
    readHeader x.bytes [] = .ok (x.tal, (appendTagAndLen x.tal).length) := by
  have := readHeader_append h [] []
  rwa [List.append_nil] at this

/-- The octets of a row of values. -/
def row (xs : List Tlv) : List UInt8 := (xs.map Tlv.bytes).flatten

theorem row_cons (x : Tlv) (xs : List Tlv) : row (x :: xs) = x.bytes ++ row xs := rfl

theorem short_of_mem_row {xs : List Tlv} (h : (row xs).length < 2 ^ 24) :
    ∀ x ∈ xs, x.Short := by
  induction xs with
  | nil => simp
  | cons y ys ih =>
    rw [row_cons, List.length_append] at h
    intro x hx
    rcases List.mem_cons.mp hx with rfl | hx
    · exact Tlv.short_of_bytes (by omega)
    · exact ih (by omega) x hx

section Content

variable {σ τ : Type} {body : σ → Nat → List UInt8 → List UInt8 → Except BerError σ}
  {step : τ → Tlv → Except BerError τ} {R : τ → σ → Prop} {x : Tlv} {xs : List Tlv}

/-- The loop of the decoder takes a row value by value, with the rest of the row beyond each. -/
theorem forValues_row
    (hbody : ∀ a s x a', R a s → step a x = .ok a' →
      ∀ beyond, ∃ s', body s x.tal.tagNumber x.bytes beyond = .ok s' ∧ R a' s')
    (hshort : ∀ x ∈ xs, x.Short) {fuel : Nat} (hfuel : (row xs).length ≤ fuel) {a a' : τ} {s : σ}
    (hR : R a s) (hrun : xs.foldlM step a = .ok a') :
    ∃ s', forValues body fuel (row xs) [] s = .ok s' ∧ R a' s' := by
  induction xs generalizing fuel a s with
  | nil =>
    cases hrun
    exact ⟨s, by cases fuel <;> rfl, hR⟩
  | cons x xs ih =>
    have hpos : 0 < x.bytes.length := List.length_pos_iff.mpr x.bytes_ne_nil
    rw [row_cons, List.length_append] at hfuel
    obtain ⟨k, rfl⟩ : ∃ k, fuel = k + 1 := ⟨fuel - 1, by omega⟩
    have hread := readHeader_append (hshort x (by simp)) (row xs) []
    have htake : (x.bytes ++ row xs).take ((appendTagAndLen x.tal).length + x.tal.len) =
        x.bytes := by
      rw [← x.length_bytes, List.take_left]
    have hdrop : (x.bytes ++ row xs).drop ((appendTagAndLen x.tal).length + x.tal.len) =
        row xs := by
      rw [← x.length_bytes, List.drop_left]
    rw [List.foldlM_cons] at hrun
    obtain ⟨b, hb, hrun⟩ := bind_eq_ok.mp hrun
    obtain ⟨s₁, hs₁, hR₁⟩ := hbody a s x b hR hb (row xs ++ [])
    have hrest : (row xs).length ≤ k := by omega
    obtain ⟨s', hs', hR'⟩ := ih (fun y hy => hshort y (by simp [hy])) hrest hR₁ hrun
    refine ⟨s', ?_, hR'⟩
    rw [row_cons]
    obtain ⟨c, cs, hcs⟩ : ∃ c cs, x.bytes ++ row xs = c :: cs :=
      List.exists_cons_of_ne_nil (by simp [x.bytes_ne_nil])
    rw [hcs] at hread htake hdrop ⊢
    rw [forValues, hread]
    show (body s x.tal.tagNumber _ _ >>= fun s => forValues body k _ _ s) = _
    rw [htake, hdrop, hs₁]
    exact hs'

theorem short_of_content (hcontent : x.content = row xs) (hshort : x.Short) :
    ∀ y ∈ xs, y.Short :=
  short_of_mem_row (hcontent ▸ hshort)

/-- The loop over the content of a value. -/
theorem forValues_content
    (hbody : ∀ a s x a', R a s → step a x = .ok a' →
      ∀ beyond, ∃ s', body s x.tal.tagNumber x.bytes beyond = .ok s' ∧ R a' s')
    (hcontent : x.content = row xs) (hshort : x.Short) {a a' : τ} {s : σ} (hR : R a s)
    (hrun : xs.foldlM step a = .ok a') :
    ∃ s', forValues body x.bytes.length (x.bytes.drop (appendTagAndLen x.tal).length) [] s =
      .ok s' ∧ R a' s' := by
  have hfuel : (row xs).length ≤ x.bytes.length := by
    rw [Tlv.bytes, List.length_append, hcontent]
    omega
  rw [x.drop_header, hcontent]
  exact forValues_row hbody (short_of_content hcontent hshort) hfuel hR hrun

/-- A loop whose body does not need the octets beyond a value. -/
theorem forValues_eq_ok
    (hbody : ∀ s number value beyond,
      Extends (.panic .lengthOctets) (body s number value []) (body s number value beyond))
    (hcontent : x.content = row xs) (hshort : x.Short) {s s' : σ}
    (hrun : xs.foldlM (fun s x => body s x.tal.tagNumber x.bytes []) s = .ok s') :
    forValues body x.bytes.length (x.bytes.drop (appendTagAndLen x.tal).length) [] s = .ok s' := by
  obtain ⟨_, hloop, rfl⟩ := forValues_content (R := fun a s => s = a)
    (fun a s x a' ha hstep beyond => ⟨a', ha ▸ (hbody a _ _ beyond).ok hstep, rfl⟩)
    hcontent hshort rfl hrun
  exact hloop

end Content

/-! ## Schemas and their values -/

def Fields.numbers : Fields → List (Option Nat)
  | .nil => []
  | .cons tag _ rest => (parseFieldParameters tag).tagNumber :: rest.numbers

mutual

/-- Structs whose fields carry distinct tag numbers, slices, wrappers and pointers over integers,
    enumerations, Booleans, octet strings and character strings. -/
def Ty.Plain : Ty → Prop
  | .bitString | .objectIdentifier | .null | .choice _ => False
  | .octetString | .enumerated | .bool | .int | .int32 | .string => True
  | .ptr t | .value t | .list t | .slice t => t.Plain
  | .struct fs => fs.Plain ∧ fs.numbers.Nodup

def Fields.Plain : Fields → Prop
  | .nil => True
  | .cons tag t rest =>
    ((parseFieldParameters tag).tagNumber.isSome ∧ (parseFieldParameters tag).openType = false) ∧
      t.Plain ∧ rest.Plain

end

/-- A schema may be a CHOICE at its top, where no tag number embeds it in an outer header. -/
def Ty.Schema : Ty → FieldParameters → Prop
  | .choice alts, params => (alts.Plain ∧ alts.numbers.Nodup) ∧ params.tagNumber = none
  | .ptr t, params | .value t, params | .list t, params => t.Schema params
  | t, _ => t.Plain

/-- An optional field that is nil. -/
def Absent (tag : List Char) (t : Ty) (v : t.Val) : Prop :=
  isAbsent (parseFieldParameters tag) t v = .ok true

def Fields.SomePresent : (fs : Fields) → fs.Val → Prop
  | .nil, _ => False
  | .cons tag t rest, (v, vs) => ¬ Absent tag t v ∨ rest.SomePresent vs

mutual

/-- A value of its schema: no number is negative unless it takes all octets of its type, no pointer
    is nil but that of an absent field, and every struct has a field that is there. A CHOICE holds
    one alternative. -/
def Ty.Whole : (t : Ty) → t.Val → Prop
  | .enumerated, v => 0 ≤ v.toInt ∨ v.toInt < -2 ^ 55
  | .int, v => 0 ≤ v.toInt ∨ v.toInt < -2 ^ 55
  | .int32, v => 0 ≤ v.toInt ∨ v.toInt < -2 ^ 23
  | .ptr _, none => False
  | .ptr t, some v => t.Whole v
  | .value t, v => t.Whole v
  | .list t, v => t.Whole v
  | .choice alts, (present, v) => 1 ≤ present ∧ alts.WholeAt v (present.toNat - 1)
  | .struct fs, v => fs.Whole v ∧ fs.SomePresent v
  | .slice t, v => ∀ x ∈ v.getD [], t.Whole x
  | _, _ => True

def Fields.Whole : (fs : Fields) → fs.Val → Prop
  | .nil, _ => True
  | .cons tag t rest, (v, vs) => (Absent tag t v ∨ t.Whole v) ∧ rest.Whole vs

def Fields.WholeAt : (fs : Fields) → fs.Val → (i : Nat) → Prop
  | .nil, _, _ => False
  | .cons _ t rest, (v, vs), 0 => t.Whole v ∧ vs = rest.zero
  | .cons _ t rest, (v, vs), i + 1 => v = t.zero ∧ rest.WholeAt vs i

end

/-- Parameters that both coders treat alike: no explicit tag, and a tag number that the decoder
    takes. One from `2 ^ 63` on has too many octets for it. -/
def FieldParameters.Supported (params : FieldParameters) : Prop :=
  ∀ n, params.tagNumber = some n → n < 2 ^ 63 ∧ params.explicitTag = false

mutual

/-- Values that come back. An optional field must be of a kind that can be nil. A nil slice
    or octet string that is not an absent field comes back as an empty one. -/
def Ty.Supported : (t : Ty) → t.Val → Prop
  | .octetString, v => v.isSome
  | .ptr _, none => True
  | .ptr t, some v => t.Supported v
  | .value t, v => t.Supported v
  | .list t, v => t.Supported v
  | .choice alts, (present, v) => alts.SupportedAt v (present.toNat - 1)
  | .struct fs, v => fs.Supported v
  | .slice t, v => v.isSome ∧ ∀ x ∈ v.getD [], t.Supported x
  | _, _ => True

def Fields.Supported : (fs : Fields) → fs.Val → Prop
  | .nil, _ => True
  | .cons tag t rest, (v, vs) =>
    (Absent tag t v ∨ isAbsent (parseFieldParameters tag) t v = .ok false ∧
      (parseFieldParameters tag).Supported ∧ t.Supported v) ∧ rest.Supported vs

def Fields.SupportedAt : (fs : Fields) → fs.Val → (i : Nat) → Prop
  | .nil, _, _ => False
  | .cons tag t _, (v, _), 0 => (parseFieldParameters tag).Supported ∧ t.Supported v
  | .cons _ _ rest, (_, vs), i + 1 => rest.SupportedAt vs i

end

/-! ## Headers -/

theorem parsePart_stringType (h : params.stringType < 2 ^ 63) (part : List Char) :
    (parsePart params part).stringType < 2 ^ 63 := by
  have h12 : 12 < 2 ^ 63 := by decide
  have h22 : 22 < 2 ^ 63 := by decide
  have h25 : 25 < 2 ^ 63 := by decide
  unfold parsePart
  split_ifs
  case pos => exact h
  case pos => exact h
  case pos => cases atoi (part.drop 7) <;> exact h
  case pos => exact h
  case pos => exact h
  case pos => exact h12
  case pos => exact h22
  case pos => exact h25
  case neg => exact h

theorem parseFieldParameters_stringType (str : List Char) :
    (parseFieldParameters str).stringType < 2 ^ 63 := by
  unfold parseFieldParameters
  generalize str.splitOn ',' = parts
  have hzero : ({} : FieldParameters).stringType < 2 ^ 63 := by decide
  generalize ({} : FieldParameters) = params at hzero
  induction parts generalizing params with
  | nil => exact hzero
  | cons part parts ih => exact ih _ (parsePart_stringType hzero part)

/-- The parameters a value may be written with: those of a tag, or of a slice's elements. -/
structure FieldParameters.Good (params : FieldParameters) : Prop where
  supported : params.Supported
  stringType : params.stringType < 2 ^ 63

theorem good_parse {str : List Char} (h : (parseFieldParameters str).Supported) :
    (parseFieldParameters str).Good :=
  ⟨h, parseFieldParameters_stringType str⟩

theorem FieldParameters.Good.element (h : params.Good) :
    FieldParameters.Good { params with tagNumber := none } :=
  ⟨fun _ hn => (nomatch hn), h.stringType⟩

theorem setOrSequence_lt (params : FieldParameters) : setOrSequence params < 2 ^ 63 := by
  unfold setOrSequence
  split_ifs <;> omega

/-- Without an explicit tag a value has one header, with the number of its tag if it has one. -/
theorem berType_eq (h : params.Good) (constructed : Bool) {number : Nat} (hn : number < 2 ^ 63)
    (value : List UInt8) :
    ∃ x : Tlv, berType 0 constructed number value params = x.bytes ∧ x.content = value ∧
      ∀ n, params.tagNumber = some n → x.tal.tagNumber = n := by
  unfold berType
  cases htag : params.tagNumber with
  | none =>
    exact ⟨⟨⟨0, constructed, number, value.length⟩, value, Nat.zero_lt_succ 3, hn, rfl⟩, rfl, rfl,
      fun _ h => (nomatch h)⟩
  | some n =>
    obtain ⟨hlt, hexplicit⟩ := h.supported n htag
    refine ⟨⟨⟨2, constructed, n, value.length⟩, value, Nat.lt_of_sub_eq_succ rfl, hlt, rfl⟩, ?_, rfl, ?_⟩
    · rw [hexplicit]
      rfl
    · rintro m ⟨⟩
      rfl

/-! ## Walking along the fields -/

/-- One value of a SET. -/
def setStep (fs : Fields) (v : fs.Val) (x : Tlv) : Except BerError fs.Val :=
  (setField fs v 0 x.tal.tagNumber x.bytes []).map Prod.snd

/-- One value of a SEQUENCE, whose search goes on behind the last field found. -/
def sequenceStep (fs : Fields) (s : Nat × fs.Val) (x : Tlv) : Except BerError (Nat × fs.Val) :=
  (setField fs s.2 s.1 x.tal.tagNumber x.bytes []).map fun s => (s.1 + 1, s.2)

section Walk

variable {tag : List Char} {t : Ty} {rest : Fields} {n : Nat}

theorem setField_cons_of_ne (hn : (parseFieldParameters tag).tagNumber = some n) {number : Nat}
    (hne : number ≠ n) (v : t.Val) (vs : rest.Val) (bytes : List UInt8) :
    setField (.cons tag t rest) (v, vs) 0 number bytes [] =
      (setField rest vs 0 number bytes []).map fun s => (s.1 + 1, v, s.2) := by
  rw [setField, hn]
  dsimp only
  rw [if_neg (Ne.symm hne)]
  cases setField rest vs 0 number bytes [] <;> rfl

theorem setField_cons_of_eq {number : Nat} (hn : (parseFieldParameters tag).tagNumber = some number)
    {v v' : t.Val} (vs : rest.Val) {bytes : List UInt8}
    (h : parseField t v bytes [] (parseFieldParameters tag) = .ok v') :
    setField (.cons tag t rest) (v, vs) 0 number bytes [] = .ok (0, v', vs) := by
  rw [setField, hn]
  dsimp only
  rw [if_pos rfl, h]
  rfl

/-- Values of the later fields leave the first one of a SET alone. -/
theorem foldlM_setStep_cons (hn : (parseFieldParameters tag).tagNumber = some n) {xs : List Tlv}
    (hne : ∀ x ∈ xs, x.tal.tagNumber ≠ n) (v : t.Val) (vs : rest.Val) :
    xs.foldlM (setStep (.cons tag t rest)) (v, vs) =
      (xs.foldlM (setStep rest) vs).map fun vs => (v, vs) := by
  refine foldlM_map (fun x hx vs => ?_) vs
  unfold setStep
  rw [setField_cons_of_ne hn (hne x hx)]
  cases setField rest vs 0 x.tal.tagNumber x.bytes [] <;> rfl

/-- Behind its first field a SEQUENCE is the SEQUENCE of the later ones. -/
theorem foldlM_sequenceStep_cons_succ (xs : List Tlv) (k : Nat) (v : t.Val) (vs : rest.Val) :
    xs.foldlM (sequenceStep (.cons tag t rest)) (k + 1, v, vs) =
      (xs.foldlM (sequenceStep rest) (k, vs)).map fun s => (s.1 + 1, v, s.2) := by
  refine foldlM_map (g := fun s : Nat × rest.Val => (s.1 + 1, v, s.2)) (fun x _ s => ?_) (k, vs)
  unfold sequenceStep
  dsimp only
  rw [setField]
  cases setField rest s.2 s.1 x.tal.tagNumber x.bytes [] <;> rfl

theorem foldlM_sequenceStep_cons (hn : (parseFieldParameters tag).tagNumber = some n)
    {xs : List Tlv} (hne : ∀ x ∈ xs, x.tal.tagNumber ≠ n) (v : t.Val) (vs : rest.Val) :
    (xs.foldlM (sequenceStep (.cons tag t rest)) (0, v, vs)).map Prod.snd =
      (xs.foldlM (sequenceStep rest) (0, vs)).map fun s => (v, s.2) := by
  cases xs with
  | nil => rfl
  | cons x xs =>
    -- the first value found moves the search behind the first field
    have hstep : sequenceStep (.cons tag t rest) (0, v, vs) x =
        (sequenceStep rest (0, vs) x).map fun s => (s.1 + 1, v, s.2) := by
      unfold sequenceStep
      dsimp only
      rw [setField_cons_of_ne hn (hne x (by simp))]
      cases setField rest vs 0 x.tal.tagNumber x.bytes [] <;> rfl
    rw [List.foldlM_cons, List.foldlM_cons, hstep]
    cases sequenceStep rest (0, vs) x with
    | error e => rfl
    | ok s =>
      show (xs.foldlM (sequenceStep (.cons tag t rest)) (s.1 + 1, v, s.2)).map Prod.snd =
        (xs.foldlM (sequenceStep rest) (s.1, s.2)).map fun s => (v, s.2)
      rw [foldlM_sequenceStep_cons_succ]
      cases xs.foldlM (sequenceStep rest) (s.1, s.2) <;> rfl

end Walk

/-! ## One type at a time -/

/-- `v` is written as one value, which carries the tag number of the parameters and is read
    back. An element of a slice is read with a tag number it was not written with. -/
def Returns (t : Ty) (v : t.Val) (params : FieldParameters) : Prop :=
  ∃ x : Tlv, makeField t v params = .ok x.bytes ∧
    (∀ n, params.tagNumber = some n → x.tal.tagNumber = n) ∧
    (x.Short → ∀ q : FieldParameters, q.set = params.set → q.openType = false →
      parseField t t.zero x.bytes [] q = .ok v)

/-- `v` is written with `params` and read back with all parameters that `R` allows. -/
def ReturnsTo (R : FieldParameters → Prop) (t : Ty) (v : t.Val) (params : FieldParameters) : Prop :=
  ∃ x : Tlv, makeField t v params = .ok x.bytes ∧
    (∀ n, params.tagNumber = some n → x.tal.tagNumber = n) ∧
    (x.Short → ∀ q, R q → parseField t t.zero x.bytes [] q = .ok v)

theorem returns_iff {v : t.Val} :
    Returns t v params ↔
      ReturnsTo (fun q => q.set = params.set ∧ q.openType = false) t v params := by
  refine ⟨?_, ?_⟩
  · rintro ⟨x, hx, htag, hread⟩
    exact ⟨x, hx, htag, fun hshort q hq => hread hshort q hq.1 hq.2⟩
  · rintro ⟨x, hx, htag, hread⟩
    exact ⟨x, hx, htag, fun hshort q hset hopen => hread hshort q ⟨hset, hopen⟩⟩

theorem Returns.to {v : t.Val} {q : FieldParameters} (h : Returns t v params)
    (hset : q.set = params.set) (hopen : q.openType = false) : ReturnsTo (· = q) t v params := by
  obtain ⟨x, hx, htag, hread⟩ := h
  refine ⟨x, hx, htag, ?_⟩
  rintro hshort q rfl
  exact hread hshort q hset hopen

/-- The fields of a struct are written as a row of values, which both loops read back. -/
def FieldsReturn (fs : Fields) (v : fs.Val) : Prop :=
  ∃ xs : List Tlv, makeFields fs v = .ok (xs.map Tlv.bytes) ∧
    (∀ x ∈ xs, some x.tal.tagNumber ∈ fs.numbers) ∧ (fs.SomePresent v → xs ≠ []) ∧
    ((∀ x ∈ xs, x.Short) → xs.foldlM (setStep fs) fs.zero = .ok v ∧
      (xs.foldlM (sequenceStep fs) (0, fs.zero)).map Prod.snd = .ok v)

/-- The leaves: the content is read by a function of its own. -/
theorem returns_leaf {v : t.Val} (read : List UInt8 → Except BerError t.Val) (hgood : params.Good)
    {number : Nat} (hnumber : number < 2 ^ 63) {value : List UInt8}
    (hmake : makeField t v params = .ok (berType 0 false number value params))
    (hparse : ∀ bytes q, parseField t t.zero bytes [] q =
      readHeader bytes [] >>= fun s => read (bytes.drop s.2)) (hread : read value = .ok v) :
    Returns t v params := by
  obtain ⟨x, hx, hcontent, htag⟩ := berType_eq hgood false hnumber value
  refine ⟨x, by rw [hmake, hx], htag, ?_⟩
  intro hshort q _ _
  rw [hparse, readHeader_bytes hshort]
  show read (x.bytes.drop _) = _
  rw [x.drop_header, hcontent, hread]

/-- Pointers, and Value and List wrappers. -/
theorem returnsTo_wrapper {t' : Ty} {v : t'.Val} {w : t.Val} (h : ReturnsTo R t' v params)
    (hmake : makeField t w params = makeField t' v params)
    (hparse : ∀ bytes q, parseField t' t'.zero bytes [] q = .ok v →
      (∃ s, readHeader bytes [] = .ok s) → parseField t t.zero bytes [] q = .ok w) :
    ReturnsTo R t w params := by
  obtain ⟨x, hx, htag, hread⟩ := h
  refine ⟨x, hmake.trans hx, htag, ?_⟩
  intro hshort q hq
  exact hparse _ _ (hread hshort q hq) ⟨_, readHeader_bytes hshort⟩

section Wrappers

variable {R : FieldParameters → Prop} {t : Ty} {v : t.Val} {params : FieldParameters}

theorem ReturnsTo.ptr (h : ReturnsTo R t v params) : ReturnsTo R (.ptr t) (some v) params := by
  refine returnsTo_wrapper h rfl fun bytes q hparse _ => ?_
  rw [parseField, hparse]
  rfl

theorem ReturnsTo.value (h : ReturnsTo R t v params) : ReturnsTo R (.value t) v params := by
  refine returnsTo_wrapper h rfl ?_
  rintro bytes q hparse ⟨s, hs⟩
  rw [parseField, hs]
  exact hparse

theorem ReturnsTo.list (h : ReturnsTo R t v params) : ReturnsTo R (.list t) v params := by
  refine returnsTo_wrapper h rfl ?_
  rintro bytes q hparse ⟨s, hs⟩
  rw [parseField, hs]
  exact hparse

end Wrappers

theorem returns_struct {fs : Fields} {v : fs.Val} (hgood : params.Good) (h : FieldsReturn fs v)
    (hsome : fs.SomePresent v) : Returns (.struct fs) v params := by
  obtain ⟨xs, hmake, _, hne, hread⟩ := h
  obtain ⟨x, hx, hcontent, htag⟩ := berType_eq hgood true (setOrSequence_lt params) (row xs)
  have hlen : fs.length ≠ 0 := by
    cases fs with
    | nil => exact hsome.elim
    | cons tag t rest => exact Nat.succ_ne_zero _
  refine ⟨x, ?_, htag, ?_⟩
  · rw [makeField, hmake]
    show (if (xs.map Tlv.bytes).isEmpty then _ else _) = _
    rw [if_neg (by simpa using hne hsome)]
    exact congrArg Except.ok hx
  · intro hshort q hset hopen
    obtain ⟨hset', hseq⟩ := hread (short_of_content hcontent hshort)
    rw [parseField, readHeader_bytes hshort]
    show (if fs.length = 0 then _ else _) = _
    rw [if_neg hlen]
    simp only [hopen, Bool.false_eq_true, if_false]
    by_cases hq : q.set = true
    · rw [if_pos hq]
      refine forValues_eq_ok (fun s number value beyond => ?_) hcontent hshort hset'
      exact (extends_setField beyond fs s 0 number value []).map Prod.snd
    · rw [if_neg hq]
      obtain ⟨s, hs, rfl⟩ := map_eq_ok.mp hseq
      have hloop : forValues (fun (s : Nat × fs.Val) number value beyond =>
          (setField fs s.2 s.1 number value beyond).map fun s => (s.1 + 1, s.2)) x.bytes.length
            (x.bytes.drop (appendTagAndLen x.tal).length) [] (0, fs.zero) = .ok s := by
        refine forValues_eq_ok (fun s number value beyond => ?_) hcontent hshort hs
        exact (extends_setField beyond fs s.2 s.1 number value []).map _
      exact congrArg (fun r => r >>= fun s => Except.ok s.2) hloop

theorem mapM_returns {vs : List t.Val} (h : ∀ v ∈ vs, ReturnsTo R t v params) :
    ∃ xs : List Tlv, vs.mapM (fun v => iterate (makeField t v params)) = .ok (xs.map Tlv.bytes) ∧
      ((∀ x ∈ xs, x.Short) → ∀ q, R q →
        ∀ ps : List (List UInt8 × List UInt8), ps.map Prod.fst = xs.map Tlv.bytes →
          ps.mapM (fun p => parseField t t.zero p.1 p.2 q) = .ok vs) := by
  induction vs with
  | nil =>
    refine ⟨[], rfl, fun _ _ _ ps hps => ?_⟩
    rw [List.map_eq_nil_iff.mp hps]
    rfl
  | cons v vs ih =>
    obtain ⟨x, hx, _, hread⟩ := h v (by simp)
    obtain ⟨xs, hxs, hreads⟩ := ih fun w hw => h w (by simp [hw])
    refine ⟨x :: xs, ?_, ?_⟩
    · rw [List.mapM_cons, hx, hxs]
      rfl
    · intro hshort q hq ps hps
      obtain ⟨⟨_, beyond⟩, ps, rfl, rfl, hps'⟩ := List.map_eq_cons_iff.mp hps
      have hfirst : parseField t t.zero x.bytes beyond q = .ok v :=
        (extends_parseField beyond t t.zero x.bytes [] q).ok (hread (hshort x (by simp)) q hq)
      rw [List.mapM_cons, hreads (fun y hy => hshort y (by simp [hy])) q hq ps hps']
      show (parseField t t.zero x.bytes beyond q >>= _) = _
      rw [hfirst]
      rfl

theorem foldl_collect (xs : List Tlv) (acc : List (List UInt8)) :
    xs.foldl (fun values x => values ++ [x.bytes]) acc = acc ++ xs.map Tlv.bytes := by
  induction xs generalizing acc with
  | nil => exact (List.append_nil acc).symm
  | cons x xs ih => rw [List.foldl_cons, ih, List.append_assoc, List.map_cons, List.singleton_append]

theorem collect_content {x : Tlv} {xs : List Tlv} (hcontent : x.content = row xs)
    (hshort : x.Short) :
    ∃ ps, forValues (fun values _ value beyond => .ok (values ++ [(value, beyond)])) x.bytes.length
      (x.bytes.drop (appendTagAndLen x.tal).length) [] [] = .ok ps ∧
        ps.map Prod.fst = xs.map Tlv.bytes := by
  have hrun : xs.foldlM (fun values x => (.ok (values ++ [x.bytes]) : Except BerError _)) [] =
      .ok (xs.map Tlv.bytes) := by
    rw [foldlM_eq_ok (fun _ _ => rfl), foldl_collect, List.nil_append]
  refine forValues_content (R := fun a s => List.map Prod.fst s = a)
    (fun a s x a' ha hstep beyond => ⟨_, rfl, ?_⟩) hcontent hshort rfl hrun
  cases hstep
  rw [List.map_append, ha]
  rfl

/-- The elements of a slice are written without a tag number. -/
theorem returnsTo_slice {vs : List t.Val} (hgood : params.Good)
    (h : ∀ v ∈ vs, ReturnsTo R t v { params with tagNumber := none }) :
    ReturnsTo R (.slice t) (some vs) params := by
  obtain ⟨xs, hmake, hread⟩ := mapM_returns h
  obtain ⟨x, hx, hcontent, htag⟩ := berType_eq hgood true (setOrSequence_lt params) (row xs)
  refine ⟨x, ?_, htag, ?_⟩
  · rw [makeField, Option.getD_some, hmake]
    exact congrArg Except.ok hx
  · intro hshort q hq
    obtain ⟨ps, hcollect, hps⟩ := collect_content hcontent hshort
    rw [parseField, readHeader_bytes hshort]
    show (forValues _ _ (x.bytes.drop (appendTagAndLen x.tal).length) [] [] >>= _) = _
    rw [hcollect]
    show (ps.mapM (fun p => parseField t t.zero p.1 p.2 q) >>= _) = _
    rw [hread (short_of_content hcontent hshort) q hq ps hps]
    rfl

theorem Absent.eq_zero {tag : List Char} {v : t.Val} (h : Absent tag t v) : v = t.zero := by
  unfold Absent isAbsent at h
  split_ifs at h
  cases t
  case objectIdentifier | octetString | ptr | slice =>
    exact Option.isNone_iff_eq_none.mp (Except.ok.inj h)
  all_goals cases h

section Field

variable {tag : List Char} {t : Ty} {rest : Fields} {v : t.Val} {vs : rest.Val}

variable {n : Nat} (hn : (parseFieldParameters tag).tagNumber = some n)

include hn

theorem ne_of_numbers (hnodup : (Fields.cons tag t rest).numbers.Nodup) {xs : List Tlv}
    (hmem : ∀ x ∈ xs, some x.tal.tagNumber ∈ rest.numbers) : ∀ x ∈ xs, x.tal.tagNumber ≠ n := by
  intro x hx heq
  have hnot : (parseFieldParameters tag).tagNumber ∉ rest.numbers := (List.nodup_cons.mp hnodup).1
  rw [hn, ← heq] at hnot
  exact hnot (hmem x hx)

theorem fieldsReturn_absent (hnodup : (Fields.cons tag t rest).numbers.Nodup)
    (habsent : Absent tag t v) (h : FieldsReturn rest vs) :
    FieldsReturn (.cons tag t rest) (v, vs) := by
  obtain ⟨xs, hmake, hmem, hne, hread⟩ := h
  have hzero : v = t.zero := habsent.eq_zero
  have hnumbers := ne_of_numbers hn hnodup hmem
  refine ⟨xs, ?_, ?_, ?_, ?_⟩
  · rw [makeFields]
    rw [show isAbsent (parseFieldParameters tag) t v = .ok true from habsent]
    exact hmake
  · exact fun x hx => List.mem_cons_of_mem _ (hmem x hx)
  · rintro (hpresent | hpresent)
    · exact absurd habsent hpresent
    · exact hne hpresent
  · intro hshort
    obtain ⟨hset, hseq⟩ := hread hshort
    subst hzero
    refine ⟨?_, ?_⟩
    · show xs.foldlM (setStep (.cons tag t rest)) (t.zero, rest.zero) = _
      rw [foldlM_setStep_cons hn hnumbers, hset]
      rfl
    · show (xs.foldlM (sequenceStep (.cons tag t rest)) (0, t.zero, rest.zero)).map Prod.snd = _
      rw [foldlM_sequenceStep_cons hn hnumbers]
      obtain ⟨s, hs, rfl⟩ := map_eq_ok.mp hseq
      rw [hs]
      rfl

theorem fieldsReturn_present (hopen : (parseFieldParameters tag).openType = false)
    (hnodup : (Fields.cons tag t rest).numbers.Nodup)
    (hpresent : isAbsent (parseFieldParameters tag) t v = .ok false)
    (hv : ReturnsTo (· = parseFieldParameters tag) t v (parseFieldParameters tag))
    (h : FieldsReturn rest vs) : FieldsReturn (.cons tag t rest) (v, vs) := by
  obtain ⟨xs, hmake, hmem, _, hread⟩ := h
  obtain ⟨x, hx, htag, hparse⟩ := hv
  have hnumbers := ne_of_numbers hn hnodup hmem
  have hnumber : (parseFieldParameters tag).tagNumber = some x.tal.tagNumber := by
    rw [hn, htag n hn]
  refine ⟨x :: xs, ?_, ?_, fun _ => List.cons_ne_nil x xs, ?_⟩
  · rw [makeFields]
    rw [hpresent, hopen, hx, hmake]
    rfl
  · intro y hy
    rcases List.mem_cons.mp hy with rfl | hy
    · exact List.mem_cons.mpr (Or.inl hnumber.symm)
    · exact List.mem_cons_of_mem _ (hmem y hy)
  · intro hshort
    obtain ⟨hset, hseq⟩ := hread fun y hy => hshort y (by simp [hy])
    have hfound : setField (.cons tag t rest) (t.zero, rest.zero) 0 x.tal.tagNumber x.bytes [] =
        .ok (0, v, rest.zero) :=
      setField_cons_of_eq hnumber rest.zero (hparse (hshort x (by simp)) _ rfl)
    refine ⟨?_, ?_⟩
    · have hstep : setStep (.cons tag t rest) (t.zero, rest.zero) x = .ok (v, rest.zero) := by
        unfold setStep
        rw [hfound]
        rfl
      show (x :: xs).foldlM (setStep (.cons tag t rest)) (t.zero, rest.zero) = _
      rw [List.foldlM_cons, hstep]
      show xs.foldlM (setStep (.cons tag t rest)) (v, rest.zero) = _
      rw [foldlM_setStep_cons hn hnumbers, hset]
      rfl
    · have hstep : sequenceStep (.cons tag t rest) (0, t.zero, rest.zero) x =
          .ok (1, v, rest.zero) := by
        unfold sequenceStep
        dsimp only
        rw [hfound]
        rfl
      show ((x :: xs).foldlM (sequenceStep (.cons tag t rest)) (0, t.zero, rest.zero)).map
        Prod.snd = _
      rw [List.foldlM_cons, hstep]
      show (xs.foldlM (sequenceStep (.cons tag t rest)) (0 + 1, v, rest.zero)).map Prod.snd = _
      rw [foldlM_sequenceStep_cons_succ]
      obtain ⟨s, hs, rfl⟩ := map_eq_ok.mp hseq
      rw [hs]
      rfl

end Field

/-! ## Schemas -/

mutual

theorem returns_of_plain : ∀ (t : Ty) (v : t.Val) (params : FieldParameters), t.Plain →
    t.Whole v → t.Supported v → params.Good → Returns t v params
  | .octetString, some v, _, _, _, _, hgood =>
    returns_leaf (fun b => .ok (some b)) hgood (by decide) rfl (fun _ _ => rfl) rfl
  | .enumerated, v, _, _, hv, _, hgood =>
    returns_leaf parseInt64 hgood (by decide) rfl (fun _ _ => rfl)
      ((parseInt64_int64Bytes_iff v).mpr hv)
  | .int, v, _, _, hv, _, hgood =>
    returns_leaf parseInt64 hgood (by decide) rfl (fun _ _ => rfl)
      ((parseInt64_int64Bytes_iff v).mpr hv)
  | .int32, v, _, _, hv, _, hgood =>
    returns_leaf (fun b => parseInt64 b >>= fun i => .ok i.toInt32) hgood (by decide) rfl
      (fun _ _ => rfl) (parseInt64_int32 hv)
  | .bool, v, _, _, _, _, hgood =>
    returns_leaf parseBool hgood (by decide) rfl (fun _ _ => rfl) (by cases v <;> rfl)
  | .string, v, _, _, _, _, hgood =>
    returns_leaf (fun b => .ok b) hgood hgood.stringType rfl (fun _ _ => rfl) rfl
  | .ptr t, some v, params, ht, hv, hs, hgood =>
    returns_iff.mpr (returns_iff.mp (returns_of_plain t v params ht hv hs hgood)).ptr
  | .value t, v, params, ht, hv, hs, hgood =>
    returns_iff.mpr (returns_iff.mp (returns_of_plain t v params ht hv hs hgood)).value
  | .list t, v, params, ht, hv, hs, hgood =>
    returns_iff.mpr (returns_iff.mp (returns_of_plain t v params ht hv hs hgood)).list
  | .struct fs, v, _, ht, hv, hs, hgood =>
    returns_struct hgood (fieldsReturn_of_plain fs v ht.1 ht.2 hv.1 hs) hv.2
  | .slice t, some vs, _, ht, hv, hs, hgood =>
    returns_iff.mpr (returnsTo_slice hgood fun v hmem =>
      returns_iff.mp (returns_of_plain t v _ ht (hv v hmem) (hs.2 v hmem) hgood.element))

theorem fieldsReturn_of_plain : ∀ (fs : Fields) (v : fs.Val), fs.Plain → fs.numbers.Nodup →
    fs.Whole v → fs.Supported v → FieldsReturn fs v
  | .nil, _, _, _, _, _ => ⟨[], rfl, by simp, fun h => h.elim, fun _ => ⟨rfl, rfl⟩⟩
  | .cons tag t rest, (v, vs), hplain, hnodup, hwhole, hsup => by
    obtain ⟨⟨hnum, hopen⟩, ht, hrest⟩ := hplain
    obtain ⟨n, hn⟩ := Option.isSome_iff_exists.mp hnum
    have htail : FieldsReturn rest vs :=
      fieldsReturn_of_plain rest vs hrest (List.nodup_cons.mp hnodup).2 hwhole.2 hsup.2
    rcases hsup.1 with habsent | ⟨hpresent, hparams, hv⟩
    · exact fieldsReturn_absent hn hnodup habsent htail
    · have hthere : ¬ Absent tag t v := by
        intro h
        cases h.symm.trans hpresent
      exact fieldsReturn_present hn hopen hnodup hpresent
        ((returns_of_plain t v _ ht (hwhole.1.resolve_left hthere) hv (good_parse hparams)).to
          rfl hopen) htail

end

/-! ## The top of a schema -/

/-- The alternative at `i` is written as one value, found by its tag number and read back. -/
def AlternativeReturns (alts : Fields) (v : alts.Val) (i : Nat) : Prop :=
  i < alts.length ∧ ∃ x : Tlv, makeAlternative alts v i = .ok x.bytes ∧
    some x.tal.tagNumber ∈ alts.numbers ∧ findAlternative x.tal.tagNumber alts = some i ∧
    (x.Short → parseAlternative alts alts.zero i x.bytes [] = .ok v)

section Alternative

variable {tag : List Char} {t : Ty} {rest : Fields}

theorem alternativeReturns_zero {v : t.Val} (hnum : (parseFieldParameters tag).tagNumber.isSome)
    (hv : ReturnsTo (· = parseFieldParameters tag) t v (parseFieldParameters tag)) :
    AlternativeReturns (.cons tag t rest) (v, rest.zero) 0 := by
  obtain ⟨n, hn⟩ := Option.isSome_iff_exists.mp hnum
  obtain ⟨x, hx, htag, hread⟩ := hv
  have hnumber : (parseFieldParameters tag).tagNumber = some x.tal.tagNumber := by
    rw [hn, htag n hn]
  refine ⟨Nat.succ_pos _, x, hx, List.mem_cons.mpr (Or.inl hnumber.symm), ?_, ?_⟩
  · rw [findAlternative, if_pos hnumber]
  · intro hshort
    show (parseField t t.zero x.bytes [] _ >>= _) = _
    rw [hread hshort _ rfl]
    rfl

theorem alternativeReturns_succ (hnodup : (Fields.cons tag t rest).numbers.Nodup) {vs : rest.Val}
    {i : Nat} (h : AlternativeReturns rest vs i) :
    AlternativeReturns (.cons tag t rest) (t.zero, vs) (i + 1) := by
  obtain ⟨hlt, x, hx, hmem, hfind, hread⟩ := h
  have hne : (parseFieldParameters tag).tagNumber ≠ some x.tal.tagNumber := by
    intro h
    exact (List.nodup_cons.mp hnodup).1 (h ▸ hmem)
  refine ⟨Nat.succ_lt_succ hlt, x, hx, List.mem_cons_of_mem _ hmem, ?_, ?_⟩
  · rw [findAlternative, if_neg hne, hfind]
    rfl
  · intro hshort
    show (parseAlternative rest rest.zero i x.bytes [] >>= _) = _
    rw [hread hshort]
    rfl

end Alternative

theorem alternative_returns : ∀ (alts : Fields) (v : alts.Val) (i : Nat), alts.Plain →
    alts.numbers.Nodup → alts.WholeAt v i → alts.SupportedAt v i → AlternativeReturns alts v i
  | .nil, _, _, _, _, hwhole, _ => hwhole.elim
  | .cons tag t rest, (v, vs), 0, hplain, _, hwhole, hsup => by
    obtain ⟨⟨hnum, hopen⟩, ht, _⟩ := hplain
    obtain ⟨hv, rfl⟩ := hwhole
    exact alternativeReturns_zero hnum
      ((returns_of_plain t v _ ht hv hsup.2 (good_parse hsup.1)).to rfl hopen)
  | .cons tag t rest, (v, vs), i + 1, hplain, hnodup, hwhole, hsup => by
    obtain ⟨rfl, hvs⟩ := hwhole
    exact alternativeReturns_succ hnodup (alternative_returns rest vs i hplain.2.2
      (List.nodup_cons.mp hnodup).2 hvs hsup)

/-- `v` is written as one value and read back with the same parameters. -/
def TopReturns (t : Ty) (v : t.Val) (params : FieldParameters) : Prop :=
  ∃ x : Tlv, makeField t v params = .ok x.bytes ∧
    (x.Short → parseField t t.zero x.bytes [] params = .ok v)

theorem ReturnsTo.top {v : t.Val} (h : ReturnsTo (· = params) t v params) :
    TopReturns t v params := by
  obtain ⟨x, hx, _, hread⟩ := h
  exact ⟨x, hx, fun hshort => hread hshort params rfl⟩

/-- A CHOICE without a tag number is written and read as its alternative. -/
theorem returnsTo_choice {alts : Fields} {present : Int} {v : alts.Val}
    (htag : params.tagNumber = none) (hopen : params.openType = false)
    (hR : ∀ q, R q → q.tagNumber = none ∧ q.openType = false) (hpos : 1 ≤ present)
    (h : AlternativeReturns alts v (present.toNat - 1)) :
    ReturnsTo R (.choice alts) (present, v) params := by
  obtain ⟨hlt, x, hx, _, hfind, hread⟩ := h
  refine ⟨x, ?_, fun n hn => (nomatch hn.symm.trans htag), ?_⟩
  · rw [makeField, if_neg (by omega), if_neg (by omega), hopen, htag]
    exact hx
  · intro hshort q hq
    have hpresent : ((present.toNat - 1 : Nat) : Int) + 1 = present := by omega
    show parseField (.choice alts) (0, alts.zero) x.bytes [] q = _
    rw [parseField, readHeader_bytes hshort, (hR q hq).1, (hR q hq).2]
    dsimp only [bind, Except.bind]
    rw [if_neg Bool.false_ne_true, hfind]
    show (parseAlternative alts alts.zero _ x.bytes [] >>= _) = _
    rw [hread hshort]
    exact congrArg (fun p : Int => Except.ok (p, v)) hpresent

theorem returnsTo_of_schema : ∀ (t : Ty) (v : t.Val) (params : FieldParameters),
    t.Schema params → params.openType = false → t.Whole v → t.Supported v → params.Good →
    ReturnsTo (· = params) t v params
  | .choice alts, (_, v), params, hschema, hopen, hv, hs, _ =>
    returnsTo_choice hschema.2 hopen (by rintro q rfl; exact ⟨hschema.2, hopen⟩) hv.1
      (alternative_returns alts v _ hschema.1.1 hschema.1.2 hv.2 hs)
  | .ptr t, some v, params, hschema, hopen, hv, hs, hgood =>
    (returnsTo_of_schema t v params hschema hopen hv hs hgood).ptr
  | .value t, v, params, hschema, hopen, hv, hs, hgood =>
    (returnsTo_of_schema t v params hschema hopen hv hs hgood).value
  | .list t, v, params, hschema, hopen, hv, hs, hgood =>
    (returnsTo_of_schema t v params hschema hopen hv hs hgood).list
  | .bitString, _, _, hschema, _, _, _, _ => hschema.elim
  | .objectIdentifier, _, _, hschema, _, _, _, _ => hschema.elim
  | .null, _, _, hschema, _, _, _, _ => hschema.elim
  | .octetString, v, _, hschema, hopen, hv, hs, hgood
  | .enumerated, v, _, hschema, hopen, hv, hs, hgood
  | .bool, v, _, hschema, hopen, hv, hs, hgood
  | .int, v, _, hschema, hopen, hv, hs, hgood
  | .int32, v, _, hschema, hopen, hv, hs, hgood
  | .string, v, _, hschema, hopen, hv, hs, hgood
  | .struct _, v, _, hschema, hopen, hv, hs, hgood
  | .slice _, v, _, hschema, hopen, hv, hs, hgood =>
    (returns_of_plain _ v _ hschema hv hs hgood).to rfl hopen

/-- What the schemas and values of a round trip are. Open types are not among them. -/
structure InSchema (t : Ty) (v : t.Val) (params : FieldParameters) : Prop where
  schema : t.Schema params
  openType : params.openType = false
  whole : t.Whole v

/-- Structs in any nesting come back from their encoding, up to the lengths that the decoder
    takes, when no tag in them is explicit. -/
theorem unmarshal_marshal {t : Ty} {v : t.Val} {params : List Char}
    (h : InSchema t v (parseFieldParameters params))
    (hparams : (parseFieldParameters params).Supported) (hv : t.Supported v) :
    ∃ bs, berMarshalWithParams t v params = .ok bs ∧
      (bs.length < 2 ^ 24 → unmarshalWithParams t bs params = .ok v) := by
  obtain ⟨x, hx, hread⟩ :=
    (returnsTo_of_schema t v _ h.schema h.openType h.whole hv (good_parse hparams)).top
  exact ⟨x.bytes, hx, fun hlen => hread (Tlv.short_of_bytes hlen)⟩

def numberTag : List Char := "tagNum:0".toList

def flagTag : List Char := "tagNum:300,optional".toList

def namesTag : List Char := "tagNum:1,set".toList

/-- A struct with a mandatory number, an optional flag under a long tag, and a SET of names. -/
abbrev Listing : Ty :=
  .struct (.cons numberTag .int (.cons flagTag (.ptr .bool)
    (.cons namesTag (.list (.slice .string)) .nil)))

theorem unmarshal_marshal_listing :
    ∃ bs, berMarshalWithParams Listing (128, none, some [[1], [2, 3]], ()) [] = .ok bs ∧
      (bs.length < 2 ^ 24 →
        unmarshalWithParams Listing bs [] = .ok (128, none, some [[1], [2, 3]], ())) := by
  have h0 : parseFieldParameters numberTag = { tagNumber := some 0 } := by decide +kernel
  have h300 : parseFieldParameters flagTag = { tagNumber := some 300, optional := true } := by
    decide +kernel
  have h1 : parseFieldParameters namesTag = { tagNumber := some 1, set := true } := by
    decide +kernel
  have hnone : parseFieldParameters [] = {} := by decide +kernel
  have hnumber : isAbsent (parseFieldParameters numberTag) .int 128 = .ok false := by
    rw [h0]
    rfl
  have hflag : Absent flagTag (.ptr .bool) none := by
    unfold Absent
    rw [h300]
    rfl
  have hnames : isAbsent (parseFieldParameters namesTag) (.list (.slice .string))
      (some [[1], [2, 3]]) = .ok false := by
    rw [h1]
    rfl
  refine unmarshal_marshal ⟨⟨⟨?_, trivial, ?_, trivial, ?_, trivial, trivial⟩, ?_⟩, ?_,
    ⟨Or.inr (Or.inl (show 0 ≤ (128 : Int64).toInt by decide)), Or.inl hflag,
      Or.inr fun _ _ => trivial, trivial⟩, Or.inl ?_⟩ ?_
    ⟨Or.inr ⟨hnumber, ?_, trivial⟩, Or.inl hflag,
      Or.inr ⟨hnames, ?_, rfl, fun _ _ => trivial⟩, trivial⟩
  · rw [h0]
    exact ⟨rfl, rfl⟩
  · rw [h300]
    exact ⟨rfl, rfl⟩
  · rw [h1]
    exact ⟨rfl, rfl⟩
  · unfold Fields.numbers Fields.numbers Fields.numbers Fields.numbers
    rw [h0, h300, h1]
    decide
  · rw [hnone]
  · intro h
    cases h.symm.trans hnumber
  · rw [hnone]
    exact fun _ hn => (nomatch hn)
  · rw [h0]
    rintro n ⟨⟩
    exact ⟨by decide, rfl⟩
  · rw [h1]
    rintro n ⟨⟩
    exact ⟨by decide, rfl⟩

/-! ## Explicit tags -/

def explicitTag : List Char := "explicit,tagNum:0".toList

/-- A struct with one explicitly tagged number. -/
abbrev Wrapped : Ty := .struct (.cons explicitTag .int .nil)

/-- The number 5 is written as `30 05 a0 03 02 01 05` and read as `02 01 05`. -/
theorem explicit_number_misread :
    InSchema Wrapped (5, ()) (parseFieldParameters []) ∧
      ¬ ∃ bs, berMarshalWithParams Wrapped (5, ()) [] = .ok bs ∧
        (bs.length < 2 ^ 24 → unmarshalWithParams Wrapped bs [] = .ok (5, ())) := by
  have htag : parseFieldParameters explicitTag = { tagNumber := some 0, explicitTag := true } := by
    decide +kernel
  have hnone : parseFieldParameters [] = {} := by decide +kernel
  have hmake : berMarshalWithParams Wrapped (5, ()) [] =
      .ok [0x30, 5, 0xa0, 3, 2, 1, 5] := by decide +kernel
  have hread : unmarshalWithParams Wrapped [0x30, 5, 0xa0, 3, 2, 1, 5] [] =
      .ok (0x020105, ()) := rfl
  refine ⟨⟨⟨⟨?_, trivial, trivial⟩, ?_⟩, by rw [hnone], ⟨Or.inr (Or.inl ?_), trivial⟩, Or.inl ?_⟩, ?_⟩
  · rw [htag]
    exact ⟨rfl, rfl⟩
  · exact List.nodup_cons.mpr ⟨List.not_mem_nil, List.nodup_nil⟩
  · show 0 ≤ (5 : Int64).toInt
    decide
  · unfold Absent isAbsent
    rw [htag]
    intro h
    cases h
  · rintro ⟨bs, hbs, h⟩
    have heq := Except.ok.inj (hmake.symm.trans hbs)
    subst heq
    have hbad := Except.ok.inj (hread.symm.trans (h (by decide)))
    exact absurd (congrArg Prod.fst hbad) (by decide)

end Free5gc.Chf.Asn
