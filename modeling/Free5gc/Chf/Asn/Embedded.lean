/-
  A CHOICE inside another value (`cdr/asn`): as a field of a struct, as an element of a
  SEQUENCE OF, as an alternative of another CHOICE.

  Under a tag number the encoder puts an outer header before the alternative. The decoder reads
  that header and the inner one behind it, but then starts the alternative at the length of the
  inner header, counted from the front (`parseField_embedded`). It is the right place when both
  headers have the same size. The elements of a SEQUENCE OF are written without the tag number
  of their field and read with it, so there the outer header is missing altogether.
-/
import Free5gc.Chf.Asn.RoundTrip

namespace Free5gc.Chf.Asn

open Free5gc.Lib

/-! ## Header sizes -/

/-- The octets of a header. Class and form do not matter. -/
def headerSize (number len : Nat) : Nat := (appendTagAndLen ⟨0, false, number, len⟩).length

variable {n : Nat} {alts : Fields} {q params : FieldParameters} {t : Ty}

theorem length_header (t : TagAndLen) :
    (appendTagAndLen t).length = headerSize t.tagNumber t.len := by
  unfold headerSize appendTagAndLen identifier
  split_ifs <;> simp [length_tagDigits]

theorem loopCount_mono {b : Nat} (fuel : Nat) {v w : Nat} (h : v ≤ w) :
    loopCount b fuel v ≤ loopCount b fuel w := by
  induction fuel generalizing v w with
  | zero => exact Nat.le_refl _
  | succ k ih =>
    unfold loopCount
    split_ifs with hv hw
    · exact Nat.succ_le_succ (ih (Nat.div_le_div_right h))
    · omega
    · exact Nat.zero_le _
    · exact Nat.le_refl _

theorem headerSize_mono (number : Nat) {a b : Nat} (h : a ≤ b) :
    headerSize number a ≤ headerSize number b := by
  have hcount := @loopCount_mono 256 7 a b h
  have hlength : (lengthOctets a).length ≤ (lengthOctets b).length := by
    unfold lengthOctets
    split_ifs
    · simp
    · simp
    · omega
    · simp only [List.length_cons, length_beBytes]
      omega
  unfold headerSize appendTagAndLen
  rw [List.length_append, List.length_append]
  exact Nat.add_le_add_left hlength _

/-- The outer header of tag `n` is as long as the header of the alternative at `i`. -/
def SameHeader (n : Nat) (alts : Fields) (v : alts.Val) (i : Nat) : Prop :=
  ∀ m e, alts.numbers[i]? = some (some m) → makeAlternative alts v i = .ok e →
    ∃ len, e.length = headerSize m len + len ∧ headerSize n e.length = headerSize m len

theorem numbers_of_findAlternative {number : Nat} : ∀ {alts : Fields} {i : Nat},
    findAlternative number alts = some i → alts.numbers[i]? = some (some number)
  | .nil, _, h => (nomatch h)
  | .cons tag t rest, i, h => by
    rw [findAlternative] at h
    split_ifs at h with heq
    · cases h
      exact congrArg some heq
    · obtain ⟨k, hk, rfl⟩ := Option.map_eq_some_iff.mp h
      rw [Fields.numbers, List.getElem?_cons_succ]
      exact numbers_of_findAlternative hk

/-- The length that an encoded alternative leaves for its content is determined. -/
theorem SameHeader.size_eq {v : alts.Val} {i : Nat} {x : Tlv} (h : SameHeader n alts v i)
    (hx : makeAlternative alts v i = .ok x.bytes)
    (hfind : findAlternative x.tal.tagNumber alts = some i) :
    headerSize n x.bytes.length = (appendTagAndLen x.tal).length := by
  obtain ⟨len, hlen, hsize⟩ := h _ _ (numbers_of_findAlternative hfind) hx
  have hbytes := x.length_bytes
  rw [length_header] at hbytes ⊢
  have heq : len = x.tal.len := by
    rcases Nat.le_total len x.tal.len with hle | hle
    · have := headerSize_mono x.tal.tagNumber hle
      omega
    · have := headerSize_mono x.tal.tagNumber hle
      omega
  rw [hsize, heq]

/-! ## Schemas with embedded CHOICEs -/

mutual

/-- Structs and CHOICEs with distinct tag numbers in any nesting. NULL and OBJECT IDENTIFIER are
    not decoded at all. -/
def Ty.Tagged : Ty → Prop
  | .objectIdentifier | .null => False
  | .bitString | .octetString | .enumerated | .bool | .int | .int32 | .string => True
  | .ptr t | .value t | .list t | .slice t => t.Tagged
  | .choice alts => alts.Tagged ∧ alts.numbers.Nodup
  | .struct fs => fs.Tagged ∧ fs.numbers.Nodup

def Fields.Tagged : Fields → Prop
  | .nil => True
  | .cons tag t rest =>
    ((parseFieldParameters tag).tagNumber.isSome ∧ (parseFieldParameters tag).openType = false) ∧
      t.Tagged ∧ rest.Tagged

end

mutual

/-- Written with one tag number and read with another, a CHOICE needs both or none, and with both
    an outer header as long as the inner one. -/
def Ty.Aligned : (t : Ty) → t.Val → (written read : Option Nat) → Prop
  | .bitString, (bytes, bitLength), _, _ => WholeBits bytes bitLength
  | .ptr _, none, _, _ => True
  | .ptr t, some v, written, read => t.Aligned v written read
  | .value t, v, written, read => t.Aligned v written read
  | .list t, v, written, read => t.Aligned v written read
  | .choice alts, (present, v), written, read =>
    written.isSome = read.isSome ∧ alts.AlignedAt v (present.toNat - 1) ∧
      ∀ n, written = some n → SameHeader n alts v (present.toNat - 1)
  | .struct fs, v, _, _ => fs.Aligned v
  | .slice t, v, _, read => ∀ x ∈ v.getD [], t.Aligned x none read
  | _, _, _, _ => True

def Fields.Aligned : (fs : Fields) → fs.Val → Prop
  | .nil, _ => True
  | .cons tag t rest, (v, vs) =>
    (Absent tag t v ∨
      t.Aligned v (parseFieldParameters tag).tagNumber (parseFieldParameters tag).tagNumber) ∧
      rest.Aligned vs

def Fields.AlignedAt : (fs : Fields) → fs.Val → (i : Nat) → Prop
  | .nil, _, _ => False
  | .cons tag t _, (v, _), 0 =>
    t.Aligned v (parseFieldParameters tag).tagNumber (parseFieldParameters tag).tagNumber
  | .cons _ _ rest, (_, vs), i + 1 => rest.AlignedAt vs i

end

/-! ## One CHOICE -/

/-- What the decoder does with an embedded CHOICE: it takes the alternative from as many octets
    behind the front as the inner header has. -/
theorem parseField_embedded {i : Nat} {x y : Tlv} (hcontent : y.content = x.bytes)
    (hshort : y.Short) (hn : q.tagNumber = some n) (hopen : q.openType = false)
    (hfind : findAlternative x.tal.tagNumber alts = some i) (present : Int) (v : alts.Val) :
    parseField (.choice alts) (present, v) y.bytes [] q =
      (parseAlternative alts v i (y.bytes.drop (appendTagAndLen x.tal).length) []).map
        fun w => ((i : Int) + 1, w) := by
  have hx : x.Short := Tlv.short_of_bytes (hcontent ▸ hshort)
  have hfits : x.tal.Fits := ⟨x.cls_lt, x.number_lt, by rw [x.len_eq]; exact hx⟩
  have hinner : parseTagAndLength (y.bytes.drop (appendTagAndLen y.tal).length) [] =
      .ok (x.tal, (appendTagAndLen x.tal).length) := by
    rw [y.drop_header, hcontent]
    exact parseTagAndLength_append hfits x.content []
  have hin : ¬ (appendTagAndLen x.tal).length + x.tal.len > y.bytes.length := by
    rw [← x.length_bytes, y.length_bytes, y.len_eq, hcontent]
    omega
  rw [parseField, readHeader_bytes hshort, hopen, hn]
  dsimp only [bind, Except.bind]
  rw [if_neg Bool.false_ne_true, hinner]
  dsimp only
  rw [if_neg hin, hfind]
  dsimp only
  cases parseAlternative alts v i (y.bytes.drop (appendTagAndLen x.tal).length) [] <;> rfl

/-- With headers of the same size an embedded CHOICE comes back. -/
theorem returnsTo_embedded {R : FieldParameters → Prop} {present : Int} {v : alts.Val}
    (hgood : params.Good) (htag : params.tagNumber = some n) (hopen : params.openType = false)
    (hR : ∀ q, R q → q.tagNumber.isSome ∧ q.openType = false) (hpos : 1 ≤ present)
    (h : AlternativeReturns alts v (present.toNat - 1))
    (hsame : SameHeader n alts v (present.toNat - 1)) :
    ReturnsTo R (.choice alts) (present, v) params := by
  obtain ⟨hlt, x, hx, _, hfind, hread⟩ := h
  obtain ⟨hn, hexplicit⟩ := hgood.supported n htag
  let y : Tlv := ⟨⟨2, true, n, x.bytes.length⟩, x.bytes, Nat.lt_of_sub_eq_succ rfl, hn, rfl⟩
  have hdrop : y.bytes.drop (appendTagAndLen x.tal).length = x.bytes := by
    have hsize : (appendTagAndLen y.tal).length = (appendTagAndLen x.tal).length := by
      rw [length_header y.tal]
      exact hsame.size_eq hx hfind
    rw [← hsize]
    exact y.drop_header
  refine ⟨y, ?_, fun m hm => Option.some.inj (htag.symm.trans hm), ?_⟩
  · rw [makeField, if_neg (by omega), if_neg (by omega), hopen, htag]
    dsimp only
    rw [if_neg Bool.false_ne_true, hx]
    show Except.ok (berType 0 true 0 x.bytes params) = _
    rw [berType, htag, hexplicit]
    rfl
  · intro hshort q hq
    obtain ⟨m, hm⟩ := Option.isSome_iff_exists.mp (hR q hq).1
    have hxshort : x.Short := Tlv.short_of_bytes hshort
    show parseField (.choice alts) (0, alts.zero) y.bytes [] q = _
    rw [parseField_embedded (y := y) rfl hshort hm (hR q hq).2 hfind, hdrop, hread hxshort]
    have hpresent : ((present.toNat - 1 : Nat) : Int) + 1 = present := by omega
    exact congrArg (fun p : Int => Except.ok (p, v)) hpresent

theorem returns_bitString {bytes : List UInt8} {bitLength : UInt64} (h : WholeBits bytes bitLength)
    (hgood : params.Good) : Returns .bitString (bytes, bitLength) params := by
  have hnumber : 3 < 2 ^ 63 := by decide
  exact returns_leaf parseBitString hgood hnumber rfl (fun _ _ => rfl)
    (parseBitString_of_wholeBits h)

/-! ## All schemas -/

/-- Parameters that a value is written with, and those it is read with: the same, or for the
    elements of a slice the ones with the tag number of the field. -/
structure Paired (params q : FieldParameters) : Prop where
  good : params.Good
  writes : params.openType = false
  reads : q.openType = false
  set : q.set = params.set

theorem Paired.self {tag : List Char} (h : (parseFieldParameters tag).Supported)
    (hopen : (parseFieldParameters tag).openType = false) :
    Paired (parseFieldParameters tag) (parseFieldParameters tag) :=
  ⟨good_parse h, hopen, hopen, rfl⟩

theorem Paired.element (h : Paired params q) : Paired { params with tagNumber := none } q :=
  ⟨h.good.element, h.writes, h.reads, h.set⟩

theorem Returns.paired {v : t.Val} (h : Returns t v params) (hp : Paired params q) :
    ReturnsTo (· = q) t v params :=
  h.to hp.set hp.reads

theorem returnsTo_choice_of_aligned {present : Int} {v : alts.Val} (hp : Paired params q)
    (hpos : 1 ≤ present) (halt : AlternativeReturns alts v (present.toNat - 1))
    (hboth : params.tagNumber.isSome = q.tagNumber.isSome)
    (hsame : ∀ n, params.tagNumber = some n → SameHeader n alts v (present.toNat - 1)) :
    ReturnsTo (· = q) (.choice alts) (present, v) params := by
  cases htag : params.tagNumber with
  | none =>
    rw [htag] at hboth
    refine returnsTo_choice htag hp.writes ?_ hpos halt
    rintro q rfl
    exact ⟨Option.not_isSome_iff_eq_none.mp (by rw [← hboth]; decide), hp.reads⟩
  | some n =>
    rw [htag] at hboth
    refine returnsTo_embedded hp.good htag hp.writes ?_ hpos halt (hsame n htag)
    rintro q rfl
    exact ⟨hboth.symm, hp.reads⟩

mutual

theorem returnsTo_of_aligned : ∀ (t : Ty) (v : t.Val) (params q : FieldParameters), t.Tagged →
    t.Whole v → t.Supported v → t.Aligned v params.tagNumber q.tagNumber → Paired params q →
    ReturnsTo (· = q) t v params
  | .bitString, (_, _), _, _, _, _, _, hbits, hp =>
    (returns_bitString hbits hp.good).paired hp
  | .octetString, v, params, _, _, hv, hs, _, hp
  | .enumerated, v, params, _, _, hv, hs, _, hp
  | .int, v, params, _, _, hv, hs, _, hp
  | .int32, v, params, _, _, hv, hs, _, hp
  | .bool, v, params, _, _, hv, hs, _, hp
  | .string, v, params, _, _, hv, hs, _, hp =>
    (returns_of_plain _ v params trivial hv hs hp.good).paired hp
  | .ptr _, none, _, _, _, hv, _, _, _ => hv.elim
  | .ptr t, some v, params, q, ht, hv, hs, ha, hp =>
    (returnsTo_of_aligned t v params q ht hv hs ha hp).ptr
  | .value t, v, params, q, ht, hv, hs, ha, hp =>
    (returnsTo_of_aligned t v params q ht hv hs ha hp).value
  | .list t, v, params, q, ht, hv, hs, ha, hp =>
    (returnsTo_of_aligned t v params q ht hv hs ha hp).list
  | .choice alts, (_, v), _, _, ht, hv, hs, ha, hp =>
    returnsTo_choice_of_aligned hp hv.1
      (alternativeReturns_of_aligned alts v _ ht.1 ht.2 hv.2 hs ha.2.1) ha.1 ha.2.2
  | .struct fs, v, _, _, ht, hv, hs, ha, hp =>
    (returns_struct hp.good (fieldsReturn_of_aligned fs v ht.1 ht.2 hv.1 hs ha) hv.2).paired hp
  | .slice _, none, _, _, _, _, hs, _, _ => (nomatch hs.1)
  | .slice t, some _, _, q, ht, hv, hs, ha, hp =>
    returnsTo_slice hp.good fun v hmem =>
      returnsTo_of_aligned t v _ q ht (hv v hmem) (hs.2 v hmem) (ha v hmem) hp.element
  | .objectIdentifier, _, _, _, ht, _, _, _, _ => ht.elim
  | .null, _, _, _, ht, _, _, _, _ => ht.elim

theorem fieldsReturn_of_aligned : ∀ (fs : Fields) (v : fs.Val), fs.Tagged → fs.numbers.Nodup →
    fs.Whole v → fs.Supported v → fs.Aligned v → FieldsReturn fs v
  | .nil, _, _, _, _, _, _ => ⟨[], rfl, by simp, fun h => h.elim, fun _ => ⟨rfl, rfl⟩⟩
  | .cons tag t rest, (v, vs), htagged, hnodup, hwhole, hsup, ha => by
    obtain ⟨⟨hnum, hopen⟩, ht, hrest⟩ := htagged
    obtain ⟨n, hn⟩ := Option.isSome_iff_exists.mp hnum
    have htail : FieldsReturn rest vs :=
      fieldsReturn_of_aligned rest vs hrest (List.nodup_cons.mp hnodup).2 hwhole.2 hsup.2 ha.2
    rcases hsup.1 with habsent | ⟨hpresent, hparams, hv⟩
    · exact fieldsReturn_absent hn hnodup habsent htail
    · have hthere : ¬ Absent tag t v := by
        intro h
        cases h.symm.trans hpresent
      exact fieldsReturn_present hn hopen hnodup hpresent
        (returnsTo_of_aligned t v _ _ ht (hwhole.1.resolve_left hthere) hv
          (ha.1.resolve_left hthere) (.self hparams hopen)) htail

theorem alternativeReturns_of_aligned : ∀ (alts : Fields) (v : alts.Val) (i : Nat), alts.Tagged →
    alts.numbers.Nodup → alts.WholeAt v i → alts.SupportedAt v i → alts.AlignedAt v i →
    AlternativeReturns alts v i
  | .nil, _, _, _, _, hwhole, _, _ => hwhole.elim
  | .cons tag t rest, (v, vs), 0, htagged, _, hwhole, hsup, ha => by
    obtain ⟨⟨hnum, hopen⟩, ht, _⟩ := htagged
    obtain ⟨hv, rfl⟩ := hwhole
    exact alternativeReturns_zero hnum
      (returnsTo_of_aligned t v _ _ ht hv hsup.2 ha (.self hsup.1 hopen))
  | .cons tag t rest, (v, vs), i + 1, htagged, hnodup, hwhole, hsup, ha => by
    obtain ⟨rfl, hvs⟩ := hwhole
    exact alternativeReturns_succ hnodup (alternativeReturns_of_aligned rest vs i htagged.2.2
      (List.nodup_cons.mp hnodup).2 hvs hsup ha)

end

/-- A schema with CHOICEs at any place, and a value of it. -/
structure InTagged (t : Ty) (v : t.Val) (params : FieldParameters) : Prop where
  tagged : t.Tagged
  openType : params.openType = false
  whole : t.Whole v

def bitsTag : List Char := "tagNum:1".toList

def choiceTag : List Char := "tagNum:1,choice".toList

/-- A CHOICE of a number and a bit string. -/
abbrev NumberOrBits : Ty :=
  .choice (.cons numberTag (.ptr .int) (.cons bitsTag (.ptr .bitString) .nil))

/-- A struct with a number and a CHOICE. -/
abbrev ChoiceInStruct : Ty :=
  .struct (.cons numberTag .int (.cons choiceTag NumberOrBits .nil))

def longTag : List Char := "tagNum:32".toList

/-- A struct whose one field is a CHOICE of a number, under a tag of two octets. -/
abbrev LongChoice : Ty :=
  .struct (.cons longTag (.choice (.cons numberTag (.ptr .int) .nil)) .nil)

/-- A struct whose one field is a SEQUENCE OF CHOICEs. -/
abbrev ChoiceSequence : Ty :=
  .struct (.cons numberTag (.slice (.choice (.cons numberTag (.ptr .int) .nil))) .nil)

theorem inTagged_singleField {tag : List Char} {v : t.Val}
    (htag : parseFieldParameters tag = { tagNumber := some n }) (ht : t.Tagged) (hv : t.Whole v) :
    InTagged (.struct (.cons tag t .nil)) (v, ()) (parseFieldParameters []) := by
  refine ⟨⟨⟨?_, ht, trivial⟩, ?_⟩, rfl, ⟨Or.inr hv, trivial⟩, Or.inl ?_⟩
  · rw [htag]
    exact ⟨rfl, rfl⟩
  · exact List.nodup_cons.mpr ⟨List.not_mem_nil, List.nodup_nil⟩
  · unfold Absent isAbsent
    rw [htag]
    intro h
    cases h

end Free5gc.Chf.Asn
