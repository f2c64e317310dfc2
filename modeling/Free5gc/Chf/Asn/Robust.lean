/-
  Which octets `UnmarshalWithParams` can be given (`cdr/asn`).

  The decoder checks that a value lies within its octets only after it has read the header. The
  header itself is taken on trust: its first octet, and the octets of length that the length octet
  announces. So is the first content octet of a BIT STRING and of a BOOLEAN.

  `Ty.decodeFaults` says what is wrong with octets: it splits contents into values and sets them
  against the fields. The decoder goes through the values one by one and fails by the first fault
  (`failsBy_parseField`); its loops end, since a header has an octet at least.
-/
import Free5gc.Chf.Asn.Ber

namespace Free5gc.Chf.Asn

open Free5gc.Lib

/-! ## What stands at the front -/

/-- The octets of a long tag number: up to the first whose top bit is clear. -/
def longNumber : List UInt8 → List UInt8
  | [] => []
  | b :: bs => if b &&& 0x80 = 0 then [b] else b :: longNumber bs

def identifierOctets : List UInt8 → List UInt8
  | [] => []
  | b :: bs => if b &&& 0x1f = 0x1f then b :: longNumber bs else [b]

/-- The tag number that identifier octets say, in 64 bits. -/
def identifierNumber : List UInt8 → Nat
  | [] => 0
  | b :: digits =>
    if b &&& 0x1f = 0x1f then digits.foldl (fun n d => (n * 128 + (d &&& 0x7f).toNat) % 2 ^ 64) 0
    else (b &&& 0x1f).toNat

/-- A tag number, the octets of the header and those it announces. -/
structure Front where
  number : Nat
  off : Nat
  len : Nat

/-- The length octets behind an identifier. Those that the first announces may be `beyond` the
    slice but not beyond the input. -/
def announced (number off : Nat) (bytes beyond : List UInt8) : Except BerError Front :=
  match bytes with
  | [] => .error .truncated
  | b :: rest =>
    if b ≤ 127 then .ok ⟨number, off + 1, b.toNat⟩
    else if 3 < (b &&& 0x7f).toNat then .error .lengthTooLarge
    else if (rest ++ beyond).length < (b &&& 0x7f).toNat then .error (.panic .lengthOctets)
    else .ok ⟨number, off + 1 + (b &&& 0x7f).toNat,
      beNat ((rest ++ beyond).take (b &&& 0x7f).toNat)⟩

/-- The header at the front, or what is wrong with it. -/
def front (bytes beyond : List UInt8) : Except BerError Front :=
  let id := identifierOctets bytes
  if bytes = [] then .error (.panic .noHeader)
  else if 10 < id.length then .error .tagNumberTooLarge
  else announced (identifierNumber id) id.length (bytes.drop id.length) beyond

/-- A header as the decoder has it. -/
def Front.header (cls : Nat) (constructed : Bool) (f : Front) : TagAndLen × Nat :=
  (⟨cls, constructed, f.number, f.len⟩, f.off)

theorem parseLength_announced (cls : Nat) (constructed : Bool) (number off : Nat)
    (bytes beyond : List UInt8) :
    (parseLength bytes beyond off >>= fun r => .ok (⟨cls, constructed, number, r.1⟩, r.2)) =
      (announced number off bytes beyond).map (Front.header cls constructed) := by
  unfold parseLength announced
  cases bytes with
  | nil => rfl
  | cons b rest =>
    dsimp only
    split_ifs with hshort hlong hin
    · rfl
    · rfl
    · rw [slice, if_neg (by omega)]
      rfl
    · rw [slice, if_pos (by omega)]
      rfl

theorem parseTagNumber_eq (bs : List UInt8) (acc off : Nat) :
    parseTagNumber bs acc off =
      ((longNumber bs).foldl (fun n d => (n * 128 + (d &&& 0x7f).toNat) % 2 ^ 64) acc,
        off + (longNumber bs).length, bs.drop (longNumber bs).length) := by
  induction bs generalizing acc off with
  | nil => rfl
  | cons b bs ih =>
    rw [parseTagNumber, longNumber]
    split_ifs
    · rfl
    · rw [ih, List.length_cons, List.foldl_cons, List.drop_succ_cons]
      congr 2
      omega

theorem parseTagAndLength_front (bytes beyond : List UInt8) :
    ∃ cls constructed, parseTagAndLength bytes beyond =
      (front bytes beyond).map (Front.header cls constructed) := by
  cases bytes with
  | nil => exact ⟨0, false, rfl⟩
  | cons b bs =>
    refine ⟨(b >>> 6).toNat, b &&& 0x20 != 0, ?_⟩
    unfold parseTagAndLength front identifierOctets
    dsimp only
    rw [if_neg (List.cons_ne_nil b bs)]
    by_cases hlong : b &&& 0x1f = 0x1f
    · rw [if_neg (not_not.mpr hlong), if_pos hlong, parseTagNumber_eq, identifierNumber,
        if_pos hlong, List.length_cons, List.drop_succ_cons, Nat.add_comm 1]
      dsimp only
      split_ifs
      · rfl
      · exact parseLength_announced ..
    · rw [if_pos hlong, if_neg hlong, identifierNumber, if_neg hlong]
      exact parseLength_announced ..

theorem lt_off_of_announced {number off : Nat} {bytes beyond : List UInt8} {f : Front}
    (h : announced number off bytes beyond = .ok f) : off < f.off := by
  unfold announced at h
  cases bytes with
  | nil => cases h
  | cons b rest =>
    dsimp only at h
    split_ifs at h
    · cases h
      exact Nat.lt_succ_self off
    · cases h
      exact Nat.lt_of_lt_of_le (Nat.lt_succ_self off) (Nat.le_add_right _ _)

theorem off_pos {bytes beyond : List UInt8} {f : Front} (h : front bytes beyond = .ok f) :
    0 < f.off := by
  unfold front at h
  dsimp only at h
  split_ifs at h
  exact Nat.zero_lt_of_lt (lt_off_of_announced h)

/-! ## Rows of values -/

/-- The header of a value that lies within its octets. -/
def within (bytes beyond : List UInt8) : Except BerError Front := do
  let f ← front bytes beyond
  if f.off + f.len > bytes.length then .error .valueOutOfRange else .ok f

structure Value where
  number : Nat
  octets : List UInt8
  beyond : List UInt8

/-- The values in a content one after the other, and what is wrong behind the last. -/
def values : (fuel : Nat) → (bytes beyond : List UInt8) → List Value × List BerError
  | _, [], _ => ([], [])
  | 0, _ :: _, _ => ([], [])
  | k + 1, b :: bs, beyond =>
    match within (b :: bs) beyond with
    | .error e => ([], [e])
    | .ok f =>
      let rest := (b :: bs).drop (f.off + f.len)
      let (xs, es) := values k rest beyond
      (⟨f.number, (b :: bs).take (f.off + f.len), rest ++ beyond⟩ :: xs, es)

theorem readHeader_within (bytes beyond : List UInt8) :
    ∃ cls constructed, readHeader bytes beyond =
      (within bytes beyond).map (Front.header cls constructed) := by
  obtain ⟨cls, constructed, h⟩ := parseTagAndLength_front bytes beyond
  refine ⟨cls, constructed, ?_⟩
  unfold readHeader within
  rw [h, map_then_bind, bind_then_map]
  congr 1
  funext f
  show (if f.off + f.len > bytes.length then _ else _) = _
  split_ifs <;> rfl

/-- How a loop over a row ends. -/
def ending {σ : Type} (es : List BerError) (s : σ) : Except BerError σ :=
  match es with
  | [] => .ok s
  | e :: _ => .error e

/-- The loop of the decoder is the loop over the values, and ends by what is wrong behind them. -/
theorem forValues_values {σ : Type}
    (body : σ → Nat → List UInt8 → List UInt8 → Except BerError σ) {fuel : Nat}
    {bytes beyond : List UInt8} (hfuel : bytes.length ≤ fuel) (s : σ) :
    forValues body fuel bytes beyond s =
      (values fuel bytes beyond).1.foldlM (fun s x => body s x.number x.octets x.beyond) s >>=
        ending (values fuel bytes beyond).2 := by
  induction fuel generalizing bytes s with
  | zero =>
    obtain rfl : bytes = [] := List.length_eq_zero_iff.mp (Nat.le_zero.mp hfuel)
    rfl
  | succ k ih =>
    cases bytes with
    | nil => rfl
    | cons b bs =>
      obtain ⟨cls, constructed, hread⟩ := readHeader_within (b :: bs) beyond
      rw [forValues, values, hread]
      cases hwithin : within (b :: bs) beyond with
      | error e => rfl
      | ok f =>
        obtain ⟨f', hfront, hif⟩ := bind_eq_ok.mp hwithin
        split_ifs at hif with hlen
        cases hif
        have hpos := off_pos hfront
        have hrest : ((b :: bs).drop (f.off + f.len)).length ≤ k := by
          rw [List.length_drop]
          omega
        dsimp only
        rw [List.foldlM_cons, bind_assoc]
        show (body s f.number _ _ >>= _) = _
        congr 1
        funext s'
        exact ih hrest s'

/-! ## What is wrong with octets -/

/-- The position of the first field from `current` on with this tag number. -/
def Fields.find : (fs : Fields) → (current number : Nat) → Option Nat
  | .nil, _, _ => none
  | .cons _ _ rest, current + 1, number => (rest.find current number).map (· + 1)
  | .cons tag _ rest, 0, number =>
    if (parseFieldParameters tag).tagNumber = some number then some 0
    else (rest.find 0 number).map (· + 1)

/-- The faults of a value in the field that was found for it. -/
def foundFaults (missing : BerError) (faultsAt : Nat → List BerError) : Option Nat → List BerError
  | none => [missing]
  | some i => faultsAt i

/-- In a SEQUENCE each value belongs to a field behind that of the value before. -/
def sequenceFaults (find : Nat → Nat → Option Nat) (faultsAt : Value → Nat → List BerError) :
    (current : Nat) → List Value → List BerError
  | _, [] => []
  | current, x :: xs =>
    match find current x.number with
    | none => [.correspondingTypeNotFound]
    | some i => faultsAt x i ++ sequenceFaults find faultsAt (i + 1) xs

/-- What is wrong with a header, or with what is behind it. -/
def headerFaults (header : Except BerError Front) (faults : Front → List BerError) :
    List BerError :=
  match header with
  | .error e => [e]
  | .ok f => faults f

mutual

def Ty.decodeFaults : (t : Ty) → (bytes beyond : List UInt8) → FieldParameters → List BerError
  | .ptr t, bytes, beyond, params => t.decodeFaults bytes beyond params
  | .octetString, bytes, beyond, _ | .string, bytes, beyond, _ =>
    headerFaults (within bytes beyond) fun _ => []
  | .enumerated, bytes, beyond, _ | .int, bytes, beyond, _ | .int32, bytes, beyond, _ =>
    headerFaults (within bytes beyond) fun f =>
      if (bytes.drop f.off).length > 8 then [.outOfRangeOfInt64] else []
  | .bitString, bytes, beyond, _ | .bool, bytes, beyond, _ =>
    headerFaults (within bytes beyond) fun f =>
      if bytes.drop f.off = [] then [.panic .noContent] else []
  | .objectIdentifier, bytes, beyond, _ =>
    headerFaults (within bytes beyond) fun _ => [.unsupportedObjectIdentifier]
  | .null, bytes, beyond, _ => headerFaults (within bytes beyond) fun _ => [.panic .nullField]
  | .value t, bytes, beyond, params | .list t, bytes, beyond, params =>
    headerFaults (within bytes beyond) fun _ => t.decodeFaults bytes beyond params
  | .choice alts, bytes, beyond, params =>
    headerFaults (within bytes beyond) fun f =>
      if params.openType then [.openTypeNotImplemented]
      else if params.tagNumber.isNone then
        foundFaults .presentIsZero (fun i => alts.decodeFaultsAt i bytes beyond)
          (findAlternative f.number alts)
      else
        headerFaults (front (bytes.drop f.off) beyond) fun g =>
          if g.off + g.len > bytes.length then [.valueOutOfRange]
          else
            foundFaults .presentIsZero (fun i => alts.decodeFaultsAt i (bytes.drop g.off) beyond)
              (findAlternative g.number alts)
  | .struct fs, bytes, beyond, params =>
    headerFaults (within bytes beyond) fun f =>
      let (xs, es) := values bytes.length (bytes.drop f.off) beyond
      if fs.length = 0 then [.panic .noFields]
      else if params.openType then xs.map (fun _ => .openTypeNotImplemented) ++ es
      else if params.set then
        xs.flatMap (fun x => foundFaults .correspondingTypeNotFound
          (fun i => fs.decodeFaultsAt i x.octets x.beyond) (fs.find 0 x.number)) ++ es
      else sequenceFaults fs.find (fun x i => fs.decodeFaultsAt i x.octets x.beyond) 0 xs ++ es
  | .slice t, bytes, beyond, params =>
    headerFaults (within bytes beyond) fun f =>
      let (xs, es) := values bytes.length (bytes.drop f.off) beyond
      es ++ xs.flatMap fun x => t.decodeFaults x.octets x.beyond params

def Fields.decodeFaultsAt : (fs : Fields) → (i : Nat) → (bytes beyond : List UInt8) →
    List BerError
  | .nil, _, _, _ => [.panic .outsideChoice]
  | .cons tag t _, 0, bytes, beyond => t.decodeFaults bytes beyond (parseFieldParameters tag)
  | .cons _ _ rest, i + 1, bytes, beyond => rest.decodeFaultsAt i bytes beyond

end

/-! ## The decoder -/

def Fields.Numbered : Fields → Prop
  | .nil => True
  | .cons tag _ rest => (parseFieldParameters tag).tagNumber.isSome ∧ rest.Numbered

mutual

/-- All fields of structs carry tag numbers. -/
def Ty.FieldsTagged : Ty → Prop
  | .ptr t | .value t | .list t | .slice t => t.FieldsTagged
  | .choice alts => alts.FieldsTagged
  | .struct fs => fs.Numbered ∧ fs.FieldsTagged
  | .bitString | .objectIdentifier | .octetString | .enumerated | .null | .bool | .int | .int32
  | .string => True

def Fields.FieldsTagged : Fields → Prop
  | .nil => True
  | .cons _ t rest => t.FieldsTagged ∧ rest.FieldsTagged

end

theorem failsBy_headerFaults {α : Type} {header : Except BerError Front}
    {x : Except BerError (TagAndLen × Nat)} {faults : Front → List BerError}
    {k : TagAndLen × Nat → Except BerError α}
    (hx : ∃ cls constructed, x = header.map (Front.header cls constructed))
    (h : ∀ f cls constructed, FailsBy (faults f) (k (f.header cls constructed))) :
    FailsBy (headerFaults header faults) (x >>= k) := by
  obtain ⟨cls, constructed, rfl⟩ := hx
  cases header with
  | error e => rfl
  | ok f => exact h f cls constructed

theorem failsBy_ending {σ : Type} (es : List BerError) (s : σ) : FailsBy es (ending es s) := by
  cases es with
  | nil => exact .ok s
  | cons e es => rfl

theorem ending_eq_ok {σ : Type} {es : List BerError} {s s' : σ} (h : ending es s = .ok s') :
    s = s' := by
  cases es with
  | nil => exact Except.ok.inj h
  | cons e es => cases h

theorem failsBy_parseInt64 (bytes : List UInt8) :
    FailsBy (if bytes.length > 8 then [.outOfRangeOfInt64] else []) (parseInt64 bytes) := by
  unfold parseInt64
  split_ifs
  · rfl
  · exact .ok _

theorem foundFaults_map_succ {missing : BerError} {faultsAt : Nat → List BerError} (i : Option Nat) :
    foundFaults missing faultsAt (i.map (· + 1)) =
      foundFaults missing (fun i => faultsAt (i + 1)) i := by
  cases i <;> rfl

section Loops

variable {fs : Fields}

/-- What is known of a field's search and decoding, for each value of the fields. -/
def SetsFields (fs : Fields) : Prop :=
  ∀ (v : fs.Val) (current number : Nat) (bytes beyond : List UInt8),
    FailsBy (foundFaults .correspondingTypeNotFound (fun i => fs.decodeFaultsAt i bytes beyond)
      (fs.find current number)) (setField fs v current number bytes beyond) ∧
    ∀ r, setField fs v current number bytes beyond = .ok r → fs.find current number = some r.1

/-- A value that is not for the first field goes to the others. -/
theorem setsFields_rest (tag : List Char) {t : Ty} (h : SetsFields fs) (v : t.Val) (vs : fs.Val)
    (current number : Nat) (bytes beyond : List UInt8) :
    FailsBy (foundFaults .correspondingTypeNotFound
        (fun i => (Fields.cons tag t fs).decodeFaultsAt i bytes beyond)
        ((fs.find current number).map (· + 1)))
      (setField fs vs current number bytes beyond >>= fun r => .ok (r.1 + 1, v, r.2)) ∧
    ∀ r : Nat × (Fields.cons tag t fs).Val,
      (setField fs vs current number bytes beyond >>= fun r => .ok (r.1 + 1, v, r.2)) = .ok r →
        (fs.find current number).map (· + 1) = some r.1 := by
  obtain ⟨hfails, hfind⟩ := h vs current number bytes beyond
  rw [foundFaults_map_succ]
  refine ⟨hfails.map _, fun r hr => ?_⟩
  obtain ⟨r', hr', hok⟩ := bind_eq_ok.mp hr
  cases hok
  rw [hfind r' hr']
  rfl

theorem failsBy_setLoop (h : SetsFields fs) (xs : List Value) (v : fs.Val) :
    FailsBy (xs.flatMap fun x => foundFaults .correspondingTypeNotFound
        (fun i => fs.decodeFaultsAt i x.octets x.beyond) (fs.find 0 x.number))
      (xs.foldlM (fun v x => (setField fs v 0 x.number x.octets x.beyond).map Prod.snd) v) := by
  refine FailsBy.foldlM (fun _ xs => xs.flatMap fun x => foundFaults
    .correspondingTypeNotFound (fun i => fs.decodeFaultsAt i x.octets x.beyond) (fs.find 0 x.number))
    (fun _ => rfl) (fun v x l v' hok => ?_) (fun v x l e herror => ?_) xs v
  · have hx := (h v 0 x.number x.octets x.beyond).1.map Prod.snd
    rw [hok] at hx
    rw [List.flatMap_cons, hx.eq_nil, List.nil_append]
  · have hx := (h v 0 x.number x.octets x.beyond).1.map Prod.snd
    rw [herror] at hx
    rw [List.flatMap_cons, List.head?_append, hx.head?]
    rfl

theorem failsBy_sequenceLoop (h : SetsFields fs) (xs : List Value) (s : Nat × fs.Val) :
    FailsBy (sequenceFaults fs.find (fun x i => fs.decodeFaultsAt i x.octets x.beyond) s.1 xs)
      (xs.foldlM (fun s x => (setField fs s.2 s.1 x.number x.octets x.beyond).map
        fun r => (r.1 + 1, r.2)) s) := by
  refine FailsBy.foldlM (fun s => sequenceFaults fs.find
    (fun x i => fs.decodeFaultsAt i x.octets x.beyond) s.1)
    (fun _ => rfl) (fun s x l s' hok => ?_) (fun s x l e herror => ?_) xs s
  · obtain ⟨hx, hfind⟩ := h s.2 s.1 x.number x.octets x.beyond
    obtain ⟨r, hr, rfl⟩ := map_eq_ok.mp hok
    rw [hr, hfind r hr] at hx
    rw [sequenceFaults, hfind r hr]
    dsimp only
    rw [show fs.decodeFaultsAt r.1 x.octets x.beyond = [] from hx.eq_nil, List.nil_append]
  · obtain ⟨hx, _⟩ := h s.2 s.1 x.number x.octets x.beyond
    have hx := hx.map fun r => (r.1 + 1, r.2)
    rw [herror] at hx
    rw [sequenceFaults]
    cases hfind : fs.find s.1 x.number with
    | none =>
      rw [hfind] at hx
      exact hx.head?
    | some i =>
      rw [hfind] at hx
      dsimp only
      rw [List.head?_append, show (fs.decodeFaultsAt i x.octets x.beyond).head? = some e from hx.head?]
      rfl

theorem failsBy_openTypeLoop {σ : Type} (xs : List Value) (s : σ) :
    FailsBy (xs.map fun _ => .openTypeNotImplemented)
      (xs.foldlM (fun _ _ => (.error .openTypeNotImplemented : Except BerError σ)) s) := by
  cases xs with
  | nil => exact .ok s
  | cons x xs => rfl

/-- The loop of a slice collects the values. -/
theorem collect_values (xs : List Value) (acc : List (List UInt8 × List UInt8)) :
    xs.foldlM (fun acc x => (.ok (acc ++ [(x.octets, x.beyond)]) : Except BerError _)) acc =
      .ok (acc ++ xs.map fun x => (x.octets, x.beyond)) := by
  induction xs generalizing acc with
  | nil => exact congrArg Except.ok (List.append_nil acc).symm
  | cons x xs ih =>
    rw [List.foldlM_cons, List.map_cons]
    refine (ih _).trans ?_
    rw [List.append_assoc, List.singleton_append]

end Loops

mutual

theorem failsBy_parseField : ∀ (t : Ty) (v : t.Val) (bytes beyond : List UInt8)
    (params : FieldParameters), t.FieldsTagged →
    FailsBy (t.decodeFaults bytes beyond params) (parseField t v bytes beyond params)
  | .ptr t, _, bytes, beyond, params, ht =>
    (failsBy_parseField t t.zero bytes beyond params ht).map some
  | .octetString, _, bytes, beyond, _, _ | .string, _, bytes, beyond, _, _ =>
    failsBy_headerFaults (readHeader_within bytes beyond) fun _ _ _ => .ok _
  | .enumerated, _, bytes, beyond, _, _ | .int, _, bytes, beyond, _, _ =>
    failsBy_headerFaults (readHeader_within bytes beyond) fun _ _ _ => failsBy_parseInt64 _
  | .int32, _, bytes, beyond, _, _ =>
    failsBy_headerFaults (readHeader_within bytes beyond) fun _ _ _ =>
      (failsBy_parseInt64 _).map Int64.toInt32
  | .bitString, _, bytes, beyond, _, _ => by
    refine failsBy_headerFaults (readHeader_within bytes beyond) fun f _ _ => ?_
    show FailsBy _ (parseBitString (bytes.drop f.off))
    cases bytes.drop f.off with
    | nil => rfl
    | cons b rest => exact .ok _
  | .bool, _, bytes, beyond, _, _ => by
    refine failsBy_headerFaults (readHeader_within bytes beyond) fun f _ _ => ?_
    show FailsBy _ (parseBool (bytes.drop f.off))
    cases bytes.drop f.off with
    | nil => rfl
    | cons b rest => exact .ok _
  | .objectIdentifier, _, bytes, beyond, _, _ | .null, _, bytes, beyond, _, _ =>
    failsBy_headerFaults (readHeader_within bytes beyond) fun _ _ _ => rfl
  | .value t, v, bytes, beyond, params, ht | .list t, v, bytes, beyond, params, ht =>
    failsBy_headerFaults (readHeader_within bytes beyond) fun _ _ _ =>
      failsBy_parseField t v bytes beyond params ht
  | .choice alts, (_, v), bytes, beyond, params, ht => by
    refine failsBy_headerFaults (readHeader_within bytes beyond) fun f _ _ => ?_
    dsimp only
    split_ifs with hopen hnone
    · rfl
    · rw [Option.isNone_iff_eq_none.mp hnone]
      dsimp only [Front.header]
      cases findAlternative f.number alts with
      | none => rfl
      | some i => exact (failsBy_parseAlternative alts v i bytes beyond ht).map _
    · obtain ⟨n, hn⟩ := Option.ne_none_iff_exists'.mp (mt Option.isNone_iff_eq_none.mpr hnone)
      rw [hn]
      refine failsBy_headerFaults (parseTagAndLength_front (bytes.drop f.off) beyond)
        fun g _ _ => ?_
      dsimp only [Front.header]
      split_ifs
      · rfl
      cases findAlternative g.number alts with
      | none => rfl
      | some i => exact (failsBy_parseAlternative alts v i (bytes.drop g.off) beyond ht).map _
  | .struct fs, v, bytes, beyond, params, ht => by
    have hsets := setsFields fs ht.1 ht.2
    refine failsBy_headerFaults (readHeader_within bytes beyond) fun f _ _ => ?_
    have hfuel := (List.drop_sublist f.off bytes).length_le
    dsimp only [Front.header]
    rw [forValues_values _ hfuel, forValues_values _ hfuel]
    split_ifs with hempty hopen hset
    · rfl
    · exact (failsBy_openTypeLoop _ _).bind fun _ _ => failsBy_ending _ _
    · exact ((failsBy_openTypeLoop _ _).bind fun _ _ => failsBy_ending _ _).map Prod.snd
    · exact (failsBy_setLoop hsets _ _).bind fun _ _ => failsBy_ending _ _
    · exact ((failsBy_sequenceLoop hsets _ (0, v)).bind fun _ _ => failsBy_ending _ _).map Prod.snd
  | .slice t, _, bytes, beyond, params, ht => by
    refine failsBy_headerFaults (readHeader_within bytes beyond) fun f _ _ => ?_
    have hfuel := (List.drop_sublist f.off bytes).length_le
    dsimp only [Front.header]
    rw [forValues_values _ hfuel, collect_values, List.nil_append]
    refine (failsBy_ending _ _).bind fun ps hps => ?_
    rw [← ending_eq_ok hps]
    refine FailsBy.map ?_ some
    rw [List.mapM_map]
    exact .mapM fun x _ => failsBy_parseField t t.zero x.octets x.beyond params ht

theorem setsFields : ∀ fs : Fields, fs.Numbered → fs.FieldsTagged → SetsFields fs
  | .nil, _, _ => fun _ _ _ _ _ => by
    rw [setField]
    exact ⟨rfl, fun r hr => by cases hr⟩
  | .cons tag t rest, hnum, ht => by
    have hrest := setsFields rest hnum.2 ht.2
    intro v current number bytes beyond
    obtain ⟨v, vs⟩ := v
    cases current with
    | succ current =>
      rw [setField, Fields.find]
      exact setsFields_rest tag hrest v vs current number bytes beyond
    | zero =>
      obtain ⟨n, hn⟩ := Option.isSome_iff_exists.mp hnum.1
      rw [setField, Fields.find, hn]
      dsimp only
      by_cases heq : n = number
      · rw [if_pos heq, if_pos (congrArg some heq)]
        refine ⟨(failsBy_parseField t v bytes beyond _ ht.1).map _, fun r hr => ?_⟩
        obtain ⟨v', _, hok⟩ := bind_eq_ok.mp hr
        cases hok
        rfl
      · rw [if_neg heq, if_neg (mt Option.some.inj heq)]
        exact setsFields_rest tag hrest v vs 0 number bytes beyond

theorem failsBy_parseAlternative : ∀ (alts : Fields) (v : alts.Val) (i : Nat)
    (bytes beyond : List UInt8), alts.FieldsTagged →
    FailsBy (alts.decodeFaultsAt i bytes beyond) (parseAlternative alts v i bytes beyond)
  | .nil, _, _, _, _, _ => rfl
  | .cons tag t _, (v, vs), 0, bytes, beyond, ht =>
    (failsBy_parseField t v bytes beyond (parseFieldParameters tag) ht.1).map fun v => (v, vs)
  | .cons _ _ rest, (v, vs), i + 1, bytes, beyond, ht =>
    (failsBy_parseAlternative rest vs i bytes beyond ht.2).map fun vs => (v, vs)

end

/-- Decoding ends with a value or an error exactly when the first fault of the octets is not one of
    those the decoder does not check for: no octet where a header is due, a length whose octets
    are not in the input, a BIT STRING or BOOLEAN without content, a NULL, a struct without
    fields. -/
theorem unmarshal_answers_iff {t : Ty} (ht : t.FieldsTagged) (bytes : List UInt8)
    (params : List Char) :
    (∀ p, unmarshalWithParams t bytes params ≠ .error (.panic p)) ↔
      ∀ p, (t.decodeFaults bytes [] (parseFieldParameters params)).head? ≠ some (.panic p) :=
  forall_congr' fun p => (failsBy_parseField t t.zero bytes [] _ ht).ne_error_iff (.panic p)

def firstTag : List Char := "tagNum:0".toList

/-- A struct of one Boolean. -/
abbrev Flag : Ty := .struct (.cons firstTag .bool .nil)

theorem flag_fieldsTagged : Flag.FieldsTagged := by
  have hfirst : (parseFieldParameters firstTag).tagNumber.isSome = true := by decide +kernel
  exact ⟨⟨hfirst, trivial⟩, trivial, trivial⟩

theorem unmarshal_flag_answers :
    Flag.FieldsTagged ∧
      ∀ p, unmarshalWithParams Flag [0x30, 3, 0x80, 1, 0xff] [] ≠ .error (.panic p) := by
  refine ⟨flag_fieldsTagged, (unmarshal_answers_iff flag_fieldsTagged _ _).mpr fun p => ?_⟩
  have hnone : (Flag.decodeFaults [0x30, 3, 0x80, 1, 0xff] [] (parseFieldParameters [])).head? =
      none := by decide +kernel
  rw [hnone]
  exact Option.some_ne_none _ ∘ Eq.symm

/-- No octets, a length with its octets cut off, and a BOOLEAN without content. -/
theorem cut_off_input_panics :
    Flag.FieldsTagged ∧ unmarshalWithParams Flag [] [] = .error (.panic .noHeader) ∧
      unmarshalWithParams Flag [0x30, 0x82, 0] [] = .error (.panic .lengthOctets) ∧
      unmarshalWithParams Flag [0x30, 2, 0x80, 0] [] = .error (.panic .noContent) :=
  ⟨flag_fieldsTagged, rfl, rfl, rfl⟩

end Free5gc.Chf.Asn
