/-
  Which values `BerMarshalWithParams` can write, and how long what it writes becomes.

  `Ty.Encodable` is all the encoder asks of a value: unlike a value that is to be read back it
  may hold negative numbers and a CHOICE at any depth. `Grows` compares two values of the same
  fields by the octets they take; it is closed under unchanged fields before and behind.
-/
import Free5gc.Chf.Asn.RoundTrip

namespace Free5gc.Chf.Asn

open Free5gc.Lib

/-! ## Values that can be written -/

mutual

def Ty.Encodable : (t : Ty) → t.Val → Prop
  | .objectIdentifier, _ => False
  | .ptr _, none => False
  | .ptr t, some v => t.Encodable v
  | .value t, v => t.Encodable v
  | .list t, v => t.Encodable v
  | .choice alts, (present, v) => 1 ≤ present ∧ alts.EncodableAt v (present.toNat - 1)
  | .struct fs, v => fs.Encodable v ∧ fs.SomePresent v
  | .slice t, v => ∀ x ∈ v.getD [], t.Encodable x
  | _, _ => True

def Fields.Encodable : (fs : Fields) → fs.Val → Prop
  | .nil, _ => True
  | .cons tag t rest, (v, vs) =>
    (Absent tag t v ∨ isAbsent (parseFieldParameters tag) t v = .ok false ∧
      (parseFieldParameters tag).openType = false ∧ t.Encodable v) ∧ rest.Encodable vs

def Fields.EncodableAt : (fs : Fields) → fs.Val → (i : Nat) → Prop
  | .nil, _, _ => False
  | .cons tag t _, (v, _), 0 => (parseFieldParameters tag).openType = false ∧ t.Encodable v
  | .cons _ _ rest, (_, vs), i + 1 => rest.EncodableAt vs i

end

variable {params : FieldParameters}

theorem mapM_iterate_ok {t : Ty} {vs : List t.Val}
    (h : ∀ v ∈ vs, ∃ bs, makeField t v params = .ok bs) :
    ∃ s, vs.mapM (fun v => iterate (makeField t v params)) = .ok s := by
  induction vs with
  | nil => exact ⟨[], rfl⟩
  | cons v vs ih =>
    obtain ⟨bs, hbs⟩ := h v (by simp)
    obtain ⟨s, hs⟩ := ih fun w hw => h w (by simp [hw])
    refine ⟨bs :: s, ?_⟩
    rw [List.mapM_cons, hbs, hs]
    rfl

mutual

theorem makeField_ok : ∀ (t : Ty) (v : t.Val) (params : FieldParameters), t.Encodable v →
    params.openType = false → ∃ bs, makeField t v params = .ok bs
  | .bitString, (_, _), _, _, _ => ⟨_, rfl⟩
  | .octetString, _, _, _, _ => ⟨_, rfl⟩
  | .enumerated, _, _, _, _ => ⟨_, rfl⟩
  | .null, _, _, _, _ => ⟨_, rfl⟩
  | .bool, _, _, _, _ => ⟨_, rfl⟩
  | .int, _, _, _, _ => ⟨_, rfl⟩
  | .int32, _, _, _, _ => ⟨_, rfl⟩
  | .string, _, _, _, _ => ⟨_, rfl⟩
  | .ptr t, some v, params, h, hopen => makeField_ok t v params h hopen
  | .value t, v, params, h, hopen => makeField_ok t v params h hopen
  | .list t, v, params, h, hopen => makeField_ok t v params h hopen
  | .choice alts, (present, v), params, h, hopen => by
    obtain ⟨hpos, halt⟩ := h
    obtain ⟨hlt, bs, hbs⟩ := makeAlternative_ok alts v _ halt
    rw [makeField, if_neg (by omega), if_neg (by omega), hopen, if_neg Bool.false_ne_true]
    cases params.tagNumber with
    | none => exact ⟨bs, hbs⟩
    | some n =>
      dsimp only
      rw [hbs]
      exact ⟨_, rfl⟩
  | .struct fs, v, params, h, _ => by
    obtain ⟨s, hs, hne⟩ := makeFields_ok fs v h.1
    rw [makeField, hs]
    show ∃ bs, (if s.isEmpty then _ else _) = _
    rw [if_neg (by simpa using hne h.2)]
    exact ⟨_, rfl⟩
  | .slice t, v, params, h, hopen => by
    obtain ⟨s, hs⟩ := mapM_iterate_ok fun x hx =>
      makeField_ok t x { params with tagNumber := none } (h x hx) hopen
    rw [makeField, hs]
    exact ⟨_, rfl⟩

theorem makeFields_ok : ∀ (fs : Fields) (v : fs.Val), fs.Encodable v →
    ∃ s, makeFields fs v = .ok s ∧ (fs.SomePresent v → s ≠ [])
  | .nil, _, _ => ⟨[], rfl, fun h => h.elim⟩
  | .cons tag t rest, (v, vs), h => by
    obtain ⟨s, hs, hne⟩ := makeFields_ok rest vs h.2
    rcases h.1 with habsent | ⟨hpresent, hopen, hv⟩
    · refine ⟨s, ?_, ?_⟩
      · rw [makeFields, show isAbsent (parseFieldParameters tag) t v = .ok true from habsent]
        exact hs
      · rintro (hthere | hthere)
        · exact absurd habsent hthere
        · exact hne hthere
    · obtain ⟨bs, hbs⟩ := makeField_ok t v _ hv hopen
      refine ⟨bs :: s, ?_, fun _ => List.cons_ne_nil bs s⟩
      rw [makeFields, hpresent, hopen, hbs, hs]
      rfl

theorem makeAlternative_ok : ∀ (alts : Fields) (v : alts.Val) (i : Nat), alts.EncodableAt v i →
    i < alts.length ∧ ∃ bs, makeAlternative alts v i = .ok bs
  | .nil, _, _, h => h.elim
  | .cons _ t _, (v, _), 0, h => ⟨Nat.succ_pos _, makeField_ok t v _ h.2 h.1⟩
  | .cons _ _ rest, (_, vs), i + 1, h => by
    obtain ⟨hlt, hbs⟩ := makeAlternative_ok rest vs i h
    exact ⟨Nat.succ_lt_succ hlt, hbs⟩

end

/-! ## Growth -/

section Growth

variable {tag : List Char} {t : Ty} {rest : Fields}

/-- What the first field adds to the octets of the others. -/
def HeadWrites (tag : List Char) (t : Ty) (v : t.Val) (bs : List UInt8) : Prop :=
  isAbsent (parseFieldParameters tag) t v = .ok true ∧ bs = [] ∨
    isAbsent (parseFieldParameters tag) t v = .ok false ∧
      (parseFieldParameters tag).openType = false ∧
      makeField t v (parseFieldParameters tag) = .ok bs

theorem iterate_eq_ok {α : Type} {x : Except BerError α} {a : α} :
    iterate x = .ok a ↔ x = .ok a := by
  cases x with
  | ok b => exact Iff.rfl
  | error e => cases e <;> exact iff_of_false (by rintro ⟨⟩) (by rintro ⟨⟩)

theorem flatten_makeFields_cons {v : t.Val} {vs : rest.Val} {bs : List UInt8}
    {s : List (List UInt8)} (hhead : HeadWrites tag t v bs) (hs : makeFields rest vs = .ok s) :
    ∃ s', makeFields (.cons tag t rest) (v, vs) = .ok s' ∧ s'.flatten = bs ++ s.flatten := by
  rcases hhead with ⟨habsent, rfl⟩ | ⟨hpresent, hopen, hbs⟩
  · refine ⟨s, ?_, rfl⟩
    rw [makeFields, habsent]
    exact hs
  · refine ⟨bs :: s, ?_, rfl⟩
    rw [makeFields, hpresent, hopen, hbs, hs]
    rfl

theorem makeFields_cons_inv {v : t.Val} {vs : rest.Val} {s' : List (List UInt8)}
    (h : makeFields (.cons tag t rest) (v, vs) = .ok s') :
    ∃ bs s, HeadWrites tag t v bs ∧ makeFields rest vs = .ok s ∧
      s'.flatten = bs ++ s.flatten := by
  rw [makeFields] at h
  obtain ⟨absent, habsent, h⟩ := bind_eq_ok.mp h
  cases absent with
  | true => exact ⟨[], s', Or.inl ⟨habsent, rfl⟩, h, rfl⟩
  | false =>
    rw [if_neg Bool.false_ne_true] at h
    split_ifs at h with hopen
    obtain ⟨bs, hbs, h⟩ := bind_eq_ok.mp h
    obtain ⟨s, hs, h⟩ := bind_eq_ok.mp h
    cases h
    exact ⟨bs, s, Or.inr ⟨habsent, Bool.not_eq_true _ ▸ hopen, iterate_eq_ok.mp hbs⟩, hs, rfl⟩

end Growth

/-- The fields take at most `d` octets more, as long as they take fewer than `2 ^ 16`. -/
def Grows (fs : Fields) (v v' : fs.Val) (d : Nat) : Prop :=
  ∀ s, makeFields fs v = .ok s → s.flatten.length + d < 2 ^ 16 →
    ∃ s', makeFields fs v' = .ok s' ∧ s'.flatten.length ≤ s.flatten.length + d

namespace Grows

variable {tag : List Char} {t : Ty} {rest : Fields}

variable {d : Nat}

theorem refl (fs : Fields) (v : fs.Val) : Grows fs v v 0 :=
  fun s hs _ => ⟨s, hs, Nat.le_refl _⟩

theorem trans {fs : Fields} {v v' v'' : fs.Val} {e : Nat} (h : Grows fs v v' d)
    (h' : Grows fs v' v'' e) : Grows fs v v'' (d + e) := by
  intro s hs hlt
  obtain ⟨s', hs', hle⟩ := h s hs (by omega)
  obtain ⟨s'', hs'', hle'⟩ := h' s' hs' (by omega)
  exact ⟨s'', hs'', by omega⟩

/-- The first field and those behind it each by its own. -/
theorem cons {v v' : t.Val} {vs vs' : rest.Val} {e : Nat}
    (hhead : ∀ bs, HeadWrites tag t v bs → bs.length + d < 2 ^ 16 →
      ∃ bs', HeadWrites tag t v' bs' ∧ bs'.length ≤ bs.length + d)
    (hrest : Grows rest vs vs' e) : Grows (.cons tag t rest) (v, vs) (v', vs') (d + e) := by
  intro s hs hlt
  obtain ⟨bs, r, hbs, hr, hflat⟩ := makeFields_cons_inv hs
  rw [hflat, List.length_append] at hlt
  obtain ⟨bs', hbs', hle⟩ := hhead bs hbs (by omega)
  obtain ⟨r', hr', hle'⟩ := hrest r hr (by omega)
  obtain ⟨s', hs', hflat'⟩ := flatten_makeFields_cons hbs' hr'
  refine ⟨s', hs', ?_⟩
  rw [hflat, hflat', List.length_append, List.length_append]
  omega

/-- A field in front that does not change. -/
theorem behind (v : t.Val) {vs vs' : rest.Val} (h : Grows rest vs vs' d) :
    Grows (.cons tag t rest) (v, vs) (v, vs') d := by
  rw [← Nat.zero_add d]
  exact cons (fun bs hbs _ => ⟨bs, hbs, Nat.le_refl _⟩) h

/-- The first field changes alone. -/
theorem head {v v' : t.Val} (vs : rest.Val)
    (h : ∀ bs, HeadWrites tag t v bs → bs.length + d < 2 ^ 16 →
      ∃ bs', HeadWrites tag t v' bs' ∧ bs'.length ≤ bs.length + d) :
    Grows (.cons tag t rest) (v, vs) (v', vs) d :=
  cons h (refl rest vs)

end Grows

/-! ## Lengths of headers -/

theorem one_le_lengthOctets (n : Nat) : 1 ≤ (lengthOctets n).length := by
  unfold lengthOctets
  split_ifs <;> simp

theorem lengthOctets_le {n : Nat} (h : n < 2 ^ 16) : (lengthOctets n).length ≤ 3 := by
  have hcount : loopCount 256 7 n < 2 := loopCount_lt_of_lt_pow 7 n (by omega) (by omega)
  unfold lengthOctets
  split_ifs
  · simp
  · rw [List.length_cons, length_beBytes]
    omega

theorem length_appendTagAndLen {t : TagAndLen} (h : t.tagNumber ≤ 30) :
    (appendTagAndLen t).length = 1 + (lengthOctets t.len).length := by
  rw [appendTagAndLen, identifier, if_pos h, List.length_append, List.length_singleton]

/-- A value under an implicit tag with a short number. -/
theorem length_berType_tagged {n : Nat} (hn : params.tagNumber = some n)
    (hexplicit : params.explicitTag = false) (hle : n ≤ 30) (constructed : Bool) (number : Nat)
    (value : List UInt8) :
    (berType 0 constructed number value params).length =
      1 + (lengthOctets value.length).length + value.length := by
  unfold berType
  rw [hn]
  dsimp only
  rw [hexplicit, if_neg Bool.false_ne_true, List.length_append, length_appendTagAndLen hle]

/-- A value without a tag. -/
theorem length_berType_untagged (hn : params.tagNumber = none) (constructed : Bool) {number : Nat}
    (hle : number ≤ 30) (value : List UInt8) :
    (berType 0 constructed number value params).length =
      1 + (lengthOctets value.length).length + value.length := by
  unfold berType
  rw [hn]
  dsimp only
  rw [List.length_append, length_appendTagAndLen hle]

/-- Without a tag number a struct is written alike whatever the other parameters. -/
theorem makeField_struct_untagged {fs : Fields} (v : fs.Val) (hn : params.tagNumber = none)
    (hset : params.set = false) :
    makeField (.struct fs) v params = makeField (.struct fs) v {} := by
  rw [makeField, makeField]
  congr 1
  funext s
  unfold berType setOrSequence
  rw [hn, hset]

theorem one_le_int64Bytes (i : Int64) : 1 ≤ (int64Bytes i).length := by
  unfold int64Bytes int64Len
  rw [length_beBytes]
  omega

end Free5gc.Chf.Asn
