/-
  The octets beyond a slice. The decoder cuts its input into slices, and a slice expression that
  leaves its slice is still good as long as it stays within the input. More octets beyond a slice
  therefore change nothing but panics (`extends_parseField`).
-/
import Free5gc.Chf.Asn.Ber

namespace Free5gc.Chf.Asn

open Free5gc.Lib

variable (more : List UInt8)

theorem slice_append_right {b d : List UInt8} {lo hi : Nat} (h : slice b lo hi = some d) :
    slice (b ++ more) lo hi = some d := by
  unfold slice at h ⊢
  split_ifs at h with hin
  cases h
  rw [if_pos ⟨hin.1, by rw [List.length_append]; omega⟩, List.drop_append_of_le_length (by omega),
    List.take_append_of_le_length (by rw [List.length_drop]; omega)]

theorem extends_parseLength (bytes beyond : List UInt8) (off : Nat) :
    Extends (.panic .lengthOctets) (parseLength bytes beyond off) (parseLength bytes (beyond ++ more) off) := by
  unfold parseLength
  cases bytes with
  | nil => exact .refl _ _
  | cons b rest =>
    dsimp only
    split_ifs
    · exact .refl _ _
    · exact .refl _ _
    · cases hslice : slice (rest ++ beyond) 0 (b &&& 0x7f).toNat with
      | none => exact Or.inl rfl
      | some digits =>
        rw [← List.append_assoc, slice_append_right more hslice]
        exact .refl _ _

theorem extends_parseTagAndLength (bytes beyond : List UInt8) :
    Extends (.panic .lengthOctets) (parseTagAndLength bytes beyond) (parseTagAndLength bytes (beyond ++ more)) := by
  unfold parseTagAndLength
  cases bytes with
  | nil => exact .refl _ _
  | cons b rest =>
    dsimp only
    split_ifs
    · exact (extends_parseLength more rest beyond 1).bind fun _ => .refl _ _
    · exact .refl _ _
    · exact (extends_parseLength more _ beyond _).bind fun _ => .refl _ _

theorem extends_readHeader (bytes beyond : List UInt8) :
    Extends (.panic .lengthOctets) (readHeader bytes beyond) (readHeader bytes (beyond ++ more)) :=
  (extends_parseTagAndLength more bytes beyond).bind fun _ => .refl _ _

/-- The two loops may keep different states, as long as those of the second are given by the
    first's. -/
theorem extends_forValues_map {σ τ : Type} (f : σ → τ)
    {body : σ → Nat → List UInt8 → List UInt8 → Except BerError σ}
    {body' : τ → Nat → List UInt8 → List UInt8 → Except BerError τ}
    (hbody : ∀ s number value beyond, Extends (.panic .lengthOctets) ((body s number value beyond).map f)
      (body' (f s) number value (beyond ++ more)))
    (fuel : Nat) (bytes beyond : List UInt8) (s : σ) :
    Extends (.panic .lengthOctets) ((forValues body fuel bytes beyond s).map f)
      (forValues body' fuel bytes (beyond ++ more) (f s)) := by
  induction fuel generalizing bytes s with
  | zero => cases bytes <;> exact .refl _ _
  | succ k ih =>
    cases bytes with
    | nil => exact .refl _ _
    | cons b bs =>
      rw [forValues, forValues, bind_then_map]
      refine (extends_readHeader more (b :: bs) beyond).bind fun r => ?_
      dsimp only
      rw [bind_then_map, ← List.append_assoc]
      exact (hbody _ _ _ _).map_bind fun s' => ih _ s'

theorem extends_forValues {σ : Type}
    {body : σ → Nat → List UInt8 → List UInt8 → Except BerError σ}
    (hbody : ∀ s number value beyond,
      Extends (.panic .lengthOctets) (body s number value beyond) (body s number value (beyond ++ more)))
    (fuel : Nat) (bytes beyond : List UInt8) (s : σ) :
    Extends (.panic .lengthOctets) (forValues body fuel bytes beyond s)
      (forValues body fuel bytes (beyond ++ more) s) := by
  have h : Extends (.panic .lengthOctets) ((forValues body fuel bytes beyond s).map id)
      (forValues body fuel bytes (beyond ++ more) (id s)) := by
    refine extends_forValues_map more id (fun s number value beyond => ?_) fuel bytes beyond s
    rw [Except.map_id]
    exact hbody s number value beyond
  rwa [Except.map_id] at h

/-- The loop of a slice collects its values with what is beyond them. -/
theorem extends_collect (fuel : Nat) (bytes beyond : List UInt8)
    (values : List (List UInt8 × List UInt8)) :
    Extends (.panic .lengthOctets)
      ((forValues (fun values _ value beyond => .ok (values ++ [(value, beyond)]))
        fuel bytes beyond values).map (List.map fun x => (x.1, x.2 ++ more)))
      (forValues (fun values _ value beyond => .ok (values ++ [(value, beyond)]))
        fuel bytes (beyond ++ more) (values.map fun x => (x.1, x.2 ++ more))) := by
  refine extends_forValues_map more _ (fun values _ value beyond => Or.inr ?_) _ _ _ _
  rw [Except.map, List.map_append]
  rfl

mutual

theorem extends_parseField : ∀ (t : Ty) (v : t.Val) (bytes beyond : List UInt8)
    (params : FieldParameters), Extends (.panic .lengthOctets) (parseField t v bytes beyond params)
      (parseField t v bytes (beyond ++ more) params)
  | .ptr t, _, bytes, beyond, params =>
    (extends_parseField t t.zero bytes beyond params).bind fun _ => .refl _ _
  | .bitString, _, bytes, beyond, _ | .objectIdentifier, _, bytes, beyond, _
  | .octetString, _, bytes, beyond, _ | .enumerated, _, bytes, beyond, _
  | .null, _, bytes, beyond, _ | .bool, _, bytes, beyond, _ | .int, _, bytes, beyond, _
  | .int32, _, bytes, beyond, _ | .string, _, bytes, beyond, _ =>
    (extends_readHeader more bytes beyond).bind fun _ => .refl _ _
  | .value t, v, bytes, beyond, params | .list t, v, bytes, beyond, params =>
    (extends_readHeader more bytes beyond).bind fun _ =>
      extends_parseField t v bytes beyond params
  | .choice alts, (_, v), bytes, beyond, params => by
    rw [parseField, parseField]
    refine (extends_readHeader more bytes beyond).bind fun r => ?_
    dsimp only
    split_ifs
    · exact .refl _ _
    cases params.tagNumber with
    | none =>
      dsimp only
      cases findAlternative r.1.tagNumber alts with
      | none => exact .refl _ _
      | some i => exact (extends_parseAlternative alts v i bytes beyond).bind fun _ => .refl _ _
    | some _ =>
      refine (extends_parseTagAndLength more _ beyond).bind fun r' => ?_
      split_ifs
      · exact .refl _ _
      cases findAlternative r'.1.tagNumber alts with
      | none => exact .refl _ _
      | some i => exact (extends_parseAlternative alts v i _ beyond).bind fun _ => .refl _ _
  | .struct fs, v, bytes, beyond, params => by
    rw [parseField, parseField]
    refine (extends_readHeader more bytes beyond).bind fun r => ?_
    dsimp only
    split_ifs
    · exact .refl _ _
    · exact extends_forValues more (fun _ _ _ _ => .refl _ _) _ _ _ _
    · refine extends_forValues more (fun s number value beyond => ?_) _ _ _ _
      exact (extends_setField fs s 0 number value beyond).map Prod.snd
    · exact (extends_forValues more (fun _ _ _ _ => .refl _ _) _ _ _ _).bind fun _ => .refl _ _
    · refine (extends_forValues more (fun s number value beyond => ?_) _ _ _ _).bind
        fun _ => .refl _ _
      exact (extends_setField fs s.2 s.1 number value beyond).map _
  | .slice t, _, bytes, beyond, params => by
    rw [parseField, parseField]
    refine (extends_readHeader more bytes beyond).bind fun r => ?_
    refine (extends_collect more _ _ beyond []).map_bind fun values => ?_
    refine Extends.bind ?_ fun _ => .refl _ _
    rw [List.mapM_map]
    exact .mapM (fun x => extends_parseField t t.zero x.1 x.2 params) values

theorem extends_setField : ∀ (fs : Fields) (v : fs.Val) (current number : Nat)
    (bytes beyond : List UInt8), Extends (.panic .lengthOctets) (setField fs v current number bytes beyond)
      (setField fs v current number bytes (beyond ++ more))
  | .nil, _, _, _, _, _ => by
    rw [setField, setField]
    exact .refl _ _
  | .cons _ _ rest, (v, vs), current + 1, number, bytes, beyond =>
    (extends_setField rest vs current number bytes beyond).bind fun _ => .refl _ _
  | .cons tag t rest, (v, vs), 0, number, bytes, beyond => by
    rw [setField, setField]
    cases (parseFieldParameters tag).tagNumber with
    | none => exact .refl _ _
    | some n =>
      dsimp only
      split_ifs
      · exact (extends_parseField t v bytes beyond _).bind fun _ => .refl _ _
      · exact (extends_setField rest vs 0 number bytes beyond).bind fun _ => .refl _ _

theorem extends_parseAlternative : ∀ (alts : Fields) (v : alts.Val) (i : Nat)
    (bytes beyond : List UInt8), Extends (.panic .lengthOctets) (parseAlternative alts v i bytes beyond)
      (parseAlternative alts v i bytes (beyond ++ more))
  | .nil, _, _, _, _ => .refl _ _
  | .cons _ t _, (v, _), 0, bytes, beyond =>
    (extends_parseField t v bytes beyond _).bind fun _ => .refl _ _
  | .cons _ _ rest, (_, vs), i + 1, bytes, beyond =>
    (extends_parseAlternative rest vs i bytes beyond).bind fun _ => .refl _ _

end

end Free5gc.Chf.Asn
