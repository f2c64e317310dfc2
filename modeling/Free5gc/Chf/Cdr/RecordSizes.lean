/-
  How long the records of a subscriber become, and when every record that is dumped fits the
  16-bit length of its CDR.

  A request adds the octets of its unit usages to a record. The lengths of the record and of the
  unit usages bound the length of the result up to five octets: two by which the header of the
  record can grow, and three for the sequence number of a partial record. The split of an update
  compares the bare sum, is not made again for the copy, and is not made at all by the other two
  requests; `Room` says when this does no harm.
-/
import Free5gc.Lib.Run
import Free5gc.Chf.Asn.Sizes
import Free5gc.Chf.Cdr.Records

namespace Free5gc.Chf.Cdr

open Free5gc.Lib Free5gc.Chf.Asn

/-! ## Tags -/

variable {n : Nat} {req : ChargingDataRequest} {r : ChargingRecord} {chf : CHFContext} {ue : ChfUe}

theorem parse_required (h : n ≤ 200) :
    parseFieldParameters (required n) = { tagNumber := some n } := by
  have hall : ∀ i : Fin 201, parseFieldParameters (required i) = { tagNumber := some i.val } := by
    decide +kernel
  exact hall ⟨n, by omega⟩

theorem parse_optional (h : n ≤ 200) :
    parseFieldParameters (optional n) = { tagNumber := some n, optional := true } := by
  have hall : ∀ i : Fin 201,
      parseFieldParameters (optional i) = { tagNumber := some i.val, optional := true } := by
    decide +kernel
  exact hall ⟨n, by omega⟩

theorem parse_berParams : parseFieldParameters berParams = { explicitTag := true } := by
  decide +kernel

/-! ## Every record can be written -/

section Encodable

variable {n : Nat} {t : Ty} {rest : Fields} {vs : rest.Val} (h : n ≤ 200)

include h

theorem isAbsent_required (v : t.Val) :
    isAbsent (parseFieldParameters (required n)) t v = .ok false := by
  rw [parse_required h]
  rfl

theorem encodable_required {v : t.Val} (hv : t.Encodable v) (hvs : rest.Encodable vs) :
    (Fields.cons (required n) t rest).Encodable (v, vs) :=
  ⟨Or.inr ⟨isAbsent_required h v, by rw [parse_required h], hv⟩, hvs⟩

theorem encodable_optional {v : Option t.Val} (hv : ∀ x ∈ v, t.Encodable x)
    (hvs : rest.Encodable vs) : (Fields.cons (optional n) (.ptr t) rest).Encodable (v, vs) := by
  refine ⟨?_, hvs⟩
  unfold Absent isAbsent
  rw [parse_optional h]
  cases v with
  | none => exact Or.inl rfl
  | some x => exact Or.inr ⟨rfl, rfl, hv x rfl⟩

theorem encodable_optional_slice {v : Option (List t.Val)} (hv : ∀ x ∈ v.getD [], t.Encodable x)
    (hvs : rest.Encodable vs) :
    (Fields.cons (optional n) (.slice t) rest).Encodable (v, vs) := by
  refine ⟨?_, hvs⟩
  unfold Absent isAbsent
  rw [parse_optional h]
  cases v with
  | none => exact Or.inl rfl
  | some x => exact Or.inr ⟨rfl, rfl, hv⟩

theorem somePresent_required (v : t.Val) :
    (Fields.cons (required n) t rest).SomePresent (v, vs) := by
  refine Or.inl fun habsent => ?_
  cases habsent.symm.trans (isAbsent_required h v)

theorem somePresent_optional (v : t.Val) :
    (Fields.cons (optional n) (.ptr t) rest).SomePresent (some v, vs) := by
  refine Or.inl fun habsent => ?_
  unfold Absent isAbsent at habsent
  rw [parse_optional h] at habsent
  cases habsent

end Encodable

theorem CdrUsedUnitContainer.encodable (c : CdrUsedUnitContainer) :
    (Ty.struct usedUnitContainerFields).Encodable c.val :=
  ⟨encodable_optional (by decide) (fun _ _ => trivial) <|
    encodable_optional (by decide) (fun _ _ => trivial) <|
    encodable_optional (by decide) (fun _ _ => trivial) <|
    encodable_optional (by decide) (fun _ _ => trivial) <|
    encodable_optional (by decide) (fun _ _ => trivial) trivial,
    somePresent_optional (by decide) _⟩

theorem CdrMultipleUnitUsage.encodable (u : CdrMultipleUnitUsage) :
    (Ty.struct multipleUnitUsageFields).Encodable u.val := by
  refine ⟨encodable_required (by decide) trivial <| encodable_optional_slice (by decide) ?_ <|
    encodable_optional (by decide) (fun _ _ => trivial) trivial,
    somePresent_required (by decide) _⟩
  intro x hx
  obtain ⟨c, _, rfl⟩ := List.mem_map.mp hx
  exact c.encodable

/-- An alternative of an address. -/
theorem openType_required (h : n ≤ 200) : (parseFieldParameters (required n)).openType = false := by
  rw [parse_required h]

theorem NetworkFunctionInformation.encodable (i : NetworkFunctionInformation) :
    (Ty.struct networkFunctionInformationFields).Encodable i.val := by
  refine ⟨encodable_required (by decide) trivial <|
    encodable_optional (by decide) (fun _ _ => trivial) <|
    encodable_optional (by decide) ?_ <| encodable_optional (by decide) (fun _ _ => trivial) <|
    encodable_optional (by decide) ?_ <| encodable_optional (by decide) ?_ trivial,
    somePresent_required (by decide) _⟩
  all_goals
    intro x hx
    obtain ⟨a, _, rfl⟩ := Option.map_eq_some_iff.mp hx
    exact ⟨by decide, openType_required (by decide), trivial⟩

theorem PDUSessionChargingInformation.encodable (i : PDUSessionChargingInformation) :
    (Ty.struct pduSessionChargingInformationFields).Encodable i.val := by
  refine ⟨encodable_required (by decide) trivial <| encodable_required (by decide) trivial <|
    encodable_optional (by decide) ?_ <|
    encodable_optional (by decide) (fun _ _ => trivial) trivial,
    somePresent_required (by decide) _⟩
  rintro x ⟨⟩
  exact ⟨encodable_required (by decide) trivial <|
    encodable_optional (by decide) (fun _ _ => trivial) trivial,
    somePresent_required (by decide) _⟩

theorem ChargingRecord.encodable_later (r : ChargingRecord) : laterFields.Encodable r.later := by
  refine encodable_optional (by decide) (fun _ _ => trivial) <|
    encodable_optional (by decide) ?_ <| encodable_optional (by decide) (fun _ _ => trivial) <|
    encodable_optional (by decide) (fun _ _ => trivial) <| encodable_optional (by decide) ?_ <|
    encodable_optional (by decide) (fun _ _ => trivial) trivial
  · intro x hx
    obtain ⟨i, _, rfl⟩ := Option.map_eq_some_iff.mp hx
    exact i.encodable
  · intro x hx
    obtain ⟨m, _, rfl⟩ := Option.map_eq_some_iff.mp hx
    exact ⟨encodable_required (by decide) trivial trivial, somePresent_required (by decide) _⟩

theorem ChargingRecord.encodable (r : ChargingRecord) :
    chargingRecordFields.Encodable r.val := by
  refine encodable_required (by decide) trivial <| encodable_required (by decide) trivial <|
    encodable_optional (by decide) ?_ <|
    encodable_required (by decide) r.nFunctionConsumerInformation.encodable <|
    encodable_optional_slice (by decide) ?_ <| encodable_required (by decide) trivial <|
    encodable_required (by decide) trivial <|
    encodable_optional (by decide) (fun _ _ => trivial) <|
    encodable_required (by decide) trivial r.encodable_later
  · intro x hx
    obtain ⟨i, _, rfl⟩ := Option.map_eq_some_iff.mp hx
    exact ⟨encodable_required (by decide) trivial <| encodable_required (by decide) trivial trivial,
      somePresent_required (by decide) _⟩
  · intro x hx
    cases hlist : r.listOfMultipleUnitUsage with
    | none =>
      rw [hlist] at hx
      cases hx
    | some us =>
      rw [hlist] at hx
      obtain ⟨u, _, rfl⟩ := List.mem_map.mp hx
      exact u.encodable

/-! ## Unit usages -/

/-- The octets of a unit usage as the element of a list. -/
def CdrMultipleUnitUsage.bytes (u : CdrMultipleUnitUsage) : List UInt8 :=
  match makeField (.struct multipleUnitUsageFields) u.val {} with
  | .ok bs => bs
  | .error _ => []

theorem CdrMultipleUnitUsage.makeField_eq (u : CdrMultipleUnitUsage) {params : FieldParameters}
    (hn : params.tagNumber = none) (hset : params.set = false) :
    makeField (.struct multipleUnitUsageFields) u.val params = .ok u.bytes := by
  obtain ⟨bs, hbs⟩ := makeField_ok (.struct multipleUnitUsageFields) u.val {} u.encodable rfl
  rw [makeField_struct_untagged u.val hn hset]
  unfold bytes
  rw [hbs]

/-- The octets of a list of unit usages. -/
def usageBytes (us : List CdrMultipleUnitUsage) : List UInt8 := (us.map (·.bytes)).flatten

theorem length_usageBytes_append (us vs : List CdrMultipleUnitUsage) :
    (usageBytes (us ++ vs)).length = (usageBytes us).length + (usageBytes vs).length := by
  unfold usageBytes
  rw [List.map_append, List.flatten_append, List.length_append]

theorem mapM_usages (us : List CdrMultipleUnitUsage) {params : FieldParameters}
    (hn : params.tagNumber = none) (hset : params.set = false) :
    (us.map (·.val)).mapM (fun v => iterate (makeField (.struct multipleUnitUsageFields) v params)) =
      .ok (us.map (·.bytes)) := by
  induction us with
  | nil => rfl
  | cons u us ih =>
    rw [List.map_cons, List.mapM_cons, u.makeField_eq hn hset, ih]
    rfl

theorem makeField_usages (us : List CdrMultipleUnitUsage) {params : FieldParameters}
    (hset : params.set = false) :
    makeField (.slice (.struct multipleUnitUsageFields)) (some (us.map (·.val))) params =
      .ok (berType 0 true 16 (usageBytes us) params) := by
  rw [makeField, Option.getD_some]
  rw [@mapM_usages us { params with tagNumber := none } rfl hset]
  unfold setOrSequence
  rw [hset]
  rfl

/-- What the unit usages of a request add to the test of an update. -/
def unitsLength (req : ChargingDataRequest) : Nat :=
  match unitsBer req with
  | .ok bs => bs.length
  | .error _ => 0

theorem unitsBer_eq (h : req.multipleUnitUsage.isEmpty = false) :
    unitsBer req = .ok (berType 0 true 16
      (usageBytes (multiUnitUsageToCdr req.multipleUnitUsage)) { explicitTag := true }) := by
  unfold unitsBer berMarshalWithParams
  rw [h, if_neg Bool.false_ne_true, parse_berParams]
  exact makeField_usages _ rfl

theorem unitsBer_ok (req : ChargingDataRequest) :
    ∃ bs, unitsBer req = .ok bs ∧ unitsLength req = bs.length := by
  unfold unitsLength
  cases h : req.multipleUnitUsage.isEmpty with
  | true =>
    refine ⟨[], ?_, ?_⟩ <;> unfold unitsBer <;> rw [if_pos h]
  | false => exact ⟨_, unitsBer_eq h, by rw [unitsBer_eq h]⟩

theorem unitsLength_eq (h : req.multipleUnitUsage.isEmpty = false) :
    unitsLength req =
      1 + (lengthOctets (usageBytes (multiUnitUsageToCdr req.multipleUnitUsage)).length).length +
        (usageBytes (multiUnitUsageToCdr req.multipleUnitUsage)).length := by
  unfold unitsLength
  rw [unitsBer_eq h]
  exact length_berType_untagged rfl true (by decide) _

/-! ## Growth of a record -/

/-- The list of unit usages grows by no more than the usages take on their own: the header they
    lose is as long as the one the list gains. -/
theorem headWrites_list_append {us : Option (List CdrMultipleUnitUsage)}
    {vs : List CdrMultipleUnitUsage} {d : Nat}
    (hd : d = 1 + (lengthOctets (usageBytes vs).length).length + (usageBytes vs).length)
    {bs : List UInt8}
    (h : HeadWrites (optional 5) (.slice (.struct multipleUnitUsageFields))
      (us.map (·.map (·.val))) bs) (hlt : bs.length + d < 2 ^ 16) :
    ∃ bs', HeadWrites (optional 5) (.slice (.struct multipleUnitUsageFields))
      (some ((us.getD [] ++ vs).map (·.val))) bs' ∧ bs'.length ≤ bs.length + d := by
  have hparse : parseFieldParameters (optional 5) = { tagNumber := some 5, optional := true } :=
    parse_optional (by decide)
  have hlen : ∀ value : List UInt8,
      (berType 0 true 16 value { tagNumber := some 5, optional := true }).length =
        1 + (lengthOctets value.length).length + value.length := fun value =>
    length_berType_tagged rfl rfl (by decide) true 16 value
  refine ⟨berType 0 true 16 (usageBytes (us.getD [] ++ vs))
    { tagNumber := some 5, optional := true }, Or.inr ⟨?_, ?_, ?_⟩, ?_⟩
  · rw [hparse]
    rfl
  · rw [hparse]
  · rw [hparse]
    exact makeField_usages _ rfl
  · rw [hlen, length_usageBytes_append]
    have hmore := one_le_lengthOctets (usageBytes vs).length
    cases us with
    | none =>
      have hnil : (usageBytes (Option.getD none [])).length = 0 := rfl
      rw [hnil, Nat.zero_add, hd]
      omega
    | some us =>
      rcases h with ⟨habsent, _⟩ | ⟨_, _, hmake⟩
      · rw [hparse] at habsent
        cases habsent
      · rw [hparse] at hmake
        have hbs := Except.ok.inj (hmake.symm.trans (makeField_usages us rfl))
        rw [hbs, hlen] at hlt ⊢
        have hone := one_le_lengthOctets (usageBytes us).length
        show 1 + (lengthOctets ((usageBytes us).length + _)).length + ((usageBytes us).length + _) ≤ _
        have hle : (lengthOctets ((usageBytes us).length + (usageBytes vs).length)).length ≤ 3 :=
          lengthOctets_le (by omega)
        omega

theorem grows_updateCDR (r : ChargingRecord) (req : ChargingDataRequest) :
    Grows chargingRecordFields r.val (updateCDR r req).val (unitsLength req) := by
  unfold updateCDR
  cases h : req.multipleUnitUsage.isEmpty with
  | true =>
    intro s hs _
    exact ⟨s, hs, by omega⟩
  | false =>
    rw [if_neg Bool.false_ne_true]
    refine .behind _ (.behind _ (.behind _ (.behind _ (.head _ fun bs hbs hlt => ?_))))
    exact headWrites_list_append (unitsLength_eq h) hbs hlt

/-- A number of one octet takes no more than any number. -/
theorem headWrites_cause {i j : Int64} (hj : (int64Bytes j).length = 1) {bs : List UInt8}
    (h : HeadWrites (required 9) (.value .int) i bs) :
    ∃ bs', HeadWrites (required 9) (.value .int) j bs' ∧ bs'.length ≤ bs.length := by
  have hparse : parseFieldParameters (required 9) = { tagNumber := some 9 } :=
    parse_required (by decide)
  have hlen : ∀ value : List UInt8, (berType 0 false 2 value { tagNumber := some 9 }).length =
      1 + (lengthOctets value.length).length + value.length := fun value =>
    length_berType_tagged rfl rfl (by decide) false 2 value
  have hone : (lengthOctets 1).length = 1 := rfl
  refine ⟨berType 0 false 2 (int64Bytes j) { tagNumber := some 9 }, Or.inr ⟨?_, ?_, ?_⟩, ?_⟩
  · exact isAbsent_required (by decide) _
  · rw [hparse]
  · rw [hparse]
    rfl
  · rcases h with ⟨habsent, _⟩ | ⟨_, _, hmake⟩
    · cases habsent.symm.trans (isAbsent_required (by decide) _)
    · rw [hparse] at hmake
      have hbs : bs = berType 0 false 2 (int64Bytes i) { tagNumber := some 9 } :=
        (Except.ok.inj hmake).symm
      rw [hbs, hlen, hlen, hj, hone]
      have := one_le_lengthOctets (int64Bytes i).length
      have := one_le_int64Bytes i
      omega

theorem grows_closeCDR (r : ChargingRecord) (isPartial : Bool) :
    Grows chargingRecordFields r.val (closeCDR r isPartial).val 0 := by
  refine .behind _ (.behind _ (.behind _ (.behind _ (.behind _ (.behind _ (.behind _
    (.behind _ (.head _ fun bs hbs _ => ?_))))))))
  refine headWrites_cause ?_ hbs
  cases isPartial <;> rfl

theorem grows_reopenCDR (r : ChargingRecord) (sessionId : String) :
    Grows chargingRecordFields r.val (reopenCDR ∅ sessionId r).val 3 := by
  refine .behind _ (.behind _ (.behind _ (.behind _ (.behind _ (.behind _ (.behind _
    (.head _ fun bs _ _ => ?_)))))))
  have hparse : parseFieldParameters (optional 8) = { tagNumber := some 8, optional := true } :=
    parse_optional (by decide)
  have hnumber : (reopenCDR ∅ sessionId r).recordSequenceNumber = some 1 :=
    congrArg some (partialRecordSeqNum_empty sessionId)
  refine ⟨[0x88, 1, 1], Or.inr ⟨?_, ?_, ?_⟩, ?_⟩
  · rw [hparse]
    rfl
  · rw [hparse]
  · rw [hparse, hnumber]
    rfl
  · show 3 ≤ _
    omega

/-! ## The length of a record -/

/-- A record is its fields behind a header with the tag 200. -/
theorem ChargingRecord.ber_eq (r : ChargingRecord) :
    ∃ s, makeFields chargingRecordFields r.val = .ok s ∧ r.ber = .ok r.bytes ∧
      r.bytes.length = 3 + (lengthOctets s.flatten.length).length + s.flatten.length := by
  obtain ⟨s, hs, hne⟩ := makeFields_ok _ r.val r.encodable
  have hpresent : s ≠ [] := hne (somePresent_required (by decide) _)
  have hber : r.ber = .ok (appendTagAndLen ⟨2, true, 200, s.flatten.length⟩ ++ s.flatten) := by
    unfold ber berMarshalWithParams
    rw [parse_berParams]
    show makeField (.struct chargingRecordFields) r.val (parseFieldParameters (required 200)) = _
    rw [parse_required (by decide), makeField, hs]
    show (if s.isEmpty then _ else _) = _
    rw [if_neg (by simpa using hpresent)]
    rfl
  have hbytes : r.bytes = appendTagAndLen ⟨2, true, 200, s.flatten.length⟩ ++ s.flatten := by
    unfold bytes
    rw [hber]
  refine ⟨s, hs, by rw [hber, hbytes], ?_⟩
  have hidentifier : (identifier ⟨2, true, 200, s.flatten.length⟩).length = 3 := by
    unfold identifier
    dsimp only
    rw [if_neg (by decide), List.length_cons, length_tagDigits]
    decide
  rw [hbytes, List.length_append, appendTagAndLen, List.length_append, hidentifier]

/-- A record fits the length field of its CDR. -/
def ChargingRecord.Fits (r : ChargingRecord) : Prop :=
  ∃ bs, r.ber = .ok bs ∧ bs.length ≤ 65535 ∧ (cdrOf r).hdr.cdrLength.toNat = bs.length

theorem fits_of_length (h : r.bytes.length ≤ 65535) : r.Fits := by
  obtain ⟨_, _, hber, _⟩ := r.ber_eq
  refine ⟨r.bytes, hber, h, ?_⟩
  show (UInt16.ofNat r.bytes.length).toNat = _
  rw [UInt16.toNat_ofNat']
  exact Nat.mod_eq_of_lt (by omega)

/-- The header of a record grows by two octets at most. -/
theorem fits_of_grows {r' : ChargingRecord} {d : Nat}
    (h : Grows chargingRecordFields r.val r'.val d) (hroom : r.bytes.length + d + 2 ≤ 65535) :
    r'.Fits := by
  obtain ⟨s, hs, _, hlen⟩ := r.ber_eq
  have hone := one_le_lengthOctets s.flatten.length
  obtain ⟨s', hs', hle⟩ := h s hs (by omega)
  obtain ⟨s'', hs'', _, hlen'⟩ := r'.ber_eq
  have heq := Except.ok.inj (hs''.symm.trans hs')
  subst heq
  have hthree : (lengthOctets s''.flatten.length).length ≤ 3 := lengthOctets_le (by omega)
  exact fits_of_length (by omega)

/-! ## Room for a request -/

/-- The record that takes the unit usages of an update. -/
def target (cdr : ChargingRecord) (req : ChargingDataRequest) : ChargingRecord :=
  if cdr.bytes.length + unitsLength req > 65535 then emptied cdr else cdr

/-- The octets of the sequence number that a partial record gets. -/
def reopening (req : ChargingDataRequest) : Nat :=
  if Charging.partialRecord req.charging then 3 else 0

/-- The record that takes the unit usages of a request has room for them, with two octets to
    spare for its header and three for the sequence number of a partial record. -/
def Room (chf : CHFContext) (ue : ChfUe) : Event → Prop
  | .create req now n =>
    ∀ cdr, openCDR chf ue.supi req (newSessionId ue.supi req n) now (n + 1) = some cdr →
      cdr.bytes.length + unitsLength req + 2 ≤ 65535
  | .update req sessionId _ =>
    ∀ i cdr, ue.find sessionId = some (i, cdr) →
      (target cdr req).bytes.length + (unitsLength req + reopening req) + 2 ≤ 65535
  | .release req sessionId =>
    ∀ i cdr, ue.find sessionId = some (i, cdr) →
      cdr.bytes.length + unitsLength req + 2 ≤ 65535

/-- Every record fits, those that are kept and those that were dumped; the next partial record gets
    the number 1. -/
structure AllFit (ue : ChfUe) : Prop where
  numbers : ue.recordSequenceNumber = ∅
  records : ∀ r ∈ ue.records, r.Fits
  dumps : ∀ rs ∈ ue.dumps, ∀ r ∈ rs, r.Fits

namespace AllFit

variable {ue : ChfUe}

theorem dump (h : AllFit ue) {rs : List ChargingRecord} (hrs : ∀ r ∈ rs, r.Fits) :
    AllFit (ue.dump rs) := by
  refine ⟨h.numbers, h.records, ?_⟩
  intro rs' hrs'
  rcases List.mem_append.mp hrs' with hold | hnew
  · exact h.dumps rs' hold
  · rw [List.mem_singleton.mp hnew]
    exact hrs

theorem addRecord (h : AllFit ue) (sessionId : String) {r : ChargingRecord} (hr : r.Fits) :
    AllFit (ue.addRecord sessionId r) := by
  refine ⟨h.numbers, ?_, h.dumps⟩
  intro r' hr'
  rcases List.mem_append.mp hr' with hold | hnew
  · exact h.records r' hold
  · rw [List.mem_singleton.mp hnew]
    exact hr

theorem write (h : AllFit ue) (i : Nat) {r : ChargingRecord} (hr : r.Fits) :
    AllFit (ue.write i r) := by
  refine ⟨h.numbers, ?_, h.dumps⟩
  intro r' hr'
  rcases List.mem_or_eq_of_mem_set hr' with hold | rfl
  · exact h.records r' hold
  · exact hr

end AllFit

theorem fits_singleton (h : r.Fits) : ∀ r' ∈ [r], r'.Fits := by
  intro r' hr'
  rw [List.mem_singleton.mp hr']
  exact h

theorem allFit_create (h : AllFit ue) {now : Time} {n : UInt64}
    (hroom : Room chf ue (.create req now n)) : AllFit (chargingDataCreate chf ue req now n) := by
  unfold chargingDataCreate
  dsimp only
  by_cases himsi : "imsi-".toList.isPrefixOf ue.supi.toList = true
  · rw [if_pos himsi]
    cases hopen : openCDR chf ue.supi req (newSessionId ue.supi req n) now (n + 1) with
    | none => exact h
    | some cdr =>
      have hgrows := grows_updateCDR cdr req
      refine h.addRecord _ ?_
      split_ifs
      · exact fits_of_grows (hgrows.trans (grows_closeCDR _ false)) (hroom cdr hopen)
      · exact fits_of_grows hgrows (hroom cdr hopen)
  · rw [if_neg himsi]
    exact h

theorem allFit_finishUpdate (h : AllFit ue) {cdr : ChargingRecord}
    (hroom : cdr.bytes.length + (unitsLength req + reopening req) + 2 ≤ 65535)
    (sessionId : String) (i : Nat) (written : Bool) :
    AllFit (finishUpdate ue req sessionId i cdr written) := by
  have hupdate := grows_updateCDR cdr req
  unfold finishUpdate
  unfold reopening at hroom
  dsimp only
  by_cases hpartial : Charging.partialRecord req.charging = true
  · rw [if_pos hpartial] at hroom ⊢
    have hclose := hupdate.trans (grows_closeCDR _ true)
    have hclosed : (closeCDR (updateCDR cdr req) true).Fits :=
      fits_of_grows hclose (by omega)
    have hreopened : (reopenCDR ∅ sessionId (closeCDR (updateCDR cdr req) true)).Fits :=
      fits_of_grows (hclose.trans (grows_reopenCDR _ sessionId)) (by omega)
    have hdumped := (h.write i hclosed).dump (fits_singleton hclosed)
    rw [hdumped.numbers]
    split_ifs
    · exact (hdumped.write i hreopened).dump (hdumped.write i hreopened).records
    · exact hdumped
  · rw [if_neg hpartial] at hroom ⊢
    have hwritten := h.write i (fits_of_grows hupdate (by omega))
    exact hwritten.dump hwritten.records

theorem allFit_update (h : AllFit ue) {sessionId : String} {written : Bool}
    (hroom : Room chf ue (.update req sessionId written)) :
    AllFit (chargingDataUpdate ue req sessionId written) := by
  unfold chargingDataUpdate
  cases hfind : ue.find sessionId with
  | none => exact h
  | some found =>
    obtain ⟨i, cdr⟩ := found
    obtain ⟨_, _, hber, _⟩ := cdr.ber_eq
    obtain ⟨bs, hbs, hlen⟩ := unitsBer_ok req
    have hspare := hroom i cdr hfind
    unfold target at hspare
    dsimp only
    rw [hber, hbs]
    unfold splitRecord
    dsimp only
    rw [← hlen]
    split_ifs at hspare ⊢
    · have hcopy : (emptied cdr).Fits := fits_of_length (by omega)
      exact allFit_finishUpdate (h.addRecord sessionId hcopy) hspare sessionId _ written
    · exact allFit_finishUpdate h hspare sessionId i written

theorem allFit_release (h : AllFit ue) {sessionId : String}
    (hroom : Room chf ue (.release req sessionId)) :
    AllFit (chargingDataRelease ue req sessionId) := by
  unfold chargingDataRelease
  cases hfind : ue.find sessionId with
  | none => exact h
  | some found =>
    obtain ⟨i, cdr⟩ := found
    have hclosed : (closeCDR (updateCDR cdr req) false).Fits :=
      fits_of_grows ((grows_updateCDR cdr req).trans (grows_closeCDR _ false))
        (hroom i cdr hfind)
    exact (h.write i hclosed).dump (fits_singleton hclosed)

theorem allFit_step (chf : CHFContext) (ue : ChfUe) (e : Event) (h : AllFit ue)
    (hroom : Room chf ue e) : AllFit (step chf ue e) := by
  cases e with
  | create req now n => exact allFit_create h hroom
  | update req sessionId written => exact allFit_update h hroom
  | release req sessionId => exact allFit_release h hroom

/-! ## Dumped files -/

theorem zero_lt_eight : (0 : UInt8).toNat < 8 := by decide

theorem zero_lt_thirtyTwo : (0 : UInt8).toNat < 32 := by decide

theorem wellFormed_cdrOf (h : r.Fits) : (cdrOf r).WellFormed := by
  obtain ⟨bs, hber, _, hlength⟩ := h
  have hbytes : r.bytes = bs := by
    unfold ChargingRecord.bytes
    rw [hber]
  have hformat : (1 : UInt8).toNat < 8 := by decide
  exact ⟨zero_lt_eight, zero_lt_thirtyTwo, hformat, zero_lt_thirtyTwo,
    by rw [hlength, ← hbytes]; rfl, fun _ => rfl⟩

theorem length_le_encoding (cs : List CDR) : cs.length ≤ (cs.map CDR.encoding).flatten.length := by
  induction cs with
  | nil => exact Nat.le_refl 0
  | cons c cs ih =>
    have hpos : 1 ≤ c.encoding.length := by
      simp [CDR.encoding, CdrHeader.encoding, CdrHeader.parts]
      omega
    rw [List.map_cons, List.flatten_cons, List.length_append, List.length_cons]
    omega

/-- A file of records that fit is read back, if it is shorter than 4 GiB. -/
theorem decoding_dumpCdrFile {rs : List ChargingRecord} (h : ∀ r ∈ rs, r.Fits)
    (hsize : (dumpCdrFile rs).encoding.length < 2 ^ 32) :
    decoding (dumpCdrFile rs).encoding = some (dumpCdrFile rs) := by
  have hcount : rs.length < 2 ^ 32 := by
    have hle := length_le_encoding (dumpCdrFile rs).cdrList
    have hlist : (dumpCdrFile rs).cdrList.length = rs.length := List.length_map _
    rw [CDRFile.encoding, List.length_append] at hsize
    omega
  have hzero : zeroTimeStamp.Fits := by
    constructor <;> decide
  have hw : (dumpCdrFile rs).WellFormed := by
    refine ⟨⟨zero_lt_eight, zero_lt_thirtyTwo, zero_lt_eight, zero_lt_thirtyTwo, hzero, hzero,
      rfl, rfl, fun _ => rfl, fun _ => rfl⟩, ?_, ?_, hsize⟩
    · intro c hc
      obtain ⟨r, hr, rfl⟩ := List.mem_map.mp hc
      exact wellFormed_cdrOf (h r hr)
    · show (UInt32.ofNat rs.length).toNat = (rs.map cdrOf).length
      rw [UInt32.toNat_ofNat', List.length_map]
      exact Nat.mod_eq_of_lt hcount
  have hend : (dumpCdrFile rs).hdr.variableEnd ≤ 65535 := by
    show 52 ≤ 65535
    decide
  exact (decoding_iff_readExtension hw hend).mpr rfl

theorem allFit_init (supi : String) : AllFit (ChfUe.init supi) :=
  ⟨rfl, fun _ hr => (nomatch hr), fun _ hrs => (nomatch hrs)⟩

/-- In a run whose requests all find room, every dumped record fits the length of its CDR, and
    every file is read back. -/
theorem dumped_records_fit {chf : CHFContext} {supi : String} {es : List Event}
    (h : StepsMeet (step chf) (Room chf) (ChfUe.init supi) es) :
    ∀ rs ∈ (es.foldl (step chf) (ChfUe.init supi)).dumps,
      (∀ r ∈ rs, ∃ bs, r.ber = .ok bs ∧ bs.length ≤ 65535 ∧
        (cdrOf r).hdr.cdrLength.toNat = bs.length) ∧
      ((dumpCdrFile rs).encoding.length < 2 ^ 32 →
        decoding (dumpCdrFile rs).encoding = some (dumpCdrFile rs)) := by
  have hall : AllFit (es.foldl (step chf) (ChfUe.init supi)) :=
    h.inv AllFit (fun ue e hroom hfit => allFit_step chf ue e hfit hroom) (allFit_init supi)
  intro rs hrs
  exact ⟨hall.dumps rs hrs, decoding_dumpCdrFile (hall.dumps rs hrs)⟩

/-- A CHF, a request that opens a session, and one that reports a usage. -/
def sampleChf : CHFContext := ⟨"chf", fun _ _ => true⟩

def openingRequest : ChargingDataRequest :=
  { nfConsumerIdentification := some { nFName := "smf", nodeFunctionality := .smf } }

def sampleTime : Time := ⟨2024, 1, 2, 3, 4, 5, 0⟩

def usageRequest : ChargingDataRequest :=
  { triggers := [⟨.validityTime, .immediateReport, 0⟩]
    multipleUnitUsage := [{ ratingGroup := 1, usedUnitContainer :=
      [{ quotaManagementIndicator := .onlineCharging, totalVolume := 500 }] }] }

/-- The subscriber with the session open. -/
def opened : ChfUe := step sampleChf (ChfUe.init "imsi-208") (.create openingRequest sampleTime 0)

/-- A session that is opened and writes a partial record: there are dumps, and they fit. -/
theorem dumped_records_fit_partial :
    ∃ rs ∈ ([Event.create openingRequest sampleTime 0,
        .update usageRequest "imsi-208smf0" true].foldl (step sampleChf)
          (ChfUe.init "imsi-208")).dumps,
      (∀ r ∈ rs, ∃ bs, r.ber = .ok bs ∧ bs.length ≤ 65535 ∧
        (cdrOf r).hdr.cdrLength.toNat = bs.length) ∧
      ((dumpCdrFile rs).encoding.length < 2 ^ 32 →
        decoding (dumpCdrFile rs).encoding = some (dumpCdrFile rs)) := by
  have hopen : ∀ cdr ∈ openCDR sampleChf "imsi-208" openingRequest "imsi-208smf0" sampleTime 1,
      cdr.bytes.length + unitsLength openingRequest + 2 ≤ 65535 := by decide +kernel
  have hupdate : ∀ found ∈ opened.find "imsi-208smf0",
      (target found.2 usageRequest).bytes.length +
        (unitsLength usageRequest + reopening usageRequest) + 2 ≤ 65535 := by decide +kernel
  have hid : newSessionId "imsi-208" openingRequest 0 = "imsi-208smf0" := by decide +kernel
  have hdumped : ([Event.create openingRequest sampleTime 0,
      .update usageRequest "imsi-208smf0" true].foldl (step sampleChf)
        (ChfUe.init "imsi-208")).dumps.isEmpty = false := by decide +kernel
  have hroom : StepsMeet (step sampleChf) (Room sampleChf) (ChfUe.init "imsi-208")
      [.create openingRequest sampleTime 0, .update usageRequest "imsi-208smf0" true] := by
    refine ⟨?_, ?_, trivial⟩
    · intro cdr hcdr
      refine hopen cdr ?_
      rw [← hid]
      exact hcdr
    · intro i cdr hfind
      exact hupdate (i, cdr) hfind
  obtain ⟨rs, hrs⟩ := List.exists_mem_of_ne_nil _ (List.isEmpty_eq_false_iff.mp hdumped)
  exact ⟨rs, hrs, dumped_records_fit hroom rs hrs⟩

/-! ## A record that does not fit -/

/-- A record is at least as long as its unit usages. -/
theorem length_usageBytes_le {us : List CdrMultipleUnitUsage}
    (h : r.listOfMultipleUnitUsage = some us) : (usageBytes us).length ≤ r.bytes.length := by
  obtain ⟨s, hs, _, hlen⟩ := r.ber_eq
  unfold ChargingRecord.val at hs
  obtain ⟨_, s₁, _, hs₁, hflat₁⟩ := makeFields_cons_inv hs
  obtain ⟨_, s₂, _, hs₂, hflat₂⟩ := makeFields_cons_inv hs₁
  obtain ⟨_, s₃, _, hs₃, hflat₃⟩ := makeFields_cons_inv hs₂
  obtain ⟨_, s₄, _, hs₄, hflat₄⟩ := makeFields_cons_inv hs₃
  obtain ⟨bs, s₅, hhead, _, hflat₅⟩ := makeFields_cons_inv hs₄
  have hparse : parseFieldParameters (optional 5) = { tagNumber := some 5, optional := true } :=
    parse_optional (by decide)
  have hbs : (usageBytes us).length ≤ bs.length := by
    rw [h] at hhead
    rcases hhead with ⟨habsent, _⟩ | ⟨_, _, hmake⟩
    · rw [hparse] at habsent
      cases habsent
    · rw [hparse] at hmake
      have heq := Except.ok.inj (hmake.symm.trans (makeField_usages us rfl))
      rw [heq, length_berType_tagged rfl rfl (by decide)]
      omega
  rw [hlen, hflat₁, hflat₂, hflat₃, hflat₄, hflat₅]
  simp only [List.length_append]
  omega

/-- 7300 unit usages without containers, nine octets each. -/
def largeRequest : ChargingDataRequest :=
  { multipleUnitUsage := List.replicate 7300 { ratingGroup := 1 } }

theorem length_largeRequest :
    (usageBytes (multiUnitUsageToCdr largeRequest.multipleUnitUsage)).length = 65700 := by
  have hone : (CdrMultipleUnitUsage.mk 1 [] []).bytes.length = 9 := by decide +kernel
  have hconv : multiUnitUsageToCdr largeRequest.multipleUnitUsage =
      List.replicate 7300 (CdrMultipleUnitUsage.mk 1 [] []) := List.map_replicate
  rw [hconv, usageBytes, List.map_replicate, List.length_flatten, List.map_replicate,
    List.sum_replicate, hone]
  rfl

/-- A session that is opened and released with these: the record of 65700 octets and more is
    dumped with a length taken modulo `2 ^ 16`. -/
theorem large_release_does_not_fit :
    ∃ rs ∈ ([Event.create openingRequest sampleTime 0,
        .release largeRequest "imsi-208smf0"].foldl (step sampleChf)
          (ChfUe.init "imsi-208")).dumps,
      ∃ r ∈ rs, ∃ bs, r.ber = .ok bs ∧ 65535 < bs.length ∧
        (cdrOf r).hdr.cdrLength.toNat ≠ bs.length := by
  have hfound : ((opened.find "imsi-208smf0").map fun found => found.2.listOfMultipleUnitUsage.isNone) =
      some true := by decide +kernel
  obtain ⟨⟨i, cdr⟩, hfind, hnone⟩ := Option.map_eq_some_iff.mp hfound
  have hlist : cdr.listOfMultipleUnitUsage = none := Option.isNone_iff_eq_none.mp hnone
  have hdumps : ([Event.create openingRequest sampleTime 0,
      .release largeRequest "imsi-208smf0"].foldl (step sampleChf) (ChfUe.init "imsi-208")).dumps =
        opened.dumps ++ [[closeCDR (updateCDR cdr largeRequest) false]] := by
    show (chargingDataRelease opened largeRequest "imsi-208smf0").dumps = _
    unfold chargingDataRelease
    rw [hfind]
    rfl
  have hus : (closeCDR (updateCDR cdr largeRequest) false).listOfMultipleUnitUsage =
      some (multiUnitUsageToCdr largeRequest.multipleUnitUsage) := by
    show (updateCDR cdr largeRequest).listOfMultipleUnitUsage = _
    unfold updateCDR
    rw [if_neg (by decide), hlist]
    rfl
  have hlong := length_usageBytes_le hus
  rw [length_largeRequest] at hlong
  obtain ⟨_, _, hber, _⟩ := (closeCDR (updateCDR cdr largeRequest) false).ber_eq
  refine ⟨_, hdumps ▸ List.mem_append_right _ (List.mem_singleton.mpr rfl), _,
    List.mem_singleton.mpr rfl, _, hber, by omega, ?_⟩
  have hlt := (cdrOf (closeCDR (updateCDR cdr largeRequest) false)).hdr.cdrLength.toNat_lt
  omega

end Free5gc.Chf.Cdr
