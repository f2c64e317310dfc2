/-
  The sequence numbers of partial records (`OpenCDR` with `partialRecord`, `ChargingDataUpdate`).

  An update with a trigger closes the record of its session as a partial one, dumps it, and opens
  it again under the next sequence number. `OpenCDR` reads the last number from the CHF's map
  `RecordSequenceNumber` and counts it up in a local variable. No handler stores into the map, so
  it stays empty and every reopening gets the number 1.
-/
import Free5gc.Chf.Cdr.Records
import Free5gc.Chf.Cdr.RecordSizes

namespace Free5gc.Chf.Cdr

open Free5gc.Lib

/-! ## Reopenings -/

variable {ue : ChfUe} {sessionId : String} {i : Nat}

/-- The event is an update that opens the record of the session again: the session exists, a
    trigger asks for a partial record and the closed record could be written. -/
def Reopens (ue : ChfUe) (sessionId : String) : Event → Prop
  | .update req id written =>
    id = sessionId ∧ Charging.partialRecord req.charging ∧ written ∧ (ue.find sessionId).isSome
  | .create _ _ _ | .release _ _ => False

instance (ue : ChfUe) (sessionId : String) : DecidablePred (Reopens ue sessionId) := fun e =>
  match e with
  | .update _ _ _ => inferInstanceAs (Decidable (_ ∧ _ ∧ _ ∧ _))
  | .create _ _ _ | .release _ _ => inferInstanceAs (Decidable False)

/-- How often a run opens the record of a session again. -/
def reopenings (chf : CHFContext) (sessionId : String) : ChfUe → List Event → Nat
  | _, [] => 0
  | ue, e :: es =>
    (if Reopens ue sessionId e then 1 else 0) + reopenings chf sessionId (step chf ue e) es

/-- The number that the record of a session has. -/
def recordNumber (ue : ChfUe) (sessionId : String) : Option Int64 :=
  (ue.find sessionId).bind fun found => found.2.recordSequenceNumber

/-- The numbers that the reopenings of a session leave in its record, in their order. -/
def numbers (chf : CHFContext) (sessionId : String) : ChfUe → List Event → List (Option Int64)
  | _, [] => []
  | ue, e :: es =>
    if Reopens ue sessionId e then
      recordNumber (step chf ue e) sessionId :: numbers chf sessionId (step chf ue e) es
    else numbers chf sessionId (step chf ue e) es

/-! ## The number of a reopening -/

theorem find_eq_some {r : ChargingRecord} (h : ue.find sessionId = some (i, r)) :
    ue.cdr.lookup sessionId = some i ∧ ue.records[i]? = some r := by
  unfold ChfUe.find at h
  obtain ⟨j, hj, h⟩ := Option.bind_eq_some_iff.mp h
  obtain ⟨r', hr, h⟩ := Option.bind_eq_some_iff.mp h
  obtain ⟨rfl, rfl⟩ := Prod.mk.inj (Option.some.inj h)
  exact ⟨hj, hr⟩

/-- What is written through the pointer of a session is found there. -/
theorem find_write (hcdr : ue.cdr.lookup sessionId = some i) (hi : i < ue.records.length)
    (r : ChargingRecord) : (ue.write i r).find sessionId = some (i, r) := by
  unfold ChfUe.find
  have hcdr' : (ue.write i r).cdr.lookup sessionId = some i := hcdr
  have hget : (ue.write i r).records[i]? = some r := List.getElem?_set_self hi
  rw [hcdr']
  show ((ue.write i r).records[i]?.bind _) = _
  rw [hget]
  rfl

theorem find_dump (ue : ChfUe) (rs : List ChargingRecord) (sessionId : String) :
    (ue.dump rs).find sessionId = ue.find sessionId := rfl

theorem recordNumber_finishUpdate {req : ChargingDataRequest}
    (hcdr : ue.cdr.lookup sessionId = some i) (hi : i < ue.records.length)
    (hcloses : Charging.partialRecord req.charging) (cdr : ChargingRecord) :
    recordNumber (finishUpdate ue req sessionId i cdr true) sessionId =
      some (partialRecordSeqNum ue.recordSequenceNumber sessionId) := by
  unfold finishUpdate recordNumber
  dsimp only
  rw [if_pos hcloses, if_pos rfl, find_dump, find_write]
  · rfl
  · exact hcdr
  · exact (List.length_set).symm ▸ hi

theorem recordNumber_update {req : ChargingDataRequest} (hfound : (ue.find sessionId).isSome)
    (hcloses : Charging.partialRecord req.charging) :
    recordNumber (chargingDataUpdate ue req sessionId true) sessionId =
      some (partialRecordSeqNum ue.recordSequenceNumber sessionId) := by
  obtain ⟨⟨i, cdr⟩, hfind⟩ := Option.isSome_iff_exists.mp hfound
  obtain ⟨hcdr, hget⟩ := find_eq_some hfind
  obtain ⟨_, _, hber, _⟩ := cdr.ber_eq
  obtain ⟨bs, hbs, _⟩ := unitsBer_ok req
  unfold chargingDataUpdate
  rw [hfind]
  dsimp only
  rw [hber, hbs]
  unfold splitRecord
  dsimp only
  split_ifs
  · -- the copy is the last record and the session points to it
    have hcdr' : (ue.addRecord sessionId (emptied cdr)).cdr.lookup sessionId =
      some ue.records.length := Finmap.lookup_insert _
    refine recordNumber_finishUpdate hcdr' ?_ hcloses _
    show ue.records.length < (ue.records ++ [emptied cdr]).length
    rw [List.length_append]
    exact Nat.lt_succ_self _
  · exact recordNumber_finishUpdate hcdr (List.getElem?_eq_some_iff.mp hget).1 hcloses _

theorem recordNumber_reopens (chf : CHFContext) {e : Event} (h : Reopens ue sessionId e) :
    recordNumber (step chf ue e) sessionId =
      some (partialRecordSeqNum ue.recordSequenceNumber sessionId) := by
  cases e with
  | create req now n => exact h.elim
  | release req id => exact h.elim
  | update req id written =>
    obtain ⟨rfl, hcloses, rfl, hfound⟩ := h
    exact recordNumber_update hfound hcloses

/-- No handler stores into the map. -/
theorem recordSequenceNumber_step (chf : CHFContext) (ue : ChfUe) (e : Event) :
    (step chf ue e).recordSequenceNumber = ue.recordSequenceNumber := by
  cases e with
  | create req now n =>
    simp only [step, chargingDataCreate]
    split
    · split <;> rfl
    · rfl
  | update req id written =>
    simp only [step, chargingDataUpdate]
    split
    · rfl
    · split
      · simp only [splitRecord, finishUpdate]
        split_ifs <;> rfl
      · rfl
  | release req id =>
    simp only [step, chargingDataRelease]
    split <;> rfl

/-- Every reopening gets the number that the first one gets. -/
theorem numbers_eq_replicate (chf : CHFContext) (sessionId : String) (ue : ChfUe)
    (es : List Event) :
    numbers chf sessionId ue es = List.replicate (reopenings chf sessionId ue es)
      (some (partialRecordSeqNum ue.recordSequenceNumber sessionId)) := by
  induction es generalizing ue with
  | nil => rfl
  | cons e es ih =>
    unfold numbers reopenings
    split_ifs with h
    · rw [recordNumber_reopens chf h, ih, recordSequenceNumber_step, Nat.add_comm,
        List.replicate_succ]
    · rw [ih, recordSequenceNumber_step, Nat.zero_add]

/-! ## Numbering -/

/-- The first `n` numbers. -/
def firstNumbers (n : Nat) : List (Option Int64) :=
  (List.range n).map fun k => some (Int64.ofNat (k + 1))

theorem replicate_eq_firstNumbers_iff (n : Nat) :
    List.replicate n (some 1) = firstNumbers n ↔ n ≤ 1 := by
  constructor
  · intro h
    by_contra hlt
    have hone : (List.replicate n (some (1 : Int64)))[1]? = some (some 1) := by
      rw [List.getElem?_replicate, if_pos (by omega)]
    have htwo : (firstNumbers n)[1]? = some (some 2) := by
      rw [firstNumbers, List.getElem?_map, List.getElem?_range (by omega)]
      rfl
    rw [h, htwo] at hone
    exact absurd hone (by decide)
  · intro hle
    obtain rfl | rfl : n = 0 ∨ n = 1 := by omega
    · rfl
    · rfl

/-- The k-th reopening of a session gets the number k exactly in the runs that open its record
    again at most once. -/
theorem partial_records_numbered_iff (chf : CHFContext) (sessionId supi : String)
    (es : List Event) :
    numbers chf sessionId (ChfUe.init supi) es =
        firstNumbers (reopenings chf sessionId (ChfUe.init supi) es) ↔
      reopenings chf sessionId (ChfUe.init supi) es ≤ 1 := by
  rw [numbers_eq_replicate, ← replicate_eq_firstNumbers_iff,
    ← partialRecordSeqNum_empty sessionId]
  rfl

/-- Two partial records of one session carry the number 1. -/
theorem second_partial_record_not_numbered :
    numbers sampleChf "imsi-208smf0" (ChfUe.init "imsi-208")
      [.create openingRequest sampleTime 0, .update usageRequest "imsi-208smf0" true,
        .update usageRequest "imsi-208smf0" true] = [some 1, some 1] := by
  rw [numbers_eq_replicate]
  decide +kernel

end Free5gc.Chf.Cdr
