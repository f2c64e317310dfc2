/-
  What the account balance management function grants (`handleCCR` of `pkg/abmf`), over any run
  of requests on one account.

  The balance is signed and a termination may take it below zero. The amounts travel as octet
  counts of 64 bits and are cast back: the grant is the balance itself when more is asked for,
  and what is asked for otherwise, whatever the sign of either.
-/
import Free5gc.Lib.Int64
import Free5gc.Lib.Run
import Free5gc.Chf.Charging.Reservation

namespace Free5gc.Chf.Charging

open Free5gc.Lib

/-- The octets that an initial or update debit asks for. -/
def AccountDebitRequest.debits (ccr : AccountDebitRequest) : Option UInt64 :=
  if ccr.requestedAction = .directDebiting ∧
      (ccr.ccRequestType = some .initialRequest ∨ ccr.ccRequestType = some .updateRequest) then
    ccr.requestedServiceUnit
  else none

/-- The balance after a request. One that the handler does not get through changes nothing. -/
def carryOut (quota : Int64) (ccr : AccountDebitRequest) : Int64 :=
  ((handleCCR quota ccr).map Prod.fst).getD quota

/-- A request is granted no more than the balance holds, and a debit leaves no new debt. -/
structure Honoured (quota : Int64) (ccr : AccountDebitRequest) : Prop where
  granted : ∀ q cca, handleCCR quota ccr = some (q, cca) →
    (cca.grantedServiceUnit.toNat : Int) ≤ max quota.toInt 0
  remains : ∀ octets q cca, ccr.debits = some octets → handleCCR quota ccr = some (q, cca) →
    min quota.toInt 0 ≤ q.toInt

/-- A debit finds no debt, and its octets are a number of 63 bits. -/
def Debitable (quota : Int64) (ccr : AccountDebitRequest) : Prop :=
  ∀ octets, ccr.debits = some octets → 0 ≤ quota.toInt ∧ octets.toNat < 2 ^ 63

variable {quota : Int64} {ccr : AccountDebitRequest} {octets : UInt64}

theorem handleCCR_debit (h : ccr.debits = some octets) :
    handleCCR quota ccr = some (debitQuota quota octets.toInt64) := by
  unfold AccountDebitRequest.debits at h
  split_ifs at h with hdebit
  obtain ⟨haction, htype | htype⟩ := hdebit
  · rw [handleCCR, haction, htype, h]
    rfl
  · rw [handleCCR, haction, htype, h]
    rfl

/-- Only the debits are granted anything. -/
theorem granted_of_not_debits (h : ccr.debits = none) {q : Int64} {cca : AccountDebitResponse}
    (hans : handleCCR quota ccr = some (q, cca)) : cca.grantedServiceUnit = 0 := by
  obtain ⟨action, type, requested, used⟩ := ccr
  have hgrant : ∀ x : Option (Int64 × AccountDebitResponse),
      (∀ r ∈ x, r.2 = {}) → x = some (q, cca) → cca.grantedServiceUnit = 0 := by
    intro x hx heq
    have hcca : cca = {} := hx (q, cca) heq
    rw [hcca]
  refine hgrant _ ?_ hans
  intro r hr
  cases action with
  | refundAccount | checkBalance | priceEnquiry =>
    cases requested <;> cases hr <;> rfl
  | directDebiting =>
    rcases type with _ | type
    · cases hr
      rfl
    cases type with
    | initialRequest | updateRequest =>
      -- a debit that names no amount is not answered
      have hnone : requested = none := h
      rw [hnone] at hr
      cases hr
    | terminationRequest =>
      cases used <;> cases hr
      rfl
    | eventRequest =>
      cases hr
      rfl

theorem honoured_of_not_debits (h : ccr.debits = none) : Honoured quota ccr := by
  refine ⟨fun q cca hans => ?_, fun octets q cca hdebit => ?_⟩
  · rw [granted_of_not_debits h hans]
    exact le_max_right _ _
  · rw [h] at hdebit
    cases hdebit

/-- A grant that is too small for the request takes the balance as it is. -/
theorem debitQuota_of_gt {requestQuota : Int64} (h : quota.toInt < requestQuota.toInt) :
    debitQuota quota requestQuota = (0, ⟨quota.toUInt64, true⟩) := by
  unfold debitQuota
  rw [if_pos (Int64.lt_iff_toInt_lt.mpr h), Int64.sub_self]

theorem debitQuota_of_le {requestQuota : Int64} (h : requestQuota.toInt ≤ quota.toInt) :
    debitQuota quota requestQuota = (quota - requestQuota, ⟨requestQuota.toUInt64, false⟩) := by
  unfold debitQuota
  rw [if_neg]
  intro hgt
  have := Int64.lt_iff_toInt_lt.mp hgt
  omega

/-- Of a debit that is answered, the answer alone decides. -/
theorem honoured_iff_of_answer (h : ccr.debits = some octets) {q : Int64}
    {cca : AccountDebitResponse} (hq : debitQuota quota octets.toInt64 = (q, cca)) :
    Honoured quota ccr ↔ (cca.grantedServiceUnit.toNat : Int) ≤ max quota.toInt 0 ∧
      min quota.toInt 0 ≤ q.toInt := by
  have hans : handleCCR quota ccr = some (q, cca) := by rw [handleCCR_debit h, hq]
  constructor
  · intro hhon
    exact ⟨hhon.granted q cca hans, hhon.remains octets q cca h hans⟩
  · rintro ⟨hgranted, hremains⟩
    refine ⟨fun q' cca' hans' => ?_, fun _ q' cca' _ hans' => ?_⟩
    · cases hans.symm.trans hans'
      exact hgranted
    · cases hans.symm.trans hans'
      exact hremains

/-- Cut down to the balance, a grant is covered unless the balance is a debt. -/
theorem honoured_iff_of_gt (h : ccr.debits = some octets)
    (hcap : quota.toInt < octets.toInt64.toInt) : Honoured quota ccr ↔ 0 ≤ quota.toInt := by
  have hlo := quota.le_toInt
  rw [honoured_iff_of_answer h (debitQuota_of_gt hcap)]
  dsimp only
  rcases Int.lt_or_le quota.toInt 0 with hneg | hpos
  · have := toNat_toUInt64_of_neg hneg
    omega
  · rw [toNat_toUInt64_of_nonneg hpos]
    exact iff_of_true ⟨le_max_left _ _, min_le_right _ _⟩ hpos

/-- Granted as it is asked for, an amount is covered if it is not negative, in 64 bits. -/
theorem honoured_iff_of_le (h : ccr.debits = some octets)
    (hcap : octets.toInt64.toInt ≤ quota.toInt) : Honoured quota ccr ↔ octets.toNat < 2 ^ 63 := by
  have hoctets := toInt_toInt64 octets
  have hhi := quota.toInt_lt
  rw [honoured_iff_of_answer h (debitQuota_of_le hcap), UInt64.toUInt64_toInt64]
  dsimp only
  split_ifs at hoctets with hfit
  · rw [toInt_sub_of_mem_range (by omega) (by omega)]
    omega
  · refine iff_of_false (fun hcovered => ?_) hfit
    omega

theorem honoured_debit_iff (h : ccr.debits = some octets) :
    Honoured quota ccr ↔ 0 ≤ quota.toInt ∧ octets.toNat < 2 ^ 63 := by
  have hoctets := toInt_toInt64 octets
  have hlt := octets.toNat_lt
  rcases Int.lt_or_le quota.toInt octets.toInt64.toInt with hcap | hcap
  · rw [honoured_iff_of_gt h hcap]
    split_ifs at hoctets <;> omega
  · rw [honoured_iff_of_le h hcap]
    split_ifs at hoctets <;> omega

theorem honoured_iff_debitable : Honoured quota ccr ↔ Debitable quota ccr := by
  unfold Debitable
  cases h : ccr.debits with
  | none =>
    refine iff_of_true (honoured_of_not_debits h) fun octets hoctets => ?_
    cases hoctets
  | some octets =>
    rw [honoured_debit_iff h]
    constructor
    · rintro hboth _ ⟨⟩
      exact hboth
    · intro hall
      exact hall octets rfl

/-- In a run of requests every grant is covered by the balance, and no debit leaves a new debt,
    exactly if no debit finds a debt or asks for `2 ^ 63` octets or more. -/
theorem grants_covered_iff (quota : Int64) (ccrs : List AccountDebitRequest) :
    (∀ before ccr after, ccrs = before ++ ccr :: after →
      Honoured (before.foldl carryOut quota) ccr) ↔ StepsMeet carryOut Debitable quota ccrs := by
  induction ccrs generalizing quota with
  | nil =>
    refine iff_of_true (fun before ccr after h => ?_) trivial
    exact absurd h.symm (List.append_ne_nil_of_right_ne_nil _ (List.cons_ne_nil _ _))
  | cons c cs ih =>
    rw [StepsMeet, ← ih, ← honoured_iff_debitable]
    constructor
    · intro h
      exact ⟨h [] c cs rfl, fun before ccr after heq => h (c :: before) ccr after (by rw [heq]; rfl)⟩
    · rintro ⟨hfirst, hrest⟩ before ccr after heq
      cases before with
      | nil =>
        cases heq
        exact hfirst
      | cons b before =>
        cases heq
        exact hrest before ccr after rfl

/-- Five octets are left, ten are used: the debt of five is granted as `2 ^ 64 - 5` octets. -/
theorem debt_is_granted :
    ¬ ∀ before ccr after, [terminationRequest 10, updateRequest 10] = before ++ ccr :: after →
      Honoured (before.foldl carryOut 5) ccr := by
  intro h
  have hle := (h [terminationRequest 10] (updateRequest 10) [] rfl).granted 0
    ⟨18446744073709551611, true⟩ (by decide)
  exact absurd hle (by decide)

end Free5gc.Chf.Charging
