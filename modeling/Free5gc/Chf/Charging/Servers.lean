/-
  The two Diameter servers behind online charging: the rating function (`pkg/rf`), which
  prices units, and the account balance management function (`pkg/abmf`), which holds the
  money. Both read the subscriber's document for the rating group in one collection.

  A handler here is a function from the document and the request to the document afterwards
  and the answer. A handler that returns early or panics sends no answer.
-/
import Free5gc.Lib.Text

namespace Free5gc.Chf.Charging

open Free5gc.Lib

/-- A document of the collection `chargingDatas`: the balance, and the tariff as a text. -/
structure ChargingData where
  quota : Int64
  unitCost : List Char
  deriving DecidableEq, Repr

/-! ## The rating function -/

/-- The unit cost as value digits and an exponent. -/
structure UnitCost where
  valueDigits : Int64
  exponent : Nat
  deriving DecidableEq, Repr

/-- The text of a cost, read without its dots; the exponent counts the characters behind the
    first dot. Digits that are no number leave the value at 0. -/
def buildTaffif (unitCostStr : List Char) : UnitCost :=
  match unitCostStr.idxOf? '.' with
  | none => ⟨(atoi unitCostStr).getD 0, 0⟩
  | some dotPos =>
    ⟨(atoi (unitCostStr.filter (· ≠ '.'))).getD 0, unitCostStr.length - dotPos - 1⟩

/-- `uint32(math.Pow10(n))` on amd64: the conversion goes through a signed 64-bit integer,
    which a power above its range turns into one whose lower half is 0. -/
def pow10 (n : Nat) : UInt32 := if n < 19 then UInt32.ofNat (10 ^ n) else 0

/-- The cost of one unit, as both `handleSUR` and `getUnitCost` compute it. -/
def UnitCost.cost (u : UnitCost) : UInt32 := u.valueDigits.toUInt64.toUInt32 * pow10 u.exponent

def ChargingData.cost (d : ChargingData) : UInt32 := (buildTaffif d.unitCost).cost

inductive RequestSubType where
  | aoc
  | reserve
  | debit
  | release
  deriving DecidableEq, Repr

/-- What a service usage request asks to have rated. -/
structure ServiceRating where
  requestSubType : RequestSubType
  monetaryQuota : UInt32 := 0
  consumedUnits : UInt32 := 0
  deriving DecidableEq, Repr

structure ServiceUsageResponse where
  unitCost : UnitCost
  allowedUnits : UInt32
  price : UInt32
  deriving DecidableEq, Repr

/-- `handleSUR`. Without a document the answer still carries a tariff, of "1". -/
def handleSUR (doc : Option ChargingData) (sr : ServiceRating) : Option ServiceUsageResponse :=
  match doc with
  | none => some ⟨buildTaffif ['1'], 0, 0⟩
  | some d =>
    match sr.requestSubType with
    | .debit => some ⟨buildTaffif d.unitCost, 0, sr.consumedUnits * d.cost⟩
    | .reserve =>
      -- the division panics on a cost of 0
      if d.cost = 0 then none
      else some ⟨buildTaffif d.unitCost, sr.monetaryQuota / d.cost,
        sr.monetaryQuota / d.cost * d.cost⟩
    | _ => some ⟨buildTaffif d.unitCost, 0, 0⟩

/-! ## The account balance management function -/

inductive RequestedAction where
  | directDebiting
  | refundAccount
  | checkBalance
  | priceEnquiry
  deriving DecidableEq, Repr

inductive CcRequestType where
  | initialRequest
  | updateRequest
  | terminationRequest
  | eventRequest
  deriving DecidableEq, Repr

/-- An account debit request: the amounts are octet counts of 64 bits, absent when the
    sender did not set them. -/
structure AccountDebitRequest where
  requestedAction : RequestedAction
  ccRequestType : Option CcRequestType := none
  requestedServiceUnit : Option UInt64 := none
  usedServiceUnit : Option UInt64 := none
  deriving DecidableEq, Repr

/-- What of an account debit response its reader uses: the amount granted and whether the
    final unit indication says TERMINATE. -/
structure AccountDebitResponse where
  grantedServiceUnit : UInt64 := 0
  terminate : Bool := false
  deriving DecidableEq, Repr

/-- `requestQuota > quota` grants what is left and says so. -/
def debitQuota (quota requestQuota : Int64) : Int64 × AccountDebitResponse :=
  if requestQuota > quota then (quota - quota, ⟨quota.toUInt64, true⟩)
  else (quota - requestQuota, ⟨requestQuota.toUInt64, false⟩)

/-- `handleCCR` on a document found: the new balance and the answer. A request without the
    amount that its action reads makes the handler panic. -/
def handleCCR (quota : Int64) (ccr : AccountDebitRequest) :
    Option (Int64 × AccountDebitResponse) :=
  match ccr.requestedAction with
  | .checkBalance => some (quota, {})
  | .priceEnquiry => some (quota, {})
  | .refundAccount => ccr.requestedServiceUnit.map fun octets => (quota + octets.toInt64, {})
  | .directDebiting =>
    match ccr.ccRequestType with
    | some .initialRequest | some .updateRequest =>
      ccr.requestedServiceUnit.map fun octets => debitQuota quota octets.toInt64
    | some .terminationRequest =>
      ccr.usedServiceUnit.map fun octets => (quota - octets.toInt64, {})
    | _ => some (quota, {})

end Free5gc.Chf.Charging
