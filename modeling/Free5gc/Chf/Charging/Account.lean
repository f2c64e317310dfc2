/-
  The money of one rating group. `Account` is what a subscriber has of it: the mode of the
  charging context, the quota reserved there and the balance of the account. A turn of
  `sessionChargingReservation` touches the account of its own rating group only (`Keeps`),
  and what it does to it is `Account.turn` (`account_unitUsage`).
-/
import Free5gc.Lib.Int64
import Free5gc.Chf.Charging.Reservation

namespace Free5gc.Chf.Charging

open Free5gc.Lib

/-! ## The account of a rating group -/

structure Account where
  mode : RequestSubType
  reserved : Int64
  quota : Int64
  deriving DecidableEq, Repr

/-- The price of some units, multiplied in 32 bits. -/
def price (cost units : UInt32) : Int64 := (units * cost).toUInt64.toInt64

namespace Account

/-- Balance and reservation together. -/
def money (a : Account) : Int64 := a.quota + a.reserved

/-- FINAL switches to DEBIT, and back to RESERVE when units are requested. -/
def switch (a : Account) (s : Scan) (requested : Int32) : Account :=
  { a with mode := if s.finalSeen then (if 0 < requested then .reserve else .debit) else a.mode }

/-- When nothing is left of the reservation, the amount `p` is reserved anew on top of what is
    owed, or as much of it as the balance has. -/
def topUp (a : Account) (p : Int64) : Account :=
  if a.reserved ≤ 0 then
    let wanted := -a.reserved + p
    if wanted > a.quota then ⟨.debit, a.reserved + a.quota, a.quota - a.quota⟩
    else ⟨a.mode, a.reserved + wanted, a.quota - wanted⟩
  else a

/-- The used units are taken from the reservation, which is then topped up. -/
def reserve (a : Account) (cost used requested : UInt32) : Account :=
  topUp { a with reserved := a.reserved - price cost used } (price cost requested)

/-- The used units are taken from the reservation, and what is left of it goes back to the
    balance; when it was too small the balance pays. -/
def debit (a : Account) (cost used : UInt32) : Account :=
  { mode := if price cost used < a.reserved then .reserve else a.mode
    reserved := 0
    quota := a.quota + (a.reserved - price cost used) }

def serve (a : Account) (cost used : UInt32) (requested : Int32) : Account :=
  match a.mode with
  | .reserve => if 0 < requested then a.reserve cost used requested.toUInt32 else a
  | .debit => a.debit cost used
  | _ => a

def turn (a : Account) (cost : UInt32) (s : Scan) (requested : Int32) : Account :=
  if !s.creditControl then a else (a.switch s requested).serve cost s.totalUsedUnit requested

theorem money_switch (a : Account) (s : Scan) (requested : Int32) :
    (a.switch s requested).money = a.money := rfl

theorem money_topUp (a : Account) (p : Int64) : (a.topUp p).money = a.money := by
  unfold topUp money
  dsimp only
  split_ifs <;> grind

theorem money_reserve (a : Account) (cost used requested : UInt32) :
    (a.reserve cost used requested).money = a.money - price cost used := by
  unfold reserve
  rw [money_topUp]
  unfold money
  grind

theorem money_debit (a : Account) (cost used : UInt32) :
    (a.debit cost used).money = a.money - price cost used := by
  unfold debit money
  grind

end Account

namespace World

def account (w : World) (rg : Int32) : Account :=
  ⟨w.ratingTypeOf rg, w.reserved rg, ((w.chargingDatas.lookup rg).map (·.quota)).getD 0⟩

/-- The tariff in the document of a rating group. -/
def tariff (w : World) (rg : Int32) : Option (List Char) :=
  (w.chargingDatas.lookup rg).map (·.unitCost)

/-- Every rating group seen is in RESERVE or DEBIT mode. -/
def Typed (w : World) : Prop :=
  ∀ rg ∈ w.ue.ratingGroups, w.ratingTypeOf rg = .reserve ∨ w.ratingTypeOf rg = .debit

end World

/-! ## What a turn leaves alone -/

/-- `w'` differs from `w` in the account of `rg` at most. -/
structure Keeps (rg : Int32) (w w' : World) : Prop where
  account : ∀ x, x ≠ rg → w'.account x = w.account x
  tariff : ∀ x, w'.tariff x = w.tariff x
  typed : w.Typed → w'.Typed

section

variable {rg : Int32} {w w' w'' : World}

theorem Keeps.refl (rg : Int32) (w : World) : Keeps rg w w := ⟨fun _ _ => rfl, fun _ => rfl, id⟩

theorem Keeps.trans (h : Keeps rg w w') (h' : Keeps rg w' w'') : Keeps rg w w'' :=
  ⟨fun x hx => (h'.account x hx).trans (h.account x hx),
    fun x => (h'.tariff x).trans (h.tariff x), fun ht => h'.typed (h.typed ht)⟩

theorem keeps_tick (rg : Int32) (w : World) : Keeps rg w w.tick :=
  ⟨fun _ _ => rfl, fun _ => rfl, id⟩

theorem keeps_setUnitCost (rg : Int32) (w : World) (x : Int32) (c : UInt32) :
    Keeps rg w (w.setUnitCost x c) := ⟨fun _ _ => rfl, fun _ => rfl, id⟩

theorem keeps_countRequest (rg : Int32) (w : World) (x : Int32) : Keeps rg w (w.countRequest x) :=
  ⟨fun _ _ => rfl, fun _ => rfl, id⟩

variable (w : World)

theorem reserved_setReserved (rg x : Int32) (q : Int64) :
    (w.setReserved rg q).reserved x = if x = rg then q else w.reserved x := by
  unfold World.reserved World.setReserved
  dsimp only
  rw [GoMap.lookup_insert_eq]
  split_ifs <;> rfl

theorem ratingTypeOf_setRatingType (rg x : Int32) (t : RequestSubType) :
    (w.setRatingType rg t).ratingTypeOf x = if x = rg then t else w.ratingTypeOf x := by
  unfold World.ratingTypeOf World.setRatingType
  dsimp only
  rw [GoMap.lookup_insert_eq]
  split_ifs <;> rfl

theorem account_setReserved (rg x : Int32) (q : Int64) :
    (w.setReserved rg q).account x =
      { w.account x with reserved := if x = rg then q else w.reserved x } := by
  unfold World.account
  rw [reserved_setReserved]
  rfl

theorem account_setRatingType (rg x : Int32) (t : RequestSubType) :
    (w.setRatingType rg t).account x =
      { w.account x with mode := if x = rg then t else w.ratingTypeOf x } := by
  unfold World.account
  rw [ratingTypeOf_setRatingType]
  rfl

theorem keeps_setReserved (rg : Int32) (q : Int64) :
    Keeps rg w (w.setReserved rg q) := by
  refine ⟨fun x hx => ?_, fun _ => rfl, id⟩
  rw [account_setReserved, if_neg hx]
  rfl

theorem keeps_setRatingType (rg : Int32) {t : RequestSubType} (ht : t = .reserve ∨ t = .debit) :
    Keeps rg w (w.setRatingType rg t) := by
  refine ⟨fun x hx => ?_, fun _ => rfl, fun hw x hx => ?_⟩
  · rw [account_setRatingType, if_neg hx]
    rfl
  · rw [ratingTypeOf_setRatingType]
    split_ifs
    · exact ht
    · exact hw x hx

theorem lookup_putQuota (rg x : Int32) (q : Int64) :
    (w.putQuota rg q).chargingDatas.lookup x =
      if x = rg then (w.chargingDatas.lookup x).map fun d => { d with quota := q }
      else w.chargingDatas.lookup x :=
  GoMap.lookup_modify _ _ _ _

theorem keeps_putQuota (rg : Int32) (q : Int64) : Keeps rg w (w.putQuota rg q) := by
  refine ⟨fun x hx => ?_, fun x => ?_, id⟩
  · unfold World.account
    rw [lookup_putQuota, if_neg hx]
    rfl
  · unfold World.tariff
    rw [lookup_putQuota]
    split_ifs
    · rw [Option.map_map]
      rfl
    · rfl

theorem keeps_findRatingGroup (rg : Int32) : Keeps rg w (w.findRatingGroup rg) := by
  unfold World.findRatingGroup
  split_ifs with h
  · exact Keeps.refl rg w
  · have hset := keeps_setRatingType w rg (t := .reserve) (Or.inl rfl)
    refine ⟨hset.account, fun _ => rfl, fun hw x hx => ?_⟩
    rcases List.mem_append.mp hx with hx | hx
    · exact hset.typed hw x hx
    · have hmode := ratingTypeOf_setRatingType w rg x .reserve
      rw [if_pos (List.mem_singleton.mp hx)] at hmode
      exact Or.inl hmode

end

section

variable (net : Nat → Fate)

variable {w w' : World} {rg : Int32} {d : ChargingData} {s : Scan} {u : MultipleUnitUsage}

theorem keeps_accountHandle (w : World) (rg : Int32) (ccr : AccountDebitRequest) :
    Keeps rg w (accountHandle w rg ccr).1 := by
  unfold accountHandle
  split
  · exact Keeps.refl rg w
  · exact keeps_putQuota w rg _

theorem keeps_sendAccountDebitRequest (w : World) (rg : Int32) (ccr : AccountDebitRequest) :
    Keeps rg w (sendAccountDebitRequest net w rg ccr).1 := by
  have hhandle := (keeps_tick rg w).trans (keeps_accountHandle w.tick rg ccr)
  unfold sendAccountDebitRequest
  split
  · exact hhandle
  · exact keeps_tick rg w
  · exact hhandle

theorem getUnitCost_fst (w : World) (rg : Int32) : (getUnitCost net w rg).1 = w.tick := by
  unfold getUnitCost sendServiceUsageRequest
  split <;> rename_i h <;> exact (Prod.mk.inj h).1.symm

theorem grant_fst (num : Nat) (w : World) (s : Scan) (u : MultipleUnitUsage)
    (requestedQuota : UInt64) (terminate : Bool) :
    (grant net num w s u requestedQuota terminate).1 = w.tick ∨
      ∃ c, (grant net num w s u requestedQuota terminate).1 =
        (w.tick.tick.setUnitCost u.ratingGroup c).countRequest u.ratingGroup := by
  unfold grant sendServiceUsageRequest
  dsimp only
  split
  · rename_i h
    exact Or.inl (Prod.mk.inj h).1.symm
  · rename_i h
    right
    refine ⟨(getUnitCost net w.tick u.ratingGroup).2, ?_⟩
    rw [← (Prod.mk.inj h).1, getUnitCost_fst]

theorem keeps_grant (num : Nat) (w : World) (s : Scan) (u : MultipleUnitUsage)
    (requestedQuota : UInt64) (terminate : Bool) :
    Keeps u.ratingGroup w (grant net num w s u requestedQuota terminate).1 := by
  have htick := keeps_tick u.ratingGroup w
  rcases grant_fst net num w s u requestedQuota terminate with h | ⟨c, h⟩
  · rw [h]
    exact htick
  · rw [h]
    exact htick.trans ((keeps_tick _ _).trans
      ((keeps_setUnitCost _ _ _ _).trans (keeps_countRequest _ _ _)))

theorem account_grant (num : Nat) (w : World) (s : Scan) (u : MultipleUnitUsage)
    (requestedQuota : UInt64) (terminate : Bool) (x : Int32) :
    (grant net num w s u requestedQuota terminate).1.account x = w.account x := by
  rcases grant_fst net num w s u requestedQuota terminate with h | ⟨c, h⟩ <;> rw [h] <;> rfl

theorem keeps_reserveQuota (w : World) (rg : Int32) (requestedQuota : UInt64) :
    Keeps rg w (reserveQuota net w rg requestedQuota).1 := by
  unfold reserveQuota
  split_ifs with h
  · have hsend := keeps_sendAccountDebitRequest net w rg
      (updateRequest (-(w.reserved rg).toUInt64 + requestedQuota))
    split <;> rename_i hs <;> rw [hs] at hsend
    · exact hsend
    · split_ifs
      · exact hsend.trans ((keeps_setReserved _ rg _).trans (keeps_setRatingType _ rg (Or.inr rfl)))
      · exact hsend.trans (keeps_setReserved _ rg _)
  · exact Keeps.refl rg w

theorem keeps_useQuota (w : World) (rg : Int32) (cost used : UInt32) :
    Keeps rg w (useQuota w rg cost used) :=
  (keeps_setUnitCost rg w rg cost).trans (keeps_setReserved _ rg _)

/-- RESERVE mode, once the used units are taken from the reservation: the account fails to
    answer, or the units are granted. -/
theorem reserveMode_cases (num : Nat) (w : World) (s : Scan) (u : MultipleUnitUsage) {c : UInt32}
    (hc : (getUnitCost net w u.ratingGroup).2 = c) :
    ∃ w', Keeps u.ratingGroup w w' ∧
      ((reserveQuota net (useQuota w.tick u.ratingGroup c s.totalUsedUnit) u.ratingGroup
            (u.requestedVolume.toUInt32 * c).toUInt64 = (w', none) ∧
          reserveMode net num w s u = (w', none)) ∨
        ∃ t, reserveQuota net (useQuota w.tick u.ratingGroup c s.totalUsedUnit) u.ratingGroup
            (u.requestedVolume.toUInt32 * c).toUInt64 = (w', some t) ∧
          reserveMode net num w s u =
            grant net num w' s u (u.requestedVolume.toUInt32 * c).toUInt64 t) := by
  have hkeep := ((keeps_tick u.ratingGroup w).trans
    (keeps_useQuota w.tick u.ratingGroup c s.totalUsedUnit)).trans
      (keeps_reserveQuota net _ u.ratingGroup (u.requestedVolume.toUInt32 * c).toUInt64)
  refine ⟨_, hkeep, ?_⟩
  unfold reserveMode
  dsimp only
  rw [getUnitCost_fst, hc]
  split <;> rename_i hq <;> rw [hq]
  · exact Or.inl ⟨rfl, rfl⟩
  · exact Or.inr ⟨_, rfl, rfl⟩

theorem keeps_reserveMode (num : Nat) (w : World) (s : Scan) (u : MultipleUnitUsage) :
    Keeps u.ratingGroup w (reserveMode net num w s u).1 := by
  obtain ⟨w', hkeep, ⟨-, h⟩ | ⟨t, -, h⟩⟩ := reserveMode_cases net num w s u rfl <;> rw [h]
  · exact hkeep
  · exact hkeep.trans (keeps_grant net num w' s u _ t)

theorem keeps_settle (w : World) (rg : Int32) (p : UInt32) :
    Keeps rg w (settle net w rg p).1 := by
  unfold settle
  dsimp only
  split_ifs
  · exact (keeps_setRatingType w rg (Or.inl rfl)).trans (keeps_sendAccountDebitRequest net _ rg _)
  · exact keeps_sendAccountDebitRequest net w rg _

theorem keeps_debitMode (w : World) (s : Scan) (u : MultipleUnitUsage) :
    Keeps u.ratingGroup w (debitMode net w s u).1 := by
  unfold debitMode sendServiceUsageRequest
  dsimp only
  have htick := keeps_tick u.ratingGroup w
  split <;> rename_i hs <;> rw [(Prod.mk.inj hs).1] at htick
  · exact htick
  · rename_i w₁ rsp
    have hsettle := htick.trans (keeps_settle net w₁ u.ratingGroup rsp.price)
    split <;> rename_i hr <;> rw [hr] at hsettle
    · exact hsettle
    · exact hsettle.trans ((keeps_setReserved _ _ _).trans (keeps_countRequest _ _ _))

theorem keeps_switchMode (w : World) (s : Scan) (u : MultipleUnitUsage) :
    Keeps u.ratingGroup w (switchMode w s u) := by
  unfold switchMode
  split_ifs
  · exact (keeps_setRatingType w _ (Or.inr rfl)).trans (keeps_setRatingType _ _ (Or.inl rfl))
  · exact keeps_setRatingType w _ (Or.inr rfl)
  · exact Keeps.refl _ w

theorem keeps_serve (num : Nat) (w : World) (s : Scan) (u : MultipleUnitUsage) :
    Keeps u.ratingGroup w (serve net num w s u).1 := by
  unfold serve
  split
  · split_ifs
    · exact keeps_reserveMode net num w s u
    · exact Keeps.refl _ w
  · exact keeps_debitMode net w s u
  · exact keeps_countRequest _ _ _

/-- A turn touches the account of its own rating group only. -/
theorem keeps_unitUsage (triggers : List Trigger) (num : Nat) (w : World) (u : MultipleUnitUsage) :
    Keeps u.ratingGroup w (unitUsage net triggers num w u).1 := by
  have hfind := keeps_findRatingGroup w u.ratingGroup
  unfold unitUsage
  dsimp only
  split_ifs
  · exact hfind
  · exact hfind.trans ((keeps_switchMode _ _ u).trans (keeps_serve net num _ _ u))

/-! ## What a turn does to its account -/

theorem account_putQuota (hd : w.chargingDatas.lookup rg = some d) (q : Int64) :
    (w.putQuota rg q).account rg = { w.account rg with quota := q } := by
  unfold World.account
  rw [lookup_putQuota, if_pos rfl, hd]
  rfl

theorem account_quota (hd : w.chargingDatas.lookup rg = some d) :
    (w.account rg).quota = d.quota := by
  unfold World.account
  rw [hd]
  rfl

/-- An answered request to the account: the answer and the balance are the handler's. -/
theorem sendAccountDebitRequest_answered {ccr : AccountDebitRequest} {q : Int64}
    {cca : AccountDebitResponse} (hnet : net w.exchanges = .answered)
    (hd : w.chargingDatas.lookup rg = some d) (hccr : handleCCR d.quota ccr = some (q, cca)) :
    sendAccountDebitRequest net w rg ccr = (w.tick.putQuota rg q, some cca) := by
  unfold sendAccountDebitRequest
  rw [hnet]
  unfold accountHandle
  have hlook : (w.tick.chargingDatas.lookup rg).bind (fun d => handleCCR d.quota ccr) =
      some (q, cca) := by
    show (w.chargingDatas.lookup rg).bind _ = _
    rw [hd]
    exact hccr
  dsimp only
  rw [hlook]

/-- An exchange that gave an answer was answered. -/
theorem answered_of_sendAccountDebitRequest {ccr : AccountDebitRequest} {cca : AccountDebitResponse}
    (h : sendAccountDebitRequest net w rg ccr = (w', some cca)) : net w.exchanges = .answered := by
  unfold sendAccountDebitRequest at h
  split at h
  · assumption
  · cases (Prod.mk.inj h).2
  · cases (Prod.mk.inj h).2

theorem answered_of_sendServiceUsageRequest {sr : ServiceRating} {rsp : ServiceUsageResponse}
    (h : sendServiceUsageRequest net w rg sr = (w', some rsp)) :
    net w.exchanges = .answered ∧ handleSUR (w.chargingDatas.lookup rg) sr = some rsp := by
  have hsnd := (Prod.mk.inj h).2
  split at hsnd
  · exact ⟨by assumption, hsnd⟩
  · cases hsnd
  · cases hsnd

theorem account_useQuota (w : World) (rg : Int32) (cost used : UInt32) :
    (useQuota w rg cost used).account rg =
      { w.account rg with reserved := w.reserved rg - price cost used } := by
  unfold useQuota
  rw [account_setReserved, if_pos rfl]
  rfl

theorem reserveQuota_answered (requestedQuota : UInt64) (hnet : net w.exchanges = .answered)
    (hd : w.chargingDatas.lookup rg = some d) :
    (reserveQuota net w rg requestedQuota).2.isSome := by
  unfold reserveQuota
  split_ifs
  · rw [sendAccountDebitRequest_answered net hnet hd rfl]
    dsimp only
    split_ifs <;> rfl
  · rfl

/-- A reservation that succeeds tops up the account. -/
theorem account_reserveQuota {requestedQuota : UInt64} {t : Bool}
    (hd : w.chargingDatas.lookup rg = some d)
    (h : reserveQuota net w rg requestedQuota = (w', some t)) :
    w'.account rg = (w.account rg).topUp requestedQuota.toInt64 := by
  have hoctets : (-(w.reserved rg).toUInt64 + requestedQuota).toInt64 =
      -w.reserved rg + requestedQuota.toInt64 := by
    rw [UInt64.toInt64_add, UInt64.toInt64_neg, Int64.toInt64_toUInt64]
  have hres : (w.account rg).reserved = w.reserved rg := rfl
  unfold reserveQuota at h
  unfold Account.topUp
  dsimp only
  rw [hres, account_quota hd]
  by_cases hle : w.reserved rg ≤ 0
  · rw [if_pos hle] at h ⊢
    have hnet : net w.exchanges = .answered := by
      split at h
      · cases (Prod.mk.inj h).2
      · rename_i hs
        exact answered_of_sendAccountDebitRequest net hs
    by_cases hwanted : -w.reserved rg + requestedQuota.toInt64 > d.quota
    · have hccr : handleCCR d.quota (updateRequest (-(w.reserved rg).toUInt64 + requestedQuota)) =
          some (d.quota - d.quota, ⟨d.quota.toUInt64, true⟩) := by
        show some (debitQuota _ _) = _
        unfold debitQuota
        rw [hoctets, if_pos hwanted]
      rw [sendAccountDebitRequest_answered net hnet hd hccr] at h
      rw [if_pos hwanted, ← (Prod.mk.inj h).1, account_setRatingType, account_setReserved,
        account_putQuota (w := w.tick) hd, if_pos rfl, if_pos rfl]
      dsimp only
      rw [Int64.toInt64_toUInt64]
      rfl
    · have hccr : handleCCR d.quota (updateRequest (-(w.reserved rg).toUInt64 + requestedQuota)) =
          some (d.quota - (-w.reserved rg + requestedQuota.toInt64),
            ⟨(-w.reserved rg + requestedQuota.toInt64).toUInt64, false⟩) := by
        show some (debitQuota _ _) = _
        unfold debitQuota
        rw [hoctets, if_neg hwanted]
      rw [sendAccountDebitRequest_answered net hnet hd hccr] at h
      rw [if_neg hwanted, ← (Prod.mk.inj h).1, account_setReserved,
        account_putQuota (w := w.tick) hd, if_pos rfl]
      dsimp only
      rw [Int64.toInt64_toUInt64]
      rfl
  · rw [if_neg hle] at h ⊢
    rw [(Prod.mk.inj h).1]

/-- The unit cost the context works with: that of the tariff, or 1 when the exchange fails. -/
theorem getUnitCost_snd (hd : w.chargingDatas.lookup rg = some d) (hcost : d.cost ≠ 0) :
    (getUnitCost net w rg).2 = if net w.exchanges = .answered then d.cost else 1 := by
  unfold getUnitCost sendServiceUsageRequest
  rw [hd]
  unfold handleSUR
  dsimp only
  rw [if_neg hcost]
  cases net w.exchanges <;> rfl

theorem lookup_of_tariff (hd : w.chargingDatas.lookup rg = some d) (h : w'.tariff rg = w.tariff rg)
    : ∃ d', w'.chargingDatas.lookup rg = some d' ∧ d'.cost = d.cost := by
  unfold World.tariff at h
  rw [hd] at h
  obtain ⟨d', hd', hcost⟩ := Option.map_eq_some_iff.mp h
  refine ⟨d', hd', ?_⟩
  unfold ChargingData.cost
  rw [hcost]

/-- An answer in RESERVE mode: the account is the abstract one's after `reserve`. -/
theorem account_reserveMode {num : Nat} {c : UInt32} (hc : (getUnitCost net w u.ratingGroup).2 = c)
    (hd : w.chargingDatas.lookup u.ratingGroup = some d)
    (h : (reserveMode net num w s u).2.isSome) :
    (reserveMode net num w s u).1.account u.ratingGroup =
      (w.account u.ratingGroup).reserve c s.totalUsedUnit u.requestedVolume.toUInt32 := by
  obtain ⟨w', -, ⟨-, hmode⟩ | ⟨t, hq, hmode⟩⟩ := reserveMode_cases net num w s u hc <;>
    rw [hmode] at h ⊢
  · cases h
  · rw [account_grant, account_reserveQuota net (w := useQuota w.tick _ _ _) (d := d) hd hq,
      account_useQuota]
    rfl

theorem sendServiceUsageRequest_answered {sr : ServiceRating} (hnet : net w.exchanges = .answered) :
    sendServiceUsageRequest net w rg sr = (w.tick, handleSUR (w.chargingDatas.lookup rg) sr) := by
  unfold sendServiceUsageRequest
  rw [hnet]

theorem handleSUR_reserve (hcost : d.cost ≠ 0) (q : UInt32) :
    handleSUR (some d) { requestSubType := .reserve, monetaryQuota := q } =
      some ⟨buildTaffif d.unitCost, q / d.cost, q / d.cost * d.cost⟩ := by
  unfold handleSUR
  dsimp only
  rw [if_neg hcost]

theorem grant_answered {num : Nat} (hnet : net w.exchanges = .answered)
    (hd : w.chargingDatas.lookup u.ratingGroup = some d) (hcost : d.cost ≠ 0)
    (requestedQuota : UInt64) (terminate : Bool) :
    (grant net num w s u requestedQuota terminate).2.isSome := by
  unfold grant
  rw [sendServiceUsageRequest_answered net hnet, hd, handleSUR_reserve hcost]
  rfl

theorem reserveMode_answered (num : Nat) (s : Scan) (hnet : ∀ t, net t = .answered)
    (hd : w.chargingDatas.lookup u.ratingGroup = some d) (hcost : d.cost ≠ 0) :
    (reserveMode net num w s u).2.isSome := by
  obtain ⟨w', hkeep, ⟨hq, -⟩ | ⟨t, -, hmode⟩⟩ := reserveMode_cases net num w s u rfl
  · have hsome := reserveQuota_answered net
      (w := useQuota w.tick u.ratingGroup (getUnitCost net w u.ratingGroup).2 s.totalUsedUnit)
      (u.requestedVolume.toUInt32 * (getUnitCost net w u.ratingGroup).2).toUInt64 (hnet _) hd
    rw [hq] at hsome
    cases hsome
  · obtain ⟨d', hd', hcost'⟩ := lookup_of_tariff hd (hkeep.tariff u.ratingGroup)
    rw [hmode]
    exact grant_answered net (hnet _) hd' (hcost' ▸ hcost) _ t

/-- Settling gives the difference between price and reservation to the balance. -/
theorem settle_answered (p : UInt32) (hnet : net w.exchanges = .answered)
    (hd : w.chargingDatas.lookup rg = some d) :
    ∃ w' cca, settle net w rg p = (w', some cca) ∧
      (w'.account rg).quota = d.quota + (w.reserved rg - p.toUInt64.toInt64) ∧
      (w'.account rg).mode =
        if p.toUInt64.toInt64 < w.reserved rg then .reserve else w.ratingTypeOf rg := by
  unfold settle
  dsimp only
  split_ifs with hlt
  · have hccr : handleCCR d.quota (refundRequest (w.reserved rg - p.toUInt64.toInt64).toUInt64) =
        some (d.quota + (w.reserved rg - p.toUInt64.toInt64), {}) := by
      show some (_, _) = _
      rw [Int64.toInt64_toUInt64]
    refine ⟨_, _, sendAccountDebitRequest_answered net hnet hd hccr, ?_, ?_⟩
    · rw [account_putQuota (w := (w.setRatingType rg .reserve).tick) hd]
    · rw [account_putQuota (w := (w.setRatingType rg .reserve).tick) hd]
      show (w.setRatingType rg .reserve).ratingTypeOf rg = _
      rw [ratingTypeOf_setRatingType, if_pos rfl]
  · have hccr : handleCCR d.quota
        (terminationRequest (p.toUInt64.toInt64 - w.reserved rg).toUInt64) =
        some (d.quota + (w.reserved rg - p.toUInt64.toInt64), {}) := by
      show some (_, _) = _
      rw [Int64.toInt64_toUInt64]
      congr 2
      grind
    refine ⟨_, _, sendAccountDebitRequest_answered net hnet hd hccr, ?_, ?_⟩
    · rw [account_putQuota (w := w.tick) hd]
    · rw [account_putQuota (w := w.tick) hd]
      rfl

/-- DEBIT mode is the abstract account's `debit`. -/
theorem account_debitMode (hnet : ∀ t, net t = .answered)
    (hd : w.chargingDatas.lookup u.ratingGroup = some d) :
    (debitMode net w s u).1.account u.ratingGroup =
      (w.account u.ratingGroup).debit d.cost s.totalUsedUnit := by
  unfold debitMode
  dsimp only
  rw [sendServiceUsageRequest_answered net (hnet _), hd]
  obtain ⟨w', cca, hsettle, hquota, hmode⟩ := settle_answered net (w := w.tick)
    (s.totalUsedUnit * d.cost) (hnet _) hd
  have hsua : handleSUR (some d) { requestSubType := .debit, consumedUnits := s.totalUsedUnit } =
      some ⟨buildTaffif d.unitCost, 0, s.totalUsedUnit * d.cost⟩ := rfl
  rw [hsua]
  dsimp only
  rw [hsettle]
  dsimp only
  show (w'.setReserved u.ratingGroup 0).account u.ratingGroup = _
  rw [account_setReserved, if_pos rfl]
  dsimp only
  rw [hquota, hmode]
  unfold Account.debit
  rw [account_quota hd]
  rfl

theorem account_switchMode (w : World) (s : Scan) (u : MultipleUnitUsage) :
    (switchMode w s u).account u.ratingGroup =
      (w.account u.ratingGroup).switch s u.requestedVolume := by
  unfold switchMode Account.switch
  split_ifs
  · rw [account_setRatingType, account_setRatingType, if_pos rfl, if_pos rfl]
  · rw [account_setRatingType, if_pos rfl]
  · rfl

theorem account_serve (num : Nat) (s : Scan) (hnet : ∀ t, net t = .answered)
    (hd : w.chargingDatas.lookup u.ratingGroup = some d) (hcost : d.cost ≠ 0) :
    (serve net num w s u).1.account u.ratingGroup =
      (w.account u.ratingGroup).serve d.cost s.totalUsedUnit u.requestedVolume := by
  have hmode : (w.account u.ratingGroup).mode = w.ratingTypeOf u.ratingGroup := rfl
  unfold serve Account.serve
  rw [hmode]
  cases w.ratingTypeOf u.ratingGroup with
  | reserve =>
    dsimp only
    split_ifs
    · have hseen := getUnitCost_snd net hd hcost
      rw [if_pos (hnet _)] at hseen
      exact account_reserveMode net hseen hd (reserveMode_answered net num s hnet hd hcost)
    · rfl
  | debit => exact account_debitMode net hnet hd
  | aoc => rfl
  | release => rfl

/-- The account that the mode is read from: a rating group not seen before is in RESERVE
    mode. -/
def World.found (w : World) (rg : Int32) : Account := (w.findRatingGroup rg).account rg

theorem chargingDatas_findRatingGroup (w : World) (rg : Int32) :
    (w.findRatingGroup rg).chargingDatas = w.chargingDatas := by
  unfold World.findRatingGroup
  split_ifs <;> rfl

theorem chargingDatas_switchMode (w : World) (s : Scan) (u : MultipleUnitUsage) :
    (switchMode w s u).chargingDatas = w.chargingDatas := by
  unfold switchMode
  split_ifs <;> rfl

theorem exchanges_findRatingGroup (w : World) (rg : Int32) :
    (w.findRatingGroup rg).exchanges = w.exchanges := by
  unfold World.findRatingGroup
  split_ifs <;> rfl

theorem exchanges_switchMode (w : World) (s : Scan) (u : MultipleUnitUsage) :
    (switchMode w s u).exchanges = w.exchanges := by
  unfold switchMode
  split_ifs <;> rfl

/-- With every exchange answered, a turn does to its account what `Account.turn` does. -/
theorem account_unitUsage (triggers : List Trigger) (num : Nat) (hnet : ∀ t, net t = .answered)
    (hd : w.chargingDatas.lookup u.ratingGroup = some d) (hcost : d.cost ≠ 0) :
    (unitUsage net triggers num w u).1.account u.ratingGroup =
      (w.found u.ratingGroup).turn d.cost (scan triggers u.usedUnitContainer)
        u.requestedVolume := by
  unfold unitUsage Account.turn
  dsimp only
  split_ifs
  · rfl
  · have hd' : (switchMode (w.findRatingGroup u.ratingGroup) (scan triggers u.usedUnitContainer)
        u).chargingDatas.lookup u.ratingGroup = some d := by
      rw [chargingDatas_switchMode, chargingDatas_findRatingGroup, hd]
    rw [account_serve net num _ hnet hd' hcost, account_switchMode]
    rfl

end

end Free5gc.Chf.Charging
