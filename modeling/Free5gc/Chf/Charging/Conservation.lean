/-
  What online charging does with the money of a subscriber, over every sequence of charging
  data requests.

  A turn of `sessionChargingReservation` moves money between the balance and the reservation
  and takes the price of the used units from their sum (`money_unitUsage`). Units that are
  reported in RESERVE mode without a request for more are not priced at all: the turn ends
  before it looks at them. And what is granted is computed from what was requested, not from
  what the account could reserve.
-/
import Free5gc.Lib.Run
import Free5gc.Chf.Charging.Account

namespace Free5gc.Chf.Charging

open Free5gc.Lib

/-! ## What a unit usage reports -/

/-- A container under online charging. -/
def UsedUnitContainer.isOnline (c : UsedUnitContainer) : Bool :=
  c.quotaManagementIndicator == .onlineCharging

/-- Its volume, as the code reads it. -/
def UsedUnitContainer.online (c : UsedUnitContainer) : Nat :=
  if c.isOnline then c.totalVolume.toUInt32.toNat else 0

/-- The online used units of a unit usage. -/
def MultipleUnitUsage.reported (u : MultipleUnitUsage) : Nat :=
  (u.usedUnitContainer.map UsedUnitContainer.online).sum

/-- The online used units that a request reports for a rating group. -/
def ChargingDataRequest.reported (rg : Int32) (req : ChargingDataRequest) : Nat :=
  (req.multipleUnitUsage.map fun u => if u.ratingGroup = rg then u.reported else 0).sum

def isFinal (triggers : List Trigger) : Bool := triggers.any (·.triggerType == .final)

variable {u : MultipleUnitUsage} {cost : UInt32} {s : Scan} {rg : Int32} {w : World}
  {net : Nat → Fate} {num : Nat} {d : ChargingData} {info : MultipleUnitInformation}

theorem foldl_scanTrigger (triggers : List Trigger) (s : Scan) :
    triggers.foldl scanTrigger s = { s with finalSeen := s.finalSeen || isFinal triggers } := by
  have hstep : ∀ (s : Scan) (t : Trigger),
      scanTrigger s t = { s with finalSeen := s.finalSeen || t.triggerType == .final } := by
    intro s t
    unfold scanTrigger
    split <;> rename_i h
    · rw [h, beq_self_eq_true, Bool.or_true]
    · rw [beq_false_of_ne h, Bool.or_false]
  induction triggers generalizing s with
  | nil => rw [List.foldl_nil, isFinal, List.any_nil, Bool.or_false]
  | cons t ts ih =>
    rw [List.foldl_cons, ih, hstep, isFinal, isFinal, List.any_cons, Bool.or_assoc]

theorem scanContainer_online (triggers : List Trigger) (s : Scan) {c : UsedUnitContainer}
    (h : c.isOnline = true) :
    scanContainer triggers s c =
      { s with
        creditControl := true
        finalSeen := s.finalSeen || isFinal triggers
        totalUsedUnit := s.totalUsedUnit + c.totalVolume.toUInt32 } := by
  unfold scanContainer
  rw [beq_iff_eq.mp h]
  dsimp only
  rw [foldl_scanTrigger]

theorem scanContainer_other (triggers : List Trigger) (s : Scan) {c : UsedUnitContainer}
    (h : c.isOnline = false) :
    (scanContainer triggers s c).creditControl = s.creditControl ∧
      (scanContainer triggers s c).finalSeen = s.finalSeen ∧
      (scanContainer triggers s c).totalUsedUnit = s.totalUsedUnit := by
  unfold scanContainer
  unfold UsedUnitContainer.isOnline at h
  split <;> rename_i hc
  · exact ⟨rfl, rfl, rfl⟩
  · rw [hc] at h
    cases h
  · exact ⟨rfl, rfl, rfl⟩
  · exact ⟨rfl, rfl, rfl⟩

theorem foldl_scanContainer (triggers : List Trigger) (cs : List UsedUnitContainer) (s : Scan) :
    (cs.foldl (scanContainer triggers) s).creditControl =
        (s.creditControl || cs.any UsedUnitContainer.isOnline) ∧
      (cs.foldl (scanContainer triggers) s).finalSeen =
        (s.finalSeen || (cs.any UsedUnitContainer.isOnline && isFinal triggers)) ∧
      (cs.foldl (scanContainer triggers) s).totalUsedUnit =
        s.totalUsedUnit + UInt32.ofNat (cs.map UsedUnitContainer.online).sum := by
  induction cs generalizing s with
  | nil => simp
  | cons c cs ih =>
    obtain ⟨hcredit, hfinal, htotal⟩ := ih (scanContainer triggers s c)
    rw [List.foldl_cons, hcredit, hfinal, htotal, List.any_cons, List.map_cons, List.sum_cons,
      UInt32.ofNat_add, UsedUnitContainer.online]
    cases hc : c.isOnline
    · obtain ⟨h₁, h₂, h₃⟩ := scanContainer_other triggers s hc
      rw [h₁, h₂, h₃]
      simp
    · rw [scanContainer_online triggers s hc]
      refine ⟨by simp, ?_, ?_⟩
      · dsimp only
        cases s.finalSeen <;> cases isFinal triggers <;> simp
      · dsimp only
        rw [if_pos rfl, UInt32.ofNat_toNat, UInt32.add_assoc]

theorem totalUsedUnit_scan (triggers : List Trigger) (u : MultipleUnitUsage) :
    (scan triggers u.usedUnitContainer).totalUsedUnit = UInt32.ofNat u.reported := by
  obtain ⟨-, -, htotal⟩ := foldl_scanContainer triggers u.usedUnitContainer {}
  unfold scan
  rw [htotal]
  exact UInt32.zero_add _

theorem reported_of_not_creditControl {triggers : List Trigger}
    (h : (scan triggers u.usedUnitContainer).creditControl = false) : u.reported = 0 := by
  obtain ⟨hcredit, -, -⟩ := foldl_scanContainer triggers u.usedUnitContainer {}
  unfold scan at h
  rw [hcredit, Bool.false_or, List.any_eq_false] at h
  unfold MultipleUnitUsage.reported
  rw [List.sum_eq_zero_iff_forall_eq_nat]
  intro n hn
  obtain ⟨c, hc, rfl⟩ := List.mem_map.mp hn
  exact if_neg (h c hc)

theorem finalSeen_of_creditControl {triggers : List Trigger}
    (h : (scan triggers u.usedUnitContainer).creditControl = true) :
    (scan triggers u.usedUnitContainer).finalSeen = isFinal triggers := by
  obtain ⟨hcredit, hfinal, -⟩ := foldl_scanContainer triggers u.usedUnitContainer {}
  unfold scan at h ⊢
  rw [hcredit, Bool.false_or] at h
  rw [hfinal, h, Bool.false_or, Bool.true_and]

/-! ## Every reported unit is charged once -/

/-- A price that fits 32 bits is the product of the integers. -/
theorem price_ofNat {n : Nat} (h : n * cost.toNat < 2 ^ 32) :
    price cost (UInt32.ofNat n) = Int64.ofNat (n * cost.toNat) := by
  have hmul : UInt32.ofNat n * cost = UInt32.ofNat (n * cost.toNat) := by
    rw [UInt32.ofNat_mul, UInt32.ofNat_toNat]
  unfold price
  rw [hmul, UInt32.toUInt64_ofNat' h, UInt64.toInt64_ofNat']

theorem ofNat_mul_eq_zero (hcost : cost ≠ 0) {n : Nat} (h : n * cost.toNat < 2 ^ 32) :
    Int64.ofNat (n * cost.toNat) = 0 ↔ n = 0 := by
  have hpos : cost.toNat ≠ 0 := fun h0 => hcost (UInt32.toNat_inj.mp h0)
  constructor
  · intro h0
    have hint := congrArg Int64.toInt h0
    rw [Int64.toInt_ofNat_of_lt (by omega), Int64.toInt_zero] at hint
    have hmul : n * cost.toNat = 0 := by omega
    exact (Nat.mul_eq_zero.mp hmul).resolve_right hpos
  · rintro rfl
    rw [Nat.zero_mul]
    rfl

/-- Money leaves an account in RESERVE or DEBIT mode by the price of the used units, except in
    RESERVE mode without a request. -/
theorem money_serve {a : Account} (cost used : UInt32) {requested : Int32}
    (ha : a.mode = .reserve ∨ a.mode = .debit) :
    (a.serve cost used requested).money =
      if 0 < requested ∨ a.mode = .debit then a.money - price cost used else a.money := by
  unfold Account.serve
  rcases ha with hmode | hmode <;> rw [hmode] <;> dsimp only
  · split_ifs with hreq h h
    · exact a.money_reserve cost used _
    · exact absurd (Or.inl hreq) h
    · rcases h with h | h
      · exact absurd h hreq
      · cases h
    · rfl
  · rw [if_pos (Or.inr rfl)]
    exact a.money_debit cost used

theorem switch_mode (a : Account) (s : Scan) (requested : Int32) :
    (a.switch s requested).mode =
      if s.finalSeen then (if 0 < requested then .reserve else .debit) else a.mode := rfl

theorem money_turn {a : Account} (cost : UInt32) {requested : Int32}
    (ha : a.mode = .reserve ∨ a.mode = .debit) (hcredit : s.creditControl = true) :
    (a.turn cost s requested).money =
      if 0 < requested ∨ s.finalSeen = true ∨ a.mode = .debit then
        a.money - price cost s.totalUsedUnit
      else a.money := by
  have hmode : (a.switch s requested).mode = .reserve ∨ (a.switch s requested).mode = .debit := by
    rw [switch_mode]
    split_ifs
    · exact Or.inl rfl
    · exact Or.inr rfl
    · exact ha
  have hiff : (0 < requested ∨ (a.switch s requested).mode = .debit) ↔
      (0 < requested ∨ s.finalSeen = true ∨ a.mode = .debit) := by
    rw [switch_mode]
    split_ifs with hfinal hreq <;> simp_all
  unfold Account.turn
  rw [hcredit, Bool.not_true, if_neg Bool.false_ne_true, money_serve cost _ hmode,
    Account.money_switch]
  exact if_congr hiff rfl rfl

theorem account_findRatingGroup (w : World) (rg : Int32) :
    w.found rg =
      { w.account rg with
        mode := if rg ∈ w.ue.ratingGroups then w.ratingTypeOf rg else .reserve } := by
  unfold World.found World.findRatingGroup
  split_ifs with h
  · rfl
  · have hset := account_setRatingType w rg rg .reserve
    rw [if_pos rfl] at hset
    exact hset

/-- A unit usage of the rating group whose used units get priced: it has none, or it requests
    more, or it comes with FINAL, or the group is in DEBIT mode. -/
def Charged (rg : Int32) (triggers : List Trigger) (w : World) (u : MultipleUnitUsage) : Prop :=
  u.ratingGroup = rg →
    u.reported = 0 ∨ 0 < u.requestedVolume ∨ isFinal triggers = true ∨
      (rg ∈ w.ue.ratingGroups ∧ w.ratingTypeOf rg = .debit)

/-- The rating group has a document with a tariff of `cost`. -/
structure Served (rg : Int32) (cost : UInt32) (w : World) : Prop where
  typed : w.Typed
  doc : ∃ d, w.chargingDatas.lookup rg = some d ∧ d.cost = cost

theorem Served.keeps {x : Int32} {w' : World} (h : Served rg cost w) (hk : Keeps x w w') :
    Served rg cost w' := by
  obtain ⟨d, hd, hcost⟩ := h.doc
  obtain ⟨d', hd', hcost'⟩ := lookup_of_tariff hd (hk.tariff rg)
  exact ⟨hk.typed h.typed, d', hd', hcost'.trans hcost⟩

/-- From `w` to `w'` the money of the rating group fell by the price of `n` units. -/
def Paid (rg : Int32) (cost : UInt32) (w : World) (n : Nat) (w' : World) : Prop :=
  (w'.account rg).money + Int64.ofNat (n * cost.toNat) = (w.account rg).money

theorem Paid.refl (rg : Int32) (cost : UInt32) (w : World) : Paid rg cost w 0 w := by
  unfold Paid
  rw [Nat.zero_mul]
  exact Int64.add_zero _

theorem Paid.trans (w : World) (m : Nat) (w' : World) (n : Nat) (w'' : World)
    (h : Paid rg cost w m w') (h' : Paid rg cost w' n w'') : Paid rg cost w (m + n) w'' := by
  unfold Paid at *
  rw [Nat.add_mul, Int64.ofNat_add]
  grind

theorem found_mode (hw : w.Typed) (rg : Int32) :
    (w.found rg).mode = .reserve ∨ (w.found rg).mode = .debit := by
  rw [account_findRatingGroup]
  dsimp only
  split_ifs with h
  · exact hw rg h
  · exact Or.inl rfl

theorem found_debit_iff (w : World) (rg : Int32) :
    (w.found rg).mode = .debit ↔ rg ∈ w.ue.ratingGroups ∧ w.ratingTypeOf rg = .debit := by
  rw [account_findRatingGroup]
  dsimp only
  split_ifs with h <;> simp [h]

theorem found_money (w : World) (rg : Int32) : (w.found rg).money = (w.account rg).money := by
  rw [account_findRatingGroup]
  rfl

/-- A turn takes the price of the reported units from its account exactly when it is charged. -/
theorem paid_unitUsage_iff (hnet : ∀ t, net t = .answered) (hcost : cost ≠ 0)
    (triggers : List Trigger) (num : Nat) (hw : Served rg cost w) (hrg : u.ratingGroup = rg)
    (hfit : u.reported * cost.toNat < 2 ^ 32) :
    Paid rg cost w u.reported (unitUsage net triggers num w u).1 ↔ Charged rg triggers w u := by
  subst hrg
  obtain ⟨d, hd, rfl⟩ := hw.doc
  have hprice : price d.cost (scan triggers u.usedUnitContainer).totalUsedUnit =
      Int64.ofNat (u.reported * d.cost.toNat) := by
    rw [totalUsedUnit_scan, price_ofNat hfit]
  have hmoney := found_money w u.ratingGroup
  unfold Paid Charged
  rw [account_unitUsage net triggers num hnet hd hcost]
  cases hcredit : (scan triggers u.usedUnitContainer).creditControl with
  | false =>
    have hnone := reported_of_not_creditControl hcredit
    unfold Account.turn
    rw [hcredit, Bool.not_false, if_pos rfl, hmoney, hnone, Nat.zero_mul]
    exact ⟨fun _ _ => Or.inl rfl, fun _ => Int64.add_zero _⟩
  | true =>
    rw [money_turn d.cost (found_mode hw.typed u.ratingGroup) hcredit, hmoney, ← hprice,
      ← found_debit_iff, ← finalSeen_of_creditControl hcredit]
    split_ifs with h
    · exact ⟨fun _ _ => Or.inr h, fun _ => by grind⟩
    · -- nothing was taken, so the two sides agree on a price of 0 only
      have hzero : price d.cost (scan triggers u.usedUnitContainer).totalUsedUnit = 0 ↔
          u.reported = 0 := by
        rw [hprice, ofNat_mul_eq_zero hcost hfit]
      constructor
      · intro hpaid _
        exact Or.inl (hzero.mp (by grind))
      · intro hC
        rw [hzero.mpr ((hC rfl).resolve_right h)]
        exact Int64.add_zero _

/-! ## Runs -/

/-- One turn, as a step of the loop. -/
def turnStep (net : Nat → Fate) (triggers : List Trigger) (w : World)
    (e : MultipleUnitUsage × Nat) : World :=
  (unitUsage net triggers e.2 w e.1).1

/-- One call of `sessionChargingReservation`. -/
def call (net : Nat → Fate) (w : World) (req : ChargingDataRequest) : World :=
  (sessionChargingReservation net w req).1

theorem call_eq (net : Nat → Fate) (w : World) (req : ChargingDataRequest) :
    call net w req = req.multipleUnitUsage.zipIdx.foldl (turnStep net req.triggers) w := by
  unfold call sessionChargingReservation
  dsimp only
  exact (List.foldl_hom Prod.fst fun _ _ => rfl).symm

/-- Every turn of a call is charged for the rating group. -/
def ChargedCall (net : Nat → Fate) (rg : Int32) (w : World) (req : ChargingDataRequest) : Prop :=
  StepsMeet (turnStep net req.triggers) (fun w e => Charged rg req.triggers w e.1) w
    req.multipleUnitUsage.zipIdx

/-- The prices of what a request reports for the rating group fit 32 bits. -/
def Fits (rg : Int32) (cost : UInt32) (req : ChargingDataRequest) : Prop :=
  ∀ u ∈ req.multipleUnitUsage, u.ratingGroup = rg → u.reported * cost.toNat < 2 ^ 32

theorem paid_call (hnet : ∀ t, net t = .answered) (hcost : cost ≠ 0) {req : ChargingDataRequest}
    (hfit : Fits rg cost req) (hC : ChargedCall net rg w req) (hw : Served rg cost w) :
    Paid rg cost w (req.reported rg) (call net w req) ∧ Served rg cost (call net w req) := by
  have hsum : (req.multipleUnitUsage.zipIdx.map
      (fun e => if e.1.ratingGroup = rg then e.1.reported else 0)).sum = req.reported rg := by
    unfold ChargingDataRequest.reported
    conv_rhs => rw [← List.zipIdx_map_fst 0 req.multipleUnitUsage, List.map_map]
    rfl
  rw [call_eq, ← hsum]
  refine hC.sum (Paid.refl rg cost) Paid.trans (Served rg cost) _ ?_ hw
  intro w' e he hC' hw'
  have hkeep := keeps_unitUsage net req.triggers e.2 w' e.1
  refine ⟨?_, hw'.keeps hkeep⟩
  split_ifs with hrg
  · have hmem := List.fst_mem_of_mem_zipIdx he
    exact (paid_unitUsage_iff hnet hcost req.triggers e.2 hw' hrg (hfit e.1 hmem hrg)).mpr hC'
  · have hsame : ((turnStep net req.triggers w' e).account rg) = w'.account rg :=
      hkeep.account rg (Ne.symm hrg)
    unfold Paid
    rw [hsame, Nat.zero_mul]
    exact Int64.add_zero _

/-- Charging conserves money. Every exchange is answered, the tariff of the rating group is
    `cost` and the prices of what is reported fit 32 bits. After every number of calls, all
    charged for the rating group, balance, reservation and the price of all units reported so
    far add up to what balance and reservation were at the start, in the `int64` of the code. -/
theorem charging_conserves_money {net : Nat → Fate} (hnet : ∀ t, net t = .answered) {rg : Int32}
    {cost : UInt32} (hcost : 1 ≤ cost) {w : World} (hw : Served rg cost w)
    {reqs : List ChargingDataRequest} (hfit : ∀ req ∈ reqs, Fits rg cost req)
    (hC : StepsMeet (call net) (ChargedCall net rg) w reqs) :
    ∀ pre post, pre ++ post = reqs →
      Paid rg cost w (pre.map (ChargingDataRequest.reported rg)).sum (pre.foldl (call net) w) := by
  intro pre post hreqs
  subst hreqs
  have hne : cost ≠ 0 := by
    rintro rfl
    exact absurd hcost (by decide)
  have hpre := ((stepsMeet_append w pre post).mp hC).1
  refine (hpre.sum (Paid.refl rg cost) Paid.trans (Served rg cost) _ ?_ hw).1
  intro w' req hreq hC' hw'
  exact paid_call hnet hne (hfit req (List.mem_append_left post hreq)) hC' hw'

/-- A subscriber with a new context whose balance for rating group 1 is `quota`, at a tariff of
    2. -/
def subscriber (quota : Int64) : World where
  ue :=
    { ratingGroups := []
      ratingType := ∅
      reservedQuota := ∅
      unitCost := ∅
      acctRequestNum := ∅
      quotaValidityTime := 0
      volumeLimit := 0
      volumeLimitPDU := 0
      volumeThreshold := fun _ => 0 }
  chargingDatas := Finmap.singleton 1 ⟨quota, ['2']⟩
  exchanges := 0

/-- A unit usage of rating group 1 under online charging. -/
def usage (used : Int32) (requested : Option Int32) : MultipleUnitUsage :=
  { ratingGroup := 1, requestedUnit := requested, usedUnitContainer := [⟨.onlineCharging, used⟩] }

/-- Every exchange is answered. -/
def answered : Nat → Fate := fun _ => .answered

theorem served_subscriber (quota : Int64) : Served 1 2 (subscriber quota) := by
  have hcost : (buildTaffif ['2']).cost = 2 := by decide
  exact ⟨fun _ h => absurd h List.not_mem_nil, ⟨quota, ['2']⟩, rfl, hcost⟩

/-- An update that uses 5 units and requests 10, and a release that uses 3 more. -/
theorem charging_conserves_update_release :
    Paid 1 2 (subscriber 100) 8
      ([{ multipleUnitUsage := [usage 5 (some 10)] },
        { triggers := [⟨.final, .immediateReport, 0⟩]
          multipleUnitUsage := [usage 3 none] }].foldl (call answered) (subscriber 100)) := by
  refine charging_conserves_money (fun _ => rfl) (by decide) (served_subscriber 100) ?_ ?_
    _ [] (List.append_nil _)
  · unfold Fits
    decide
  · refine ⟨⟨fun _ => Or.inr (Or.inl (by decide)), trivial⟩, ⟨fun _ => ?_, trivial⟩, trivial⟩
    exact Or.inr (Or.inr (Or.inl (by decide)))

/-- An update in RESERVE mode that uses 5 units and requests none: nothing is charged. -/
theorem units_without_request_are_free :
    Served 1 2 (subscriber 100) ∧
      Fits 1 2 { multipleUnitUsage := [usage 5 none] } ∧
      ¬ Paid 1 2 (subscriber 100)
        (ChargingDataRequest.reported 1 { multipleUnitUsage := [usage 5 none] })
        (call answered (subscriber 100) { multipleUnitUsage := [usage 5 none] }) := by
  refine ⟨served_subscriber 100, by unfold Fits; decide, ?_⟩
  unfold Paid
  decide

/-! ## What is granted and what is reserved -/

/-- The units granted in an answer cost no more than what is reserved. -/
def WithinReservation (cost : UInt32) (w : World) (info : MultipleUnitInformation) : Prop :=
  ∀ granted, info.grantedUnit = some granted →
    granted.toInt * cost.toNat ≤ (w.reserved info.ratingGroup).toInt

/-- What is left of the reservation after the used units, together with what the account can
    add when nothing is left, pays for as many whole units as the price of the request buys.
    `seen` is the unit cost that the context works with. -/
def Covered (a : Account) (seen cost used requested : UInt32) : Prop :=
  let left := a.reserved - price seen used
  let wanted := requested * seen
  let worth : Int := (wanted.toNat / cost.toNat * cost.toNat : Nat)
  if left ≤ 0 then
    -left + price seen requested ≤ a.quota ∨ worth ≤ (left + a.quota).toInt
  else worth ≤ left.toInt

theorem toInt_price (cost units : UInt32) : (price cost units).toInt = (units * cost).toNat :=
  toInt_toInt64_toUInt64 (units * cost)

/-- The reservation after `reserve` pays for the units bought iff the account covers them. -/
theorem covered_iff (a : Account) (seen cost used requested : UInt32) :
    (((requested * seen).toNat / cost.toNat * cost.toNat : Nat) : Int) ≤
        (a.reserve seen used requested).reserved.toInt ↔
      Covered a seen cost used requested := by
  unfold Covered Account.reserve Account.topUp
  dsimp only
  by_cases hle : a.reserved - price seen used ≤ 0
  · rw [if_pos hle, if_pos hle]
    by_cases hwanted : -(a.reserved - price seen used) + price seen requested > a.quota
    · rw [if_pos hwanted]
      have hnot : ¬ -(a.reserved - price seen used) + price seen requested ≤ a.quota :=
        Int64.not_le.mpr hwanted
      exact (or_iff_right hnot).symm
    · -- the whole price was reserved
      rw [if_neg hwanted]
      have hall : a.reserved - price seen used +
          (-(a.reserved - price seen used) + price seen requested) = price seen requested := by
        grind
      rw [hall, toInt_price]
      have hdiv := Nat.div_mul_le_self (requested * seen).toNat cost.toNat
      exact ⟨fun _ => Or.inl (Int64.not_lt.mp hwanted), fun _ => by exact_mod_cast hdiv⟩
  · rw [if_neg hle, if_neg hle]

/-- The price of a request buys no more units than were requested. -/
theorem div_le_requested (requested : UInt32) {seen : UInt32} (h : seen = cost ∨ seen = 1) :
    (requested * seen).toNat / cost.toNat ≤ requested.toNat := by
  have hle : (requested * seen).toNat ≤ requested.toNat * seen.toNat := by
    rw [UInt32.toNat_mul]
    exact Nat.mod_le _ _
  rcases h with rfl | rfl
  · exact Nat.div_le_of_le_mul (by rw [Nat.mul_comm]; exact hle)
  · have hone : requested.toNat * (1 : UInt32).toNat = requested.toNat := Nat.mul_one _
    rw [hone] at hle
    exact (Nat.div_le_self _ _).trans hle

/-- An answer of `grant` carries the smaller of what the amount buys at the tariff and what
    was requested. -/
theorem grant_some {requestedQuota : UInt64} {t : Bool}
    (hd : w.chargingDatas.lookup u.ratingGroup = some d) (hcost : d.cost ≠ 0)
    (h : (grant net num w s u requestedQuota t).2 = some info) :
    info.ratingGroup = u.ratingGroup ∧
      info.grantedUnit = some (if requestedQuota.toUInt32 / d.cost ≤ u.requestedVolume.toUInt32
        then requestedQuota.toUInt32 / d.cost else u.requestedVolume.toUInt32).toInt32 := by
  unfold grant at h
  split at h
  · cases h
  · rename_i w' rsp hsend
    have hrsp := (answered_of_sendServiceUsageRequest net hsend).2
    rw [hd, handleSUR_reserve hcost] at hrsp
    cases hrsp
    cases h
    exact ⟨rfl, rfl⟩

/-- The units granted in RESERVE mode are what the price of the request buys. -/
theorem grantedUnit_reserveMode {c : UInt32} (hc : (getUnitCost net w u.ratingGroup).2 = c)
    (hseen : c = d.cost ∨ c = 1) (hd : w.chargingDatas.lookup u.ratingGroup = some d)
    (hcost : d.cost ≠ 0) (h : (reserveMode net num w s u).2 = some info) :
    info.ratingGroup = u.ratingGroup ∧
      info.grantedUnit = some (u.requestedVolume.toUInt32 * c / d.cost).toInt32 := by
  obtain ⟨w', hkeep, ⟨-, hmode⟩ | ⟨t, -, hmode⟩⟩ := reserveMode_cases net num w s u hc <;>
    rw [hmode] at h
  · cases h
  · obtain ⟨d', hd', hcost'⟩ := lookup_of_tariff hd (hkeep.tariff u.ratingGroup)
    have hgrant := grant_some hd' (hcost' ▸ hcost) h
    have hle : u.requestedVolume.toUInt32 * c / d.cost ≤ u.requestedVolume.toUInt32 := by
      rw [UInt32.le_iff_toNat_le, UInt32.toNat_div]
      exact div_le_requested _ hseen
    rw [hcost', UInt32.toUInt32_toUInt64, if_pos hle] at hgrant
    exact hgrant

/-- The unit cost that the context works with when the exchange for it has the given fate: that
    of the tariff, or 1. -/
def seenCost (fate : Fate) (cost : UInt32) : UInt32 := if fate = .answered then cost else 1

theorem seenCost_cases (fate : Fate) (cost : UInt32) :
    seenCost fate cost = cost ∨ seenCost fate cost = 1 := by
  unfold seenCost
  split_ifs
  · exact Or.inl rfl
  · exact Or.inr rfl

theorem reserveMode_within_iff {c : UInt32} (hc : (getUnitCost net w u.ratingGroup).2 = c)
    (hseen : c = d.cost ∨ c = 1) (hd : w.chargingDatas.lookup u.ratingGroup = some d)
    (hcost : d.cost ≠ 0) (hreq : 0 < u.requestedVolume)
    (h : (reserveMode net num w s u).2 = some info) :
    WithinReservation d.cost (reserveMode net num w s u).1 info ↔
      Covered (w.account u.ratingGroup) c d.cost s.totalUsedUnit u.requestedVolume.toUInt32 := by
  obtain ⟨hrg, hgranted⟩ := grantedUnit_reserveMode hc hseen hd hcost h
  have haccount := account_reserveMode net hc hd (by rw [h]; rfl)
  have hreserved : (reserveMode net num w s u).1.reserved u.ratingGroup =
      ((w.account u.ratingGroup).reserve c s.totalUsedUnit u.requestedVolume.toUInt32).reserved :=
    congrArg Account.reserved haccount
  -- fewer units than were requested, so the volume is not negative
  have hint : (u.requestedVolume.toUInt32 * c / d.cost).toInt32.toInt =
      ((u.requestedVolume.toUInt32 * c).toNat / d.cost.toNat : Nat) := by
    have hle := div_le_requested u.requestedVolume.toUInt32 hseen
    have hlt := toNat_toUInt32_of_pos hreq
    rw [toInt_toInt32_of_lt (by rw [UInt32.toNat_div]; omega), UInt32.toNat_div]
  unfold WithinReservation
  rw [hgranted, hrg, hreserved, ← covered_iff]
  constructor
  · intro hwithin
    have := hwithin _ rfl
    rw [hint] at this
    exact_mod_cast this
  · rintro hle _ ⟨rfl⟩
    rw [hint]
    exact_mod_cast hle

/-- Quota is granted within the reservation exactly when the account covers it: for every turn
    that answers in RESERVE mode, whatever becomes of its exchanges. -/
theorem grant_within_reservation_iff {net : Nat → Fate} {triggers : List Trigger} {num : Nat}
    {w : World} {u : MultipleUnitUsage} {d : ChargingData} {info : MultipleUnitInformation}
    (hd : w.chargingDatas.lookup u.ratingGroup = some d) (hcost : 1 ≤ d.cost)
    (hmode : (switchMode (w.findRatingGroup u.ratingGroup) (scan triggers u.usedUnitContainer)
      u).ratingTypeOf u.ratingGroup = .reserve)
    (h : (unitUsage net triggers num w u).2 = some info) :
    WithinReservation d.cost (unitUsage net triggers num w u).1 info ↔
      Covered (w.account u.ratingGroup) (seenCost (net w.exchanges) d.cost) d.cost
        (scan triggers u.usedUnitContainer).totalUsedUnit u.requestedVolume.toUInt32 := by
  have hne : d.cost ≠ 0 := by
    intro h0
    rw [h0] at hcost
    exact absurd hcost (by decide)
  have hcovered : Covered (w.account u.ratingGroup) (seenCost (net w.exchanges) d.cost) d.cost
        (scan triggers u.usedUnitContainer).totalUsedUnit u.requestedVolume.toUInt32 ↔
      Covered ((switchMode (w.findRatingGroup u.ratingGroup) (scan triggers u.usedUnitContainer)
          u).account u.ratingGroup) (seenCost (net w.exchanges) d.cost) d.cost
        (scan triggers u.usedUnitContainer).totalUsedUnit u.requestedVolume.toUInt32 := by
    have hfound := account_findRatingGroup w u.ratingGroup
    unfold World.found at hfound
    rw [account_switchMode, hfound]
    rfl
  have hd' : (switchMode (w.findRatingGroup u.ratingGroup) (scan triggers u.usedUnitContainer)
      u).chargingDatas.lookup u.ratingGroup = some d := by
    rw [chargingDatas_switchMode, chargingDatas_findRatingGroup, hd]
  have hseen := getUnitCost_snd net hd' hne
  rw [exchanges_switchMode, exchanges_findRatingGroup] at hseen
  unfold unitUsage at h ⊢
  dsimp only at h ⊢
  split_ifs at h ⊢ with hcredit
  unfold serve at h ⊢
  rw [hmode] at h ⊢
  dsimp only at h ⊢
  split_ifs at h ⊢ with hreq
  rw [hcovered]
  exact reserveMode_within_iff hseen (seenCost_cases _ _) hd' hne hreq h

/-- The answer to 10 units requested after 5 were used, out of a balance of 100: the price of
    both is debited, and the 10 units are reserved. -/
theorem grant_within_full_balance :
    WithinReservation (ChargingData.cost ⟨100, ['2']⟩)
      (unitUsage answered [] 0 (subscriber 100) (usage 5 (some 10))).1
      { ratingGroup := 1
        upfID := ""
        triggers := [⟨.quotaThreshold, .immediateReport, 0⟩, ⟨.quotaExhausted, .immediateReport, 0⟩]
        grantedUnit := some 10 } :=
  (grant_within_reservation_iff (d := ⟨100, ['2']⟩) rfl (by decide) (by decide) (by decide)).mpr
    (by unfold Covered; decide)

/-- With an empty balance nothing is reserved, and all that is requested is granted. -/
theorem empty_balance_is_granted :
    ∃ info, (unitUsage answered [] 0 (subscriber 0) (usage 0 (some 10))).2 = some info ∧
      (switchMode ((subscriber 0).findRatingGroup 1) (scan [] (usage 0 (some 10)).usedUnitContainer)
        (usage 0 (some 10))).ratingTypeOf 1 = .reserve ∧
      ¬ WithinReservation (ChargingData.cost ⟨0, ['2']⟩)
        (unitUsage answered [] 0 (subscriber 0) (usage 0 (some 10))).1 info := by
  refine ⟨{ ratingGroup := 1
            upfID := ""
            terminate := true
            triggers := [⟨.quotaExhausted, .immediateReport, 0⟩]
            grantedUnit := some 10 }, by decide, by decide, fun hwithin => ?_⟩
  exact absurd (hwithin 10 rfl) (by decide)

end Free5gc.Chf.Charging
