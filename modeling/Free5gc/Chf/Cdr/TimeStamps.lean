/-
  The time stamps of charging records (`cdrConvert`): nine octets `YYMMDDhhmmssShhmm`, two decimal
  digits in each but the sign.

  The digits of the offset come from its seconds. Those of a negative one are taken from negative
  numbers, and the octet of the minutes holds digits of seconds (`timeStamp_faithful_iff`).
-/
import Free5gc.Chf.Cdr.Records

namespace Free5gc.Chf.Cdr

/-! ## Reading time stamps -/

/-- Two decimal digits in an octet. -/
def digitPair (b : UInt8) : Option Nat :=
  if b.toNat / 16 ≤ 9 ∧ b.toNat % 16 ≤ 9 then some (b.toNat / 16 * 10 + b.toNat % 16) else none

def signOf (b : UInt8) : Option Int :=
  if b = 0x2b then some 1 else if b = 0x2d then some (-1) else none

/-- What a time stamp says; the offset from UTC is in minutes. -/
structure Stamp where
  year : Nat
  month : Nat
  day : Nat
  hour : Nat
  minute : Nat
  second : Nat
  offset : Int
  deriving DecidableEq

def readOffset (sign hours minutes : UInt8) : Option Int := do
  let s ← signOf sign
  let h ← digitPair hours
  let m ← digitPair minutes
  some (s * (h * 60 + m))

def readStamp : List UInt8 → Option Stamp
  | [yy, mo, dd, hh, mi, ss, sign, zh, zm] => do
    let year ← digitPair yy
    let month ← digitPair mo
    let day ← digitPair dd
    let hour ← digitPair hh
    let minute ← digitPair mi
    let second ← digitPair ss
    let offset ← readOffset sign zh zm
    some ⟨year, month, day, hour, minute, second, offset⟩
  | _ => none

/-! ## Times -/

/-- A time on the clock, in a zone whose offset is a whole number of minutes between -12:00 and
    +14:00. -/
structure Time.OnClock (t : Time) : Prop where
  month : 1 ≤ t.month ∧ t.month ≤ 12
  day : 1 ≤ t.day ∧ t.day ≤ 31
  hour : 0 ≤ t.hour ∧ t.hour < 24
  minute : 0 ≤ t.minute ∧ t.minute < 60
  second : 0 ≤ t.second ∧ t.second < 60
  zone : -43200 ≤ t.zone ∧ t.zone ≤ 50400
  minutes : 60 ∣ t.zone

/-- The time stamp that a time should have: the year without its century. -/
def Time.stamp (t : Time) : Stamp :=
  ⟨(t.year % 100).toNat, t.month.toNat, t.day.toNat, t.hour.toNat, t.minute.toNat,
    t.second.toNat, t.zone / 60⟩

/-- The octets are read as the time they were made from. -/
def Faithful (t : Time) : Prop := readStamp (timeStampToCdr t) = some t.stamp

/-! ## Octets -/

theorem digitPair_bcd {n : Int} (hlo : 0 ≤ n) (hhi : n < 100) :
    digitPair (bcd (n.tdiv 10) (n.tmod 10)) = some n.toNat := by
  have hall : ∀ i : Fin 100, digitPair (bcd ((i.val : Int).tdiv 10) ((i.val : Int).tmod 10)) =
      some i.val := by decide +kernel
  obtain ⟨m, rfl⟩ := Int.eq_ofNat_of_zero_le hlo
  exact hall ⟨m, by omega⟩

/-- The remainder of a negative year has no digits, or wrong ones. -/
theorem digitPair_year_iff (y : Int) :
    digitPair (bcd ((y.tmod 100).tdiv 10) (y.tmod 10)) = some (y % 100).toNat ↔
      0 ≤ y ∨ 100 ∣ y := by
  have hall : ∀ i : Fin 100, i.val ≠ 0 →
      digitPair (bcd ((-(i.val : Int)).tdiv 10) ((-(i.val : Int)).tmod 10)) ≠
        some (100 - i.val) := by decide +kernel
  have hten : y.tmod 10 = (y.tmod 100).tmod 10 := (Int.tmod_tmod_of_dvd y (by decide)).symm
  rw [hten]
  rcases Int.lt_or_le y 0 with hneg | hnonneg
  · obtain ⟨m, rfl⟩ : ∃ m : Nat, y = -(m : Int) := ⟨(-y).toNat, by omega⟩
    have hmod : (-(m : Int)).tmod 100 = -((m % 100 : Nat) : Int) := by
      rw [Int.neg_tmod, Int.tmod_eq_emod_of_nonneg (by omega)]
      rfl
    rw [hmod]
    by_cases hzero : m % 100 = 0
    · have hdvd : (100 : Int) ∣ -(m : Int) := by omega
      rw [hzero, Int.emod_eq_zero_of_dvd hdvd]
      exact iff_of_true rfl (Or.inr hdvd)
    · have hyear : (-(m : Int) % 100).toNat = 100 - m % 100 := by omega
      rw [hyear]
      exact iff_of_false (hall ⟨m % 100, Nat.mod_lt _ (by decide)⟩ hzero) (by omega)
  · rw [Int.tmod_eq_emod_of_nonneg hnonneg]
    exact iff_of_true (digitPair_bcd (by omega) (by omega)) (Or.inl hnonneg)

/-- The offset that the last three octets are read as. -/
def offsetRead (zone : Int) : Option Int :=
  readOffset (if 0 ≤ zone then 0x2b else 0x2d)
    (bcd ((zone.tdiv 3600).tdiv 10) ((zone.tdiv 3600).tmod 10))
    (bcd ((zone.tmod 3600).tdiv 10) ((zone.tmod 3600).tmod 10))

/-- An octet with the digits of `60 * m` seconds says `m` only for no minutes at all. -/
theorem digitPair_minutes_iff : ∀ m : Fin 60,
    digitPair (bcd ((60 * (m.val : Int)).tdiv 10) ((60 * (m.val : Int)).tmod 10)) = some m.val ↔
      m.val = 0 := by decide +kernel

theorem digitPair_minutes_west : ∀ m : Fin 60, m.val ≠ 0 →
    digitPair (bcd ((-(60 * (m.val : Int))).tdiv 10) ((-(60 * (m.val : Int))).tmod 10)) ≠
      some m.val := by decide +kernel

theorem digitPair_hours_west : ∀ h : Fin 13, h.val ≠ 0 →
    digitPair (bcd ((-(h.val : Int)).tdiv 10) ((-(h.val : Int)).tmod 10)) = none := by
  decide +kernel

/-- Hours that are read fix the offset up to the minutes. -/
theorem readOffset_eq_iff {sign hours : UInt8} {s : Int} {h : Nat} (hs : signOf sign = some s)
    (hne : s ≠ 0) (hh : digitPair hours = some h) (minutes : UInt8) (m : Nat) :
    readOffset sign hours minutes = some (s * (h * 60 + m)) ↔ digitPair minutes = some m := by
  unfold readOffset
  rw [hs, hh]
  simp only [Option.bind_eq_bind, Option.bind_some]
  cases digitPair minutes with
  | none => simp
  | some k =>
    rw [Option.bind_some, Option.some_inj, Option.some_inj, Int.mul_eq_mul_left_iff hne]
    omega

theorem offsetRead_east {h m : Nat} (hh : h < 100) (hm : m < 60) :
    offsetRead (3600 * h + 60 * m) = some ((h : Int) * 60 + m) ↔ m = 0 := by
  have hdiv : (3600 * h + 60 * m : Int).tdiv 3600 = h := by
    rw [Int.tdiv_eq_ediv_of_nonneg (by omega)]
    omega
  have hmod : (3600 * h + 60 * m : Int).tmod 3600 = 60 * m := by
    rw [Int.tmod_eq_emod_of_nonneg (by omega)]
    omega
  have hsign : signOf 0x2b = some 1 := rfl
  have hread := readOffset_eq_iff hsign Int.one_ne_zero
    (digitPair_bcd (Int.natCast_nonneg h) (by omega))
  rw [offsetRead, if_pos (by omega), hdiv, hmod, ← digitPair_minutes_iff ⟨m, hm⟩, ← hread,
    Int.one_mul, Int.toNat_natCast]

theorem offsetRead_west {h m : Nat} (hh : h < 13) (hm : m < 60) (hne : 0 < h + m) :
    offsetRead (-(3600 * h + 60 * m)) ≠ some (-((h : Int) * 60 + m)) := by
  have hdiv : (-(3600 * h + 60 * m) : Int).tdiv 3600 = -h := by
    rw [Int.neg_tdiv, Int.tdiv_eq_ediv_of_nonneg (by omega)]
    omega
  have hmod : (-(3600 * h + 60 * m) : Int).tmod 3600 = -(60 * m) := by
    rw [Int.neg_tmod, Int.tmod_eq_emod_of_nonneg (by omega)]
    omega
  rw [offsetRead, if_neg (by omega), hdiv, hmod]
  by_cases hzero : h = 0
  · subst hzero
    have hsign : signOf 0x2d = some (-1) := rfl
    have hread := readOffset_eq_iff hsign (by decide)
      (digitPair_bcd (Int.le_refl 0) (by decide))
    have hpos : m ≠ 0 := by omega
    intro heq
    refine digitPair_minutes_west ⟨m, hm⟩ hpos ((hread _ m).mp ?_)
    rw [Int.neg_one_mul]
    exact heq
  · rw [readOffset, digitPair_hours_west ⟨h, hh⟩ hzero]
    exact Option.some_ne_none _ ∘ Eq.symm

/-- Only the octets of whole hours east of UTC say the offset. -/
theorem offsetRead_iff {zone : Int} (hlo : -43200 ≤ zone) (hhi : zone ≤ 50400) (h : 60 ∣ zone) :
    offsetRead zone = some (zone / 60) ↔ 0 ≤ zone ∧ 3600 ∣ zone := by
  -- hours and minutes of the amount
  obtain ⟨n, hn⟩ : ∃ n : Nat, zone.natAbs = 60 * n := by
    obtain ⟨m, rfl⟩ := h
    exact ⟨m.natAbs, by rw [Int.natAbs_mul]; rfl⟩
  have hm : n % 60 < 60 := Nat.mod_lt n (by decide)
  rcases Int.lt_or_le zone 0 with hneg | hnonneg
  · have hzone : zone = -(3600 * (n / 60 : Nat) + 60 * (n % 60 : Nat)) := by omega
    have hminutes : zone / 60 = -((n / 60 : Nat) * 60 + (n % 60 : Nat)) := by omega
    rw [hminutes, hzone]
    have hhours : n / 60 < 13 := by omega
    exact iff_of_false (offsetRead_west hhours hm (by omega)) (by omega)
  · have hzone : zone = 3600 * (n / 60 : Nat) + 60 * (n % 60 : Nat) := by omega
    have hminutes : zone / 60 = (n / 60 : Nat) * 60 + (n % 60 : Nat) := by omega
    have hhours : n / 60 < 100 := by omega
    rw [hminutes, hzone, offsetRead_east hhours hm]
    omega

/-! ## Time stamps -/

/-- A time stamp is read as its time exactly when the year is not before the first and the offset
    is a whole number of hours east of UTC. -/
theorem timeStamp_faithful_iff {t : Time} (h : t.OnClock) :
    Faithful t ↔ (0 ≤ t.year ∨ 100 ∣ t.year) ∧ 0 ≤ t.zone ∧ 3600 ∣ t.zone := by
  obtain ⟨hm, hd, hh, hmin, hs, hzone, hwhole⟩ := h
  have hmonth := digitPair_bcd (n := t.month) (by omega) (by omega)
  have hday := digitPair_bcd (n := t.day) (by omega) (by omega)
  have hhour := digitPair_bcd (n := t.hour) hh.1 (by omega)
  have hminute := digitPair_bcd (n := t.minute) hmin.1 (by omega)
  have hsecond := digitPair_bcd (n := t.second) hs.1 (by omega)
  rw [← digitPair_year_iff, ← offsetRead_iff hzone.1 hzone.2 hwhole]
  unfold Faithful timeStampToCdr readStamp Time.stamp
  dsimp only
  rw [hmonth, hday, hhour, hminute, hsecond]
  cases digitPair (bcd ((t.year.tmod 100).tdiv 10) (t.year.tmod 10)) with
  | none => simp
  | some year =>
    show (offsetRead t.zone >>= fun offset => some (Stamp.mk year _ _ _ _ _ offset)) = _ ↔ _
    cases offsetRead t.zone with
    | none => simp
    | some offset => simp

/-- 5 March 2024, 14:07:09. -/
def march (zone : Int) : Time := ⟨2024, 3, 5, 14, 7, 9, zone⟩

theorem march_onClock {zone : Int} (hzone : -43200 ≤ zone ∧ zone ≤ 50400) (hminutes : 60 ∣ zone) :
    (march zone).OnClock := by
  refine ⟨?_, ?_, ?_, ?_, ?_, hzone, hminutes⟩ <;> exact ⟨by simp [march], by simp [march]⟩

theorem march_faithful : Faithful (march 3600) :=
  (timeStamp_faithful_iff (march_onClock (by decide) (by decide))).mpr (by decide)

/-- At five hours and a half the minutes are written as 40, and west of UTC the hour is no digit. -/
theorem offset_misread :
    ((march 19800).OnClock ∧ ¬ Faithful (march 19800)) ∧
      (march (-18000)).OnClock ∧ ¬ Faithful (march (-18000)) := by
  have hhalf : readStamp (timeStampToCdr (march 19800)) = some ⟨24, 3, 5, 14, 7, 9, 340⟩ := by
    decide +kernel
  have hwest : readStamp (timeStampToCdr (march (-18000))) = none := by decide +kernel
  refine ⟨⟨march_onClock (by decide) (by decide), ?_⟩, march_onClock (by decide) (by decide), ?_⟩
  · intro h
    exact absurd (hhalf.symm.trans h) (by decide)
  · intro h
    cases hwest.symm.trans h

end Free5gc.Chf.Cdr
