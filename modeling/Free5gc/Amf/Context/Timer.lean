/-
  Timers of NAS procedures (`internal/context/timer.go`, the same in AMF and SMF): a goroutine that
  waits for a tick or for `Stop` in one `select`, and calls back.

  The goroutine, the ticker and one call of `Stop` take their steps in any order. A `select` takes any
  channel that is ready; if none is, it waits, and then the first that becomes ready wakes it. `Stop`
  returns once its value is in the buffer and the channel is closed: it does not wait for the
  goroutine. `timer_silent_iff` says where the goroutine must be for a `Stop` to be the last of it, and
  for which retry numbers the calls are those that the comment of `NewTimer` promises.
-/
import Free5gc.Lib.Run
import Mathlib.Algebra.Ring.Int.Defs

namespace Free5gc.Amf.Context

open Free5gc.Lib

/-! ## The timer -/

/-- Where the goroutine is. -/
inductive Place where
  /-- before the `select` -/
  | selecting
  /-- in the `select`, with no channel ready -/
  | waiting
  /-- with a tick in hand, before the counter -/
  | ticked
  /-- in `expiredFunc` -/
  | expiring
  /-- in `cancelFunc` -/
  | cancelling
  | returned
  deriving DecidableEq, Repr

/-- Where the call of `Stop` is. -/
inductive StopCall where
  | notCalled
  | sent
  | returned
  deriving DecidableEq, Repr

inductive Call where
  | expired (expireTimes : Int)
  | cancel
  deriving DecidableEq, Repr

structure Timer where
  expireTimes : Int
  maxRetryTimes : Int
  /-- `ticker.C` holds a tick -/
  tick : Bool
  /-- `t.done` holds a value -/
  done : Bool
  closed : Bool
  place : Place
  stop : StopCall
  /-- the calls that have begun -/
  calls : List Call
  deriving DecidableEq, Repr

def int32 (n : Int) : Int := n.bmod (2 ^ 32)

def newTimer (maxRetryTimes : Int) : Timer where
  expireTimes := 0
  maxRetryTimes := int32 maxRetryTimes
  tick := false
  done := false
  closed := false
  place := .selecting
  stop := .notCalled
  calls := []

inductive Event where
  | tick
  | takeTick
  | takeDone
  | wait
  | call
  | finish
  | send
  | close
  deriving DecidableEq, Repr

/-- The counter is raised, and one of the functions is called with it. -/
def Timer.expire (t : Timer) : Timer :=
  let n := int32 (t.expireTimes + 1)
  if n > t.maxRetryTimes then
    { t with expireTimes := n, place := .cancelling, calls := t.calls ++ [.cancel] }
  else { t with expireTimes := n, place := .expiring, calls := t.calls ++ [.expired n] }

def step (t : Timer) : Event → Option Timer
  | .tick => if t.place = .waiting then some { t with place := .ticked } else some { t with tick := true }
  | .takeTick =>
    if t.place = .selecting ∧ t.tick then some { t with tick := false, place := .ticked } else none
  | .takeDone =>
    if t.place = .selecting ∧ (t.done ∨ t.closed) then
      some { t with done := false, place := .returned }
    else none
  | .wait =>
    if t.place = .selecting ∧ t.tick = false ∧ t.done = false ∧ t.closed = false then
      some { t with place := .waiting }
    else none
  | .call => if t.place = .ticked then some t.expire else none
  | .finish =>
    if t.place = .expiring then some { t with place := .selecting }
    else if t.place = .cancelling then some { t with place := .returned }
    else none
  | .send =>
    if t.stop = .notCalled then
      if t.place = .waiting then some { t with stop := .sent, place := .returned }
      else some { t with stop := .sent, done := true }
    else none
  | .close => if t.stop = .sent then some { t with stop := .returned, closed := true } else none

/-! ## What is promised -/

/-- If `Stop` is called at `t`, no call begins once it has returned, whatever else happens. -/
def SilentFrom (t : Timer) : Prop :=
  ∀ t₁ es t₂, step t .send = some t₁ → Run step t₁ es t₂ → t₂.stop = .returned →
    step t₂ .call = none

def firstCalls (k : Nat) : List Call := (List.range k).map fun i => .expired (i + 1 : Nat)

/-- At most `maxRetryTimes` calls of `expiredFunc`, with 1, 2, …, and at most one of `cancelFunc`,
    which is the last. -/
def Ordered (maxRetryTimes : Int) (calls : List Call) : Prop :=
  ∃ k ≤ maxRetryTimes.toNat, calls = firstCalls k ∨ calls = firstCalls k ++ [.cancel]

/-! ## One step -/

variable {t t' : Timer} {e : Event}

/-- The goroutine is past its last `select`. -/
def Over (t : Timer) : Prop := t.place = .cancelling ∨ t.place = .returned

/-- A call begins, or the counter and the calls stay as they are. -/
theorem step_cases (h : step t e = some t') :
    (t.place = .ticked ∧ t' = t.expire) ∨
      (t'.calls = t.calls ∧ t'.expireTimes = t.expireTimes ∧ t'.maxRetryTimes = t.maxRetryTimes ∧
        (Over t → Over t')) := by
  by_cases hcall : e = .call
  · subst hcall
    rw [step] at h
    split_ifs at h with hplace
    exact .inl ⟨hplace, (Option.some.inj h).symm⟩
  · refine .inr ?_
    unfold step at h
    unfold Over
    cases e <;> dsimp only at h <;> split_ifs at h <;> cases h <;> simp_all

/-! ## Stopping -/

theorem over_run {es : List Event} (h : Over t) (hrun : Run step t es t') : Over t' := by
  refine hrun.inv Over (fun t e t' _ hstep hover => ?_) h
  obtain ⟨hplace, -⟩ | ⟨-, -, -, hkeep⟩ := step_cases hstep
  · rcases hover with hover | hover <;> rw [hover] at hplace <;> cases hplace
  · exact hkeep hover

theorem silent_of_over (h : Over t) : step t .call = none := by
  rcases h with h | h <;> simp [step, h]

/-- Behind a `Stop`, the value and a tick are both ready, and the tick may be taken. -/
theorem run_from_selecting (h : t.place = .selecting) (hstop : t.stop = .sent) :
    ∃ es t', Run step t es t' ∧ t'.stop = .returned ∧ t'.place = .ticked := by
  have hnot : ¬ t.place = .waiting := by simp [h]
  exact ⟨[.close, .tick, .takeTick], _,
    .cons (if_pos hstop) (.cons (if_neg hnot) (.cons (if_pos ⟨h, rfl⟩) (.nil _))), rfl, rfl⟩

theorem not_silentFrom {es : List Event} {t₁ t₂ : Timer} (hsend : step t .send = some t₁)
    (hrun : Run step t₁ es t₂) (hstop : t₂.stop = .returned) (hplace : t₂.place = .ticked) :
    ¬ SilentFrom t := by
  intro h
  have hcall := h t₁ es t₂ hsend hrun hstop
  simp [step, hplace] at hcall

theorem silentFrom_iff (hstop : t.stop = .notCalled) :
    SilentFrom t ↔ t.place = .waiting ∨ Over t := by
  constructor
  · intro h
    by_contra hno
    obtain ⟨hwait, hover⟩ := not_or.mp hno
    have hsend : step t .send = some { t with stop := .sent, done := true } := by
      rw [step, if_pos hstop, if_neg hwait]
    match hplace : t.place with
    | .selecting =>
      obtain ⟨es, t', hrun, hret, hticked⟩ :=
        run_from_selecting (t := { t with stop := .sent, done := true }) hplace rfl
      exact not_silentFrom hsend hrun hret hticked h
    | .expiring =>
      obtain ⟨es, t', hrun, hret, hticked⟩ := run_from_selecting
        (t := { t with stop := .sent, done := true, place := .selecting }) rfl rfl
      have hfinish : step { t with stop := .sent, done := true } .finish =
          some { t with stop := .sent, done := true, place := .selecting } := if_pos hplace
      exact not_silentFrom hsend (.cons hfinish hrun) hret hticked h
    | .ticked =>
      have hclose : step { t with stop := .sent, done := true } .close =
          some { t with stop := .returned, done := true, closed := true } := by
        rw [step, if_pos rfl]
      exact not_silentFrom hsend (.cons hclose (.nil _)) rfl hplace h
    | .waiting => exact hwait hplace
    | .cancelling => exact hover (.inl hplace)
    | .returned => exact hover (.inr hplace)
  · intro h t₁ es t₂ hsend hrun _
    refine silent_of_over (over_run ?_ hrun)
    rw [step, if_pos hstop] at hsend
    split_ifs at hsend with hwait <;> cases hsend
    · exact .inr rfl
    · exact h.resolve_left hwait

/-! ## Counting -/

theorem firstCalls_succ (k : Nat) : firstCalls (k + 1) = firstCalls k ++ [.expired (k + 1 : Nat)] := by
  rw [firstCalls, List.range_succ, List.map_append]
  rfl

theorem int32_of_mem {n : Int} (hlo : -2 ^ 31 ≤ n) (hhi : n < 2 ^ 31) : int32 n = n :=
  Int.bmod_eq_of_le (by omega) (by omega)

theorem int32_lt (n : Int) : int32 n < 2 ^ 31 := by
  have := Int.bmod_lt (x := n) (m := 2 ^ 32) (by decide)
  unfold int32
  omega

/-- The calls so far, with the counter as long as there may be more. -/
structure Counted (m : Int) (t : Timer) : Prop where
  max : t.maxRetryTimes = m
  calls : ∃ k ≤ m.toNat, (t.calls = firstCalls k ∧ (Over t ∨ t.expireTimes = k)) ∨
    (t.calls = firstCalls k ++ [.cancel] ∧ Over t)

theorem counted_step {m : Int} (hm : m < 2 ^ 31 - 1) (h : Counted m t) (hstep : step t e = some t') :
    Counted m t' := by
  obtain ⟨k, hk, hcalls⟩ := h.calls
  obtain ⟨hplace, rfl⟩ | ⟨hc, hn, hmax, hover⟩ := step_cases hstep
  · have hnot : ¬ Over t := by simp [Over, hplace]
    obtain ⟨hcalls, hn⟩ | ⟨-, hover⟩ := hcalls
    · have hn := hn.resolve_left hnot
      have hnext : int32 (t.expireTimes + 1) = (k + 1 : Nat) := by
        rw [hn]
        exact int32_of_mem (by omega) (by omega)
      unfold Timer.expire
      dsimp only
      rw [hnext, h.max]
      split_ifs with hgt
      · exact ⟨rfl, k, hk, .inr ⟨by rw [hcalls], .inl rfl⟩⟩
      · exact ⟨rfl, k + 1, by omega, .inl ⟨by rw [hcalls, firstCalls_succ], .inr rfl⟩⟩
    · exact absurd hover hnot
  · refine ⟨hmax.trans h.max, k, hk, ?_⟩
    rw [hc, hn]
    exact hcalls.imp (fun ⟨h₁, h₂⟩ => ⟨h₁, h₂.imp_left hover⟩) fun ⟨h₁, h₂⟩ => ⟨h₁, hover h₂⟩

/-- The timer at its `select` for the next time, after `n` calls. -/
def afterCalls (maxRetryTimes : Int) (n : Nat) : Timer :=
  { newTimer maxRetryTimes with
    expireTimes := int32 n
    calls := (List.range n).map fun i => .expired (int32 (i + 1 : Nat)) }

theorem int32_succ (n : Nat) : int32 (int32 n + 1) = int32 (n + 1 : Nat) := by
  unfold int32
  rw [Int.bmod_add_bmod]
  rfl

theorem afterCalls_succ (maxRetryTimes : Int) (n : Nat) :
    afterCalls maxRetryTimes (n + 1) =
      let t := afterCalls maxRetryTimes n
      { t with
        tick := false
        expireTimes := int32 (t.expireTimes + 1)
        calls := t.calls ++ [.expired (int32 (t.expireTimes + 1))] } := by
  simp only [afterCalls, newTimer, int32_succ, List.range_succ, List.map_append, List.map_cons,
    List.map_nil]

/-- One turn of the goroutine, with a call of `expiredFunc`. -/
theorem run_turn (hplace : t.place = .selecting) (h : ¬ int32 (t.expireTimes + 1) > t.maxRetryTimes) :
    Run step t [.tick, .takeTick, .call, .finish]
      { t with
        tick := false
        expireTimes := int32 (t.expireTimes + 1)
        calls := t.calls ++ [.expired (int32 (t.expireTimes + 1))] } := by
  have htick : step t .tick = some { t with tick := true } := if_neg (by simp [hplace])
  have htake : step { t with tick := true } .takeTick = some { t with tick := false, place := .ticked } :=
    if_pos ⟨hplace, rfl⟩
  have hcall : step { t with tick := false, place := .ticked } .call =
      some { t with
        tick := false
        place := .expiring
        expireTimes := int32 (t.expireTimes + 1)
        calls := t.calls ++ [.expired (int32 (t.expireTimes + 1))] } := by
    rw [step, if_pos rfl, Timer.expire]
    exact congrArg some (if_neg h)
  refine .cons htick (.cons htake (.cons hcall (.cons ?_ (.nil _))))
  rw [step, if_pos rfl, hplace]

/-- As long as the counter is not above the maximum, there is another call. -/
theorem run_afterCalls {maxRetryTimes : Int} (n : Nat)
    (h : ∀ i, i ≤ n → ¬ int32 (i : Nat) > int32 maxRetryTimes) :
    ∃ es, Run step (newTimer maxRetryTimes) es (afterCalls maxRetryTimes n) := by
  induction n with
  | zero => exact ⟨[], .nil _⟩
  | succ n ih =>
    obtain ⟨es, hrun⟩ := ih fun i hi => h i (by omega)
    have hturn := run_turn (t := afterCalls maxRetryTimes n) rfl
      (by rw [afterCalls, int32_succ]; exact h (n + 1) (Nat.le_refl _))
    refine ⟨es ++ [.tick, .takeTick, .call, .finish], hrun.append ?_⟩
    rw [afterCalls_succ]
    exact hturn

/-- The calls are in order in every run. -/
theorem ordered_iff (maxRetryTimes : Int) :
    (∀ es t, Run step (newTimer maxRetryTimes) es t → Ordered maxRetryTimes t.calls) ↔
      int32 maxRetryTimes ≠ 2 ^ 31 - 1 ∧ int32 maxRetryTimes ≤ maxRetryTimes.toNat := by
  have hlt := int32_lt maxRetryTimes
  constructor
  · intro h
    -- one call more than there may be
    by_contra hno
    have hmore : ∀ i, i ≤ maxRetryTimes.toNat + 1 → ¬ int32 (i : Nat) > int32 maxRetryTimes := by
      intro i hi
      have := int32_lt i
      by_cases hmax : int32 maxRetryTimes = 2 ^ 31 - 1
      · omega
      · rw [int32_of_mem (by omega) (by omega)]
        omega
    obtain ⟨es, hrun⟩ := run_afterCalls (maxRetryTimes.toNat + 1) hmore
    obtain ⟨k, hk, hcalls⟩ := h es _ hrun
    rcases hcalls with hcalls | hcalls
    · have := congrArg List.length hcalls
      simp [afterCalls, firstCalls] at this
      omega
    · have : Call.cancel ∈ (afterCalls maxRetryTimes (maxRetryTimes.toNat + 1)).calls := by
        rw [hcalls]
        simp
      simp [afterCalls] at this
  · rintro ⟨hne, hle⟩ es t hrun
    obtain ⟨-, k, hk, hcalls⟩ := hrun.inv (Counted (int32 maxRetryTimes))
      (fun t e t' _ hstep h => counted_step (by omega) h hstep)
      ⟨rfl, 0, Nat.zero_le _, .inl ⟨rfl, .inr rfl⟩⟩
    exact ⟨k, by omega, hcalls.imp And.left And.left⟩

/-- A `Stop` is the last of the timer exactly if it finds the goroutine waiting in its `select` or past
    it, and the calls are in order in every run exactly if the retry number is a proper `int32`. -/
theorem timer_silent_iff (maxRetryTimes : Int) :
    (∀ es t, Run step (newTimer maxRetryTimes) es t → t.stop = .notCalled →
      (SilentFrom t ↔ t.place = .waiting ∨ Over t)) ∧
    ((∀ es t, Run step (newTimer maxRetryTimes) es t → Ordered maxRetryTimes t.calls) ↔
      int32 maxRetryTimes ≠ 2 ^ 31 - 1 ∧ int32 maxRetryTimes ≤ maxRetryTimes.toNat) :=
  ⟨fun _ _ _ hstop => silentFrom_iff hstop, ordered_iff maxRetryTimes⟩

/-- The goroutine has a tick in hand when `Stop` is called, and calls `expiredFunc` once it has
    returned. -/
theorem call_after_stop :
    ([.tick, .takeTick, .send, .close, .call] : List Event).foldlM step (newTimer 4) =
      some { newTimer 4 with
        expireTimes := 1, done := true, closed := true, place := .expiring, stop := .returned
        calls := [.expired 1] } := by
  decide +kernel

end Free5gc.Amf.Context
