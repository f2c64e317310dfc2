/-
  The ids of charging sessions (`ChargingDataCreate`, `NewCHFUe`).

  Requests to create a session are served at the same time. A schedule is a list of request
  numbers, each of which takes the next step of its request. A request looks its subscriber up,
  adds it if it is new, takes the subscriber's lock, and under it reads the shared counter for
  the session id, counts it up in `OpenCDR` and stores the record. The counter has a lock of its
  own, which the read does not take: requests for other subscribers can count in between.

  The id is the subscriber, the consumer's name and the counter without a separator. The counter
  grows from session to session of a subscriber, so two ids can only be equal when one name is
  another one with further digits (`append_toDigits_eq`).
-/
import Free5gc.Lib.Keys
import Free5gc.Lib.Run
import Free5gc.Lib.Int64
import Free5gc.Chf.Cdr.Records

namespace Free5gc.Chf.Cdr

open Free5gc.Lib

/-! ## Requests and steps -/

structure CreateRequest where
  supi : String
  data : ChargingDataRequest
  now : Time

/-- Where a request stands. `ue` is the position of its subscriber in the heap. -/
inductive Phase where
  | start
  | adding (ue : Nat)
  | found (ue : Nat)
  | named (ue : Nat) (sessionId : String)
  | opened (ue : Nat) (sessionId : String) (cdr : ChargingRecord)
  | done

/-- `ues` is the heap that `UePool` points into, `locked` the subscribers whose `CULock` is
    taken. `sessions` is the history of stored sessions that are not one-time events. -/
structure Sessions where
  localRecordSequenceNumber : UInt64
  uePool : GoMap String Nat
  ues : List ChfUe
  locked : Finset Nat
  phase : Nat → Phase
  sessions : List (String × String)

namespace Sessions

def init : Sessions where
  localRecordSequenceNumber := 0
  uePool := ∅
  ues := []
  locked := ∅
  phase := fun _ => .start
  sessions := []

/-- Request `i` goes on to a phase. -/
def goto (s : Sessions) (i : Nat) (p : Phase) : Sessions :=
  { s with phase := Function.update s.phase i p }

/-- The first step: the request is checked and its subscriber looked up. A new subscriber is
    made, but not yet in the pool. -/
def lookUp (s : Sessions) (i : Nat) (r : CreateRequest) : Sessions :=
  if r.data.nfConsumerIdentification.isNone then s.goto i .done
  else
    match s.uePool.lookup r.supi with
    | some u => s.goto i (.found u)
    | none =>
      if "imsi-".toList.isPrefixOf r.supi.toList then
        { s with ues := s.ues ++ [ChfUe.init r.supi] }.goto i (.adding s.ues.length)
      else s.goto i .done

def addChfUeToUePool (s : Sessions) (i : Nat) (r : CreateRequest) (u : Nat) : Sessions :=
  { s with uePool := s.uePool.insert r.supi u }.goto i (.found u)

/-- The subscriber's lock is taken and the session id made from the count at this time. -/
def nameSession (s : Sessions) (i : Nat) (r : CreateRequest) (u : Nat) : Sessions :=
  { s with locked := insert u s.locked }.goto i
    (.named u (newSessionId r.supi r.data s.localRecordSequenceNumber))

/-- `OpenCDR` with the lock of the counter. -/
def openRecord (chf : CHFContext) (s : Sessions) (i : Nat) (r : CreateRequest) (u : Nat)
    (sessionId : String) : Sessions :=
  let n := s.localRecordSequenceNumber + 1
  match openCDR chf r.supi r.data sessionId r.now n with
  | none => { s with localRecordSequenceNumber := n, locked := s.locked.erase u }.goto i .done
  | some cdr => { s with localRecordSequenceNumber := n }.goto i (.opened u sessionId cdr)

/-- The record is extended and stored, and the subscriber's lock given back. -/
def store (s : Sessions) (i : Nat) (r : CreateRequest) (u : Nat) (sessionId : String)
    (cdr : ChargingRecord) : Sessions :=
  let cdr := updateCDR cdr r.data
  let cdr := if r.data.oneTimeEvent then closeCDR cdr false else cdr
  { s with
    ues := s.ues.modify u (·.addRecord sessionId cdr)
    locked := s.locked.erase u
    sessions := if r.data.oneTimeEvent then s.sessions else s.sessions ++ [(r.supi, sessionId)] }.goto
      i .done

/-- The next step of request `i`; none while it waits for a lock, and when it is done. -/
def step (chf : CHFContext) (reqs : Nat → CreateRequest) (s : Sessions) (i : Nat) :
    Option Sessions :=
  match s.phase i with
  | .start => some (s.lookUp i (reqs i))
  | .adding u => some (s.addChfUeToUePool i (reqs i) u)
  | .found u => if u ∈ s.locked then none else some (s.nameSession i (reqs i) u)
  | .named u sessionId => some (openRecord chf s i (reqs i) u sessionId)
  | .opened u sessionId cdr => some (s.store i (reqs i) u sessionId cdr)
  | .done => none

end Sessions

/-! ## Session ids -/

/-- The id of the session that a consumer opens at a count. -/
def sessionKey (supi name : String) (n : Nat) : String := supi ++ name ++ toString n

/-- No name is another one with a number behind it that the counter can continue. -/
def Separable (names : Set String) : Prop :=
  ∀ name ∈ names, ∀ k, 0 < k → 10 * k < 2 ^ 63 → name ++ toString k ∉ names

theorem toList_toString (n : Nat) : (toString n).toList = Nat.toDigits 10 n := by
  simp [toString]

theorem newSessionId_eq {supi : String} {data : ChargingDataRequest} {consumer : NFIdentification}
    (hdata : data.nfConsumerIdentification = some consumer) (hone : data.oneTimeEvent = false)
    {n : UInt64} (hn : n.toNat < 2 ^ 63) :
    newSessionId supi data n = sessionKey supi consumer.nFName n.toNat := by
  unfold newSessionId sessionKey
  rw [hone, hdata, toInt_toInt64_of_lt hn]
  rfl

theorem sessionKey_ne_empty (supi name : String) (n : Nat) : sessionKey supi name n ≠ "" := by
  intro h
  have hlist := congrArg String.toList h
  simp only [sessionKey, String.toList_append, toList_toString, String.toList_empty,
    List.append_eq_nil_iff] at hlist
  exact Nat.toDigits_ne_nil hlist.2

/-- Keys of separable names with growing counts are distinct. -/
theorem sessionKey_ne {names : Set String} (hsep : Separable names) {supi name name' : String}
    (hname : name ∈ names) (hname' : name' ∈ names) {m n : Nat} (hlt : m < n) (hn : n < 2 ^ 63) :
    sessionKey supi name m ≠ sessionKey supi name' n := by
  intro h
  have hlist := congrArg String.toList h
  simp only [sessionKey, String.toList_append, toList_toString, List.append_assoc,
    List.append_cancel_left_eq] at hlist
  obtain ⟨k, hpos, hle, heq⟩ := append_toDigits_eq hlt hlist
  refine hsep name' hname' k hpos (by omega) ?_
  have hjoin : name = name' ++ toString k := by
    apply String.toList_inj.mp
    rw [heq, String.toList_append, toList_toString]
  rwa [← hjoin]

/-- A digit moves from the name to the count. -/
theorem sessionKey_shift (supi name : String) {k : Nat} (hk : 0 < k) :
    sessionKey supi (name ++ toString k) 0 = sessionKey supi name (10 * k) := by
  apply String.toList_inj.mp
  simp only [sessionKey, String.toList_append, toList_toString, List.append_assoc]
  rw [Nat.toDigits_append_toDigits (by decide) hk (by decide), Nat.add_zero]

/-! ## The invariant -/

/-- What a request may change without the others: the subscriber it makes or has locked. -/
def Phase.owns : Phase → Nat → Prop
  | .adding u, v | .named u _, v | .opened u _ _, v => u = v
  | .start, _ | .found _, _ | .done, _ => False

namespace Sessions

variable (names : Set String)

/-- The ids of a subscriber's sessions were made before the count reached `n`. -/
def Earlier (s : Sessions) (supi : String) (n : Nat) : Prop :=
  ∀ id, (supi, id) ∈ s.sessions → ∃ name ∈ names, ∃ m < n, id = sessionKey supi name m

/-- The id that a request has made before the count reached `bound`, and later than all
    others of its subscriber. -/
def Pending (s : Sessions) (r : CreateRequest) (id : String) (bound : Nat) : Prop :=
  if r.data.oneTimeEvent then id = ""
  else ∃ name ∈ names, ∃ n < bound, id = sessionKey r.supi name n ∧ Earlier names s r.supi n

/-- What holds of a request in a phase. -/
def Placed (s : Sessions) (r : CreateRequest) : Phase → Prop
  | .start | .done => True
  | .adding u =>
    (∃ ue, s.ues[u]? = some ue ∧ ue.supi = r.supi ∧ ue.cdr = ∅) ∧
      (∀ supi, s.uePool.lookup supi ≠ some u) ∧ r.data.nfConsumerIdentification.isSome
  | .found u => s.uePool.lookup r.supi = some u ∧ r.data.nfConsumerIdentification.isSome
  | .named u id =>
    s.uePool.lookup r.supi = some u ∧ u ∈ s.locked ∧
      Pending names s r id (s.localRecordSequenceNumber.toNat + 1)
  | .opened u id _ =>
    s.uePool.lookup r.supi = some u ∧ u ∈ s.locked ∧
      Pending names s r id s.localRecordSequenceNumber.toNat

/-- Requests whose consumers have a name in `names`. -/
def From (reqs : Nat → CreateRequest) : Prop :=
  ∀ i consumer, (reqs i).data.nfConsumerIdentification = some consumer → consumer.nFName ∈ names

structure Orderly (reqs : Nat → CreateRequest) (s : Sessions) : Prop where
  placed : ∀ i, Placed names s (reqs i) (s.phase i)
  owned : ∀ i j u, (s.phase i).owns u → (s.phase j).owns u → i = j
  pool : ∀ supi u, s.uePool.lookup supi = some u → ∃ ue, s.ues[u]? = some ue ∧ ue.supi = supi ∧
    ∀ id ∈ ue.cdr, id = "" ∨ (supi, id) ∈ s.sessions
  earlier : ∀ supi, Earlier names s supi s.localRecordSequenceNumber.toNat
  nodup : s.sessions.Nodup
  bound : s.localRecordSequenceNumber.toNat < 2 ^ 63

/-- A subscriber that is added is not in the pool by now, and the count fits an `int`. -/
def Calm (reqs : Nat → CreateRequest) (s : Sessions) (i : Nat) : Prop :=
  (∀ u, s.phase i = .adding u → (reqs i).supi ∉ s.uePool) ∧
    ∀ u id, s.phase i = .named u id → s.localRecordSequenceNumber.toNat + 1 < 2 ^ 63

/-- The ids that were stored for a subscriber are distinct, and the next record to be stored
    replaces none. -/
def Distinct (reqs : Nat → CreateRequest) (s : Sessions) : Prop :=
  s.sessions.Nodup ∧ ∀ i u id cdr ue, s.phase i = .opened u id cdr →
    (reqs i).data.oneTimeEvent = false → s.ues[u]? = some ue → id ∉ ue.cdr

variable {names} {reqs : Nat → CreateRequest} {s t : Sessions} {i : Nat} {p : Phase}

variable {r : CreateRequest} {q : Phase} {supi id : String} {u n : Nat} {cdr : ChargingRecord}
  {chf : CHFContext}

theorem phase_goto (s : Sessions) (i : Nat) (p : Phase) (j : Nat) :
    (s.goto i p).phase j = if j = i then p else s.phase j := Function.update_apply _ _ _ _

theorem placed_goto_iff : Placed names (s.goto i p) r q ↔ Placed names s r q := by
  cases q <;> exact Iff.rfl

section

variable (h : Orderly names reqs s)

include h

/-- One request goes on. The facts about the others have to hold in the new state. -/
theorem Orderly.goto (hphase : t.phase = s.phase)
    (hi : Placed names t (reqs i) p)
    (hothers : ∀ j, j ≠ i → Placed names s (reqs j) (s.phase j) →
      Placed names t (reqs j) (s.phase j))
    (howns : ∀ u, p.owns u → ∀ j, j ≠ i → ¬ (s.phase j).owns u)
    (hpool : ∀ supi u, t.uePool.lookup supi = some u → ∃ ue, t.ues[u]? = some ue ∧
      ue.supi = supi ∧ ∀ id ∈ ue.cdr, id = "" ∨ (supi, id) ∈ t.sessions)
    (hearlier : ∀ supi, Earlier names t supi t.localRecordSequenceNumber.toNat)
    (hnodup : t.sessions.Nodup) (hbound : t.localRecordSequenceNumber.toNat < 2 ^ 63) :
    Orderly names reqs (t.goto i p) where
  placed j := by
    rw [placed_goto_iff, phase_goto, hphase]
    split_ifs with hj
    · rw [hj]
      exact hi
    · exact hothers j hj (h.placed j)
  owned j k u hj hk := by
    rw [phase_goto, hphase] at hj hk
    split_ifs at hj hk with hji hki hki
    · rw [hji, hki]
    · exact absurd hk (howns u hj k hki)
    · exact absurd hj (howns u hk j hji)
    · exact h.owned j k u hj hk
  pool := hpool
  earlier := hearlier
  nodup := hnodup
  bound := hbound

/-- As `Orderly.goto`, when only the phase changes. -/
theorem Orderly.goto_self (hi : Placed names s (reqs i) p)
    (howns : ∀ u, p.owns u → ∀ j, j ≠ i → ¬ (s.phase j).owns u) : Orderly names reqs (s.goto i p) :=
  h.goto rfl hi (fun _ _ hj => hj) howns h.pool h.earlier h.nodup h.bound

/-! ## What the steps keep -/

theorem Orderly.pool_lt (hu : s.uePool.lookup supi = some u) :
    u < s.ues.length := by
  obtain ⟨ue, hue, -⟩ := h.pool supi u hu
  exact (List.getElem?_eq_some_iff.mp hue).1

theorem Orderly.owns_lt {j : Nat} (hown : (s.phase j).owns u) :
    u < s.ues.length := by
  have hj := h.placed j
  cases hp : s.phase j with
  | start | found v | done =>
    rw [hp] at hown
    exact hown.elim
  | adding v =>
    rw [hp] at hown hj
    obtain ⟨⟨ue, hue, -⟩, -⟩ := hj
    exact hown ▸ (List.getElem?_eq_some_iff.mp hue).1
  | named v id | opened v id cdr =>
    rw [hp] at hown hj
    exact hown ▸ h.pool_lt hj.1

theorem Orderly.lookUp : Orderly names reqs (s.lookUp i (reqs i)) := by
  have hdone : Orderly names reqs (s.goto i .done) := h.goto_self trivial (fun _ hu => hu.elim)
  unfold Sessions.lookUp
  split
  · exact hdone
  rename_i hnone
  have hconsumer :=
    Option.isSome_iff_ne_none.mpr (fun hn => hnone (Option.isNone_iff_eq_none.mpr hn))
  split
  · rename_i u hu
    exact h.goto_self ⟨hu, hconsumer⟩ (fun _ hv => hv.elim)
  split_ifs with himsi
  · -- the new subscriber is at a position that nobody uses
    have hkeep : ∀ {u : Nat} {ue : ChfUe}, s.ues[u]? = some ue →
        (s.ues ++ [ChfUe.init (reqs i).supi])[u]? = some ue := by
      intro u ue hue
      rw [List.getElem?_append_left (List.getElem?_eq_some_iff.mp hue).1, hue]
    refine h.goto rfl ?_ ?_ ?_ ?_ h.earlier h.nodup h.bound
    · refine ⟨⟨ChfUe.init (reqs i).supi, ?_, rfl, rfl⟩, ?_, hconsumer⟩
      · rw [List.getElem?_append_right (Nat.le_refl _), Nat.sub_self]
        rfl
      · intro supi hu
        exact absurd (h.pool_lt hu) (Nat.lt_irrefl _)
    · intro j _ hj
      cases hp : s.phase j with
      | adding u =>
        rw [hp] at hj
        obtain ⟨⟨ue, hue, hrest⟩, hfresh⟩ := hj
        exact ⟨⟨ue, hkeep hue, hrest⟩, hfresh⟩
      | start | found u | named u id | opened u id cdr | done =>
        rw [hp] at hj
        exact hj
    · rintro u rfl j _ hown
      exact absurd (h.owns_lt hown) (Nat.lt_irrefl _)
    · intro supi u hu
      obtain ⟨ue, hue, hrest⟩ := h.pool supi u hu
      exact ⟨ue, hkeep hue, hrest⟩
  · exact hdone

/-- `NewCHFUe` puts the subscriber into the pool, where it was not before. -/
theorem Orderly.addChfUeToUePool (hp : s.phase i = .adding u) (hnew : (reqs i).supi ∉ s.uePool) :
    Orderly names reqs (s.addChfUeToUePool i (reqs i) u) := by
  have hi := h.placed i
  rw [hp] at hi
  obtain ⟨⟨ue, hue, hsupi, hcdr⟩, hfresh, hconsumer⟩ := hi
  have hkeep : ∀ {supi v}, s.uePool.lookup supi = some v →
      (s.uePool.insert (reqs i).supi u).lookup supi = some v := by
    intro supi v hv
    rw [GoMap.lookup_insert_eq, if_neg, hv]
    rintro rfl
    exact hnew (Finmap.mem_of_lookup_eq_some hv)
  refine h.goto rfl ?_ ?_ (fun _ hv => hv.elim) ?_ h.earlier h.nodup h.bound
  · exact ⟨Finmap.lookup_insert _, hconsumer⟩
  · intro j hne hj
    cases hpj : s.phase j with
    | start | done => trivial
    | adding v =>
      rw [hpj] at hj
      refine ⟨hj.1, fun supi hv => ?_, hj.2.2⟩
      rw [GoMap.lookup_insert_eq] at hv
      split_ifs at hv
      · refine hne (h.owned j i v ?_ ?_)
        · rw [hpj]
          rfl
        · rw [hp]
          exact Option.some.inj hv
      · exact hj.2.1 supi hv
    | found v | named v id | opened v id cdr =>
      rw [hpj] at hj
      exact ⟨hkeep hj.1, hj.2⟩
  · intro supi v hv
    rw [GoMap.lookup_insert_eq] at hv
    split_ifs at hv with hs
    · obtain rfl := Option.some.inj hv
      refine ⟨ue, hue, hsupi.trans hs.symm, fun id hid => ?_⟩
      rw [hcdr] at hid
      exact absurd hid (Finmap.notMem_empty)
    · exact h.pool supi v hv

theorem Orderly.nameSession (hfrom : From names reqs) (hp : s.phase i = .found u)
    (hfree : u ∉ s.locked) :
    Orderly names reqs (s.nameSession i (reqs i) u) := by
  have hi := h.placed i
  rw [hp] at hi
  refine h.goto rfl ⟨hi.1, Finset.mem_insert_self u _, ?_⟩ ?_ ?_ h.pool h.earlier h.nodup h.bound
  · unfold Pending
    obtain ⟨consumer, hc⟩ := Option.isSome_iff_exists.mp hi.2
    split_ifs with hone
    · exact if_pos hone
    · refine ⟨consumer.nFName, hfrom i consumer hc, s.localRecordSequenceNumber.toNat,
        Nat.lt_succ_self _, ?_, h.earlier _⟩
      exact newSessionId_eq hc (by simpa using hone) h.bound
  · intro j _ hj
    cases hpj : s.phase j with
    | named v id | opened v id cdr =>
      rw [hpj] at hj
      exact ⟨hj.1, Finset.mem_insert_of_mem hj.2.1, hj.2.2⟩
    | start | adding v | found v | done =>
      rw [hpj] at hj
      exact hj
  · rintro v rfl j _ hown
    have hj := h.placed j
    cases hpj : s.phase j with
    | start | found v | done =>
      rw [hpj] at hown
      exact hown
    | adding v =>
      rw [hpj] at hown hj
      exact hj.2.1 _ (hown ▸ hi.1)
    | named v id | opened v id cdr =>
      rw [hpj] at hown hj
      exact hfree (hown ▸ hj.2.1)

end

theorem Pending.mono {m : Nat} (hle : m ≤ n) (h : Pending names s r id m) :
    Pending names s r id n := by
  unfold Pending at h ⊢
  split_ifs at h ⊢
  · exact h
  · obtain ⟨name, hname, k, hk, hrest⟩ := h
    exact ⟨name, hname, k, by omega, hrest⟩

/-- The others keep their places when the count goes up. -/
theorem Placed.count {n : UInt64} (hle : s.localRecordSequenceNumber.toNat ≤ n.toNat)
    (h : Placed names s r q) : Placed names { s with localRecordSequenceNumber := n } r q := by
  cases q with
  | start | adding v | found v | done => exact h
  | named v id => exact ⟨h.1, h.2.1, h.2.2.mono (Nat.succ_le_succ hle)⟩
  | opened v id cdr => exact ⟨h.1, h.2.1, h.2.2.mono hle⟩

/-- The others keep their places when a lock is given back that they do not hold. -/
theorem Placed.unlock (hne : ¬ q.owns u) (h : Placed names s r q) :
    Placed names { s with locked := s.locked.erase u } r q := by
  cases q with
  | start | adding v | found v | done => exact h
  | named v id | opened v id cdr =>
    exact ⟨h.1, Finset.mem_erase.mpr ⟨fun hv => hne hv, h.2.1⟩, h.2.2⟩

theorem Earlier.mono {m : Nat} (hle : m ≤ n) (h : Earlier names s supi m) :
    Earlier names s supi n := by
  intro id hid
  obtain ⟨name, hname, k, hk, heq⟩ := h id hid
  exact ⟨name, hname, k, by omega, heq⟩

/-- Nobody else owns what a request owns. -/
theorem Orderly.others (h : Orderly names reqs s) (hi : (s.phase i).owns u) (j : Nat) (hne : j ≠ i) :
    ¬ (s.phase j).owns u :=
  fun hj => hne (h.owned j i u hj hi)

theorem Orderly.openRecord (chf : CHFContext) (h : Orderly names reqs s)
    (hp : s.phase i = .named u id) (hlt : s.localRecordSequenceNumber.toNat + 1 < 2 ^ 63) :
    Orderly names reqs (Sessions.openRecord chf s i (reqs i) u id) := by
  have hi := h.placed i
  rw [hp] at hi
  have hcount :
      (s.localRecordSequenceNumber + 1).toNat = s.localRecordSequenceNumber.toNat + 1 := by
    rw [UInt64.toNat_add, UInt64.toNat_one]
    omega
  have hothers := h.others (i := i) (u := u) (by rw [hp]; rfl)
  have hle : s.localRecordSequenceNumber.toNat ≤ (s.localRecordSequenceNumber + 1).toNat := by omega
  have hlt' : (s.localRecordSequenceNumber + 1).toNat < 2 ^ 63 := by omega
  have hearlier := fun supi => (h.earlier supi).mono hle
  unfold Sessions.openRecord
  dsimp only
  split
  · refine h.goto rfl trivial ?_ (fun _ hv => hv.elim) h.pool hearlier h.nodup hlt'
    intro j hne hj
    exact (hj.count hle).unlock (hothers j hne)
  · refine h.goto rfl ⟨hi.1, hi.2.1, ?_⟩ (fun j _ hj => hj.count hle) ?_ h.pool hearlier h.nodup
      hlt'
    · rw [hcount]
      exact hi.2.2
    · rintro v rfl j hne
      exact hothers j hne

/-- The id of a record that is about to be stored is new. -/
theorem Pending.notMem (hsep : Separable names) (hn : n ≤ 2 ^ 63)
    (hone : r.data.oneTimeEvent = false) (h : Pending names s r id n) :
    (r.supi, id) ∉ s.sessions := by
  unfold Pending at h
  rw [if_neg (by simp [hone])] at h
  obtain ⟨name, hname, k, hk, rfl, hearlier⟩ := h
  intro hmem
  obtain ⟨name', hname', m, hm, heq⟩ := hearlier _ hmem
  exact sessionKey_ne hsep hname' hname hm (by omega) heq.symm

theorem Pending.of_sessions (hmem : ∀ x, (r.supi, x) ∈ t.sessions → (r.supi, x) ∈ s.sessions)
    (h : Pending names s r id n) : Pending names t r id n := by
  unfold Pending at h ⊢
  split_ifs at h ⊢
  · exact h
  · obtain ⟨name, hname, k, hk, heq, hearlier⟩ := h
    exact ⟨name, hname, k, hk, heq, fun x hx => hearlier x (hmem x hx)⟩

theorem Pending.key (hone : r.data.oneTimeEvent = false) (h : Pending names s r id n) :
    ∃ name ∈ names, ∃ m < n, id = sessionKey r.supi name m := by
  unfold Pending at h
  rw [if_neg (by simp [hone])] at h
  obtain ⟨name, hname, k, hk, heq, -⟩ := h
  exact ⟨name, hname, k, hk, heq⟩

theorem mem_sessions_store {e : String × String} :
    e ∈ (s.store i r u id cdr).sessions ↔
      e ∈ s.sessions ∨ r.data.oneTimeEvent = false ∧ e = (r.supi, id) := by
  show e ∈ (if r.data.oneTimeEvent then s.sessions else s.sessions ++ [(r.supi, id)]) ↔ _
  split_ifs with hone
  · simp [hone]
  · simp [hone]

/-- The subscriber of a stored record gets its session, the others keep theirs. -/
theorem Orderly.pool_store (h : Orderly names reqs s) (hu : s.uePool.lookup r.supi = some u)
    (hpending : Pending names s r id s.localRecordSequenceNumber.toNat) (supi : String) (v : Nat)
    (hv : s.uePool.lookup supi = some v) :
    ∃ ue, (s.store i r u id cdr).ues[v]? = some ue ∧ ue.supi = supi ∧
      ∀ x ∈ ue.cdr, x = "" ∨ (supi, x) ∈ (s.store i r u id cdr).sessions := by
  obtain ⟨ue, hue, hsupi, hcdr⟩ := h.pool supi v hv
  have hold : ∀ x ∈ ue.cdr, x = "" ∨ (supi, x) ∈ (s.store i r u id cdr).sessions :=
    fun x hx => (hcdr x hx).imp_right fun hmem => mem_sessions_store.mpr (Or.inl hmem)
  have hnew : r.data.oneTimeEvent = false → (r.supi, id) ∈ (s.store i r u id cdr).sessions :=
    fun hone => mem_sessions_store.mpr (Or.inr ⟨hone, rfl⟩)
  unfold Sessions.store Sessions.goto
  dsimp only
  by_cases hvu : v = u
  · subst hvu
    -- the subscriber at a position is the one whose request leads to it
    obtain ⟨ue', hue', hsupi', -⟩ := h.pool _ _ hu
    obtain rfl : ue = ue' := Option.some.inj (hue.symm.trans hue')
    obtain rfl : supi = r.supi := hsupi.symm.trans hsupi'
    rw [List.getElem?_modify_eq, hue]
    refine ⟨_, rfl, hsupi, fun x hx => ?_⟩
    rcases (Finmap.mem_insert.mp hx) with rfl | hx'
    · by_cases hone : r.data.oneTimeEvent
      · unfold Pending at hpending
        rw [if_pos hone] at hpending
        exact Or.inl hpending
      · exact Or.inr (hnew (by simpa using hone))
    · exact hold x hx'
  · refine ⟨ue, ?_, hsupi, hold⟩
    rw [List.getElem?_modify_ne _ _ (fun huv => hvu huv.symm), hue]

theorem Orderly.store (hsep : Separable names) (h : Orderly names reqs s)
    (hp : s.phase i = .opened u id cdr) : Orderly names reqs (s.store i (reqs i) u id cdr) := by
  have hi := h.placed i
  rw [hp] at hi
  obtain ⟨hu, hlocked, hpending⟩ := hi
  have hothers := h.others (i := i) (u := u) (by rw [hp]; rfl)
  refine h.goto rfl trivial ?_ (fun _ hv => hv.elim) ?_ ?_ ?_ h.bound
  · intro j hne hj
    have hnot := hothers j hne
    -- the sessions of another subscriber are the same
    have hsame : ∀ v, s.uePool.lookup (reqs j).supi = some v → v ≠ u → ∀ x,
        ((reqs j).supi, x) ∈ (s.store i (reqs i) u id cdr).sessions →
          ((reqs j).supi, x) ∈ s.sessions := by
      intro v hv hvu x hx
      rcases mem_sessions_store.mp hx with hold | ⟨-, hnew⟩
      · exact hold
      · rw [(Prod.mk.inj hnew).1, hu] at hv
        exact absurd (Option.some.inj hv).symm hvu
    cases hpj : s.phase j with
    | start | found v | done =>
      rw [hpj] at hj
      exact hj
    | adding v =>
      rw [hpj] at hj hnot
      obtain ⟨⟨ue, hue, hrest⟩, hfresh⟩ := hj
      refine ⟨⟨ue, ?_, hrest⟩, hfresh⟩
      rw [List.getElem?_modify_ne _ _ (fun huv => hnot huv.symm), hue]
    | named v name | opened v name cdr =>
      rw [hpj] at hj hnot
      refine ⟨hj.1, Finset.mem_erase.mpr ⟨hnot, hj.2.1⟩, ?_⟩
      exact hj.2.2.of_sessions (hsame v hj.1 hnot)
  · exact h.pool_store (i := i) hu hpending
  · intro supi x hx
    have hmem : (supi, x) ∈ (s.store i (reqs i) u id cdr).sessions := hx
    rcases mem_sessions_store.mp hmem with hold | ⟨hone, hnew⟩
    · exact h.earlier supi x hold
    · obtain ⟨rfl, rfl⟩ := Prod.mk.inj hnew
      exact hpending.key hone
  · show (if (reqs i).data.oneTimeEvent then s.sessions
      else s.sessions ++ [((reqs i).supi, id)]).Nodup
    split_ifs with hone
    · exact h.nodup
    · have hone' : (reqs i).data.oneTimeEvent = false := by simpa using hone
      have hnew := hpending.notMem hsep (Nat.le_of_lt h.bound) hone'
      rw [← List.concat_eq_append]
      exact h.nodup.concat hnew

theorem Orderly.step (chf : CHFContext) (hsep : Separable names) (hfrom : From names reqs)
    (hcalm : Calm reqs s i) (hstep : step chf reqs s i = some t) (h : Orderly names reqs s) :
    Orderly names reqs t := by
  unfold Sessions.step at hstep
  cases hp : s.phase i with
  | start =>
    rw [hp] at hstep
    obtain rfl := Option.some.inj hstep
    exact h.lookUp
  | adding u =>
    rw [hp] at hstep
    obtain rfl := Option.some.inj hstep
    exact h.addChfUeToUePool hp (hcalm.1 u hp)
  | found u =>
    rw [hp] at hstep
    dsimp only at hstep
    split_ifs at hstep with hlocked
    obtain rfl := Option.some.inj hstep
    exact h.nameSession hfrom hp hlocked
  | named u id =>
    rw [hp] at hstep
    obtain rfl := Option.some.inj hstep
    exact h.openRecord chf hp (hcalm.2 u id hp)
  | opened u id cdr =>
    rw [hp] at hstep
    obtain rfl := Option.some.inj hstep
    exact h.store hsep hp
  | done =>
    rw [hp] at hstep
    exact absurd hstep (Option.some_ne_none t).symm

theorem orderly_init (names : Set String) (reqs : Nat → CreateRequest) :
    Orderly names reqs init where
  placed _ := trivial
  owned _ _ _ hi := hi.elim
  pool supi u hu := by
    rw [show init.uePool = ∅ from rfl, Finmap.lookup_empty] at hu
    exact absurd hu (Option.some_ne_none u).symm
  earlier _ _ hid := absurd hid List.not_mem_nil
  nodup := List.nodup_nil
  bound := by decide

theorem Orderly.distinct (hsep : Separable names) (h : Orderly names reqs s) : s.Distinct reqs := by
  refine ⟨h.nodup, ?_⟩
  intro i u id cdr ue hp hone hue hid
  have hi := h.placed i
  rw [hp] at hi
  obtain ⟨hu, -, hpending⟩ := hi
  obtain ⟨ue', hue', -, hcdr⟩ := h.pool _ u hu
  obtain rfl : ue = ue' := Option.some.inj (hue.symm.trans hue')
  rcases hcdr id hid with hempty | hmem
  · obtain ⟨name, -, n, -, hkey⟩ := hpending.key hone
    exact sessionKey_ne_empty _ _ _ (hkey.symm.trans hempty)
  · exact hpending.notMem hsep (Nat.le_of_lt h.bound) hone hmem

/-! ## Requests served one after the other -/

/-- A request that opens a session. -/
structure Plain (chf : CHFContext) (r : CreateRequest) : Prop where
  oneTimeEvent : r.data.oneTimeEvent = false
  consumer : r.data.nfConsumerIdentification.isSome
  imsi : "imsi-".toList.isPrefixOf r.supi.toList
  opens : ∀ id n, (openCDR chf r.supi r.data id r.now n).isSome

/-- Request `i` alone is served from `s` to `t`. -/
structure Served (chf : CHFContext) (reqs : Nat → CreateRequest) (i : Nat) (s t : Sessions) :
    Prop where
  run : ∃ is, Run (Sessions.step chf reqs) s is t ∧
    RunMeets (Sessions.step chf reqs) (Calm reqs) s is
  count : t.localRecordSequenceNumber = s.localRecordSequenceNumber + 1
  locked : t.locked = ∅
  phase : ∀ j, j ≠ i → t.phase j = s.phase j
  sessions : t.sessions = s.sessions ++
    [((reqs i).supi, newSessionId (reqs i).supi (reqs i).data s.localRecordSequenceNumber)]

/-- A step before a request is served, which changes nothing that the others see. -/
theorem Served.cons {s' : Sessions} (hcalm : Calm reqs s i)
    (hstep : Sessions.step chf reqs s i = some s')
    (hcount : s'.localRecordSequenceNumber = s.localRecordSequenceNumber)
    (hphase : ∀ j, j ≠ i → s'.phase j = s.phase j) (hsessions : s'.sessions = s.sessions)
    (h : Served chf reqs i s' t) : Served chf reqs i s t where
  run := by
    obtain ⟨is, hrun, hmeets⟩ := h.run
    exact ⟨i :: is, Run.cons hstep hrun, RunMeets.cons hcalm hstep hmeets⟩
  count := by rw [h.count, hcount]
  locked := h.locked
  phase j hj := (h.phase j hj).trans (hphase j hj)
  sessions := by rw [h.sessions, hsessions, hcount]

theorem phase_goto_of_ne {j : Nat} (hj : j ≠ i) : (s.goto i p).phase j = s.phase j := by
  rw [phase_goto, if_neg hj]

theorem phase_goto_self : (s.goto i p).phase i = p := by
  rw [phase_goto, if_pos rfl]

theorem exists_served_opened (chf : CHFContext) (hplain : Plain chf (reqs i))
    (hlocked : s.locked = {u}) (hp : s.phase i = .opened u id cdr) :
    ∃ t, Sessions.step chf reqs s i = some t ∧ Calm reqs s i ∧
      t.localRecordSequenceNumber = s.localRecordSequenceNumber ∧ t.locked = ∅ ∧
        (∀ j, j ≠ i → t.phase j = s.phase j) ∧
        t.sessions = s.sessions ++ [((reqs i).supi, id)] := by
  refine ⟨s.store i (reqs i) u id cdr, ?_, ⟨by simp [hp], by simp [hp]⟩, rfl, ?_,
    fun j hj => phase_goto_of_ne hj, ?_⟩
  · unfold Sessions.step
    rw [hp]
  · show s.locked.erase u = ∅
    rw [hlocked, Finset.erase_singleton]
  · exact if_neg (by simp [hplain.oneTimeEvent])

theorem exists_served_named (hplain : Plain chf (reqs i))
    (hlt : s.localRecordSequenceNumber.toNat + 1 < 2 ^ 63) (hlocked : s.locked = {u})
    (hp : s.phase i = .named u
      (newSessionId (reqs i).supi (reqs i).data s.localRecordSequenceNumber)) :
    ∃ t, Served chf reqs i s t := by
  obtain ⟨cdr, hcdr⟩ := Option.isSome_iff_exists.mp
    (hplain.opens (newSessionId (reqs i).supi (reqs i).data s.localRecordSequenceNumber)
      (s.localRecordSequenceNumber + 1))
  have hstep : Sessions.step chf reqs s i = some
      ({ s with localRecordSequenceNumber := s.localRecordSequenceNumber + 1 }.goto i (.opened u
        (newSessionId (reqs i).supi (reqs i).data s.localRecordSequenceNumber) cdr)) := by
    unfold Sessions.step Sessions.openRecord
    rw [hp]
    dsimp only
    rw [hcdr]
  obtain ⟨t, hstep', hcalm, hcount, hfree, hphase, hsessions⟩ :=
    exists_served_opened chf hplain
      (s := { s with localRecordSequenceNumber := s.localRecordSequenceNumber + 1 }.goto i
        (.opened u (newSessionId (reqs i).supi (reqs i).data s.localRecordSequenceNumber) cdr))
      hlocked phase_goto_self
  refine ⟨t, ⟨[i, i], Run.cons hstep (Run.cons hstep' (Run.nil t)), ?_⟩, hcount, hfree, ?_,
    hsessions⟩
  · refine RunMeets.cons ⟨by simp [hp], fun _ _ _ => hlt⟩ hstep (RunMeets.cons hcalm hstep' ?_)
    exact trivial
  · exact fun j hj => (hphase j hj).trans (phase_goto_of_ne hj)

theorem exists_served_found (hplain : Plain chf (reqs i))
    (hlt : s.localRecordSequenceNumber.toNat + 1 < 2 ^ 63) (hlocked : s.locked = ∅)
    (hp : s.phase i = .found u) : ∃ t, Served chf reqs i s t := by
  have hstep : Sessions.step chf reqs s i = some (s.nameSession i (reqs i) u) := by
    unfold Sessions.step
    rw [hp]
    exact if_neg (by simp [hlocked])
  have hlocked' : (s.nameSession i (reqs i) u).locked = {u} := by
    show insert u s.locked = {u}
    rw [hlocked, insert_empty_eq]
  obtain ⟨t, ht⟩ := exists_served_named hplain (s := s.nameSession i (reqs i) u) hlt hlocked'
    phase_goto_self
  refine ⟨t, ht.cons ⟨?_, ?_⟩ hstep rfl (fun j hj => phase_goto_of_ne hj) rfl⟩ <;> simp [hp]

theorem exists_served_adding (hplain : Plain chf (reqs i))
    (hlt : s.localRecordSequenceNumber.toNat + 1 < 2 ^ 63) (hlocked : s.locked = ∅)
    (hp : s.phase i = .adding u) (hnew : (reqs i).supi ∉ s.uePool) :
    ∃ t, Served chf reqs i s t := by
  have hstep : Sessions.step chf reqs s i = some (s.addChfUeToUePool i (reqs i) u) := by
    unfold Sessions.step
    rw [hp]
  obtain ⟨t, ht⟩ := exists_served_found hplain (s := s.addChfUeToUePool i (reqs i) u) hlt hlocked
    phase_goto_self
  exact ⟨t, ht.cons ⟨fun _ _ => hnew, by simp [hp]⟩ hstep rfl (fun j hj => phase_goto_of_ne hj) rfl⟩

theorem exists_served (hplain : Plain chf (reqs i))
    (hlt : s.localRecordSequenceNumber.toNat + 1 < 2 ^ 63) (hlocked : s.locked = ∅)
    (hp : s.phase i = .start) : ∃ t, Served chf reqs i s t := by
  have hnone : ¬ (reqs i).data.nfConsumerIdentification.isNone := by
    rw [Option.isNone_iff_eq_none]
    exact Option.isSome_iff_ne_none.mp hplain.consumer
  have hcalm : Calm reqs s i := by constructor <;> simp [hp]
  have hstep : Sessions.step chf reqs s i = some (s.lookUp i (reqs i)) := by
    unfold Sessions.step
    rw [hp]
  unfold Sessions.lookUp at hstep
  rw [if_neg hnone] at hstep
  cases hu : s.uePool.lookup (reqs i).supi with
  | some u =>
    rw [hu] at hstep
    obtain ⟨t, ht⟩ := exists_served_found (s := s.goto i (.found u)) hplain hlt hlocked
      phase_goto_self
    exact ⟨t, ht.cons hcalm hstep rfl (fun j hj => phase_goto_of_ne hj) rfl⟩
  | none =>
    rw [hu] at hstep
    dsimp only at hstep
    rw [if_pos hplain.imsi] at hstep
    obtain ⟨t, ht⟩ := exists_served_adding hplain
      (s := { s with ues := s.ues ++ [ChfUe.init (reqs i).supi] }.goto i (.adding s.ues.length))
      hlt hlocked phase_goto_self (Finmap.lookup_eq_none.mp hu)
    exact ⟨t, ht.cons hcalm hstep rfl (fun j hj => phase_goto_of_ne hj) rfl⟩

/-- The first `m` requests are served in their order, each at the count of its number. -/
theorem exists_run_plain (chf : CHFContext) (hplain : ∀ i, Plain chf (reqs i)) (m : Nat)
    (hm : m < 2 ^ 63) :
    ∃ is s, Run (Sessions.step chf reqs) init is s ∧
      RunMeets (Sessions.step chf reqs) (Calm reqs) init is ∧
        s.localRecordSequenceNumber.toNat = m ∧ s.locked = ∅ ∧ (∀ j, m ≤ j → s.phase j = .start) ∧
          s.sessions = (List.range m).map fun j =>
            ((reqs j).supi, newSessionId (reqs j).supi (reqs j).data (UInt64.ofNat j)) := by
  induction m with
  | zero => exact ⟨[], init, Run.nil _, trivial, rfl, rfl, fun _ _ => rfl, rfl⟩
  | succ m ih =>
    obtain ⟨is, s, hrun, hmeets, hcount, hlocked, hstart, hsessions⟩ := ih (by omega)
    obtain ⟨t, ht⟩ := exists_served (hplain m) (by omega) hlocked (hstart m (Nat.le_refl m))
    obtain ⟨js, hrun', hmeets'⟩ := ht.run
    refine ⟨is ++ js, t, hrun.append hrun', hmeets.append hrun hmeets', ?_, ht.locked, ?_, ?_⟩
    · rw [ht.count, UInt64.toNat_add, UInt64.toNat_one, hcount]
      omega
    · intro j hj
      rw [ht.phase j (by omega)]
      exact hstart j (by omega)
    · have hof : s.localRecordSequenceNumber = UInt64.ofNat m := by
        rw [← hcount, UInt64.ofNat_toNat]
      rw [ht.sessions, hsessions, List.range_succ, List.map_append, hof]
      rfl

/-- The consumer of a name opens a session. -/
def openingBy (supi name : String) : CreateRequest where
  supi := supi
  data := { nfConsumerIdentification := some { nFName := name } }
  now := ⟨2024, 1, 1, 0, 0, 0, 0⟩

theorem plain_openingBy (chf : CHFContext) (name : String)
    (hsupi : "imsi-".toList.isPrefixOf supi.toList) : Plain chf (openingBy supi name) where
  oneTimeEvent := rfl
  consumer := rfl
  imsi := hsupi
  opens _ _ := rfl

/-- One subscriber opens a session first and one when the count is `10 * k`; another one opens
    all sessions in between. -/
def collidingRequests (name : String) (k i : Nat) : CreateRequest :=
  if i = 0 then openingBy "imsi-1" (name ++ toString k)
  else if i = 10 * k then openingBy "imsi-1" name
  else openingBy "imsi-2" name

theorem exists_collision (chf : CHFContext) (name : String) {k : Nat} (hk : 0 < k)
    (hlt : 10 * k < 2 ^ 63) :
    ∃ is s, Run (Sessions.step chf (collidingRequests name k)) init is s ∧
      RunMeets (Sessions.step chf (collidingRequests name k)) (Calm (collidingRequests name k)) init
        is ∧ ¬ s.sessions.Nodup := by
  have hplain : ∀ i, Plain chf (collidingRequests name k i) := by
    intro i
    unfold collidingRequests
    split_ifs
    · exact plain_openingBy chf _ (by decide)
    · exact plain_openingBy chf _ (by decide)
    · exact plain_openingBy chf _ (by decide)
  obtain ⟨is, s, hrun, hmeets, -, -, -, hsessions⟩ :=
    exists_run_plain chf hplain (10 * k + 1) (by omega)
  refine ⟨is, s, hrun, hmeets, fun hnodup => ?_⟩
  rw [hsessions] at hnodup
  have hinj := List.inj_on_of_nodup_map hnodup
  have hzero : 10 * k = 0 := by
    refine hinj (List.mem_range.mpr (by omega)) (List.mem_range.mpr (by omega)) ?_
    have hlast : collidingRequests name k (10 * k) = openingBy "imsi-1" name := by
      unfold collidingRequests
      rw [if_neg (by omega), if_pos rfl]
    have hfirst : collidingRequests name k 0 = openingBy "imsi-1" (name ++ toString k) := if_pos rfl
    have hcount : (UInt64.ofNat (10 * k)).toNat = 10 * k := by
      rw [UInt64.toNat_ofNat']
      omega
    rw [hlast, hfirst, newSessionId_eq rfl rfl (by omega), newSessionId_eq rfl rfl (by decide),
      hcount]
    exact congrArg (Prod.mk "imsi-1") (sessionKey_shift "imsi-1" name hk).symm
  omega

/-! ## The result -/

/-- When every subscriber is added once and the count fits an `int`, the session ids of a
    subscriber are distinct in every run exactly if the consumers' names are separable. -/
theorem session_ids_distinct_iff (chf : CHFContext) (names : Set String) :
    (∀ reqs, From names reqs → ∀ is s, Run (Sessions.step chf reqs) init is s →
      RunMeets (Sessions.step chf reqs) (Calm reqs) init is → s.Distinct reqs) ↔
      Separable names := by
  constructor
  · intro h name hname k hk hlt hmem
    obtain ⟨is, s, hrun, hmeets, hdup⟩ := exists_collision chf name hk hlt
    refine hdup (h _ ?_ is s hrun hmeets).1
    intro i consumer hc
    unfold collidingRequests at hc
    split_ifs at hc <;> obtain rfl := Option.some.inj hc
    · exact hmem
    · exact hname
    · exact hname
  · intro hsep reqs hfrom is s hrun hmeets
    have horderly : Orderly names reqs s :=
      hmeets.inv (Orderly names reqs) (fun _ _ _ hcalm hstep h => h.step chf hsep hfrom hcalm hstep)
        hrun (orderly_init names reqs)
    exact horderly.distinct hsep

/-- The consumers `smf1` and `smf` open a session of one subscriber at the counts 0 and 10. -/
theorem session_ids_collide :
    ∃ is s, Run (Sessions.step ⟨"chf", fun _ _ => true⟩ (collidingRequests "smf" 1)) init is s ∧
      RunMeets (Sessions.step ⟨"chf", fun _ _ => true⟩ (collidingRequests "smf" 1))
        (Calm (collidingRequests "smf" 1)) init is ∧
      ¬ s.sessions.Nodup :=
  exists_collision ⟨"chf", fun _ _ => true⟩ "smf" (by decide) (by decide)

end Sessions

end Free5gc.Chf.Cdr
