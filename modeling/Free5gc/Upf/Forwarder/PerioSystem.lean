/-
  The periodic-report server as a system of goroutines: the `Serve` loop, the ticker
  goroutines, and producers of ADD, DEL and CLOSE events, with the bounded event channel and
  the unbuffered stop channels between them (`internal/forwarder/perio/server.go`).

  `Serve` handles an event in one step, except that it waits at each `stopTicker` until the
  group's goroutine takes the stop signal. A ticker goroutine waits for a tick or for the
  stop signal; after a tick it waits for room on the event channel. The steps of the system
  are interleaved freely; the server's data are those of the sequential model on the events
  taken (`refines_serve`). Once `Serve` waits for a goroutine that waits for room on the full
  channel, no step of the system ends it (`Deadlocked.step`).
-/
import Free5gc.Upf.Forwarder.PerioRuns

namespace Free5gc.Upf.Perio

open Free5gc.Lib

/-- `EVENT_CHANNEL_LEN`. -/
def eventChannelLen : Nat := 512

/-- Where `Serve` is: at the receive from the event channel, at the send on the stop channel
    of the group of `period` with further groups to stop, or returned. -/
inductive ServePc where
  | receiving
  | stopping (period : Period) (rest : List Period) (closing : Bool)
  | returned
  deriving DecidableEq

/-- The goroutines in `sending` took a tick and are at their send on the event channel; the
    other running ones are at their `select`. -/
structure System where
  server : Server
  evtCh : List Event
  pc : ServePc
  sending : Finset Nat

/-- `OpenServer`. -/
def System.open : System :=
  { server := Server.open, evtCh := [], pc := .receiving, sending := ∅ }

/-- One step of a producer, of the ticker goroutine of a stop channel, or of `Serve`: the
    receive of an event, the send on a stop channel. -/
inductive Action where
  | produce (e : Event)
  | tick (stopCh : Nat)
  | send (stopCh : Nat)
  | take
  | stop
  deriving DecidableEq

/-- The ticker goroutine that listens on this stop channel, if it runs. -/
def Server.goroutine (s : Server) (stopCh : Nat) : Option Ticker :=
  s.tickers.find? fun t => t.stopCh = stopCh

/-- The end of a `stopTicker`: the group's goroutine has returned, the group is dropped. -/
def stopGroup (s : Server) (p : Period) : Server :=
  match s.perioList.lookup p with
  | none => s
  | some g => { stopTicker s g with perioList := s.perioList.erase p }

namespace System

/-- `Serve` goes on with the groups left to stop, then with the next event, or returns. -/
def stopNext (s : System) (closing : Bool) : List Period → System
  | p :: rest => { s with pc := .stopping p rest closing }
  | [] =>
    if closing then
      { s with server := { s.server with closed := true }.turn, pc := .returned }
    else { s with server := s.server.turn, pc := .receiving }

/-- The DEL case, up to `stopTicker`. -/
def handleDel (o : Orders) (s : System) (lSeid : Nat) (urrid : UInt32) : System :=
  match (o.period.keys s.server.events s.server.perioList.keys).find?
      fun p => s.server.Holds p lSeid urrid with
  | none => s.stopNext false []
  | some p =>
    match s.server.perioList.lookup p with
    | none => s.stopNext false []
    | some g =>
      let g' := g.delete lSeid urrid
      let s := { s with server := { s.server with
        perioList := s.server.perioList.insert p g' } }
      if g'.urrids = ∅ then s.stopNext false [p] else s.stopNext false []

/-- `Serve` with an event just received. The query and the notifications of a timeout are
    taken to return. -/
def handle (o : Orders) (s : System) : Event → System
  | .add lSeid urrid period =>
    { s with server := add s.server lSeid urrid period }.stopNext false []
  | .del lSeid urrid => s.handleDel o lSeid urrid
  | .timeout _ => s.stopNext false []
  | .close => s.stopNext true (o.period.keys s.server.events s.server.perioList.keys)

/-- The goroutine `Serve` waits for. -/
def awaited (s : System) : Option Nat :=
  match s.pc with
  | .stopping p _ _ => (s.server.perioList.lookup p).bind PERIOGroup.ticker
  | _ => none

/-- One step of the system; `none` where the goroutine is blocked or gone. A producer that
    sends after `Serve` has returned panics: the event channel is closed. -/
def step (o : Orders) (s : System) : Action → Option System
  | .produce e =>
    match e with
    | .timeout _ => none
    | e =>
      if s.pc ≠ .returned ∧ s.evtCh.length < eventChannelLen then
        some { s with evtCh := s.evtCh ++ [e] }
      else none
  | .tick c =>
    if (s.server.goroutine c).isSome ∧ c ∉ s.sending then
      some { s with sending := insert c s.sending }
    else none
  | .send c =>
    match s.server.goroutine c with
    | none => none
    | some t =>
      if c ∈ s.sending ∧ s.evtCh.length < eventChannelLen then
        some { s with evtCh := s.evtCh ++ [.timeout t.period], sending := s.sending.erase c }
      else none
  | .take =>
    match s.pc, s.evtCh with
    | .receiving, e :: rest => some ({ s with evtCh := rest }.handle o e)
    | _, _ => none
  | .stop =>
    match s.pc, s.awaited with
    | .stopping p rest closing, some c =>
      if (s.server.goroutine c).isSome ∧ c ∉ s.sending then
        some ({ s with server := stopGroup s.server p }.stopNext closing rest)
      else none
    | _, _ => none

/-- `Serve` is blocked at the send on a group's stop channel, and the group's goroutine is
    blocked at its send on the event channel. -/
def Deadlocked (s : System) : Prop :=
  ∃ c, s.awaited = some c ∧ c ∈ s.sending ∧ s.evtCh.length = eventChannelLen

/-! ## One step -/

variable {o : Orders} {s s' : System} {a : Action}

theorem step_cases (h : s.step o a = some s') :
    (∃ e, a = .produce e ∧ s.pc ≠ .returned ∧ s.evtCh.length < eventChannelLen ∧
      s' = { s with evtCh := s.evtCh ++ [e] }) ∨
    (∃ c, a = .tick c ∧ c ∉ s.sending ∧ s' = { s with sending := insert c s.sending }) ∨
    (∃ c t, a = .send c ∧ (s.server.goroutine c = some t ∧ c ∈ s.sending) ∧
      s.evtCh.length < eventChannelLen ∧
      s' = { s with evtCh := s.evtCh ++ [.timeout t.period], sending := s.sending.erase c }) ∨
    (∃ e rest, a = .take ∧ s.pc = .receiving ∧ s.evtCh = e :: rest ∧
      s' = { s with evtCh := rest }.handle o e) ∨
    (∃ p rest closing c, a = .stop ∧ s.pc = .stopping p rest closing ∧ s.awaited = some c ∧
      c ∉ s.sending ∧ s' = { s with server := stopGroup s.server p }.stopNext closing rest) := by
  unfold step at h
  cases a with
  | produce e =>
    dsimp only at h
    split at h
    · cases h
    · split_ifs at h with hroom
      cases h
      exact Or.inl ⟨e, rfl, hroom.1, hroom.2, rfl⟩
  | tick c =>
    dsimp only at h
    split_ifs at h with hc
    cases h
    exact Or.inr (Or.inl ⟨c, rfl, hc.2, rfl⟩)
  | send c =>
    dsimp only at h
    split at h
    · cases h
    · rename_i t ht
      split_ifs at h with hc
      cases h
      exact Or.inr (Or.inr (Or.inl ⟨c, t, rfl, ⟨ht, hc.1⟩, hc.2, rfl⟩))
  | take =>
    dsimp only at h
    split at h
    · rename_i hpc hch
      cases h
      exact Or.inr (Or.inr (Or.inr (Or.inl ⟨_, _, rfl, hpc, hch, rfl⟩)))
    · cases h
  | stop =>
    dsimp only at h
    split at h
    · rename_i hpc hc
      split_ifs at h with hfree
      cases h
      exact Or.inr (Or.inr (Or.inr (Or.inr ⟨_, _, _, _, rfl, hpc, hc, hfree.2, rfl⟩)))
    · cases h

theorem stopNext_channels (s : System) (closing : Bool) (rest : List Period) :
    (s.stopNext closing rest).evtCh = s.evtCh ∧ (s.stopNext closing rest).sending = s.sending := by
  unfold stopNext
  split
  · exact ⟨rfl, rfl⟩
  · split_ifs
    · exact ⟨rfl, rfl⟩
    · exact ⟨rfl, rfl⟩

/-- Stopping a group whose last pair was just removed ends the DEL case. -/
theorem stopGroup_delete {s : Server} {p : Period} {g : PERIOGroup}
    (hg : s.perioList.lookup p = some g) {x : Nat} {u : UInt32}
    (hempty : (g.delete x u).urrids = ∅) :
    stopGroup { s with perioList := s.perioList.insert p (g.delete x u) } p =
      delFrom s p x u := by
  have herase : (s.perioList.insert p (g.delete x u)).erase p = s.perioList.erase p := by
    apply Finmap.ext_lookup
    intro q
    rw [GoMap.lookup_erase_eq, GoMap.lookup_erase_eq, GoMap.lookup_insert_eq]
    split_ifs
    · rfl
    · rfl
  unfold stopGroup delFrom
  rw [show Finmap.lookup p (s.perioList.insert p (g.delete x u)) = some (g.delete x u) from
    Finmap.lookup_insert _, hg]
  dsimp only
  rw [if_pos hempty, herase]
  rfl

theorem handleDel_spec (o : Orders) (s : System) (x : Nat) (u : UInt32) :
    ∃ t rest, s.handleDel o x u = { s with server := t }.stopNext false rest ∧
      rest.foldl stopGroup t = Perio.del o s.server x u := by
  unfold handleDel Perio.del
  split
  · rename_i hnone
    rw [hnone]
    exact ⟨s.server, [], rfl, rfl⟩
  · rename_i p hp
    rw [hp]
    dsimp only
    split
    · rename_i hg
      refine ⟨s.server, [], rfl, ?_⟩
      rw [delFrom, hg]
      rfl
    · rename_i g hg
      split_ifs with hempty
      · exact ⟨_, [p], rfl, stopGroup_delete hg hempty⟩
      · refine ⟨_, [], rfl, ?_⟩
        rw [delFrom, hg]
        dsimp only
        rw [if_neg hempty]
        rfl

/-- The server at the end of an event. -/
def ended (closing : Bool) (t : Server) : Server :=
  (if closing then { t with closed := true } else t).turn

/-- An event leaves the channel and the goroutines' sends alone, and with its last stop the
    server is the one of the sequential model. -/
theorem handle_spec (o : Orders) (s : System) (e : Event) :
    ∃ t rest, s.handle o e = { s with server := t }.stopNext (decide (e = Event.close)) rest ∧
      ∀ query, s.server.closed = false →
        ended (decide (e = Event.close)) (rest.foldl stopGroup t) = s.server.next o query e := by
  unfold Server.next Server.serve
  cases e with
  | add x u p =>
    refine ⟨add s.server x u p, [], rfl, fun query hopen => ?_⟩
    rw [hopen]
    rfl
  | del x u =>
    obtain ⟨t, rest, heq, hdel⟩ := handleDel_spec o s x u
    refine ⟨t, rest, heq, fun query hopen => ?_⟩
    rw [hopen, hdel]
    rfl
  | timeout p =>
    refine ⟨s.server, [], rfl, fun query hopen => ?_⟩
    rw [hopen]
    rfl
  | close =>
    refine ⟨s.server, _, rfl, fun query hopen => ?_⟩
    rw [hopen]
    rfl

theorem handle_channels (o : Orders) (s : System) (e : Event) :
    (s.handle o e).evtCh = s.evtCh ∧ (s.handle o e).sending = s.sending := by
  obtain ⟨t, rest, heq, -⟩ := handle_spec o s e
  rw [heq]
  exact stopNext_channels { s with server := t } _ rest

/-! ## Refinement of the sequential model -/

/-- The server's data once the event at hand is dealt with. -/
def finished (s : System) : Server :=
  match s.pc with
  | .stopping p rest closing => ended closing ((p :: rest).foldl stopGroup s.server)
  | _ => s.server

theorem finished_stopNext (s : System) (closing : Bool) (rest : List Period) :
    (s.stopNext closing rest).finished = ended closing (rest.foldl stopGroup s.server) := by
  cases rest with
  | cons p rest => rfl
  | nil =>
    cases closing with
    | true => rfl
    | false => rfl

/-- `Serve` is going to return. -/
def Closing (s : System) : Prop :=
  s.pc = .returned ∨ ∃ p rest, s.pc = .stopping p rest true

theorem closing_stopNext (s : System) (rest : List Period) : (s.stopNext true rest).Closing := by
  cases rest with
  | cons p rest => exact Or.inr ⟨p, rest, rfl⟩
  | nil => exact Or.inl rfl

/-- The data are those of the sequential model on the events taken, and a close is not taken
    before `Serve` is closing. -/
def Refines (o : Orders) (query : QueryURR) (taken : List Event) (s : System) : Prop :=
  s.finished = taken.foldl (Server.next o query) Server.open ∧
    (Event.close ∈ taken → s.Closing)

theorem Refines.take {query : QueryURR} {taken : List Event} (h : Refines o query taken s)
    (hpc : s.pc = .receiving) (e : Event) (rest : List Event) :
    Refines o query (taken ++ [e]) ({ s with evtCh := rest }.handle o e) := by
  have hfin : s.finished = s.server := by
    unfold finished
    rw [hpc]
  have hes : Event.close ∉ taken := by
    intro hmem
    simpa [Closing, hpc] using h.2 hmem
  have hopen : s.server.closed = false := by
    rw [← hfin, h.1]
    exact (run_wf o query taken hes).1
  obtain ⟨t, groups, heq, hnext⟩ := handle_spec o { s with evtCh := rest } e
  rw [heq]
  refine ⟨?_, fun hmem => ?_⟩
  · rw [finished_stopNext, hnext query hopen, List.foldl_append, ← h.1, hfin]
    rfl
  · have he : e = .close := by simpa [hes, eq_comm] using hmem
    rw [decide_eq_true he]
    exact closing_stopNext _ groups

/-- The events that an action puts on the channel. -/
def puts (s : System) : Action → List Event
  | .produce e => [e]
  | .send c => (s.server.goroutine c).toList.map fun t => .timeout t.period
  | _ => []

/-- The events that a run puts on the channel, in order. -/
def putsOf (o : Orders) : System → List Action → List Event
  | _, [] => []
  | s, a :: as => s.puts a ++ (s.step o a).elim [] fun s' => putsOf o s' as

/-- A step puts its event behind those that wait, or takes the first of them. -/
theorem Refines.step {query : QueryURR} {taken : List Event} (h : Refines o query taken s)
    (hs : s.step o a = some s') :
    ∃ taken', Refines o query taken' s' ∧ taken' ++ s'.evtCh = taken ++ s.evtCh ++ s.puts a := by
  obtain ⟨e, rfl, _, _, rfl⟩ | ⟨c, rfl, _, rfl⟩ | ⟨c, t, rfl, hc, _, rfl⟩ |
    ⟨e, rest, rfl, hpc, hch, rfl⟩ | ⟨p, rest, closing, c, rfl, hpc, _, _, rfl⟩ := step_cases hs
  · exact ⟨taken, h, (List.append_assoc _ _ _).symm⟩
  · exact ⟨taken, h, (List.append_nil _).symm⟩
  · refine ⟨taken, h, ?_⟩
    rw [puts, hc.1]
    exact (List.append_assoc _ _ _).symm
  · refine ⟨taken ++ [e], h.take hpc e rest, ?_⟩
    rw [(handle_channels o { s with evtCh := rest } e).1, hch]
    simp [puts]
  · -- the stop of one group is the first turn of the loop that `finished` runs
    refine ⟨taken, ⟨?_, fun hmem => ?_⟩, ?_⟩
    · rw [finished_stopNext, ← h.1, finished, hpc]
      rfl
    · obtain hret | ⟨q, rest', hstop⟩ := h.2 hmem
      · rw [hpc] at hret
        cases hret
      · rw [hpc] at hstop
        cases hstop
        exact closing_stopNext _ rest
    · rw [(stopNext_channels { s with server := stopGroup s.server p } closing rest).1]
      exact (List.append_nil _).symm

theorem Refines.run {query : QueryURR} {as : List Action} (hrun : Run (System.step o) s as s')
    {taken : List Event} (h : Refines o query taken s) :
    ∃ taken', Refines o query taken' s' ∧
      taken' ++ s'.evtCh = taken ++ s.evtCh ++ putsOf o s as := by
  induction hrun generalizing taken with
  | nil s => exact ⟨taken, h, (List.append_nil _).symm⟩
  | cons hs _ ih =>
    obtain ⟨taken₁, h₁, heq₁⟩ := h.step hs
    obtain ⟨taken₂, h₂, heq₂⟩ := ih h₁
    refine ⟨taken₂, h₂, ?_⟩
    rw [heq₂, heq₁, putsOf, hs, List.append_assoc]
    rfl

/-- In every run of the system, the data of `Serve` are those of the sequential model run on the
    events taken off the channel, and these, followed by the events that wait there, are the
    events put on it: none is lost, doubled or overtaken. -/
theorem refines_serve (o : Orders) (query : QueryURR) {as : List Action}
    (hrun : Run (step o) System.open as s) :
    ∃ taken, Refines o query taken s ∧ taken ++ s.evtCh = putsOf o System.open as := by
  have hopen : Refines o query [] System.open := ⟨rfl, nofun⟩
  exact hopen.run hrun

/-- A URR is added, and a second one waits on the channel. -/
theorem refines_serve_two_adds :
    let as : List Action :=
      [.produce (.add 1 7 second), .produce (.add 1 8 second), .take]
    ∃ s taken, Run (step Orders.increasing) System.open as s ∧
      Refines Orders.increasing (fun _ => none) taken s ∧
      taken ++ s.evtCh = [.add 1 7 second, .add 1 8 second] := by
  intro as
  have hrun : ∃ s, Run (step Orders.increasing) System.open as s :=
    ⟨_, Run.cons rfl (Run.cons rfl (Run.cons rfl (Run.nil _)))⟩
  obtain ⟨s, hs⟩ := hrun
  obtain ⟨taken, h, heq⟩ := refines_serve Orders.increasing (fun _ => none) hs
  exact ⟨s, taken, hs, h, heq⟩

/-! ## Deadlock -/

/-- A deadlock is for good: no step of a producer, of a goroutine or of `Serve` ends it. -/
theorem Deadlocked.step (h : s.Deadlocked) (hs : s.step o a = some s') : s'.Deadlocked := by
  obtain ⟨c, hc, hsending, hfull⟩ := h
  obtain ⟨e, rfl, _, hroom, rfl⟩ | ⟨c', rfl, _, rfl⟩ | ⟨c', t, rfl, _, hroom, rfl⟩ |
    ⟨e, rest, rfl, hpc, _, rfl⟩ | ⟨p, rest, closing, c', rfl, _, hc', hfree, rfl⟩ := step_cases hs
  · omega
  · exact ⟨c, hc, Finset.mem_insert_of_mem hsending, hfull⟩
  · omega
  · unfold awaited at hc
    rw [hpc] at hc
    cases hc
  · rw [hc] at hc'
    cases hc'
    exact absurd hsending hfree

/-- `Serve` is at the send on a stop channel. -/
def Stopping (s : System) : Prop := ∃ p rest closing, s.pc = .stopping p rest closing

/-- While `Serve` is at the send on a stop channel, no event is put on the channel that
    fills it. -/
def LeavesRoom (s : System) : Action → Prop
  | .produce _ => s.Stopping → s.evtCh.length + 1 < eventChannelLen
  | .send _ => s.Stopping → s.evtCh.length + 1 < eventChannelLen
  | _ => True

/-- The channel holds no more than its length, and is not full while `Serve` is at a stop. -/
def Roomy (s : System) : Prop :=
  s.evtCh.length ≤ eventChannelLen ∧ (s.Stopping → s.evtCh.length < eventChannelLen)

theorem roomy_of_lt (h : s.evtCh.length < eventChannelLen) : s.Roomy :=
  ⟨Nat.le_of_lt h, fun _ => h⟩

theorem roomy_put {e : Event} (hch : s'.evtCh = s.evtCh ++ [e]) (hpc : s'.pc = s.pc)
    (hlt : s.evtCh.length < eventChannelLen)
    (hroom : s.Stopping → s.evtCh.length + 1 < eventChannelLen) : s'.Roomy := by
  unfold Roomy Stopping
  rw [hch, hpc, List.length_append, List.length_singleton]
  exact ⟨hlt, hroom⟩

theorem Roomy.step (hroom : s.LeavesRoom a) (hs : s.step o a = some s') (h : s.Roomy) :
    s'.Roomy := by
  obtain ⟨e, rfl, _, hlt, rfl⟩ | ⟨c, rfl, _, rfl⟩ | ⟨c, t, rfl, _, hlt, rfl⟩ |
    ⟨e, rest, rfl, hpc, hch, rfl⟩ | ⟨p, rest, closing, c, rfl, hpc, _, _, rfl⟩ := step_cases hs
  · exact roomy_put rfl rfl hlt hroom
  · exact h
  · exact roomy_put rfl rfl hlt hroom
  · -- a receive leaves room whatever the event
    have hle := h.1
    rw [hch, List.length_cons] at hle
    apply roomy_of_lt
    rw [(handle_channels o { s with evtCh := rest } e).1]
    exact hle
  · apply roomy_of_lt
    rw [(stopNext_channels { s with server := stopGroup s.server p } closing rest).1]
    exact h.2 ⟨p, rest, closing, hpc⟩

theorem Roomy.not_deadlocked (h : s.Roomy) : ¬ s.Deadlocked := by
  rintro ⟨c, hc, _, hfull⟩
  have hstop : s.Stopping := by
    unfold awaited at hc
    split at hc
    · rename_i p rest closing hpc
      exact ⟨p, rest, closing, hpc⟩
    · cases hc
  have hlt := h.2 hstop
  omega

theorem roomy_open : System.open.Roomy := by
  refine ⟨Nat.zero_le _, ?_⟩
  rintro ⟨p, rest, closing, hpc⟩
  cases hpc

/-- In every run in which no event fills the channel while `Serve` is at the send on a stop
    channel, no state is reached in which `Serve` waits there for a goroutine that waits for
    room on the channel. -/
theorem no_deadlock_of_leavesRoom (o : Orders) {as : List Action} {s : System}
    (hroom : RunMeets (step o) LeavesRoom System.open as)
    (hrun : Run (step o) System.open as s) : ¬ s.Deadlocked := by
  have hroomy : s.Roomy :=
    hroom.inv Roomy (fun _ _ _ hC hs ht => ht.step hC hs) hrun roomy_open
  exact hroomy.not_deadlocked

/-- A step puts one event on the channel at most. -/
theorem length_evtCh_step (hs : s.step o a = some s') : s'.evtCh.length ≤ s.evtCh.length + 1 := by
  obtain ⟨e, rfl, _, _, rfl⟩ | ⟨c, rfl, _, rfl⟩ | ⟨c, t, rfl, _, _, rfl⟩ |
    ⟨e, rest, rfl, _, hch, rfl⟩ | ⟨p, rest, closing, c, rfl, _, _, _, rfl⟩ := step_cases hs
  · rw [List.length_append]
    exact Nat.le_refl _
  · exact Nat.le_succ _
  · rw [List.length_append]
    exact Nat.le_refl _
  · rw [(handle_channels o { s with evtCh := rest } e).1, hch, List.length_cons]
    dsimp only
    omega
  · rw [(stopNext_channels { s with server := stopGroup s.server p } closing rest).1]
    exact Nat.le_succ _

/-- A run of so few steps cannot fill the channel. -/
theorem leavesRoom_of_short (o : Orders) (as : List Action) (s : System)
    (h : s.evtCh.length + as.length < eventChannelLen) : RunMeets (step o) LeavesRoom s as := by
  induction as generalizing s with
  | nil => trivial
  | cons a as ih =>
    rw [List.length_cons] at h
    refine ⟨?_, fun s' hs => ih s' ?_⟩
    · cases a with
      | produce e =>
        intro _
        omega
      | send c =>
        intro _
        omega
      | tick c => trivial
      | take => trivial
      | stop => trivial
    · have hlen := length_evtCh_step hs
      omega

/-- A URR is added and deleted again, and its ticker stopped after one tick. -/
theorem no_deadlock_add_tick_del :
    let as : List Action := [.produce (.add 1 7 second), .take, .tick 0, .produce (.del 1 7),
      .take, .send 0, .stop]
    ∃ s, Run (step Orders.increasing) System.open as s ∧ s.pc = .receiving ∧ ¬ s.Deadlocked := by
  intro as
  have hrun : ∃ s, Run (step Orders.increasing) System.open as s ∧ s.pc = .receiving :=
    ⟨_, Run.cons rfl (Run.cons rfl (Run.cons rfl (Run.cons rfl (Run.cons rfl (Run.cons rfl
      (Run.cons rfl (Run.nil _))))))), rfl⟩
  obtain ⟨s, hs, hpc⟩ := hrun
  refine ⟨s, hs, hpc, no_deadlock_of_leavesRoom Orders.increasing ?_ hs⟩
  exact leavesRoom_of_short _ as System.open (by decide)

theorem run_produce (o : Orders) {e : Event} (he : ∀ p, e ≠ .timeout p) (n : Nat) (s : System)
    (hpc : s.pc ≠ .returned) (hlen : s.evtCh.length + n ≤ eventChannelLen) :
    Run (step o) s (List.replicate n (.produce e))
      { s with evtCh := s.evtCh ++ List.replicate n e } := by
  induction n generalizing s with
  | zero =>
    rw [List.replicate_zero, List.replicate_zero, List.append_nil]
    exact Run.nil s
  | succ n ih =>
    have hstep : s.step o (.produce e) = some { s with evtCh := s.evtCh ++ [e] } := by
      unfold step
      cases e with
      | timeout p => exact absurd rfl (he p)
      | add x u p => exact if_pos ⟨hpc, by omega⟩
      | del x u => exact if_pos ⟨hpc, by omega⟩
      | close => exact if_pos ⟨hpc, by omega⟩
    have hrest := ih { s with evtCh := s.evtCh ++ [e] } hpc (by
      rw [List.length_append, List.length_singleton]
      omega)
    dsimp only at hrest
    rw [List.append_assoc, List.singleton_append, ← List.replicate_succ] at hrest
    rw [List.replicate_succ]
    exact Run.cons hstep hrest

/-- A URR is added; its ticker ticks while the channel holds its DEL and 511 events more; the
    DEL is taken and a producer uses the place that became free. -/
def fillWhileStopping : List Action :=
  [.produce (.add 1 7 second), .take, .produce (.del 1 7), .tick 0] ++
    (List.replicate 511 (.produce (.del 2 7)) ++ [.take, .produce (.del 2 7)])

/-- The state of that run with the DEL taken: `Serve` waits for goroutine 0, which is sending. -/
theorem run_addDelTick : ∃ s, Run (step Orders.increasing) System.open
      [.produce (.add 1 7 second), .take, .produce (.del 1 7), .tick 0] s ∧
      s.evtCh = [.del 1 7] ∧ s.pc = .receiving ∧
      ∀ rest, ({ s with evtCh := rest }.handle Orders.increasing (.del 1 7)).awaited = some 0 ∧
        0 ∈ ({ s with evtCh := rest }.handle Orders.increasing (.del 1 7)).sending ∧
        ({ s with evtCh := rest }.handle Orders.increasing (.del 1 7)).pc =
          .stopping second [] false := by
  refine ⟨_, Run.cons rfl (Run.cons rfl (Run.cons rfl (Run.cons rfl (Run.nil _)))), rfl, rfl,
    fun rest => ⟨rfl, ?_, rfl⟩⟩
  rw [(handle_channels _ _ _).2]
  exact Finset.mem_insert_self 0 ∅

/-- That run ends with `Serve` and the ticker goroutine blocked on each other, for good. -/
theorem fillWhileStopping_deadlocks :
    ∃ s, Run (step Orders.increasing) System.open fillWhileStopping s ∧ s.Deadlocked ∧
      ∀ as s', Run (step Orders.increasing) s as s' → s'.Deadlocked := by
  obtain ⟨s, hrun, hch, hpc, htaken⟩ := run_addDelTick
  have hfill := run_produce Orders.increasing (fun p => nofun : ∀ p, Event.del 2 7 ≠ .timeout p)
    511 s (by rw [hpc]; exact nofun) (by rw [hch]; decide)
  rw [hch, List.singleton_append] at hfill
  have htake : step Orders.increasing { s with evtCh := .del 1 7 :: List.replicate 511 (.del 2 7) }
      .take = some ({ s with evtCh := List.replicate 511 (.del 2 7) }.handle
        Orders.increasing (.del 1 7)) := by
    unfold step
    dsimp only
    rw [hpc]
  obtain ⟨hawaited, hsending, hstopping⟩ := htaken (List.replicate 511 (.del 2 7))
  have hqueued := (handle_channels Orders.increasing
    { s with evtCh := List.replicate 511 (.del 2 7) } (.del 1 7)).1
  generalize { s with evtCh := List.replicate 511 (.del 2 7) }.handle
    Orders.increasing (.del 1 7) = t at *
  have hlast := run_produce Orders.increasing (fun p => nofun : ∀ p, Event.del 2 7 ≠ .timeout p)
    1 t (by rw [hstopping]; exact nofun) (by rw [hqueued, List.length_replicate]; decide)
  have hdead : { t with evtCh := t.evtCh ++ List.replicate 1 (Event.del 2 7) }.Deadlocked := by
    refine ⟨0, hawaited, hsending, ?_⟩
    rw [hqueued, List.length_append, List.length_replicate, List.length_replicate]
    rfl
  refine ⟨_, hrun.append (hfill.append (Run.cons htake hlast)), hdead, fun as s' hs' => ?_⟩
  exact Run.inv Deadlocked hs' (fun _ _ _ _ hs h => h.step hs) hdead

end System

end Free5gc.Upf.Perio
