/-
  The periodic-report server (`internal/forwarder/perio/server.go`).

  `Server.serve` is one turn of the `Serve` loop: it takes an event off the event channel
  and returns the server and the session reports it notifies. The ticker goroutines are
  kept as the list of those running; a group names its own by the number of its stop
  channel. `events` counts the turns and picks the iteration order of the `range` loops of
  the current one.

  A ticker's period is positive: `time.NewTicker` panics otherwise, and both callers of
  `AddPeriodReportTimer` test `MeasurePeriod > 0` first.
-/
import Free5gc.Lib.GoMap
import Free5gc.Upf.Report
import Mathlib.Data.Nat.Pairing

namespace Free5gc.Upf.Perio

open Free5gc.Lib

/-- The period of a ticker, in nanoseconds. -/
abbrev Period := {d : Int // 0 < d}

/-- The events of the channel (`TYPE_PERIO_ADD`, `TYPE_PERIO_DEL`, `TYPE_PERIO_TIMEOUT`,
    `TYPE_SERVER_CLOSE`). -/
inductive Event where
  | add (lSeid : Nat) (urrid : UInt32) (period : Period)
  | del (lSeid : Nat) (urrid : UInt32)
  | timeout (period : Period)
  | close
  deriving DecidableEq

/-- A running ticker goroutine and the number of the stop channel it listens on. -/
structure Ticker where
  stopCh : Nat
  period : Period
  deriving DecidableEq

/-- `PERIOGroup`. `ticker` is `none` until `newTicker` starts one. -/
structure PERIOGroup where
  urrids : GoMap Nat (Finset UInt32)
  period : Period
  ticker : Option Nat
  deriving DecidableEq

structure Server where
  perioList : GoMap Period PERIOGroup
  tickers : List Ticker
  stopChs : Nat
  events : Nat
  closed : Bool

/-- `OpenServer`. -/
def Server.open : Server :=
  { perioList := ∅, tickers := [], stopChs := 0, events := 0, closed := false }

/-- The iteration orders of the server's maps. -/
structure Orders where
  period : RangeOrder Period
  seid : RangeOrder Nat
  urr : RangeOrder UInt32

/-- Every map in increasing order of its keys: one concrete choice, to run the model. -/
def Orders.increasing : Orders where
  period := RangeOrder.ofCode (fun p => p.val.toNat) (by
    intro p q h
    have hp := p.property
    have hq := q.property
    dsimp only at h
    exact Subtype.ext (by omega))
  seid := RangeOrder.ofCode id Function.injective_id
  urr := RangeOrder.ofCode UInt32.toNat toNat32_injective

/-- `s.queryURR`: the usage reports of the URRs asked for, or an error. -/
abbrev QueryURR := GoMap Nat (List UInt32) → Option (GoMap Nat (List USAReport))

/-- `urrids[lSeid][urrid]` is present. -/
def PERIOGroup.has (g : PERIOGroup) (lSeid : Nat) (urrid : UInt32) : Prop :=
  ∃ us, g.urrids.lookup lSeid = some us ∧ urrid ∈ us

instance (g : PERIOGroup) (lSeid : Nat) (urrid : UInt32) :
    Decidable (g.has lSeid urrid) :=
  match h : g.urrids.lookup lSeid with
  | some us =>
    decidable_of_iff (urrid ∈ us) (by
      constructor
      · intro hu; exact ⟨us, h, hu⟩
      · rintro ⟨us', h', hu⟩
        rw [h] at h'
        cases h'
        exact hu)
  | none => isFalse (by
      rintro ⟨us, h', -⟩
      rw [h] at h'
      cases h')

/-- `newTicker`: refuses a group that has one, otherwise starts a goroutine on a new stop
    channel. -/
def newTicker (s : Server) (g : PERIOGroup) : Option (Server × PERIOGroup) :=
  match g.ticker with
  | some _ => none
  | none => some
      ({ s with tickers := s.tickers ++ [⟨s.stopChs, g.period⟩], stopChs := s.stopChs + 1 },
       { g with ticker := some s.stopChs })

/-- `stopTicker`: the goroutine that listens on the group's stop channel returns. -/
def stopTicker (s : Server) (g : PERIOGroup) : Server :=
  { s with tickers := s.tickers.filter fun t => some t.stopCh ≠ g.ticker }

/-- The second half of the ADD case: the pair goes into the group's nested map. -/
def PERIOGroup.insert (g : PERIOGroup) (lSeid : Nat) (urrid : UInt32) : PERIOGroup :=
  match g.urrids.lookup lSeid with
  | none => { g with urrids := g.urrids.insert lSeid {urrid} }
  | some us => { g with urrids := g.urrids.insert lSeid (Insert.insert urrid us) }

/-- The removal inside the DEL case: the pair goes, and an inner map left empty goes with
    it. -/
def PERIOGroup.delete (g : PERIOGroup) (lSeid : Nat) (urrid : UInt32) : PERIOGroup :=
  match g.urrids.lookup lSeid with
  | none => g
  | some us =>
    if us.erase urrid = ∅ then { g with urrids := g.urrids.erase lSeid }
    else { g with urrids := g.urrids.insert lSeid (us.erase urrid) }

/-- The ADD case of `Serve`. -/
def add (s : Server) (lSeid : Nat) (urrid : UInt32) (period : Period) : Server :=
  match s.perioList.lookup period with
  | some g => { s with perioList := s.perioList.insert period (g.insert lSeid urrid) }
  | none =>
    match newTicker s { urrids := ∅, period := period, ticker := none } with
    | none => s
    | some (s', g) => { s' with perioList := s'.perioList.insert period (g.insert lSeid urrid) }

/-- The group of period `p` holds the pair. -/
def Server.Holds (s : Server) (p : Period) (lSeid : Nat) (urrid : UInt32) : Prop :=
  ∃ g, s.perioList.lookup p = some g ∧ g.has lSeid urrid

instance (s : Server) (p : Period) (lSeid : Nat) (urrid : UInt32) :
    Decidable (s.Holds p lSeid urrid) :=
  match h : s.perioList.lookup p with
  | some g =>
    decidable_of_iff (g.has lSeid urrid) (by
      constructor
      · intro hg; exact ⟨g, h, hg⟩
      · rintro ⟨g', h', hg⟩
        rw [h] at h'
        cases h'
        exact hg)
  | none => isFalse (by
      rintro ⟨g, h', -⟩
      rw [h] at h'
      cases h')

/-- The body of the DEL loop for the group of `period`: remove the pair; a group left
    empty is stopped and dropped from the list. -/
def delFrom (s : Server) (period : Period) (lSeid : Nat) (urrid : UInt32) : Server :=
  match s.perioList.lookup period with
  | none => s
  | some g =>
    let g' := g.delete lSeid urrid
    if g'.urrids = ∅ then
      let s' := stopTicker s g'
      { s' with perioList := s'.perioList.erase period }
    else { s with perioList := s.perioList.insert period g' }

/-- The DEL case of `Serve`: the loop stops at the first group, in iteration order, that
    holds the pair. -/
def del (o : Orders) (s : Server) (lSeid : Nat) (urrid : UInt32) : Server :=
  match (o.period.keys s.events s.perioList.keys).find? fun p => s.Holds p lSeid urrid with
  | some p => delFrom s p lSeid urrid
  | none => s

/-- The `lSeidUrridsMap` the TIMEOUT case builds for a group. -/
def lSeidUrridsMap (o : Orders) (t : Nat) (g : PERIOGroup) : GoMap Nat (List UInt32) :=
  (o.seid.keys t g.urrids.keys).foldl (fun m lSeid =>
    (o.urr.keys (Nat.pair t lSeid) ((g.urrids.lookup lSeid).getD ∅)).foldl (fun m urrid =>
      m.insert lSeid ((m.lookup lSeid).getD [] ++ [urrid])) m) ∅

/-- What the TIMEOUT case asks `queryURR` for; `none` when the period has no group. -/
def queried (o : Orders) (s : Server) (period : Period) : Option (GoMap Nat (List UInt32)) :=
  (s.perioList.lookup period).map (lSeidUrridsMap o s.events)

/-- The TIMEOUT case of `Serve`: the reports of the queried URRs, flagged `PERIO`, one
    `SessReport` for each session. -/
def timeout (o : Orders) (query : QueryURR) (s : Server) (period : Period) :
    List SessReport :=
  match queried o s period with
  | none => []
  | some m =>
    match query m with
    | none => []
    | some seidUsars => (o.seid.keys s.events seidUsars.keys).map fun seid =>
        { seid := seid
          reports := ((seidUsars.lookup seid).getD []).map
            fun r => Report.usa (r.flag usarTrigPerio) }

/-- The CLOSE case of `Serve`: every group is stopped and dropped, and the loop returns. -/
def close (o : Orders) (s : Server) : Server :=
  let s' := (o.period.keys s.events s.perioList.keys).foldl (fun s p =>
    match s.perioList.lookup p with
    | none => s
    | some g => { stopTicker s g with perioList := s.perioList.erase p }) s
  { s' with closed := true }

/-- The end of a turn: the next one iterates its maps afresh. -/
def Server.turn (s : Server) : Server := { s with events := s.events + 1 }

/-- One turn of the `Serve` loop. -/
def Server.serve (o : Orders) (query : QueryURR) (s : Server) (e : Event) :
    Server × List SessReport :=
  if s.closed then (s, [])
  else
    match e with
    | .add lSeid urrid period => ((add s lSeid urrid period).turn, [])
    | .del lSeid urrid => ((del o s lSeid urrid).turn, [])
    | .timeout period => (s.turn, timeout o query s period)
    | .close => ((close o s).turn, [])

end Free5gc.Upf.Perio
