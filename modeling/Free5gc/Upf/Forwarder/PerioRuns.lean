/-
  What every run of the periodic-report server keeps.

  * `Server.WF` holds after every event sequence: each group is keyed by its own period, is
    not empty, holds no empty inner map, and owns exactly one running ticker of its period;
    a period without a group has no running ticker.
  * `latest es x u` is the period of the last ADD of `(x, u)` in `es` that no DEL of
    `(x, u)` follows. The groups agree with it on every run in which no ADD names a pair
    that a group of another period holds (`AddsInPlace`).

  Without `AddsInPlace` they do not: a pair added under two periods sits in two groups, and
  a DEL takes it out of the first group of the iteration order only.
-/
import Free5gc.Upf.Forwarder.Perio
import Free5gc.Lib.Run

namespace Free5gc.Upf.Perio

open Free5gc.Lib

/-! ## Groups -/

variable {g : PERIOGroup} {s : Server}

variable (o : Orders)

theorem PERIOGroup.has_insert (g : PERIOGroup) (x y : Nat) (u v : UInt32) :
    (g.insert x u).has y v ↔ g.has y v ∨ y = x ∧ v = u := by
  unfold PERIOGroup.insert
  split
  · rename_i hx
    unfold PERIOGroup.has
    simp only [GoMap.lookup_insert_eq]
    by_cases hy : y = x
    · subst hy
      simp [hx]
    · simp [hy]
  · rename_i us hx
    unfold PERIOGroup.has
    simp only [GoMap.lookup_insert_eq]
    by_cases hy : y = x
    · subst hy
      simp [hx, or_comm]
    · simp [hy]

theorem PERIOGroup.has_delete (g : PERIOGroup) (x y : Nat) (u v : UInt32) :
    (g.delete x u).has y v ↔ g.has y v ∧ ¬ (y = x ∧ v = u) := by
  unfold PERIOGroup.delete
  split
  · rename_i hx
    refine ⟨fun h => ⟨h, fun e => ?_⟩, fun h => h.1⟩
    obtain ⟨us, hus, _⟩ := h
    rw [e.1, hx] at hus
    cases hus
  · rename_i us hx
    split_ifs with he
    · unfold PERIOGroup.has
      simp only [GoMap.lookup_erase_eq]
      by_cases hy : y = x
      · subst hy
        have hu : ∀ w ∈ us, w = u := by
          intro w hw
          by_contra hne
          exact Finset.notMem_empty w (he ▸ Finset.mem_erase.mpr ⟨hne, hw⟩)
        simp only [↓reduceIte, reduceCtorEq, false_and, exists_false, hx, Option.some.injEq,
          exists_eq_left', true_and, false_iff, not_and, not_not]
        exact hu v
      · simp [hy]
    · unfold PERIOGroup.has
      simp only [GoMap.lookup_insert_eq]
      by_cases hy : y = x
      · subst hy
        simp [hx, and_comm]
      · simp [hy]

@[simp] theorem PERIOGroup.insert_ticker (g : PERIOGroup) (x : Nat) (u : UInt32) :
    (g.insert x u).ticker = g.ticker := by
  unfold PERIOGroup.insert
  split <;> rfl

@[simp] theorem PERIOGroup.insert_period (g : PERIOGroup) (x : Nat) (u : UInt32) :
    (g.insert x u).period = g.period := by
  unfold PERIOGroup.insert
  split <;> rfl

@[simp] theorem PERIOGroup.delete_ticker (g : PERIOGroup) (x : Nat) (u : UInt32) :
    (g.delete x u).ticker = g.ticker := by
  unfold PERIOGroup.delete
  split
  · rfl
  · split_ifs <;> rfl

@[simp] theorem PERIOGroup.delete_period (g : PERIOGroup) (x : Nat) (u : UInt32) :
    (g.delete x u).period = g.period := by
  unfold PERIOGroup.delete
  split
  · rfl
  · split_ifs <;> rfl

/-- No inner map of the group is empty. -/
def PERIOGroup.InnerFilled (g : PERIOGroup) : Prop :=
  ∀ x us, g.urrids.lookup x = some us → us ≠ ∅

theorem PERIOGroup.innerFilled_insert (h : g.InnerFilled) (x : Nat) (u : UInt32) :
    (g.insert x u).InnerFilled := by
  unfold PERIOGroup.insert
  split
  · exact GoMap.forall_lookup_insert (Finset.singleton_ne_empty u) h
  · exact GoMap.forall_lookup_insert (Finset.insert_ne_empty u _) h

theorem PERIOGroup.innerFilled_delete (h : g.InnerFilled) (x : Nat) (u : UInt32) :
    (g.delete x u).InnerFilled := by
  unfold PERIOGroup.delete
  split
  · exact h
  · split_ifs with he
    · exact fun y us hy => h y us (GoMap.lookup_of_erase hy)
    · exact GoMap.forall_lookup_insert he h

theorem PERIOGroup.insert_ne_empty (g : PERIOGroup) (x : Nat) (u : UInt32) :
    (g.insert x u).urrids ≠ ∅ := by
  intro he
  have hx : (g.insert x u).has x u := (g.has_insert x x u u).mpr (Or.inr ⟨rfl, rfl⟩)
  obtain ⟨us, hus, _⟩ := hx
  rw [he, Finmap.lookup_empty] at hus
  cases hus

theorem PERIOGroup.not_has_of_empty (h : g.urrids = ∅) (x : Nat) (u : UInt32) : ¬ g.has x u := by
  intro hx
  obtain ⟨us, hus, _⟩ := hx
  rw [h, Finmap.lookup_empty] at hus
  cases hus

/-! ## Which pairs the groups hold -/

@[simp] theorem holds_turn (s : Server) (p : Period) (x : Nat) (u : UInt32) :
    s.turn.Holds p x u ↔ s.Holds p x u := Iff.rfl

theorem newTicker_none (s : Server) (period : Period) :
    newTicker s { urrids := ∅, period := period, ticker := none } = some
      ({ s with tickers := s.tickers ++ [⟨s.stopChs, period⟩], stopChs := s.stopChs + 1 },
       { urrids := ∅, period := period, ticker := some s.stopChs }) := rfl

theorem holds_add (s : Server) (x : Nat) (u : UInt32) (p q : Period) (y : Nat) (v : UInt32) :
    (add s x u p).Holds q y v ↔ s.Holds q y v ∨ q = p ∧ y = x ∧ v = u := by
  unfold add
  split
  · rename_i g hg
    unfold Server.Holds
    simp only [GoMap.lookup_insert_eq]
    by_cases hq : q = p
    · subst hq
      simp [hg, PERIOGroup.has_insert]
    · simp [hq]
  · rename_i hg
    rw [newTicker_none]
    unfold Server.Holds
    simp only [GoMap.lookup_insert_eq]
    by_cases hq : q = p
    · subst hq
      have hno := PERIOGroup.not_has_of_empty
        (g := { urrids := ∅, period := q, ticker := some s.stopChs }) rfl y v
      simp [hg, PERIOGroup.has_insert, hno]
    · simp [hq]

theorem holds_delFrom (s : Server) (p q : Period) (x y : Nat) (u v : UInt32) :
    (delFrom s p x u).Holds q y v ↔ s.Holds q y v ∧ ¬ (q = p ∧ y = x ∧ v = u) := by
  unfold delFrom
  split
  · rename_i hg
    refine ⟨fun h => ⟨h, fun e => ?_⟩, fun h => h.1⟩
    obtain ⟨g, hg', _⟩ := h
    rw [e.1, hg] at hg'
    cases hg'
  · rename_i g hg
    dsimp only
    split_ifs with he
    · unfold Server.Holds
      simp only [stopTicker, GoMap.lookup_erase_eq]
      by_cases hq : q = p
      · subst hq
        -- the group went: the pair was its only one
        have hno := PERIOGroup.not_has_of_empty he y v
        rw [PERIOGroup.has_delete] at hno
        simp only [↓reduceIte, reduceCtorEq, false_and, exists_false, hg, Option.some.injEq,
          exists_eq_left', true_and, false_iff]
        exact hno
      · simp [hq]
    · unfold Server.Holds
      simp only [GoMap.lookup_insert_eq]
      by_cases hq : q = p
      · subst hq
        simp [hg, PERIOGroup.has_delete]
      · simp [hq]

/-- When only the group of `p` may hold the pair, a DEL takes it out of every group and
    touches no other pair. -/
theorem holds_del {x : Nat} {u : UInt32} (huniq : ∀ p q, s.Holds p x u → s.Holds q x u → p = q)
    (q : Period) (y : Nat) (v : UInt32) :
    (del o s x u).Holds q y v ↔ s.Holds q y v ∧ ¬ (y = x ∧ v = u) := by
  unfold del
  split
  · rename_i p hp
    have hpx : s.Holds p x u := by simpa using List.find?_some hp
    rw [holds_delFrom]
    refine and_congr_right fun hq => not_congr ?_
    refine ⟨fun e => e.2, fun e => ⟨?_, e⟩⟩
    exact huniq q p (e.1 ▸ e.2 ▸ hq) hpx
  · rename_i hnone
    refine ⟨fun h => ⟨h, fun e => ?_⟩, fun h => h.1⟩
    obtain ⟨rfl, rfl⟩ := e
    have hmem : q ∈ o.period.keys s.events s.perioList.keys := by
      rw [o.period.mem_keys, Finmap.mem_keys, Finmap.mem_iff]
      obtain ⟨g, hg, _⟩ := h
      exact ⟨g, hg⟩
    have := List.find?_eq_none.mp hnone q hmem
    simp [h] at this

/-! ## Groups and tickers -/

/-- The running tickers of a period. -/
def Server.tickersOf (s : Server) (p : Period) : List Ticker :=
  s.tickers.filter fun t => t.period = p

/-- Each group sits under its own period, is not empty and owns the one running ticker of
    that period; a period without a group has no running ticker; stop channels are not
    shared. -/
structure Server.WF (s : Server) : Prop where
  period_eq : ∀ p g, s.perioList.lookup p = some g → g.period = p
  filled : ∀ p g, s.perioList.lookup p = some g → g.urrids ≠ ∅ ∧ g.InnerFilled
  ticking : ∀ p g, s.perioList.lookup p = some g →
    ∃ c, g.ticker = some c ∧ s.tickersOf p = [⟨c, p⟩]
  idle : ∀ p, s.perioList.lookup p = none → s.tickersOf p = []
  fresh : ∀ t ∈ s.tickers, t.stopCh < s.stopChs
  distinct : (s.tickers.map Ticker.stopCh).Nodup

theorem wf_open : Server.open.WF where
  period_eq := fun p g h => by simp [Server.open] at h
  filled := fun p g h => by simp [Server.open] at h
  ticking := fun p g h => by simp [Server.open] at h
  idle := fun _ _ => rfl
  fresh := fun t h => by simp [Server.open] at h
  distinct := List.nodup_nil

/-- `WF` does not look at the turn counter. -/
theorem Server.WF.turn (h : s.WF) : s.turn.WF := { h with }

/-- Replacing a group by one with the same period and ticker keeps `WF`, if the new group
    is filled. -/
theorem Server.WF.replace (h : s.WF) {p : Period} {g' : PERIOGroup}
    (hg : s.perioList.lookup p = some g) (hper : g'.period = g.period)
    (htick : g'.ticker = g.ticker) (hne : g'.urrids ≠ ∅) (hin : g'.InnerFilled) :
    Server.WF { s with perioList := s.perioList.insert p g' } where
  period_eq := by
    refine GoMap.forall_lookup_insert ?_ h.period_eq
    rw [hper]
    exact h.period_eq p g hg
  filled := GoMap.forall_lookup_insert ⟨hne, hin⟩ h.filled
  ticking := by
    refine GoMap.forall_lookup_insert ?_ h.ticking
    rw [htick]
    exact h.ticking p g hg
  idle := by
    intro q hq
    rw [GoMap.lookup_insert_eq] at hq
    split_ifs at hq with e
    exact h.idle q hq
  fresh := h.fresh
  distinct := h.distinct

/-- Starting a ticker for a period without a group gives that period one running ticker
    and leaves the others as they are. -/
theorem tickersOf_start (s : Server) (p q : Period) (c : Nat) (h : s.tickersOf p = []) :
    Server.tickersOf { s with tickers := s.tickers ++ [⟨c, p⟩], stopChs := c + 1 } q =
      if q = p then [⟨c, p⟩] else s.tickersOf q := by
  unfold Server.tickersOf at h ⊢
  rw [List.filter_append]
  split_ifs with e
  · subst e
    rw [h]
    simp
  · have hne : ¬ p = q := fun e' => e e'.symm
    simp [hne]

theorem Server.WF.add (h : s.WF) (x : Nat) (u : UInt32) (p : Period) : (Perio.add s x u p).WF := by
  unfold Perio.add
  split
  · rename_i g hg
    have hf := h.filled p g hg
    exact h.replace hg (g.insert_period x u) (g.insert_ticker x u) (g.insert_ne_empty x u)
      (PERIOGroup.innerFilled_insert hf.2 x u)
  · rename_i hg
    rw [newTicker_none]
    dsimp only
    set g : PERIOGroup := { urrids := ∅, period := p, ticker := some s.stopChs } with hgdef
    have hin : g.InnerFilled := by
      intro y us hy
      rw [hgdef] at hy
      simp at hy
    have hidle := h.idle p hg
    refine ⟨?_, ?_, ?_, ?_, ?_, ?_⟩
    · exact GoMap.forall_lookup_insert (g.insert_period x u) h.period_eq
    · exact GoMap.forall_lookup_insert
        ⟨g.insert_ne_empty x u, PERIOGroup.innerFilled_insert hin x u⟩ h.filled
    · intro q k hk
      have hstart := tickersOf_start s p q s.stopChs hidle
      rw [GoMap.lookup_insert_eq] at hk
      split_ifs at hk with e
      · cases hk
        refine ⟨s.stopChs, g.insert_ticker x u, ?_⟩
        rw [if_pos e] at hstart
        rw [e] at hstart ⊢
        exact hstart
      · obtain ⟨c, hc, ht⟩ := h.ticking q k hk
        rw [if_neg e, ht] at hstart
        exact ⟨c, hc, hstart⟩
    · intro q hq
      have hstart := tickersOf_start s p q s.stopChs hidle
      rw [GoMap.lookup_insert_eq] at hq
      split_ifs at hq with e
      rw [if_neg e, h.idle q hq] at hstart
      exact hstart
    · intro t ht
      rcases List.mem_append.mp ht with ht | ht
      · have := h.fresh t ht
        dsimp only
        omega
      · rw [List.mem_singleton] at ht
        subst ht
        exact Nat.lt_succ_self s.stopChs
    · rw [List.map_append]
      refine List.nodup_append.mpr ⟨h.distinct, List.nodup_singleton _, ?_⟩
      intro a ha b hb e
      obtain ⟨t, ht, rfl⟩ := List.mem_map.mp ha
      have hlt := h.fresh t ht
      simp only [List.map_cons, List.map_nil, List.mem_singleton] at hb
      omega

/-- Stopping a group's ticker ends the running ticker of its period and no other. -/
theorem tickersOf_stop (h : s.WF) {p : Period} {c : Nat} (hc : g.ticker = some c)
    (ht : s.tickersOf p = [⟨c, p⟩]) (q : Period) :
    (stopTicker s g).tickersOf q = if q = p then [] else s.tickersOf q := by
  have hmem : (⟨c, p⟩ : Ticker) ∈ s.tickers := by
    have hm : (⟨c, p⟩ : Ticker) ∈ s.tickersOf p := by rw [ht]; exact List.mem_singleton_self _
    exact (List.mem_filter.mp hm).1
  have hcomm : (stopTicker s g).tickersOf q =
      (s.tickersOf q).filter fun t => some t.stopCh ≠ g.ticker := by
    unfold stopTicker Server.tickersOf
    rw [List.filter_filter, List.filter_filter]
    exact List.filter_congr fun t _ => Bool.and_comm _ _
  rw [hcomm]
  split_ifs with e
  · rw [e, ht, hc]
    simp
  · refine List.filter_eq_self.mpr fun t htq => ?_
    have htq' := List.mem_filter.mp htq
    have hper : t.period = q := by simpa using htq'.2
    rw [hc]
    simp only [ne_eq, Option.some.injEq, decide_not, Bool.not_eq_eq_eq_not, Bool.not_true,
      decide_eq_false_iff_not]
    intro hcc
    -- two running tickers never share a stop channel
    have heq : t = ⟨c, p⟩ := List.inj_on_of_nodup_map h.distinct htq'.1 hmem hcc
    rw [heq] at hper
    exact e hper.symm

theorem Server.WF.delFrom (h : s.WF) (p : Period) (x : Nat) (u : UInt32) :
    (Perio.delFrom s p x u).WF := by
  unfold Perio.delFrom
  split
  · exact h
  · rename_i g hg
    dsimp only
    have hf := h.filled p g hg
    split_ifs with he
    · obtain ⟨c, hc, ht⟩ := h.ticking p g hg
      have hc' : (g.delete x u).ticker = some c := by rw [g.delete_ticker, hc]
      refine ⟨?_, ?_, ?_, ?_, ?_, ?_⟩
      · exact fun q k hk => h.period_eq q k (GoMap.lookup_of_erase hk)
      · exact fun q k hk => h.filled q k (GoMap.lookup_of_erase hk)
      · intro q k hk
        rw [GoMap.lookup_erase_eq] at hk
        split_ifs at hk with e
        obtain ⟨c', hk', ht'⟩ := h.ticking q k hk
        have hstop := tickersOf_stop h hc' ht q
        rw [if_neg e, ht'] at hstop
        exact ⟨c', hk', hstop⟩
      · intro q hq
        have hstop := tickersOf_stop h hc' ht q
        rw [GoMap.lookup_erase_eq] at hq
        split_ifs at hq with e
        · rw [if_pos e] at hstop
          exact hstop
        · rw [if_neg e, h.idle q hq] at hstop
          exact hstop
      · intro t ht'
        exact h.fresh t (List.mem_filter.mp ht').1
      · exact h.distinct.sublist (List.Sublist.map _ List.filter_sublist)
    · exact h.replace hg (g.delete_period x u) (g.delete_ticker x u) he
        (PERIOGroup.innerFilled_delete hf.2 x u)

theorem Server.WF.del (h : s.WF) (o : Orders) (x : Nat) (u : UInt32) : (Perio.del o s x u).WF := by
  unfold Perio.del
  split
  · exact h.delFrom _ x u
  · exact h

/-! ## What a timeout asks for -/

/-- The inner loop of the TIMEOUT case appends the visited URRs to the session's entry. -/
theorem lookup_foldl_append (x y : Nat) (l : List UInt32) (m : GoMap Nat (List UInt32)) :
    (l.foldl (fun m u => m.insert x ((m.lookup x).getD [] ++ [u])) m).lookup y =
      if y = x ∧ l ≠ [] then some ((m.lookup x).getD [] ++ l) else m.lookup y := by
  induction l generalizing m with
  | nil => simp
  | cons u l ih =>
    rw [List.foldl_cons, ih, GoMap.lookup_insert_eq, GoMap.lookup_insert_eq]
    by_cases hy : y = x
    · subst hy
      by_cases hl : l = []
      · simp [hl]
      · simp [hl]
    · simp [hy]

/-- The outer loop gives each visited session the URRs of its inner loop. -/
theorem lookup_foldl_sessions (f : Nat → List UInt32) (y : Nat) (xs : List Nat) (hnd : xs.Nodup)
    (m : GoMap Nat (List UInt32)) (hm : ∀ x ∈ xs, m.lookup x = none) :
    (xs.foldl (fun m x => (f x).foldl
      (fun m u => m.insert x ((m.lookup x).getD [] ++ [u])) m) m).lookup y =
      if y ∈ xs ∧ f y ≠ [] then some (f y) else m.lookup y := by
  induction xs generalizing m with
  | nil => simp
  | cons x xs ih =>
    have hnd' := List.nodup_cons.mp hnd
    rw [List.foldl_cons, ih hnd'.2]
    · rw [lookup_foldl_append, hm x List.mem_cons_self]
      by_cases hy : y = x
      · subst hy
        simp [hnd'.1]
      · simp [hy]
    · intro z hz
      have hzx : z ≠ x := fun e => hnd'.1 (e ▸ hz)
      rw [lookup_foldl_append, if_neg (fun e => hzx e.1)]
      exact hm z (List.mem_cons_of_mem x hz)

/-- `queryURR` is asked for exactly the pairs of the group, each once. -/
theorem lookup_lSeidUrridsMap (t : Nat) (g : PERIOGroup) (x : Nat) (us : List UInt32)
    (h : (lSeidUrridsMap o t g).lookup x = some us) :
    us.Nodup ∧ ∀ u, u ∈ us ↔ g.has x u := by
  unfold lSeidUrridsMap at h
  rw [lookup_foldl_sessions (fun x => o.urr.keys (Nat.pair t x) ((g.urrids.lookup x).getD ∅)) x
    _ (o.seid.nodup t _) ∅ (fun _ _ => Finmap.lookup_empty _)] at h
  split_ifs at h with hx
  · cases h
    refine ⟨o.urr.nodup _ _, fun u => ?_⟩
    rw [o.seid.mem_keys, Finmap.mem_keys, Finmap.mem_iff] at hx
    obtain ⟨⟨vs, hvs⟩, _⟩ := hx
    rw [o.urr.mem_keys, hvs]
    unfold PERIOGroup.has
    simp [hvs]
  · simp at h

theorem lSeidUrridsMap_of_has (t : Nat) (g : PERIOGroup) (x : Nat) (u : UInt32) (h : g.has x u) :
    ∃ us, (lSeidUrridsMap o t g).lookup x = some us ∧ u ∈ us := by
  obtain ⟨vs, hvs, hu⟩ := h
  unfold lSeidUrridsMap
  rw [lookup_foldl_sessions (fun x => o.urr.keys (Nat.pair t x) ((g.urrids.lookup x).getD ∅)) x
    _ (o.seid.nodup t _) ∅ (fun _ _ => Finmap.lookup_empty _)]
  have hmem : u ∈ o.urr.keys (Nat.pair t x) ((g.urrids.lookup x).getD ∅) := by
    rw [o.urr.mem_keys, hvs]
    exact hu
  have hx : x ∈ o.seid.keys t g.urrids.keys := by
    rw [o.seid.mem_keys, Finmap.mem_keys, Finmap.mem_iff]
    exact ⟨vs, hvs⟩
  rw [if_pos ⟨hx, List.ne_nil_of_mem hmem⟩]
  exact ⟨_, rfl, hmem⟩

/-- The pair is among those a timeout of `p` asks `queryURR` for. -/
def Asked (o : Orders) (s : Server) (p : Period) (x : Nat) (u : UInt32) : Prop :=
  ∃ m us, queried o s p = some m ∧ m.lookup x = some us ∧ u ∈ us

theorem asked_iff_holds (s : Server) (p : Period) (x : Nat) (u : UInt32) :
    Asked o s p x u ↔ s.Holds p x u := by
  unfold Asked queried
  refine ⟨fun h => ?_, fun h => ?_⟩
  · obtain ⟨m, us, hm, hus, hu⟩ := h
    obtain ⟨g, hg, rfl⟩ := Option.map_eq_some_iff.mp hm
    exact ⟨g, hg, ((lookup_lSeidUrridsMap o s.events g x us hus).2 u).mp hu⟩
  · obtain ⟨g, hg, hx⟩ := h
    obtain ⟨us, hus, hu⟩ := lSeidUrridsMap_of_has o s.events g x u hx
    exact ⟨_, us, by rw [hg]; rfl, hus, hu⟩

/-! ## Runs -/

/-- The server after one turn of the loop. -/
def Server.next (o : Orders) (query : QueryURR) (s : Server) (e : Event) : Server :=
  (s.serve o query e).1

/-- How an event changes the registration of each pair, read off the event alone. -/
def record (reg : Nat → UInt32 → Option Period) (e : Event) : Nat → UInt32 → Option Period :=
  fun x u =>
    match e with
    | .add y v p => if x = y ∧ u = v then some p else reg x u
    | .del y v => if x = y ∧ u = v then none else reg x u
    | _ => reg x u

/-- The period the latest ADD of the pair named, unless a DEL of the pair came after it. -/
def latest (es : List Event) : Nat → UInt32 → Option Period :=
  es.foldl record fun _ _ => none

/-- The groups hold each pair under its registered period and under no other. -/
def Server.Agrees (s : Server) (reg : Nat → UInt32 → Option Period) : Prop :=
  ∀ p x u, s.Holds p x u ↔ reg x u = some p

/-- An ADD names a pair that no group of another period holds. -/
def AddsInPlace (s : Server) : Event → Prop
  | .add x u p => ∀ q, s.Holds q x u → q = p
  | _ => True

/-- What one turn other than a close does to an open server. -/
theorem next_cases (query : QueryURR) (hopen : s.closed = false) (e : Event) (he : e ≠ .close) :
    (∃ x u p, e = .add x u p ∧
      s.next o query e = (add s x u p).turn) ∨
    (∃ x u, e = .del x u ∧
      s.next o query e = (del o s x u).turn) ∨
    (∃ p, e = .timeout p ∧ s.next o query e = s.turn) := by
  unfold Server.next Server.serve
  rw [hopen]
  cases e with
  | add x u p => exact Or.inl ⟨x, u, p, rfl, rfl⟩
  | del x u => exact Or.inr (Or.inl ⟨x, u, rfl, rfl⟩)
  | timeout p => exact Or.inr (Or.inr ⟨p, rfl, rfl⟩)
  | close => exact absurd rfl he

theorem add_closed (s : Server) (x : Nat) (u : UInt32) (p : Period) :
    (add s x u p).closed = s.closed := by
  unfold add
  split
  · rfl
  · rw [newTicker_none]

theorem delFrom_closed (s : Server) (p : Period) (x : Nat) (u : UInt32) :
    (delFrom s p x u).closed = s.closed := by
  unfold delFrom
  split
  · rfl
  · dsimp only
    split_ifs <;> rfl

theorem del_closed (s : Server) (x : Nat) (u : UInt32) :
    (del o s x u).closed = s.closed := by
  unfold del
  split
  · exact delFrom_closed s _ x u
  · rfl

/-- Open servers with `WF` stay so on every turn other than a close. -/
theorem next_wf (query : QueryURR) (e : Event) (he : e ≠ .close) (h : s.closed = false ∧ s.WF) :
    (s.next o query e).closed = false ∧ (s.next o query e).WF := by
  obtain ⟨hopen, hwf⟩ := h
  rcases next_cases o query hopen e he with ⟨x, u, p, -, hn⟩ | ⟨x, u, -, hn⟩ | ⟨p, -, hn⟩
  · rw [hn]
    exact ⟨(add_closed s x u p).trans hopen, (hwf.add x u p).turn⟩
  · rw [hn]
    exact ⟨(del_closed o s x u).trans hopen, (hwf.del o x u).turn⟩
  · rw [hn]
    exact ⟨hopen, hwf.turn⟩

/-- The run lemma for `WF`. -/
theorem run_wf (query : QueryURR) (es : List Event) (hes : Event.close ∉ es) :
    (es.foldl (Server.next o query) Server.open).closed = false ∧
      (es.foldl (Server.next o query) Server.open).WF := by
  refine foldl_inv_of_mem (fun s : Server => s.closed = false ∧ s.WF) (fun e => e ≠ .close) ?_ es ?_
    ⟨rfl, wf_open⟩
  · intro s e he h
    exact next_wf o query e he h
  · intro e he hc
    exact hes (hc ▸ he)

/-- An ADD in place, a DEL and a timeout keep the groups in step with the registrations. -/
theorem next_agrees (query : QueryURR) {e : Event} {reg : Nat → UInt32 → Option Period}
    (hopen : s.closed = false) (he : e ≠ .close) (hadd : AddsInPlace s e) (h : s.Agrees reg) :
    (s.next o query e).Agrees (record reg e) := by
  intro q y v
  rcases next_cases o query hopen e he with ⟨x, u, p, rfl, hn⟩ | ⟨x, u, rfl, hn⟩ | ⟨p, rfl, hn⟩
  · rw [hn, holds_turn, holds_add]
    unfold record
    dsimp only
    by_cases hyv : y = x ∧ v = u
    · obtain ⟨rfl, rfl⟩ := hyv
      simp only [and_self, and_true, ↓reduceIte, Option.some.injEq]
      refine ⟨fun hq => ?_, fun hq => Or.inr hq.symm⟩
      rcases hq with hq | hq
      · exact (hadd q hq).symm
      · exact hq.symm
    · rw [if_neg hyv, h q y v]
      simp [hyv]
  · have huniq : ∀ p q, s.Holds p x u → s.Holds q x u → p = q := by
      intro p q hp hq
      rw [h] at hp hq
      exact Option.some.inj (hp.symm.trans hq)
    rw [hn, holds_turn, holds_del o huniq, h q y v]
    unfold record
    dsimp only
    by_cases hyv : y = x ∧ v = u
    · simp [hyv]
    · rw [if_neg hyv]
      simp [hyv]
  · rw [hn, holds_turn, h q y v]
    rfl

/-- The run lemma for `Agrees`. -/
theorem run_agrees (query : QueryURR) (es : List Event) {reg : Nat → UInt32 → Option Period}
    (hes : Event.close ∉ es) (hs : s.closed = false ∧ s.WF)
    (hadds : StepsMeet (Server.next o query) AddsInPlace s es) (h : s.Agrees reg) :
    (es.foldl (Server.next o query) s).Agrees (es.foldl record reg) := by
  induction es generalizing s reg with
  | nil => exact h
  | cons e es ih =>
    have he : e ≠ .close := fun hc => hes (hc ▸ List.mem_cons_self)
    have hes' : Event.close ∉ es := fun hm => hes (List.mem_cons_of_mem e hm)
    exact ih hes' (next_wf o query e he hs) hadds.2 (next_agrees o query hs.1 he hadds.1 h)

theorem open_agrees : Server.open.Agrees fun _ _ => none := by
  intro p x u
  refine ⟨fun h => ?_, fun h => by cases h⟩
  obtain ⟨g, hg, _⟩ := h
  simp [Server.open] at hg

theorem latest_snoc (es : List Event) (e : Event) :
    latest (es ++ [e]) = record (latest es) e := by
  unfold latest
  rw [List.foldl_append]
  rfl

/-- A registration that a DEL ended stays ended while no ADD of the pair follows. -/
theorem latest_after_del (pre suf : List Event) (x : Nat) (u : UInt32)
    (hsuf : ∀ p, Event.add x u p ∉ suf) : latest (pre ++ .del x u :: suf) x u = none := by
  unfold latest
  rw [List.foldl_append, List.foldl_cons]
  refine foldl_inv_of_mem (fun reg : Nat → UInt32 → Option Period => reg x u = none)
    (fun e => ∀ p, e ≠ .add x u p) ?_ suf ?_ ?_
  · intro reg e he hreg
    unfold record
    cases e with
    | add y v p =>
      have hne : ¬ (x = y ∧ u = v) := by
        intro hxy
        obtain ⟨rfl, rfl⟩ := hxy
        exact he p rfl
      simp only [hne, ↓reduceIte]
      exact hreg
    | del y v =>
      simp only [hreg, ite_self]
    | timeout p => exact hreg
    | close => exact hreg
  · intro e he p hep
    exact hsuf p (hep ▸ he)
  · unfold record
    simp

/-- What periodic reporting promises after the events `es`: a deleted pair is in no group
    until it is added again; every group is not empty and owns exactly one running ticker,
    of its own period; a timeout of `p` asks for exactly the pairs registered under `p`. -/
def StopsWhenAsked (o : Orders) (query : QueryURR) (es : List Event) : Prop :=
  let s := es.foldl (Server.next o query) Server.open
  (∀ pre suf x u, es = pre ++ .del x u :: suf → (∀ p, Event.add x u p ∉ suf) →
    ∀ p, ¬ s.Holds p x u) ∧
  (∀ p g, s.perioList.lookup p = some g →
    (∃ x u, g.has x u) ∧ ∃ c, g.ticker = some c ∧ s.tickersOf p = [⟨c, p⟩]) ∧
  (∀ p x u, Asked o s p x u ↔ latest es x u = some p)

theorem stopsWhenAsked_of_adds (query : QueryURR) (es : List Event) (hes : Event.close ∉ es)
    (hadds : StepsMeet (Server.next o query) AddsInPlace Server.open es) :
    StopsWhenAsked o query es := by
  have hwf := (run_wf o query es hes).2
  have hag : (es.foldl (Server.next o query) Server.open).Agrees (latest es) :=
    run_agrees o query es hes ⟨rfl, wf_open⟩ hadds open_agrees
  refine ⟨?_, ?_, ?_⟩
  · intro pre suf x u hsplit hsuf p hp
    rw [hag p x u, hsplit, latest_after_del pre suf x u hsuf] at hp
    cases hp
  · intro p g hg
    obtain ⟨hne, hin⟩ := hwf.filled p g hg
    refine ⟨?_, hwf.ticking p g hg⟩
    obtain ⟨x, us, hx⟩ : ∃ x us, g.urrids.lookup x = some us := by
      by_contra hno
      push Not at hno
      refine hne (Finmap.ext_lookup fun x => ?_)
      rw [Finmap.lookup_empty]
      exact Option.eq_none_iff_forall_ne_some.mpr fun us hus => hno x us hus
    obtain ⟨u, hu⟩ := Finset.nonempty_iff_ne_empty.mpr (hin x us hx)
    exact ⟨x, u, us, hx, hu⟩
  · intro p x u
    rw [asked_iff_holds]
    exact hag p x u

/-- One second, as a ticker period. -/
def second : Period := ⟨1000000000, by decide⟩

/-- Two seconds, as a ticker period. -/
def twoSeconds : Period := ⟨2000000000, by decide⟩

end Free5gc.Upf.Perio
