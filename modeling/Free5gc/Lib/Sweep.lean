/-
  A queue search that marks a node when it leaves the queue, not when it enters. A node may then wait
  in the queue several times, and add its successors each time it leaves.

  `Swept` relates the state of such a search to the leaves it still finds: the nodes that add nothing
  when they leave. The search ends on every finite type of nodes (`exists_swept`). A leaf is found
  twice exactly if some node enters the queue twice, and this can be said of the graph alone: the
  start and then, node by node, the successors that do not stand at or before it are an order without
  repetition (`Listed`, `Swept.not_twice_iff`). Nothing in this file names the repository.
-/
import Mathlib.Data.Fintype.Card
import Mathlib.Data.List.Nodup

namespace Free5gc.Lib

variable {N : Type} [DecidableEq N] (next : N → List N)

/-- What `n` adds to the queue when it leaves after `done`. -/
def fresh (done : List N) (n : N) : List N := (next n).filter fun w => w ∉ n :: done

/-- `Swept done queue leaves`: after `done`, with `queue` waiting, the search ends, and `leaves` are
    those that add nothing when they leave. -/
inductive Swept : List N → List N → List N → Prop
  | nil (done : List N) : Swept done [] []
  | leaf {done queue leaves : List N} {n : N} (hnone : fresh next done n = [])
      (hrest : Swept (done ++ [n]) (queue ++ fresh next done n) leaves) :
      Swept done (n :: queue) (n :: leaves)
  | inner {done queue leaves : List N} {n : N} (hsome : fresh next done n ≠ [])
      (hrest : Swept (done ++ [n]) (queue ++ fresh next done n) leaves) :
      Swept done (n :: queue) leaves

/-- What the nodes of a list add, one after the other, the first of them after `done`. -/
def follow (done : List N) : List N → List N
  | [] => []
  | n :: rest => fresh next done n ++ follow (done ++ [n]) rest

/-- `order` lists `start` and then what each of its nodes adds after those before it. -/
def Listed (start : N) (order : List N) : Prop := order = start :: follow next [] order

variable {next} {done queue leaves : List N} {n v w start : N}

theorem mem_fresh : w ∈ fresh next done n ↔ w ∈ next n ∧ w ∉ n :: done := by
  unfold fresh
  rw [List.mem_filter, decide_eq_true_iff]

theorem not_mem_done_of_fresh (h : w ∈ fresh next done n) : w ∉ done ++ [n] := by
  intro hw
  refine (mem_fresh.mp h).2 ?_
  rw [List.mem_append, List.mem_singleton] at hw
  exact List.mem_cons.mpr hw.symm

theorem follow_append (l m : List N) :
    follow next done (l ++ m) = follow next done l ++ follow next (done ++ l) m := by
  induction l generalizing done with
  | nil => rw [List.nil_append, List.append_nil, follow, List.nil_append]
  | cons n l ih =>
    rw [List.cons_append, follow, follow, ih, List.append_assoc, List.append_assoc]
    rfl

/-- One node leaves, whether it is a leaf or not. -/
theorem Swept.cons (h : Swept next (done ++ [n]) (queue ++ fresh next done n) leaves) :
    Swept next done (n :: queue) ((if fresh next done n = [] then [n] else []) ++ leaves) := by
  split_ifs with hf
  · exact .leaf hf h
  · exact .inner hf h

/-! ## The search ends -/

/-- The nodes in the queue that have left before, after one more of them has left. -/
theorem countP_seen (hn : n ∈ done) :
    (queue ++ fresh next done n).countP (fun w => w ∈ done ++ [n]) <
      (n :: queue).countP (fun w => w ∈ done) := by
  have hfresh : (fresh next done n).countP (fun w => w ∈ done ++ [n]) = 0 := by
    rw [List.countP_eq_zero]
    intro w hw h
    exact not_mem_done_of_fresh hw (of_decide_eq_true h)
  have hqueue : queue.countP (fun w => w ∈ done ++ [n]) = queue.countP (fun w => w ∈ done) := by
    refine List.countP_congr fun w _ => ?_
    rw [decide_eq_true_iff, decide_eq_true_iff, List.mem_append, List.mem_singleton]
    exact ⟨fun h => h.elim id fun hw => hw ▸ hn, .inl⟩
  rw [List.countP_append, hfresh, hqueue, List.countP_cons, if_pos (decide_eq_true hn)]
  omega

theorem toFinset_snoc (done : List N) (n : N) :
    (done ++ [n]).toFinset = insert n done.toFinset := by
  ext w
  simp

/-- A node that has left before adds only nodes that have not, so that fewer of the former wait. Any
    other node is one less to leave for the first time. -/
theorem exists_swept [Fintype N] (next : N → List N) (done queue : List N) :
    ∃ leaves, Swept next done queue leaves := by
  match queue with
  | [] => exact ⟨[], .nil done⟩
  | n :: queue =>
    obtain ⟨leaves, h⟩ := exists_swept next (done ++ [n]) (queue ++ fresh next done n)
    exact ⟨_, h.cons⟩
termination_by (done.toFinsetᶜ.card, queue.countP (fun w => w ∈ done))
decreasing_by
  by_cases hn : n ∈ done
  · rw [toFinset_snoc, Finset.insert_eq_of_mem (List.mem_toFinset.mpr hn)]
    exact Prod.Lex.right _ (countP_seen hn)
  · refine Prod.Lex.left _ _ ?_
    rw [toFinset_snoc, Finset.compl_insert]
    exact Finset.card_erase_lt_of_mem (by simpa using hn)

/-! ## What is found -/

/-- A property of the queue that goes over to successors holds of all leaves. -/
theorem Swept.forall_leaves {P : N → Prop} (hnext : ∀ u, P u → ∀ w ∈ next u, P w)
    (h : Swept next done queue leaves) (hqueue : ∀ v ∈ queue, P v) : ∀ v ∈ leaves, P v := by
  have hstep : ∀ {done queue : List N} {n : N}, (∀ v ∈ n :: queue, P v) →
      ∀ v ∈ queue ++ fresh next done n, P v := by
    intro done queue n hq v hv
    rcases List.mem_append.mp hv with hv | hv
    · exact hq v (List.mem_cons_of_mem _ hv)
    · exact hnext n (hq n List.mem_cons_self) v (mem_fresh.mp hv).1
  induction h with
  | nil => exact fun v hv => absurd hv List.not_mem_nil
  | leaf _ _ ih =>
    exact List.forall_mem_cons.mpr ⟨hqueue _ List.mem_cons_self, ih (hstep hqueue)⟩
  | inner _ _ ih => exact ih (hstep hqueue)

/-- Where something waits, a leaf is found. -/
theorem Swept.ne_nil (h : Swept next done queue leaves) (hqueue : queue ≠ []) : leaves ≠ [] := by
  induction h with
  | nil => exact absurd rfl hqueue
  | leaf => exact List.cons_ne_nil _ _
  | inner hsome _ ih => exact ih fun h => hsome (List.append_eq_nil_iff.mp h).2

/-- A node whose successors have all left is a leaf whenever it leaves. -/
theorem Swept.mem_leaves (h : Swept next done queue leaves) (hv : v ∈ queue)
    (hnext : ∀ w ∈ next v, w ∈ v :: done) : v ∈ leaves := by
  induction h with
  | nil => exact absurd hv List.not_mem_nil
  | @leaf done queue leaves n _ _ ih =>
    rcases List.mem_cons.mp hv with rfl | hv
    · exact List.mem_cons_self
    · refine List.mem_cons_of_mem _ (ih (List.mem_append_left _ hv) fun w hw => ?_)
      have := hnext w hw
      grind
  | @inner done queue leaves n hsome _ ih =>
    rcases List.mem_cons.mp hv with rfl | hv
    · refine absurd (List.eq_nil_iff_forall_not_mem.mpr fun w hw => ?_) hsome
      exact (mem_fresh.mp hw).2 (hnext w (mem_fresh.mp hw).1)
    · refine ih (List.mem_append_left _ hv) fun w hw => ?_
      have := hnext w hw
      grind

/-! ## Leaves found twice -/

/-- Some node with the property `Q` stands in the list twice. -/
def Twice (Q : N → Prop) (l : List N) : Prop := ∃ x, Q x ∧ 2 ≤ l.count x

theorem Twice.cons {Q : N → Prop} {l : List N} (h : Twice Q l) : Twice Q (n :: l) := by
  obtain ⟨x, hx, hc⟩ := h
  exact ⟨x, hx, hc.trans (List.count_le_count_cons)⟩

theorem two_le_count_append {l m : List N} (hl : v ∈ l) (hm : v ∈ m) : 2 ≤ (l ++ m).count v := by
  rw [List.count_append]
  have := List.count_pos_iff.mpr hl
  have := List.count_pos_iff.mpr hm
  omega

/-- The state of a search in which a node that has not left will wait twice: it waits twice already,
    or it waits behind a node `v` that waits itself and will add it once more. -/
def Doubled (next : N → List N) (Q : N → Prop) (done queue : List N) : Prop :=
  (∃ v, Q v ∧ v ∉ done ∧ 2 ≤ queue.count v) ∨
    ∃ ahead behind v w, queue = ahead ++ behind ∧ v ∈ ahead ∧ w ∈ next v ∧ w ∉ done ∧ w ∉ ahead ∧
      w ∈ behind

/-- A node waits twice: so does one that is behind it, or it is found twice. -/
theorem Doubled.step {Q : N → Prop} (hnext : ∀ u, ∀ w ∈ next u, Q w)
    (h : Doubled next Q done (n :: queue)) :
    Doubled next Q (done ++ [n]) (queue ++ fresh next done n) ∨
      fresh next done n = [] ∧ Q n ∧ n ∈ queue := by
  rcases h with ⟨v, hQ, hv, hcount⟩ | ⟨ahead, behind, v, w, hq, hv, hw, hdone, hahead, hbehind⟩
  · by_cases hvn : v = n
    · subst hvn
      have hmem : v ∈ queue := by
        rw [List.count_cons_self] at hcount
        exact List.count_pos_iff.mp (by omega)
      by_cases hf : fresh next done v = []
      · exact .inr ⟨hf, hQ, hmem⟩
      · -- `w` enters behind `v`, which waits once more.
        obtain ⟨w, hw⟩ := List.exists_mem_of_ne_nil _ hf
        by_cases hwq : w ∈ queue
        · exact .inl (.inl ⟨w, hnext v w (mem_fresh.mp hw).1, not_mem_done_of_fresh hw,
            two_le_count_append hwq hw⟩)
        · exact .inl (.inr ⟨queue, fresh next done v, v, w, rfl, hmem, (mem_fresh.mp hw).1,
            not_mem_done_of_fresh hw, hwq, hw⟩)
    · refine .inl (.inl ⟨v, hQ, ?_, ?_⟩)
      · simp [hv, hvn]
      · rw [List.count_cons_of_ne (Ne.symm hvn)] at hcount
        rw [List.count_append]
        omega
  · match ahead with
    | [] => exact absurd hv List.not_mem_nil
    | x :: ahead =>
      obtain ⟨rfl, rfl⟩ := List.cons.inj hq
      have hwn : w ∉ done ++ [n] := by
        simp only [List.mem_cons, not_or] at hahead
        simp [hdone, hahead.1]
      rcases List.mem_cons.mp hv with rfl | hv
      · have hfresh : w ∈ fresh next done v :=
          mem_fresh.mpr ⟨hw, fun h => (List.mem_cons.mp h).elim
            (fun h => hahead (h ▸ List.mem_cons_self)) hdone⟩
        exact .inl (.inl ⟨w, hnext v w hw, hwn,
          two_le_count_append (List.mem_append_right _ hbehind) hfresh⟩)
      · exact .inl (.inr ⟨ahead, behind ++ fresh next done n, v, w, List.append_assoc .., hv, hw,
          hwn, fun h => hahead (List.mem_cons_of_mem _ h), List.mem_append_left _ hbehind⟩)

/-- A node that waits twice before it has left makes some leaf be found twice. -/
theorem Swept.twice {Q : N → Prop} (hnext : ∀ u, ∀ w ∈ next u, Q w)
    (h : Swept next done queue leaves) (hd : Doubled next Q done queue) : Twice Q leaves := by
  induction h with
  | nil =>
    rcases hd with ⟨v, -, -, hcount⟩ | ⟨ahead, behind, v, w, hq, hv, -⟩
    · exact absurd hcount (by simp)
    · rw [(List.append_eq_nil_iff.mp hq.symm).1] at hv
      exact absurd hv List.not_mem_nil
  | @leaf done queue leaves n hnone hrest ih =>
    rcases hd.step hnext with hd | ⟨-, hQ, hmem⟩
    · exact (ih hd).cons
    · refine ⟨n, hQ, ?_⟩
      have hsucc : ∀ w ∈ next n, w ∈ n :: (done ++ [n]) := by
        intro w hw
        by_contra hnot
        refine List.eq_nil_iff_forall_not_mem.mp hnone w (mem_fresh.mpr ⟨hw, fun h => hnot ?_⟩)
        grind
      have := List.count_pos_iff.mpr (hrest.mem_leaves (List.mem_append_left _ hmem) hsucc)
      rw [List.count_cons_self]
      omega
  | inner hsome _ ih =>
    rcases hd.step hnext with hd | ⟨hnone, -⟩
    · exact ih hd
    · exact absurd hnone hsome

/-- One more node has left: the listing so far goes on with what it adds. -/
theorem listing_step (h : done ++ n :: queue = start :: follow next [] done) :
    (done ++ [n]) ++ (queue ++ fresh next done n) = start :: follow next [] (done ++ [n]) := by
  rw [follow_append, List.nil_append, follow, follow, List.append_nil, ← List.cons_append, ← h]
  simp only [List.append_assoc, List.cons_append, List.nil_append]

theorem nodup_or_doubled {Q : N → Prop} (hnext : ∀ u, ∀ w ∈ next u, Q w)
    (hnodup : (done ++ n :: queue).Nodup) :
    ((done ++ [n]) ++ (queue ++ fresh next done n)).Nodup ∨
      Doubled next Q (done ++ [n]) (queue ++ fresh next done n) := by
  have hparts : ((done ++ [n]) ++ queue).Nodup := by rwa [List.append_assoc]
  obtain ⟨hdone, hqueue, hdisj⟩ := List.nodup_append.mp hparts
  by_cases hq : (queue ++ fresh next done n).Nodup
  · refine .inl (List.nodup_append.mpr ⟨hdone, hq, fun a ha b hb => ?_⟩)
    rcases List.mem_append.mp hb with hb | hb
    · exact hdisj a ha b hb
    · exact fun hab => not_mem_done_of_fresh hb (hab ▸ ha)
  · -- The queue had no repetition, so a node that waits twice has just been added.
    obtain ⟨v, hv⟩ : ∃ v, 2 ≤ (queue ++ fresh next done n).count v := by
      by_contra hno
      exact hq (List.nodup_iff_count_le_one.mpr fun v => by
        have := not_exists.mp hno v
        omega)
    have hone := List.nodup_iff_count_le_one.mp hqueue v
    have hmem : v ∈ fresh next done n := by
      rw [List.count_append] at hv
      exact List.count_pos_iff.mp (by omega)
    exact .inr (.inl ⟨v, hnext n v (mem_fresh.mp hmem).1, not_mem_done_of_fresh hmem, hv⟩)

/-- As long as nothing has entered twice, what has left and what waits are a listing so far; at the
    end they are an order of all. -/
theorem Swept.listed_or_twice {Q : N → Prop} (hnext : ∀ u, ∀ w ∈ next u, Q w)
    (h : Swept next done queue leaves) (hnodup : (done ++ queue).Nodup)
    (hlist : done ++ queue = start :: follow next [] done) :
    (∃ order, order.Nodup ∧ Listed next start order) ∨ Twice Q leaves := by
  induction h with
  | nil done =>
    rw [List.append_nil] at hnodup hlist
    exact .inl ⟨done, hnodup, hlist⟩
  | leaf _ hrest ih =>
    rcases nodup_or_doubled hnext hnodup with hn | hd
    · exact (ih hn (listing_step hlist)).imp_right Twice.cons
    · exact .inr (hrest.twice hnext hd).cons
  | inner _ hrest ih =>
    rcases nodup_or_doubled hnext hnodup with hn | hd
    · exact ih hn (listing_step hlist)
    · exact .inr (hrest.twice hnext hd)

/-- With an order of all, the nodes leave in this order. -/
theorem Swept.sublist_of_listed {rest : List N} (h : Swept next done queue leaves)
    (hlist : done ++ queue = start :: follow next [] done)
    (hall : Listed next start (done ++ rest)) : leaves.Sublist rest := by
  -- the order goes on with the node that leaves the queue
  have hhead : ∀ {done rest queue : List N} {n : N}, Listed next start (done ++ rest) →
      done ++ n :: queue = start :: follow next [] done →
      ∃ rest', rest = n :: rest' ∧ Listed next start ((done ++ [n]) ++ rest') := by
    intro done rest queue n hall hlist
    have hall' := hall
    unfold Listed at hall
    rw [follow_append, List.nil_append, ← List.cons_append, ← hlist, List.append_assoc] at hall
    have hrest := List.append_cancel_left hall
    refine ⟨queue ++ follow next done rest, hrest, ?_⟩
    rwa [List.append_assoc, List.singleton_append, ← List.cons_append, ← hrest]
  induction h generalizing rest with
  | nil => exact List.nil_sublist _
  | leaf _ _ ih =>
    obtain ⟨rest', rfl, hall'⟩ := hhead hall hlist
    exact (ih (listing_step hlist) hall').cons_cons _
  | inner _ _ ih =>
    obtain ⟨rest', rfl, hall'⟩ := hhead hall hlist
    exact (ih (listing_step hlist) hall').cons _

/-- With an order of all without repetition no leaf is found twice. -/
theorem Swept.nodup_of_listed {order : List N} (h : Swept next [] [start] leaves)
    (hnodup : order.Nodup) (hall : Listed next start order) : leaves.Nodup :=
  List.Nodup.sublist (h.sublist_of_listed rfl hall) hnodup

/-- No leaf with the property of all successors is found twice, exactly if the graph can be listed
    from the start without repetition. -/
theorem Swept.not_twice_iff {Q : N → Prop} (hnext : ∀ u, ∀ w ∈ next u, Q w)
    (h : Swept next [] [start] leaves) :
    ¬ Twice Q leaves ↔ ∃ order, order.Nodup ∧ Listed next start order := by
  constructor
  · intro hno
    exact (h.listed_or_twice hnext (List.nodup_singleton _) rfl).resolve_right hno
  · intro ⟨order, hnodup, hall⟩ ⟨x, _, hx⟩
    have := List.nodup_iff_count_le_one.mp (h.nodup_of_listed hnodup hall) x
    omega

end Free5gc.Lib
