/-
  The SMF's pool of numbers (`internal/context/pool/lazyReusePool.go`). The free numbers are
  a linked list of segments, here a list; it is not sorted, because a freed number goes
  behind the head, to be used again late. Go's `int` is `Int64`, and its sums wrap.

  `Reserve` walks the list while it inserts into it: a segment cut in two is followed by its
  own second half. Its loop has fuel, and `reserveLoop_eq` says that it ends and what it
  leaves.
-/
import Free5gc.Lib.Int64
import Free5gc.Lib.Spans
import Free5gc.Lib.Run

namespace Free5gc.Smf.Pool

open Free5gc.Lib

structure Segment where
  first : Int64
  last : Int64
  deriving DecidableEq, Repr

structure LazyReusePool where
  /-- The segments from `head` on. -/
  head : List Segment
  first : Int64
  last : Int64
  remain : Int64
  deriving DecidableEq, Repr

/-- `relativePos`. -/
inductive RelativePos where
  | withinThisSegment
  | adjacentToTheFront
  | adjacentToTheBack
  | before
  | after
  deriving DecidableEq, Repr

/-! ## Segments -/

def newSingleSegment (num : Int64) : Segment := ⟨num, num⟩

namespace Segment

def relativePosisionOf (s : Segment) (value : Int64) : RelativePos :=
  if value < s.first - 1 then .before
  else if value = s.first - 1 then .adjacentToTheFront
  else if s.first ≤ value ∧ value ≤ s.last then .withinThisSegment
  else if value = s.last + 1 then .adjacentToTheBack
  else .after

/-- `split`: the segment and what it puts behind itself. -/
def split (s : Segment) (use : Int64) : List Segment :=
  if use < s.first ∨ s.last < use then [s]
  else if use = s.first then [{ s with first := s.first + 1 }]
  else if use = s.last then [{ s with last := s.last - 1 }]
  else [{ s with last := use - 1 }, ⟨use + 1, s.last⟩]

/-- `extendLast`: the list from the extended segment on. -/
def extendLast (s : Segment) : List Segment → List Segment
  | [] => [{ s with last := s.last + 1 }]
  | n :: next =>
    if s.last + 1 + 1 = n.first then { s with last := n.last } :: next
    else { s with last := s.last + 1 } :: n :: next

end Segment

/-! ## The operations -/

/-- `NewLazyReusePool`; the error shows both bounds. -/
def newLazyReusePool (first last : Int64) : Except (Int64 × Int64) LazyReusePool :=
  if last < first then .error (first, last)
  else .ok ⟨[⟨first, last⟩], first, last, last - first + 1⟩

/-- The list that `Allocate` leaves of a head `s` and the segments behind it. -/
def allocateFrom (s : Segment) (next : List Segment) : List Segment :=
  if s.last < s.first + 1 then next else { s with first := s.first + 1 } :: next

/-- The loop of `Use`: the list without `value`, if some segment holds it. -/
def useLoop (value : Int64) : List Segment → Option (List Segment)
  | [] => none
  | cur :: next =>
    if cur.relativePosisionOf value = .withinThisSegment then
      if cur.first = cur.last then some next else some (cur.split value ++ next)
    else (useLoop value next).map (cur :: ·)

/-- The loop of `Free`, over the segments behind the head; `none` for a value that is found
    to be free already. -/
def freeLoop (value : Int64) : List Segment → Option (List Segment)
  | [] => some []
  | cur :: next =>
    match cur.relativePosisionOf value with
    | .before => some (newSingleSegment value :: cur :: next)
    | .adjacentToTheFront => some ({ cur with first := value } :: next)
    | .withinThisSegment => none
    | .adjacentToTheBack => some (cur.extendLast next)
    | .after =>
      match next with
      | [] => some [cur, newSingleSegment value]
      | _ => (freeLoop value next).map (cur :: ·)

/-- `Free` behind the head `h`. -/
def freeBehind (value : Int64) (h : Segment) (next : List Segment) : Option (List Segment) :=
  match next with
  | [] => some [h, newSingleSegment value]
  | _ => (freeLoop value next).map (h :: ·)

/-- The list that `Free` leaves for a value of the pool's range. -/
def freeInto (value : Int64) : List Segment → Option (List Segment)
  | [] => some [newSingleSegment value]
  | h :: next =>
    match h.relativePosisionOf value with
    | .withinThisSegment => none
    | .adjacentToTheBack => some (h.extendLast next)
    | _ => freeBehind value h next

/-- The loop of `Reserve` with the counter `remain`. -/
def reserveLoop (first last : Int64) : Nat → List Segment → Int64 → List Segment × Int64
  | 0, segs, remain => (segs, remain)
  | _ + 1, [], remain => ([], remain)
  | fuel + 1, cur :: next, remain =>
    if first ≤ cur.first ∧ cur.first ≤ last ∧ last < cur.last then
      let r := reserveLoop first last fuel next (remain - (last - cur.first + 1))
      ({ cur with first := last + 1 } :: r.1, r.2)
    else if cur.first < first ∧ first ≤ cur.last ∧ cur.last ≤ last then
      let r := reserveLoop first last fuel next (remain - (cur.last - first + 1))
      ({ cur with last := first - 1 } :: r.1, r.2)
    else if cur.first < first ∧ last < cur.last then
      -- the loop goes on with the second half
      let r := reserveLoop first last fuel (⟨last + 1, cur.last⟩ :: next)
        (remain - (last - first + 1))
      ({ cur with last := first - 1 } :: r.1, r.2)
    else if first ≤ cur.first ∧ cur.last ≤ last then
      reserveLoop first last fuel next (remain - (cur.last - cur.first + 1))
    else
      let r := reserveLoop first last fuel next remain
      (cur :: r.1, r.2)

namespace LazyReusePool

def contains (p : LazyReusePool) (first last : Int64) : Bool :=
  first ≤ last ∧ p.first ≤ first ∧ last ≤ p.last

def allocate (p : LazyReusePool) : LazyReusePool × Option Int64 :=
  match p.head with
  | [] => (p, none)
  | s :: next =>
    ({ p with head := allocateFrom s next, remain := p.remain - 1 }, some s.first)

def use (p : LazyReusePool) (value : Int64) : LazyReusePool × Bool :=
  match useLoop value p.head with
  | none => (p, false)
  | some head => ({ p with head := head, remain := p.remain - 1 }, true)

def free (p : LazyReusePool) (value : Int64) : LazyReusePool × Bool :=
  if value < p.first ∨ p.last < value then (p, false)
  else
    match freeInto value p.head with
    | none => (p, false)
    | some head => ({ p with head := head, remain := p.remain + 1 }, true)

/-- `Reserve`; the error "reserve range should in [%d, %d]" is `false`. -/
def reserve (p : LazyReusePool) (first last : Int64) : LazyReusePool × Bool :=
  if p.contains first last then
    let r := reserveLoop first last (2 * p.head.length) p.head p.remain
    ({ p with head := r.1, remain := r.2 }, true)
  else (p, false)

end LazyReusePool

end Free5gc.Smf.Pool
