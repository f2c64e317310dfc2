/-
  The NAS COUNT of a NAS library: 16 bits of overflow and 8 bits of sequence number, with the laws
  of its operations.
-/
import Mathlib.Algebra.Ring.Nat

namespace Free5gc.Lib

class NasCount (C : Type) where
  zero : C
  set : UInt16 → UInt8 → C
  overflow : C → UInt16
  sqn : C → UInt8
  get : C → Nat
  setOverflow : C → UInt16 → C
  setSQN : C → UInt8 → C
  zero_eq : zero = set 0 0
  overflow_set : ∀ o s, overflow (set o s) = o
  sqn_set : ∀ o s, sqn (set o s) = s
  set_self : ∀ c, set (overflow c) (sqn c) = c
  get_eq : ∀ c, get c = (overflow c).toNat * 256 + (sqn c).toNat
  setOverflow_eq : ∀ c o, setOverflow c o = set o (sqn c)
  setSQN_eq : ∀ c s, setSQN c s = set (overflow c) s

/-- A count as the pair of its parts. -/
instance : NasCount (UInt16 × UInt8) where
  zero := (0, 0)
  set := Prod.mk
  overflow := Prod.fst
  sqn := Prod.snd
  get c := c.1.toNat * 256 + c.2.toNat
  setOverflow c o := (o, c.2)
  setSQN c s := (c.1, s)
  zero_eq := rfl
  overflow_set _ _ := rfl
  sqn_set _ _ := rfl
  set_self _ := rfl
  get_eq _ := rfl
  setOverflow_eq _ _ := rfl
  setSQN_eq _ _ := rfl

namespace NasCount

variable {C : Type} [NasCount C]

theorem overflow_setOverflow (c : C) (o : UInt16) : overflow (setOverflow c o) = o := by
  rw [setOverflow_eq, overflow_set]

theorem get_setSQN (c : C) (s : UInt8) : get (setSQN c s) = (overflow c).toNat * 256 + s.toNat := by
  rw [get_eq, setSQN_eq, overflow_set, sqn_set]

end NasCount

end Free5gc.Lib
