/-
  Map keys made of a string and a number. In `fmt.Sprintf("%s-%d", a, n)` the number is
  written in digits, so the last dash separates the two, and the key determines both. Without
  a separator digits can move from the number to the string (`append_toDigits_eq`).
-/
import Mathlib.Data.List.Basic
import Mathlib.Data.List.Induction

namespace Free5gc.Lib

variable {m n : Nat}

theorem dash_notMem_toDigits (n : Nat) : '-' ∉ Nat.toDigits 10 n := by
  intro h
  have hdigit : Char.isDigit '-' = true := Nat.isDigit_of_mem_toDigits (by decide) (by decide) h
  exact absurd hdigit (by decide)

theorem toDigits_ten_injective (h : Nat.toDigits 10 m = Nat.toDigits 10 n) : m = n := by
  have hm := Nat.ofDigitChars_toDigits (b := 10) (n := m) (by decide) (by decide)
  have hn := Nat.ofDigitChars_toDigits (b := 10) (n := n) (by decide) (by decide)
  rw [← hm, ← hn, h]

/-- What follows the last `a` determines what stands before it. -/
theorem append_cons_inj_of_notMem_right {α : Type} {a : α} {xs xs' ys ys' : List α}
    (hy : a ∉ ys) (hy' : a ∉ ys') (h : xs ++ a :: ys = xs' ++ a :: ys') :
    xs = xs' ∧ ys = ys' := by
  rcases List.append_eq_append_iff.mp h with ⟨zs, hxs, hzs⟩ | ⟨zs, hxs, hzs⟩
  · cases zs with
    | nil =>
      rw [List.nil_append] at hzs
      exact ⟨(List.append_nil xs).symm.trans hxs.symm, (List.cons.inj hzs).2⟩
    | cons z zs =>
      refine absurd ?_ hy
      rw [(List.cons.inj hzs).2]
      exact List.mem_append_right zs List.mem_cons_self
  · cases zs with
    | nil =>
      rw [List.nil_append] at hzs
      exact ⟨hxs.trans (List.append_nil xs'), (List.cons.inj hzs).2.symm⟩
    | cons z zs =>
      refine absurd ?_ hy'
      rw [(List.cons.inj hzs).2]
      exact List.mem_append_right zs List.mem_cons_self

/-- The key determines the string and the number. -/
theorem dashed_injective {a a' : String} (h : a ++ "-" ++ toString m = a' ++ "-" ++ toString n) :
    a = a' ∧ m = n := by
  have hlist := congrArg String.toList h
  have hdigits : ∀ k : Nat, (toString k).toList = Nat.toDigits 10 k := by
    intro k
    simp [toString]
  simp only [String.toList_append, hdigits, List.append_assoc] at hlist
  obtain ⟨ha, hn⟩ := append_cons_inj_of_notMem_right (dash_notMem_toDigits m)
    (dash_notMem_toDigits n) hlist
  exact ⟨String.toList_inj.mp ha, toDigits_ten_injective hn⟩

/-! ## Keys without a separator -/

theorem ofDigitChars_mono (s : List Char) (h : m ≤ n) :
    Nat.ofDigitChars 10 s m ≤ Nat.ofDigitChars 10 s n := by
  induction s generalizing m n with
  | nil => exact h
  | cons c s ih =>
    rw [Nat.ofDigitChars_cons, Nat.ofDigitChars_cons]
    exact ih (by omega)

/-- What stands before the last digits of a number is a number. -/
theorem toDigits_ten_prefix {c : Nat} {s t : List Char} (hs : s ≠ [])
    (h : Nat.toDigits 10 c = s ++ t) :
    ∃ k, s = Nat.toDigits 10 k ∧ (t ≠ [] → 0 < k ∧ 10 * k ≤ c) := by
  induction t using List.reverseRecOn generalizing c with
  | nil => exact ⟨c, by rw [h, List.append_nil], fun hne => absurd rfl hne⟩
  | append_singleton t d ih =>
    -- two digits at least, so the last one can be taken off
    have hle : 10 ≤ c := by
      by_contra hlt
      have hlen := congrArg List.length h
      have hpos := List.length_pos_iff.mpr hs
      rw [Nat.toDigits_of_lt_base (by omega)] at hlen
      simp only [List.length_append, List.length_cons, List.length_nil] at hlen
      omega
    rw [Nat.toDigits_of_base_le (by decide) hle, ← List.append_assoc] at h
    obtain ⟨k, hk, hbound⟩ := ih (List.append_inj_left' h rfl)
    refine ⟨k, hk, fun _ => ?_⟩
    rcases List.eq_nil_or_concat t with rfl | ⟨t', d', rfl⟩
    · have heq : k = c / 10 := by
        have h' := List.append_inj_left' h rfl
        rw [List.append_nil, hk] at h'
        exact (toDigits_ten_injective h').symm
      omega
    · obtain ⟨hpos, hle'⟩ := hbound (by simp)
      omega

/-- Two keys with different numbers are equal only if the name with the smaller number is the
    other name with further digits. -/
theorem append_toDigits_eq {a b : List Char} (hlt : m < n)
    (h : a ++ Nat.toDigits 10 m = b ++ Nat.toDigits 10 n) :
    ∃ k, 0 < k ∧ 10 * k ≤ n ∧ a = b ++ Nat.toDigits 10 k := by
  rcases List.append_eq_append_iff.mp h with ⟨zs, _, hzs⟩ | ⟨zs, ha, hzs⟩
  · -- the smaller number would have all digits of the larger one
    have hm := Nat.ofDigitChars_toDigits (b := 10) (n := m) (by decide) (by decide)
    have hn := Nat.ofDigitChars_toDigits (b := 10) (n := n) (by decide) (by decide)
    rw [hzs, Nat.ofDigitChars_append] at hm
    have hmono := ofDigitChars_mono (Nat.toDigits 10 n) (Nat.zero_le (Nat.ofDigitChars 10 zs 0))
    omega
  · have hne : zs ≠ [] := by
      rintro rfl
      exact absurd (toDigits_ten_injective hzs) (by omega)
    obtain ⟨k, rfl, hbound⟩ := toDigits_ten_prefix hne hzs
    obtain ⟨hpos, hle⟩ := hbound Nat.toDigits_ne_nil
    exact ⟨k, hpos, hle, ha⟩

end Free5gc.Lib
