/-
  Texts as Go's `strings` and `strconv` read them: fields separated by white space, parts
  separated by one character, unsigned decimal numbers of a given width. A text is a list
  of characters. Nothing in this file names the repository.
-/
import Mathlib.Algebra.Ring.Nat
import Free5gc.Lib.Fallible

namespace Free5gc.Lib

/-! ## Fields -/

/-- `unicode.IsSpace`: the characters of Unicode's White_Space property. -/
def isSpace (c : Char) : Bool :=
  let r := c.toNat
  (0x09 ≤ r && r ≤ 0x0d) || r = 0x20 || r = 0x85 || r = 0xa0 || r = 0x1680 ||
    (0x2000 ≤ r && r ≤ 0x200a) || r = 0x2028 || r = 0x2029 || r = 0x202f || r = 0x205f ||
    r = 0x3000

/-- `strings.EqualFold`, on ASCII texts. -/
def equalFold (s t : List Char) : Bool := s.map Char.toLower = t.map Char.toLower

theorem equalFold_refl (s : List Char) : equalFold s s = true := by simp [equalFold]

theorem equalFold_nil (s : List Char) : equalFold s [] = true ↔ s = [] := by simp [equalFold]

/-- A visible ASCII character. -/
def Visible (c : Char) : Prop := 0x21 ≤ c.toNat ∧ c.toNat ≤ 0x7e

instance (c : Char) : Decidable (Visible c) := inferInstanceAs (Decidable (_ ∧ _))

variable {c sep : Char} {s t : List Char} {bitSize v : Nat}

theorem Visible.not_space (h : Visible c) : isSpace c = false := by
  unfold Visible at h
  simp only [isSpace, Bool.or_eq_false_iff, Bool.and_eq_false_iff, decide_eq_false_iff_not]
  omega

/-- `strings.Fields`: the parts between runs of white space. -/
def fields (s : List Char) : List (List Char) :=
  (s.splitOnP isSpace).filter (· ≠ [])

def Blank (s : List Char) : Prop := ∀ c ∈ s, isSpace c = true

instance (s : List Char) : Decidable (Blank s) := List.decidableBAll (isSpace · = true) s

/-- A property of all characters of a text, checked as a Boolean. -/
theorem forall_mem_of_all {P : Char → Prop} [DecidablePred P]
    (h : (s.all fun c => decide (P c)) = true) : ∀ c ∈ s, P c := by
  intro c hc
  exact of_decide_eq_true (List.all_eq_true.mp h c hc)

theorem space_of_head (h : s.head?.all isSpace = true) : ∀ c ∈ s.head?, isSpace c = true := by
  intro c hc
  rw [Option.mem_def.mp hc] at h
  exact h

/-- A text that `fields` can return. -/
structure Word (s : List Char) : Prop where
  ne_nil : s ≠ []
  not_space : ∀ c ∈ s, isSpace c = false

theorem word_of_visible (hne : s ≠ []) (h : ∀ c ∈ s, Visible c) : Word s :=
  ⟨hne, fun c hc => (h c hc).not_space⟩

/-- `s` is the texts `ts` with white space between them, one character of it at least, and
    any white space before the first and after the last. -/
inductive Spaced : List (List Char) → List Char → Prop
  | nil {w : List Char} (hw : Blank w) : Spaced [] w
  | cons {w t rest : List Char} {ts : List (List Char)} (hw : Blank w)
      (hsep : ∀ c ∈ rest.head?, isSpace c = true) (hrest : Spaced ts rest) :
      Spaced (t :: ts) (w ++ (t ++ rest))

theorem fields_blank_append {w : List Char} (hw : Blank w) (s : List Char) :
    fields (w ++ s) = fields s := by
  induction w with
  | nil => rfl
  | cons c w ih =>
    have hc : isSpace c = true := hw c List.mem_cons_self
    have hw' : Blank w := fun d hd => hw d (List.mem_cons_of_mem c hd)
    rw [← ih hw']
    unfold fields
    rw [List.cons_append, List.splitOnP_cons_eq_if_modifyHead, if_pos hc, List.filter_cons]
    simp

theorem fields_blank {w : List Char} (hw : Blank w) : fields w = [] := by
  have h := fields_blank_append hw []
  rw [List.append_nil] at h
  rw [h]
  rfl

theorem fields_word_append {rest : List Char} (ht : Word t)
    (hsep : ∀ c ∈ rest.head?, isSpace c = true) : fields (t ++ rest) = t :: fields rest := by
  have hkeep : decide (t ≠ []) = true := decide_eq_true ht.ne_nil
  cases rest with
  | nil =>
    unfold fields
    rw [List.append_nil, List.splitOnP_eq_singleton ht.not_space, List.filter_cons,
      if_pos hkeep]
    rfl
  | cons c rest =>
    have hc : isSpace c = true := hsep c rfl
    have hrest : fields (c :: rest) = fields rest :=
      fields_blank_append (w := [c]) (fun d hd => by rw [List.mem_singleton.mp hd]; exact hc) rest
    rw [hrest]
    unfold fields
    rw [List.splitOnP_append_cons_of_forall_mem ht.not_space c hc rest, List.filter_cons, if_pos hkeep]

/-- The white space between words does not matter. -/
theorem fields_of_spaced {ts : List (List Char)} (hts : ∀ t ∈ ts, Word t) (h : Spaced ts s) :
    fields s = ts := by
  induction h with
  | nil hw => exact fields_blank hw
  | cons hw hsep _ ih =>
    rw [List.forall_mem_cons] at hts
    rw [fields_blank_append hw, fields_word_append hts.1 hsep, ih hts.2]

/-! ## Parts -/

/-- `strings.SplitN` for one separating character: the last part takes the rest. -/
def splitN (sep : Char) : Nat → List Char → List (List Char)
  | 0, _ => []
  | 1, s => [s]
  | n + 2, s =>
    match s.dropWhile (· ≠ sep) with
    | [] => [s]
    | _ :: rest => s.takeWhile (· ≠ sep) :: splitN sep (n + 1) rest

theorem splitN_two_of_notMem (h : sep ∉ s) : splitN sep 2 s = [s] := by
  have hall : ∀ c ∈ s, decide (c ≠ sep) = true := fun c hc =>
    decide_eq_true fun heq => h (heq ▸ hc)
  have hdrop : s.dropWhile (· ≠ sep) = [] := by
    rw [← List.append_nil s, List.dropWhile_append_of_pos hall]
    rfl
  unfold splitN
  rw [hdrop]

theorem splitN_two_append (h : sep ∉ s) (rest : List Char) :
    splitN sep 2 (s ++ sep :: rest) = [s, rest] := by
  have hall : ∀ c ∈ s, decide (c ≠ sep) = true := fun c hc =>
    decide_eq_true fun heq => h (heq ▸ hc)
  have hdrop : (s ++ sep :: rest).dropWhile (· ≠ sep) = sep :: rest := by
    rw [List.dropWhile_append_of_pos hall, List.dropWhile_cons_of_neg (by simp)]
  have htake : (s ++ sep :: rest).takeWhile (· ≠ sep) = s := by
    rw [List.takeWhile_append_of_pos hall, List.takeWhile_cons_of_neg (by simp), List.append_nil]
  unfold splitN
  rw [hdrop, htake]
  rfl

/-- What `splitN sep 2` returns, put together again. -/
theorem splitN_two_cases (sep : Char) (s : List Char) :
    splitN sep 2 s = [s] ∨ ∃ a b, splitN sep 2 s = [a, b] ∧ s = a ++ sep :: b := by
  unfold splitN
  split
  · exact Or.inl rfl
  · rename_i c rest hdrop
    refine Or.inr ⟨s.takeWhile (· ≠ sep), rest, rfl, ?_⟩
    have hc : c = sep := by
      have hhead := List.head?_dropWhile_not (fun d => decide (d ≠ sep)) s
      rw [hdrop] at hhead
      exact of_not_not (of_decide_eq_false hhead)
    conv_lhs => rw [← List.takeWhile_append_dropWhile (p := (· ≠ sep)) (l := s), hdrop, hc]

/-- The characters of parts put together again with a separator. -/
theorem mem_intercalate {parts : List (List Char)} (h : c ∈ [sep].intercalate parts) :
    c = sep ∨ ∃ s ∈ parts, c ∈ s := by
  induction parts with
  | nil => cases h
  | cons s parts ih =>
    cases parts with
    | nil =>
      rw [List.intercalate_singleton] at h
      exact Or.inr ⟨s, List.mem_cons_self, h⟩
    | cons t parts =>
      rw [List.intercalate_cons_cons, List.append_assoc, List.mem_append,
        List.singleton_append, List.mem_cons] at h
      rcases h with h | rfl | h
      · exact Or.inr ⟨s, List.mem_cons_self, h⟩
      · exact Or.inl rfl
      · rcases ih h with h | ⟨u, hu, hc⟩
        · exact Or.inl h
        · exact Or.inr ⟨u, List.mem_cons_of_mem s hu, hc⟩

/-! ## Numbers -/

/-- The two errors of a `strconv.NumError`. -/
inductive ErrNum where
  | errSyntax
  | errRange
  deriving DecidableEq, Repr

/-- A `strconv.NumError`: the text that was read and what was wrong with it. -/
structure NumError where
  num : List Char
  err : ErrNum
  deriving DecidableEq, Repr

/-- One turn of `strconv.ParseUint`'s loop in base 10, for the text `s`. -/
def parseDigit (s : List Char) (bitSize n : Nat) (c : Char) : Except NumError Nat :=
  if c.isDigit then
    if n * 10 + (c.toNat - '0'.toNat) < 2 ^ bitSize then .ok (n * 10 + (c.toNat - '0'.toNat))
    else .error ⟨s, .errRange⟩
  else .error ⟨s, .errSyntax⟩

/-- `strconv.ParseUint(s, 10, bitSize)`. -/
def parseUint (s : List Char) (bitSize : Nat) : Except NumError Nat :=
  if s = [] then .error ⟨s, .errSyntax⟩ else s.foldlM (parseDigit s bitSize) 0

/-- An unsigned decimal number as a text: digits, one at least. -/
structure IsNumeral (t : List Char) : Prop where
  ne_nil : t ≠ []
  digit : ∀ c ∈ t, c.isDigit = true

/-- The number that a text of digits says. -/
def numeralValue (t : List Char) : Nat := Nat.ofDigitChars 10 t 0

theorem parseDigit_eq_ok {n : Nat} :
    parseDigit s bitSize n c = .ok v ↔
      c.isDigit = true ∧ v = n * 10 + (c.toNat - '0'.toNat) ∧ v < 2 ^ bitSize := by
  unfold parseDigit
  split_ifs with hc hlt
  · constructor
    · intro h
      cases h
      exact ⟨hc, rfl, hlt⟩
    · rintro ⟨_, rfl, _⟩
      rfl
  · constructor
    · intro h
      cases h
    · rintro ⟨_, rfl, h⟩
      exact absurd h hlt
  · constructor
    · intro h
      cases h
    · rintro ⟨h, _⟩
      exact absurd h hc

theorem le_ofDigitChars (t : List Char) (n : Nat) : n ≤ Nat.ofDigitChars 10 t n := by
  induction t generalizing n with
  | nil => exact Nat.le_refl n
  | cons c t ih =>
    rw [Nat.ofDigitChars_cons]
    have h := ih (10 * n + (c.toNat - '0'.toNat))
    omega

/-- The loop reads the digits from the left; a number that fits has prefixes that fit. -/
theorem foldlM_parseDigit {n : Nat} (hn : n < 2 ^ bitSize) (t : List Char) :
    t.foldlM (parseDigit s bitSize) n = .ok v ↔
      (∀ c ∈ t, c.isDigit = true) ∧ v = Nat.ofDigitChars 10 t n ∧ v < 2 ^ bitSize := by
  induction t generalizing n with
  | nil =>
    rw [List.foldlM_nil, pure_eq_ok, Nat.ofDigitChars_nil]
    constructor
    · rintro rfl
      exact ⟨fun c hc => absurd hc List.not_mem_nil, rfl, hn⟩
    · rintro ⟨_, h, _⟩
      exact h.symm
  | cons c t ih =>
    rw [List.foldlM_cons, bind_eq_ok, Nat.ofDigitChars_cons, List.forall_mem_cons]
    constructor
    · rintro ⟨m, hm, h⟩
      obtain ⟨hc, hm, hlt⟩ := parseDigit_eq_ok.mp hm
      obtain ⟨ht, hv, hv'⟩ := (ih hlt).mp h
      rw [hm, Nat.mul_comm] at hv
      exact ⟨⟨hc, ht⟩, hv, hv'⟩
    · rintro ⟨⟨hc, ht⟩, hv, hv'⟩
      have hle := le_ofDigitChars t (10 * n + (c.toNat - '0'.toNat))
      have hlt : 10 * n + (c.toNat - '0'.toNat) < 2 ^ bitSize := by omega
      rw [Nat.mul_comm] at hlt hv
      exact ⟨_, parseDigit_eq_ok.mpr ⟨hc, rfl, hlt⟩, (ih hlt).mpr ⟨ht, hv, hv'⟩⟩

/-- `ParseUint` reads the numerals whose value fits, and nothing else. -/
theorem parseUint_eq_ok :
    parseUint t bitSize = .ok v ↔ IsNumeral t ∧ numeralValue t = v ∧ v < 2 ^ bitSize := by
  unfold parseUint
  split_ifs with ht
  · constructor
    · intro h
      cases h
    · rintro ⟨h, _⟩
      exact absurd ht h.ne_nil
  · rw [foldlM_parseDigit (Nat.two_pow_pos bitSize)]
    constructor
    · rintro ⟨hd, hv, hlt⟩
      exact ⟨⟨ht, hd⟩, hv.symm, hlt⟩
    · rintro ⟨hd, hv, hlt⟩
      exact ⟨hd.digit, hv.symm, hlt⟩

theorem IsNumeral.notMem (h : IsNumeral t) (hc : c.isDigit = false) : c ∉ t := by
  intro hmem
  rw [h.digit c hmem] at hc
  cases hc

theorem visible_of_isDigit (h : c.isDigit = true) : Visible c := by
  unfold Char.isDigit at h
  rw [Bool.and_eq_true, decide_eq_true_eq, decide_eq_true_eq] at h
  have hlo : 48 ≤ c.toNat := h.1
  have hhi : c.toNat ≤ 57 := h.2
  exact ⟨by omega, by omega⟩

theorem IsNumeral.visible (h : IsNumeral t) (hc : c ∈ t) : Visible c :=
  visible_of_isDigit (h.digit c hc)

theorem IsNumeral.word (h : IsNumeral t) : Word t :=
  word_of_visible h.ne_nil fun _ hc => h.visible hc

theorem isNumeral_toDigits (n : Nat) : IsNumeral (Nat.toDigits 10 n) :=
  ⟨Nat.toDigits_ne_nil, fun _ hc => Nat.isDigit_of_mem_toDigits (by decide) (by decide) hc⟩

/-- `strconv.Atoi` where `int` has 64 bits: an optional sign and decimal digits. -/
def atoi : List Char → Option Int64
  | '-' :: t =>
    match parseUint t 64 with
    | .ok n => if n ≤ 2 ^ 63 then some (Int64.ofInt (-n)) else none
    | .error _ => none
  | '+' :: t => unsigned t
  | t => unsigned t
where
  unsigned (t : List Char) : Option Int64 :=
    match parseUint t 64 with
    | .ok n => if n < 2 ^ 63 then some (Int64.ofNat n) else none
    | .error _ => none

end Free5gc.Lib
