/-
  IP addresses and networks as Go's `net` package has them, and the texts that denote them.
  An address is a list of 4 or 16 bytes; the 16 bytes `::ffff:a.b.c.d` and the 4 bytes
  `a.b.c.d` are one address. Nothing in this file names the repository.

  `net.ParseIP` and `net.ParseCIDR` themselves are not modelled. They are the fields of a
  `NetParsers`, and what is assumed of them is said in terms of the texts.
-/
import Free5gc.Lib.Text

namespace Free5gc.Lib

/-! ## Addresses and networks -/

/-- A `net.IPNet`. -/
structure IPNet where
  ip : List UInt8
  mask : List UInt8
  deriving DecidableEq, Repr

/-- `net.CIDRMask(ones, 8*n)`. -/
def cidrMask (ones : Nat) : Nat → List UInt8
  | 0 => []
  | n + 1 =>
    if 8 ≤ ones then 0xff :: cidrMask (ones - 8) n
    else ~~~ ((0xff : UInt8) >>> UInt8.ofNat ones) :: cidrMask 0 n

def v4InV6Prefix : List UInt8 := List.replicate 10 0 ++ [0xff, 0xff]

/-- `IP.To4`. -/
def to4 (ip : List UInt8) : Option (List UInt8) :=
  if ip.length = 4 then some ip
  else if ip.length = 16 ∧ ip.take 12 = v4InV6Prefix then some (ip.drop 12)
  else none

variable {c : Char}

theorem cidrMask_full (n : Nat) : cidrMask (n * 8) n = List.replicate n 0xff := by
  induction n with
  | zero => rfl
  | succ n ih =>
    have hones : 8 ≤ (n + 1) * 8 := by omega
    have hrest : (n + 1) * 8 - 8 = n * 8 := by omega
    unfold cidrMask
    rw [if_pos hones, hrest, ih, List.replicate_succ]

/-- The network of one address: all bits of the mask are set. -/
def hostNet (ip : List UInt8) : IPNet := ⟨ip, List.replicate ip.length 0xff⟩

/-! ## Texts of addresses -/

/-- An IPv4 address, written as four decimal numbers. -/
structure IPv4 where
  a : UInt8
  b : UInt8
  c : UInt8
  d : UInt8
  deriving DecidableEq, Repr

def IPv4.bytes (v : IPv4) : List UInt8 := [v.a, v.b, v.c, v.d]

def octet (b : UInt8) : List Char := Nat.toDigits 10 b.toNat

def IPv4.text (v : IPv4) : List Char :=
  octet v.a ++ '.' :: (octet v.b ++ '.' :: (octet v.c ++ '.' :: octet v.d))

def hexValue (c : Char) : Option Nat :=
  if '0' ≤ c ∧ c ≤ '9' then some (c.toNat - '0'.toNat)
  else if 'a' ≤ c ∧ c ≤ 'f' then some (c.toNat - 'a'.toNat + 10)
  else if 'A' ≤ c ∧ c ≤ 'F' then some (c.toNat - 'A'.toNat + 10)
  else none

/-- Sixteen bits of an IPv6 address: one to four hexadecimal digits. -/
structure HexGroup where
  digits : List Char
  length_pos : 0 < digits.length
  length_le : digits.length ≤ 4
  hex : ∀ c ∈ digits, (hexValue c).isSome

def HexGroup.value (g : HexGroup) : Nat :=
  g.digits.foldl (fun n c => n * 16 + (hexValue c).getD 0) 0

def HexGroup.bytes (g : HexGroup) : List UInt8 :=
  [UInt8.ofNat (g.value / 256), UInt8.ofNat g.value]

/-- An IPv6 address as written: groups separated by colons, where `::` may stand once for
    groups of zeros and the last two groups may be written as an IPv4 address. -/
structure IPv6Text where
  front : List HexGroup
  /-- The groups after the `::`; `none` without one. -/
  back : Option (List HexGroup)
  tail : Option IPv4
  complete : back = none → front.length + 2 * tail.toList.length = 8
  short : ∀ gs, back = some gs → front.length + gs.length + 2 * tail.toList.length < 8

namespace IPv6Text

def tailBytes (v : IPv6Text) : List UInt8 := v.tail.toList.flatMap IPv4.bytes

def bytes (v : IPv6Text) : List UInt8 :=
  match v.back with
  | none => v.front.flatMap HexGroup.bytes ++ v.tailBytes
  | some gs =>
    v.front.flatMap HexGroup.bytes ++
      (List.replicate (2 * (8 - v.front.length - gs.length) - v.tailBytes.length) 0 ++
        (gs.flatMap HexGroup.bytes ++ v.tailBytes))

def colons (segments : List (List Char)) : List Char := [':'].intercalate segments

def tailText (v : IPv6Text) : List (List Char) := v.tail.toList.map IPv4.text

def text (v : IPv6Text) : List Char :=
  match v.back with
  | none => colons (v.front.map HexGroup.digits ++ v.tailText)
  | some gs =>
    colons (v.front.map HexGroup.digits) ++
      (':' :: ':' :: colons (gs.map HexGroup.digits ++ v.tailText))

end IPv6Text

/-- The text of an IP address. -/
inductive IPText where
  | v4 (v : IPv4)
  | v6 (v : IPv6Text)

namespace IPText

def text : IPText → List Char
  | .v4 v => v.text
  | .v6 v => v.text

def bytes : IPText → List UInt8
  | .v4 v => v.bytes
  | .v6 v => v.bytes

/-- The sixteen bytes that `net.ParseIP` returns. -/
def ip16 : IPText → List UInt8
  | .v4 v => v4InV6Prefix ++ v.bytes
  | .v6 v => v.bytes

/-- The network of this one address; an IPv4 address is kept in four bytes. -/
def host (a : IPText) : IPNet := hostNet ((to4 a.ip16).getD a.ip16)

end IPText

/-- The text of a network: an address, a slash and the number of bits of its mask. -/
structure CIDRText where
  addr : IPText
  len : List Char
  numeral : IsNumeral len
  fits : numeralValue len ≤ 8 * addr.bytes.length

namespace CIDRText

def text (n : CIDRText) : List Char := n.addr.text ++ '/' :: n.len

/-- The network: the address under the mask, and the mask. -/
def net (n : CIDRText) : IPNet :=
  let mask := cidrMask (numeralValue n.len) n.addr.bytes.length
  ⟨List.zipWith (· &&& ·) n.addr.bytes mask, mask⟩

end CIDRText

/-! ## What the texts are made of -/

theorem visible_octet {b : UInt8} (h : c ∈ octet b) : Visible c :=
  visible_of_isDigit ((isNumeral_toDigits b.toNat).digit c h)

theorem IPv4.visible {v : IPv4} (h : c ∈ v.text) : Visible c := by
  unfold IPv4.text at h
  simp only [List.mem_append, List.mem_cons] at h
  rcases h with h | rfl | h | rfl | h | rfl | h
  · exact visible_octet h
  · decide
  · exact visible_octet h
  · decide
  · exact visible_octet h
  · decide
  · exact visible_octet h

theorem visible_of_hexValue (h : (hexValue c).isSome) : Visible c := by
  unfold hexValue at h
  unfold Visible
  split_ifs at h with h09 haf hAF
  · have hlo : 48 ≤ c.toNat := h09.1
    have hhi : c.toNat ≤ 57 := h09.2
    omega
  · have hlo : 97 ≤ c.toNat := haf.1
    have hhi : c.toNat ≤ 102 := haf.2
    omega
  · have hlo : 65 ≤ c.toNat := hAF.1
    have hhi : c.toNat ≤ 70 := hAF.2
    omega
  · cases h

theorem colon_mem_colons {segments : List (List Char)} (h : 1 < segments.length) :
    ':' ∈ IPv6Text.colons segments := by
  match segments, h with
  | s :: t :: segments, _ =>
    unfold IPv6Text.colons
    rw [List.intercalate_cons_cons]
    exact List.mem_append_left _ (List.mem_append_right s List.mem_cons_self)

namespace IPv6Text

theorem visible_colons (gs : List HexGroup) (tail : Option IPv4) {c : Char}
    (h : c ∈ colons (gs.map HexGroup.digits ++ tail.toList.map IPv4.text)) : Visible c := by
  rcases mem_intercalate h with rfl | ⟨s, hs, hc⟩
  · decide
  · rcases List.mem_append.mp hs with hs | hs
    · obtain ⟨g, _, rfl⟩ := List.mem_map.mp hs
      exact visible_of_hexValue (g.hex c hc)
    · obtain ⟨v, _, rfl⟩ := List.mem_map.mp hs
      exact IPv4.visible hc

theorem visible {v : IPv6Text} {c : Char} (h : c ∈ v.text) : Visible c := by
  unfold text at h
  split at h
  · exact visible_colons v.front v.tail h
  · rename_i gs _
    simp only [List.mem_append, List.mem_cons] at h
    rcases h with h | rfl | rfl | h
    · rw [← List.append_nil (v.front.map HexGroup.digits)] at h
      exact visible_colons v.front none h
    · decide
    · decide
    · exact visible_colons gs v.tail h

theorem colon_mem_text (v : IPv6Text) : ':' ∈ v.text := by
  unfold text
  split
  · rename_i hback
    -- eight groups, or six and an IPv4 address: there is more than one segment
    have hcount := v.complete hback
    have htail : v.tail.toList.length ≤ 1 := by
      cases v.tail with
      | none => exact Nat.zero_le 1
      | some t => exact Nat.le_refl 1
    refine colon_mem_colons ?_
    rw [tailText, List.length_append, List.length_map, List.length_map]
    omega
  · exact List.mem_append_right _ List.mem_cons_self

end IPv6Text

theorem IPText.visible {a : IPText} (h : c ∈ a.text) : Visible c := by
  cases a with
  | v4 v => exact IPv4.visible h
  | v6 v => exact IPv6Text.visible h

theorem CIDRText.visible {n : CIDRText} (h : c ∈ n.text) : Visible c := by
  unfold CIDRText.text at h
  rw [List.mem_append, List.mem_cons] at h
  rcases h with h | rfl | h
  · exact IPText.visible h
  · decide
  · exact visible_of_isDigit (n.numeral.digit c h)

theorem IPText.dot_or_colon_mem (a : IPText) : '.' ∈ a.text ∨ ':' ∈ a.text := by
  cases a with
  | v4 v => exact Or.inl (List.mem_append_right _ List.mem_cons_self)
  | v6 v => exact Or.inr v.colon_mem_text

theorem CIDRText.slash_mem (n : CIDRText) : '/' ∈ n.text :=
  List.mem_append_right _ List.mem_cons_self

theorem IPText.word (a : IPText) : Word a.text := by
  refine word_of_visible ?_ fun _ hc => IPText.visible hc
  rcases a.dot_or_colon_mem with h | h
  · exact List.ne_nil_of_mem h
  · exact List.ne_nil_of_mem h

theorem CIDRText.word (n : CIDRText) : Word n.text :=
  word_of_visible (List.ne_nil_of_mem n.slash_mem) fun _ hc => CIDRText.visible hc

/-! ## The parsers -/

/-- `net.ParseIP`, which returns sixteen bytes, and the network that `net.ParseCIDR`
    returns. -/
structure NetParsers where
  parseIP : List Char → Option (List UInt8)
  parseCIDR : List Char → Option IPNet

namespace NetParsers

/-- The address is read as the address it denotes, and not as a network. -/
def ReadsIP (p : NetParsers) (a : IPText) : Prop :=
  p.parseCIDR a.text = none ∧ p.parseIP a.text = some a.ip16

/-- The network is read as the network it denotes. -/
def ReadsCIDR (p : NetParsers) (n : CIDRText) : Prop := p.parseCIDR n.text = some n.net

/-- Nothing is read but texts of addresses and of networks. -/
structure Sound (p : NetParsers) : Prop where
  ip : ∀ t ip, p.parseIP t = some ip → ∃ a : IPText, a.text = t ∧ a.ip16 = ip
  cidr : ∀ t net, p.parseCIDR t = some net → ∃ n : CIDRText, n.text = t ∧ n.net = net

end NetParsers

end Free5gc.Lib
