/-
  UDM: from a SUCI to the SUPI that it conceals (`pkg/suci/suci.go`).

  `toSupi` undoes concealment for the null scheme and for profiles A and B, and takes no scheme
  output whose tag is not the one of its ciphertext (`toSupi_deconceals`).

  ECDH, point compression, SHA-256, HMAC and AES-CTR are parameters; of CTR it is used that
  applying it twice gives back the text.
-/
import Free5gc.Lib.Bytes
import Free5gc.Lib.Fallible
import Free5gc.Lib.Hex
import Free5gc.Lib.Text

namespace Free5gc.Udm

open Free5gc.Lib

structure Crypto where
  /-- The text of the error of `hex.DecodeString`. -/
  hexError : List Char → String
  /-- Reading the two keys and `ECDH`; an error has the text that `ecdhX25519` returns. -/
  x25519 : List UInt8 → List UInt8 → Except String (List UInt8)
  p256 : List UInt8 → List UInt8 → Except String (List UInt8)
  /-- `elliptic.UnmarshalCompressed`, then `elliptic.Marshal`. -/
  uncompress : List UInt8 → Option (List UInt8)
  /-- `elliptic.Unmarshal`, then `elliptic.MarshalCompressed`. -/
  compress : List UInt8 → Option (List UInt8)
  sha256 : List UInt8 → List UInt8
  hmac : List UInt8 → List UInt8 → List UInt8
  ctr : List UInt8 → List UInt8 → List UInt8 → List UInt8
  length_hmac : ∀ input key, (hmac input key).length = 32
  ctr_ctr : ∀ input key icb, ctr (ctr input key icb) key icb = input

/-! ## Parsing -/

structure Suci where
  supiType : List Char
  mcc : List Char
  mnc : List Char
  homeNetworkId : List Char
  routingIndicator : List Char
  protectionScheme : List Char
  publicKeyID : List Char
  schemeOutput : List Char
  deriving DecidableEq, Repr

/-- `\d{low,high}`. -/
def isDigits (low high : Nat) (s : List Char) : Bool :=
  decide (low ≤ s.length ∧ s.length ≤ high) && s.all Char.isDigit

/-- `\d{1,2}|1\d{2}|2[0-4]\d|25[0-5]`. -/
def isPublicKeyID (s : List Char) : Bool :=
  isDigits 1 2 s || isDigits 3 3 s && decide (numeralValue s ∈ List.range' 100 156)

/-- `[A-Fa-f0-9]+`. -/
def isSchemeOutput (s : List Char) : Bool := s ≠ [] && s.all fun c => (hexDigit c).isSome

def isProtectionScheme (s : List Char) : Bool := s = ['0'] || s = ['1'] || s = ['2']

/-- The groups behind the SUPI type. -/
def areTail (routing scheme key output : List Char) : Bool :=
  isDigits 1 4 routing && isProtectionScheme scheme && isPublicKeyID key && isSchemeOutput output

/-- The regular expression for an IMSI and its groups. No group but a home network id can have a
    hyphen, so the hyphens cut the text into the groups. -/
def parseIMSI : List (List Char) → Option Suci
  | [mcc, mnc, routing, scheme, key, output] =>
    if isDigits 3 3 mcc && isDigits 2 3 mnc && areTail routing scheme key output then
      some ⟨'0' :: '-' :: (mcc ++ '-' :: mnc), mcc, mnc, [], routing, scheme, key, output⟩
    else none
  | _ => none

/-- The regular expression for a NAI: all but the last four parts are the home network id. -/
def parseNAI (parts : List (List Char)) : Option Suci :=
  let home := ['-'].intercalate (parts.take (parts.length - 4))
  match parts.drop (parts.length - 4) with
  | [routing, scheme, key, output] =>
    if 4 < parts.length && !home.contains '\n' && areTail routing scheme key output then
      some ⟨'1' :: '-' :: home, [], [], '1' :: '-' :: home, routing, scheme, key, output⟩
    else none
  | _ => none

def parseSuci (input : List Char) : Option Suci :=
  match input.splitOn '-' with
  | ['s', 'u', 'c', 'i'] :: ['0'] :: parts => parseIMSI parts
  | ['s', 'u', 'c', 'i'] :: ['1'] :: parts => parseNAI parts
  | _ => none

/-! ## De-concealment -/

structure SuciProfile where
  protectionScheme : List Char
  privateKey : List Char
  deriving DecidableEq, Repr

section

variable (c : Crypto)

/-- `AnsiX963KDF`: as many hashes, with a counter from 1 on, as the keys have bytes for. -/
def ansiX963KDF (sharedKey publicKey : List UInt8) (encKeyLen macKeyLen hashLen : Nat) :
    List UInt8 :=
  (List.range ((encKeyLen + macKeyLen + hashLen - 1) / hashLen)).flatMap fun i =>
    c.sha256 (sharedKey ++ (beBytes 4 (i + 1) ++ publicKey))

def swapNibbles (input : List UInt8) : List UInt8 := input.map fun (b : UInt8) => b <<< 4 ||| b >>> 4

/-- `calcSchemeResult` for an IMSI: the digits, without the filler. -/
def calcSchemeResult (plainText : List UInt8) : List Char :=
  let result := encodeHex (swapNibbles plainText)
  if result.getLast? = some 'f' then result.dropLast else result

def decryptWithKdf (sharedKey kdfPubKey cipherText providedMac : List UInt8)
    (encKeyLen macKeyLen hashLen icbLen macLen : Nat) : Except String (List UInt8) :=
  let kdfKey := ansiX963KDF c sharedKey kdfPubKey encKeyLen macKeyLen hashLen
  let encKey := kdfKey.take encKeyLen
  let icb := (kdfKey.drop encKeyLen).take icbLen
  let macKey := kdfKey.drop (kdfKey.length - macKeyLen)
  if (c.hmac cipherText macKey).take macLen ≠ providedMac then .error "decryption MAC failed"
  else .ok (c.ctr cipherText encKey icb)

def ecdhX25519 (privateKeyHex : List Char) (peerPubKey : List UInt8) :
    Except String (List UInt8) :=
  match decodeHex privateKeyHex with
  | none => .error ("failed to decode X25519 private key: " ++ c.hexError privateKeyHex)
  | some priv => c.x25519 priv peerPubKey

/-- The key for ECDH and the one for the KDF, which is the compressed one. -/
def unmarshalPubKey (transmittedPubKey : List UInt8) : Except String (List UInt8 × List UInt8) :=
  if transmittedPubKey.head? = some 4 then
    match c.compress transmittedPubKey with
    | none => .error "failed to unmarshal uncompressed public key"
    | some short => .ok (transmittedPubKey, short)
  else
    match c.uncompress transmittedPubKey with
    | none => .error "failed to uncompress public key"
    | some whole => .ok (whole, transmittedPubKey)

/-- `ecdhP256`: the shared key and the public key for the KDF. -/
def ecdhP256 (privateKeyHex : List Char) (transmittedPubKey : List UInt8) :
    Except String (List UInt8 × List UInt8) :=
  match decodeHex privateKeyHex with
  | none => .error ("failed to decode P-256 private key: " ++ c.hexError privateKeyHex)
  | some priv => do
    let (pubKeyForECDH, kdfPubKey) ← unmarshalPubKey c transmittedPubKey
    let sharedKey ← c.p256 priv pubKeyForECDH
    .ok (sharedKey, kdfPubKey)

/-- The end of both profiles: the text between the public key and the 8 bytes of the tag. -/
def openOutput (s : List UInt8) (pubKeyLen : Nat) (keys : List UInt8 × List UInt8) :
    Except String (List Char) :=
  let cipherText := (s.drop pubKeyLen).take (s.length - 8 - pubKeyLen)
  calcSchemeResult <$> decryptWithKdf c keys.1 keys.2 cipherText (s.drop (s.length - 8))
    16 32 32 16 8

def profileA (input privateKey : List Char) : Except String (List Char) :=
  match decodeHex input with
  | none => .error (c.hexError input)
  | some s =>
    if s.length < 32 + 8 then .error "suci input too short"
    else do
      let sharedKey ← ecdhX25519 c privateKey (s.take 32)
      openOutput c s 32 (sharedKey, s.take 32)

/-- The length of the public key of profile B, from its first byte. -/
def profileBPubKeyLen (s : List UInt8) : Option Nat :=
  if s.head? = some 2 ∨ s.head? = some 3 then some 33
  else if s.head? = some 4 then some 65
  else none

def profileB (input privateKey : List Char) : Except String (List Char) :=
  match decodeHex input with
  | none => .error ("hex DecodeString error: " ++ c.hexError input)
  | some [] => .error "hex DecodeString error: %!w(<nil>)"
  | some s =>
    match profileBPubKeyLen s with
    | none => .error "suci input error: unknown public key format"
    | some pubKeyLen =>
      if s.length < pubKeyLen + 8 then .error "suci input too short"
      else do
        let keys ← ecdhP256 c privateKey (s.take pubKeyLen)
        openOutput c s pubKeyLen keys

/-- The switch on the scheme; the null scheme does not come here. -/
def openScheme (scheme input privateKey : List Char) : Except String (List Char) :=
  if scheme = ['1'] then profileA c input privateKey
  else if scheme = ['2'] then profileB c input privateKey
  else .error ("protect Scheme (" ++ String.ofList scheme ++ ") is not supported")

/-- `ToSupi`. The key id has at most three digits, so `Atoi` reads it. -/
def toSupi (suci : List Char) (suciProfiles : List SuciProfile) : Except String (List Char) :=
  match parseSuci suci with
  | none =>
    if "imsi-".toList.isPrefixOf suci || "nai-".toList.isPrefixOf suci then .ok suci
    else .error ("unknown suci [" ++ String.ofList suci ++ "]")
  | some parsed =>
    let prefixed := fun result => "imsi-".toList ++ (parsed.mcc ++ (parsed.mnc ++ result))
    let keyIndex := numeralValue parsed.publicKeyID
    let size := suciProfiles.length
    if parsed.supiType.head? ≠ some '0' then .error "unsupported suciType NAI"
    else if parsed.protectionScheme = ['0'] then .ok (prefixed parsed.schemeOutput)
    else if keyIndex < 1 then
      .error s!"keyIndex ({keyIndex}) out of range ({size})"
    else match suciProfiles[keyIndex - 1]? with
      | none => .error s!"keyIndex ({keyIndex}) out of range ({size})"
      | some profile =>
        if parsed.protectionScheme ≠ profile.protectionScheme then
          .error ("protect Scheme mismatch [" ++ String.ofList parsed.protectionScheme ++ ":" ++
            String.ofList profile.protectionScheme ++ "]")
        else prefixed <$> openScheme c parsed.protectionScheme parsed.schemeOutput
          profile.privateKey

end

/-! ## Concealment -/

def digitByte (d : Char) : UInt8 := UInt8.ofNat (d.toNat - 48)

/-- The digits of an MSIN, two in a byte with the first in the low half, and a filler at the end
    if their number is odd. -/
def bcd : List Char → List UInt8
  | [] => []
  | [a] => [0xf0 ||| digitByte a]
  | a :: b :: rest => (digitByte b <<< 4 ||| digitByte a) :: bcd rest

section

variable (c : Crypto) (shared kdfPub : List UInt8)

def kdfKey : List UInt8 := ansiX963KDF c shared kdfPub 16 32 32

def crypt (text : List UInt8) : List UInt8 :=
  c.ctr text ((kdfKey c shared kdfPub).take 16) (((kdfKey c shared kdfPub).drop 16).take 16)

def tag (cipherText : List UInt8) : List UInt8 :=
  (c.hmac cipherText
    ((kdfKey c shared kdfPub).drop ((kdfKey c shared kdfPub).length - 32))).take 8

/-- What stands behind the ephemeral key in the scheme output of an MSIN. -/
def conceal (msin : List Char) : List UInt8 :=
  let cipherText := crypt c shared kdfPub (bcd msin)
  cipherText ++ tag c shared kdfPub cipherText

end

/-- An ephemeral public key `pub` with which the private key of a profile gives the shared key,
    and the form of it that goes into the KDF. -/
inductive Agreed (c : Crypto) (privateKey : List Char) :
    List Char → List UInt8 → List UInt8 → List UInt8 → Prop
  | profileA {priv pub shared} (hpriv : decodeHex privateKey = some priv)
      (hlen : pub.length = 32) (hecdh : c.x25519 priv pub = .ok shared) :
      Agreed c privateKey ['1'] pub shared pub
  | compressed {priv pub whole shared} (hpriv : decodeHex privateKey = some priv)
      (hlen : pub.length = 33) (hhead : pub.head? = some 2 ∨ pub.head? = some 3)
      (hkey : c.uncompress pub = some whole) (hecdh : c.p256 priv whole = .ok shared) :
      Agreed c privateKey ['2'] pub shared pub
  | uncompressed {priv pub short shared} (hpriv : decodeHex privateKey = some priv)
      (hlen : pub.length = 65) (hhead : pub.head? = some 4)
      (hkey : c.compress pub = some short) (hecdh : c.p256 priv pub = .ok shared) :
      Agreed c privateKey ['2'] pub shared short

/-- The tag of a scheme output is the one of its ciphertext. -/
def TagMatches (c : Crypto) (scheme privateKey output : List Char) : Prop :=
  ∃ pub shared kdfPub cipherText, Agreed c privateKey scheme pub shared kdfPub ∧
    decodeHex output = some (pub ++ (cipherText ++ tag c shared kdfPub cipherText))

/-- Scheme outputs for an MSIN, with the profile that the key id names. -/
inductive Concealed (c : Crypto) (profiles : List SuciProfile) (msin : List Char) :
    List Char → List Char → List Char → Prop
  | null {key} (h : msin ≠ []) : Concealed c profiles msin ['0'] key msin
  | profile {scheme key output p pub shared kdfPub} (hkey : 1 ≤ numeralValue key)
      (hprofile : profiles[numeralValue key - 1]? = some p) (hscheme : p.protectionScheme = scheme)
      (hagreed : Agreed c p.privateKey scheme pub shared kdfPub)
      (hhex : isSchemeOutput output = true)
      (houtput : decodeHex output = some (pub ++ conceal c shared kdfPub msin)) :
      Concealed c profiles msin scheme key output

/-! ## Digits -/

variable {msin : List Char}

theorem encodeHex_bcd (h : ∀ d ∈ msin, d.isDigit = true) :
    encodeHex (swapNibbles (bcd msin)) = msin ++ if msin.length % 2 = 1 then ['f'] else [] := by
  have hpair : (['0', '1', '2', '3', '4', '5', '6', '7', '8', '9'].all fun a =>
      ['0', '1', '2', '3', '4', '5', '6', '7', '8', '9'].all fun b =>
        encodeHex (swapNibbles [digitByte b <<< 4 ||| digitByte a]) == [a, b]) = true := by decide
  have hlast : (['0', '1', '2', '3', '4', '5', '6', '7', '8', '9'].all fun a =>
      encodeHex (swapNibbles [0xf0 ||| digitByte a]) == [a, 'f']) = true := by decide
  simp only [List.all_eq_true, beq_iff_eq] at hpair hlast
  induction msin using bcd.induct with
  | case1 => rfl
  | case2 a => exact hlast a (mem_digits_of_isDigit (h a List.mem_cons_self))
  | case3 a b rest ih =>
    obtain ⟨ha, h⟩ := List.forall_mem_cons.mp h
    obtain ⟨hb, h⟩ := List.forall_mem_cons.mp h
    have htwo := hpair a (mem_digits_of_isDigit ha) b (mem_digits_of_isDigit hb)
    have hsplit : encodeHex (swapNibbles (bcd (a :: b :: rest))) =
        encodeHex (swapNibbles [digitByte b <<< 4 ||| digitByte a]) ++
          encodeHex (swapNibbles (bcd rest)) := by
      simp [bcd, swapNibbles, encodeHex]
    have hparity : (a :: b :: rest).length % 2 = rest.length % 2 := Nat.add_mod_right _ 2
    rw [hsplit, htwo, ih h, hparity]
    rfl

theorem calcSchemeResult_bcd (h : ∀ d ∈ msin, d.isDigit = true) :
    calcSchemeResult (bcd msin) = msin := by
  unfold calcSchemeResult
  rw [encodeHex_bcd h]
  by_cases hodd : msin.length % 2 = 1
  · simp [hodd]
  · rw [if_neg hodd, List.append_nil, if_neg]
    intro hlast
    have := h 'f' (List.mem_of_getLast? hlast)
    simp at this

/-! ## Profiles -/

section

variable {c : Crypto} {scheme privateKey input : List Char}
  {pub shared kdfPub cipherText mac : List UInt8}

variable {n : Nat}

theorem decryptWithKdf_eq : decryptWithKdf c shared kdfPub cipherText mac 16 32 32 16 8 =
    if tag c shared kdfPub cipherText = mac then .ok (crypt c shared kdfPub cipherText)
    else .error "decryption MAC failed" := by
  change (if tag c shared kdfPub cipherText ≠ mac then _ else _) = _
  rw [ite_not]
  rfl

theorem openOutput_eq (hpub : pub.length = n) (hmac : mac.length = 8) :
    openOutput c (pub ++ (cipherText ++ mac)) n (shared, kdfPub) =
      if tag c shared kdfPub cipherText = mac then
        .ok (calcSchemeResult (crypt c shared kdfPub cipherText))
      else .error "decryption MAC failed" := by
  have hcipher : ((pub ++ (cipherText ++ mac)).drop n).take
      ((pub ++ (cipherText ++ mac)).length - 8 - n) = cipherText := by
    rw [List.drop_left' hpub]
    exact List.take_left' (by simp; omega)
  have htail : (pub ++ (cipherText ++ mac)).drop ((pub ++ (cipherText ++ mac)).length - 8) =
      mac := by
    rw [← List.append_assoc]
    exact List.drop_left' (by simp; omega)
  unfold openOutput
  rw [hcipher, htail]
  dsimp only
  rw [decryptWithKdf_eq]
  split_ifs
  · rfl
  · rfl

theorem head?_append_of_length {rest : List UInt8} (h : pub.length = n + 1) :
    (pub ++ rest).head? = pub.head? := by
  cases pub with
  | nil => simp at h
  | cons b pub => rfl

theorem profileB_eq (hpub : pub.length = n + 1) (hmac : mac.length = 8)
    (hinput : decodeHex input = some (pub ++ (cipherText ++ mac)))
    (hlen : profileBPubKeyLen (pub ++ (cipherText ++ mac)) = some (n + 1))
    (hecdh : ecdhP256 c privateKey pub = .ok (shared, kdfPub)) :
    openScheme c ['2'] input privateKey =
      if tag c shared kdfPub cipherText = mac then
        .ok (calcSchemeResult (crypt c shared kdfPub cipherText))
      else .error "decryption MAC failed" := by
  have hne : pub ++ (cipherText ++ mac) ≠ [] := by
    intro hnil
    simp [List.append_eq_nil_iff] at hnil
    simp [hnil.1] at hpub
  rw [openScheme, if_neg (by decide), if_pos rfl, profileB, hinput]
  split
  · rename_i heq
    cases heq
  · rename_i heq
    exact absurd (Option.some.inj heq) hne
  · rename_i heq
    obtain rfl := Option.some.inj heq
    rw [hlen]
    dsimp only
    rw [if_neg (by simp; omega), List.take_left' hpub, hecdh]
    exact openOutput_eq hpub hmac

/-- With an agreed key, a profile opens a scheme output if its tag is right. -/
theorem openScheme_eq (h : Agreed c privateKey scheme pub shared kdfPub)
    (hmac : mac.length = 8) (hinput : decodeHex input = some (pub ++ (cipherText ++ mac))) :
    openScheme c scheme input privateKey =
      if tag c shared kdfPub cipherText = mac then
        .ok (calcSchemeResult (crypt c shared kdfPub cipherText))
      else .error "decryption MAC failed" := by
  cases h with
  | profileA hpriv hlen hecdh =>
    rw [openScheme, if_pos rfl, profileA, hinput]
    dsimp only
    rw [if_neg (by simp; omega), List.take_left' hlen, ecdhX25519, hpriv]
    dsimp only
    rw [hecdh]
    exact openOutput_eq hlen hmac
  | compressed hpriv hlen hhead hkey hecdh =>
    have hfour : pub.head? ≠ some 4 := by
      intro hfour
      simp [hfour] at hhead
    refine profileB_eq hlen hmac hinput ?_ ?_
    · rw [profileBPubKeyLen, head?_append_of_length hlen, if_pos hhead]
    · simp [ecdhP256, hpriv, unmarshalPubKey, hfour, hkey, hecdh, bind, Except.bind]
  | uncompressed hpriv hlen hhead hkey hecdh =>
    refine profileB_eq hlen hmac hinput ?_ ?_
    · rw [profileBPubKeyLen, head?_append_of_length hlen, hhead, if_neg (by decide), if_pos rfl]
    · simp [ecdhP256, hpriv, unmarshalPubKey, hhead, hkey, hecdh, bind, Except.bind]

theorem exists_parts {s : List UInt8} (h : n + 8 ≤ s.length) :
    ∃ pub cipherText mac, s = pub ++ (cipherText ++ mac) ∧ pub.length = n ∧ mac.length = 8 :=
  ⟨s.take n, (s.drop n).take (s.length - 8 - n), (s.drop n).drop (s.length - 8 - n), by simp,
    by simp; omega, by simp; omega⟩

theorem tagMatches_of_agreed {r : List Char}
    (h : Agreed c privateKey scheme pub shared kdfPub) (hmac : mac.length = 8)
    (hinput : decodeHex input = some (pub ++ (cipherText ++ mac)))
    (hok : openScheme c scheme input privateKey = .ok r) :
    TagMatches c scheme privateKey input := by
  rw [openScheme_eq h hmac hinput] at hok
  split_ifs at hok with htag
  exact ⟨pub, shared, kdfPub, cipherText, h, htag ▸ hinput⟩

theorem agreed_of_ecdhP256 {rest : List UInt8} (hpub : pub.length = n)
    (hn : profileBPubKeyLen (pub ++ rest) = some n)
    (hecdh : ecdhP256 c privateKey pub = .ok (shared, kdfPub)) :
    Agreed c privateKey ['2'] pub shared kdfPub := by
  unfold ecdhP256 at hecdh
  split at hecdh
  · cases hecdh
  rename_i priv hpriv
  obtain ⟨⟨forECDH, forKDF⟩, hkey, hecdh⟩ := bind_eq_ok.mp hecdh
  obtain ⟨key, hp256, hkeys⟩ := bind_eq_ok.mp hecdh
  obtain ⟨rfl, rfl⟩ := Prod.mk.inj (Except.ok.inj hkeys)
  have hsome : ∃ k, n = k + 1 := by
    unfold profileBPubKeyLen at hn
    split_ifs at hn
    · exact ⟨32, (Option.some.inj hn).symm⟩
    · exact ⟨64, (Option.some.inj hn).symm⟩
  obtain ⟨k, rfl⟩ := hsome
  rw [profileBPubKeyLen, head?_append_of_length hpub, ← hpub] at hn
  unfold unmarshalPubKey at hkey
  split_ifs at hn with hhead hfour
  · have hne : pub.head? ≠ some 4 := by
      intro hfour
      simp [hfour] at hhead
    rw [if_neg hne] at hkey
    split at hkey
    · cases hkey
    · rename_i whole hwhole
      obtain ⟨rfl, rfl⟩ := Prod.mk.inj (Except.ok.inj hkey)
      exact .compressed hpriv (Option.some.inj hn).symm hhead hwhole hp256
  · rw [if_pos hfour] at hkey
    split at hkey
    · cases hkey
    · rename_i short hshort
      obtain ⟨rfl, rfl⟩ := Prod.mk.inj (Except.ok.inj hkey)
      exact .uncompressed hpriv (Option.some.inj hn).symm hfour hshort hp256

/-- What a profile opens has the tag of its ciphertext. -/
theorem tagMatches_of_openScheme {r : List Char}
    (hok : openScheme c scheme input privateKey = .ok r) :
    TagMatches c scheme privateKey input := by
  have hscheme := hok
  unfold openScheme at hok
  split_ifs at hok with hA hB
  · subst hA
    unfold profileA at hok
    split at hok
    · cases hok
    rename_i s hinput
    split_ifs at hok with hshort
    obtain ⟨pub, cipherText, mac, rfl, hpub, hmac⟩ := exists_parts (s := s) (n := 32) (by omega)
    rw [List.take_left' hpub] at hok
    obtain ⟨shared, hecdh, -⟩ := bind_eq_ok.mp hok
    unfold ecdhX25519 at hecdh
    split at hecdh
    · cases hecdh
    · rename_i priv hpriv
      exact tagMatches_of_agreed (.profileA hpriv hpub hecdh) hmac hinput hscheme
  · subst hB
    unfold profileB at hok
    split at hok
    · cases hok
    · cases hok
    rename_i s _ hinput
    split at hok
    · cases hok
    rename_i n hn
    split_ifs at hok with hshort
    obtain ⟨pub, cipherText, mac, rfl, hpub, hmac⟩ := exists_parts (s := s) (n := n) (by omega)
    rw [List.take_left' hpub] at hok
    obtain ⟨⟨shared, kdfPub⟩, hecdh, -⟩ := bind_eq_ok.mp hok
    exact tagMatches_of_agreed (agreed_of_ecdhP256 hpub hn hecdh) hmac hinput hscheme

end

/-! ## SUCIs of an IMSI -/

structure HomeNetwork where
  mcc : List Char
  mnc : List Char
  routingIndicator : List Char
  isMcc : isDigits 3 3 mcc = true
  isMnc : isDigits 2 3 mnc = true
  isRoutingIndicator : isDigits 1 4 routingIndicator = true

def suciText (home : HomeNetwork) (scheme key output : List Char) : List Char :=
  ['-'].intercalate [['s', 'u', 'c', 'i'], ['0'], home.mcc, home.mnc, home.routingIndicator,
    scheme, key, output]

theorem notMem_of_isDigits {low high : Nat} {s : List Char} (h : isDigits low high s = true) :
    '-' ∉ s := by
  intro hmem
  rw [isDigits, Bool.and_eq_true, List.all_eq_true] at h
  have := h.2 '-' hmem
  simp at this

theorem parseSuci_suciText (home : HomeNetwork) {scheme key output : List Char}
    (hscheme : isProtectionScheme scheme = true) (hkey : isPublicKeyID key = true)
    (houtput : isSchemeOutput output = true) :
    parseSuci (suciText home scheme key output) = some ⟨'0' :: '-' :: (home.mcc ++ '-' :: home.mnc),
      home.mcc, home.mnc, [], home.routingIndicator, scheme, key, output⟩ := by
  have hschemeText : '-' ∉ scheme := by
    simp only [isProtectionScheme, Bool.or_eq_true, decide_eq_true_eq] at hscheme
    obtain (rfl | rfl) | rfl := hscheme <;> decide
  have hkeyText : '-' ∉ key := by
    simp only [isPublicKeyID, Bool.or_eq_true, Bool.and_eq_true] at hkey
    obtain h | ⟨h, -⟩ := hkey
    · exact notMem_of_isDigits h
    · exact notMem_of_isDigits h
  have houtputText : '-' ∉ output := by
    intro hmem
    simp only [isSchemeOutput, Bool.and_eq_true, List.all_eq_true] at houtput
    have := houtput.2 '-' hmem
    revert this
    decide
  have hsplit : (suciText home scheme key output).splitOn '-' = [['s', 'u', 'c', 'i'], ['0'],
      home.mcc, home.mnc, home.routingIndicator, scheme, key, output] := by
    refine List.splitOn_intercalate '-' ?_ (List.cons_ne_nil _ _)
    simp [hschemeText, hkeyText, houtputText, notMem_of_isDigits home.isMcc,
      notMem_of_isDigits home.isMnc, notMem_of_isDigits home.isRoutingIndicator]
  rw [parseSuci, hsplit]
  simp [parseIMSI, areTail, home.isMcc, home.isMnc, home.isRoutingIndicator, hscheme, hkey, houtput]

theorem isSchemeOutput_of_digits (hne : msin ≠ []) (h : ∀ d ∈ msin, d.isDigit = true) :
    isSchemeOutput msin = true := by
  have hdigit : ∀ d ∈ msin, (hexDigit d).isSome = true := by
    intro d hd
    simp [hexDigit, h d hd]
  simpa [isSchemeOutput, hne] using hdigit

/-- A SUCI of a concealed MSIN is turned into the SUPI with that MSIN, and no SUPI is made of a
    scheme output whose tag is not the one of its ciphertext. -/
theorem toSupi_deconceals (c : Crypto) (profiles : List SuciProfile) :
    (∀ (home : HomeNetwork) (msin scheme key output : List Char),
        (∀ d ∈ msin, d.isDigit = true) → isPublicKeyID key = true →
        Concealed c profiles msin scheme key output →
        toSupi c (suciText home scheme key output) profiles =
          .ok ("imsi-".toList ++ (home.mcc ++ (home.mnc ++ msin)))) ∧
      ∀ suci parsed, parseSuci suci = some parsed → parsed.protectionScheme ≠ ['0'] →
        (∀ p, profiles[numeralValue parsed.publicKeyID - 1]? = some p →
          ¬TagMatches c parsed.protectionScheme p.privateKey parsed.schemeOutput) →
        ∃ e, toSupi c suci profiles = .error e := by
  constructor
  · intro home msin scheme key output hmsin hkey h
    cases h with
    | null hne =>
      have hnull : isProtectionScheme ['0'] = true := rfl
      simp [toSupi, parseSuci_suciText home hnull hkey (isSchemeOutput_of_digits hne hmsin)]
    | @profile scheme key output p pub shared kdfPub hpos hprofile hscheme hagreed hhex houtput =>
      have hkind : isProtectionScheme scheme = true ∧ scheme ≠ ['0'] := by
        cases hagreed <;> exact ⟨rfl, by decide⟩
      have hparse := parseSuci_suciText home hkind.1 hkey hhex
      have hopen := openScheme_eq hagreed
        (show (tag c shared kdfPub (crypt c shared kdfPub (bcd msin))).length = 8 by
          simp [tag, c.length_hmac]) houtput
      rw [if_pos rfl, crypt, crypt, c.ctr_ctr, calcSchemeResult_bcd hmsin] at hopen
      simp [toSupi, hparse, hkind.2, hprofile, hscheme, hopen, show numeralValue key ≠ 0 by omega]
  · intro suci parsed hparse hnull htag
    cases hresult : toSupi c suci profiles with
    | error e => exact ⟨e, rfl⟩
    | ok supi =>
      rw [toSupi, hparse] at hresult
      dsimp only at hresult
      split_ifs at hresult with hnai hzero
      split at hresult
      · cases hresult
      · rename_i p hp
        split_ifs at hresult
        cases hopen : openScheme c parsed.protectionScheme parsed.schemeOutput p.privateKey with
        | error e => rw [hopen] at hresult; cases hresult
        | ok r => exact absurd (tagMatches_of_openScheme hopen) (htag p hp)

/-- Functions for runs on given texts: nothing is hidden. -/
def plainCrypto : Crypto where
  hexError _ := ""
  x25519 _ _ := .ok []
  p256 _ _ := .ok []
  uncompress := some
  compress := some
  sha256 _ := []
  hmac _ _ := List.replicate 32 0
  ctr input _ _ := input
  length_hmac _ _ := List.length_replicate
  ctr_ctr _ _ _ := rfl

def sampleHome : HomeNetwork := ⟨"208".toList, "93".toList, "0".toList, rfl, rfl, rfl⟩

def sampleOutput : List Char :=
  encodeHex (List.replicate 32 1 ++ ([0x21, 0xf3] ++ List.replicate 8 0))

theorem concealed_sample :
    Concealed plainCrypto [⟨['1'], []⟩] "123".toList ['1'] ['1'] sampleOutput := by
  have hpriv : decodeHex [] = some [] := rfl
  have hagreed : Agreed plainCrypto [] ['1'] (List.replicate 32 1) [] (List.replicate 32 1) :=
    .profileA hpriv (by decide) rfl
  exact .profile (by decide) rfl rfl hagreed (by decide) (by decide)

theorem toSupi_profileA_sample :
    toSupi plainCrypto (suciText sampleHome ['1'] ['1'] sampleOutput) [⟨['1'], []⟩] =
      .ok "imsi-20893123".toList :=
  (toSupi_deconceals plainCrypto [⟨['1'], []⟩]).1 sampleHome _ _ _ _
    (List.all_eq_true.mp (by decide)) (by decide) concealed_sample

/-- The null scheme with an MSIN of no digits. -/
theorem toSupi_empty_msin : toSupi plainCrypto (suciText sampleHome ['0'] ['0'] []) [] =
    .error "unknown suci [suci-0-208-93-0-0-0-]" := by
  decide

end Free5gc.Udm
