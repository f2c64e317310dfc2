/-
  CDR files (`cdr/cdrFile`, TS 32.297 6.1): the header of a file, the headers of its CDRs, how
  they are written and how a file is read back.

  The reader finds the variable parts of the header by offsets that it computes in 16 bits, and
  it takes the extension of the low release identifier from one position behind the extension of
  the high one, present or not. A file is read back as it was written exactly when neither
  matters (`CDRFile.Readable`).
-/
import Free5gc.Lib.Bytes

namespace Free5gc.Chf.Cdr

open Free5gc.Lib

/-! ## Files -/

structure CdrHdrTimeStamp where
  monthLocal : UInt8
  dateLocal : UInt8
  hourLocal : UInt8
  minuteLocal : UInt8
  signOfTheLocalTimeDifferentialFromUtc : UInt8
  hourDeviation : UInt8
  minuteDeviation : UInt8
  deriving DecidableEq, Repr

structure CdrFileHeader where
  fileLength : UInt32
  headerLength : UInt32
  highReleaseIdentifier : UInt8
  highVersionIdentifier : UInt8
  lowReleaseIdentifier : UInt8
  lowVersionIdentifier : UInt8
  fileOpeningTimestamp : CdrHdrTimeStamp
  timestampWhenLastCdrWasAppendedToFIle : CdrHdrTimeStamp
  numberOfCdrsInFile : UInt32
  fileSequenceNumber : UInt32
  fileClosureTriggerReason : UInt8
  ipAddressOfNodeThatGeneratedFile : Vector UInt8 20
  lostCdrIndicator : UInt8
  lengthOfCdrRouteingFilter : UInt16
  cdrRouteingFilter : List UInt8
  lengthOfPrivateExtension : UInt16
  privateExtension : List UInt8
  highReleaseIdentifierExtension : UInt8
  lowReleaseIdentifierExtension : UInt8
  deriving DecidableEq, Repr

structure CdrHeader where
  cdrLength : UInt16
  releaseIdentifier : UInt8
  versionIdentifier : UInt8
  dataRecordFormat : UInt8
  tsNumber : UInt8
  releaseIdentifierExtension : UInt8
  deriving DecidableEq, Repr

structure CDR where
  hdr : CdrHeader
  cdrByte : List UInt8
  deriving DecidableEq, Repr

structure CDRFile where
  hdr : CdrFileHeader
  cdrList : List CDR
  deriving DecidableEq, Repr

/-! ## Encoding -/

/-- The 32 bits of a time stamp. -/
def CdrHdrTimeStamp.pack (t : CdrHdrTimeStamp) : UInt32 :=
  t.monthLocal.toUInt32 <<< 28 ||| t.dateLocal.toUInt32 <<< 23 ||| t.hourLocal.toUInt32 <<< 18 |||
    t.minuteLocal.toUInt32 <<< 12 ||| t.signOfTheLocalTimeDifferentialFromUtc.toUInt32 <<< 11 |||
    t.hourDeviation.toUInt32 <<< 6 ||| t.minuteDeviation.toUInt32

/-- An extension is written for release identifier 7 only. -/
def extension (release ext : UInt8) : List UInt8 := if release = 7 then [ext] else []

/-- The parts of a file header, in the order in which they are written. -/
def CdrFileHeader.parts (h : CdrFileHeader) : List (List UInt8) :=
  [beBytes 4 h.fileLength.toNat,
    beBytes 4 h.headerLength.toNat,
    [h.highReleaseIdentifier <<< 5 ||| h.highVersionIdentifier],
    [h.lowReleaseIdentifier <<< 5 ||| h.lowVersionIdentifier],
    beBytes 4 h.fileOpeningTimestamp.pack.toNat,
    beBytes 4 h.timestampWhenLastCdrWasAppendedToFIle.pack.toNat,
    beBytes 4 h.numberOfCdrsInFile.toNat,
    beBytes 4 h.fileSequenceNumber.toNat,
    [h.fileClosureTriggerReason],
    h.ipAddressOfNodeThatGeneratedFile.toList,
    [h.lostCdrIndicator],
    beBytes 2 h.lengthOfCdrRouteingFilter.toNat,
    h.cdrRouteingFilter,
    beBytes 2 h.lengthOfPrivateExtension.toNat,
    h.privateExtension,
    extension h.highReleaseIdentifier h.highReleaseIdentifierExtension,
    extension h.lowReleaseIdentifier h.lowReleaseIdentifierExtension]

def CdrFileHeader.encoding (h : CdrFileHeader) : List UInt8 := h.parts.flatten

def CdrHeader.parts (h : CdrHeader) : List (List UInt8) :=
  [beBytes 2 h.cdrLength.toNat,
    [h.releaseIdentifier <<< 5 ||| h.versionIdentifier],
    [h.dataRecordFormat <<< 5 ||| h.tsNumber],
    extension h.releaseIdentifier h.releaseIdentifierExtension]

def CdrHeader.encoding (h : CdrHeader) : List UInt8 := h.parts.flatten

def CDR.encoding (c : CDR) : List UInt8 := c.hdr.encoding ++ c.cdrByte

/-- `CDRFile.Encoding`: what is written to the file. Lengths that do not agree are only
    reported. -/
def CDRFile.encoding (f : CDRFile) : List UInt8 :=
  f.hdr.encoding ++ (f.cdrList.map CDR.encoding).flatten

/-! ## Decoding -/

def uint16 (bs : List UInt8) : UInt16 := UInt16.ofNat (beNat bs)

def uint32 (bs : List UInt8) : UInt32 := UInt32.ofNat (beNat bs)

def CdrHdrTimeStamp.unpack (ts : UInt32) : CdrHdrTimeStamp where
  monthLocal := (ts >>> 28).toUInt8
  dateLocal := ((ts >>> 23) &&& 31).toUInt8
  hourLocal := ((ts >>> 18) &&& 31).toUInt8
  minuteLocal := ((ts >>> 12) &&& 63).toUInt8
  signOfTheLocalTimeDifferentialFromUtc := ((ts >>> 11) &&& 1).toUInt8
  hourDeviation := ((ts >>> 6) &&& 31).toUInt8
  minuteDeviation := (ts &&& 63).toUInt8

/-- `copy(ip[:], bs)` into an array of zeros. -/
def toIp (bs : List UInt8) : Vector UInt8 20 := Vector.ofFn fun i => bs.getD i 0

/-- An extension is read for release identifier 7 only; without one the field stays 0. -/
def readExtension (data : List UInt8) (release : UInt8) (pos : Nat) : Option UInt8 :=
  if release = 7 then data[pos]? else some 0

/-- How far an extension moves the reader. -/
def extensionLength (release : UInt8) : UInt32 := if release = 7 then 1 else 0

/-- The parts of the file header that have fixed positions; the others are left empty. -/
def decodeFixed (data : List UInt8) : Option CdrFileHeader := do
  let opening ← slice data 10 14
  let appended ← slice data 14 18
  let number ← slice data 18 22
  let lengthOfFilter ← slice data 48 50
  let ip ← slice data 27 47
  let fileLength ← slice data 0 4
  let headerLength ← slice data 4 8
  let high : UInt8 ← data[8]?
  let low : UInt8 ← data[9]?
  let sequence ← slice data 22 26
  let reason : UInt8 ← data[26]?
  let lost : UInt8 ← data[47]?
  some
    { fileLength := uint32 fileLength
      headerLength := uint32 headerLength
      highReleaseIdentifier := high >>> 5
      highVersionIdentifier := high &&& 31
      lowReleaseIdentifier := low >>> 5
      lowVersionIdentifier := low &&& 31
      fileOpeningTimestamp := CdrHdrTimeStamp.unpack (uint32 opening)
      timestampWhenLastCdrWasAppendedToFIle := CdrHdrTimeStamp.unpack (uint32 appended)
      numberOfCdrsInFile := uint32 number
      fileSequenceNumber := uint32 sequence
      fileClosureTriggerReason := reason
      ipAddressOfNodeThatGeneratedFile := toIp ip
      lostCdrIndicator := lost
      lengthOfCdrRouteingFilter := uint16 lengthOfFilter
      cdrRouteingFilter := []
      lengthOfPrivateExtension := 0
      privateExtension := []
      highReleaseIdentifierExtension := 0
      lowReleaseIdentifierExtension := 0 }

/-- The file header, and the position behind it. The offsets `xy` and `n` are `uint16`. -/
def decodeHeader (data : List UInt8) : Option (CdrFileHeader × UInt32) := do
  let hdr ← decodeFixed data
  let xy : UInt16 := 50 + hdr.lengthOfCdrRouteingFilter
  let lengthOfExtension ← slice data xy.toNat (xy + 2).toNat
  let n : UInt16 := xy + 2 + uint16 lengthOfExtension
  let filter ← slice data 50 xy.toNat
  let privateBytes ← slice data (xy + 2).toNat n.toNat
  let highExtension ← readExtension data hdr.highReleaseIdentifier n.toNat
  let lowExtension ← readExtension data hdr.lowReleaseIdentifier (n + 1).toNat
  some
    ({ hdr with
       cdrRouteingFilter := filter
       lengthOfPrivateExtension := uint16 lengthOfExtension
       privateExtension := privateBytes
       highReleaseIdentifierExtension := highExtension
       lowReleaseIdentifierExtension := lowExtension },
      n.toUInt32 + extensionLength hdr.highReleaseIdentifier +
        extensionLength hdr.lowReleaseIdentifier)

/-- One CDR at `tail`, and the position behind it. A file that is too short for the length is
    only reported, and the slice of the bytes then panics. -/
def decodeCdr (data : List UInt8) (tail : UInt32) : Option (CDR × UInt32) := do
  let length ← slice data tail.toNat (tail + 2).toNat
  let oct3 : UInt8 ← data[(tail + 2).toNat]?
  let oct4 : UInt8 ← data[(tail + 3).toNat]?
  let ext ← readExtension data (oct3 >>> 5) (tail + 4).toNat
  let i := (4 : UInt32) + extensionLength (oct3 >>> 5)
  let bytes ← slice data (tail + i).toNat (tail + i + (uint16 length).toUInt32).toNat
  some
    ({ hdr :=
         { cdrLength := uint16 length
           releaseIdentifier := oct3 >>> 5
           versionIdentifier := oct3 &&& 31
           dataRecordFormat := oct4 >>> 5
           tsNumber := oct4 &&& 31
           releaseIdentifierExtension := ext }
       cdrByte := bytes },
      tail + i + (uint16 length).toUInt32)

def decodeCdrs (data : List UInt8) : Nat → UInt32 → Option (List CDR)
  | 0, _ => some []
  | k + 1, tail => do
    let (cdr, tail) ← decodeCdr data tail
    let rest ← decodeCdrs data k tail
    some (cdr :: rest)

/-- `CDRFile.Decoding`, into a new `CDRFile`; `none` where it panics. -/
def decoding (data : List UInt8) : Option CDRFile := do
  let (hdr, tail) ← decodeHeader data
  let cdrList ← decodeCdrs data hdr.numberOfCdrsInFile.toNat tail
  some ⟨hdr, cdrList⟩

/-! ## Fields and their bytes -/

variable {f : CDRFile}

theorem uint16_beBytes (v : UInt16) : uint16 (beBytes 2 v.toNat) = v := by
  unfold uint16
  rw [beNat_beBytes_of_lt (by have := v.toNat_lt; omega), UInt16.ofNat_toNat]

theorem uint32_beBytes (v : UInt32) : uint32 (beBytes 4 v.toNat) = v := by
  unfold uint32
  rw [beNat_beBytes_of_lt (by have := v.toNat_lt; omega), UInt32.ofNat_toNat]

theorem toIp_toList (ip : Vector UInt8 20) : toIp ip.toList = ip := by
  ext i hi
  simp [toIp]

/-- The fields of a time stamp fit their bits. -/
structure CdrHdrTimeStamp.Fits (t : CdrHdrTimeStamp) : Prop where
  month : t.monthLocal.toNat < 16
  date : t.dateLocal.toNat < 32
  hour : t.hourLocal.toNat < 32
  minute : t.minuteLocal.toNat < 64
  sign : t.signOfTheLocalTimeDifferentialFromUtc.toNat < 2
  hourDeviation : t.hourDeviation.toNat < 32
  minuteDeviation : t.minuteDeviation.toNat < 64

theorem toNat_shiftLeft_toUInt32 (x : UInt8) {k : UInt32} {n : Nat} (hk : k.toNat = n) (hn : n < 32)
    (h : x.toNat * 2 ^ n < 2 ^ 32) : (x.toUInt32 <<< k).toNat = x.toNat * 2 ^ n := by
  rw [UInt32.toNat_shiftLeft, hk, Nat.mod_eq_of_lt hn, Nat.shiftLeft_eq]
  exact Nat.mod_eq_of_lt h

theorem toNat_pack {t : CdrHdrTimeStamp} (h : t.Fits) :
    t.pack.toNat =
      t.monthLocal.toNat * 2 ^ 28 + t.dateLocal.toNat * 2 ^ 23 + t.hourLocal.toNat * 2 ^ 18 +
        t.minuteLocal.toNat * 2 ^ 12 + t.signOfTheLocalTimeDifferentialFromUtc.toNat * 2 ^ 11 +
        t.hourDeviation.toNat * 2 ^ 6 + t.minuteDeviation.toNat := by
  obtain ⟨h₁, h₂, h₃, h₄, h₅, h₆, h₇⟩ := h
  unfold CdrHdrTimeStamp.pack
  simp only [UInt32.toNat_or, UInt8.toNat_toUInt32]
  rw [toNat_shiftLeft_toUInt32 _ (n := 28) rfl (by omega) (by omega),
    toNat_shiftLeft_toUInt32 _ (n := 23) rfl (by omega) (by omega),
    toNat_shiftLeft_toUInt32 _ (n := 18) rfl (by omega) (by omega),
    toNat_shiftLeft_toUInt32 _ (n := 12) rfl (by omega) (by omega),
    toNat_shiftLeft_toUInt32 _ (n := 11) rfl (by omega) (by omega),
    toNat_shiftLeft_toUInt32 _ (n := 6) rfl (by omega) (by omega)]
  -- each field lies below the bits of those before it
  generalize t.monthLocal.toNat = m, t.dateLocal.toNat = d, t.hourLocal.toNat = h,
    t.minuteLocal.toNat = mi, t.signOfTheLocalTimeDifferentialFromUtc.toNat = s,
    t.hourDeviation.toNat = hd at *
  rw [or_eq_add m (by omega), show m * 2 ^ 28 + d * 2 ^ 23 = (m * 2 ^ 5 + d) * 2 ^ 23 by omega,
    or_eq_add _ (by omega), show (m * 2 ^ 5 + d) * 2 ^ 23 + h * 2 ^ 18 =
      ((m * 2 ^ 5 + d) * 2 ^ 5 + h) * 2 ^ 18 by omega,
    or_eq_add _ (by omega), show ((m * 2 ^ 5 + d) * 2 ^ 5 + h) * 2 ^ 18 + mi * 2 ^ 12 =
      (((m * 2 ^ 5 + d) * 2 ^ 5 + h) * 2 ^ 6 + mi) * 2 ^ 12 by omega,
    or_eq_add _ (by omega), show (((m * 2 ^ 5 + d) * 2 ^ 5 + h) * 2 ^ 6 + mi) * 2 ^ 12 + s * 2 ^ 11 =
      ((((m * 2 ^ 5 + d) * 2 ^ 5 + h) * 2 ^ 6 + mi) * 2 + s) * 2 ^ 11 by omega,
    or_eq_add _ (by omega),
    show ((((m * 2 ^ 5 + d) * 2 ^ 5 + h) * 2 ^ 6 + mi) * 2 + s) * 2 ^ 11 + hd * 2 ^ 6 =
      (((((m * 2 ^ 5 + d) * 2 ^ 5 + h) * 2 ^ 6 + mi) * 2 + s) * 2 ^ 5 + hd) * 2 ^ 6 by omega,
    or_eq_add _ h₇]

/-- A field of `w` bits that starts at bit `k` of a word. -/
theorem toUInt8_field (ts k mask : UInt32) {x : UInt8} {w n : Nat} (hk : k.toNat = n) (hn : n < 32)
    (hmask : mask.toNat = 2 ^ w - 1) (h : ts.toNat / 2 ^ n % 2 ^ w = x.toNat) :
    ((ts >>> k) &&& mask).toUInt8 = x := by
  apply UInt8.toNat_inj.mp
  rw [UInt32.toNat_toUInt8, UInt32.toNat_and, hmask, Nat.and_two_pow_sub_one_eq_mod,
    UInt32.toNat_shiftRight, hk, Nat.mod_eq_of_lt hn, Nat.shiftRight_eq_div_pow, h]
  exact Nat.mod_eq_of_lt x.toNat_lt

theorem unpack_pack {t : CdrHdrTimeStamp} (h : t.Fits) : CdrHdrTimeStamp.unpack t.pack = t := by
  have hpack := toNat_pack h
  obtain ⟨h₁, h₂, h₃, h₄, h₅, h₆, h₇⟩ := h
  have hmonth : (t.pack >>> 28).toUInt8 = t.monthLocal := by
    apply UInt8.toNat_inj.mp
    rw [UInt32.toNat_toUInt8, UInt32.toNat_shiftRight, hpack, Nat.shiftRight_eq_div_pow]
    show _ / 2 ^ 28 % 2 ^ 8 = _
    omega
  have hmin : (t.pack &&& 63).toUInt8 = t.minuteDeviation := by
    apply UInt8.toNat_inj.mp
    rw [UInt32.toNat_toUInt8, UInt32.toNat_and, hpack]
    show (_ &&& (2 ^ 6 - 1)) % 2 ^ 8 = _
    rw [Nat.and_two_pow_sub_one_eq_mod]
    omega
  unfold CdrHdrTimeStamp.unpack
  rw [hmonth, hmin,
    toUInt8_field t.pack 23 31 (x := t.dateLocal) (w := 5) (n := 23) rfl (by omega) rfl (by omega),
    toUInt8_field t.pack 18 31 (x := t.hourLocal) (w := 5) (n := 18) rfl (by omega) rfl (by omega),
    toUInt8_field t.pack 12 63 (x := t.minuteLocal) (w := 6) (n := 12) rfl (by omega) rfl
      (by omega),
    toUInt8_field t.pack 11 1 (x := t.signOfTheLocalTimeDifferentialFromUtc) (w := 1) (n := 11) rfl
      (by omega) rfl (by omega),
    toUInt8_field t.pack 6 31 (x := t.hourDeviation) (w := 5) (n := 6) rfl (by omega) rfl
      (by omega)]

/-! ## Well-formed files -/

/-- Fields within their bits, lengths that agree, and no extension where there is none. -/
structure CdrFileHeader.WellFormed (h : CdrFileHeader) : Prop where
  highRelease : h.highReleaseIdentifier.toNat < 8
  highVersion : h.highVersionIdentifier.toNat < 32
  lowRelease : h.lowReleaseIdentifier.toNat < 8
  lowVersion : h.lowVersionIdentifier.toNat < 32
  opening : h.fileOpeningTimestamp.Fits
  appended : h.timestampWhenLastCdrWasAppendedToFIle.Fits
  filter : h.lengthOfCdrRouteingFilter.toNat = h.cdrRouteingFilter.length
  privateExtension : h.lengthOfPrivateExtension.toNat = h.privateExtension.length
  highExtension : h.highReleaseIdentifier ≠ 7 → h.highReleaseIdentifierExtension = 0
  lowExtension : h.lowReleaseIdentifier ≠ 7 → h.lowReleaseIdentifierExtension = 0

structure CDR.WellFormed (c : CDR) : Prop where
  release : c.hdr.releaseIdentifier.toNat < 8
  version : c.hdr.versionIdentifier.toNat < 32
  format : c.hdr.dataRecordFormat.toNat < 8
  tsNumber : c.hdr.tsNumber.toNat < 32
  length : c.hdr.cdrLength.toNat = c.cdrByte.length
  extension : c.hdr.releaseIdentifier ≠ 7 → c.hdr.releaseIdentifierExtension = 0

/-- A well-formed file. That it is shorter than 4 GiB follows where its `fileLength` is its
    length. -/
structure CDRFile.WellFormed (f : CDRFile) : Prop where
  hdr : f.hdr.WellFormed
  cdrs : ∀ c ∈ f.cdrList, c.WellFormed
  number : f.hdr.numberOfCdrsInFile.toNat = f.cdrList.length
  size : f.encoding.length < 2 ^ 32

/-! ## Reading the file header -/

section

variable {h : CdrFileHeader} (hw : h.WellFormed) (rest : List UInt8)

/-- The header without its variable parts. -/
def CdrFileHeader.fixed (h : CdrFileHeader) : CdrFileHeader :=
  { h with
    cdrRouteingFilter := []
    lengthOfPrivateExtension := 0
    privateExtension := []
    highReleaseIdentifierExtension := 0
    lowReleaseIdentifierExtension := 0 }

include hw in
theorem decodeFixed_parts : decodeFixed (h.parts ++ [rest]).flatten = some h.fixed := by
  have hopening : slice (h.parts ++ [rest]).flatten 10 14 = some _ :=
    slice_flatten (i := 4) rfl (by simp [CdrFileHeader.parts]) (by simp)
  have happended : slice (h.parts ++ [rest]).flatten 14 18 = some _ :=
    slice_flatten (i := 5) rfl (by simp [CdrFileHeader.parts]) (by simp)
  have hnumber : slice (h.parts ++ [rest]).flatten 18 22 = some _ :=
    slice_flatten (i := 6) rfl (by simp [CdrFileHeader.parts]) (by simp)
  have hfilter : slice (h.parts ++ [rest]).flatten 48 50 = some _ :=
    slice_flatten (i := 11) rfl (by simp [CdrFileHeader.parts]) (by simp)
  have hip : slice (h.parts ++ [rest]).flatten 27 47 = some _ :=
    slice_flatten (i := 9) rfl (by simp [CdrFileHeader.parts]) (by simp)
  have hfileLength : slice (h.parts ++ [rest]).flatten 0 4 = some _ :=
    slice_flatten (i := 0) rfl (by simp) (by simp)
  have hheaderLength : slice (h.parts ++ [rest]).flatten 4 8 = some _ :=
    slice_flatten (i := 1) rfl (by simp [CdrFileHeader.parts]) (by simp)
  have hhigh : (h.parts ++ [rest]).flatten[8]? = some _ :=
    getElem?_flatten_parts (i := 2) rfl (by simp [CdrFileHeader.parts])
  have hlow : (h.parts ++ [rest]).flatten[9]? = some _ :=
    getElem?_flatten_parts (i := 3) rfl (by simp [CdrFileHeader.parts])
  have hsequence : slice (h.parts ++ [rest]).flatten 22 26 = some _ :=
    slice_flatten (i := 7) rfl (by simp [CdrFileHeader.parts]) (by simp)
  have hreason : (h.parts ++ [rest]).flatten[26]? = some _ :=
    getElem?_flatten_parts (i := 8) rfl (by simp [CdrFileHeader.parts])
  have hlost : (h.parts ++ [rest]).flatten[47]? = some _ :=
    getElem?_flatten_parts (i := 10) rfl (by simp [CdrFileHeader.parts])
  unfold decodeFixed
  simp only [hopening, happended, hnumber, hfilter, hip, hfileLength, hheaderLength, hhigh, hlow,
    hsequence, hreason, hlost, Option.bind_eq_bind, Option.bind_some]
  rw [fields_shiftRight hw.highRelease hw.highVersion, fields_and hw.highRelease hw.highVersion,
    fields_shiftRight hw.lowRelease hw.lowVersion, fields_and hw.lowRelease hw.lowVersion,
    uint32_beBytes, uint32_beBytes, uint32_beBytes, uint32_beBytes, uint32_beBytes, uint32_beBytes,
    uint16_beBytes, unpack_pack hw.opening, unpack_pack hw.appended, toIp_toList]
  rfl

theorem length_extension (release ext : UInt8) :
    (extension release ext).length = (extensionLength release).toNat := by
  unfold extension extensionLength
  split_ifs <;> rfl

theorem extensionLength_le (release : UInt8) : (extensionLength release).toNat ≤ 1 := by
  unfold extensionLength
  split_ifs <;> decide

theorem length_encoding (h : CdrFileHeader) :
    h.encoding.length =
      52 + h.cdrRouteingFilter.length + h.privateExtension.length +
        (extensionLength h.highReleaseIdentifier).toNat +
        (extensionLength h.lowReleaseIdentifier).toNat := by
  unfold CdrFileHeader.encoding
  simp [CdrFileHeader.parts, length_extension]
  omega

/-- The position where the header says that its variable parts end. -/
def CdrFileHeader.variableEnd (h : CdrFileHeader) : Nat :=
  52 + h.cdrRouteingFilter.length + h.privateExtension.length

include hw in
/-- Where the offsets fit 16 bits all is read as written but the extension of the low release
    identifier. -/
theorem decodeHeader_parts (hfit : h.variableEnd ≤ 65535) :
    decodeHeader (h.parts ++ [rest]).flatten =
      (readExtension (h.parts ++ [rest]).flatten h.lowReleaseIdentifier
        ((h.variableEnd + 1) % 65536)).map fun ext =>
          ({ h with lowReleaseIdentifierExtension := ext }, UInt32.ofNat h.encoding.length) := by
  unfold CdrFileHeader.variableEnd at hfit ⊢
  have hxy : (50 + h.lengthOfCdrRouteingFilter).toNat = 50 + h.cdrRouteingFilter.length := by
    rw [UInt16.toNat_add, hw.filter]
    show (50 + _) % 65536 = _
    omega
  have hxy2 : (50 + h.lengthOfCdrRouteingFilter + 2).toNat = 52 + h.cdrRouteingFilter.length := by
    rw [UInt16.toNat_add, hxy]
    show (_ + 2) % 65536 = _
    omega
  have hn : (50 + h.lengthOfCdrRouteingFilter + 2 + h.lengthOfPrivateExtension).toNat =
      52 + h.cdrRouteingFilter.length + h.privateExtension.length := by
    rw [UInt16.toNat_add, hxy2, hw.privateExtension]
    omega
  have hn1 : (50 + h.lengthOfCdrRouteingFilter + 2 + h.lengthOfPrivateExtension + 1).toNat =
      (52 + h.cdrRouteingFilter.length + h.privateExtension.length + 1) % 65536 := by
    rw [UInt16.toNat_add, hn]
    rfl
  have hlength : slice (h.parts ++ [rest]).flatten (50 + h.cdrRouteingFilter.length)
      (52 + h.cdrRouteingFilter.length) = some _ :=
    slice_flatten (i := 13) rfl (by simp [CdrFileHeader.parts]; omega) (by simp; omega)
  have hfilter : slice (h.parts ++ [rest]).flatten 50 (50 + h.cdrRouteingFilter.length) = some _ :=
    slice_flatten (i := 12) rfl (by simp [CdrFileHeader.parts]) rfl
  have hprivate : slice (h.parts ++ [rest]).flatten (52 + h.cdrRouteingFilter.length)
      (52 + h.cdrRouteingFilter.length + h.privateExtension.length) = some _ :=
    slice_flatten (i := 14) rfl (by simp [CdrFileHeader.parts]; omega) rfl
  have hhigh : readExtension (h.parts ++ [rest]).flatten h.highReleaseIdentifier
      (52 + h.cdrRouteingFilter.length + h.privateExtension.length) =
        some h.highReleaseIdentifierExtension := by
    unfold readExtension
    split_ifs with h7
    · refine getElem?_flatten_parts (i := 15) ?_ (by simp [CdrFileHeader.parts]; omega)
      show some (extension _ _) = _
      rw [extension, if_pos h7]
    · rw [hw.highExtension h7]
  have htail : (50 + h.lengthOfCdrRouteingFilter + 2 + h.lengthOfPrivateExtension).toUInt32 +
      extensionLength h.highReleaseIdentifier + extensionLength h.lowReleaseIdentifier =
        UInt32.ofNat h.encoding.length := by
    have hhi := extensionLength_le h.highReleaseIdentifier
    have hlo := extensionLength_le h.lowReleaseIdentifier
    apply UInt32.toNat_inj.mp
    rw [UInt32.toNat_add, UInt32.toNat_add, UInt16.toNat_toUInt32, hn, length_encoding,
      UInt32.toNat_ofNat']
    omega
  unfold decodeHeader
  rw [decodeFixed_parts hw rest]
  simp only [Option.bind_eq_bind, Option.bind_some, CdrFileHeader.fixed, hxy, hxy2, hlength,
    uint16_beBytes, hn, hn1, hfilter, hprivate, hhigh, htail]
  cases readExtension (h.parts ++ [rest]).flatten h.lowReleaseIdentifier
    ((52 + h.cdrRouteingFilter.length + h.privateExtension.length + 1) % 65536) <;> rfl

include hw in
/-- Where they do not, a slice has its bounds the wrong way round. -/
theorem decodeHeader_overflow (hfit : 65535 < h.variableEnd) :
    decodeHeader (h.parts ++ [rest]).flatten = none := by
  unfold CdrFileHeader.variableEnd at hfit
  have hf := h.lengthOfCdrRouteingFilter.toNat_lt
  have hp := h.lengthOfPrivateExtension.toNat_lt
  rw [hw.filter] at hf
  rw [hw.privateExtension] at hp
  have hxy : (50 + h.lengthOfCdrRouteingFilter).toNat =
      (50 + h.cdrRouteingFilter.length) % 65536 := by
    rw [UInt16.toNat_add, hw.filter]
    rfl
  have hxy2 : (50 + h.lengthOfCdrRouteingFilter + 2).toNat =
      (52 + h.cdrRouteingFilter.length) % 65536 := by
    rw [UInt16.toNat_add, hxy]
    show (_ + 2) % 65536 = _
    omega
  unfold decodeHeader
  rw [decodeFixed_parts hw rest]
  simp only [Option.bind_eq_bind, Option.bind_some, CdrFileHeader.fixed]
  by_cases h₁ : 65536 ≤ 50 + h.cdrRouteingFilter.length
  · have hfilter : slice (h.parts ++ [rest]).flatten 50 (50 + h.lengthOfCdrRouteingFilter).toNat =
        none := slice_eq_none (by omega)
    rw [hfilter]
    cases slice (h.parts ++ [rest]).flatten (50 + h.lengthOfCdrRouteingFilter).toNat
      (50 + h.lengthOfCdrRouteingFilter + 2).toNat <;> rfl
  · by_cases h₂ : 65536 ≤ 52 + h.cdrRouteingFilter.length
    · rw [@slice_eq_none (h.parts ++ [rest]).flatten (50 + h.lengthOfCdrRouteingFilter).toNat _
        (by omega)]
      rfl
    · have hlf := hw.filter
      have hlength : slice (h.parts ++ [rest]).flatten (50 + h.lengthOfCdrRouteingFilter).toNat
          (50 + h.lengthOfCdrRouteingFilter + 2).toNat = some _ :=
        slice_flatten (i := 13) rfl (by simp [CdrFileHeader.parts]; omega) (by simp; omega)
      have hn : (50 + h.lengthOfCdrRouteingFilter + 2 + h.lengthOfPrivateExtension).toNat =
          (52 + h.cdrRouteingFilter.length + h.privateExtension.length) % 65536 := by
        rw [UInt16.toNat_add, hxy2, hw.privateExtension]
        omega
      have hprivate : slice (h.parts ++ [rest]).flatten
          (50 + h.lengthOfCdrRouteingFilter + 2).toNat
          (50 + h.lengthOfCdrRouteingFilter + 2 + h.lengthOfPrivateExtension).toNat = none :=
        slice_eq_none (by omega)
      simp only [hlength, Option.bind_some, uint16_beBytes, hprivate]
      cases slice (h.parts ++ [rest]).flatten 50 (50 + h.lengthOfCdrRouteingFilter).toNat <;> rfl

end

/-! ## Reading the CDRs -/

/-- A file around one CDR, in parts. -/
def aroundCdr (pre : List UInt8) (c : CDR) (rest : List UInt8) : List (List UInt8) :=
  pre :: (c.hdr.parts ++ [c.cdrByte, rest])

theorem flatten_aroundCdr (pre : List UInt8) (c : CDR) (rest : List UInt8) :
    (aroundCdr pre c rest).flatten = pre ++ (c.encoding ++ rest) := by
  simp [aroundCdr, CDR.encoding, CdrHeader.encoding]

theorem length_cdr_encoding (c : CDR) :
    c.encoding.length =
      4 + (extensionLength c.hdr.releaseIdentifier).toNat + c.cdrByte.length := by
  simp [CDR.encoding, CdrHeader.encoding, CdrHeader.parts, length_extension]
  omega

theorem decodeCdr_encoding {pre : List UInt8} {c : CDR} {rest : List UInt8} (hc : c.WellFormed)
    (hsize : (pre ++ (c.encoding ++ rest)).length < 2 ^ 32) {tail : UInt32}
    (htail : tail.toNat = pre.length) :
    decodeCdr (pre ++ (c.encoding ++ rest)) tail =
      some (c, UInt32.ofNat (pre ++ c.encoding).length) := by
  have hext := extensionLength_le c.hdr.releaseIdentifier
  have hlen := length_cdr_encoding c
  rw [List.length_append, List.length_append] at hsize
  have hadd : ∀ k : UInt32, k.toNat ≤ 4 + (extensionLength c.hdr.releaseIdentifier).toNat →
      (tail + k).toNat = pre.length + k.toNat := by
    intro k hk
    rw [UInt32.toNat_add, htail]
    omega
  have hlength : slice (aroundCdr pre c rest).flatten pre.length (pre.length + 2) = some _ :=
    slice_flatten (i := 1) rfl (by simp [aroundCdr]) (by simp)
  have hoct3 : (aroundCdr pre c rest).flatten[pre.length + 2]? = some _ :=
    getElem?_flatten_parts (i := 2) rfl (by simp [aroundCdr, CdrHeader.parts])
  have hoct4 : (aroundCdr pre c rest).flatten[pre.length + 3]? = some _ :=
    getElem?_flatten_parts (i := 3) rfl (by simp [aroundCdr, CdrHeader.parts])
  have hread : readExtension (aroundCdr pre c rest).flatten c.hdr.releaseIdentifier
      (pre.length + 4) = some c.hdr.releaseIdentifierExtension := by
    unfold readExtension
    split_ifs with h7
    · refine getElem?_flatten_parts (i := 4) ?_ (by simp [aroundCdr, CdrHeader.parts])
      show some (extension _ _) = _
      rw [extension, if_pos h7]
    · rw [hc.extension h7]
  have hi : (4 + extensionLength c.hdr.releaseIdentifier).toNat =
      4 + (extensionLength c.hdr.releaseIdentifier).toNat := by
    rw [UInt32.toNat_add]
    show (4 + _) % 2 ^ 32 = _
    omega
  have hstart := hadd (4 + extensionLength c.hdr.releaseIdentifier) (by omega)
  have hend : (tail + (4 + extensionLength c.hdr.releaseIdentifier) +
      c.hdr.cdrLength.toUInt32).toNat = (pre ++ c.encoding).length := by
    rw [UInt32.toNat_add, hstart, hi, UInt16.toNat_toUInt32, hc.length, List.length_append, hlen]
    omega
  have hbytes : slice (aroundCdr pre c rest).flatten
      (pre.length + (4 + (extensionLength c.hdr.releaseIdentifier).toNat))
      (pre ++ c.encoding).length = some _ :=
    slice_flatten (i := 5) rfl (by simp [aroundCdr, CdrHeader.parts, length_extension]; omega)
      (by rw [List.length_append, hlen]; omega)
  have h2 : (tail + 2).toNat = pre.length + 2 := hadd 2 (by show 2 ≤ _; omega)
  have h3 : (tail + 3).toNat = pre.length + 3 := hadd 3 (by show 3 ≤ _; omega)
  have h4 : (tail + 4).toNat = pre.length + 4 := hadd 4 (by show 4 ≤ _; omega)
  rw [← flatten_aroundCdr]
  unfold decodeCdr
  simp only [Option.bind_eq_bind, Option.bind_some, htail, h2, h3, h4, hlength, hoct3, hoct4,
    uint16_beBytes, fields_shiftRight hc.release hc.version, fields_and hc.release hc.version,
    fields_shiftRight hc.format hc.tsNumber, fields_and hc.format hc.tsNumber, hread, hstart, hi,
    hend, hbytes]
  rw [← hend, UInt32.ofNat_toNat]

theorem decodeCdrs_encoding (cs : List CDR) {pre : List UInt8} (hcs : ∀ c ∈ cs, c.WellFormed)
    (hsize : (pre ++ (cs.map CDR.encoding).flatten).length < 2 ^ 32) {tail : UInt32}
    (htail : tail.toNat = pre.length) :
    decodeCdrs (pre ++ (cs.map CDR.encoding).flatten) cs.length tail = some cs := by
  induction cs generalizing pre tail with
  | nil => rfl
  | cons c cs ih =>
    rw [List.map_cons, List.flatten_cons] at hsize ⊢
    have hone := decodeCdr_encoding (hcs c List.mem_cons_self) hsize htail
    rw [← List.append_assoc] at hsize
    have hpre : (UInt32.ofNat (pre ++ c.encoding).length).toNat = (pre ++ c.encoding).length := by
      rw [UInt32.toNat_ofNat']
      rw [List.length_append] at hsize
      exact Nat.mod_eq_of_lt (by omega)
    have hrest := ih (fun c' hc' => hcs c' (List.mem_cons_of_mem c hc')) hsize hpre
    rw [List.append_assoc] at hrest
    rw [List.length_cons, decodeCdrs]
    simp only [Option.bind_eq_bind, hone, Option.bind_some, hrest]

/-! ## Files that are read back -/

/-- The byte that is read for the extension of the low release identifier: the extension itself
    when the high release identifier has one too, the first byte of the length of the first CDR
    otherwise; at the end of the range of 16 bits, the first byte of the file. -/
def CDRFile.LowExtensionReadable (f : CDRFile) : Prop :=
  if f.hdr.variableEnd = 65535 then
    f.hdr.lowReleaseIdentifierExtension = UInt8.ofNat (f.hdr.fileLength.toNat / 2 ^ 24)
  else
    f.hdr.highReleaseIdentifier = 7 ∨
      ∃ c cs, f.cdrList = c :: cs ∧
        f.hdr.lowReleaseIdentifierExtension = UInt8.ofNat (c.hdr.cdrLength.toNat / 2 ^ 8)

/-- The variable parts of the header end within 16 bits, and an extension of the low release
    identifier is where the reader looks for it. -/
structure CDRFile.Readable (f : CDRFile) : Prop where
  offsets : f.hdr.variableEnd ≤ 65535
  lowExtension : f.hdr.lowReleaseIdentifier = 7 → f.LowExtensionReadable

theorem encoding_eq_flatten (f : CDRFile) :
    f.encoding = (f.hdr.parts ++ [(f.cdrList.map CDR.encoding).flatten]).flatten := by
  unfold CDRFile.encoding CdrFileHeader.encoding
  rw [List.flatten_append, List.flatten_singleton]

/-- The byte behind a header that has an extension for the low release identifier only. -/
theorem getElem?_behind_header (h : f.hdr.encoding.length = f.hdr.variableEnd + 1) (b : UInt8) :
    f.encoding[f.hdr.variableEnd + 1]? = some b ↔
      ∃ c cs, f.cdrList = c :: cs ∧ b = UInt8.ofNat (c.hdr.cdrLength.toNat / 2 ^ 8) := by
  unfold CDRFile.encoding
  rw [← h, List.getElem?_append_right (Nat.le_refl _), Nat.sub_self]
  cases f.cdrList with
  | nil => simp
  | cons c cs =>
    have hfirst : ((c :: cs).map CDR.encoding).flatten[0]? =
        some (UInt8.ofNat (c.hdr.cdrLength.toNat / 2 ^ 8)) := rfl
    rw [hfirst, Option.some.injEq]
    constructor
    · rintro rfl
      exact ⟨c, cs, rfl, rfl⟩
    · rintro ⟨c', cs', hcons, rfl⟩
      rw [(List.cons.inj hcons).1]

theorem lowExtension_read_iff (hw : f.hdr.WellFormed) (hfit : f.hdr.variableEnd ≤ 65535) :
    readExtension f.encoding f.hdr.lowReleaseIdentifier ((f.hdr.variableEnd + 1) % 65536) =
        some f.hdr.lowReleaseIdentifierExtension ↔
      (f.hdr.lowReleaseIdentifier = 7 → f.LowExtensionReadable) := by
  unfold readExtension
  by_cases h7 : f.hdr.lowReleaseIdentifier = 7
  · rw [if_pos h7, forall_prop_of_true h7]
    unfold CDRFile.LowExtensionReadable
    by_cases hend : f.hdr.variableEnd = 65535
    · have hfirst : f.encoding[0]? = some (UInt8.ofNat (f.hdr.fileLength.toNat / 2 ^ 24)) := rfl
      rw [if_pos hend, hend]
      show f.encoding[0]? = _ ↔ _
      rw [hfirst, Option.some.injEq]
      exact eq_comm
    · rw [if_neg hend, Nat.mod_eq_of_lt (by omega)]
      by_cases hhigh : f.hdr.highReleaseIdentifier = 7
      · refine iff_of_true ?_ (Or.inl hhigh)
        rw [encoding_eq_flatten]
        refine getElem?_flatten_parts (i := 16) ?_ ?_
        · show some (extension _ _) = _
          rw [extension, if_pos h7]
        · unfold CdrFileHeader.variableEnd
          simp [CdrFileHeader.parts, extension, hhigh]
          omega
      · rw [or_iff_right hhigh]
        apply getElem?_behind_header
        rw [length_encoding, extensionLength, extensionLength, if_neg hhigh, if_pos h7]
        rfl
  · rw [if_neg h7, hw.lowExtension h7]
    exact iff_of_true rfl fun h => absurd h h7

/-- Where the offsets fit, a file is read back when its last header byte is. -/
theorem decoding_iff_readExtension (hw : f.WellFormed) (hfit : f.hdr.variableEnd ≤ 65535) :
    decoding f.encoding = some f ↔
      readExtension f.encoding f.hdr.lowReleaseIdentifier ((f.hdr.variableEnd + 1) % 65536) =
        some f.hdr.lowReleaseIdentifierExtension := by
  have hsize := hw.size
  have hcdrs : ∀ tail : UInt32, tail.toNat = f.hdr.encoding.length →
      decodeCdrs f.encoding f.hdr.numberOfCdrsInFile.toNat tail = some f.cdrList := by
    intro tail htail
    rw [hw.number]
    exact decodeCdrs_encoding f.cdrList hw.cdrs hsize htail
  have hhdr := decodeHeader_parts hw.hdr ((f.cdrList.map CDR.encoding).flatten) hfit
  rw [← encoding_eq_flatten] at hhdr
  have htail : (UInt32.ofNat f.hdr.encoding.length).toNat = f.hdr.encoding.length := by
    rw [CDRFile.encoding, List.length_append] at hsize
    rw [UInt32.toNat_ofNat']
    exact Nat.mod_eq_of_lt (by omega)
  unfold decoding
  rw [hhdr]
  cases readExtension f.encoding f.hdr.lowReleaseIdentifier
      ((f.hdr.variableEnd + 1) % 65536) with
  | none => exact iff_of_false (by rintro ⟨⟩) (by rintro ⟨⟩)
  | some ext =>
    simp only [Option.map_some, Option.bind_eq_bind, Option.bind_some, hcdrs _ htail]
    constructor
    · intro h
      rw [← Option.some.inj h]
    · intro h
      cases h
      rfl

/-- CDR files round-trip exactly when they are readable. -/
theorem decoding_encoding_iff {f : CDRFile} (hw : f.WellFormed) :
    decoding f.encoding = some f ↔ f.Readable := by
  by_cases hfit : f.hdr.variableEnd ≤ 65535
  · rw [decoding_iff_readExtension hw hfit, lowExtension_read_iff hw.hdr hfit]
    exact ⟨fun h => ⟨hfit, h⟩, fun h => h.lowExtension⟩
  · have hnone := decodeHeader_overflow hw.hdr ((f.cdrList.map CDR.encoding).flatten) (by omega)
    rw [← encoding_eq_flatten] at hnone
    refine iff_of_false ?_ fun h => hfit h.offsets
    unfold decoding
    rw [hnone]
    rintro ⟨⟩

/-- A file with extensions of both release identifiers and one CDR. -/
def bothExtensions : CDRFile where
  hdr :=
    { fileLength := 71
      headerLength := 63
      highReleaseIdentifier := 7
      highVersionIdentifier := 4
      lowReleaseIdentifier := 7
      lowVersionIdentifier := 5
      fileOpeningTimestamp := ⟨4, 28, 17, 18, 1, 8, 0⟩
      timestampWhenLastCdrWasAppendedToFIle := ⟨1, 2, 3, 4, 1, 6, 30⟩
      numberOfCdrsInFile := 1
      fileSequenceNumber := 11
      fileClosureTriggerReason := 4
      ipAddressOfNodeThatGeneratedFile := Vector.replicate 20 10
      lostCdrIndicator := 4
      lengthOfCdrRouteingFilter := 4
      cdrRouteingFilter := [97, 98, 99, 100]
      lengthOfPrivateExtension := 5
      privateExtension := [102, 103, 104, 106, 107]
      highReleaseIdentifierExtension := 2
      lowReleaseIdentifierExtension := 3 }
  cdrList := [⟨⟨3, 7, 3, 2, 19, 4⟩, [97, 98, 99]⟩]

/-- A file with an extension of the low release identifier only, and no CDRs. -/
def lowExtensionOnly : CDRFile where
  hdr :=
    { bothExtensions.hdr with
      fileLength := 53
      headerLength := 53
      highReleaseIdentifier := 6
      numberOfCdrsInFile := 0
      lengthOfCdrRouteingFilter := 0
      cdrRouteingFilter := []
      lengthOfPrivateExtension := 0
      privateExtension := []
      highReleaseIdentifierExtension := 0 }
  cdrList := []

theorem decoding_bothExtensions : decoding bothExtensions.encoding = some bothExtensions := by
  refine (decoding_encoding_iff ⟨?_, ?_, by decide, by decide⟩).mpr ⟨by decide, fun _ => ?_⟩
  · exact ⟨by decide, by decide, by decide, by decide,
      ⟨by decide, by decide, by decide, by decide, by decide, by decide, by decide⟩,
      ⟨by decide, by decide, by decide, by decide, by decide, by decide, by decide⟩,
      by decide, by decide, by decide, by decide⟩
  · rintro c hc
    rw [List.mem_singleton.mp hc]
    exact ⟨by decide, by decide, by decide, by decide, by decide, by decide⟩
  · exact Or.inl rfl

/-- The reader looks for the extension behind the end of the file and panics. -/
theorem lowExtensionOnly_not_read :
    lowExtensionOnly.WellFormed ∧ decoding lowExtensionOnly.encoding = none := by
  refine ⟨⟨?_, fun _ hc => absurd hc List.not_mem_nil, by decide, by decide⟩, by decide⟩
  exact ⟨by decide, by decide, by decide, by decide,
    ⟨by decide, by decide, by decide, by decide, by decide, by decide, by decide⟩,
    ⟨by decide, by decide, by decide, by decide, by decide, by decide, by decide⟩,
    by decide, by decide, by decide, by decide⟩

end Free5gc.Chf.Cdr
