/-
  GTP-U messages (`gtpv1/msg.go`) and the G-PDU that carries a buffered packet
  (`WritePacket` of `forwarder/gtp5g.go`).

  `Message.encode` writes into a buffer of `Message.len` zeros; the fields before the
  extension headers end at an octet 4k+3, where the type of the first extension header, or 0,
  is written. `encode_eq_wire` says what the buffer holds afterwards, for every message.

  The meaning of the bytes is `decode`, written from the layouts of the GTPv1-U header
  (TS 29.281) and of the PDU Session Container (TS 38.415), not from this code.
-/
import Free5gc.Lib.Bytes

namespace Free5gc.Upf.Gtpv1

open Free5gc.Lib

/-! ## Messages -/

/-- `MsgTypeTPDU`. -/
def msgTypeTPDU : UInt8 := 255

structure PDUSessionContainer where
  pduType : UInt8
  qoSFlowID : UInt8
  deriving DecidableEq, Repr

namespace PDUSessionContainer

def len (_ : PDUSessionContainer) : Nat := 4

/-- The four bytes that `PDUSessionContainer.Encode` assigns. -/
def bytes (e : PDUSessionContainer) : List UInt8 :=
  [0x85, 1, e.pduType <<< 4, e.qoSFlowID &&& 0xf]

end PDUSessionContainer

/-- `Message`. The only `Encoder` of the package is the PDU Session Container. -/
structure Message where
  flags : UInt8
  type : UInt8
  teid : UInt32
  sequenceNumber : UInt16
  npduNumber : UInt8
  exts : List PDUSessionContainer
  payload : List UInt8
  deriving DecidableEq, Repr

namespace Message

def hasSequence (m : Message) : Bool := m.flags &&& 0x2 ≠ 0

def hasNPDUNumber (m : Message) : Bool := m.flags &&& 0x1 ≠ 0

/-- `((l + 4) &^ 0x3) - 1`: the next octet 4k+3. -/
def align (l : Nat) : Nat := (l + 4) / 4 * 4 - 1

def len (m : Message) : Nat :=
  let l := 8
  let l := if m.hasSequence then l + 2 else l
  let l := if m.hasNPDUNumber then l + 1 else l
  let l := align l
  let l := m.exts.foldl (fun l e => l + e.len) l
  l + 1 + m.payload.length

/-- A buffer and the position of the next write. -/
abbrev Cursor := List UInt8 × Nat

/-- Write at the position and move it past what was written. -/
def put (bs : List UInt8) (c : Cursor) : Option Cursor := do
  let b ← writeAt c.1 c.2 bs
  return (b, c.2 + bs.length)

/-- The write of an optional field. -/
def putIf (present : Bool) (bs : List UInt8) (c : Cursor) : Option Cursor :=
  if present then put bs c else some c

/-- The fields that every message has; `l` is the number in the length field. -/
def putHeader (m : Message) (l : Nat) (c : Cursor) : Option Cursor := do
  let c ← put [m.flags] c
  let c ← put [m.type] c
  let c ← put (beBytes 2 l) c
  put (beBytes 4 m.teid.toNat) c

/-- `Message.Encode` into the buffer `b`: the buffer and the number of bytes returned;
    `none` where a write is out of range. -/
def encode (m : Message) (b : List UInt8) : Option (List UInt8 × Nat) := do
  let c ← m.putHeader (m.len - 8) (b, 0)
  let c ← putIf m.hasSequence (beBytes 2 m.sequenceNumber.toNat) c
  let c ← putIf m.hasNPDUNumber [m.npduNumber] c
  let c ← m.exts.foldlM (fun c e => put e.bytes c) (c.1, align c.2)
  let c ← put [0] c
  let b ← writeAt c.1 c.2 (m.payload.take (c.1.length - c.2))
  return (b, m.len)

end Message

/-! ## WritePacket -/

/-- `gtp5gnl.HeaderCreation`: the tunnel of a FAR. -/
structure HeaderCreation where
  teid : UInt32
  peerAddr : List UInt8
  port : UInt16
  deriving DecidableEq, Repr

/-- The part of a `gtp5gnl.FAR` that is read: `Param` and its `Creation` may be missing. -/
structure FAR where
  param : Option (Option HeaderCreation)
  deriving DecidableEq, Repr

/-- The part of a `gtp5gnl.QER` that is read. -/
structure QER where
  qfi : UInt8
  deriving DecidableEq, Repr

/-- The message that `WritePacket` builds. -/
def packetMessage (hc : HeaderCreation) (qer : Option QER) (pkt : List UInt8) : Message where
  flags := 0x34
  type := msgTypeTPDU
  teid := hc.teid
  sequenceNumber := 0
  npduNumber := 0
  exts := match qer with
    | none => []
    | some q => [⟨0, q.qfi⟩]
  payload := pkt

/-- A UDP datagram handed to the link. -/
structure Datagram where
  ip : List UInt8
  port : UInt16
  bytes : List UInt8
  deriving DecidableEq, Repr

inductive WriteErr where
  /-- "far param not found" -/
  | farParamNotFound
  deriving DecidableEq, Repr

/-- `WritePacket` up to the write to the link; `none` where `Encode` would panic. -/
def writePacket (far : FAR) (qer : Option QER) (pkt : List UInt8) :
    Option (Except WriteErr Datagram) :=
  match far.param with
  | some (some hc) => do
    let msg := packetMessage hc qer pkt
    let (b, _) ← msg.encode (List.replicate msg.len 0)
    return .ok ⟨hc.peerAddr, hc.port, b⟩
  | _ => some (.error .farParamNotFound)

/-! ## The layout of a G-PDU -/

/-- What a GTPv1-U message says: its type, its TEID, the QFI of its PDU Session Container
    and its payload. -/
structure GPDU where
  type : UInt8
  teid : Nat
  qfi : Option Nat
  payload : List UInt8
  deriving DecidableEq, Repr

/-- The QFI of a PDU Session Container: the last six bits of its second octet. -/
def containerQFI (content : List UInt8) : Option Nat :=
  content[1]?.map fun o => o.toNat % 64

/-- The extension headers, `type` the type of the next: the QFI of the first PDU Session
    Container among them, and what follows. An extension header is its length in units of
    four octets, its content and the type of the next; type 0 ends them. -/
def decodeExts : Nat → UInt8 → List UInt8 → Option (Option Nat × List UInt8)
  | 0, type, bs => if type = 0 then some (none, bs) else none
  | fuel + 1, type, bs =>
    if type = 0 then some (none, bs)
    else do
      let n ← bs.head?
      let next ← bs[4 * n.toNat - 1]?
      let (qfi, payload) ← decodeExts fuel next (bs.drop (4 * n.toNat))
      if n = 0 then none
      else if type = 0x85 then return ((containerQFI (bs.drop 1)).or qfi, payload)
      else return (qfi, payload)

/-- What follows the TEID. With any of the flags E, S and PN set, the payload is preceded by
    a sequence number, an N-PDU number and the type of the first extension header; the last
    is meaningful with E only. -/
def decodeBody (flags type : UInt8) (teid : Nat) (bs : List UInt8) : Option GPDU :=
  if flags.toNat % 8 = 0 then some ⟨type, teid, none, bs⟩
  else
    match bs with
    | _ :: _ :: _ :: next :: rest =>
      if flags &&& 0x4 = 0 then some ⟨type, teid, none, rest⟩
      else (decodeExts rest.length next rest).map fun p => ⟨type, teid, p.1, p.2⟩
    | _ => none

/-- A message of version 1 and protocol type GTP whose length field is right. -/
def decode : List UInt8 → Option GPDU
  | flags :: type :: l0 :: l1 :: t0 :: t1 :: t2 :: t3 :: bs =>
    if flags.toNat / 16 = 3 ∧ beNat [l0, l1] = bs.length then
      decodeBody flags type (beNat [t0, t1, t2, t3]) bs
    else none
  | _ => none

/-! ## What is written -/

namespace Message

def header (m : Message) (l : Nat) : List UInt8 :=
  [m.flags] ++ [m.type] ++ beBytes 2 l ++ beBytes 4 m.teid.toNat

def sequence (m : Message) : List UInt8 :=
  if m.hasSequence then beBytes 2 m.sequenceNumber.toNat else []

def npdu (m : Message) : List UInt8 := if m.hasNPDUNumber then [m.npduNumber] else []

/-- Zeros up to the next octet 4k+3. -/
def padded (w : List UInt8) : List UInt8 := w ++ List.replicate (align w.length - w.length) 0

/-- The bytes up to the payload. -/
def front (m : Message) : List UInt8 :=
  padded (m.header (m.len - 8) ++ m.sequence ++ m.npdu) ++ m.exts.flatMap PDUSessionContainer.bytes ++ [0]

def wire (m : Message) : List UInt8 := m.front ++ m.payload

variable {n : Nat} {w bs : List UInt8}

theorem le_align (l : Nat) : l ≤ align l := by
  unfold align
  omega

@[simp] theorem length_padded (w : List UInt8) : (padded w).length = align w.length := by
  have h := le_align w.length
  rw [padded, List.length_append, List.length_replicate]
  omega

theorem length_header (m : Message) (l : Nat) : (m.header l).length = 8 := by
  unfold header
  rw [List.length_append, List.length_append, length_beBytes, length_beBytes]
  rfl

theorem length_sequence (m : Message) : m.sequence.length = if m.hasSequence then 2 else 0 := by
  unfold sequence
  split_ifs with h
  · exact length_beBytes 2 _
  · rfl

theorem length_npdu (m : Message) : m.npdu.length = if m.hasNPDUNumber then 1 else 0 := by
  unfold npdu
  split_ifs with h
  · rfl
  · rfl

theorem foldl_len (exts : List PDUSessionContainer) (l : Nat) :
    exts.foldl (fun l e => l + e.len) l =
      l + (exts.flatMap PDUSessionContainer.bytes).length := by
  induction exts generalizing l with
  | nil => rfl
  | cons e exts ih =>
    rw [List.foldl_cons, ih, List.flatMap_cons, List.length_append, Nat.add_assoc]
    rfl

/-- `Len` is the length of the message, whatever its flags and extension headers are. -/
theorem length_wire (m : Message) : m.wire.length = m.len := by
  have hfront : m.front.length = align (8 + m.sequence.length + m.npdu.length) +
      (m.exts.flatMap PDUSessionContainer.bytes).length + 1 := by
    unfold front
    rw [List.length_append, List.length_append, length_padded, List.length_append,
      List.length_append, length_header]
    rfl
  unfold wire len
  dsimp only
  rw [List.length_append, hfront, foldl_len, length_sequence, length_npdu]
  cases m.hasSequence with
  | false =>
    cases m.hasNPDUNumber with
    | false => rfl
    | true => rfl
  | true =>
    cases m.hasNPDUNumber with
    | false => rfl
    | true => rfl

/-- A buffer of `n` bytes of which the first are `w` and the others still zero, at the end
    of `w`. -/
def written (n : Nat) (w : List UInt8) : Cursor :=
  (w ++ List.replicate (n - w.length) 0, w.length)

theorem put_written (h : (w ++ bs).length ≤ n) :
    put bs (written n w) = some (written n (w ++ bs)) := by
  rw [List.length_append] at h
  unfold put written
  rw [writeAt_zeros w bs rfl (by omega), Nat.sub_sub, ← List.length_append]
  rfl

theorem align_written (h : (padded w).length ≤ n) :
    ((written n w).1, align (written n w).2) = written n (padded w) := by
  have hle := le_align w.length
  rw [length_padded] at h
  have hsplit : n - w.length = (align w.length - w.length) + (n - align w.length) := by omega
  unfold written
  rw [length_padded, padded, hsplit, List.replicate_add, List.append_assoc]

theorem putIf_written {p : Bool} (h : (w ++ if p then bs else []).length ≤ n) :
    putIf p bs (written n w) = some (written n (w ++ if p then bs else [])) := by
  unfold putIf
  cases p with
  | false =>
    rw [if_neg Bool.false_ne_true, if_neg Bool.false_ne_true, List.append_nil]
  | true => exact put_written h

theorem foldlM_put_written (exts : List PDUSessionContainer) (w : List UInt8)
    (h : (w ++ exts.flatMap PDUSessionContainer.bytes).length ≤ n) :
    exts.foldlM (fun c e => put e.bytes c) (written n w) =
      some (written n (w ++ exts.flatMap PDUSessionContainer.bytes)) := by
  induction exts generalizing w with
  | nil =>
    rw [List.flatMap_nil, List.append_nil]
    rfl
  | cons e exts ih =>
    rw [List.flatMap_cons, ← List.append_assoc] at h ⊢
    have hle : (w ++ e.bytes).length ≤ n := by
      rw [List.length_append] at h
      omega
    rw [List.foldlM_cons, put_written hle]
    exact ih (w ++ e.bytes) h

theorem length_le_of_append (h : (w ++ bs).length ≤ n) : w.length ≤ n := by
  rw [List.length_append] at h
  omega

theorem length_le_of_padded (h : (padded w).length ≤ n) : w.length ≤ n := by
  rw [length_padded] at h
  exact Nat.le_trans (le_align w.length) h

theorem putExts_written (exts : List PDUSessionContainer)
    (h : (padded w ++ exts.flatMap PDUSessionContainer.bytes).length ≤ n) :
    exts.foldlM (fun c e => put e.bytes c) ((written n w).1, align (written n w).2) =
      some (written n (padded w ++ exts.flatMap PDUSessionContainer.bytes)) := by
  rw [align_written (length_le_of_append h)]
  exact foldlM_put_written exts (padded w) h

theorem putHeader_written (m : Message) (l : Nat) (h : (m.header l).length ≤ n) :
    m.putHeader l (written n []) = some (written n (m.header l)) := by
  unfold header at h
  have hlength := length_le_of_append h
  have htype := length_le_of_append hlength
  have hflags := length_le_of_append htype
  unfold putHeader
  refine Option.bind_eq_some_iff.mpr ⟨_, put_written hflags, ?_⟩
  refine Option.bind_eq_some_iff.mpr ⟨_, put_written htype, ?_⟩
  refine Option.bind_eq_some_iff.mpr ⟨_, put_written hlength, ?_⟩
  exact put_written h

theorem written_nil (n : Nat) : written n [] = (List.replicate n 0, 0) := rfl

theorem writeAt_written (h : w.length + bs.length = n) :
    writeAt (written n w).1 (written n w).2
      (bs.take ((written n w).1.length - (written n w).2)) = some (w ++ bs) := by
  have hbs : bs.length ≤ n - w.length := by omega
  have hroom : n - w.length - bs.length = 0 := by omega
  unfold written
  rw [List.length_append, List.length_replicate, Nat.add_sub_cancel_left,
    List.take_of_length_le hbs, writeAt_zeros w bs rfl hbs, hroom, List.replicate_zero,
    List.append_nil]

/-- `Encode` into a buffer of `Len` bytes writes the message, and returns `Len`. -/
theorem encode_eq_wire (m : Message) :
    m.encode (List.replicate m.len 0) = some (m.wire, m.len) := by
  -- every part of the message fits, since the whole does
  have hwire := m.length_wire
  unfold wire at hwire ⊢
  have hfront := length_le_of_append (Nat.le_of_eq hwire)
  rw [List.length_append] at hwire
  unfold front at hfront hwire ⊢
  have hexts := length_le_of_append hfront
  have hpadded := length_le_of_append hexts
  have hnpdu := length_le_of_padded hpadded
  have hseq := length_le_of_append hnpdu
  have hheader := length_le_of_append hseq
  unfold encode
  rw [← written_nil]
  generalize m.len = n at *
  refine Option.bind_eq_some_iff.mpr ⟨_, m.putHeader_written _ hheader, ?_⟩
  refine Option.bind_eq_some_iff.mpr ⟨_, putIf_written hseq, ?_⟩
  refine Option.bind_eq_some_iff.mpr ⟨_, putIf_written hnpdu, ?_⟩
  refine Option.bind_eq_some_iff.mpr ⟨_, putExts_written m.exts hexts, ?_⟩
  refine Option.bind_eq_some_iff.mpr ⟨_, put_written hfront, ?_⟩
  refine Option.bind_eq_some_iff.mpr ⟨_, writeAt_written hwire, rfl⟩

end Message

/-! ## What the bytes of a packet say -/

/-- The bytes of the extension headers of a packet, from the type of the first on. -/
def qerBytes : Option QER → List UInt8
  | none => [0]
  | some q => [0x85, 1, 0, q.qfi &&& 0xf, 0]

theorem packetMessage_wire (hc : HeaderCreation) (qer : Option QER) (pkt : List UInt8) :
    (packetMessage hc qer pkt).wire = 0x34 :: 255 ::
      (beBytes 2 ((packetMessage hc qer pkt).len - 8) ++
        (beBytes 4 hc.teid.toNat ++ 0 :: 0 :: 0 :: (qerBytes qer ++ pkt))) := by
  have hseq : (packetMessage hc qer pkt).sequence = [] :=
    if_neg (by decide : ¬ decide ((0x34 : UInt8) &&& 0x2 ≠ 0) = true)
  have hnpdu : (packetMessage hc qer pkt).npdu = [] :=
    if_neg (by decide : ¬ decide ((0x34 : UInt8) &&& 0x1 ≠ 0) = true)
  have hexts : (packetMessage hc qer pkt).exts.flatMap PDUSessionContainer.bytes ++ [0] =
      qerBytes qer := by
    cases qer with
    | none => rfl
    | some q => rfl
  unfold Message.wire Message.front
  rw [hseq, hnpdu, List.append_assoc _ _ [0], hexts, List.append_nil, List.append_nil,
    Message.padded, Message.length_header]
  rfl

theorem packetMessage_len (hc : HeaderCreation) (qer : Option QER) (pkt : List UInt8) :
    (packetMessage hc qer pkt).len = 11 + (qerBytes qer ++ pkt).length := by
  rw [← Message.length_wire, packetMessage_wire]
  simp
  omega

theorem decodeExts_zero (fuel : Nat) (bs : List UInt8) :
    decodeExts fuel 0 bs = some (none, bs) := by
  cases fuel with
  | zero => rfl
  | succ fuel => rfl

theorem decodeExts_container (fuel : Nat) (pduType qfi : UInt8) (pkt : List UInt8) :
    decodeExts (fuel + 1) 0x85 (1 :: pduType :: qfi :: 0 :: pkt) =
      some (some (qfi.toNat % 64), pkt) := by
  unfold decodeExts
  rw [if_neg (by decide)]
  change (decodeExts fuel 0 pkt).bind _ = _
  rw [decodeExts_zero]
  rfl

/-- The header is read as what was written; the rest is left to the extension headers. -/
theorem decode_header {l teid : Nat} (next : UInt8) {rest : List UInt8}
    (hl : l = rest.length + 4) (hl16 : l < 65536) (hteid : teid < 2 ^ 32) :
    decode (0x34 :: 255 :: (beBytes 2 l ++ (beBytes 4 teid ++ 0 :: 0 :: 0 :: next :: rest))) =
      (decodeExts rest.length next rest).map fun p => ⟨255, teid, p.1, p.2⟩ := by
  have hlength : beNat (beBytes 2 l) = (0 :: 0 :: 0 :: next :: rest).length :=
    (beNat_beBytes_of_lt hl16).trans hl
  have hteid' : beNat (beBytes 4 teid) = teid := beNat_beBytes_of_lt hteid
  have hdecode : decode (0x34 :: 255 :: (beBytes 2 l ++ (beBytes 4 teid ++
      0 :: 0 :: 0 :: next :: rest))) =
      decodeBody 0x34 255 (beNat (beBytes 4 teid)) (0 :: 0 :: 0 :: next :: rest) :=
    if_pos ⟨rfl, hlength⟩
  rw [hdecode, hteid']
  unfold decodeBody
  rw [if_neg (by decide)]
  dsimp only
  rw [if_neg (by decide)]

theorem decode_packetMessage (hc : HeaderCreation) (qer : Option QER) (pkt : List UInt8)
    (hfit : (packetMessage hc qer pkt).len - 8 < 65536) :
    decode (packetMessage hc qer pkt).wire =
      some ⟨msgTypeTPDU, hc.teid.toNat, qer.map fun q => (q.qfi &&& 0xf).toNat % 64, pkt⟩ := by
  have hlen := packetMessage_len hc qer pkt
  have hteid := hc.teid.toNat_lt
  rw [packetMessage_wire]
  cases qer with
  | none =>
    have hl : (packetMessage hc none pkt).len - 8 = pkt.length + 4 := by
      rw [hlen, List.length_append]
      change 11 + (1 + pkt.length) - 8 = _
      omega
    have hdecode := decode_header 0 hl hfit hteid
    rw [decodeExts_zero] at hdecode
    exact hdecode
  | some q =>
    have hl : (packetMessage hc (some q) pkt).len - 8 =
        (1 :: 0 :: (q.qfi &&& 0xf) :: 0 :: pkt).length + 4 := by
      rw [hlen, List.length_append]
      change 11 + (5 + pkt.length) - 8 = pkt.length + 4 + 4
      omega
    have hdecode := decode_header 0x85 hl hfit hteid
    rw [List.length_cons, decodeExts_container] at hdecode
    exact hdecode

/-! ## Encapsulation -/

/-- The bytes have the length `Len`, a length field of `Len` without the first eight bytes,
    and are read as the type, the TEID, the QFI and the payload they were made of. -/
structure Faithful (hc : HeaderCreation) (qer : Option QER) (pkt bs : List UInt8) : Prop where
  length : bs.length = (packetMessage hc qer pkt).len
  lengthField : beNat ((bs.drop 2).take 2) = (packetMessage hc qer pkt).len - 8
  decoded : decode bs =
    some ⟨msgTypeTPDU, hc.teid.toNat, qer.map fun q => q.qfi.toNat, pkt⟩

theorem toNat_and_fifteen (q : UInt8) : (q &&& 0xf).toNat = q.toNat % 16 := by
  rw [UInt8.toNat_and]
  exact Nat.and_two_pow_sub_one_eq_mod q.toNat 4

/-- For every packet that fits, whatever the QFI of six bits: the write goes through, and the
    bytes are faithful if and only if there is no QER or its QFI is below 16. -/
theorem writePacket_faithful_iff (hc : HeaderCreation) (qer : Option QER) (pkt : List UInt8)
    (hqfi : ∀ q ∈ qer, q.qfi.toNat < 64) (hfit : (packetMessage hc qer pkt).len - 8 < 65536) :
    ∃ bs, writePacket ⟨some (some hc)⟩ qer pkt = some (.ok ⟨hc.peerAddr, hc.port, bs⟩) ∧
      (Faithful hc qer pkt bs ↔ ∀ q ∈ qer, q.qfi.toNat < 16) := by
  refine ⟨(packetMessage hc qer pkt).wire, ?_, ?_⟩
  · unfold writePacket
    dsimp only
    rw [Message.encode_eq_wire]
    rfl
  have hdecode := decode_packetMessage hc qer pkt hfit
  constructor
  · rintro hfaithful q rfl
    have hsame := hdecode.symm.trans hfaithful.decoded
    rw [Option.some_inj, GPDU.mk.injEq] at hsame
    have hq : (q.qfi &&& 0xf).toNat % 64 = q.qfi.toNat := Option.some.inj hsame.2.2.1
    rw [toNat_and_fifteen] at hq
    omega
  · intro hsmall
    refine ⟨Message.length_wire _, ?_, ?_⟩
    · rw [packetMessage_wire]
      exact beNat_beBytes_of_lt (k := 2) hfit
    · rw [hdecode]
      cases qer with
      | none => rfl
      | some q =>
        have hq := hsmall q rfl
        rw [Option.map_some, Option.map_some, toNat_and_fifteen, Nat.mod_eq_of_lt hq,
          Nat.mod_eq_of_lt (by omega)]

/-- The message of the package's own test, with QFI 9. -/
theorem writePacket_faithful_nine :
    ∃ bs, writePacket ⟨some (some ⟨1, [10, 0, 0, 1], 2152⟩)⟩ (some ⟨9⟩) [0xde, 0xad] =
        some (.ok ⟨[10, 0, 0, 1], 2152, bs⟩) ∧
      Faithful ⟨1, [10, 0, 0, 1], 2152⟩ (some ⟨9⟩) [0xde, 0xad] bs := by
  obtain ⟨bs, hwrite, hiff⟩ := writePacket_faithful_iff ⟨1, [10, 0, 0, 1], 2152⟩ (some ⟨9⟩)
    [0xde, 0xad] (by decide) (by decide)
  exact ⟨bs, hwrite, hiff.mpr (by decide)⟩

/-- QFI 17 is written as QFI 1. -/
theorem writePacket_seventeen :
    let bs : List UInt8 :=
      [0x34, 0xff, 0, 10, 0, 0, 0, 1, 0, 0, 0, 0x85, 1, 0, 1, 0, 0xde, 0xad]
    writePacket ⟨some (some ⟨1, [10, 0, 0, 1], 2152⟩)⟩ (some ⟨17⟩) [0xde, 0xad] =
        some (.ok ⟨[10, 0, 0, 1], 2152, bs⟩) ∧
      decode bs = some ⟨msgTypeTPDU, 1, some 1, [0xde, 0xad]⟩ ∧
      ¬ Faithful ⟨1, [10, 0, 0, 1], 2152⟩ (some ⟨17⟩) [0xde, 0xad] bs := by
  intro bs
  have hdecode : decode bs = some ⟨msgTypeTPDU, 1, some 1, [0xde, 0xad]⟩ := by decide
  refine ⟨by decide, hdecode, fun h => ?_⟩
  have hsame := hdecode.symm.trans h.decoded
  exact absurd hsame (by decide)

end Free5gc.Upf.Gtpv1
