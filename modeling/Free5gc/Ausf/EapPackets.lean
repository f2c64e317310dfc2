/-
  AUSF: the EAP packet of a confirmation (`EapAuthComfirmRequestProcedure` and `decodeEapAkaPrime` in
  `internal/sbi/processor/ue_authentication.go`): which packets are read inside their bounds, and over
  which octets the MAC is checked.

  The attributes of a packet follow each other from its ninth octet on, each with its length in units
  of four octets in its second octet (`IsAttribute`). A packet that ends one octet behind an attribute
  is read past its end, and so is one of five octets. Every AT_MAC is overwritten with zeros, but the
  last one is compared: the octets that are zeroed are those of the MAC exactly if the other AT_MACs
  are zero in the packet already.

  The parser of the EAP layer is not part of the repository; it is any function that returns the octets
  that the length field of the packet covers, or nothing.
-/
import Free5gc.Ausf.UeAuthentication
import Mathlib.Data.List.GetD

namespace Free5gc.Ausf

open Free5gc.Lib

/-! ## The parser -/

/-- The type is the fifth octet, if the length field covers it. -/
def Covers (payload : List UInt8) (content : EapContent) : Prop :=
  let length := beNat ((payload.drop 2).take 2)
  4 ≤ length ∧ length ≤ payload.length ∧ content.contents = payload.take length ∧
    content.code = content.contents.getD 0 0 ∧ content.type = content.contents.getD 4 0

structure EapParser where
  parse : List UInt8 → Option EapContent
  covers : ∀ payload content, parse payload = some content → Covers payload content

def parseEap (payload : List UInt8) : Option EapContent :=
  let length := beNat ((payload.drop 2).take 2)
  if 4 ≤ length ∧ length ≤ payload.length then
    let contents := payload.take length
    some ⟨contents.getD 0 0, contents.getD 4 0, contents⟩
  else none

theorem parseEap_covers (payload : List UInt8) (content : EapContent)
    (h : parseEap payload = some content) : Covers payload content := by
  unfold parseEap at h
  dsimp only at h
  split_ifs at h with hlen
  rw [← Option.some.inj h]
  exact ⟨hlen.1, hlen.2, rfl, rfl, rfl⟩

/-- The parser that returns a packet whenever it may. -/
def eapParser : EapParser := ⟨parseEap, parseEap_covers⟩

/-- `EapAuthComfirmRequestProcedure`, from the payload; a text that is not base64 gives an empty one. -/
def eapAuthComfirm (parser : EapParser) (env : Env) (w : AUSFContext) (id : List Char)
    (eapPayload : Option (List UInt8)) (sent : Bool) (up : Upstream) : Reply × AUSFContext :=
  confirmEap env w id (parser.parse (eapPayload.getD [])) sent up

/-! ## Attributes -/

/-- As it stands in a packet: type, length in units of four octets, value. -/
def IsAttribute (attr : List UInt8) : Prop :=
  4 ≤ attr.length ∧ attr.length = 4 * (attr.getD 1 0).toNat

def IsMac (attr : List UInt8) : Prop := attr.getD 0 0 = 11

instance (attr : List UInt8) : Decidable (IsMac attr) := inferInstanceAs (Decidable (_ = _))

/-- It is read without an error. -/
def Decodes (attr : List UInt8) : Prop :=
  IsAttribute attr ∧ ∃ r, attributeValue (attr.getD 0 0) attr = .ok r

/-- One octet is left behind attributes that can be read. -/
def Dangling (data : List UInt8) : Prop :=
  ∃ (attrs : List (List UInt8)) (t : UInt8), (∀ a ∈ attrs, Decodes a) ∧ data = attrs.flatten ++ [t]

/-! ## What is promised -/

/-- The MAC that is compared, that of the last AT_MAC, is zeroed and nothing else. -/
def MacChecked (contents : List UInt8) (pkt : EapAkaPrimePkt) : Prop :=
  ∃ before mac after, (∀ a ∈ before ++ mac :: after, IsAttribute a) ∧
    contents.drop 8 = (before ++ mac :: after).flatten ∧
    IsMac mac ∧ (∀ a ∈ after, ¬ IsMac a) ∧
    pkt.attributes.lookup 11 = some (mac.drop 4) ∧
    pkt.macInput = contents.take 8 ++
      (before.flatten ++ ((mac.take 4 ++ List.replicate 16 0) ++ after.flatten))

/-- The packet is taken for a response to a challenge. -/
def TakenAsChallenge (content : EapContent) (pkt : EapAkaPrimePkt) : Prop :=
  content.code = 2 ∧ content.type = 50 ∧ decodeEapAkaPrime content.contents = .ok pkt ∧ pkt.subtype = 1

/-- No access outside the packet or to a missing layer: a panic is one of the new authentication
    that a synchronization failure asks for. The octet that a rejection returns is there, and the MAC
    of a response is checked over the packet without it. -/
def PacketSafe (parser : EapParser) (env : Env) (w : AUSFContext) (id : List Char)
    (eapPayload : Option (List UInt8)) (sent : Bool) (up : Upstream) : Prop :=
  let content := parser.parse (eapPayload.getD [])
  ∀ supi ctx, w.find id = some (supi, ctx) → ctx.authStatus ≠ .failure →
    ((eapAuthComfirm parser env w id eapPayload sent up).1 = .panicked →
      judge env ctx content = .ok .resync) ∧
    (judge env ctx content = .ok .rejected → 1 < (eapPayload.getD []).length) ∧
    ∀ c pkt, content = some c → TakenAsChallenge c pkt → MacChecked c.contents pkt

/-- Of an AT_MAC that another one follows. -/
def EarlierMacsZero (contents : List UInt8) : Prop :=
  ∀ before mac after, (∀ a ∈ before ++ mac :: after, IsAttribute a) →
    contents.drop 8 = (before ++ mac :: after).flatten → IsMac mac → (∃ a ∈ after, IsMac a) →
    mac.drop 4 = List.replicate 16 0

def Harmless (content : Option EapContent) (sent : Bool) : Prop :=
  (content = none → sent = false) ∧
    ∀ c, content = some c → c.code = 2 → c.type = 50 →
      c.contents.length ≠ 5 ∧ ¬ Dangling (c.contents.drop 8) ∧
      ∀ pkt, TakenAsChallenge c pkt → EarlierMacsZero c.contents

/-! ## Splitting into attributes -/

theorem attribute_append_inj {a b x y : List UInt8} (ha : IsAttribute a) (hb : IsAttribute b)
    (h : a ++ x = b ++ y) : a = b ∧ x = y := by
  have hone : a.getD 1 0 = b.getD 1 0 := by
    rw [← List.getD_append a x 0 1 (by have := ha.1; omega), h,
      List.getD_append b y 0 1 (by have := hb.1; omega)]
  exact List.append_inj h (by rw [ha.2, hb.2, hone])

theorem flatten_inj {as bs : List (List UInt8)} (ha : ∀ a ∈ as, IsAttribute a)
    (hb : ∀ b ∈ bs, IsAttribute b) (h : as.flatten = bs.flatten) : as = bs := by
  induction as generalizing bs with
  | nil =>
    cases bs with
    | nil => rfl
    | cons b bs =>
      have hlen := (List.forall_mem_cons.mp hb).1.1
      have := congrArg List.length h
      simp at this
      omega
  | cons a as ih =>
    obtain ⟨ha, has⟩ := List.forall_mem_cons.mp ha
    cases bs with
    | nil =>
      rw [List.flatten_cons, List.flatten_nil] at h
      have hlen := ha.1
      rw [(List.append_eq_nil_iff.mp h).1] at hlen
      simp at hlen
    | cons b bs =>
      obtain ⟨hb, hbs⟩ := List.forall_mem_cons.mp hb
      obtain ⟨hab, hrest⟩ := attribute_append_inj ha hb (by simpa using h)
      rw [hab, ih has hbs hrest]

theorem dangling_append {attr rest : List UInt8} (h : IsAttribute attr) :
    Dangling (attr ++ rest) ↔ Decodes attr ∧ Dangling rest := by
  constructor
  · intro hd
    obtain ⟨attrs, t, hattrs, heq⟩ := hd
    cases attrs with
    | nil =>
      have hlen := h.1
      have := congrArg List.length heq
      simp at this
      omega
    | cons a attrs =>
      obtain ⟨ha, hattrs⟩ := List.forall_mem_cons.mp hattrs
      obtain ⟨hsame, hrest⟩ := attribute_append_inj h ha.1 (by simpa using heq)
      exact ⟨hsame ▸ ha, attrs, t, hattrs, hrest⟩
  · intro hd
    obtain ⟨ha, attrs, t, hattrs, heq⟩ := hd
    exact ⟨attr :: attrs, t, List.forall_mem_cons.mpr ⟨ha, hattrs⟩, by simp [heq]⟩

/-! ## One attribute -/

theorem attributeValue_sound {attrType : UInt8} {attr : List UInt8} (h : 4 ≤ attr.length) :
    Sound (attributeValue attrType attr) := by
  unfold attributeValue
  split_ifs
  · rw [index_eq (by omega), ok_bind, sound_failIf]
    exact fun _ => sound_ok _
  all_goals simp [sound_failIf]

/-- What is left in the place of an attribute. -/
def zeroMac (attr : List UInt8) : List UInt8 :=
  if IsMac attr then attr.take 4 ++ List.replicate 16 0 else attr

/-- Only AT_MAC changes the packet, and its value is the octets that it loses. -/
theorem attributeValue_ok {attr : List UInt8} {r : Option (List UInt8) × List UInt8}
    (h : attributeValue (attr.getD 0 0) attr = .ok r) :
    r.2 = zeroMac attr ∧ (IsMac attr → attr.length = 20 ∧ r.1 = some (attr.drop 4)) := by
  unfold attributeValue at h
  by_cases hmac : IsMac attr
  · have htype : attr.getD 0 0 = 11 := hmac
    rw [htype, if_neg (by decide), if_pos rfl, failIf_eq_ok] at h
    rw [zeroMac, if_pos hmac, ← Except.ok.inj h.2]
    exact ⟨rfl, fun _ => ⟨not_not.mp h.1, rfl⟩⟩
  · have htype : ¬ attr.getD 0 0 = 11 := hmac
    refine ⟨?_, fun hmac' => absurd hmac' hmac⟩
    rw [zeroMac, if_neg hmac]
    rw [if_neg htype] at h
    split_ifs at h
    · cases hbits : index attr 3 with
      | error e => simp [hbits] at h
      | ok bits =>
        rw [hbits, ok_bind, failIf_eq_ok] at h
        rw [← Except.ok.inj h.2]
    all_goals first
      | rw [failIf_eq_ok] at h; rw [← Except.ok.inj h.2]
      | rw [← Except.ok.inj h]

theorem decodeAttribute_append {attr : List UInt8} (h : IsAttribute attr)
    (s : List (UInt8 × List UInt8) × List UInt8) (rest : List UInt8) :
    decodeAttribute s (attr ++ rest) = attributeValue (attr.getD 0 0) attr >>= fun r =>
      .ok ((putAttribute s.1 (attr.getD 0 0) r.1, s.2 ++ r.2), rest) := by
  have hlen := h.1
  have hzero : (attr ++ rest).getD 0 0 = attr.getD 0 0 := List.getD_append attr rest 0 0 (by omega)
  have hone : (attr ++ rest).getD 1 0 = attr.getD 1 0 := List.getD_append attr rest 0 1 (by omega)
  have hlength : 4 * (attr.getD 1 0).toNat = attr.length := h.2.symm
  have hpos : ¬ attr.getD 1 0 = 0 := by
    intro h0
    rw [h0] at hlength
    simp at hlength
    omega
  unfold decodeAttribute
  rw [index_eq (by simp; omega), ok_bind, index_eq (by simp; omega), ok_bind, hzero, hone,
    failIf_pass hpos, hlength, failIf_pass (by simp), cut_eq (by omega) (by simp), ok_bind,
    cut_drop (by simp), ok_bind]
  simp

/-- The data are one octet, or do not begin with an attribute, or do. -/
theorem decodeAttribute_cases {data : List UInt8} (h : data ≠ []) :
    (∃ t, data = [t]) ∨
      (∃ e, ∀ s, decodeAttribute s data = .error (.error e)) ∨
      ∃ attr rest, IsAttribute attr ∧ data = attr ++ rest := by
  match data, h with
  | [t], _ => exact .inl ⟨t, rfl⟩
  | t :: n :: rest, _ =>
    refine .inr ?_
    by_cases hzero : n = 0
    · exact .inl ⟨"attribute length equal to zero", fun s => by simp [decodeAttribute, index, failIf, hzero]⟩
    by_cases hlen : (t :: n :: rest).length < 4 * n.toNat
    · refine .inl ⟨"packet length out of range", fun s => ?_⟩
      have hone : (t :: n :: rest).getD 1 0 = n := rfl
      unfold decodeAttribute
      rw [index_eq (by simp), ok_bind, index_eq (by simp), ok_bind, hone, failIf_pass hzero, failIf,
        if_pos hlen, error_bind]
    · have hpos : n.toNat ≠ 0 := fun h => hzero (UInt8.toNat_inj.mp h)
      refine .inr ⟨(t :: n :: rest).take (4 * n.toNat), (t :: n :: rest).drop (4 * n.toNat), ?_,
        (List.take_append_drop ..).symm⟩
      have hlen' : ((t :: n :: rest).take (4 * n.toNat)).length = 4 * n.toNat := by
        rw [List.length_take]
        omega
      refine ⟨by omega, ?_⟩
      rw [hlen', List.getD_eq_getElem?_getD, List.getElem?_take_of_lt (by omega)]
      rfl

/-! ## The loop -/

/-- What an attribute that can be read does to the attributes and the bytes behind. -/
def readAttribute (s : List (UInt8 × List UInt8) × List UInt8) (attr : List UInt8) :
    List (UInt8 × List UInt8) × List UInt8 :=
  (putAttribute s.1 (attr.getD 0 0)
    ((attributeValue (attr.getD 0 0) attr).toOption.bind Prod.fst), s.2 ++ zeroMac attr)

variable {s s' : List (UInt8 × List UInt8) × List UInt8} {attr data : List UInt8} {n : Nat}

theorem decodeAttribute_decodes (h : Decodes attr) (rest : List UInt8) :
    decodeAttribute s (attr ++ rest) = .ok (readAttribute s attr, rest) := by
  obtain ⟨hattr, r, hr⟩ := h
  rw [decodeAttribute_append hattr, hr, ok_bind, readAttribute, hr, ← (attributeValue_ok hr).1]
  rfl

theorem loop_step (hattr : IsAttribute attr) (rest : List UInt8) :
    loop 1 decodeAttribute (n + 1) s (attr ++ rest) =
      attributeValue (attr.getD 0 0) attr >>= fun _ =>
        loop 1 decodeAttribute n (readAttribute s attr) rest := by
  have hlen := hattr.1
  rw [loop_succ (by simp; omega)]
  cases hr : attributeValue (attr.getD 0 0) attr with
  | error e => rw [decodeAttribute_append hattr, hr]; rfl
  | ok r => rw [decodeAttribute_decodes ⟨hattr, r, hr⟩]; rfl

theorem not_dangling_of_error {e : String} (h : decodeAttribute s data = .error (.error e)) :
    ¬ Dangling data := by
  intro hd
  obtain ⟨attrs, t, hattrs, rfl⟩ := hd
  cases attrs with
  | nil => simp [decodeAttribute, index] at h
  | cons a attrs =>
    rw [List.flatten_cons, List.append_assoc,
      decodeAttribute_decodes (List.forall_mem_cons.mp hattrs).1] at h
    cases h

theorem loop_sound_iff (hn : data.length ≤ n) :
    Sound (loop 1 decodeAttribute n s data) ↔ ¬ Dangling data := by
  induction n generalizing s data with
  | zero =>
    rw [List.eq_nil_of_length_eq_zero (Nat.le_zero.mp hn)]
    simp [loop, Dangling]
  | succ n ih =>
    by_cases hnil : data = []
    · subst hnil
      simp [loop, Dangling]
    obtain ⟨t, ht⟩ | ⟨e, he⟩ | ⟨attr, rest, hattr, hdata⟩ := decodeAttribute_cases hnil
    · subst ht
      refine iff_of_false ?_ (not_not.mpr ⟨[], t, by simp, rfl⟩)
      simp [loop, decodeAttribute, index]
    · rw [loop_succ (List.length_pos_iff.mpr hnil), he, error_bind]
      exact iff_of_true (sound_error e) (not_dangling_of_error (he s))
    · subst hdata
      rw [loop_step hattr, sound_bind, dangling_append hattr]
      have hlen := hattr.1
      have hrest : Sound (loop 1 decodeAttribute n (readAttribute s attr) rest) ↔ ¬ Dangling rest :=
        ih (by simp at hn; omega)
      constructor
      · intro h hd
        obtain ⟨⟨-, r, hr⟩, hdangling⟩ := hd
        exact hrest.mp (h.2 r hr) hdangling
      · exact fun h => ⟨attributeValue_sound hattr.1, fun r hr => hrest.mpr fun hd => h ⟨⟨hattr, r, hr⟩, hd⟩⟩

/-- A packet that is read is a sequence of attributes that can be read. -/
theorem loop_ok (h : loop 1 decodeAttribute n s data = .ok s') :
    ∃ attrs : List (List UInt8), (∀ a ∈ attrs, Decodes a) ∧ data = attrs.flatten ∧
      s' = attrs.foldl readAttribute s := by
  refine loop_induction (fun s data s' => ∃ attrs : List (List UInt8), (∀ a ∈ attrs, Decodes a) ∧
    data = attrs.flatten ∧ s' = attrs.foldl readAttribute s)
    (fun s data hlen => ⟨[], by simp, List.eq_nil_of_length_eq_zero (by omega), rfl⟩)
    (fun s data r s' hlen hturn hrest => ?_) h
  obtain ⟨attrs, hattrs, hrest, hs'⟩ := hrest
  obtain ⟨t, ht⟩ | ⟨e, he⟩ | ⟨attr, rest, hattr, hdata⟩ :=
    decodeAttribute_cases (List.length_pos_iff.mp hlen)
  · subst ht
    simp [decodeAttribute, index] at hturn
  · rw [he] at hturn
    cases hturn
  · subst hdata
    have hdec : Decodes attr := by
      rw [decodeAttribute_append hattr] at hturn
      obtain ⟨r', hr, -⟩ := bind_eq_ok.mp hturn
      exact ⟨hattr, r', hr⟩
    rw [decodeAttribute_decodes hdec] at hturn
    rw [← Except.ok.inj hturn] at hrest hs'
    exact ⟨attr :: attrs, List.forall_mem_cons.mpr ⟨hdec, hattrs⟩, by simpa using hrest, hs'⟩

/-! ## The packet -/

variable {contents : List UInt8} {pkt : EapAkaPrimePkt}

theorem checkAttributes_sound (subtype : UInt8) (attributes : List (UInt8 × List UInt8)) :
    Sound (checkAttributes subtype attributes) := by
  unfold checkAttributes failIf
  dsimp only
  split_ifs <;> simp

theorem decodeEapAkaPrime_sound_iff :
    Sound (decodeEapAkaPrime contents) ↔ 6 ≤ contents.length ∧ ¬ Dangling (contents.drop 8) := by
  unfold decodeEapAkaPrime
  by_cases hlen : 6 ≤ contents.length
  · rw [cut_drop (by omega), ok_bind, index_eq (by simp; omega), ok_bind, List.drop_drop, sound_bind,
      loop_sound_iff (Nat.le_refl _)]
    simp only [sound_bind, checkAttributes_sound, sound_ok, implies_true, and_self, and_true, hlen,
      true_and]
  · refine iff_of_false ?_ fun h => hlen h.1
    by_cases hfive : 5 ≤ contents.length
    · rw [cut_drop hfive, ok_bind, index, if_neg (by simp; omega)]
      simp
    · rw [cut_outside (.inl (by omega))]
      simp

theorem foldl_readAttribute_bytes (attrs : List (List UInt8)) :
    (attrs.foldl readAttribute s).2 = s.2 ++ (attrs.map zeroMac).flatten := by
  induction attrs generalizing s with
  | nil => simp
  | cons a attrs ih => simp [ih, readAttribute]

/-- The attributes of a packet that is decoded. -/
theorem decodeEapAkaPrime_attributes (h : decodeEapAkaPrime contents = .ok pkt) :
    ∃ attrs : List (List UInt8), (∀ a ∈ attrs, Decodes a) ∧ contents.drop 8 = attrs.flatten ∧
      pkt.attributes = (attrs.foldl readAttribute ([], [])).1 ∧
      pkt.macInput = contents.take 8 ++ (attrs.map zeroMac).flatten ∧
      checkAttributes pkt.subtype pkt.attributes = .ok () := by
  unfold decodeEapAkaPrime at h
  obtain ⟨data, hdata, h⟩ := bind_eq_ok.mp h
  obtain ⟨subtype, -, h⟩ := bind_eq_ok.mp h
  obtain ⟨s, hs, h⟩ := bind_eq_ok.mp h
  obtain ⟨_, hcheck, h⟩ := bind_eq_ok.mp h
  have hdrop : data = contents.drop 5 := by
    by_cases hlen : 5 ≤ contents.length
    · rw [cut_drop hlen] at hdata
      exact (Except.ok.inj hdata).symm
    · rw [cut_outside (.inl (by omega))] at hdata
      cases hdata
  obtain ⟨attrs, hattrs, hflat, rfl⟩ := loop_ok hs
  rw [hdrop, List.drop_drop] at hflat
  rw [← Except.ok.inj h]
  exact ⟨attrs, hattrs, hflat, rfl, by simp [foldl_readAttribute_bytes], hcheck⟩

/-! ## The MAC -/

theorem lookup_filter_ne {t k : UInt8} (h : k ≠ t) (l : List (UInt8 × List UInt8)) :
    (l.filter (·.1 ≠ t)).lookup k = l.lookup k := by
  induction l with
  | nil => rfl
  | cons x l ih =>
    obtain ⟨t', v⟩ := x
    by_cases ht : t' = t
    · rw [List.filter_cons_of_neg (by simp [ht]), ih, List.lookup_cons, ht, beq_false_of_ne h]
    · rw [List.filter_cons_of_pos (by simp [ht]), List.lookup_cons, List.lookup_cons, ih]

theorem putAttribute_lookup_other {attributes : List (UInt8 × List UInt8)} {attrType : UInt8}
    (h : attrType ≠ 11) (value : Option (List UInt8)) :
    (putAttribute attributes attrType value).lookup 11 = attributes.lookup 11 := by
  cases value with
  | none => rfl
  | some value =>
    rw [putAttribute, List.lookup_cons, beq_false_of_ne (Ne.symm h)]
    exact lookup_filter_ne (Ne.symm h) _

theorem lookup_after {after : List (List UInt8)} (h : ∀ a ∈ after, ¬ IsMac a) :
    (after.foldl readAttribute s).1.lookup 11 = s.1.lookup 11 := by
  induction after generalizing s with
  | nil => rfl
  | cons a after ih =>
    obtain ⟨ha, hafter⟩ := List.forall_mem_cons.mp h
    rw [List.foldl_cons, ih hafter]
    exact putAttribute_lookup_other ha _

/-- The last AT_MAC is the one that is kept. -/
theorem lookup_mac {before after : List (List UInt8)} {mac : List UInt8} (hdec : Decodes mac)
    (hmac : IsMac mac) (h : ∀ a ∈ after, ¬ IsMac a) :
    ((before ++ mac :: after).foldl readAttribute s).1.lookup 11 = some (mac.drop 4) := by
  obtain ⟨-, r, hr⟩ := hdec
  rw [List.foldl_append, List.foldl_cons, lookup_after h, readAttribute, hr]
  have htype : mac.getD 0 0 = 11 := hmac
  have hvalue := ((attributeValue_ok hr).2 hmac).2
  simp only [Except.toOption, Option.bind_some, hvalue, htype, putAttribute, List.lookup_cons_self]

theorem exists_last_mac {attrs : List (List UInt8)} (h : ∃ a ∈ attrs, IsMac a) :
    ∃ before mac after, attrs = before ++ mac :: after ∧ IsMac mac ∧ ∀ a ∈ after, ¬ IsMac a := by
  induction attrs with
  | nil => simp at h
  | cons a attrs ih =>
    by_cases hmore : ∃ a ∈ attrs, IsMac a
    · obtain ⟨before, mac, after, heq, hrest⟩ := ih hmore
      exact ⟨a :: before, mac, after, by rw [heq, List.cons_append], hrest⟩
    · obtain ⟨b, hb, hmac⟩ := h
      refine ⟨[], a, attrs, rfl, ?_, fun c hc hc' => hmore ⟨c, hc, hc'⟩⟩
      rcases List.mem_cons.mp hb with rfl | hb
      · exact hmac
      · exact absurd ⟨b, hb, hmac⟩ hmore

/-- An AT_MAC that another one follows stands before the last one. -/
theorem mem_before_last {before before' after after' : List (List UInt8)} {mac mac' : List UInt8}
    (h : before' ++ mac' :: after' = before ++ mac :: after) (hnone : ∀ a ∈ after, ¬ IsMac a)
    (hmac' : IsMac mac') (hmore : ∃ a ∈ after', IsMac a) : mac' ∈ before := by
  obtain ⟨b, hb, hbmac⟩ := hmore
  obtain ⟨c, hc, hc'⟩ | ⟨c, hc, hc'⟩ := List.append_eq_append_iff.mp h
  · match c with
    | [] => exact absurd hbmac (hnone b ((List.cons.inj hc').2 ▸ hb))
    | m :: c =>
      rw [hc, (List.cons.inj hc').1]
      simp
  · match c with
    | [] => exact absurd hbmac (hnone b ((List.cons.inj hc').2 ▸ hb))
    | m :: c =>
      refine absurd hmac' (hnone mac' ?_)
      rw [(List.cons.inj hc').2]
      simp

theorem zeroMac_eq_self_iff {attr : List UInt8} (h : IsMac attr) :
    zeroMac attr = attr ↔ attr.drop 4 = List.replicate 16 0 := by
  rw [zeroMac, if_pos h]
  constructor
  · intro heq
    exact (List.append_cancel_left (heq.trans (List.take_append_drop 4 attr).symm)).symm
  · intro heq
    rw [← heq, List.take_append_drop]

theorem length_zeroMac {attr : List UInt8} (h : Decodes attr) : (zeroMac attr).length = attr.length := by
  obtain ⟨-, r, hr⟩ := h
  by_cases hmac : IsMac attr
  · have hlen := ((attributeValue_ok hr).2 hmac).1
    rw [zeroMac, if_pos hmac]
    simp [hlen]
  · rw [zeroMac, if_neg hmac]

/-- Where zeroing changes nothing in a part of the packet, it changes none of its attributes. -/
theorem zeroMac_fixed {as : List (List UInt8)} {x y : List UInt8} (h : ∀ a ∈ as, Decodes a)
    (heq : (as.map zeroMac).flatten ++ x = as.flatten ++ y) : ∀ a ∈ as, zeroMac a = a := by
  induction as with
  | nil => simp
  | cons a as ih =>
    obtain ⟨ha, has⟩ := List.forall_mem_cons.mp h
    rw [List.map_cons, List.flatten_cons, List.flatten_cons, List.append_assoc, List.append_assoc] at heq
    obtain ⟨hfirst, hrest⟩ := List.append_inj heq (length_zeroMac ha)
    exact List.forall_mem_cons.mpr ⟨hfirst, ih has hrest⟩

theorem map_zeroMac {as : List (List UInt8)} (h : ∀ a ∈ as, zeroMac a = a) : as.map zeroMac = as := by
  rw [List.map_congr_left h, List.map_id']

theorem macChecked_iff (h : decodeEapAkaPrime contents = .ok pkt) (hsubtype : pkt.subtype = 1) :
    MacChecked contents pkt ↔ EarlierMacsZero contents := by
  obtain ⟨attrs, hattrs, hflat, hattributes, hinput, hcheck⟩ := decodeEapAkaPrime_attributes h
  have hsplit : ∀ as : List (List UInt8), (∀ a ∈ as, IsAttribute a) → contents.drop 8 = as.flatten →
      as = attrs :=
    fun as has heq => flatten_inj has (fun a ha => (hattrs a ha).1) (heq.symm.trans hflat)
  constructor
  · intro hchecked before' mac' after' hall heq hmac' hmore
    obtain ⟨before, mac, after, hall₂, heq₂, hmac, hnone, -, hmacInput⟩ := hchecked
    have hattrs₂ := hsplit _ hall₂ heq₂
    subst hattrs₂
    have hbefore : ∀ a ∈ before, zeroMac a = a := by
      rw [hinput, List.map_append, List.flatten_append] at hmacInput
      exact zeroMac_fixed (fun a ha => hattrs a (List.mem_append_left _ ha))
        (List.append_cancel_left hmacInput)
    exact (zeroMac_eq_self_iff hmac').mp
      (hbefore mac' (mem_before_last (hsplit _ hall heq) hnone hmac' hmore))
  · intro hzero
    have hexists : ∃ a ∈ attrs, IsMac a := by
      by_contra hno
      have hlookup : pkt.attributes.lookup 11 = none := by
        rw [hattributes, lookup_after fun a ha hmac => hno ⟨a, ha, hmac⟩]
        rfl
      simp [checkAttributes, hsubtype, hlookup, failIf] at hcheck
    obtain ⟨before, mac, after, rfl, hmac, hnone⟩ := exists_last_mac hexists
    have hall : ∀ a ∈ before ++ mac :: after, IsAttribute a := fun a ha => (hattrs a ha).1
    refine ⟨before, mac, after, hall, hflat, hmac, hnone, ?_, ?_⟩
    · rw [hattributes]
      exact lookup_mac (hattrs mac (by simp)) hmac hnone
    · have hbefore : ∀ a ∈ before, zeroMac a = a := by
        intro a ha
        by_cases hamac : IsMac a
        · obtain ⟨b₁, b₂, rfl⟩ := List.append_of_mem ha
          refine (zeroMac_eq_self_iff hamac).mpr (hzero b₁ a (b₂ ++ mac :: after) ?_ ?_ hamac ?_)
          · simpa using hall
          · simpa using hflat
          · exact ⟨mac, by simp, hmac⟩
        · exact if_neg hamac
      have hafter : ∀ a ∈ after, zeroMac a = a := fun a ha => if_neg (hnone a ha)
      rw [hinput, List.map_append, List.map_cons, map_zeroMac hbefore, map_zeroMac hafter,
        List.flatten_append, List.flatten_cons]
      rw [zeroMac, if_pos hmac]

/-! ## The confirmation -/

section

variable {env : Env} {ctx : AusfUeContext} {content : Option EapContent}

theorem judge_returns_iff :
    (∀ f, judge env ctx content ≠ .error f) ↔
      ∀ c, content = some c → c.code = 2 → c.type = 50 → Sound (decodeEapAkaPrime c.contents) := by
  cases content with
  | none => simp [judge]
  | some c =>
    simp only [Option.some.injEq, forall_eq']
    unfold judge
    dsimp only
    by_cases hkind : c.code ≠ 2 ∨ c.type ≠ 50
    · rw [if_pos hkind]
      refine iff_of_true (by simp) fun hcode htype => ?_
      rcases hkind with h | h
      · exact absurd hcode h
      · exact absurd htype h
    · obtain ⟨hcode, htype⟩ := not_or.mp hkind
      rw [if_neg hkind]
      cases hpkt : decodeEapAkaPrime c.contents with
      | ok pkt =>
        dsimp only
        refine iff_of_true (fun f => ?_) fun _ _ => sound_ok _
        split_ifs <;> simp
      | error e =>
        cases e with
        | error text => simp
        | outside => simp_all
        | stuck => simp_all [Sound]

/-- The reply is a panic that the packet causes exactly if it cannot be judged, or there is none and
    the failure is to be notified. -/
theorem panicked_iff {w : AUSFContext} {id supi : List Char} (hfind : w.find id = some (supi, ctx))
    (hstatus : ctx.authStatus ≠ .failure) (sent : Bool) (up : Upstream) :
    ((confirmEap env w id content sent up).1 = .panicked → judge env ctx content = .ok .resync) ↔
      (∀ f, judge env ctx content ≠ .error f) ∧ (content = none → sent = false) := by
  unfold confirmEap
  rw [hfind]
  dsimp only
  rw [if_neg hstatus]
  have hnone : content = none → judge env ctx content = .ok .bad := fun h => by rw [h]; rfl
  cases hj : judge env ctx content with
  | error f => simp
  | ok v =>
    have hfound : v ≠ .bad → content = none → sent = false := by
      intro hv h
      rw [hnone h] at hj
      exact absurd (Except.ok.inj hj).symm hv
    cases v with
    | right => exact iff_of_true (by cases sent <;> simp) ⟨by simp, hfound (by decide)⟩
    | rejected => exact iff_of_true (by cases sent <;> simp) ⟨by simp, hfound (by decide)⟩
    | resync => exact iff_of_true (fun _ => rfl) ⟨by simp, hfound (by decide)⟩
    | bad =>
      cases sent with
      | false => simp
      | true => by_cases h : content = none <;> simp [h]

end

theorem length_of_type {payload : List UInt8} {c : EapContent} (h : Covers payload c)
    (htype : c.type = 50) : 5 ≤ c.contents.length := by
  obtain ⟨-, -, -, -, hfifth⟩ := h
  by_contra hlen
  rw [hfifth, List.getD_eq_getElem?_getD, List.getElem?_eq_none (by omega)] at htype
  cases htype

end Free5gc.Ausf
