/-
  SDF filters: the IPFilterRule texts that the UPF reads (`forwarder/flowdesc.go`). The
  parser takes the fields of the text one by one. The ports of the source are optional, and
  are found by reading the next field as ports and going on without them when that fails;
  the same is done for the ports of the destination, at the end of the rule.

  A rule of the grammar is an `IPFilterRule`, with its fields and with the filter it means.
  A rule is read as what it means whatever white space stands between its fields. What is
  read without error need not be a rule: a field after the destination that is no list of
  ports is passed over, and so is whatever follows.
-/
import Free5gc.Lib.Net

namespace Free5gc.Upf.Flow

open Free5gc.Lib

/-! ## The parser -/

/-- The only action that is read without error. -/
inductive Action where
  | permit
  deriving DecidableEq, Repr

inductive Dir where
  | dirIn
  | dirOut
  deriving DecidableEq, Repr

/-- A parsed filter. A port is a list of one port or of the two ends of a range. -/
structure FlowDesc where
  action : Action
  dir : Dir
  proto : UInt8
  src : IPNet
  dst : IPNet
  srcPorts : List (List UInt16)
  dstPorts : List (List UInt16)
  deriving DecidableEq, Repr

/-- The errors of the parser, with the data their texts show. -/
inductive Err where
  /-- "too few fields %v" -/
  | tooFewFields (n : Nat)
  /-- "unknown action %v" -/
  | unknownAction (token : List Char)
  /-- "unknown direction %v" -/
  | unknownDirection (token : List Char)
  /-- "not match 'from'" -/
  | notMatchFrom
  /-- "not match 'to'" -/
  | notMatchTo
  /-- "invalid address %v" -/
  | invalidAddress (s : List Char)
  /-- "invalid port: %q" -/
  | invalidPort (port : List Char)
  | num (e : NumError)
  deriving DecidableEq, Repr

/-- `strconv.ParseUint(s, 10, bitSize)`, its error as an error of the parser. -/
def parseNumber (s : List Char) (bitSize : Nat) : Except Err Nat :=
  (parseUint s bitSize).mapError Err.num

def parseFlowDescIPNet (net : NetParsers) (s : List Char) : Except Err IPNet :=
  if s = "any".toList ∨ s = "assigned".toList then
    .ok ⟨List.replicate 16 0, cidrMask 0 16⟩
  else
    match net.parseCIDR s with
    | some ipnet => .ok ipnet
    | none =>
      match net.parseIP s with
      | none => .error (.invalidAddress s)
      | some ip =>
        let ip := (to4 ip).getD ip
        .ok ⟨ip, cidrMask (ip.length * 8) ip.length⟩

/-- One turn of the loop of `parseFlowDescPorts`. -/
def parseFlowDescPort (port : List Char) : Except Err (List UInt16) :=
  match splitN '-' 2 port with
  | [digit] => do
    let v ← parseNumber digit 16
    return [UInt16.ofNat v]
  | [first, last] => do
    let start ← parseNumber first 16
    let stop ← parseNumber last 16
    return [UInt16.ofNat start, UInt16.ofNat stop]
  | _ => .error (.invalidPort port)

def parseFlowDescPorts (s : List Char) : Except Err (List (List UInt16)) :=
  (s.splitOn ',').mapM parseFlowDescPort

/-- `token[pos]`, with the test that goes before each use of it. -/
def tokenAt (token : List (List Char)) (pos : Nat) : Except Err (List Char) :=
  match token[pos]? with
  | some t => .ok t
  | none => .error (.tooFewFields token.length)

def parseAction (token : List Char) : Except Err Action :=
  if token = "permit".toList then .ok .permit else .error (.unknownAction token)

def parseDir (token : List Char) : Except Err Dir :=
  if token = "in".toList then .ok .dirIn
  else if token = "out".toList then .ok .dirOut
  else .error (.unknownDirection token)

def parseProto (token : List Char) : Except Err UInt8 :=
  if token = "ip".toList then .ok 0xff
  else do
    let v ← parseNumber token 8
    return UInt8.ofNat v

def expect (word : String) (err : Err) (token : List Char) : Except Err Unit :=
  if token = word.toList then .ok () else .error err

/-- The ports of the source and the position after them: an error of
    `parseFlowDescPorts` means that there are none. -/
def sourcePorts (token : List Char) (pos : Nat) : List (List UInt16) × Nat :=
  match parseFlowDescPorts token with
  | .ok sports => (sports, pos + 1)
  | .error _ => ([], pos)

/-- The ports of the destination; here too an error means that there are none. -/
def destinationPorts : Option (List Char) → List (List UInt16)
  | none => []
  | some t =>
    match parseFlowDescPorts t with
    | .ok dports => dports
    | .error _ => []

/-- The rule from the `to` at `pos` on: the destination and its ports. -/
def parseTo (net : NetParsers) (token : List (List Char)) (pos : Nat) :
    Except Err (IPNet × List (List UInt16)) := do
  tokenAt token pos >>= expect "to" .notMatchTo
  let dst ← tokenAt token (pos + 1) >>= parseFlowDescIPNet net
  return (dst, destinationPorts token[pos + 2]?)

/-- `parseFlowDesc` from the fields on. -/
def parseTokens (net : NetParsers) (token : List (List Char)) : Except Err FlowDesc := do
  let action ← tokenAt token 0 >>= parseAction
  let dir ← tokenAt token 1 >>= parseDir
  let proto ← tokenAt token 2 >>= parseProto
  tokenAt token 3 >>= expect "from" .notMatchFrom
  let src ← tokenAt token 4 >>= parseFlowDescIPNet net
  let t ← tokenAt token 5
  let sports := sourcePorts t 5
  let dst ← parseTo net token sports.2
  return ⟨action, dir, proto, src, dst.1, sports.1, dst.2⟩

def parseFlowDesc (net : NetParsers) (s : List Char) : Except Err FlowDesc :=
  parseTokens net (fields s)

/-! ## The grammar -/

/-- A decimal number of at most `bitSize` bits, as written. -/
structure Decimal (bitSize : Nat) where
  text : List Char
  numeral : IsNumeral text
  fits : numeralValue text < 2 ^ bitSize

def Decimal.value {bitSize : Nat} (d : Decimal bitSize) : Nat := numeralValue d.text

inductive Proto where
  | ip
  | number (v : Decimal 8)

inductive Addr where
  | any
  | assigned
  | ip (a : IPText)
  | cidr (n : CIDRText)

inductive Port where
  | single (v : Decimal 16)
  | range (first last : Decimal 16)

/-- The source or the destination of a rule; no ports stand for all. -/
structure Endpoint where
  addr : Addr
  ports : List Port

structure IPFilterRule where
  dir : Dir
  proto : Proto
  src : Endpoint
  dst : Endpoint

/-! ### The fields of a rule -/

def Dir.token : Dir → List Char
  | .dirIn => "in".toList
  | .dirOut => "out".toList

def Proto.token : Proto → List Char
  | .ip => "ip".toList
  | .number v => v.text

def Addr.token : Addr → List Char
  | .any => "any".toList
  | .assigned => "assigned".toList
  | .ip a => a.text
  | .cidr n => n.text

def Port.token : Port → List Char
  | .single v => v.text
  | .range first last => first.text ++ '-' :: last.text

def portsToken (ports : List Port) : List Char := [','].intercalate (ports.map Port.token)

def Endpoint.portsTokens (e : Endpoint) : List (List Char) :=
  match e.ports with
  | [] => []
  | ports => [portsToken ports]

def Endpoint.tokens (e : Endpoint) : List (List Char) := e.addr.token :: e.portsTokens

def IPFilterRule.tokens (r : IPFilterRule) : List (List Char) :=
  "permit".toList :: r.dir.token :: r.proto.token :: "from".toList ::
    (r.src.tokens ++ "to".toList :: r.dst.tokens)

/-! ### What a rule means -/

/-- The protocol number; 255 stands for any. -/
def Proto.value : Proto → UInt8
  | .ip => 0xff
  | .number v => UInt8.ofNat v.value

/-- The network; `any` and `assigned` are the network of all addresses. -/
def Addr.net : Addr → IPNet
  | .any => ⟨List.replicate 16 0, List.replicate 16 0⟩
  | .assigned => ⟨List.replicate 16 0, List.replicate 16 0⟩
  | .ip a => a.host
  | .cidr n => n.net

def Port.values : Port → List UInt16
  | .single v => [UInt16.ofNat v.value]
  | .range first last => [UInt16.ofNat first.value, UInt16.ofNat last.value]

def IPFilterRule.meaning (r : IPFilterRule) : FlowDesc where
  action := .permit
  dir := r.dir
  proto := r.proto.value
  src := r.src.addr.net
  dst := r.dst.addr.net
  srcPorts := r.src.ports.map Port.values
  dstPorts := r.dst.ports.map Port.values

/-- The address parsers read this address as what it denotes. -/
def Addr.ReadBy (net : NetParsers) : Addr → Prop
  | .any => True
  | .assigned => True
  | .ip a => net.ReadsIP a
  | .cidr n => net.ReadsCIDR n

/-! ## The parsers of the fields -/

variable {s t : List Char} {bitSize pos : Nat} {vss : List (List UInt16)} {net : NetParsers}
  {token : List (List Char)}

theorem parseNumber_eq_ok {v : Nat} :
    parseNumber s bitSize = .ok v ↔ ∃ d : Decimal bitSize, d.text = s ∧ d.value = v := by
  have hmap : parseNumber s bitSize = .ok v ↔ parseUint s bitSize = .ok v := by
    unfold parseNumber
    cases parseUint s bitSize with
    | error e =>
      constructor
      · intro h
        cases h
      · intro h
        cases h
    | ok u =>
      constructor
      · intro h
        cases h
        rfl
      · intro h
        cases h
        rfl
  rw [hmap, parseUint_eq_ok]
  constructor
  · rintro ⟨hs, hv, hlt⟩
    exact ⟨⟨s, hs, by rw [hv]; exact hlt⟩, rfl, hv⟩
  · rintro ⟨d, rfl, rfl⟩
    exact ⟨d.numeral, rfl, d.fits⟩

theorem Decimal.dash_notMem (d : Decimal bitSize) : '-' ∉ d.text :=
  d.numeral.notMem (by decide)

theorem Decimal.comma_notMem (d : Decimal bitSize) : ',' ∉ d.text :=
  d.numeral.notMem (by decide)

theorem parseFlowDescPort_eq_ok {vs : List UInt16} :
    parseFlowDescPort t = .ok vs ↔ ∃ p : Port, p.token = t ∧ p.values = vs := by
  constructor
  · intro h
    unfold parseFlowDescPort at h
    rcases splitN_two_cases '-' t with hsplit | ⟨a, b, hsplit, rfl⟩
    · rw [hsplit] at h
      obtain ⟨v, hv, h⟩ := bind_eq_ok.mp h
      obtain ⟨d, rfl, rfl⟩ := parseNumber_eq_ok.mp hv
      exact ⟨.single d, rfl, pure_eq_ok.mp h⟩
    · rw [hsplit] at h
      obtain ⟨v, hv, h⟩ := bind_eq_ok.mp h
      obtain ⟨w, hw, h⟩ := bind_eq_ok.mp h
      obtain ⟨d, rfl, rfl⟩ := parseNumber_eq_ok.mp hv
      obtain ⟨e, rfl, rfl⟩ := parseNumber_eq_ok.mp hw
      exact ⟨.range d e, rfl, pure_eq_ok.mp h⟩
  · rintro ⟨p, rfl, rfl⟩
    unfold parseFlowDescPort
    cases p with
    | single d =>
      rw [Port.token, splitN_two_of_notMem d.dash_notMem]
      exact bind_eq_ok.mpr ⟨d.value, parseNumber_eq_ok.mpr ⟨d, rfl, rfl⟩, rfl⟩
    | range d e =>
      rw [Port.token, splitN_two_append d.dash_notMem]
      exact bind_eq_ok.mpr ⟨d.value, parseNumber_eq_ok.mpr ⟨d, rfl, rfl⟩,
        bind_eq_ok.mpr ⟨e.value, parseNumber_eq_ok.mpr ⟨e, rfl, rfl⟩, rfl⟩⟩

theorem Port.comma_notMem (p : Port) : ',' ∉ p.token := by
  cases p with
  | single d => exact d.comma_notMem
  | range d e =>
    intro h
    rcases List.mem_append.mp h with h | h
    · exact d.comma_notMem h
    · rcases List.mem_cons.mp h with h | h
      · cases h
      · exact e.comma_notMem h

theorem mapM_parseFlowDescPort {ts : List (List Char)} :
    ts.mapM parseFlowDescPort = .ok vss ↔
      ∃ ps : List Port, ps.map Port.token = ts ∧ ps.map Port.values = vss := by
  induction ts generalizing vss with
  | nil =>
    rw [List.mapM_nil, pure_eq_ok]
    constructor
    · rintro rfl
      exact ⟨[], rfl, rfl⟩
    · rintro ⟨ps, hts, hvss⟩
      rw [List.map_eq_nil_iff] at hts
      subst hts
      exact hvss
  | cons t ts ih =>
    rw [List.mapM_cons, bind_eq_ok]
    constructor
    · rintro ⟨vs, hvs, h⟩
      obtain ⟨vss', hvss', h⟩ := bind_eq_ok.mp h
      obtain ⟨p, rfl, rfl⟩ := parseFlowDescPort_eq_ok.mp hvs
      obtain ⟨ps, rfl, rfl⟩ := ih.mp hvss'
      exact ⟨p :: ps, rfl, pure_eq_ok.mp h⟩
    · rintro ⟨ps, hts, rfl⟩
      obtain ⟨p, ps, rfl, rfl, rfl⟩ := List.map_eq_cons_iff.mp hts
      exact ⟨p.values, parseFlowDescPort_eq_ok.mpr ⟨p, rfl, rfl⟩,
        bind_eq_ok.mpr ⟨_, ih.mpr ⟨ps, rfl, rfl⟩, rfl⟩⟩

/-- A field is read as ports exactly when it is a list of ports, of one port at least. -/
theorem parseFlowDescPorts_eq_ok :
    parseFlowDescPorts t = .ok vss ↔
      ∃ ps : List Port, ps ≠ [] ∧ portsToken ps = t ∧ ps.map Port.values = vss := by
  unfold parseFlowDescPorts
  rw [mapM_parseFlowDescPort]
  constructor
  · rintro ⟨ps, hts, hvss⟩
    refine ⟨ps, ?_, ?_, hvss⟩
    · rintro rfl
      exact List.splitOn_ne_nil _ _ hts.symm
    · unfold portsToken
      rw [hts, List.intercalate_splitOn]
  · rintro ⟨ps, hne, rfl, hvss⟩
    refine ⟨ps, ?_, hvss⟩
    unfold portsToken
    rw [List.splitOn_intercalate]
    · intro t ht
      obtain ⟨p, _, rfl⟩ := List.mem_map.mp ht
      exact p.comma_notMem
    · rw [ne_eq, List.map_eq_nil_iff]
      exact hne

theorem parseFlowDescPorts_to (vss : List (List UInt16)) :
    parseFlowDescPorts "to".toList ≠ .ok vss := by
  have h : parseFlowDescPorts "to".toList = .error (.num ⟨"to".toList, .errSyntax⟩) := by decide
  rw [h]
  exact nofun

theorem parseDir_eq_ok {d : Dir} : parseDir t = .ok d ↔ d.token = t := by
  unfold parseDir
  split_ifs with hin hout
  · subst hin
    cases d with
    | dirIn => exact ⟨fun _ => rfl, fun _ => rfl⟩
    | dirOut => exact ⟨nofun, fun h => absurd h (by decide)⟩
  · subst hout
    cases d with
    | dirIn => exact ⟨nofun, fun h => absurd h (by decide)⟩
    | dirOut => exact ⟨fun _ => rfl, fun _ => rfl⟩
  · refine ⟨nofun, fun h => ?_⟩
    cases d with
    | dirIn => exact absurd h.symm hin
    | dirOut => exact absurd h.symm hout

theorem parseProto_eq_ok {v : UInt8} :
    parseProto t = .ok v ↔ ∃ p : Proto, p.token = t ∧ p.value = v := by
  unfold parseProto
  split_ifs with hip
  · subst hip
    constructor
    · intro h
      exact ⟨.ip, rfl, Except.ok.inj h⟩
    · rintro ⟨p, htoken, rfl⟩
      cases p with
      | ip => rfl
      | number d =>
        -- no number is written "ip"
        have hdigit : Char.isDigit 'i' = true := d.numeral.digit 'i' (by
          change d.text = "ip".toList at htoken
          rw [htoken]
          exact List.mem_cons_self)
        cases hdigit
  · rw [bind_eq_ok]
    constructor
    · rintro ⟨n, hn, h⟩
      obtain ⟨d, rfl, rfl⟩ := parseNumber_eq_ok.mp hn
      exact ⟨.number d, rfl, pure_eq_ok.mp h⟩
    · rintro ⟨p, rfl, rfl⟩
      cases p with
      | ip => exact absurd rfl hip
      | number d => exact ⟨d.value, parseNumber_eq_ok.mpr ⟨d, rfl, rfl⟩, rfl⟩

theorem ipnet_eq_host (a : IPText) :
    (⟨(to4 a.ip16).getD a.ip16, cidrMask (((to4 a.ip16).getD a.ip16).length * 8)
      ((to4 a.ip16).getD a.ip16).length⟩ : IPNet) = a.host := by
  rw [cidrMask_full]
  rfl

/-- No address is written `any` or `assigned`. -/
theorem not_any_or_assigned (h : '.' ∈ s ∨ ':' ∈ s ∨ '/' ∈ s) :
    ¬ (s = "any".toList ∨ s = "assigned".toList) := by
  rintro (rfl | rfl)
  · revert h
    decide
  · revert h
    decide

theorem IPText.not_any_or_assigned (a : IPText) :
    ¬ (a.text = "any".toList ∨ a.text = "assigned".toList) := by
  refine Flow.not_any_or_assigned ?_
  rcases a.dot_or_colon_mem with h | h
  · exact Or.inl h
  · exact Or.inr (Or.inl h)

theorem parseFlowDescIPNet_cidr {n : IPNet} (hs : ¬ (s = "any".toList ∨ s = "assigned".toList))
    (h : net.parseCIDR s = some n) : parseFlowDescIPNet net s = .ok n := by
  unfold parseFlowDescIPNet
  rw [if_neg hs, h]

theorem parseFlowDescIPNet_ip {ip : List UInt8} (hs : ¬ (s = "any".toList ∨ s = "assigned".toList))
    (hcidr : net.parseCIDR s = none) (h : net.parseIP s = some ip) : parseFlowDescIPNet net s =
      .ok ⟨(to4 ip).getD ip, cidrMask (((to4 ip).getD ip).length * 8)
        ((to4 ip).getD ip).length⟩ := by
  unfold parseFlowDescIPNet
  rw [if_neg hs, hcidr, h]

theorem parseFlowDescIPNet_of_readBy {a : Addr} (h : a.ReadBy net) :
    parseFlowDescIPNet net a.token = .ok a.net := by
  cases a with
  | any => rfl
  | assigned => rfl
  | ip a =>
    obtain ⟨hcidr, hip⟩ : net.ReadsIP a := h
    have hparse := parseFlowDescIPNet_ip (IPText.not_any_or_assigned a) hcidr hip
    rw [ipnet_eq_host] at hparse
    exact hparse
  | cidr n => exact parseFlowDescIPNet_cidr (not_any_or_assigned (Or.inr (Or.inr n.slash_mem))) h

theorem addr_of_parseFlowDescIPNet (hnet : net.Sound) {n : IPNet}
    (h : parseFlowDescIPNet net t = .ok n) : ∃ a : Addr, a.token = t ∧ a.net = n := by
  unfold parseFlowDescIPNet at h
  split_ifs at h with hword
  · cases h
    rcases hword with rfl | rfl
    · exact ⟨.any, rfl, rfl⟩
    · exact ⟨.assigned, rfl, rfl⟩
  · split at h
    · rename_i ipnet hcidr
      obtain ⟨c, rfl, rfl⟩ := hnet.cidr t ipnet hcidr
      cases h
      exact ⟨.cidr c, rfl, rfl⟩
    · split at h
      · cases h
      · rename_i ip hip
        obtain ⟨a, rfl, rfl⟩ := hnet.ip t ip hip
        cases h
        exact ⟨.ip a, rfl, (ipnet_eq_host a).symm⟩

/-! ## The fields in order -/

theorem tokenAt_eq_ok : tokenAt token pos = .ok t ↔ ∃ rest, token.drop pos = t :: rest := by
  unfold tokenAt
  rw [← List.head?_drop]
  cases token.drop pos with
  | nil =>
    constructor
    · intro h
      cases h
    · rintro ⟨rest, h⟩
      cases h
  | cons u rest =>
    constructor
    · intro h
      cases h
      exact ⟨rest, rfl⟩
    · rintro ⟨rest', h⟩
      cases h
      rfl

theorem tokenAt_bind_eq_ok {α : Type} {f : List Char → Except Err α} {v : α} :
    tokenAt token pos >>= f = .ok v ↔ ∃ t rest, token.drop pos = t :: rest ∧ f t = .ok v := by
  rw [bind_eq_ok]
  constructor
  · rintro ⟨t, ht, hf⟩
    obtain ⟨rest, hrest⟩ := tokenAt_eq_ok.mp ht
    exact ⟨t, rest, hrest, hf⟩
  · rintro ⟨t, rest, hrest, hf⟩
    exact ⟨t, tokenAt_eq_ok.mpr ⟨rest, hrest⟩, hf⟩

theorem drop_succ_of_drop {rest : List (List Char)} (h : token.drop pos = t :: rest) :
    token.drop (pos + 1) = rest := by
  rw [← List.drop_drop, h]
  rfl

theorem expect_eq_ok {word : String} {err : Err} :
    expect word err t = .ok () ↔ t = word.toList := by
  unfold expect
  split_ifs with h
  · exact ⟨fun _ => h, fun _ => rfl⟩
  · exact ⟨nofun, fun h' => absurd h' h⟩

theorem sourcePorts_ok (pos : Nat) (h : parseFlowDescPorts t = .ok vss) :
    sourcePorts t pos = (vss, pos + 1) := by
  unfold sourcePorts
  rw [h]

theorem sourcePorts_cases (t : List Char) (pos : Nat) :
    (∃ vss, parseFlowDescPorts t = .ok vss ∧ sourcePorts t pos = (vss, pos + 1)) ∨
      ((∀ vss, parseFlowDescPorts t ≠ .ok vss) ∧ sourcePorts t pos = ([], pos)) := by
  unfold sourcePorts
  cases parseFlowDescPorts t with
  | ok vss => exact Or.inl ⟨vss, rfl, rfl⟩
  | error e => exact Or.inr ⟨nofun, rfl⟩

theorem sourcePorts_to (pos : Nat) : sourcePorts "to".toList pos = ([], pos) := by
  rcases sourcePorts_cases "to".toList pos with ⟨vss, h, _⟩ | ⟨_, h⟩
  · exact absurd h (parseFlowDescPorts_to vss)
  · exact h

theorem parseAction_eq_ok {v : Action} : parseAction t = .ok v ↔ t = "permit".toList := by
  unfold parseAction
  split_ifs with h
  · exact ⟨fun _ => h, fun _ => rfl⟩
  · exact ⟨nofun, fun h' => absurd h' h⟩

theorem parseTo_eq_ok {dst : IPNet × List (List UInt16)} :
    parseTo net token pos = .ok dst ↔ ∃ b after, token.drop pos = "to".toList :: b :: after ∧
      parseFlowDescIPNet net b = .ok dst.1 ∧ dst.2 = destinationPorts after.head? := by
  have hports {u b : List Char} {after : List (List Char)} (h : token.drop pos = u :: b :: after) :
      token[pos + 2]? = after.head? := by
    rw [← drop_succ_of_drop (drop_succ_of_drop h), List.head?_drop]
  unfold parseTo
  constructor
  · intro h
    obtain ⟨_, hto, h⟩ := bind_eq_ok.mp h
    obtain ⟨n, hdst, h⟩ := bind_eq_ok.mp h
    obtain ⟨u, rest, hdrop, hto⟩ := tokenAt_bind_eq_ok.mp hto
    obtain ⟨b, after, hdrop', hdst⟩ := tokenAt_bind_eq_ok.mp hdst
    rw [drop_succ_of_drop hdrop] at hdrop'
    rw [hdrop'] at hdrop
    rw [hports hdrop] at h
    cases expect_eq_ok.mp hto
    cases h
    exact ⟨b, after, hdrop, hdst, rfl⟩
  · rintro ⟨b, after, hdrop, hdst, hdp⟩
    rw [hports hdrop, ← hdp]
    refine bind_eq_ok.mpr ⟨(), tokenAt_bind_eq_ok.mpr ⟨_, _, hdrop, expect_eq_ok.mpr rfl⟩, ?_⟩
    exact bind_eq_ok.mpr
      ⟨dst.1, tokenAt_bind_eq_ok.mpr ⟨b, after, drop_succ_of_drop hdrop, hdst⟩, rfl⟩

/-- The parser up to the source, field by field. -/
theorem parseTokens_eq_ok {fd : FlowDesc} :
    parseTokens net token = .ok fd ↔ ∃ d p a t rest,
      token = "permit".toList :: d :: p :: "from".toList :: a :: t :: rest ∧
      parseDir d = .ok fd.dir ∧ parseProto p = .ok fd.proto ∧
      parseFlowDescIPNet net a = .ok fd.src ∧ fd.srcPorts = (sourcePorts t 5).1 ∧
      parseTo net token (sourcePorts t 5).2 = .ok (fd.dst, fd.dstPorts) := by
  unfold parseTokens
  constructor
  · intro h
    obtain ⟨action, haction, h⟩ := bind_eq_ok.mp h
    obtain ⟨dir, hdir, h⟩ := bind_eq_ok.mp h
    obtain ⟨proto, hproto, h⟩ := bind_eq_ok.mp h
    obtain ⟨_, hfrom, h⟩ := bind_eq_ok.mp h
    obtain ⟨src, hsrc, h⟩ := bind_eq_ok.mp h
    obtain ⟨t, ht, h⟩ := bind_eq_ok.mp h
    obtain ⟨dst, hdst, h⟩ := bind_eq_ok.mp h
    cases h
    obtain ⟨t0, r0, h0, haction⟩ := tokenAt_bind_eq_ok.mp haction
    obtain ⟨d, r1, h1, hdir⟩ := tokenAt_bind_eq_ok.mp hdir
    obtain ⟨p, r2, h2, hproto⟩ := tokenAt_bind_eq_ok.mp hproto
    obtain ⟨t3, r3, h3, hfrom⟩ := tokenAt_bind_eq_ok.mp hfrom
    obtain ⟨a, r4, h4, hsrc⟩ := tokenAt_bind_eq_ok.mp hsrc
    obtain ⟨r5, h5⟩ := tokenAt_eq_ok.mp ht
    -- each field is the head of what is left after the one before
    rw [drop_succ_of_drop h4] at h5
    rw [drop_succ_of_drop h3, h5] at h4
    rw [drop_succ_of_drop h2, h4] at h3
    rw [drop_succ_of_drop h1, h3] at h2
    rw [drop_succ_of_drop h0, h2] at h1
    rw [List.drop_zero, h1, parseAction_eq_ok.mp haction, expect_eq_ok.mp hfrom] at h0
    exact ⟨d, p, a, t, r5, h0, hdir, hproto, hsrc, rfl, hdst⟩
  · rintro ⟨d, p, a, t, rest, htoken, hd, hp, ha, hsp, hto⟩
    have h0 : token.drop 0 = "permit".toList :: d :: p :: "from".toList :: a :: t :: rest := htoken
    have h1 := drop_succ_of_drop h0
    have h2 := drop_succ_of_drop h1
    have h3 := drop_succ_of_drop h2
    have h4 := drop_succ_of_drop h3
    have h5 := drop_succ_of_drop h4
    refine bind_eq_ok.mpr ⟨.permit, tokenAt_bind_eq_ok.mpr ⟨_, _, h0, rfl⟩, ?_⟩
    refine bind_eq_ok.mpr ⟨fd.dir, tokenAt_bind_eq_ok.mpr ⟨_, _, h1, hd⟩, ?_⟩
    refine bind_eq_ok.mpr ⟨fd.proto, tokenAt_bind_eq_ok.mpr ⟨_, _, h2, hp⟩, ?_⟩
    refine bind_eq_ok.mpr ⟨(), tokenAt_bind_eq_ok.mpr ⟨_, _, h3, rfl⟩, ?_⟩
    refine bind_eq_ok.mpr ⟨fd.src, tokenAt_bind_eq_ok.mpr ⟨_, _, h4, ha⟩, ?_⟩
    refine bind_eq_ok.mpr ⟨t, tokenAt_eq_ok.mpr ⟨_, h5⟩, ?_⟩
    refine bind_eq_ok.mpr ⟨_, hto, ?_⟩
    rw [← hsp, pure_eq_ok]

/-! ## Rules are read as what they mean -/

theorem Port.visible (p : Port) {c : Char} (h : c ∈ p.token) : Visible c := by
  cases p with
  | single d => exact d.numeral.visible h
  | range d e =>
    rcases List.mem_append.mp h with h | h
    · exact d.numeral.visible h
    · rcases List.mem_cons.mp h with rfl | h
      · decide
      · exact e.numeral.visible h

theorem Port.token_ne_nil (p : Port) : p.token ≠ [] := by
  cases p with
  | single d => exact d.numeral.ne_nil
  | range d e => exact List.append_ne_nil_of_left_ne_nil d.numeral.ne_nil _

theorem word_portsToken {ps : List Port} (h : ps ≠ []) : Word (portsToken ps) := by
  refine word_of_visible ?_ fun c hc => ?_
  · cases ps with
    | nil => exact absurd rfl h
    | cons p ps =>
      unfold portsToken
      cases ps with
      | nil =>
        rw [List.map_cons, List.map_nil, List.intercalate_singleton]
        exact p.token_ne_nil
      | cons q ps =>
        rw [List.map_cons, List.map_cons, List.intercalate_cons_cons, List.append_assoc]
        exact List.append_ne_nil_of_left_ne_nil p.token_ne_nil _
  · rcases mem_intercalate hc with rfl | ⟨s, hs, hc⟩
    · decide
    · obtain ⟨p, _, rfl⟩ := List.mem_map.mp hs
      exact p.visible hc

theorem Endpoint.portsTokens_nil {e : Endpoint} (h : e.ports = []) : e.portsTokens = [] := by
  unfold portsTokens
  rw [h]

theorem Endpoint.portsTokens_of_ne_nil {e : Endpoint} (h : e.ports ≠ []) :
    e.portsTokens = [portsToken e.ports] := by
  unfold portsTokens
  split
  · rename_i hnil
    exact absurd hnil h
  · rfl

theorem destinationPorts_rule (e : Endpoint) :
    destinationPorts e.portsTokens.head? = e.ports.map Port.values := by
  by_cases h : e.ports = []
  · rw [e.portsTokens_nil h, h]
    rfl
  · have hparse := parseFlowDescPorts_eq_ok.mpr ⟨e.ports, h, rfl, rfl⟩
    rw [e.portsTokens_of_ne_nil h]
    unfold destinationPorts
    rw [List.head?_cons]
    dsimp only
    rw [hparse]

/-- Where the parser finds the `to` of a rule. -/
theorem sourcePorts_rule (e : Endpoint) (after : List (List Char)) :
    ∃ t rest, e.portsTokens ++ "to".toList :: after = t :: rest ∧
      sourcePorts t 5 = (e.ports.map Port.values, 5 + e.portsTokens.length) := by
  by_cases h : e.ports = []
  · refine ⟨"to".toList, after, ?_, ?_⟩
    · rw [e.portsTokens_nil h]
      rfl
    · rw [e.portsTokens_nil h, h]
      exact sourcePorts_to 5
  · refine ⟨portsToken e.ports, "to".toList :: after, ?_, ?_⟩
    · rw [e.portsTokens_of_ne_nil h]
      rfl
    · rw [e.portsTokens_of_ne_nil h]
      exact sourcePorts_ok 5 (parseFlowDescPorts_eq_ok.mpr ⟨e.ports, h, rfl, rfl⟩)

theorem IPFilterRule.tokens_eq {r : IPFilterRule} {rest : List (List Char)}
    (h : r.src.portsTokens ++ "to".toList :: r.dst.tokens = t :: rest) :
    r.tokens = "permit".toList :: r.dir.token :: r.proto.token :: "from".toList ::
      r.src.addr.token :: t :: rest := by
  rw [← h]
  rfl

theorem IPFilterRule.drop_to (r : IPFilterRule) :
    r.tokens.drop (5 + r.src.portsTokens.length) = "to".toList :: r.dst.tokens := by
  unfold tokens Endpoint.tokens
  rw [← List.drop_drop]
  exact List.drop_left

theorem IPFilterRule.parseTokens (r : IPFilterRule) (hsrc : r.src.addr.ReadBy net)
    (hdst : r.dst.addr.ReadBy net) : parseTokens net r.tokens = .ok r.meaning := by
  obtain ⟨t, rest, htokens, hsp⟩ := sourcePorts_rule r.src r.dst.tokens
  refine parseTokens_eq_ok.mpr ⟨r.dir.token, r.proto.token, r.src.addr.token, t, rest,
    r.tokens_eq htokens, parseDir_eq_ok.mpr rfl, parseProto_eq_ok.mpr ⟨r.proto, rfl, rfl⟩,
    parseFlowDescIPNet_of_readBy hsrc, ?_, ?_⟩
  · rw [hsp]
    rfl
  · rw [hsp]
    exact parseTo_eq_ok.mpr ⟨r.dst.addr.token, r.dst.portsTokens, r.drop_to,
      parseFlowDescIPNet_of_readBy hdst, (destinationPorts_rule r.dst).symm⟩

theorem Dir.word (d : Dir) : Word d.token := by
  cases d with
  | dirIn => exact word_of_visible (by decide) (forall_mem_of_all (by decide))
  | dirOut => exact word_of_visible (by decide) (forall_mem_of_all (by decide))

theorem Proto.word (p : Proto) : Word p.token := by
  cases p with
  | ip => exact word_of_visible (by decide) (forall_mem_of_all (by decide))
  | number d => exact d.numeral.word

theorem Addr.word (a : Addr) : Word a.token := by
  cases a with
  | any => exact word_of_visible (by decide) (forall_mem_of_all (by decide))
  | assigned => exact word_of_visible (by decide) (forall_mem_of_all (by decide))
  | ip a => exact a.word
  | cidr n => exact n.word

theorem Endpoint.word_of_mem_tokens (e : Endpoint) (ht : t ∈ e.tokens) : Word t := by
  rcases List.mem_cons.mp ht with rfl | ht
  · exact e.addr.word
  · by_cases h : e.ports = []
    · rw [e.portsTokens_nil h] at ht
      exact absurd ht List.not_mem_nil
    · rw [e.portsTokens_of_ne_nil h, List.mem_singleton] at ht
      subst ht
      exact word_portsToken h

theorem IPFilterRule.word_of_mem_tokens (r : IPFilterRule) (ht : t ∈ r.tokens) : Word t := by
  unfold tokens at ht
  rw [List.mem_cons, List.mem_cons, List.mem_cons, List.mem_cons, List.mem_append,
    List.mem_cons] at ht
  rcases ht with rfl | rfl | rfl | rfl | ht | rfl | ht
  · exact word_of_visible (by decide) (forall_mem_of_all (by decide))
  · exact r.dir.word
  · exact r.proto.word
  · exact word_of_visible (by decide) (forall_mem_of_all (by decide))
  · exact r.src.word_of_mem_tokens ht
  · exact word_of_visible (by decide) (forall_mem_of_all (by decide))
  · exact r.dst.word_of_mem_tokens ht

/-- A rule is read as what it means, whatever white space stands between its fields. -/
theorem parseFlowDesc_rule (net : NetParsers) (r : IPFilterRule) {s : List Char}
    (hsrc : r.src.addr.ReadBy net) (hdst : r.dst.addr.ReadBy net) (hs : Spaced r.tokens s) :
    parseFlowDesc net s = .ok r.meaning := by
  unfold parseFlowDesc
  rw [fields_of_spaced (fun t ht => r.word_of_mem_tokens ht) hs]
  exact r.parseTokens hsrc hdst

/-- UDP from two lists of ports of a subnet. -/
def udpRule : IPFilterRule where
  dir := .dirOut
  proto := .number ⟨"17".toList, ⟨by decide, forall_mem_of_all (by decide)⟩, by decide⟩
  src := ⟨.cidr ⟨.v4 ⟨10, 60, 0, 1⟩, "16".toList, ⟨by decide, forall_mem_of_all (by decide)⟩, by decide⟩,
    [.single ⟨"53".toList, ⟨by decide, forall_mem_of_all (by decide)⟩, by decide⟩,
      .range ⟨"1000".toList, ⟨by decide, forall_mem_of_all (by decide)⟩, by decide⟩
        ⟨"2000".toList, ⟨by decide, forall_mem_of_all (by decide)⟩, by decide⟩]⟩
  dst := ⟨.assigned, []⟩

/-- Parsers that know the network of `udpRule`. -/
def subnetParsers : NetParsers where
  parseIP := fun _ => none
  parseCIDR := fun t =>
    if t = udpRule.src.addr.token then some udpRule.src.addr.net else none

theorem parseFlowDesc_udpRule :
    parseFlowDesc subnetParsers
      "permit out\t17  from 10.60.0.1/16 53,1000-2000 to assigned\n".toList =
      .ok ⟨.permit, .dirOut, 17, ⟨[10, 60, 0, 0], [255, 255, 0, 0]⟩,
        ⟨List.replicate 16 0, List.replicate 16 0⟩, [[53], [1000, 2000]], []⟩ := by
  have hspaced := Spaced.cons (w := []) (t := "permit".toList) (by decide)
      (space_of_head (by decide))
    (Spaced.cons (w := " ".toList) (t := "out".toList) (by decide)
      (space_of_head (by decide))
    (Spaced.cons (w := "\t".toList) (t := "17".toList) (by decide)
      (space_of_head (by decide))
    (Spaced.cons (w := "  ".toList) (t := "from".toList) (by decide)
      (space_of_head (by decide))
    (Spaced.cons (w := " ".toList) (t := "10.60.0.1/16".toList) (by decide)
      (space_of_head (by decide))
    (Spaced.cons (w := " ".toList) (t := "53,1000-2000".toList) (by decide)
      (space_of_head (by decide))
    (Spaced.cons (w := " ".toList) (t := "to".toList) (by decide)
      (space_of_head (by decide))
    (Spaced.cons (w := " ".toList) (t := "assigned".toList) (by decide)
      (space_of_head (by decide))
    (Spaced.nil (w := "\n".toList) (by decide)))))))))
  exact parseFlowDesc_rule subnetParsers udpRule rfl trivial hspaced

/-! ## What is read without error -/

/-- The fields after the address of the destination. -/
def afterDestination (token : List (List Char)) : List (List Char) :=
  token.drop ((sourcePorts (token.getD 5 []) 5).2 + 2)

/-- Nothing, or one list of ports. -/
def PortsOrNothing (after : List (List Char)) : Prop :=
  after = [] ∨ ∃ t vss, after = [t] ∧ parseFlowDescPorts t = .ok vss

theorem afterDestination_rule (r : IPFilterRule) :
    afterDestination r.tokens = r.dst.portsTokens := by
  obtain ⟨t, rest, htokens, hsp⟩ := sourcePorts_rule r.src r.dst.tokens
  have ht : r.tokens.getD 5 [] = t := by
    rw [r.tokens_eq htokens]
    rfl
  unfold afterDestination
  rw [ht, hsp]
  exact drop_succ_of_drop (drop_succ_of_drop r.drop_to)

theorem portsOrNothing_rule (r : IPFilterRule) : PortsOrNothing (afterDestination r.tokens) := by
  rw [afterDestination_rule]
  by_cases h : r.dst.ports = []
  · exact Or.inl (Endpoint.portsTokens_nil h)
  · exact Or.inr ⟨_, _, Endpoint.portsTokens_of_ne_nil h,
      parseFlowDescPorts_eq_ok.mpr ⟨r.dst.ports, h, rfl, rfl⟩⟩

theorem endpoint_of_portsOrNothing (a : Addr) {after : List (List Char)}
    (h : PortsOrNothing after) : ∃ e : Endpoint, e.addr = a ∧ e.portsTokens = after ∧
      e.ports.map Port.values = destinationPorts after.head? := by
  obtain ⟨e, ha, htokens⟩ : ∃ e : Endpoint, e.addr = a ∧ e.portsTokens = after := by
    rcases h with rfl | ⟨t, vss, rfl, hparse⟩
    · exact ⟨⟨a, []⟩, rfl, rfl⟩
    · obtain ⟨ps, hne, rfl, _⟩ := parseFlowDescPorts_eq_ok.mp hparse
      exact ⟨⟨a, ps⟩, rfl, Endpoint.portsTokens_of_ne_nil hne⟩
  refine ⟨e, ha, htokens, ?_⟩
  rw [← destinationPorts_rule, htokens]

/-- The ports of the source, found or not, and the place of the `to`. -/
theorem endpoint_of_sourcePorts (a : Addr) (t : List Char) :
    ∃ e : Endpoint, e.addr = a ∧ e.ports.map Port.values = (sourcePorts t 5).1 ∧
      (sourcePorts t 5).2 = 5 + e.portsTokens.length ∧
      (e.portsTokens = [] ∨ e.portsTokens = [t]) := by
  rcases sourcePorts_cases t 5 with ⟨vss, hparse, hsp⟩ | ⟨_, hsp⟩
  · obtain ⟨ps, hne, rfl, rfl⟩ := parseFlowDescPorts_eq_ok.mp hparse
    have htokens : (Endpoint.mk a ps).portsTokens = [portsToken ps] :=
      Endpoint.portsTokens_of_ne_nil hne
    rw [hsp]
    exact ⟨⟨a, ps⟩, rfl, rfl, by rw [htokens]; rfl, Or.inr htokens⟩
  · rw [hsp]
    exact ⟨⟨a, []⟩, rfl, rfl, rfl, Or.inl rfl⟩

/-- A text that is read without error is a rule, with the meaning that was read, exactly when
    nothing or one list of ports follows the address of its destination. -/
theorem parseFlowDesc_consumes_iff {net : NetParsers} (hnet : net.Sound) {s : List Char}
    {fd : FlowDesc} (h : parseFlowDesc net s = .ok fd) :
    (∃ r : IPFilterRule, r.tokens = fields s ∧ r.meaning = fd) ↔
      PortsOrNothing (afterDestination (fields s)) := by
  constructor
  · rintro ⟨r, htokens, _⟩
    rw [← htokens]
    exact portsOrNothing_rule r
  · intro hafter
    unfold parseFlowDesc at h
    obtain ⟨d, p, a, t, rest, htoken, hd, hp, ha, hsp, hto⟩ := parseTokens_eq_ok.mp h
    obtain ⟨b, after, hdrop, hb, hdp⟩ := parseTo_eq_ok.mp hto
    obtain ⟨proto, rfl, hproto⟩ := parseProto_eq_ok.mp hp
    obtain ⟨srcAddr, rfl, hsrc⟩ := addr_of_parseFlowDescIPNet hnet ha
    obtain ⟨dstAddr, rfl, hdst⟩ := addr_of_parseFlowDescIPNet hnet hb
    have hafter' : afterDestination (fields s) = after := by
      unfold afterDestination
      rw [htoken] at hdrop ⊢
      exact drop_succ_of_drop (drop_succ_of_drop hdrop)
    rw [hafter'] at hafter
    obtain ⟨src, rfl, hsports, hpos, hstokens⟩ := endpoint_of_sourcePorts srcAddr t
    obtain ⟨dst, rfl, hdtokens, hdports⟩ := endpoint_of_portsOrNothing dstAddr hafter
    have hrest : src.portsTokens ++ "to".toList :: dst.tokens = t :: rest := by
      rw [Endpoint.tokens, hdtokens]
      rw [htoken, hpos] at hdrop
      rcases hstokens with hnone | hports
      · rw [hnone] at hdrop ⊢
        exact hdrop.symm
      · rw [hports] at hdrop ⊢
        exact congrArg (t :: ·) hdrop.symm
    refine ⟨⟨fd.dir, proto, src, dst⟩, ?_, ?_⟩
    · rw [IPFilterRule.tokens_eq hrest, htoken, ← parseDir_eq_ok.mp hd]
    · unfold IPFilterRule.meaning
      dsimp only at hdp
      rw [hproto, hsrc, hdst, hsports, hdports, ← hsp, ← hdp]

theorem sound_subnetParsers : subnetParsers.Sound := by
  refine ⟨nofun, fun t n h => ?_⟩
  unfold subnetParsers at h
  dsimp only at h
  split_ifs at h with ht
  cases h
  exact ⟨_, ht.symm, rfl⟩

/-- A rule with a list of ports at its end. -/
theorem parseFlowDesc_consumes_ports :
    let s := "permit in ip from any to 10.60.0.1/16 80,443".toList
    ∃ r : IPFilterRule, r.tokens = fields s ∧
      r.meaning = ⟨.permit, .dirIn, 0xff, Addr.any.net, ⟨[10, 60, 0, 0], [255, 255, 0, 0]⟩, [],
        [[80], [443]]⟩ := by
  intro s
  have hports : parseFlowDescPorts "80,443".toList = .ok [[80], [443]] := by decide
  have hparse : parseFlowDesc subnetParsers s = .ok ⟨.permit, .dirIn, 0xff, Addr.any.net,
    ⟨[10, 60, 0, 0], [255, 255, 0, 0]⟩, [], [[80], [443]]⟩ := by decide
  exact (parseFlowDesc_consumes_iff sound_subnetParsers hparse).mpr
    (Or.inr ⟨_, _, rfl, hports⟩)

/-- A filter for one port, mistyped, is read as a filter for all ports, and what was typed is
    no rule. -/
theorem parseFlowDesc_passes_over_tail :
    let s := "permit out ip from any to assigned 80x".toList
    (∀ net, parseFlowDesc net s =
      .ok ⟨.permit, .dirOut, 0xff, Addr.any.net, Addr.any.net, [], []⟩) ∧
      ¬ ∃ r : IPFilterRule, r.tokens = fields s := by
  intro s
  refine ⟨fun net => rfl, ?_⟩
  rintro ⟨r, htokens⟩
  have hports := portsOrNothing_rule r
  have hafter : afterDestination (fields s) = ["80x".toList] := by decide
  rw [htokens, hafter] at hports
  rcases hports with h | ⟨t, vss, h, hparse⟩
  · cases h
  · cases h
    have herr : parseFlowDescPorts "80x".toList = .error (.num ⟨"80x".toList, .errSyntax⟩) := by
      decide
    rw [herr] at hparse
    cases hparse

end Free5gc.Upf.Flow
