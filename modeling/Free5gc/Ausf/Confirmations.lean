/-
  Which confirmations the AUSF answers with SUCCESS, over whole runs.

  A `Monitor` keeps, for each SUPI, the vector issued last and whether a confirmation for it has
  failed. An answer is right if a SUCCESS goes only to the response of that vector, on the
  resource of its method, with no failure before.

  Two slips let wrong ones through: the confirmation of 5G AKA accepts an empty response where
  the context has no XRES*, and never looks at the status of the context; that of EAP-AKA'
  forgets a failure which it could not report to the UDM. Without them (`Guarded`) every answer
  is right.
-/
import Free5gc.Ausf.UeAuthentication
import Free5gc.Lib.Fallible
import Free5gc.Lib.Run

namespace Free5gc.Ausf

open Free5gc.Lib

/-! ## Runs -/

inductive Call where
  | post (info : AuthenticationInfo) (up : Upstream)
  | confirm5gAka (id resStar : List Char) (sent : Bool)
  | confirmEap (id : List Char) (content : Option EapContent) (sent : Bool) (up : Upstream)

def handle (env : Env) (w : AUSFContext) : Call → Reply × AUSFContext
  | .post info up => ueAuthPost env w info up
  | .confirm5gAka id resStar sent => confirm5gAka w id resStar sent
  | .confirmEap id content sent up => confirmEap env w id content sent up

/-- What has happened for each SUPI. -/
structure Monitor where
  issued : List Char → Option (AuthType × List Char)
  failed : List Char → Bool

def Monitor.issue (m : Monitor) (supi : List Char) (vector : AuthType × List Char) : Monitor :=
  ⟨Function.update m.issued supi (some vector), Function.update m.failed supi false⟩

def Monitor.fail (m : Monitor) (supi : List Char) (fails : Bool) : Monitor :=
  { m with failed := Function.update m.failed supi (m.failed supi || fails) }

def Reply.issues : Reply → Bool
  | .challenge5gAka _ _ _ => true
  | .challengeEap _ _ _ => true
  | _ => false

/-- A challenge issues the vector that the UDM gave. -/
def Monitor.take (m : Monitor) (up : Upstream) (reply : Reply) : Monitor :=
  match up.udm, reply with
  | .ok r, .challenge5gAka _ _ _ => m.issue r.supi (.fiveGAka, r.xresStar)
  | .ok r, .challengeEap _ _ _ => m.issue r.supi (.eapAkaPrime, r.xres)
  | _, _ => m

/-- The confirmation has the expected response, on the resource of the method. -/
def Call.contains : Call → AuthType → List Char → Bool
  | .confirm5gAka _ resStar _, .fiveGAka, x => equalFold resStar x
  | .confirmEap _ (some content) _ _, .eapAkaPrime, x =>
    match decodeEapAkaPrime content.contents with
    | .ok pkt => (pkt.attributes.lookup 3).any fun res => equalFold (encodeHex res) x
    | .error _ => false
  | _, _, _ => false

def Verdict.fails : Except Fault Verdict → Bool
  | .ok .right => false
  | .ok .resync => false
  | _ => true

def Monitor.observe (env : Env) (m : Monitor) (w : AUSFContext) (reply : Reply) : Call → Monitor
  | .post _ up => m.take up reply
  | .confirm5gAka id resStar sent =>
    (w.find id).elim m fun (supi, _) => m.fail supi
      !(m.issued supi).any fun v => (Call.confirm5gAka id resStar sent).contains v.1 v.2
  | .confirmEap id content _ up =>
    (w.find id).elim m fun (supi, ctx) =>
      (m.fail supi (Verdict.fails (judge env ctx content))).take up reply

structure World where
  ausf : AUSFContext
  monitor : Monitor
  answers : List (Monitor × Call × Reply)

def World.start : World := ⟨⟨∅, ∅⟩, ⟨fun _ => none, fun _ => false⟩, []⟩

def step (env : Env) (s : World) (call : Call) : World :=
  let (reply, ausf) := handle env s.ausf call
  ⟨ausf, s.monitor.observe env s.ausf reply call, (s.monitor, call, reply) :: s.answers⟩

/-- The SUPI of a SUCCESS. -/
def Reply.succeeded : Reply → Option (List Char)
  | .confirmation .success supi _ => some supi
  | .eapSession _ (some .success) supi _ => some supi
  | _ => none

/-- A SUCCESS is for the response of the vector issued last, and none has failed for it. -/
def Right (m : Monitor) (call : Call) (reply : Reply) : Prop :=
  ∀ supi, reply.succeeded = some supi → ∃ method x, m.issued supi = some (method, x) ∧
    call.contains method x = true ∧ m.failed supi = false

/-- The failure of an EAP confirmation gets into the context. -/
def Verdict.kept (sent : Bool) : Except Fault Verdict → Bool
  | .ok .bad => sent
  | .ok _ => true
  | .error _ => false

def Guarded (env : Env) (s : World) : Call → Prop
  | .post _ _ => True
  | .confirm5gAka id resStar _ => ∀ x ∈ s.ausf.find id,
    (resStar = [] → x.2.xresStar ≠ []) ∧
      (equalFold resStar x.2.xresStar = true → x.2.authStatus ≠ .failure)
  | .confirmEap id content sent _ => ∀ x ∈ s.ausf.find id,
    x.2.authStatus ≠ .failure → Verdict.kept sent (judge env x.2 content) = true

instance (env : Env) (s : World) : (call : Call) → Decidable (Guarded env s call)
  | .post _ _ => .isTrue trivial
  | .confirm5gAka id resStar _ => inferInstanceAs (Decidable (∀ x ∈ s.ausf.find id,
      (resStar = [] → x.2.xresStar ≠ []) ∧
        (equalFold resStar x.2.xresStar = true → x.2.authStatus ≠ .failure)))
  | .confirmEap id content sent _ => inferInstanceAs (Decidable (∀ x ∈ s.ausf.find id,
      x.2.authStatus ≠ .failure → Verdict.kept sent (judge env x.2 content) = true))

/-! ## What a packet that is judged right has in it -/

theorem length_of_atRes {attr attr' value : List UInt8}
    (h : attributeValue 3 attr = .ok (some value, attr')) : 4 ≤ value.length := by
  unfold attributeValue at h
  rw [if_pos rfl] at h
  obtain ⟨bits, -, h⟩ := bind_eq_ok.mp h
  obtain ⟨hlen, h⟩ := failIf_eq_ok.mp h
  simp only [Except.ok.injEq, Prod.mk.injEq, Option.some.injEq] at h
  rw [← h.1, List.length_take, List.length_drop]
  omega

/-- The responses read so far have at least four bytes. -/
def LongRes (attributes : List (UInt8 × List UInt8)) : Prop :=
  ∀ a ∈ attributes, a.1 = 3 → 4 ≤ a.2.length

theorem longRes_decodeAttribute {s : List (UInt8 × List UInt8) × List UInt8} {data : List UInt8}
    {r : (List (UInt8 × List UInt8) × List UInt8) × List UInt8} (h : decodeAttribute s data = .ok r)
    (hs : LongRes s.1) : LongRes r.1.1 := by
  unfold decodeAttribute at h
  obtain ⟨attrType, -, h⟩ := bind_eq_ok.mp h
  obtain ⟨length, -, h⟩ := bind_eq_ok.mp h
  obtain ⟨-, h⟩ := failIf_eq_ok.mp h
  obtain ⟨-, h⟩ := failIf_eq_ok.mp h
  obtain ⟨attr, -, h⟩ := bind_eq_ok.mp h
  obtain ⟨rest, -, h⟩ := bind_eq_ok.mp h
  obtain ⟨⟨value, left⟩, hvalue, h⟩ := bind_eq_ok.mp h
  obtain rfl := Except.ok.inj h
  cases value with
  | none => exact hs
  | some value =>
    intro a ha hthree
    obtain rfl | ha := List.mem_cons.mp ha
    · subst hthree
      exact length_of_atRes hvalue
    · exact hs a (List.mem_filter.mp ha).1 hthree

theorem decodeEapAkaPrime_checked {eapPkt : List UInt8} {pkt : EapAkaPrimePkt}
    (h : decodeEapAkaPrime eapPkt = .ok pkt) :
    LongRes pkt.attributes ∧ checkAttributes pkt.subtype pkt.attributes = .ok () := by
  unfold decodeEapAkaPrime at h
  obtain ⟨data, -, h⟩ := bind_eq_ok.mp h
  obtain ⟨subtype, -, h⟩ := bind_eq_ok.mp h
  obtain ⟨s, hs, h⟩ := bind_eq_ok.mp h
  obtain ⟨_, hcheck, h⟩ := bind_eq_ok.mp h
  rw [← Except.ok.inj h]
  refine ⟨?_, hcheck⟩
  exact loop_inv (fun s => LongRes s.1) (fun _ _ _ => longRes_decodeAttribute) hs (by simp [LongRes])

/-- A response to a challenge has an AT_RES. -/
theorem atRes_of_challenge {eapPkt : List UInt8} {pkt : EapAkaPrimePkt}
    (h : decodeEapAkaPrime eapPkt = .ok pkt) (hsubtype : pkt.subtype = 1) :
    ∃ res, pkt.attributes.lookup 3 = some res ∧ 4 ≤ res.length := by
  obtain ⟨hlong, hcheck⟩ := decodeEapAkaPrime_checked h
  cases hres : pkt.attributes.lookup 3 with
  | none => simp [checkAttributes, hsubtype, hres, failIf] at hcheck
  | some res =>
    obtain ⟨l₁, l₂, heq, -⟩ := List.lookup_eq_some_iff.mp hres
    exact ⟨res, rfl, hlong (3, res) (by rw [heq]; simp) rfl⟩

variable {ctx : AusfUeContext} {issued : Option (AuthType × List Char)} {failed : Bool}
  {call : Call} {reply : Reply}

/-- The packet has the XRES of the context, and that is not empty. -/
theorem contains_of_judge {env : Env} {content : Option EapContent}
    (h : judge env ctx content = .ok .right) (id : List Char) (sent : Bool) (up : Upstream) :
    ctx.xres ≠ [] ∧
      (Call.confirmEap id content sent up).contains .eapAkaPrime ctx.xres = true := by
  cases content with
  | none => simp [judge] at h
  | some content =>
    cases hpkt : decodeEapAkaPrime content.contents with
    | error f => cases f <;> simp only [judge, hpkt] at h <;> split_ifs at h <;> cases h
    | ok pkt =>
      simp only [judge, hpkt] at h
      split_ifs at h with hcode hsubtype hmac hxres <;> cases h
      obtain ⟨res, hres, hlen⟩ := atRes_of_challenge hpkt hsubtype
      rw [hres, Option.getD_some] at hxres
      constructor
      · intro hnil
        have := congrArg List.length (hnil.symm.trans hxres)
        rw [length_encodeHex, List.length_nil] at this
        omega
      · simp [Call.contains, hpkt, hres, hxres, equalFold_refl]

/-! ## The context agrees with what has happened -/

structure Agrees (ctx : AusfUeContext) (issued : Option (AuthType × List Char)) (failed : Bool) :
    Prop where
  fiveG : ctx.xresStar ≠ [] → issued = some (.fiveGAka, ctx.xresStar)
  eap : ctx.xres ≠ [] → issued = some (.eapAkaPrime, ctx.xres)
  failure : failed = true → ctx.xresStar ≠ [] ∨ ctx.xres ≠ [] → ctx.authStatus = .failure

def Consistent (w : AUSFContext) (m : Monitor) : Prop :=
  ∀ supi ctx, w.uePool.lookup supi = some ctx → Agrees ctx (m.issued supi) (m.failed supi)

theorem find_lookup {w : AUSFContext} {id supi : List Char} (h : w.find id = some (supi, ctx)) :
    w.uePool.lookup supi = some ctx := by
  obtain ⟨supi', -, h⟩ := Option.bind_eq_some_iff.mp h
  obtain ⟨ctx', hctx, h⟩ := Option.map_eq_some_iff.mp h
  obtain ⟨rfl, rfl⟩ := Prod.mk.inj h
  exact hctx

section

variable {w : AUSFContext} {m : Monitor} {supi : List Char}

/-- A new context for a SUPI, and nothing that concerns another one. -/
theorem Consistent.put (h : Consistent w m) (m' : Monitor)
    (hctx : Agrees ctx (m'.issued supi) (m'.failed supi))
    (hother : ∀ s, s ≠ supi → m'.issued s = m.issued s ∧ m'.failed s = m.failed s)
    (pairs : GoMap (List Char) (List Char)) :
    Consistent { w.put supi ctx with suciSupiMap := pairs } m' := by
  intro s c hc
  rw [show AUSFContext.uePool _ = w.uePool.insert supi ctx from rfl, GoMap.lookup_insert_eq] at hc
  split_ifs at hc with hs
  · rw [← Option.some.inj hc, hs]
    exact hctx
  · rw [(hother s hs).1, (hother s hs).2]
    exact h s c hc

/-- A context without a vector agrees with everything. -/
theorem agrees_blank (h : ctx.xresStar = []) (h' : ctx.xres = []) : Agrees ctx issued failed :=
  ⟨fun hne => absurd h hne, fun hne => absurd h' hne, fun _ hne => absurd hne (by simp [h, h'])⟩

theorem Agrees.withStatus {failed' : Bool} {status : AuthResult} (h : Agrees ctx issued failed)
    (hstatus : status = .failure ∨ failed' = false) :
    Agrees { ctx with authStatus := status } issued failed' := by
  refine ⟨h.fiveG, h.eap, fun hfailed _ => ?_⟩
  obtain hstatus | hstatus := hstatus
  · exact hstatus
  · exact absurd hfailed (by simp [hstatus])

theorem issue_other (vector : AuthType × List Char) {s : List Char} (hs : s ≠ supi) :
    (m.issue supi vector).issued s = m.issued s ∧ (m.issue supi vector).failed s = m.failed s := by
  simp [Monitor.issue, hs]

theorem fail_other (fails : Bool) {s : List Char} (hs : s ≠ supi) :
    (m.fail supi fails).issued s = m.issued s ∧ (m.fail supi fails).failed s = m.failed s := by
  simp [Monitor.fail, hs]

end

/-! ## Steps -/

section

variable {env : Env} {w : AUSFContext} {m : Monitor} {up : Upstream}

/-- The monitor takes nothing from an answer that is not a challenge. -/
theorem take_of_not_issues (h : reply.issues = false) : m.take up reply = m := by
  unfold Monitor.take
  cases up.udm with
  | error e => rfl
  | ok r => cases reply <;> first | rfl | cases h

theorem fill5gAka_ok {ctx' : AusfUeContext} {r : AuthInfoResult}
    (h : fill5gAka env ctx r = .ok ctx') : ctx'.xresStar = r.xresStar ∧ ctx'.xres = ctx.xres := by
  unfold fill5gAka at h
  split at h
  · cases h
  · cases h
  · split at h
    · cases h
    · rw [← Except.ok.inj h]
      exact ⟨rfl, rfl⟩

theorem Consistent.newUe (h : Consistent w m) (info : AuthenticationInfo) (supi : List Char) :
    Consistent (newUe w info supi) m :=
  h.put m (agrees_blank rfl rfl) (fun _ _ => ⟨rfl, rfl⟩) _

/-- The fields of a method in the new context, and its vector is issued. -/
theorem Consistent.fill {supi : List Char} {vector : AuthType × List Char} (h : Consistent w m)
    (h5g : ctx.xresStar ≠ [] → vector = (.fiveGAka, ctx.xresStar))
    (heap : ctx.xres ≠ [] → vector = (.eapAkaPrime, ctx.xres)) :
    Consistent (w.put supi ctx) (m.issue supi vector) := by
  refine h.put (m.issue supi vector) ?_ (fun s hs => issue_other vector hs) w.suciSupiMap
  simp only [Monitor.issue, Function.update_self]
  exact ⟨fun hne => by rw [h5g hne], fun hne => by rw [heap hne], by simp⟩

theorem Consistent.issue (h : Consistent w m) (info : AuthenticationInfo) (eapID : UInt8)
    {r : AuthInfoResult} (hudm : up.udm = .ok r) :
    Consistent (issue env w info eapID r).2 (m.take up (issue env w info eapID r).1) := by
  have hnew := h.newUe info r.supi
  cases hmethod : r.authType with
  | none => simpa only [Ausf.issue, hmethod, Monitor.take, hudm] using hnew
  | some method =>
    cases method with
    | fiveGAka =>
      cases hfill : fill5gAka env { servingNetworkName := info.servingNetworkName } r with
      | error e => simpa only [Ausf.issue, hmethod, hfill, Monitor.take, hudm] using hnew
      | ok ctx =>
        obtain ⟨hstar, hxres⟩ := fill5gAka_ok hfill
        simp only [Ausf.issue, hmethod, hfill, Monitor.take, hudm]
        exact hnew.fill (fun _ => by rw [hstar]) (fun hne => absurd hxres hne)
    | eapAkaPrime =>
      cases hid : identity env r.supi with
      | none => simpa only [Ausf.issue, hmethod, hid, Monitor.take, hudm] using hnew
      | some identity =>
        simp only [Ausf.issue, hmethod, hid, Monitor.take, hudm]
        exact hnew.fill (fun hne => absurd rfl hne) (fun _ => rfl)

theorem Consistent.ueAuthPost (h : Consistent w m) (info : AuthenticationInfo) (up : Upstream) :
    Consistent (ueAuthPost env w info up).2 (m.take up (ueAuthPost env w info up).1) := by
  unfold Ausf.ueAuthPost
  dsimp only
  split
  · rw [take_of_not_issues rfl]
    exact h
  · split
    · rw [take_of_not_issues rfl]
      exact h
    · cases hudm : up.udm with
      | error e =>
        rw [take_of_not_issues rfl]
        exact h
      | ok r => exact h.issue info _ hudm

/-! ## Confirmations -/

variable {id supi : List Char} {sent : Bool}
  {answers : List (Monitor × Call × Reply)}

/-- A failed confirmation that leaves the context as it is, marked as failed already. -/
theorem Consistent.stay (h : Consistent w m) (hctx : w.uePool.lookup supi = some ctx) {fails : Bool}
    (hfails : ctx.authStatus = .failure ∨ fails = false) : Consistent w (m.fail supi fails) := by
  intro s c hc
  have hagree := h s c hc
  by_cases hs : s = supi
  · subst hs
    obtain rfl := Option.some.inj (hc.symm.trans hctx)
    refine ⟨hagree.fiveG, hagree.eap, fun hfailed hvector => ?_⟩
    obtain hstatus | rfl := hfails
    · exact hstatus
    · exact hagree.failure (by simpa [Monitor.fail] using hfailed) hvector
  · rw [(fail_other fails hs).1, (fail_other fails hs).2]
    exact hagree

/-- A confirmation that ends with a status. -/
theorem Consistent.confirmed (h : Consistent w m) (hctx : w.uePool.lookup supi = some ctx)
    {fails : Bool} {status : AuthResult}
    (hstatus : status = .failure ∨ (m.failed supi || fails) = false) :
    Consistent (w.put supi { ctx with authStatus := status }) (m.fail supi fails) := by
  refine h.put (m.fail supi fails) ?_ (fun s hs => fail_other fails hs) w.suciSupiMap
  simp only [Monitor.fail, Function.update_self]
  exact (h supi ctx hctx).withStatus hstatus

theorem issue_not_succeeded (info : AuthenticationInfo) (eapID : UInt8) (r : AuthInfoResult) :
    (issue env w info eapID r).1.succeeded = none := by
  unfold issue
  dsimp only
  split
  · rfl
  · split <;> rfl
  · split <;> rfl

theorem ueAuthPost_not_succeeded (info : AuthenticationInfo) (up : Upstream) :
    (ueAuthPost env w info up).1.succeeded = none := by
  unfold ueAuthPost
  dsimp only
  split
  · rfl
  · split
    · rfl
    · split
      · rfl
      · exact issue_not_succeeded info _ _

theorem Agrees.not_failed (h : Agrees ctx issued failed)
    (hvector : ctx.xresStar ≠ [] ∨ ctx.xres ≠ []) (hstatus : ctx.authStatus ≠ .failure) :
    failed = false :=
  Bool.eq_false_iff.mpr fun hfailed => hstatus (h.failure hfailed hvector)

theorem right_of_not_succeeded (h : reply.succeeded = none) :
    Right m call reply :=
  fun supi hsupi => absurd (h.symm.trans hsupi) (by simp)

theorem confirm5gAka_step (h : Consistent w m) {resStar : List Char}
    (hguard : Guarded env ⟨w, m, answers⟩ (.confirm5gAka id resStar sent)) :
    Consistent (confirm5gAka w id resStar sent).2
      (m.observe env w (confirm5gAka w id resStar sent).1 (.confirm5gAka id resStar sent)) ∧
    Right m (.confirm5gAka id resStar sent) (confirm5gAka w id resStar sent).1 := by
  cases hfind : w.find id with
  | none =>
    simp only [confirm5gAka, hfind, Monitor.observe, Option.elim_none]
    exact ⟨h, right_of_not_succeeded rfl⟩
  | some x =>
    obtain ⟨supi, ctx⟩ := x
    obtain ⟨hempty, hstatus⟩ := hguard _ hfind
    have hctx := find_lookup hfind
    have hagree := h supi ctx hctx
    simp only [confirm5gAka, hfind, Monitor.observe, Option.elim_some]
    by_cases hmatch : equalFold resStar ctx.xresStar = true
    · have hstar : ctx.xresStar ≠ [] := by
        intro hnil
        rw [hnil, equalFold_nil] at hmatch
        exact hempty hmatch hnil
      have hissued := hagree.fiveG hstar
      have hfailed := hagree.not_failed (.inl hstar) (hstatus hmatch)
      simp only [hmatch, if_true]
      constructor
      · exact h.confirmed hctx (.inr (by simp [hfailed, hissued, Call.contains, hmatch]))
      · intro s hs
        cases sent with
        | false => simp [Reply.succeeded] at hs
        | true =>
          obtain rfl : supi = s := by simpa [Reply.succeeded] using hs
          exact ⟨.fiveGAka, ctx.xresStar, hissued, hmatch, hfailed⟩
    · simp only [hmatch]
      refine ⟨h.confirmed hctx (.inl rfl), right_of_not_succeeded ?_⟩
      cases sent <;> rfl

theorem confirmEap_step (h : Consistent w m) {content : Option EapContent}
    (hguard : Guarded env ⟨w, m, answers⟩ (.confirmEap id content sent up)) :
    Consistent (confirmEap env w id content sent up).2
      (m.observe env w (confirmEap env w id content sent up).1 (.confirmEap id content sent up)) ∧
    Right m (.confirmEap id content sent up) (confirmEap env w id content sent up).1 := by
  cases hfind : w.find id with
  | none =>
    simp only [confirmEap, hfind, Monitor.observe, Option.elim_none]
    exact ⟨h, right_of_not_succeeded rfl⟩
  | some x =>
    obtain ⟨supi, ctx⟩ := x
    have hkept := hguard _ hfind
    have hctx := find_lookup hfind
    have hagree := h supi ctx hctx
    simp only [confirmEap, hfind, Monitor.observe, Option.elim_some]
    by_cases hstatus : ctx.authStatus = .failure
    · simp only [hstatus, if_true]
      rw [take_of_not_issues rfl]
      exact ⟨h.stay hctx (.inl hstatus), right_of_not_succeeded rfl⟩
    · specialize hkept hstatus
      simp only [hstatus, if_false]
      cases hjudge : judge env ctx content with
      | error f => simp [Verdict.kept, hjudge] at hkept
      | ok verdict =>
        cases verdict with
        | right =>
          obtain ⟨hxres, hcontains⟩ := contains_of_judge hjudge id sent up
          have hfailed := hagree.not_failed (.inr hxres) hstatus
          cases sent with
          | false =>
            simp only [Bool.false_eq_true, if_false]
            rw [take_of_not_issues rfl]
            exact ⟨h.stay hctx (.inr rfl), right_of_not_succeeded rfl⟩
          | true =>
            simp only [if_true]
            rw [take_of_not_issues rfl]
            refine ⟨h.confirmed hctx (.inr (by simp [hfailed, Verdict.fails])), ?_⟩
            intro s hs
            obtain rfl : supi = s := by simpa [Reply.succeeded] using hs
            exact ⟨.eapAkaPrime, ctx.xres, hagree.eap hxres, hcontains, hfailed⟩
        | bad =>
          -- the guard: the UDM has taken the failure, so the context gets it
          obtain rfl : sent = true := by simpa [Verdict.kept, hjudge] using hkept
          simp only [if_true]
          rw [take_of_not_issues (by split <;> rfl)]
          exact ⟨h.confirmed hctx (.inl rfl), right_of_not_succeeded (by split <;> rfl)⟩
        | rejected =>
          simp only
          rw [take_of_not_issues (by split <;> rfl)]
          exact ⟨h.confirmed hctx (.inl rfl), right_of_not_succeeded (by split <;> rfl)⟩
        | resync =>
          exact ⟨(h.stay hctx (.inr rfl)).ueAuthPost _ up,
            right_of_not_succeeded (ueAuthPost_not_succeeded _ up)⟩

/-- What holds in every state of a guarded run. -/
def Kept (s : World) : Prop :=
  Consistent s.ausf s.monitor ∧ ∀ a ∈ s.answers, Right a.1 a.2.1 a.2.2

theorem kept_start : Kept World.start := by
  constructor
  · intro supi ctx hctx
    rw [World.start, Finmap.lookup_empty] at hctx
    cases hctx
  · simp [World.start]

theorem handle_step (h : Consistent w m) (hguard : Guarded env ⟨w, m, answers⟩ call) :
    Consistent (handle env w call).2 (m.observe env w (handle env w call).1 call) ∧
      Right m call (handle env w call).1 := by
  cases call with
  | post info up =>
    exact ⟨h.ueAuthPost info up, right_of_not_succeeded (ueAuthPost_not_succeeded info up)⟩
  | confirm5gAka id resStar sent => exact confirm5gAka_step h hguard
  | confirmEap id content sent up => exact confirmEap_step h hguard

theorem kept_step (s : World) (call : Call) (hguard : Guarded env s call) (h : Kept s) :
    Kept (step env s call) := by
  obtain ⟨hnext, hright⟩ := handle_step h.1 hguard
  refine ⟨hnext, fun a ha => ?_⟩
  obtain rfl | ha := List.mem_cons.mp ha
  · exact hright
  · exact h.2 a ha

/-- In a run whose calls keep clear of the slips, every SUCCESS is right. -/
theorem success_only_if_right (calls : List Call)
    (hguard : StepsMeet (step env) (Guarded env) World.start calls) :
    ∀ a ∈ (calls.foldl (step env) World.start).answers, Right a.1 a.2.1 a.2.2 :=
  (hguard.inv Kept kept_step kept_start).2

end

/-! ## The slips -/

def sampleEnv : Env where
  eapAkaSupiImsiPrefix := false
  hxresStar b := b
  kseaf kausf _ := some kausf
  eapAkaPrimePrf _ _ _ := ([], [])
  calculateAtMAC _ _ := List.replicate 16 0

def sampleSupi : List Char := "imsi-1".toList

/-- A request that the UDM answers with a vector of the method. -/
def sampleRequest (method : AuthType) : Call :=
  .post ⟨sampleSupi, "5G:mnc093.mcc208.3gppnetwork.org".toList, false⟩
    ⟨.ok ⟨sampleSupi, some method, "00".toList, "01".toList, "ab".toList, "01020304".toList,
      "ff".toList, [], []⟩, 7⟩

def sampleRun : List Call := [sampleRequest .fiveGAka, .confirm5gAka sampleSupi "AB".toList true]

theorem success_sample :
    (sampleRun.foldl (step sampleEnv) World.start).answers.map (fun a => a.2.2.succeeded) =
      [some sampleSupi, none] ∧
    ∀ a ∈ (sampleRun.foldl (step sampleEnv) World.start).answers, Right a.1 a.2.1 a.2.2 :=
  ⟨by decide +kernel, success_only_if_right sampleRun (by decide +kernel)⟩

theorem not_right_of_not_contains {m : Monitor} (supi : List Char) (h : reply.succeeded = some supi)
    (hcontains : (m.issued supi).all (fun v => !call.contains v.1 v.2) = true) :
    ¬Right m call reply := by
  intro hright
  obtain ⟨method, x, hissued, hcontained, -⟩ := hright supi h
  simp [hissued, hcontained] at hcontains

theorem not_right_of_failed {m : Monitor} (supi : List Char) (h : reply.succeeded = some supi)
    (hfailed : m.failed supi = true) : ¬Right m call reply := by
  intro hright
  obtain ⟨method, x, -, -, hnot⟩ := hright supi h
  simp [hfailed] at hnot

/-- An empty RES* for an EAP-AKA' vector, and the right RES* after a wrong one. -/
theorem wrong_success :
    (∃ a ∈ ([sampleRequest .eapAkaPrime, .confirm5gAka sampleSupi [] true].foldl (step sampleEnv)
      World.start).answers, ¬Right a.1 a.2.1 a.2.2) ∧
    ∃ a ∈ ([sampleRequest .fiveGAka, .confirm5gAka sampleSupi "00".toList true,
      .confirm5gAka sampleSupi "ab".toList true].foldl (step sampleEnv) World.start).answers,
      ¬Right a.1 a.2.1 a.2.2 :=
  ⟨⟨_, List.mem_cons_self, not_right_of_not_contains sampleSupi (by decide +kernel)
      (by decide +kernel)⟩,
    ⟨_, List.mem_cons_self, not_right_of_failed sampleSupi (by decide +kernel)
      (by decide +kernel)⟩⟩

end Free5gc.Ausf
