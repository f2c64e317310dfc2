/-
  Requests are handled once. A request is dispatched when its key, the peer's address and
  the sequence number, has no RX transaction; otherwise it is answered from the transaction.

  `rxTrans_step` says what one turn of the main loop does to the transaction of a key, and
  `Opened` is the history of a transaction: the turn that dispatched its request, what was
  written there, and no RX timeout of the key since.
-/
import Free5gc.Upf.Pfcp.Transactions

namespace Free5gc.Upf.PfcpServer

open Free5gc.Lib

/-- The event brings a request with this address and number, and the loop dispatches it. -/
def Dispatches (W : World) (s : PfcpServer) (addr : Addr) (seq : UInt32) (e : Event) : Prop :=
  ∃ buf msg, e = .receive addr buf ∧ decode W buf = some msg ∧ msg.isRequest = true ∧
    msg.sequence = seq ∧ s.rxTrans.lookup (trID addr seq) = none

/-- What is written to `addr` when this is the response, if any. -/
def written (addr : Addr) (out : Option (List UInt8)) : List (Addr × List UInt8) :=
  out.toList.map fun b => (addr, b)

/-- The RX transaction of a request that was dispatched, after this response. -/
def answered (addr : Addr) (seq : UInt32) (out : Option (List UInt8)) : RxTransaction :=
  { newRxTransaction addr seq with msgBuf := out.getD [] }

/-! ## One turn -/

/-- Every RX transaction is stored under its id, made of its address and number. -/
def RxSound (s : PfcpServer) : Prop :=
  ∀ key rx, s.rxTrans.lookup key = some rx → rx.id = key ∧ key = trID rx.raddr rx.seq

variable {W : World} {s s' t : PfcpServer} {addr : Addr} {e : Event} {es : List Event}

theorem rxSound_new : RxSound PfcpServer.new := by
  intro key rx h
  rw [show PfcpServer.new.rxTrans.lookup key = none from Finmap.lookup_empty key] at h
  cases h

theorem rxTrans_transTimeout (W : World) (h : RxSound s) (ty : TransType) (id key : String) :
    (s.transTimeout W ty id).rxTrans.lookup key =
      if ty = .rx ∧ id = key then none else s.rxTrans.lookup key := by
  unfold transTimeout
  cases ty with
  | tx =>
    dsimp only
    rw [if_neg (by simp)]
    split
    · rfl
    · unfold txTimeout
      split_ifs
      · rfl
      · rfl
  | rx =>
    dsimp only
    split
    · rename_i hnone
      split_ifs with hkey
      · rw [← hkey.2]
        exact hnone
      · rfl
    · rename_i rx hrx
      show (s.rxTrans.erase rx.id).lookup key = _
      rw [GoMap.lookup_erase_eq, (h id rx hrx).1]
      simp [eq_comm]

/-- The turns that leave the RX transactions as they are. -/
theorem rxTrans_serveReport (W : World) (s : PfcpServer) (sr : SessReport) :
    (s.serveReport W sr).1.rxTrans = s.rxTrans := by
  refine serveReport_inv W (fun _ t => t.rxTrans = s.rxTrans) (fun _ _ _ ht => ht) ?_ [] rfl sr
  intro _ t m a hm ht
  exact (sendReqTo_frame W t hm a).2.1.trans ht

theorem rxTrans_receiveResponse {msg : Message} (hs : s.receiveResponse W addr msg = some s') :
    s'.rxTrans = s.rxTrans := by
  unfold receiveResponse at hs
  split at hs
  · cases hs
    rfl
  · split at hs
    · cases hs
    · rename_i tx _ t ht
      unfold txRecv at ht
      split_ifs at ht
      cases ht
      exact congrArg Trans.rxTrans (trans_rspDispacher hs)

theorem rxTrans_rxRetransmit (s : PfcpServer) (rx : RxTransaction) :
    (s.rxRetransmit rx).rxTrans = s.rxTrans := by
  unfold rxRetransmit
  split_ifs
  · rfl
  · rfl

/-- The history of an RX transaction: its request was dispatched, `out` was written then, and
    the key did not time out since. -/
def Opened (W : World) (es : List Event) (t : PfcpServer) (addr : Addr) (seq : UInt32)
    (out : Option (List UInt8)) : Prop :=
  ∃ pre e mid s s', es = pre ++ e :: mid ∧ Run (step W) PfcpServer.new pre s ∧
    Dispatches W s addr seq e ∧ s.step W e = some s' ∧ Run (step W) s' mid t ∧
    Event.timeout .rx (trID addr seq) ∉ mid ∧ s'.conn = s.conn ++ written addr out

theorem Opened.concat {t' : PfcpServer} {seq : UInt32} {out : Option (List UInt8)}
    (h : Opened W es t addr seq out) (hs : t.step W e = some t')
    (he : e ≠ .timeout .rx (trID addr seq)) : Opened W (es ++ [e]) t' addr seq out := by
  obtain ⟨pre, e₀, mid, s, s', rfl, hpre, hdis, hstep, hmid, hnot, hconn⟩ := h
  refine ⟨pre, e₀, mid ++ [e], s, s', ?_, hpre, hdis, hstep, run_concat.mpr ⟨t, hmid, hs⟩, ?_,
    hconn⟩
  · rw [List.append_assoc, List.cons_append]
  · rw [List.mem_append, List.mem_singleton]
    rintro (hin | heq)
    · exact hnot hin
    · exact he heq.symm

section

variable (hhdr : W.codec.HasHeader)

include hhdr

/-- A response to a request just opened is kept in its transaction and written. -/
theorem sendRspTo_openRx (s : PfcpServer) (addr : Addr) {rsp : Message}
    (hrsp : rsp.isResponse = true) :
    ∃ out, out ≠ some [] ∧
      ((s.openRx addr rsp.sequence).sendRspTo W rsp addr).conn = s.conn ++ written addr out ∧
      ∀ key, ((s.openRx addr rsp.sequence).sendRspTo W rsp addr).rxTrans.lookup key =
        if key = trID addr rsp.sequence then some (answered addr rsp.sequence out)
        else s.rxTrans.lookup key := by
  have hrx : (s.openRx addr rsp.sequence).rxTrans.lookup (trID addr rsp.sequence) =
      some (newRxTransaction addr rsp.sequence) := Finmap.lookup_insert _
  unfold sendRspTo
  rw [if_pos hrsp, hrx]
  dsimp only
  unfold rxSend
  cases hb : W.codec.marshal rsp with
  | none =>
    refine ⟨none, by simp, (List.append_nil s.conn).symm, fun key => ?_⟩
    exact GoMap.lookup_insert_eq _ _ _ _
  | some b =>
    refine ⟨some b, fun h => hhdr rsp b hb (Option.some.inj h), rfl, fun key => ?_⟩
    show Finmap.lookup key (((s.rxTrans.insert _ _).insert _ _)) = _
    rw [GoMap.lookup_insert_eq, GoMap.lookup_insert_eq]
    split_ifs
    · rfl
    · rfl

/-- A dispatch opens the transaction of the request and leaves the response in it, with
    nothing else written. -/
theorem dispatch_spec (s : PfcpServer) (addr : Addr) (msg : Message) :
    ∃ out, out ≠ some [] ∧
      ((s.openRx addr msg.sequence).reqDispacher W msg addr).1.conn =
        s.conn ++ written addr out ∧
      ∀ key, ((s.openRx addr msg.sequence).reqDispacher W msg addr).1.rxTrans.lookup key =
        if key = trID addr msg.sequence then some (answered addr msg.sequence out)
        else s.rxTrans.lookup key := by
  have hanswers := answers_reqDispacher W (s.openRx addr msg.sequence) msg addr
  unfold Answers at hanswers
  split at hanswers
  · refine ⟨none, by simp, ?_, fun key => ?_⟩
    · exact (congrArg Trans.conn hanswers).trans (List.append_nil s.conn).symm
    · rw [show PfcpServer.rxTrans _ = _ from congrArg Trans.rxTrans hanswers]
      exact GoMap.lookup_insert_eq _ _ _ _
  · rename_i rsp _
    obtain ⟨hrsp, hseq, htrans⟩ := hanswers
    obtain ⟨out, hout, hconn, hlookup⟩ := sendRspTo_openRx hhdr s addr hrsp
    rw [hseq] at hconn hlookup
    refine ⟨out, hout, (congrArg Trans.conn htrans).trans hconn, fun key => ?_⟩
    rw [show PfcpServer.rxTrans _ = _ from congrArg Trans.rxTrans htrans]
    exact hlookup key

/-- What one turn does to the transaction of a key: nothing, unless it is the timeout of this
    key; a dispatch opens it; its timeout removes it. -/
theorem rxTrans_step (h : RxSound s) (hs : s.step W e = some s') (key : String) :
    (e ≠ .timeout .rx key ∧ s'.rxTrans.lookup key = s.rxTrans.lookup key) ∨
    (∃ addr seq out, key = trID addr seq ∧ Dispatches W s addr seq e ∧ out ≠ some [] ∧
      s'.conn = s.conn ++ written addr out ∧
      s'.rxTrans.lookup key = some (answered addr seq out)) ∨
    (e = .timeout .rx key ∧ s'.rxTrans.lookup key = none) := by
  obtain ⟨sr, rfl, rfl⟩ | ⟨addr, buf, rfl, _, rfl⟩ | ⟨addr, buf, msg, rfl, hdec, hreq, rfl⟩ |
    ⟨addr, buf, msg, rfl, _, _, _, hrsp⟩ | ⟨ty, id, rfl, rfl⟩ := step_cases hs
  · refine Or.inl ⟨by simp, ?_⟩
    rw [rxTrans_serveReport]
  · exact Or.inl ⟨by simp, rfl⟩
  · unfold receiveRequest
    split
    · refine Or.inl ⟨by simp, ?_⟩
      rw [rxTrans_rxRetransmit]
    · rename_i hnone
      obtain ⟨out, hout, hconn, hlookup⟩ := dispatch_spec hhdr s addr msg
      by_cases hkey : key = trID addr msg.sequence
      · refine Or.inr (Or.inl ⟨addr, msg.sequence, out, hkey, ?_, hout, hconn, ?_⟩)
        · exact ⟨buf, msg, rfl, hdec, hreq, rfl, hnone⟩
        · rw [hlookup, if_pos hkey]
      · refine Or.inl ⟨by simp, ?_⟩
        rw [hlookup, if_neg hkey]
  · refine Or.inl ⟨by simp, ?_⟩
    rw [rxTrans_receiveResponse hrsp]
  · rw [rxTrans_transTimeout W h]
    split_ifs with hkey
    · obtain ⟨rfl, rfl⟩ := hkey
      exact Or.inr (Or.inr ⟨rfl, rfl⟩)
    · refine Or.inl ⟨fun he => hkey ?_, rfl⟩
      cases he
      exact ⟨rfl, rfl⟩

theorem RxSound.step (h : RxSound s) (hs : s.step W e = some s') :
    RxSound s' := by
  intro key rx hrx
  obtain ⟨_, hsame⟩ | ⟨addr, seq, out, hkey, _, _, _, hopen⟩ | ⟨_, hnone⟩ :=
    rxTrans_step hhdr h hs key
  · exact h key rx (hsame.symm.trans hrx)
  · rw [hopen] at hrx
    cases hrx
    exact ⟨hkey.symm, hkey⟩
  · rw [hnone] at hrx
    cases hrx

/-! ## Runs -/

theorem rxSound_run (hrun : Run (step W) PfcpServer.new es s) :
    RxSound s :=
  hrun.inv RxSound (fun _ _ _ _ hs h => h.step hhdr hs) rxSound_new

/-- A transaction stays as it is until the RX timeout of its key. -/
theorem rxTrans_run {mid : List Event} (h : RxSound s) (hrun : Run (step W) s mid t) {key : String}
    {rx : RxTransaction} (hrx : s.rxTrans.lookup key = some rx)
    (hmid : Event.timeout .rx key ∉ mid) :
    t.rxTrans.lookup key = some rx := by
  have hboth : RxSound t ∧ t.rxTrans.lookup key = some rx := by
    refine hrun.inv (fun t => RxSound t ∧ t.rxTrans.lookup key = some rx) ?_ ⟨h, hrx⟩
    intro t e t' he hs ⟨ht, hold⟩
    refine ⟨ht.step hhdr hs, ?_⟩
    obtain ⟨_, hsame⟩ | ⟨addr, seq, _, hkey, hdis, _⟩ | ⟨rfl, _⟩ := rxTrans_step hhdr ht hs key
    · exact hsame.trans hold
    · -- a dispatch needs a key without a transaction
      obtain ⟨_, _, _, _, _, _, hnone⟩ := hdis
      rw [← hkey, hold] at hnone
      cases hnone
    · exact absurd he hmid
  exact hboth.2

/-- Every RX transaction has a history, and holds the response that was written. -/
theorem opened_run (hrun : Run (step W) PfcpServer.new es t) (key : String) (rx : RxTransaction)
    (hrx : t.rxTrans.lookup key = some rx) :
    ∃ addr seq out, key = trID addr seq ∧ rx = answered addr seq out ∧ out ≠ some [] ∧
      Opened W es t addr seq out := by
  refine hrun.history_inv (fun es t => ∀ key rx, t.rxTrans.lookup key = some rx →
    ∃ addr seq out, key = trID addr seq ∧ rx = answered addr seq out ∧ out ≠ some [] ∧
      Opened W es t addr seq out) ?_ ?_ key rx hrx
  · intro key rx hrx
    rw [show PfcpServer.new.rxTrans.lookup key = none from Finmap.lookup_empty key] at hrx
    cases hrx
  · intro es t e t' hpre hs ih key rx hrx
    obtain ⟨he, hsame⟩ | ⟨addr, seq, out, hkey, hdis, hout, hconn, hopen⟩ | ⟨_, hnone⟩ :=
      rxTrans_step hhdr (rxSound_run hhdr hpre) hs key
    · obtain ⟨addr, seq, out, hkey, hans, hout, hold⟩ := ih key rx (hsame.symm.trans hrx)
      rw [hkey] at he
      exact ⟨addr, seq, out, hkey, hans, hout, hold.concat hs he⟩
    · rw [hopen] at hrx
      refine ⟨addr, seq, out, hkey, (Option.some.inj hrx).symm, hout, ?_⟩
      exact ⟨es, e, [], t, t', rfl, hpre, hdis, hs, Run.nil t', List.not_mem_nil, hconn⟩
    · rw [hnone] at hrx
      cases hrx

theorem lookup_of_dispatches {seq : UInt32} (hdis : Dispatches W s addr seq e)
    (hs : s.step W e = some s') :
    ∃ rx, s'.rxTrans.lookup (trID addr seq) = some rx := by
  obtain ⟨buf, msg, rfl, hdec, hreq, rfl, hnone⟩ := hdis
  have hs' : s' = s.receiveRequest W addr msg :=
    Option.some.inj (hs.symm.trans (receive_request hdec hreq s addr))
  obtain ⟨out, _, _, hlookup⟩ := dispatch_spec hhdr s addr msg
  unfold receiveRequest at hs'
  rw [hnone] at hs'
  rw [hs', hlookup, if_pos rfl]
  exact ⟨_, rfl⟩

end

/-- A request whose transaction holds `out` is answered with it and changes nothing. -/
theorem receiveRequest_answered {msg : Message} {out : Option (List UInt8)} (hout : out ≠ some [])
    (h : s.rxTrans.lookup (trID addr msg.sequence) = some (answered addr msg.sequence out)) :
    s.receiveRequest W addr msg = { s with conn := s.conn ++ written addr out } := by
  unfold receiveRequest rxRetransmit
  rw [h]
  cases out with
  | none =>
    show s = { s with conn := s.conn ++ [] }
    rw [List.append_nil]
  | some b => exact if_neg fun hb => hout (congrArg some hb)

/-- In every state `s` that the main loop reaches, for every address and sequence number: if
    a request with them is dispatched at `s` and again later, the RX timeout of their key lies
    between. If their RX transaction exists at `s`, a request with them was dispatched before,
    with no RX timeout of the key since, and a duplicate that arrives at `s` is answered with
    the bytes written at that dispatch, if any, and changes nothing else. -/
theorem requests_handled_once {W : World} (hhdr : W.codec.HasHeader) {es : List Event}
    {s : PfcpServer} (hrun : Run (step W) PfcpServer.new es s) (addr : Addr) (seq : UInt32) :
    (∀ e s' mid t e', Dispatches W s addr seq e → s.step W e = some s' →
      Run (step W) s' mid t → Dispatches W t addr seq e' →
        Event.timeout .rx (trID addr seq) ∈ mid) ∧
    (∀ buf msg rx, decode W buf = some msg → msg.isRequest = true → msg.sequence = seq →
      s.rxTrans.lookup (trID addr seq) = some rx →
        ∃ pre e mid s₀ s₁ out, es = pre ++ e :: mid ∧ Run (step W) PfcpServer.new pre s₀ ∧
          Dispatches W s₀ addr seq e ∧ s₀.step W e = some s₁ ∧ Run (step W) s₁ mid s ∧
          Event.timeout .rx (trID addr seq) ∉ mid ∧ s₁.conn = s₀.conn ++ written addr out ∧
          s.step W (.receive addr buf) =
            some { s with conn := s.conn ++ written addr out }) := by
  have hsound := rxSound_run hhdr hrun
  refine ⟨?_, ?_⟩
  · intro e s' mid t e' hdis hs hmid hdis'
    by_contra hnot
    obtain ⟨rx, hrx⟩ := lookup_of_dispatches hhdr hdis hs
    have hstill := rxTrans_run hhdr (hsound.step hhdr hs) hmid hrx hnot
    obtain ⟨_, _, _, _, _, _, hnone⟩ := hdis'
    rw [hnone] at hstill
    cases hstill
  · rintro buf msg rx hdec hreq rfl hrx
    obtain ⟨addr', seq', out, hkey, rfl, hout, hopened⟩ := opened_run hhdr hrun _ rx hrx
    obtain ⟨rfl, rfl⟩ := trID_inj hkey
    obtain ⟨pre, e, mid, s₀, s₁, hes, hpre, hdis, hstep, hmid, hnot, hconn⟩ := hopened
    refine ⟨pre, e, mid, s₀, s₁, out, hes, hpre, hdis, hstep, hmid, hnot, hconn, ?_⟩
    show s.receive W addr buf = _
    rw [receive_request hdec hreq, receiveRequest_answered hout hrx]

/-- Messages are headers; heartbeats are answered. -/
def heartbeatWorld : World :=
  { World.isolated (fun _ => Answer.done) with
    codec := Codec.ofHeaders (fun _ => 2) fun _ seq => some (.heartbeatRequest seq) }

theorem hasHeader_heartbeatWorld : heartbeatWorld.codec.HasHeader :=
  Codec.hasHeader_ofHeaders (fun _ => 2) fun _ seq => some (.heartbeatRequest seq)

/-- A heartbeat request that arrives twice, times out, and arrives once more. -/
theorem heartbeat_handled_once :
    let W := heartbeatWorld
    let e := Event.receive "10.0.0.1:8805" (pfcpHeader 1 7)
    let key := trID "10.0.0.1:8805" 7
    ∃ s t out, Run (step W) PfcpServer.new [e] s ∧ Run (step W) s [.timeout .rx key] t ∧
      Dispatches W t "10.0.0.1:8805" 7 e ∧
      s.step W e = some { s with conn := s.conn ++ written "10.0.0.1:8805" out } ∧
      Event.timeout .rx key ∈ [Event.timeout .rx key] := by
  intro W e key
  have hhdr : W.codec.HasHeader := hasHeader_heartbeatWorld
  have hdec : decode W (pfcpHeader 1 7) = some (.heartbeatRequest 7) := by decide
  have hstart : Dispatches W PfcpServer.new "10.0.0.1:8805" 7 e :=
    ⟨_, _, rfl, hdec, rfl, rfl, Finmap.lookup_empty _⟩
  obtain ⟨s, hfirst⟩ : ∃ s, PfcpServer.new.step W e = some s :=
    ⟨_, receive_request hdec rfl PfcpServer.new "10.0.0.1:8805"⟩
  have hrun : Run (step W) PfcpServer.new [e] s := Run.cons hfirst (Run.nil s)
  have htimeout : Run (step W) s [.timeout .rx key] (s.transTimeout W .rx key) :=
    Run.cons rfl (Run.nil _)
  have hlater : Dispatches W (s.transTimeout W .rx key) "10.0.0.1:8805" 7 e := by
    refine ⟨_, _, rfl, hdec, rfl, rfl, ?_⟩
    rw [rxTrans_transTimeout W (rxSound_run hhdr hrun)]
    exact if_pos ⟨rfl, rfl⟩
  obtain ⟨rx, hrx⟩ := lookup_of_dispatches hhdr hstart hfirst
  obtain ⟨_, _, _, _, _, out, _, _, _, _, _, _, _, hdup⟩ :=
    (requests_handled_once hhdr hrun "10.0.0.1:8805" 7).2 _ _ rx hdec rfl rfl hrx
  refine ⟨s, _, out, hrun, htimeout, hlater, hdup, ?_⟩
  exact (requests_handled_once hhdr (Run.nil _) "10.0.0.1:8805" 7).1 e s _ _ e hstart hfirst
    htimeout hlater

end Free5gc.Upf.PfcpServer
