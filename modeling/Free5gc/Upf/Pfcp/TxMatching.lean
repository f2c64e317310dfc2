/-
  Matching responses with the requests of the UPF. A TX transaction is stored under a key
  made of the peer's address and the 32-bit counter `txSeq`; a response is looked up under
  the number read from the wire, which has 24 bits.

  `TxSound` ties the table to the counter and to the requests of a run. `resolves_iff` says
  for which numbers the echo of a request finds its transaction.
-/
import Free5gc.Upf.Pfcp.Handlers
import Free5gc.Upf.Pfcp.Transactions

namespace Free5gc.Upf.PfcpServer

open Free5gc.Lib

/-! ## Requests of a run -/

/-- The requests that one turn of the main loop hands to `sendReqTo`. -/
def requestsOf (W : World) (s : PfcpServer) : Event → List Message
  | .report sr => (s.serveReport W sr).2
  | _ => []

/-- The requests that a run hands to `sendReqTo`, in order. -/
def requestsSent (W : World) : PfcpServer → List Event → List Message
  | _, [] => []
  | s, e :: es =>
    s.requestsOf W e ++ (s.step W e).elim [] fun s' => requestsSent W s' es

variable {W : World} {s s' t : PfcpServer} {es : List Event} {log : List Message} {key : String}
  {tx : TxTransaction} {msg : Message}

theorem requestsSent_cons {e : Event} (es : List Event) (h : s.step W e = some s') :
    requestsSent W s (e :: es) = s.requestsOf W e ++ requestsSent W s' es := by
  show s.requestsOf W e ++ (s.step W e).elim [] _ = _
  rw [h]
  rfl

theorem requestsSent_append (h : Run (step W) s es s') (fs : List Event) :
    requestsSent W s (es ++ fs) = requestsSent W s es ++ requestsSent W s' fs := by
  induction h with
  | nil => rfl
  | cons he _ ih =>
    rw [List.cons_append, requestsSent_cons _ he, requestsSent_cons _ he, ih, List.append_assoc]

/-! ## The TX table -/

/-- What is stored in the TX table under `key` after the requests `log`: a transaction under
    its own id, made of its address and number; a request that went out is one of `log`,
    numbered by its place there, and the transaction has its bytes and a timer. -/
structure TxEntry (W : World) (log : List Message) (key : String) (tx : TxTransaction) :
    Prop where
  id : tx.id = key
  key : key = trID tx.raddr tx.seq
  sent : ∀ req, tx.req = some req → ∃ k msg, log[k]? = some msg ∧ tx.seq = UInt32.ofNat k ∧
    req = msg.setReqSeq tx.seq ∧ req.sequence = tx.seq ∧ W.codec.marshal req = some tx.msgBuf ∧
    tx.timer = true

theorem TxEntry.mono (h : TxEntry W log key tx) (more : List Message) :
    TxEntry W (log ++ more) key tx := by
  refine ⟨h.id, h.key, fun req hreq => ?_⟩
  obtain ⟨k, msg, hk, hrest⟩ := h.sent req hreq
  refine ⟨k, msg, ?_, hrest⟩
  rw [List.getElem?_append_left (List.getElem?_eq_some_iff.mp hk).1]
  exact hk

/-- After the requests `log` the counter is their number, modulo 2 ^ 32, and every
    transaction in the table is as it should be. -/
structure TxSound (W : World) (log : List Message) (s : PfcpServer) : Prop where
  seq : s.txSeq = UInt32.ofNat log.length
  entry : ∀ key tx, s.txTrans.lookup key = some tx → TxEntry W log key tx

theorem txSound_new (W : World) : TxSound W [] PfcpServer.new := by
  refine ⟨rfl, fun key tx h => ?_⟩
  rw [show PfcpServer.new.txTrans.lookup key = none from Finmap.lookup_empty key] at h
  cases h

theorem txTrans_sendRspTo (W : World) (s : PfcpServer) (rsp : Message) (addr : Addr) :
    (s.sendRspTo W rsp addr).txTrans = s.txTrans ∧ (s.sendRspTo W rsp addr).txSeq = s.txSeq := by
  unfold sendRspTo
  split_ifs
  · split
    · exact ⟨rfl, rfl⟩
    · unfold rxSend
      split
      · exact ⟨rfl, rfl⟩
      · exact ⟨rfl, rfl⟩
  · exact ⟨rfl, rfl⟩

section

variable (h : TxSound W log s)

include h

/-- The invariant reads the table and the counter only. -/
theorem TxSound.congr (htx : t.txTrans = s.txTrans) (hseq : t.txSeq = s.txSeq) :
    TxSound W log t := by
  refine ⟨hseq.trans h.seq, ?_⟩
  rw [htx]
  exact h.entry

theorem TxSound.trans (ht : t.trans = s.trans) : TxSound W log t :=
  h.congr (congrArg Trans.txTrans ht) (congrArg Trans.txSeq ht)

theorem TxSound.insert (htx : t.txTrans = s.txTrans.insert key tx) (hseq : t.txSeq = s.txSeq)
    (hentry : TxEntry W log key tx) : TxSound W log t := by
  refine ⟨hseq.trans h.seq, ?_⟩
  rw [htx]
  exact GoMap.forall_lookup_insert hentry h.entry

theorem TxSound.erase (htx : t.txTrans = s.txTrans.erase key) (hseq : t.txSeq = s.txSeq) :
    TxSound W log t := by
  refine ⟨hseq.trans h.seq, fun k x hk => ?_⟩
  rw [htx] at hk
  exact h.entry k x (GoMap.lookup_of_erase hk)

theorem TxSound.sendReqTo (hmsg : msg.isRequest = true) (addr : Addr) :
    TxSound W (log ++ [msg]) (s.sendReqTo W msg addr) := by
  have hnext : s.txSeq + 1 = UInt32.ofNat (log ++ [msg]).length := by
    rw [h.seq, List.length_append]
    exact (UInt32.ofNat_add log.length 1).symm
  have hlast : (log ++ [msg])[log.length]? = some msg := List.getElem?_concat_length
  have hmore : TxSound W (log ++ [msg]) { s with txSeq := s.txSeq + 1 } :=
    ⟨hnext, fun k x hk => (h.entry k x hk).mono [msg]⟩
  -- the transaction is stored before the request is marshalled
  have hstored : TxSound W (log ++ [msg]) { s with
      txSeq := s.txSeq + 1
      txTrans := s.txTrans.insert (trID addr s.txSeq) (newTxTransaction addr s.txSeq) } := by
    refine hmore.insert rfl rfl ⟨rfl, rfl, fun req hreq => ?_⟩
    cases hreq
  obtain ⟨_, heq⟩ | ⟨b, hb, heq⟩ := sendReqTo_cases W s hmsg addr
  · rw [heq]
    exact hstored
  · rw [heq]
    refine hstored.insert rfl rfl ⟨rfl, rfl, fun req hreq => ?_⟩
    cases hreq
    exact ⟨log.length, msg, hlast, h.seq, rfl, Message.sequence_setReqSeq s.txSeq msg hmsg, hb,
      rfl⟩

theorem TxSound.txRecv (hs : s.txRecv tx = some s') : TxSound W log s' := by
  unfold PfcpServer.txRecv at hs
  split_ifs at hs
  cases hs
  exact h.erase rfl rfl

theorem TxSound.transTimeout (ty : TransType) (id : String) :
    TxSound W log (s.transTimeout W ty id) := by
  have hstop : TxSound W log (s.stopTimer ty id) := h.congr rfl rfl
  unfold PfcpServer.transTimeout
  cases ty with
  | tx =>
    dsimp only
    split
    · exact hstop
    · rename_i tx htx
      unfold txTimeout
      split_ifs
      · have hentry := h.entry id tx htx
        refine hstop.insert rfl rfl ⟨hentry.id, hentry.key, fun req hreq => ?_⟩
        obtain ⟨k, msg, hk, hseq, hreq', hnum, hb, _⟩ := hentry.sent req hreq
        exact ⟨k, msg, hk, hseq, hreq', hnum, hb, rfl⟩
      · exact hstop.erase rfl rfl
  | rx =>
    dsimp only
    split
    · exact hstop
    · exact hstop.congr rfl rfl

/-! ## Runs -/

theorem TxSound.receiveRequest (addr : Addr) (msg : Message) :
    TxSound W log (s.receiveRequest W addr msg) := by
  unfold PfcpServer.receiveRequest
  split
  · unfold rxRetransmit
    split_ifs
    · exact h
    · exact h.congr rfl rfl
  · have hopen : TxSound W log (s.openRx addr msg.sequence) := h.congr rfl rfl
    have hanswers := answers_reqDispacher W (s.openRx addr msg.sequence) msg addr
    unfold Answers at hanswers
    split at hanswers
    · exact hopen.trans hanswers
    · rename_i rsp _
      obtain ⟨htx, hseq⟩ := txTrans_sendRspTo W (s.openRx addr msg.sequence) rsp addr
      exact (hopen.congr htx hseq).trans hanswers.2.2

theorem TxSound.receiveResponse {addr : Addr} (hs : s.receiveResponse W addr msg = some s') :
    TxSound W log s' := by
  unfold PfcpServer.receiveResponse at hs
  split at hs
  · cases hs
    exact h
  · split at hs
    · cases hs
    · rename_i t ht
      exact (h.txRecv ht).trans (trans_rspDispacher hs)

theorem TxSound.step {e : Event} (hs : s.step W e = some s') :
    TxSound W (log ++ s.requestsOf W e) s' := by
  obtain ⟨sr, rfl, rfl⟩ | ⟨addr, buf, rfl, _, rfl⟩ | ⟨addr, buf, msg, rfl, _, _, rfl⟩ |
    ⟨addr, buf, msg, rfl, _, _, _, hrsp⟩ | ⟨ty, id, rfl, rfl⟩ := step_cases hs
  · exact serveReport_inv W (TxSound W) (fun _ _ _ hl => hl.congr rfl rfl)
      (fun _ _ _ a hm hl => hl.sendReqTo hm a) log h sr
  · show TxSound W (log ++ []) _
    rw [List.append_nil]
    exact h
  · show TxSound W (log ++ []) _
    rw [List.append_nil]
    exact h.receiveRequest addr msg
  · show TxSound W (log ++ []) _
    rw [List.append_nil]
    exact h.receiveResponse hrsp
  · show TxSound W (log ++ []) _
    rw [List.append_nil]
    exact h.transTimeout ty id

/-- The invariant over a run, with the requests that the run sends. -/
theorem TxSound.run (hrun : Run (PfcpServer.step W) s es s') :
    TxSound W (log ++ requestsSent W s es) s' := by
  induction hrun generalizing log with
  | nil s =>
    show TxSound W (log ++ []) s
    rw [List.append_nil]
    exact h
  | cons he _ ih =>
    rw [requestsSent_cons _ he, ← List.append_assoc]
    exact ih (h.step he)

end

theorem txSound_run (hrun : Run (step W) PfcpServer.new es t) :
    TxSound W (requestsSent W PfcpServer.new es) t :=
  (txSound_new W).run hrun

/-! ## Echoes -/

/-- A datagram that answers the datagram `sent`: a response with the sequence number that is
    read from `sent`. -/
structure Echo (W : World) (sent buf : List UInt8) (rsp : Message) : Prop where
  decoded : decode W buf = some rsp
  isResponse : rsp.isResponse = true
  echoed : ∃ msg, W.codec.parse sent = some msg ∧ rsp.sequence = msg.sequence

/-- Receiving `buf` finds the transaction `tx`, stops its timer and removes it, before the
    response is dispatched with the transaction's request. -/
def Resolves (W : World) (t : PfcpServer) (addr : Addr) (buf : List UInt8) (rsp : Message)
    (tx : TxTransaction) : Prop :=
  t.txTrans.lookup (trID addr rsp.sequence) = some tx ∧
    t.receive W addr buf =
      { t with
        timers := t.timers.erase (.tx, tx.id)
        txTrans := t.txTrans.erase tx.id }.rspDispacher W rsp addr tx.req

/-- A transaction in the table whose request went out. -/
def Outstanding (t : PfcpServer) (tx : TxTransaction) : Prop :=
  t.txTrans.lookup tx.id = some tx ∧ tx.req.isSome = true

/-- The wire carries the number of an outstanding request modulo 2 ^ 24. -/
theorem wire_sequence (hseq : W.codec.Seq24) (h : TxSound W log t) (hout : Outstanding t tx)
    (hparse : W.codec.parse tx.msgBuf = some msg) : msg.sequence.toNat = tx.seq.toNat % 2 ^ 24 := by
  obtain ⟨req, hreq⟩ := Option.isSome_iff_exists.mp hout.2
  obtain ⟨_, _, _, _, _, hnum, hb, _⟩ := (h.entry tx.id tx hout.1).sent req hreq
  rw [← hnum]
  exact hseq req tx.msgBuf msg hb hparse

/-- The echo of an outstanding request resolves its transaction just when its number fits
    the wire. -/
theorem resolves_iff (hseq : W.codec.Seq24) (h : TxSound W log t) (hout : Outstanding t tx)
    {buf : List UInt8} {rsp : Message} (hecho : Echo W tx.msgBuf buf rsp) :
    Resolves W t tx.raddr buf rsp tx ↔ tx.seq.toNat < 2 ^ 24 := by
  have hentry := h.entry tx.id tx hout.1
  obtain ⟨req, hreq⟩ := Option.isSome_iff_exists.mp hout.2
  obtain ⟨_, _, _, _, _, _, _, htimer⟩ := hentry.sent req hreq
  obtain ⟨msg, hparse, hnum⟩ := hecho.echoed
  have hwire : rsp.sequence.toNat = tx.seq.toNat % 2 ^ 24 := by
    rw [hnum]
    exact wire_sequence hseq h hout hparse
  constructor
  · intro hres
    have hkey : trID tx.raddr rsp.sequence = trID tx.raddr tx.seq :=
      (h.entry _ tx hres.1).id.symm.trans hentry.key
    rw [(trID_inj hkey).2] at hwire
    omega
  · intro hlt
    have hsame : rsp.sequence = tx.seq := by
      apply UInt32.toNat_inj.mp
      omega
    have hlookup : t.txTrans.lookup (trID tx.raddr rsp.sequence) = some tx := by
      rw [hsame, ← hentry.key]
      exact hout.1
    refine ⟨hlookup, ?_⟩
    rw [receive_response hecho.decoded hecho.isResponse]
    unfold PfcpServer.receiveResponse PfcpServer.txRecv
    rw [hlookup]
    dsimp only
    rw [if_pos htimer]
    rfl

/-- A request that marshals is outstanding once it is sent. -/
theorem outstanding_sendReqTo (s : PfcpServer) (hmsg : msg.isRequest = true) (addr : Addr)
    {b : List UInt8} (hb : W.codec.marshal (msg.setReqSeq s.txSeq) = some b) :
    Outstanding (s.sendReqTo W msg addr) (sentTransaction addr s.txSeq msg b) := by
  obtain ⟨hnone, _⟩ | ⟨b', hb', heq⟩ := sendReqTo_cases W s hmsg addr
  · rw [hb] at hnone
    cases hnone
  · rw [hb] at hb'
    cases hb'
    rw [heq]
    exact ⟨Finmap.lookup_insert _, rfl⟩

/-- Of at most 2 ^ 24 requests, no two that are outstanding to one peer have the same number
    on the wire. -/
theorem wire_sequence_ne (hseq : W.codec.Seq24) (h : TxSound W log t) (hlen : log.length ≤ 2 ^ 24)
    {tx' : TxTransaction} (hout : Outstanding t tx) (hout' : Outstanding t tx')
    (haddr : tx.raddr = tx'.raddr) (hne : tx ≠ tx') {msg' : Message}
    (hparse : W.codec.parse tx.msgBuf = some msg) (hparse' : W.codec.parse tx'.msgBuf = some msg') :
    msg.sequence ≠ msg'.sequence := by
  have hsmall : ∀ x, Outstanding t x → x.seq.toNat < 2 ^ 24 := by
    intro x hx
    obtain ⟨req, hreq⟩ := Option.isSome_iff_exists.mp hx.2
    obtain ⟨k, _, hk, hnum, _⟩ := (h.entry x.id x hx.1).sent req hreq
    have hlt : k < log.length := (List.getElem?_eq_some_iff.mp hk).1
    rw [hnum, UInt32.toNat_ofNat']
    omega
  intro heq
  have hwire := wire_sequence hseq h hout hparse
  have hwire' := wire_sequence hseq h hout' hparse'
  have hlt := hsmall tx hout
  have hlt' := hsmall tx' hout'
  have hnum : tx.seq = tx'.seq := by
    apply UInt32.toNat_inj.mp
    rw [heq] at hwire
    omega
  have hid : tx.id = tx'.id := by
    rw [(h.entry _ tx hout.1).key, (h.entry _ tx' hout'.1).key, haddr, hnum]
  have hsame := hout.1
  rw [hid, hout'.1] at hsame
  exact hne (Option.some.inj hsame).symm

/-! ## A run with 2 ^ 24 requests

One session, and a peer that answers every request. -/

def peer : Addr := "10.0.0.1:8805"

/-- Headers stand for an association, a session, its reports and the answers to them. -/
def peerBody (t : UInt8) (seq : UInt32) : Option Message :=
  if t = 5 then some (setupRequest seq "10.0.0.1")
  else if t = 50 then some (.sessionEstablishmentRequest (establishRequest seq "10.0.0.1" 10))
  else if t = 56 then some (.sessionReportRequest ⟨seq, 10, .downlinkData 1⟩)
  else if t = 57 then some (.sessionReportResponse seq 1)
  else none

def peerWorld : World :=
  { World.isolated (fun _ => Answer.done) with
    codec := Codec.ofHeaders (fun m => if m.isRequest then 56 else 57) peerBody
    resolveUDPAddr := some }

theorem seq24_peerWorld : peerWorld.codec.Seq24 := by
  refine Codec.seq24_ofHeaders _ _ fun t seq m h => ?_
  unfold peerBody at h
  split_ifs at h
  all_goals
    cases h
    rfl

/-- The association and the session are set up. -/
def openSession : List Event :=
  [.receive peer (pfcpHeader 5 1), .receive peer (pfcpHeader 50 2)]

/-- The kernel reports a downlink packet for PDR 1 of the session. -/
def notify : Event := .report ⟨1, [.dld ⟨1, applyActNocp, []⟩]⟩

/-- The request that `notify` makes the UPF send. -/
def notification : Message := .sessionReportRequest ⟨0, 10, .downlinkData 1⟩

theorem isRequest_notification : notification.isRequest = true := rfl

/-- Session 1 is there and its reports go to the peer. -/
def Serves (s : PfcpServer) : Prop :=
  ∃ sess, s.lnode.sessOf 1 = some sess ∧ sess.remoteID = 10 ∧
    s.reportAddr peerWorld sess = some peer

theorem step_notify (h : Serves s) :
    s.step peerWorld notify = some (s.sendReqTo peerWorld notification peer) ∧
      s.requestsOf peerWorld notify = [notification] := by
  obtain ⟨sess, hsess, hid, haddr⟩ := h
  have hserve : s.serveReport peerWorld ⟨1, [.dld ⟨1, applyActNocp, []⟩]⟩ =
      (s.sendReqTo peerWorld notification peer, [notification]) := by
    have hdld : s.serveDLDReport peerWorld peer 1 1 =
        (s.sendReqTo peerWorld notification peer, [notification]) := by
      unfold serveDLDReport
      rw [hsess]
      dsimp only
      rw [hid]
      rfl
    have hloop : s.serveReports peerWorld peer 1 [.dld ⟨1, applyActNocp, []⟩] [] [] =
        (s.sendReqTo peerWorld notification peer, [notification], some []) := by
      show serveReports peerWorld peer 1 [] (s.serveDLDReport peerWorld peer 1 1).1
        ([] ++ (s.serveDLDReport peerWorld peer 1 1).2) [] = _
      rw [hdld]
      rfl
    unfold serveReport
    rw [hsess]
    dsimp only
    rw [haddr]
    dsimp only
    rw [hloop]
    rfl
  refine ⟨?_, ?_⟩
  · show some (s.serveReport peerWorld _).1 = _
    rw [hserve]
  · show (s.serveReport peerWorld _).2 = _
    rw [hserve]

theorem run_openSession : ∃ s, Run (step peerWorld) PfcpServer.new openSession s ∧ Serves s ∧
    s.txTrans = ∅ ∧ requestsSent peerWorld PfcpServer.new openSession = [] := by
  refine ⟨_, Run.cons rfl (Run.cons rfl (Run.nil _)), ⟨_, rfl, rfl, rfl⟩, rfl, rfl⟩

/-- The peer's answer to the notification with this number. -/
theorem echo_notification (seq : UInt32) :
    Echo peerWorld (pfcpHeader 56 seq) (pfcpHeader 57 seq)
      (.sessionReportResponse (UInt32.ofNat (seq.toNat % 2 ^ 24)) 1) := by
  refine ⟨?_, rfl, _, Codec.parse_pfcpHeader _ _ 56 seq, rfl⟩
  unfold decode
  rw [show peerWorld.codec.parse (pfcpHeader 57 seq) = _ from Codec.parse_pfcpHeader _ _ 57 seq]
  show (if validatePfcpPacketLength (pfcpHeader 57 seq) = true then _ else none) = _
  rw [if_pos (validatePfcpPacketLength_pfcpHeader 57 seq)]

/-- The loop has taken these events, the session is there and no transaction is open. -/
structure Idle (es : List Event) (s : PfcpServer) : Prop where
  run : Run (step peerWorld) PfcpServer.new es s
  serves : Serves s
  empty : ∀ key, s.txTrans.lookup key = none

/-- As long as the counter fits the wire, a notification is sent and answered. -/
theorem Idle.exchange (h : Idle es s)
    (hlt : (requestsSent peerWorld PfcpServer.new es).length < 2 ^ 24) :
    ∃ es' s', Idle es' s' ∧ (requestsSent peerWorld PfcpServer.new es').length =
      (requestsSent peerWorld PfcpServer.new es).length + 1 := by
  obtain ⟨hnotify, hsent⟩ := step_notify h.serves
  obtain ⟨hcore, _, hother⟩ := sendReqTo_frame peerWorld s isRequest_notification peer
  have hout : Outstanding (s.sendReqTo peerWorld notification peer)
      (sentTransaction peer s.txSeq notification (pfcpHeader 56 s.txSeq)) :=
    outstanding_sendReqTo s isRequest_notification peer rfl
  have hsound : TxSound peerWorld (requestsSent peerWorld PfcpServer.new es) s :=
    txSound_run h.run
  have hfits : s.txSeq.toNat < 2 ^ 24 := by
    rw [hsound.seq, UInt32.toNat_ofNat']
    omega
  have hres := (resolves_iff seq24_peerWorld (hsound.sendReqTo isRequest_notification peer) hout
    (echo_notification s.txSeq)).mpr hfits
  generalize s.sendReqTo peerWorld notification peer = t at *
  have hanswer : t.step peerWorld (.receive peer (pfcpHeader 57 s.txSeq)) = some { t with
      timers := t.timers.erase (.tx, trID peer s.txSeq)
      txTrans := t.txTrans.erase (trID peer s.txSeq) } := hres.2
  refine ⟨_, _, ⟨h.run.append (Run.cons hnotify (Run.cons hanswer (Run.nil _))), ?_,
    fun key => ?_⟩, ?_⟩
  · obtain ⟨sess, hsess, hid, haddr⟩ := h.serves
    have hlnode : t.lnode = s.lnode := congrArg Core.lnode hcore
    have hnodes : t.nodes = s.nodes := congrArg Core.nodes hcore
    refine ⟨sess, ?_, hid, ?_⟩
    · rw [← hsess, ← hlnode]
    · rw [← haddr]
      unfold reportAddr
      rw [← hnodes]
  · show (t.txTrans.erase (trID peer s.txSeq)).lookup key = none
    rw [GoMap.lookup_erase_eq]
    split_ifs with hkey
    · rfl
    · exact (hother key hkey).trans (h.empty key)
  · rw [requestsSent_append h.run, requestsSent_cons _ hnotify, hsent,
      requestsSent_cons _ hanswer, List.length_append]
    rfl

theorem exists_idle (n : Nat) (hn : n ≤ 2 ^ 24) :
    ∃ es s, Idle es s ∧ (requestsSent peerWorld PfcpServer.new es).length = n := by
  induction n with
  | zero =>
    obtain ⟨s, hrun, hserves, hempty, hsent⟩ := run_openSession
    refine ⟨openSession, s, ⟨hrun, hserves, fun key => ?_⟩, by rw [hsent]; rfl⟩
    rw [hempty]
    exact Finmap.lookup_empty key
  | succ n ih =>
    obtain ⟨es, s, hidle, hlen⟩ := ih (by omega)
    obtain ⟨es', s', hidle', hlen'⟩ := hidle.exchange (by omega)
    exact ⟨es', s', hidle', by rw [hlen', hlen]⟩

/-! ## Matching over runs -/

/-- In every state that the main loop reaches, with the requests `log` sent so far: the echo
    of the next request finds its transaction, stops its timer and removes it if and only if
    the number of requests already sent is below 2 ^ 24, counted modulo 2 ^ 32; so does the
    echo of each outstanding request, for the number of requests that were sent before it.
    As long as at most 2 ^ 24 requests were sent, those outstanding to one peer have different
    numbers on the wire. -/
theorem echo_resolves_iff {W : World} (hseq : W.codec.Seq24) {t : PfcpServer} {es : List Event}
    (hrun : Run (step W) PfcpServer.new es t) :
    let log := requestsSent W PfcpServer.new es
    (∀ msg addr b buf rsp, msg.isRequest = true →
      W.codec.marshal (msg.setReqSeq t.txSeq) = some b → Echo W b buf rsp →
        let tx := sentTransaction addr t.txSeq msg b
        Outstanding (t.sendReqTo W msg addr) tx ∧
          (Resolves W (t.sendReqTo W msg addr) addr buf rsp tx ↔
            log.length % 2 ^ 32 < 2 ^ 24)) ∧
    (∀ tx, Outstanding t tx → ∃ k msg, log[k]? = some msg ∧ tx.seq = UInt32.ofNat k ∧
      tx.req = some (msg.setReqSeq tx.seq) ∧
      ∀ buf rsp, Echo W tx.msgBuf buf rsp →
        (Resolves W t tx.raddr buf rsp tx ↔ k % 2 ^ 32 < 2 ^ 24)) ∧
    (log.length ≤ 2 ^ 24 → ∀ tx tx', Outstanding t tx → Outstanding t tx' →
      tx.raddr = tx'.raddr → tx ≠ tx' → ∀ msg msg', W.codec.parse tx.msgBuf = some msg →
        W.codec.parse tx'.msgBuf = some msg' → msg.sequence ≠ msg'.sequence) := by
  intro log
  have h : TxSound W log t := txSound_run hrun
  refine ⟨?_, ?_, ?_⟩
  · intro msg addr b buf rsp hmsg hb hecho tx
    have hout : Outstanding (t.sendReqTo W msg addr) tx := outstanding_sendReqTo t hmsg addr hb
    refine ⟨hout, (resolves_iff hseq (h.sendReqTo hmsg addr) hout hecho).trans ?_⟩
    show t.txSeq.toNat < 2 ^ 24 ↔ _
    rw [h.seq, UInt32.toNat_ofNat']
  · intro tx hout
    obtain ⟨req, hreq⟩ := Option.isSome_iff_exists.mp hout.2
    obtain ⟨k, msg, hk, hnum, hset, _⟩ := (h.entry tx.id tx hout.1).sent req hreq
    refine ⟨k, msg, hk, hnum, by rw [hreq, hset], fun buf rsp hecho => ?_⟩
    rw [resolves_iff hseq h hout hecho, hnum, UInt32.toNat_ofNat']
  · intro hlen tx tx' hout hout' haddr hne msg msg' hparse hparse'
    exact wire_sequence_ne hseq h hlen hout hout' haddr hne hparse hparse'

/-- The first request of a session is matched. -/
theorem first_echo_resolves :
    ∃ es t, Run (step peerWorld) PfcpServer.new es t ∧
      requestsSent peerWorld PfcpServer.new es = [] ∧
      Resolves peerWorld (t.sendReqTo peerWorld notification peer) peer (pfcpHeader 57 t.txSeq)
        (.sessionReportResponse (UInt32.ofNat (t.txSeq.toNat % 2 ^ 24)) 1)
        (sentTransaction peer t.txSeq notification (pfcpHeader 56 t.txSeq)) := by
  obtain ⟨t, hrun, _, _, hsent⟩ := run_openSession
  have hall := (echo_resolves_iff seq24_peerWorld hrun).1 notification peer
    (pfcpHeader 56 t.txSeq) (pfcpHeader 57 t.txSeq) _ isRequest_notification rfl
    (echo_notification t.txSeq)
  refine ⟨openSession, t, hrun, hsent, hall.2.mpr ?_⟩
  rw [hsent]
  decide

/-- After 2 ^ 24 requests, all of them answered, the echo of the next one finds no
    transaction: it is dropped, and the request stays outstanding with its timer. -/
theorem echo_after_two_pow_24_dropped :
    ∃ es t tx buf rsp, Run (step peerWorld) PfcpServer.new es t ∧
      (requestsSent peerWorld PfcpServer.new es).length = 2 ^ 24 + 1 ∧
      tx.seq = UInt32.ofNat (2 ^ 24) ∧ Outstanding t tx ∧ Echo peerWorld tx.msgBuf buf rsp ∧
      ¬ Resolves peerWorld t tx.raddr buf rsp tx ∧ t.receive peerWorld tx.raddr buf = some t := by
  obtain ⟨es, s, h, hlen⟩ := exists_idle (2 ^ 24) (Nat.le_refl _)
  obtain ⟨hnotify, hsent⟩ := step_notify h.serves
  obtain ⟨_, _, hother⟩ := sendReqTo_frame peerWorld s isRequest_notification peer
  have hout : Outstanding (s.sendReqTo peerWorld notification peer)
      (sentTransaction peer s.txSeq notification (pfcpHeader 56 s.txSeq)) :=
    outstanding_sendReqTo s isRequest_notification peer rfl
  have hseq : s.txSeq = UInt32.ofNat (2 ^ 24) := by
    rw [(txSound_run h.run).seq, hlen]
  have hwire : UInt32.ofNat (s.txSeq.toNat % 2 ^ 24) = 0 := by
    rw [hseq]
    decide
  have hmiss : (s.sendReqTo peerWorld notification peer).txTrans.lookup
      (trID peer (Message.sessionReportResponse 0 1).sequence) = none := by
    rw [hother _ fun hkey => ?_, h.empty]
    have hzero := (trID_inj hkey).2
    rw [hseq] at hzero
    exact absurd hzero (by decide)
  have hecho := echo_notification s.txSeq
  rw [hwire] at hecho
  refine ⟨es ++ [notify], s.sendReqTo peerWorld notification peer, _, pfcpHeader 57 s.txSeq, _,
    h.run.append (Run.cons hnotify (Run.nil _)), ?_, hseq, hout, hecho, ?_, ?_⟩
  · rw [requestsSent_append h.run, requestsSent_cons _ hnotify, hsent, List.length_append, hlen]
    rfl
  · intro hres
    cases hmiss.symm.trans hres.1
  · show PfcpServer.receive peerWorld _ peer (pfcpHeader 57 s.txSeq) = _
    rw [receive_response hecho.decoded hecho.isResponse]
    unfold PfcpServer.receiveResponse
    rw [hmiss]

end Free5gc.Upf.PfcpServer
