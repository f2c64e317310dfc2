/-
  What one turn of the main loop does to the transactions. The server is seen in two parts:
  `trans`, the transaction tables with the timers and the connection, and `core`, the
  sessions, nodes and the driver. A request that is dispatched touches `trans` by the one
  response that is sent for it (`answers_reqDispacher`), and `step_cases` lists the turns.
-/
import Free5gc.Lib.Keys
import Free5gc.Lib.Run
import Free5gc.Upf.Pfcp.Main

namespace Free5gc.Upf

open Free5gc.Lib

/-- The transactions of the server, the timers and the connection. -/
structure Trans where
  txTrans : GoMap String TxTransaction
  rxTrans : GoMap String RxTransaction
  txSeq : UInt32
  timers : List (TransType × String)
  conn : List (Addr × List UInt8)

/-- The rest of the server: sessions, nodes and the driver. -/
structure Core where
  driver : Gtp5g
  lnode : LocalNode
  nodes : List RemoteNode
  rnodes : GoMap String Nat

namespace PfcpServer

def trans (s : PfcpServer) : Trans := ⟨s.txTrans, s.rxTrans, s.txSeq, s.timers, s.conn⟩

def core (s : PfcpServer) : Core := ⟨s.driver, s.lnode, s.nodes, s.rnodes⟩

variable {s t : PfcpServer} {W : World} {msg : Message} {buf : List UInt8}

theorem trID_inj {addr addr' : Addr} {seq seq' : UInt32}
    (h : trID addr seq = trID addr' seq') : addr = addr' ∧ seq = seq' := by
  obtain ⟨haddr, hseq⟩ := dashed_injective h
  exact ⟨haddr, UInt32.toNat_inj.mp hseq⟩

/-! ## Operations on sessions and nodes -/

theorem trans_deleteSess (W : World) (s : PfcpServer) (n k : Nat) :
    (s.deleteSess W n k).1.trans = s.trans := by
  unfold deleteSess
  split
  · rfl
  · split_ifs
    · unfold localDeleteSess
      split
      · rfl
      · rfl
    · rfl

theorem trans_reset (W : World) (s : PfcpServer) (n : Nat) : (s.reset W n).trans = s.trans := by
  unfold reset
  split
  · rfl
  · exact foldl_frame (fun s lSeid => (s.deleteSess W n lSeid).1) trans
      (fun s k => trans_deleteSess W s n k) _ _

theorem trans_deleteNode (W : World) (s : PfcpServer) (rnodeid : String) :
    (s.deleteNode W rnodeid).trans = s.trans := by
  unfold deleteNode
  split
  · rfl
  · exact trans_reset W s _

theorem trans_updateNodeID (s : PfcpServer) (n : Nat) (newId : String) :
    (s.updateNodeID n newId).trans = s.trans := by
  unfold updateNodeID
  split
  · rfl
  · rfl

/-! ## Responses of the handlers -/

/-- A response reads and writes the transactions only. -/
theorem trans_sendRspTo_congr (W : World) (h : t.trans = s.trans) (rsp : Message) (addr : Addr) :
    (t.sendRspTo W rsp addr).trans = (s.sendRspTo W rsp addr).trans := by
  have hrx : t.rxTrans = s.rxTrans := congrArg Trans.rxTrans h
  have htx : t.txTrans = s.txTrans := congrArg Trans.txTrans h
  have hseq : t.txSeq = s.txSeq := congrArg Trans.txSeq h
  have htimers : t.timers = s.timers := congrArg Trans.timers h
  have hconn : t.conn = s.conn := congrArg Trans.conn h
  unfold sendRspTo rxSend writeTo trans
  rw [hrx]
  split_ifs
  · split
    · rw [hrx, htx, hseq, htimers, hconn]
    · split
      · rw [hrx, htx, hseq, htimers, hconn]
      · rw [htx, hseq, htimers, hconn]
  · rw [hrx, htx, hseq, htimers, hconn]

/-- The handler of a request with this number sends nothing and leaves the transactions, or
    hands one response of this number to `sendRspTo`. -/
def Answers (W : World) (s : PfcpServer) (seq : UInt32) (addr : Addr)
    (x : PfcpServer × Option Message) : Prop :=
  match x.2 with
  | none => x.1.trans = s.trans
  | some rsp => rsp.isResponse = true ∧ rsp.sequence = seq ∧
      x.1.trans = (s.sendRspTo W rsp addr).trans

theorem answers_sendRspTo (W : World) (h : t.trans = s.trans) {rsp : Message}
    (hrsp : rsp.isResponse = true) {seq : UInt32} (hseq : rsp.sequence = seq) (addr : Addr) :
    Answers W s seq addr (t.sendRspTo W rsp addr, some rsp) :=
  ⟨hrsp, hseq, trans_sendRspTo_congr W h rsp addr⟩

theorem answers_establish (W : World) (h : t.trans = s.trans) (req : SessionEstablishmentRequest)
    (addr : Addr) (n : Nat) (sess : Sess) :
    Answers W s req.seq addr (t.establish W req addr n sess) := by
  unfold establish
  split
  · refine ⟨rfl, rfl, (trans_deleteSess W _ n sess.localID).trans ?_⟩
    exact trans_sendRspTo_congr W h _ addr
  · split
    · rename_i g _
      refine ⟨rfl, rfl, (trans_deleteSess W _ n sess.localID).trans ?_⟩
      exact trans_sendRspTo_congr W (t := { t with driver := g }) h _ addr
    · refine ⟨rfl, rfl, trans_sendRspTo_congr W ?_ _ addr⟩
      exact h

theorem answers_establishment (W : World) (s : PfcpServer) (req : SessionEstablishmentRequest)
    (addr : Addr) :
    Answers W s req.seq addr (s.handleSessionEstablishmentRequest W req addr) := by
  unfold handleSessionEstablishmentRequest
  split
  · exact answers_sendRspTo W rfl rfl rfl addr
  · split
    · exact answers_sendRspTo W rfl rfl rfl addr
    · rename_i n _
      split
      · exact answers_sendRspTo W rfl rfl rfl addr
      · rename_i rSeid _
        exact answers_establish W (s := s) (t := (s.newSess n rSeid).1) rfl req addr n
          (s.newSess n rSeid).2

theorem answers_modifySess (W : World) (h : t.trans = s.trans) (sess : Sess)
    (req : SessionModificationRequest) (addr : Addr) :
    Answers W s req.seq addr (t.modifySess W sess req addr) := by
  unfold modifySess
  split
  · exact answers_sendRspTo W h rfl rfl addr
  · refine ⟨rfl, rfl, trans_sendRspTo_congr W ?_ _ addr⟩
    exact h

theorem answers_modification (W : World) (s : PfcpServer) (req : SessionModificationRequest)
    (addr : Addr) :
    Answers W s req.seq addr (s.handleSessionModificationRequest W req addr) := by
  unfold handleSessionModificationRequest
  split
  · exact answers_sendRspTo W rfl rfl rfl addr
  · split
    · exact answers_modifySess W rfl _ req addr
    · rfl
    · exact answers_modifySess W (trans_updateNodeID s _ _) _ req addr

theorem answers_deletion (W : World) (s : PfcpServer) (seq : UInt32) (lSeid : Nat)
    (addr : Addr) : Answers W s seq addr (s.handleSessionDeletionRequest W seq lSeid addr) := by
  unfold handleSessionDeletionRequest
  split
  · exact answers_sendRspTo W rfl rfl rfl addr
  · exact answers_sendRspTo W (trans_deleteSess W s _ lSeid) rfl rfl addr

theorem answers_setup (W : World) (s : PfcpServer) (req : AssociationSetupRequest)
    (addr : Addr) : Answers W s req.seq addr (s.handleAssociationSetupRequest W req addr) := by
  unfold handleAssociationSetupRequest
  split
  · rfl
  · rename_i rnodeid _
    exact answers_sendRspTo W (t := (s.deleteNode W rnodeid).addNode rnodeid addr)
      (trans_deleteNode W s rnodeid) rfl rfl addr

/-- A request that is dispatched gets one response at most, of its own number. -/
theorem answers_reqDispacher (W : World) (s : PfcpServer) (msg : Message) (addr : Addr) :
    Answers W s msg.sequence addr (s.reqDispacher W msg addr) := by
  cases msg with
  | heartbeatRequest seq => exact answers_sendRspTo W rfl rfl rfl addr
  | associationSetupRequest req => exact answers_setup W s req addr
  | sessionEstablishmentRequest req => exact answers_establishment W s req addr
  | sessionModificationRequest req => exact answers_modification W s req addr
  | sessionDeletionRequest seq seid => exact answers_deletion W s seq seid addr
  | _ => rfl

/-! ## Requests -/

/-- The transaction of a request that marshals to `b`. -/
def sentTransaction (addr : Addr) (seq : UInt32) (msg : Message) (b : List UInt8) :
    TxTransaction :=
  { newTxTransaction addr seq with
    req := some (msg.setReqSeq seq), msgBuf := b, timer := true }

theorem txSend_none {tx : TxTransaction} {req : Message}
    (h : W.codec.marshal (req.setReqSeq tx.seq) = none) : s.txSend W tx req = s := by
  unfold txSend
  dsimp only
  rw [h]

theorem txSend_some {tx : TxTransaction} {req : Message} {b : List UInt8}
    (h : W.codec.marshal (req.setReqSeq tx.seq) = some b) :
    s.txSend W tx req = { s with
      txTrans := s.txTrans.insert tx.id
        { tx with req := some (req.setReqSeq tx.seq), msgBuf := b, timer := true }
      timers := s.timers ++ [(.tx, tx.id)]
      conn := s.conn ++ [(tx.raddr, b)] } := by
  unfold txSend
  dsimp only
  rw [h]
  rfl

/-- What `sendReqTo` leaves: a number is used up; the transaction is stored without its
    request when this does not marshal, and otherwise with it, its timer running. -/
theorem sendReqTo_cases (W : World) (s : PfcpServer) (hmsg : msg.isRequest = true) (addr : Addr) :
    let key := trID addr s.txSeq
    let s' := { s with
      txSeq := s.txSeq + 1, txTrans := s.txTrans.insert key (newTxTransaction addr s.txSeq) }
    (W.codec.marshal (msg.setReqSeq s.txSeq) = none ∧ s.sendReqTo W msg addr = s') ∨
    ∃ b, W.codec.marshal (msg.setReqSeq s.txSeq) = some b ∧
      s.sendReqTo W msg addr = { s' with
        txTrans := s'.txTrans.insert key (sentTransaction addr s.txSeq msg b)
        timers := s.timers ++ [(.tx, key)]
        conn := s.conn ++ [(addr, b)] } := by
  intro key s'
  have hsend : s.sendReqTo W msg addr = s'.txSend W (newTxTransaction addr s.txSeq) msg := by
    unfold PfcpServer.sendReqTo
    exact if_pos hmsg
  rw [hsend]
  cases hb : W.codec.marshal (msg.setReqSeq s.txSeq) with
  | none => exact Or.inl ⟨rfl, txSend_none hb⟩
  | some b => exact Or.inr ⟨b, rfl, txSend_some hb⟩

/-- `sendReqTo` touches one key of the TX table, no RX transaction, session or node. -/
theorem sendReqTo_frame (W : World) (s : PfcpServer) (hmsg : msg.isRequest = true) (addr : Addr) :
    (s.sendReqTo W msg addr).core = s.core ∧ (s.sendReqTo W msg addr).rxTrans = s.rxTrans ∧
      ∀ key, key ≠ trID addr s.txSeq →
        (s.sendReqTo W msg addr).txTrans.lookup key = s.txTrans.lookup key := by
  obtain ⟨_, heq⟩ | ⟨b, _, heq⟩ := sendReqTo_cases W s hmsg addr
  · rw [heq]
    exact ⟨rfl, rfl, fun key hne => Finmap.lookup_insert_of_ne _ hne⟩
  · rw [heq]
    refine ⟨rfl, rfl, fun key hne => ?_⟩
    exact (Finmap.lookup_insert_of_ne _ hne).trans (Finmap.lookup_insert_of_ne _ hne)

/-! ## Session reports and responses -/

/-- Serving reports writes sessions back and sends the requests that it returns. What these
    operations keep, with the requests sent so far, is kept by `serveReports`. -/
theorem serveReports_inv (W : World) (P : List Message → PfcpServer → Prop)
    (hset : ∀ log s sess, P log s → P log (s.setSess sess))
    (hreq : ∀ log s m a, m.isRequest = true → P log s → P (log ++ [m]) (s.sendReqTo W m a))
    (addr : Addr) (lSeid : Nat) (rs : List Report) {log : List Message} (msgs : List Message)
    (usars : List USAReport) (h : P (log ++ msgs) s) :
    let x := serveReports W addr lSeid rs s msgs usars
    P (log ++ x.2.1) x.1 := by
  induction rs generalizing s msgs usars with
  | nil => exact h
  | cons r rs ih =>
    cases r with
    | dld r =>
      have hpush : P (log ++ msgs) (s.pushBufPkt lSeid r) := by
        unfold pushBufPkt
        split_ifs
        · split
          · exact h
          · exact hset _ s _ h
        · exact h
      unfold serveReports
      dsimp only
      split_ifs
      · exact hpush
      · refine ih _ usars ?_
        unfold serveDLDReport
        split
        · rw [List.append_nil]
          exact hpush
        · dsimp only
          rw [← List.append_assoc]
          refine hreq _ _ _ addr ?_ hpush
          rfl
    | usa r => exact ih msgs (usars ++ [r]) h
    | unsupported => exact ih msgs usars h

theorem serveReport_inv (W : World) (P : List Message → PfcpServer → Prop)
    (hset : ∀ log s sess, P log s → P log (s.setSess sess))
    (hreq : ∀ log s m a, m.isRequest = true → P log s → P (log ++ [m]) (s.sendReqTo W m a))
    (log : List Message) (h : P log s) (sr : SessReport) :
    P (log ++ (s.serveReport W sr).2) (s.serveReport W sr).1 := by
  rw [← List.append_nil log] at h
  unfold serveReport
  split
  · exact h
  · split
    · exact h
    · rename_i addr _
      have hloop := serveReports_inv W P hset hreq addr sr.seid sr.reports [] [] h
      split
      · rename_i t msgs heq
        rw [heq] at hloop
        exact hloop
      · rename_i t msgs usars heq
        rw [heq] at hloop
        split_ifs
        · dsimp only
          unfold serveUSAReport
          split
          · rw [List.append_nil]
            exact hloop
          · dsimp only at hloop ⊢
            rw [← List.append_assoc]
            refine hreq _ _ _ addr ?_ (hset _ t _ hloop)
            rfl
        · exact hloop

theorem trans_rspDispacher {s' : PfcpServer} {addr : Addr} {req : Option Message}
    (h : s.rspDispacher W msg addr req = some s') : s'.trans = s.trans := by
  unfold rspDispacher at h
  split at h
  · split at h
    · cases h
    · unfold handleSessionReportResponse at h
      split_ifs at h
      · split at h
        · cases h
        · cases h
          rfl
        · cases h
          exact trans_deleteSess W s _ _
      · cases h
        rfl
  · cases h
    rfl

/-! ## One turn of the loop -/

theorem ne_nil_of_decode (h : decode W buf = some msg) : buf ≠ [] := by
  rintro rfl
  unfold decode at h
  split at h
  · cases h
  · cases h

theorem receive_request (hdec : decode W buf = some msg) (hreq : msg.isRequest = true)
    (s : PfcpServer) (addr : Addr) : s.receive W addr buf = some (s.receiveRequest W addr msg) := by
  unfold receive
  rw [if_neg (ne_nil_of_decode hdec), hdec]
  exact if_pos hreq

theorem isRequest_of_isResponse {m : Message} (h : m.isResponse = true) :
    m.isRequest = false := by
  unfold Message.isResponse at h
  split at h
  all_goals first
    | rfl
    | exact absurd h (by decide)

theorem receive_response {rsp : Message} (hdec : decode W buf = some rsp)
    (hrsp : rsp.isResponse = true) (s : PfcpServer) (addr : Addr) :
    s.receive W addr buf = s.receiveResponse W addr rsp := by
  unfold receive
  rw [if_neg (ne_nil_of_decode hdec), hdec]
  dsimp only
  rw [isRequest_of_isResponse hrsp, hrsp]
  rfl

/-- A packet that is ignored: it does not decode, or is neither request nor response. -/
def Ignored (W : World) (buf : List UInt8) : Prop :=
  ∀ msg, decode W buf = some msg → msg.isRequest = false ∧ msg.isResponse = false

/-- The turns of the main loop. -/
theorem step_cases {s' : PfcpServer} {e : Event} (h : s.step W e = some s') :
    (∃ sr, e = .report sr ∧ s' = (s.serveReport W sr).1) ∨
    (∃ addr buf, e = .receive addr buf ∧ Ignored W buf ∧ s' = s) ∨
    (∃ addr buf msg, e = .receive addr buf ∧ decode W buf = some msg ∧ msg.isRequest = true ∧
      s' = s.receiveRequest W addr msg) ∨
    (∃ addr buf msg, e = .receive addr buf ∧ decode W buf = some msg ∧
      msg.isRequest = false ∧ msg.isResponse = true ∧ s.receiveResponse W addr msg = some s') ∨
    (∃ ty id, e = .timeout ty id ∧ s' = s.transTimeout W ty id) := by
  cases e with
  | report sr => exact Or.inl ⟨sr, rfl, (Option.some.inj h).symm⟩
  | timeout ty id =>
    exact Or.inr (Or.inr (Or.inr (Or.inr ⟨ty, id, rfl, (Option.some.inj h).symm⟩)))
  | receive addr buf =>
    replace h : s.receive W addr buf = some s' := h
    unfold receive at h
    split_ifs at h
    split at h
    · rename_i hdec
      refine Or.inr (Or.inl ⟨addr, buf, rfl, fun msg hmsg => ?_, (Option.some.inj h).symm⟩)
      rw [hdec] at hmsg
      cases hmsg
    · rename_i msg hdec
      split_ifs at h with hreq hrsp
      · exact Or.inr (Or.inr (Or.inl ⟨addr, buf, msg, rfl, hdec, hreq, (Option.some.inj h).symm⟩))
      · exact Or.inr (Or.inr (Or.inr (Or.inl
          ⟨addr, buf, msg, rfl, hdec, by simpa using hreq, hrsp, h⟩)))
      · refine Or.inr (Or.inl ⟨addr, buf, rfl, fun msg' hmsg => ?_, (Option.some.inj h).symm⟩)
        rw [hdec] at hmsg
        cases hmsg
        exact ⟨by simpa using hreq, by simpa using hrsp⟩

end PfcpServer

end Free5gc.Upf
