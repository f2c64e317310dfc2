/-
  Session reports (`internal/pfcp/report.go`), responses to them, and the server's main loop
  (`PfcpServer.main` in `internal/pfcp/pfcp.go`).

  `step` is one turn of the loop on one event. It is `none` where the loop ends: on the
  empty packet that the receiver sends when it stops, and on a nil dereference.
-/
import Free5gc.Upf.Pfcp.Session

namespace Free5gc.Upf.PfcpServer

open Free5gc.Lib

/-! ## Session reports -/

/-- `serveDLDReport`: the server and the request handed to `sendReqTo`. -/
def serveDLDReport (W : World) (s : PfcpServer) (addr : Addr) (lSeid : Nat)
    (pdrid : UInt16) : PfcpServer × List Message :=
  match s.lnode.sessOf lSeid with
  | none => (s, [])
  | some sess =>
    let req := .sessionReportRequest
      { seq := 0, seid := sess.remoteID, content := .downlinkData pdrid }
    (s.sendReqTo W req addr, [req])

/-- `serveUSAReport`. -/
def serveUSAReport (W : World) (s : PfcpServer) (addr : Addr) (lSeid : Nat)
    (usars : List USAReport) : PfcpServer × List Message :=
  match s.lnode.sessOf lSeid with
  | none => (s, [])
  | some sess =>
    let (sess, reports) :=
      usars.foldl (Sess.putReport USAReport.iesWithinSessReportReq) (sess, [])
    let req := .sessionReportRequest
      { seq := 0, seid := sess.remoteID, content := .usage reports }
    ((s.setSess sess).sendReqTo W req addr, [req])

/-- `sess.Push` on the session in the table. -/
def pushBufPkt (s : PfcpServer) (lSeid : Nat) (r : DLDReport) : PfcpServer :=
  if r.action &&& applyActBuff != 0 && r.bufPkt.length > 0 then
    match s.lnode.sessOf lSeid with
    | none => s
    | some sess => s.setSess (sess.push r.pdrid r.bufPkt)
  else s

/-- The loop of `ServeReport` over the reports: the server, the requests sent and the usage
    reports collected, `none` when a downlink data report without `NOCP` ends it early. -/
def serveReports (W : World) (addr : Addr) (lSeid : Nat) :
    List Report → PfcpServer → List Message → List USAReport →
      PfcpServer × List Message × Option (List USAReport)
  | [], s, msgs, usars => (s, msgs, some usars)
  | .dld r :: rest, s, msgs, usars =>
    let s := s.pushBufPkt lSeid r
    if r.action &&& applyActNocp == 0 then (s, msgs, none)
    else
      let (s, sent) := s.serveDLDReport W addr lSeid r.pdrid
      serveReports W addr lSeid rest s (msgs ++ sent) usars
  | .usa r :: rest, s, msgs, usars => serveReports W addr lSeid rest s msgs (usars ++ [r])
  | .unsupported :: rest, s, msgs, usars => serveReports W addr lSeid rest s msgs usars

/-- The address `ServeReport` sends to: the node's id and the PFCP port, resolved. -/
def reportAddr (W : World) (s : PfcpServer) (sess : Sess) : Option Addr :=
  match s.nodes[sess.rnode]? with
  | none => none
  | some n => W.resolveUDPAddr (n.id ++ ":" ++ toString upfPfcpDefaultPort)

/-- `ServeReport`: the server and the requests handed to `sendReqTo`. -/
def serveReport (W : World) (s : PfcpServer) (sr : SessReport) : PfcpServer × List Message :=
  match s.lnode.sessOf sr.seid with
  | none => (s, [])
  | some sess =>
    match s.reportAddr W sess with
    | none => (s, [])
    | some addr =>
      match s.serveReports W addr sr.seid sr.reports [] [] with
      | (s, msgs, none) => (s, msgs)
      | (s, msgs, some usars) =>
        if usars.length > 0 then
          let (s, sent) := s.serveUSAReport W addr sr.seid usars
          (s, msgs ++ sent)
        else (s, msgs)

/-! ## Responses -/

/-- `handleSessionReportResponse`: a response with SEID 0 deletes the session it answers
    for. `none` is a nil dereference. -/
def handleSessionReportResponse (W : World) (s : PfcpServer) (seid : Nat) (addr : Addr)
    (req : Message) : Option PfcpServer :=
  if seid = 0 then
    match remoteSessLoop s.nodes req.seid addr s.lnode.sess with
    | none => none
    | some none => some s
    | some (some sess) => some (s.deleteSess W sess.rnode sess.localID).1
  else some s

/-- `rspDispacher`. -/
def rspDispacher (W : World) (s : PfcpServer) (msg : Message) (addr : Addr)
    (req : Option Message) : Option PfcpServer :=
  match msg with
  | .sessionReportResponse _ seid =>
    match req with
    | none => none
    | some req => s.handleSessionReportResponse W seid addr req
  | _ => some s

/-! ## The main loop -/

/-- What the main loop takes off its channels. -/
inductive Event where
  | report (sr : SessReport)
  | receive (addr : Addr) (buf : List UInt8)
  | timeout (ty : TransType) (id : String)
  deriving DecidableEq, Repr

/-- A datagram that parses and has the length it declares. -/
def decode (W : World) (buf : List UInt8) : Option Message :=
  match W.codec.parse buf with
  | none => none
  | some msg => if validatePfcpPacketLength buf then some msg else none

/-- A new RX transaction in the table, with its timer running. -/
def openRx (s : PfcpServer) (addr : Addr) (seq : UInt32) : PfcpServer :=
  let rx := newRxTransaction addr seq
  { s with rxTrans := s.rxTrans.insert (trID addr seq) rx }.startTimer .rx rx.id

/-- A request: dispatched when its RX transaction is new, answered from it otherwise. -/
def receiveRequest (W : World) (s : PfcpServer) (addr : Addr) (msg : Message) : PfcpServer :=
  match s.rxTrans.lookup (trID addr msg.sequence) with
  | some rx => s.rxRetransmit rx
  | none => ((s.openRx addr msg.sequence).reqDispacher W msg addr).1

/-- A response: matched with the TX transaction of its key. -/
def receiveResponse (W : World) (s : PfcpServer) (addr : Addr) (msg : Message) :
    Option PfcpServer :=
  match s.txTrans.lookup (trID addr msg.sequence) with
  | none => some s
  | some tx =>
    match s.txRecv tx with
    | none => none
    | some s => s.rspDispacher W msg addr tx.req

/-- A packet off `rcvCh`. -/
def receive (W : World) (s : PfcpServer) (addr : Addr) (buf : List UInt8) :
    Option PfcpServer :=
  if buf = [] then none
  else
    match decode W buf with
    | none => some s
    | some msg =>
      if msg.isRequest then some (s.receiveRequest W addr msg)
      else if msg.isResponse then s.receiveResponse W addr msg
      else some s

/-- A notification off `trToCh`; the timer that sent it has fired. -/
def transTimeout (W : World) (s : PfcpServer) (ty : TransType) (id : String) : PfcpServer :=
  let s := s.stopTimer ty id
  match ty with
  | .tx =>
    match s.txTrans.lookup id with
    | none => s
    | some tx => s.txTimeout W id tx
  | .rx =>
    match s.rxTrans.lookup id with
    | none => s
    | some rx => s.rxTimeout rx

/-- One turn of `main`. -/
def step (W : World) (s : PfcpServer) : Event → Option PfcpServer
  | .report sr => some (s.serveReport W sr).1
  | .receive addr buf => s.receive W addr buf
  | .timeout ty id => some (s.transTimeout W ty id)

end Free5gc.Upf.PfcpServer
