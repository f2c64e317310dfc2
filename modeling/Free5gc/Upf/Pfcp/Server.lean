/-
  The state of the PFCP server and the operations its handlers are made of: the session
  table and the remote nodes (`LocalNode`, `RemoteNode` in `internal/pfcp/node.go`), the
  transactions (`internal/pfcp/transaction.go`), `UpdateNodeID`, `sendReqTo` and `sendRspTo`
  (`internal/pfcp/pfcp.go`).

  Remote nodes are shared by pointer, from `rnodes` and from every session of the node.
  They live in a table, `nodes`, that only grows, and a pointer is an index into it.

  A `World` is what the server is run against: the driver's oracle, go-pfcp's codec, name
  resolution and the configuration. `conn` logs the datagrams written; a write error is
  only logged by the source. `timers` are the transaction timers that are running, by the
  transaction they notify about.
-/
import Free5gc.Upf.Pfcp.Message
import Free5gc.Upf.Pfcp.Sess

namespace Free5gc.Upf

open Free5gc.Lib

/-- A `net.Addr`, as `addr.String()`. -/
abbrev Addr := String

/-- `factory.UpfPfcpDefaultPort`. -/
def upfPfcpDefaultPort : Nat := 8805

structure World extends Oracle where
  codec : Codec
  nodeID : String
  recoveryTime : Int
  maxRetrans : UInt8
  /-- `net.ResolveUDPAddr("udp4", …)`. -/
  resolveUDPAddr : String → Option Addr
  /-- `net.ResolveIPAddr("ip4", …)`. -/
  resolveIPAddr : String → Option String

/-- A world to run the handlers in, with these answers of the kernel: no datagram parses or
    marshals, and no name resolves. -/
def World.isolated (answer : Nat → Answer) : World :=
  { Oracle.ofAnswers answer with
    codec := ⟨fun _ => none, fun _ => none⟩, nodeID := "upf", recoveryTime := 0,
    maxRetrans := 3, resolveUDPAddr := fun _ => none, resolveIPAddr := fun _ => none }

/-! ## State -/

structure LocalNode where
  sess : List (Option Sess)
  free : List Nat

structure RemoteNode where
  id : String
  addr : Addr
  sess : Finset Nat
  deriving DecidableEq

/-- `TransType`. -/
inductive TransType where
  | tx
  | rx
  deriving DecidableEq, Repr

/-- `TxTransaction`; `timer` tells whether its timer is not nil. -/
structure TxTransaction where
  raddr : Addr
  seq : UInt32
  id : String
  req : Option Message
  msgBuf : List UInt8
  timer : Bool
  retransCount : UInt8
  deriving DecidableEq

structure RxTransaction where
  raddr : Addr
  seq : UInt32
  id : String
  msgBuf : List UInt8
  deriving DecidableEq

structure PfcpServer where
  driver : Gtp5g
  lnode : LocalNode
  nodes : List RemoteNode
  rnodes : GoMap String Nat
  txTrans : GoMap String TxTransaction
  rxTrans : GoMap String RxTransaction
  txSeq : UInt32
  timers : List (TransType × String)
  conn : List (Addr × List UInt8)

/-- `NewPfcpServer` with a driver just opened. -/
def PfcpServer.new : PfcpServer :=
  { driver := Gtp5g.open, lnode := ⟨[], []⟩, nodes := [], rnodes := ∅, txTrans := ∅,
    rxTrans := ∅, txSeq := 0, timers := [], conn := [] }

/-! ## Sessions -/

/-- `LocalNode.Sess`: the session with this SEID, counted from 1. -/
def LocalNode.sessOf (n : LocalNode) (lSeid : Nat) : Option Sess :=
  if lSeid = 0 then none else n.sess[lSeid - 1]?.join

/-- `LocalNode.NewSess`: the last free SEID, or a new one. -/
def LocalNode.newSess (n : LocalNode) (rnode rSeid : Nat) : LocalNode × Sess :=
  match n.free.getLast? with
  | some lSeid =>
    let s := Sess.new rnode lSeid rSeid
    ({ sess := n.sess.set (lSeid - 1) (some s), free := n.free.dropLast }, s)
  | none =>
    let s := Sess.new rnode (n.sess.length + 1) rSeid
    ({ n with sess := n.sess ++ [some s] }, s)

/-- The loop of `LocalNode.RemoteSess`. `none` is the nil dereference on a free slot,
    `some none` that no session matches. -/
def remoteSessLoop (nodes : List RemoteNode) (rSeid : Nat) (addr : Addr) :
    List (Option Sess) → Option (Option Sess)
  | [] => some none
  | none :: _ => none
  | some s :: rest =>
    if s.remoteID = rSeid ∧ (nodes[s.rnode]?.map (·.addr)) = some addr then some (some s)
    else remoteSessLoop nodes rSeid addr rest

namespace PfcpServer

/-- Write back a session that a handler changed through its pointer. -/
def setSess (s : PfcpServer) (sess : Sess) : PfcpServer :=
  { s with lnode.sess := s.lnode.sess.set (sess.localID - 1) (some sess) }

/-- `LocalNode.DeleteSess`, with the closed session, which the caller may still hold. -/
def localDeleteSess (W : World) (s : PfcpServer) (lSeid : Nat) :
    PfcpServer × List USAReport × Option Sess :=
  match s.lnode.sessOf lSeid with
  | none => (s, [], none)
  | some sess =>
    let (g, sess, usars) := sess.close W.toOracle s.driver
    ({ s with
        driver := g
        lnode := { sess := s.lnode.sess.set (lSeid - 1) none, free := s.lnode.free ++ [lSeid] } },
      usars, some sess)

/-- `RemoteNode.Sess`. -/
def nodeSess (s : PfcpServer) (n : Nat) (lSeid : Nat) : Option Sess :=
  match s.nodes[n]? with
  | none => none
  | some node => if lSeid ∈ node.sess then s.lnode.sessOf lSeid else none

/-- `RemoteNode.NewSess`. -/
def newSess (s : PfcpServer) (n : Nat) (rSeid : Nat) : PfcpServer × Sess :=
  let (lnode, sess) := s.lnode.newSess n rSeid
  ({ s with
      lnode
      nodes := s.nodes.modify n fun node =>
        { node with sess := insert sess.localID node.sess } }, sess)

/-- `delete(n.sess, lSeid)`. -/
def dropSess (s : PfcpServer) (n : Nat) (lSeid : Nat) : PfcpServer :=
  { s with nodes := s.nodes.modify n fun node => { node with sess := node.sess.erase lSeid } }

/-- `RemoteNode.DeleteSess`. -/
def deleteSess (W : World) (s : PfcpServer) (n : Nat) (lSeid : Nat) :
    PfcpServer × List USAReport × Option Sess :=
  match s.nodes[n]? with
  | none => (s, [], none)
  | some node =>
    if lSeid ∈ node.sess then (s.dropSess n lSeid).localDeleteSess W lSeid
    else (s, [], none)

/-- `RemoteNode.Reset`: every session of the node is deleted, its reports are dropped. -/
def reset (W : World) (s : PfcpServer) (n : Nat) : PfcpServer :=
  match s.nodes[n]? with
  | none => s
  | some node =>
    let seids := W.seids.keys s.driver.ranges node.sess
    let s := { s with driver := s.driver.range }
    let s := seids.foldl (fun s lSeid => (s.deleteSess W n lSeid).1) s
    { s with nodes := s.nodes.modify n fun node => { node with sess := ∅ } }

/-! ## Nodes -/

/-- `NewNode`: a new node, not yet under any id. -/
def newNode (s : PfcpServer) (id : String) (addr : Addr) : PfcpServer × Nat :=
  ({ s with nodes := s.nodes ++ [{ id, addr, sess := ∅ }] }, s.nodes.length)

/-- `UpdateNodeID`. -/
def updateNodeID (s : PfcpServer) (n : Nat) (newId : String) : PfcpServer :=
  match s.nodes[n]? with
  | none => s
  | some node =>
    { s with
      nodes := s.nodes.modify n fun node => { node with id := newId }
      rnodes := (s.rnodes.erase node.id).insert newId n }

/-! ## Transactions -/

/-- `fmt.Sprintf("%s-%d", addr, seq)`. -/
def trID (addr : Addr) (seq : UInt32) : String := addr ++ "-" ++ toString seq.toNat

/-- `startTimer`. -/
def startTimer (s : PfcpServer) (ty : TransType) (id : String) : PfcpServer :=
  { s with timers := s.timers ++ [(ty, id)] }

/-- `timer.Stop()`. -/
def stopTimer (s : PfcpServer) (ty : TransType) (id : String) : PfcpServer :=
  { s with timers := s.timers.erase (ty, id) }

/-- `conn.WriteTo`. -/
def writeTo (s : PfcpServer) (b : List UInt8) (addr : Addr) : PfcpServer :=
  { s with conn := s.conn ++ [(addr, b)] }

/-- `NewTxTransaction`. -/
def newTxTransaction (raddr : Addr) (seq : UInt32) : TxTransaction :=
  { raddr, seq, id := trID raddr seq, req := none, msgBuf := [], timer := false,
    retransCount := 0 }

/-- `NewRxTransaction`, which also starts its timer. -/
def newRxTransaction (raddr : Addr) (seq : UInt32) : RxTransaction :=
  { raddr, seq, id := trID raddr seq, msgBuf := [] }

/-- `TxTransaction.send`; a request that does not marshal leaves the transaction without a
    timer. -/
def txSend (W : World) (s : PfcpServer) (tx : TxTransaction) (req : Message) : PfcpServer :=
  let req := req.setReqSeq tx.seq
  match W.codec.marshal req with
  | none => s
  | some b =>
    let tx := { tx with req := some req, msgBuf := b, timer := true }
    (({ s with txTrans := s.txTrans.insert tx.id tx }.startTimer .tx tx.id).writeTo b tx.raddr)

/-- `sendReqTo`. -/
def sendReqTo (W : World) (s : PfcpServer) (msg : Message) (addr : Addr) : PfcpServer :=
  if msg.isRequest then
    let tx := newTxTransaction addr s.txSeq
    { s with txSeq := s.txSeq + 1, txTrans := s.txTrans.insert tx.id tx }.txSend W tx msg
  else s

/-- `TxTransaction.recv`: the timer is stopped and the transaction deleted. `none` is the
    nil dereference when the transaction never started a timer. -/
def txRecv (s : PfcpServer) (tx : TxTransaction) : Option PfcpServer :=
  if tx.timer then
    some { s.stopTimer .tx tx.id with txTrans := s.txTrans.erase tx.id }
  else none

/-- `TxTransaction.handleTimeout` of the transaction stored under `key`: retransmit, or give
    up. -/
def txTimeout (W : World) (s : PfcpServer) (key : String) (tx : TxTransaction) :
    PfcpServer :=
  if tx.retransCount < W.maxRetrans then
    let tx := { tx with retransCount := tx.retransCount + 1, timer := true }
    ({ s with txTrans := s.txTrans.insert key tx }.writeTo tx.msgBuf tx.raddr).startTimer
      .tx tx.id
  else { s with txTrans := s.txTrans.erase tx.id }

/-- `RxTransaction.send` on the transaction stored under `key`: the response is kept for
    retransmission and written. -/
def rxSend (W : World) (s : PfcpServer) (key : String) (rx : RxTransaction) (rsp : Message) :
    PfcpServer :=
  match W.codec.marshal rsp with
  | none => s
  | some b =>
    { s with rxTrans := s.rxTrans.insert key { rx with msgBuf := b } }.writeTo b rx.raddr

/-- `sendRspTo`. -/
def sendRspTo (W : World) (s : PfcpServer) (msg : Message) (addr : Addr) : PfcpServer :=
  if msg.isResponse then
    match s.rxTrans.lookup (trID addr msg.sequence) with
    | none => s
    | some rx => s.rxSend W (trID addr msg.sequence) rx msg
  else s

/-- `RxTransaction.recv` for a request whose transaction exists: the response sent for it,
    if any, is written again. -/
def rxRetransmit (s : PfcpServer) (rx : RxTransaction) : PfcpServer :=
  if rx.msgBuf = [] then s else s.writeTo rx.msgBuf rx.raddr

/-- `RxTransaction.handleTimeout`. -/
def rxTimeout (s : PfcpServer) (rx : RxTransaction) : PfcpServer :=
  { s with rxTrans := s.rxTrans.erase rx.id }

end PfcpServer

end Free5gc.Upf
