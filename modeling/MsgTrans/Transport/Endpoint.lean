import MsgTrans.Connection.Step
import MsgTrans.Transport.ReactorQueue

/-!
# Endpoints

A `Connection` with its read loop and its handler loop (`readLoop` and `handlerLoop` of
`Connection.kt`), and two of them joined by two byte streams.

The read loop decodes one packet at a time from what it has read; the handler loop takes the requests
from `inboundRequests` one after the other. What the application does is arbitrary: the handler may
return anything, throw or be cancelled, and may make requests of its own in between. `inboundEvents`
is a channel to the application, which accepts a message at some time or throws.

A stream is reliable and delivers in order, in any chunks: what one end reads next is a part of what
the socket of the other end has taken (`transmitted`) and has not been read yet. `arrived`, `decoded`
and `runs` are histories.
-/

namespace MsgTrans

/-- One run of the request handler: the request as the handler saw it, whether a handler was set, and
what the run returned. -/
structure HandlerRun where
  request : Packet
  handlerSet : Bool
  answer : Option KBytes := none
deriving DecidableEq, Repr

/-- Where the read loop is: in `stream.read`, between two packets, in `inboundRequests.send`, in
`inboundEvents.send`, or over. -/
inductive ReadLoop where
  | reading
  | decoding
  | offering
  | emitting
  | ended
deriving DecidableEq, Repr

/-- Where the handler loop is: about to call `inboundRequests.receive`, in it, in the handler, in the
`enqueue` of the answer (a call of the connection), or over. -/
inductive HandlerLoop where
  | idle
  | receiving
  | handling (packet : Packet)
  | answering (i : Nat)
  | ended
deriving DecidableEq, Repr

/-- A connection with its loops. -/
structure Endpoint where
  conn : Conn := .init
  readBuf : List UInt8 := []
  readLoop : ReadLoop := .reading
  firstInboundPacket : Bool := true
  requests : ReactorQueue Packet
  handlerLoop : HandlerLoop := .idle
  requestHandler : Bool := false
  runs : List HandlerRun := []
  arrived : List UInt8 := []
  decoded : List Packet := []

/-- What happens at an endpoint in one step. -/
inductive EndpointEvent where
  | conn (e : Event)
  | onRequest
  | read (chunk : List UInt8)
  | readFails
  | decode
  | emitted
  | offered
  | cancel (side : Side)
  | onCancelled (side : Side)
  | receive
  | received
  | handled (response : KBytes)
  | handlerFails
  | answered
deriving DecidableEq, Repr

/-- The events of the connection that its own loops make. -/
@[simp] def Event.ofLoops : Event → Bool
  | .respond .. | .response .. => true
  | _ => false

namespace Endpoint

/-- A started connection. -/
def new (env : Env) : Endpoint := { requests := .new env.config.inboundCapacity }

/-- What `shutdown` does to the loops: it closes `inboundRequests` and cancels both jobs. -/
def closeLoops (q : ReactorQueue Packet) : ReactorQueue Packet :=
  [.close, .cancel .producer, .cancel .consumer].foldl (fun q e => (q.step e).getD q) q

/-- The connection has made a step. If it has shut down, so have the loops. -/
def withConn (conn : Conn) (x : Endpoint) : Endpoint :=
  if conn.closed && !x.conn.closed then { x with conn, requests := closeLoops x.requests }
  else { x with conn }

/-- The read loop ends: its `finally` block. -/
def endRead (x : Endpoint) : Endpoint :=
  { x with readLoop := .ended }.withConn x.conn.shutdown

/-- The handler loop ends: its `finally` block. -/
def endHandler (x : Endpoint) : Endpoint :=
  { x with handlerLoop := .ended }.withConn x.conn.shutdown

/-- The read loop's `inboundRequests.send` has taken the queue to `q`. -/
def afterSend (q : ReactorQueue Packet) (x : Endpoint) : Endpoint :=
  match q.sender with
  | .outside =>
    if q.thrown.length = x.requests.thrown.length then { x with requests := q, readLoop := .decoding }
    else { x with requests := q }.endRead
  | _ => { x with requests := q, readLoop := .offering }

/-- The handler loop's `inboundRequests.receive` has taken the queue to `q`; with a request the
handler starts to run. -/
def afterReceive (q : ReactorQueue Packet) (x : Endpoint) : Endpoint :=
  match q.receiver with
  | .outside =>
    match q.received.drop x.requests.received.length with
    | [some packet] =>
      { x with
        requests := q, handlerLoop := .handling packet
        runs := x.runs ++ [⟨packet, x.requestHandler, none⟩] }
    | _ => { x with requests := q }.endHandler
  | _ => { x with requests := q, handlerLoop := .receiving }

/-- The body of the read loop for a packet that may come now: normalization, then the three types. -/
def onPacket (env : Env) (wirePacket : Packet) (x : Endpoint) : Option Endpoint :=
  match env.codecs.decompressPacket wirePacket env.config.maxDecompressedPayloadLength with
  | .error _ => some x.endRead
  | .ok packet =>
    match packet.type with
    | .response => (x.conn.step env (.response packet)).map fun conn => x.withConn conn
    | .request => (x.requests.step (.send packet)).map fun q => x.afterSend q
    | .oneWay => some { x with readLoop := .emitting }

/-- The check of the first inbound packet. -/
def admitted (env : Env) (wirePacket : Packet) (x : Endpoint) : Bool :=
  match env.config.requiredFirstRequestBizType with
  | none => true
  | some required =>
    !x.firstInboundPacket || wirePacket.type = .request && wirePacket.bizType = required

/-- The read loop takes the next packet from its buffer, or goes on reading. -/
def decode (env : Env) (x : Endpoint) : Option Endpoint :=
  if x.readLoop = .decoding ∧ x.conn.closed = false then
    match env.framing.decode env.config.maxPayloadLength x.readBuf with
    | .error _ => some x.endRead
    | .ok (none, rest) => some { x with readBuf := rest, readLoop := .reading }
    | .ok (some wirePacket, rest) =>
      let admitted := x.admitted env wirePacket
      let x := { x with
        readBuf := rest, firstInboundPacket := false, decoded := x.decoded ++ [wirePacket] }
      if admitted then x.onPacket env wirePacket else some x.endRead
  else none

/-- The handler has returned `response`, or there is none and the answer is empty; the loop enqueues
the answer. -/
def respond (env : Env) (packet : Packet) (response : KBytes) (x : Endpoint) : Option Endpoint :=
  match x.runs.getLast? with
  | none => none
  | some run =>
    if run.handlerSet ∨ response = .empty then
      (x.conn.step env (.respond packet.messageId packet.bizType response)).map fun conn =>
        { x with
          runs := x.runs.dropLast ++ [{ run with answer := some response }]
          handlerLoop := .answering x.conn.next }.withConn conn
    else none

/-- One step of an endpoint; `none` when the event cannot happen in this state. -/
def step (env : Env) (x : Endpoint) : EndpointEvent → Option Endpoint
  | .conn e => if e.ofLoops then none else (x.conn.step env e).map fun conn => x.withConn conn
  | .onRequest => some { x with requestHandler := true }
  | .read chunk =>
    if x.readLoop = .reading ∧ x.conn.closed = false then
      some { x with
        readBuf := x.readBuf ++ chunk, arrived := x.arrived ++ chunk, readLoop := .decoding }
    else none
  | .readFails => if x.readLoop = .reading ∨ x.readLoop = .emitting then some x.endRead else none
  | .decode => x.decode env
  | .emitted => if x.readLoop = .emitting then some { x with readLoop := .decoding } else none
  | .offered =>
    if x.readLoop = .offering then
      (x.requests.step (.run .producer)).map fun q => x.afterSend q
    else none
  | .cancel side => (x.requests.step (.cancel side)).map fun requests => { x with requests }
  | .onCancelled side => (x.requests.step (.onCancelled side)).map fun requests => { x with requests }
  | .receive =>
    if x.handlerLoop = .idle then (x.requests.step .receive).map fun q => x.afterReceive q else none
  | .received =>
    if x.handlerLoop = .receiving then
      (x.requests.step (.run .consumer)).map fun q => x.afterReceive q
    else none
  | .handled response =>
    match x.handlerLoop with
    | .handling packet => x.respond env packet response
    | _ => none
  | .handlerFails =>
    match x.handlerLoop with
    | .handling _ => some x.endHandler
    | _ => none
  | .answered =>
    match x.handlerLoop with
    | .answering i =>
      match (x.conn.calls i).pc with
      | .ended .done => some { x with handlerLoop := .idle }
      | .ended _ => some x.endHandler
      | _ => none
    | _ => none

end Endpoint

/-- Two endpoints joined by two streams. -/
def Net := Bool → Endpoint

namespace Net

/-- Two started connections. -/
def new (env : Bool → Env) : Net := fun side => .new (env side)

/-- What an endpoint reads is the next part of what its peer has transmitted. -/
def delivers (net : Net) (side : Bool) : EndpointEvent → Bool
  | .read chunk => chunk.isPrefixOf ((net !side).conn.transmitted.drop (net side).arrived.length)
  | _ => true

/-- One endpoint has moved. -/
def set (side : Bool) (x : Endpoint) (net : Net) : Net :=
  fun other => if other = side then x else net other

/-- The endpoint that was set. -/
@[simp] lemma set_self (side : Bool) (x : Endpoint) (net : Net) : net.set side x side = x := by
  simp [set]

/-- The other endpoint stays. -/
@[simp] lemma set_peer (side : Bool) (x : Endpoint) (net : Net) :
    net.set side x (!side) = net !side := by
  simp [set]

/-- One step of one of the two endpoints. -/
def step (env : Bool → Env) (net : Net) (e : Bool × EndpointEvent) : Option Net :=
  if net.delivers e.1 e.2 then
    ((net e.1).step (env e.1) e.2).map fun x => net.set e.1 x
  else none

end Net

end MsgTrans
