import MsgTrans.Connection.Ops

/-!
# Connection steps

One step of the connection is one thing the reactor does: a new call runs up to its first
suspension, a resumed coroutine runs up to its next one, a timer or an inbound response is
processed, the socket makes progress, or `shutdown` runs. The steps come in any order; a resumed
coroutine may run arbitrarily later than it was resumed, and resumed coroutines run in any order.

The stream is outside the sources. `IoStream.write` removes from the buffer exactly the bytes it
transmits (`transmit`), returns normally only once the buffer is empty, and otherwise throws an
`IoException`, another exception, or `CancellationException` when its coroutine is cancelled.
-/

namespace MsgTrans

/-- How a socket write or flush ends. -/
inductive IoResult where
  | ok
  | io (message : String)
  | other (message : String)
  | cancelled
deriving DecidableEq, Repr

/-- The exception a failed socket operation raises. -/
def IoResult.exception : IoResult → Throwable
  | .ok => .other ""
  | .io message => .io message
  | .other message => .other message
  | .cancelled => .cancellation

/-- What the reactor does in one step. -/
inductive Event where
  | request (payload : KBytes) (bizType : Int) (timeoutMillis : Int) (compression : Compression)
  | send (payload : KBytes) (bizType : Int) (compression : Compression)
  | respond (messageId : UInt32) (bizType : Int) (response : KBytes)
  | dispatch (i : Nat)
  | cancel (i : Nat)
  | deadline (i : Nat)
  | response (packet : Packet)
  | transmit (i : Nat) (n : Nat)
  | loopTransmit (n : Nat)
  | write (i : Nat) (r : IoResult)
  | flush (i : Nat) (r : IoResult)
  | loopRun
  | loopWrite (r : IoResult)
  | loopFlush (r : IoResult)
  | shutdown
deriving DecidableEq, Repr

namespace Conn

/-- A coroutine that throws `CancellationException` out of its suspension. -/
def unwindCancelled (i : Nat) (s : Conn) : Conn :=
  s.unwind i (.threw .cancellation)

/-- The `finally` block of `sendRacingDeadline`, when nothing was sent. -/
def abortSelect (i : Nat) (packet : Packet) (s : Conn) : Conn :=
  (s.modReq i fun r => { r with gate := false }).releaseOutboundBytes (packetBytes packet)

/-- Run the resumed or launched coroutine of call `i` up to its next suspension. -/
def dispatch (env : Env) (i : Nat) (s : Conn) : Option Conn :=
  match (s.calls i).pc, (s.calls i).wake with
  | .launched, _ => some (s.drainAsWriter env i)
  | .slotWait, .resumed _ => some (s.slotLoop env i)
  | .slotWait, .cancelled | .slotWait, .resumedCancelled _ =>
    some ((s.onSlotCancelled i).unwindCancelled i)
  | .roomWait _, .resumed (.throw e) => some (s.unwind i (.threw e))
  | .roomWait packet, .resumed _ =>
    some ((s.modReq i fun r => { r with roomCont := none }).awaitOutboundRoom env i packet)
  | .roomWait _, .cancelled | .roomWait _, .resumedCancelled _ =>
    some ((s.onRoomCancelled i).unwindCancelled i)
  | .channelSend _, .resumed _ => some (s.unwind i .done)
  | .channelSend _, .cancelled | .channelSend _, .resumedCancelled _ => some (s.unwindCancelled i)
  | .channelSelect _, .resumed .unit =>
    some ((s.modReq i fun r => { r with gate := false }).awaitResponse i)
  | .channelSelect packet, .resumed _ => some ((s.abortSelect i packet).awaitResponse i)
  | .channelSelect packet, .cancelled | .channelSelect packet, .resumedCancelled _ =>
    some ((s.abortSelect i packet).unwindCancelled i)
  | .await, .resumed (.packet p) => some (s.unwind i (.returned p.payload))
  | .await, .resumed (.throw e) => some (s.unwind i (.threw e))
  | .await, .cancelled | .await, .resumedCancelled _ => some (s.unwindCancelled i)
  | _, _ => none

/-- The `catch` and `finally` clauses of `drainAsWriter`, for a socket operation that threw. A
writer cancelled with bytes or packets left launches a successor and leaves `writerActive` set; any
other exception closes the connection. -/
def writerFailed (i : Nat) (r : IoResult) (e : Throwable) (s : Conn) : Conn :=
  if r = .cancelled then
    if !s.closed && (s.writeBuf ≠ [] || s.sendQueue ≠ []) then
      (s.addCall { kind := .successor, pc := .launched }).unwindCancelled i
    else { s with writerActive := false }.unwindCancelled i
  else { s.shutdown with writerActive := false }.unwind i (.threw e)

/-- The end of the inline writer's socket write (`writeAll`). -/
def write (i : Nat) (r : IoResult) (s : Conn) : Option Conn :=
  if (s.calls i).pc ≠ .socketWrite then none
  else match r with
    | .ok => if s.writeBuf = [] then some (s.setPc i .socketFlush) else none
    | .io message => some (s.writerFailed i r (.connectionClosed s!"write failed: {message}"))
    | _ => some (s.writerFailed i r r.exception)

/-- The end of the inline writer's flush; the loop of `drainAsWriter` goes on. -/
def flush (env : Env) (i : Nat) (r : IoResult) (s : Conn) : Option Conn :=
  if (s.calls i).pc ≠ .socketFlush then none
  else if r = .ok then some ((s.setPc i .draining).drainLoop env i)
  else some (s.writerFailed i r r.exception)

/-- The write loop after a failed `framed.send`: an `IoException` closes the connection, anything
else only ends the loop. The loop's job is cancelled by `shutdown`. -/
def loopFailed (r : IoResult) (s : Conn) : Option Conn :=
  match r with
  | .ok => none
  | .io _ => some { s.shutdown with writeLoop := .ended }
  | .other _ => some { s with writeLoop := .ended }
  | .cancelled => if s.closed then some { s with writeLoop := .ended } else none

/-- The end of the write loop's socket write. -/
def loopWrite (r : IoResult) (s : Conn) : Option Conn :=
  match s.writeLoop with
  | .writing packet =>
    if r = .ok then
      if s.writeBuf = [] then some { s with writeLoop := .flushing packet } else none
    else s.loopFailed r
  | _ => none

/-- The end of the write loop's flush: release the packet's bytes and take the next one. -/
def loopFlush (env : Env) (r : IoResult) (s : Conn) : Option Conn :=
  match s.writeLoop with
  | .flushing packet =>
    if r = .ok then some ((s.releaseOutboundBytes (packetBytes packet)).loopNext env)
    else s.loopFailed r
  | _ => none

/-- The write loop starts, or notices that the channel it waits on was closed. -/
def loopRun (env : Env) (s : Conn) : Option Conn :=
  if env.config.writeMode = .channel ∧
      (s.writeLoop = .launched ∨ s.writeLoop = .receiving ∧ s.closed) then some (s.loopNext env)
  else none

/-- The read loop's treatment of a Response: the entry is removed, its request completed, and one
waiter let through. -/
def onResponse (packet : Packet) (s : Conn) : Conn :=
  match s.pending.find packet.messageId with
  | none => s
  | some i =>
    ((s.unregister packet.messageId).complete i packet).wakeOneInFlightWaiter

/-- The socket takes `n` bytes of the buffer of a write in progress. -/
def transmit (n : Nat) (s : Conn) : Conn :=
  { s with
    writeBuf := s.writeBuf.drop n
    transmitted := s.transmitted ++ s.writeBuf.take n }

/-- One step of the connection; `none` when the event cannot happen in this state. -/
def step (env : Env) (s : Conn) : Event → Option Conn
  | .request payload bizType timeoutMillis compression =>
    some (s.requestOnOwner env payload bizType timeoutMillis compression)
  | .send payload bizType compression => some (s.sendOnOwner env payload bizType compression)
  | .respond messageId bizType response => some (s.respond env messageId bizType response)
  | .dispatch i => s.dispatch env i
  | .cancel i => s.cancel i
  | .deadline i => if (s.calls i).req.armed then some (s.run i) else none
  | .response packet =>
    if packet.type = .response ∧ s.closed = false then some (s.onResponse packet) else none
  | .transmit i n =>
    if (s.calls i).pc = .socketWrite ∧ s.closed = false then some (s.transmit n) else none
  | .loopTransmit n =>
    match s.writeLoop with
    | .writing _ => if s.closed then none else some (s.transmit n)
    | _ => none
  | .write i r => s.write i r
  | .flush i r => s.flush env i r
  | .loopRun => s.loopRun env
  | .loopWrite r => s.loopWrite r
  | .loopFlush r => s.loopFlush env r
  | .shutdown => some s.shutdown

/-- A started connection, before the write loop has run. -/
def init : Conn := {}

end Conn

/-! ## Small runs -/

/-- A connection with room for one packet and one request in flight. -/
def Env.tight (writeMode : WriteMode) : Env where
  config := {
    writeMode
    mailboxCapacity := 1, outboundKind := .bounded 1
    maxInFlightRequests := 1
    maxOutboundBytes := 100 }
  framing := .packets
  codecs := ⟨.stored, .stored⟩

/-- A `send` of one byte. -/
def Event.sendOne : Event := .send .one 0 .none

/-- A `request` of one byte with a deadline. -/
def Event.requestOne : Event := .request .one 0 100 .none

/-- A response to request `id`. -/
def Event.answer (id : UInt32) : Event :=
  .response ⟨.response, id, 0, .one, .empty, .none, 0, Packet.bizType_zero, Packet.reserved_zero⟩

end MsgTrans
