import MsgTrans.Connection.State

/-!
# Connection operations

The functions of `Connection.kt`, each run up to its next suspension or return. A suspending
function is split where it suspends: what it does before is the operation here, what it does when
it is resumed is in `Step.lean`. `i` is always the call on whose behalf the code runs.
-/

namespace MsgTrans

/-- A resume of suspension number `seq`: it takes effect on a parked call only. A resume of a
cancelled continuation is ignored. -/
def Call.resumed (seq : Nat) (r : Resumption) (c : Call) : Call :=
  if c.seq = seq ∧ c.wake = .parked then { c with wake := .resumed r } else c

/-- Drop the sender of call `i`: its `send` was cancelled or its `select` chose another clause. -/
def Channel.withdraw (i : Nat) (ch : Channel) : Channel :=
  { ch with senders := ch.senders.filter (·.1 ≠ i) }

/-- Bytes a packet counts for in the outbound budget (Kotlin `packetBytes`). -/
def packetBytes (p : Packet) : Int := p.payload.size

namespace Conn

/-! ## Calls and continuations -/

/-- Change the record of call `i`. -/
def modCall (i : Nat) (f : Call → Call) (s : Conn) : Conn :=
  { s with calls := Function.update s.calls i (f (s.calls i)) }

/-- Change the `Pending` of call `i`. -/
def modReq (i : Nat) (f : Pending → Pending) (s : Conn) : Conn :=
  s.modCall i fun c => { c with req := f c.req }

/-- Move the running call `i` to `pc`. -/
def setPc (i : Nat) (pc : Pc) (s : Conn) : Conn :=
  s.modCall i fun c => { c with pc := pc }

/-- Suspend call `i` at `pc` with a new continuation. -/
def park (i : Nat) (pc : Pc) (s : Conn) : Conn :=
  s.modCall i fun c => { c with pc := pc, wake := .parked, seq := c.seq + 1 }

/-- The continuation `park` makes for call `i`. -/
def newCont (i : Nat) (s : Conn) : Cont := ⟨i, (s.calls i).seq + 1⟩

/-- Add a call. -/
def addCall (c : Call) (s : Conn) : Conn :=
  { s with calls := Function.update s.calls s.next c, next := s.next + 1 }

/-- Kotlin `CancellableContinuation.resume` and `resumeWithException`. -/
def resume (k : Cont) (r : Resumption) (s : Conn) : Conn :=
  { s.modCall k.call (Call.resumed k.seq r) with resumes := k :: s.resumes }

/-! ## Outbound room -/

/-- Kotlin `wakeOneRoomWaiter`. -/
def wakeOneRoomWaiter (s : Conn) : Conn :=
  match s.roomWaiters with
  | [] => s
  | k :: ks => { s with roomWaiters := ks }.resume k .unit

/-- Kotlin `releaseOutboundBytes`. -/
def releaseOutboundBytes (bytes : Int) (s : Conn) : Conn :=
  let queuedBytes := s.queuedBytes - bytes
  wakeOneRoomWaiter { s with queuedBytes := if queuedBytes < 0 then 0 else queuedBytes }

/-- The two room conditions of `awaitOutboundRoom` and `hasOutboundRoom`: a free mailbox slot, and
room in the byte budget or an empty queue. -/
def roomFor (env : Env) (bytes : Int) (s : Conn) : Bool :=
  (env.config.writeMode == .channel || decide ((s.sendQueue.length : Int) < env.config.mailboxCapacity))
    && (s.queuedBytes == 0 || decide (s.queuedBytes + bytes ≤ env.config.maxOutboundBytes))

/-- Kotlin `hasOutboundRoom`. -/
def hasOutboundRoom (env : Env) (bytes : Int) (s : Conn) : Bool :=
  !s.closed && s.roomFor env bytes

/-! ## In-flight slots and settlement -/

/-- `slotCont?.let { it.resume(Unit); slotCont = null }` of request `i`. -/
def resumeSlot (i : Nat) (s : Conn) : Conn :=
  match (s.calls i).req.slotCont with
  | none => s
  | some k => (s.resume k .unit).modReq i fun r => { r with slotCont := none }

/-- Kotlin `wakeOneInFlightWaiter`. -/
def wakeOneInFlightWaiter (s : Conn) : Conn :=
  match s.inFlightWaiters with
  | [] => s
  | i :: is => { s with inFlightWaiters := is }.resumeSlot i

/-- `gate?.complete(Unit)`: a `select` that is still parked chooses its gate clause. -/
def completeGate (i : Nat) (s : Conn) : Conn :=
  match (s.calls i).req.gate, (s.calls i).pc, (s.calls i).wake with
  | true, .channelSelect _, .parked =>
    { s.modCall i (fun c => { c with wake := .resumed .gate }) with
      outbound := s.outbound.withdraw i }
  | _, _, _ => s

/-- `waiter?.let { waiter = null; it.resume(…) }` of request `i`. -/
def resumeWaiter (i : Nat) (r : Resumption) (s : Conn) : Conn :=
  match (s.calls i).req.waiter with
  | none => s
  | some k => (s.modReq i fun r => { r with waiter := none }).resume k r

/-- The common body of `Pending.complete` and `Pending.fail`: unless the request is settled already,
store the result, open the gate and resume the waiter with `r`. -/
def settle (i : Nat) (store : Pending → Pending) (r : Resumption) (s : Conn) : Conn :=
  if (s.calls i).req.isCompleted then s
  else ((s.modReq i store).completeGate i).resumeWaiter i r

/-- Kotlin `Pending.complete`. -/
def complete (i : Nat) (packet : Packet) (s : Conn) : Conn :=
  s.settle i (fun r => { r with response := some packet }) (.packet packet)

/-- Kotlin `Pending.fail`. -/
def fail (i : Nat) (e : Throwable) (s : Conn) : Conn :=
  s.settle i (fun r => { r with error := some e }) (.throw e)

/-- The room part of `Pending.run`, then its slot wake-up. A second `resume` of the same
continuation throws, and the rest of `run` is skipped. -/
def runRoom (i : Nat) (s : Conn) : Conn :=
  match (s.calls i).req.roomCont with
  | none => s.wakeOneInFlightWaiter
  | some k =>
    let thrown := decide (k ∈ s.resumes)
    let s := { s with roomWaiters := s.roomWaiters.erase k }.resume k .unit
    if thrown then s
    else (s.modReq i fun r => { r with roomCont := none }).wakeOneInFlightWaiter

/-- `pending.remove(id)`. -/
def unregister (id : UInt32) (s : Conn) : Conn := { s with pending := s.pending.remove id }

/-- The timer's handle has fired. -/
def fire (i : Nat) (s : Conn) : Conn :=
  s.modReq i fun r => { r with armed := false, ran := true }

/-- What `Pending.run` does when its `fail` settles the request. -/
def expire (i : Nat) (s : Conn) : Conn :=
  let r := (s.calls i).req
  (((s.fail i (.requestTimeout r.id r.timeoutMillis)).unregister r.id).resumeSlot i).runRoom i

/-- Kotlin `Pending.run`: the deadline. -/
def run (i : Nat) (s : Conn) : Conn :=
  if (s.calls i).req.isCompleted then s.fire i else (s.fire i).expire i

/-! ## Cancellation -/

/-- The `invokeOnCancellation` handler of the in-flight-slot wait. -/
def onSlotCancelled (i : Nat) (s : Conn) : Conn :=
  { s.modReq i (fun r => { r with slotCont := none }) with
    inFlightWaiters := s.inFlightWaiters.erase i }

/-- The `invokeOnCancellation` handler of the outbound-room wait. -/
def onRoomCancelled (i : Nat) (s : Conn) : Conn :=
  { s.modReq i (fun r => { r with roomCont := none }) with
    roomWaiters := s.roomWaiters.erase ⟨i, (s.calls i).seq⟩ }

/-- Mark the parked call `i` cancelled. -/
def setCancelled (i : Nat) (s : Conn) : Conn :=
  s.modCall i fun c => { c with wake := .cancelled }

/-- Cancellation of the coroutine of call `i` at a suspension of the connection. A parked one runs
its handler at once; one that was resumed but has not run will throw when it runs, unless it was
resumed with an exception. -/
def cancel (i : Nat) (s : Conn) : Option Conn :=
  match (s.calls i).pc, (s.calls i).wake with
  | .slotWait, .parked => some ((s.onSlotCancelled i).setCancelled i)
  | .roomWait _, .parked => some ((s.onRoomCancelled i).setCancelled i)
  | .channelSend _, .parked => some ({ s with outbound := s.outbound.withdraw i }.setCancelled i)
  | .channelSelect _, .parked => some ({ s with outbound := s.outbound.withdraw i }.setCancelled i)
  | .await, .parked => some (s.setCancelled i)
  | .slotWait, .resumed .unit | .roomWait _, .resumed .unit | .channelSend _, .resumed .unit
  | .channelSelect _, .resumed .unit =>
    some (s.modCall i fun c => { c with wake := .resumedCancelled .unit })
  | .channelSelect _, .resumed .gate =>
    some (s.modCall i fun c => { c with wake := .resumedCancelled .gate })
  | .await, .resumed (.packet p) =>
    some (s.modCall i fun c => { c with wake := .resumedCancelled (.packet p) })
  | _, _ => none

/-! ## Shutdown -/

/-- The default `ConnectionClosedException`. -/
def closedException : Throwable := .connectionClosed "connection closed"

/-- `pending.forEachValue { it.fail(…) }; pending.clear()`. -/
def failPending (s : Conn) : Conn :=
  { s.pending.values.foldl (fun s i => s.fail i closedException) s with pending := ∅ }

/-- `while (roomWaiters.isNotEmpty()) roomWaiters.removeFirst().resumeWithException(…)`. -/
def failRoomWaiters (s : Conn) : Conn :=
  s.roomWaiters.foldl (fun s k =>
    { s with roomWaiters := s.roomWaiters.tail }.resume k (.throw closedException)) s

/-- `while (inFlightWaiters.isNotEmpty()) …`: fail each waiting request and wake it. -/
def failSlotWaiters (s : Conn) : Conn :=
  s.inFlightWaiters.foldl (fun s i =>
    ({ s with inFlightWaiters := s.inFlightWaiters.tail }.fail i closedException).resumeSlot i) s

/-- The handler job is cancelled: if call `i` is an `enqueue` of the handler loop, it is cancelled at
its suspension. -/
def cancelResponse (s : Conn) (i : Nat) : Conn :=
  if (s.calls i).kind = .response then (s.cancel i).getD s else s

/-- `handlerJob?.cancel()`, as far as the connection's own suspensions go. -/
def cancelHandler (s : Conn) : Conn := (List.range s.next).foldl cancelResponse s

/-- Kotlin `shutdown`. `readJob` and `writeJob` are cancelled with it: the write loop ends once the
connection is closed (`loopRun`, `loopFailed`), the read loop and the channels it serves are those of
the endpoint model. `io.close()` and the close callbacks touch no connection state. -/
def shutdown (s : Conn) : Conn :=
  if s.closed then s
  else
    let s := { s with closed := true }.failPending
    let s := { s with sendQueue := [], queuedBytes := 0 }.failRoomWaiters.failSlotWaiters
    s.cancelHandler

/-! ## The end of a call -/

/-- The first lines of the `finally` block of `requestOnOwner`: dispose the deadline, drop the waiter
and leave the slot queue. -/
def dispose (i : Nat) (o : Outcome) (s : Conn) : Conn :=
  { s.modCall i (fun c => { c with
      pc := .ended o, req := { c.req with armed := false, waiter := none } }) with
    inFlightWaiters := s.inFlightWaiters.erase i }

/-- The end of call `i`. For a request this is the `finally` block of `requestOnOwner`. -/
def finish (i : Nat) (o : Outcome) (s : Conn) : Conn :=
  if (s.calls i).kind = .request then
    let id := (s.calls i).req.id
    let s := s.dispose i o
    if (s.pending.find id).isSome then (s.unregister id).wakeOneInFlightWaiter else s
  else s.setPc i (.ended o)

/-- Leave call `i` with outcome `o`. -/
def unwind (i : Nat) (o : Outcome) (s : Conn) : Conn :=
  (s.setPc i (.unwinding o)).finish i o

/-- `return req.await().payload` up to its suspension (Kotlin `Pending.await`). -/
def awaitResponse (i : Nat) (s : Conn) : Conn :=
  let s := s.setPc i .awaiting
  match (s.calls i).req.response, (s.calls i).req.error with
  | some p, _ => s.unwind i (.returned p.payload)
  | none, some e => s.unwind i (.threw e)
  | none, none =>
    let k := s.newCont i
    (s.modReq i fun r => { r with waiter := some k }).park i .await

/-- What follows a finished `enqueue`: a request awaits its response, any other call is over. -/
def afterEnqueue (i : Nat) (s : Conn) : Conn :=
  if (s.calls i).kind = .request then s.awaitResponse i else s.unwind i .done

/-! ## The inline writer -/

/-- `codec.encode(packet, io.writeBuf)`. -/
def encode (env : Env) (packet : Packet) (s : Conn) : Conn :=
  { s with
    writeBuf := s.writeBuf ++ env.framing.encode packet
    written := s.written ++ [packet] }

/-- One turn of the loop of `drainAsWriter`, up to the socket write in `writeAll`. -/
def drainLoop (env : Env) (i : Nat) (s : Conn) : Conn :=
  if s.closed then { s with writerActive := false }.afterEnqueue i
  else match s.sendQueue with
    | [] => { s with writerActive := false }.afterEnqueue i
    | packet :: rest =>
      let s := { s with sendQueue := rest }.releaseOutboundBytes (packetBytes packet)
      (s.encode env packet).setPc i .socketWrite

/-- Kotlin `drainAsWriter`, up to its first suspension. -/
def drainAsWriter (env : Env) (i : Nat) (s : Conn) : Conn :=
  let s := { s with writerActive := true }.setPc i .draining
  if s.writeBuf ≠ [] then s.setPc i .socketWrite else s.drainLoop env i

/-! ## The outbound channel -/

/-- The write loop has been handed `packet` and starts `framed.send` on it. -/
def loopSend (env : Env) (packet : Packet) (s : Conn) : Conn :=
  { s with writeLoop := .writing packet }.encode env packet

/-- kotlinx `Channel.trySend` on `outbound`: hand over to a waiting receiver, else buffer. A
conflated channel drops its oldest element. -/
def trySend (env : Env) (packet : Packet) (s : Conn) : Option Conn :=
  if s.closed then none
  else if s.writeLoop = .receiving then some (s.loopSend env packet)
  else match env.config.outboundKind with
    | .conflated => some { s with outbound := { s.outbound with buffer := [packet] } }
    | .bounded capacity =>
      if s.outbound.buffer.length < capacity then
        some { s with outbound := { s.outbound with buffer := s.outbound.buffer ++ [packet] } }
      else none

/-- A sender of `outbound` was let in: resume it. -/
def acceptSender (i : Nat) (s : Conn) : Conn :=
  s.modCall i fun c => { c with wake := .resumed .unit }

/-- `for (packet in outbound)`: take the next packet and let the first suspended sender in. -/
def loopNext (env : Env) (s : Conn) : Conn :=
  match s.outbound.buffer, s.outbound.senders with
  | packet :: rest, [] => { s with outbound := { s.outbound with buffer := rest } }.loopSend env packet
  | packet :: rest, (j, q) :: senders =>
    ({ s with outbound := { s.outbound with buffer := rest ++ [q], senders := senders } }.acceptSender
      j).loopSend env packet
  | [], (j, q) :: senders =>
    ({ s with outbound := { s.outbound with senders := senders } }.acceptSender j).loopSend env q
  | [], [] => { s with writeLoop := if s.closed then .ended else .receiving }

/-- Kotlin `sendRacingDeadline`, up to the suspension of its `select`. -/
def sendRacingDeadline (i : Nat) (packet : Packet) (s : Conn) : Conn :=
  if (s.calls i).req.isCompleted then
    (s.releaseOutboundBytes (packetBytes packet)).afterEnqueue i
  else if s.closed then
    (s.releaseOutboundBytes (packetBytes packet)).unwind i (.threw .closedSendChannel)
  else
    ({ s with outbound := { s.outbound with senders := s.outbound.senders ++ [(i, packet)] } }.modReq i
      fun r => { r with gate := true }).park i (.channelSelect packet)

/-- kotlinx `Channel.send` on `outbound`, up to its suspension. -/
def channelSend (env : Env) (i : Nat) (packet : Packet) (s : Conn) : Conn :=
  match s.trySend env packet with
  | some s => s.unwind i .done
  | none =>
    if s.closed then s.unwind i (.threw .closedSendChannel)
    else { s with outbound := { s.outbound with senders := s.outbound.senders ++ [(i, packet)] } }.park i
      (.channelSend packet)

/-! ## Enqueueing -/

/-- Put `packet` on the outbound path once there is room: the part `enqueue` and `enqueueForRequest`
do after their room check. -/
def put (env : Env) (i : Nat) (packet : Packet) (s : Conn) : Conn :=
  let s := { s with queuedBytes := s.queuedBytes + packetBytes packet }
  match env.config.writeMode with
  | .inline =>
    let s := { s with
      sendQueue := s.sendQueue ++ [packet]
      enqueued := s.enqueued ++ [packet] }
    if s.writerActive then s.afterEnqueue i else s.drainAsWriter env i
  | .channel =>
    if (s.calls i).kind = .request then
      match s.trySend env packet with
      | some s => s.afterEnqueue i
      | none => s.sendRacingDeadline i packet
    else s.channelSend env i packet

/-- One turn of the loop of `awaitOutboundRoom`; `req` is the call's own request, if it is one. -/
def awaitOutboundRoom (env : Env) (i : Nat) (packet : Packet) (s : Conn) : Conn :=
  let s := s.setPc i (.roomLoop packet)
  let isRequest := (s.calls i).kind == .request
  let settled := isRequest && (s.calls i).req.isCompleted
  if !s.closed then
    if settled then s.afterEnqueue i
    else if s.roomFor env (packetBytes packet) then s.put env i packet
    else
      let k := s.newCont i
      let s := if isRequest then s.modReq i fun r => { r with roomCont := some k } else s
      { s with roomWaiters := s.roomWaiters ++ [k] }.park i (.roomWait packet)
  else if settled then s.afterEnqueue i
  else s.unwind i (.threw closedException)

/-- The room check of `enqueue` and `enqueueForRequest`: the non-suspending check first. -/
def enqueueChecked (env : Env) (i : Nat) (packet : Packet) (s : Conn) : Conn :=
  let s := s.setPc i (.roomLoop packet)
  if s.hasOutboundRoom env (packetBytes packet) then s.put env i packet
  else s.awaitOutboundRoom env i packet

/-- Kotlin `checkOutboundSize`. -/
def checkOutboundSize (env : Env) (packet : Packet) : Except Throwable Unit :=
  let bytes := packetBytes packet
  if bytes > env.config.maxPayloadLength then
    .error (.payloadTooLarge bytes env.config.maxPayloadLength)
  else if bytes > env.config.maxOutboundBytes then
    .error (.payloadTooLarge bytes env.config.maxOutboundBytes)
  else .ok ()

/-- The packet a call enqueues, checked: the `Packet` constructor, then `checkOutboundSize`. -/
def outboundPacket (env : Env) (type : PacketType) (messageId : UInt32) (bizType : Int)
    (encoded : KBytes) (compression : Compression) : Except Throwable Packet :=
  match Packet.new type messageId bizType encoded compression with
  | .error e => .error e
  | .ok packet =>
    match checkOutboundSize env packet with
    | .error e => .error e
    | .ok () => .ok packet

/-! ## Request and send -/

/-- The body of `requestOnOwner` from `pending[id] = req` on. -/
def register (env : Env) (i : Nat) (s : Conn) : Conn :=
  let c := s.calls i
  let s := { s with pending := s.pending.set c.req.id i }
  match outboundPacket env .request c.req.id c.bizType c.encoded c.compression with
  | .error e => s.unwind i (.threw e)
  | .ok packet => s.enqueueChecked env i packet

/-- One turn of the in-flight-slot loop of `requestOnOwner`, and what follows the loop. -/
def slotLoop (env : Env) (i : Nat) (s : Conn) : Conn :=
  let s := s.setPc i .slotLoop
  let completed := (s.calls i).req.isCompleted
  if !s.closed && decide (env.config.maxInFlightRequests ≤ (s.pending.size : Int)) &&
      !completed then
    let k := s.newCont i
    { s.modReq i (fun r => { r with slotCont := some k }) with
      inFlightWaiters := s.inFlightWaiters ++ [i] }.park i .slotWait
  else if completed then s.awaitResponse i
  else if s.closed then s.unwind i (.threw closedException)
  else s.register env i

/-- Kotlin `prepareOutboundPayload`. -/
def prepareOutboundPayload (env : Env) (payload : KBytes) (compression : Compression) :
    Except Throwable KBytes :=
  if compression ≠ .none ∧ (payload.size : Int) > env.config.maxDecompressedPayloadLength then
    .error (.payloadTooLarge payload.size env.config.maxDecompressedPayloadLength)
  else .ok (env.codecs.compress payload compression)

/-- A call that ends before it has touched the connection. -/
def reject (c : Call) (e : Throwable) (s : Conn) : Conn :=
  s.addCall { c with pc := .ended (.threw e) }

/-- Kotlin `requestOnOwner`, with `nextRequestId`. -/
def requestOnOwner (env : Env) (payload : KBytes) (bizType : Int) (timeoutMillis : Int)
    (compression : Compression) (s : Conn) : Conn :=
  let c : Call := { kind := .request, payload, bizType, compression }
  if s.closed then s.reject c (.illegalState "connection closed")
  else match prepareOutboundPayload env payload compression with
    | .error e => s.reject c e
    | .ok encoded =>
      if s.requestId = UInt32.ofNat (2 ^ 32 - 1) then
        s.reject c (.illegalState "request id space exhausted")
      else
        let id := s.requestId + 1
        let req : Pending := { id, timeoutMillis, armed := decide (timeoutMillis > 0) }
        let i := s.next
        { s with requestId := id }.addCall { c with encoded, req, pc := .slotLoop } |>.slotLoop env i

/-- Kotlin `nextOneWayId`. -/
def nextOneWayId (s : Conn) : UInt32 :=
  if s.oneWayId + 1 = 0 then 1 else s.oneWayId + 1

/-- Kotlin `sendOnOwner`. -/
def sendOnOwner (env : Env) (payload : KBytes) (bizType : Int) (compression : Compression)
    (s : Conn) : Conn :=
  let c : Call := { kind := .oneWay, payload, bizType, compression }
  if s.closed then s.reject c (.illegalState "connection closed")
  else match prepareOutboundPayload env payload compression with
    | .error e => s.reject c e
    | .ok encoded =>
      let id := s.nextOneWayId
      let s := { s with oneWayId := id }
      match outboundPacket env .oneWay id bizType encoded compression with
      | .error e => s.reject { c with encoded } e
      | .ok packet =>
        let i := s.next
        s.addCall { c with encoded, pc := .roomLoop packet } |>.enqueueChecked env i packet

/-- The `enqueue` of the handler loop: the answer to the request `messageId`. -/
def respond (env : Env) (messageId : UInt32) (bizType : Int) (response : KBytes) (s : Conn) : Conn :=
  let compression := env.config.responseCompression
  let c : Call := { kind := .response, payload := response, bizType, compression }
  match prepareOutboundPayload env response compression with
  | .error e => s.reject c e
  | .ok encoded =>
    match outboundPacket env .response messageId bizType encoded compression with
    | .error e => s.reject { c with encoded } e
    | .ok packet =>
      let i := s.next
      s.addCall { c with encoded, pc := .roomLoop packet } |>.enqueueChecked env i packet

end Conn

end MsgTrans
