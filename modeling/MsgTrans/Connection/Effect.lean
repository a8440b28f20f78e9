import MsgTrans.Connection.Step

/-!
# Effects

The transitions of a connection one effect at a time. Where `Step.lean` runs a coroutine from one
suspension to the next, `Effect` moves it from one place of its code to the next, each with the
condition under which the code takes that branch; `Simulation.lean` shows that every step is a
chain of effects. Every invariant is proved over effects, by cases.

Some branches are where a wake-up is lost, a byte is leaked or a continuation is resumed twice.
`Flaw` names them, `Flaw.Occurs` says in terms of the state before a step when the step takes one,
and an effect that takes such a branch needs it among those of its step (`Trigger`).
-/

namespace MsgTrans

/-- The branches of the code that break one of the connection's contracts. -/
inductive Flaw where
  /-- The deadline fires for a request that is the inline writer. -/
  | writerDeadline
  /-- The deadline fires for a request that a response settled while it waits for room. -/
  | settledDeadline
  /-- The deadline fires for a request whose room continuation was resumed but has not run. -/
  | doubleResume
  /-- A slot waiter is cancelled after it was resumed and before it runs. -/
  | slotWakeCancelled
  /-- A slot's wake-up goes to the queue entry of a request that has already timed out. -/
  | slotWakeAbsorbed
  /-- A room waiter is cancelled after it was resumed and before it runs. -/
  | roomWakeCancelled
  /-- A response settles a request that still waits for room. -/
  | roomSettled
  /-- A sender suspended in `outbound.send` is cancelled. -/
  | senderCancelled
  /-- A request runs that was cancelled after its `select` had sent the packet. -/
  | selectCancelled
  /-- The write loop ends with an exception that is not an `IoException`. -/
  | loopFault
  /-- `shutdown` runs while a caller of `send` is suspended in `outbound.send`. -/
  | senderStranded
deriving DecidableEq, Repr

/-- The call is the inline writer. -/
@[simp] def Pc.writing : Pc → Bool
  | .draining | .socketWrite | .socketFlush => true
  | _ => false

/-- The call is suspended and has been cancelled, before or after it was resumed. -/
def Call.Cancelled (c : Call) : Prop :=
  c.wake = .cancelled ∨ ∃ r, c.wake = .resumedCancelled r

/-- The call is over when it runs: it does not go on from its wait. -/
def Call.Leaves (c : Call) : Prop :=
  c.wake ≠ .resumed .unit ∨ ∃ p, c.pc = .channelSend p

/-- Where a call goes once its packet is on the outbound path. -/
def Call.afterPut (c : Call) : Pc :=
  if c.kind = .request then .awaiting else .unwinding .done

/-- `p` is the checked packet that the call `c` made by `e`, a `send` or an answer, enqueues. -/
def Call.Sends (env : Env) (e : Event) (c : Call) (p : Packet) : Prop :=
  match c.kind with
  | .oneWay => ∃ id, Conn.outboundPacket env .oneWay id c.bizType c.encoded c.compression = .ok p
  | .response =>
    ∃ id, e = .respond id c.bizType c.payload ∧
      Conn.outboundPacket env .response id c.bizType c.encoded c.compression = .ok p
  | _ => False

namespace Conn

/-- The call is a request that is in the registry. -/
def Registered (s : Conn) (i : Nat) : Prop :=
  (s.calls i).kind = .request ∧ s.pending.find (s.calls i).req.id = some i

/-- The call is a registered request of an open connection that nothing has settled. -/
def Unsettled (s : Conn) (i : Nat) : Prop :=
  s.Registered i ∧ (s.calls i).req.isCompleted = false ∧ s.closed = false

/-- The packet of request `i` is refused before it is queued. -/
def Refused (env : Env) (s : Conn) (i : Nat) : Prop :=
  ∃ e, outboundPacket env .request (s.calls i).req.id (s.calls i).bizType (s.calls i).encoded
    (s.calls i).compression = .error e

/-- The next wake-up for a slot, given by call `i`, would go to a settled request. -/
def NextDead (s : Conn) (i : Nat) : Prop :=
  ∃ j, (s.inFlightWaiters.filter (· ≠ i)).head? = some j ∧ (s.calls j).req.isCompleted

/-- A caller of `send` is suspended in `outbound.send`. -/
def SenderParked (s : Conn) : Prop :=
  ∃ j p, (s.calls j).kind ≠ .response ∧ (s.calls j).pc = .channelSend p ∧ (s.calls j).wake = .parked

end Conn

/-- When a step taken in `s` takes a flawed branch. -/
def Flaw.Occurs (env : Env) (s : Conn) : Event → Flaw → Prop
  | .deadline i, .writerDeadline => (s.calls i).pc.writing
  | .deadline i, .settledDeadline =>
    (s.calls i).req.isCompleted ∧ (∃ p, (s.calls i).pc = .roomWait p) ∧ (s.calls i).wake = .parked
  | .deadline i, .doubleResume =>
    (s.calls i).req.isCompleted = false ∧
      ∃ k, (s.calls i).req.roomCont = some k ∧ k ∉ s.roomWaiters
  | .deadline i, .slotWakeAbsorbed =>
    (s.calls i).req.isCompleted = false ∧
      ¬ ((s.calls i).pc = .slotWait ∧ (s.calls i).wake = .parked) ∧ s.NextDead i
  | .response packet, .slotWakeAbsorbed =>
    ∃ i, s.pending.find packet.messageId = some i ∧ s.NextDead i
  | .response packet, .roomSettled =>
    ∃ i p, s.pending.find packet.messageId = some i ∧ (s.calls i).pc = .roomWait p
  | .cancel i, .slotWakeCancelled =>
    (s.calls i).pc = .slotWait ∧ (s.calls i).wake = .resumed .unit ∧
      (s.calls i).req.isCompleted = false
  | .cancel i, .roomWakeCancelled =>
    (∃ p, (s.calls i).pc = .roomWait p) ∧ (s.calls i).wake = .resumed .unit ∧
      (s.calls i).req.isCompleted = false
  | .cancel i, .senderCancelled =>
    (∃ p, (s.calls i).pc = .channelSend p) ∧ (s.calls i).wake = .parked
  | .dispatch i, .selectCancelled =>
    (∃ p, (s.calls i).pc = .channelSelect p) ∧ (s.calls i).wake = .resumedCancelled .unit
  | .dispatch i, .slotWakeAbsorbed =>
    ((s.calls i).Leaves ∧ s.Unsettled i ∨
      (s.calls i).pc = .slotWait ∧ (s.calls i).wake ≠ .parked ∧ s.Refused env i) ∧ s.NextDead i
  | .write i r, .slotWakeAbsorbed => r = .cancelled ∧ s.Unsettled i ∧ s.NextDead i
  | .flush i r, .slotWakeAbsorbed => r = .cancelled ∧ s.Unsettled i ∧ s.NextDead i
  | .loopWrite (.other _), .loopFault => s.closed = false
  | .loopFlush (.other _), .loopFault => s.closed = false
  | .shutdown, .senderStranded => s.closed = false ∧ s.SenderParked
  | .write _ r, .senderStranded => r ≠ .ok ∧ r ≠ .cancelled ∧ s.closed = false ∧ s.SenderParked
  | .flush _ r, .senderStranded => r ≠ .ok ∧ r ≠ .cancelled ∧ s.closed = false ∧ s.SenderParked
  | .loopWrite (.io _), .senderStranded => s.closed = false ∧ s.SenderParked
  | .loopFlush (.io _), .senderStranded => s.closed = false ∧ s.SenderParked
  | _, _ => False

/-- What an effect is part of: the event of the step, the state it is taken in, and the flawed branches
it takes. -/
structure Trigger where
  event : Event
  start : Conn
  flaw : Flaw → Prop

instance : CoeFun Trigger fun _ => Flaw → Prop := ⟨Trigger.flaw⟩

/-- The event ends a socket operation of call `i`. -/
def Event.EndsSocket (i : Nat) : Event → Prop
  | .write j _ | .flush j _ => j = i
  | _ => False

/-- The trigger of the effects of a step taken in `s`. -/
def Event.trigger (env : Env) (s : Conn) (e : Event) : Trigger := ⟨e, s, Flaw.Occurs env s e⟩

/-- What one coroutine does that changes nothing but its own record. -/
inductive LocalStep (A : Trigger) (s : Conn) (i : Nat) : Call → Call → Prop where
  | slotRun {c r} :
    c.pc = .slotWait → c.wake = .resumed r →
    LocalStep A s i c { c with pc := .slotLoop }
  | slotSettled {c} :
    c.pc = .slotLoop → c.req.isCompleted →
    LocalStep A s i c { c with pc := .awaiting }
  | slotClosed {c e} :
    c.pc = .slotLoop → c.req.isCompleted = false → s.closed →
    LocalStep A s i c { c with pc := .unwinding (.threw e) }
  | roomRun {c p r} :
    c.pc = .roomWait p → c.wake = .resumed r → (∀ e, r ≠ .throw e) →
    LocalStep A s i c { c with pc := .roomLoop p, req := { c.req with roomCont := none } }
  | roomSettled {c p} :
    c.pc = .roomLoop p → c.kind = .request → c.req.isCompleted →
    LocalStep A s i c { c with pc := .awaiting }
  | roomClosed {c p e} :
    c.pc = .roomLoop p → s.closed →
    LocalStep A s i c { c with pc := .unwinding (.threw e) }
  | roomThrown {c p e} :
    c.pc = .roomWait p → c.wake = .resumed (.throw e) →
    LocalStep A s i c { c with pc := .unwinding (.threw e) }
  | sendRun {c p r} :
    c.pc = .channelSend p → c.wake = .resumed r →
    LocalStep A s i c { c with pc := .unwinding .done }
  | sendCancelled {c p} :
    c.pc = .channelSend p → c.Cancelled →
    LocalStep A s i c { c with pc := .unwinding (.threw .cancellation) }
  | selectSent {c p} :
    c.pc = .channelSelect p → c.wake = .resumed .unit →
    LocalStep A s i c { c with pc := .awaiting, req := { c.req with gate := false } }
  | awaitPark {c} :
    c.pc = .awaiting → c.req.response = none → c.req.error = none →
    LocalStep A s i c { c with
      pc := .await, wake := .parked, seq := c.seq + 1
      req := { c.req with waiter := some ⟨i, c.seq + 1⟩ } }
  | awaitReturn {c p} :
    c.pc = .awaiting → c.req.response = some p →
    LocalStep A s i c { c with pc := .unwinding (.returned p.payload) }
  | awaitThrow {c e} :
    c.pc = .awaiting → c.req.response = none → c.req.error = some e →
    LocalStep A s i c { c with pc := .unwinding (.threw e) }
  | awaitRun {c p} :
    c.pc = .await → c.wake = .resumed (.packet p) →
    LocalStep A s i c { c with pc := .unwinding (.returned p.payload) }
  | awaitRunThrow {c e} :
    c.pc = .await → c.wake = .resumed (.throw e) →
    LocalStep A s i c { c with pc := .unwinding (.threw e) }
  | awaitCancelled {c} :
    c.pc = .await → c.Cancelled →
    LocalStep A s i c { c with pc := .unwinding (.threw .cancellation) }
  | cancelAwait {c} :
    c.pc = .await → c.wake = .parked →
    LocalStep A s i c { c with wake := .cancelled }
  | cancelSlotWoken {c} :
    c.pc = .slotWait → c.wake = .resumed .unit →
    (c.req.isCompleted = false → A .slotWakeCancelled) →
    LocalStep A s i c { c with wake := .resumedCancelled .unit }
  | cancelRoomWoken {c p} :
    c.pc = .roomWait p → c.wake = .resumed .unit →
    (c.req.isCompleted = false → A .roomWakeCancelled) →
    LocalStep A s i c { c with wake := .resumedCancelled .unit }
  | cancelSendWoken {c p} :
    c.pc = .channelSend p → c.wake = .resumed .unit →
    LocalStep A s i c { c with wake := .resumedCancelled .unit }
  | cancelSelectSent {c p} :
    c.pc = .channelSelect p → c.wake = .resumed .unit →
    LocalStep A s i c { c with wake := .resumedCancelled .unit }
  | cancelSelectGate {c p} :
    c.pc = .channelSelect p → c.wake = .resumed .gate →
    LocalStep A s i c { c with wake := .resumedCancelled .gate }
  | cancelAwaitWoken {c p} :
    c.pc = .await → c.wake = .resumed (.packet p) →
    LocalStep A s i c { c with wake := .resumedCancelled (.packet p) }
  | writeOk {c} :
    c.pc = .socketWrite → s.writeBuf = [] → A.event.EndsSocket i →
    LocalStep A s i c { c with pc := .socketFlush }
  | flushOk {c} :
    c.pc = .socketFlush → A.event.EndsSocket i →
    LocalStep A s i c { c with pc := .draining }

/-- What a connection does in one effect. -/
inductive Effect (env : Env) (A : Trigger) : Conn → Conn → Prop where
  -- one call alone
  | loc {s i c'} :
    LocalStep A s i (s.calls i) c' →
    Effect env A s (s.modCall i fun _ => c')
  -- new calls
  | reject {s c e id} :
    c.pc = .ended (.threw e) → c.wake = .parked → c.req = ({} : Pending) →
    Effect env A s ({ s with oneWayId := id }.addCall c)
  | startRequest {s c timeoutMillis} :
    A.event = .request c.payload c.bizType timeoutMillis c.compression →
    s.closed = false → s.requestId ≠ UInt32.ofNat (2 ^ 32 - 1) →
    c.kind = .request → c.pc = .slotLoop → c.wake = .parked → c.seq = 0 →
    c.req = { id := s.requestId + 1, timeoutMillis, armed := decide (timeoutMillis > 0) } →
    Conn.prepareOutboundPayload env c.payload c.compression = .ok c.encoded →
    Effect env A s ({ s with requestId := s.requestId + 1 }.addCall c)
  | startPut {s c p id} :
    c.kind = .oneWay ∨ c.kind = .response → c.pc = .roomLoop p → c.wake = .parked → c.seq = 0 →
    c.req = ({} : Pending) → c.Sends env A.event p →
    Conn.prepareOutboundPayload env c.payload c.compression = .ok c.encoded →
    Effect env A s ({ s with oneWayId := id }.addCall c)
  -- the in-flight slot
  | slotPark {s i} :
    (s.calls i).pc = .slotLoop → s.closed = false →
    env.config.maxInFlightRequests ≤ s.pending.size →
    (s.calls i).req.isCompleted = false →
    Effect env A s { s.modCall i (fun c => { c with
        pc := .slotWait, wake := .parked, seq := c.seq + 1
        req := { c.req with slotCont := some ⟨i, c.seq + 1⟩ } }) with
      inFlightWaiters := s.inFlightWaiters ++ [i] }
  | register {s i p} :
    (s.calls i).pc = .slotLoop → s.closed = false →
    (s.pending.size : Int) < env.config.maxInFlightRequests →
    (s.calls i).req.isCompleted = false →
    Conn.outboundPacket env .request (s.calls i).req.id (s.calls i).bizType (s.calls i).encoded
      (s.calls i).compression = .ok p →
    Effect env A s ({ s with pending := s.pending.set (s.calls i).req.id i }.setPc i (.roomLoop p))
  | slotRefused {s i e} :
    (s.calls i).pc = .slotLoop → s.closed = false →
    (s.pending.size : Int) < env.config.maxInFlightRequests →
    (s.calls i).req.isCompleted = false →
    Conn.outboundPacket env .request (s.calls i).req.id (s.calls i).bizType (s.calls i).encoded
      (s.calls i).compression = .error e →
    ((s.calls i).wake ≠ .parked → s.NextDead i → A .slotWakeAbsorbed) →
    Effect env A s ({ s with pending := s.pending.set (s.calls i).req.id i }.unwind i (.threw e))
  | slotCancelled {s i} :
    (s.calls i).pc = .slotWait → (s.calls i).Cancelled →
    Effect env A s ((s.onSlotCancelled i).setPc i (.unwinding (.threw .cancellation)))
  -- outbound room
  | roomPark {s i p} :
    (s.calls i).pc = .roomLoop p → s.closed = false → s.roomFor env (packetBytes p) = false →
    ((s.calls i).kind = .request → (s.calls i).req.isCompleted = false) →
    Effect env A s { s.modCall i (fun c => { c with
        pc := .roomWait p, wake := .parked, seq := c.seq + 1
        req := { c.req with
          roomCont := if c.kind = .request then some ⟨i, c.seq + 1⟩ else c.req.roomCont } }) with
      roomWaiters := s.roomWaiters ++ [⟨i, (s.calls i).seq + 1⟩] }
  | roomCancelled {s i p} :
    (s.calls i).pc = .roomWait p → (s.calls i).Cancelled →
    Effect env A s ((s.onRoomCancelled i).setPc i (.unwinding (.threw .cancellation)))
  -- the outbound path
  | putQueue {s i p} :
    (s.calls i).pc = .roomLoop p → s.closed = false → s.roomFor env (packetBytes p) →
    ((s.calls i).kind = .request → (s.calls i).req.isCompleted = false) →
    env.config.writeMode = .inline → s.writerActive →
    Effect env A s ({ s with
      queuedBytes := s.queuedBytes + packetBytes p
      sendQueue := s.sendQueue ++ [p]
      enqueued := s.enqueued ++ [p] }.setPc i (s.calls i).afterPut)
  | putDrain {s i p} :
    (s.calls i).pc = .roomLoop p → s.closed = false → s.roomFor env (packetBytes p) →
    ((s.calls i).kind = .request → (s.calls i).req.isCompleted = false) →
    env.config.writeMode = .inline → s.writerActive = false →
    Effect env A s ({ s with
      queuedBytes := s.queuedBytes + packetBytes p
      sendQueue := s.sendQueue ++ [p]
      enqueued := s.enqueued ++ [p]
      writerActive := true }.setPc i (if s.writeBuf = [] then .draining else .socketWrite))
  | putBuffer {s i p buffer} :
    (s.calls i).pc = .roomLoop p → s.closed = false → s.roomFor env (packetBytes p) →
    ((s.calls i).kind = .request → (s.calls i).req.isCompleted = false) →
    env.config.writeMode = .channel → s.writeLoop ≠ .receiving →
    buffer = s.outbound.buffer ++ [p] ∨
      env.config.outboundKind = .conflated ∧ buffer = [p] →
    Effect env A s ({ s with
      queuedBytes := s.queuedBytes + packetBytes p
      outbound := { s.outbound with buffer } }.setPc i (s.calls i).afterPut)
  | putHandoff {s i p} :
    (s.calls i).pc = .roomLoop p → s.closed = false → s.roomFor env (packetBytes p) →
    ((s.calls i).kind = .request → (s.calls i).req.isCompleted = false) →
    env.config.writeMode = .channel → s.writeLoop = .receiving →
    Effect env A s (({ s with queuedBytes := s.queuedBytes + packetBytes p }.loopSend env p).setPc i
      (s.calls i).afterPut)
  | sendPark {s i p} :
    (s.calls i).pc = .roomLoop p → s.closed = false → s.roomFor env (packetBytes p) →
    (s.calls i).kind ≠ .request → env.config.writeMode = .channel → s.writeLoop ≠ .receiving →
    Effect env A s { s.modCall i (fun c => { c with
        pc := .channelSend p, wake := .parked, seq := c.seq + 1 }) with
      queuedBytes := s.queuedBytes + packetBytes p
      outbound := { s.outbound with senders := s.outbound.senders ++ [(i, p)] } }
  | selectPark {s i p} :
    (s.calls i).pc = .roomLoop p → s.closed = false → s.roomFor env (packetBytes p) →
    (s.calls i).kind = .request → (s.calls i).req.isCompleted = false →
    env.config.writeMode = .channel → s.writeLoop ≠ .receiving →
    Effect env A s { s.modCall i (fun c => { c with
        pc := .channelSelect p, wake := .parked, seq := c.seq + 1
        req := { c.req with gate := true } }) with
      queuedBytes := s.queuedBytes + packetBytes p
      outbound := { s.outbound with senders := s.outbound.senders ++ [(i, p)] } }
  -- the inline writer
  | drainTake {s i p rest} :
    (s.calls i).pc = .draining → s.closed = false → s.sendQueue = p :: rest →
    Effect env A s ((({ s with sendQueue := rest }.releaseOutboundBytes (packetBytes p)).encode env
      p).setPc i .socketWrite)
  | drainEnd {s i} :
    (s.calls i).pc = .draining → s.closed ∨ s.sendQueue = [] →
    Effect env A s ({ s with writerActive := false }.setPc i (s.calls i).afterPut)
  | successorStart {s i} :
    (s.calls i).pc = .launched →
    Effect env A s ({ s with writerActive := true }.setPc i
      (if s.writeBuf = [] then .draining else .socketWrite))
  | handOff {s i} :
    (s.calls i).pc = .socketWrite ∨ (s.calls i).pc = .socketFlush → s.closed = false →
    s.writeBuf ≠ [] ∨ s.sendQueue ≠ [] → A.event.EndsSocket i →
    Effect env A s ((s.addCall { kind := .successor, pc := .launched }).setPc i
      (.unwinding (.threw .cancellation)))
  | writerStop {s i e} :
    (s.calls i).pc = .socketWrite ∨ (s.calls i).pc = .socketFlush →
    s.closed ∨ s.writeBuf = [] ∧ s.sendQueue = [] →
    s.closed ∨ e = .cancellation → A.event.EndsSocket i →
    Effect env A s ({ s with writerActive := false }.setPc i (.unwinding (.threw e)))
  | transmit {s} (n) :
    s.closed = false →
    (∃ i, A.event = .transmit i n ∧ (s.calls i).pc = .socketWrite) ∨
      A.event = .loopTransmit n ∧ (∃ p, s.writeLoop = .writing p) →
    Effect env A s (s.transmit n)
  -- the outbound channel
  | selectGate {s i p r} :
    (s.calls i).pc = .channelSelect p → (s.calls i).wake = .resumed r → r ≠ .unit →
    Effect env A s ((s.abortSelect i p).setPc i .awaiting)
  | selectCancelled {s i p} :
    (s.calls i).pc = .channelSelect p → (s.calls i).Cancelled →
    ((s.calls i).wake = .resumedCancelled .unit → A .selectCancelled) →
    Effect env A s ((s.abortSelect i p).setPc i (.unwinding (.threw .cancellation)))
  | loopFlushing {s p} :
    s.writeLoop = .writing p → s.writeBuf = [] →
    Effect env A s { s with writeLoop := .flushing p }
  | loopNext {s p} :
    s.writeLoop = .flushing p →
    Effect env A s ((s.releaseOutboundBytes (packetBytes p)).loopNext env)
  | loopRun {s} :
    env.config.writeMode = .channel → s.writeLoop = .launched ∨ s.writeLoop = .receiving ∧ s.closed →
    Effect env A s (s.loopNext env)
  | loopEnd {s p} :
    s.writeLoop = .writing p ∨ s.writeLoop = .flushing p → (s.closed = false → A .loopFault) →
    Effect env A s { s with writeLoop := .ended }
  -- cancellation at a suspension
  | cancelSlot {s i} :
    (s.calls i).pc = .slotWait → (s.calls i).wake = .parked →
    Effect env A s ((s.onSlotCancelled i).setCancelled i)
  | cancelRoom {s i p} :
    (s.calls i).pc = .roomWait p → (s.calls i).wake = .parked →
    Effect env A s ((s.onRoomCancelled i).setCancelled i)
  | cancelSend {s i p} :
    (s.calls i).pc = .channelSend p → (s.calls i).wake = .parked → A .senderCancelled →
    Effect env A s ({ s with outbound := s.outbound.withdraw i }.setCancelled i)
  | cancelSelect {s i p} :
    (s.calls i).pc = .channelSelect p → (s.calls i).wake = .parked →
    Effect env A s ({ s with outbound := s.outbound.withdraw i }.setCancelled i)
  -- settlement
  | finish {s i o} :
    (s.calls i).pc = .unwinding o →
    (s.Unsettled i → s.NextDead i → A .slotWakeAbsorbed) →
    Effect env A s (s.finish i o)
  | deadline {s i} :
    A.start = s → (s.calls i).req.armed →
    ((s.calls i).pc.writing → A .writerDeadline) →
    ((s.calls i).req.isCompleted → (∃ p, (s.calls i).pc = .roomWait p) →
      (s.calls i).wake = .parked → A .settledDeadline) →
    ((s.calls i).req.isCompleted = false →
      ∀ k, (s.calls i).req.roomCont = some k → k ∉ s.roomWaiters → A .doubleResume) →
    ((s.calls i).req.isCompleted = false →
      ¬ ((s.calls i).pc = .slotWait ∧ (s.calls i).wake = .parked) → s.NextDead i →
      A .slotWakeAbsorbed) →
    Effect env A s (s.run i)
  | response {s i packet} :
    A.event = .response packet → A.start = s → packet.type = .response → s.closed = false →
    s.pending.find packet.messageId = some i →
    ((∃ p, (s.calls i).pc = .roomWait p) → A .roomSettled) →
    (s.NextDead i → A .slotWakeAbsorbed) →
    Effect env A s (s.onResponse packet)
  | shutdown {s} :
    s.closed = false → (s.SenderParked → A .senderStranded) →
    Effect env A s s.shutdown

end MsgTrans
