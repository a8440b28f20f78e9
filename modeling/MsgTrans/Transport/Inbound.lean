import MsgTrans.Connection.Shutdown
import MsgTrans.Transport.Serving

/-!
# The inbound path

An endpoint with its `inboundEvents` channel and the collectors of `events()`, and the steps of an
endpoint as its read loop sees them: which of them take a packet, what they do with it, and what they
do to the connection.

`inboundEvents` is a kotlinx `Channel`: a message goes to a parked collector or into the buffer, or
the `send` waits with it. `shutdown` closes the channel and cancels the read job, which takes a
waiting `send` out of it. `delivered` and `withdrawn` are histories of the channel, and `acted` is the
history of the read loop: the packets whose `when` branch it has carried out.
-/

namespace MsgTrans

/-- What `events()` gives out (Kotlin `Message`). -/
structure EventMessage where
  bizType : Int
  payload : KBytes
deriving DecidableEq, Repr

/-- The message that the read loop makes of a one-way packet. -/
def Packet.eventMessage (p : Packet) : EventMessage := ⟨p.bizType, p.payload⟩

/-- `inboundEvents`, with the packet that the read loop's `send` waits with and the number of parked
collectors. -/
structure EventChannel where
  buffer : List EventMessage := []
  waiting : Option Packet := none
  collectors : Nat := 0
  delivered : List EventMessage := []
  withdrawn : List Packet := []
deriving DecidableEq, Repr

namespace EventChannel

/-- `inboundEvents.send` of the packet's message. -/
def send (kind : ChannelKind) (packet : Packet) (ch : EventChannel) : EventChannel :=
  let message := packet.eventMessage
  if 0 < ch.collectors then
    { ch with collectors := ch.collectors - 1, delivered := ch.delivered ++ [message] }
  else match kind with
    | .conflated => { ch with buffer := [message], delivered := ch.delivered ++ [message] }
    | .bounded capacity =>
      if ch.buffer.length < capacity then
        { ch with buffer := ch.buffer ++ [message], delivered := ch.delivered ++ [message] }
      else { ch with waiting := some packet }

/-- A collector asks for the next message and parks if there is none; the room it makes lets a waiting
`send` in. -/
def receive (closed : Bool) (ch : EventChannel) : EventChannel :=
  match ch.waiting, ch.buffer with
  | some packet, buffer =>
    { ch with
      buffer := (buffer ++ [packet.eventMessage]).tail, waiting := none
      delivered := ch.delivered ++ [packet.eventMessage] }
  | none, _ :: rest => { ch with buffer := rest }
  | none, [] => if closed then ch else { ch with collectors := ch.collectors + 1 }

/-- `shutdown` closes the channel, which ends the parked collectors, and cancels a waiting `send`. -/
def close (ch : EventChannel) : EventChannel :=
  { ch with waiting := none, collectors := 0, withdrawn := ch.withdrawn ++ ch.waiting.toList }

/-- A `send` delivers the message, or waits with the packet. -/
lemma send_cases (kind : ChannelKind) (packet : Packet) (ch : EventChannel) :
    (ch.send kind packet).withdrawn = ch.withdrawn ∧
      ((ch.send kind packet).waiting = ch.waiting ∧
          (ch.send kind packet).delivered = ch.delivered ++ [packet.eventMessage] ∨
        (ch.send kind packet).waiting = some packet ∧
          (ch.send kind packet).delivered = ch.delivered) := by
  unfold send
  dsimp only
  split
  case isTrue => exact ⟨rfl, .inl ⟨rfl, rfl⟩⟩
  case isFalse =>
    split
    case h_1 => exact ⟨rfl, .inl ⟨rfl, rfl⟩⟩
    case h_2 =>
      split
      case isTrue => exact ⟨rfl, .inl ⟨rfl, rfl⟩⟩
      case isFalse => exact ⟨rfl, .inr ⟨rfl, rfl⟩⟩

/-- A collector lets a waiting `send` in. -/
lemma receive_histories (closed : Bool) (ch : EventChannel) :
    (ch.receive closed).withdrawn = ch.withdrawn ∧ (ch.receive closed).waiting = none ∧
      (ch.receive closed).delivered =
        ch.delivered ++ ch.waiting.toList.map Packet.eventMessage := by
  unfold receive
  split
  case h_1 packet waiting => simp [waiting]
  case h_2 waiting _ => simp [waiting]
  case h_3 waiting _ => split <;> simp [waiting]

end EventChannel

/-- An endpoint with its events. -/
structure Inbound where
  endpoint : Endpoint
  events : EventChannel := {}
  acted : List Packet := []

/-- What happens in one step: a step of the endpoint, a collector that asks for the next message, or
one that is cancelled while it is parked. -/
inductive InboundEvent where
  | endpoint (e : EndpointEvent)
  | collect
  | collectorCancelled
deriving DecidableEq, Repr

/-- The packet that the read loop gets to its `when` in a `decode`. -/
def Endpoint.dispatched (env : Env) (x : Endpoint) : EndpointEvent → Option Packet
  | .decode =>
    match env.framing.decode env.config.maxPayloadLength x.readBuf with
    | .ok (some wirePacket, _) =>
      if x.admitted env wirePacket then (normalize env wirePacket).toOption else none
    | _ => none
  | _ => none

namespace Inbound

/-- A started connection. -/
def new (env : Env) : Inbound := { endpoint := .new env }

/-- The branches of the read loop's `when` but for `inboundRequests.send`, which is a step of the
endpoint. -/
def dispatch (env : Env) (packet : Packet) (s : Inbound) : Inbound :=
  match packet.type with
  | .request => s
  | .response => { s with acted := s.acted ++ [packet] }
  | .oneWay =>
    let events := s.events.send env.config.eventsKind packet
    { s with
      events
      acted := if events.waiting = none then s.acted ++ [packet] else s.acted }

/-- If the endpoint has shut down in a step, so has the channel. -/
def closeEvents (before : Endpoint) (s : Inbound) : Inbound :=
  if s.endpoint.conn.closed && !before.conn.closed then { s with events := s.events.close } else s

/-- The endpoint has made a step, in which the read loop has dispatched a packet or none. -/
def follow (env : Env) (packet : Option Packet) (x : Endpoint) (s : Inbound) : Inbound :=
  let sent := x.requests.sent.drop s.endpoint.requests.sent.length
  let moved : Inbound := { s with endpoint := x, acted := s.acted ++ sent }
  closeEvents s.endpoint <| match packet with
    | none => moved
    | some packet => moved.dispatch env packet

/-- A `send` that has returned: its message is not waiting, and the read job is not cancelled. -/
def emits (s : Inbound) : EndpointEvent → Bool
  | .emitted => s.events.waiting = none && !s.endpoint.conn.closed
  | _ => true

/-- One step; `none` when the event cannot happen in this state. -/
def step (env : Env) (s : Inbound) : InboundEvent → Option Inbound
  | .endpoint e =>
    if s.emits e then
      (s.endpoint.step env e).map fun x => s.follow env (s.endpoint.dispatched env e) x
    else none
  | .collect =>
    some { s with
      events := s.events.receive s.endpoint.conn.closed
      acted := s.acted ++ s.events.waiting.toList }
  | .collectorCancelled =>
    if 0 < s.events.collectors then
      some { s with events := { s.events with collectors := s.events.collectors - 1 } }
    else none

end Inbound

/-! ## Steps of the read loop -/

namespace Endpoint

variable {env : Env} {e : EndpointEvent} {x x' y : Endpoint}

/-- The required first packet is missing, or a compressed packet does not decompress. -/
def Fault (env : Env) (first : Bool) (wire : Packet) : Prop :=
  (first = true ∧ ∃ required, env.config.requiredFirstRequestBizType = some required ∧
    ¬ (wire.type = .request ∧ wire.bizType = required)) ∨
  (wire.compression ≠ .none ∧ ∃ e, env.codecs.decompress wire.payload wire.compression
    env.config.maxDecompressedPayloadLength = .error e)

/-- Only a first packet that is not the required request is refused. -/
lemma admitted_iff {wire : Packet} : x.admitted env wire = true ↔
    ¬ (x.firstInboundPacket = true ∧ ∃ required,
      env.config.requiredFirstRequestBizType = some required ∧
        ¬ (wire.type = .request ∧ wire.bizType = required)) := by
  unfold admitted
  split
  case h_1 absent => simp [absent]
  case h_2 required present =>
    cases x.firstInboundPacket <;> simp [present]

/-- Normalizing fails only where decompressing does. -/
lemma normalize_error_iff {wire : Packet} : (∃ e, normalize env wire = .error e) ↔
    wire.compression ≠ .none ∧ ∃ e, env.codecs.decompress wire.payload wire.compression
      env.config.maxDecompressedPayloadLength = .error e := by
  unfold normalize Codecs.decompressPacket
  split
  case isTrue none => simp [none]
  case isFalse marked =>
    split
    case h_1 ran => simp [ran]
    case h_2 ran => simp [ran, marked]

/-- A packet that may come and normalizes is no fault, and any other is. -/
lemma fault_iff {wire : Packet} : Fault env x.firstInboundPacket wire ↔
    x.admitted env wire = false ∨ ∃ e, normalize env wire = .error e := by
  rw [normalize_error_iff, ← Bool.not_eq_true, admitted_iff, not_not, Fault]

/-- What a step of an endpoint does to its connection, if it gives it no response. -/
inductive ConnStep (env : Env) (e : EndpointEvent) (conn conn' : Conn) : Prop where
  | rests : conn' = conn → ConnStep env e conn conn'
  | shuts : conn' = conn.shutdown → ConnStep env e conn conn'
  | responds {messageId bizType response} :
    conn.step env (.respond messageId bizType response) = some conn' → ConnStep env e conn conn'
  | steps {ev} :
    e = .conn ev → ev.ofLoops = false → conn.step env ev = some conn' → ConnStep env e conn conn'

/-- A closed connection stays closed, whatever happens on it. -/
lemma ConnStep.closed {conn conn' : Conn} (h : ConnStep env e conn conn')
    (closed : conn.closed = true) : conn'.closed = true := by
  cases h with
  | rests eq => rwa [eq]
  | shuts eq => rw [eq, Conn.shutdown_closed]
  | responds st => exact Conn.step_closed st closed
  | steps _ _ st => exact Conn.step_closed st closed

/-- What a step leaves of what the read loop works on. -/
structure SameReads (env : Env) (e : EndpointEvent) (x x' : Endpoint) : Prop where
  decoded : x'.decoded = x.decoded
  first : x'.firstInboundPacket = x.firstInboundPacket
  send : ReactorQueue.SameSend x.requests x'.requests
  conn : ConnStep env e x.conn x'.conn

/-- What became of `inboundRequests.send`. -/
inductive Sends (packet : Packet) (q : ReactorQueue Packet) (x' : Endpoint) : Prop where
  | done : x'.requests.sent = q.sent ++ [packet] → x'.requests.item = none →
    x'.requests.thrown = q.thrown → x'.readLoop = .decoding → Sends packet q x'
  | parked : x'.requests.sent = q.sent → x'.requests.item = some packet →
    x'.requests.thrown = q.thrown → x'.readLoop = .offering → Sends packet q x'
  | throws : x'.requests.sent = q.sent → x'.requests.item = none →
    x'.requests.thrown = q.thrown ++ [packet] → x'.readLoop = .ended →
    x'.conn.closed = true → Sends packet q x'

/-- A wire packet has been decoded, on an open connection. -/
structure Takes (env : Env) (e : EndpointEvent) (wire : Packet) (x x' : Endpoint) : Prop where
  event : e = .decode
  place : x.readLoop = .decoding
  opened : x.conn.closed = false
  source : ∃ rest, env.framing.decode env.config.maxPayloadLength x.readBuf = .ok (some wire, rest)
  decoded : x'.decoded = x.decoded ++ [wire]
  first : x'.firstInboundPacket = false

/-- What a step of an endpoint does for the read loop, and the packet it dispatches. -/
inductive Reads (env : Env) (x : Endpoint) (e : EndpointEvent) (x' : Endpoint) :
    Option Packet → Prop where
  | aside : SameReads env e x x' → x'.readLoop = x.readLoop → Reads env x e x' none
  | turn : SameReads env e x x' → x.readLoop ≠ .offering → x.readLoop ≠ .ended →
    (x.readLoop = .emitting → e = .emitted) → x'.readLoop ≠ .ended → Reads env x e x' none
  | ends : SameReads env e x x' → x.readLoop ≠ .offering → x'.readLoop = .ended →
    x'.conn.closed = true → Reads env x e x' none
  | fault {wire} : Takes env e wire x x' → Fault env x.firstInboundPacket wire →
    ReactorQueue.SameSend x.requests x'.requests → x'.readLoop = .ended →
    x'.conn = x.conn.shutdown → Reads env x e x' none
  | response {wire packet} : Takes env e wire x x' → ¬ Fault env x.firstInboundPacket wire →
    normalize env wire = .ok packet → packet.type = .response →
    ReactorQueue.SameSend x.requests x'.requests → x'.readLoop = .decoding →
    x.conn.step env (.response packet) = some x'.conn → Reads env x e x' (some packet)
  | emits {wire packet} : Takes env e wire x x' → ¬ Fault env x.firstInboundPacket wire →
    normalize env wire = .ok packet → packet.type = .oneWay →
    ReactorQueue.SameSend x.requests x'.requests → x'.readLoop = .emitting →
    x'.conn = x.conn → Reads env x e x' (some packet)
  | offers {wire packet} : Takes env e wire x x' → ¬ Fault env x.firstInboundPacket wire →
    normalize env wire = .ok packet → packet.type = .request → Sends packet x.requests x' →
    ConnStep env e x.conn x'.conn → Reads env x e x' (some packet)
  | offered {packet} : x'.decoded = x.decoded → x'.firstInboundPacket = x.firstInboundPacket →
    ConnStep env e x.conn x'.conn → x.readLoop = .offering →
    x.requests.item = some packet → Sends packet x.requests x' → Reads env x e x' none

/-- A response comes to the connection only from the read loop. -/
lemma Reads.conn {packet : Option Packet} (h : Reads env x e x' packet) :
    ConnStep env e x.conn x'.conn ∨
      ∃ p, packet = some p ∧ p.type = .response ∧ x.conn.step env (.response p) = some x'.conn := by
  cases h with
  | aside same _ | turn same _ _ _ _ | ends same _ _ _ => exact .inl same.conn
  | fault _ _ _ _ conn => exact .inl (.shuts conn)
  | response _ _ _ type _ _ st => exact .inr ⟨_, rfl, type, st⟩
  | emits _ _ _ _ _ _ conn => exact .inl (.rests conn)
  | offers _ _ _ _ _ conn => exact .inl conn
  | offered _ _ conn _ _ _ => exact .inl conn

/-- A packet is decoded only from the read loop's buffer. -/
lemma Reads.decoded {packet : Option Packet} (h : Reads env x e x' packet) :
    x'.decoded = x.decoded ∨ ∃ wire, Takes env e wire x x' := by
  cases h with
  | aside same _ | turn same _ _ _ _ | ends same _ _ _ => exact .inl same.decoded
  | fault taken _ _ _ _ => exact .inr ⟨_, taken⟩
  | response taken _ _ _ _ _ _ | emits taken _ _ _ _ _ _ => exact .inr ⟨_, taken⟩
  | offers taken _ _ _ _ _ => exact .inr ⟨_, taken⟩
  | offered decoded _ _ _ _ _ => exact .inl decoded

/-- Closing the queue concerns no `send`, other than that it fails. -/
lemma closeLoops_sameSend (q : ReactorQueue Packet) :
    ReactorQueue.SameSend q (closeLoops q) := by
  have one : ∀ (u : ReactorQueue Packet) (e : QueueEvent Packet),
      (e = .close ∨ ∃ side, e = .cancel side) →
      ReactorQueue.SameSend u ((u.step e).getD u) := by
    intro u e closes
    cases fires : u.step e with
    | none => exact .refl u
    | some u' => rcases closes with rfl | ⟨_, rfl⟩ <;>
        exact ReactorQueue.step_sameSend fires (by simp) (by simp)
  have closed := one q .close (.inl rfl)
  have producer := closed.trans (one _ (.cancel .producer) (.inr ⟨_, rfl⟩))
  exact producer.trans (one _ (.cancel .consumer) (.inr ⟨_, rfl⟩))

/-- A change of the connection does not move the read loop. -/
lemma withConn_readLoop (conn : Conn) (x : Endpoint) : (x.withConn conn).readLoop = x.readLoop := by
  unfold withConn
  split <;> rfl

/-- A change of the connection concerns no `send`, other than that it fails. -/
lemma withConn_sameSend (conn : Conn) (x : Endpoint) :
    ReactorQueue.SameSend x.requests (x.withConn conn).requests := by
  unfold withConn
  split
  case isTrue => exact closeLoops_sameSend _
  case isFalse => exact .refl _

/-- A change of the connection takes nothing from what was decoded. -/
lemma withConn_decoded (conn : Conn) (x : Endpoint) : (x.withConn conn).decoded = x.decoded := by
  unfold withConn
  split <;> rfl

/-- A change of the connection does not count as a packet. -/
lemma withConn_first (conn : Conn) (x : Endpoint) :
    (x.withConn conn).firstInboundPacket = x.firstInboundPacket := by
  unfold withConn
  split <;> rfl

/-- The end of the read loop shuts the connection down. -/
lemma endRead_conn (x : Endpoint) : x.endRead.conn = x.conn.shutdown := withConn_conn _ _

/-- The end of the read loop closes the connection. -/
lemma endRead_closed (x : Endpoint) : x.endRead.conn.closed = true := by
  rw [endRead_conn, Conn.shutdown_closed]

/-- The read loop has ended. -/
lemma endRead_ended (x : Endpoint) : x.endRead.readLoop = .ended := by
  rw [endRead, withConn_readLoop]

/-- The end of the read loop keeps what was read. -/
lemma endRead_sameReads (x : Endpoint) : SameReads env e x x.endRead where
  decoded := withConn_decoded _ _
  first := withConn_first _ _
  send := withConn_sameSend x.conn.shutdown { x with readLoop := .ended }
  conn := .shuts x.endRead_conn

/-- The end of the handler loop keeps what was read. -/
lemma endHandler_sameReads (x : Endpoint) : SameReads env e x x.endHandler where
  decoded := withConn_decoded _ _
  first := withConn_first _ _
  send := withConn_sameSend x.conn.shutdown { x with handlerLoop := .ended }
  conn := .shuts (withConn_conn _ _)

/-- The end of the handler loop does not move the read loop. -/
lemma endHandler_readLoop (x : Endpoint) : x.endHandler.readLoop = x.readLoop := by
  rw [endHandler, withConn_readLoop]

/-- The read loop after a turn of its `send`. -/
lemma afterSend_sends {q : ReactorQueue Packet} {packet : Packet}
    (offered : ReactorQueue.Offered packet x.requests q) :
    Sends packet x.requests (x.afterSend q) := by
  unfold afterSend
  cases offered with
  | done sent item thrown sender =>
    rw [sender]
    dsimp only
    rw [if_pos (congrArg List.length thrown)]
    exact .done sent item thrown rfl
  | parked sent item thrown sender =>
    split
    case h_1 outside => exact absurd outside sender
    case h_2 => exact .parked sent item thrown rfl
  | throws sent item thrown sender =>
    rw [sender]
    dsimp only
    rw [if_neg (by simp [thrown])]
    have same := withConn_sameSend x.conn.shutdown { x with requests := q, readLoop := .ended }
    exact .throws (same.sent.trans sent) (same.item.trans item) (same.thrown.trans thrown)
      (endRead_ended _) (endRead_closed _)

/-- A `send` changes the rest of the endpoint only by ending the read loop. -/
lemma afterSend_rest (env : Env) (e : EndpointEvent) (q : ReactorQueue Packet) (x : Endpoint) :
    (x.afterSend q).decoded = x.decoded ∧
      (x.afterSend q).firstInboundPacket = x.firstInboundPacket ∧
      ConnStep env e x.conn (x.afterSend q).conn := by
  unfold afterSend
  split
  case h_1 =>
    split
    case isTrue => exact ⟨rfl, rfl, .rests rfl⟩
    case isFalse => exact ⟨withConn_decoded _ _, withConn_first _ _, .shuts (endRead_conn _)⟩
  case h_2 => exact ⟨rfl, rfl, .rests rfl⟩

/-- The handler loop receives; the read loop does nothing. -/
lemma afterReceive_reads {q : ReactorQueue Packet} (same : ReactorQueue.SameSend x.requests q) :
    Reads env x e (x.afterReceive q) none := by
  unfold afterReceive
  split
  case h_1 =>
    split
    case h_1 => exact .aside ⟨rfl, rfl, same, .rests rfl⟩ rfl
    case h_2 =>
      have ends : SameReads env e _ _ := endHandler_sameReads { x with requests := q }
      exact .aside ⟨ends.decoded, ends.first, same.trans ends.send, ends.conn⟩ (endHandler_readLoop _)
  case h_2 => exact .aside ⟨rfl, rfl, same, .rests rfl⟩ rfl

/-- A read loop that ends outside its `send` dispatches nothing. -/
lemma endRead_reads (place : x.readLoop ≠ .offering) : Reads env x e x.endRead none :=
  .ends (endRead_sameReads x) place (endRead_ended x) (endRead_closed x)

/-- A handler loop that ends dispatches nothing. -/
lemma endHandler_reads : Reads env x e x.endHandler none :=
  .aside (endHandler_sameReads x) (endHandler_readLoop x)

/-- The read loop stops at a packet that it has taken. -/
lemma takes_fault {wire : Packet} (taken : Takes env e wire x y)
    (fault : Fault env x.firstInboundPacket wire) (conn : y.conn = x.conn)
    (same : ReactorQueue.SameSend x.requests y.requests) : Reads env x e y.endRead none := by
  have ends : SameReads env e _ _ := endRead_sameReads y
  have still : Takes env e wire x y.endRead := { taken with
    decoded := ends.decoded.trans taken.decoded, first := ends.first.trans taken.first }
  exact .fault still fault (same.trans ends.send) (endRead_ended y)
    ((endRead_conn y).trans (congrArg Conn.shutdown conn))

/-- The read loop goes on with a packet that it has taken. -/
lemma onPacket_reads {wire : Packet} (taken : Takes env e wire x y)
    (admitted : x.admitted env wire = true) (conn : y.conn = x.conn)
    (requests : y.requests = x.requests) (place : y.readLoop = .decoding)
    (h : y.onPacket env wire = some x') : Reads env x e x' (normalize env wire).toOption := by
  have same : ReactorQueue.SameSend x.requests y.requests := requests ▸ .refl _
  unfold onPacket at h
  split at h
  case h_1 e failed =>
    cases h
    have normal : normalize env wire = .error e := failed
    rw [normal]
    exact takes_fault taken (fault_iff.mpr (.inr ⟨e, normal⟩)) conn same
  case h_2 packet ran =>
    have normal : normalize env wire = .ok packet := ran
    have clean : ¬ Fault env x.firstInboundPacket wire := by
      rw [fault_iff]
      simp [admitted, normal]
    rw [normal]
    split at h
    case h_1 type =>
      obtain ⟨answered, st, rfl⟩ := Option.map_eq_some_iff.mp h
      have still : Takes env e wire x (y.withConn answered) := { taken with
        decoded := (withConn_decoded answered y).trans taken.decoded
        first := (withConn_first answered y).trans taken.first }
      refine .response still clean normal type (same.trans (withConn_sameSend answered y))
        ((withConn_readLoop answered y).trans place) ?_
      rw [withConn_conn, ← conn]
      exact st
    case h_2 type =>
      obtain ⟨q, st, rfl⟩ := Option.map_eq_some_iff.mp h
      obtain ⟨_, rfl⟩ := ReactorQueue.step_send st
      obtain ⟨decoded, first, moved⟩ := afterSend_rest env e (y.requests.offer packet) y
      have still : Takes env e wire x (y.afterSend (y.requests.offer packet)) :=
        { taken with decoded := decoded.trans taken.decoded, first := first.trans taken.first }
      have sends := afterSend_sends (y.requests.offer_offered (x := packet))
      exact .offers still clean normal type (requests ▸ sends) (conn ▸ moved)
    case h_3 type =>
      cases h
      have still : Takes env e wire x { y with readLoop := .emitting } :=
        { taken with }
      exact .emits still clean normal type same rfl conn

/-- Decoding dispatches the packet it decodes. -/
lemma decode_reads (h : x.decode env = some x') :
    Reads env x .decode x' (x.dispatched env .decode) := by
  obtain ⟨⟨place, opened⟩, h⟩ := Option.ite_none_right_eq_some.mp h
  unfold dispatched
  split at h
  case h_1 failed =>
    cases h
    rw [failed]
    exact endRead_reads (by simp [place])
  case h_2 rest none =>
    cases h
    rw [none]
    exact .turn ⟨rfl, rfl, .refl _, .rests rfl⟩ (by simp [place]) (by simp [place])
      (by simp [place]) (by simp)
  case h_3 wire rest decoded =>
    rw [decoded]
    dsimp only at h ⊢
    have taken : Takes env .decode wire x { x with
        readBuf := rest, firstInboundPacket := false, decoded := x.decoded ++ [wire] } :=
      ⟨rfl, place, opened, ⟨rest, decoded⟩, rfl, rfl⟩
    split at h
    case isFalse refused =>
      cases h
      rw [if_neg refused]
      exact takes_fault taken (fault_iff.mpr (.inl (by simpa using refused))) rfl (.refl _)
    case isTrue admitted =>
      rw [if_pos admitted]
      exact onPacket_reads taken admitted rfl rfl place h

/-- Every step of an endpoint, as the read loop sees it. -/
theorem step_reads (h : x.step env e = some x') : Reads env x e x' (x.dispatched env e) := by
  cases e with
  | conn ev =>
    obtain ⟨free, h⟩ := Option.ite_none_left_eq_some.mp h
    obtain ⟨conn, st, rfl⟩ := Option.map_eq_some_iff.mp h
    refine .aside ⟨withConn_decoded _ _, withConn_first _ _, withConn_sameSend _ _, ?_⟩
      (withConn_readLoop _ _)
    rw [withConn_conn]
    exact .steps rfl (by simpa using free) st
  | onRequest =>
    cases h
    exact .aside ⟨rfl, rfl, .refl _, .rests rfl⟩ rfl
  | read chunk =>
    obtain ⟨⟨place, _⟩, h⟩ := Option.ite_none_right_eq_some.mp h
    cases h
    exact .turn ⟨rfl, rfl, .refl _, .rests rfl⟩ (by simp [place]) (by simp [place])
      (by simp [place]) (by simp)
  | readFails =>
    obtain ⟨place, h⟩ := Option.ite_none_right_eq_some.mp h
    cases h
    exact endRead_reads (by rcases place with place | place <;> simp [place])
  | decode => exact decode_reads h
  | emitted =>
    obtain ⟨place, h⟩ := Option.ite_none_right_eq_some.mp h
    cases h
    exact .turn ⟨rfl, rfl, .refl _, .rests rfl⟩ (by simp [place]) (by simp [place])
      (fun _ => rfl) (by simp)
  | offered =>
    obtain ⟨place, h⟩ := Option.ite_none_right_eq_some.mp h
    obtain ⟨q, st, rfl⟩ := Option.map_eq_some_iff.mp h
    -- the read loop was suspended in `send`, with the packet it carries
    obtain ⟨packet, item, turn⟩ := ReactorQueue.step_run_offered st
    obtain ⟨decoded, first, conn⟩ := afterSend_rest env .offered q x
    exact .offered decoded first conn place item (afterSend_sends turn)
  | cancel side =>
    obtain ⟨q, st, rfl⟩ := Option.map_eq_some_iff.mp h
    exact .aside ⟨rfl, rfl, ReactorQueue.step_sameSend st (by simp) (by simp), .rests rfl⟩ rfl
  | onCancelled side =>
    obtain ⟨q, st, rfl⟩ := Option.map_eq_some_iff.mp h
    exact .aside ⟨rfl, rfl, ReactorQueue.step_sameSend st (by simp) (by simp), .rests rfl⟩ rfl
  | receive =>
    obtain ⟨_, h⟩ := Option.ite_none_right_eq_some.mp h
    obtain ⟨q, st, rfl⟩ := Option.map_eq_some_iff.mp h
    exact afterReceive_reads (ReactorQueue.step_sameSend st (by simp) (by simp))
  | received =>
    obtain ⟨_, h⟩ := Option.ite_none_right_eq_some.mp h
    obtain ⟨q, st, rfl⟩ := Option.map_eq_some_iff.mp h
    exact afterReceive_reads (ReactorQueue.step_sameSend st (by simp) (by simp))
  | handled response =>
    simp only [step] at h
    split at h
    case h_1 packet place =>
      unfold respond at h
      split at h
      case h_1 => cases h
      case h_2 run last =>
        obtain ⟨_, h⟩ := Option.ite_none_right_eq_some.mp h
        obtain ⟨conn, st, rfl⟩ := Option.map_eq_some_iff.mp h
        refine .aside ⟨withConn_decoded _ _, withConn_first _ _, ?_, ?_⟩ (withConn_readLoop _ _)
        · exact withConn_sameSend conn { x with
            runs := x.runs.dropLast ++ [{ run with answer := some response }]
            handlerLoop := .answering x.conn.next }
        · rw [withConn_conn]
          exact .responds st
    case h_2 => cases h
  | handlerFails =>
    simp only [step] at h
    split at h <;> cases h
    exact endHandler_reads
  | answered =>
    simp only [step] at h
    split at h
    case h_1 =>
      split at h
      case h_1 =>
        cases h
        exact .aside ⟨rfl, rfl, .refl _, .rests rfl⟩ rfl
      case h_2 =>
        cases h
        exact endHandler_reads
      case h_3 => cases h
    case h_2 => cases h

end Endpoint

end MsgTrans
