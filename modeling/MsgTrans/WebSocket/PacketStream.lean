import MsgTrans.Core.Decoding

/-!
# Packets over a WebSocket

Model of `WebSocketPacketStream` (`msgtrans-websocket`, `WebSocketTransport.kt`): the loop of `write`
that cuts the written bytes at packet boundaries, and `read` with `checkOnePacket`. The WebSocket
itself is outside the sources: `fed` is what has been given to `writer.feed`, which is taken to
succeed, and a sequence of `Message`s is what `reader.receive` returns.
-/

namespace MsgTrans

open BigEndian

/-- Kotlin `WebSocketTransportOptions`; the other options are read by no modelled function. -/
structure WebSocketTransportOptions where
  maxMessageSize : Int := 16 + 0xFFFF + PacketCodec.DEFAULT_MAX_PAYLOAD
  maxMessageSize_lt : maxMessageSize < 2 ^ 31 := by decide

/-- A WebSocket message (neton `Message`). -/
inductive Message where
  | binary (data : KBytes)
  | text (data : String)
  | ping (data : KBytes)
  | pong (data : KBytes)
  | close
deriving DecidableEq, Repr

/-- The length of the packet whose fixed header is in front, from its two length fields. -/
def packetLength (buf : List UInt8) : Nat :=
  Packet.FIXED_HEADER_SIZE + get 8 2 buf + get 10 4 buf

/-- The outbound half of Kotlin `WebSocketPacketStream`: written bytes that do not form a whole packet
yet, and the binary messages fed to the WebSocket. -/
structure WebSocketPacketStream where
  pending : List UInt8 := []
  fed : List KBytes := []

namespace WebSocketPacketStream

/-- One turn of the loop of `write`: the next message and what it leaves of `pending`. -/
def cut (options : WebSocketTransportOptions) (pending : List UInt8) :
    Except Throwable (Option KBytes × List UInt8) :=
  if pending.length < Packet.FIXED_HEADER_SIZE then .ok (none, pending)
  else
    let length := packetLength pending
    if large : length > options.maxMessageSize then
      .error (.protocol s!"packet of {length} bytes exceeds the message limit {options.maxMessageSize}")
    else if pending.length < length then .ok (none, pending)
    else .ok (some ⟨pending.take length, by
      have := options.maxMessageSize_lt
      rw [List.length_take]
      omega⟩, pending.drop length)

/-- A message that is cut is one whole packet, off the front of the buffer. -/
lemma cut_some {options : WebSocketTransportOptions} {pending rest : List UInt8} {m : KBytes}
    (turn : cut options pending = .ok (some m, rest)) : pending = m.data ++ rest ∧
      Packet.FIXED_HEADER_SIZE ≤ m.size ∧ m.size = packetLength pending := by
  unfold cut at turn
  split at turn
  case isTrue => cases turn
  case isFalse =>
    dsimp only at turn
    split at turn
    case isTrue => cases turn
    case isFalse =>
      split at turn
      case isTrue => cases turn
      case isFalse whole =>
        cases turn
        refine ⟨(List.take_append_drop _ _).symm, ?_⟩
        rw [KBytes.size, List.length_take, packetLength]
        rw [packetLength] at whole
        omega

/-- Every cut takes bytes from the buffer. -/
lemma cut_shrinks {options : WebSocketTransportOptions} {pending rest : List UInt8} {m : KBytes}
    (turn : cut options pending = .ok (some m, rest)) : rest.length < pending.length := by
  obtain ⟨rfl, long, _⟩ := cut_some turn
  rw [KBytes.size, Packet.FIXED_HEADER_SIZE] at long
  rw [List.length_append]
  omega

/-- The loop of `write`. -/
def cutter (options : WebSocketTransportOptions) : Incremental UInt8 KBytes Throwable where
  decode := cut options
  shrinks turn := cut_shrinks turn

/-- Kotlin `WebSocketPacketStream.write`, once it has the lock: all of `src` is taken. -/
def write (options : WebSocketTransportOptions) (src : List UInt8) (s : WebSocketPacketStream) :
    WebSocketPacketStream × Except Throwable Nat :=
  let pending := s.pending ++ src
  match (cutter options).drain pending with
  | (messages, .ok rest) => (⟨rest, s.fed ++ messages⟩, .ok src.length)
  | (messages, .error e) =>
    (⟨pending.drop (messages.flatMap KBytes.data).length, s.fed ++ messages⟩, .error e)

/-- Successive writes; the first that throws is the last. -/
def writes (options : WebSocketTransportOptions) : List (List UInt8) → WebSocketPacketStream →
    WebSocketPacketStream × Except Throwable Unit
  | [], s => (s, .ok ())
  | src :: srcs, s =>
    match s.write options src with
    | (s, .error e) => (s, .error e)
    | (s, .ok _) => s.writes options srcs

/-- Kotlin `u(i)` of `checkOnePacket`: `data[i].toLong() and 0xFF`. -/
def u (data : KBytes) (i : Nat) : BitVec 64 :=
  (data.data.getD i 0).toBitVec.signExtend 64 &&& 0xFF#64

/-- The `Long` that `checkOnePacket` puts together from the bytes of the two length fields. -/
def shiftedLength (data : KBytes) : BitVec 64 :=
  BitVec.ofNat 64 Packet.FIXED_HEADER_SIZE + (u data 8 <<< 8 ||| u data 9) +
    (u data 10 <<< 24 ||| u data 11 <<< 16 ||| u data 12 <<< 8 ||| u data 13)

/-- Kotlin `checkOnePacket`. -/
def checkOnePacket (data : KBytes) : Except Throwable Unit :=
  if data.size < Packet.FIXED_HEADER_SIZE then
    .error (.protocol s!"message of {data.size} bytes is shorter than a packet header")
  else
    let packet := shiftedLength data
    if packet ≠ BitVec.ofNat 64 data.size then
      .error (.protocol s!"message of {data.size} bytes holds a packet of {packet.toInt} bytes")
    else .ok ()

/-- One turn of the loop of Kotlin `read`: the bytes it appends and returns, or `none` to receive the
next message. -/
def readMessage : Message → Except Throwable (Option KBytes)
  | .binary data =>
    match checkOnePacket data with
    | .error e => .error e
    | .ok () => .ok (some data)
  | .text _ => .error (.protocol "text message on a msgtrans WebSocket")
  | .ping _ | .pong _ | .close => .ok none

/-- The read loop of the connection over the messages received: what `read` appends to the buffer is
decoded until the decoder asks for more. The packets, and what is left in the buffer or the failure
that ends the loop. -/
def receiveEach (max : Int) : List Message → List UInt8 → List Packet × Except Throwable (List UInt8)
  | [], buf => ([], .ok buf)
  | m :: ms, buf =>
    match readMessage m with
    | .error e => ([], .error e)
    | .ok none => receiveEach max ms buf
    | .ok (some data) =>
      match (Framing.packets.decoder max).drain (buf ++ data.data) with
      | (ps, .error e) => (ps, .error e)
      | (ps, .ok rest) =>
        let (ps', last) := receiveEach max ms rest
        (ps ++ ps', last)

end WebSocketPacketStream

end MsgTrans
