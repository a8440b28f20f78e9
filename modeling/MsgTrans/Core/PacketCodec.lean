import MsgTrans.Core.Packet
import MsgTrans.Lib.BigEndian

/-!
# Wire codecs

Model of `PacketCodec` and `LengthPrefixedPacketCodec`. A neton-io `Buffer` is the list of its
readable bytes; `encode` gives the bytes it appends, `decode` what it returns and the buffer it
leaves. `null` (more bytes are needed) is `none`. A Kotlin `Long` is an `Int`, wrapped where the code
adds to one that the caller chose.
-/

namespace MsgTrans

open BigEndian

/-- Kotlin `Buffer.readBytes(n)`: the next `n` bytes as an array, and what is left. A negative `n`
is refused; it is what the narrowing of a length above `Int.MAX_VALUE` would give. -/
def readBytes (n : Nat) (buf : List UInt8) : Except Throwable (KBytes × List UInt8) :=
  if h : n < 2 ^ 31 then
    .ok (⟨buf.take n, by rw [List.length_take]; omega⟩, buf.drop n)
  else
    .error (.illegalArgument "negative length")

namespace PacketCodec

/-- Kotlin `PacketCodec.DEFAULT_MAX_PAYLOAD`. -/
def DEFAULT_MAX_PAYLOAD : Int := 64 * 1024 * 1024

/-- The 16-byte fixed header of a packet. -/
def header (item : Packet) : List UInt8 :=
  put 1 Packet.PROTOCOL_VERSION ++
  (put 1 item.compression.code ++
  (put 1 item.type.code ++
  (put 1 item.bizType.toNat ++
  (put 4 item.messageId.toNat ++
  (put 2 item.extHeader.size ++
  (put 4 item.payload.size ++
  put 2 item.reserved.toNat))))))

/-- Kotlin `PacketCodec.encode`. -/
def encode (item : Packet) : List UInt8 :=
  header item ++ (item.extHeader.data ++ item.payload.data)

/-- The fixed header, as `decode` reads it: each value fits its field. -/
structure Header where
  compression : Compression
  type : PacketType
  bizType : Nat
  messageId : UInt32
  extHeaderLen : Nat
  payloadLen : Nat
  reserved : Nat
  bizType_le : bizType ≤ 255
  extHeaderLen_le : extHeaderLen ≤ 0xFFFF
  payloadLen_le : payloadLen ≤ 0xFFFFFFFF
  reserved_le : reserved ≤ 0xFFFF

/-- The part of `decode` that looks at the fixed header, up to the payload limit. -/
def readHeader (maxPayloadLength : Int) (buf : List UInt8) : Except Throwable Header :=
  let version := get 0 1 buf
  if version ≠ Packet.PROTOCOL_VERSION then
    .error (.protocol s!"unsupported version={version}")
  else
    match Compression.fromCode (get 1 1 buf), PacketType.fromCode (get 2 1 buf) with
    | .error e, _ => .error e
    | .ok _, .error e => .error e
    | .ok compression, .ok type =>
      let payloadLen := get 10 4 buf
      if (payloadLen : Int) > maxPayloadLength then
        .error (.protocol s!"payload_len={payloadLen} exceeds max={maxPayloadLength}")
      else .ok {
        compression, type, payloadLen
        bizType := get 3 1 buf
        messageId := UInt32.ofNat (get 4 4 buf)
        extHeaderLen := get 8 2 buf
        reserved := get 14 2 buf
        bizType_le := Nat.le_of_lt_succ (get_lt 3 1 buf)
        extHeaderLen_le := Nat.le_of_lt_succ (get_lt 8 2 buf)
        payloadLen_le := Nat.le_of_lt_succ (get_lt 10 4 buf)
        reserved_le := Nat.le_of_lt_succ (get_lt 14 2 buf) }

/-- The part of `decode` that reads what follows the fixed header. -/
def readBody (h : Header) (buf : List UInt8) : Except Throwable (Packet × List UInt8) :=
  match readBytes h.extHeaderLen buf with
  | .error e => .error e
  | .ok (extHeader, buf) =>
    match readBytes h.payloadLen buf with
    | .error e => .error e
    | .ok (payload, buf) =>
      .ok (⟨h.type, h.messageId, h.bizType, payload, extHeader, h.compression, h.reserved,
        ⟨Int.natCast_nonneg _, Int.ofNat_le.mpr h.bizType_le⟩,
        ⟨Int.natCast_nonneg _, Int.ofNat_le.mpr h.reserved_le⟩⟩, buf)

/-- Kotlin `PacketCodec.decode`. -/
def decode (maxPayloadLength : Int) (buf : List UInt8) :
    Except Throwable (Option Packet × List UInt8) :=
  if buf.length < Packet.FIXED_HEADER_SIZE then .ok (none, buf)
  else
    match readHeader maxPayloadLength buf with
    | .error e => .error e
    | .ok h =>
      if buf.length < Packet.FIXED_HEADER_SIZE + h.extHeaderLen + h.payloadLen then .ok (none, buf)
      else
        match readBody h (buf.drop Packet.FIXED_HEADER_SIZE) with
        | .error e => .error e
        | .ok (packet, buf) => .ok (some packet, buf)

end PacketCodec

namespace LengthPrefixedPacketCodec

/-- Kotlin `LengthPrefixedPacketCodec.PREFIX`. -/
def PREFIX : Nat := 4

/-- A Kotlin `Long`: the value wraps around at 64 bits. -/
def toLong (n : Int) : Int := n.bmod (2 ^ 64)

/-- The longest frame a valid packet can need (Kotlin `maxFrameLength`, a sum of `Long`s). -/
def maxFrameLength (maxPayloadLength : Int) : Int :=
  toLong (Packet.FIXED_HEADER_SIZE + 0xFFFF + maxPayloadLength)

/-- Kotlin `LengthPrefixedPacketCodec.encode`. -/
def encode (item : Packet) : List UInt8 :=
  put 4 (Packet.FIXED_HEADER_SIZE + item.extHeader.size + item.payload.size) ++
    PacketCodec.encode item

/-- Kotlin `LengthPrefixedPacketCodec.decode`. -/
def decode (maxPayloadLength : Int) (buf : List UInt8) :
    Except Throwable (Option Packet × List UInt8) :=
  if buf.length < PREFIX then .ok (none, buf)
  else
    let length := get 0 4 buf
    let maxFrame := maxFrameLength maxPayloadLength
    if (length : Int) > maxFrame then
      .error (.protocol s!"frame_len={length} exceeds max={maxFrame}")
    else if buf.length - PREFIX < length then .ok (none, buf)
    else if length < Packet.FIXED_HEADER_SIZE then
      .error (.protocol s!"frame_len={length} is shorter than a packet header")
    else
      let packetLength := Packet.FIXED_HEADER_SIZE + get (PREFIX + 8) 2 buf + get (PREFIX + 10) 4 buf
      if packetLength ≠ length then
        .error (.protocol s!"frame_len={length} holds a packet of {packetLength} bytes")
      else
        match PacketCodec.decode maxPayloadLength (buf.drop PREFIX) with
        | .ok (none, _) => .error (.protocol "incomplete packet in a complete frame")
        | r => r

end LengthPrefixedPacketCodec

/-- How packets are delimited on the byte stream (Kotlin `Framing`). -/
inductive Framing where
  | packets
  | lengthPrefixed
deriving DecidableEq, Repr

namespace Framing

/-- The encoder the connection picks for its framing (Kotlin `Connection.codec`). -/
def encode : Framing → Packet → List UInt8
  | .packets => PacketCodec.encode
  | .lengthPrefixed => LengthPrefixedPacketCodec.encode

/-- The decoder the connection picks for its framing (Kotlin `Connection.framed`). -/
def decode : Framing → Int → List UInt8 → Except Throwable (Option Packet × List UInt8)
  | .packets => PacketCodec.decode
  | .lengthPrefixed => LengthPrefixedPacketCodec.decode

end Framing

end MsgTrans
