import Mathlib.Algebra.Ring.Int.Defs
import Mathlib.Algebra.Ring.Nat
import Mathlib.Tactic.Common

/-!
# Packets

Model of `msgtrans/core/Packet.kt`: the packet type and compression codes, the Kotlin exceptions the
transport raises, and `Packet` with the checks of its constructor. A Kotlin `ByteArray` is a list of
bytes whose length fits an `Int`; `Packet` carries the ranges its `init` block requires, so that a
packet the constructor would refuse cannot be built.

`Packet.oneWay`/`request`/`response` and the `Flags` constants are used by no modelled function and
are left out.
-/

namespace MsgTrans

/-- A Kotlin `ByteArray`: array sizes are `Int`s. -/
structure KBytes where
  data : List UInt8
  size_lt : data.length < 2 ^ 31
deriving DecidableEq, Repr

namespace KBytes

/-- The empty array (Kotlin `Packet.EMPTY`, `Connection.EMPTY`). -/
def empty : KBytes := ⟨[], by decide⟩

/-- A payload of one byte. -/
def one : KBytes := ⟨[7], by decide⟩

/-- Kotlin `ByteArray.size`. -/
def size (b : KBytes) : Nat := b.data.length

end KBytes

/-- The exceptions that cross the modelled functions. -/
inductive Throwable where
  | cancellation
  | connectionClosed (message : String)
  | requestTimeout (messageId : UInt32) (timeoutMillis : Int)
  | payloadTooLarge (bytes limit : Int)
  | illegalArgument (message : String)
  | illegalState (message : String)
  | closedSendChannel
  | io (message : String)
  | protocol (message : String)
  | other (message : String)
deriving DecidableEq, Repr

/-- Packet type, the wire byte at offset 2 (Kotlin `PacketType`). -/
inductive PacketType where
  | oneWay
  | request
  | response
deriving DecidableEq, Repr

namespace PacketType

/-- The wire code (Kotlin `PacketType.code`). -/
def code : PacketType → Nat
  | .oneWay => 0
  | .request => 1
  | .response => 2

/-- Kotlin `PacketType.fromCode`. -/
def fromCode : Nat → Except Throwable PacketType
  | 0 => .ok .oneWay
  | 1 => .ok .request
  | 2 => .ok .response
  | n => .error (.protocol s!"unknown packet_type={n}")

end PacketType

/-- Payload compression, the wire byte at offset 1 (Kotlin `Compression`). -/
inductive Compression where
  | none
  | zstd
  | zlib
deriving DecidableEq, Repr

namespace Compression

/-- The wire code (Kotlin `Compression.code`). -/
def code : Compression → Nat
  | .none => 0
  | .zstd => 1
  | .zlib => 2

/-- Kotlin `Compression.fromCode`. -/
def fromCode : Nat → Except Throwable Compression
  | 0 => .ok .none
  | 1 => .ok .zstd
  | 2 => .ok .zlib
  | n => .error (.protocol s!"unknown compression={n}")

end Compression

/-- One msgtrans packet, with what its constructor requires of it (Kotlin `Packet`). -/
structure Packet where
  type : PacketType
  messageId : UInt32
  bizType : Int
  payload : KBytes
  extHeader : KBytes
  compression : Compression
  reserved : Int
  bizType_range : 0 ≤ bizType ∧ bizType ≤ 255
  reserved_range : 0 ≤ reserved ∧ reserved ≤ 0xFFFF
deriving DecidableEq, Repr

namespace Packet

/-- Kotlin `Packet.PROTOCOL_VERSION`. -/
def PROTOCOL_VERSION : Nat := 1

/-- Kotlin `Packet.FIXED_HEADER_SIZE`. -/
def FIXED_HEADER_SIZE : Nat := 16

/-- The biz type 0 is a byte. -/
lemma bizType_zero : (0 : Int) ≤ 0 ∧ (0 : Int) ≤ 255 := by decide

/-- The default of the reserved field is a `UShort`. -/
lemma reserved_zero : (0 : Int) ≤ 0 ∧ (0 : Int) ≤ 0xFFFF := by decide

/-- The constructor as the connection calls it: no ext header and no reserved bits; refuses a biz
type that does not fit the header's byte (Kotlin `Packet.init`). -/
def new (type : PacketType) (messageId : UInt32) (bizType : Int) (payload : KBytes)
    (compression : Compression) : Except Throwable Packet :=
  if h : 0 ≤ bizType ∧ bizType ≤ 255 then
    .ok ⟨type, messageId, bizType, payload, .empty, compression, 0, h, reserved_zero⟩
  else
    .error (.illegalArgument s!"biz_type out of range: {bizType}")

/-- The same packet with another body and marker (Kotlin `Packet.withPayload`). -/
def withPayload (p : Packet) (newPayload : KBytes) (newCompression : Compression) : Packet :=
  { p with payload := newPayload, compression := newCompression }

end Packet

end MsgTrans
