import MsgTrans.Core.Packet

/-!
# Payload compression

Model of `PayloadCompression` (`msgtrans/core/PayloadCompression.kt`): the choice of the codec and
the packet-level transforms. The zstd and zlib codecs themselves are parameters here (`Codecs`);
their streaming loops are outside this module.
-/

namespace MsgTrans

/-- One compression codec (Kotlin `ZstdCodec`, `ZlibCodec`); `decompress` is given the output
limit and may raise a `CompressionException`, which is a `ProtocolException`. -/
structure Codec where
  compress : KBytes → KBytes
  decompress : KBytes → Int → Except String KBytes

/-- The codec that stores its input, for runs on small inputs. -/
def Codec.stored : Codec where
  compress := id
  decompress b limit := if (b.size : Int) ≤ limit then .ok b else .error "output limit exceeded"

/-- The two codecs of the platform. -/
structure Codecs where
  zstd : Codec
  zlib : Codec

namespace Codecs

/-- Kotlin `PayloadCompression.compress(payload, compression)`. -/
def compress (cs : Codecs) (payload : KBytes) : Compression → KBytes
  | .none => payload
  | .zstd => cs.zstd.compress payload
  | .zlib => cs.zlib.compress payload

/-- Kotlin `PayloadCompression.decompress(payload, compression, maxOutputSize)`. -/
def decompress (cs : Codecs) (payload : KBytes) (compression : Compression) (maxOutputSize : Int) :
    Except Throwable KBytes :=
  if maxOutputSize < 0 then .error (.illegalArgument "maxOutputSize must not be negative")
  else match compression with
    | .none => .ok payload
    | .zstd => (cs.zstd.decompress payload maxOutputSize).mapError .protocol
    | .zlib => (cs.zlib.decompress payload maxOutputSize).mapError .protocol

/-- Normalize an inbound packet to plaintext (Kotlin `PayloadCompression.decompress(packet)`). -/
def decompressPacket (cs : Codecs) (packet : Packet) (maxOutputSize : Int) :
    Except Throwable Packet :=
  if packet.compression = .none then .ok packet
  else match cs.decompress packet.payload packet.compression maxOutputSize with
    | .ok payload => .ok (packet.withPayload payload .none)
    | .error e => .error e

end Codecs

end MsgTrans
