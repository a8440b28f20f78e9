import MsgTrans.Connection.Packets
import MsgTrans.Core.Decoding

/-!
# What one side sends, the other side accepts

The checks a payload passes before it is queued against those of an equally configured peer: the
decoder's limits and the normalization to plaintext.
-/

namespace MsgTrans

/-- What the platform's codecs are assumed to do: decompress what they compressed, within the output
limit. -/
structure Codecs.RoundTrip (cs : Codecs) : Prop where
  zstd : ∀ (b : KBytes) (limit : Int), b.size ≤ limit →
    cs.zstd.decompress (cs.zstd.compress b) limit = .ok b
  zlib : ∀ (b : KBytes) (limit : Int), b.size ≤ limit →
    cs.zlib.decompress (cs.zlib.compress b) limit = .ok b

/-- Codecs that round trip do so through the markers, within the limit. -/
lemma Codecs.RoundTrip.decompress_compress {cs : Codecs} {b : KBytes} {c : Compression} {limit : Int}
    (codecs : cs.RoundTrip) (nonneg : 0 ≤ limit) (fits : c ≠ .none → b.size ≤ limit) :
    cs.decompress (cs.compress b c) c limit = .ok b := by
  unfold Codecs.decompress
  rw [if_neg (by omega)]
  cases c with
  | none => rfl
  | zstd => simp only [Codecs.compress, codecs.zstd b limit (fits (by decide)), Except.mapError]
  | zlib => simp only [Codecs.compress, codecs.zlib b limit (fits (by decide)), Except.mapError]

/-- Codecs that store round trip. -/
lemma Codecs.stored_roundTrip : Codecs.RoundTrip ⟨.stored, .stored⟩ := by
  have stored : ∀ (b : KBytes) (limit : Int), (b.size : Int) ≤ limit →
      Codec.stored.decompress (Codec.stored.compress b) limit = .ok b :=
    fun b limit le => if_pos le
  exact ⟨stored, stored⟩

namespace Conn

variable {env : Env} {payload encoded : KBytes} {compression : Compression} {p : Packet}

/-- A prepared payload is restored by the peer. -/
lemma decompressPacket_prepared (codecs : env.codecs.RoundTrip)
    (prepared : prepareOutboundPayload env payload compression = .ok encoded)
    (body : p.payload = encoded) (marker : p.compression = compression) :
    env.codecs.decompressPacket p env.config.maxDecompressedPayloadLength =
      .ok (p.withPayload payload .none) := by
  unfold prepareOutboundPayload at prepared
  split at prepared
  case isTrue => cases prepared
  case isFalse small =>
    cases prepared
    have back := codecs.decompress_compress (b := payload) env.config.decompressed_nonneg
      fun compressed => Int.not_lt.mp fun large => small ⟨compressed, large⟩
    unfold Codecs.decompressPacket
    split
    case isTrue none =>
      -- an uncompressed payload is passed on as it is
      obtain rfl : compression = .none := marker.symm.trans none
      have same : p.payload = payload := body
      simp [Packet.withPayload, ← same, ← none]
    case isFalse => rw [marker, body, back]

/-- The empty payload passes every check of a sender whose limits are not negative. -/
lemma outboundPacket_empty (payloads : 0 ≤ env.config.maxPayloadLength)
    (budget : 0 ≤ env.config.maxOutboundBytes) :
    ∃ p, outboundPacket env .oneWay 1 0 .empty .none = .ok p := by
  have none_ : ∀ limit : Int, 0 ≤ limit → ¬ (((0 : Nat) : Int) > limit) := by omega
  refine ⟨⟨.oneWay, 1, 0, .empty, .empty, .none, 0, by decide, Packet.reserved_zero⟩, ?_⟩
  unfold outboundPacket Packet.new
  rw [dif_pos (by decide)]
  dsimp only
  unfold checkOutboundSize packetBytes
  dsimp only
  rw [show KBytes.empty.size = 0 from rfl, if_neg (none_ _ payloads), if_neg (none_ _ budget)]

/-- Whatever one side agrees to send, an equally configured peer decodes and restores to the payload
that was given. With length prefixes this is so exactly if the largest frame is a `Long`, or if the
sender agrees to nothing because its byte budget is negative. -/
theorem peer_accepts (codecs : env.codecs.RoundTrip) (long : env.config.maxPayloadLength < 2 ^ 63) :
    (∀ (payload encoded : KBytes) (compression : Compression) (type : PacketType) (id : UInt32)
      (bizType : Int) (p : Packet), prepareOutboundPayload env payload compression = .ok encoded →
      outboundPacket env type id bizType encoded compression = .ok p → ∀ rest : List UInt8,
      env.framing.decode env.config.maxPayloadLength (env.framing.encode p ++ rest) =
        .ok (some p, rest) ∧
      ∃ q, env.codecs.decompressPacket p env.config.maxDecompressedPayloadLength = .ok q ∧
        q.type = type ∧ q.messageId = id ∧ q.bizType = bizType ∧ q.payload = payload ∧
        q.compression = .none) ↔
    (env.framing = .lengthPrefixed →
      env.config.maxPayloadLength + 65551 < 2 ^ 63 ∨ env.config.maxOutboundBytes < 0) := by
  constructor
  · intro accepts prefixed
    by_contra outside
    obtain ⟨large, budget⟩ := not_or.mp outside
    -- the empty payload is sent, and the frame limit of the peer is negative
    obtain ⟨p, sent⟩ := outboundPacket_empty (by omega) (Int.not_lt.mp budget)
    have prepared : prepareOutboundPayload env .empty .none = .ok .empty := rfl
    have decoded := (accepts .empty .empty .none .oneWay 1 0 p prepared sent []).1
    obtain ⟨_, _, frame⟩ := (Framing.decode_some_iff.mp decoded).1
    have negative := Framing.maxFrameLength_neg long (Int.not_lt.mp large)
    have within := frame prefixed
    omega
  · intro range payload encoded compression type id bizType p prepared checked rest
    obtain ⟨⟨rfl, rfl, rfl, body, marker, ext⟩, fits, budget⟩ := outboundPacket_ok checked
    have short : p.extHeader.size ≤ 0xFFFF := by rw [ext]; decide
    have room : env.framing = .lengthPrefixed → env.config.maxPayloadLength + 65551 < 2 ^ 63 := by
      intro prefixed
      refine (range prefixed).resolve_right fun negative => ?_
      rw [packetBytes] at budget
      omega
    refine ⟨Framing.decode_some_iff.mpr ⟨Framing.admits_of_fits short fits room, rfl⟩, ?_⟩
    exact ⟨p.withPayload payload .none, decompressPacket_prepared codecs prepared body marker,
      rfl, rfl, rfl, rfl, rfl⟩

/-- A compressed payload of one byte over length prefixes, with the default limits. -/
theorem peer_accepts_one : ∃ (env : Env) (p : Packet), env.codecs.RoundTrip ∧
    env.config.maxPayloadLength + 65551 < 2 ^ 63 ∧ env.framing = .lengthPrefixed ∧
    prepareOutboundPayload env .one .zstd = .ok .one ∧
    outboundPacket env .request 1 0 .one .zstd = .ok p ∧
    env.framing.decode env.config.maxPayloadLength (env.framing.encode p ++ []) =
      .ok (some p, []) := by
  let env : Env := ⟨{}, .lengthPrefixed, ⟨.stored, .stored⟩⟩
  have range : env.config.maxPayloadLength + 65551 < 2 ^ 63 := by decide
  have prepared : prepareOutboundPayload env .one .zstd = .ok .one := rfl
  have checked : outboundPacket env .request 1 0 .one .zstd = .ok _ := rfl
  have codecs : env.codecs.RoundTrip := Codecs.stored_roundTrip
  have accepts := (peer_accepts codecs (by decide)).mpr fun _ => .inl range
  exact ⟨env, _, codecs, range, rfl, prepared, checked,
    (accepts _ _ _ _ _ _ _ prepared checked []).1⟩

/-- With length prefixes and a payload limit of `Long.MAX_VALUE` on both ends, the peer refuses a
packet that passed every check. -/
theorem peer_refuses : ∃ (env : Env) (p : Packet), env.codecs.RoundTrip ∧
    prepareOutboundPayload env .one .none = .ok .one ∧
    outboundPacket env .request 1 0 .one .none = .ok p ∧
    ∃ e, env.framing.decode env.config.maxPayloadLength (env.framing.encode p) = .error e := by
  let env : Env := ⟨{ maxPayloadLength := 2 ^ 63 - 1 }, .lengthPrefixed, ⟨.stored, .stored⟩⟩
  have prepared : prepareOutboundPayload env .one .none = .ok .one := rfl
  have checked : outboundPacket env .request 1 0 .one .none = .ok _ := rfl
  exact ⟨env, _, Codecs.stored_roundTrip, prepared, checked, _, rfl⟩

end Conn

end MsgTrans
