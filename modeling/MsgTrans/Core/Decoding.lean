import MsgTrans.Core.PacketCodec
import MsgTrans.Lib.Incremental

/-!
# Decoding

What the two decoders accept is exactly what the encoders write, for the packets whose lengths fit
their fields and the limits (`Framing.decode_some_iff`). From it follow the round trip, and that
decoding does not depend on how the bytes arrive.
-/

namespace MsgTrans

open BigEndian

/-- The codes of the compressions are read back, and no others. -/
lemma Compression.fromCode_eq_ok {n : Nat} {c : Compression} : fromCode n = .ok c ↔ n = c.code := by
  constructor
  · intro read
    unfold fromCode at read
    split at read <;> cases read <;> rfl
  · rintro rfl
    cases c <;> rfl

/-- An unknown compression code is a protocol error. -/
lemma Compression.fromCode_error {n : Nat} {e : Throwable} (read : fromCode n = .error e) :
    ∃ m, e = .protocol m := by
  unfold fromCode at read
  split at read <;> cases read
  exact ⟨_, rfl⟩

/-- The codes of the packet types are read back, and no others. -/
lemma PacketType.fromCode_eq_ok {n : Nat} {t : PacketType} : fromCode n = .ok t ↔ n = t.code := by
  constructor
  · intro read
    unfold fromCode at read
    split at read <;> cases read <;> rfl
  · rintro rfl
    cases t <;> rfl

/-- An unknown packet type is a protocol error. -/
lemma PacketType.fromCode_error {n : Nat} {e : Throwable} (read : fromCode n = .error e) :
    ∃ m, e = .protocol m := by
  unfold fromCode at read
  split at read <;> cases read
  exact ⟨_, rfl⟩

/-! ## Reading an array -/

/-- Bytes that were written are read back. -/
lemma readBytes_append (b : KBytes) (rest : List UInt8) :
    readBytes b.size (b.data ++ rest) = .ok (b, rest) := by
  have small : b.data.length < 2 ^ 31 := b.size_lt
  simp only [readBytes, KBytes.size, List.take_left, List.drop_left]
  rw [dif_pos small]

/-- What was read stands at the front of the buffer. -/
lemma readBytes_ok {n : Nat} {buf rest : List UInt8} {b : KBytes}
    (read : readBytes n buf = .ok (b, rest)) (le : n ≤ buf.length) :
    b.size = n ∧ buf = b.data ++ rest := by
  unfold readBytes at read
  split at read <;> cases read
  exact ⟨by simp [KBytes.size, le], (List.take_append_drop n buf).symm⟩

/-- Whether an array can be read depends on its length alone. -/
lemma readBytes_error {n : Nat} {buf : List UInt8} {e : Throwable} (read : readBytes n buf = .error e) :
    2 ^ 31 ≤ n ∧ ∀ buf', readBytes n buf' = .error e := by
  unfold readBytes at read
  split at read <;> cases read
  case isFalse large => exact ⟨by omega, fun buf' => by rw [readBytes, dif_neg large]⟩

namespace PacketCodec

variable {max : Int} {buf rest : List UInt8} {p : Packet} {h : Header} {e : Throwable}

/-- The fixed header has sixteen bytes. -/
lemma length_header (p : Packet) : (header p).length = Packet.FIXED_HEADER_SIZE := by
  simp [header, Packet.FIXED_HEADER_SIZE]

/-- The length of an encoded packet. -/
lemma length_encode (p : Packet) :
    (encode p).length = Packet.FIXED_HEADER_SIZE + p.extHeader.size + p.payload.size := by
  simp [encode, length_header, KBytes.size]
  omega

/-! ## The fixed header -/

/-- The bytes of a header. -/
def Header.bytes (h : Header) : List UInt8 :=
  put 1 Packet.PROTOCOL_VERSION ++
  (put 1 h.compression.code ++
  (put 1 h.type.code ++
  (put 1 h.bizType ++
  (put 4 h.messageId.toNat ++
  (put 2 h.extHeaderLen ++
  (put 4 h.payloadLen ++
  put 2 h.reserved))))))

/-- The length of the ext header stands at offset 8. -/
lemma Header.get_ext (h : Header) (rest : List UInt8) : get 8 2 (h.bytes ++ rest) = h.extHeaderLen := by
  have := h.extHeaderLen_le
  simp [Header.bytes, get_put_skip, get_put]
  omega

/-- The length of the payload stands at offset 10. -/
lemma Header.get_payload (h : Header) (rest : List UInt8) :
    get 10 4 (h.bytes ++ rest) = h.payloadLen := by
  have := h.payloadLen_le
  simp [Header.bytes, get_put_skip, get_put]
  omega

/-- A header is read back from its bytes. -/
lemma readHeader_bytes (h : Header) (rest : List UInt8) (fits : (h.payloadLen : Int) ≤ max) :
    readHeader max (h.bytes ++ rest) = .ok h := by
  have version : get 0 1 (h.bytes ++ rest) = Packet.PROTOCOL_VERSION := by
    simp [Header.bytes, get_put, Packet.PROTOCOL_VERSION]
  have compression : Compression.fromCode (get 1 1 (h.bytes ++ rest)) = .ok h.compression := by
    have small : h.compression.code < 256 := by cases h.compression <;> decide
    simp [Header.bytes, get_put_skip, get_put, Compression.fromCode_eq_ok, small]
  have type : PacketType.fromCode (get 2 1 (h.bytes ++ rest)) = .ok h.type := by
    have small : h.type.code < 256 := by cases h.type <;> decide
    simp [Header.bytes, get_put_skip, get_put, PacketType.fromCode_eq_ok, small]
  have bizType : get 3 1 (h.bytes ++ rest) = h.bizType := by
    have := h.bizType_le
    simp [Header.bytes, get_put_skip, get_put]
    omega
  have messageId : get 4 4 (h.bytes ++ rest) = h.messageId.toNat := by
    have := h.messageId.toNat_lt
    simp [Header.bytes, get_put_skip, get_put]
  have reserved : get 14 2 (h.bytes ++ rest) = h.reserved := by
    have := h.reserved_le
    simp [Header.bytes, get_put_skip, get_put]
    omega
  have small : ¬ (h.payloadLen : Int) > max := by omega
  simp [readHeader, version, compression, type, bizType, messageId, reserved, h.get_ext, h.get_payload,
    small]

/-- The first 16 bytes, field by field. -/
lemma take_header (long : Packet.FIXED_HEADER_SIZE ≤ buf.length) :
    buf.take Packet.FIXED_HEADER_SIZE = put 1 (get 0 1 buf) ++ (put 1 (get 1 1 buf) ++
      (put 1 (get 2 1 buf) ++ (put 1 (get 3 1 buf) ++ (put 4 (get 4 4 buf) ++ (put 2 (get 8 2 buf) ++
      (put 4 (get 10 4 buf) ++ put 2 (get 14 2 buf))))))) := by
  have long : 16 ≤ buf.length := long
  have widths : Packet.FIXED_HEADER_SIZE = 1 + (1 + (1 + (1 + (4 + (2 + (4 + 2)))))) := rfl
  simp (disch := omega) only [put_get, widths, List.take_add, List.drop_drop, List.drop_zero]

/-- A header that is read has its bytes in front. -/
lemma readHeader_ok (read : readHeader max buf = .ok h)
    (long : Packet.FIXED_HEADER_SIZE ≤ buf.length) :
    (h.payloadLen : Int) ≤ max ∧ buf.take Packet.FIXED_HEADER_SIZE = h.bytes := by
  unfold readHeader at read
  dsimp only at read
  split at read
  case isTrue => cases read
  case isFalse version =>
    split at read
    case h_1 => cases read
    case h_2 => cases read
    case h_3 compression type coded typed =>
      split at read
      case isTrue => cases read
      case isFalse small =>
        cases read
        have id : (UInt32.ofNat (get 4 4 buf)).toNat = get 4 4 buf :=
          UInt32.toNat_ofNat_of_lt' (get_lt 4 4 buf)
        refine ⟨Int.not_lt.mp small, ?_⟩
        rw [take_header long, not_not.mp version, Compression.fromCode_eq_ok.mp coded,
          PacketType.fromCode_eq_ok.mp typed]
        simp only [Header.bytes, id]

/-- The header of a buffer that has one does not depend on what follows. -/
lemma readHeader_append (long : Packet.FIXED_HEADER_SIZE ≤ buf.length) (later : List UInt8) :
    readHeader max (buf ++ later) = readHeader max buf := by
  have long : 16 ≤ buf.length := long
  simp (disch := omega) only [readHeader, get_append_right]

/-- A bad header is a protocol error. -/
lemma readHeader_error (read : readHeader max buf = .error e) : ∃ m, e = .protocol m := by
  unfold readHeader at read
  dsimp only at read
  split at read
  case isTrue => cases read; exact ⟨_, rfl⟩
  case isFalse =>
    split at read
    case h_1 coded => cases read; exact Compression.fromCode_error coded
    case h_2 typed => cases read; exact PacketType.fromCode_error typed
    case h_3 =>
      split at read
      case isTrue => cases read; exact ⟨_, rfl⟩
      case isFalse => cases read

/-! ## The body -/

/-- The header a packet announces. -/
def announced (p : Packet) (ext : p.extHeader.size ≤ 0xFFFF) : Header where
  compression := p.compression
  type := p.type
  bizType := p.bizType.toNat
  messageId := p.messageId
  extHeaderLen := p.extHeader.size
  payloadLen := p.payload.size
  reserved := p.reserved.toNat
  bizType_le := by have := p.bizType_range; omega
  extHeaderLen_le := ext
  payloadLen_le := by have : p.payload.size < 2 ^ 31 := p.payload.size_lt; omega
  reserved_le := by have := p.reserved_range; omega

/-- The body that a header announces is read back. -/
lemma readBody_announced (p : Packet) (ext : p.extHeader.size ≤ 0xFFFF) (rest : List UInt8) :
    readBody (announced p ext) (p.extHeader.data ++ (p.payload.data ++ rest)) = .ok (p, rest) := by
  have bizType := Int.toNat_of_nonneg p.bizType_range.1
  have reserved := Int.toNat_of_nonneg p.reserved_range.1
  simp only [readBody, announced, readBytes_append, bizType, reserved]

/-- The packet that is read announces the header, and its body is in front. -/
lemma readBody_ok (read : readBody h buf = .ok (p, rest))
    (long : h.extHeaderLen + h.payloadLen ≤ buf.length) :
    (∃ ext, announced p ext = h) ∧ buf = p.extHeader.data ++ (p.payload.data ++ rest) := by
  unfold readBody at read
  split at read
  case h_1 => cases read
  case h_2 extHeader buf' ext =>
    split at read
    case h_1 => cases read
    case h_2 payload rest' body =>
      cases read
      obtain ⟨extSize, rfl⟩ := readBytes_ok ext (by omega)
      rw [List.length_append, ← extSize, KBytes.size] at long
      obtain ⟨payloadSize, rfl⟩ := readBytes_ok body (by omega)
      refine ⟨⟨by rw [extSize]; exact h.extHeaderLen_le, ?_⟩, rfl⟩
      simp only [announced, extSize, payloadSize, Int.toNat_natCast]

/-- Whether the body can be read depends on its lengths alone. -/
lemma readBody_error (read : readBody h buf = .error e) :
    2 ^ 31 ≤ h.extHeaderLen + h.payloadLen ∧ ∀ buf', readBody h buf' = .error e := by
  unfold readBody at read
  split at read
  case h_1 ext =>
    cases read
    obtain ⟨large, same⟩ := readBytes_error ext
    exact ⟨by omega, fun buf' => by simp only [readBody, same]⟩
  case h_2 ext =>
    split at read
    case h_2 => cases read
    case h_1 body =>
      cases read
      obtain ⟨large, same⟩ := readBytes_error body
      refine ⟨by omega, fun buf' => ?_⟩
      unfold readBody
      split
      case h_1 ext' => rw [(readBytes_error ext').2] at ext; cases ext
      case h_2 => simp only [same]

/-! ## Packets -/

/-- `header` writes the announced header. -/
lemma header_eq (ext : p.extHeader.size ≤ 0xFFFF) : header p = (announced p ext).bytes := rfl

/-- Both lengths are read from an encoded packet before it is decoded. -/
lemma get_encode (ext : p.extHeader.size ≤ 0xFFFF) (rest : List UInt8) :
    get 8 2 (encode p ++ rest) = p.extHeader.size ∧ get 10 4 (encode p ++ rest) = p.payload.size := by
  rw [encode, header_eq ext, List.append_assoc]
  exact ⟨Header.get_ext _ _, Header.get_payload _ _⟩

/-- An encoded packet is decoded, whatever follows it. -/
lemma decode_encode (ext : p.extHeader.size ≤ 0xFFFF) (fits : (p.payload.size : Int) ≤ max) :
    decode max (encode p ++ rest) = .ok (some p, rest) := by
  have long := length_encode p
  have read : readHeader max (encode p ++ rest) = .ok (announced p ext) := by
    rw [encode, header_eq ext, List.append_assoc]
    exact readHeader_bytes _ _ fits
  have body : (encode p ++ rest).drop Packet.FIXED_HEADER_SIZE =
      p.extHeader.data ++ (p.payload.data ++ rest) := by
    rw [encode, List.append_assoc, List.drop_left' (length_header p), List.append_assoc]
  have full : ¬ (encode p ++ rest).length <
      Packet.FIXED_HEADER_SIZE + (announced p ext).extHeaderLen + (announced p ext).payloadLen := by
    rw [List.length_append, long]
    simp only [announced]
    omega
  rw [decode, if_neg (by rw [List.length_append]; omega), read]
  dsimp only
  rw [if_neg full, body, readBody_announced]

/-- The decoder takes a packet exactly when its encoding is in front and it keeps to the limits. -/
lemma decode_some_iff : decode max buf = .ok (some p, rest) ↔
    p.extHeader.size ≤ 0xFFFF ∧ (p.payload.size : Int) ≤ max ∧ buf = encode p ++ rest := by
  constructor
  case mpr =>
    rintro ⟨ext, fits, rfl⟩
    exact decode_encode ext fits
  case mp =>
    intro decoded
    unfold decode at decoded
    split at decoded
    case isTrue => cases decoded
    case isFalse long =>
      rw [Nat.not_lt] at long
      split at decoded
      case h_1 => cases decoded
      case h_2 h read =>
        split at decoded
        case isTrue => cases decoded
        case isFalse full =>
          split at decoded
          case h_1 => cases decoded
          case h_2 packet rest' body =>
            cases decoded
            obtain ⟨fits, front⟩ := readHeader_ok read long
            obtain ⟨⟨ext, rfl⟩, back⟩ := readBody_ok body (by rw [List.length_drop]; omega)
            refine ⟨ext, fits, ?_⟩
            rw [encode, header_eq ext, ← front, List.append_assoc, List.append_assoc, ← back,
              List.take_append_drop]

/-- The decoder asks for more when the header or the packet it announces is not there, and leaves the
buffer alone. -/
lemma decode_none (decoded : decode max buf = .ok (none, rest)) : rest = buf ∧
    (buf.length < Packet.FIXED_HEADER_SIZE ∨
      buf.length < Packet.FIXED_HEADER_SIZE + get 8 2 buf + get 10 4 buf) := by
  unfold decode at decoded
  split at decoded
  case isTrue short =>
    cases decoded
    exact ⟨rfl, .inl short⟩
  case isFalse long =>
    rw [Nat.not_lt] at long
    split at decoded
    case h_1 => cases decoded
    case h_2 h read =>
      split at decoded
      case isFalse => split at decoded <;> cases decoded
      case isTrue short =>
        cases decoded
        have front := (readHeader_ok read long).2
        refine ⟨rfl, .inr ?_⟩
        rw [← List.take_append_drop Packet.FIXED_HEADER_SIZE buf, front, Header.get_ext,
          Header.get_payload, ← front, List.take_append_drop]
        exact short

/-- A failure does not depend on what follows, and is a `ProtocolException` if the buffer is one that
can exist. -/
lemma decode_error (decoded : decode max buf = .error e) :
    (∀ later, decode max (buf ++ later) = .error e) ∧ (buf.length < 2 ^ 31 → ∃ m, e = .protocol m) := by
  unfold decode at decoded
  split at decoded
  case isTrue => cases decoded
  case isFalse long =>
    rw [Nat.not_lt] at long
    have longer : ∀ later, ¬ (buf ++ later).length < Packet.FIXED_HEADER_SIZE := by
      intro later
      rw [List.length_append]
      omega
    split at decoded
    case h_1 read =>
      cases decoded
      refine ⟨fun later => ?_, fun _ => readHeader_error read⟩
      rw [decode, if_neg (longer later), readHeader_append long, read]
    case h_2 h read =>
      split at decoded
      case isTrue => cases decoded
      case isFalse full =>
        split at decoded
        case h_2 => cases decoded
        case h_1 body =>
          cases decoded
          obtain ⟨large, same⟩ := readBody_error body
          refine ⟨fun later => ?_, fun small => by omega⟩
          rw [decode, if_neg (longer later), readHeader_append long, read]
          dsimp only
          rw [if_neg (by rw [List.length_append]; omega), same]

end PacketCodec

namespace LengthPrefixedPacketCodec

variable {max : Int} {buf rest : List UInt8} {p : Packet} {e : Throwable}

/-- The length of the frame stands in front of it. -/
lemma get_frameLength (ext : p.extHeader.size ≤ 0xFFFF) : get 0 PREFIX (encode p ++ rest) =
    Packet.FIXED_HEADER_SIZE + p.extHeader.size + p.payload.size := by
  have small : p.payload.size < 2 ^ 31 := p.payload.size_lt
  rw [encode, List.append_assoc, PREFIX, get_put]
  simp only [Packet.FIXED_HEADER_SIZE]
  omega

/-- Behind the prefix stands the packet. -/
lemma drop_prefix : (encode p ++ rest).drop PREFIX = PacketCodec.encode p ++ rest := by
  rw [encode, List.append_assoc]
  exact List.drop_left' (length_put 4 _)

/-- A framed packet is decoded, whatever follows it. -/
lemma decode_encode (ext : p.extHeader.size ≤ 0xFFFF) (fits : (p.payload.size : Int) ≤ max)
    (frame : ((Packet.FIXED_HEADER_SIZE + p.extHeader.size + p.payload.size : Nat) : Int) ≤
      maxFrameLength max) : decode max (encode p ++ rest) = .ok (some p, rest) := by
  have long : (encode p ++ rest).length = PREFIX +
      (Packet.FIXED_HEADER_SIZE + p.extHeader.size + p.payload.size) + rest.length := by
    rw [List.length_append, encode, List.length_append, length_put, PacketCodec.length_encode]
    rfl
  have lengths : get (PREFIX + 8) 2 (encode p ++ rest) = p.extHeader.size ∧
      get (PREFIX + 10) 4 (encode p ++ rest) = p.payload.size := by
    rw [← get_drop, ← get_drop, drop_prefix]
    exact PacketCodec.get_encode ext rest
  have announced : get 0 4 (encode p ++ rest) = _ := get_frameLength ext
  unfold decode
  rw [if_neg (by omega)]
  simp only [announced, lengths]
  rw [if_neg (by omega), if_neg (by omega), if_neg (by omega), if_neg (by omega), drop_prefix,
    PacketCodec.decode_encode ext fits]

/-- The decoder takes a packet exactly when its frame is in front and it keeps to the limits. -/
lemma decode_some_iff : decode max buf = .ok (some p, rest) ↔
    p.extHeader.size ≤ 0xFFFF ∧ (p.payload.size : Int) ≤ max ∧
      ((Packet.FIXED_HEADER_SIZE + p.extHeader.size + p.payload.size : Nat) : Int) ≤
        maxFrameLength max ∧ buf = encode p ++ rest := by
  constructor
  case mpr =>
    rintro ⟨ext, fits, frame, rfl⟩
    exact decode_encode ext fits frame
  case mp =>
    intro decoded
    unfold decode at decoded
    split at decoded
    case isTrue => cases decoded
    case isFalse long =>
      rw [Nat.not_lt] at long
      dsimp only at decoded
      split at decoded
      case isTrue => cases decoded
      case isFalse frame =>
        split at decoded
        case isTrue => cases decoded
        case isFalse full =>
          split at decoded
          case isTrue => cases decoded
          case isFalse =>
            split at decoded
            case isTrue => cases decoded
            case isFalse exact_ =>
              split at decoded
              case h_1 => cases decoded
              case h_2 =>
                obtain ⟨ext, fits, back⟩ := PacketCodec.decode_some_iff.mp decoded
                have lengths := PacketCodec.get_encode ext rest
                rw [← back, get_drop, get_drop] at lengths
                rw [not_not, lengths.1, lengths.2] at exact_
                have front : put 4 (get 0 4 buf) = buf.take 4 := put_get long
                refine ⟨ext, fits, by rw [exact_]; exact Int.not_lt.mp frame, ?_⟩
                rw [encode, exact_, front, List.append_assoc, ← back]
                exact (List.take_append_drop 4 buf).symm

/-- A decoder that waits for more takes nothing from the buffer. -/
lemma decode_none (decoded : decode max buf = .ok (none, rest)) : rest = buf := by
  unfold decode at decoded
  split at decoded
  case isTrue => cases decoded; rfl
  case isFalse =>
    dsimp only at decoded
    split at decoded
    case isTrue => cases decoded
    case isFalse =>
      split at decoded
      case isTrue => cases decoded; rfl
      case isFalse =>
        split at decoded
        case isTrue => cases decoded
        case isFalse =>
          split at decoded
          case isTrue => cases decoded
          case isFalse =>
            split at decoded
            case h_1 => cases decoded
            case h_2 some => exact absurd decoded (some rest)

/-- Later bytes do not change an error, and with an `Int` length it is a protocol error. -/
lemma decode_error (decoded : decode max buf = .error e) :
    (∀ later, decode max (buf ++ later) = .error e) ∧ (buf.length < 2 ^ 31 → ∃ m, e = .protocol m) := by
  unfold decode at decoded
  split at decoded
  case isTrue => cases decoded
  case isFalse long =>
    have long : 4 ≤ buf.length := Nat.not_lt.mp long
    have announced : ∀ later, get 0 4 (buf ++ later) = get 0 4 buf :=
      fun later => get_append_right later long
    have longer : ∀ later, ¬ (buf ++ later).length < PREFIX := by
      intro later
      rw [List.length_append, PREFIX]
      omega
    dsimp only at decoded
    split at decoded
    case isTrue large =>
      cases decoded
      refine ⟨fun later => ?_, fun _ => ⟨_, rfl⟩⟩
      simp only [decode, longer, announced, large, if_true, if_false]
    case isFalse frame =>
      split at decoded
      case isTrue => cases decoded
      case isFalse full =>
        have fuller : ∀ later, ¬ (buf ++ later).length - PREFIX < get 0 4 buf := by
          intro later
          rw [List.length_append]
          omega
        split at decoded
        case isTrue short =>
          cases decoded
          refine ⟨fun later => ?_, fun _ => ⟨_, rfl⟩⟩
          simp only [decode, longer, announced, frame, fuller, short, if_true, if_false]
        case isFalse hasHeader =>
          have room : PREFIX + 16 ≤ buf.length := by
            simp only [PREFIX, Packet.FIXED_HEADER_SIZE] at full hasHeader ⊢
            omega
          have ext : ∀ later, get (PREFIX + 8) 2 (buf ++ later) = get (PREFIX + 8) 2 buf :=
            fun later => get_append_right later (by omega)
          have payload : ∀ later, get (PREFIX + 10) 4 (buf ++ later) = get (PREFIX + 10) 4 buf :=
            fun later => get_append_right later (by omega)
          split at decoded
          case isTrue other =>
            cases decoded
            refine ⟨fun later => ?_, fun _ => ⟨_, rfl⟩⟩
            simp only [decode, longer, announced, frame, fuller, hasHeader, ext, payload, if_false]
            rw [if_pos other]
          case isFalse filled =>
            split at decoded
            case h_1 none =>
              -- a complete frame holds a complete packet
              exfalso
              have short := (PacketCodec.decode_none none).2
              rw [get_drop, get_drop, List.length_drop] at short
              simp only [PREFIX, Packet.FIXED_HEADER_SIZE] at *
              omega
            case h_2 =>
              obtain ⟨same, protocol⟩ := PacketCodec.decode_error decoded
              refine ⟨fun later => ?_, fun small => protocol ?_⟩
              · simp only [decode, longer, announced, frame, fuller, hasHeader, ext, payload, filled,
                  if_false]
                rw [List.drop_append_of_le_length (Nat.le_trans (Nat.le_add_right _ _) room), same]
              · rw [List.length_drop]
                omega

end LengthPrefixedPacketCodec

namespace Framing

variable {f : Framing} {max : Int} {buf rest : List UInt8} {p : Packet} {e : Throwable}

/-- What the decoder of a framing requires of a packet: its lengths fit their fields and the limits. -/
def Admits (f : Framing) (max : Int) (p : Packet) : Prop :=
  p.extHeader.size ≤ 0xFFFF ∧ (p.payload.size : Int) ≤ max ∧ (f = .lengthPrefixed →
    ((Packet.FIXED_HEADER_SIZE + p.extHeader.size + p.payload.size : Nat) : Int) ≤
      LengthPrefixedPacketCodec.maxFrameLength max)

/-- The decoder takes a packet exactly when it admits it and its encoding is in front. -/
lemma decode_some_iff :
    f.decode max buf = .ok (some p, rest) ↔ f.Admits max p ∧ buf = f.encode p ++ rest := by
  cases f with
  | packets =>
    rw [decode, PacketCodec.decode_some_iff]
    simp [Admits, encode, and_assoc]
  | lengthPrefixed =>
    rw [decode, LengthPrefixedPacketCodec.decode_some_iff]
    simp [Admits, encode, and_assoc]

/-- A decoder that waits for more takes nothing from the buffer. -/
lemma decode_none (decoded : f.decode max buf = .ok (none, rest)) : rest = buf := by
  cases f with
  | packets => exact (PacketCodec.decode_none decoded).1
  | lengthPrefixed => exact LengthPrefixedPacketCodec.decode_none decoded

/-- Later bytes do not change an error, and with an `Int` length it is a protocol error. -/
lemma decode_error (decoded : f.decode max buf = .error e) :
    (∀ later, f.decode max (buf ++ later) = .error e) ∧
      (buf.length < 2 ^ 31 → ∃ m, e = .protocol m) := by
  cases f with
  | packets => exact PacketCodec.decode_error decoded
  | lengthPrefixed => exact LengthPrefixedPacketCodec.decode_error decoded

/-- The longest frame, for a payload limit that leaves room for it below `Long.MAX_VALUE`. -/
lemma maxFrameLength_eq {max : Int} (nonneg : 0 ≤ max) (small : max + 65551 < 2 ^ 63) :
    LengthPrefixedPacketCodec.maxFrameLength max = 65551 + max := by
  have eq : ((Packet.FIXED_HEADER_SIZE : Int) + 0xFFFF + max) = 65551 + max := by
    simp [Packet.FIXED_HEADER_SIZE]
  rw [LengthPrefixedPacketCodec.maxFrameLength, LengthPrefixedPacketCodec.toLong, eq, Int.bmod_def]
  split <;> omega

/-- A packet within the payload limit is admitted if its ext header fits its length field and, with
length prefixes, the largest frame is a `Long`. -/
lemma admits_of_fits (ext : p.extHeader.size ≤ 0xFFFF) (fits : (p.payload.size : Int) ≤ max)
    (range : f = .lengthPrefixed → max + 65551 < 2 ^ 63) : f.Admits max p := by
  refine ⟨ext, fits, fun prefixed => ?_⟩
  rw [maxFrameLength_eq (by omega) (range prefixed), Packet.FIXED_HEADER_SIZE]
  omega

/-- Of a `Long` limit that leaves less room the sum overflows: the longest frame is negative. -/
lemma maxFrameLength_neg {max : Int} (long : max < 2 ^ 63) (large : 2 ^ 63 ≤ max + 65551) :
    LengthPrefixedPacketCodec.maxFrameLength max < 0 := by
  have eq : ((Packet.FIXED_HEADER_SIZE : Int) + 0xFFFF + max) = 65551 + max := by
    simp [Packet.FIXED_HEADER_SIZE]
  rw [LengthPrefixedPacketCodec.maxFrameLength, LengthPrefixedPacketCodec.toLong, eq, Int.bmod_def]
  split <;> omega

/-- The two conditions are needed, too. -/
lemma admits_iff (fits : (p.payload.size : Int) ≤ max) (long : max < 2 ^ 63) : f.Admits max p ↔
    p.extHeader.size ≤ 0xFFFF ∧ (f = .lengthPrefixed → max + 65551 < 2 ^ 63) := by
  refine ⟨fun admits => ⟨admits.1, fun prefixed => ?_⟩, fun cond => admits_of_fits cond.1 fits cond.2⟩
  by_contra large
  -- no frame is shorter than a negative limit
  have frame := admits.2.2 prefixed
  have negative := maxFrameLength_neg long (Int.not_lt.mp large)
  omega

/-- No encoding is the beginning of another one. -/
lemma encode_inj {q : Packet} {rest rest' : List UInt8} (ext : p.extHeader.size ≤ 0xFFFF)
    (ext' : q.extHeader.size ≤ 0xFFFF) (eq : f.encode p ++ rest = f.encode q ++ rest') :
    p = q ∧ rest = rest' := by
  have large : ∀ b : KBytes, (b.size : Int) ≤ 2 ^ 31 ∧ (2 ^ 31 : Int) + 65551 < 2 ^ 63 := by
    intro b
    have := b.size_lt
    rw [KBytes.size]
    omega
  have decoded : f.decode (2 ^ 31) (f.encode p ++ rest) = .ok (some p, rest) :=
    decode_some_iff.mpr ⟨admits_of_fits ext (large _).1 fun _ => (large .empty).2, rfl⟩
  have decoded' : f.decode (2 ^ 31) (f.encode q ++ rest') = .ok (some q, rest') :=
    decode_some_iff.mpr ⟨admits_of_fits ext' (large _).1 fun _ => (large .empty).2, rfl⟩
  rw [eq, decoded'] at decoded
  simp only [Except.ok.injEq, Prod.mk.injEq, Option.some.injEq] at decoded
  exact ⟨decoded.1.symm, decoded.2.symm⟩

/-- Decode undoes encode, whatever follows, exactly for a packet whose ext header fits its length field;
with length prefixes the payload limit, a `Long`, has to leave room for the largest frame. -/
theorem decode_undoes_encode (fits : (p.payload.size : Int) ≤ max) (long : max < 2 ^ 63)
    (rest : List UInt8) : f.decode max (f.encode p ++ rest) = .ok (some p, rest) ↔
      p.extHeader.size ≤ 0xFFFF ∧ (f = .lengthPrefixed → max + 65551 < 2 ^ 63) := by
  rw [decode_some_iff, and_iff_left rfl]
  exact admits_iff fits long

/-- A one-way packet with an ext header of two bytes. -/
def sample : Packet where
  type := .oneWay
  messageId := 1
  bizType := 255
  payload := .one
  extHeader := ⟨[1, 2], by decide⟩
  compression := .zlib
  reserved := 0xFFFF
  bizType_range := by decide
  reserved_range := by decide

/-- The sample survives with the default limit, and does not with a limit of `Long.MAX_VALUE`. -/
theorem decode_undoes_encode_sample :
    Framing.lengthPrefixed.decode PacketCodec.DEFAULT_MAX_PAYLOAD
      (Framing.lengthPrefixed.encode sample ++ [9]) = .ok (some sample, [9]) ∧
    Framing.lengthPrefixed.decode (2 ^ 63 - 1)
      (Framing.lengthPrefixed.encode sample ++ [9]) ≠ .ok (some sample, [9]) := by
  refine ⟨(decode_undoes_encode (by decide) (by decide) [9]).mpr ⟨by decide, fun _ => by decide⟩, ?_⟩
  intro decoded
  have range := ((decode_undoes_encode (by decide) (by decide) [9]).mp decoded).2 rfl
  exact absurd range (by decide)

/-- The constructor admits an ext header of 2^16 bytes, whose length does not fit its field; and with
length prefixes a payload limit of `Long.MAX_VALUE` makes the frame limit negative. -/
theorem decode_not_undoes_encode :
    (∃ p : Packet, p.payload.size = 0 ∧ ∀ f : Framing,
      f.decode PacketCodec.DEFAULT_MAX_PAYLOAD (f.encode p) ≠ .ok (some p, [])) ∧
    Framing.lengthPrefixed.decode (2 ^ 63 - 1) (Framing.lengthPrefixed.encode sample) ≠
      .ok (some sample, []) := by
  constructor
  · let p : Packet := { sample with
      payload := .empty
      extHeader := ⟨List.replicate (2 ^ 16) 0, by rw [List.length_replicate]; decide⟩ }
    refine ⟨p, rfl, fun f decoded => ?_⟩
    have ext : (List.replicate (2 ^ 16) (0 : UInt8)).length ≤ 0xFFFF := (decode_some_iff.mp decoded).1.1
    rw [List.length_replicate] at ext
    exact absurd ext (by decide)
  · intro decoded
    rw [← List.append_nil (encode _ _)] at decoded
    exact absurd ((decode_some_iff.mp decoded).1.2.2 rfl) (by decide)

/-- The decoder of a framing, as the read loop uses it. -/
def decoder (f : Framing) (max : Int) : Incremental UInt8 Packet Throwable where
  decode := f.decode max
  shrinks decoded := by
    obtain ⟨_, rfl⟩ := decode_some_iff.mp decoded
    cases f <;> simp only [encode, PacketCodec.length_encode, LengthPrefixedPacketCodec.encode,
      Packet.FIXED_HEADER_SIZE, List.length_append, length_put] <;> omega

/-- Bytes that arrive later change no decision. -/
lemma decoder_stable (f : Framing) (max : Int) : (f.decoder max).Stable where
  more decoded := decode_none decoded
  item decoded later := by
    obtain ⟨admits, rfl⟩ := decode_some_iff.mp decoded
    exact decode_some_iff.mpr ⟨admits, List.append_assoc _ _ _⟩
  failure decoded := (decode_error decoded).1

/-- Decoding does not depend on how the bytes arrive: the loop over any chunks ends as the loop over
all of them at once. Asking for more consumes nothing, a packet consumes exactly its frame, and a
sequence that a buffer can hold fails with a `ProtocolException`. -/
theorem feed_chunks (f : Framing) (max : Int) (chunks : List (List UInt8)) :
    (f.decoder max).feed chunks [] = (f.decoder max).feed [chunks.flatten] [] ∧
    (∀ buf rest, f.decode max buf = .ok (none, rest) → rest = buf) ∧
    (∀ buf p rest, f.decode max buf = .ok (some p, rest) → buf = f.encode p ++ rest) ∧
    (∀ ps e, (f.decoder max).feed chunks [] = (ps, .error e) → chunks.flatten.length < 2 ^ 31 →
      ∃ m, e = .protocol m) := by
  have idle : (f.decoder max).drain [] = ([], .ok []) := by
    apply Incremental.drain_more
    cases f <;> rfl
  have whole : ∀ chunks, (f.decoder max).feed chunks [] = (f.decoder max).drain chunks.flatten :=
    fun chunks => (decoder_stable f max).feed_eq_drain chunks idle
  refine ⟨?_, fun _ _ => decode_none, fun _ _ _ decoded => (decode_some_iff.mp decoded).2, ?_⟩
  · rw [whole, whole, List.flatten_singleton]
  · intro ps e failed small
    rw [whole] at failed
    obtain ⟨buf, short, decoded⟩ := Incremental.decode_of_drain_error failed
    exact (decode_error decoded).2 (Nat.lt_of_le_of_lt short small)

end Framing

end MsgTrans
