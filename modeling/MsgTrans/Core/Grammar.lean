import MsgTrans.Core.Decoding

/-!
# The wire grammar

What the two decoders refuse, what they wait for and what they take, as a partition of all buffers.
The second decoder agrees with the first on the body of a frame, and neither waits for more than one
maximal frame.

A buffer is a `KBytes`: neton-io counts readable bytes in an `Int`. The lengths are computed in `Int`
and `Long`; the bit vectors here are the values Kotlin computes.
-/

namespace MsgTrans

open BigEndian

/-- The first three codes are compressions. -/
lemma Compression.fromCode_of_le {n : Nat} (le : n ≤ 2) : ∃ c, fromCode n = .ok c := by
  match n, le with
  | 0, _ => exact ⟨_, rfl⟩
  | 1, _ => exact ⟨_, rfl⟩
  | 2, _ => exact ⟨_, rfl⟩

/-- A code above 2 is no compression. -/
lemma Compression.fromCode_of_lt {n : Nat} (lt : 2 < n) : ∃ m, fromCode n = .error (.protocol m) := by
  match n, lt with
  | n + 3, _ => exact ⟨_, rfl⟩

/-- The first three codes are packet types. -/
lemma PacketType.fromCode_of_le {n : Nat} (le : n ≤ 2) : ∃ t, fromCode n = .ok t := by
  match n, le with
  | 0, _ => exact ⟨_, rfl⟩
  | 1, _ => exact ⟨_, rfl⟩
  | 2, _ => exact ⟨_, rfl⟩

/-- A code above 2 is no packet type. -/
lemma PacketType.fromCode_of_lt {n : Nat} (lt : 2 < n) : ∃ m, fromCode n = .error (.protocol m) := by
  match n, lt with
  | n + 3, _ => exact ⟨_, rfl⟩

namespace PacketCodec

variable {max : Int} {buf rest : List UInt8} {p : Packet} {h : Header}

/-- The header is none of the wire format, or it claims a payload above the limit. -/
def Refuses (max : Int) (buf : List UInt8) : Prop :=
  get 0 1 buf ≠ Packet.PROTOCOL_VERSION ∨ 2 < get 1 1 buf ∨ 2 < get 2 1 buf ∨ max < get 10 4 buf

/-- The length of the packet that the header announces. -/
def announcedLength (buf : List UInt8) : Nat :=
  Packet.FIXED_HEADER_SIZE + get 8 2 buf + get 10 4 buf

/-- `buf.getU32(10).toLong() and 0xFFFFFFFFL`: the payload length as a `Long`. -/
def payloadLong (buf : List UInt8) : BitVec 64 :=
  (BitVec.ofNat 32 (get 10 4 buf)).setWidth 64 &&& 0xFFFFFFFF#64

/-- `Packet.FIXED_HEADER_SIZE + extHeaderLen + payloadLen`: an `Int` sum, then a `Long` sum. -/
def totalLong (buf : List UInt8) : BitVec 64 :=
  (BitVec.ofNat 32 Packet.FIXED_HEADER_SIZE + BitVec.ofNat 32 (get 8 2 buf)).signExtend 64 +
    payloadLong buf

/-- `payloadLen.toInt()`: the argument of `readBytes`. -/
def payloadInt (buf : List UInt8) : BitVec 32 := (payloadLong buf).setWidth 32

/-- The payload length as a `Long` is the number in the header. -/
lemma payloadLong_toNat (buf : List UInt8) : (payloadLong buf).toNat = get 10 4 buf := by
  have small : get 10 4 buf < 2 ^ 32 := get_lt 10 4 buf
  rw [payloadLong, BitVec.toNat_and]
  have mask : (0xFFFFFFFF#64).toNat = 2 ^ 32 - 1 := rfl
  rw [mask, Nat.and_two_pow_sub_one_eq_mod, BitVec.toNat_setWidth, BitVec.toNat_ofNat]
  omega

/-- The `Long`s and the `Int` are the exact lengths, the `Int` once the whole packet is buffered. -/
lemma lengths_exact (buf : List UInt8) : (payloadLong buf).toInt = get 10 4 buf ∧
    (totalLong buf).toInt = announcedLength buf ∧
    (announcedLength buf < 2 ^ 31 → (payloadInt buf).toInt = get 10 4 buf) := by
  have ext : get 8 2 buf < 2 ^ 16 := get_lt 8 2 buf
  have payload : get 10 4 buf < 2 ^ 32 := get_lt 10 4 buf
  have long := payloadLong_toNat buf
  have head : ((BitVec.ofNat 32 Packet.FIXED_HEADER_SIZE +
      BitVec.ofNat 32 (get 8 2 buf)).signExtend 64).toNat = 16 + get 8 2 buf := by
    have sum : (BitVec.ofNat 32 Packet.FIXED_HEADER_SIZE + BitVec.ofNat 32 (get 8 2 buf)).toNat =
        16 + get 8 2 buf := by
      simp only [BitVec.toNat_add, BitVec.toNat_ofNat, Packet.FIXED_HEADER_SIZE]
      omega
    rw [BitVec.signExtend_eq_setWidth_of_msb_false, BitVec.toNat_setWidth, sum]
    · omega
    · rw [BitVec.msb_eq_false_iff_two_mul_lt, sum]
      omega
  have total : (totalLong buf).toNat = announcedLength buf := by
    rw [totalLong, BitVec.toNat_add, head, long, announcedLength, Packet.FIXED_HEADER_SIZE]
    omega
  refine ⟨?_, ?_, fun small => ?_⟩
  · rw [BitVec.toInt_eq_toNat_of_lt (by omega), long]
  · rw [BitVec.toInt_eq_toNat_of_lt, total]
    rw [total, announcedLength, Packet.FIXED_HEADER_SIZE]
    omega
  · rw [announcedLength] at small
    have narrow : (payloadInt buf).toNat = get 10 4 buf := by
      rw [payloadInt, BitVec.toNat_setWidth, long]
      omega
    rw [BitVec.toInt_eq_toNat_of_lt (by omega), narrow]

/-! ## The partition -/

/-- A refused header is a protocol error. -/
lemma readHeader_refused (refused : Refuses max buf) :
    ∃ m, readHeader max buf = .error (.protocol m) := by
  unfold readHeader
  dsimp only
  split
  case isTrue => exact ⟨_, rfl⟩
  case isFalse version =>
    split
    case h_1 e read =>
      obtain ⟨m, rfl⟩ := Compression.fromCode_error read
      exact ⟨m, rfl⟩
    case h_2 e read =>
      obtain ⟨m, rfl⟩ := PacketType.fromCode_error read
      exact ⟨m, rfl⟩
    case h_3 c t compression type =>
      split
      case isTrue => exact ⟨_, rfl⟩
      case isFalse fits =>
        exfalso
        rcases refused with other | code | code | large
        · exact version other
        · obtain ⟨m, read⟩ := Compression.fromCode_of_lt code
          rw [read] at compression
          cases compression
        · obtain ⟨m, read⟩ := PacketType.fromCode_of_lt code
          rw [read] at type
          cases type
        · exact fits large

/-- A header that is not refused gives its two lengths. -/
lemma readHeader_taken (taken : ¬ Refuses max buf) : ∃ h, readHeader max buf = .ok h ∧
    h.extHeaderLen = get 8 2 buf ∧ h.payloadLen = get 10 4 buf := by
  simp only [Refuses, not_or, not_not, Nat.not_lt, Int.not_lt] at taken
  obtain ⟨version, compression, type, fits⟩ := taken
  obtain ⟨c, compression⟩ := Compression.fromCode_of_le compression
  obtain ⟨t, type⟩ := PacketType.fromCode_of_le type
  have small : ¬ (get 10 4 buf : Int) > max := by omega
  simp [readHeader, version, compression, type, small]

/-- A buffer without a whole header waits for more. -/
lemma decode_short (short : buf.length < Packet.FIXED_HEADER_SIZE) :
    decode max buf = .ok (none, buf) := by
  rw [decode, if_pos short]

/-- A refused header is refused before the body is there. -/
lemma decode_refused (long : Packet.FIXED_HEADER_SIZE ≤ buf.length) (refused : Refuses max buf) :
    ∃ m, decode max buf = .error (.protocol m) := by
  obtain ⟨m, read⟩ := readHeader_refused refused
  exact ⟨m, by rw [decode, if_neg (Nat.not_lt.mpr long), read]⟩

/-- A buffer without the whole packet waits for more. -/
lemma decode_waits (long : Packet.FIXED_HEADER_SIZE ≤ buf.length) (taken : ¬ Refuses max buf)
    (short : buf.length < announcedLength buf) : decode max buf = .ok (none, buf) := by
  obtain ⟨h, read, ext, payload⟩ := readHeader_taken taken
  rw [announcedLength, ← ext, ← payload] at short
  rw [decode, if_neg (Nat.not_lt.mpr long), read]
  exact if_pos short

/-- A complete packet is taken, and its encoding is what was consumed. -/
lemma decode_takes (long : Packet.FIXED_HEADER_SIZE ≤ buf.length) (taken : ¬ Refuses max buf)
    (full : announcedLength buf ≤ buf.length) (small : buf.length < 2 ^ 31) :
    ∃ p rest, decode max buf = .ok (some p, rest) ∧ buf = encode p ++ rest := by
  obtain ⟨h, read, ext, payload⟩ := readHeader_taken taken
  rw [announcedLength, ← ext, ← payload] at full
  cases body : readBody h (buf.drop Packet.FIXED_HEADER_SIZE) with
  | error e =>
    have large := (readBody_error body).1
    omega
  | ok r =>
    obtain ⟨p, rest⟩ := r
    have decoded : decode max buf = .ok (some p, rest) := by
      rw [decode, if_neg (Nat.not_lt.mpr long), read]
      dsimp only
      rw [if_neg (Nat.not_lt.mpr full), body]
    exact ⟨p, rest, decoded, (decode_some_iff.mp decoded).2.2⟩

/-- `decode` accepts exactly the wire grammar: it throws for a header outside it or above the limit,
asks for more while the header or the packet it announces is incomplete, and otherwise returns a packet
whose encoding is what it consumed. No length it computes is cut. -/
theorem decode_partition (max : Int) (buf : KBytes) :
    ((∃ m, decode max buf.data = .error (.protocol m)) ↔
      Packet.FIXED_HEADER_SIZE ≤ buf.size ∧ Refuses max buf.data) ∧
    (decode max buf.data = .ok (none, buf.data) ↔ buf.size < Packet.FIXED_HEADER_SIZE ∨
      ¬ Refuses max buf.data ∧ buf.size < announcedLength buf.data) ∧
    (Packet.FIXED_HEADER_SIZE ≤ buf.size → ¬ Refuses max buf.data →
      announcedLength buf.data ≤ buf.size →
      ∃ p rest, decode max buf.data = .ok (some p, rest) ∧ buf.data = encode p ++ rest) ∧
    ((payloadLong buf.data).toInt = get 10 4 buf.data ∧
      (totalLong buf.data).toInt = announcedLength buf.data ∧
      (announcedLength buf.data ≤ buf.size → (payloadInt buf.data).toInt = get 10 4 buf.data)) := by
  have small := buf.size_lt
  have takes (long : Packet.FIXED_HEADER_SIZE ≤ buf.size) (taken : ¬ Refuses max buf.data)
      (full : announcedLength buf.data ≤ buf.size) := decode_takes long taken full small
  obtain ⟨payload, total, narrow⟩ := lengths_exact buf.data
  refine ⟨⟨?_, ?_⟩, ⟨?_, ?_⟩, takes, payload, total,
    fun full => narrow (Nat.lt_of_le_of_lt full small)⟩
  -- each result excludes the others, since the three conditions cover every buffer
  · rintro ⟨m, decoded⟩
    by_contra other
    by_cases long : Packet.FIXED_HEADER_SIZE ≤ buf.size
    · have taken : ¬ Refuses max buf.data := fun refused => other ⟨long, refused⟩
      by_cases full : announcedLength buf.data ≤ buf.size
      · obtain ⟨p, rest, taken, _⟩ := takes long taken full
        rw [taken] at decoded
        cases decoded
      · rw [decode_waits long taken (Nat.not_le.mp full)] at decoded
        cases decoded
    · rw [decode_short (Nat.not_le.mp long)] at decoded
      cases decoded
  · rintro ⟨long, refused⟩
    exact decode_refused long refused
  · intro decoded
    by_contra other
    rw [not_or, Nat.not_lt, not_and, Nat.not_lt] at other
    obtain ⟨long, full⟩ := other
    by_cases refused : Refuses max buf.data
    · obtain ⟨m, refused⟩ := decode_refused long refused
      rw [refused] at decoded
      cases decoded
    · obtain ⟨p, rest, taken, _⟩ := takes long refused (full refused)
      rw [taken] at decoded
      cases decoded
  · rintro (short | ⟨taken, short⟩)
    · exact decode_short short
    · by_cases long : Packet.FIXED_HEADER_SIZE ≤ buf.size
      · exact decode_waits long taken short
      · exact decode_short (Nat.not_le.mp long)

end PacketCodec

/-! ## The messages of the decoders -/

/-- The first letter of a message. -/
def letter (m : String) : Option Char := m.toList.head?

/-- What follows a text does not change its first letter. -/
lemma letter_append {m m' : String} {c : Char} (first : letter m = some c) :
    letter (m ++ m') = some c := by
  rw [letter, String.toList_append, List.head?_append]
  rw [letter] at first
  simp [first]

/-- The message of an unknown compression begins with "unknown". -/
lemma Compression.fromCode_letter {n : Nat} {m : String} (read : fromCode n = .error (.protocol m)) :
    letter m = some 'u' := by
  unfold fromCode at read
  split at read <;> cases read
  exact letter_append rfl

/-- The message of an unknown packet type begins with "unknown". -/
lemma PacketType.fromCode_letter {n : Nat} {m : String} (read : fromCode n = .error (.protocol m)) :
    letter m = some 'u' := by
  unfold fromCode at read
  split at read <;> cases read
  exact letter_append rfl

/-- A message of the packet codec begins with "unknown", "unsupported" or "payload". -/
lemma PacketCodec.decode_letter {max : Int} {buf : List UInt8} {m : String}
    (decoded : decode max buf = .error (.protocol m)) :
    letter m = some 'u' ∨ letter m = some 'p' := by
  unfold decode at decoded
  split at decoded
  case isTrue => cases decoded
  case isFalse =>
    split at decoded
    case h_1 e read =>
      cases decoded
      unfold readHeader at read
      dsimp only at read
      split at read
      case isTrue =>
        cases read
        exact .inl (letter_append rfl)
      case isFalse =>
        split at read
        case h_1 coded =>
          cases read
          exact .inl (Compression.fromCode_letter coded)
        case h_2 typed =>
          cases read
          exact .inl (PacketType.fromCode_letter typed)
        case h_3 =>
          split at read <;> cases read
          exact .inr (letter_append (letter_append (letter_append rfl)))
    case h_2 h read =>
      split at decoded
      case isTrue => cases decoded
      case isFalse =>
        split at decoded
        case h_2 => cases decoded
        case h_1 body =>
          -- a length that does not fit an `Int` is no `ProtocolException`
          cases decoded
          unfold readBody readBytes at body
          split at body
          case h_1 ext =>
            cases body
            split at ext <;> cases ext
          case h_2 =>
            split at body
            case h_1 payload =>
              cases body
              split at payload <;> cases payload
            case h_2 => cases body

namespace LengthPrefixedPacketCodec

variable {max : Int} {buf frame rest : List UInt8} {p : Packet} {n : Nat}

/-- A packet that fills its frame is within the limits of the frame decoder. -/
lemma frame_le (range : max + 65551 < 2 ^ 63) (ext : p.extHeader.size ≤ 0xFFFF)
    (fits : (p.payload.size : Int) ≤ max) :
    ((Packet.FIXED_HEADER_SIZE + p.extHeader.size + p.payload.size : Nat) : Int) ≤
      maxFrameLength max :=
  (Framing.admits_of_fits (f := .lengthPrefixed) ext fits fun _ => range).2.2 rfl

/-- The bytes of a frame that holds one packet. -/
lemma encode_of_body (long : PREFIX + n ≤ buf.length) (announced : get 0 4 buf = n)
    (body : (buf.drop PREFIX).take n = PacketCodec.encode p) :
    buf = encode p ++ buf.drop (PREFIX + n) := by
  have size : Packet.FIXED_HEADER_SIZE + p.extHeader.size + p.payload.size = n := by
    rw [← PacketCodec.length_encode, ← body, List.length_take, List.length_drop]
    omega
  have front : put 4 (get 0 4 buf) = buf.take 4 := put_get (by rw [PREFIX] at long; omega)
  rw [encode, size, ← body, ← announced, front, List.append_assoc, announced, ← List.drop_drop,
    List.take_append_drop]
  exact (List.take_append_drop 4 buf).symm

/-- The body of a frame that is taken. -/
lemma decode_body (long : PREFIX + n ≤ buf.length)
    (decoded : decode max buf = .ok (some p, buf.drop (PREFIX + n))) :
    get 0 4 buf = n ∧ PacketCodec.decode max ((buf.drop PREFIX).take n) = .ok (some p, []) := by
  obtain ⟨ext, fits, _, eq⟩ := decode_some_iff.mp decoded
  have size : (encode p).length = PREFIX + n := by
    have total := congrArg List.length eq
    rw [List.length_append, List.length_drop] at total
    omega
  have inner : (PacketCodec.encode p).length = n := by
    rw [encode, List.length_append, length_put, PREFIX] at size
    omega
  constructor
  · rw [eq]
    refine (get_frameLength ext).trans ?_
    rw [← PacketCodec.length_encode, inner]
  · have body : (buf.drop PREFIX).take n = PacketCodec.encode p := by
      rw [eq, drop_prefix]
      exact List.take_left' inner
    rw [body, ← List.append_nil (PacketCodec.encode p)]
    exact PacketCodec.decode_encode ext fits

/-- A complete frame is taken or refused. -/
lemma decode_complete (long : PREFIX ≤ buf.length) (full : PREFIX + get 0 4 buf ≤ buf.length) :
    decode max buf ≠ .ok (none, rest) := by
  unfold decode
  rw [if_neg (Nat.not_lt.mpr long)]
  dsimp only
  split
  case isTrue => simp
  case isFalse =>
    rw [if_neg (by omega)]
    split
    case isTrue => simp
    case isFalse =>
      split
      case isTrue => simp
      case isFalse =>
        split
        case h_1 => simp
        case h_2 other => exact other _

/-- A frame decides by itself what becomes of it: nothing after it is read. -/
lemma decode_frame_append (long : PREFIX ≤ frame.length)
    (full : frame.length = PREFIX + get 0 4 frame) (later : List UInt8) :
    decode max (frame ++ later) = (decode max frame).map fun r => (r.1, r.2 ++ later) := by
  have st := Framing.decoder_stable .lengthPrefixed max
  cases decoded : decode max frame with
  | error e => exact st.failure decoded later
  | ok r =>
    obtain ⟨r, rest⟩ := r
    cases r with
    | none => exact absurd decoded (decode_complete long (Nat.le_of_eq full.symm))
    | some p => exact st.item decoded later

/-- The packet of a complete frame is complete. -/
lemma decode_ne_incomplete :
    decode max buf ≠ .error (.protocol "incomplete packet in a complete frame") := by
  have first : letter "incomplete packet in a complete frame" = some 'i' := rfl
  have other : ∀ {m : String} {c : Char}, letter m = some c → c ≠ 'i' →
      m ≠ "incomplete packet in a complete frame" := by
    rintro m c named ne rfl
    exact ne (Option.some.inj (named.symm.trans first))
  unfold decode
  split
  case isTrue => simp
  case isFalse =>
    dsimp only
    split
    case isTrue =>
      intro eq
      refine other (letter_append (letter_append (letter_append rfl))) ?_
        (Throwable.protocol.inj (Except.error.inj eq))
      decide
    case isFalse =>
      split
      case isTrue => simp
      case isFalse full =>
        split
        case isTrue =>
          intro eq
          refine other (letter_append (letter_append rfl)) ?_
            (Throwable.protocol.inj (Except.error.inj eq))
          decide
        case isFalse =>
          split
          case isTrue =>
            intro eq
            refine other (letter_append (letter_append (letter_append (letter_append rfl)))) ?_
              (Throwable.protocol.inj (Except.error.inj eq))
            decide
          case isFalse filled =>
            split
            -- the packet is as long as the frame, and the frame is all there
            case h_1 none =>
              have short := (PacketCodec.decode_none none).2
              rw [get_drop, get_drop, List.length_drop] at short
              simp only [PREFIX, Packet.FIXED_HEADER_SIZE] at *
              omega
            case h_2 =>
              intro decoded
              rcases PacketCodec.decode_letter decoded with named | named
              · exact other named (by decide) rfl
              · exact other named (by decide) rfl

/-- A packet that `PacketCodec` takes from the `n` bytes behind the prefix fills them. -/
lemma body_fills {buf : KBytes} (long : PREFIX + n ≤ buf.size)
    (body : PacketCodec.decode max ((buf.data.drop PREFIX).take n) = .ok (some p, [])) :
    p.extHeader.size ≤ 0xFFFF ∧ (p.payload.size : Int) ≤ max ∧
      (buf.data.drop PREFIX).take n = PacketCodec.encode p ∧
      Packet.FIXED_HEADER_SIZE + p.extHeader.size + p.payload.size = n := by
  obtain ⟨ext, fits, bytes⟩ := PacketCodec.decode_some_iff.mp body
  rw [List.append_nil] at bytes
  refine ⟨ext, fits, bytes, ?_⟩
  rw [← PacketCodec.length_encode, ← bytes, List.length_take, List.length_drop]
  rw [KBytes.size] at long
  omega

/-- The bytes of the sample frame, and the body that its prefix announces. -/
lemma sample_frame : PREFIX + get 0 4 (encode Framing.sample) ≤ (encode Framing.sample).length ∧
    ((encode Framing.sample).drop PREFIX).take (get 0 4 (encode Framing.sample)) =
      PacketCodec.encode Framing.sample ++ [] := by
  decide

/-- The frame decoder agrees with `PacketCodec` on the body: it takes a packet and `4 + n` bytes exactly
when the prefix says `n` and `PacketCodec` takes the packet and all of those `n` bytes. The frame limit
refuses no such frame, what follows a complete frame is not looked at, and a complete frame is never
found to hold an incomplete packet. All this holds exactly for the payload limits, each a `Long`, that
leave room for the largest frame. -/
theorem decode_agrees (long : max < 2 ^ 63) : (∀ buf : KBytes,
    (∀ p n, (PREFIX + n ≤ buf.size ∧
        decode max buf.data = .ok (some p, buf.data.drop (PREFIX + n))) ↔
      PREFIX + n ≤ buf.size ∧ get 0 4 buf.data = n ∧
        PacketCodec.decode max ((buf.data.drop PREFIX).take n) = .ok (some p, [])) ∧
    (∀ p, PREFIX + get 0 4 buf.data ≤ buf.size →
      PacketCodec.decode max ((buf.data.drop PREFIX).take (get 0 4 buf.data)) = .ok (some p, []) →
      (get 0 4 buf.data : Int) ≤ maxFrameLength max) ∧
    (∀ frame later, buf.data = frame ++ later → PREFIX ≤ frame.length →
      frame.length = PREFIX + get 0 4 frame →
      decode max buf.data = (decode max frame).map fun r => (r.1, r.2 ++ later)) ∧
    decode max buf.data ≠ .error (.protocol "incomplete packet in a complete frame")) ↔
    max + 65551 < 2 ^ 63 := by
  refine ⟨fun agrees => ?_, fun range buf => ⟨fun p n => ⟨?_, ?_⟩, ?_, ?_, decode_ne_incomplete⟩⟩
  · -- with a limit that overflows, `PacketCodec` takes the sample and the frame limit is negative
    by_contra large
    have small : (encode Framing.sample).length < 2 ^ 31 := by decide
    have fits : (Framing.sample.payload.size : Int) ≤ max := by
      have one : Framing.sample.payload.size = 1 := rfl
      omega
    obtain ⟨full, body⟩ := sample_frame
    have taken := PacketCodec.decode_some_iff.mpr ⟨by decide, fits, body⟩
    have within := (agrees ⟨encode Framing.sample, small⟩).2.1 Framing.sample full taken
    have negative := Framing.maxFrameLength_neg long (Int.not_lt.mp large)
    omega
  · rintro ⟨long, decoded⟩
    exact ⟨long, decode_body long decoded⟩
  · rintro ⟨long, announced, body⟩
    obtain ⟨ext, fits, bytes, _⟩ := body_fills long body
    refine ⟨long, decode_some_iff.mpr ⟨ext, fits, frame_le range ext fits, ?_⟩⟩
    exact encode_of_body long announced bytes
  · intro p long body
    obtain ⟨ext, fits, _, size⟩ := body_fills long body
    rw [← size]
    exact frame_le range ext fits
  · intro frame later eq long full
    rw [eq]
    exact decode_frame_append long full later

/-- A frame of 19 bytes, decoded with the default limit. -/
theorem decode_agrees_sample : PacketCodec.DEFAULT_MAX_PAYLOAD + 65551 < 2 ^ 63 ∧
    decode PacketCodec.DEFAULT_MAX_PAYLOAD (encode Framing.sample) = .ok (some Framing.sample, []) := by
  have small : (encode Framing.sample).length < 2 ^ 31 := by decide
  have range : PacketCodec.DEFAULT_MAX_PAYLOAD + 65551 < 2 ^ 63 := by decide
  have agrees := (decode_agrees (by decide)).mpr range ⟨_, small⟩
  have long : PREFIX + 19 ≤ (encode Framing.sample).length := by decide
  have announced : get 0 4 (encode Framing.sample) = 19 := by decide
  have body : PacketCodec.decode PacketCodec.DEFAULT_MAX_PAYLOAD
      (((encode Framing.sample).drop PREFIX).take 19) = .ok (some Framing.sample, []) := by decide
  exact ⟨range, ((agrees.1 Framing.sample 19).mpr ⟨long, announced, body⟩).2⟩

/-- With a payload limit of `Long.MAX_VALUE` the frame limit is negative: a frame is refused although
`PacketCodec` takes its body. -/
theorem decode_disagrees : PacketCodec.decode (2 ^ 63 - 1)
      (((encode Framing.sample).drop PREFIX).take (get 0 4 (encode Framing.sample))) =
        .ok (some Framing.sample, []) ∧
    maxFrameLength (2 ^ 63 - 1) < 0 ∧
    ∃ m, decode (2 ^ 63 - 1) (encode Framing.sample) = .error (.protocol m) := by
  refine ⟨by decide, by decide, ?_⟩
  have long : ¬ (encode Framing.sample).length < PREFIX := by decide
  have large : (get 0 4 (encode Framing.sample) : Int) > maxFrameLength (2 ^ 63 - 1) := by decide
  rw [decode, if_neg long]
  dsimp only
  rw [if_pos large]
  exact ⟨_, rfl⟩

end LengthPrefixedPacketCodec

namespace Framing

open Incremental

/-- The longest encoding that the decoder of a framing has to wait for. -/
def longest (f : Framing) (max : Int) : Int :=
  match f with
  | .packets => Packet.FIXED_HEADER_SIZE + 0xFFFF + max
  | .lengthPrefixed => LengthPrefixedPacketCodec.PREFIX + Packet.FIXED_HEADER_SIZE + 0xFFFF + max

/-- The limit on frames exceeds that on payloads by the largest headers. -/
lemma maxFrameLength_le {max : Int} (nonneg : 0 ≤ max) :
    LengthPrefixedPacketCodec.maxFrameLength max ≤ 65551 + max := by
  have eq : ((Packet.FIXED_HEADER_SIZE : Int) + 0xFFFF + max) = 65551 + max := by
    simp [Packet.FIXED_HEADER_SIZE]
  rw [LengthPrefixedPacketCodec.maxFrameLength, LengthPrefixedPacketCodec.toLong, eq, Int.bmod_def]
  split <;> omega

/-- A decoder that asks for more has less than one longest encoding. -/
lemma decode_none_lt {f : Framing} {max : Int} {buf rest : List UInt8} (nonneg : 0 ≤ max)
    (decoded : f.decode max buf = .ok (none, rest)) : (rest.length : Int) < f.longest max := by
  obtain rfl := decode_none decoded
  cases f with
  | packets =>
    have ext : get 8 2 rest < 2 ^ 16 := get_lt 8 2 rest
    rw [longest, Packet.FIXED_HEADER_SIZE]
    by_cases long : Packet.FIXED_HEADER_SIZE ≤ rest.length
    · by_cases refused : PacketCodec.Refuses max rest
      · obtain ⟨m, refused⟩ := PacketCodec.decode_refused long refused
        exact absurd (refused.symm.trans decoded) (by simp)
      · simp only [PacketCodec.Refuses, not_or, Int.not_lt] at refused
        have short := (PacketCodec.decode_none decoded).2
        rw [Packet.FIXED_HEADER_SIZE] at short long
        omega
    · rw [Packet.FIXED_HEADER_SIZE] at long
      omega
  | lengthPrefixed =>
    have limit := maxFrameLength_le nonneg
    simp only [longest, LengthPrefixedPacketCodec.PREFIX, Packet.FIXED_HEADER_SIZE]
    by_contra large
    have long : ¬ rest.length < LengthPrefixedPacketCodec.PREFIX := by
      rw [LengthPrefixedPacketCodec.PREFIX]
      omega
    refine LengthPrefixedPacketCodec.decode_complete (Nat.not_lt.mp long) ?_ decoded
    by_contra waits
    have frame : ¬ (get 0 4 rest : Int) > LengthPrefixedPacketCodec.maxFrameLength max := by
      intro refused
      rw [decode, LengthPrefixedPacketCodec.decode, if_neg long] at decoded
      dsimp only at decoded
      rw [if_pos refused] at decoded
      cases decoded
    rw [LengthPrefixedPacketCodec.PREFIX] at waits
    omega

/-- Whatever lengths the peer claims and however the bytes arrive, what the decode loop leaves in the
buffer is less than one maximal frame. -/
theorem feed_lt {f : Framing} {max : Int} (nonneg : 0 ≤ max) {chunks : List (List UInt8)}
    {ps : List Packet} {rest : List UInt8} (fed : (f.decoder max).feed chunks [] = (ps, .ok rest)) :
    (rest.length : Int) < f.longest max := by
  have idle : (f.decoder max).drain [] = ([], .ok []) := by
    apply drain_more
    cases f <;> rfl
  rw [(decoder_stable f max).feed_eq_drain chunks idle] at fed
  have drained := (decoder_stable f max).drain_rest fed
  exact decode_none_lt nonneg (decode_of_drain_nil drained)

/-- Five bytes of a frame that claims 65551 bytes, in two chunks. -/
theorem feed_lt_prefix : (([0, 1, 0, 15, 9] : List UInt8).length : Int) <
    Framing.lengthPrefixed.longest 0 := by
  have idle : (Framing.lengthPrefixed.decoder 0).decode [] = .ok (none, []) := by decide
  have waits : (Framing.lengthPrefixed.decoder 0).decode [0, 1, 0, 15, 9] =
      .ok (none, [0, 1, 0, 15, 9]) := by decide
  have fed : (Framing.lengthPrefixed.decoder 0).feed [[0, 1], [0, 15, 9]] [] =
      ([], .ok [0, 1, 0, 15, 9]) := by
    rw [(decoder_stable _ _).feed_eq_drain _ (drain_more idle)]
    exact drain_more waits
  exact feed_lt (Int.le_refl 0) fed

end Framing

end MsgTrans
