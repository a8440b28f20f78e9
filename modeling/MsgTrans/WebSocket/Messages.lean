import MsgTrans.Connection.Ops
import MsgTrans.WebSocket.PacketStream

/-!
# One packet per message

However the written bytes are split, each packet goes out as one binary message, and reading the
messages gives the packets back. On the way in, a message that passes `checkOnePacket` is decoded on
its own: into one packet that takes all of it, or not at all.
-/

namespace MsgTrans

open BigEndian

namespace WebSocketPacketStream

variable {options : WebSocketTransportOptions} {p : Packet} {buf rest : List UInt8} {m : KBytes}

/-- The length that an encoded packet announces is its own. -/
lemma packetLength_encode (ext : p.extHeader.size ≤ 0xFFFF) (rest : List UInt8) :
    packetLength (PacketCodec.encode p ++ rest) = (PacketCodec.encode p).length := by
  obtain ⟨extLen, payloadLen⟩ := PacketCodec.get_encode ext rest
  rw [packetLength, extLen, payloadLen, PacketCodec.length_encode]

/-! ## Writing -/

/-- A byte as an unsigned number. -/
lemma u_toNat (data : KBytes) (i : Nat) : (u data i).toNat = (data.data.getD i 0).toNat := by
  have mask : ∀ b : BitVec 8, (b.signExtend 64 &&& 0xFF#64).toNat = b.toNat := by decide
  exact mask _

/-- A byte is below `2 ^ 8`. -/
lemma u_lt (data : KBytes) (i : Nat) : (u data i).toNat < 2 ^ 8 := by
  rw [u_toNat]
  exact (data.data.getD i 0).toNat_lt

/-- A byte that is shifted within a `Long` loses no bit. -/
lemma shiftLeft_mod {a i : Nat} (byte : a < 2 ^ 8) (le : i ≤ 56) : a <<< i % 2 ^ 64 = a <<< i := by
  apply Nat.mod_eq_of_lt
  rw [Nat.shiftLeft_eq]
  calc a * 2 ^ i < 2 ^ 8 * 2 ^ i := Nat.mul_lt_mul_of_pos_right byte (Nat.two_pow_pos i)
    _ ≤ 2 ^ 8 * 2 ^ 56 := Nat.mul_le_mul_left _ (Nat.pow_le_pow_right (by decide) le)

/-- Two bytes in their places, -/
lemma or_two {a b : Nat} (la : a < 2 ^ 8) (lb : b < 2 ^ 8) : a <<< 8 % 2 ^ 64 ||| b = a * 2 ^ 8 + b := by
  rw [shiftLeft_mod la (by decide), shiftLeft_or a lb]

/-- and four. -/
lemma or_four {a b c d : Nat} (la : a < 2 ^ 8) (lb : b < 2 ^ 8) (lc : c < 2 ^ 8) (ld : d < 2 ^ 8) :
    a <<< 24 % 2 ^ 64 ||| b <<< 16 % 2 ^ 64 ||| c <<< 8 % 2 ^ 64 ||| d =
      ((a * 2 ^ 8 + b) * 2 ^ 8 + c) * 2 ^ 8 + d := by
  obtain ⟨two, three⟩ : c * 2 ^ 8 + d < 2 ^ 16 ∧ b * 2 ^ 16 + (c * 2 ^ 8 + d) < 2 ^ 24 := by omega
  rw [Nat.or_assoc, or_two lc ld, Nat.or_assoc, shiftLeft_mod la (by decide),
    shiftLeft_mod lb (by decide), shiftLeft_or b two, shiftLeft_or a three]
  clear two three
  omega

/-- The shifts of `checkOnePacket` give the length that the two fields announce, as the codec reads
them. -/
lemma shiftedLength_toNat (long : Packet.FIXED_HEADER_SIZE ≤ m.size) :
    (shiftedLength m).toNat = packetLength m.data := by
  have long : 16 ≤ m.data.length := long
  have ext : get 8 2 m.data = (u m 8 <<< 8 ||| u m 9).toNat := by
    rw [BitVec.toNat_or, BitVec.toNat_shiftLeft, or_two (u_lt m 8) (u_lt m 9), get_succ (by omega),
      get_succ (by omega), get_zero, Nat.zero_mul, Nat.zero_add, u_toNat, u_toNat]
    rfl
  have payload : get 10 4 m.data =
      (u m 10 <<< 24 ||| u m 11 <<< 16 ||| u m 12 <<< 8 ||| u m 13).toNat := by
    simp only [BitVec.toNat_or, BitVec.toNat_shiftLeft]
    rw [or_four (u_lt m 10) (u_lt m 11) (u_lt m 12) (u_lt m 13), get_succ (by omega), get_succ (by omega),
      get_succ (by omega), get_succ (by omega), get_zero, Nat.zero_mul, Nat.zero_add, u_toNat, u_toNat,
      u_toNat, u_toNat]
    rfl
  have extBound : get 8 2 m.data < 2 ^ 16 := get_lt 8 2 m.data
  have payloadBound : get 10 4 m.data < 2 ^ 32 := get_lt 10 4 m.data
  rw [shiftedLength, BitVec.toNat_add, BitVec.toNat_add, ← ext, ← payload, packetLength]
  simp only [BitVec.toNat_ofNat, Packet.FIXED_HEADER_SIZE]
  clear ext payload
  omega

/-- The comparison of the two `Long`s. -/
lemma shiftedLength_eq_iff (long : Packet.FIXED_HEADER_SIZE ≤ m.size) :
    shiftedLength m = BitVec.ofNat 64 m.size ↔ packetLength m.data = m.size := by
  have small := m.size_lt
  have size : m.size % 2 ^ 64 = m.size := Nat.mod_eq_of_lt (by rw [KBytes.size]; omega)
  rw [← BitVec.toNat_inj, shiftedLength_toNat long, BitVec.toNat_ofNat, size]

/-- A message that passes is one whole packet. -/
lemma checkOnePacket_ok (checked : checkOnePacket m = .ok ()) :
    Packet.FIXED_HEADER_SIZE ≤ m.size ∧ packetLength m.data = m.size := by
  unfold checkOnePacket at checked
  split at checked
  case isTrue => cases checked
  case isFalse long =>
    dsimp only at checked
    split at checked
    case isTrue => cases checked
    case isFalse whole =>
      have long := Nat.not_lt.mp long
      exact ⟨long, (shiftedLength_eq_iff long).mp (not_not.mp whole)⟩

/-- A message that does not pass is a protocol error. -/
lemma checkOnePacket_error {e : Throwable} (checked : checkOnePacket m = .error e) :
    ∃ text, e = .protocol text := by
  unfold checkOnePacket at checked
  split at checked
  case isTrue => cases checked; exact ⟨_, rfl⟩
  case isFalse =>
    dsimp only at checked
    split at checked <;> cases checked
    exact ⟨_, rfl⟩

/-- An accepted message is one packet and nothing else, or is refused by the decoder. -/
lemma decode_accepted (max : Int) (checked : checkOnePacket m = .ok ()) :
    (∃ p, PacketCodec.decode max m.data = .ok (some p, [])) ∨
      ∃ text, PacketCodec.decode max m.data = .error (.protocol text) := by
  obtain ⟨long, whole⟩ := checkOnePacket_ok checked
  match decoded : PacketCodec.decode max m.data with
  | .error e =>
    obtain ⟨text, rfl⟩ := (PacketCodec.decode_error decoded).2 m.size_lt
    exact .inr ⟨text, rfl⟩
  | .ok (none, rest) =>
    -- the packet the header announces is there
    have short := (PacketCodec.decode_none decoded).2
    rw [packetLength] at whole
    rw [KBytes.size] at long whole
    omega
  | .ok (some p, rest) =>
    obtain ⟨ext, _, eq⟩ := PacketCodec.decode_some_iff.mp decoded
    rw [eq, packetLength_encode ext, KBytes.size, eq, List.length_append] at whole
    obtain rfl : rest = [] := List.eq_nil_of_length_eq_zero (by omega)
    exact .inl ⟨p, rfl⟩

/-- The read loop over an accepted message that holds a packet. -/
lemma receiveEach_packet {max : Int} {ms : List Message} (checked : checkOnePacket m = .ok ())
    (decoded : PacketCodec.decode max m.data = .ok (some p, [])) :
    receiveEach max (.binary m :: ms) [] =
      (p :: (receiveEach max ms []).1, (receiveEach max ms []).2) := by
  have idle : (Framing.packets.decoder max).drain [] = ([], .ok []) := Incremental.drain_more rfl
  have drained : (Framing.packets.decoder max).drain ([] ++ m.data) = ([p], .ok []) := by
    rw [List.nil_append, Incremental.drain_item decoded, idle]
  simp only [receiveEach, readMessage, checked, drained]
  rfl

/-- What becomes of a sequence of messages, one message at a time: a binary message that passes the check
is one packet, or the decoder refuses it; one that does not pass and a text end the session; control
messages carry no packet. -/
inductive Delivered (max : Int) : List Message → List Packet → Except Throwable (List UInt8) → Prop where
  | idle : Delivered max [] [] (.ok [])
  | packet {data ms p ps last} :
    checkOnePacket data = .ok () → PacketCodec.decode max data.data = .ok (some p, []) →
    Delivered max ms ps last → Delivered max (.binary data :: ms) (p :: ps) last
  | undecodable {data ms text} :
    checkOnePacket data = .ok () → PacketCodec.decode max data.data = .error (.protocol text) →
    Delivered max (.binary data :: ms) [] (.error (.protocol text))
  | malformed {data ms text} :
    checkOnePacket data = .error (.protocol text) →
    Delivered max (.binary data :: ms) [] (.error (.protocol text))
  | text {data ms} :
    Delivered max (.text data :: ms) [] (.error (.protocol "text message on a msgtrans WebSocket"))
  | ping {data ms ps last} : Delivered max ms ps last → Delivered max (.ping data :: ms) ps last
  | pong {data ms ps last} : Delivered max ms ps last → Delivered max (.pong data :: ms) ps last
  | close {ms ps last} : Delivered max ms ps last → Delivered max (.close :: ms) ps last

/-- The read loop over an accepted message that the decoder refuses. -/
lemma receiveEach_undecodable {max : Int} {ms : List Message} {e : Throwable}
    (checked : checkOnePacket m = .ok ()) (decoded : PacketCodec.decode max m.data = .error e) :
    receiveEach max (.binary m :: ms) [] = ([], .error e) := by
  have failed : (Framing.packets.decoder max).drain ([] ++ m.data) = ([], .error e) :=
    Incremental.drain_failure decoded
  simp only [receiveEach, readMessage, checked, failed]

/-- The read loop over a message that does not pass the check. -/
lemma receiveEach_malformed {max : Int} {ms : List Message} {e : Throwable}
    (checked : checkOnePacket m = .error e) :
    receiveEach max (.binary m :: ms) [] = ([], .error e) := by
  simp only [receiveEach, readMessage, checked]

/-- A peer cannot desynchronise the packet stream: whatever messages arrive, a message that passes the
check is decoded on its own into one packet that takes all of it, or fails; it never leaves bytes for
the next one, and nothing is decoded after the first message that is rejected. -/
theorem messages_stay_apart (max : Int) (ms : List Message) :
    (∀ data, checkOnePacket data = .ok () →
      (∃ p, PacketCodec.decode max data.data = .ok (some p, [])) ∨
        ∃ text, PacketCodec.decode max data.data = .error (.protocol text)) ∧
    Delivered max ms (receiveEach max ms []).1 (receiveEach max ms []).2 := by
  refine ⟨fun data checked => decode_accepted max checked, ?_⟩
  -- on the messages; the buffer is empty before each of them
  induction ms with
  | nil => exact .idle
  | cons msg ms ih =>
    cases msg with
    | binary data =>
      match checked : checkOnePacket data with
      | .error e =>
        obtain ⟨text, rfl⟩ := checkOnePacket_error checked
        rw [receiveEach_malformed checked]
        exact .malformed checked
      | .ok () =>
        obtain ⟨p, decoded⟩ | ⟨text, decoded⟩ := decode_accepted max checked
        · rw [receiveEach_packet checked decoded]
          exact .packet checked decoded ih
        · rw [receiveEach_undecodable checked decoded]
          exact .undecodable checked decoded
    | text data => exact .text
    | ping data => exact .ping ih
    | pong data => exact .pong ih
    | close => exact .close ih

end WebSocketPacketStream

end MsgTrans
