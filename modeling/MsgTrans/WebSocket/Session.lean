import MsgTrans.Connection.Bytes
import MsgTrans.Connection.Packets
import MsgTrans.Connection.Shutdown
import MsgTrans.WebSocket.Messages

/-!
# INLINE writing over a WebSocket

A connection in INLINE mode whose stream is a `WebSocketPacketStream`. The stream's `write` takes all
bytes of the connection's buffer into `pending` before it takes `writeLock`, which the keepalive may be
holding; the connection decides about a successor from its own buffer and queue alone.

`write` can suspend, and the active writer can be cancelled, at the lock, in each `writer.feed` and in
`writer.flush`. The WebSocket is outside the sources: a feed or flush returns, fails, or is cancelled.
-/

namespace MsgTrans

/-- Kotlin `Throwable.message`, where the model keeps it. -/
def Throwable.message : Throwable → String
  | .connectionClosed message | .illegalArgument message | .illegalState message | .io message
  | .protocol message | .other message => message
  | _ => ""

/-- The event is a socket operation, which the stream of the connection decides. -/
@[simp] def Event.isSocket : Event → Bool
  | .transmit .. | .loopTransmit .. | .write .. | .flush .. | .loopWrite .. | .loopFlush .. => true
  | _ => false

/-- Where the writer is inside `WebSocketPacketStream.write`. -/
inductive WritePlace where
  | outside
  | lockWait (i : Nat)
  | feeding (i : Nat) (message : KBytes)
  | flushing (i : Nat)
deriving DecidableEq, Repr

/-- The call that is inside `write`. -/
@[simp] def WritePlace.writer : WritePlace → Option Nat
  | .outside => none
  | .lockWait i | .feeding i _ | .flushing i => some i

/-- The writer holds `writeLock`. -/
@[simp] def WritePlace.locked : WritePlace → Bool
  | .feeding .. | .flushing .. => true
  | _ => false

/-- A connection over a WebSocket; `pinging` while the keepalive holds `writeLock`. -/
structure WebSocketSession where
  conn : Conn := .init
  stream : WebSocketPacketStream := {}
  place : WritePlace := .outside
  pinging : Bool := false

/-- What happens in one step of a session. -/
inductive SessionEvent where
  | conn (e : Event)
  | write (i : Nat)
  | lock
  | fed
  | flushed
  | fails (message : String)
  | cancel
  | ping
  | pinged
deriving DecidableEq, Repr

namespace WebSocketSession

variable (env : Env) (options : WebSocketTransportOptions)

/-- `io.stream.write` of call `i` throws. -/
def throws (i : Nat) (r : IoResult) (w : WebSocketSession) : Option WebSocketSession :=
  (w.conn.step env (.write i r)).map fun conn => { w with conn, place := .outside }

/-- `io.stream.write` of call `i` returns, and so does `io.stream.flush`, which is empty. -/
def returns (i : Nat) (w : WebSocketSession) : Option WebSocketSession :=
  (w.conn.step env (.write i .ok)).bind fun conn =>
    (conn.step env (.flush i .ok)).map fun conn => { w with conn, place := .outside }

/-- One turn of the loop of `write` under the lock, up to its next suspension; `queued` once a message
has been fed. -/
def turn (i : Nat) (queued : Bool) (w : WebSocketSession) : Option WebSocketSession :=
  match WebSocketPacketStream.cut options w.stream.pending with
  | .error e => w.throws env i (.other e.message)
  | .ok (none, _) => if queued then some { w with place := .flushing i } else w.returns env i
  | .ok (some message, rest) =>
    some { w with stream := { w.stream with pending := rest }, place := .feeding i message }

/-- The part of `write` before the lock: `pending` takes all bytes of `io.writeBuf`. -/
def enter (i : Nat) (w : WebSocketSession) : Option WebSocketSession :=
  (w.conn.step env (.transmit i w.conn.writeBuf.length)).map fun conn =>
    { w with conn, stream := { w.stream with pending := w.stream.pending ++ w.conn.writeBuf } }

/-- One step of a session. While the connection is open its socket operations are those of the
stream. -/
def step (w : WebSocketSession) : SessionEvent → Option WebSocketSession
  | .conn e =>
    if e.isSocket && !w.conn.closed then none
    else (w.conn.step env e).map fun conn => { w with conn }
  | .write i =>
    if w.place = .outside then
      (w.enter env i).bind fun w =>
        if w.pinging then some { w with place := .lockWait i } else w.turn env options i false
    else none
  | .lock =>
    match w.place with
    | .lockWait i => if w.pinging then none else w.turn env options i false
    | _ => none
  | .fed =>
    match w.place with
    | .feeding i message =>
      { w with stream := { w.stream with fed := w.stream.fed ++ [message] } }.turn env options i true
    | _ => none
  | .flushed =>
    match w.place with
    | .flushing i => w.returns env i
    | _ => none
  | .fails message =>
    match w.place with
    | .feeding i _ | .flushing i => w.throws env i (.io s!"WebSocket: {message}")
    | _ => none
  | .cancel =>
    match w.place with
    | .lockWait i | .feeding i _ | .flushing i => w.throws env i .cancelled
    | .outside => none
  | .ping => if w.pinging || w.place.locked then none else some { w with pinging := true }
  | .pinged => if w.pinging then some { w with pinging := false } else none

/-- The writer is cancelled while bytes it has taken into `pending` are not fed yet, and no packet is
queued for which a successor would be launched. -/
def Strands (w : WebSocketSession) : SessionEvent → Prop
  | .cancel => w.stream.pending ≠ [] ∧ w.conn.sendQueue = []
  | _ => False

variable {env : Env} {options : WebSocketTransportOptions} {w w' : WebSocketSession} {i : Nat}

/-! ## Cutting whole packets -/

/-- A cutter waits for a header or for the rest of a packet. -/
lemma cut_unfinished_length {buf rest : List UInt8}
    (cut : WebSocketPacketStream.cut options buf = .ok (none, rest)) :
    buf.length < Packet.FIXED_HEADER_SIZE ∨ buf.length < packetLength buf := by
  unfold WebSocketPacketStream.cut at cut
  split at cut
  case isTrue short => exact .inl short
  case isFalse =>
    dsimp only at cut
    split at cut
    case isTrue => cases cut
    case isFalse =>
      split at cut
      case isTrue short => exact .inr short
      case isFalse => cases cut

/-- The first packet of a sequence is cut off, unless the cut fails. -/
lemma cut_whole {ps : List Packet} {message : Option KBytes} {rest : List UInt8}
    (framing : env.framing = .packets) (plain : ∀ p ∈ ps, p.extHeader = .empty)
    (cut : WebSocketPacketStream.cut options (env.encodings ps) = .ok (message, rest)) :
    message = none ∧ ps = [] ∨
      ∃ m p ps', message = some m ∧ ps = p :: ps' ∧ rest = env.encodings ps' := by
  cases ps with
  | nil =>
    cases message with
    | none => exact .inl ⟨rfl, rfl⟩
    | some m =>
      obtain ⟨eq, long, _⟩ := WebSocketPacketStream.cut_some cut
      have empty := congrArg List.length eq
      rw [Env.encodings_nil, List.length_append, List.length_nil, ← KBytes.size] at empty
      rw [Packet.FIXED_HEADER_SIZE] at long
      omega
  | cons p ps =>
    have encoded : env.encodings (p :: ps) = PacketCodec.encode p ++ env.encodings ps := by
      rw [Env.encodings_cons, framing]
      rfl
    have ext : p.extHeader.size ≤ 0xFFFF := by
      rw [plain p (by simp)]
      decide
    have length := WebSocketPacketStream.packetLength_encode ext (env.encodings ps)
    have long := PacketCodec.length_encode p
    rw [encoded] at cut
    cases message with
    | none =>
      have short := cut_unfinished_length cut
      rw [length, List.length_append] at short
      omega
    | some m =>
      obtain ⟨eq, _, size⟩ := WebSocketPacketStream.cut_some cut
      rw [length] at size
      exact .inr ⟨m, p, ps, rfl, rfl, (List.append_inj_right eq size.symm).symm⟩

/-! ## The invariant -/

/-- There is something to write that the connection has not handed to the stream. -/
def Owes (env : Env) (w : WebSocketSession) : Prop :=
  w.conn.transmitted.length < (env.encodings w.conn.enqueued).length

/-- What holds of a session while its connection is open. -/
structure Sound (env : Env) (w : WebSocketSession) : Prop where
  /-- The writer inside `write` is in its socket write. -/
  writer : ∀ i, w.place.writer = some i → (w.conn.calls i).pc = .socketWrite
  /-- The stream has been handed whole packets. -/
  whole : ∃ done, done <+: w.conn.written ∧ w.conn.transmitted = env.encodings done
  /-- What is pending is whole packets. -/
  pending : ∃ ps, (∀ p ∈ ps, p ∈ w.conn.written) ∧ w.stream.pending = env.encodings ps
  /-- Pending bytes wait for the lock, for a feed or for the next write. -/
  waits : w.stream.pending = [] ∨ (∃ i, w.place = .lockWait i) ∨
    (∃ i m, w.place = .feeding i m) ∨ Owes env w

/-- The connection is in a state of its own, and the session is sound while it is open. -/
structure Inv (env : Env) (w : WebSocketSession) : Prop where
  conn : Runs.Reach (Conn.step env) Runs.always Conn.init w.conn
  sound : w.conn.closed = false → Sound env w

/-- A queued packet is owed. -/
lemma owes_of_queue (inl : Conn.Inline env w.conn) (opened : w.conn.closed = false)
    (queue : w.conn.sendQueue ≠ []) : Owes env w := by
  obtain ⟨p, ps, eq⟩ := List.exists_cons_of_ne_nil queue
  have some := List.length_pos_of_ne_nil (env.framing.encode_ne_nil p)
  rw [Owes, inl.bytes opened, eq]
  simp only [Env.encodings_cons, List.length_append]
  omega

/-- A step of the connection in which the stream takes nothing keeps what the session knows of its
bytes. -/
lemma Sound.step {e : Event} {conn : Conn} {place : WritePlace} (sound : Sound env w)
    (st : w.conn.step env e = some conn) (other : ¬ e.Transmits)
    (writer : ∀ i, place.writer = some i → (conn.calls i).pc = .socketWrite)
    (waits : w.stream.pending = [] ∨ (∃ i, place = .lockWait i) ∨ (∃ i m, place = .feeding i m) ∨
      Owes env w) : Sound env { w with conn, place } := by
  have transmitted := Conn.step_transmitted st other
  obtain ⟨_, written, enqueued⟩ := Conn.step_grows st
  refine ⟨writer, ?_, ?_, ?_⟩
  · obtain ⟨done, part, eq⟩ := sound.whole
    exact ⟨done, part.trans written, transmitted.trans eq⟩
  · obtain ⟨ps, mem, eq⟩ := sound.pending
    exact ⟨ps, fun p h => written.subset (mem p h), eq⟩
  · refine waits.imp_right (Or.imp_right (Or.imp_right fun owes => ?_))
    obtain ⟨later, eq⟩ := enqueued
    rw [Owes] at owes ⊢
    simp only [transmitted, ← eq, Env.encodings_append, List.length_append]
    omega

/-- A new session owes nothing. -/
lemma Inv.init : Inv env {} where
  conn := .start
  sound _ := by
    refine ⟨by simp, ⟨[], List.prefix_rfl, rfl⟩, ⟨[], by simp, rfl⟩, .inl rfl⟩

/-- The connection goes on beside the stream. -/
lemma Inv.beside {e : Event} {conn : Conn} (inv : Inv env w) (st : w.conn.step env e = some conn)
    (free : w.conn.closed = false → e.isSocket = false) : Inv env { w with conn } where
  conn := inv.conn.next trivial st
  sound opened := by
    have before := Conn.step_opened st opened
    have sound := inv.sound before
    have inside := free before
    refine sound.step st (by cases e <;> simp_all [Event.Transmits]) (fun i writer => ?_) sound.waits
    refine Conn.step_socketWrite (.reach inv.conn) st ?_ (sound.writer i writer)
    cases e <;> simp_all [Event.EndsSocket]

/-- The socket write of the connection ends. -/
lemma Inv.throws {r : IoResult} (inv : Inv env w) (h : w.throws env i r = some w')
    (waits : r = .cancelled → w.conn.closed = false → w.stream.pending = [] ∨ Owes env w)
    (failed : r ≠ .ok) : Inv env w' := by
  obtain ⟨conn, st, rfl⟩ := Option.map_eq_some_iff.mp h
  refine ⟨inv.conn.next trivial st, fun opened => ?_⟩
  have before := Conn.step_opened st opened
  have cancelled : r = .cancelled := by
    by_contra ne
    have closed := Conn.write_closed st failed ne
    simp [show conn.closed = false from opened] at closed
  refine (inv.sound before).step st (by simp [Event.Transmits]) (by simp) ?_
  exact (waits cancelled before).imp_right fun owes => .inr (.inr owes)

/-- The socket write of the connection returns, with its flush. -/
lemma Inv.returns (inv : Inv env w) (h : w.returns env i = some w')
    (waits : w.conn.closed = false → w.stream.pending = [] ∨ Owes env w) : Inv env w' := by
  obtain ⟨written, st, flushed⟩ := Option.bind_eq_some_iff.mp h
  obtain ⟨conn, st', rfl⟩ := Option.map_eq_some_iff.mp flushed
  refine ⟨(inv.conn.next trivial st).next trivial st', fun opened => ?_⟩
  have between := Conn.step_opened st' opened
  have before := Conn.step_opened st between
  have sound : Sound env { w with conn := written, place := .outside } := by
    refine (inv.sound before).step st (by simp [Event.Transmits]) (by simp) ?_
    exact (waits before).imp_right fun owes => .inr (.inr owes)
  exact sound.step st' (by simp [Event.Transmits]) (by simp) sound.waits

/-- A turn of the loop of `write`. -/
lemma Inv.turn {queued : Bool} (framing : env.framing = .packets) (inv : Inv env w)
    (pc : w.conn.closed = false → (w.conn.calls i).pc = .socketWrite)
    (h : w.turn env options i queued = some w') : Inv env w' := by
  have plain : ∀ p ∈ w.conn.written, p.extHeader = .empty := fun p mem =>
    (Conn.holds_checked inv.conn (.written mem)).1
  unfold WebSocketSession.turn at h
  split at h
  case h_1 => exact inv.throws h (by simp) (by simp)
  case h_2 rest cut =>
    -- whole packets are pending, so a cutter that wants more bytes has none left
    have empty : w.conn.closed = false → w.stream.pending = [] := by
      intro opened
      obtain ⟨ps, mem, eq⟩ := (inv.sound opened).pending
      rw [eq] at cut
      rcases cut_whole framing (fun p h => plain p (mem p h)) cut with ⟨_, rfl⟩ | ⟨m, _, _, taken, _⟩
      · exact eq
      · cases taken
    split at h
    case isTrue =>
      cases h
      refine ⟨inv.conn, fun opened => ?_⟩
      have sound := inv.sound opened
      refine ⟨?_, sound.whole, sound.pending, .inl (empty opened)⟩
      rintro j ⟨⟩
      exact pc opened
    case isFalse => exact inv.returns h fun opened => .inl (empty opened)
  case h_3 message rest cut =>
    cases h
    refine ⟨inv.conn, fun opened => ?_⟩
    have sound := inv.sound opened
    obtain ⟨ps, mem, eq⟩ := sound.pending
    rw [eq] at cut
    refine ⟨?_, sound.whole, ?_, .inr (.inr (.inl ⟨i, message, rfl⟩))⟩
    · rintro j ⟨⟩
      exact pc opened
    · rcases cut_whole framing (fun p h => plain p (mem p h)) cut with
        ⟨none, _⟩ | ⟨m, p, ps', _, rfl, rest⟩
      · cases none
      · exact ⟨ps', fun q h => mem q (List.mem_cons_of_mem p h), rest⟩

/-- The bytes of the write buffer, which are whole packets, move into `pending`. -/
lemma Inv.enter (inv : Inv env w) (h : w.enter env i = some w') :
    Inv env { w' with place := .lockWait i } ∧ (w'.conn.calls i).pc = .socketWrite := by
  obtain ⟨conn, st, rfl⟩ := Option.map_eq_some_iff.mp h
  have reach := inv.conn.next trivial st
  obtain ⟨⟨pc, opened⟩, taken⟩ := Option.ite_none_right_eq_some.mp st
  cases taken
  have sound := inv.sound opened
  have bytes : w.conn.transmitted ++ w.conn.writeBuf.take w.conn.writeBuf.length =
      env.encodings w.conn.written := by
    rw [List.take_length]
    exact Conn.framed inv.conn
  refine ⟨⟨reach, fun _ => ⟨?_, ⟨w.conn.written, List.prefix_rfl, bytes⟩, ?_, .inr (.inl ⟨i, rfl⟩)⟩⟩,
    pc⟩
  · rintro j ⟨⟩
    exact pc
  -- what the buffer held are the packets written since the last transmission
  · obtain ⟨done, ⟨new, written⟩, transmitted⟩ := sound.whole
    obtain ⟨ps, mem, eq⟩ := sound.pending
    rw [List.take_length, transmitted, ← written, Env.encodings_append] at bytes
    refine ⟨ps ++ new, fun p h => ?_, ?_⟩
    · rcases List.mem_append.mp h with h | h
      · exact mem p h
      · exact written ▸ List.mem_append_right done h
    · rw [Env.encodings_append, ← eq, ← List.append_cancel_left bytes]

/-- Every step that strands nothing keeps the invariant. -/
lemma Inv.step {e : SessionEvent} (framing : env.framing = .packets)
    (mode : env.config.writeMode = .inline) (inv : Inv env w) (safe : ¬ w.Strands e)
    (h : w.step env options e = some w') : Inv env w' := by
  cases e with
  | conn e =>
    obtain ⟨free, moved⟩ := Option.ite_none_left_eq_some.mp h
    obtain ⟨conn, st, rfl⟩ := Option.map_eq_some_iff.mp moved
    exact inv.beside st fun opened => by simpa [opened] using free
  | write i =>
    obtain ⟨_, st⟩ := Option.ite_none_right_eq_some.mp h
    obtain ⟨u, entered, st⟩ := Option.bind_eq_some_iff.mp st
    obtain ⟨waiting, pc⟩ := inv.enter entered
    split at st
    case isTrue =>
      cases st
      exact waiting
    case isFalse => exact waiting.turn framing (fun _ => pc) st
  | lock =>
    simp only [WebSocketSession.step] at h
    split at h
    case h_1 i place =>
      obtain ⟨_, st⟩ := Option.ite_none_left_eq_some.mp h
      exact inv.turn framing (fun opened => (inv.sound opened).writer i (by simp [place])) st
    case h_2 => cases h
  | fed =>
    simp only [WebSocketSession.step] at h
    split at h
    case h_1 i message place =>
      have fed : Inv env { w with stream := { w.stream with fed := w.stream.fed ++ [message] } } :=
        ⟨inv.conn, fun opened => { inv.sound opened with }⟩
      exact fed.turn framing (fun opened => (inv.sound opened).writer i (by simp [place])) h
    case h_2 => cases h
  | flushed =>
    simp only [WebSocketSession.step] at h
    split at h
    case h_1 i place =>
      refine inv.returns h fun opened => ?_
      simpa [place] using (inv.sound opened).waits
    case h_2 => cases h
  | fails message =>
    simp only [WebSocketSession.step] at h
    split at h
    case h_3 => cases h
    all_goals exact inv.throws h (by simp) (by simp)
  | cancel =>
    have waits : IoResult.cancelled = .cancelled → w.conn.closed = false →
        w.stream.pending = [] ∨ Owes env w := by
      intro _ opened
      -- a cancelled writer leaves what is pending to its successor, which it launches only while
      -- packets are queued
      by_cases empty : w.stream.pending = []
      · exact .inl empty
      · exact .inr (owes_of_queue (.reach mode inv.conn) opened fun queue => safe ⟨empty, queue⟩)
    simp only [WebSocketSession.step] at h
    split at h
    case h_4 => cases h
    all_goals exact inv.throws h waits (by simp)
  | ping =>
    obtain ⟨_, st⟩ := Option.ite_none_left_eq_some.mp h
    cases st
    exact ⟨inv.conn, fun opened => { inv.sound opened with }⟩
  | pinged =>
    obtain ⟨_, st⟩ := Option.ite_none_right_eq_some.mp h
    cases st
    exact ⟨inv.conn, fun opened => { inv.sound opened with }⟩

/-! ## No packet is stranded -/

/-- In every run in which the writer is not cancelled with bytes in `pending` and nothing queued, an
open connection without an active writer has nothing queued, nothing in its write buffer and nothing
in the stream's `pending`. -/
theorem nothing_stranded (mode : env.config.writeMode = .inline) (framing : env.framing = .packets)
    (run : Runs.Reach (step env options) (fun w e => ¬ w.Strands e) {} w)
    (opened : w.conn.closed = false) (idle : w.conn.writerActive = false) :
    w.conn.sendQueue = [] ∧ w.conn.writeBuf = [] ∧ w.stream.pending = [] := by
  have inv : Inv env w := run.invariant .init fun w e w' inv safe st => inv.step framing mode safe st
  have inl := Conn.Inline.reach mode inv.conn
  have sound := inv.sound opened
  obtain ⟨queue, buf⟩ := inl.idle opened idle
  -- a writer inside `write` would be active
  have outside : ∀ i, w.place.writer ≠ some i := by
    intro i inside
    have active := inl.active opened i (by simp [sound.writer i inside])
    simp [idle] at active
  refine ⟨queue, buf, ?_⟩
  rcases sound.waits with empty | ⟨i, place⟩ | ⟨i, m, place⟩ | owes
  · exact empty
  · exact absurd (by simp [place]) (outside i)
  · exact absurd (by simp [place]) (outside i)
  · simp [Owes, inl.bytes opened, queue, buf] at owes

/-- A packet that waits for the keepalive's lock and is then fed and flushed. -/
theorem nothing_stranded_ping : ∃ w, Runs.Reach (step (.tight .inline) {})
    (fun w e => ¬ w.Strands e) {} w ∧ w.conn.closed = false ∧ w.conn.writerActive = false ∧
    w.stream.fed.length = 1 ∧ w.stream.pending = [] := by
  have run : ((Runs.exec (step (.tight .inline) {}) {}
      [.ping, .conn .sendOne, .write 0, .pinged, .lock, .fed, .flushed]).map
      fun w => (w.conn.closed, w.conn.writerActive, w.stream.fed.length)) = some (false, false, 1) := by
    decide
  obtain ⟨w, exec, facts⟩ := Option.map_eq_some_iff.mp run
  simp only [Prod.mk.injEq] at facts
  obtain ⟨opened, idle, fed⟩ := facts
  have reach : Runs.Reach (step (.tight .inline) {}) (fun w e => ¬ w.Strands e) {} w :=
    Runs.reach_of_exec exec (.of_forall (by simp [Strands]))
  exact ⟨w, reach, opened, idle, fed, (nothing_stranded rfl rfl reach opened idle).2.2⟩

/-- The only writer is cancelled while it waits for the lock that the keepalive holds: its packet stays
in `pending`, whole, and no writer is left to feed it. -/
theorem stranded_packet : ∃ w, Runs.Reach (step (.tight .inline) {}) Runs.always {} w ∧
    w.conn.closed = false ∧ w.conn.writerActive = false ∧ w.stream.fed = [] ∧
    ∃ p, w.stream.pending = PacketCodec.encode p := by
  have run : ((Runs.exec (step (.tight .inline) {}) {}
      [.ping, .conn .sendOne, .write 0, .cancel]).map
      fun w => (w.conn.closed, w.conn.writerActive, w.stream.fed, w.stream.pending)) =
      some (false, false, [], PacketCodec.encode ⟨.oneWay, 1, 0, .one, .empty, .none, 0, by decide,
        by decide⟩) := by decide
  obtain ⟨w, exec, facts⟩ := Option.map_eq_some_iff.mp run
  simp only [Prod.mk.injEq] at facts
  obtain ⟨opened, idle, fed, pending⟩ := facts
  exact ⟨w, Runs.reach_always_of_exec exec, opened, idle, fed, _, pending⟩

end WebSocketSession

end MsgTrans
