import Mathlib.Algebra.Order.BigOperators.Group.List
import MsgTrans.Connection.Holding
import MsgTrans.Transport.InboundAdmission

/-!
# Inbound bytes

The payload bytes that a connection holds on its inbound side, against the ceiling that the class
documentation of `Connection` gives for them. The ceiling counts one queue of `inboundCapacity`, where
there are two, and payloads as they are on the wire; it holds while only one of the queues is used,
plaintexts are no longer than frames, and every response is taken before the next request is let in.
-/

namespace MsgTrans

namespace Inbound

variable {env : Env} {s s' : Inbound} {x : Endpoint} {e : EndpointEvent}

/-- The payloads in `inboundRequests`, those in `inboundEvents`, and the responses that wait for their
callers. -/
def bytes (s : Inbound) : Nat :=
  (s.endpoint.requests.items.toList.map fun p => p.payload.size).sum +
    (s.events.buffer.map fun m => m.payload.size).sum + s.endpoint.conn.heldBytes

/-- The documented ceiling: `(inboundCapacity + maxInFlightRequests) × maxPayloadLength`. -/
def ceiling (config : Config) : Int :=
  (config.inboundCapacity + config.maxInFlightRequests) * config.maxPayloadLength

/-! ## Both queues full -/

/-- The mailbox of two messages. -/
lemma narrow_events : ChannelKind.ofCapacity 2 = some (.bounded 2) := by decide

/-- Room for two inbound packets of one byte, and one request in flight. -/
def narrow : Env where
  config := { (Env.tight .inline).config with
    inboundCapacity := 2, eventsKind := .bounded 2, eventsKind_eq := narrow_events
    maxPayloadLength := 1 }
  framing := .packets
  codecs := frugal

/-- Two requests and two messages, and no caller to take them. -/
theorem ceiling_exceeded : ∃ s, Runs.Reach (step narrow) Runs.always (.new narrow) s ∧
    s.endpoint.conn.closed = false ∧ s.bytes = 4 ∧ ceiling narrow.config = 3 := by
  have ran : ((Runs.exec (step narrow) (.new narrow)
      [.endpoint (.read ((PacketCodec.encode (packet .request .none) ++
          PacketCodec.encode (packet .request .none)) ++
          (PacketCodec.encode (packet .oneWay .none) ++ PacketCodec.encode (packet .oneWay .none)))),
        .endpoint .decode, .endpoint .decode, .endpoint .decode, .endpoint .emitted,
        .endpoint .decode, .endpoint .emitted]).map
      fun s => (s.endpoint.conn.closed, s.bytes)) = some (false, 4) := by decide
  obtain ⟨s, exec, facts⟩ := Option.map_eq_some_iff.mp ran
  simp only [Prod.mk.injEq] at facts
  exact ⟨s, Runs.reach_always_of_exec exec, facts.1, facts.2, by decide⟩

/-! ## Messages in the channel -/

/-- A message in the buffer has been delivered to the channel, and a bounded buffer is kept within its
bound. -/
structure Buffered (kind : ChannelKind) (ch : EventChannel) : Prop where
  delivered : ch.buffer ⊆ ch.delivered
  fits : ∀ capacity, kind = .bounded capacity → ch.buffer.length ≤ capacity

namespace Buffered

variable {kind : ChannelKind} {ch : EventChannel}

/-- An event that is sent keeps the buffer within its bound. -/
lemma send (held : Buffered kind ch) (p : Packet) : Buffered kind (ch.send kind p) := by
  have grown : ch.buffer ⊆ ch.delivered ++ [p.eventMessage] :=
    List.Subset.trans held.delivered (List.subset_append_left _ _)
  unfold EventChannel.send
  dsimp only
  split
  case isTrue => exact ⟨grown, held.fits⟩
  case isFalse =>
    split
    case h_1 => exact ⟨List.subset_append_right _ _, by simp⟩
    case h_2 capacity =>
      split
      case isTrue room =>
        refine ⟨List.append_subset.mpr ⟨grown, List.subset_append_right _ _⟩, fun n same => ?_⟩
        cases same
        rw [List.length_append, List.length_singleton]
        exact room
      case isFalse => exact ⟨held.delivered, held.fits⟩

/-- An event that is received keeps the buffer within its bound. -/
lemma receive (held : Buffered kind ch) (closed : Bool) : Buffered kind (ch.receive closed) := by
  unfold EventChannel.receive
  split
  case h_1 p _ =>
    refine ⟨List.Subset.trans (List.tail_subset _) (List.append_subset.mpr ⟨?_, ?_⟩), ?_⟩
    · exact List.Subset.trans held.delivered (List.subset_append_left _ _)
    · exact List.subset_append_right _ _
    · simpa using held.fits
  case h_2 rest _ buffer =>
    obtain ⟨delivered, fits⟩ := held
    rw [buffer] at delivered fits
    refine ⟨List.Subset.trans (List.subset_cons_self _ _) delivered, fun n same => ?_⟩
    exact (Nat.le_succ _).trans (fits n same)
  case h_3 =>
    split
    case isTrue => exact held
    case isFalse => exact ⟨held.delivered, held.fits⟩

/-- What follows a step of the endpoint keeps the buffer within its bound. -/
lemma follow (held : Buffered env.config.eventsKind s.events) (packet : Option Packet) (x : Endpoint) :
    Buffered env.config.eventsKind (s.follow env packet x).events := by
  have closes : ∀ t : Inbound, Buffered env.config.eventsKind t.events →
      Buffered env.config.eventsKind (t.closeEvents s.endpoint).events := by
    intro t held
    unfold closeEvents
    split
    case isTrue => exact ⟨held.delivered, held.fits⟩
    case isFalse => exact held
  cases packet with
  | none => exact closes _ held
  | some p =>
    refine closes _ ?_
    rcases type : p.type with _ | _ | _ <;> simp only [dispatch, type]
    · exact held.send p
    · exact held
    · exact held

/-- In every run the buffer is within its bound. -/
lemma reach (run : Runs.Reach (step env) Runs.always (.new env) s) :
    Buffered env.config.eventsKind s.events := by
  refine run.invariant (P := fun s => Buffered env.config.eventsKind s.events)
    ⟨List.nil_subset _, fun _ _ => Nat.zero_le _⟩ ?_
  intro s e s' held _ st
  cases e with
  | endpoint e =>
    obtain ⟨_, x, _, rfl⟩ := step_endpoint st
    exact held.follow _ x
  | collect =>
    cases st
    exact held.receive _
  | collectorCancelled =>
    obtain ⟨_, st⟩ := Option.ite_none_right_eq_some.mp st
    cases st
    exact ⟨held.delivered, held.fits⟩

end Buffered

/-- A capacity that is not negative is the bound of the events channel. -/
lemma eventsKind_bounded {config : Config} (capacity : 0 ≤ config.inboundCapacity) :
    config.eventsKind = .bounded config.inboundCapacity.toNat := by
  have kind := config.eventsKind_eq
  rw [ChannelKind.ofCapacity, if_neg (by omega), if_neg (by omega), if_neg (by omega)] at kind
  exact (Option.some.inj kind).symm

/-! ## Runs within the ceiling -/

/-- A message that comes after no request, a request that comes after no message, or a response. -/
def Joins (decoded : List Packet) (wire : Packet) : Prop :=
  (wire.type = .oneWay → ∀ w ∈ decoded, w.type ≠ .request) ∧
    (wire.type = .request → ∀ w ∈ decoded, w.type ≠ .oneWay)

/-- The peer does not send both requests and messages, and nothing whose plaintext is longer than a frame
may be, and no request asks for a slot while another one holds its response. -/
structure Modest (env : Env) (s : Inbound) (e : InboundEvent) : Prop where
  wire : e = .endpoint .decode → ∀ wire rest,
    env.framing.decode env.config.maxPayloadLength s.endpoint.readBuf = .ok (some wire, rest) →
    Joins s.endpoint.decoded wire ∧ (wire.compression ≠ .none → ∀ p, Normal env wire p →
      (p.payload.size : Int) ≤ env.config.maxPayloadLength)
  slots : ∀ ev, e = .endpoint (.conn ev) → s.endpoint.conn.Asks ev →
    ∀ i, (s.endpoint.conn.calls i).held = none

/-- The plaintext of a decoded packet is no longer than a frame may be. -/
def Light (env : Env) (wire : Packet) : Prop :=
  ∀ p, Normal env wire p → (p.payload.size : Int) ≤ env.config.maxPayloadLength

/-- Only one of the two inbound queues has been used. -/
def OneQueue (decoded : List Packet) : Prop :=
  (∀ w ∈ decoded, w.type ≠ .oneWay) ∨ ∀ w ∈ decoded, w.type ≠ .request

/-- A packet that joins uses no second queue. -/
lemma OneQueue.joins {decoded : List Packet} {wire : Packet} (one : OneQueue decoded)
    (joins : Joins decoded wire) : OneQueue (decoded ++ [wire]) := by
  simp only [OneQueue, List.forall_mem_append, List.forall_mem_singleton]
  cases type : wire.type with
  | oneWay => exact .inr ⟨joins.1 type, by simp⟩
  | request => exact .inl ⟨joins.2 type, by simp⟩
  | response => exact one.imp (⟨·, by simp⟩) (⟨·, by simp⟩)

/-- What a modest run keeps. -/
structure Kept (env : Env) (s : Inbound) : Prop where
  decoded : ∀ wire ∈ s.endpoint.decoded, Light env wire
  queue : OneQueue s.endpoint.decoded
  capped : (s.endpoint.conn.holding + s.endpoint.conn.pending.size : Int) ≤
    env.config.maxInFlightRequests

/-- A packet that the read loop takes is light: on the wire the codec has checked it. -/
lemma Modest.light {wire : Packet} (modest : Modest env s (.endpoint e))
    (taken : Endpoint.Takes env e wire s.endpoint x) :
    Joins s.endpoint.decoded wire ∧ Light env wire := by
  obtain ⟨rest, source⟩ := taken.source
  obtain ⟨joins, plaintext⟩ := modest.wire (congrArg _ taken.event) wire rest source
  refine ⟨joins, fun p normal => ?_⟩
  by_cases marked : wire.compression = .none
  · unfold Normal Endpoint.normalize Codecs.decompressPacket at normal
    rw [if_pos marked] at normal
    cases normal
    exact (Framing.decode_some_iff.mp source).1.2.1
  · exact plaintext marked p normal

/-- Every modest step of the endpoint keeps it so. -/
lemma Kept.endpoint (kept : Kept env s) (nonneg : 0 ≤ env.config.maxInFlightRequests)
    (reach : Runs.Reach (Conn.step env) Runs.always .init s.endpoint.conn)
    (modest : Modest env s (.endpoint e)) (st : s.endpoint.step env e = some x) :
    ((∀ wire ∈ x.decoded, Light env wire) ∧ OneQueue x.decoded) ∧
      (x.conn.holding + x.conn.pending.size : Int) ≤ env.config.maxInFlightRequests := by
  have reads := Endpoint.step_reads st
  constructor
  · rcases reads.decoded with same | ⟨wire, taken⟩
    · rw [same]
      exact ⟨kept.decoded, kept.queue⟩
    · obtain ⟨joins, light⟩ := modest.light taken
      rw [taken.decoded]
      refine ⟨List.forall_mem_append.mpr ⟨kept.decoded, ?_⟩, kept.queue.joins joins⟩
      exact List.forall_mem_singleton.mpr light
  · have quiet (ev : Event) (moved : s.endpoint.conn.step env ev = some x.conn)
        (slots : s.endpoint.conn.Asks ev → ∀ i, (s.endpoint.conn.calls i).held = none) :=
      Conn.step_capped nonneg reach moved slots kept.capped
    rcases reads.conn with conn | ⟨p, _, _, moved⟩
    · cases conn with
      | rests same =>
        rw [same]
        exact kept.capped
      | shuts shut => exact quiet .shutdown (congrArg some shut.symm) (fun asks => asks.elim)
      | responds moved => exact quiet _ moved (fun asks => asks.elim)
      | steps event _ moved => exact quiet _ moved (modest.slots _ (congrArg _ event))
    · exact quiet _ moved (fun asks => asks.elim)

/-- A modest run keeps it so. -/
lemma Kept.reach (nonneg : 0 ≤ env.config.maxInFlightRequests)
    (run : Runs.Reach (step env) (Modest env) (.new env) s) : Kept env s := by
  induction run with
  | start =>
    exact ⟨fun wire mem => (by cases mem), .inl fun wire mem => (by cases mem), nonneg⟩
  | @next s e s' before modest st kept =>
    cases e with
    | endpoint e =>
      obtain ⟨_, x, moved, rfl⟩ := step_endpoint st
      have reach := (endpoint_inv (before.mono fun _ _ _ => trivial)).conn
      have held := kept.endpoint nonneg reach modest moved
      rw [← follow_endpoint env (s.endpoint.dispatched env e) x s] at held
      exact ⟨held.1.1, held.1.2, held.2⟩
    | collect =>
      cases st
      exact ⟨kept.decoded, kept.queue, kept.capped⟩
    | collectorCancelled =>
      obtain ⟨_, st⟩ := Option.ite_none_right_eq_some.mp st
      cases st
      exact ⟨kept.decoded, kept.queue, kept.capped⟩

/-- A normalized packet comes from a wire packet. -/
lemma normal_source {wires packets : List Packet} {p : Packet}
    (pairs : List.Forall₂ (Normal env) wires packets) (mem : p ∈ packets) :
    ∃ wire ∈ wires, Normal env wire p := by
  induction pairs with
  | nil => cases mem
  | @cons wire q wires packets normal _ ih =>
    rcases List.mem_cons.mp mem with rfl | mem
    · exact ⟨wire, List.mem_cons_self, normal⟩
    · obtain ⟨other, source, normal⟩ := ih mem
      exact ⟨other, List.mem_cons_of_mem _ source, normal⟩

/-- A packet that the read loop acts on is the normal form of a decoded one. -/
lemma acted_source {before : List Packet} {p : Packet} (inv : Inv env before s) (mem : p ∈ s.acted) :
    ∃ wire ∈ s.endpoint.decoded, wire.type = p.type ∧ Normal env wire p := by
  obtain ⟨wire, source, normal⟩ := normal_source inv.normal (List.mem_append_left _ mem)
  refine ⟨wire, ?_, (Codecs.decompressPacket_header normal).1.symm, normal⟩
  rcases inv.halts with same | halted
  · rwa [same]
  · obtain ⟨last, decoded, _⟩ := halted.fault
    rw [decoded]
    exact List.mem_append_left _ source

/-- Every packet that the read loop acts on in a modest run is light. -/
lemma Kept.acted {before : List Packet} (kept : Kept env s) (inv : Inv env before s) :
    ∀ p ∈ s.acted, (p.payload.size : Int) ≤ env.config.maxPayloadLength := by
  intro p mem
  obtain ⟨wire, decoded, _, normal⟩ := acted_source inv mem
  exact kept.decoded wire decoded p normal

/-- In a modest run the read loop has acted on no message, or on no request. -/
lemma Kept.acted_queue {before : List Packet} (kept : Kept env s) (inv : Inv env before s) :
    s.acted.filter (·.type = .oneWay) = [] ∨ s.acted.filter (·.type = .request) = [] := by
  refine kept.queue.imp (fun none => ?_) fun none => ?_ <;>
    · refine List.filter_eq_nil_iff.mpr fun p mem => ?_
      obtain ⟨wire, decoded, type, _⟩ := acted_source inv mem
      simpa [← type] using none wire decoded

/-- A list of light payloads. -/
lemma sum_sizes_le {α : Type} {size : α → Nat} {l : List α} {k : Nat} (light : ∀ a ∈ l, size a ≤ k) :
    (l.map size).sum ≤ l.length * k := by
  have le := List.sum_le_card_nsmul (l.map size) k (by simpa using light)
  simpa using le

/-- In a modest run the bytes held on the inbound side stay within the documented ceiling. -/
theorem bytes_le_ceiling (capacity : 0 ≤ env.config.inboundCapacity)
    (inFlight : 0 ≤ env.config.maxInFlightRequests) (payload : 0 ≤ env.config.maxPayloadLength)
    (run : Runs.Reach (step env) (Modest env) (.new env) s) :
    (s.bytes : Int) ≤ ceiling env.config := by
  have free : Runs.Reach (step env) Runs.always (.new env) s := run.mono fun _ _ _ => trivial
  have kept := Kept.reach inFlight run
  obtain ⟨before, inv⟩ := Inv.reach free
  obtain ⟨k, size⟩ := Int.eq_ofNat_of_zero_le payload
  have small : ∀ p ∈ s.acted, p.payload.size ≤ k := fun p mem => by
    have := kept.acted inv p mem
    omega
  -- the requests in the queue are among those acted on, and there is room for `inboundCapacity`
  obtain ⟨_, l, contents⟩ := ReactorQueue.Contents.of_reach (endpoint_inv free).queue
  have sent : l ⊆ s.acted.filter (·.type = .request) := by
    intro p mem
    rw [← inv.sent, ← contents.fifo]
    exact List.mem_append_right _ (List.mem_append_right _ mem)
  have queued : (s.endpoint.requests.items.toList.map fun p => p.payload.size).sum ≤ l.length * k := by
    rw [contents.holds.toList]
    exact sum_sizes_le fun p mem => small p (List.mem_filter.mp (sent mem)).1
  have room := contents.bound capacity
  -- so are the messages in the channel
  obtain ⟨delivered, fits⟩ := Buffered.reach free
  rw [inv.delivered] at delivered
  have emitted : (s.events.buffer.map fun m => m.payload.size).sum ≤ s.events.buffer.length * k := by
    refine sum_sizes_le fun m mem => ?_
    obtain ⟨p, acted, rfl⟩ := List.mem_map.mp (delivered mem)
    exact small p (List.mem_filter.mp acted).1
  have buffered := fits _ (eventsKind_bounded capacity)
  have shared : (l.length + s.events.buffer.length : Int) ≤ env.config.inboundCapacity := by
    rcases kept.acted_queue inv with none | none
    · rw [none, List.map_nil] at delivered
      rw [List.subset_nil.mp delivered, List.length_nil]
      omega
    · rw [none] at sent
      rw [List.subset_nil.mp sent, List.length_nil]
      omega
  -- every held response was acted on
  have held : s.endpoint.conn.heldBytes ≤ s.endpoint.conn.holding * k := by
    refine tally_le_mul fun i _ => ?_
    rcases held : (s.endpoint.conn.calls i).held with _ | p
    · simp
    · have mem := (Answered.reach free i p (Call.response_of_held held)).1
      simpa using small p mem
  have capped := kept.capped
  have bytes : s.bytes ≤ (l.length + s.events.buffer.length + s.endpoint.conn.holding) * k := by
    rw [bytes, Nat.add_mul, Nat.add_mul]
    omega
  have count : (l.length + s.events.buffer.length + s.endpoint.conn.holding : Int) ≤
      env.config.inboundCapacity + env.config.maxInFlightRequests := by omega
  calc (s.bytes : Int)
      ≤ (l.length + s.events.buffer.length + s.endpoint.conn.holding : Int) * k := by
        exact_mod_cast bytes
    _ ≤ (env.config.inboundCapacity + env.config.maxInFlightRequests) * k :=
        Int.mul_le_mul_of_nonneg_right count (Int.natCast_nonneg k)
    _ = ceiling env.config := by rw [ceiling, size]

/-- A packet that comes uncompressed, after none that uses another queue. -/
lemma Modest.decode {wire : Packet} {rest : List UInt8}
    (source : env.framing.decode env.config.maxPayloadLength s.endpoint.readBuf = .ok (some wire, rest))
    (joins : Joins s.endpoint.decoded wire) (unmarked : wire.compression = .none) :
    Modest env s (.endpoint .decode) where
  wire _ other rest' decoded := by
    rw [source] at decoded
    cases decoded
    exact ⟨joins, fun marked => absurd unmarked marked⟩
  slots ev event := by cases event

/-- A response that waits for its caller, and a message in the channel. -/
theorem bytes_le_ceiling_two : ∃ s,
    Runs.Reach (step (.tight .inline)) (Modest (.tight .inline)) (.new (.tight .inline)) s ∧
    s.endpoint.decoded.map Packet.type = [.response, .oneWay] ∧ s.bytes = 2 ∧
    (s.bytes : Int) ≤ ceiling (Env.tight .inline).config := by
  let start : List InboundEvent := [.endpoint (.conn .requestOne), .endpoint (.read
    (PacketCodec.encode (packet .response .none) ++ PacketCodec.encode (packet .oneWay .none)))]
  let source (s : Inbound) := (s.endpoint.decoded,
    Framing.packets.decode PacketCodec.DEFAULT_MAX_PAYLOAD s.endpoint.readBuf)
  have ran : ((Runs.exec (step (.tight .inline)) (.new (.tight .inline))
      (start ++ [.endpoint .decode, .endpoint .decode])).map
      fun s => (s.endpoint.decoded.map Packet.type, s.bytes)) =
      some ([.response, .oneWay], 2) := by decide
  have first : ((Runs.exec (step (.tight .inline)) (.new (.tight .inline)) start).map source) =
      some ([], .ok (some (packet .response .none), PacketCodec.encode (packet .oneWay .none))) := by
    decide
  have second : ((Runs.exec (step (.tight .inline)) (.new (.tight .inline))
      (start ++ [.endpoint .decode])).map source) =
      some ([packet .response .none], .ok (some (packet .oneWay .none), [])) := by decide
  obtain ⟨s, exec, facts⟩ := Option.map_eq_some_iff.mp ran
  simp only [Prod.mk.injEq] at facts
  have guarded : Runs.Guarded (step (.tight .inline)) (Modest (.tight .inline))
      (.new (.tight .inline)) (start ++ [.endpoint .decode, .endpoint .decode]) := by
    refine ⟨⟨by simp, fun _ _ _ _ => rfl⟩, fun s₁ st₁ => ⟨⟨by simp, by simp⟩, fun s₂ st₂ => ⟨?_,
      fun s₃ st₃ => ⟨?_, fun _ _ => trivial⟩⟩⟩⟩
    · simp only [start, Runs.exec, st₁, Option.bind_some, st₂, Option.map_some, source,
        Option.some.injEq, Prod.mk.injEq] at first
      exact .decode first.2 ⟨by simp [packet], by simp [packet]⟩ rfl
    · simp only [start, List.cons_append, List.nil_append, Runs.exec, st₁, Option.bind_some, st₂, st₃,
        Option.map_some, source, Option.some.injEq, Prod.mk.injEq] at second
      exact .decode second.2 ⟨by simp [second.1, packet], by simp [packet]⟩ rfl
  have reach := Runs.reach_of_exec exec guarded
  exact ⟨s, reach, facts.1, facts.2, bytes_le_ceiling (by decide) (by decide) (by decide) reach⟩

end Inbound

end MsgTrans
