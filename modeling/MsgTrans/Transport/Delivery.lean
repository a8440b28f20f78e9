import MsgTrans.Connection.Outbox
import MsgTrans.Transport.Agreement
import MsgTrans.Transport.InboundAdmission

/-!
# Packets are delivered in order, once each, and none is skipped

Two endpoints with their event channels over two byte streams. What the read loop of one of them has acted
on are the first packets that the other one has put on its outbound path, in their order and in plain; so
what its `events()` give out are the messages of different `send`s, in the order in which these have put
them on the path. Once both streams are at rest every `send` that has returned has been delivered.
-/

namespace MsgTrans

/-- Two endpoints with their events, joined by two streams. -/
def Dialogue := Bool → Inbound

namespace Dialogue

/-- Two started connections. -/
def new (env : Bool → Env) : Dialogue := fun side => .new (env side)

/-- The endpoints and the streams between them. -/
def net (d : Dialogue) : Net := fun side => (d side).endpoint

/-- What an endpoint reads is the next part of what its peer has transmitted. -/
def delivers (d : Dialogue) (side : Bool) : InboundEvent → Bool
  | .endpoint e => d.net.delivers side e
  | .collect | .collectorCancelled => true

/-- One endpoint has moved. -/
def set (side : Bool) (s : Inbound) (d : Dialogue) : Dialogue :=
  fun other => if other = side then s else d other

/-- One step of one of the two endpoints. -/
def step (env : Bool → Env) (d : Dialogue) (e : Bool × InboundEvent) : Option Dialogue :=
  if d.delivers e.1 e.2 then
    ((d e.1).step (env e.1) e.2).map fun s => d.set e.1 s
  else none

variable {env : Bool → Env} {d d' : Dialogue} {side : Bool}

/-- A step of a side is a step of its endpoint, or leaves the endpoint as it is. -/
lemma step_net {e : Bool × InboundEvent} (st : d.step env e = some d') :
    d'.net = d.net ∨ ∃ ev, d.net.step env (e.1, ev) = some d'.net := by
  obtain ⟨delivers, st⟩ := Option.ite_none_right_eq_some.mp st
  obtain ⟨s, moved, rfl⟩ := Option.map_eq_some_iff.mp st
  have rests (same : s.endpoint = (d e.1).endpoint) : (d.set e.1 s).net = d.net := by
    funext other
    simp only [net, set]
    split
    case isTrue eq => rw [same, eq]
    case isFalse => rfl
  obtain ⟨side, e⟩ := e
  cases e with
  | endpoint ev =>
    obtain ⟨_, moved⟩ := Option.ite_none_right_eq_some.mp moved
    obtain ⟨x, fires, rfl⟩ := Option.map_eq_some_iff.mp moved
    refine .inr ⟨ev, ?_⟩
    have same : ((d.net side).step (env side) ev) = some x := fires
    rw [Net.step, if_pos (show d.net.delivers side ev = true from delivers), same, Option.map_some]
    refine congrArg some (funext fun other => ?_)
    simp only [Net.set, net, set]
    split
    case isTrue => exact (Inbound.follow_endpoint _ _ _ _).symm
    case isFalse => rfl
  | collect =>
    cases moved
    exact .inl (rests rfl)
  | collectorCancelled =>
    obtain ⟨_, moved⟩ := Option.ite_none_right_eq_some.mp moved
    cases moved
    exact .inl (rests rfl)

/-- Each side runs as it would alone. -/
lemma step_side {e : Bool × InboundEvent} (st : d.step env e = some d') (side : Bool) :
    d' side = d side ∨ (d side).step (env side) e.2 = some (d' side) := by
  obtain ⟨_, st⟩ := Option.ite_none_right_eq_some.mp st
  obtain ⟨s, moved, rfl⟩ := Option.map_eq_some_iff.mp st
  by_cases eq : side = e.1
  · subst eq
    exact .inr (by simpa [set] using moved)
  · exact .inl (by simp [set, eq])

/-- What holds of a dialogue: of its endpoints and streams, and of each side alone. -/
structure Inv (env : Bool → Env) (d : Dialogue) : Prop where
  net : Net.Inv env d.net
  sides : ∀ side, Runs.Reach (Inbound.step (env side)) Runs.always (.new (env side)) (d side)

/-- The invariant holds in every run. -/
lemma Inv.reach (compatible : Net.Compatible env)
    (run : Runs.Reach (step env) Runs.always (new env) d) : Inv env d := by
  refine run.invariant ⟨.new env, fun _ => .start⟩ fun d e d' inv _ st => ⟨?_, fun side => ?_⟩
  · rcases step_net st with same | ⟨ev, st⟩
    · exact same ▸ inv.net
    · exact inv.net.step compatible st
  · rcases step_side st side with same | st
    · exact same ▸ inv.sides side
    · exact .next (inv.sides side) trivial st

/-- The packet is what call `i` of `conn` was made with, in plain. -/
structure Utters (conn : Conn) (i : Nat) (p : Packet) : Prop where
  type : (conn.calls i).kind.packetType = some p.type
  bizType : p.bizType = (conn.calls i).bizType
  payload : p.payload = (conn.calls i).payload

/-- The event that call `i` of `conn` sends. -/
def message (conn : Conn) (i : Nat) : EventMessage :=
  ⟨(conn.calls i).bizType, (conn.calls i).payload⟩

/-- The calls that send events are those whose packet is one-way. -/
lemma Utters.oneWay_iff {conn : Conn} {i : Nat} {p : Packet} (utters : Utters conn i p) :
    (conn.calls i).kind = .oneWay ↔ p.type = .oneWay := by
  have type := utters.type
  cases kind : (conn.calls i).kind <;> simp [kind, CallKind.packetType] at type <;> simp [← type]

/-- The event of a packet is the one its call sends. -/
lemma Utters.message {conn : Conn} {i : Nat} {p : Packet} (utters : Utters conn i p) :
    p.eventMessage = message conn i := by
  rw [Packet.eventMessage, utters.bizType, utters.payload]
  rfl

/-- The messages of the calls are those of the packets. -/
lemma messages_eq {conn : Conn} {calls : List Nat} {packets : List Packet}
    (utters : List.Forall₂ (Utters conn) calls packets) :
    (packets.filter (·.type = .oneWay)).map Packet.eventMessage =
      (calls.filter fun i => (conn.calls i).kind = .oneWay).map (message conn) := by
  induction utters with
  | nil => rfl
  | @cons i p calls packets head _ ih =>
    by_cases oneWay : p.type = .oneWay
    · rw [List.filter_cons_of_pos (by simpa using oneWay),
        List.filter_cons_of_pos (by simpa using head.oneWay_iff.mpr oneWay), List.map_cons,
        List.map_cons, ih, head.message]
    · have other : (conn.calls i).kind ≠ .oneWay := fun kind => oneWay (head.oneWay_iff.mp kind)
      rw [List.filter_cons_of_neg (by simpa using oneWay), List.filter_cons_of_neg (by simpa using other),
        ih]

/-- Two relations of lists compose. -/
lemma forall₂_comp {α β γ : Type*} {R : α → β → Prop} {S : β → γ → Prop} {T : α → γ → Prop}
    {as : List α} {bs : List β} {cs : List γ} (first : List.Forall₂ R as bs)
    (second : List.Forall₂ S bs cs) (comp : ∀ a b c, R a b → S b c → T a c) :
    List.Forall₂ T as cs := by
  induction first generalizing cs with
  | nil =>
    cases second
    exact .nil
  | cons head _ ih =>
    cases second with
    | cons head' tail => exact .cons (comp _ _ _ head head') (ih tail)

/-- A packet that a call made and its peer has normalized is what the call was made with. -/
lemma utters {sender receiver : Env} {conn : Conn} {i : Nat} {wire p : Packet}
    (restores : receiver.codecs.Restores sender.codecs) (bears : (conn.calls i).Bears sender wire)
    (normal : Inbound.Normal receiver wire p) : Utters conn i p := by
  obtain ⟨payload, type, _, bizType⟩ := restores.packet bears.payload normal
  exact ⟨type ▸ bears.type, bizType.trans bears.bizType, payload⟩

/-- The packets that the read loop has taken are the first ones of the peer's path. -/
lemma Inv.said {owners : List Nat} {before : List Packet} (compatible : Net.Compatible env)
    (inv : Inv env d) (own : Inbound.Inv (env side) before (d side))
    (box : Conn.Outbox (env !side) owners (d !side).endpoint.conn) :
    List.Forall₂ (Utters (d !side).endpoint.conn) (owners.take before.length)
      ((d side).acted ++ (d side).unsent) := by
  have taken : before <+: (d side).endpoint.decoded := by
    rcases own.halts with same | ⟨⟨wire, decoded, _⟩, _⟩
    · exact same ▸ List.prefix_rfl
    · exact decoded ▸ List.prefix_append _ _
  have path : before <+: (d !side).endpoint.conn.path :=
    (taken.trans (inv.net.link side).decoded).trans (List.prefix_append _ _)
  have carried := List.forall₂_take before.length box.carried
  rw [← List.prefix_iff_eq_take.mp path] at carried
  exact forall₂_comp carried own.normal fun _ _ _ bears normal =>
    utters (compatible.codecs side) bears normal

/-- What the read loop of either side has acted on are, in order, the first packets that calls of the
other side have put on its outbound path, as those calls were made; the messages that its `events()` give
out are those of the `send`s among them. -/
theorem messages_in_order (compatible : Net.Compatible env)
    (run : Runs.Reach (step env) Runs.always (new env) d) (side : Bool) :
    ∃ owners, Conn.Outbox (env !side) owners (d !side).endpoint.conn ∧
      List.Forall₂ (Utters (d !side).endpoint.conn) (owners.take (d side).acted.length) (d side).acted ∧
      (d side).events.delivered = ((owners.take (d side).acted.length).filter fun i =>
        ((d !side).endpoint.conn.calls i).kind = .oneWay).map (message (d !side).endpoint.conn) := by
  have inv := Inv.reach compatible run
  obtain ⟨before, own⟩ := Inbound.Inv.reach (inv.sides side)
  obtain ⟨_, owners, box, _⟩ := Conn.Outbox.init.grows .init (inv.net.ends !side).conn
  have said := inv.said compatible own box
  have acted := List.forall₂_take (d side).acted.length said
  have length : (d side).acted.length ≤ before.length := by
    rw [own.normal.length_eq, List.length_append]
    exact Nat.le_add_right _ _
  rw [List.take_left, List.take_take, Nat.min_eq_left length] at acted
  exact ⟨owners, box, acted, own.delivered.trans (messages_eq acted)⟩

/-- The peer decodes the first of two messages. -/
theorem messages_in_order_first : ∃ d, Runs.Reach (step fun _ => .tight .inline) Runs.always
      (new fun _ => .tight .inline) d ∧ (d false).acted.length = 1 ∧
    ∃ owners, Conn.Outbox (.tight .inline) owners (d true).endpoint.conn ∧
      List.Forall₂ (Utters (d true).endpoint.conn) (owners.take 1) (d false).acted := by
  have ran : ((Runs.exec (step fun _ => .tight .inline) (new fun _ => .tight .inline)
      [(true, .endpoint (.conn .sendOne)), (true, .endpoint (.conn .sendOne)),
        (true, .endpoint (.conn (.transmit 0 17))),
        (false, .endpoint (.read (PacketCodec.encode (Net.sample .oneWay)))),
        (false, .endpoint .decode)]).map fun d => (d false).acted.length) = some 1 := by decide
  obtain ⟨d, exec, length⟩ := Option.map_eq_some_iff.mp ran
  have reach := Runs.reach_always_of_exec exec
  have compatible : Net.Compatible fun _ => .tight .inline :=
    ⟨fun _ => rfl, fun _ => Codecs.stored_restores⟩
  obtain ⟨owners, box, said, _⟩ := messages_in_order compatible reach false
  rw [length] at said
  exact ⟨d, reach, length, owners, box, said⟩

/-- Nothing is on its way to `side`: its peer has written and transmitted all that is on its path, and
the read loop of `side` has read, decoded and passed on all of it. -/
structure AtRest (d : Dialogue) (side : Bool) : Prop where
  opened : (d side).endpoint.conn.closed = false
  queue : (d !side).endpoint.conn.sendQueue = []
  buffer : (d !side).endpoint.conn.outbound.buffer = []
  written : (d !side).endpoint.conn.writeBuf = []
  arrived : (d side).endpoint.arrived = (d !side).endpoint.conn.transmitted
  decoded : (d side).endpoint.readBuf = []
  passed : (d side).unsent = []

/-- All that the peer has written has been decoded. -/
lemma Inv.decoded_all (compatible : Net.Compatible env) (inv : Inv env d) (rest : AtRest d side) :
    (d side).endpoint.decoded = (d !side).endpoint.conn.written := by
  have link := inv.net.link side
  have framed := Conn.framed (inv.net.ends !side).conn
  obtain ⟨more, written⟩ := link.decoded
  have bytes : (d side).endpoint.decoded.flatMap (env side).framing.encode =
      (d !side).endpoint.conn.written.flatMap (env side).framing.encode := by
    have arrived : (d side).endpoint.decoded.flatMap (env side).framing.encode =
        (d side).endpoint.arrived := by
      have bytes := link.bytes
      rwa [show (d.net side).readBuf = [] from rest.decoded, List.append_nil] at bytes
    rw [arrived, rest.arrived, ← compatible.framing side]
    rwa [show (d.net !side).conn.writeBuf = [] from rest.written, List.append_nil] at framed
  rw [show (d !side).endpoint.conn.written = (d side).endpoint.decoded ++ more from written.symm,
    List.flatMap_append] at bytes
  have bytes := List.append_right_eq_self.mp bytes.symm
  have none : more = [] := by
    cases more with
    | nil => rfl
    | cons p more =>
      rw [List.flatMap_cons, List.append_eq_nil_iff] at bytes
      exact absurd bytes.1 ((env side).framing.encode_ne_nil p)
  rw [none, List.append_nil] at written
  exact written

/-- When nothing is on its way to a side, its `events()` have been given the message of every `send` of
the open connection at the other side that has returned: exactly the messages of the calls in the queue,
in its order. A conflated channel is left out, since it replaces a queued packet by the next one. -/
theorem nothing_lost (compatible : Net.Compatible env)
    (run : Runs.Reach (step env) Runs.always (new env) d) (rest : AtRest d side)
    (opened : (d !side).endpoint.conn.closed = false)
    (kind : (env !side).config.outboundKind ≠ .conflated) :
    ∃ owners, Conn.Outbox (env !side) owners (d !side).endpoint.conn ∧
      (d side).events.delivered = (owners.filter fun i =>
        ((d !side).endpoint.conn.calls i).kind = .oneWay).map (message (d !side).endpoint.conn) ∧
      ∀ i, ((d !side).endpoint.conn.calls i).kind = .oneWay →
        ((d !side).endpoint.conn.calls i).pc = .ended .done → i ∈ owners := by
  have inv := Inv.reach compatible run
  obtain ⟨before, own⟩ := Inbound.Inv.reach (inv.sides side)
  obtain ⟨_, owners, box, _⟩ := Conn.Outbox.init.grows .init (inv.net.ends !side).conn
  have box : Conn.Outbox (env !side) owners (d !side).endpoint.conn := box
  have said := inv.said compatible own box
  have all : before = (d !side).endpoint.conn.path := by
    have decoded := inv.decoded_all compatible rest
    rcases own.halts with same | halted
    · rw [← same, decoded, Conn.path, rest.queue, rest.buffer, List.append_nil, List.append_nil]
    · have closed := halted.closed
      rw [rest.opened] at closed
      cases closed
  rw [rest.passed, List.append_nil, all, ← box.carried.length_eq, List.take_length] at said
  refine ⟨owners, box, own.delivered.trans (messages_eq said), fun i oneWay returned => ?_⟩
  exact box.landed opened kind i ⟨.inl oneWay, .inr (.inr (.inl returned))⟩

/-- A message of one byte that has been delivered. -/
theorem nothing_lost_one : ∃ d, Runs.Reach (step fun _ => .tight .inline) Runs.always
      (new fun _ => .tight .inline) d ∧ (d false).events.delivered.length = 1 ∧
    ∃ owners : List Nat, (d false).events.delivered = (owners.filter fun i =>
      ((d true).endpoint.conn.calls i).kind = .oneWay).map (message (d true).endpoint.conn) := by
  have ran : ((Runs.exec (step fun _ => .tight .inline) (new fun _ => .tight .inline)
      [(true, .endpoint (.conn .sendOne)), (true, .endpoint (.conn (.transmit 0 17))),
        (true, .endpoint (.conn (.write 0 .ok))), (true, .endpoint (.conn (.flush 0 .ok))),
        (false, .endpoint (.read (PacketCodec.encode (Net.sample .oneWay)))),
        (false, .endpoint .decode)]).map fun d =>
      decide ((d false).events.delivered.length = 1 ∧ (d true).endpoint.conn.closed = false ∧
        (d false).endpoint.conn.closed = false ∧ (d true).endpoint.conn.sendQueue = [] ∧
        (d true).endpoint.conn.outbound.buffer = [] ∧ (d true).endpoint.conn.writeBuf = [] ∧
        (d false).endpoint.arrived = (d true).endpoint.conn.transmitted ∧
        (d false).endpoint.readBuf = [] ∧ (d false).unsent = [])) = some true := by decide
  obtain ⟨d, exec, facts⟩ := Option.map_eq_some_iff.mp ran
  obtain ⟨length, there, here, queue, buffer, written, arrived, decoded, passed⟩ :=
    of_decide_eq_true facts
  have reach := Runs.reach_always_of_exec exec
  have compatible : Net.Compatible fun _ => .tight .inline :=
    ⟨fun _ => rfl, fun _ => Codecs.stored_restores⟩
  have rest : AtRest d false := ⟨here, queue, buffer, written, arrived, decoded, passed⟩
  obtain ⟨owners, _, delivered, _⟩ := nothing_lost compatible reach rest there (by decide)
  exact ⟨d, reach, length, owners, delivered⟩

end Dialogue

end MsgTrans
