import MsgTrans.Connection.Bytes
import MsgTrans.Connection.Outcome
import MsgTrans.Transport.Serving

/-!
# Requests and responses agree end to end

Two endpoints over two byte streams. The packets an endpoint has decoded are the first ones that its
peer has encoded, so each request reaches the peer's handler loop at most once and as it was made; an
answer carries the id of the request it answers, and ids are never used twice, so a request returns
what the one run for it returned.
-/

namespace MsgTrans

/-- What `receiver` restores from what `sender` has compressed is what was given; a decompression that
exceeds its output limit fails. -/
def Codecs.Restores (receiver sender : Codecs) : Prop :=
  ∀ payload compression limit restored,
    receiver.decompress (sender.compress payload compression) compression limit = .ok restored →
    restored = payload

/-- Codecs that store restore what they have stored. -/
lemma Codecs.stored_restores : Codecs.Restores ⟨.stored, .stored⟩ ⟨.stored, .stored⟩ := by
  intro payload compression limit restored decompressed
  unfold Codecs.decompress at decompressed
  split at decompressed
  case isTrue => cases decompressed
  case isFalse =>
    cases compression <;> simp only [Codecs.compress, Codec.stored, id] at decompressed
    case none =>
      cases decompressed
      rfl
    all_goals
      split at decompressed <;> cases decompressed
      rfl

/-- The normalized packet is the one that was made, with its payload in plain. -/
lemma Codecs.Restores.packet {receiver : Codecs} {env : Env} {p q : Packet} {payload : KBytes}
    {limit : Int} (restores : receiver.Restores env.codecs)
    (prepared : Conn.prepareOutboundPayload env payload p.compression = .ok p.payload)
    (normal : receiver.decompressPacket p limit = .ok q) :
    q.payload = payload ∧ q.type = p.type ∧ q.messageId = p.messageId ∧ q.bizType = p.bizType := by
  unfold Conn.prepareOutboundPayload at prepared
  split at prepared
  case isTrue => cases prepared
  case isFalse =>
    simp only [Except.ok.injEq] at prepared
    unfold Codecs.decompressPacket at normal
    split at normal
    case isTrue none =>
      cases normal
      rw [none] at prepared
      exact ⟨prepared.symm, rfl, rfl, rfl⟩
    case isFalse =>
      split at normal
      case h_1 restored decompressed =>
        cases normal
        rw [← prepared] at decompressed
        exact ⟨restores _ _ _ _ decompressed, rfl, rfl, rfl⟩
      case h_2 => cases normal

namespace Endpoint

variable {env peerEnv : Env} {x x' y : Endpoint}

/-! ## The stream between two endpoints -/

/-- A change of the connection reads nothing. -/
lemma withConn_reads (conn : Conn) (x : Endpoint) :
    (x.withConn conn).arrived = x.arrived ∧ (x.withConn conn).readBuf = x.readBuf ∧
      (x.withConn conn).decoded = x.decoded := by
  unfold withConn
  split <;> exact ⟨rfl, rfl, rfl⟩

/-- What `x` has read is what its peer's connection `conn` has transmitted, up to some point, and the
packets it has decoded are the first ones that the peer has encoded. -/
structure Link (framing : Framing) (conn : Conn) (x : Endpoint) : Prop where
  arrived : x.arrived <+: conn.transmitted
  bytes : x.decoded.flatMap framing.encode ++ x.readBuf = x.arrived
  decoded : x.decoded <+: conn.written

namespace Link

variable {framing : Framing} {conn conn' : Conn}

/-- A peer that writes more keeps the link. -/
lemma grows (link : Link framing conn x) (transmitted : conn.transmitted <+: conn'.transmitted)
    (written : conn.written <+: conn'.written) : Link framing conn' x :=
  ⟨link.arrived.trans transmitted, link.bytes, link.decoded.trans written⟩

/-- The next packet in the buffer is the next one that the peer has encoded. -/
lemma takes {max : Int} {wire : Packet} {rest : List UInt8} (link : Link framing conn x)
    (bytes : conn.transmitted ++ conn.writeBuf = conn.written.flatMap framing.encode)
    (plain : ∀ p ∈ conn.written, p.extHeader = .empty)
    (decode : framing.decode max x.readBuf = .ok (some wire, rest)) :
    (x.decoded ++ [wire]).flatMap framing.encode ++ rest = x.arrived ∧
      x.decoded ++ [wire] <+: conn.written := by
  obtain ⟨admits, buf⟩ := Framing.decode_some_iff.mp decode
  have same : (x.decoded ++ [wire]).flatMap framing.encode ++ rest = x.arrived := by
    rw [← link.bytes, buf]
    simp
  refine ⟨same, ?_⟩
  obtain ⟨later, arrived⟩ := link.arrived
  obtain ⟨next, written⟩ := link.decoded
  -- the packet is in front of what the peer has encoded after the decoded ones
  have front : framing.encode wire ++ (rest ++ (later ++ conn.writeBuf)) =
      next.flatMap framing.encode := by
    have whole : x.decoded.flatMap framing.encode ++ (framing.encode wire ++
        (rest ++ (later ++ conn.writeBuf))) =
        x.decoded.flatMap framing.encode ++ next.flatMap framing.encode := by
      rw [← List.flatMap_append, written, ← bytes, ← arrived, ← same]
      simp
    exact List.append_cancel_left whole
  cases next with
  | nil =>
    have empty := List.append_eq_nil_iff.mp front
    exact absurd empty.1 (framing.encode_ne_nil wire)
  | cons q next =>
    have ext : q.extHeader.size ≤ 0xFFFF := by
      rw [plain q (by simp [← written])]
      decide
    obtain ⟨rfl, _⟩ := Framing.encode_inj admits.1 ext front
    exact ⟨next, by simp [← written]⟩

/-- A move of the reader keeps the link. -/
lemma move (link : Link env.framing conn x) (h : Move env x x')
    (bytes : conn.transmitted ++ conn.writeBuf = conn.written.flatMap env.framing.encode)
    (plain : ∀ p ∈ conn.written, p.extHeader = .empty) : Link env.framing conn x' := by
  have rests : ∀ {u : Endpoint} {c : Conn}, Link env.framing conn u →
      Link env.framing conn (u.withConn c) := by
    intro u c link
    obtain ⟨arrived, readBuf, decoded⟩ := withConn_reads c u
    exact ⟨arrived ▸ link.arrived, by rw [arrived, readBuf, decoded, link.bytes],
      decoded ▸ link.decoded⟩
  cases h with
  | conn _ _ | response _ _ _ _ => exact rests link
  | responds _ _ _ _ => exact rests { link with }
  | takes decode =>
    obtain ⟨same, decoded⟩ := link.takes bytes plain decode
    exact ⟨link.arrived, same, decoded⟩
  | offers decode _ _ _ =>
    obtain ⟨same, decoded⟩ := link.takes bytes plain decode
    exact ⟨link.arrived, same, decoded⟩
  | _ => exact { link with }

end Link

/-! ## Stored responses -/

/-- Every response that a request of `conn` stores is what the run for it, among `runs`, returned. -/
def Stored (runs : List HandlerRun) (conn : Conn) : Prop :=
  ∀ i p, (conn.calls i).req.response = some p → (conn.calls i).kind = .request ∧
    ∃ run ∈ runs, run.request.messageId = (conn.calls i).req.id ∧ run.answer = some p.payload

/-- Runs that have returned stay, and with them what is stored. -/
lemma Stored.mono {runs runs' : List HandlerRun} {conn : Conn} (stored : Stored runs conn)
    (kept : ∀ run ∈ runs, run.answer ≠ none → run ∈ runs') : Stored runs' conn := by
  intro i p response
  obtain ⟨request, run, mem, id, answer⟩ := stored i p response
  exact ⟨request, run, kept run mem (by simp [answer]), id, answer⟩

/-- A step of the connection stores nothing but what the read loop gives it. -/
lemma Stored.step {runs : List HandlerRun} {conn conn' : Conn} {ev : Event} (stored : Stored runs conn)
    (reach : Runs.Reach (Conn.step env) Runs.always .init conn) (st : conn.step env ev = some conn')
    (given : ∀ p, ev = .response p →
      ∃ run ∈ runs, run.request.messageId = p.messageId ∧ run.answer = some p.payload) :
    Stored runs conn' := by
  have wf : conn.Wf := .reach reach
  have reg : conn.Reg := .reach (Conn.reach_unguarded reach)
  intro i p response
  have made : (conn.calls i).kind = .request → i < conn.next := wf.lt_of_request
  by_cases before : (conn.calls i).req.response = some p
  · obtain ⟨request, run⟩ := stored i p before
    have later := (Conn.Later.step wf st).call (made request)
    rw [later.kind, later.id]
    exact ⟨request, run⟩
  · obtain ⟨event, found⟩ := Conn.step_stores wf reg st before response
    have request := wf.registry _ i found
    have later := (Conn.Later.step wf st).call (made request)
    obtain ⟨run, mem, id, answer⟩ := given p event
    refine ⟨later.kind.trans request, run, mem, ?_, answer⟩
    rw [later.id, (reg.entry _ i found).1, id]

/-- A move of an endpoint stores what the runs of its peer have returned. -/
lemma Stored.move (restores : env.codecs.Restores peerEnv.codecs) (inv : Inv env x)
    (peer : Inv peerEnv y) (link : Link env.framing y.conn x) (stored : Stored y.runs x.conn)
    (h : Move env x x') : Stored y.runs x'.conn := by
  cases h with
  | conn free st =>
    rw [withConn_conn]
    exact stored.step inv.conn st fun p event => by simp [event] at free
  | responds _ _ _ st =>
    rw [withConn_conn]
    exact stored.step inv.conn st fun p event => by cases event
  | @response wire packet conn mem normal type st =>
    rw [withConn_conn]
    refine stored.step inv.conn st ?_
    rintro p ⟨⟩
    have held : y.conn.Holds wire := .written (link.decoded.subset mem)
    have typed := (Codecs.decompressPacket_header normal).1
    obtain ⟨run, ran, id, r, answer, prepared⟩ := peer.answers wire held (typed.symm.trans type)
    obtain ⟨payload, _, named, _⟩ := restores.packet prepared normal
    exact ⟨run, ran, id.trans named.symm, by rw [payload, answer]⟩
  | _ => exact stored

/-- What a peer relies on: bytes and packets are only added, and a run that has returned stays. -/
structure Grows (x x' : Endpoint) : Prop where
  transmitted : x.conn.transmitted <+: x'.conn.transmitted
  written : x.conn.written <+: x'.conn.written
  runs : ∀ run ∈ x.runs, run.answer ≠ none → run ∈ x'.runs

/-- Nothing was added. -/
lemma Grows.refl (x : Endpoint) : Grows x x :=
  ⟨List.prefix_rfl, List.prefix_rfl, fun _ mem _ => mem⟩

/-- Growing composes. -/
lemma Grows.trans {x'' : Endpoint} (h : Grows x x') (h' : Grows x' x'') : Grows x x'' :=
  ⟨h.transmitted.trans h'.transmitted, h.written.trans h'.written,
    fun run mem done => h'.runs run (h.runs run mem done) done⟩

/-- Every move only adds. -/
lemma Grows.move (inv : Inv env x) (h : Move env x x') : Grows x x' := by
  have steps : ∀ {ev : Event} {conn : Conn}, x.conn.step env ev = some conn →
      Grows x (x.withConn conn) := by
    intro ev conn st
    obtain ⟨transmitted, written, _⟩ := Conn.step_grows st
    refine ⟨?_, ?_, ?_⟩
    · rwa [withConn_conn]
    · rwa [withConn_conn]
    · rw [withConn_runs]
      exact fun _ mem _ => mem
  cases h with
  | conn _ st => exact steps st
  | response _ _ _ st => exact steps st
  | receives _ _ _ =>
    exact ⟨List.prefix_rfl, List.prefix_rfl, fun _ mem _ => List.mem_append_left _ mem⟩
  | @responds packet rs run response conn place runs _ st =>
    obtain ⟨transmitted, written, _⟩ := Conn.step_grows st
    refine ⟨?_, ?_, ?_⟩
    · rwa [withConn_conn]
    · rwa [withConn_conn]
    · rw [withConn_runs]
      exact fun run mem done => List.mem_append_left _ (inv.returned place runs run mem done)
  | _ => exact { Grows.refl x with }

/-- A step of an endpoint keeps its own invariant and what it shares with its peer. -/
lemma step_beside {e : EndpointEvent} (framing : peerEnv.framing = env.framing)
    (restores : env.codecs.Restores peerEnv.codecs) (peer : Inv peerEnv y) (inv : Inv env x)
    (link : Link env.framing y.conn x) (stored : Stored y.runs x.conn)
    (delivered : ∀ chunk, e = .read chunk → chunk <+: y.conn.transmitted.drop x.arrived.length)
    (st : x.step env e = some x') :
    Inv env x' ∧ Link env.framing y.conn x' ∧ Stored y.runs x'.conn ∧ Grows x x' := by
  have bytes : y.conn.transmitted ++ y.conn.writeBuf = y.conn.written.flatMap env.framing.encode := by
    rw [← framing]
    exact Conn.framed peer.conn
  have plain : ∀ p ∈ y.conn.written, p.extHeader = .empty := fun p mem =>
    (Conn.holds_checked peer.conn (.written mem)).1
  rcases step_moves st with ⟨chunk, rfl, rfl⟩ | moves
  · refine ⟨{ inv with }, ⟨?_, ?_, link.decoded⟩, stored, { Grows.refl x with }⟩
    · -- the chunk is what comes next
      obtain ⟨later, arrived⟩ := link.arrived
      have next := delivered chunk rfl
      rw [← arrived, List.drop_left] at next
      rw [← arrived]
      exact (List.prefix_append_right_inj _).mpr next
    · rw [← link.bytes, List.append_assoc]
  · refine Runs.star_preserves (P := fun x' => Inv env x' ∧ Link env.framing y.conn x' ∧
      Stored y.runs x'.conn ∧ Grows x x') (fun u v move held => ?_) moves
      ⟨inv, link, stored, .refl x⟩
    obtain ⟨inv, link, stored, grows⟩ := held
    exact ⟨inv.move move, link.move move bytes plain, .move restores inv peer link stored move,
      grows.trans (.move inv move)⟩

end Endpoint

namespace Net

variable {env : Bool → Env} {net net' : Net}

/-- The endpoints use one framing, and each restores what the other compresses. -/
structure Compatible (env : Bool → Env) : Prop where
  framing : ∀ side, (env !side).framing = (env side).framing
  codecs : ∀ side, (env side).codecs.Restores (env !side).codecs

/-- What holds of two endpoints and the streams between them. -/
structure Inv (env : Bool → Env) (net : Net) : Prop where
  ends : ∀ side, (net side).Inv (env side)
  link : ∀ side, Endpoint.Link (env side).framing (net !side).conn (net side)
  stored : ∀ side, Endpoint.Stored (net !side).runs (net side).conn

/-- Two new endpoints. -/
lemma Inv.new (env : Bool → Env) : Inv env (.new env) where
  ends side := .new (env side)
  link side := ⟨List.prefix_rfl, rfl, List.prefix_rfl⟩
  stored side i p response := by cases response

/-- Every step of either endpoint keeps the invariant. -/
lemma Inv.step {e : Bool × EndpointEvent} (compatible : Compatible env) (inv : Inv env net)
    (st : net.step env e = some net') : Inv env net' := by
  obtain ⟨side, e⟩ := e
  obtain ⟨delivers, moved⟩ := Option.ite_none_right_eq_some.mp st
  obtain ⟨x', fires, rfl⟩ := Option.map_eq_some_iff.mp moved
  have delivered : ∀ chunk, e = .read chunk →
      chunk <+: (net !side).conn.transmitted.drop (net side).arrived.length := by
    rintro chunk rfl
    exact List.isPrefixOf_iff_prefix.mp delivers
  obtain ⟨own, link, stored, grows⟩ := Endpoint.step_beside (compatible.framing side)
    (compatible.codecs side) (inv.ends !side) (inv.ends side) (inv.link side) (inv.stored side)
    delivered fires
  have both : ∀ {P : Bool → Prop}, P side → P (!side) → ∀ other, P other := by
    intro P here there other
    cases side <;> cases other <;> assumption
  refine ⟨both ?_ ?_, both ?_ ?_, both ?_ ?_⟩
  · rwa [set_self]
  · rw [set_peer]
    exact inv.ends !side
  · rwa [set_self, set_peer]
  · -- its peer sees the endpoint grow
    have before := inv.link !side
    rw [Bool.not_not] at before
    rw [set_peer, Bool.not_not, set_self]
    exact before.grows grows.transmitted grows.written
  · rwa [set_self, set_peer]
  · have before := inv.stored !side
    rw [Bool.not_not] at before
    rw [set_peer, Bool.not_not, set_self]
    exact before.mono grows.runs

/-- The invariant holds in every run of the two endpoints. -/
lemma Inv.reach (compatible : Compatible env)
    (run : Runs.Reach (Net.step env) Runs.always (.new env) net) : Inv env net :=
  run.invariant (.new env) fun _ _ _ inv _ st => inv.step compatible st

/-! ## Agreement -/

/-- The runs of an endpoint's handler for the request `id` of its peer. -/
def runsFor (net : Net) (side : Bool) (id : UInt32) : List HandlerRun :=
  (net side).runs.filter fun run => run.request.messageId = id

/-- The requests that an endpoint has run its handler for are among those it has decoded. -/
lemma Inv.ran {side : Bool} (inv : Inv env net) :
    ((net side).runs.map HandlerRun.request).Sublist
      (Endpoint.accepted (env side) (net side).decoded) := by
  have own := inv.ends side
  obtain ⟨_, l, contents⟩ := ReactorQueue.Contents.of_reach own.queue
  rw [own.runs]
  refine List.Sublist.trans ?_ own.offered
  rw [← contents.fifo, List.append_assoc]
  exact List.sublist_append_left _ _

/-- A run is for a request of the peer, with the payload and the biz type it was made with. -/
lemma Inv.origin {side : Bool} {run : HandlerRun} (compatible : Compatible env) (inv : Inv env net)
    (mem : run ∈ (net !side).runs) : ∃ i, ((net side).conn.calls i).kind = .request ∧
      ((net side).conn.calls i).req.id = run.request.messageId ∧
      ((net side).conn.calls i).req.id ≠ 0 ∧
      run.request.payload = ((net side).conn.calls i).payload ∧
      run.request.bizType = ((net side).conn.calls i).bizType := by
  obtain ⟨wire, decoded, normal, type⟩ :=
    Endpoint.mem_accepted (inv.ran.subset (List.mem_map_of_mem mem))
  have link := inv.link !side
  rw [Bool.not_not] at link
  have restores := compatible.codecs !side
  rw [Bool.not_not] at restores
  have path : wire ∈ (net side).conn.path := List.mem_append_left _ (link.decoded.subset decoded)
  obtain ⟨i, request, carries⟩ := (Conn.Requests.reach (inv.ends side).conn).owner wire path type
  obtain ⟨payload, _, named, bizType⟩ := restores.packet carries.payload normal
  exact ⟨i, request, carries.id.symm.trans named.symm, carries.nonzero, payload,
    bizType.trans carries.bizType⟩

/-- The handler runs at most once for each id. -/
lemma Inv.once {side : Bool} (inv : Inv env net) (id : UInt32) :
    (net.runsFor (!side) id).length ≤ 1 := by
  have link := inv.link !side
  rw [Bool.not_not] at link
  calc (net.runsFor (!side) id).length
      = ((net !side).runs.map HandlerRun.request).countP (fun p => p.messageId = id) := by
        rw [runsFor, ← List.countP_eq_length_filter, List.countP_map]
        rfl
    _ ≤ (Endpoint.accepted (env !side) (net !side).decoded).countP (fun p => p.messageId = id) :=
        inv.ran.countP_le
    _ ≤ (net !side).decoded.countP (Packet.asks id) := Endpoint.accepted_countP _ id
    _ ≤ (net side).conn.written.countP (Packet.asks id) := link.decoded.sublist.countP_le
    _ ≤ (net side).conn.path.countP (Packet.asks id) := (List.sublist_append_left _ _).countP_le
    _ ≤ 1 := (Conn.Requests.reach (inv.ends side).conn).once id

/-- Whatever the two endpoints do, in any order: a request that returns `r` has been run exactly once
by the peer's handler loop, with its payload and biz type, and `r` is what that run returned, or the
empty answer if no handler was set; and for every request the handler runs at most once. Every run is
for one request of the peer. -/
theorem requests_agree (compatible : Compatible env)
    (run : Runs.Reach (step env) Runs.always (new env) net) (side : Bool) :
    (∀ i r, ((net side).conn.calls i).pc = .ended (.returned r) →
      ∃ run, net.runsFor (!side) ((net side).conn.calls i).req.id = [run] ∧
        run.request.payload = ((net side).conn.calls i).payload ∧
        run.request.bizType = ((net side).conn.calls i).bizType ∧
        run.answer = some r ∧ (run.handlerSet = false → r = .empty)) ∧
    (∀ i, ((net side).conn.calls i).kind = .request →
      (net.runsFor (!side) ((net side).conn.calls i).req.id).length ≤ 1) ∧
    (∀ run ∈ (net !side).runs, ∃ i, ((net side).conn.calls i).kind = .request ∧
      (∀ j, ((net side).conn.calls j).kind = .request ∧
        ((net side).conn.calls j).req.id = run.request.messageId ↔ j = i) ∧
      run.request.payload = ((net side).conn.calls i).payload ∧
      run.request.bizType = ((net side).conn.calls i).bizType) := by
  have inv := Inv.reach compatible run
  have reach := (inv.ends side).conn
  have reg : (net side).conn.Reg := .reach (Conn.reach_unguarded reach)
  refine ⟨fun i r ended => ?_, fun i _ => inv.once _, fun run mem => ?_⟩
  · obtain ⟨p, response, rfl⟩ := (Conn.faithful reach i).returns r (.inr ended)
    obtain ⟨request, run, mem, id, answer⟩ := inv.stored side i p response
    obtain ⟨j, request', named, nonzero, payload, bizType⟩ := inv.origin compatible mem
    obtain rfl := reg.unique request' request (named.trans id) nonzero
    refine ⟨run, ?_, payload, bizType, answer, fun unset => ?_⟩
    · have found : run ∈ net.runsFor (!side) ((net side).conn.calls j).req.id :=
        List.mem_filter.mpr ⟨mem, by simpa using id⟩
      obtain ⟨only, eq⟩ := List.length_eq_one_iff.mp
        (Nat.le_antisymm (inv.once _) (List.length_pos_of_mem found))
      rw [eq] at found ⊢
      rw [List.mem_singleton.mp found]
    · exact (inv.ends !side).unset run mem unset _ answer
  · obtain ⟨i, request, named, nonzero, payload, bizType⟩ := inv.origin compatible mem
    refine ⟨i, request, fun j => ⟨fun ⟨request', same⟩ => ?_, ?_⟩, payload, bizType⟩
    · exact (reg.unique request request' (named.trans same.symm) nonzero).symm
    · rintro rfl
      exact ⟨request, named⟩

/-- The request and the answer of one byte. -/
def sample (type : PacketType) : Packet :=
  ⟨type, 1, 0, .one, .empty, .none, 0, Packet.bizType_zero, Packet.reserved_zero⟩

/-- A request of one byte that the peer's handler answers with one byte. -/
theorem requests_agree_one : ∃ net, Runs.Reach (step fun _ => .tight .inline) Runs.always
      (new fun _ => .tight .inline) net ∧
    ((net true).conn.calls 0).pc = .ended (.returned .one) ∧
    ∃ run, net.runsFor false 1 = [run] ∧ run.request.payload = .one ∧ run.answer = some .one := by
  have ran : ((Runs.exec (step fun _ => .tight .inline) (new fun _ => .tight .inline)
      [(true, .conn .requestOne), (true, .conn (.transmit 0 17)), (true, .conn (.write 0 .ok)),
        (true, .conn (.flush 0 .ok)), (false, .onRequest),
        (false, .read (PacketCodec.encode (sample .request))), (false, .decode), (false, .receive),
        (false, .handled .one), (false, .conn (.transmit 0 17)),
        (true, .read (PacketCodec.encode (sample .response))), (true, .decode),
        (true, .conn (.dispatch 0))]).map fun net => (((net true).conn.calls 0).pc,
          ((net true).conn.calls 0).payload, ((net true).conn.calls 0).req.id)) =
      some (.ended (.returned .one), .one, 1) := by decide
  obtain ⟨net, exec, facts⟩ := Option.map_eq_some_iff.mp ran
  simp only [Prod.mk.injEq] at facts
  obtain ⟨ended, payload, id⟩ := facts
  have reach := Runs.reach_always_of_exec exec
  have compatible : Compatible fun _ => .tight .inline :=
    ⟨fun _ => rfl, fun _ => Codecs.stored_restores⟩
  obtain ⟨run, only, body, _, answer, _⟩ := (requests_agree compatible reach true).1 0 .one ended
  rw [id] at only
  exact ⟨net, reach, ended, run, only, body.trans payload, answer⟩

end Net

end MsgTrans
