import MsgTrans.Connection.Outbox
import MsgTrans.Transport.Agreement

/-!
# Responses come in the order of the requests

The handler loop takes one request after the other and goes on to the next when the answer to the last has
entered the outbound path, so the answers leave in the order of the requests, whatever else is sent in
between and whichever of them the connection drops when it is closed. At most one answer is on its way
(`Conn.Replying`); what is on the path before it are answers to earlier requests (`Conn.Replies`). End to
end, the responses that reach a side are for requests of its own, in the order in which these have left.
-/

namespace MsgTrans

/-- The ids of the packets of one type, in order. -/
def idsOf (type : PacketType) (l : List Packet) : List UInt32 :=
  (l.filter fun p => p.type = type).map Packet.messageId

/-- The ids of a list in two parts. -/
lemma idsOf_append {type : PacketType} (l l' : List Packet) :
    idsOf type (l ++ l') = idsOf type l ++ idsOf type l' := by
  rw [idsOf, List.filter_append, List.map_append, idsOf, idsOf]

/-- A part of a list has a part of its ids. -/
lemma idsOf_sublist {type : PacketType} {l l' : List Packet} (sub : l.Sublist l') :
    (idsOf type l).Sublist (idsOf type l') :=
  (sub.filter _).map _

/-! ## One connection -/

namespace Conn

variable {env : Env} {A : Trigger} {s t : Conn} {ids : List UInt32} {j : Nat} {p : Packet}

/-- The answer `p` of call `j` has not entered the path. -/
structure Replying (s : Conn) (j : Nat) (p : Packet) : Prop where
  kind : (s.calls j).kind = .response
  pends : (s.calls j).Pends
  packet : (s.calls j).pc.packet = some p

/-- The step is not the handler loop's `enqueue`. -/
def NoAnswer (e : Event) : Prop := ∀ id bizType r, e ≠ .respond id bizType r

/-- An answer that is on its way was so before. -/
lemma Replying.before (ground : Grounds env s) (quiet : NoAnswer A.event) (eff : Effect env A s t)
    (h : t.Replying j p) : s.Replying j p := by
  rcases ground.onward eff j with forward | ⟨_, starts⟩
  · have kind : (s.calls j).kind = .response := forward.kind.symm.trans h.kind
    exact ⟨kind, forward.pends h.pends, forward.packet (by simp [kind]) p h.packet⟩
  · obtain ⟨_, _, event⟩ := starts.answer h.kind p h.packet
    exact absurd event (quiet _ _ _)

/-- The responses on the path answer some of `ids`, in their order; an answer that is on its way is the
only one and for the last of them. -/
structure Replies (env : Env) (ids : List UInt32) (s : Conn) : Prop where
  ground : Grounds env s
  order : (idsOf .response s.path).Sublist ids
  pending : ∀ j p, s.Replying j p →
    ∃ before, ids = before ++ [p.messageId] ∧ (idsOf .response s.path).Sublist before
  single : ∀ j p k q, s.Replying j p → s.Replying k q → j = k

namespace Replies

/-- A new connection has answered nothing. -/
lemma init (env : Env) : Replies env [] init where
  ground := .init
  order := List.Sublist.refl _
  pending j p h := by
    have kind := h.packet
    simp [Conn.init] at kind
  single j p k q h _ := by
    have kind := h.packet
    simp [Conn.init] at kind

/-- More ids, while no answer is on its way. -/
lemma widen (h : Replies env ids s) (idle : ∀ j p, ¬ s.Replying j p) (more : List UInt32) :
    Replies env (ids ++ more) s where
  ground := h.ground
  order := h.order.trans (List.sublist_append_left _ _)
  pending j p replying := absurd replying (idle j p)
  single := h.single

/-- The packet that a call puts is a response if the call is an answer. -/
lemma type_of_put {i : Nat} (ground : Grounds env s) (held : (s.calls i).pc.packet = some p) :
    (s.calls i).kind = .response ↔ p.type = .response := by
  have type := (ground.own held).type
  cases kind : (s.calls i).kind <;> simp only [kind, CallKind.packetType, Option.some.injEq] at type
  · simp [← type]
  · simp [← type]
  · simp [← type]
  · cases type

/-- An effect other than an answer keeps the answers in order. -/
lemma effect (h : Replies env ids s) (quiet : NoAnswer A.event) (eff : Effect env A s t) :
    Replies env ids t := by
  have ground := h.ground
  have back {j : Nat} {p : Packet} (replying : t.Replying j p) := replying.before ground quiet eff
  -- the path has lost packets at most
  have shrinks (sub : (idsOf .response t.path).Sublist (idsOf .response s.path)) : Replies env ids t := by
    refine ⟨ground.effect eff, sub.trans h.order, fun j p replying => ?_, fun j p k q one other =>
      h.single j p k q (back one) (back other)⟩
    obtain ⟨before, eq, order⟩ := h.pending j p (back replying)
    exact ⟨before, eq, sub.trans order⟩
  cases Advance.effect ground.wf ground.lanes ground.drained ground.successors eff with
  | rests _ _ path => exact shrinks (by rw [path])
  | shuts _ _ pre => exact shrinks (idsOf_sublist pre.sublist)
  | @puts i p l place put _ _ pre _ path =>
    have held : (s.calls i).pc.packet = some p := by
      rcases place with pc | ⟨pc | pc, _⟩ <;> simp [pc]
    have kept : (idsOf .response l).Sublist (idsOf .response s.path) := idsOf_sublist pre.sublist
    by_cases answer : (s.calls i).kind = .response
    · have type := (type_of_put ground held).mp answer
      have pends : (s.calls i).Pends := by
        rcases place with pc | parked
        · exact .inl (by simp [pc])
        · exact .inr ⟨p, parked⟩
      have replying : s.Replying i p := ⟨answer, pends, held⟩
      obtain ⟨before, eq, order⟩ := h.pending i p replying
      have own : idsOf .response [p] = [p.messageId] := by simp [idsOf, type]
      -- nothing is on its way any more: `i` has put its answer, and it was the only one
      have none_ : ∀ j q, ¬ t.Replying j q := by
        intro j q other
        obtain rfl := h.single j q i p (back other) replying
        exact put other.pends
      refine ⟨ground.effect eff, ?_, fun j q other => absurd other (none_ j q),
        fun j q k r one _ => absurd one (none_ j q)⟩
      rw [path, idsOf_append, own, eq]
      exact (kept.trans order).append (List.Sublist.refl _)
    · have type : p.type ≠ .response := fun type => answer ((type_of_put ground held).mpr type)
      have none_ : idsOf .response [p] = [] := by simp [idsOf, type]
      refine shrinks ?_
      rw [path, idsOf_append, none_, List.append_nil]
      exact kept

/-- Effects other than an answer keep the answers in order. -/
lemma effects (h : Replies env ids s) (quiet : NoAnswer A.event) (effs : Effects env A s t) :
    Replies env ids t :=
  Runs.star_preserves (P := Replies env ids) (fun _ _ eff h => h.effect quiet eff) effs h

/-- No answer starts on its way. -/
lemma back (h : Replies env ids s) (quiet : NoAnswer A.event) (effs : Effects env A s t)
    (replying : t.Replying j p) : s.Replying j p := by
  refine (Runs.star_preserves (P := fun u => Grounds env u ∧ (u.Replying j p → s.Replying j p))
    (fun u v eff held => ?_) effs ⟨h.ground, id⟩).2 replying
  exact ⟨held.1.effect eff, fun later => held.2 (later.before held.1 quiet eff)⟩

/-- The handler loop makes an answer. -/
lemma respond (h : Replies env ids s) (idle : ∀ j p, ¬ s.Replying j p) (id : UInt32) (bizType : Int)
    (response : KBytes) : Replies env (ids ++ [id]) (s.respond env id bizType response) ∧
      ∀ j p, (s.respond env id bizType response).Replying j p → j = s.next := by
  have quiet : NoAnswer (Event.trigger env s .shutdown).event := nofun
  have wide := h.widen idle [id]
  have rejects {c : Call} {e : Throwable} (eff : Effect env (Event.trigger env s .shutdown) s
      (s.reject c e)) : Replies env (ids ++ [id]) (s.reject c e) ∧
        ∀ j p, (s.reject c e).Replying j p → j = s.next :=
    ⟨wide.effect quiet eff, fun j p replying =>
      absurd (replying.before h.ground quiet eff) (idle j p)⟩
  unfold Conn.respond
  dsimp only
  split
  case h_1 => exact rejects (.reject rfl rfl rfl)
  case h_2 encoded prepared =>
    split
    case h_1 => exact rejects (.reject rfl rfl rfl)
    case h_2 packet built =>
      have named : packet.messageId = id := (outboundPacket_ok built).1.2.1
      let c : Call :=
        { kind := .response
          payload := response
          bizType
          compression := env.config.responseCompression
          encoded
          pc := .roomLoop packet }
      have eff : Effect env (Event.trigger env s (.respond id bizType response)) s
          ({ s with oneWayId := s.oneWayId }.addCall c) :=
        .startPut (.inr rfl) rfl rfl rfl rfl ⟨id, rfl, built⟩ prepared
      -- the new call is the only one with an answer
      have own {j : Nat} {p : Packet} (replying : (s.addCall c).Replying j p) :
          j = s.next ∧ p = packet := by
        obtain ⟨kind, pends, held⟩ := replying
        rw [addCall_calls] at kind pends held
        split at held
        case isTrue eq => exact ⟨eq, by simpa [c] using held.symm⟩
        case isFalse other =>
          rw [if_neg other] at kind pends
          exact absurd ⟨kind, pends, held⟩ (idle j p)
      have made : Replies env (ids ++ [id]) (s.addCall c) := by
        refine ⟨h.ground.effect eff, wide.order, fun j p replying => ?_, fun j p k q one other => ?_⟩
        · obtain ⟨_, rfl⟩ := own replying
          exact ⟨ids, by rw [named], h.order⟩
        · exact (own one).1.trans (own other).1.symm
      have effs : Effects env (Event.trigger env s .shutdown) (s.addCall c)
          ((s.addCall c).enqueueChecked env s.next packet) := by
        refine enqueueChecked_effects (by simp [addCall, c]) fun request => ?_
        simp [addCall, c] at request
      exact ⟨made.effects quiet effs, fun j p replying => (own (made.back quiet effs replying)).1⟩

end Replies

end Conn

/-! ## One endpoint -/

namespace Endpoint

variable {env : Env} {x x' : Endpoint}

/-- The ids of the requests that the handler has run for. -/
def ranFor (runs : List HandlerRun) : List UInt32 :=
  (runs.map HandlerRun.request).map Packet.messageId

/-- The requests that the handler loop is through with or answers now: not the one that the handler
still runs for. -/
def claimed (x : Endpoint) : List UInt32 :=
  match x.handlerLoop with
  | .handling _ => ranFor x.runs.dropLast
  | _ => ranFor x.runs

/-- While the handler runs its request is not claimed. -/
lemma claimed_handling {packet : Packet} (place : x.handlerLoop = .handling packet) :
    x.claimed = ranFor x.runs.dropLast := by
  rw [claimed, place]

/-- When the handler does not run all its requests are claimed. -/
lemma claimed_of_out (out : ∀ p, x.handlerLoop ≠ .handling p) : x.claimed = ranFor x.runs := by
  unfold claimed
  split
  case h_1 p place => exact absurd place (out p)
  case h_2 => rfl

/-- All the runs: those it is through with, and the one that is under way. -/
lemma claimed_append (x : Endpoint) : ∃ more, x.claimed ++ more = ranFor x.runs := by
  by_cases out : ∀ p, x.handlerLoop ≠ .handling p
  · exact ⟨[], by rw [List.append_nil, claimed_of_out out]⟩
  · push Not at out
    obtain ⟨packet, place⟩ := out
    refine ⟨ranFor (x.runs.getLast?).toList, ?_⟩
    rw [claimed_handling place, ranFor, ranFor, ← List.map_append, ← List.map_append]
    congr 2
    rcases List.eq_nil_or_concat x.runs with eq | ⟨rs, r, eq⟩ <;> simp [eq]

/-- The answers of an endpoint: the one that is on its way is the one the handler loop waits for. -/
structure Ordered (env : Env) (x : Endpoint) : Prop where
  replies : Conn.Replies env x.claimed x.conn
  awaited : ∀ j p, x.conn.Replying j p → x.handlerLoop = .answering j

namespace Ordered

/-- A new endpoint has answered nothing. -/
lemma new (env : Env) : Ordered env (.new env) where
  replies := .init env
  awaited j p replying := by
    have held := replying.packet
    simp [Endpoint.new, Conn.init] at held

/-- Changes of neither the connection nor the handler loop. -/
lemma aside (h : Ordered env x) (conn : x'.conn = x.conn) (loop : x'.handlerLoop = x.handlerLoop)
    (runs : x'.runs = x.runs) : Ordered env x' := by
  obtain ⟨replies, awaited⟩ := h
  refine ⟨?_, by rwa [conn, loop]⟩
  rwa [conn, claimed, loop, runs]

/-- The connection makes a step. -/
lemma conn {ev : Event} {conn : Conn} (h : Ordered env x) (quiet : Conn.NoAnswer ev)
    (st : x.conn.step env ev = some conn) : Ordered env (x.withConn conn) := by
  have effs : Effects env (ev.trigger env x.conn) x.conn conn := Conn.step_effects st
  have loop := withConn_handlerLoop conn x
  refine ⟨?_, fun j p replying => ?_⟩
  · rw [withConn_conn, claimed, loop, withConn_runs]
    exact h.replies.effects quiet effs
  · rw [withConn_conn] at replying
    rw [loop]
    exact h.awaited j p (h.replies.back quiet effs replying)

/-- `shutdown` keeps the answers in order. -/
lemma shutdown (h : Ordered env x) : Ordered env (x.withConn x.conn.shutdown) := by
  have quiet : Conn.NoAnswer .shutdown := nofun
  exact h.conn quiet rfl

/-- The end of the read loop keeps the answers in order. -/
lemma endRead (h : Ordered env x) : Ordered env x.endRead :=
  Ordered.shutdown (x := { x with readLoop := .ended }) (h.aside rfl rfl rfl)

/-- The end of a `send` keeps the answers in order. -/
lemma afterSend {q : ReactorQueue Packet} (h : Ordered env x) : Ordered env (x.afterSend q) := by
  unfold Endpoint.afterSend
  split
  case h_1 =>
    split
    case isTrue => exact h.aside rfl rfl rfl
    case isFalse => exact Ordered.endRead (h.aside rfl rfl rfl)
  case h_2 => exact h.aside rfl rfl rfl

/-- The handler loop goes elsewhere while no answer is on its way. -/
lemma leave {l : HandlerLoop} (h : Ordered env x) (idle : ∀ j p, ¬ x.conn.Replying j p)
    (out : ∀ p, l ≠ .handling p) : Ordered env { x with handlerLoop := l } := by
  refine ⟨?_, fun j p replying => absurd replying (idle j p)⟩
  obtain ⟨more, all⟩ := x.claimed_append
  rw [claimed_of_out out, ← all]
  exact h.replies.widen idle more

/-- The end of the handler loop keeps the answers in order. -/
lemma endHandler (h : Ordered env x) (idle : ∀ j p, ¬ x.conn.Replying j p) :
    Ordered env x.endHandler :=
  (h.leave idle (l := .ended) nofun).shutdown

/-- The end of a `receive` keeps the answers in order. -/
lemma afterReceive {q : ReactorQueue Packet} (h : Ordered env x)
    (out : ∀ p, x.handlerLoop ≠ .handling p) (idle : ∀ j, x.handlerLoop ≠ .answering j) :
    Ordered env (x.afterReceive q) := by
  have none_ : ∀ j p, ¬ x.conn.Replying j p := fun j p replying => idle j (h.awaited j p replying)
  unfold Endpoint.afterReceive
  split
  case h_1 =>
    split
    case h_1 packet _ =>
      refine ⟨?_, fun j p replying => absurd replying (none_ j p)⟩
      rw [claimed_handling rfl, List.dropLast_concat, ← claimed_of_out out]
      exact h.replies
    case h_2 => exact Ordered.endHandler (h.aside rfl rfl rfl) none_
  case h_2 =>
    exact Ordered.leave (x := { x with requests := q }) (h.aside rfl rfl rfl) none_ nofun

/-- A packet that is dispatched keeps the answers in order. -/
lemma onPacket {wire : Packet} (h : Ordered env x) (st : x.onPacket env wire = some x') :
    Ordered env x' := by
  unfold Endpoint.onPacket at st
  split at st
  case h_1 =>
    cases st
    exact h.endRead
  case h_2 packet _ =>
    split at st
    case h_1 =>
      obtain ⟨conn, made, rfl⟩ := Option.map_eq_some_iff.mp st
      exact h.conn (fun id bizType r => by simp) made
    case h_2 =>
      obtain ⟨q, _, rfl⟩ := Option.map_eq_some_iff.mp st
      exact h.afterSend
    case h_3 =>
      cases st
      exact h.aside rfl rfl rfl

/-- Decoding keeps the answers in order. -/
lemma decode (h : Ordered env x) (st : x.decode env = some x') : Ordered env x' := by
  unfold Endpoint.decode at st
  split at st
  case isFalse => cases st
  case isTrue =>
    split at st
    case h_1 =>
      cases st
      exact h.endRead
    case h_2 =>
      cases st
      exact h.aside rfl rfl rfl
    case h_3 wire rest _ =>
      dsimp only at st
      split at st
      case isTrue =>
        refine Ordered.onPacket ?_ st
        exact h.aside rfl rfl rfl
      case isFalse =>
        cases st
        exact Ordered.endRead (h.aside rfl rfl rfl)

/-- The handler returns: its answer is for the run that was under way. -/
lemma respond {packet : Packet} {response : KBytes} (inv : Inv env x) (h : Ordered env x)
    (place : x.handlerLoop = .handling packet) (st : x.respond env packet response = some x') :
    Ordered env x' := by
  have idle : ∀ j p, ¬ x.conn.Replying j p := by
    intro j p replying
    have awaited := h.awaited j p replying
    rw [place] at awaited
    cases awaited
  obtain ⟨rs, set, runs⟩ := inv.handling packet place
  unfold Endpoint.respond at st
  simp only [runs, List.getLast?_concat, List.dropLast_concat] at st
  split at st
  case isFalse => cases st
  case isTrue =>
    obtain ⟨conn, made, rfl⟩ := Option.map_eq_some_iff.mp st
    cases made
    obtain ⟨replies, own⟩ := h.replies.respond idle packet.messageId packet.bizType response
    have loop := withConn_handlerLoop (x.conn.respond env packet.messageId packet.bizType response)
      { x with
        runs := rs ++ [⟨packet, set, some response⟩], handlerLoop := .answering x.conn.next }
    refine ⟨?_, fun j p replying => ?_⟩
    · rw [withConn_conn, claimed_of_out (by simp [loop]), withConn_runs]
      rw [claimed_handling place, runs, List.dropLast_concat] at replies
      simpa [ranFor] using replies
    · rw [withConn_conn] at replying
      rw [loop, own j p replying]

/-- The answer has been enqueued, or `enqueue` has thrown. -/
lemma answered {i : Nat} {o : Outcome} (h : Ordered env x) (place : x.handlerLoop = .answering i)
    (ended : (x.conn.calls i).pc = .ended o) : ∀ j p, ¬ x.conn.Replying j p := by
  intro j p replying
  have awaited := h.awaited j p replying
  rw [place] at awaited
  cases awaited
  have held := replying.packet
  simp [ended] at held

/-- One step of an endpoint keeps its answers in order. -/
lemma step {e : EndpointEvent} (inv : Inv env x) (h : Ordered env x) (st : x.step env e = some x') :
    Ordered env x' := by
  cases e with
  | conn ev =>
    obtain ⟨free, st⟩ := Option.ite_none_left_eq_some.mp st
    obtain ⟨conn, made, rfl⟩ := Option.map_eq_some_iff.mp st
    refine h.conn (fun id bizType r event => ?_) made
    simp [event] at free
  | onRequest =>
    cases st
    exact h.aside rfl rfl rfl
  | read chunk =>
    obtain ⟨_, eq⟩ := Option.ite_none_right_eq_some.mp st
    cases eq
    exact h.aside rfl rfl rfl
  | readFails =>
    obtain ⟨_, eq⟩ := Option.ite_none_right_eq_some.mp st
    cases eq
    exact h.endRead
  | decode => exact h.decode st
  | emitted =>
    obtain ⟨_, eq⟩ := Option.ite_none_right_eq_some.mp st
    cases eq
    exact h.aside rfl rfl rfl
  | offered =>
    obtain ⟨_, st⟩ := Option.ite_none_right_eq_some.mp st
    obtain ⟨q, _, rfl⟩ := Option.map_eq_some_iff.mp st
    exact h.afterSend
  | cancel side =>
    obtain ⟨q, _, rfl⟩ := Option.map_eq_some_iff.mp st
    exact h.aside rfl rfl rfl
  | onCancelled side =>
    obtain ⟨q, _, rfl⟩ := Option.map_eq_some_iff.mp st
    exact h.aside rfl rfl rfl
  | receive =>
    obtain ⟨place, st⟩ := Option.ite_none_right_eq_some.mp st
    obtain ⟨q, _, rfl⟩ := Option.map_eq_some_iff.mp st
    exact h.afterReceive (by simp [place]) (by simp [place])
  | received =>
    obtain ⟨place, st⟩ := Option.ite_none_right_eq_some.mp st
    obtain ⟨q, _, rfl⟩ := Option.map_eq_some_iff.mp st
    exact h.afterReceive (by simp [place]) (by simp [place])
  | handled response =>
    simp only [Endpoint.step] at st
    split at st
    case h_1 packet place => exact h.respond inv place st
    case h_2 => cases st
  | handlerFails =>
    simp only [Endpoint.step] at st
    split at st
    case h_1 packet place =>
      cases st
      refine h.endHandler fun j p replying => ?_
      -- the handler still runs, so no answer of this connection is on its way
      have awaited := h.awaited j p replying
      rw [place] at awaited
      cases awaited
    case h_2 => cases st
  | answered =>
    simp only [Endpoint.step] at st
    split at st
    case h_2 => cases st
    case h_1 i place =>
      split at st
      case h_1 ended =>
        cases st
        exact h.leave (h.answered place ended) (by simp)
      case h_2 o _ ended =>
        cases st
        exact h.endHandler (h.answered place ended)
      case h_3 => cases st

end Ordered

/-- The requests that an endpoint accepts are among those that it has decoded. -/
lemma accepted_ids (decoded : List Packet) :
    ((accepted env decoded).map Packet.messageId).Sublist (idsOf .request decoded) := by
  induction decoded with
  | nil => exact List.Sublist.refl _
  | cons wire rest ih =>
    rw [accepted, List.filterMap_cons]
    cases normal : normalize env wire with
    | error e => exact ih.trans (idsOf_sublist (List.sublist_cons_self _ _))
    | ok packet =>
      by_cases type : packet.type = .request
      · obtain ⟨typed, named, _⟩ := Codecs.decompressPacket_header normal
        have own : idsOf .request (wire :: rest) = packet.messageId :: idsOf .request rest := by
          simp [idsOf, typed.symm.trans type, named]
        simp only [type, if_true, List.map_cons, own]
        exact ih.cons_cons _
      · simp only [type, if_false]
        exact ih.trans (idsOf_sublist (List.sublist_cons_self _ _))

end Endpoint

/-! ## Both endpoints -/

namespace Net

variable {env : Bool → Env} {net : Net}

/-- The answers of both endpoints. -/
structure InOrder (env : Bool → Env) (net : Net) : Prop where
  inv : Inv env net
  ordered : ∀ side, (net side).Ordered (env side)

/-- In every run both endpoints answer in order. -/
lemma InOrder.reach (compatible : Compatible env)
    (run : Runs.Reach (step env) Runs.always (new env) net) : InOrder env net := by
  refine run.invariant ⟨.new env, fun side => .new (env side)⟩ fun net e net' h _ st => ?_
  refine ⟨h.inv.step compatible st, fun side => ?_⟩
  obtain ⟨_, eq⟩ := Option.ite_none_right_eq_some.mp st
  obtain ⟨x, moved, rfl⟩ := Option.map_eq_some_iff.mp eq
  by_cases own : side = e.1
  · subst own
    rw [set_self]
    exact (h.ordered e.1).step (h.inv.ends e.1) moved
  · rw [set, if_neg own]
    exact h.ordered side

/-- The responses that an endpoint has sent are for requests it has decoded, in their order. -/
lemma InOrder.responses (h : InOrder env net) (side : Bool) :
    (idsOf .response (net side).conn.path).Sublist (idsOf .request (net side).decoded) := by
  obtain ⟨more, all⟩ := (net side).claimed_append
  have begun : (net side).claimed.Sublist (Endpoint.ranFor (net side).runs) :=
    all ▸ List.sublist_append_left _ _
  have ran : (Endpoint.ranFor (net side).runs).Sublist
      ((Endpoint.accepted (env side) (net side).decoded).map Packet.messageId) := h.inv.ran.map _
  exact (((h.ordered side).replies.order.trans begun).trans ran).trans (Endpoint.accepted_ids _)

/-- An endpoint does not put two requests with one id on its path. -/
lemma InOrder.distinct (h : InOrder env net) (side : Bool) :
    (idsOf .request (net side).conn.path).Nodup := by
  rw [List.nodup_iff_count_le_one]
  intro id
  refine le_trans (le_of_eq ?_) ((Conn.Requests.reach (h.inv.ends side).conn).once id)
  rw [idsOf, List.count, List.countP_map, List.countP_filter]
  refine List.countP_congr fun p _ => ?_
  simp [Packet.asks, and_comm]

/-- Whatever the two endpoints do, in any order: the responses that a side has received are for requests
that it has put on its outbound path, at most one for each, and come in the order of these requests. -/
theorem responses_in_order (compatible : Compatible env)
    (run : Runs.Reach (step env) Runs.always (new env) net) (side : Bool) :
    (idsOf .response (net side).decoded).Sublist (idsOf .request (net side).conn.path) ∧
      (idsOf .request (net side).conn.path).Nodup := by
  have h := InOrder.reach compatible run
  have back := (h.inv.link side).decoded
  have there := (h.inv.link !side).decoded
  rw [Bool.not_not] at there
  have written {x : Endpoint} : x.conn.written.Sublist x.conn.path := List.sublist_append_left _ _
  refine ⟨?_, h.distinct side⟩
  calc idsOf .response (net side).decoded
      |>.Sublist (idsOf .response (net !side).conn.path) := idsOf_sublist (back.sublist.trans written)
    _ |>.Sublist (idsOf .request (net !side).decoded) := h.responses !side
    _ |>.Sublist (idsOf .request (net side).conn.path) := idsOf_sublist (there.sublist.trans written)

/-- Two requests one after the other, and their answers. -/
theorem responses_in_order_two : ∃ net, Runs.Reach (step fun _ => .tight .inline) Runs.always
      (new fun _ => .tight .inline) net ∧
    idsOf .response (net true).decoded = [1, 2] ∧ idsOf .request (net true).conn.path = [1, 2] ∧
    [1, 2].Sublist (idsOf .request (net true).conn.path) := by
  have ran : ((Runs.exec (step fun _ => .tight .inline) (new fun _ => .tight .inline)
      [(true, .conn .requestOne), (true, .conn (.transmit 0 17)), (true, .conn (.write 0 .ok)),
        (true, .conn (.flush 0 .ok)), (false, .onRequest),
        (false, .read (PacketCodec.encode (sample .request))), (false, .decode), (false, .receive),
        (false, .handled .one), (false, .conn (.transmit 0 17)), (false, .conn (.write 0 .ok)),
        (false, .conn (.flush 0 .ok)), (false, .answered),
        (true, .read (PacketCodec.encode (sample .response))), (true, .decode),
        (true, .conn (.dispatch 0)), (true, .decode),
        (true, .conn .requestOne), (true, .conn (.transmit 1 17)), (true, .conn (.write 1 .ok)),
        (true, .conn (.flush 1 .ok)), (false, .decode),
        (false, .read (PacketCodec.encode { sample .request with messageId := 2 })), (false, .decode),
        (false, .receive), (false, .handled .one), (false, .conn (.transmit 1 17)),
        (true, .read (PacketCodec.encode { sample .response with messageId := 2 })),
        (true, .decode)]).map fun net => (idsOf .response (net true).decoded,
          idsOf .request (net true).conn.path)) = some ([1, 2], [1, 2]) := by decide
  obtain ⟨net, exec, facts⟩ := Option.map_eq_some_iff.mp ran
  obtain ⟨responses, requests⟩ := Prod.mk.inj facts
  have reach := Runs.reach_always_of_exec exec
  have compatible : Compatible fun _ => .tight .inline :=
    ⟨fun _ => rfl, fun _ => Codecs.stored_restores⟩
  have order := (responses_in_order compatible reach true).1
  rw [responses] at order
  exact ⟨net, reach, responses, requests, order⟩

end Net

end MsgTrans
