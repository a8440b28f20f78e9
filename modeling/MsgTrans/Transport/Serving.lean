import MsgTrans.Connection.Requests
import MsgTrans.Core.Decoding
import MsgTrans.Transport.Endpoint

/-!
# What one endpoint serves

The moves of which the steps of an endpoint are made, and what they keep whatever the peer sends: the
requests that the handler loop gets are among those decoded, each once and in order; there is one run
for each; and a response on the outbound path carries what a run has returned.
-/

namespace MsgTrans

/-- Normalization leaves the header alone, but for the compression marker. -/
lemma Codecs.decompressPacket_header {cs : Codecs} {p q : Packet} {limit : Int}
    (normal : cs.decompressPacket p limit = .ok q) :
    q.type = p.type ∧ q.messageId = p.messageId ∧ q.bizType = p.bizType := by
  unfold Codecs.decompressPacket at normal
  split at normal
  case isTrue =>
    cases normal
    exact ⟨rfl, rfl, rfl⟩
  case isFalse =>
    split at normal
    case h_1 =>
      cases normal
      exact ⟨rfl, rfl, rfl⟩
    case h_2 => cases normal

namespace Endpoint

variable {env : Env} {e : EndpointEvent} {x x' : Endpoint}

/-- Normalize a wire packet (the single inbound normalization point of the read loop). -/
def normalize (env : Env) (wirePacket : Packet) : Except Throwable Packet :=
  env.codecs.decompressPacket wirePacket env.config.maxDecompressedPayloadLength

/-! ## Moves -/

/-- What an endpoint does in one move. A step other than a `read` is a chain of moves. -/
inductive Move (env : Env) : Endpoint → Endpoint → Prop where
  | reader {x : Endpoint} (l : ReadLoop) : Move env x { x with readLoop := l }
  | handler {x : Endpoint} (l : HandlerLoop) :
    (∀ p, l ≠ .handling p) → Move env x { x with handlerLoop := l }
  | onRequest {x : Endpoint} : Move env x { x with requestHandler := true }
  | conn {x : Endpoint} {ev conn} :
    ev.ofLoops = false → x.conn.step env ev = some conn → Move env x (x.withConn conn)
  | takes {x : Endpoint} {wire rest} :
    env.framing.decode env.config.maxPayloadLength x.readBuf = .ok (some wire, rest) →
    Move env x { x with
      readBuf := rest, firstInboundPacket := false, decoded := x.decoded ++ [wire] }
  | offers {x : Endpoint} {wire rest packet q} :
    env.framing.decode env.config.maxPayloadLength x.readBuf = .ok (some wire, rest) →
    normalize env wire = .ok packet → packet.type = .request →
    x.requests.step (.send packet) = some q →
    Move env x { x with
      readBuf := rest, firstInboundPacket := false, decoded := x.decoded ++ [wire], requests := q }
  | response {x : Endpoint} {wire packet conn} :
    wire ∈ x.decoded → normalize env wire = .ok packet → packet.type = .response →
    x.conn.step env (.response packet) = some conn → Move env x (x.withConn conn)
  | queue {x : Endpoint} {ev q} :
    (∀ p, ev ≠ .send p) → x.requests.step ev = some q → q.returned = x.requests.returned →
    Move env x { x with requests := q }
  | receives {x : Endpoint} {ev q packet} :
    (∀ p, ev ≠ .send p) → x.requests.step ev = some q →
    q.returned = x.requests.returned ++ [packet] →
    Move env x { x with
      requests := q, handlerLoop := .handling packet
      runs := x.runs ++ [⟨packet, x.requestHandler, none⟩] }
  | responds {x : Endpoint} {packet rs run response conn} :
    x.handlerLoop = .handling packet → x.runs = rs ++ [run] → run.handlerSet ∨ response = .empty →
    x.conn.step env (.respond packet.messageId packet.bizType response) = some conn →
    Move env x ({ x with
      runs := rs ++ [{ run with answer := some response }]
      handlerLoop := .answering x.conn.next }.withConn conn)

/-- A chain of moves. -/
abbrev Moves (env : Env) : Endpoint → Endpoint → Prop :=
  Relation.ReflTransGen (Move env)

/-- `shutdown` is a move. -/
lemma shutdown_move : Move env x (x.withConn x.conn.shutdown) := by
  have ran : x.conn.step env .shutdown = some x.conn.shutdown := rfl
  exact .conn rfl ran

/-- The end of the read loop is a chain of moves. -/
lemma endRead_moves : Moves env x x.endRead :=
  .tail (.single (.reader .ended)) shutdown_move

/-- The end of the handler loop is a chain of moves. -/
lemma endHandler_moves : Moves env x x.endHandler :=
  .tail (.single (.handler .ended (by simp))) shutdown_move

/-- The end of a `send` is a chain of moves. -/
lemma afterSend_moves {y : Endpoint} {q : ReactorQueue Packet} (sent : y = { x with requests := q }) :
    Moves env y (x.afterSend q) := by
  subst sent
  unfold afterSend
  split
  case h_1 =>
    split
    case isTrue => exact .single (.reader .decoding)
    case isFalse => exact endRead_moves
  case h_2 => exact .single (.reader .offering)

/-- What a step of the queue other than `send` adds to what `receive` has returned. -/
lemma afterReceive_moves {ev : QueueEvent Packet} {q : ReactorQueue Packet} (other : ∀ p, ev ≠ .send p)
    (fires : x.requests.step ev = some q) : Moves env x (x.afterReceive q) := by
  have histories := (ReactorQueue.step_histories fires other).2
  unfold afterReceive
  split
  case h_1 =>
    rcases histories with same | ⟨_, _, y, grown⟩
    · have idle : q.returned = x.requests.returned := ReactorQueue.returned_of_received same
      rw [same, List.drop_length]
      exact .head (.queue other fires idle) endHandler_moves
    · rw [grown, List.drop_left]
      have returned : q.returned = x.requests.returned ++ [y].filterMap id := by
        rw [ReactorQueue.returned, grown, List.filterMap_append, ReactorQueue.returned]
      cases y with
      | none =>
        rw [List.filterMap_cons_none rfl, List.filterMap_nil, List.append_nil] at returned
        exact .head (.queue other fires returned) endHandler_moves
      | some packet => exact .single (.receives other fires returned)
  case h_2 inside =>
    rcases histories with same | ⟨_, outside, _⟩
    · have idle : q.returned = x.requests.returned := ReactorQueue.returned_of_received same
      exact .head (.queue other fires idle) (.single (.handler .receiving (by simp)))
    · exact absurd outside inside

/-- Decoding is a chain of moves. -/
lemma decode_moves (h : x.decode env = some x') : Moves env x x' := by
  obtain ⟨_, h⟩ := Option.ite_none_right_eq_some.mp h
  split at h
  case h_1 =>
    cases h
    exact endRead_moves
  case h_2 rest decoded =>
    obtain rfl := Framing.decode_none decoded
    cases h
    exact .single (.reader .reading)
  case h_3 wire rest decoded =>
    dsimp only at h
    split at h
    case isFalse =>
      cases h
      exact .head (.takes decoded) endRead_moves
    case isTrue =>
      unfold onPacket at h
      split at h
      case h_1 =>
        cases h
        exact .head (.takes decoded) endRead_moves
      case h_2 packet normal =>
        split at h
        case h_1 type =>
          obtain ⟨conn, st, rfl⟩ := Option.map_eq_some_iff.mp h
          exact .tail (.single (.takes decoded)) (.response (by simp) normal type st)
        case h_2 type =>
          obtain ⟨q, st, rfl⟩ := Option.map_eq_some_iff.mp h
          exact .head (.offers decoded normal type st) (afterSend_moves rfl)
        case h_3 =>
          cases h
          exact .tail (.single (.takes decoded)) (.reader .emitting)

/-- Every step of an endpoint is a `read` or a chain of moves. -/
theorem step_moves (h : x.step env e = some x') :
    (∃ chunk, e = .read chunk ∧ x' = { x with
      readBuf := x.readBuf ++ chunk, arrived := x.arrived ++ chunk, readLoop := .decoding }) ∨
      Moves env x x' := by
  cases e with
  | conn ev =>
    obtain ⟨free, h⟩ := Option.ite_none_left_eq_some.mp h
    obtain ⟨conn, st, rfl⟩ := Option.map_eq_some_iff.mp h
    exact .inr (.single (.conn (by simpa using free) st))
  | onRequest =>
    cases h
    exact .inr (.single .onRequest)
  | read chunk =>
    obtain ⟨_, h⟩ := Option.ite_none_right_eq_some.mp h
    cases h
    exact .inl ⟨chunk, rfl, rfl⟩
  | readFails =>
    obtain ⟨_, h⟩ := Option.ite_none_right_eq_some.mp h
    cases h
    exact .inr endRead_moves
  | decode => exact .inr (decode_moves h)
  | emitted =>
    obtain ⟨_, h⟩ := Option.ite_none_right_eq_some.mp h
    cases h
    exact .inr (.single (.reader .decoding))
  | offered =>
    obtain ⟨_, h⟩ := Option.ite_none_right_eq_some.mp h
    obtain ⟨q, st, rfl⟩ := Option.map_eq_some_iff.mp h
    have same := (ReactorQueue.step_histories st (by simp)).2.resolve_right (by simp)
    exact .inr (.head (.queue (by simp) st (ReactorQueue.returned_of_received same))
      (afterSend_moves rfl))
  | cancel side =>
    obtain ⟨q, st, rfl⟩ := Option.map_eq_some_iff.mp h
    have same := (ReactorQueue.step_histories st (by simp)).2.resolve_right (by simp)
    exact .inr (.single (.queue (by simp) st (ReactorQueue.returned_of_received same)))
  | onCancelled side =>
    obtain ⟨q, st, rfl⟩ := Option.map_eq_some_iff.mp h
    have same := (ReactorQueue.step_histories st (by simp)).2.resolve_right (by simp)
    exact .inr (.single (.queue (by simp) st (ReactorQueue.returned_of_received same)))
  | receive =>
    obtain ⟨_, h⟩ := Option.ite_none_right_eq_some.mp h
    obtain ⟨q, st, rfl⟩ := Option.map_eq_some_iff.mp h
    exact .inr (afterReceive_moves (by simp) st)
  | received =>
    obtain ⟨_, h⟩ := Option.ite_none_right_eq_some.mp h
    obtain ⟨q, st, rfl⟩ := Option.map_eq_some_iff.mp h
    exact .inr (afterReceive_moves (by simp) st)
  | handled response =>
    simp only [step] at h
    split at h
    case h_1 packet place =>
      unfold respond at h
      split at h
      case h_1 => cases h
      case h_2 run last =>
        obtain ⟨set, h⟩ := Option.ite_none_right_eq_some.mp h
        obtain ⟨conn, st, rfl⟩ := Option.map_eq_some_iff.mp h
        exact .inr (.single (.responds place (List.dropLast_append_getLast? run last).symm set st))
    case h_2 => cases h
  | handlerFails =>
    simp only [step] at h
    split at h <;> cases h
    exact .inr endHandler_moves
  | answered =>
    simp only [step] at h
    split at h
    case h_1 =>
      split at h
      case h_1 =>
        cases h
        exact .inr (.single (.handler .idle (by simp)))
      case h_2 =>
        cases h
        exact .inr endHandler_moves
      case h_3 => cases h
    case h_2 => cases h

/-! ## One endpoint -/

/-- The requests among the decoded packets, as the handler loop gets them. -/
def accepted (env : Env) (decoded : List Packet) : List Packet :=
  decoded.filterMap fun wire =>
    match normalize env wire with
    | .ok packet => if packet.type = .request then some packet else none
    | .error _ => none

/-- An accepted request is the plaintext of a decoded one. -/
lemma mem_accepted {decoded : List Packet} {packet : Packet} (mem : packet ∈ accepted env decoded) :
    ∃ wire ∈ decoded, normalize env wire = .ok packet ∧ wire.type = .request := by
  obtain ⟨wire, mem, taken⟩ := List.mem_filterMap.mp mem
  refine ⟨wire, mem, ?_⟩
  split at taken
  case h_1 q normal =>
    obtain ⟨type, eq⟩ := Option.ite_none_right_eq_some.mp taken
    cases eq
    exact ⟨normal, (Codecs.decompressPacket_header normal).1.symm.trans type⟩
  case h_2 => cases taken

/-- No request is accepted more often than it has been decoded. -/
lemma accepted_countP (decoded : List Packet) (id : UInt32) :
    (accepted env decoded).countP (fun p => p.messageId = id) ≤ decoded.countP (Packet.asks id) := by
  rw [accepted, List.countP_filterMap]
  refine List.countP_mono_left fun wire _ counted => ?_
  split at counted
  case h_1 packet normal =>
    obtain ⟨type, named, _⟩ := Codecs.decompressPacket_header normal
    split at counted
    case isTrue request =>
      have id : packet.messageId = id := by simpa using counted
      simp [Packet.asks, ← type, request, ← named, id]
    case isFalse => simp at counted
  case h_2 => simp at counted

/-- A run has returned the payload of the response `p`. -/
def Answered (env : Env) (runs : List HandlerRun) (p : Packet) : Prop :=
  ∃ run ∈ runs, run.request.messageId = p.messageId ∧ ∃ r, run.answer = some r ∧
    Conn.prepareOutboundPayload env r p.compression = .ok p.payload

/-- A run that has returned stays what it is. -/
lemma Answered.mono {runs runs' : List HandlerRun} {p : Packet} (answered : Answered env runs p)
    (kept : ∀ run ∈ runs, run.answer ≠ none → run ∈ runs') : Answered env runs' p := by
  obtain ⟨run, mem, id, r, answer, prepared⟩ := answered
  exact ⟨run, kept run mem (by simp [answer]), id, r, answer, prepared⟩

/-- What holds of one endpoint, whatever its peer does. -/
structure Inv (env : Env) (x : Endpoint) : Prop where
  conn : Runs.Reach (Conn.step env) Runs.always .init x.conn
  queue : Runs.Reach ReactorQueue.step Runs.always (.new env.config.inboundCapacity) x.requests
  offered : (x.requests.sent ++ x.requests.item.toList).Sublist (accepted env x.decoded)
  runs : x.runs.map HandlerRun.request = x.requests.returned
  handling : ∀ p, x.handlerLoop = .handling p → ∃ rs set, x.runs = rs ++ [⟨p, set, none⟩]
  unset : ∀ run ∈ x.runs, run.handlerSet = false → ∀ r, run.answer = some r → r = .empty
  answers : ∀ p, x.conn.Holds p → p.type = .response → Answered env x.runs p

/-- While the handler runs, the runs that have returned are those before the last. -/
lemma Inv.returned {packet : Packet} {rs : List HandlerRun} {run : HandlerRun} (inv : Inv env x)
    (place : x.handlerLoop = .handling packet) (runs : x.runs = rs ++ [run]) :
    ∀ run ∈ x.runs, run.answer ≠ none → run ∈ rs := by
  obtain ⟨rs', set, last⟩ := inv.handling packet place
  obtain ⟨rfl, eq⟩ := List.append_inj' (runs.symm.trans last) rfl
  intro run' mem done
  rw [last] at mem
  rcases List.mem_append.mp mem with mem | mem
  · exact mem
  · rw [List.mem_singleton.mp mem] at done
    exact absurd rfl done

/-- What closing the loops leaves of the queue. -/
lemma closeLoops_spec {q : ReactorQueue Packet} {capacity : Int}
    (reach : Runs.Reach ReactorQueue.step Runs.always (.new capacity) q) :
    Runs.Reach ReactorQueue.step Runs.always (.new capacity) (closeLoops q) ∧
      ((closeLoops q).sent ++ (closeLoops q).item.toList).Sublist (q.sent ++ q.item.toList) ∧
      (closeLoops q).returned = q.returned := by
  have one : ∀ (u : ReactorQueue Packet) (e : QueueEvent Packet),
      (e = .close ∨ ∃ side, e = .cancel side) →
      Runs.Reach ReactorQueue.step Runs.always (.new capacity) u →
      Runs.Reach ReactorQueue.step Runs.always (.new capacity) ((u.step e).getD u) ∧
        (((u.step e).getD u).sent ++ ((u.step e).getD u).item.toList).Sublist
          (u.sent ++ u.item.toList) ∧ ((u.step e).getD u).returned = u.returned := by
    intro u e closes reach
    cases fires : u.step e with
    | none => exact ⟨reach, List.Sublist.refl _, rfl⟩
    | some u' =>
      have histories := ReactorQueue.step_histories fires (by rcases closes with rfl | ⟨_, rfl⟩ <;> simp)
      have same := histories.2.resolve_right (by rcases closes with rfl | ⟨_, rfl⟩ <;> simp)
      exact ⟨reach.next trivial fires, histories.1, ReactorQueue.returned_of_received same⟩
  obtain ⟨reach₁, sub₁, same₁⟩ := one q .close (.inl rfl) reach
  obtain ⟨reach₂, sub₂, same₂⟩ := one _ (.cancel .producer) (.inr ⟨_, rfl⟩) reach₁
  obtain ⟨reach₃, sub₃, same₃⟩ := one _ (.cancel .consumer) (.inr ⟨_, rfl⟩) reach₂
  exact ⟨reach₃, sub₃.trans (sub₂.trans sub₁), same₃.trans (same₂.trans same₁)⟩

/-- The connection that was put in place. -/
lemma withConn_conn (conn : Conn) (x : Endpoint) : (x.withConn conn).conn = conn := by
  unfold withConn
  split <;> rfl

/-- A change of the connection runs no handler. -/
lemma withConn_runs (conn : Conn) (x : Endpoint) : (x.withConn conn).runs = x.runs := by
  unfold withConn
  split <;> rfl

/-- A change of the connection does not move the handler loop. -/
lemma withConn_handlerLoop (conn : Conn) (x : Endpoint) :
    (x.withConn conn).handlerLoop = x.handlerLoop := by
  unfold withConn
  split <;> rfl

/-- The connection makes a step; an answer it is given is that of a run. -/
lemma Inv.withConn {ev : Event} {conn : Conn} (inv : Inv env x) (st : x.conn.step env ev = some conn)
    (made : ∀ id bizType r, ev = .respond id bizType r →
      ∃ run ∈ x.runs, run.request.messageId = id ∧ run.answer = some r) :
    Inv env (x.withConn conn) := by
  have answers : ∀ p, conn.Holds p → p.type = .response → Answered env x.runs p := by
    intro p held type
    rcases Conn.step_answers (.reach inv.conn) st type held with held | ⟨bizType, r, event, prepared⟩
    · exact inv.answers p held type
    · obtain ⟨run, mem, id, answer⟩ := made _ _ _ event
      exact ⟨run, mem, id, r, answer, prepared⟩
  have reach := inv.conn.next trivial st
  unfold Endpoint.withConn
  split
  case isTrue =>
    obtain ⟨queue, sub, returned⟩ := closeLoops_spec inv.queue
    exact { inv with
      conn := reach, queue, answers
      offered := sub.trans inv.offered
      runs := inv.runs.trans returned.symm }
  case isFalse => exact { inv with conn := reach, answers }

/-- A new endpoint has served nothing. -/
lemma Inv.new (env : Env) : Inv env (.new env) where
  conn := .start
  queue := .start
  offered := List.Sublist.refl _
  runs := rfl
  handling p handling := by cases handling
  unset run mem := by cases mem
  answers p held _ := by
    cases held with
    | call pc => simp [Endpoint.new, Conn.init] at pc
    | queue mem | buffer mem | loop mem | written mem => cases mem

/-- One more packet takes nothing from what was accepted. -/
lemma accepted_append (decoded : List Packet) (wire : Packet) :
    (accepted env decoded).Sublist (accepted env (decoded ++ [wire])) := by
  rw [accepted, accepted, List.filterMap_append]
  exact List.sublist_append_left _ _

/-- Every move keeps what holds of an endpoint. -/
lemma Inv.move (inv : Inv env x) (h : Move env x x') : Inv env x' := by
  cases h with
  | reader l => exact { inv with }
  | handler l idle => exact { inv with handling := fun p handling => absurd handling (idle p) }
  | onRequest => exact { inv with }
  | conn free st =>
    refine inv.withConn st fun id bizType r event => ?_
    simp [event] at free
  | takes decoded => exact { inv with offered := inv.offered.trans (accepted_append _ _) }
  | @offers wire rest packet q decoded normal type fires =>
    have accepts : accepted env (x.decoded ++ [wire]) = accepted env x.decoded ++ [packet] := by
      simp [accepted, normal, type]
    have reach := inv.queue.next trivial fires
    obtain ⟨_, rfl⟩ := ReactorQueue.step_send fires
    obtain ⟨offered, received⟩ := x.requests.offer_histories (x := packet)
    refine ⟨inv.conn, reach, ?_, ?_, inv.handling, inv.unset, inv.answers⟩
    · rw [accepts]
      refine offered.trans (List.Sublist.append ?_ (List.Sublist.refl _))
      exact (List.sublist_append_left _ _).trans inv.offered
    · exact inv.runs.trans (ReactorQueue.returned_of_received received).symm
  | response _ _ _ st => exact inv.withConn st fun id bizType r event => by cases event
  | queue other fires returned =>
    exact { inv with
      queue := inv.queue.next trivial fires
      offered := (ReactorQueue.step_histories fires other).1.trans inv.offered
      runs := inv.runs.trans returned.symm }
  | @receives ev q packet other fires returned =>
    refine ⟨inv.conn, inv.queue.next trivial fires, ?_, ?_, ?_, ?_, ?_⟩
    · exact (ReactorQueue.step_histories fires other).1.trans inv.offered
    · simp only [List.map_append, inv.runs, returned, List.map_cons, List.map_nil]
    · rintro p ⟨⟩
      exact ⟨x.runs, x.requestHandler, rfl⟩
    · intro run mem unset r answer
      rcases List.mem_append.mp mem with mem | mem
      · exact inv.unset run mem unset r answer
      · rw [List.mem_singleton.mp mem] at answer
        cases answer
    · intro p held type
      exact (inv.answers p held type).mono fun run mem _ => List.mem_append_left _ mem
  | @responds packet rs run response conn place runs set st =>
    -- the run that returns is the last one, and had not returned
    obtain ⟨rs', set', last⟩ := inv.handling packet place
    obtain ⟨rfl, rfl⟩ := List.append_inj' (runs.symm.trans last) rfl |>.imp_right List.singleton_inj.mp
    have before := inv.returned place runs
    have returned : Inv env { x with
        runs := rs ++ [⟨packet, set', some response⟩], handlerLoop := .answering x.conn.next } := by
      refine ⟨inv.conn, inv.queue, inv.offered, ?_, by simp, ?_, ?_⟩
      · rw [← inv.runs, runs]
        simp
      · intro run mem unset r answer
        rcases List.mem_append.mp mem with mem | mem
        · exact inv.unset run (runs ▸ List.mem_append_left _ mem) unset r answer
        · rw [List.mem_singleton.mp mem] at unset answer
          cases answer
          exact set.resolve_left (by simpa using unset)
      · intro p held type
        exact (inv.answers p held type).mono fun run mem done =>
          List.mem_append_left _ (before run mem done)
    refine returned.withConn st ?_
    rintro id bizType r ⟨⟩
    exact ⟨⟨packet, set', some response⟩, by simp, rfl, rfl⟩

/-- Every step keeps what holds of an endpoint. -/
lemma Inv.step (inv : Inv env x) (h : x.step env e = some x') : Inv env x' := by
  rcases step_moves h with ⟨chunk, rfl, rfl⟩ | moves
  · exact { inv with }
  · exact Runs.star_preserves (fun _ _ move inv => Inv.move inv move) moves inv

end Endpoint

end MsgTrans
