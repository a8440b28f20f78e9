import MsgTrans.Connection.InFlight
import MsgTrans.Connection.Outcome
import MsgTrans.Lib.Tally

/-!
# Responses that wait for their callers

A request holds its response from the moment the read loop gives it one until its caller runs. The
registry gains an entry only when a request is made, or when one that waited for a slot runs. While such
steps find no response held, the held responses and the registered requests together are at most
`maxInFlightRequests`.
-/

namespace MsgTrans

/-- The response that has been given to the call and that its caller has not taken. -/
def Call.held (c : Call) : Option Packet :=
  match c.pc with
  | .ended _ => none
  | _ => c.req.response

/-- A call that is over holds nothing. -/
lemma Call.held_ended {c : Call} {o : Outcome} (ended : c.pc = .ended o) : c.held = none := by
  rw [held, ended]

/-- A running call holds the response it was given. -/
lemma Call.held_running {c : Call} (running : ∀ o, c.pc ≠ .ended o) : c.held = c.req.response := by
  unfold held
  split
  case h_1 o ended => exact absurd ended (running o)
  case h_2 => rfl

/-- What a call holds is its response. -/
lemma Call.response_of_held {c : Call} {p : Packet} (held : c.held = some p) :
    c.req.response = some p := by
  unfold Call.held at held
  split at held
  case h_1 => cases held
  case h_2 => exact held

namespace Conn

variable {env : Env} {e : Event} {s t : Conn} {i : Nat}

/-- The event can register a request: it makes one, or runs one that waited for a slot. -/
def Asks (s : Conn) : Event → Prop
  | .request .. => True
  | .dispatch i => (s.calls i).pc = .slotWait
  | _ => False

/-- How many responses wait for their callers. -/
def holding (s : Conn) : Nat := tally (fun c => c.held.elim 0 fun _ => 1) s.calls s.next

/-- The payload bytes of these responses. -/
def heldBytes (s : Conn) : Nat := tally (fun c => c.held.elim 0 fun p => p.payload.size) s.calls s.next

/-! ## Steps that register nothing -/

namespace Shrinks

/-- The end of a call adds nothing to the registry. -/
lemma unwind (i : Nat) (o : Outcome) (s : Conn) : Shrinks s (s.unwind i o) := by
  have moved : Shrinks s (s.setPc i (.unwinding o)) := same rfl rfl
  exact moved.trans (finish i o _)

/-- `await` adds nothing to the registry. -/
lemma awaitResponse (i : Nat) (s : Conn) : Shrinks s (s.awaitResponse i) := by
  have moved : Shrinks s (s.setPc i .awaiting) := same rfl rfl
  unfold Conn.awaitResponse
  dsimp only
  split
  case h_1 => exact moved.trans (unwind i _ _)
  case h_2 => exact moved.trans (unwind i _ _)
  case h_3 => exact same rfl rfl

/-- What follows an `enqueue` adds nothing to the registry. -/
lemma afterEnqueue (i : Nat) (s : Conn) : Shrinks s (s.afterEnqueue i) := by
  unfold Conn.afterEnqueue
  split
  case isTrue => exact awaitResponse i s
  case isFalse => exact unwind i _ s

/-- The writer's loop adds nothing to the registry. -/
lemma drainLoop (env : Env) (i : Nat) (s : Conn) : Shrinks s (s.drainLoop env i) := by
  have stopped : Shrinks s ({ s with writerActive := false }.afterEnqueue i) := by
    have stops : Shrinks s { s with writerActive := false } := same rfl rfl
    exact stops.trans (afterEnqueue i _)
  unfold Conn.drainLoop
  split
  case isTrue => exact stopped
  case isFalse =>
    split
    case h_1 => exact stopped
    case h_2 packet rest _ =>
      have released := releaseOutboundBytes (packetBytes packet) { s with sendQueue := rest }
      exact ⟨released.pending, released.queue⟩

/-- `drainAsWriter` adds nothing to the registry. -/
lemma drainAsWriter (env : Env) (i : Nat) (s : Conn) : Shrinks s (s.drainAsWriter env i) := by
  have starts : Shrinks s ({ s with writerActive := true }.setPc i .draining) := same rfl rfl
  unfold Conn.drainAsWriter
  dsimp only
  split
  case isTrue => exact same rfl rfl
  case isFalse => exact starts.trans (drainLoop env i _)

/-- `trySend` adds nothing to the registry. -/
lemma trySend {p : Packet} (sent : s.trySend env p = some t) : Shrinks s t := by
  unfold Conn.trySend at sent
  split at sent
  case isTrue => cases sent
  case isFalse =>
    split at sent
    case isTrue =>
      cases sent
      exact same rfl rfl
    case isFalse =>
      split at sent
      case h_1 =>
        cases sent
        exact same rfl rfl
      case h_2 =>
        obtain ⟨_, sent⟩ := Option.ite_none_right_eq_some.mp sent
        cases sent
        exact same rfl rfl

/-- `sendRacingDeadline` adds nothing to the registry. -/
lemma sendRacingDeadline (i : Nat) (p : Packet) (s : Conn) :
    Shrinks s (s.sendRacingDeadline i p) := by
  have released := releaseOutboundBytes (packetBytes p) s
  unfold Conn.sendRacingDeadline
  split
  case isTrue => exact released.trans (afterEnqueue i _)
  case isFalse =>
    split
    case isTrue => exact released.trans (unwind i _ _)
    case isFalse => exact same rfl rfl

/-- `Channel.send` adds nothing to the registry. -/
lemma channelSend (env : Env) (i : Nat) (p : Packet) (s : Conn) :
    Shrinks s (s.channelSend env i p) := by
  unfold Conn.channelSend
  split
  case h_1 sent => exact (trySend sent).trans (unwind i _ _)
  case h_2 =>
    split
    case isTrue => exact unwind i _ s
    case isFalse => exact same rfl rfl

/-- `put` adds nothing to the registry. -/
lemma put (env : Env) (i : Nat) (p : Packet) (s : Conn) : Shrinks s (s.put env i p) := by
  have charged : Shrinks s { s with queuedBytes := s.queuedBytes + packetBytes p } := same rfl rfl
  unfold Conn.put
  dsimp only
  split
  case h_1 =>
    have queued : Shrinks s { s with
        queuedBytes := s.queuedBytes + packetBytes p, sendQueue := s.sendQueue ++ [p]
        enqueued := s.enqueued ++ [p] } := same rfl rfl
    split
    case isTrue => exact queued.trans (afterEnqueue i _)
    case isFalse => exact queued.trans (drainAsWriter env i _)
  case h_2 =>
    split
    case isTrue =>
      split
      case h_1 sent => exact charged.trans ((trySend sent).trans (afterEnqueue i _))
      case h_2 => exact charged.trans (sendRacingDeadline i p _)
    case isFalse => exact charged.trans (channelSend env i p _)

/-- `awaitOutboundRoom` adds nothing to the registry. -/
lemma awaitOutboundRoom (env : Env) (i : Nat) (p : Packet) (s : Conn) :
    Shrinks s (s.awaitOutboundRoom env i p) := by
  have looped : Shrinks s (s.setPc i (.roomLoop p)) := same rfl rfl
  unfold Conn.awaitOutboundRoom
  dsimp only
  split
  case isTrue =>
    split
    case isTrue => exact looped.trans (afterEnqueue i _)
    case isFalse =>
      split
      case isTrue => exact looped.trans (put env i p _)
      case isFalse => split <;> exact same rfl rfl
  case isFalse =>
    split
    case isTrue => exact looped.trans (afterEnqueue i _)
    case isFalse => exact looped.trans (unwind i _ _)

/-- `enqueue` adds nothing to the registry. -/
lemma enqueueChecked (env : Env) (i : Nat) (p : Packet) (s : Conn) :
    Shrinks s (s.enqueueChecked env i p) := by
  have looped : Shrinks s (s.setPc i (.roomLoop p)) := same rfl rfl
  unfold Conn.enqueueChecked
  dsimp only
  split
  case isTrue => exact looped.trans (put env i p _)
  case isFalse => exact looped.trans (awaitOutboundRoom env i p _)

/-- `send` adds nothing to the registry. -/
lemma sendOnOwner (payload : KBytes) (bizType : Int) (compression : Compression) (s : Conn) :
    Shrinks s (s.sendOnOwner env payload bizType compression) := by
  unfold Conn.sendOnOwner
  dsimp only
  split
  case isTrue => exact same rfl rfl
  case isFalse =>
    split
    case h_1 => exact same rfl rfl
    case h_2 encoded _ =>
      split
      case h_1 => exact same rfl rfl
      case h_2 packet _ =>
        have made (c : Call) : Shrinks s ({ s with oneWayId := s.nextOneWayId }.addCall c) :=
          same rfl rfl
        exact (made _).trans (enqueueChecked env _ packet _)

/-- An answer adds nothing to the registry. -/
lemma respond (messageId : UInt32) (bizType : Int) (response : KBytes) (s : Conn) :
    Shrinks s (s.respond env messageId bizType response) := by
  unfold Conn.respond
  dsimp only
  split
  case h_1 => exact same rfl rfl
  case h_2 encoded _ =>
    split
    case h_1 => exact same rfl rfl
    case h_2 packet _ =>
      have made (c : Call) : Shrinks s (s.addCall c) := same rfl rfl
      exact (made _).trans (enqueueChecked env _ packet _)

/-- A failed socket operation adds nothing to the registry. -/
lemma writerFailed (i : Nat) (r : IoResult) (e : Throwable) (s : Conn) :
    Shrinks s (s.writerFailed i r e) := by
  unfold Conn.writerFailed
  split
  case isTrue =>
    split
    case isTrue =>
      have launched : Shrinks s (s.addCall { kind := .successor, pc := .launched }) := same rfl rfl
      exact launched.trans (unwind i _ _)
    case isFalse =>
      have stops : Shrinks s { s with writerActive := false } := same rfl rfl
      exact stops.trans (unwind i _ _)
  case isFalse =>
    have stops : Shrinks s.shutdown { s.shutdown with writerActive := false } := same rfl rfl
    exact ((shutdown s).trans stops).trans (unwind i _ _)

/-- The end of a socket write adds nothing to the registry. -/
lemma write {r : IoResult} (h : s.write i r = some t) : Shrinks s t := by
  unfold Conn.write at h
  split at h
  case isTrue => cases h
  case isFalse =>
    split at h
    case h_1 =>
      obtain ⟨_, h⟩ := Option.ite_none_right_eq_some.mp h
      cases h
      exact same rfl rfl
    case h_2 | h_3 =>
      cases h
      exact writerFailed i _ _ s

/-- The end of a flush adds nothing to the registry. -/
lemma flush {r : IoResult} (h : s.flush env i r = some t) : Shrinks s t := by
  unfold Conn.flush at h
  split at h
  case isTrue => cases h
  case isFalse =>
    split at h
    case isTrue =>
      cases h
      have drains : Shrinks s (s.setPc i .draining) := same rfl rfl
      exact drains.trans (drainLoop env i _)
    case isFalse =>
      cases h
      exact writerFailed i r _ s

/-- A failed write loop adds nothing to the registry. -/
lemma loopFailed {r : IoResult} (h : s.loopFailed r = some t) : Shrinks s t := by
  unfold Conn.loopFailed at h
  split at h
  case h_1 => cases h
  case h_2 =>
    cases h
    have ends : Shrinks s.shutdown { s.shutdown with writeLoop := .ended } := same rfl rfl
    exact (shutdown s).trans ends
  case h_3 =>
    cases h
    exact same rfl rfl
  case h_4 =>
    obtain ⟨_, h⟩ := Option.ite_none_right_eq_some.mp h
    cases h
    exact same rfl rfl

/-- The end of the write loop's socket write adds nothing to the registry. -/
lemma loopWrite {r : IoResult} (h : s.loopWrite r = some t) : Shrinks s t := by
  unfold Conn.loopWrite at h
  split at h
  case h_1 =>
    split at h
    case isTrue =>
      obtain ⟨_, h⟩ := Option.ite_none_right_eq_some.mp h
      cases h
      exact same rfl rfl
    case isFalse => exact loopFailed h
  case h_2 => cases h

/-- The end of the write loop's flush adds nothing to the registry. -/
lemma loopFlush {r : IoResult} (h : s.loopFlush env r = some t) : Shrinks s t := by
  unfold Conn.loopFlush at h
  split at h
  case h_1 =>
    split at h
    case isTrue =>
      cases h
      exact (releaseOutboundBytes _ s).trans (loopNext env _)
    case isFalse => exact loopFailed h
  case h_2 => cases h

/-- A cancellation adds nothing to the registry. -/
lemma cancel (h : s.cancel i = some t) : Shrinks s t := by
  unfold Conn.cancel at h
  split at h
  case h_1 =>
    cases h
    exact ⟨fun _ _ found => found, List.erase_subset⟩
  all_goals cases h
  all_goals exact same rfl rfl

/-- A request that leaves its `select` adds nothing to the registry. -/
lemma abortSelect (i : Nat) (p : Packet) (s : Conn) : Shrinks s (s.abortSelect i p) := by
  have opened : Shrinks s (s.modReq i fun r => { r with gate := false }) := same rfl rfl
  exact opened.trans (releaseOutboundBytes _ _)

/-- A resumed call adds nothing to the registry, unless it has waited for a slot. -/
lemma dispatch (h : s.dispatch env i = some t) (place : (s.calls i).pc ≠ .slotWait) :
    Shrinks s t := by
  have mod (f : Pending → Pending) : Shrinks s (s.modReq i f) := same rfl rfl
  have cancelled : Shrinks s (s.onRoomCancelled i) := same rfl rfl
  unfold Conn.dispatch at h
  split at h
  case h_1 =>
    cases h
    exact drainAsWriter env i s
  case h_2 slot _ | h_3 slot _ | h_4 slot _ => exact absurd slot place
  all_goals cases h
  case h_5 => exact unwind i _ s
  case h_6 => exact (mod _).trans (awaitOutboundRoom env i _ _)
  case h_7 | h_8 => exact cancelled.trans (unwind i _ _)
  case h_9 | h_10 | h_11 => exact unwind i _ s
  case h_12 => exact (mod _).trans (awaitResponse i _)
  case h_13 => exact (abortSelect i _ s).trans (awaitResponse i _)
  case h_14 | h_15 => exact (abortSelect i _ s).trans (unwind i _ _)
  all_goals exact unwind i _ s

end Shrinks

/-- A step that does not ask for a slot registers nothing. -/
lemma step_shrinks (h : s.step env e = some t) (quiet : ¬ s.Asks e) : Shrinks s t := by
  cases e with
  | request => exact absurd trivial quiet
  | send =>
    cases h
    exact .sendOnOwner _ _ _ s
  | respond =>
    cases h
    exact .respond _ _ _ s
  | dispatch i => exact .dispatch h quiet
  | cancel i => exact .cancel h
  | deadline i =>
    obtain ⟨_, h⟩ := Option.ite_none_right_eq_some.mp h
    cases h
    exact .run i s
  | response packet =>
    obtain ⟨_, rfl⟩ := step_response h
    exact .onResponse packet s
  | transmit i n =>
    obtain ⟨_, h⟩ := Option.ite_none_right_eq_some.mp h
    cases h
    exact .same rfl rfl
  | loopTransmit n =>
    simp only [step] at h
    split at h
    case h_1 =>
      obtain ⟨_, h⟩ := Option.ite_none_left_eq_some.mp h
      cases h
      exact .same rfl rfl
    case h_2 => cases h
  | write i r => exact .write h
  | flush i r => exact .flush h
  | loopRun =>
    obtain ⟨_, h⟩ := Option.ite_none_right_eq_some.mp h
    cases h
    exact .loopNext env s
  | loopWrite r => exact .loopWrite h
  | loopFlush r => exact .loopFlush h
  | shutdown =>
    cases h
    exact .shutdown s

/-! ## Held responses -/

/-- A number that no call has holds nothing. -/
lemma Wf.held_fresh (wf : s.Wf) (ge : s.next ≤ i) : (s.calls i).held = none := by
  rw [wf.fresh i ge]
  rfl

/-- A step that brings no response gives none to a call. -/
lemma step_held (wf : s.Wf) (h : s.step env e = some t) (other : ∀ p, e ≠ .response p) (i : Nat) :
    (t.calls i).held = none ∨ (t.calls i).held = (s.calls i).held := by
  by_cases ended : ∃ o, (t.calls i).pc = .ended o
  · obtain ⟨o, ended⟩ := ended
    exact .inl (Call.held_ended ended)
  have running : ∀ o, (t.calls i).pc ≠ .ended o := fun o eq => ended ⟨o, eq⟩
  rw [Call.held_running running]
  rcases (Later.step wf h).calls i with later | ⟨_, new⟩
  · rw [later.answered other, Call.held_running fun o eq => running o (later.ended o eq)]
    exact .inr rfl
  · exact .inl (new.answered other)

/-- Only a response gives a request something to hold. -/
lemma step_holding (wf : s.Wf) (h : s.step env e = some t) (other : ∀ p, e ≠ .response p) :
    t.holding ≤ s.holding := by
  refine tally_le (Later.step wf h).next (fun i => ?_) fun i ge => ?_
  · rcases step_held wf h other i with none | same
    · simp [none]
    · rw [same]
  · rw [wf.held_fresh ge]
    rfl

/-- A response that finds its request takes it out of the registry and is held. -/
lemma onResponse_holding (packet : Packet) (wf : s.Wf) :
    (s.onResponse packet).holding + (s.onResponse packet).pending.size ≤
      s.holding + s.pending.size := by
  cases found : s.pending.find packet.messageId with
  | none => rw [onResponse_none found]
  | some i =>
    have taken : (s.onResponse packet).pending.size + 1 ≤ s.pending.size := by
      rw [onResponse, found]
      dsimp only
      have shrinks : Shrinks (s.unregister packet.messageId)
          ((s.unregister packet.messageId).complete i packet).wakeOneInFlightWaiter :=
        (Shrinks.steady (complete_steady i packet _)).trans (.wakeOneInFlightWaiter _)
      have le := FinMap.size_le shrinks.pending
      have size := FinMap.size_remove_of_find found
      have same : (s.unregister packet.messageId).pending = s.pending.remove packet.messageId := rfl
      rw [same] at le
      omega
    have frame := onResponse_frame packet s
    have held : (s.onResponse packet).holding ≤ s.holding + 1 := by
      have one : ((s.onResponse packet).calls i).held.elim 0 (fun _ => 1) ≤ 1 := by
        cases ((s.onResponse packet).calls i).held <;> simp
      refine le_trans ?_ (Nat.add_le_add_left one _)
      rw [holding, frame.next]
      refine tally_le_add i fun j ne => Nat.le_of_eq ?_
      rw [Call.held, Call.held, (frame.calls j).pc, onResponse_other wf found ne]
    omega

/-- The held responses and the registered requests stay within the cap, as long as no step asks for a
slot while a response is held. -/
lemma step_capped (nonneg : 0 ≤ env.config.maxInFlightRequests)
    (reach : Runs.Reach (step env) Runs.always init s) (h : s.step env e = some t)
    (quiet : s.Asks e → ∀ i, (s.calls i).held = none)
    (capped : (s.holding + s.pending.size : Int) ≤ env.config.maxInFlightRequests) :
    (t.holding + t.pending.size : Int) ≤ env.config.maxInFlightRequests := by
  have wf : s.Wf := .reach reach
  by_cases response : ∃ p, e = .response p
  · obtain ⟨p, rfl⟩ := response
    obtain ⟨_, rfl⟩ := step_response h
    have le := onResponse_holding p wf
    omega
  have other : ∀ p, e ≠ .response p := fun p eq => response ⟨p, eq⟩
  have held := step_holding wf h other
  by_cases asks : s.Asks e
  · have none : s.holding = 0 := tally_eq_zero fun i _ => by rw [quiet asks i]; rfl
    have cap := (InFlight.reach (reach.next trivial h)).2.cap nonneg
    omega
  · have size := FinMap.size_le (step_shrinks h asks).pending
    omega

end Conn

end MsgTrans
