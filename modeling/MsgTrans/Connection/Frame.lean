import MsgTrans.Connection.Effect

/-!
# Frames

What an operation leaves alone. Changing the record of one call leaves every other call and the
connection's own fields as they are; resuming and settling calls changes who is awake, the waits
of `Pending`s, the waiter lists and the registry, and nothing else (`Frame`).
-/

namespace MsgTrans

namespace Conn

/-! ## Changing one record -/

/-- Changing the record of one call leaves the connection's own fields alone. -/
@[simp] lemma modCall_closed (i f) (s : Conn) : (s.modCall i f).closed = s.closed := rfl
@[simp] lemma modCall_sendQueue (i f) (s : Conn) : (s.modCall i f).sendQueue = s.sendQueue := rfl
@[simp] lemma modCall_writerActive (i f) (s : Conn) :
    (s.modCall i f).writerActive = s.writerActive := rfl
@[simp] lemma modCall_writeBuf (i f) (s : Conn) : (s.modCall i f).writeBuf = s.writeBuf := rfl
@[simp] lemma modCall_outbound (i f) (s : Conn) : (s.modCall i f).outbound = s.outbound := rfl
@[simp] lemma modCall_writeLoop (i f) (s : Conn) : (s.modCall i f).writeLoop = s.writeLoop := rfl
@[simp] lemma modCall_queuedBytes (i f) (s : Conn) :
    (s.modCall i f).queuedBytes = s.queuedBytes := rfl
@[simp] lemma modCall_roomWaiters (i f) (s : Conn) :
    (s.modCall i f).roomWaiters = s.roomWaiters := rfl
@[simp] lemma modCall_inFlightWaiters (i f) (s : Conn) :
    (s.modCall i f).inFlightWaiters = s.inFlightWaiters := rfl
@[simp] lemma modCall_pending (i f) (s : Conn) : (s.modCall i f).pending = s.pending := rfl
@[simp] lemma modCall_requestId (i f) (s : Conn) : (s.modCall i f).requestId = s.requestId := rfl
@[simp] lemma modCall_next (i f) (s : Conn) : (s.modCall i f).next = s.next := rfl
@[simp] lemma modCall_resumes (i f) (s : Conn) : (s.modCall i f).resumes = s.resumes := rfl

/-- The changed record. -/
@[simp] lemma modCall_calls_self (i f) (s : Conn) : (s.modCall i f).calls i = f (s.calls i) := by
  simp [modCall]

/-- Every record after a change, by cases. -/
lemma modCall_calls (i f) (s : Conn) (j : Nat) :
    (s.modCall i f).calls j = if j = i then f (s.calls i) else s.calls j := by
  simp [modCall, Function.update_apply]

/-- The other records stay. -/
lemma modCall_calls_of_ne {i j : Nat} (f) (s : Conn) (ne : j ≠ i) :
    (s.modCall i f).calls j = s.calls j := by
  simp [modCall_calls, ne]

/-- Two changes of one record are one change. -/
@[simp] lemma modCall_modCall (i f g) (s : Conn) :
    (s.modCall i f).modCall i g = s.modCall i fun c => g (f c) := by
  simp [modCall]

/-- A change that changes nothing. -/
lemma modCall_id {i : Nat} {f : Call → Call} {s : Conn} (h : f (s.calls i) = s.calls i) :
    s.modCall i f = s := by
  simp [modCall, h]

/-- Of two moves only the second counts. -/
@[simp] lemma setPc_setPc (i pc pc') (s : Conn) : (s.setPc i pc).setPc i pc' = s.setPc i pc' := by
  simp [setPc]

/-- The place a call was moved to. -/
lemma setPc_pc (i pc) (s : Conn) : ((s.setPc i pc).calls i).pc = pc := by
  simp [setPc]

/-- Moving a call to where it is. -/
lemma setPc_self {i : Nat} {pc : Pc} {s : Conn} (h : (s.calls i).pc = pc) : s.setPc i pc = s := by
  apply modCall_id
  subst h
  rfl

/-! ## Leaving a wait -/

/-- The record of a slot waiter that leaves after its cancellation. -/
lemma slotCancelled_calls (i pc) (s : Conn) :
    ((s.onSlotCancelled i).setPc i pc).calls = Function.update s.calls i { s.calls i with
      pc, req := { (s.calls i).req with slotCont := none } } := by
  simp [setPc, onSlotCancelled, modReq, modCall]

/-- The record of a room waiter that leaves after its cancellation. -/
lemma roomCancelled_calls (i pc) (s : Conn) :
    ((s.onRoomCancelled i).setPc i pc).calls = Function.update s.calls i { s.calls i with
      pc, req := { (s.calls i).req with roomCont := none } } := by
  simp [setPc, onRoomCancelled, modReq, modCall]

/-- The record of a slot waiter at the moment it is cancelled. -/
lemma cancelSlot_calls (i) (s : Conn) :
    ((s.onSlotCancelled i).setCancelled i).calls = Function.update s.calls i { s.calls i with
      wake := .cancelled, req := { (s.calls i).req with slotCont := none } } := by
  simp [setCancelled, onSlotCancelled, modReq, modCall]

/-- The record of a room waiter at the moment it is cancelled. -/
lemma cancelRoom_calls (i) (s : Conn) :
    ((s.onRoomCancelled i).setCancelled i).calls = Function.update s.calls i { s.calls i with
      wake := .cancelled, req := { (s.calls i).req with roomCont := none } } := by
  simp [setCancelled, onRoomCancelled, modReq, modCall]

end Conn

/-! ## Waking and settling -/

/-- The call has only been resumed, settled or timed out. -/
structure Call.Frame (c c' : Call) : Prop where
  kind : c'.kind = c.kind
  payload : c'.payload = c.payload
  bizType : c'.bizType = c.bizType
  compression : c'.compression = c.compression
  encoded : c'.encoded = c.encoded
  pc : c'.pc = c.pc
  seq : c'.seq = c.seq
  id : c'.req.id = c.req.id
  parked : c'.wake = .parked → c.wake = .parked

/-- An untouched call is framed. -/
lemma Call.Frame.refl (c : Call) : Call.Frame c c :=
  ⟨rfl, rfl, rfl, rfl, rfl, rfl, rfl, rfl, fun h => h⟩

/-- Frames of a call compose. -/
lemma Call.Frame.trans {c c' c'' : Call} (h : Call.Frame c c') (h' : Call.Frame c' c'') :
    Call.Frame c c'' where
  kind := h'.kind.trans h.kind
  payload := h'.payload.trans h.payload
  bizType := h'.bizType.trans h.bizType
  compression := h'.compression.trans h.compression
  encoded := h'.encoded.trans h.encoded
  pc := h'.pc.trans h.pc
  seq := h'.seq.trans h.seq
  id := h'.id.trans h.id
  parked := h.parked ∘ h'.parked

namespace Conn

/-- The calls apart, only waiter lists, the registry and the budget have changed. -/
structure Still (s s' : Conn) : Prop where
  closed : s'.closed = s.closed
  sendQueue : s'.sendQueue = s.sendQueue
  writerActive : s'.writerActive = s.writerActive
  writeBuf : s'.writeBuf = s.writeBuf
  buffer : s'.outbound.buffer = s.outbound.buffer
  writeLoop : s'.writeLoop = s.writeLoop
  requestId : s'.requestId = s.requestId
  next : s'.next = s.next
  enqueued : s'.enqueued = s.enqueued
  written : s'.written = s.written
  transmitted : s'.transmitted = s.transmitted

namespace Still

variable {s s' s'' : Conn}

/-- Nothing has changed. -/
lemma refl (s : Conn) : Still s s :=
  ⟨rfl, rfl, rfl, rfl, rfl, rfl, rfl, rfl, rfl, rfl, rfl⟩

/-- What two steps leave still, both leave still. -/
lemma trans (h : Still s s') (h' : Still s' s'') : Still s s'' where
  closed := h'.closed.trans h.closed
  sendQueue := h'.sendQueue.trans h.sendQueue
  writerActive := h'.writerActive.trans h.writerActive
  writeBuf := h'.writeBuf.trans h.writeBuf
  buffer := h'.buffer.trans h.buffer
  writeLoop := h'.writeLoop.trans h.writeLoop
  requestId := h'.requestId.trans h.requestId
  next := h'.next.trans h.next
  enqueued := h'.enqueued.trans h.enqueued
  written := h'.written.trans h.written
  transmitted := h'.transmitted.trans h.transmitted

end Still

/-- Only waits, waiter lists, the registry and the budget have changed. -/
structure Frame (s s' : Conn) : Prop extends Still s s' where
  calls : ∀ i, Call.Frame (s.calls i) (s'.calls i)

namespace Frame

variable {s s' s'' : Conn}

/-- Nothing has changed. -/
lemma refl (s : Conn) : Frame s s :=
  ⟨.refl s, fun _ => .refl _⟩

/-- Frames compose. -/
lemma trans (h : Frame s s') (h' : Frame s' s'') : Frame s s'' where
  toStill := h.toStill.trans h'.toStill
  calls i := (h.calls i).trans (h'.calls i)

/-- Changing one record within its frame. -/
lemma modCall {i : Nat} {f : Call → Call} (h : Call.Frame (s.calls i) (f (s.calls i))) :
    Frame s (s.modCall i f) := by
  refine { refl s with calls := fun j => ?_ }
  rw [modCall_calls]
  split
  case isTrue eq =>
    subst eq
    exact h
  case isFalse => exact .refl _

/-- Frames along a loop. -/
lemma foldl {α : Type} {f : Conn → α → Conn} (h : ∀ s a, Frame s (f s a)) (l : List α) (s : Conn) :
    Frame s (l.foldl f s) := by
  induction l generalizing s with
  | nil => exact refl s
  | cons a l ih => exact (h s a).trans (ih (f s a))

end Frame

/-- A frame that leaves the waiter lists, the registry and the budget alone as well. -/
structure Steady (s s' : Conn) : Prop extends Frame s s' where
  roomWaiters : s'.roomWaiters = s.roomWaiters
  inFlightWaiters : s'.inFlightWaiters = s.inFlightWaiters
  pending : s'.pending = s.pending
  queuedBytes : s'.queuedBytes = s.queuedBytes
  roomCont : ∀ i, (s'.calls i).req.roomCont = (s.calls i).req.roomCont

namespace Steady

variable {s s' s'' : Conn}

/-- Nothing has changed. -/
lemma refl (s : Conn) : Steady s s :=
  ⟨.refl s, rfl, rfl, rfl, rfl, fun _ => rfl⟩

/-- Steady steps compose. -/
lemma trans (h : Steady s s') (h' : Steady s' s'') : Steady s s'' where
  toFrame := h.toFrame.trans h'.toFrame
  roomWaiters := h'.roomWaiters.trans h.roomWaiters
  inFlightWaiters := h'.inFlightWaiters.trans h.inFlightWaiters
  pending := h'.pending.trans h.pending
  queuedBytes := h'.queuedBytes.trans h.queuedBytes
  roomCont i := (h'.roomCont i).trans (h.roomCont i)

/-- Changing one record within its frame, with the room continuation kept. -/
lemma modCall {i : Nat} {f : Call → Call} (h : Call.Frame (s.calls i) (f (s.calls i)))
    (room : (f (s.calls i)).req.roomCont = (s.calls i).req.roomCont) :
    Steady s (s.modCall i f) := by
  refine ⟨.modCall h, rfl, rfl, rfl, rfl, fun j => ?_⟩
  rw [modCall_calls]
  split
  case isTrue eq => rw [eq, room]
  case isFalse => rfl

/-- Changing a `Pending` but for its id and its room continuation is steady. -/
lemma modReq {i : Nat} {f : Pending → Pending} (id : ∀ r, (f r).id = r.id)
    (room : ∀ r, (f r).roomCont = r.roomCont) : Steady s (s.modReq i f) :=
  modCall { Call.Frame.refl (s.calls i) with id := id _ } (room _)

/-- Steady steps along a loop. -/
lemma foldl {α : Type} {f : Conn → α → Conn} (h : ∀ s a, Steady s (f s a)) (l : List α)
    (s : Conn) : Steady s (l.foldl f s) := by
  induction l generalizing s with
  | nil => exact refl s
  | cons a l ih => exact (h s a).trans (ih (f s a))

end Steady

/-- Resuming a continuation touches the call it belongs to and no queue. -/
lemma resume_steady (k r) (s : Conn) : Steady s (s.resume k r) := by
  have h : Steady s (s.modCall k.call (Call.resumed k.seq r)) := by
    unfold Call.resumed
    apply Steady.modCall
    · split
      · exact { Call.Frame.refl (s.calls k.call) with parked := by simp }
      · exact .refl _
    · split <;> rfl
  exact { h with }

/-- Resuming a slot continuation touches no queue. -/
lemma resumeSlot_steady (i) (s : Conn) : Steady s (s.resumeSlot i) := by
  unfold resumeSlot
  split
  case h_1 => exact .refl s
  case h_2 k _ =>
    refine (resume_steady k .unit s).trans ?_
    exact .modReq (fun _ => rfl) fun _ => rfl

/-- Opening the gate withdraws the sender and touches no queue of the connection. -/
lemma completeGate_steady (i) (s : Conn) : Steady s (s.completeGate i) := by
  unfold completeGate
  split
  case h_1 =>
    have h : Steady s (s.modCall i fun c => { c with wake := .resumed .gate }) :=
      .modCall { Call.Frame.refl (s.calls i) with parked := by simp } rfl
    exact { h with }
  case h_2 => exact .refl s

/-- Resuming the waiter of a request touches no queue. -/
lemma resumeWaiter_steady (i r) (s : Conn) : Steady s (s.resumeWaiter i r) := by
  unfold resumeWaiter
  split
  case h_1 => exact .refl s
  case h_2 k _ =>
    refine Steady.trans ?_ (resume_steady k r _)
    exact .modReq (fun _ => rfl) fun _ => rfl

/-- Settling a request touches no queue, the registry or the budget. -/
lemma settle_steady {i r} {store : Pending → Pending} (id : ∀ p, (store p).id = p.id)
    (room : ∀ p, (store p).roomCont = p.roomCont) (s : Conn) : Steady s (s.settle i store r) := by
  unfold settle
  split
  case isTrue => exact .refl s
  case isFalse =>
    refine Steady.trans ?_ (resumeWaiter_steady i _ _)
    refine Steady.trans ?_ (completeGate_steady i _)
    exact .modReq id room

/-- `Pending.complete` is steady. -/
lemma complete_steady (i packet) (s : Conn) : Steady s (s.complete i packet) := by
  refine settle_steady ?_ ?_ s <;> exact fun _ => rfl

/-- `Pending.fail` is steady. -/
lemma fail_steady (i e) (s : Conn) : Steady s (s.fail i e) := by
  refine settle_steady ?_ ?_ s <;> exact fun _ => rfl

/-- A frame in which calls are only resumed: nothing is settled and the registry stays. -/
structure Waking (s s' : Conn) : Prop extends Frame s s' where
  pending : s'.pending = s.pending
  response : ∀ i, (s'.calls i).req.response = (s.calls i).req.response
  error : ∀ i, (s'.calls i).req.error = (s.calls i).req.error
  ran : ∀ i, (s'.calls i).req.ran = (s.calls i).req.ran
  packet : ∀ i p, (s'.calls i).wake = .resumed (.packet p) → (s.calls i).wake = .resumed (.packet p)

namespace Waking

variable {s s' s'' : Conn}

/-- Nothing has changed. -/
lemma refl (s : Conn) : Waking s s :=
  ⟨.refl s, rfl, fun _ => rfl, fun _ => rfl, fun _ => rfl, fun _ _ h => h⟩

/-- Waking steps compose. -/
lemma trans (h : Waking s s') (h' : Waking s' s'') : Waking s s'' where
  toFrame := h.toFrame.trans h'.toFrame
  pending := h'.pending.trans h.pending
  response i := (h'.response i).trans (h.response i)
  error i := (h'.error i).trans (h.error i)
  ran i := (h'.ran i).trans (h.ran i)
  packet i p woken := h.packet i p (h'.packet i p woken)

/-- Changing one record without settling it. -/
lemma modCall {i : Nat} {f : Call → Call} (h : Call.Frame (s.calls i) (f (s.calls i)))
    (response : (f (s.calls i)).req.response = (s.calls i).req.response)
    (error : (f (s.calls i)).req.error = (s.calls i).req.error)
    (ran : (f (s.calls i)).req.ran = (s.calls i).req.ran)
    (packet : ∀ p, (f (s.calls i)).wake = .resumed (.packet p) →
      (s.calls i).wake = .resumed (.packet p)) : Waking s (s.modCall i f) := by
  refine ⟨.modCall h, rfl, fun j => ?_, fun j => ?_, fun j => ?_, fun j p => ?_⟩ <;>
    rw [modCall_calls] <;> split
  case refine_1.isTrue eq => rw [eq, response]
  case refine_2.isTrue eq => rw [eq, error]
  case refine_3.isTrue eq => rw [eq, ran]
  case refine_4.isTrue eq =>
    rw [eq]
    exact packet p
  case refine_4.isFalse => exact id
  all_goals rfl

/-- Changing the stored continuations of a `Pending` settles nothing. -/
lemma modReq {i : Nat} {f : Pending → Pending} (id : ∀ r, (f r).id = r.id)
    (response : ∀ r, (f r).response = r.response) (error : ∀ r, (f r).error = r.error)
    (ran : ∀ r, (f r).ran = r.ran) : Waking s (s.modReq i f) :=
  modCall { Call.Frame.refl (s.calls i) with id := id _ } (response _) (error _) (ran _) fun _ h => h

/-- Who was settled is settled, and nobody else. -/
lemma completed (h : Waking s s') (i : Nat) :
    (s'.calls i).req.isCompleted = (s.calls i).req.isCompleted := by
  simp only [Pending.isCompleted, h.response, h.error]

/-- Waking steps along a loop. -/
lemma foldl {α : Type} {f : Conn → α → Conn} (h : ∀ s a, Waking s (f s a)) (l : List α)
    (s : Conn) : Waking s (l.foldl f s) := by
  induction l generalizing s with
  | nil => exact refl s
  | cons a l ih => exact (h s a).trans (ih (f s a))

end Waking

/-- A resumption that brings no packet only wakes. -/
lemma resume_waking (k) {r : Resumption} (plain : ∀ p, r ≠ .packet p) (s : Conn) :
    Waking s (s.resume k r) := by
  have h : Waking s (s.modCall k.call (Call.resumed k.seq r)) := by
    unfold Call.resumed
    apply Waking.modCall
    · split
      · exact { Call.Frame.refl (s.calls k.call) with parked := by simp }
      · exact .refl _
    · split <;> rfl
    · split <;> rfl
    · split <;> rfl
    · intro p woken
      split at woken
      · simp [plain] at woken
      · exact woken
  exact { h with }

/-- A room wake-up only wakes. -/
lemma wakeOneRoomWaiter_waking (s : Conn) : Waking s s.wakeOneRoomWaiter := by
  unfold wakeOneRoomWaiter
  split
  case h_1 => exact .refl s
  case h_2 k ks _ => exact { resume_waking k (by simp) { s with roomWaiters := ks } with }

/-- Releasing bytes changes the budget and only wakes. -/
lemma releaseOutboundBytes_waking (bytes) (s : Conn) : Waking s (s.releaseOutboundBytes bytes) := by
  unfold releaseOutboundBytes
  exact { wakeOneRoomWaiter_waking _ with }

/-- A request that leaves its `select` without having sent only wakes. -/
lemma abortSelect_waking (i p) (s : Conn) : Waking s (s.abortSelect i p) := by
  unfold abortSelect
  refine Waking.trans ?_ (releaseOutboundBytes_waking _ _)
  exact .modReq (fun _ => rfl) (fun _ => rfl) (fun _ => rfl) fun _ => rfl

/-- Resuming a slot waiter only wakes. -/
lemma resumeSlot_waking (i) (s : Conn) : Waking s (s.resumeSlot i) := by
  unfold resumeSlot
  split
  case h_1 => exact .refl s
  case h_2 k _ =>
    refine (resume_waking (r := .unit) k (by simp) s).trans ?_
    exact .modReq (fun _ => rfl) (fun _ => rfl) (fun _ => rfl) fun _ => rfl

/-- A slot wake-up only wakes. -/
lemma wakeOneInFlightWaiter_waking (s : Conn) : Waking s s.wakeOneInFlightWaiter := by
  unfold wakeOneInFlightWaiter
  split
  case h_1 => exact .refl s
  case h_2 i is _ => exact { resumeSlot_waking i { s with inFlightWaiters := is } with }

/-- The room part of the deadline only wakes. -/
lemma runRoom_waking (i) (s : Conn) : Waking s (s.runRoom i) := by
  unfold runRoom
  split
  case h_1 => exact wakeOneInFlightWaiter_waking s
  case h_2 k _ =>
    have resumed : Waking s ({ s with roomWaiters := s.roomWaiters.erase k }.resume k .unit) :=
      { resume_waking k (by simp) { s with roomWaiters := s.roomWaiters.erase k } with }
    dsimp only
    split
    · exact resumed
    · refine Waking.trans ?_ (wakeOneInFlightWaiter_waking _)
      exact resumed.trans (.modReq (fun _ => rfl) (fun _ => rfl) (fun _ => rfl) fun _ => rfl)

/-- Taking an entry out of the registry leaves the calls alone. -/
lemma unregister_frame (id) (s : Conn) : Frame s (s.unregister id) :=
  { Frame.refl s with }

/-- The timer's firing is a note in its own request. -/
lemma fire_steady (i) (s : Conn) : Steady s (s.fire i) :=
  .modReq (fun _ => rfl) fun _ => rfl

/-- A deadline that settles its request is a frame. -/
lemma expire_frame (i) (s : Conn) : Frame s (s.expire i) := by
  unfold expire
  refine Frame.trans ?_ (runRoom_waking i _).toFrame
  refine Frame.trans ?_ (resumeSlot_steady i _).toFrame
  exact (fail_steady i _ _).toFrame.trans (unregister_frame _ _)

/-- A deadline is a frame, whether or not it settles its request. -/
lemma run_frame (i) (s : Conn) : Frame s (s.run i) := by
  unfold run
  split
  · exact (fire_steady i s).toFrame
  · exact (fire_steady i s).toFrame.trans (expire_frame i _)

/-- A response is a frame. -/
lemma onResponse_frame (packet) (s : Conn) : Frame s (s.onResponse packet) := by
  unfold onResponse
  split
  case h_1 => exact .refl s
  case h_2 i _ =>
    exact (unregister_frame _ _).trans
      ((complete_steady i packet _).toFrame.trans (wakeOneInFlightWaiter_waking _).toFrame)

/-- The write loop does not close the connection. -/
lemma loopNext_closed (env) (s : Conn) : (s.loopNext env).closed = s.closed := by
  unfold loopNext
  split <;> rfl

/-- The write loop makes no ids. -/
lemma loopNext_requestId (env) (s : Conn) : (s.loopNext env).requestId = s.requestId := by
  unfold loopNext
  split <;> rfl

/-- The write loop lets a sender in, but moves no call. -/
lemma loopNext_pc (env) (s : Conn) (j : Nat) : ((s.loopNext env).calls j).pc = (s.calls j).pc := by
  have accepted : ∀ (i : Nat) (outbound : Channel),
      (({ s with outbound }.acceptSender i).calls j).pc = (s.calls j).pc := by
    intro i outbound
    rw [acceptSender, modCall_calls]
    split
    case isTrue eq => rw [eq]
    case isFalse => rfl
  unfold loopNext
  split
  case h_2 j q senders _ _ => exact accepted _ ⟨_, senders⟩
  case h_3 j q senders _ _ => exact accepted _ ⟨_, senders⟩
  all_goals rfl

/-- The end of a call changes nothing of the outbound path. -/
lemma finish_still (i o) (s : Conn) : Still s (s.finish i o) := by
  have ended : Still s (s.dispose i o) := { Still.refl s with }
  unfold finish
  split
  case isTrue =>
    dsimp only
    split
    case isTrue =>
      exact ended.trans ((unregister_frame _ _).toStill.trans
        (wakeOneInFlightWaiter_waking _).toStill)
    case isFalse => exact ended
  case isFalse => exact { Still.refl s with }

/-- The call is over and every other call stays where it is. -/
lemma finish_pc (i o) (s : Conn) (j : Nat) :
    ((s.finish i o).calls j).pc = if j = i then .ended o else (s.calls j).pc := by
  have ended : ((s.dispose i o).calls j).pc = if j = i then .ended o else (s.calls j).pc := by
    simp only [dispose, modCall_calls]
    split <;> rfl
  unfold finish
  split
  case isTrue =>
    dsimp only
    split
    case isTrue => exact ((wakeOneInFlightWaiter_waking _).calls j).pc.trans ended
    case isFalse => exact ended
  case isFalse =>
    rw [setPc, modCall_calls]
    split <;> rfl

/-! ## Settling does not look at the slot queue -/

/-- The gate, whatever the slot queue is. -/
lemma completeGate_queue (i l) (s : Conn) :
    { s with inFlightWaiters := l }.completeGate i = { s.completeGate i with inFlightWaiters := l } := by
  unfold completeGate
  dsimp only
  split <;> rfl

/-- The waiter, whatever the slot queue is. -/
lemma resumeWaiter_queue (i r l) (s : Conn) :
    { s with inFlightWaiters := l }.resumeWaiter i r =
      { s.resumeWaiter i r with inFlightWaiters := l } := by
  unfold resumeWaiter
  dsimp only
  split <;> rfl

/-- `Pending.fail`, whatever the slot queue is. -/
lemma fail_queue (i e l) (s : Conn) :
    { s with inFlightWaiters := l }.fail i e = { s.fail i e with inFlightWaiters := l } := by
  unfold fail settle
  dsimp only
  split
  case isTrue => rfl
  case isFalse =>
    rw [← resumeWaiter_queue, ← completeGate_queue]
    rfl

/-! ## Shutdown -/

/-- Failing the registered requests is a frame. -/
lemma failPending_frame (s : Conn) : Frame s s.failPending :=
  { (Steady.foldl (fun _ _ => fail_steady _ _ _) _ _).toFrame with }

/-- Failing the room waiters is a frame. -/
lemma failRoomWaiters_frame (s : Conn) : Frame s s.failRoomWaiters := by
  refine Frame.foldl (fun s k => ?_) _ s
  exact { resume_steady k _ { s with roomWaiters := s.roomWaiters.tail } with }

/-- Failing the slot waiters is a frame. -/
lemma failSlotWaiters_frame (s : Conn) : Frame s s.failSlotWaiters := by
  refine Frame.foldl (fun s i => ?_) _ s
  refine Frame.trans ?_ (resumeSlot_steady i _).toFrame
  exact { fail_steady i _ { s with inFlightWaiters := s.inFlightWaiters.tail } with }

/-- Cancelling a call settles nothing and resumes nobody. -/
lemma cancel_waking {i : Nat} {s t : Conn} (h : s.cancel i = some t) : Waking s t := by
  have cancelled (w : Wake) (parked : w ≠ .parked) (woken : ∀ p, w ≠ .resumed (.packet p)) :
      Waking s (s.modCall i fun c => { c with wake := w }) :=
    .modCall { Call.Frame.refl (s.calls i) with parked := fun h => absurd h parked } rfl rfl rfl
      fun p h => absurd h (woken p)
  have withdrawn := cancelled .cancelled (by simp) (by simp)
  unfold cancel at h
  split at h <;> cases h
  case h_1 =>
    refine Waking.trans ?_ (.modCall { Call.Frame.refl _ with parked := by simp } rfl rfl rfl (by simp))
    have dropped : Waking s (s.modReq i fun r => { r with slotCont := none }) :=
      .modReq (fun _ => rfl) (fun _ => rfl) (fun _ => rfl) fun _ => rfl
    exact { dropped with }
  case h_2 =>
    refine Waking.trans ?_ (.modCall { Call.Frame.refl _ with parked := by simp } rfl rfl rfl (by simp))
    have dropped : Waking s (s.modReq i fun r => { r with roomCont := none }) :=
      .modReq (fun _ => rfl) (fun _ => rfl) (fun _ => rfl) fun _ => rfl
    exact { dropped with }
  case h_3 | h_4 => exact { withdrawn with }
  case h_5 => exact withdrawn
  all_goals exact cancelled _ (by simp) (by simp)

/-- Either nothing happens to call `i`, or it is the handler loop's and is cancelled. -/
lemma cancelResponse_cases (s : Conn) (i : Nat) : s.cancelResponse i = s ∨
    (s.calls i).kind = .response ∧ s.cancel i = some (s.cancelResponse i) := by
  unfold cancelResponse
  split
  case isTrue response =>
    cases h : s.cancel i with
    | none => exact .inl rfl
    | some t => exact .inr ⟨response, rfl⟩
  case isFalse => exact .inl rfl

/-- Cancelling a call of the handler loop only wakes. -/
lemma cancelResponse_waking (s : Conn) (i : Nat) : Waking s (s.cancelResponse i) := by
  rcases s.cancelResponse_cases i with same | ⟨_, cancelled⟩
  · rw [same]
    exact .refl s
  · exact cancel_waking cancelled

/-- The handler job's cancellation settles nothing and resumes nobody. -/
lemma cancelHandler_waking (s : Conn) : Waking s s.cancelHandler :=
  .foldl cancelResponse_waking _ s

/-- `shutdown` marks an open connection closed and drops its queue; the rest is a frame. -/
lemma shutdown_frame {s : Conn} (opened : s.closed = false) :
    Frame { s with closed := true, sendQueue := [] } s.shutdown := by
  have failed := failPending_frame { s with closed := true }
  simp only [shutdown, opened, Bool.false_eq_true, if_false]
  refine Frame.trans ?_ (cancelHandler_waking _).toFrame
  refine Frame.trans ?_ (failSlotWaiters_frame _)
  refine Frame.trans ?_ (failRoomWaiters_frame _)
  exact { failed with sendQueue := rfl }

/-- After `shutdown` the connection is closed. -/
lemma shutdown_closed (s : Conn) : s.shutdown.closed = true := by
  cases opened : s.closed with
  | true => simp [shutdown, opened]
  | false => exact (shutdown_frame opened).closed

/-- `shutdown` moves no call. -/
lemma shutdown_calls (s : Conn) (i : Nat) : Call.Frame (s.calls i) (s.shutdown.calls i) := by
  cases opened : s.closed with
  | true => simpa [shutdown, opened] using Call.Frame.refl _
  | false => exact (shutdown_frame opened).calls i

/-- Only `shutdown` closes a connection, and nothing opens it again. -/
lemma effect_closed {env : Env} {A : Trigger} {s t : Conn} (h : Effect env A s t) :
    t.closed = s.closed ∨ s.closed = false ∧ (s.SenderParked → A .senderStranded) ∧
      t = s.shutdown := by
  cases h with
  | shutdown opened stranded => exact .inr ⟨opened, stranded, rfl⟩
  | slotRefused _ _ _ _ _ _ => exact .inl (finish_still _ _ _).closed
  | drainTake _ _ _ => exact .inl (releaseOutboundBytes_waking _ _).closed
  | selectGate _ _ _ => exact .inl (abortSelect_waking _ _ _).closed
  | selectCancelled _ _ _ => exact .inl (abortSelect_waking _ _ _).closed
  | finish _ _ => exact .inl (finish_still _ _ _).closed
  | loopNext _ => exact .inl ((loopNext_closed _ _).trans (releaseOutboundBytes_waking _ _).closed)
  | loopRun _ _ => exact .inl (loopNext_closed _ _)
  | deadline _ _ _ _ _ _ => exact .inl (run_frame _ s).closed
  | response _ _ _ _ _ _ _ => exact .inl (onResponse_frame _ s).closed
  | _ => exact .inl rfl

/-- A closed connection stays closed. -/
lemma effect_opened {env : Env} {A : Trigger} {s t : Conn} (h : Effect env A s t)
    (opened : t.closed = false) : s.closed = false := by
  rcases effect_closed h with same | ⟨opened', _, _⟩
  · exact same ▸ opened
  · exact opened'

end Conn

end MsgTrans
