import MsgTrans.Connection.Progress
import MsgTrans.Connection.Registry
import MsgTrans.Connection.WriteLoop

/-!
# After shutdown

`shutdown` fails every registered request, empties the queues and resumes whoever waits in them, cancels
the handler loop, and a closed connection takes nothing in any more. One wait is forgotten: a caller of
`send` that is suspended in the `outbound.send` of CHANNEL mode stays there.
-/

namespace MsgTrans

namespace Conn

/-! ## What shutdown leaves -/

/-- Failing the room waiters empties their queue and nothing else. -/
lemma failRoomWaiters_spec (s : Conn) : s.failRoomWaiters.roomWaiters = [] ∧
    s.failRoomWaiters.inFlightWaiters = s.inFlightWaiters ∧ s.failRoomWaiters.pending = s.pending ∧
      s.failRoomWaiters.queuedBytes = s.queuedBytes := by
  have fold : ∀ (l : List Cont) (s t : Conn), s.roomWaiters = l →
      l.foldl (fun s k => { s with roomWaiters := s.roomWaiters.tail }.resume k
        (.throw closedException)) s = t →
      t.roomWaiters = [] ∧ t.inFlightWaiters = s.inFlightWaiters ∧ t.pending = s.pending ∧
        t.queuedBytes = s.queuedBytes := by
    intro l
    induction l with
    | nil =>
      rintro s t queue rfl
      exact ⟨queue, rfl, rfl, rfl⟩
    | cons k ks ih =>
      intro s t queue eq
      exact ih ({ s with roomWaiters := s.roomWaiters.tail }.resume k (.throw closedException)) t
        (by simp [resume, queue]) eq
  exact fold _ s _ rfl rfl

/-- Failing the slot waiters empties their queue and nothing else. -/
lemma failSlotWaiters_spec (s : Conn) : s.failSlotWaiters.inFlightWaiters = [] ∧
    s.failSlotWaiters.roomWaiters = s.roomWaiters ∧ s.failSlotWaiters.pending = s.pending ∧
      s.failSlotWaiters.queuedBytes = s.queuedBytes := by
  have fold : ∀ (l : List Nat) (s t : Conn), s.inFlightWaiters = l →
      l.foldl (fun s i => ({ s with inFlightWaiters := s.inFlightWaiters.tail }.fail i
        closedException).resumeSlot i) s = t →
      t.inFlightWaiters = [] ∧ t.roomWaiters = s.roomWaiters ∧ t.pending = s.pending ∧
        t.queuedBytes = s.queuedBytes := by
    intro l
    induction l with
    | nil =>
      rintro s t queue rfl
      exact ⟨queue, rfl, rfl, rfl⟩
    | cons i is ih =>
      intro s t queue eq
      set u : Conn := { s with inFlightWaiters := s.inFlightWaiters.tail }
      have steady : Steady u ((u.fail i closedException).resumeSlot i) :=
        (fail_steady i closedException u).trans (resumeSlot_steady i _)
      obtain ⟨slots, room, pending, bytes⟩ := ih ((u.fail i closedException).resumeSlot i) t
        (by rw [steady.inFlightWaiters]; simp [u, queue]) eq
      exact ⟨slots, room.trans steady.roomWaiters, pending.trans steady.pending,
        bytes.trans steady.queuedBytes⟩
  exact fold _ s _ rfl rfl

/-- The handler job's cancellation leaves empty queues empty, and the registry and the budget alone. -/
lemma cancelHandler_spec {s : Conn} (room : s.roomWaiters = []) (slots : s.inFlightWaiters = []) :
    s.cancelHandler.roomWaiters = [] ∧ s.cancelHandler.inFlightWaiters = [] ∧
      s.cancelHandler.queuedBytes = s.queuedBytes := by
  have turn {s t : Conn} {i : Nat} (room : s.roomWaiters = []) (slots : s.inFlightWaiters = [])
      (h : s.cancel i = some t) :
      t.roomWaiters = [] ∧ t.inFlightWaiters = [] ∧ t.queuedBytes = s.queuedBytes := by
    unfold cancel at h
    split at h <;> cases h <;>
      simp [setCancelled, onSlotCancelled, onRoomCancelled, modReq, room, slots]
  have fold : ∀ (l : List Nat) (s : Conn), s.roomWaiters = [] → s.inFlightWaiters = [] →
      (l.foldl cancelResponse s).roomWaiters = [] ∧ (l.foldl cancelResponse s).inFlightWaiters = [] ∧
        (l.foldl cancelResponse s).queuedBytes = s.queuedBytes := by
    intro l
    induction l with
    | nil => exact fun s room slots => ⟨room, slots, rfl⟩
    | cons i is ih =>
      intro s room slots
      rcases s.cancelResponse_cases i with same | ⟨_, cancelled⟩
      · rw [List.foldl_cons, same]
        exact ih s room slots
      · obtain ⟨room', slots', bytes⟩ := turn room slots cancelled
        obtain ⟨room'', slots'', bytes'⟩ := ih _ room' slots'
        exact ⟨room'', slots'', bytes'.trans bytes⟩
  exact fold _ s room slots

/-- A cancelled call is not parked. -/
lemma cancel_not_parked {s t : Conn} {i : Nat} (h : s.cancel i = some t) :
    (t.calls i).wake ≠ .parked := by
  unfold cancel at h
  split at h <;> cases h <;> simp [setCancelled]

/-- A call that is parked in a wait can be cancelled. -/
lemma cancel_of_parked {s : Conn} {i : Nat} (waits : (s.calls i).pc.waits)
    (parked : (s.calls i).wake = .parked) : (s.cancel i).isSome := by
  unfold cancel
  cases pc : (s.calls i).pc <;> simp [pc] at waits <;> simp [parked]

/-- After the handler job's cancellation no call of the handler loop is parked. -/
lemma cancelHandler_not_parked {s : Conn} {i : Nat} (wf : s.Wf)
    (response : (s.cancelHandler.calls i).kind = .response)
    (waits : (s.cancelHandler.calls i).pc.waits) : (s.cancelHandler.calls i).wake ≠ .parked := by
  have fold : ∀ (l : List Nat) (s : Conn), i ∈ l → (s.calls i).kind = .response →
      (s.calls i).pc.waits → ((l.foldl cancelResponse s).calls i).wake ≠ .parked := by
    intro l
    induction l with
    | nil => exact fun s mem => absurd mem List.not_mem_nil
    | cons j l ih =>
      intro s mem response waits parked
      have turn := (cancelResponse_waking s j).calls i
      by_cases eq : i = j
      · subst eq
        have before := turn.parked
          (((Waking.foldl cancelResponse_waking l (s.cancelResponse i)).calls i).parked parked)
        obtain ⟨t, cancelled⟩ := Option.isSome_iff_exists.mp (cancel_of_parked waits before)
        have eq : s.cancelResponse i = t := by
          rw [cancelResponse, if_pos response, cancelled, Option.getD_some]
        rw [List.foldl_cons, eq] at parked
        exact cancel_not_parked cancelled
          (((Waking.foldl cancelResponse_waking l t).calls i).parked parked)
      · have mem : i ∈ l := by simpa [eq] using mem
        exact ih _ mem (turn.kind.trans response) (by rwa [turn.pc]) parked
  have frame := (cancelHandler_waking s).calls i
  rw [frame.kind] at response
  rw [frame.pc] at waits
  refine fold _ s (List.mem_range.mpr (wf.lt_next fun o ended => ?_)) response waits
  simp [ended] at waits

/-- A request that has been failed stays settled while others are failed. -/
lemma completed_fail {s : Conn} {i j : Nat} {e : Throwable} (wf : s.Wf)
    (done : (s.calls i).req.isCompleted) : ((s.fail j e).calls i).req.isCompleted := by
  by_cases eq : i = j
  · subst eq
    exact fail_completed (wf.call i)
  · rwa [fail_calls_of_ne (wf.call j) eq]

/-- `shutdown` has failed the registered requests and dropped the queue. -/
lemma Wf.cleared {s : Conn} (wf : s.Wf) :
    Wf { failPending { s with closed := true } with sendQueue := [], queuedBytes := 0 } := by
  have closed : Wf { s with closed := true } := { wf with }
  have failed := (closed.failPending_rule (P := fun _ => True) trivial (fun _ _ _ _ _ _ => trivial)
    fun _ _ => trivial).1
  exact { failed with }

/-- `shutdown` settles every registered request. -/
lemma shutdown_completed {s : Conn} {id : UInt32} {i : Nat} (wf : s.Wf) (opened : s.closed = false)
    (found : s.pending.find id = some i) : (s.shutdown.calls i).req.isCompleted := by
  have fold : ∀ (l : List Nat) (s : Conn), s.Wf → (∀ j ∈ l, ∃ id, s.pending.find id = some j) →
      i ∈ l → ((l.foldl (fun s j => s.fail j closedException) s).calls i).req.isCompleted := by
    intro l
    -- the registered requests are failed one by one; a settled one stays settled
    induction l with
    | nil => exact fun s _ _ mem => absurd mem List.not_mem_nil
    | cons j l ih =>
      intro s wf entries mem
      obtain ⟨id, found⟩ := entries j List.mem_cons_self
      have failed : (s.fail j closedException).Wf := wf.fail fun _ => wf.registry id j found
      have rest : ∀ k ∈ l, ∃ id, (s.fail j closedException).pending.find id = some k := by
        intro k mem
        rw [(fail_steady j _ s).pending]
        exact entries k (List.mem_cons_of_mem j mem)
      rcases List.mem_cons.mp mem with rfl | mem
      · refine (Wf.foldl_fail_rule (P := fun s => (s.calls i).req.isCompleted) failed
          (fail_completed (wf.call i)) rest ?_).2
        exact fun s id j wf _ done => completed_fail wf done
      · exact ih _ failed rest mem
  set u : Conn := { s with closed := true }
  have wfu : u.Wf := { wf with }
  have failed : (u.failPending.calls i).req.isCompleted :=
    fold _ u wfu (fun j mem => FinMap.mem_values.mp mem) (FinMap.mem_values.mpr ⟨id, found⟩)
  rw [Conn.shutdown, if_neg (by simp [opened])]
  obtain ⟨woken, done⟩ := wf.cleared.failRoomWaiters_rule (P := fun s => (s.calls i).req.isCompleted)
    failed fun s k ks wf _ done => by
      rwa [(resume_waking k (by simp) { s with roomWaiters := ks }).completed]
  dsimp only
  rw [(cancelHandler_waking _).completed]
  refine (woken.failSlotWaiters_rule (P := fun s => (s.calls i).req.isCompleted) done ?_).2
  intro s j is wf _ done
  rw [(resumeSlot_waking j _).completed]
  exact completed_fail wf done

/-- After `shutdown`, every request on its way through `enqueue` and `await` is settled. -/
lemma shutdown_settled {s : Conn} {i : Nat} (wf : s.Wf) (reg : s.Reg) (opened : s.closed = false)
    (request : (s.shutdown.calls i).kind = .request) (pc : (s.shutdown.calls i).pc.enqueued) :
    (s.shutdown.calls i).req.isCompleted := by
  have frame := shutdown_frame opened
  rw [(frame.calls i).kind] at request
  rw [(frame.calls i).pc] at pc
  by_cases done : (s.calls i).req.isCompleted
  · exact ((Later.shutdown (A := ⟨.shutdown, s, fun _ => True⟩) wf).call
      (wf.lt_of_request request)).completed done
  · exact shutdown_completed wf opened (reg.registered opened i request pc (by simpa using done))

/-- `shutdown` empties the queues and the registry and the budget. -/
lemma shutdown_empties {s : Conn} (opened : s.closed = false) :
    s.shutdown.pending = ∅ ∧ s.shutdown.roomWaiters = [] ∧ s.shutdown.inFlightWaiters = [] ∧
      s.shutdown.queuedBytes = 0 := by
  set u : Conn := { { s with closed := true }.failPending with sendQueue := [], queuedBytes := 0 }
  have eq : s.shutdown = u.failRoomWaiters.failSlotWaiters.cancelHandler := by
    rw [Conn.shutdown, if_neg (by simp [opened])]
  obtain ⟨room, _, pending, bytes⟩ := failRoomWaiters_spec u
  obtain ⟨slots, room', pending', bytes'⟩ := failSlotWaiters_spec u.failRoomWaiters
  obtain ⟨room'', slots', bytes''⟩ := cancelHandler_spec (room'.trans room) slots
  rw [eq]
  exact ⟨(cancelHandler_waking _).pending.trans (pending'.trans pending), room'', slots',
    bytes''.trans (bytes'.trans bytes)⟩

/-- `shutdown` leaves no call of the handler loop parked. -/
lemma shutdown_handler {s : Conn} {i : Nat} (wf : s.Wf) (opened : s.closed = false)
    (response : (s.shutdown.calls i).kind = .response) (waits : (s.shutdown.calls i).pc.waits) :
    (s.shutdown.calls i).wake ≠ .parked := by
  have woken := (wf.cleared.failRoomWaiters_rule (P := fun _ => True) trivial
    fun _ _ _ _ _ _ => trivial).1
  have refused := (woken.failSlotWaiters_rule (P := fun _ => True) trivial
    fun _ _ _ _ _ _ => trivial).1
  rw [Conn.shutdown, if_neg (by simp [opened])] at response waits ⊢
  exact cancelHandler_not_parked refused response waits

/-! ## A closed connection -/

/-- Nothing is queued, registered or charged, no sender is suspended on the channel, and every
request on its way through `enqueue` and `await` is settled. -/
structure Quiet (s : Conn) : Prop where
  pending : s.pending = ∅
  sendQueue : s.sendQueue = []
  roomWaiters : s.roomWaiters = []
  inFlightWaiters : s.inFlightWaiters = []
  queuedBytes : s.queuedBytes = 0
  senders : s.outbound.senders = []
  settled : ∀ i, (s.calls i).kind = .request → (s.calls i).pc.enqueued → (s.calls i).req.isCompleted

namespace Quiet

variable {s t : Conn} {i : Nat}

/-- `shutdown` leaves a quiet connection. -/
lemma shutdown (wf : s.Wf) (reg : s.Reg) (opened : s.closed = false) (sent : ¬ s.SenderParked) :
    s.shutdown.Quiet := by
  have wf' : s.shutdown.Wf := wf.shutdown
  have frame := shutdown_frame opened
  have senders : s.shutdown.outbound.senders = [] := by
    rw [List.eq_nil_iff_forall_not_mem]
    rintro ⟨i, p⟩ mem
    obtain ⟨pc | pc, wake⟩ := (wf'.send.mem (i, p)).mp mem
    · by_cases response : (s.shutdown.calls i).kind = .response
      · exact shutdown_handler wf opened response (by simp [pc]) wake
      · exact sent ⟨i, p, (frame.calls i).kind ▸ response, (frame.calls i).pc ▸ pc,
          (frame.calls i).parked wake⟩
    · have request := (wf'.call i).kind
      rw [pc] at request
      have done := shutdown_settled wf reg opened request (by simp [pc])
      simp [((wf'.call i).selectParked p pc wake).2] at done
  obtain ⟨pending, room, slots, bytes⟩ := shutdown_empties opened
  exact ⟨pending, frame.sendQueue, room, slots, bytes, senders,
    fun i request pc => shutdown_settled wf reg opened request pc⟩

/-- One call goes on; whatever the call does, it is not an unsettled request on its way. -/
lemma update {c : Call} (quiet : s.Quiet) (calls : t.calls = Function.update s.calls i c)
    (settled : c.kind = .request → c.pc.enqueued → c.req.isCompleted)
    (pending : t.pending = s.pending) (sendQueue : t.sendQueue = s.sendQueue)
    (roomWaiters : t.roomWaiters = s.roomWaiters)
    (inFlightWaiters : t.inFlightWaiters = s.inFlightWaiters)
    (queuedBytes : t.queuedBytes = s.queuedBytes)
    (senders : t.outbound.senders = s.outbound.senders) : t.Quiet where
  pending := pending.trans quiet.pending
  sendQueue := sendQueue.trans quiet.sendQueue
  roomWaiters := roomWaiters.trans quiet.roomWaiters
  inFlightWaiters := inFlightWaiters.trans quiet.inFlightWaiters
  queuedBytes := queuedBytes.trans quiet.queuedBytes
  senders := senders.trans quiet.senders
  settled j := by
    rw [calls]
    by_cases eq : j = i
    · subst eq
      simpa using settled
    · simpa [eq] using quiet.settled j

/-- A running call goes to another place of its code. -/
lemma setPc {pc : Pc} (quiet : s.Quiet)
    (enqueued : (s.calls i).kind = .request → pc.enqueued → (s.calls i).pc.enqueued) :
    (s.setPc i pc).Quiet := by
  refine quiet.update rfl ?_ rfl rfl rfl rfl rfl rfl
  exact fun request pc => quiet.settled i request (enqueued request pc)

/-- On a quiet connection no call waits for room or a slot. -/
lemma unsuspended (quiet : s.Quiet) (wf : s.Wf) : ¬ (s.calls i).Queued := by
  rintro (slot | room | ⟨p, send⟩)
  · have mem := wf.slots.parked i slot
    simp [quiet.inFlightWaiters] at mem
  · have mem := (wf.room.mem ⟨i, (s.calls i).seq⟩).mpr ⟨room, rfl⟩
    simp [quiet.roomWaiters] at mem
  · have mem := (wf.send.mem (i, p)).mpr send
    simp [quiet.senders] at mem

/-- Without slot waiters there is nobody to wake. -/
lemma wakeOneInFlightWaiter_eq (slots : s.inFlightWaiters = []) : s.wakeOneInFlightWaiter = s := by
  rw [wakeOneInFlightWaiter, slots]

/-- There is nothing to release and nobody to wake. -/
lemma releaseOutboundBytes_eq (quiet : s.Quiet) (p : Packet) :
    s.releaseOutboundBytes (packetBytes p) = s := by
  have bytes : (if s.queuedBytes - packetBytes p < 0 then 0 else s.queuedBytes - packetBytes p) =
      s.queuedBytes := by
    rw [quiet.queuedBytes, packetBytes]
    split <;> omega
  rw [releaseOutboundBytes, bytes, wakeOneRoomWaiter]
  split
  case h_1 => rfl
  case h_2 queue => simp [quiet.roomWaiters] at queue

/-- A request that leaves its `select` keeps a closed connection quiet. -/
lemma abortSelect {p : Packet} {pc' : Pc} (quiet : s.Quiet) (pc : (s.calls i).pc = .channelSelect p) :
    ((s.abortSelect i p).setPc i pc').Quiet := by
  have dropped : (s.modReq i fun r => { r with gate := false }).Quiet := by
    refine quiet.update rfl ?_ rfl rfl rfl rfl rfl rfl
    exact fun request pc => quiet.settled i request pc
  rw [Conn.abortSelect, dropped.releaseOutboundBytes_eq]
  refine dropped.setPc fun _ _ => ?_
  simp [modReq, pc]

/-- The write loop keeps a closed connection quiet. -/
lemma loopNext {env : Env} (quiet : s.Quiet) : (s.loopNext env).Quiet := by
  unfold Conn.loopNext
  split
  case h_1 _ senders => exact { quiet with senders := senders }
  case h_2 senders => simp [quiet.senders] at senders
  case h_3 senders => simp [quiet.senders] at senders
  case h_4 => exact { quiet with }

/-- The end of a call keeps a closed connection quiet. -/
lemma finish {o : Outcome} (quiet : s.Quiet) : (s.finish i o).Quiet := by
  have slots : (s.dispose i o).inFlightWaiters = [] := by
    simp [dispose, quiet.inFlightWaiters]
  have ended : (s.dispose i o).Quiet := by
    refine quiet.update rfl (by simp) rfl rfl rfl ?_ rfl rfl
    rw [slots, quiet.inFlightWaiters]
  have none : (s.dispose i o).pending.find (s.calls i).req.id = none := by
    rw [ended.pending, FinMap.find_empty]
  unfold Conn.finish
  split
  case isTrue =>
    dsimp only
    rw [none, if_neg (by simp)]
    exact ended
  case isFalse => exact quiet.setPc (by simp)

/-- The room part of the deadline finds no waiter. -/
lemma runRoom_spec (room : s.roomWaiters = []) (slots : s.inFlightWaiters = []) :
    (s.runRoom i).roomWaiters = [] ∧ (s.runRoom i).inFlightWaiters = [] ∧
      (s.runRoom i).queuedBytes = s.queuedBytes := by
  unfold Conn.runRoom
  split
  case h_1 =>
    rw [wakeOneInFlightWaiter_eq slots]
    exact ⟨room, slots, rfl⟩
  case h_2 k _ =>
    have steady := resume_steady k .unit { s with roomWaiters := s.roomWaiters.erase k }
    have room' : s.roomWaiters.erase k = [] := by simp [room]
    dsimp only
    split
    case isTrue =>
      exact ⟨steady.roomWaiters.trans room', steady.inFlightWaiters.trans slots, steady.queuedBytes⟩
    case isFalse =>
      rw [wakeOneInFlightWaiter_eq]
      · exact ⟨steady.roomWaiters.trans room', steady.inFlightWaiters.trans slots, steady.queuedBytes⟩
      · exact steady.inFlightWaiters.trans slots

/-- The deadline finds nothing to remove. -/
lemma expire_spec (quiet : s.Quiet) : (s.expire i).pending = ∅ ∧ (s.expire i).roomWaiters = [] ∧
    (s.expire i).inFlightWaiters = [] ∧ (s.expire i).queuedBytes = 0 := by
  set e : Throwable := .requestTimeout (s.calls i).req.id (s.calls i).req.timeoutMillis
  have failed := fail_steady i e s
  have slot := resumeSlot_steady i ((s.fail i e).unregister (s.calls i).req.id)
  obtain ⟨room, slots, bytes⟩ := runRoom_spec (i := i)
    (slot.roomWaiters.trans (failed.roomWaiters.trans quiet.roomWaiters))
    (slot.inFlightWaiters.trans (failed.inFlightWaiters.trans quiet.inFlightWaiters))
  refine ⟨(runRoom_waking i _).pending.trans (slot.pending.trans ?_), room, slots,
    bytes.trans (slot.queuedBytes.trans (failed.queuedBytes.trans quiet.queuedBytes))⟩
  rw [unregister, failed.pending, quiet.pending]
  exact FinMap.remove_of_find_none FinMap.find_empty

/-- Firing a deadline keeps a closed connection quiet. -/
lemma fire (quiet : s.Quiet) : (s.fire i).Quiet := by
  refine quiet.update rfl ?_ rfl rfl rfl rfl rfl rfl
  exact fun request pc => quiet.settled i request pc

/-- The deadline's callback keeps a closed connection quiet. -/
lemma run (quiet : s.Quiet) (wf : s.Wf) (armed : (s.calls i).req.armed) : (s.run i).Quiet := by
  have wf' := wf.run armed
  have frame := run_frame i s
  have later := Later.run (A := ⟨.shutdown, s, fun _ => True⟩) wf armed (fun _ => trivial)
    fun _ _ => trivial
  by_cases done : (s.calls i).req.isCompleted
  · rw [Conn.run, if_pos done]
    exact quiet.fire
  have eq : s.run i = (s.fire i).expire i := by rw [Conn.run, if_neg done]
  obtain ⟨pending, room, slots, bytes⟩ := expire_spec (i := i) (quiet.fire (i := i))
  rw [← eq] at pending room slots bytes
  refine ⟨pending, frame.sendQueue.trans quiet.sendQueue, room, slots, bytes, ?_, ?_⟩
  · rw [List.eq_nil_iff_forall_not_mem]
    rintro ⟨j, p⟩ mem
    obtain ⟨pc, wake⟩ := (wf'.send.mem (j, p)).mp mem
    rw [(frame.calls j).pc] at pc
    exact quiet.unsuspended wf (.inr (.inr ⟨p, pc, (frame.calls j).parked wake⟩))
  · intro j request pc
    rw [(frame.calls j).kind] at request
    rw [(frame.calls j).pc] at pc
    exact (later.call (wf.lt_of_request request)).completed (quiet.settled j request pc)

/-- A new call keeps a closed connection quiet. -/
lemma addCall {c : Call} (quiet : s.Quiet) (other : c.kind = .request → c.pc.enqueued = false) :
    (s.addCall c).Quiet := by
  refine { quiet with settled := fun j => ?_ }
  rw [addCall_calls]
  split
  case isTrue =>
    intro request pc
    rw [other request] at pc
    cases pc
  case isFalse => exact quiet.settled j

/-- A closed connection stays quiet. -/
theorem effect {env : Env} {A : Trigger} (quiet : s.Quiet) (wf : s.Wf) (closed : s.closed)
    (h : Effect env A s t) : t.Quiet := by
  have opened : s.closed ≠ false := by simp [closed]
  have unqueued : ∀ {i}, ¬ (s.calls i).Queued := quiet.unsuspended wf
  cases h with
  | @loc i c' h =>
    refine quiet.update rfl (fun request pc => ?_) rfl rfl rfl rfl rfl rfl
    cases h with
    | slotSettled _ done => exact done
    | _ => exact quiet.settled i request (by simp_all)
  | @reject c e id pc _ req =>
    exact { addCall (s := s) (c := c) quiet (by simp [pc]) with }
  | startRequest _ h _ _ _ _ _ _ _ => exact absurd h opened
  | @startPut c p id kind _ _ _ _ _ _ =>
    have other : c.kind ≠ .request := by rcases kind with h | h <;> simp [h]
    exact { addCall (s := s) (c := c) quiet (absurd · other) with }
  | slotPark _ h _ _ => exact absurd h opened
  | register _ h _ _ _ => exact absurd h opened
  | slotRefused _ h _ _ _ _ => exact absurd h opened
  | @slotCancelled i pc _ =>
    refine quiet.update (slotCancelled_calls i _ s) (by simp) rfl rfl rfl ?_ rfl rfl
    simp [Conn.setPc, onSlotCancelled, quiet.inFlightWaiters]
  | roomPark _ h _ _ => exact absurd h opened
  | @roomCancelled i p pc _ =>
    refine quiet.update (roomCancelled_calls i _ s) (by simp) rfl rfl ?_ rfl rfl rfl
    simp [Conn.setPc, onRoomCancelled, quiet.roomWaiters]
  | putQueue _ h _ _ _ _ => exact absurd h opened
  | putDrain _ h _ _ _ _ => exact absurd h opened
  | putBuffer _ h _ _ _ _ _ => exact absurd h opened
  | putHandoff _ h _ _ _ _ => exact absurd h opened
  | sendPark _ h _ _ _ _ => exact absurd h opened
  | selectPark _ h _ _ _ _ _ => exact absurd h opened
  | drainTake _ h _ => exact absurd h opened
  | @drainEnd i pc _ =>
    have idle : Quiet { s with writerActive := false } := { quiet with }
    exact idle.setPc (by simp [pc])
  | @successorStart i pc =>
    have other := (wf.call i).kind
    rw [pc] at other
    have active : Quiet { s with writerActive := true } := { quiet with }
    exact active.setPc fun request => absurd request other
  | handOff _ h _ => exact absurd h opened
  | @writerStop i e _ _ _ =>
    have idle : Quiet { s with writerActive := false } := { quiet with }
    exact idle.setPc (by simp)
  | transmit _ h _ => exact absurd h opened
  | selectGate pc _ _ => exact quiet.abortSelect pc
  | selectCancelled pc _ _ => exact quiet.abortSelect pc
  | loopFlushing _ _ => exact { quiet with }
  | @loopNext p _ =>
    rw [quiet.releaseOutboundBytes_eq]
    exact quiet.loopNext
  | loopRun _ _ => exact quiet.loopNext
  | loopEnd _ _ => exact { quiet with }
  | cancelSlot pc wake => exact absurd (.inl ⟨pc, wake⟩) unqueued
  | @cancelRoom i p pc wake => exact absurd (.inr (.inl ⟨⟨p, pc⟩, wake⟩)) unqueued
  | @cancelSend i p pc wake _ => exact absurd (.inr (.inr ⟨p, .inl pc, wake⟩)) unqueued
  | @cancelSelect i p pc wake => exact absurd (.inr (.inr ⟨p, .inr pc, wake⟩)) unqueued
  | finish _ _ => exact quiet.finish
  | deadline _ armed _ _ _ _ => exact quiet.run wf armed
  | response _ _ _ h _ _ _ => exact absurd h opened
  | shutdown h _ => exact absurd h opened

end Quiet

/-- Along a run, a connection is quiet once it is closed. -/
lemma quiet_effect {env : Env} {A : Trigger} {s t : Conn} (avoid : ¬ A .senderStranded) (wf : s.Wf)
    (reg : s.Reg) (quiet : s.closed → s.Quiet) (h : Effect env A s t) : t.closed → t.Quiet := by
  intro closed
  rcases effect_closed h with same | ⟨opened, stranded, rfl⟩
  · exact (quiet (same ▸ closed)).effect wf (same ▸ closed) h
  · exact .shutdown wf reg opened fun parked => avoid (stranded parked)

/-- No effect opens a closed connection. -/
lemma effect_shut {env : Env} {A : Trigger} {s t : Conn} (h : Effect env A s t) (closed : s.closed) :
    t.closed := by
  by_contra opened
  simp [effect_opened h (by simpa using opened)] at closed

/-- No step opens a closed connection. -/
lemma step_closed {env : Env} {e : Event} {s t : Conn} (h : s.step env e = some t)
    (closed : s.closed) : t.closed :=
  Runs.star_preserves (P := fun s => s.closed) (fun _ _ => effect_shut) (step_effects h) closed

/-- A connection that is open was open before the step. -/
lemma step_opened {env : Env} {e : Event} {s t : Conn} (h : s.step env e = some t)
    (opened : t.closed = false) : s.closed = false := by
  by_contra closed
  have shut := step_closed h (by simpa using closed)
  simp [opened] at shut

/-- What terminal cleanup promises: the queues and the registry are empty, no bytes are charged, and
no caller of `send` or `request` is parked in a wait of the connection, nor is the handler loop. -/
structure Released (s : Conn) : Prop where
  pending : s.pending = ∅
  sendQueue : s.sendQueue = []
  roomWaiters : s.roomWaiters = []
  inFlightWaiters : s.inFlightWaiters = []
  queuedBytes : s.queuedBytes = 0
  callers : ∀ i, (s.calls i).kind ≠ .response → (s.calls i).pc.waits → (s.calls i).wake ≠ .parked
  handler : ∀ i, (s.calls i).kind = .response → (s.calls i).pc.waits → (s.calls i).wake ≠ .parked

/-- In a quiet connection nobody is parked. -/
lemma Quiet.not_parked {s : Conn} {i : Nat} (quiet : s.Quiet) (wf : s.Wf) (pc : (s.calls i).pc.waits) :
    (s.calls i).wake ≠ .parked := by
  intro wake
  have unqueued : ¬ (s.calls i).Queued := quiet.unsuspended wf
  cases place : (s.calls i).pc with
  | slotWait => exact unqueued (.inl ⟨place, wake⟩)
  | roomWait p => exact unqueued (.inr (.inl ⟨⟨p, place⟩, wake⟩))
  | channelSend p => exact unqueued (.inr (.inr ⟨p, .inl place, wake⟩))
  | channelSelect p => exact unqueued (.inr (.inr ⟨p, .inr place, wake⟩))
  | await =>
    have request := (wf.call i).kind
    rw [place] at request
    have done := quiet.settled i request (by simp [place])
    simp [((wf.call i).awaitParked place wake).2] at done
  | _ => simp [place] at pc

/-- A quiet connection has released everybody. -/
lemma Quiet.released {s : Conn} (quiet : s.Quiet) (wf : s.Wf) : s.Released where
  pending := quiet.pending
  sendQueue := quiet.sendQueue
  roomWaiters := quiet.roomWaiters
  inFlightWaiters := quiet.inFlightWaiters
  queuedBytes := quiet.queuedBytes
  callers _ _ := quiet.not_parked wf
  handler _ _ := quiet.not_parked wf

/-- In every run in which `shutdown` never runs while a caller of `send` is suspended in
`outbound.send`, a connection that has been shut down has released every waiter, now and at every later
moment. -/
theorem released_of_closed {env : Env} {s t : Conn}
    (run : Runs.Reach (step env) (Avoids (· = .senderStranded) env) init s) (closed : s.closed)
    (later : Runs.Reach (step env) (Avoids (· = .senderStranded) env) s t) : t.Released := by
  have closed' : t.closed :=
    later.invariant (P := fun t => t.closed) closed fun s e t closed _ st => step_closed st closed
  have reach := run.trans later
  have quiet : t.closed → t.Quiet :=
    (invariant_of_registry (P := fun s => s.closed → s.Quiet) reach (by simp [init])
      fun A s t avoid wf reg quiet eff => quiet_effect (avoid _ rfl) wf reg quiet eff).2
  exact (quiet closed').released (.reach reach)

/-- `shutdown` while the handler loop and a request are suspended on the full channel. -/
theorem released_of_closed_answering : ∃ s t,
    Runs.Reach (step (.tight .channel)) (Avoids (· = .senderStranded) (.tight .channel)) init s ∧
      s.outbound.senders.map Prod.fst = [2, 3] ∧ (s.calls 2).kind = .response ∧
      (s.calls 3).kind = .request ∧ s.step (.tight .channel) .shutdown = some t ∧
      Avoids (· = .senderStranded) (.tight .channel) s .shutdown ∧ t.closed ∧ t.Released := by
  have run : ((Runs.exec (step (.tight .channel)) init
      [.loopRun, .sendOne, .sendOne, .respond 1 0 .one, .requestOne]).map
      fun s => (s.outbound.senders.map Prod.fst, (s.calls 2).kind, (s.calls 3).kind)) =
      some ([2, 3], .response, .request) := by decide
  obtain ⟨s, exec, facts⟩ := Option.map_eq_some_iff.mp run
  simp only [Prod.mk.injEq] at facts
  obtain ⟨senders, answer, request⟩ := facts
  have waiting :
      Runs.Reach (step (.tight .channel)) (Avoids (· = .senderStranded) (.tight .channel)) init s :=
    Runs.reach_of_exec exec
      (.of_forall (by simp [Avoids, Flaw.Occurs, Event.sendOne, Event.requestOne]))
  have avoids : Avoids (· = .senderStranded) (.tight .channel) s .shutdown := by
    rintro f rfl ⟨_, j, p, send, pc, wake⟩
    have mem := List.mem_map_of_mem (f := Prod.fst)
      (((Wf.reach waiting).send.mem (j, p)).mpr ⟨.inl pc, wake⟩)
    have other := ((Wf.reach waiting).call j).kind
    rw [pc] at other
    simp only [senders, List.mem_cons, List.not_mem_nil, or_false] at mem
    rcases mem with rfl | rfl
    · exact send answer
    · exact other request
  have shut := waiting.next avoids rfl
  exact ⟨s, s.shutdown, waiting, senders, answer, request, rfl, avoids, shutdown_closed s,
    released_of_closed shut (shutdown_closed s) .start⟩

/-- In CHANNEL mode, with one packet at the write loop and one in the mailbox, a third `send` is
suspended in `outbound.send`; `shutdown` leaves it parked. -/
theorem not_released_of_closed : ∃ s, Runs.Reach (step (.tight .channel)) Runs.always init s ∧
    s.closed ∧ ¬ s.Released := by
  have run : ((Runs.exec (step (.tight .channel)) init
      [.loopRun, .sendOne, .sendOne, .sendOne, .shutdown]).map
      fun s => (s.closed, (s.calls 2).kind, (s.calls 2).pc.waits, (s.calls 2).wake)) =
      some (true, .oneWay, true, .parked) := by decide
  obtain ⟨s, exec, facts⟩ := Option.map_eq_some_iff.mp run
  simp only [Prod.mk.injEq] at facts
  obtain ⟨closed, send, waits, parked⟩ := facts
  exact ⟨s, Runs.reach_always_of_exec exec, closed,
    fun released => released.callers 2 (by simp [send]) waits parked⟩

end Conn

/-! ## Failed writes -/

/-- The stream's write or flush raises an exception other than `CancellationException`. -/
def Event.FailsWrite : Event → Prop
  | .write _ r | .flush _ r | .loopWrite r | .loopFlush r => r ≠ .ok ∧ r ≠ .cancelled
  | _ => False

namespace Conn

/-- A writer whose socket operation failed has closed the connection. -/
lemma writerFailed_closed {i : Nat} {r : IoResult} {e : Throwable} {s : Conn} (ne : r ≠ .cancelled) :
    (s.writerFailed i r e).closed := by
  rw [writerFailed, if_neg ne]
  exact (finish_still _ _ _).closed.trans (shutdown_closed s)

/-- A failed write of the inline writer closes the connection, unless the writer is cancelled. -/
lemma write_closed {i : Nat} {r : IoResult} {s t : Conn} (st : s.write i r = some t)
    (failed : r ≠ .ok) (ne : r ≠ .cancelled) : t.closed := by
  unfold write at st
  split at st
  case isTrue => cases st
  case isFalse =>
    split at st
    case h_1 => exact absurd rfl failed
    case h_2 | h_3 =>
      cases st
      exact writerFailed_closed ne

/-- A write loop whose socket operation failed has closed the connection. -/
lemma loopFailed_closed {r : IoResult} {s t : Conn} (known : (∃ m, r = .other m) → s.closed)
    (ne : r ≠ .cancelled) (h : s.loopFailed r = some t) : t.closed := by
  cases r with
  | ok => cases h
  | io message =>
    cases h
    exact shutdown_closed s
  | other message =>
    cases h
    exact known ⟨message, rfl⟩
  | cancelled => exact absurd rfl ne

/-- In every run in which the write loop never gets an exception other than an `IoException`, a failed
write closes the connection, and the write loop of an open connection has not ended. -/
theorem failed_write_closes {env : Env} {s : Conn}
    (run : Runs.Reach (step env) (Avoids (· = .loopFault) env) init s) :
    (s.closed = false → s.writeLoop ≠ .ended) ∧
      ∀ e t, Avoids (· = .loopFault) env s e → s.step env e = some t → e.FailsWrite → t.closed := by
  constructor
  · intro opened ended
    -- the write loop ends by a fault or on a closed connection
    have alive := invariant_of_effects (P := fun s => s.writeLoop = .ended → s.closed) run
      (fun ended => by cases ended) fun A s t avoid _ alive eff =>
        (LoopStep.effect eff).alive (avoid _ rfl) (effect_shut eff) alive
    simp [opened] at alive
    exact alive ended
  · intro e t avoid st fails
    cases e with
    | write i r => exact write_closed st fails.1 fails.2
    | flush i r =>
      obtain ⟨failed, ne⟩ := fails
      simp only [step, flush, if_neg failed] at st
      split at st
      case isTrue => cases st
      case isFalse =>
        cases st
        exact writerFailed_closed ne
    | loopWrite r =>
      obtain ⟨failed, ne⟩ := fails
      simp only [step, loopWrite, if_neg failed] at st
      split at st
      case h_1 =>
        refine loopFailed_closed ?_ ne st
        rintro ⟨message, rfl⟩
        by_contra opened
        exact avoid .loopFault rfl (by simpa [Flaw.Occurs] using opened)
      case h_2 => cases st
    | loopFlush r =>
      obtain ⟨failed, ne⟩ := fails
      simp only [step, loopFlush, if_neg failed] at st
      split at st
      case h_1 =>
        refine loopFailed_closed ?_ ne st
        rintro ⟨message, rfl⟩
        by_contra opened
        exact avoid .loopFault rfl (by simpa [Flaw.Occurs] using opened)
      case h_2 => cases st
    | _ => exact fails.elim

/-- An `IoException` in the write loop closes the connection. -/
theorem failed_write_closes_loop : ∃ s t : Conn,
    Runs.Reach (step (.tight .channel)) (Avoids (· = .loopFault) (.tight .channel)) init s ∧
      s.closed = false ∧ s.writeLoop ≠ .ended ∧
      Avoids (· = .loopFault) (.tight .channel) s (.loopWrite (.io "broken pipe")) ∧
      s.step (.tight .channel) (.loopWrite (.io "broken pipe")) = some t ∧ t.closed := by
  have run : ((Runs.exec (step (.tight .channel)) init [.loopRun, .sendOne]).map
      fun s => (s.closed, (s.step (.tight .channel) (.loopWrite (.io "broken pipe"))).isSome)) =
      some (false, true) := by decide
  obtain ⟨s, exec, facts⟩ := Option.map_eq_some_iff.mp run
  simp only [Prod.mk.injEq] at facts
  obtain ⟨t, st⟩ := Option.isSome_iff_exists.mp facts.2
  have reach : Runs.Reach (step (.tight .channel)) (Avoids (· = .loopFault) (.tight .channel)) init s :=
    Runs.reach_of_exec exec (.of_forall (by simp [Avoids, Flaw.Occurs, Event.sendOne]))
  have avoids : Avoids (· = .loopFault) (.tight .channel) s (.loopWrite (.io "broken pipe")) := by
    simp [Avoids, Flaw.Occurs]
  obtain ⟨alive, closes⟩ := failed_write_closes reach
  exact ⟨s, t, reach, facts.1, alive facts.1, avoids, st, closes _ t avoids st ⟨by simp, by simp⟩⟩

/-- In CHANNEL mode the write loop dies of any other exception and leaves the connection open. -/
theorem failed_write_leaves_open : ∃ s t, Runs.Reach (step (.tight .channel)) Runs.always init s ∧
    s.step (.tight .channel) (.loopWrite (.other "packet exceeds the message limit")) = some t ∧
    t.closed = false ∧ t.writeLoop = .ended := by
  have run : ((Runs.exec (step (.tight .channel)) init [.loopRun, .sendOne]).map fun s =>
      (s.step (.tight .channel) (.loopWrite (.other "packet exceeds the message limit"))).map
        fun t => (t.closed, t.writeLoop)) = some (some (false, .ended)) := by decide
  obtain ⟨s, exec, next⟩ := Option.map_eq_some_iff.mp run
  obtain ⟨t, st, facts⟩ := Option.map_eq_some_iff.mp next
  simp only [Prod.mk.injEq] at facts
  exact ⟨s, t, Runs.reach_always_of_exec exec, st, facts⟩

end Conn

end MsgTrans
