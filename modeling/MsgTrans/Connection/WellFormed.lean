import MsgTrans.Connection.Calls
import MsgTrans.Lib.Runs

/-!
# Well-formed connections

The invariant of every reachable state, whatever the run: calls are well formed, and the three
queues list who is parked. Resuming, settling and failing calls is described on well-formed states
by what it does to one record, and every effect keeps the invariant.
-/

namespace MsgTrans

namespace Conn

/-- The state is well formed. -/
structure Wf (s : Conn) : Prop where
  call : ∀ i, (s.calls i).Wf i
  fresh : ∀ i, s.next ≤ i → s.calls i = {}
  room : Enlists s.roomWaiters (RoomEntry s.calls)
  send : Enlists s.outbound.senders (SendEntry s.calls)
  slots : SlotQueue s.inFlightWaiters s.calls
  registry : ∀ id i, s.pending.find id = some i → (s.calls i).kind = .request

/-! ## What resuming and settling do to a well-formed state -/

section
variable {s : Conn} {i : Nat}

/-- Resuming a room waiter that is in the queue wakes its call. -/
lemma resume_room {k : Cont} {r : Resumption} (entry : RoomEntry s.calls k) :
    s.resume k r = { s.modCall k.call (fun c => { c with wake := .resumed r }) with
      resumes := k :: s.resumes } := by
  have eq : Call.resumed k.seq r (s.calls k.call) = { s.calls k.call with wake := .resumed r } := by
    rw [Call.resumed, if_pos ⟨entry.2, entry.1.2⟩]
  simp only [resume, modCall, eq]

/-- Resuming a continuation nobody is parked with changes no call. -/
lemma resume_stale {k : Cont} {r : Resumption}
    (stale : (s.calls k.call).seq = k.seq → (s.calls k.call).wake ≠ .parked) :
    s.resume k r = { s with resumes := k :: s.resumes } := by
  have same : Call.resumed k.seq r (s.calls k.call) = s.calls k.call := by
    rw [Call.resumed, if_neg]
    rintro ⟨seq, wake⟩
    exact stale seq wake
  simp only [resume, modCall, same, Function.update_eq_self]

/-- Resuming a parked slot waiter wakes it and forgets its continuation. -/
lemma resumeSlot_parked (wf : (s.calls i).Wf i) (parked : (s.calls i).SlotParked) :
    s.resumeSlot i = { s.modCall i (fun c => { c with
        wake := .resumed .unit, req := { c.req with slotCont := none } }) with
      resumes := ⟨i, (s.calls i).seq⟩ :: s.resumes } := by
  have eq : Call.resumed (s.calls i).seq .unit (s.calls i) =
      { s.calls i with wake := .resumed .unit } := by
    rw [Call.resumed, if_pos ⟨rfl, parked.2⟩]
  simp only [resumeSlot, wf.slotParked parked]
  simp [resume, modReq, modCall, eq]

/-- There is nobody to resume in a request that is not parked for a slot. -/
lemma resumeSlot_idle (wf : (s.calls i).Wf i) (idle : ¬ (s.calls i).SlotParked) :
    s.resumeSlot i = s := by
  have none : (s.calls i).req.slotCont = none := by
    rw [Option.eq_none_iff_forall_ne_some]
    intro k stored
    exact idle (wf.slotCont k stored).2
  simp only [resumeSlot, none]

/-- What settling an open request does: it opens the gate of a parked `select`, or resumes a stored
waiter, or only stores the result. -/
inductive SettleForm (s : Conn) (i : Nat) (store : Pending → Pending) (r : Resumption) : Conn → Prop
  | select {p} :
    (s.calls i).pc = .channelSelect p → (s.calls i).wake = .parked →
    SettleForm s i store r { s.modCall i (fun c => { c with
        wake := .resumed .gate, req := store c.req }) with
      outbound := s.outbound.withdraw i }
  | waiter {k} :
    (s.calls i).req.waiter = some k →
    SettleForm s i store r { s.modCall i (fun c => { (c.resumed k.seq r) with
        req := { store c.req with waiter := none } }) with
      resumes := k :: s.resumes }
  | plain :
    (∀ p, (s.calls i).pc = .channelSelect p → (s.calls i).wake ≠ .parked) →
    (s.calls i).req.waiter = none →
    SettleForm s i store r (s.modReq i store)

/-- The gate of a parked `select` chooses the gate clause and withdraws the sender. -/
lemma completeGate_select {p : Packet} (gate : (s.calls i).req.gate = true)
    (pc : (s.calls i).pc = .channelSelect p) (wake : (s.calls i).wake = .parked) :
    s.completeGate i = { s.modCall i (fun c => { c with wake := .resumed .gate }) with
      outbound := s.outbound.withdraw i } := by
  simp only [completeGate, gate, pc, wake]

/-- The gate of any other call is only a flag. -/
lemma completeGate_other
    (other : ∀ p, (s.calls i).pc = .channelSelect p → (s.calls i).wake ≠ .parked) :
    s.completeGate i = s := by
  unfold completeGate
  split
  case h_1 p _ pc wake => exact absurd wake (other p pc)
  case h_2 => rfl

/-- Settling an open request takes one of the three forms. -/
lemma settle_form {store : Pending → Pending} {r : Resumption} (wf : (s.calls i).Wf i)
    (st : Call.Settles store) (live : (s.calls i).req.isCompleted = false) :
    SettleForm s i store r (s.settle i store r) := by
  rw [settle, if_neg (by simp [live])]
  have gate : (store (s.calls i).req).gate = (s.calls i).req.gate := by rw [st.only]
  have waiter : (store (s.calls i).req).waiter = (s.calls i).req.waiter := by rw [st.only]
  by_cases select : ∃ p, (s.calls i).pc = .channelSelect p ∧ (s.calls i).wake = .parked
  · obtain ⟨p, pc, wake⟩ := select
    have none := (wf.clear (by simp [pc]) (by simp [Call.SlotParked, pc])).2.2
    rw [completeGate_select (p := p) (by simp [modReq, gate, (wf.selectParked p pc wake).1])
      (by simpa [modReq] using pc) (by simpa [modReq] using wake)]
    have form : SettleForm s i store r _ := .select pc wake
    simpa [resumeWaiter, modReq, waiter, none] using form
  · have other : ∀ p, (s.calls i).pc = .channelSelect p → (s.calls i).wake ≠ .parked :=
      fun p pc wake => select ⟨p, pc, wake⟩
    rw [completeGate_other (by simpa [modReq] using other)]
    cases stored : (s.calls i).req.waiter with
    | none =>
      have form : SettleForm s i store r _ := .plain other stored
      simpa [resumeWaiter, modReq, waiter, stored] using form
    | some k =>
      have call : k.call = i := by rw [(wf.waiter k stored).1]
      have form : SettleForm s i store r _ := .waiter stored
      have eq : Call.resumed k.seq r { s.calls i with
          req := { store (s.calls i).req with waiter := none } } =
          { (Call.resumed k.seq r (s.calls i)) with
            req := { store (s.calls i).req with waiter := none } } := by
        unfold Call.resumed
        split <;> rfl
      simpa [resumeWaiter, modReq, modCall, waiter, stored, resume, call, eq] using form

/-- Settling a request changes no other call. -/
lemma settle_calls_of_ne {store : Pending → Pending} {r : Resumption} {j : Nat}
    (wf : (s.calls i).Wf i) (st : Call.Settles store) (ne : j ≠ i) :
    (s.settle i store r).calls j = s.calls j := by
  by_cases live : (s.calls i).req.isCompleted
  · rw [settle, if_pos live]
  have form := settle_form (r := r) wf st (by simpa using live)
  generalize s.settle i store r = t at form
  cases form with
  | select _ _ => simp [modCall, ne]
  | waiter _ => simp [modCall, ne]
  | plain _ _ => simp [modReq, modCall, ne]

/-- A settled request is settled. -/
lemma settle_completed {store : Pending → Pending} {r : Resumption} (wf : (s.calls i).Wf i)
    (st : Call.Settles store) : ((s.settle i store r).calls i).req.isCompleted := by
  by_cases live : (s.calls i).req.isCompleted
  · rwa [settle, if_pos live]
  have done := st.completed (s.calls i).req
  have form := settle_form (r := r) wf st (by simpa using live)
  generalize s.settle i store r = t at form
  cases form with
  | select => simpa using done
  | waiter => simpa [Pending.isCompleted] using done
  | plain => simpa [modReq] using done

/-- A resumed slot waiter is not parked. -/
lemma resumeSlot_not_parked (wf : (s.calls i).Wf i) : ¬ ((s.resumeSlot i).calls i).SlotParked := by
  by_cases parked : (s.calls i).SlotParked
  · rw [resumeSlot_parked wf parked]
    simp [Call.SlotParked]
  · rwa [resumeSlot_idle wf parked]

/-- Storing a response settles a request. -/
lemma settles_response (packet : Packet) :
    Call.Settles fun r => { r with response := some packet } :=
  ⟨fun _ => rfl, fun _ => by simp [Pending.isCompleted]⟩

/-- Storing an error settles a request. -/
lemma settles_error (e : Throwable) : Call.Settles fun r => { r with error := some e } :=
  ⟨fun _ => rfl, fun _ => by simp [Pending.isCompleted]⟩

/-- After `Pending.complete` the request is settled. -/
lemma complete_completed {packet : Packet} (wf : (s.calls i).Wf i) :
    ((s.complete i packet).calls i).req.isCompleted :=
  settle_completed wf (settles_response packet)

/-- After `Pending.fail` the request is settled. -/
lemma fail_completed {e : Throwable} (wf : (s.calls i).Wf i) :
    ((s.fail i e).calls i).req.isCompleted :=
  settle_completed wf (settles_error e)

/-- `Pending.fail` changes no other call. -/
lemma fail_calls_of_ne {e : Throwable} {j : Nat} (wf : (s.calls i).Wf i) (ne : j ≠ i) :
    (s.fail i e).calls j = s.calls j :=
  settle_calls_of_ne wf (settles_error e) ne

/-- `Pending.complete` changes no other call. -/
lemma complete_calls_of_ne {packet : Packet} {j : Nat} (wf : (s.calls i).Wf i) (ne : j ≠ i) :
    (s.complete i packet).calls j = s.calls j :=
  settle_calls_of_ne wf (settles_response packet) ne

end

namespace Wf

variable {s t : Conn} {i : Nat} {c : Call}

/-- A new connection is well formed. -/
lemma init : Wf Conn.init where
  call i := .running ⟨rfl, rfl, rfl⟩ rfl trivial fun _ => rfl
  fresh _ _ := rfl
  room := .nil fun k entry => by simp [RoomEntry, Call.RoomParked, Conn.init] at entry
  send := .nil fun e entry => by simp [SendEntry, Call.SendParked, Conn.init] at entry
  slots := ⟨.nil, fun i parked => by simp [Call.SlotParked, Conn.init] at parked, by simp [Conn.init]⟩
  registry id i found := by simp [Conn.init] at found

/-- A call that is somewhere in its code has been made. -/
lemma lt_next (wf : s.Wf) (pc : ∀ o, (s.calls i).pc ≠ .ended o) : i < s.next := by
  by_contra ge
  exact pc .done (by rw [wf.fresh i (by omega)])

/-- A number that no call has is in no queue. -/
lemma notQueued (wf : s.Wf) (ge : s.next ≤ i) : ¬ (s.calls i).Queued := by
  rw [wf.fresh i ge]
  exact Call.not_queued_of_waits rfl

/-- One record changes and the queues are adapted. -/
lemma update (wf : s.Wf) (calls : t.calls = Function.update s.calls i c) (next : t.next = s.next)
    (lt : i < s.next) (call : c.Wf i) (kind : c.kind = (s.calls i).kind)
    (room : Enlists t.roomWaiters (RoomEntry t.calls))
    (send : Enlists t.outbound.senders (SendEntry t.calls))
    (slots : SlotQueue t.inFlightWaiters t.calls) (pending : t.pending = s.pending) : t.Wf where
  call j := by
    rw [calls]
    by_cases eq : j = i
    · subst eq
      simpa using call
    · simpa [eq] using wf.call j
  fresh j ge := by
    rw [next] at ge
    rw [calls, Function.update_of_ne (by omega)]
    exact wf.fresh j ge
  room := room
  send := send
  slots := slots
  registry id j found := by
    rw [pending] at found
    rw [calls]
    by_cases eq : j = i
    · subst eq
      simpa [kind] using wf.registry id j found
    · simpa [eq] using wf.registry id j found

/-- One record changes that is in no queue, before or after. -/
lemma move (wf : s.Wf) (before : ¬ (s.calls i).Queued) (after : ¬ c.Queued) (call : c.Wf i)
    (completed : (s.calls i).req.isCompleted → c.req.isCompleted)
    (kind : c.kind = (s.calls i).kind) (lt : i < s.next)
    (calls : t.calls = Function.update s.calls i c) (next : t.next = s.next)
    (room : t.roomWaiters = s.roomWaiters) (send : t.outbound.senders = s.outbound.senders)
    (slots : t.inFlightWaiters = s.inFlightWaiters) (pending : t.pending = s.pending) : t.Wf := by
  have noRoom := roomEntry_same (fun h => before (.inr (.inl h))) (fun h => after (.inr (.inl h)))
  have noSend := sendEntry_same (fun p h => before (.inr (.inr ⟨p, h⟩)))
    (fun p h => after (.inr (.inr ⟨p, h⟩)))
  refine wf.update calls next lt call kind ?_ ?_ ?_ pending
  · rw [calls, room]
    exact wf.room.congr noRoom
  · rw [calls, send]
    exact wf.send.congr noSend
  · rw [calls, slots]
    exact wf.slots.same (fun h => before (.inl h)) (fun h => after (.inl h)) completed

/-- A `Pending` changes and its call stays where it is. -/
lemma modReq {f : Pending → Pending} (wf : s.Wf) (lt : i < s.next)
    (call : Call.Wf i { s.calls i with req := f (s.calls i).req })
    (completed : (s.calls i).req.isCompleted → (f (s.calls i).req).isCompleted) :
    (s.modReq i f).Wf := by
  have same : ∀ j, ((s.modReq i f).calls j).pc = (s.calls j).pc ∧
      ((s.modReq i f).calls j).wake = (s.calls j).wake ∧
      ((s.modReq i f).calls j).seq = (s.calls j).seq := by
    intro j
    rw [Conn.modReq, modCall_calls]
    split
    case isTrue eq =>
      rw [eq]
      exact ⟨rfl, rfl, rfl⟩
    case isFalse => exact ⟨rfl, rfl, rfl⟩
  refine wf.update rfl rfl lt call rfl ?_ ?_ ?_ rfl
  · refine wf.room.congr fun k => ?_
    obtain ⟨pc, wake, seq⟩ := same k.call
    simp only [RoomEntry, Call.RoomParked, pc, wake, seq]
  · refine wf.send.congr fun e => ?_
    obtain ⟨pc, wake, _⟩ := same e.1
    simp only [SendEntry, Call.SendParked, pc, wake]
  · refine ⟨wf.slots.nodup, fun j => ?_, fun j mem => ?_⟩
    · obtain ⟨pc, wake, _⟩ := same j
      have parked := wf.slots.parked j
      simp only [Call.SlotParked, pc, wake] at parked ⊢
      exact parked
    · obtain ⟨pc, wake, _⟩ := same j
      rcases wf.slots.entry j mem with parked | settled
      · exact .inl (by simpa only [Call.SlotParked, pc, wake] using parked)
      · right
        rw [Conn.modReq, modCall_calls]
        split
        case isTrue eq => exact completed (by rwa [← eq])
        case isFalse => exact settled

/-! ### Waking -/

/-- The registry loses an entry. -/
lemma unregister {id : UInt32} (wf : s.Wf) : (s.unregister id).Wf :=
  { wf with
    registry := fun id' i found => by
      simp only [Conn.unregister, FinMap.find_remove] at found
      split at found
      case isTrue => cases found
      case isFalse => exact wf.registry id' i found }

/-- A room waiter is taken off the queue and resumed. -/
lemma resumeRoom {k : Cont} {r : Resumption} (wf : s.Wf) (entry : RoomEntry s.calls k)
    (wakes : r = .unit ∨ ∃ e, r = .throw e) :
    Wf ({ s with roomWaiters := s.roomWaiters.erase k }.resume k r) := by
  obtain ⟨⟨⟨p, pc⟩, wake⟩, seq⟩ := entry
  have out : ¬ Call.RoomParked { s.calls k.call with wake := .resumed r } := by
    rintro ⟨_, wake⟩
    cases wake
  have lt : k.call < s.next := wf.lt_next fun o eq => by simp [pc] at eq
  rw [resume_room (s := { s with roomWaiters := s.roomWaiters.erase k }) ⟨⟨⟨p, pc⟩, wake⟩, seq⟩]
  refine wf.update rfl rfl lt ((wf.call k.call).wakeRoom ⟨⟨p, pc⟩, wake⟩ wakes) rfl ?_ ?_ ?_ rfl
  · refine wf.room.erase fun b => ?_
    have leave : RoomEntry (Function.update s.calls k.call _) b ↔ _ := roomEntry_leave out b
    rw [seq] at leave
    exact leave
  · refine wf.send.congr (sendEntry_same ?_ ?_)
    · rintro q ⟨eq | eq, _⟩ <;> simp [pc] at eq
    · rintro q ⟨_, wake⟩
      cases wake
  · refine wf.slots.same ?_ ?_ id
    · rintro ⟨eq, _⟩
      simp [pc] at eq
    · rintro ⟨_, wake⟩
      cases wake

/-- The first room waiter is taken off the queue and resumed. -/
lemma resumeRoomHead {k : Cont} {ks : List Cont} {r : Resumption} (wf : s.Wf)
    (queue : s.roomWaiters = k :: ks) (wakes : r = .unit ∨ ∃ e, r = .throw e) :
    Wf ({ s with roomWaiters := ks }.resume k r) := by
  have entry : RoomEntry s.calls k := (wf.room.mem k).mp (by simp [queue])
  have resumed := wf.resumeRoom entry wakes
  rwa [queue, List.erase_cons_head] at resumed

/-- A room wake-up keeps the invariant. -/
lemma wakeOneRoomWaiter (wf : s.Wf) : s.wakeOneRoomWaiter.Wf := by
  unfold Conn.wakeOneRoomWaiter
  split
  case h_1 => exact wf
  case h_2 k ks queue => exact wf.resumeRoomHead queue (.inl rfl)

/-- A release keeps the invariant. -/
lemma releaseOutboundBytes {bytes : Int} (wf : s.Wf) : (s.releaseOutboundBytes bytes).Wf := by
  unfold Conn.releaseOutboundBytes
  exact wakeOneRoomWaiter { wf with }

/-- A parked slot waiter is resumed, and possibly taken off the queue. -/
lemma wakeSlot {queue : List Nat} (wf : s.Wf) (parked : (s.calls i).SlotParked)
    (slots : SlotQueue queue (Function.update s.calls i { s.calls i with
      wake := .resumed .unit, req := { (s.calls i).req with slotCont := none } })) :
    Wf ({ s with inFlightWaiters := queue }.resumeSlot i) := by
  obtain ⟨pc, wake⟩ := parked
  have lt : i < s.next := wf.lt_next fun o eq => by simp [pc] at eq
  rw [resumeSlot_parked (s := { s with inFlightWaiters := queue }) (wf.call i) ⟨pc, wake⟩]
  refine wf.update rfl rfl lt ((wf.call i).wakeSlot ⟨pc, wake⟩) rfl ?_ ?_ slots rfl
  · refine wf.room.congr (roomEntry_same ?_ ?_)
    · rintro ⟨⟨p, eq⟩, _⟩
      simp [pc] at eq
    · rintro ⟨_, eq⟩
      cases eq
  · refine wf.send.congr (sendEntry_same ?_ ?_)
    · rintro p ⟨eq | eq, _⟩ <;> simp [pc] at eq
    · rintro p ⟨_, eq⟩
      cases eq

/-- The first entry of the slot queue is taken off it and, if it is parked, resumed. -/
lemma resumeSlotHead {is : List Nat} (wf : s.Wf) (queue : s.inFlightWaiters = i :: is) :
    Wf ({ s with inFlightWaiters := is }.resumeSlot i) := by
  have slots := wf.slots
  rw [queue] at slots
  by_cases parked : (s.calls i).SlotParked
  · refine wf.wakeSlot parked ?_
    have left := slots.leave (i := i) (c := { s.calls i with
      wake := .resumed .unit, req := { (s.calls i).req with slotCont := none } })
      (by simp [Call.SlotParked])
    simpa using left
  · rw [resumeSlot_idle (s := { s with inFlightWaiters := is }) (wf.call i) parked]
    have left := slots.leave (i := i) parked
    exact { wf with slots := by simpa using left }

/-- A slot wake-up keeps the invariant. -/
lemma wakeOneInFlightWaiter (wf : s.Wf) : s.wakeOneInFlightWaiter.Wf := by
  unfold Conn.wakeOneInFlightWaiter
  split
  case h_1 => exact wf
  case h_2 i is queue => exact wf.resumeSlotHead queue

/-- A settled request is resumed from its slot wait, and stays in the queue until it runs. -/
lemma resumeSlot (wf : s.Wf) (settled : (s.calls i).req.isCompleted) : (s.resumeSlot i).Wf := by
  by_cases parked : (s.calls i).SlotParked
  · refine wf.wakeSlot parked ⟨wf.slots.nodup, fun j => ?_, fun j mem => ?_⟩
    · by_cases eq : j = i
      · subst eq
        simp [Call.SlotParked]
      · simpa [eq] using wf.slots.parked j
    · by_cases eq : j = i
      · subst eq
        exact .inr (by simpa [Pending.isCompleted] using settled)
      · simpa [eq] using wf.slots.entry j mem
  · rwa [resumeSlot_idle (wf.call i) parked]

/-! ### Settling -/

/-- Settling a request keeps the invariant. -/
lemma settle {store : Pending → Pending} {r : Resumption} (wf : s.Wf) (st : Call.Settles store)
    (request : (s.calls i).kind = .request) (wakes : Pc.await.Wakes r) :
    (s.settle i store r).Wf := by
  by_cases live : (s.calls i).req.isCompleted
  · rwa [Conn.settle, if_pos live]
  have lt : i < s.next := by
    by_contra ge
    rw [wf.fresh i (by omega)] at request
    cases request
  have form := settle_form (r := r) (wf.call i) st (by simpa using live)
  generalize s.settle i store r = t at form
  cases form with
  | select pc wake =>
    have after : ¬ Call.Queued { s.calls i with wake := .resumed .gate, req := store (s.calls i).req } :=
      Call.not_queued_of_wake (by simp)
    refine wf.update rfl rfl lt ((wf.call i).settleSelect st pc) rfl ?_ ?_ ?_ rfl
    · refine wf.room.congr (roomEntry_same ?_ fun h => after (.inr (.inl h)))
      rintro ⟨⟨p, eq⟩, _⟩
      simp [pc] at eq
    · refine wf.send.filter fun e => ?_
      rw [modCall, sendEntry_leave fun p h => after (.inr (.inr ⟨p, h⟩))]
      simp
    · refine wf.slots.same ?_ (fun h => after (.inl h)) fun _ => st.completed _
      rintro ⟨eq, _⟩
      simp [pc] at eq
  | @waiter k stored =>
    obtain ⟨_, place⟩ := (wf.call i).waiter k stored
    have before : ¬ (s.calls i).Queued := by
      rcases place with ⟨pc, _⟩ | ⟨_, wake⟩
      · exact Call.not_queued_await pc
      · exact Call.not_queued_of_wake (by simp [wake])
    have after : ¬ Call.Queued { (Call.resumed k.seq r (s.calls i)) with
        req := { store (s.calls i).req with waiter := none } } := by
      unfold Call.resumed
      split
      · exact Call.not_queued_of_wake (by simp)
      · exact before
    refine wf.move before after ((wf.call i).settleWaiter st stored request wakes) ?_ ?_ lt
      rfl rfl rfl rfl rfl rfl
    · intro _
      have := st.completed (s.calls i).req
      simpa [Pending.isCompleted] using this
    · unfold Call.resumed
      split <;> rfl
  | plain select waiter =>
    exact wf.modReq lt ((wf.call i).settlePlain st select waiter request) fun _ => st.completed _

/-- A response to a request keeps the invariant. -/
lemma complete {packet : Packet} (wf : s.Wf) (request : (s.calls i).kind = .request) :
    (s.complete i packet).Wf :=
  wf.settle (settles_response packet) request (.inl ⟨packet, rfl⟩)

/-- Failing a request keeps the invariant; a settled call may be of any kind. -/
lemma fail {e : Throwable} (wf : s.Wf)
    (request : (s.calls i).req.isCompleted = false → (s.calls i).kind = .request) :
    (s.fail i e).Wf := by
  by_cases settled : (s.calls i).req.isCompleted
  · rwa [Conn.fail, Conn.settle, if_pos settled]
  · exact wf.settle (settles_error e) (request (by simpa using settled)) (.inr ⟨e, rfl⟩)

/-- The room waiter a deadline takes out of the queue. -/
lemma resumeOwnRoom {k : Cont} (wf : s.Wf) (stored : (s.calls i).req.roomCont = some k) :
    Wf ({ s with roomWaiters := s.roomWaiters.erase k }.resume k .unit) ∧
      ¬ ((({ s with roomWaiters := s.roomWaiters.erase k }.resume k .unit).calls i).RoomParked) := by
  obtain ⟨rfl, place⟩ := (wf.call i).roomCont k stored
  by_cases parked : (s.calls i).RoomParked
  · have entry : RoomEntry s.calls ⟨i, (s.calls i).seq⟩ := ⟨parked, rfl⟩
    refine ⟨wf.resumeRoom entry (.inl rfl), ?_⟩
    rw [resume_room (s := { s with roomWaiters := s.roomWaiters.erase _ }) entry]
    simp [Call.RoomParked]
  · have woken : (s.calls i).wake ≠ .parked := by
      intro wake
      rcases place with waits | ⟨_, woken⟩
      · exact parked ⟨waits, wake⟩
      · exact woken wake
    have absent : (⟨i, (s.calls i).seq⟩ : Cont) ∉ s.roomWaiters := by
      rw [wf.room.mem]
      exact fun entry => parked entry.1
    rw [List.erase_of_not_mem absent, resume_stale fun _ => woken]
    exact ⟨{ wf with }, parked⟩

/-- A request has been made. -/
lemma lt_of_request (wf : s.Wf) (request : (s.calls i).kind = .request) : i < s.next := by
  by_contra ge
  rw [wf.fresh i (by omega)] at request
  cases request

/-- The room part of the deadline keeps the invariant. -/
lemma runRoom (wf : s.Wf) : (s.runRoom i).Wf := by
  unfold Conn.runRoom
  split
  case h_1 => exact wf.wakeOneInFlightWaiter
  case h_2 k stored =>
    obtain ⟨resumed, woken⟩ := wf.resumeOwnRoom stored
    have lt : i < s.next := by
      apply wf.lt_of_request
      by_contra other
      simp [(wf.call i).fresh other] at stored
    dsimp only
    split
    case isTrue => exact resumed
    case isFalse =>
      refine wakeOneInFlightWaiter ?_
      exact resumed.modReq lt ((resumed.call i).dropRoom woken) id

/-- Only a request has a deadline. -/
lemma request_of_armed (wf : s.Wf) (armed : (s.calls i).req.armed) :
    (s.calls i).kind = .request := by
  by_contra other
  simp [(wf.call i).fresh other] at armed

/-- The firing of a timer keeps the invariant. -/
lemma fire (wf : s.Wf) (request : (s.calls i).kind = .request) : (s.fire i).Wf :=
  wf.modReq (wf.lt_of_request request) ((wf.call i).fire request) id

/-- A deadline that settles its request keeps the invariant. -/
lemma expire (wf : s.Wf) (request : (s.calls i).kind = .request) : (s.expire i).Wf := by
  have failed := wf.fail (i := i)
    (e := .requestTimeout (s.calls i).req.id (s.calls i).req.timeoutMillis) fun _ => request
  unfold Conn.expire
  exact (failed.unregister.resumeSlot (fail_completed (wf.call i))).runRoom

/-- The deadline keeps the invariant. -/
lemma run (wf : s.Wf) (armed : (s.calls i).req.armed) : (s.run i).Wf := by
  have request := wf.request_of_armed armed
  unfold Conn.run
  split
  case isTrue => exact wf.fire request
  case isFalse => exact (wf.fire request).expire (by simpa [Conn.fire, Conn.modReq] using request)

/-- The read loop's treatment of a response keeps the invariant. -/
lemma onResponse {packet : Packet} (wf : s.Wf) : (s.onResponse packet).Wf := by
  unfold Conn.onResponse
  split
  case h_1 => exact wf
  case h_2 i found =>
    refine wakeOneInFlightWaiter ?_
    exact wf.unregister.complete (wf.registry _ _ found)

/-! ### The end of a call -/

/-- The first lines of the `finally` block keep the invariant. -/
lemma dispose {o o' : Outcome} (wf : s.Wf) (pc : (s.calls i).pc = .unwinding o')
    (request : (s.calls i).kind = .request) : (s.dispose i o).Wf := by
  have lt : i < s.next := wf.lt_next fun o eq => by simp [pc] at eq
  have before : ¬ (s.calls i).Queued := Call.not_queued_of_waits (by simp [pc])
  have after : ∀ c : Call, c.pc = .ended o → ¬ c.Queued := fun c eq =>
    Call.not_queued_of_waits (by simp [eq])
  have dropped : Wf { s with inFlightWaiters := s.inFlightWaiters.erase i } := by
    have left := wf.slots.leave (i := i) fun h => before (.inl h)
    rw [Function.update_eq_self] at left
    exact { wf with slots := left }
  exact dropped.move before (after _ rfl) ((wf.call i).finish pc request) id rfl lt
    rfl rfl rfl rfl rfl rfl

/-- The end of a call keeps the invariant. -/
lemma finish {o o' : Outcome} (wf : s.Wf) (pc : (s.calls i).pc = .unwinding o') :
    (s.finish i o).Wf := by
  unfold Conn.finish
  split
  case isTrue request =>
    have ended : (s.dispose i o).Wf := wf.dispose pc request
    dsimp only
    split
    case isTrue => exact ended.unregister.wakeOneInFlightWaiter
    case isFalse => exact ended
  case isFalse other =>
    have lt : i < s.next := wf.lt_next fun o eq => by simp [pc] at eq
    exact wf.move (Call.not_queued_of_waits (by simp [pc])) (Call.not_queued_of_waits rfl)
      ((wf.call i).finishOther other) id rfl lt rfl rfl rfl rfl rfl rfl

/-! ### Moving, parking and cancelling -/

/-- A running call goes to another place of its code. -/
lemma setPc {pc : Pc} (wf : s.Wf) (before : (s.calls i).pc.waits = false)
    (holds : (s.calls i).pc.holds = false) (after : pc.waits = false)
    (kind : pc.Allows (s.calls i).kind) : (s.setPc i pc).Wf := by
  have lt : i < s.next := wf.lt_next fun o eq => by simp [eq] at holds
  have idle := Call.not_queued_of_waits before
  exact wf.move idle (Call.not_queued_of_waits after)
    ((wf.call i).move holds (fun h => idle (.inl h)) after kind) id rfl lt rfl rfl rfl rfl rfl rfl

/-- A new call that is in no queue keeps the invariant. -/
lemma addCall (wf : s.Wf) (call : c.Wf s.next) (idle : ¬ c.Queued) : (s.addCall c).Wf where
  call j := by
    rw [addCall_calls]
    split
    case isTrue eq =>
      subst eq
      exact call
    case isFalse => exact wf.call j
  fresh j ge := by
    have ge : s.next + 1 ≤ j := ge
    rw [addCall_calls, if_neg (by omega)]
    exact wf.fresh j (by omega)
  room := by
    refine wf.room.congr (roomEntry_same ?_ fun h => idle (.inr (.inl h)))
    exact fun h => wf.notQueued le_rfl (.inr (.inl h))
  send := by
    refine wf.send.congr (sendEntry_same ?_ fun p h => idle (.inr (.inr ⟨p, h⟩)))
    exact fun p h => wf.notQueued le_rfl (.inr (.inr ⟨p, h⟩))
  slots := by
    refine wf.slots.same (fun h => wf.notQueued le_rfl (.inl h)) (fun h => idle (.inl h)) ?_
    rw [wf.fresh _ le_rfl]
    simp [Pending.isCompleted]
  registry id j found := by
    have request := wf.registry id j found
    have lt := wf.lt_of_request request
    rwa [addCall_calls, if_neg (by omega)]

/-- A request starts to wait for a slot. -/
lemma slotPark (wf : s.Wf) (pc : (s.calls i).pc = .slotLoop)
    (live : (s.calls i).req.isCompleted = false) :
    Wf { s.modCall i (fun c => { c with
        pc := .slotWait, wake := .parked, seq := c.seq + 1
        req := { c.req with slotCont := some ⟨i, c.seq + 1⟩ } }) with
      inFlightWaiters := s.inFlightWaiters ++ [i] } := by
  have lt : i < s.next := wf.lt_next fun o eq => by simp [pc] at eq
  have idle : ¬ (s.calls i).Queued := Call.not_queued_of_waits (by simp [pc])
  refine wf.update rfl rfl lt ((wf.call i).parkSlot pc) rfl ?_ ?_ ?_ rfl
  · refine wf.room.congr (roomEntry_same (fun h => idle (.inr (.inl h))) ?_)
    rintro ⟨⟨p, eq⟩, _⟩
    cases eq
  · refine wf.send.congr (sendEntry_same (fun p h => idle (.inr (.inr ⟨p, h⟩))) ?_)
    rintro p ⟨eq | eq, _⟩ <;> cases eq
  · have out : i ∉ s.inFlightWaiters := by
      intro mem
      rcases wf.slots.entry i mem with parked | settled
      · exact idle (.inl parked)
      · simp [live] at settled
    refine ⟨?_, fun j => ?_, fun j mem => ?_⟩
    · rw [List.nodup_append]
      exact ⟨wf.slots.nodup, List.nodup_singleton i, by grind⟩
    · by_cases eq : j = i
      · simp [eq]
      · simpa [modCall, eq] using wf.slots.parked j
    · by_cases eq : j = i
      · subst eq
        exact .inl ⟨by simp, by simp⟩
      · have mem : j ∈ s.inFlightWaiters := by simpa [eq] using mem
        simpa [modCall, eq] using wf.slots.entry j mem

/-- A call starts to wait for room. -/
lemma roomPark {p : Packet} (wf : s.Wf) (pc : (s.calls i).pc = .roomLoop p) :
    Wf { s.modCall i (fun c => { c with
        pc := .roomWait p, wake := .parked, seq := c.seq + 1
        req := { c.req with
          roomCont := if c.kind = .request then some ⟨i, c.seq + 1⟩ else c.req.roomCont } }) with
      roomWaiters := s.roomWaiters ++ [⟨i, (s.calls i).seq + 1⟩] } := by
  have lt : i < s.next := wf.lt_next fun o eq => by simp [pc] at eq
  have idle : ¬ (s.calls i).Queued := Call.not_queued_of_waits (by simp [pc])
  refine wf.update rfl rfl lt ((wf.call i).parkRoom pc) rfl ?_ ?_ ?_ rfl
  · refine wf.room.append (fun h => idle (.inr (.inl h.1))) ?_
    exact roomEntry_park (fun h => idle (.inr (.inl h))) ⟨⟨p, rfl⟩, rfl⟩
  · refine wf.send.congr (sendEntry_same (fun p h => idle (.inr (.inr ⟨p, h⟩))) ?_)
    rintro q ⟨eq | eq, _⟩ <;> cases eq
  · refine wf.slots.same (fun h => idle (.inl h)) ?_ id
    rintro ⟨eq, _⟩
    cases eq

/-- A call starts to wait on the channel, in `send` or in its `select`. -/
lemma sendPark {p : Packet} {c : Call} (wf : s.Wf) (pc : (s.calls i).pc = .roomLoop p)
    (call : c.Wf i) (kind : c.kind = (s.calls i).kind)
    (completed : c.req.isCompleted = (s.calls i).req.isCompleted)
    (place : c.pc = .channelSend p ∨ c.pc = .channelSelect p) (wake : c.wake = .parked)
    (calls : t.calls = Function.update s.calls i c) (next : t.next = s.next)
    (room : t.roomWaiters = s.roomWaiters)
    (senders : t.outbound.senders = s.outbound.senders ++ [(i, p)])
    (slots : t.inFlightWaiters = s.inFlightWaiters) (pending : t.pending = s.pending) : t.Wf := by
  have lt : i < s.next := wf.lt_next fun o eq => by simp [pc] at eq
  have idle : ¬ (s.calls i).Queued := Call.not_queued_of_waits (by simp [pc])
  refine wf.update calls next lt call kind ?_ ?_ ?_ pending
  · rw [room, calls]
    refine wf.room.congr (roomEntry_same (fun h => idle (.inr (.inl h))) ?_)
    rintro ⟨⟨q, eq⟩, _⟩
    rcases place with h | h <;> simp [h] at eq
  · rw [senders, calls]
    refine wf.send.append (fun h => idle (.inr (.inr ⟨p, h⟩))) ?_
    refine sendEntry_park (fun q h => idle (.inr (.inr ⟨q, h⟩))) fun q => ?_
    rcases place with h | h <;> simp [Call.SendParked, h, wake, eq_comm]
  · rw [slots, calls]
    refine wf.slots.same (fun h => idle (.inl h)) ?_ (by simp [completed])
    rintro ⟨eq, _⟩
    rcases place with h | h <;> simp [h] at eq

/-- A sender of the channel is resumed or cancelled and leaves its queue. -/
lemma sendLeave {p : Packet} {c : Call} (wf : s.Wf) (parked : (s.calls i).SendParked p)
    (call : c.Wf i) (kind : c.kind = (s.calls i).kind) (woken : c.wake ≠ .parked)
    (completed : c.req.isCompleted = (s.calls i).req.isCompleted)
    (calls : t.calls = Function.update s.calls i c) (next : t.next = s.next)
    (room : t.roomWaiters = s.roomWaiters)
    (send : Enlists t.outbound.senders fun e => SendEntry s.calls e ∧ e.1 ≠ i)
    (slots : t.inFlightWaiters = s.inFlightWaiters) (pending : t.pending = s.pending) : t.Wf := by
  have after := Call.not_queued_of_wake woken
  obtain ⟨pc, _⟩ := parked
  have lt : i < s.next := wf.lt_next fun o eq => by
    rcases pc with h | h <;> simp [h] at eq
  refine wf.update calls next lt call kind ?_ ?_ ?_ pending
  · rw [room, calls]
    refine wf.room.congr (roomEntry_same ?_ fun h => after (.inr (.inl h)))
    rintro ⟨⟨q, eq⟩, _⟩
    rcases pc with h | h <;> simp [h] at eq
  · rw [calls]
    exact send.congr (sendEntry_leave fun q h => after (.inr (.inr ⟨q, h⟩)))
  · rw [slots, calls]
    refine wf.slots.same ?_ (fun h => after (.inl h)) (by simp [completed])
    rintro ⟨eq, _⟩
    rcases pc with h | h <;> simp [h] at eq

/-- A slot waiter is cancelled or leaves after it was. -/
lemma slotLeave {c : Call} (wf : s.Wf) (pc : (s.calls i).pc = .slotWait) (call : c.Wf i)
    (kind : c.kind = (s.calls i).kind) (after : ¬ c.Queued)
    (calls : t.calls = Function.update s.calls i c) (next : t.next = s.next)
    (room : t.roomWaiters = s.roomWaiters) (senders : t.outbound.senders = s.outbound.senders)
    (slots : t.inFlightWaiters = s.inFlightWaiters.erase i) (pending : t.pending = s.pending) :
    t.Wf := by
  have lt : i < s.next := wf.lt_next fun o eq => by simp [pc] at eq
  refine wf.update calls next lt call kind ?_ ?_ ?_ pending
  · rw [room, calls]
    refine wf.room.congr (roomEntry_same ?_ fun h => after (.inr (.inl h)))
    rintro ⟨⟨p, eq⟩, _⟩
    simp [pc] at eq
  · rw [senders, calls]
    refine wf.send.congr (sendEntry_same ?_ fun p h => after (.inr (.inr ⟨p, h⟩)))
    rintro p ⟨eq | eq, _⟩ <;> simp [pc] at eq
  · rw [slots, calls]
    exact wf.slots.leave fun h => after (.inl h)

/-- A room waiter is cancelled or leaves after it was. -/
lemma roomLeave {p : Packet} {c : Call} (wf : s.Wf) (pc : (s.calls i).pc = .roomWait p)
    (call : c.Wf i) (kind : c.kind = (s.calls i).kind) (after : ¬ c.Queued)
    (completed : c.req.isCompleted = (s.calls i).req.isCompleted)
    (calls : t.calls = Function.update s.calls i c) (next : t.next = s.next)
    (room : t.roomWaiters = s.roomWaiters.erase ⟨i, (s.calls i).seq⟩)
    (senders : t.outbound.senders = s.outbound.senders)
    (slots : t.inFlightWaiters = s.inFlightWaiters) (pending : t.pending = s.pending) : t.Wf := by
  have lt : i < s.next := wf.lt_next fun o eq => by simp [pc] at eq
  refine wf.update calls next lt call kind ?_ ?_ ?_ pending
  · rw [room, calls]
    exact wf.room.erase (roomEntry_leave fun h => after (.inr (.inl h)))
  · rw [senders, calls]
    refine wf.send.congr (sendEntry_same ?_ fun p h => after (.inr (.inr ⟨p, h⟩)))
    rintro p ⟨eq | eq, _⟩ <;> simp [pc] at eq
  · rw [slots, calls]
    refine wf.slots.same ?_ (fun h => after (.inl h)) (by simp [completed])
    rintro ⟨eq, _⟩
    simp [pc] at eq

/-- A parked sender is cancelled: its element is withdrawn from the channel. -/
lemma cancelSend {p : Packet} (wf : s.Wf) (parked : (s.calls i).SendParked p) :
    Wf ({ s with outbound := s.outbound.withdraw i }.setCancelled i) := by
  refine wf.sendLeave parked ((wf.call i).cancelSend parked) rfl (by simp) rfl rfl rfl rfl ?_ rfl rfl
  exact wf.send.filter fun e => by simp

/-- The first sender in the channel's queue is let in. -/
lemma acceptSender {j : Nat} {q : Packet} {senders : List (Nat × Packet)} {buffer : List Packet}
    (wf : s.Wf) (queue : s.outbound.senders = (j, q) :: senders) :
    Wf ({ s with outbound := { buffer, senders } }.acceptSender j) := by
  have parked : (s.calls j).SendParked q := (wf.send.mem (j, q)).mp (by simp [queue])
  refine wf.sendLeave parked ((wf.call j).accept parked) rfl (by simp) rfl rfl rfl rfl ?_ rfl rfl
  have send := wf.send
  rw [queue] at send
  refine send.tail fun e => and_congr_right fun entry => ?_
  -- a call waits with one packet only, so its other pairs are not in the queue
  rw [not_iff_not]
  constructor
  · intro same
    have entry : (s.calls e.1).SendParked e.2 := entry
    rw [same] at entry
    rcases parked.1 with h | h <;> rcases entry.1 with h' | h' <;> simp_all [Prod.ext_iff]
  · intro same
    rw [same]

/-- The write loop takes its next packet. -/
lemma loopNext {env : Env} (wf : s.Wf) : (s.loopNext env).Wf := by
  unfold Conn.loopNext
  split
  case h_1 packet rest _ _ => exact { wf with }
  case h_2 packet rest j q senders _ queue =>
    have accepted : Wf ({ s with outbound := { buffer := rest ++ [q], senders } }.acceptSender j) :=
      wf.acceptSender queue
    exact { accepted with }
  case h_3 j q senders _ queue =>
    have accepted : Wf ({ s with outbound := { s.outbound with senders } }.acceptSender j) :=
      wf.acceptSender queue
    exact { accepted with }
  case h_4 => exact { wf with }

/-- A request that lost the race for the channel, or was cancelled in it. -/
lemma abortSelect {p : Packet} (wf : s.Wf) (pc : (s.calls i).pc = .channelSelect p)
    (woken : (s.calls i).wake ≠ .parked) : (s.abortSelect i p).Wf := by
  have request := (wf.call i).kind
  rw [pc] at request
  have dropped : (s.modReq i fun r => { r with gate := false }).Wf :=
    wf.modReq (wf.lt_of_request request) ((wf.call i).dropGate woken request) id
  exact dropped.releaseOutboundBytes

/-- It goes on to its `await`, or leaves. -/
lemma abortSelect_setPc {p : Packet} {pc' : Pc} (wf : s.Wf) (pc : (s.calls i).pc = .channelSelect p)
    (woken : (s.calls i).wake ≠ .parked) (after : pc'.waits = false)
    (kind : pc'.Allows (s.calls i).kind) : ((s.abortSelect i p).setPc i pc').Wf := by
  have aborted := wf.abortSelect pc woken
  have frame := (abortSelect_waking i p s).calls i
  have still : ((s.abortSelect i p).calls i).pc = .channelSelect p := frame.pc.trans pc
  have idle : ¬ ((s.abortSelect i p).calls i).Queued :=
    Call.not_queued_of_wake fun parked => woken (frame.parked parked)
  have lt := aborted.lt_next (i := i) fun o eq => by simp [still] at eq
  have moved := (aborted.call i).move (by simp [still]) (fun h => idle (.inl h)) after
    (frame.kind ▸ kind)
  exact aborted.move idle (Call.not_queued_of_waits after) moved id rfl lt rfl rfl rfl rfl rfl rfl

/-- A cancelled slot waiter leaves. -/
lemma slotCancelled {o : Outcome} (wf : s.Wf) (pc : (s.calls i).pc = .slotWait)
    (woken : (s.calls i).wake ≠ .parked) : ((s.onSlotCancelled i).setPc i (.unwinding o)).Wf := by
  have call : Call.Wf i { s.calls i with
      pc := .unwinding o, req := { (s.calls i).req with slotCont := none } } := by
    have left := (wf.call i).leave (o := o) woken
    rwa [← left.dropSlot fun h => by cases h.1] at left
  exact wf.slotLeave pc call rfl (Call.not_queued_of_waits rfl) (slotCancelled_calls i _ s) rfl rfl
    rfl rfl rfl

/-- A cancelled room waiter leaves. -/
lemma roomCancelled {o : Outcome} {p : Packet} (wf : s.Wf) (pc : (s.calls i).pc = .roomWait p)
    (woken : (s.calls i).wake ≠ .parked) : ((s.onRoomCancelled i).setPc i (.unwinding o)).Wf := by
  have call : Call.Wf i { s.calls i with
      pc := .unwinding o, req := { (s.calls i).req with roomCont := none } } :=
    ((wf.call i).leave woken).dropRoom fun h => woken h.2
  exact wf.roomLeave pc call rfl (Call.not_queued_of_waits rfl) rfl (roomCancelled_calls i _ s) rfl
    rfl rfl rfl rfl

/-- A request enters the registry. -/
lemma registered (wf : s.Wf) (request : (s.calls i).kind = .request) (id : UInt32) :
    Wf { s with pending := s.pending.set id i } :=
  { wf with
    registry := fun id' j found => by
      rw [FinMap.find_set] at found
      split at found
      case isTrue =>
        cases found
        exact request
      case isFalse => exact wf.registry id' j found }

/-- A request whose packet is refused leaves its slot loop. -/
lemma refused {o : Outcome} (wf : s.Wf) (pc : (s.calls i).pc = .slotLoop) :
    ({ s with pending := s.pending.set (s.calls i).req.id i }.setPc i (.unwinding o)).Wf := by
  have kind := (wf.call i).kind
  rw [pc] at kind
  exact (wf.registered kind (s.calls i).req.id).setPc (by simp [pc]) (by simp [pc]) rfl trivial

/-- A refused request takes its fresh entry out again and lets the next waiter through. -/
lemma unwind_refused {e : Throwable} (request : (s.calls i).kind = .request) :
    { s with pending := s.pending.set (s.calls i).req.id i }.unwind i (.threw e) =
      (((({ s with pending := s.pending.set (s.calls i).req.id i }).setPc i
        (.unwinding (.threw e))).dispose i (.threw e)).unregister
          (s.calls i).req.id).wakeOneInFlightWaiter := by
  set u : Conn := { s with pending := s.pending.set (s.calls i).req.id i }
  set v := u.setPc i (.unwinding (.threw e))
  have kind : (v.calls i).kind = .request := by simpa [v, u, Conn.setPc] using request
  have id : (v.calls i).req.id = (s.calls i).req.id := by simp [v, u, Conn.setPc]
  have held : ((v.dispose i (.threw e)).pending.find (s.calls i).req.id).isSome := by
    simp [v, u, Conn.setPc, Conn.dispose]
  rw [unwind, Conn.finish, if_pos kind]
  dsimp only
  rw [id, if_pos held]

/-- A call that runs is not the new one. -/
lemma addCall_older (wf : s.Wf) (running : ∀ o, (s.calls i).pc ≠ .ended o) :
    (s.addCall c).calls i = s.calls i := by
  rw [addCall_calls, if_neg (ne_of_lt (wf.lt_next running))]

/-- The successor of a cancelled writer is launched. -/
lemma launched (wf : s.Wf) : (s.addCall { kind := .successor, pc := .launched }).Wf :=
  wf.addCall (.running ⟨rfl, rfl, rfl⟩ rfl (by simp) fun _ => rfl) (Call.not_queued_of_waits rfl)

/-- A parked slot waiter is cancelled. -/
lemma cancelSlot (wf : s.Wf) (pc : (s.calls i).pc = .slotWait) :
    ((s.onSlotCancelled i).setCancelled i).Wf := by
  have call : Call.Wf i _ := (wf.call i).cancelSlot pc
  exact wf.slotLeave pc call rfl (Call.not_queued_of_wake (by simp)) (cancelSlot_calls i s) rfl
    rfl rfl rfl rfl

/-- A parked room waiter is cancelled. -/
lemma cancelRoom {p : Packet} (wf : s.Wf) (pc : (s.calls i).pc = .roomWait p) :
    ((s.onRoomCancelled i).setCancelled i).Wf := by
  have call : Call.Wf i _ := (wf.call i).cancelRoom pc
  exact wf.roomLeave pc call rfl (Call.not_queued_of_wake (by simp)) rfl (cancelRoom_calls i s)
    rfl rfl rfl rfl rfl

/-- A coroutine changes its own record only. -/
lemma localStep {A : Trigger} (wf : s.Wf) (h : LocalStep A s i (s.calls i) c) :
    (s.modCall i fun _ => c).Wf := by
  have lt : i < s.next := wf.lt_next (Call.running_of_localStep h)
  obtain ⟨before, after⟩ := Call.not_queued_of_localStep h
  have kept : (s.calls i).req.isCompleted → c.req.isCompleted := by
    cases h <;> simp [Pending.isCompleted]
  have kind : c.kind = (s.calls i).kind := by cases h <;> rfl
  exact wf.move before after (.localStep h (wf.call i)) kept kind lt rfl rfl rfl rfl rfl rfl

/-- A call is cancelled at its suspension. -/
lemma cancel (wf : s.Wf) (h : s.cancel i = some t) : t.Wf := by
  have woken {c : Call} (h : LocalStep ⟨.cancel i, s, fun _ => True⟩ s i (s.calls i) c) :
      (s.modCall i fun _ => c).Wf := wf.localStep h
  unfold Conn.cancel at h
  split at h <;> cases h
  case h_1 pc wake => exact wf.cancelSlot pc
  case h_2 p pc wake => exact wf.cancelRoom pc
  case h_3 p pc wake => exact wf.cancelSend ⟨.inl pc, wake⟩
  case h_4 p pc wake => exact wf.cancelSend ⟨.inr pc, wake⟩
  case h_5 pc wake => exact woken (.cancelAwait pc wake)
  case h_6 pc wake => exact woken (.cancelSlotWoken pc wake fun _ => trivial)
  case h_7 p pc wake => exact woken (.cancelRoomWoken pc wake fun _ => trivial)
  case h_8 p pc wake => exact woken (.cancelSendWoken pc wake)
  case h_9 p pc wake => exact woken (.cancelSelectSent pc wake)
  case h_10 p pc wake => exact woken (.cancelSelectGate pc wake)
  case h_11 p pc wake => exact woken (.cancelAwaitWoken pc wake)

/-- Cancelling a call of the handler loop keeps the invariant. -/
lemma cancelResponse (wf : s.Wf) (i : Nat) : (s.cancelResponse i).Wf := by
  rcases s.cancelResponse_cases i with same | ⟨_, cancelled⟩
  · rwa [same]
  · exact wf.cancel cancelled

/-! ### Shutdown -/

/-- An entry of the slot queue that nothing has settled is a request. -/
lemma request_of_slot (wf : s.Wf) (mem : i ∈ s.inFlightWaiters)
    (live : (s.calls i).req.isCompleted = false) : (s.calls i).kind = .request := by
  rcases wf.slots.entry i mem with ⟨pc, _⟩ | settled
  · have kind := (wf.call i).kind
    rwa [pc] at kind
  · simp [live] at settled

section
variable {P : Conn → Prop}

/-- Induction rule for failing a list of registered requests. -/
lemma foldl_fail_rule {l : List Nat} (wf : s.Wf) (start : P s)
    (entries : ∀ i ∈ l, ∃ id, s.pending.find id = some i)
    (fail : ∀ s id i, s.Wf → s.pending.find id = some i → P s → P (s.fail i closedException)) :
    (l.foldl (fun s i => s.fail i closedException) s).Wf ∧
      P (l.foldl (fun s i => s.fail i closedException) s) := by
  induction l generalizing s with
  | nil => exact ⟨wf, start⟩
  | cons i l ih =>
    obtain ⟨id, found⟩ := entries i List.mem_cons_self
    refine ih (wf.fail fun _ => wf.registry id i found) (fail s id i wf found start) ?_
    intro j mem
    rw [(fail_steady i _ s).pending]
    exact entries j (List.mem_cons_of_mem i mem)

/-- Induction rule for failing the registered requests and clearing the registry. -/
lemma failPending_rule (wf : s.Wf) (start : P s)
    (fail : ∀ s id i, s.Wf → s.pending.find id = some i → P s → P (s.fail i closedException))
    (drop : ∀ s, P s → P { s with pending := ∅ }) : s.failPending.Wf ∧ P s.failPending := by
  obtain ⟨failed, held⟩ := foldl_fail_rule wf start (fun i mem => FinMap.mem_values.mp mem) fail
  refine ⟨{ failed with registry := fun id i found => ?_ }, drop _ held⟩
  simp [Conn.failPending] at found

/-- Induction rule for failing the room waiters, from the first to the last. -/
lemma failRoomWaiters_rule (wf : s.Wf) (start : P s)
    (room : ∀ s k ks, s.Wf → s.roomWaiters = k :: ks → P s →
      P ({ s with roomWaiters := ks }.resume k (.throw closedException))) :
    s.failRoomWaiters.Wf ∧ P s.failRoomWaiters := by
  have fold : ∀ (l : List Cont) (s : Conn), s.Wf → P s → s.roomWaiters = l →
      (l.foldl (fun s k => { s with roomWaiters := s.roomWaiters.tail }.resume k
        (.throw closedException)) s).Wf ∧
      P (l.foldl (fun s k => { s with roomWaiters := s.roomWaiters.tail }.resume k
        (.throw closedException)) s) := by
    intro l
    induction l with
    | nil => exact fun s wf start _ => ⟨wf, start⟩
    | cons k ks ih =>
      intro s wf start queue
      have tail : s.roomWaiters.tail = ks := by rw [queue, List.tail_cons]
      rw [List.foldl_cons, tail]
      exact ih _ (wf.resumeRoomHead queue (.inr ⟨_, rfl⟩)) (room s k ks wf queue start) rfl
  exact fold _ s wf start rfl

/-- Induction rule for failing the slot waiters, from the first to the last. -/
lemma failSlotWaiters_rule (wf : s.Wf) (start : P s)
    (slot : ∀ s i is, s.Wf → s.inFlightWaiters = i :: is → P s →
      P ({ s.fail i closedException with inFlightWaiters := is }.resumeSlot i)) :
    s.failSlotWaiters.Wf ∧ P s.failSlotWaiters := by
  have fold : ∀ (l : List Nat) (s : Conn), s.Wf → P s → s.inFlightWaiters = l →
      (l.foldl (fun s i => ({ s with inFlightWaiters := s.inFlightWaiters.tail }.fail i
        closedException).resumeSlot i) s).Wf ∧
      P (l.foldl (fun s i => ({ s with inFlightWaiters := s.inFlightWaiters.tail }.fail i
        closedException).resumeSlot i) s) := by
    intro l
    induction l with
    | nil => exact fun s wf start _ => ⟨wf, start⟩
    | cons i is ih =>
      intro s wf start queue
      have failed := wf.fail (e := closedException) (wf.request_of_slot (i := i) (by simp [queue]))
      have same := (fail_steady i closedException s).inFlightWaiters
      rw [List.foldl_cons, queue, List.tail_cons, fail_queue]
      refine ih _ (failed.resumeSlotHead (by rw [same, queue])) (slot s i is wf queue start) ?_
      exact (resumeSlot_steady i _).inFlightWaiters
  exact fold _ s wf start rfl

/-- Induction rule for the cancellation of the handler job. -/
lemma cancelHandler_rule (wf : s.Wf) (start : P s)
    (cancel : ∀ s i, s.Wf → P s → P (s.cancelResponse i)) :
    s.cancelHandler.Wf ∧ P s.cancelHandler := by
  have fold : ∀ (l : List Nat) (s : Conn), s.Wf → P s →
      (l.foldl Conn.cancelResponse s).Wf ∧ P (l.foldl Conn.cancelResponse s) := by
    intro l
    induction l with
    | nil => exact fun s wf start => ⟨wf, start⟩
    | cons i is ih => exact fun s wf start => ih _ (wf.cancelResponse i) (cancel s i wf start)
  exact fold _ s wf start

/-- Induction rule for `shutdown`: what each turn of its loops keeps, it keeps. -/
lemma shutdown_rule (wf : s.Wf) (start : P { s with closed := true })
    (fail : ∀ s id i, s.Wf → s.pending.find id = some i → P s → P (s.fail i closedException))
    (drop : ∀ s, P s → P { s with pending := ∅ })
    (clear : ∀ s, P s → P { s with sendQueue := [], queuedBytes := 0 })
    (room : ∀ s k ks, s.Wf → s.roomWaiters = k :: ks → P s →
      P ({ s with roomWaiters := ks }.resume k (.throw closedException)))
    (slot : ∀ s i is, s.Wf → s.inFlightWaiters = i :: is → P s →
      P ({ s.fail i closedException with inFlightWaiters := is }.resumeSlot i))
    (cancel : ∀ s i, s.Wf → P s → P (s.cancelResponse i))
    (opened : s.closed = false) : s.shutdown.Wf ∧ P s.shutdown := by
  rw [Conn.shutdown, if_neg (by simp [opened])]
  obtain ⟨wf₁, held₁⟩ := failPending_rule (s := { s with closed := true }) { wf with } start fail drop
  have wf₂ : Wf { { s with closed := true }.failPending with sendQueue := [], queuedBytes := 0 } :=
    { wf₁ with }
  obtain ⟨wf₃, held₃⟩ := failRoomWaiters_rule wf₂ (clear _ held₁) room
  obtain ⟨wf₄, held₄⟩ := failSlotWaiters_rule wf₃ held₃ slot
  exact cancelHandler_rule wf₄ held₄ cancel

end

/-- `shutdown` keeps the invariant. -/
lemma shutdown (wf : s.Wf) : s.shutdown.Wf := by
  cases opened : s.closed with
  | true => rwa [Conn.shutdown, if_pos opened]
  | false =>
    exact (shutdown_rule (P := fun _ => True) wf trivial (fun _ _ _ _ _ _ => trivial)
      (fun _ _ => trivial) (fun _ _ => trivial) (fun _ _ _ _ _ _ => trivial)
      (fun _ _ _ _ _ _ => trivial) (fun _ _ _ _ => trivial) opened).1

/-! ### Effects -/

/-- A cancelled call is not parked. -/
lemma not_parked_of_cancelled {c : Call} (cancelled : c.Cancelled) : c.wake ≠ .parked := by
  rcases cancelled with wake | ⟨r, wake⟩ <;> simp [wake]

/-- A call goes on once its packet is on the outbound path. -/
lemma afterPut (wf : s.Wf) (pc : (s.calls i).pc.waits = false)
    (holds : (s.calls i).pc.holds = false) : (s.setPc i (s.calls i).afterPut).Wf := by
  unfold Call.afterPut
  split
  case isTrue request => exact wf.setPc pc holds rfl request
  case isFalse => exact wf.setPc pc holds rfl trivial

/-- Every effect keeps a connection well formed. -/
theorem effect {env : Env} {A : Trigger} (wf : s.Wf) (h : Effect env A s t) : t.Wf := by
  cases h with
  | loc h => exact wf.localStep h
  | @reject c e id pc _ req =>
    refine addCall { wf with } (.running ?_ (by simp [pc]) (by simp [pc]) fun _ => req) ?_
    · simp [Call.Clear, req]
    · exact Call.not_queued_of_waits (by simp [pc])
  | @startRequest c timeoutMillis _ _ _ kind pc _ _ req _ =>
    refine addCall { wf with } (.running ?_ (by simp [pc]) (by simp [pc, kind]) ?_) ?_
    · simp [Call.Clear, req]
    · exact fun other => absurd kind other
    · exact Call.not_queued_of_waits (by simp [pc])
  | @startPut c p id _ pc _ _ req _ _ =>
    refine addCall { wf with } (.running ?_ (by simp [pc]) (by simp [pc]) fun _ => req) ?_
    · simp [Call.Clear, req]
    · exact Call.not_queued_of_waits (by simp [pc])
  | slotPark pc _ _ live => exact wf.slotPark pc live
  | @register i p pc _ _ _ _ =>
    have kind := (wf.call i).kind
    rw [pc] at kind
    exact (wf.registered kind _).setPc (by simp [pc]) (by simp [pc]) rfl trivial
  | slotRefused pc _ _ _ _ _ => exact (wf.refused pc).finish (setPc_pc _ _ _)
  | slotCancelled pc cancelled => exact wf.slotCancelled pc (not_parked_of_cancelled cancelled)
  | roomPark pc _ _ _ => exact wf.roomPark pc
  | roomCancelled pc cancelled => exact wf.roomCancelled pc (not_parked_of_cancelled cancelled)
  | @putQueue i p pc _ _ _ _ _ =>
    have queued : Wf { s with
        queuedBytes := s.queuedBytes + packetBytes p, sendQueue := s.sendQueue ++ [p]
        enqueued := s.enqueued ++ [p] } := { wf with }
    exact queued.afterPut (by simp [pc]) (by simp [pc])
  | @putDrain i p pc _ _ _ _ _ =>
    refine setPc { wf with } (by simp [pc]) (by simp [pc]) ?_ ?_ <;> split <;> trivial
  | @putBuffer i p buffer pc _ _ _ _ _ _ =>
    have queued : Wf { s with
        queuedBytes := s.queuedBytes + packetBytes p
        outbound := { s.outbound with buffer } } := { wf with }
    exact queued.afterPut (by simp [pc]) (by simp [pc])
  | @putHandoff i p pc _ _ _ _ _ =>
    have handed : Wf ({ s with queuedBytes := s.queuedBytes + packetBytes p }.loopSend env p) :=
      { wf with }
    exact handed.afterPut (by simp [loopSend, encode, pc]) (by simp [loopSend, encode, pc])
  | @sendPark i p pc _ _ other _ _ =>
    exact wf.sendPark pc ((wf.call i).parkSend other) rfl rfl (.inl rfl) rfl rfl rfl rfl rfl rfl rfl
  | @selectPark i p pc _ _ request live _ _ =>
    exact wf.sendPark pc ((wf.call i).parkSelect pc request live) rfl rfl (.inr rfl) rfl
      rfl rfl rfl rfl rfl rfl
  | @drainTake i p rest pc _ _ =>
    have queue : Wf { s with sendQueue := rest } := { wf with }
    have released : Wf (({ s with sendQueue := rest }.releaseOutboundBytes (packetBytes p)).encode env
        p) := { queue.releaseOutboundBytes with }
    have frame := (releaseOutboundBytes_waking (packetBytes p) { s with sendQueue := rest }).calls i
    have still : ((({ s with sendQueue := rest }.releaseOutboundBytes (packetBytes p)).encode env
        p).calls i).pc = .draining := frame.pc.trans pc
    exact released.setPc (by simp [still]) (by simp [still]) rfl trivial
  | @drainEnd i pc _ =>
    have idle : Wf { s with writerActive := false } := { wf with }
    exact idle.afterPut (by simp [pc]) (by simp [pc])
  | @successorStart i pc =>
    refine setPc { wf with } (by simp [pc]) (by simp [pc]) ?_ ?_ <;> split <;> trivial
  | @handOff i pc _ _ =>
    have running : ∀ o, (s.calls i).pc ≠ .ended o := by rcases pc with pc | pc <;> simp [pc]
    refine wf.launched.setPc ?_ ?_ rfl trivial <;> rw [wf.addCall_older running]
    · rcases pc with pc | pc <;> simp [pc]
    · rcases pc with pc | pc <;> simp [pc]
  | @writerStop i e pc _ _ =>
    refine setPc { wf with } ?_ ?_ rfl trivial <;> rcases pc with pc | pc <;> simp [pc]
  | transmit n _ _ => exact { wf with }
  | @selectGate i p r pc wake _ =>
    have request := (wf.call i).kind
    rw [pc] at request
    exact wf.abortSelect_setPc pc (by simp [wake]) rfl request
  | @selectCancelled i p pc cancelled _ =>
    exact wf.abortSelect_setPc pc (not_parked_of_cancelled cancelled) rfl trivial
  | loopFlushing _ _ => exact { wf with }
  | loopNext _ => exact wf.releaseOutboundBytes.loopNext
  | loopRun _ _ => exact wf.loopNext
  | loopEnd _ _ => exact { wf with }
  | cancelSlot pc _ => exact wf.cancelSlot pc
  | cancelRoom pc _ => exact wf.cancelRoom pc
  | cancelSend pc wake _ => exact wf.cancelSend ⟨.inl pc, wake⟩
  | cancelSelect pc wake => exact wf.cancelSend ⟨.inr pc, wake⟩
  | finish pc _ => exact wf.finish pc
  | deadline _ armed _ _ _ _ => exact wf.run armed
  | response _ _ _ _ _ _ _ => exact wf.onResponse
  | shutdown _ _ => exact wf.shutdown

/-- Every reachable state is well formed. -/
theorem reach {env : Env} {ok : Conn → Event → Prop}
    (run : Runs.Reach (Conn.step env) ok Conn.init s) : s.Wf := by
  refine run.invariant init fun s e s' wf _ st => ?_
  exact Runs.star_preserves (fun _ _ eff wf => wf.effect eff) (step_effects st) wf

end Wf

/-- No coroutine can run: no call, and not the write loop. -/
structure Quiescent (env : Env) (s : Conn) : Prop where
  calls : ∀ i, (s.calls i).runnable = false
  loop : s.loopRun env = none

/-- The calls that have been made decide whether any can run. -/
lemma Quiescent.of_made {env : Env} {s : Conn} (wf : s.Wf)
    (made : (List.range s.next).all (fun i => !(s.calls i).runnable) = true)
    (loop : (s.loopRun env).isNone = true) : s.Quiescent env := by
  refine ⟨fun i => ?_, Option.isNone_iff_eq_none.mp loop⟩
  by_cases lt : i < s.next
  · simpa using List.all_eq_true.mp made i (List.mem_range.mpr lt)
  · rw [wf.fresh i (by omega)]
    rfl

/-- The step takes none of the flawed branches `F`. -/
def Avoids (F : Flaw → Prop) (env : Env) (s : Conn) (e : Event) : Prop :=
  ∀ f, F f → ¬ Flaw.Occurs env s e f

/-- A run is asked to avoid nothing when no flaw is named. -/
lemma reach_unguarded {env : Env} {s : Conn}
    (run : Runs.Reach (Conn.step env) Runs.always Conn.init s) :
    Runs.Reach (Conn.step env) (Avoids (fun _ => False) env) Conn.init s :=
  run.mono fun _ _ _ _ none => none.elim

/-- Invariant rule: true at the start and kept by every effect that avoids the flaws `F`. -/
lemma invariant_of_effects {env : Env} {F : Flaw → Prop} {P : Conn → Prop} {s : Conn}
    (run : Runs.Reach (Conn.step env) (Avoids F env) Conn.init s) (start : P Conn.init)
    (keep : ∀ (A : Trigger) (s t : Conn), (∀ f, F f → ¬ A f) → s.Wf → P s →
      Effect env A s t → P t) : P s := by
  have both : s.Wf ∧ P s := by
    refine run.invariant (P := fun s => s.Wf ∧ P s) ⟨Wf.init, start⟩ fun s₀ e s' held avoids st => ?_
    refine Runs.star_preserves (P := fun s => s.Wf ∧ P s) (fun s t eff held => ?_)
      (step_effects st) held
    exact ⟨held.1.effect eff, keep (e.trigger env s₀) s t avoids held.1 held.2 eff⟩
  exact both.2

end Conn

end MsgTrans
