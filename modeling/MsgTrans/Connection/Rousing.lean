import MsgTrans.Connection.WellFormed

/-!
# Waking a call and letting its packet in

A well-formed call is resumed by what its wait is for: a slot waiter by a slot, a room waiter by room
or by the close, the caller in `await` by its result, a `select` by its gate. Whether the outbound
channel has taken a sender's packet is decided by the channel alone. `Roused` says so of whole states:
nothing of the outbound path changes, and every call is at most resumed in its own way.
-/

namespace MsgTrans

/-- What the suspension at a place can be resumed with by anybody but the outbound channel. -/
@[simp] def Pc.RousedBy : Pc → Resumption → Prop
  | .slotWait, r => r = .unit
  | .roomWait _, r => r = .unit ∨ ∃ e, r = .throw e
  | .channelSelect _, r => r = .gate
  | .await, r => (∃ p, r = .packet p) ∨ ∃ e, r = .throw e
  | _, _ => False

/-- The call stays where it is and is at most resumed, not by the outbound channel. -/
structure Call.Roused (c c' : Call) : Prop where
  kind : c'.kind = c.kind
  pc : c'.pc = c.pc
  wake : c'.wake = c.wake ∨ c.wake = .parked ∧ ∃ r, c'.wake = .resumed r ∧ c.pc.RousedBy r

namespace Call.Roused

variable {c c' c'' : Call}

/-- A call that has not been woken. -/
lemma refl (c : Call) : Call.Roused c c :=
  ⟨rfl, rfl, .inl rfl⟩

/-- Wake-ups compose. -/
lemma trans (h : Call.Roused c c') (h' : Call.Roused c' c'') : Call.Roused c c'' := by
  refine ⟨h'.kind.trans h.kind, h'.pc.trans h.pc, ?_⟩
  rcases h.wake with same | ⟨parked, r, woken, by_⟩
  · rw [← same, ← h.pc]
    exact h'.wake
  · -- a resumed call is not resumed again
    rcases h'.wake with same | ⟨parked', _⟩
    · exact .inr ⟨parked, r, same.trans woken, by_⟩
    · rw [woken] at parked'
      cases parked'

end Call.Roused

namespace Conn

/-- The outbound path and the budget stay, and calls are at most resumed. -/
structure Roused (s t : Conn) : Prop extends Still s t where
  queuedBytes : t.queuedBytes = s.queuedBytes
  calls : ∀ i, Call.Roused (s.calls i) (t.calls i)

namespace Roused

variable {s t u : Conn} {i : Nat}

/-- Nobody has been woken. -/
lemma refl (s : Conn) : Roused s s :=
  ⟨.refl s, rfl, fun _ => .refl _⟩

/-- Wake-ups compose. -/
lemma trans (h : Roused s t) (h' : Roused t u) : Roused s u where
  toStill := h.toStill.trans h'.toStill
  queuedBytes := h'.queuedBytes.trans h.queuedBytes
  calls i := (h.calls i).trans (h'.calls i)

/-- One call is woken. -/
lemma modCall {f : Call → Call} (h : Call.Roused (s.calls i) (f (s.calls i))) :
    Roused s (s.modCall i f) := by
  refine { refl s with calls := fun j => ?_ }
  rw [modCall_calls]
  split
  case isTrue eq =>
    subst eq
    exact h
  case isFalse => exact .refl _

/-- A change of the `Pending` alone. -/
lemma modReq {f : Pending → Pending} : Roused s (s.modReq i f) :=
  modCall ⟨rfl, rfl, .inl rfl⟩

/-- Removing an entry wakes nobody. -/
lemma unregister {id : UInt32} : Roused s (s.unregister id) :=
  { refl s with }

/-- A room waiter is resumed. -/
lemma resumeRoom {k : Cont} {l : List Cont} {r : Resumption} (entry : RoomEntry s.calls k)
    (wakes : r = .unit ∨ ∃ e, r = .throw e) : Roused s ({ s with roomWaiters := l }.resume k r) := by
  obtain ⟨⟨⟨p, pc⟩, wake⟩, seq⟩ := entry
  rw [resume_room (s := { s with roomWaiters := l }) ⟨⟨⟨p, pc⟩, wake⟩, seq⟩]
  have woken : Roused s (s.modCall k.call fun c => { c with wake := .resumed r }) :=
    modCall ⟨rfl, rfl, .inr ⟨wake, r, rfl, by simpa [pc] using wakes⟩⟩
  exact { woken with }

/-- `wakeOneRoomWaiter` wakes. -/
lemma wakeOneRoomWaiter (wf : s.Wf) : Roused s s.wakeOneRoomWaiter := by
  unfold Conn.wakeOneRoomWaiter
  split
  case h_1 => exact refl s
  case h_2 k ks queue =>
    exact resumeRoom ((wf.room.mem k).mp (by simp [queue])) (.inl rfl)

/-- A slot wake-up wakes. -/
lemma resumeSlot (wf : (s.calls i).Wf i) : Roused s (s.resumeSlot i) := by
  by_cases parked : (s.calls i).SlotParked
  · rw [resumeSlot_parked wf parked]
    have woken : Roused s (s.modCall i fun c => { c with
        wake := .resumed .unit, req := { c.req with slotCont := none } }) :=
      modCall ⟨rfl, rfl, .inr ⟨parked.2, .unit, rfl, by simp [parked.1]⟩⟩
    exact { woken with }
  · rw [resumeSlot_idle wf parked]
    exact refl s

/-- `wakeOneInFlightWaiter` wakes. -/
lemma wakeOneInFlightWaiter (wf : s.Wf) : Roused s s.wakeOneInFlightWaiter := by
  unfold Conn.wakeOneInFlightWaiter
  split
  case h_1 => exact refl s
  case h_2 i is _ => exact { resumeSlot (s := { s with inFlightWaiters := is }) (wf.call i) with }

/-- Settling a request wakes its waiter at most. -/
lemma settle {store : Pending → Pending} {r : Resumption} (wf : (s.calls i).Wf i)
    (st : Call.Settles store) (wakes : Pc.await.Wakes r) : Roused s (s.settle i store r) := by
  by_cases live : (s.calls i).req.isCompleted
  · rw [Conn.settle, if_pos live]
    exact refl s
  have form := settle_form (r := r) wf st (by simpa using live)
  generalize s.settle i store r = t at form
  cases form with
  | select pc wake =>
    have woken : Roused s (s.modCall i fun c => { c with wake := .resumed .gate, req := store c.req }) :=
      modCall ⟨rfl, rfl, .inr ⟨wake, .gate, rfl, by simp [pc]⟩⟩
    exact { woken with }
  | @waiter k stored =>
    obtain ⟨rfl, place⟩ := wf.waiter k stored
    have woken : Roused s (s.modCall i fun c => { (c.resumed (s.calls i).seq r) with
        req := { store c.req with waiter := none } }) := by
      refine modCall ?_
      unfold Call.resumed
      split
      case isTrue parked =>
        -- a stored waiter that is still parked is in `await`
        obtain ⟨pc, _⟩ | ⟨_, wake⟩ := place
        · exact ⟨rfl, rfl, .inr ⟨parked.2, r, rfl, by simpa [pc] using wakes⟩⟩
        · rw [parked.2] at wake
          cases wake
      case isFalse => exact ⟨rfl, rfl, .inl rfl⟩
    exact { woken with }
  | plain _ _ => exact modReq

/-- `Pending.fail` wakes at most. -/
lemma fail {e : Throwable} (wf : (s.calls i).Wf i) : Roused s (s.fail i e) :=
  settle wf (settles_error e) (.inr ⟨e, rfl⟩)

/-- `Pending.complete` wakes at most. -/
lemma complete {packet : Packet} (wf : (s.calls i).Wf i) : Roused s (s.complete i packet) :=
  settle wf (settles_response packet) (.inl ⟨packet, rfl⟩)

/-- The room waiter a deadline resumes, if it is still parked. -/
lemma resumeOwnRoom {k : Cont} (wf : s.Wf) (stored : (s.calls i).req.roomCont = some k) :
    Roused s ({ s with roomWaiters := s.roomWaiters.erase k }.resume k .unit) := by
  obtain ⟨rfl, place⟩ := (wf.call i).roomCont k stored
  by_cases parked : (s.calls i).RoomParked
  · exact resumeRoom ⟨parked, rfl⟩ (.inl rfl)
  · rw [resume_stale (s := { s with roomWaiters := s.roomWaiters.erase _ })]
    · exact { refl s with }
    · intro _ wake
      rcases place with waits | ⟨_, woken⟩
      · exact parked ⟨waits, wake⟩
      · exact woken wake

/-- The room part of the deadline wakes at most. -/
lemma runRoom (wf : s.Wf) : Roused s (s.runRoom i) := by
  unfold Conn.runRoom
  split
  case h_1 => exact wakeOneInFlightWaiter wf
  case h_2 k stored =>
    obtain ⟨resumed, woken⟩ := wf.resumeOwnRoom stored
    have lt : i < s.next := by
      apply wf.lt_of_request
      by_contra other
      simp [(wf.call i).fresh other] at stored
    dsimp only
    split
    case isTrue => exact resumeOwnRoom wf stored
    case isFalse =>
      refine (resumeOwnRoom wf stored).trans (modReq.trans (wakeOneInFlightWaiter ?_))
      exact resumed.modReq lt ((resumed.call i).dropRoom woken) id

/-- The deadline wakes at most. -/
lemma expire (wf : s.Wf) (request : (s.calls i).kind = .request) : Roused s (s.expire i) := by
  have failed := wf.fail (i := i)
    (e := .requestTimeout (s.calls i).req.id (s.calls i).req.timeoutMillis) fun _ => request
  have slot : Wf (Conn.unregister (s.calls i).req.id (s.fail i _)) := failed.unregister
  unfold Conn.expire
  refine (fail (wf.call i)).trans (unregister.trans ((resumeSlot (slot.call i)).trans (runRoom ?_)))
  exact slot.resumeSlot (fail_completed (wf.call i))

/-- The deadline's callback wakes at most. -/
lemma run (wf : s.Wf) (armed : (s.calls i).req.armed) : Roused s (s.run i) := by
  have request := wf.request_of_armed armed
  unfold Conn.run
  split
  case isTrue => exact modReq
  case isFalse =>
    exact modReq.trans (expire (wf.fire request) (by simpa [Conn.fire, Conn.modReq] using request))

/-- A response wakes at most. -/
lemma onResponse {packet : Packet} (wf : s.Wf) : Roused s (s.onResponse packet) := by
  unfold Conn.onResponse
  split
  case h_1 => exact refl s
  case h_2 i found =>
    have gone : (s.unregister packet.messageId).Wf := wf.unregister
    refine unregister.trans ((complete (gone.call i)).trans (wakeOneInFlightWaiter ?_))
    exact gone.complete (wf.registry _ _ found)

end Roused

end Conn

end MsgTrans
