import MsgTrans.Connection.Budget
import MsgTrans.Connection.Progress
import MsgTrans.Connection.Rested

/-!
# Outbound room

Nobody waits for outbound room while the outbound path is idle. A room waiter is woken by a release,
and a release follows every packet on the path; so it is enough that, while anybody is parked for room,
there is a packet on the path or a call that has been woken for room and will use it. A woken call uses
its room by putting its packet on the path, or finds none, and then there is a packet on the path too.
What breaks the chain is a woken call that does not run on (`roomFlaw`).
-/

namespace MsgTrans

/-- The call waits for room or looks for it. -/
@[simp] def Pc.rooms : Pc → Bool
  | .roomWait _ | .roomLoop _ => true
  | _ => false

namespace Call

/-- The call has been woken for room, or is looking for it now, and will put its packet on the path if
it finds room. -/
def RoomBound (i : Nat) (c : Call) : Prop :=
  (∃ p, c.pc = .roomWait p) ∧ c.wake = .resumed .unit ∧
      (c.kind = .request → c.req.isCompleted = false ∧ c.req.roomCont = some ⟨i, c.seq⟩) ∨
    (∃ p, c.pc = .roomLoop p) ∧ (c.kind = .request → c.req.isCompleted = false)

variable {c : Call} {i : Nat}

/-- Who is parked for room is at a place where one waits for it. -/
lemma RoomParked.rooms (h : c.RoomParked) : c.pc.rooms := by
  obtain ⟨⟨p, pc⟩, _⟩ := h
  simp [pc]

/-- Elsewhere nobody is parked for room. -/
lemma not_parked_of_rooms (h : c.pc.rooms = false) : ¬ c.RoomParked := by
  intro parked
  exact Bool.false_ne_true (h.symm.trans parked.rooms)

/-- A call whose packet is queued looks for no room. -/
lemma afterPut_rooms (c : Call) : c.afterPut.rooms = false := by
  unfold afterPut
  split <;> rfl

/-- Who is bound for room is at a place where one waits or looks for it. -/
lemma RoomBound.rooms (h : c.RoomBound i) : c.pc.rooms := by
  obtain ⟨⟨p, pc⟩, _⟩ | ⟨⟨p, pc⟩, _⟩ := h <;> simp [pc]

end Call

/-- A mailbox with room for a packet is not conflated. -/
lemma Config.bounded (config : Config) (capacity : 1 ≤ config.mailboxCapacity) :
    config.outboundKind ≠ .conflated := by
  intro conflated
  have kind := config.outboundKind_eq
  rw [conflated, ChannelKind.ofCapacity, if_neg (by omega), if_neg (by omega), if_neg (by omega)] at kind
  cases kind

namespace Conn

/-- There is a packet on the outbound path whose release is still to come, or nobody takes packets. -/
def Loaded (s : Conn) : Prop :=
  s.sendQueue ≠ [] ∨ s.outbound.buffer ≠ [] ∨ s.writeLoop.packets ≠ [] ∨ s.writeLoop = .ended ∨
    ∃ i, (s.calls i).offered ≠ []

/-- The record of call `j` is the same, if it has to do with room. -/
def RoomsAt (j : Nat) (s t : Conn) : Prop :=
  (s.calls j).pc.rooms ∨ (t.calls j).pc.rooms → t.calls j = s.calls j

section
variable {env : Env} {A : Trigger} {s t u : Conn} {i j : Nat} {c : Call}

/-! ## Calls that have nothing to do with room -/

namespace RoomsAt

/-- A call that has not moved. -/
lemma same (h : t.calls j = s.calls j) : RoomsAt j s t := fun _ => h

/-- The record stays the same over two steps. -/
lemma trans (h : RoomsAt j s t) (h' : RoomsAt j t u) : RoomsAt j s u := by
  rintro (before | after)
  · have eq := h (.inl before)
    rw [← eq] at before
    exact (h' (.inl before)).trans eq
  · have eq := h' (.inr after)
    rw [eq] at after
    exact eq.trans (h (.inr after))

/-- The call had nothing to do with room and has nothing to do with it now. -/
lemma away (before : (s.calls j).pc.rooms = false) (after : (t.calls j).pc.rooms = false) :
    RoomsAt j s t := by
  rintro (rooms | rooms)
  · exact absurd (before.symm.trans rooms) Bool.false_ne_true
  · exact absurd (after.symm.trans rooms) Bool.false_ne_true

/-- A call goes from one place to another that have nothing to do with room. -/
lemma update (calls : t.calls = Function.update s.calls i c) (before : (s.calls i).pc.rooms = false)
    (after : c.pc.rooms = false) : RoomsAt j s t := by
  by_cases eq : j = i
  · subst eq
    exact away before (by rwa [calls, Function.update_self])
  · exact same (by rw [calls, Function.update_of_ne eq])

/-- The change of another call. -/
lemma update_of_ne (calls : t.calls = Function.update s.calls i c) (ne : j ≠ i) : RoomsAt j s t :=
  same (by rw [calls, Function.update_of_ne ne])

/-- Removing an entry concerns no room. -/
lemma unregister {id : UInt32} : RoomsAt j s (s.unregister id) := same rfl

/-- A slot wake-up concerns no room. -/
lemma resumeSlot (wf : (s.calls i).Wf i) : RoomsAt j s (s.resumeSlot i) := by
  by_cases parked : (s.calls i).SlotParked
  · rw [resumeSlot_parked wf parked]
    exact update rfl (by simp [parked.1]) (by simp [parked.1])
  · rw [resumeSlot_idle wf parked]
    exact same rfl

/-- `wakeOneInFlightWaiter` concerns no room. -/
lemma wakeOneInFlightWaiter (wf : s.Wf) : RoomsAt j s s.wakeOneInFlightWaiter := by
  unfold Conn.wakeOneInFlightWaiter
  split
  case h_1 => exact same rfl
  case h_2 i is _ => exact resumeSlot (s := { s with inFlightWaiters := is }) (wf.call i)

/-- The deadline of another request. -/
lemma runRoom (wf : s.Wf) (ne : j ≠ i) : RoomsAt j s (s.runRoom i) := by
  unfold Conn.runRoom
  split
  case h_1 => exact wakeOneInFlightWaiter wf
  case h_2 k stored =>
    obtain ⟨resumed, woken⟩ := wf.resumeOwnRoom stored
    obtain ⟨rfl, _⟩ := (wf.call i).roomCont k stored
    have lt : i < s.next := by
      apply wf.lt_of_request
      by_contra other
      simp [(wf.call i).fresh other] at stored
    have first : RoomsAt j s ({ s with
        roomWaiters := s.roomWaiters.erase ⟨i, (s.calls i).seq⟩ }.resume ⟨i, (s.calls i).seq⟩ .unit) :=
      update_of_ne rfl ne
    dsimp only
    split
    case isTrue => exact first
    case isFalse =>
      refine first.trans (.trans (update_of_ne rfl ne) (wakeOneInFlightWaiter ?_))
      exact resumed.modReq lt ((resumed.call i).dropRoom woken) id

/-- The deadline of one request concerns no other's room. -/
lemma expire (wf : s.Wf) (request : (s.calls i).kind = .request) (ne : j ≠ i) :
    RoomsAt j s (s.expire i) := by
  have failed := wf.fail (i := i)
    (e := .requestTimeout (s.calls i).req.id (s.calls i).req.timeoutMillis) fun _ => request
  have slot : Wf (Conn.unregister (s.calls i).req.id (s.fail i _)) := failed.unregister
  have rest := runRoom (slot.resumeSlot (fail_completed (wf.call i))) ne
  exact (same (fail_calls_of_ne (wf.call i) ne)).trans
    (unregister.trans ((resumeSlot (slot.call i)).trans rest))

/-- The deadline's callback concerns no other's room. -/
lemma run (wf : s.Wf) (armed : (s.calls i).req.armed) (ne : j ≠ i) : RoomsAt j s (s.run i) := by
  have request := wf.request_of_armed armed
  have fired : RoomsAt j s (s.fire i) := update_of_ne rfl ne
  unfold Conn.run
  split
  case isTrue => exact fired
  case isFalse =>
    exact fired.trans (expire (wf.fire request) (by simpa [Conn.fire, Conn.modReq] using request) ne)

/-- A response concerns no other's room. -/
lemma onResponse {packet : Packet} (wf : s.Wf) (found : s.pending.find packet.messageId = some i)
    (ne : j ≠ i) : RoomsAt j s (s.onResponse packet) := by
  have gone : (s.unregister packet.messageId).Wf := wf.unregister
  have completed : ((s.unregister packet.messageId).complete i packet).Wf :=
    gone.complete (wf.registry _ _ found)
  have woken := wakeOneInFlightWaiter (j := j) completed
  rw [Conn.onResponse, found]
  exact unregister.trans ((same (complete_calls_of_ne (gone.call i) ne)).trans woken)

/-- The end of a call concerns no room. -/
lemma finish {o o' : Outcome} (wf : s.Wf) (pc : (s.calls i).pc = .unwinding o') :
    RoomsAt j s (s.finish i o) := by
  have place : (s.calls i).pc.rooms = false := by simp [pc]
  unfold Conn.finish
  split
  case isTrue request =>
    have disposed : RoomsAt j s (s.dispose i o) := update rfl place rfl
    dsimp only
    split
    case isTrue =>
      refine disposed.trans (unregister.trans (wakeOneInFlightWaiter ?_))
      exact (wf.dispose pc request).unregister
    case isFalse => exact disposed
  case isFalse => exact update rfl place rfl

/-- The write loop concerns no room. -/
lemma loopNext (wf : s.Wf) : RoomsAt j s (s.loopNext env) := by
  have accepted : ∀ {i : Nat} {q : Packet} {l : List (Nat × Packet)} {v : Conn},
      s.outbound.senders = (i, q) :: l →
      v.calls = Function.update s.calls i { s.calls i with wake := .resumed .unit } →
      RoomsAt j s v := by
    intro i q l v queue calls
    obtain ⟨place, _⟩ := (wf.send.mem (i, q)).mp (by simp [queue])
    refine update calls ?_ ?_ <;> rcases place with pc | pc <;> simp [pc]
  unfold Conn.loopNext
  split
  case h_1 => exact same rfl
  case h_2 queue => exact accepted queue rfl
  case h_3 queue => exact accepted queue rfl
  case h_4 => exact same rfl

end RoomsAt

/-! ## The load of the outbound path -/

namespace Loaded

/-- One call changes and offers a packet if it did before. -/
lemma update (loaded : s.Loaded) (calls : t.calls = Function.update s.calls i c)
    (queue : t.sendQueue = s.sendQueue) (buffer : t.outbound.buffer = s.outbound.buffer)
    (loop : t.writeLoop = s.writeLoop) (offered : c.offered = (s.calls i).offered) : t.Loaded := by
  unfold Loaded
  rw [queue, buffer, loop, calls]
  refine loaded.imp_right (.imp_right (.imp_right (.imp_right fun ⟨j, offers⟩ => ⟨j, ?_⟩)))
  by_cases eq : j = i
  · subst eq
    rwa [Function.update_self, offered]
  · rwa [Function.update_of_ne eq]

/-- A call away from the channel goes to another place away from it. -/
lemma pass (loaded : s.Loaded) (before : (s.calls i).pc.sends = false) (after : c.pc.sends = false)
    (calls : t.calls = Function.update s.calls i c) (queue : t.sendQueue = s.sendQueue)
    (buffer : t.outbound.buffer = s.outbound.buffer) (loop : t.writeLoop = s.writeLoop) : t.Loaded := by
  refine loaded.update calls queue buffer loop ?_
  rw [Call.offered_of_pc before, Call.offered_of_pc after]

/-- A path that is loaded stays so over wake-ups. -/
lemma roused (loaded : s.Loaded) (h : Roused s t) : t.Loaded := by
  unfold Loaded
  rw [h.sendQueue, h.buffer, h.writeLoop]
  refine loaded.imp_right (.imp_right (.imp_right (.imp_right fun ⟨j, offers⟩ => ⟨j, ?_⟩)))
  rwa [(h.calls j).offered]

/-- The end of a call. -/
lemma finish {o o' : Outcome} (loaded : s.Loaded) (wf : s.Wf) (pc : (s.calls i).pc = .unwinding o') :
    (s.finish i o).Loaded := by
  unfold Conn.finish
  split
  case isTrue request =>
    have disposed : (s.dispose i o).Loaded := loaded.pass (by simp [pc]) rfl rfl rfl rfl rfl
    dsimp only
    split
    case isTrue =>
      refine disposed.roused (Roused.unregister.trans (.wakeOneInFlightWaiter ?_))
      exact (wf.dispose pc request).unregister
    case isFalse => exact disposed
  case isFalse => exact loaded.pass (by simp [pc]) rfl rfl rfl rfl rfl

/-- The write loop starts. -/
lemma loopNext (loaded : s.Loaded) (loop : s.writeLoop = .launched) : (s.loopNext env).Loaded := by
  have writes : ∀ {v : Conn} {p : Packet}, v.writeLoop = .writing p → v.Loaded :=
    fun writing => .inr (.inr (.inl (by simp [writing, WriteLoop.packets])))
  unfold Conn.loopNext
  split
  case h_4 buffer _ =>
    rcases loaded with queue | buffered | writing | ended | offered
    · exact .inl queue
    · exact absurd buffer buffered
    · simp [loop, WriteLoop.packets] at writing
    · simp [loop] at ended
    · exact .inr (.inr (.inr (.inr offered)))
  all_goals exact writes rfl

/-- Bytes are charged for packets. -/
lemma of_charged (charged : 0 < s.charged) : s.Loaded := by
  by_contra idle
  simp only [Loaded, not_or, not_exists, ne_eq, not_not] at idle
  obtain ⟨queue, buffer, loop, _, offered⟩ := idle
  have none : s.offeredBytes = 0 := tally_eq_zero fun i _ => by rw [offered i, totalBytes_nil]
  simp [Conn.charged, pathBytes, queue, buffer, loop, none] at charged

end Loaded

/-- The budget of an open connection counts packets that are on the path, maybe not all of them. -/
def Covered (s : Conn) : Prop :=
  s.closed = false → s.writeLoop ≠ .ended → 0 ≤ s.queuedBytes ∧ s.queuedBytes ≤ s.charged

/-- A booking counts no packet that is not on the path. -/
lemma Covered.effect (h : s.Covered) (wf : s.Wf) (kind : env.config.outboundKind ≠ .conflated)
    (avoid : ¬ A .senderCancelled) (eff : Effect env A s t) : t.Covered := by
  intro opened going
  have opened' := effect_opened eff opened
  obtain ⟨nonneg, le⟩ := h opened' fun ended => going ((LoopStep.effect eff).ended ended)
  cases Booked.effect wf eff with
  | charge bytes charged _ => omega
  | release bytes charged => omega
  | releaseTwice _ bytes charged => omega
  | overwrite conflated => exact absurd conflated kind
  | abandon abandoned => exact absurd abandoned avoid
  | fault _ ended => exact absurd ended going
  | shut closed => simp [opened] at closed

/-- Without room for a packet there is a packet on the path. -/
lemma Covered.loaded {bytes : Int} (h : s.Covered) (opened : s.closed = false)
    (capacity : 1 ≤ env.config.mailboxCapacity) (full : s.roomFor env bytes = false) : s.Loaded := by
  by_cases ended : s.writeLoop = .ended
  · exact .inr (.inr (.inr (.inl ended)))
  obtain ⟨nonneg, le⟩ := h opened ended
  simp only [roomFor, Bool.and_eq_false_iff, Bool.or_eq_false_iff, decide_eq_false_iff_not,
    beq_eq_false_iff_ne] at full
  rcases full with ⟨_, long⟩ | ⟨charged, _⟩
  · left
    intro empty
    rw [empty, List.length_nil] at long
    omega
  · apply Loaded.of_charged
    omega

/-! ## What an effect does to the waits for room -/

/-- Who is parked for room after an effect was before, or parks now with a packet on the path; and the
path is loaded, or a call is bound for room, or nobody waits, or the promises made before stand. -/
structure RoomStep (s t : Conn) : Prop where
  parked : ∀ j, (t.calls j).RoomParked →
    (s.calls j).RoomParked ∧ (t.calls j).kind = (s.calls j).kind ∧
        (t.calls j).req.isCompleted = (s.calls j).req.isCompleted ∨
      t.Loaded ∧ ((t.calls j).kind = .request → (t.calls j).req.isCompleted = false)
  promise : t.Loaded ∨ (∃ j, (t.calls j).RoomBound j) ∨ (∀ j, ¬ (t.calls j).RoomParked) ∨
    (s.Loaded → t.Loaded) ∧ ∀ j, (s.calls j).RoomBound j → (t.calls j).RoomBound j

namespace RoomStep

/-- Nothing happens to the calls that have to do with room, and the load stays. -/
lemma same (rooms : ∀ j, RoomsAt j s t) (load : s.Loaded → t.Loaded) : RoomStep s t where
  parked j parked := by
    have eq := rooms j (.inr parked.rooms)
    rw [← eq]
    exact .inl ⟨parked, rfl, rfl⟩
  promise := by
    refine .inr (.inr (.inr ⟨load, fun j bound => ?_⟩))
    rwa [rooms j (.inl bound.rooms)]

/-- One call goes on and is not parked for room then. -/
lemma parked_update (calls : t.calls = Function.update s.calls i c) (out : ¬ c.RoomParked)
    (parked : (t.calls j).RoomParked) : (s.calls j).RoomParked ∧
      (t.calls j).kind = (s.calls j).kind ∧
      (t.calls j).req.isCompleted = (s.calls j).req.isCompleted := by
  have ne : j ≠ i := by
    rintro rfl
    rw [calls, Function.update_self] at parked
    exact out parked
  rw [calls, Function.update_of_ne ne] at parked ⊢
  exact ⟨parked, rfl, rfl⟩

/-- One call goes on, if it is bound then it stays so, and the load stays. -/
lemma update (calls : t.calls = Function.update s.calls i c) (load : s.Loaded → t.Loaded)
    (out : ¬ c.RoomParked) (bound : (s.calls i).RoomBound i → c.RoomBound i) : RoomStep s t where
  parked j parked := .inl (parked_update calls out parked)
  promise := by
    refine .inr (.inr (.inr ⟨load, fun j => ?_⟩))
    rw [calls]
    by_cases eq : j = i
    · subst eq
      rwa [Function.update_self]
    · rw [Function.update_of_ne eq]
      exact id

/-- One call goes on and has put its packet on the path. -/
lemma puts (calls : t.calls = Function.update s.calls i c) (out : ¬ c.RoomParked) (loaded : t.Loaded) :
    RoomStep s t where
  parked _ parked := .inl (parked_update calls out parked)
  promise := .inl loaded

/-- One call begins to look for room. -/
lemma looks {p : Packet} (calls : t.calls = Function.update s.calls i c) (pc : c.pc = .roomLoop p)
    (live : c.kind = .request → c.req.isCompleted = false) : RoomStep s t where
  parked j parked := by
    refine .inl (parked_update calls ?_ parked)
    rintro ⟨⟨q, eq⟩, _⟩
    simp [pc] at eq
  promise := by
    refine .inr (.inl ⟨i, ?_⟩)
    rw [calls, Function.update_self]
    exact .inr ⟨⟨p, pc⟩, live⟩

/-- A release wakes a room waiter, if there is one. -/
lemma released_bound {bytes : Int} (wf : u.Wf)
    (live : ∀ j, (u.calls j).RoomParked → (u.calls j).kind = .request →
      (u.calls j).req.isCompleted = false) :
    (∀ j, ¬ ((u.releaseOutboundBytes bytes).calls j).RoomParked) ∨
      ∃ j, ((u.releaseOutboundBytes bytes).calls j).RoomBound j := by
  set v : Conn := { u with
    queuedBytes := if u.queuedBytes - bytes < 0 then 0 else u.queuedBytes - bytes }
  change (∀ j, ¬ (v.wakeOneRoomWaiter.calls j).RoomParked) ∨
    ∃ j, (v.wakeOneRoomWaiter.calls j).RoomBound j
  unfold wakeOneRoomWaiter
  split
  case h_1 none =>
    left
    intro j parked
    have mem := (wf.room.mem ⟨j, (u.calls j).seq⟩).mpr ⟨parked, rfl⟩
    have none' : u.roomWaiters = [] := none
    simp [none'] at mem
  case h_2 k ks queue =>
    right
    have queue' : u.roomWaiters = k :: ks := queue
    obtain ⟨parked, seq⟩ := (wf.room.mem k).mp (by simp [queue'])
    refine ⟨k.call, ?_⟩
    rw [resume_room (s := { v with roomWaiters := ks }) ⟨parked, seq⟩]
    refine .inl ?_
    rw [modCall_calls_self]
    exact ⟨parked.1, rfl, fun request =>
      ⟨live k.call parked request, (wf.call k.call).roomParked request parked⟩⟩

/-- A packet leaves the path and its bytes are released. -/
lemma released {bytes : Int} (wf : u.Wf) (before : ∀ j, RoomsAt j s u)
    (live : ∀ j, (s.calls j).RoomParked → (s.calls j).kind = .request →
      (s.calls j).req.isCompleted = false)
    (after : ∀ j, RoomsAt j (u.releaseOutboundBytes bytes) t) : RoomStep s t := by
  have woken := releaseOutboundBytes_waking bytes u
  have live' : ∀ j, (u.calls j).RoomParked → (u.calls j).kind = .request →
      (u.calls j).req.isCompleted = false := by
    intro j parked
    have eq := before j (.inr parked.rooms)
    rw [eq] at parked ⊢
    exact live j parked
  refine ⟨fun j parked => .inl ?_, ?_⟩
  · have eq := after j (.inr parked.rooms)
    rw [eq] at parked ⊢
    have parked' : (u.calls j).RoomParked :=
      ⟨(woken.calls j).pc ▸ parked.1, (woken.calls j).parked parked.2⟩
    have eq' := before j (.inr parked'.rooms)
    rw [(woken.calls j).kind, woken.completed j, eq']
    rw [eq'] at parked'
    exact ⟨parked', rfl, rfl⟩
  · have bound : (∀ j, ¬ ((u.releaseOutboundBytes bytes).calls j).RoomParked) ∨
        ∃ j, ((u.releaseOutboundBytes bytes).calls j).RoomBound j := released_bound wf live'
    rcases bound with none | ⟨j, bound⟩
    · refine .inr (.inr (.inl fun j parked => ?_))
      have eq := after j (.inr parked.rooms)
      rw [eq] at parked
      exact none j parked
    · refine .inr (.inl ⟨j, ?_⟩)
      rwa [after j (.inl bound.rooms)]

end RoomStep

/-- The flaws by which a release wakes nobody who uses the room, or bytes are never released. -/
def roomFlaw (f : Flaw) : Prop :=
  f = .roomWakeCancelled ∨ f = .doubleResume ∨ f = .roomSettled ∨ f = .senderCancelled

namespace RoomStep

/-- A step of one call, when no wake-up is lost with it. -/
lemma localStep {c' : Call} (wf : (s.calls i).Wf i) (avoid : ¬ A .roomWakeCancelled)
    (opened : s.closed = false) (h : LocalStep A s i (s.calls i) c') :
    RoomStep s (s.modCall i fun _ => c') := by
  have load : s.Loaded → (s.modCall i fun _ => c').Loaded := fun loaded =>
    loaded.update rfl rfl rfl rfl (Call.offered_localStep h)
  have calls : (s.modCall i fun _ => c').calls = Function.update s.calls i c' := rfl
  cases h with
  | @roomRun p r pc wake _ =>
    refine update calls load (by rintro ⟨⟨_, pc⟩, _⟩; cases pc) fun bound => .inr ⟨⟨p, rfl⟩, ?_⟩
    obtain ⟨_, _, live⟩ | ⟨_, live⟩ := bound
    · exact fun request => (live request).1
    · exact live
  | roomSettled pc request done =>
    refine update calls load (by rintro ⟨⟨_, pc⟩, _⟩; cases pc) fun bound => ?_
    obtain ⟨⟨_, pc'⟩, _⟩ | ⟨_, live⟩ := bound
    · simp [pc] at pc'
    · simp [live request] at done
  | roomClosed _ closed => simp [opened] at closed
  | roomThrown pc wake =>
    refine update calls load (by rintro ⟨⟨_, pc⟩, _⟩; cases pc) fun bound => ?_
    obtain ⟨_, wake', _⟩ | ⟨⟨_, pc'⟩, _⟩ := bound
    · simp [wake] at wake'
    · simp [pc] at pc'
  | cancelRoomWoken pc _ lost =>
    -- a settled request was not woken for room
    refine update calls load (by rintro ⟨_, wake⟩; cases wake) fun bound => absurd (lost ?_) avoid
    obtain ⟨_, _, live⟩ | ⟨⟨_, pc'⟩, _⟩ := bound
    · by_cases request : (s.calls i).kind = .request
      · exact (live request).1
      · rw [wf.fresh request]
        rfl
    · simp [pc] at pc'
  | slotRun pc | slotSettled pc | slotClosed pc | sendRun pc | sendCancelled pc | selectSent pc
  | awaitPark pc | awaitReturn pc | awaitThrow pc | awaitRun pc | awaitRunThrow pc
  | awaitCancelled pc | cancelAwait pc | cancelSlotWoken pc | cancelSendWoken pc | cancelSelectSent pc
  | cancelSelectGate pc | cancelAwaitWoken pc | writeOk pc | flushOk pc =>
    exact same (fun j => .update calls (by simp [pc]) (by simp [pc])) load

/-- A room waiter leaves that was not woken for room. -/
lemma leaves {p : Packet} (calls : t.calls = Function.update s.calls i c) (load : s.Loaded → t.Loaded)
    (out : ¬ c.RoomParked) (pc : (s.calls i).pc = .roomWait p)
    (wake : (s.calls i).wake ≠ .resumed .unit) : RoomStep s t := by
  refine update calls load out fun bound => ?_
  obtain ⟨_, woken, _⟩ | ⟨⟨_, pc'⟩, _⟩ := bound
  · exact absurd woken wake
  · simp [pc] at pc'

/-- A call finds no room and parks. -/
lemma parks (calls : t.calls = Function.update s.calls i c)
    (live : c.kind = .request → c.req.isCompleted = false) (loaded : t.Loaded) : RoomStep s t where
  parked j parked := by
    rw [calls] at parked ⊢
    by_cases eq : j = i
    · subst eq
      rw [Function.update_self]
      exact .inr ⟨loaded, live⟩
    · rw [Function.update_of_ne eq] at parked ⊢
      exact .inl ⟨parked, rfl, rfl⟩
  promise := .inl loaded

/-- The deadline of a request settles it and takes it out of the room queue, if it is in it. -/
lemma deadline (wf : s.Wf) (rested : s.Rested) (armed : (s.calls i).req.armed)
    (live : ∀ j, (s.calls j).RoomParked → (s.calls j).kind = .request →
      (s.calls j).req.isCompleted = false)
    (once : (s.calls i).req.isCompleted = false →
      ∀ k, (s.calls i).req.roomCont = some k → k ∈ s.roomWaiters) : RoomStep s (s.run i) := by
  have request := wf.request_of_armed armed
  have rooms : ∀ j, j ≠ i → RoomsAt j s (s.run i) := fun j ne => .run wf armed ne
  refine ⟨fun j parked => .inl ?_, .inr (.inr (.inr ⟨fun loaded => loaded.roused (.run wf armed), ?_⟩))⟩
  · have ne : j ≠ i := by
      rintro rfl
      have frame := (run_frame j s).calls j
      have before : (s.calls j).RoomParked := ⟨frame.pc ▸ parked.1, frame.parked parked.2⟩
      have unsettled := live j before request
      rw [run, if_neg (by simp [unsettled])] at parked
      exact (Later.expire_self (wf.fire request) (by simpa [fire, modReq] using request)
        (by simpa [fire, modReq, Pending.isCompleted] using unsettled)).2.2.1 parked
    have eq := rooms j ne (.inr parked.rooms)
    rw [eq] at parked ⊢
    exact ⟨parked, rfl, rfl⟩
  · intro j bound
    have ne : j ≠ i := by
      rintro rfl
      obtain ⟨⟨p, pc⟩, wake, live⟩ | ⟨⟨p, pc⟩, _⟩ := bound
      · obtain ⟨unsettled, stored⟩ := live request
        obtain ⟨⟨_, parked⟩, _⟩ := (wf.room.mem _).mp (once unsettled _ stored)
        simp [wake] at parked
      · have rests := rested j
        simp [pc] at rests
    rwa [rooms j ne (.inl bound.rooms)]

/-- A `select` that sent nothing gives its bytes back. -/
lemma aborted {p : Packet} {pc' : Pc} (wf : s.Wf)
    (live : ∀ j, (s.calls j).RoomParked → (s.calls j).kind = .request →
      (s.calls j).req.isCompleted = false)
    (pc : (s.calls i).pc = .channelSelect p) (woken : (s.calls i).wake ≠ .parked)
    (away : pc'.rooms = false) : RoomStep s ((s.abortSelect i p).setPc i pc') := by
  have request : (s.calls i).kind = .request := by
    have kind := (wf.call i).kind
    rwa [pc] at kind
  set u := s.modReq i fun r => { r with gate := false }
  have wfu : u.Wf := wf.modReq (wf.lt_of_request request) ((wf.call i).dropGate woken request) id
  have place : ((u.releaseOutboundBytes (packetBytes p)).calls i).pc = .channelSelect p :=
    ((releaseOutboundBytes_waking (packetBytes p) u).calls i).pc.trans (by simpa [u, modReq] using pc)
  refine released wfu (fun j => .update rfl ?_ ?_) live fun j => .update rfl (by simp [place]) away
  · simp [pc]
  · simp [pc]

end RoomStep

end

/-- What every effect preserves: the budget counts packets on the path, nobody who is parked for room
is settled, and there is a reason to expect room. -/
structure Rooms (s : Conn) : Prop where
  covered : s.Covered
  live : s.closed = false → ∀ j, (s.calls j).RoomParked → (s.calls j).kind = .request →
    (s.calls j).req.isCompleted = false
  promised : s.closed = false → (∃ j, (s.calls j).RoomParked) →
    s.Loaded ∨ ∃ j, (s.calls j).RoomBound j

namespace Rooms

variable {env : Env} {A : Trigger} {s t : Conn}

/-- A new connection has nobody waiting for room. -/
lemma init : Rooms Conn.init where
  covered _ _ := ⟨Int.le_refl _, Int.natCast_nonneg _⟩
  live _ j parked := by
    obtain ⟨⟨_, pc⟩, _⟩ := parked
    cases pc
  promised _ parked := by
    obtain ⟨j, ⟨_, pc⟩, _⟩ := parked
    cases pc

/-- What every effect on an open connection does to the waits for room. -/
lemma roomStep (h : s.Rooms) (wf : s.Wf) (capacity : 1 ≤ env.config.mailboxCapacity)
    (rested : A.start.Rested) (avoid : ∀ f, roomFlaw f → ¬ A f) (opened : t.closed = false)
    (eff : Effect env A s t) : RoomStep s t := by
  have opened' := effect_opened eff opened
  have live := h.live opened'
  have fresh : s.calls s.next = {} := wf.fresh _ (Nat.le_refl _)
  -- a call that has nothing to do with room or with the channel goes on
  have passes : ∀ {u : Conn} {i : Nat} {c : Call}, u.calls = Function.update s.calls i c →
      u.sendQueue = s.sendQueue → u.outbound.buffer = s.outbound.buffer → u.writeLoop = s.writeLoop →
      (s.calls i).pc.rooms = false → (s.calls i).pc.sends = false → c.pc.rooms = false →
      c.pc.sends = false → RoomStep s u := by
    intro u i c calls queue buffer loop rooms sends rooms' sends'
    exact .same (fun j => .update calls rooms rooms') fun loaded =>
      loaded.pass sends sends' calls queue buffer loop
  cases eff with
  | loc step => exact .localStep (wf.call _) (avoid _ (.inl rfl)) opened' step
  | reject pc _ _ =>
    exact passes rfl rfl rfl rfl (by rw [fresh]; rfl) (by rw [fresh]; rfl) (by simp [pc]) (by simp [pc])
  | startRequest _ _ _ _ pc _ _ _ _ =>
    exact passes rfl rfl rfl rfl (by rw [fresh]; rfl) (by rw [fresh]; rfl) (by simp [pc]) (by simp [pc])
  | startPut kind pc _ _ _ _ _ =>
    refine .looks rfl pc fun request => ?_
    rcases kind with kind | kind <;> simp [kind] at request
  | slotPark pc _ _ _ => exact passes rfl rfl rfl rfl (by simp [pc]) (by simp [pc]) rfl rfl
  | register _ _ _ unsettled _ => exact .looks rfl rfl fun _ => unsettled
  | @slotRefused i e pc _ _ _ _ _ =>
    set u : Conn := { s with pending := s.pending.set (s.calls i).req.id i }
    have left : (u.setPc i (.unwinding (.threw e))).Wf := wf.refused pc
    have place := setPc_pc i (.unwinding (.threw e)) u
    refine .same (fun j => .trans (.update rfl ?_ rfl) (.finish left place)) fun loaded => ?_
    · simp [pc]
    · exact Loaded.finish (loaded.pass (by simp [pc]) rfl rfl rfl rfl rfl) left place
  | slotCancelled pc _ =>
    exact passes (slotCancelled_calls _ _ s) rfl rfl rfl (by simp [pc]) (by simp [pc]) rfl rfl
  | roomPark pc _ full unsettled =>
    -- the budget is full, so there is a packet on the path whose release will wake somebody
    have loaded := h.covered.loaded opened' capacity full
    exact .parks rfl unsettled (loaded.pass (by simp [pc]) rfl rfl rfl rfl rfl)
  | roomCancelled pc cancelled =>
    refine .leaves (roomCancelled_calls _ _ s) (fun loaded => ?_) (Call.not_parked_of_rooms rfl) pc ?_
    · exact loaded.pass (by simp [pc]) rfl (roomCancelled_calls _ _ s) rfl rfl rfl
    · rcases cancelled with wake | ⟨r, wake⟩ <;> simp [wake]
  | putQueue _ _ _ _ _ _ =>
    exact .puts rfl (Call.not_parked_of_rooms (Call.afterPut_rooms _)) (.inl (by simp [setPc]))
  | putDrain _ _ _ _ _ _ =>
    refine .puts rfl (Call.not_parked_of_rooms ?_) (.inl (by simp [setPc]))
    dsimp only
    split <;> rfl
  | putBuffer _ _ _ _ _ _ buffer =>
    refine .puts rfl (Call.not_parked_of_rooms (Call.afterPut_rooms _)) (.inr (.inl ?_))
    rcases buffer with rfl | ⟨_, rfl⟩ <;> simp [setPc]
  | putHandoff _ _ _ _ _ _ =>
    refine .puts rfl (Call.not_parked_of_rooms (Call.afterPut_rooms _)) (.inr (.inr (.inl ?_)))
    simp [setPc, loopSend, encode, WriteLoop.packets]
  | @sendPark i p _ _ _ _ _ _ =>
    refine .puts rfl (Call.not_parked_of_rooms rfl) (.inr (.inr (.inr (.inr ⟨i, ?_⟩))))
    simp [Call.offered]
  | @selectPark i p _ _ _ _ _ _ _ =>
    refine .puts rfl (Call.not_parked_of_rooms rfl) (.inr (.inr (.inr (.inr ⟨i, ?_⟩))))
    simp [Call.offered]
  | @drainTake i p rest pc _ _ =>
    set u : Conn := { s with sendQueue := rest }
    have wfu : u.Wf := { wf with }
    -- the release of this packet keeps the promise: it wakes the next waiter
    have place := ((releaseOutboundBytes_waking (packetBytes p) u).calls i).pc.trans pc
    exact .released wfu (fun _ => .same rfl) live fun j => .update rfl (by simp [place]) rfl
  | drainEnd pc _ =>
    exact passes rfl rfl rfl rfl (by simp [pc]) (by simp [pc]) (Call.afterPut_rooms _)
      (Call.afterPut_sends _)
  | @successorStart i pc =>
    refine passes rfl rfl rfl rfl (by simp [pc]) (by simp [pc]) ?_ ?_ <;> dsimp only <;> split <;> rfl
  | @handOff i pc _ _ =>
    have running : ∀ o, (s.calls i).pc ≠ .ended o := by rcases pc with pc | pc <;> simp [pc]
    have rooms : (s.calls i).pc.rooms = false := by rcases pc with pc | pc <;> simp [pc]
    have sends : (s.calls i).pc.sends = false := by rcases pc with pc | pc <;> simp [pc]
    set u := s.addCall { kind := .successor, pc := .launched }
    have same : u.calls i = s.calls i := wf.addCall_older running
    refine .same (fun j => .trans (t := u) (.update rfl ?_ rfl) (.update rfl ?_ rfl)) fun loaded => ?_
    · rw [fresh]
      rfl
    · rw [same, rooms]
    · have started : u.Loaded := loaded.pass (by rw [fresh]; rfl) rfl rfl rfl rfl rfl
      exact started.pass (by rw [same, sends]) rfl rfl rfl rfl rfl
  | writerStop pc _ _ =>
    refine passes rfl rfl rfl rfl ?_ ?_ rfl rfl <;> rcases pc with pc | pc <;> simp [pc]
  | transmit _ _ _ => exact .same (fun _ => .same rfl) id
  | selectGate pc wake _ => exact .aborted wf live pc (by simp [wake]) rfl
  | selectCancelled pc cancelled _ =>
    exact .aborted wf live pc (Wf.not_parked_of_cancelled cancelled) rfl
  | loopFlushing _ _ =>
    exact .same (fun _ => .same rfl) fun _ => .inr (.inr (.inl (by simp [WriteLoop.packets])))
  | loopNext _ => exact .released wf (fun _ => .same rfl) live fun j => .loopNext wf.releaseOutboundBytes
  | loopRun _ idle =>
    refine .same (fun _ => .loopNext wf) fun loaded => loaded.loopNext ?_
    rcases idle with loop | ⟨_, closed⟩
    · exact loop
    · simp [opened'] at closed
  | loopEnd _ _ => exact .same (fun _ => .same rfl) fun _ => .inr (.inr (.inr (.inl rfl)))
  | cancelSlot pc _ =>
    exact passes (cancelSlot_calls _ s) rfl rfl rfl (by simp [pc]) (by simp [pc]) (by simp [pc])
      (by simp [pc])
  | cancelRoom pc wake =>
    refine .leaves (cancelRoom_calls _ s) (fun loaded => ?_) (by rintro ⟨_, wake⟩; cases wake) pc
      (by simp [wake])
    exact loaded.pass (by simp [pc]) (by simp [pc]) (cancelRoom_calls _ s) rfl rfl rfl
  | cancelSend _ _ flaw => exact absurd flaw (avoid _ (.inr (.inr (.inr rfl))))
  | cancelSelect pc wake =>
    refine .same (fun j => .update rfl (by simp [pc]) (by simp [pc])) fun loaded => ?_
    exact loaded.update rfl rfl rfl rfl (by simp [Call.offered, pc, wake])
  | finish pc _ => exact .same (fun _ => .finish wf pc) fun loaded => loaded.finish wf pc
  | deadline start armed _ _ once _ =>
    refine .deadline wf (start ▸ rested) armed live fun unsettled k stored => ?_
    by_contra out
    exact avoid _ (.inr (.inl rfl)) (once unsettled k stored out)
  | @response i packet _ start _ _ found settles _ =>
    -- a response that overtakes its own request at the room wait is a flaw
    have place : (s.calls i).pc.rooms = false := by
      have rests := (start ▸ rested : s.Rested) i
      cases pc : (s.calls i).pc with
      | roomWait p => exact absurd (settles ⟨p, pc⟩) (avoid _ (.inr (.inr (.inl rfl))))
      | roomLoop p => simp [pc] at rests
      | _ => rfl
    refine .same (fun j => ?_) fun loaded => loaded.roused (.onResponse wf)
    by_cases eq : j = i
    · subst eq
      exact .away place (by rw [((onResponse_frame packet s).calls j).pc, place])
    · exact .onResponse wf found eq
  | shutdown _ _ => simp [shutdown_closed] at opened

/-- Every effect that takes no flawed branch keeps the promises. -/
theorem effect (h : s.Rooms) (wf : s.Wf) (capacity : 1 ≤ env.config.mailboxCapacity)
    (rested : A.start.Rested) (avoid : ∀ f, roomFlaw f → ¬ A f) (eff : Effect env A s t) : t.Rooms where
  covered := h.covered.effect wf (env.config.bounded capacity) (avoid _ (.inr (.inr (.inr rfl)))) eff
  live opened j parked request := by
    rcases (h.roomStep wf capacity rested avoid opened eff).parked j parked with
      ⟨before, kind, completed⟩ | ⟨_, live⟩
    · rw [completed]
      exact h.live (effect_opened eff opened) j before (kind ▸ request)
    · exact live request
  promised opened waits := by
    obtain ⟨j, parked⟩ := waits
    have step := h.roomStep wf capacity rested avoid opened eff
    rcases step.promise with loaded | bound | none | ⟨load, bound⟩
    · exact .inl loaded
    · exact .inr bound
    · exact absurd parked (none j)
    · rcases step.parked j parked with ⟨before, _, _⟩ | ⟨loaded, _⟩
      · exact (h.promised (effect_opened eff opened) ⟨j, before⟩).imp load
          fun ⟨i, before⟩ => ⟨i, bound i before⟩
      · exact .inl loaded

end Rooms

/-- Nothing moves on the outbound path. INLINE: no active writer and an empty queue; CHANNEL: an empty
channel and a write loop that waits for a packet. -/
def OutboundIdle (env : Env) (s : Conn) : Prop :=
  match env.config.writeMode with
  | .inline => s.writerActive = false ∧ s.sendQueue = []
  | .channel => s.outbound.buffer = [] ∧ s.writeLoop = .receiving

/-- An idle path is not loaded, unless a call can run that still has to take its packet back. -/
lemma Loaded.not_idle {env : Env} {s : Conn} (loaded : s.Loaded) (wf : s.Wf) (lanes : Lanes env s)
    (quiet : s.Quiescent env) : ¬ s.OutboundIdle env := by
  intro idle
  -- a suspended sender that cannot run is in the channel's queue
  have suspended : ∀ i, (s.calls i).offered ≠ [] → s.outbound.senders ≠ [] := by
    intro i offers none
    have rests := quiet.calls i
    unfold Call.offered at offers
    split at offers
    case h_1 p pc =>
      have parked : (s.calls i).wake = .parked := by simpa [Call.runnable, pc] using rests
      have mem := (wf.send.mem (i, p)).mpr ⟨.inl pc, parked⟩
      simp [none] at mem
    case h_2 p pc =>
      have parked : (s.calls i).wake = .parked := by simpa [Call.runnable, pc] using rests
      have mem := (wf.send.mem (i, p)).mpr ⟨.inr pc, parked⟩
      simp [none] at mem
    case h_3 => exact offers rfl
  unfold OutboundIdle at idle
  split at idle
  case h_1 mode =>
    obtain ⟨loop, buffer, senders⟩ := lanes.inline mode
    rcases loaded with queue | buffered | writing | ended | ⟨i, offers⟩
    · exact queue idle.2
    · exact buffered buffer
    · simp [loop, WriteLoop.packets] at writing
    · simp [loop] at ended
    · exact suspended i offers senders
  case h_2 mode =>
    rcases loaded with queue | buffered | writing | ended | ⟨i, offers⟩
    · exact queue (lanes.channel mode)
    · exact buffered idle.1
    · simp [idle.2, WriteLoop.packets] at writing
    · simp [idle.2] at ended
    · exact suspended i offers (lanes.receiving idle.2)

/-- For a mailbox capacity of at least one, in both write modes: in every run in which no room waiter is
cancelled or timed out between being woken and running, none is settled by a response, and no sender
suspended in `outbound.send` is cancelled, nobody waits for room while the outbound path of an open
connection is idle and no coroutine can run. -/
theorem no_lost_room {env : Env} {s : Conn} (capacity : 1 ≤ env.config.mailboxCapacity)
    (run : Runs.Reach (step env) (Avoids roomFlaw env) init s) (opened : s.closed = false)
    (quiet : s.Quiescent env) (idle : s.OutboundIdle env) : s.roomWaiters = [] := by
  have wf : s.Wf := .reach run
  have lanes : Lanes env s := invariant_of_effects run .init fun _ _ _ _ wf lanes eff =>
    lanes.effect wf eff
  have rooms : s.Rooms := invariant_of_rested run .init fun _ _ _ avoid rested wf rooms eff =>
    rooms.effect wf capacity rested avoid eff
  by_contra waits
  obtain ⟨k, queued⟩ := List.exists_mem_of_ne_nil _ waits
  obtain ⟨parked, _⟩ := (wf.room.mem k).mp queued
  rcases rooms.promised opened ⟨k.call, parked⟩ with loaded | ⟨i, bound⟩
  · exact loaded.not_idle wf lanes quiet idle
  · have rests := quiet.calls i
    obtain ⟨⟨p, pc⟩, wake, _⟩ | ⟨⟨p, pc⟩, _⟩ := bound
    · simp [Call.runnable, pc, wake] at rests
    · simp [Call.runnable, pc] at rests

/-- Only a deadline, a response or a cancellation can make a sender lose its room. -/
lemma avoids_roomFlaw {env : Env} {s : Conn} {e : Event} (deadline : ∀ i, e ≠ .deadline i)
    (response : ∀ packet, e ≠ .response packet) (cancel : ∀ i, e ≠ .cancel i) :
    Avoids roomFlaw env s e := by
  intro f flaw occurs
  cases e with
  | deadline i => exact deadline i rfl
  | response packet => exact response packet rfl
  | cancel i => exact cancel i rfl
  | loopWrite r =>
    cases r <;> obtain rfl | rfl | rfl | rfl := flaw <;> exact occurs
  | loopFlush r =>
    cases r <;> obtain rfl | rfl | rfl | rfl := flaw <;> exact occurs
  | _ => obtain rfl | rfl | rfl | rfl := flaw <;> exact occurs

/-- A sender waits for room, is woken and puts its packet on the path; then the path is idle again. -/
theorem no_lost_room_drained : ∃ s : Conn,
    Runs.Reach (step (.tight .inline)) (Avoids roomFlaw (.tight .inline)) init s ∧ s.closed = false ∧
      s.Quiescent (.tight .inline) ∧ s.OutboundIdle (.tight .inline) ∧
      (s.calls 2).pc = .ended .done ∧ s.roomWaiters = [] := by
  have run : ((Runs.exec (step (.tight .inline)) init
      [.sendOne, .sendOne, .sendOne, .transmit 0 17, .write 0 .ok, .flush 0 .ok, .dispatch 2,
        .transmit 0 17, .write 0 .ok, .flush 0 .ok, .transmit 0 17, .write 0 .ok, .flush 0 .ok]).map
      fun s => (s.closed, (List.range s.next).all (fun i => !(s.calls i).runnable),
        (s.loopRun (.tight .inline)).isNone, s.writerActive, s.sendQueue.isEmpty, (s.calls 2).pc)) =
      some (false, true, true, false, true, .ended .done) := by decide
  obtain ⟨s, exec, facts⟩ := Option.map_eq_some_iff.mp run
  simp only [Prod.mk.injEq] at facts
  obtain ⟨opened, made, loop, inactive, queue, sent⟩ := facts
  have reach : Runs.Reach (step (.tight .inline)) (Avoids roomFlaw (.tight .inline)) init s := by
    refine Runs.reach_of_exec exec (.of_forall fun e mem _ => ?_)
    apply avoids_roomFlaw
    all_goals
      rintro _ rfl
      simp [Event.sendOne] at mem
  have quiet : s.Quiescent (.tight .inline) := .of_made (.reach reach) made loop
  have idle : s.OutboundIdle (.tight .inline) := ⟨inactive, List.isEmpty_iff.mp queue⟩
  exact ⟨s, reach, opened, quiet, idle, sent, no_lost_room (by decide) reach opened quiet idle⟩

/-- Two senders wait for room; the first is woken, cancelled before it runs, and its wake-up is lost. -/
theorem lost_room : ∃ s, Runs.Reach (step (.tight .inline)) Runs.always init s ∧ s.closed = false ∧
    s.Quiescent (.tight .inline) ∧ s.OutboundIdle (.tight .inline) ∧ s.roomWaiters ≠ [] := by
  have run : ((Runs.exec (step (.tight .inline)) init
      [.sendOne, .sendOne, .sendOne, .sendOne, .transmit 0 17, .write 0 .ok, .flush 0 .ok, .cancel 2,
        .dispatch 2, .transmit 0 17, .write 0 .ok, .flush 0 .ok]).map
      fun s => (s.closed, (List.range s.next).all (fun i => !(s.calls i).runnable),
        (s.loopRun (.tight .inline)).isNone, s.writerActive, s.sendQueue.isEmpty,
        s.roomWaiters.isEmpty)) = some (false, true, true, false, true, false) := by decide
  obtain ⟨s, exec, facts⟩ := Option.map_eq_some_iff.mp run
  simp only [Prod.mk.injEq] at facts
  obtain ⟨opened, made, loop, inactive, queue, waits⟩ := facts
  have reach := Runs.reach_always_of_exec exec
  refine ⟨s, reach, opened, .of_made (.reach reach) made loop, ?_, ?_⟩
  · exact ⟨inactive, List.isEmpty_iff.mp queue⟩
  · intro none
    simp [none] at waits

end Conn

end MsgTrans
