import MsgTrans.Connection.Registry
import MsgTrans.Connection.Resumes
import MsgTrans.Lib.Tally

/-!
# In-flight slots

A freed slot wakes one waiter. While somebody is parked for a slot, every slot that is not taken is on
its way to a waiter that has been woken and has not run yet, unless a wake-up is lost: a woken waiter
is cancelled before it runs, the wake-up goes to the queue entry of a request that has timed out, or
a deadline that resumes a continuation twice dies before it wakes anybody.
-/

namespace MsgTrans

/-- The request was woken for a slot and has not taken it yet. -/
def Call.inTransit (c : Call) : Bool :=
  (c.pc == .slotWait || c.pc == .slotLoop) && c.wake == .resumed .unit && !c.req.isCompleted

/-- Who is in transit was woken for a slot, has not run, and is not settled. -/
lemma Call.inTransit_iff {c : Call} : c.inTransit ↔
    (c.pc = .slotWait ∨ c.pc = .slotLoop) ∧ c.wake = .resumed .unit ∧ c.req.isCompleted = false := by
  simp [Call.inTransit, and_assoc]

/-- Away from the slot loop nobody is in transit. -/
lemma Call.inTransit_of_pc {c : Call} (wait : c.pc ≠ .slotWait) (loop : c.pc ≠ .slotLoop) :
    c.inTransit = false := by
  simp [Call.inTransit, wait, loop]

namespace Conn

/-- The number of woken waiters that have not run. -/
def transit (s : Conn) : Nat := tally (fun c => c.inTransit.toNat) s.calls s.next

/-- While somebody is parked for a slot, all slots but `k` are taken or on their way. -/
def Owed (env : Env) (k : Nat) (s : Conn) : Prop :=
  ∀ i, (s.calls i).SlotParked →
    env.config.maxInFlightRequests ≤ (s.pending.size : Int) + (s.transit : Int) + k

namespace Owed

variable {env : Env} {s t : Conn} {i k k' : Nat} {c : Call}

/-- Nobody parks and the slots do not get fewer. -/
lemma of (owed : Owed env k s)
    (parked : ∀ i, (t.calls i).SlotParked → ∃ j, (s.calls j).SlotParked)
    (le : s.pending.size + s.transit + k ≤ t.pending.size + t.transit + k') : Owed env k' t := by
  intro i waits
  obtain ⟨j, waits⟩ := parked i waits
  have bound := owed j waits
  omega

/-- All slots are taken. -/
lemma of_full (full : env.config.maxInFlightRequests ≤ (t.pending.size : Int)) : Owed env k t := by
  intro i _
  omega

/-- The slots in transit after the change of one call. -/
lemma transit_update (lt : i < s.next) (calls : t.calls = Function.update s.calls i c)
    (next : t.next = s.next) :
    t.transit + (s.calls i).inTransit.toNat = s.transit + c.inTransit.toNat := by
  rw [transit, calls, next]
  exact tally_update lt

/-- The change of one call parks nobody. -/
lemma parked_update (calls : t.calls = Function.update s.calls i c)
    (parked : c.SlotParked → (s.calls i).SlotParked) (j : Nat) (waits : (t.calls j).SlotParked) :
    ∃ j, (s.calls j).SlotParked := by
  rw [calls] at waits
  by_cases eq : j = i
  · subst eq
    exact ⟨j, parked (by simpa using waits)⟩
  · exact ⟨j, by simpa [eq] using waits⟩

/-- One call goes on; if it was on its way to a slot it still is. -/
lemma update (owed : Owed env k s) (lt : i < s.next) (calls : t.calls = Function.update s.calls i c)
    (next : t.next = s.next) (pending : t.pending = s.pending)
    (parked : c.SlotParked → (s.calls i).SlotParked) (transit : (s.calls i).inTransit → c.inTransit) :
    Owed env k t := by
  refine owed.of (parked_update calls parked) ?_
  have sum := transit_update lt calls next
  rw [pending]
  cases before : (s.calls i).inTransit with
  | false =>
    simp only [before, Bool.toNat_false] at sum
    omega
  | true =>
    rw [before, transit before] at sum
    omega

/-- One call goes on and may give up its way to a slot. -/
lemma giveUp (owed : Owed env k s) (lt : i < s.next) (calls : t.calls = Function.update s.calls i c)
    (next : t.next = s.next) (pending : t.pending = s.pending)
    (parked : c.SlotParked → (s.calls i).SlotParked) : Owed env (k + 1) t := by
  refine owed.of (parked_update calls parked) ?_
  have sum := transit_update lt calls next
  have one := Bool.toNat_le (s.calls i).inTransit
  rw [pending]
  omega

/-- One call gets on its way to a slot. -/
lemma takeUp (owed : Owed env (k + 1) s) (lt : i < s.next)
    (calls : t.calls = Function.update s.calls i c) (next : t.next = s.next)
    (pending : t.pending = s.pending) (parked : c.SlotParked → (s.calls i).SlotParked)
    (before : (s.calls i).inTransit = false) (after : c.inTransit) : Owed env k t := by
  refine owed.of (parked_update calls parked) ?_
  have sum := transit_update lt calls next
  rw [before, after, Bool.toNat_false, Bool.toNat_true] at sum
  rw [pending]
  omega

/-- A call that has nothing to do with the slots goes on. -/
lemma pass (owed : Owed env k s) (lt : i < s.next) (calls : t.calls = Function.update s.calls i c)
    (next : t.next = s.next) (pending : t.pending = s.pending) (parked : ¬ c.SlotParked)
    (out : (s.calls i).inTransit = false) : Owed env k t :=
  owed.update lt calls next pending (absurd · parked) (by simp [out])

/-- An effect that touches neither calls nor registry. -/
lemma same (owed : Owed env k s) (calls : t.calls = s.calls) (next : t.next = s.next)
    (pending : t.pending = s.pending) : Owed env k t := by
  refine owed.of (fun i waits => ⟨i, calls ▸ waits⟩) ?_
  rw [pending, transit, transit, calls, next]

/-- An entry leaves the registry. -/
lemma unregister {id : UInt32} (owed : Owed env k s) : Owed env (k + 1) (s.unregister id) := by
  refine owed.of (fun i waits => ⟨i, waits⟩) ?_
  have sizes : s.pending.size ≤ (s.pending.remove id).size + 1 := by
    cases found : s.pending.find id with
    | none => rw [FinMap.remove_of_find_none found]; omega
    | some j => exact (FinMap.size_remove_of_find found).ge
  change s.pending.size + s.transit + k ≤ (s.pending.remove id).size + s.transit + (k + 1)
  omega

/-! ## Waking -/

/-- A room wake-up owes nothing. -/
lemma resumeRoom {q : Cont} {l : List Cont} {r : Resumption} (owed : Owed env k s) (wf : s.Wf)
    (entry : RoomEntry s.calls q) : Owed env k ({ s with roomWaiters := l }.resume q r) := by
  obtain ⟨⟨⟨p, pc⟩, wake⟩, seq⟩ := entry
  have lt : q.call < s.next := wf.lt_next fun o eq => by simp [pc] at eq
  rw [resume_room (s := { s with roomWaiters := l }) ⟨⟨⟨p, pc⟩, wake⟩, seq⟩]
  refine owed.pass lt rfl rfl rfl ?_ (Call.inTransit_of_pc (by simp [pc]) (by simp [pc]))
  rintro ⟨_, wake⟩
  cases wake

/-- `wakeOneRoomWaiter` owes nothing. -/
lemma wakeOneRoomWaiter (owed : Owed env k s) (wf : s.Wf) : Owed env k s.wakeOneRoomWaiter := by
  unfold Conn.wakeOneRoomWaiter
  split
  case h_1 => exact owed
  case h_2 q qs queue => exact owed.resumeRoom wf ((wf.room.mem q).mp (by simp [queue]))

/-- A release owes nothing. -/
lemma releaseOutboundBytes {bytes : Int} (owed : Owed env k s) (wf : s.Wf) :
    Owed env k (s.releaseOutboundBytes bytes) := by
  unfold Conn.releaseOutboundBytes
  exact wakeOneRoomWaiter (owed.same rfl rfl rfl) { wf with }

/-- A slot wake-up owes nothing. -/
lemma resumeSlot (owed : Owed env k s) (wf : s.Wf) : Owed env k (s.resumeSlot i) := by
  by_cases parked : (s.calls i).SlotParked
  · have lt : i < s.next := wf.lt_next fun o eq => by simp [parked.1] at eq
    rw [resumeSlot_parked (wf.call i) parked]
    refine owed.pass lt rfl rfl rfl ?_ (by simp [Call.inTransit, parked.2])
    rintro ⟨_, wake⟩
    cases wake
  · rwa [resumeSlot_idle (wf.call i) parked]

/-- A wake-up never makes things worse. -/
lemma wakeOneInFlightWaiter (owed : Owed env k s) (wf : s.Wf) :
    Owed env k s.wakeOneInFlightWaiter := by
  unfold Conn.wakeOneInFlightWaiter
  split
  case h_1 => exact owed
  case h_2 i is queue =>
    by_cases parked : (s.calls i).SlotParked
    · have lt : i < s.next := wf.lt_next fun o eq => by simp [parked.1] at eq
      rw [resumeSlot_parked (s := { s with inFlightWaiters := is }) (wf.call i) parked]
      refine owed.pass lt rfl rfl rfl ?_ (by simp [Call.inTransit, parked.2])
      rintro ⟨_, wake⟩
      cases wake
    · rw [resumeSlot_idle (s := { s with inFlightWaiters := is }) (wf.call i) parked]
      exact owed.same rfl rfl rfl

/-- A wake-up that does not go to a settled request passes a slot on. -/
lemma passOn (owed : Owed env (k + 1) s) (wf : s.Wf)
    (live : ∀ j, s.inFlightWaiters.head? = some j → (s.calls j).req.isCompleted = false) :
    Owed env k s.wakeOneInFlightWaiter := by
  cases queue : s.inFlightWaiters with
  | nil =>
    intro i waits
    rw [Conn.wakeOneInFlightWaiter, queue] at waits
    have mem := wf.slots.parked i waits
    simp [queue] at mem
  | cons i is =>
    have alive := live i (by simp [queue])
    have parked : (s.calls i).SlotParked :=
      (wf.slots.entry i (by simp [queue])).resolve_right (by simp [alive])
    have lt : i < s.next := wf.lt_next fun o eq => by simp [parked.1] at eq
    rw [Conn.wakeOneInFlightWaiter, queue]
    dsimp only
    rw [resumeSlot_parked (s := { s with inFlightWaiters := is }) (wf.call i) parked]
    refine owed.takeUp (i := i) lt rfl rfl rfl ?_ (by simp [Call.inTransit, parked.2]) ?_
    · rintro ⟨_, wake⟩
      cases wake
    · rw [Call.inTransit_iff]
      exact ⟨.inl parked.1, rfl, alive⟩

/-! ## Settling -/

/-- Settling a request changes its own call. -/
lemma settle_update {store : Pending → Pending} {r : Resumption} (wf : s.Wf)
    (st : Call.Settles store) :
    (s.settle i store r).calls = Function.update s.calls i ((s.settle i store r).calls i) := by
  funext j
  by_cases eq : j = i
  · subst eq
    simp
  · rw [Function.update_of_ne eq, settle_calls_of_ne (wf.call i) st eq]

/-- Settling a request that is not on its way to a slot. -/
lemma settle {store : Pending → Pending} {r : Resumption} (owed : Owed env k s) (wf : s.Wf)
    (lt : i < s.next) (st : Call.Settles store) (steady : Steady s (s.settle i store r))
    (out : (s.calls i).inTransit = false) : Owed env k (s.settle i store r) := by
  refine owed.update lt (settle_update wf st) steady.next steady.pending ?_ (by simp [out])
  exact fun parked => ⟨(steady.calls i).pc ▸ parked.1, (steady.calls i).parked parked.2⟩

/-- A request that was on its way may be failed. -/
lemma failAny {e : Throwable} (owed : Owed env k s) (wf : s.Wf) (lt : i < s.next) :
    Owed env (k + 1) (s.fail i e) := by
  have steady := fail_steady i e s
  refine owed.giveUp lt (settle_update wf (settles_error e)) steady.next steady.pending ?_
  exact fun parked => ⟨(steady.calls i).pc ▸ parked.1, (steady.calls i).parked parked.2⟩

/-- The queue does not hold a request that is neither parked for a slot nor settled. -/
lemma head_live (dead : ¬ s.NextDead i) (absent : i ∉ s.inFlightWaiters) :
    ∀ j, s.inFlightWaiters.head? = some j → (s.calls j).req.isCompleted = false := by
  intro j head
  by_contra settled
  refine dead ⟨j, ?_, by simpa using settled⟩
  rw [List.filter_eq_self.mpr fun a mem => ?_]
  · exact head
  · simp only [ne_eq, decide_not, Bool.not_eq_eq_eq_not, Bool.not_true, decide_eq_false_iff_not]
    rintro rfl
    exact absent mem

/-- The room part of a deadline, and its wake-up. -/
lemma runRoom (owed : Owed env (k + 1) s) (wf : s.Wf) (once : s.Once)
    (queued : ∀ q, (s.calls i).req.roomCont = some q → q ∈ s.roomWaiters)
    (live : ∀ j, s.inFlightWaiters.head? = some j → (s.calls j).req.isCompleted = false) :
    Owed env k (s.runRoom i) := by
  unfold Conn.runRoom
  split
  case h_1 => exact owed.passOn wf live
  case h_2 q stored =>
    have entry := (wf.room.mem q).mp (queued q stored)
    obtain ⟨wf', woken⟩ := wf.resumeOwnRoom stored
    have unspent : q ∉ s.resumes := fun mem => by
      have spent := once.spent q mem
      rw [← entry.2] at spent
      exact Once.not_spent_of_parked entry.1.2 spent
    have lt : i < s.next := by
      apply wf.lt_of_request
      by_contra other
      simp [(wf.call i).fresh other] at stored
    have resumed : Waking s ({ s with roomWaiters := s.roomWaiters.erase q }.resume q .unit) :=
      { resume_waking q (by simp) { s with roomWaiters := s.roomWaiters.erase q } with }
    have owed' := owed.resumeRoom (l := s.roomWaiters.erase q) (r := .unit) wf entry
    dsimp only
    rw [if_neg (by simpa using unspent)]
    refine passOn ?_ (wf'.modReq lt ((wf'.call i).dropRoom woken) id) fun j head => ?_
    · exact owed'.update lt rfl rfl rfl id fun transit => transit
    · have dropped : Waking _ (Conn.modReq i (fun r => { r with roomCont := none })
          ({ s with roomWaiters := s.roomWaiters.erase q }.resume q .unit)) :=
        .modReq (fun _ => rfl) (fun _ => rfl) (fun _ => rfl) fun _ => rfl
      rw [(resumed.trans dropped).completed]
      exact live j head

/-- A request that waits for its slot is not registered. -/
lemma unregistered (wf : s.Wf) (reg : s.Reg)
    (pc : (s.calls i).pc = .slotWait ∨ (s.calls i).pc = .slotLoop) :
    s.pending.find (s.calls i).req.id = none := by
  have request : (s.calls i).kind = .request := by
    have kind := (wf.call i).kind
    rcases pc with pc | pc <;> rwa [pc] at kind
  rw [Option.eq_none_iff_forall_ne_some]
  intro j found
  obtain ⟨same, place⟩ := reg.entry _ j found
  have running : ∀ o, (s.calls i).pc ≠ .ended o := by rcases pc with pc | pc <;> simp [pc]
  obtain rfl := reg.unique request (wf.registry _ j found) same.symm (reg.nonzero request running)
  rcases pc with pc | pc <;> simp [pc] at place

/-- The deadline of an open request. -/
lemma expire (owed : Owed env 0 s) (wf : s.Wf) (reg : s.Reg) (once : s.Once)
    (request : (s.calls i).kind = .request) (open_ : (s.calls i).req.isCompleted = false)
    (queued : ∀ q, (s.calls i).req.roomCont = some q → q ∈ s.roomWaiters)
    (live : ¬ (s.calls i).SlotParked → ¬ s.NextDead i) : Owed env 0 (s.expire i) := by
  have lt := wf.lt_of_request request
  set e : Throwable := .requestTimeout (s.calls i).req.id (s.calls i).req.timeoutMillis
  have steady := fail_steady i e s
  have failed : (s.fail i e).Wf := wf.fail fun _ => request
  have completed := fail_completed (e := e) (wf.call i)
  set u := ((s.fail i e).unregister (s.calls i).req.id).resumeSlot i
  have wfu : u.Wf := failed.unregister.resumeSlot completed
  have slot := resumeSlot_steady i ((s.fail i e).unregister (s.calls i).req.id)
  have onceu : u.Once := Once.resumeSlot { once.fail (wf.call i) with } (failed.call i)
  change Owed env 0 (u.runRoom i)
  by_cases parked : (s.calls i).SlotParked
  · -- no slot is freed: the request was not registered
    have out : (s.calls i).inTransit = false := by simp [Call.inTransit, parked.2]
    have none : (u.calls i).req.roomCont = none := by
      rw [slot.roomCont, Option.eq_none_iff_forall_ne_some]
      intro q stored
      obtain ⟨_, ⟨p, pc⟩ | ⟨⟨o, pc | pc⟩, _⟩⟩ := (wf.call i).roomCont q
        ((steady.roomCont i).symm.trans stored) <;> simp [parked.1] at pc
    have absent := unregistered wf reg (.inl parked.1)
    rw [Conn.runRoom, none]
    refine wakeOneInFlightWaiter (resumeSlot ?_ failed.unregister) wfu
    refine same (owed.settle wf lt (settles_error e) steady out) rfl rfl ?_
    change (s.fail i e).pending.remove _ = (s.fail i e).pending
    rw [steady.pending, FinMap.remove_of_find_none absent]
  · have absent : i ∉ s.inFlightWaiters := fun mem =>
      (wf.slots.entry i mem).elim parked (by simp [open_])
    have one : Owed env 1 ((s.fail i e).unregister (s.calls i).req.id) := by
      by_cases out : (s.calls i).inTransit
      · have none := unregistered wf reg (Call.inTransit_iff.mp out).1
        refine same (owed.failAny (e := e) wf lt) rfl rfl ?_
        change (s.fail i e).pending.remove _ = (s.fail i e).pending
        rw [steady.pending, FinMap.remove_of_find_none none]
      · exact (owed.settle wf lt (settles_error e) steady (by simpa using out)).unregister
    refine (one.resumeSlot failed.unregister).runRoom wfu onceu ?_ ?_
    · intro q stored
      rw [slot.roomWaiters]
      change q ∈ (s.fail i e).roomWaiters
      rw [steady.roomWaiters]
      rw [slot.roomCont] at stored
      exact queued q ((steady.roomCont i).symm.trans stored)
    · intro j head
      rw [slot.inFlightWaiters] at head
      change (s.fail i e).inFlightWaiters.head? = some j at head
      rw [steady.inFlightWaiters] at head
      have ne : j ≠ i := by
        rintro rfl
        exact absent (List.mem_of_mem_head? head)
      rw [(resumeSlot_waking i _).completed]
      change ((s.fail i e).calls j).req.isCompleted = false
      rw [fail_calls_of_ne (wf.call i) ne]
      exact head_live (live parked) absent j head

/-- The deadline pays for the slot it frees, if the next waiter is alive. -/
lemma run (owed : Owed env 0 s) (wf : s.Wf) (reg : s.Reg) (once : s.Once)
    (armed : (s.calls i).req.armed)
    (queued : (s.calls i).req.isCompleted = false →
      ∀ q, (s.calls i).req.roomCont = some q → q ∈ s.roomWaiters)
    (live : (s.calls i).req.isCompleted = false → ¬ (s.calls i).SlotParked → ¬ s.NextDead i) :
    Owed env 0 (s.run i) := by
  have request := wf.request_of_armed armed
  have lt := wf.lt_of_request request
  have fired : Owed env 0 (s.fire i) := owed.update lt rfl rfl rfl id fun transit => transit
  have same : ((s.fire i).calls i).SlotParked ↔ (s.calls i).SlotParked := by
    simp [fire, modReq, Call.SlotParked]
  unfold Conn.run
  split
  case isTrue => exact fired
  case isFalse open_ =>
    have open_ : (s.calls i).req.isCompleted = false := by simpa using open_
    have fresh : (s.fire i).Once := once.move rfl rfl (.inr ⟨rfl, fun h => h, fun h => h⟩)
    refine fired.expire (wf.fire request) reg.fire fresh ?_ ?_ ?_ ?_
    · simpa [fire, modReq] using request
    · simpa [fire, modReq, Pending.isCompleted] using open_
    · simpa [fire, modReq] using queued open_
    · rw [same]
      rintro parked ⟨j, head, settled⟩
      refine live open_ parked ⟨j, head, ?_⟩
      rw [fire, modReq, modCall_calls] at settled
      split at settled
      case isTrue eq => rw [eq]; exact settled
      case isFalse => exact settled

/-- A response pays for the slot it frees, if the next waiter is alive. -/
lemma onResponse {packet : Packet} (owed : Owed env 0 s) (wf : s.Wf) (reg : s.Reg)
    (opened : s.closed = false) (found : s.pending.find packet.messageId = some i)
    (live : ¬ s.NextDead i) : Owed env 0 (s.onResponse packet) := by
  have request := wf.registry _ i found
  have lt := wf.lt_of_request request
  obtain ⟨_, place⟩ := reg.entry _ i found
  have open_ := reg.live opened _ i found
  have absent : i ∉ s.inFlightWaiters := by
    intro mem
    rcases wf.slots.entry i mem with ⟨pc, _⟩ | settled
    · simp [pc] at place
    · simp [open_] at settled
  have steady := complete_steady i packet (s.unregister packet.messageId)
  rw [Conn.onResponse, found]
  dsimp only
  refine passOn ?_ (wf.unregister.complete request) fun j head => ?_
  · refine owed.unregister.settle wf.unregister lt (settles_response packet) steady ?_
    change (s.calls i).inTransit = false
    exact Call.inTransit_of_pc (fun pc => by simp [pc] at place) fun pc => by simp [pc] at place
  · rw [steady.inFlightWaiters] at head
    change s.inFlightWaiters.head? = some j at head
    have ne : j ≠ i := by
      rintro rfl
      exact absent (List.mem_of_mem_head? head)
    rw [complete_calls_of_ne (s := s.unregister packet.messageId) (wf.call i) ne]
    exact head_live live absent j head

/-- The queue without call `i`, which is over. -/
lemma dispose_live {o : Outcome} (wf : s.Wf) (live : ¬ s.NextDead i) :
    ∀ j, (s.dispose i o).inFlightWaiters.head? = some j →
      ((s.dispose i o).calls j).req.isCompleted = false := by
  intro j head
  change (s.inFlightWaiters.erase i).head? = some j at head
  by_contra settled
  refine live ⟨j, ?_, ?_⟩
  · have test : (fun x : Nat => decide (x ≠ i)) = fun x => x != i := by
      funext x
      by_cases eq : x = i <;> simp [eq]
    rwa [test, ← wf.slots.nodup.erase_eq_filter]
  · rw [Bool.not_eq_false] at settled
    simp only [dispose, modCall_calls] at settled
    split at settled
    case isTrue eq =>
      rw [eq]
      exact settled
    case isFalse => exact settled

/-- The end of a call pays for the slot it frees, if the next waiter is alive. -/
lemma finish {o o' : Outcome} (owed : Owed env 0 s) (wf : s.Wf) (reg : s.Reg)
    (opened : s.closed = false) (pc : (s.calls i).pc = .unwinding o')
    (live : s.Unsettled i → ¬ s.NextDead i) : Owed env 0 (s.finish i o) := by
  have running : ∀ o, (s.calls i).pc ≠ .ended o := by simp [pc]
  have lt := wf.lt_next running
  have out : (s.calls i).inTransit = false := Call.inTransit_of_pc (by simp [pc]) (by simp [pc])
  unfold Conn.finish
  split
  case isTrue request =>
    have ended : Owed env 0 (s.dispose i o) :=
      owed.pass lt rfl rfl rfl (by simp [Call.SlotParked]) out
    dsimp only
    split
    case isTrue registered =>
      obtain ⟨j, found⟩ := Option.isSome_iff_exists.mp registered
      change s.pending.find (s.calls i).req.id = some j at found
      have unsettled : s.Unsettled i := by
        obtain rfl := reg.unique request (wf.registry _ j found) (reg.entry _ j found).1.symm
          (reg.nonzero request running)
        exact ⟨⟨request, found⟩, reg.live opened _ i found, opened⟩
      exact ended.unregister.passOn (wf.dispose pc request).unregister
        (dispose_live wf (live unsettled))
    case isFalse => exact ended
  case isFalse => exact owed.pass lt rfl rfl rfl (by simp [Call.SlotParked]) out

/-- A request refused after it got its slot gives the slot back. -/
lemma slotRefused {e : Throwable} (owed : Owed env 0 s) (wf : s.Wf) (reg : s.Reg)
    (pc : (s.calls i).pc = .slotLoop) (live : (s.calls i).wake ≠ .parked → ¬ s.NextDead i) :
    Owed env 0 ({ s with pending := s.pending.set (s.calls i).req.id i }.unwind i (.threw e)) := by
  have request : (s.calls i).kind = .request := by
    have kind := (wf.call i).kind
    rwa [pc] at kind
  have lt := wf.lt_of_request request
  have absent := unregistered wf reg (.inr pc)
  set u : Conn := { s with pending := s.pending.set (s.calls i).req.id i }
  set v := u.setPc i (.unwinding (.threw e))
  have wfv : v.Wf := wf.refused pc
  have kind : (v.calls i).kind = .request := by simpa [v, u, setPc] using request
  have place : (v.calls i).pc = .unwinding (.threw e) := setPc_pc i _ u
  set w := (v.dispose i (.threw e)).unregister (s.calls i).req.id
  have wfw : w.Wf := (wfv.dispose place kind).unregister
  have finished : u.unwind i (.threw e) = w.wakeOneInFlightWaiter := Wf.unwind_refused request
  have pending : w.pending = s.pending := FinMap.remove_set_of_find_none absent
  have calls : w.calls = Function.update s.calls i { s.calls i with
      pc := .ended (.threw e), req := { (s.calls i).req with armed := false, waiter := none } } := by
    simp [w, v, u, Conn.unregister, dispose, setPc, modCall]
  rw [finished]
  by_cases transit : (s.calls i).inTransit
  · have woken : (s.calls i).wake ≠ .parked := by simp [(Call.inTransit_iff.mp transit).2.1]
    have one : Owed env 1 w := owed.giveUp lt calls rfl pending (by simp [Call.SlotParked])
    refine one.passOn wfw fun j head => ?_
    have dead : ¬ v.NextDead i := by
      rintro ⟨j, head, settled⟩
      refine live woken ⟨j, head, ?_⟩
      simp only [v, setPc, modCall_calls] at settled
      split at settled
      case isTrue eq =>
        rw [eq]
        exact settled
      case isFalse => exact settled
    exact dispose_live wfv dead j head
  · have zero : Owed env 0 w :=
      owed.pass lt calls rfl pending (by simp [Call.SlotParked]) (by simpa using transit)
    exact zero.wakeOneInFlightWaiter wfw

/-- A request takes its slot. -/
lemma register {p : Packet} (owed : Owed env 0 s) (wf : s.Wf) (reg : s.Reg)
    (pc : (s.calls i).pc = .slotLoop) :
    Owed env 0 ({ s with pending := s.pending.set (s.calls i).req.id i }.setPc i (.roomLoop p)) := by
  have lt := wf.lt_next (i := i) (by simp [pc])
  refine owed.of (parked_update (i := i) (c := { s.calls i with pc := .roomLoop p }) rfl
    (by simp [Call.SlotParked])) ?_
  have sum := transit_update (t := s.setPc i (.roomLoop p)) lt rfl rfl
  have one := Bool.toNat_le (s.calls i).inTransit
  have size := FinMap.size_set_of_find_none (v := i) (unregistered wf reg (.inr pc))
  change s.pending.size + s.transit + 0 ≤ (s.pending.set (s.calls i).req.id i).size +
    (s.setPc i (.roomLoop p)).transit + 0
  omega

/-- A new call is parked nowhere. -/
lemma addCall (owed : Owed env k s) (pc : c.pc.waits = false) :
    Owed env k (s.addCall c) := by
  refine owed.of (parked_update (i := s.next) (c := c) rfl ?_) ?_
  · exact fun parked => absurd (.inl parked) (Call.not_queued_of_waits pc)
  · have sum : (s.addCall c).transit = s.transit + c.inTransit.toNat := tally_succ
    change s.pending.size + s.transit + k ≤ s.pending.size + (s.addCall c).transit + k
    omega

/-- The write loop owes nothing. -/
lemma loopNext (owed : Owed env k s) (wf : s.Wf) : Owed env k (s.loopNext env) := by
  have accepted : ∀ (j : Nat) (q : Packet) (outbound : Channel), (j, q) ∈ s.outbound.senders →
      Owed env k ({ s with outbound }.acceptSender j) := by
    intro j q outbound mem
    have parked : (s.calls j).SendParked q := (wf.send.mem (j, q)).mp mem
    have place : (s.calls j).pc ≠ .slotWait ∧ (s.calls j).pc ≠ .slotLoop ∧
        ∀ o, (s.calls j).pc ≠ .ended o := by
      rcases parked.1 with pc | pc <;> simp [pc]
    refine owed.pass (wf.lt_next place.2.2) rfl rfl rfl ?_ (Call.inTransit_of_pc place.1 place.2.1)
    rintro ⟨_, wake⟩
    cases wake
  unfold Conn.loopNext
  split
  case h_1 => exact owed.same rfl rfl rfl
  case h_2 packet rest j q senders _ queue =>
    exact (accepted j q ⟨rest ++ [q], senders⟩ (by simp [queue])).same rfl rfl rfl
  case h_3 j q senders _ queue =>
    exact (accepted j q ⟨s.outbound.buffer, senders⟩ (by simp [queue])).same rfl rfl rfl
  case h_4 => exact owed.same rfl rfl rfl

/-- A step of one call owes nothing, when no wake-up is lost with it. -/
lemma localStep {A : Trigger} (owed : Owed env k s) (wf : s.Wf) (opened : s.closed = false)
    (avoid : ¬ A .slotWakeCancelled) (h : LocalStep A s i (s.calls i) c) :
    Owed env k (s.modCall i fun _ => c) := by
  have idle := (Call.not_queued_of_localStep h).2
  refine owed.update (wf.lt_next (Call.running_of_localStep h)) rfl rfl rfl
    (fun parked => absurd (.inl parked) idle) ?_
  intro transit
  obtain ⟨pc, wake, open_⟩ := Call.inTransit_iff.mp transit
  rw [Call.inTransit_iff]
  cases h with
  | slotRun _ _ => exact ⟨.inr rfl, wake, open_⟩
  | slotSettled _ done => simp [open_] at done
  | slotClosed _ _ closed => simp [opened] at closed
  | cancelSlotWoken _ _ lost => exact absurd (lost open_) avoid
  | _ => simp_all

/-- A request that leaves its `select` owes nothing. -/
lemma abortSelect {p : Packet} {pc' : Pc} (owed : Owed env k s) (wf : s.Wf)
    (pc : (s.calls i).pc = .channelSelect p) (woken : (s.calls i).wake ≠ .parked)
    (waits : pc'.waits = false) : Owed env k ((s.abortSelect i p).setPc i pc') := by
  have kind := (wf.call i).kind
  rw [pc] at kind
  have lt := wf.lt_of_request kind
  have still := ((abortSelect_waking i p s).calls i).pc.trans pc
  have dropped : Owed env k (s.modReq i fun r => { r with gate := false }) :=
    owed.update lt rfl rfl rfl id fun transit => transit
  have released : Owed env k (s.abortSelect i p) :=
    dropped.releaseOutboundBytes (wf.modReq lt ((wf.call i).dropGate woken kind) id)
  have aborted := wf.abortSelect pc woken
  refine released.pass (aborted.lt_next (by simp [still])) rfl rfl rfl ?_
    (Call.inTransit_of_pc (by simp [still]) (by simp [still]))
  exact fun parked => Call.not_queued_of_waits waits (.inl parked)

end Owed

/-- The flaws that lose a wake-up for a slot. -/
def slotFlaw (f : Flaw) : Prop :=
  f = .slotWakeCancelled ∨ f = .slotWakeAbsorbed ∨ f = .doubleResume

/-- Every effect of an open connection that loses no wake-up keeps all slots accounted for. -/
theorem owed_effect {env : Env} {A : Trigger} {s t : Conn} (avoid : ∀ f, slotFlaw f → ¬ A f)
    (wf : s.Wf) (reg : s.Reg) (once : s.Once) (owed : s.closed = false → Owed env 0 s)
    (h : Effect env A s t) : t.closed = false → Owed env 0 t := by
  intro opened'
  have opened : s.closed = false := by
    rcases effect_closed h with same | ⟨opened, _, _⟩
    · exact same ▸ opened'
    · exact opened
  have owed := owed opened
  have absorbed : ¬ A .slotWakeAbsorbed := avoid _ (.inr (.inl rfl))
  -- a call that is neither parked for a slot nor on its way to one goes on
  have passes : ∀ {u : Conn} {i : Nat} {pc : Pc}, u.Wf → Owed env 0 u → (∀ o, (u.calls i).pc ≠ .ended o) →
      (u.calls i).pc ≠ .slotWait → (u.calls i).pc ≠ .slotLoop → pc.waits = false →
      Owed env 0 (u.setPc i pc) := by
    intro u i pc wf owed running wait loop waits
    refine owed.pass (wf.lt_next running) rfl rfl rfl ?_ (Call.inTransit_of_pc wait loop)
    exact fun parked => Call.not_queued_of_waits waits (.inl parked)
  cases h with
  | loc h => exact owed.localStep wf opened (avoid _ (.inl rfl)) h
  | @reject c e id pc _ _ => exact (owed.addCall (c := c) (by simp [pc])).same rfl rfl rfl
  | @startRequest c _ _ _ _ _ pc _ _ _ _ =>
    exact (owed.addCall (c := c) (by simp [pc])).same rfl rfl rfl
  | @startPut c p id _ pc _ _ _ _ _ =>
    exact (owed.addCall (c := c) (by simp [pc])).same rfl rfl rfl
  -- all slots are taken when a request parks
  | slotPark _ _ full _ => exact .of_full full
  -- the slot that was on its way to the request is now its own
  | register pc _ _ _ _ => exact owed.register wf reg pc
  | slotRefused pc _ _ _ _ lost =>
    exact owed.slotRefused wf reg pc fun woken dead => absorbed (lost woken dead)
  | @slotCancelled i pc cancelled =>
    refine owed.pass (wf.lt_next (by simp [pc])) (slotCancelled_calls i _ s) rfl rfl
      (by simp [Call.SlotParked]) ?_
    rcases cancelled with wake | ⟨r, wake⟩ <;> simp [Call.inTransit, wake]
  | @roomPark i p pc _ _ _ =>
    exact owed.pass (wf.lt_next (by simp [pc])) rfl rfl rfl (by simp [Call.SlotParked])
      (Call.inTransit_of_pc (by simp [pc]) (by simp [pc]))
  | @roomCancelled i p pc _ =>
    exact owed.pass (wf.lt_next (by simp [pc])) (roomCancelled_calls i _ s) rfl rfl
      (by simp [Call.SlotParked]) (Call.inTransit_of_pc (by simp [pc]) (by simp [pc]))
  | putQueue pc _ _ _ _ _ =>
    exact passes { wf with } (owed.same rfl rfl rfl) (by simp [pc]) (by simp [pc]) (by simp [pc])
      (Call.afterPut_waits _)
  | putDrain pc _ _ _ _ _ =>
    exact passes { wf with } (owed.same rfl rfl rfl) (by simp [pc]) (by simp [pc]) (by simp [pc])
      (by split <;> rfl)
  | putBuffer pc _ _ _ _ _ _ =>
    exact passes { wf with } (owed.same rfl rfl rfl) (by simp [pc]) (by simp [pc]) (by simp [pc])
      (Call.afterPut_waits _)
  | putHandoff pc _ _ _ _ _ =>
    exact passes { wf with } (owed.same rfl rfl rfl) (by simp [loopSend, encode, pc])
      (by simp [loopSend, encode, pc]) (by simp [loopSend, encode, pc]) (Call.afterPut_waits _)
  | @sendPark i p pc _ _ _ _ _ =>
    exact owed.pass (wf.lt_next (by simp [pc])) rfl rfl rfl (by simp [Call.SlotParked])
      (Call.inTransit_of_pc (by simp [pc]) (by simp [pc]))
  | @selectPark i p pc _ _ _ _ _ _ =>
    exact owed.pass (wf.lt_next (by simp [pc])) rfl rfl rfl (by simp [Call.SlotParked])
      (Call.inTransit_of_pc (by simp [pc]) (by simp [pc]))
  | @drainTake i p rest pc _ _ =>
    set u : Conn := { s with sendQueue := rest }
    have wfu : u.Wf := { wf with }
    have still := ((releaseOutboundBytes_waking (packetBytes p) u).calls i).pc.trans pc
    have released : Owed env 0 (u.releaseOutboundBytes (packetBytes p)) :=
      Owed.releaseOutboundBytes (owed.same rfl rfl rfl) wfu
    exact passes (u := (u.releaseOutboundBytes (packetBytes p)).encode env p)
      { wfu.releaseOutboundBytes with } (released.same rfl rfl rfl) (by simp [encode, still])
      (by simp [encode, still]) (by simp [encode, still]) rfl
  | drainEnd pc _ =>
    exact passes { wf with } (owed.same rfl rfl rfl) (by simp [pc]) (by simp [pc]) (by simp [pc])
      (Call.afterPut_waits _)
  | successorStart pc =>
    exact passes { wf with } (owed.same rfl rfl rfl) (by simp [pc]) (by simp [pc]) (by simp [pc])
      (by split <;> rfl)
  | @handOff i pc _ _ =>
    have running : ∀ o, (s.calls i).pc ≠ .ended o := by rcases pc with pc | pc <;> simp [pc]
    have same : (s.addCall { kind := .successor, pc := .launched }).calls i = s.calls i :=
      wf.addCall_older running
    refine passes wf.launched (owed.addCall rfl) (by rwa [same]) ?_ ?_ rfl
    · rw [same]
      rcases pc with pc | pc <;> simp [pc]
    · rw [same]
      rcases pc with pc | pc <;> simp [pc]
  | writerStop pc _ _ =>
    refine passes { wf with } (owed.same rfl rfl rfl) ?_ ?_ ?_ rfl <;>
      rcases pc with pc | pc <;> simp [pc]
  | transmit _ _ _ => exact owed.same rfl rfl rfl
  | @selectGate i p r pc wake _ =>
    have woken : (s.calls i).wake ≠ .parked := by simp [wake]
    exact owed.abortSelect wf pc woken rfl
  | selectCancelled pc cancelled _ =>
    exact owed.abortSelect wf pc (Wf.not_parked_of_cancelled cancelled) rfl
  | loopFlushing _ _ => exact owed.same rfl rfl rfl
  | loopNext _ => exact (owed.releaseOutboundBytes wf).loopNext wf.releaseOutboundBytes
  | loopRun _ _ => exact owed.loopNext wf
  | loopEnd _ _ => exact owed.same rfl rfl rfl
  | @cancelSlot i pc wake =>
    exact owed.pass (wf.lt_next (by simp [pc])) (cancelSlot_calls i s) rfl rfl
      (by simp [Call.SlotParked]) (by simp [Call.inTransit, wake])
  | @cancelRoom i p pc wake =>
    exact owed.pass (wf.lt_next (by simp [pc])) (cancelRoom_calls i s) rfl rfl
      (by simp [Call.SlotParked]) (by simp [Call.inTransit, wake])
  | cancelSend pc wake _ =>
    exact owed.pass (wf.lt_next (by simp [pc])) rfl rfl rfl (by simp [Call.SlotParked])
      (by simp [Call.inTransit, wake])
  | cancelSelect pc wake =>
    exact owed.pass (wf.lt_next (by simp [pc])) rfl rfl rfl (by simp [Call.SlotParked])
      (by simp [Call.inTransit, wake])
  | finish pc lost =>
    exact owed.finish wf reg opened pc fun unsettled dead => absorbed (lost unsettled dead)
  | deadline _ armed _ _ double lost =>
    -- a deadline that frees a slot passes it on, unless the next waiter is already dead
    refine owed.run wf reg once armed (fun open_ k stored => ?_) fun open_ parked dead => ?_
    · by_contra gone
      exact avoid _ (.inr (.inr rfl)) (double open_ k stored gone)
    · exact absorbed (lost open_ parked dead)
  | response _ _ _ _ found _ lost =>
    exact owed.onResponse wf reg opened found fun dead => absorbed (lost dead)
  | shutdown _ _ => rw [shutdown_closed] at opened'; cases opened'

/-- In every run that loses no wake-up for a slot: when no coroutine can run and a request of the open
connection is still parked for a slot, all slots are taken. -/
theorem slots_taken_of_parked {env : Env} {s : Conn} {i : Nat}
    (run : Runs.Reach (step env) (Avoids slotFlaw env) init s) (opened : s.closed = false)
    (quiescent : s.Quiescent env) (parked : (s.calls i).SlotParked) :
    env.config.maxInFlightRequests ≤ (s.pending.size : Int) := by
  have held : s.Reg ∧ s.Once ∧ (s.closed = false → Owed env 0 s) := by
    refine invariant_of_registry (P := fun s => s.Once ∧ (s.closed = false → Owed env 0 s)) run ?_ ?_
    · refine ⟨⟨.nil, by simp [init]⟩, fun _ i parked => ?_⟩
      simp [init, Call.SlotParked] at parked
    · intro A s t avoid wf reg held eff
      exact ⟨held.1.effect wf (avoid _ (.inr (.inr rfl))) eff,
        owed_effect avoid wf reg held.1 held.2 eff⟩
  have none : s.transit = 0 := by
    refine tally_eq_zero fun j _ => ?_
    have still := quiescent.calls j
    by_contra transit
    obtain ⟨pc | pc, wake, _⟩ := Call.inTransit_iff.mp (by simpa using transit)
    · simp [Call.runnable, pc, wake] at still
    · simp [Call.runnable, pc] at still
  have bound := held.2.2 opened i parked
  rw [none] at bound
  omega

/-- A second request waits while the first holds the only slot. -/
theorem slots_taken_of_parked_second : ∃ s,
    Runs.Reach (step (.tight .channel)) (Avoids slotFlaw (.tight .channel)) init s ∧
      s.closed = false ∧ s.Quiescent (.tight .channel) ∧ (s.calls 1).SlotParked ∧
      (Env.tight .channel).config.maxInFlightRequests ≤ (s.pending.size : Int) := by
  have run : ((Runs.exec (step (.tight .channel)) init [.loopRun, .requestOne, .requestOne]).map
      fun s => (s.closed, (List.range s.next).all fun i => !(s.calls i).runnable,
        (s.loopRun (.tight .channel)).isNone, (s.calls 1).pc, (s.calls 1).wake)) =
      some (false, true, true, .slotWait, .parked) := by decide
  obtain ⟨s, exec, values⟩ := Option.map_eq_some_iff.mp run
  simp only [Prod.mk.injEq] at values
  obtain ⟨opened, made, loop, pc, wake⟩ := values
  have reach : Runs.Reach (step (.tight .channel)) (Avoids slotFlaw (.tight .channel)) init s :=
    Runs.reach_of_exec exec (.of_forall (by simp [Avoids, Flaw.Occurs, Event.requestOne]))
  have quiescent := Quiescent.of_made (Wf.reach reach) made loop
  exact ⟨s, reach, opened, quiescent, ⟨pc, wake⟩,
    slots_taken_of_parked reach opened quiescent ⟨pc, wake⟩⟩

/-- The first waiter is let through by the answer and cancelled before it runs; the slot stays free
and the second waiter is never woken. -/
theorem slots_free_with_parked : ∃ s,
    Runs.Reach (step (.tight .channel)) Runs.always init s ∧ s.closed = false ∧
      s.Quiescent (.tight .channel) ∧ (s.calls 2).SlotParked ∧
      (s.pending.size : Int) < (Env.tight .channel).config.maxInFlightRequests := by
  have run : ((Runs.exec (step (.tight .channel)) init
      [.loopRun, .requestOne, .requestOne, .requestOne, .answer 1, .cancel 1, .dispatch 1,
        .dispatch 0]).map
      fun s => (s.closed, (List.range s.next).all fun i => !(s.calls i).runnable,
        (s.loopRun (.tight .channel)).isNone, (s.calls 2).pc, (s.calls 2).wake, s.pending.size)) =
      some (false, true, true, .slotWait, .parked, 0) := by decide
  obtain ⟨s, exec, values⟩ := Option.map_eq_some_iff.mp run
  simp only [Prod.mk.injEq] at values
  obtain ⟨opened, made, loop, pc, wake, size⟩ := values
  have reach := Runs.reach_always_of_exec exec
  refine ⟨s, reach, opened, Quiescent.of_made (Wf.reach reach) made loop, ⟨pc, wake⟩, ?_⟩
  rw [size]
  decide

end Conn

end MsgTrans
