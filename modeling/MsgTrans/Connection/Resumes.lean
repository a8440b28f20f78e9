import MsgTrans.Connection.WellFormed

/-!
# No continuation is resumed twice

Every continuation the connection stores is the current suspension of its call. Once it has been
resumed it is `Spent`: its call has been woken or has suspended anew, and no `Pending` holds it as a
waiter. A spent continuation is never available again, so each is resumed at most once, unless a
deadline finds a room continuation that was resumed and has not run.
-/

namespace MsgTrans

/-- Suspension `n` of the call is over or has been resumed. -/
def Call.Spent (c : Call) (n : Nat) : Prop :=
  n < c.seq ∨ n = c.seq ∧ c.wake ≠ .parked ∧ c.req.waiter = none

/-- What is spent stays spent. -/
def Call.Ahead (c c' : Call) : Prop :=
  c.seq < c'.seq ∨ c'.seq = c.seq ∧ (c.wake ≠ .parked → c'.wake ≠ .parked) ∧
    (c.req.waiter = none → c'.req.waiter = none)

/-- A call that has not moved. -/
lemma Call.Ahead.refl (c : Call) : Call.Ahead c c :=
  .inr ⟨rfl, fun h => h, fun h => h⟩

/-- What is spent stays spent. -/
lemma Call.Ahead.spent {c c' : Call} {n : Nat} (ahead : Call.Ahead c c') (spent : c.Spent n) :
    c'.Spent n := by
  rcases ahead with later | ⟨seq, wake, waiter⟩
  · left
    rcases spent with lt | ⟨eq, _⟩ <;> omega
  · rcases spent with lt | ⟨eq, woken, gone⟩
    · left
      omega
    · exact .inr ⟨by omega, wake woken, waiter gone⟩

/-- Every local step moves ahead. -/
lemma LocalStep.ahead {A : Trigger} {s : Conn} {i : Nat} {c c' : Call}
    (h : LocalStep A s i c c') : Call.Ahead c c' := by
  cases h with
  | awaitPark => exact .inl (Nat.lt_succ_self _)
  | cancelAwait _ _ | cancelSlotWoken _ _ _ | cancelRoomWoken _ _ _ | cancelSendWoken _ _
  | cancelSelectSent _ _ | cancelSelectGate _ _ | cancelAwaitWoken _ _ =>
    exact .inr ⟨rfl, fun _ => by simp, fun h => h⟩
  | _ => exact .inr ⟨rfl, fun h => h, fun h => h⟩

namespace Conn

/-- Every continuation that was resumed is spent, and none was resumed twice. -/
structure Once (s : Conn) : Prop where
  nodup : s.resumes.Nodup
  spent : ∀ k ∈ s.resumes, (s.calls k.call).Spent k.seq

namespace Once

variable {s t : Conn} {i : Nat}

/-- Nothing is resumed and every call moves ahead. -/
lemma keep (once : s.Once) (resumes : t.resumes = s.resumes)
    (ahead : ∀ j, Call.Ahead (s.calls j) (t.calls j)) : t.Once := by
  constructor
  · rw [resumes]
    exact once.nodup
  · intro k mem
    rw [resumes] at mem
    exact (ahead k.call).spent (once.spent k mem)

/-- A live continuation is resumed and is spent from then on. -/
lemma resume {k : Cont} (once : s.Once) (resumes : t.resumes = k :: s.resumes)
    (ahead : ∀ j, Call.Ahead (s.calls j) (t.calls j)) (live : ¬ (s.calls k.call).Spent k.seq)
    (spent : (t.calls k.call).Spent k.seq) : t.Once := by
  constructor
  · rw [resumes, List.nodup_cons]
    exact ⟨fun mem => live (once.spent k mem), once.nodup⟩
  · intro k' mem
    rw [resumes, List.mem_cons] at mem
    rcases mem with rfl | mem
    · exact spent
    · exact (ahead k'.call).spent (once.spent k' mem)

/-- One call goes on. -/
lemma ahead_update {c : Call} (calls : t.calls = Function.update s.calls i c)
    (h : Call.Ahead (s.calls i) c) (j : Nat) :
    Call.Ahead (s.calls j) (t.calls j) := by
  rw [calls]
  by_cases eq : j = i
  · subst eq
    simpa using h
  · simpa [eq] using Call.Ahead.refl _

/-- One record changes and nothing is resumed. -/
lemma move {c : Call} (once : s.Once) (resumes : t.resumes = s.resumes)
    (calls : t.calls = Function.update s.calls i c) (h : Call.Ahead (s.calls i) c) : t.Once :=
  once.keep resumes (ahead_update calls h)

/-- A parked continuation is live. -/
lemma not_spent_of_parked {c : Call} (parked : c.wake = .parked) : ¬ c.Spent c.seq := by
  rintro (lt | ⟨_, woken, _⟩)
  · omega
  · exact woken parked

/-! ## Waking and settling -/

/-- A queued room waiter is resumed, and dequeued with it. -/
lemma resumeRoom {k : Cont} {l : List Cont} {r : Resumption} (once : s.Once) (wf : s.Wf)
    (entry : RoomEntry s.calls k) : Once ({ s with roomWaiters := l }.resume k r) := by
  obtain ⟨⟨⟨p, pc⟩, wake⟩, seq⟩ := entry
  rw [resume_room (s := { s with roomWaiters := l }) ⟨⟨⟨p, pc⟩, wake⟩, seq⟩]
  have none : (s.calls k.call).req.waiter = none := by
    rw [Option.eq_none_iff_forall_ne_some]
    intro k' stored
    obtain ⟨_, ⟨eq, _⟩ | ⟨⟨o, eq⟩, _⟩⟩ := (wf.call k.call).waiter k' stored <;> simp [pc] at eq
  refine once.resume rfl (ahead_update rfl (.inr ⟨rfl, fun _ => by simp, fun h => h⟩)) ?_ ?_
  · rw [← seq]
    exact not_spent_of_parked wake
  · exact .inr ⟨by simp [seq], by simp, by simpa using none⟩

/-- `wakeOneRoomWaiter` resumes nobody twice. -/
lemma wakeOneRoomWaiter (once : s.Once) (wf : s.Wf) : s.wakeOneRoomWaiter.Once := by
  unfold Conn.wakeOneRoomWaiter
  split
  case h_1 => exact once
  case h_2 k ks queue => exact once.resumeRoom wf ((wf.room.mem k).mp (by simp [queue]))

/-- A release resumes nobody twice. -/
lemma releaseOutboundBytes {bytes : Int} (once : s.Once) (wf : s.Wf) :
    (s.releaseOutboundBytes bytes).Once := by
  unfold Conn.releaseOutboundBytes
  exact wakeOneRoomWaiter { once with } { wf with }

/-- A queued slot waiter is resumed at most once. -/
lemma resumeSlot (once : s.Once) (wf : (s.calls i).Wf i) : (s.resumeSlot i).Once := by
  by_cases parked : (s.calls i).SlotParked
  · rw [resumeSlot_parked wf parked]
    have none : (s.calls i).req.waiter = none := by
      rw [Option.eq_none_iff_forall_ne_some]
      intro k stored
      obtain ⟨_, ⟨eq, _⟩ | ⟨⟨o, eq⟩, _⟩⟩ := wf.waiter k stored <;> simp [parked.1] at eq
    refine once.resume rfl (ahead_update rfl (.inr ⟨rfl, fun _ => by simp, fun h => h⟩)) ?_ ?_
    · exact not_spent_of_parked parked.2
    · exact .inr ⟨by simp, by simp, by simpa using none⟩
  · rwa [resumeSlot_idle wf parked]

/-- `wakeOneInFlightWaiter` resumes nobody twice. -/
lemma wakeOneInFlightWaiter (once : s.Once) (wf : s.Wf) : s.wakeOneInFlightWaiter.Once := by
  unfold Conn.wakeOneInFlightWaiter
  split
  case h_1 => exact once
  case h_2 i is _ => exact resumeSlot (s := { s with inFlightWaiters := is }) { once with } (wf.call i)

/-- Settling a request resumes its waiter, and forgets it. -/
lemma settle {store : Pending → Pending} {r : Resumption} (once : s.Once) (wf : (s.calls i).Wf i)
    (st : Call.Settles store) : (s.settle i store r).Once := by
  by_cases live : (s.calls i).req.isCompleted
  · rwa [Conn.settle, if_pos live]
  have same : (store (s.calls i).req).waiter = (s.calls i).req.waiter := by rw [st.only]
  have form := settle_form (r := r) wf st (by simpa using live)
  generalize s.settle i store r = t at form
  cases form with
  | select _ _ =>
    refine once.move rfl rfl (.inr ⟨rfl, fun _ => by simp, fun h => ?_⟩)
    exact same.trans h
  | @waiter k stored =>
    obtain ⟨rfl, place⟩ := wf.waiter k stored
    have seq : ∀ c : Call, (c.resumed c.seq r).seq = c.seq ∧ (c.resumed c.seq r).wake ≠ .parked := by
      intro c
      unfold Call.resumed
      split
      · simp
      · simp_all
    obtain ⟨eq, woken⟩ := seq (s.calls i)
    refine once.resume rfl (ahead_update rfl (.inr ⟨eq, fun _ => woken, fun _ => rfl⟩)) ?_ ?_
    · rintro (lt | ⟨_, _, gone⟩)
      · exact lt_irrefl _ lt
      · simp [stored] at gone
    · exact .inr ⟨by simp [eq], by simpa using woken, by simp⟩
  | plain _ _ =>
    refine once.move rfl rfl (.inr ⟨rfl, fun h => h, fun h => ?_⟩)
    exact same.trans h

/-- `Pending.fail` resumes nobody twice. -/
lemma fail {e : Throwable} (once : s.Once) (wf : (s.calls i).Wf i) : (s.fail i e).Once :=
  once.settle wf (settles_error e)

/-- A deadline whose room continuation is still in the queue resumes it for the first time. -/
lemma runRoom (once : s.Once) (wf : s.Wf)
    (queued : ∀ k, (s.calls i).req.roomCont = some k → k ∈ s.roomWaiters) : (s.runRoom i).Once := by
  unfold Conn.runRoom
  split
  case h_1 => exact once.wakeOneInFlightWaiter wf
  case h_2 k stored =>
    have entry := (wf.room.mem k).mp (queued k stored)
    obtain ⟨wf', woken⟩ := wf.resumeOwnRoom stored
    have resumed : Once ({ s with roomWaiters := s.roomWaiters.erase k }.resume k .unit) :=
      once.resumeRoom wf entry
    have lt : i < s.next := by
      apply wf.lt_of_request
      by_contra other
      simp [(wf.call i).fresh other] at stored
    dsimp only
    split
    case isTrue => exact resumed
    case isFalse =>
      refine wakeOneInFlightWaiter ?_ (wf'.modReq lt ((wf'.call i).dropRoom woken) id)
      exact resumed.move rfl rfl (.inr ⟨rfl, fun h => h, fun h => h⟩)

/-- The deadline resumes nobody twice. -/
lemma expire (once : s.Once) (wf : s.Wf) (request : (s.calls i).kind = .request)
    (queued : ∀ k, (s.calls i).req.roomCont = some k → k ∈ s.roomWaiters) : (s.expire i).Once := by
  unfold Conn.expire
  dsimp only
  set e : Throwable := .requestTimeout (s.calls i).req.id (s.calls i).req.timeoutMillis
  have failed : (s.fail i e).Wf := wf.fail fun _ => request
  have steady := fail_steady i e s
  have slot := resumeSlot_steady i ((s.fail i e).unregister (s.calls i).req.id)
  refine runRoom (resumeSlot ?_ (failed.call i)) (failed.unregister.resumeSlot
    (fail_completed (wf.call i))) ?_
  · exact { once.fail (wf.call i) with }
  · intro k stored
    rw [slot.roomWaiters]
    change k ∈ (s.fail i e).roomWaiters
    rw [steady.roomWaiters]
    rw [slot.roomCont] at stored
    change ((s.fail i e).calls i).req.roomCont = some k at stored
    rw [steady.roomCont] at stored
    exact queued k stored

/-- The deadline's callback resumes nobody twice. -/
lemma run (once : s.Once) (wf : s.Wf) (armed : (s.calls i).req.armed)
    (queued : (s.calls i).req.isCompleted = false →
      ∀ k, (s.calls i).req.roomCont = some k → k ∈ s.roomWaiters) : (s.run i).Once := by
  have request := wf.request_of_armed armed
  have fired : (s.fire i).Once := once.move rfl rfl (.inr ⟨rfl, fun h => h, fun h => h⟩)
  unfold Conn.run
  split
  case isTrue => exact fired
  case isFalse live =>
    refine fired.expire (wf.fire request) (by simpa [fire, modReq] using request) ?_
    simpa [fire, modReq] using queued (by simpa using live)

/-- A response resumes nobody twice. -/
lemma onResponse {packet : Packet} (once : s.Once) (wf : s.Wf) : (s.onResponse packet).Once := by
  unfold Conn.onResponse
  split
  case h_1 => exact once
  case h_2 i found =>
    refine wakeOneInFlightWaiter ?_ (wf.unregister.complete (wf.registry _ _ found))
    exact settle (s := s.unregister _) { once with } (wf.call i) (settles_response packet)

/-- Cancelling a call resumes nothing. -/
lemma cancel (once : s.Once) (h : s.cancel i = some t) : t.Once := by
  unfold Conn.cancel at h
  split at h <;> cases h
  case h_1 => exact once.move rfl (cancelSlot_calls i s) (.inr ⟨rfl, fun _ => by simp, fun h => h⟩)
  case h_2 => exact once.move rfl (cancelRoom_calls i s) (.inr ⟨rfl, fun _ => by simp, fun h => h⟩)
  all_goals exact once.move rfl rfl (.inr ⟨rfl, fun _ => by simp, fun h => h⟩)

/-- Cancelling the handler's response resumes no continuation. -/
lemma cancelResponse (once : s.Once) (i : Nat) : (s.cancelResponse i).Once := by
  rcases s.cancelResponse_cases i with same | ⟨_, cancelled⟩
  · rwa [same]
  · exact once.cancel cancelled

/-- `shutdown` resumes nobody twice. -/
lemma shutdown (once : s.Once) (wf : s.Wf) : s.shutdown.Once := by
  cases opened : s.closed with
  | true => rwa [Conn.shutdown, if_pos opened]
  | false =>
    refine (wf.shutdown_rule (P := Once) { once with } ?_ ?_ ?_ ?_ ?_ ?_ opened).2
    · exact fun s id i wf _ once => once.fail (wf.call i)
    · exact fun s once => { once with }
    · exact fun s once => { once with }
    · exact fun s k ks wf queue once => once.resumeRoom wf ((wf.room.mem k).mp (by simp [queue]))
    · intro s i is wf queue once
      have failed := wf.fail (e := closedException) (wf.request_of_slot (i := i) (by simp [queue]))
      exact resumeSlot { once.fail (wf.call i) with } (failed.call i)
    · exact fun s i _ once => once.cancelResponse i

/-! ## Effects -/

/-- The end of a call resumes nobody twice. -/
lemma finish {o o' : Outcome} (once : s.Once) (wf : s.Wf) (pc : (s.calls i).pc = .unwinding o') :
    (s.finish i o).Once := by
  unfold Conn.finish
  split
  case isTrue request =>
    have ended : (s.dispose i o).Once := once.move rfl rfl (.inr ⟨rfl, fun h => h, fun _ => rfl⟩)
    dsimp only
    split
    case isTrue =>
      exact wakeOneInFlightWaiter { ended with } (wf.dispose pc request).unregister
    case isFalse => exact ended
  case isFalse => exact once.move rfl rfl (.inr ⟨rfl, fun h => h, fun h => h⟩)

/-- A new call has been resumed never. -/
lemma addCall {c : Call} (once : s.Once) (wf : s.Wf) : (s.addCall c).Once := by
  refine ⟨once.nodup, fun k mem => ?_⟩
  have spent := once.spent k mem
  rw [addCall_calls]
  split
  case isTrue eq =>
    -- nobody has been resumed at an index that is not in use
    rw [wf.fresh k.call (by omega)] at spent
    rcases spent with lt | ⟨_, woken, _⟩
    · exact absurd lt (Nat.not_lt_zero _)
    · exact absurd rfl woken
  case isFalse => exact spent

/-- The write loop resumes nobody twice. -/
lemma loopNext {env : Env} (once : s.Once) : (s.loopNext env).Once := by
  have accepted : ∀ (j : Nat) (outbound : Channel),
      Once ({ s with outbound }.acceptSender j) := fun j outbound =>
    once.move rfl rfl (.inr ⟨rfl, fun _ => by simp, fun h => h⟩)
  unfold Conn.loopNext
  split
  case h_1 => exact { once with }
  case h_2 packet rest j q senders _ _ => exact { accepted j ⟨rest ++ [q], senders⟩ with }
  case h_3 j q senders _ _ => exact { accepted j ⟨s.outbound.buffer, senders⟩ with }
  case h_4 => exact { once with }

/-- A request that leaves its `select` resumes nobody twice. -/
lemma abortSelect {p : Packet} (once : s.Once) (wf : s.Wf) (pc : (s.calls i).pc = .channelSelect p)
    (woken : (s.calls i).wake ≠ .parked) : (s.abortSelect i p).Once := by
  have request := (wf.call i).kind
  rw [pc] at request
  have dropped : (s.modReq i fun r => { r with gate := false }).Once :=
    once.move rfl rfl (.inr ⟨rfl, fun h => h, fun h => h⟩)
  refine dropped.releaseOutboundBytes (wf.modReq (wf.lt_of_request request) ?_ id)
  exact (wf.call i).dropGate woken request

/-- Every effect keeps the resumptions single, unless it is a deadline that resumes twice. -/
theorem effect {env : Env} {A : Trigger} (once : s.Once) (wf : s.Wf)
    (avoid : ¬ A .doubleResume) (h : Effect env A s t) : t.Once := by
  -- moving a call keeps its suspension
  have moved : ∀ {s : Conn} {i : Nat} {pc : Pc}, s.Once → (s.setPc i pc).Once := fun once =>
    once.move rfl rfl (.inr ⟨rfl, fun h => h, fun h => h⟩)
  have slotDropped : ∀ i, (s.onSlotCancelled i).Once := fun i =>
    once.move rfl rfl (.inr ⟨rfl, fun h => h, fun h => h⟩)
  have roomDropped : ∀ i, (s.onRoomCancelled i).Once := fun i =>
    once.move rfl rfl (.inr ⟨rfl, fun h => h, fun h => h⟩)
  cases h with
  | loc h => exact once.move rfl rfl h.ahead
  | reject _ _ _ => exact addCall { once with } { wf with }
  | startRequest _ _ _ _ _ _ _ _ _ => exact addCall { once with } { wf with }
  | startPut _ _ _ _ _ _ _ => exact addCall { once with } { wf with }
  | slotPark _ _ _ _ => exact once.move rfl rfl (.inl (Nat.lt_succ_self _))
  | register _ _ _ _ _ => exact moved { once with }
  | @slotRefused i e pc _ _ _ _ _ =>
    exact finish (moved { once with }) (wf.refused pc) (setPc_pc _ _ _)
  | slotCancelled _ _ => exact moved (slotDropped _)
  | roomPark _ _ _ _ => exact once.move rfl rfl (.inl (Nat.lt_succ_self _))
  | roomCancelled _ _ => exact moved (roomDropped _)
  | putQueue _ _ _ _ _ _ => exact moved { once with }
  | putDrain _ _ _ _ _ _ => exact moved { once with }
  | putBuffer _ _ _ _ _ _ _ => exact moved { once with }
  | putHandoff _ _ _ _ _ _ => exact moved { once with }
  | sendPark _ _ _ _ _ _ => exact once.move rfl rfl (.inl (Nat.lt_succ_self _))
  | selectPark _ _ _ _ _ _ _ => exact once.move rfl rfl (.inl (Nat.lt_succ_self _))
  | @drainTake i p rest _ _ _ =>
    have queue : Once { s with sendQueue := rest } := { once with }
    exact moved { queue.releaseOutboundBytes { wf with } with }
  | drainEnd _ _ => exact moved { once with }
  | successorStart _ => exact moved { once with }
  | handOff _ _ _ => exact moved (once.addCall wf)
  | writerStop _ _ _ => exact moved { once with }
  | transmit _ _ _ => exact { once with }
  | selectGate pc wake _ => exact moved (once.abortSelect wf pc (by simp [wake]))
  | selectCancelled pc cancelled _ =>
    exact moved (once.abortSelect wf pc (Wf.not_parked_of_cancelled cancelled))
  | loopFlushing _ _ => exact { once with }
  | loopNext _ => exact (once.releaseOutboundBytes wf).loopNext
  | loopRun _ _ => exact once.loopNext
  | loopEnd _ _ => exact { once with }
  | cancelSlot _ _ => exact (slotDropped _).move rfl rfl (.inr ⟨rfl, fun _ => by simp, fun h => h⟩)
  | cancelRoom _ _ => exact (roomDropped _).move rfl rfl (.inr ⟨rfl, fun _ => by simp, fun h => h⟩)
  | cancelSend _ _ _ => exact once.move rfl rfl (.inr ⟨rfl, fun _ => by simp, fun h => h⟩)
  | cancelSelect _ _ => exact once.move rfl rfl (.inr ⟨rfl, fun _ => by simp, fun h => h⟩)
  | finish pc _ => exact once.finish wf pc
  | deadline _ armed _ _ double _ =>
    refine once.run wf armed fun live k stored => ?_
    by_contra gone
    exact avoid (double live k stored gone)
  | response _ _ _ _ _ _ _ => exact once.onResponse wf
  | shutdown _ _ => exact once.shutdown wf

end Once

/-- In every run in which no deadline fires for a request whose room continuation has been resumed
and has not run yet, no continuation is resumed twice. -/
theorem resumes_nodup {env : Env} {s : Conn}
    (run : Runs.Reach (step env) (Avoids (· = .doubleResume) env) init s) : s.resumes.Nodup := by
  have once : s.Once := by
    refine invariant_of_effects run ⟨.nil, by simp [init]⟩ fun A s t avoid wf once eff => ?_
    exact once.effect wf (avoid _ rfl) eff
  exact once.nodup

/-- A run in which a room waiter is resumed and runs. -/
theorem resumes_nodup_roomWaiter : ∃ s,
    Runs.Reach (step (.tight .inline)) (Avoids (· = .doubleResume) (.tight .inline)) init s ∧
      s.resumes = [⟨2, 1⟩] ∧ s.resumes.Nodup := by
  have run : ((Runs.exec (step (.tight .inline)) init
      [.sendOne, .sendOne, .requestOne, .transmit 0 17, .write 0 .ok, .flush 0 .ok,
        .dispatch 2]).map fun s => s.resumes) = some [⟨2, 1⟩] := by decide
  obtain ⟨s, exec, resumed⟩ := Option.map_eq_some_iff.mp run
  have reach : Runs.Reach (step (.tight .inline)) (Avoids (· = .doubleResume) (.tight .inline)) init s :=
    Runs.reach_of_exec exec
      (.of_forall (by simp [Avoids, Flaw.Occurs, Event.sendOne, Event.requestOne]))
  exact ⟨s, reach, resumed, resumes_nodup reach⟩

/-- A writer that takes a packet resumes a request waiting for room; the request's deadline fires
before it runs and resumes the same continuation again. -/
theorem resumes_not_nodup : ∃ s, Runs.Reach (step (.tight .inline)) Runs.always init s ∧
    ¬ s.resumes.Nodup := by
  have run : ((Runs.exec (step (.tight .inline)) init
      [.sendOne, .sendOne, .requestOne, .transmit 0 17, .write 0 .ok, .flush 0 .ok,
        .deadline 2]).map fun s => decide s.resumes.Nodup) = some false := by decide
  obtain ⟨s, exec, twice⟩ := Option.map_eq_some_iff.mp run
  exact ⟨s, Runs.reach_always_of_exec exec, of_decide_eq_false twice⟩

end Conn

end MsgTrans
