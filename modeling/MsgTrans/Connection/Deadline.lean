import MsgTrans.Connection.Progress
import MsgTrans.Connection.Registry

/-!
# The deadline of a request

`Pending.run` settles its request, takes it out of the registry and wakes it from whichever of the
connection's waits it is in. Two requests are out of its reach: the one that is the inline writer,
which stays in its socket write, and one that a Response has settled while it waits for room.
-/

namespace MsgTrans

/-- The caller of the request is left at a wait point of `requestOnOwner`: parked in one of the waits
of the connection, or in the socket operation of the inline writer. -/
def Call.Held (c : Call) : Prop :=
  c.SlotParked ∨ c.RoomParked ∨ (∃ p, c.pc = .channelSelect p ∧ c.wake = .parked) ∨
    (c.pc = .await ∧ c.wake = .parked) ∨ c.pc = .socketWrite ∨ c.pc = .socketFlush

/-- The deadline of the call has not fired, or it has released the call. -/
structure Call.Timely (c : Call) : Prop where
  completed : c.req.ran → c.req.isCompleted
  room : c.req.ran → ¬ c.RoomParked
  writing : c.req.ran → c.pc.writing = false

/-- The flaws that leave a request waiting after its deadline. -/
def Flaw.late (f : Flaw) : Prop := f = .writerDeadline ∨ f = .settledDeadline

namespace Call.Timely

variable {A : Trigger} {c c' : Call}

/-- A deadline that fires releases the call, if it has none of the flaws. -/
lemma of_expired (avoid : ∀ f, Flaw.late f → ¬ A f) (h : c.Expired A) : c.Timely where
  completed _ := h.completed
  room _ parked := avoid _ (.inr rfl) (h.room parked)
  writing _ := Bool.eq_false_iff.mpr fun writing => avoid _ (.inl rfl) (h.writing writing)

/-- A call that was released stays so. -/
lemma later (avoid : ∀ f, Flaw.late f → ¬ A f) (timely : c.Timely)
    (request : c.req.ran → c.kind = .request) (h : Call.Later A c c') : c'.Timely := by
  by_cases fired : c.req.ran
  · have completed := timely.completed fired
    refine ⟨fun _ => h.completed completed, fun _ parked => ?_, fun _ => ?_⟩
    · exact timely.room fired (h.room (request fired) completed parked)
    · rw [Bool.eq_false_iff]
      intro writing
      have before := h.writing (request fired) completed writing
      rw [timely.writing fired] at before
      cases before
  · constructor <;> intro ran
    all_goals
      have expired := (h.ran ran).resolve_left fired
      have timely' := of_expired avoid expired
    · exact timely'.completed ran
    · exact timely'.room ran
    · exact timely'.writing ran

end Call.Timely

namespace Conn

/-- Every effect but the two late ones keeps every call timely. -/
lemma timely_effect {env : Env} {A : Trigger} {s t : Conn} (avoid : ∀ f, Flaw.late f → ¬ A f)
    (wf : s.Wf) (timely : ∀ i, (s.calls i).Timely) (h : Effect env A s t) :
    ∀ i, (t.calls i).Timely := by
  intro i
  rcases (Later.effect wf h).calls i with later | ⟨_, new⟩
  · refine (timely i).later avoid (fun fired => ?_) later
    by_contra other
    rw [(wf.call i).fresh other] at fired
    cases fired
  · constructor <;> intro ran
    all_goals have timely' := Call.Timely.of_expired avoid (new.ran ran)
    · exact timely'.completed ran
    · exact timely'.room ran
    · exact timely'.writing ran

/-- In every run in which no deadline fires for a request that is the inline writer, or that a
response settled while it is parked for room, a request whose deadline has fired is not left at any
wait point. -/
theorem not_held_of_ran {env : Env} {s : Conn}
    (run : Runs.Reach (step env) (Avoids Flaw.late env) init s) (i : Nat)
    (ran : (s.calls i).req.ran) : ¬ (s.calls i).Held := by
  have wf : s.Wf := .reach run
  have timely : ∀ i, (s.calls i).Timely := by
    refine invariant_of_effects (P := fun s => ∀ i, (s.calls i).Timely) run ?_ ?_
    · exact fun i => ⟨by simp [init], by simp [init], by simp [init]⟩
    · exact fun A s t avoid wf timely eff => timely_effect avoid wf timely eff
  have completed := (timely i).completed ran
  rintro (slot | room | ⟨p, pc, wake⟩ | ⟨pc, wake⟩ | pc | pc)
  · exact (Reg.reach run).slot i completed slot
  · exact (timely i).room ran room
  · have live := ((wf.call i).selectParked p pc wake).2
    simp [completed] at live
  · have live := ((wf.call i).awaitParked pc wake).2
    simp [completed] at live
  · have idle := (timely i).writing ran
    simp [pc] at idle
  · have idle := (timely i).writing ran
    simp [pc] at idle

/-- A request that waits for room behind two sends is released by its deadline. -/
theorem not_held_of_ran_roomWait : ∃ s,
    Runs.Reach (step (.tight .inline)) (Avoids Flaw.late (.tight .inline)) init s ∧
      (s.calls 2).req.ran ∧ ¬ (s.calls 2).Held := by
  have run : ((Runs.exec (step (.tight .inline)) init [.sendOne, .sendOne, .requestOne]).map
      fun s => ((s.calls 2).pc.writing, (s.calls 2).req.isCompleted, (s.calls 2).req.armed,
        ((s.run 2).calls 2).req.ran)) = some (false, false, true, true) := by decide
  obtain ⟨s, exec, facts⟩ := Option.map_eq_some_iff.mp run
  simp only [Prod.mk.injEq] at facts
  obtain ⟨idle, live, armed, ran⟩ := facts
  have waiting : Runs.Reach (step (.tight .inline)) (Avoids Flaw.late (.tight .inline)) init s :=
    Runs.reach_of_exec exec
      (.of_forall (by simp [Avoids, Flaw.Occurs, Event.sendOne, Event.requestOne]))
  have avoids : Avoids Flaw.late (.tight .inline) s (.deadline 2) := by
    rintro f (rfl | rfl) occurs
    · rw [Flaw.Occurs, idle] at occurs
      cases occurs
    · rw [Flaw.Occurs, live] at occurs
      cases occurs.1
  have fires : step (.tight .inline) s (.deadline 2) = some (s.run 2) := by simp [step, armed]
  have reach := waiting.next avoids fires
  exact ⟨s.run 2, reach, ran, not_held_of_ran reach 2 ran⟩

/-- A request that finds the outbound path free becomes the writer; its deadline leaves it in the
socket write. -/
theorem held_of_ran : ∃ s, Runs.Reach (step (.tight .inline)) Runs.always init s ∧
    (s.calls 0).req.ran ∧ (s.calls 0).Held := by
  have run : ((Runs.exec (step (.tight .inline)) init [.requestOne, .deadline 0]).map
      fun s => ((s.calls 0).req.ran, (s.calls 0).pc)) = some (true, .socketWrite) := by decide
  obtain ⟨s, exec, facts⟩ := Option.map_eq_some_iff.mp run
  simp only [Prod.mk.injEq] at facts
  obtain ⟨ran, pc⟩ := facts
  exact ⟨s, Runs.reach_always_of_exec exec, ran, .inr (.inr (.inr (.inr (.inl pc))))⟩

end Conn

end MsgTrans
