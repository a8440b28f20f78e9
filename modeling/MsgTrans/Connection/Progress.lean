import MsgTrans.Connection.WellFormed

/-!
# What becomes of a call

How the record of one call can change along a run, whatever the others do: its arguments and its id
stay, a settled request keeps its result, only a Response gives it one, a call that is over stays
over, and a request that is settled neither parks for room nor becomes the writer again.
-/

namespace MsgTrans

/-- The call is leaving, or has left, with a payload. -/
@[simp] def Pc.returns : Pc → Bool
  | .unwinding (.returned _) | .ended (.returned _) => true
  | _ => false

namespace Call

/-- The deadline has fired for the request: it is settled, and it is neither parked for room nor the
writer but for the flaws of the step. -/
structure Expired (A : Trigger) (c : Call) : Prop where
  request : c.kind = .request
  completed : c.req.isCompleted
  room : c.RoomParked → A .settledDeadline
  writing : c.pc.writing → A .writerDeadline

/-- The call is leaving, or has left, with the payload `x`. -/
def Returns (c : Call) (x : KBytes) : Prop :=
  c.pc = .unwinding (.returned x) ∨ c.pc = .ended (.returned x)

/-- A call that returns is at a place where it returns. -/
lemma Returns.returns {c : Call} {x : KBytes} (h : c.Returns x) : c.pc.returns := by
  rcases h with pc | pc <;> simp [pc]

/-- The call was woken with, or returns, the response that its `Pending` stores. -/
structure Faithful (c : Call) : Prop where
  packet : ∀ p, c.wake = .resumed (.packet p) → c.req.response = some p
  returns : ∀ x, c.Returns x → ∃ p, c.req.response = some p ∧ p.payload = x

/-- Only the place of the call, its suspension and its stored continuations have changed. -/
structure Moved (c c' : Call) : Prop where
  kind : c'.kind = c.kind
  payload : c'.payload = c.payload
  bizType : c'.bizType = c.bizType
  id : c'.req.id = c.req.id
  response : c'.req.response = c.req.response
  error : c'.req.error = c.req.error
  ran : c'.req.ran = c.req.ran

/-- `c'` is the call `c` at a later time. -/
structure Later (A : Trigger) (c c' : Call) : Prop where
  kind : c'.kind = c.kind
  payload : c'.payload = c.payload
  bizType : c'.bizType = c.bizType
  id : c'.req.id = c.req.id
  settled : c.req.isCompleted →
    c'.req.response = c.req.response ∧ c'.req.error = c.req.error
  answered : (∀ p, A.event ≠ .response p) → c'.req.response = c.req.response
  ended : ∀ o, c.pc = .ended o → c'.pc = .ended o
  room : c.kind = .request → c.req.isCompleted → c'.RoomParked → c.RoomParked
  writing : c.kind = .request → c.req.isCompleted → c'.pc.writing → c.pc.writing
  ran : c'.req.ran → c.req.ran ∨ c'.Expired A
  packet : ∀ p, c'.wake = .resumed (.packet p) →
    c.wake = .resumed (.packet p) ∨ c'.req.response = some p
  returns : ∀ x, c'.Returns x →
    c.Returns x ∨ ∃ p, (c.wake = .resumed (.packet p) ∨ c'.req.response = some p) ∧ p.payload = x

/-- A call that did not exist before the step. -/
structure New (A : Trigger) (c : Call) : Prop where
  answered : (∀ p, A.event ≠ .response p) → c.req.response = none
  ran : c.req.ran → c.Expired A
  faithful : c.Faithful

namespace Later

variable {A : Trigger} {c c' c'' : Call}

/-- A call is later than itself. -/
lemma refl (c : Call) : Later A c c where
  kind := rfl
  payload := rfl
  bizType := rfl
  id := rfl
  settled _ := ⟨rfl, rfl⟩
  answered _ := rfl
  ended _ h := h
  room _ _ h := h
  writing _ _ h := h
  ran h := .inl h
  packet _ h := .inl h
  returns _ h := .inl h

/-- A settled request stays settled. -/
lemma completed (h : Later A c c') (settled : c.req.isCompleted) : c'.req.isCompleted := by
  obtain ⟨response, error⟩ := h.settled settled
  rwa [Pending.isCompleted, response, error]

/-- An expired request stays expired. -/
lemma expired (h : Later A c c') (expired : c.Expired A) : c'.Expired A where
  request := h.kind.trans expired.request
  completed := h.completed expired.completed
  room parked := expired.room (h.room expired.request expired.completed parked)
  writing writing := expired.writing (h.writing expired.request expired.completed writing)

/-- A stored response stays. -/
lemma response (h : Later A c c') {p : Packet} (stored : c.req.response = some p) :
    c'.req.response = some p := by
  rw [(h.settled (by simp [Pending.isCompleted, stored])).1, stored]

/-- A call that returns what it was answered goes on to do so. -/
lemma faithful (h : Later A c c') (faithful : c.Faithful) : c'.Faithful where
  packet p woken := by
    rcases h.packet p woken with before | stored
    · exact h.response (faithful.packet p before)
    · exact stored
  returns x out := by
    rcases h.returns x out with before | ⟨p, woken | stored, same⟩
    · obtain ⟨p, stored, same⟩ := faithful.returns x before
      exact ⟨p, h.response stored, same⟩
    · exact ⟨p, h.response (faithful.packet p woken), same⟩
    · exact ⟨p, stored, same⟩

/-- A call that is new stays so over the step that makes it. -/
lemma new (h : Later A c c') (new : c.New A) : c'.New A where
  answered other := (h.answered other).trans (new.answered other)
  ran ran := by
    rcases h.ran ran with before | expired
    · exact h.expired (new.ran before)
    · exact expired
  faithful := h.faithful new.faithful

/-- Being later composes. -/
lemma trans (h : Later A c c') (h' : Later A c' c'') : Later A c c'' where
  kind := h'.kind.trans h.kind
  payload := h'.payload.trans h.payload
  bizType := h'.bizType.trans h.bizType
  id := h'.id.trans h.id
  settled settled := by
    obtain ⟨response, error⟩ := h.settled settled
    obtain ⟨response', error'⟩ := h'.settled (h.completed settled)
    exact ⟨response'.trans response, error'.trans error⟩
  answered other := (h'.answered other).trans (h.answered other)
  ended o ended := h'.ended o (h.ended o ended)
  room request settled parked :=
    h.room request settled (h'.room (h.kind.trans request) (h.completed settled) parked)
  writing request settled writing :=
    h.writing request settled (h'.writing (h.kind.trans request) (h.completed settled) writing)
  ran ran := by
    rcases h'.ran ran with ran' | expired
    · exact (h.ran ran').imp_right h'.expired
    · exact .inr expired
  packet p woken := by
    rcases h'.packet p woken with before | stored
    · exact (h.packet p before).imp_right h'.response
    · exact .inr stored
  returns x out := by
    rcases h'.returns x out with before | ⟨p, woken | stored, same⟩
    · exact (h.returns x before).imp_right fun ⟨p, h₁, same⟩ => ⟨p, h₁.imp_right h'.response, same⟩
    · exact .inr ⟨p, (h.packet p woken).imp_right h'.response, same⟩
    · exact .inr ⟨p, .inr stored, same⟩

/-- A call that has only been woken. -/
lemma of_frame (frame : Call.Frame c c')
    (settled : c.req.isCompleted → c'.req.response = c.req.response ∧ c'.req.error = c.req.error)
    (answered : (∀ p, A.event ≠ .response p) → c'.req.response = c.req.response)
    (ran : c'.req.ran → c.req.ran ∨ c'.Expired A)
    (packet : ∀ p, c'.wake = .resumed (.packet p) →
      c.wake = .resumed (.packet p) ∨ c'.req.response = some p) : Later A c c' where
  kind := frame.kind
  payload := frame.payload
  bizType := frame.bizType
  id := frame.id
  settled := settled
  answered := answered
  ended _ ended := frame.pc.trans ended
  room _ _ parked := ⟨frame.pc ▸ parked.1, frame.parked parked.2⟩
  writing _ _ writing := frame.pc ▸ writing
  ran := ran
  packet := packet
  returns x out := .inl (by rwa [Returns, frame.pc] at out)

/-- A call that goes on to another place with the result it has. -/
lemma move (moved : Moved c c') (running : ∀ o, c.pc ≠ .ended o)
    (room : c.kind = .request → c.req.isCompleted → ¬ c'.RoomParked)
    (writing : c.kind = .request → c.req.isCompleted → c'.pc.writing → c.pc.writing)
    (packet : ∀ p, c'.wake = .resumed (.packet p) → c.wake = .resumed (.packet p))
    (returns : ∀ x, c'.Returns x → c.Returns x) : Later A c c' where
  kind := moved.kind
  payload := moved.payload
  bizType := moved.bizType
  id := moved.id
  settled _ := ⟨moved.response, moved.error⟩
  answered _ := moved.response
  ended o ended := absurd ended (running o)
  room request settled parked := absurd parked (room request settled)
  writing := writing
  ran fired := .inl (moved.ran ▸ fired)
  packet p woken := .inl (packet p woken)
  returns x out := .inl (returns x out)

/-- What a coroutine does to its own record is later. -/
lemma localStep {s : Conn} {i : Nat} (h : LocalStep A s i c c') : Later A c c' where
  kind := by cases h <;> rfl
  payload := by cases h <;> rfl
  bizType := by cases h <;> rfl
  id := by cases h <;> rfl
  settled _ := by cases h <;> exact ⟨rfl, rfl⟩
  answered _ := by cases h <;> rfl
  ended o ended := by cases h <;> simp_all
  room _ _ parked := absurd (.inr (.inl parked)) (Call.not_queued_of_localStep h).2
  writing _ _ writing := by cases h <;> simp_all
  ran ran := by cases h <;> exact .inl ran
  packet p woken := by cases h <;> simp_all
  returns x out := by
    cases h with
    | @awaitReturn p _ stored =>
      refine .inr ⟨p, .inr stored, ?_⟩
      rcases out with pc | pc <;> simp_all
    | @awaitRun p _ woken =>
      refine .inr ⟨p, .inl woken, ?_⟩
      rcases out with pc | pc <;> simp_all
    | cancelAwait pc _ | cancelSlotWoken pc _ _ | cancelRoomWoken pc _ _ | cancelSendWoken pc _
    | cancelSelectSent pc _ | cancelSelectGate pc _ | cancelAwaitWoken pc _ =>
      simp [Returns, pc] at out
    | _ => simp [Returns] at out

end Later

end Call

namespace Conn

/-- `t` is a later state of the connection. -/
structure Later (A : Trigger) (s t : Conn) : Prop where
  next : s.next ≤ t.next
  calls : ∀ i, Call.Later A (s.calls i) (t.calls i) ∨ s.next ≤ i ∧ (t.calls i).New A

namespace Later

variable {A : Trigger} {s t u : Conn} {i : Nat}

/-- A connection is later than itself. -/
lemma refl (s : Conn) : Later A s s :=
  ⟨le_rfl, fun _ => .inl (.refl _)⟩

/-- Being later composes. -/
lemma trans (h : Later A s t) (h' : Later A t u) : Later A s u := by
  refine ⟨Nat.le_trans h.next h'.next, fun i => ?_⟩
  rcases h'.calls i with later' | ⟨ge, new⟩
  · rcases h.calls i with later | ⟨ge, new⟩
    · exact .inl (later.trans later')
    · exact .inr ⟨ge, later'.new new⟩
  · exact .inr ⟨Nat.le_trans h.next ge, new⟩

/-- A call that has been made. -/
lemma call (h : Later A s t) (lt : i < s.next) : Call.Later A (s.calls i) (t.calls i) := by
  rcases h.calls i with later | ⟨ge, _⟩
  · exact later
  · omega

/-- One call goes on. -/
lemma update {c : Call} (next : t.next = s.next) (calls : t.calls = Function.update s.calls i c)
    (later : Call.Later A (s.calls i) c) : Later A s t := by
  refine ⟨Nat.le_of_eq next.symm, fun j => .inl ?_⟩
  rw [calls]
  by_cases eq : j = i
  · subst eq
    simpa using later
  · simpa [eq] using Call.Later.refl _

/-- A change of the connection's own fields. -/
lemma same (next : t.next = s.next) (calls : t.calls = s.calls) : Later A s t :=
  ⟨Nat.le_of_eq next.symm, fun _ => .inl (calls ▸ .refl _)⟩

/-- A new call that was told nothing yet. -/
lemma addCall {c : Call} (response : c.req.response = none) (ran : c.req.ran = false)
    (wake : c.wake = .parked) (running : ∀ x, ¬ c.Returns x) : Later A s (s.addCall c) := by
  refine ⟨Nat.le_succ _, fun j => ?_⟩
  rw [addCall_calls]
  split
  case isTrue eq =>
    refine .inr ⟨Nat.le_of_eq eq.symm, fun _ => response, fun fired => ?_, fun p woken => ?_, ?_⟩
    · simp [ran] at fired
    · simp [wake] at woken
    · exact fun x out => absurd out (running x)
  case isFalse => exact .inl (.refl _)

/-- Resumptions take no call back. -/
lemma waking (h : Waking s t) : Later A s t := by
  refine ⟨Nat.le_of_eq h.next.symm, fun j => .inl ?_⟩
  refine .of_frame (h.calls j) ?_ (fun _ => h.response j) ?_ fun p woken => .inl (h.packet j p woken)
  · exact fun _ => ⟨h.response j, h.error j⟩
  · exact fun ran => .inl (h.ran j ▸ ran)

/-- A running call goes to another place of its code. -/
lemma setPc {pc : Pc} (running : ∀ o, (s.calls i).pc ≠ .ended o) (waits : pc.waits = false)
    (stays : pc.returns = false)
    (writing : (s.calls i).kind = .request → (s.calls i).req.isCompleted → pc.writing →
      (s.calls i).pc.writing) : Later A s (s.setPc i pc) := by
  refine update rfl rfl (.move ⟨rfl, rfl, rfl, rfl, rfl, rfl, rfl⟩ running ?_ writing
    (fun _ h => h) fun x out => ?_)
  · exact fun _ _ parked => Call.not_queued_of_waits waits (.inr (.inl parked))
  · exact absurd out.returns (by rw [stays]; simp)

/-! ## Settling -/

/-- What `settle` does to the record of its own call, whatever it stores. -/
lemma settle_self {store : Pending → Pending} {r : Resumption} (wf : (s.calls i).Wf i)
    (st : Call.Settles store) (live : (s.calls i).req.isCompleted = false) :
    ((s.settle i store r).calls i).req.response = (store (s.calls i).req).response ∧
      ((s.settle i store r).calls i).req.ran = (s.calls i).req.ran ∧
      ∀ p, ((s.settle i store r).calls i).wake = .resumed (.packet p) →
        (s.calls i).wake = .resumed (.packet p) ∨ r = .packet p := by
  have ran : (store (s.calls i).req).ran = (s.calls i).req.ran := by rw [st.only]
  have form := settle_form (r := r) wf st live
  generalize s.settle i store r = t at form
  cases form with
  | select _ _ => simpa using ran
  | @waiter k _ =>
    refine ⟨by simp, by simpa using ran, fun p woken => ?_⟩
    simp only [modCall_calls_self, Call.resumed] at woken
    split at woken
    · exact .inr (by simpa using woken)
    · exact .inl woken
  | plain _ _ => exact ⟨by simp [modReq], by simpa [modReq] using ran, by simp +contextual [modReq]⟩

/-- Settling a request is later, and only a response event stores a response. -/
lemma settle {store : Pending → Pending} {r : Resumption} (wf : (s.calls i).Wf i)
    (st : Call.Settles store) (frame : Frame s (s.settle i store r))
    (answered : (∀ p, A.event ≠ .response p) → ∀ q, (store q).response = q.response)
    (told : ∀ p, r = .packet p → ∀ q, (store q).response = some p) :
    Later A s (s.settle i store r) := by
  refine ⟨Nat.le_of_eq frame.next.symm, fun j => .inl ?_⟩
  by_cases eq : j = i
  · subst eq
    by_cases live : (s.calls j).req.isCompleted
    · rw [Conn.settle, if_pos live]
      exact .refl _
    · obtain ⟨response, ran, packet⟩ := settle_self (r := r) wf st (by simpa using live)
      refine .of_frame (frame.calls j) (absurd · live) (fun other => ?_) (fun fired => ?_) ?_
      · rw [response, answered other]
      · exact .inl (ran ▸ fired)
      · intro p woken
        refine (packet p woken).imp_right fun eq => ?_
        rw [response, told p eq]
  · rw [settle_calls_of_ne wf st eq]
    exact .refl _

/-- `Pending.fail` takes no call back. -/
lemma fail {e : Throwable} (wf : (s.calls i).Wf i) : Later A s (s.fail i e) :=
  settle wf (settles_error e) (fail_steady i e s).toFrame (fun _ _ => rfl) (by simp)

/-- `Pending.complete` takes no call back. -/
lemma complete {packet : Packet} (wf : (s.calls i).Wf i) (event : A.event = .response packet) :
    Later A s (s.complete i packet) :=
  settle wf (settles_response packet) (complete_steady i packet s).toFrame
    (fun other => absurd event (other packet)) (by simp)

/-- A response takes no call back. -/
lemma onResponse {packet : Packet} (wf : s.Wf) (event : A.event = .response packet) :
    Later A s (s.onResponse packet) := by
  unfold Conn.onResponse
  split
  case h_1 => exact .refl s
  case h_2 i found =>
    have completed := complete (s := s.unregister packet.messageId) (wf.call i) event
    exact { completed.trans (waking (wakeOneInFlightWaiter_waking _)) with }

/-- `shutdown` takes no call back. -/
lemma shutdown (wf : s.Wf) : Later A s s.shutdown := by
  cases opened : s.closed with
  | true =>
    rw [Conn.shutdown, if_pos opened]
    exact .refl s
  | false =>
    refine (wf.shutdown_rule (P := Later A s) (same rfl rfl) ?_ ?_ ?_ ?_ ?_ ?_ opened).2
    · exact fun t id i wf _ h => h.trans (fail (wf.call i))
    · exact fun t h => h.trans (same rfl rfl)
    · exact fun t h => h.trans (same rfl rfl)
    · intro t k ks _ _ h
      have woken : Waking t ({ t with roomWaiters := ks }.resume k (.throw closedException)) :=
        { resume_waking k (by simp) { t with roomWaiters := ks } with }
      exact h.trans (waking woken)
    · intro t i is wf _ h
      have failed : Later A t { t.fail i closedException with inFlightWaiters := is } :=
        { fail (wf.call i) with }
      exact h.trans (failed.trans (waking (resumeSlot_waking i _)))
    · exact fun t i _ h => h.trans (waking (cancelResponse_waking t i))

/-! ## The deadline -/

/-- A deadline leaves its request out of the room queue. -/
lemma runRoom_not_parked (wf : s.Wf) (request : (s.calls i).kind = .request) :
    ¬ ((s.runRoom i).calls i).RoomParked := by
  have woken : ∀ {t u : Conn}, Waking t u → ¬ (t.calls i).RoomParked → ¬ (u.calls i).RoomParked :=
    fun h out parked => out ⟨(h.calls i).pc ▸ parked.1, (h.calls i).parked parked.2⟩
  unfold Conn.runRoom
  split
  case h_1 none =>
    refine woken (wakeOneInFlightWaiter_waking s) fun parked => ?_
    have stored := (wf.call i).roomParked request parked
    simp [none] at stored
  case h_2 k stored =>
    obtain ⟨_, out⟩ := wf.resumeOwnRoom stored
    dsimp only
    split
    · exact out
    · refine woken (wakeOneInFlightWaiter_waking _) (woken ?_ out)
      exact .modReq (fun _ => rfl) (fun _ => rfl) (fun _ => rfl) fun _ => rfl

/-- What the deadline of an open request leaves. -/
lemma expire_self (wf : s.Wf) (request : (s.calls i).kind = .request)
    (live : (s.calls i).req.isCompleted = false) :
    ((s.expire i).calls i).req.response = (s.calls i).req.response ∧
      ((s.expire i).calls i).req.isCompleted ∧ ¬ ((s.expire i).calls i).RoomParked ∧
      ∀ p, ((s.expire i).calls i).wake = .resumed (.packet p) →
        (s.calls i).wake = .resumed (.packet p) := by
  set e : Throwable := .requestTimeout (s.calls i).req.id (s.calls i).req.timeoutMillis
  set t := ((s.fail i e).unregister (s.calls i).req.id).resumeSlot i
  have expired : s.expire i = t.runRoom i := rfl
  have failed : (s.fail i e).Wf := wf.fail fun _ => request
  have slot : Waking ((s.fail i e).unregister (s.calls i).req.id) t := resumeSlot_waking i _
  have room := runRoom_waking i t
  have completed : ((s.fail i e).calls i).req.isCompleted := fail_completed (wf.call i)
  rw [expired]
  refine ⟨?_, ?_, runRoom_not_parked (failed.unregister.resumeSlot completed) ?_, fun p woken => ?_⟩
  · rw [room.response, slot.response]
    exact (settle_self (wf.call i) (settles_error e) live).1
  · rw [room.completed, slot.completed]
    exact completed
  · exact (slot.calls i).kind.trans (((fail_steady i e s).calls i).kind.trans request)
  · have before := slot.packet i p (room.packet i p woken)
    exact ((settle_self (wf.call i) (settles_error e) live).2.2 p before).resolve_right (by simp)

/-- A deadline changes nothing of another request but its sleep. -/
lemma expire_other (wf : s.Wf) : ∀ j ≠ i, Call.Later A (s.calls j) ((s.expire i).calls j) := by
  intro j ne
  set e : Throwable := .requestTimeout (s.calls i).req.id (s.calls i).req.timeoutMillis
  have failed : (s.fail i e).calls j = s.calls j := fail_calls_of_ne (wf.call i) ne
  have slot := resumeSlot_waking i ((s.fail i e).unregister (s.calls i).req.id)
  have woken := slot.trans (runRoom_waking i _)
  have frame := woken.calls j
  have response := woken.response j
  have error := woken.error j
  have ran := woken.ran j
  have packet := woken.packet j
  change Call.Frame ((s.fail i e).calls j) ((s.expire i).calls j) at frame
  change _ = ((s.fail i e).calls j).req.response at response
  change _ = ((s.fail i e).calls j).req.error at error
  change _ = ((s.fail i e).calls j).req.ran at ran
  change ∀ p, _ → ((s.fail i e).calls j).wake = .resumed (.packet p) at packet
  rw [failed] at frame response error ran packet
  exact .of_frame frame (fun _ => ⟨response, error⟩) (fun _ => response)
    (fun fired => .inl (ran ▸ fired)) fun p woken => .inl (packet p woken)

/-- The deadline takes no call back. -/
lemma run (wf : s.Wf) (armed : (s.calls i).req.armed)
    (writer : (s.calls i).pc.writing → A .writerDeadline)
    (settled : (s.calls i).req.isCompleted → (s.calls i).RoomParked → A .settledDeadline) :
    Later A s (s.run i) := by
  have request := wf.request_of_armed armed
  have request' : ((s.fire i).calls i).kind = .request := by simpa [fire, modReq] using request
  have frame := run_frame i s
  have untouched : ∀ j ≠ i, (s.fire i).calls j = s.calls j := fun j ne => by
    simp [fire, modReq, modCall_calls_of_ne _ _ ne]
  refine ⟨Nat.le_of_eq frame.next.symm, fun j => .inl ?_⟩
  have expired : ∀ done : ((s.run i).calls i).req.isCompleted,
      (((s.run i).calls i).RoomParked → A .settledDeadline) → ((s.run i).calls i).Expired A := by
    intro done room
    refine ⟨(frame.calls i).kind.trans request, done, room, fun writing => writer ?_⟩
    rwa [(frame.calls i).pc] at writing
  by_cases done : (s.calls i).req.isCompleted
  · have eq : s.run i = s.fire i := by rw [Conn.run, if_pos done]
    rw [eq] at frame expired ⊢
    by_cases ne : j = i
    · subst ne
      refine .of_frame (frame.calls j) ?_ ?_ (fun _ => .inr (expired ?_ ?_)) ?_
      · exact fun _ => by simp [fire, modReq]
      · exact fun _ => by simp [fire, modReq]
      · simpa [fire, modReq, Pending.isCompleted] using done
      · intro parked
        refine settled done ?_
        simpa [fire, modReq, Call.RoomParked] using parked
      · exact fun p woken => .inl (by simpa [fire, modReq] using woken)
    · rw [untouched j ne]
      exact .refl _
  · have eq : s.run i = (s.fire i).expire i := by rw [Conn.run, if_neg done]
    rw [eq] at frame expired ⊢
    have live : ((s.fire i).calls i).req.isCompleted = false := by
      simpa [fire, modReq, Pending.isCompleted] using done
    by_cases ne : j = i
    · subst ne
      obtain ⟨response, completed, out, packet⟩ := expire_self (wf.fire request) request' live
      refine .of_frame (frame.calls j) (absurd · done) (fun _ => ?_) (fun _ => .inr ?_) ?_
      · rw [response]
        simp [fire, modReq]
      · exact expired completed (absurd · out)
      · exact fun p woken => .inl (by simpa [fire, modReq] using packet p woken)
    · have later := expire_other (A := A) (wf.fire request) j ne
      rwa [untouched j ne] at later

/-! ## Effects -/

/-- The end of a call takes no call back. -/
lemma finish {o : Outcome} (pc : (s.calls i).pc = .unwinding o) : Later A s (s.finish i o) := by
  have running : ∀ o, (s.calls i).pc ≠ .ended o := fun o ended => by simp [pc] at ended
  unfold Conn.finish
  split
  case isTrue =>
    have ended : Later A s (s.dispose i o) := by
      refine update rfl rfl (.move ⟨rfl, rfl, rfl, rfl, rfl, rfl, rfl⟩ running ?_ (by simp)
        (fun _ h => h) ?_)
      · simp [Call.RoomParked]
      · simp [Call.Returns, pc]
    dsimp only
    split
    case isTrue =>
      have woken := waking (A := A) (wakeOneInFlightWaiter_waking ((s.dispose i o).unregister
        (s.calls i).req.id))
      exact ended.trans { woken with }
    case isFalse => exact ended
  case isFalse =>
    refine update rfl rfl (.move ⟨rfl, rfl, rfl, rfl, rfl, rfl, rfl⟩ running ?_ (by simp)
      (fun _ h => h) ?_)
    · simp [Call.RoomParked]
    · simp [Call.Returns, pc]

/-- The write loop takes no call back. -/
lemma loopNext {env : Env} (s : Conn) : Later A s (s.loopNext env) := by
  have accepted : ∀ (j : Nat) (outbound : Channel),
      Later A s ({ s with outbound }.acceptSender j) := by
    intro j outbound
    refine update rfl rfl (.of_frame ?_ (fun _ => ⟨rfl, rfl⟩) (fun _ => rfl) .inl (by simp))
    constructor <;> simp
  unfold Conn.loopNext
  split
  case h_1 => exact same rfl rfl
  case h_2 packet rest j q senders _ _ =>
    exact (accepted j ⟨rest ++ [q], senders⟩).trans (same rfl rfl)
  case h_3 j q senders _ _ =>
    exact (accepted j ⟨s.outbound.buffer, senders⟩).trans (same rfl rfl)
  case h_4 => exact same rfl rfl

/-- A request that leaves its `select` goes on. -/
lemma abortSelect {p : Packet} {pc' : Pc} (pc : (s.calls i).pc = .channelSelect p)
    (waits : pc'.waits = false) (stays : pc'.returns = false) (idle : pc'.writing = false) :
    Later A s ((s.abortSelect i p).setPc i pc') := by
  have woken := abortSelect_waking i p s
  have still : ((s.abortSelect i p).calls i).pc = .channelSelect p := (woken.calls i).pc.trans pc
  refine (waking woken).trans (setPc ?_ waits stays fun _ _ writing => absurd writing (by rw [idle]; simp))
  exact fun o ended => by simp [still] at ended

/-- A call whose packet is queued goes on. -/
lemma afterPut (running : ∀ o, (s.calls i).pc ≠ .ended o) :
    Later A s (s.setPc i (s.calls i).afterPut) := by
  unfold Call.afterPut
  split
  · exact setPc running rfl rfl (by simp)
  · exact setPc running rfl rfl (by simp)

/-- A call that is parked, cancelled or stopped. -/
lemma rest {c : Call} (next : t.next = s.next) (calls : t.calls = Function.update s.calls i c)
    (moved : Call.Moved (s.calls i) c) (running : ∀ o, (s.calls i).pc ≠ .ended o)
    (room : (s.calls i).kind = .request → (s.calls i).req.isCompleted → ¬ c.RoomParked)
    (idle : c.pc.writing = false) (stays : c.pc.returns = false)
    (packet : ∀ p, c.wake = .resumed (.packet p) → (s.calls i).wake = .resumed (.packet p)) :
    Later A s t := by
  refine update next calls (.move moved running room (fun _ _ writing => ?_) packet fun x out => ?_)
  · exact absurd writing (by rw [idle]; simp)
  · exact absurd out.returns (by rw [stays]; simp)

/-- Every effect takes every call to a later state. -/
theorem effect {env : Env} (wf : s.Wf) (h : Effect env A s t) : Later A s t := by
  cases h with
  | loc h => exact update rfl rfl (.localStep h)
  | @reject c _ _ pc wake req =>
    exact { addCall (A := A) (s := s) (c := c) (by rw [req]) (by rw [req]) wake
      (by simp [Call.Returns, pc]) with }
  | @startRequest c _ _ _ _ _ pc wake _ req _ =>
    exact { addCall (A := A) (s := s) (c := c) (by rw [req]) (by rw [req]) wake
      (by simp [Call.Returns, pc]) with }
  | @startPut c _ _ _ pc wake _ req _ _ =>
    exact { addCall (A := A) (s := s) (c := c) (by rw [req]) (by rw [req]) wake
      (by simp [Call.Returns, pc]) with }
  | @slotPark i pc _ _ live =>
    exact rest rfl rfl ⟨rfl, rfl, rfl, rfl, rfl, rfl, rfl⟩ (by simp [pc]) (by simp [live]) rfl rfl
      (by simp)
  | @register i p pc _ _ live _ =>
    have moved : Later A s (s.setPc i (.roomLoop p)) := setPc (by simp [pc]) rfl rfl (by simp)
    exact { moved with }
  | @slotRefused i e pc _ _ live _ _ =>
    set u : Conn := { s with pending := s.pending.set (s.calls i).req.id i }
    have left : Later A u (u.setPc i (.unwinding (.threw e))) := setPc (by simp [u, pc]) rfl rfl
      (by simp)
    have finished : Later A u (u.unwind i (.threw e)) :=
      left.trans (finish (setPc_pc _ _ _))
    exact { finished with }
  | @slotCancelled i pc cancelled =>
    exact rest rfl (slotCancelled_calls i _ s) ⟨rfl, rfl, rfl, rfl, rfl, rfl, rfl⟩ (by simp [pc])
      (by simp [Call.RoomParked]) rfl rfl (fun _ h => h)
  | @roomPark i p pc _ _ live =>
    exact rest rfl rfl ⟨rfl, rfl, rfl, rfl, rfl, rfl, rfl⟩ (by simp [pc])
      (fun request done => by simp [live request] at done) rfl rfl (by simp)
  | @roomCancelled i p pc cancelled =>
    exact rest rfl (roomCancelled_calls i _ s) ⟨rfl, rfl, rfl, rfl, rfl, rfl, rfl⟩ (by simp [pc])
      (by simp [Call.RoomParked]) rfl rfl (fun _ h => h)
  | @putQueue i p pc _ _ _ _ _ => exact { afterPut (A := A) (s := s) (i := i) (by simp [pc]) with }
  | @putDrain i p pc _ _ live _ _ =>
    have moved : Later A s (s.setPc i (if s.writeBuf = [] then .draining else .socketWrite)) := by
      refine setPc (by simp [pc]) (by split <;> rfl) (by split <;> rfl) fun request done => ?_
      simp [live request] at done
    exact { moved with }
  | @putBuffer i p buffer pc _ _ _ _ _ _ =>
    exact { afterPut (A := A) (s := s) (i := i) (by simp [pc]) with }
  | @putHandoff i p pc _ _ _ _ _ => exact { afterPut (A := A) (s := s) (i := i) (by simp [pc]) with }
  | @sendPark i p pc _ _ _ _ _ =>
    exact rest rfl rfl ⟨rfl, rfl, rfl, rfl, rfl, rfl, rfl⟩ (by simp [pc]) (by simp [Call.RoomParked])
      rfl rfl (by simp)
  | @selectPark i p pc _ _ _ _ _ _ =>
    exact rest rfl rfl ⟨rfl, rfl, rfl, rfl, rfl, rfl, rfl⟩ (by simp [pc]) (by simp [Call.RoomParked])
      rfl rfl (by simp)
  | @drainTake i p rest pc _ _ =>
    have woken := releaseOutboundBytes_waking (packetBytes p) { s with sendQueue := rest }
    have still := (woken.calls i).pc.trans pc
    have moved : Later A _ (Conn.setPc i .socketWrite _) :=
      (waking woken).trans (setPc (by simp [still]) rfl rfl (by simp [still]))
    exact { moved with }
  | @drainEnd i pc _ => exact { afterPut (A := A) (s := s) (i := i) (by simp [pc]) with }
  | @successorStart i pc =>
    have other := (wf.call i).kind
    rw [pc] at other
    have moved : Later A s (s.setPc i (if s.writeBuf = [] then .draining else .socketWrite)) :=
      setPc (by simp [pc]) (by split <;> rfl) (by split <;> rfl) fun request => absurd request other
    exact { moved with }
  | @handOff i pc _ _ =>
    have running : ∀ o, (s.calls i).pc ≠ .ended o := by rcases pc with pc | pc <;> simp [pc]
    refine (addCall rfl rfl rfl (by simp [Call.Returns])).trans (setPc ?_ rfl rfl (by simp))
    rwa [wf.addCall_older running]
  | @writerStop i e pc _ _ =>
    have running : ∀ o, (s.calls i).pc ≠ .ended o := by rcases pc with pc | pc <;> simp [pc]
    have moved : Later A s (s.setPc i (.unwinding (.threw e))) := setPc running rfl rfl (by simp)
    exact { moved with }
  | transmit _ _ _ => exact same rfl rfl
  | selectGate pc _ _ => exact abortSelect pc rfl rfl rfl
  | selectCancelled pc _ _ => exact abortSelect pc rfl rfl rfl
  | loopFlushing _ _ => exact same rfl rfl
  | @loopNext p _ => exact (waking (releaseOutboundBytes_waking (packetBytes p) s)).trans (loopNext _)
  | loopRun _ _ => exact loopNext s
  | loopEnd _ _ => exact same rfl rfl
  | @cancelSlot i pc wake =>
    exact rest rfl (cancelSlot_calls i s) ⟨rfl, rfl, rfl, rfl, rfl, rfl, rfl⟩ (by simp [pc])
      (by simp [Call.RoomParked]) (by simp [pc]) (by simp [pc]) (by simp)
  | @cancelRoom i p pc wake =>
    exact rest rfl (cancelRoom_calls i s) ⟨rfl, rfl, rfl, rfl, rfl, rfl, rfl⟩ (by simp [pc])
      (by simp [Call.RoomParked]) (by simp [pc]) (by simp [pc]) (by simp)
  | @cancelSend i p pc wake _ =>
    exact rest rfl rfl ⟨rfl, rfl, rfl, rfl, rfl, rfl, rfl⟩ (by simp [pc]) (by simp [Call.RoomParked])
      (by simp [pc]) (by simp [pc]) (by simp)
  | @cancelSelect i p pc wake =>
    exact rest rfl rfl ⟨rfl, rfl, rfl, rfl, rfl, rfl, rfl⟩ (by simp [pc]) (by simp [Call.RoomParked])
      (by simp [pc]) (by simp [pc]) (by simp)
  | finish pc _ => exact finish pc
  | deadline _ armed writer settled _ _ =>
    exact run wf armed writer fun done parked => settled done parked.1 parked.2
  | response event _ _ _ _ _ _ => exact onResponse wf event
  | shutdown _ _ => exact shutdown wf

/-- Every step takes every call to a later state. -/
theorem step {env : Env} {e : Event} (wf : s.Wf) (h : s.step env e = some t) :
    Later (e.trigger env s) s t := by
  refine (Runs.star_preserves (P := fun t => t.Wf ∧ Later (e.trigger env s) s t) ?_
    (step_effects h) ⟨wf, .refl s⟩).2
  exact fun t u eff held => ⟨held.1.effect eff, held.2.trans (effect held.1 eff)⟩

end Later

end Conn

end MsgTrans
