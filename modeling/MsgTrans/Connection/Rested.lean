import MsgTrans.Connection.WellFormed

/-!
# Between two steps

A step runs one coroutine from a suspension to the next, so between two steps no call is in the middle
of its code. The lemmas follow `Ops.lean`: each operation takes the call it runs for to a place where
it rests, and leaves the others where they are.
-/

namespace MsgTrans

/-- A place a coroutine only passes while the reactor runs it. -/
@[simp] def Pc.runs : Pc → Bool
  | .slotLoop | .roomLoop _ | .draining | .awaiting | .unwinding _ => true
  | _ => false

namespace Conn

/-- No call but `i` is in the middle of its code. -/
def RestedBut (i : Nat) (s : Conn) : Prop := ∀ j, j ≠ i → (s.calls j).pc.runs = false

/-- No call is in the middle of its code. -/
def Rested (s : Conn) : Prop := ∀ j, (s.calls j).pc.runs = false

section
variable {env : Env} {s t : Conn} {i : Nat}

/-- At rest, any call may be the one that runs. -/
lemma Rested.but (h : s.Rested) : s.RestedBut i :=
  fun j _ => h j

/-- Resuming and settling moves nobody. -/
lemma Rested.frame (h : s.Rested) (frame : Frame s t) : t.Rested := by
  intro j
  rw [(frame.calls j).pc]
  exact h j

namespace RestedBut

/-- Resuming and settling moves nobody. -/
lemma frame (h : s.RestedBut i) (frame : Frame s t) : t.RestedBut i := by
  intro j ne
  rw [(frame.calls j).pc]
  exact h j ne

/-- Only call `i` has changed. -/
lemma of_calls (h : s.RestedBut i) (same : ∀ j, j ≠ i → t.calls j = s.calls j) : t.RestedBut i := by
  intro j ne
  rw [same j ne]
  exact h j ne

/-- A change of the running call. -/
lemma modCall {f : Call → Call} (h : s.RestedBut i) : (s.modCall i f).RestedBut i := by
  intro j ne
  rw [modCall_calls_of_ne f s ne]
  exact h j ne

/-- A change of the running call's request. -/
lemma modReq {f : Pending → Pending} (h : s.RestedBut i) : (s.modReq i f).RestedBut i :=
  h.modCall

/-- The running call goes to another place. -/
lemma setPc {pc : Pc} (h : s.RestedBut i) : (s.setPc i pc).RestedBut i :=
  h.modCall

/-- The call comes to rest. -/
lemma rest (h : s.RestedBut i) (pc : (s.calls i).pc.runs = false) : s.Rested := by
  intro j
  by_cases eq : j = i
  · subst eq
    exact pc
  · exact h j eq

/-- The running call suspends. -/
lemma park {pc : Pc} (h : s.RestedBut i) (rests : pc.runs = false) : (s.park i pc).Rested :=
  RestedBut.rest (s := s.park i pc) h.modCall (by rw [Conn.park, modCall_calls_self]; exact rests)

/-- The running call comes to rest. -/
lemma setPc_rest {pc : Pc} (h : s.RestedBut i) (rests : pc.runs = false) : (s.setPc i pc).Rested :=
  RestedBut.rest (s := s.setPc i pc) h.modCall (by rw [Conn.setPc, modCall_calls_self]; exact rests)

/-- The running call ends. -/
lemma finish {o : Outcome} (h : s.RestedBut i) : (s.finish i o).Rested := by
  intro j
  rw [finish_pc]
  split
  case isTrue => rfl
  case isFalse ne => exact h j ne

/-- The running call leaves. -/
lemma unwind {o : Outcome} (h : s.RestedBut i) : (s.unwind i o).Rested :=
  finish h.setPc

/-- `await` ends the call or suspends it. -/
lemma awaitResponse (h : s.RestedBut i) : (s.awaitResponse i).Rested := by
  unfold Conn.awaitResponse
  dsimp only
  split
  case h_1 => exact h.setPc.unwind
  case h_2 => exact h.setPc.unwind
  case h_3 => exact park (h.setPc.modCall) rfl

/-- A call whose packet is queued ends or suspends. -/
lemma afterEnqueue (h : s.RestedBut i) : (s.afterEnqueue i).Rested := by
  unfold Conn.afterEnqueue
  split
  · exact h.awaitResponse
  · exact h.unwind

/-- The writer's loop ends at a socket write or at the end of the call. -/
lemma drainLoop (h : s.RestedBut i) : (s.drainLoop env i).Rested := by
  unfold Conn.drainLoop
  split
  case isTrue => exact afterEnqueue h
  case isFalse =>
    split
    case h_1 => exact afterEnqueue h
    case h_2 packet rest _ =>
      set u : Conn := { s with sendQueue := rest }
      have taken : u.RestedBut i := h
      have released := taken.frame (releaseOutboundBytes_waking (packetBytes packet) u).toFrame
      refine setPc_rest ?_ rfl
      exact released

/-- `drainAsWriter` runs to its first suspension. -/
lemma drainAsWriter (h : s.RestedBut i) : (s.drainAsWriter env i).Rested := by
  have marked : ({ s with writerActive := true }.setPc i .draining).RestedBut i :=
    setPc (s := { s with writerActive := true }) h
  unfold Conn.drainAsWriter
  dsimp only
  split
  · exact marked.setPc_rest rfl
  · exact marked.drainLoop

/-- A packet handed to the channel moves no other call. -/
lemma trySend {p : Packet} (h : s.RestedBut i) (sent : s.trySend env p = some t) : t.RestedBut i := by
  unfold Conn.trySend at sent
  split at sent
  case isTrue => cases sent
  case isFalse =>
    split at sent
    case isTrue =>
      cases sent
      exact h
    case isFalse =>
      split at sent
      case h_1 =>
        cases sent
        exact h
      case h_2 =>
        split at sent <;> cases sent
        exact h

/-- `sendRacingDeadline` runs to its suspension or to the end of the call. -/
lemma sendRacingDeadline {p : Packet} (h : s.RestedBut i) : (s.sendRacingDeadline i p).Rested := by
  have released := h.frame (releaseOutboundBytes_waking (packetBytes p) s).toFrame
  unfold Conn.sendRacingDeadline
  split
  case isTrue => exact released.afterEnqueue
  case isFalse =>
    split
    case isTrue => exact released.unwind
    case isFalse =>
      refine park (modCall ?_) rfl
      exact h

/-- `Channel.send` runs to its suspension or to the end of the call. -/
lemma channelSend {p : Packet} (h : s.RestedBut i) : (s.channelSend env i p).Rested := by
  unfold Conn.channelSend
  split
  case h_1 sent => exact (h.trySend sent).unwind
  case h_2 =>
    split
    case isTrue => exact h.unwind
    case isFalse =>
      refine park ?_ rfl
      exact h

/-- `put` runs to a suspension or to the end of the call. -/
lemma put {p : Packet} (h : s.RestedBut i) : (s.put env i p).Rested := by
  set u : Conn := { s with queuedBytes := s.queuedBytes + packetBytes p }
  have charged : u.RestedBut i := h
  unfold Conn.put
  dsimp only
  split
  case h_1 =>
    split
    · exact afterEnqueue h
    · exact drainAsWriter h
  case h_2 =>
    split
    case isTrue =>
      split
      case h_1 sent => exact (charged.trySend sent).afterEnqueue
      case h_2 => exact charged.sendRacingDeadline
    case isFalse => exact charged.channelSend

/-- `awaitOutboundRoom` runs to a suspension or to the end of the call. -/
lemma awaitOutboundRoom {p : Packet} (h : s.RestedBut i) : (s.awaitOutboundRoom env i p).Rested := by
  have moved : (s.setPc i (.roomLoop p)).RestedBut i := h.setPc
  unfold Conn.awaitOutboundRoom
  dsimp only
  split
  case isTrue =>
    split
    case isTrue => exact moved.afterEnqueue
    case isFalse =>
      split
      case isTrue => exact moved.put
      case isFalse =>
        refine park ?_ rfl
        split
        · exact moved.of_calls fun j ne => by simp [Conn.modReq, Conn.modCall, ne]
        · exact moved
  case isFalse =>
    split
    · exact moved.afterEnqueue
    · exact moved.unwind

/-- `enqueue` runs to a suspension or to the end of the call. -/
lemma enqueueChecked {p : Packet} (h : s.RestedBut i) : (s.enqueueChecked env i p).Rested := by
  unfold Conn.enqueueChecked
  dsimp only
  split
  · exact h.setPc.put
  · exact h.setPc.awaitOutboundRoom

/-- A registered request runs to a suspension or to its end. -/
lemma register (h : s.RestedBut i) : (s.register env i).Rested := by
  unfold Conn.register
  dsimp only
  split
  · exact unwind h
  · exact enqueueChecked h

/-- The slot loop runs to a suspension or to the end of the call. -/
lemma slotLoop (h : s.RestedBut i) : (s.slotLoop env i).Rested := by
  have moved : (s.setPc i .slotLoop).RestedBut i := h.setPc
  unfold Conn.slotLoop
  dsimp only
  split
  case isTrue =>
    refine park ?_ rfl
    exact moved.of_calls fun j ne => by simp [Conn.modReq, Conn.modCall, ne]
  case isFalse =>
    split
    case isTrue => exact moved.awaitResponse
    case isFalse =>
      split
      · exact moved.unwind
      · exact moved.register

end RestedBut

/-! ## Steps -/

/-- A new call that does not run yet. -/
lemma Rested.addCall {c : Call} (h : s.Rested) (pc : c.pc.runs = false) : (s.addCall c).Rested := by
  intro j
  rw [addCall_calls]
  split
  · exact pc
  · exact h j

/-- A new call is run; the others rest. -/
lemma Rested.newCall {c : Call} (h : s.Rested) : (s.addCall c).RestedBut s.next := by
  intro j ne
  rw [addCall_calls, if_neg ne]
  exact h j

namespace Rested

/-- A new request runs to a suspension or to its end. -/
lemma requestOnOwner {payload bizType timeoutMillis compression} (h : s.Rested) :
    (s.requestOnOwner env payload bizType timeoutMillis compression).Rested := by
  unfold Conn.requestOnOwner
  dsimp only
  split
  case isTrue => exact h.addCall rfl
  case isFalse =>
    split
    case h_1 => exact h.addCall rfl
    case h_2 =>
      split
      · exact h.addCall rfl
      · exact (newCall (s := { s with requestId := s.requestId + 1 }) h).slotLoop

/-- A new `send` runs to a suspension or to its end. -/
lemma sendOnOwner {payload bizType compression} (h : s.Rested) :
    (s.sendOnOwner env payload bizType compression).Rested := by
  unfold Conn.sendOnOwner
  dsimp only
  split
  case isTrue => exact h.addCall rfl
  case isFalse =>
    split
    case h_1 => exact h.addCall rfl
    case h_2 =>
      have numbered : ({ s with oneWayId := s.nextOneWayId } : Conn).Rested := h
      split
      · exact numbered.addCall rfl
      · exact numbered.newCall.enqueueChecked

/-- A new answer runs to a suspension or to its end. -/
lemma respond {messageId bizType response} (h : s.Rested) :
    (s.respond env messageId bizType response).Rested := by
  unfold Conn.respond
  dsimp only
  split
  case h_1 => exact h.addCall rfl
  case h_2 =>
    split
    · exact h.addCall rfl
    · exact h.newCall.enqueueChecked

/-- A resumed call runs to its next suspension. -/
lemma dispatch (h : s.Rested) (st : s.dispatch env i = some t) : t.Rested := by
  have but : s.RestedBut i := h.but
  have aborted : ∀ p, (s.abortSelect i p).RestedBut i :=
    fun p => but.frame (abortSelect_waking i p s).toFrame
  unfold Conn.dispatch at st
  split at st <;> cases st
  case h_1 => exact but.drainAsWriter
  case h_2 => exact but.slotLoop
  case h_6 => exact but.modReq.awaitOutboundRoom
  case h_12 => exact but.modReq.awaitResponse
  case h_13 => exact (aborted _).awaitResponse
  case h_14 => exact (aborted _).unwind
  case h_15 => exact (aborted _).unwind
  case h_3 | h_4 | h_7 | h_8 =>
    refine RestedBut.unwind ?_
    exact but.of_calls fun j ne => by
      simp [onSlotCancelled, onRoomCancelled, Conn.modReq, Conn.modCall, ne]
  all_goals exact but.unwind

/-- One call changes without moving. -/
lemma modCall {f : Call → Call} (h : s.Rested) (pc : ∀ c, (f c).pc = c.pc) :
    (s.modCall i f).Rested := by
  intro j
  rw [modCall_calls]
  split
  case isTrue eq =>
    rw [pc]
    exact h i
  case isFalse => exact h j

/-- Cancelling a suspended call does not move it. -/
lemma cancel (h : s.Rested) (st : s.cancel i = some t) : t.Rested := by
  have left : ∀ {u : Conn}, (∀ j, (u.calls j).pc = (s.calls j).pc) → (u.setCancelled i).Rested := by
    intro u same
    have rested : u.Rested := fun j => by rw [same]; exact h j
    exact rested.modCall fun _ => rfl
  unfold Conn.cancel at st
  split at st <;> cases st
  case h_1 =>
    refine left fun j => ?_
    simp only [onSlotCancelled, Conn.modReq, modCall_calls]
    split
    case isTrue eq => rw [eq]
    case isFalse => rfl
  case h_2 =>
    refine left fun j => ?_
    simp only [onRoomCancelled, Conn.modReq, modCall_calls]
    split
    case isTrue eq => rw [eq]
    case isFalse => rfl
  case h_3 => exact left fun _ => rfl
  case h_4 => exact left fun _ => rfl
  case h_5 => exact left fun _ => rfl
  all_goals exact h.modCall fun _ => rfl

/-- `shutdown` moves no call. -/
lemma shutdown (h : s.Rested) : s.shutdown.Rested := by
  intro j
  rw [(shutdown_calls s j).pc]
  exact h j

/-- A failed socket operation ends its call. -/
lemma writerFailed {r : IoResult} {e : Throwable} (h : s.Rested) : (s.writerFailed i r e).Rested := by
  unfold Conn.writerFailed
  split
  case isTrue =>
    split
    · exact (h.addCall rfl).but.unwind
    · refine RestedBut.unwind ?_
      exact h.but
  case isFalse =>
    refine RestedBut.unwind ?_
    exact h.shutdown.but

/-- The end of a socket write. -/
lemma write {r : IoResult} (h : s.Rested) (st : s.write i r = some t) : t.Rested := by
  unfold Conn.write at st
  split at st
  case isTrue => cases st
  case isFalse =>
    split at st
    case h_1 =>
      split at st <;> cases st
      exact h.but.setPc_rest rfl
    case h_2 =>
      cases st
      exact h.writerFailed
    case h_3 =>
      cases st
      exact h.writerFailed

/-- The end of a flush: the loop goes on to its next suspension. -/
lemma flush {r : IoResult} (h : s.Rested) (st : s.flush env i r = some t) : t.Rested := by
  unfold Conn.flush at st
  split at st
  case isTrue => cases st
  case isFalse =>
    split at st <;> cases st
    · exact h.but.setPc.drainLoop
    · exact h.writerFailed

/-- The write loop moves no call. -/
lemma loopNext (h : s.Rested) : (s.loopNext env).Rested := by
  have accepted : ∀ (outbound : Channel) (j : Nat), ({ s with outbound }.acceptSender j).Rested :=
    fun outbound j => modCall (s := { s with outbound }) h fun _ => rfl
  unfold Conn.loopNext
  split
  case h_1 => exact h
  case h_2 => exact accepted _ _
  case h_3 => exact accepted _ _
  case h_4 => exact h

/-- A failed write loop moves no call. -/
lemma loopFailed {r : IoResult} (h : s.Rested) (st : s.loopFailed r = some t) : t.Rested := by
  unfold Conn.loopFailed at st
  split at st
  case h_1 => cases st
  case h_2 =>
    cases st
    exact h.shutdown
  case h_3 =>
    cases st
    exact h
  case h_4 =>
    split at st <;> cases st
    exact h

/-- After every step all calls rest again. -/
theorem step {e : Event} (h : s.Rested) (st : s.step env e = some t) : t.Rested := by
  cases e with
  | request payload bizType timeoutMillis compression =>
    cases st
    exact h.requestOnOwner
  | send payload bizType compression =>
    cases st
    exact h.sendOnOwner
  | respond messageId bizType response =>
    cases st
    exact h.respond
  | dispatch i => exact h.dispatch st
  | cancel i => exact h.cancel st
  | deadline i =>
    simp only [Conn.step] at st
    split at st <;> cases st
    exact h.frame (run_frame i s)
  | response packet =>
    simp only [Conn.step] at st
    split at st <;> cases st
    exact h.frame (onResponse_frame packet s)
  | transmit i n =>
    simp only [Conn.step] at st
    split at st <;> cases st
    exact h
  | loopTransmit n =>
    simp only [Conn.step] at st
    split at st
    case h_1 =>
      split at st <;> cases st
      exact h
    case h_2 => cases st
  | write i r => exact h.write st
  | flush i r => exact h.flush st
  | loopRun =>
    simp only [Conn.step, loopRun] at st
    split at st <;> cases st
    exact h.loopNext
  | loopWrite r =>
    simp only [Conn.step, loopWrite] at st
    split at st
    case h_1 =>
      split at st
      · split at st <;> cases st
        exact h
      · exact h.loopFailed st
    case h_2 => cases st
  | loopFlush r =>
    simp only [Conn.step, loopFlush] at st
    split at st
    case h_1 p _ =>
      split at st
      · cases st
        exact (h.frame (releaseOutboundBytes_waking (packetBytes p) s).toFrame).loopNext
      · exact h.loopFailed st
    case h_2 => cases st
  | shutdown =>
    cases st
    exact h.shutdown

/-- Between two steps no call is in the middle of its code. -/
theorem reach {ok : Conn → Event → Prop} (run : Runs.Reach (Conn.step env) ok init s) : s.Rested :=
  run.invariant (fun _ => rfl) fun _ _ _ rested _ st => rested.step st

end Rested

end

/-- Invariant rule for effects that look at the state their step is taken in. -/
lemma invariant_of_rested {env : Env} {F : Flaw → Prop} {P : Conn → Prop} {s : Conn}
    (run : Runs.Reach (Conn.step env) (Avoids F env) Conn.init s) (start : P Conn.init)
    (keep : ∀ (A : Trigger) (s t : Conn), (∀ f, F f → ¬ A f) → A.start.Rested → s.Wf → P s →
      Effect env A s t → P t) : P s := by
  have all : s.Rested ∧ s.Wf ∧ P s := by
    refine run.invariant (P := fun s => s.Rested ∧ s.Wf ∧ P s) ⟨fun _ => rfl, .init, start⟩ ?_
    rintro s₀ e s' ⟨rested, held⟩ avoids st
    refine ⟨rested.step st, ?_⟩
    refine Runs.star_preserves (P := fun s => s.Wf ∧ P s) (fun s t eff held => ?_) (step_effects st) held
    exact ⟨held.1.effect eff, keep (e.trigger env s₀) s t avoids rested held.1 held.2 eff⟩
  exact all.2.2

end Conn

end MsgTrans
