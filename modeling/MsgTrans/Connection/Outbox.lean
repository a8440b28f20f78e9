import Mathlib.Data.List.Forall2
import MsgTrans.Connection.Requests
import MsgTrans.Connection.WriteLoop

/-!
# The outbound path is a queue of calls

In both write modes the packets on the outbound path belong to different calls, in the order in which the
calls have put them there: a queue of calls, beside the queue of packets that the code keeps. While the
connection is open nothing leaves it, so a `send` that has returned stands in it for good, and every call
that is made afterwards stands behind it. Only a conflated channel drops packets.
-/

namespace MsgTrans

/-- The type of the packets that a call of this kind makes. -/
def CallKind.packetType : CallKind → Option PacketType
  | .request => some .request
  | .oneWay => some .oneWay
  | .response => some .response
  | .successor => none

namespace Call

/-- The call has not put its packet: it is on the way to do so, or waits in the channel. -/
def Pends (c : Call) : Prop :=
  c.pc.preparing ∨ ∃ p, c.SendParked p

/-- A `send` or an answer that has put its packet, from then on to its normal end. -/
def Landed (c : Call) : Prop :=
  (c.kind = .oneWay ∨ c.kind = .response) ∧
    (c.pc.writing ∨ c.pc = .unwinding .done ∨ c.pc = .ended .done ∨
      (∃ p, c.pc = .channelSend p) ∧ ∃ r, c.wake = .resumed r)

/-- `p` is the packet of the call: made from its arguments, and with its id if it is a request. -/
structure Bears (env : Env) (c : Call) (p : Packet) : Prop where
  type : c.kind.packetType = some p.type
  id : c.kind = .request → p.messageId = c.req.id
  bizType : p.bizType = c.bizType
  payload : Conn.prepareOutboundPayload env c.payload p.compression = .ok p.payload

/-- The call goes on without a new packet, and does not go back. -/
structure Forward (c c' : Call) : Prop where
  kind : c'.kind = c.kind
  packet : c.kind ≠ .request → ∀ p, c'.pc.packet = some p → c.pc.packet = some p
  pends : c'.Pends → c.Pends
  launched : c'.pc = .launched → c.pc = .launched

/-- The call goes on, and puts nothing. -/
structure Calm (c c' : Call) : Prop extends Forward c c' where
  landed : c'.Landed → c.Landed

/-- A call that `e` has just made. -/
structure Starts (env : Env) (e : Event) (c : Call) : Prop where
  packet : c.kind ≠ .request → ∀ p, c.pc.packet = some p → c.Bears env p
  answer : c.kind = .response → ∀ p, c.pc.packet = some p → ∃ bizType r, e = .respond p.messageId bizType r
  launched : c.pc = .launched → c.kind = .successor
  landed : ¬ c.Landed

/-- The places at which a call has no packet and has not just put one. -/
@[simp] def aside : Pc → Bool
  | .awaiting | .await | .unwinding (.threw _) | .unwinding (.returned _) => true
  | .ended (.threw _) | .ended (.returned _) => true
  | _ => false

variable {A : Trigger} {s : Conn} {i : Nat} {c c' c'' : Call} {pc : Pc}

namespace Forward

/-- A call that stays where it is. -/
lemma refl (c : Call) : Forward c c :=
  ⟨rfl, fun _ _ held => held, fun h => h, fun h => h⟩

/-- Going on twice is going on. -/
lemma trans (h : Forward c c') (h' : Forward c' c'') : Forward c c'' where
  kind := h'.kind.trans h.kind
  packet other p held := h.packet other p (h'.packet (h.kind ▸ other) p held)
  pends := h.pends ∘ h'.pends
  launched := h.launched ∘ h'.launched

/-- A call that is resumed, settled or timed out goes on. -/
lemma frame (h : Call.Frame c c') : Forward c c' where
  kind := h.kind
  packet _ p held := h.pc ▸ held
  pends := by
    rintro (preparing | ⟨p, place, wake⟩)
    · exact .inl (h.pc ▸ preparing)
    · exact .inr ⟨p, h.pc ▸ place, h.parked wake⟩
  launched launched := h.pc ▸ launched

/-- The call goes to a place at which it has no packet. -/
lemma leave {wake : Wake} {seq : Nat} {req : Pending} (packet : pc.packet = none)
    (preparing : pc.preparing = false) (running : pc ≠ .launched) :
    Forward c { c with pc, wake, seq, req } where
  kind := rfl
  packet _ p held := absurd (packet.symm.trans held) (by simp)
  pends := by
    rintro (out | ⟨p, out | out, _⟩)
    · exact absurd (preparing.symm.trans out) (by simp)
    · simp [show pc = .channelSend p from out] at packet
    · simp [show pc = .channelSelect p from out] at packet
  launched out := absurd out running

end Forward

/-- A call at one of these places has put nothing just now. -/
lemma not_landed_aside (h : aside c.pc = true) : ¬ c.Landed := by
  rintro ⟨_, out | out | out | ⟨⟨p, out⟩, _⟩⟩
  · cases pc : c.pc <;> simp [pc] at h out
  all_goals simp [out] at h

namespace Calm

/-- A call that stays where it is puts nothing. -/
lemma refl (c : Call) : Calm c c := ⟨.refl c, fun h => h⟩

/-- Two steps that put nothing put nothing. -/
lemma trans (h : Calm c c') (h' : Calm c' c'') : Calm c c'' :=
  ⟨h.toForward.trans h'.toForward, h.landed ∘ h'.landed⟩

/-- The call is woken or settled, and left alone while it is in the channel. -/
lemma frame (h : Call.Frame c c') (alone : ∀ p, c.pc = .channelSend p → c' = c) : Calm c c' where
  toForward := .frame h
  landed := by
    rintro ⟨kind, place⟩
    by_cases send : ∃ p, c.pc = .channelSend p
    · obtain ⟨p, send⟩ := send
      rw [alone p send] at kind place
      exact ⟨kind, place⟩
    · rw [h.pc] at place
      refine ⟨h.kind ▸ kind, ?_⟩
      rcases place with out | out | out | ⟨out, _⟩
      · exact .inl out
      · exact .inr (.inl out)
      · exact .inr (.inr (.inl out))
      · exact absurd out send

/-- A call that gives up or waits for its response puts nothing. -/
lemma leave {wake : Wake} {seq : Nat} {req : Pending} (out : aside pc = true) :
    Calm c { c with pc, wake, seq, req } where
  toForward := by
    refine .leave ?_ ?_ ?_ <;> cases pc <;> simp_all
  landed landed := absurd landed (not_landed_aside out)

/-- The call is about to put its packet, and goes on to wait. -/
lemma wait {wake : Wake} {seq : Nat} {req : Pending} (before : c.pc.preparing = true)
    (same : c.kind ≠ .request → ∀ p, pc.packet = some p → c.pc.packet = some p)
    (running : pc ≠ .launched) (landed : ¬ Landed { c with pc, wake, seq, req }) :
    Calm c { c with pc, wake, seq, req } where
  kind := rfl
  packet := same
  pends _ := .inl before
  launched out := absurd out running
  landed out := absurd out landed

/-- The writer goes on, or is done. -/
lemma writes (before : c.pc.writing = true) (packet : pc.packet = none) (preparing : pc.preparing = false)
    (running : pc ≠ .launched) : Calm c { c with pc } where
  toForward := .leave packet preparing running
  landed landed := ⟨landed.1, .inl before⟩

/-- No local step puts a packet. -/
lemma localStep (h : LocalStep A s i c c') : Calm c c' := by
  have packet := fun p => Conn.Holds.packet_localStep (p := p) h
  cases h <;> refine ⟨⟨rfl, fun _ => packet, ?_, ?_⟩, ?_⟩ <;>
    simp_all [Pends, Landed, SendParked]

end Calm

end Call

namespace Conn

variable {env : Env} {A : Trigger} {s t u : Conn} {i j : Nat} {c : Call}

/-! ## Calls in the channel are left alone -/

/-- A call that is suspended in `outbound.send` is left as it is. -/
def SparesSenders (s t : Conn) : Prop := ∀ j p, (s.calls j).pc = .channelSend p → t.calls j = s.calls j

namespace SparesSenders

/-- Sparing the senders composes. -/
lemma trans (h : SparesSenders s t) (h' : SparesSenders t u) : SparesSenders s u := by
  intro j p place
  have same := h j p place
  rw [← same] at place
  exact (h' j p place).trans same

/-- A change of a call that is not in `outbound.send`. -/
lemma modCall {f : Call → Call} (away : ∀ p, (s.calls i).pc ≠ .channelSend p) :
    SparesSenders s (s.modCall i f) := by
  intro j p place
  refine modCall_calls_of_ne _ _ ?_
  rintro rfl
  exact away p place

/-- Resuming a call that is not in `outbound.send`. -/
lemma resume {k : Cont} {r : Resumption} (away : ∀ p, (s.calls k.call).pc ≠ .channelSend p) :
    SparesSenders s (s.resume k r) :=
  modCall (s := s) away

/-- A room wake-up spares the senders. -/
lemma wakeOneRoomWaiter (wf : s.Wf) : SparesSenders s s.wakeOneRoomWaiter := by
  unfold Conn.wakeOneRoomWaiter
  split
  case h_1 => exact fun _ _ _ => rfl
  case h_2 k ks queue =>
    have entry : RoomEntry s.calls k := (wf.room.mem k).mp (by simp [queue])
    obtain ⟨⟨⟨q, place⟩, _⟩, _⟩ := entry
    refine resume (s := { s with roomWaiters := ks }) fun p out => ?_
    rw [place] at out
    cases out

/-- A release spares the senders. -/
lemma releaseOutboundBytes (wf : s.Wf) (bytes : Int) :
    SparesSenders s (s.releaseOutboundBytes bytes) := by
  unfold Conn.releaseOutboundBytes
  dsimp only
  exact wakeOneRoomWaiter (s := { s with queuedBytes := if s.queuedBytes - bytes < 0 then 0 else _ })
    { wf with }

/-- A slot resumption spares the senders. -/
lemma resumeSlot (wf : (s.calls i).Wf i) : SparesSenders s (s.resumeSlot i) := by
  unfold Conn.resumeSlot
  split
  case h_1 => exact fun _ _ _ => rfl
  case h_2 k stored =>
    obtain ⟨rfl, place, _⟩ := wf.slotCont k stored
    have away : ∀ p, (s.calls i).pc ≠ .channelSend p := by simp [place]
    refine (resume (k := ⟨i, (s.calls i).seq⟩) away).trans (modCall ?_)
    simpa [((resume_steady ⟨i, (s.calls i).seq⟩ .unit s).calls i).pc] using away

/-- A slot wake-up spares the senders. -/
lemma wakeOneInFlightWaiter (wf : s.Wf) : SparesSenders s s.wakeOneInFlightWaiter := by
  unfold Conn.wakeOneInFlightWaiter
  split
  case h_1 => exact fun _ _ _ => rfl
  case h_2 k is _ => exact resumeSlot (s := { s with inFlightWaiters := is }) (wf.call k)

/-- A request is never in `outbound.send`. -/
lemma ne_of_request {p : Packet} (wf : s.Wf) (request : (s.calls i).kind = .request)
    (place : (s.calls j).pc = .channelSend p) : j ≠ i := by
  rintro rfl
  have kind := (wf.call j).kind
  simp only [place, Pc.Allows] at kind
  exact kind request

/-- The room part of the deadline spares the senders. -/
lemma runRoom (wf : s.Wf) : SparesSenders s (s.runRoom i) := by
  unfold Conn.runRoom
  split
  case h_1 => exact wakeOneInFlightWaiter wf
  case h_2 k stored =>
    obtain ⟨rfl, place⟩ := (wf.call i).roomCont k stored
    have away : ∀ p, (s.calls i).pc ≠ .channelSend p := by
      rintro p out
      rcases place with ⟨q, place⟩ | ⟨⟨o, place | place⟩, _⟩ <;> simp [place] at out
    obtain ⟨wf', woken⟩ := wf.resumeOwnRoom stored
    have resumed := resume (s := { s with roomWaiters := s.roomWaiters.erase ⟨i, (s.calls i).seq⟩ })
      (k := ⟨i, (s.calls i).seq⟩) (r := .unit) away
    have same := (resume_steady ⟨i, (s.calls i).seq⟩ .unit
      { s with roomWaiters := s.roomWaiters.erase ⟨i, (s.calls i).seq⟩ }).calls i
    set v : Conn := { s with roomWaiters := s.roomWaiters.erase ⟨i, (s.calls i).seq⟩ }.resume
      ⟨i, (s.calls i).seq⟩ .unit
    have lt : i < v.next := by
      refine wf'.lt_of_request (same.kind.trans ?_)
      by_contra other
      simp [(wf.call i).fresh other] at stored
    have dropped : (v.modReq i fun r => { r with roomCont := none }).Wf :=
      wf'.modReq lt ((wf'.call i).dropRoom woken) id
    dsimp only
    split
    case isTrue => exact resumed
    case isFalse =>
      refine SparesSenders.trans resumed (.trans (modCall ?_) (wakeOneInFlightWaiter dropped))
      rw [same.pc]
      exact away

/-- The firing of a timer spares the senders. -/
lemma fire (wf : s.Wf) (request : (s.calls i).kind = .request) : SparesSenders s (s.fire i) := by
  unfold Conn.fire
  exact fun _ _ place => modCall_calls_of_ne _ s (ne_of_request wf request place)

/-- A deadline that settles its request spares the senders. -/
lemma expire (wf : s.Wf) (request : (s.calls i).kind = .request) : SparesSenders s (s.expire i) := by
  unfold Conn.expire
  dsimp only
  set e : Throwable := .requestTimeout (s.calls i).req.id (s.calls i).req.timeoutMillis
  have failed : SparesSenders s (s.fail i e) :=
    fun _ _ place => fail_calls_of_ne (wf.call i) (ne_of_request wf request place)
  have wf' := wf.fail (i := i) (e := e) fun _ => request
  have slot := resumeSlot (s := (s.fail i e).unregister (s.calls i).req.id) (wf'.call i)
  exact failed.trans (slot.trans (runRoom (wf'.unregister.resumeSlot (fail_completed (wf.call i)))))

/-- The deadline spares the senders. -/
lemma run (wf : s.Wf) (armed : (s.calls i).req.armed) : SparesSenders s (s.run i) := by
  have request := wf.request_of_armed armed
  unfold Conn.run
  split
  case isTrue => exact fire wf request
  case isFalse =>
    exact (fire wf request).trans
      (expire (wf.fire request) (by simpa [Conn.fire, Conn.modReq] using request))

/-- A response spares the senders. -/
lemma onResponse {packet : Packet} (wf : s.Wf) : SparesSenders s (s.onResponse packet) := by
  unfold Conn.onResponse
  split
  case h_1 => exact fun _ _ _ => rfl
  case h_2 i found =>
    have request := wf.registry _ _ found
    have completed : SparesSenders s ((s.unregister packet.messageId).complete i packet) :=
      fun _ _ place => complete_calls_of_ne (s := s.unregister packet.messageId) (wf.call i)
        (ne_of_request wf request place)
    exact completed.trans (wakeOneInFlightWaiter (wf.unregister.complete request))

/-- A request that leaves its `select` spares the senders. -/
lemma abortSelect {p : Packet} (wf : s.Wf) (place : (s.calls i).pc = .channelSelect p)
    (woken : (s.calls i).wake ≠ .parked) : SparesSenders s (s.abortSelect i p) := by
  have request := (wf.call i).kind
  rw [place] at request
  have dropped : (s.modReq i fun r => { r with gate := false }).Wf :=
    wf.modReq (wf.lt_of_request request) ((wf.call i).dropGate woken request) id
  exact SparesSenders.trans (modCall (by simp [place])) (releaseOutboundBytes dropped _)

end SparesSenders

/-- Every call goes on, and none puts a packet. -/
def Calms (s t : Conn) : Prop := ∀ j, Call.Calm (s.calls j) (t.calls j)

namespace Calms

/-- Two effects that put nothing put nothing. -/
lemma trans (h : Calms s t) (h' : Calms t u) : Calms s u := fun j => (h j).trans (h' j)

/-- A frame that spares the senders puts nothing. -/
lemma frame (h : ∀ j, Call.Frame (s.calls j) (t.calls j)) (spares : SparesSenders s t) : Calms s t :=
  fun j => .frame (h j) fun p place => spares j p place

/-- One call goes on and puts nothing. -/
lemma update (calls : t.calls = Function.update s.calls i c) (calm : Call.Calm (s.calls i) c) :
    Calms s t := by
  intro j
  rw [calls]
  by_cases eq : j = i
  · subst eq
    rwa [Function.update_self]
  · rw [Function.update_of_ne eq]
    exact .refl _

/-- The end of a call puts nothing. -/
lemma finish {o : Outcome} (wf : s.Wf) (place : (s.calls i).pc = .unwinding o) :
    Calms s (s.finish i o) := by
  have ends {wake : Wake} {seq : Nat} {req : Pending} :
      Call.Calm (s.calls i) { s.calls i with pc := .ended o, wake, seq, req } := by
    refine ⟨.leave rfl rfl (by simp), ?_⟩
    rintro ⟨kind, out | out | out | ⟨⟨p, out⟩, _⟩⟩
    · cases out
    · cases out
    · cases out
      exact ⟨kind, .inr (.inl place)⟩
    · cases out
  have disposed : Calms s (s.dispose i o) := update rfl ends
  unfold Conn.finish
  split
  case isTrue request =>
    dsimp only
    split
    case isTrue =>
      refine disposed.trans (frame (t := Conn.wakeOneInFlightWaiter _) ?_ ?_)
      · exact ((unregister_frame _ _).trans (wakeOneInFlightWaiter_waking _).toFrame).calls
      · exact SparesSenders.wakeOneInFlightWaiter (s := (s.dispose i o).unregister _)
          (wf.dispose place request).unregister
    case isFalse => exact disposed
  case isFalse => exact update rfl ends

end Calms

/-! ## How an effect moves the path -/

/-- What becomes of call `j` in an effect: it goes on, or it is made. -/
def Onward (env : Env) (e : Event) (s t : Conn) (j : Nat) : Prop :=
  Call.Forward (s.calls j) (t.calls j) ∨ j = s.next ∧ (t.calls j).Starts env e

/-- How an effect moves the path: it stays as it is, the queue is dropped when the connection is closed,
or a call puts its packet behind the others. -/
inductive Advance (env : Env) (e : Event) (s t : Conn) : Prop where
  | rests :
    (∀ j, Onward env e s t j) → (∀ j, (t.calls j).Landed → (s.calls j).Landed) → t.path = s.path →
    Advance env e s t
  | shuts :
    t.closed = true → (∀ j, Call.Forward (s.calls j) (t.calls j)) → t.path <+: s.path →
    Advance env e s t
  | puts {i p l} :
    (s.calls i).pc = .roomLoop p ∨ (s.calls i).SendParked p → ¬ (t.calls i).Pends →
    (∀ j, Call.Forward (s.calls j) (t.calls j)) →
    (∀ j, j ≠ i → (t.calls j).Landed → (s.calls j).Landed) →
    l <+: s.path → env.config.outboundKind = .conflated ∨ l = s.path → t.path = l ++ [p] →
    Advance env e s t

/-- The write loop receives only from an empty buffer. -/
def Drained (s : Conn) : Prop := s.writeLoop = .receiving → s.outbound.buffer = []

/-- Only the successor of a writer is launched. -/
def Successors (s : Conn) : Prop := ∀ i, (s.calls i).pc = .launched → (s.calls i).kind = .successor

/-- When the write loop waits, it has emptied the buffer. -/
lemma Drained.loopNext : (s.loopNext env).Drained := by
  intro receiving
  unfold Conn.loopNext at receiving ⊢
  split at receiving
  case h_4 buffer _ =>
    simp only [buffer]
  all_goals simp [loopSend, encode, acceptSender, modCall] at receiving

/-- What leaves the channel alone keeps it so. -/
lemma Drained.still (h : s.Drained) (still : Still s t) : t.Drained := by
  intro receiving
  rw [still.buffer]
  exact h (still.writeLoop ▸ receiving)

/-- The write loop waits only at an empty buffer, whatever happens. -/
lemma Drained.effect (h : s.Drained) (eff : Effect env A s t) : t.Drained := by
  cases eff with
  | slotRefused _ _ _ _ _ _ =>
    refine h.still (Still.trans ?_ (finish_still _ _ _))
    exact { Still.refl s with }
  | putBuffer _ _ _ _ _ busy _ => exact fun receiving => absurd receiving busy
  | putHandoff _ _ _ _ _ _ => exact fun receiving => by cases receiving
  | @drainTake i p rest _ _ _ =>
    have woken := releaseOutboundBytes_waking (packetBytes p) { s with sendQueue := rest }
    intro receiving
    exact woken.buffer.trans (h (woken.writeLoop ▸ receiving))
  | @selectGate i p _ _ _ _ => exact h.still { (abortSelect_waking i p s).toStill with }
  | @selectCancelled i p _ _ _ => exact h.still { (abortSelect_waking i p s).toStill with }
  | loopFlushing _ _ => exact fun receiving => by cases receiving
  | loopEnd _ _ => exact fun receiving => by cases receiving
  | loopNext _ => exact .loopNext
  | loopRun _ _ => exact .loopNext
  | finish _ _ => exact h.still (finish_still _ _ s)
  | deadline _ _ _ _ _ _ => exact h.still (run_frame _ s).toStill
  | response _ _ _ _ _ _ _ => exact h.still (onResponse_frame _ s).toStill
  | shutdown opened _ =>
    have frame := shutdown_frame opened
    intro receiving
    rw [frame.buffer]
    exact h (frame.writeLoop ▸ receiving)
  | _ => exact h

namespace Advance

/-- No call puts a packet, and the path stays as it is. -/
lemma calms (h : Calms s t) (path : t.path = s.path) : Advance env e s t :=
  .rests (fun j => .inl (h j).toForward) (fun j => (h j).landed) path

/-- A call is made. -/
lemma makes (calls : t.calls = Function.update s.calls s.next c) (starts : c.Starts env e)
    (path : t.path = s.path) : Advance env e s t := by
  refine .rests (fun j => ?_) (fun j landed => ?_) path
  · by_cases eq : j = s.next
    · subst eq
      exact .inr ⟨rfl, by rwa [calls, Function.update_self]⟩
    · exact .inl (by rw [calls, Function.update_of_ne eq]; exact .refl _)
  · by_cases eq : j = s.next
    · subst eq
      rw [calls, Function.update_self] at landed
      exact absurd landed starts.landed
    · rwa [calls, Function.update_of_ne eq] at landed

/-- The call at `roomLoop` puts its packet and goes on. -/
lemma put {p : Packet} {l : List Packet} {pc : Pc} (place : (s.calls i).pc = .roomLoop p)
    (calls : t.calls = Function.update s.calls i { s.calls i with pc })
    (packet : pc.packet = none) (preparing : pc.preparing = false) (running : pc ≠ .launched)
    (pre : l <+: s.path) (kept : env.config.outboundKind = .conflated ∨ l = s.path)
    (path : t.path = l ++ [p]) : Advance env e s t := by
  have moved : Call.Forward (s.calls i) { s.calls i with pc } := .leave packet preparing running
  refine .puts (.inl place) ?_ (fun j => ?_) (fun j ne landed => ?_) pre kept path
  · rw [calls, Function.update_self]
    rintro (out | ⟨q, out | out, _⟩)
    · exact absurd (preparing.symm.trans out) (by simp)
    · simp [show pc = .channelSend q from out] at packet
    · simp [show pc = .channelSelect q from out] at packet
  · rw [calls]
    by_cases eq : j = i
    · subst eq
      rwa [Function.update_self]
    · rw [Function.update_of_ne eq]
      exact .refl _
  · rwa [calls, Function.update_of_ne ne] at landed

/-- The channel lets its first sender in. -/
lemma accepts {p : Packet} {senders : List (Nat × Packet)} (wf : u.Wf) (calm : Calms s u)
    (frame : ∀ j, Call.Frame (s.calls j) (u.calls j)) (queue : u.outbound.senders = (i, p) :: senders)
    (calls : t.calls = Function.update u.calls i { u.calls i with wake := .resumed .unit })
    (path : t.path = s.path ++ [p]) : Advance env e s t := by
  obtain ⟨place, parked⟩ := (wf.send.mem (i, p)).mp (by simp [queue])
  refine .puts (.inr ⟨(frame i).pc ▸ place, (frame i).parked parked⟩) ?_ (fun j => ?_)
    (fun j ne landed => ?_) List.prefix_rfl (.inr rfl) path
  · rw [calls, Function.update_self]
    rintro (out | ⟨q, _, out⟩)
    · rcases place with pc | pc <;> simp [pc] at out
    · cases out
  · refine (calm j).toForward.trans ?_
    rw [calls]
    by_cases eq : j = i
    · subst eq
      rw [Function.update_self]
      refine .frame ?_
      constructor <;> simp
    · rw [Function.update_of_ne eq]
      exact .refl _
  · rw [calls, Function.update_of_ne ne] at landed
    exact (calm j).landed landed

/-- The write loop takes the next packet and lets a sender in. -/
lemma loopNext (wf : u.Wf) (calm : Calms s u) (frame : ∀ j, Call.Frame (s.calls j) (u.calls j))
    (queue : u.sendQueue = []) (same : u.path = s.path) : Advance env e s (u.loopNext env) := by
  unfold Conn.loopNext
  split
  case h_1 packet rest buffer _ =>
    refine calms calm (.trans ?_ same)
    simp [path, loopSend, encode, buffer]
  case h_2 packet rest j q senders buffer waiting =>
    refine accepts wf calm frame waiting rfl ?_
    rw [← same]
    simp [path, loopSend, encode, acceptSender, modCall, buffer, queue]
  case h_3 j q senders buffer waiting =>
    refine accepts wf calm frame waiting rfl ?_
    rw [← same]
    simp [path, loopSend, encode, acceptSender, modCall, buffer, queue]
  case h_4 => exact calms calm same

/-- A call that has put its packet is not launched anew. -/
lemma afterPut_ne_launched (c : Call) : c.afterPut ≠ .launched := by
  unfold Call.afterPut
  split <;> simp

/-- How every effect moves the path. -/
theorem effect (wf : s.Wf) (lanes : Lanes env s) (drained : s.Drained) (successors : s.Successors)
    (h : Effect env A s t) : Advance env A.event s t := by
  cases h with
  | loc h => exact calms (.update rfl (.localStep h)) rfl
  | @reject c e id pc _ _ =>
    refine makes rfl ⟨fun _ p held => ?_, fun _ p held => ?_, fun launched => ?_, ?_⟩ rfl
    · simp [pc] at held
    · simp [pc] at held
    · simp [pc] at launched
    · exact Call.not_landed_aside (by simp [pc])
  | startRequest _ _ _ request pc _ _ _ _ =>
    refine makes rfl ⟨fun other => absurd request other, fun answer => ?_, fun launched => ?_, ?_⟩ rfl
    · simp [request] at answer
    · simp [pc] at launched
    · rintro ⟨kind | kind, _⟩ <;> simp [request] at kind
  | @startPut c p id kind pc _ _ _ sends prepared =>
    refine makes rfl ⟨fun _ q held => ?_, fun answer q held => ?_, fun launched => ?_, ?_⟩ rfl
    · simp only [pc, Pc.packet, Option.some.injEq] at held
      subst held
      unfold Call.Sends at sends
      rcases kind with kind | kind <;> simp only [kind] at sends
      · obtain ⟨_, ok⟩ := sends
        obtain ⟨⟨type, _, biz, body, marker, _⟩, _⟩ := outboundPacket_ok ok
        exact ⟨by simp [kind, CallKind.packetType, type], by simp [kind], biz,
          by rw [marker, body, prepared]⟩
      · obtain ⟨_, _, ok⟩ := sends
        obtain ⟨⟨type, _, biz, body, marker, _⟩, _⟩ := outboundPacket_ok ok
        exact ⟨by simp [kind, CallKind.packetType, type], by simp [kind], biz,
          by rw [marker, body, prepared]⟩
    · simp only [pc, Pc.packet, Option.some.injEq] at held
      subst held
      simp only [Call.Sends, answer] at sends
      obtain ⟨_, event, ok⟩ := sends
      obtain ⟨⟨_, named, _⟩, _⟩ := outboundPacket_ok ok
      exact ⟨_, _, named ▸ event⟩
    · simp [pc] at launched
    · rintro ⟨_, out | out | out | ⟨⟨q, out⟩, _⟩⟩ <;> simp [pc] at out
  | @slotPark i pc _ _ _ =>
    refine calms (.update rfl (.wait (by simp [pc]) (by simp) (by simp) ?_)) rfl
    rintro ⟨_, out | out | out | ⟨⟨q, out⟩, _⟩⟩ <;> simp at out
  | @register i p pc _ _ _ made =>
    have request := (wf.call i).kind
    simp only [pc, Pc.Allows] at request
    refine calms (.update rfl (.wait (by simp [pc]) (fun other => absurd request other) (by simp) ?_)) rfl
    rintro ⟨kind | kind, _⟩ <;> simp [request] at kind
  | @slotRefused i e pc _ _ _ _ _ =>
    have left : Calms s ({ s with pending := s.pending.set (s.calls i).req.id i }.setPc i
        (.unwinding (.threw e))) := .update rfl (.leave rfl)
    refine calms (left.trans (.finish (wf.refused pc) (setPc_pc _ _ _))) ?_
    have still := finish_still i (.threw e)
      ({ s with pending := s.pending.set (s.calls i).req.id i }.setPc i (.unwinding (.threw e)))
    rw [unwind, path, still.written, still.buffer, still.sendQueue]
    rfl
  | slotCancelled _ _ => exact calms (.update (slotCancelled_calls _ _ s) (.leave rfl)) rfl
  | @roomPark i p pc _ _ _ =>
    refine calms (.update rfl (.wait (by simp [pc]) (by simp [pc]) (by simp) ?_)) rfl
    rintro ⟨_, out | out | out | ⟨⟨q, out⟩, _⟩⟩ <;> simp at out
  | roomCancelled _ _ => exact calms (.update (roomCancelled_calls _ _ s) (.leave rfl)) rfl
  | putQueue pc _ _ _ _ _ =>
    refine put pc rfl (Call.afterPut_packet _) (Call.afterPut_preparing _) (afterPut_ne_launched _)
      List.prefix_rfl (.inr rfl) ?_
    simp [path, setPc, modCall]
  | putDrain pc _ _ _ _ _ =>
    refine put pc rfl (by split <;> rfl) (by split <;> rfl) (by split <;> simp)
      List.prefix_rfl (.inr rfl) ?_
    simp [path, setPc, modCall]
  | @putBuffer i p buffer pc _ _ _ channel _ kind =>
    have queue := lanes.channel channel
    rcases kind with rfl | ⟨conflated, rfl⟩
    -- a buffered channel appends, a conflated one drops what it had
    · refine put pc rfl (Call.afterPut_packet _) (Call.afterPut_preparing _) (afterPut_ne_launched _)
        List.prefix_rfl (.inr rfl) ?_
      simp [path, setPc, modCall, queue]
    · refine put pc rfl (Call.afterPut_packet _) (Call.afterPut_preparing _) (afterPut_ne_launched _)
        (l := s.written) (List.prefix_append _ _) (.inl conflated) ?_
      simp [path, setPc, modCall, queue]
  | putHandoff pc _ _ _ channel receiving =>
    refine put pc rfl (Call.afterPut_packet _) (Call.afterPut_preparing _) (afterPut_ne_launched _)
      List.prefix_rfl (.inr rfl) ?_
    simp [path, setPc, modCall, loopSend, encode, lanes.channel channel, drained receiving]
  | @sendPark i p pc _ _ _ _ _ =>
    refine calms (.update rfl (.wait (by simp [pc]) (by simp [pc]) (by simp) ?_)) rfl
    rintro ⟨_, out | out | out | ⟨_, r, wake⟩⟩
    · simp at out
    · simp at out
    · simp at out
    · cases wake
  | @selectPark i p pc _ _ request _ _ _ =>
    refine calms (.update rfl (.wait (by simp [pc]) (by simp [pc]) (by simp) ?_)) rfl
    rintro ⟨_, out | out | out | ⟨⟨q, out⟩, _⟩⟩ <;> simp at out
  | @drainTake i p rest pc _ queue =>
    have woken := releaseOutboundBytes_waking (packetBytes p) { s with sendQueue := rest }
    -- only the inline mode queues packets, so nothing is buffered between the queue and the socket
    have inline : env.config.writeMode = .inline := by
      cases mode : env.config.writeMode with
      | inline => rfl
      | channel => simp [lanes.channel mode] at queue
    have buffer := (lanes.inline inline).2.1
    have released : Calms s ({ s with sendQueue := rest }.releaseOutboundBytes (packetBytes p)) :=
      .frame woken.calls
        (SparesSenders.releaseOutboundBytes (s := { s with sendQueue := rest }) { wf with } _)
    refine calms (released.trans (.update rfl (.writes ?_ rfl rfl (by simp)))) ?_
    · rw [(woken.calls i).pc]
      simp [pc]
    · simp [path, setPc, modCall, encode, woken.written, woken.buffer, woken.sendQueue, queue, buffer]
  | @drainEnd i pc _ =>
    exact calms (.update rfl (.writes (by simp [pc]) (Call.afterPut_packet _)
      (Call.afterPut_preparing _) (afterPut_ne_launched _))) rfl
  | @successorStart i pc =>
    have successor := successors i pc
    refine calms (.update rfl ⟨.leave (by split <;> rfl) (by split <;> rfl) (by split <;> simp), ?_⟩) rfl
    rintro ⟨kind | kind, _⟩ <;> simp [successor] at kind
  | @handOff i pc _ _ _ =>
    have running : ∀ o, (s.calls i).pc ≠ .ended o := by
      intro o out
      rcases pc with pc | pc <;> simp [pc] at out
    have older := ne_of_lt (wf.lt_next running)
    -- two calls change: the writer leaves, and its successor is new
    refine .rests (fun j => ?_) (fun j landed => ?_) rfl
    · rw [Onward, setPc, modCall_calls]
      split
      case isTrue eq =>
        rw [addCall_calls, if_neg older, eq]
        exact .inl (.leave rfl rfl (by simp))
      case isFalse =>
        rw [addCall_calls]
        split
        case isTrue eq => exact .inr ⟨eq, by simp, by simp, fun _ => rfl, by simp [Call.Landed]⟩
        case isFalse => exact .inl (.refl _)
    · rw [setPc, modCall_calls] at landed
      split at landed
      case isTrue => exact absurd landed (Call.not_landed_aside rfl)
      case isFalse =>
        rw [addCall_calls] at landed
        split at landed
        case isTrue => simp [Call.Landed] at landed
        case isFalse => exact landed
  | writerStop _ _ _ _ => exact calms (.update rfl (.leave rfl)) rfl
  | @selectGate i p r pc woken _ =>
    have frame := abortSelect_waking i p s
    have spares := SparesSenders.abortSelect wf pc (by simp [woken])
    refine calms (.trans (.frame frame.calls spares) (.update rfl (.leave rfl))) ?_
    simp [path, setPc, modCall, frame.written, frame.buffer, frame.sendQueue]
  | @selectCancelled i p pc cancelled _ =>
    have frame := abortSelect_waking i p s
    have spares := SparesSenders.abortSelect wf pc (Wf.not_parked_of_cancelled cancelled)
    refine calms (.trans (.frame frame.calls spares) (.update rfl (.leave rfl))) ?_
    simp [path, setPc, modCall, frame.written, frame.buffer, frame.sendQueue]
  | @loopNext p flushing =>
    have woken := releaseOutboundBytes_waking (packetBytes p) s
    have channel : env.config.writeMode = .channel := by
      cases mode : env.config.writeMode with
      | channel => rfl
      | inline => simp [(lanes.inline mode).1] at flushing
    refine loopNext wf.releaseOutboundBytes (.frame woken.calls (.releaseOutboundBytes wf _))
      woken.calls (woken.sendQueue.trans (lanes.channel channel)) ?_
    rw [path, woken.written, woken.buffer, woken.sendQueue, path]
  | loopRun channel _ =>
    exact loopNext wf (fun _ => .refl _) (fun _ => .refl _) (lanes.channel channel) rfl
  | @cancelSlot i pc _ =>
    refine calms (.update (cancelSlot_calls _ s) (.frame ?_ fun p send => ?_)) rfl
    · constructor <;> simp
    · simp [pc] at send
  | @cancelRoom i p pc _ =>
    refine calms (.update (cancelRoom_calls _ s) (.frame ?_ fun p send => ?_)) rfl
    · constructor <;> simp
    · simp [pc] at send
  | @cancelSend i p pc _ _ =>
    refine calms (.update rfl ⟨.frame ?_, ?_⟩) rfl
    · constructor <;> simp
    · rintro ⟨_, out | out | out | ⟨_, r, wake⟩⟩
      · simp [pc] at out
      · simp [pc] at out
      · simp [pc] at out
      · cases wake
  | @cancelSelect i p pc _ =>
    refine calms (.update rfl (.frame ?_ fun p send => ?_)) rfl
    · constructor <;> simp
    · simp [pc] at send
  | @finish i o place _ =>
    have still := finish_still i o s
    refine calms (.finish wf place) ?_
    rw [path, still.written, still.buffer, still.sendQueue, path]
  | @deadline i _ armed _ _ _ _ =>
    have frame := run_frame i s
    refine calms (.frame frame.calls (.run wf armed)) ?_
    rw [path, frame.written, frame.buffer, frame.sendQueue, path]
  | @response i packet _ _ _ _ _ _ _ =>
    have frame := onResponse_frame packet s
    refine calms (.frame frame.calls (.onResponse wf)) ?_
    rw [path, frame.written, frame.buffer, frame.sendQueue, path]
  | shutdown opened _ =>
    have frame := shutdown_frame opened
    -- the queue is dropped, so the path is cut back to what is written or buffered
    refine .shuts frame.closed (fun j => .frame (shutdown_calls s j)) ?_
    rw [path, path, frame.written, frame.buffer, frame.sendQueue, List.append_nil]
    exact (List.prefix_append_right_inj _).mpr (List.prefix_append _ _)
  | _ => exact calms (fun _ => .refl _) rfl

end Advance

/-! ## The queue of calls -/

/-- What the queue of calls rests on. -/
structure Grounds (env : Env) (s : Conn) : Prop where
  wf : s.Wf
  reg : s.Reg
  requests : Requests env s
  lanes : Lanes env s
  drained : s.Drained
  successors : s.Successors
  sourced : ∀ i, (s.calls i).kind ≠ .request → ∀ p, (s.calls i).pc.packet = some p →
    (s.calls i).Bears env p

/-- The calls whose packets are on the path, in its order. -/
structure Outbox (env : Env) (owners : List Nat) (s : Conn) : Prop where
  carried : List.Forall₂ (fun i p => (s.calls i).Bears env p) owners s.path
  nodup : owners.Nodup
  put : ∀ i ∈ owners, i < s.next ∧ ¬ (s.calls i).Pends
  landed : s.closed = false → env.config.outboundKind ≠ .conflated →
    ∀ i, (s.calls i).Landed → i ∈ owners

namespace Grounds

/-- A new connection has no calls. -/
lemma init : Grounds env Conn.init where
  wf := .init
  reg := .init
  requests := .init
  lanes := .init
  drained := fun _ => rfl
  successors i launched := by simp [Conn.init] at launched
  sourced i _ p held := by simp [Conn.init] at held

/-- A call keeps its packet. -/
lemma bears {p : Packet} (ground : Grounds env s) (h : Effect env A s t) (known : i < s.next)
    (bears : (s.calls i).Bears env p) : (t.calls i).Bears env p := by
  have later := (Later.effect ground.wf h).call known
  exact ⟨later.kind ▸ bears.type, fun request => later.id ▸ bears.id (later.kind ▸ request),
    later.bizType ▸ bears.bizType, later.payload ▸ bears.payload⟩

/-- The packet in the frame of a call is its own. -/
lemma own {p : Packet} (ground : Grounds env s) (held : (s.calls i).pc.packet = some p) :
    (s.calls i).Bears env p := by
  by_cases request : (s.calls i).kind = .request
  · have carries := (ground.requests.sourced i).request request p held
    exact ⟨by rw [request, carries.type]; rfl, fun _ => carries.id, carries.bizType, carries.payload⟩
  · exact ground.sourced i request p held

/-- A call that has a packet has been made. -/
lemma running {p : Packet} (ground : Grounds env s) (held : (s.calls i).pc.packet = some p) :
    i < s.next := by
  refine ground.wf.lt_next fun o out => ?_
  simp [out] at held

/-- Every effect moves a call on or makes it. -/
lemma onward (ground : Grounds env s) (h : Effect env A s t) (j : Nat) : Onward env A.event s t j := by
  cases Advance.effect ground.wf ground.lanes ground.drained ground.successors h with
  | rests onward _ _ => exact onward j
  | shuts _ forward _ => exact .inl (forward j)
  | puts _ _ forward _ _ _ _ => exact .inl (forward j)

/-- Every effect keeps what the queue of calls rests on. -/
theorem effect (ground : Grounds env s) (h : Effect env A s t) : Grounds env t where
  wf := ground.wf.effect h
  reg := ground.reg.effect ground.wf h
  requests := ground.requests.effect ground.wf ground.reg h
  lanes := ground.lanes.effect ground.wf h
  drained := ground.drained.effect h
  successors i launched := by
    rcases ground.onward h i with forward | ⟨_, starts⟩
    · exact forward.kind.trans (ground.successors i (forward.launched launched))
    · exact starts.launched launched
  sourced i other p held := by
    rcases ground.onward h i with forward | ⟨_, starts⟩
    · have before := forward.packet (forward.kind ▸ other) p held
      exact ground.bears h (ground.running before) (ground.sourced i (forward.kind ▸ other) p before)
    · exact starts.packet other p held

end Grounds

namespace Outbox

variable {owners : List Nat}

/-- The queue of a new connection is empty. -/
lemma init : Outbox env [] Conn.init where
  carried := .nil
  nodup := .nil
  put i mem := by cases mem
  landed _ _ i landed := by simp [Call.Landed, Conn.init] at landed

/-- A call in the queue has put its packet for good. -/
lemma put_next (box : Outbox env owners s) (ground : Grounds env s) (h : Effect env A s t)
    (mem : i ∈ owners) : i < t.next ∧ ¬ (t.calls i).Pends := by
  obtain ⟨known, put⟩ := box.put i mem
  refine ⟨Nat.lt_of_lt_of_le known (Later.effect ground.wf h).next, fun pends => ?_⟩
  rcases ground.onward h i with forward | ⟨new, _⟩
  · exact put (forward.pends pends)
  · omega

/-- The packets that stay on the path keep their calls. -/
lemma carried_prefix {l : List Packet} (box : Outbox env owners s) (ground : Grounds env s)
    (h : Effect env A s t) (pre : l <+: s.path) :
    List.Forall₂ (fun i p => (t.calls i).Bears env p) (owners.take l.length) l := by
  have before := List.forall₂_take l.length box.carried
  rw [← List.prefix_iff_eq_take.mp pre] at before
  have known : ∀ i ∈ owners.take l.length, i < s.next :=
    fun i mem => (box.put i (List.mem_of_mem_take mem)).1
  clear pre
  generalize owners.take l.length = front at before known
  induction before with
  | nil => exact .nil
  | cons head _ ih =>
    obtain ⟨first, others⟩ := List.forall_mem_cons.mp known
    exact .cons (ground.bears h first head) (ih others)

/-- Every effect leaves the queue as it is, or adds a call at its end; packets are dropped only by a
conflated channel and with the connection. -/
theorem effect (box : Outbox env owners s) (ground : Grounds env s) (h : Effect env A s t) :
    ∃ owners', Outbox env owners' t ∧
      (t.closed = false → env.config.outboundKind ≠ .conflated → owners <+: owners') := by
  have length := box.carried.length_eq
  have opens := effect_opened h
  cases Advance.effect ground.wf ground.lanes ground.drained ground.successors h with
  | rests _ landed path =>
    refine ⟨owners, ⟨?_, box.nodup, fun i => box.put_next ground h, fun opened kind i out => ?_⟩,
      fun _ _ => List.prefix_rfl⟩
    · have carried := box.carried_prefix ground h (l := s.path) List.prefix_rfl
      rwa [← length, List.take_length, ← path] at carried
    · exact box.landed (opens opened) kind i (landed i out)
  | shuts closed _ pre =>
    refine ⟨owners.take t.path.length, ⟨box.carried_prefix ground h pre,
      box.nodup.sublist (List.take_sublist _ _),
      fun i mem => box.put_next ground h (List.mem_of_mem_take mem), fun opened => ?_⟩, fun opened => ?_⟩
    · simp [closed] at opened
    · simp [closed] at opened
  | @puts i p l place put _ landed pre kept path =>
    have held : (s.calls i).pc.packet = some p := by
      rcases place with pc | ⟨pc | pc, _⟩ <;> simp [pc]
    have known := ground.running held
    have absent : i ∉ owners := by
      intro mem
      refine (box.put i mem).2 ?_
      rcases place with pc | parked
      · exact .inl (by simp [pc])
      · exact .inr ⟨p, parked⟩
    have whole (kind : env.config.outboundKind ≠ .conflated) : owners.take l.length = owners := by
      rw [kept.resolve_left kind, ← length, List.take_length]
    refine ⟨owners.take l.length ++ [i], ⟨?_, ?_, ?_, ?_⟩, fun _ kind => ?_⟩
    · rw [path]
      exact List.rel_append (box.carried_prefix ground h pre)
        (.cons (ground.bears h known (ground.own held)) .nil)
    · refine List.nodup_append.mpr ⟨box.nodup.sublist (List.take_sublist _ _), by simp, ?_⟩
      rintro j mem k own rfl
      cases List.mem_singleton.mp own
      exact absent (List.mem_of_mem_take mem)
    · intro j mem
      rcases List.mem_append.mp mem with mem | mem
      · exact box.put_next ground h (List.mem_of_mem_take mem)
      · cases List.mem_singleton.mp mem
        exact ⟨Nat.lt_of_lt_of_le known (Later.effect ground.wf h).next, put⟩
    · intro opened kind j out
      rw [whole kind, List.mem_append, List.mem_singleton]
      by_cases eq : j = i
      · exact .inr eq
      · exact .inl (box.landed (opens opened) kind j (landed j eq out))
    · rw [whole kind]
      exact List.prefix_append _ _

/-- The queue was `owners` before. -/
def Extends (env : Env) (owners : List Nat) (t : Conn) : Prop :=
  ∃ owners', Outbox env owners' t ∧
    (t.closed = false → env.config.outboundKind ≠ .conflated → owners <+: owners')

/-- What becomes of the queue along a run. -/
lemma grows (box : Outbox env owners s) (ground : Grounds env s)
    (run : Runs.Reach (step env) Runs.always s t) : Grounds env t ∧ Extends env owners t := by
  refine run.invariant (P := fun t => Grounds env t ∧ Extends env owners t)
    ⟨ground, owners, box, fun _ _ => List.prefix_rfl⟩ fun u e v held _ st => ?_
  refine Runs.star_preserves (P := fun t => Grounds env t ∧ Extends env owners t)
    (fun u v eff held => ?_) (step_effects st) held
  obtain ⟨ground, owners', box, pre⟩ := held
  obtain ⟨owners'', box', pre'⟩ := box.effect ground eff
  refine ⟨ground.effect eff, owners'', box', fun opened kind => ?_⟩
  exact (pre (effect_opened eff opened) kind).trans (pre' opened kind)

end Outbox

/-- In every state of a run the packets that have entered the outbound path belong to different calls,
each of which made its packet; a `send` or an answer that has returned is among them while the connection
is open; and the queue of these calls is only ever extended at its end. -/
theorem sends_queue_up (run : Runs.Reach (step env) Runs.always init s)
    (later : Runs.Reach (step env) Runs.always s t) :
    ∃ owners owners', Outbox env owners s ∧ Outbox env owners' t ∧
      (t.closed = false → env.config.outboundKind ≠ .conflated → owners <+: owners') := by
  obtain ⟨ground, owners, box, _⟩ := Outbox.init.grows .init run
  obtain ⟨_, owners', box', pre⟩ := box.grows ground later
  exact ⟨owners, owners', box, box', pre⟩

/-- Two sends through the channel, the first of which has returned before the second is made. -/
theorem sends_queue_up_two : ∃ s t owners owners', (s.calls 0).pc = .ended .done ∧
    t.path.length = 2 ∧ 0 ∈ owners ∧ owners <+: owners' ∧ Outbox (.tight .channel) owners' t ∧
    Runs.Reach (step (.tight .channel)) Runs.always s t := by
  have exec : ((Runs.exec (step (.tight .channel)) init [.loopRun, .sendOne]).bind fun s =>
      (Runs.exec (step (.tight .channel)) s [.sendOne]).map fun t =>
        (s.closed, (s.calls 0).kind, (s.calls 0).pc, t.closed, t.path.length)) =
      some (false, .oneWay, .ended .done, false, 2) := by decide
  obtain ⟨s, run, rest⟩ := Option.bind_eq_some_iff.mp exec
  obtain ⟨t, later, facts⟩ := Option.map_eq_some_iff.mp rest
  simp only [Prod.mk.injEq] at facts
  obtain ⟨before, kind, returned, opened, length⟩ := facts
  have later := Runs.reach_always_of_exec later
  obtain ⟨owners, owners', box, box', pre⟩ :=
    sends_queue_up (Runs.reach_always_of_exec run) later
  refine ⟨s, t, owners, owners', returned, length, ?_, pre opened (by decide), box', later⟩
  exact box.landed before (by decide) 0 ⟨.inl kind, .inr (.inr (.inl returned))⟩

end Conn

end MsgTrans
