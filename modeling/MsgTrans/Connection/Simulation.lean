import Mathlib.Logic.Relation
import MsgTrans.Connection.Frame

/-!
# Steps are chains of effects

Every step of the connection is a chain of effects that takes no other flawed branch than those
that `Flaw.Occurs` announces for it (`step_effects`). The lemmas follow the calls of `Ops.lean` from
the leaves up: what an operation does from the place in the code where it starts is a chain.
-/

namespace MsgTrans

/-- A chain of effects. -/
abbrev Effects (env : Env) (A : Trigger) : Conn → Conn → Prop :=
  Relation.ReflTransGen (Effect env A)

namespace Conn

/-! ## Operations that start by moving their call -/

/-- `awaitResponse` starts with a move of its own. -/
lemma awaitResponse_setPc (i pc) (s : Conn) :
    (s.setPc i pc).awaitResponse i = s.awaitResponse i := by
  simp [awaitResponse]

/-- `unwind` starts with a move of its own. -/
lemma unwind_setPc (i pc o) (s : Conn) : (s.setPc i pc).unwind i o = s.unwind i o := by
  simp [unwind]

/-- `afterEnqueue` does not read the place of its call. -/
lemma afterEnqueue_setPc (i pc) (s : Conn) :
    (s.setPc i pc).afterEnqueue i = s.afterEnqueue i := by
  rw [afterEnqueue, afterEnqueue, awaitResponse_setPc, unwind_setPc]
  simp [setPc]

/-- `awaitOutboundRoom` starts with a move of its own. -/
lemma awaitOutboundRoom_setPc (env i pc packet) (s : Conn) :
    (s.setPc i pc).awaitOutboundRoom env i packet = s.awaitOutboundRoom env i packet := by
  simp [awaitOutboundRoom]

/-- `slotLoop` starts with a move of its own. -/
lemma slotLoop_setPc (env i pc) (s : Conn) :
    (s.setPc i pc).slotLoop env i = s.slotLoop env i := by
  simp [slotLoop]

/-- `enqueueChecked` starts with a move of its own. -/
lemma enqueueChecked_setPc (env i pc packet) (s : Conn) :
    (s.setPc i pc).enqueueChecked env i packet = s.enqueueChecked env i packet := by
  simp [enqueueChecked]

/-- The calls after a new one was made. -/
lemma addCall_calls (c) (s : Conn) (j : Nat) :
    (s.addCall c).calls j = if j = s.next then c else s.calls j := by
  simp [addCall, Function.update_apply]

section
variable {env : Env} {A : Trigger} {s t : Conn} {i : Nat}

/-! ## The end of a call -/

/-- Nothing has changed that decides whether the end of call `i` wakes a slot waiter, and whom. -/
structure SameSlots (i : Nat) (s s' : Conn) : Prop where
  closed : s'.closed = s.closed
  pending : s'.pending = s.pending
  waiters : s'.inFlightWaiters.filter (· ≠ i) = s.inFlightWaiters.filter (· ≠ i)
  kind : ∀ j, (s'.calls j).kind = (s.calls j).kind
  id : ∀ j, (s'.calls j).req.id = (s.calls j).req.id
  completed : ∀ j, (s'.calls j).req.isCompleted = (s.calls j).req.isCompleted

namespace SameSlots

/-- The slot queue seen from call `i` stays the same over two steps. -/
lemma trans {u : Conn} (h : SameSlots i s t) (h' : SameSlots i t u) : SameSlots i s u where
  closed := h'.closed.trans h.closed
  pending := h'.pending.trans h.pending
  waiters := h'.waiters.trans h.waiters
  kind j := (h'.kind j).trans (h.kind j)
  id j := (h'.id j).trans (h.id j)
  completed j := (h'.completed j).trans (h.completed j)

/-- A request unsettled after the step was so before. -/
lemma unsettled (h : SameSlots i s t) (unsettled : t.Unsettled i) : s.Unsettled i := by
  simpa only [Unsettled, Registered, h.closed, h.pending, h.kind, h.id, h.completed] using unsettled

/-- A wake-up that would be absorbed after the step would have been before. -/
lemma nextDead (h : SameSlots i s t) (dead : t.NextDead i) : s.NextDead i := by
  simpa only [NextDead, h.waiters, h.completed] using dead

/-- A change of one record that keeps its kind, its id and whether it is settled. -/
lemma modCall {j : Nat} {f : Call → Call} (kind : (f (s.calls j)).kind = (s.calls j).kind)
    (id : (f (s.calls j)).req.id = (s.calls j).req.id)
    (completed : (f (s.calls j)).req.isCompleted = (s.calls j).req.isCompleted) :
    SameSlots i s (s.modCall j f) := by
  have at_j : ∀ {α : Type} (g : Call → α), g (f (s.calls j)) = g (s.calls j) →
      ∀ k, g ((s.modCall j f).calls k) = g (s.calls k) := by
    intro α g same k
    rw [modCall_calls]
    split
    case isTrue eq => rw [eq, same]
    case isFalse => rfl
  exact ⟨rfl, rfl, rfl, at_j _ kind, at_j (·.req.id) id, at_j (·.req.isCompleted) completed⟩

/-- Moving a call does not touch the slots. -/
lemma setPc {j : Nat} {pc : Pc} : SameSlots i s (s.setPc j pc) :=
  modCall rfl rfl rfl

/-- Releasing bytes does not touch the slots. -/
lemma releaseOutboundBytes {bytes : Int} : SameSlots i s (s.releaseOutboundBytes bytes) := by
  unfold Conn.releaseOutboundBytes wakeOneRoomWaiter
  dsimp only
  split
  case h_1 => exact ⟨rfl, rfl, rfl, fun _ => rfl, fun _ => rfl, fun _ => rfl⟩
  case h_2 k ks _ =>
    have woken : SameSlots i s (s.modCall k.call (Call.resumed k.seq .unit)) := by
      apply modCall <;> (unfold Call.resumed; split <;> rfl)
    exact ⟨rfl, rfl, rfl, woken.kind, woken.id, woken.completed⟩

end SameSlots

/-- Unwinding from a place in the code is that place's effect and the end of the call. -/
lemma unwind_effects {o : Outcome} (start : Effects env A t (s.setPc i (.unwinding o)))
    (lost : s.Unsettled i → s.NextDead i → A .slotWakeAbsorbed) :
    Effects env A t (s.unwind i o) := by
  refine start.tail (.finish (by simp [setPc]) ?_)
  intro unsettled dead
  exact lost (SameSlots.setPc.unsettled unsettled) (SameSlots.setPc.nextDead dead)

/-- `await` returns, throws or suspends. -/
lemma awaitResponse_effects (pc : (s.calls i).pc = .awaiting) :
    Effects env A s (s.awaitResponse i) := by
  rw [awaitResponse, setPc_self pc]
  dsimp only
  split
  case h_1 p res =>
    apply unwind_effects
    · exact .single (.loc (.awaitReturn pc res))
    · intro unsettled
      simp [Unsettled, Pending.isCompleted, res] at unsettled
  case h_2 e res err =>
    apply unwind_effects
    · exact .single (.loc (.awaitThrow pc res err))
    · intro unsettled
      simp [Unsettled, Pending.isCompleted, err] at unsettled
  case h_3 res err =>
    have eff : Effect env A s _ := .loc (.awaitPark pc res err)
    have eq : (s.modReq i fun r => { r with waiter := some (s.newCont i) }).park i .await =
        s.modCall i fun _ => { s.calls i with
          pc := .await, wake := .parked, seq := (s.calls i).seq + 1
          req := { (s.calls i).req with waiter := some ⟨i, (s.calls i).seq + 1⟩ } } := by
      simp [park, modReq, modCall, newCont]
    rw [eq]
    exact .single eff

/-- A call whose packet is queued goes on to its response or to its end. -/
lemma afterEnqueue_effects (pc : (s.calls i).pc = (s.calls i).afterPut) :
    Effects env A s (s.afterEnqueue i) := by
  unfold afterEnqueue
  split
  case isTrue request =>
    exact awaitResponse_effects (by simp [pc, Call.afterPut, request])
  case isFalse other =>
    apply unwind_effects
    · rw [setPc_self (by simp [pc, Call.afterPut, other])]
    · intro unsettled
      exact absurd unsettled.1.1 other

/-- After an effect that put the call's packet on the outbound path. -/
lemma afterEnqueue_of_put (eff : Effect env A t (s.setPc i (s.calls i).afterPut)) :
    Effects env A t (s.afterEnqueue i) := by
  rw [← afterEnqueue_setPc i (s.calls i).afterPut s]
  refine (Relation.ReflTransGen.single eff).trans (afterEnqueue_effects ?_)
  simp [setPc, Call.afterPut]

/-- A request that was settled before its packet was queued. -/
lemma afterEnqueue_of_settled (request : (s.calls i).kind = .request)
    (eff : Effect env A s (s.setPc i .awaiting)) : Effects env A s (s.afterEnqueue i) := by
  apply afterEnqueue_of_put
  simpa [Call.afterPut, request] using eff

/-! ## The inline writer -/

/-- One turn of the writer's loop. -/
lemma drainLoop_effects (pc : (s.calls i).pc = .draining) :
    Effects env A s (s.drainLoop env i) := by
  unfold drainLoop
  split
  case isTrue closed =>
    apply afterEnqueue_of_put
    exact .drainEnd pc (.inl closed)
  case isFalse opened =>
    split
    case h_1 empty =>
      apply afterEnqueue_of_put
      exact .drainEnd pc (.inr empty)
    case h_2 packet rest queue =>
      exact .single (.drainTake pc (by simpa using opened) queue)

/-- `drainAsWriter` from the effect by which its coroutine becomes the writer. -/
lemma drainAsWriter_effects
    (eff : Effect env A t ({ s with writerActive := true }.setPc i
      (if s.writeBuf = [] then .draining else .socketWrite))) :
    Effects env A t (s.drainAsWriter env i) := by
  unfold drainAsWriter
  dsimp only
  split
  case isTrue left =>
    have left : s.writeBuf ≠ [] := left
    rw [if_neg left] at eff
    simpa using Relation.ReflTransGen.single eff
  case isFalse clean =>
    have clean : s.writeBuf = [] := not_not.mp clean
    rw [if_pos clean] at eff
    refine (Relation.ReflTransGen.single eff).trans (drainLoop_effects ?_)
    simp [setPc]

/-! ## The outbound path -/

/-- What an accepted `trySend` did. -/
lemma trySend_some {p : Packet} {s' : Conn} (sent : s.trySend env p = some s') :
    (s.writeLoop = .receiving ∧ s' = s.loopSend env p) ∨
    (s.writeLoop ≠ .receiving ∧ ∃ buffer, (buffer = s.outbound.buffer ++ [p] ∨
      env.config.outboundKind = .conflated ∧ buffer = [p]) ∧
      s' = { s with outbound := { s.outbound with buffer } }) := by
  unfold trySend at sent
  split at sent
  case isTrue => cases sent
  case isFalse =>
    split at sent
    case isTrue receiving =>
      cases sent
      exact .inl ⟨receiving, rfl⟩
    case isFalse busy =>
      split at sent
      case h_1 conflated =>
        cases sent
        exact .inr ⟨busy, _, .inr ⟨conflated, rfl⟩, rfl⟩
      case h_2 capacity _ =>
        split at sent
        case isTrue =>
          cases sent
          exact .inr ⟨busy, _, .inl rfl, rfl⟩
        case isFalse => cases sent

/-- A refused `trySend` on an open channel found no receiver. -/
lemma trySend_none {p : Packet} (opened : s.closed = false) (refused : s.trySend env p = none) :
    s.writeLoop ≠ .receiving := by
  intro receiving
  simp [trySend, opened, receiving] at refused

/-- `put` in INLINE mode. -/
lemma put_inline_effects {p : Packet} (pc : (s.calls i).pc = .roomLoop p)
    (opened : s.closed = false) (room : s.roomFor env (packetBytes p))
    (live : (s.calls i).kind = .request → (s.calls i).req.isCompleted = false)
    (mode : env.config.writeMode = .inline) : Effects env A s (s.put env i p) := by
  unfold put
  simp only [mode]
  split
  case isTrue active =>
    apply afterEnqueue_of_put
    exact .putQueue pc opened room live mode active
  case isFalse idle =>
    apply drainAsWriter_effects
    exact .putDrain pc opened room live mode (by simpa using idle)

/-- `put` in CHANNEL mode. -/
lemma put_channel_effects {p : Packet} (pc : (s.calls i).pc = .roomLoop p)
    (opened : s.closed = false) (room : s.roomFor env (packetBytes p))
    (live : (s.calls i).kind = .request → (s.calls i).req.isCompleted = false)
    (mode : env.config.writeMode = .channel) : Effects env A s (s.put env i p) := by
  set s₁ : Conn := { s with queuedBytes := s.queuedBytes + packetBytes p } with eq₁
  have accepted : ∀ s₂, s₁.trySend env p = some s₂ →
      Effect env A s (s₂.setPc i (s₂.calls i).afterPut) := by
    intro s₂ sent
    rcases trySend_some sent with ⟨receiving, rfl⟩ | ⟨busy, buffer, shape, rfl⟩
    · exact .putHandoff pc opened room live mode receiving
    · exact .putBuffer pc opened room live mode busy shape
  unfold put
  simp only [mode, ← eq₁]
  split
  case isTrue request =>
    split
    case h_1 s₂ sent => exact afterEnqueue_of_put (accepted s₂ sent)
    case h_2 refused =>
      have fresh : (s₁.calls i).req.isCompleted = false := live request
      have notClosed : s₁.closed = false := opened
      have busy := trySend_none notClosed refused
      rw [sendRacingDeadline, if_neg (by simp [fresh]), if_neg (by simp [notClosed])]
      have eff : Effect env A s _ := .selectPark pc opened room request fresh mode busy
      simpa [park, modReq, modCall, eq₁] using Relation.ReflTransGen.single eff
  case isFalse other =>
    unfold channelSend
    split
    case h_1 s₂ sent =>
      have eff := afterEnqueue_of_put (accepted s₂ sent)
      have same : (s₂.calls i).kind ≠ .request := by
        rcases trySend_some sent with ⟨_, rfl⟩ | ⟨_, _, _, rfl⟩ <;> exact other
      simpa [afterEnqueue, same] using eff
    case h_2 refused =>
      have notClosed : s₁.closed = false := opened
      have busy := trySend_none notClosed refused
      rw [if_neg (by simp [notClosed])]
      exact .single (.sendPark pc opened room other mode busy)

/-- `put`, in either mode. -/
lemma put_effects {p : Packet} (pc : (s.calls i).pc = .roomLoop p)
    (opened : s.closed = false) (room : s.roomFor env (packetBytes p))
    (live : (s.calls i).kind = .request → (s.calls i).req.isCompleted = false) :
    Effects env A s (s.put env i p) := by
  cases mode : env.config.writeMode with
  | channel => exact put_channel_effects pc opened room live mode
  | inline => exact put_inline_effects pc opened room live mode

/-- One turn of the room loop. -/
lemma awaitOutboundRoom_effects {p : Packet} (pc : (s.calls i).pc = .roomLoop p) :
    Effects env A s (s.awaitOutboundRoom env i p) := by
  unfold awaitOutboundRoom
  rw [setPc_self pc]
  dsimp only
  have settled : ((s.calls i).kind == .request && (s.calls i).req.isCompleted) = true →
      Effects env A s (s.afterEnqueue i) := by
    intro settled
    rw [Bool.and_eq_true, beq_iff_eq] at settled
    exact afterEnqueue_of_settled settled.1 (.loc (.roomSettled pc settled.1 settled.2))
  split
  case isTrue opened =>
    have opened : s.closed = false := by simpa using opened
    split
    case isTrue done => exact settled done
    case isFalse live =>
      have live : (s.calls i).kind = .request → (s.calls i).req.isCompleted = false := by
        simpa using live
      split
      case isTrue room => exact put_effects pc opened room live
      case isFalse full =>
        have eff : Effect env A s _ := .roomPark pc opened (by simpa using full) live
        cases request : (s.calls i).kind == .request with
        | true =>
          simp only [beq_iff_eq] at request
          simpa [park, modReq, modCall, newCont, request] using Relation.ReflTransGen.single eff
        | false =>
          simp only [beq_eq_false_iff_ne] at request
          simpa [park, modReq, modCall, newCont, request] using Relation.ReflTransGen.single eff
  case isFalse closed =>
    have closed : s.closed = true := by simpa using closed
    split
    case isTrue done => exact settled done
    case isFalse =>
      apply unwind_effects
      · exact .single (.loc (.roomClosed pc closed))
      · intro unsettled
        simp [Unsettled, closed] at unsettled

/-- The room check of `enqueue`. -/
lemma enqueueChecked_effects {p : Packet} (pc : (s.calls i).pc = .roomLoop p)
    (live : (s.calls i).kind = .request → (s.calls i).req.isCompleted = false) :
    Effects env A s (s.enqueueChecked env i p) := by
  unfold enqueueChecked
  rw [setPc_self pc]
  dsimp only
  split
  case isTrue room =>
    rw [hasOutboundRoom, Bool.and_eq_true] at room
    exact put_effects pc (by simpa using room.1) room.2 live
  case isFalse => exact awaitOutboundRoom_effects pc

/-! ## New calls -/

/-- A request that has its slot enters the registry and goes on to its `enqueue`. -/
lemma register_effects (pc : (s.calls i).pc = .slotLoop) (opened : s.closed = false)
    (free : (s.pending.size : Int) < env.config.maxInFlightRequests)
    (live : (s.calls i).req.isCompleted = false)
    (lost : (s.calls i).wake ≠ .parked → s.Refused env i → s.NextDead i → A .slotWakeAbsorbed) :
    Effects env A s (s.register env i) := by
  unfold register
  dsimp only
  split
  case h_1 e refused =>
    exact .single (.slotRefused pc opened free live refused fun woken => lost woken ⟨e, refused⟩)
  case h_2 p built =>
    have eff : Effect env A s _ := .register pc opened free live built
    rw [← enqueueChecked_setPc env i (.roomLoop p)]
    refine (Relation.ReflTransGen.single eff).trans (enqueueChecked_effects ?_ ?_)
    · simp [setPc]
    · intro _
      simpa [setPc] using live

/-- One turn of the slot loop. -/
lemma slotLoop_effects (pc : (s.calls i).pc = .slotLoop)
    (lost : (s.calls i).wake ≠ .parked → s.Refused env i → s.NextDead i → A .slotWakeAbsorbed) :
    Effects env A s (s.slotLoop env i) := by
  unfold slotLoop
  rw [setPc_self pc]
  dsimp only
  split
  case isTrue full =>
    simp only [Bool.and_eq_true, Bool.not_eq_true', decide_eq_true_eq] at full
    obtain ⟨⟨opened, full⟩, live⟩ := full
    have eff : Effect env A s _ := .slotPark pc opened full live
    simpa [park, modReq, modCall, newCont] using Relation.ReflTransGen.single eff
  case isFalse go =>
    split
    case isTrue settled =>
      rw [← awaitResponse_setPc i .awaiting]
      have eff : Effect env A s (s.setPc i .awaiting) := .loc (.slotSettled pc settled)
      exact (Relation.ReflTransGen.single eff).trans (awaitResponse_effects (by simp [setPc]))
    case isFalse live =>
      have live : (s.calls i).req.isCompleted = false := by simpa using live
      split
      case isTrue closed =>
        apply unwind_effects
        · exact .single (.loc (.slotClosed pc live closed))
        · intro unsettled
          simp [Unsettled, closed] at unsettled
      case isFalse opened =>
        have opened : s.closed = false := by simpa using opened
        have free : (s.pending.size : Int) < env.config.maxInFlightRequests := by
          simpa [opened, live] using go
        exact register_effects pc opened free live lost

/-- `request` is a chain of effects. -/
lemma requestOnOwner_effects {payload bizType timeoutMillis compression}
    (event : A.event = .request payload bizType timeoutMillis compression) :
    Effects env A s (s.requestOnOwner env payload bizType timeoutMillis compression) := by
  unfold requestOnOwner
  dsimp only
  split
  case isTrue => exact .single (.reject rfl rfl rfl)
  case isFalse opened =>
    split
    case h_1 => exact .single (.reject rfl rfl rfl)
    case h_2 encoded prepared =>
      split
      case isTrue => exact .single (.reject rfl rfl rfl)
      case isFalse left =>
        have eff : Effect env A s _ := .startRequest
          (c := { kind := .request, payload, bizType, compression, encoded, pc := .slotLoop
                  req := { id := s.requestId + 1, timeoutMillis
                           armed := decide (timeoutMillis > 0) } })
          event (by simpa using opened) left rfl rfl rfl rfl rfl prepared
        refine (Relation.ReflTransGen.single eff).trans (slotLoop_effects ?_ ?_)
        · simp [addCall]
        · intro woken
          simp [addCall] at woken

/-- A new `send` or response that has its checked packet. -/
lemma startPut_effects {c : Call} {p : Packet} {id : UInt32}
    (kind : c.kind = .oneWay ∨ c.kind = .response) (pc : c.pc = .roomLoop p)
    (wake : c.wake = .parked) (seq : c.seq = 0) (req : c.req = ({} : Pending))
    (sends : c.Sends env A.event p)
    (prepared : prepareOutboundPayload env c.payload c.compression = .ok c.encoded) :
    Effects env A s (({ s with oneWayId := id }.addCall c).enqueueChecked env s.next p) := by
  have eff : Effect env A s ({ s with oneWayId := id }.addCall c) :=
    .startPut kind pc wake seq req sends prepared
  refine (Relation.ReflTransGen.single eff).trans (enqueueChecked_effects ?_ ?_)
  · simpa [addCall] using pc
  · intro request
    simp only [addCall, Function.update_self] at request
    rcases kind with h | h <;> simp [h] at request

/-- `send` is a chain of effects. -/
lemma sendOnOwner_effects (payload bizType compression) :
    Effects env A s (s.sendOnOwner env payload bizType compression) := by
  unfold sendOnOwner
  dsimp only
  split
  case isTrue => exact .single (.reject rfl rfl rfl)
  case isFalse opened =>
    split
    case h_1 => exact .single (.reject rfl rfl rfl)
    case h_2 encoded prepared =>
      split
      case h_1 => exact .single (.reject rfl rfl rfl)
      case h_2 p built =>
        exact startPut_effects (.inl rfl) rfl rfl rfl rfl ⟨_, built⟩ prepared

/-- The handler loop's answer is a chain of effects. -/
lemma respond_effects {messageId bizType response}
    (event : A.event = .respond messageId bizType response) :
    Effects env A s (s.respond env messageId bizType response) := by
  unfold respond
  dsimp only
  split
  case h_1 => exact .single (.reject rfl rfl rfl)
  case h_2 encoded prepared =>
    split
    case h_1 => exact .single (.reject rfl rfl rfl)
    case h_2 p built =>
      exact startPut_effects (.inr rfl) rfl rfl rfl rfl ⟨_, event, built⟩ prepared

/-! ## Resumed and cancelled coroutines -/

/-- Who has left the queue is not filtered out of it again. -/
lemma filter_erase_self (l : List Nat) (i : Nat) :
    (l.erase i).filter (· ≠ i) = l.filter (· ≠ i) := by
  induction l with
  | nil => rfl
  | cons a l ih =>
    by_cases eq : a = i
    · subst eq
      simp
    · simpa [List.erase_cons, eq] using ih

/-- A cancelled slot waiter takes only itself out of the slot queue. -/
lemma SameSlots.onSlotCancelled : SameSlots i s (s.onSlotCancelled i) := by
  have same : SameSlots i s (s.modReq i fun r => { r with slotCont := none }) := .modCall rfl rfl rfl
  exact { same with waiters := filter_erase_self _ _ }

/-- A cancelled room waiter does not touch the slots. -/
lemma SameSlots.onRoomCancelled : SameSlots i s (s.onRoomCancelled i) := by
  have same : SameSlots i s (s.modReq i fun r => { r with roomCont := none }) := .modCall rfl rfl rfl
  exact { same with }

/-- A request that leaves its `select` does not touch the slots. -/
lemma SameSlots.abortSelect {p : Packet} : SameSlots i s (s.abortSelect i p) := by
  refine SameSlots.trans ?_ .releaseOutboundBytes
  exact .modCall rfl rfl rfl

/-- A coroutine that leaves through `unwind` when it runs. -/
lemma unwind_dispatch {u : Conn} {o : Outcome}
    (eff : Effect env (Event.trigger env s (.dispatch i)) s (u.setPc i (.unwinding o)))
    (same : SameSlots i s u) (leaves : (s.calls i).Leaves) :
    Effects env (Event.trigger env s (.dispatch i)) s (u.unwind i o) := by
  refine unwind_effects (.single eff) fun unsettled dead => ?_
  exact ⟨.inl ⟨leaves, same.unsettled unsettled⟩, same.nextDead dead⟩

/-- A coroutine that runs on from an effect to `awaitResponse`. -/
lemma awaitResponse_of (eff : Effect env A t (s.setPc i .awaiting)) :
    Effects env A t (s.awaitResponse i) := by
  rw [← awaitResponse_setPc i .awaiting]
  exact (Relation.ReflTransGen.single eff).trans (awaitResponse_effects (by simp [setPc]))

/-- A resumed coroutine that runs is a chain of effects. -/
lemma dispatch_effects {s' : Conn} (h : s.dispatch env i = some s') :
    Effects env (Event.trigger env s (.dispatch i)) s s' := by
  have refl : SameSlots i s s := ⟨rfl, rfl, rfl, fun _ => rfl, fun _ => rfl, fun _ => rfl⟩
  unfold dispatch at h
  split at h <;> cases h
  case h_1 pc => exact drainAsWriter_effects (.successorStart pc)
  case h_2 r pc wake =>
    -- the wake-up is one effect, and the loop condition is tested in the state after it
    rw [← slotLoop_setPc env i .slotLoop]
    have eff : Effect env (Event.trigger env s (.dispatch i)) s (s.setPc i .slotLoop) :=
      .loc (.slotRun pc wake)
    refine (Relation.ReflTransGen.single eff).trans (slotLoop_effects (by simp [setPc]) ?_)
    intro woken refused dead
    refine ⟨.inr ⟨pc, by simp [wake], ?_⟩, SameSlots.setPc.nextDead dead⟩
    simpa [Refused, setPc] using refused
  case h_3 pc wake =>
    exact unwind_dispatch (.slotCancelled pc (.inl wake)) .onSlotCancelled (.inl (by simp [wake]))
  case h_4 r pc wake =>
    exact unwind_dispatch (.slotCancelled pc (.inr ⟨r, wake⟩)) .onSlotCancelled
      (.inl (by simp [wake]))
  case h_5 p e pc wake =>
    exact unwind_dispatch (.loc (.roomThrown pc wake)) refl (.inl (by simp [wake]))
  case h_6 p r other pc wake =>
    rw [← awaitOutboundRoom_setPc env i (.roomLoop p)]
    have eff : Effect env (Event.trigger env s (.dispatch i)) s _ :=
      .loc (.roomRun pc wake fun e eq => other e eq)
    -- the source clears `roomCont` before it tests for room again
    have eq : (s.modReq i fun r => { r with roomCont := none }).setPc i (.roomLoop p) =
        s.modCall i fun _ => { s.calls i with
          pc := .roomLoop p, req := { (s.calls i).req with roomCont := none } } := by
      simp [setPc, modReq, modCall]
    rw [eq]
    exact (Relation.ReflTransGen.single eff).trans (awaitOutboundRoom_effects (by simp))
  case h_7 p pc wake =>
    exact unwind_dispatch (.roomCancelled pc (.inl wake)) .onRoomCancelled (.inl (by simp [wake]))
  case h_8 p r pc wake =>
    exact unwind_dispatch (.roomCancelled pc (.inr ⟨r, wake⟩)) .onRoomCancelled
      (.inl (by simp [wake]))
  case h_9 p r pc wake =>
    exact unwind_dispatch (.loc (.sendRun pc wake)) refl (.inr ⟨p, pc⟩)
  case h_10 p pc wake =>
    exact unwind_dispatch (.loc (.sendCancelled pc (.inl wake))) refl (.inr ⟨p, pc⟩)
  case h_11 p r pc wake =>
    exact unwind_dispatch (.loc (.sendCancelled pc (.inr ⟨r, wake⟩))) refl (.inr ⟨p, pc⟩)
  case h_12 p pc wake =>
    apply awaitResponse_of
    have eff : Effect env (Event.trigger env s (.dispatch i)) s _ := .loc (.selectSent pc wake)
    simpa [setPc, modReq, modCall] using eff
  case h_13 p r other pc wake =>
    exact awaitResponse_of (.selectGate pc wake other)
  case h_14 p pc wake =>
    exact unwind_dispatch (.selectCancelled pc (.inl wake) (by simp [wake])) .abortSelect
      (.inl (by simp [wake]))
  case h_15 p r pc wake =>
    -- the packet was taken and the resumption is lost to the cancellation
    have sent : (s.calls i).wake = .resumedCancelled .unit →
        Event.trigger env s (.dispatch i) .selectCancelled := fun eq => ⟨⟨p, pc⟩, eq⟩
    exact unwind_dispatch (.selectCancelled pc (.inr ⟨r, wake⟩) sent) .abortSelect
      (.inl (by simp [wake]))
  case h_16 p pc wake =>
    exact unwind_dispatch (.loc (.awaitRun pc wake)) refl (.inl (by simp [wake]))
  case h_17 e pc wake =>
    exact unwind_dispatch (.loc (.awaitRunThrow pc wake)) refl (.inl (by simp [wake]))
  case h_18 pc wake =>
    exact unwind_dispatch (.loc (.awaitCancelled pc (.inl wake))) refl (.inl (by simp [wake]))
  case h_19 r pc wake =>
    exact unwind_dispatch (.loc (.awaitCancelled pc (.inr ⟨r, wake⟩))) refl (.inl (by simp [wake]))

/-- A cancellation is one effect. -/
lemma cancel_effects {s' : Conn} (h : s.cancel i = some s') :
    Effects env (Event.trigger env s (.cancel i)) s s' := by
  unfold cancel at h
  split at h <;> cases h
  case h_1 pc wake => exact .single (.cancelSlot pc wake)
  case h_2 p pc wake => exact .single (.cancelRoom pc wake)
  case h_3 p pc wake => exact .single (.cancelSend pc wake ⟨⟨p, pc⟩, wake⟩)
  case h_4 p pc wake => exact .single (.cancelSelect pc wake)
  case h_5 pc wake => exact .single (.loc (.cancelAwait pc wake))
  case h_6 pc wake => exact .single (.loc (.cancelSlotWoken pc wake fun live => ⟨pc, wake, live⟩))
  case h_7 p pc wake =>
    exact .single (.loc (.cancelRoomWoken pc wake fun live => ⟨⟨p, pc⟩, wake, live⟩))
  case h_8 p pc wake => exact .single (.loc (.cancelSendWoken pc wake))
  case h_9 p pc wake => exact .single (.loc (.cancelSelectSent pc wake))
  case h_10 p pc wake => exact .single (.loc (.cancelSelectGate pc wake))
  case h_11 p pc wake => exact .single (.loc (.cancelAwaitWoken pc wake))

/-! ## The writer, the write loop and the connection's end -/

/-- `shutdown` is one effect, or none if it has run before. -/
lemma shutdown_effects (stranded : s.closed = false → s.SenderParked → A .senderStranded) :
    Effects env A s s.shutdown := by
  cases opened : s.closed with
  | true =>
    rw [shutdown, if_pos opened]
  | false => exact .single (.shutdown opened (stranded opened))

/-- A launched successor is neither a request nor settled. -/
lemma handOff_lost {c : Call} (kind : c.kind ≠ .request) (fresh : c.req.isCompleted = false)
    (unsettled : (s.addCall c).Unsettled i) (dead : (s.addCall c).NextDead i) :
    s.Unsettled i ∧ s.NextDead i := by
  constructor
  · obtain ⟨⟨request, registered⟩, live, opened⟩ := unsettled
    rw [addCall_calls] at request registered live
    split at request
    case isTrue => exact absurd request kind
    case isFalse ne =>
      rw [if_neg ne] at registered live
      exact ⟨⟨request, registered⟩, live, opened⟩
  · obtain ⟨j, head, completed⟩ := dead
    rw [addCall_calls] at completed
    split at completed
    case isTrue => simp [fresh] at completed
    case isFalse => exact ⟨j, head, completed⟩

/-- A failed socket operation of the inline writer is a chain of effects. -/
lemma writerFailed_effects {r : IoResult} {e : Throwable}
    (pc : (s.calls i).pc = .socketWrite ∨ (s.calls i).pc = .socketFlush)
    (ends : A.event.EndsSocket i)
    (lost : r = .cancelled → s.Unsettled i → s.NextDead i → A .slotWakeAbsorbed)
    (stranded : r ≠ .cancelled → s.closed = false → s.SenderParked → A .senderStranded) :
    Effects env A s (s.writerFailed i r e) := by
  unfold writerFailed
  split
  case isTrue cancelled =>
    split
    case isTrue left =>
      simp only [Bool.and_eq_true, Bool.not_eq_true', Bool.or_eq_true, decide_eq_true_eq] at left
      refine unwind_effects (.single (.handOff pc left.1 left.2 ends)) fun unsettled dead => ?_
      obtain ⟨unsettled, dead⟩ := handOff_lost (by simp) rfl unsettled dead
      exact lost cancelled unsettled dead
    case isFalse nothing =>
      have idle : s.closed ∨ s.writeBuf = [] ∧ s.sendQueue = [] := by
        simp only [Bool.and_eq_true, Bool.not_eq_true', Bool.or_eq_true, decide_eq_true_eq,
          not_and, not_or, not_not] at nothing
        cases opened : s.closed with
        | true => exact .inl rfl
        | false => exact .inr (nothing opened)
      refine unwind_effects (.single (.writerStop pc idle (.inr rfl) ends)) ?_
      exact lost cancelled
  case isFalse failed =>
    have closed := s.shutdown_closed
    have still : (s.shutdown.calls i).pc = .socketWrite ∨ (s.shutdown.calls i).pc = .socketFlush := by
      rwa [(s.shutdown_calls i).pc]
    refine unwind_effects ?_ fun unsettled => ?_
    · refine (shutdown_effects (stranded failed)).tail ?_
      exact .writerStop still (.inl closed) (.inl closed) ends
    · simp [Unsettled, closed] at unsettled

/-- The end of the writer's socket write is a chain of effects. -/
lemma write_effects {r : IoResult} {s' : Conn} (h : s.write i r = some s') :
    Effects env (Event.trigger env s (.write i r)) s s' := by
  unfold write at h
  split at h
  case isTrue => cases h
  case isFalse pc =>
    have pc : (s.calls i).pc = .socketWrite := not_not.mp pc
    have failed : ∀ e, r ≠ .ok →
        Effects env (Event.trigger env s (.write i r)) s (s.writerFailed i r e) := by
      intro e bad
      refine writerFailed_effects (.inl pc) rfl ?_ ?_
      · intro cancelled unsettled dead
        exact ⟨cancelled, unsettled, dead⟩
      · intro other opened parked
        exact ⟨bad, other, opened, parked⟩
    split at h
    case h_1 =>
      split at h
      case isTrue empty =>
        cases h
        exact .single (.loc (.writeOk pc empty rfl))
      case isFalse => cases h
    case h_2 message =>
      cases h
      exact failed _ (by simp)
    case h_3 other _ =>
      cases h
      exact failed _ other

/-- The end of the writer's flush is a chain of effects. -/
lemma flush_effects {r : IoResult} {s' : Conn} (h : s.flush env i r = some s') :
    Effects env (Event.trigger env s (.flush i r)) s s' := by
  unfold flush at h
  split at h
  case isTrue => cases h
  case isFalse pc =>
    have pc : (s.calls i).pc = .socketFlush := not_not.mp pc
    split at h
    case isTrue =>
      cases h
      have eff : Effect env (Event.trigger env s (.flush i r)) s (s.setPc i .draining) :=
        .loc (.flushOk pc rfl)
      exact (Relation.ReflTransGen.single eff).trans (drainLoop_effects (by simp [setPc]))
    case isFalse bad =>
      cases h
      refine writerFailed_effects (.inr pc) rfl ?_ ?_
      · intro cancelled unsettled dead
        exact ⟨cancelled, unsettled, dead⟩
      · intro other opened parked
        exact ⟨bad, other, opened, parked⟩

/-- A failed socket operation of the write loop is a chain of effects. -/
lemma loopFailed_effects {r : IoResult} {p : Packet} {s' : Conn} (h : s.loopFailed r = some s')
    (loop : s.writeLoop = .writing p ∨ s.writeLoop = .flushing p)
    (fault : ∀ m, r = .other m → s.closed = false → A .loopFault)
    (stranded : ∀ m, r = .io m → s.closed = false → s.SenderParked → A .senderStranded) :
    Effects env A s s' := by
  unfold loopFailed at h
  split at h
  case h_1 => cases h
  case h_2 m =>
    cases h
    have closed := s.shutdown_closed
    have still : s.shutdown.writeLoop = s.writeLoop := by
      cases opened : s.closed with
      | true => rw [shutdown, if_pos opened]
      | false => exact (shutdown_frame opened).writeLoop
    refine (shutdown_effects (stranded m rfl)).tail ?_
    exact .loopEnd (by rwa [still]) (by simp [closed])
  case h_3 m =>
    cases h
    exact .single (.loopEnd loop (fault m rfl))
  case h_4 =>
    split at h
    case isTrue closed =>
      cases h
      exact .single (.loopEnd loop (by simp [closed]))
    case isFalse => cases h

/-- The end of the write loop's socket write is a chain of effects. -/
lemma loopWrite_effects {r : IoResult} {s' : Conn} (h : s.loopWrite r = some s') :
    Effects env (Event.trigger env s (.loopWrite r)) s s' := by
  unfold loopWrite at h
  split at h
  case h_1 p writing =>
    split at h
    case isTrue =>
      split at h
      case isTrue empty =>
        cases h
        exact .single (.loopFlushing writing empty)
      case isFalse => cases h
    case isFalse =>
      refine loopFailed_effects h (.inl writing) ?_ ?_
      · rintro m rfl opened
        exact opened
      · rintro m rfl opened parked
        exact ⟨opened, parked⟩
  case h_2 => cases h

/-- The end of the write loop's flush is a chain of effects. -/
lemma loopFlush_effects {r : IoResult} {s' : Conn} (h : s.loopFlush env r = some s') :
    Effects env (Event.trigger env s (.loopFlush r)) s s' := by
  unfold loopFlush at h
  split at h
  case h_1 p flushing =>
    split at h
    case isTrue =>
      cases h
      exact .single (.loopNext flushing)
    case isFalse =>
      refine loopFailed_effects h (.inr flushing) ?_ ?_
      · rintro m rfl opened
        exact opened
      · rintro m rfl opened parked
        exact ⟨opened, parked⟩
  case h_2 => cases h

/-- The deadline is one effect, with every flaw it can meet. -/
lemma deadline_effect (armed : (s.calls i).req.armed) :
    Effect env (Event.trigger env s (.deadline i)) s (s.run i) := by
  refine .deadline rfl armed ?_ ?_ ?_ ?_
  · intro writer
    exact writer
  · intro settled waiting parked
    exact ⟨settled, waiting, parked⟩
  · intro live k stored gone
    exact ⟨live, k, stored, gone⟩
  · intro live elsewhere dead
    exact ⟨live, elsewhere, dead⟩

/-- A response is one effect, or none if nobody waits for it. -/
lemma onResponse_effects {packet : Packet} (type : packet.type = .response)
    (opened : s.closed = false) :
    Effects env (Event.trigger env s (.response packet)) s (s.onResponse packet) := by
  cases found : s.pending.find packet.messageId with
  | none => rw [onResponse, found]
  | some i =>
    refine .single (.response rfl rfl type opened found ?_ ?_)
    · rintro ⟨p, pc⟩
      exact ⟨i, p, found, pc⟩
    · intro dead
      exact ⟨i, found, dead⟩

end

/-- Every step is a chain of effects, and takes only the flawed branches announced for it. -/
theorem step_effects {env : Env} {s s' : Conn} {e : Event} (h : s.step env e = some s') :
    Effects env (Event.trigger env s e) s s' := by
  cases e with
  | request payload bizType timeoutMillis compression =>
    cases h
    exact requestOnOwner_effects rfl
  | send payload bizType compression =>
    cases h
    exact sendOnOwner_effects payload bizType compression
  | respond messageId bizType response =>
    cases h
    exact respond_effects rfl
  | dispatch i => exact dispatch_effects h
  | cancel i => exact cancel_effects h
  | deadline i =>
    simp only [step] at h
    split at h
    case isTrue armed =>
      cases h
      exact .single (deadline_effect armed)
    case isFalse => cases h
  | response packet =>
    simp only [step] at h
    split at h
    case isTrue ok =>
      cases h
      exact onResponse_effects ok.1 ok.2
    case isFalse => cases h
  | transmit i n =>
    simp only [step] at h
    split at h
    case isTrue ok =>
      cases h
      exact .single (.transmit n ok.2 (.inl ⟨i, rfl, ok.1⟩))
    case isFalse => cases h
  | loopTransmit n =>
    simp only [step] at h
    split at h
    case h_1 p writing =>
      split at h
      case isTrue => cases h
      case isFalse opened =>
        cases h
        exact .single (.transmit n (by simpa using opened) (.inr ⟨rfl, p, writing⟩))
    case h_2 => cases h
  | write i r => exact write_effects h
  | flush i r => exact flush_effects h
  | loopRun =>
    simp only [step, loopRun] at h
    split at h
    case isTrue ok =>
      cases h
      exact .single (.loopRun ok.1 ok.2)
    case isFalse => cases h
  | loopWrite r => exact loopWrite_effects h
  | loopFlush r => exact loopFlush_effects h
  | shutdown =>
    cases h
    exact shutdown_effects fun opened parked => ⟨opened, parked⟩

end Conn

end MsgTrans
