import MsgTrans.Connection.Budget
import MsgTrans.Connection.Shutdown

/-!
# The outbound budget of the inline writer

In INLINE mode `queuedBytes` is charged for the packets in `sendQueue` and for nothing else.
`QueueStep` says once how an effect changes the two together; the bounds follow from it, in every state
of a run and in every state a step passes through.
-/

namespace MsgTrans

namespace Conn

section
variable {env : Env} {A : Trigger} {s t : Conn} {i j : Nat} {c : Call} {p : Packet}

/-- The change of one call starts no `select`. -/
lemma select_update (calls : t.calls = Function.update s.calls i c) (out : ∀ p, c.pc ≠ .channelSelect p)
    (pc : (t.calls j).pc = .channelSelect p) : (s.calls j).pc = .channelSelect p := by
  rw [calls, Function.update_apply] at pc
  split at pc
  · exact absurd pc (out p)
  · exact pc

/-- A call whose packet is queued is in no `select`. -/
lemma afterPut_ne_select (c : Call) (p : Packet) : c.afterPut ≠ .channelSelect p := by
  intro eq
  have away := Call.afterPut_sends c
  simp [eq] at away

/-- No coroutine goes to a `select` by itself. -/
lemma localStep_select {c' : Call} (h : LocalStep A s i c c') (pc : c'.pc = .channelSelect p) :
    c.pc = .channelSelect p := by
  cases h with
  | cancelAwait | cancelSlotWoken | cancelRoomWoken | cancelSendWoken | cancelSelectSent
  | cancelSelectGate | cancelAwaitWoken => exact pc
  | _ => cases pc

/-- Only CHANNEL mode leads to the `select` of `sendRacingDeadline`. -/
lemma effect_select (mode : env.config.writeMode = .inline) (h : Effect env A s t)
    (pc : (t.calls j).pc = .channelSelect p) : (s.calls j).pc = .channelSelect p := by
  have update : ∀ {u v : Conn} {i : Nat} {c : Call}, v.calls = Function.update u.calls i c →
      (∀ p, c.pc ≠ .channelSelect p) → (v.calls j).pc = .channelSelect p →
      (u.calls j).pc = .channelSelect p := fun calls out pc => select_update calls out pc
  have finished : ∀ {u : Conn} {i : Nat} {o : Outcome},
      ((u.finish i o).calls j).pc = .channelSelect p → (u.calls j).pc = .channelSelect p := by
    intro u i o pc
    rw [finish_pc] at pc
    split at pc
    · cases pc
    · exact pc
  cases h with
  | @loc i c' h =>
    by_cases eq : j = i
    · subst eq
      rw [modCall_calls_self] at pc
      exact localStep_select h pc
    · rwa [modCall_calls_of_ne _ _ eq] at pc
  | reject ended _ _ => exact update rfl (by simp [ended]) pc
  | startRequest _ _ _ _ place _ _ _ _ => exact update rfl (by simp [place]) pc
  | startPut _ place _ _ _ _ _ => exact update rfl (by simp [place]) pc
  | slotPark _ _ _ _ | register _ _ _ _ _ | roomPark _ _ _ _ => exact update rfl (by simp) pc
  | slotRefused _ _ _ _ _ _ => exact update rfl (by simp) (finished pc)
  | slotCancelled _ _ => exact update (slotCancelled_calls _ _ s) (by simp) pc
  | roomCancelled _ _ => exact update (roomCancelled_calls _ _ s) (by simp) pc
  | putQueue _ _ _ _ _ _ => exact update rfl (afterPut_ne_select _) pc
  | putDrain _ _ _ _ _ _ => exact update rfl (by intro p; dsimp only; split <;> simp) pc
  | putBuffer _ _ _ _ channel _ _ | putHandoff _ _ _ _ channel _ | sendPark _ _ _ _ channel _
  | selectPark _ _ _ _ _ channel _ | loopRun channel _ => simp [mode] at channel
  | drainTake _ _ _ =>
    have moved := update (u := Conn.releaseOutboundBytes _ { s with sendQueue := _ }) rfl (by simp) pc
    rwa [((releaseOutboundBytes_waking _ _).calls j).pc] at moved
  | drainEnd _ _ => exact update rfl (afterPut_ne_select _) pc
  | successorStart _ => exact update rfl (by intro p; dsimp only; split <;> simp) pc
  | handOff _ _ _ _ =>
    exact update (u := s) rfl (by simp) (update (u := s.addCall _) rfl (by simp) pc)
  | writerStop _ _ _ _ => exact update rfl (by simp) pc
  | selectGate place _ _ | selectCancelled place _ _ =>
    have moved := update (u := s.abortSelect _ _) rfl (by simp) pc
    rwa [((abortSelect_waking _ _ s).calls j).pc] at moved
  | loopNext _ =>
    rwa [loopNext_pc, ((releaseOutboundBytes_waking _ s).calls j).pc] at pc
  | cancelSlot place _ => exact update (cancelSlot_calls _ s) (by simp [place]) pc
  | cancelRoom place _ => exact update (cancelRoom_calls _ s) (by simp [place]) pc
  | cancelSend place _ _ => exact update rfl (by simp [place]) pc
  | @cancelSelect i q place _ =>
    by_cases eq : j = i
    · subst eq
      simpa [setCancelled] using pc
    · simpa [setCancelled, modCall_calls_of_ne _ _ eq] using pc
  | finish _ _ => exact finished pc
  | deadline _ _ _ _ _ _ => rwa [((run_frame _ s).calls j).pc] at pc
  | response _ _ _ _ _ _ _ => rwa [((onResponse_frame _ s).calls j).pc] at pc
  | shutdown opened _ => rwa [((shutdown_frame opened).calls j).pc] at pc
  | transmit _ _ _ | loopFlushing _ _ | loopEnd _ _ => exact pc

end

/-- How an effect in INLINE mode changes the queue and its bytes. -/
inductive QueueStep (env : Env) (s t : Conn) : Prop where
  | rests : t.queuedBytes = s.queuedBytes → t.sendQueue = s.sendQueue → QueueStep env s t
  | puts {i : Nat} {p : Packet} :
    (s.calls i).pc = .roomLoop p → s.roomFor env (packetBytes p) →
    t.queuedBytes = s.queuedBytes + packetBytes p → t.sendQueue = s.sendQueue ++ [p] →
    QueueStep env s t
  | takes {p : Packet} {rest : List Packet} :
    s.sendQueue = p :: rest → t.queuedBytes = max 0 (s.queuedBytes - packetBytes p) →
    t.sendQueue = rest → QueueStep env s t
  | clears : t.queuedBytes = 0 → t.sendQueue = [] → QueueStep env s t

/-- How every effect in INLINE mode changes the queue and its bytes. -/
theorem QueueStep.effect {env : Env} {A : Trigger} {s t : Conn} (mode : env.config.writeMode = .inline)
    (wf : s.Wf) (unselected : ∀ i p, (s.calls i).pc ≠ .channelSelect p)
    (loop : s.writeLoop = .launched) (h : Effect env A s t) : QueueStep env s t := by
  cases h with
  | @slotRefused i e pc _ _ _ _ _ =>
    have finished : Kept _ _ := .finish (o := .threw e) (wf.refused (o := .threw e) pc) (setPc_pc _ _ _)
    exact .rests finished.bytes (finish_still _ _ _).sendQueue
  | putQueue pc _ room _ _ _ => exact .puts pc room rfl rfl
  | putDrain pc _ room _ _ _ => exact .puts pc room rfl rfl
  | putBuffer _ _ _ _ channel _ _ | putHandoff _ _ _ _ channel _ | sendPark _ _ _ _ channel _
  | selectPark _ _ _ _ _ channel _ | loopRun channel _ => simp [mode] at channel
  | @drainTake i p rest _ _ queue =>
    refine .takes queue ?_ ?_
    · exact releaseOutboundBytes_queuedBytes (packetBytes p) { s with sendQueue := rest }
    · exact (releaseOutboundBytes_waking (packetBytes p) { s with sendQueue := rest }).sendQueue
  | selectGate pc _ _ | selectCancelled pc _ _ => exact absurd pc (unselected _ _)
  | loopNext flushing => simp [loop] at flushing
  | finish pc _ => exact .rests (Kept.finish wf pc).bytes (finish_still _ _ s).sendQueue
  | deadline _ armed _ _ _ _ =>
    have roused := Roused.run wf armed
    exact .rests roused.queuedBytes roused.sendQueue
  | @response _ packet _ _ _ _ _ _ _ =>
    have roused : Roused s (s.onResponse packet) := .onResponse wf
    exact .rests roused.queuedBytes roused.sendQueue
  | shutdown opened _ => exact .clears (shutdown_empties opened).2.2.2 (shutdown_frame opened).sendQueue
  | _ => exact .rests rfl rfl

/-- The account of an INLINE connection: `queuedBytes` is what is queued, both bounds are kept, and the
one place that releases bytes, the writer that takes the first packet, does not reach the clamp. -/
structure Balanced (env : Env) (s : Conn) : Prop where
  bytes : s.queuedBytes = totalBytes s.sendQueue
  bound : s.queuedBytes ≤ env.config.maxOutboundBytes
  slots : (s.sendQueue.length : Int) ≤ max env.config.mailboxCapacity 0
  release : ∀ p rest, s.sendQueue = p :: rest →
    ({ s with sendQueue := rest }.releaseOutboundBytes (packetBytes p)).queuedBytes =
      s.queuedBytes - packetBytes p
  unselected : ∀ i p, (s.calls i).pc ≠ .channelSelect p
  loop : s.writeLoop = .launched

/-- A balanced connection whose packets have all passed their size check. -/
structure Stock (env : Env) (s : Conn) : Prop extends Balanced env s where
  lanes : Lanes env s
  fits : ∀ p, s.Holds p → packetBytes p ≤ env.config.maxOutboundBytes

namespace Stock

variable {env : Env} {A : Trigger} {s t : Conn}

/-- A new connection is balanced. -/
lemma init (nonneg : 0 ≤ env.config.maxOutboundBytes) : Stock env Conn.init where
  bytes := rfl
  bound := nonneg
  slots := Int.le_max_right _ _
  release p rest queue := by cases queue
  unselected i p pc := by cases pc
  loop := rfl
  lanes := .init
  fits p held := by
    cases held with
    | call pc => cases pc
    | queue mem | buffer mem | loop mem | written mem => cases mem

/-- One change of the queue keeps the account. -/
lemma queueStep (h : Stock env s) (nonneg : 0 ≤ env.config.maxOutboundBytes)
    (mode : env.config.writeMode = .inline) (step : QueueStep env s t) :
    t.queuedBytes = totalBytes t.sendQueue ∧ t.queuedBytes ≤ env.config.maxOutboundBytes ∧
      (t.sendQueue.length : Int) ≤ max env.config.mailboxCapacity 0 := by
  have bytes := h.bytes
  have bound := h.bound
  have slots := h.slots
  cases step with
  | rests same queue =>
    rw [same, queue]
    exact ⟨bytes, bound, slots⟩
  | @puts i p pc room after queue =>
    have small := h.fits p (.call (i := i) (by simp [pc]))
    simp only [roomFor, mode, Bool.and_eq_true, Bool.or_eq_true, beq_iff_eq,
      decide_eq_true_eq] at room
    rw [after, queue]
    simp only [totalBytes_append, totalBytes_cons, totalBytes_nil, List.length_append,
      List.length_singleton, packetBytes] at *
    obtain ⟨slot | slot, room⟩ := room
    · cases slot
    · omega
  | @takes p rest queue after rest' =>
    rw [queue, totalBytes_cons] at bytes
    rw [queue, List.length_cons] at slots
    rw [after, rest', packetBytes]
    omega
  | clears after queue =>
    rw [after, queue]
    exact ⟨rfl, nonneg, Int.le_max_right _ _⟩

/-- Every effect of the inline mode keeps the balance. -/
lemma effect (h : Stock env s) (nonneg : 0 ≤ env.config.maxOutboundBytes)
    (mode : env.config.writeMode = .inline) (wf : s.Wf) (eff : Effect env A s t) : Stock env t := by
  obtain ⟨bytes, bound, slots⟩ := h.queueStep nonneg mode (.effect mode wf h.unselected h.loop eff)
  have lanes := h.lanes.effect wf eff
  refine ⟨⟨bytes, bound, slots, fun p rest queue => ?_, fun i p pc => ?_, (lanes.inline mode).1⟩, lanes,
    fun p held => (held.effect wf eff).elim (h.fits p) Made.fits⟩
  · rw [releaseOutboundBytes_queuedBytes]
    rw [queue, totalBytes_cons] at bytes
    simp only [packetBytes]
    omega
  · exact h.unselected i p (effect_select mode eff pc)

end Stock

/-- In INLINE mode the budget is exact and within both bounds, and no release is clamped: in every state
of every run, and in every state that a step from there passes through. -/
theorem inline_account {env : Env} {s : Conn} (mode : env.config.writeMode = .inline)
    (nonneg : 0 ≤ env.config.maxOutboundBytes) (run : Runs.Reach (step env) Runs.always init s) :
    s.Balanced env ∧ ∀ A u, Effects env A s u → u.Balanced env := by
  have reach := reach_unguarded run
  have stock : Stock env s := invariant_of_effects reach (.init nonneg)
    fun A s t _ wf held eff => held.effect nonneg mode wf eff
  have wf : s.Wf := .reach reach
  refine ⟨stock.toBalanced, fun A u chain => ?_⟩
  have passed : u.Wf ∧ Stock env u := by
    induction chain with
    | refl => exact ⟨wf, stock⟩
    | tail _ eff ih => exact ⟨ih.1.effect eff, ih.2.effect nonneg mode ih.1 eff⟩
  exact passed.2.toBalanced

/-- One packet is being written and one is queued. -/
theorem inline_account_queued : ∃ s, Runs.Reach (step (.tight .inline)) Runs.always init s ∧
    s.queuedBytes = 1 ∧ s.Balanced (.tight .inline) := by
  have run : ((Runs.exec (step (.tight .inline)) init [.sendOne, .sendOne]).map fun s =>
      s.queuedBytes) = some 1 := by decide
  obtain ⟨s, exec, value⟩ := Option.map_eq_some_iff.mp run
  have reach := Runs.reach_always_of_exec exec
  exact ⟨s, reach, value, (inline_account rfl (by decide) reach).1⟩

end Conn

end MsgTrans
