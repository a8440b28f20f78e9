import MsgTrans.Connection.WellFormed

/-!
# The write loop and its channel

How an effect moves the write loop of CHANNEL mode, its buffer and its suspended senders. In INLINE
mode none of them ever moves; in CHANNEL mode nothing is queued for an inline writer, and a write loop
that waits for a packet has left no sender behind.
-/

namespace MsgTrans

namespace Conn

section
variable {env : Env} {A : Trigger} {s t : Conn}

/-- How an effect moves the write loop. -/
inductive LoopStep (env : Env) (A : Trigger) (s t : Conn) : Prop where
  | rests : t.writeLoop = s.writeLoop → t.outbound.buffer = s.outbound.buffer → LoopStep env A s t
  | buffers : env.config.writeMode = .channel → t.writeLoop = s.writeLoop → LoopStep env A s t
  | receives {p} :
    env.config.writeMode = .channel → s.writeLoop = .receiving → t.writeLoop = .writing p →
    LoopStep env A s t
  | flushes {p} : s.writeLoop = .writing p → t.writeLoop = .flushing p → LoopStep env A s t
  | takes {p} :
    (∃ q, s.writeLoop = .flushing q) ∨ env.config.writeMode = .channel ∧ s.writeLoop ≠ .ended →
    t.writeLoop = .writing p → LoopStep env A s t
  | waits :
    (∃ q, s.writeLoop = .flushing q) ∨ env.config.writeMode = .channel ∧ s.writeLoop ≠ .ended →
    t.outbound.senders = [] → t.writeLoop = (if t.closed then .ended else .receiving) →
    LoopStep env A s t
  | ends {p} :
    s.writeLoop = .writing p ∨ s.writeLoop = .flushing p → (s.closed = false → A .loopFault) →
    t.closed = s.closed → t.writeLoop = .ended → LoopStep env A s t

namespace LoopStep

/-- A still effect does not move the write loop. -/
lemma still (h : Still s t) : LoopStep env A s t := .rests h.writeLoop h.buffer

/-- The write loop goes on to its next packet. -/
lemma loopNext {u : Conn} (moves : (∃ q, s.writeLoop = .flushing q) ∨
      env.config.writeMode = .channel ∧ s.writeLoop ≠ .ended) :
    LoopStep env A s (u.loopNext env) := by
  unfold Conn.loopNext
  split
  case h_4 _ senders => exact .waits moves senders rfl
  all_goals exact .takes moves rfl

/-- How every effect moves the write loop. -/
theorem effect (h : Effect env A s t) : LoopStep env A s t := by
  cases h with
  | slotRefused _ _ _ _ _ _ =>
    refine still (Still.trans ?_ (finish_still _ _ _))
    exact { Still.refl s with }
  | putBuffer _ _ _ _ channel _ _ => exact .buffers channel rfl
  | putHandoff _ _ _ _ channel receiving => exact .receives channel receiving rfl
  | sendPark _ _ _ _ channel _ => exact .buffers channel rfl
  | selectPark _ _ _ _ _ channel _ => exact .buffers channel rfl
  | @drainTake i p rest _ _ _ =>
    have woken := releaseOutboundBytes_waking (packetBytes p) { s with sendQueue := rest }
    exact .rests woken.writeLoop woken.buffer
  | @selectGate i p _ _ _ _ => exact still { (abortSelect_waking i p s).toStill with }
  | @selectCancelled i p _ _ _ => exact still { (abortSelect_waking i p s).toStill with }
  | loopFlushing writing _ => exact .flushes writing rfl
  | loopNext flushing => exact loopNext (.inl ⟨_, flushing⟩)
  | loopRun channel idle =>
    refine loopNext (.inr ⟨channel, ?_⟩)
    rcases idle with loop | ⟨loop, _⟩ <;> simp [loop]
  | loopEnd writing fault => exact .ends writing fault rfl rfl
  | finish _ _ => exact still (finish_still _ _ s)
  | deadline _ _ _ _ _ _ => exact still (run_frame _ s).toStill
  | response _ _ _ _ _ _ _ => exact still (onResponse_frame _ s).toStill
  | shutdown opened _ =>
    have frame := shutdown_frame opened
    exact .rests frame.writeLoop frame.buffer
  | _ => exact .rests rfl rfl

/-- A write loop that has ended stays ended. -/
lemma ended (h : LoopStep env A s t) (ended : s.writeLoop = .ended) : t.writeLoop = .ended := by
  cases h with
  | rests same _ | buffers _ same => exact same.trans ended
  | receives _ receiving _ => simp [ended] at receiving
  | flushes writing _ => simp [ended] at writing
  | takes moves _ | waits moves _ _ => simp [ended] at moves
  | ends _ _ _ ended => exact ended

/-- The write loop of an open connection goes on. -/
lemma alive (h : LoopStep env A s t) (avoid : ¬ A .loopFault) (closed : s.closed → t.closed)
    (alive : s.writeLoop = .ended → s.closed) (ended : t.writeLoop = .ended) : t.closed := by
  cases h with
  | rests same _ | buffers _ same => exact closed (alive (same ▸ ended))
  | receives _ _ writing | takes _ writing => simp [writing] at ended
  | flushes _ flushing => simp [flushing] at ended
  | waits _ _ loop =>
    by_contra opened
    simp [loop, opened] at ended
  | ends _ fault same _ =>
    by_contra opened
    rw [same] at opened
    exact avoid (fault (by simpa using opened))

end LoopStep

/-! ## Suspended senders -/

/-- The write loop leaves the send queue alone. -/
lemma loopNext_sendQueue (env : Env) (s : Conn) : (s.loopNext env).sendQueue = s.sendQueue := by
  unfold loopNext
  split <;> rfl

/-- `wakeOneRoomWaiter` leaves the channel alone. -/
lemma wakeOneRoomWaiter_outbound (s : Conn) : s.wakeOneRoomWaiter.outbound = s.outbound := by
  unfold wakeOneRoomWaiter
  split <;> rfl

/-- A release leaves the channel alone. -/
lemma releaseOutboundBytes_outbound (bytes : Int) (s : Conn) :
    (s.releaseOutboundBytes bytes).outbound = s.outbound :=
  wakeOneRoomWaiter_outbound _

/-- `wakeOneInFlightWaiter` leaves the channel alone. -/
lemma wakeOneInFlightWaiter_outbound (s : Conn) : s.wakeOneInFlightWaiter.outbound = s.outbound := by
  unfold wakeOneInFlightWaiter resumeSlot
  split
  case h_1 => rfl
  case h_2 => split <;> rfl

/-- The end of a call leaves the channel alone. -/
lemma finish_outbound (i : Nat) (o : Outcome) (s : Conn) : (s.finish i o).outbound = s.outbound := by
  unfold finish
  split
  case isTrue =>
    dsimp only
    split
    case isTrue => exact wakeOneInFlightWaiter_outbound _
    case isFalse => rfl
  case isFalse => rfl

/-- Waking and settling suspends no sender. -/
lemma senders_subset_of_frame (wf : s.Wf) (wf' : t.Wf)
    (calls : ∀ i, Call.Frame (s.calls i) (t.calls i)) : t.outbound.senders ⊆ s.outbound.senders := by
  rintro ⟨i, p⟩ mem
  obtain ⟨place, wake⟩ := (wf'.send.mem (i, p)).mp mem
  rw [(calls i).pc] at place
  exact (wf.send.mem (i, p)).mpr ⟨place, (calls i).parked wake⟩

/-- The write loop takes senders from the channel and adds none. -/
lemma loopNext_senders (env : Env) (s : Conn) :
    (s.loopNext env).outbound.senders ⊆ s.outbound.senders := by
  have tail : ∀ {e : Nat × Packet} {l : List (Nat × Packet)}, s.outbound.senders = e :: l →
      l ⊆ s.outbound.senders := fun queue => queue ▸ List.subset_cons_self _ _
  unfold loopNext
  split
  case h_1 => exact fun _ mem => mem
  case h_2 queue => exact tail queue
  case h_3 queue => exact tail queue
  case h_4 => exact fun _ mem => mem

/-- Senders are suspended in CHANNEL mode only, while the write loop is busy. -/
lemma effect_senders (wf : s.Wf) (h : Effect env A s t) :
    t.outbound.senders ⊆ s.outbound.senders ∨
      env.config.writeMode = .channel ∧ s.writeLoop ≠ .receiving := by
  have wf' := wf.effect h
  have same : ∀ {u : Conn}, u.outbound = s.outbound → u.outbound.senders ⊆ s.outbound.senders :=
    fun eq _ mem => eq ▸ mem
  cases h with
  | slotRefused _ _ _ _ _ _ => exact .inl (same (finish_outbound _ _ _))
  | sendPark _ _ _ _ channel busy => exact .inr ⟨channel, busy⟩
  | selectPark _ _ _ _ _ channel busy => exact .inr ⟨channel, busy⟩
  | drainTake _ _ _ => exact .inl (same (releaseOutboundBytes_outbound _ _))
  | selectGate _ _ _ => exact .inl (same (releaseOutboundBytes_outbound _ _))
  | selectCancelled _ _ _ => exact .inl (same (releaseOutboundBytes_outbound _ _))
  | loopNext _ =>
    exact .inl (List.Subset.trans (loopNext_senders env _)
      (same (releaseOutboundBytes_outbound _ s)))
  | loopRun _ _ => exact .inl (loopNext_senders env s)
  | cancelSend _ _ _ => exact .inl (List.filter_subset_self _)
  | cancelSelect _ _ => exact .inl (List.filter_subset_self _)
  | finish _ _ => exact .inl (same (finish_outbound _ _ s))
  | deadline _ _ _ _ _ _ => exact .inl (senders_subset_of_frame wf wf' (run_frame _ s).calls)
  | response _ _ _ _ _ _ _ => exact .inl (senders_subset_of_frame wf wf' (onResponse_frame _ s).calls)
  | shutdown opened _ => exact .inl (senders_subset_of_frame wf wf' (shutdown_frame opened).calls)
  | _ => exact .inl fun _ mem => mem

/-! ## The two modes -/

/-- Only an inline writer queues packets. -/
lemma effect_sendQueue (mode : env.config.writeMode = .channel) (h : Effect env A s t)
    (empty : s.sendQueue = []) : t.sendQueue = [] := by
  cases h with
  | putQueue _ _ _ _ inline _ => simp [mode] at inline
  | putDrain _ _ _ _ inline _ => simp [mode] at inline
  | drainTake _ _ queue => simp [empty] at queue
  | slotRefused _ _ _ _ _ _ => exact (finish_still _ _ _).sendQueue.trans empty
  | selectGate _ _ _ => exact (abortSelect_waking _ _ s).sendQueue.trans empty
  | selectCancelled _ _ _ => exact (abortSelect_waking _ _ s).sendQueue.trans empty
  | finish _ _ => exact (finish_still _ _ s).sendQueue.trans empty
  | loopNext _ =>
    exact (loopNext_sendQueue _ _).trans ((releaseOutboundBytes_waking _ s).sendQueue.trans empty)
  | loopRun _ _ => exact (loopNext_sendQueue _ s).trans empty
  | deadline _ _ _ _ _ _ => exact (run_frame _ s).sendQueue.trans empty
  | response _ _ _ _ _ _ _ => exact (onResponse_frame _ s).sendQueue.trans empty
  | shutdown opened _ => exact (shutdown_frame opened).sendQueue
  | _ => exact empty

end

/-- What the write mode leaves unused, and that a waiting write loop has left no sender behind. -/
structure Lanes (env : Env) (s : Conn) : Prop where
  inline : env.config.writeMode = .inline →
    s.writeLoop = .launched ∧ s.outbound.buffer = [] ∧ s.outbound.senders = []
  channel : env.config.writeMode = .channel → s.sendQueue = []
  receiving : s.writeLoop = .receiving → s.outbound.senders = []

namespace Lanes

variable {env : Env} {A : Trigger} {s t : Conn}

/-- A new connection has used neither lane. -/
lemma init : Lanes env Conn.init where
  inline _ := ⟨rfl, rfl, rfl⟩
  channel _ := rfl
  receiving _ := rfl

/-- The inline writer uses no channel. -/
lemma effect_inline (h : Lanes env s) (wf : s.Wf) (eff : Effect env A s t)
    (mode : env.config.writeMode = .inline) :
    t.writeLoop = .launched ∧ t.outbound.buffer = [] ∧ t.outbound.senders = [] := by
  obtain ⟨loop, buffer, senders⟩ := h.inline mode
  have unsent : t.outbound.senders = [] := by
    rcases effect_senders wf eff with sub | ⟨channel, _⟩
    · exact List.subset_nil.mp (senders ▸ sub)
    · simp [mode] at channel
  cases LoopStep.effect eff with
  | rests same same' => exact ⟨same.trans loop, same'.trans buffer, unsent⟩
  | buffers channel _ | receives channel _ _ => simp [mode] at channel
  | flushes writing _ => simp [loop] at writing
  | takes moves _ | waits moves _ _ => simp [loop, mode] at moves
  | ends writing _ _ _ => simp [loop] at writing

/-- A write loop that starts to wait has taken every sender. -/
lemma effect_receiving (h : Lanes env s) (wf : s.Wf) (eff : Effect env A s t)
    (receiving : t.writeLoop = .receiving) : t.outbound.senders = [] := by
  have stays : s.writeLoop = .receiving → t.outbound.senders = [] := by
    intro before
    rcases effect_senders wf eff with sub | ⟨_, busy⟩
    · exact List.subset_nil.mp (h.receiving before ▸ sub)
    · exact absurd before busy
  cases LoopStep.effect eff with
  | rests same _ | buffers _ same => exact stays (same ▸ receiving)
  | receives _ _ loop | flushes _ loop | takes _ loop | ends _ _ _ loop => simp [loop] at receiving
  | waits _ none _ => exact none

/-- Every effect keeps to the lane of the write mode. -/
theorem effect (h : Lanes env s) (wf : s.Wf) (eff : Effect env A s t) : Lanes env t where
  inline := h.effect_inline wf eff
  channel mode := effect_sendQueue mode eff (h.channel mode)
  receiving := h.effect_receiving wf eff

end Lanes

end Conn

end MsgTrans
