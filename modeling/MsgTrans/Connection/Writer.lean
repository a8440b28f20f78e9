import MsgTrans.Connection.WellFormed

/-!
# The inline writer

In INLINE mode the caller that finds nobody writing becomes the writer and drains the queue. A writer
that is cancelled with bytes or packets left hands over to a successor. While the connection is open
the bytes that were transmitted, those in the write buffer and the packets in the queue are together
everything that was enqueued, in order; there is one writer exactly while `writerActive` is set, and
nothing is left to write while it is not.
-/

namespace MsgTrans

/-- The call is the inline writer, or the successor that is about to be. -/
@[simp] def Pc.writer : Pc → Bool
  | .draining | .socketWrite | .socketFlush | .launched => true
  | _ => false

/-- The writer has emptied its buffer. -/
@[simp] def Pc.flushed : Pc → Bool
  | .draining | .socketFlush => true
  | _ => false

/-- Who has flushed is the writer. -/
lemma Pc.writer_of_flushed {pc : Pc} (h : pc.flushed) : pc.writer := by
  cases pc <;> simp_all

/-- The bytes of a sequence of packets on the stream. -/
def Env.encodings (env : Env) (packets : List Packet) : List UInt8 :=
  packets.flatMap env.framing.encode

/-- No packets encode to no bytes. -/
@[simp] lemma Env.encodings_nil (env : Env) : env.encodings [] = [] := rfl

/-- The first packet comes before the rest. -/
@[simp] lemma Env.encodings_cons (env : Env) (p : Packet) (ps : List Packet) :
    env.encodings (p :: ps) = env.framing.encode p ++ env.encodings ps := rfl

/-- Packets are encoded one behind the other. -/
@[simp] lemma Env.encodings_append (env : Env) (ps qs : List Packet) :
    env.encodings (ps ++ qs) = env.encodings ps ++ env.encodings qs :=
  List.flatMap_append

namespace Conn

/-- The inline writer's state is consistent. -/
structure Inline (env : Env) (s : Conn) : Prop where
  loop : s.writeLoop = .launched
  bytes : s.closed = false →
    env.encodings s.enqueued = s.transmitted ++ s.writeBuf ++ env.encodings s.sendQueue
  one : s.closed = false → ∀ i j, (s.calls i).pc.writer → (s.calls j).pc.writer → i = j
  active : s.closed = false → ∀ i, (s.calls i).pc.writer → s.writerActive
  present : s.closed = false → s.writerActive → ∃ i, (s.calls i).pc.writer
  idle : s.closed = false → s.writerActive = false → s.sendQueue = [] ∧ s.writeBuf = []
  flushed : s.closed = false → ∀ i, (s.calls i).pc.flushed → s.writeBuf = []

namespace Inline

variable {env : Env} {s t : Conn} {i : Nat}

/-- A new connection has no writer. -/
lemma init : Inline env Conn.init where
  loop := rfl
  bytes _ := rfl
  one _ i j writer := by simp [Conn.init] at writer
  active _ i writer := by simp [Conn.init] at writer
  present _ active := by simp [Conn.init] at active
  idle _ _ := ⟨rfl, rfl⟩
  flushed _ i flushed := by simp [Conn.init] at flushed

/-- A connection that was closed while its write loop was launched. -/
lemma of_closed (loop : t.writeLoop = .launched) (closed : t.closed = true) : Inline env t where
  loop := loop
  bytes opened := by simp [closed] at opened
  one opened := by simp [closed] at opened
  active opened := by simp [closed] at opened
  present opened := by simp [closed] at opened
  idle opened := by simp [closed] at opened
  flushed opened := by simp [closed] at opened

/-- Nothing of the outbound path changes, and every call stays a writer or stays none. -/
lemma same (inl : Inline env s) (closed : t.closed = s.closed) (loop : t.writeLoop = s.writeLoop)
    (enqueued : t.enqueued = s.enqueued) (transmitted : t.transmitted = s.transmitted)
    (writeBuf : t.writeBuf = s.writeBuf) (sendQueue : t.sendQueue = s.sendQueue)
    (writerActive : t.writerActive = s.writerActive)
    (writer : ∀ i, (t.calls i).pc.writer = (s.calls i).pc.writer)
    (flushed : ∀ i, (t.calls i).pc.flushed → (s.calls i).pc.flushed ∨ s.writeBuf = []) :
    Inline env t where
  loop := loop.trans inl.loop
  bytes opened := by
    rw [enqueued, transmitted, writeBuf, sendQueue]
    exact inl.bytes (closed ▸ opened)
  one opened i j := by
    rw [writer, writer]
    exact inl.one (closed ▸ opened) i j
  active opened i := by
    rw [writer, writerActive]
    exact inl.active (closed ▸ opened) i
  present opened := by
    simp only [writer, writerActive]
    exact inl.present (closed ▸ opened)
  idle opened := by
    rw [writerActive, sendQueue, writeBuf]
    exact inl.idle (closed ▸ opened)
  flushed opened i pc := by
    rw [writeBuf]
    exact (flushed i pc).elim (inl.flushed (closed ▸ opened) i) id

/-- A still effect, with the same writer. -/
lemma still (inl : Inline env s) (h : Still s t)
    (writer : ∀ i, (t.calls i).pc.writer = (s.calls i).pc.writer)
    (flushed : ∀ i, (t.calls i).pc.flushed → (s.calls i).pc.flushed ∨ s.writeBuf = []) :
    Inline env t :=
  inl.same h.closed h.writeLoop h.enqueued h.transmitted h.writeBuf h.sendQueue h.writerActive writer
    flushed

/-- Wake-ups keep the writer. -/
lemma frame (inl : Inline env s) (h : Frame s t) : Inline env t :=
  inl.still h.toStill (fun i => by rw [(h.calls i).pc]) fun i pc => .inl ((h.calls i).pc ▸ pc)

/-- One call goes on and stays a writer or stays none. -/
lemma update {c : Call} (inl : Inline env s) (h : Still s t)
    (calls : t.calls = Function.update s.calls i c) (writer : c.pc.writer = (s.calls i).pc.writer)
    (flushed : c.pc.flushed → (s.calls i).pc.flushed ∨ s.writeBuf = []) : Inline env t := by
  refine inl.still h (fun j => ?_) fun j => ?_
  · rw [calls]
    by_cases eq : j = i
    · subst eq
      simpa using writer
    · simp [eq]
  · rw [calls]
    by_cases eq : j = i
    · subst eq
      simpa using flushed
    · simpa [eq] using .inl

/-- A call that goes on as writer, or as none. -/
lemma setPc {pc : Pc} (inl : Inline env s) (writer : pc.writer = (s.calls i).pc.writer)
    (flushed : pc.flushed → (s.calls i).pc.flushed ∨ s.writeBuf = []) : Inline env (s.setPc i pc) :=
  inl.update { Still.refl s with } rfl writer flushed

/-- A new call is not the writer. -/
lemma addCall {c : Call} (inl : Inline env s) (wf : s.Wf) (other : c.pc.writer = false) :
    Inline env (s.addCall c) := by
  have fresh : (s.calls s.next).pc.writer = false := by rw [wf.fresh s.next le_rfl]; rfl
  refine inl.same rfl rfl rfl rfl rfl rfl rfl (fun j => ?_) fun j => ?_
  · rw [addCall_calls]
    split
    case isTrue eq => rw [eq, other, fresh]
    case isFalse => rfl
  · rw [addCall_calls]
    split
    case isTrue =>
      intro flushed
      rw [Pc.writer_of_flushed flushed] at other
      cases other
    case isFalse => exact .inl

/-- The only writer leaves, with nothing left to write. -/
lemma leave {c : Call} (inl : Inline env s) (closed : t.closed = s.closed)
    (loop : t.writeLoop = s.writeLoop) (enqueued : t.enqueued = s.enqueued)
    (transmitted : t.transmitted = s.transmitted) (writeBuf : t.writeBuf = s.writeBuf)
    (sendQueue : t.sendQueue = s.sendQueue) (inactive : t.writerActive = false)
    (calls : t.calls = Function.update s.calls i c) (writer : (s.calls i).pc.writer)
    (out : c.pc.writer = false)
    (done : s.closed = false → s.sendQueue = [] ∧ s.writeBuf = []) : Inline env t := by
  have none : s.closed = false → ∀ j, (t.calls j).pc.writer = false := by
    intro opened j
    rw [calls]
    by_cases eq : j = i
    · subst eq
      simpa using out
    · rw [Function.update_of_ne eq, Bool.eq_false_iff]
      exact fun other => eq (inl.one opened j i other writer)
  constructor
  · exact loop.trans inl.loop
  · intro opened
    rw [enqueued, transmitted, writeBuf, sendQueue]
    exact inl.bytes (closed ▸ opened)
  · intro opened j k writer
    rw [none (closed ▸ opened)] at writer
    cases writer
  · intro opened j writer
    rw [none (closed ▸ opened)] at writer
    cases writer
  · intro _ active
    rw [inactive] at active
    cases active
  · intro opened _
    rw [sendQueue, writeBuf]
    exact done (closed ▸ opened)
  · intro opened _ _
    rw [writeBuf]
    exact (done (closed ▸ opened)).2

/-- A packet joins the queue behind an active writer. -/
lemma putQueue {p : Packet} (inl : Inline env s) (active : s.writerActive) :
    Inline env { s with
      queuedBytes := s.queuedBytes + packetBytes p, sendQueue := s.sendQueue ++ [p]
      enqueued := s.enqueued ++ [p] } where
  loop := inl.loop
  bytes opened := by
    rw [Env.encodings_append, Env.encodings_append, inl.bytes opened, List.append_assoc]
  one := inl.one
  active := inl.active
  present := inl.present
  idle _ inactive := by simp [active] at inactive
  flushed := inl.flushed

/-- A packet finds nobody writing, and its caller becomes the writer. -/
lemma putDrain {p : Packet} {pc : Pc} (inl : Inline env s) (opened : s.closed = false)
    (inactive : s.writerActive = false) (writer : pc.writer) :
    Inline env ({ s with
      queuedBytes := s.queuedBytes + packetBytes p, sendQueue := s.sendQueue ++ [p]
      enqueued := s.enqueued ++ [p], writerActive := true }.setPc i pc) := by
  have none : ∀ j, (s.calls j).pc.writer = false := by
    intro j
    rw [Bool.eq_false_iff]
    intro writer
    have active := inl.active opened j writer
    simp [inactive] at active
  have only : ∀ j, (((s.setPc i pc).calls j).pc.writer) → j = i := by
    intro j writer
    by_contra ne
    rw [Conn.setPc, modCall_calls_of_ne _ _ ne, none] at writer
    cases writer
  constructor
  · exact inl.loop
  · intro opened
    change env.encodings (s.enqueued ++ [p]) =
      s.transmitted ++ s.writeBuf ++ env.encodings (s.sendQueue ++ [p])
    rw [Env.encodings_append, Env.encodings_append, inl.bytes opened, List.append_assoc]
  · exact fun _ j k hj hk => (only j hj).trans (only k hk).symm
  · exact fun _ _ _ => rfl
  · exact fun _ _ => ⟨i, by simpa [Conn.setPc] using writer⟩
  · intro _ inactive
    cases inactive
  · exact fun _ _ _ => (inl.idle opened inactive).2

/-- The writer takes the next packet and encodes it into its empty buffer. -/
lemma drainTake {p : Packet} {rest : List Packet} (inl : Inline env s)
    (pc : (s.calls i).pc = .draining) (queue : s.sendQueue = p :: rest) :
    Inline env ((({ s with sendQueue := rest }.releaseOutboundBytes (packetBytes p)).encode env
      p).setPc i .socketWrite) := by
  have waking := releaseOutboundBytes_waking (packetBytes p) { s with sendQueue := rest }
  set u := { s with sendQueue := rest }.releaseOutboundBytes (packetBytes p)
  have writer : ∀ j, (((u.encode env p).setPc i .socketWrite).calls j).pc.writer =
      (s.calls j).pc.writer := by
    intro j
    rw [Conn.setPc, modCall_calls]
    split
    case isTrue eq => simp [eq, pc]
    case isFalse =>
      change (u.calls j).pc.writer = _
      rw [(waking.calls j).pc]
  constructor
  · exact waking.writeLoop.trans inl.loop
  · intro opened
    have opened' : s.closed = false := waking.closed ▸ opened
    have before := inl.bytes opened'
    change env.encodings u.enqueued =
      u.transmitted ++ (u.writeBuf ++ env.framing.encode p) ++ env.encodings u.sendQueue
    rw [waking.enqueued, waking.transmitted, waking.writeBuf, waking.sendQueue]
    simpa [queue] using before
  · intro opened j k
    rw [writer, writer]
    exact inl.one (waking.closed ▸ opened) j k
  · intro opened j
    rw [writer]
    exact fun h => waking.writerActive.trans (inl.active (waking.closed ▸ opened) j h)
  · exact fun _ _ => ⟨i, by simp [Conn.setPc]⟩
  · intro opened inactive
    have active := inl.active (waking.closed ▸ opened) i (by simp [pc])
    have still : s.writerActive = false := waking.writerActive.symm.trans inactive
    simp [still] at active
  · intro opened j flushed
    -- only the writer could have flushed, and it has not
    have writes := Pc.writer_of_flushed flushed
    rw [writer] at writes
    obtain rfl := inl.one (waking.closed ▸ opened) j i writes (by simp [pc])
    simp [Conn.setPc] at flushed

/-- A cancelled writer hands over to a successor. -/
lemma handOff {e : Throwable} (inl : Inline env s) (wf : s.Wf) (opened : s.closed = false)
    (writer : (s.calls i).pc.writer) :
    Inline env ((s.addCall { kind := .successor, pc := .launched }).setPc i
      (.unwinding (.threw e))) := by
  have ne : i ≠ s.next := by
    refine ne_of_lt (wf.lt_next fun o ended => ?_)
    simp [ended] at writer
  have calls : ∀ j, ((((s.addCall { kind := .successor, pc := .launched }).setPc i
      (.unwinding (.threw e))).calls j).pc.writer) → j = s.next := by
    intro j h
    by_contra other
    rw [Conn.setPc, modCall_calls] at h
    split at h
    case isTrue => simp at h
    case isFalse out =>
      rw [addCall_calls, if_neg other] at h
      exact out (inl.one opened j i h writer)
  constructor
  · exact inl.loop
  · exact inl.bytes
  · exact fun _ j k hj hk => (calls j hj).trans (calls k hk).symm
  · exact fun _ _ _ => inl.active opened i writer
  · refine fun _ _ => ⟨s.next, ?_⟩
    simp [Conn.setPc, modCall_calls, addCall_calls, ne.symm]
  · intro _ inactive
    have active := inl.active opened i writer
    have still : s.writerActive = false := inactive
    simp [still] at active
  · intro _ j flushed
    obtain rfl := calls j (Pc.writer_of_flushed flushed)
    simp [Conn.setPc, modCall_calls, addCall_calls, ne.symm] at flushed

/-- The socket takes bytes from the front of the buffer. -/
lemma transmit (inl : Inline env s) (n : Nat) : Inline env (s.transmit n) where
  loop := inl.loop
  bytes opened := by
    change env.encodings s.enqueued =
      s.transmitted ++ s.writeBuf.take n ++ s.writeBuf.drop n ++ env.encodings s.sendQueue
    rw [inl.bytes opened, List.append_assoc s.transmitted (s.writeBuf.take n), List.take_append_drop]
  one := inl.one
  active := inl.active
  present := inl.present
  idle opened inactive := by simp [Conn.transmit, inl.idle opened inactive]
  flushed opened i pc := by simp [Conn.transmit, inl.flushed opened i pc]

/-- A step of one call keeps the writer. -/
lemma localStep {A : Trigger} {c' : Call} (inl : Inline env s)
    (h : LocalStep A s i (s.calls i) c') : Inline env (s.modCall i fun _ => c') := by
  refine inl.update { Still.refl s with } rfl ?_ ?_
  · cases h <;> simp_all
  · cases h <;> simp_all

/-- The end of a call keeps the writer. -/
lemma finish {o o' : Outcome} (inl : Inline env s) (pc : (s.calls i).pc = .unwinding o') :
    Inline env (s.finish i o) := by
  refine inl.still (finish_still i o s) (fun j => ?_) fun j => ?_
  · rw [finish_pc]
    split
    case isTrue eq => simp [eq, pc]
    case isFalse => rfl
  · rw [finish_pc]
    split
    case isTrue => simp
    case isFalse => exact .inl

/-- A call whose packet is queued is not the writer. -/
lemma afterPut (c : Call) : c.afterPut.writer = false := by
  unfold Call.afterPut
  split <;> rfl

/-- Every effect keeps the inline writer's state consistent. -/
theorem effect {A : Trigger} (mode : env.config.writeMode = .inline) (inl : Inline env s) (wf : s.Wf)
    (h : Effect env A s t) : Inline env t := by
  -- a call that is no writer goes to another place that is none
  have passes : ∀ {u : Conn} {j : Nat} {pc : Pc}, Inline env u → (u.calls j).pc.writer = false →
      pc.writer = false → Inline env (u.setPc j pc) := by
    intro u j pc inl before after
    refine inl.setPc (after.trans before.symm) fun flushed => ?_
    rw [Pc.writer_of_flushed flushed] at after
    cases after
  have rests : ∀ {u : Conn} {j : Nat} {c : Call}, Still s u →
      u.calls = Function.update s.calls j c → (s.calls j).pc.writer = false → c.pc.writer = false →
      Inline env u := by
    intro u j c still calls before after
    refine inl.update still calls (after.trans before.symm) fun flushed => ?_
    rw [Pc.writer_of_flushed flushed] at after
    cases after
  cases h with
  | loc h => exact inl.localStep h
  | @reject c e id pc _ _ => exact { addCall (c := c) inl wf (by simp [pc]) with }
  | @startRequest c _ _ _ _ _ pc _ _ _ _ => exact { addCall (c := c) inl wf (by simp [pc]) with }
  | @startPut c p id _ pc _ _ _ _ _ => exact { addCall (c := c) inl wf (by simp [pc]) with }
  | slotPark pc _ _ _ => exact rests { Still.refl s with } rfl (by simp [pc]) rfl
  | register pc _ _ _ _ => exact passes { inl with } (by simp [pc]) rfl
  | @slotRefused i e pc _ _ _ _ _ =>
    set u : Conn := { s with pending := s.pending.set (s.calls i).req.id i }
    have registered : Inline env u := { inl with }
    have left : Inline env (u.setPc i (.unwinding (.threw e))) :=
      passes registered (by simp [u, pc]) rfl
    exact left.finish (setPc_pc _ _ _)
  | @slotCancelled i pc _ =>
    exact rests { Still.refl s with } (slotCancelled_calls i _ s) (by simp [pc]) rfl
  | roomPark pc _ _ _ => exact rests { Still.refl s with } rfl (by simp [pc]) rfl
  | @roomCancelled i p pc _ =>
    exact rests { Still.refl s with } (roomCancelled_calls i _ s) (by simp [pc]) rfl
  | putQueue pc _ _ _ _ active => exact passes (inl.putQueue active) (by simp [pc]) (afterPut _)
  | putDrain pc opened _ _ _ inactive => exact inl.putDrain opened inactive (by split <;> rfl)
  | putBuffer _ _ _ _ channel _ _ => simp [mode] at channel
  | putHandoff _ _ _ _ channel _ => simp [mode] at channel
  | sendPark _ _ _ _ channel _ => simp [mode] at channel
  | selectPark _ _ _ _ _ channel _ => simp [mode] at channel
  | drainTake pc _ queue => exact inl.drainTake pc queue
  | @drainEnd i pc ended =>
    refine inl.leave rfl rfl rfl rfl rfl rfl rfl rfl (by simp [pc]) (afterPut _) fun opened => ?_
    have empty := ended.resolve_left (by simp [opened])
    exact ⟨empty, inl.flushed opened i (by simp [pc])⟩
  | @successorStart i pc =>
    have active : Inline env { s with writerActive := true } := by
      refine { inl with active := fun _ _ _ => rfl, present := fun opened _ => ?_, idle := ?_ }
      · exact ⟨i, by simp [pc]⟩
      · intro _ inactive
        cases inactive
    refine active.setPc ?_ ?_
    · simp only [pc]
      split <;> rfl
    · intro flushed
      right
      by_contra full
      rw [if_neg full] at flushed
      cases flushed
  | handOff pc opened _ =>
    exact inl.handOff wf opened (by rcases pc with pc | pc <;> simp [pc])
  | writerStop pc done _ =>
    refine inl.leave rfl rfl rfl rfl rfl rfl rfl rfl ?_ rfl fun opened => ?_
    · rcases pc with pc | pc <;> simp [pc]
    · obtain ⟨buf, queue⟩ := done.resolve_left (by simp [opened])
      exact ⟨queue, buf⟩
  | transmit n _ _ => exact inl.transmit n
  | @selectGate i p _ pc _ _ =>
    have woken := abortSelect_waking i p s
    exact passes (inl.frame woken.toFrame) (by rw [(woken.calls i).pc, pc]; rfl) rfl
  | @selectCancelled i p pc _ _ =>
    have woken := abortSelect_waking i p s
    exact passes (inl.frame woken.toFrame) (by rw [(woken.calls i).pc, pc]; rfl) rfl
  | loopFlushing loop _ => simp [inl.loop] at loop
  | loopNext loop => simp [inl.loop] at loop
  | loopRun channel _ => simp [mode] at channel
  | loopEnd loop _ => simp [inl.loop] at loop
  | @cancelSlot i pc _ =>
    exact rests { Still.refl s with } (cancelSlot_calls i s) (by simp [pc]) (by simp [pc])
  | @cancelRoom i p pc _ =>
    exact rests { Still.refl s with } (cancelRoom_calls i s) (by simp [pc]) (by simp [pc])
  | cancelSend pc _ _ => exact rests { Still.refl s with } rfl (by simp [pc]) (by simp [pc])
  | cancelSelect pc _ => exact rests { Still.refl s with } rfl (by simp [pc]) (by simp [pc])
  | finish pc _ => exact inl.finish pc
  | deadline _ _ _ _ _ _ => exact inl.frame (run_frame _ s)
  | response _ _ _ _ _ _ _ => exact inl.frame (onResponse_frame _ s)
  | shutdown opened _ =>
    exact of_closed ((shutdown_frame opened).writeLoop.trans inl.loop) (shutdown_closed s)

/-- The inline writer's state is consistent along every run. -/
theorem reach (mode : env.config.writeMode = .inline)
    (run : Runs.Reach (step env) Runs.always Conn.init s) : Inline env s := by
  have reach := reach_unguarded run
  exact invariant_of_effects reach .init fun A s t _ wf inl eff => inl.effect mode wf eff

end Inline

/-- In INLINE mode, in every state of an open connection, the bytes transmitted are a prefix of the
encodings of the packets enqueued, in that order; there is at most one writer, there is one exactly
while `writerActive` is set, and when it is not, nothing is queued or buffered and every packet
enqueued has been transmitted. -/
theorem inline_writer {env : Env} {s : Conn} (mode : env.config.writeMode = .inline)
    (run : Runs.Reach (step env) Runs.always init s) (opened : s.closed = false) :
    s.transmitted <+: env.encodings s.enqueued ∧
      (∀ i j, (s.calls i).pc.writer → (s.calls j).pc.writer → i = j) ∧
      (s.writerActive ↔ ∃ i, (s.calls i).pc.writer) ∧
      (s.writerActive = false → s.sendQueue = [] ∧ s.writeBuf = [] ∧
        s.transmitted = env.encodings s.enqueued) := by
  have inl := Inline.reach mode run
  have bytes := inl.bytes opened
  refine ⟨?_, inl.one opened, ⟨inl.present opened, ?_⟩, fun inactive => ?_⟩
  · rw [bytes, List.append_assoc]
    exact List.prefix_append _ _
  · rintro ⟨i, writer⟩
    exact inl.active opened i writer
  · obtain ⟨queue, buf⟩ := inl.idle opened inactive
    exact ⟨queue, buf, by simp [bytes, queue, buf]⟩

/-- A writer cancelled in the middle of its packet hands over to a successor. -/
theorem inline_writer_handOff : ∃ s, Runs.Reach (step (.tight .inline)) Runs.always init s ∧
    s.closed = false ∧ (s.calls 1).pc = .launched ∧
    s.transmitted <+: Env.encodings (.tight .inline) s.enqueued := by
  have run : ((Runs.exec (step (.tight .inline)) init
      [.sendOne, .transmit 0 5, .write 0 .cancelled]).map
      fun s => (s.closed, (s.calls 1).pc)) = some (false, .launched) := by decide
  obtain ⟨s, exec, facts⟩ := Option.map_eq_some_iff.mp run
  simp only [Prod.mk.injEq] at facts
  have reach := Runs.reach_always_of_exec exec
  exact ⟨s, reach, facts.1, facts.2, (inline_writer rfl reach facts.1).1⟩

end Conn

end MsgTrans
