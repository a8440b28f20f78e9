import MsgTrans.Connection.Writer
import MsgTrans.Core.Decoding

/-!
# The bytes of the stream

How an effect moves the histories of the outbound path, in either write mode: a packet is encoded
behind what is in the write buffer, and the socket takes bytes from its front. A writer that has
started a socket write stays in it until the write ends.
-/

namespace MsgTrans

/-- A packet is never encoded to nothing. -/
lemma Framing.encode_ne_nil (framing : Framing) (p : Packet) : framing.encode p ≠ [] := by
  intro empty
  have length := congrArg List.length empty
  cases framing with
  | packets => simp [Framing.encode, PacketCodec.length_encode, Packet.FIXED_HEADER_SIZE] at length
  | lengthPrefixed =>
    simp [Framing.encode, LengthPrefixedPacketCodec.encode, PacketCodec.length_encode,
      Packet.FIXED_HEADER_SIZE] at length

/-- The event is the progress of a socket write. -/
def Event.Transmits : Event → Prop
  | .transmit _ _ | .loopTransmit _ => True
  | _ => False

namespace Conn

variable {env : Env} {A : Trigger} {s t : Conn}

/-- How an effect moves the bytes of the outbound path. -/
inductive ByteStep (env : Env) (A : Trigger) (s t : Conn) : Prop where
  | rests :
    t.writeBuf = s.writeBuf → t.transmitted = s.transmitted → t.written = s.written →
    s.enqueued <+: t.enqueued → ByteStep env A s t
  | encodes {p} :
    t.writeBuf = s.writeBuf ++ env.framing.encode p → t.transmitted = s.transmitted →
    t.written = s.written ++ [p] → s.enqueued <+: t.enqueued → ByteStep env A s t
  | transmits {n} :
    (∃ i, A.event = .transmit i n) ∨ A.event = .loopTransmit n → t = s.transmit n → ByteStep env A s t

namespace ByteStep

/-- A still effect moves no bytes. -/
lemma still (h : Still s t) : ByteStep env A s t :=
  .rests h.writeBuf h.transmitted h.written (h.enqueued ▸ List.prefix_rfl)

/-- The write loop takes its next packet into the buffer. -/
lemma loopNext {u : Conn} (h : Still s u) : ByteStep env A s (u.loopNext env) := by
  have enqueued : s.enqueued <+: u.enqueued := h.enqueued ▸ List.prefix_rfl
  unfold Conn.loopNext
  split
  case h_4 => exact .rests h.writeBuf h.transmitted h.written enqueued
  all_goals
    exact .encodes (congrArg (· ++ _) h.writeBuf) h.transmitted (congrArg (· ++ _) h.written) enqueued

/-- How every effect moves the bytes. -/
theorem effect (h : Effect env A s t) : ByteStep env A s t := by
  cases h with
  | slotRefused _ _ _ _ _ _ =>
    refine still (Still.trans ?_ (finish_still _ _ _))
    exact { Still.refl s with }
  | putQueue _ _ _ _ _ _ => exact .rests rfl rfl rfl (List.prefix_append _ _)
  | putDrain _ _ _ _ _ _ => exact .rests rfl rfl rfl (List.prefix_append _ _)
  | putHandoff _ _ _ _ _ _ => exact .encodes rfl rfl rfl List.prefix_rfl
  | @drainTake i p rest _ _ _ =>
    have woken := releaseOutboundBytes_waking (packetBytes p) { s with sendQueue := rest }
    refine .encodes (p := p) ?_ woken.transmitted ?_ ?_
    · exact congrArg (· ++ _) woken.writeBuf
    · exact congrArg (· ++ _) woken.written
    · exact (congrArg (s.enqueued <+: ·) woken.enqueued).mpr List.prefix_rfl
  | transmit n _ taken => exact .transmits (taken.imp (fun ⟨i, at_, _⟩ => ⟨i, at_⟩) And.left) rfl
  | @selectGate i p _ _ _ _ => exact still { (abortSelect_waking i p s).toStill with }
  | @selectCancelled i p _ _ _ => exact still { (abortSelect_waking i p s).toStill with }
  | @loopNext p _ => exact loopNext (releaseOutboundBytes_waking (packetBytes p) s).toStill
  | loopRun _ _ => exact loopNext (.refl s)
  | finish _ _ => exact still (finish_still _ _ s)
  | deadline _ _ _ _ _ _ => exact still (run_frame _ s).toStill
  | response _ _ _ _ _ _ _ => exact still (onResponse_frame _ s).toStill
  | shutdown opened _ =>
    have frame := shutdown_frame opened
    exact .rests frame.writeBuf frame.transmitted frame.written (frame.enqueued ▸ List.prefix_rfl)
  | _ => exact .rests rfl rfl rfl List.prefix_rfl

/-- The histories only grow. -/
lemma grows (h : ByteStep env A s t) :
    s.transmitted <+: t.transmitted ∧ s.written <+: t.written ∧ s.enqueued <+: t.enqueued := by
  cases h with
  | rests _ transmitted written grows =>
    exact ⟨transmitted ▸ List.prefix_rfl, written ▸ List.prefix_rfl, grows⟩
  | encodes _ transmitted written grows =>
    exact ⟨transmitted ▸ List.prefix_rfl, written ▸ List.prefix_append _ _, grows⟩
  | transmits _ eq =>
    subst eq
    exact ⟨List.prefix_append _ _, List.prefix_rfl, List.prefix_rfl⟩

/-- What has been handed to the socket and what is buffered is what has been encoded. -/
lemma framed (h : ByteStep env A s t)
    (framed : s.transmitted ++ s.writeBuf = env.encodings s.written) :
    t.transmitted ++ t.writeBuf = env.encodings t.written := by
  cases h with
  | rests buf transmitted written _ => rw [buf, transmitted, written, framed]
  | encodes buf transmitted written _ =>
    rw [buf, transmitted, written, ← List.append_assoc, framed, Env.encodings_append]
    simp
  | transmits _ eq =>
    subst eq
    change s.transmitted ++ s.writeBuf.take _ ++ s.writeBuf.drop _ = env.encodings s.written
    rw [List.append_assoc, List.take_append_drop, framed]

end ByteStep

/-- The bytes of a run. -/
theorem framed {s : Conn} (run : Runs.Reach (step env) Runs.always init s) :
    s.transmitted ++ s.writeBuf = env.encodings s.written := by
  refine run.invariant (P := fun s => s.transmitted ++ s.writeBuf = env.encodings s.written) rfl ?_
  intro s e t held _ st
  refine Runs.star_preserves (P := fun s => s.transmitted ++ s.writeBuf = env.encodings s.written)
    (fun s t eff held => ?_) (step_effects st) held
  exact (ByteStep.effect eff).framed held

/-- Along a step the histories only grow. -/
lemma step_grows {e : Event} (st : s.step env e = some t) :
    s.transmitted <+: t.transmitted ∧ s.written <+: t.written ∧ s.enqueued <+: t.enqueued := by
  refine Runs.star_preserves (P := fun t => s.transmitted <+: t.transmitted ∧ s.written <+: t.written ∧
    s.enqueued <+: t.enqueued) (fun u v eff held => ?_) (step_effects st)
    ⟨List.prefix_rfl, List.prefix_rfl, List.prefix_rfl⟩
  obtain ⟨transmitted, written, enqueued⟩ := (ByteStep.effect eff).grows
  exact ⟨held.1.trans transmitted, held.2.1.trans written, held.2.2.trans enqueued⟩

/-- Only the socket's progress transmits. -/
lemma step_transmitted {e : Event} (st : s.step env e = some t) (other : ¬ e.Transmits) :
    t.transmitted = s.transmitted := by
  refine Runs.star_preserves (P := fun t => t.transmitted = s.transmitted) (fun u v eff held => ?_)
    (step_effects st) rfl
  cases ByteStep.effect eff with
  | rests _ same _ _ | encodes _ same _ _ => exact same.trans held
  | transmits by_ _ =>
    refine absurd ?_ other
    rcases by_ with ⟨i, event⟩ | event <;> (change e = _ at event; simp [event, Event.Transmits])

/-! ## A write in progress -/

/-- The call stays in its socket write while another goes on. -/
lemma socketWrite_update {i j : Nat} {c : Call} (pc : (s.calls i).pc = .socketWrite)
    (calls : t.calls = Function.update s.calls j c) (other : (s.calls j).pc ≠ .socketWrite) :
    (t.calls i).pc = .socketWrite := by
  have ne : i ≠ j := by
    rintro rfl
    exact other pc
  rw [calls, Function.update_of_ne ne, pc]

/-- A socket write goes on until it ends. -/
lemma effect_socketWrite {i : Nat} (wf : s.Wf) (h : Effect env A s t) (goes : ¬ A.event.EndsSocket i)
    (pc : (s.calls i).pc = .socketWrite) : (t.calls i).pc = .socketWrite := by
  have fresh : (s.calls s.next).pc ≠ .socketWrite := by
    rw [wf.fresh s.next le_rfl]
    simp
  cases h with
  | @loc j c' h =>
    by_cases eq : i = j
    · subst eq
      cases h with
      -- the one step of its own that a call in a socket write can make
      | writeOk _ _ ends => exact absurd ends goes
      | _ => simp_all
    · rw [modCall_calls_of_ne _ _ eq, pc]
  | reject _ _ _ => exact socketWrite_update pc rfl fresh
  | startRequest _ _ _ _ _ _ _ _ _ => exact socketWrite_update pc rfl fresh
  | startPut _ _ _ _ _ _ _ => exact socketWrite_update pc rfl fresh
  | slotPark place _ _ _ => exact socketWrite_update pc rfl (by simp [place])
  | register place _ _ _ _ => exact socketWrite_update pc rfl (by simp [place])
  | @slotRefused j e place _ _ _ _ _ =>
    have ne : i ≠ j := by
      rintro rfl
      simp [pc] at place
    rw [unwind, finish_pc, if_neg ne, setPc, modCall_calls_of_ne _ _ ne, pc]
  | slotCancelled place _ => exact socketWrite_update pc (slotCancelled_calls _ _ s) (by simp [place])
  | roomPark place _ _ _ => exact socketWrite_update pc rfl (by simp [place])
  | roomCancelled place _ => exact socketWrite_update pc (roomCancelled_calls _ _ s) (by simp [place])
  | putQueue place _ _ _ _ _ => exact socketWrite_update pc rfl (by simp [place])
  | putDrain place _ _ _ _ _ => exact socketWrite_update pc rfl (by simp [place])
  | putBuffer place _ _ _ _ _ _ => exact socketWrite_update pc rfl (by simp [place])
  | putHandoff place _ _ _ _ _ => exact socketWrite_update pc rfl (by simp [place])
  | sendPark place _ _ _ _ _ => exact socketWrite_update pc rfl (by simp [place])
  | selectPark place _ _ _ _ _ _ => exact socketWrite_update pc rfl (by simp [place])
  | @drainTake j p rest place _ _ =>
    have woken := releaseOutboundBytes_waking (packetBytes p) { s with sendQueue := rest }
    refine socketWrite_update ((woken.calls i).pc.trans pc) rfl (j := j) ?_
    rw [(woken.calls j).pc, place]
    simp
  | drainEnd place _ => exact socketWrite_update pc rfl (by simp [place])
  | successorStart place => exact socketWrite_update pc rfl (by simp [place])
  | @handOff j _ _ _ ends =>
    have ne : i ≠ j := by
      rintro rfl
      exact goes ends
    rw [setPc, modCall_calls_of_ne _ _ ne]
    exact socketWrite_update pc rfl fresh
  | @writerStop j _ _ _ _ ends =>
    have ne : i ≠ j := by
      rintro rfl
      exact goes ends
    rw [setPc, modCall_calls_of_ne _ _ ne, pc]
  | @selectGate j p _ place _ _ =>
    have woken := abortSelect_waking j p s
    refine socketWrite_update ((woken.calls i).pc.trans pc) rfl (j := j) ?_
    rw [(woken.calls j).pc, place]
    simp
  | @selectCancelled j p place _ _ =>
    have woken := abortSelect_waking j p s
    refine socketWrite_update ((woken.calls i).pc.trans pc) rfl (j := j) ?_
    rw [(woken.calls j).pc, place]
    simp
  | @loopNext p _ =>
    have woken := releaseOutboundBytes_waking (packetBytes p) s
    rw [loopNext_pc, (woken.calls i).pc, pc]
  | loopRun _ _ => rw [loopNext_pc, pc]
  | cancelSlot place _ => exact socketWrite_update pc (cancelSlot_calls _ s) (by simp [place])
  | cancelRoom place _ => exact socketWrite_update pc (cancelRoom_calls _ s) (by simp [place])
  | cancelSend place _ _ => exact socketWrite_update pc rfl (by simp [place])
  | cancelSelect place _ => exact socketWrite_update pc rfl (by simp [place])
  | @finish j o place _ =>
    have ne : i ≠ j := by
      rintro rfl
      simp [pc] at place
    rw [finish_pc, if_neg ne, pc]
  | deadline _ _ _ _ _ _ => exact ((run_frame _ s).calls i).pc.trans pc
  | response _ _ _ _ _ _ _ => exact ((onResponse_frame _ s).calls i).pc.trans pc
  | shutdown _ _ => exact (shutdown_calls s i).pc.trans pc
  | _ => exact pc

/-- A call stays in its socket write until that ends. -/
lemma step_socketWrite {e : Event} {i : Nat} (wf : s.Wf) (st : s.step env e = some t)
    (goes : ¬ e.EndsSocket i) (pc : (s.calls i).pc = .socketWrite) :
    (t.calls i).pc = .socketWrite := by
  refine (Runs.star_preserves (P := fun t => t.Wf ∧ (t.calls i).pc = .socketWrite)
    (fun u v eff held => ?_) (step_effects st) ⟨wf, pc⟩).2
  exact ⟨held.1.effect eff, effect_socketWrite held.1 eff goes held.2⟩

end Conn

end MsgTrans
