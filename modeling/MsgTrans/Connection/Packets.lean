import MsgTrans.Connection.WellFormed

/-!
# The packets of the outbound path

Every packet on the outbound path, from the caller's frame to the bytes written, was made once by a
`request`, a `send` or the handler loop (`Made`), and has passed its checks. `Holds` is where a packet
can be; no effect brings one there that was not there before, unless it makes it.
-/

namespace MsgTrans

/-- The packet in the frame of a call that has not enqueued it yet. -/
@[simp] def Pc.packet : Pc → Option Packet
  | .roomLoop p | .roomWait p | .channelSend p | .channelSelect p => some p
  | _ => none

/-- The packet the write loop is writing. -/
def WriteLoop.packets : WriteLoop → List Packet
  | .writing p | .flushing p => [p]
  | _ => []

/-- A call whose packet is queued has it no more. -/
lemma Call.afterPut_packet (c : Call) : c.afterPut.packet = none := by
  unfold Call.afterPut
  split <;> rfl

namespace Conn

/-- What a packet has to pass before it is enqueued. -/
lemma outboundPacket_ok {env : Env} {type : PacketType} {id : UInt32} {bizType : Int}
    {encoded : KBytes} {compression : Compression} {p : Packet}
    (ok : outboundPacket env type id bizType encoded compression = .ok p) :
    (p.type = type ∧ p.messageId = id ∧ p.bizType = bizType ∧ p.payload = encoded ∧
      p.compression = compression ∧ p.extHeader = .empty) ∧
      packetBytes p ≤ env.config.maxPayloadLength ∧ packetBytes p ≤ env.config.maxOutboundBytes := by
  unfold outboundPacket at ok
  split at ok
  case h_1 => cases ok
  case h_2 q made =>
    split at ok
    case h_1 => cases ok
    case h_2 checked =>
      cases ok
      unfold Packet.new at made
      split at made
      case isFalse => cases made
      case isTrue =>
        cases made
        refine ⟨⟨rfl, rfl, rfl, rfl, rfl, rfl⟩, ?_⟩
        unfold checkOutboundSize at checked
        dsimp only at checked
        split at checked
        case isTrue => cases checked
        case isFalse =>
          split at checked
          case isTrue => cases checked
          case isFalse => omega

/-- The packet `p` is made in the state `s`: by a request that has got its slot, by a `send` or by the
handler loop's answer. -/
inductive Made (env : Env) (A : Trigger) (s : Conn) (p : Packet) : Prop where
  | request {i} :
    (s.calls i).pc = .slotLoop →
    outboundPacket env .request (s.calls i).req.id (s.calls i).bizType (s.calls i).encoded
      (s.calls i).compression = .ok p →
    Made env A s p
  | other {c : Call} :
    c.kind = .oneWay ∨ c.kind = .response → c.Sends env A.event p →
    prepareOutboundPayload env c.payload c.compression = .ok c.encoded →
    Made env A s p

/-- Where on the outbound path a packet can be. -/
inductive Holds (s : Conn) (p : Packet) : Prop where
  | call {i} : (s.calls i).pc.packet = some p → Holds s p
  | queue : p ∈ s.sendQueue → Holds s p
  | buffer : p ∈ s.outbound.buffer → Holds s p
  | loop : p ∈ s.writeLoop.packets → Holds s p
  | written : p ∈ s.written → Holds s p

/-- The path beyond the callers' frames is as it was. -/
structure SamePath (s t : Conn) : Prop where
  sendQueue : t.sendQueue = s.sendQueue
  buffer : t.outbound.buffer = s.outbound.buffer
  loop : t.writeLoop.packets = s.writeLoop.packets
  written : t.written = s.written

/-- A still effect leaves the path as it was. -/
lemma Still.samePath {s t : Conn} (h : Still s t) : SamePath s t :=
  ⟨h.sendQueue, h.buffer, by rw [h.writeLoop], h.written⟩

namespace Holds

variable {env : Env} {A : Trigger} {s t : Conn} {i : Nat} {c : Call} {p : Packet}

/-- No call has a packet that it did not have, and the path is as it was. -/
lemma of_path (held : t.Holds p) (h : SamePath s t)
    (calls : ∀ i, (t.calls i).pc.packet = some p → (s.calls i).pc.packet = some p) : s.Holds p := by
  cases held with
  | call pc => exact .call (calls _ pc)
  | queue mem => exact .queue (h.sendQueue ▸ mem)
  | buffer mem => exact .buffer (h.buffer ▸ mem)
  | loop mem => exact .loop (h.loop ▸ mem)
  | written mem => exact .written (h.written ▸ mem)

/-- Wake-ups put no packet on the path. -/
lemma of_frame (held : t.Holds p) (h : Frame s t) : s.Holds p :=
  held.of_path h.samePath fun i => by rw [(h.calls i).pc]; exact id

/-- The change of one call gives no other a packet. -/
lemma update_packet (calls : t.calls = Function.update s.calls i c)
    (packet : c.pc.packet = some p → (s.calls i).pc.packet = some p) (j : Nat) :
    (t.calls j).pc.packet = some p → (s.calls j).pc.packet = some p := by
  rw [calls]
  by_cases eq : j = i
  · subst eq
    simpa using packet
  · simp [eq]

/-- One call goes on without taking up a packet. -/
lemma of_update (held : t.Holds p) (h : SamePath s t)
    (calls : t.calls = Function.update s.calls i c)
    (packet : c.pc.packet = some p → (s.calls i).pc.packet = some p) : s.Holds p :=
  held.of_path h (update_packet calls packet)

/-- The end of a call. -/
lemma of_finish {o : Outcome} (held : (s.finish i o).Holds p) : s.Holds p := by
  refine held.of_path (finish_still i o s).samePath fun j => ?_
  rw [finish_pc]
  split
  · simp
  · exact id

/-- A `select` that is over. -/
lemma of_abortSelect {q : Packet} {pc' : Pc} (held : ((s.abortSelect i q).setPc i pc').Holds p)
    (packet : pc'.packet = none) : s.Holds p := by
  have aborted : (s.abortSelect i q).Holds p :=
    held.of_update ⟨rfl, rfl, rfl, rfl⟩ rfl (by rw [packet]; simp)
  exact aborted.of_frame (abortSelect_waking i q s).toFrame

/-- A packet moves on along the path. -/
lemma of_move {q : Packet} (held : t.Holds p) (own : s.Holds q)
    (calls : ∀ i, (t.calls i).pc.packet = some p → (s.calls i).pc.packet = some p)
    (queue : ∀ p ∈ t.sendQueue, p ∈ s.sendQueue ∨ p = q)
    (buffer : ∀ p ∈ t.outbound.buffer, p ∈ s.outbound.buffer ∨ p = q)
    (loop : ∀ p ∈ t.writeLoop.packets, p ∈ s.writeLoop.packets ∨ p = q)
    (written : ∀ p ∈ t.written, p ∈ s.written ∨ p = q) : s.Holds p := by
  have same : p = q → s.Holds p := fun eq => eq ▸ own
  cases held with
  | call pc => exact .call (calls _ pc)
  | queue mem => exact (queue p mem).elim .queue same
  | buffer mem => exact (buffer p mem).elim .buffer same
  | loop mem => exact (loop p mem).elim .loop same
  | written mem => exact (written p mem).elim .written same

/-- The call puts its packet on the path. -/
lemma of_put {q : Packet} (held : t.Holds p) (pc : (s.calls i).pc = .roomLoop q)
    (calls : t.calls = Function.update s.calls i c) (packet : c.pc.packet = none)
    (queue : ∀ p ∈ t.sendQueue, p ∈ s.sendQueue ∨ p = q)
    (buffer : ∀ p ∈ t.outbound.buffer, p ∈ s.outbound.buffer ∨ p = q)
    (loop : ∀ p ∈ t.writeLoop.packets, p ∈ s.writeLoop.packets ∨ p = q)
    (written : ∀ p ∈ t.written, p ∈ s.written ∨ p = q) : s.Holds p :=
  held.of_move (.call (i := i) (by simp [pc])) (update_packet calls (by rw [packet]; simp)) queue buffer
    loop written

/-- The write loop only moves packets on. -/
lemma of_loopNext (held : (s.loopNext env).Holds p) (wf : s.Wf) : s.Holds p := by
  have queued : ∀ {j q l}, s.outbound.senders = (j, q) :: l → s.Holds q := by
    intro j q l queue
    obtain ⟨place, _⟩ := (wf.send.mem (j, q)).mp (by simp [queue])
    refine .call (i := j) ?_
    rcases place with pc | pc <;> simp [pc]
  have accepted : ∀ {j k : Nat}, ((Function.update s.calls j { s.calls j with
      wake := .resumed .unit } k).pc).packet = (s.calls k).pc.packet := by
    intro j k
    by_cases eq : k = j
    · subst eq
      simp
    · simp [eq]
  unfold loopNext at held
  split at held
  case h_1 q rest buffer _ =>
    have head : s.Holds q := .buffer (by simp [buffer])
    cases held with
    | call pc => exact .call pc
    | queue mem => exact .queue mem
    | buffer mem => exact .buffer (by rw [buffer]; exact .tail _ mem)
    | loop mem => rwa [List.mem_singleton.mp mem]
    | written mem =>
      rcases List.mem_append.mp mem with mem | mem
      · exact .written mem
      · rwa [List.mem_singleton.mp mem]
  case h_2 q rest j r l buffer queue =>
    have head : s.Holds q := .buffer (by simp [buffer])
    cases held with
    | call pc => exact .call (accepted.symm.trans pc)
    | queue mem => exact .queue mem
    | buffer mem =>
      rcases List.mem_append.mp mem with mem | mem
      · exact .buffer (by rw [buffer]; exact .tail _ mem)
      · rw [List.mem_singleton.mp mem]
        exact queued queue
    | loop mem => rwa [List.mem_singleton.mp mem]
    | written mem =>
      rcases List.mem_append.mp mem with mem | mem
      · exact .written mem
      · rwa [List.mem_singleton.mp mem]
  case h_3 j q l buffer queue =>
    cases held with
    | call pc => exact .call (accepted.symm.trans pc)
    | queue mem => exact .queue mem
    | buffer mem => exact .buffer mem
    | loop mem =>
      rw [List.mem_singleton.mp mem]
      exact queued queue
    | written mem =>
      rcases List.mem_append.mp mem with mem | mem
      · exact .written mem
      · rw [List.mem_singleton.mp mem]
        exact queued queue
  case h_4 =>
    cases held with
    | call pc => exact .call pc
    | queue mem => exact .queue mem
    | buffer mem => exact .buffer mem
    | loop mem =>
      dsimp only at mem
      split at mem <;> cases mem
    | written mem => exact .written mem

/-- A step of its own gives no call a packet. -/
lemma packet_localStep {c' : Call} (h : LocalStep A s i c c') (packet : c'.pc.packet = some p) :
    c.pc.packet = some p := by
  cases h with
  | roomRun pc _ _ => simpa [pc] using packet
  | cancelAwait | cancelSlotWoken | cancelRoomWoken | cancelSendWoken | cancelSelectSent
  | cancelSelectGate | cancelAwaitWoken => exact packet
  | _ => cases packet

/-- A call that has just enqueued its packet or has none. -/
lemma of_afterPut (held : t.Holds p) (h : SamePath s t) (calls : t.calls = Function.update s.calls i
    { s.calls i with pc := (s.calls i).afterPut }) : s.Holds p :=
  held.of_update h calls (by rw [Call.afterPut_packet]; simp)

/-- Where the packets of an effect come from. -/
theorem effect (wf : s.Wf) (h : Effect env A s t) (held : t.Holds p) :
    s.Holds p ∨ Made env A s p := by
  have kept : ∀ {l : List Packet} {q : Packet}, ∀ p ∈ l, p ∈ l ∨ p = q := fun _ => .inl
  have added : ∀ {l : List Packet} {q : Packet}, ∀ p ∈ l ++ [q], p ∈ l ∨ p = q := by simp
  cases h with
  | loc h => exact .inl (held.of_update ⟨rfl, rfl, rfl, rfl⟩ rfl (packet_localStep h))
  | reject pc _ _ => exact .inl (held.of_update ⟨rfl, rfl, rfl, rfl⟩ rfl (by simp [pc]))
  | startRequest _ _ _ _ pc _ _ _ _ =>
    exact .inl (held.of_update ⟨rfl, rfl, rfl, rfl⟩ rfl (by simp [pc]))
  | @startPut c q id kind pc _ _ _ sends prepared =>
    by_cases eq : p = q
    · subst eq
      exact .inr (.other kind sends prepared)
    · exact .inl (held.of_update ⟨rfl, rfl, rfl, rfl⟩ rfl (by simp [pc, Ne.symm eq]))
  | slotPark _ _ _ _ => exact .inl (held.of_update ⟨rfl, rfl, rfl, rfl⟩ rfl (by simp))
  | @register i q pc _ _ _ made =>
    by_cases eq : p = q
    · subst eq
      exact .inr (.request pc made)
    · exact .inl (held.of_update ⟨rfl, rfl, rfl, rfl⟩ rfl (by simp [Ne.symm eq]))
  | @slotRefused i e _ _ _ _ _ _ =>
    set u : Conn := { s with pending := s.pending.set (s.calls i).req.id i }
    have left : (u.setPc i (.unwinding (.threw e))).Holds p := held.of_finish
    exact .inl (left.of_update ⟨rfl, rfl, rfl, rfl⟩ rfl (by simp))
  | slotCancelled _ _ =>
    exact .inl (held.of_update ⟨rfl, rfl, rfl, rfl⟩ (slotCancelled_calls _ _ s) (by simp))
  | roomPark pc _ _ _ => exact .inl (held.of_update ⟨rfl, rfl, rfl, rfl⟩ rfl (by simp [pc]))
  | roomCancelled _ _ =>
    exact .inl (held.of_update ⟨rfl, rfl, rfl, rfl⟩ (roomCancelled_calls _ _ s) (by simp))
  | putQueue pc _ _ _ _ _ =>
    exact .inl (held.of_put pc rfl (Call.afterPut_packet _) added kept kept kept)
  | putDrain pc _ _ _ _ _ =>
    refine .inl (held.of_put pc rfl ?_ added kept kept kept)
    dsimp only
    split <;> rfl
  | putBuffer pc _ _ _ _ _ buffer =>
    refine .inl (held.of_put pc rfl (Call.afterPut_packet _) kept ?_ kept kept)
    rcases buffer with rfl | ⟨_, rfl⟩
    · exact added
    · exact fun p mem => .inr (List.mem_singleton.mp mem)
  | putHandoff pc _ _ _ _ _ =>
    refine .inl (held.of_put pc rfl (Call.afterPut_packet _) kept kept ?_ added)
    simp [loopSend, encode, setPc, WriteLoop.packets]
  | sendPark pc _ _ _ _ _ => exact .inl (held.of_update ⟨rfl, rfl, rfl, rfl⟩ rfl (by simp [pc]))
  | selectPark pc _ _ _ _ _ _ => exact .inl (held.of_update ⟨rfl, rfl, rfl, rfl⟩ rfl (by simp [pc]))
  | @drainTake i q rest pc _ queue =>
    set u : Conn := { s with sendQueue := rest }
    set v := u.releaseOutboundBytes (packetBytes q)
    have woken : Waking u v := releaseOutboundBytes_waking _ u
    have left : v.Holds p ∨ p = q := by
      cases held with
      | call pc => exact .inl (.call (update_packet (s := v) rfl (by simp) _ pc))
      | queue mem => exact .inl (.queue mem)
      | buffer mem => exact .inl (.buffer mem)
      | loop mem => exact .inl (.loop mem)
      | written mem => exact (added p mem).imp_left .written
    rcases left with left | eq
    · refine .inl ((left.of_frame woken.toFrame).of_move (q := q) ?_ (fun _ => id) ?_ kept kept kept)
      · exact .queue (by simp [queue])
      · intro p mem
        rw [queue]
        exact .inl (.tail _ mem)
    · exact .inl (.queue (by simp [queue, eq]))
  | drainEnd _ _ => exact .inl (held.of_afterPut ⟨rfl, rfl, rfl, rfl⟩ rfl)
  | successorStart _ =>
    refine .inl (held.of_update ⟨rfl, rfl, rfl, rfl⟩ rfl ?_)
    dsimp only
    split <;> simp
  | @handOff i _ _ _ =>
    set u := s.addCall { kind := .successor, pc := .launched }
    have launched : u.Holds p := held.of_update ⟨rfl, rfl, rfl, rfl⟩ rfl (by simp)
    exact .inl (launched.of_update ⟨rfl, rfl, rfl, rfl⟩ rfl (by simp))
  | writerStop _ _ _ => exact .inl (held.of_update ⟨rfl, rfl, rfl, rfl⟩ rfl (by simp))
  | transmit _ _ _ => exact .inl (held.of_path ⟨rfl, rfl, rfl, rfl⟩ (fun _ => id))
  | selectGate _ _ _ => exact .inl (held.of_abortSelect rfl)
  | selectCancelled _ _ _ => exact .inl (held.of_abortSelect rfl)
  | loopFlushing writing _ =>
    refine .inl (held.of_path ⟨rfl, rfl, ?_, rfl⟩ fun _ => id)
    simp [writing, WriteLoop.packets]
  | @loopNext q _ =>
    have released := (held.of_loopNext wf.releaseOutboundBytes)
    exact .inl (released.of_frame (releaseOutboundBytes_waking (packetBytes q) s).toFrame)
  | loopRun _ _ => exact .inl (held.of_loopNext wf)
  | loopEnd _ _ =>
    cases held with
    | call pc => exact .inl (.call pc)
    | queue mem => exact .inl (.queue mem)
    | buffer mem => exact .inl (.buffer mem)
    | loop mem => cases mem
    | written mem => exact .inl (.written mem)
  | cancelSlot pc _ =>
    exact .inl (held.of_update ⟨rfl, rfl, rfl, rfl⟩ (cancelSlot_calls _ s) (by simp))
  | cancelRoom pc _ =>
    exact .inl (held.of_update ⟨rfl, rfl, rfl, rfl⟩ (cancelRoom_calls _ s) id)
  | cancelSend pc _ _ => exact .inl (held.of_update ⟨rfl, rfl, rfl, rfl⟩ rfl id)
  | cancelSelect pc _ => exact .inl (held.of_update ⟨rfl, rfl, rfl, rfl⟩ rfl id)
  | finish _ _ => exact .inl held.of_finish
  | deadline _ _ _ _ _ _ => exact .inl (held.of_frame (run_frame _ s))
  | response _ _ _ _ _ _ _ => exact .inl (held.of_frame (onResponse_frame _ s))
  | shutdown opened _ =>
    have emptied := held.of_frame (shutdown_frame opened)
    cases emptied with
    | call pc => exact .inl (.call pc)
    | queue mem => cases mem
    | buffer mem => exact .inl (.buffer mem)
    | loop mem => exact .inl (.loop mem)
    | written mem => exact .inl (.written mem)

end Holds

/-- Every packet on the path has been built and checked by `outboundPacket`. -/
lemma Made.checked {env : Env} {A : Trigger} {s : Conn} {p : Packet} (made : Made env A s p) :
    ∃ type id bizType encoded compression,
      outboundPacket env type id bizType encoded compression = .ok p := by
  cases made with
  | request _ ok => exact ⟨_, _, _, _, _, ok⟩
  | @other c kind sends _ =>
    unfold Call.Sends at sends
    rcases kind with kind | kind <;> simp only [kind] at sends
    · obtain ⟨id, ok⟩ := sends
      exact ⟨_, _, _, _, _, ok⟩
    · obtain ⟨id, _, ok⟩ := sends
      exact ⟨_, _, _, _, _, ok⟩

/-- Every packet on the path has passed the size checks. -/
lemma Made.fits {env : Env} {A : Trigger} {s : Conn} {p : Packet} (made : Made env A s p) :
    packetBytes p ≤ env.config.maxOutboundBytes := by
  obtain ⟨_, _, _, _, _, ok⟩ := made.checked
  exact (outboundPacket_ok ok).2.2

/-- The packets of a run have no ext header and a payload within the limit. -/
lemma holds_checked {env : Env} {s : Conn} {p : Packet}
    (run : Runs.Reach (step env) Runs.always init s) (held : s.Holds p) :
    p.extHeader = .empty ∧ packetBytes p ≤ env.config.maxPayloadLength := by
  have reach := reach_unguarded run
  refine invariant_of_effects (P := fun s => s.Holds p → p.extHeader = .empty ∧
    packetBytes p ≤ env.config.maxPayloadLength) reach ?_ ?_ held
  · intro held
    cases held with
    | call pc => simp [init] at pc
    | queue mem | buffer mem | loop mem | written mem => cases mem
  · intro A s t _ wf before eff held
    rcases Holds.effect wf eff held with held | made
    · exact before held
    · obtain ⟨_, _, _, _, _, ok⟩ := made.checked
      obtain ⟨⟨_, _, _, _, _, ext⟩, fits, _⟩ := outboundPacket_ok ok
      exact ⟨ext, fits⟩

end Conn

end MsgTrans
