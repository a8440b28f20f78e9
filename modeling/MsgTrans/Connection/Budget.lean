import MsgTrans.Connection.Packets
import MsgTrans.Connection.Rousing
import MsgTrans.Connection.WriteLoop
import MsgTrans.Lib.Tally

/-!
# The outbound budget

`queuedBytes` against the packets it is charged for: those queued, buffered or being written, and
those of the senders suspended on the outbound channel. `Booked` says once how an effect changes the
two; that the account is exact along runs follows from it.
-/

namespace MsgTrans

/-- Payload bytes of a list of packets. -/
def totalBytes (ps : List Packet) : Nat := (ps.map fun p => p.payload.size).sum

/-- No packets have no bytes. -/
@[simp] lemma totalBytes_nil : totalBytes [] = 0 := rfl

/-- The first packet counts with the rest. -/
@[simp] lemma totalBytes_cons (p : Packet) (ps : List Packet) :
    totalBytes (p :: ps) = p.payload.size + totalBytes ps := rfl

/-- The bytes of two lists add up. -/
@[simp] lemma totalBytes_append (ps qs : List Packet) :
    totalBytes (ps ++ qs) = totalBytes ps + totalBytes qs := by
  simp [totalBytes]

/-- The call is at the outbound channel. -/
@[simp] def Pc.sends : Pc → Bool
  | .channelSend _ | .channelSelect _ => true
  | _ => false

namespace Call

/-- The packet of a sender suspended on the outbound channel, while the channel has not taken it. A
`select` that chose its gate or was cancelled is suspended there until it runs. -/
def offered (c : Call) : List Packet :=
  match c.pc with
  | .channelSend p => if c.wake = .parked then [p] else []
  | .channelSelect p =>
    if c.wake = .resumed .unit ∨ c.wake = .resumedCancelled .unit then [] else [p]
  | _ => []

variable {c c' : Call}

/-- Away from the channel nothing is offered. -/
lemma offered_of_pc (pc : c.pc.sends = false) : c.offered = [] := by
  unfold offered
  split <;> simp_all

/-- A call whose packet is queued is away from the channel. -/
lemma afterPut_sends (c : Call) : c.afterPut.sends = false := by
  unfold afterPut
  split <;> rfl

/-- Nobody but the channel takes a packet. -/
lemma Roused.offered (h : Call.Roused c c') : c'.offered = c.offered := by
  unfold Call.offered
  rw [h.pc]
  split
  case h_1 p pc =>
    rcases h.wake with same | ⟨_, r, _, by_⟩
    · rw [same]
    · simp [pc] at by_
  case h_2 p pc =>
    rcases h.wake with same | ⟨parked, r, woken, by_⟩
    · rw [same]
    · obtain rfl : r = .gate := by simpa [pc] using by_
      simp [woken, parked]
  case h_3 => rfl

/-- A step of its own takes no call's packet to or from the channel. -/
lemma offered_localStep {A : Trigger} {s : Conn} {i : Nat} (h : LocalStep A s i c c') :
    c'.offered = c.offered := by
  cases h with
  | sendRun pc wake => simp [offered, pc, wake]
  | sendCancelled pc cancelled => rcases cancelled with wake | ⟨r, wake⟩ <;> simp [offered, pc, wake]
  | selectSent pc wake => simp [offered, pc, wake]
  | cancelSendWoken pc wake => simp [offered, pc, wake]
  | cancelSelectSent pc wake => simp [offered, pc, wake]
  | cancelSelectGate pc wake => simp [offered, pc, wake]
  | slotRun pc | slotSettled pc | slotClosed pc | roomRun pc | roomSettled pc | roomClosed pc
  | roomThrown pc | awaitPark pc | awaitReturn pc | awaitThrow pc | awaitRun pc | awaitRunThrow pc
  | awaitCancelled pc | cancelAwait pc | cancelSlotWoken pc | cancelRoomWoken pc | cancelAwaitWoken pc
  | writeOk pc | flushOk pc => simp [offered, pc]

end Call

namespace Conn

/-- Bytes offered by the senders suspended on the outbound channel. -/
def offeredBytes (s : Conn) : Nat := tally (fun c => totalBytes c.offered) s.calls s.next

/-- Bytes queued, buffered or being written. -/
def pathBytes (s : Conn) : Nat :=
  totalBytes s.sendQueue + totalBytes s.outbound.buffer + totalBytes s.writeLoop.packets

/-- The bytes the budget should be charged for. -/
def charged (s : Conn) : Nat := s.pathBytes + s.offeredBytes

section
variable {s t : Conn} {i : Nat} {c : Call}

/-- The bytes on offer after the change of one call. -/
lemma offeredBytes_update (lt : i < s.next) (calls : t.calls = Function.update s.calls i c)
    (next : t.next = s.next) :
    t.offeredBytes + totalBytes (s.calls i).offered = s.offeredBytes + totalBytes c.offered := by
  rw [offeredBytes, calls, next]
  exact tally_update lt

/-- Wake-ups leave the path as it is. -/
lemma Roused.pathBytes (h : Roused s t) : t.pathBytes = s.pathBytes := by
  rw [Conn.pathBytes, Conn.pathBytes, h.sendQueue, h.buffer, h.writeLoop]

/-- Wake-ups leave the charge as it is. -/
lemma Roused.charged (h : Roused s t) : t.charged = s.charged := by
  have offered : t.offeredBytes = s.offeredBytes := by
    rw [offeredBytes, offeredBytes, h.next]
    exact tally_congr fun i _ => by rw [(h.calls i).offered]
  rw [Conn.charged, Conn.charged, h.pathBytes, offered]

/-- A release takes the bytes from the budget, down to zero. -/
lemma releaseOutboundBytes_queuedBytes (bytes : Int) (s : Conn) :
    (s.releaseOutboundBytes bytes).queuedBytes = max 0 (s.queuedBytes - bytes) := by
  have room : ∀ s : Conn, s.wakeOneRoomWaiter.queuedBytes = s.queuedBytes := by
    intro s
    unfold wakeOneRoomWaiter
    split <;> rfl
  simp only [releaseOutboundBytes, room]
  split <;> omega

/-- The budget apart, releasing bytes only wakes a room waiter. -/
lemma releaseOutboundBytes_roused {bytes : Int} (wf : s.Wf) :
    Roused { s with queuedBytes := (s.releaseOutboundBytes bytes).queuedBytes }
      (s.releaseOutboundBytes bytes) := by
  set u : Conn := { s with queuedBytes := if s.queuedBytes - bytes < 0 then 0 else s.queuedBytes - bytes }
  have wfu : u.Wf := { wf with }
  exact { Roused.wakeOneRoomWaiter wfu with queuedBytes := rfl }

/-- A release leaves the charge as it is. -/
lemma releaseOutboundBytes_charged {bytes : Int} (wf : s.Wf) :
    (s.releaseOutboundBytes bytes).charged = s.charged :=
  (releaseOutboundBytes_roused wf).charged

/-- The write loop charges nothing. -/
lemma loopNext_queuedBytes (env : Env) (s : Conn) : (s.loopNext env).queuedBytes = s.queuedBytes := by
  unfold loopNext
  split <;> rfl

/-- The sender that is let in offers its packet no longer. -/
lemma accepted_offeredBytes {q : Packet} {l : List (Nat × Packet)} (wf : s.Wf)
    (queue : s.outbound.senders = (i, q) :: l)
    (calls : t.calls = Function.update s.calls i { s.calls i with wake := .resumed .unit })
    (next : t.next = s.next) : t.offeredBytes + q.payload.size = s.offeredBytes := by
  obtain ⟨place, wake⟩ := (wf.send.mem (i, q)).mp (by simp [queue])
  have lt : i < s.next := wf.lt_next (by rcases place with pc | pc <;> simp [pc])
  have sum := offeredBytes_update lt calls next
  rcases place with pc | pc <;> simpa [Call.offered, pc, wake] using sum

/-- The write loop goes on: what it was writing is done, everything else moves up. -/
lemma loopNext_charged {env : Env} (wf : s.Wf) :
    (s.loopNext env).charged + totalBytes s.writeLoop.packets = s.charged := by
  unfold loopNext
  split
  case h_1 p rest buffer _ =>
    simp [charged, pathBytes, loopSend, encode, buffer, WriteLoop.packets, offeredBytes]
    omega
  case h_2 p rest j q l buffer queue =>
    have sum := accepted_offeredBytes (t := ({ s with
      outbound := ⟨rest ++ [q], l⟩ }.acceptSender j).loopSend env p) wf queue rfl rfl
    simp only [charged, pathBytes, buffer] at sum ⊢
    simp [loopSend, encode, acceptSender, modCall, WriteLoop.packets] at sum ⊢
    omega
  case h_3 j q l buffer queue =>
    have sum := accepted_offeredBytes (t := ({ s with
      outbound := { s.outbound with senders := l } }.acceptSender j).loopSend env q) wf queue rfl rfl
    simp only [charged, pathBytes, buffer] at sum ⊢
    simp [loopSend, encode, acceptSender, modCall, WriteLoop.packets] at sum ⊢
    omega
  case h_4 buffer queue =>
    simp [charged, pathBytes, buffer, offeredBytes]
    split <;> simp [WriteLoop.packets] <;> omega

end

/-- Neither the budget nor what it is charged for has changed. -/
structure Kept (s t : Conn) : Prop where
  bytes : t.queuedBytes = s.queuedBytes
  charged : t.charged = s.charged

namespace Kept

variable {s t u : Conn} {i : Nat} {c : Call}

/-- What is kept twice is kept. -/
lemma trans (h : Kept s t) (h' : Kept t u) : Kept s u :=
  ⟨h'.bytes.trans h.bytes, h'.charged.trans h.charged⟩

/-- Wake-ups change no account. -/
lemma roused (h : Roused s t) : Kept s t :=
  ⟨h.queuedBytes, h.charged⟩

/-- One call changes and offers what it offered before. -/
lemma update (lt : i < s.next) (calls : t.calls = Function.update s.calls i c)
    (next : t.next = s.next) (bytes : t.queuedBytes = s.queuedBytes) (path : t.pathBytes = s.pathBytes)
    (offered : c.offered = (s.calls i).offered) : Kept s t := by
  have sum := offeredBytes_update lt calls next
  rw [offered] at sum
  refine ⟨bytes, ?_⟩
  rw [Conn.charged, Conn.charged, path]
  omega

/-- A call away from the channel goes to another place away from it. -/
lemma pass (wf : s.Wf) (before : (s.calls i).pc.sends = false) (after : c.pc.sends = false)
    (running : ∀ o, (s.calls i).pc ≠ .ended o) (calls : t.calls = Function.update s.calls i c)
    (next : t.next = s.next) (bytes : t.queuedBytes = s.queuedBytes)
    (path : t.pathBytes = s.pathBytes) : Kept s t := by
  refine update (wf.lt_next running) calls next bytes path ?_
  rw [Call.offered_of_pc before, Call.offered_of_pc after]

/-- A new call has offered nothing yet. -/
lemma addCall (pc : c.pc.sends = false) (calls : t.calls = Function.update s.calls s.next c)
    (next : t.next = s.next + 1) (bytes : t.queuedBytes = s.queuedBytes)
    (path : t.pathBytes = s.pathBytes) : Kept s t := by
  have sum : t.offeredBytes = s.offeredBytes + totalBytes c.offered := by
    rw [offeredBytes, calls, next]
    exact tally_succ
  rw [Call.offered_of_pc pc] at sum
  refine ⟨bytes, ?_⟩
  rw [Conn.charged, Conn.charged, path, sum]
  rfl

/-- The end of a call. -/
lemma finish {o o' : Outcome} (wf : s.Wf) (pc : (s.calls i).pc = .unwinding o') :
    Kept s (s.finish i o) := by
  have place : (s.calls i).pc.sends = false := by simp [pc]
  have running : ∀ o, (s.calls i).pc ≠ .ended o := by simp [pc]
  unfold Conn.finish
  split
  case isTrue request =>
    have disposed : Kept s (s.dispose i o) := pass wf place rfl running rfl rfl rfl rfl
    dsimp only
    split
    case isTrue =>
      refine disposed.trans (.trans (roused .unregister) (roused (.wakeOneInFlightWaiter ?_)))
      exact (wf.dispose pc request).unregister
    case isFalse => exact disposed
  case isFalse => exact pass wf place rfl running rfl rfl rfl rfl

end Kept

/-- How an effect changes `queuedBytes` and the bytes it should be charged for. Apart from the first
two, which agree, these are the ways the account goes wrong. -/
inductive Booked (env : Env) (A : Trigger) (s t : Conn) : Prop where
  | charge {n : Nat} :
    t.queuedBytes = s.queuedBytes + n → t.charged = s.charged + n →
    n = 0 ∨ s.roomFor env n ∧ (∃ i p, (s.calls i).pc = .roomLoop p ∧ packetBytes p = n) →
    Booked env A s t
  | release {n : Nat} :
    t.queuedBytes = max 0 (s.queuedBytes - n) → t.charged + n = s.charged →
    Booked env A s t
  | releaseTwice {n : Nat} :
    A .selectCancelled →
    t.queuedBytes = max 0 (s.queuedBytes - n) → t.charged = s.charged →
    Booked env A s t
  | overwrite :
    env.config.outboundKind = .conflated →
    Booked env A s t
  | abandon :
    A .senderCancelled →
    Booked env A s t
  | fault :
    A .loopFault → t.writeLoop = .ended →
    Booked env A s t
  | shut :
    t.closed →
    Booked env A s t

namespace Booked

variable {env : Env} {A : Trigger} {s t u : Conn} {i : Nat} {c : Call} {p : Packet}

/-- An effect that changes no account. -/
lemma kept (h : Kept s t) : Booked env A s t :=
  .charge (n := 0) (by simp [h.bytes]) (by simp [h.charged]) (.inl rfl)

/-- A packet with room for it is put on the outbound path. -/
lemma put (wf : s.Wf) (pc : (s.calls i).pc = .roomLoop p) (room : s.roomFor env (packetBytes p))
    (calls : t.calls = Function.update s.calls i c) (next : t.next = s.next)
    (bytes : t.queuedBytes = s.queuedBytes + packetBytes p)
    (path : t.pathBytes + totalBytes c.offered = s.pathBytes + p.payload.size) : Booked env A s t := by
  have sum := offeredBytes_update (wf.lt_next (by simp [pc])) calls next
  rw [Call.offered_of_pc (c := s.calls i) (by simp [pc])] at sum
  refine .charge (n := p.payload.size) bytes ?_ (.inr ⟨room, i, p, pc, rfl⟩)
  rw [charged, charged]
  simp only [totalBytes_nil] at sum
  omega

/-- A `select` that sent nothing gives its bytes back; one that had sent gives them back too. -/
lemma abortSelect {pc' : Pc} (wf : s.Wf) (pc : (s.calls i).pc = .channelSelect p)
    (woken : (s.calls i).wake ≠ .parked) (unsent : (s.calls i).wake ≠ .resumed .unit)
    (sent : (s.calls i).wake = .resumedCancelled .unit → A .selectCancelled)
    (away : pc'.sends = false) : Booked env A s ((s.abortSelect i p).setPc i pc') := by
  have request : (s.calls i).kind = .request := by
    have kind := (wf.call i).kind
    rwa [pc] at kind
  set u := s.modReq i fun r => { r with gate := false }
  have wfu : u.Wf := wf.modReq (wf.lt_of_request request) ((wf.call i).dropGate woken request) id
  have gate : Roused s u := .modReq
  set v := u.releaseOutboundBytes (packetBytes p)
  have bytes : v.queuedBytes = max 0 (s.queuedBytes - p.payload.size) :=
    releaseOutboundBytes_queuedBytes (packetBytes p) u
  have charged : v.charged = s.charged := (releaseOutboundBytes_charged wfu).trans gate.charged
  have offered : (v.calls i).offered = (s.calls i).offered :=
    (((releaseOutboundBytes_roused wfu).calls i).offered).trans (gate.calls i).offered
  have sum : (v.setPc i pc').offeredBytes + totalBytes (s.calls i).offered = v.offeredBytes := by
    rw [← offered]
    have lt : i < v.next := wfu.releaseOutboundBytes.lt_of_request
      (((releaseOutboundBytes_roused wfu).calls i).kind.trans ((gate.calls i).kind.trans request))
    have sum := offeredBytes_update (t := v.setPc i pc') lt rfl rfl
    rwa [Call.offered_of_pc (c := { v.calls i with pc := pc' }) away] at sum
  have total : (v.setPc i pc').charged + totalBytes (s.calls i).offered = s.charged := by
    rw [← charged, Conn.charged, Conn.charged, ← sum]
    exact (Nat.add_assoc _ _ _)
  change Booked env A s (v.setPc i pc')
  by_cases taken : (s.calls i).wake = .resumedCancelled .unit
  · refine .releaseTwice (sent taken) bytes ?_
    simpa [Call.offered, pc, taken] using total
  · refine .release bytes ?_
    simpa [Call.offered, pc, taken, unsent] using total

/-- How every effect changes the account. -/
theorem effect (wf : s.Wf) (h : Effect env A s t) : Booked env A s t := by
  cases h with
  | loc h =>
    exact kept (.update (wf.lt_next (Call.running_of_localStep h)) rfl rfl rfl rfl
      (Call.offered_localStep h))
  | reject pc _ _ => exact kept (.addCall (by simp [pc]) rfl rfl rfl rfl)
  | startRequest _ _ _ _ pc _ _ _ _ => exact kept (.addCall (by simp [pc]) rfl rfl rfl rfl)
  | startPut _ pc _ _ _ _ _ => exact kept (.addCall (by simp [pc]) rfl rfl rfl rfl)
  | slotPark pc _ _ _ => exact kept (.pass wf (by simp [pc]) rfl (by simp [pc]) rfl rfl rfl rfl)
  | register pc _ _ _ _ => exact kept (.pass wf (by simp [pc]) rfl (by simp [pc]) rfl rfl rfl rfl)
  | @slotRefused i e pc _ _ _ _ _ =>
    refine kept (.trans ?_ (.finish (wf.refused pc) (setPc_pc _ _ _)))
    exact .pass wf (by simp [pc]) rfl (by simp [pc]) rfl rfl rfl rfl
  | slotCancelled pc _ =>
    exact kept (.pass wf (by rw [pc]; rfl) rfl (by simp [pc]) (slotCancelled_calls _ _ s) rfl rfl rfl)
  | roomPark pc _ _ _ => exact kept (.pass wf (by simp [pc]) rfl (by simp [pc]) rfl rfl rfl rfl)
  | roomCancelled pc _ =>
    exact kept (.pass wf (by rw [pc]; rfl) rfl (by simp [pc]) (roomCancelled_calls _ _ s) rfl rfl rfl)
  | putQueue pc _ room _ _ _ =>
    refine put wf pc room rfl rfl rfl ?_
    rw [Call.offered_of_pc (Call.afterPut_sends _)]
    simp [pathBytes, setPc]
    omega
  | @putDrain i p pc _ room _ _ _ =>
    refine put wf pc room rfl rfl rfl ?_
    rw [Call.offered_of_pc (by dsimp only; split <;> rfl)]
    simp [pathBytes, setPc]
    omega
  | putBuffer pc _ room _ _ _ buffer =>
    rcases buffer with rfl | ⟨conflated, _⟩
    · refine put wf pc room rfl rfl rfl ?_
      rw [Call.offered_of_pc (Call.afterPut_sends _)]
      simp [pathBytes, setPc]
      omega
    -- the dropped packet stays charged
    · exact .overwrite conflated
  | putHandoff pc _ room _ _ receiving =>
    refine put wf pc room rfl rfl rfl ?_
    rw [Call.offered_of_pc (Call.afterPut_sends _)]
    simp [pathBytes, setPc, loopSend, encode, receiving, WriteLoop.packets]
  | sendPark pc _ room _ _ _ =>
    refine put wf pc room rfl rfl rfl ?_
    simp [pathBytes, Call.offered]
  | selectPark pc _ room _ _ _ _ =>
    refine put wf pc room rfl rfl rfl ?_
    simp [pathBytes, Call.offered]
  | @drainTake i p rest pc _ queue =>
    set u : Conn := { s with sendQueue := rest }
    have wfu : u.Wf := { wf with }
    set v := u.releaseOutboundBytes (packetBytes p)
    have still : (v.calls i).pc = .draining := ((releaseOutboundBytes_roused wfu).calls i).pc.trans pc
    have moved : Kept v ((v.encode env p).setPc i .socketWrite) :=
      .pass wfu.releaseOutboundBytes (by simp [still]) rfl (by simp [still]) rfl rfl rfl rfl
    -- the packet leaves the queue and is released with it
    have taken : u.charged + p.payload.size = s.charged := by
      simp [charged, pathBytes, u, queue, offeredBytes]
      omega
    refine .release (n := p.payload.size) ?_ ?_
    · rw [moved.bytes]
      exact releaseOutboundBytes_queuedBytes (packetBytes p) u
    · rw [moved.charged, releaseOutboundBytes_charged wfu, taken]
  | drainEnd pc _ =>
    exact kept (.pass wf (by simp [pc]) (Call.afterPut_sends _) (by simp [pc]) rfl rfl rfl rfl)
  | successorStart pc =>
    exact kept (.pass wf (by simp [pc]) (by dsimp only; split <;> rfl) (by simp [pc]) rfl rfl rfl rfl)
  | @handOff i pc _ _ =>
    have running : ∀ o, (s.calls i).pc ≠ .ended o := by rcases pc with pc | pc <;> simp [pc]
    have away : (s.calls i).pc.sends = false := by rcases pc with pc | pc <;> simp [pc]
    set u := s.addCall { kind := .successor, pc := .launched }
    have same : u.calls i = s.calls i := wf.addCall_older running
    refine kept (.trans (t := u) (.addCall rfl rfl rfl rfl rfl) ?_)
    exact .pass wf.launched (by rw [same, away]) rfl (by rwa [same]) rfl rfl rfl rfl
  | writerStop pc _ _ =>
    refine kept (.pass wf ?_ rfl ?_ rfl rfl rfl rfl) <;> rcases pc with pc | pc <;> simp [pc]
  | transmit _ _ _ => exact kept ⟨rfl, rfl⟩
  | selectGate pc wake unsent =>
    exact abortSelect wf pc (by simp [wake]) (by simpa [wake] using unsent) (by simp [wake]) rfl
  | selectCancelled pc cancelled sent =>
    refine abortSelect wf pc (Wf.not_parked_of_cancelled cancelled) ?_ sent rfl
    rcases cancelled with wake | ⟨r, wake⟩ <;> simp [wake]
  | loopFlushing writing _ =>
    exact kept ⟨rfl, by simp [charged, pathBytes, writing, WriteLoop.packets, offeredBytes]⟩
  | @loopNext p flushing =>
    set u := s.releaseOutboundBytes (packetBytes p)
    have wfu : u.Wf := wf.releaseOutboundBytes
    have sum : (u.loopNext env).charged + totalBytes u.writeLoop.packets = u.charged :=
      loopNext_charged wfu
    have loop : u.writeLoop = .flushing p := (releaseOutboundBytes_roused wf).writeLoop.trans flushing
    rw [loop, releaseOutboundBytes_charged wf] at sum
    refine .release (n := p.payload.size) ?_ sum
    rw [loopNext_queuedBytes]
    exact releaseOutboundBytes_queuedBytes (packetBytes p) s
  | loopRun _ idle =>
    have sum : (s.loopNext env).charged + totalBytes s.writeLoop.packets = s.charged :=
      loopNext_charged wf
    -- a write loop that waits or has just been launched has no packet in its hands
    have none : s.writeLoop.packets = [] := by rcases idle with loop | ⟨loop, _⟩ <;> rw [loop] <;> rfl
    rw [none] at sum
    exact kept ⟨loopNext_queuedBytes env s, sum⟩
  | loopEnd _ fault =>
    -- on an open connection the packet in hand is never released
    by_cases closed : s.closed
    · exact .shut closed
    · exact .fault (fault (by simpa using closed)) rfl
  | cancelSlot pc wake =>
    exact kept (.pass wf (by rw [pc]; rfl) (by simp [pc]) (by simp [pc]) (cancelSlot_calls _ s) rfl rfl rfl)
  | cancelRoom pc wake =>
    exact kept (.pass wf (by rw [pc]; rfl) (by simp [pc]) (by simp [pc]) (cancelRoom_calls _ s) rfl rfl rfl)
  | cancelSend _ _ abandoned => exact .abandon abandoned
  | cancelSelect pc wake =>
    refine kept (.update (wf.lt_next (by simp [pc])) rfl rfl rfl rfl ?_)
    simp [Call.offered, pc, wake]
  | finish pc _ => exact kept (.finish wf pc)
  | deadline _ armed _ _ _ _ => exact kept (.roused (.run wf armed))
  | response _ _ _ _ _ _ _ => exact kept (.roused (.onResponse wf))
  | shutdown _ _ => exact .shut (shutdown_closed s)

end Booked

/-- The flaws that falsify the account. -/
def budgetFlaw (f : Flaw) : Prop :=
  f = .senderCancelled ∨ f = .selectCancelled ∨ f = .loopFault

/-- The budget of an open connection in CHANNEL mode is exact: it is what is buffered, being written
or offered by suspended senders, no release takes it below zero, and it keeps to its bound. -/
structure Accounted (env : Env) (s : Conn) : Prop where
  bytes : s.queuedBytes =
    totalBytes s.outbound.buffer + totalBytes s.writeLoop.packets + s.offeredBytes
  loopRelease : ∀ p, s.writeLoop = .flushing p → packetBytes p ≤ s.queuedBytes
  selectRelease : ∀ i p, (s.calls i).pc = .channelSelect p → p ∈ (s.calls i).offered →
    packetBytes p ≤ s.queuedBytes
  bound : 0 ≤ env.config.maxOutboundBytes → s.queuedBytes ≤ env.config.maxOutboundBytes

/-- The account is exact, and every packet on the path has passed its size check. -/
structure Exact (env : Env) (s : Conn) : Prop where
  fits : ∀ p, s.Holds p → packetBytes p ≤ env.config.maxOutboundBytes
  queue : s.sendQueue = []
  bytes : s.closed = false → s.queuedBytes = s.charged
  bound : s.closed = false → 0 ≤ env.config.maxOutboundBytes →
    s.queuedBytes ≤ env.config.maxOutboundBytes

namespace Exact

variable {env : Env} {A : Trigger} {s t : Conn}

/-- The account of a new connection. -/
lemma init : Exact env Conn.init where
  fits p held := by
    cases held with
    | call pc => cases pc
    | queue mem | buffer mem | loop mem | written mem => cases mem
  queue := rfl
  bytes _ := rfl
  bound _ nonneg := nonneg

/-- One booking keeps an exact account exact, and within its bound. -/
lemma booked (h : Exact env s) (before : s.closed = false) (opened : t.closed = false)
    (avoid : ∀ f, budgetFlaw f → ¬ A f) (kind : env.config.outboundKind ≠ .conflated)
    (booked : Booked env A s t) : t.queuedBytes = t.charged ∧
      (0 ≤ env.config.maxOutboundBytes → t.queuedBytes ≤ env.config.maxOutboundBytes) := by
  have bytes := h.bytes before
  have bound := h.bound before
  cases booked with
  | @charge n after charged room =>
    refine ⟨by omega, fun nonneg => ?_⟩
    rcases room with rfl | ⟨room, i, p, pc, size⟩
    · simpa [after] using bound nonneg
    · have small := h.fits p (.call (i := i) (by simp [pc]))
      simp only [roomFor, Bool.and_eq_true, Bool.or_eq_true, beq_iff_eq, decide_eq_true_eq] at room
      omega
  | release after charged => omega
  | releaseTwice again _ _ => exact absurd again (avoid _ (.inr (.inl rfl)))
  | overwrite conflated => exact absurd conflated kind
  | abandon abandoned => exact absurd abandoned (avoid _ (.inl rfl))
  | fault fault _ => exact absurd fault (avoid _ (.inr (.inr rfl)))
  | shut closed => simp [opened] at closed

/-- Every effect keeps the account exact, if it has none of the flaws. -/
lemma effect (h : Exact env s) (mode : env.config.writeMode = .channel)
    (kind : env.config.outboundKind ≠ .conflated) (avoid : ∀ f, budgetFlaw f → ¬ A f) (wf : s.Wf)
    (eff : Effect env A s t) : Exact env t := by
  have booked := fun opened => h.booked (effect_opened eff opened) opened avoid kind (.effect wf eff)
  exact {
    fits := fun p held => (held.effect wf eff).elim (h.fits p) Made.fits
    queue := effect_sendQueue mode eff h.queue
    bytes := fun opened => (booked opened).1
    bound := fun opened => (booked opened).2 }

end Exact

/-- In every run in CHANNEL mode in which no suspended sender is cancelled, no `select` is aborted after
it has sent, and the write loop ends only with the connection, the budget is exact. -/
theorem channel_account {env : Env} {s : Conn} (mode : env.config.writeMode = .channel)
    (kind : env.config.outboundKind ≠ .conflated)
    (run : Runs.Reach (step env) (Avoids budgetFlaw env) init s) (opened : s.closed = false) :
    s.Accounted env := by
  have held : Exact env s := invariant_of_effects run .init
    fun A s t avoid wf held eff => held.effect mode kind avoid wf eff
  have bytes := held.bytes opened
  simp only [charged, pathBytes, held.queue, totalBytes_nil] at bytes
  refine ⟨by omega, fun p flushing => ?_, fun i p pc mem => ?_, held.bound opened⟩
  · have size : totalBytes s.writeLoop.packets = p.payload.size := by rw [flushing]; rfl
    rw [packetBytes]
    omega
  · have lt : i < s.next := (Wf.reach run).lt_next (by simp [pc])
    have size : totalBytes (s.calls i).offered = p.payload.size := by
      simp only [Call.offered, pc] at mem ⊢
      split at mem
      · cases mem
      · rw [if_neg ‹_›]
        rfl
    have part : totalBytes (s.calls i).offered ≤ s.offeredBytes :=
      le_tally (fun c : Call => totalBytes c.offered) lt
    rw [packetBytes]
    omega

/-- One packet is being written, one is buffered, and a request is suspended on the full channel. -/
theorem channel_account_select : ∃ s,
    Runs.Reach (step (.tight .channel)) (Avoids budgetFlaw (.tight .channel)) init s ∧
      s.closed = false ∧ s.offeredBytes = 1 ∧ s.Accounted (.tight .channel) := by
  have run : ((Runs.exec (step (.tight .channel)) init
      [.loopRun, .sendOne, .sendOne, .requestOne]).map fun s => (s.closed, s.offeredBytes)) =
      some (false, 1) := by decide
  obtain ⟨s, exec, values⟩ := Option.map_eq_some_iff.mp run
  simp only [Prod.mk.injEq] at values
  have reach : Runs.Reach (step (.tight .channel)) (Avoids budgetFlaw (.tight .channel)) init s :=
    Runs.reach_of_exec exec
      (.of_forall (by simp [Avoids, Flaw.Occurs, Event.sendOne, Event.requestOne]))
  exact ⟨s, reach, values.1, values.2, channel_account rfl (by decide) reach values.1⟩

/-- A sender suspended in the full channel is cancelled: its byte stays charged. -/
theorem channel_account_leaks : ∃ s, Runs.Reach (step (.tight .channel)) Runs.always init s ∧
    s.closed = false ∧ s.queuedBytes ≠
      totalBytes s.outbound.buffer + totalBytes s.writeLoop.packets + s.offeredBytes := by
  have run : ((Runs.exec (step (.tight .channel)) init
      [.loopRun, .sendOne, .sendOne, .sendOne, .cancel 2, .dispatch 2]).map fun s =>
        (s.closed, s.queuedBytes, totalBytes s.outbound.buffer, totalBytes s.writeLoop.packets,
          s.offeredBytes)) = some (false, 3, 1, 1, 0) := by decide
  obtain ⟨s, exec, values⟩ := Option.map_eq_some_iff.mp run
  simp only [Prod.mk.injEq] at values
  obtain ⟨opened, queued, buffer, loop, offered⟩ := values
  refine ⟨s, Runs.reach_always_of_exec exec, opened, ?_⟩
  rw [queued, buffer, loop, offered]
  decide

end Conn

end MsgTrans
