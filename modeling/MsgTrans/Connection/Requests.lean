import Mathlib.Data.List.Perm.Subperm
import MsgTrans.Connection.Packets
import MsgTrans.Connection.Progress
import MsgTrans.Connection.Registry

/-!
# A request is sent at most once

The outbound path of a connection, from its queue or channel buffer to the packets that have been
encoded, holds at most one packet of each request. The packet is the one that the request was made
with: it carries the request's id and biz type, and its payload is the request's, prepared.
-/

namespace MsgTrans

/-- The packet is the request `id`. -/
def Packet.asks (id : UInt32) (p : Packet) : Bool :=
  p.type = .request && p.messageId = id

/-- The places of a request before its packet is put on the outbound path, channel waits apart. -/
@[simp] def Pc.preparing : Pc → Bool
  | .slotLoop | .slotWait | .roomLoop _ | .roomWait _ => true
  | _ => false

/-- The places of a request that has no packet yet. -/
@[simp] def Pc.slot : Pc → Bool
  | .slotLoop | .slotWait => true
  | _ => false

namespace Call

/-- The request has not put its packet on the outbound path. -/
def Unput (c : Call) : Prop :=
  c.kind = .request ∧ (c.pc.preparing ∨ (∃ p, c.pc = .channelSelect p) ∧ c.wake = .parked)

/-- `p` is the packet of the request `c`. -/
structure Carries (env : Env) (c : Call) (p : Packet) : Prop where
  type : p.type = .request
  id : p.messageId = c.req.id
  nonzero : c.req.id ≠ 0
  bizType : p.bizType = c.bizType
  payload : Conn.prepareOutboundPayload env c.payload p.compression = .ok p.payload

/-- The packet in the frame of the call is its own. -/
structure Sourced (env : Env) (c : Call) : Prop where
  prepared : c.kind = .request → c.pc.slot →
    Conn.prepareOutboundPayload env c.payload c.compression = .ok c.encoded
  request : c.kind = .request → ∀ p, c.pc.packet = some p → c.Carries env p
  other : c.kind ≠ .request → ∀ p, c.pc.packet = some p → p.type ≠ .request

/-- The call goes on with its own arguments and packet. -/
structure Kept (c c' : Call) : Prop where
  kind : c'.kind = c.kind
  payload : c'.payload = c.payload
  bizType : c'.bizType = c.bizType
  compression : c'.compression = c.compression
  encoded : c'.encoded = c.encoded
  id : c'.req.id = c.req.id
  packet : ∀ p, c'.pc.packet = some p → c.pc.packet = some p
  slot : c'.pc.slot → c.pc.slot
  unput : c'.Unput → c.Unput

/-- How an effect moves a call, as far as its packet is concerned. -/
inductive Goes (env : Env) (s : Conn) (c c' : Call) : Prop where
  | keeps : Kept c c' → Goes env s c c'
  | registers {p} :
    c.pc = .slotLoop → c'.pc = .roomLoop p → c'.kind = c.kind → c'.payload = c.payload →
    c'.bizType = c.bizType → c'.req.id = c.req.id →
    Conn.outboundPacket env .request c.req.id c.bizType c.encoded c.compression = .ok p →
    Goes env s c c'
  | starts :
    c'.kind = .request → c'.pc = .slotLoop → c'.req.id = s.requestId + 1 →
    s.requestId ≠ UInt32.ofNat (2 ^ 32 - 1) →
    Conn.prepareOutboundPayload env c'.payload c'.compression = .ok c'.encoded → Goes env s c c'
  | sends {p} : c'.kind ≠ .request → c'.pc = .roomLoop p → p.type ≠ .request → Goes env s c c'
  | launches {pc} : c'.pc = pc → pc.packet = none → c'.kind ≠ .request ∨ (∃ o, pc = .ended o) →
    Goes env s c c'

namespace Kept

variable {c c' c'' : Call}

/-- A call that has not moved. -/
lemma refl (c : Call) : Kept c c :=
  ⟨rfl, rfl, rfl, rfl, rfl, rfl, fun _ h => h, fun h => h, fun h => h⟩

/-- A call that goes on twice goes on. -/
lemma trans (h : Kept c c') (h' : Kept c' c'') : Kept c c'' where
  kind := h'.kind.trans h.kind
  payload := h'.payload.trans h.payload
  bizType := h'.bizType.trans h.bizType
  compression := h'.compression.trans h.compression
  encoded := h'.encoded.trans h.encoded
  id := h'.id.trans h.id
  packet p held := h.packet p (h'.packet p held)
  slot := h.slot ∘ h'.slot
  unput := h.unput ∘ h'.unput

/-- A wake-up leaves the call its packet. -/
lemma frame (h : Call.Frame c c') : Kept c c' where
  kind := h.kind
  payload := h.payload
  bizType := h.bizType
  compression := h.compression
  encoded := h.encoded
  id := h.id
  packet p held := h.pc ▸ held
  slot held := h.pc ▸ held
  unput := by
    rintro ⟨request, place⟩
    rw [h.pc] at place
    exact ⟨h.kind.symm.trans request, place.imp_right (And.imp_right h.parked)⟩

/-- The call goes to a place at which it has no packet. -/
lemma leave {pc : Pc} {wake : Wake} {seq : Nat} {req : Pending} (id : req.id = c.req.id)
    (packet : pc.packet = none) (preparing : pc.preparing = false) :
    Kept c { c with pc, wake, seq, req } where
  kind := rfl
  payload := rfl
  bizType := rfl
  compression := rfl
  encoded := rfl
  id := id
  packet p held := absurd (packet.symm.trans held) (by simp)
  slot held := by cases pc <;> simp_all
  unput := by
    rintro ⟨_, out | ⟨⟨p, out⟩, _⟩⟩
    · exact absurd (preparing.symm.trans out) (by simp)
    · rw [show pc = .channelSelect p from out] at packet
      cases packet

/-- A coroutine that goes on keeps its packet. -/
lemma localStep {A : Trigger} {s : Conn} {i : Nat} (h : LocalStep A s i c c') : Kept c c' := by
  have packet := fun p => Conn.Holds.packet_localStep (p := p) h
  cases h <;> constructor <;> first
    | rfl
    | exact packet
    | simp_all [Unput]

end Kept

/-- A call whose packet is queued is preparing no more. -/
lemma afterPut_preparing (c : Call) : c.afterPut.preparing = false := by
  unfold Call.afterPut
  split <;> rfl

end Call

namespace Conn

variable {env : Env} {A : Trigger} {s t u : Conn} {i j : Nat} {c : Call}

/-- Every call goes on with its own packet. -/
def Keeps (s t : Conn) : Prop := ∀ j, Call.Kept (s.calls j) (t.calls j)

namespace Keeps

/-- Wake-ups leave every call its packet. -/
lemma frame (h : Frame s t) : Keeps s t := fun j => .frame (h.calls j)

/-- Calls that go on twice go on. -/
lemma trans (h : Keeps s t) (h' : Keeps t u) : Keeps s u := fun j => (h j).trans (h' j)

/-- One call goes on. -/
lemma update (calls : t.calls = Function.update s.calls i c) (kept : Call.Kept (s.calls i) c) :
    Keeps s t := by
  intro j
  rw [calls]
  by_cases eq : j = i
  · subst eq
    rwa [Function.update_self]
  · rw [Function.update_of_ne eq]
    exact .refl _

/-- A call that leaves the outbound path has no packet any more. -/
lemma setPc {pc : Pc} (packet : pc.packet = none) (preparing : pc.preparing = false) :
    Keeps s (s.setPc i pc) :=
  update rfl (.leave rfl packet preparing)

/-- The end of a call concerns no other's packet. -/
lemma finish (o : Outcome) : Keeps s (s.finish i o) := by
  have disposed : Keeps s (s.dispose i o) := update rfl (.leave rfl rfl rfl)
  unfold Conn.finish
  split
  case isTrue =>
    dsimp only
    split
    case isTrue =>
      exact disposed.trans (frame ((unregister_frame _ _).trans (wakeOneInFlightWaiter_waking _).toFrame))
    case isFalse => exact disposed
  case isFalse => exact setPc rfl rfl

/-- A sender that is accepted keeps its packet. -/
lemma acceptSender : Keeps s (s.acceptSender i) := by
  refine update rfl (.frame ?_)
  constructor <;> simp

/-- The write loop concerns no call's packet. -/
lemma loopNext : Keeps s (s.loopNext env) := by
  unfold Conn.loopNext
  split
  case h_1 => exact fun _ => .refl _
  case h_2 rest j q senders _ _ =>
    exact acceptSender (s := { s with outbound := ⟨rest ++ [q], senders⟩ })
  case h_3 j q senders _ _ =>
    exact acceptSender (s := { s with outbound := ⟨_, senders⟩ })
  case h_4 => exact fun _ => .refl _

end Keeps

/-- How every effect moves every call. -/
theorem effect_goes (h : Effect env A s t) (j : Nat) :
    Call.Goes env s (s.calls j) (t.calls j) := by
  have new : ∀ {c : Call} {u : Conn}, u.calls = Function.update s.calls s.next c →
      Call.Goes env s (s.calls s.next) c → Call.Goes env s (s.calls j) (u.calls j) := by
    intro c u calls goes
    rw [calls]
    by_cases eq : j = s.next
    · subst eq
      rwa [Function.update_self]
    · rw [Function.update_of_ne eq]
      exact .keeps (.refl _)
  have rests : Keeps s t → Call.Goes env s (s.calls j) (t.calls j) := fun keeps => .keeps (keeps j)
  cases h with
  | loc h => exact rests (.update rfl (.localStep h))
  | reject pc _ _ => exact new rfl (.launches pc rfl (.inr ⟨_, rfl⟩))
  | startRequest _ _ left request pc _ _ req prepared =>
    exact new rfl (.starts request pc (by rw [req]) left prepared)
  | @startPut c p id kind pc _ _ _ sends _ =>
    refine new rfl (.sends (p := p) ?_ pc ?_)
    · rcases kind with kind | kind <;> simp [kind]
    · unfold Call.Sends at sends
      rcases kind with kind | kind <;> simp only [kind] at sends
      · obtain ⟨_, ok⟩ := sends
        simp [(outboundPacket_ok ok).1.1]
      · obtain ⟨_, _, ok⟩ := sends
        simp [(outboundPacket_ok ok).1.1]
  | slotPark pc _ _ _ =>
    refine rests (.update rfl ⟨rfl, rfl, rfl, rfl, rfl, rfl, by simp, by simp [pc], ?_⟩)
    exact fun unput => ⟨unput.1, .inl (by simp [pc])⟩
  | @register i p pc _ _ _ made =>
    by_cases eq : j = i
    · subst eq
      exact .registers pc (by simp [setPc]) (by simp [setPc]) (by simp [setPc]) (by simp [setPc])
        (by simp [setPc]) made
    · rw [setPc, modCall_calls_of_ne _ _ eq]
      exact .keeps (.refl _)
  | @slotRefused i e pc _ _ _ _ _ =>
    have left : Keeps s ({ s with pending := s.pending.set (s.calls i).req.id i }.setPc i
        (.unwinding (.threw e))) := .setPc rfl rfl
    exact rests (left.trans (.finish _))
  | slotCancelled _ _ => exact rests (.update (slotCancelled_calls _ _ s) (.leave rfl rfl rfl))
  | roomPark pc _ _ _ =>
    refine rests (.update rfl ⟨rfl, rfl, rfl, rfl, rfl, rfl, by simp [pc], by simp, ?_⟩)
    exact fun unput => ⟨unput.1, .inl (by simp [pc])⟩
  | roomCancelled _ _ => exact rests (.update (roomCancelled_calls _ _ s) (.leave rfl rfl rfl))
  | @putQueue i p pc _ _ _ _ _ =>
    exact rests (.update rfl (.leave rfl (Call.afterPut_packet _) (Call.afterPut_preparing _)))
  | putDrain _ _ _ _ _ _ =>
    exact rests (.update rfl (.leave rfl (by split <;> rfl) (by split <;> rfl)))
  | putBuffer _ _ _ _ _ _ _ =>
    exact rests (.update rfl (.leave rfl (Call.afterPut_packet _) (Call.afterPut_preparing _)))
  | putHandoff _ _ _ _ _ _ =>
    exact rests (.update rfl (.leave rfl (Call.afterPut_packet _) (Call.afterPut_preparing _)))
  | sendPark pc _ _ other _ _ =>
    refine rests (.update rfl ⟨rfl, rfl, rfl, rfl, rfl, rfl, by simp [pc], by simp, ?_⟩)
    exact fun unput => absurd unput.1 other
  | selectPark pc _ _ request _ _ _ =>
    refine rests (.update rfl ⟨rfl, rfl, rfl, rfl, rfl, rfl, by simp [pc], by simp, ?_⟩)
    exact fun unput => ⟨unput.1, .inl (by simp [pc])⟩
  | @drainTake i p rest _ _ _ =>
    have woken := releaseOutboundBytes_waking (packetBytes p) { s with sendQueue := rest }
    refine rests (.trans (t := { s with sendQueue := rest }.releaseOutboundBytes (packetBytes p)) ?_ ?_)
    · exact fun j => .frame (woken.calls j)
    · exact .update rfl (.leave rfl rfl rfl)
  | drainEnd _ _ =>
    exact rests (.update rfl (.leave rfl (Call.afterPut_packet _) (Call.afterPut_preparing _)))
  | successorStart _ =>
    exact rests (.update rfl (.leave rfl (by split <;> rfl) (by split <;> rfl)))
  | @handOff i _ _ _ _ =>
    -- the launched successor is a new call
    have launched : Call.Goes env s (s.calls j)
        ((s.addCall { kind := .successor, pc := .launched }).calls j) :=
      new rfl (.launches rfl rfl (.inl (by simp)))
    rw [setPc, modCall_calls]
    split
    case isTrue eq =>
      rw [addCall_calls]
      split
      case isTrue => exact .launches rfl rfl (.inl (by simp))
      case isFalse =>
        subst eq
        exact .keeps (.leave rfl rfl rfl)
    case isFalse => exact launched
  | writerStop _ _ _ _ => exact rests (.update rfl (.leave rfl rfl rfl))
  | selectGate _ _ _ =>
    exact rests (.trans (.frame (abortSelect_waking _ _ s).toFrame) (.setPc rfl rfl))
  | selectCancelled _ _ _ =>
    exact rests (.trans (.frame (abortSelect_waking _ _ s).toFrame) (.setPc rfl rfl))
  | @loopNext p _ =>
    exact rests (.trans (.frame (releaseOutboundBytes_waking _ s).toFrame) .loopNext)
  | loopRun _ _ => exact rests .loopNext
  | cancelSlot pc _ =>
    refine rests (.update (cancelSlot_calls _ s) (.frame ?_))
    constructor <;> simp
  | cancelRoom pc _ =>
    refine rests (.update (cancelRoom_calls _ s) (.frame ?_))
    constructor <;> simp
  | cancelSend pc _ _ =>
    refine rests (.update rfl (.frame ?_))
    constructor <;> simp
  | cancelSelect pc _ =>
    refine rests (.update rfl (.frame ?_))
    constructor <;> simp
  | finish _ _ => exact rests (.finish _)
  | deadline _ _ _ _ _ _ => exact rests (.frame (run_frame _ s))
  | response _ _ _ _ _ _ _ => exact rests (.frame (onResponse_frame _ s))
  | shutdown _ _ => exact rests fun j => .frame (shutdown_calls s j)
  | _ => exact .keeps (.refl _)

/-! ## The path -/

/-- The packets that are on the outbound path, or have left it. -/
def path (s : Conn) : List Packet := s.written ++ (s.outbound.buffer ++ s.sendQueue)

/-- How an effect moves the path: at most one packet joins it, from the call that has it. -/
inductive PathStep (s t : Conn) : Prop where
  | keeps : t.path.Subperm s.path → PathStep s t
  | puts {i p} :
    (s.calls i).pc = .roomLoop p ∨ (s.calls i).SendParked p → ¬ (t.calls i).Unput →
    t.path.Subperm (p :: s.path) → PathStep s t

namespace PathStep

/-- An effect that leaves the path alone. -/
lemma same (written : t.written = s.written) (buffer : t.outbound.buffer = s.outbound.buffer)
    (queue : t.sendQueue = s.sendQueue) : PathStep s t := by
  refine .keeps (List.Perm.subperm ?_)
  rw [path, path, written, buffer, queue]

/-- A still effect leaves the path alone. -/
lemma still (h : Still s t) : PathStep s t := same h.written h.buffer h.sendQueue

/-- Counting each packet decides whether a list is part of another. -/
lemma of_count {l l' : List Packet} (h : ∀ p, l.count p ≤ l'.count p) : l.Subperm l' :=
  List.subperm_ext_iff.mpr fun p _ => h p

/-- The call at `roomLoop` puts its packet and goes on. -/
lemma put {p : Packet} (place : (s.calls i).pc = .roomLoop p)
    (calls : t.calls = Function.update s.calls i c) (packet : c.pc.packet = none)
    (preparing : c.pc.preparing = false)
    (path : ∀ q, t.path.count q ≤ (p :: s.path).count q) : PathStep s t := by
  refine .puts (.inl place) ?_ (of_count path)
  rw [calls, Function.update_self]
  rintro ⟨_, out | ⟨⟨q, out⟩, _⟩⟩
  · exact absurd (preparing.symm.trans out) (by simp)
  · simp [out] at packet

/-- The write loop takes the next packet and lets a sender in. -/
lemma loopNext (wf : u.Wf) (calls : ∀ j, Call.Frame (s.calls j) (u.calls j))
    (same : u.path = s.path) : PathStep s (u.loopNext env) := by
  have accepted : ∀ (outbound : Channel) {j : Nat} {q : Packet} {l : List (Nat × Packet)},
      u.outbound.senders = (j, q) :: l → (s.calls j).SendParked q ∧
        ¬ (({ u with outbound }.acceptSender j).calls j).Unput := by
    intro outbound j q l queue
    obtain ⟨place, parked⟩ := (wf.send.mem (j, q)).mp (by simp [queue])
    rw [(calls j).pc] at place
    refine ⟨⟨place, (calls j).parked parked⟩, ?_⟩
    rintro ⟨_, out | ⟨_, out⟩⟩
    · rcases place with pc | pc <;> simp [acceptSender, (calls j).pc, pc] at out
    · simp [acceptSender] at out
  unfold Conn.loopNext
  split
  case h_1 packet rest buffer _ =>
    refine .keeps (of_count fun p => ?_)
    rw [← same]
    simp only [path, loopSend, encode, buffer, List.count_append, List.count_cons, List.count_nil]
    omega
  case h_2 packet rest j q senders buffer queue =>
    obtain ⟨parked, out⟩ := accepted ⟨rest ++ [q], senders⟩ queue
    refine .puts (.inr parked) out (of_count fun p => ?_)
    rw [← same]
    simp only [path, loopSend, encode, acceptSender, modCall, buffer, List.count_append,
      List.count_cons, List.count_nil]
    omega
  case h_3 j q senders buffer queue =>
    obtain ⟨parked, out⟩ := accepted ⟨u.outbound.buffer, senders⟩ queue
    refine .puts (.inr parked) out (of_count fun p => ?_)
    rw [← same]
    simp only [path, loopSend, encode, acceptSender, modCall, buffer, List.count_append,
      List.count_cons, List.count_nil]
    omega
  case h_4 => exact .keeps (same ▸ List.Subperm.refl u.path)

/-- How every effect moves the path. -/
theorem effect (wf : s.Wf) (h : Effect env A s t) : PathStep s t := by
  have joins : ∀ {l l' l'' : List Packet} {p : Packet} (q : Packet),
      (l ++ (l' ++ (l'' ++ [p]))).count q ≤ (p :: (l ++ (l' ++ l''))).count q := by
    intro l l' l'' p q
    simp only [List.count_append, List.count_cons, List.count_nil]
    omega
  cases h with
  | slotRefused _ _ _ _ _ _ =>
    refine still (Still.trans ?_ (finish_still _ _ _))
    exact { Still.refl s with }
  | putQueue pc _ _ _ _ _ =>
    exact put pc rfl (Call.afterPut_packet _) (Call.afterPut_preparing _) joins
  | putDrain pc _ _ _ _ _ =>
    refine put pc rfl ?_ ?_ joins
    · dsimp only
      split <;> rfl
    · dsimp only
      split <;> rfl
  | putBuffer pc _ _ _ _ _ buffer =>
    refine put pc rfl (Call.afterPut_packet _) (Call.afterPut_preparing _) fun q => ?_
    rcases buffer with rfl | ⟨_, rfl⟩ <;>
      (simp only [path, setPc, modCall, List.count_append, List.count_cons, List.count_nil]; omega)
  | putHandoff pc _ _ _ _ _ =>
    refine put pc rfl (Call.afterPut_packet _) (Call.afterPut_preparing _) fun q => ?_
    simp only [path, setPc, modCall, loopSend, encode, List.count_append, List.count_cons,
      List.count_nil]
    omega
  | @drainTake i p rest _ _ queue =>
    have woken := releaseOutboundBytes_waking (packetBytes p) { s with sendQueue := rest }
    refine .keeps (of_count fun q => ?_)
    simp only [path, setPc, modCall, encode, woken.written, woken.buffer, woken.sendQueue, queue,
      List.count_append, List.count_cons, List.count_nil]
    omega
  | @selectGate i p _ _ _ _ => exact still { (abortSelect_waking i p s).toStill with }
  | @selectCancelled i p _ _ _ => exact still { (abortSelect_waking i p s).toStill with }
  | @loopNext p _ =>
    have woken := releaseOutboundBytes_waking (packetBytes p) s
    refine loopNext wf.releaseOutboundBytes woken.calls ?_
    rw [path, woken.written, woken.buffer, woken.sendQueue, path]
  | loopRun _ _ => exact loopNext wf (fun _ => .refl _) rfl
  | finish _ _ => exact still (finish_still _ _ s)
  | deadline _ _ _ _ _ _ => exact still (run_frame _ s).toStill
  | response _ _ _ _ _ _ _ => exact still (onResponse_frame _ s).toStill
  | shutdown opened _ =>
    have frame := shutdown_frame opened
    refine .keeps (of_count fun q => ?_)
    simp [path, frame.written, frame.buffer, frame.sendQueue]
  | _ => exact same rfl rfl rfl

end PathStep

/-! ## At most one packet for each request -/

/-- Each request has at most one packet on the path, and none before it has put it there; the packets
of requests are those of the calls that made them. -/
structure Requests (env : Env) (s : Conn) : Prop where
  sourced : ∀ i, (s.calls i).Sourced env
  owner : ∀ p ∈ s.path, p.type = .request → ∃ i, (s.calls i).kind = .request ∧ (s.calls i).Carries env p
  once : ∀ id, s.path.countP (Packet.asks id) ≤ 1
  unput : ∀ i, (s.calls i).Unput → s.path.countP (Packet.asks (s.calls i).req.id) = 0

namespace Requests

/-- A new connection has no packets on its path. -/
lemma init : Requests env Conn.init where
  sourced i := ⟨by simp [Conn.init], by simp [Conn.init], by simp [Conn.init]⟩
  owner p mem := by cases mem
  once id := Nat.zero_le 1
  unput i _ := rfl

/-- The id of a new request is on no packet. -/
lemma fresh (req : Requests env s) (reg : s.Reg) (left : s.requestId ≠ UInt32.ofNat (2 ^ 32 - 1)) :
    s.path.countP (Packet.asks (s.requestId + 1)) = 0 := by
  rw [List.countP_eq_zero]
  intro p mem asks
  simp only [Packet.asks, Bool.and_eq_true, decide_eq_true_eq] at asks
  obtain ⟨i, request, carries⟩ := req.owner p mem asks.1
  have bound := reg.bound i request
  rw [← carries.id, asks.2, Reg.toNat_next left] at bound
  omega

/-- The packet of a call that goes on is its own. -/
lemma sources (req : Requests env s) (wf : s.Wf) (reg : s.Reg)
    (h : Call.Goes env s (s.calls i) c) : c.Sourced env := by
  have before := req.sourced i
  cases h with
  | keeps kept =>
    refine ⟨fun request slot => ?_, fun request p held => ?_, fun other p held => ?_⟩
    · rw [kept.payload, kept.compression, kept.encoded]
      exact before.prepared (kept.kind ▸ request) (kept.slot slot)
    · have carries := before.request (kept.kind ▸ request) p (kept.packet p held)
      exact { carries with
        id := carries.id.trans kept.id.symm
        nonzero := kept.id ▸ carries.nonzero
        bizType := carries.bizType.trans kept.bizType.symm
        payload := kept.payload ▸ carries.payload }
    · exact before.other (kept.kind ▸ other) p (kept.packet p held)
  | @registers p slot place kind payload bizType id made =>
    have request := (wf.call i).kind
    simp only [slot, Pc.Allows] at request
    obtain ⟨⟨type, named, biz, body, marker, _⟩, _⟩ := outboundPacket_ok made
    have prepared := before.prepared request (by simp [slot])
    refine ⟨by simp [place], fun _ q held => ?_, fun other => absurd (kind.trans request) other⟩
    simp only [place, Pc.packet, Option.some.injEq] at held
    subst held
    refine ⟨type, named.trans id.symm, ?_, biz.trans bizType.symm, ?_⟩
    · rw [id]
      exact reg.nonzero request (by simp [slot])
    · rw [payload, marker, body, prepared]
  | starts request place _ _ prepared =>
    exact ⟨fun _ _ => prepared, by simp [place], by simp [place]⟩
  | sends other place type =>
    refine ⟨fun request => absurd request other, fun request => absurd request other, ?_⟩
    rintro _ p held
    simp only [place, Pc.packet, Option.some.injEq] at held
    exact held ▸ type
  | @launches pc place none out =>
    rw [← place] at none out
    refine ⟨fun request slot => ?_, fun _ p held => ?_, fun _ p held => ?_⟩
    · rcases out with other | ⟨o, ended⟩
      · exact absurd request other
      · simp [ended] at slot
    · exact absurd (none.symm.trans held) (by simp)
    · exact absurd (none.symm.trans held) (by simp)

/-- A call that has not put its packet had not put it before, or is new. -/
lemma unput_before (wf : s.Wf) (h : Call.Goes env s (s.calls i) c) (unput : c.Unput) :
    (s.calls i).Unput ∧ c.req.id = (s.calls i).req.id ∨
      c.req.id = s.requestId + 1 ∧ s.requestId ≠ UInt32.ofNat (2 ^ 32 - 1) := by
  cases h with
  | keeps kept => exact .inl ⟨kept.unput unput, kept.id⟩
  | registers slot _ _ _ _ id _ =>
    have request := (wf.call i).kind
    simp only [slot, Pc.Allows] at request
    exact .inl ⟨⟨request, .inl (by simp [slot])⟩, id⟩
  | starts _ _ id left _ => exact .inr ⟨id, left⟩
  | sends other _ _ => exact absurd unput.1 other
  | launches place none out =>
    rw [← place] at out
    rcases out with other | ⟨o, ended⟩
    · exact absurd unput.1 other
    · obtain ⟨_, out | ⟨⟨p, out⟩, _⟩⟩ := unput <;> simp [ended] at out

/-- A call keeps the packet it has carried. -/
lemma carried {p : Packet} (wf : s.Wf) (h : Effect env A s t) (request : (s.calls i).kind = .request)
    (carries : (s.calls i).Carries env p) :
    (t.calls i).kind = .request ∧ (t.calls i).Carries env p := by
  have later := (Later.effect wf h).call (wf.lt_of_request request)
  refine ⟨later.kind.trans request, carries.type, carries.id.trans later.id.symm, ?_,
    carries.bizType.trans later.bizType.symm, ?_⟩
  · rw [later.id]
    exact carries.nonzero
  · rw [later.payload]
    exact carries.payload

/-- The packet that a request is about to put is its own. -/
lemma own {p : Packet} (req : Requests env s) (wf : s.Wf)
    (place : (s.calls i).pc = .roomLoop p ∨ (s.calls i).SendParked p)
    (held : (s.calls i).pc.packet = some p) (type : p.type = .request) :
    (s.calls i).Unput ∧ (s.calls i).Carries env p := by
  have request : (s.calls i).kind = .request := by
    by_contra other
    exact (req.sourced i).other other p held type
  refine ⟨⟨request, ?_⟩, (req.sourced i).request request p held⟩
  rcases place with pc | ⟨pc | pc, parked⟩
  · exact .inl (by simp [pc])
  · have other := (wf.call i).kind
    simp only [pc, Pc.Allows] at other
    exact absurd request other
  · exact .inr ⟨⟨p, pc⟩, parked⟩

/-- Every effect keeps the packets of the requests apart. -/
theorem effect (req : Requests env s) (wf : s.Wf) (reg : s.Reg) (h : Effect env A s t) :
    Requests env t := by
  have goes := effect_goes h
  have sourced : ∀ i, (t.calls i).Sourced env := fun i => req.sources wf reg (goes i)
  -- before the effect nothing on the path belongs to a call that has not put its packet after it
  have absent : ∀ i, (t.calls i).Unput → s.path.countP (Packet.asks (t.calls i).req.id) = 0 := by
    intro i unput
    rcases unput_before wf (goes i) unput with ⟨before, id⟩ | ⟨id, left⟩
    · rw [id]
      exact req.unput i before
    · rw [id]
      exact req.fresh reg left
  have owned : ∀ p ∈ s.path, p.type = .request →
      ∃ i, (t.calls i).kind = .request ∧ (t.calls i).Carries env p := by
    intro p mem type
    obtain ⟨i, request, carries⟩ := req.owner p mem type
    exact ⟨i, carried wf h request carries⟩
  cases PathStep.effect wf h with
  | keeps sub =>
    refine ⟨sourced, fun p mem => owned p (sub.subset mem), fun id => ?_, fun i unput => ?_⟩
    · exact Nat.le_trans (sub.countP_le _) (req.once id)
    · exact Nat.eq_zero_of_le_zero (Nat.le_trans (sub.countP_le _) (Nat.le_of_eq (absent i unput)))
  | @puts i p place out sub =>
    have held : (s.calls i).pc.packet = some p := by
      rcases place with pc | ⟨pc | pc, _⟩ <;> simp [pc]
    have own : p.type = .request → (s.calls i).Unput ∧ (s.calls i).Carries env p :=
      fun type => req.own wf place held type
    have joins : ∀ id, t.path.countP (Packet.asks id) ≤
        s.path.countP (Packet.asks id) + if p.asks id then 1 else 0 := by
      intro id
      have le := sub.countP_le (Packet.asks id)
      rwa [List.countP_cons] at le
    refine ⟨sourced, fun q mem type => ?_, fun id => ?_, fun j unput => ?_⟩
    · rcases List.mem_cons.mp (sub.subset mem) with rfl | mem
      · obtain ⟨before, carries⟩ := own type
        exact ⟨i, carried wf h before.1 carries⟩
      · exact owned q mem type
    · have le := joins id
      split at le
      case isTrue asks =>
        -- the request had no packet on the path yet
        obtain ⟨type, rfl⟩ : p.type = .request ∧ p.messageId = id := by simpa [Packet.asks] using asks
        obtain ⟨before, carries⟩ := own type
        have none := req.unput i before
        rw [← carries.id] at none
        omega
      case isFalse => exact Nat.le_trans le (req.once id)
    · have le := joins (t.calls j).req.id
      have none := absent j unput
      split at le
      case isTrue asks =>
        obtain ⟨type, named⟩ : p.type = .request ∧ p.messageId = (t.calls j).req.id := by
          simpa [Packet.asks] using asks
        obtain ⟨before, carries⟩ := own type
        rw [carries.id] at named
        rcases unput_before wf (goes j) unput with ⟨before', id⟩ | ⟨id, left⟩
        · -- an id names one request
          have eq := reg.unique before.1 before'.1 (named.trans id) carries.nonzero
          exact absurd (eq ▸ unput) out
        · have bound := reg.bound i before.1
          rw [named, id, Reg.toNat_next left] at bound
          omega
      case isFalse => omega

/-- The packets of the requests are apart along every run. -/
theorem reach (run : Runs.Reach (step env) Runs.always Conn.init s) : Requests env s := by
  have reach := reach_unguarded run
  exact (invariant_of_registry reach .init fun _ _ _ _ wf reg req eff => req.effect wf reg eff).2

end Requests

/-! ## Answers -/

/-- A response is made by the handler loop's answer only, from the payload it answers with. -/
lemma Made.answer {p : Packet} (made : Made env A s p) (type : p.type = .response) :
    ∃ bizType r, A.event = .respond p.messageId bizType r ∧
      prepareOutboundPayload env r p.compression = .ok p.payload := by
  cases made with
  | request _ ok => simp [(outboundPacket_ok ok).1.1] at type
  | @other c kind sends prepared =>
    unfold Call.Sends at sends
    rcases kind with kind | kind <;> simp only [kind] at sends
    · obtain ⟨id, ok⟩ := sends
      simp [(outboundPacket_ok ok).1.1] at type
    · obtain ⟨id, event, ok⟩ := sends
      obtain ⟨⟨_, rfl, _, body, marker, _⟩, _⟩ := outboundPacket_ok ok
      exact ⟨_, _, event, by rw [marker, body, prepared]⟩

/-- A response on the path after a step was there before, or the step has made it. -/
lemma step_answers {e : Event} {p : Packet} (wf : s.Wf) (st : s.step env e = some t)
    (type : p.type = .response) (held : t.Holds p) :
    s.Holds p ∨ ∃ bizType r, e = .respond p.messageId bizType r ∧
      prepareOutboundPayload env r p.compression = .ok p.payload := by
  refine (Runs.star_preserves (P := fun u => u.Wf ∧ (u.Holds p → s.Holds p ∨ ∃ bizType r,
    e = .respond p.messageId bizType r ∧ prepareOutboundPayload env r p.compression = .ok p.payload))
    (fun u v eff before => ?_) (step_effects st) ⟨wf, .inl⟩).2 held
  refine ⟨before.1.effect eff, fun held => ?_⟩
  rcases Holds.effect before.1 eff held with held | made
  · exact before.2 held
  · exact .inr (made.answer type)

end Conn

end MsgTrans
