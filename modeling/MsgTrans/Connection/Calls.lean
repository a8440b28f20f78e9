import MsgTrans.Connection.Simulation
import MsgTrans.Lib.Listing

/-!
# Well-formed calls and queues

A well-formed call stores the continuations of the suspension it is at, and no others. The queues of
room waiters and of channel senders list exactly the calls parked at those waits; the queue of slot
waiters may also hold requests that have been settled and have not run yet.
-/

namespace MsgTrans

/-! ## Calls -/

/-- The kinds of call that can be at a place. -/
@[simp] def Pc.Allows : Pc → CallKind → Prop
  | .slotLoop, kind | .slotWait, kind | .channelSelect _, kind | .awaiting, kind | .await, kind =>
    kind = .request
  | .launched, kind | .channelSend _, kind => kind ≠ .request
  | _, _ => True

/-- What the suspension at a place can be resumed with. -/
@[simp] def Pc.Wakes : Pc → Resumption → Prop
  | .slotWait, r | .channelSend _, r => r = .unit
  | .roomWait _, r => r = .unit ∨ ∃ e, r = .throw e
  | .channelSelect _, r => r = .unit ∨ r = .gate
  | .await, r => (∃ p, r = .packet p) ∨ ∃ e, r = .throw e
  | _, _ => True

/-- The place is a wait of the connection. -/
@[simp] def Pc.waits : Pc → Bool
  | .slotWait | .roomWait _ | .channelSend _ | .channelSelect _ | .await => true
  | _ => false

/-- The place is one at which a `Pending` may hold a room continuation or a waiter. -/
@[simp] def Pc.holds : Pc → Bool
  | .roomWait _ | .await | .unwinding _ | .ended _ => true
  | _ => false

namespace Call

/-- A call whose packet is on the outbound path does not wait for it. -/
lemma afterPut_waits (c : Call) : c.afterPut.waits = false := by
  unfold Call.afterPut
  split <;> rfl

/-- Suspended in the in-flight-slot wait, neither resumed nor cancelled. -/
def SlotParked (c : Call) : Prop :=
  c.pc = .slotWait ∧ c.wake = .parked

/-- Suspended in the outbound-room wait, neither resumed nor cancelled. -/
def RoomParked (c : Call) : Prop :=
  (∃ p, c.pc = .roomWait p) ∧ c.wake = .parked

/-- Suspended on the outbound channel with `p`, neither resumed nor cancelled. -/
def SendParked (c : Call) (p : Packet) : Prop :=
  (c.pc = .channelSend p ∨ c.pc = .channelSelect p) ∧ c.wake = .parked

/-- The call can run: it is on its way through its code, or its suspension has been resumed or
cancelled. A socket operation goes on until the socket ends it. -/
def runnable (c : Call) : Bool :=
  match c.pc with
  | .ended _ | .socketWrite | .socketFlush => false
  | .slotWait | .roomWait _ | .channelSend _ | .channelSelect _ | .await => c.wake != .parked
  | _ => true

/-- No continuation of the call is stored. -/
def Clear (c : Call) : Prop :=
  c.req.slotCont = none ∧ c.req.roomCont = none ∧ c.req.waiter = none

/-- The record of call `i` is well formed. -/
structure Wf (i : Nat) (c : Call) : Prop where
  slotCont : ∀ k, c.req.slotCont = some k → k = ⟨i, c.seq⟩ ∧ c.SlotParked
  slotParked : c.SlotParked → c.req.slotCont = some ⟨i, c.seq⟩
  roomCont : ∀ k, c.req.roomCont = some k → k = ⟨i, c.seq⟩ ∧ ((∃ p, c.pc = .roomWait p) ∨
    (∃ o, c.pc = .unwinding o ∨ c.pc = .ended o) ∧ c.wake ≠ .parked)
  roomParked : c.kind = .request → c.RoomParked → c.req.roomCont = some ⟨i, c.seq⟩
  waiter : ∀ k, c.req.waiter = some k → k = ⟨i, c.seq⟩ ∧
    (c.pc = .await ∧ (c.wake = .parked ∨ c.wake = .cancelled) ∨
      (∃ o, c.pc = .unwinding o) ∧ c.wake = .cancelled)
  awaitParked : c.pc = .await → c.wake = .parked →
    c.req.waiter = some ⟨i, c.seq⟩ ∧ c.req.isCompleted = false
  selectParked : ∀ p, c.pc = .channelSelect p → c.wake = .parked →
    c.req.gate = true ∧ c.req.isCompleted = false
  kind : c.pc.Allows c.kind
  woken : ∀ r, c.wake = .resumed r ∨ c.wake = .resumedCancelled r → c.pc.Wakes r
  fresh : c.kind ≠ .request → c.req = {}

namespace Wf

variable {i : Nat} {c : Call}

/-- Away from the waits, a call without stored continuations is well formed. -/
lemma running (clear : c.Clear) (pc : c.pc.waits = false) (kind : c.pc.Allows c.kind)
    (fresh : c.kind ≠ .request → c.req = {}) : c.Wf i where
  slotCont k stored := by simp [clear.1] at stored
  slotParked parked := by simp [parked.1] at pc
  roomCont k stored := by simp [clear.2.1] at stored
  roomParked _ parked := by
    obtain ⟨⟨p, eq⟩, _⟩ := parked
    simp [eq] at pc
  waiter k stored := by simp [clear.2.2] at stored
  awaitParked eq := by simp [eq] at pc
  selectParked p eq := by simp [eq] at pc
  kind := kind
  woken r _ := by
    revert pc
    cases c.pc <;> simp
  fresh := fresh

/-- A call that is at no place which stores continuations, and not parked for a slot. -/
lemma clear (wf : c.Wf i) (pc : c.pc.holds = false) (slot : ¬ c.SlotParked) : c.Clear := by
  refine ⟨?_, ?_, ?_⟩
  · rw [Option.eq_none_iff_forall_ne_some]
    intro k stored
    exact slot (wf.slotCont k stored).2
  · rw [Option.eq_none_iff_forall_ne_some]
    intro k stored
    obtain ⟨_, ⟨p, eq⟩ | ⟨⟨o, eq | eq⟩, _⟩⟩ := wf.roomCont k stored <;> simp [eq] at pc
  · rw [Option.eq_none_iff_forall_ne_some]
    intro k stored
    obtain ⟨_, ⟨eq, _⟩ | ⟨⟨o, eq⟩, _⟩⟩ := wf.waiter k stored <;> simp [eq] at pc

/-- A call that moves on without touching what its `Pending` stores. -/
lemma move {pc : Pc} (wf : c.Wf i) (before : c.pc.holds = false) (slot : ¬ c.SlotParked)
    (after : pc.waits = false) (kind : pc.Allows c.kind) : Wf i { c with pc } :=
  running (wf.clear before slot) after kind wf.fresh

/-- A call that leaves a wait it is no longer parked at. -/
lemma leave {o : Outcome} (wf : c.Wf i) (woken : c.wake ≠ .parked) :
    Wf i { c with pc := .unwinding o } where
  slotCont k stored := absurd (wf.slotCont k stored).2.2 woken
  slotParked parked := absurd parked.2 woken
  roomCont k stored := ⟨(wf.roomCont k stored).1, .inr ⟨⟨o, .inl rfl⟩, woken⟩⟩
  roomParked _ parked := absurd parked.2 woken
  waiter k stored := by
    obtain ⟨eq, ⟨_, parked | cancelled⟩ | ⟨_, cancelled⟩⟩ := wf.waiter k stored
    · exact absurd parked woken
    · exact ⟨eq, .inr ⟨⟨o, rfl⟩, cancelled⟩⟩
    · exact ⟨eq, .inr ⟨⟨o, rfl⟩, cancelled⟩⟩
  awaitParked _ parked := absurd parked woken
  selectParked p eq := by cases eq
  kind := trivial
  woken r _ := trivial
  fresh := wf.fresh

/-- A call that is cancelled after it was resumed. -/
lemma recancel {r : Resumption} (wf : c.Wf i) (wake : c.wake = .resumed r) :
    Wf i { c with wake := .resumedCancelled r } where
  slotCont k stored := by
    have parked := (wf.slotCont k stored).2.2
    simp [wake] at parked
  slotParked parked := by cases parked.2
  roomCont k stored := by
    obtain ⟨eq, waits | ⟨left, _⟩⟩ := wf.roomCont k stored
    · exact ⟨eq, .inl waits⟩
    · exact ⟨eq, .inr ⟨left, by simp⟩⟩
  roomParked _ parked := by cases parked.2
  waiter k stored := by
    obtain ⟨_, ⟨_, parked | cancelled⟩ | ⟨_, cancelled⟩⟩ := wf.waiter k stored <;> simp_all
  awaitParked _ parked := by cases parked
  selectParked p _ parked := by cases parked
  kind := wf.kind
  woken r' woken := by
    rcases woken with eq | eq <;> cases eq
    exact wf.woken r (.inl wake)
  fresh := wf.fresh

/-- A call that is cancelled while it awaits its response. -/
lemma cancelAwait (wf : c.Wf i) (pc : c.pc = .await) : Wf i { c with wake := .cancelled } where
  slotCont k stored := by
    have eq := (wf.slotCont k stored).2.1
    simp [pc] at eq
  slotParked parked := by cases parked.2
  roomCont k stored := by
    obtain ⟨_, ⟨p, eq⟩ | ⟨⟨o, eq | eq⟩, _⟩⟩ := wf.roomCont k stored <;> simp [pc] at eq
  roomParked _ parked := by cases parked.2
  waiter k stored := ⟨(wf.waiter k stored).1, .inl ⟨pc, .inr rfl⟩⟩
  awaitParked _ parked := by cases parked
  selectParked p _ parked := by cases parked
  kind := wf.kind
  woken r woken := by simp at woken
  fresh := wf.fresh

end Wf

/-- A parked room waiter is resumed. -/
lemma Wf.wakeRoom {i : Nat} {c : Call} {r : Resumption} (wf : c.Wf i) (parked : c.RoomParked)
    (wakes : r = .unit ∨ ∃ e, r = .throw e) : Wf i { c with wake := .resumed r } := by
  obtain ⟨⟨p, pc⟩, wake⟩ := parked
  exact {
    slotCont := fun k stored => by
      have eq := (wf.slotCont k stored).2.1
      simp [pc] at eq
    slotParked := fun parked => by cases parked.2
    roomCont := fun k stored => ⟨(wf.roomCont k stored).1, .inl ⟨p, pc⟩⟩
    roomParked := fun _ parked => by cases parked.2
    waiter := fun k stored => by
      obtain ⟨_, ⟨eq, _⟩ | ⟨⟨o, eq⟩, _⟩⟩ := wf.waiter k stored <;> simp [pc] at eq
    awaitParked := fun _ parked => by cases parked
    selectParked := fun p _ parked => by cases parked
    kind := wf.kind
    woken := fun r' woken => by
      rcases woken with eq | eq <;> cases eq
      simpa [pc] using wakes
    fresh := wf.fresh }

/-- A parked slot waiter is resumed. -/
lemma Wf.wakeSlot {i : Nat} {c : Call} (wf : c.Wf i) (parked : c.SlotParked) :
    Wf i { c with wake := .resumed .unit, req := { c.req with slotCont := none } } := by
  obtain ⟨pc, wake⟩ := parked
  have kind := wf.kind
  rw [pc] at kind
  exact {
    slotCont := fun k stored => by cases stored
    slotParked := fun parked => by cases parked.2
    roomCont := fun k stored => by
      obtain ⟨_, ⟨p, eq⟩ | ⟨⟨o, eq | eq⟩, _⟩⟩ := wf.roomCont k stored <;> simp [pc] at eq
    roomParked := fun _ parked => by cases parked.2
    waiter := fun k stored => by
      obtain ⟨_, ⟨eq, _⟩ | ⟨⟨o, eq⟩, _⟩⟩ := wf.waiter k stored <;> simp [pc] at eq
    awaitParked := fun _ parked => by cases parked
    selectParked := fun p _ parked => by cases parked
    kind := wf.kind
    woken := fun r woken => by
      rcases woken with eq | eq <;> cases eq
      simp [pc]
    fresh := fun other => absurd kind other }

/-- A parked channel sender is let in. -/
lemma Wf.accept {i : Nat} {c : Call} {p : Packet} (wf : c.Wf i) (parked : c.SendParked p) :
    Wf i { c with wake := .resumed .unit } := by
  obtain ⟨pc, wake⟩ := parked
  have clear : c.Clear := by
    apply wf.clear
    · rcases pc with pc | pc <;> simp [pc]
    · rintro ⟨eq, _⟩
      rcases pc with pc | pc <;> simp [pc] at eq
  exact {
    slotCont := fun k stored => by simp [clear.1] at stored
    slotParked := fun parked => by cases parked.2
    roomCont := fun k stored => by simp [clear.2.1] at stored
    roomParked := fun _ parked => by cases parked.2
    waiter := fun k stored => by simp [clear.2.2] at stored
    awaitParked := fun _ parked => by cases parked
    selectParked := fun p _ parked => by cases parked
    kind := wf.kind
    woken := fun r woken => by
      rcases woken with eq | eq <;> cases eq
      rcases pc with pc | pc <;> simp [pc]
    fresh := wf.fresh }

/-- A call that is no longer parked for room drops its room continuation. -/
lemma Wf.dropRoom {i : Nat} {c : Call} (wf : c.Wf i) (woken : ¬ c.RoomParked) :
    Wf i { c with req := { c.req with roomCont := none } } where
  slotCont := wf.slotCont
  slotParked := wf.slotParked
  roomCont k stored := by cases stored
  roomParked _ parked := absurd parked woken
  waiter := wf.waiter
  awaitParked := wf.awaitParked
  selectParked := wf.selectParked
  kind := wf.kind
  woken := wf.woken
  fresh other := by simp [wf.fresh other]

/-- A call that is not parked for a slot has no slot continuation to drop. -/
lemma Wf.dropSlot {i : Nat} {c : Call} (wf : c.Wf i) (woken : ¬ c.SlotParked) :
    { c with req := { c.req with slotCont := none } } = c := by
  have none : c.req.slotCont = none := by
    rw [Option.eq_none_iff_forall_ne_some]
    intro k stored
    exact woken (wf.slotCont k stored).2
  rw [← none]

/-- A request that stops racing the channel closes its gate. -/
lemma Wf.dropGate {i : Nat} {c : Call} (wf : c.Wf i) (woken : c.wake ≠ .parked)
    (request : c.kind = .request) : Wf i { c with req := { c.req with gate := false } } where
  slotCont := wf.slotCont
  slotParked := wf.slotParked
  roomCont := wf.roomCont
  roomParked := wf.roomParked
  waiter := wf.waiter
  awaitParked := wf.awaitParked
  selectParked _ _ wake := absurd wake woken
  kind := wf.kind
  woken := wf.woken
  fresh other := absurd request other

/-- A request that starts to wait for a slot. -/
lemma Wf.parkSlot {i : Nat} {c : Call} (wf : c.Wf i) (pc : c.pc = .slotLoop) :
    Wf i { c with
      pc := .slotWait, wake := .parked, seq := c.seq + 1
      req := { c.req with slotCont := some ⟨i, c.seq + 1⟩ } } := by
  have kind := wf.kind
  rw [pc] at kind
  obtain ⟨_, room, waiter⟩ := wf.clear (by simp [pc]) (by simp [SlotParked, pc])
  constructor <;> simp_all [SlotParked, RoomParked]

/-- A call that starts to wait for room. -/
lemma Wf.parkRoom {i : Nat} {c : Call} {p : Packet} (wf : c.Wf i) (pc : c.pc = .roomLoop p) :
    Wf i { c with
      pc := .roomWait p, wake := .parked, seq := c.seq + 1
      req := { c.req with
        roomCont := if c.kind = .request then some ⟨i, c.seq + 1⟩ else c.req.roomCont } } := by
  obtain ⟨slot, room, waiter⟩ := wf.clear (by simp [pc]) (by simp [SlotParked, pc])
  constructor
  case fresh =>
    intro other
    have none : c.kind ≠ .request := other
    simp [none, wf.fresh none]
  all_goals simp_all [SlotParked, RoomParked]

/-- A call that starts to wait on the channel in `send`. -/
lemma Wf.parkSend {i : Nat} {c : Call} {p : Packet} (wf : c.Wf i) (other : c.kind ≠ .request) :
    Wf i { c with pc := .channelSend p, wake := .parked, seq := c.seq + 1 } := by
  have fresh := wf.fresh other
  constructor <;> simp_all [SlotParked, RoomParked]

/-- A request that starts to race the channel. -/
lemma Wf.parkSelect {i : Nat} {c : Call} {p : Packet} (wf : c.Wf i) (pc : c.pc = .roomLoop p)
    (request : c.kind = .request) (live : c.req.isCompleted = false) :
    Wf i { c with
      pc := .channelSelect p, wake := .parked, seq := c.seq + 1
      req := { c.req with gate := true } } := by
  obtain ⟨slot, room, waiter⟩ := wf.clear (by simp [pc]) (by simp [SlotParked, pc])
  constructor <;> simp_all [SlotParked, RoomParked, Pending.isCompleted]

/-- A call that is cancelled while it waits for a slot. -/
lemma Wf.cancelSlot {i : Nat} {c : Call} (wf : c.Wf i) (pc : c.pc = .slotWait) :
    Wf i { c with wake := .cancelled, req := { c.req with slotCont := none } } := by
  have kind := wf.kind
  rw [pc] at kind
  constructor
  case roomCont =>
    intro k stored
    obtain ⟨_, ⟨p, eq⟩ | ⟨⟨o, eq | eq⟩, _⟩⟩ := wf.roomCont k stored <;> simp [pc] at eq
  case waiter =>
    intro k stored
    obtain ⟨_, ⟨eq, _⟩ | ⟨⟨o, eq⟩, _⟩⟩ := wf.waiter k stored <;> simp [pc] at eq
  all_goals simp_all [SlotParked, RoomParked]

/-- A call that is cancelled while it waits for room. -/
lemma Wf.cancelRoom {i : Nat} {c : Call} {p : Packet} (wf : c.Wf i) (pc : c.pc = .roomWait p) :
    Wf i { c with wake := .cancelled, req := { c.req with roomCont := none } } := by
  constructor
  case slotCont =>
    intro k stored
    have eq := (wf.slotCont k stored).2.1
    simp [pc] at eq
  case waiter =>
    intro k stored
    obtain ⟨_, ⟨eq, _⟩ | ⟨⟨o, eq⟩, _⟩⟩ := wf.waiter k stored <;> simp [pc] at eq
  case fresh =>
    intro other
    simp [wf.fresh other]
  all_goals simp_all [SlotParked, RoomParked]

/-- A call that is cancelled while it waits on the channel. -/
lemma Wf.cancelSend {i : Nat} {c : Call} {p : Packet} (wf : c.Wf i) (parked : c.SendParked p) :
    Wf i { c with wake := .cancelled } := by
  obtain ⟨pc, wake⟩ := parked
  have clear : c.Clear := by
    apply wf.clear
    · rcases pc with pc | pc <;> simp [pc]
    · rintro ⟨eq, _⟩
      rcases pc with pc | pc <;> simp [pc] at eq
  obtain ⟨slot, room, waiter⟩ := clear
  have kind := wf.kind
  constructor
  case fresh => exact wf.fresh
  all_goals simp_all [SlotParked, RoomParked]

/-- The deadline's own bookkeeping. -/
lemma Wf.fire {i : Nat} {c : Call} (wf : c.Wf i) (request : c.kind = .request) :
    Wf i { c with req := { c.req with armed := false, ran := true } } where
  slotCont := wf.slotCont
  slotParked := wf.slotParked
  roomCont := wf.roomCont
  roomParked := wf.roomParked
  waiter := wf.waiter
  awaitParked := wf.awaitParked
  selectParked := wf.selectParked
  kind := wf.kind
  woken := wf.woken
  fresh other := absurd request other

/-- The end of a call. -/
lemma Wf.finish {i : Nat} {c : Call} {o o' : Outcome} (wf : c.Wf i) (pc : c.pc = .unwinding o)
    (request : c.kind = .request) :
    Wf i { c with pc := .ended o', req := { c.req with armed := false, waiter := none } } where
  slotCont k stored := by
    have eq := (wf.slotCont k stored).2.1
    simp [pc] at eq
  slotParked parked := by cases parked.1
  roomCont k stored := by
    obtain ⟨eq, ⟨p, waits⟩ | ⟨_, woken⟩⟩ := wf.roomCont k stored
    · simp [pc] at waits
    · exact ⟨eq, .inr ⟨⟨o', .inr rfl⟩, woken⟩⟩
  roomParked _ parked := by
    obtain ⟨⟨p, eq⟩, _⟩ := parked
    cases eq
  waiter k stored := by cases stored
  awaitParked eq := by cases eq
  selectParked p eq := by cases eq
  kind := trivial
  woken _ _ := trivial
  fresh other := absurd request other

/-- The end of a call that is not a request. -/
lemma Wf.finishOther {i : Nat} {c : Call} {o : Outcome} (wf : c.Wf i) (other : c.kind ≠ .request) :
    Wf i { c with pc := .ended o } :=
  running (by simp [Clear, wf.fresh other]) rfl trivial wf.fresh

/-- What `complete` and `fail` store: a result and nothing else. -/
structure Settles (store : Pending → Pending) : Prop where
  only : ∀ r, store r = { r with response := (store r).response, error := (store r).error }
  completed : ∀ r, (store r).isCompleted

/-- A request that is settled while its `select` is parked. -/
lemma Wf.settleSelect {i : Nat} {c : Call} {p : Packet} {store : Pending → Pending} (wf : c.Wf i)
    (st : Settles store) (pc : c.pc = .channelSelect p) :
    Wf i { c with wake := .resumed .gate, req := store c.req } := by
  have kind := wf.kind
  rw [pc] at kind
  obtain ⟨slot, room, waiter⟩ := wf.clear (by simp [pc]) (by simp [SlotParked, pc])
  rw [st.only]
  constructor <;> simp_all [SlotParked, RoomParked]

/-- A request that is settled while a waiter is stored. -/
lemma Wf.settleWaiter {i : Nat} {c : Call} {k : Cont} {store : Pending → Pending} {r : Resumption}
    (wf : c.Wf i) (st : Settles store) (stored : c.req.waiter = some k) (request : c.kind = .request)
    (wakes : Pc.await.Wakes r) :
    Wf i { (c.resumed k.seq r) with req := { store c.req with waiter := none } } := by
  obtain ⟨rfl, place⟩ := wf.waiter k stored
  rw [st.only]
  unfold Call.resumed
  rcases place with ⟨pc, wake | wake⟩ | ⟨⟨o, pc⟩, wake⟩
  · constructor <;> grind [SlotParked, RoomParked, Wf, Pc.Wakes, Pc.Allows]
  · constructor <;> grind [SlotParked, RoomParked, Wf, Pc.Wakes, Pc.Allows]
  · constructor <;> grind [SlotParked, RoomParked, Wf, Pc.Wakes, Pc.Allows]

/-- A request that is settled anywhere else. -/
lemma Wf.settlePlain {i : Nat} {c : Call} {store : Pending → Pending} (wf : c.Wf i)
    (st : Settles store) (select : ∀ p, c.pc = .channelSelect p → c.wake ≠ .parked)
    (waiter : c.req.waiter = none) (request : c.kind = .request) :
    Wf i { c with req := store c.req } := by
  rw [st.only]
  exact {
    slotCont := wf.slotCont
    slotParked := wf.slotParked
    roomCont := wf.roomCont
    roomParked := wf.roomParked
    waiter := wf.waiter
    awaitParked := fun pc wake => by
      have stored := (wf.awaitParked pc wake).1
      simp [waiter] at stored
    selectParked := fun p pc wake => absurd wake (select p pc)
    kind := wf.kind
    woken := wf.woken
    fresh := fun other => absurd request other }

/-- What a coroutine does to its own record keeps the record well formed. -/
lemma Wf.localStep {A : Trigger} {s : Conn} {i : Nat} {c c' : Call}
    (h : LocalStep A s i c c') (wf : c.Wf i) : c'.Wf i := by
  have kind := wf.kind
  cases h with
  | slotRun pc wake =>
    rw [pc] at kind
    exact wf.move (by simp [pc]) (by simp [SlotParked, wake]) rfl kind
  | slotSettled pc _ =>
    rw [pc] at kind
    exact wf.move (by simp [pc]) (by simp [SlotParked, pc]) rfl kind
  | slotClosed pc _ _ => exact wf.move (by simp [pc]) (by simp [SlotParked, pc]) rfl trivial
  | roomRun pc wake _ =>
    refine running ⟨?_, rfl, ?_⟩ rfl trivial ?_
    · rw [Option.eq_none_iff_forall_ne_some]
      intro k stored
      have eq := (wf.slotCont k stored).2.1
      simp [pc] at eq
    · rw [Option.eq_none_iff_forall_ne_some]
      intro k stored
      obtain ⟨_, ⟨eq, _⟩ | ⟨⟨o, eq⟩, _⟩⟩ := wf.waiter k stored <;> simp [pc] at eq
    · intro other
      simp [wf.fresh other]
  | roomSettled pc request _ => exact wf.move (by simp [pc]) (by simp [SlotParked, pc]) rfl request
  | roomClosed pc _ => exact wf.move (by simp [pc]) (by simp [SlotParked, pc]) rfl trivial
  | roomThrown _ wake => exact wf.leave (by simp [wake])
  | sendRun _ wake => exact wf.leave (by simp [wake])
  | sendCancelled _ cancelled =>
    apply wf.leave
    rcases cancelled with wake | ⟨r, wake⟩ <;> simp [wake]
  | selectSent pc _ =>
    rw [pc] at kind
    obtain ⟨slot, room, waiter⟩ := wf.clear (by simp [pc]) (by simp [SlotParked, pc])
    exact running ⟨slot, room, waiter⟩ rfl kind (fun other => absurd kind other)
  | awaitPark pc response error =>
    rw [pc] at kind
    obtain ⟨slot, room, _⟩ := wf.clear (by simp [pc]) (by simp [SlotParked, pc])
    constructor <;> simp_all [SlotParked, RoomParked, Pending.isCompleted]
  | awaitReturn pc _ => exact wf.move (by simp [pc]) (by simp [SlotParked, pc]) rfl trivial
  | awaitThrow pc _ _ => exact wf.move (by simp [pc]) (by simp [SlotParked, pc]) rfl trivial
  | awaitRun _ wake => exact wf.leave (by simp [wake])
  | awaitRunThrow _ wake => exact wf.leave (by simp [wake])
  | awaitCancelled _ cancelled =>
    apply wf.leave
    rcases cancelled with wake | ⟨r, wake⟩ <;> simp [wake]
  | cancelAwait pc _ => exact wf.cancelAwait pc
  | cancelSlotWoken _ wake _ => exact wf.recancel wake
  | cancelRoomWoken _ wake _ => exact wf.recancel wake
  | cancelSendWoken _ wake => exact wf.recancel wake
  | cancelSelectSent _ wake => exact wf.recancel wake
  | cancelSelectGate _ wake => exact wf.recancel wake
  | cancelAwaitWoken _ wake => exact wf.recancel wake
  | writeOk pc _ => exact wf.move (by simp [pc]) (by simp [SlotParked, pc]) rfl trivial
  | flushOk pc => exact wf.move (by simp [pc]) (by simp [SlotParked, pc]) rfl trivial

/-- Parked in one of the connection's queues. -/
def Queued (c : Call) : Prop :=
  c.SlotParked ∨ c.RoomParked ∨ ∃ p, c.SendParked p

/-- A call that is at no wait is in no queue. -/
lemma not_queued_of_waits {c : Call} (pc : c.pc.waits = false) : ¬ c.Queued := by
  rintro (⟨eq, _⟩ | ⟨⟨p, eq⟩, _⟩ | ⟨p, eq | eq, _⟩) <;> simp [eq] at pc

/-- A call that has been woken or cancelled is in no queue. -/
lemma not_queued_of_wake {c : Call} (woken : c.wake ≠ .parked) : ¬ c.Queued := by
  rintro (⟨_, eq⟩ | ⟨_, eq⟩ | ⟨p, _, eq⟩) <;> exact woken eq

/-- Nobody queues for a response. -/
lemma not_queued_await {c : Call} (pc : c.pc = .await) : ¬ c.Queued := by
  rintro (⟨eq, _⟩ | ⟨⟨p, eq⟩, _⟩ | ⟨p, eq | eq, _⟩) <;> simp [pc] at eq

/-- A call that is over takes no step. -/
lemma running_of_localStep {A : Trigger} {s : Conn} {i : Nat} {c c' : Call}
    (h : LocalStep A s i c c') : ∀ o, c.pc ≠ .ended o := by
  intro o ended
  cases h <;> simp_all

/-- A local step neither starts nor ends in a queue. -/
lemma not_queued_of_localStep {A : Trigger} {s : Conn} {i : Nat} {c c' : Call}
    (h : LocalStep A s i c c') : ¬ c.Queued ∧ ¬ c'.Queued := by
  cases h with
  | slotRun _ wake => exact ⟨not_queued_of_wake (by simp [wake]), not_queued_of_waits rfl⟩
  | slotSettled pc _ => exact ⟨not_queued_of_waits (by simp [pc]), not_queued_of_waits rfl⟩
  | slotClosed pc _ _ => exact ⟨not_queued_of_waits (by simp [pc]), not_queued_of_waits rfl⟩
  | roomRun _ wake _ => exact ⟨not_queued_of_wake (by simp [wake]), not_queued_of_waits rfl⟩
  | roomSettled pc _ _ => exact ⟨not_queued_of_waits (by simp [pc]), not_queued_of_waits rfl⟩
  | roomClosed pc _ => exact ⟨not_queued_of_waits (by simp [pc]), not_queued_of_waits rfl⟩
  | roomThrown _ wake => exact ⟨not_queued_of_wake (by simp [wake]), not_queued_of_waits rfl⟩
  | sendRun _ wake => exact ⟨not_queued_of_wake (by simp [wake]), not_queued_of_waits rfl⟩
  | sendCancelled _ cancelled =>
    refine ⟨not_queued_of_wake ?_, not_queued_of_waits rfl⟩
    rcases cancelled with wake | ⟨r, wake⟩ <;> simp [wake]
  | selectSent _ wake => exact ⟨not_queued_of_wake (by simp [wake]), not_queued_of_waits rfl⟩
  | awaitPark pc _ _ => exact ⟨not_queued_of_waits (by simp [pc]), not_queued_await rfl⟩
  | awaitReturn pc _ => exact ⟨not_queued_of_waits (by simp [pc]), not_queued_of_waits rfl⟩
  | awaitThrow pc _ _ => exact ⟨not_queued_of_waits (by simp [pc]), not_queued_of_waits rfl⟩
  | awaitRun pc _ => exact ⟨not_queued_await pc, not_queued_of_waits rfl⟩
  | awaitRunThrow pc _ => exact ⟨not_queued_await pc, not_queued_of_waits rfl⟩
  | awaitCancelled pc _ => exact ⟨not_queued_await pc, not_queued_of_waits rfl⟩
  | cancelAwait pc _ => exact ⟨not_queued_await pc, not_queued_await pc⟩
  | cancelSlotWoken _ wake _ | cancelRoomWoken _ wake _ | cancelSendWoken _ wake
  | cancelSelectSent _ wake | cancelSelectGate _ wake | cancelAwaitWoken _ wake =>
    exact ⟨not_queued_of_wake (by simp [wake]), not_queued_of_wake (by simp)⟩
  | writeOk pc _ => exact ⟨not_queued_of_waits (by simp [pc]), not_queued_of_waits rfl⟩
  | flushOk pc => exact ⟨not_queued_of_waits (by simp [pc]), not_queued_of_waits rfl⟩

end Call

/-! ## Queues -/

/-- The continuation is that of a parked room waiter. -/
def RoomEntry (calls : Nat → Call) (k : Cont) : Prop :=
  (calls k.call).RoomParked ∧ (calls k.call).seq = k.seq

/-- The pair is a parked sender of the outbound channel. -/
def SendEntry (calls : Nat → Call) (e : Nat × Packet) : Prop :=
  (calls e.1).SendParked e.2

/-- The queue of slot waiters: every parked one is in it, and its other entries are settled. -/
structure SlotQueue (queue : List Nat) (calls : Nat → Call) : Prop where
  nodup : queue.Nodup
  parked : ∀ i, (calls i).SlotParked → i ∈ queue
  entry : ∀ i ∈ queue, (calls i).SlotParked ∨ (calls i).req.isCompleted

section
variable {calls : Nat → Call} {i : Nat} {c : Call}

/-- Call `i` stops waiting for room, if it was. -/
lemma roomEntry_leave (out : ¬ c.RoomParked) (k : Cont) :
    RoomEntry (Function.update calls i c) k ↔ RoomEntry calls k ∧ k ≠ ⟨i, (calls i).seq⟩ := by
  unfold RoomEntry
  by_cases eq : k.call = i
  · subst eq
    simp only [Function.update_self, out, false_and, false_iff, not_and, not_not]
    rintro ⟨_, seq⟩
    rw [seq]
  · rw [Function.update_of_ne eq]
    constructor
    · intro entry
      exact ⟨entry, fun same => eq (by rw [same])⟩
    · exact And.left

/-- A call that does not wait for room before or after is no matter of the room queue. -/
lemma roomEntry_same (before : ¬ (calls i).RoomParked) (after : ¬ c.RoomParked) (k : Cont) :
    RoomEntry (Function.update calls i c) k ↔ RoomEntry calls k := by
  rw [roomEntry_leave after]
  constructor
  · exact And.left
  · intro entry
    refine ⟨entry, ?_⟩
    rintro rfl
    exact before entry.1

/-- Call `i` starts to wait for room. -/
lemma roomEntry_park (before : ¬ (calls i).RoomParked) (after : c.RoomParked) (k : Cont) :
    RoomEntry (Function.update calls i c) k ↔ RoomEntry calls k ∨ k = ⟨i, c.seq⟩ := by
  unfold RoomEntry
  by_cases eq : k.call = i
  · subst eq
    simp only [Function.update_self, after, before, true_and, false_and, false_or]
    constructor
    · intro seq
      rw [seq]
    · intro same
      rw [same]
  · rw [Function.update_of_ne eq]
    constructor
    · exact .inl
    · rintro (entry | rfl)
      · exact entry
      · exact absurd rfl eq

/-- Call `i` stops waiting on the channel, if it was. -/
lemma sendEntry_leave (out : ∀ p, ¬ c.SendParked p) (e : Nat × Packet) :
    SendEntry (Function.update calls i c) e ↔ SendEntry calls e ∧ e.1 ≠ i := by
  unfold SendEntry
  by_cases eq : e.1 = i
  · simp [eq, out]
  · simp [eq]

/-- A call that does not wait on the channel before or after is no matter of its senders. -/
lemma sendEntry_same (before : ∀ p, ¬ (calls i).SendParked p) (after : ∀ p, ¬ c.SendParked p)
    (e : Nat × Packet) : SendEntry (Function.update calls i c) e ↔ SendEntry calls e := by
  rw [sendEntry_leave after]
  constructor
  · exact And.left
  · intro entry
    refine ⟨entry, ?_⟩
    rintro rfl
    exact before _ entry

/-- Call `i` starts to wait on the channel. -/
lemma sendEntry_park {p : Packet} (before : ∀ q, ¬ (calls i).SendParked q)
    (after : ∀ q, c.SendParked q ↔ q = p) (e : Nat × Packet) :
    SendEntry (Function.update calls i c) e ↔ SendEntry calls e ∨ e = (i, p) := by
  unfold SendEntry
  by_cases eq : e.1 = i
  · simp [eq, before, after, Prod.ext_iff]
  · simp [eq, Prod.ext_iff]

/-- Call `i` is not parked for a slot, before or after. -/
lemma SlotQueue.same {queue : List Nat} (h : SlotQueue queue calls)
    (before : ¬ (calls i).SlotParked) (after : ¬ c.SlotParked)
    (completed : (calls i).req.isCompleted → c.req.isCompleted) :
    SlotQueue queue (Function.update calls i c) := by
  refine ⟨h.nodup, fun j => ?_, fun j mem => ?_⟩
  · by_cases eq : j = i
    · subst eq
      simp [after]
    · rw [Function.update_of_ne eq]
      exact h.parked j
  · by_cases eq : j = i
    · subst eq
      rw [Function.update_self]
      exact .inr (completed ((h.entry j mem).resolve_left before))
    · rw [Function.update_of_ne eq]
      exact h.entry j mem

/-- Call `i` leaves the queue. -/
lemma SlotQueue.leave {queue : List Nat} (h : SlotQueue queue calls) (after : ¬ c.SlotParked) :
    SlotQueue (queue.erase i) (Function.update calls i c) := by
  refine ⟨h.nodup.erase i, fun j => ?_, fun j mem => ?_⟩
  · by_cases eq : j = i
    · subst eq
      simp [after]
    · rw [Function.update_of_ne eq]
      intro parked
      exact (List.mem_erase_of_ne eq).mpr (h.parked j parked)
  · rw [h.nodup.mem_erase_iff] at mem
    rw [Function.update_of_ne mem.1]
    exact h.entry j mem.2

end

end MsgTrans
