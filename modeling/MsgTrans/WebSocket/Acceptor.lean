import MsgTrans.Lib.Runs
import Mathlib.Data.List.Nodup
import Mathlib.Data.List.Perm.Basic
import Mathlib.Data.List.Range

/-!
# Accepting WebSocket sessions

Model of `WebSocketServerTransport.WebSocketAcceptor` (`msgtrans-websocket`, `WebSocketTransport.kt`): the
accept loop with its semaphore, the handshakes beside it, the bounded channel `ready` and the calls of
`accept`. A TCP stream is named by the order in which `listener.accept` returned it.

The semaphore and the channel are kotlinx's. The loop is the only one that waits for a permit; a permit
given to the suspended loop is given back if the loop is cancelled before it runs. An element handed to a
suspended `accept` goes to `onUndeliveredElement` if that call is cancelled before it runs, as do the
elements in the buffer when the channel is cancelled; a failed `trySend` does not call it. The child of a
handshake starts undispatched, so its `finally` always runs.
-/

namespace MsgTrans

/-! ## The upgrade -/

/-- What the callback of `accept` reads of a request. -/
structure UpgradeRequest where
  path : String
  subprotocols : Option String

/-- Kotlin `CallbackResult`: the rejection's status and body, or the subprotocol echoed. -/
inductive UpgradeAnswer where
  | reject (status : Nat) (body : String)
  | accept (subprotocol : Option String)
deriving DecidableEq

/-- Kotlin `MSGTRANS_WEBSOCKET_SUBPROTOCOL`. -/
def webSocketSubprotocol : String := "msgtrans.v1"

/-- The options the acceptor reads. -/
structure AcceptorOptions where
  path : String
  maxConcurrentHandshakes : Nat
  maxPendingConnections : Nat
  handshakes_pos : 0 < maxConcurrentHandshakes
  pending_pos : 0 < maxPendingConnections

/-- One handshake and one pending connection at a time. -/
def AcceptorOptions.one : AcceptorOptions := ⟨"/", 1, 1, Nat.one_pos, Nat.one_pos⟩

/-- The callback of `handshake`. -/
def AcceptorOptions.upgrade (o : AcceptorOptions) (r : UpgradeRequest) : UpgradeAnswer :=
  if r.path ≠ o.path then .reject 404 "Not Found"
  else
    match r.subprotocols with
    | none => .accept none
    | some offered =>
      if (offered.splitOn ",").any fun name => name.trimAscii == webSocketSubprotocol.toSlice then
        .accept (some webSocketSubprotocol)
      else .accept none

/-- How a handshake ends: with the peer's request, or by a failure, a timeout or a cancellation. -/
inductive HandshakeResult where
  | request (r : UpgradeRequest)
  | failed

/-! ## The semaphore and the accept loop -/

/-- The suspended `handshakes.acquire`: waiting, resumed with a permit, cancelled while waiting, or
cancelled after it was given a permit. -/
inductive Acquire where
  | parked
  | resumed
  | cancelled
  | revoked
deriving DecidableEq

/-- Where the accept loop is. -/
inductive AcceptLoop where
  | top
  | acquiring (acquire : Acquire)
  | accepting
  | ended
deriving DecidableEq

/-- The free permits of `handshakes` and the loop that waits for them. -/
structure Gate where
  free : Nat
  loop : AcceptLoop

namespace Gate

/-- The permits held by the accept loop. -/
def held (g : Gate) : Nat :=
  match g.loop with
  | .acquiring .resumed | .acquiring .revoked | .accepting => 1
  | _ => 0

/-- `handshakes.acquire`; to suspend throws if the coroutine is cancelled. -/
def acquire (cancelled : Bool) (g : Gate) : Gate :=
  if 0 < g.free then ⟨g.free - 1, .accepting⟩
  else if cancelled then { g with loop := .acquiring .cancelled }
  else { g with loop := .acquiring .parked }

/-- `handshakes.release`. -/
def release (g : Gate) : Gate :=
  match g.loop with
  | .acquiring .parked => { g with loop := .acquiring .resumed }
  | _ => { g with free := g.free + 1 }

/-- The loop's coroutine is cancelled. -/
def cancel (g : Gate) : Gate :=
  match g.loop with
  | .acquiring .parked => { g with loop := .acquiring .cancelled }
  | .acquiring .resumed => { g with loop := .acquiring .revoked }
  | _ => g

end Gate

/-! ## The streams -/

/-- A call of `accept` that was resumed with a session and has not run yet. -/
structure Handed where
  call : Nat
  stream : Nat
  cancelled : Bool
deriving DecidableEq

/-- The TCP streams accepted so far and where they are: in a handshake, in the buffer of `ready`, on their
way to a call of `accept`, returned by one, or closed or aborted by the acceptor. -/
structure Streams where
  accepted : Nat
  handshaking : List Nat
  queued : List Nat
  readyClosed : Bool
  calls : Nat
  waiting : List Nat
  handed : List Handed
  returned : List Nat
  released : List Nat

namespace Streams

/-- The streams handed to a call of `accept`. -/
def delivered (s : Streams) : List Nat := s.handed.map Handed.stream ++ s.returned

/-- `listener.accept` returned a stream, and its handshake is launched. -/
def launch (s : Streams) : Streams :=
  { s with accepted := s.accepted + 1, handshaking := s.handshaking ++ [s.accepted] }

/-- `if (ready.trySend(ws).isFailure) ws.abort()`. -/
def trySend (o : AcceptorOptions) (i : Nat) (s : Streams) : Streams :=
  if s.readyClosed then { s with released := s.released ++ [i] }
  else
    match s.waiting with
    | n :: rest => { s with waiting := rest, handed := s.handed ++ [⟨n, i, false⟩] }
    | [] =>
      if s.queued.length < o.maxPendingConnections then { s with queued := s.queued ++ [i] }
      else { s with released := s.released ++ [i] }

/-- The end of `handshake` for stream `i`. -/
def finish (o : AcceptorOptions) (i : Nat) (result : HandshakeResult) (s : Streams) : Streams :=
  let s := { s with handshaking := s.handshaking.erase i }
  match result with
  | .failed => { s with released := s.released ++ [i] }
  | .request r =>
    match o.upgrade r with
    | .reject _ _ => { s with released := s.released ++ [i] }
    | .accept _ => s.trySend o i

/-- `WebSocketPacketStream.start` in `accept`, and the `abort` if it throws. -/
def wrap (i : Nat) (started : Bool) (s : Streams) : Streams :=
  if started then { s with returned := s.returned ++ [i] } else { s with released := s.released ++ [i] }

/-- A new call of `accept`, up to its suspension. -/
def accept (started : Bool) (s : Streams) : Streams :=
  match s.queued with
  | i :: rest => { s with calls := s.calls + 1, queued := rest }.wrap i started
  | [] =>
    if s.readyClosed then { s with calls := s.calls + 1 }
    else { s with calls := s.calls + 1, waiting := s.waiting ++ [s.calls] }

/-- A call of `accept` that was resumed with a session runs. -/
def resume (h : Handed) (started : Bool) (s : Streams) : Streams :=
  let s := { s with handed := s.handed.erase h }
  if h.cancelled then { s with released := s.released ++ [h.stream] } else s.wrap h.stream started

/-- Call `n` of `accept` is cancelled. -/
def cancelCall (n : Nat) (s : Streams) : Streams :=
  { s with
    waiting := s.waiting.erase n
    handed := s.handed.map fun h => if h.call = n then { h with cancelled := true } else h }

/-- `ready.cancel()`: the buffered sessions are aborted and the waiting calls throw. -/
def cancelReady (s : Streams) : Streams :=
  { s with readyClosed := true, queued := [], waiting := [], released := s.released ++ s.queued }

end Streams

/-! ## The acceptor -/

/-- The state of Kotlin `WebSocketAcceptor`. -/
structure WebSocketAcceptor where
  gate : Gate
  streams : Streams
  scopeCancelled : Bool
  listenerClosed : Bool
  closeCalled : Bool

/-- What can happen next. -/
inductive AcceptorEvent where
  /-- the accept loop runs to its next suspension -/
  | loopRuns
  /-- `listener.accept` returns a stream -/
  | tcpAccepted
  /-- `listener.accept` throws: an `IoException`, a cancellation or another exception -/
  | acceptFails
  | handshake (stream : Nat) (result : HandshakeResult)
  /-- a call of `accept`; `started` tells whether `start` succeeds should it get a session at once -/
  | accept (started : Bool)
  /-- a resumed call of `accept` runs -/
  | callRuns (call : Nat) (started : Bool)
  | cancelCall (call : Nat)
  | cancelOwner
  | close

namespace WebSocketAcceptor

/-- The acceptor when its loop is launched. -/
def start (o : AcceptorOptions) : WebSocketAcceptor where
  gate := ⟨o.maxConcurrentHandshakes, .top⟩
  streams := ⟨0, [], [], false, 0, [], [], [], []⟩
  scopeCancelled := false
  listenerClosed := false
  closeCalled := false

/-- `scope.cancel()`, or the cancellation of the owner. -/
def cancelScope (s : WebSocketAcceptor) : WebSocketAcceptor :=
  { s with gate := s.gate.cancel, scopeCancelled := true }

/-- The `finally` block of the accept loop. -/
def shutDown (s : WebSocketAcceptor) : WebSocketAcceptor :=
  { s with
    gate := { s.gate with loop := .ended }
    streams := s.streams.cancelReady
    scopeCancelled := true
    listenerClosed := true }

/-- Kotlin `close`. -/
def close (s : WebSocketAcceptor) : WebSocketAcceptor :=
  { s.cancelScope with streams := s.streams.cancelReady, listenerClosed := true, closeCalled := true }

/-- The state after an event, if the event can happen. -/
def step (o : AcceptorOptions) (s : WebSocketAcceptor) : AcceptorEvent → Option WebSocketAcceptor
  | .loopRuns =>
    match s.gate.loop with
    | .top => some { s with gate := s.gate.acquire s.scopeCancelled }
    | .acquiring .resumed => some { s with gate := { s.gate with loop := .accepting } }
    | .acquiring .cancelled => some s.shutDown
    | .acquiring .revoked => some { s with gate := s.gate.release }.shutDown
    | _ => none
  | .tcpAccepted =>
    match s.gate.loop with
    | .accepting => some { s with gate := { s.gate with loop := .top }, streams := s.streams.launch }
    | _ => none
  | .acceptFails =>
    match s.gate.loop with
    | .accepting => some { s with gate := s.gate.release }.shutDown
    | _ => none
  | .handshake i result =>
    if i ∈ s.streams.handshaking then
      some { s with gate := s.gate.release, streams := s.streams.finish o i result }
    else none
  | .accept started => some { s with streams := s.streams.accept started }
  | .callRuns n started =>
    (s.streams.handed.find? fun h => h.call == n).map fun h =>
      { s with streams := s.streams.resume h started }
  | .cancelCall n => some { s with streams := s.streams.cancelCall n }
  | .cancelOwner => some s.cancelScope
  | .close => some s.close

/-- `close` was called, or the loop has ended by itself. -/
def Closed (s : WebSocketAcceptor) : Prop := s.closeCalled = true ∨ s.gate.loop = .ended

end WebSocketAcceptor

/-! ## Permits -/

namespace Gate

/-- A released permit is free or goes to the accept loop that waits. -/
lemma release_total (g : Gate) : g.release.free + g.release.held = g.free + g.held + 1 := by
  unfold release
  split
  next loop => simp [held, loop]
  next => simp only [held]; omega

/-- A cancelled accept loop keeps the permits. -/
lemma cancel_total (g : Gate) : g.cancel.free + g.cancel.held = g.free + g.held := by
  unfold cancel
  split
  next loop => simp [held, loop]
  next loop => simp [held, loop]
  next => rfl

/-- The accept loop takes the permit it acquires. -/
lemma acquire_total {g : Gate} (top : g.loop = .top) (cancelled : Bool) :
    (g.acquire cancelled).free + (g.acquire cancelled).held = g.free + g.held := by
  unfold acquire
  split_ifs
  · simp only [held, top]
    omega
  · simp [held, top]
  · simp [held, top]

end Gate

/-! ## Places -/

namespace Streams

variable {o : AcceptorOptions} {s : Streams}

/-- How often stream `b` occurs in the four places. -/
def count (s : Streams) (b : Nat) : Nat :=
  s.handshaking.count b + s.queued.count b + s.delivered.count b + s.released.count b

/-- Every accepted stream is in one place, the buffer is bounded, and empty once the channel is closed. -/
structure Placed (o : AcceptorOptions) (s : Streams) : Prop where
  once : ∀ b, s.count b = if b < s.accepted then 1 else 0
  room : s.queued.length ≤ o.maxPendingConnections
  shut : s.readyClosed = true → s.queued = []

/-- The same, with stream `i` taken out of its place. -/
structure Taken (o : AcceptorOptions) (i : Nat) (s : Streams) : Prop where
  once : ∀ b, s.count b + [i].count b = if b < s.accepted then 1 else 0
  room : s.queued.length ≤ o.maxPendingConnections
  shut : s.readyClosed = true → s.queued = []

/-- A number put in front counts once more. -/
lemma count_cons_add (i : Nat) (l : List Nat) (b : Nat) :
    l.count b + [i].count b = (i :: l).count b := by
  simp [List.count_cons]

/-- An element that is erased counts once less. -/
lemma count_erase_add {α : Type*} [DecidableEq α] {l : List α} {a : α} (mem : a ∈ l) (f : α → Nat)
    (b : Nat) : ((l.erase a).map f).count b + [f a].count b = (l.map f).count b := by
  rw [((List.perm_cons_erase mem).map f).count_eq b, List.map_cons, count_cons_add]

namespace Taken

variable {i : Nat}

/-- The stream is closed or aborted. -/
lemma release (h : Taken o i s) : Placed o { s with released := s.released ++ [i] } := by
  refine ⟨fun b => ?_, h.room, h.shut⟩
  rw [← h.once b]
  simp only [count, delivered, List.count_append]
  omega

/-- A stream that `accept` wraps is delivered or released. -/
lemma wrap (h : Taken o i s) (started : Bool) : Placed o (s.wrap i started) := by
  cases started with
  | true =>
    refine ⟨fun b => ?_, h.room, h.shut⟩
    change _ = if b < s.accepted then 1 else 0
    rw [← h.once b]
    simp only [Streams.wrap, if_true, count, delivered, List.count_append]
    omega
  | false => exact h.release

/-- A stream that is sent is queued, delivered or released. -/
lemma trySend (h : Taken o i s) : Placed o (s.trySend o i) := by
  unfold Streams.trySend
  split
  · exact h.release
  next opened =>
    split
    next =>
      refine ⟨fun b => ?_, h.room, h.shut⟩
      rw [← h.once b]
      simp only [count, delivered, List.map_append, List.map_cons, List.map_nil, List.count_append]
      omega
    next =>
      split
      next small =>
        refine ⟨fun b => ?_, ?_, fun closed => absurd closed opened⟩
        · rw [← h.once b]
          simp only [count, delivered, List.count_append]
          omega
        · rw [List.length_append, List.length_singleton]
          exact small
      next => exact h.release

end Taken

namespace Placed

/-- A new acceptor has accepted nothing. -/
lemma start (o : AcceptorOptions) : Placed o (WebSocketAcceptor.start o).streams where
  once b := by simp [WebSocketAcceptor.start, count, delivered]
  room := Nat.zero_le _
  shut _ := rfl

/-- A stream that the accept loop launches is in its handshake. -/
lemma launch (h : Placed o s) : Placed o s.launch := by
  refine ⟨fun b => ?_, h.room, h.shut⟩
  have once := h.once b
  simp only [Streams.launch, count, delivered, List.count_append, List.count_singleton] at once ⊢
  by_cases new : b = s.accepted
  · simp only [new, beq_self_eq_true, if_true, Nat.lt_irrefl, if_false, Nat.lt_succ_self] at once ⊢
    omega
  · have other : (s.accepted == b) = false := by simpa using Ne.symm new
    have same : b < s.accepted + 1 ↔ b < s.accepted := by omega
    simp only [other, same, Bool.false_eq_true, if_false]
    omega

/-- The end of a handshake takes the stream to another place. -/
lemma finish (h : Placed o s) {i : Nat} (mem : i ∈ s.handshaking) (result : HandshakeResult) :
    Placed o (s.finish o i result) := by
  have taken : Taken o i { s with handshaking := s.handshaking.erase i } := by
    refine ⟨fun b => ?_, h.room, h.shut⟩
    have erased := count_erase_add mem id b
    simp only [List.map_id, id] at erased
    rw [← h.once b]
    simp only [count, delivered]
    omega
  unfold Streams.finish
  dsimp only
  split
  · exact taken.release
  · split
    · exact taken.release
    · exact taken.trySend

/-- `accept` takes the stream to another place. -/
lemma accept (h : Placed o s) (started : Bool) : Placed o (s.accept started) := by
  unfold Streams.accept
  split
  next i rest queued =>
    have room := h.room
    rw [queued, List.length_cons] at room
    refine Taken.wrap ⟨fun b => ?_, Nat.le_of_succ_le room, fun shut => ?_⟩ started
    · have popped := count_cons_add i rest b
      rw [← h.once b]
      simp only [count, delivered, queued]
      omega
    · have none := h.shut shut
      simp [queued] at none
  next =>
    split
    · exact ⟨h.once, h.room, h.shut⟩
    · exact ⟨h.once, h.room, h.shut⟩

/-- A resumed `accept` takes the stream to another place. -/
lemma resume (h : Placed o s) {r : Handed} (mem : r ∈ s.handed) (started : Bool) :
    Placed o (s.resume r started) := by
  have taken : Taken o r.stream { s with handed := s.handed.erase r } := by
    refine ⟨fun b => ?_, h.room, h.shut⟩
    have erased := count_erase_add mem Handed.stream b
    rw [← h.once b]
    simp only [count, delivered, List.count_append]
    omega
  unfold Streams.resume
  dsimp only
  split
  · exact taken.release
  · exact taken.wrap started

/-- A cancelled `accept` touches no stream. -/
lemma cancelCall (h : Placed o s) (n : Nat) : Placed o (s.cancelCall n) := by
  have same : ((s.handed.map fun r => if r.call = n then { r with cancelled := true } else r).map
      Handed.stream) = s.handed.map Handed.stream := by
    rw [List.map_map]
    refine List.map_congr_left fun r _ => ?_
    simp only [Function.comp_apply]
    split <;> rfl
  refine ⟨fun b => ?_, h.room, h.shut⟩
  have once := h.once b
  simp only [count, delivered] at once
  simp only [Streams.cancelCall, count, delivered, same]
  exact once

/-- Cancelling the channel releases what it has buffered. -/
lemma cancelReady (h : Placed o s) : Placed o s.cancelReady := by
  refine ⟨fun b => ?_, Nat.zero_le _, fun _ => rfl⟩
  change _ = if b < s.accepted then 1 else 0
  rw [← h.once b]
  simp only [Streams.cancelReady, count, delivered, List.count_append, List.count_nil]
  omega

/-- Each accepted stream occurs exactly once. -/
lemma perm (h : Placed o s) :
    (s.handshaking ++ s.queued ++ s.delivered ++ s.released).Perm (List.range s.accepted) := by
  rw [List.perm_iff_count]
  intro b
  have once := h.once b
  rw [count] at once
  rw [List.count_append, List.count_append, List.count_append, once]
  split
  next lt => rw [List.count_eq_one_of_mem List.nodup_range (List.mem_range.mpr lt)]
  next le => rw [List.count_eq_zero_of_not_mem (by simpa using le)]

end Placed

/-! ## What the operations leave alone -/

/-- `wrap` touches neither the handshakes nor the channel. -/
lemma wrap_frame (i : Nat) (started : Bool) (s : Streams) :
    (s.wrap i started).handshaking = s.handshaking ∧ (s.wrap i started).readyClosed = s.readyClosed := by
  cases started <;> exact ⟨rfl, rfl⟩

/-- `accept` touches neither the handshakes nor the channel. -/
lemma accept_frame (started : Bool) (s : Streams) :
    (s.accept started).handshaking = s.handshaking ∧ (s.accept started).readyClosed = s.readyClosed := by
  unfold accept
  split
  · exact wrap_frame _ _ _
  · split <;> exact ⟨rfl, rfl⟩

/-- A resumed `accept` touches neither the handshakes nor the channel. -/
lemma resume_frame (r : Handed) (started : Bool) (s : Streams) :
    (s.resume r started).handshaking = s.handshaking ∧
      (s.resume r started).readyClosed = s.readyClosed := by
  unfold resume
  dsimp only
  split
  · exact ⟨rfl, rfl⟩
  · exact wrap_frame _ _ _

/-- `trySend` touches neither the handshakes nor the channel. -/
lemma trySend_frame (i : Nat) (s : Streams) :
    (s.trySend o i).handshaking = s.handshaking ∧ (s.trySend o i).readyClosed = s.readyClosed := by
  unfold trySend
  split
  · exact ⟨rfl, rfl⟩
  · split
    · exact ⟨rfl, rfl⟩
    · split <;> exact ⟨rfl, rfl⟩

/-- The end of a handshake removes it and does not close the channel. -/
lemma finish_frame (i : Nat) (result : HandshakeResult) (s : Streams) :
    (s.finish o i result).handshaking = s.handshaking.erase i ∧
      (s.finish o i result).readyClosed = s.readyClosed := by
  unfold finish
  dsimp only
  split
  · exact ⟨rfl, rfl⟩
  · split
    · exact ⟨rfl, rfl⟩
    · exact trySend_frame _ _

end Streams

/-! ## Every run -/

namespace WebSocketAcceptor

variable {o : AcceptorOptions} {s s' : WebSocketAcceptor} {e : AcceptorEvent}

/-- The permits are conserved, the streams are where they belong, and a closed acceptor has cancelled its
scope and closed its listener and its channel. -/
structure Inv (o : AcceptorOptions) (s : WebSocketAcceptor) : Prop where
  permits : s.gate.free + s.streams.handshaking.length + s.gate.held = o.maxConcurrentHandshakes
  placed : s.streams.Placed o
  closed : s.Closed → s.scopeCancelled = true ∧ s.listenerClosed = true ∧ s.streams.readyClosed = true

namespace Inv

/-- A new acceptor. -/
lemma start (o : AcceptorOptions) : Inv o (start o) where
  permits := by simp [WebSocketAcceptor.start, Gate.held]
  placed := .start o
  closed from_ := by
    obtain called | ended := from_
    · cases called
    · cases ended

/-- A change of the semaphore and the loop alone. -/
lemma gate {g : Gate} (h : Inv o s) (same : g.free + g.held = s.gate.free + s.gate.held)
    (on : g.loop = .ended → s.gate.loop = .ended) : Inv o { s with gate := g } where
  permits := by
    have permits := h.permits
    simp only
    omega
  placed := h.placed
  closed from_ := h.closed (from_.imp_right on)

/-- A change of the streams that are not in a handshake. -/
lemma streams {t : Streams} (h : Inv o s) (placed : t.Placed o)
    (same : t.handshaking = s.streams.handshaking)
    (shut : s.streams.readyClosed = true → t.readyClosed = true) : Inv o { s with streams := t } where
  permits := by
    simp only [same]
    exact h.permits
  placed := placed
  closed from_ := by
    obtain ⟨scope, listener, ready⟩ := h.closed from_
    exact ⟨scope, listener, shut ready⟩

/-- Shutting the acceptor down. -/
lemma shutDown (placed : s.streams.Placed o)
    (permits : s.gate.free + s.streams.handshaking.length = o.maxConcurrentHandshakes) :
    Inv o s.shutDown where
  permits := permits
  placed := placed.cancelReady
  closed _ := ⟨rfl, rfl, rfl⟩

/-- Cancelling the scope. -/
lemma cancelScope (h : Inv o s) : Inv o s.cancelScope := by
  have on : s.gate.cancel.loop = .ended → s.gate.loop = .ended := by
    unfold Gate.cancel
    split <;> simp
  have next := h.gate s.gate.cancel_total on
  exact ⟨next.permits, next.placed, fun from_ => ⟨rfl, (next.closed from_).2⟩⟩

/-- A handshake ends: its permit goes back, or to the waiting loop. -/
lemma handshake (h : Inv o s) {i : Nat} (mem : i ∈ s.streams.handshaking) (result : HandshakeResult) :
    Inv o { s with gate := s.gate.release, streams := s.streams.finish o i result } := by
  obtain ⟨shaking, ready⟩ := Streams.finish_frame (o := o) i result s.streams
  have on : s.gate.release.loop = .ended → s.gate.loop = .ended := by
    unfold Gate.release
    split <;> simp
  refine ⟨?_, h.placed.finish mem result, fun from_ => ?_⟩
  · have permits := h.permits
    have total := s.gate.release_total
    have fewer := List.length_erase_of_mem mem
    have pos := List.length_pos_of_mem mem
    simp only [shaking]
    omega
  · obtain ⟨scope, listener, shut⟩ := h.closed (from_.imp_right on)
    exact ⟨scope, listener, ready.trans shut⟩

/-- The loop ends while it holds a permit. -/
lemma giveUp (h : Inv o s) (held : s.gate.held = 1) (awake : s.gate.loop ≠ .acquiring .parked) :
    Inv o (WebSocketAcceptor.shutDown { s with gate := s.gate.release }) := by
  refine shutDown h.placed ?_
  have permits := h.permits
  have freed : s.gate.release.free = s.gate.free + 1 := by
    unfold Gate.release
    split
    next loop => exact absurd loop awake
    next => rfl
  simp only [freed]
  omega

/-- Every step keeps the invariant. -/
theorem step (h : Inv o s) (st : step o s e = some s') : Inv o s' := by
  cases e with
  | loopRuns =>
    simp only [WebSocketAcceptor.step] at st
    split at st
    next loop =>
      cases st
      refine h.gate (Gate.acquire_total loop _) fun ended => ?_
      unfold Gate.acquire at ended
      split_ifs at ended
    next loop =>
      cases st
      exact h.gate (by simp [Gate.held, loop]) (by simp)
    next loop =>
      cases st
      refine shutDown h.placed ?_
      have permits := h.permits
      simpa [Gate.held, loop] using permits
    next loop =>
      cases st
      exact h.giveUp (by simp [Gate.held, loop]) (by simp [loop])
    next => cases st
  | tcpAccepted =>
    simp only [WebSocketAcceptor.step] at st
    split at st
    next loop =>
      cases st
      refine ⟨?_, h.placed.launch, fun from_ => ?_⟩
      -- the permit that the accept loop holds goes to the handshake
      · have permits := h.permits
        simp only [Gate.held, loop] at permits
        simp only [Gate.held, Streams.launch, List.length_append, List.length_singleton]
        omega
      · obtain called | ended := from_
        · exact h.closed (.inl called)
        · cases ended
    next => cases st
  | acceptFails =>
    simp only [WebSocketAcceptor.step] at st
    split at st
    next loop =>
      cases st
      exact h.giveUp (by simp [Gate.held, loop]) (by simp [loop])
    next => cases st
  | handshake i result =>
    simp only [WebSocketAcceptor.step] at st
    split at st
    next mem =>
      cases st
      exact h.handshake mem result
    next => cases st
  | accept started =>
    cases st
    obtain ⟨shaking, ready⟩ := s.streams.accept_frame started
    exact h.streams (h.placed.accept started) shaking ready.trans
  | callRuns n started =>
    obtain ⟨r, found, eq⟩ := Option.map_eq_some_iff.mp st
    cases eq
    obtain ⟨shaking, ready⟩ := s.streams.resume_frame r started
    exact h.streams (h.placed.resume (List.mem_of_find?_eq_some found) started) shaking ready.trans
  | cancelCall n =>
    cases st
    exact h.streams (h.placed.cancelCall n) rfl id
  | cancelOwner =>
    cases st
    exact h.cancelScope
  | close =>
    cases st
    have next := h.cancelScope
    exact ⟨next.permits, next.placed.cancelReady, fun _ => ⟨rfl, rfl, rfl⟩⟩

end Inv

/-- Permits and connections are conserved in every run: the free permits, the running handshakes and the
permit of the loop add up; every accepted stream is in exactly one of handshaking, queued, delivered and
released, with a bounded queue; and once the acceptor is closed, with its listener and its scope, nothing is
queued, so that with the handshakes unwound every stream is delivered or released, never both. -/
theorem permits_and_streams (run : Runs.Reach (step o) Runs.always (start o) s) :
    s.gate.free + s.streams.handshaking.length + s.gate.held = o.maxConcurrentHandshakes ∧
    (s.streams.handshaking ++ s.streams.queued ++ s.streams.delivered ++ s.streams.released).Perm
      (List.range s.streams.accepted) ∧
    s.streams.queued.length ≤ o.maxPendingConnections ∧
    (∀ i ∈ s.streams.delivered, i ∉ s.streams.released) ∧
    (s.Closed → s.scopeCancelled = true ∧ s.listenerClosed = true ∧ s.streams.queued = [] ∧
      (s.streams.handshaking = [] →
        ∀ i < s.streams.accepted, i ∈ s.streams.delivered ∨ i ∈ s.streams.released)) := by
  have inv : Inv o s := run.invariant (P := Inv o) (.start o) fun _ _ _ held _ st => held.step st
  have perm := inv.placed.perm
  refine ⟨inv.permits, perm, inv.placed.room, fun i mem released => ?_, fun closed => ?_⟩
  · have nodup := perm.nodup_iff.mpr List.nodup_range
    exact (List.disjoint_of_nodup_append nodup) (List.mem_append_right _ mem) released
  · obtain ⟨scope, listener, ready⟩ := inv.closed closed
    have queued := inv.placed.shut ready
    refine ⟨scope, listener, queued, fun unwound i lt => ?_⟩
    have mem := perm.mem_iff.mpr (List.mem_range.mpr lt)
    rw [unwound, queued, List.nil_append, List.nil_append] at mem
    exact List.mem_append.mp mem

/-- One session is delivered, one is queued, and `close` releases the queued one. -/
theorem permits_and_streams_closed : ∃ s, Runs.Reach (step .one) Runs.always (start .one) s ∧ s.Closed ∧
    s.streams.delivered = [0] ∧ s.streams.released = [1] ∧ s.streams.queued = [] := by
  have run : ((Runs.exec (step .one) (start .one)
      [.accept true, .loopRuns, .tcpAccepted, .handshake 0 (.request ⟨"/", none⟩), .callRuns 0 true,
        .loopRuns, .tcpAccepted, .handshake 1 (.request ⟨"/", none⟩), .close]).map fun s =>
      (s.closeCalled, s.streams.delivered, s.streams.released)) = some (true, [0], [1]) := by decide
  obtain ⟨s, exec, value⟩ := Option.map_eq_some_iff.mp run
  simp only [Prod.mk.injEq] at value
  have reach := Runs.reach_always_of_exec exec
  obtain ⟨-, -, -, -, closed⟩ := permits_and_streams reach
  exact ⟨s, reach, .inl value.1, value.2.1, value.2.2, (closed (.inl value.1)).2.2.1⟩

end WebSocketAcceptor

end MsgTrans
