import MsgTrans.Lib.Jobs
import MsgTrans.Transport.Inbound

/-!
# The server

Model of `TransportServer` (`msgtrans/transport/Transport.kt`) and of the life of the connections it
accepts: `startConnection`, `Connection.start`, and the end of `Connection.shutdown` (`onClose` and
`onShutdown`). Every connection is an endpoint (`Endpoint.lean`) with a job of its own.

Job `[]` is the server's scope, job `[n]` the `SupervisorJob` of connection `n`, and its children are the
write loop, the handler loop, the read loop and the coroutines that the application launches on the
connection. The jobs are kotlinx's: a coroutine that is cancelled before it is dispatched does not run at
all, and a job is complete when it is cancelled and its children are over. `withContext` runs its block
unless the calling coroutine is cancelled first.

Accepting is arbitrary: connections are accepted at any time, also while others are being configured, as
on several reactors. The calls of the application in `onConnection` are events of their own.
-/

namespace MsgTrans

open Jobs (Job)

/-- The coroutines of a connection: the loops, and those that the application launches. -/
inductive Child where
  | writer
  | handler
  | reader
  | extra (k : Nat)
deriving DecidableEq, Repr

/-- The coroutine's number among the children of the connection's job. -/
def Child.number : Child → Nat
  | .writer => 0
  | .handler => 1
  | .reader => 2
  | .extra k => 3 + k

/-- Coroutines of one connection have different numbers. -/
lemma Child.number_inj {a b : Child} (same : a.number = b.number) : a = b := by
  cases a <;> cases b <;> simp [number] at same <;> first | rfl | omega | exact congrArg _ same

/-- A coroutine of a connection: not launched, launched, dispatched, over by itself, or cancelled before
it was dispatched. -/
inductive Launch where
  | absent
  | launched
  | entered
  | finished
  | skipped
deriving DecidableEq, Repr

/-- Where `startConnection` is: in `onConnection`, in `conn.close()` after `onConnection` has thrown (a
`CancellationException` or another exception), or it has returned the job, returned null, or thrown. -/
inductive Starter where
  | configuring
  | closing (cancellation : Bool)
  | started
  | refused
  | threw
deriving DecidableEq, Repr

/-- An accepted connection. `registered` tells that a close handler was set while the connection was
open; the counters are the calls of the stream's `close`, of the close handler and of `onShutdown`. -/
structure Served where
  endpoint : Endpoint
  starter : Starter := .configuring
  callerCancelled : Bool := false
  writer : Launch := .absent
  handler : Launch := .absent
  reader : Launch := .absent
  extras : List Launch := []
  closeHandler : Bool := false
  registered : Bool := false
  streamCloses : Nat := 0
  closeHandlerCalls : Nat := 0
  onShutdownCalls : Nat := 0

/-- The server: whether its acceptor spreads the connections over reactors, the connections in the order
in which they were accepted, and the cancelled jobs. -/
structure Server where
  spreading : Bool
  accepted : Nat := 0
  conns : Nat → Served
  cancelled : List Job := []
  loopEnded : Bool := false

/-- What happens to one connection. -/
inductive ServedEvent where
  /-- the application sets a close handler -/
  | onClose
  /-- the application launches a coroutine -/
  | launch
  /-- `onConnection` has returned, and `start` runs -/
  | start
  /-- `onConnection` has thrown -/
  | refuse (cancellation : Bool)
  /-- the block of `conn.close()` runs -/
  | close
  /-- the coroutine that runs `startConnection` is cancelled -/
  | cancelCaller
  /-- `conn.close()` throws, since its caller is cancelled -/
  | closeCancelled
  /-- a launched coroutine is dispatched -/
  | enter (child : Child)
  /-- the write loop is cancelled at its suspension -/
  | writerCancelled
  /-- an application's coroutine is over -/
  | extraOver (k : Nat)
  /-- a coroutine, or one below it, ends with an exception that nothing catches -/
  | fails (below : Job) (child : Child)
  | endpoint (e : EndpointEvent)
deriving DecidableEq, Repr

/-- What happens at the server. -/
inductive ServerEvent where
  | accept
  /-- `acceptor.accept()` throws -/
  | acceptFails
  | cancelScope
  | served (n : Nat) (e : ServedEvent)
deriving DecidableEq, Repr

namespace Server

/-- The supervisors: the jobs of the connections. -/
def supervisor (job : Job) : Bool := job.length = 1

/-- A bound server, before it accepts. -/
def new (env : Env) (spreading : Bool) : Server :=
  { spreading, conns := fun _ => { endpoint := .new env } }

/-- The job is cancelled. -/
def isCancelled (s : Server) (job : Job) : Bool := Jobs.cancelled s.cancelled job

/-- Change connection `n`. -/
def set (n : Nat) (c : Served) (s : Server) : Server :=
  { s with conns := Function.update s.conns n c }

end Server

namespace Served

/-- The end of `shutdown`, if it has run in this step: the stream is closed, the close handler is called
and forgotten, and `onShutdown` is called. -/
def shutDown (opened : Bool) (c : Served) : Served :=
  if c.endpoint.conn.closed && opened then
    { c with
      streamCloses := c.streamCloses + 1
      closeHandlerCalls := c.closeHandlerCalls + if c.closeHandler then 1 else 0
      closeHandler := false
      onShutdownCalls := c.onShutdownCalls + 1 }
  else c

/-- The endpoint has moved. -/
def follow (x : Endpoint) (c : Served) : Served :=
  { c with endpoint := x }.shutDown (!c.endpoint.conn.closed)

/-- `start`: the write loop is launched in CHANNEL mode only. -/
def start (env : Env) (c : Served) : Served :=
  { c with
    starter := .started
    writer := if env.config.writeMode = .channel then .launched else .absent
    handler := .launched
    reader := .launched }

/-- `launch` on the connection's scope. -/
def launch (c : Served) : Served := { c with extras := c.extras ++ [.launched] }

/-- A child is dispatched, with its job cancelled or not. -/
def dispatched (cancelled : Bool) : Launch := if cancelled then .skipped else .entered

/-- The state of a coroutine. -/
def child (c : Served) : Child → Launch
  | .writer => c.writer
  | .handler => c.handler
  | .reader => c.reader
  | .extra k => c.extras.getD k .absent

/-- Change the state of a coroutine. -/
def setChild (l : Launch) (c : Served) : Child → Served
  | .writer => { c with writer := l }
  | .handler => { c with handler := l }
  | .reader => { c with reader := l }
  | .extra k => { c with extras := c.extras.set k l }

/-- The coroutine is over; a loop that runs is over with the endpoint's. -/
def finished (c : Served) (child : Child) : Bool :=
  match c.child child with
  | .absent | .finished | .skipped => true
  | .launched => false
  | .entered =>
    match child with
    | .writer => c.endpoint.conn.writeLoop = .ended
    | .handler => c.endpoint.handlerLoop = .ended
    | .reader => c.endpoint.readLoop = .ended
    | .extra _ => false

/-- The successors of cancelled writers are children of the job, too. One that was launched and is
cancelled does not run. -/
def successorsOver (c : Served) : Bool :=
  (List.range c.endpoint.conn.next).all fun i =>
    match (c.endpoint.conn.calls i).kind, (c.endpoint.conn.calls i).pc with
    | .successor, .launched | .successor, .ended _ => true
    | .successor, _ => false
    | _, _ => true

end Served

/-- The loop whose coroutine makes the event. -/
def Event.loop : Event → Option Child
  | .loopRun | .loopTransmit _ | .loopWrite _ | .loopFlush _ => some .writer
  | _ => none

/-- The loop whose coroutine makes the event. -/
def EndpointEvent.loop : EndpointEvent → Option Child
  | .read _ | .readFails | .decode | .emitted | .offered => some .reader
  | .receive | .received | .handled _ | .handlerFails | .answered => some .handler
  | .conn e => e.loop
  | .onRequest | .cancel _ | .onCancelled _ => none

namespace Server

/-- The coroutine that makes the event can run: a loop's has been dispatched, a launched successor is not
cancelled, and only a cancelled loop is cancelled in its queue. -/
def permits (n : Nat) (e : EndpointEvent) (s : Server) : Bool :=
  match e.loop, e with
  | some k, _ => (s.conns n).child k = .entered
  | none, .conn (.dispatch i) =>
    ((s.conns n).endpoint.conn.calls i).pc ≠ .launched || !s.isCancelled [n]
  | none, .cancel .producer => s.isCancelled [Child.reader.number, n]
  | none, .cancel .consumer => s.isCancelled [Child.handler.number, n]
  | none, _ => true

/-- Connection `n` is now `c`; if its `onShutdown` was called, its scope is cancelled. -/
def settle (n : Nat) (c : Served) (s : Server) : Server :=
  if c.onShutdownCalls = (s.conns n).onShutdownCalls then s.set n c
  else { s.set n c with cancelled := Jobs.cancel [n] s.cancelled }

/-- A coroutine whose job can fail: it is over, or one below it fails, which only the application's
coroutines have. -/
def mayFail (below : Job) (child : Child) (c : Served) : Bool :=
  (c.child child = .entered || c.child child = .finished) &&
    match below, child with
    | [], _ => c.finished child
    | _ :: _, .extra _ => true
    | _ :: _, _ => false

/-- One step of connection `n`; `none` when the event cannot happen in this state. -/
def stepServed (env : Env) (s : Server) (n : Nat) : ServedEvent → Option Server
  | .onClose =>
    let c := s.conns n
    some (s.set n { c with
      closeHandler := true, registered := c.registered || !c.endpoint.conn.closed })
  | .launch => some (s.set n (s.conns n).launch)
  | .start =>
    if (s.conns n).starter = .configuring then some (s.set n ((s.conns n).start env)) else none
  | .refuse cancellation =>
    -- `connScope.cancel()`, and then `conn.close()`
    if (s.conns n).starter = .configuring then
      some { s.set n { s.conns n with starter := .closing cancellation } with
        cancelled := Jobs.cancel [n] s.cancelled }
    else none
  | .close =>
    match (s.conns n).starter with
    | .closing cancellation =>
      ((s.conns n).endpoint.step env (.conn .shutdown)).map fun x =>
        { s.settle n { (s.conns n).follow x with
            starter := if cancellation then .threw else .refused } with
          loopEnded := s.loopEnded || cancellation }
    | _ => none
  | .cancelCaller => some (s.set n { s.conns n with callerCancelled := true })
  | .closeCancelled =>
    match (s.conns n).starter with
    | .closing _ =>
      if (s.conns n).callerCancelled then
        some { s.set n { s.conns n with starter := .threw } with loopEnded := true }
      else none
    | _ => none
  | .enter child =>
    if (s.conns n).child child = .launched then
      some (s.set n
        ((s.conns n).setChild (Served.dispatched (s.isCancelled [child.number, n])) child))
    else none
  | .writerCancelled =>
    if (s.conns n).writer = .entered ∧ s.isCancelled [Child.writer.number, n] then
      some (s.set n { s.conns n with writer := .finished })
    else none
  | .extraOver k =>
    if (s.conns n).child (.extra k) = .entered then
      some (s.set n ((s.conns n).setChild .finished (.extra k)))
    else none
  | .fails below child =>
    if mayFail below child (s.conns n) then
      some { s with cancelled := Jobs.fail supervisor (below ++ [child.number, n]) s.cancelled }
    else none
  | .endpoint e =>
    if s.permits n e then
      ((s.conns n).endpoint.step env e).map fun x => s.settle n ((s.conns n).follow x)
    else none

/-- One step of the server; `none` when the event cannot happen in this state. -/
def step (env : Env) (s : Server) : ServerEvent → Option Server
  | .accept =>
    if s.spreading || !s.loopEnded then some { s with accepted := s.accepted + 1 } else none
  | .acceptFails => some { s with loopEnded := true }
  | .cancelScope => some { s with cancelled := Jobs.cancel [] s.cancelled }
  | .served n e => if n < s.accepted then s.stepServed env n e else none

/-- The job of connection `n` is complete, so that its `join` returns. -/
def completed (s : Server) (n : Nat) : Bool :=
  s.isCancelled [n] && (s.conns n).finished .writer && (s.conns n).finished .handler &&
    (s.conns n).finished .reader && (List.range (s.conns n).extras.length).all
      (fun k => (s.conns n).finished (.extra k)) && (s.conns n).successorsOver

end Server

namespace Endpoint

variable {env : Env} {e : EndpointEvent} {x x' : Endpoint}

/-! ## The end of the loops -/

/-- A closed connection stays closed, whatever its endpoint does. -/
lemma step_closed (h : x.step env e = some x') (closed : x.conn.closed = true) :
    x'.conn.closed = true := by
  rcases (step_reads h).conn with moved | ⟨_, _, _, st⟩
  · exact moved.closed closed
  · exact Conn.step_closed st closed

/-- A loop ends only with the connection closed. -/
structure Ends (x : Endpoint) : Prop where
  reader : x.readLoop = .ended → x.conn.closed = true
  handler : x.handlerLoop = .ended → x.conn.closed = true

/-- A read loop that ends in `inboundRequests.send` has shut the connection down. -/
lemma Sends.ended {packet : Packet} {q : ReactorQueue Packet} (sends : Sends packet q x')
    (ended : x'.readLoop = .ended) : x'.conn.closed = true := by
  cases sends with
  | done _ _ _ place | parked _ _ _ place => simp [place] at ended
  | throws _ _ _ _ closed => exact closed

/-- A read loop that ends has shut the connection down. -/
lemma Reads.ended {packet : Option Packet} (h : Reads env x e x' packet)
    (ended : x'.readLoop = .ended) : x.readLoop = .ended ∨ x'.conn.closed = true := by
  cases h with
  | aside _ same => exact .inl (same ▸ ended)
  | turn _ _ _ _ running => exact absurd ended running
  | ends _ _ _ closed => exact .inr closed
  | fault _ _ _ _ conn => exact .inr (by rw [conn, Conn.shutdown_closed])
  | response _ _ _ _ _ place _ | emits _ _ _ _ _ place _ => simp [place] at ended
  | offers _ _ _ _ sends _ | offered _ _ _ _ _ sends => exact .inr (sends.ended ended)

/-- The `finally` block of the handler loop shuts the connection down. -/
lemma endHandler_closed (x : Endpoint) : x.endHandler.conn.closed = true := by
  rw [endHandler, withConn_conn, Conn.shutdown_closed]

/-- The read loop's `send` does not move the handler loop. -/
lemma afterSend_handlerLoop (q : ReactorQueue Packet) (x : Endpoint) :
    (x.afterSend q).handlerLoop = x.handlerLoop := by
  unfold afterSend
  split
  case h_1 =>
    split
    case isTrue => rfl
    case isFalse => exact withConn_handlerLoop _ _
  case h_2 => rfl

/-- A handler loop that ends in `receive` has shut the connection down. -/
lemma afterReceive_ended (q : ReactorQueue Packet) (x : Endpoint) :
    (x.afterReceive q).handlerLoop ≠ .ended ∨ (x.afterReceive q).conn.closed = true := by
  unfold afterReceive
  split
  case h_1 =>
    split
    case h_1 => exact .inl (by simp)
    case h_2 => exact .inr (endHandler_closed _)
  case h_2 => exact .inl (by simp)

/-- Decoding does not move the handler loop. -/
lemma decode_handlerLoop (h : x.decode env = some x') : x'.handlerLoop = x.handlerLoop := by
  obtain ⟨_, h⟩ := Option.ite_none_right_eq_some.mp h
  split at h
  case h_1 =>
    cases h
    exact withConn_handlerLoop _ _
  case h_2 =>
    cases h
    rfl
  case h_3 =>
    dsimp only at h
    split at h
    case isFalse =>
      cases h
      exact withConn_handlerLoop _ _
    case isTrue =>
      unfold onPacket at h
      split at h
      case h_1 =>
        cases h
        exact withConn_handlerLoop _ _
      case h_2 =>
        split at h
        case h_1 =>
          obtain ⟨conn, _, rfl⟩ := Option.map_eq_some_iff.mp h
          exact withConn_handlerLoop _ _
        case h_2 =>
          obtain ⟨q, _, rfl⟩ := Option.map_eq_some_iff.mp h
          exact afterSend_handlerLoop _ _
        case h_3 =>
          cases h
          rfl

/-- What a step does to the handler loop. -/
lemma step_handlerLoop (h : x.step env e = some x') :
    x'.handlerLoop = x.handlerLoop ∨ x'.handlerLoop ≠ .ended ∨ x'.conn.closed = true := by
  cases e with
  | conn ev =>
    obtain ⟨_, h⟩ := Option.ite_none_left_eq_some.mp h
    obtain ⟨conn, _, rfl⟩ := Option.map_eq_some_iff.mp h
    exact .inl (withConn_handlerLoop _ _)
  | onRequest =>
    cases h
    exact .inl rfl
  | read chunk | emitted =>
    obtain ⟨_, h⟩ := Option.ite_none_right_eq_some.mp h
    cases h
    exact .inl rfl
  | readFails =>
    obtain ⟨_, h⟩ := Option.ite_none_right_eq_some.mp h
    cases h
    exact .inl (withConn_handlerLoop _ _)
  | decode => exact .inl (decode_handlerLoop h)
  | offered =>
    obtain ⟨_, h⟩ := Option.ite_none_right_eq_some.mp h
    obtain ⟨q, _, rfl⟩ := Option.map_eq_some_iff.mp h
    exact .inl (afterSend_handlerLoop _ _)
  | cancel side | onCancelled side =>
    obtain ⟨q, _, rfl⟩ := Option.map_eq_some_iff.mp h
    exact .inl rfl
  | receive | received =>
    obtain ⟨_, h⟩ := Option.ite_none_right_eq_some.mp h
    obtain ⟨q, _, rfl⟩ := Option.map_eq_some_iff.mp h
    exact .inr (afterReceive_ended _ _)
  | handled response =>
    simp only [step] at h
    split at h
    case h_1 =>
      unfold respond at h
      split at h
      case h_1 => cases h
      case h_2 =>
        obtain ⟨_, h⟩ := Option.ite_none_right_eq_some.mp h
        obtain ⟨conn, _, rfl⟩ := Option.map_eq_some_iff.mp h
        rw [withConn_handlerLoop]
        exact .inr (.inl (by simp))
    case h_2 => cases h
  | handlerFails =>
    simp only [step] at h
    split at h <;> cases h
    exact .inr (.inr (endHandler_closed _))
  | answered =>
    simp only [step] at h
    split at h
    case h_1 =>
      split at h
      case h_1 =>
        cases h
        exact .inr (.inl (by simp))
      case h_2 =>
        cases h
        exact .inr (.inr (endHandler_closed _))
      case h_3 => cases h
    case h_2 => cases h

/-- Every step of an endpoint keeps it so. -/
lemma Ends.step (ends : Ends x) (h : x.step env e = some x') : Ends x' where
  reader ended := by
    rcases (step_reads h).ended ended with before | closed
    · exact step_closed h (ends.reader before)
    · exact closed
  handler ended := by
    rcases step_handlerLoop h with same | running | closed
    · exact step_closed h (ends.handler (same ▸ ended))
    · exact absurd ended running
    · exact closed

/-- In every run a loop ends only with the connection closed. -/
lemma Ends.reach (run : Runs.Reach (Endpoint.step env) Runs.always (.new env) x) : Ends x :=
  run.invariant ⟨by simp [Endpoint.new], by simp [Endpoint.new]⟩ fun _ _ _ ends _ st => ends.step st

end Endpoint

/-! ## The counters and the coroutines of a connection -/

namespace Served

variable {env : Env} {c : Served} {x : Endpoint} {j k : Child} {l : Launch}

/-- `shutdown` closes the stream and calls `onShutdown` once, and the close handler if it was set by
then. -/
structure Counted (c : Served) : Prop where
  closes : c.streamCloses = if c.endpoint.conn.closed then 1 else 0
  shutdowns : c.onShutdownCalls = c.streamCloses
  calls : c.closeHandlerCalls = if c.endpoint.conn.closed && c.registered then 1 else 0
  handler : c.endpoint.conn.closed = false → c.closeHandler = c.registered

/-- The endpoint moves; the counters follow. -/
lemma Counted.follow (h : Counted c) (still : c.endpoint.conn.closed = true → x.conn.closed = true) :
    Counted (c.follow x) := by
  obtain ⟨closes, shutdowns, calls, handler⟩ := h
  unfold Served.follow shutDown
  cases before : c.endpoint.conn.closed with
  | true =>
    have after := still before
    rw [before] at closes calls
    exact ⟨by simp [after, closes], by simp [shutdowns], by simp [after, calls], by simp [after]⟩
  | false =>
    rw [before] at closes calls
    have set := handler before
    cases after : x.conn.closed with
    | true =>
      refine ⟨by simp [after, closes], by simp [shutdowns], ?_, by simp [after]⟩
      simp [after, calls, set]
    | false =>
      exact ⟨by simp [after, closes], by simp [shutdowns], by simp [after, calls],
        by simp [after, set]⟩

/-- The endpoint moves; everything but the counters stays. -/
lemma follow_rest (x : Endpoint) (c : Served) : (c.follow x).endpoint = x ∧
    (c.follow x).starter = c.starter ∧ (c.follow x).callerCancelled = c.callerCancelled ∧
    (∀ k, (c.follow x).child k = c.child k) := by
  unfold Served.follow shutDown
  split <;> exact ⟨rfl, rfl, rfl, fun _ => rfl⟩

/-- `onShutdown` has been called if the connection has been closed. -/
lemma follow_shutdowns (h : Counted c)
    (still : c.endpoint.conn.closed = true → x.conn.closed = true) :
    (c.follow x).onShutdownCalls = c.onShutdownCalls ↔
      (x.conn.closed = true → c.endpoint.conn.closed = true) := by
  have after := h.follow still
  rw [after.shutdowns, after.closes, h.shutdowns, h.closes, (follow_rest x c).1]
  cases before : c.endpoint.conn.closed <;> cases now : x.conn.closed <;> simp_all

/-- The coroutine that was set. -/
lemma child_setChild (present : c.child j ≠ .absent) : (c.setChild l j).child j = l := by
  cases j with
  | writer | handler | reader => rfl
  | extra k =>
    simp only [child, setChild, List.getD_eq_getElem?_getD] at present ⊢
    have lt : k < c.extras.length := by
      by_contra out
      rw [List.getElem?_eq_none (by omega)] at present
      exact present rfl
    simp [lt]

/-- The other coroutines stay. -/
lemma child_setChild_of_ne (ne : j ≠ k) : (c.setChild l k).child j = c.child j := by
  cases k <;> cases j <;> first
    | rfl
    | exact absurd rfl ne
    | skip
  case extra.extra k j =>
    have other : k ≠ j := fun eq => ne (by rw [eq])
    simp only [child, setChild, List.getD_eq_getElem?_getD, List.getElem?_set_ne other]

/-- A new coroutine is one that was not there. -/
lemma child_launch (k : Child) : c.launch.child k = c.child k ∨
    c.launch.child k = .launched ∧ c.child k = .absent ∧ ∃ i, k = .extra i := by
  cases k with
  | extra i =>
    simp only [child, launch, List.getD_eq_getElem?_getD]
    rcases Nat.lt_trichotomy i c.extras.length with lt | rfl | gt
    · exact .inl (by rw [List.getElem?_append_left lt])
    · exact .inr ⟨by simp, by simp, _, rfl⟩
    · refine .inl ?_
      rw [List.getElem?_eq_none (by simp; omega), List.getElem?_eq_none (by omega)]
  | _ => exact .inl rfl

/-- Setting a coroutine touches nothing else of the connection. -/
lemma setChild_rest (l : Launch) (c : Served) (k : Child) : (c.setChild l k).endpoint = c.endpoint ∧
    (c.setChild l k).starter = c.starter ∧ (c.setChild l k).callerCancelled = c.callerCancelled ∧
    (Counted c → Counted (c.setChild l k)) := by
  cases k <;> exact ⟨rfl, rfl, rfl, fun h => { h with }⟩

end Served

/-- The loops of a connection. -/
def Child.loops : Child → Bool
  | .extra _ => false
  | _ => true

/-- The loops whose `finally` block is `shutdown`. -/
def Child.closes : Child → Bool
  | .handler | .reader => true
  | _ => false

/-- `startConnection` gives the connection up. -/
def Starter.refuses : Starter → Bool
  | .closing _ | .refused | .threw => true
  | .configuring | .started => false

namespace Server

open Jobs (cancelled_cancel)

variable {env : Env} {s s' : Server} {m n : Nat} {roots : List Job} {root : Job} {c c' : Served}

/-! ## What every step keeps -/

/-- The coroutine has been dispatched. -/
def Ran (c : Served) (k : Child) : Prop := c.child k = .entered ∨ c.child k = .finished

/-- What holds of connection `n`, with the jobs `roots` cancelled. -/
structure Sound (env : Env) (roots : List Job) (n : Nat) (c : Served) : Prop where
  endpoint : Runs.Reach (Endpoint.step env) Runs.always (.new env) c.endpoint
  counted : c.Counted
  cancels : c.endpoint.conn.closed = true → Jobs.cancelled roots [n] = true
  cause : Jobs.cancelled roots [n] = true → Jobs.cancelled roots [] = true ∨
    c.endpoint.conn.closed = true ∨ c.starter.refuses = true
  refused : c.starter = .refused → c.endpoint.conn.closed = true
  threw : c.starter = .threw → c.endpoint.conn.closed = true ∨ c.callerCancelled = true
  absent : c.starter ≠ .started → ∀ k : Child, k.loops = true → c.child k = .absent
  launched : c.starter = .started → ∀ k : Child, k.closes = true → c.child k ≠ .absent
  runs : ∀ k : Child, k.closes = true → c.child k ≠ .finished
  skipped : ∀ k, c.child k = .skipped → Jobs.cancelled roots [n] = true

namespace Sound

/-- A connection that is not accepted yet. -/
lemma new (env : Env) (n : Nat) : Sound env [] n { endpoint := .new env } where
  endpoint := .start
  counted := ⟨rfl, rfl, rfl, fun _ => rfl⟩
  cancels closed := by cases closed
  cause cancelled := by cases cancelled
  refused eq := by cases eq
  threw eq := by cases eq
  absent _ k loop := by
    cases k with
    | extra i => cases loop
    | _ => rfl
  launched eq := by cases eq
  runs k _ := by cases k <;> simp [Served.child]
  skipped k skipped := by cases k <;> simp [Served.child] at skipped

/-- Another job is cancelled. -/
lemma cancel (h : Sound env roots n c) (cause : root <:+ [n] → root = [] ∨
    c.endpoint.conn.closed = true ∨ c.starter.refuses = true) :
    Sound env (Jobs.cancel root roots) n c where
  endpoint := h.endpoint
  counted := h.counted
  cancels closed := cancelled_cancel.mpr (.inr (h.cancels closed))
  cause cancelled := by
    rcases cancelled_cancel.mp cancelled with below | before
    · rcases cause below with rfl | why
      · exact .inl (cancelled_cancel.mpr (.inl List.suffix_rfl))
      · exact .inr why
    · exact (h.cause before).imp_left fun scope => cancelled_cancel.mpr (.inr scope)
  refused := h.refused
  threw := h.threw
  absent := h.absent
  launched := h.launched
  runs := h.runs
  skipped k skipped := cancelled_cancel.mpr (.inr (h.skipped k skipped))

/-- The endpoint makes a step. -/
lemma follow {e : EndpointEvent} {x : Endpoint} {roots' : List Job} (h : Sound env roots n c)
    (st : c.endpoint.step env e = some x)
    (grows : Jobs.cancelled roots [n] = true → Jobs.cancelled roots' [n] = true)
    (cancels : x.conn.closed = true → Jobs.cancelled roots' [n] = true)
    (cause : Jobs.cancelled roots' [n] = true → Jobs.cancelled roots' [] = true ∨
      x.conn.closed = true ∨ c.starter.refuses = true) : Sound env roots' n (c.follow x) := by
  have still := Endpoint.step_closed st
  obtain ⟨endpoint, starter, caller, child⟩ := Served.follow_rest x c
  refine ⟨?_, h.counted.follow still, ?_, ?_, ?_, ?_, ?_, ?_, ?_, ?_⟩
  · rw [endpoint]
    exact h.endpoint.next trivial st
  · rwa [endpoint]
  · rwa [endpoint, starter]
  · rw [endpoint, starter]
    exact fun refused => still (h.refused refused)
  · rw [endpoint, starter, caller]
    exact fun threw => (h.threw threw).imp_left still
  · rw [starter]
    intro other k loop
    rw [child]
    exact h.absent other k loop
  · rw [starter]
    intro started k loop
    rw [child]
    exact h.launched started k loop
  · intro k loop
    rw [child]
    exact h.runs k loop
  · intro k skipped
    rw [child] at skipped
    exact grows (h.skipped k skipped)

/-- If the endpoint has been closed in a step, `onShutdown` cancels the connection's job. -/
lemma settles {e : EndpointEvent} {x : Endpoint} (h : Sound env roots n c)
    (st : c.endpoint.step env e = some x) :
    ((c.follow x).onShutdownCalls = c.onShutdownCalls → Sound env roots n (c.follow x)) ∧
      ((c.follow x).onShutdownCalls ≠ c.onShutdownCalls →
        Sound env (Jobs.cancel [n] roots) n (c.follow x)) := by
  have still := Endpoint.step_closed st
  rw [Ne, Served.follow_shutdowns h.counted still]
  refine ⟨fun same => ?_, fun shut => ?_⟩
  · refine h.follow st id (fun closed => h.cancels (same closed)) fun cancelled => ?_
    exact (h.cause cancelled).imp_right (Or.imp_left still)
  · have closed : x.conn.closed = true := by
      by_contra opened
      exact shut fun closed => absurd closed opened
    exact h.follow st (fun before => cancelled_cancel.mpr (.inr before))
      (fun _ => cancelled_cancel.mpr (.inl List.suffix_rfl)) fun _ => .inr (.inl closed)

/-- `startConnection` has closed the connection it gives up. -/
lemma giveUp {starter : Starter} (h : Sound env roots n c) (closed : c.endpoint.conn.closed = true)
    (before : c.starter ≠ .started) (refuses : starter.refuses = true) :
    Sound env roots n { c with starter } where
  endpoint := h.endpoint
  counted := { h.counted with }
  cancels := h.cancels
  cause _ := .inr (.inl closed)
  refused _ := closed
  threw _ := .inl closed
  absent _ := h.absent before
  launched started := by
    rw [show starter = .started from started] at refuses
    cases refuses
  runs := h.runs
  skipped := h.skipped

/-- A coroutine is dispatched or ends. -/
lemma setChild {l : Launch} {k : Child} (h : Sound env roots n c) (present : c.child k ≠ .absent)
    (runs : l ≠ .absent) (finished : l = .finished → k.closes = false)
    (skipped : l = .skipped → Jobs.cancelled roots [n] = true) :
    Sound env roots n (c.setChild l k) := by
  obtain ⟨endpoint, starter, caller, counted⟩ := Served.setChild_rest l c k
  have child : ∀ j, (c.setChild l k).child j = if j = k then l else c.child j := by
    intro j
    split
    case isTrue eq =>
      subst eq
      exact Served.child_setChild present
    case isFalse ne => exact Served.child_setChild_of_ne ne
  -- a loop is present only after `start`
  have started : k.loops = true → c.starter = .started := by
    intro loop
    by_contra other
    exact present (h.absent other k loop)
  refine ⟨endpoint ▸ h.endpoint, counted h.counted, endpoint ▸ h.cancels, ?_, ?_, ?_, ?_, ?_, ?_, ?_⟩
  · rw [endpoint, starter]
    exact h.cause
  · rw [endpoint, starter]
    exact h.refused
  · rw [endpoint, starter, caller]
    exact h.threw
  · rw [starter]
    intro other j loop
    rw [child]
    split
    case isTrue eq => exact absurd (started (eq ▸ loop)) other
    case isFalse => exact h.absent other j loop
  · rw [starter]
    intro started j loop
    rw [child]
    split
    case isTrue => exact runs
    case isFalse => exact h.launched started j loop
  · intro j loop
    rw [child]
    split
    case isTrue eq =>
      intro ended
      rw [eq, finished ended] at loop
      cases loop
    case isFalse => exact h.runs j loop
  · intro j
    rw [child]
    split
    case isTrue => exact skipped
    case isFalse => exact h.skipped j

end Sound

/-- Why a job is among the cancelled ones: it is the scope, the job of a connection, or a coroutine of a
connection that has run, or one below it. -/
inductive Root (conns : Nat → Served) : Job → Prop where
  | scope : Root conns []
  | conn (n : Nat) : Root conns [n]
  | child {n : Nat} {k : Child} {job : Job} :
    [k.number, n] <:+ job → Ran (conns n) k → Root conns job

/-- The jobs at or above a connection are its own and the scope. -/
lemma suffix_singleton (below : root <:+ [n]) : root = [] ∨ root = [n] := by
  rcases List.suffix_cons_iff.mp below with eq | below
  · exact .inr eq
  · exact .inl (List.suffix_nil.mp below)

/-- What a failure in a connection cancels is below the connection's supervisor. -/
lemma failure_below (n : Nat) (child : Child) (below : Job) :
    [child.number, n] <:+ Jobs.blame supervisor (below ++ [child.number, n]) :=
  Jobs.blame_below rfl (List.suffix_append _ _)

/-- What holds of a server. -/
structure Inv (env : Env) (s : Server) : Prop where
  conns : ∀ n, Sound env s.cancelled n (s.conns n)
  roots : ∀ root ∈ s.cancelled, Root s.conns root

namespace Inv

/-- A new server. -/
lemma new (env : Env) (spreading : Bool) : Inv env (new env spreading) where
  conns n := .new env n
  roots root mem := by cases mem

/-- A reason for a cancelled job stays one, since coroutines that have run stay so. -/
lemma root_set (ran : ∀ k, Ran (s.conns n) k → Ran c k) (h : Root s.conns root) :
    Root (Function.update s.conns n c) root := by
  cases h with
  | scope => exact .scope
  | conn n => exact .conn n
  | @child m k _ below before =>
    refine .child below ?_
    by_cases eq : m = n
    · subst eq
      rw [Function.update_self]
      exact ran k before
    · rwa [Function.update_of_ne eq]

/-- Connection `n` changes, and perhaps a job is cancelled. -/
lemma set {roots : List Job} (inv : Inv env s) (set : s'.conns = Function.update s.conns n c)
    (cancelled : s'.cancelled = roots)
    (more : roots = s.cancelled ∨ roots = Jobs.cancel [n] s.cancelled) (sound : Sound env roots n c)
    (ran : ∀ k, Ran (s.conns n) k → Ran c k) : Inv env s' where
  conns m := by
    rw [set, cancelled]
    by_cases eq : m = n
    · subst eq
      rwa [Function.update_self]
    · rw [Function.update_of_ne eq]
      rcases more with rfl | rfl
      · exact inv.conns m
      · refine (inv.conns m).cancel fun below => ?_
        rcases suffix_singleton below with empty | same
        · cases empty
        · cases same
          exact absurd rfl eq
  roots root mem := by
    rw [set]
    rw [cancelled] at mem
    rcases more with rfl | rfl
    · exact root_set ran (inv.roots root mem)
    · rcases List.mem_cons.mp mem with rfl | mem
      · exact .conn n
      · exact root_set ran (inv.roots root mem)

/-- A coroutine that has not run is cancelled only with its connection. -/
lemma cancelled_child {k : Child} (inv : Inv env s) (fresh : (s.conns n).child k = .launched)
    (cancelled : s.isCancelled [k.number, n] = true) : s.isCancelled [n] = true := by
  obtain ⟨root, mem, below⟩ := Jobs.cancelled_iff.mp cancelled
  rcases List.suffix_cons_iff.mp below with rfl | above
  · -- the root is the coroutine itself, which then has run
    cases inv.roots _ mem with
    | child same ran =>
      have eq := same.eq_of_length_le (by simp)
      simp only [List.cons.injEq, and_true] at eq
      obtain ⟨number, rfl⟩ := eq
      rw [Child.number_inj number] at ran
      rcases ran with ran | ran <;> simp [fresh] at ran
  · exact Jobs.cancelled_iff.mpr ⟨root, mem, above⟩

/-- A connection goes on, and its scope is cancelled if `onShutdown` was called. -/
lemma settle (inv : Inv env s) (ran : ∀ k, Ran (s.conns n) k → Ran c k)
    (same : c.onShutdownCalls = (s.conns n).onShutdownCalls → Sound env s.cancelled n c)
    (shut : c.onShutdownCalls ≠ (s.conns n).onShutdownCalls →
      Sound env (Jobs.cancel [n] s.cancelled) n c) : Inv env (s.settle n c) := by
  unfold Server.settle
  split
  case isTrue eq => exact inv.set rfl rfl (.inl rfl) (same eq) ran
  case isFalse ne => exact inv.set rfl rfl (.inr rfl) (shut ne) ran

/-- The coroutines that have run, have. -/
lemma ran_follow (x : Endpoint) (k : Child) (ran : Ran c k) : Ran (c.follow x) k := by
  unfold Ran
  rwa [(Served.follow_rest x c).2.2.2 k]

/-- A coroutine that has run stays one that has run. -/
lemma ran_setChild {l : Launch} {j : Child} (h : Ran c j → l = .entered ∨ l = .finished)
    (present : c.child j ≠ .absent) (k : Child) (ran : Ran c k) : Ran (c.setChild l j) k := by
  unfold Ran
  by_cases eq : k = j
  · subst eq
    rw [Served.child_setChild present]
    exact h ran
  · rwa [Served.child_setChild_of_ne eq]

/-- `conn.close()` closes the endpoint. -/
lemma shutdown_closed {x x' : Endpoint} (h : x.step env (.conn .shutdown) = some x') :
    x'.conn.closed = true := by
  simp only [Endpoint.step] at h
  obtain ⟨_, h⟩ := Option.ite_none_left_eq_some.mp h
  obtain ⟨conn, st, rfl⟩ := Option.map_eq_some_iff.mp h
  cases st
  rw [Endpoint.withConn_conn, Conn.shutdown_closed]

/-- A coroutine of a connection fails; its supervisor keeps the failure from everything else. -/
lemma fails {below : Job} {child : Child} (inv : Inv env s)
    (may : mayFail below child (s.conns n) = true) :
    Inv env { s with cancelled := Jobs.fail supervisor (below ++ [child.number, n]) s.cancelled } := by
  have blamed := failure_below n child below
  refine ⟨fun m => (inv.conns m).cancel fun above => ?_, fun root mem => ?_⟩
  · have short := (blamed.trans above).length_le
    simp at short
  · rcases List.mem_cons.mp mem with rfl | mem
    · refine .child blamed ?_
      simp only [mayFail, Bool.and_eq_true, Bool.or_eq_true, decide_eq_true_eq] at may
      exact may.1
    · exact inv.roots root mem

/-- Every step of a connection keeps the invariant. -/
theorem stepServed {e : ServedEvent} (inv : Inv env s) (st : s.stepServed env n e = some s') :
    Inv env s' := by
  have own := inv.conns n
  cases e with
  | onClose =>
    cases st
    refine inv.set rfl rfl (.inl rfl) ?_ fun _ ran => ran
    refine { own with counted := { own.counted with calls := ?_, handler := fun opened => ?_ } }
    · rw [own.counted.calls]
      cases (s.conns n).endpoint.conn.closed <;> simp
    · simp [show (s.conns n).endpoint.conn.closed = false from opened]
  | launch =>
    cases st
    refine inv.set rfl rfl (.inl rfl) ?_ fun k ran => ?_
    · refine { own with
        counted := { own.counted with }
        absent := fun other k loop => ?_
        launched := fun started k loop => ?_
        runs := fun k loop => ?_
        skipped := fun k skipped => ?_ }
      -- a launched coroutine is no loop, and it takes a place that was absent
      · rcases Served.child_launch k with same | ⟨_, _, i, rfl⟩
        · exact same.trans (own.absent other k loop)
        · cases loop
      · rcases Served.child_launch (c := s.conns n) k with same | ⟨new, _⟩
        · exact same ▸ own.launched started k loop
        · simp [new]
      · rcases Served.child_launch (c := s.conns n) k with same | ⟨new, _⟩
        · exact same ▸ own.runs k loop
        · simp [new]
      · rcases Served.child_launch k with same | ⟨new, _⟩
        · exact own.skipped k (same ▸ skipped)
        · simp [new] at skipped
    · unfold Ran
      rcases Served.child_launch k with same | ⟨_, none, _⟩
      · rwa [same]
      · rcases ran with ran | ran <;> simp [none] at ran
  | start =>
    obtain ⟨configuring, st⟩ := Option.ite_none_right_eq_some.mp st
    cases st
    -- before `start` there are no loops, so what has run is an extra coroutine
    have absent := own.absent (by simp [configuring])
    refine inv.set rfl rfl (.inl rfl) ?_ fun k ran => ?_
    · refine { own with
        counted := { own.counted with }
        cause := fun cancelled => ?_
        refused := fun eq => by cases eq
        threw := fun eq => by cases eq
        absent := fun other => absurd rfl other
        launched := fun _ k loop => ?_
        runs := fun k loop => ?_
        skipped := fun k skipped => ?_ }
      · refine (own.cause cancelled).imp_right (Or.imp_right fun refuses => ?_)
        rw [configuring] at refuses
        cases refuses
      · cases k <;> simp [Child.closes, Served.child, Served.start] at loop ⊢
      · cases k <;> simp [Child.closes, Served.child, Served.start] at loop ⊢
      · cases k with
        | extra i => exact own.skipped (.extra i) skipped
        | writer =>
          simp only [Served.child, Served.start] at skipped
          split at skipped <;> cases skipped
        | handler | reader => cases skipped
    · cases k with
      | extra i => exact ran
      | writer => rcases ran with ran | ran <;> simp [absent .writer rfl] at ran
      | handler => rcases ran with ran | ran <;> simp [absent .handler rfl] at ran
      | reader => rcases ran with ran | ran <;> simp [absent .reader rfl] at ran
  | refuse cancellation =>
    obtain ⟨configuring, st⟩ := Option.ite_none_right_eq_some.mp st
    cases st
    refine inv.set rfl rfl (.inr rfl) ?_ fun _ ran => ran
    have absent := own.absent (by simp [configuring])
    have before : Sound env s.cancelled n { s.conns n with starter := .closing cancellation } :=
      { own with
        counted := { own.counted with }
        cause := fun _ => .inr (.inr rfl)
        refused := fun eq => by cases eq
        threw := fun eq => by cases eq
        absent := fun _ => absent
        launched := fun eq => by cases eq }
    exact before.cancel fun _ => .inr (.inr rfl)
  | close =>
    simp only [Server.stepServed] at st
    split at st
    case h_1 cancellation closing =>
      obtain ⟨x, moved, rfl⟩ := Option.map_eq_some_iff.mp st
      obtain ⟨endpoint, starter, _, _⟩ := Served.follow_rest x (s.conns n)
      have closed : ((s.conns n).follow x).endpoint.conn.closed = true := by
        rw [endpoint]
        exact shutdown_closed moved
      have before : ((s.conns n).follow x).starter ≠ .started := by
        rw [starter, closing]
        simp
      have refuses : (if cancellation then Starter.threw else .refused).refuses = true := by
        cases cancellation <;> rfl
      have settled : Inv env (s.settle n { (s.conns n).follow x with
          starter := if cancellation then .threw else .refused }) := by
        -- the connection may be closed already
        refine inv.settle (ran_follow x) (fun same => ?_) fun shut => ?_
        · exact ((own.settles moved).1 same).giveUp closed before refuses
        · exact ((own.settles moved).2 shut).giveUp closed before refuses
      exact ⟨settled.conns, settled.roots⟩
    case h_2 => cases st
  | cancelCaller =>
    cases st
    refine inv.set rfl rfl (.inl rfl) ?_ fun _ ran => ran
    exact { own with counted := { own.counted with }, threw := fun _ => .inr rfl }
  | closeCancelled =>
    simp only [Server.stepServed] at st
    split at st
    case h_1 cancellation closing =>
      obtain ⟨cancelled, st⟩ := Option.ite_none_right_eq_some.mp st
      cases st
      refine inv.set rfl rfl (.inl rfl) ?_ fun _ ran => ran
      exact { own with
        counted := { own.counted with }
        cause := fun _ => .inr (.inr rfl)
        refused := fun eq => by cases eq
        threw := fun _ => .inr cancelled
        absent := fun _ => own.absent (by simp [closing])
        launched := fun eq => by cases eq }
    case h_2 => cases st
  | enter child =>
    obtain ⟨launched, st⟩ := Option.ite_none_right_eq_some.mp st
    cases st
    have present : (s.conns n).child child ≠ .absent := by simp [launched]
    refine inv.set rfl rfl (.inl rfl) (own.setChild present ?_ ?_ ?_) (ran_setChild ?_ present)
    · unfold Served.dispatched
      split <;> simp
    · unfold Served.dispatched
      split <;> simp
    · unfold Served.dispatched
      split
      case isTrue cancelled => exact fun _ => inv.cancelled_child launched cancelled
      case isFalse => simp
    · rintro (ran | ran) <;> simp [launched] at ran
  | writerCancelled =>
    obtain ⟨⟨entered, _⟩, st⟩ := Option.ite_none_right_eq_some.mp st
    cases st
    have present : (s.conns n).child .writer ≠ .absent := by simp [Served.child, entered]
    refine inv.set (c := (s.conns n).setChild .finished .writer) rfl rfl (.inl rfl)
      (own.setChild present (by simp) (fun _ => rfl) (by simp)) (ran_setChild (fun _ => .inr rfl) present)
  | extraOver k =>
    obtain ⟨entered, st⟩ := Option.ite_none_right_eq_some.mp st
    cases st
    have present : (s.conns n).child (.extra k) ≠ .absent := by simp [entered]
    exact inv.set rfl rfl (.inl rfl) (own.setChild present (by simp) (fun _ => rfl) (by simp))
      (ran_setChild (fun _ => .inr rfl) present)
  | fails below child =>
    obtain ⟨may, st⟩ := Option.ite_none_right_eq_some.mp st
    cases st
    exact inv.fails may
  | endpoint e =>
    obtain ⟨_, st⟩ := Option.ite_none_right_eq_some.mp st
    obtain ⟨x, moved, rfl⟩ := Option.map_eq_some_iff.mp st
    exact inv.settle (ran_follow x) (own.settles moved).1 (own.settles moved).2

/-- Every step of a server keeps the invariant. -/
lemma step {e : ServerEvent} (inv : Inv env s) (st : s.step env e = some s') : Inv env s' := by
  cases e with
  | accept =>
    obtain ⟨_, st⟩ := Option.ite_none_right_eq_some.mp st
    cases st
    exact { inv with }
  | acceptFails =>
    cases st
    exact { inv with }
  | cancelScope =>
    cases st
    refine ⟨fun n => (inv.conns n).cancel fun _ => .inl rfl, fun root mem => ?_⟩
    rcases List.mem_cons.mp mem with rfl | mem
    · exact .scope
    · exact inv.roots root mem
  | served n e =>
    obtain ⟨_, st⟩ := Option.ite_none_right_eq_some.mp st
    exact inv.stepServed st

/-- The invariant holds in every run. -/
lemma reach {spreading : Bool}
    (run : Runs.Reach (Server.step env) Runs.always (Server.new env spreading) s) : Inv env s :=
  run.invariant (new env spreading) fun _ _ _ inv _ st => inv.step st

end Inv

/-! ## What the end of a connection releases -/

/-- What a step of connection `n` can change: the connection, and what is cancelled below its job. -/
structure Local (n : Nat) (s s' : Server) : Prop where
  accepted : s'.accepted = s.accepted
  conns : ∃ c, s'.conns = Function.update s.conns n c
  cancelled : s'.cancelled = s.cancelled ∨ ∃ root, [n] <:+ root ∧ s'.cancelled = Jobs.cancel root s.cancelled

/-- What becomes of one connection is its own matter. -/
lemma settle_local (n : Nat) (c : Served) (s : Server) : Local n s (s.settle n c) := by
  unfold settle
  split
  case isTrue => exact ⟨rfl, ⟨c, rfl⟩, .inl rfl⟩
  case isFalse => exact ⟨rfl, ⟨c, rfl⟩, .inr ⟨[n], List.suffix_rfl, rfl⟩⟩

/-- A step of a connection changes that connection and cancels at or below its job. -/
lemma stepServed_local {e : ServedEvent} (st : s.stepServed env n e = some s') : Local n s s' := by
  cases e with
  | onClose | launch | cancelCaller =>
    cases st
    exact ⟨rfl, ⟨_, rfl⟩, .inl rfl⟩
  | start | enter | writerCancelled | extraOver =>
    obtain ⟨_, st⟩ := Option.ite_none_right_eq_some.mp st
    cases st
    exact ⟨rfl, ⟨_, rfl⟩, .inl rfl⟩
  | refuse cancellation =>
    obtain ⟨_, st⟩ := Option.ite_none_right_eq_some.mp st
    cases st
    exact ⟨rfl, ⟨_, rfl⟩, .inr ⟨[n], List.suffix_rfl, rfl⟩⟩
  | close =>
    simp only [stepServed] at st
    split at st
    case h_1 =>
      obtain ⟨x, _, rfl⟩ := Option.map_eq_some_iff.mp st
      obtain ⟨accepted, conns, cancelled⟩ := settle_local n _ s
      exact ⟨accepted, conns, cancelled⟩
    case h_2 => cases st
  | closeCancelled =>
    simp only [stepServed] at st
    split at st
    case h_1 =>
      obtain ⟨_, st⟩ := Option.ite_none_right_eq_some.mp st
      cases st
      exact ⟨rfl, ⟨_, rfl⟩, .inl rfl⟩
    case h_2 => cases st
  | fails below child =>
    obtain ⟨_, st⟩ := Option.ite_none_right_eq_some.mp st
    cases st
    have blamed := failure_below n child below
    refine ⟨rfl, ⟨s.conns n, by simp⟩, .inr ⟨_, ?_, rfl⟩⟩
    exact (List.suffix_cons child.number [n]).trans blamed
  | endpoint e =>
    obtain ⟨_, st⟩ := Option.ite_none_right_eq_some.mp st
    obtain ⟨x, _, rfl⟩ := Option.map_eq_some_iff.mp st
    exact settle_local n _ s

/-- Neither `accept` nor the coroutine that accepts fails, and what `onConnection` throws is no
`CancellationException`. -/
def calm : ServerEvent → Prop
  | .acceptFails | .served _ (.refuse true) | .served _ .cancelCaller => False
  | _ => True

/-- `startConnection` for connection `n` is not about to throw. -/
structure Calm (c : Served) : Prop where
  caller : c.callerCancelled = false
  starter : c.starter ≠ .closing true

/-- Following the endpoint leaves the starter calm. -/
lemma Calm.follow (h : Calm c) (x : Endpoint) : Calm (c.follow x) := by
  obtain ⟨_, starter, caller, _⟩ := Served.follow_rest x c
  exact ⟨caller ▸ h.caller, starter ▸ h.starter⟩

/-- The end of a connection does not end the accept loop. -/
lemma settle_calm (s : Server) (n : Nat) (c : Served) :
    (s.settle n c).loopEnded = s.loopEnded ∧ (s.settle n c).conns n = c := by
  unfold settle
  split <;> exact ⟨rfl, Function.update_self ..⟩

/-- A calm step of a connection does not end the accept loop. -/
lemma stepServed_calm {e : ServedEvent} (own : Calm (s.conns n)) (allowed : calm (.served n e))
    (st : s.stepServed env n e = some s') : s'.loopEnded = s.loopEnded ∧ Calm (s'.conns n) := by
  have set {c : Served} (h : Calm c) : (s.set n c).loopEnded = s.loopEnded ∧ Calm ((s.set n c).conns n) := by
    refine ⟨rfl, ?_⟩
    simpa only [Server.set, Function.update_self] using h
  cases e with
  | onClose | launch =>
    cases st
    exact set ⟨own.caller, own.starter⟩
  | cancelCaller => exact allowed.elim
  | start =>
    obtain ⟨_, st⟩ := Option.ite_none_right_eq_some.mp st
    cases st
    exact set ⟨own.caller, by simp [Served.start]⟩
  | refuse cancellation =>
    obtain ⟨_, st⟩ := Option.ite_none_right_eq_some.mp st
    cases st
    cases cancellation with
    | true => exact allowed.elim
    | false => exact set (c := { s.conns n with starter := .closing false }) ⟨own.caller, by simp⟩
  | close =>
    simp only [stepServed] at st
    split at st
    case h_1 cancellation closing =>
      obtain ⟨x, _, rfl⟩ := Option.map_eq_some_iff.mp st
      cases cancellation with
      | true => exact absurd closing own.starter
      | false =>
        obtain ⟨_, conn⟩ := settle_calm s n { (s.conns n).follow x with starter := .refused }
        refine ⟨by simp, ?_⟩
        simp only [Bool.false_eq_true, if_false, conn]
        exact ⟨(own.follow x).caller, by simp⟩
    case h_2 => cases st
  | closeCancelled =>
    simp only [stepServed] at st
    split at st
    case h_1 =>
      obtain ⟨cancelled, st⟩ := Option.ite_none_right_eq_some.mp st
      simp [own.caller] at cancelled
    case h_2 => cases st
  | enter child =>
    obtain ⟨_, st⟩ := Option.ite_none_right_eq_some.mp st
    cases st
    obtain ⟨_, starter, caller, _⟩ := Served.setChild_rest
      (Served.dispatched (s.isCancelled [child.number, n])) (s.conns n) child
    exact set ⟨caller ▸ own.caller, starter ▸ own.starter⟩
  | writerCancelled | extraOver =>
    obtain ⟨_, st⟩ := Option.ite_none_right_eq_some.mp st
    cases st
    exact set ⟨own.caller, own.starter⟩
  | fails below child =>
    obtain ⟨_, st⟩ := Option.ite_none_right_eq_some.mp st
    cases st
    exact ⟨rfl, own⟩
  | endpoint e =>
    obtain ⟨_, st⟩ := Option.ite_none_right_eq_some.mp st
    obtain ⟨x, _, rfl⟩ := Option.map_eq_some_iff.mp st
    obtain ⟨loop, conn⟩ := settle_calm s n ((s.conns n).follow x)
    rw [loop, conn]
    exact ⟨rfl, own.follow x⟩

/-- What holds as long as nothing happens to the coroutine that accepts: the loop goes on, and the
connections that are not accepted yet are new. -/
structure Serving (env : Env) (s : Server) : Prop where
  loop : s.loopEnded = false
  conns : ∀ n, Calm (s.conns n)
  scope : s.isCancelled [] = false
  new : ∀ n, s.accepted ≤ n → s.conns n = { endpoint := .new env }

namespace Serving

/-- A step of one connection cancels nothing above its job. -/
lemma scope_local (h : Local n s s') (before : s.isCancelled [] = false) : s'.isCancelled [] = false := by
  rcases h.cancelled with same | ⟨root, below, more⟩
  · rwa [isCancelled, same]
  · rw [isCancelled, more, Jobs.cancelled_cancel_apart, ← isCancelled]
    · exact before
    · intro above
      have short := (below.trans above).length_le
      simp at short

/-- A calm step keeps the server serving. -/
lemma step {e : ServerEvent} (h : Serving env s) (allowed : calm e) (kept : e ≠ .cancelScope)
    (st : s.step env e = some s') : Serving env s' := by
  cases e with
  | accept =>
    obtain ⟨_, st⟩ := Option.ite_none_right_eq_some.mp st
    cases st
    exact ⟨h.loop, h.conns, h.scope, fun n le => h.new n (Nat.le_of_succ_le le)⟩
  | acceptFails => exact allowed.elim
  | cancelScope => exact absurd rfl kept
  | served n e =>
    obtain ⟨known, st⟩ := Option.ite_none_right_eq_some.mp st
    obtain ⟨loop, own⟩ := stepServed_calm (h.conns n) allowed st
    have only := stepServed_local st
    obtain ⟨c, conns⟩ := only.conns
    refine ⟨loop.trans h.loop, fun m => ?_, scope_local only h.scope, fun m le => ?_⟩
    · by_cases eq : m = n
      · exact eq ▸ own
      · rw [conns, Function.update_of_ne eq]
        exact h.conns m
    · rw [only.accepted] at le
      rw [conns, Function.update_of_ne (by omega)]
      exact h.new m le

/-- In a calm run the server goes on serving. -/
lemma reach {spreading : Bool} (run : Runs.Reach (Server.step env)
    (fun _ e => calm e ∧ e ≠ .cancelScope) (Server.new env spreading) s) : Serving env s :=
  run.invariant ⟨rfl, fun _ => ⟨rfl, by simp [Server.new]⟩, rfl, fun _ _ => rfl⟩
    fun _ _ _ ih allowed st => ih.step allowed.1 allowed.2 st

end Serving

/-- The event is not one of connection `m`, and it is not the cancellation of the scope. -/
def apart (m : Nat) : ServerEvent → Prop
  | .served n _ => n ≠ m
  | .cancelScope => False
  | .accept | .acceptFails => True

/-- All that connection `m` depends on: its own state, and which of its jobs are cancelled. -/
def view (m : Nat) (s : Server) : Served × (Job → Bool) :=
  (s.conns m, fun below => s.isCancelled (below ++ [m]))

/-- The jobs of two connections are apart. -/
lemma not_below_other {job : Job} (ne : n ≠ m) (root_below : [n] <:+ root) : ¬ root <:+ job ++ [m] := by
  intro below
  have last := List.suffix_of_suffix_length_le (root_below.trans below) (List.suffix_append job [m]) (by simp)
  have eq := last.eq_of_length (by simp)
  simp at eq
  exact ne eq

/-- What the other connections do is not seen. -/
lemma step_apart {e : ServerEvent} (other : apart m e) (st : s.step env e = some s') :
    s'.view m = s.view m ∧ s.accepted ≤ s'.accepted := by
  cases e with
  | accept =>
    obtain ⟨_, st⟩ := Option.ite_none_right_eq_some.mp st
    cases st
    exact ⟨rfl, Nat.le_succ _⟩
  | acceptFails =>
    cases st
    exact ⟨rfl, le_rfl⟩
  | cancelScope => exact other.elim
  | served n e =>
    obtain ⟨_, st⟩ := Option.ite_none_right_eq_some.mp st
    obtain ⟨accepted, ⟨c, conns⟩, cancelled⟩ := stepServed_local st
    refine ⟨Prod.ext ?_ (funext fun below => ?_), accepted.ge⟩
    · simp only [view, conns]
      rw [Function.update_of_ne (Ne.symm other)]
    · simp only [view, isCancelled]
      rcases cancelled with same | ⟨root, root_below, more⟩
      · rw [same]
      · rw [more, Jobs.cancelled_cancel_apart (not_below_other other root_below)]

/-- Two servers that look alike to a connection do so after its own change. -/
lemma set_alike {t : Server} (alike : s.view m = t.view m) (c : Served) :
    (s.set m c).view m = (t.set m c).view m := by
  have jobs : (s.view m).2 = (t.view m).2 := congrArg Prod.snd alike
  refine Prod.ext ?_ jobs
  simp only [view, set, Function.update_self]

/-- Two servers that look alike to a connection do so after a cancellation. -/
lemma cancel_alike {t : Server} (alike : s.view m = t.view m) (root : Job) :
    view m { s with cancelled := Jobs.cancel root s.cancelled } =
      view m { t with cancelled := Jobs.cancel root t.cancelled } := by
  have conn : s.conns m = t.conns m := congrArg Prod.fst alike
  have jobs : (s.view m).2 = (t.view m).2 := congrArg Prod.snd alike
  refine Prod.ext conn (funext fun below => ?_)
  simp only [view, isCancelled, Jobs.cancelled, Jobs.cancel, List.any_cons]
  exact congrArg _ (congrFun jobs below)

/-- Two servers that look alike to a connection do so after its end. -/
lemma settle_alike {t : Server} (alike : s.view m = t.view m) (c : Served) :
    (s.settle m c).view m = (t.settle m c).view m := by
  have conn : s.conns m = t.conns m := congrArg Prod.fst alike
  unfold settle
  rw [conn]
  split
  case isTrue => exact set_alike alike c
  case isFalse => exact cancel_alike (set_alike alike c) [m]

/-- What a connection may do depends on what it sees. -/
lemma permits_alike {t : Server} (alike : s.view m = t.view m) (e : EndpointEvent) :
    s.permits m e = t.permits m e := by
  have conn : s.conns m = t.conns m := congrArg Prod.fst alike
  have job : s.isCancelled [m] = t.isCancelled [m] := congrFun (congrArg Prod.snd alike) []
  have child (k : Nat) : s.isCancelled [k, m] = t.isCancelled [k, m] :=
    congrFun (congrArg Prod.snd alike) [k]
  simp only [permits, conn, job, child]

/-- What connection `m` can do, and what it then sees, is a matter of what it sees. -/
lemma stepServed_alike {t : Server} {e : ServedEvent} (alike : s.view m = t.view m) :
    (s.stepServed env m e).map (view m) = (t.stepServed env m e).map (view m) := by
  have conn : s.conns m = t.conns m := congrArg Prod.fst alike
  have child (k : Nat) : s.isCancelled [k, m] = t.isCancelled [k, m] :=
    congrFun (congrArg Prod.snd alike) [k]
  cases e with
  | onClose | launch | cancelCaller =>
    simp only [stepServed, conn, Option.map_some]
    exact congrArg some (set_alike alike _)
  | start | enter | writerCancelled | extraOver =>
    simp only [stepServed, conn, child]
    split
    case isTrue => exact congrArg some (set_alike alike _)
    case isFalse => rfl
  | refuse cancellation =>
    simp only [stepServed, conn]
    split
    case isTrue => exact congrArg some (cancel_alike (set_alike alike _) [m])
    case isFalse => rfl
  | close =>
    simp only [stepServed, conn]
    split
    case h_1 =>
      simp only [Option.map_map]
      refine congrFun (congrArg _ (funext fun x => ?_)) _
      exact settle_alike alike _
    case h_2 => rfl
  | closeCancelled =>
    simp only [stepServed, conn]
    split
    case h_1 =>
      split
      case isTrue => exact congrArg some (set_alike alike _)
      case isFalse => rfl
    case h_2 => rfl
  | fails below k =>
    simp only [stepServed, conn]
    split
    case isTrue => exact congrArg some (cancel_alike alike _)
    case isFalse => rfl
  | endpoint e =>
    simp only [stepServed, conn, permits_alike alike e]
    split
    case isTrue =>
      simp only [Option.map_map]
      refine congrFun (congrArg _ (funext fun x => ?_)) _
      exact settle_alike alike _
    case isFalse => rfl

/-- Whatever the other connections do, and however their coroutines fail: what connection `m` can do
afterwards, and what comes of it, is what it could have done before. -/
theorem server_isolates {t : Server} (known : m < s.accepted)
    (run : Runs.Reach (step env) (fun _ e => apart m e) s t) (es : List ServedEvent) :
    (Runs.exec (step env) t (es.map (.served m))).map (view m) =
      (Runs.exec (step env) s (es.map (.served m))).map (view m) := by
  have seen : t.view m = s.view m ∧ m < t.accepted := by
    refine run.invariant (P := fun u => u.view m = s.view m ∧ m < u.accepted) ⟨rfl, known⟩
      fun u e u' ih other st => ?_
    obtain ⟨same, grows⟩ := step_apart other st
    exact ⟨same.trans ih.1, ih.2.trans_le grows⟩
  have form {e : ServerEvent} (mem : e ∈ es.map (.served m)) : ∃ own, e = .served m own := by
    obtain ⟨own, _, rfl⟩ := List.mem_map.mp mem
    exact ⟨own, rfl⟩
  refine Runs.exec_alike (P := fun u => m < u.accepted) ?_ ?_ seen.2 known seen.1
  · intro e mem u u' before st
    obtain ⟨own, rfl⟩ := form mem
    obtain ⟨_, st⟩ := Option.ite_none_right_eq_some.mp st
    rwa [(stepServed_local st).accepted]
  · intro e mem u u' left right alike
    obtain ⟨own, rfl⟩ := form mem
    simp only [step, left, right, if_true]
    exact stepServed_alike alike

/-- A coroutine of connection 1 fails and the connection is closed; connection 0 can do what it could. -/
theorem server_isolates_failure : ∃ s t, s.accepted = 2 ∧ (t.conns 1).streamCloses = 1 ∧
    (Runs.exec (step (.tight .inline)) t [.served 0 (.enter .reader)]).map (view 0) =
      (Runs.exec (step (.tight .inline)) s [.served 0 (.enter .reader)]).map (view 0) := by
  have run : ((Runs.exec (step (.tight .inline)) (new (.tight .inline) false)
      [.accept, .accept, .served 0 .start, .served 1 .start]).bind fun s =>
      (Runs.exec (step (.tight .inline)) s
        [.served 1 (.enter .reader), .served 1 (.endpoint .readFails), .served 1 (.fails [] .reader)]).map
      fun t => (s.accepted, (t.conns 1).streamCloses)) = some (2, 1) := by decide
  obtain ⟨s, _, rest⟩ := Option.bind_eq_some_iff.mp run
  obtain ⟨t, exec, facts⟩ := Option.map_eq_some_iff.mp rest
  simp only [Prod.mk.injEq] at facts
  have reach : Runs.Reach (step (.tight .inline)) (fun _ e => apart 0 e) s t :=
    Runs.reach_of_exec exec (.of_forall (by simp [apart]))
  exact ⟨s, t, facts.1, facts.2, server_isolates (by omega) reach [.enter .reader]⟩

end Server

end MsgTrans
