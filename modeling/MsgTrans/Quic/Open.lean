import MsgTrans.Lib.Runs

/-!
# Opening a QUIC connection

Model of `QuicClientTransport.open` and `start` (`msgtrans/transport/QuicTransport.kt`): the staggered
connect over the resolved addresses of a host. `open` is a coroutine that runs from one suspension to the
next; beside it each started attempt has a racer that waits for its handshake and sends the outcome to the
channel `outcomes`. The interleaving of all of them is a list of events.

`outcomes` is unlimited, so a send never waits. kotlinx resumes a suspended coroutine by a dispatch: between
the send that hands an element to `outcomes.receive` and the moment `open` runs again, the stagger timer may
fire or `open` may be cancelled, and then the element is discarded. It is discarded as well when `open` takes
it under the timer after it was cancelled.

Times are left out: a timer may fire whenever it is armed. What a racer's `try` yields counts as the outcome
of its handshake, so a connect timeout is a failure. `neton.quic` is outside the repository: its calls
return or throw as the events say.
-/

namespace MsgTrans.Quic

/-- A resolved address; only its family is read. -/
structure SocketAddress where
  isIpv4 : Bool

/-- The local address an endpoint is bound to. -/
inductive LocalAddress where
  | ipv4UnspecifiedAnyPort
  | ipv6UnspecifiedAnyPort

/-- Where `open` connects to; `addresses` is what `lookupHost` returned. -/
structure Target where
  host : String
  port : Int
  addresses : List SocketAddress

namespace Target

/-- Kotlin `hostPort`. -/
def hostPort (t : Target) : String :=
  if t.host.contains ':' && !t.host.startsWith "[" then s!"[{t.host}]:{t.port}" else s!"{t.host}:{t.port}"

/-- The message of the `ConnectException`. -/
def connectFailed (t : Target) (failure : Option String) : String :=
  let reason := failure.getD "no address"
  s!"QUIC connect to {t.hostPort} failed: {reason}"

/-- A host with an IPv6 and an IPv4 address. -/
def localhost : Target := ⟨"localhost", 8443, [⟨false⟩, ⟨true⟩]⟩

end Target

/-- The outcome of a handshake; a failure carries the message of its exception, if it has one. -/
inductive Handshake where
  | success
  | failure (message : Option String)
deriving DecidableEq

/-- What `start` throws: an `Exception`, a `CancellationException`, or another `Throwable`. -/
inductive StartFailure where
  | exception (message : Option String)
  | cancellation
  | fatal
deriving DecidableEq

/-- How `open` ends. -/
inductive Ended where
  | returned (attempt : Nat)
  | connectException (message : String)
  | cancelled
  | startThrew (e : StartFailure)
  | openBiThrew
deriving DecidableEq

/-- Kotlin `Attempt`, with the address it was started for and the outcome its racer has reported. -/
structure Attempt where
  address : Nat
  endpoint : Nat
  outcome : Option Handshake

/-- The suspended `outcomes.receive`: waiting, resumed with an element, or resumed to throw because the
stagger timer or the caller cancelled it. -/
inductive Receive where
  | parked
  | resumed (attempt : Nat) (result : Handshake)
  | timedOut
  | cancelled
deriving DecidableEq

/-- Where `open` is. -/
inductive Pc where
  /-- at the head of the `while` loop -/
  | loop
  /-- in `Endpoint.client` for an address -/
  | creating (address : Nat)
  /-- in `connectWith` on a new endpoint -/
  | connecting (address endpoint : Nat)
  /-- in `outcomes.receive`, under the stagger timer or without it -/
  | receiving (timed : Bool) (receive : Receive)
  | openingBi (attempt : Nat)
  | ended (result : Ended)
deriving DecidableEq

/-- The state of one call of `open`. Endpoints are numbered in the order they were created, attempts in the
order they were started; `refused` lists the addresses whose `start` threw an `Exception`. -/
structure Opening where
  next : Nat
  running : Int
  attempts : List Attempt
  outcomes : List (Nat × Handshake)
  outcomesClosed : Bool
  failure : Option String
  winner : Option Nat
  endpoints : List LocalAddress
  closedEndpoints : List Nat
  closedConnections : List Nat
  refused : List Nat
  cancelled : Bool
  pc : Pc

/-- What can happen next. -/
inductive Event where
  /-- `open` runs to its next suspension -/
  | run
  /-- `Endpoint.client` returns or throws -/
  | client (result : Except StartFailure Unit)
  /-- `connectWith` returns or throws -/
  | connect (result : Except StartFailure Unit)
  /-- a racer has an outcome and sends it -/
  | report (attempt : Nat) (result : Handshake)
  /-- the stagger timer fires -/
  | timer
  /-- the caller cancels `open` -/
  | cancel
  /-- `openBi` returns (`true`) or throws -/
  | openBi (ok : Bool)

namespace Opening

/-- `open` after `lookupHost`. -/
def start : Opening where
  next := 0
  running := 0
  attempts := []
  outcomes := []
  outcomesClosed := false
  failure := none
  winner := none
  endpoints := []
  closedEndpoints := []
  closedConnections := []
  refused := []
  cancelled := false
  pc := .loop

/-- The attempts other than the winner, numbered. -/
def losers (s : Opening) : List (Attempt × Nat) :=
  s.attempts.zipIdx.filter fun a => decide (s.winner ≠ some a.2)

/-- The `finally` block. -/
def cleanUp (s : Opening) : Opening :=
  let late := s.outcomes.filter fun o => decide (s.winner ≠ some o.1 ∧ o.2 = .success)
  { s with
    outcomesClosed := true
    outcomes := []
    closedConnections := s.closedConnections ++ late.map Prod.fst
    closedEndpoints := s.closedEndpoints ++ s.losers.map fun a => a.1.endpoint }

/-- Leave the `try` block with what it threw. -/
def fail (e : Ended) (s : Opening) : Opening := { s.cleanUp with pc := .ended e }

/-- Leave the loop: the first lines after the `finally` block. -/
def leave (t : Target) (s : Opening) : Opening :=
  match s.winner with
  | some w => { s.cleanUp with pc := .openingBi w }
  | none => { s.cleanUp with pc := .ended (.connectException (t.connectFailed s.failure)) }

/-- `startNext` up to the call of `Endpoint.client`. -/
def startNext (s : Opening) : Opening := { s with next := s.next + 1, pc := .creating s.next }

/-- The `catch` clauses of `startNext`. -/
def startFailed (address : Nat) (e : StartFailure) (s : Opening) : Opening :=
  match e with
  | .exception message =>
    { s with failure := message, refused := s.refused ++ [address], pc := .loop }
  | .cancellation | .fatal => s.fail (.startThrew e)

/-- The last lines of the loop's body, for a received outcome. -/
def settle (attempt : Nat) (result : Handshake) (s : Opening) : Opening :=
  match result with
  | .success => { s with running := s.running - 1, winner := some attempt, pc := .loop }
  | .failure message => { s with running := s.running - 1, failure := message, pc := .loop }

section
variable (i : Nat) (r : Handshake) (s : Opening)

/-- A settled result brings the loop back to its start. -/
@[simp] lemma settle_pc : (s.settle i r).pc = .loop := by cases r <;> rfl

@[simp] lemma settle_attempts : (s.settle i r).attempts = s.attempts := by cases r <;> rfl

@[simp] lemma settle_outcomes : (s.settle i r).outcomes = s.outcomes := by cases r <;> rfl

@[simp] lemma settle_endpoints : (s.settle i r).endpoints = s.endpoints := by cases r <;> rfl

@[simp] lemma settle_closedEndpoints : (s.settle i r).closedEndpoints = s.closedEndpoints := by
  cases r <;> rfl

end

/-- `outcomes.receive`, under the stagger timer while addresses are left. -/
def receive (t : Target) (s : Opening) : Opening :=
  let timed := decide (s.next < t.addresses.length)
  match s.outcomes with
  | (attempt, result) :: rest =>
    -- the `withTimeoutOrNull` of a cancelled coroutine throws after its block has taken the element
    if timed && s.cancelled then { s with outcomes := rest, pc := .receiving timed .cancelled }
    else { s with outcomes := rest }.settle attempt result
  | [] =>
    -- a suspending call of a cancelled coroutine throws instead of waiting
    if s.cancelled then { s with pc := .receiving timed .cancelled }
    else { s with pc := .receiving timed .parked }

/-- One pass from the head of the loop to a suspension, or to the head again. -/
def runLoop (t : Target) (s : Opening) : Opening :=
  if s.winner.isSome then s.leave t
  else if s.running = 0 then
    if s.next = t.addresses.length then s.leave t else s.startNext
  else s.receive t

/-- `outcomes.trySend` and the line around it in a racer. -/
def trySend (attempt : Nat) (result : Handshake) (s : Opening) : Opening :=
  if s.outcomesClosed then
    if result = .success then { s with closedConnections := s.closedConnections ++ [attempt] } else s
  else
    match s.pc with
    | .receiving timed .parked => { s with pc := .receiving timed (.resumed attempt result) }
    | _ => { s with outcomes := s.outcomes ++ [(attempt, result)] }

/-- The local address for an endpoint that connects to `a`. -/
def localFor (a : SocketAddress) : LocalAddress :=
  if a.isIpv4 then .ipv4UnspecifiedAnyPort else .ipv6UnspecifiedAnyPort

/-- The state after an event, if the event can happen. -/
def step (t : Target) (s : Opening) : Event → Option Opening
  | .run =>
    match s.pc with
    | .loop => some (s.runLoop t)
    | .receiving _ (.resumed attempt result) => some (s.settle attempt result)
    | .receiving _ .timedOut => some s.startNext
    | .receiving _ .cancelled => some (s.fail .cancelled)
    | _ => none
  | .client result =>
    match s.pc, result with
    | .creating address, .ok _ =>
      t.addresses[address]?.map fun a =>
        { s with endpoints := s.endpoints ++ [localFor a], pc := .connecting address s.endpoints.length }
    | .creating address, .error e => some (s.startFailed address e)
    | _, _ => none
  | .connect result =>
    match s.pc, result with
    | .connecting address endpoint, .ok _ =>
      some { s with
        attempts := s.attempts ++ [⟨address, endpoint, none⟩], running := s.running + 1, pc := .loop }
    | .connecting address endpoint, .error e =>
      some ({ s with closedEndpoints := s.closedEndpoints ++ [endpoint] }.startFailed address e)
    | _, _ => none
  | .report attempt result =>
    match s.attempts[attempt]? with
    | some ⟨address, endpoint, none⟩ =>
      some ({ s with attempts := s.attempts.set attempt ⟨address, endpoint, some result⟩ }.trySend
        attempt result)
    | _ => none
  | .timer =>
    match s.pc with
    | .receiving true .parked | .receiving true (.resumed _ _) =>
      some { s with pc := .receiving true .timedOut }
    | _ => none
  | .cancel =>
    match s.pc with
    | .receiving timed _ => some { s with cancelled := true, pc := .receiving timed .cancelled }
    | _ => some { s with cancelled := true }
  | .openBi ok =>
    match s.pc with
    | .openingBi attempt =>
      if ok then some { s with pc := .ended (.returned attempt) }
      else some { s with
        closedConnections := s.closedConnections ++ [attempt]
        closedEndpoints :=
          s.closedEndpoints ++ (s.attempts[attempt]?.map Attempt.endpoint).toList
        pc := .ended .openBiThrew }
    | _ => none

/-! ## What a step can do -/

/-- The steps, one constructor for each way through the code. -/
inductive Move (t : Target) (s : Opening) : Event → Opening → Prop where
  | won {w} : s.pc = .loop → s.winner = some w → Move t s .run { s.cleanUp with pc := .openingBi w }
  | exhausted : s.pc = .loop → s.winner = none → s.running = 0 → s.next = t.addresses.length →
    Move t s .run { s.cleanUp with pc := .ended (.connectException (t.connectFailed s.failure)) }
  | starts : (s.pc = .loop ∧ s.winner = none) ∨ (∃ timed, s.pc = .receiving timed .timedOut) →
    Move t s .run s.startNext
  | takes {i r rest} : s.pc = .loop → s.winner = none → s.outcomes = (i, r) :: rest →
    Move t s .run ({ s with outcomes := rest }.settle i r)
  | takesCancelled {timed i r rest} : s.pc = .loop → s.winner = none → s.cancelled →
    s.outcomes = (i, r) :: rest →
    Move t s .run { s with outcomes := rest, pc := .receiving timed .cancelled }
  | parks {timed} : s.pc = .loop → s.winner = none → s.running ≠ 0 → s.outcomes = [] →
    Move t s .run { s with pc := .receiving timed .parked }
  | parksCancelled {timed} : s.pc = .loop → s.winner = none → s.cancelled →
    Move t s .run { s with pc := .receiving timed .cancelled }
  | receives {timed i r} : s.pc = .receiving timed (.resumed i r) → Move t s .run (s.settle i r)
  | stops {timed} : s.pc = .receiving timed .cancelled → Move t s .run (s.fail .cancelled)
  | creates {k a} : s.pc = .creating k → t.addresses[k]? = some a →
    Move t s (.client (.ok ()))
      { s with endpoints := s.endpoints ++ [localFor a], pc := .connecting k s.endpoints.length }
  | createRefused {k m} : s.pc = .creating k →
    Move t s (.client (.error (.exception m)))
      { s with failure := m, refused := s.refused ++ [k], pc := .loop }
  | createThrows {k err} : s.pc = .creating k → (∀ m, err ≠ .exception m) →
    Move t s (.client (.error err)) (s.fail (.startThrew err))
  | connects {k e} : s.pc = .connecting k e →
    Move t s (.connect (.ok ()))
      { s with attempts := s.attempts ++ [⟨k, e, none⟩], running := s.running + 1, pc := .loop }
  | connectRefused {k e m} : s.pc = .connecting k e →
    Move t s (.connect (.error (.exception m)))
      { s with
        closedEndpoints := s.closedEndpoints ++ [e], failure := m, refused := s.refused ++ [k]
        pc := .loop }
  | connectThrows {k e err} : s.pc = .connecting k e → (∀ m, err ≠ .exception m) →
    Move t s (.connect (.error err))
      ({ s with closedEndpoints := s.closedEndpoints ++ [e] }.fail (.startThrew err))
  | reportsLate {i r k e connections} : s.attempts[i]? = some ⟨k, e, none⟩ → s.outcomesClosed →
    Move t s (.report i r)
      { s with attempts := s.attempts.set i ⟨k, e, some r⟩, closedConnections := connections }
  | reportsHand {i r k e timed} : s.attempts[i]? = some ⟨k, e, none⟩ → s.outcomesClosed = false →
    s.pc = .receiving timed .parked →
    Move t s (.report i r)
      { s with attempts := s.attempts.set i ⟨k, e, some r⟩, pc := .receiving timed (.resumed i r) }
  | reportsQueue {i r k e} : s.attempts[i]? = some ⟨k, e, none⟩ → s.outcomesClosed = false →
    (∀ timed, s.pc ≠ .receiving timed .parked) →
    Move t s (.report i r)
      { s with attempts := s.attempts.set i ⟨k, e, some r⟩, outcomes := s.outcomes ++ [(i, r)] }
  | expires : s.pc = .receiving true .parked →
    Move t s .timer { s with pc := .receiving true .timedOut }
  | discards {i r} : s.pc = .receiving true (.resumed i r) →
    Move t s .timer { s with pc := .receiving true .timedOut }
  | cancelsReceive {timed receive} : s.pc = .receiving timed receive →
    Move t s .cancel { s with cancelled := true, pc := .receiving timed .cancelled }
  | cancels : (∀ timed receive, s.pc ≠ .receiving timed receive) →
    Move t s .cancel { s with cancelled := true }
  | opens {i} : s.pc = .openingBi i → Move t s (.openBi true) { s with pc := .ended (.returned i) }
  | openFails {i} : s.pc = .openingBi i →
    Move t s (.openBi false) { s with
      closedConnections := s.closedConnections ++ [i]
      closedEndpoints := s.closedEndpoints ++ (s.attempts[i]?.map Attempt.endpoint).toList
      pc := .ended .openBiThrew }

variable {t : Target} {s s' : Opening} {e : Event}

/-- `receive` is a move. -/
lemma receive_move (pc : s.pc = .loop) (racing : s.winner = none) (busy : s.running ≠ 0) :
    Move t s .run (s.receive t) := by
  unfold receive
  dsimp only
  split
  next queued =>
    split_ifs with late
    · exact .takesCancelled pc racing (Bool.and_eq_true_iff.mp late).2 queued
    · exact .takes pc racing queued
  next queued =>
    split
    next flag => exact .parksCancelled pc racing flag
    next => exact .parks pc racing busy queued

/-- A turn of the loop is a move. -/
lemma runLoop_move (pc : s.pc = .loop) : Move t s .run (s.runLoop t) := by
  unfold runLoop leave
  cases decided : s.winner with
  | some w => exact .won pc decided
  | none =>
    simp only [Option.isSome_none, Bool.false_eq_true, if_false]
    split_ifs with idle done
    · exact .exhausted pc decided idle done
    · exact .starts (.inl ⟨pc, decided⟩)
    · exact receive_move pc decided idle

/-- The report of an attempt is a move. -/
lemma report_move {i k n : Nat} {r : Handshake} (found : s.attempts[i]? = some ⟨k, n, none⟩) :
    Move t s (.report i r)
      ({ s with attempts := s.attempts.set i ⟨k, n, some r⟩ }.trySend i r) := by
  unfold trySend
  split
  next closed =>
    split
    next => exact .reportsLate found closed
    next => exact .reportsLate found closed
  next opened =>
    have opened : s.outcomesClosed = false := by simpa using opened
    split
    next pc => exact .reportsHand found opened pc
    next other => exact .reportsQueue found opened other

/-- Every step is one of the moves. -/
theorem step_move (st : step t s e = some s') : Move t s e s' := by
  cases e with
  | run =>
    simp only [step] at st
    split at st
    next pc => cases st; exact runLoop_move pc
    next pc => cases st; exact .receives pc
    next pc => cases st; exact .starts (.inr ⟨_, pc⟩)
    next pc => cases st; exact .stops pc
    next => cases st
  | client result =>
    simp only [step] at st
    split at st
    next pc =>
      obtain ⟨a, found, eq⟩ := Option.map_eq_some_iff.mp st
      cases eq
      exact .creates pc found
    next k err pc =>
      cases st
      cases err with
      | exception m => exact .createRefused pc
      | cancellation | fatal => exact .createThrows pc (by simp)
    next => cases st
  | connect result =>
    simp only [step] at st
    split at st
    next pc => cases st; exact .connects pc
    next k n err pc =>
      cases st
      cases err with
      | exception m => exact .connectRefused pc
      | cancellation | fatal => exact .connectThrows pc (by simp)
    next => cases st
  | report i r =>
    simp only [step] at st
    split at st
    next found => cases st; exact report_move found
    next => cases st
  | timer =>
    simp only [step] at st
    split at st
    next pc => cases st; exact .expires pc
    next pc => cases st; exact .discards pc
    next => cases st
  | cancel =>
    simp only [step] at st
    split at st
    next pc => cases st; exact .cancelsReceive pc
    next other => cases st; exact .cancels other
  | openBi ok =>
    simp only [step] at st
    split at st
    next pc =>
      cases ok with
      | true => cases st; exact .opens pc
      | false => cases st; exact .openFails pc
    next => cases st

end Opening

end MsgTrans.Quic
