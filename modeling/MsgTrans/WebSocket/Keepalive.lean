import MsgTrans.Lib.Runs

/-!
# The keepalive and the end of a WebSocket session

Model of the coroutines of a `WebSocketPacketStream` (`WebSocketTransport.kt`) that run beside its reads
and writes: the keepalive of `startKeepalive`, the closing handshake of `close`, and `abort`, with the
clock, the fair `writeLock` they share with `write`, and the pongs, which count when `read` receives them
and not when they arrive.

Time passes in ticks. `step` does not say when a coroutine whose timer is due goes on: a run is
`Punctual slack` if time never moves more than `slack` past a due timer. A cancelled coroutine may take
any time to unwind.
-/

namespace MsgTrans

/-- `WebSocketTransportOptions`, as far as the keepalive reads it, with the checks of its `init`. -/
structure KeepaliveOptions where
  pingInterval : Option Nat
  pongTimeout : Nat
  pingInterval_pos : ∀ interval, pingInterval = some interval → 0 < interval
  pongTimeout_pos : 0 < pongTimeout

/-- An interval and a timeout of one tick, for runs on small inputs. -/
def KeepaliveOptions.quick : KeepaliveOptions := ⟨some 1, 1, by simp, Nat.one_pos⟩

/-- Kotlin `CLOSE_TIMEOUT`, in milliseconds. -/
def closeTimeout : Nat := 1000

/-- Who is in `writeLock.withLock`. -/
inductive LockUser where
  | write (n : Nat)
  | pinger
  | closer
deriving DecidableEq, Repr

/-- The coroutine of `startKeepalive`: `sent` is when the ping was due, `wake` when a delay is over. -/
inductive Pinger where
  | off
  | starting
  | delaying (wake : Nat)
  | pinging (sent : Nat)
  | waiting (sent wake : Nat)
  | ended
deriving DecidableEq, Repr

/-- The coroutine that `close` launches. -/
inductive Closer where
  | none
  | closing (deadline : Nat)
  | ended
deriving DecidableEq, Repr

/-- A session since the stream was started, at time 0. The head of `writeLock` holds the lock, the others
wait for it in their order; `arrived` counts the pongs that `read` has not received; `cancelled` is about
the job of the keepalive. -/
structure KeptSession where
  pinger : Pinger
  now : Nat := 0
  lastPong : Nat := 0
  arrived : Nat := 0
  closed : Bool := false
  aborts : Nat := 0
  cancelled : Bool := false
  closer : Closer := .none
  writeLock : List LockUser := []
  writes : Nat := 0
deriving DecidableEq, Repr

/-- What happens in one step. `closeReturns` is also the closing frame failing. -/
inductive KeepEvent where
  | tick
  | start
  | wake
  | pinged
  | pingFails
  | pingExpires
  | check
  | unwind
  | pongArrives
  | receivePong
  | close
  | closeReturns
  | closeExpires
  | writeEnters
  | writeLeaves (n : Nat)
deriving DecidableEq, Repr

namespace KeptSession

/-- `WebSocketPacketStream.start`. -/
def new (o : KeepaliveOptions) : KeptSession where
  pinger := if o.pingInterval.isSome then .starting else .off

/-- Kotlin `abort`; `scope.cancel()` cancels the keepalive. -/
def abort (s : KeptSession) : KeptSession :=
  { s with closed := true, aborts := s.aborts + 1, cancelled := true }

/-- The keepalive leaves its loop: it is out of the lock, and `finally` runs. -/
def endPinger (s : KeptSession) : KeptSession :=
  let out := { s with pinger := .ended, writeLock := s.writeLock.erase .pinger }
  if s.closed then out else out.abort

/-- The closing handshake is over: `finally` aborts whatever happened. -/
def endCloser (s : KeptSession) : KeptSession :=
  { s with closer := .ended, writeLock := s.writeLock.erase .closer }.abort

/-- Kotlin `close`. -/
def close (s : KeptSession) : KeptSession :=
  if s.closed then s
  else { s with
    closed := true
    cancelled := true
    closer := .closing (s.now + closeTimeout)
    writeLock := s.writeLock ++ [.closer] }

/-- One step of the keepalive that is not cancelled. -/
def stepPinger (o : KeepaliveOptions) (s : KeptSession) : Pinger → KeepEvent → Option KeptSession
  | .starting, .start => o.pingInterval.map fun interval => { s with pinger := .delaying (s.now + interval) }
  | .delaying wake, .wake =>
    if wake ≤ s.now then
      some { s with pinger := .pinging s.now, writeLock := s.writeLock ++ [.pinger] }
    else none
  | .pinging sent, .pinged =>
    if s.writeLock.head? = some .pinger then
      some { s with
        pinger := .waiting sent (s.now + o.pongTimeout)
        writeLock := s.writeLock.erase .pinger }
    else none
  | .pinging _, .pingFails => if s.writeLock.head? = some .pinger then some s.endPinger else none
  | .pinging sent, .pingExpires => if sent + o.pongTimeout ≤ s.now then some s.endPinger else none
  | .waiting sent wake, .check =>
    if wake ≤ s.now then
      if s.lastPong < sent then some s.endPinger
      else o.pingInterval.map fun interval => { s with pinger := .delaying (s.now + interval) }
    else none
  | _, _ => none

/-- The keepalive was cancelled and unwinds; one that was not dispatched before does not run at all. -/
def unwind (s : KeptSession) : Pinger → Option KeptSession
  | .off | .ended => none
  | .starting => some { s with pinger := .ended }
  | .delaying _ | .pinging _ | .waiting .. => some s.endPinger

/-- One step of a session. -/
def step (o : KeepaliveOptions) (s : KeptSession) : KeepEvent → Option KeptSession
  | .tick => some { s with now := s.now + 1 }
  | .unwind => if s.cancelled then s.unwind s.pinger else none
  | .pongArrives => some { s with arrived := s.arrived + 1 }
  | .receivePong =>
    if 0 < s.arrived then some { s with arrived := s.arrived - 1, lastPong := s.now } else none
  | .close => some s.close
  | .closeReturns =>
    match s.closer with
    | .closing _ => if s.writeLock.head? = some .closer then some s.endCloser else none
    | _ => none
  | .closeExpires =>
    match s.closer with
    | .closing deadline => if deadline ≤ s.now then some s.endCloser else none
    | _ => none
  | .writeEnters =>
    some { s with writeLock := s.writeLock ++ [.write s.writes], writes := s.writes + 1 }
  | .writeLeaves n =>
    if .write n ∈ s.writeLock then some { s with writeLock := s.writeLock.erase (.write n) } else none
  | e => if s.cancelled then none else s.stepPinger o s.pinger e

/-- When the keepalive goes on or gives up. -/
def pingerTimer (o : KeepaliveOptions) : Pinger → List Nat
  | .starting => [0]
  | .delaying wake | .waiting _ wake => [wake]
  | .pinging sent => [sent + o.pongTimeout]
  | .off | .ended => []

/-- The timers that somebody waits for. -/
def timers (o : KeepaliveOptions) (s : KeptSession) : List Nat :=
  (if s.cancelled then [] else pingerTimer o s.pinger) ++
    match s.closer with
    | .closing deadline => [deadline]
    | _ => []

/-- Time does not move more than `slack` past a timer. -/
def Punctual (o : KeepaliveOptions) (slack : Nat) (s : KeptSession) (e : KeepEvent) : Prop :=
  e = .tick → ∀ due ∈ s.timers o, s.now < due + slack

instance (o : KeepaliveOptions) (slack : Nat) (s : KeptSession) (e : KeepEvent) :
    Decidable (Punctual o slack s e) :=
  inferInstanceAs (Decidable (e = .tick → ∀ due ∈ s.timers o, s.now < due + slack))

/-! ## What a step does -/

/-- The keepalive goes on: from one place to another, in or out of the lock. -/
inductive Goes (o : KeepaliveOptions) (s : KeptSession) : Pinger → List LockUser → Prop where
  | start {interval : Nat} : s.pinger = .starting → o.pingInterval = some interval →
    Goes o s (.delaying (s.now + interval)) s.writeLock
  | wake {wake : Nat} : s.pinger = .delaying wake → wake ≤ s.now →
    Goes o s (.pinging s.now) (s.writeLock ++ [.pinger])
  | pinged {sent : Nat} : s.pinger = .pinging sent →
    Goes o s (.waiting sent (s.now + o.pongTimeout)) (s.writeLock.erase .pinger)
  | check {sent wake interval : Nat} : s.pinger = .waiting sent wake → sent ≤ s.lastPong →
    o.pingInterval = some interval → Goes o s (.delaying (s.now + interval)) s.writeLock

/-- Why the keepalive, not cancelled, ends. -/
inductive GivesUp (o : KeepaliveOptions) (s : KeptSession) : KeepEvent → Prop where
  | pingFails {sent : Nat} : s.pinger = .pinging sent → GivesUp o s .pingFails
  | pingExpires {sent : Nat} : s.pinger = .pinging sent → GivesUp o s .pingExpires
  | check {sent wake : Nat} : s.pinger = .waiting sent wake → wake ≤ s.now → s.lastPong < sent →
    GivesUp o s .check

/-- The steps by what they change. -/
inductive Moves (o : KeepaliveOptions) (s : KeptSession) : KeepEvent → KeptSession → Prop where
  | tick : Moves o s .tick { s with now := s.now + 1 }
  | goes {e : KeepEvent} {pinger : Pinger} {writeLock : List LockUser} : s.cancelled = false →
    e ≠ .tick → e ≠ .receivePong → Goes o s pinger writeLock → Moves o s e { s with pinger, writeLock }
  | givesUp {e : KeepEvent} : s.cancelled = false → GivesUp o s e → Moves o s e s.endPinger
  | neverStarted : s.cancelled = true → s.pinger = .starting →
    Moves o s .unwind { s with pinger := .ended }
  | unwind : s.cancelled = true → Moves o s .unwind s.endPinger
  | pongArrives : Moves o s .pongArrives { s with arrived := s.arrived + 1 }
  | receivePong : Moves o s .receivePong { s with arrived := s.arrived - 1, lastPong := s.now }
  | close : Moves o s .close s.close
  | closed {e : KeepEvent} {deadline : Nat} : e ≠ .tick → e ≠ .receivePong →
    s.closer = .closing deadline → Moves o s e s.endCloser
  | writeEnters : Moves o s .writeEnters
      { s with writeLock := s.writeLock ++ [.write s.writes], writes := s.writes + 1 }
  | writeLeaves {n : Nat} :
    Moves o s (.writeLeaves n) { s with writeLock := s.writeLock.erase (.write n) }

variable {o : KeepaliveOptions} {s s' t : KeptSession} {e : KeepEvent} {slack : Nat}

/-- A step of the keepalive's own is one of the moves. -/
lemma stepPinger_moves (going : s.cancelled = false) (st : s.stepPinger o s.pinger e = some s') :
    Moves o s e s' := by
  unfold stepPinger at st
  split at st
  case h_1 place =>
    obtain ⟨interval, some_, rfl⟩ := Option.map_eq_some_iff.mp st
    exact .goes going nofun nofun (.start place some_)
  case h_2 place =>
    obtain ⟨due, ⟨⟩⟩ := Option.ite_none_right_eq_some.mp st
    exact .goes going nofun nofun (.wake place due)
  case h_3 place =>
    obtain ⟨_, ⟨⟩⟩ := Option.ite_none_right_eq_some.mp st
    exact .goes going nofun nofun (.pinged place)
  case h_4 place =>
    obtain ⟨_, ⟨⟩⟩ := Option.ite_none_right_eq_some.mp st
    exact .givesUp going (.pingFails place)
  case h_5 place =>
    obtain ⟨_, ⟨⟩⟩ := Option.ite_none_right_eq_some.mp st
    exact .givesUp going (.pingExpires place)
  case h_6 place =>
    obtain ⟨due, st⟩ := Option.ite_none_right_eq_some.mp st
    split at st
    case isTrue missing =>
      cases st
      exact .givesUp going (.check place due missing)
    case isFalse answered =>
      obtain ⟨interval, some_, rfl⟩ := Option.map_eq_some_iff.mp st
      exact .goes going nofun nofun (.check place (Nat.not_lt.mp answered) some_)
  case h_7 => cases st

/-- Every step is one of the moves. -/
lemma step_moves (st : step o s e = some s') : Moves o s e s' := by
  unfold step at st
  split at st
  case h_1 =>
    cases st
    exact .tick
  case h_2 =>
    obtain ⟨cancelled, st⟩ := Option.ite_none_right_eq_some.mp st
    unfold unwind at st
    split at st
    case h_1 | h_2 => cases st
    case h_3 place =>
      cases st
      exact .neverStarted cancelled place
    case h_4 | h_5 | h_6 =>
      cases st
      exact .unwind cancelled
  case h_3 =>
    cases st
    exact .pongArrives
  case h_4 =>
    obtain ⟨_, ⟨⟩⟩ := Option.ite_none_right_eq_some.mp st
    exact .receivePong
  case h_5 =>
    cases st
    exact .close
  case h_6 | h_7 =>
    split at st
    case h_1 place =>
      obtain ⟨_, ⟨⟩⟩ := Option.ite_none_right_eq_some.mp st
      exact .closed nofun nofun place
    case h_2 => cases st
  case h_8 =>
    cases st
    exact .writeEnters
  case h_9 =>
    obtain ⟨_, ⟨⟩⟩ := Option.ite_none_right_eq_some.mp st
    exact .writeLeaves
  case h_10 =>
    split at st
    case isTrue => cases st
    case isFalse going => exact stepPinger_moves (Bool.eq_false_iff.mpr going) st

/-! ## The end of a session -/

/-- Where a session is in its life: open, in its closing handshake, or aborted. -/
inductive Phase : KeptSession → Prop where
  | opened {s : KeptSession} : s.closed = false → s.cancelled = false → s.aborts = 0 →
    s.closer = .none → s.pinger ≠ .ended → Phase s
  | closing {s : KeptSession} {deadline : Nat} : s.closed = true → s.cancelled = true → s.aborts = 0 →
    s.closer = .closing deadline → deadline ≤ s.now + closeTimeout → Phase s
  | aborted {s : KeptSession} : s.closed = true → s.cancelled = true → s.aborts = 1 →
    (∀ deadline, s.closer ≠ .closing deadline) → Phase s

namespace Phase

/-- A new session is open. -/
lemma new (o : KeepaliveOptions) : Phase (new o) := by
  refine .opened rfl rfl rfl rfl ?_
  unfold KeptSession.new
  split <;> simp

/-- Changes that are no one's end. -/
lemma keep (h : Phase s) (closed : s'.closed = s.closed) (cancelled : s'.cancelled = s.cancelled)
    (aborts : s'.aborts = s.aborts) (closer : s'.closer = s.closer) (later : s.now ≤ s'.now)
    (pinger : s.cancelled = false → s.pinger ≠ .ended → s'.pinger ≠ .ended) : Phase s' := by
  cases h with
  | opened a b c d e =>
    exact .opened (closed.trans a) (cancelled.trans b) (aborts.trans c) (closer.trans d) (pinger b e)
  | closing a b c d le =>
    exact .closing (closed.trans a) (cancelled.trans b) (aborts.trans c) (closer.trans d) (by omega)
  | aborted a b c d =>
    exact .aborted (closed.trans a) (cancelled.trans b) (aborts.trans c) (closer ▸ d)

/-- The end of the keepalive takes the session on in its life, or leaves it where it is. -/
lemma endPinger (h : Phase s) : Phase s.endPinger := by
  unfold KeptSession.endPinger
  cases h with
  | opened a _ c d _ =>
    rw [if_neg (Bool.eq_false_iff.mp a)]
    refine .aborted rfl rfl ?_ ?_
    · change s.aborts + 1 = 1
      rw [c]
    · change ∀ deadline, s.closer ≠ .closing deadline
      rw [d]
      exact nofun
  | closing a b c d le =>
    rw [if_pos a]
    exact .closing a b c d le
  | aborted a b c d =>
    rw [if_pos a]
    exact .aborted a b c d

/-- The end of the closing handshake aborts. -/
lemma endCloser {deadline : Nat} (h : Phase s) (place : s.closer = .closing deadline) :
    Phase s.endCloser := by
  refine .aborted rfl rfl ?_ nofun
  change s.aborts + 1 = 1
  cases h with
  | opened _ _ c _ _ => rw [c]
  | closing _ _ c _ _ => rw [c]
  | aborted _ _ _ d => exact absurd place (d deadline)

/-- `close` starts the closing handshake of an open session. -/
lemma close (h : Phase s) : Phase s.close := by
  unfold KeptSession.close
  cases h with
  | opened a _ c _ _ =>
    rw [if_neg (Bool.eq_false_iff.mp a)]
    exact .closing rfl rfl c rfl (Nat.le_refl _)
  | closing a b c d le =>
    rw [if_pos a]
    exact .closing a b c d le
  | aborted a b c d =>
    rw [if_pos a]
    exact .aborted a b c d

/-- A session goes on in its life. -/
lemma step (h : Phase s) (st : step o s e = some s') : Phase s' := by
  cases step_moves st with
  | tick => exact h.keep rfl rfl rfl rfl (Nat.le_succ _) fun _ => id
  | goes _ _ _ goes => exact h.keep rfl rfl rfl rfl (Nat.le_refl _) fun _ _ => by cases goes <;> nofun
  | givesUp | unwind => exact h.endPinger
  | neverStarted cancelled =>
    refine h.keep rfl rfl rfl rfl (Nat.le_refl _) fun going => ?_
    rw [cancelled] at going
    cases going
  | close => exact h.close
  | closed _ _ place => exact h.endCloser place
  | pongArrives | receivePong | writeEnters | writeLeaves =>
    exact h.keep rfl rfl rfl rfl (Nat.le_refl _) fun _ => id

/-- Along a run a session goes on in its life. -/
lemma reach {ok : KeptSession → KeepEvent → Prop} (run : Runs.Reach (KeptSession.step o) ok s t)
    (h : Phase s) : Phase t :=
  run.invariant h fun _ _ _ ih _ st => ih.step st

/-- A closed session has cancelled its keepalive. -/
lemma cancelled_of_closed (h : Phase s) (closed : s.closed = true) : s.cancelled = true := by
  cases h with
  | opened a => exact absurd closed (Bool.eq_false_iff.mp a)
  | closing _ b | aborted _ b => exact b

/-- Only a closed session is cancelled. -/
lemma closed_of_cancelled (h : Phase s) (cancelled : s.cancelled = true) : s.closed = true := by
  cases h with
  | opened _ b => exact absurd cancelled (Bool.eq_false_iff.mp b)
  | closing a | aborted a => exact a

end Phase

/-- In a closed session the keepalive ends without closing it again. -/
lemma endPinger_of_closed (closed : s.closed = true) :
    s.endPinger = { s with pinger := .ended, writeLock := s.writeLock.erase .pinger } :=
  if_pos closed

/-- What the end of the keepalive leaves alone. -/
lemma endPinger_frame (s : KeptSession) :
    s.endPinger.lastPong = s.lastPong ∧ s.endPinger.now = s.now ∧ s.endPinger.closed = true := by
  unfold endPinger
  split
  case isTrue closed => exact ⟨rfl, rfl, closed⟩
  case isFalse => exact ⟨rfl, rfl, rfl⟩

/-- `close` takes no time and receives no pong. -/
lemma close_frame (s : KeptSession) :
    s.close.lastPong = s.lastPong ∧ s.close.now = s.now ∧ s.close.closed = true := by
  unfold close
  split
  case isTrue closed => exact ⟨rfl, rfl, closed⟩
  case isFalse => exact ⟨rfl, rfl, rfl⟩

/-- Only a received pong changes `lastPong`. -/
lemma lastPong_step (quiet : e ≠ .receivePong) (st : step o s e = some s') :
    s'.lastPong = s.lastPong := by
  cases step_moves st with
  | receivePong => exact absurd rfl quiet
  | givesUp | unwind => exact s.endPinger_frame.1
  | close => exact s.close_frame.1
  | tick | goes | neverStarted | closed | pongArrives | writeEnters | writeLeaves => rfl

/-- A closed session is aborted, or in its closing handshake with a deadline up to `limit`. -/
structure Closing (slack limit : Nat) (s : KeptSession) : Prop where
  closed : s.closed = true
  waits : s.aborts = 1 ∨ s.now ≤ limit + slack ∧ ∃ deadline, s.closer = .closing deadline ∧ deadline ≤ limit

namespace Closing

variable {limit : Nat}

/-- What does not touch the closing handshake keeps it. -/
lemma keep (h : Closing slack limit s) (closed : s'.closed = s.closed) (aborts : s'.aborts = s.aborts)
    (closer : s'.closer = s.closer) (now : s'.now = s.now) : Closing slack limit s' := by
  refine ⟨closed.trans h.closed, ?_⟩
  rw [aborts, closer, now]
  exact h.waits

/-- A punctual step keeps the deadline of the closing handshake. -/
lemma step (phase : Phase s) (h : Closing slack limit s) (punctual : Punctual o slack s e)
    (st : step o s e = some s') : Closing slack limit s' := by
  have cancelled := phase.cancelled_of_closed h.closed
  cases step_moves st with
  | tick =>
    refine ⟨h.closed, h.waits.imp_right ?_⟩
    rintro ⟨_, deadline, place, le⟩
    have due : deadline ∈ s.timers o := by simp [timers, place]
    have early := punctual rfl deadline due
    refine ⟨?_, deadline, place, le⟩
    change s.now + 1 ≤ _
    omega
  | goes going | givesUp going =>
    rw [cancelled] at going
    cases going
  | unwind =>
    rw [endPinger_of_closed h.closed]
    exact h.keep rfl rfl rfl rfl
  | close =>
    rw [KeptSession.close, if_pos h.closed]
    exact h
  | closed _ _ place =>
    refine ⟨rfl, .inl ?_⟩
    cases phase.endCloser place with
    | opened a => cases a
    | closing _ _ _ d => cases d
    | aborted _ _ c => exact c
  | neverStarted | pongArrives | receivePong | writeEnters | writeLeaves => exact h.keep rfl rfl rfl rfl

end Closing

/-! ## What is due can be done -/

/-- A keepalive that runs has an interval. -/
def Paced (o : KeepaliveOptions) (s : KeptSession) : Prop :=
  s.pinger = .off ∨ s.pinger = .ended ∨ ∃ interval, o.pingInterval = some interval

namespace Paced

/-- The keepalive of a new session runs only with an interval. -/
lemma new (o : KeepaliveOptions) : Paced o (new o) := by
  unfold Paced KeptSession.new
  cases given : o.pingInterval with
  | none => exact .inl rfl
  | some interval => exact .inr (.inr ⟨interval, rfl⟩)

/-- The interval of a keepalive that runs. -/
lemma given (h : Paced o s) (on : s.pinger ≠ .off) (going : s.pinger ≠ .ended) :
    ∃ interval, o.pingInterval = some interval :=
  (h.resolve_left on).resolve_left going

/-- A keepalive that has ended needs no interval. -/
lemma endPinger (s : KeptSession) : Paced o s.endPinger := by
  unfold KeptSession.endPinger
  split <;> exact .inr (.inl rfl)

/-- No step starts a keepalive that has no interval. -/
lemma step (h : Paced o s) (st : step o s e = some s') : Paced o s' := by
  cases step_moves st with
  | goes _ _ _ goes =>
    refine .inr (.inr ?_)
    cases goes with
    | start _ some_ | check _ _ some_ => exact ⟨_, some_⟩
    | wake place | pinged place => exact h.given (by simp [place]) (by simp [place])
  | givesUp | unwind => exact .endPinger s
  | neverStarted => exact .inr (.inl rfl)
  | close =>
    unfold KeptSession.close
    split <;> exact h
  | tick | closed | pongArrives | receivePong | writeEnters | writeLeaves => exact h

/-- Along a run the keepalive has an interval. -/
lemma reach {ok : KeptSession → KeepEvent → Prop} (run : Runs.Reach (KeptSession.step o) ok s t)
    (h : Paced o s) : Paced o t :=
  run.invariant h fun _ _ _ ih _ st => ih.step st

end Paced

/-- Nobody's time has come. -/
def Early (o : KeepaliveOptions) (s : KeptSession) : Prop := ∀ due ∈ s.timers o, s.now < due

/-- When the keepalive has ended the session is cancelled. -/
lemma endPinger_cancelled (phase : Phase s) : s.endPinger.cancelled = true := by
  cases phase.endPinger with
  | opened a =>
    have closed := s.endPinger_frame.2.2
    rw [a] at closed
    cases closed
  | closing _ b | aborted _ b => exact b

/-- The keepalive does at most one thing before it waits for later. -/
lemma pinger_catches_up (phase : Phase s) (paced : Paced o s) :
    ∃ t, Runs.Reach (step o) (fun _ e => e ≠ .tick) s t ∧ t.now = s.now ∧
      (t.cancelled = true ∨ ∀ due ∈ pingerTimer o t.pinger, t.now < due) := by
  have timeout := o.pongTimeout_pos
  have one {e : KeepEvent} {u : KeptSession} (other : e ≠ .tick) (st : step o s e = some u) :
      Runs.Reach (step o) (fun _ e => e ≠ .tick) s u := .next .start other st
  -- one event at most is enough, whatever the keepalive is waiting for
  cases going : s.cancelled with
  | true => exact ⟨s, .start, rfl, .inl going⟩
  | false =>
    have st (e : KeepEvent) (own : step o s e = if s.cancelled then none else s.stepPinger o s.pinger e) :
        step o s e = s.stepPinger o s.pinger e := by
      rw [own, going]
      rfl
    -- the next delay ends later, since an interval is positive
    have again {u : KeptSession} {interval : Nat} (given : o.pingInterval = some interval)
        (now : u.now = s.now) (place : u.pinger = .delaying (s.now + interval)) :
        ∀ due ∈ pingerTimer o u.pinger, u.now < due := by
      have positive := o.pingInterval_pos interval given
      rw [place, now]
      simp only [pingerTimer, List.mem_singleton, forall_eq]
      omega
    cases place : s.pinger with
    | off | ended => exact ⟨s, .start, rfl, .inr (by rw [place]; simp [pingerTimer])⟩
    | starting =>
      obtain ⟨interval, given⟩ := paced.given (by simp [place]) (by simp [place])
      refine ⟨{ s with pinger := .delaying (s.now + interval) }, one (e := .start) (by simp) ?_, rfl,
        .inr (again given rfl rfl)⟩
      rw [st .start rfl, place]
      simp [stepPinger, given]
    | delaying wake =>
      by_cases due : wake ≤ s.now
      · refine ⟨{ s with pinger := .pinging s.now, writeLock := s.writeLock ++ [.pinger] },
          one (e := .wake) (by simp) ?_, rfl, .inr ?_⟩
        · rw [st .wake rfl, place]
          simp [stepPinger, due]
        · simp only [pingerTimer, List.mem_singleton, forall_eq]
          omega
      · refine ⟨s, .start, rfl, .inr ?_⟩
        rw [place]
        simp only [pingerTimer, List.mem_singleton, forall_eq]
        omega
    | pinging sent =>
      by_cases due : sent + o.pongTimeout ≤ s.now
      · refine ⟨s.endPinger, one (e := .pingExpires) (by simp) ?_, s.endPinger_frame.2.1,
          .inl (endPinger_cancelled phase)⟩
        rw [st .pingExpires rfl, place]
        simp [stepPinger, due]
      · refine ⟨s, .start, rfl, .inr ?_⟩
        rw [place]
        simp only [pingerTimer, List.mem_singleton, forall_eq]
        omega
    | waiting sent wake =>
      by_cases due : wake ≤ s.now
      · by_cases missing : s.lastPong < sent
        · refine ⟨s.endPinger, one (e := .check) (by simp) ?_, s.endPinger_frame.2.1,
            .inl (endPinger_cancelled phase)⟩
          rw [st .check rfl, place]
          simp [stepPinger, due, missing]
        · obtain ⟨interval, given⟩ := paced.given (by simp [place]) (by simp [place])
          refine ⟨{ s with pinger := .delaying (s.now + interval) }, one (e := .check) (by simp) ?_, rfl,
            .inr (again given rfl rfl)⟩
          rw [st .check rfl, place]
          simp [stepPinger, due, missing, given]
      · refine ⟨s, .start, rfl, .inr ?_⟩
        rw [place]
        simp only [pingerTimer, List.mem_singleton, forall_eq]
        omega

/-- A closing handshake whose time is up ends, and the WebSocket is aborted. -/
lemma closer_expires {deadline : Nat} (phase : Phase s) (place : s.closer = .closing deadline)
    (due : deadline ≤ s.now) : step o s .closeExpires = some s.endCloser ∧ s.endCloser.aborts = 1 := by
  refine ⟨?_, ?_⟩
  · simp only [step, place]
    exact if_pos due
  · cases phase.endCloser place with
    | opened a => cases a
    | closing _ _ _ d => cases d
    | aborted _ _ c => exact c

/-- The clock never has to stop: whoever is due can go on, and then time can pass. -/
lemma catches_up (phase : Phase s) (paced : Paced o s) :
    ∃ t, Runs.Reach (step o) (fun _ e => e ≠ .tick) s t ∧ t.now = s.now ∧ Early o t := by
  obtain ⟨t, run, now, pinger⟩ := pinger_catches_up phase paced
  have early : ∀ due ∈ (if t.cancelled then [] else pingerTimer o t.pinger), t.now < due := by
    intro due mem
    rcases pinger with cancelled | pinger
    · rw [cancelled] at mem
      cases mem
    · split at mem
      · cases mem
      · exact pinger due mem
  cases place : t.closer with
  | none | ended =>
    refine ⟨t, run, now, fun due mem => ?_⟩
    rw [timers, place, List.append_nil] at mem
    exact early due mem
  | closing deadline =>
    by_cases over_ : deadline ≤ t.now
    · have ends := (closer_expires (o := o) (Phase.reach run phase) place over_).1
      refine ⟨t.endCloser, .next run (by simp) ends, now, fun due mem => ?_⟩
      simp [timers, endCloser, abort] at mem
    · refine ⟨t, run, now, fun due mem => ?_⟩
      rw [timers, place, List.mem_append, List.mem_singleton] at mem
      rcases mem with mem | rfl
      · exact early due mem
      · omega

/-- Time may pass up to the next timer. -/
lemma ticks (n : Nat) (quiet : ∀ due ∈ s.timers o, s.now + n ≤ due + slack) :
    Runs.Reach (step o) (Punctual o slack) s { s with now := s.now + n } := by
  induction n with
  | zero => exact .start
  | succ n ih =>
    have before := ih fun due mem => Nat.le_trans (Nat.le_succ _) (quiet due mem)
    refine .next (e := .tick) before (fun _ due mem => ?_) rfl
    exact Nat.lt_of_succ_le (quiet due mem)

/-- The WebSocket is aborted at most once, and only when the session is closed; from the moment it is
closed, by `close` or by the keepalive, that takes no more than `closeTimeout`: when the time is up the
closing handshake can end, whoever holds the lock, and its end aborts. The clock is never what keeps a
session from going on: whoever is due can go on, and then time can pass. -/
theorem aborted_once_in_time (run : Runs.Reach (step o) Runs.always (new o) s)
    (later : Runs.Reach (step o) (Punctual o slack) s t) :
    t.aborts ≤ 1 ∧ (t.closed = false → t.aborts = 0) ∧
      (s.closed = true → t.aborts = 1 ∨ t.now ≤ s.now + closeTimeout + slack ∧
        (s.now + closeTimeout ≤ t.now → ∃ u, step o t .closeExpires = some u ∧ u.aborts = 1)) ∧
      ∃ u, Runs.Reach (step o) (fun _ e => e ≠ .tick) t u ∧ u.now = t.now ∧ Early o u := by
  have phase := Phase.reach run (.new o)
  have phase' := Phase.reach later phase
  have paced : Paced o t := Paced.reach later (Paced.reach run (.new o))
  refine ⟨?_, ?_, fun closed => ?_, catches_up phase' paced⟩
  · cases phase' with
    | opened _ _ c | closing _ _ c => omega
    | aborted _ _ c => omega
  · intro opened
    cases phase' with
    | opened _ _ c => exact c
    | closing a | aborted a => exact absurd a (Bool.eq_false_iff.mp opened)
  · have start : Closing slack (s.now + closeTimeout) s := by
      refine ⟨closed, ?_⟩
      cases phase with
      | opened a => exact absurd closed (Bool.eq_false_iff.mp a)
      | closing _ _ _ d le => exact .inr ⟨by omega, _, d, le⟩
      | aborted _ _ c => exact .inl c
    have last := later.invariant (P := fun u => Phase u ∧ Closing slack (s.now + closeTimeout) u)
      ⟨phase, start⟩ fun u e u' ih punctual st => ⟨ih.1.step st, ih.2.step ih.1 punctual st⟩
    refine last.2.waits.imp_right ?_
    rintro ⟨early, deadline, place, le⟩
    exact ⟨early, fun due => ⟨_, closer_expires phase' place (Nat.le_trans le due)⟩⟩

/-- `close` while a write holds the lock: the closing frame waits for it, and when the time is up the
session is aborted although the write still holds it. -/
theorem aborted_once_in_time_locked : ∃ s t u : KeptSession,
    Runs.Reach (step .quick) Runs.always (new .quick) s ∧
    Runs.Reach (step .quick) (Punctual .quick 0) s t ∧ s.closed = true ∧ t.aborts = 0 ∧
    t.writeLock.head? = some (.write 0) ∧ t.now = s.now + closeTimeout ∧
    step .quick t .closeExpires = some u ∧ u.aborts = 1 := by
  have run : (Runs.exec (step .quick) (new .quick) [.start, .writeEnters, .close]).map (fun s =>
      decide (s.timers .quick = [s.now + closeTimeout] ∧ s.closed = true ∧ s.aborts = 0 ∧
        s.writeLock.head? = some (.write 0))) = some true := by decide
  obtain ⟨s, exec, facts⟩ := Option.map_eq_some_iff.mp run
  obtain ⟨timers, closed, aborts, held⟩ := of_decide_eq_true facts
  have first := Runs.reach_always_of_exec exec
  have waits : Runs.Reach (step .quick) (Punctual .quick 0) s { s with now := s.now + closeTimeout } := by
    apply ticks closeTimeout
    rw [timers]
    simp
  have bounds := (aborted_once_in_time first waits).2.2.1 closed
  have inTime := bounds.resolve_left (by rw [aborts]; decide)
  obtain ⟨u, expires, aborted⟩ := inTime.2 (Nat.le_refl _)
  exact ⟨s, _, u, first, waits, closed, aborts, held, rfl, expires, aborted⟩

/-! ## How long a session stays open -/

/-- How far the keepalive of an open session is ahead of the last pong, at each place of its loop. -/
def Timely (o : KeepaliveOptions) (interval slack : Nat) (s : KeptSession) : Pinger → Prop
  | .starting => s.now ≤ slack
  | .delaying wake =>
    s.now ≤ wake + slack ∧ wake ≤ s.lastPong + interval + 2 * o.pongTimeout + 2 * slack
  | .pinging sent =>
    s.now ≤ sent + o.pongTimeout + slack ∧ sent ≤ s.lastPong + interval + 2 * o.pongTimeout + 3 * slack
  | .waiting sent wake => s.now ≤ wake + slack ∧ wake ≤ sent + 2 * o.pongTimeout + slack ∧
    sent ≤ s.lastPong + interval + 2 * o.pongTimeout + 3 * slack
  | .off | .ended => False

/-- While the session is open. -/
structure Watched (o : KeepaliveOptions) (interval slack : Nat) (s : KeptSession) : Prop where
  lastPong : s.lastPong ≤ s.now
  timely : s.closed = false → Timely o interval slack s s.pinger

namespace Watched

variable {interval : Nat}

/-- A new session is watched. -/
lemma new (given : o.pingInterval = some interval) : Watched o interval slack (new o) := by
  refine ⟨Nat.le_refl 0, fun _ => ?_⟩
  simp only [KeptSession.new, given, Option.isSome_some, if_true]
  exact Nat.zero_le slack

/-- A keepalive that goes on is in time. -/
lemma goes {pinger : Pinger} {writeLock : List LockUser} (given : o.pingInterval = some interval)
    (h : Watched o interval slack s) (goes : Goes o s pinger writeLock) :
    Watched o interval slack { s with pinger, writeLock } := by
  refine ⟨h.lastPong, fun opened => ?_⟩
  have timely := h.timely opened
  cases goes with
  | start place some_ =>
    obtain rfl : _ = interval := Option.some.inj (some_.symm.trans given)
    rw [place] at timely
    simp only [Timely] at timely ⊢
    omega
  | wake place due =>
    rw [place] at timely
    simp only [Timely] at timely ⊢
    omega
  | pinged place =>
    rw [place] at timely
    simp only [Timely] at timely ⊢
    omega
  | check place answered some_ =>
    obtain rfl : _ = interval := Option.some.inj (some_.symm.trans given)
    rw [place] at timely
    simp only [Timely] at timely ⊢
    omega

/-- Time passes, but not past a timer. -/
lemma tick (h : Watched o interval slack s) (phase : Phase s) (punctual : Punctual o slack s .tick) :
    Watched o interval slack { s with now := s.now + 1 } := by
  refine ⟨Nat.le_succ_of_le h.lastPong, fun opened => ?_⟩
  have timely := h.timely opened
  have going : s.cancelled = false := by
    cases phase with
    | opened _ b => exact b
    | closing a | aborted a => exact absurd a (Bool.eq_false_iff.mp opened)
  have due : ∀ due ∈ pingerTimer o s.pinger, s.now < due + slack := fun due mem =>
    punctual rfl due (by simp [timers, going, mem])
  change Timely o interval slack _ s.pinger
  cases place : s.pinger with
  | off | ended =>
    rw [place] at timely
    exact timely.elim
  | starting | delaying | pinging | waiting =>
    rw [place] at timely due
    simp only [Timely, pingerTimer, List.mem_singleton, forall_eq] at timely due ⊢
    omega

/-- A pong is received. -/
lemma receivePong {arrived : Nat} (h : Watched o interval slack s) :
    Watched o interval slack { s with arrived, lastPong := s.now } := by
  refine ⟨Nat.le_refl _, fun opened => ?_⟩
  have timely := h.timely opened
  have lastPong := h.lastPong
  change Timely o interval slack _ s.pinger
  cases place : s.pinger with
  | off | ended =>
    rw [place] at timely
    exact timely.elim
  | starting =>
    rw [place] at timely
    exact timely
  | delaying | pinging | waiting =>
    rw [place] at timely
    simp only [Timely] at timely ⊢
    omega

/-- A punctual step keeps the keepalive in time. -/
lemma step (given : o.pingInterval = some interval) (phase : Phase s) (h : Watched o interval slack s)
    (punctual : Punctual o slack s e) (st : step o s e = some s') : Watched o interval slack s' := by
  have shut {u : KeptSession} (lastPong : u.lastPong = s.lastPong) (now : u.now = s.now)
      (closed : u.closed = true) : Watched o interval slack u :=
    ⟨by rw [lastPong, now]; exact h.lastPong, fun opened => absurd closed (Bool.eq_false_iff.mp opened)⟩
  cases step_moves st with
  | tick => exact h.tick phase punctual
  | goes _ _ _ goes => exact h.goes given goes
  | givesUp | unwind => exact shut s.endPinger_frame.1 s.endPinger_frame.2.1 s.endPinger_frame.2.2
  | neverStarted cancelled => exact shut rfl rfl (phase.closed_of_cancelled cancelled)
  | close => exact shut s.close_frame.1 s.close_frame.2.1 s.close_frame.2.2
  | closed => exact shut rfl rfl rfl
  | receivePong => exact h.receivePong
  | pongArrives | writeEnters | writeLeaves =>
    refine ⟨h.lastPong, fun opened => ?_⟩
    have timely := h.timely opened
    revert timely
    change Timely o interval slack s s.pinger → Timely o interval slack _ s.pinger
    cases s.pinger <;> exact id

end Watched

/-- The time from the last pong after which a session cannot be open. -/
def openFor (o : KeepaliveOptions) (interval slack : Nat) : Nat :=
  interval + 4 * o.pongTimeout + 5 * slack

/-- Only pongs that `read` receives keep a session open: without any, whatever arrives, it is closed
within one interval and four timeouts of the last one. -/
theorem silent_session_closes {interval : Nat} (given : o.pingInterval = some interval)
    (run : Runs.Reach (step o) (Punctual o slack) (new o) s)
    (silent : Runs.Reach (step o) (fun s e => Punctual o slack s e ∧ e ≠ .receivePong) s t)
    (opened : t.closed = false) : t.now ≤ s.lastPong + openFor o interval slack := by
  have whole := run.trans (silent.mono fun _ _ => And.left)
  have watched := whole.invariant (P := fun u => Phase u ∧ Watched o interval slack u)
    ⟨.new o, .new given⟩ fun u e u' ih punctual st => ⟨ih.1.step st, ih.2.step given ih.1 punctual st⟩
  have same : t.lastPong = s.lastPong :=
    silent.invariant (P := fun u => u.lastPong = s.lastPong) rfl fun u e u' ih quiet st =>
      (lastPong_step quiet.2 st).trans ih
  have timely := watched.2.timely opened
  unfold openFor
  cases place : t.pinger with
  | off | ended =>
    rw [place] at timely
    exact timely.elim
  | starting | delaying | pinging | waiting =>
    rw [place] at timely
    simp only [Timely] at timely
    omega

/-- The pong has arrived in time, but `read` has not received it: the session is open, and the next check
ends it. -/
theorem silent_session_closes_unread : ∃ t u : KeptSession, t.closed = false ∧ t.arrived = 1 ∧
    t.now ≤ 0 + openFor .quick 1 0 ∧ step .quick t .check = some u ∧ u.arrived = 1 ∧ u.aborts = 1 := by
  have run : ((Runs.exec (step .quick) (new .quick)
      [.start, .tick, .wake, .pinged, .pongArrives, .tick]).bind fun t =>
        (step .quick t .check).map fun u => decide (t.closed = false ∧ t.arrived = 1 ∧
          u.arrived = 1 ∧ u.aborts = 1)) = some true := by decide
  obtain ⟨t, exec, rest⟩ := Option.bind_eq_some_iff.mp run
  obtain ⟨u, last, facts⟩ := Option.map_eq_some_iff.mp rest
  obtain ⟨opened, arrived, unread, aborted⟩ := of_decide_eq_true facts
  have guarded : Runs.Guarded (step .quick) (fun s e => Punctual .quick 0 s e ∧ e ≠ .receivePong)
      (new .quick) [.start, .tick, .wake, .pinged, .pongArrives, .tick] := by decide
  have silent := Runs.reach_of_exec exec guarded
  exact ⟨t, u, opened, arrived, silent_session_closes rfl .start silent opened, last, unread, aborted⟩

/-! ## Sessions that stay open -/

/-- Nobody closes the session, no ping fails or takes too long, and while the keepalive waits time does
not get to the end of its wait before a pong has been received since the ping was due. -/
def Answered (s : KeptSession) (e : KeepEvent) : Prop :=
  e ≠ .close ∧ e ≠ .pingFails ∧ e ≠ .pingExpires ∧
    (e = .tick → ∀ sent wake, s.pinger = .waiting sent wake → wake ≤ s.now + 1 → sent ≤ s.lastPong)

/-- When the last ping was due. -/
@[simp] def sentAt : Pinger → Nat
  | .pinging sent | .waiting sent _ => sent
  | _ => 0

/-- No pong is missing. -/
structure Alive (s : KeptSession) : Prop where
  opened : s.closed = false
  sent : sentAt s.pinger ≤ s.now
  answered : ∀ sent wake, s.pinger = .waiting sent wake → wake ≤ s.now → sent ≤ s.lastPong

namespace Alive

/-- A new session misses no pong. -/
lemma new (o : KeepaliveOptions) : Alive (new o) := by
  have start : (KeptSession.new o).pinger = .starting ∨ (KeptSession.new o).pinger = .off := by
    unfold KeptSession.new
    split <;> simp
  refine ⟨rfl, ?_, fun sent wake place => ?_⟩
  · rcases start with start | start <;> rw [start] <;> exact Nat.le_refl 0
  · rcases start with start | start <;> rw [start] at place <;> cases place

/-- A keepalive that goes on misses no pong. -/
lemma goes {pinger : Pinger} {writeLock : List LockUser} (h : Alive s) (goes : Goes o s pinger writeLock) :
    Alive { s with pinger, writeLock } := by
  have sent := h.sent
  cases goes with
  | start | check => exact ⟨h.opened, Nat.zero_le _, nofun⟩
  | wake => exact ⟨h.opened, Nat.le_refl _, nofun⟩
  | pinged place =>
    rw [place] at sent
    refine ⟨h.opened, sent, fun _ wake eq due => ?_⟩
    cases eq
    have positive := o.pongTimeout_pos
    change s.now + o.pongTimeout ≤ s.now at due
    omega

/-- An answered step misses no pong. -/
lemma step (phase : Phase s) (h : Alive s) (answered : Answered s e) (st : step o s e = some s') :
    Alive s' := by
  have going : s.cancelled = true → False := fun cancelled =>
    Bool.eq_false_iff.mp h.opened (phase.closed_of_cancelled cancelled)
  cases step_moves st with
  | tick => exact ⟨h.opened, Nat.le_succ_of_le h.sent, answered.2.2.2 rfl⟩
  | goes _ _ _ goes => exact h.goes goes
  | givesUp _ why =>
    cases why with
    | pingFails => exact absurd rfl answered.2.1
    | pingExpires => exact absurd rfl answered.2.2.1
    | check place due missing => exact absurd (h.answered _ _ place due) (Nat.not_le.mpr missing)
  | neverStarted cancelled | unwind cancelled => exact (going cancelled).elim
  | close => exact absurd rfl answered.1
  | closed _ _ place =>
    cases phase with
    | opened _ _ _ d =>
      rw [d] at place
      cases place
    | closing a | aborted a => exact absurd a (Bool.eq_false_iff.mp h.opened)
  | receivePong =>
    refine ⟨h.opened, h.sent, fun sent wake place _ => ?_⟩
    have le := h.sent
    change s.pinger = _ at place
    rw [place] at le
    exact le
  | pongArrives | writeEnters | writeLeaves => exact ⟨h.opened, h.sent, h.answered⟩

end Alive

/-- A session that nobody closes, whose pings go out and whose pongs are read in time, stays open. -/
theorem answered_session_stays_open (run : Runs.Reach (step o) Answered (new o) s) : s.closed = false :=
  (run.invariant (P := fun u => Phase u ∧ Alive u) ⟨.new o, .new o⟩
    fun _ _ _ ih answered st => ⟨ih.1.step st, ih.2.step ih.1 answered st⟩).2.opened

/-- One round of the keepalive whose ping waits for a write and whose pong comes with the last tick. -/
theorem answered_session_stays_open_once : ∃ s : KeptSession, s.pinger = .delaying 4 ∧ s.closed = false := by
  have run : (Runs.exec (step .quick) (new .quick) [.start, .writeEnters, .tick, .wake, .tick,
      .writeLeaves 0, .pinged, .pongArrives, .receivePong, .tick, .check]).map pinger =
        some (.delaying 4) := by decide
  obtain ⟨s, exec, place⟩ := Option.map_eq_some_iff.mp run
  have guarded : Runs.Guarded (step .quick) Answered (new .quick) [.start, .writeEnters, .tick, .wake,
      .tick, .writeLeaves 0, .pinged, .pongArrives, .receivePong, .tick, .check] := by
    simp [Runs.Guarded, Answered, step, new, stepPinger, KeepaliveOptions.quick]
  exact ⟨s, place, answered_session_stays_open (Runs.reach_of_exec exec guarded)⟩

end KeptSession

end MsgTrans
