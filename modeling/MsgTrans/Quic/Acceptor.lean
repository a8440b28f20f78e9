import MsgTrans.Lib.Handoff
import MsgTrans.Lib.Runs

/-!
# Accepting QUIC sessions

Model of `QuicServerTransport.QuicAcceptor` (`msgtrans/transport/QuicTransport.kt`): the accept loop, the
coroutine it launches for every incoming connection, the channel `ready` and the calls of `accept`. A
connection is named by the order in which `endpoint.accept` returned it.

`neton.quic` is outside the repository: its calls return or throw as the events say. A `QuicSessionStream`
closes its connection in a `finally` block, so a `close` that throws has closed the connection all the same;
`throws` tells which do. A coroutine that is cancelled before it starts does not run at all, its `finally`
block included.
-/

namespace MsgTrans.Quic

/-- Where the accept loop is: launched and not started, in `endpoint.accept`, or over. -/
inductive Accepting where
  | launched
  | accepting
  | ended
deriving DecidableEq, Repr

/-- The state of Kotlin `QuicAcceptor`. The incoming connections whose coroutine has not started, is in
`incoming.await` or in `connection.acceptBi` are in `launched`, `connecting` and `opening`. `cancelled` is
about the job of the accept loop and its children. `connected`, `sessions` and `closed` are histories: the
handshakes that have succeeded, the sessions that `ready` has taken, and the calls of `connection.close`. -/
structure QuicAcceptor where
  loop : Accepting := .launched
  incoming : Nat := 0
  launched : List Nat := []
  connecting : List Nat := []
  opening : List Nat := []
  ready : Handoff Nat := {}
  cancelled : Bool := false
  endpointClosed : Bool := false
  connected : List Nat := []
  sessions : List Nat := []
  closed : List Nat := []
deriving DecidableEq, Repr

/-- What happens in one step. -/
inductive AcceptorEvent where
  | loopStarts
  /-- the loop was cancelled before it started -/
  | loopSkipped
  | incoming
  /-- `endpoint.accept` returns `null` -/
  | noMore
  /-- `endpoint.accept` throws -/
  | acceptFails
  | starts (i : Nat)
  | skipped (i : Nat)
  | awaited (i : Nat)
  | awaitFails (i : Nat)
  | acceptedBi (i : Nat)
  | acceptBiFails (i : Nat)
  | accept
  /-- a resumed call of `accept` runs -/
  | callRuns (call : Nat)
  /-- a call of `accept` is cancelled; if it was resumed with a session, `onUndeliveredElement` runs -/
  | callCancelled (call : Nat)
  | cancelOwner
  | close
deriving DecidableEq, Repr

namespace QuicAcceptor

/-- `if (ready.trySend(stream).isFailure) stream.close()`; an exception of `close` fails the coroutine, and
with it the accept loop and its other children. -/
def offer (throws : Nat → Bool) (i : Nat) (s : QuicAcceptor) : QuicAcceptor :=
  match s.ready.trySend i with
  | some ready => { s with ready, sessions := s.sessions ++ [i] }
  | none => { s with closed := s.closed ++ [i], cancelled := s.cancelled || throws i }

/-- `while (true) ready.tryReceive().getOrNull()?.close() ?: break`, which also ends when a `close` throws;
the number bounds the turns. -/
def drain (throws : Nat → Bool) : Nat → QuicAcceptor → QuicAcceptor
  | 0, s => s
  | n + 1, s =>
    match s.ready.tryReceive with
    | none => s
    | some (i, ready) =>
      let s := { s with ready, closed := s.closed ++ [i] }
      if throws i then s else s.drain throws n

/-- Kotlin `close`. -/
def close (throws : Nat → Bool) (s : QuicAcceptor) : QuicAcceptor :=
  { s with endpointClosed := true, cancelled := true, ready := s.ready.close }.drain throws
    s.ready.buffer.length

/-- The accept loop leaves; `finally` closes `ready`. -/
def endLoop (s : QuicAcceptor) : QuicAcceptor := { s with loop := .ended, ready := s.ready.close }

/-- One step of an acceptor; `none` when the event cannot happen in this state. -/
def step (throws : Nat → Bool) (s : QuicAcceptor) : AcceptorEvent → Option QuicAcceptor
  | .loopStarts =>
    if s.loop = .launched ∧ s.cancelled = false then some { s with loop := .accepting } else none
  | .loopSkipped =>
    if s.loop = .launched ∧ s.cancelled = true then some { s with loop := .ended } else none
  | .incoming =>
    if s.loop = .accepting then
      some { s with incoming := s.incoming + 1, launched := s.launched ++ [s.incoming] }
    else none
  | .noMore => if s.loop = .accepting then some s.endLoop else none
  | .acceptFails => if s.loop = .accepting then some { s.endLoop with cancelled := true } else none
  | .starts i =>
    if i ∈ s.launched ∧ s.cancelled = false then
      some { s with launched := s.launched.erase i, connecting := s.connecting ++ [i] }
    else none
  | .skipped i =>
    if i ∈ s.launched ∧ s.cancelled = true then some { s with launched := s.launched.erase i } else none
  | .awaited i =>
    if i ∈ s.connecting then
      some { s with
        connecting := s.connecting.erase i
        opening := s.opening ++ [i]
        connected := s.connected ++ [i] }
    else none
  | .awaitFails i =>
    if i ∈ s.connecting then some { s with connecting := s.connecting.erase i } else none
  | .acceptedBi i =>
    if i ∈ s.opening then some ({ s with opening := s.opening.erase i }.offer throws i) else none
  | .acceptBiFails i =>
    if i ∈ s.opening then
      some { s with opening := s.opening.erase i, closed := s.closed ++ [i] }
    else none
  | .accept => some { s with ready := s.ready.receive }
  | .callRuns n =>
    (s.ready.handed.find? fun p => p.1 == n).map fun p => { s with ready := s.ready.resume p }
  | .callCancelled n =>
    match s.ready.handed.find? fun p => p.1 == n with
    | some p => some { s with ready := s.ready.drop p, closed := s.closed ++ [p.2] }
    | none => if n ∈ s.ready.waiting then some { s with ready := s.ready.leave n } else none
  | .cancelOwner => some { s with cancelled := true }
  | .close => some (s.close throws)

/-! ## Where the connections are -/

variable {throws : Nat → Bool} {s s' : QuicAcceptor} {e : AcceptorEvent} {away : List Nat} {i : Nat}

/-- Every connection is in one place: its coroutine waits for the stream, it is in `ready` or past it, or it
is closed; those in `away` are on their way between two places. -/
structure Placed (away : List Nat) (s : QuicAcceptor) : Prop where
  once : ∀ b, away.count b + s.opening.count b + s.ready.elements.count b + s.closed.count b =
    s.connected.count b
  distinct : (s.launched ++ s.connecting ++ s.connected).Nodup
  below : ∀ i ∈ s.launched ++ s.connecting ++ s.connected, i < s.incoming

namespace Placed

/-- A new acceptor has no connections. -/
lemma start : Placed [] {} where
  once _ := rfl
  distinct := .nil
  below _ mem := by cases mem

/-- What the coroutines hold stays, and the connections change places. -/
lemma move {away' : List Nat} (h : Placed away s) (launched : s'.launched = s.launched)
    (connecting : s'.connecting = s.connecting) (connected : s'.connected = s.connected)
    (incoming : s'.incoming = s.incoming)
    (once : ∀ b, away'.count b + s'.opening.count b + s'.ready.elements.count b + s'.closed.count b =
      away.count b + s.opening.count b + s.ready.elements.count b + s.closed.count b) :
    Placed away' s' where
  once b := by rw [once b, h.once b, connected]
  distinct := by rw [launched, connecting, connected]; exact h.distinct
  below := by rw [launched, connecting, connected, incoming]; exact h.below

/-- A connection is closed. -/
lemma close {cancelled : Bool} (h : Placed [i] s) :
    Placed [] { s with closed := s.closed ++ [i], cancelled } := by
  refine h.move rfl rfl rfl rfl fun b => ?_
  simp only [List.count_append, List.count_nil]
  omega

/-- A connection that is offered is in `ready`, past it, or closed. -/
lemma offer (h : Placed [i] s) : Placed [] (s.offer throws i) := by
  unfold QuicAcceptor.offer
  split
  case h_1 ready sends =>
    refine h.move rfl rfl rfl rfl fun b => ?_
    have sent := (Handoff.trySend_elements sends).count_eq b
    rw [List.count_cons] at sent
    simp only [List.count_nil, sent, List.count_singleton]
    omega
  case h_2 => exact h.close

/-- The first of `ready` is taken out. -/
lemma takes {ready : Handoff Nat} (h : Placed [] s) (takes : s.ready.tryReceive = some (i, ready)) :
    Placed [i] { s with ready } := by
  refine h.move rfl rfl rfl rfl fun b => ?_
  simp only [Handoff.tryReceive_elements takes, List.count_cons, List.count_nil]
  omega

/-- What is drained is closed. -/
lemma drain {n : Nat} (h : Placed [] s) : Placed [] (s.drain throws n) := by
  induction n generalizing s with
  | zero => exact h
  | succ n ih =>
    unfold QuicAcceptor.drain
    split
    case h_1 => exact h
    case h_2 i ready takes =>
      have closed : Placed [] { s with ready, closed := s.closed ++ [i] } := (h.takes takes).close
      dsimp only
      split
      case isTrue => exact closed
      case isFalse => exact ih closed

/-- A coroutine has gone on from `acceptBi`. -/
lemma opened (h : Placed [] s) (mem : i ∈ s.opening) :
    Placed [i] { s with opening := s.opening.erase i } := by
  refine h.move rfl rfl rfl rfl fun b => ?_
  have erased := (List.perm_cons_erase mem).count_eq b
  rw [List.count_cons] at erased
  simp only [List.count_nil, erased, List.count_singleton]
  omega

/-- Coroutines go on or end before their handshake has succeeded. -/
lemma fewer {launched connecting : List Nat} (h : Placed [] s)
    (sub : (launched ++ connecting).Subperm (s.launched ++ s.connecting)) :
    Placed [] { s with launched, connecting } := by
  obtain ⟨l, perm, sub⟩ := (List.subperm_append_right s.connected).mpr sub
  exact ⟨h.once, perm.nodup_iff.mp (h.distinct.sublist sub), fun j mem =>
    h.below j (sub.subset (perm.mem_iff.mpr mem))⟩

/-- A coroutine is launched. -/
lemma launch (h : Placed [] s) : Placed [] { s with
    incoming := s.incoming + 1, launched := s.launched ++ [s.incoming] } := by
  have perm : (s.launched ++ [s.incoming] ++ s.connecting ++ s.connected).Perm
      (s.incoming :: (s.launched ++ s.connecting ++ s.connected)) := by
    simp only [List.append_assoc]
    exact List.perm_middle
  refine ⟨h.once, perm.nodup_iff.mpr (List.nodup_cons.mpr ⟨fun old => ?_, h.distinct⟩), fun j mem => ?_⟩
  · exact Nat.lt_irrefl _ (h.below _ old)
  · rcases List.mem_cons.mp (perm.mem_iff.mp mem) with rfl | old
    · exact Nat.lt_succ_self _
    · exact Nat.lt_succ_of_lt (h.below j old)

/-- A handshake has succeeded. -/
lemma awaited (h : Placed [] s) (mem : i ∈ s.connecting) :
    Placed [] { s with
      connecting := s.connecting.erase i
      opening := s.opening ++ [i]
      connected := s.connected ++ [i] } := by
  have same : (s.launched ++ s.connecting.erase i ++ (s.connected ++ [i])).Perm
      (s.launched ++ s.connecting ++ s.connected) := by
    rw [List.perm_iff_count]
    intro b
    have erased := (List.perm_cons_erase mem).count_eq b
    rw [List.count_cons] at erased
    simp only [List.count_append, List.count_singleton, erased]
    omega
  refine ⟨fun b => ?_, same.nodup_iff.mpr h.distinct, fun j mem => h.below j (same.subset mem)⟩
  have once := h.once b
  simp only [List.count_append]
  omega

/-- Every step leaves every connection in one place. -/
lemma step (h : Placed [] s) (st : step throws s e = some s') : Placed [] s' := by
  cases e with
  | loopStarts | loopSkipped =>
    obtain ⟨_, ⟨⟩⟩ := Option.ite_none_right_eq_some.mp st
    exact h.move rfl rfl rfl rfl fun _ => rfl
  | incoming =>
    obtain ⟨_, ⟨⟩⟩ := Option.ite_none_right_eq_some.mp st
    exact h.launch
  | noMore | acceptFails =>
    obtain ⟨_, ⟨⟩⟩ := Option.ite_none_right_eq_some.mp st
    exact h.move rfl rfl rfl rfl fun _ => rfl
  | starts i =>
    obtain ⟨⟨mem, _⟩, ⟨⟩⟩ := Option.ite_none_right_eq_some.mp st
    refine h.fewer (List.Perm.subperm ?_)
    rw [← List.append_assoc]
    refine (List.perm_append_singleton i _).trans ?_
    exact (List.perm_cons_erase mem).symm.append_right _
  | skipped i =>
    obtain ⟨⟨mem, _⟩, ⟨⟩⟩ := Option.ite_none_right_eq_some.mp st
    exact h.fewer (List.erase_sublist.append_right _).subperm
  | awaited i =>
    obtain ⟨mem, ⟨⟩⟩ := Option.ite_none_right_eq_some.mp st
    exact h.awaited mem
  | awaitFails i =>
    obtain ⟨_, ⟨⟩⟩ := Option.ite_none_right_eq_some.mp st
    exact h.fewer (List.erase_sublist.append_left _).subperm
  | acceptedBi i =>
    obtain ⟨mem, ⟨⟩⟩ := Option.ite_none_right_eq_some.mp st
    exact (h.opened mem).offer
  | acceptBiFails i =>
    obtain ⟨mem, ⟨⟩⟩ := Option.ite_none_right_eq_some.mp st
    exact (h.opened mem).close
  | accept =>
    cases st
    refine h.move rfl rfl rfl rfl fun b => ?_
    simp only [(s.ready.receive_elements).count_eq b]
  | callRuns n =>
    obtain ⟨p, found, rfl⟩ := Option.map_eq_some_iff.mp st
    refine h.move rfl rfl rfl rfl fun b => ?_
    simp only [(Handoff.resume_elements (List.mem_of_find?_eq_some found)).count_eq b]
  | callCancelled n =>
    simp only [QuicAcceptor.step] at st
    split at st
    case h_1 p found =>
      cases st
      -- the undelivered session is on its way until `onUndeliveredElement` has closed it
      have away : Placed [p.2] { s with ready := s.ready.drop p } := by
        refine h.move rfl rfl rfl rfl fun b => ?_
        have dropped := (Handoff.drop_elements (List.mem_of_find?_eq_some found)).count_eq b
        rw [List.count_cons] at dropped
        simp only [List.count_nil, dropped, List.count_singleton]
        omega
      exact away.close
    case h_2 =>
      obtain ⟨_, ⟨⟩⟩ := Option.ite_none_right_eq_some.mp st
      exact h.move rfl rfl rfl rfl fun _ => rfl
  | cancelOwner =>
    cases st
    exact h.move rfl rfl rfl rfl fun _ => rfl
  | close =>
    cases st
    refine Placed.drain ?_
    exact h.move rfl rfl rfl rfl fun _ => rfl

end Placed

/-! ## What `ready` gives out -/

/-- The sessions are given out in line; a closed acceptor has a closed channel with nothing in it, unless a
`close` threw. -/
structure Kept (throws : Nat → Bool) (s : QuicAcceptor) : Prop where
  line : s.ready.InLine s.sessions
  shut : s.endpointClosed = true → s.ready.closed = true ∧
    (s.ready.buffer = [] ∨ ∃ i ∈ s.closed, throws i = true)

namespace Kept

/-- A new acceptor. -/
lemma start : Kept throws {} := ⟨.new, nofun⟩

/-- Nothing is added to `ready`, and what was closed stays closed. -/
lemma move (h : Kept throws s) (line : s'.ready.InLine s'.sessions)
    (endpoint : s'.endpointClosed = s.endpointClosed)
    (shut : s.ready.closed = true → s'.ready.closed = true)
    (empty : s.ready.buffer = [] → s.ready.closed = true → s'.ready.buffer = [])
    (closed : ∀ i ∈ s.closed, i ∈ s'.closed) : Kept throws s' := by
  refine ⟨line, fun ended => ?_⟩
  obtain ⟨shut', rest⟩ := h.shut (endpoint.symm.trans ended)
  refine ⟨shut shut', rest.imp (fun none_ => empty none_ shut') ?_⟩
  rintro ⟨i, mem, threw⟩
  exact ⟨i, closed i mem, threw⟩

/-- Changes of neither `ready` nor the endpoint. -/
lemma aside (h : Kept throws s) (ready : s'.ready = s.ready) (sessions : s'.sessions = s.sessions)
    (endpoint : s'.endpointClosed = s.endpointClosed) (closed : ∀ i ∈ s.closed, i ∈ s'.closed) :
    Kept throws s' := by
  refine h.move ?_ endpoint (by rw [ready]; exact id) (by rw [ready]; exact fun none_ _ => none_) closed
  rw [ready, sessions]
  exact h.line

/-- A session that is offered comes last in line. -/
lemma offer (h : Kept throws s) : Kept throws (s.offer throws i) := by
  unfold QuicAcceptor.offer
  split
  case h_1 ready sends =>
    refine ⟨h.line.trySend sends, fun ended => ?_⟩
    have shut := (h.shut ended).1
    rw [Handoff.trySend_open sends] at shut
    cases shut
  case h_2 => exact h.aside rfl rfl rfl fun j mem => List.mem_append_left _ mem

/-- The loop of `close` ends with an empty channel, or with the first `close` that throws. -/
lemma drain {n : Nat} (line : s.ready.InLine s.sessions) (enough : s.ready.buffer.length ≤ n) :
    (s.drain throws n).ready.InLine (s.drain throws n).sessions ∧
      (s.drain throws n).ready.closed = s.ready.closed ∧
      ((s.drain throws n).ready.buffer = [] ∨ ∃ i ∈ (s.drain throws n).closed, throws i = true) := by
  induction n generalizing s with
  | zero => exact ⟨line, rfl, .inl (List.length_eq_zero_iff.mp (Nat.le_zero.mp enough))⟩
  | succ n ih =>
    unfold QuicAcceptor.drain
    split
    case h_1 takes => exact ⟨line, rfl, .inl (Handoff.tryReceive_none takes)⟩
    case h_2 i ready takes =>
      have next := line.tryReceive takes
      obtain ⟨buffer, shut⟩ := Handoff.tryReceive_some takes
      dsimp only
      split
      case isTrue threw => exact ⟨next, shut, .inr ⟨i, by simp, threw⟩⟩
      case isFalse =>
        rw [buffer, List.length_cons] at enough
        obtain ⟨line', shut', rest⟩ := ih (s := { s with ready, closed := s.closed ++ [i] }) next
          (Nat.le_of_succ_le_succ enough)
        exact ⟨line', shut'.trans shut, rest⟩

/-- `close` drains the channel. -/
lemma close (h : Kept throws s) : Kept throws (s.close throws) := by
  have closed : Handoff.InLine s.sessions s.ready.close := h.line.close
  obtain ⟨line, shut, rest⟩ := drain
    (s := { s with endpointClosed := true, cancelled := true, ready := s.ready.close }) closed
    (Nat.le_refl _)
  exact ⟨line, fun _ => ⟨shut, rest⟩⟩

/-- Every step keeps the line. -/
lemma step (h : Kept throws s) (st : step throws s e = some s') : Kept throws s' := by
  cases e with
  | loopStarts | loopSkipped | incoming =>
    obtain ⟨_, ⟨⟩⟩ := Option.ite_none_right_eq_some.mp st
    exact h.aside rfl rfl rfl fun _ => id
  | noMore | acceptFails =>
    obtain ⟨_, ⟨⟩⟩ := Option.ite_none_right_eq_some.mp st
    exact h.move h.line.close rfl (fun _ => rfl) (fun none_ _ => none_) fun _ => id
  | starts i | skipped i | awaited i | awaitFails i =>
    obtain ⟨_, ⟨⟩⟩ := Option.ite_none_right_eq_some.mp st
    exact h.aside rfl rfl rfl fun _ => id
  | acceptedBi i =>
    obtain ⟨_, ⟨⟩⟩ := Option.ite_none_right_eq_some.mp st
    refine Kept.offer ?_
    exact h.aside rfl rfl rfl fun _ => id
  | acceptBiFails i =>
    obtain ⟨_, ⟨⟩⟩ := Option.ite_none_right_eq_some.mp st
    exact h.aside rfl rfl rfl fun j mem => List.mem_append_left _ mem
  | accept =>
    cases st
    exact h.move h.line.receive rfl s.ready.receive_closed.trans (fun none_ _ => Handoff.receive_empty none_)
      fun _ => id
  | callRuns n =>
    obtain ⟨p, _, rfl⟩ := Option.map_eq_some_iff.mp st
    exact h.move (h.line.hands _ _) rfl id (fun none_ _ => none_) fun _ => id
  | callCancelled n =>
    simp only [QuicAcceptor.step] at st
    split at st
    case h_1 p found =>
      cases st
      exact h.move (h.line.hands _ _) rfl id (fun none_ _ => none_) fun j mem => List.mem_append_left _ mem
    case h_2 =>
      obtain ⟨_, ⟨⟩⟩ := Option.ite_none_right_eq_some.mp st
      exact h.move (h.line.leave n) rfl id (fun none_ _ => none_) fun _ => id
  | cancelOwner =>
    cases st
    exact h.aside rfl rfl rfl fun _ => id
  | close =>
    cases st
    exact h.close

end Kept

/-- Over every run: each connection whose handshake has succeeded is in exactly one place, where its
coroutine waits for the stream, in `ready`, on its way to a call of `accept`, returned by one, or closed, once;
the sessions are given out in the order in which they were opened, to the calls in the order in which they
were made, and no call waits once `ready` is closed. After `close` nothing is left in `ready` unless a
session's `close` threw, so that with the coroutines and calls unwound every connection is returned or
closed. -/
theorem sessions_kept (run : Runs.Reach (step throws) Runs.always {} s) :
    (s.opening ++ s.ready.elements ++ s.closed).Perm s.connected ∧ s.connected.Nodup ∧
    s.sessions = s.ready.given.map Prod.snd ++ s.ready.buffer ∧
    (s.ready.given.map Prod.fst).Pairwise (· < ·) ∧
    (s.ready.closed = true → s.ready.waiting = []) ∧
    (s.endpointClosed = true → s.ready.closed = true ∧
      (s.ready.buffer = [] ∨ ∃ i ∈ s.closed, throws i = true)) ∧
    (s.endpointClosed = true → (∀ i, throws i = false) → s.opening = [] → s.ready.handed = [] →
      (s.ready.returned.map Prod.snd ++ s.closed).Perm s.connected) := by
  have placed : Placed [] s := run.invariant (P := Placed []) .start fun _ _ _ h _ st => h.step st
  have kept : Kept throws s := run.invariant (P := Kept throws) .start fun _ _ _ h _ st => h.step st
  have perm : (s.opening ++ s.ready.elements ++ s.closed).Perm s.connected := by
    rw [List.perm_iff_count]
    intro b
    have once := placed.once b
    rw [List.count_nil] at once
    simp only [List.count_append]
    omega
  refine ⟨perm, (List.nodup_append.mp placed.distinct).2.1, kept.line.fifo,
    (List.pairwise_append.mp kept.line.calls).1, kept.line.shut, kept.shut, ?_⟩
  intro ended quiet unwound ran
  have empty : s.ready.buffer = [] := by
    refine (kept.shut ended).2.resolve_right ?_
    rintro ⟨i, _, threw⟩
    rw [quiet i] at threw
    cases threw
  simpa [Handoff.elements, unwound, ran, empty] using perm

/-- Two sessions are in `ready` when the acceptor is closed; closing the first throws, and the second stays
in the channel. -/
theorem sessions_kept_throwing : ∃ s, Runs.Reach (step fun i => i == 1) Runs.always {} s ∧
    s.endpointClosed = true ∧ s.ready.returned = [(0, 0)] ∧ s.closed = [1] ∧ s.ready.buffer = [2] ∧
    s.sessions = [0, 1, 2] ∧ s.connected.Nodup := by
  have run : ((Runs.exec (step fun i => i == 1) {}
      [.accept, .loopStarts, .incoming, .incoming, .incoming, .starts 0, .starts 1, .starts 2,
        .awaited 0, .awaited 2, .awaited 1, .acceptedBi 0, .acceptedBi 1, .acceptedBi 2, .callRuns 0,
        .close]).map fun s => decide (s.endpointClosed = true ∧ s.ready.returned = [(0, 0)] ∧
          s.closed = [1] ∧ s.ready.buffer = [2] ∧ s.ready.given.map Prod.snd = [0, 1])) = some true := by
    decide
  obtain ⟨s, exec, facts⟩ := Option.map_eq_some_iff.mp run
  obtain ⟨ended, returned, closed, buffer, given⟩ := of_decide_eq_true facts
  have reach := Runs.reach_always_of_exec exec
  obtain ⟨-, distinct, fifo, -⟩ := sessions_kept reach
  rw [given, buffer] at fifo
  exact ⟨s, reach, ended, returned, closed, buffer, fifo, distinct⟩

end QuicAcceptor

end MsgTrans.Quic
