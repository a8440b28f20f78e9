import Mathlib.Data.List.Forall2
import MsgTrans.Connection.Outcome
import MsgTrans.Core.ZlibCodec
import MsgTrans.Transport.Inbound

/-!
# Inbound admission

What the read loop does with the packets it decodes, whatever the peer sends: every packet before the
first fault is acted on, in plaintext and in wire order, and nothing after it.
-/

namespace MsgTrans

namespace Inbound

open Endpoint (Fault SameReads Sends Takes)

variable {env : Env} {before : List Packet} {s s' : Inbound} {x : Endpoint} {e : EndpointEvent}

/-- A step of the endpoint is one that emits, and what it dispatches follows. -/
lemma step_endpoint (st : s.step env (.endpoint e) = some s') : s.emits e = true ∧
    ∃ x, s.endpoint.step env e = some x ∧ s.follow env (s.endpoint.dispatched env e) x = s' := by
  obtain ⟨ran, st⟩ := Option.ite_none_right_eq_some.mp st
  exact ⟨ran, Option.map_eq_some_iff.mp st⟩

/-- The packets of which the `send` is still in progress, or was cut off. -/
def unsent (s : Inbound) : List Packet :=
  s.endpoint.requests.item.toList ++ s.endpoint.requests.thrown ++ s.events.withdrawn ++
    s.events.waiting.toList

/-- There is no fault among the packets. -/
def Faultless (env : Env) (wires : List Packet) : Prop :=
  ∀ i wire, wires[i]? = some wire → ¬ Fault env (decide (i = 0)) wire

/-- One more packet without a fault. -/
lemma Faultless.concat {wire : Packet} (h : Faultless env before)
    (clean : ¬ Fault env before.isEmpty wire) : Faultless env (before ++ [wire]) := by
  intro i other at_
  rcases Nat.lt_trichotomy i before.length with lt | rfl | gt
  · rw [List.getElem?_append_left lt] at at_
    exact h i other at_
  · rw [List.getElem?_concat_length] at at_
    cases at_
    have start : before.isEmpty = decide (before.length = 0) := by cases before <;> simp
    rwa [start] at clean
  · rw [List.getElem?_eq_none (by simp; omega)] at at_
    cases at_

/-- `p` is the wire packet in plaintext. -/
def Normal (env : Env) (wire p : Packet) : Prop := Endpoint.normalize env wire = .ok p

/-- The read loop has ended at a fault. -/
structure Halted (env : Env) (before : List Packet) (s : Inbound) : Prop where
  fault : ∃ wire, s.endpoint.decoded = before ++ [wire] ∧ Fault env before.isEmpty wire
  ended : s.endpoint.readLoop = .ended
  closed : s.endpoint.conn.closed = true
  unsent : s.unsent = []

/-- What holds of the read loop and its two queues; `before` are the packets before a fault. -/
structure Core (env : Env) (before : List Packet) (s : Inbound) : Prop where
  first : s.endpoint.firstInboundPacket = s.endpoint.decoded.isEmpty
  item : ∀ p, s.endpoint.requests.item = some p → s.endpoint.readLoop = .offering ∧ p.type = .request
  thrown : s.endpoint.requests.thrown ≠ [] → s.endpoint.readLoop = .ended
  ended : s.endpoint.readLoop = .ended → s.endpoint.conn.closed = true
  withdrawn : s.events.withdrawn ≠ [] → s.endpoint.conn.closed = true
  faultless : Faultless env before
  normal : List.Forall₂ (Normal env) before (s.acted ++ s.unsent)
  sent : s.endpoint.requests.sent = s.acted.filter (·.type = .request)
  delivered : s.events.delivered = (s.acted.filter (·.type = .oneWay)).map Packet.eventMessage
  single : s.unsent.length ≤ 1
  halts : s.endpoint.decoded = before ∨ Halted env before s

/-- What holds between two steps: a `send` waits only in the read loop of an open connection. -/
structure Inv (env : Env) (before : List Packet) (s : Inbound) : Prop extends Core env before s where
  waiting : ∀ p, s.events.waiting = some p →
    s.endpoint.readLoop = .emitting ∧ s.endpoint.conn.closed = false ∧ p.type = .oneWay

/-- A read loop that has ended at a fault stays there. -/
lemma Halted.same {t : Inbound} (halted : Halted env before s)
    (decoded : t.endpoint.decoded = s.endpoint.decoded) (ended : t.endpoint.readLoop = .ended)
    (closed : t.endpoint.conn.closed = true) (unsent : t.unsent = s.unsent) : Halted env before t where
  fault := by
    rw [decoded]
    exact halted.fault
  ended := ended
  closed := closed
  unsent := unsent.trans halted.unsent

/-- Every packet that the read loop has decoded has been acted on. -/
lemma Core.caughtUp (running : s.endpoint.readLoop ≠ .ended)
    (item : s.endpoint.requests.item = none) (thrown : s.endpoint.requests.thrown = [])
    (withdrawn : s.events.withdrawn = []) (waiting : s.events.waiting = none)
    (first : s.endpoint.firstInboundPacket = s.endpoint.decoded.isEmpty)
    (decoded : s.endpoint.decoded = before) (faultless : Faultless env before)
    (normal : List.Forall₂ (Normal env) before s.acted)
    (sent : s.endpoint.requests.sent = s.acted.filter (·.type = .request))
    (delivered : s.events.delivered = (s.acted.filter (·.type = .oneWay)).map Packet.eventMessage) :
    Core env before s := by
  have nil : s.unsent = [] := by simp [unsent, item, thrown, withdrawn, waiting]
  exact {
    first, faultless, sent, delivered
    item := by simp [item]
    thrown := by simp [thrown]
    ended := fun ended => absurd ended running
    withdrawn := by simp [withdrawn]
    normal := by rwa [nil, List.append_nil]
    single := by simp [nil]
    halts := .inl decoded }

/-- A step that concerns no `send` takes nothing from what is still to be sent. -/
lemma unsent_same {t : Inbound} (same : ReactorQueue.SameSend s.endpoint.requests t.endpoint.requests)
    (events : t.events = s.events) : t.unsent = s.unsent := by
  rw [unsent, unsent, same.item, same.thrown, events]

/-- The read loop takes no packet and sends none. -/
lemma Core.same (core : Core env before s) (same : SameReads env e s.endpoint x)
    (offering : s.endpoint.readLoop = .offering → x.readLoop = .offering)
    (ended : s.endpoint.readLoop = .ended → x.readLoop = .ended)
    (closed : x.readLoop = .ended → x.conn.closed = true) :
    Core env before { s with endpoint := x } := by
  have unsent : ({ s with endpoint := x } : Inbound).unsent = s.unsent := unsent_same same.send rfl
  exact { core with
    first := same.first.trans (same.decoded ▸ core.first)
    item := fun p item => (core.item p (same.send.item ▸ item)).imp_left offering
    thrown := fun some => ended (core.thrown (same.send.thrown ▸ some))
    ended := closed
    withdrawn := fun some => same.conn.closed (core.withdrawn some)
    normal := unsent ▸ core.normal
    sent := same.send.sent.trans core.sent
    single := unsent ▸ core.single
    halts := core.halts.imp same.decoded.trans fun halted =>
      halted.same same.decoded (ended halted.ended) (same.conn.closed halted.closed) unsent }

/-- While the read loop of an open connection is between two packets, every packet it has decoded has
been acted on. -/
lemma Inv.between (inv : Inv env before s) (place : s.endpoint.readLoop = .decoding)
    (opened : s.endpoint.conn.closed = false) : s.endpoint.decoded = before ∧
      s.endpoint.requests.item = none ∧ s.endpoint.requests.thrown = [] ∧
      s.events.withdrawn = [] ∧ s.events.waiting = none ∧ s.unsent = [] := by
  have item : s.endpoint.requests.item = none := by
    rcases none_or : s.endpoint.requests.item with _ | p
    · rfl
    · cases place.symm.trans (inv.item p none_or).1
  have thrown : s.endpoint.requests.thrown = [] := by
    by_contra some
    cases place.symm.trans (inv.thrown some)
  have withdrawn : s.events.withdrawn = [] := by
    by_contra some
    cases opened.symm.trans (inv.withdrawn some)
  have waiting : s.events.waiting = none := by
    rcases none_or : s.events.waiting with _ | p
    · rfl
    · cases place.symm.trans (inv.waiting p none_or).1
  refine ⟨inv.halts.resolve_right fun halted => ?_, item, thrown, withdrawn, waiting, ?_⟩
  · cases opened.symm.trans halted.closed
  · simp [unsent, item, thrown, withdrawn, waiting]

/-- The read loop's `inboundRequests.send` of the last packet it has taken makes a turn. -/
lemma Core.sends {after : List Packet} {packet : Packet} (core : Core env before s)
    (first : x.firstInboundPacket = x.decoded.isEmpty) (decoded : x.decoded = after)
    (faultless : Faultless env after) (type : packet.type = .request)
    (normal : List.Forall₂ (Normal env) after (s.acted ++ [packet]))
    (thrown : s.endpoint.requests.thrown = []) (withdrawn : s.events.withdrawn = [])
    (waiting : s.events.waiting = none) (sends : Sends packet s.endpoint.requests x) :
    Core env after { s with
      endpoint := x
      acted := s.acted ++ x.requests.sent.drop s.endpoint.requests.sent.length } := by
  cases sends with
  | done sent item none loop =>
    have acted : x.requests.sent.drop s.endpoint.requests.sent.length = [packet] := by
      rw [sent, List.drop_left]
    rw [acted]
    refine .caughtUp (by simp [loop]) item (none.trans thrown) withdrawn waiting first decoded
      faultless normal ?_ ?_
    · simp [sent, core.sent, type]
    · simp [core.delivered, type]
  | parked sent item none loop =>
    have unsent : ({ s with endpoint := x } : Inbound).unsent = [packet] := by
      simp [Inbound.unsent, item, none, thrown, withdrawn, waiting]
    rw [sent, List.drop_length, List.append_nil]
    exact {
      first, faultless
      item := fun p some => by
        cases item.symm.trans some
        exact ⟨loop, type⟩
      thrown := by simp [none, thrown]
      ended := by simp [loop]
      withdrawn := by simp [withdrawn]
      normal := unsent ▸ normal
      sent := sent.trans core.sent
      delivered := core.delivered
      single := by simp [unsent]
      halts := .inl decoded }
  -- the packet of a `send` that throws is the one packet that is never acted on
  | throws sent item some loop closed =>
    have unsent : ({ s with endpoint := x } : Inbound).unsent = [packet] := by
      simp [Inbound.unsent, item, some, thrown, withdrawn, waiting]
    rw [sent, List.drop_length, List.append_nil]
    exact {
      first, faultless
      item := by simp [item]
      thrown := fun _ => loop
      ended := fun _ => closed
      withdrawn := by simp [withdrawn]
      normal := unsent ▸ normal
      sent := sent.trans core.sent
      delivered := core.delivered
      single := by simp [unsent]
      halts := .inl decoded }

/-- The channel closes with the connection. -/
lemma Core.closeEvents (core : Core env before s) {y : Endpoint}
    (waiting : ∀ p, s.events.waiting = some p → y.conn.closed = false ∧
      (s.endpoint.conn.closed = false → s.endpoint.readLoop = .emitting) ∧ p.type = .oneWay) :
    Inv env before (s.closeEvents y) := by
  unfold Inbound.closeEvents
  split
  case isTrue shut =>
    have closed : s.endpoint.conn.closed = true := (Bool.and_eq_true _ _ ▸ shut).1
    have unsent : ({ s with events := s.events.close } : Inbound).unsent = s.unsent := by
      simp [Inbound.unsent, EventChannel.close]
    exact { core with
      withdrawn := fun _ => closed
      normal := unsent ▸ core.normal
      single := unsent ▸ core.single
      halts := core.halts.imp_right fun halted => halted.same rfl halted.ended closed unsent
      waiting := by rintro p ⟨⟩ }
  case isFalse stays =>
    refine ⟨core, fun p some => ?_⟩
    obtain ⟨before, place, type⟩ := waiting p some
    have opened : s.endpoint.conn.closed = false := by
      simpa [before] using stays
    exact ⟨place opened, opened, type⟩

/-- A step of the endpoint in which the read loop sends no request and dispatches nothing. -/
lemma follow_none (same : ReactorQueue.SameSend s.endpoint.requests x.requests) :
    s.follow env none x = closeEvents s.endpoint { s with endpoint := x } := by
  simp only [follow, same.sent, List.drop_length, List.append_nil]

/-- A step of the endpoint in which the read loop dispatches a packet and sends no request. -/
lemma follow_some {packet : Packet}
    (same : ReactorQueue.SameSend s.endpoint.requests x.requests) :
    s.follow env (some packet) x =
      closeEvents s.endpoint (dispatch env packet { s with endpoint := x }) := by
  simp only [follow, same.sent, List.drop_length, List.append_nil]

/-- The read loop stops at a fault. -/
lemma Inv.fault {wire : Packet} (inv : Inv env before s) (taken : Takes env e wire s.endpoint x)
    (fault : Fault env s.endpoint.firstInboundPacket wire)
    (same : ReactorQueue.SameSend s.endpoint.requests x.requests) (ended : x.readLoop = .ended)
    (closed : x.conn.closed = true) : Core env before { s with endpoint := x } := by
  obtain ⟨decoded, _, _, _, _, nil⟩ := inv.between taken.place taken.opened
  have unsent : ({ s with endpoint := x } : Inbound).unsent = [] := by
    rw [← nil]
    exact unsent_same same rfl
  rw [inv.first, decoded] at fault
  have last : x.decoded = before ++ [wire] := by rw [taken.decoded, decoded]
  exact { inv.toCore with
    first := by simp [taken.first, taken.decoded]
    item := fun p item => by cases taken.place.symm.trans (inv.item p (same.item ▸ item)).1
    thrown := fun _ => ended
    ended := fun _ => closed
    withdrawn := fun _ => closed
    normal := by
      rw [unsent, ← nil]
      exact inv.normal
    sent := same.sent.trans inv.sent
    single := by simp [unsent]
    halts := .inr ⟨⟨wire, last, fault⟩, ended, closed, unsent⟩ }

/-- The read loop takes a packet that is no fault. -/
lemma Inv.taken {wire packet : Packet} (inv : Inv env before s)
    (taken : Takes env e wire s.endpoint x) (clean : ¬ Fault env s.endpoint.firstInboundPacket wire)
    (normal : Normal env wire packet) :
    x.firstInboundPacket = x.decoded.isEmpty ∧ x.decoded = before ++ [wire] ∧
      Faultless env (before ++ [wire]) ∧
      List.Forall₂ (Normal env) (before ++ [wire]) (s.acted ++ [packet]) := by
  obtain ⟨decoded, _, _, _, _, nil⟩ := inv.between taken.place taken.opened
  rw [inv.first, decoded] at clean
  refine ⟨by simp [taken.first, taken.decoded], by rw [taken.decoded, decoded],
    inv.faultless.concat clean, List.rel_append ?_ (.cons normal .nil)⟩
  have acted := inv.normal
  rwa [nil, List.append_nil] at acted

/-- The read loop gives a response to its request. -/
lemma Inv.response {wire packet : Packet} (inv : Inv env before s)
    (taken : Takes env e wire s.endpoint x) (clean : ¬ Fault env s.endpoint.firstInboundPacket wire)
    (normal : Normal env wire packet) (type : packet.type = .response)
    (same : ReactorQueue.SameSend s.endpoint.requests x.requests) (loop : x.readLoop = .decoding) :
    Core env (before ++ [wire]) (dispatch env packet { s with endpoint := x }) := by
  obtain ⟨_, item, thrown, withdrawn, waiting, _⟩ := inv.between taken.place taken.opened
  obtain ⟨first, decoded, faultless, acted⟩ := inv.taken taken clean normal
  simp only [dispatch, type]
  refine .caughtUp (by simp [loop]) (same.item.trans item) (same.thrown.trans thrown) withdrawn waiting
    first decoded faultless acted ?_ ?_
  · simp [same.sent, inv.sent, type]
  · simp [inv.delivered, type]

/-- The read loop sends a message to the channel, or waits with it. -/
lemma Inv.emits {wire packet : Packet} (inv : Inv env before s)
    (taken : Takes env e wire s.endpoint x) (clean : ¬ Fault env s.endpoint.firstInboundPacket wire)
    (normal : Normal env wire packet) (type : packet.type = .oneWay)
    (same : ReactorQueue.SameSend s.endpoint.requests x.requests) (loop : x.readLoop = .emitting) :
    Core env (before ++ [wire]) (dispatch env packet { s with endpoint := x }) ∧
      ∀ p, (dispatch env packet { s with endpoint := x }).events.waiting = some p → p = packet := by
  obtain ⟨_, item, thrown, withdrawn, waiting, _⟩ := inv.between taken.place taken.opened
  obtain ⟨first, decoded, faultless, acted⟩ := inv.taken taken clean normal
  rw [← same.item] at item
  rw [← same.thrown] at thrown
  simp only [dispatch, type]
  obtain ⟨gone, ⟨idle, delivered⟩ | ⟨waits, delivered⟩⟩ :=
    EventChannel.send_cases env.config.eventsKind packet s.events
  -- the channel has taken the message, or the read loop waits with it
  · rw [waiting] at idle
    rw [if_pos idle]
    refine ⟨.caughtUp (by simp [loop]) item thrown (gone.trans withdrawn) idle first decoded faultless
      acted ?_ ?_, by simp [idle]⟩
    · simp [same.sent, inv.sent, type]
    · simp [delivered, inv.delivered, type]
  · rw [if_neg (by simp [waits])]
    have unsent : ({ s with
        endpoint := x, events := s.events.send env.config.eventsKind packet } : Inbound).unsent =
        [packet] := by
      simp [Inbound.unsent, item, thrown, gone, withdrawn, waits]
    refine ⟨?_, fun p some => (Option.some.inj (waits.symm.trans some)).symm⟩
    exact {
      first, faultless
      item := by simp [item]
      thrown := by simp [thrown]
      ended := by simp [loop]
      withdrawn := by simp [gone, withdrawn]
      normal := unsent ▸ acted
      sent := same.sent.trans inv.sent
      delivered := delivered.trans inv.delivered
      single := by simp [unsent]
      halts := .inl decoded }

/-- A parked `inboundRequests.send` goes on. -/
lemma Inv.offered {packet : Packet} (inv : Inv env before s)
    (decoded : x.decoded = s.endpoint.decoded)
    (first : x.firstInboundPacket = s.endpoint.firstInboundPacket)
    (item : s.endpoint.requests.item = some packet) (sends : Sends packet s.endpoint.requests x) :
    Core env before { s with
      endpoint := x
      acted := s.acted ++ x.requests.sent.drop s.endpoint.requests.sent.length } := by
  have single := inv.single
  simp only [unsent, item, List.length_append, Option.toList_some, List.length_singleton] at single
  have thrown : s.endpoint.requests.thrown = [] := List.eq_nil_of_length_eq_zero (by omega)
  have withdrawn : s.events.withdrawn = [] := List.eq_nil_of_length_eq_zero (by omega)
  have waiting : s.events.waiting = none := by
    rcases waiting : s.events.waiting with _ | p
    · rfl
    · simp only [waiting, Option.toList_some, List.length_singleton] at single
      omega
  have running : s.endpoint.decoded = before := by
    refine inv.halts.resolve_right fun halted => ?_
    have nil := halted.unsent
    simp [unsent, item] at nil
  have normal := inv.normal
  rw [show s.unsent = [packet] by simp [unsent, item, thrown, withdrawn, waiting]] at normal
  refine inv.toCore.sends ?_ (decoded.trans running) inv.faultless (inv.item packet item).2 normal
    thrown withdrawn waiting sends
  rw [first, decoded]
  exact inv.first

/-- Every step of the endpoint keeps what holds, of the packets it had taken or of one more. -/
lemma Inv.endpoint (inv : Inv env before s) (ran : s.emits e = true)
    (st : s.endpoint.step env e = some x) :
    ∃ after, Inv env after (s.follow env (s.endpoint.dispatched env e) x) := by
  have reads := Endpoint.step_reads st
  generalize s.endpoint.dispatched env e = packet at reads
  cases reads with
  | aside same loop =>
    rw [follow_none same.send]
    have core := inv.toCore.same same loop.trans loop.trans fun ended =>
      same.conn.closed (inv.ended (loop.symm.trans ended))
    refine ⟨before, core.closeEvents fun p waits => ?_⟩
    obtain ⟨place, opened, type⟩ := inv.waiting p waits
    exact ⟨opened, fun _ => loop.trans place, type⟩
  | turn same offering ended emitted running =>
    rw [follow_none same.send]
    have core := inv.toCore.same same (absurd · offering) (absurd · ended) (absurd · running)
    refine ⟨before, core.closeEvents fun p (waits : s.events.waiting = some p) => ?_⟩
    -- a message that waits keeps the read loop where it is
    rw [emitted (inv.waiting p waits).1, Inbound.emits, waits] at ran
    cases ran
  | ends same offering ended closed =>
    rw [follow_none same.send]
    have core := inv.toCore.same same (absurd · offering) (fun _ => ended) fun _ => closed
    refine ⟨before, core.closeEvents fun p waits => ?_⟩
    obtain ⟨_, opened, type⟩ := inv.waiting p waits
    exact ⟨opened, fun opened => (by cases opened.symm.trans closed), type⟩
  | fault taken fault same ended conn =>
    rw [follow_none same]
    have core := inv.fault taken fault same ended (by rw [conn, Conn.shutdown_closed])
    have waiting := (inv.between taken.place taken.opened).2.2.2.2.1
    exact ⟨before, core.closeEvents fun p waits => by cases waiting.symm.trans waits⟩
  | response taken clean normal type same loop _ =>
    rw [follow_some same]
    have core := inv.response taken clean normal type same loop
    have waiting := (inv.between taken.place taken.opened).2.2.2.2.1
    refine ⟨_, core.closeEvents fun p waits => ?_⟩
    simp only [dispatch, type] at waits
    cases waiting.symm.trans waits
  | emits taken clean normal type same loop _ =>
    rw [follow_some same]
    obtain ⟨core, only⟩ := inv.emits taken clean normal type same loop
    refine ⟨_, core.closeEvents fun p waits => ⟨taken.opened, fun _ => ?_, only p waits ▸ type⟩⟩
    simp only [dispatch, type]
    exact loop
  | @offers wire packet taken clean normal type sends _ =>
    obtain ⟨_, _, thrown, withdrawn, waiting, _⟩ := inv.between taken.place taken.opened
    obtain ⟨first, decoded, faultless, acted⟩ := inv.taken taken clean normal
    have core := inv.toCore.sends first decoded faultless type acted thrown withdrawn waiting sends
    simp only [follow, dispatch, type]
    exact ⟨_, core.closeEvents fun p waits => by cases waiting.symm.trans waits⟩
  | offered decoded first _ place item sends =>
    have core := inv.offered decoded first item sends
    refine ⟨before, core.closeEvents fun p waits => ?_⟩
    cases place.symm.trans (inv.waiting p waits).1

/-- A collector takes the next message. -/
lemma Inv.collect (inv : Inv env before s) : Inv env before { s with
    events := s.events.receive s.endpoint.conn.closed
    acted := s.acted ++ s.events.waiting.toList } := by
  obtain ⟨withdrawn, waiting, delivered⟩ := s.events.receive_histories s.endpoint.conn.closed
  rcases waits : s.events.waiting with _ | p
  · have unsent : ({ s with events := s.events.receive s.endpoint.conn.closed } : Inbound).unsent =
        s.unsent := by
      simp [Inbound.unsent, withdrawn, waiting, waits]
    simp only [Option.toList_none, List.append_nil]
    rw [waits, Option.toList_none, List.map_nil, List.append_nil] at delivered
    exact { inv with
      withdrawn := withdrawn ▸ inv.withdrawn
      normal := unsent ▸ inv.normal
      delivered := delivered.trans inv.delivered
      single := unsent ▸ inv.single
      halts := inv.halts.imp_right fun halted => halted.same rfl halted.ended halted.closed unsent
      waiting := fun p some => by cases waiting.symm.trans some }
  -- the message that waited is the one unsent packet, and it is acted on now
  · obtain ⟨place, opened, type⟩ := inv.waiting p waits
    have single := inv.single
    simp only [Inbound.unsent, waits, List.length_append, Option.toList_some, List.length_singleton]
      at single
    have item : s.endpoint.requests.item = none := by
      rcases item : s.endpoint.requests.item with _ | q
      · rfl
      · cases place.symm.trans (inv.item q item).1
    have thrown : s.endpoint.requests.thrown = [] := List.eq_nil_of_length_eq_zero (by omega)
    have gone : s.events.withdrawn = [] := List.eq_nil_of_length_eq_zero (by omega)
    have running : s.endpoint.decoded = before := by
      refine inv.halts.resolve_right fun halted => ?_
      cases place.symm.trans halted.ended
    have normal := inv.normal
    rw [show s.unsent = [p] by simp [Inbound.unsent, item, thrown, gone, waits]] at normal
    refine ⟨.caughtUp (by simp [place]) item thrown (withdrawn.trans gone) waiting inv.first running
      inv.faultless normal ?_ ?_, fun p some => (by cases waiting.symm.trans some)⟩
    · simp [inv.sent, type]
    · simp [delivered, inv.delivered, waits, type]

/-- A new endpoint has read nothing. -/
lemma Inv.new (env : Env) : Inv env [] (.new env) where
  first := rfl
  item p item := by cases item
  thrown some := absurd rfl some
  ended ended := by cases ended
  withdrawn some := absurd rfl some
  faultless i wire at_ := by simp at at_
  normal := .nil
  sent := rfl
  delivered := rfl
  single := Nat.zero_le 1
  halts := .inl rfl
  waiting p some := by cases some

/-- Every run keeps what holds, of the packets before the first fault. -/
lemma Inv.reach (run : Runs.Reach (step env) Runs.always (.new env) s) :
    ∃ before, Inv env before s := by
  refine run.invariant (P := fun s => ∃ before, Inv env before s) ⟨[], .new env⟩ ?_
  rintro s e s' ⟨before, inv⟩ _ st
  cases e with
  | endpoint e =>
    obtain ⟨ran, x, moved, rfl⟩ := step_endpoint st
    exact inv.endpoint ran moved
  | collect =>
    cases st
    exact ⟨before, inv.collect⟩
  | collectorCancelled =>
    obtain ⟨_, st⟩ := Option.ite_none_right_eq_some.mp st
    cases st
    exact ⟨before, { inv with
      halts := inv.halts.imp_right fun halted => halted.same rfl halted.ended halted.closed rfl }⟩

/-! ## Responses -/

/-- Closing the event stream takes nothing from what was acted on. -/
lemma closeEvents_acted (y : Endpoint) (s : Inbound) : (s.closeEvents y).acted = s.acted := by
  unfold closeEvents
  split <;> rfl

/-- Closing the event stream does not touch the endpoint. -/
lemma closeEvents_endpoint (y : Endpoint) (s : Inbound) :
    (s.closeEvents y).endpoint = s.endpoint := by
  unfold closeEvents
  split <;> rfl

/-- Dispatching does not touch the endpoint. -/
lemma dispatch_endpoint (packet : Packet) (s : Inbound) :
    (s.dispatch env packet).endpoint = s.endpoint := by
  unfold dispatch
  split <;> rfl

/-- What follows a step of the endpoint does not touch it. -/
lemma follow_endpoint (env : Env) (packet : Option Packet) (x : Endpoint) (s : Inbound) :
    (s.follow env packet x).endpoint = x := by
  simp only [follow, closeEvents_endpoint]
  split
  · rfl
  · exact dispatch_endpoint _ _

/-- What was acted on stays so. -/
lemma dispatch_acted (packet : Packet) (s : Inbound) : s.acted ⊆ (s.dispatch env packet).acted := by
  unfold dispatch
  split
  · exact List.Subset.refl _
  · exact List.subset_append_left _ _
  · dsimp only
    split
    · exact List.subset_append_left _ _
    · exact List.Subset.refl _

/-- What has been acted on stays, and a response that is dispatched is added. -/
lemma follow_acted (env : Env) (packet : Option Packet) (x : Endpoint) (s : Inbound) :
    s.acted ⊆ (s.follow env packet x).acted ∧
      ∀ p, packet = some p → p.type = .response → p ∈ (s.follow env packet x).acted := by
  simp only [follow, closeEvents_acted]
  cases packet with
  | none => exact ⟨List.subset_append_left _ _, by simp⟩
  | some packet =>
    refine ⟨fun p mem => dispatch_acted packet _ (List.mem_append_left _ mem), ?_⟩
    rintro p ⟨⟩ type
    simp [dispatch, type]

/-- The connection and the requests of a reachable state. -/
lemma endpoint_inv (run : Runs.Reach (step env) Runs.always (.new env) s) :
    Endpoint.Inv env s.endpoint := by
  refine run.invariant (P := fun s => Endpoint.Inv env s.endpoint) (.new env) ?_
  intro s e s' inv _ st
  cases e with
  | endpoint e =>
    obtain ⟨_, x, moved, rfl⟩ := step_endpoint st
    rw [follow_endpoint]
    exact inv.step moved
  | collect =>
    cases st
    exact inv
  | collectorCancelled =>
    obtain ⟨_, st⟩ := Option.ite_none_right_eq_some.mp st
    cases st
    exact inv

/-- A response that a request stores was dispatched by the read loop. -/
def Answered (s : Inbound) : Prop :=
  ∀ i p, (s.endpoint.conn.calls i).req.response = some p → p ∈ s.acted ∧ p.type = .response

/-- Every step of the endpoint keeps it so. -/
lemma Answered.endpoint (answered : s.Answered)
    (reach : Runs.Reach (Conn.step env) Runs.always .init s.endpoint.conn)
    (st : s.endpoint.step env e = some x) :
    (s.follow env (s.endpoint.dispatched env e) x).Answered := by
  have wf : s.endpoint.conn.Wf := .reach reach
  have reg : s.endpoint.conn.Reg := .reach (Conn.reach_unguarded reach)
  have conn := (Endpoint.step_reads st).conn
  generalize s.endpoint.dispatched env e = packet at conn
  obtain ⟨kept, added⟩ := follow_acted env packet x s
  intro i p stored
  rw [follow_endpoint] at stored
  by_cases before : (s.endpoint.conn.calls i).req.response = some p
  · obtain ⟨acted, type⟩ := answered i p before
    exact ⟨kept acted, type⟩
  rcases conn with conn | ⟨q, dispatched, type, st⟩
  · -- no other step stores a response
    exfalso
    cases conn with
    | rests eq => exact before (eq ▸ stored)
    | shuts eq =>
      have st : s.endpoint.conn.step env .shutdown = some x.conn := by rw [eq]; rfl
      cases (Conn.step_stores wf reg st before stored).1
    | responds st => cases (Conn.step_stores wf reg st before stored).1
    | steps _ free st =>
      obtain ⟨rfl, _⟩ := Conn.step_stores wf reg st before stored
      cases free
  · obtain ⟨event, _⟩ := Conn.step_stores wf reg st before stored
    cases event
    exact ⟨added p dispatched type, type⟩

/-- In every run a stored response was dispatched. -/
lemma Answered.reach (run : Runs.Reach (step env) Runs.always (.new env) s) : s.Answered := by
  induction run with
  | start =>
    intro i p stored
    cases stored
  | @next s e s' before _ st answered =>
    cases e with
    | endpoint e =>
      obtain ⟨_, x, moved, rfl⟩ := step_endpoint st
      exact answered.endpoint (endpoint_inv before).conn moved
    | collect =>
      cases st
      intro i p stored
      exact (answered i p stored).imp_left fun mem => List.mem_append_left _ mem
    | collectorCancelled =>
      obtain ⟨_, st⟩ := Option.ite_none_right_eq_some.mp st
      cases st
      exact answered

/-- A dispatched response is given to the connection. -/
lemma decode_response {p : Packet} (dispatched : s.endpoint.dispatched env .decode = some p)
    (type : p.type = .response) (st : s.step env (.endpoint .decode) = some s') :
    s'.acted = s.acted ++ [p] ∧ s'.endpoint.conn = s.endpoint.conn.onResponse p := by
  obtain ⟨_, x, moved, rfl⟩ := step_endpoint st
  have reads := Endpoint.step_reads moved
  rw [dispatched] at reads ⊢
  cases reads with
  | response _ _ _ _ same _ st =>
    rw [follow_some same, closeEvents_acted, closeEvents_endpoint, dispatch_endpoint]
    refine ⟨?_, (Conn.step_response st).2⟩
    simp only [dispatch, type]
  | emits _ _ _ other _ _ _ => cases type.symm.trans other
  | offers _ _ _ other _ _ => cases type.symm.trans other

/-! ## What the read loop acts on -/

/-- What the read loop acts on for a wire packet: its plaintext, with the marker taken off. -/
structure Plain (env : Env) (wire p : Packet) : Prop where
  marker : p.compression = .none
  header : p.type = wire.type ∧ p.messageId = wire.messageId ∧ p.bizType = wire.bizType
  unmarked : wire.compression = .none → p = wire
  plaintext : wire.compression ≠ .none →
    env.codecs.decompress wire.payload wire.compression env.config.maxDecompressedPayloadLength =
      .ok p.payload ∧ (p.payload.size : Int) ≤ env.config.maxDecompressedPayloadLength

/-- What the read loop hands on is plaintext within the limit. -/
lemma Normal.plain {wire p : Packet} (actual : env.codecs.Actual) (normal : Normal env wire p) :
    Plain env wire p := by
  have header := Codecs.decompressPacket_header normal
  unfold Normal Endpoint.normalize Codecs.decompressPacket at normal
  split at normal
  case isTrue unmarked =>
    cases normal
    exact ⟨unmarked, header, fun _ => rfl, fun marked => absurd unmarked marked⟩
  case isFalse marked =>
    split at normal
    case h_1 payload ran =>
      cases normal
      exact ⟨rfl, header, fun unmarked => absurd unmarked marked,
        fun _ => ⟨ran, actual.decompress_le marked ran⟩⟩
    case h_2 => cases normal

/-- In every reachable state the packets that the read loop has acted on are, in wire order and in
plaintext, those before the first fault, but for one whose `send` is in progress or was cut off by the
end of the connection. After a fault all of them have been acted on, nothing more is, and the
connection is closed. To act on a packet is to queue a request, to deliver a message, or to give a
response to the connection; a request stores no other response. -/
theorem acts_before_fault (actual : env.codecs.Actual)
    (run : Runs.Reach (step env) Runs.always (.new env) s) :
    (∃ before, Faultless env before ∧ (s.endpoint.decoded = before ∨ Halted env before s) ∧
      List.Forall₂ (Plain env) before (s.acted ++ s.unsent)) ∧
    s.unsent.length ≤ 1 ∧
    (s.unsent ≠ [] → s.endpoint.readLoop = .offering ∨ s.endpoint.readLoop = .emitting ∨
      s.endpoint.conn.closed = true) ∧
    s.endpoint.requests.sent = s.acted.filter (·.type = .request) ∧
    s.events.delivered = (s.acted.filter (·.type = .oneWay)).map Packet.eventMessage ∧
    s.Answered ∧
    ∀ p s', s.endpoint.dispatched env .decode = some p → p.type = .response →
      s.step env (.endpoint .decode) = some s' →
      s'.acted = s.acted ++ [p] ∧ s'.endpoint.conn = s.endpoint.conn.onResponse p := by
  obtain ⟨before, inv⟩ := Inv.reach run
  refine ⟨⟨before, inv.faultless, inv.halts, ?_⟩, inv.single, fun some => ?_, inv.sent, inv.delivered,
    .reach run, fun p s' dispatched type st => decode_response dispatched type st⟩
  · exact inv.normal.imp fun _ _ normal => normal.plain actual
  · by_contra none
    simp only [not_or] at none
    obtain ⟨offering, emitting, opened⟩ := none
    refine some ?_
    have item : s.endpoint.requests.item = none := by
      rcases item : s.endpoint.requests.item with _ | p
      · rfl
      · exact absurd (inv.item p item).1 offering
    have thrown : s.endpoint.requests.thrown = [] := by
      by_contra thrown
      exact opened (inv.ended (inv.thrown thrown))
    have withdrawn : s.events.withdrawn = [] := by
      by_contra withdrawn
      exact opened (inv.withdrawn withdrawn)
    have waiting : s.events.waiting = none := by
      rcases waiting : s.events.waiting with _ | p
      · rfl
      · exact absurd (inv.waiting p waiting).1 emitting
    simp [unsent, item, thrown, withdrawn, waiting]

/-- A zstd that copies its input. -/
def copying : Streamer Unit where
  setLevel _ _ := (none, ())
  stream _ unread capacity :=
    (⟨min unread.length capacity, unread.take capacity, .ok 0, Nat.min_le_left _ _,
      List.length_take_le _ _⟩, ())

/-- Codecs that take one payload of one byte, and refuse any other. -/
def frugal : Codecs where
  zstd := ⟨id, fun b limit => if b = .one ∧ limit = 1 then .ok .one else .error "unknown frame"⟩
  zlib := ⟨id, fun _ _ => .error "unknown frame"⟩

/-- They are codecs as the platforms have them. -/
lemma frugal_actual : frugal.Actual where
  zstd input limit bytes ran := by
    simp only [frugal] at ran
    split at ran
    case isTrue known =>
      obtain ⟨rfl, rfl⟩ := known
      cases ran
      have copied : ((ZstdKmp.decompress copying .one 1 1).exec ⟨(), []⟩).1 = .ok (some [7]) := by
        decide
      rcases result : (ZstdKmp.decompress copying .one 1 1).exec ⟨(), []⟩ with ⟨r, t⟩
      rw [result] at copied
      obtain rfl : r = .ok (some [7]) := copied
      exact .kmp result
    case isFalse => cases ran
  zlib input limit bytes ran := by cases ran

/-- The limit on plaintexts is an `Int` that can be asked for. -/
lemma gated_limit : (0 : Int) ≤ 1 := by decide

/-- The required biz type is a byte. -/
lemma gated_range : ∀ b ∈ some (0 : Int), 0 ≤ b ∧ b ≤ 255 := by decide

/-- A connection whose first packet must be a request of biz type 0, with plaintexts of one byte. -/
def gated : Env where
  config := { (Env.tight .inline).config with
    maxDecompressedPayloadLength := 1, decompressed_nonneg := gated_limit
    requiredFirstRequestBizType := some 0, firstBizType_range := gated_range }
  framing := .packets
  codecs := frugal

/-- A packet with one byte. -/
def packet (type : PacketType) (compression : Compression) : Packet :=
  ⟨type, 1, 0, .one, .empty, compression, 0, Packet.bizType_zero, Packet.reserved_zero⟩

/-- A compressed request and a message are acted on; the third packet does not decompress. -/
theorem acts_before_fault_third : ∃ s, Runs.Reach (step gated) Runs.always (.new gated) s ∧
    s.acted = [packet .request .none, packet .oneWay .none] ∧ s.endpoint.conn.closed = true ∧
    ∃ before, before.length = 2 ∧ List.Forall₂ (Plain gated) before s.acted := by
  have ran : ((Runs.exec (step gated) (.new gated)
      [.endpoint (.read (PacketCodec.encode (packet .request .zstd) ++
        (PacketCodec.encode (packet .oneWay .none) ++ PacketCodec.encode (packet .request .zlib)))),
        .endpoint .decode, .endpoint .decode, .endpoint .emitted, .endpoint .decode]).map
      fun s => (s.acted, s.unsent, s.endpoint.conn.closed)) =
      some ([packet .request .none, packet .oneWay .none], [], true) := by decide
  obtain ⟨s, exec, facts⟩ := Option.map_eq_some_iff.mp ran
  simp only [Prod.mk.injEq] at facts
  obtain ⟨acted, unsent, closed⟩ := facts
  have reach := Runs.reach_always_of_exec exec
  obtain ⟨before, _, _, plain⟩ := (acts_before_fault frugal_actual reach).1
  rw [unsent, List.append_nil] at plain
  exact ⟨s, reach, acted, closed, before, by rw [plain.length_eq, acted]; rfl, plain⟩

end Inbound

end MsgTrans
