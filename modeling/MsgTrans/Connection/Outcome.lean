import Mathlib.Data.List.Induction
import MsgTrans.Connection.Progress
import MsgTrans.Connection.Registry

/-!
# The outcome of a request

A request ends once. If it returns a payload, that is the payload of the one Response with its id
that the read loop processed while the request was registered; a Response settles at most one
request, and one whose id is not registered changes nothing. Ids are handed out in increasing order
and are refused once the last one is gone.
-/

namespace MsgTrans

namespace Conn

variable {env : Env} {s t : Conn} {i : Nat}

/-! ## Responses -/

/-- The registered request stores the response. -/
lemma onResponse_self {packet : Packet} (wf : s.Wf) (reg : s.Reg) (opened : s.closed = false)
    (found : s.pending.find packet.messageId = some i) :
    ((s.onResponse packet).calls i).req.response = some packet := by
  have live := reg.live opened _ i found
  rw [onResponse, found]
  dsimp only
  rw [(wakeOneInFlightWaiter_waking _).response]
  exact (Later.settle_self (s := s.unregister packet.messageId) (wf.call i) (settles_response packet)
    live).1

/-- No other request does. -/
lemma onResponse_other {packet : Packet} {j : Nat} (wf : s.Wf)
    (found : s.pending.find packet.messageId = some i) (ne : j ≠ i) :
    ((s.onResponse packet).calls j).req.response = (s.calls j).req.response := by
  rw [onResponse, found]
  dsimp only
  rw [(wakeOneInFlightWaiter_waking _).response]
  exact congrArg (·.req.response)
    (complete_calls_of_ne (s := s.unregister packet.messageId) (wf.call i) ne)

/-- A response that no request waits for changes nothing. -/
lemma onResponse_none {packet : Packet} (absent : s.pending.find packet.messageId = none) :
    s.onResponse packet = s := by
  rw [onResponse, absent]

/-- Responses are read on open connections only. -/
lemma step_response {packet : Packet} (h : s.step env (.response packet) = some t) :
    s.closed = false ∧ t = s.onResponse packet := by
  simp only [step] at h
  split at h
  case isTrue ok => exact ⟨ok.2, by simpa using h.symm⟩
  case isFalse => cases h

/-- A response appears in a `Pending` only when the read loop processes it while the request is
registered under its id. -/
lemma step_stores {e : Event} {p : Packet} (wf : s.Wf) (reg : s.Reg) (h : s.step env e = some t)
    (fresh : (s.calls i).req.response ≠ some p) (stored : (t.calls i).req.response = some p) :
    e = .response p ∧ s.pending.find p.messageId = some i := by
  by_cases event : ∃ q, e = .response q
  · obtain ⟨q, rfl⟩ := event
    obtain ⟨opened, rfl⟩ := step_response h
    cases found : s.pending.find q.messageId with
    | none =>
      rw [onResponse_none found] at stored
      exact absurd stored fresh
    | some j =>
      by_cases eq : i = j
      · subst eq
        rw [onResponse_self wf reg opened found] at stored
        cases stored
        exact ⟨rfl, found⟩
      · rw [onResponse_other wf found eq] at stored
        exact absurd stored fresh
  · have other : ∀ q, (e.trigger env s).event ≠ .response q := fun q eq => event ⟨q, eq⟩
    rcases (Later.step wf h).calls i with later | ⟨_, new⟩
    · rw [later.answered other] at stored
      exact absurd stored fresh
    · rw [new.answered other] at stored
      cases stored

/-! ## Runs -/

/-- The calls and the registry of a run are well formed. -/
lemma wf_reg_exec {evs : List Event} (run : Runs.exec (step env) init evs = some t) :
    t.Wf ∧ t.Reg := by
  have reach := reach_unguarded (Runs.reach_always_of_exec run)
  exact ⟨.reach reach, .reach reach⟩

/-- Along a run every call woken with a response, or returning, has it from its `Pending`. -/
lemma faithful (run : Runs.Reach (step env) Runs.always init t) (i : Nat) : (t.calls i).Faithful := by
  have both : t.Wf ∧ ∀ i, (t.calls i).Faithful := by
    refine run.invariant (P := fun t => t.Wf ∧ ∀ i, (t.calls i).Faithful)
      ⟨.init, fun i => ⟨by simp [init], by simp [init, Call.Returns]⟩⟩ ?_
    intro s e t held _ st
    refine ⟨Runs.star_preserves (fun _ _ eff wf => Wf.effect wf eff) (step_effects st) held.1, ?_⟩
    intro i
    rcases (Later.step held.1 st).calls i with later | ⟨_, new⟩
    · exact later.faithful (held.2 i)
    · exact new.faithful
  exact both.2 i

/-- A call that has been made is later in every state that follows. -/
lemma later_exec {evs : List Event} (wf : s.Wf) (run : Runs.exec (step env) s evs = some t) :
    s.next ≤ t.next ∧ ∀ i < s.next, (t.calls i).kind = (s.calls i).kind ∧
      (t.calls i).req.id = (s.calls i).req.id ∧
      ((s.calls i).req.isCompleted → (t.calls i).req.isCompleted) ∧
      ∀ o, (s.calls i).pc = .ended o → (t.calls i).pc = .ended o := by
  induction evs generalizing s with
  | nil =>
    cases run
    exact ⟨le_rfl, fun i _ => ⟨rfl, rfl, id, fun _ => id⟩⟩
  | cons e evs ih =>
    obtain ⟨u, st, rest⟩ := Option.bind_eq_some_iff.mp run
    have first := Later.step wf st
    have wf' : u.Wf := Runs.star_preserves (fun _ _ eff wf => Wf.effect wf eff) (step_effects st) wf
    obtain ⟨next, calls⟩ := ih wf' rest
    refine ⟨Nat.le_trans first.next next, fun i lt => ?_⟩
    have before := first.call lt
    obtain ⟨kind, id, completed, ended⟩ := calls i (lt_of_lt_of_le lt first.next)
    exact ⟨kind.trans before.kind, id.trans before.id, fun done => completed (before.completed done),
      fun o pc => ended o (before.ended o pc)⟩

/-- Right after the events `pre`, call `i` is registered under the id that the Response `p` carries. -/
def Delivered (env : Env) (pre : List Event) (p : Packet) (i : Nat) : Prop :=
  ∃ s, Runs.exec (step env) init pre = some s ∧ s.Registered i ∧ p.messageId = (s.calls i).req.id

/-- A stored response was delivered. -/
lemma delivered_of_stored {evs : List Event} {p : Packet}
    (run : Runs.exec (step env) init evs = some t) (stored : (t.calls i).req.response = some p) :
    ∃ pre post, evs = pre ++ .response p :: post ∧ Delivered env pre p i := by
  induction evs using List.reverseRecOn generalizing t with
  | nil =>
    cases run
    simp [init] at stored
  | append_singleton evs e ih =>
    obtain ⟨s, before, st⟩ := Runs.exec_concat run
    obtain ⟨wf, reg⟩ := wf_reg_exec before
    by_cases fresh : (s.calls i).req.response = some p
    · obtain ⟨pre, post, rfl, delivered⟩ := ih before fresh
      exact ⟨pre, post ++ [e], by simp, delivered⟩
    · obtain ⟨rfl, found⟩ := step_stores wf reg st fresh stored
      have own := (reg.entry _ i found).1
      refine ⟨evs, [], rfl, s, before, ⟨wf.registry _ i found, ?_⟩, own.symm⟩
      rw [own, found]

/-- After a delivered Response has been processed, the call is settled for good: it cannot be
registered again. -/
lemma delivered_once {pre mid : List Event} {p q : Packet} (first : Delivered env pre p i)
    (again : Delivered env (pre ++ .response p :: mid) q i)
    (opened : ∃ u, Runs.exec (step env) init (pre ++ .response p :: mid ++ [.response q]) = some u) :
    False := by
  obtain ⟨s, before, ⟨request, found⟩, id⟩ := first
  obtain ⟨u, after, ⟨_, found'⟩, id'⟩ := again
  obtain ⟨w, run⟩ := opened
  obtain ⟨u', after', st⟩ := Runs.exec_concat run
  rw [after] at after'
  cases after'
  obtain ⟨wf, reg⟩ := wf_reg_exec before
  obtain ⟨_, reg'⟩ := wf_reg_exec after
  rw [Runs.exec_append, before, Option.bind_some, Runs.exec] at after
  obtain ⟨v, first, rest⟩ := Option.bind_eq_some_iff.mp after
  obtain ⟨open₀, rfl⟩ := step_response first
  have wf' : (s.onResponse p).Wf := wf.onResponse
  have stored := onResponse_self wf reg open₀ (id ▸ found)
  have lt : i < (s.onResponse p).next := by
    rw [(onResponse_frame p s).next]
    exact wf.lt_of_request request
  have done := ((later_exec wf' rest).2 i lt).2.2.1 (by simp [Pending.isCompleted, stored])
  have live := reg'.live (step_response st).1 _ i found'
  simp [live] at done

/-! ## Ids -/

/-- Only a new request takes an id. -/
lemma effect_requestId {A : Trigger} (other : A.event = .shutdown) (h : Effect env A s t) :
    t.requestId = s.requestId := by
  cases h with
  | startRequest event _ _ _ _ _ _ _ _ => simp [other] at event
  | slotRefused _ _ _ _ _ _ => exact (finish_still _ _ _).requestId
  | drainTake _ _ _ => exact (releaseOutboundBytes_waking _ _).requestId
  | selectGate _ _ _ => exact (abortSelect_waking _ _ _).requestId
  | selectCancelled _ _ _ => exact (abortSelect_waking _ _ _).requestId
  | finish _ _ => exact (finish_still _ _ _).requestId
  | loopNext _ =>
    exact (loopNext_requestId _ _).trans (releaseOutboundBytes_waking _ _).requestId
  | loopRun _ _ => exact loopNext_requestId _ _
  | deadline _ _ _ _ _ _ => exact (run_frame _ s).requestId
  | response _ _ _ _ _ _ _ => exact (onResponse_frame _ s).requestId
  | shutdown opened _ => exact (shutdown_frame opened).requestId
  | _ => rfl

/-- A request is refused, or it gets the next id. -/
lemma step_request {payload : KBytes} {bizType timeoutMillis : Int} {compression : Compression}
    (wf : s.Wf) (h : s.step env (.request payload bizType timeoutMillis compression) = some t) :
    (t.requestId = s.requestId ∧ ∃ e, (t.calls s.next).pc = .ended (.threw e)) ∨
      t.requestId.toNat = s.requestId.toNat + 1 ∧ (t.calls s.next).req.id = t.requestId := by
  have rejected : ∀ c e, (s.reject c e).requestId = s.requestId ∧
      ∃ e', ((s.reject c e).calls s.next).pc = .ended (.threw e') := by
    intro c e
    exact ⟨rfl, e, by simp [reject, addCall]⟩
  simp only [step, Option.some.injEq] at h
  unfold requestOnOwner at h
  dsimp only at h
  split at h
  case isTrue => exact .inl (h ▸ rejected _ _)
  case isFalse opened =>
    split at h
    case h_1 => exact .inl (h ▸ rejected _ _)
    case h_2 encoded prepared =>
      split at h
      case isTrue => exact .inl (h ▸ rejected _ _)
      case isFalse left =>
        right
        set c : Call := { kind := .request, payload, bizType, compression, encoded, pc := .slotLoop
                          req := { id := s.requestId + 1, timeoutMillis
                                   armed := decide (timeoutMillis > 0) } }
        set u : Conn := { s with requestId := s.requestId + 1 }.addCall c
        have start : Effect env ⟨.request payload bizType timeoutMillis compression, s, fun _ => True⟩
            s u := .startRequest (c := c) rfl (by simpa using opened) left rfl rfl rfl rfl rfl prepared
        -- the rest of the call is no request any more
        have chain : Effects env ⟨.shutdown, s, fun _ => True⟩ u (u.slotLoop env s.next) :=
          slotLoop_effects (by simp [u, addCall, c]) fun _ _ _ => trivial
        obtain ⟨_, same, later⟩ := Runs.star_preserves
          (P := fun t => t.Wf ∧ t.requestId = u.requestId ∧ Later ⟨.shutdown, s, fun _ => True⟩ u t)
          (fun v w eff held => ⟨held.1.effect eff, (effect_requestId rfl eff).trans held.2.1,
            held.2.2.trans (Later.effect held.1 eff)⟩) chain ⟨wf.effect start, rfl, .refl u⟩
        rw [← h, same]
        refine ⟨Reg.toNat_next left, ?_⟩
        rw [(later.call (Nat.lt_succ_self _)).id]
        simp [u, addCall, c]

/-- The Response that settles a request, and the first one that could. -/
lemma returned_delivered {evs : List Event} {x : KBytes}
    (run : Runs.exec (step env) init evs = some t) (ended : (t.calls i).pc = .ended (.returned x)) :
    ∃ pre p post, evs = pre ++ .response p :: post ∧ Delivered env pre p i ∧
      p.messageId = (t.calls i).req.id ∧ p.payload = x ∧
      ∀ pre' q post', evs = pre' ++ .response q :: post' → Delivered env pre' q i →
        pre.length ≤ pre'.length := by
  obtain ⟨p, stored, payload⟩ := (faithful (Runs.reach_always_of_exec run) i).returns x (.inr ended)
  obtain ⟨pre, post, rfl, delivered⟩ := delivered_of_stored run stored
  refine ⟨pre, p, post, rfl, delivered, ?_, payload, fun pre' q post' split again => ?_⟩
  · obtain ⟨s, before, ⟨request, _⟩, id⟩ := delivered
    obtain ⟨wf, _⟩ := wf_reg_exec before
    rw [Runs.exec_append, before, Option.bind_some] at run
    rw [id, ((later_exec wf run).2 i (wf.lt_of_request request)).2.1]
  · by_contra shorter
    obtain ⟨mid, rfl⟩ : ∃ mid, pre = pre' ++ .response q :: mid := by
      rcases List.append_eq_append_iff.mp split with ⟨rest, rfl, _⟩ | ⟨rest, rfl, tail⟩
      · simp at shorter
      · cases rest with
        | nil => simp at shorter
        | cons e mid =>
          rw [List.cons_append, List.cons.injEq] at tail
          exact ⟨mid, by rw [tail.1]⟩
    refine delivered_once again delivered ?_
    rw [List.append_cons, Runs.exec_append] at run
    obtain ⟨u, before, _⟩ := Option.bind_eq_some_iff.mp run
    exact ⟨u, before⟩

/-- Every request of a run reaches at most one outcome; a payload it returns is that of the first
Response with its id that was processed while it was registered; a Response reaches at most the one
request that is registered under its id, and none if there is none; and ids are handed out in
strictly increasing order, one at a time, until the last one has been used. -/
theorem request_outcome {evs : List Event} (run : Runs.exec (step env) init evs = some t) :
    (∀ i o post u, i < t.next → (t.calls i).pc = .ended o → Runs.exec (step env) t post = some u →
      (u.calls i).pc = .ended o) ∧
    (∀ i x, (t.calls i).pc = .ended (.returned x) →
      ∃ pre p post, evs = pre ++ .response p :: post ∧ Delivered env pre p i ∧
        p.messageId = (t.calls i).req.id ∧ p.payload = x ∧
        ∀ pre' q post', evs = pre' ++ .response q :: post' → Delivered env pre' q i →
          pre.length ≤ pre'.length) ∧
    (∀ p u, t.step env (.response p) = some u →
      (∀ i, (u.calls i).req.response ≠ (t.calls i).req.response →
        t.pending.find p.messageId = some i) ∧
      (t.pending.find p.messageId = none → u = t)) ∧
    (∀ i j, i < j → (t.calls i).kind = .request → (t.calls j).kind = .request →
      (t.calls i).req.id ≠ 0 → (t.calls j).req.id ≠ 0 →
      (t.calls i).req.id.toNat < (t.calls j).req.id.toNat) ∧
    (∀ payload bizType timeoutMillis compression u,
      t.step env (.request payload bizType timeoutMillis compression) = some u →
      u.requestId = t.requestId ∧ (∃ e, (u.calls t.next).pc = .ended (.threw e)) ∨
        u.requestId.toNat = t.requestId.toNat + 1 ∧ (u.calls t.next).req.id = u.requestId) := by
  obtain ⟨wf, reg⟩ := wf_reg_exec run
  refine ⟨?_, ?_, ?_, ?_, ?_⟩
  · exact fun i o post u lt ended later => ((later_exec wf later).2 i lt).2.2.2 o ended
  · exact fun i x ended => returned_delivered run ended
  · intro p u st
    obtain ⟨opened, rfl⟩ := step_response st
    refine ⟨fun i changed => ?_, onResponse_none⟩
    cases found : t.pending.find p.messageId with
    | none => exact absurd (by rw [onResponse_none found]) changed
    | some j =>
      by_contra ne
      exact changed (onResponse_other wf found fun eq => ne (by rw [eq]))
  · exact fun i j => reg.order i j
  · exact fun payload bizType timeoutMillis compression u st => step_request wf st

/-- A request that is written, answered and returns. -/
theorem request_outcome_returned : ∃ t, Runs.exec (step (.tight .inline)) init
      [.requestOne, .transmit 0 17, .write 0 .ok, .flush 0 .ok, .answer 1, .dispatch 0] = some t ∧
    (t.calls 0).pc = .ended (.returned .one) ∧
    ∃ pre p, Delivered (.tight .inline) pre p 0 ∧ p.messageId = 1 ∧ p.payload = .one := by
  have run : ((Runs.exec (step (.tight .inline)) init
      [.requestOne, .transmit 0 17, .write 0 .ok, .flush 0 .ok, .answer 1, .dispatch 0]).map
      fun t => ((t.calls 0).pc, (t.calls 0).req.id)) = some (.ended (.returned .one), 1) := by decide
  obtain ⟨t, exec, facts⟩ := Option.map_eq_some_iff.mp run
  simp only [Prod.mk.injEq] at facts
  obtain ⟨pre, p, _, _, delivered, id, payload, _⟩ := (request_outcome exec).2.1 0 .one facts.1
  exact ⟨t, exec, facts.1, pre, p, delivered, id.trans facts.2, payload⟩

end Conn

end MsgTrans
