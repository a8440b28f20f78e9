import MsgTrans.Connection.WellFormed

/-!
# The registry of requests

The entries of `pending` are the requests that have been enqueued or are being enqueued and that
nothing has settled; each is filed under its own id. Ids are handed out in increasing order and
never twice, so an id names at most one request of the session.
-/

namespace MsgTrans

/-- The places of a request from `pending[id] = req` to the end of its `await`. -/
@[simp] def Pc.enqueued : Pc → Bool
  | .roomLoop _ | .roomWait _ | .channelSelect _ | .draining | .socketWrite | .socketFlush
  | .awaiting | .await => true
  | _ => false

/-- The places at which a request may be registered: also on its way out. -/
@[simp] def Pc.inFlight : Pc → Bool
  | .unwinding _ => true
  | pc => pc.enqueued

namespace Conn

/-- The registry agrees with the calls. -/
structure Reg (s : Conn) : Prop where
  entry : ∀ id i, s.pending.find id = some i →
    (s.calls i).req.id = id ∧ (s.calls i).pc.inFlight
  live : s.closed = false → ∀ id i, s.pending.find id = some i →
    (s.calls i).req.isCompleted = false
  registered : s.closed = false → ∀ i, (s.calls i).kind = .request → (s.calls i).pc.enqueued →
    (s.calls i).req.isCompleted = false → s.pending.find (s.calls i).req.id = some i
  slot : ∀ i, (s.calls i).req.isCompleted → ¬ (s.calls i).SlotParked
  bound : ∀ i, (s.calls i).kind = .request → (s.calls i).req.id.toNat ≤ s.requestId.toNat
  order : ∀ i j, i < j → (s.calls i).kind = .request → (s.calls j).kind = .request →
    (s.calls i).req.id ≠ 0 → (s.calls j).req.id ≠ 0 →
    (s.calls i).req.id.toNat < (s.calls j).req.id.toNat
  named : ∀ i, (s.calls i).kind = .request → (s.calls i).req.id = 0 →
    ∃ o, (s.calls i).pc = .ended o

namespace Reg

variable {s t : Conn} {i : Nat}

/-- A new connection has an empty registry. -/
lemma init : Reg Conn.init where
  entry id i found := by simp [Conn.init] at found
  live _ id i found := by simp [Conn.init] at found
  registered _ i request := by simp [Conn.init] at request
  slot i completed := by simp [Conn.init, Pending.isCompleted] at completed
  bound i request := by simp [Conn.init] at request
  order i j _ request := by simp [Conn.init] at request
  named i request := by simp [Conn.init] at request

/-- An id names one request. -/
lemma unique {j : Nat} (reg : s.Reg) (hi : (s.calls i).kind = .request)
    (hj : (s.calls j).kind = .request) (same : (s.calls i).req.id = (s.calls j).req.id)
    (nonzero : (s.calls i).req.id ≠ 0) : i = j := by
  have nonzero' : (s.calls j).req.id ≠ 0 := same ▸ nonzero
  rcases Nat.lt_trichotomy i j with lt | eq | gt
  · have less := reg.order i j lt hi hj nonzero nonzero'
    rw [same] at less
    exact absurd less (lt_irrefl _)
  · exact eq
  · have less := reg.order j i gt hj hi nonzero' nonzero
    rw [same] at less
    exact absurd less (lt_irrefl _)

/-- The id of a running request is not zero. -/
lemma nonzero (reg : s.Reg) (request : (s.calls i).kind = .request)
    (running : ∀ o, (s.calls i).pc ≠ .ended o) : (s.calls i).req.id ≠ 0 := by
  intro zero
  obtain ⟨o, ended⟩ := reg.named i request zero
  exact running o ended

/-- Calls are only resumed. -/
lemma waking (reg : s.Reg) (h : Waking s t) : t.Reg where
  entry id i found := by
    rw [h.pending] at found
    obtain ⟨named, pc⟩ := reg.entry id i found
    exact ⟨(h.calls i).id.trans named, by rwa [(h.calls i).pc]⟩
  live opened id i found := by
    rw [h.closed] at opened
    rw [h.pending] at found
    rw [h.completed]
    exact reg.live opened id i found
  registered opened i request pc live := by
    rw [h.closed] at opened
    rw [(h.calls i).kind] at request
    rw [(h.calls i).pc] at pc
    rw [h.completed] at live
    rw [h.pending, (h.calls i).id]
    exact reg.registered opened i request pc live
  slot i completed parked := by
    rw [h.completed] at completed
    exact reg.slot i completed ⟨(h.calls i).pc ▸ parked.1, (h.calls i).parked parked.2⟩
  bound i request := by
    rw [(h.calls i).kind] at request
    rw [(h.calls i).id, h.requestId]
    exact reg.bound i request
  order i j lt := by
    simp only [(h.calls i).kind, (h.calls j).kind, (h.calls i).id, (h.calls j).id]
    exact reg.order i j lt
  named i request zero := by
    rw [(h.calls i).kind] at request
    rw [(h.calls i).id] at zero
    rw [(h.calls i).pc]
    exact reg.named i request zero

/-- The record of call `i` changes, and the registry with it. -/
lemma update {c : Call} (reg : s.Reg) (calls : t.calls = Function.update s.calls i c)
    (kind : c.kind = (s.calls i).kind) (id : c.req.id = (s.calls i).req.id)
    (closed : t.closed = s.closed) (requestId : t.requestId = s.requestId)
    (sub : ∀ id j, j ≠ i → t.pending.find id = some j → s.pending.find id = some j)
    (sup : ∀ id j, j ≠ i → s.pending.find id = some j → t.pending.find id = some j)
    (entry : ∀ id, t.pending.find id = some i → c.req.id = id ∧ c.pc.inFlight ∧
      (s.closed = false → c.req.isCompleted = false))
    (registered : s.closed = false → c.kind = .request → c.pc.enqueued →
      c.req.isCompleted = false → t.pending.find c.req.id = some i)
    (slot : c.req.isCompleted → ¬ c.SlotParked)
    (named : c.kind = .request → c.req.id = 0 → ∃ o, c.pc = .ended o) : t.Reg := by
  have old : ∀ j, j ≠ i → t.calls j = s.calls j := fun j ne => by simp [calls, ne]
  have new : t.calls i = c := by simp [calls]
  have kinds : ∀ j, (t.calls j).kind = (s.calls j).kind := by
    intro j
    by_cases eq : j = i
    · rw [eq, new, kind]
    · rw [old j eq]
  have ids : ∀ j, (t.calls j).req.id = (s.calls j).req.id := by
    intro j
    by_cases eq : j = i
    · rw [eq, new, id]
    · rw [old j eq]
  exact {
    entry := fun key j found => by
      by_cases eq : j = i
      · subst eq
        rw [new]
        exact ⟨(entry key found).1, (entry key found).2.1⟩
      · rw [old j eq]
        exact reg.entry key j (sub key j eq found)
    live := fun opened key j found => by
      rw [closed] at opened
      by_cases eq : j = i
      · subst eq
        rw [new]
        exact (entry key found).2.2 opened
      · rw [old j eq]
        exact reg.live opened key j (sub key j eq found)
    registered := fun opened j request pc live => by
      rw [closed] at opened
      by_cases eq : j = i
      · subst eq
        rw [new] at request pc live ⊢
        exact registered opened request pc live
      · rw [old j eq] at request pc live ⊢
        exact sup _ j eq (reg.registered opened j request pc live)
    slot := fun j done => by
      by_cases eq : j = i
      · subst eq
        rw [new] at done ⊢
        exact slot done
      · rw [old j eq] at done ⊢
        exact reg.slot j done
    bound := fun j request => by
      rw [ids, requestId]
      exact reg.bound j (kinds j ▸ request)
    order := fun j k lt => by
      simp only [kinds, ids]
      exact reg.order j k lt
    named := fun j request zero => by
      by_cases eq : j = i
      · subst eq
        rw [new] at request zero ⊢
        exact named request zero
      · rw [old j eq] at request zero ⊢
        exact reg.named j request zero }

/-- One call moves on; nothing is settled. -/
lemma move {c : Call} (reg : s.Reg) (wf : s.Wf) (calls : t.calls = Function.update s.calls i c)
    (kind : c.kind = (s.calls i).kind) (id : c.req.id = (s.calls i).req.id)
    (completed : c.req.isCompleted = (s.calls i).req.isCompleted)
    (inFlight : c.kind = .request → (s.calls i).pc.inFlight → c.pc.inFlight)
    (enqueued : c.kind = .request → c.pc.enqueued → c.req.isCompleted = false →
      (s.calls i).pc.enqueued)
    (slot : c.req.isCompleted → ¬ c.SlotParked)
    (running : ∀ o, (s.calls i).pc ≠ .ended o)
    (closed : t.closed = s.closed) (pending : t.pending = s.pending)
    (requestId : t.requestId = s.requestId) : t.Reg := by
  refine reg.update calls kind id closed requestId ?_ ?_ ?_ ?_ slot ?_
  · exact fun id j _ found => pending ▸ found
  · exact fun id j _ found => pending ▸ found
  · intro id' found
    rw [pending] at found
    obtain ⟨own, pc⟩ := reg.entry id' i found
    have request : c.kind = .request := kind.trans (wf.registry id' i found)
    refine ⟨id.trans own, inFlight request pc, fun opened => ?_⟩
    exact completed.trans (reg.live opened id' i found)
  · intro opened request pc live
    rw [pending, id]
    exact reg.registered opened i (kind ▸ request) (enqueued request pc live) (completed ▸ live)
  · intro request zero
    obtain ⟨o, ended⟩ := reg.named i (kind ▸ request) (id ▸ zero)
    exact absurd ended (running o)

/-- A running call goes to another place of its code. -/
lemma setPc {pc : Pc} (reg : s.Reg) (wf : s.Wf)
    (inFlight : (s.calls i).pc.inFlight → pc.inFlight)
    (enqueued : (s.calls i).kind = .request → pc.enqueued →
      (s.calls i).req.isCompleted = false → (s.calls i).pc.enqueued)
    (waits : pc.waits = false) (running : ∀ o, (s.calls i).pc ≠ .ended o) :
    (s.setPc i pc).Reg := by
  refine reg.move wf rfl rfl rfl rfl (fun _ => inFlight) enqueued ?_ running rfl rfl rfl
  exact fun _ parked => Call.not_queued_of_waits waits (.inl parked)

/-- Request `i` is settled and taken out of the registry. -/
lemma settle (reg : s.Reg) (frame : Frame s t)
    (others : ∀ j, j ≠ i → (t.calls j).req.isCompleted = (s.calls j).req.isCompleted)
    (completed : (t.calls i).req.isCompleted) (idle : ¬ (t.calls i).SlotParked)
    (pending : t.pending = s.pending.remove (s.calls i).req.id)
    (request : (s.calls i).kind = .request) : t.Reg where
  entry id j found := by
    rw [pending, FinMap.find_remove] at found
    split at found
    case isTrue => cases found
    case isFalse =>
      obtain ⟨named, pc⟩ := reg.entry id j found
      exact ⟨(frame.calls j).id.trans named, by rwa [(frame.calls j).pc]⟩
  live opened id j found := by
    rw [pending, FinMap.find_remove] at found
    split at found
    case isTrue => cases found
    case isFalse ne =>
      have other : j ≠ i := by
        rintro rfl
        exact ne (reg.entry id j found).1.symm
      rw [others j other]
      exact reg.live (frame.closed ▸ opened) id j found
  registered opened j req pc live := by
    have other : j ≠ i := by
      rintro rfl
      simp [completed] at live
    rw [(frame.calls j).kind] at req
    rw [others j other] at live
    rw [(frame.calls j).pc] at pc
    have found := reg.registered (frame.closed ▸ opened) j req pc live
    rw [pending, FinMap.find_remove, (frame.calls j).id, if_neg]
    · exact found
    -- another request with the same id would be the same request
    · intro same
      refine other (reg.unique req request same (reg.nonzero req fun o ended => ?_))
      simp [ended] at pc
  slot j done := by
    by_cases eq : j = i
    · subst eq
      exact idle
    · rw [others j eq] at done
      intro parked
      exact reg.slot j done ⟨(frame.calls j).pc ▸ parked.1, (frame.calls j).parked parked.2⟩
  bound j req := by
    rw [(frame.calls j).kind] at req
    rw [(frame.calls j).id, frame.requestId]
    exact reg.bound j req
  order j k lt := by
    simp only [(frame.calls j).kind, (frame.calls k).kind, (frame.calls j).id, (frame.calls k).id]
    exact reg.order j k lt
  named j req zero := by
    rw [(frame.calls j).kind] at req
    rw [(frame.calls j).id] at zero
    rw [(frame.calls j).pc]
    exact reg.named j req zero

/-- A response removes the entry of the request it completes. -/
lemma onResponse {packet : Packet} (reg : s.Reg) (wf : s.Wf) : (s.onResponse packet).Reg := by
  unfold Conn.onResponse
  split
  case h_1 => exact reg
  case h_2 i found =>
    obtain ⟨named, pc⟩ := reg.entry _ i found
    have steady := complete_steady i packet (s.unregister packet.messageId)
    have frame := (unregister_frame packet.messageId s).trans steady.toFrame
    refine waking ?_ (wakeOneInFlightWaiter_waking _)
    refine reg.settle frame (fun j ne => ?_) (complete_completed (wf.call i)) ?_ ?_
      (wf.registry _ i found)
    · rw [complete_calls_of_ne (s := s.unregister packet.messageId) (wf.call i) ne]
      rfl
    · rintro ⟨eq, _⟩
      rw [(frame.calls i).pc] at eq
      simp [eq] at pc
    · rw [steady.pending, named]
      rfl

/-- The deadline removes the entry of the request it fails. -/
lemma expire (reg : s.Reg) (wf : s.Wf) (request : (s.calls i).kind = .request) :
    (s.expire i).Reg := by
  unfold Conn.expire
  dsimp only
  set e : Throwable := .requestTimeout (s.calls i).req.id (s.calls i).req.timeoutMillis
  have failed : (s.fail i e).Wf := wf.fail fun _ => request
  have steady := fail_steady i e s
  have waking := resumeSlot_waking i ((s.fail i e).unregister (s.calls i).req.id)
  refine Reg.waking ?_ (runRoom_waking i _)
  refine reg.settle (steady.toFrame.trans ((unregister_frame _ _).trans waking.toFrame))
    (fun j ne => ?_) ?_ (resumeSlot_not_parked (failed.call i)) ?_ request
  · rw [waking.completed]
    change ((s.fail i e).calls j).req.isCompleted = _
    rw [fail_calls_of_ne (wf.call i) ne]
  · rw [waking.completed]
    exact fail_completed (wf.call i)
  · rw [waking.pending]
    change (s.fail i e).pending.remove _ = _
    rw [steady.pending]

/-- Firing a deadline touches no entry. -/
lemma fire (reg : s.Reg) : (s.fire i).Reg := by
  refine reg.update rfl rfl rfl rfl rfl (fun _ _ _ h => h) (fun _ _ _ h => h) ?_
    (fun opened => reg.registered opened i) (reg.slot i) (reg.named i)
  intro id found
  obtain ⟨own, pc⟩ := reg.entry id i found
  exact ⟨own, pc, fun opened => reg.live opened id i found⟩

/-- The deadline's callback removes at most its own entry. -/
lemma run (reg : s.Reg) (wf : s.Wf) (armed : (s.calls i).req.armed) : (s.run i).Reg := by
  have request := wf.request_of_armed armed
  unfold Conn.run
  split
  case isTrue => exact reg.fire
  case isFalse =>
    exact reg.fire.expire (wf.fire request) (by simpa [Conn.fire, modReq] using request)

/-- On a closed connection request `i` is settled by `shutdown`. -/
lemma settleClosed (reg : s.Reg) (closed : s.closed = true) (frame : Frame s t)
    (others : ∀ j, j ≠ i → (t.calls j).req.isCompleted = (s.calls j).req.isCompleted)
    (idle : ¬ (t.calls i).SlotParked) (pending : t.pending = s.pending) : t.Reg where
  entry id j found := by
    rw [pending] at found
    obtain ⟨named, pc⟩ := reg.entry id j found
    exact ⟨(frame.calls j).id.trans named, by rwa [(frame.calls j).pc]⟩
  live opened := by
    rw [frame.closed, closed] at opened
    cases opened
  registered opened := by
    rw [frame.closed, closed] at opened
    cases opened
  slot j done parked := by
    by_cases eq : j = i
    · subst eq
      exact idle parked
    · rw [others j eq] at done
      exact reg.slot j done ⟨(frame.calls j).pc ▸ parked.1, (frame.calls j).parked parked.2⟩
  bound j request := by
    rw [(frame.calls j).kind] at request
    rw [(frame.calls j).id, frame.requestId]
    exact reg.bound j request
  order j k lt := by
    simp only [(frame.calls j).kind, (frame.calls k).kind, (frame.calls j).id, (frame.calls k).id]
    exact reg.order j k lt
  named j request zero := by
    rw [(frame.calls j).kind] at request
    rw [(frame.calls j).id] at zero
    rw [(frame.calls j).pc]
    exact reg.named j request zero

/-- `shutdown` empties the registry. -/
lemma shutdown (reg : s.Reg) (wf : s.Wf) : s.shutdown.Reg := by
  cases opened : s.closed with
  | true => rwa [Conn.shutdown, if_pos opened]
  | false =>
    have closing : Reg { s with closed := true } := { reg with
      live := fun h => by cases h
      registered := fun h => by cases h }
    refine (wf.shutdown_rule (P := fun s => s.closed = true ∧ s.Reg) ⟨rfl, closing⟩
      ?_ ?_ ?_ ?_ ?_ ?_ opened).2.2
    · rintro s id i wf found ⟨closed, reg⟩
      have steady := fail_steady i closedException s
      refine ⟨steady.closed.trans closed, reg.settleClosed (i := i) closed steady.toFrame
        (fun j ne => by rw [fail_calls_of_ne (wf.call i) ne]) ?_ steady.pending⟩
      rintro ⟨eq, _⟩
      have pc := (reg.entry id i found).2
      rw [(steady.calls i).pc] at eq
      simp [eq] at pc
    · rintro s ⟨closed, reg⟩
      exact ⟨closed, { reg with
        entry := fun id i found => by simp at found
        live := fun _ id i found => by simp at found
        registered := fun opened => by simp [closed] at opened }⟩
    · rintro s ⟨closed, reg⟩
      exact ⟨closed, { reg with }⟩
    · rintro s k ks wf queue ⟨closed, reg⟩
      have waking : Waking s ({ s with roomWaiters := ks }.resume k (.throw closedException)) :=
        { resume_waking k (by simp) { s with roomWaiters := ks } with }
      exact ⟨waking.closed.trans closed, reg.waking waking⟩
    · rintro s i is wf queue ⟨closed, reg⟩
      have steady := fail_steady i closedException s
      have failed := wf.fail (e := closedException) (wf.request_of_slot (i := i) (by simp [queue]))
      have waking := resumeSlot_waking i { s.fail i closedException with inFlightWaiters := is }
      have frame : Frame s ({ s.fail i closedException with inFlightWaiters := is }.resumeSlot i) := by
        refine Frame.trans ?_ waking.toFrame
        exact { steady.toFrame with }
      refine ⟨frame.closed.trans closed, reg.settleClosed (i := i) closed frame (fun j ne => ?_) ?_ ?_⟩
      · rw [waking.completed]
        change ((s.fail i closedException).calls j).req.isCompleted = _
        rw [fail_calls_of_ne (wf.call i) ne]
      · exact resumeSlot_not_parked (failed.call i)
      · rw [waking.pending]
        exact steady.pending
    · rintro s i wf ⟨closed, reg⟩
      have waking := cancelResponse_waking s i
      exact ⟨waking.closed.trans closed, reg.waking waking⟩

/-! ## The end and the start of a call -/

/-- Call `i` ends and is not in the registry any more. -/
lemma leave {c : Call} {o : Outcome} (reg : s.Reg) (calls : t.calls = Function.update s.calls i c)
    (kind : c.kind = (s.calls i).kind) (id : c.req.id = (s.calls i).req.id) (pc : c.pc = .ended o)
    (sub : ∀ id j, t.pending.find id = some j → s.pending.find id = some j ∧ j ≠ i)
    (sup : ∀ id j, j ≠ i → s.pending.find id = some j → t.pending.find id = some j)
    (closed : t.closed = s.closed) (requestId : t.requestId = s.requestId) : t.Reg := by
  refine reg.update calls kind id closed requestId ?_ sup ?_ ?_ ?_ ?_
  · exact fun id j _ found => (sub id j found).1
  · exact fun id found => absurd rfl (sub id i found).2
  · intro _ _ enqueued
    simp [pc] at enqueued
  · intro _
    simp [Call.SlotParked, pc]
  · exact fun _ _ => ⟨o, pc⟩

/-- The end of a call removes its own entry. -/
lemma finish {o o' : Outcome} (reg : s.Reg) (wf : s.Wf) (pc : (s.calls i).pc = .unwinding o') :
    (s.finish i o).Reg := by
  unfold Conn.finish
  split
  case isTrue request =>
    have nonzero := reg.nonzero request fun o ended => by simp [pc] at ended
    have gone : ((s.dispose i o).unregister (s.calls i).req.id).Reg := by
      refine reg.leave (i := i) (o := o) rfl rfl rfl rfl (fun id j found => ?_)
        (fun id j ne found => ?_) rfl rfl
      · change FinMap.find (s.pending.remove _) id = some j at found
        rw [FinMap.find_remove] at found
        split at found
        case isTrue => cases found
        case isFalse other =>
          refine ⟨found, ?_⟩
          rintro rfl
          exact other (reg.entry id j found).1.symm
      · change FinMap.find (s.pending.remove _) id = some j
        rw [FinMap.find_remove, if_neg]
        · exact found
        · intro same
          have named := (reg.entry id j found).1
          exact ne (reg.unique request (wf.registry id j found) (same.symm.trans named.symm)
            nonzero).symm
    dsimp only
    split
    case isTrue => exact gone.waking (wakeOneInFlightWaiter_waking _)
    case isFalse absent =>
      have absent : ¬ (s.pending.find (s.calls i).req.id).isSome := absent
      have none : s.pending.find (s.calls i).req.id = none := by simpa using absent
      rw [unregister, show (s.dispose i o).pending = s.pending from rfl,
        FinMap.remove_of_find_none none] at gone
      exact gone
  case isFalse other =>
    refine reg.leave (i := i) (o := o) rfl rfl rfl rfl (fun id j found => ⟨found, ?_⟩)
      (fun id j _ found => found) rfl rfl
    rintro rfl
    exact other (wf.registry id j found)

/-- A new call. A request is given the next id, or is rejected and has none. -/
lemma addCall {c : Call} (reg : s.Reg) (wf : s.Wf) (calls : t.calls = Function.update s.calls s.next c)
    (live : c.req.isCompleted = false) (pc : c.kind = .request → c.pc.enqueued = false)
    (bound : c.kind = .request → c.req.id.toNat ≤ t.requestId.toNat)
    (later : c.kind = .request → c.req.id ≠ 0 → s.requestId.toNat < c.req.id.toNat)
    (named : c.kind = .request → c.req.id = 0 → ∃ o, c.pc = .ended o)
    (closed : t.closed = s.closed) (pending : t.pending = s.pending)
    (grows : s.requestId.toNat ≤ t.requestId.toNat) : t.Reg := by
  have old : ∀ j, j ≠ s.next → t.calls j = s.calls j := fun j ne => by simp [calls, ne]
  have new : t.calls s.next = c := by simp [calls]
  have below : ∀ j, (s.calls j).kind = .request → j < s.next := fun j => wf.lt_of_request
  exact {
    entry := fun id j found => by
      rw [pending] at found
      rw [old j (Nat.ne_of_lt (below j (wf.registry id j found)))]
      exact reg.entry id j found
    live := fun opened id j found => by
      rw [pending] at found
      rw [old j (Nat.ne_of_lt (below j (wf.registry id j found)))]
      exact reg.live (closed ▸ opened) id j found
    registered := fun opened j request enqueued live => by
      have ne : j ≠ s.next := by
        rintro rfl
        rw [new] at request enqueued
        rw [pc request] at enqueued
        cases enqueued
      rw [old j ne] at request enqueued live ⊢
      rw [pending]
      exact reg.registered (closed ▸ opened) j request enqueued live
    slot := fun j done => by
      by_cases eq : j = s.next
      · rw [eq, new, live] at done
        cases done
      · rw [old j eq] at done ⊢
        exact reg.slot j done
    bound := fun j request => by
      by_cases eq : j = s.next
      · rw [eq, new] at request ⊢
        exact bound request
      · rw [old j eq] at request ⊢
        exact le_trans (reg.bound j request) grows
    order := fun j k lt request request' nonzero nonzero' => by
      by_cases eq : k = s.next
      · have ne : j ≠ s.next := by omega
        rw [eq, new] at request' nonzero' ⊢
        rw [old j ne] at request ⊢
        exact lt_of_le_of_lt (reg.bound j request) (later request' nonzero')
      · rw [old k eq] at request' nonzero' ⊢
        have ne : j ≠ s.next := by
          have := below k request'
          omega
        rw [old j ne] at request nonzero ⊢
        exact reg.order j k lt request request' nonzero nonzero'
    named := fun j request zero => by
      by_cases eq : j = s.next
      · rw [eq, new] at request zero ⊢
        exact named request zero
      · rw [old j eq] at request zero ⊢
        exact reg.named j request zero }

/-- Request `i` enters the registry under its id, which no other request has. -/
lemma register {pc : Pc} (reg : s.Reg) (wf : s.Wf) (slot : (s.calls i).pc = .slotLoop)
    (live : (s.calls i).req.isCompleted = false) (inFlight : pc.inFlight) (waits : pc.waits = false) :
    Reg ({ s with pending := s.pending.set (s.calls i).req.id i }.setPc i pc) := by
  have request := (wf.call i).kind
  rw [slot] at request
  have nonzero := reg.nonzero request fun o ended => by simp [slot] at ended
  refine reg.update (i := i) rfl rfl rfl rfl rfl ?_ ?_ ?_ ?_ ?_ ?_
  · intro id j ne found
    change FinMap.find (s.pending.set _ i) id = some j at found
    rw [FinMap.find_set] at found
    split at found
    case isTrue =>
      cases found
      exact absurd rfl ne
    case isFalse => exact found
  · intro id j ne found
    change FinMap.find (s.pending.set _ i) id = some j
    rw [FinMap.find_set, if_neg]
    · exact found
    · intro same
      have named := (reg.entry id j found).1
      exact ne (reg.unique request (wf.registry id j found) (same.symm.trans named.symm) nonzero).symm
  · intro id found
    change FinMap.find (s.pending.set _ i) id = some i at found
    rw [FinMap.find_set] at found
    split at found
    case isTrue same => exact ⟨same.symm, inFlight, fun _ => live⟩
    case isFalse =>
      have pc := (reg.entry id i found).2
      simp [slot] at pc
  · intro _ _ _ _
    change FinMap.find (s.pending.set _ i) _ = some i
    exact FinMap.find_set_self
  · exact fun _ parked => Call.not_queued_of_waits waits (.inl parked)
  · exact fun _ zero => absurd zero nonzero

/-! ## Effects -/

/-- No local step enters or leaves the registry's places, except a settled request that goes to its
`await`. -/
lemma localStep {A : Trigger} {c' : Call} (reg : s.Reg) (wf : s.Wf)
    (h : LocalStep A s i (s.calls i) c') : (s.modCall i fun _ => c').Reg := by
  have idle := (Call.not_queued_of_localStep h).2
  refine reg.move wf rfl ?_ ?_ ?_ ?_ ?_ (fun _ parked => idle (.inl parked))
    (Call.running_of_localStep h) rfl rfl rfl
  · cases h <;> rfl
  · cases h <;> rfl
  · cases h <;> rfl
  · cases h <;> simp_all
  · cases h <;> simp_all

/-- A request of a call that is on its way to the socket stays where it is in the registry. -/
lemma afterPut (reg : s.Reg) (wf : s.Wf) (pc : (s.calls i).pc.enqueued) :
    (s.setPc i (s.calls i).afterPut).Reg := by
  have running : ∀ o, (s.calls i).pc ≠ .ended o := fun o ended => by simp [ended] at pc
  unfold Call.afterPut
  split
  · exact reg.setPc wf (fun _ => rfl) (fun _ _ _ => pc) rfl running
  · exact reg.setPc wf (fun _ => rfl) (fun _ h => by simp at h) rfl running

/-- The write loop touches no entry. -/
lemma loopNext {env : Env} (reg : s.Reg) (wf : s.Wf) : (s.loopNext env).Reg := by
  have accepted : ∀ (j : Nat) (q : Packet) (outbound : Channel), (j, q) ∈ s.outbound.senders →
      Reg ({ s with outbound }.acceptSender j) := by
    intro j q outbound mem
    have parked : (s.calls j).SendParked q := (wf.send.mem (j, q)).mp mem
    refine reg.move wf rfl rfl rfl rfl (fun _ h => h) (fun _ h _ => h) ?_ ?_ rfl rfl rfl
    · rintro _ ⟨_, wake⟩
      cases wake
    · intro o ended
      rcases parked.1 with pc | pc <;> simp [pc] at ended
  unfold Conn.loopNext
  split
  case h_1 => exact { reg with }
  case h_2 packet rest j q senders _ queue =>
    exact { accepted j q ⟨rest ++ [q], senders⟩ (by simp [queue]) with }
  case h_3 j q senders _ queue =>
    exact { accepted j q ⟨s.outbound.buffer, senders⟩ (by simp [queue]) with }
  case h_4 => exact { reg with }

/-- A request that leaves its `select` stays registered. -/
lemma abortSelect {p : Packet} {pc' : Pc} (reg : s.Reg) (wf : s.Wf)
    (pc : (s.calls i).pc = .channelSelect p) (woken : (s.calls i).wake ≠ .parked)
    (inFlight : pc'.inFlight) (waits : pc'.waits = false) :
    ((s.abortSelect i p).setPc i pc').Reg := by
  have waking := abortSelect_waking i p s
  have still : ((s.abortSelect i p).calls i).pc = .channelSelect p := (waking.calls i).pc.trans pc
  refine (reg.waking waking).setPc (wf.abortSelect pc woken) (fun _ => inFlight)
    (fun _ _ _ => by simp [still]) waits ?_
  exact fun o ended => by simp [still] at ended

/-- A sender that is cancelled stays registered. -/
lemma cancelSend {p : Packet} (reg : s.Reg) (wf : s.Wf) (parked : (s.calls i).SendParked p) :
    Reg ({ s with outbound := s.outbound.withdraw i }.setCancelled i) := by
  refine reg.move wf rfl rfl rfl rfl (fun _ h => h) (fun _ h _ => h) ?_ ?_ rfl rfl rfl
  · rintro _ ⟨_, wake⟩
    cases wake
  · intro o ended
    rcases parked.1 with pc | pc <;> simp [pc] at ended

/-- A request gets the next id while there is one. -/
lemma toNat_next {id : UInt32} (left : id ≠ UInt32.ofNat (2 ^ 32 - 1)) :
    (id + 1).toNat = id.toNat + 1 := by
  have ne : id.toNat ≠ 2 ^ 32 - 1 := fun eq => left (UInt32.toNat_inj.mp eq)
  have lt := id.toNat_lt
  rw [UInt32.toNat_add, UInt32.toNat_one]
  omega

/-- Every effect keeps the registry in agreement with the calls. -/
theorem effect {env : Env} {A : Trigger} (reg : s.Reg) (wf : s.Wf) (h : Effect env A s t) :
    t.Reg := by
  cases h with
  | loc h => exact reg.localStep wf h
  | @reject c e id pc _ req =>
    refine reg.addCall wf rfl (by simp [req, Pending.isCompleted]) (by simp [pc]) ?_ ?_ ?_ rfl rfl
      le_rfl
    · simp [req]
    · simp [req]
    · exact fun _ _ => ⟨_, pc⟩
  | @startRequest c timeoutMillis _ opened left kind pc _ _ req _ =>
    -- ids are handed out upwards, and the counter has not come round yet
    have next := toNat_next left
    refine reg.addCall wf rfl (by simp [req, Pending.isCompleted]) (by simp [pc]) ?_ ?_ ?_ rfl rfl ?_
    · intro _
      rw [req]
      exact le_rfl
    · intro _ _
      rw [req]
      exact next ▸ Nat.lt_succ_self _
    · intro _ zero
      rw [req] at zero
      have : (s.requestId + 1).toNat = 0 := by rw [show s.requestId + 1 = 0 from zero]; rfl
      omega
    · exact next ▸ Nat.le_succ _
  | @startPut c p id kind pc _ _ req _ _ =>
    have other : c.kind ≠ .request := by rcases kind with h | h <;> simp [h]
    exact reg.addCall wf rfl (by simp [req, Pending.isCompleted]) (absurd · other) (absurd · other)
      (absurd · other) (absurd · other) rfl rfl le_rfl
  | @slotPark i pc opened _ live =>
    refine reg.move wf rfl rfl rfl rfl (by simp [pc]) (by simp) ?_ (by simp [pc]) rfl rfl rfl
    intro done
    have : (s.calls i).req.isCompleted := done
    simp [live] at this
  | register pc _ _ live _ => exact reg.register wf pc live rfl rfl
  | @slotRefused i e pc _ _ live _ _ =>
    exact (reg.register wf pc live rfl rfl).finish (wf.refused pc) (setPc_pc _ _ _)
  | @slotCancelled i pc cancelled =>
    exact reg.move wf (slotCancelled_calls i _ s) rfl rfl rfl (by simp) (by simp)
      (by simp [Call.SlotParked]) (by simp [pc]) rfl rfl rfl
  | @roomPark i p pc opened _ live =>
    exact reg.move wf rfl rfl rfl rfl (by simp) (by simp [pc]) (by simp [Call.SlotParked])
      (by simp [pc]) rfl rfl rfl
  | @roomCancelled i p pc cancelled =>
    exact reg.move wf (roomCancelled_calls i _ s) rfl rfl rfl (by simp) (by simp)
      (by simp [Call.SlotParked]) (by simp [pc]) rfl rfl rfl
  | @putQueue i p pc _ _ _ _ _ =>
    have queued : Reg { s with
        queuedBytes := s.queuedBytes + packetBytes p, sendQueue := s.sendQueue ++ [p]
        enqueued := s.enqueued ++ [p] } := { reg with }
    exact queued.afterPut { wf with } (by simp [pc])
  | @putDrain i p pc _ _ _ _ _ =>
    refine setPc { reg with } { wf with } ?_ ?_ ?_ (by simp [pc]) <;> split <;> simp [pc]
  | @putBuffer i p buffer pc _ _ _ _ _ _ =>
    have queued : Reg { s with
        queuedBytes := s.queuedBytes + packetBytes p
        outbound := { s.outbound with buffer } } := { reg with }
    exact queued.afterPut { wf with } (by simp [pc])
  | @putHandoff i p pc _ _ _ _ _ =>
    have handed : Reg ({ s with queuedBytes := s.queuedBytes + packetBytes p }.loopSend env p) :=
      { reg with }
    exact handed.afterPut { wf with } (by simp [loopSend, encode, pc])
  | @sendPark i p pc _ _ other _ _ =>
    exact reg.move wf rfl rfl rfl rfl (absurd · other) (by simp) (by simp [Call.SlotParked])
      (by simp [pc]) rfl rfl rfl
  | @selectPark i p pc _ _ request live _ _ =>
    exact reg.move wf rfl rfl rfl rfl (by simp) (by simp [pc]) (by simp [Call.SlotParked])
      (by simp [pc]) rfl rfl rfl
  | @drainTake i p rest pc _ _ =>
    have queue : Wf { s with sendQueue := rest } := { wf with }
    have registry : Reg { s with sendQueue := rest } := { reg with }
    have waking := releaseOutboundBytes_waking (packetBytes p) { s with sendQueue := rest }
    have released : Reg (({ s with sendQueue := rest }.releaseOutboundBytes (packetBytes p)).encode env
        p) := { registry.waking waking with }
    have still : ((({ s with sendQueue := rest }.releaseOutboundBytes (packetBytes p)).encode env
        p).calls i).pc = .draining := (waking.calls i).pc.trans pc
    exact released.setPc { queue.releaseOutboundBytes with } (by simp) (by simp [still]) rfl
      (by simp [still])
  | @drainEnd i pc _ =>
    have idle : Reg { s with writerActive := false } := { reg with }
    exact idle.afterPut { wf with } (by simp [pc])
  | @successorStart i pc =>
    have other := (wf.call i).kind
    rw [pc] at other
    refine setPc { reg with } { wf with } ?_ (fun request => absurd request other) ?_ (by simp [pc]) <;>
      split <;> simp
  | @handOff i pc _ _ =>
    have running : ∀ o, (s.calls i).pc ≠ .ended o := by rcases pc with pc | pc <;> simp [pc]
    -- the successor is no request and is not registered
    have launched : Reg (s.addCall { kind := .successor, pc := .launched }) :=
      reg.addCall wf rfl rfl (by simp) (by simp) (by simp) (by simp) rfl rfl le_rfl
    refine launched.setPc wf.launched (by simp) (by simp) rfl ?_
    rw [wf.addCall_older running]
    rcases pc with pc | pc <;> simp [pc]
  | @writerStop i e pc _ _ =>
    refine setPc { reg with } { wf with } (by simp) (by simp) rfl ?_
    rcases pc with pc | pc <;> simp [pc]
  | transmit _ _ _ => exact { reg with }
  | selectGate pc wake _ => exact reg.abortSelect wf pc (by simp [wake]) rfl rfl
  | selectCancelled pc cancelled _ =>
    exact reg.abortSelect wf pc (Wf.not_parked_of_cancelled cancelled) rfl rfl
  | loopFlushing _ _ => exact { reg with }
  | @loopNext p _ =>
    exact (reg.waking (releaseOutboundBytes_waking (packetBytes p) s)).loopNext wf.releaseOutboundBytes
  | loopRun _ _ => exact reg.loopNext wf
  | loopEnd _ _ => exact { reg with }
  | @cancelSlot i pc wake =>
    exact reg.move wf (cancelSlot_calls i s) rfl rfl rfl (fun _ h => h) (fun _ h _ => h)
      (by simp [Call.SlotParked]) (by simp [pc]) rfl rfl rfl
  | @cancelRoom i p pc wake =>
    exact reg.move wf (cancelRoom_calls i s) rfl rfl rfl (fun _ h => h) (fun _ h _ => h)
      (by simp [Call.SlotParked]) (by simp [pc]) rfl rfl rfl
  | cancelSend pc wake _ => exact reg.cancelSend wf ⟨.inl pc, wake⟩
  | cancelSelect pc wake => exact reg.cancelSend wf ⟨.inr pc, wake⟩
  | finish pc _ => exact reg.finish wf pc
  | deadline _ armed _ _ _ _ => exact reg.run wf armed
  | response _ _ _ _ _ _ _ => exact reg.onResponse wf
  | shutdown _ _ => exact reg.shutdown wf

end Reg

/-- Invariant rule for what also rests on the registry. -/
lemma invariant_of_registry {env : Env} {F : Flaw → Prop} {P : Conn → Prop} {s : Conn}
    (run : Runs.Reach (Conn.step env) (Avoids F env) Conn.init s) (start : P Conn.init)
    (keep : ∀ (A : Trigger) (s t : Conn), (∀ f, F f → ¬ A f) → s.Wf → s.Reg → P s →
      Effect env A s t → P t) : s.Reg ∧ P s :=
  invariant_of_effects (P := fun s => s.Reg ∧ P s) run ⟨.init, start⟩
    fun A s t avoids wf held eff => ⟨held.1.effect wf eff, keep A s t avoids wf held.1 held.2 eff⟩

/-- The registry agrees with the calls along every run. -/
theorem Reg.reach {env : Env} {F : Flaw → Prop} {s : Conn}
    (run : Runs.Reach (Conn.step env) (Avoids F env) Conn.init s) : s.Reg :=
  invariant_of_effects run .init fun _ _ _ _ wf reg eff => reg.effect wf eff

end Conn

end MsgTrans
