import MsgTrans.Connection.Rested
import MsgTrans.Connection.Shutdown

/-!
# Requests in flight

Between two steps the registry holds exactly the requests that have passed the slot wait, are not
settled and have not ended, and never more than `maxInFlightRequests` of them. Only `register` adds an
entry and only `slotPark` queues a request; everything else shrinks both, and the `finally` block of a
request takes it out of the slot queue.
-/

namespace MsgTrans

namespace Conn

/-! ## What shrinks the registry and the slot queue -/

/-- Nothing is added to the registry or to the slot queue. -/
structure Shrinks (s t : Conn) : Prop where
  pending : ∀ id i, t.pending.find id = some i → s.pending.find id = some i
  queue : t.inFlightWaiters ⊆ s.inFlightWaiters

namespace Shrinks

variable {s t u : Conn} {i : Nat}

/-- The registry and the slot queue stay the same. -/
lemma same (pending : t.pending = s.pending) (queue : t.inFlightWaiters = s.inFlightWaiters) :
    Shrinks s t :=
  ⟨fun _ _ => by rw [pending]; exact fun found => found, by rw [queue]; exact fun _ mem => mem⟩

/-- Nothing has happened. -/
lemma refl (s : Conn) : Shrinks s s := same rfl rfl

/-- Nothing is added in two steps that add nothing. -/
lemma trans (h : Shrinks s t) (h' : Shrinks t u) : Shrinks s u :=
  ⟨fun id i found => h.pending id i (h'.pending id i found), List.Subset.trans h'.queue h.queue⟩

/-- A steady step adds nothing. -/
lemma steady (h : Steady s t) : Shrinks s t := same h.pending h.inFlightWaiters

/-- Removing an entry adds nothing. -/
lemma unregister (id : UInt32) (s : Conn) : Shrinks s (s.unregister id) where
  pending id' i found := by
    rw [Conn.unregister, FinMap.find_remove] at found
    split at found
    case isTrue => cases found
    case isFalse => exact found
  queue _ mem := mem

/-- A room wake-up adds nothing. -/
lemma wakeOneRoomWaiter (s : Conn) : Shrinks s s.wakeOneRoomWaiter := by
  unfold Conn.wakeOneRoomWaiter
  split
  case h_1 => exact refl s
  case h_2 k ks _ =>
    have resumed := resume_steady k .unit { s with roomWaiters := ks }
    exact same resumed.pending resumed.inFlightWaiters

/-- A release adds nothing. -/
lemma releaseOutboundBytes (bytes : Int) (s : Conn) : Shrinks s (s.releaseOutboundBytes bytes) := by
  have charged (bytes : Int) : Shrinks s { s with queuedBytes := bytes } := same rfl rfl
  exact (charged _).trans (wakeOneRoomWaiter _)

/-- A slot wake-up adds nothing. -/
lemma wakeOneInFlightWaiter (s : Conn) : Shrinks s s.wakeOneInFlightWaiter := by
  unfold Conn.wakeOneInFlightWaiter
  split
  case h_1 => exact refl s
  case h_2 i is queue =>
    have resumed := steady (resumeSlot_steady i { s with inFlightWaiters := is })
    refine ⟨resumed.pending, List.Subset.trans resumed.queue ?_⟩
    rw [queue]
    exact List.subset_cons_self i is

/-- The room part of the deadline adds nothing. -/
lemma runRoom (i : Nat) (s : Conn) : Shrinks s (s.runRoom i) := by
  unfold Conn.runRoom
  split
  case h_1 => exact wakeOneInFlightWaiter s
  case h_2 k _ =>
    have steady := resume_steady k .unit { s with roomWaiters := s.roomWaiters.erase k }
    have resumed : Shrinks s ({ s with roomWaiters := s.roomWaiters.erase k }.resume k .unit) :=
      same steady.pending steady.inFlightWaiters
    dsimp only
    split
    case isTrue => exact resumed
    case isFalse =>
      refine resumed.trans (Shrinks.trans ?_ (wakeOneInFlightWaiter _))
      exact same rfl rfl

/-- The deadline adds nothing. -/
lemma run (i : Nat) (s : Conn) : Shrinks s (s.run i) := by
  unfold Conn.run
  split
  case isTrue => exact same rfl rfl
  case isFalse =>
    unfold expire
    refine Shrinks.trans ?_ (runRoom i _)
    refine Shrinks.trans ?_ (steady (resumeSlot_steady i _))
    refine Shrinks.trans ?_ (unregister _ _)
    exact (steady (fire_steady i s)).trans (steady (fail_steady i _ _))

/-- A response adds nothing. -/
lemma onResponse (packet : Packet) (s : Conn) : Shrinks s (s.onResponse packet) := by
  unfold Conn.onResponse
  split
  case h_1 => exact refl s
  case h_2 i _ =>
    refine Shrinks.trans ?_ (wakeOneInFlightWaiter _)
    exact (unregister _ s).trans (steady (complete_steady i packet _))

/-- The end of a request takes it out of the slot queue. -/
lemma finish (i : Nat) (o : Outcome) (s : Conn) : Shrinks s (s.finish i o) := by
  have disposed : Shrinks s (s.dispose i o) := ⟨fun _ _ found => found, List.erase_subset⟩
  unfold Conn.finish
  split
  case isTrue =>
    dsimp only
    split
    case isTrue => exact disposed.trans ((unregister _ _).trans (wakeOneInFlightWaiter _))
    case isFalse => exact disposed
  case isFalse => exact same rfl rfl

/-- A request whose packet is refused leaves the registry as it was. -/
lemma refused {e : Throwable} (wf : s.Wf) (pc : (s.calls i).pc = .slotLoop) :
    Shrinks s ({ s with pending := s.pending.set (s.calls i).req.id i }.unwind i (.threw e)) := by
  have request := (wf.call i).kind
  rw [pc] at request
  rw [Wf.unwind_refused request]
  set id := (s.calls i).req.id
  refine Shrinks.trans ⟨fun id' j found => ?_, List.erase_subset⟩ (wakeOneInFlightWaiter _)
  change (FinMap.remove (s.pending.set id i) id).find id' = some j at found
  rw [FinMap.find_remove, FinMap.find_set] at found
  split at found
  case isTrue => cases found
  case isFalse => exact found

/-- `shutdown` adds nothing. -/
lemma shutdown (s : Conn) : Shrinks s s.shutdown := by
  cases opened : s.closed with
  | true =>
    rw [Conn.shutdown, if_pos opened]
    exact refl s
  | false =>
    have emptied := shutdown_empties opened
    refine ⟨fun id i found => ?_, ?_⟩
    · simp [emptied.1] at found
    · simp [emptied.2.2.1]

/-- The write loop adds nothing. -/
lemma loopNext (env : Env) (s : Conn) : Shrinks s (s.loopNext env) := by
  unfold Conn.loopNext
  split <;> exact same rfl rfl

end Shrinks

/-- A call whose packet is queued is not over yet. -/
lemma afterPut_goes (c : Call) (o : Outcome) : c.afterPut ≠ .ended o := by
  unfold Call.afterPut
  split <;> simp

section
variable {env : Env} {A : Trigger} {s t : Conn}

/-- The registry and the slot queue shrink, but for one request that is queued or registered. -/
lemma effect_shrinks (wf : s.Wf) (h : Effect env A s t) :
    Shrinks s t ∨
    (∃ i, t.pending = s.pending ∧ t.inFlightWaiters = s.inFlightWaiters ++ [i] ∧
      (t.calls i).pc = .slotWait) ∨
    (s.closed = false ∧ (s.pending.size : Int) < env.config.maxInFlightRequests ∧
      t.inFlightWaiters = s.inFlightWaiters ∧ ∃ id i, t.pending = s.pending.set id i) := by
  cases h with
  | slotPark _ _ _ _ => exact .inr (.inl ⟨_, rfl, rfl, by simp⟩)
  | register _ opened room _ _ => exact .inr (.inr ⟨opened, room, rfl, _, _, rfl⟩)
  | slotRefused pc _ _ _ _ _ => exact .inl (.refused wf pc)
  | slotCancelled _ _ => exact .inl ⟨fun _ _ found => found, List.erase_subset⟩
  | @drainTake i p rest _ _ _ =>
    have released := Shrinks.releaseOutboundBytes (packetBytes p) { s with sendQueue := rest }
    exact .inl ⟨released.pending, released.queue⟩
  | @selectGate i p _ _ _ _ =>
    have released := Shrinks.releaseOutboundBytes (packetBytes p)
      (s.modReq i fun r => { r with gate := false })
    exact .inl ⟨released.pending, released.queue⟩
  | @selectCancelled i p _ _ _ =>
    have released := Shrinks.releaseOutboundBytes (packetBytes p)
      (s.modReq i fun r => { r with gate := false })
    exact .inl ⟨released.pending, released.queue⟩
  | loopNext _ => exact .inl ((Shrinks.releaseOutboundBytes _ s).trans (.loopNext env _))
  | loopRun _ _ => exact .inl (.loopNext env s)
  | cancelSlot _ _ => exact .inl ⟨fun _ _ found => found, List.erase_subset⟩
  | finish _ _ => exact .inl (.finish _ _ s)
  | deadline _ _ _ _ _ _ => exact .inl (.run _ s)
  | response _ _ _ _ _ _ _ => exact .inl (.onResponse _ s)
  | shutdown _ _ => exact .inl (.shutdown s)
  | _ => exact .inl (.same rfl rfl)

/-- Only requests are in the slot queue. -/
lemma Wf.queued_request {i : Nat} (wf : s.Wf) (queued : i ∈ s.inFlightWaiters) :
    (s.calls i).kind = .request := by
  rcases wf.slots.entry i queued with ⟨pc, _⟩ | done
  · have request := (wf.call i).kind
    rwa [pc] at request
  · by_contra other
    rw [(wf.call i).fresh other] at done
    cases done

/-- Where call `j` is after an effect: where it was, at another place of its code, or at its end and
out of the slot queue. A closed connection takes no unsettled request past the slot wait. -/
inductive Place (s t : Conn) (j : Nat) : Prop where
  | same : (t.calls j).pc = (s.calls j).pc → Place s t j
  | goes : (∀ o, (t.calls j).pc ≠ .ended o) →
    (s.closed → (t.calls j).kind = .request → (t.calls j).pc.enqueued →
      (t.calls j).req.isCompleted ∨ (s.calls j).pc.enqueued) →
    Place s t j
  | ends {o} : (t.calls j).pc = .ended o → j ∉ t.inFlightWaiters → Place s t j

namespace Place

variable {u : Conn} {i j : Nat} {c : Call}

/-- Resuming and settling moves nobody. -/
lemma frame (h : Frame s t) : Place s t j := .same (h.calls j).pc

/-- Others have been woken, and one call goes on. -/
lemma after (woken : ∀ j, (u.calls j).pc = (s.calls j).pc) (calls : t.calls = Function.update u.calls i c)
    (goes : ∀ o, c.pc ≠ .ended o)
    (enqueued : s.closed → c.kind = .request → c.pc.enqueued →
      c.req.isCompleted ∨ (s.calls i).pc.enqueued) : Place s t j := by
  by_cases eq : j = i
  · subst eq
    refine .goes ?_ ?_ <;> rw [calls, Function.update_self]
    · exact goes
    · exact enqueued
  · refine .same ?_
    rw [calls, Function.update_of_ne eq]
    exact woken j

/-- One call goes on. -/
lemma update (calls : t.calls = Function.update s.calls i c) (goes : ∀ o, c.pc ≠ .ended o)
    (enqueued : s.closed → c.kind = .request → c.pc.enqueued →
      c.req.isCompleted ∨ (s.calls i).pc.enqueued) : Place s t j :=
  after (fun _ => rfl) calls goes enqueued

/-- One call goes to a place that is not on the way of a request. -/
lemma leave (calls : t.calls = Function.update s.calls i c) (goes : ∀ o, c.pc ≠ .ended o)
    (out : c.pc.enqueued = false) : Place s t j :=
  update calls goes fun _ _ pc => absurd (out.symm.trans pc) (by simp)

/-- One call of an open connection goes on. -/
lemma opened (calls : t.calls = Function.update s.calls i c) (goes : ∀ o, c.pc ≠ .ended o)
    (opened : s.closed = false) : Place s t j :=
  update calls goes fun closed => by simp [opened] at closed

/-- A coroutine that changes its own record goes to another place of its code. -/
lemma localStep {c' : Call} (h : LocalStep A s i (s.calls i) c') :
    Place s (s.modCall i fun _ => c') j := by
  have goes : ∀ o, c'.pc ≠ .ended o := by
    cases h <;> simp_all
  refine update rfl goes fun _ request pc => ?_
  cases h with
  | slotSettled _ done => exact .inl done
  | _ => exact .inr (by simp_all)

/-- A call that is refused at once is over and was in no queue. -/
lemma rejected {e : Throwable} {id : UInt32} (wf : s.Wf) (pc : c.pc = .ended (.threw e)) :
    Place s ({ s with oneWayId := id }.addCall c) j := by
  by_cases eq : j = s.next
  · subst eq
    refine .ends (o := .threw e) (by simp [Conn.addCall, pc]) fun queued => ?_
    have fresh := wf.slots.entry s.next queued
    rw [wf.fresh _ (Nat.le_refl _)] at fresh
    rcases fresh with ⟨slot, _⟩ | done
    · cases slot
    · cases done
  · exact .same (by simp [Conn.addCall, eq])

/-- A cancelled writer that launches a successor leaves. -/
lemma handOff (pc : (s.calls i).pc = .socketWrite ∨ (s.calls i).pc = .socketFlush)
    (opened : s.closed = false) :
    Place s ((s.addCall { kind := .successor, pc := .launched }).setPc i
      (.unwinding (.threw .cancellation))) j := by
  have unsettled : ∀ {P : Prop}, s.closed → P := fun closed => by simp [opened] at closed
  rw [Conn.setPc]
  by_cases eq : j = i
  · subst eq
    exact .goes (by simp) unsettled
  by_cases new : j = s.next
  · subst new
    refine .goes ?_ unsettled
    rw [modCall_calls_of_ne _ _ eq]
    simp [Conn.addCall]
  · refine .same ?_
    rw [modCall_calls_of_ne _ _ eq]
    simp [Conn.addCall, new]

/-- The end of a call that is in the slot queue at most once, and only if it is a request. -/
lemma finish {o : Outcome} (same : ∀ j, j ≠ i → (u.calls j).pc = (s.calls j).pc)
    (nodup : u.inFlightWaiters.Nodup)
    (request : i ∈ u.inFlightWaiters → (u.calls i).kind = .request) :
    Place s (u.finish i o) j := by
  by_cases eq : j = i
  · subst eq
    refine .ends (by rw [finish_pc, if_pos rfl]) fun queued => ?_
    have before := (Shrinks.finish j o u).queue queued
    rw [Conn.finish, if_pos (request before)] at queued
    have disposed : j ∈ u.inFlightWaiters.erase j := by
      dsimp only at queued
      split at queued
      case isTrue => exact ((Shrinks.unregister _ _).trans (.wakeOneInFlightWaiter _)).queue queued
      case isFalse => exact queued
    exact nodup.not_mem_erase disposed
  · refine .same ?_
    rw [finish_pc, if_neg eq]
    exact same j eq

end Place

/-- Where every effect leaves call `j`. -/
lemma effect_place (wf : s.Wf) (h : Effect env A s t) (j : Nat) : Place s t j := by
  cases h with
  | loc h => exact .localStep h
  | reject pc _ _ => exact .rejected wf pc
  | startRequest _ opened _ _ pc _ _ _ _ => exact .opened rfl (by simp [pc]) opened
  | @startPut c p id kind pc _ _ _ _ _ =>
    refine .update rfl (by simp [pc]) fun _ request => ?_
    rcases kind with kind | kind <;> simp [kind] at request
  | slotPark _ opened _ _ => exact .opened rfl (by simp) opened
  | register _ opened _ _ _ => exact .opened rfl (by simp) opened
  | @slotRefused i e pc _ _ _ _ _ =>
    refine .finish (fun j ne => ?_) wf.slots.nodup fun queued => ?_
    · rw [Conn.setPc, modCall_calls_of_ne _ _ ne]
    · simpa [Conn.setPc] using wf.queued_request queued
  | slotCancelled _ _ => exact .leave (slotCancelled_calls _ _ s) (by simp) rfl
  | roomPark _ opened _ _ => exact .opened rfl (by simp) opened
  | roomCancelled _ _ => exact .leave (roomCancelled_calls _ _ s) (by simp) rfl
  | putQueue _ opened _ _ _ _ => exact .opened rfl (afterPut_goes _) opened
  | putDrain _ opened _ _ _ _ => exact .opened rfl (by split <;> simp) opened
  | putBuffer _ opened _ _ _ _ _ => exact .opened rfl (afterPut_goes _) opened
  | putHandoff _ opened _ _ _ _ => exact .opened rfl (afterPut_goes _) opened
  | sendPark _ opened _ _ _ _ => exact .opened rfl (by simp) opened
  | selectPark _ opened _ _ _ _ _ => exact .opened rfl (by simp) opened
  | @drainTake i p rest pc _ _ =>
    have woken := releaseOutboundBytes_waking (packetBytes p) { s with sendQueue := rest }
    exact .after (fun j => (woken.calls j).pc) rfl (by simp) fun _ _ _ => .inr (by simp [pc])
  | drainEnd pc _ => exact .update rfl (afterPut_goes _) fun _ _ _ => .inr (by simp [pc])
  | @successorStart i pc =>
    have other := (wf.call i).kind
    rw [pc] at other
    exact .update rfl (by split <;> simp) fun _ request => absurd request other
  | handOff pc opened _ => exact .handOff pc opened
  | writerStop _ _ _ => exact .leave rfl (by simp) rfl
  | @selectGate i p _ pc _ _ =>
    exact .after (fun j => ((abortSelect_waking i p s).calls j).pc) rfl (by simp)
      fun _ _ _ => .inr (by simp [pc])
  | @selectCancelled i p _ _ _ =>
    exact .after (fun j => ((abortSelect_waking i p s).calls j).pc) rfl (by simp) (by simp)
  | @loopNext p _ =>
    exact .same ((loopNext_pc env _ j).trans ((releaseOutboundBytes_waking _ s).calls j).pc)
  | loopRun _ _ => exact .same (loopNext_pc env s j)
  | cancelSlot pc _ => exact .leave (cancelSlot_calls _ s) (by simp [pc]) (by simp [pc])
  | cancelRoom pc _ =>
    exact .update (cancelRoom_calls _ s) (by simp [pc]) fun _ _ _ => .inr (by simp [pc])
  | cancelSend pc _ _ => exact .leave rfl (by simp [pc]) (by simp [pc])
  | cancelSelect pc _ => exact .update rfl (by simp [pc]) fun _ _ _ => .inr (by simp [pc])
  | finish _ _ => exact .finish (fun _ _ => rfl) wf.slots.nodup wf.queued_request
  | deadline _ _ _ _ _ _ => exact .frame (run_frame _ s)
  | response _ _ _ _ _ _ _ => exact .frame (onResponse_frame _ s)
  | shutdown opened _ => exact .same ((shutdown_frame opened).calls j).pc
  | _ => exact .same rfl

end

/-! ## The registry between two steps -/

/-- What every effect preserves: the cap, and that a closed connection has no unsettled request past
the slot wait and no ended one in the slot queue. -/
structure InFlight (env : Env) (s : Conn) : Prop where
  cap : 0 ≤ env.config.maxInFlightRequests →
    (s.pending.size : Int) ≤ env.config.maxInFlightRequests
  empty : s.closed → ∀ id, s.pending.find id = none
  settled : s.closed → ∀ i, (s.calls i).kind = .request → (s.calls i).pc.enqueued →
    (s.calls i).req.isCompleted
  queued : ∀ i ∈ s.inFlightWaiters, ∀ o, (s.calls i).pc ≠ .ended o

namespace InFlight

variable {env : Env} {A : Trigger} {s t : Conn}

/-- A new connection has nothing in flight. -/
lemma init : InFlight env Conn.init where
  cap nonneg := nonneg
  empty _ _ := rfl
  settled closed := by cases closed
  queued i queued := by cases queued

/-- An effect keeps the registry within `maxInFlightRequests`. -/
lemma effect_cap (held : InFlight env s) (wf : s.Wf) (h : Effect env A s t)
    (nonneg : 0 ≤ env.config.maxInFlightRequests) :
    (t.pending.size : Int) ≤ env.config.maxInFlightRequests := by
  have before := held.cap nonneg
  rcases effect_shrinks wf h with shrinks | ⟨i, same, _⟩ | ⟨_, room, _, id, i, set⟩
  · have le := FinMap.size_le shrinks.pending
    omega
  · rw [same]
    exact before
  · rw [set]
    cases found : s.pending.find id with
    | none =>
      rw [FinMap.size_set_of_find_none found]
      omega
    | some j =>
      rw [FinMap.size_set_of_find found]
      omega

/-- A closed connection has an empty registry. -/
lemma effect_empty (held : InFlight env s) (wf : s.Wf) (h : Effect env A s t) (closed : t.closed)
    (id : UInt32) : t.pending.find id = none := by
  rcases effect_closed h with same | ⟨opened, _, rfl⟩
  · have none := held.empty (same ▸ closed) id
    rcases effect_shrinks wf h with shrinks | ⟨i, pending, _⟩ | ⟨opened, _⟩
    · rw [Option.eq_none_iff_forall_ne_some] at none ⊢
      exact fun i found => none i (shrinks.pending id i found)
    · rw [pending]
      exact none
    · simp [same, opened] at closed
  · rw [(shutdown_empties opened).1, FinMap.find_empty]

/-- On a closed connection every request past the slot wait is settled. -/
lemma effect_settled (held : InFlight env s) (wf : s.Wf) (reg : s.Reg) (h : Effect env A s t)
    (closed : t.closed) {i : Nat} (request : (t.calls i).kind = .request)
    (pc : (t.calls i).pc.enqueued) : (t.calls i).req.isCompleted := by
  rcases effect_closed h with same | ⟨opened, _, rfl⟩
  · have closed' : s.closed := same ▸ closed
    -- a request that was on its way before was settled
    have stays : (s.calls i).pc.enqueued → (t.calls i).req.isCompleted := by
      intro before
      have made : i < s.next := wf.lt_next fun o eq => by simp [eq] at before
      have later := (Later.effect wf h).call made
      exact later.completed (held.settled closed' i (later.kind ▸ request) before)
    cases effect_place wf h i with
    | same place => exact stays (place ▸ pc)
    | goes _ enqueued => exact (enqueued closed' request pc).elim id stays
    | ends ended _ => simp [ended] at pc
  · exact shutdown_settled wf reg opened request pc

/-- Who is in the slot queue is not over. -/
lemma effect_queued (held : InFlight env s) (wf : s.Wf) (h : Effect env A s t) {i : Nat}
    (queued : i ∈ t.inFlightWaiters) (o : Outcome) : (t.calls i).pc ≠ .ended o := by
  cases effect_place wf h i with
  | goes running _ => exact running o
  | ends _ out => exact absurd queued out
  | same place =>
    rcases effect_shrinks wf h with shrinks | ⟨j, _, queue, slot⟩ | ⟨_, _, queue, _⟩
    · exact place ▸ held.queued i (shrinks.queue queued) o
    · rw [queue, List.mem_append, List.mem_singleton] at queued
      rcases queued with queued | rfl
      · exact place ▸ held.queued i queued o
      · simp [slot]
    · exact place ▸ held.queued i (queue ▸ queued) o

/-- Every effect keeps what is in flight. -/
theorem effect (held : InFlight env s) (wf : s.Wf) (reg : s.Reg) (h : Effect env A s t) :
    InFlight env t where
  cap := held.effect_cap wf h
  empty := held.effect_empty wf h
  settled closed _ := held.effect_settled wf reg h closed
  queued _ := held.effect_queued wf h

/-- The invariant holds in every run. -/
theorem reach (run : Runs.Reach (step env) Runs.always Conn.init s) : s.Reg ∧ InFlight env s :=
  invariant_of_registry (P := InFlight env) (reach_unguarded run) .init
    fun _ _ _ _ wf reg held eff => held.effect wf reg eff

end InFlight

/-- A request that has passed the slot wait and has not ended. -/
def Started (s : Conn) (i : Nat) : Prop :=
  (s.calls i).kind = .request ∧ (s.calls i).pc ≠ .slotWait ∧ ∀ o, (s.calls i).pc ≠ .ended o

/-- Between two steps, a request that has passed the slot wait is on its way. -/
lemma Started.enqueued {s : Conn} {i : Nat} (started : s.Started i) (wf : s.Wf) (rested : s.Rested) :
    (s.calls i).pc.enqueued := by
  obtain ⟨request, slot, running⟩ := started
  have kind := (wf.call i).kind
  have rests := rested i
  rw [request] at kind
  cases pc : (s.calls i).pc <;> simp_all

/-- In every reachable state the registry holds exactly the requests that have passed the slot wait, are
not settled and have not ended, each under its own id; there are at most `maxInFlightRequests` of them;
and a request that has ended is in no queue. -/
theorem registry_exact {env : Env} {s : Conn} (nonneg : 0 ≤ env.config.maxInFlightRequests)
    (run : Runs.Reach (step env) Runs.always init s) :
    (∀ id i, s.pending.find id = some i ↔
      s.Started i ∧ (s.calls i).req.id = id ∧ (s.calls i).req.isCompleted = false) ∧
    (s.pending.size : Int) ≤ env.config.maxInFlightRequests ∧
    ∀ i o, (s.calls i).kind = .request → (s.calls i).pc = .ended o →
      (∀ id, s.pending.find id ≠ some i) ∧ i ∉ s.inFlightWaiters ∧
        ∀ k ∈ s.roomWaiters, k.call ≠ i := by
  have rested : s.Rested := .reach run
  have wf : s.Wf := .reach run
  obtain ⟨reg, held⟩ := InFlight.reach run
  have found_started : ∀ id i, s.pending.find id = some i →
      s.Started i ∧ (s.calls i).req.id = id ∧ (s.calls i).req.isCompleted = false := by
    intro id i found
    -- a closed connection has an empty registry
    have opened : s.closed = false := by
      by_contra closed
      simp [held.empty (by simpa using closed) id] at found
    obtain ⟨sameId, place⟩ := reg.entry id i found
    refine ⟨⟨wf.registry id i found, ?_, ?_⟩, sameId, reg.live opened id i found⟩
    · intro slot
      simp [slot] at place
    · intro o ended
      simp [ended] at place
  refine ⟨fun id i => ⟨found_started id i, ?_⟩, held.cap nonneg, fun i o request ended => ⟨?_, ?_, ?_⟩⟩
  · rintro ⟨started, rfl, live⟩
    have enqueued := started.enqueued wf rested
    have opened : s.closed = false := by
      by_contra closed
      simp [held.settled (by simpa using closed) i started.1 enqueued] at live
    exact reg.registered opened i started.1 enqueued live
  · intro id found
    exact (found_started id i found).1.2.2 o ended
  · intro queued
    exact held.queued i queued o ended
  · rintro k queued rfl
    obtain ⟨⟨⟨p, place⟩, _⟩, _⟩ := (wf.room.mem k).mp queued
    simp [place] at ended

/-- One request is in flight and a second one waits for its slot. -/
theorem registry_exact_one : ∃ s : Conn,
    Runs.Reach (step (.tight .inline)) Runs.always init s ∧ s.Started 0 ∧
      (s.calls 0).req.isCompleted = false ∧ (s.calls 1).pc = .slotWait ∧
      s.pending.find 1 = some 0 ∧ (s.pending.size : Int) ≤ 1 := by
  have run : ((Runs.exec (step (.tight .inline)) init [.requestOne, .requestOne]).map
      fun s => ((s.calls 0).pc, (s.calls 0).kind, (s.calls 0).req.id, (s.calls 0).req.isCompleted,
        (s.calls 1).pc)) = some (.socketWrite, .request, 1, false, .slotWait) := by decide
  obtain ⟨s, exec, facts⟩ := Option.map_eq_some_iff.mp run
  simp only [Prod.mk.injEq] at facts
  obtain ⟨place, request, sameId, live, waits⟩ := facts
  have started : s.Started 0 := ⟨request, by simp [place], by simp [place]⟩
  have reach := Runs.reach_always_of_exec exec
  obtain ⟨registry, cap, _⟩ := registry_exact (by decide) reach
  exact ⟨s, reach, started, live, waits, (registry 1 0).mpr ⟨started, sameId, live⟩, cap⟩

end Conn

end MsgTrans
