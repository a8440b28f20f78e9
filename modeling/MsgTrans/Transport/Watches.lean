import MsgTrans.Transport.ReactorQueue

/-!
# Watching the jobs of parked coroutines

Model of how a `ReactorQueue` notices that a parked coroutine was cancelled (`watch`, `onCancelled`, and
what `close` and `onRefused` do to them, `msgtrans/transport/ReactorQueue.kt`): two slots hold the watched
jobs, and a third job takes the slot of the older one. A job is named by a number. The handle that belongs
to a slot is disposed when its job leaves the slot, so a cancellation is heard exactly while the job is in
one.

A queue that holds an element or more never has a parked receiver and a parked sender at once. Whoever parks
is then the only one, so an eviction never hits a parked coroutine and no cancellation of one is lost,
however many jobs use the queue. With the two jobs of a connection there is no eviction at all, and the
`watched` flags of `ReactorQueue` are what the slots say.
-/

namespace MsgTrans

/-- The slots of a queue and its waiters, as the jobs of the parked coroutines. `inactive` are the jobs that
have been cancelled, `dispatched` those whose `onCancelled` is on its way to the reactor. -/
structure Watches where
  watchedA : Option Nat := none
  watchedB : Option Nat := none
  takeWaiter : Option Nat := none
  putWaiter : Option Nat := none
  closed : Bool := false
  inactive : List Nat := []
  dispatched : List Nat := []
deriving DecidableEq, Repr

/-- What happens to them in one step. -/
inductive WatchEvent where
  | parkTake (job : Nat)
  | parkPut (job : Nat)
  | resumeTake
  | resumePut
  /-- the reactor refuses the resume of a receiver or a sender -/
  | refuseTake
  | refusePut
  | close
  | cancel (job : Nat)
  | onCancelled (job : Nat)
deriving DecidableEq, Repr

namespace Watches

/-- The job is in a slot. -/
def Watched (s : Watches) (job : Nat) : Prop := s.watchedA = some job ∨ s.watchedB = some job

instance (s : Watches) (job : Nat) : Decidable (s.Watched job) :=
  inferInstanceAs (Decidable (_ ∨ _))

/-- A coroutine of the job is parked. -/
def Waits (s : Watches) (job : Nat) : Prop := s.takeWaiter = some job ∨ s.putWaiter = some job

/-- Kotlin `watch`, for a job that is active. -/
def watch (job : Nat) (s : Watches) : Watches :=
  if s.Watched job then s
  else if s.watchedA = none then { s with watchedA := some job }
  else if s.watchedB = none then { s with watchedB := some job }
  else { s with watchedA := s.watchedB, watchedB := some job }

/-- Kotlin `close`. -/
def close (s : Watches) : Watches :=
  if s.closed then s
  else { s with closed := true, takeWaiter := none, putWaiter := none, watchedA := none, watchedB := none }

/-- A job is cancelled: its handler, if there is one, dispatches `onCancelled`. -/
def cancel (job : Nat) (s : Watches) : Watches :=
  { s with
    inactive := s.inactive ++ [job]
    dispatched := if s.Watched job then s.dispatched ++ [job] else s.dispatched }

/-- Kotlin `onCancelled`. -/
def onCancelled (job : Nat) (s : Watches) : Watches :=
  { s with
    dispatched := s.dispatched.erase job
    takeWaiter := if s.takeWaiter = some job then none else s.takeWaiter
    putWaiter := if s.putWaiter = some job then none else s.putWaiter }

/-- One step; `none` when the event cannot happen in this state. There is one consumer and one producer at a
time, and a cancelled job throws instead of parking. -/
def step (s : Watches) : WatchEvent → Option Watches
  | .parkTake job =>
    if s.closed = false ∧ s.takeWaiter = none ∧ job ∉ s.inactive then
      some { s.watch job with takeWaiter := some job }
    else none
  | .parkPut job =>
    if s.closed = false ∧ s.putWaiter = none ∧ job ∉ s.inactive then
      some { s.watch job with putWaiter := some job }
    else none
  | .resumeTake => if s.takeWaiter ≠ none then some { s with takeWaiter := none } else none
  | .resumePut => if s.putWaiter ≠ none then some { s with putWaiter := none } else none
  | .refuseTake =>
    if s.takeWaiter ≠ none then some { s with takeWaiter := none, closed := true } else none
  | .refusePut =>
    if s.putWaiter ≠ none then some { s with putWaiter := none, closed := true } else none
  | .close => some s.close
  | .cancel job => if job ∉ s.inactive then some (s.cancel job) else none
  | .onCancelled job => if job ∈ s.dispatched then some (s.onCancelled job) else none

variable {a b job : Nat} {s s' : Watches} {e : WatchEvent}

/-- A job that is watched has a slot. -/
lemma watch_watched (job : Nat) (s : Watches) : (s.watch job).Watched job := by
  unfold watch
  split
  case isTrue watched => exact watched
  case isFalse =>
    split
    case isTrue => exact .inl rfl
    case isFalse => split <;> exact .inr rfl

/-- `watch` touches the slots alone. -/
lemma watch_rest (job : Nat) (s : Watches) : (s.watch job).takeWaiter = s.takeWaiter ∧
    (s.watch job).putWaiter = s.putWaiter ∧ (s.watch job).inactive = s.inactive ∧
    (s.watch job).dispatched = s.dispatched ∧ (s.watch job).closed = s.closed := by
  unfold watch
  split
  case isTrue => exact ⟨rfl, rfl, rfl, rfl, rfl⟩
  case isFalse =>
    split
    case isTrue => exact ⟨rfl, rfl, rfl, rfl, rfl⟩
    case isFalse => split <;> exact ⟨rfl, rfl, rfl, rfl, rfl⟩

/-- `onCancelled` unparks the job's coroutines and no others. -/
lemma onCancelled_waits {k : Nat} (waits : (s.onCancelled job).Waits k) : s.Waits k ∧ k ≠ job := by
  rcases waits with held | held
  · obtain ⟨not, eq⟩ := Option.ite_none_left_eq_some.mp held
    refine ⟨.inl eq, ?_⟩
    rintro rfl
    exact not eq
  · obtain ⟨not, eq⟩ := Option.ite_none_left_eq_some.mp held
    refine ⟨.inr eq, ?_⟩
    rintro rfl
    exact not eq

/-! ## Cancellations are heard -/

/-- A receiver does not park beside a parked sender, nor a sender beside a parked receiver. -/
def Alone (s : Watches) (e : WatchEvent) : Prop :=
  (∀ job, e = .parkTake job → s.putWaiter = none) ∧ (∀ job, e = .parkPut job → s.takeWaiter = none)

instance (s : Watches) (e : WatchEvent) : Decidable (s.Alone e) :=
  match e with
  | .parkTake _ => decidable_of_iff (s.putWaiter = none) (by simp [Alone])
  | .parkPut _ => decidable_of_iff (s.takeWaiter = none) (by simp [Alone])
  | .resumeTake | .resumePut | .refuseTake | .refusePut | .close | .cancel _ | .onCancelled _ =>
    isTrue (by simp [Alone])

/-- Every parked coroutine is watched, and told if it is cancelled. -/
structure Heard (s : Watches) : Prop where
  parked : ∀ job, s.Waits job → s.Watched job
  told : ∀ job, s.Waits job → job ∈ s.inactive → job ∈ s.dispatched

namespace Heard

/-- A new queue. -/
lemma new : Heard {} where
  parked job waits := by rcases waits with held | held <;> cases held
  told job waits := by rcases waits with held | held <;> cases held

/-- Somebody parks who is the only one then. -/
lemma park {take put : Option Nat} (active : job ∉ s.inactive)
    (only : ∀ k, take = some k ∨ put = some k → k = job) :
    Heard { s.watch job with takeWaiter := take, putWaiter := put } := by
  refine ⟨fun k waits => ?_, fun k waits cancelled => ?_⟩
  · rw [only k waits]
    exact watch_watched job s
  · rw [only k waits] at cancelled
    change job ∈ (s.watch job).inactive at cancelled
    rw [(watch_rest job s).2.2.1] at cancelled
    exact absurd cancelled active

/-- Coroutines leave the queue. -/
lemma fewer {take put : Option Nat} {closed : Bool} (h : Heard s)
    (waits : ∀ k, take = some k ∨ put = some k → s.Waits k) :
    Heard { s with takeWaiter := take, putWaiter := put, closed } where
  parked k parked := h.parked k (waits k parked)
  told k parked := h.told k (waits k parked)

/-- Every step keeps it so, as long as no coroutine parks beside another. -/
lemma step (h : Heard s) (alone : s.Alone e) (st : s.step e = some s') : Heard s' := by
  cases e with
  -- the other side is not parked, so an eviction from the slots concerns no parked job
  | parkTake job =>
    obtain ⟨⟨_, _, active⟩, ⟨⟩⟩ := Option.ite_none_right_eq_some.mp st
    refine park active fun k parked => ?_
    rw [(watch_rest job s).2.1, alone.1 job rfl] at parked
    simpa [eq_comm] using parked
  | parkPut job =>
    obtain ⟨⟨_, _, active⟩, ⟨⟩⟩ := Option.ite_none_right_eq_some.mp st
    refine park active fun k parked => ?_
    rw [(watch_rest job s).1, alone.2 job rfl] at parked
    simpa [eq_comm] using parked
  | resumeTake | refuseTake =>
    obtain ⟨_, ⟨⟩⟩ := Option.ite_none_right_eq_some.mp st
    refine h.fewer fun k parked => .inr ?_
    exact parked.resolve_left (by simp)
  | resumePut | refusePut =>
    obtain ⟨_, ⟨⟩⟩ := Option.ite_none_right_eq_some.mp st
    refine h.fewer fun k parked => .inl ?_
    exact parked.resolve_right (by simp)
  | close =>
    cases st
    unfold Watches.close
    split
    case isTrue => exact h
    case isFalse =>
      refine ⟨fun k waits => ?_, fun k waits => ?_⟩
      · rcases waits with held | held <;> cases held
      · rcases waits with held | held <;> cases held
  | cancel job =>
    obtain ⟨_, ⟨⟩⟩ := Option.ite_none_right_eq_some.mp st
    refine ⟨h.parked, fun k waits cancelled => ?_⟩
    unfold Watches.cancel
    rcases List.mem_append.mp cancelled with before | now
    · have told := h.told k waits before
      split
      · exact List.mem_append_left _ told
      · exact told
    -- a parked job is in a slot, so its handler dispatches `onCancelled`
    · rw [List.mem_singleton.mp now] at waits ⊢
      rw [if_pos (h.parked job waits)]
      exact List.mem_append_right _ (List.mem_singleton_self _)
  | onCancelled job =>
    obtain ⟨_, ⟨⟩⟩ := Option.ite_none_right_eq_some.mp st
    refine ⟨fun k waits => h.parked k (onCancelled_waits waits).1, fun k waits cancelled => ?_⟩
    obtain ⟨before, ne⟩ := onCancelled_waits waits
    exact (List.mem_erase_of_ne ne).mpr (h.told k before cancelled)

end Heard

/-- However many jobs use a queue: while a coroutine is parked its job is watched, and once the job is
cancelled an `onCancelled` is on its way that takes the coroutine out of the queue. -/
theorem cancellation_heard (run : Runs.Reach step Alone {} s) (waits : s.Waits job) :
    s.Watched job ∧ (job ∈ s.inactive → ∃ t, s.step (.onCancelled job) = some t ∧ ¬ t.Waits job) := by
  have heard : Heard s := run.invariant (P := Heard) .new fun _ _ _ h alone st => h.step alone st
  refine ⟨heard.parked job waits, fun cancelled => ⟨s.onCancelled job, ?_, fun still => ?_⟩⟩
  · exact if_pos (heard.told job waits cancelled)
  · exact (onCancelled_waits still).2 rfl

/-- Three jobs: the first is evicted while it is not parked, parks again and is cancelled. -/
theorem cancellation_heard_evicted : ∃ s t : Watches, Runs.Reach step Alone {} s ∧
    s.putWaiter = some 0 ∧ s.watchedA = some 2 ∧ s.Waits 0 ∧ s.Watched 0 ∧ 0 ∈ s.inactive ∧
    s.step (.onCancelled 0) = some t ∧ ¬ t.Waits 0 := by
  have run : ((Runs.exec step {} [.parkPut 0, .resumePut, .parkTake 1, .resumeTake, .parkPut 2,
      .resumePut, .parkPut 0, .cancel 0]).map fun s =>
        decide (s.putWaiter = some 0 ∧ s.watchedA = some 2 ∧ 0 ∈ s.inactive)) = some true := by decide
  have guarded : Runs.Guarded step Alone {} [.parkPut 0, .resumePut, .parkTake 1, .resumeTake,
      .parkPut 2, .resumePut, .parkPut 0, .cancel 0] := by decide
  obtain ⟨s, exec, facts⟩ := Option.map_eq_some_iff.mp run
  obtain ⟨parked, slot, cancelled⟩ := of_decide_eq_true facts
  have reach := Runs.reach_of_exec exec guarded
  obtain ⟨watched, heard⟩ := cancellation_heard reach (.inr parked)
  obtain ⟨t, ran, gone⟩ := heard cancelled
  exact ⟨s, t, reach, parked, slot, .inr parked, watched, cancelled, ran, gone⟩

/-! ## Two jobs -/

/-- Only coroutines of the jobs `a` and `b` park. -/
def ParkedBy (a b : Nat) (e : WatchEvent) : Prop :=
  ∀ job, e = .parkTake job ∨ e = .parkPut job → job = a ∨ job = b

/-- The slots hold `a` and `b` at most. -/
structure TwoJobs (a b : Nat) (s : Watches) : Prop where
  known : ∀ job, s.Watched job → job = a ∨ job = b
  apart : ∀ job, s.watchedA = some job → s.watchedB ≠ some job

namespace TwoJobs

/-- Empty slots. -/
lemma unwatched (first : s.watchedA = none) (second : s.watchedB = none) : TwoJobs a b s := by
  have nobody : ∀ job, ¬ s.Watched job := by simp [Watched, first, second]
  exact ⟨fun job watched => absurd watched (nobody job), fun job held => absurd (.inl held) (nobody job)⟩

/-- There is a slot for the job: nobody is evicted. -/
lemma watch_cases (h : TwoJobs a b s) (mine : job = a ∨ job = b) :
    (s.Watched job ∧ s.watch job = s) ∨
      (¬ s.Watched job ∧ s.watchedA = none ∧ s.watch job = { s with watchedA := some job }) ∨
      (¬ s.Watched job ∧ s.watchedB = none ∧ s.watch job = { s with watchedB := some job }) := by
  unfold watch
  split
  case isTrue watched => exact .inl ⟨watched, rfl⟩
  case isFalse new =>
    split
    case isTrue free => exact .inr (.inl ⟨new, free, rfl⟩)
    case isFalse first =>
      split
      case isTrue free => exact .inr (.inr ⟨new, free, rfl⟩)
      case isFalse second =>
        -- the two jobs in the slots would both be the other one of `a` and `b`
        obtain ⟨x, first⟩ := Option.ne_none_iff_exists'.mp first
        obtain ⟨y, second⟩ := Option.ne_none_iff_exists'.mp second
        have other : x ≠ y := by
          rintro rfl
          exact h.apart x first second
        have notX : x ≠ job := by
          rintro rfl
          exact new (.inl first)
        have notY : y ≠ job := by
          rintro rfl
          exact new (.inr second)
        have knownX := h.known x (.inl first)
        have knownY := h.known y (.inr second)
        omega

/-- With two jobs `watch` evicts nobody. -/
lemma watched_iff (h : TwoJobs a b s) (mine : job = a ∨ job = b) (k : Nat) :
    (s.watch job).Watched k ↔ s.Watched k ∨ k = job := by
  rcases h.watch_cases mine with ⟨watched, eq⟩ | ⟨_, free, eq⟩ | ⟨_, free, eq⟩
  · rw [eq]
    refine ⟨.inl, ?_⟩
    rintro (old | rfl)
    · exact old
    · exact watched
  · rw [eq]
    simp [Watched, free, or_comm, eq_comm]
  · rw [eq]
    simp [Watched, free, eq_comm]

/-- `watch` keeps the slots to the two jobs. -/
lemma watch (h : TwoJobs a b s) (mine : job = a ∨ job = b) : TwoJobs a b (s.watch job) := by
  refine ⟨fun k watched => ?_, fun k first => ?_⟩
  · rcases (h.watched_iff mine k).mp watched with old | rfl
    · exact h.known k old
    · exact mine
  · rcases h.watch_cases mine with ⟨_, eq⟩ | ⟨new, _, eq⟩ | ⟨new, _, eq⟩
    · rw [eq] at first ⊢
      exact h.apart k first
    · rw [eq] at first ⊢
      intro second
      cases first
      exact new (.inr second)
    · rw [eq] at first ⊢
      intro second
      cases second
      exact new (.inl first)

/-- Every step keeps the slots to the two jobs. -/
lemma step (h : TwoJobs a b s) (mine : ParkedBy a b e) (st : s.step e = some s') : TwoJobs a b s' := by
  cases e with
  | parkTake job =>
    obtain ⟨_, ⟨⟩⟩ := Option.ite_none_right_eq_some.mp st
    have next := h.watch (mine job (.inl rfl))
    exact ⟨next.known, next.apart⟩
  | parkPut job =>
    obtain ⟨_, ⟨⟩⟩ := Option.ite_none_right_eq_some.mp st
    have next := h.watch (mine job (.inr rfl))
    exact ⟨next.known, next.apart⟩
  | resumeTake | refuseTake | resumePut | refusePut | cancel _ | onCancelled _ =>
    obtain ⟨_, ⟨⟩⟩ := Option.ite_none_right_eq_some.mp st
    exact ⟨h.known, h.apart⟩
  | close =>
    cases st
    unfold Watches.close
    split
    case isTrue => exact h
    case isFalse => exact unwatched rfl rfl

end TwoJobs

/-- An `onCancelled` is on its way once at most, for a job that was cancelled. -/
structure Told (s : Watches) : Prop where
  once : s.dispatched.Nodup
  cancelled : ∀ job ∈ s.dispatched, job ∈ s.inactive

namespace Told

/-- A step that concerns no cancellation. -/
lemma aside (h : Told s) (inactive : s'.inactive = s.inactive)
    (dispatched : s'.dispatched = s.dispatched) : Told s' := by
  refine ⟨?_, ?_⟩
  · rw [dispatched]
    exact h.once
  · rw [inactive, dispatched]
    exact h.cancelled

/-- Every step keeps it so. -/
lemma step (h : Told s) (st : s.step e = some s') : Told s' := by
  cases e with
  | parkTake job | parkPut job =>
    obtain ⟨_, ⟨⟩⟩ := Option.ite_none_right_eq_some.mp st
    exact h.aside (watch_rest job s).2.2.1 (watch_rest job s).2.2.2.1
  | resumeTake | refuseTake | resumePut | refusePut =>
    obtain ⟨_, ⟨⟩⟩ := Option.ite_none_right_eq_some.mp st
    exact h.aside rfl rfl
  | close =>
    cases st
    unfold Watches.close
    split
    case isTrue => exact h
    case isFalse => exact h.aside rfl rfl
  | cancel job =>
    obtain ⟨active, ⟨⟩⟩ := Option.ite_none_right_eq_some.mp st
    have new : job ∉ s.dispatched := fun told => active (h.cancelled job told)
    unfold Watches.cancel
    by_cases watched : s.Watched job
    · rw [if_pos watched]
      refine ⟨List.nodup_append.mpr ⟨h.once, List.pairwise_singleton _ _, ?_⟩, fun k told => ?_⟩
      · intro k old j now
        rw [List.mem_singleton.mp now]
        rintro rfl
        exact new old
      · exact (List.mem_append.mp told).elim (fun old => List.mem_append_left _ (h.cancelled k old))
          fun now => List.mem_append_right _ now
    · rw [if_neg watched]
      exact ⟨h.once, fun k told => List.mem_append_left _ (h.cancelled k told)⟩
  | onCancelled job =>
    obtain ⟨_, ⟨⟩⟩ := Option.ite_none_right_eq_some.mp st
    exact ⟨h.once.erase job, fun k told => h.cancelled k (List.mem_of_mem_erase told)⟩

end Told

/-! ## The queue with its slots -/

/-- What the slots say about a job. -/
def jobOf (s : Watches) (job : Nat) : QueueJob :=
  ⟨decide (job ∉ s.inactive), decide (s.Watched job), decide (job ∈ s.dispatched)⟩

/-- A new watch sets the flag of its own job and of no other. -/
lemma TwoJobs.jobOf_watch (h : TwoJobs a b s) (mine : job = a ∨ job = b) (k : Nat) :
    (s.watch job).jobOf k = { s.jobOf k with watched := decide (s.Watched k ∨ k = job) } := by
  obtain ⟨_, _, inactive, dispatched, _⟩ := watch_rest job s
  simp only [jobOf, inactive, dispatched, h.watched_iff mine k]

/-- A cancellation concerns one job. -/
lemma jobOf_cancel (job k : Nat) (s : Watches) : (s.cancel job).jobOf k =
    if k = job then ReactorQueue.QueueJob.cancel (s.jobOf k) else s.jobOf k := by
  split
  case isTrue own =>
    subst own
    unfold jobOf
    refine congr (congr (congrArg QueueJob.mk ?_) rfl) ?_
    · simp [Watches.cancel]
    · by_cases watched : s.Watched k <;> simp [Watches.cancel, watched]
  case isFalse other =>
    unfold jobOf
    refine congr (congr (congrArg QueueJob.mk ?_) rfl) ?_
    · simp [Watches.cancel, other]
    · by_cases watched : s.Watched job <;> simp [Watches.cancel, watched, other]

/-- So does an `onCancelled`. -/
lemma Told.jobOf_onCancelled (told : Told s) (job k : Nat) : (s.onCancelled job).jobOf k =
    if k = job then { s.jobOf k with dispatched := false } else s.jobOf k := by
  split
  case isTrue own =>
    subst own
    unfold jobOf
    refine congr (congr (congrArg QueueJob.mk rfl) rfl) ?_
    simp [Watches.onCancelled, told.once.mem_erase_iff]
  case isFalse other =>
    unfold jobOf
    refine congr (congr (congrArg QueueJob.mk rfl) rfl) ?_
    simp [Watches.onCancelled, told.once.mem_erase_iff, other]

/-- The slots of a queue whose producer has the job 0 and whose consumer has the job 1. -/
structure Tracks {α : Type} (q : ReactorQueue α) (s : Watches) : Prop where
  take : s.takeWaiter = q.takeWaiter.map fun _ => 1
  put : s.putWaiter = q.putWaiter.map fun _ => 0
  closed : s.closed = q.closed
  producer : q.producerJob = s.jobOf 0
  consumer : q.consumerJob = s.jobOf 1

section Queue

variable {α : Type} {c : Int} {q q' : ReactorQueue α} {x : α} {k : Nat}

/-- A change of the queue that concerns neither its jobs nor whether it is closed. -/
structure SameJobs (q q' : ReactorQueue α) : Prop where
  closed : q'.closed = q.closed
  producer : q'.producerJob = q.producerJob
  consumer : q'.consumerJob = q.consumerJob

/-- The waiters of the slots follow those of the queue. -/
lemma Tracks.waiters {take put : Option Nat} (h : Tracks q s) (same : SameJobs q q')
    (takes : take = q'.takeWaiter.map fun _ => 1) (puts : put = q'.putWaiter.map fun _ => 0) :
    Tracks q' { s with takeWaiter := take, putWaiter := put } where
  take := takes
  put := puts
  closed := h.closed.trans same.closed.symm
  producer := same.producer.trans h.producer
  consumer := same.consumer.trans h.consumer

/-- Waking the sender concerns no job. -/
lemma wakeSender_same (r : QueueResume Unit) (q : ReactorQueue α) : SameJobs q (q.wakeSender r) := by
  unfold ReactorQueue.wakeSender
  split <;> exact ⟨rfl, rfl, rfl⟩

/-- `onCancelled` takes the coroutine of its own job out of the slot. -/
lemma waiter_own {waiter slot : Option Nat} (tracked : slot = waiter.map fun _ => job) :
    (if slot = some job then none else slot) = none := by
  subst tracked
  cases waiter with
  | none => rfl
  | some k => exact if_pos rfl

/-- The coroutine of another job stays. -/
lemma waiter_other {waiter slot : Option Nat} {other : Nat} (tracked : slot = waiter.map fun _ => other)
    (apart : other ≠ job) : (if slot = some job then none else slot) = waiter.map fun _ => other := by
  subst tracked
  cases waiter with
  | none => rfl
  | some k => exact if_neg fun same => apart (Option.some.inj same)

/-- The steps that a queue of capacity `c` asks of its slots. -/
def TwoSided (c : Int) (s : Watches) (e : WatchEvent) : Prop :=
  ParkedBy 0 1 e ∧ (1 ≤ c → s.Alone e)

/-- Only a coroutine that parks is asked for anything. -/
lemma TwoSided.idle (take : ∀ job, e ≠ .parkTake job) (put : ∀ job, e ≠ .parkPut job) :
    TwoSided c s e := by
  refine ⟨?_, fun _ => ⟨fun job parks => absurd parks (take job), fun job parks => absurd parks (put job)⟩⟩
  rintro job (parks | parks)
  · exact absurd parks (take job)
  · exact absurd parks (put job)

/-- The step of the slots that belongs to a step of the queue, if there is one. -/
def Follows (c : Int) (s s' : Watches) : Prop :=
  s' = s ∨ ∃ e, TwoSided c s e ∧ s.step e = some s'

/-- What holds of a queue and its slots. -/
structure Slotted (c : Int) (q : ReactorQueue α) (s : Watches) : Prop where
  two : TwoJobs 0 1 s
  told : Told s
  tracks : Tracks q s
  slots : q.Slots
  contents : ∃ l, q.Contents c l

namespace Slotted

/-- A step of the queue that its slots do not see. -/
lemma rests (h : Slotted c q s) (same : SameJobs q q') (take : q'.takeWaiter = q.takeWaiter)
    (put : q'.putWaiter = q.putWaiter) : ∃ s', Follows c s s' ∧ Tracks q' s' := by
  refine ⟨s, .inl rfl, h.tracks.waiters same ?_ ?_⟩
  · rw [take]
    exact h.tracks.take
  · rw [put]
    exact h.tracks.put

/-- The parked receiver is resumed. -/
lemma takes (h : Slotted c q s) (held : q.takeWaiter = some k) (same : SameJobs q q')
    (take : q'.takeWaiter = none) (put : q'.putWaiter = q.putWaiter) :
    ∃ s', Follows c s s' ∧ Tracks q' s' := by
  have parked : s.takeWaiter ≠ none := by simp [h.tracks.take, held]
  refine ⟨{ s with takeWaiter := none },
    .inr ⟨.resumeTake, TwoSided.idle (by simp) (by simp), if_pos parked⟩,
    h.tracks.waiters same ?_ ?_⟩
  · rw [take]
    rfl
  · rw [put]
    exact h.tracks.put

/-- The parked sender, if there is one, is resumed. -/
lemma puts (h : Slotted c q s) (same : SameJobs q q') (take : q'.takeWaiter = q.takeWaiter)
    (put : q'.putWaiter = none) : ∃ s', Follows c s s' ∧ Tracks q' s' := by
  cases held : q.putWaiter with
  | none => exact h.rests same take (put.trans held.symm)
  | some k =>
    have parked : s.putWaiter ≠ none := by simp [h.tracks.put, held]
    refine ⟨{ s with putWaiter := none },
      .inr ⟨.resumePut, TwoSided.idle (by simp) (by simp), if_pos parked⟩,
      h.tracks.waiters same ?_ ?_⟩
    · rw [take]
      exact h.tracks.take
    · rw [put]
      rfl

/-- The slots follow a sender that parks. -/
lemma parkPut (h : Slotted c q s) (opened : q.closed = false) (free : q.putWaiter = none)
    (alone : q.takeWaiter = none) : ∃ s', Follows c s s' ∧ Tracks (q.parkPut x) s' := by
  unfold ReactorQueue.parkPut
  split
  case isFalse => exact h.rests ⟨rfl, rfl, rfl⟩ rfl rfl
  case isTrue active =>
    have producer := h.tracks.producer
    rw [producer] at active
    obtain ⟨take, _, _, _, closed⟩ := watch_rest 0 s
    have mine : 0 = 0 ∨ 0 = 1 := .inl rfl
    refine ⟨{ s.watch 0 with putWaiter := some 0 },
      .inr ⟨.parkPut 0, ⟨?_, fun _ => ?_⟩, if_pos ?_⟩, ?_⟩
    · rintro _ (⟨⟨⟩⟩ | ⟨⟨⟩⟩)
      exact mine
    · refine ⟨by simp, fun _ _ => ?_⟩
      rw [h.tracks.take, alone]
      rfl
    · refine ⟨h.tracks.closed.trans opened, ?_, of_decide_eq_true active⟩
      rw [h.tracks.put, free]
      rfl
    · refine ⟨take.trans h.tracks.take, rfl, closed.trans h.tracks.closed, ?_, ?_⟩
      · change { q.producerJob with watched := true } = (s.watch 0).jobOf 0
        rw [h.two.jobOf_watch mine, producer]
        simp
      · change q.consumerJob = (s.watch 0).jobOf 1
        rw [h.two.jobOf_watch mine, h.tracks.consumer]
        simp [jobOf]

/-- The slots follow a receiver that parks. -/
lemma parkTake (h : Slotted c q s) (opened : q.closed = false) (free : q.takeWaiter = none)
    (alone : 1 ≤ c → q.putWaiter = none) : ∃ s', Follows c s s' ∧ Tracks q.parkTake s' := by
  unfold ReactorQueue.parkTake
  split
  case isFalse => exact h.rests ⟨rfl, rfl, rfl⟩ rfl rfl
  case isTrue active =>
    have consumer := h.tracks.consumer
    rw [consumer] at active
    obtain ⟨_, put, _, _, closed⟩ := watch_rest 1 s
    have mine : 1 = 0 ∨ 1 = 1 := .inr rfl
    refine ⟨{ s.watch 1 with takeWaiter := some 1 },
      .inr ⟨.parkTake 1, ⟨?_, fun some_ => ?_⟩, if_pos ?_⟩, ?_⟩
    · rintro _ (⟨⟨⟩⟩ | ⟨⟨⟩⟩)
      exact mine
    · refine ⟨fun _ _ => ?_, by simp⟩
      rw [h.tracks.put, alone some_]
      rfl
    · refine ⟨h.tracks.closed.trans opened, ?_, of_decide_eq_true active⟩
      rw [h.tracks.take, free]
      rfl
    · refine ⟨rfl, put.trans h.tracks.put, closed.trans h.tracks.closed, ?_, ?_⟩
      · change q.producerJob = (s.watch 1).jobOf 0
        rw [h.two.jobOf_watch mine, h.tracks.producer]
        simp [jobOf]
      · change { q.consumerJob with watched := true } = (s.watch 1).jobOf 1
        rw [h.two.jobOf_watch mine, consumer]
        simp

/-- The slots follow an `offer`. -/
lemma offer (h : Slotted c q s) (free : q.putWaiter = none) :
    ∃ s', Follows c s s' ∧ Tracks (q.offer x) s' := by
  unfold ReactorQueue.offer
  split
  case isTrue => exact h.rests ⟨rfl, rfl, rfl⟩ rfl rfl
  case isFalse opened =>
    split
    case h_1 k held => exact h.takes held ⟨rfl, rfl, rfl⟩ rfl rfl
    case h_2 alone =>
      split
      case isTrue => exact h.rests ⟨rfl, rfl, rfl⟩ rfl rfl
      case isFalse => exact h.parkPut (Bool.eq_false_iff.mpr opened) free alone

/-- The slots follow a `receive`. -/
lemma receive (h : Slotted c q s) (free : q.takeWaiter = none) :
    ∃ s', Follows c s s' ∧ Tracks q.receive s' := by
  obtain ⟨l, contents⟩ := h.contents
  unfold ReactorQueue.receive
  split
  case h_1 y items _ =>
    have same := wakeSender_same (.value ()) { q with items }
    exact h.puts ⟨same.closed, same.producer, same.consumer⟩
      ReactorQueue.wakeSender_takeWaiter ReactorQueue.wakeSender_free
  case h_2 items removed =>
    split
    case isTrue => exact h.rests ⟨rfl, rfl, rfl⟩ rfl rfl
    case isFalse opened =>
      refine h.parkTake (Bool.eq_false_iff.mpr opened) free fun some_ => ?_
      -- the queue is empty and not full, so nobody waits to send
      cases l with
      | cons y rest =>
        obtain ⟨_, first, _⟩ := contents.holds.removeFirst_cons
        rw [first] at removed
        cases removed
      | nil =>
        by_contra waits
        have full := contents.full waits
        rw [List.length_nil] at full
        omega

/-- The slots follow a `close`. -/
lemma close (h : Slotted c q s) : ∃ s', Follows c s s' ∧ Tracks q.close s' := by
  obtain ⟨l, contents⟩ := h.contents
  refine ⟨s.close, .inr ⟨.close, TwoSided.idle (by simp) (by simp), rfl⟩, ?_⟩
  unfold ReactorQueue.close Watches.close
  rw [h.tracks.closed]
  split
  case isTrue => exact h.tracks
  case isFalse =>
    -- a parked receiver means an empty queue, so it is resumed
    have taken : ({ q with closed := true }.closeTake).takeWaiter = none ∧
        SameJobs { q with closed := true } ({ q with closed := true }.closeTake) := by
      unfold ReactorQueue.closeTake
      split
      case h_1 k held =>
        have parked : q.takeWaiter ≠ none := by
          change q.takeWaiter = some k at held
          simp [held]
        have size : q.items.size = 0 := by
          rw [contents.holds.size, contents.empty parked, List.length_nil]
        rw [if_pos size]
        exact ⟨rfl, rfl, rfl, rfl⟩
      case h_2 free => exact ⟨free, rfl, rfl, rfl⟩
    have same := wakeSender_same .closed ({ q with closed := true }.closeTake)
    refine ⟨?_, ?_, ?_, ?_, ?_⟩
    · dsimp only
      rw [ReactorQueue.wakeSender_takeWaiter, taken.1]
      rfl
    · dsimp only
      rw [ReactorQueue.wakeSender_free]
      rfl
    · exact (same.closed.trans taken.2.closed).symm
    · dsimp only
      rw [same.producer, taken.2.producer]
      dsimp only
      rw [h.tracks.producer]
      simp [jobOf, Watched]
    · dsimp only
      rw [same.consumer, taken.2.consumer]
      dsimp only
      rw [h.tracks.consumer]
      simp [jobOf, Watched]

/-- The slots follow a cancellation. -/
lemma cancel {side : Side} (h : Slotted c q s) (st : q.cancel side = some q') :
    ∃ s', Follows c s s' ∧ Tracks q' s' := by
  have producer := h.tracks.producer
  have consumer := h.tracks.consumer
  cases side with
  | producer =>
    obtain ⟨active, ⟨⟩⟩ := Option.ite_none_right_eq_some.mp st
    rw [producer] at active
    refine ⟨s.cancel 0,
      .inr ⟨.cancel 0, TwoSided.idle (by simp) (by simp), if_pos (of_decide_eq_true active)⟩,
      h.tracks.take, h.tracks.put, h.tracks.closed, ?_, ?_⟩
    · rw [jobOf_cancel, if_pos rfl, ← producer]
    · rw [jobOf_cancel, if_neg (by decide), ← consumer]
  | consumer =>
    obtain ⟨active, ⟨⟩⟩ := Option.ite_none_right_eq_some.mp st
    rw [consumer] at active
    refine ⟨s.cancel 1,
      .inr ⟨.cancel 1, TwoSided.idle (by simp) (by simp), if_pos (of_decide_eq_true active)⟩,
      h.tracks.take, h.tracks.put, h.tracks.closed, ?_, ?_⟩
    · rw [jobOf_cancel, if_neg (by decide), ← producer]
    · rw [jobOf_cancel, if_pos rfl, ← consumer]

/-- The slots follow an `onCancelled`. -/
lemma onCancelled {side : Side} (h : Slotted c q s) (st : q.onCancelled side = some q') :
    ∃ s', Follows c s s' ∧ Tracks q' s' := by
  have producer := h.tracks.producer
  have consumer := h.tracks.consumer
  have take := h.tracks.take
  have put := h.tracks.put
  cases side with
  | producer =>
    obtain ⟨dispatched, ⟨⟩⟩ := Option.ite_none_right_eq_some.mp st
    rw [producer] at dispatched
    have same := wakeSender_same .cancelled
      { q with producerJob := { q.producerJob with dispatched := false } }
    refine ⟨s.onCancelled 0,
      .inr ⟨.onCancelled 0, TwoSided.idle (by simp) (by simp), if_pos (of_decide_eq_true dispatched)⟩,
      ?_, ?_, h.tracks.closed.trans same.closed.symm, ?_, ?_⟩
    · rw [ReactorQueue.wakeSender_takeWaiter]
      exact waiter_other take (by decide)
    · rw [ReactorQueue.wakeSender_free]
      exact waiter_own put
    · rw [same.producer, h.told.jobOf_onCancelled, if_pos rfl, ← producer]
    · rw [same.consumer, h.told.jobOf_onCancelled, if_neg (by decide), ← consumer]
  | consumer =>
    obtain ⟨dispatched, eq⟩ := Option.ite_none_right_eq_some.mp st
    rw [consumer] at dispatched
    -- the receiver is resumed if it is parked, and in either case its slot is free
    have woken : q'.takeWaiter = none ∧ q'.putWaiter = q.putWaiter ∧ q'.closed = q.closed ∧
        q'.producerJob = q.producerJob ∧
        q'.consumerJob = { q.consumerJob with dispatched := false } := by
      dsimp only at eq
      split at eq
      case h_1 free =>
        cases eq
        exact ⟨free, rfl, rfl, rfl, rfl⟩
      case h_2 =>
        cases eq
        exact ⟨rfl, rfl, rfl, rfl, rfl⟩
    obtain ⟨free, putSame, closed, producerSame, consumerTold⟩ := woken
    refine ⟨s.onCancelled 1,
      .inr ⟨.onCancelled 1, TwoSided.idle (by simp) (by simp), if_pos (of_decide_eq_true dispatched)⟩,
      ?_, ?_, h.tracks.closed.trans closed.symm, ?_, ?_⟩
    · rw [free]
      exact waiter_own take
    · rw [putSame]
      exact waiter_other put (by decide)
    · rw [producerSame, h.told.jobOf_onCancelled, if_neg (by decide), ← producer]
    · rw [consumerTold, h.told.jobOf_onCancelled, if_pos rfl, ← consumer]

/-- The slots follow a coroutine that runs. -/
lemma run {side : Side} (h : Slotted c q s) (st : q.run side = some q') :
    ∃ s', Follows c s s' ∧ Tracks q' s' := by
  unfold ReactorQueue.run at st
  split at st
  case h_1 =>
    split at st
    case h_1 x sender _ =>
      cases st
      exact h.offer (h.slots.free (by simp [sender]))
    case h_2 | h_3 =>
      cases st
      exact h.rests ⟨rfl, rfl, rfl⟩ rfl rfl
    case h_4 => cases st
  case h_2 =>
    split at st
    case h_1 | h_2 | h_3 =>
      cases st
      exact h.rests ⟨rfl, rfl, rfl⟩ rfl rfl
    case h_4 => cases st

/-- The slots follow every step of the queue. -/
lemma step {e : QueueEvent α} (h : Slotted c q s) (st : q.step e = some q') :
    ∃ s', Follows c s s' ∧ Tracks q' s' := by
  cases e with
  | send x =>
    obtain ⟨outside, rfl⟩ := ReactorQueue.step_send st
    exact h.offer (h.slots.free (by simp [outside]))
  | receive =>
    obtain ⟨outside, rfl⟩ := ReactorQueue.step_receive st
    exact h.receive (h.slots.idle (by simp [outside]))
  | close =>
    cases st
    exact h.close
  | cancel side => exact h.cancel st
  | onCancelled side => exact h.onCancelled st
  | run side => exact h.run st

end Slotted

/-- The `watched` flags of a queue with one producer and one consumer are what its two slots say: every
run of the queue is a run of the slots in which only these two jobs park and, if the queue holds an
element or more, never both at once. -/
theorem slots_behind_flags
    (run : Runs.Reach ReactorQueue.step Runs.always (ReactorQueue.new c) q) :
    ∃ s, Runs.Reach step (TwoSided c) {} s ∧ Tracks q s := by
  suffices both : ∃ s, Runs.Reach step (TwoSided c) {} s ∧
      TwoJobs 0 1 s ∧ Told s ∧ Tracks q s by
    obtain ⟨s, reach, _, _, tracks⟩ := both
    exact ⟨s, reach, tracks⟩
  -- on the run of the queue; what the slots keep by themselves is carried along, what the queue keeps
  -- is known of every state it reaches
  induction run with
  | start =>
    exact ⟨{}, .start, TwoJobs.unwatched rfl rfl, ⟨List.nodup_nil, by simp⟩, rfl, rfl, rfl, rfl, rfl⟩
  | next before _ fires ih =>
    obtain ⟨s, reach, two, told, tracks⟩ := ih
    obtain ⟨slots, contents⟩ := ReactorQueue.Contents.of_reach before
    have slotted : Slotted c _ s := ⟨two, told, tracks, slots, contents⟩
    obtain ⟨s', follows, tracks'⟩ := slotted.step fires
    rcases follows with rfl | ⟨e', allowed, st⟩
    · exact ⟨s', reach, two, told, tracks'⟩
    · exact ⟨s', .next reach allowed st, two.step allowed.1 st, told.step st, tracks'⟩

/-- A parked producer is in its slot. -/
theorem slots_behind_flags_parked : ∃ (q : ReactorQueue Nat) (s : Watches),
    q.producerJob = ⟨true, true, false⟩ ∧ Runs.Reach step (TwoSided 1) {} s ∧ s.putWaiter = some 0 ∧
    s.takeWaiter = none ∧ s.Watched 0 := by
  have run : ((Runs.exec ReactorQueue.step (ReactorQueue.new 1) [.send 1, .send 2]).map fun q =>
      decide (q.producerJob = ⟨true, true, false⟩ ∧ q.putWaiter.map (fun _ => 0) = some 0 ∧
        q.takeWaiter = none)) = some true := by decide
  obtain ⟨q, exec, facts⟩ := Option.map_eq_some_iff.mp run
  obtain ⟨flags, put, take⟩ := of_decide_eq_true facts
  obtain ⟨s, reach, tracks⟩ := slots_behind_flags (Runs.reach_always_of_exec exec)
  have watched : decide (s.Watched 0) = true :=
    congrArg QueueJob.watched (tracks.producer.symm.trans flags)
  refine ⟨q, s, flags, reach, tracks.put.trans put, ?_, of_decide_eq_true watched⟩
  rw [tracks.take, take]
  rfl

end Queue

end Watches

end MsgTrans
