import MsgTrans.Lib.Runs
import MsgTrans.Transport.Ring

/-!
# The reactor queue

Model of `ReactorQueue` (`msgtrans/transport/ReactorQueue.kt`) with its one producer and one consumer
coroutine. One step is what the reactor does between two suspensions. A coroutine inside `send` or
`receive` is parked with the continuation that is in the queue's slot, or has been resumed and has not
run yet. A resume is not undone by a later cancellation: the coroutines are resumed atomically.

Cancelling a job only clears its `active` flag and, if the queue watches the job, dispatches
`onCancelled` to the reactor, which is a later step. The reactor is taken to accept every resume, so
`onRefused` is left out. The histories `sent`, `thrown`, `received` and `resumes` are read by no
operation.
-/

namespace MsgTrans

/-- The two coroutines of a queue. -/
inductive Side where
  | producer
  | consumer
deriving DecidableEq, Repr

/-- What a coroutine parked in the queue is resumed with. -/
inductive QueueResume (β : Type) where
  | value (b : β)
  | closed
  | cancelled
deriving DecidableEq, Repr

/-- Where a coroutine is: outside the queue, parked in it, or resumed and not run yet. -/
inductive QueuePc (β : Type) where
  | outside
  | parked
  | resumed (r : QueueResume β)
deriving DecidableEq, Repr

/-- A coroutine's job, as the queue sees it: whether it is active, whether the queue watches it, and
whether an `onCancelled` for it is on its way to the reactor. -/
structure QueueJob where
  active : Bool := true
  watched : Bool := false
  dispatched : Bool := false
deriving DecidableEq, Repr

/-- The queue with its producer and its consumer. `takeWaiter` is set exactly while the consumer is
parked and `putWaiter` exactly while the producer is; each names the park it belongs to. -/
structure ReactorQueue (α : Type) where
  capacity : Int
  items : Ring α
  closed : Bool := false
  takeWaiter : Option Nat := none
  putWaiter : Option Nat := none
  parks : Nat := 0
  sender : QueuePc Unit := .outside
  item : Option α := none
  receiver : QueuePc (Option α) := .outside
  producerJob : QueueJob := {}
  consumerJob : QueueJob := {}
  sent : List α := []
  thrown : List α := []
  received : List (Option α) := []
  resumes : List Nat := []

/-- What the reactor does in one step. -/
inductive QueueEvent (α : Type) where
  | send (x : α)
  | receive
  | close
  | cancel (side : Side)
  | onCancelled (side : Side)
  | run (side : Side)

namespace ReactorQueue

variable {α : Type}

/-- A new queue (Kotlin `ReactorQueue(capacity, owner)`). -/
def new (capacity : Int) : ReactorQueue α where
  capacity := capacity
  items := .new (min capacity 16)

/-- Kotlin `resumeTake` of the parked receiver `k`, which has been taken out of its slot. -/
def resumeTake (k : Nat) (r : QueueResume (Option α)) (q : ReactorQueue α) : ReactorQueue α :=
  { q with takeWaiter := none, receiver := .resumed r, resumes := k :: q.resumes }

/-- Kotlin `resumePut` of the parked sender `k`, which has been taken out of its slot. -/
def resumePut (k : Nat) (r : QueueResume Unit) (q : ReactorQueue α) : ReactorQueue α :=
  { q with putWaiter := none, sender := .resumed r, resumes := k :: q.resumes }

/-- `send` returns: its item has been handed over or appended. -/
def sendDone (x : α) (q : ReactorQueue α) : ReactorQueue α :=
  { q with sender := .outside, item := none, sent := q.sent ++ [x] }

/-- `send` throws. -/
def sendThrows (x : α) (q : ReactorQueue α) : ReactorQueue α :=
  { q with sender := .outside, item := none, thrown := q.thrown ++ [x] }

/-- Kotlin `parkPut`: the check of `watch`, then the suspension; a cancelled job throws. -/
def parkPut (x : α) (q : ReactorQueue α) : ReactorQueue α :=
  if q.producerJob.active then
    { q with
      producerJob := { q.producerJob with watched := true }
      putWaiter := some q.parks, parks := q.parks + 1, sender := .parked, item := some x }
  else q.sendThrows x

/-- One turn of `send` or of the loop of `sendSlow`: `offer`, and `parkPut` if it is refused. -/
def offer (x : α) (q : ReactorQueue α) : ReactorQueue α :=
  if q.closed then q.sendThrows x
  else match q.takeWaiter with
    | some k => (q.resumeTake k (.value (some x))).sendDone x
    | none =>
      if (q.items.size : Int) < q.capacity then { q with items := q.items.addLast x }.sendDone x
      else q.parkPut x

/-- `receive` returns. -/
def receiveDone (x : Option α) (q : ReactorQueue α) : ReactorQueue α :=
  { q with receiver := .outside, received := q.received ++ [x] }

/-- Kotlin `parkTake`. -/
def parkTake (q : ReactorQueue α) : ReactorQueue α :=
  if q.consumerJob.active then
    { q with
      consumerJob := { q.consumerJob with watched := true }
      takeWaiter := some q.parks, parks := q.parks + 1, receiver := .parked }
  else { q with receiver := .outside }

/-- `putWaiter?.let { putWaiter = null; resumePut(it) }`. -/
def wakeSender (r : QueueResume Unit) (q : ReactorQueue α) : ReactorQueue α :=
  match q.putWaiter with
  | none => q
  | some k => q.resumePut k r

/-- Kotlin `receive`. -/
def receive (q : ReactorQueue α) : ReactorQueue α :=
  match q.items.removeFirstOrNull with
  | (some x, items) => ({ q with items }.wakeSender (.value ())).receiveDone (some x)
  | (none, _) => if q.closed then q.receiveDone none else q.parkTake

/-- The first part of `close`: a parked receiver of a drained queue gets `null`. -/
def closeTake (q : ReactorQueue α) : ReactorQueue α :=
  match q.takeWaiter with
  | some k => if q.items.size = 0 then q.resumeTake k (.value none) else q
  | none => q

/-- Kotlin `close`. -/
def close (q : ReactorQueue α) : ReactorQueue α :=
  if q.closed then q
  else
    let q := ({ q with closed := true }.closeTake).wakeSender .closed
    { q with
      producerJob := { q.producerJob with watched := false }
      consumerJob := { q.consumerJob with watched := false } }

/-- The job of a coroutine is cancelled: its handler, if it has one, dispatches `onCancelled`. -/
def QueueJob.cancel (job : QueueJob) : QueueJob :=
  { job with active := false, dispatched := job.dispatched || job.watched }

/-- Cancellation of one coroutine's job. -/
def cancel (side : Side) (q : ReactorQueue α) : Option (ReactorQueue α) :=
  match side with
  | .producer =>
    if q.producerJob.active then some { q with producerJob := QueueJob.cancel q.producerJob } else none
  | .consumer =>
    if q.consumerJob.active then some { q with consumerJob := QueueJob.cancel q.consumerJob } else none

/-- Kotlin `onCancelled`, dispatched by the handler of one coroutine's job. -/
def onCancelled (side : Side) (q : ReactorQueue α) : Option (ReactorQueue α) :=
  match side with
  | .producer =>
    if q.producerJob.dispatched then
      some ({ q with producerJob := { q.producerJob with dispatched := false } }.wakeSender .cancelled)
    else none
  | .consumer =>
    if q.consumerJob.dispatched then
      let q := { q with consumerJob := { q.consumerJob with dispatched := false } }
      match q.takeWaiter with
      | none => some q
      | some k => some (q.resumeTake k .cancelled)
    else none

/-- A resumed coroutine runs. -/
def run (side : Side) (q : ReactorQueue α) : Option (ReactorQueue α) :=
  match side with
  | .producer =>
    match q.sender, q.item with
    | .resumed (.value ()), some x => some (q.offer x)
    | .resumed .closed, some x | .resumed .cancelled, some x => some (q.sendThrows x)
    | _, _ => none
  | .consumer =>
    match q.receiver with
    | .resumed (.value x) => some (q.receiveDone x)
    | .resumed .closed | .resumed .cancelled => some { q with receiver := .outside }
    | _ => none

/-- One step; `none` when the event cannot happen in this state. -/
def step (q : ReactorQueue α) : QueueEvent α → Option (ReactorQueue α)
  | .send x => if q.sender matches .outside then some (q.offer x) else none
  | .receive => if q.receiver matches .outside then some q.receive else none
  | .close => some q.close
  | .cancel side => q.cancel side
  | .onCancelled side => q.onCancelled side
  | .run side => q.run side

/-! ## Waiter slots -/

variable {q q' : ReactorQueue α} {l : List α} {x : α} {k : Nat}

/-- A `send` starts outside the queue and is an `offer`. -/
lemma step_send (fires : q.step (.send x) = some q') : q.sender = .outside ∧ q' = q.offer x := by
  obtain ⟨outside, eq⟩ := Option.ite_none_right_eq_some.mp fires
  cases eq
  refine ⟨?_, rfl⟩
  cases pc : q.sender with
  | outside => rfl
  | parked => simp [pc] at outside
  | resumed r => simp [pc] at outside

/-- A `receive` starts outside the queue. -/
lemma step_receive (fires : q.step .receive = some q') : q.receiver = .outside ∧ q' = q.receive := by
  obtain ⟨outside, eq⟩ := Option.ite_none_right_eq_some.mp fires
  cases eq
  refine ⟨?_, rfl⟩
  cases pc : q.receiver with
  | outside => rfl
  | parked => simp [pc] at outside
  | resumed r => simp [pc] at outside

/-- A cancellation changes a job and nothing of the queue itself. -/
lemma step_cancel {side : Side} (fires : q.step (.cancel side) = some q') :
    (∃ job, { q with producerJob := job } = q') ∨ (∃ job, { q with consumerJob := job } = q') := by
  cases side with
  | producer => exact .inl ⟨_, Option.some.inj (Option.ite_none_right_eq_some.mp fires).2⟩
  | consumer => exact .inr ⟨_, Option.some.inj (Option.ite_none_right_eq_some.mp fires).2⟩

/-- The two slots hold the continuations of the parked coroutines, none of which has been resumed, and
every park is resumed at most once. -/
structure Slots (q : ReactorQueue α) : Prop where
  take : ∀ k, q.takeWaiter = some k →
    q.receiver = .parked ∧ k < q.parks ∧ k ∉ q.resumes ∧ q.putWaiter ≠ some k
  put : ∀ k, q.putWaiter = some k → q.sender = .parked ∧ k < q.parks ∧ k ∉ q.resumes
  taking : q.receiver = .parked → q.takeWaiter ≠ none
  putting : q.sender = .parked → q.putWaiter ≠ none
  once : q.resumes.Nodup
  past : ∀ k ∈ q.resumes, k < q.parks

/-- After a wake-up the producer's slot is free. -/
lemma wakeSender_free {r : QueueResume Unit} : (q.wakeSender r).putWaiter = none := by
  unfold wakeSender
  split
  case h_1 free => exact free
  case h_2 => rfl

/-- Waking the producer leaves the consumer where it is. -/
lemma wakeSender_receiver {r : QueueResume Unit} : (q.wakeSender r).receiver = q.receiver := by
  unfold wakeSender
  split <;> rfl

/-- Waking the producer leaves the consumer's slot alone. -/
lemma wakeSender_takeWaiter {r : QueueResume Unit} : (q.wakeSender r).takeWaiter = q.takeWaiter := by
  unfold wakeSender
  split <;> rfl

/-- Waking the producer does not look at the ring. -/
lemma wakeSender_items {r : QueueResume Unit} {items : Ring α} :
    { q with items }.wakeSender r = { q.wakeSender r with items } := by
  unfold wakeSender
  dsimp only
  split <;> simp_all [resumePut]

namespace Slots

/-- In a new queue both slots are free. -/
lemma new (capacity : Int) : (ReactorQueue.new capacity : ReactorQueue α).Slots where
  take k held := by cases held
  put k held := by cases held
  taking parked := by cases parked
  putting parked := by cases parked
  once := List.nodup_nil
  past k mem := by cases mem

/-- Resuming the consumer frees its slot. -/
lemma resumeTake {r : QueueResume (Option α)} (h : q.Slots) (held : q.takeWaiter = some k) :
    (q.resumeTake k r).Slots := by
  obtain ⟨_, lt, new, apart⟩ := h.take k held
  exact {
    take := fun k' held => by cases held
    put := fun k' held' => by
      obtain ⟨parked, lt', new'⟩ := h.put k' held'
      refine ⟨parked, lt', ?_⟩
      rintro (_ | ⟨_, mem⟩)
      · exact apart held'
      · exact new' mem
    taking := fun parked => by cases parked
    putting := h.putting
    once := List.nodup_cons.mpr ⟨new, h.once⟩
    past := fun k' mem => (List.mem_cons.mp mem).elim (fun eq => eq ▸ lt) (h.past k') }

/-- Resuming the producer frees its slot. -/
lemma resumePut {r : QueueResume Unit} (h : q.Slots) (held : q.putWaiter = some k) :
    (q.resumePut k r).Slots := by
  obtain ⟨_, lt, new⟩ := h.put k held
  exact {
    take := fun k' held' => by
      obtain ⟨parked, lt', new', apart⟩ := h.take k' held'
      refine ⟨parked, lt', ?_, by simp [ReactorQueue.resumePut]⟩
      rintro (_ | ⟨_, mem⟩)
      · exact apart held
      · exact new' mem
    put := fun k' held => by cases held
    taking := h.taking
    putting := fun parked => by cases parked
    once := List.nodup_cons.mpr ⟨new, h.once⟩
    past := fun k' mem => (List.mem_cons.mp mem).elim (fun eq => eq ▸ lt) (h.past k') }

/-- Waking the producer, if it is parked. -/
lemma wakeSender {r : QueueResume Unit} (h : q.Slots) : (q.wakeSender r).Slots := by
  unfold ReactorQueue.wakeSender
  split
  case h_1 => exact h
  case h_2 k held => exact h.resumePut held

/-- Only a parked receiver is in its slot. -/
lemma idle (h : q.Slots) (running : q.receiver ≠ .parked) : q.takeWaiter = none := by
  by_contra held
  obtain ⟨k, held⟩ := Option.ne_none_iff_exists'.mp held
  exact running (h.take k held).1

/-- Only a parked sender is in its slot. -/
lemma free (h : q.Slots) (running : q.sender ≠ .parked) : q.putWaiter = none := by
  by_contra held
  obtain ⟨k, held⟩ := Option.ne_none_iff_exists'.mp held
  exact running (h.put k held).1

/-- The sender leaves the queue. -/
lemma senderLeaves {item : Option α} {sent thrown : List α} (h : q.Slots)
    (free : q.putWaiter = none) : Slots { q with sender := .outside, item, sent, thrown } :=
  { h with
    put := fun k held => by simp [free] at held
    putting := fun parked => by cases parked }

/-- The receiver leaves the queue. -/
lemma receiverLeaves {received : List (Option α)} (h : q.Slots) (free : q.takeWaiter = none) :
    Slots { q with receiver := .outside, received := received } :=
  { h with
    take := fun k held => by simp [free] at held
    taking := fun parked => by cases parked }

/-- The producer parks. -/
lemma parkPut (h : q.Slots) (free : q.putWaiter = none) : (q.parkPut x).Slots := by
  unfold ReactorQueue.parkPut
  split
  case isTrue =>
    exact {
      take := fun k held => by
        obtain ⟨parked, lt, new, _⟩ := h.take k held
        refine ⟨parked, Nat.lt_succ_of_lt lt, new, fun eq => ?_⟩
        cases eq
        omega
      put := fun k held => by
        cases held
        exact ⟨rfl, Nat.lt_succ_self _, fun mem => Nat.lt_irrefl _ (h.past _ mem)⟩
      taking := h.taking
      putting := fun _ none => by cases none
      once := h.once
      past := fun k mem => Nat.lt_succ_of_lt (h.past k mem) }
  case isFalse => exact h.senderLeaves free

/-- The consumer parks. -/
lemma parkTake (h : q.Slots) (free : q.takeWaiter = none) : q.parkTake.Slots := by
  unfold ReactorQueue.parkTake
  split
  case isTrue =>
    exact {
      take := fun k held => by
        cases held
        refine ⟨rfl, Nat.lt_succ_self _, fun mem => Nat.lt_irrefl _ (h.past _ mem), fun held => ?_⟩
        exact Nat.lt_irrefl _ (h.put _ held).2.1
      put := fun k held => by
        obtain ⟨parked, lt, new⟩ := h.put k held
        exact ⟨parked, Nat.lt_succ_of_lt lt, new⟩
      taking := fun _ none => by cases none
      putting := h.putting
      once := h.once
      past := fun k mem => Nat.lt_succ_of_lt (h.past k mem) }
  case isFalse => exact h.receiverLeaves free

/-- A `send` throws. -/
lemma sendThrows (h : q.Slots) (free : q.putWaiter = none) : (q.sendThrows x).Slots :=
  h.senderLeaves free

/-- `offer` hands over, stores, parks or throws. -/
lemma offer (h : q.Slots) (free : q.putWaiter = none) : (q.offer x).Slots := by
  unfold ReactorQueue.offer
  split
  case isTrue => exact h.sendThrows free
  case isFalse =>
    split
    case h_1 k held => exact (h.resumeTake held).senderLeaves free
    case h_2 =>
      split
      case isTrue => exact senderLeaves { h with } free
      case isFalse => exact h.parkPut free

/-- `receive` takes an item, returns null or parks. -/
lemma receive (h : q.Slots) (outside : q.receiver = .outside) : q.receive.Slots := by
  have idle := h.idle (by simp [outside])
  unfold ReactorQueue.receive
  split
  case h_1 x items _ =>
    rw [wakeSender_items]
    exact receiverLeaves { h.wakeSender (r := .value ()) with } (wakeSender_takeWaiter.trans idle)
  case h_2 =>
    split
    case isTrue => exact h.receiverLeaves idle
    case isFalse => exact h.parkTake idle

/-- `close` resumes a parked consumer. -/
lemma closeTake (h : q.Slots) : ({ q with closed := true }.closeTake).Slots := by
  unfold ReactorQueue.closeTake
  split
  case h_1 k held =>
    split
    case isTrue => exact resumeTake { h with } held
    case isFalse => exact { h with }
  case h_2 => exact { h with }

/-- `close` resumes both sides. -/
lemma close (h : q.Slots) : q.close.Slots := by
  unfold ReactorQueue.close
  split
  case isTrue => exact h
  case isFalse => exact { h.closeTake.wakeSender (r := .closed) with }

/-- A cancellation reaches a parked coroutine. -/
lemma onCancelled {side : Side} (h : q.Slots) (fires : q.onCancelled side = some q') : q'.Slots := by
  cases side with
  | producer =>
    obtain ⟨_, fires⟩ := Option.ite_none_right_eq_some.mp fires
    cases fires
    exact wakeSender { h with }
  | consumer =>
    obtain ⟨_, fires⟩ := Option.ite_none_right_eq_some.mp fires
    dsimp only at fires
    split at fires
    case h_1 =>
      cases fires
      exact { h with }
    case h_2 k held =>
      cases fires
      exact resumeTake { h with } held

/-- A resumed coroutine runs. -/
lemma run {side : Side} (h : q.Slots) (fires : q.run side = some q') : q'.Slots := by
  cases side with
  | producer =>
    unfold ReactorQueue.run at fires
    dsimp only at fires
    split at fires
    case h_1 resumed _ =>
      cases fires
      exact h.offer (h.free (by simp [resumed]))
    case h_2 resumed _ | h_3 resumed _ =>
      cases fires
      exact h.sendThrows (h.free (by simp [resumed]))
    case h_4 => cases fires
  | consumer =>
    unfold ReactorQueue.run at fires
    dsimp only at fires
    split at fires
    case h_1 resumed | h_2 resumed | h_3 resumed =>
      cases fires
      exact h.receiverLeaves (h.idle (by simp [resumed]))
    case h_4 => cases fires

/-- What one step preserves. -/
lemma step {e : QueueEvent α} (h : q.Slots) (fires : q.step e = some q') : q'.Slots := by
  cases e with
  | send x =>
    obtain ⟨outside, rfl⟩ := step_send fires
    exact h.offer (h.free (by simp [outside]))
  | receive =>
    obtain ⟨outside, rfl⟩ := step_receive fires
    exact h.receive outside
  | close =>
    cases fires
    exact h.close
  | cancel side =>
    obtain ⟨job, rfl⟩ | ⟨job, rfl⟩ := step_cancel fires
    all_goals exact { h with }
  | onCancelled side => exact h.onCancelled fires
  | run side => exact h.run fires

end Slots

/-! ## Contents -/

/-- The items that `receive` has returned. -/
def returned (q : ReactorQueue α) : List α := q.received.filterMap id

/-- A returned item is the last one returned. -/
lemma returned_receiveDone (q : ReactorQueue α) (x : α) :
    (q.receiveDone (some x)).returned = q.returned ++ [x] := by
  simp [returned, receiveDone]

/-- What was returned is read off the history of `receive`. -/
lemma returned_of_received {q q' : ReactorQueue α} (same : q'.received = q.received) :
    q'.returned = q.returned := by
  rw [returned, same, returned]

/-- The item handed to a resumed receiver that has not run yet. -/
def handed (q : ReactorQueue α) : List α :=
  match q.receiver with
  | .resumed (.value (some x)) => [x]
  | _ => []

/-- What is sent is what has been returned, then what is handed over, then the ring `l`; who is parked
says whether the ring is empty or full; and `null` is returned only when the queue is closed and
drained. -/
structure Contents (q : ReactorQueue α) (c : Int) (l : List α) : Prop where
  capacity : q.capacity = c
  holds : q.items.Holds l
  fifo : q.returned ++ (q.handed ++ l) = q.sent
  bound : 0 ≤ c → (l.length : Int) ≤ c
  empty : q.takeWaiter ≠ none → l = []
  full : q.putWaiter ≠ none → c ≤ l.length
  shut : q.closed → q.takeWaiter = none
  nulls : ∃ n, q.received = q.returned.map some ++ List.replicate n none ∧
    (n ≠ 0 → q.closed ∧ q.handed = [] ∧ l = [])
  ending : q.receiver = .resumed (.value none) → q.closed ∧ l = []
  item : q.sender ≠ .outside → q.item ≠ none

namespace Contents

variable {c : Int}

/-- A new queue is empty. -/
lemma new (c : Int) : (ReactorQueue.new c : ReactorQueue α).Contents c [] where
  capacity := rfl
  holds := .new _
  fifo := rfl
  bound nonneg := nonneg
  empty _ := rfl
  full held := absurd rfl held
  shut closed := by cases closed
  nulls := ⟨0, rfl, fun ne => absurd rfl ne⟩
  ending ends := by cases ends
  item inside := absurd rfl inside

/-- Before the end nothing but items has been received. -/
lemma received_eq (h : q.Contents c l) (going : ¬ (q.closed ∧ q.handed = [] ∧ l = [])) :
    q.received = q.returned.map some := by
  obtain ⟨n, eq, ends⟩ := h.nulls
  have zero : n = 0 := by
    by_contra ne
    exact going (ends ne)
  simpa [zero] using eq

/-- The sender leaves without adding anything. -/
lemma sendThrows (h : q.Contents c l) : (q.sendThrows x).Contents c l :=
  { h with item := fun inside => absurd rfl inside }

/-- A parked sender is resumed. -/
lemma wakeSender {r : QueueResume Unit} (h : q.Contents c l) (slots : q.Slots) :
    (q.wakeSender r).Contents c l := by
  unfold ReactorQueue.wakeSender
  split
  case h_1 => exact h
  case h_2 k held =>
    have inside : q.sender ≠ .outside := by rw [(slots.put k held).1]; simp
    exact { h with
      full := fun held => absurd rfl held
      item := fun _ => h.item inside }

/-- A parked receiver is resumed without an item. -/
lemma resumeTake {r : QueueResume (Option α)} (h : q.Contents c l) (slots : q.Slots)
    (held : q.takeWaiter = some k) (noItem : ∀ x, r ≠ .value (some x))
    (ends : r = .value none → q.closed) : (q.resumeTake k r).Contents c l := by
  have before : q.handed = [] := by rw [handed, (slots.take k held).1]
  have after : (q.resumeTake k r).handed = [] := by
    unfold handed ReactorQueue.resumeTake
    dsimp only
    split
    case h_1 x eq => cases eq; exact absurd rfl (noItem x)
    case h_2 => rfl
  have drained : l = [] := h.empty (by simp [held])
  obtain ⟨n, received, closing⟩ := h.nulls
  exact { h with
    fifo := by
      rw [after, ← before]
      exact h.fifo
    empty := fun held => absurd rfl held
    shut := fun _ => rfl
    nulls := ⟨n, received, fun ne => ⟨(closing ne).1, after, drained⟩⟩
    ending := fun eq => by
      cases eq
      exact ⟨ends rfl, drained⟩ }

/-- `send` and the loop of `sendSlow`. -/
lemma offer (h : q.Contents c l) (slots : q.Slots) (free : q.putWaiter = none) :
    ∃ l', (q.offer x).Contents c l' := by
  unfold ReactorQueue.offer
  split
  case isTrue => exact ⟨l, h.sendThrows⟩
  case isFalse opened =>
    have received := h.received_eq fun closing => opened closing.1
    split
    case h_1 k held =>
      -- a receiver is parked, so the ring is empty and the item is handed over
      obtain rfl := h.empty (by simp [held])
      have before : q.handed = [] := by rw [handed, (slots.take k held).1]
      have fifo := h.fifo
      rw [before] at fifo
      refine ⟨[], { h with
        fifo := ?_, empty := fun _ => rfl, shut := ?_, nulls := ?_, ending := ?_, item := ?_ }⟩
      · change q.returned ++ ([x] ++ []) = q.sent ++ [x]
        rw [← fifo]
        simp
      · exact fun closed => absurd closed opened
      · exact ⟨0, received.trans (List.append_nil _).symm, fun ne => absurd rfl ne⟩
      · exact fun eq => by cases eq
      · exact fun inside => absurd rfl inside
    case h_2 idle =>
      split
      case isTrue room =>
        rw [h.holds.size, h.capacity] at room
        refine ⟨l ++ [x], { h with
          holds := h.holds.addLast, fifo := ?_, bound := ?_, empty := ?_, full := ?_, nulls := ?_,
          ending := ?_, item := ?_ }⟩
        · change q.returned ++ (q.handed ++ (l ++ [x])) = q.sent ++ [x]
          rw [← h.fifo]
          simp
        · intro _
          rw [List.length_append, List.length_singleton]
          omega
        · exact fun held => absurd idle held
        · exact fun held => absurd free held
        · exact ⟨0, received.trans (List.append_nil _).symm, fun ne => absurd rfl ne⟩
        · exact fun eq => absurd (h.ending eq).1 opened
        · exact fun inside => absurd rfl inside
      case isFalse noRoom =>
        rw [h.holds.size, h.capacity] at noRoom
        unfold ReactorQueue.parkPut
        split
        case isTrue =>
          exact ⟨l, { h with
            full := fun _ => Int.not_lt.mp noRoom
            shut := fun closed => absurd closed opened
            item := fun _ none => by cases none }⟩
        case isFalse => exact ⟨l, h.sendThrows⟩

/-- With nothing handed over, what was returned and what is stored is what was sent. -/
lemma fifo_none (h : q.Contents c l) (noneHanded : q.handed = []) : q.returned ++ ([] ++ l) = q.sent :=
  noneHanded ▸ h.fifo

/-- The receiver returns the item that it was handed. -/
lemma takeHanded (h : q.Contents c l) (slots : q.Slots)
    (resumed : q.receiver = .resumed (.value (some x))) : (q.receiveDone (some x)).Contents c l := by
  have first : q.handed = [x] := by rw [handed, resumed]
  have received := h.received_eq fun closing => by simp [first] at closing
  have returned := q.returned_receiveDone x
  have free := slots.idle (by simp [resumed])
  exact { h with
    fifo := by
      rw [returned, List.append_assoc, ← first]
      exact h.fifo
    empty := fun held => absurd free held
    nulls := ⟨0, by
      rw [returned, List.replicate_zero, List.append_nil, List.map_append, ← received]
      rfl, fun ne => absurd rfl ne⟩
    ending := fun eq => by cases eq }

/-- The receiver returns the first item of the ring. -/
lemma takeFirst {r : Ring α} (h : q.Contents c (x :: l)) (slots : q.Slots)
    (outside : q.receiver = .outside) (free : q.putWaiter = none) (holds : r.Holds l) :
    ({ q with items := r }.receiveDone (some x)).Contents c l := by
  have noneHanded : q.handed = [] := by rw [handed, outside]
  have received := h.received_eq fun closing => by simp at closing
  have returned : ({ q with items := r }.receiveDone (some x)).returned = q.returned ++ [x] :=
    q.returned_receiveDone x
  have idle := slots.idle (by simp [outside])
  exact { h with
    holds := holds
    fifo := by
      rw [returned, List.append_assoc]
      exact h.fifo_none noneHanded
    bound := fun nonneg => by
      have bound := h.bound nonneg
      rw [List.length_cons] at bound
      omega
    empty := fun held => absurd idle held
    full := fun held => absurd free held
    nulls := ⟨0, by
      rw [returned, List.replicate_zero, List.append_nil, List.map_append, ← received]
      rfl, fun ne => absurd rfl ne⟩
    ending := fun eq => by cases eq }

/-- The receiver of a closed and drained queue returns `null`. -/
lemma receiveDone_none (h : q.Contents c []) (noneHanded : q.handed = []) (closed : q.closed) :
    (q.receiveDone none).Contents c [] := by
  obtain ⟨n, received, _⟩ := h.nulls
  have returned : (q.receiveDone none).returned = q.returned := by
    simp [returned, receiveDone]
  exact { h with
    fifo := by
      rw [returned]
      exact h.fifo_none noneHanded
    nulls := ⟨n + 1, by
      rw [returned, List.replicate_succ', ← List.append_assoc, ← received]
      rfl, fun _ => ⟨closed, rfl, rfl⟩⟩
    ending := fun eq => by cases eq }

/-- The receiver leaves without an item. -/
lemma receiveThrows (h : q.Contents c l) (noneHanded : q.handed = []) :
    Contents { q with receiver := .outside } c l := by
  obtain ⟨n, received, closing⟩ := h.nulls
  exact { h with
    fifo := h.fifo_none noneHanded
    nulls := ⟨n, received, fun ne => ⟨(closing ne).1, rfl, (closing ne).2.2⟩⟩
    ending := fun eq => by cases eq }

/-- The consumer parks at an empty queue. -/
lemma parkTake (h : q.Contents c []) (noneHanded : q.handed = []) (opened : ¬ q.closed) :
    q.parkTake.Contents c [] := by
  unfold ReactorQueue.parkTake
  split
  case isTrue =>
    obtain ⟨n, received, closing⟩ := h.nulls
    exact { h with
      fifo := h.fifo_none noneHanded
      empty := fun _ => rfl
      shut := fun closed => absurd closed opened
      nulls := ⟨n, received, fun ne => ⟨(closing ne).1, rfl, rfl⟩⟩
      ending := fun eq => by cases eq }
  case isFalse => exact h.receiveThrows noneHanded

/-- `receive` keeps the order of the items. -/
lemma receive (h : q.Contents c l) (slots : q.Slots) (outside : q.receiver = .outside) :
    ∃ l', q.receive.Contents c l' := by
  have noneHanded : q.handed = [] := by rw [handed, outside]
  unfold ReactorQueue.receive
  cases l with
  | nil =>
    rw [h.holds.removeFirst_nil]
    dsimp only
    split
    case isTrue closed => exact ⟨[], h.receiveDone_none noneHanded closed⟩
    case isFalse opened => exact ⟨[], h.parkTake noneHanded opened⟩
  | cons y l =>
    obtain ⟨r, removed, holds⟩ := h.holds.removeFirst_cons
    rw [removed]
    dsimp only
    rw [wakeSender_items]
    have outside' : (q.wakeSender (.value ())).receiver = .outside := by
      rw [wakeSender_receiver, outside]
    exact ⟨l, (h.wakeSender slots).takeFirst slots.wakeSender outside' wakeSender_free holds⟩

/-- `close` keeps the items that are stored. -/
lemma closeTake (h : q.Contents c l) (slots : q.Slots) :
    ({ q with closed := true }.closeTake).Contents c l := by
  obtain ⟨n, received, closing⟩ := h.nulls
  unfold ReactorQueue.closeTake
  split
  case h_1 k held =>
    obtain rfl := h.empty (by simp [show q.takeWaiter = some k from held])
    have noneHanded : q.handed = [] := by rw [handed, (slots.take k held).1]
    have drained : q.items.size = 0 := h.holds.size
    rw [if_pos drained]
    exact { h with
      fifo := h.fifo_none noneHanded
      empty := fun held => absurd rfl held
      shut := fun _ => rfl
      nulls := ⟨n, received, fun ne => ⟨rfl, rfl, rfl⟩⟩
      ending := fun _ => ⟨rfl, rfl⟩ }
  case h_2 idle =>
    exact { h with
      shut := fun _ => idle
      nulls := ⟨n, received, fun ne => ⟨rfl, (closing ne).2⟩⟩
      ending := fun eq => ⟨rfl, (h.ending eq).2⟩ }

/-- `close` loses nothing and duplicates nothing. -/
lemma close (h : q.Contents c l) (slots : q.Slots) : q.close.Contents c l := by
  unfold ReactorQueue.close
  split
  case isTrue => exact h
  case isFalse opened =>
    have closed := (h.closeTake slots).wakeSender (r := .closed) slots.closeTake
    exact { closed with }

/-- A cancellation loses no item that was sent. -/
lemma onCancelled {side : Side} (h : q.Contents c l) (slots : q.Slots)
    (fires : q.onCancelled side = some q') : q'.Contents c l := by
  cases side with
  | producer =>
    obtain ⟨_, fires⟩ := Option.ite_none_right_eq_some.mp fires
    cases fires
    exact wakeSender { h with } { slots with }
  | consumer =>
    obtain ⟨_, fires⟩ := Option.ite_none_right_eq_some.mp fires
    dsimp only at fires
    split at fires
    case h_1 =>
      cases fires
      exact { h with }
    case h_2 k held =>
      cases fires
      exact resumeTake { h with } { slots with } held (fun _ eq => by cases eq) (fun eq => by cases eq)

/-- A coroutine that runs keeps the order of the items. -/
lemma run {side : Side} (h : q.Contents c l) (slots : q.Slots) (fires : q.run side = some q') :
    ∃ l', q'.Contents c l' := by
  cases side with
  | producer =>
    unfold ReactorQueue.run at fires
    dsimp only at fires
    split at fires
    case h_1 resumed _ =>
      cases fires
      exact h.offer slots (slots.free (by simp [resumed]))
    case h_2 | h_3 =>
      cases fires
      exact ⟨l, h.sendThrows⟩
    case h_4 => cases fires
  | consumer =>
    unfold ReactorQueue.run at fires
    dsimp only at fires
    split at fires
    case h_1 x resumed =>
      cases fires
      cases x with
      | some x => exact ⟨l, h.takeHanded slots resumed⟩
      | none =>
        obtain ⟨closed, rfl⟩ := h.ending resumed
        exact ⟨[], h.receiveDone_none (by rw [handed, resumed]) closed⟩
    case h_2 resumed | h_3 resumed =>
      cases fires
      exact ⟨l, h.receiveThrows (by rw [handed, resumed])⟩
    case h_4 => cases fires

/-- What one step preserves. -/
lemma step {e : QueueEvent α} (h : q.Contents c l) (slots : q.Slots) (fires : q.step e = some q') :
    ∃ l', q'.Contents c l' := by
  cases e with
  | send x =>
    obtain ⟨outside, rfl⟩ := step_send fires
    exact h.offer slots (slots.free (by simp [outside]))
  | receive =>
    obtain ⟨outside, rfl⟩ := step_receive fires
    exact h.receive slots outside
  | close =>
    cases fires
    exact ⟨l, h.close slots⟩
  | cancel side =>
    obtain ⟨job, rfl⟩ | ⟨job, rfl⟩ := step_cancel fires
    all_goals exact ⟨l, { h with }⟩
  | onCancelled side => exact ⟨l, h.onCancelled slots fires⟩
  | run side => exact h.run slots fires

/-- Every reachable queue has its contents in order. -/
lemma of_reach (reach : Runs.Reach ReactorQueue.step Runs.always (ReactorQueue.new c) q) :
    q.Slots ∧ ∃ l, q.Contents c l := by
  apply reach.invariant ⟨.new c, [], .new c⟩
  rintro q e q' ⟨slots, l, h⟩ _ fires
  exact ⟨slots.step fires, h.step slots fires⟩

end Contents

/-! ## Sends that throw, and the closed queue -/

/-- Waking the producer sends nothing. -/
lemma wakeSender_sent {r : QueueResume Unit} : (q.wakeSender r).sent = q.sent := by
  unfold wakeSender
  split <;> rfl

/-- Waking the producer throws nothing. -/
lemma wakeSender_thrown {r : QueueResume Unit} : (q.wakeSender r).thrown = q.thrown := by
  unfold wakeSender
  split <;> rfl

/-- Waking the producer closes nothing. -/
lemma wakeSender_closed {r : QueueResume Unit} : (q.wakeSender r).closed = q.closed := by
  unfold wakeSender
  split <;> rfl

/-- Waking the producer returns nothing to the consumer. -/
lemma wakeSender_received {r : QueueResume Unit} : (q.wakeSender r).received = q.received := by
  unfold wakeSender
  split <;> rfl

/-- One turn of `send` throws and changes nothing else, or it does not throw. -/
lemma offer_cases : q.offer x = q.sendThrows x ∨ (q.offer x).thrown = q.thrown ∧ ¬ q.closed := by
  unfold offer
  split
  case isTrue => exact .inl rfl
  case isFalse opened =>
    split
    case h_1 => exact .inr ⟨rfl, opened⟩
    case h_2 =>
      split
      case isTrue => exact .inr ⟨rfl, opened⟩
      case isFalse =>
        unfold parkPut
        split
        case isTrue => exact .inr ⟨rfl, opened⟩
        case isFalse => exact .inl rfl

/-- `receive` sends nothing, throws nothing away and closes nothing. -/
lemma receive_histories : q.receive.thrown = q.thrown ∧ q.receive.closed = q.closed ∧
    q.receive.sent = q.sent := by
  unfold receive
  split
  case h_1 => exact ⟨wakeSender_thrown, wakeSender_closed, wakeSender_sent⟩
  case h_2 =>
    unfold parkTake
    split
    case isTrue => exact ⟨rfl, rfl, rfl⟩
    case isFalse => split <;> exact ⟨rfl, rfl, rfl⟩

/-- `close` does not throw items away. -/
lemma close_thrown : q.close.thrown = q.thrown := by
  unfold close closeTake
  split
  case isTrue => rfl
  case isFalse =>
    refine wakeSender_thrown.trans ?_
    split
    case h_1 => split <;> rfl
    case h_2 => rfl

/-- A step is a `send` that throws and changes nothing else, or no `send` throws in it. A closed
queue stays closed and takes no item. -/
lemma step_cases {e : QueueEvent α} (fires : q.step e = some q') :
    (∃ x, q' = q.sendThrows x) ∨
      q'.thrown = q.thrown ∧ (q.closed → q'.closed ∧ q'.sent = q.sent) := by
  have offered (x : α) : (∃ y, q.offer x = q.sendThrows y) ∨
      (q.offer x).thrown = q.thrown ∧ (q.closed → (q.offer x).closed ∧ (q.offer x).sent = q.sent) := by
    obtain throws | ⟨same, opened⟩ := q.offer_cases (x := x)
    · exact .inl ⟨x, throws⟩
    · exact .inr ⟨same, fun closed => absurd closed opened⟩
  cases e with
  | send x =>
    obtain ⟨_, rfl⟩ := step_send fires
    exact offered x
  | receive =>
    obtain ⟨_, rfl⟩ := step_receive fires
    obtain ⟨thrown, shut, sent⟩ := q.receive_histories
    exact .inr ⟨thrown, fun closed => ⟨shut.trans closed, sent⟩⟩
  | close =>
    cases fires
    refine .inr ⟨close_thrown, fun closed => ?_⟩
    rw [close, if_pos closed]
    exact ⟨closed, rfl⟩
  | cancel side =>
    obtain ⟨job, rfl⟩ | ⟨job, rfl⟩ := step_cancel fires
    all_goals exact .inr ⟨rfl, fun closed => ⟨closed, rfl⟩⟩
  | onCancelled side =>
    right
    cases side with
    | producer =>
      obtain ⟨_, fires⟩ := Option.ite_none_right_eq_some.mp fires
      cases fires
      exact ⟨wakeSender_thrown, fun closed => ⟨wakeSender_closed.trans closed, wakeSender_sent⟩⟩
    | consumer =>
      obtain ⟨_, fires⟩ := Option.ite_none_right_eq_some.mp fires
      dsimp only at fires
      split at fires <;> cases fires <;> exact ⟨rfl, fun closed => ⟨closed, rfl⟩⟩
  | run side =>
    cases side with
    | producer =>
      simp only [step, run] at fires
      split at fires
      case h_1 x _ _ =>
        cases fires
        exact offered x
      -- the queue was closed, or the sender cancelled, while it was parked
      case h_2 x _ _ | h_3 x _ _ =>
        cases fires
        exact .inl ⟨x, rfl⟩
      case h_4 => cases fires
    | consumer =>
      right
      simp only [step, run] at fires
      split at fires <;> cases fires <;> exact ⟨rfl, fun closed => ⟨closed, rfl⟩⟩

/-- An item is thrown only by the `send` it was given to. -/
lemma step_throws {e : QueueEvent α} (fires : q.step e = some q') (throws : q'.thrown ≠ q.thrown) :
    ∃ x, q' = q.sendThrows x :=
  (step_cases fires).resolve_right fun other => throws other.1

/-- A closed queue stays closed and takes nothing in. -/
lemma step_closed {e : QueueEvent α} (fires : q.step e = some q') (closed : q.closed) :
    q'.closed ∧ q'.sent = q.sent := by
  obtain ⟨x, rfl⟩ | ⟨_, shut⟩ := step_cases fires
  · exact ⟨closed, rfl⟩
  · exact shut closed

/-- `receive` on a closed queue returns the first item of the ring, or `null` if it has none. -/
lemma Contents.receive_closed {c : Int} (h : q.Contents c l) (closed : q.closed) :
    q.receive.received = q.received ++ [l.head?] ∧ q.receive.items.toList = l.tail := by
  unfold ReactorQueue.receive
  cases l with
  | nil =>
    rw [h.holds.removeFirst_nil]
    dsimp only
    rw [if_pos closed]
    exact ⟨rfl, h.holds.toList⟩
  | cons x l =>
    obtain ⟨r, removed, holds⟩ := h.holds.removeFirst_cons
    rw [removed]
    dsimp only
    rw [wakeSender_items]
    exact ⟨congrArg (· ++ [some x]) wakeSender_received, holds.toList⟩

/-! ## Histories -/

/-- One turn of `send` appends the item to what has been sent, keeps it, or throws it away. -/
lemma offer_histories :
    ((q.offer x).sent ++ (q.offer x).item.toList).Sublist (q.sent ++ [x]) ∧
    (q.offer x).received = q.received := by
  have throws : ((q.sendThrows x).sent ++ (q.sendThrows x).item.toList).Sublist (q.sent ++ [x]) := by
    simp [sendThrows]
  unfold offer
  split
  case isTrue => exact ⟨throws, rfl⟩
  case isFalse =>
    split
    case h_1 => exact ⟨by simp [sendDone, resumeTake], rfl⟩
    case h_2 =>
      split
      case isTrue => exact ⟨by simp [sendDone], rfl⟩
      case isFalse =>
        unfold parkPut
        split
        case isTrue => exact ⟨by simp, rfl⟩
        case isFalse => exact ⟨throws, rfl⟩

/-- Waking the producer leaves the item of its `send` alone. -/
lemma wakeSender_item {r : QueueResume Unit} : (q.wakeSender r).item = q.item := by
  unfold wakeSender
  split <;> rfl

/-- A `receive` returns at most one item or `null`. -/
lemma receive_received : q.receive.item = q.item ∧
    (q.receive.received = q.received ∨
      q.receive.receiver = .outside ∧ ∃ y, q.receive.received = q.received ++ [y]) := by
  unfold receive
  split
  case h_1 x items _ =>
    refine ⟨wakeSender_item, .inr ⟨rfl, some x, ?_⟩⟩
    exact congrArg (· ++ [some x]) wakeSender_received
  case h_2 =>
    split
    case isTrue => exact ⟨rfl, .inr ⟨rfl, none, rfl⟩⟩
    case isFalse =>
      unfold parkTake
      split <;> exact ⟨rfl, .inl rfl⟩

/-- `close` is no matter of the histories. -/
lemma close_histories : q.close.sent = q.sent ∧ q.close.item = q.item ∧
    q.close.received = q.received := by
  have taken : ({ q with closed := true }.closeTake).sent = q.sent ∧
      ({ q with closed := true }.closeTake).item = q.item ∧
      ({ q with closed := true }.closeTake).received = q.received := by
    unfold closeTake
    split
    case h_1 => split <;> exact ⟨rfl, rfl, rfl⟩
    case h_2 => exact ⟨rfl, rfl, rfl⟩
  unfold close
  split
  case isTrue => exact ⟨rfl, rfl, rfl⟩
  case isFalse =>
    exact ⟨wakeSender_sent.trans taken.1, wakeSender_item.trans taken.2.1,
      wakeSender_received.trans taken.2.2⟩

/-- A step other than `send` offers nothing new, and returns at most one item or `null`. -/
lemma step_histories {e : QueueEvent α} (fires : q.step e = some q') (other : ∀ x, e ≠ .send x) :
    (q'.sent ++ q'.item.toList).Sublist (q.sent ++ q.item.toList) ∧
      (q'.received = q.received ∨ (e = .receive ∨ e = .run .consumer) ∧ q'.receiver = .outside ∧
        ∃ y, q'.received = q.received ++ [y]) := by
  cases e with
  | send x => exact absurd rfl (other x)
  | receive =>
    obtain ⟨_, rfl⟩ := step_receive fires
    obtain ⟨item, received⟩ := q.receive_received
    rw [q.receive_histories.2.2, item]
    exact ⟨List.Sublist.refl _, received.imp_right fun some => ⟨.inl rfl, some⟩⟩
  | close =>
    cases fires
    obtain ⟨sent, item, received⟩ := q.close_histories
    rw [sent, item]
    exact ⟨List.Sublist.refl _, .inl received⟩
  | cancel side =>
    obtain ⟨job, rfl⟩ | ⟨job, rfl⟩ := step_cancel fires
    all_goals exact ⟨List.Sublist.refl _, .inl rfl⟩
  | onCancelled side =>
    cases side with
    | producer =>
      obtain ⟨_, fires⟩ := Option.ite_none_right_eq_some.mp fires
      cases fires
      rw [wakeSender_sent, wakeSender_item]
      exact ⟨List.Sublist.refl _, .inl wakeSender_received⟩
    | consumer =>
      obtain ⟨_, fires⟩ := Option.ite_none_right_eq_some.mp fires
      dsimp only at fires
      split at fires <;> cases fires <;> exact ⟨List.Sublist.refl _, .inl rfl⟩
  | run side =>
    cases side with
    | producer =>
      simp only [step, run] at fires
      split at fires
      case h_1 x _ item =>
        cases fires
        obtain ⟨offered, received⟩ := q.offer_histories (x := x)
        rw [item]
        exact ⟨offered, .inl received⟩
      case h_2 x _ item | h_3 x _ item =>
        cases fires
        exact ⟨by simp [sendThrows], .inl rfl⟩
      case h_4 => cases fires
    | consumer =>
      simp only [step, run] at fires
      split at fires
      case h_1 x _ =>
        cases fires
        exact ⟨List.Sublist.refl _, .inr ⟨.inr rfl, rfl, x, rfl⟩⟩
      case h_2 | h_3 =>
        cases fires
        exact ⟨List.Sublist.refl _, .inl rfl⟩
      case h_4 => cases fires

/-- What a turn of `send` does with its item: sends it, parks with it, or throws it away. -/
inductive Offered (x : α) (q q' : ReactorQueue α) : Prop where
  | done : q'.sent = q.sent ++ [x] → q'.item = none → q'.thrown = q.thrown →
    q'.sender = .outside → Offered x q q'
  | parked : q'.sent = q.sent → q'.item = some x → q'.thrown = q.thrown →
    q'.sender ≠ .outside → Offered x q q'
  | throws : q'.sent = q.sent → q'.item = none → q'.thrown = q.thrown ++ [x] →
    q'.sender = .outside → Offered x q q'

/-- What `offer` does with its item. -/
lemma offer_offered : Offered x q (q.offer x) := by
  have throws : Offered x q (q.sendThrows x) := .throws rfl rfl rfl rfl
  unfold offer
  split
  case isTrue => exact throws
  case isFalse =>
    split
    case h_1 => exact .done rfl rfl rfl rfl
    case h_2 =>
      split
      case isTrue => exact .done rfl rfl rfl rfl
      case isFalse =>
        unfold parkPut
        split
        case isTrue => exact .parked rfl rfl rfl (by simp)
        case isFalse => exact throws

/-- A resumed `send` has an item, and takes another turn or throws. -/
lemma step_run_offered (fires : q.step (.run .producer) = some q') :
    ∃ x, q.item = some x ∧ Offered x q q' := by
  simp only [step, run] at fires
  split at fires
  case h_1 x _ item =>
    cases fires
    exact ⟨x, item, offer_offered⟩
  case h_2 x _ item | h_3 x _ item =>
    cases fires
    exact ⟨x, item, .throws rfl rfl rfl rfl⟩
  case h_4 => cases fires

/-- The producer's side of the queue is as it was. -/
structure SameSend (q q' : ReactorQueue α) : Prop where
  sent : q'.sent = q.sent
  item : q'.item = q.item
  thrown : q'.thrown = q.thrown

/-- Nothing has happened to the producer. -/
lemma SameSend.refl (q : ReactorQueue α) : SameSend q q := ⟨rfl, rfl, rfl⟩

/-- Steps that do not concern the producer compose. -/
lemma SameSend.trans {q'' : ReactorQueue α} (h : SameSend q q') (h' : SameSend q' q'') :
    SameSend q q'' :=
  ⟨h'.sent.trans h.sent, h'.item.trans h.item, h'.thrown.trans h.thrown⟩

/-- Only `send` and the run of the producer move the producer's side. -/
lemma step_sameSend {e : QueueEvent α} (fires : q.step e = some q') (other : ∀ x, e ≠ .send x)
    (rests : e ≠ .run .producer) : SameSend q q' := by
  cases e with
  | send x => exact absurd rfl (other x)
  | receive =>
    obtain ⟨_, rfl⟩ := step_receive fires
    exact ⟨q.receive_histories.2.2, q.receive_received.1, q.receive_histories.1⟩
  | close =>
    cases fires
    exact ⟨q.close_histories.1, q.close_histories.2.1, close_thrown⟩
  | cancel side =>
    obtain ⟨job, rfl⟩ | ⟨job, rfl⟩ := step_cancel fires
    all_goals exact ⟨rfl, rfl, rfl⟩
  | onCancelled side =>
    cases side with
    | producer =>
      obtain ⟨_, fires⟩ := Option.ite_none_right_eq_some.mp fires
      cases fires
      exact ⟨wakeSender_sent, wakeSender_item, wakeSender_thrown⟩
    | consumer =>
      obtain ⟨_, fires⟩ := Option.ite_none_right_eq_some.mp fires
      dsimp only at fires
      split at fires <;> cases fires <;> exact ⟨rfl, rfl, rfl⟩
  | run side =>
    cases side with
    | producer => exact absurd rfl rests
    | consumer =>
      simp only [step, run] at fires
      split at fires <;> cases fires <;> exact ⟨rfl, rfl, rfl⟩

/-! ## Main results -/

/-- The queue is a bounded FIFO that neither loses nor duplicates. -/
theorem bounded_fifo {capacity : Int} (nonneg : 0 ≤ capacity)
    (reach : Runs.Reach step Runs.always (new capacity) q) :
    q.returned ++ (q.handed ++ q.items.toList) = q.sent ∧
    (q.items.size : Int) ≤ capacity ∧
    (q.receiver = .parked → q.items.size = 0) ∧
    (q.sender = .parked → q.items.size = capacity) ∧
    (∀ e q', q.step e = some q' → q'.thrown ≠ q.thrown →
      q'.items = q.items ∧ q'.handed = q.handed ∧ q'.received = q.received ∧ q'.sent = q.sent) ∧
    (∃ n, q.received = q.returned.map some ++ List.replicate n none ∧
      (n ≠ 0 → q.closed ∧ q.handed = [] ∧ q.items.size = 0)) ∧
    (q.closed → q.receiver ≠ .parked ∧
      (q.receiver = .outside → ∃ q', q.step .receive = some q' ∧
        q'.received = q.received ++ [q.items.toList.head?] ∧ q'.items.toList = q.items.toList.tail) ∧
      ∀ q', Runs.Reach step Runs.always q q' → q'.closed ∧ q'.sent = q.sent) ∧
    q.resumes.Nodup := by
  obtain ⟨slots, l, h⟩ := Contents.of_reach reach
  rw [h.holds.toList, h.holds.size]
  refine ⟨h.fifo, h.bound nonneg, ?_, ?_, ?_, ?_, ?_, slots.once⟩
  · intro parked
    rw [h.empty (slots.taking parked), List.length_nil]
  · intro parked
    have full := h.full (slots.putting parked)
    have bound := h.bound nonneg
    omega
  · intro e q' fires throws
    obtain ⟨x, rfl⟩ := step_throws fires throws
    exact ⟨rfl, rfl, rfl, rfl⟩
  · obtain ⟨n, received, closing⟩ := h.nulls
    refine ⟨n, received, fun ne => ?_⟩
    obtain ⟨closed, noneHanded, rfl⟩ := closing ne
    exact ⟨closed, noneHanded, rfl⟩
  · intro closed
    refine ⟨fun parked => slots.taking parked (h.shut closed), fun outside => ?_, fun q' later => ?_⟩
    · exact ⟨q.receive, by simp [step, outside], h.receive_closed closed⟩
    · apply later.invariant ⟨closed, rfl⟩
      rintro r e r' ⟨closed, same⟩ _ fires
      obtain ⟨closed', same'⟩ := step_closed fires closed
      exact ⟨closed', same'.trans same⟩

/-- With capacity one, an item handed to the receiver, one in the ring and a parked sender. -/
theorem bounded_fifo_one : ∃ q : ReactorQueue Nat, Runs.Reach step Runs.always (new 1) q ∧
    q.handed = [1] ∧ q.items.toList = [2] ∧ q.sender = .parked ∧
    q.returned ++ (q.handed ++ q.items.toList) = q.sent := by
  have run : (Runs.exec step (new 1) [.receive, .send 1, .send 2, .send 3]).map
      (fun q => (q.handed, q.items.toList, q.sender)) = some ([1], [2], .parked) := by decide
  obtain ⟨q, exec, eq⟩ := Option.map_eq_some_iff.mp run
  simp only [Prod.mk.injEq] at eq
  have reach := Runs.reach_always_of_exec exec
  exact ⟨q, reach, eq.1, eq.2.1, eq.2.2, (bounded_fifo (by decide) reach).1⟩

/-- With room for an item, the producer and the consumer do not wait for each other. -/
theorem not_both_parked {capacity : Int} (room : 1 ≤ capacity)
    (reach : Runs.Reach step Runs.always (new capacity) q) :
    ¬ (q.sender = .parked ∧ q.receiver = .parked) := by
  rintro ⟨sending, receiving⟩
  obtain ⟨slots, l, h⟩ := Contents.of_reach reach
  obtain rfl := h.empty (slots.taking receiving)
  have full := h.full (slots.putting sending)
  rw [List.length_nil] at full
  omega

/-- With capacity one, a producer that waits for room. -/
theorem not_both_parked_one : ∃ q : ReactorQueue Nat, Runs.Reach step Runs.always (new 1) q ∧
    q.sender = .parked ∧ ¬ (q.sender = .parked ∧ q.receiver = .parked) := by
  have run : (Runs.exec step (new 1) [.send 1, .send 2]).map
      (fun q => q.sender) = some .parked := by decide
  obtain ⟨q, exec, parked⟩ := Option.map_eq_some_iff.mp run
  have reach := Runs.reach_always_of_exec exec
  exact ⟨q, reach, parked, not_both_parked (by decide) reach⟩

/-- A queue without room parks the producer, and `receive` does not look at its slot. -/
theorem both_parked_without_room : ∃ q : ReactorQueue Nat,
    Runs.Reach step Runs.always (new 0) q ∧ q.closed = false ∧
    q.sender = .parked ∧ q.receiver = .parked := by
  have run : (Runs.exec step (new 0) [.send 1, .receive]).map
      (fun q => (q.closed, q.sender, q.receiver)) = some (false, .parked, .parked) := by decide
  obtain ⟨q, exec, eq⟩ := Option.map_eq_some_iff.mp run
  simp only [Prod.mk.injEq] at eq
  exact ⟨q, Runs.reach_always_of_exec exec, eq⟩

end ReactorQueue

end MsgTrans
