import Mathlib.Data.List.Perm.Basic

/-!
# Unbounded channels

A channel with an unbounded buffer whose receivers wait in line. An element that is sent while somebody
waits is handed to the first in line and reaches that receiver when it runs; a receiver that is cancelled
before drops it. A closed channel takes no more elements, turns away those who wait and still gives out
what it holds.

Calls of `receive` and `tryReceive` are numbered. `given` is a history: who has been given what.
-/

/-- The state of a channel; `returned` are the elements that have reached their receivers. -/
structure Handoff (α : Type*) where
  buffer : List α := []
  waiting : List Nat := []
  handed : List (Nat × α) := []
  returned : List (Nat × α) := []
  closed : Bool := false
  calls : Nat := 0
  given : List (Nat × α) := []
deriving DecidableEq, Repr

namespace Handoff

variable {α : Type*} {c c' : Handoff α} {x : α} {sent : List α}

/-- To the first in line, or into the buffer; `none` is the failure of a closed channel. -/
def trySend (x : α) (c : Handoff α) : Option (Handoff α) :=
  if c.closed then none
  else
    match c.waiting with
    | [] => some { c with buffer := c.buffer ++ [x] }
    | n :: rest =>
      some { c with waiting := rest, handed := c.handed ++ [(n, x)], given := c.given ++ [(n, x)] }

/-- The first of the buffer. -/
def tryReceive (c : Handoff α) : Option (α × Handoff α) :=
  match c.buffer with
  | [] => none
  | x :: rest =>
    some (x, { c with buffer := rest, calls := c.calls + 1, given := c.given ++ [(c.calls, x)] })

/-- The first of the buffer at once, or a place in line; a closed channel turns the call away. -/
def receive (c : Handoff α) : Handoff α :=
  match c.tryReceive with
  | some (x, c') => { c' with returned := c'.returned ++ [(c.calls, x)] }
  | none =>
    if c.closed then { c with calls := c.calls + 1 }
    else { c with calls := c.calls + 1, waiting := c.waiting ++ [c.calls] }

/-- A receiver runs with what it was handed. -/
def resume [DecidableEq α] (p : Nat × α) (c : Handoff α) : Handoff α :=
  { c with handed := c.handed.erase p, returned := c.returned ++ [p] }

/-- A receiver was cancelled after it was handed an element. -/
def drop [DecidableEq α] (p : Nat × α) (c : Handoff α) : Handoff α :=
  { c with handed := c.handed.erase p }

/-- A receiver was cancelled in line. -/
def leave (n : Nat) (c : Handoff α) : Handoff α := { c with waiting := c.waiting.erase n }

def close (c : Handoff α) : Handoff α := { c with closed := true, waiting := [] }

/-- Only an open channel takes an element. -/
lemma trySend_open (sends : c.trySend x = some c') : c.closed = false := by
  unfold trySend at sends
  split at sends
  case isTrue => cases sends
  case isFalse opened => exact Bool.eq_false_iff.mpr opened

/-- An open channel with nothing to receive is empty. -/
lemma tryReceive_none (none_ : c.tryReceive = none) : c.buffer = [] := by
  unfold tryReceive at none_
  split at none_
  case h_1 empty => exact empty
  case h_2 => cases none_

/-- The first element of the buffer is received. -/
lemma tryReceive_some (takes : c.tryReceive = some (x, c')) :
    c.buffer = x :: c'.buffer ∧ c'.closed = c.closed := by
  unfold tryReceive at takes
  split at takes
  case h_1 => cases takes
  case h_2 buffer =>
    cases takes
    exact ⟨buffer, rfl⟩

/-- `receive` does not close. -/
lemma receive_closed (c : Handoff α) : c.receive.closed = c.closed := by
  unfold receive
  split
  case h_1 takes => exact (tryReceive_some takes).2
  case h_2 => split <;> rfl

/-- `receive` on an empty channel takes nothing. -/
lemma receive_empty (empty : c.buffer = []) : c.receive.buffer = [] := by
  unfold receive
  split
  case h_1 takes =>
    have buffer := (tryReceive_some takes).1
    rw [empty] at buffer
    cases buffer
  case h_2 => split <;> exact empty

/-! ## What a channel holds -/

/-- The elements in the buffer, on their way, and with their receivers. -/
def elements (c : Handoff α) : List α :=
  c.buffer ++ c.handed.map Prod.snd ++ c.returned.map Prod.snd

/-- What is sent is held. -/
lemma trySend_elements (sends : c.trySend x = some c') : c'.elements.Perm (x :: c.elements) := by
  unfold trySend at sends
  split at sends
  case isTrue => cases sends
  case isFalse =>
    split at sends
    case h_1 =>
      cases sends
      simp only [elements, List.append_assoc]
      exact List.perm_middle
    case h_2 =>
      cases sends
      simp only [elements, List.map_append, List.map_cons, List.map_nil, List.append_assoc,
        List.singleton_append]
      rw [← List.append_assoc, ← List.append_assoc]
      exact List.perm_middle

/-- What is received was held. -/
lemma tryReceive_elements (takes : c.tryReceive = some (x, c')) : c.elements = x :: c'.elements := by
  unfold tryReceive at takes
  split at takes
  case h_1 => cases takes
  case h_2 buffer =>
    cases takes
    simp [elements, buffer]

/-- `receive` moves an element to a receiver and loses none. -/
lemma receive_elements (c : Handoff α) : c.receive.elements.Perm c.elements := by
  unfold receive
  split
  case h_1 x c' takes =>
    rw [tryReceive_elements takes]
    simp only [elements, List.map_append, List.map_cons, List.map_nil, ← List.append_assoc]
    exact List.perm_append_singleton _ _
  case h_2 => split <;> exact .refl _

section Decidable

variable [DecidableEq α] {p : Nat × α}

/-- A dropped element is held no more. -/
lemma drop_elements (mem : p ∈ c.handed) : c.elements.Perm (p.2 :: (c.drop p).elements) := by
  have taken : (c.handed.map Prod.snd).Perm (p.2 :: (c.handed.erase p).map Prod.snd) :=
    (List.perm_cons_erase mem).map Prod.snd
  simp only [elements, drop, List.append_assoc]
  exact ((taken.append_right _).append_left _).trans List.perm_middle

/-- A receiver that resumes has its element. -/
lemma resume_elements (mem : p ∈ c.handed) : (c.resume p).elements.Perm c.elements := by
  refine List.Perm.trans ?_ (drop_elements mem).symm
  simp only [elements, resume, drop, List.map_append, List.map_cons, List.map_nil, ← List.append_assoc]
  exact List.perm_append_singleton _ _

end Decidable

/-! ## Order -/

/-- The elements of `sent` are given out in their order, to the calls in theirs. Nobody waits while there
is something in the buffer or the channel is closed. -/
structure InLine (sent : List α) (c : Handoff α) : Prop where
  fifo : sent = c.given.map Prod.snd ++ c.buffer
  calls : (c.given.map Prod.fst ++ c.waiting).Pairwise (· < ·)
  made : ∀ n ∈ c.given.map Prod.fst ++ c.waiting, n < c.calls
  idle : c.waiting ≠ [] → c.buffer = []
  shut : c.closed = true → c.waiting = []

namespace InLine

/-- A new channel. -/
lemma new : InLine [] ({} : Handoff α) where
  fifo := rfl
  calls := .nil
  made _ mem := by cases mem
  idle waits := absurd rfl waits
  shut _ := rfl

/-- An element that is sent comes last. -/
lemma trySend (h : InLine sent c) (sends : c.trySend x = some c') : InLine (sent ++ [x]) c' := by
  unfold Handoff.trySend at sends
  split at sends
  case isTrue => cases sends
  case isFalse opened =>
    split at sends
    case h_1 nobody =>
      cases sends
      refine ⟨?_, h.calls, h.made, fun waits => absurd nobody waits, h.shut⟩
      rw [h.fifo, List.append_assoc]
    case h_2 n rest line =>
      cases sends
      have empty := h.idle (by simp [line])
      have moved : (c.given ++ [(n, x)]).map Prod.fst ++ rest = c.given.map Prod.fst ++ c.waiting := by
        simp [line]
      refine ⟨?_, ?_, ?_, fun _ => empty, fun closed => absurd closed opened⟩
      · simp [h.fifo, empty]
      · rw [moved]
        exact h.calls
      · rw [moved]
        exact h.made

/-- An element that is received came first. -/
lemma tryReceive (h : InLine sent c) (takes : c.tryReceive = some (x, c')) : InLine sent c' := by
  unfold Handoff.tryReceive at takes
  split at takes
  case h_1 => cases takes
  case h_2 rest buffer =>
    cases takes
    have nobody : c.waiting = [] := by
      by_contra waits
      have empty := h.idle waits
      simp [buffer] at empty
    have calls := h.calls
    have made := h.made
    rw [nobody, List.append_nil] at calls made
    refine ⟨by simp [h.fifo, buffer], ?_, ?_, fun waits => absurd nobody waits, fun _ => nobody⟩
    · simp only [nobody, List.append_nil, List.map_append, List.map_cons, List.map_nil]
      refine List.pairwise_append.mpr ⟨calls, List.pairwise_singleton _ _, fun n mem m last => ?_⟩
      rw [List.mem_singleton.mp last]
      exact made n mem
    · intro n mem
      simp only [nobody, List.append_nil, List.map_append, List.map_cons, List.map_nil,
        List.mem_append, List.mem_singleton] at mem
      rcases mem with mem | rfl
      · exact Nat.lt_succ_of_lt (made n mem)
      · exact Nat.lt_succ_self _

/-- What was handed out reaches its receiver or is dropped. -/
lemma hands (h : InLine sent c) (handed returned : List (Nat × α)) :
    InLine sent { c with handed, returned } :=
  ⟨h.fifo, h.calls, h.made, h.idle, h.shut⟩

/-- A `receive` gets in line behind the others. -/
lemma receive (h : InLine sent c) : InLine sent c.receive := by
  unfold Handoff.receive
  split
  case h_1 x c' takes =>
    exact (h.tryReceive takes).hands _ _
  case h_2 takes =>
    have empty := tryReceive_none takes
    split
    case isTrue =>
      exact ⟨h.fifo, h.calls, fun n mem => Nat.lt_succ_of_lt (h.made n mem), h.idle, h.shut⟩
    case isFalse opened =>
      refine ⟨h.fifo, ?_, ?_, fun _ => empty, fun closed => absurd closed opened⟩
      · simp only [← List.append_assoc]
        refine List.pairwise_append.mpr ⟨h.calls, List.pairwise_singleton _ _, fun n mem m last => ?_⟩
        rw [List.mem_singleton.mp last]
        exact h.made n mem
      · intro n mem
        simp only [← List.append_assoc] at mem
        rcases List.mem_append.mp mem with mem | last
        · exact Nat.lt_succ_of_lt (h.made n mem)
        · rw [List.mem_singleton.mp last]
          exact Nat.lt_succ_self _

/-- Somebody leaves the line. -/
lemma shorten {waiting : List Nat} (h : InLine sent c) (sub : waiting.Sublist c.waiting) :
    InLine sent { c with waiting } where
  fifo := h.fifo
  calls := h.calls.sublist (sub.append_left _)
  made n mem := h.made n ((sub.append_left _).subset mem)
  idle waits := by
    refine h.idle fun nobody => waits ?_
    rw [nobody] at sub
    exact List.sublist_nil.mp sub
  shut closed := by
    have nobody := h.shut closed
    rw [nobody] at sub
    exact List.sublist_nil.mp sub

/-- A cancelled receiver leaves the line. -/
lemma leave (h : InLine sent c) (n : Nat) : InLine sent (c.leave n) :=
  h.shorten List.erase_sublist

/-- Closing sends the line away. -/
lemma close (h : InLine sent c) : InLine sent c.close := by
  have alone := h.shorten (List.nil_sublist c.waiting)
  exact ⟨alone.fifo, alone.calls, alone.made, alone.idle, fun _ => rfl⟩

end InLine

end Handoff
