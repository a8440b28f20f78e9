import MsgTrans.Quic.Open
import Mathlib.Data.List.Nodup

/-!
# The endpoints of a QUIC connect

Every endpoint that `open` created is closed or still held by it, and no endpoint is both. `held` names the
ones a state holds: those of the started attempts while the loop runs, the winner's alone once the `finally`
block has run, none after `open` threw.
-/

namespace MsgTrans.Quic

namespace Opening

variable {t : Target} {s s' : Opening} {e : Event}

/-- The endpoints of the attempts, by attempt. -/
def owned (s : Opening) : List Nat := s.attempts.map Attempt.endpoint

/-- The endpoints `open` has to close or to hand over. -/
def held (s : Opening) : List Nat :=
  match s.pc with
  | .connecting _ e => s.owned ++ [e]
  | .openingBi i | .ended (.returned i) => s.owned[i]?.toList
  | .ended _ => []
  | _ => s.owned

/-! ## The attempts a state names -/

/-- The attempt a place of `open` refers to. -/
def Pc.names : Pc → List Nat
  | .receiving _ (.resumed i _) => [i]
  | .openingBi i | .ended (.returned i) => [i]
  | _ => []

/-- Attempts are referred to by number only once they were started, and there is no winner before the loop
ends. -/
structure Known (s : Opening) : Prop where
  winner : ∀ i, s.winner = some i → i < s.attempts.length
  outcomes : ∀ o ∈ s.outcomes, o.1 < s.attempts.length
  pc : ∀ i ∈ Pc.names s.pc, i < s.attempts.length
  racing : s.winner ≠ none → s.pc = .loop ∨ (∃ i, s.pc = .openingBi i) ∨ ∃ r, s.pc = .ended r

/-- A new `open` refers to no attempt. -/
lemma Known.start : Known start where
  winner i won := by cases won
  outcomes o mem := by cases mem
  pc i mem := by cases mem
  racing won := absurd rfl won

/-- A failing `open` refers to no new attempt. -/
lemma Known.fail (h : Known s) (ended : Ended) (thrown : ∀ i, ended ≠ .returned i) :
    Known (s.fail ended) where
  winner := h.winner
  outcomes o mem := by cases mem
  pc i mem := by
    cases ended with
    | returned j => exact absurd rfl (thrown j)
    | connectException | cancelled | startThrew | openBiThrew => cases mem
  racing _ := .inr (.inr ⟨ended, rfl⟩)

/-- The result of an attempt that was started. -/
lemma Known.settle {i : Nat} (h : Known s) (r : Handshake) (known : i < s.attempts.length) :
    Known (s.settle i r) where
  winner j won := by
    cases r with
    | success =>
      cases won
      exact known
    | failure m => exact h.winner j won
  outcomes o mem := by
    simp only [settle_outcomes, settle_attempts] at mem ⊢
    exact h.outcomes o mem
  pc j mem := by simp [Pc.names] at mem
  racing _ := .inl (settle_pc i r s)

/-- Every move refers to attempts that were started. -/
lemma Known.move (h : Known s) (m : Move t s e s') : Known s' := by
  cases m with
  | won pc won =>
    refine ⟨h.winner, by simp [cleanUp], fun i mem => ?_, fun _ => .inr (.inl ⟨_, rfl⟩)⟩
    cases List.mem_singleton.mp mem
    exact h.winner _ won
  | exhausted pc none _ _ => exact h.fail _ (by simp)
  | starts from_ =>
    refine ⟨h.winner, h.outcomes, by simp [Pc.names, startNext], fun won => ?_⟩
    obtain ⟨-, none⟩ | ⟨timed, pc⟩ := from_
    · exact absurd none won
    · simpa [pc] using h.racing won
  | @takes i r rest pc none queued =>
    have popped : Known { s with outcomes := rest } :=
      ⟨h.winner, fun o mem => h.outcomes o (by simp [queued, mem]), h.pc, h.racing⟩
    exact popped.settle r (h.outcomes (i, r) (by simp [queued]))
  | parks pc none _ _ | parksCancelled pc none _ =>
    exact ⟨h.winner, h.outcomes, by simp [Pc.names], fun won => absurd none won⟩
  | takesCancelled pc none _ queued =>
    exact ⟨h.winner, fun o mem => h.outcomes o (by simp [queued, mem]), by simp [Pc.names],
      fun won => absurd none won⟩
  | receives pc => exact h.settle _ (h.pc _ (by simp [pc, Pc.names]))
  | stops pc => exact h.fail _ (by simp)
  | creates pc _ =>
    refine ⟨h.winner, h.outcomes, by simp [Pc.names], fun won => ?_⟩
    simpa [pc] using h.racing won
  | createRefused pc | connectRefused pc =>
    exact ⟨h.winner, h.outcomes, by simp [Pc.names], fun _ => .inl rfl⟩
  | createThrows pc _ => exact h.fail _ (by simp)
  | connects pc =>
    refine ⟨fun i won => ?_, fun o mem => ?_, by simp [Pc.names], fun _ => .inl rfl⟩
    · have := h.winner i won
      simp only [List.length_append]
      omega
    · have := h.outcomes o mem
      simp only [List.length_append]
      omega
  | @connectThrows k n err pc _ =>
    have closed : Known { s with closedEndpoints := s.closedEndpoints ++ [n] } :=
      ⟨h.winner, h.outcomes, h.pc, h.racing⟩
    exact closed.fail _ (by simp)
  | reportsLate found closed =>
    refine ⟨?_, ?_, ?_, h.racing⟩ <;> simp only [List.length_set]
    exacts [h.winner, h.outcomes, h.pc]
  | @reportsHand i r k n timed found _ pc =>
    obtain ⟨lt, -⟩ := List.getElem?_eq_some_iff.mp found
    refine ⟨?_, ?_, ?_, ?_⟩ <;> simp only [List.length_set]
    · exact h.winner
    · exact h.outcomes
    · simpa [Pc.names] using lt
    · intro won
      simpa [pc] using h.racing won
  | @reportsQueue i r k n found _ _ =>
    obtain ⟨lt, -⟩ := List.getElem?_eq_some_iff.mp found
    refine ⟨?_, fun o mem => ?_, ?_, h.racing⟩ <;> simp only [List.length_set]
    · exact h.winner
    · obtain old | new := List.mem_append.mp mem
      · exact h.outcomes o old
      · cases List.mem_singleton.mp new
        exact lt
    · exact h.pc
  | expires pc | discards pc | cancelsReceive pc =>
    refine ⟨h.winner, h.outcomes, by simp [Pc.names], fun won => ?_⟩
    simpa [pc] using h.racing won
  | cancels _ => exact ⟨h.winner, h.outcomes, h.pc, h.racing⟩
  | opens pc =>
    exact ⟨h.winner, h.outcomes, by simpa [pc, Pc.names] using h.pc, fun _ => .inr (.inr ⟨_, rfl⟩)⟩
  | openFails pc =>
    exact ⟨h.winner, h.outcomes, by simp [Pc.names], fun _ => .inr (.inr ⟨_, rfl⟩)⟩

/-! ## The endpoints -/

/-- Every created endpoint is closed or held, and none is both. -/
structure Owned (s : Opening) : Prop where
  created : ∀ n, n < s.endpoints.length ↔ n ∈ s.closedEndpoints ∨ n ∈ s.held
  apart : ∀ n ∈ s.held, n ∉ s.closedEndpoints
  distinct : s.held.Nodup

/-- A new `open` has created no endpoint. -/
lemma Owned.start : Owned start where
  created n := by simp [Opening.start, held, owned]
  apart n mem := by cases mem
  distinct := List.nodup_nil

/-- A step that creates and closes nothing and leaves the endpoints where they are. -/
lemma Owned.same (h : Owned s) (endpoints : s'.endpoints = s.endpoints)
    (closed : s'.closedEndpoints = s.closedEndpoints) (held : s'.held = s.held) : Owned s' := by
  refine ⟨?_, ?_, ?_⟩ <;> rw [held]
  · rw [endpoints, closed]
    exact h.created
  · rw [closed]
    exact h.apart
  · exact h.distinct

/-- The losers' endpoints are all but the winner's. -/
lemma mem_losers {n : Nat} : n ∈ (s.losers.map fun a => a.1.endpoint) ↔
    ∃ i : Nat, s.owned[i]? = some n ∧ s.winner ≠ some i := by
  simp only [losers, owned, List.mem_map, List.mem_filter, List.mem_zipIdx_iff_getElem?, decide_eq_true_eq,
    List.getElem?_map, Option.map_eq_some_iff, Prod.exists]
  constructor
  · rintro ⟨a, i, ⟨found, loses⟩, eq⟩
    exact ⟨i, ⟨a, found, eq⟩, loses⟩
  · rintro ⟨i, ⟨a, found, eq⟩, loses⟩
    exact ⟨a, i, ⟨found, loses⟩, eq⟩

/-- In the loop all endpoints are held. -/
lemma held_of_loop (pc : s.pc = .loop) : s.held = s.owned := by simp [held, pc]

/-- While it receives all endpoints are held. -/
lemma held_of_receiving {timed : Bool} {receive : Receive} (pc : s.pc = .receiving timed receive) :
    s.held = s.owned := by simp [held, pc]

/-- While one is created the other endpoints are held. -/
lemma held_of_creating {k : Nat} (pc : s.pc = .creating k) : s.held = s.owned := by simp [held, pc]

/-- The `finally` block without a winner closes all that is held. -/
lemma Owned.fail (h : Owned s) (held : s.held = s.owned) (none : s.winner = none) {ended : Ended}
    (thrown : ∀ i, ended ≠ .returned i) : Owned (s.fail ended) := by
  have nothing : (s.fail ended).held = [] := by
    cases ended with
    | returned i => exact absurd rfl (thrown i)
    | connectException | cancelled | startThrew | openBiThrew => rfl
  refine ⟨fun n => ?_, ?_, ?_⟩
  · have created := h.created n
    rw [held] at created
    rw [nothing]
    change n < s.endpoints.length ↔ n ∈ s.closedEndpoints ++ _ ∨ n ∈ []
    rw [created, List.mem_append, mem_losers, none, List.mem_iff_getElem? (l := s.owned)]
    simp
  · simp [nothing]
  · simp [nothing]

/-- The `finally` block with a winner keeps the winner's endpoint alone. -/
lemma Owned.won (h : Owned s) (held : s.held = s.owned) {w : Nat} (won : s.winner = some w)
    (lt : w < s.attempts.length) : Owned { s.cleanUp with pc := .openingBi w } := by
  have lt : w < s.owned.length := by simpa [owned] using lt
  have kept : s.owned[w]? = some s.owned[w] := List.getElem?_eq_getElem lt
  have created := h.created
  have apart := h.apart
  have distinct := h.distinct
  rw [held] at created apart distinct
  have after : Opening.held { s.cleanUp with pc := .openingBi w } = [s.owned[w]] := by
    change s.owned[w]?.toList = _
    rw [kept]
    rfl
  refine ⟨fun n => ?_, ?_, ?_⟩
  · rw [after, List.mem_singleton]
    change n < s.endpoints.length ↔ n ∈ s.closedEndpoints ++ _ ∨ _
    rw [created, List.mem_append, mem_losers, won, List.mem_iff_getElem? (l := s.owned), or_assoc]
    apply or_congr_right
    constructor
    · rintro ⟨i, found⟩
      by_cases same : i = w
      · rw [same, kept] at found
        exact .inr (by simpa using found.symm)
      · exact .inl ⟨i, found, by simpa using Ne.symm same⟩
    · rintro (⟨i, found, -⟩ | eq)
      · exact ⟨i, found⟩
      · exact ⟨w, eq ▸ kept⟩
  · rw [after]
    intro n mem
    cases List.mem_singleton.mp mem
    change s.owned[w] ∉ s.closedEndpoints ++ _
    rw [List.mem_append, mem_losers, won]
    -- the winner's endpoint was not closed before, and no loser has the same one
    rintro (closed | ⟨i, found, other⟩)
    · exact apart _ (List.getElem_mem lt) closed
    · obtain ⟨lt', eq⟩ := List.getElem?_eq_some_iff.mp found
      exact other (congrArg some (distinct.getElem_inj_iff.mp eq.symm))
  · rw [after]
    exact List.nodup_singleton _

/-- A report changes the outcome of an attempt, not its endpoint. -/
lemma owned_set {i k n : Nat} {r : Handshake} (found : s.attempts[i]? = some ⟨k, n, none⟩) :
    (s.attempts.set i ⟨k, n, some r⟩).map Attempt.endpoint = s.owned := by
  obtain ⟨lt, -⟩ := List.getElem?_eq_some_iff.mp found
  apply List.ext_getElem?
  intro j
  rw [owned, List.getElem?_map, List.getElem?_set, List.getElem?_map]
  split_ifs with same
  · rw [← same, found]
    rfl
  · rfl

/-- What is held depends on the place and the attempts. -/
lemma held_congr (pc : s'.pc = s.pc) (owned : s'.owned = s.owned) : s'.held = s.held := by
  simp only [held, pc, owned]

/-- The `catch` clause of `start` closes the endpoint that could not connect. -/
lemma Owned.close {k n : Nat} (h : Owned s) (pc : s.pc = .connecting k n) :
    Owned { s with closedEndpoints := s.closedEndpoints ++ [n], pc := .loop } := by
  have before : s.held = s.owned ++ [n] := by simp [held, pc]
  have created := h.created
  have apart := h.apart
  have distinct := h.distinct
  rw [before] at created apart distinct
  refine ⟨fun m => ?_, fun m mem => ?_, distinct.of_append_left⟩
  · change m < s.endpoints.length ↔ m ∈ s.closedEndpoints ++ [n] ∨ m ∈ s.owned
    rw [created, List.mem_append, List.mem_append, or_assoc, or_comm (a := m ∈ s.owned)]
  · change m ∉ s.closedEndpoints ++ [n]
    have mem : m ∈ s.owned := mem
    rw [List.mem_append, not_or]
    exact ⟨apart m (by simp [mem]), fun new => (List.disjoint_of_nodup_append distinct) mem new⟩

/-- Every move closes or holds the endpoints. -/
lemma Owned.move (h : Owned s) (known : Known s) (m : Move t s e s') : Owned s' := by
  have racing : s.winner ≠ none → _ := known.racing
  cases m with
  | won pc won => exact h.won (held_of_loop pc) won (known.winner _ won)
  | exhausted pc none _ _ => exact h.fail (held_of_loop pc) none (by simp)
  | starts from_ =>
    refine h.same rfl rfl ?_
    obtain ⟨pc, -⟩ | ⟨timed, pc⟩ := from_
    · rw [held_of_loop pc]
      rfl
    · rw [held_of_receiving pc]
      rfl
  | takes pc none queued =>
    refine h.same (by simp) (by simp) ?_
    rw [held_of_loop pc, held_of_loop (settle_pc _ _ _), owned, settle_attempts]
    rfl
  | parks pc _ _ _ | parksCancelled pc _ _ | takesCancelled pc _ _ _ =>
    exact h.same rfl rfl (held_of_loop pc).symm
  | receives pc =>
    refine h.same (by simp) (by simp) ?_
    rw [held_of_receiving pc, held_of_loop (settle_pc _ _ _), owned, settle_attempts]
    rfl
  | stops pc =>
    refine h.fail (held_of_receiving pc) ?_ (by simp)
    -- a winner would have ended the loop before this
    by_contra won
    simpa [pc] using racing won
  | @creates k a pc found =>
    have created := h.created
    have apart := h.apart
    have distinct := h.distinct
    rw [held_of_creating pc] at created apart distinct
    -- endpoints are numbered in the order of their creation, so the new one is in no list yet
    have fresh : s.endpoints.length ∉ s.closedEndpoints ∧ s.endpoints.length ∉ s.owned := by
      rw [← not_or, ← created]
      exact Nat.lt_irrefl _
    refine ⟨fun n => ?_, fun n mem => ?_, ?_⟩
    · simp only [held, List.length_append, List.length_singleton, List.mem_append, List.mem_singleton]
      rw [Nat.lt_succ_iff_lt_or_eq, created, or_assoc]
      rfl
    · obtain old | new := List.mem_append.mp mem
      · exact apart n old
      · cases List.mem_singleton.mp new
        exact fresh.1
    · exact distinct.append (List.nodup_singleton _) (by simpa using fresh.2)
  | createRefused pc => exact h.same rfl rfl (held_of_creating pc).symm
  | createThrows pc _ =>
    refine h.fail (held_of_creating pc) ?_ (by simp)
    by_contra won
    simpa [pc] using racing won
  | connects pc =>
    refine h.same rfl rfl ?_
    simp [held, pc, owned]
  | connectRefused pc => exact (h.close pc).same rfl rfl rfl
  | connectThrows pc _ =>
    refine (h.close pc).fail rfl ?_ (by simp)
    by_contra won
    simpa [pc] using racing won
  | reportsLate found _ | reportsQueue found _ _ =>
    exact h.same rfl rfl (held_congr rfl (owned_set found))
  | reportsHand found _ pc =>
    refine h.same rfl rfl ?_
    rw [held_of_receiving pc, ← owned_set found]
    rfl
  | expires pc | discards pc | cancelsReceive pc => exact h.same rfl rfl (held_of_receiving pc).symm
  | cancels _ => exact h.same rfl rfl rfl
  | opens pc =>
    refine h.same rfl rfl ?_
    simp [held, pc, owned]
  | @openFails i pc =>
    have before : s.held = s.owned[i]?.toList := by simp [held, pc]
    have created := h.created
    rw [before, owned, List.getElem?_map] at created
    refine ⟨fun n => ?_, fun n mem => (by cases mem), List.nodup_nil⟩
    simp only [List.mem_append, held, List.not_mem_nil, or_false]
    exact created n

/-- When `open` returns a stream, every endpoint it created except the winner's has been closed and the
winner's has not; when it throws, every endpoint it created has been closed. -/
theorem endpoints_released (run : Runs.Reach (step t) Runs.always start s) :
    (∀ i, s.pc = .ended (.returned i) → ∃ a, s.attempts[i]? = some a ∧
      a.endpoint < s.endpoints.length ∧ a.endpoint ∉ s.closedEndpoints ∧
      ∀ n < s.endpoints.length, n ≠ a.endpoint → n ∈ s.closedEndpoints) ∧
    ∀ r, s.pc = .ended r → (∀ i, r ≠ .returned i) →
      ∀ n < s.endpoints.length, n ∈ s.closedEndpoints := by
  have inv : Known s ∧ Owned s := run.invariant (P := fun s => Known s ∧ Owned s) ⟨.start, .start⟩
    fun _ _ _ held _ st => ⟨held.1.move (step_move st), held.2.move held.1 (step_move st)⟩
  obtain ⟨known, held⟩ := inv
  constructor
  · intro i pc
    have lt : i < s.attempts.length := known.pc i (by simp [pc, Pc.names])
    have found : s.attempts[i]? = some s.attempts[i] := List.getElem?_eq_getElem lt
    have mine : s.held = [s.attempts[i].endpoint] := by simp [Opening.held, pc, owned, found]
    have created := held.created
    have apart := held.apart
    rw [mine] at created apart
    refine ⟨s.attempts[i], found, ?_, apart _ (by simp), fun n lt other => ?_⟩
    · exact (created _).mpr (.inr (by simp))
    · exact ((created n).mp lt).resolve_right (by simpa using other)
  · intro r pc thrown n lt
    have mine : s.held = [] := by
      cases r with
      | returned i => exact absurd rfl (thrown i)
      | connectException | cancelled | startThrew | openBiThrew => simp [Opening.held, pc]
    have created := held.created n
    rw [mine] at created
    simpa using created.mp lt

/-- The second address is tried beside the first and wins. -/
theorem endpoints_released_second : ∃ s, Runs.Reach (step .localhost) Runs.always start s ∧
    s.pc = .ended (.returned 1) ∧ s.closedEndpoints = [0] ∧
    ∃ a, s.attempts[1]? = some a ∧ a.endpoint ∉ s.closedEndpoints := by
  have run : ((Runs.exec (step .localhost) start
      [.run, .client (.ok ()), .connect (.ok ()), .run, .timer, .run, .client (.ok ()),
        .connect (.ok ()), .run, .report 1 .success, .run, .run, .openBi true]).map fun s =>
      (s.pc, s.closedEndpoints)) = some (.ended (.returned 1), [0]) := by decide
  obtain ⟨s, exec, value⟩ := Option.map_eq_some_iff.mp run
  simp only [Prod.mk.injEq] at value
  have reach := Runs.reach_always_of_exec exec
  obtain ⟨a, found, -, opened, -⟩ := (endpoints_released reach).1 1 value.1
  exact ⟨s, reach, value.1, value.2, a, found, opened⟩

end Opening

end MsgTrans.Quic
