import MsgTrans.Quic.Open

/-!
# The attempts of a QUIC connect

`open` counts its outstanding attempts by hand. As long as no stagger timer fires between the send that
hands an outcome to `outcomes.receive` and the moment `open` runs, the count is right: it is the number of
attempts that have not reported, plus the outcomes still in the channel or on their way to `open`.
-/

namespace MsgTrans.Quic

/-- The outcome a resumed `receive` brings. -/
def Pc.inHand : Pc → List (Nat × Handshake)
  | .receiving _ (.resumed attempt result) => [(attempt, result)]
  | _ => []

/-- The address being started. -/
def Pc.starting : Pc → List Nat
  | .creating address | .connecting address _ => [address]
  | _ => []

/-- `open` is in its loop and will go on with it. -/
def Pc.Looping : Pc → Prop
  | .receiving _ .cancelled | .openingBi _ | .ended _ => False
  | _ => True

namespace Opening

variable {t : Target} {s s' : Opening} {e : Event}

/-- No stagger timer fires once `receive` was resumed with an element, and `start` throws nothing but
`Exception`s unless `open` was cancelled. -/
def Regular (s : Opening) : Event → Prop
  | .timer => ∀ timed attempt result, s.pc ≠ .receiving timed (.resumed attempt result)
  | .client (.error e) | .connect (.error e) => (∀ message, e ≠ .exception message) → s.cancelled = true
  | _ => True

/-- The attempts whose racer has not reported. -/
def unreported (s : Opening) : Nat := s.attempts.countP fun a => a.outcome.isNone

/-- The books of the loop at a place `pc` of it. -/
structure Books (s : Opening) (pc : Pc) : Prop where
  opened : s.outcomesClosed = false
  count : s.running = s.unreported + s.outcomes.length + pc.inHand.length
  success : s.winner = none → ∀ i a, s.attempts[i]? = some a → a.outcome = some .success →
    (i, .success) ∈ s.outcomes ++ pc.inHand
  addresses : ∀ k < s.next, k ∈ s.refused ∨ (∃ a ∈ s.attempts, a.address = k) ∨ k ∈ pc.starting

/-- The books are right as long as the loop goes on; it waits only for an outstanding outcome and gives up
only when every address has failed. -/
structure Counted (t : Target) (s : Opening) : Prop where
  books : s.pc.Looping → Books s s.pc
  waiting : ∀ timed, s.pc = .receiving timed .parked →
    s.running ≠ 0 ∧ s.winner = none ∧ s.outcomes = []
  failed : ∀ m, s.pc = .ended (.connectException m) → s.next = t.addresses.length ∧
    (∀ k < s.next, k ∈ s.refused ∨ ∃ a ∈ s.attempts, a.address = k) ∧
    ∀ a ∈ s.attempts, ∃ message, a.outcome = some (.failure message)
  flagged : (∃ timed, s.pc = .receiving timed .cancelled) ∨ s.pc = .ended .cancelled ∨
    (∃ e, s.pc = .ended (.startThrew e)) → s.cancelled = true

namespace Counted

/-- The books of a new `open`. -/
lemma start : Counted t start where
  books _ := ⟨rfl, rfl, fun _ i a found => (by cases found), fun k lt => (by cases lt)⟩
  waiting timed pc := by cases pc
  failed m pc := by cases pc
  flagged from_ := by
    obtain ⟨_, pc⟩ | pc | ⟨_, pc⟩ := from_ <;> cases pc

/-- The books at the place where the loop is. -/
lemma at_ (h : Counted t s) {pc : Pc} (eq : s.pc = pc) (into : pc.Looping) : Books s pc :=
  eq ▸ h.books (eq ▸ into)

/-- Once `open` is past its loop, only the way it ended counts. -/
lemma past (out : ¬ s.pc.Looping)
    (failed : ∀ m, s.pc = .ended (.connectException m) → s.next = t.addresses.length ∧
      (∀ k < s.next, k ∈ s.refused ∨ ∃ a ∈ s.attempts, a.address = k) ∧
      ∀ a ∈ s.attempts, ∃ message, a.outcome = some (.failure message))
    (flagged : (∃ timed, s.pc = .receiving timed .cancelled) ∨ s.pc = .ended .cancelled ∨
      (∃ e, s.pc = .ended (.startThrew e)) → s.cancelled = true) : Counted t s where
  books into := absurd into out
  waiting timed pc := absurd (by simp [pc, Pc.Looping]) out
  failed := failed
  flagged := flagged

/-- A place in the loop where `open` does not wait. -/
lemma going (books : Books s s.pc) (into : s.pc.Looping) (busy : ∀ timed, s.pc ≠ .receiving timed .parked) :
    Counted t s where
  books _ := books
  waiting timed pc := absurd pc (busy timed)
  failed m pc := by simp [pc, Pc.Looping] at into
  flagged from_ := by
    obtain ⟨_, pc⟩ | pc | ⟨_, pc⟩ := from_ <;> simp [pc, Pc.Looping] at into

end Counted

/-- A report lowers the number of unreported attempts. -/
lemma unreported_set {i k n : Nat} {r : Handshake} (found : s.attempts[i]? = some ⟨k, n, none⟩) :
    (s.attempts.set i ⟨k, n, some r⟩).countP (fun a => a.outcome.isNone) + 1 = s.unreported := by
  obtain ⟨lt, eq⟩ := List.getElem?_eq_some_iff.mp found
  have pos : 0 < s.attempts.countP fun a => a.outcome.isNone :=
    List.countP_pos_iff.mpr ⟨_, List.mem_of_getElem? found, rfl⟩
  rw [List.countP_set lt, eq, unreported]
  simp only [Option.isNone_none, Option.isNone_some, if_true, Bool.false_eq_true, if_false]
  omega

/-- A handshake that was successful after a report was so before, or it is the one reported. -/
lemma success_set {i j k n : Nat} {r : Handshake} {a : Attempt}
    (found : s.attempts[i]? = some ⟨k, n, none⟩)
    (after : (s.attempts.set i ⟨k, n, some r⟩)[j]? = some a) (won : a.outcome = some .success) :
    (j = i ∧ r = .success) ∨ ∃ b, s.attempts[j]? = some b ∧ b.outcome = some .success := by
  obtain ⟨lt, -⟩ := List.getElem?_eq_some_iff.mp found
  rw [List.getElem?_set] at after
  split_ifs at after with same
  · cases after
    exact .inl ⟨same.symm, by simpa using won⟩
  · exact .inr ⟨a, after, won⟩

/-- A report changes the outcome of an attempt, not its address. -/
lemma address_set {i k n : Nat} {r : Handshake} (found : s.attempts[i]? = some ⟨k, n, none⟩)
    {address : Nat} (started : ∃ a ∈ s.attempts, a.address = address) :
    ∃ a ∈ s.attempts.set i ⟨k, n, some r⟩, a.address = address := by
  obtain ⟨a, mem, eq⟩ := started
  obtain ⟨j, at_⟩ := List.mem_iff_getElem?.mp mem
  obtain ⟨lt, -⟩ := List.getElem?_eq_some_iff.mp found
  by_cases same : i = j
  · rw [← same, found] at at_
    cases at_
    exact ⟨⟨k, n, some r⟩, List.mem_of_getElem? (List.getElem?_set_self lt), eq⟩
  · exact ⟨a, List.mem_of_getElem? (i := j) (by rw [List.getElem?_set_ne same, at_]), eq⟩

namespace Counted

/-- The end of the loop's body, with one outcome fewer outstanding. -/
lemma settle {i : Nat} {r : Handshake} (books : Books s (.receiving false (.resumed i r))) :
    Counted t (s.settle i r) := by
  obtain ⟨opened, count, success, addresses⟩ := books
  simp only [Pc.inHand, List.length_singleton] at count
  cases r with
  | success =>
    refine going ⟨opened, ?_, fun none => (by cases none), addresses⟩ trivial (by simp)
    change s.running - 1 = s.unreported + s.outcomes.length + 0
    omega
  | failure m =>
    refine going ⟨opened, ?_, fun none j a found won => ?_, addresses⟩ trivial (by simp)
    · change s.running - 1 = s.unreported + s.outcomes.length + 0
      omega
    · simpa [Opening.settle, Pc.inHand] using success none j a found won

/-- Nothing is reported after the books were closed on every attempt. -/
lemma unfailed (h : Counted t s) {i k n : Nat} (found : s.attempts[i]? = some ⟨k, n, none⟩) (m : String) :
    s.pc ≠ .ended (.connectException m) := by
  intro pc
  obtain ⟨_, failed⟩ := (h.failed m pc).2.2 _ (List.mem_of_getElem? found)
  cases failed

/-- A report that reaches the channel or the waiting `receive`. -/
lemma report (h : Counted t s) (into : s.pc.Looping) {i k n : Nat} {r : Handshake} {pc : Pc}
    {outcomes : List (Nat × Handshake)} (found : s.attempts[i]? = some ⟨k, n, none⟩)
    (more : outcomes ++ pc.inHand = s.outcomes ++ s.pc.inHand ++ [(i, r)] ∨
      outcomes ++ pc.inHand = s.outcomes ++ [(i, r)] ++ s.pc.inHand)
    (same : pc.starting = s.pc.starting) (into' : pc.Looping)
    (busy : ∀ timed, pc ≠ .receiving timed .parked) :
    Counted t { s with attempts := s.attempts.set i ⟨k, n, some r⟩, outcomes := outcomes, pc := pc } := by
  have mem : ∀ o, o ∈ s.outcomes ++ s.pc.inHand ∨ o = (i, r) → o ∈ outcomes ++ pc.inHand := by
    intro o
    rcases more with eq | eq <;> rw [eq] <;> simp only [List.mem_append, List.mem_singleton] <;> tauto
  have length : outcomes.length + pc.inHand.length = s.outcomes.length + s.pc.inHand.length + 1 := by
    rcases more with eq | eq
    all_goals
      have := congrArg List.length eq
      simp only [List.length_append, List.length_singleton] at this
      omega
  have books := h.books into
  refine going ⟨books.opened, ?_, fun none j a after won => ?_, fun address lt => ?_⟩ into' busy
  · have fewer := unreported_set (r := r) found
    have count := books.count
    simp only [unreported] at fewer count ⊢
    omega
  · obtain ⟨rfl, rfl⟩ | ⟨b, before, won⟩ := success_set found after won
    · exact mem _ (.inr rfl)
    · exact mem _ (.inl (books.success none j b before won))
  · obtain refused | started | starting := books.addresses address lt
    · exact .inl refused
    · exact .inr (.inl (address_set found started))
    · exact .inr (.inr (same ▸ starting))

/-- An address whose `start` threw an `Exception` counts as refused. -/
lemma refuse {k next : Nat} {refused : List Nat} {attempts : List Attempt}
    (addresses : ∀ j < next, j ∈ refused ∨ (∃ a ∈ attempts, a.address = j) ∨ j ∈ [k]) :
    ∀ j < next, j ∈ refused ++ [k] ∨ (∃ a ∈ attempts, a.address = j) ∨ j ∈ [] := by
  intro j lt
  obtain refused | started | starting := addresses j lt
  · exact .inl (List.mem_append_left _ refused)
  · exact .inr (.inl started)
  · exact .inl (List.mem_append_right _ starting)

/-- Every regular move keeps the books. -/
theorem move (h : Counted t s) (regular : s.Regular e) (m : Move t s e s') : Counted t s' := by
  cases m with
  | won pc won => exact past (by simp [Pc.Looping]) (by simp) (by simp)
  | exhausted pc none idle done =>
    have books := h.at_ pc trivial
    have count := books.count
    -- nothing is outstanding, so every attempt has reported and its report was taken
    have reported : s.unreported = 0 := by omega
    have drained : s.outcomes = [] := List.eq_nil_of_length_eq_zero (by omega)
    refine past (by simp [Pc.Looping]) (fun m _ => ⟨done, fun k lt => ?_, fun a mem => ?_⟩) (by simp)
    · have started := books.addresses k lt
      simp only [Pc.starting, List.not_mem_nil, or_false] at started
      exact started
    · obtain ⟨i, found⟩ := List.mem_iff_getElem?.mp mem
      rw [unreported, List.countP_eq_zero] at reported
      cases outcome : a.outcome with
      | none => exact absurd (by simp [outcome]) (reported a mem)
      | some r =>
        cases r with
        | success => simpa [drained, Pc.inHand] using books.success none i a found outcome
        | failure m => exact ⟨m, rfl⟩
  | starts from_ =>
    have books : Books s .loop := by
      obtain ⟨pc, -⟩ | ⟨timed, pc⟩ := from_
      · exact h.at_ pc trivial
      · obtain ⟨opened, count, success, addresses⟩ := h.at_ pc trivial
        exact ⟨opened, count, success, addresses⟩
    obtain ⟨opened, count, success, addresses⟩ := books
    refine going ⟨opened, count, success, fun k lt => ?_⟩ trivial (by simp [startNext])
    obtain old | new := Nat.lt_succ_iff_lt_or_eq.mp lt
    · obtain refused | started | none := addresses k old
      · exact .inl refused
      · exact .inr (.inl started)
      · cases none
    · exact .inr (.inr (by simp [startNext, Pc.starting, new]))
  | @takes i r rest pc none queued =>
    obtain ⟨opened, count, success, addresses⟩ := h.at_ pc trivial
    simp only [queued, Pc.inHand, List.length_cons, List.length_nil] at count success
    refine settle ⟨opened, ?_, fun none j a found won => ?_, addresses⟩
    · simp only [unreported, Pc.inHand, List.length_singleton] at count ⊢
      omega
    · simpa [Pc.inHand, or_comm] using success none j a found won
  | parks pc none busy queued =>
    obtain ⟨opened, count, success, addresses⟩ := h.at_ pc trivial
    exact ⟨fun _ => ⟨opened, count, success, addresses⟩, fun _ _ => ⟨busy, none, queued⟩, by simp, by simp⟩
  | parksCancelled pc none flag | takesCancelled pc none flag _ =>
    exact past (by simp [Pc.Looping]) (by simp) (fun _ => flag)
  | receives pc =>
    obtain ⟨opened, count, success, addresses⟩ := h.at_ pc trivial
    exact settle ⟨opened, count, success, addresses⟩
  | stops pc =>
    have flag : s.cancelled = true := h.flagged (.inl ⟨_, pc⟩)
    exact past (by simp [Opening.fail, Pc.Looping]) (by simp [Opening.fail]) (fun _ => flag)
  | creates pc found =>
    obtain ⟨opened, count, success, addresses⟩ := h.at_ pc trivial
    exact going ⟨opened, count, success, addresses⟩ trivial (by simp)
  | createRefused pc =>
    obtain ⟨opened, count, success, addresses⟩ := h.at_ pc trivial
    exact going ⟨opened, count, success, refuse addresses⟩ trivial (by simp)
  | createThrows pc thrown | connectThrows pc thrown =>
    have flag : s.cancelled = true := regular thrown
    exact past (by simp [Opening.fail, Pc.Looping]) (by simp [Opening.fail]) (fun _ => flag)
  | @connects k n pc =>
    obtain ⟨opened, count, success, addresses⟩ := h.at_ pc trivial
    refine going ⟨opened, ?_, fun none i a found won => ?_, fun k lt => ?_⟩ trivial (by simp)
    -- one more attempt is running, and it has not reported
    · simp only [unreported, List.countP_append, List.countP_singleton, Option.isNone_none, if_true,
        Pc.inHand, List.length_nil] at count ⊢
      omega
    · rw [List.getElem?_append] at found
      split_ifs at found with old
      · exact success none i a found won
      · obtain ⟨_, eq⟩ := List.getElem?_eq_some_iff.mp found
        simp [← eq] at won
    · obtain refused | ⟨a, mem, eq⟩ | starting := addresses k lt
      · exact .inl refused
      · exact .inr (.inl ⟨a, List.mem_append_left _ mem, eq⟩)
      · exact .inr (.inl ⟨_, List.mem_append_right _ (List.mem_singleton_self _),
          (List.mem_singleton.mp starting).symm⟩)
  | connectRefused pc =>
    obtain ⟨opened, count, success, addresses⟩ := h.at_ pc trivial
    exact going ⟨opened, count, success, refuse addresses⟩ trivial (by simp)
  | reportsLate found closed =>
    refine past (fun into => ?_) (fun m pc => absurd pc (h.unfailed found m)) h.flagged
    -- the channel is closed after the loop only
    have opened : s.outcomesClosed = false := (h.books into).opened
    simp [closed] at opened
  | reportsHand found opened pc =>
    have into : s.pc.Looping := by simp [pc, Pc.Looping]
    refine h.report into found (.inl ?_) ?_ trivial (by simp)
    · simp [pc, Pc.inHand]
    · simp [pc, Pc.starting]
  | reportsQueue found opened other =>
    by_cases into : s.pc.Looping
    · exact h.report into found (.inr rfl) rfl into other
    · exact past into (fun m pc => absurd pc (h.unfailed found m)) h.flagged
  | expires pc =>
    obtain ⟨opened, count, success, addresses⟩ := h.at_ pc trivial
    exact going ⟨opened, count, success, addresses⟩ trivial (by simp)
  | discards pc => exact absurd pc (regular _ _ _)
  | cancelsReceive pc => exact past (by simp [Pc.Looping]) (by simp) (fun _ => rfl)
  | cancels _ =>
    refine ⟨fun into => ?_, h.waiting, h.failed, fun _ => rfl⟩
    obtain ⟨opened, count, success, addresses⟩ := h.books into
    exact ⟨opened, count, success, addresses⟩
  | opens pc | openFails pc => exact past (by simp [Pc.Looping]) (by simp) (by simp)

end Counted

/-- As long as no outcome is discarded at the timer, `open` loses no attempt: it waits only while some
started attempt has not reported and none has succeeded; when it ends after a success, it returns a stream
unless it was cancelled or `openBi` failed; and it throws `ConnectException` only after every address was
started or could not be, and every started attempt failed. -/
theorem attempts_kept (run : Runs.Reach (step t) Regular start s) :
    (∀ timed, s.pc = .receiving timed .parked →
      (∃ a ∈ s.attempts, a.outcome = none) ∧ ∀ a ∈ s.attempts, a.outcome ≠ some .success) ∧
    (∀ r, s.pc = .ended r → (∃ a ∈ s.attempts, a.outcome = some .success) → s.cancelled = false →
      r ≠ .openBiThrew → ∃ i, r = .returned i) ∧
    ∀ m, s.pc = .ended (.connectException m) → s.next = t.addresses.length ∧
      (∀ k < s.next, k ∈ s.refused ∨ ∃ a ∈ s.attempts, a.address = k) ∧
      ∀ a ∈ s.attempts, ∃ message, a.outcome = some (.failure message) := by
  have inv : Counted t s := run.invariant (P := Counted t) .start
    fun _ _ _ held regular st => held.move regular (step_move st)
  refine ⟨fun timed pc => ?_, fun r pc won active opened => ?_, inv.failed⟩
  · obtain ⟨busy, none, queued⟩ := inv.waiting timed pc
    obtain ⟨-, count, success, -⟩ := inv.at_ pc trivial
    rw [queued] at count success
    constructor
    · have outstanding : 0 < s.unreported := by
        simp only [List.length_nil, Pc.inHand] at count
        omega
      obtain ⟨a, mem, open_⟩ := List.countP_pos_iff.mp outstanding
      exact ⟨a, mem, Option.isNone_iff_eq_none.mp open_⟩
    · intro a mem outcome
      obtain ⟨i, found⟩ := List.mem_iff_getElem?.mp mem
      simpa [Pc.inHand] using success none i a found outcome
  · have flagged := inv.flagged
    cases r with
    | returned i => exact ⟨i, rfl⟩
    | connectException m =>
      obtain ⟨a, mem, outcome⟩ := won
      obtain ⟨message, failure⟩ := (inv.failed m pc).2.2 a mem
      simp [outcome] at failure
    | cancelled => simp [flagged (.inr (.inl pc))] at active
    | startThrew e => simp [flagged (.inr (.inr ⟨e, pc⟩))] at active
    | openBiThrew => exact absurd rfl opened

/-- The first handshake completes before the stagger timer fires, and wins. -/
theorem attempts_kept_first : ∃ s, Runs.Reach (step .localhost) Regular start s ∧
    (∃ a ∈ s.attempts, a.outcome = some .success) ∧ ∃ i, s.pc = .ended (.returned i) := by
  have run : ((Runs.exec (step .localhost) start
      [.run, .client (.ok ()), .connect (.ok ()), .run, .report 0 .success, .run, .run,
        .openBi true]).map fun s =>
      (s.pc, s.cancelled, s.attempts.map Attempt.outcome)) =
        some (.ended (.returned 0), false, [some .success]) := by decide
  obtain ⟨s, exec, value⟩ := Option.map_eq_some_iff.mp run
  simp only [Prod.mk.injEq] at value
  obtain ⟨pc, active, outcomes⟩ := value
  have reach : Runs.Reach (step .localhost) Regular start s :=
    Runs.reach_of_exec exec (.of_forall (by simp [Regular]))
  have won : ∃ a ∈ s.attempts, a.outcome = some .success := by
    have mem : some Handshake.success ∈ s.attempts.map Attempt.outcome := by simp [outcomes]
    exact List.mem_map.mp mem
  obtain ⟨i, eq⟩ := (attempts_kept reach).2.1 _ pc won active (by simp)
  exact ⟨s, reach, won, i, by rw [pc, eq]⟩

/-- The stagger timer fires after `receive` was resumed with a success and before `open` ran: the success is
discarded, the second attempt fails, and `open` waits though both attempts have reported. -/
theorem attempt_discarded : ∃ s, Runs.Reach (step .localhost) Runs.always start s ∧
    s.pc = .receiving false .parked ∧ s.cancelled = false ∧
    s.attempts.map Attempt.outcome = [some .success, some (.failure none)] := by
  have run : ((Runs.exec (step .localhost) start
      [.run, .client (.ok ()), .connect (.ok ()), .run, .report 0 .success, .timer, .run,
        .client (.ok ()), .connect (.ok ()), .run, .report 1 (.failure none), .run, .run]).map fun s =>
      (s.pc, s.cancelled, s.attempts.map Attempt.outcome)) =
        some (.receiving false .parked, false, [some .success, some (.failure none)]) := by decide
  obtain ⟨s, exec, value⟩ := Option.map_eq_some_iff.mp run
  simp only [Prod.mk.injEq] at value
  exact ⟨s, Runs.reach_always_of_exec exec, value⟩

end Opening

end MsgTrans.Quic
