import Mathlib.Tactic.Common

/-!
# Programs with state and exceptions

A program changes a state and may throw; what it did to the state before it threw stays. `Agree R x y`
says that two programs cannot be told apart from outside: from every state they leave the same state
behind, and throw the same exception or return results related by `R`. The rules follow the shape of a
program: return, throw, sequence, a guard, a loop of any number of turns. `Ensures Q x` says that
whatever `x` returns meets `Q`, with the same rules for one program. `After x s Q E` is about one run,
with the state: it returns with `Q` or throws with `E`. Its loop has an invariant rule and, with a
measure that every turn that goes on decreases, a rule for an end within so many turns.
-/

/-- A program over a state that may throw. -/
abbrev Program (σ ε : Type) : Type → Type := ExceptT ε (StateM σ)

namespace Program

variable {σ ε α β γ δ : Type}

/-- Run a program from a state. -/
def exec (x : Program σ ε α) (s : σ) : Except ε α × σ := StateT.run (ExceptT.run x) s

/-- A sequence runs its first program, and the second where the first has returned. -/
lemma exec_bind (x : Program σ ε α) (f : α → Program σ ε β) (s : σ) :
    (x >>= f).exec s =
      match x.exec s with
      | (.ok a, t) => (f a).exec t
      | (.error e, t) => (.error e, t) := by
  simp only [exec, ExceptT.run_bind, StateT.run_bind]
  rcases StateT.run (ExceptT.run x) s with ⟨result | result, t⟩ <;> rfl

/-- A value that was computed without the state, or its exception. -/
def ofExcept (x : Except ε α) : Program σ ε α := ExceptT.mk (pure x)

/-- A result that is known changes no state. -/
@[simp] lemma exec_ofExcept (x : Except ε α) (s : σ) :
    (ofExcept x : Program σ ε α).exec s = (x, s) := rfl

/-- Going on from a value that is known. -/
@[simp] lemma ofExcept_ok_bind (a : α) (f : α → Program σ ε β) : ofExcept (.ok a) >>= f = f a := rfl

/-- Throw `e` when `c` holds. -/
def failIf (c : Prop) [Decidable c] (e : ε) : Program σ ε Unit :=
  if c then throw e else pure ()

/-- At most `n` turns of a loop: a turn goes on (`inl`) or leaves the loop (`inr`). -/
def loop (turn : α → Program σ ε (α ⊕ β)) : Nat → α → Program σ ε (α ⊕ β)
  | 0, a => pure (.inl a)
  | n + 1, a => turn a >>= Sum.elim (loop turn n) fun b => pure (.inr b)

/-- The same exception, or related results. -/
inductive Match (R : α → β → Prop) : Except ε α → Except ε β → Prop where
  | ok {a b} : R a b → Match R (.ok a) (.ok b)
  | error {e} : Match R (.error e) (.error e)

/-- From every state the two programs leave the same state and a matching result. -/
def Agree (R : α → β → Prop) (x : Program σ ε α) (y : Program σ ε β) : Prop :=
  ∀ s, (x.exec s).2 = (y.exec s).2 ∧ Match R (x.exec s).1 (y.exec s).1

namespace Agree

variable {R : α → β → Prop} {Q : γ → δ → Prop}

/-- Two programs that return related values. -/
lemma pure {a : α} {b : β} (related : R a b) :
    Agree R (Pure.pure a : Program σ ε α) (Pure.pure b) :=
  fun _ => ⟨rfl, .ok related⟩

/-- A program agrees with itself. -/
lemma refl (x : Program σ ε α) : Agree Eq x x := by
  intro s
  refine ⟨rfl, ?_⟩
  cases (x.exec s).1 with
  | ok a => exact .ok rfl
  | error e => exact .error

/-- Agreement up to equality is equality. -/
lemma eq {x y : Program σ ε α} (h : Agree Eq x y) : x = y := by
  apply ExceptT.ext
  funext s
  obtain ⟨state, result⟩ := h s
  refine Prod.ext ?_ state
  change (x.exec s).1 = (y.exec s).1
  generalize (x.exec s).1 = p, (y.exec s).1 = q at result
  cases result with
  | ok same => rw [same]
  | error => rfl

/-- Agreement composes. -/
lemma bind {x : Program σ ε α} {y : Program σ ε β} {f : α → Program σ ε γ} {g : β → Program σ ε δ}
    (first : Agree R x y) (rest : ∀ a b, R a b → Agree Q (f a) (g b)) : Agree Q (x >>= f) (y >>= g) := by
  intro s
  obtain ⟨state, result⟩ := first s
  rw [exec_bind, exec_bind]
  generalize x.exec s = p, y.exec s = q at state result
  obtain ⟨p, t⟩ := p
  obtain ⟨q, t'⟩ := q
  cases state
  cases result with
  | ok related => exact rest _ _ related t
  | error => exact ⟨rfl, .error⟩

/-- Sequence after the same program. -/
lemma then_of {x : Program σ ε α} {f : α → Program σ ε γ} {g : α → Program σ ε δ}
    (rest : ∀ a, Agree Q (f a) (g a)) : Agree Q (x >>= f) (x >>= g) := by
  refine (refl x).bind fun a b same => ?_
  rw [← same]
  exact rest a

/-- Sequence after the same computation without the state. -/
lemma ofExcept_bind {x : Except ε α} {f : α → Program σ ε γ} {g : α → Program σ ε δ}
    (rest : ∀ a, x = .ok a → Agree Q (f a) (g a)) :
    Agree Q (ofExcept x >>= f) (ofExcept x >>= g) := by
  intro s
  rw [exec_bind, exec_bind, exec_ofExcept]
  cases x with
  | ok a => exact rest a rfl s
  | error e => exact ⟨rfl, .error⟩

/-- Two guards with the same condition. -/
lemma failIf {c c' : Prop} [Decidable c] [Decidable c'] (same : c ↔ c') (e : ε) :
    Agree Eq (Program.failIf c e : Program σ ε Unit) (Program.failIf c' e) := by
  simp only [Program.failIf, same]
  exact refl _

/-- Lockstep: turns that keep the relation on the states of two loops make the loops agree. -/
lemma loop {Q : γ → δ → Prop} {turn : α → Program σ ε (α ⊕ γ)} {turn' : β → Program σ ε (β ⊕ δ)}
    (turns : ∀ a b, R a b → Agree (Sum.LiftRel R Q) (turn a) (turn' b)) (n : Nat) {a : α} {b : β}
    (start : R a b) : Agree (Sum.LiftRel R Q) (Program.loop turn n a) (Program.loop turn' n b) := by
  induction n generalizing a b with
  | zero => exact pure (.inl start)
  | succ n ih =>
    refine (turns a b start).bind fun p q next => ?_
    cases next with
    | inl related => exact ih related
    | inr related => exact pure (.inr related)

end Agree

/-- Whatever the program returns, from any state, meets `Q`. -/
def Ensures (Q : α → Prop) (x : Program σ ε α) : Prop :=
  ∀ s a t, x.exec s = (.ok a, t) → Q a

namespace Ensures

variable {P : α → Prop} {Q : β → Prop}

/-- Every program ensures what always holds. -/
lemma trivial (x : Program σ ε α) : Ensures (fun _ => True) x := fun _ _ _ _ => True.intro

/-- A program that returns a value ensures what holds of it. -/
lemma pure {a : α} (holds : P a) : Ensures P (Pure.pure a : Program σ ε α) := by
  intro s b t ran
  cases ran
  exact holds

/-- A result that is known ensures what holds of its value. -/
lemma ofExcept {x : Except ε α} (holds : ∀ a, x = .ok a → P a) :
    Ensures P (Program.ofExcept x : Program σ ε α) := by
  intro s a t ran
  exact holds a (congrArg Prod.fst ran)

/-- Behind a guard its condition is false. -/
lemma failIf {c : Prop} [Decidable c] {e : ε} :
    Ensures (fun _ => ¬ c) (Program.failIf c e : Program σ ε Unit) := by
  intro s a t ran holds
  rw [Program.failIf, if_pos holds] at ran
  cases ran

/-- What the rest ensures after what the first part ensures. -/
lemma bind {x : Program σ ε α} {f : α → Program σ ε β} (first : Ensures P x)
    (rest : ∀ a, P a → Ensures Q (f a)) : Ensures Q (x >>= f) := by
  intro s b t ran
  rw [exec_bind] at ran
  rcases result : x.exec s with ⟨value | value, u⟩
  · rw [result] at ran
    cases ran
  · rw [result] at ran
    exact rest value (first s value u result) u b t ran

/-- Invariant rule: what a turn keeps, a loop keeps. -/
lemma loop {P : α → Prop} {Q : β → Prop} {turn : α → Program σ ε (α ⊕ β)}
    (turns : ∀ a, P a → Ensures (Sum.elim P Q) (turn a)) (n : Nat) {a : α} (start : P a) :
    Ensures (Sum.elim P Q) (Program.loop turn n a) := by
  induction n generalizing a with
  | zero => exact pure start
  | succ n ih =>
    refine (turns a start).bind fun next holds => ?_
    cases next with
    | inl a => exact ih holds
    | inr b => exact pure holds

end Ensures

/-- Run from `s`, the program returns and leaves a state with `Q`, or throws and leaves one with `E`. -/
def After (x : Program σ ε α) (s : σ) (Q : α → σ → Prop) (E : ε → σ → Prop) : Prop :=
  match x.exec s with
  | (.ok a, t) => Q a t
  | (.error e, t) => E e t

namespace After

variable {x : Program σ ε α} {f : α → Program σ ε β} {s t : σ} {Q : β → σ → Prop} {E : ε → σ → Prop}

/-- What holds of a run that has returned. -/
lemma returned {Q : α → σ → Prop} {a : α} (h : After x s Q E) (ran : x.exec s = (.ok a, t)) :
    Q a t := by
  rwa [After, ran] at h

/-- What holds of a run that has thrown. -/
lemma thrown {Q : α → σ → Prop} {e : ε} (h : After x s Q E) (ran : x.exec s = (.error e, t)) :
    E e t := by
  rwa [After, ran] at h

/-- A program that cannot return throws. -/
lemma throws {x : Program σ ε α} (h : After x s (fun _ _ => False) E) :
    ∃ e t, x.exec s = (.error e, t) ∧ E e t := by
  rcases ran : x.exec s with ⟨e | a, t⟩
  · exact ⟨e, t, rfl, h.thrown ran⟩
  · exact (h.returned ran).elim

/-- A program that cannot throw returns. -/
lemma returns {x : Program σ ε α} {Q : α → Prop} (h : After x s (fun a _ => Q a) fun _ _ => False) :
    ∃ a, (x.exec s).1 = .ok a ∧ Q a := by
  rcases ran : x.exec s with ⟨e | a, t⟩
  · exact (h.thrown ran).elim
  · exact ⟨a, rfl, h.returned ran⟩

/-- A value is returned in the state that was there. -/
lemma pure {b : β} (holds : Q b s) : After (Pure.pure b) s Q E := holds

/-- The rest of a sequence starts where its first part has returned. -/
lemma bind (first : After x s (fun a t => After (f a) t Q E) E) : After (x >>= f) s Q E := by
  unfold After at first ⊢
  rw [exec_bind]
  generalize x.exec s = result at first ⊢
  obtain ⟨e | a, t⟩ := result
  · exact first
  · exact first

/-- A postcondition may be weakened. -/
lemma mono {Q Q' : α → σ → Prop} {E E' : ε → σ → Prop} (h : After x s Q E)
    (weaker : ∀ a t, Q a t → Q' a t) (weaker' : ∀ e t, E e t → E' e t) : After x s Q' E' := by
  unfold After at h ⊢
  generalize x.exec s = result at h ⊢
  obtain ⟨e | a, t⟩ := result
  · exact weaker' e t h
  · exact weaker a t h

/-- A result that is known goes on or fails. -/
lemma ofExcept_bind {x : Except ε α} (ok : ∀ a, x = .ok a → After (f a) s Q E)
    (error : ∀ e, x = .error e → E e s) : After (ofExcept x >>= f) s Q E := by
  apply bind
  cases x with
  | ok a => exact ok a rfl
  | error e => exact error e rfl

/-- A guard goes on or fails. -/
lemma failIf_bind {c : Prop} [Decidable c] {e : ε} {f : Unit → Program σ ε β}
    (passed : ¬ c → After (f ()) s Q E) (failed : c → E e s) : After (failIf c e >>= f) s Q E := by
  apply bind
  unfold failIf
  split
  case isTrue holds => exact failed holds
  case isFalse fails => exact passed fails

/-- The rest of a sequence starts in the modified state. -/
lemma modify_bind {g : σ → σ} {f : PUnit → Program σ ε β} (rest : After (f ⟨⟩) (g s) Q E) :
    After (modify g >>= f) s Q E :=
  bind rest

/-- Invariant rule: what a turn keeps, a loop keeps. -/
lemma loop {P : α → σ → Prop} {turn : α → Program σ ε (α ⊕ β)}
    (turns : ∀ a s, P a s → After (turn a) s (fun next t => Sum.elim (P · t) (Q · t) next) E) (n : Nat)
    {a : α} (start : P a s) :
    After (Program.loop turn n a) s (fun last t => Sum.elim (P · t) (Q · t) last) E := by
  induction n generalizing a s with
  | zero => exact pure start
  | succ n ih =>
    refine bind ((turns a s start).mono (fun next t holds => ?_) fun _ _ => id)
    cases next with
    | inl a => exact ih holds
    | inr b => exact pure holds

/-- Variant rule: turns that decrease a measure when they go on leave the loop. -/
lemma loop_stops {P : α → σ → Prop} {turn : α → Program σ ε (α ⊕ β)} (μ : α → σ → Nat)
    (turns : ∀ a s, P a s → After (turn a) s
      (fun next t => Sum.elim (fun a' => P a' t ∧ μ a' t < μ a s) (Q · t) next) E) (n : Nat)
    {a : α} (enough : μ a s < n) (start : P a s) :
    After (Program.loop turn n a) s (fun last t => ∃ b, last = .inr b ∧ Q b t) E := by
  induction n generalizing a s with
  | zero => exact absurd enough (Nat.not_lt_zero _)
  | succ n ih =>
    refine bind ((turns a s start).mono (fun next t holds => ?_) fun _ _ => id)
    cases next with
    | inl a => exact ih (Nat.lt_of_lt_of_le holds.2 (Nat.le_of_lt_succ enough)) holds.1
    | inr b => exact pure ⟨b, rfl, holds⟩

end After

end Program
