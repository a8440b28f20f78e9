import Mathlib.Logic.Relation
import Mathlib.Tactic.Common

/-!
# Runs of a partial step function

States reachable by steps that each meet a guard, runs over explicit event lists, and the induction
rules: what every step preserves holds along a run, and what every micro-step of a relation
preserves holds along its reflexive-transitive closure.
-/

namespace Runs

variable {σ ε : Type*}

/-- The states reached from `s₀` by steps whose state and event all satisfy `ok`. -/
inductive Reach (step : σ → ε → Option σ) (ok : σ → ε → Prop) (s₀ : σ) : σ → Prop where
  | start : Reach step ok s₀ s₀
  | next {s e s'} : Reach step ok s₀ s → ok s e → step s e = some s' → Reach step ok s₀ s'

/-- Every state and event is allowed. -/
def always : σ → ε → Prop := fun _ _ => True

/-- The state after an explicit list of events, if each of them can happen. -/
def exec (step : σ → ε → Option σ) : σ → List ε → Option σ
  | s, [] => some s
  | s, e :: es => (step s e).bind fun s' => exec step s' es

/-- Every step of the event list meets the guard. -/
def Guarded (step : σ → ε → Option σ) (ok : σ → ε → Prop) : σ → List ε → Prop
  | _, [] => True
  | s, e :: es => ok s e ∧ ∀ s', step s e = some s' → Guarded step ok s' es

instance decidableGuarded {step : σ → ε → Option σ} {ok : σ → ε → Prop} [∀ s e, Decidable (ok s e)] :
    ∀ (s : σ) (es : List ε), Decidable (Guarded step ok s es)
  | _, [] => isTrue trivial
  | s, e :: es =>
    match st : step s e with
    | none => decidable_of_iff (ok s e) (by simp [Guarded, st])
    | some s' =>
      have : Decidable (Guarded step ok s' es) := decidableGuarded s' es
      decidable_of_iff (ok s e ∧ Guarded step ok s' es) (by simp [Guarded, st])

variable {step : σ → ε → Option σ} {ok ok' : σ → ε → Prop} {s₀ s s' : σ}

/-- Invariant rule: true at the start and kept by every allowed step. -/
lemma Reach.invariant {P : σ → Prop} (reach : Reach step ok s₀ s) (start : P s₀)
    (next : ∀ s e s', P s → ok s e → step s e = some s' → P s') : P s := by
  induction reach with
  | start => exact start
  | next _ hok st ih => exact next _ _ _ ih hok st

/-- A weaker guard reaches more. -/
lemma Reach.mono (imp : ∀ s e, ok s e → ok' s e) (reach : Reach step ok s₀ s) :
    Reach step ok' s₀ s := by
  induction reach with
  | start => exact .start
  | next _ hok st ih => exact .next ih (imp _ _ hok) st

/-- Runs compose. -/
lemma Reach.trans {s₁ : σ} (r₁ : Reach step ok s₀ s₁) (r₂ : Reach step ok s₁ s) :
    Reach step ok s₀ s := by
  induction r₂ with
  | start => exact r₁
  | next _ hok st ih => exact .next ih hok st

/-- A guarded event list that can be executed reaches its final state. -/
lemma reach_of_exec {es : List ε} (run : exec step s₀ es = some s) (guarded : Guarded step ok s₀ es) :
    Reach step ok s₀ s := by
  induction es generalizing s₀ with
  | nil =>
    cases run
    exact .start
  | cons e es ih =>
    obtain ⟨s₁, st, rest⟩ := Option.bind_eq_some_iff.mp run
    exact Reach.trans (.next .start guarded.1 st) (ih rest (guarded.2 s₁ st))

/-- A guard that no state can make the events of the list fail. -/
lemma Guarded.of_forall {es : List ε} (allowed : ∀ e ∈ es, ∀ s, ok s e) : Guarded step ok s₀ es := by
  induction es generalizing s₀ with
  | nil => exact trivial
  | cons e es ih =>
    obtain ⟨first, others⟩ := List.forall_mem_cons.mp allowed
    exact ⟨first s₀, fun _ _ => ih others⟩

/-- An executable event list reaches its final state. -/
lemma reach_always_of_exec {es : List ε} (run : exec step s₀ es = some s) :
    Reach step always s₀ s :=
  reach_of_exec run (.of_forall fun _ _ _ => trivial)

/-- Two lists of events are executed one after the other. -/
lemma exec_append (es es' : List ε) :
    exec step s (es ++ es') = (exec step s es).bind fun s' => exec step s' es' := by
  induction es generalizing s with
  | nil => rfl
  | cons e es ih => simp only [List.cons_append, exec, ih, Option.bind_assoc]

/-- The last event of a run comes after the others. -/
lemma exec_concat {es : List ε} {e : ε} (run : exec step s (es ++ [e]) = some s') :
    ∃ t, exec step s es = some t ∧ step t e = some s' := by
  rw [exec_append] at run
  obtain ⟨t, before, last⟩ := Option.bind_eq_some_iff.mp run
  obtain ⟨u, st, done⟩ := Option.bind_eq_some_iff.mp last
  cases done
  exact ⟨t, before, st⟩

/-- Two runs with one event list, from states that look alike: if a step of a state that looks alike looks
alike, or cannot happen in either, then so do the runs. -/
lemma exec_alike {α : Type*} {view : σ → α} {P : σ → Prop} {es : List ε} {t : σ}
    (keep : ∀ e ∈ es, ∀ s s', P s → step s e = some s' → P s')
    (alike : ∀ e ∈ es, ∀ s t, P s → P t → view s = view t → (step s e).map view = (step t e).map view)
    (left : P s) (right : P t) (start : view s = view t) :
    (exec step s es).map view = (exec step t es).map view := by
  induction es generalizing s t with
  | nil => exact congrArg some start
  | cons e es ih =>
    have first := alike e (List.mem_cons_self ..) s t left right start
    simp only [exec]
    cases hs : step s e with
    | none =>
      rw [hs, Option.map_none] at first
      rw [Option.map_eq_none_iff.mp first.symm]
    | some s' =>
      rw [hs, Option.map_some] at first
      obtain ⟨t', ht, same⟩ := Option.map_eq_some_iff.mp first.symm
      rw [ht]
      exact ih (fun e mem => keep e (List.mem_cons_of_mem _ mem))
        (fun e mem => alike e (List.mem_cons_of_mem _ mem))
        (keep e (List.mem_cons_self ..) s s' left hs) (keep e (List.mem_cons_self ..) t t' right ht)
        same.symm

/-- What every micro-step keeps, the closure keeps. -/
lemma star_preserves {R : σ → σ → Prop} {P : σ → Prop} (keep : ∀ s s', R s s' → P s → P s')
    (star : Relation.ReflTransGen R s s') (start : P s) : P s' := by
  induction star with
  | refl => exact start
  | tail _ st ih => exact keep _ _ st ih

end Runs
