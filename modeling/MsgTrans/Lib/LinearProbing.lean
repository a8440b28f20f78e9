import Mathlib.Logic.Function.Basic
import Mathlib.Tactic.Common

/-!
# Linear probing

Open addressing in a table of `n` slots: a key is looked for from its home slot on, cyclically, up to
the first empty slot. A table is sound if every stored key is found that way (`Probed`). Filling the
slot where a probe ended keeps it sound; after a removal the cluster behind the hole is shifted back,
and `Hole` is what holds meanwhile.

The cyclic order is handled by counting positions from an empty slot `e` on: no probe crosses it, so
probes are intervals of positions.
-/

namespace LinearProbing

variable {κ : Type*}

/-- The slot after `i`. -/
def next (n i : ℕ) : ℕ := (i + 1) % n

/-- From `a` a probe gets to `b` over occupied slots. -/
inductive Run (n : ℕ) (T : ℕ → Option κ) : ℕ → ℕ → Prop where
  | here {a} : Run n T a a
  | step {a b} : T a ≠ none → Run n T (next n a) b → Run n T a b

/-- Every stored key is stored once, and a probe from its home slot gets to it. -/
structure Probed (n : ℕ) (home : κ → ℕ) (T : ℕ → Option κ) : Prop where
  unique : ∀ {i j k}, i < n → j < n → T i = some k → T j = some k → i = j
  reach : ∀ {i k}, i < n → T i = some k → Run n T (home k) i

variable {n : ℕ} {home : κ → ℕ} {T T' : ℕ → Option κ} {a b e i j s : ℕ} {k : κ}

/-! ## Positions -/

/-- The position of slot `i`, counted from the slot after `e` on; `e` itself comes last. -/
def pos (n e i : ℕ) : ℕ := if e < i then i - e - 1 else i + n - e - 1

/-- The slot after a slot is one. -/
lemma next_lt (lt : i < n) : next n i < n :=
  Nat.mod_lt _ (by omega)

/-- Behind the last slot comes the first. -/
lemma next_eq (lt : i < n) : next n i = if i + 1 = n then 0 else i + 1 := by
  unfold next
  split
  case isTrue last => rw [last, Nat.mod_self]
  case isFalse inner => exact Nat.mod_eq_of_lt (by omega)

/-- Positions go up along the slots, up to the last. -/
lemma pos_next (he : e < n) (lt : i < n) (ne : i ≠ e) : pos n e (next n i) = pos n e i + 1 := by
  rw [next_eq lt, pos, pos]
  split <;> split <;> split <;> omega

/-- Slots have different positions. -/
lemma pos_inj (hi : i < n) (hj : j < n) (eq : pos n e i = pos n e j) (he : e < n) : i = j := by
  unfold pos at eq
  split at eq <;> split at eq <;> omega

/-- The slot that positions are counted from is the last. -/
lemma pos_le (he : e < n) (lt : i < n) : pos n e i ≤ pos n e e := by
  unfold pos
  split <;> split <;> omega

/-- There are as many positions as slots. -/
lemma pos_lt (he : e < n) : pos n e e < n := by
  unfold pos
  split <;> omega

/-! ## Probes -/

/-- Filling slots does not interrupt a probe. -/
lemma Run.mono (more : ∀ i, T i ≠ none → T' i ≠ none) (run : Run n T a b) : Run n T' a b := by
  induction run with
  | here => exact .here
  | step occupied _ ih => exact .step (more _ occupied) ih

/-- The slots of a probe are an interval of positions. -/
lemma Run.between (run : Run n T a b) (he : e < n) (empty : T e = none) (lt : a < n) :
    pos n e a ≤ pos n e b ∧
      ∀ c < n, pos n e a ≤ pos n e c → pos n e c < pos n e b → T c ≠ none := by
  induction run with
  | here => exact ⟨Nat.le_refl _, fun c _ from_ to_ => by omega⟩
  | @step a b occupied _ ih =>
    have ne : a ≠ e := fun eq => occupied (eq ▸ empty)
    obtain ⟨le, inside⟩ := ih (next_lt lt)
    rw [pos_next he lt ne] at le inside
    refine ⟨by omega, fun c hc from_ to_ => ?_⟩
    by_cases first : pos n e c = pos n e a
    · rwa [pos_inj hc lt first he]
    · exact inside c hc (by omega) to_

/-- A probe gets over a stretch of occupied slots. -/
lemma Run.of_between (he : e < n) (lt : a < n) (lt' : b < n) (le : pos n e a ≤ pos n e b)
    (inside : ∀ c < n, pos n e a ≤ pos n e c → pos n e c < pos n e b → T c ≠ none) : Run n T a b := by
  induction len : pos n e b - pos n e a generalizing a with
  | zero =>
    rw [pos_inj lt lt' (by omega) he]
    exact .here
  | succ d ih =>
    have ne : a ≠ e := fun eq => by
      have := pos_le he lt'
      subst eq
      omega
    have after := pos_next he lt ne
    refine .step (inside a lt (Nat.le_refl _) (by omega)) (ih (next_lt lt) (by omega) ?_ (by omega))
    exact fun c hc from_ to_ => inside c hc (by omega) to_

/-! ## Filling the slot where a probe ended -/

/-- A key that a probe has found no place for is stored where the probe ended. -/
lemma Probed.fill [DecidableEq κ] (h : Probed n home T) (empty : T s = none)
    (run : Run n T (home k) s) (new : ∀ i < n, T i ≠ some k) :
    Probed n home (Function.update T s (some k)) := by
  have more : ∀ i, T i ≠ none → Function.update T s (some k) i ≠ none := by
    intro i occupied
    rw [Function.update_apply]
    split <;> simp_all
  constructor
  · intro i j k' hi hj at_ at'
    rw [Function.update_apply] at at_ at'
    split at at_ <;> split at at'
    case isTrue.isTrue eq eq' => rw [eq, eq']
    case isTrue.isFalse => cases at_; exact absurd at' (new j hj)
    case isFalse.isTrue => cases at'; exact absurd at_ (new i hi)
    case isFalse.isFalse => exact h.unique hi hj at_ at'
  · intro i k' hi at_
    rw [Function.update_apply] at at_
    split at at_
    case isTrue eq =>
      cases at_
      rw [eq]
      exact run.mono more
    case isFalse => exact (h.reach hi at_).mono more

/-! ## Shifting a cluster back over a hole -/

/-- While the cluster behind the hole `i` is shifted: `e` is an empty slot that stays so, the slots
from the hole to `j` have been looked at and their keys belong behind the hole, and probes may be
interrupted by the hole only. -/
structure Hole (n : ℕ) (home : κ → ℕ) (T : ℕ → Option κ) (e i j : ℕ) : Prop where
  he : e < n
  hi : i < n
  hj : j < n
  empty : T e = none
  hole : T i = none
  ahead : pos n e i < pos n e j
  unique : ∀ {i j k}, i < n → j < n → T i = some k → T j = some k → i = j
  passed : ∀ {c}, c < n → pos n e i < pos n e c → pos n e c < pos n e j → T c ≠ none
  behind : ∀ {c k}, c < n → T c = some k → pos n e i < pos n e c → pos n e c < pos n e j →
    pos n e i < pos n e (home k)
  reach : ∀ {c k}, c < n → T c = some k → pos n e (home k) ≤ pos n e c ∧
    ∀ b < n, pos n e (home k) ≤ pos n e b → pos n e b < pos n e c → T b ≠ none ∨ b = i

namespace Hole

/-- A key is removed. -/
lemma start [DecidableEq κ] (h : Probed n home T) (homes : ∀ k, home k < n) (he : e < n)
    (empty : T e = none) (hi : i < n) (at_ : T i = some k) :
    Hole n home (Function.update T i none) e i (next n i) := by
  have ne : i ≠ e := fun eq => by simp [eq, empty] at at_
  have ahead : pos n e (next n i) = pos n e i + 1 := pos_next he hi ne
  have other : ∀ {c k'}, Function.update T i none c = some k' → c ≠ i ∧ T c = some k' := by
    intro c k' held
    rw [Function.update_apply] at held
    split at held
    case isTrue => cases held
    case isFalse ne => exact ⟨ne, held⟩
  exact {
    he, hi
    hj := next_lt hi
    empty := by rw [Function.update_of_ne (Ne.symm ne), empty]
    hole := Function.update_self ..
    ahead := by omega
    unique := fun hc hd held held' => h.unique hc hd (other held).2 (other held').2
    passed := fun _ _ _ => by omega
    behind := fun _ _ _ _ => by omega
    reach := fun hc held => by
      obtain ⟨le, inside⟩ := (h.reach hc (other held).2).between he empty (homes _)
      refine ⟨le, fun b hb from_ to_ => ?_⟩
      rw [Function.update_apply]
      split
      case isTrue eq => exact .inr eq
      case isFalse => exact .inl (inside b hb from_ to_) }

/-- The key at `j` belongs behind the hole: it stays. -/
lemma stay (h : Hole n home T e i j) (at_ : T j = some k) (between : pos n e i < pos n e (home k)) :
    Hole n home T e i (next n j) := by
  have ne : j ≠ e := fun eq => by simp [eq, h.empty] at at_
  have after := pos_next h.he h.hj ne
  have ahead := h.ahead
  refine { h with hj := next_lt h.hj, ahead := by omega, passed := ?_, behind := ?_ }
  · intro c hc from_ to_
    by_cases last : pos n e c = pos n e j
    · rw [pos_inj hc h.hj last h.he, at_]
      simp
    · exact h.passed hc from_ (by omega)
  · intro c k' hc held from_ to_
    by_cases last : pos n e c = pos n e j
    · rw [pos_inj hc h.hj last h.he, at_] at held
      cases held
      exact between
    · exact h.behind hc held from_ (by omega)

/-- The key at `j` belongs before the hole: it moves there and leaves the hole behind. -/
lemma move [DecidableEq κ] (h : Hole n home T e i j) (at_ : T j = some k)
    (before : pos n e (home k) ≤ pos n e i) :
    Hole n home (Function.update (Function.update T i (some k)) j none) e j (next n j) := by
  have ne : j ≠ e := fun eq => by simp [eq, h.empty] at at_
  have after := pos_next h.he h.hj ne
  have ahead := h.ahead
  have apart : i ≠ j := fun eq => by simp [eq] at ahead
  have notEmpty : i ≠ e := fun eq => by
    have := pos_le h.he h.hj
    subst eq
    omega
  set T' := Function.update (Function.update T i (some k)) j none
  have cases_ : ∀ c, T' c = if c = j then none else if c = i then some k else T c := by
    intro c
    simp only [T', Function.update_apply]
  have held : ∀ {c k'}, T' c = some k' → c ≠ j ∧ (c = i ∧ k' = k ∨ c ≠ i ∧ T c = some k') := by
    intro c k' at_
    rw [cases_] at at_
    split at at_
    case isTrue => cases at_
    case isFalse ne =>
      split at at_
      case isTrue eq => cases at_; exact ⟨ne, .inl ⟨eq, rfl⟩⟩
      case isFalse ne' => exact ⟨ne, .inr ⟨ne', at_⟩⟩
  have occupied : ∀ b, T b ≠ none ∨ b = i → T' b ≠ none ∨ b = j := by
    intro b full
    rw [cases_]
    by_cases last : b = j
    · exact .inr last
    · refine .inl ?_
      rw [if_neg last]
      by_cases first : b = i
      · simp [first]
      · rw [if_neg first]
        exact full.resolve_right first
  exact {
    he := h.he
    hi := h.hj
    hj := next_lt h.hj
    empty := by rw [cases_, if_neg (Ne.symm ne), if_neg (Ne.symm notEmpty), h.empty]
    hole := Function.update_self ..
    ahead := by omega
    unique := fun {c d k'} hc hd at_c at_d => by
      obtain ⟨nc, ⟨rfl, rfl⟩ | ⟨_, tc⟩⟩ := held at_c <;>
        obtain ⟨nd, ⟨rfl, eq⟩ | ⟨_, td⟩⟩ := held at_d
      · rfl
      · exact absurd (h.unique hd h.hj td at_) nd
      · subst eq; exact absurd (h.unique hc h.hj tc at_) nc
      · exact h.unique hc hd tc td
    passed := fun _ _ _ => by omega
    behind := fun _ _ _ _ => by omega
    reach := fun {c k'} hc at_c => by
      obtain ⟨_, ⟨rfl, rfl⟩ | ⟨_, tc⟩⟩ := held at_c
      · -- the probe of the moved key stops earlier
        refine ⟨before, fun b hb from_ to_ => occupied b ?_⟩
        exact (h.reach h.hj at_).2 b hb from_ (by omega)
      · obtain ⟨le, inside⟩ := h.reach hc tc
        exact ⟨le, fun b hb from_ to_ => occupied b (inside b hb from_ to_)⟩ }

/-- The cluster ends at an empty slot: no probe is interrupted any more. -/
lemma stop (h : Hole n home T e i j) (homes : ∀ k, home k < n) (end_ : T j = none) :
    Probed n home T := by
  refine ⟨h.unique, fun {c k} hc held => ?_⟩
  obtain ⟨le, inside⟩ := h.reach hc held
  refine .of_between h.he (homes k) hc le fun b hb from_ to_ => ?_
  refine (inside b hb from_ to_).resolve_right ?_
  rintro rfl
  have ahead := h.ahead
  by_cases scanned : pos n e c < pos n e j
  · have := h.behind hc held to_ scanned
    omega
  · have ne : pos n e j ≠ pos n e c := fun eq => by
      rw [← pos_inj h.hj hc eq h.he, end_] at held
      cases held
    -- a probe past `j` would have crossed it
    rcases inside j h.hj (by omega) (by omega) with full | rfl
    · exact full end_
    · omega

end Hole

end LinearProbing
