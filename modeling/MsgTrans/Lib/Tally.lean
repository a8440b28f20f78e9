import Mathlib.Algebra.BigOperators.Group.Finset.Piecewise
import Mathlib.Algebra.BigOperators.Ring.Finset
import Mathlib.Algebra.Order.BigOperators.Group.Finset

/-!
# Tallies

The total weight of the first `n` records of a family, and how it changes when one record is replaced
or a new one is added. Changes are stated with both sides added up, so that no subtraction occurs.
-/

variable {α : Type*} {weight : α → ℕ} {f g : ℕ → α} {n i : ℕ} {a : α}

/-- The total weight of the first `n` records. -/
def tally (weight : α → ℕ) (f : ℕ → α) (n : ℕ) : ℕ :=
  ∑ i ∈ Finset.range n, weight (f i)

/-- Every record keeps its weight. -/
lemma tally_congr (same : ∀ i < n, weight (g i) = weight (f i)) : tally weight g n = tally weight f n :=
  Finset.sum_congr rfl fun i mem => same i (Finset.mem_range.mp mem)

/-- One record is replaced. -/
lemma tally_update (lt : i < n) :
    tally weight (Function.update f i a) n + weight (f i) = tally weight f n + weight a := by
  have mem : i ∈ Finset.range n := Finset.mem_range.mpr lt
  have rest : ∑ j ∈ (Finset.range n).erase i, weight (Function.update f i a j) =
      ∑ j ∈ (Finset.range n).erase i, weight (f j) := by
    refine Finset.sum_congr rfl fun j other => ?_
    rw [Function.update_of_ne (Finset.ne_of_mem_erase other)]
  rw [tally, tally, ← Finset.add_sum_erase _ _ mem, ← Finset.add_sum_erase _ (fun j => _) mem, rest,
    Function.update_self]
  omega

/-- A record is added at the end. -/
lemma tally_succ : tally weight (Function.update f n a) (n + 1) = tally weight f n + weight a := by
  rw [tally, Finset.sum_range_succ, Function.update_self]
  congr 1
  refine Finset.sum_congr rfl fun j mem => ?_
  rw [Function.update_of_ne (Finset.mem_range.mp mem).ne]

/-- No record weighs anything. -/
lemma tally_eq_zero (h : ∀ i < n, weight (f i) = 0) : tally weight f n = 0 :=
  Finset.sum_eq_zero fun i mem => h i (Finset.mem_range.mp mem)

/-- One record weighs at most what all do. -/
lemma le_tally (weight : α → ℕ) (lt : i < n) : weight (f i) ≤ tally weight f n :=
  Finset.single_le_sum (f := fun i => weight (f i)) (fun _ _ => Nat.zero_le _) (Finset.mem_range.mpr lt)

/-- No record gains weight, and there was nothing beyond the first `n`. -/
lemma tally_le {m : ℕ} (longer : n ≤ m) (le : ∀ i, weight (g i) ≤ weight (f i))
    (out : ∀ i, n ≤ i → weight (f i) = 0) : tally weight g m ≤ tally weight f n := by
  have rest : tally weight f n = tally weight f m := by
    refine Finset.sum_subset (Finset.range_mono longer) fun i _ outside => ?_
    exact out i (Nat.le_of_not_lt fun lt => outside (Finset.mem_range.mpr lt))
  rw [rest]
  exact Finset.sum_le_sum fun i _ => le i

/-- Only one record gains weight. -/
lemma tally_le_add (i : ℕ) (le : ∀ j, j ≠ i → weight (g j) ≤ weight (f j)) :
    tally weight g n ≤ tally weight f n + weight (g i) := by
  calc tally weight g n
      ≤ ∑ j ∈ Finset.range n, (weight (f j) + if i = j then weight (g i) else 0) := by
        refine Finset.sum_le_sum fun j _ => ?_
        by_cases eq : i = j
        · subst eq
          simp
        · have := le j fun h => eq h.symm
          omega
    _ = tally weight f n + if i ∈ Finset.range n then weight (g i) else 0 := by
        rw [Finset.sum_add_distrib, Finset.sum_ite_eq, tally]
    _ ≤ tally weight f n + weight (g i) := by
        split <;> omega

/-- A weight is at most `k` times another. -/
lemma tally_le_mul {other : α → ℕ} {k : ℕ} (le : ∀ i < n, weight (f i) ≤ other (f i) * k) :
    tally weight f n ≤ tally other f n * k := by
  rw [tally, tally, Finset.sum_mul]
  exact Finset.sum_le_sum fun i mem => le i (Finset.mem_range.mp mem)
