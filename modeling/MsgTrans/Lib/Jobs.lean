import Mathlib.Data.List.Infix
import Mathlib.Tactic.Common

/-!
# Trees of jobs

Structured concurrency: a job is cancelled with its parent, and a job that fails cancels its parent too,
unless the parent is a supervisor. A job is named by the way up to the root of its tree, so that it is
below another one if the name of that one is a suffix of its own.
-/

namespace Jobs

/-- A job: `k :: p` is child number `k` of `p`. -/
abbrev Job := List Nat

/-- The job is cancelled: it, or one above it, is among the jobs that were cancelled. -/
def cancelled (roots : List Job) (job : Job) : Bool := roots.any fun root => decide (root <:+ job)

/-- The job up to which a failure of `job` is passed on. -/
def blame (supervisor : Job → Bool) : Job → Job
  | [] => []
  | k :: parent => if supervisor parent then k :: parent else blame supervisor parent

/-- Cancel a job. -/
def cancel (job : Job) (roots : List Job) : List Job := job :: roots

/-- A job ends with an exception that nothing catches. -/
def fail (supervisor : Job → Bool) (job : Job) (roots : List Job) : List Job :=
  cancel (blame supervisor job) roots

variable {roots : List Job} {supervisor : Job → Bool} {job other parent : Job} {k : Nat}

/-- A job is cancelled with an ancestor. -/
lemma cancelled_iff : cancelled roots job = true ↔ ∃ root ∈ roots, root <:+ job := by
  simp [cancelled]

/-- What a cancellation adds. -/
@[simp] lemma cancelled_cancel :
    cancelled (cancel other roots) job = true ↔ other <:+ job ∨ cancelled roots job = true := by
  simp [cancelled, cancel]

/-- A supervisor does not pass a failure below it on: what is cancelled is one of its children, or below
one. -/
lemma blame_below (supervised : supervisor parent = true) (below : (k :: parent) <:+ job) :
    (k :: parent) <:+ blame supervisor job := by
  induction job with
  | nil => exact absurd below (by simp)
  | cons l rest ih =>
    rw [blame]
    split
    case isTrue => exact below
    case isFalse passed =>
      rcases List.suffix_cons_iff.mp below with eq | below
      · cases eq
        exact absurd supervised passed
      · exact ih below

/-- Cancelling a job leaves the jobs alone that are not below it. -/
lemma cancelled_cancel_apart (apart : ¬ other <:+ job) :
    cancelled (cancel other roots) job = cancelled roots job := by
  rw [Bool.eq_iff_iff, cancelled_cancel, or_iff_right apart]

end Jobs
