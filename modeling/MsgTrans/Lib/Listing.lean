import Mathlib.Data.List.Nodup

/-!
# Lists of exactly the elements with a property

`Enlists l P`: the list `l` holds every element that satisfies `P`, once, and no other. A queue of
waiters is kept so: who starts to wait is appended, who stops waiting is removed, and a change that
makes nobody start or stop leaves the queue as it is.
-/

/-- `l` lists exactly the elements that satisfy `P`, each once. -/
structure Enlists {α : Type*} (l : List α) (P : α → Prop) : Prop where
  nodup : l.Nodup
  mem : ∀ a, a ∈ l ↔ P a

namespace Enlists

variable {α : Type*} {l : List α} {P Q : α → Prop} {a : α}

/-- Nothing is listed where nothing satisfies the predicate. -/
lemma nil (none : ∀ a, ¬ P a) : Enlists [] P :=
  ⟨List.nodup_nil, fun a => by simp [none a]⟩

/-- A predicate may be rewritten. -/
lemma congr (h : Enlists l P) (iff : ∀ a, Q a ↔ P a) : Enlists l Q :=
  ⟨h.nodup, fun a => (h.mem a).trans (iff a).symm⟩

/-- A new element joins at the back. -/
lemma append (h : Enlists l P) (new : ¬ P a) (iff : ∀ b, Q b ↔ P b ∨ b = a) :
    Enlists (l ++ [a]) Q := by
  constructor
  · have out : a ∉ l := fun mem => new ((h.mem a).mp mem)
    rw [List.nodup_append]
    exact ⟨h.nodup, List.nodup_singleton a, by grind⟩
  · intro b
    rw [List.mem_append, h.mem, List.mem_singleton, iff]

/-- An element leaves. -/
lemma erase [DecidableEq α] (h : Enlists l P) (iff : ∀ b, Q b ↔ P b ∧ b ≠ a) :
    Enlists (l.erase a) Q := by
  constructor
  · exact h.nodup.erase a
  · intro b
    rw [h.nodup.mem_erase_iff, h.mem, iff, and_comm]

/-- The first element leaves. -/
lemma tail (h : Enlists (a :: l) P) (iff : ∀ b, Q b ↔ P b ∧ b ≠ a) : Enlists l Q := by
  obtain ⟨out, nodup⟩ := List.nodup_cons.mp h.nodup
  refine ⟨nodup, fun b => ?_⟩
  rw [iff, ← h.mem, List.mem_cons]
  constructor
  · intro mem
    exact ⟨.inr mem, fun eq => out (eq ▸ mem)⟩
  · rintro ⟨mem, ne⟩
    exact mem.resolve_left ne

/-- The elements that fail a test leave. -/
lemma filter {p : α → Bool} (h : Enlists l P) (iff : ∀ b, Q b ↔ P b ∧ p b) :
    Enlists (l.filter p) Q := by
  refine ⟨h.nodup.filter p, fun b => ?_⟩
  rw [List.mem_filter, h.mem, iff]

end Enlists
