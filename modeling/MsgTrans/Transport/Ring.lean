import Mathlib.Data.List.Basic
import Mathlib.Data.List.Induction
import Mathlib.Data.Nat.ModEq
import Mathlib.Tactic.Common

/-!
# The reactor's ring

Model of `Ring` (`msgtrans/transport/Ring.kt`): a FIFO in a circular array that doubles when it is
full. The array is a function of the index with its length. `Holds` is its meaning as a list, and
`Clean` says that it refers to nothing else. The integers of the code are `Int`s: every length and
index stays in their range (`ring_refines`).
-/

namespace MsgTrans

/-- Kotlin `Ring`. -/
structure Ring (α : Type) where
  items : Nat → Option α
  length : Nat
  head : Nat
  size : Nat

namespace Ring

variable {α : Type}

/-- A new ring (Kotlin `Ring(initial)`). -/
def new (initial : Int) : Ring α := ⟨fun _ => none, (max initial 4).toNat, 0, 0⟩

/-- Kotlin `grow`: the items move to the front of an array of twice the length. -/
def grow (r : Ring α) : Ring α :=
  ⟨fun i => if i < r.size then r.items ((r.head + i) % r.length) else none, r.length * 2, 0, r.size⟩

/-- The part of `addLast` after its growth test. -/
def store (x : α) (r : Ring α) : Ring α :=
  { r with
    items := Function.update r.items ((r.head + r.size) % r.length) (some x)
    size := r.size + 1 }

/-- Kotlin `addLast`. -/
def addLast (x : α) (r : Ring α) : Ring α :=
  if r.size = r.length then r.grow.store x else r.store x

/-- Kotlin `removeFirstOrNull`. -/
def removeFirstOrNull (r : Ring α) : Option α × Ring α :=
  if r.size = 0 then (none, r)
  else
    (r.items r.head, { r with
      items := Function.update r.items r.head none
      head := (r.head + 1) % r.length
      size := r.size - 1 })

/-- Kotlin `clear`: the slots of the items are emptied, one after the other. -/
def clear (r : Ring α) : Ring α :=
  { r with
    items := (List.range r.size).foldl
      (fun items i => Function.update items ((r.head + i) % r.length) none) r.items
    head := 0
    size := 0 }

/-- The items, first to last. -/
def toList (r : Ring α) : List α :=
  (List.range r.size).filterMap fun i => r.items ((r.head + i) % r.length)

/-- The ring holds the list `l`. -/
structure Holds (r : Ring α) (l : List α) : Prop where
  size : r.size = l.length
  room : r.size ≤ r.length
  pos : 0 < r.length
  head : r.head < r.length
  item : ∀ i < r.size, r.items ((r.head + i) % r.length) = l[i]?

/-- Two offsets below the length are different slots. -/
lemma offset_inj {h i j n : Nat} (hi : i < n) (hj : j < n) (eq : (h + i) % n = (h + j) % n) :
    i = j := by
  have := Nat.ModEq.add_left_cancel' h eq
  rwa [Nat.ModEq, Nat.mod_eq_of_lt hi, Nat.mod_eq_of_lt hj] at this

namespace Holds

variable {r : Ring α} {l : List α} {x : α}

/-- A new ring holds nothing. -/
lemma new (initial : Int) : (Ring.new initial : Ring α).Holds [] where
  size := rfl
  room := Nat.zero_le _
  pos := by simp only [Ring.new]; omega
  head := by simp only [Ring.new]; omega
  item i lt := by simp [Ring.new] at lt

/-- `toList` gives the list. -/
lemma toList (h : r.Holds l) : r.toList = l := by
  have values : ∀ i ∈ List.range r.size, r.items ((r.head + i) % r.length) = l[i]? :=
    fun i mem => h.item i (List.mem_range.mp mem)
  rw [Ring.toList, List.filterMap_congr values, h.size]
  clear values h
  induction l using List.reverseRecOn with
  | nil => rfl
  | append_singleton l x ih =>
    rw [List.length_append, List.length_singleton, List.range_succ, List.filterMap_append]
    congr 1
    · refine Eq.trans (List.filterMap_congr fun i mem => ?_) ih
      exact List.getElem?_append_left (List.mem_range.mp mem)
    · simp

/-- A ring that grows holds the same list. -/
lemma grow (h : r.Holds l) : r.grow.Holds l where
  size := h.size
  room := by have := h.room; simp only [Ring.grow]; omega
  pos := by have := h.pos; simp only [Ring.grow]; omega
  head := by have := h.pos; simp only [Ring.grow]; omega
  item i lt := by
    have room := h.room
    simp only [Ring.grow] at lt ⊢
    rw [Nat.zero_add, Nat.mod_eq_of_lt (by omega), if_pos lt, h.item i lt]

/-- An item is stored behind the others. -/
lemma store (h : r.Holds l) (room : r.size < r.length) : (r.store x).Holds (l ++ [x]) where
  size := by simp [Ring.store, h.size]
  room := room
  pos := h.pos
  head := h.head
  item i lt := by
    have lt : i < r.size + 1 := lt
    simp only [Ring.store]
    by_cases last : i = r.size
    · rw [last, Function.update_self, h.size]
      simp
    · have ne : (r.head + i) % r.length ≠ (r.head + r.size) % r.length :=
        fun eq => last (offset_inj (by omega) room eq)
      rw [Function.update_of_ne ne, h.item i (by omega), List.getElem?_append_left]
      rw [← h.size]
      omega

/-- `addLast` adds at the end, whether the ring grows or not. -/
lemma addLast (h : r.Holds l) : (r.addLast x).Holds (l ++ [x]) := by
  unfold Ring.addLast
  split
  case isTrue full =>
    refine h.grow.store ?_
    have := h.pos
    simp only [Ring.grow]
    omega
  case isFalse => exact h.store (Nat.lt_of_le_of_ne h.room ‹_›)

/-- There is nothing to remove from an empty ring. -/
lemma removeFirst_nil (h : r.Holds []) : r.removeFirstOrNull = (none, r) :=
  if_pos h.size

/-- `removeFirstOrNull` removes the first item. -/
lemma removeFirst_cons (h : r.Holds (x :: l)) :
    ∃ r', r.removeFirstOrNull = (some x, r') ∧ r'.Holds l := by
  have size : r.size = l.length + 1 := h.size
  have first : r.items r.head = some x := by
    simpa [Nat.mod_eq_of_lt h.head] using h.item 0 (by omega)
  rw [Ring.removeFirstOrNull, if_neg (by omega), first]
  refine ⟨_, rfl, ?_, ?_, h.pos, Nat.mod_lt _ h.pos, fun i lt => ?_⟩
  · simp only [size, Nat.add_sub_cancel]
  · have := h.room
    dsimp only
    omega
  · dsimp only at lt ⊢
    have room := h.room
    have slot : ((r.head + 1) % r.length + i) % r.length = (r.head + (i + 1)) % r.length := by
      rw [Nat.mod_add_mod, Nat.add_assoc, Nat.add_comm 1 i]
    have ne : (r.head + (i + 1)) % r.length ≠ r.head := fun eq => by
      have zero : (r.head + 0) % r.length = r.head := Nat.mod_eq_of_lt h.head
      have := offset_inj (h := r.head) (by omega) h.pos (eq.trans zero.symm)
      omega
    rw [slot, Function.update_of_ne ne, h.item (i + 1) (by omega)]
    rfl

/-- An empty ring. -/
lemma clear (h : r.Holds l) : r.clear.Holds [] where
  size := rfl
  room := Nat.zero_le _
  pos := h.pos
  head := h.pos
  item i lt := absurd lt (Nat.not_lt_zero i)

end Holds

/-! ## No reference stays behind -/

/-- Every slot outside the window of the items is null. -/
def Clean (r : Ring α) : Prop :=
  ∀ j < r.length, (∀ i < r.size, (r.head + i) % r.length ≠ j) → r.items j = none

/-- Slots emptied one after the other. -/
lemma foldl_empty (slot : Nat → Nat) (l : List Nat) (items : Nat → Option α) (j : Nat) :
    l.foldl (fun items i => Function.update items (slot i) none) items j =
      if ∃ i ∈ l, slot i = j then none else items j := by
  induction l generalizing items with
  | nil => simp
  | cons i l ih =>
    rw [List.foldl_cons, ih]
    by_cases later : ∃ i ∈ l, slot i = j
    · have among : ∃ k ∈ i :: l, slot k = j := by
        obtain ⟨k, mem, eq⟩ := later
        exact ⟨k, List.mem_cons_of_mem i mem, eq⟩
      rw [if_pos later, if_pos among]
    · rw [if_neg later, Function.update_apply]
      by_cases first : slot i = j
      · rw [if_pos first.symm, if_pos ⟨i, List.mem_cons_self, first⟩]
      · have none_ : ¬ ∃ k ∈ i :: l, slot k = j := by
          rintro ⟨k, mem, eq⟩
          rcases List.mem_cons.mp mem with rfl | mem
          · exact first eq
          · exact later ⟨k, mem, eq⟩
        rw [if_neg (Ne.symm first), if_neg none_]

namespace Clean

variable {r : Ring α} {l : List α} {x : α}

/-- A new ring is null everywhere. -/
lemma new (initial : Int) : (Ring.new initial : Ring α).Clean :=
  fun _ _ _ => rfl

/-- The new array of a ring is null outside the window. -/
lemma grow : r.grow.Clean := by
  intro j lt outside
  refine if_neg fun inside => outside j inside ?_
  simp only [Ring.grow] at lt ⊢
  rw [Nat.zero_add, Nat.mod_eq_of_lt lt]

/-- A stored item is inside the window. -/
lemma store (clean : r.Clean) : (r.store x).Clean := by
  intro j lt outside
  have last : j ≠ (r.head + r.size) % r.length := (outside r.size (Nat.lt_succ_self _)).symm
  simp only [Ring.store]
  rw [Function.update_of_ne last]
  exact clean j lt fun i inside => outside i (Nat.lt_succ_of_lt inside)

/-- `addLast` leaves no reference outside the window. -/
lemma addLast (clean : r.Clean) : (r.addLast x).Clean := by
  unfold Ring.addLast
  split
  case isTrue => exact grow.store
  case isFalse => exact clean.store

/-- `removeFirstOrNull` clears the slot it leaves. -/
lemma removeFirst (clean : r.Clean) (h : r.Holds l) : r.removeFirstOrNull.2.Clean := by
  unfold Ring.removeFirstOrNull
  split
  case isTrue => exact clean
  case isFalse some_ =>
    intro j lt outside
    dsimp only at lt outside ⊢
    by_cases first : j = r.head
    · rw [first, Function.update_self]
    · rw [Function.update_of_ne first]
      refine clean j lt fun i inside => ?_
      cases i with
      | zero =>
        rw [Nat.add_zero, Nat.mod_eq_of_lt h.head]
        exact Ne.symm first
      | succ i =>
        have other := outside i (by omega)
        rwa [Nat.mod_add_mod, Nat.add_assoc, Nat.add_comm 1 i] at other

/-- A cleared ring is null everywhere. -/
lemma clear (clean : r.Clean) : r.clear.Clean := by
  intro j lt _
  simp only [Ring.clear]
  rw [foldl_empty fun i => (r.head + i) % r.length]
  split
  case isTrue => rfl
  case isFalse outside =>
    exact clean j lt fun i inside eq => outside ⟨i, List.mem_range.mpr inside, eq⟩

end Clean

/-! ## Sequences of operations -/

/-- An operation of the ring. -/
inductive Op (α : Type) where
  | addLast (x : α)
  | removeFirstOrNull
  | clear

/-- An operation on the ring: the ring afterwards and what it returns. -/
def Op.run (r : Ring α) : Op α → Ring α × Option α
  | .addLast x => (r.addLast x, none)
  | .removeFirstOrNull => (r.removeFirstOrNull.2, r.removeFirstOrNull.1)
  | .clear => (r.clear, none)

/-- The same operation on a list. -/
def Op.runRef (l : List α) : Op α → List α × Option α
  | .addLast x => (l ++ [x], none)
  | .removeFirstOrNull => (l.tail, l.head?)
  | .clear => ([], none)

/-- A sequence of operations on the ring. -/
def runs : List (Op α) → Ring α → Ring α × List (Option α)
  | [], r => (r, [])
  | op :: ops, r =>
    let (r, x) := op.run r
    let (r, xs) := runs ops r
    (r, x :: xs)

/-- The same sequence on a list. -/
def runsRef : List (Op α) → List α → List α × List (Option α)
  | [], l => (l, [])
  | op :: ops, l =>
    let (l, x) := op.runRef l
    let (l, xs) := runsRef ops l
    (l, x :: xs)

/-- The list never has more than `2 ^ 29` items. -/
def Few : List (Op α) → List α → Prop
  | [], l => l.length ≤ 2 ^ 29
  | op :: ops, l => l.length ≤ 2 ^ 29 ∧ Few ops (op.runRef l).1

instance decidableFew : ∀ (ops : List (Op α)) (l : List α), Decidable (Few ops l)
  | [], l => inferInstanceAs (Decidable (l.length ≤ 2 ^ 29))
  | op :: ops, l =>
    have : Decidable (Few ops (op.runRef l).1) := decidableFew ops _
    inferInstanceAs (Decidable (l.length ≤ 2 ^ 29 ∧ Few ops (op.runRef l).1))

/-- The list is short to begin with. -/
lemma Few.length_le {ops : List (Op α)} {l : List α} (few : Few ops l) : l.length ≤ 2 ^ 29 := by
  cases ops with
  | nil => exact few
  | cons op ops => exact few.1

/-- The ring stands for the list: it holds its items and nothing else, in an array whose length is
within the range that `2 ^ 29` items can make it grow to. -/
structure Refines (r : Ring α) (l : List α) : Prop where
  holds : r.Holds l
  clean : r.Clean
  within : r.length ≤ 2 ^ 30

namespace Refines

variable {r : Ring α} {l : List α}

/-- A new ring. -/
lemma new {initial : Int} (small : initial ≤ 2 ^ 20) : (Ring.new initial : Ring α).Refines [] where
  holds := .new initial
  clean := .new initial
  within := by simp only [Ring.new]; omega

/-- Over short lists the array does not outgrow an `Int`. -/
lemma addLast_length_le {x : α} (h : r.Refines l) (few : l.length + 1 ≤ 2 ^ 29) :
    (r.addLast x).length ≤ 2 ^ 30 := by
  have size := h.holds.size
  have within := h.within
  unfold Ring.addLast
  split
  case isTrue full =>
    simp only [Ring.store, Ring.grow]
    omega
  case isFalse => exact within

/-- One operation. -/
lemma run (h : r.Refines l) (op : Op α) (few : (op.runRef l).1.length ≤ 2 ^ 29) :
    (op.run r).2 = (op.runRef l).2 ∧ (op.run r).1.Refines (op.runRef l).1 := by
  cases op with
  | addLast x =>
    refine ⟨rfl, h.holds.addLast, h.clean.addLast, h.addLast_length_le ?_⟩
    simpa [Op.runRef] using few
  | removeFirstOrNull =>
    have clean := h.clean.removeFirst h.holds
    cases l with
    | nil =>
      have same := h.holds.removeFirst_nil
      simp only [Op.run, Op.runRef, same]
      exact ⟨rfl, h⟩
    | cons x l =>
      obtain ⟨r', removed, holds⟩ := h.holds.removeFirst_cons
      have length : r.removeFirstOrNull.2.length = r.length := by
        unfold Ring.removeFirstOrNull
        split <;> rfl
      rw [removed] at clean length
      simp only [Op.run, Op.runRef, removed]
      exact ⟨rfl, holds, clean, length.trans_le h.within⟩
  | clear => exact ⟨rfl, h.holds.clear, h.clean.clear, h.within⟩

/-- A sequence of operations. -/
lemma runs {ops : List (Op α)} (h : r.Refines l) (few : Few ops l) :
    (Ring.runs ops r).2 = (runsRef ops l).2 ∧ (Ring.runs ops r).1.Refines (runsRef ops l).1 := by
  induction ops generalizing r l with
  | nil => exact ⟨rfl, h⟩
  | cons op ops ih =>
    obtain ⟨returned, after⟩ := h.run op few.2.length_le
    obtain ⟨later, last⟩ := ih after few.2
    exact ⟨by simp only [Ring.runs, runsRef, returned, later], last⟩

end Refines

/-- `Ring` refines a list used as a queue: after every sequence of operations that holds at most
`2 ^ 29` items at a time, each `removeFirstOrNull` has returned what the list returns, the size is its
length, the items are its items in order, and every slot outside the window of the items is null. Array
lengths and the indices before their reduction are in the range of `Int`. -/
theorem ring_refines {initial : Int} (small : initial ≤ 2 ^ 20) (ops : List (Op α))
    (few : Few ops []) :
    (runs ops (new initial)).2 = (runsRef ops []).2 ∧
      (runs ops (new initial)).1.size = (runsRef ops []).1.length ∧
      (runs ops (new initial)).1.toList = (runsRef ops []).1 ∧
      (runs ops (new initial)).1.Clean ∧
      (runs ops (new initial)).1.length ≤ 2 ^ 30 ∧
      (runs ops (new initial)).1.head + (runs ops (new initial)).1.size < 2 ^ 31 := by
  obtain ⟨returned, refines⟩ := (Refines.new small).runs few
  have holds := refines.holds
  refine ⟨returned, holds.size, holds.toList, refines.clean, refines.within, ?_⟩
  have head := holds.head
  have room := holds.room
  have within := refines.within
  omega

/-- The fifth item comes while the contents wrap around the end of the array of four, which then
doubles; what is left after two removals and a clearing is an empty array. -/
theorem ring_refines_wrap :
    (runs [.addLast 1, .addLast 2, .addLast 3, .addLast 4, .removeFirstOrNull, .addLast 5, .addLast 6,
        .removeFirstOrNull, .clear, .removeFirstOrNull] (new 4 : Ring Nat)).2 =
      [none, none, none, none, some 1, none, none, some 2, none, none] := by
  have few : Few [Op.addLast 1, .addLast 2, .addLast 3, .addLast 4, .removeFirstOrNull, .addLast 5,
      .addLast 6, .removeFirstOrNull, .clear, .removeFirstOrNull] ([] : List Nat) := by decide
  exact (ring_refines (by decide) _ few).1

end Ring

end MsgTrans
