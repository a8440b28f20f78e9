import Mathlib.Algebra.Ring.Nat
import MsgTrans.Lib.FinMap
import MsgTrans.Lib.LinearProbing

/-!
# The request registry's table

Model of `IdMap` (`msgtrans/transport/IdMap.kt`): open addressing over two arrays, linear probing with
Fibonacci hashing, backward-shift deletion. The arrays are functions of the index together with their
common length `capacity`; every index the code computes is masked to it. A loop that would not end is
`none`. The map refines a finite map (`idMap_refines`).
-/

namespace MsgTrans

open LinearProbing

/-- Kotlin `IdMap`. A slot with no value is free, whatever its key. -/
structure IdMap (V : Type) where
  keys : Nat → UInt32
  vals : Nat → Option V
  capacity : Nat
  size : Nat

namespace IdMap

variable {V : Type}

/-- The loop of `tableSize`, from `s` on, for at most `fuel` doublings. -/
def tableSizeFrom (n : Nat) : Nat → Nat → Nat
  | 0, s => s
  | fuel + 1, s => if s < n * 2 then tableSizeFrom n fuel (s * 2) else s

/-- Kotlin `tableSize`. -/
def tableSize (n : Nat) : Nat := tableSizeFrom n 32 16

/-- A new map (Kotlin `IdMap(initial)`). -/
def new (initial : Nat := 16) : IdMap V :=
  ⟨fun _ => 0, fun _ => none, tableSize initial, 0⟩

/-- `keys.size - 1`. -/
def mask (m : IdMap V) : Nat := m.capacity - 1

/-- Kotlin `slot`: Fibonacci hashing on 32-bit integers. -/
def slot (k : UInt32) (mask : Nat) : Nat := ((k * -0x61c88647) >>> 7).toNat &&& mask

/-- The probe of `set` and `remove` from slot `i` on: the first slot that is free or holds `k`. -/
def probe (m : IdMap V) (k : UInt32) : Nat → Nat → Option Nat
  | 0, _ => none
  | fuel + 1, i =>
    match m.vals i with
    | none => some i
    | some _ => if m.keys i = k then some i else m.probe k fuel ((i + 1) &&& m.mask)

/-- The part of `set` after its growth test. -/
def put (id : UInt32) (v : V) (m : IdMap V) : Option (IdMap V) :=
  (m.probe id m.capacity (slot id m.mask)).map fun i =>
    match m.vals i with
    | some _ => { m with vals := Function.update m.vals i (some v) }
    | none =>
      { m with
        keys := Function.update m.keys i id
        vals := Function.update m.vals i (some v)
        size := m.size + 1 }

/-- The growth test of `set`. -/
def full (m : IdMap V) : Bool := decide ((m.size + 1) * 2 > m.capacity)

/-- The empty table of twice the size. -/
def doubled (m : IdMap V) : IdMap V := ⟨fun _ => 0, fun _ => none, m.capacity * 2, 0⟩

/-- One turn of the loop of `grow`: the entry of slot `i` is `set` in the bigger table. There the growth
test of `set` never holds; the model would stop if it did. -/
def reinsert (m bigger : IdMap V) (i : Nat) : Option (IdMap V) :=
  match m.vals i with
  | none => some bigger
  | some v => if bigger.full then none else bigger.put (m.keys i) v

/-- Kotlin `grow`: every entry is `set` again in a table of twice the size. -/
def grow (m : IdMap V) : Option (IdMap V) := (List.range m.capacity).foldlM m.reinsert m.doubled

/-- Kotlin `set`. -/
def set (id : UInt32) (v : V) (m : IdMap V) : Option (IdMap V) :=
  if m.full then m.grow.bind (put id v) else m.put id v

/-- The `between` test of `remove`: the home slot is one after the hole `i`, up to `j`. -/
def between (mask i j home : Nat) : Bool :=
  if i ≤ j then decide (i + 1 ≤ home ∧ home ≤ j)
  else decide ((i + 1 ≤ home ∧ home ≤ mask) ∨ home ≤ j)

/-- The loop of `remove` that shifts the cluster after the hole `i` back, from `j` on. -/
def shift : Nat → Nat → Nat → IdMap V → Option (IdMap V)
  | 0, _, _, _ => none
  | fuel + 1, i, j, m =>
    match m.vals j with
    | none => some m
    | some v =>
      if between m.mask i j (slot (m.keys j) m.mask) then shift fuel i ((j + 1) &&& m.mask) m
      else
        shift fuel j ((j + 1) &&& m.mask) { m with
          keys := Function.update m.keys i (m.keys j)
          vals := Function.update (Function.update m.vals i (some v)) j none }

/-- Kotlin `remove`: the map afterwards and the value removed. -/
def remove (id : UInt32) (m : IdMap V) : Option (IdMap V × Option V) :=
  (m.probe id m.capacity (slot id m.mask)).bind fun i =>
    match m.vals i with
    | none => some (m, none)
    | some v =>
      (shift m.capacity i ((i + 1) &&& m.mask)
        { m with vals := Function.update m.vals i none, size := m.size - 1 }).map fun m => (m, some v)

/-- Kotlin `forEachValue`: the values visited, in order. -/
def forEachValue (m : IdMap V) : List V := (List.range m.capacity).filterMap m.vals

/-- Kotlin `clear`. -/
def clear (m : IdMap V) : IdMap V := { m with vals := fun _ => none, size := 0 }

/-- The key stored in each slot, if it is taken. -/
def table (m : IdMap V) (i : Nat) : Option UInt32 := (m.vals i).map fun _ => m.keys i

/-- The home slot of a key in a table of `n` slots. -/
def home (n : Nat) (k : UInt32) : Nat := slot k (n - 1)

/-- The map holds the entries of `ref`. -/
def Holds (m : IdMap V) (ref : FinMap UInt32 V) : Prop :=
  ∀ k v, (∃ i < m.capacity, m.vals i = some v ∧ m.keys i = k) ↔ ref.find k = some v

/-- The map represents `ref`: the table is a power of two and at most half full, it holds the entries
of `ref`, and every key is stored once and found from its home slot. -/
structure Refines (m : IdMap V) (ref : FinMap UInt32 V) : Prop where
  pow : ∃ b, m.capacity = 2 ^ b
  load : m.size * 2 ≤ m.capacity
  size : m.size = ref.size
  probed : Probed m.capacity (home m.capacity) m.table
  holds : m.Holds ref

variable {m m' : IdMap V} {ref : FinMap UInt32 V} {id k : UInt32} {v : V} {a e i j s n : Nat}

/-- A slot with a value is taken by its key. -/
lemma table_eq_some : m.table i = some k ↔ ∃ v, m.vals i = some v ∧ m.keys i = k := by
  simp [table, Option.map_eq_some_iff]

/-- A slot without a value is free. -/
lemma table_eq_none : m.table i = none ↔ m.vals i = none := by
  simp [table]

/-! ## Indices -/

/-- The mask is the remainder by the capacity. -/
lemma and_mask (pow : ∃ b, m.capacity = 2 ^ b) (i : Nat) : i &&& m.mask = i % m.capacity := by
  obtain ⟨b, eq⟩ := pow
  rw [mask, eq, Nat.and_two_pow_sub_one_eq_mod]

/-- A table has slots. -/
lemma capacity_pos (pow : ∃ b, m.capacity = 2 ^ b) : 0 < m.capacity := by
  obtain ⟨b, eq⟩ := pow
  rw [eq]
  exact Nat.two_pow_pos b

/-- A home slot is a slot of the table. -/
lemma home_lt (pow : ∃ b, m.capacity = 2 ^ b) (k : UInt32) : home m.capacity k < m.capacity := by
  have masked := and_mask pow ((k * -0x61c88647) >>> 7).toNat
  rw [mask] at masked
  rw [home, slot, masked]
  exact Nat.mod_lt _ (capacity_pos pow)

/-- The code's test for a home slot behind the hole. -/
lemma between_iff (hi : i < n) (hj : j < n) (hk : a < n) (he : e < n) (ahead : pos n e i < pos n e j)
    (le : pos n e a ≤ pos n e j) : between (n - 1) i j a ↔ pos n e i < pos n e a := by
  unfold between pos at *
  split at ahead <;> split at ahead <;> split at le <;> split <;> simp only [decide_eq_true_eq] <;>
    omega

/-! ## Probing -/

/-- A probe ends, at the slot that holds the key if there is one and at a free slot otherwise. -/
lemma probe_spec (pow : ∃ b, m.capacity = 2 ^ b)
    (probed : Probed m.capacity (home m.capacity) m.table) (he : e < m.capacity)
    (empty : m.table e = none) {fuel : Nat} (lt : a < m.capacity)
    (enough : pos m.capacity e e < pos m.capacity e a + fuel) :
    ∃ s < m.capacity, m.probe k fuel a = some s ∧ Run m.capacity m.table a s ∧
      (m.table s = none ∨ m.table s = some k) ∧
      ∀ i < m.capacity, m.table i = some k → Run m.capacity m.table a i → i = s := by
  -- the free slot `e` comes last in the order of the probe, so the fuel lasts up to it
  induction fuel generalizing a with
  | zero =>
    have := pos_le he lt
    omega
  | succ fuel ih =>
    unfold probe
    cases value : m.vals a with
    | none =>
      have free := table_eq_none.mpr value
      refine ⟨a, lt, rfl, .here, .inl free, fun i _ _ run => ?_⟩
      cases run with
      | here => rfl
      | step occupied _ => exact absurd free occupied
    | some w =>
      have taken : m.table a = some (m.keys a) := table_eq_some.mpr ⟨w, value, rfl⟩
      by_cases eq : m.keys a = k
      · rw [if_pos eq]
        rw [eq] at taken
        exact ⟨a, lt, rfl, .here, .inr taken, fun i hi held _ => probed.unique hi lt held taken⟩
      · have ne : a ≠ e := fun eq => by simp [eq, empty] at taken
        have after := pos_next he lt ne
        have masked : (a + 1) &&& m.mask = next m.capacity a := and_mask pow (a + 1)
        obtain ⟨s, hs, found, run, at_, only⟩ := ih (next_lt lt) (by omega)
        rw [if_neg eq, masked]
        have occupied : m.table a ≠ none := by simp [taken]
        refine ⟨s, hs, found, .step occupied run, at_, fun i hi held run => ?_⟩
        cases run with
        | here =>
          rw [taken] at held
          exact absurd (Option.some.inj held) eq
        | step _ run => exact only i hi held run

namespace Refines

/-- The entries, in slot order. -/
def entries (m : IdMap V) : List (UInt32 × V) :=
  (List.range m.capacity).filterMap fun i => (m.vals i).map fun v => (m.keys i, v)

/-- The table holds each entry of the finite map once. -/
lemma entries_perm (h : m.Refines ref) : (entries m).Perm ref.pairs := by
  have nodup : (entries m).Nodup := by
    refine List.pairwise_filterMap.mpr (List.nodup_range.imp_of_mem fun {i j} hi hj ne => ?_)
    rintro ⟨k, v⟩ held _ held' rfl
    obtain ⟨w, value, eq⟩ := Option.map_eq_some_iff.mp held
    obtain ⟨w', value', eq'⟩ := Option.map_eq_some_iff.mp held'
    refine ne (h.probed.unique (List.mem_range.mp hi) (List.mem_range.mp hj)
      (table_eq_some.mpr ⟨w, value, congrArg Prod.fst eq⟩)
      (table_eq_some.mpr ⟨w', value', congrArg Prod.fst eq'⟩))
  refine (List.perm_ext_iff_of_nodup nodup (FinMap.nodup_pairs ref)).mpr ?_
  rintro ⟨k, v⟩
  rw [FinMap.mem_pairs, ← h.holds k v]
  simp only [entries, List.mem_filterMap, List.mem_range, Option.map_eq_some_iff, Prod.mk.injEq]
  constructor
  · rintro ⟨i, hi, w, value, key, rfl⟩
    exact ⟨i, hi, value, key⟩
  · rintro ⟨i, hi, value, key⟩
    exact ⟨i, hi, v, value, key, rfl⟩

/-- A table that is at most half full has a free slot. -/
lemma exists_free (h : m.Refines ref) : ∃ e < m.capacity, m.table e = none := by
  by_contra none
  have all : ∀ i ∈ List.range m.capacity,
      ((m.vals i).map fun v => (m.keys i, v)).isSome = true := by
    intro i mem
    have taken : m.table i ≠ Option.none := fun free => none ⟨i, List.mem_range.mp mem, free⟩
    rw [Option.isSome_map, Option.isSome_iff_ne_none]
    exact fun free => taken (table_eq_none.mpr free)
  have length : (entries m).length = m.capacity := by
    rw [entries, List.filterMap_length_eq_length.mpr all, List.length_range]
  have load := h.load
  have pos := capacity_pos h.pow
  rw [h.entries_perm.length_eq, FinMap.length_pairs, ← h.size] at length
  omega

/-- Where a probe from the home slot of `id` ends: at its entry, or at a free slot if it has none. -/
lemma probe (h : m.Refines ref) (id : UInt32) : ∃ s < m.capacity,
    m.probe id m.capacity (slot id m.mask) = some s ∧
    Run m.capacity m.table (home m.capacity id) s ∧
    (m.table s = none ∨ m.table s = some id) ∧ ∀ i < m.capacity, m.table i = some id → i = s := by
  obtain ⟨e, he, free⟩ := h.exists_free
  have enough : pos m.capacity e e < pos m.capacity e (home m.capacity id) + m.capacity := by
    have := pos_lt he
    omega
  obtain ⟨s, hs, found, run, at_, only⟩ :=
    probe_spec (k := id) h.pow h.probed he free (home_lt h.pow id) enough
  exact ⟨s, hs, found, run, at_, fun i hi held => only i hi held (h.probed.reach hi held)⟩

/-- A probe that ends at a free slot was for a key that is not there. -/
lemma find_eq_none (h : m.Refines ref) (only : ∀ i < m.capacity, m.table i = some id → i = s)
    (free : m.table s = none) : ref.find id = none := by
  rw [Option.eq_none_iff_forall_ne_some]
  intro v found
  obtain ⟨i, hi, value, key⟩ := (h.holds id v).mpr found
  have held : m.table i = some id := table_eq_some.mpr ⟨v, value, key⟩
  rw [only i hi held, free] at held
  cases held

/-- Writing an entry where the probe of its key ended. -/
lemma holds_set (h : m.Holds ref) (hs : s < m.capacity)
    (at_ : m.table s = none ∨ m.table s = some id)
    (only : ∀ i < m.capacity, m.table i = some id → i = s) (capacity : m'.capacity = m.capacity)
    (keys : m'.keys = Function.update m.keys s id)
    (vals : m'.vals = Function.update m.vals s (some v)) : m'.Holds (ref.set id v) := by
  intro k w
  rw [capacity, keys, vals, FinMap.find_set]
  constructor
  · rintro ⟨i, hi, value, key⟩
    by_cases eq : i = s
    · subst eq
      rw [Function.update_self] at value key
      rw [if_pos key.symm, value]
    · rw [Function.update_of_ne eq] at value key
      have ne : k ≠ id := fun same =>
        eq (only i hi (table_eq_some.mpr ⟨w, value, key.trans same⟩))
      rw [if_neg ne]
      exact (h k w).mp ⟨i, hi, value, key⟩
  · intro found
    split at found
    case isTrue eq =>
      exact ⟨s, hs, by rw [Function.update_self, found], by rw [Function.update_self, eq]⟩
    case isFalse ne =>
      obtain ⟨i, hi, value, key⟩ := (h k w).mpr found
      have other : i ≠ s := by
        rintro rfl
        have held : m.table i = some k := table_eq_some.mpr ⟨w, value, key⟩
        rcases at_ with free | own
        · rw [free] at held; cases held
        · rw [own] at held; exact ne (Option.some.inj held).symm
      exact ⟨i, hi, by rw [Function.update_of_ne other, value],
        by rw [Function.update_of_ne other, key]⟩

/-- `set` without growing. -/
lemma put (h : m.Refines ref) (room : (m.size + 1) * 2 ≤ m.capacity) (id : UInt32) (v : V) :
    ∃ m', m.put id v = some m' ∧ m'.capacity = m.capacity ∧ m'.Refines (ref.set id v) := by
  obtain ⟨s, hs, found, run, at_, only⟩ := h.probe id
  unfold IdMap.put
  rw [found, Option.map_some]
  cases value : m.vals s with
  | none =>
    have free := table_eq_none.mpr value
    have absent := h.find_eq_none only free
    set m' : IdMap V := { m with
      keys := Function.update m.keys s id
      vals := Function.update m.vals s (some v)
      size := m.size + 1 }
    have table : m'.table = Function.update m.table s (some id) := by
      funext i
      by_cases eq : i = s <;> simp [IdMap.table, m', eq]
    refine ⟨m', rfl, rfl, h.pow, room, ?_, ?_, holds_set h.holds hs at_ only rfl rfl rfl⟩
    · rw [FinMap.size_set_of_find_none absent, ← h.size]
    · rw [table]
      refine h.probed.fill free run fun i hi held => ?_
      rw [only i hi held, free] at held
      cases held
  | some w =>
    have key : m.keys s = id := by
      rcases at_ with free | own
      · rw [table_eq_none.mp free] at value; cases value
      · exact (table_eq_some.mp own).choose_spec.2
    have present : ref.find id = some w := (h.holds id w).mp ⟨s, hs, value, key⟩
    set m' : IdMap V := { m with vals := Function.update m.vals s (some v) }
    have table : m'.table = m.table := by
      funext i
      by_cases eq : i = s <;> simp [IdMap.table, m', eq, value]
    have keys : m'.keys = Function.update m.keys s id := by
      rw [← key, Function.update_eq_self]
    refine ⟨m', rfl, rfl, h.pow, h.load, ?_, ?_, holds_set h.holds hs at_ only rfl keys rfl⟩
    · rw [FinMap.size_set_of_find present, ← h.size]
    · rw [table]
      exact h.probed

/-- An empty table of `2 ^ b` slots. -/
lemma empty {b : Nat} (keys : Nat → UInt32) (capacity : n = 2 ^ b) :
    Refines (⟨keys, fun _ => none, n, 0⟩ : IdMap V) ∅ where
  pow := ⟨b, capacity⟩
  load := Nat.zero_le _
  size := rfl
  probed := ⟨fun _ _ held => by simp [table] at held, fun _ held => by simp [table] at held⟩
  holds k v := by simp

/-- A finite map with the same entries is represented too. -/
lemma of_find {ref' : FinMap UInt32 V} (h : m.Refines ref)
    (same : ∀ k v, ref.find k = some v ↔ ref'.find k = some v) : m.Refines ref' where
  pow := h.pow
  load := h.load
  size := h.size.trans (Nat.le_antisymm (FinMap.size_le fun k v => (same k v).mp)
    (FinMap.size_le fun k v => (same k v).mpr))
  probed := h.probed
  holds k v := (h.holds k v).trans (same k v)

/-- A table of twice the slots with entries of the old one is not full. -/
lemma room_of_twice {bigger : IdMap V} {part : FinMap UInt32 V} (h : m.Refines ref)
    (twice : bigger.capacity = m.capacity * 2) (built : bigger.Refines part)
    (some_ : ∀ k v, part.find k = some v → ref.find k = some v) :
    (bigger.size + 1) * 2 ≤ bigger.capacity := by
  have fewer := FinMap.size_le some_
  have load := h.load
  have pos := capacity_pos h.pow
  rw [twice, built.size]
  rw [h.size] at load
  omega

/-- A table that is at most half full with one more key is not full. -/
lemma full_eq_false (room : (m.size + 1) * 2 ≤ m.capacity) : m.full = false := by
  simpa [IdMap.full] using room

/-- What `grow` has moved after it has looked at the slots `l`. -/
lemma grow_slots (h : m.Refines ref) {l : List Nat} {bigger : IdMap V} {part : FinMap UInt32 V}
    (sub : ∀ i ∈ l, i < m.capacity) (twice : bigger.capacity = m.capacity * 2)
    (built : bigger.Refines part) (some_ : ∀ k v, part.find k = some v → ref.find k = some v) :
    ∃ m' part', l.foldlM m.reinsert bigger = some m' ∧ m'.capacity = m.capacity * 2 ∧
      m'.Refines part' ∧ (∀ k v, part'.find k = some v → ref.find k = some v) ∧
      (∀ k v, part.find k = some v → part'.find k = some v) ∧
      ∀ i ∈ l, ∀ v, m.vals i = some v → part'.find (m.keys i) = some v := by
  -- `part` are the entries moved so far
  induction l generalizing bigger part with
  | nil => exact ⟨bigger, part, rfl, twice, built, some_, fun _ _ => id, by simp⟩
  | cons i l ih =>
    have later : ∀ j ∈ l, j < m.capacity := fun j mem => sub j (List.mem_cons_of_mem i mem)
    rw [List.foldlM_cons, reinsert]
    cases value : m.vals i with
    | none =>
      obtain ⟨m', part', moved, twice', built', some', kept, all⟩ := ih later twice built some_
      refine ⟨m', part', moved, twice', built', some', kept, fun j mem v held => ?_⟩
      rcases List.mem_cons.mp mem with rfl | mem
      · rw [value] at held
        cases held
      · exact all j mem v held
    | some v =>
      have found : ref.find (m.keys i) = some v := (h.holds _ v).mp ⟨i, sub i (by simp), value, rfl⟩
      have room := h.room_of_twice twice built some_
      have notFull := full_eq_false room
      obtain ⟨next, put, same, refines⟩ := built.put room (m.keys i) v
      have some_' : ∀ k w, (part.set (m.keys i) v).find k = some w → ref.find k = some w := by
        intro k w held
        rw [FinMap.find_set] at held
        split at held
        case isTrue eq => rw [eq, ← held, found]
        case isFalse => exact some_ k w held
      obtain ⟨m', part', moved, twice', built', some', kept, all⟩ :=
        ih later (same.trans twice) refines some_'
      refine ⟨m', part', ?_, twice', built', some', fun k w held => ?_, fun j mem w held => ?_⟩
      · simpa [notFull, put] using moved
      · -- an entry moved before is not overwritten: the old table has one value for its key
        apply kept
        rw [FinMap.find_set]
        split
        case isTrue eq =>
          have := some_ k w held
          rw [eq, found] at this
          exact this
        case isFalse => exact held
      · rcases List.mem_cons.mp mem with rfl | mem
        · rw [value] at held
          cases held
          exact kept _ _ FinMap.find_set_self
        · exact all j mem w held

/-- The new table is empty. -/
lemma doubled (h : m.Refines ref) : m.doubled.Refines ∅ := by
  obtain ⟨b, pow⟩ := h.pow
  exact empty (b := b + 1) _ (by rw [pow, Nat.pow_succ])

/-- `grow` ends, and the table of twice the size represents the same map. -/
lemma grow (h : m.Refines ref) :
    ∃ m', m.grow = some m' ∧ m'.capacity = m.capacity * 2 ∧ m'.Refines ref := by
  obtain ⟨m', part, moved, twice, built, some_, _, all⟩ :=
    h.grow_slots (l := List.range m.capacity) (by simp) rfl h.doubled (by simp)
  refine ⟨m', moved, twice, built.of_find fun k v => ⟨some_ k v, fun found => ?_⟩⟩
  obtain ⟨i, hi, value, rfl⟩ := (h.holds k v).mpr found
  exact all i (List.mem_range.mpr hi) v value

/-- `set` ends, and the table represents the map with the entry set; it has grown only if it was
full. -/
lemma set (h : m.Refines ref) (id : UInt32) (v : V) : ∃ m', m.set id v = some m' ∧
    (m'.capacity = m.capacity ∨ m'.capacity = m.capacity * 2 ∧ m.capacity < (m.size + 1) * 2) ∧
    m'.Refines (ref.set id v) := by
  unfold IdMap.set
  split
  case isTrue full =>
    obtain ⟨bigger, grown, twice, refines⟩ := h.grow
    have room := h.room_of_twice twice refines fun _ _ held => held
    obtain ⟨m', put, same, refines'⟩ := refines.put room id v
    refine ⟨m', by rw [grown, Option.bind_some, put], .inr ⟨same.trans twice, ?_⟩, refines'⟩
    simpa [IdMap.full] using full
  case isFalse notFull =>
    obtain ⟨m', put, same, refines⟩ := h.put (by simpa [IdMap.full] using notFull) id v
    exact ⟨m', put, .inl same, refines⟩

/-- A cleared table represents the empty map. -/
lemma clear (h : m.Refines ref) : m.clear.Refines ∅ := by
  obtain ⟨b, pow⟩ := h.pow
  exact empty m.keys pow

/-! ## Removal -/

/-- Moving an entry to a free slot. -/
lemma holds_move (h : m.Holds ref) (hi : i < m.capacity) (hj : j < m.capacity) (ne : i ≠ j)
    (free : m.vals i = none) (value : m.vals j = some v) (capacity : m'.capacity = m.capacity)
    (keys : m'.keys = Function.update m.keys i (m.keys j))
    (vals : m'.vals = Function.update (Function.update m.vals i (some v)) j none) : m'.Holds ref := by
  intro k w
  rw [capacity, keys, vals, ← h k w]
  constructor
  · rintro ⟨c, hc, held, key⟩
    by_cases last : c = j
    · simp [last] at held
    · rw [Function.update_of_ne last] at held
      by_cases first : c = i
      · rw [first, Function.update_self] at held key
        exact ⟨j, hj, value.trans held, key⟩
      · rw [Function.update_of_ne first] at held key
        exact ⟨c, hc, held, key⟩
  · rintro ⟨c, hc, held, key⟩
    by_cases last : c = j
    · rw [last, value] at held
      refine ⟨i, hi, ?_, ?_⟩
      · rw [Function.update_of_ne ne, Function.update_self, held]
      · rw [Function.update_self, ← last, key]
    · have first : c ≠ i := by
        rintro rfl
        rw [free] at held
        cases held
      refine ⟨c, hc, ?_, ?_⟩
      · rw [Function.update_of_ne last, Function.update_of_ne first, held]
      · rw [Function.update_of_ne first, key]

/-- Shifting the cluster back keeps the entries and restores the probes. -/
lemma shift {fuel : Nat} {m : IdMap V} {i j : Nat} (pow : ∃ b, m.capacity = 2 ^ b)
    (hole : Hole m.capacity (home m.capacity) m.table e i j) (holds : m.Holds ref)
    (enough : pos m.capacity e e < pos m.capacity e j + fuel) :
    ∃ m', IdMap.shift fuel i j m = some m' ∧ m'.capacity = m.capacity ∧ m'.size = m.size ∧
      Probed m.capacity (home m.capacity) m'.table ∧ m'.Holds ref := by
  -- `i` is the hole and `j` the slot that is looked at; `e` is free and ends the cluster
  induction fuel generalizing m i j with
  | zero =>
    have := pos_le hole.he hole.hj
    omega
  | succ fuel ih =>
    unfold IdMap.shift
    cases value : m.vals j with
    | none =>
      exact ⟨m, rfl, rfl, rfl, hole.stop (home_lt pow) (table_eq_none.mpr value), holds⟩
    | some v =>
      have at_ : m.table j = some (m.keys j) := table_eq_some.mpr ⟨v, value, rfl⟩
      have ne : j ≠ e := fun eq => by simp [eq, hole.empty] at at_
      have after := pos_next hole.he hole.hj ne
      have masked : (j + 1) &&& m.mask = next m.capacity j := and_mask pow (j + 1)
      have test := between_iff hole.hi hole.hj (home_lt pow (m.keys j)) hole.he hole.ahead
        (hole.reach hole.hj at_).1
      dsimp only
      rw [masked]
      change ∃ m', (if between (m.capacity - 1) i j (home m.capacity (m.keys j)) then _ else _) =
        some m' ∧ _
      split
      -- the key's home is behind the hole, so a probe for it does not come past the hole
      case isTrue behind => exact ih pow (hole.stay at_ (test.mp behind)) holds (by omega)
      case isFalse before =>
        -- the entry fills the hole and leaves one where it was
        set m₁ : IdMap V := { m with
          keys := Function.update m.keys i (m.keys j)
          vals := Function.update (Function.update m.vals i (some v)) j none }
        have table : m₁.table =
            Function.update (Function.update m.table i (some (m.keys j))) j none := by
          funext c
          by_cases last : c = j
          · simp [IdMap.table, m₁, last]
          · by_cases first : c = i
            · subst first
              simp [IdMap.table, m₁, Function.update_of_ne last]
            · simp [IdMap.table, m₁, last, first]
        have moved : Hole m₁.capacity (home m₁.capacity) m₁.table e j (next m.capacity j) := by
          rw [table]
          exact hole.move at_ (Nat.not_lt.mp fun lt => before (test.mpr lt))
        have apart : i ≠ j := fun eq => by
          have := hole.ahead
          simp [eq] at this
        have holds₁ : m₁.Holds ref := holds_move holds hole.hi hole.hj apart
          (table_eq_none.mp hole.hole) value rfl rfl rfl
        have enough₁ : pos m.capacity e e < pos m.capacity e (next m.capacity j) + fuel := by omega
        exact ih (m := m₁) pow moved holds₁ enough₁

/-- `remove` ends with the entry of the map, and the table represents the map without it. -/
lemma remove (h : m.Refines ref) (id : UInt32) : ∃ m', m.remove id = some (m', ref.find id) ∧
    m'.capacity = m.capacity ∧ m'.Refines (ref.remove id) := by
  obtain ⟨s, hs, found, _, at_, only⟩ := h.probe id
  unfold IdMap.remove
  rw [found, Option.bind_some]
  cases value : m.vals s with
  | none =>
    have absent := h.find_eq_none only (table_eq_none.mpr value)
    rw [absent, FinMap.remove_of_find_none absent]
    exact ⟨m, rfl, rfl, h⟩
  | some v =>
    have own : m.table s = some id := at_.resolve_left fun free => by
      rw [table_eq_none.mp free] at value
      cases value
    have key : m.keys s = id := (table_eq_some.mp own).choose_spec.2
    have present : ref.find id = some v := (h.holds id v).mp ⟨s, hs, value, key⟩
    have fewer := FinMap.size_remove_of_find present
    obtain ⟨e, he, free⟩ := h.exists_free
    set m₁ : IdMap V := { m with vals := Function.update m.vals s none, size := m.size - 1 }
    have table : m₁.table = Function.update m.table s none := by
      funext c
      by_cases eq : c = s <;> simp [IdMap.table, m₁, eq]
    -- the removed entry leaves a hole in its cluster, up to a free slot `e`
    have hole : Hole m₁.capacity (home m₁.capacity) m₁.table e s (next m.capacity s) := by
      rw [table]
      exact .start h.probed (home_lt h.pow) he free hs own
    have holds : m₁.Holds (ref.remove id) := by
      intro k w
      rw [FinMap.find_remove]
      constructor
      · rintro ⟨c, hc, held, key⟩
        have ne : c ≠ s := by
          rintro rfl
          simp [m₁] at held
        have held : m.vals c = some w := by rwa [← Function.update_of_ne ne none m.vals]
        rw [if_neg fun eq => ne (only c hc (table_eq_some.mpr ⟨w, held, key.trans eq⟩))]
        exact (h.holds k w).mp ⟨c, hc, held, key⟩
      · intro found
        split at found
        case isTrue => cases found
        case isFalse other =>
          obtain ⟨c, hc, held, key'⟩ := (h.holds k w).mpr found
          have ne : c ≠ s := by
            rintro rfl
            exact other (key'.symm.trans key)
          exact ⟨c, hc, by rw [← held]; exact Function.update_of_ne ne none m.vals, key'⟩
    have enough : pos m.capacity e e < pos m.capacity e (next m.capacity s) + m.capacity := by
      have := pos_lt he
      omega
    obtain ⟨m', shifted, capacity, size, probed, holds'⟩ := shift (m := m₁) h.pow hole holds enough
    have masked : (s + 1) &&& m.mask = next m.capacity s := and_mask h.pow (s + 1)
    refine ⟨m', by rw [masked, shifted, present]; rfl, capacity, ?_, ?_, ?_, ?_, holds'⟩
    · rw [capacity]
      exact h.pow
    · have load := h.load
      rw [capacity, size]
      change (m.size - 1) * 2 ≤ m.capacity
      omega
    · have same := h.size
      rw [size]
      change m.size - 1 = _
      omega
    · rw [capacity]
      exact probed

end Refines

/-! ## Runs of operations -/

/-- An operation of the map. -/
inductive Op (V : Type) where
  | set (id : UInt32) (v : V)
  | remove (id : UInt32)
  | clear

/-- An operation on the table: the table afterwards and what it returns. -/
def Op.run (m : IdMap V) : Op V → Option (IdMap V × Option V)
  | .set id v => (m.set id v).map fun m => (m, none)
  | .remove id => m.remove id
  | .clear => some (m.clear, none)

/-- The same operation on a finite map. -/
def Op.runRef (ref : FinMap UInt32 V) : Op V → FinMap UInt32 V × Option V
  | .set id v => (ref.set id v, none)
  | .remove id => (ref.remove id, ref.find id)
  | .clear => (∅, none)

/-- A sequence of operations on the table. -/
def runs : List (Op V) → IdMap V → Option (IdMap V × List (Option V))
  | [], m => some (m, [])
  | op :: ops, m =>
    (op.run m).bind fun (m, r) => (runs ops m).map fun (m, rs) => (m, r :: rs)

/-- The same sequence on a finite map. -/
def runsRef : List (Op V) → FinMap UInt32 V → FinMap UInt32 V × List (Option V)
  | [], ref => (ref, [])
  | op :: ops, ref =>
    let (ref, r) := op.runRef ref
    let (ref, rs) := runsRef ops ref
    (ref, r :: rs)

/-- The finite map never holds `2 ^ 29` keys. -/
def Few : List (Op V) → FinMap UInt32 V → Prop
  | [], ref => ref.size < 2 ^ 29
  | op :: ops, ref => ref.size < 2 ^ 29 ∧ Few ops (op.runRef ref).1

instance decidableFew : ∀ (ops : List (Op V)) (ref : FinMap UInt32 V), Decidable (Few ops ref)
  | [], ref => inferInstanceAs (Decidable (ref.size < 2 ^ 29))
  | op :: ops, ref =>
    have : Decidable (Few ops (op.runRef ref).1) := decidableFew ops _
    inferInstanceAs (Decidable (ref.size < 2 ^ 29 ∧ Few ops (op.runRef ref).1))

/-- At the end of the operations the map is small. -/
lemma Few.last {ops : List (Op V)} (few : Few ops ref) : (runsRef ops ref).1.size < 2 ^ 29 := by
  induction ops generalizing ref with
  | nil => exact few
  | cons op ops ih => exact ih few.2

/-- A full table of fewer than `2 ^ 29` ids can be doubled within `2 ^ 30` slots. -/
lemma Refines.twice_le (h : m.Refines ref) (small : ref.size < 2 ^ 29)
    (full : m.capacity < (m.size + 1) * 2) : m.capacity * 2 ≤ 2 ^ 30 := by
  obtain ⟨b, pow⟩ := h.pow
  rw [h.size] at full
  -- a power of two below `2 ^ 30` is at most `2 ^ 29`
  have lt : 2 ^ b < 2 ^ 30 := by omega
  have le : 2 ^ b ≤ 2 ^ 29 :=
    Nat.pow_le_pow_right (by decide) (Nat.le_of_lt_succ ((Nat.pow_lt_pow_iff_right (by decide)).mp lt))
  omega

/-- One operation keeps the refinement, and the table within `2 ^ 30` slots. -/
lemma Refines.run (h : m.Refines ref) (small : ref.size < 2 ^ 29) (within : m.capacity ≤ 2 ^ 30)
    (op : Op V) : ∃ m', op.run m = some (m', (op.runRef ref).2) ∧ m'.Refines (op.runRef ref).1 ∧
      m'.capacity ≤ 2 ^ 30 := by
  cases op with
  | set id v =>
    obtain ⟨m', done, capacity, refines⟩ := h.set id v
    refine ⟨m', by rw [Op.run, done]; rfl, refines, ?_⟩
    rcases capacity with same | ⟨twice, full⟩
    · rwa [same]
    · rw [twice]
      exact h.twice_le small full
  | remove id =>
    obtain ⟨m', done, capacity, refines⟩ := h.remove id
    exact ⟨m', done, refines, by rwa [capacity]⟩
  | clear => exact ⟨m.clear, rfl, h.clear, within⟩

/-- The operations all end, with the answers of the map, on a table that represents it. -/
lemma Refines.runs {ops : List (Op V)} (h : m.Refines ref) (few : Few ops ref)
    (within : m.capacity ≤ 2 ^ 30) : ∃ m', IdMap.runs ops m = some (m', (runsRef ops ref).2) ∧
      m'.Refines (runsRef ops ref).1 ∧ m'.capacity ≤ 2 ^ 30 := by
  induction ops generalizing m ref with
  | nil => exact ⟨m, rfl, h, within⟩
  | cons op ops ih =>
    obtain ⟨m₁, done, refines, within⟩ := h.run few.1 within op
    obtain ⟨m', later, refines, within⟩ := ih refines few.2 within
    exact ⟨m', by simp [IdMap.runs, done, later, runsRef], refines, within⟩

/-- A new table represents the empty map. -/
lemma Refines.new : Refines (IdMap.new : IdMap V) ∅ := .empty (b := 5) _ rfl

/-- A new table is small. -/
lemma new_capacity_le : (new : IdMap V).capacity ≤ 2 ^ 30 := by
  change 32 ≤ 2 ^ 30
  decide

/-- `IdMap` refines a finite map: every sequence of operations that holds fewer than `2 ^ 29` ids at a
time ends, with array lengths in range; each `remove` returns what the finite map has, the size is its
number of keys, and `forEachValue` visits its values. Every stored key is stored once and is reached
from its home slot by linear probing over taken slots. -/
theorem idMap_refines (ops : List (Op V)) (few : Few ops ∅) :
    ∃ m, runs ops new = some (m, (runsRef ops ∅).2) ∧ m.capacity ≤ 2 ^ 30 ∧
      m.size = (runsRef ops ∅).1.size ∧ m.forEachValue.Perm (runsRef ops ∅).1.values ∧
      m.Holds (runsRef ops ∅).1 ∧ Probed m.capacity (home m.capacity) m.table := by
  obtain ⟨m, done, refines, within⟩ := Refines.new.runs few new_capacity_le
  refine ⟨m, done, within, refines.size, ?_, refines.holds, refines.probed⟩
  have perm := refines.entries_perm.map Prod.snd
  rw [FinMap.map_snd_pairs] at perm
  have visited : (Refines.entries m).map Prod.snd = m.forEachValue := by
    rw [Refines.entries, forEachValue, List.map_filterMap]
    congr 1
    funext i
    simp [Option.map_map, Function.comp_def]
  rwa [visited] at perm

/-- Ids 23 and 51 have the last slot as home, so the second is stored in the first slot; removing 23
shifts it back over the end of the table. -/
theorem idMap_refines_wrap : ∃ m : IdMap Nat,
    runs [.set 23 7, .set 51 8, .remove 23, .set 51 9, .remove 51] new =
      some (m, [none, none, some 7, none, some 9]) ∧ m.size = 0 := by
  have few : Few [Op.set 23 7, .set 51 8, .remove 23, .set 51 9, .remove 51]
      (∅ : FinMap UInt32 Nat) := by decide
  obtain ⟨m, done, _, size, _⟩ := idMap_refines _ few
  exact ⟨m, done, size⟩

/-! ## The loops end -/

/-- The number of taken slots. -/
def occupied (m : IdMap V) : Nat := (List.range m.capacity).countP fun i => (m.vals i).isSome

/-- Every loop over the table ends within one pass over its slots: the probe of `set` and `remove` for
any id, and the shift after the removal of any entry. -/
structure Stops (m : IdMap V) : Prop where
  probe : ∀ id, ∃ s < m.capacity, m.probe id m.capacity (slot id m.mask) = some s
  shift : ∀ id s v, m.probe id m.capacity (slot id m.mask) = some s → m.vals s = some v →
    ∃ m', shift m.capacity s ((s + 1) &&& m.mask)
      { m with vals := Function.update m.vals s none, size := m.size - 1 } = some m'

/-- The table `grow` has built when it comes to slot `n` of the old one. -/
def regrown (m : IdMap V) (n : Nat) : Option (IdMap V) :=
  (List.range n).foldlM m.reinsert m.doubled

namespace Refines

/-- `size` counts the taken slots. -/
lemma size_eq_occupied (h : m.Refines ref) : m.size = m.occupied := by
  have length := h.entries_perm.length_eq
  rw [FinMap.length_pairs, ← h.size, entries, List.length_filterMap_eq_countP] at length
  simpa [occupied] using length.symm

/-- A table that represents a map has free slots, so every loop over it ends. -/
lemma stops (h : m.Refines ref) : m.Stops where
  probe id := by
    obtain ⟨s, hs, found, _⟩ := h.probe id
    exact ⟨s, hs, found⟩
  shift id s v found value := by
    obtain ⟨m', removed, _⟩ := h.remove id
    unfold IdMap.remove at removed
    rw [found, Option.bind_some] at removed
    simp only [value] at removed
    obtain ⟨m₁, shifted, _⟩ := Option.map_eq_some_iff.mp removed
    exact ⟨m₁, shifted⟩

/-- The table under construction has room for another entry, so `set` does not grow it. -/
lemma regrown (h : m.Refines ref) (le : n ≤ m.capacity) :
    ∃ bigger, m.regrown n = some bigger ∧ bigger.full = false ∧ bigger.Stops := by
  have inside : ∀ i ∈ List.range n, i < m.capacity := fun i mem => by
    have := List.mem_range.mp mem
    omega
  obtain ⟨bigger, part, moved, twice, built, some_, _⟩ := h.grow_slots inside rfl h.doubled (by simp)
  exact ⟨bigger, moved, full_eq_false (h.room_of_twice twice built some_), built.stops⟩

end Refines

/-- The loops of `IdMap` end. After every sequence of operations that holds fewer than `2 ^ 29` ids at a
time, the table is a power of two long, `size` is the number of taken slots and at most half of them,
and every loop stops within one pass over the table. When `set` has to grow the table first, the table
of twice the length is within the range of `Int`, it is never full while the entries are inserted again,
and the loops over it stop as well, at each of these insertions and for the id that is set. -/
theorem loops_stop (ops : List (Op V)) (few : Few ops ∅) :
    ∃ m returned, runs ops new = some (m, returned) ∧ (∃ b, m.capacity = 2 ^ b) ∧
      m.size = m.occupied ∧ m.size * 2 ≤ m.capacity ∧ m.Stops ∧
      (m.full → m.capacity * 2 ≤ 2 ^ 30 ∧ m.grow = m.regrown m.capacity ∧
        ∀ n ≤ m.capacity, ∃ bigger, m.regrown n = some bigger ∧ bigger.full = false ∧
          bigger.Stops) := by
  obtain ⟨m, done, refines, _⟩ := Refines.new.runs few new_capacity_le
  refine ⟨m, _, done, refines.pow, refines.size_eq_occupied, refines.load, refines.stops, ?_⟩
  intro full
  refine ⟨refines.twice_le few.last (by simpa [IdMap.full] using full), rfl, fun n le => ?_⟩
  exact refines.regrown le

/-- Sixteen ids fill the default table, and the next `set` grows it. -/
theorem loops_stop_sixteen : ∃ (m bigger : IdMap Nat) (returned : List (Option Nat)),
    runs ((List.range 16).map fun i => Op.set i.toUInt32 i) new = some (m, returned) ∧
      m.full = true ∧ m.grow = some bigger ∧ bigger.full = false := by
  have few : Few ((List.range 16).map fun i => Op.set i.toUInt32 i) (∅ : FinMap UInt32 Nat) := by
    decide
  have filled : ((runs ((List.range 16).map fun i => Op.set i.toUInt32 i)
      (new : IdMap Nat)).map fun after => after.1.full) = some true := by decide +kernel
  obtain ⟨m, returned, ran, _, _, _, _, grows⟩ := loops_stop _ few
  rw [ran, Option.map_some, Option.some_inj] at filled
  obtain ⟨_, grow, built⟩ := grows filled
  obtain ⟨bigger, done, room, _⟩ := built m.capacity (Nat.le_refl _)
  exact ⟨m, bigger, returned, ran, filled, grow.trans done, room⟩

end IdMap

end MsgTrans
