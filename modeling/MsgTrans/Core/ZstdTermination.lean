import MsgTrans.Core.Decompression

/-!
# zstd decompression ends

The `decompress` loops of the two actuals of `ZstdCodec` end on every input, whatever zstd consumes,
produces and hints. A turn that goes on has consumed or produced something, so what is left of the input
and of the room for output gets less (`Cursor.left`). When the total has overflowed, there is no room for
a buffer and the next turn throws.
-/

namespace MsgTrans

variable {σ : Type}

namespace ZstdKmp

/-- The bytes that are not read and those that can be appended before the total leaves its range. -/
def Cursor.left (k : Cursor) (input : KBytes) (limit : Int) : Nat :=
  (input.size - k.inputOffset).toNat +
    if 0 ≤ k.output.size then (limit + 1 - k.output.size).toNat else 0

/-- The offset is within the input; the total is within the limit or, after an overflow, the smallest
`Int`. -/
structure InRange (input : KBytes) (limit : Int) (k : Cursor) : Prop where
  nonneg : 0 ≤ k.inputOffset
  le : k.inputOffset ≤ input.size
  total : 0 ≤ k.output.size ∧ k.output.size ≤ limit ∨ k.output.size = - 2 ^ 31 ∧ limit = maxInt

namespace InRange

variable {input : KBytes} {limit : Int} {k : Cursor} {capacity : Nat}

/-- A loop that starts is in range. -/
lemma start (nonneg : 0 ≤ limit) : InRange input limit ⟨0, .empty⟩ :=
  ⟨Int.le_refl 0, by simp, .inl ⟨Int.le_refl 0, nonneg⟩⟩

/-- A buffer is offered only while the total is within the limit. -/
lemma within (h : InRange input limit k) (int : limit < 2 ^ 31) (pos : 1 ≤ capacity)
    (room : capacity = int32 (min (int32 (limit - k.output.size)) (workingChunkSize input.size) + 1)) :
    0 ≤ k.output.size ∧ k.output.size ≤ limit ∧ (capacity : Int) ≤ limit - k.output.size + 1 := by
  have chunk := workingChunkSize_range input.size
  rcases h.total with ⟨nonneg, le⟩ | ⟨negative, max⟩
  · have range := room_range int nonneg le chunk
    omega
  · -- `Int.MAX_VALUE - Int.MIN_VALUE` is `-1`
    have wrapped : int32 (maxInt - - 2 ^ 31) = -1 := by decide
    rw [negative, max, wrapped, Int.min_eq_left (by omega)] at room
    have none_ : int32 (-1 + 1) = 0 := by decide
    omega

/-- The total after a call that passed the check: within the limit, or overflowed. -/
lemma append_total {c : ByteCollector} {produced : Nat} (source : List UInt8) (int : limit < 2 ^ 31)
    (nonneg : 0 ≤ c.size) (le : c.size ≤ limit) (fits : c.size + produced ≤ limit + 1)
    (within : ¬ int32 (c.size + produced) > limit) :
    (c.append source produced).size = c.size + produced ∧ c.size + produced ≤ limit ∨
      (c.append source produced).size = - 2 ^ 31 ∧ limit = maxInt := by
  unfold ByteCollector.append
  split
  case isTrue none_ => exact .inl ⟨by omega, by omega⟩
  case isFalse =>
    dsimp only
    by_cases small : c.size + produced < 2 ^ 31
    · rw [int32_of_range (by omega) small] at within ⊢
      exact .inl ⟨rfl, by omega⟩
    · have sum : c.size + produced = 2 ^ 31 := by omega
      rw [sum]
      exact .inr ⟨by decide, by unfold maxInt; omega⟩

/-- A turn that goes on leaves less. -/
lemma after {report : Report (input.data.drop k.inputOffset.toNat) capacity} {remaining : Int}
    {filled : List UInt8} (h : InRange input limit k) (int : limit < 2 ^ 31)
    (room : 0 ≤ k.output.size ∧ k.output.size ≤ limit ∧
      (capacity : Int) ≤ limit - k.output.size + 1)
    (passes : Passes limit k.output report remaining) (going : remaining ≠ 0) :
    InRange input limit (k.after report filled) ∧
      (k.after report filled).left input limit < k.left input limit := by
  obtain ⟨nonneg, le, fits⟩ := room
  have offset_nonneg := h.nonneg
  have offset_le := h.le
  have bound := input.size_lt
  have size : input.size = input.data.length := rfl
  have consumed := report.consumed_le
  have produced := report.produced_le
  have progress := passes.progress.resolve_left going
  rw [List.length_drop] at consumed
  have offset : (k.after report filled).inputOffset = k.inputOffset + report.consumed :=
    int32_of_range (by omega) (by omega)
  have total := append_total filled int nonneg le (by omega) passes.within
  change (k.after report filled).output.size = _ ∧ _ ∨ (k.after report filled).output.size = _ ∧ _
    at total
  unfold Cursor.left
  rw [offset, if_pos nonneg]
  refine ⟨⟨by omega, by omega, by omega⟩, ?_⟩
  rcases total with ⟨more, _⟩ | ⟨overflowed, _⟩
  · rw [more, if_pos (by omega)]
    omega
  · rw [overflowed, if_neg (by decide)]
    omega

end InRange

/-- Every turn but the last is paid for by what it leaves less of. -/
structure Going (input : KBytes) (limit : Int) (budget : Nat) (k : Cursor) (s : Session σ) : Prop where
  range : InRange input limit k
  paid : s.calls.length + k.left input limit ≤ budget

variable {z : Streamer σ} {input : KBytes} {limit : Int} {budget : Nat} {k : Cursor} {s : Session σ}

/-- A turn of the loop leaves less to do, or is the last. -/
lemma decompressTurn_stops (int : limit < 2 ^ 31) (h : Going input limit budget k s) :
    Program.After (decompressTurn z input limit (workingChunkSize input.size) k) s
      (fun next t => Sum.elim (fun k' => Going input limit budget k' t ∧
        k'.left input limit < k.left input limit) (fun _ => t.calls.length ≤ budget + 1) next)
      (fun _ t => t.calls.length ≤ budget + 1) := by
  have paid := h.paid
  refine decompressTurn_after h.range.nonneg h.range.le (fun _ _ => by omega) ?_
  intro capacity report machine pos room answer
  have within := h.range.within int pos room
  have once : (s.calls ++ [ZstdCall.stream (input.data.drop k.inputOffset.toNat) capacity]).length ≤
      budget + 1 := by
    rw [List.length_append, List.length_singleton]
    omega
  refine ⟨fun remaining rest passes => ?_, fun _ _ => once⟩
  split
  case isTrue going =>
    obtain ⟨range, less⟩ := h.range.after int within passes going
    refine ⟨⟨range, ?_⟩, less⟩
    rw [List.length_append, List.length_singleton]
    omega
  case isFalse => exact once

/-- The loop ends within as many turns as its input and its limit have bytes, and two. -/
lemma decompress_ends (nonneg : 0 ≤ limit) (int : limit < 2 ^ 31) {turns : Nat}
    (enough : input.size + limit.toNat + 2 ≤ turns) :
    Program.After (decompress z input limit turns) s
      (fun result t => result ≠ none ∧ t.calls.length ≤ s.calls.length + (input.size + limit.toNat + 2))
      (fun _ t => t.calls.length ≤ s.calls.length + (input.size + limit.toNat + 2)) := by
  refine .failIf_bind (fun _ => ?_) fun _ => by omega
  have left : Cursor.left ⟨0, .empty⟩ input limit = input.size + limit.toNat + 1 := by
    change (input.size - 0 : Int).toNat + (if (0 : Int) ≤ 0 then (limit + 1 - 0).toNat else 0) = _
    rw [if_pos (Int.le_refl 0)]
    omega
  have start : Going input limit (s.calls.length + (input.size + limit.toNat + 1)) ⟨0, .empty⟩ s :=
    ⟨.start nonneg, by rw [left]⟩
  have looped := Program.After.loop_stops (fun k _ => k.left input limit)
    (fun k s => decompressTurn_stops (z := z) int) turns (by rw [left]; omega) start
  refine .bind (looped.mono ?_ fun _ _ => id)
  rintro _ t ⟨k, rfl, calls⟩
  refine .failIf_bind (fun _ => ?_) fun _ => calls
  exact .ofExcept_bind (fun bytes _ => .pure ⟨by simp, calls⟩) fun _ _ => calls

end ZstdKmp

/-- The `decompress` loops over zstd end: on every input, for every limit and whatever zstd does, both
return or throw within `input.size + limit + 2` calls of zstd. -/
theorem ZstdCodec.decompress_stops (z : Streamer σ) (input : KBytes) {limit : Int}
    (nonneg : 0 ≤ limit) (int : limit < 2 ^ 31) (s : Session σ) {turns : Nat}
    (enough : input.size + limit.toNat + 2 ≤ turns) :
    (((ZstdKmp.decompress z input limit turns).exec s).1 ≠ .ok none ∧
      ((ZstdKmp.decompress z input limit turns).exec s).2.calls.length ≤
        s.calls.length + (input.size + limit.toNat + 2)) ∧
    ((ZstdNative.decompress z input limit turns).exec s).1 ≠ .ok none ∧
      ((ZstdNative.decompress z input limit turns).exec s).2.calls.length ≤
        s.calls.length + (input.size + limit.toNat + 2) := by
  rw [← ZstdCodec.decompress_agrees, and_self]
  have ends := ZstdKmp.decompress_ends (z := z) (s := s) nonneg int enough
  rcases ran : (ZstdKmp.decompress z input limit turns).exec s with ⟨e | result, t⟩
  · exact ⟨fun eq => (by cases eq), ends.thrown ran⟩
  · obtain ⟨some_, calls⟩ := ends.returned ran
    exact ⟨fun eq => some_ (Except.ok.inj eq), calls⟩

/-- Three zeros of one byte, with the limit five: eight turns are enough. -/
theorem ZstdCodec.decompress_stops_three :
    ((ZstdKmp.decompress ZstdKmp.flood .one 5 8).exec ⟨3, []⟩).1 ≠ .ok none ∧
      ((ZstdNative.decompress ZstdKmp.flood .one 5 8).exec ⟨3, []⟩).1 ≠ .ok none := by
  have stops := ZstdCodec.decompress_stops ZstdKmp.flood .one (by decide : (0 : Int) ≤ 5) (by decide)
    ⟨3, []⟩ (by decide : KBytes.one.size + (5 : Int).toNat + 2 ≤ 8)
  exact ⟨stops.1.1, stops.2.1⟩

end MsgTrans
