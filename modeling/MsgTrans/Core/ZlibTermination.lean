import MsgTrans.Core.RoundTrip
import MsgTrans.Core.ZstdTermination

/-!
# zlib decompression ends

The `decompress` loops of the two actuals of `ZlibCodec` end on every input for every limit below
`Int.MAX_VALUE`, if zlib keeps its promise: `inflate` returns `Z_OK` only after some progress, and
`Inflater.inflate` gives nothing only at the end of the stream or when it says that it needs something.
Unlike the zstd loops these have no check of their own for a turn without progress: with a zlib that breaks
the promise the native loop goes on forever.

With the limit `Int.MAX_VALUE` the total can overflow, and there is no bound on what follows.
-/

namespace MsgTrans

variable {σ : Type}

/-- `Z_OK` means that something was read or written. -/
def ZStream.Progresses (z : ZStream σ) : Prop :=
  ∀ s unread capacity, 1 ≤ capacity → (z.inflate s unread capacity).1.result = ZlibNative.zOk →
    0 < (z.inflate s unread capacity).1.consumed ∨
      0 < (z.inflate s unread capacity).1.produced.length

/-- Nothing is given only at the end of the stream, or for want of a dictionary or of input. -/
def Inflater.Progresses (z : Inflater σ) : Prop :=
  ∀ s capacity, 1 ≤ capacity → (z.inflate s capacity).1.produced = .ok [] →
    z.finished (z.inflate s capacity).2 = true ∨ z.needsDictionary (z.inflate s capacity).2 = true ∨
      z.needsInput (z.inflate s capacity).2 = true

/-- The total of a loop is within its limit. -/
structure ByteCollector.Fits (limit : Int) (c : ByteCollector) : Prop where
  nonneg : 0 ≤ c.size
  le : c.size ≤ limit

namespace ByteCollector.Fits

variable {limit : Int} {c : ByteCollector} {capacity produced : Nat}

/-- A loop that starts is within its limit. -/
lemma empty (nonneg : 0 ≤ limit) : Fits limit .empty := ⟨Int.le_refl 0, nonneg⟩

/-- The buffer of the next turn has room for one byte more than the limit allows. -/
lemma room (h : Fits limit c) (small : limit < maxInt) :
    1 ≤ int32 (min (int32 (limit - c.size)) zlibChunkSize + 1) ∧
      int32 (min (int32 (limit - c.size)) zlibChunkSize + 1) ≤ limit - c.size + 1 :=
  room_range (by unfold maxInt at small; omega) h.nonneg h.le zlibChunkSize_range

/-- A turn that passed the check has added what it produced. -/
lemma append (h : Fits limit c) (small : limit < maxInt) (source : List UInt8)
    (fits : c.size + produced ≤ limit + 1) (within : ¬ int32 (c.size + produced) > limit) :
    Fits limit (c.append source produced) ∧ (c.append source produced).size = c.size + produced := by
  have nonneg := h.nonneg
  have int : limit < 2 ^ 31 := by
    unfold maxInt at small
    omega
  rcases ZstdKmp.InRange.append_total source int h.nonneg h.le fits within with ⟨size, le⟩ | ⟨_, max⟩
  · exact ⟨⟨by omega, by omega⟩, size⟩
  · omega

end ByteCollector.Fits

/-! ## The JVM -/

namespace ZlibJvm

variable {z : Inflater σ} {limit : Int} {budget : Nat} {c : ByteCollector}
  {s : InflateSession σ}

/-- The bytes that can be appended, and one turn for the end of the stream. -/
def left (z : Inflater σ) (limit : Int) (c : ByteCollector) (s : InflateSession σ) : Nat :=
  (limit + 1 - c.size).toNat + if z.finished s.machine then 0 else 1

/-- Every turn but the last is paid for by what it leaves less of. -/
structure Going (z : Inflater σ) (limit : Int) (budget : Nat) (c : ByteCollector)
    (s : InflateSession σ) : Prop where
  fits : c.Fits limit
  paid : s.calls.length + left z limit c s ≤ budget

/-- A turn of the JVM loop leaves less to do, or is the last. -/
lemma decompressTurn_stops (goes : z.Progresses) (small : limit < maxInt)
    (h : Going z limit budget c s) :
    Program.After (decompressTurn z limit c) s
      (fun next t => Sum.elim
        (fun c' => Going z limit budget c' t ∧ left z limit c' t < left z limit c s)
        (fun _ => t.calls.length ≤ budget) next)
      (fun _ t => t.calls.length ≤ budget) := by
  have room := h.fits.room small
  have paid := h.paid
  unfold decompressTurn
  refine ask_bind ?_
  split
  case isTrue => exact .pure (by change s.calls.length ≤ budget; omega)
  case isFalse going =>
    unfold left at paid ⊢
    rw [if_neg going] at paid ⊢
    refine .ofExcept_bind (fun chunk made => ?_) fun e failed => by omega
    have length := byteArray_ok made
    have once : (s.calls ++ [chunk.length]).length ≤ budget := by
      rw [List.length_append, List.length_singleton]
      omega
    refine .bind (inflate_after (fun e _ _ => once) fun bytes answer => ?_)
    have produced := (z.inflate s.machine chunk.length).1.produced_le bytes answer
    refine .failIf_bind (fun within => ?_) fun _ => once
    refine ask_bind (.failIf_bind (fun dictionary => ?_) fun _ => once)
    refine ask_bind (.failIf_bind (fun starved => .pure ?_) fun _ => once)
    obtain ⟨fits, size⟩ := h.fits.append small (bytes ++ chunk.drop bytes.length) (by omega) within
    -- with nothing produced the stream has ended, so that the next turn is the last
    have less : (limit + 1 - (c.append (bytes ++ chunk.drop bytes.length) bytes.length).size).toNat +
        (if z.finished (z.inflate s.machine chunk.length).2 then 0 else 1) <
          (limit + 1 - c.size).toNat + 1 := by
      rw [size]
      have le := h.fits.le
      by_cases none_ : bytes.length = 0
      · rw [List.length_eq_zero_iff.mp none_] at answer
        rcases goes s.machine chunk.length (by omega) answer with ended | needs | needs
        · rw [if_pos ended]
          omega
        · exact absurd ⟨none_, needs⟩ dictionary
        · exact absurd ⟨none_, needs⟩ starved
      · split <;> omega
    refine ⟨⟨fits, ?_⟩, less⟩
    unfold left
    dsimp only
    rw [List.length_append, List.length_singleton]
    omega

/-- The JVM loop ends within as many turns as its limit has bytes, and three. -/
lemma decompress_ends (goes : z.Progresses) (input : KBytes) (s : InflateSession σ) (nonneg : 0 ≤ limit)
    (small : limit < maxInt) {turns : Nat} (enough : limit.toNat + 3 ≤ turns) :
    Program.After (decompress z input limit turns) s
      (fun result t => result ≠ none ∧ t.calls.length ≤ s.calls.length + (limit.toNat + 2))
      (fun _ t => t.calls.length ≤ s.calls.length + (limit.toNat + 2)) := by
  refine .failIf_bind (fun _ => .modify_bind ?_) fun _ => by omega
  have first : left z limit .empty ⟨z.setInput input.data, s.calls⟩ ≤ limit.toNat + 2 := by
    change (limit + 1 - 0).toNat + (if _ then 0 else 1) ≤ _
    split <;> omega
  have start : Going z limit (s.calls.length + (limit.toNat + 2)) .empty
      ⟨z.setInput input.data, s.calls⟩ :=
    ⟨.empty nonneg, Nat.add_le_add_left first _⟩
  have looped := Program.After.loop_stops (left z limit) (fun c s => decompressTurn_stops goes small) turns
    (by omega) start
  refine .bind (looped.mono ?_ fun _ _ => id)
  rintro _ t ⟨c, rfl, calls⟩
  refine ask_bind (.failIf_bind (fun _ => ?_) fun _ => calls)
  exact .ofExcept_bind (fun bytes _ => .pure ⟨by simp, calls⟩) fun _ _ => calls

end ZlibJvm

/-! ## Native -/

namespace ZlibNative

variable {z : ZStream σ} {limit : Int} {budget : Nat} {k : Cursor}
  {s : InflateSession σ}

/-- The bytes that are not read and those that can be appended. -/
def Cursor.left (limit : Int) (k : Cursor) : Nat := k.unread.length + (limit + 1 - k.total).toNat

/-- Every turn but the last is paid for by what it leaves less of. -/
structure Going (limit : Int) (budget : Nat) (k : Cursor) (s : InflateSession σ) : Prop where
  fits : ByteCollector.Fits limit ⟨k.chunks, k.total⟩
  paid : s.calls.length + k.left limit ≤ budget

/-- A turn of the native loop leaves less to do, or is the last. -/
lemma decompressTurn_stops (goes : z.Progresses) (small : limit < maxInt) (h : Going limit budget k s) :
    Program.After (decompressTurn z limit k) s
      (fun next t => Sum.elim
        (fun k' => Going limit budget k' t ∧ k'.left limit < k.left limit)
        (fun _ => t.calls.length ≤ budget) next)
      (fun _ t => t.calls.length ≤ budget) := by
  have room := h.fits.room small
  have le := h.fits.le
  have paid := h.paid
  dsimp only at room le
  unfold Cursor.left at paid
  unfold decompressTurn
  refine .ofExcept_bind (fun chunk made => ?_) fun e failed => by omega
  have length := byteArray_ok made
  have once : (s.calls ++ [chunk.length]).length ≤ budget := by
    rw [List.length_append, List.length_singleton]
    omega
  refine .bind (inflate_after ?_)
  have progress := goes s.machine k.unread chunk.length (by omega)
  generalize (z.inflate s.machine k.unread chunk.length).1 = report at *
  have produced := report.produced_le
  have consumed := report.consumed_le
  refine .failIf_bind (fun within => ?_) fun _ => once
  split
  case isTrue =>
    refine .failIf_bind (fun _ => ?_) fun _ => once
    exact .ofExcept_bind (fun _ _ => .pure once) fun _ _ => once
  case isFalse =>
    refine .failIf_bind (fun ok => ?_) fun _ => once
    refine .failIf_bind (fun _ => .pure ?_) fun _ => once
    obtain ⟨fits, size⟩ := h.fits.append small report.produced (by dsimp only; omega) within
    have some_ := progress (not_not.mp ok)
    have less : Cursor.left limit ⟨k.unread.drop report.consumed,
        (ByteCollector.append ⟨k.chunks, k.total⟩ report.produced report.produced.length).chunks,
        (ByteCollector.append ⟨k.chunks, k.total⟩ report.produced report.produced.length).size⟩ <
          k.left limit := by
      unfold Cursor.left
      rw [size, List.length_drop]
      dsimp only
      omega
    refine ⟨⟨fits, ?_⟩, less⟩
    unfold Cursor.left at less ⊢
    rw [List.length_append, List.length_singleton]
    omega

/-- The native loop ends within as many turns as its input and its limit have bytes, and two. -/
lemma decompress_ends (goes : z.Progresses) (input : KBytes) (s : InflateSession σ) (nonneg : 0 ≤ limit)
    (small : limit < maxInt) {turns : Nat} (enough : input.size + limit.toNat + 2 ≤ turns) :
    Program.After (decompress z input limit turns) s
      (fun result t => result ≠ none ∧ t.calls.length ≤ s.calls.length + (input.size + limit.toNat + 1))
      (fun _ t => t.calls.length ≤ s.calls.length + (input.size + limit.toNat + 1)) := by
  refine .failIf_bind (fun _ => ?_) fun _ => by omega
  refine .failIf_bind (fun _ => ?_) fun _ => by omega
  refine .failIf_bind (fun _ => .modify_bind ?_) fun _ => by omega
  have first : Cursor.left limit ⟨input.data, [], 0⟩ = input.size + limit.toNat + 1 := by
    change input.size + (limit + 1 - 0).toNat = _
    omega
  have start : Going limit (s.calls.length + (input.size + limit.toNat + 1)) ⟨input.data, [], 0⟩
      ⟨z.init.2, s.calls⟩ := by
    refine ⟨⟨Int.le_refl 0, nonneg⟩, ?_⟩
    rw [first]
  have looped := Program.After.loop_stops (fun k _ => Cursor.left limit k)
    (fun k s => decompressTurn_stops goes small) turns (by rw [first]; omega) start
  refine .bind (looped.mono ?_ fun _ _ => id)
  rintro _ t ⟨bytes, rfl, calls⟩
  exact .pure ⟨by simp, calls⟩

end ZlibNative

/-- The `decompress` loops over zlib end: on every input and for every limit below `Int.MAX_VALUE`, if zlib
never reports success without progress, both return or throw, on the JVM within `limit + 2` calls and on
native targets within `input.size + limit + 1`. -/
theorem ZlibCodec.zlib_decompress_stops {τ : Type} {inflater : Inflater σ} {stream : ZStream τ}
    (jvm : inflater.Progresses) (native : stream.Progresses) (input : KBytes) {limit : Int}
    (nonneg : 0 ≤ limit) (small : limit < maxInt) (s : InflateSession σ) (t : InflateSession τ)
    {turns : Nat} (enough : input.size + limit.toNat + 3 ≤ turns) :
    (((ZlibJvm.decompress inflater input limit turns).exec s).1 ≠ .ok none ∧
      ((ZlibJvm.decompress inflater input limit turns).exec s).2.calls.length ≤
        s.calls.length + (limit.toNat + 2)) ∧
    ((ZlibNative.decompress stream input limit turns).exec t).1 ≠ .ok none ∧
      ((ZlibNative.decompress stream input limit turns).exec t).2.calls.length ≤
        t.calls.length + (input.size + limit.toNat + 1) := by
  have onJvm := ZlibJvm.decompress_ends jvm input s nonneg small (by omega : limit.toNat + 3 ≤ turns)
  have onNative := ZlibNative.decompress_ends native input t nonneg small
    (by omega : input.size + limit.toNat + 2 ≤ turns)
  constructor
  · rcases ran : (ZlibJvm.decompress inflater input limit turns).exec s with ⟨e | result, u⟩
    · exact ⟨fun eq => (by cases eq), onJvm.thrown ran⟩
    · obtain ⟨some_, calls⟩ := onJvm.returned ran
      exact ⟨fun eq => some_ (Except.ok.inj eq), calls⟩
  · rcases ran : (ZlibNative.decompress stream input limit turns).exec t with ⟨e | result, u⟩
    · exact ⟨fun eq => (by cases eq), onNative.thrown ran⟩
    · obtain ⟨some_, calls⟩ := onNative.returned ran
      exact ⟨fun eq => some_ (Except.ok.inj eq), calls⟩

/-- One byte, with the limit one: five turns are enough. -/
theorem ZlibCodec.zlib_decompress_stops_one :
    ((ZlibJvm.decompress .buffering .one 1 5).exec ⟨([], 0), []⟩).1 ≠ .ok none ∧
      ((ZlibNative.decompress .buffering .one 1 5).exec ⟨none, []⟩).1 ≠ .ok none := by
  have jvm : Inflater.buffering.Progresses := by
    intro m capacity pos none_
    refine .inl ?_
    rcases List.take_eq_nil_iff.mp (Except.ok.inj none_) with zero | empty
    · omega
    · simp [Inflater.buffering, empty]
  have native : ZStream.buffering.Progresses := by
    intro m unread capacity pos ok
    refine .inr (take_pos pos fun empty => ?_)
    have later := List.length_eq_zero_iff.mp (Int.natCast_eq_zero.mp empty)
    simp only [ZStream.buffering, zCode, later, if_true] at ok
    cases ok
  have stops := ZlibCodec.zlib_decompress_stops jvm native .one (by decide : (0 : Int) ≤ 1) (by decide)
    ⟨([], 0), []⟩ ⟨none, []⟩ (by decide : KBytes.one.size + (1 : Int).toNat + 3 ≤ 5)
  exact ⟨stops.1.1, stops.2.1⟩

end MsgTrans
