import MsgTrans.Core.PayloadCompression
import MsgTrans.Core.ZstdCodec

/-!
# The zlib codecs and the output limit

Model of `decompress` of the two actuals of `ZlibCodec`: over `java.util.zip` (`ZlibCodec.jvm.kt`) and over
zlib's stream API (`ZlibCodec.native.kt`). The inflaters are outside the repository: any machines that
produce no more than fits into the buffer they are offered and consume no more than is left.

What any of the four `decompress` loops returns is within the limit it was given.
-/

namespace MsgTrans

/-- The largest chunk, less one byte (`64 * 1024` in both actuals). -/
def zlibChunkSize : Int := 64 * 1024

/-- `"decompressed payload exceeds $maxOutputSize bytes"`. -/
def exceedsLimit (maxOutputSize : Int) : CodecFailure :=
  .compression s!"decompressed payload exceeds {maxOutputSize} bytes"

/-- The state of an inflater and the capacities it was offered so far. -/
structure InflateSession (σ : Type) where
  machine : σ
  calls : List Nat

/-- Code that talks to an inflater. -/
abbrev Zlib (σ : Type) : Type → Type := Program (InflateSession σ) CodecFailure

variable {σ : Type}

/-! ## The JVM -/

/-- What one call of `Inflater.inflate` does: it produces bytes, or throws `DataFormatException`, whose
message may be null. -/
structure Inflated (capacity : Nat) where
  produced : Except (Option String) (List UInt8)
  produced_le : ∀ bytes, produced = .ok bytes → bytes.length ≤ capacity

/-- `java.util.zip.Inflater`. -/
structure Inflater (σ : Type) where
  setInput : List UInt8 → σ
  inflate : σ → (capacity : Nat) → Inflated capacity × σ
  finished : σ → Bool
  needsDictionary : σ → Bool
  needsInput : σ → Bool
  remaining : σ → Nat
  remaining_setInput : ∀ input, remaining (setInput input) = input.length
  remaining_inflate : ∀ s capacity, remaining (inflate s capacity).2 ≤ remaining s

namespace ZlibJvm

/-- A look at the inflater. -/
def ask {α : Type} (look : σ → α) : Zlib σ α := ExceptT.mk fun s => (.ok (look s.machine), s)

/-- `inflater.inflate(chunk)` with the `catch` around it: the number of bytes and the filled chunk. -/
def inflate (z : Inflater σ) (chunk : List UInt8) : Zlib σ (Nat × List UInt8) := do
  let answer ← (ExceptT.mk fun s =>
    let (answer, machine) := z.inflate s.machine chunk.length
    (.ok answer.produced, ⟨machine, s.calls ++ [chunk.length]⟩) :
      Zlib σ (Except (Option String) (List UInt8)))
  let bytes ← Program.ofExcept (answer.mapError fun message =>
    let text := message.getD "null"
    .compression s!"invalid zlib payload ({text})")
  return (bytes.length, bytes ++ chunk.drop bytes.length)

/-- One turn of `while (!inflater.finished())`. -/
def decompressTurn (z : Inflater σ) (maxOutputSize : Int) (output : ByteCollector) :
    Zlib σ (ByteCollector ⊕ ByteCollector) := do
  if ← ask z.finished then return .inr output
  else
    let chunk ← Program.ofExcept
      (byteArray (int32 (min (int32 (maxOutputSize - output.size)) zlibChunkSize + 1)))
    let (produced, filled) ← inflate z chunk
    Program.failIf (int32 (output.size + produced) > maxOutputSize) (exceedsLimit maxOutputSize)
    let dictionary ← ask z.needsDictionary
    Program.failIf (produced = 0 ∧ dictionary) (.compression "invalid zlib payload (preset dictionary)")
    let starved ← ask z.needsInput
    Program.failIf (produced = 0 ∧ starved) (.compression "truncated zlib payload")
    return .inl (output.append filled produced)

/-- Kotlin `ZlibCodec.decompress` on the JVM, cut off after `turns` turns. -/
def decompress (z : Inflater σ) (input : KBytes) (maxOutputSize : Int) (turns : Nat) :
    Zlib σ (Option (List UInt8)) := do
  Program.failIf (input.size = 0) (.compression "empty zlib payload")
  modify fun s => { s with machine := z.setInput input.data }
  match ← Program.loop (decompressTurn z maxOutputSize) turns .empty with
  | .inl _ => return none
  | .inr output =>
    let left ← ask z.remaining
    Program.failIf (left > 0) (.compression "trailing bytes after zlib stream")
    return some (← Program.ofExcept output.toByteArray)

end ZlibJvm

/-! ## Native -/

/-- What one call of `inflate` reports, with zlib's result code. -/
structure ZReport (unread : List UInt8) (capacity : Nat) where
  consumed : Nat
  produced : List UInt8
  result : Int
  consumed_le : consumed ≤ unread.length
  produced_le : produced.length ≤ capacity

/-- zlib's inflate: `zlibVersion`, `inflateInit_` with its code, and `inflate` on what is left of the
input. -/
structure ZStream (σ : Type) where
  version : Option String
  init : Int × σ
  inflate : σ → (unread : List UInt8) → (capacity : Nat) → ZReport unread capacity × σ

namespace ZlibNative

def zOk : Int := 0

def zStreamEnd : Int := 1

/-- The variables that live across the turns: the unread input (`next_in`, `avail_in`) and the collected
chunks with their `total`. -/
structure Cursor where
  unread : List UInt8
  chunks : List (List UInt8)
  total : Int

/-- One call of `inflate`: its report and the filled chunk. -/
def inflate (z : ZStream σ) (unread chunk : List UInt8) : Zlib σ (ZReport unread chunk.length) :=
  ExceptT.mk fun s =>
    let (report, machine) := z.inflate s.machine unread chunk.length
    (.ok report, ⟨machine, s.calls ++ [chunk.length]⟩)

/-- One turn of `while (decoded == null)`. -/
def decompressTurn (z : ZStream σ) (maxOutputSize : Int) (s : Cursor) : Zlib σ (Cursor ⊕ List UInt8) := do
  let chunkSize := max (int32 (min (int32 (maxOutputSize - s.total)) zlibChunkSize + 1)) 1
  let chunk ← Program.ofExcept (byteArray chunkSize)
  let report ← inflate z s.unread chunk
  let unread := s.unread.drop report.consumed
  let produced := report.produced.length
  Program.failIf (int32 (s.total + produced) > maxOutputSize) (exceedsLimit maxOutputSize)
  let collected : ByteCollector := ByteCollector.append ⟨s.chunks, s.total⟩ report.produced produced
  if report.result = zStreamEnd then
    Program.failIf (unread ≠ []) (.compression "trailing bytes after zlib stream")
    let output ← Program.ofExcept collected.toByteArray
    return .inr output
  else
    Program.failIf (report.result ≠ zOk)
      (.compression s!"invalid zlib payload (code {report.result})")
    Program.failIf (produced = 0 ∧ unread = []) (.compression "truncated zlib payload")
    return .inl ⟨unread, collected.chunks, collected.size⟩

/-- Kotlin `ZlibCodec.decompress` on native targets, cut off after `turns` turns. -/
def decompress (z : ZStream σ) (input : KBytes) (maxOutputSize : Int) (turns : Nat) :
    Zlib σ (Option (List UInt8)) := do
  Program.failIf (input.size = 0) (.compression "empty zlib payload")
  Program.failIf (z.version = none) (.compression "zlib version unavailable")
  Program.failIf (z.init.1 ≠ zOk)
    (.compression s!"zlib initialization failed with code {z.init.1}")
  modify fun s => { s with machine := z.init.2 }
  match ← Program.loop (decompressTurn z maxOutputSize) turns ⟨input.data, [], 0⟩ with
  | .inl _ => return none
  | .inr output => return some output

end ZlibNative

/-! ## The output limit -/

/-- Copying does not change the length of the destination. -/
lemma copyInto_length {source destination result : List UInt8} {offset : Int}
    (copied : copyInto source destination offset = .ok result) : result.length = destination.length := by
  unfold copyInto at copied
  split at copied
  · cases copied
  next fits =>
    cases copied
    simp only [List.length_append, List.length_take, List.length_drop]
    omega

namespace ByteCollector

/-- Copying chunks into an array keeps its length. -/
lemma fill_length (chunks : List (List UInt8)) (start filled : List UInt8 × Int)
    (ran : chunks.foldlM (fun (result, offset) chunk => do
      let result ← copyInto chunk result offset
      return (result, int32 (offset + chunk.length))) start = Except.ok filled) :
    filled.1.length = start.1.length := by
  induction chunks generalizing start with
  | nil =>
    cases ran
    rfl
  | cons chunk rest ih =>
    rw [List.foldlM_cons] at ran
    rcases copied : copyInto chunk start.1 start.2 with e | result
    · simp [copied, bind, Except.bind] at ran
    · simp only [copied, bind, Except.bind, pure, Except.pure] at ran
      exact (ih _ ran).trans (copyInto_length copied)

/-- The array has as many bytes as were counted. -/
lemma toByteArray_length {c : ByteCollector} {bytes : List UInt8} (made : c.toByteArray = .ok bytes) :
    (bytes.length : Int) = c.size := by
  unfold toByteArray byteArray at made
  split at made
  · cases made
  next nonneg =>
    simp only [bind, Except.bind] at made
    split at made
    · cases made
    next filled ran =>
      cases made
      have length := fill_length c.chunks _ filled ran
      rw [List.length_replicate] at length
      omega

/-- A count that passed the check of a loop is within the limit. -/
lemma append_size {c : ByteCollector} {source : List UInt8} {count limit : Int} (within : c.size ≤ limit)
    (passed : ¬ int32 (c.size + count) > limit) : (c.append source count).size ≤ limit := by
  unfold append
  split
  · exact within
  · exact Int.not_lt.mp passed

end ByteCollector

/-- A result within the limit, if there is one. -/
def Within (limit : Int) (result : Option (List UInt8)) : Prop :=
  ∀ bytes, result = some bytes → (bytes.length : Int) ≤ limit

/-- No result exceeds no limit. -/
lemma Within.none (limit : Int) : Within limit Option.none := by
  intro bytes eq
  cases eq

/-- The last line of a codec. -/
lemma Within.toByteArray {τ : Type} {limit : Int} {c : ByteCollector} (within : c.size ≤ limit) :
    Program.Ensures (Within limit) (do
      let bytes ← Program.ofExcept c.toByteArray
      return some bytes : Program τ CodecFailure (Option (List UInt8))) := by
  refine .bind (.ofExcept fun bytes made => made) fun bytes made => .pure ?_
  rintro _ ⟨⟩
  rw [ByteCollector.toByteArray_length made]
  exact within

section
variable {input : KBytes} {limit : Int} (turns : Nat)

/-- The zstd codec returns nothing above its limit. -/
lemma ZstdKmp.decompress_within (z : Streamer σ) (nonneg : 0 ≤ limit) :
    Program.Ensures (Within limit) (ZstdKmp.decompress z input limit turns) := by
  have turn : ∀ k : ZstdKmp.Cursor, k.output.size ≤ limit →
      Program.Ensures (Sum.elim (fun k => k.output.size ≤ limit) fun k => k.output.size ≤ limit)
        (ZstdKmp.decompressTurn z input limit (workingChunkSize input.size) k) := by
    intro k within
    refine .bind (.trivial _) fun chunk _ => .bind (.trivial _) fun pending _ => ?_
    refine .bind (.trivial _) fun call _ => .bind (.trivial _) fun remaining _ => ?_
    refine .bind .failIf fun _ passed => .bind (.trivial _) fun _ _ => .pure ?_
    split
    · exact ByteCollector.append_size within passed
    · exact ByteCollector.append_size within passed
  refine .bind (.trivial _) fun _ _ => .bind (.loop turn turns nonneg) fun last within => ?_
  cases last with
  | inl k => exact .pure (.none limit)
  | inr k => exact .bind (.trivial _) fun _ _ => Within.toByteArray within

/-- The zlib codec of the JVM returns nothing above its limit. -/
lemma ZlibJvm.decompress_within (z : Inflater σ) (nonneg : 0 ≤ limit) :
    Program.Ensures (Within limit) (ZlibJvm.decompress z input limit turns) := by
  have turn : ∀ c : ByteCollector, c.size ≤ limit →
      Program.Ensures (Sum.elim (fun c => c.size ≤ limit) fun c => c.size ≤ limit)
        (ZlibJvm.decompressTurn z limit c) := by
    intro c within
    refine .bind (.trivial _) fun finished _ => ?_
    cases finished with
    | true => exact .pure within
    | false =>
      refine .bind (.trivial _) fun chunk _ => .bind (.trivial _) fun produced _ => ?_
      refine .bind .failIf fun _ passed => .bind (.trivial _) fun _ _ => ?_
      refine .bind (.trivial _) fun _ _ => .bind (.trivial _) fun _ _ => .bind (.trivial _) fun _ _ => ?_
      exact .pure (ByteCollector.append_size within passed)
  refine .bind (.trivial _) fun _ _ => .bind (.trivial _) fun _ _ => ?_
  refine .bind (.loop turn turns nonneg) fun last within => ?_
  cases last with
  | inl c => exact .pure (.none limit)
  | inr c =>
    refine .bind (.trivial _) fun _ _ => .bind (.trivial _) fun _ _ => ?_
    exact Within.toByteArray within

/-- The native zlib codec returns nothing above its limit. -/
lemma ZlibNative.decompress_within (z : ZStream σ) (nonneg : 0 ≤ limit) :
    Program.Ensures (Within limit) (ZlibNative.decompress z input limit turns) := by
  have turn : ∀ s : ZlibNative.Cursor, s.total ≤ limit →
      Program.Ensures (Sum.elim (fun s => s.total ≤ limit) fun bytes => (bytes.length : Int) ≤ limit)
        (ZlibNative.decompressTurn z limit s) := by
    intro s within
    refine .bind (.trivial _) fun chunk _ => .bind (.trivial _) fun report _ => ?_
    refine .bind .failIf fun _ passed => ?_
    have collected : (ByteCollector.append ⟨s.chunks, s.total⟩ report.produced
        report.produced.length).size ≤ limit := ByteCollector.append_size within passed
    split
    · refine .bind (.trivial _) fun _ _ => .bind (.ofExcept fun bytes made => made) fun bytes made => ?_
      refine .pure ?_
      rw [Sum.elim_inr, ByteCollector.toByteArray_length made]
      exact collected
    · exact .bind (.trivial _) fun _ _ => .bind (.trivial _) fun _ _ => .pure collected
  refine .bind (.trivial _) fun _ _ => .bind (.trivial _) fun _ _ => .bind (.trivial _) fun _ _ => ?_
  refine .bind (.trivial _) fun _ _ => .bind (.loop turn turns nonneg) fun last within => ?_
  cases last with
  | inl s => exact .pure (.none limit)
  | inr bytes =>
    refine .pure ?_
    rintro _ ⟨⟩
    exact within

end

/-! ## The codecs of a platform -/

/-- What one of the `decompress` loops of `ZstdCodec` returns. -/
inductive ZstdCodec.Returns (input : KBytes) (limit : Int) (bytes : List UInt8) : Prop where
  | kmp {τ : Type} {z : Streamer τ} {turns : Nat} {s t : Session τ} :
    (ZstdKmp.decompress z input limit turns).exec s = (.ok (some bytes), t) → Returns input limit bytes
  | native {τ : Type} {z : Streamer τ} {turns : Nat} {s t : Session τ} :
    (ZstdNative.decompress z input limit turns).exec s = (.ok (some bytes), t) →
      Returns input limit bytes

/-- What one of the `decompress` loops of `ZlibCodec` returns. -/
inductive ZlibCodec.Returns (input : KBytes) (limit : Int) (bytes : List UInt8) : Prop where
  | jvm {τ : Type} {z : Inflater τ} {turns : Nat} {s t : InflateSession τ} :
    (ZlibJvm.decompress z input limit turns).exec s = (.ok (some bytes), t) → Returns input limit bytes
  | native {τ : Type} {z : ZStream τ} {turns : Nat} {s t : InflateSession τ} :
    (ZlibNative.decompress z input limit turns).exec s = (.ok (some bytes), t) →
      Returns input limit bytes

/-- What a zstd codec returns is within the limit. -/
lemma ZstdCodec.Returns.le {input : KBytes} {limit : Int} {bytes : List UInt8} (nonneg : 0 ≤ limit)
    (h : ZstdCodec.Returns input limit bytes) : (bytes.length : Int) ≤ limit := by
  cases h with
  | kmp ran => exact ZstdKmp.decompress_within _ _ nonneg _ _ _ ran _ rfl
  | native ran =>
    rw [← ZstdCodec.decompress_agrees] at ran
    exact ZstdKmp.decompress_within _ _ nonneg _ _ _ ran _ rfl

/-- What a zlib codec returns is within the limit. -/
lemma ZlibCodec.Returns.le {input : KBytes} {limit : Int} {bytes : List UInt8} (nonneg : 0 ≤ limit)
    (h : ZlibCodec.Returns input limit bytes) : (bytes.length : Int) ≤ limit := by
  cases h with
  | jvm ran => exact ZlibJvm.decompress_within _ _ nonneg _ _ _ ran _ rfl
  | native ran => exact ZlibNative.decompress_within _ _ nonneg _ _ _ ran _ rfl

namespace Codecs

/-- The codecs are those of the source: what they decompress is what one of the loops returned. -/
structure Actual (cs : Codecs) : Prop where
  zstd : ∀ input limit bytes, cs.zstd.decompress input limit = .ok bytes →
    ZstdCodec.Returns input limit bytes.data
  zlib : ∀ input limit bytes, cs.zlib.decompress input limit = .ok bytes →
    ZlibCodec.Returns input limit bytes.data

/-- What a codec decompresses is within the limit. -/
lemma Actual.decompress_le {cs : Codecs} (actual : cs.Actual) {payload out : KBytes}
    {compression : Compression} {limit : Int} (marked : compression ≠ .none)
    (ran : cs.decompress payload compression limit = .ok out) : (out.size : Int) ≤ limit := by
  unfold decompress at ran
  split at ran
  · cases ran
  next nonneg =>
    have nonneg : 0 ≤ limit := Int.not_lt.mp nonneg
    cases compression with
    | none => exact absurd rfl marked
    | zstd =>
      rcases result : cs.zstd.decompress payload limit with e | bytes
      · simp [result, Except.mapError] at ran
      · simp only [result, Except.mapError, Except.ok.injEq] at ran
        rw [← ran]
        exact (actual.zstd _ _ _ result).le nonneg
    | zlib =>
      rcases result : cs.zlib.decompress payload limit with e | bytes
      · simp [result, Except.mapError] at ran
      · simp only [result, Except.mapError, Except.ok.injEq] at ran
        rw [← ran]
        exact (actual.zlib _ _ _ result).le nonneg

end Codecs

end MsgTrans
