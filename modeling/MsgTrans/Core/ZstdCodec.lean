import MsgTrans.Core.Streaming

/-!
# The two zstd codecs

Model of the two actuals of `ZstdCodec`: the one over zstd-kmp (`ZstdCodec.zstdKmp.kt`), which re-slices
the unread input to index 0, and the one over the vendored library (`ZstdCodec.androidNative.kt`, with the
shims of `zstd.def`), which passes in/out positions. Both are programs over the same `Streamer`. A loop may
never end, so each codec is given a number of turns; `none` says that it is still looping after them.
-/

namespace MsgTrans

def zstdLevel : Int := 3

/-- The exception for an error name of zstd. -/
def zstdError (name : String) : CodecFailure := .compression s!"zstd: {name}"

variable {σ : Type}

/-- Throw for an error name, go on without one. -/
def raise (error : Option String) : Zstd σ Unit :=
  Program.ofExcept (error.elim (.ok ()) fun name => .error (zstdError name))

/-! ## zstd-kmp -/

namespace ZstdKmp

/-- The input array of a call. `NO_INPUT` is told from every other array by its identity. -/
inductive Pending where
  | noInput
  | array (bytes : List UInt8)

namespace Pending

def bytes : Pending → List UInt8
  | .noInput => [0]
  | .array bytes => bytes

/-- Kotlin `if (pending === NO_INPUT) 0 else pending.size`. -/
def inputEnd : Pending → Nat
  | .noInput => 0
  | .array bytes => bytes.length

end Pending

/-- Kotlin `unread`. -/
def unread (input : KBytes) (offset : Int) : Except CodecFailure Pending :=
  if (input.size : Int) ≤ offset then .ok .noInput
  else if offset = 0 then .ok (.array input.data)
  else if offset < 0 then .error .indexOutOfBounds
  else .ok (.array (input.data.drop offset.toNat))

/-- What a call of zstd-kmp leaves behind: its output array, its code and its two counters. -/
structure Processed where
  chunk : List UInt8
  code : Except String Int
  inputBytesProcessed : Int
  outputBytesProcessed : Int

/-- `compressStream2` and `decompressStream` of zstd-kmp: both take the address of element 0 of their
arrays, and `inputBytesProcessed` is reported minus `inputStart`. -/
def stream (z : Streamer σ) (outputByteArray : List UInt8) (outputEnd outputStart : Nat)
    (inputByteArray : List UInt8) (inputEnd inputStart : Nat) : Zstd σ Processed := do
  Program.failIf (outputByteArray = [] ∨ inputByteArray = []) .indexOutOfBounds
  let report ← z.call ((inputByteArray.take inputEnd).drop inputStart) (outputEnd - outputStart)
  return {
    chunk := outputByteArray.take outputStart ++ report.produced ++
      outputByteArray.drop (outputStart + report.produced.length)
    code := report.code
    inputBytesProcessed := report.consumed - inputStart
    outputBytesProcessed := report.produced.length }

/-- Kotlin `checkZstd`. -/
def checkZstd (code : Except String Int) : Zstd σ Int := Program.ofExcept (code.mapError zstdError)

/-- The variables that live across the turns of a loop. -/
structure Cursor where
  inputOffset : Int
  output : ByteCollector

/-- One turn of the loop of `compress`. -/
def compressTurn (z : Streamer σ) (input : KBytes) (chunkSize : Int) (s : Cursor) :
    Zstd σ (Cursor ⊕ Cursor) := do
  let chunk ← Program.ofExcept (byteArray chunkSize)
  let pending ← Program.ofExcept (unread input s.inputOffset)
  let call ← stream z chunk chunk.length 0 pending.bytes pending.inputEnd 0
  let remaining ← checkZstd call.code
  let inputOffset := int32 (s.inputOffset + call.inputBytesProcessed)
  let output := s.output.append call.chunk call.outputBytesProcessed
  Program.failIf (remaining ≠ 0 ∧ call.inputBytesProcessed = 0 ∧ call.outputBytesProcessed = 0)
    (.compression "zstd compressor made no progress")
  return if remaining ≠ 0 then .inl ⟨inputOffset, output⟩ else .inr ⟨inputOffset, output⟩

/-- Kotlin `ZstdCodec.compress`, cut off after `turns` turns. -/
def compress (z : Streamer σ) (input : KBytes) (turns : Nat) : Zstd σ (Option (List UInt8)) := do
  let chunkSize := workingChunkSize input.size
  let error ← z.callSetLevel zstdLevel
  raise error
  match ← Program.loop (compressTurn z input chunkSize) turns ⟨0, .empty⟩ with
  | .inl _ => return none
  | .inr s =>
    Program.failIf (s.inputOffset ≠ input.size)
      (.compression "zstd compressor did not consume its input")
    return some (← Program.ofExcept s.output.toByteArray)

/-- One turn of the loop of `decompress`. -/
def decompressTurn (z : Streamer σ) (input : KBytes) (maxOutputSize preferredChunkSize : Int)
    (s : Cursor) : Zstd σ (Cursor ⊕ Cursor) := do
  let room := int32 (min (int32 (maxOutputSize - s.output.size)) preferredChunkSize + 1)
  let chunk ← Program.ofExcept (byteArray room)
  let pending ← Program.ofExcept (unread input s.inputOffset)
  let call ← stream z chunk chunk.length 0 pending.bytes pending.inputEnd 0
  let remaining ← checkZstd call.code
  let inputOffset := int32 (s.inputOffset + call.inputBytesProcessed)
  let produced := call.outputBytesProcessed
  Program.failIf (int32 (s.output.size + produced) > maxOutputSize)
    (.compression s!"decompressed payload exceeds {maxOutputSize} bytes")
  let output := s.output.append call.chunk produced
  Program.failIf (remaining ≠ 0 ∧ call.inputBytesProcessed = 0 ∧ produced = 0)
    (.compression "truncated zstd payload")
  return if remaining ≠ 0 then .inl ⟨inputOffset, output⟩ else .inr ⟨inputOffset, output⟩

/-- Kotlin `ZstdCodec.decompress`, cut off after `turns` turns. -/
def decompress (z : Streamer σ) (input : KBytes) (maxOutputSize : Int) (turns : Nat) :
    Zstd σ (Option (List UInt8)) := do
  Program.failIf (input.size = 0) (.compression "empty zstd payload")
  let preferredChunkSize := workingChunkSize input.size
  match ← Program.loop (decompressTurn z input maxOutputSize preferredChunkSize) turns
      ⟨0, .empty⟩ with
  | .inl _ => return none
  | .inr s =>
    Program.failIf (s.inputOffset ≠ input.size) (.compression "trailing bytes after zstd frame")
    return some (← Program.ofExcept s.output.toByteArray)

end ZstdKmp

/-! ## Android Native -/

namespace ZstdNative

/-- What a shim leaves in its in/out arguments, and the error name it returns. -/
structure Shimmed where
  dst : List UInt8
  dstPos : Int
  srcPos : Int
  remaining : Int
  error : Option String

/-- `msgtrans_zstd_compress_end` and `msgtrans_zstd_decompress`: one call of zstd from the two positions
on. The source is null when the input is empty. -/
def shim (z : Streamer σ) (dst : List UInt8) (dstCapacity dstPos : Int) (src : Option (List UInt8))
    (srcSize srcPos : Int) : Zstd σ Shimmed := do
  let source := src.getD []
  let report ← z.call ((source.take srcSize.toNat).drop srcPos.toNat)
    (dstCapacity.toNat - dstPos.toNat)
  return {
    dst := dst.take dstPos.toNat ++ report.produced ++ dst.drop (dstPos.toNat + report.produced.length)
    dstPos := int32 (dstPos.toNat + report.produced.length)
    srcPos := int32 (srcPos.toNat + report.consumed)
    remaining := match report.code with
      | .ok code => code
      | .error _ => 0
    error := match report.code with
      | .ok _ => none
      | .error name => some name }

/-- Kotlin `withAddress`: an empty array has no address. -/
def withAddress (input : KBytes) : Option (List UInt8) :=
  if input.size = 0 then none else some input.data

/-- The variables that live across the turns of a loop. -/
structure Cursor where
  inputPos : Int
  output : ByteCollector

/-- One turn of the loop of `compress`. -/
def compressTurn (z : Streamer σ) (input : KBytes) (chunkSize : Int) (s : Cursor) :
    Zstd σ (Cursor ⊕ Cursor) := do
  let chunk ← Program.ofExcept (byteArray chunkSize)
  let consumedBefore := s.inputPos
  -- `dst.addressOf(0)` of a pinned empty array
  Program.failIf (chunk = []) .indexOutOfBounds
  let call ← shim z chunk chunk.length 0 (withAddress input) input.size s.inputPos
  raise call.error
  let produced := call.dstPos
  let output := s.output.append call.dst produced
  Program.failIf (call.remaining ≠ 0 ∧ call.srcPos = consumedBefore ∧ produced = 0)
    (.compression "zstd compressor made no progress")
  return if call.remaining ≠ 0 then .inl ⟨call.srcPos, output⟩ else .inr ⟨call.srcPos, output⟩

/-- Kotlin `ZstdCodec.compress`, cut off after `turns` turns. -/
def compress (z : Streamer σ) (input : KBytes) (turns : Nat) : Zstd σ (Option (List UInt8)) := do
  let error ← z.callSetLevel zstdLevel
  raise error
  let chunkSize := workingChunkSize input.size
  match ← Program.loop (compressTurn z input chunkSize) turns ⟨0, .empty⟩ with
  | .inl _ => return none
  | .inr s =>
    Program.failIf (s.inputPos ≠ input.size) (.compression "zstd compressor did not consume its input")
    return some (← Program.ofExcept s.output.toByteArray)

/-- One turn of the loop of `decompress`. -/
def decompressTurn (z : Streamer σ) (input : KBytes) (maxOutputSize preferredChunkSize : Int)
    (s : Cursor) : Zstd σ (Cursor ⊕ Cursor) := do
  let room := int32 (min (int32 (maxOutputSize - s.output.size)) preferredChunkSize + 1)
  let chunk ← Program.ofExcept (byteArray room)
  let consumedBefore := s.inputPos
  -- `dst.addressOf(0)` of a pinned empty array
  Program.failIf (chunk = []) .indexOutOfBounds
  let call ← shim z chunk chunk.length 0 (withAddress input) input.size s.inputPos
  raise call.error
  let produced := call.dstPos
  Program.failIf (int32 (s.output.size + produced) > maxOutputSize)
    (.compression s!"decompressed payload exceeds {maxOutputSize} bytes")
  let output := s.output.append call.dst produced
  Program.failIf (call.remaining ≠ 0 ∧ call.srcPos = consumedBefore ∧ produced = 0)
    (.compression "truncated zstd payload")
  return if call.remaining ≠ 0 then .inl ⟨call.srcPos, output⟩ else .inr ⟨call.srcPos, output⟩

/-- Kotlin `ZstdCodec.decompress`, cut off after `turns` turns. -/
def decompress (z : Streamer σ) (input : KBytes) (maxOutputSize : Int) (turns : Nat) :
    Zstd σ (Option (List UInt8)) := do
  Program.failIf (input.size = 0) (.compression "empty zstd payload")
  let preferredChunkSize := workingChunkSize input.size
  match ← Program.loop (decompressTurn z input maxOutputSize preferredChunkSize) turns
      ⟨0, .empty⟩ with
  | .inl _ => return none
  | .inr s =>
    Program.failIf (s.inputPos ≠ input.size) (.compression "trailing bytes after zstd frame")
    return some (← Program.ofExcept s.output.toByteArray)

end ZstdNative

/-! ## The two agree -/

namespace ZstdCodec

/-- Two loops at the same place of the input with the same output so far. -/
structure SameCursor (input : KBytes) (k : ZstdKmp.Cursor) (t : ZstdNative.Cursor) : Prop where
  position : t.inputPos = k.inputOffset
  output : t.output = k.output
  nonneg : 0 ≤ k.inputOffset
  le : k.inputOffset ≤ input.size

/-- Both loops start at the beginning. -/
lemma SameCursor.start (input : KBytes) : SameCursor input ⟨0, .empty⟩ ⟨0, .empty⟩ :=
  ⟨rfl, rfl, Int.le_refl 0, by simp⟩

/-- Two calls, made at `offset`, that did and reported the same. -/
structure SameCall (input : KBytes) (offset : Int) (p : ZstdKmp.Processed) (q : ZstdNative.Shimmed) :
    Prop where
  chunk : q.dst = p.chunk
  produced : q.dstPos = p.outputBytesProcessed
  position : q.srcPos = int32 (offset + p.inputBytesProcessed)
  fits : 0 ≤ p.inputBytesProcessed ∧ offset + p.inputBytesProcessed ≤ input.size
  code : p.code = q.error.elim (.ok q.remaining) .error

/-- What is left at an offset within the input, as zstd-kmp is handed it. -/
lemma unread_eq {input : KBytes} {offset : Int} (nonneg : 0 ≤ offset) (le : offset ≤ input.size) :
    ∃ pending, ZstdKmp.unread input offset = .ok pending ∧ pending.bytes ≠ [] ∧
      pending.bytes.take pending.inputEnd = input.data.drop offset.toNat := by
  unfold ZstdKmp.unread
  have size : input.size = input.data.length := rfl
  split_ifs with spent start negative
  · refine ⟨.noInput, rfl, by simp [ZstdKmp.Pending.bytes], ?_⟩
    rw [List.drop_of_length_le (by omega)]
    rfl
  · refine ⟨.array input.data, rfl, ?_, by simp [ZstdKmp.Pending.bytes, ZstdKmp.Pending.inputEnd, start]⟩
    exact List.ne_nil_of_length_pos (by change 0 < input.data.length; omega)
  · omega
  · refine ⟨.array (input.data.drop offset.toNat), rfl, ?_, List.take_length⟩
    exact List.ne_nil_of_length_pos (by rw [ZstdKmp.Pending.bytes, List.length_drop]; omega)

/-- What is left at a position, as the shims are handed it. -/
lemma withAddress_eq (input : KBytes) (position : Int) :
    (((ZstdNative.withAddress input).getD []).take (input.size : Int).toNat).drop position.toNat =
      input.data.drop position.toNat := by
  have size : input.size = input.data.length := rfl
  unfold ZstdNative.withAddress
  split_ifs with none
  · rw [size, List.length_eq_zero_iff] at none
    simp [none]
  · simp [size]

/-- One call through zstd-kmp and one through a shim, with the check for an empty output array. -/
lemma call_agrees (z : Streamer σ) {input : KBytes} {offset : Int} {chunk : List UInt8}
    {pending : ZstdKmp.Pending} (nonneg : 0 ≤ offset) (le : offset ≤ input.size)
    (small : (chunk.length : Int) < 2 ^ 31) (filled : pending.bytes ≠ [])
    (slice : pending.bytes.take pending.inputEnd = input.data.drop offset.toNat) :
    Program.Agree (SameCall input offset)
      (ZstdKmp.stream z chunk chunk.length 0 pending.bytes pending.inputEnd 0)
      (Program.failIf (chunk = []) CodecFailure.indexOutOfBounds >>= fun _ =>
        ZstdNative.shim z chunk chunk.length 0 (ZstdNative.withAddress input) input.size offset) := by
  unfold ZstdKmp.stream ZstdNative.shim
  refine .bind (.failIf (by simp [filled]) _) fun _ _ _ => ?_
  dsimp only
  rw [slice, withAddress_eq, List.drop_zero]
  simp only [Int.toNat_natCast, Int.toNat_zero]
  refine .then_of fun report => .pure ?_
  have consumed := report.consumed_le
  have produced := report.produced_le
  have size : input.size = input.data.length := rfl
  rw [List.length_drop] at consumed
  refine ⟨rfl, ?_, ?_, ?_, ?_⟩
  · dsimp only
    rw [int32_of_range (by omega) (by omega)]
    omega
  · simp [Int.toNat_of_nonneg nonneg]
  · simp only
    omega
  · cases report.code <;> rfl

/-- Both loops raise the same errors. -/
lemma raise_agrees {input : KBytes} {offset : Int} {p : ZstdKmp.Processed} {q : ZstdNative.Shimmed}
    (same : SameCall input offset p q) :
    Program.Agree (fun remaining _ => remaining = q.remaining)
      (ZstdKmp.checkZstd p.code : Zstd σ Int) (raise q.error) := by
  rw [ZstdKmp.checkZstd, raise, same.code]
  intro s
  cases q.error with
  | none => exact ⟨rfl, .ok rfl⟩
  | some name => exact ⟨rfl, .error⟩

/-- `if (remaining != 0L …)` after a call: the counter of zstd-kmp and the position of a shim tell the
same progress. -/
lemma stuck_iff {input : KBytes} {offset : Int} {p : ZstdKmp.Processed} {q : ZstdNative.Shimmed}
    (same : SameCall input offset p q) (nonneg : 0 ≤ offset) :
    (q.remaining ≠ 0 ∧ p.inputBytesProcessed = 0 ∧ p.outputBytesProcessed = 0) ↔
      (q.remaining ≠ 0 ∧ q.srcPos = offset ∧ q.dstPos = 0) := by
  have fits := same.fits
  have bound := input.size_lt
  have size : input.size = input.data.length := rfl
  rw [same.position, same.produced, int32_of_range (by omega) (by omega)]
  constructor
  · rintro ⟨more, spent, none⟩
    exact ⟨more, by omega, none⟩
  · rintro ⟨more, spent, none⟩
    exact ⟨more, by omega, none⟩

/-- The end of a turn. -/
lemma next_agrees {input : KBytes} {offset : Int} {p : ZstdKmp.Processed} {q : ZstdNative.Shimmed}
    (same : SameCall input offset p q) (nonneg : 0 ≤ offset) (output : ByteCollector) :
    Program.Agree (Sum.LiftRel (SameCursor input) (SameCursor input))
      (pure (if q.remaining ≠ 0 then
          .inl ⟨int32 (offset + p.inputBytesProcessed), output.append p.chunk p.outputBytesProcessed⟩
        else .inr ⟨int32 (offset + p.inputBytesProcessed), output.append p.chunk p.outputBytesProcessed⟩) :
          Zstd σ (ZstdKmp.Cursor ⊕ ZstdKmp.Cursor))
      (pure (if q.remaining ≠ 0 then .inl ⟨q.srcPos, output.append q.dst q.dstPos⟩
        else .inr ⟨q.srcPos, output.append q.dst q.dstPos⟩)) := by
  have fits := same.fits
  have bound := input.size_lt
  have size : input.size = input.data.length := rfl
  have kept : SameCursor input
      ⟨int32 (offset + p.inputBytesProcessed), output.append p.chunk p.outputBytesProcessed⟩
      ⟨q.srcPos, output.append q.dst q.dstPos⟩ := by
    refine ⟨same.position, by rw [same.chunk, same.produced], ?_, ?_⟩
    all_goals
      simp only
      rw [int32_of_range (by omega) (by omega)]
      omega
  apply Program.Agree.pure
  split
  · exact .inl kept
  · exact .inr kept

/-- A chunk has an `Int` length. -/
lemma byteArray_length {size : Int} {chunk : List UInt8} (made : byteArray size = .ok chunk)
    (small : size < 2 ^ 31) : (chunk.length : Int) < 2 ^ 31 := by
  unfold byteArray at made
  split at made
  · cases made
  · cases made
    rw [List.length_replicate]
    omega

/-- A turn of one compression loop is a turn of the other. -/
lemma compressTurn_agrees (z : Streamer σ) {input : KBytes} {chunkSize : Int} (small : chunkSize < 2 ^ 31)
    {k : ZstdKmp.Cursor} {t : ZstdNative.Cursor} (same : SameCursor input k t) :
    Program.Agree (Sum.LiftRel (SameCursor input) (SameCursor input))
      (ZstdKmp.compressTurn z input chunkSize k) (ZstdNative.compressTurn z input chunkSize t) := by
  obtain ⟨pending, slice, filled, unread⟩ := unread_eq same.nonneg same.le
  unfold ZstdKmp.compressTurn ZstdNative.compressTurn
  rw [same.position, same.output, slice]
  refine .ofExcept_bind fun chunk made => ?_
  rw [Program.ofExcept_ok_bind, ← bind_assoc]
  refine .bind (call_agrees z same.nonneg same.le (byteArray_length made small) filled unread)
    fun p q call => ?_
  refine .bind (raise_agrees call) fun remaining _ hint => ?_
  rw [hint]
  refine .bind (.failIf (stuck_iff call same.nonneg) _) fun _ _ _ => ?_
  exact next_agrees call same.nonneg k.output

/-- A turn of one decompression loop is a turn of the other. -/
lemma decompressTurn_agrees (z : Streamer σ) {input : KBytes} (maxOutputSize chunkSize : Int)
    {k : ZstdKmp.Cursor} {t : ZstdNative.Cursor} (same : SameCursor input k t) :
    Program.Agree (Sum.LiftRel (SameCursor input) (SameCursor input))
      (ZstdKmp.decompressTurn z input maxOutputSize chunkSize k)
      (ZstdNative.decompressTurn z input maxOutputSize chunkSize t) := by
  obtain ⟨pending, slice, filled, unread⟩ := unread_eq same.nonneg same.le
  unfold ZstdKmp.decompressTurn ZstdNative.decompressTurn
  rw [same.position, same.output, slice]
  refine .ofExcept_bind fun chunk made => ?_
  rw [Program.ofExcept_ok_bind, ← bind_assoc]
  refine .bind (call_agrees z same.nonneg same.le (byteArray_length made (int32_lt _)) filled unread)
    fun p q call => ?_
  refine .bind (raise_agrees call) fun remaining _ hint => ?_
  rw [hint]
  refine .bind (.failIf (by rw [call.produced]) _) fun _ _ _ => ?_
  refine .bind (.failIf (stuck_iff call same.nonneg) _) fun _ _ _ => ?_
  exact next_agrees call same.nonneg k.output

/-- Both platforms compress alike. -/
lemma compress_agrees (z : Streamer σ) (input : KBytes) (turns : Nat) :
    ZstdKmp.compress z input turns = ZstdNative.compress z input turns := by
  apply Program.Agree.eq
  unfold ZstdKmp.compress ZstdNative.compress
  refine .then_of fun error => .then_of fun _ => ?_
  have small : workingChunkSize input.size < 2 ^ 31 := by
    unfold workingChunkSize maxChunkSize
    omega
  refine .bind (.loop (fun _ _ => compressTurn_agrees z small) turns (.start input)) ?_
  rintro _ _ (_ | same)
  · exact .pure rfl
  · dsimp only
    rw [same.position, same.output]
    exact .refl _

/-- Both platforms decompress alike. -/
lemma decompress_agrees (z : Streamer σ) (input : KBytes) (maxOutputSize : Int) (turns : Nat) :
    ZstdKmp.decompress z input maxOutputSize turns = ZstdNative.decompress z input maxOutputSize turns := by
  apply Program.Agree.eq
  unfold ZstdKmp.decompress ZstdNative.decompress
  refine .then_of fun _ => ?_
  refine .bind (.loop (fun _ _ => decompressTurn_agrees z maxOutputSize _) turns (.start input)) ?_
  rintro _ _ (_ | same)
  · exact .pure rfl
  · dsimp only
    rw [same.position, same.output]
    exact .refl _

/-- The two actuals of `ZstdCodec` are the same program: from any state of zstd they make the same calls
in the same order, and are still looping, return the same bytes or throw the same exception, after any
number of turns. -/
theorem actuals_agree (z : Streamer σ) (input : KBytes) (turns : Nat) :
    ZstdKmp.compress z input turns = ZstdNative.compress z input turns ∧
      ∀ maxOutputSize, ZstdKmp.decompress z input maxOutputSize turns =
        ZstdNative.decompress z input maxOutputSize turns :=
  ⟨compress_agrees z input turns, fun maxOutputSize => decompress_agrees z input maxOutputSize turns⟩

end ZstdCodec

end MsgTrans
