import MsgTrans.Core.Packet
import MsgTrans.Lib.Programs

/-!
# Streaming codecs

What the compression loops share: Kotlin's array operations with the exceptions they throw, the working
buffers of `PayloadCompression.kt` (`workingChunkSize`, `ByteCollector`), and zstd itself as a state
machine. zstd itself is vendored (`nativeInterop/zstd/zstd.c`) and not embedded: `Streamer` is any machine
that is given the unread input and an output capacity and reports what it consumed and produced, with a
remaining hint or an error name. That a context can be allocated is assumed.
-/

namespace MsgTrans

/-- The value of `n` as a Kotlin `Int`. -/
def int32 (n : Int) : Int := n.bmod (2 ^ 32)

/-- A number in the range of an `Int` does not wrap. -/
lemma int32_of_range {n : Int} (lo : 0 ≤ n) (hi : n < 2 ^ 31) : int32 n = n := by
  rw [int32, Int.bmod_def]
  split <;> omega

/-- An `Int` is below `2 ^ 31`. -/
lemma int32_lt (n : Int) : int32 n < 2 ^ 31 := by
  rw [int32, Int.bmod_def]
  split <;> omega

/-- What a codec throws: a `CompressionException`, or what an operation on an array throws. -/
inductive CodecFailure where
  | compression (message : String)
  | negativeArraySize
  | indexOutOfBounds
deriving DecidableEq, Repr

/-- Kotlin `ByteArray(size)`. -/
def byteArray (size : Int) : Except CodecFailure (List UInt8) :=
  if size < 0 then .error .negativeArraySize else .ok (List.replicate size.toNat 0)

/-- Kotlin `ByteArray.copyOf(newSize)`. -/
def copyOf (source : List UInt8) (newSize : Nat) : List UInt8 :=
  source.take newSize ++ List.replicate (newSize - source.length) 0

/-- Kotlin `ByteArray.copyInto(destination, offset)`; the result is the destination. -/
def copyInto (source destination : List UInt8) (offset : Int) : Except CodecFailure (List UInt8) :=
  if offset < 0 ∨ (destination.length : Int) < offset + source.length then .error .indexOutOfBounds
  else .ok (destination.take offset.toNat ++ source ++ destination.drop (offset.toNat + source.length))

def maxChunkSize : Int := 64 * 1024

def minChunkSize : Int := 1024

/-- Kotlin `workingChunkSize`. -/
def workingChunkSize (inputSize : Int) : Int := min (max inputSize minChunkSize) maxChunkSize

/-- Kotlin `ByteCollector`: the chunks in the order they came, and their total size as an `Int`. -/
structure ByteCollector where
  chunks : List (List UInt8)
  size : Int

namespace ByteCollector

def empty : ByteCollector := ⟨[], 0⟩

def append (c : ByteCollector) (source : List UInt8) (count : Int) : ByteCollector :=
  if count ≤ 0 then c
  else ⟨c.chunks ++ [copyOf source count.toNat], int32 (c.size + count)⟩

def toByteArray (c : ByteCollector) : Except CodecFailure (List UInt8) := do
  let result ← byteArray c.size
  let filled ← c.chunks.foldlM (fun (result, offset) chunk => do
    let result ← copyInto chunk result offset
    return (result, int32 (offset + chunk.length))) (result, 0)
  return filled.1

end ByteCollector

/-! ## zstd -/

/-- What one streaming call reports: it consumes no more than it was offered, produces no more than fits,
and ends with the remaining hint or with zstd's error name. -/
structure Report (unread : List UInt8) (capacity : Nat) where
  consumed : Nat
  produced : List UInt8
  code : Except String Int
  consumed_le : consumed ≤ unread.length
  produced_le : produced.length ≤ capacity

/-- A streaming compressor or decompressor of zstd. `setLevel` is the compressor's; it answers with an
error name or none. -/
structure Streamer (σ : Type) where
  setLevel : Int → σ → Option String × σ
  stream : σ → (unread : List UInt8) → (capacity : Nat) → Report unread capacity × σ

/-- A call that reached zstd. -/
inductive ZstdCall where
  | setLevel (level : Int)
  | stream (unread : List UInt8) (capacity : Nat)
deriving DecidableEq, Repr

/-- The state of zstd and the calls made so far. -/
structure Session (σ : Type) where
  machine : σ
  calls : List ZstdCall

/-- Code that talks to zstd. -/
abbrev Zstd (σ : Type) : Type → Type := Program (Session σ) CodecFailure

namespace Streamer

variable {σ : Type} (z : Streamer σ)

/-- Call `ZSTD_CCtx_setParameter` for the compression level. -/
def callSetLevel (level : Int) : Zstd σ (Option String) :=
  ExceptT.mk fun s =>
    let (error, machine) := z.setLevel level s.machine
    (.ok error, ⟨machine, s.calls ++ [.setLevel level]⟩)

/-- Call `ZSTD_compressStream2` or `ZSTD_decompressStream`. -/
def call (unread : List UInt8) (capacity : Nat) : Zstd σ (Report unread capacity) :=
  ExceptT.mk fun s =>
    let (report, machine) := z.stream s.machine unread capacity
    (.ok report, ⟨machine, s.calls ++ [.stream unread capacity]⟩)

end Streamer

end MsgTrans
