import MsgTrans.Core.Decompression

/-!
# Compression round trips

Model of `compress` of the two actuals of `ZlibCodec` (`ZlibCodec.jvm.kt`, `ZlibCodec.native.kt`), and what
becomes of a payload that one of the codecs compresses and one of the same format decompresses. zstd
(vendored as `zstd.c`) and zlib are not embedded. What the loops rely on is stated as laws of the
machines over a relation `frame plain wire`, "`wire` is a frame of `plain`": a compressor that is done
has written a frame, a decompressor gives out the plain bytes of a frame in order and ends with the last
of them, and neither stands still.

Over lawful machines every `compress` loop returns a frame, and every `decompress` loop returns the payload
or says that it exceeds the limit. There is one exception: the loop over `java.util.zip` takes the frame
of the empty payload for a truncated one.
-/

namespace MsgTrans

variable {σ τ : Type}

/-! ## The zlib compressors -/

/-- `java.util.zip.Deflater`; `setInput` is followed by `finish`. -/
structure Deflater (σ : Type) where
  setInput : List UInt8 → σ
  deflate : σ → (capacity : Nat) → { bytes : List UInt8 // bytes.length ≤ capacity } × σ
  finished : σ → Bool

namespace ZlibJvm

/-- `deflater.deflate(chunk)`: the number of bytes and the filled chunk. -/
def deflate (z : Deflater σ) (chunk : List UInt8) : Zlib σ (Nat × List UInt8) :=
  ExceptT.mk fun s =>
    let (bytes, machine) := z.deflate s.machine chunk.length
    (.ok (bytes.val.length, bytes.val ++ chunk.drop bytes.val.length),
      ⟨machine, s.calls ++ [chunk.length]⟩)

/-- One turn of `while (!deflater.finished())`. The chunk is allocated once and filled again and again. -/
def compressTurn (z : Deflater σ) (s : List UInt8 × ByteCollector) :
    Zlib σ ((List UInt8 × ByteCollector) ⊕ ByteCollector) := do
  if ← ask z.finished then return .inr s.2
  else
    let (count, filled) ← deflate z s.1
    return .inl (filled, s.2.append filled count)

/-- Kotlin `ZlibCodec.compress` on the JVM, cut off after `turns` turns. -/
def compress (z : Deflater σ) (input : KBytes) (turns : Nat) : Zlib σ (Option (List UInt8)) := do
  modify fun s => { s with machine := z.setInput input.data }
  let chunk ← Program.ofExcept (byteArray (workingChunkSize input.size))
  match ← Program.loop (compressTurn z) turns (chunk, .empty) with
  | .inl _ => return none
  | .inr output => return some (← Program.ofExcept output.toByteArray)

end ZlibJvm

/-- zlib's deflate: `zlibVersion`, `deflateInit_` with its code, and `deflate` with `Z_FINISH` on what is
left of the input. -/
structure ZDeflate (σ : Type) where
  version : Option String
  init : Int × σ
  deflate : σ → (unread : List UInt8) → (capacity : Nat) → ZReport unread capacity × σ

namespace ZlibNative

def zBufError : Int := -5

/-- One call of `deflate`: its report. -/
def deflate (z : ZDeflate σ) (unread chunk : List UInt8) : Zlib σ (ZReport unread chunk.length) :=
  ExceptT.mk fun s =>
    let (report, machine) := z.deflate s.machine unread chunk.length
    (.ok report, ⟨machine, s.calls ++ [chunk.length]⟩)

/-- One turn of `do … while (result != Z_STREAM_END)`, on the unread input and the output. -/
def compressTurn (z : ZDeflate σ) (chunkSize : Int) (s : List UInt8 × ByteCollector) :
    Zlib σ ((List UInt8 × ByteCollector) ⊕ ByteCollector) := do
  let chunk ← Program.ofExcept (byteArray chunkSize)
  let report ← deflate z s.1 chunk
  Program.failIf (report.result ≠ zOk ∧ report.result ≠ zStreamEnd ∧ report.result ≠ zBufError)
    (.compression s!"zlib compression failed with code {report.result}")
  let output := s.2.append (report.produced ++ chunk.drop report.produced.length) report.produced.length
  return if report.result ≠ zStreamEnd then .inl (s.1.drop report.consumed, output) else .inr output

/-- Kotlin `ZlibCodec.compress` on native targets, cut off after `turns` turns. -/
def compress (z : ZDeflate σ) (input : KBytes) (turns : Nat) : Zlib σ (Option (List UInt8)) := do
  Program.failIf (z.version = none) (.compression "zlib version unavailable")
  Program.failIf (z.init.1 ≠ zOk)
    (.compression s!"zlib initialization failed with code {z.init.1}")
  modify fun s => { s with machine := z.init.2 }
  match ← Program.loop (compressTurn z (workingChunkSize input.size)) turns (input.data, .empty) with
  | .inl _ => return none
  | .inr output => return some (← Program.ofExcept output.toByteArray)

end ZlibNative

/-! ## What the libraries promise -/

/-- `frame plain wire`: the bytes `wire` are a frame of `plain`. -/
abbrev Format : Type := List UInt8 → List UInt8 → Prop

/-- A compressor of zstd. `holds plain m unread out`: in state `m`, with `unread` of the input `plain` left,
it has written `out` and the frame is not complete. A frame has at most `bound` bytes. Nothing is said of
calls after the end of the frame: there zstd begins another one. -/
structure Streamer.Compressor (z : Streamer σ) (start : σ) (frame : Format) (bound : Nat → Nat)
    (holds : List UInt8 → σ → List UInt8 → List UInt8 → Prop) : Prop where
  level : (z.setLevel zstdLevel start).1 = none
  opens : ∀ plain, holds plain (z.setLevel zstdLevel start).2 plain []
  next : ∀ {plain m unread out capacity report m'}, holds plain m unread out → 1 ≤ capacity →
    z.stream m unread capacity = (report, m') →
    (out ++ report.produced).length ≤ bound plain.length ∧
      ∃ remaining, report.code = .ok remaining ∧
        (remaining = 0 → unread.drop report.consumed = [] ∧ frame plain (out ++ report.produced)) ∧
        (remaining ≠ 0 → holds plain m' (unread.drop report.consumed) (out ++ report.produced) ∧
          (0 < report.consumed ∨ 0 < report.produced.length))

/-- A decompressor of zstd. `holds m unread rest`: in state `m`, with `unread` of the frame left, it still
has to give out `rest` or to report the end. Again nothing is said of calls after the end. -/
structure Streamer.Decompressor (z : Streamer σ) (start : σ) (frame : Format)
    (holds : σ → List UInt8 → List UInt8 → Prop) : Prop where
  filled : ∀ {plain wire}, frame plain wire → wire ≠ []
  opens : ∀ {plain wire}, frame plain wire → holds start wire plain
  next : ∀ {m unread rest capacity report m'}, holds m unread rest → 1 ≤ capacity →
    z.stream m unread capacity = (report, m') →
    report.produced <+: rest ∧
      ∃ remaining, report.code = .ok remaining ∧
        (remaining = 0 → unread.drop report.consumed = [] ∧ rest.drop report.produced.length = []) ∧
        (remaining ≠ 0 → holds m' (unread.drop report.consumed) (rest.drop report.produced.length) ∧
          (0 < report.consumed ∨ 0 < report.produced.length))

/-- A `Deflater` that finishes with a frame. -/
structure Deflater.Lawful (z : Deflater σ) (frame : Format) (bound : Nat → Nat)
    (holds : List UInt8 → σ → List UInt8 → Prop) : Prop where
  opens : ∀ plain, holds plain (z.setInput plain) []
  bounded : ∀ {plain m out}, holds plain m out → out.length ≤ bound plain.length
  next : ∀ {plain m out capacity bytes m'}, holds plain m out → z.finished m = false → 1 ≤ capacity →
    z.deflate m capacity = (bytes, m') →
    holds plain m' (out ++ bytes.val) ∧ (z.finished m' = false → bytes.val ≠ [])
  ends : ∀ {plain m out}, holds plain m out → z.finished m = true → frame plain out

/-- zlib's deflate with `Z_FINISH`: the end of the stream comes with a frame, before it every call fills
something. -/
structure ZDeflate.Lawful (z : ZDeflate σ) (frame : Format) (bound : Nat → Nat)
    (holds : List UInt8 → σ → List UInt8 → List UInt8 → Prop) : Prop where
  version : z.version ≠ none
  init : z.init.1 = ZlibNative.zOk
  opens : ∀ plain, holds plain z.init.2 plain []
  bounded : ∀ {plain m unread out}, holds plain m unread out → out.length ≤ bound plain.length
  next : ∀ {plain m unread out capacity report m'}, holds plain m unread out → 1 ≤ capacity →
    z.deflate m unread capacity = (report, m') →
    holds plain m' (unread.drop report.consumed) (out ++ report.produced) ∧
      (report.result = ZlibNative.zStreamEnd ∧ frame plain (out ++ report.produced) ∨
        (report.result = ZlibNative.zOk ∨ report.result = ZlibNative.zBufError) ∧ report.produced ≠ [])

/-- An `Inflater`. With the whole frame at hand a call gives out something while there is something left,
and the call that gives out the last byte reaches the end of the stream: the end comes without output only
for an empty plaintext. -/
structure Inflater.Lawful (z : Inflater σ) (frame : Format) (holds : σ → List UInt8 → Prop) : Prop where
  filled : ∀ {plain wire}, frame plain wire → wire ≠ []
  opens : ∀ {plain wire}, frame plain wire →
    holds (z.setInput wire) plain ∧ z.finished (z.setInput wire) = false
  next : ∀ {m rest capacity answer m'}, holds m rest → z.finished m = false → 1 ≤ capacity →
    z.inflate m capacity = (answer, m') →
    ∃ bytes, answer.produced = .ok bytes ∧ bytes <+: rest ∧ holds m' (rest.drop bytes.length) ∧
      (z.finished m' = true ↔ rest.drop bytes.length = []) ∧ (rest ≠ [] → bytes ≠ [])
  ends : ∀ {m rest}, holds m rest → z.finished m = true → z.remaining m = 0
  needsInput : ∀ m, z.needsInput m = true ↔ z.remaining m = 0
  needsDictionary : ∀ {m rest}, holds m rest → z.needsDictionary m = false

/-- zlib's inflate, likewise. -/
structure ZStream.Lawful (z : ZStream σ) (frame : Format) (holds : σ → List UInt8 → List UInt8 → Prop) :
    Prop where
  filled : ∀ {plain wire}, frame plain wire → wire ≠ []
  version : z.version ≠ none
  init : z.init.1 = ZlibNative.zOk
  opens : ∀ {plain wire}, frame plain wire → holds z.init.2 wire plain
  next : ∀ {m unread rest capacity report m'}, holds m unread rest → 1 ≤ capacity →
    z.inflate m unread capacity = (report, m') →
    report.produced <+: rest ∧
      holds m' (unread.drop report.consumed) (rest.drop report.produced.length) ∧
      (report.result = ZlibNative.zStreamEnd ∧ unread.drop report.consumed = [] ∧
          rest.drop report.produced.length = [] ∨
        report.result = ZlibNative.zOk ∧ report.produced ≠ [])

/-! ## What a loop has collected -/

namespace ByteCollector

variable {c : ByteCollector} {source produced : List UInt8}

/-- What was appended, in order. -/
def bytes (c : ByteCollector) : List UInt8 := c.chunks.flatten

/-- The count is right. -/
def Counted (c : ByteCollector) : Prop := c.size = c.bytes.length

/-- An appended buffer adds the bytes it was filled with. -/
lemma bytes_append (filled : source.take produced.length = produced) :
    (c.append source produced.length).bytes = c.bytes ++ produced := by
  unfold append
  split
  case isTrue none_ =>
    have nothing : produced = [] := List.length_eq_zero_iff.mp (by omega)
    rw [nothing, List.append_nil]
  case isFalse =>
    rw [Int.toNat_natCast, copyOf_eq filled]
    simp [bytes]

/-- The running size stays right as long as it is an `Int`. -/
lemma Counted.append (counted : c.Counted) (filled : source.take produced.length = produced)
    (small : (c.bytes ++ produced).length < 2 ^ 31) : (c.append source produced.length).Counted := by
  have size : c.size = c.bytes.length := counted
  rw [List.length_append] at small
  unfold Counted
  rw [bytes_append filled, List.length_append]
  unfold ByteCollector.append
  split
  case isTrue => omega
  case isFalse =>
    change int32 (c.size + produced.length) = _
    rw [int32_of_range (by omega) (by omega)]
    omega

/-- With the right size the last copy gives back the bytes. -/
lemma Counted.toByteArray (counted : c.Counted) (small : c.bytes.length < 2 ^ 31) :
    c.toByteArray = .ok c.bytes := by
  have size : c.size = c.bytes.length := counted
  exact toByteArray_eq counted (by omega)

end ByteCollector

/-! ## Compressing -/

/-- What a lawful `compress` loop comes to: a frame of the input. -/
def Framed (frame : Format) (bound : Nat → Nat) (plain : List UInt8) (result : Option (List UInt8)) :
    Prop :=
  ∃ wire, result = some wire ∧ frame plain wire ∧ wire.length ≤ bound plain.length

/-- The last lines of a compressor return the frame. -/
lemma Framed.toByteArray {frame : Format} {bound : Nat → Nat} {plain : List UInt8} {c : ByteCollector}
    {s : τ} {E : CodecFailure → τ → Prop} (counted : c.Counted) (framed : frame plain c.bytes)
    (bounded : c.bytes.length ≤ bound plain.length) (fits : bound plain.length < 2 ^ 31) :
    Program.After (do
      let bytes ← Program.ofExcept c.toByteArray
      return some bytes : Program τ CodecFailure (Option (List UInt8))) s
      (fun result _ => Framed frame bound plain result) E := by
  rw [counted.toByteArray (Nat.lt_of_le_of_lt bounded fits), Program.ofExcept_ok_bind]
  exact .pure ⟨c.bytes, rfl, framed, bounded⟩

namespace ZstdKmp

variable {z : Streamer σ} {start : σ} {frame : Format} {bound : Nat → Nat}
  {holds : List UInt8 → σ → List UInt8 → List UInt8 → Prop} {input : KBytes} {k : Cursor} {s : Session σ}

/-- Between two turns of `compress`. -/
structure Compressing (holds : List UInt8 → σ → List UInt8 → List UInt8 → Prop) (input : KBytes)
    (k : Cursor) (s : Session σ) : Prop where
  nonneg : 0 ≤ k.inputOffset
  le : k.inputOffset ≤ input.size
  counted : k.output.Counted
  holds : holds input.data s.machine (input.data.drop k.inputOffset.toNat) k.output.bytes

/-- The bytes that are not read and those that may still be written. -/
def Cursor.ahead (k : Cursor) (input : KBytes) (bound : Nat) : Nat :=
  (input.size - k.inputOffset).toNat + (bound - k.output.bytes.length)

/-- The working buffer has room. -/
lemma workingChunkSize_pos (size : Int) : 1 ≤ workingChunkSize size := by
  unfold workingChunkSize maxChunkSize minChunkSize
  omega

/-- A call that consumed within the input moves the offset on. -/
lemma after_offset {capacity : Nat} (report : Report (input.data.drop k.inputOffset.toNat) capacity)
    (nonneg : 0 ≤ k.inputOffset) (le : k.inputOffset ≤ input.size) (filled : List UInt8) :
    (k.after report filled).inputOffset = k.inputOffset + report.consumed ∧
      k.inputOffset + report.consumed ≤ input.size ∧
      input.data.drop (k.after report filled).inputOffset.toNat =
        (input.data.drop k.inputOffset.toNat).drop report.consumed := by
  have bound := input.size_lt
  have size : input.size = input.data.length := rfl
  have consumed := report.consumed_le
  rw [List.length_drop] at consumed
  have offset : (k.after report filled).inputOffset = k.inputOffset + report.consumed :=
    int32_of_range (by omega) (by omega)
  refine ⟨offset, by omega, ?_⟩
  rw [offset, List.drop_drop]
  congr 1
  omega

/-- One turn of the zstd compressor loop keeps to the frame and comes nearer to its end. -/
lemma compressTurn_frames (law : z.Compressor start frame bound holds) (fits : bound input.size < 2 ^ 31)
    (h : Compressing holds input k s) :
    Program.After (compressTurn z input (workingChunkSize input.size) k) s
      (fun next t => Sum.elim
        (fun k' => Compressing holds input k' t ∧
          k'.ahead input (bound input.size) < k.ahead input (bound input.size))
        (fun k' : Cursor => k'.output.Counted ∧ k'.output.bytes.length ≤ bound input.size ∧
          k'.inputOffset = input.size ∧ frame input.data k'.output.bytes) next)
      (fun _ _ => False) := by
  have nonneg := h.nonneg
  have le := h.le
  have positive := workingChunkSize_pos input.size
  unfold compressTurn
  refine .ofExcept_bind (fun chunk made => ?_) fun e failed => ?_
  swap
  · have := byteArray_error failed
    omega
  have length := byteArray_ok made
  obtain ⟨pending, slice, filled, unread⟩ := ZstdCodec.unread_eq nonneg le
  rw [slice, Program.ofExcept_ok_bind]
  refine .bind (stream_after filled unread ?_ fun report machine _ answer => ?_)
  · rintro rfl
    rw [List.length_nil] at length
    omega
  -- zstd stays within the bound of its frame, and asks for more until the frame is complete
  obtain ⟨bounded, remaining, code, done, more⟩ := law.next h.holds (by omega) answer
  unfold checkZstd
  rw [code]
  refine .ofExcept_bind (fun _ eq => ?_) fun _ eq => by cases eq
  cases eq
  refine .failIf_bind (fun _ => .pure ?_) fun stuck => ?_
  swap
  -- zstd that asks for more has read or written something, so the loop is not stuck
  · have := (more stuck.1).2
    have := stuck.2
    dsimp only at this
    omega
  change Sum.elim _ _
    (if remaining ≠ 0 then .inl (k.after report (report.produced ++ chunk.drop report.produced.length))
      else .inr (k.after report (report.produced ++ chunk.drop report.produced.length)))
  obtain ⟨offset, offset_le, drop⟩ := after_offset report nonneg le
    (report.produced ++ chunk.drop report.produced.length)
  have bytes : (k.after report (report.produced ++ chunk.drop report.produced.length)).output.bytes =
      k.output.bytes ++ report.produced := ByteCollector.bytes_append (List.take_left' rfl)
  change (k.output.bytes ++ report.produced).length ≤ bound input.size at bounded
  have counted :
      (k.after report (report.produced ++ chunk.drop report.produced.length)).output.Counted :=
    h.counted.append (List.take_left' rfl) (by omega)
  generalize k.after report (report.produced ++ chunk.drop report.produced.length) = k' at *
  split
  case isTrue going =>
    obtain ⟨holds', moved⟩ := more going
    refine ⟨⟨by omega, by omega, counted, ?_⟩, ?_⟩
    · rw [drop, bytes]
      exact holds'
    · unfold Cursor.ahead
      rw [offset, bytes]
      rw [List.length_append] at bounded ⊢
      omega
  case isFalse ended =>
    obtain ⟨all, framed⟩ := done (not_not.mp ended)
    refine ⟨counted, bytes ▸ bounded, ?_, bytes ▸ framed⟩
    rw [← drop, List.drop_eq_nil_iff] at all
    have size : input.size = input.data.length := rfl
    omega

/-- The zstd compressor returns a frame of its input, within the bound. -/
lemma compress_frames (law : z.Compressor start frame bound holds) (fits : bound input.size < 2 ^ 31)
    {turns : Nat} (enough : input.size + bound input.size < turns) :
    Program.After (compress z input turns) ⟨start, []⟩
      (fun result _ => Framed frame bound input.data result) (fun _ _ => False) := by
  unfold compress
  refine .bind ?_
  change Program.After (raise (z.setLevel zstdLevel start).1 >>= _)
    ⟨(z.setLevel zstdLevel start).2, _⟩ _ _
  rw [law.level]
  change Program.After (Program.ofExcept (.ok ()) >>= _) _ _ _
  rw [Program.ofExcept_ok_bind]
  have opened : Compressing holds input ⟨0, .empty⟩
      ⟨(z.setLevel zstdLevel start).2, [] ++ [.setLevel zstdLevel]⟩ :=
    ⟨Int.le_refl 0, by simp, rfl, law.opens input.data⟩
  have ahead : Cursor.ahead ⟨0, .empty⟩ input (bound input.size) = input.size + bound input.size := by
    change (input.size - 0 : Int).toNat + (bound input.size - 0) = _
    omega
  have looped := Program.After.loop_stops (fun k _ => k.ahead input (bound input.size))
    (fun k s => compressTurn_frames law fits) turns (by rw [ahead]; exact enough) opened
  refine .bind (looped.mono ?_ fun _ _ => id)
  rintro _ t ⟨k, rfl, counted, bounded, all, framed⟩
  refine .failIf_bind (fun _ => ?_) fun more => more all
  exact Framed.toByteArray counted framed bounded fits

end ZstdKmp

namespace ZlibJvm

variable {z : Deflater σ} {frame : Format} {bound : Nat → Nat}
  {holds : List UInt8 → σ → List UInt8 → Prop} {plain : List UInt8} {chunk : List UInt8}
  {c : ByteCollector} {s : InflateSession σ}

/-- Between two turns of `compress`. -/
structure Compressing (holds : List UInt8 → σ → List UInt8 → Prop) (plain : List UInt8)
    (k : List UInt8 × ByteCollector) (s : InflateSession σ) : Prop where
  room : 1 ≤ k.1.length
  counted : k.2.Counted
  holds : holds plain s.machine k.2.bytes

/-- A turn that goes on writes something, or is the last but one. -/
def ahead (z : Deflater σ) (bound : Nat) (k : List UInt8 × ByteCollector) (s : InflateSession σ) : Nat :=
  bound - k.2.bytes.length + if z.finished s.machine then 0 else 1

/-- `Deflater.deflate` fills the buffer from its start. -/
lemma deflate_after {Q : Nat × List UInt8 → InflateSession σ → Prop}
    {E : CodecFailure → InflateSession σ → Prop}
    (filled : ∀ bytes machine, z.deflate s.machine chunk.length = (bytes, machine) →
      Q (bytes.val.length, bytes.val ++ chunk.drop bytes.val.length)
        ⟨machine, s.calls ++ [chunk.length]⟩) :
    Program.After (deflate z chunk) s Q E :=
  filled _ _ rfl

/-- One turn of the JVM zlib compressor keeps to the frame and comes nearer to its end. -/
lemma compressTurn_frames (law : z.Lawful frame bound holds) (fits : bound plain.length < 2 ^ 31)
    {k : List UInt8 × ByteCollector} (h : Compressing holds plain k s) :
    Program.After (compressTurn z k) s
      (fun next t => Sum.elim
        (fun k' => Compressing holds plain k' t ∧
          ahead z (bound plain.length) k' t < ahead z (bound plain.length) k s)
        (fun c => c.Counted ∧ frame plain c.bytes ∧ c.bytes.length ≤ bound plain.length) next)
      (fun _ _ => False) := by
  unfold compressTurn
  refine ask_bind ?_
  split
  case isTrue finished => exact .pure ⟨h.counted, law.ends h.holds finished, law.bounded h.holds⟩
  case isFalse going =>
    have going : z.finished s.machine = false := Bool.eq_false_iff.mpr going
    refine .bind (deflate_after fun bytes machine answer => .pure ?_)
    obtain ⟨holds', more⟩ := law.next h.holds going h.room answer
    have bounded := law.bounded holds'
    have appended : (k.2.append (bytes.val ++ k.1.drop bytes.val.length) bytes.val.length).bytes =
        k.2.bytes ++ bytes.val := ByteCollector.bytes_append (List.take_left' rfl)
    have room := h.room
    refine ⟨⟨?_, h.counted.append (List.take_left' rfl) (by omega), appended ▸ holds'⟩, ?_⟩
    · simp only [List.length_append, List.length_drop]
      omega
    unfold ahead
    rw [appended, going]
    rw [List.length_append] at bounded ⊢
    cases ended : z.finished machine with
    | true => simp only [if_true, Bool.false_eq_true, if_false]; omega
    | false =>
      have written := List.length_pos_iff.mpr (more ended)
      simp only [Bool.false_eq_true, if_false]
      omega

/-- The JVM zlib compressor returns a frame of its input, within the bound. -/
lemma compress_frames {input : KBytes} (law : z.Lawful frame bound holds)
    (fits : bound input.size < 2 ^ 31) {turns : Nat} (enough : bound input.size + 1 < turns) :
    Program.After (compress z input turns) s
      (fun result _ => Framed frame bound input.data result) (fun _ _ => False) := by
  have positive := ZstdKmp.workingChunkSize_pos input.size
  refine .modify_bind (.ofExcept_bind (fun chunk made => ?_) fun e failed => ?_)
  swap
  · have := byteArray_error failed
    omega
  have length := byteArray_ok made
  have opened : Compressing holds input.data (chunk, .empty) ⟨z.setInput input.data, s.calls⟩ :=
    ⟨by change 1 ≤ chunk.length; omega, rfl, law.opens input.data⟩
  have start : ahead z (bound input.size) (chunk, .empty) ⟨z.setInput input.data, s.calls⟩ < turns := by
    unfold ahead
    change bound input.size - 0 + _ < _
    split <;> omega
  have looped := Program.After.loop_stops (ahead z (bound input.size))
    (fun k s => compressTurn_frames law fits) turns start opened
  refine .bind (looped.mono ?_ fun _ _ => id)
  rintro _ t ⟨c, rfl, counted, framed, bounded⟩
  exact Framed.toByteArray counted framed bounded fits

end ZlibJvm

namespace ZlibNative

variable {z : ZDeflate σ} {frame : Format} {bound : Nat → Nat}
  {holds : List UInt8 → σ → List UInt8 → List UInt8 → Prop} {plain : List UInt8}
  {s : InflateSession σ}

/-- Between two turns of `compress`. -/
structure Compressing (holds : List UInt8 → σ → List UInt8 → List UInt8 → Prop) (plain : List UInt8)
    (k : List UInt8 × ByteCollector) (s : InflateSession σ) : Prop where
  counted : k.2.Counted
  holds : holds plain s.machine k.1 k.2.bytes

/-- The native `deflate` is one call of the library. -/
lemma deflate_after {unread chunk : List UInt8}
    {Q : ZReport unread chunk.length → InflateSession σ → Prop}
    {E : CodecFailure → InflateSession σ → Prop}
    (called : ∀ report machine, z.deflate s.machine unread chunk.length = (report, machine) →
      Q report ⟨machine, s.calls ++ [chunk.length]⟩) :
    Program.After (deflate z unread chunk) s Q E :=
  called _ _ rfl

/-- One turn of the native zlib compressor keeps to the frame and comes nearer to its end. -/
lemma compressTurn_frames (law : z.Lawful frame bound holds) (fits : bound plain.length < 2 ^ 31)
    {k : List UInt8 × ByteCollector} {chunkSize : Int} (room : 1 ≤ chunkSize)
    (h : Compressing holds plain k s) :
    Program.After (compressTurn z chunkSize k) s
      (fun next t => Sum.elim
        (fun k' => Compressing holds plain k' t ∧
          bound plain.length - k'.2.bytes.length < bound plain.length - k.2.bytes.length)
        (fun c => c.Counted ∧ frame plain c.bytes ∧ c.bytes.length ≤ bound plain.length) next)
      (fun _ _ => False) := by
  unfold compressTurn
  refine .ofExcept_bind (fun chunk made => ?_) fun e failed => ?_
  swap
  · have := byteArray_error failed
    omega
  have length := byteArray_ok made
  refine .bind (deflate_after fun report machine answer => ?_)
  obtain ⟨holds', result⟩ := law.next h.holds (by omega) answer
  have bounded := law.bounded holds'
  have appended : (k.2.append (report.produced ++ chunk.drop report.produced.length)
      report.produced.length).bytes = k.2.bytes ++ report.produced :=
    ByteCollector.bytes_append (List.take_left' rfl)
  have counted : (k.2.append (report.produced ++ chunk.drop report.produced.length)
      report.produced.length).Counted := h.counted.append (List.take_left' rfl) (by omega)
  refine .failIf_bind (fun _ => .pure ?_) fun failed => ?_
  swap
  · rcases result with ⟨ended, _⟩ | ⟨going, _⟩
    · exact failed.2.1 ended
    · exact going.elim failed.1 failed.2.2
  rcases result with ⟨ended, framed⟩ | ⟨going, more⟩
  · rw [if_neg (not_not.mpr ended)]
    exact ⟨counted, appended ▸ framed, appended ▸ bounded⟩
  · have before : report.result ≠ zStreamEnd := by
      rcases going with going | going <;> rw [going] <;> decide
    have written := List.length_pos_iff.mpr more
    rw [if_pos before]
    refine ⟨⟨counted, appended ▸ holds'⟩, ?_⟩
    change bound plain.length - (k.2.append _ _).bytes.length < _
    rw [appended]
    rw [List.length_append] at bounded ⊢
    omega

/-- The native zlib compressor returns a frame of its input, within the bound. -/
lemma compress_frames {input : KBytes} (law : z.Lawful frame bound holds)
    (fits : bound input.size < 2 ^ 31) {turns : Nat} (enough : bound input.size < turns) :
    Program.After (compress z input turns) s
      (fun result _ => Framed frame bound input.data result) (fun _ _ => False) := by
  refine .failIf_bind (fun _ => ?_) law.version
  refine .failIf_bind (fun _ => .modify_bind ?_) fun failed => failed law.init
  have opened : Compressing holds input.data (input.data, .empty) ⟨z.init.2, s.calls⟩ :=
    ⟨rfl, law.opens input.data⟩
  have looped := Program.After.loop_stops (fun k _ => bound input.size - k.2.bytes.length)
    (fun k s => compressTurn_frames law fits (ZstdKmp.workingChunkSize_pos input.size)) turns
    (Nat.lt_of_le_of_lt (Nat.sub_le _ _) enough) opened
  refine .bind (looped.mono ?_ fun _ _ => id)
  rintro _ t ⟨c, rfl, counted, framed, bounded⟩
  exact Framed.toByteArray counted framed bounded fits

end ZlibNative

/-! ## Decompressing -/

/-- The payload, or the exception for an output over the limit. -/
def restored (plain : List UInt8) (limit : Int) : Except CodecFailure (Option (List UInt8)) :=
  if (plain.length : Int) ≤ limit then .ok (some plain) else .error (exceedsLimit limit)

/-- A loop has collected what comes before `rest` in `plain`, and no more than the limit. -/
structure Restoring (limit : Int) (plain : List UInt8) (c : ByteCollector) (rest : List UInt8) : Prop where
  bytes : c.bytes ++ rest = plain
  counted : c.Counted
  le : c.size ≤ limit

namespace Restoring

variable {limit : Int} {plain rest source produced : List UInt8} {c : ByteCollector}

/-- At the start nothing is restored. -/
lemma start (nonneg : 0 ≤ limit) : Restoring limit plain .empty plain := ⟨rfl, rfl, nonneg⟩

/-- Every buffer has room for a byte. -/
lemma room {chunkSize : Int} (h : Restoring limit plain c rest) (int : limit < 2 ^ 31)
    (chunk : 0 ≤ chunkSize ∧ chunkSize < 2 ^ 31 - 1) :
    1 ≤ int32 (min (int32 (limit - c.size)) chunkSize + 1) := by
  have size : c.size = c.bytes.length := h.counted
  exact (room_range int (by omega) h.le chunk).1

/-- The total after a call stays within the payload. -/
lemma total (h : Restoring limit plain c rest) (small : plain.length < 2 ^ 31) (next : produced <+: rest) :
    int32 (c.size + produced.length) = c.size + produced.length ∧
      c.size + produced.length ≤ plain.length := by
  have size : c.size = c.bytes.length := h.counted
  have le := next.length_le
  have length := congrArg List.length h.bytes
  rw [List.length_append] at length
  rw [int32_of_range (by omega) (by omega)]
  omega

/-- The next part of the payload is collected. -/
lemma next (h : Restoring limit plain c rest) (small : plain.length < 2 ^ 31) (next : produced <+: rest)
    (within : ¬ int32 (c.size + produced.length) > limit)
    (filled : source.take produced.length = produced) :
    Restoring limit plain (c.append source produced.length) (rest.drop produced.length) := by
  obtain ⟨total, le⟩ := h.total small next
  have size : c.size = c.bytes.length := h.counted
  refine ⟨?_, h.counted.append filled ?_, ByteCollector.append_size h.le within⟩
  · obtain ⟨later, rfl⟩ := next
    rw [ByteCollector.bytes_append filled, List.drop_left' rfl, List.append_assoc, h.bytes]
  · rw [List.length_append]
    omega

/-- Only a payload beyond the limit is refused. -/
lemma exceeds (h : Restoring limit plain c rest) (small : plain.length < 2 ^ 31)
    (next : produced <+: rest) (beyond : int32 (c.size + produced.length) > limit) :
    limit < plain.length := by
  obtain ⟨total, le⟩ := h.total small next
  omega

/-- With nothing left the payload is restored, and it is within the limit. -/
lemma whole (h : Restoring limit plain c []) : c.bytes = plain ∧ (plain.length : Int) ≤ limit := by
  have bytes := h.bytes
  have size : c.size = c.bytes.length := h.counted
  have le := h.le
  rw [List.append_nil] at bytes
  rw [← bytes]
  exact ⟨rfl, by omega⟩

/-- The last line of a codec. -/
lemma toByteArray {β : Type} {f : List UInt8 → β} {s : τ} {Q : β → τ → Prop} {E : CodecFailure → τ → Prop}
    (h : Restoring limit plain c []) (small : plain.length < 2 ^ 31) (holds : Q (f plain) s) :
    Program.After (do
      let bytes ← Program.ofExcept c.toByteArray
      return f bytes : Program τ CodecFailure β) s Q E := by
  obtain ⟨bytes, _⟩ := h.whole
  rw [h.counted.toByteArray (bytes ▸ small), Program.ofExcept_ok_bind, bytes]
  exact .pure holds

end Restoring

/-- What a lawful `decompress` loop returns, -/
def Gave (limit : Int) (plain : List UInt8) (result : Option (List UInt8)) (_ : τ) : Prop :=
  result = some plain ∧ (plain.length : Int) ≤ limit

/-- and when it throws. -/
def Refused (limit : Int) (plain : List UInt8) (e : CodecFailure) (_ : τ) : Prop :=
  e = exceedsLimit limit ∧ limit < plain.length

/-- A program that gives the payload or refuses it does what `restored` says. -/
lemma restored_of_after {limit : Int} {plain : List UInt8} {s : τ}
    {x : Program τ CodecFailure (Option (List UInt8))}
    (h : Program.After x s (Gave limit plain) (Refused limit plain)) :
    (x.exec s).1 = restored plain limit := by
  rcases ran : x.exec s with ⟨e | result, t⟩
  · obtain ⟨rfl, beyond⟩ := h.thrown ran
    rw [restored, if_neg (by omega)]
  · obtain ⟨rfl, le⟩ := h.returned ran
    rw [restored, if_pos le]

namespace ZstdKmp

variable {z : Streamer σ} {start : σ} {frame : Format} {holds : σ → List UInt8 → List UInt8 → Prop}
  {input : KBytes} {plain : List UInt8} {limit : Int} {k : Cursor} {s : Session σ}

/-- Between two turns of `decompress`, with `rest` to come. -/
structure Decompressing (holds : σ → List UInt8 → List UInt8 → Prop) (input : KBytes) (limit : Int)
    (plain : List UInt8) (k : Cursor) (s : Session σ) (rest : List UInt8) : Prop where
  nonneg : 0 ≤ k.inputOffset
  le : k.inputOffset ≤ input.size
  restoring : Restoring limit plain k.output rest
  holds : holds s.machine (input.data.drop k.inputOffset.toNat) rest

/-- The bytes that are neither read nor given out. -/
def Cursor.awaited (k : Cursor) (input : KBytes) (plain : List UInt8) : Nat :=
  (input.size - k.inputOffset).toNat + (plain.length - k.output.bytes.length)

/-- One turn of the zstd decompressor restores the next part, and comes nearer to the end. -/
lemma decompressTurn_restores (law : z.Decompressor start frame holds) (int : limit < 2 ^ 31)
    (small : plain.length < 2 ^ 31) {rest : List UInt8}
    (h : Decompressing holds input limit plain k s rest) :
    Program.After (decompressTurn z input limit (workingChunkSize input.size) k) s
      (fun next t => Sum.elim
        (fun k' => (∃ rest', Decompressing holds input limit plain k' t rest') ∧
          k'.awaited input plain < k.awaited input plain)
        (fun k' : Cursor => Restoring limit plain k'.output [] ∧ k'.inputOffset = input.size) next)
      (Refused limit plain) := by
  have nonneg := h.nonneg
  have le := h.le
  have room := h.restoring.room int (workingChunkSize_range input.size)
  unfold decompressTurn
  refine .ofExcept_bind (fun chunk made => ?_) fun e failed => ?_
  swap
  · have := byteArray_error failed
    omega
  have length := byteArray_ok made
  obtain ⟨pending, slice, filled, unread⟩ := ZstdCodec.unread_eq nonneg le
  rw [slice, Program.ofExcept_ok_bind]
  refine .bind (stream_after filled unread ?_ fun report machine _ answer => ?_)
  · rintro rfl
    rw [List.length_nil] at length
    omega
  -- zstd gives the next bytes of the plaintext, and asks for more while there are some
  obtain ⟨given, remaining, code, done, more⟩ := law.next h.holds (by omega) answer
  unfold checkZstd
  rw [code]
  refine .ofExcept_bind (fun _ eq => ?_) fun _ eq => by cases eq
  cases eq
  refine .failIf_bind (fun within => ?_) fun beyond => ⟨rfl, h.restoring.exceeds small given beyond⟩
  refine .failIf_bind (fun _ => .pure ?_) fun stuck => ?_
  swap
  -- zstd that asks for more has read or given something, so the loop is not stuck
  · have := (more stuck.1).2
    have := stuck.2
    dsimp only at this
    omega
  change Sum.elim _ _
    (if remaining ≠ 0 then .inl (k.after report (report.produced ++ chunk.drop report.produced.length))
      else .inr (k.after report (report.produced ++ chunk.drop report.produced.length)))
  obtain ⟨offset, offset_le, drop⟩ := after_offset report nonneg le
    (report.produced ++ chunk.drop report.produced.length)
  have restoring : Restoring limit plain
      (k.after report (report.produced ++ chunk.drop report.produced.length)).output
      (rest.drop report.produced.length) :=
    h.restoring.next small given within (List.take_left' rfl)
  have bytes : (k.after report (report.produced ++ chunk.drop report.produced.length)).output.bytes =
      k.output.bytes ++ report.produced := ByteCollector.bytes_append (List.take_left' rfl)
  generalize k.after report (report.produced ++ chunk.drop report.produced.length) = k' at *
  split
  case isTrue going =>
    obtain ⟨holds', moved⟩ := more going
    refine ⟨⟨_, by omega, by omega, restoring, drop ▸ holds'⟩, ?_⟩
    -- what is given out and what is left make the plaintext, so the latter shrinks
    have whole := congrArg List.length restoring.bytes
    unfold Cursor.awaited
    rw [bytes] at whole ⊢
    rw [List.length_append] at whole ⊢
    rw [List.length_append] at whole
    rw [offset]
    omega
  case isFalse ended =>
    obtain ⟨all, last⟩ := done (not_not.mp ended)
    refine ⟨last ▸ restoring, ?_⟩
    rw [← drop, List.drop_eq_nil_iff] at all
    have size : input.size = input.data.length := rfl
    omega

/-- The zstd decompressor restores the payload of a frame or refuses it. -/
lemma decompress_restores (law : z.Decompressor start frame holds) (framed : frame plain input.data)
    (small : plain.length < 2 ^ 31) (nonneg : 0 ≤ limit) (int : limit < 2 ^ 31) {turns : Nat}
    (enough : input.size + plain.length < turns) :
    Program.After (decompress z input limit turns) ⟨start, []⟩ (Gave limit plain)
      (Refused limit plain) := by
  refine .failIf_bind (fun _ => ?_) fun none_ =>
    (law.filled framed (List.length_eq_zero_iff.mp none_)).elim
  have opened : Decompressing holds input limit plain ⟨0, .empty⟩ ⟨start, []⟩ plain :=
    ⟨Int.le_refl 0, by simp, .start nonneg, law.opens framed⟩
  have awaited : Cursor.awaited ⟨0, .empty⟩ input plain = input.size + plain.length := by
    change (input.size - 0 : Int).toNat + (plain.length - 0) = _
    omega
  have looped := Program.After.loop_stops (fun k _ => k.awaited input plain)
    (P := fun k s => ∃ rest, Decompressing holds input limit plain k s rest)
    (fun k s => fun ⟨rest, h⟩ => decompressTurn_restores law int small h) turns
    (by rw [awaited]; exact enough) ⟨plain, opened⟩
  refine .bind (looped.mono ?_ fun _ _ => id)
  rintro _ t ⟨k, rfl, restoring, all⟩
  refine .failIf_bind (fun _ => ?_) fun more => (more all).elim
  exact restoring.toByteArray small ⟨rfl, restoring.whole.2⟩

end ZstdKmp

namespace ZlibJvm

variable {z : Inflater σ} {frame : Format} {holds : σ → List UInt8 → Prop} {input : KBytes}
  {plain : List UInt8} {limit : Int} {c : ByteCollector} {s : InflateSession σ}

/-- `"truncated zlib payload"`. -/
def truncated : CodecFailure := .compression "truncated zlib payload"

/-- Between two turns of `decompress`, with `rest` to come. -/
structure Decompressing (z : Inflater σ) (holds : σ → List UInt8 → Prop) (limit : Int)
    (plain : List UInt8) (c : ByteCollector) (s : InflateSession σ) (rest : List UInt8) : Prop where
  restoring : Restoring limit plain c rest
  holds : holds s.machine rest
  ended : z.finished s.machine = true ↔ rest = []

/-- One turn of the JVM zlib decompressor restores the next part, and comes nearer to the end. -/
lemma decompressTurn_restores (law : z.Lawful frame holds) (int : limit < 2 ^ 31)
    (small : plain.length < 2 ^ 31) {rest : List UInt8}
    (h : Decompressing z holds limit plain c s rest) :
    Program.After (decompressTurn z limit c) s
      (fun next t => Sum.elim
        (fun c' : ByteCollector => (∃ rest', Decompressing z holds limit plain c' t rest') ∧
          plain.length - c'.bytes.length < plain.length - c.bytes.length)
        (fun c' => Restoring limit plain c' [] ∧ z.remaining t.machine = 0) next)
      (Refused limit plain) := by
  have room := h.restoring.room int zlibChunkSize_range
  unfold decompressTurn
  refine ask_bind ?_
  split
  case isTrue finished => exact .pure ⟨h.ended.mp finished ▸ h.restoring, law.ends h.holds finished⟩
  case isFalse going =>
    have left : rest ≠ [] := fun none_ => going (h.ended.mpr none_)
    refine .ofExcept_bind (fun chunk made => ?_) fun e failed => ?_
    swap
    · have := byteArray_error failed
      omega
    have length := byteArray_ok made
    obtain ⟨bytes, answer, given, holds', ended, some_⟩ :=
      law.next h.holds (Bool.eq_false_iff.mpr going) (by omega : 1 ≤ chunk.length) rfl
    have produced : 0 < bytes.length := List.length_pos_iff.mpr (some_ left)
    refine .bind (inflate_after (fun e failed => ?_) fun bytes' answer' => ?_)
    · rw [answer] at failed
      cases failed
    rw [answer] at answer'
    cases answer'
    refine .failIf_bind (fun within => ?_) fun beyond => ⟨rfl, h.restoring.exceeds small given beyond⟩
    refine ask_bind (.failIf_bind (fun _ => ?_) fun none_ => by omega)
    refine ask_bind (.failIf_bind (fun _ => .pure ?_) fun none_ => by omega)
    have restoring : Restoring limit plain
        (c.append (bytes ++ chunk.drop bytes.length) bytes.length) (rest.drop bytes.length) :=
      h.restoring.next small given within (List.take_left' rfl)
    refine ⟨⟨_, restoring, holds', ended⟩, ?_⟩
    have whole := congrArg List.length restoring.bytes
    rw [ByteCollector.bytes_append (List.take_left' rfl)] at whole ⊢
    rw [List.length_append] at whole ⊢
    rw [List.length_append] at whole
    omega

/-- The JVM zlib decompressor restores the payload of a frame or refuses it. -/
lemma decompress_restores (law : z.Lawful frame holds) (framed : frame plain input.data)
    (some_ : plain ≠ []) (small : plain.length < 2 ^ 31) (nonneg : 0 ≤ limit) (int : limit < 2 ^ 31)
    {turns : Nat} (enough : plain.length < turns) :
    Program.After (decompress z input limit turns) s (Gave limit plain) (Refused limit plain) := by
  refine .failIf_bind (fun _ => .modify_bind ?_) fun none_ =>
    (law.filled framed (List.length_eq_zero_iff.mp none_)).elim
  obtain ⟨holds_, running⟩ := law.opens framed
  have opened : Decompressing z holds limit plain .empty ⟨z.setInput input.data, s.calls⟩ plain :=
    ⟨.start nonneg, holds_, by simp [running, some_]⟩
  have looped := Program.After.loop_stops (fun c _ => plain.length - c.bytes.length)
    (P := fun c s => ∃ rest, Decompressing z holds limit plain c s rest)
    (fun c s => fun ⟨rest, h⟩ => decompressTurn_restores law int small h) turns
    (Nat.lt_of_le_of_lt (Nat.sub_le _ _) enough) ⟨plain, opened⟩
  refine .bind (looped.mono ?_ fun _ _ => id)
  rintro _ t ⟨c, rfl, restoring, none_⟩
  refine ask_bind (.failIf_bind (fun _ => ?_) fun left => by omega)
  exact restoring.toByteArray small ⟨rfl, restoring.whole.2⟩

/-- The only call on the frame of the empty payload produces nothing and uses up the input, which is what
the loop takes for a truncated frame. -/
lemma decompress_empty (law : z.Lawful frame holds) (framed : frame [] input.data) (nonneg : 0 ≤ limit)
    (int : limit < 2 ^ 31) {turns : Nat} (once : 0 < turns) :
    Program.After (decompress z input limit turns) s (fun _ _ => False) (fun e _ => e = truncated) := by
  refine .failIf_bind (fun _ => .modify_bind ?_) fun none_ =>
    (law.filled framed (List.length_eq_zero_iff.mp none_)).elim
  obtain ⟨holds_, running⟩ := law.opens framed
  have turn : ∀ (c : ByteCollector) (t : InflateSession σ),
      c = .empty ∧ t.machine = z.setInput input.data →
      Program.After (decompressTurn z limit c) t
        (fun next u => Sum.elim (fun c' => (c' = .empty ∧ u.machine = z.setInput input.data) ∧ 0 < 0)
          (fun _ => False) next) (fun e _ => e = truncated) := by
    rintro c t ⟨rfl, machine⟩
    have room : 1 ≤ int32 (min (int32 (limit - 0)) zlibChunkSize + 1) :=
      (room_range int (Int.le_refl 0) nonneg zlibChunkSize_range).1
    unfold decompressTurn
    refine ask_bind ?_
    rw [machine, running]
    refine .ofExcept_bind (fun chunk made => ?_) fun e failed => ?_
    swap
    · have := (byteArray_error failed).1
      change int32 (min (int32 (limit - 0)) zlibChunkSize + 1) < 0 at this
      omega
    have length := byteArray_ok made
    change (chunk.length : Int) = int32 (min (int32 (limit - 0)) zlibChunkSize + 1) at length
    obtain ⟨bytes, answer, given, holds', ended, _⟩ :=
      law.next holds_ running (by omega : 1 ≤ chunk.length) rfl
    obtain rfl := List.prefix_nil.mp given
    have finished := ended.mpr rfl
    refine .bind (inflate_after (fun e failed => ?_) fun bytes' answer' => ?_)
    · rw [machine, answer] at failed
      cases failed
    rw [machine, answer] at answer'
    cases answer'
    rw [machine]
    refine .failIf_bind (fun _ => ?_) fun beyond => ?_
    swap
    · change int32 (0 + 0) > limit at beyond
      rw [int32_of_range (by decide) (by decide)] at beyond
      omega
    refine ask_bind (.failIf_bind (fun _ => ?_) fun dictionary => ?_)
    swap
    · rw [law.needsDictionary holds'] at dictionary
      exact absurd dictionary.2 Bool.false_ne_true
    refine ask_bind (.failIf_bind (fun fed => ?_) fun _ => rfl)
    exact absurd ⟨rfl, (law.needsInput _).mpr (law.ends holds' finished)⟩ fed
  have looped := Program.After.loop_stops (s := ⟨z.setInput input.data, s.calls⟩) (fun _ _ => 0) turn
    turns once ⟨rfl, rfl⟩
  refine .bind (looped.mono ?_ fun _ _ => id)
  rintro _ t ⟨c, _, impossible⟩
  exact impossible.elim

end ZlibJvm

namespace ZlibNative

variable {z : ZStream σ} {frame : Format} {holds : σ → List UInt8 → List UInt8 → Prop} {input : KBytes}
  {plain : List UInt8} {limit : Int} {k : Cursor} {s : InflateSession σ}

/-- Between two turns of `decompress`, with `rest` to come. -/
structure Decompressing (holds : σ → List UInt8 → List UInt8 → Prop) (limit : Int) (plain : List UInt8)
    (k : Cursor) (s : InflateSession σ) (rest : List UInt8) : Prop where
  restoring : Restoring limit plain ⟨k.chunks, k.total⟩ rest
  holds : holds s.machine k.unread rest

/-- One turn of the native zlib decompressor restores the next part, and comes nearer to the end. -/
lemma decompressTurn_restores (law : z.Lawful frame holds) (int : limit < 2 ^ 31)
    (small : plain.length < 2 ^ 31) {rest : List UInt8} (h : Decompressing holds limit plain k s rest) :
    Program.After (decompressTurn z limit k) s
      (fun next t => Sum.elim
        (fun k' : Cursor => (∃ rest', Decompressing holds limit plain k' t rest') ∧
          plain.length - k'.chunks.flatten.length < plain.length - k.chunks.flatten.length)
        (fun bytes => bytes = plain ∧ (plain.length : Int) ≤ limit) next)
      (Refused limit plain) := by
  have room := h.restoring.room int zlibChunkSize_range
  change 1 ≤ int32 (min (int32 (limit - k.total)) zlibChunkSize + 1) at room
  unfold decompressTurn
  refine .ofExcept_bind (fun chunk made => ?_) fun e failed => ?_
  swap
  · have := byteArray_error failed
    omega
  have length := byteArray_ok made
  refine .bind (inflate_after ?_)
  obtain ⟨given, holds', result⟩ := law.next h.holds (by omega : 1 ≤ chunk.length) rfl
  generalize (z.inflate s.machine k.unread chunk.length).1 = report at *
  refine .failIf_bind (fun within => ?_) fun beyond => ⟨rfl, h.restoring.exceeds small given beyond⟩
  have restoring := h.restoring.next small given within List.take_length
  rcases result with ⟨ended, all, last⟩ | ⟨going, more⟩
  · rw [if_pos ended]
    refine .failIf_bind (fun _ => ?_) fun trailing => (trailing all).elim
    rw [last] at restoring
    exact restoring.toByteArray small ⟨rfl, restoring.whole.2⟩
  · have before : report.result ≠ zStreamEnd := by
      rw [going]
      decide
    have produced : 0 < report.produced.length := List.length_pos_iff.mpr more
    rw [if_neg before]
    refine .failIf_bind (fun _ => ?_) fun failed => (failed going).elim
    refine .failIf_bind (fun _ => .pure ⟨⟨_, restoring, holds'⟩, ?_⟩) fun none_ => by omega
    have whole := congrArg List.length restoring.bytes
    have bytes : (ByteCollector.append ⟨k.chunks, k.total⟩ report.produced
        report.produced.length).bytes = k.chunks.flatten ++ report.produced :=
      ByteCollector.bytes_append List.take_length
    change plain.length - (ByteCollector.append ⟨k.chunks, k.total⟩ report.produced
      report.produced.length).bytes.length < _
    rw [bytes] at whole ⊢
    rw [List.length_append] at whole ⊢
    rw [List.length_append] at whole
    omega

/-- The native zlib decompressor restores the payload of a frame or refuses it. -/
lemma decompress_restores (law : z.Lawful frame holds) (framed : frame plain input.data)
    (small : plain.length < 2 ^ 31) (nonneg : 0 ≤ limit) (int : limit < 2 ^ 31) {turns : Nat}
    (enough : plain.length < turns) :
    Program.After (decompress z input limit turns) s (Gave limit plain) (Refused limit plain) := by
  refine .failIf_bind (fun _ => ?_) fun none_ =>
    (law.filled framed (List.length_eq_zero_iff.mp none_)).elim
  refine .failIf_bind (fun _ => ?_) fun none_ => (law.version none_).elim
  refine .failIf_bind (fun _ => .modify_bind ?_) fun failed => (failed law.init).elim
  have opened : Decompressing holds limit plain ⟨input.data, [], 0⟩ ⟨z.init.2, s.calls⟩ plain :=
    ⟨.start nonneg, law.opens framed⟩
  have looped := Program.After.loop_stops (fun (k : Cursor) _ => plain.length - k.chunks.flatten.length)
    (P := fun k s => ∃ rest, Decompressing holds limit plain k s rest)
    (fun k s => fun ⟨rest, h⟩ => decompressTurn_restores law int small h) turns
    (Nat.lt_of_le_of_lt (Nat.sub_le _ _) enough) ⟨plain, opened⟩
  refine .bind (looped.mono ?_ fun _ _ => id)
  rintro _ t ⟨bytes, rfl, rfl, le⟩
  exact .pure ⟨rfl, le⟩

end ZlibNative

/-! ## Lawful machines -/

/-- A format for runs on small inputs: a zero before the payload. -/
def Stored : Format := fun plain wire => wire = 0 :: plain

/-- A stored payload has its mark. -/
lemma Stored.filled {plain wire : List UInt8} (stored : Stored plain wire) : wire ≠ [] := by
  rw [stored]
  exact List.cons_ne_nil _ _

/-- A writer has read nothing, or everything and `pending` is to be written. -/
inductive Storing (plain : List UInt8) : Option (List UInt8) → List UInt8 → List UInt8 → Prop where
  | before : Storing plain none plain []
  | after {out pending : List UInt8} : out ++ pending = 0 :: plain → Storing plain (some pending) [] out

/-- A reader has read nothing, or everything and `rest` is to be given out. -/
inductive Fetching : Option (List UInt8) → List UInt8 → List UInt8 → Prop where
  | before {rest : List UInt8} : Fetching none (0 :: rest) rest
  | after {rest : List UInt8} : Fetching (some rest) [] rest

/-- What a call consumes that reads everything at once. -/
def allAtOnce (m : Option (List UInt8)) (unread : List UInt8) : Nat :=
  if m.isNone then unread.length else 0

/-- A buffering library consumes no more than it is offered. -/
lemma allAtOnce_le (m : Option (List UInt8)) (unread : List UInt8) :
    allAtOnce m unread ≤ unread.length := by
  unfold allAtOnce
  split <;> omega

variable {plain unread out rest : List UInt8} {m : Option (List UInt8)}

/-- What is to be written once the input is read. -/
lemma Storing.next (h : Storing plain m unread out) (capacity : Nat) :
    out ++ m.getD (0 :: unread) = 0 :: plain ∧
      Storing plain (some ((m.getD (0 :: unread)).drop capacity)) (unread.drop (allAtOnce m unread))
        (out ++ (m.getD (0 :: unread)).take capacity) := by
  cases h with
  | before =>
    refine ⟨rfl, ?_⟩
    simp only [allAtOnce, Option.isNone_none, if_true, List.drop_length]
    exact .after (by simp [List.take_append_drop])
  | after split =>
    refine ⟨split, ?_⟩
    simp only [allAtOnce, List.drop_nil]
    exact .after (by rw [List.append_assoc, Option.getD_some, List.take_append_drop, split])

/-- Storing adds the mark and nothing else. -/
lemma Storing.length_le (h : Storing plain m unread out) : out.length ≤ plain.length + 1 := by
  have whole := congrArg List.length (h.next 0).1
  rw [List.length_append, List.length_cons] at whole
  omega

/-- A buffering library takes its whole input in the first call. -/
lemma Fetching.next (h : Fetching m unread rest) :
    m.getD unread.tail = rest ∧ unread.drop (allAtOnce m unread) = [] := by
  cases h with
  | before => exact ⟨rfl, by simp [allAtOnce]⟩
  | after => exact ⟨rfl, List.drop_nil⟩

/-- Dropping what was taken. -/
lemma drop_length_take (bytes : List UInt8) (capacity : Nat) :
    bytes.drop (bytes.take capacity).length = bytes.drop capacity := by
  rw [List.length_take]
  rcases Nat.le_total capacity bytes.length with le | le
  · rw [Nat.min_eq_left le]
  · rw [Nat.min_eq_right le, List.drop_length, List.drop_of_length_le le]

/-- zstd as a machine that reads everything at once and then gives out what it makes of it. -/
def Streamer.buffering (make : List UInt8 → List UInt8) : Streamer (Option (List UInt8)) where
  setLevel _ m := (none, m)
  stream m unread capacity :=
    (⟨allAtOnce m unread, (m.getD (make unread)).take capacity,
      .ok ((m.getD (make unread)).drop capacity).length, allAtOnce_le m unread, List.length_take_le _ _⟩,
      some ((m.getD (make unread)).drop capacity))

/-- A call that leaves something has filled its buffer. -/
lemma take_pos {bytes : List UInt8} {capacity : Nat} (some_ : 1 ≤ capacity)
    (left : ((bytes.drop capacity).length : Int) ≠ 0) : 0 < (bytes.take capacity).length := by
  rw [List.length_drop] at left
  rw [List.length_take]
  omega

/-- The buffering zstd compressor is lawful. -/
lemma Streamer.buffering_compressor :
    (Streamer.buffering (0 :: ·)).Compressor none Stored (· + 1) Storing where
  level := rfl
  opens _ := .before
  next := by
    intro plain m unread out capacity report m' h some_ answer
    cases answer
    obtain ⟨split, next⟩ := h.next capacity
    refine ⟨next.length_le, _, rfl, fun done => ⟨?_, ?_⟩,
      fun more => ⟨next, .inr (take_pos some_ more)⟩⟩
    · cases h <;> simp [allAtOnce]
    · have none_ := List.length_eq_zero_iff.mp (Int.natCast_eq_zero.mp done)
      rw [List.drop_eq_nil_iff] at none_
      dsimp only
      rw [List.take_of_length_le none_]
      exact split

/-- The buffering zstd decompressor is lawful. -/
lemma Streamer.buffering_decompressor :
    (Streamer.buffering List.tail).Decompressor none Stored Fetching where
  filled := Stored.filled
  opens := by
    rintro plain wire rfl
    exact .before
  next := by
    intro m unread rest capacity report m' h some_ answer
    cases answer
    obtain ⟨made, all⟩ := h.next
    dsimp only
    rw [made, all, drop_length_take]
    refine ⟨List.take_prefix _ _, _, rfl, fun done => ⟨rfl, ?_⟩, fun more => ⟨.after, ?_⟩⟩
    · exact List.length_eq_zero_iff.mp (Int.natCast_eq_zero.mp done)
    · exact .inr (take_pos some_ more)

/-- A `Deflater` that is to give out what is in its state. -/
def Deflater.buffering : Deflater (List UInt8) where
  setInput plain := 0 :: plain
  deflate m capacity := (⟨m.take capacity, List.length_take_le _ _⟩, m.drop capacity)
  finished m := m.isEmpty

/-- The buffering JVM deflater is lawful. -/
lemma Deflater.buffering_lawful :
    Deflater.buffering.Lawful Stored (· + 1) fun plain m out => out ++ m = 0 :: plain where
  opens _ := rfl
  bounded := by
    intro plain m out whole
    have length := congrArg List.length whole
    rw [List.length_append, List.length_cons] at length
    omega
  next := by
    intro plain m out capacity bytes m' whole _ some_ answer
    cases answer
    refine ⟨by rw [List.append_assoc, List.take_append_drop, whole], fun more => ?_⟩
    have more : m.drop capacity ≠ [] := by simpa [buffering] using more
    rw [ne_eq, List.drop_eq_nil_iff, Nat.not_le] at more
    exact List.length_pos_iff.mp (by rw [List.length_take]; omega)
  ends := by
    intro plain m out whole finished
    have none_ : m = [] := List.isEmpty_iff.mp finished
    rw [none_, List.append_nil] at whole
    exact whole

/-- The code of a call that leaves `later` for the next one. -/
def zCode (later : List UInt8) : Int := if later = [] then ZlibNative.zStreamEnd else ZlibNative.zOk

def ZDeflate.buffering : ZDeflate (Option (List UInt8)) where
  version := some "1.3.1"
  init := (ZlibNative.zOk, none)
  deflate m unread capacity :=
    (⟨allAtOnce m unread, (m.getD (0 :: unread)).take capacity, zCode ((m.getD (0 :: unread)).drop capacity),
      allAtOnce_le m unread, List.length_take_le _ _⟩, some ((m.getD (0 :: unread)).drop capacity))

/-- The buffering native deflater is lawful. -/
lemma ZDeflate.buffering_lawful : ZDeflate.buffering.Lawful Stored (· + 1) Storing where
  version := by simp [buffering]
  init := rfl
  opens _ := .before
  bounded := Storing.length_le
  next := by
    intro plain m unread out capacity report m' h some_ answer
    cases answer
    obtain ⟨whole, next⟩ := h.next capacity
    refine ⟨next, ?_⟩
    dsimp only
    unfold zCode
    split
    case isTrue done =>
      rw [List.drop_eq_nil_iff] at done
      rw [List.take_of_length_le done]
      exact .inl ⟨rfl, whole⟩
    case isFalse more =>
      rw [List.drop_eq_nil_iff, Nat.not_le] at more
      exact .inr ⟨.inl rfl, List.length_pos_iff.mp (by rw [List.length_take]; omega)⟩

def ZStream.buffering : ZStream (Option (List UInt8)) where
  version := some "1.3.1"
  init := (ZlibNative.zOk, none)
  inflate m unread capacity :=
    (⟨allAtOnce m unread, (m.getD unread.tail).take capacity, zCode ((m.getD unread.tail).drop capacity),
      allAtOnce_le m unread, List.length_take_le _ _⟩, some ((m.getD unread.tail).drop capacity))

/-- The buffering native inflater is lawful. -/
lemma ZStream.buffering_lawful : ZStream.buffering.Lawful Stored Fetching where
  filled := Stored.filled
  version := by simp [buffering]
  init := rfl
  opens := by
    rintro plain wire rfl
    exact .before
  next := by
    intro m unread rest capacity report m' h some_ answer
    cases answer
    obtain ⟨made, all⟩ := h.next
    dsimp only
    rw [made, all, drop_length_take]
    refine ⟨List.take_prefix _ _, .after, ?_⟩
    unfold zCode
    split
    case isTrue done => exact .inl ⟨rfl, rfl, done⟩
    case isFalse more =>
      rw [List.drop_eq_nil_iff, Nat.not_le] at more
      exact .inr ⟨rfl, List.length_pos_iff.mp (by rw [List.length_take]; omega)⟩

/-- An `Inflater` with what it is to give out and the number of bytes it has not read. -/
def Inflater.buffering : Inflater (List UInt8 × Nat) where
  setInput wire := (wire.tail, wire.length)
  inflate m capacity := (⟨.ok (m.1.take capacity), by rintro _ ⟨⟩; exact List.length_take_le _ _⟩,
    (m.1.drop capacity, 0))
  finished m := m.2 == 0 && m.1.isEmpty
  needsDictionary _ := false
  needsInput m := m.2 == 0
  remaining m := m.2
  remaining_setInput _ := rfl
  remaining_inflate _ _ := Nat.zero_le _

/-- The buffering JVM inflater is lawful. -/
lemma Inflater.buffering_lawful : Inflater.buffering.Lawful Stored fun m rest => m.1 = rest where
  filled := Stored.filled
  opens := by
    rintro plain wire rfl
    exact ⟨rfl, rfl⟩
  next := by
    rintro m rest capacity answer m' rfl _ some_ called
    cases called
    refine ⟨_, rfl, List.take_prefix _ _, (drop_length_take _ _).symm, ?_, fun left => ?_⟩
    · rw [drop_length_take]
      simp [buffering]
    · have pos := List.length_pos_iff.mpr left
      exact List.length_pos_iff.mp (by rw [List.length_take]; omega)
  ends := by
    intro m rest _ finished
    simp only [buffering, Bool.and_eq_true, beq_iff_eq] at finished
    exact finished.1
  needsInput m := by simp [buffering]
  needsDictionary _ := rfl

/-! ## Round trips -/

/-- A frame within the bound is a byte array. -/
lemma Framed.fits {frame : Format} {bound : Nat → Nat} {x : KBytes} {result : Option (List UInt8)}
    (h : Framed frame bound x.data result) (fits : bound x.size < 2 ^ 31) :
    ∃ wire : KBytes, result = some wire.data ∧ frame x.data wire.data := by
  obtain ⟨wire, written, framed, bounded⟩ := h
  exact ⟨⟨wire, Nat.lt_of_le_of_lt bounded fits⟩, written, framed⟩

/-- The two actuals of `ZstdCodec` write the same bytes, from which each of them restores the payload, if
the limit allows it. -/
theorem ZstdCodec.zstd_round_trip {writer : Streamer σ} {reader : Streamer τ} {opening : σ} {start : τ}
    {frame : Format} {bound : Nat → Nat}
    {writes : List UInt8 → σ → List UInt8 → List UInt8 → Prop} {reads : τ → List UInt8 → List UInt8 → Prop}
    (compressor : writer.Compressor opening frame bound writes)
    (decompressor : reader.Decompressor start frame reads) (x : KBytes) (fits : bound x.size < 2 ^ 31)
    {turns : Nat} (enough : x.size + bound x.size < turns) :
    ∃ wire : KBytes,
      ((ZstdKmp.compress writer x turns).exec ⟨opening, []⟩).1 = .ok (some wire.data) ∧
      ((ZstdNative.compress writer x turns).exec ⟨opening, []⟩).1 = .ok (some wire.data) ∧
      ∀ limit turns, 0 ≤ limit → limit < 2 ^ 31 → wire.size + x.size < turns →
        ((ZstdKmp.decompress reader wire limit turns).exec ⟨start, []⟩).1 = restored x.data limit ∧
        ((ZstdNative.decompress reader wire limit turns).exec ⟨start, []⟩).1 =
          restored x.data limit := by
  obtain ⟨result, ran, made⟩ := (ZstdKmp.compress_frames compressor fits enough).returns
  obtain ⟨wire, rfl, framed⟩ := made.fits fits
  refine ⟨wire, ran, by rw [← ZstdCodec.compress_agrees]; exact ran, ?_⟩
  intro limit turns nonneg int enough
  rw [← ZstdCodec.decompress_agrees, and_self]
  exact restored_of_after
    (ZstdKmp.decompress_restores decompressor framed x.size_lt nonneg int enough)

/-- One byte, with the limits one and zero. -/
theorem ZstdCodec.zstd_round_trip_one : ∃ wire : KBytes,
    ((ZstdKmp.compress (.buffering (0 :: ·)) .one 4).exec ⟨none, []⟩).1 = .ok (some wire.data) ∧
    ((ZstdNative.decompress (.buffering List.tail) wire 1 (wire.size + 2)).exec ⟨none, []⟩).1 =
      .ok (some [7]) ∧
    ((ZstdNative.decompress (.buffering List.tail) wire 0 (wire.size + 2)).exec ⟨none, []⟩).1 =
      .error (exceedsLimit 0) := by
  obtain ⟨wire, written, _, read⟩ := ZstdCodec.zstd_round_trip Streamer.buffering_compressor
    Streamer.buffering_decompressor .one (by decide) (by decide : KBytes.one.size + 2 < 4)
  have more : wire.size + KBytes.one.size < wire.size + 2 := Nat.add_lt_add_left (by decide) _
  exact ⟨wire, written, (read 1 _ (by decide) (by decide) more).2,
    (read 0 _ (by decide) (by decide) more).2⟩

/-- What either actual of `ZlibCodec` writes, the native one restores, if the limit allows it. So does
the one on the JVM, unless the payload is empty: then it throws. -/
theorem ZlibCodec.zlib_round_trip {σ' τ' : Type} {deflater : Deflater σ} {deflate : ZDeflate τ}
    {inflater : Inflater σ'} {inflate : ZStream τ'} {frame : Format} {bound : Nat → Nat}
    {deflates : List UInt8 → σ → List UInt8 → Prop}
    {writes : List UInt8 → τ → List UInt8 → List UInt8 → Prop} {inflates : σ' → List UInt8 → Prop}
    {reads : τ' → List UInt8 → List UInt8 → Prop} (jvmWriter : deflater.Lawful frame bound deflates)
    (nativeWriter : deflate.Lawful frame bound writes) (jvmReader : inflater.Lawful frame inflates)
    (nativeReader : inflate.Lawful frame reads) (x : KBytes) (fits : bound x.size < 2 ^ 31)
    {turns : Nat} (enough : bound x.size + 1 < turns) (p : InflateSession σ) (q : InflateSession τ) :
    ∃ jvmWire nativeWire : KBytes,
      ((ZlibJvm.compress deflater x turns).exec p).1 = .ok (some jvmWire.data) ∧
      ((ZlibNative.compress deflate x turns).exec q).1 = .ok (some nativeWire.data) ∧
      ∀ wire, wire = jvmWire ∨ wire = nativeWire →
        ∀ limit turns p' q', 0 ≤ limit → limit < 2 ^ 31 → x.size < turns →
          ((ZlibNative.decompress inflate wire limit turns).exec q').1 = restored x.data limit ∧
          ((ZlibJvm.decompress inflater wire limit turns).exec p').1 =
            if x.data = [] then .error ZlibJvm.truncated else restored x.data limit := by
  obtain ⟨_, jvmRan, jvmMade⟩ := (ZlibJvm.compress_frames (s := p) jvmWriter fits enough).returns
  obtain ⟨jvmWire, rfl, jvmFramed⟩ := jvmMade.fits fits
  obtain ⟨_, nativeRan, nativeMade⟩ :=
    (ZlibNative.compress_frames (s := q) nativeWriter fits (Nat.lt_of_succ_lt enough)).returns
  obtain ⟨nativeWire, rfl, nativeFramed⟩ := nativeMade.fits fits
  refine ⟨jvmWire, nativeWire, jvmRan, nativeRan, ?_⟩
  intro wire written limit turns p' q' nonneg int enough
  have framed : frame x.data wire.data := by
    rcases written with rfl | rfl
    · exact jvmFramed
    · exact nativeFramed
  refine ⟨restored_of_after
    (ZlibNative.decompress_restores nativeReader framed x.size_lt nonneg int enough), ?_⟩
  split
  case isTrue empty =>
    rw [empty] at framed
    obtain ⟨e, t, ran, rfl⟩ := (ZlibJvm.decompress_empty (s := p') jvmReader framed nonneg int
      (Nat.lt_of_le_of_lt (Nat.zero_le _) enough)).throws
    rw [ran]
  case isFalse some_ =>
    exact restored_of_after
      (ZlibJvm.decompress_restores jvmReader framed some_ x.size_lt nonneg int enough)

/-- The empty payload, compressed and decompressed on the JVM. -/
theorem ZlibCodec.zlib_round_trip_empty : ∃ wire : KBytes,
    ((ZlibJvm.compress .buffering .empty 3).exec ⟨[], []⟩).1 = .ok (some wire.data) ∧
    ((ZlibNative.decompress .buffering wire 16 1).exec ⟨none, []⟩).1 = .ok (some []) ∧
    ((ZlibJvm.decompress .buffering wire 16 1).exec ⟨([], 0), []⟩).1 = .error ZlibJvm.truncated := by
  obtain ⟨wire, _, written, _, read⟩ := ZlibCodec.zlib_round_trip Deflater.buffering_lawful
    ZDeflate.buffering_lawful Inflater.buffering_lawful ZStream.buffering_lawful .empty (by decide)
    (by decide : KBytes.empty.size + 1 + 1 < 3) ⟨[], []⟩ ⟨none, []⟩
  obtain ⟨native, jvm⟩ :=
    read wire (.inl rfl) 16 1 ⟨([], 0), []⟩ ⟨none, []⟩ (by decide) (by decide) (by decide)
  exact ⟨wire, written, native, jvm⟩

end MsgTrans
