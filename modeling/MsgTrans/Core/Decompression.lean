import MsgTrans.Core.Exchanges

/-!
# Decompression is bounded and exact

What each of the four `decompress` loops comes to, whatever its decoder does: it throws a
`CompressionException`, or returns what the decoder produced, within the limit, at the end of the stream
and of the input. Every loop keeps its own form of one invariant, `Tracks`: its variables say what the
decoder was asked and has answered.

The running total is an `Int`, and the loops offer room for one byte more than the limit allows. With
the limit `Int.MAX_VALUE` that byte makes the total negative, and the check of the limit does not see it
(`decompress_overflows`). What happens from there on is followed too, so `decompress_exact` says exactly
which runs end as they should.
-/

namespace MsgTrans

open Exchange

variable {σ : Type}

/-! ## The outcome -/

/-- A collector whose size has wrapped cannot allocate its array. -/
lemma toByteArray_negative {c : ByteCollector} (negative : c.size < 0) :
    c.toByteArray = .error .negativeArraySize := by
  rw [ByteCollector.toByteArray, byteArray, if_pos negative]
  rfl

/-- The last line of a codec, at the end of the stream and of the input. -/
lemma Stage.toByteArray {τ β : Type} {input : KBytes} {limit : Int} {log : List Exchange}
    {c : ByteCollector} {s : τ} {f : List UInt8 → β} {Q : β → τ → Prop} {E : CodecFailure → τ → Prop}
    (h : Stage limit c log) (int : limit < 2 ^ 31) (ended : Ended log) (all : spent log = input.size)
    (returned : ∀ bytes, Verdict input limit log (.ok (some bytes)) → Q (f bytes) s)
    (thrown : ∀ e, Verdict input limit log (.error e) → E e s) :
    Program.After (do
      let bytes ← Program.ofExcept c.toByteArray
      return f bytes : Program τ CodecFailure β) s Q E := by
  cases h with
  | within collected =>
    have le : ((output log).length : Int) ≤ limit := collected.size ▸ collected.le
    rw [collected.toByteArray int]
    refine .ofExcept_bind (fun bytes made => .pure (returned bytes ?_)) fun e eq => by cases eq
    cases made
    refine iff_of_true ⟨fun e eq => (by cases eq), ?_, collected.bounded⟩ (.inr (.inl le))
    rintro _ ⟨⟩
    exact ⟨rfl, le, ended, all⟩
  | spilled largest spilled =>
    subst largest
    rw [toByteArray_negative (by rw [spilled.size]; decide)]
    refine .ofExcept_bind (fun _ eq => by cases eq) ?_
    rintro _ ⟨⟩
    exact thrown _ (spilled.throws (fun message eq => by cases eq) fun left => left.2 all)
  | overrun overrun =>
    exact .ofExcept_bind (fun bytes _ => .pure (returned bytes overrun.verdict)) fun e _ =>
      thrown e overrun.verdict

/-! ## zstd-kmp -/

/-- A call of zstd is logged, and its report is zstd's answer. -/
lemma Streamer.call_after {z : Streamer σ} {unread : List UInt8} {capacity : Nat} {s : Session σ}
    {Q : Report unread capacity → Session σ → Prop} {E : CodecFailure → Session σ → Prop}
    (answered : Q (z.stream s.machine unread capacity).1
      ⟨(z.stream s.machine unread capacity).2, s.calls ++ [.stream unread capacity]⟩) :
    Program.After (z.call unread capacity) s Q E :=
  answered

namespace ZstdKmp

variable {z : Streamer σ} {m : σ} {input : KBytes} {limit : Int} {k : Cursor} {s : Session σ}

/-- One call through zstd-kmp: what it leaves is what zstd reports. -/
lemma stream_after {chunk : List UInt8} {pending : Pending} {offset : Nat}
    {Q : Processed → Session σ → Prop} {E : CodecFailure → Session σ → Prop}
    (filled : pending.bytes ≠ []) (slice : pending.bytes.take pending.inputEnd = input.data.drop offset)
    (refused : chunk = [] → E .indexOutOfBounds s)
    (called : ∀ (report : Report (input.data.drop offset) chunk.length) machine, chunk ≠ [] →
      z.stream s.machine (input.data.drop offset) chunk.length = (report, machine) →
      Q ⟨report.produced ++ chunk.drop report.produced.length, report.code, report.consumed,
        report.produced.length⟩ ⟨machine, s.calls ++ [.stream (input.data.drop offset) chunk.length]⟩) :
    Program.After (stream z chunk chunk.length 0 pending.bytes pending.inputEnd 0) s Q E := by
  unfold stream
  refine .failIf_bind (fun both => ?_) fun empty => refused (empty.resolve_right filled)
  rw [slice, List.drop_zero, Nat.sub_zero]
  refine .bind (Streamer.call_after (.pure ?_))
  simpa using called _ _ (fun empty => both (.inl empty)) rfl

/-- The report of a call passes the checks of a turn. -/
structure Passes (limit : Int) (output : ByteCollector) {unread : List UInt8} {capacity : Nat}
    (report : Report unread capacity) (remaining : Int) : Prop where
  code : report.code = .ok remaining
  within : ¬ int32 (output.size + report.produced.length) > limit
  progress : remaining = 0 ∨ 0 < report.consumed ∨ 0 < report.produced.length

/-- The variables after a call whose output array was filled to `filled`. -/
def Cursor.after (k : Cursor) {unread : List UInt8} {capacity : Nat} (report : Report unread capacity)
    (filled : List UInt8) : Cursor :=
  ⟨int32 (k.inputOffset + report.consumed), k.output.append filled report.produced.length⟩

/-- One turn: there is no room for a buffer, or zstd is called once and its report is checked. -/
lemma decompressTurn_after {chunkSize : Int} {Q : Cursor ⊕ Cursor → Session σ → Prop}
    {E : CodecFailure → Session σ → Prop} (nonneg : 0 ≤ k.inputOffset) (le : k.inputOffset ≤ input.size)
    (refused : int32 (min (int32 (limit - k.output.size)) chunkSize + 1) < 1 →
      ∀ e, (∀ message, e ≠ .compression message) → E e s)
    (called : ∀ (capacity : Nat) (report : Report (input.data.drop k.inputOffset.toNat) capacity)
      machine,
      1 ≤ capacity → capacity = int32 (min (int32 (limit - k.output.size)) chunkSize + 1) →
      z.stream s.machine (input.data.drop k.inputOffset.toNat) capacity = (report, machine) →
      (∀ remaining rest, Passes limit k.output report remaining →
        Q (if remaining ≠ 0 then .inl (k.after report (report.produced ++ rest))
            else .inr (k.after report (report.produced ++ rest)))
          ⟨machine, s.calls ++ [.stream (input.data.drop k.inputOffset.toNat) capacity]⟩) ∧
      ((∀ remaining, ¬ Passes limit k.output report remaining) → ∀ message, E (.compression message)
        ⟨machine, s.calls ++ [.stream (input.data.drop k.inputOffset.toNat) capacity]⟩)) :
    Program.After (decompressTurn z input limit chunkSize k) s Q E := by
  unfold decompressTurn
  refine .ofExcept_bind (fun chunk made => ?_) fun e failed => ?_
  swap
  · obtain ⟨negative, rfl⟩ := byteArray_error failed
    exact refused (by omega) _ fun message eq => by cases eq
  have length := byteArray_ok made
  obtain ⟨pending, slice, filled, unread⟩ := ZstdCodec.unread_eq nonneg le
  rw [slice, Program.ofExcept_ok_bind]
  refine .bind (stream_after filled unread (fun empty => refused ?_ _ fun message eq => by cases eq)
    fun report machine some_ answer => ?_)
  · rw [← length, empty]
    decide
  obtain ⟨passed, failed⟩ :=
    called chunk.length report machine (List.length_pos_iff.mpr some_) length answer
  unfold checkZstd
  rcases code : report.code with name | remaining
  · refine .ofExcept_bind (fun _ eq => by cases eq) ?_
    rintro _ ⟨⟩
    exact failed (fun remaining passes => by rw [passes.code] at code; cases code) _
  · refine .ofExcept_bind (fun _ eq => ?_) fun e eq => by cases eq
    cases eq
    have other : ∀ r, Passes limit k.output report r → r = remaining := fun r passes => by
      have := passes.code.symm.trans code
      cases this
      rfl
    refine .failIf_bind (fun within => ?_) fun exceeds =>
      failed (fun r passes => passes.within exceeds) _
    refine .failIf_bind (fun progress => .pure (passed remaining _ ⟨code, within, ?_⟩)) fun stuck =>
      failed (fun r passes => ?_) _
    · dsimp only at progress
      omega
    · have progress := passes.progress
      rw [other r passes] at progress
      dsimp only at stuck
      omega

/-- Why a report does not pass: it fails, the limit is exceeded, or nothing was produced. -/
lemma not_passes {output : ByteCollector} {unread : List UInt8} {capacity : Nat}
    {report : Report unread capacity} (none_ : ∀ remaining, ¬ Passes limit output report remaining) :
    limit < maxInt ∨ report.exchange.produced = [] ∨ report.exchange.failed = true := by
  rcases code : report.code with name | remaining
  · exact .inr (.inr (by simp [Report.exchange, code]))
  · by_cases exceeds : int32 (output.size + report.produced.length) > limit
    · have lt := int32_lt (output.size + report.produced.length)
      refine .inl ?_
      unfold maxInt
      omega
    · refine .inr (.inl (List.length_eq_zero_iff.mp ?_))
      by_contra some_
      exact none_ remaining ⟨code, exceeds, .inr (.inr (Nat.pos_of_ne_zero some_))⟩

/-- The variables of the loop say what zstd, started in `m`, has answered. -/
structure Tracks (z : Streamer σ) (m : σ) (input : KBytes) (limit : Int) (k : Cursor) (s : Session σ) :
    Prop where
  machine : (replay z.answer m s.calls).2 = s.machine
  offset : k.inputOffset = spent (z.log m s.calls)
  offset_le : spent (z.log m s.calls) ≤ input.size
  output : Stage limit k.output (z.log m s.calls)

/-- The working chunk is small enough that one byte more is still an `Int`. -/
lemma workingChunkSize_range (size : Int) :
    0 ≤ workingChunkSize size ∧ workingChunkSize size < 2 ^ 31 - 1 := by
  unfold workingChunkSize maxChunkSize minChunkSize
  omega

/-- The call that belongs to a cursor. -/
abbrev Cursor.call (k : Cursor) (input : KBytes) (capacity : Nat) : ZstdCall :=
  .stream (input.data.drop k.inputOffset.toNat) capacity

section
variable {capacity : Nat} {report : Report (input.data.drop k.inputOffset.toNat) capacity} {machine : σ}

/-- A call that is logged adds its exchange to the log. -/
lemma Tracks.logged (h : Tracks z m input limit k s)
    (answer : z.stream s.machine (input.data.drop k.inputOffset.toNat) capacity = (report, machine)) :
    z.log m (s.calls ++ [k.call input capacity]) = z.log m s.calls ++ [report.exchange] := by
  rw [Streamer.log, replay_concat _ h.machine, Streamer.answer, answer]
  rfl

/-- The variables after a call, whatever became of the bytes. -/
lemma Tracks.after (h : Tracks z m input limit k s) {filled : List UInt8}
    (answer : z.stream s.machine (input.data.drop k.inputOffset.toNat) capacity = (report, machine))
    (stage : Stage limit (k.output.append filled report.produced.length)
      (z.log m s.calls ++ [report.exchange])) :
    Tracks z m input limit (k.after report filled) ⟨machine, s.calls ++ [k.call input capacity]⟩ := by
  have offset := h.offset
  have offset_le := h.offset_le
  have bound := input.size_lt
  have size : input.size = input.data.length := rfl
  have consumed := report.consumed_le
  rw [List.length_drop] at consumed
  refine ⟨?_, ?_, ?_, ?_⟩
  · rw [replay_concat _ h.machine, Streamer.answer, answer]
  · rw [h.logged answer, spent_concat, Cursor.after, int32_of_range (by omega) (by omega), Nat.cast_add,
      ← offset]
    rfl
  · rw [h.logged answer, spent_concat]
    change spent _ + report.consumed ≤ _
    omega
  · rwa [h.logged answer]

/-- The end of a turn: the loop goes on until nothing remains. -/
lemma Tracks.next (h : Tracks z m input limit k s) {remaining : Int} {filled : List UInt8}
    (answer : z.stream s.machine (input.data.drop k.inputOffset.toNat) capacity = (report, machine))
    (code : report.code = .ok remaining)
    (stage : Stage limit (k.output.append filled report.produced.length)
      (z.log m s.calls ++ [report.exchange])) :
    Sum.elim
      (fun k' => Tracks z m input limit k' ⟨machine, s.calls ++ [k.call input capacity]⟩ ∧
        ¬ Ended (z.log m (s.calls ++ [k.call input capacity])))
      (fun k' => Tracks z m input limit k' ⟨machine, s.calls ++ [k.call input capacity]⟩ ∧
        Ended (z.log m (s.calls ++ [k.call input capacity])))
      (if remaining ≠ 0 then .inl (k.after report filled) else .inr (k.after report filled)) := by
  have tracks := h.after answer stage
  rw [h.logged answer, ended_concat]
  split
  case isTrue going => exact ⟨tracks, by simp [Report.exchange, code, going]⟩
  case isFalse done => exact ⟨tracks, by simp [Report.exchange, code, not_not.mp done]⟩

end

/-- One turn, as long as the end of the stream was not reported. -/
lemma decompressTurn_tracks (int : limit < 2 ^ 31)
    (h : Tracks z m input limit k s ∧ ¬ Ended (z.log m s.calls)) :
    Program.After (decompressTurn z input limit (workingChunkSize input.size) k) s
      (fun next t => Sum.elim (fun k => Tracks z m input limit k t ∧ ¬ Ended (z.log m t.calls))
        (fun k => Tracks z m input limit k t ∧ Ended (z.log m t.calls)) next)
      (fun e t => Verdict input limit (z.log m t.calls) (.error e)) := by
  obtain ⟨h, going⟩ := h
  have offset := h.offset
  have offset_le := h.offset_le
  have chunk := workingChunkSize_range input.size
  refine decompressTurn_after (by omega) (by omega) (fun none_ e other => ?_) ?_
  · -- there is no room once the count is negative
    cases h.output with
    | within collected =>
      have := (collected.room int chunk).1
      omega
    | spilled largest spilled =>
      subst largest
      exact spilled.throws other fun left => going left.1
    | overrun overrun => exact overrun.verdict
  · intro capacity report machine pos capacity_eq answer
    have logged := h.logged answer
    cases h.output with
    | within collected =>
      refine ⟨fun remaining rest passes => h.next answer passes.code ?_, fun none_ message => ?_⟩
      · have sound : report.exchange.failed = false := by simp [Report.exchange, passes.code]
        have fits : (capacity : Int) ≤ limit - k.output.size + 1 := by
          rw [capacity_eq]
          exact (collected.room int chunk).2
        exact Stage.append (x := report.exchange) collected int pos fits sound passes.within
          (List.take_left' rfl)
      · rw [logged]
        exact collected.throws pos ((not_passes none_).imp_right fun reason => reason.imp_right .inl)
    | spilled largest spilled =>
      subst largest
      have none_ := spilled.room chunk.1
      omega
    | overrun overrun =>
      refine ⟨fun remaining rest passes => h.next answer passes.code (.overrun overrun.concat), ?_⟩
      intro _ message
      rw [logged]
      exact overrun.concat.verdict

/-- zstd-kmp: every end of the loop has its verdict. -/
lemma decompress_outcome (nonneg : 0 ≤ limit) (int : limit < 2 ^ 31) (turns : Nat) :
    Program.After (decompress z input limit turns) ⟨m, []⟩
      (fun result t => Verdict input limit (z.log m t.calls) (.ok result))
      (fun e t => Verdict input limit (z.log m t.calls) (.error e)) := by
  refine .failIf_bind (fun _ => ?_) fun _ => Verdict.start nonneg
  have start : Tracks z m input limit ⟨0, .empty⟩ ⟨m, []⟩ ∧ ¬ Ended (z.log m []) :=
    ⟨⟨rfl, rfl, Nat.zero_le _, .start nonneg⟩, not_ended_nil⟩
  have looped := Program.After.loop (fun k s => decompressTurn_tracks int) turns start
  refine .bind (looped.mono ?_ fun _ _ => id)
  rintro (k | k) t last
  · exact .pure last.1.output.unfinished
  · obtain ⟨tracks, ended⟩ := last
    have offset := tracks.offset
    refine .failIf_bind (fun all => ?_) fun left => tracks.output.trailing ended (by omega)
    exact tracks.output.toByteArray int ended (by omega) (fun _ returned => returned)
      fun _ thrown => thrown

end ZstdKmp

/-! ## zlib on the JVM -/

/-- The chunk of the JVM loop is small enough that one byte more is still an `Int`. -/
lemma zlibChunkSize_range : 0 ≤ zlibChunkSize ∧ zlibChunkSize < 2 ^ 31 - 1 := by decide

namespace ZlibJvm

variable {z : Inflater σ} {input : KBytes} {limit : Int} {c : ByteCollector} {s : InflateSession σ}

/-- Asking the inflater changes nothing. -/
lemma ask_bind {α β : Type} {look : σ → α} {f : α → Zlib σ β} {Q : β → InflateSession σ → Prop}
    {E : CodecFailure → InflateSession σ → Prop}
    (rest : Program.After (f (look s.machine)) s Q E) : Program.After (ask look >>= f) s Q E :=
  Program.After.bind rest

/-- One call of `inflate`: it throws, or what it leaves is what the inflater produces. -/
lemma inflate_after {chunk : List UInt8} {Q : Nat × List UInt8 → InflateSession σ → Prop}
    {E : CodecFailure → InflateSession σ → Prop}
    (failed : ∀ e, (z.inflate s.machine chunk.length).1.produced = .error e → ∀ message,
      E (.compression message) ⟨(z.inflate s.machine chunk.length).2, s.calls ++ [chunk.length]⟩)
    (filled : ∀ bytes, (z.inflate s.machine chunk.length).1.produced = .ok bytes →
      Q (bytes.length, bytes ++ chunk.drop bytes.length)
        ⟨(z.inflate s.machine chunk.length).2, s.calls ++ [chunk.length]⟩) :
    Program.After (inflate z chunk) s Q E := by
  unfold inflate
  refine .bind ?_
  change Program.After
    (Program.ofExcept ((z.inflate s.machine chunk.length).1.produced.mapError _) >>= _)
    ⟨(z.inflate s.machine chunk.length).2, s.calls ++ [chunk.length]⟩ Q E
  rcases answer : (z.inflate s.machine chunk.length).1.produced with message | bytes
  · refine .ofExcept_bind (fun _ eq => by cases eq) ?_
    rintro _ ⟨⟩
    exact failed message answer _
  · refine .ofExcept_bind (fun _ eq => ?_) fun _ eq => by cases eq
    cases eq
    exact .pure (filled bytes answer)

/-- The variable of the loop says what the inflater has answered. -/
structure Tracks (z : Inflater σ) (input : KBytes) (limit : Int) (c : ByteCollector)
    (s : InflateSession σ) : Prop where
  machine : (replay z.answer (z.setInput input.data) s.calls).2 = s.machine
  remaining : spent (z.log input s.calls) + z.remaining s.machine = input.size
  ended : z.log input s.calls ≠ [] → (Ended (z.log input s.calls) ↔ z.finished s.machine = true)
  output : Stage limit c (z.log input s.calls)

/-- A call that is logged adds its exchange to the log. -/
lemma Tracks.logged (h : Tracks z input limit c s) (capacity : Nat) :
    z.log input (s.calls ++ [capacity]) = z.log input s.calls ++ [z.exchange s.machine capacity] := by
  rw [Inflater.log, replay_concat _ h.machine]
  rfl

/-- The variable after a call, whatever became of the bytes. -/
lemma Tracks.after {c' : ByteCollector} (h : Tracks z input limit c s) (capacity : Nat)
    (stage : Stage limit c' (z.log input s.calls ++ [z.exchange s.machine capacity])) :
    Tracks z input limit c' ⟨(z.inflate s.machine capacity).2, s.calls ++ [capacity]⟩ := by
  have remaining := h.remaining
  have le := z.remaining_inflate s.machine capacity
  refine ⟨?_, ?_, fun _ => ?_, ?_⟩
  · rw [replay_concat _ h.machine]
    rfl
  · rw [h.logged, spent_concat]
    change spent _ + (z.remaining s.machine - _) + z.remaining (z.inflate s.machine capacity).2 = _
    omega
  · rw [h.logged, ended_concat]
    rfl
  · rwa [h.logged]

/-- A turn of the JVM loop keeps track of what the inflater answers. -/
lemma decompressTurn_tracks (int : limit < 2 ^ 31) (h : Tracks z input limit c s) :
    Program.After (decompressTurn z limit c) s
      (fun next t => Sum.elim (Tracks z input limit · t)
        (fun c => Tracks z input limit c t ∧ z.finished t.machine = true) next)
      (fun e t => Verdict input limit (z.log input t.calls) (.error e)) := by
  have size := zlibChunkSize_range
  unfold decompressTurn
  refine ask_bind ?_
  split
  case isTrue finished => exact .pure ⟨h, finished⟩
  refine .ofExcept_bind (fun chunk made => ?_) fun e failed => ?_
  swap
  · obtain ⟨negative, rfl⟩ := byteArray_error failed
    cases h.output with
    | within collected =>
      have := (collected.room int size).1
      omega
    | spilled largest spilled =>
      subst largest
      have := spilled.room size.1
      omega
    | overrun overrun => exact overrun.verdict
  have length := byteArray_ok made
  by_cases within : Collected limit c (z.log input s.calls)
  · have room := within.room int size
    have pos : 1 ≤ (z.exchange s.machine chunk.length).capacity := by
      change 1 ≤ chunk.length
      omega
    have throws : ∀ message, limit < maxInt ∨ (z.exchange s.machine chunk.length).produced = [] ∨
        (z.exchange s.machine chunk.length).failed = true →
        Verdict input limit (z.log input (s.calls ++ [chunk.length])) (.error (.compression message)) := by
      intro message reason
      rw [h.logged]
      exact within.throws pos (reason.imp_right fun reason => reason.imp_right .inl)
    refine .bind (inflate_after (fun e thrown message => throws message (.inr (.inr ?_)))
      fun bytes produced => ?_)
    · simp [Inflater.exchange, thrown]
    obtain rfl := Inflated.bytes_eq produced
    have empty : (z.inflate s.machine chunk.length).1.bytes.length = 0 →
        (z.exchange s.machine chunk.length).produced = [] := List.length_eq_zero_iff.mp
    refine .failIf_bind (fun passed => ?_) fun exceeds => throws _ (.inl ?_)
    · refine ask_bind (.failIf_bind (fun _ => ?_) fun starved => throws _ (.inr (.inl (empty starved.1))))
      refine ask_bind (.failIf_bind (fun _ => .pure ?_) fun starved =>
        throws _ (.inr (.inl (empty starved.1))))
      refine h.after chunk.length (.append within int pos ?_ ?_ passed (List.take_left' rfl))
      · change (chunk.length : Int) ≤ _
        omega
      · simp [Inflater.exchange, produced]
    · have lt := int32_lt (c.size + (z.inflate s.machine chunk.length).1.bytes.length)
      unfold maxInt
      omega
  · -- the count is negative already, and the decoder is called again
    have over_ : Overrun limit (z.log input (s.calls ++ [chunk.length])) := by
      rw [h.logged]
      exact h.output.overrun_concat within
    refine .bind (inflate_after (fun _ _ _ => over_.verdict) fun bytes produced => ?_)
    refine .failIf_bind (fun _ => ?_) fun _ => over_.verdict
    refine ask_bind (.failIf_bind (fun _ => ?_) fun _ => over_.verdict)
    refine ask_bind (.failIf_bind (fun _ => .pure ?_) fun _ => over_.verdict)
    exact h.after chunk.length (.overrun (h.logged _ ▸ over_))

/-- zlib on the JVM: every end of the loop has its verdict. -/
lemma decompress_outcome (nonneg : 0 ≤ limit) (int : limit < 2 ^ 31) (turns : Nat) (m : σ) :
    Program.After (decompress z input limit turns) ⟨m, []⟩
      (fun result t => Verdict input limit (z.log input t.calls) (.ok result))
      (fun e t => Verdict input limit (z.log input t.calls) (.error e)) := by
  refine .failIf_bind (fun some_ => .modify_bind ?_) fun _ => Verdict.start nonneg
  have start : Tracks z input limit .empty ⟨z.setInput input.data, []⟩ :=
    ⟨rfl, by rw [z.remaining_setInput]; exact Nat.zero_add _, fun ne => absurd rfl ne,
      .start nonneg⟩
  have looped := Program.After.loop (fun c s => decompressTurn_tracks int) turns start
  refine .bind (looped.mono ?_ fun _ _ => id)
  rintro (c | c) t last
  · exact .pure last.output.unfinished
  · obtain ⟨tracks, finished⟩ := last
    have remaining := tracks.remaining
    refine ask_bind (.failIf_bind (fun left => ?_) fun left => ?_)
    · -- the input is not empty, so something was consumed
      have called : z.log input t.calls ≠ [] := by
        intro none_
        have nothing : spent (z.log input t.calls) = 0 := by rw [none_]; rfl
        omega
      exact tracks.output.toByteArray int ((tracks.ended called).mpr finished) (by omega)
        (fun _ returned => returned) fun _ thrown => thrown
    · by_cases called : z.log input t.calls = []
      · rw [called]
        exact Verdict.start nonneg
      · exact tracks.output.trailing ((tracks.ended called).mpr finished) (by omega)

end ZlibJvm

/-! ## zlib on native targets -/

namespace ZlibNative

variable {z : ZStream σ} {input : KBytes} {limit : Int} {k : Cursor} {s : InflateSession σ}

/-- A call of zlib is logged, and its report is zlib's answer. -/
lemma inflate_after {unread chunk : List UInt8}
    {Q : ZReport unread chunk.length → InflateSession σ → Prop}
    {E : CodecFailure → InflateSession σ → Prop}
    (answered : Q (z.inflate s.machine unread chunk.length).1
      ⟨(z.inflate s.machine unread chunk.length).2, s.calls ++ [chunk.length]⟩) :
    Program.After (inflate z unread chunk) s Q E :=
  answered

/-- The variables of the loop say what zlib has answered. -/
structure Tracks (z : ZStream σ) (input : KBytes) (limit : Int) (k : Cursor) (s : InflateSession σ) :
    Prop where
  machine : (replay z.answer (z.init.2, input.data) s.calls).2 = (s.machine, k.unread)
  unread : spent (z.log input s.calls) + k.unread.length = input.size
  output : Stage limit ⟨k.chunks, k.total⟩ (z.log input s.calls)

/-- A call that is logged adds its exchange to the log. -/
lemma Tracks.logged (h : Tracks z input limit k s) (capacity : Nat) :
    z.log input (s.calls ++ [capacity]) =
      z.log input s.calls ++ [(z.inflate s.machine k.unread capacity).1.exchange] := by
  rw [ZStream.log, replay_concat _ h.machine]
  rfl

/-- What zlib has consumed and what it has left make the input. -/
lemma Tracks.left (h : Tracks z input limit k s) (capacity : Nat) :
    spent (z.log input (s.calls ++ [capacity])) +
      (k.unread.drop (z.inflate s.machine k.unread capacity).1.consumed).length = input.size := by
  have unread := h.unread
  have consumed := (z.inflate s.machine k.unread capacity).1.consumed_le
  rw [h.logged, spent_concat, List.length_drop]
  change spent _ + (z.inflate s.machine k.unread capacity).1.consumed + _ = _
  omega

/-- The variables after a call, whatever became of the bytes. -/
lemma Tracks.after {c : ByteCollector} (h : Tracks z input limit k s) (capacity : Nat)
    (stage : Stage limit c (z.log input (s.calls ++ [capacity]))) :
    Tracks z input limit
      ⟨k.unread.drop (z.inflate s.machine k.unread capacity).1.consumed, c.chunks, c.size⟩
      ⟨(z.inflate s.machine k.unread capacity).2, s.calls ++ [capacity]⟩ :=
  ⟨by rw [replay_concat _ h.machine]; rfl, h.left capacity, stage⟩

/-- A turn of the native loop keeps track of what zlib answers. -/
lemma decompressTurn_tracks (int : limit < 2 ^ 31) (h : Tracks z input limit k s) :
    Program.After (decompressTurn z limit k) s
      (fun next t => Sum.elim (Tracks z input limit · t)
        (fun bytes => Verdict input limit (z.log input t.calls) (.ok (some bytes))) next)
      (fun e t => Verdict input limit (z.log input t.calls) (.error e)) := by
  unfold decompressTurn
  refine .ofExcept_bind (fun chunk made => ?_) fun e failed => ?_
  swap
  · have := (byteArray_error failed).1
    omega
  have length := byteArray_ok made
  have logged := h.logged chunk.length
  have left := h.left chunk.length
  have after := fun c => h.after (c := c) chunk.length
  refine .bind (inflate_after ?_)
  generalize (z.inflate s.machine k.unread chunk.length).1 = report at *
  generalize (z.inflate s.machine k.unread chunk.length).2 = machine at *
  by_cases within : Collected limit ⟨k.chunks, k.total⟩ (z.log input s.calls)
  · have room := within.room int zlibChunkSize_range
    have pos : 1 ≤ report.exchange.capacity := by
      change 1 ≤ chunk.length
      omega
    have throws : ∀ message, limit < maxInt ∨ report.exchange.produced = [] ∨
        report.exchange.failed = true ∨
          (report.exchange.ended = true ∧ spent (z.log input s.calls ++ [report.exchange]) ≠ input.size) →
        Verdict input limit (z.log input (s.calls ++ [chunk.length])) (.error (.compression message)) := by
      intro message reason
      rw [logged]
      exact within.throws pos reason
    refine .failIf_bind (fun passed => ?_) fun exceeds => throws _ (.inl ?_)
    swap
    · have lt := int32_lt (k.total + report.produced.length)
      unfold maxInt
      omega
    have stage : report.exchange.failed = false → Stage limit
        (ByteCollector.append ⟨k.chunks, k.total⟩ report.produced report.produced.length)
        (z.log input (s.calls ++ [chunk.length])) := by
      intro sound
      rw [logged]
      refine .append within int pos ?_ sound passed List.take_length
      change (chunk.length : Int) ≤ _
      dsimp only at room ⊢
      omega
    split
    case isTrue ended =>
      have reported : report.exchange.ended = true := beq_iff_eq.mpr ended
      refine .failIf_bind (fun all => ?_) fun trailing => throws _ (.inr (.inr (.inr ⟨reported, ?_⟩)))
      · rw [not_not.mp all, List.length_nil] at left
        refine (stage (by simp [ZReport.exchange, ended])).toByteArray int ?_ left
          (fun _ returned => returned) fun _ thrown => thrown
        rw [logged, ended_concat]
        exact reported
      · have some_ := List.length_pos_iff.mpr trailing
        rw [logged] at left
        omega
    case isFalse going =>
      refine .failIf_bind (fun ok => ?_) fun failed => throws _ (.inr (.inr (.inl ?_)))
      · refine .failIf_bind (fun _ => .pure ?_) fun stuck =>
          throws _ (.inr (.inl (List.length_eq_zero_iff.mp stuck.1)))
        exact after _ (stage (by simp [ZReport.exchange, not_not.mp ok]))
      · simp [ZReport.exchange, going, failed]
  · -- the count is negative already, and the decoder is called again
    have over_ : Overrun limit (z.log input (s.calls ++ [chunk.length])) := by
      rw [logged]
      exact h.output.overrun_concat within
    refine .failIf_bind (fun _ => ?_) fun _ => over_.verdict
    split
    · refine .failIf_bind (fun _ => ?_) fun _ => over_.verdict
      exact .ofExcept_bind (fun _ _ => .pure over_.verdict) fun _ _ => over_.verdict
    · refine .failIf_bind (fun _ => ?_) fun _ => over_.verdict
      refine .failIf_bind (fun _ => .pure ?_) fun _ => over_.verdict
      exact after _ (.overrun over_)

/-- zlib on native targets: every end of the loop has its verdict. -/
lemma decompress_outcome (nonneg : 0 ≤ limit) (int : limit < 2 ^ 31) (turns : Nat) (m : σ) :
    Program.After (decompress z input limit turns) ⟨m, []⟩
      (fun result t => Verdict input limit (z.log input t.calls) (.ok result))
      (fun e t => Verdict input limit (z.log input t.calls) (.error e)) := by
  refine .failIf_bind (fun _ => ?_) fun _ => Verdict.start nonneg
  refine .failIf_bind (fun _ => ?_) fun _ => Verdict.start nonneg
  refine .failIf_bind (fun _ => .modify_bind ?_) fun _ => Verdict.start nonneg
  have start : Tracks z input limit ⟨input.data, [], 0⟩ ⟨z.init.2, []⟩ :=
    ⟨rfl, Nat.zero_add _, .start nonneg⟩
  have looped := Program.After.loop (fun k s => decompressTurn_tracks int) turns start
  refine .bind (looped.mono ?_ fun _ _ => id)
  rintro (k | bytes) t last
  · exact .pure last.output.unfinished
  · exact .pure last

end ZlibNative

/-! ## The limit `Int.MAX_VALUE` -/

/-- The check of the limit: no `Int` is more than the largest. -/
lemma not_gt_maxInt (n : Int) : ¬ int32 n > maxInt := by
  have := int32_lt n
  unfold maxInt
  omega

/-- So much is collected that the `n` bytes to come make `2 ^ 31`. -/
structure Flooding (c : ByteCollector) (n : Nat) : Prop where
  nonneg : 0 ≤ c.size
  sum : c.size + n = 2 ^ 31
  more : 1 ≤ n

namespace Flooding

variable {c : ByteCollector} {n produced : Nat} {source : List UInt8}

/-- Nothing is collected and `2 ^ 31` bytes are to come. -/
lemma start : Flooding .empty (2 ^ 31) := ⟨by decide, by decide, by decide⟩

/-- The chunk has room for a byte and asks for no more than is to come. -/
lemma room {chunkSize : Int} (h : Flooding c n) (chunk : 0 ≤ chunkSize ∧ chunkSize < 2 ^ 31 - 1) :
    1 ≤ int32 (min (int32 (maxInt - c.size)) chunkSize + 1) ∧
      int32 (min (int32 (maxInt - c.size)) chunkSize + 1) ≤ n := by
  have sum := h.sum
  have more := h.more
  have le : c.size ≤ maxInt := by
    unfold maxInt
    omega
  have room := room_range (by decide) h.nonneg le chunk
  unfold maxInt at room ⊢
  omega

/-- A chunk that is not the last is collected. -/
lemma next (h : Flooding c n) (some_ : 1 ≤ produced) (lt : produced < n) :
    Flooding (c.append source produced) (n - produced) := by
  have nonneg := h.nonneg
  have sum := h.sum
  have size : (c.append source produced).size = c.size + produced := by
    rw [ByteCollector.append, if_neg (by omega)]
    exact int32_of_range (by omega) (by omega)
  exact ⟨by omega, by omega, by omega⟩

/-- The last chunk wraps the size. -/
lemma last (h : Flooding c n) (whole : produced = n) : (c.append source produced).size < 0 := by
  have more := h.more
  subst whole
  rw [ByteCollector.append, if_neg (by omega)]
  dsimp only
  rw [h.sum]
  decide

end Flooding

namespace ZstdKmp

/-- zstd with `n` zeros to produce: it reads its input at once and fills every buffer, and hints how
much is left. -/
def flood : Streamer Nat where
  setLevel _ n := (none, n)
  stream n unread capacity :=
    ({ consumed := unread.length
       produced := List.replicate (min n capacity) 0
       code := .ok (n - min n capacity : Nat)
       consumed_le := Nat.le_refl _
       produced_le := by rw [List.length_replicate]; exact Nat.min_le_right n capacity },
      n - min n capacity)

/-- The loop is on its way to `2 ^ 31` bytes. -/
structure Floods (k : Cursor) (s : Session Nat) : Prop where
  nonneg : 0 ≤ k.inputOffset
  le : k.inputOffset ≤ 1
  flooding : Flooding k.output s.machine

/-- A turn of the zstd loop brings fewer bytes to come, or the size has wrapped. -/
lemma decompressTurn_flood {k : Cursor} {s : Session Nat} (h : Floods k s) :
    Program.After (decompressTurn flood .one maxInt (workingChunkSize KBytes.one.size) k) s
      (fun next t => Sum.elim (fun k' => Floods k' t ∧ t.machine < s.machine)
        (fun k' => k'.inputOffset = 1 ∧ k'.output.size < 0) next)
      (fun _ _ => False) := by
  have room := h.flooding.room (workingChunkSize_range KBytes.one.size)
  refine decompressTurn_after h.nonneg h.le (fun none_ => by omega) ?_
  intro capacity report machine pos capacity_eq answer
  have all : min s.machine capacity = capacity := by omega
  obtain ⟨consumed, length, code, left⟩ :
      report.consumed = (KBytes.one.data.drop k.inputOffset.toNat).length ∧
      report.produced.length = capacity ∧ report.code = .ok machine ∧
      machine = s.machine - capacity := by
    simp only [flood, Prod.mk.injEq] at answer
    obtain ⟨rfl, rfl⟩ := answer
    simp [all]
  have offset : int32 (k.inputOffset + report.consumed) = 1 := by
    have lo := h.nonneg
    have hi := h.le
    have one : KBytes.one.data.length = 1 := rfl
    rw [consumed, List.length_drop, int32_of_range (by omega) (by omega)]
    omega
  refine ⟨fun remaining rest passes => ?_, fun none_ => ?_⟩
  · have hint : (machine : Int) = remaining := Except.ok.inj (code.symm.trans passes.code)
    split
    case isTrue going =>
      refine ⟨⟨by simp [Cursor.after, offset], by simp [Cursor.after, offset], ?_⟩, ?_⟩
      · simp only [Cursor.after, length, left]
        exact h.flooding.next pos (by omega)
      · change machine < s.machine
        omega
    case isFalse ended =>
      exact ⟨offset, h.flooding.last (by omega)⟩
  · exact absurd ⟨code, not_gt_maxInt _, .inr (.inr (by omega))⟩ (none_ machine)

/-- The result of `2 ^ 31` bytes is no `CompressionException`. -/
lemma decompress_flood {turns : Nat} (enough : 2 ^ 31 < turns) :
    Program.After (decompress flood .one maxInt turns) ⟨2 ^ 31, []⟩ (fun _ _ => False)
      (fun e _ => e = .negativeArraySize) := by
  refine .failIf_bind (fun _ => ?_) fun empty => by cases empty
  have start : Floods ⟨0, .empty⟩ ⟨2 ^ 31, []⟩ := ⟨by decide, by decide, .start⟩
  have looped := Program.After.loop_stops (E := fun _ _ => False) (fun _ s => s.machine)
    (fun k s => decompressTurn_flood) turns enough start
  refine .bind (looped.mono ?_ fun _ _ => False.elim)
  rintro _ t ⟨k, rfl, all, negative⟩
  refine .failIf_bind (fun _ => ?_) fun trailing => absurd all trailing
  rw [toByteArray_negative negative]
  refine .ofExcept_bind (fun _ eq => by cases eq) ?_
  rintro _ ⟨⟩
  rfl

end ZstdKmp

namespace ZlibJvm

/-- An inflater with zeros to produce: it reads its input at once and fills every buffer. -/
def flood : Inflater (Nat × Nat) where
  setInput input := (2 ^ 31, input.length)
  inflate m capacity :=
    (⟨.ok (List.replicate (min m.1 capacity) 0), fun bytes eq => by
      rw [← Except.ok.inj eq, List.length_replicate]
      exact Nat.min_le_right m.1 capacity⟩, m.1 - min m.1 capacity, 0)
  finished m := m.1 == 0
  needsDictionary _ := false
  needsInput _ := false
  remaining m := m.2
  remaining_setInput _ := rfl
  remaining_inflate _ _ := Nat.zero_le _

/-- The loop is on its way to `2 ^ 31` bytes, or has collected them. -/
def Floods (c : ByteCollector) (s : InflateSession (Nat × Nat)) : Prop :=
  Flooding c s.machine.1 ∨ c.size < 0 ∧ s.machine = (0, 0)

/-- A turn of the JVM loop brings fewer bytes to come, or the size has wrapped. -/
lemma decompressTurn_flood {c : ByteCollector} {s : InflateSession (Nat × Nat)} (h : Floods c s) :
    Program.After (decompressTurn flood maxInt c) s
      (fun next t => Sum.elim (fun c' => Floods c' t ∧ t.machine.1 < s.machine.1)
        (fun c' => c'.size < 0 ∧ t.machine = (0, 0)) next)
      (fun _ _ => False) := by
  unfold decompressTurn
  refine ask_bind ?_
  obtain flooding | over_ := h
  swap
  · have finished : flood.finished s.machine = true := by rw [over_.2]; rfl
    rw [finished]
    exact .pure over_
  have more := flooding.more
  have going : flood.finished s.machine = false := by
    simp only [flood, beq_eq_false_iff_ne]
    omega
  rw [going]
  have room := flooding.room zlibChunkSize_range
  refine .ofExcept_bind (fun chunk made => ?_) fun e failed => ?_
  swap
  · have := byteArray_error failed
    omega
  have length := byteArray_ok made
  have all : min s.machine.1 chunk.length = chunk.length := by omega
  have machine : (flood.inflate s.machine chunk.length).2 = (s.machine.1 - chunk.length, 0) := by
    simp only [flood, all]
  refine .bind (inflate_after (fun e thrown => by cases thrown) fun bytes produced => ?_)
  have size : bytes.length = chunk.length := by
    have := Except.ok.inj produced
    rw [← this, List.length_replicate, all]
  dsimp only
  rw [size, machine]
  refine .failIf_bind (fun _ => ?_) fun exceeds => absurd exceeds (not_gt_maxInt _)
  refine ask_bind (.failIf_bind (fun _ => ?_) fun starved => by cases starved.2)
  refine ask_bind (.failIf_bind (fun _ => .pure ?_) fun starved => by cases starved.2)
  refine ⟨?_, by change s.machine.1 - chunk.length < _; omega⟩
  by_cases last : chunk.length = s.machine.1
  · exact .inr ⟨flooding.last last, by rw [last, Nat.sub_self]⟩
  · exact .inl (flooding.next (by omega) (by omega))

/-- The JVM loop ends with a negative array size. -/
lemma decompress_flood {turns : Nat} (enough : 2 ^ 31 < turns) (m : Nat × Nat) :
    Program.After (decompress flood .one maxInt turns) ⟨m, []⟩ (fun _ _ => False)
      (fun e _ => e = .negativeArraySize) := by
  refine .failIf_bind (fun _ => .modify_bind ?_) fun empty => by cases empty
  have start : Floods .empty ⟨(2 ^ 31, 1), []⟩ := .inl .start
  have looped := Program.After.loop_stops (E := fun _ _ => False) (fun _ s => s.machine.1)
    (fun c s => decompressTurn_flood) turns enough start
  refine .bind (looped.mono ?_ fun _ _ => False.elim)
  rintro _ t ⟨c, rfl, negative, machine⟩
  refine ask_bind (.failIf_bind (fun _ => ?_) fun trailing => ?_)
  · rw [toByteArray_negative negative]
    refine .ofExcept_bind (fun _ eq => by cases eq) ?_
    rintro _ ⟨⟩
    rfl
  · rw [machine] at trailing
    cases trailing

end ZlibJvm

namespace ZlibNative

/-- zlib with `n` zeros to produce: it reads its input at once and fills every buffer. -/
def flood : ZStream Nat where
  version := some "1.3"
  init := (zOk, 2 ^ 31)
  inflate n unread capacity :=
    ({ consumed := unread.length
       produced := List.replicate (min n capacity) 0
       result := if n ≤ capacity then zStreamEnd else zOk
       consumed_le := Nat.le_refl _
       produced_le := by rw [List.length_replicate]; exact Nat.min_le_right n capacity },
      n - min n capacity)

/-- The loop is on its way to `2 ^ 31` bytes. -/
def Floods (k : Cursor) (s : InflateSession Nat) : Prop := Flooding ⟨k.chunks, k.total⟩ s.machine

/-- A turn of the native loop brings fewer bytes to come, or fails with a negative array size. -/
lemma decompressTurn_flood {k : Cursor} {s : InflateSession Nat} (h : Floods k s) :
    Program.After (decompressTurn flood maxInt k) s
      (fun next t => Sum.elim (fun k' => Floods k' t ∧ t.machine < s.machine) (fun _ => False) next)
      (fun e _ => e = .negativeArraySize) := by
  have more := h.more
  have room := h.room zlibChunkSize_range
  unfold decompressTurn
  refine .ofExcept_bind (fun chunk made => ?_) fun e failed => ?_
  swap
  · have := byteArray_error failed
    omega
  have length := byteArray_ok made
  dsimp only at room
  have all : min s.machine chunk.length = chunk.length := by omega
  refine .bind (inflate_after ?_)
  have spent : k.unread.drop (flood.inflate s.machine k.unread chunk.length).1.consumed = [] :=
    List.drop_length
  have size : (flood.inflate s.machine k.unread chunk.length).1.produced.length = chunk.length := by
    simp only [flood, all, List.length_replicate]
  have machine : (flood.inflate s.machine k.unread chunk.length).2 = s.machine - chunk.length := by
    simp only [flood, all]
  have result : (flood.inflate s.machine k.unread chunk.length).1.result =
      if s.machine ≤ chunk.length then zStreamEnd else zOk := rfl
  rw [machine]
  generalize (flood.inflate s.machine k.unread chunk.length).1 = report at *
  dsimp only
  rw [spent, size, result]
  refine .failIf_bind (fun _ => ?_) fun exceeds => absurd exceeds (not_gt_maxInt _)
  by_cases last : s.machine ≤ chunk.length
  · rw [if_pos last, if_pos rfl]
    refine .failIf_bind (fun _ => ?_) fun trailing => absurd rfl trailing
    rw [toByteArray_negative (h.last (by omega))]
    refine .ofExcept_bind (fun _ eq => by cases eq) ?_
    rintro _ ⟨⟩
    rfl
  · rw [if_neg last, if_neg (by decide)]
    refine .failIf_bind (fun _ => ?_) fun failed => absurd rfl failed
    refine .failIf_bind (fun _ => .pure ⟨?_, ?_⟩) fun stuck => by omega
    · exact h.next (by omega) (by omega)
    · change s.machine - chunk.length < s.machine
      omega

/-- The native loop ends with a negative array size. -/
lemma decompress_flood {turns : Nat} (enough : 2 ^ 31 < turns) (m : Nat) :
    Program.After (decompress flood .one maxInt turns) ⟨m, []⟩ (fun _ _ => False)
      (fun e _ => e = .negativeArraySize) := by
  refine .failIf_bind (fun _ => ?_) fun empty => by cases empty
  refine .failIf_bind (fun _ => ?_) fun missing => by cases missing
  refine .failIf_bind (fun _ => .modify_bind ?_) fun failed => absurd rfl failed
  have start : Floods ⟨KBytes.one.data, [], 0⟩ ⟨2 ^ 31, []⟩ := Flooding.start
  have looped := Program.After.loop_stops (fun _ s => s.machine)
    (fun k s => decompressTurn_flood) turns enough start
  refine .bind (looped.mono ?_ fun _ _ => id)
  rintro _ t ⟨_, _, never⟩
  exact never.elim

end ZlibNative

/-! ## The four loops -/

/-- The actuals of `ZstdCodec` and `ZlibCodec`. -/
inductive Actual where
  | zstdKmp
  | zstdNative
  | zlibJvm
  | zlibNative

/-- `decompress` of an actual, run for some number of turns over some decoder: what the decoder
answered, and the bytes returned, the exception thrown, or that the loop is still going. -/
inductive Decompresses (input : KBytes) (limit : Int) (log : List Exchange)
    (result : Except CodecFailure (Option (List UInt8))) : Actual → Prop where
  | zstdKmp {τ : Type} {z : Streamer τ} {m : τ} {turns : Nat} {t : Session τ} :
    (ZstdKmp.decompress z input limit turns).exec ⟨m, []⟩ = (result, t) → log = z.log m t.calls →
      Decompresses input limit log result .zstdKmp
  | zstdNative {τ : Type} {z : Streamer τ} {m : τ} {turns : Nat} {t : Session τ} :
    (ZstdNative.decompress z input limit turns).exec ⟨m, []⟩ = (result, t) → log = z.log m t.calls →
      Decompresses input limit log result .zstdNative
  | zlibJvm {τ : Type} {z : Inflater τ} {m : τ} {turns : Nat} {t : InflateSession τ} :
    (ZlibJvm.decompress z input limit turns).exec ⟨m, []⟩ = (result, t) → log = z.log input t.calls →
      Decompresses input limit log result .zlibJvm
  | zlibNative {τ : Type} {z : ZStream τ} {m : τ} {turns : Nat} {t : InflateSession τ} :
    (ZlibNative.decompress z input limit turns).exec ⟨m, []⟩ = (result, t) → log = z.log input t.calls →
      Decompresses input limit log result .zlibNative

section
variable {input : KBytes} {limit : Int} {log : List Exchange}
  {result : Except CodecFailure (Option (List UInt8))}

/-- What a run guarantees is the verdict on its log. -/
lemma Verdict.of_after {τ : Type} {x : Program τ CodecFailure (Option (List UInt8))} {s t : τ}
    {logOf : τ → List Exchange}
    (after : Program.After x s (fun result t => Verdict input limit (logOf t) (.ok result))
      (fun e t => Verdict input limit (logOf t) (.error e)))
    (ran : x.exec s = (result, t)) (logged : log = logOf t) : Verdict input limit log result := by
  subst logged
  cases result with
  | error e => exact after.thrown ran
  | ok result => exact after.returned ran

/-- Decompression is bounded and exact for every limit below `Int.MAX_VALUE`; for that limit, exactly as
long as the decoder does not produce more, or nothing is made of the bytes that go beyond it. -/
theorem decompress_exact {actual : Actual} (nonneg : 0 ≤ limit) (int : limit < 2 ^ 31)
    (ran : Decompresses input limit log result actual) :
    Exact input limit log result ↔ Contained input limit log result := by
  cases ran with
  | zstdKmp ran logged => exact Verdict.of_after (ZstdKmp.decompress_outcome nonneg int _) ran logged
  | zstdNative ran logged =>
    rw [← ZstdCodec.decompress_agrees] at ran
    exact Verdict.of_after (ZstdKmp.decompress_outcome nonneg int _) ran logged
  | zlibJvm ran logged => exact Verdict.of_after (ZlibJvm.decompress_outcome nonneg int _ _) ran logged
  | zlibNative ran logged => exact Verdict.of_after (ZlibNative.decompress_outcome nonneg int _ _) ran logged

end

/-- Three bytes from one call, with the limit five. -/
theorem decompress_exact_three : ∃ log, Decompresses .one 5 log (.ok (some [0, 0, 0])) .zstdKmp ∧
    Contained .one 5 log (.ok (some [0, 0, 0])) ∧ Exact .one 5 log (.ok (some [0, 0, 0])) := by
  have result : ((ZstdKmp.decompress ZstdKmp.flood .one 5 1).exec ⟨3, []⟩).1 =
      .ok (some [0, 0, 0]) := by decide +kernel
  rcases ran : (ZstdKmp.decompress ZstdKmp.flood .one 5 1).exec ⟨3, []⟩ with ⟨bytes, t⟩
  rw [ran] at result
  subst result
  have decompresses := Decompresses.zstdKmp ran rfl
  have contained : Contained .one 5 (ZstdKmp.flood.log 3 t.calls) (.ok (some [0, 0, 0])) :=
    .inl (by decide)
  exact ⟨_, decompresses, contained,
    (decompress_exact (by decide) (by decide) decompresses).mpr contained⟩

/-- With the limit `Int.MAX_VALUE`, some decoder gets the loop to throw what is no
`CompressionException`, on a payload of one byte. -/
def Overflows (actual : Actual) : Prop :=
  ∃ log, Decompresses .one maxInt log (.error .negativeArraySize) actual ∧
    ¬ Exact .one maxInt log (.error .negativeArraySize)

/-- A loop that fails with a negative array size at the largest limit overflows. -/
lemma Overflows.of_decompresses {actual : Actual} {log : List Exchange}
    (ran : Decompresses .one maxInt log (.error .negativeArraySize) actual) : Overflows actual := by
  refine ⟨log, ran, fun exact_ => ?_⟩
  obtain ⟨message, eq⟩ := exact_.thrown _ rfl
  cases eq

/-- A decoder that makes `2 ^ 31` bytes of the payload does so in each of the four loops: the total has
become negative. -/
theorem decompress_overflows : Overflows .zstdKmp ∧ Overflows .zstdNative ∧ Overflows .zlibJvm ∧
    Overflows .zlibNative := by
  obtain ⟨turns, enough⟩ : ∃ turns : Nat, 2 ^ 31 < turns := ⟨2 ^ 31 + 1, by decide⟩
  refine ⟨?_, ?_, ?_, ?_⟩
  · obtain ⟨e, t, ran, rfl⟩ := (ZstdKmp.decompress_flood enough).throws
    exact .of_decompresses (.zstdKmp ran rfl)
  · obtain ⟨e, t, ran, rfl⟩ := (ZstdKmp.decompress_flood enough).throws
    rw [ZstdCodec.decompress_agrees] at ran
    exact .of_decompresses (.zstdNative ran rfl)
  · obtain ⟨e, t, ran, rfl⟩ := (ZlibJvm.decompress_flood enough (0, 0)).throws
    exact .of_decompresses (.zlibJvm ran rfl)
  · obtain ⟨e, t, ran, rfl⟩ := (ZlibNative.decompress_flood enough 0).throws
    exact .of_decompresses (.zlibNative ran rfl)

end MsgTrans
