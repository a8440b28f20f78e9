import MsgTrans.Core.ZlibCodec

/-!
# What a decoder is asked and what it answers

The four `decompress` loops, seen from their decoders. A session keeps the calls that reached the
decoder; a decoder is a machine, so replaying the calls gives its answers (`Exchange`). `Stage` is
what a loop's `ByteCollector` has to do with these answers, and the lemmas about it are the arithmetic
that the loops share: the room they offer, the check of the limit and the last copy. `Verdict` says of a
run how it should end and when it does so.
-/

namespace MsgTrans

variable {σ : Type}

/-- One call of a decoder: the buffer it was offered, what it consumed and produced, and whether it
reports the end of the stream or fails. -/
structure Exchange where
  capacity : Nat
  consumed : Nat
  produced : List UInt8
  ended : Bool
  failed : Bool
  produced_le : produced.length ≤ capacity

namespace Exchange

/-- Everything that was produced, in order. -/
def output (log : List Exchange) : List UInt8 := log.flatMap produced

/-- The number of bytes that were consumed. -/
def spent (log : List Exchange) : Nat := (log.map consumed).sum

/-- The last answer reports the end of the stream. -/
def Ended (log : List Exchange) : Prop := ∃ x, log.getLast? = some x ∧ x.ended = true

variable {log : List Exchange} {x : Exchange}

/-- The output of one more exchange. -/
lemma output_concat : output (log ++ [x]) = output log ++ x.produced := by
  simp [output]

/-- The input spent by one more exchange. -/
lemma spent_concat : spent (log ++ [x]) = spent log + x.consumed := by
  simp [spent]

/-- Whether the stream has ended is for the last exchange to say. -/
lemma ended_concat : Ended (log ++ [x]) ↔ x.ended = true := by
  simp [Ended]

/-- A decoder that was never called has ended nothing. -/
lemma not_ended_nil : ¬ Ended [] := by
  simp [Ended]

end Exchange

open Exchange

/-! ## Replays -/

/-- The answers of a machine to some calls, and the state it is left in. -/
def replay {μ κ : Type} (answer : μ → κ → List Exchange × μ) (start : μ) (calls : List κ) :
    List Exchange × μ :=
  calls.foldl (fun seen call => (seen.1 ++ (answer seen.2 call).1, (answer seen.2 call).2)) ([], start)

/-- One more call goes on where the calls before have led. -/
lemma replay_concat {μ κ : Type} {answer : μ → κ → List Exchange × μ} {start m : μ} {calls : List κ}
    (call : κ) (reached : (replay answer start calls).2 = m) :
    replay answer start (calls ++ [call]) =
      ((replay answer start calls).1 ++ (answer m call).1, (answer m call).2) := by
  rw [replay, List.foldl_append, ← reached]
  rfl

/-- What zstd answers. The stream has ended when it hints that nothing remains. -/
def Report.exchange {unread : List UInt8} {capacity : Nat} (r : Report unread capacity) : Exchange where
  capacity := capacity
  consumed := r.consumed
  produced := r.produced
  ended := match r.code with
    | .ok remaining => remaining == 0
    | .error _ => false
  failed := match r.code with
    | .ok _ => false
    | .error _ => true
  produced_le := r.produced_le

def Streamer.answer (z : Streamer σ) (m : σ) : ZstdCall → List Exchange × σ
  | .setLevel level => ([], (z.setLevel level m).2)
  | .stream unread capacity =>
    ([(z.stream m unread capacity).1.exchange], (z.stream m unread capacity).2)

/-- The answers of zstd, from the state `m` on. -/
def Streamer.log (z : Streamer σ) (m : σ) (calls : List ZstdCall) : List Exchange :=
  (replay z.answer m calls).1

/-- What `Inflater.inflate` puts into the buffer; nothing when it throws. -/
def Inflated.bytes {capacity : Nat} (x : Inflated capacity) : List UInt8 := x.produced.toOption.getD []

/-- The bytes of a call that produced some. -/
lemma Inflated.bytes_eq {capacity : Nat} {x : Inflated capacity} {bytes : List UInt8}
    (produced : x.produced = .ok bytes) : x.bytes = bytes := by
  rw [Inflated.bytes, produced]
  rfl

/-- No call produces more than fits its buffer. -/
lemma Inflated.bytes_length_le {capacity : Nat} (x : Inflated capacity) :
    x.bytes.length ≤ capacity := by
  unfold bytes
  rcases result : x.produced with e | bytes
  · exact Nat.zero_le _
  · exact x.produced_le bytes result

/-- What an `Inflater` answers: what it has consumed shows in `remaining`, the end in `finished`; it
fails by throwing. -/
def Inflater.exchange (z : Inflater σ) (m : σ) (capacity : Nat) : Exchange where
  capacity := capacity
  consumed := z.remaining m - z.remaining (z.inflate m capacity).2
  produced := (z.inflate m capacity).1.bytes
  ended := z.finished (z.inflate m capacity).2
  failed := match (z.inflate m capacity).1.produced with
    | .ok _ => false
    | .error _ => true
  produced_le := (z.inflate m capacity).1.bytes_length_le

def Inflater.answer (z : Inflater σ) (m : σ) (capacity : Nat) : List Exchange × σ :=
  ([z.exchange m capacity], (z.inflate m capacity).2)

/-- The answers of an `Inflater` that was given `input`. -/
def Inflater.log (z : Inflater σ) (input : KBytes) (calls : List Nat) : List Exchange :=
  (replay z.answer (z.setInput input.data) calls).1

/-- What zlib answers. A result that is neither `Z_OK` nor `Z_STREAM_END` is a failure. -/
def ZReport.exchange {unread : List UInt8} {capacity : Nat} (r : ZReport unread capacity) :
    Exchange where
  capacity := capacity
  consumed := r.consumed
  produced := r.produced
  ended := r.result == ZlibNative.zStreamEnd
  failed := r.result != ZlibNative.zStreamEnd && r.result != ZlibNative.zOk
  produced_le := r.produced_le

/-- zlib's state goes with the input it has not read. -/
def ZStream.answer (z : ZStream σ) (m : σ × List UInt8) (capacity : Nat) :
    List Exchange × σ × List UInt8 :=
  let report := (z.inflate m.1 m.2 capacity).1
  ([report.exchange], (z.inflate m.1 m.2 capacity).2, m.2.drop report.consumed)

/-- The answers of zlib to calls on `input`. -/
def ZStream.log (z : ZStream σ) (input : KBytes) (calls : List Nat) : List Exchange :=
  (replay z.answer (z.init.2, input.data) calls).1

/-! ## Bounds -/

/-- Every buffer has room for a byte, and the decoder is asked for no more output when it has produced
more than `limit` bytes. -/
structure Bounded (limit : Int) (log : List Exchange) : Prop where
  offered : ∀ x ∈ log, 1 ≤ x.capacity
  asked : ∀ before x after, log = before ++ x :: after → ((output before).length : Int) ≤ limit

/-- No calls are bounded. -/
lemma Bounded.nil (limit : Int) : Bounded limit [] :=
  ⟨fun _ mem => absurd mem List.not_mem_nil, fun before x after eq => by simp at eq⟩

/-- One more call within the limit, with room for a byte, keeps the calls bounded. -/
lemma Bounded.concat {limit : Int} {log : List Exchange} {x : Exchange} (h : Bounded limit log)
    (le : ((output log).length : Int) ≤ limit) (room : 1 ≤ x.capacity) :
    Bounded limit (log ++ [x]) := by
  constructor
  · intro y mem
    rcases List.mem_append.mp mem with mem | mem
    · exact h.offered y mem
    · rwa [List.mem_singleton.mp mem]
  · intro before y after eq
    rcases List.eq_nil_or_concat after with rfl | ⟨after', last, rfl⟩
    · rw [(List.append_inj' eq rfl).1] at le
      exact le
    · rw [List.concat_eq_append, ← List.cons_append, ← List.append_assoc] at eq
      exact h.asked before y after' (List.append_inj' eq rfl).1

/-! ## How a run should end -/

/-- The largest `Int`. -/
def maxInt : Int := 2 ^ 31 - 1

/-- A run is bounded and exact: what it throws is a `CompressionException`, what it returns is the
concatenation of what the decoder produced, within the limit, at the end of the stream and with all
input consumed, and the decoder was offered sensible buffers only. -/
structure Exact (input : KBytes) (limit : Int) (log : List Exchange)
    (result : Except CodecFailure (Option (List UInt8))) : Prop where
  thrown : ∀ e, result = .error e → ∃ message, e = .compression message
  returned : ∀ bytes, result = .ok (some bytes) →
    bytes = output log ∧ (bytes.length : Int) ≤ limit ∧ Ended log ∧ spent log = input.size
  bounded : Bounded limit log

/-- The number of bytes never matters beyond the range of `Int`: the limit leaves room for one more byte,
or the decoder keeps to it, or the call that takes the output beyond the limit is the last one and
nothing is made of its bytes. It fails, or reports the end of the stream with input left over, or the
run is followed no further. -/
def Contained (input : KBytes) (limit : Int) (log : List Exchange)
    (result : Except CodecFailure (Option (List UInt8))) : Prop :=
  limit < maxInt ∨ ((output log).length : Int) ≤ limit ∨
    ∃ before x, log = before ++ [x] ∧ ((output before).length : Int) ≤ limit ∧
      (x.failed = true ∨ (x.ended = true ∧ spent log ≠ input.size) ∨ result = .ok none)

/-- A run that ended with `result` was bounded and exact if and only if it was contained. -/
def Verdict (input : KBytes) (limit : Int) (log : List Exchange)
    (result : Except CodecFailure (Option (List UInt8))) : Prop :=
  Exact input limit log result ↔ Contained input limit log result

/-- The decoder was called once more although it had produced more than the largest `Int`. -/
def Overrun (limit : Int) (log : List Exchange) : Prop :=
  limit = maxInt ∧ ∃ before x after, log = before ++ x :: after ∧
    limit < ((output before).length : Int)

section
variable {input : KBytes} {limit : Int} {log : List Exchange} {x : Exchange}
  {result : Except CodecFailure (Option (List UInt8))}

/-- A run that throws a `CompressionException`. -/
lemma Exact.throw {message : String} (bounded : Bounded limit log) :
    Exact input limit log (.error (.compression message)) := by
  refine ⟨?_, fun bytes eq => (by cases eq), bounded⟩
  rintro _ ⟨⟩
  exact ⟨message, rfl⟩

/-- A check that fails before the first call. -/
lemma Verdict.start {message : String} (nonneg : 0 ≤ limit) :
    Verdict input limit [] (.error (.compression message)) :=
  iff_of_true (.throw (.nil limit)) (.inr (.inl nonneg))

/-- A run without a result. -/
lemma Exact.none (bounded : Bounded limit log) : Exact input limit log (.ok Option.none) :=
  ⟨fun e eq => (by cases eq), fun bytes eq => (by cases eq), bounded⟩

/-- Once overrun, always overrun. -/
lemma Overrun.concat (h : Overrun limit log) : Overrun limit (log ++ [x]) := by
  obtain ⟨largest, before, y, after, rfl, more⟩ := h
  exact ⟨largest, before, y, after ++ [x], by simp, more⟩

/-- A run that is overrun is not bounded, and the call that went too far is not the last one. -/
lemma Overrun.verdict (h : Overrun limit log) : Verdict input limit log result := by
  obtain ⟨largest, before, x, after, rfl, more⟩ := h
  refine iff_of_false (fun exact_ => ?_) fun contained => ?_
  · have asked := exact_.bounded.asked before x after rfl
    omega
  · rcases contained with small | le | ⟨before', y, eq, le, _⟩
    · omega
    · simp only [output, List.flatMap_append, List.length_append] at le more
      omega
    · -- everything before the last call was produced within the limit
      have init := congrArg List.dropLast eq
      rw [List.dropLast_concat, List.dropLast_append_of_ne_nil (List.cons_ne_nil x after)] at init
      rw [← init] at le
      simp only [output, List.flatMap_append, List.length_append] at le more
      omega

end

/-! ## The collected bytes -/

/-- The loop has collected what was produced, and has kept to the limit. -/
structure Collected (limit : Int) (c : ByteCollector) (log : List Exchange) : Prop where
  bytes : c.chunks.flatten = output log
  size : c.size = (output log).length
  le : c.size ≤ limit
  bounded : Bounded limit log

/-- A new array has the size asked for. -/
lemma byteArray_ok {size : Int} {chunk : List UInt8} (made : byteArray size = .ok chunk) :
    (chunk.length : Int) = size := by
  unfold byteArray at made
  split at made
  · cases made
  next nonneg =>
    cases made
    rw [List.length_replicate]
    omega

/-- Only a negative size fails. -/
lemma byteArray_error {size : Int} {e : CodecFailure} (failed : byteArray size = .error e) :
    size < 0 ∧ e = .negativeArraySize := by
  unfold byteArray at failed
  split at failed
  case isTrue negative =>
    cases failed
    exact ⟨negative, rfl⟩
  case isFalse => cases failed

/-- `copyOf` takes the bytes that were filled in. -/
lemma copyOf_eq {source bytes : List UInt8} (filled : source.take bytes.length = bytes) :
    copyOf source bytes.length = bytes := by
  have length := congrArg List.length filled
  rw [List.length_take] at length
  rw [copyOf, filled, Nat.sub_eq_zero_of_le (by omega)]
  simp

/-- `coerceAtMost` and the one extra byte. -/
lemma room_range {limit size chunkSize : Int} (int : limit < 2 ^ 31) (nonneg : 0 ≤ size)
    (le : size ≤ limit) (chunk : 0 ≤ chunkSize ∧ chunkSize < 2 ^ 31 - 1) :
    1 ≤ int32 (min (int32 (limit - size)) chunkSize + 1) ∧
      int32 (min (int32 (limit - size)) chunkSize + 1) ≤ limit - size + 1 := by
  rw [int32_of_range (n := limit - size) (by omega) (by omega),
    int32_of_range (by omega) (by omega)]
  omega

namespace ByteCollector

/-- Copying chunks one after the other behind what is copied already. -/
lemma fill_eq (chunks : List (List UInt8)) (done rest : List UInt8)
    (length : rest.length = chunks.flatten.length)
    (small : (done.length + rest.length : Int) < 2 ^ 31) :
    chunks.foldlM (fun (result, offset) chunk => do
      let result ← copyInto chunk result offset
      return (result, int32 (offset + chunk.length))) (done ++ rest, (done.length : Int)) =
        Except.ok (done ++ chunks.flatten, ((done ++ chunks.flatten).length : Int)) := by
  induction chunks generalizing done rest with
  | nil =>
    have none_ : rest = [] := List.length_eq_zero_iff.mp length
    simp [none_, pure, Except.pure]
  | cons chunk chunks ih =>
    rw [List.flatten_cons, List.length_append] at length
    have copied : copyInto chunk (done ++ rest) done.length =
        .ok ((done ++ chunk) ++ rest.drop chunk.length) := by
      have fits : ¬ ((done.length : Int) < 0 ∨
          ((done ++ rest).length : Int) < done.length + chunk.length) := by
        rw [List.length_append]
        omega
      rw [copyInto, if_neg fits]
      simp [List.drop_append]
    have later := ih (done ++ chunk) (rest.drop chunk.length) (by rw [List.length_drop]; omega)
      (by simp only [List.length_append, List.length_drop]; omega)
    rw [List.foldlM_cons]
    simp only [copied, bind, Except.bind, pure, Except.pure]
    rw [int32_of_range (by omega) (by omega)]
    rw [List.length_append, Nat.cast_add] at later
    rw [List.flatten_cons, ← List.append_assoc]
    exact later

/-- A collector that has not wrapped gives out what it has collected. -/
lemma toByteArray_eq {c : ByteCollector} (size : c.size = c.chunks.flatten.length)
    (small : c.size < 2 ^ 31) : c.toByteArray = .ok c.chunks.flatten := by
  have made : byteArray c.size = .ok (List.replicate c.chunks.flatten.length 0) := by
    rw [byteArray, if_neg (by omega), size, Int.toNat_natCast]
  have filled := fill_eq c.chunks [] (List.replicate c.chunks.flatten.length 0) (by simp)
    (by rw [List.length_nil, List.length_replicate]; omega)
  unfold toByteArray
  rw [made]
  simp only [bind, Except.bind, pure, Except.pure] at filled ⊢
  rw [List.nil_append, List.nil_append, List.length_nil, Nat.cast_zero] at filled
  rw [filled]

end ByteCollector

namespace Collected

variable {input : KBytes} {limit : Int} {c : ByteCollector} {log : List Exchange} {x : Exchange}

/-- A loop that starts has collected nothing. -/
lemma start (nonneg : 0 ≤ limit) : Collected limit .empty [] :=
  ⟨rfl, rfl, nonneg, .nil limit⟩

/-- A buffer with room for a byte keeps the bounds. -/
lemma call (h : Collected limit c log) (room : 1 ≤ x.capacity) : Bounded limit (log ++ [x]) :=
  h.bounded.concat (h.size ▸ h.le) room

/-- The bytes of a call that passed the check of the limit, as long as they can be counted. -/
lemma append {source : List UInt8} (h : Collected limit c log) (room : 1 ≤ x.capacity)
    (countable : c.size + x.produced.length < 2 ^ 31)
    (passed : ¬ int32 (c.size + x.produced.length) > limit)
    (filled : source.take x.produced.length = x.produced) :
    Collected limit (c.append source x.produced.length) (log ++ [x]) := by
  have size := h.size
  have within := h.le
  have total : ((output (log ++ [x])).length : Int) = c.size + x.produced.length := by
    rw [output_concat, List.length_append, size]
    omega
  rw [int32_of_range (by omega) countable] at passed
  unfold ByteCollector.append
  split
  case isTrue none_ =>
    have nothing : x.produced = [] := List.length_eq_zero_iff.mp (by omega)
    refine ⟨?_, ?_, within, h.call room⟩
    · rw [h.bytes, output_concat, nothing, List.append_nil]
    · rw [output_concat, nothing, List.append_nil, size]
  case isFalse some_ =>
    rw [int32_of_range (by omega) countable, Int.toNat_natCast, copyOf_eq filled]
    refine ⟨?_, total.symm, Int.not_lt.mp passed, h.call room⟩
    rw [List.flatten_append, h.bytes, output_concat]
    simp

/-- A `CompressionException` after a call: the count was in range, or nothing is made of the bytes. -/
lemma throws {message : String} (h : Collected limit c log) (room : 1 ≤ x.capacity)
    (reason : limit < maxInt ∨ x.produced = [] ∨ x.failed = true ∨
      (x.ended = true ∧ spent (log ++ [x]) ≠ input.size)) :
    Verdict input limit (log ++ [x]) (.error (.compression message)) := by
  have within : ((output log).length : Int) ≤ limit := h.size ▸ h.le
  refine iff_of_true (.throw (h.call room)) ?_
  rcases reason with small | nothing | failed | trailing
  · exact .inl small
  · refine .inr (.inl ?_)
    rwa [output_concat, nothing, List.append_nil]
  · exact .inr (.inr ⟨log, x, rfl, within, .inl failed⟩)
  · exact .inr (.inr ⟨log, x, rfl, within, .inr (.inl trailing)⟩)

/-- The last copy. -/
lemma toByteArray (h : Collected limit c log) (int : limit < 2 ^ 31) :
    c.toByteArray = .ok (output log) := by
  have size := h.size
  have le := h.le
  rw [ByteCollector.toByteArray_eq (by rw [h.bytes]; exact size) (by omega), h.bytes]

end Collected

/-- The last call has made the count of the collected bytes negative. -/
structure Spilled (c : ByteCollector) (log : List Exchange) : Prop where
  size : c.size = -2 ^ 31
  output : (2 ^ 31 : Int) ≤ (output log).length
  last : ∃ before x, log = before ++ [x] ∧ ((Exchange.output before).length : Int) ≤ maxInt ∧
    x.failed = false
  bounded : Bounded maxInt log

/-- Where a loop stands between its turns: it has collected what was produced; or the limit is the
largest `Int` and the last call has made the count negative; or the decoder was called again after
that. -/
inductive Stage (limit : Int) (c : ByteCollector) (log : List Exchange) : Prop where
  | within : Collected limit c log → Stage limit c log
  | spilled : limit = maxInt → Spilled c log → Stage limit c log
  | overrun : Overrun limit log → Stage limit c log

section
variable {input : KBytes} {limit chunkSize : Int} {c : ByteCollector} {log : List Exchange} {x : Exchange}

/-- The room offered within the limit. -/
lemma Collected.room (h : Collected limit c log) (int : limit < 2 ^ 31)
    (chunk : 0 ≤ chunkSize ∧ chunkSize < 2 ^ 31 - 1) :
    1 ≤ int32 (min (int32 (limit - c.size)) chunkSize + 1) ∧
      int32 (min (int32 (limit - c.size)) chunkSize + 1) ≤ limit - c.size + 1 :=
  room_range int (by rw [h.size]; omega) h.le chunk

namespace Spilled

/-- A negative count leaves no room. -/
lemma room (h : Spilled c log) (chunk : 0 ≤ chunkSize) :
    int32 (min (int32 (maxInt - c.size)) chunkSize + 1) = 0 := by
  have left : int32 (maxInt - c.size) = -1 := by
    rw [h.size]
    decide
  rw [left, Int.min_eq_left (by omega)]
  decide

/-- The call after that goes too far. -/
lemma overrun (h : Spilled c log) : Overrun maxInt (log ++ [x]) := by
  have more := h.output
  refine ⟨rfl, log, x, [], rfl, ?_⟩
  unfold maxInt
  omega

/-- What the last call reported, if the run is contained: it did not fail. -/
lemma contained_iff (h : Spilled c log) {result : Except CodecFailure (Option (List UInt8))} :
    Contained input maxInt log result ↔
      (Ended log ∧ spent log ≠ input.size) ∨ result = .ok none := by
  have more := h.output
  obtain ⟨before, x, rfl, within, sound⟩ := h.last
  rw [ended_concat]
  constructor
  · rintro (small | le | ⟨before', y, eq, _, reason⟩)
    · omega
    · unfold maxInt at le
      omega
    · obtain rfl : x = y := by simpa using congrArg List.getLast? eq
      rw [sound] at reason
      exact reason.resolve_left Bool.false_ne_true
  · intro reason
    exact .inr (.inr ⟨before, x, rfl, within, .inr reason⟩)

/-- What is thrown with a negative count, and is no `CompressionException`. -/
lemma throws {e : CodecFailure} (h : Spilled c log) (other : ∀ message, e ≠ .compression message)
    (rest : ¬ (Ended log ∧ spent log ≠ input.size)) : Verdict input maxInt log (.error e) := by
  refine iff_of_false (fun exact_ => ?_) fun contained => ?_
  · obtain ⟨message, eq⟩ := exact_.thrown e rfl
    exact other message eq
  · exact (h.contained_iff.mp contained).elim rest fun eq => by cases eq

end Spilled

namespace Stage

/-- A loop starts within its limit. -/
lemma start (nonneg : 0 ≤ limit) : Stage limit .empty [] := .within (.start nonneg)

/-- The bytes of a call that passed the checks of a loop. -/
lemma append {source : List UInt8} (h : Collected limit c log) (int : limit < 2 ^ 31)
    (room : 1 ≤ x.capacity) (fits : (x.capacity : Int) ≤ limit - c.size + 1) (sound : x.failed = false)
    (passed : ¬ int32 (c.size + x.produced.length) > limit)
    (filled : source.take x.produced.length = x.produced) :
    Stage limit (c.append source x.produced.length) (log ++ [x]) := by
  have size := h.size
  have within := h.le
  have produced := x.produced_le
  by_cases countable : c.size + x.produced.length < 2 ^ 31
  · exact .within (h.append room countable passed filled)
  · -- the one byte too many, with the largest limit
    have largest : limit = maxInt := by
      unfold maxInt
      omega
    subst largest
    unfold maxInt at within fits
    have total : c.size + x.produced.length = 2 ^ 31 := by omega
    refine .spilled rfl ⟨?_, ?_, ⟨log, x, rfl, size ▸ h.le, sound⟩, h.call room⟩
    · rw [ByteCollector.append, if_neg (by omega)]
      dsimp only
      rw [total]
      decide
    · rw [output_concat, List.length_append]
      omega

/-- Any further call with a count out of range. -/
lemma overrun_concat (h : Stage limit c log) (out : ¬ Collected limit c log) :
    Overrun limit (log ++ [x]) := by
  cases h with
  | within collected => exact absurd collected out
  | spilled largest spilled => exact largest ▸ spilled.overrun
  | overrun overrun => exact overrun.concat

/-- A run that is followed no further. -/
lemma unfinished (h : Stage limit c log) : Verdict input limit log (.ok none) := by
  cases h with
  | within collected =>
    exact iff_of_true (.none collected.bounded) (.inr (.inl (collected.size ▸ collected.le)))
  | spilled largest spilled =>
    subst largest
    exact iff_of_true (.none spilled.bounded) (spilled.contained_iff.mpr (.inr rfl))
  | overrun overrun => exact overrun.verdict

/-- The end of the stream, with input left over. -/
lemma trailing {message : String} (h : Stage limit c log) (ended : Ended log)
    (left : spent log ≠ input.size) : Verdict input limit log (.error (.compression message)) := by
  cases h with
  | within collected =>
    exact iff_of_true (.throw collected.bounded) (.inr (.inl (collected.size ▸ collected.le)))
  | spilled largest spilled =>
    subst largest
    exact iff_of_true (.throw spilled.bounded) (spilled.contained_iff.mpr (.inl ⟨ended, left⟩))
  | overrun overrun => exact overrun.verdict

end Stage

end

end MsgTrans
