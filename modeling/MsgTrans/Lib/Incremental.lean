import Mathlib.Tactic.Common

/-!
# Incremental decoders

A decoder looks at the bytes buffered so far and either asks for more, or takes one item off the
front, or fails. The loop of a reader appends what has arrived and decodes until the decoder asks for
more. If neither an item nor a failure depends on what arrives later, then how the bytes were cut
into chunks does not matter.
-/

/-- A decoder: `none` asks for more, an item comes with the rest of the buffer. An item takes at least
one byte. -/
structure Incremental (α β ε : Type*) where
  decode : List α → Except ε (Option β × List α)
  shrinks : ∀ {buf b rest}, decode buf = .ok (some b, rest) → rest.length < buf.length

namespace Incremental

variable {α β ε : Type*}

/-- Decode until the decoder asks for more or fails: the items, and the rest of the buffer or the
failure. -/
def drain (d : Incremental α β ε) (buf : List α) : List β × Except ε (List α) :=
  match _decoded : d.decode buf with
  | .error e => ([], .error e)
  | .ok (none, rest) => ([], .ok rest)
  | .ok (some b, rest) =>
    let (bs, last) := d.drain rest
    (b :: bs, last)
termination_by buf.length
decreasing_by exact d.shrinks _decoded

/-- The reader's loop over the chunks that arrive, starting with `buf` buffered; it stops at a
failure. -/
def feed (d : Incremental α β ε) : List (List α) → List α → List β × Except ε (List α)
  | [], buf => ([], .ok buf)
  | chunk :: chunks, buf =>
    match d.drain (buf ++ chunk) with
    | (bs, .error e) => (bs, .error e)
    | (bs, .ok rest) =>
      let (bs', last) := d.feed chunks rest
      (bs ++ bs', last)

/-- What later bytes cannot change: a request for more leaves the buffer alone, an item and a failure
stay what they are. -/
structure Stable (d : Incremental α β ε) : Prop where
  more : ∀ {buf rest}, d.decode buf = .ok (none, rest) → rest = buf
  item : ∀ {buf b rest}, d.decode buf = .ok (some b, rest) →
    ∀ later, d.decode (buf ++ later) = .ok (some b, rest ++ later)
  failure : ∀ {buf e}, d.decode buf = .error e → ∀ later, d.decode (buf ++ later) = .error e

variable {d : Incremental α β ε} {buf rest : List α} {b : β} {e : ε}

/-- A buffer that cannot be decoded is given up. -/
lemma drain_failure (decoded : d.decode buf = .error e) : d.drain buf = ([], .error e) := by
  rw [drain]
  split <;> simp_all

/-- A buffer that is too short is kept. -/
lemma drain_more (decoded : d.decode buf = .ok (none, rest)) : d.drain buf = ([], .ok rest) := by
  rw [drain]
  split <;> simp_all

/-- A decoded item comes before the rest. -/
lemma drain_item (decoded : d.decode buf = .ok (some b, rest)) :
    d.drain buf = (b :: (d.drain rest).1, (d.drain rest).2) := by
  rw [drain]
  split <;> simp_all

/-- A loop that takes nothing was asked for more at once. -/
lemma decode_of_drain_nil (drained : d.drain buf = ([], .ok rest)) :
    d.decode buf = .ok (none, rest) := by
  rw [drain] at drained
  split at drained
  case h_1 => cases drained
  case h_2 decoded =>
    cases drained
    exact decoded
  case h_3 => cases drained

/-- A loop that fails has decoded what was left of the buffer. -/
lemma decode_of_drain_error {bs : List β} (failed : d.drain buf = (bs, .error e)) :
    ∃ buf', buf'.length ≤ buf.length ∧ d.decode buf' = .error e := by
  fun_induction drain d buf generalizing bs with
  | case1 buf e' decoded =>
    cases failed
    exact ⟨buf, Nat.le_refl _, decoded⟩
  | case2 buf rest decoded => cases failed
  | case3 buf b rest decoded bs' last tail ih =>
    cases failed
    obtain ⟨buf', short, failed⟩ := ih tail
    exact ⟨buf', Nat.le_trans short (Nat.le_of_lt (d.shrinks decoded)), failed⟩

namespace Stable

/-- What is left after draining holds no item. -/
lemma drain_rest (st : d.Stable) {buf rest : List α} {bs : List β}
    (drained : d.drain buf = (bs, .ok rest)) : d.drain rest = ([], .ok rest) := by
  fun_induction drain d buf generalizing bs with
  | case1 buf e decoded => simp at drained
  | case2 buf rest' decoded =>
    obtain rfl := st.more decoded
    cases drained
    exact drain_more decoded
  | case3 buf b rest' decoded bs' last tail ih =>
    cases drained
    exact ih tail

/-- Draining what has arrived so far, then the rest together with what arrives later. -/
lemma drain_append (st : d.Stable) (buf later : List α) :
    d.drain (buf ++ later) = match d.drain buf with
      | (bs, .error e) => (bs, .error e)
      | (bs, .ok rest) => (bs ++ (d.drain (rest ++ later)).1, (d.drain (rest ++ later)).2) := by
  fun_induction drain d buf with
  | case1 buf e decoded => rw [drain_failure (st.failure decoded later)]
  | case2 buf rest decoded =>
    obtain rfl := st.more decoded
    simp
  | case3 buf b rest decoded bs last tail ih =>
    rw [drain_item (st.item decoded later), ih, tail]
    cases last with
    | error e => rfl
    | ok rest' => rfl

/-- The chunks do not matter, whatever is buffered already and holds no item. -/
lemma feed_eq_drain (st : d.Stable) (chunks : List (List α)) : ∀ {buf : List α},
    d.drain buf = ([], .ok buf) → d.feed chunks buf = d.drain (buf ++ chunks.flatten) := by
  induction chunks with
  | nil =>
    intro buf idle
    simp [feed, idle]
  | cons chunk chunks ih =>
    intro buf _
    rw [feed, List.flatten_cons, ← List.append_assoc, st.drain_append (buf ++ chunk)]
    match drained : d.drain (buf ++ chunk) with
    | (bs, .error e) => rfl
    | (bs, .ok rest) => simp only [ih (st.drain_rest drained)]

end Stable

end Incremental
