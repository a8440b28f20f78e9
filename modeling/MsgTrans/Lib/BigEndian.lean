import Mathlib.Algebra.Ring.Nat
import Mathlib.Data.List.Induction
import Mathlib.Tactic.Common

/-!
# Big-endian integers

Fixed-width big-endian encodings of naturals in byte lists, and reading one back at an offset of a
longer list. Writing keeps the low bits of a wider value; reading is exact on what fits.
-/

namespace BigEndian

/-- The `k` low bytes of `n`, most significant first. -/
def put : Nat → Nat → List UInt8
  | 0, _ => []
  | k + 1, n => put k (n / 256) ++ [UInt8.ofNat n]

/-- The value of a byte list read most significant first. -/
def val (bs : List UInt8) : Nat :=
  bs.foldl (fun acc b => acc * 256 + b.toNat) 0

/-- The `k`-byte value at offset `off`. -/
def get (off k : Nat) (bs : List UInt8) : Nat :=
  val ((bs.drop off).take k)

/-- `put` writes as many bytes as it was asked for. -/
@[simp] lemma length_put (k n : Nat) : (put k n).length = k := by
  induction k generalizing n with
  | zero => rfl
  | succ k ih => simp [put, ih]

/-- No bytes are the number 0. -/
@[simp] lemma val_nil : val [] = 0 := rfl

/-- The last byte is the lowest. -/
lemma val_append_singleton (bs : List UInt8) (b : UInt8) :
    val (bs ++ [b]) = val bs * 256 + b.toNat := by
  simp [val]

/-- Reading back what was written keeps the low `k` bytes. -/
lemma val_put (k n : Nat) : val (put k n) = n % 256 ^ k := by
  induction k generalizing n with
  | zero => simp [put, Nat.mod_one]
  | succ k ih =>
    have low : (UInt8.ofNat n).toNat = n % 256 := UInt8.toNat_ofNat'
    have split : n % 256 ^ (k + 1) = n % 256 + 256 * (n / 256 % 256 ^ k) := by
      rw [Nat.pow_succ', Nat.mod_mul]
    rw [put, val_append_singleton, ih, low, split]
    omega

/-- A number of so many bytes is small. -/
lemma val_lt (bs : List UInt8) : val bs < 256 ^ bs.length := by
  induction bs using List.reverseRecOn with
  | nil => simp
  | append_singleton bs b ih =>
    rw [val_append_singleton, List.length_append, List.length_singleton, Nat.pow_succ]
    have := b.toNat_lt
    omega

/-- A number read from so many bytes is small. -/
lemma get_lt (off k : Nat) (bs : List UInt8) : get off k bs < 256 ^ k :=
  Nat.lt_of_lt_of_le (val_lt _) (Nat.pow_le_pow_right (by decide) (List.length_take_le _ _))

/-- Writing back what was read gives the bytes. -/
lemma put_val (bs : List UInt8) : put bs.length (val bs) = bs := by
  induction bs using List.reverseRecOn with
  | nil => rfl
  | append_singleton bs b ih =>
    have := b.toNat_lt
    have high : (val bs * 256 + b.toNat) / 256 = val bs := by omega
    have low : UInt8.ofNat (val bs * 256 + b.toNat) = b := by
      apply UInt8.toNat_inj.mp
      rw [UInt8.toNat_ofNat']
      omega
    rw [val_append_singleton, List.length_append, List.length_singleton, put, high, low, ih]

/-- What was read is written back. -/
lemma put_get {off k : Nat} {bs : List UInt8} (h : off + k ≤ bs.length) :
    put k (get off k bs) = (bs.drop off).take k := by
  have len : ((bs.drop off).take k).length = k := by
    rw [List.length_take, List.length_drop]
    omega
  have back := put_val ((bs.drop off).take k)
  rwa [len] at back

/-- A field does not depend on what follows it. -/
lemma get_append_right {off k : Nat} {bs : List UInt8} (more : List UInt8) (h : off + k ≤ bs.length) :
    get off k (bs ++ more) = get off k bs := by
  rw [get, get, List.drop_append_of_le_length (by omega), List.take_append_of_le_length]
  rw [List.length_drop]
  omega

/-- A field is read back where it was written, its low `k` bytes. -/
lemma get_put (k n : Nat) (bs : List UInt8) : get 0 k (put k n ++ bs) = n % 256 ^ k := by
  rw [get, List.drop_zero, List.take_left' (length_put k n), val_put]

/-- A field is looked up behind those that precede it. -/
lemma get_put_skip {off j : Nat} (k n : Nat) (bs : List UInt8) (le : j ≤ off) :
    get off k (put j n ++ bs) = get (off - j) k bs := by
  rw [get, get, List.drop_append, List.drop_of_length_le (by rwa [length_put]), length_put,
    List.nil_append]

/-- A field with one byte more. -/
lemma get_succ {off k : Nat} {bs : List UInt8} (long : off + k < bs.length) :
    get off (k + 1) bs = get off k bs * 256 + (bs.getD (off + k) 0).toNat := by
  have next : (bs.drop off)[k]? = some (bs.getD (off + k) 0) := by
    rw [List.getElem?_drop, List.getElem?_eq_getElem long, List.getD_eq_getElem?_getD,
      List.getElem?_eq_getElem long, Option.getD_some]
  rw [get, get, List.take_add_one, next]
  exact val_append_singleton _ _

/-- No bytes are read as 0. -/
lemma get_zero (off : Nat) (bs : List UInt8) : get off 0 bs = 0 := by
  rw [get, List.take_zero, val_nil]

/-- A byte with its bits shifted up, and what is put below them. -/
lemma shiftLeft_or (a : Nat) {b i : Nat} (lt : b < 2 ^ i) : a <<< i ||| b = a * 2 ^ i + b := by
  rw [← Nat.shiftLeft_add_eq_or_of_lt lt, Nat.shiftLeft_eq]

/-- A field does not move when what precedes it is dropped. -/
lemma get_drop (off k n : Nat) (bs : List UInt8) : get off k (bs.drop n) = get (n + off) k bs := by
  rw [get, get, List.drop_drop]

end BigEndian
