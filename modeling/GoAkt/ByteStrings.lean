import Mathlib.Tactic

/-!
# Byte strings

Numbers are written big-endian in a fixed number of bytes, wrapping around when they
do not fit. A slice of a byte string exists only inside its bounds.
-/
namespace GoAkt.ByteStrings
open List

abbrev Bytes := List UInt8

/-- The low `width` bytes of a number, most significant first. -/
def putUint : ℕ → ℕ → Bytes
  | 0, _ => []
  | width + 1, n => putUint width (n / 256) ++ [UInt8.ofNat n]

/-- The number that the bytes spell. -/
def uint (bytes : Bytes) : ℕ := bytes.foldl (fun n b => n * 256 + b.toNat) 0

@[simp] lemma length_putUint (width n : ℕ) : (putUint width n).length = width := by
  induction width generalizing n with
  | zero => rfl
  | succ width ih => simp [putUint, ih]

lemma uint_append_singleton (bytes : Bytes) (b : UInt8) :
    uint (bytes ++ [b]) = uint bytes * 256 + b.toNat := by
  simp [uint, foldl_append]

lemma uint_putUint (width n : ℕ) : uint (putUint width n) = n % 256 ^ width := by
  induction width generalizing n with
  | zero => simp [putUint, uint, Nat.mod_one]
  | succ width ih =>
    have hbyte : (UInt8.ofNat n).toNat = n % 256 := by simp
    rw [putUint, uint_append_singleton, ih, hbyte, pow_succ', Nat.mod_mul]
    omega

lemma uint_putUint_of_lt {width n : ℕ} (h : n < 256 ^ width) : uint (putUint width n) = n := by
  rw [uint_putUint, Nat.mod_eq_of_lt h]

/-- The leading byte alone bounds the number from below. -/
lemma le_uint_cons (b : UInt8) (bytes : Bytes) :
    b.toNat * 256 ^ bytes.length ≤ uint (b :: bytes) := by
  induction bytes using List.reverseRecOn with
  | nil => simp [uint]
  | append_singleton bytes c ih =>
    rw [← cons_append, uint_append_singleton, length_append, length_singleton,
      pow_succ, ← mul_assoc]
    exact (Nat.mul_le_mul_right 256 ih).trans (Nat.le_add_right _ _)

/-- The bytes from `lo` up to `hi`. -/
def slice (bytes : Bytes) (lo hi : ℕ) : Option Bytes :=
  if lo ≤ hi ∧ hi ≤ bytes.length then some ((bytes.take hi).drop lo) else none

/-- Cutting out the middle one of three pieces. -/
lemma slice_append {lo hi : ℕ} (front middle rest : Bytes) (hlo : front.length = lo)
    (hhi : lo + middle.length = hi) : slice (front ++ (middle ++ rest)) lo hi = some middle := by
  subst hlo hhi
  have hbounds : front.length ≤ front.length + middle.length ∧
      front.length + middle.length ≤ (front ++ (middle ++ rest)).length := by
    simp only [length_append]
    omega
  rw [slice, if_pos hbounds, ← append_assoc, ← length_append, take_left, drop_left]

end GoAkt.ByteStrings
