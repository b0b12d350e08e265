/-
  StoneHMI.Lib.Words
  ──────────────────
  **WORDS PUT TOGETHER OF BYTES, AND THEIR SIGN — a library of its own.**

  A word of `k + 1` bits stands for its two's complement value,
  `BitVec.toInt`.  Code that has it as an unsigned number gets the value back
  by taking `2 ^ (k + 1)` off a number from `2 ^ k` on.  With a strict
  comparison (`signAbove`) the number `2 ^ k` itself keeps the wrong sign.
-/
import Mathlib.Algebra.Group.Nat.Defs
import Mathlib.Data.Int.Notation

namespace Words

theorem toNat_append_byte {n : ℕ} (x : BitVec n) (y : BitVec 8) :
    (x ++ y).toNat = x.toNat * 256 + y.toNat := by
  rw [BitVec.toNat_append, ← Nat.shiftLeft_add_eq_or_of_lt y.isLt, Nat.shiftLeft_eq]

theorem toNat_lt_twice {k : ℕ} (x : BitVec (k + 1)) : x.toNat < 2 * 2 ^ k := by
  rw [← Nat.pow_succ']
  exact x.isLt

/-- The sign bit weighs `2 ^ k`. -/
theorem toInt_eq_ite {k : ℕ} (x : BitVec (k + 1)) :
    x.toInt = if x.toNat < 2 ^ k then (x.toNat : ℤ) else x.toNat - 2 * (2 ^ k : ℕ) := by
  have hweight : 2 ^ (k + 1) = 2 * 2 ^ k := Nat.pow_succ'
  unfold BitVec.toInt
  rw [hweight]
  split <;> split <;> omega

/-- What a strict comparison makes of an unsigned number. -/
def signAbove (k n : ℕ) : ℤ := if 2 ^ k < n then (n : ℤ) - 2 * (2 ^ k : ℕ) else n

/-- **It is the two's complement value of every word but `2 ^ k`.** -/
theorem signAbove_eq_toInt_iff {k : ℕ} (x : BitVec (k + 1)) :
    signAbove k x.toNat = x.toInt ↔ x.toNat ≠ 2 ^ k := by
  have hpos : 0 < 2 ^ k := Nat.two_pow_pos k
  unfold signAbove
  rw [toInt_eq_ite]
  split <;> split <;> omega

/-- The least value is that of the word `2 ^ k`. -/
theorem toInt_eq_min_iff {k : ℕ} (x : BitVec (k + 1)) :
    x.toInt ≤ -(2 ^ k : ℕ) ↔ x.toNat = 2 ^ k := by
  have hpos : 0 < 2 ^ k := Nat.two_pow_pos k
  rw [toInt_eq_ite]
  split <;> omega

/-- A word of no smaller value than one that is not the least is not the least either. -/
theorem ne_least_of_le {k : ℕ} {x y : BitVec (k + 1)} (hx : x.toNat ≠ 2 ^ k)
    (h : x.toInt ≤ y.toInt) : y.toNat ≠ 2 ^ k := by
  intro hy
  exact hx ((toInt_eq_min_iff x).mp (Int.le_trans h ((toInt_eq_min_iff y).mpr hy)))

theorem toInt_range {k : ℕ} (x : BitVec (k + 1)) :
    -((2 ^ k : ℕ) : ℤ) ≤ x.toInt ∧ x.toInt < (2 ^ k : ℕ) := by
  have hlt := toNat_lt_twice x
  rw [toInt_eq_ite]
  split <;> omega

end Words
