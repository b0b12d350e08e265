/-
  StoneHMI.Lib.Rounding
  ─────────────────────
  **ROUNDING TO A BINARY FLOATING-POINT FORMAT — a library of its own.**

  A format has the numbers `m * 2 ^ k` with `digits` bits of `m` behind the
  leading one, and `k` not below `least`.  `Format.round` takes a rational to
  the nearest of them, halves to the even one.  The exponent has no upper end:
  what is said here holds of a machine's format as long as nothing overflows.

    §1  to the nearest integer      §3  what rounding keeps
    §2  formats                     §4  how far it is off
-/
import Mathlib.Data.Int.Log
import Mathlib.Data.Rat.Floor
import Mathlib.Tactic.Linarith
import Mathlib.Tactic.NormNum
import Mathlib.Tactic.Positivity

namespace Rounding

/-! ## §1. To the nearest integer. -/

/-- To the nearest integer, halves to the even one. -/
def halfEven (x : ℚ) : ℤ :=
  if x - ⌊x⌋ < 1 / 2 then ⌊x⌋
  else if 1 / 2 < x - ⌊x⌋ then ⌊x⌋ + 1
  else if ⌊x⌋ % 2 = 0 then ⌊x⌋ else ⌊x⌋ + 1

theorem halfEven_mem (x : ℚ) : ⌊x⌋ ≤ halfEven x ∧ halfEven x ≤ ⌊x⌋ + 1 := by
  unfold halfEven
  split_ifs <;> omega

theorem halfEven_intCast (n : ℤ) : halfEven n = n := by
  unfold halfEven
  rw [Int.floor_intCast, sub_self, if_pos (by norm_num)]

theorem abs_sub_halfEven_le (x : ℚ) : |(halfEven x : ℚ) - x| ≤ 1 / 2 := by
  have hlo := Int.floor_le x
  have hhi := Int.lt_floor_add_one x
  rw [abs_le]
  unfold halfEven
  split_ifs <;> push_cast <;> constructor <;> linarith

theorem halfEven_mono {x y : ℚ} (h : x ≤ y) : halfEven x ≤ halfEven y := by
  rcases (Int.floor_mono h).lt_or_eq with hlt | heq
  · -- an integer lies between the two
    exact (halfEven_mem x).2.trans (le_trans (by omega) (halfEven_mem y).1)
  · have hfrac : x - ⌊x⌋ ≤ y - ⌊y⌋ := by
      rw [heq]
      linarith
    unfold halfEven
    rw [heq] at hfrac ⊢
    split_ifs <;> first | omega | (exfalso; linarith)

/-! ## §2. Formats. -/

/-- A format of numbers `m * 2 ^ k`. -/
structure Format where
  /-- The bits of `m` behind its leading one. -/
  digits : ℕ
  /-- The least `k`. -/
  least : ℤ

/-- `float` of IEEE 754. -/
def binary32 : Format := { digits := 23, least := -149 }

namespace Format

variable (F : Format)

/-- The exponent of the numbers next to `x`. -/
def exponent (x : ℚ) : ℤ := max F.least (Int.log 2 x - F.digits)

/-- The magnitude `x` on the grid around it. -/
def roundAbs (x : ℚ) : ℚ := halfEven (x / 2 ^ F.exponent x) * 2 ^ F.exponent x

/-- To the nearest number of the format, halves to the even one. -/
def round (x : ℚ) : ℚ := if 0 ≤ x then F.roundAbs x else -F.roundAbs (-x)

variable {F}

theorem two_zpow_pos (k : ℤ) : (0 : ℚ) < 2 ^ k := zpow_pos (by norm_num) k

theorem exponent_mono {x y : ℚ} (hx : 0 < x) (h : x ≤ y) : F.exponent x ≤ F.exponent y :=
  max_le_max_left _ (sub_le_sub_right (Int.log_mono_right hx h) _)

/-- A magnitude is below the next power of two of its grid. -/
theorem lt_zpow_exponent (x : ℚ) : x < 2 ^ (F.exponent x + F.digits + 1) := by
  have hlog : x < 2 ^ (Int.log 2 x + 1) := by
    exact_mod_cast Int.lt_zpow_succ_log_self (by decide : 1 < 2) x
  have hle : Int.log 2 x + 1 ≤ F.exponent x + F.digits + 1 := by
    have hmax := le_max_right F.least (Int.log 2 x - F.digits)
    unfold exponent
    omega
  exact hlog.trans_le (zpow_le_zpow_right₀ (by norm_num) hle)

/-- Above the least exponent, the leading one is in its place. -/
theorem zpow_exponent_le {x : ℚ} (hx : 0 < x) (h : F.least < F.exponent x) :
    2 ^ (F.exponent x + F.digits) ≤ x := by
  have hlog : (2 : ℚ) ^ Int.log 2 x ≤ x := by
    exact_mod_cast Int.zpow_log_le_self (by decide : 1 < 2) hx
  have heq : F.exponent x + F.digits = Int.log 2 x := by
    unfold exponent at h ⊢
    rw [max_eq_right (by omega)]
    omega
  rwa [heq]

theorem roundAbs_zero : F.roundAbs 0 = 0 := by
  unfold roundAbs
  rw [zero_div, show halfEven 0 = 0 from by exact_mod_cast halfEven_intCast 0]
  simp

theorem roundAbs_nonneg {x : ℚ} (hx : 0 ≤ x) : 0 ≤ F.roundAbs x := by
  have hfloor : 0 ≤ ⌊x / 2 ^ F.exponent x⌋ :=
    Int.floor_nonneg.mpr (div_nonneg hx (two_zpow_pos _).le)
  have hround : 0 ≤ halfEven (x / 2 ^ F.exponent x) := hfloor.trans (halfEven_mem _).1
  exact mul_nonneg (by exact_mod_cast hround) (two_zpow_pos _).le

/-- A whole number of grid steps bounds what is rounded on the grid. -/
theorem roundAbs_le_of_le {x : ℚ} {n : ℤ} (h : x ≤ n * 2 ^ F.exponent x) :
    F.roundAbs x ≤ n * 2 ^ F.exponent x := by
  refine mul_le_mul_of_nonneg_right ?_ (two_zpow_pos _).le
  have hle := halfEven_mono ((div_le_iff₀ (two_zpow_pos (F.exponent x))).mpr h)
  rw [halfEven_intCast] at hle
  exact_mod_cast hle

theorem le_roundAbs_of_le {x : ℚ} {n : ℤ} (h : n * 2 ^ F.exponent x ≤ x) :
    n * 2 ^ F.exponent x ≤ F.roundAbs x := by
  refine mul_le_mul_of_nonneg_right ?_ (two_zpow_pos _).le
  have hle := halfEven_mono ((le_div_iff₀ (two_zpow_pos (F.exponent x))).mpr h)
  rw [halfEven_intCast] at hle
  exact_mod_cast hle

/-- **Rounding keeps the order** of magnitudes. -/
theorem roundAbs_mono {x y : ℚ} (hx : 0 ≤ x) (h : x ≤ y) : F.roundAbs x ≤ F.roundAbs y := by
  rcases hx.eq_or_lt with rfl | hpos
  · rw [roundAbs_zero]
    exact roundAbs_nonneg h
  · rcases (exponent_mono (F := F) hpos h).lt_or_eq with hlt | heq
    · -- a power of two lies between the two, on both grids
      have hbetween : (2 : ℚ) ^ (F.exponent x + F.digits + 1) ≤ 2 ^ (F.exponent y + F.digits) :=
        zpow_le_zpow_right₀ (by norm_num) (by omega)
      have hupper : F.roundAbs x ≤ 2 ^ (F.exponent x + F.digits + 1) := by
        have hpow : (2 : ℚ) ^ (F.exponent x + F.digits + 1)
            = ((2 ^ (F.digits + 1) : ℤ) : ℚ) * 2 ^ F.exponent x := by
          push_cast
          rw [← zpow_natCast, ← zpow_add₀ (by norm_num)]
          congr 1
          push_cast
          ring
        rw [hpow]
        exact roundAbs_le_of_le (hpow ▸ (lt_zpow_exponent x).le)
      have hlower : (2 : ℚ) ^ (F.exponent y + F.digits) ≤ F.roundAbs y := by
        have hpow : (2 : ℚ) ^ (F.exponent y + F.digits)
            = ((2 ^ F.digits : ℤ) : ℚ) * 2 ^ F.exponent y := by
          push_cast
          rw [← zpow_natCast, ← zpow_add₀ (by norm_num)]
          congr 1
          ring
        rw [hpow]
        have hleast : F.least < F.exponent y := lt_of_le_of_lt (le_max_left _ _) hlt
        exact le_roundAbs_of_le (hpow ▸ zpow_exponent_le (hpos.trans_le h) hleast)
      exact hupper.trans (hbetween.trans hlower)
    · unfold roundAbs
      rw [← heq]
      refine mul_le_mul_of_nonneg_right ?_ (two_zpow_pos _).le
      exact_mod_cast halfEven_mono (div_le_div_of_nonneg_right h (two_zpow_pos _).le)

/-! ## §3. What rounding keeps. -/

theorem round_of_nonneg {x : ℚ} (hx : 0 ≤ x) : F.round x = F.roundAbs x := if_pos hx

@[simp] theorem round_neg (x : ℚ) : F.round (-x) = -F.round x := by
  unfold round
  rcases lt_trichotomy x 0 with hx | rfl | hx
  · rw [if_pos (by linarith), if_neg (by linarith), neg_neg]
  · simp [roundAbs_zero]
  · rw [if_neg (by linarith), if_pos hx.le, neg_neg]

/-- **Rounding keeps the order.** -/
theorem round_mono {x y : ℚ} (h : x ≤ y) : F.round x ≤ F.round y := by
  unfold round
  by_cases hx : 0 ≤ x
  · rw [if_pos hx, if_pos (hx.trans h)]
    exact roundAbs_mono hx h
  · rw [if_neg hx]
    have hneg := roundAbs_nonneg (F := F) (x := -x) (by linarith)
    by_cases hy : 0 ≤ y
    · rw [if_pos hy]
      exact le_trans (by linarith) (roundAbs_nonneg hy)
    · rw [if_neg hy]
      exact neg_le_neg (roundAbs_mono (by linarith) (by linarith))

/-- An integer of no more bits than the format has is one of its numbers. -/
theorem round_natCast {n : ℕ} (hn : n < 2 ^ (F.digits + 1)) (hleast : F.least ≤ 0) :
    F.round n = n := by
  have hlog : Int.log 2 (n : ℚ) - F.digits ≤ 0 := by
    rw [Int.log_natCast]
    have hle : Nat.log 2 n < F.digits + 1 := by
      rcases Nat.eq_zero_or_pos n with rfl | hpos
      · simp
      · exact Nat.log_lt_of_lt_pow (by omega) hn
    omega
  -- the grid is at least as fine as the integers
  obtain ⟨k, hk⟩ : ∃ k : ℕ, F.exponent n = -(k : ℤ) := by
    refine ⟨(-F.exponent n).toNat, ?_⟩
    have hexp : F.exponent n ≤ 0 := max_le hleast hlog
    omega
  rw [round_of_nonneg (by positivity)]
  unfold roundAbs
  rw [hk, zpow_neg, div_inv_eq_mul, zpow_natCast]
  have hint : (n : ℚ) * 2 ^ k = ((n * 2 ^ k : ℤ) : ℚ) := by push_cast; rfl
  rw [hint, halfEven_intCast]
  push_cast
  rw [mul_assoc, mul_inv_cancel₀ (by positivity), mul_one]

/-- Between two integers of the format, rounding stays between them. -/
theorem round_mem {n : ℕ} (hn : n < 2 ^ (F.digits + 1)) (hleast : F.least ≤ 0) {x : ℚ}
    (hlo : -n ≤ x) (hhi : x ≤ n) : -n ≤ F.round x ∧ F.round x ≤ n := by
  have hself := round_natCast hn hleast
  constructor
  · calc -(n : ℚ) = F.round (-n) := by rw [round_neg, hself]
      _ ≤ F.round x := round_mono hlo
  · calc F.round x ≤ F.round n := round_mono hhi
      _ = n := hself

/-! ## §4. How far it is off. -/

theorem abs_roundAbs_sub_le (x : ℚ) : |F.roundAbs x - x| ≤ 2 ^ F.exponent x / 2 := by
  have hpos := two_zpow_pos (F.exponent x)
  have hstep : F.roundAbs x - x
      = (halfEven (x / 2 ^ F.exponent x) - x / 2 ^ F.exponent x) * 2 ^ F.exponent x := by
    unfold roundAbs
    rw [sub_mul, div_mul_cancel₀ _ hpos.ne']
  rw [hstep, abs_mul, abs_of_pos hpos]
  calc _ ≤ 1 / 2 * (2 : ℚ) ^ F.exponent x :=
        mul_le_mul_of_nonneg_right (abs_sub_halfEven_le _) hpos.le
    _ = 2 ^ F.exponent x / 2 := by ring

/-- Below a power of two, a rounding is off by half a step of the grid there. -/
theorem abs_round_sub_le {x : ℚ} {k : ℤ} (hk : F.least ≤ k) (h : |x| < 2 ^ (k + F.digits + 1)) :
    |F.round x - x| ≤ 2 ^ k / 2 := by
  have hmag : ∀ y : ℚ, 0 ≤ y → y < 2 ^ (k + F.digits + 1) → |F.roundAbs y - y| ≤ 2 ^ k / 2 := by
    intro y hy hlt
    rcases hy.eq_or_lt with rfl | hpos
    · rw [roundAbs_zero, sub_self, abs_zero]
      exact (div_pos (two_zpow_pos k) (by norm_num)).le
    · have hexp : F.exponent y ≤ k := by
        refine max_le hk ?_
        have hlog := (Int.lt_zpow_iff_log_lt (b := 2) (by decide) hpos).mp (by exact_mod_cast hlt)
        omega
      have hle : (2 : ℚ) ^ F.exponent y ≤ 2 ^ k := zpow_le_zpow_right₀ (by norm_num) hexp
      exact (abs_roundAbs_sub_le y).trans (by linarith)
  unfold round
  by_cases hx : 0 ≤ x
  · rw [if_pos hx]
    exact hmag x hx (by rwa [abs_of_nonneg hx] at h)
  · rw [if_neg hx, ← abs_neg]
    have hneg : -(-F.roundAbs (-x) - x) = F.roundAbs (-x) - -x := by ring
    rw [hneg]
    exact hmag (-x) (by linarith) (by rwa [abs_of_neg (by linarith)] at h)

end Format

end Rounding
