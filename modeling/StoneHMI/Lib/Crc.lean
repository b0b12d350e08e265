/-
  StoneHMI.Lib.Crc
  ────────────────
  **CYCLIC CHECKSUMS — a library of its own.**

  A reflected checksum register of any width takes the message in bit by bit:
  its low bit and the message's bit leave together, and the generator is
  exclusive-ored in where they differ.

    • `feed_eq_iterate` — up to a register's width of bits may be exclusive-ored
                          in at once, and shifted out behind;
    • `poly_feed`       — the register is the remainder of the message by the
                          generator, as polynomials over the field of two
                          elements;
    • `feed_ne_of_window` — where the generator has its top bit, an error inside
                          a register's width of bits changes the checksum.
-/
import Mathlib.Algebra.CharP.Two
import Mathlib.Algebra.Field.ZMod
import Mathlib.Algebra.Polynomial.Div
import Mathlib.Data.List.GetD
import Mathlib.Tactic.LinearCombination

namespace Crc

variable {w : ℕ}

/-! ## §1. The register. -/

/-- One bit of the message. -/
def step (g r : BitVec w) (b : Bool) : BitVec w :=
  if r.getLsbD 0 ^^ b then (r >>> 1) ^^^ g else r >>> 1

/-- No bit of the message: the register goes on by one place. -/
def shift (g r : BitVec w) : BitVec w := step g r false

/-- The register after the bits. -/
def feed (g r : BitVec w) (bs : List Bool) : BitVec w := bs.foldl (step g) r

@[simp] theorem feed_nil (g r : BitVec w) : feed g r [] = r := rfl

@[simp] theorem feed_cons (g r : BitVec w) (b : Bool) (bs : List Bool) :
    feed g r (b :: bs) = feed g (step g r b) bs := rfl

theorem feed_append (g r : BitVec w) (bs cs : List Bool) :
    feed g r (bs ++ cs) = feed g (feed g r bs) cs := List.foldl_append

/-! ## §2. Many bits at once. -/

/-- The bits as a word, the first one lowest. -/
def word (w : ℕ) (bs : List Bool) : BitVec w := (BitVec.ofBoolListLE bs).setWidth w

theorem getLsbD_word (bs : List Bool) (i : ℕ) :
    (word w bs).getLsbD i = (decide (i < w) && bs.getD i false) := by
  unfold word
  rw [BitVec.getLsbD_setWidth, BitVec.getLsbD_ofBoolListLE]

theorem word_nil : word w [] = 0#w := by
  apply BitVec.eq_of_getLsbD_eq
  intro i hi
  simp [getLsbD_word]

theorem word_cons_ushiftRight {b : Bool} {bs : List Bool} (h : bs.length < w) :
    word w (b :: bs) >>> 1 = word w bs := by
  apply BitVec.eq_of_getLsbD_eq
  intro i hi
  rw [BitVec.getLsbD_ushiftRight, getLsbD_word, getLsbD_word, Nat.add_comm 1 i, List.getD_cons_succ]
  by_cases hlt : i + 1 < w
  · simp [hi, hlt]
  · -- the last place of the register lies behind the bits
    rw [List.getD_eq_default _ _ (by omega), Bool.and_false, Bool.and_false]

/-- The bits of a word can wait in the register while the ones before them leave. -/
theorem step_word {b : Bool} {bs : List Bool} (h : bs.length < w) (g r : BitVec w) :
    shift g (r ^^^ word w (b :: bs)) = step g r b ^^^ word w bs := by
  have hlow : (word w (b :: bs)).getLsbD 0 = b := by
    rw [getLsbD_word, List.getD_cons_zero]
    simp [Nat.zero_lt_of_lt h]
  unfold shift step
  rw [BitVec.getLsbD_xor, hlow, Bool.xor_false, BitVec.ushiftRight_xor_distrib,
    word_cons_ushiftRight h]
  split
  · rw [BitVec.xor_assoc, BitVec.xor_assoc, BitVec.xor_comm g]
  · rfl

/-- **Up to a register's width of bits are taken in at once.** -/
theorem feed_eq_iterate (g : BitVec w) : ∀ (bs : List Bool) (r : BitVec w), bs.length ≤ w →
    feed g r bs = (shift g)^[bs.length] (r ^^^ word w bs) := by
  intro bs
  induction bs with
  | nil =>
      intro r _
      show r = r ^^^ word w []
      rw [word_nil, BitVec.xor_zero]
  | cons b bs ih =>
      intro r h
      rw [List.length_cons] at h
      rw [feed_cons, ih _ (by omega), List.length_cons, Function.iterate_succ_apply,
        step_word (by omega)]

/-! ## §3. Errors. -/

theorem word_inj {x y : List Bool} (hlen : x.length = y.length) (hw : x.length ≤ w)
    (h : word w x = word w y) : x = y := by
  apply List.ext_getElem hlen
  intro i hx hy
  have hbit := congrArg (fun v => v.getLsbD i) h
  have hi : i < w := by omega
  simp only [getLsbD_word, hi, decide_true, Bool.true_and, List.getD_eq_getElem _ _ hx,
    List.getD_eq_getElem _ _ hy] at hbit
  exact hbit

theorem ushiftRight_inj {x y : BitVec w} (h0 : x.getLsbD 0 = y.getLsbD 0)
    (h : x >>> 1 = y >>> 1) : x = y := by
  apply BitVec.eq_of_getLsbD_eq
  intro i hi
  cases i with
  | zero => exact h0
  | succ i =>
      have hbit := congrArg (fun v => v.getLsbD i) h
      simpa [BitVec.getLsbD_ushiftRight, Nat.add_comm] using hbit

/-- A generator with its top bit shows there whether it has been taken in. -/
theorem msb_step {g : BitVec w} (hg : g.msb = true) (r : BitVec w) (b : Bool) :
    (step g r b).msb = (r.getLsbD 0 ^^ b) := by
  have hshift : (r >>> 1).msb = false := by simp
  unfold step
  split
  case isTrue h => rw [BitVec.msb_xor, hshift, hg, h, Bool.false_xor]
  case isFalse h => rw [hshift, Bool.not_eq_true _ |>.mp h]

theorem step_inj {g : BitVec w} (hg : g.msb = true) {x y : BitVec w} {b : Bool}
    (h : step g x b = step g y b) : x = y := by
  have htop : (x.getLsbD 0 ^^ b) = (y.getLsbD 0 ^^ b) := by
    rw [← msb_step hg, ← msb_step hg, h]
  apply ushiftRight_inj (Bool.xor_left_inj.mp htop)
  unfold step at h
  rw [htop] at h
  split at h
  · exact (BitVec.xor_left_inj g).mp h
  · exact h

theorem feed_inj {g : BitVec w} (hg : g.msb = true) (bs : List Bool) :
    ∀ {x y : BitVec w}, feed g x bs = feed g y bs → x = y := by
  induction bs with
  | nil =>
      intro x y h
      exact h
  | cons b bs ih =>
      intro x y h
      exact step_inj hg (ih h)

/-- A register's width of bits decides what the register holds behind them. -/
theorem feed_ne_of_le {g : BitVec w} (hg : g.msb = true) {x y : List Bool}
    (hlen : x.length = y.length) (hw : x.length ≤ w) (hne : x ≠ y) (r : BitVec w) :
    feed g r x ≠ feed g r y := by
  intro h
  rw [feed_eq_iterate g x r hw, feed_eq_iterate g y r (by omega), ← hlen] at h
  have hinj : Function.Injective (shift g) := fun _ _ => step_inj hg
  exact hne (word_inj hlen hw ((BitVec.xor_right_inj r).mp (hinj.iterate _ h)))

/-- The lists differ only within `n` places in a row. -/
def WithinWindow (n : ℕ) (x y : List Bool) : Prop :=
  ∃ k, ∀ i, x[i]? ≠ y[i]? → k ≤ i ∧ i < k + n

/-- What lies outside the window is common to both. -/
theorem WithinWindow.split {n : ℕ} {x y : List Bool} (h : WithinWindow n x y)
    (hlen : x.length = y.length) :
    ∃ pre u v post, x = pre ++ u ++ post ∧ y = pre ++ v ++ post ∧ u.length = v.length ∧
      u.length ≤ n := by
  obtain ⟨k, hk⟩ := h
  have hsplit : ∀ z : List Bool, z = z.take k ++ (z.drop k).take n ++ z.drop (k + n) := by
    intro z
    rw [List.append_assoc, ← List.drop_drop, List.take_append_drop, List.take_append_drop]
  have hpre : y.take k = x.take k := by
    apply List.ext_getElem?
    intro i
    rw [List.getElem?_take, List.getElem?_take]
    split
    · by_contra hne
      exact absurd (hk i fun he => hne he.symm).1 (by omega)
    · rfl
  have hpost : y.drop (k + n) = x.drop (k + n) := by
    apply List.ext_getElem?
    intro i
    rw [List.getElem?_drop, List.getElem?_drop]
    by_contra hne
    exact absurd (hk (k + n + i) fun he => hne he.symm).2 (by omega)
  refine ⟨x.take k, (x.drop k).take n, (y.drop k).take n, x.drop (k + n), hsplit x, ?_, ?_, ?_⟩
  · rw [← hpre, ← hpost]
    exact hsplit y
  · rw [List.length_take, List.length_take, List.length_drop, List.length_drop, hlen]
  · exact List.length_take_le n _

/-- **An error inside a register's width of bits changes the checksum.** -/
theorem feed_ne_of_window {g : BitVec w} (hg : g.msb = true) {x y : List Bool}
    (hlen : x.length = y.length) (hne : x ≠ y) (hwin : WithinWindow w x y) (r : BitVec w) :
    feed g r x ≠ feed g r y := by
  obtain ⟨pre, u, v, post, rfl, rfl, huv, hw⟩ := hwin.split hlen
  rw [feed_append, feed_append, feed_append, feed_append]
  intro h
  -- the bits behind the window keep registers apart, and those inside it set them apart
  exact feed_ne_of_le hg huv hw (fun he => hne (by rw [he])) _ (feed_inj hg post h)

/-! ## §4. The polynomials. -/

section Polynomials

open Polynomial

/-- A bit as an element of the field of two elements. -/
def bit (b : Bool) : ZMod 2 := if b then 1 else 0

theorem bit_xor (a b : Bool) : bit (a ^^ b) = bit a + bit b := by
  cases a <;> cases b <;> decide

/-- The polynomial of a reflected register: its low bit goes with the highest power. -/
noncomputable def poly (r : BitVec w) : (ZMod 2)[X] :=
  ∑ i ∈ Finset.range w, C (bit (r.getMsbD i)) * X ^ i

/-- The polynomial of a message: its first bit goes with the highest power. -/
noncomputable def msgPoly : List Bool → (ZMod 2)[X]
  | [] => 0
  | b :: bs => C (bit b) * X ^ bs.length + msgPoly bs

/-- The generator, with the power of the register's width that no register holds. -/
noncomputable def generator (g : BitVec w) : (ZMod 2)[X] := X ^ w + poly g

theorem coeff_poly (r : BitVec w) (k : ℕ) : (poly r).coeff k = bit (r.getMsbD k) := by
  unfold poly
  simp only [finsetSum_coeff, coeff_C_mul_X_pow]
  by_cases hk : k < w
  · rw [Finset.sum_eq_single_of_mem k (Finset.mem_range.mpr hk)]
    · exact if_pos rfl
    · intro i _ hne
      exact if_neg fun he => hne he.symm
  · rw [Finset.sum_eq_zero, BitVec.getMsbD_of_ge r k (by omega)]
    · rfl
    · intro i hi
      have hlt : i < w := Finset.mem_range.mp hi
      exact if_neg (by omega)

theorem degree_poly_lt (r : BitVec w) : (poly r).degree < w := by
  rw [degree_lt_iff_coeff_zero]
  intro k hk
  rw [coeff_poly, BitVec.getMsbD_of_ge r k hk]
  rfl

theorem monic_generator (g : BitVec w) : (generator g).Monic := monic_X_pow_add (degree_poly_lt g)

theorem degree_generator (g : BitVec w) : (generator g).degree = w := by
  have hlt : (poly g).degree < (X ^ w : (ZMod 2)[X]).degree := by
    rw [degree_X_pow]
    exact degree_poly_lt g
  unfold generator
  rw [degree_add_eq_left_of_degree_lt hlt, degree_X_pow]

theorem poly_xor (x y : BitVec w) : poly (x ^^^ y) = poly x + poly y := by
  ext k
  rw [coeff_add, coeff_poly, coeff_poly, coeff_poly, BitVec.getMsbD_xor, bit_xor]

/-- The place by which the register goes on: its low bit becomes the power of its width. -/
theorem X_mul_poly (r : BitVec w) :
    X * poly r = C (bit (r.getLsbD 0)) * X ^ w + poly (r >>> 1) := by
  ext k
  rw [coeff_add, coeff_C_mul_X_pow, coeff_poly, BitVec.getMsbD_ushiftRight]
  cases k with
  | zero =>
      rw [coeff_X_mul_zero]
      by_cases hw : w = 0
      · rw [BitVec.getLsbD_of_ge r 0 (by omega)]
        simp [bit]
      · rw [if_neg fun he => hw he.symm]
        simp [bit]
  | succ k =>
      rw [coeff_X_mul, coeff_poly, Nat.add_sub_cancel]
      by_cases hlast : k + 1 = w
      · -- the low bit itself
        rw [if_pos hlast, BitVec.getMsbD_eq_getLsbD, show w - 1 - k = 0 by omega]
        simp [show k < w by omega, hlast, bit]
      · rw [if_neg hlast, zero_add]
        by_cases hlt : k + 1 < w
        · simp [hlt]
        · rw [BitVec.getMsbD_of_ge r k (by omega)]
          simp

/-- **One bit is one step of the division.** -/
theorem poly_step (g r : BitVec w) (b : Bool) :
    poly (step g r b)
      = X * poly r + C (bit b) * X ^ w + C (bit (r.getLsbD 0 ^^ b)) * generator g := by
  have hstep : poly (step g r b) = poly (r >>> 1) + C (bit (r.getLsbD 0 ^^ b)) * poly g := by
    unfold step
    split
    case isTrue h => rw [poly_xor, h, show bit true = 1 from rfl, C_1, one_mul]
    case isFalse h =>
      rw [Bool.not_eq_true] at h
      rw [h, show bit false = 0 from rfl, C_0, zero_mul, add_zero]
  have htwice : C (bit (r.getLsbD 0 ^^ b)) + C (bit (r.getLsbD 0 ^^ b)) = (0 : (ZMod 2)[X]) :=
    CharTwo.add_self_eq_zero _
  have hsum : C (bit (r.getLsbD 0 ^^ b)) = C (bit (r.getLsbD 0)) + (C (bit b) : (ZMod 2)[X]) := by
    rw [bit_xor, C_add]
  unfold generator
  linear_combination hstep - X_mul_poly r - X ^ w * htwice + X ^ w * hsum

/-- The message is the register behind it and a multiple of the generator. -/
theorem exists_quotient (g : BitVec w) : ∀ (bs : List Bool) (r : BitVec w),
    ∃ q, poly (feed g r bs) + generator g * q = X ^ bs.length * poly r + X ^ w * msgPoly bs := by
  intro bs
  induction bs with
  | nil =>
      intro r
      exact ⟨0, by simp [msgPoly]⟩
  | cons b bs ih =>
      intro r
      obtain ⟨q, hq⟩ := ih (step g r b)
      refine ⟨q - X ^ bs.length * C (bit (r.getLsbD 0 ^^ b)), ?_⟩
      rw [feed_cons, List.length_cons, msgPoly]
      linear_combination hq + X ^ bs.length * poly_step g r b

/-- **The register is the remainder of the message**, which comes behind what it held before. -/
theorem poly_feed (g r : BitVec w) (bs : List Bool) :
    poly (feed g r bs) = (X ^ bs.length * poly r + X ^ w * msgPoly bs) %ₘ generator g := by
  obtain ⟨q, hq⟩ := exists_quotient g bs r
  have hdeg : (poly (feed g r bs)).degree < (generator g).degree := by
    rw [degree_generator]
    exact degree_poly_lt _
  exact (div_modByMonic_unique q _ (monic_generator g) ⟨hq, hdeg⟩).2.symm

end Polynomials

end Crc
