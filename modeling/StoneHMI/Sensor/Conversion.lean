/-
  StoneHMI.Sensor.Conversion
  ──────────────────────────
  **SIGNED WORDS — the outputs of `read_sensor_one_shot`.**

  The sensor's registers hold a signed word of 24 bits for the pressure and one
  of 16 bits for the temperature.  The code puts them together as unsigned
  numbers and takes `2 ^ 24` or `2 ^ 16` off those that are greater than the
  weight of the sign bit.  The word with that bit alone, the least of all, is
  not greater, and comes out as the greatest value.

  `signedConversion_iff` says that it is the only one that does.
-/
import StoneHMI.Sensor.Xdb305
import StoneHMI.Lib.Words
import Mathlib.Tactic.Linarith
import Mathlib.Tactic.NormNum

namespace StoneHMI

open Words

/-! ## §1. The data registers. -/

/-- `REG_Data` -/
structure RegData where
  R0 : UInt8
  R1 : UInt8
  R2 : UInt8
  R3 : UInt8
  R4 : UInt8
  deriving DecidableEq, Repr

namespace RegData

def bytes (R : RegData) : List UInt8 := [R.R0, R.R1, R.R2, R.R3, R.R4]

/-- The word of the pressure. -/
def word24 (R : RegData) : BitVec 24 := R.R0.toBitVec ++ R.R1.toBitVec ++ R.R2.toBitVec

/-- The word of the temperature. -/
def word16 (R : RegData) : BitVec 16 := R.R3.toBitVec ++ R.R4.toBitVec

end RegData

/-- A shot reads these registers, returns `ESP_OK` and leaves the pressure `p` and the
temperature `T`. -/
def OneShot (R : RegData) (p T : ℚ) : Prop :=
  ∃ rs t, Labelled.exec Shot.step Shot.start (rs ++ [.ok R.bytes]) = some t ∧
    t.stage = .returned ESP_OK ∧ t.Cal_PData = some p ∧ t.Cal_TData = some T

/-- The outputs are those of the two's complement words, in their ranges, and no greater than
those of greater words. -/
structure SignedConversion (R : RegData) (p T : ℚ) : Prop where
  pressure : p = R.word24.toInt / 2 ^ 23 * 300
  temperature : T = R.word16.toInt / 256
  pressure_range : -300 ≤ p ∧ p < 300
  temperature_range : -128 ≤ T ∧ T < 128
  pressure_mono : ∀ R' p' T', OneShot R' p' T' → R.word24.toInt ≤ R'.word24.toInt → p ≤ p'
  temperature_mono : ∀ R' p' T', OneShot R' p' T' → R.word16.toInt ≤ R'.word16.toInt → T ≤ T'

/-! ## §2. The outputs. -/

theorem toNat_word16 (R : RegData) : R.word16.toNat = R.R3.toNat * 256 + R.R4.toNat :=
  toNat_append_byte R.R3.toBitVec R.R4.toBitVec

theorem toNat_word24 (R : RegData) :
    R.word24.toNat = R.R0.toNat * 65536 + R.R1.toNat * 256 + R.R2.toNat := by
  have hlow := toNat_append_byte (R.R0.toBitVec ++ R.R1.toBitVec) R.R2.toBitVec
  have hhigh := toNat_append_byte R.R0.toBitVec R.R1.toBitVec
  show ((R.R0.toBitVec ++ R.R1.toBitVec) ++ R.R2.toBitVec).toNat = _
  rw [hlow, hhigh]
  show (R.R0.toNat * 256 + R.R1.toNat) * 256 + R.R2.toNat = _
  omega

/-- The comparison and the subtraction, done on the number as a rational. -/
theorem cast_signAbove (k n : ℕ) :
    (signAbove k n : ℚ) = if (n : ℚ) > 2 ^ k then (n : ℚ) - 2 * 2 ^ k else n := by
  have hcmp : (n : ℚ) > 2 ^ k ↔ 2 ^ k < n := by
    rw [gt_iff_lt]
    exact_mod_cast Iff.rfl
  unfold signAbove
  by_cases h : 2 ^ k < n
  · rw [if_pos h, if_pos (hcmp.mpr h)]
    push_cast
    rfl
  · rw [if_neg h, if_neg fun hq => h (hcmp.mp hq)]
    rfl

theorem calTData_eq (R : RegData) : calTData R.R3 R.R4 = signAbove 15 R.word16.toNat / 256 := by
  have hword : (R.R3.toNat * 256 + R.R4.toNat : ℚ) = (R.word16.toNat : ℚ) := by
    rw [toNat_word16]
    push_cast
    rfl
  have hweight : (2 : ℚ) ^ 15 = 32768 := by norm_num
  rw [cast_signAbove, hweight]
  unfold calTData
  rw [hword]
  by_cases h : (R.word16.toNat : ℚ) > 32768
  · simp only [if_pos h]
    norm_num
  · simp only [if_neg h]

theorem calPData_eq (R : RegData) :
    calPData R.R0 R.R1 R.R2 = signAbove 23 R.word24.toNat / 2 ^ 23 * 300 := by
  have hword : (R.R0.toNat * 65536 + R.R1.toNat * 256 + R.R2.toNat : ℚ) = (R.word24.toNat : ℚ) := by
    rw [toNat_word24]
    push_cast
    rfl
  have hweight : (2 : ℚ) ^ 23 = 8388608 := by norm_num
  rw [cast_signAbove, hweight]
  unfold calPData FULLSCALE
  rw [hword]
  by_cases h : (R.word24.toNat : ℚ) > 8388608
  · simp only [if_pos h]
    norm_num
  · simp only [if_neg h]

/-- Whatever the registers hold, the pressure lies within full scale. -/
theorem calPData_range (R : RegData) :
    -300 ≤ calPData R.R0 R.R1 R.R2 ∧ calPData R.R0 R.R1 R.R2 ≤ 300 := by
  have hword : R.word24.toNat < 2 ^ 24 := R.word24.isLt
  have hlo : -(2 ^ 23) ≤ signAbove 23 R.word24.toNat := by
    unfold signAbove
    split <;> omega
  have hhi : signAbove 23 R.word24.toNat ≤ 2 ^ 23 := by
    unfold signAbove
    split <;> omega
  have hlo' : -(2 ^ 23) ≤ (signAbove 23 R.word24.toNat : ℚ) := by exact_mod_cast hlo
  have hhi' : (signAbove 23 R.word24.toNat : ℚ) ≤ 2 ^ 23 := by exact_mod_cast hhi
  rw [calPData_eq]
  constructor <;> linarith

/-- The outputs of a shot are functions of the registers. -/
theorem oneShot_iff (R : RegData) (p T : ℚ) :
    OneShot R p T ↔ p = calPData R.R0 R.R1 R.R2 ∧ T = calTData R.R3 R.R4 := by
  constructor
  · rintro ⟨rs, t, hrun, -, hp, hT⟩
    rw [Labelled.exec_concat, Option.bind_eq_some_iff] at hrun
    obtain ⟨s, -, hstep⟩ := hrun
    obtain ⟨tr, e, -, hr, -⟩ | ⟨-, hr, -⟩ | ⟨-, SCO, hr, -⟩ | ⟨-, R0, R1, R2, R3, R4, hr, rfl⟩ :=
      Shot.step_cases hstep
    · cases hr
    · cases hr
    · cases hr
    · cases hr
      exact ⟨(Option.some.inj hp).symm, (Option.some.inj hT).symm⟩
  · rintro ⟨rfl, rfl⟩
    -- the command is acknowledged, and the conversion is over at once
    exact ⟨[.ok [], .ok [0]], _, rfl, rfl, rfl, rfl⟩

/-! ## §3. The sign. -/

theorem pressure_iff (R : RegData) :
    calPData R.R0 R.R1 R.R2 = R.word24.toInt / 2 ^ 23 * 300 ↔ R.word24.toNat ≠ 0x800000 := by
  rw [calPData_eq]
  constructor
  · intro h
    have hq : (signAbove 23 R.word24.toNat : ℚ) = R.word24.toInt := by linarith
    exact (signAbove_eq_toInt_iff R.word24).mp (by exact_mod_cast hq)
  · intro h
    rw [(signAbove_eq_toInt_iff R.word24).mpr h]

theorem temperature_iff (R : RegData) :
    calTData R.R3 R.R4 = R.word16.toInt / 256 ↔ R.word16.toNat ≠ 0x8000 := by
  rw [calTData_eq]
  constructor
  · intro h
    have hq : (signAbove 15 R.word16.toNat : ℚ) = R.word16.toInt := by linarith
    exact (signAbove_eq_toInt_iff R.word16).mp (by exact_mod_cast hq)
  · intro h
    rw [(signAbove_eq_toInt_iff R.word16).mpr h]

/-- The pressure of the least word is the greatest one. -/
theorem calPData_least {R : RegData} (h : R.word24.toNat = 0x800000) :
    calPData R.R0 R.R1 R.R2 = 300 := by
  rw [calPData_eq, h]
  have hsign : signAbove 23 0x800000 = 0x800000 := rfl
  rw [hsign]
  norm_num

theorem signedConversion_of_ne {R : RegData} (h24 : R.word24.toNat ≠ 0x800000)
    (h16 : R.word16.toNat ≠ 0x8000) {p T : ℚ} (h : OneShot R p T) : SignedConversion R p T := by
  obtain ⟨rfl, rfl⟩ := (oneShot_iff R p T).mp h
  have hp := (pressure_iff R).mpr h24
  have hT := (temperature_iff R).mpr h16
  -- the words' ranges, as rationals
  have hp0 : (-8388608 : ℚ) ≤ R.word24.toInt := by exact_mod_cast (toInt_range R.word24).1
  have hp1 : (R.word24.toInt : ℚ) < 8388608 := by exact_mod_cast (toInt_range R.word24).2
  have hT0 : (-32768 : ℚ) ≤ R.word16.toInt := by exact_mod_cast (toInt_range R.word16).1
  have hT1 : (R.word16.toInt : ℚ) < 32768 := by exact_mod_cast (toInt_range R.word16).2
  refine ⟨hp, hT, ?_, ?_, ?_, ?_⟩
  · rw [hp]
    constructor <;> linarith
  · rw [hT]
    constructor <;> linarith
  · intro R' p' T' h' hle
    obtain ⟨rfl, rfl⟩ := (oneShot_iff R' p' T').mp h'
    have hle' : (R.word24.toInt : ℚ) ≤ R'.word24.toInt := by exact_mod_cast hle
    -- the other word is not the least either, so its pressure has the formula too
    rw [hp, (pressure_iff R').mpr (ne_least_of_le (k := 23) h24 hle)]
    linarith
  · intro R' p' T' h' hle
    obtain ⟨rfl, rfl⟩ := (oneShot_iff R' p' T').mp h'
    have hle' : (R.word16.toInt : ℚ) ≤ R'.word16.toInt := by exact_mod_cast hle
    rw [hT, (temperature_iff R').mpr (ne_least_of_le (k := 15) h16 hle)]
    linarith

/-- **SIGNED WORDS**: what a shot makes of its registers is the two's complement conversion exactly
when neither word is the least of its width. -/
theorem signedConversion_iff (R : RegData) :
    (∀ p T, OneShot R p T → SignedConversion R p T) ↔
      R.word24.toNat ≠ 0x800000 ∧ R.word16.toNat ≠ 0x8000 := by
  constructor
  · intro h
    -- there is such a shot: the formulas are enough for this direction
    have hR := h _ _ ((oneShot_iff R _ _).mpr ⟨rfl, rfl⟩)
    exact ⟨(pressure_iff R).mp hR.pressure, (temperature_iff R).mp hR.temperature⟩
  · rintro ⟨h24, h16⟩ p T h
    exact signedConversion_of_ne h24 h16 h

/-- `-2 ^ 23` and `-2 ^ 15`: full scale comes out with its sign turned. -/
def leastWords : RegData := { R0 := 0x80, R1 := 0, R2 := 0, R3 := 0x80, R4 := 0 }

theorem not_signedConversion :
    ¬ ∀ (R : RegData) (p T : ℚ), OneShot R p T → SignedConversion R p T := by
  intro h
  have hshot : OneShot leastWords 300 128 := (oneShot_iff _ _ _).mpr
    ⟨(calPData_least (by decide)).symm, by decide +kernel⟩
  exact absurd (h leastWords 300 128 hshot).pressure_range.2 (lt_irrefl 300)

end StoneHMI
