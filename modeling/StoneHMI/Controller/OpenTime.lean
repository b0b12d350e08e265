/-
  StoneHMI.Controller.OpenTime
  ────────────────────────────
  **HOW LONG EACH MODE OPENS THE RELAYS — the `OPEN_TIME_*` of main.c.**

  P01 starts a session by the global `mode`, FREQ2 resumes one by the float
  the display reports; both go through the same chain of comparisons, whose
  last branch takes every other mode for mode 1.
-/
import Mathlib.Data.Nat.Notation

namespace StoneHMI

def OPEN_TIME_1 : UInt32 := 2
def OPEN_TIME_2 : UInt32 := 5
def OPEN_TIME_3 : UInt32 := 10
def OPEN_TIME_4 : UInt32 := 15
def OPEN_TIME_5 : UInt32 := 20

/-- The seconds of a session in `mode`. -/
def openTime (mode : UInt8) : UInt32 :=
  if mode = 1 then OPEN_TIME_1 * 60
  else if mode = 2 then OPEN_TIME_2 * 60
  else if mode = 3 then OPEN_TIME_3 * 60
  else if mode = 4 then OPEN_TIME_4 * 60
  else if mode = 5 then OPEN_TIME_5 * 60
  else OPEN_TIME_1 * 60

theorem openTime_cases (mode : UInt8) :
    openTime mode = 120 ∨ openTime mode = 300 ∨ openTime mode = 600 ∨ openTime mode = 900 ∨
      (openTime mode = 1200 ∧ mode = 5) := by
  unfold openTime
  split
  · exact Or.inl rfl
  · split
    · exact Or.inr (Or.inl rfl)
    · split
      · exact Or.inr (Or.inr (Or.inl rfl))
      · split
        · exact Or.inr (Or.inr (Or.inr (Or.inl rfl)))
        · split
          · rename_i h
            exact Or.inr (Or.inr (Or.inr (Or.inr ⟨rfl, h⟩)))
          · exact Or.inl rfl

/-- A session lasts at least a second and at most `OPEN_TIME_5` minutes. -/
theorem openTime_bounds (mode : UInt8) :
    1 ≤ (openTime mode).toNat ∧ (openTime mode).toNat ≤ 1200 := by
  rcases openTime_cases mode with h | h | h | h | ⟨h, -⟩ <;> rw [h] <;> decide

/-- Only mode 5 runs for a thousand seconds or more. -/
theorem openTime_lt_thousand {mode : UInt8} (h : mode ≠ 5) : (openTime mode).toNat < 1000 := by
  rcases openTime_cases mode with ho | ho | ho | ho | ⟨-, h5⟩
  · rw [ho]
    decide
  · rw [ho]
    decide
  · rw [ho]
    decide
  · rw [ho]
    decide
  · exact absurd h5 h

end StoneHMI
