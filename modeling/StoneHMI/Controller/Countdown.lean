/-
  StoneHMI.Controller.Countdown
  ─────────────────────────────
  **THE COUNTDOWN LABEL, PRINTED AND SCANNED.**

  `timer_handle` prints `record` as `"%lu:%02lu"`, and `stone_cmd` scans the
  label with `"%hhu:%hhu"` into two bytes.  The seconds are below 60 and come
  back; the minutes come back modulo 256 (`scanMinutesSecond_countdownText`).
  So `countdown_codec`: the label stands for `record` exactly below 256 minutes.
-/
import StoneHMI.Controller.Ctl

namespace StoneHMI

open CText

/-! ## §1. The two fields. -/

/-- `"%02lu"` of a number. -/
def twoPlaces (n : ℕ) : List UInt8 :=
  if (decimal n).length < 2 then 0x30 :: decimal n else decimal n

theorem countdownText_eq (r : UInt32) :
    countdownText r = decimal (r.toNat / 60) ++ 0x3a :: twoPlaces (r.toNat % 60) := by
  have hm : (r / 60).toNat = r.toNat / 60 := UInt32.toNat_div r 60
  have hs : (r % 60).toNat = r.toNat % 60 := UInt32.toNat_mod r 60
  unfold countdownText twoPlaces
  rw [hm, hs]

/-- The padding does not change the number. -/
theorem digitsValue_twoPlaces (n : ℕ) : digitsValue (twoPlaces n) = n := by
  have hpad : ∀ ds, digitsValue (0x30 :: ds) = digitsValue ds := fun _ => rfl
  unfold twoPlaces
  split
  · rw [hpad, digitsValue_decimal]
  · exact digitsValue_decimal n

theorem twoPlaces_ne_nil (n : ℕ) : twoPlaces n ≠ [] := by
  unfold twoPlaces
  split
  · simp
  · exact decimal_ne_nil n

theorem isDigit_twoPlaces (n : ℕ) : ∀ d ∈ twoPlaces n, isDigit d = true := by
  intro d hd
  unfold twoPlaces at hd
  split at hd
  · rcases List.mem_cons.mp hd with rfl | hd
    · decide
    · exact isDigit_of_mem_decimal hd
  · exact isDigit_of_mem_decimal hd

/-- `%hhu` on the minutes stops at the colon. -/
theorem scanU8_minutes (n : ℕ) (s : List UInt8) :
    scanU8 (decimal n ++ 0x3a :: s) = some (UInt8.ofNat n, 0x3a :: s) := by
  have hcolon : NoDigit (0x3a :: s) := noDigit_cons (by decide) s
  rw [scanU8_digits (decimal_ne_nil n) (fun _ hd => isDigit_of_mem_decimal hd) hcolon,
    digitsValue_decimal]

/-- `%hhu` on the seconds reads to the end. -/
theorem scanU8_second (n : ℕ) : scanU8 (twoPlaces n) = some (UInt8.ofNat n, []) := by
  have h := scanU8_digits (twoPlaces_ne_nil n) (isDigit_twoPlaces n) noDigit_nil
  rw [List.append_nil, digitsValue_twoPlaces] at h
  exact h

/-! ## §2. The label. -/

/-- **What `stone_cmd` scans of a label**: both numbers, each modulo 256. -/
theorem scanMinutesSecond_countdownText (r : UInt32) :
    scanMinutesSecond (countdownText r)
      = some (UInt8.ofNat (r.toNat / 60), UInt8.ofNat (r.toNat % 60)) := by
  rw [countdownText_eq]
  unfold scanMinutesSecond
  rw [scanU8_minutes]
  show (if (0x3a : UInt8) = 0x3a then (scanU8 (twoPlaces (r.toNat % 60))).map _ else none) = _
  rw [if_pos rfl, scanU8_second]
  rfl

/-- The minutes lose what is above a byte, the seconds nothing. -/
theorem toNat_labelSeconds (r : UInt32) :
    (labelSeconds (UInt8.ofNat (r.toNat / 60)) (UInt8.ofNat (r.toNat % 60))).toNat
      = (r.toNat / 60 % 256) * 60 + r.toNat % 60 := by
  have hm : (UInt8.ofNat (r.toNat / 60)).toNat = r.toNat / 60 % 256 := UInt8.toNat_ofNat
  have hs : (UInt8.ofNat (r.toNat % 60)).toNat = r.toNat % 60 :=
    UInt8.toNat_ofNat_of_lt' (by show r.toNat % 60 < 256; omega)
  unfold labelSeconds
  rw [hm, hs]
  exact UInt32.toNat_ofNat_of_lt' (by show _ < 2 ^ 32; omega)

/-- The record that a label is scanned as. -/
def labelRecord (text : List UInt8) : Option UInt32 :=
  (scanMinutesSecond text).map fun ms => labelSeconds ms.1 ms.2

theorem labelRecord_countdownText (r : UInt32) :
    ∃ back, labelRecord (countdownText r) = some back ∧
      back.toNat = (r.toNat / 60 % 256) * 60 + r.toNat % 60 := by
  unfold labelRecord
  rw [scanMinutesSecond_countdownText]
  exact ⟨_, rfl, toNat_labelSeconds r⟩

/-- Below 256 minutes, and only there, the record comes back. -/
theorem labelRecord_eq_iff (r : UInt32) :
    labelRecord (countdownText r) = some r ↔ r.toNat < 256 * 60 := by
  obtain ⟨back, hback, hvalue⟩ := labelRecord_countdownText r
  rw [hback, Option.some_inj, ← UInt32.toNat_inj, hvalue]
  omega

/-- **THE COUNTDOWN LABEL IS A CODEC**: every label is scanned, into the minutes modulo 256 and
the seconds; it gives the record back exactly below 256 minutes, where no two records have the
same label. -/
theorem countdown_codec :
    (∀ r : UInt32, ∃ back, labelRecord (countdownText r) = some back ∧
      back.toNat = (r.toNat / 60 % 256) * 60 + r.toNat % 60) ∧
    (∀ r : UInt32, labelRecord (countdownText r) = some r ↔ r.toNat < 256 * 60) ∧
    ∀ r q : UInt32, r.toNat < 256 * 60 → q.toNat < 256 * 60 → r ≠ q →
      countdownText r ≠ countdownText q := by
  refine ⟨labelRecord_countdownText, labelRecord_eq_iff, ?_⟩
  intro r q hr hq hne htext
  have hback := (labelRecord_eq_iff r).mpr hr
  rw [htext, (labelRecord_eq_iff q).mpr hq] at hback
  exact hne (Option.some.inj hback).symm

/-- `256:00` is scanned as `0:00`. -/
example : countdownText 15360 = str "256:00" ∧ labelRecord (str "256:00") = some 0 := by decide

end StoneHMI
