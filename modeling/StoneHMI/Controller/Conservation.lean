/-
  StoneHMI.Controller.Conservation
  ────────────────────────────────
  **THE SECONDS OF A SESSION ADD UP — `record`, `run_time`, `mode_to_time`.**

  P01 and FREQ2 set all three globals so that the seconds left and the seconds
  run make up the session's time.  Every tick moves one second from `record`
  to `run_time`, both modulo 2³², and nothing else but an accepted countdown
  text writes `record` alone.  So the balance holds from the one to the other,
  and the row of the natural end is the row that P02 would have written.
-/
import StoneHMI.Controller.Session

namespace StoneHMI

open CText Labelled

/-! ## §1. The balance. -/

/-- `record + run_time`, modulo 2³², is `mode_to_time`. -/
def Ctl.Balanced (s : Ctl) : Prop := s.record + s.run_time = s.mode_to_time.toUInt32

instance (s : Ctl) : Decidable s.Balanced := inferInstanceAs (Decidable (_ = _))

/-- The item is handled by the branch `hd`. -/
def Contents.IsFor (c : Contents) (hd : Handler) : Prop := c.widget.bind handlerOf = some hd

instance (c : Contents) (hd : Handler) : Decidable (c.IsFor hd) :=
  inferInstanceAs (Decidable (_ = _))

/-- The item is a countdown text that `sscanf` accepts. -/
def Ev.AcceptsCountdown : Ev → Prop
  | .item c =>
      c.IsFor .label_timer_count_down ∧ (c.text.bind scanMinutesSecond).isSome = true
  | .alarm => False
  | .tick => False

instance : ∀ e : Ev, Decidable e.AcceptsCountdown
  | .item _ => inferInstanceAs (Decidable (_ ∧ _))
  | .alarm => inferInstanceAs (Decidable False)
  | .tick => inferInstanceAs (Decidable False)

/-- The open time of every mode fits the sixteen bits of `mode_to_time`. -/
theorem toUInt32_toUInt16_openTime (m : UInt8) :
    (openTime m).toUInt16.toUInt32 = openTime m := by
  apply UInt32.toNat_inj.mp
  rw [UInt16.toNat_toUInt32, toNat_toUInt16_openTime]

/-! ## §2. Steps. -/

/-- P01 and FREQ2 set the balance, whatever the mode or the float. -/
theorem Handler.balanced_of_start {P : Platform} {f : BitVec 32} {text : Option (List UInt8)}
    {s t : Ctl} {calls : List Effect} {hd : Handler} (hst : hd = .P01 ∨ hd = .FREQ2)
    (h : hd.run P f text s = .ok (t, calls)) : t.Balanced := by
  unfold Ctl.Balanced
  rcases hst with rfl | rfl
  · cases h
    show openTime s.mode + 0 = (openTime s.mode).toUInt16.toUInt32
    rw [toUInt32_toUInt16_openTime, UInt32.add_zero]
  · cases h
    show s.record + (openTime (P.floatToU8 f) - s.record) = (openTime (P.floatToU8 f)).toUInt16.toUInt32
    rw [toUInt32_toUInt16_openTime, UInt32.add_comm, UInt32.sub_add_cancel]

/-- A tick moves one second, and leaves `mode_to_time` alone. -/
theorem timer_handle_balanced {s : Ctl} (hs : s.Balanced) : (timer_handle s).1.Balanced := by
  have hmove : s.record - 1 + (s.run_time + 1) = s.record + s.run_time := by
    rw [UInt32.add_comm s.run_time 1, ← UInt32.add_assoc, UInt32.sub_add_cancel]
  unfold Ctl.Balanced at hs ⊢
  unfold timer_handle
  by_cases h0 : s.record - 1 = 0
  · simp only [h0, if_true]
    show (0 : UInt32) + (s.run_time + 1) = s.mode_to_time.toUInt32
    rw [← hs, ← hmove, h0]
  · simp only [if_neg h0]
    show s.record - 1 + (s.run_time + 1) = s.mode_to_time.toUInt32
    rw [← hs, hmove]

/-- An item keeps the balance, unless it is a countdown text that is accepted. -/
theorem stone_cmd_balanced {P : Platform} {c : Contents} {s t : Ctl} {calls : List Effect}
    (hs : s.Balanced) (hno : ¬ (Ev.item c).AcceptsCountdown)
    (h : stone_cmd P c s = .ok (t, calls)) : t.Balanced := by
  obtain ⟨w, hw, ⟨-, rfl, -⟩ | ⟨hd, hh, hrun⟩⟩ := stone_cmd_cases h
  · exact hs
  · have hfor : c.IsFor hd := by
      unfold Contents.IsFor
      rw [hw, Option.bind_some, hh]
    obtain ⟨rfl, rfl, -⟩ | ⟨hP01, -⟩ | ⟨rfl, rfl, -⟩ | ⟨hFREQ2, -⟩ | ⟨ms, rfl, hms, -⟩ |
      ⟨-, -, rfl, -⟩ := Handler.run_cases hrun
    · exact hs
    · exact Handler.balanced_of_start (Or.inl hP01) hrun
    · exact hs
    · exact Handler.balanced_of_start (Or.inr hFREQ2) hrun
    · exact absurd ⟨hfor, by rw [hms]; rfl⟩ hno
    · exact hs

/-- **Step.** -/
theorem balanced_step {P : Platform} {s t : Sys} {e : Ev} (hs : s.ctl.Balanced)
    (hno : ¬ e.AcceptsCountdown) (h : s.step P e = some t) : t.ctl.Balanced := by
  obtain ⟨c, ctl, calls, rfl, hc, rfl⟩ | ⟨rfl, -, rfl⟩ | ⟨q, rfl, -, rfl⟩ := Sys.step_cases h
  · exact stone_cmd_balanced hs hno hc
  · exact hs
  · exact timer_handle_balanced hs

/-! ## §3. Runs. -/

/-- **Run.** -/
theorem balanced_run {P : Platform} {es : List Ev} {s : Sys} (hs : s.ctl.Balanced)
    (hno : ∀ e ∈ es, ¬ e.AcceptsCountdown) : Always (Sys.step P) (·.ctl.Balanced) s es := by
  refine always_of_eachStep (C := fun _ e => ¬ e.AcceptsCountdown) ?_ hs ?_
  · intro a e b ha he hb
    exact balanced_step ha he hb
  · intro pre e t u hpre _ _
    exact hno e (hpre.subset (by simp))

/-- What P02 logs. -/
theorem rows_of_P02 {P : Platform} {s t : Sys} {c : Contents} (hc : c.IsFor .P02)
    (h : s.step P (.item c) = some t) :
    t.rows = s.rows ++ [(s.ctl.mode, s.ctl.run_time.toUInt16)] := by
  have hrow := row_step h
  unfold Contents.IsFor at hc
  simp only [rowAt, hc, if_true] at hrow
  exact hrow.1

/-- A tick that brings `record` to 0 logs the row that P02 would log after it. -/
theorem row_of_last_tick {P : Platform} {s t : Sys} (hs : s.ctl.Balanced)
    (h : s.step P .tick = some t) (h0 : t.ctl.record = 0) :
    t.ctl.run_time = t.ctl.mode_to_time.toUInt32 ∧
      t.rows = s.rows ++ [(t.ctl.mode, t.ctl.mode_to_time)] ∧
      t.ctl.run_time.toUInt16 = t.ctl.mode_to_time := by
  have hbal : t.ctl.record + t.ctl.run_time = t.ctl.mode_to_time.toUInt32 :=
    balanced_step (e := .tick) hs (fun hno => hno) h
  rw [h0, UInt32.zero_add] at hbal
  refine ⟨hbal, ?_, by rw [hbal, UInt16.toUInt16_toUInt32]⟩
  have hrow := row_step h
  obtain ⟨c, ctl, calls, he, -⟩ | ⟨he, -⟩ | ⟨q, -, -, rfl⟩ := Sys.step_cases h
  · cases he
  · cases he
  · -- the tick writes `mode` and `mode_to_time`, and changes neither
    have hlast : s.ctl.record - 1 = 0 := by
      by_contra hne
      unfold timer_handle at h0
      simp only [if_neg hne] at h0
      exact hne h0
    simp only [rowAt, hlast, if_true] at hrow
    rw [hrow.1]
    unfold timer_handle
    simp only [hlast, if_true]
    rfl

/-- **CONSERVATION OF SESSION TIME.**  From any state: after a P01 or FREQ2 item,
and any steps since it of which none accepts a countdown text, the seconds
left and the seconds run are `mode_to_time`.  Where the next tick brings
`record` to 0, it logs `mode_to_time`, and P02 would log the same row again. -/
theorem conservation (P : Platform) {s t : Sys} {c : Contents} {es : List Ev}
    (hc : c.IsFor .P01 ∨ c.IsFor .FREQ2) (hno : ∀ e ∈ es, ¬ e.AcceptsCountdown)
    (h : exec (Sys.step P) s (.item c :: es) = some t) :
    t.ctl.record + t.ctl.run_time = t.ctl.mode_to_time.toUInt32 ∧
      ∀ u, t.step P .tick = some u → u.ctl.record = 0 →
        u.ctl.run_time = u.ctl.mode_to_time.toUInt32 ∧
          u.rows = t.rows ++ [(u.ctl.mode, u.ctl.mode_to_time)] ∧
          ∀ stop v, stop.IsFor .P02 → u.step P (.item stop) = some v →
            v.rows = u.rows ++ [(u.ctl.mode, u.ctl.mode_to_time)] := by
  rw [exec_cons, Option.bind_eq_some_iff] at h
  obtain ⟨r, hr, ht⟩ := h
  -- the item sets the balance
  have hbal : r.ctl.Balanced := by
    obtain ⟨c', ctl, calls, he, hrun, rfl⟩ | ⟨he, -⟩ | ⟨q, he, -⟩ := Sys.step_cases hr
    · cases he
      obtain ⟨w, hw, hcase⟩ := stone_cmd_cases hrun
      unfold Contents.IsFor at hc
      rw [hw, Option.bind_some] at hc
      obtain ⟨hh, -⟩ | ⟨hd, hh, hhd⟩ := hcase
      · rw [hh] at hc
        simp at hc
      · rw [hh] at hc
        exact Handler.balanced_of_start (by simpa using hc) hhd
    · cases he
    · cases he
  have hrunbal : t.ctl.Balanced := (balanced_run hbal hno).final ht
  refine ⟨hrunbal, fun u hu h0 => ?_⟩
  obtain ⟨htime, hrow, hcut⟩ := row_of_last_tick hrunbal hu h0
  refine ⟨htime, hrow, fun stop v hstop hv => ?_⟩
  rw [rows_of_P02 hstop hv, hcut]

/-- A countdown of one second is left; FREQ2 reports mode 1. -/
def lastSecond : Sys := { Sys.init with ctl := { Ctl.init with record := 1 } }

/-- `FREQ2` with the float 1.0. -/
def freq2One : Contents := { widget := some (str "FREQ2"), float_value := 0x3f800000, text := none }

/-- After FREQ2, an alarm and its tick end the session with 120 seconds run. -/
theorem conservation_lastSecond :
    ∃ t u, exec (Sys.step deafPlatform) lastSecond [.item freq2One, .alarm] = some t ∧
      t.step deafPlatform .tick = some u ∧ u.ctl.record = 0 ∧
      u.ctl.run_time = u.ctl.mode_to_time.toUInt32 ∧
      u.rows = t.rows ++ [(u.ctl.mode, u.ctl.mode_to_time)] := by
  obtain ⟨t, ht, u, hu, h0⟩ : ∃ t, exec (Sys.step deafPlatform) lastSecond
      [.item freq2One, .alarm] = some t ∧ ∃ u, t.step deafPlatform .tick = some u ∧
        u.ctl.record = 0 := ⟨_, rfl, _, rfl, by decide⟩
  have hcons := conservation deafPlatform (c := freq2One) (Or.inr (by decide)) (by decide) ht
  obtain ⟨htime, hrow, -⟩ := hcons.2 u hu h0
  exact ⟨t, u, ht, hu, h0, htime, hrow⟩

end StoneHMI
