/-
  StoneHMI.Controller.Recovery
  ────────────────────────────
  **WHAT COMES BACK AFTER A RESET — W02, the countdown label and FREQ2.**

  After a restart the display is asked for its window; W02 is answered with
  its countdown text and then with FREQ2, from which `stone_cmd` rebuilds the
  session.  The seconds come back through `"%lu:%02lu"` and `"%hhu:%hhu"`
  (`labelRecord_eq_iff`), so `record`, `run_time` and `mode_to_time` do, and the timer is started.
  `mode` and the relays do not: no branch but FREQ1 writes `mode`, and none
  but P01 turns the relays on.  So no session is ever restored whole (§2).
-/
import StoneHMI.Controller.Conservation
import StoneHMI.Controller.Countdown

namespace StoneHMI

open CText CMemory

/-! ## §1. A session of so many ticks. -/

/-- `n` elements of `Timer_queue`, handled one after the other. -/
def ticks : ℕ → Ctl → Ctl × List Effect
  | 0, s => (s, [])
  | n + 1, s =>
      let r := ticks n s
      let t := timer_handle r.1
      (t.1, r.2 ++ t.2)

/-- The text a call sends to `label_timer_count_down`. -/
def sentCountdown : Effect → Option (List UInt8)
  | .send (.set_text _ name text _) =>
      if name = str "label_timer_count_down" then some text else none
  | _ => none

/-- The last countdown text among the calls. -/
def lastCountdown (calls : List Effect) : Option (List UInt8) :=
  (calls.filterMap sentCountdown).getLast?

/-- A tick ends by sending the countdown it arrived at. -/
theorem timer_handle_countdown (s : Ctl) :
    ∃ calls, (timer_handle s).2 = calls ++ [.send (.set_text (str "label")
      (str "label_timer_count_down") (countdownText (timer_handle s).1.record) false)] := by
  unfold timer_handle
  by_cases h0 : s.record - 1 = 0
  · simp only [h0, if_true]
    exact ⟨[_, _], rfl⟩
  · simp only [if_neg h0]
    exact ⟨[], rfl⟩

theorem lastCountdown_ticks (n : ℕ) (s : Ctl) :
    lastCountdown (ticks (n + 1) s).2 = some (countdownText (ticks (n + 1) s).1.record) := by
  obtain ⟨calls, hcalls⟩ := timer_handle_countdown (ticks n s).1
  show ((((ticks n s).2 ++ (timer_handle (ticks n s).1).2).filterMap sentCountdown).getLast?) = _
  rw [hcalls, ← List.append_assoc, List.filterMap_append]
  exact List.getLast?_concat

/-- What P01 leaves. -/
def Ctl.startedBy (s : Ctl) : Ctl :=
  { s.setRelays true with
    record := openTime s.mode, mode_to_time := (openTime s.mode).toUInt16, run_time := 0,
    started := true }

theorem stone_cmd_P01 {P : Platform} {c : Contents} (hc : c.IsFor .P01) (s : Ctl) :
    ∃ calls, stone_cmd P c s = .ok (s.startedBy, calls) := by
  unfold Contents.IsFor at hc
  rw [Option.bind_eq_some_iff] at hc
  obtain ⟨w, hw, hh⟩ := hc
  unfold stone_cmd
  simp only [hw, hh]
  exact ⟨_, rfl⟩

/-- Before the session's time is up, the ticks so far have moved from `record`
to `run_time`. -/
theorem ticks_running (s : Ctl) : ∀ n, n < (openTime s.mode).toNat →
    (ticks n s.startedBy).1
      = { s.startedBy with record := openTime s.mode - UInt32.ofNat n, run_time := UInt32.ofNat n }
  | 0, _ => by
      show s.startedBy = _
      rw [show openTime s.mode - UInt32.ofNat 0 = openTime s.mode from UInt32.sub_zero _]
      rfl
  | n + 1, h => by
      have hb := openTime_bounds s.mode
      have hn : (UInt32.ofNat n).toNat = n := UInt32.toNat_ofNat_of_lt' (by show n < 2 ^ 32; omega)
      have hleft : openTime s.mode - UInt32.ofNat n - 1 = openTime s.mode - UInt32.ofNat (n + 1) := by
        rw [UInt32.ofNat_add, UInt32.eq_sub_iff_add_eq, UInt32.add_comm (UInt32.ofNat n),
          ← UInt32.add_assoc]
        show openTime s.mode - UInt32.ofNat n - 1 + 1 + UInt32.ofNat n = openTime s.mode
        rw [UInt32.sub_add_cancel, UInt32.sub_add_cancel]
      -- the next second is not the last one
      have hne : openTime s.mode - UInt32.ofNat n - 1 ≠ 0 := by
        intro h0
        have hle : UInt32.ofNat n ≤ openTime s.mode := by
          rw [UInt32.le_iff_toNat_le, hn]
          omega
        have hsub : (openTime s.mode - UInt32.ofNat n).toNat = (openTime s.mode).toNat - n := by
          rw [UInt32.toNat_sub_of_le _ _ hle, hn]
        have h1 := congrArg UInt32.toNat h0
        rw [toNat_sub_one (by omega), hsub] at h1
        have hz : (0 : UInt32).toNat = 0 := rfl
        omega
      show (timer_handle (ticks n s.startedBy).1).1 = _
      rw [ticks_running s n (by omega)]
      unfold timer_handle
      simp only [if_neg hne]
      rw [hleft, UInt32.ofNat_add]
      rfl

/-- The last second stops the timer, and later ticks leave it stopped. -/
theorem started_ticks (s : Ctl) (n : ℕ) (h : (openTime s.mode).toNat ≤ n) :
    (ticks n s.startedBy).1.started = false := by
  have hb := openTime_bounds s.mode
  induction n, h using Nat.le_induction with
  | base =>
      obtain ⟨k, hk⟩ : ∃ k, (openTime s.mode).toNat = k + 1 :=
        ⟨(openTime s.mode).toNat - 1, by omega⟩
      have hone : openTime s.mode - UInt32.ofNat k - 1 = 0 := by
        have hT : openTime s.mode = UInt32.ofNat (k + 1) := by
          rw [← hk]
          exact UInt32.ofNat_toNat.symm
        rw [hT, UInt32.ofNat_add, UInt32.add_comm, UInt32.add_sub_cancel]
        rfl
      rw [hk]
      show (timer_handle (ticks k s.startedBy).1).1.started = false
      rw [ticks_running s k (by omega), started_timer_handle]
      exact if_pos hone
  | succ n _ ih =>
      show (timer_handle (ticks n s.startedBy).1).1.started = false
      rw [started_timer_handle, ih, ite_self]

/-! ## §2. The restart. -/

/-- What the display reports after a restart: its window, its countdown label,
and its FREQ2. -/
structure Report where
  window : Contents
  label : Contents
  freq2 : Contents
  deriving DecidableEq, Repr

/-- The window is W02, the label shows `text`, and FREQ2 is `mode`. -/
structure Report.Tells (r : Report) (P : Platform) (text : List UInt8) (mode : UInt8) : Prop where
  window : r.window.IsFor .W02
  label : r.label.IsFor .label_timer_count_down
  shows : r.label.text = some text
  freq2 : r.freq2.IsFor .FREQ2
  mode : P.floatToU8 r.freq2.float_value = mode

/-- `stone_cmd` handles the report, from the initial globals. -/
def resume (P : Platform) (r : Report) : Except Fault Ctl := do
  let (s, _) ← stone_cmd P r.window Ctl.init
  let (s, _) ← stone_cmd P r.label s
  let (s, _) ← stone_cmd P r.freq2 s
  pure s

/-- A handled item runs its branch. -/
theorem stone_cmd_isFor {P : Platform} {c : Contents} {hd : Handler} (hc : c.IsFor hd) (s : Ctl) :
    stone_cmd P c s = hd.run P c.float_value c.text s := by
  unfold Contents.IsFor at hc
  rw [Option.bind_eq_some_iff] at hc
  obtain ⟨w, hw, hh⟩ := hc
  unfold stone_cmd
  simp only [hw, hh]

/-- The countdown the report shows, as `stone_cmd` takes it. -/
def recordFrom (text : List UInt8) : UInt32 :=
  match scanMinutesSecond text with
  | none => Ctl.init.record
  | some (minutes, second) => labelSeconds minutes second

theorem recordFrom_of_label {text : List UInt8} {r : UInt32} (h : labelRecord text = some r) :
    recordFrom text = r := by
  unfold labelRecord at h
  unfold recordFrom
  cases hscan : scanMinutesSecond text with
  | none =>
      rw [hscan] at h
      cases h
  | some ms =>
      rw [hscan] at h
      exact Option.some.inj h

/-- **What a report restores**: the times and the timer, over initial globals. -/
theorem resume_eq {P : Platform} {r : Report} {text : List UInt8} {m : UInt8}
    (h : r.Tells P text m) :
    resume P r = .ok { Ctl.init with
      record := recordFrom text, run_time := openTime m - recordFrom text,
      mode_to_time := (openTime m).toUInt16, started := true } := by
  unfold resume
  rw [stone_cmd_isFor h.window]
  show (stone_cmd P r.label Ctl.init >>= _) = _
  rw [stone_cmd_isFor h.label, h.shows]
  simp only [Handler.run, textOf, ok_bind]
  unfold recordFrom
  cases scanMinutesSecond text with
  | none =>
      show (stone_cmd P r.freq2 Ctl.init >>= _) = _
      rw [stone_cmd_isFor h.freq2, ← h.mode]
      rfl
  | some ms =>
      show (stone_cmd P r.freq2 { Ctl.init with record := labelSeconds ms.1 ms.2 } >>= _) = _
      rw [stone_cmd_isFor h.freq2, ← h.mode]
      rfl

/-- **NO SESSION IS RESTORED.**  A session that P01 starts in a mode from 1 to 5,
any number of ticks, a restart, and the report of W02, of the session's last
countdown text and of its mode: `stone_cmd` never arrives at the state before
the restart.  While the session was running, it arrives at that state with
mode 1 and the relays off; after its end, it starts the stopped timer again. -/
theorem resume_ne {P : Platform} {s t : Ctl} {p01 : Contents} {calls : List Effect} {n : ℕ}
    {text : List UInt8} {r : Report} (hp01 : p01.IsFor .P01)
    (ht : stone_cmd P p01 s = .ok (t, calls)) (htext : lastCountdown (ticks n t).2 = some text)
    (hr : r.Tells P text s.mode) :
    resume P r ≠ .ok (ticks n t).1 ∧
      (n < (openTime s.mode).toNat →
        resume P r = .ok { (ticks n t).1.setRelays false with mode := 1 }) ∧
      ((openTime s.mode).toNat ≤ n →
        (ticks n t).1.started = false ∧ ∃ u, resume P r = .ok u ∧ u.started = true) := by
  have hsession : t = s.startedBy := by
    obtain ⟨calls', hP01⟩ := stone_cmd_P01 (P := P) hp01 s
    rw [hP01] at ht
    cases ht
    rfl
  subst hsession
  have hb := openTime_bounds s.mode
  -- the text was sent by the last tick, so there was one
  obtain ⟨k, rfl⟩ : ∃ k, n = k + 1 := by
    cases n with
    | zero => cases htext
    | succ k => exact ⟨k, rfl⟩
  rw [lastCountdown_ticks] at htext
  cases htext
  rw [resume_eq hr]
  have hrun : k + 1 < (openTime s.mode).toNat →
      (ticks (k + 1) s.startedBy).1 = { s.startedBy with
        record := openTime s.mode - UInt32.ofNat (k + 1), run_time := UInt32.ofNat (k + 1) } :=
    ticks_running s (k + 1)
  refine ⟨fun heq => ?_, fun hlt => ?_, fun hle => ⟨started_ticks s (k + 1) hle, _, rfl, rfl⟩⟩
  · have hu := Except.ok.inj heq
    by_cases hlt : k + 1 < (openTime s.mode).toNat
    · -- the relays were on
      have hrelay := congrArg Ctl.relay_1 hu
      rw [hrun hlt] at hrelay
      cases hrelay
    · -- the timer was stopped
      have hstart := congrArg Ctl.started hu
      rw [started_ticks s (k + 1) (by omega)] at hstart
      cases hstart
  · rw [hrun hlt]
    have hk : (UInt32.ofNat (k + 1)).toNat = k + 1 :=
      UInt32.toNat_ofNat_of_lt' (by show k + 1 < 2 ^ 32; omega)
    have hle : UInt32.ofNat (k + 1) ≤ openTime s.mode := by
      rw [UInt32.le_iff_toNat_le, hk]
      omega
    have hback := (labelRecord_eq_iff (openTime s.mode - UInt32.ofNat (k + 1))).mpr (by
      rw [UInt32.toNat_sub_of_le _ _ hle, hk]
      omega)
    have hrecord : recordFrom (countdownText (openTime s.mode - UInt32.ofNat (k + 1)))
        = openTime s.mode - UInt32.ofNat (k + 1) := recordFrom_of_label hback
    have hrest : openTime s.mode - (openTime s.mode - UInt32.ofNat (k + 1))
        = UInt32.ofNat (k + 1) := by
      rw [UInt32.sub_eq_iff_eq_add, UInt32.add_comm, UInt32.sub_add_cancel]
    simp only [hrecord, hrest]
    rfl

/-- P01 in mode 3, and the report after one tick: `9:59`, and FREQ2 with 3.0. -/
def modeThree : Ctl := { Ctl.init with mode := 3 }

def pressP01 : Contents := { widget := some (str "P01"), float_value := 0, text := none }

def afterOneTick : Report :=
  { window := { widget := some (str "W02"), float_value := 0, text := none }
    label :=
      { widget := some (str "label_timer_count_down"), float_value := 0, text := some (str "9:59") }
    freq2 :=
      { widget := some (str "FREQ2"), float_value := 0x40400000, text := some (str "9:59") } }

theorem afterOneTick_tells : afterOneTick.Tells deafPlatform (str "9:59") 3 :=
  ⟨by decide, by decide, rfl, by decide, by decide⟩

/-- The restart loses the mode and the relays of a session of mode 3. -/
theorem not_resumed_modeThree :
    ¬ ∀ (s t : Ctl) (p01 : Contents) (calls : List Effect) (n : ℕ) (text : List UInt8)
        (r : Report), 1 ≤ s.mode ∧ s.mode ≤ 5 → p01.IsFor .P01 →
        stone_cmd deafPlatform p01 s = .ok (t, calls) →
        lastCountdown (ticks n t).2 = some text → r.Tells deafPlatform text s.mode →
        resume deafPlatform r = .ok (ticks n t).1 := by
  intro h
  have hback := h modeThree modeThree.startedBy pressP01 _ 1 (str "9:59") afterOneTick
    (by decide) (by decide) rfl (by decide) afterOneTick_tells
  rw [resume_eq afterOneTick_tells] at hback
  have hmode := congrArg Ctl.mode (Except.ok.inj hback)
  exact absurd hmode (by decide)

/-- After the one tick, the times are back and the session's mode is not. -/
theorem resume_modeThree :
    resume deafPlatform afterOneTick
        = .ok { (ticks 1 modeThree.startedBy).1.setRelays false with mode := 1 } ∧
      resume deafPlatform afterOneTick ≠ .ok (ticks 1 modeThree.startedBy).1 := by
  have hP01 : pressP01.IsFor .P01 := by decide
  have hne := resume_ne (P := deafPlatform) (s := modeThree) (n := 1) hP01 rfl
    (by decide : _ = some (str "9:59")) afterOneTick_tells
  exact ⟨hne.2.1 (by decide), hne.1⟩

end StoneHMI
