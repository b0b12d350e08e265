/-
  StoneHMI.Controller.Ctl
  ───────────────────────
  **THE CONTROLLER — `stone_cmd` and `timer_handle` of main.c.**

  The controller's globals are `mode`, `record`, `run_time`, `mode_to_time`,
  the four relay outputs and whether the general-purpose timer is started.
  Three steps change them: `stone_cmd` handles an item of the display, the
  started timer raises an alarm, and `timer_handle` handles one alarm.

  A handler returns the globals and the calls it makes, in order, as a list
  of `Effect`s.  Where C leaves the outcome open, or a library outside this
  repository decides it, the answer comes from a `Platform`.
-/
import StoneHMI.Lib.Fifo
import StoneHMI.Receive.Plan
import StoneHMI.History.Log

namespace StoneHMI

open CText CMemory

/-! ## §1. The platform. -/

/-- The fields of `struct tm` that `strptime` sets. -/
structure Tm where
  tm_year : ℤ
  tm_mon : ℤ
  tm_mday : ℤ
  tm_hour : ℤ
  tm_min : ℤ
  tm_sec : ℤ
  deriving DecidableEq, Repr

/-- What the C library and the clock answer, and what a conversion without a
defined result gives. -/
structure Platform where
  /-- `(uint8_t)f` where the truncated float is no `uint8_t`. -/
  castOut : BitVec 32 → UInt8
  /-- `strptime(s, "%Y-%m-%d %H:%M:%S", tm)` -/
  strptime : List UInt8 → Option Tm
  mktime : Tm → ℤ
  /-- `settimeofday(…) == 0` -/
  settimeofday : ℤ → Bool
  /-- `strftime(…, "%Y-%m-%d %H:%M:%S", localtime(&t))` -/
  strftime : ℤ → List UInt8

/-- A platform whose clock accepts nothing. -/
def deafPlatform : Platform :=
  { castOut := fun _ => 0, strptime := fun _ => none, mktime := fun _ => 0,
    settimeofday := fun _ => false, strftime := fun _ => [] }

/-- The `uint8_t` a float truncates to, if its truncation is one: exponents
below 127 give 0, those up to 134 a number below 256. -/
def truncU8 (f : BitVec 32) : Option UInt8 :=
  let sign := f.toNat / 2 ^ 31
  let exponent := f.toNat / 2 ^ 23 % 256
  let mantissa := f.toNat % 2 ^ 23
  if exponent < 127 then some 0
  else if sign = 0 ∧ exponent < 135 then
    some (UInt8.ofNat ((2 ^ 23 + mantissa) / 2 ^ (150 - exponent)))
  else none

/-- `(uint8_t)float_value` -/
def Platform.floatToU8 (P : Platform) (f : BitVec 32) : UInt8 := (truncU8 f).getD (P.castOut f)

/-- The floats 0, 1, 3.75, 255 and -0.5. -/
example : [0#32, 0x3f800000#32, 0x40700000#32, 0x437f0000#32, 0xbf000000#32].map truncU8
    = [some 0, some 1, some 3, some 255, some 0] := by decide

/-! ## §2. Globals and effects. -/

/-- The globals of main.c, and the levels and the timer they go with. -/
structure Ctl where
  mode : UInt8
  record : UInt32
  run_time : UInt32
  mode_to_time : UInt16
  relay_1 : Bool
  relay_2 : Bool
  relay_3 : Bool
  relay_4 : Bool
  started : Bool
  deriving DecidableEq, Repr

/-- After `app_main`'s initialisation: relays off, timer enabled but not started. -/
def Ctl.init : Ctl :=
  { mode := 1, record := OPEN_TIME_1 * 60, run_time := 0, mode_to_time := 0,
    relay_1 := false, relay_2 := false, relay_3 := false, relay_4 := false, started := false }

/-- `gpio_set_level` of all four relays. -/
def Ctl.setRelays (on : Bool) (s : Ctl) : Ctl :=
  { s with relay_1 := on, relay_2 := on, relay_3 := on, relay_4 := on }

/-- `gptimer_start`: starting a started timer changes nothing. -/
def Ctl.gptimer_start (s : Ctl) : Ctl := { s with started := true }

/-- `gptimer_stop` -/
def Ctl.gptimer_stop (s : Ctl) : Ctl := { s with started := false }

/-- A call that leaves the controller. -/
inductive Effect where
  | send (c : Command)
  | save_history (mode : UInt8) (time : UInt16)
  | push_history
  | settimeofday (t : ℤ)
  deriving DecidableEq, Repr

/-! ## §3. `stone_cmd`. -/

/-- `set_time_epoch_string(s)`: its calls, and whether it returns `ESP_OK`. -/
def set_time_epoch_string (P : Platform) (s : List UInt8) : List Effect × Bool :=
  match P.strptime s with
  | none => ([], false)
  | some tm =>
      let t := P.mktime tm
      if P.settimeofday t then
        ([.settimeofday t, .send (.set_date (str "digit_clock1") (P.strftime t))], true)
      else ([.settimeofday t], false)

/-- `sscanf(s, "%hhu:%hhu", &minutes, &second) == 2`, and the two bytes. -/
def scanMinutesSecond (s : List UInt8) : Option (UInt8 × UInt8) :=
  match scanU8 s with
  | none => none
  | some (minutes, r) =>
      match r with
      | [] => none
      | c :: r => if c = 0x3a then (scanU8 r).map fun second => (minutes, second.1) else none

/-- `(minutes * 60) + second` -/
def labelSeconds (minutes second : UInt8) : UInt32 :=
  UInt32.ofNat (minutes.toNat * 60 + second.toNat)

/-- The branches of `stone_cmd`. -/
inductive Handler where
  | FREQ1 | P01 | P02 | history | user_time_edit | digit_clock1 | W01 | W02
  | label_timer_count_down | FREQ2
  deriving DecidableEq, Repr

/-- The chain of `strcmp`s on the widget's name. -/
def handlerOf (w : List UInt8) : Option Handler :=
  if w = str "FREQ1" then some .FREQ1
  else if w = str "P01" then some .P01
  else if w = str "P02" then some .P02
  else if w = str "B42" ∨ w = str "B01" then some .history
  else if w = str "user_time_edit" then some .user_time_edit
  else if w = str "digit_clock1" then some .digit_clock1
  else if w = str "W01" then some .W01
  else if w = str "W02" then some .W02
  else if w = str "label_timer_count_down" then some .label_timer_count_down
  else if w = str "FREQ2" then some .FREQ2
  else none

/-- `STONER_recv->text` as a C string. -/
def textOf (text : Option (List UInt8)) : Except Fault (List UInt8) :=
  match text with
  | some t => .ok t
  | none => .error .nullPointer

/-- What each branch does.  (The three bytes that P01 prints `mode` into are
taken to be enough.) -/
def Handler.run (P : Platform) (float_value : BitVec 32) (text : Option (List UInt8)) (s : Ctl) :
    Handler → Except Fault (Ctl × List Effect)
  | .FREQ1 => pure ({ s with mode := P.floatToU8 float_value }, [])
  | .P01 =>
      -- the five branches on `mode` are `openTime`
      let s := s.setRelays true
      let s := { s with record := openTime s.mode, mode_to_time := (openTime s.mode).toUInt16 }
      let s := { s with run_time := 0 }
      pure (s.gptimer_start,
        [.send (.set_text (str "label") (str "FREQ2") (decimal s.mode.toNat) false)])
  | .P02 =>
      pure ((s.setRelays false).gptimer_stop, [.save_history s.mode s.run_time.toUInt16])
  | .history => pure (s, [.push_history])
  | .user_time_edit => do
      let t ← textOf text
      let (calls, ok) := set_time_epoch_string P t
      let answer := if ok then str "Set time success" else str "Set time fail, check format"
      pure (s, calls ++ [.send (.set_text (str "label") (str "label_time_validation") answer false)])
  | .digit_clock1 => do
      let t ← textOf text
      pure (s, (set_time_epoch_string P t).1)
  | .W01 => pure (s, [.send (.get_value (str "label") (str "FREQ1"))])
  | .W02 => pure (s, [.send (.get_text (str "label") (str "label_timer_count_down"))])
  | .label_timer_count_down => do
      let t ← textOf text
      match scanMinutesSecond t with
      | none => pure (s, [])
      | some (minutes, second) =>
          -- stored as it is, whatever the relays are doing
          pure ({ s with record := labelSeconds minutes second },
            [.send (.get_value (str "label") (str "FREQ2"))])
  | .FREQ2 =>
      let m := P.floatToU8 float_value
      let s := { s with
        run_time := openTime m - s.record, mode_to_time := (openTime m).toUInt16 }
      pure (s.gptimer_start, [])

/-- One item of `stone_cmd`: dispatch on the widget's name alone. -/
def stone_cmd (P : Platform) (c : Contents) (s : Ctl) : Except Fault (Ctl × List Effect) :=
  match c.widget with
  | none => .error .nullPointer
  | some w =>
      match handlerOf w with
      | none => pure (s, [])
      | some h => h.run P c.float_value c.text s

/-! ## §4. `timer_handle`. -/

/-- `"%lu:%02lu"` of `record/60` and `record%60` -/
def countdownText (record : UInt32) : List UInt8 :=
  let minutes := decimal (record / 60).toNat
  let second := decimal (record % 60).toNat
  minutes ++ 0x3a :: (if second.length < 2 then 0x30 :: second else second)

/-- One element of `Timer_queue`. -/
def timer_handle (s : Ctl) : Ctl × List Effect :=
  -- both are `uint32_t`: 0 wraps to the top
  let s := { s with record := s.record - 1, run_time := s.run_time + 1 }
  let label : Effect :=
    .send (.set_text (str "label") (str "label_timer_count_down") (countdownText s.record) false)
  if s.record = 0 then
    ((s.setRelays false).gptimer_stop,
      [.save_history s.mode s.mode_to_time, .send .back_win, label])
  else (s, [label])

/-! ## §5. Steps. -/

/-- The controller, the alarms that wait in `Timer_queue`, and the calls made
so far. -/
structure Sys where
  ctl : Ctl
  timer_queue : Fifo Unit 10
  effects : List Effect
  deriving DecidableEq, Repr

def Sys.init : Sys := { ctl := Ctl.init, timer_queue := Fifo.empty, effects := [] }

/-- A step of the controller. -/
inductive Ev where
  /-- `stone_cmd` handles an item that shows the contents `c`. -/
  | item (c : Contents)
  /-- The started timer reaches its alarm. -/
  | alarm
  /-- `timer_handle` handles one element of `Timer_queue`. -/
  | tick
  deriving DecidableEq, Repr

def Sys.step (P : Platform) (s : Sys) : Ev → Option Sys
  | .item c =>
      match stone_cmd P c s.ctl with
      | .ok (ctl, calls) => some { s with ctl := ctl, effects := s.effects ++ calls }
      | .error _ => none  -- the task crashes, and the run ends
  | .alarm => if s.ctl.started then some { s with timer_queue := s.timer_queue.send () } else none
  | .tick =>
      match s.timer_queue.receive with
      | none => none
      | some (_, q) =>
          some
            { ctl := (timer_handle s.ctl).1
              timer_queue := q
              effects := s.effects ++ (timer_handle s.ctl).2 }

/-- What a step can do. -/
theorem Sys.step_cases {P : Platform} {s t : Sys} {e : Ev} (h : s.step P e = some t) :
    (∃ c ctl calls, e = .item c ∧ stone_cmd P c s.ctl = .ok (ctl, calls) ∧
      t = { s with ctl := ctl, effects := s.effects ++ calls }) ∨
    (e = .alarm ∧ s.ctl.started = true ∧
      t = { s with timer_queue := s.timer_queue.send () }) ∨
    (∃ q, e = .tick ∧ s.timer_queue.receive = some ((), q) ∧
      t = { ctl := (timer_handle s.ctl).1, timer_queue := q,
            effects := s.effects ++ (timer_handle s.ctl).2 }) := by
  cases e with
  | item c =>
      simp only [Sys.step] at h
      cases hc : stone_cmd P c s.ctl with
      | error f =>
          rw [hc] at h
          cases h
      | ok r =>
          rw [hc] at h
          exact Or.inl ⟨c, r.1, r.2, rfl, hc, (Option.some.inj h).symm⟩
  | alarm =>
      simp only [Sys.step] at h
      split at h
      · rename_i hs
        exact Or.inr (Or.inl ⟨rfl, hs, (Option.some.inj h).symm⟩)
      · cases h
  | tick =>
      simp only [Sys.step] at h
      cases hq : s.timer_queue.receive with
      | none =>
          rw [hq] at h
          cases h
      | some r =>
          rw [hq] at h
          exact Or.inr (Or.inr ⟨r.2, rfl, rfl, (Option.some.inj h).symm⟩)

/-- An item that is handled names a widget, and its branch is run. -/
theorem stone_cmd_cases {P : Platform} {c : Contents} {s t : Ctl} {calls : List Effect}
    (h : stone_cmd P c s = .ok (t, calls)) :
    ∃ w, c.widget = some w ∧
      ((handlerOf w = none ∧ t = s ∧ calls = []) ∨
        ∃ hd, handlerOf w = some hd ∧ hd.run P c.float_value c.text s = .ok (t, calls)) := by
  unfold stone_cmd at h
  cases hw : c.widget with
  | none =>
      rw [hw] at h
      cases h
  | some w =>
      rw [hw] at h
      refine ⟨w, rfl, ?_⟩
      cases hh : handlerOf w with
      | none =>
          simp only [hh] at h
          cases h
          exact Or.inl ⟨rfl, rfl, rfl⟩
      | some hd =>
          simp only [hh] at h
          exact Or.inr ⟨hd, rfl, h⟩

theorem set_time_none {P : Platform} {s : List UInt8} (h : P.strptime s = none) :
    set_time_epoch_string P s = ([], false) := by
  unfold set_time_epoch_string
  rw [h]

theorem set_time_some {P : Platform} {s : List UInt8} {tm : Tm} (h : P.strptime s = some tm) :
    set_time_epoch_string P s = if P.settimeofday (P.mktime tm) then
      ([.settimeofday (P.mktime tm),
        .send (.set_date (str "digit_clock1") (P.strftime (P.mktime tm)))], true)
    else ([.settimeofday (P.mktime tm)], false) := by
  unfold set_time_epoch_string
  rw [h]

/-- No row of the history is among the calls. -/
def NoRow (calls : List Effect) : Prop := ∀ mode time, Effect.save_history mode time ∉ calls

/-- Setting the clock calls `settimeofday` and `set_date` at most. -/
theorem noRow_set_time (P : Platform) (x : List UInt8) : NoRow (set_time_epoch_string P x).1 := by
  intro mode time
  cases h : P.strptime x with
  | none =>
      rw [set_time_none h]
      simp
  | some tm =>
      rw [set_time_some h]
      split <;> simp

/-- **What a branch can do.**  Four set globals of their own, the countdown
stores one that it accepts, and everything else leaves the controller alone. -/
theorem Handler.run_cases {P : Platform} {f : BitVec 32} {text : Option (List UInt8)} {s t : Ctl}
    {calls : List Effect} {hd : Handler} (h : hd.run P f text s = .ok (t, calls)) :
    (hd = .FREQ1 ∧ t = { s with mode := P.floatToU8 f } ∧ NoRow calls) ∨
    (hd = .P01 ∧ t = { s.setRelays true with
        record := openTime s.mode, mode_to_time := (openTime s.mode).toUInt16, run_time := 0,
        started := true } ∧ NoRow calls) ∨
    (hd = .P02 ∧ t = (s.setRelays false).gptimer_stop ∧
      calls = [.save_history s.mode s.run_time.toUInt16]) ∨
    (hd = .FREQ2 ∧ t = { s with
        run_time := openTime (P.floatToU8 f) - s.record,
        mode_to_time := (openTime (P.floatToU8 f)).toUInt16, started := true } ∧ NoRow calls) ∨
    (∃ ms, hd = .label_timer_count_down ∧ text.bind scanMinutesSecond = some ms ∧
      t = { s with record := labelSeconds ms.1 ms.2 } ∧ NoRow calls) ∨
    ((hd = .label_timer_count_down → text.bind scanMinutesSecond = none) ∧ hd ≠ .P02 ∧
      t = s ∧ NoRow calls) := by
  cases hd with
  | FREQ1 =>
      cases h
      exact Or.inl ⟨rfl, rfl, by simp [NoRow]⟩
  | P01 =>
      cases h
      exact Or.inr (Or.inl ⟨rfl, rfl, by simp [NoRow]⟩)
  | P02 =>
      cases h
      exact Or.inr (Or.inr (Or.inl ⟨rfl, rfl, rfl⟩))
  | FREQ2 =>
      cases h
      exact Or.inr (Or.inr (Or.inr (Or.inl ⟨rfl, rfl, by simp [NoRow]⟩)))
  | label_timer_count_down =>
      refine Or.inr (Or.inr (Or.inr (Or.inr ?_)))
      cases text with
      | none => cases h
      | some x =>
          cases hx : scanMinutesSecond x with
          | none =>
              simp only [Handler.run, textOf, ok_bind, hx] at h
              cases h
              exact Or.inr ⟨fun _ => hx, by simp, rfl, by simp [NoRow]⟩
          | some ms =>
              obtain ⟨minutes, second⟩ := ms
              simp only [Handler.run, textOf, ok_bind, hx] at h
              cases h
              exact Or.inl ⟨(minutes, second), rfl, hx, rfl, by simp [NoRow]⟩
  | user_time_edit =>
      refine Or.inr (Or.inr (Or.inr (Or.inr (Or.inr ⟨by simp, by simp, ?_⟩))))
      cases text with
      | none => cases h
      | some x =>
          cases h
          refine ⟨rfl, fun mode time hmem => ?_⟩
          rcases List.mem_append.mp hmem with hclock | hanswer
          · exact noRow_set_time P x mode time hclock
          · simp at hanswer
  | digit_clock1 =>
      refine Or.inr (Or.inr (Or.inr (Or.inr (Or.inr ⟨by simp, by simp, ?_⟩))))
      cases text with
      | none => cases h
      | some x =>
          cases h
          exact ⟨rfl, noRow_set_time P x⟩
  | history | W01 | W02 =>
      cases h
      exact Or.inr (Or.inr (Or.inr (Or.inr (Or.inr ⟨by simp, by simp, rfl, by simp [NoRow]⟩))))

/-- A tick starts no timer, and stops it when `record` comes to 0. -/
theorem started_timer_handle (s : Ctl) :
    (timer_handle s).1.started = if s.record - 1 = 0 then false else s.started := by
  unfold timer_handle
  by_cases h0 : s.record - 1 = 0
  · simp only [h0, if_true]
    rfl
  · simp only [if_neg h0]

theorem toNat_sub_one {r : UInt32} (h : 1 ≤ r.toNat) : (r - 1).toNat = r.toNat - 1 :=
  UInt32.toNat_sub_of_le r 1 (UInt32.le_iff_toNat_le.mpr h)

end StoneHMI
