/-
  StoneHMI.System.Firmware
  ────────────────────────
  **THE FIRMWARE — its tasks, the calls they make, and the buffer they share.**

  `stone_cmd` acts on an item, `timer_handle` on a tick, `pressure_read` on a
  round of the sensor, and `app_main` asks twice after a reset.  The calls that
  this leads to are made one by one (`todo`).  A call that sends a command is two
  steps: its frame is printed into `STONE_TX_BUF`, and `uart_write_bytes` takes
  it from there.  Any steps of the other tasks may come in between.

    §1  the calls of a task      §3  its steps
    §2  the firmware             §4  what a step can do
-/
import StoneHMI.Controller.Ctl
import StoneHMI.History.Columns
import StoneHMI.Sensor.Average
import StoneHMI.Transport.Stream
import StoneHMI.Transport.TxBuffer

namespace StoneHMI

open CText CMemory

/-! ## §1. The calls of a task. -/

/-- The commands among some calls. -/
def commandsOf (es : List Effect) : List Command :=
  es.filterMap fun
    | .send c => some c
    | _ => none

theorem commandsOf_append (es fs : List Effect) :
    commandsOf (es ++ fs) = commandsOf es ++ commandsOf fs := List.filterMap_append

@[simp] theorem commandsOf_sends (cs : List Command) : commandsOf (cs.map .send) = cs := by
  unfold commandsOf
  rw [List.filterMap_map]
  exact List.filterMap_some

theorem mem_commandsOf {es : List Effect} {c : Command} : c ∈ commandsOf es ↔ .send c ∈ es := by
  unfold commandsOf
  rw [List.mem_filterMap]
  constructor
  · rintro ⟨e, he, hc⟩
    cases e with
    | send d => exact Option.some.inj hc ▸ he
    | save_history | push_history | settimeofday => cases hc
  · exact fun hc => ⟨_, hc, rfl⟩

/-- `check_status_afer_seset()`: the commands of `app_main`. -/
def check_status_afer_seset : List Command := [.get_date (str "digit_clock1"), .get_displayed_window]

/-- Outcomes of the sensor's shots, with enough successes for a round of `pressure_read`. -/
structure SensorRound where
  shots : List Reading
  returned : ∀ r ∈ shots, Shot.Returns r
  enough : 100 ≤ (successes shots).length

namespace SensorRound

/-- The locals that the `for` stops with. -/
def final (r : SensorRound) : Option Round := (Round.start.loop toFloat r.shots).map Prod.fst

/-- The commands of the round. -/
def labels (r : SensorRound) : List Command := (r.final.bind fun s => s.average.report).getD []

/-- `sprintf(pressure_value, "%d", percentage)` -/
def text (r : SensorRound) : List UInt8 :=
  ((r.final.bind fun s => s.average.percentage).map decimalInt).getD []

end SensorRound

/-- The task that acts on an event; an alarm is no task's. -/
def Ev.task : Ev → Option Task
  | .item _ => some .stone_cmd
  | .alarm => none
  | .tick => some .timer_handle

/-! ## §2. The firmware. -/

/-- `STONE_TX_BUF[0..TX_CNT)` -/
def TxBuf.current (t : TxBuf) : List UInt8 := t.STONE_TX_BUF.take t.TX_CNT

/-- The controller, `/spiffs/log.txt`, the array of `pressure_read` and whether it is in a round,
the calls that each task still has to make, the command whose frame it has printed and not handed
over, and the transmit globals.  For the record, since the first boot: whether a frame was printed
past the end of the buffer, the bytes handed to `uart_write_bytes` and the commands they were meant
as, all commands called, the calls of `save_history`, the log and the stack that each upload met,
the array that each `memset` met, and the rounds. -/
structure Firmware where
  sys : Sys
  file : List UInt8
  pressure_value : List UInt8
  reading : Bool
  todo : Task → List Effect
  printed : Task → Option Command
  tx : TxBuf
  faulted : Bool
  bytes : List UInt8
  handed : List Command
  called : List Command
  saved : List SaveCall
  uploads : List (List SaveCall × Fields)
  cleared : List (List UInt8)
  rounds : List SensorRound

namespace Firmware

/-- Only `app_main` has something to do. -/
def todoAtReset : Task → List Effect
  | .app_main => check_status_afer_seset.map .send
  | .stone_cmd | .timer_handle | .pressure_read => []

/-- The first boot: `init_SPIFFS` creates the log, and the array holds anything. -/
def init (pressure_value : List UInt8) : Firmware :=
  { sys := Sys.init, file := [], pressure_value := pressure_value, reading := false,
    todo := todoAtReset, printed := fun _ => none, tx := TxBuf.zero, faulted := false, bytes := [],
    handed := [], called := check_status_afer_seset, saved := [], uploads := [], cleared := [],
    rounds := [] }

/-- A later one finds the log as it is. -/
def reset (pressure_value : List UInt8) (f : Firmware) : Firmware :=
  { f with
    sys := Sys.init
    pressure_value := pressure_value
    reading := false
    todo := todoAtReset
    printed := fun _ => none
    tx := TxBuf.zero
    called := f.called ++ check_status_afer_seset }

/-- The task waits for something to act on. -/
def idle (t : Task) (f : Firmware) : Bool := (f.todo t).isEmpty && (f.printed t).isNone

/-- `memset(pressure_value, 0, strlen(pressure_value))` -/
def clear (f : Firmware) : Firmware :=
  { f with
    pressure_value :=
      Block.overwritten (List.replicate (cstr f.pressure_value).length 0) f.pressure_value
    reading := true
    cleared := f.cleared ++ [f.pressure_value] }

/-- The hundred readings are there, and their percentage is printed into `pressure_value`. -/
def measure (r : SensorRound) (f : Firmware) : Firmware :=
  { f with
    pressure_value := Block.overwritten (r.text ++ [0]) f.pressure_value
    reading := false
    rounds := f.rounds ++ [r] }

/-- The task has these calls to make, before those that it had. -/
def assign (t : Task) (es : List Effect) (f : Firmware) : Firmware :=
  { f with
    todo := Function.update f.todo t (es ++ f.todo t)
    called := f.called ++ commandsOf es }

/-- A command function, up to `tx_create`. -/
def print (t : Task) (c : Command) (f : Firmware) : Firmware :=
  match c.frame with
  | none => f  -- `input error!`
  | some w =>
      match f.tx.start w with
      | .ok tx => { f with tx := tx, printed := Function.update f.printed t (some c) }
      -- past the end of `STONE_TX_BUF`
      | .error _ => { f with faulted := true }

/-- A call of the task, at the time `now`; an upload finds `stack` in its buffers. -/
def perform (t : Task) (now : Stamp) (stack : Fields) (f : Firmware) : Effect → Firmware
  | .send c => f.print t c
  | .save_history mode time =>
      { f with
        file := StoneHMI.save_history none f.file now mode time
        saved := f.saved ++ [⟨now, mode, time⟩] }
  | .push_history =>
      -- its five `set_text` are calls of their own
      { f.assign t ((StoneHMI.push_history (some f.file) stack).map .send) with
        uploads := f.uploads ++ [(f.saved, stack)] }
  | .settimeofday _ => f

/-! ## §3. Its steps. -/

end Firmware

/-- A step of the firmware. -/
inductive Work where
  /-- An item, an alarm or a tick; a task that acts on it must wait for it. -/
  | control (e : Ev)
  /-- `pressure_read` begins a round. -/
  | clear
  /-- It ends it. -/
  | measure (r : SensorRound)
  /-- A task makes its next call. -/
  | call (t : Task) (now : Stamp) (stack : Fields)
  /-- `uart_write_bytes` has taken the last byte of what the task sends. -/
  | handOver (t : Task)
  /-- By power, by the reset pin, or because a task has crashed. -/
  | reset (pressure_value : List UInt8)

namespace Firmware

def step (P : Platform) (f : Firmware) : Work → Option Firmware
  | .control e =>
      -- a task is back at its queue only when it has made all its calls
      if e.task.all fun t => f.idle t then
        (Sys.step P { f.sys with effects := [] } e).map fun s =>
          match e.task with
          | none => { f with sys := s }
          | some t => { f with sys := s }.assign t s.effects
      else none
  | .clear => if f.idle .pressure_read && !f.reading then some f.clear else none
  | .measure r =>
      if f.reading then some ((f.measure r).assign .pressure_read (r.labels.map .send)) else none
  | .call t now stack =>
      match f.printed t, f.todo t with
      | none, e :: rest =>
          some ({ f with todo := Function.update f.todo t rest }.perform t now stack e)
      | _, _ => none
  | .handOver t =>
      (f.printed t).map fun c =>
        -- whatever stands there by now, and whoever has printed it
        { f with
          printed := Function.update f.printed t none
          bytes := f.bytes ++ f.tx.current
          handed := f.handed ++ [c] }
  | .reset pressure_value => some (f.reset pressure_value)

/-! ## §4. What a step can do. -/

/-- A step changes what one task has printed. -/
theorem of_printed_update {f : Firmware} {t u : Task} {x : Option Command} {d : Command}
    (h : Function.update f.printed t x u = some d) : x = some d ∨ f.printed u = some d := by
  rw [Function.update_apply] at h
  split at h
  · exact Or.inl h
  · exact Or.inr h

/-- Or what it has to do. -/
theorem of_todo_update {f : Firmware} {t u : Task} {es : List Effect} {e : Effect}
    (h : e ∈ Function.update f.todo t es u) : e ∈ es ∨ e ∈ f.todo u := by
  rw [Function.update_apply] at h
  split at h
  · exact Or.inl h
  · exact Or.inr h

theorem step_cases {P : Platform} {f g : Firmware} {l : Work} (h : f.step P l = some g) :
    (∃ c t calls s, l = .control (.item c) ∧ stone_cmd P c f.sys.ctl = .ok (t, calls) ∧
      g = { f with sys := s }.assign .stone_cmd calls) ∨
    (∃ s, l = .control .alarm ∧ g = { f with sys := s }) ∨
    (∃ s, l = .control .tick ∧
      g = { f with sys := s }.assign .timer_handle (timer_handle f.sys.ctl).2) ∨
    (l = .clear ∧ g = f.clear) ∨
    (∃ r, l = .measure r ∧ g = (f.measure r).assign .pressure_read (r.labels.map .send)) ∨
    (∃ t now stack e rest, l = .call t now stack ∧ f.printed t = none ∧ f.todo t = e :: rest ∧
      g = { f with todo := Function.update f.todo t rest }.perform t now stack e) ∨
    (∃ t c, l = .handOver t ∧ f.printed t = some c ∧
      g = { f with
        printed := Function.update f.printed t none
        bytes := f.bytes ++ f.tx.current
        handed := f.handed ++ [c] }) ∨
    (∃ pressure_value, l = .reset pressure_value ∧ g = f.reset pressure_value) := by
  cases l with
  | control e =>
      unfold step at h
      rw [Option.ite_none_right_eq_some, Option.map_eq_some_iff] at h
      obtain ⟨-, s, hs, hg⟩ := h
      obtain ⟨c, t, calls, rfl, hcmd, rfl⟩ | ⟨rfl, -, rfl⟩ | ⟨q, rfl, -, rfl⟩ := Sys.step_cases hs
      · exact Or.inl ⟨c, t, calls, _, rfl, hcmd, hg.symm⟩
      · exact Or.inr (Or.inl ⟨_, rfl, hg.symm⟩)
      · exact Or.inr (Or.inr (Or.inl ⟨_, rfl, hg.symm⟩))
  | clear =>
      unfold step at h
      rw [Option.ite_none_right_eq_some] at h
      exact Or.inr (Or.inr (Or.inr (Or.inl ⟨rfl, (Option.some.inj h.2).symm⟩)))
  | measure r =>
      unfold step at h
      rw [Option.ite_none_right_eq_some] at h
      exact Or.inr (Or.inr (Or.inr (Or.inr (Or.inl ⟨r, rfl, (Option.some.inj h.2).symm⟩))))
  | call t now stack =>
      simp only [step] at h
      cases hp : f.printed t with
      | some c =>
          rw [hp] at h
          cases h
      | none =>
          cases hd : f.todo t with
          | nil =>
              rw [hp, hd] at h
              cases h
          | cons e rest =>
              rw [hp, hd] at h
              exact Or.inr (Or.inr (Or.inr (Or.inr (Or.inr (Or.inl
                ⟨t, now, stack, e, rest, rfl, hp, hd, (Option.some.inj h).symm⟩)))))
  | handOver t =>
      obtain ⟨c, hc, rfl⟩ := Option.map_eq_some_iff.mp h
      exact Or.inr (Or.inr (Or.inr (Or.inr (Or.inr (Or.inr (Or.inl ⟨t, c, rfl, hc, rfl⟩))))))
  | reset pressure_value =>
      exact Or.inr (Or.inr (Or.inr (Or.inr (Or.inr (Or.inr (Or.inr
        ⟨pressure_value, rfl, (Option.some.inj h).symm⟩))))))

end Firmware

end StoneHMI
