/-
  StoneHMI.Clock.Settings
  ───────────────────────
  **WHAT THE DRIVER'S CALLS MEAN.**

  The purpose of the driver, without registers: the chip has `Settings`, and a
  call changes or tells one of them.  Time, temperature and the status flags
  are not among them, for the chip changes these by itself.

  The driver changes one setting by reading a register and writing it back.
  `driver_settings` says that no change is lost by that, however the calls of
  several tasks interleave — and what a failed call leaves behind.
-/
import StoneHMI.Clock.Locking

namespace StoneHMI.Clock

open Mutex Registers Labelled

/-! ## §1. The settings. -/

/-- The control register. -/
@[ext] structure Control where
  stopped : Bool
  battery : Bool
  freq : SqwaveFreq
  /-- The pin is for the alarms, and not for the square wave. -/
  interrupts : Bool
  alarm2 : Bool
  alarm1 : Bool
  deriving DecidableEq

structure Settings where
  /-- The three and four bytes of the alarms. -/
  alarms : List UInt8
  control : Control
  khz32 : Bool
  aging : UInt8
  deriving DecidableEq

def bit (d : UInt8) (i : ℕ) : Bool := d.toBitVec.getLsbD i

def freqOf : Bool → Bool → SqwaveFreq
  | false, false => .DS3231_SQWAVE_1HZ
  | false, true => .DS3231_SQWAVE_1024HZ
  | true, false => .DS3231_SQWAVE_4096HZ
  | true, true => .DS3231_SQWAVE_8192HZ

def controlOf (d : UInt8) : Control where
  stopped := bit d 7
  battery := bit d 6
  freq := freqOf (bit d 4) (bit d 3)
  interrupts := bit d 2
  alarm2 := bit d 1
  alarm1 := bit d 0

def settingsOf (regs : ℕ → UInt8) : Settings where
  alarms := load regs DS3231_ADDR_ALARM1 7
  control := controlOf (regs DS3231_ADDR_CONTROL)
  khz32 := bit (regs DS3231_ADDR_STATUS) 3
  aging := regs DS3231_ADDR_AGING

/-! ## §2. What a call changes, and what it tells. -/

def Alarm.first : Alarm → Bool
  | .DS3231_ALARM_1 | .DS3231_ALARM_BOTH => true
  | _ => false

def Alarm.second : Alarm → Bool
  | .DS3231_ALARM_2 | .DS3231_ALARM_BOTH => true
  | _ => false

/-- The bytes of an alarm, and where they start among those of both. -/
def alarmBytes (alarms : Alarm) (time1 : Option StructTm) (option1 : Alarm1Rate)
    (time2 : Option StructTm) (option2 : Alarm2Rate) : Option (ℕ × List UInt8) :=
  match alarms, time1, time2 with
  | .DS3231_ALARM_1, some time1, _ => some (0, alarm1Data time1 option1)
  | .DS3231_ALARM_2, _, some time2 => some (4, alarm2Data time2 option2)
  | .DS3231_ALARM_NONE, some time1, some time2
  | .DS3231_ALARM_BOTH, some time1, some time2 =>
      some (0, alarm1Data time1 option1 ++ alarm2Data time2 option2)
  | _, _, _ => none

/-- What was written of some bytes: all, or the first of them. -/
def written (part : Option ℕ) (data : List UInt8) : List UInt8 :=
  match part with
  | none => data
  | some stored => data.take stored

/-- A single byte is written, or it is not. -/
def changed (part : Option ℕ) (s s' : Settings) : Settings := if part = some 0 then s else s'

/-- The settings after a call, of whose bytes the `part` was written. -/
def DriverCall.effect (part : Option ℕ) (s : Settings) : DriverCall → Settings
  | .set_alarm alarms time1 option1 time2 option2 =>
      match alarmBytes alarms time1 option1 time2 option2 with
      | none => s
      | some (offset, data) =>
          { s with alarms := splice s.alarms offset (written part data) }
  | .enable_alarm_ints alarms =>
      changed part s { s with control := { s.control with
        interrupts := true
        alarm1 := s.control.alarm1 || alarms.first
        alarm2 := s.control.alarm2 || alarms.second } }
  | .disable_alarm_ints alarms =>
      changed part s { s with control := { s.control with
        alarm1 := s.control.alarm1 && !alarms.first
        alarm2 := s.control.alarm2 && !alarms.second } }
  | .enable_squarewave =>
      changed part s { s with control := { s.control with interrupts := false } }
  | .disable_squarewave =>
      changed part s { s with control := { s.control with interrupts := true } }
  | .set_squarewave_freq freq =>
      changed part s { s with control := { s.control with freq := freq } }
  | .enable_32khz => changed part s { s with khz32 := true }
  | .disable_32khz => changed part s { s with khz32 := false }
  | .set_aging_offset age_u8 => changed part s { s with aging := age_u8 }
  | _ => s

/-- What a call tells about the settings. -/
def DriverCall.Tells (s : Settings) : DriverCall → Answer → Prop
  | .get_squarewave_freq, a => a = .byte s.control.freq.code
  | .get_aging_offset, a => a = .byte s.aging
  | _, _ => True

/-! ## §3. Bytes. -/

theorem and_ff : ∀ d : UInt8, d &&& 0xff = d := forall_byte (by decide +kernel)

/-- The byte of a frequency, from the register. -/
theorem freq_code : ∀ d : UInt8,
    d &&& SqwaveFreq.DS3231_SQWAVE_8192HZ.code = (controlOf d).freq.code :=
  forall_byte (by decide +kernel)

theorem control_enable_ints (alarms : Alarm) : ∀ d : UInt8,
    controlOf (flagByte d (DS3231_CTRL_ALARM_INTS ||| alarms.code) .DS3231_SET) =
      { controlOf d with
        interrupts := true
        alarm1 := (controlOf d).alarm1 || alarms.first
        alarm2 := (controlOf d).alarm2 || alarms.second } := by
  cases alarms <;> exact forall_byte (by decide +kernel)

theorem control_disable_ints (alarms : Alarm) : ∀ d : UInt8,
    controlOf (flagByte d alarms.code .DS3231_CLEAR) =
      { controlOf d with
        alarm1 := (controlOf d).alarm1 && !alarms.first
        alarm2 := (controlOf d).alarm2 && !alarms.second } := by
  cases alarms <;> exact forall_byte (by decide +kernel)

theorem control_squarewave : ∀ d : UInt8,
    controlOf (flagByte d DS3231_CTRL_ALARM_INTS .DS3231_CLEAR)
        = { controlOf d with interrupts := false } ∧
      controlOf (flagByte d DS3231_CTRL_ALARM_INTS .DS3231_SET)
        = { controlOf d with interrupts := true } :=
  forall_byte (by decide +kernel)

theorem control_sqwave (freq : SqwaveFreq) : ∀ d : UInt8,
    controlOf (sqwaveByte d freq) = { controlOf d with freq := freq } := by
  cases freq <;> exact forall_byte (by decide +kernel)

/-- To start a conversion changes no setting. -/
theorem control_tempconv : ∀ d : UInt8,
    controlOf (flagByte d DS3231_CTRL_TEMPCONV .DS3231_SET) = controlOf d :=
  forall_byte (by decide +kernel)

theorem status_khz32 : ∀ d : UInt8,
    bit (flagByte d DS3231_STAT_32KHZ .DS3231_SET) 3 = true ∧
      bit (flagByte d DS3231_STAT_32KHZ .DS3231_CLEAR) 3 = false :=
  forall_byte (by decide +kernel)

/-- To clear flags of the status register changes no setting. -/
theorem status_flags (alarms : Alarm) : ∀ d : UInt8,
    bit (flagByte d DS3231_STAT_OSCILLATOR .DS3231_CLEAR) 3 = bit d 3 ∧
      bit (flagByte d alarms.code .DS3231_CLEAR) 3 = bit d 3 := by
  cases alarms <;> exact forall_byte (by decide +kernel)

/-- A single byte is written, or it is not. -/
theorem store_written (regs : ℕ → UInt8) (addr : ℕ) (part : Option ℕ) (d : UInt8) :
    store regs addr (written part [d]) = if part = some 0 then regs else store regs addr [d] := by
  rcases part with - | - | stored
  · rfl
  · exact store_nil regs addr
  · rw [if_neg (by simp)]
    simp [written]

/-- A control byte that is written. -/
theorem settingsOf_control (regs : ℕ → UInt8) (d : UInt8) :
    settingsOf (store regs DS3231_ADDR_CONTROL [d])
      = { settingsOf regs with control := controlOf d } := by
  unfold settingsOf
  rw [load_store_before regs [d] (by decide), store_one_self,
    store_one_of_ne regs d (by decide), store_one_of_ne regs d (by decide)]

theorem settingsOf_status (regs : ℕ → UInt8) (d : UInt8) :
    settingsOf (store regs DS3231_ADDR_STATUS [d]) = { settingsOf regs with khz32 := bit d 3 } := by
  unfold settingsOf
  rw [load_store_before regs [d] (by decide), store_one_self,
    store_one_of_ne regs d (by decide), store_one_of_ne regs d (by decide)]

theorem settingsOf_aging (regs : ℕ → UInt8) (d : UInt8) :
    settingsOf (store regs DS3231_ADDR_AGING [d]) = { settingsOf regs with aging := d } := by
  unfold settingsOf
  rw [load_store_before regs [d] (by decide), store_one_self,
    store_one_of_ne regs d (by decide), store_one_of_ne regs d (by decide)]

/-- Time is not a setting. -/
theorem settingsOf_time (regs : ℕ → UInt8) {data : List UInt8} (h : data.length ≤ 7) :
    settingsOf (store regs DS3231_ADDR_TIME data) = settingsOf regs := by
  have hbehind : ∀ i, 7 ≤ i → store regs DS3231_ADDR_TIME data i = regs i := fun i hi =>
    store_behind regs (by show 0 + data.length ≤ i; omega)
  have hload : load (store regs DS3231_ADDR_TIME data) DS3231_ADDR_ALARM1 7
      = load regs DS3231_ADDR_ALARM1 7 :=
    load_store_behind regs (by show 0 + data.length ≤ 7; omega)
  unfold settingsOf
  rw [hload, hbehind _ (by decide), hbehind _ (by decide), hbehind _ (by decide)]

/-- Bytes of the alarms. -/
theorem settingsOf_alarms (regs : ℕ → UInt8) {offset : ℕ} {data : List UInt8}
    (h : offset + data.length ≤ 7) :
    settingsOf (store regs (DS3231_ADDR_ALARM1 + offset) data) =
      { settingsOf regs with alarms := splice (settingsOf regs).alarms offset data } := by
  have hbehind : ∀ i, 14 ≤ i → store regs (DS3231_ADDR_ALARM1 + offset) data i = regs i :=
    fun i hi => store_behind regs (by show 7 + offset + data.length ≤ i; omega)
  unfold settingsOf
  rw [load_store_within regs (by omega) (by show 7 + offset + _ ≤ 7 + 7; omega),
    Nat.add_sub_cancel_left, hbehind _ (by decide), hbehind _ (by decide), hbehind _ (by decide)]

/-! ## §4. One transfer, and the calls. -/

/-- The chip changes none of its settings by itself. -/
def Bus.Quiet (b : Bus) : Prop :=
  ∀ t ∈ b.coming, ∀ regs, settingsOf (t.meanwhile regs) = settingsOf regs

theorem Bus.Quiet.next {b : Bus} (hb : b.Quiet) :
    settingsOf b.next.regs = settingsOf b.regs ∧ ∀ regs, ({ b.next with regs := regs } : Bus).Quiet := by
  refine ⟨?_, fun regs t ht => hb t (List.mem_of_mem_tail ht)⟩
  show settingsOf ((b.coming.headD ⟨id, .fine⟩).meanwhile b.regs) = _
  cases hc : b.coming with
  | nil => rfl
  | cons t ts => exact hb t (hc ▸ List.mem_cons_self) b.regs

section Calls

variable {α β : Type}

/-- The call goes from settings `s` to `E part s` for some `part`; if it is well, all
is written, and its result meets `A`. -/
def Does (x : Call α) (E : Option ℕ → Settings → Settings) (A : Settings → α → Prop) : Prop :=
  ∀ b : Bus, b.Quiet → (x.alone b).1.Quiet ∧
    ∃ part, settingsOf (x.alone b).1.regs = E part (settingsOf b.regs) ∧
      ∀ a, (x.alone b).2 = .ok a → part = none ∧ A (settingsOf b.regs) a

/-- Turning the result of a call into another. -/
theorem Does.andThen {x : Call α} {E : Option ℕ → Settings → Settings} {A : Settings → α → Prop}
    (hx : Does x E A) (f : α → β) {B : Settings → β → Prop} (hB : ∀ s a, A s a → B s (f a)) :
    Does (Clock.andThen x fun a => .ret (.ok (f a))) E B := by
  intro b hb
  obtain ⟨hquiet, part, heff, hok⟩ := hx b hb
  rw [alone_andThen]
  cases hr : (x.alone b).2 with
  | ok a =>
      refine ⟨hquiet, part, heff, fun a' ha' => ?_⟩
      obtain rfl : f a = a' := Except.ok.inj ha'
      exact ⟨(hok a hr).1, hB _ _ (hok a hr).2⟩
  | error e => exact ⟨hquiet, part, heff, fun a' ha' => by cases ha'⟩

/-- A read: the registers of a chip with the same settings. -/
theorem read_does (b : Bus) (hb : b.Quiet) (reg n : ℕ) :
    ((i2c_dev_read_reg reg n).alone b).1.Quiet ∧
      settingsOf ((i2c_dev_read_reg reg n).alone b).1.regs = settingsOf b.regs ∧
      ∀ data, ((i2c_dev_read_reg reg n).alone b).2 = .ok data →
        ∃ regs, settingsOf regs = settingsOf b.regs ∧ data = load regs reg n := by
  refine ⟨hb.next.2 _, hb.next.1, fun data hdata => ⟨b.next.regs, hb.next.1, ?_⟩⟩
  rw [alone_read] at hdata
  cases hfate : b.transfer.fate with
  | fine =>
      rw [hfate] at hdata
      exact (Except.ok.inj hdata).symm
  | failed e stored =>
      rw [hfate] at hdata
      cases hdata

/-- A write: all the bytes, or the first of them. -/
theorem write_does (b : Bus) (hb : b.Quiet) (reg : ℕ) (data : List UInt8) :
    ((i2c_dev_write_reg reg data).alone b).1.Quiet ∧
      ∃ regs part, settingsOf regs = settingsOf b.regs ∧
        ((i2c_dev_write_reg reg data).alone b).1.regs = store regs reg (written part data) ∧
        ∀ u, ((i2c_dev_write_reg reg data).alone b).2 = .ok u → part = none := by
  rw [alone_write]
  cases b.transfer.fate with
  | fine => exact ⟨hb.next.2 _, b.next.regs, none, hb.next.1, rfl, fun _ _ => rfl⟩
  | failed e stored =>
      exact ⟨hb.next.2 _, b.next.regs, some stored, hb.next.1, rfl, fun u hu => by cases hu⟩

/-- What is done under the mutex is done. -/
theorem Does.locked {x : Call α} {E : Option ℕ → Settings → Settings} {A : Settings → α → Prop}
    (hx : Does x E A) (f : α → β) {B : Settings → β → Prop} (hB : ∀ s a, A s a → B s (f a)) :
    Does (I2C_DEV_TAKE_MUTEX (I2C_DEV_CHECK x fun a => I2C_DEV_GIVE_MUTEX (.ret (.ok (f a))))) E
      B := by
  intro b hb
  obtain ⟨hquiet, part, heff, hok⟩ := hx b hb
  rw [alone_take, alone_check]
  cases hr : (x.alone b).2 with
  | ok a =>
      refine ⟨hquiet, part, heff, fun a' ha' => ?_⟩
      obtain rfl : f a = a' := Except.ok.inj ha'
      exact ⟨(hok a hr).1, hB _ _ (hok a hr).2⟩
  | error e => exact ⟨hquiet, part, heff, fun a' ha' => by cases ha'⟩

/-- Reading changes no setting. -/
theorem read_reg_does (reg n : ℕ) :
    Does (i2c_dev_read_reg reg n) (fun _ s => s)
      fun s data => ∃ regs, settingsOf regs = s ∧ data = load regs reg n := by
  intro b hb
  obtain ⟨hquiet, heq, hdata⟩ := read_does b hb reg n
  exact ⟨hquiet, none, heq, fun data h => ⟨rfl, hdata data h⟩⟩

theorem get_flag_does (addr : ℕ) (mask : UInt8) :
    Does (ds3231_get_flag addr mask) (fun _ s => s)
      fun s flag => ∃ regs, settingsOf regs = s ∧ flag = regs addr &&& mask := by
  refine (read_reg_does addr 1).andThen _ fun s data h => ?_
  obtain ⟨regs, hregs, rfl⟩ := h
  exact ⟨regs, hregs, rfl⟩

/-- The byte of a register that was read, with some bits changed, written back to it. -/
theorem set_flag_does {addr : ℕ} {bits : UInt8} {mode : Mode} {g : Settings → Settings}
    (h : ∀ regs regs', settingsOf regs = settingsOf regs' →
      settingsOf (store regs' addr [flagByte (regs addr) bits mode]) = g (settingsOf regs')) :
    Does (ds3231_set_flag addr bits mode) (fun part s => changed part s (g s))
      fun _ _ => True := by
  intro b hb
  obtain ⟨hquiet, hsame, hdata⟩ := read_does b hb addr 1
  unfold ds3231_set_flag
  rw [alone_andThen]
  cases hr : ((i2c_dev_read_reg addr 1).alone b).2 with
  | error e => exact ⟨hquiet, some 0, hsame, fun _ hok => by cases hok⟩
  | ok data =>
      obtain ⟨regs, hregs, rfl⟩ := hdata data hr
      obtain ⟨hquiet', regs', part, hregs', hstore, hok⟩ :=
        write_does _ hquiet addr [flagByte (regs addr) bits mode]
      refine ⟨hquiet', part, ?_, fun u hu => ⟨hok u hu, trivial⟩⟩
      rw [hsame] at hregs'
      have hboth := h regs regs' (hregs.trans hregs'.symm)
      rw [hregs'] at hboth
      show settingsOf ((i2c_dev_write_reg addr [flagByte (regs addr) bits mode]).alone _).1.regs
        = if part = some 0 then _ else _
      rw [hstore, store_written]
      by_cases hpart : part = some 0
      · rw [if_pos hpart, if_pos hpart, hregs']
      · rw [if_neg hpart, if_neg hpart, hboth]

theorem setFlagCall_does {addr : ℕ} {bits : UInt8} {mode : Mode} {g : Settings → Settings}
    (h : ∀ regs regs', settingsOf regs = settingsOf regs' →
      settingsOf (store regs' addr [flagByte (regs addr) bits mode]) = g (settingsOf regs')) :
    Does (setFlagCall addr bits mode) (fun part s => changed part s (g s)) fun _ _ => True :=
  (set_flag_does h).locked _ fun _ _ h => h

/-- A flag of the control register. -/
theorem control_does {bits : UInt8} {mode : Mode} {g : Control → Control}
    (h : ∀ d, controlOf (flagByte d bits mode) = g (controlOf d)) :
    Does (setFlagCall DS3231_ADDR_CONTROL bits mode)
      (fun part s => changed part s { s with control := g s.control }) fun _ _ => True := by
  refine setFlagCall_does (g := fun s => { s with control := g s.control })
    fun regs regs' heq => ?_
  rw [settingsOf_control, h, show controlOf (regs DS3231_ADDR_CONTROL) = _ from
    congrArg Settings.control heq]

/-- A flag of the status register. -/
theorem status_does {bits : UInt8} {mode : Mode} {g : Bool → Bool}
    (h : ∀ d, bit (flagByte d bits mode) 3 = g (bit d 3)) :
    Does (setFlagCall DS3231_ADDR_STATUS bits mode)
      (fun part s => changed part s { s with khz32 := g s.khz32 }) fun _ _ => True := by
  refine setFlagCall_does (g := fun s => { s with khz32 := g s.khz32 })
    fun regs regs' heq => ?_
  rw [settingsOf_status, h, show bit (regs DS3231_ADDR_STATUS) 3 = _ from
    congrArg Settings.khz32 heq]

theorem changed_self (part : Option ℕ) (s : Settings) : changed part s s = s := by
  unfold changed
  split <;> rfl

/-- The other flags of the status register. -/
theorem flags_does {bits : UInt8} {mode : Mode}
    (h : ∀ d, bit (flagByte d bits mode) 3 = bit d 3) :
    Does (setFlagCall DS3231_ADDR_STATUS bits mode) (fun _ s => s) fun _ _ => True := by
  intro b hb
  obtain ⟨hquiet, part, heff, hok⟩ := status_does (g := id) h b hb
  exact ⟨hquiet, part, heff.trans (changed_self part _), hok⟩

/-- Two bytes, one after the other; the second one no setting. -/
theorem set_aging_offset_does (age_u8 : UInt8) :
    Does (ds3231_set_aging_offset age_u8)
      (fun part s => changed part s { s with aging := age_u8 }) fun _ _ => True := by
  have hconv : Does (ds3231_set_flag DS3231_ADDR_CONTROL DS3231_CTRL_TEMPCONV .DS3231_SET)
      (fun _ s => s) fun _ _ => True := by
    intro b hb
    obtain ⟨hquiet, part, heff, hok⟩ := set_flag_does (g := id) (fun regs regs' heq => by
      rw [settingsOf_control, control_tempconv, show controlOf (regs DS3231_ADDR_CONTROL) = _ from
        congrArg Settings.control heq]
      rfl) b hb
    exact ⟨hquiet, part, heff.trans (changed_self part _), hok⟩
  intro b hb
  obtain ⟨hquiet, regs, part, hregs, hstore, hok⟩ := write_does b hb DS3231_ADDR_AGING [age_u8]
  have haging : settingsOf ((i2c_dev_write_reg DS3231_ADDR_AGING [age_u8]).alone b).1.regs =
      changed part (settingsOf b.regs) { settingsOf b.regs with aging := age_u8 } := by
    rw [hstore, store_written, changed]
    by_cases hpart : part = some 0
    · rw [if_pos hpart, if_pos hpart, hregs]
    · rw [if_neg hpart, if_neg hpart, settingsOf_aging, hregs]
  unfold ds3231_set_aging_offset
  rw [alone_take, alone_check]
  cases hr : ((i2c_dev_write_reg DS3231_ADDR_AGING [age_u8]).alone b).2 with
  | error e => exact ⟨hquiet, part, haging, fun _ hres => by cases hres⟩
  | ok u =>
      obtain rfl := hok u hr
      obtain ⟨hquiet', _, heff, -⟩ := hconv.locked (fun _ => ()) (B := fun _ _ => True)
        (fun _ _ _ => trivial) _ hquiet
      exact ⟨hquiet', none, heff.trans haging, fun _ _ => ⟨rfl, trivial⟩⟩

/-- The register is read twice; in between the chip keeps its settings. -/
theorem set_squarewave_freq_does (freq : SqwaveFreq) :
    Does (ds3231_set_squarewave_freq freq)
      (fun part s => changed part s { s with control := { s.control with freq := freq } })
      fun _ _ => True := by
  intro b hb
  obtain ⟨hquiet, part, heff, hok⟩ := get_flag_does DS3231_ADDR_CONTROL 0xff b hb
  unfold ds3231_set_squarewave_freq
  rw [alone_take, alone_check]
  cases hr : ((ds3231_get_flag DS3231_ADDR_CONTROL 0xff).alone b).2 with
  | error e => exact ⟨hquiet, some 0, heff, fun _ hres => by cases hres⟩
  | ok flag =>
      obtain ⟨-, regs, hregs, rfl⟩ := hok flag hr
      rw [and_ff]
      have hcontrol : controlOf (regs DS3231_ADDR_CONTROL) = (settingsOf b.regs).control :=
        congrArg Settings.control hregs
      have hset : Does
          (ds3231_set_flag DS3231_ADDR_CONTROL (sqwaveByte (regs DS3231_ADDR_CONTROL) freq)
            .DS3231_REPLACE)
          (fun part s => changed part s { s with
            control := { (settingsOf b.regs).control with freq := freq } }) fun _ _ => True := by
        refine set_flag_does (g := fun s => { s with
          control := { (settingsOf b.regs).control with freq := freq } }) fun _ regs' _ => ?_
        show settingsOf (store regs' _ [sqwaveByte (regs DS3231_ADDR_CONTROL) freq]) = _
        rw [settingsOf_control, control_sqwave, hcontrol]
      obtain ⟨hquiet', part', heff', hok'⟩ := hset.locked (fun _ => ()) (B := fun _ _ => True)
        (fun _ _ _ => trivial) _ hquiet
      refine ⟨hquiet', part', heff'.trans ?_, hok'⟩
      rw [heff]

theorem set_alarm_eq (alarms : Alarm) (time1 : Option StructTm) (option1 : Alarm1Rate)
    (time2 : Option StructTm) (option2 : Alarm2Rate) :
    ds3231_set_alarm alarms time1 option1 time2 option2 =
      match alarmBytes alarms time1 option1 time2 option2 with
      | none => .ret (.error ESP_ERR_INVALID_ARG)
      | some (offset, data) =>
          I2C_DEV_TAKE_MUTEX (I2C_DEV_CHECK (i2c_dev_write_reg (DS3231_ADDR_ALARM1 + offset) data)
            fun _ => I2C_DEV_GIVE_MUTEX (.ret (.ok ()))) := by
  cases alarms <;> cases time1 <;> cases time2 <;> rfl

theorem alarmBytes_fit {alarms : Alarm} {time1 : Option StructTm} {option1 : Alarm1Rate}
    {time2 : Option StructTm} {option2 : Alarm2Rate} {offset : ℕ} {data : List UInt8}
    (h : alarmBytes alarms time1 option1 time2 option2 = some (offset, data)) :
    offset + data.length ≤ 7 := by
  unfold alarmBytes at h
  split at h <;> simp only [Option.some.injEq, Prod.mk.injEq, reduceCtorEq] at h <;>
    obtain ⟨rfl, rfl⟩ := h <;> simp [alarm1Data, alarm2Data]

theorem length_written_le (part : Option ℕ) (data : List UInt8) :
    (written part data).length ≤ data.length := by
  cases part with
  | none => exact le_rfl
  | some stored => exact (List.length_take_le' ..)

theorem set_alarm_does (alarms : Alarm) (time1 : Option StructTm) (option1 : Alarm1Rate)
    (time2 : Option StructTm) (option2 : Alarm2Rate) :
    Does (ds3231_set_alarm alarms time1 option1 time2 option2)
      (fun part s => (DriverCall.set_alarm alarms time1 option1 time2 option2).effect part s)
      fun _ _ => True := by
  rw [set_alarm_eq]
  show Does _ (fun part s =>
    match alarmBytes alarms time1 option1 time2 option2 with
    | none => s
    | some (offset, data) => { s with alarms := splice s.alarms offset (written part data) }) _
  cases hbytes : alarmBytes alarms time1 option1 time2 option2 with
  | none => exact fun b hb => ⟨hb, none, rfl, fun _ h => by cases h⟩
  | some bytes =>
      obtain ⟨offset, data⟩ := bytes
      have hwrite : Does (i2c_dev_write_reg (DS3231_ADDR_ALARM1 + offset) data)
          (fun part s => { s with alarms := splice s.alarms offset (written part data) })
          fun _ _ => True := by
        intro b hb
        obtain ⟨hquiet, regs, part, hregs, hstore, hok⟩ := write_does b hb _ data
        refine ⟨hquiet, part, ?_, fun u hu => ⟨hok u hu, trivial⟩⟩
        have hfit := alarmBytes_fit hbytes
        have hle := length_written_le part data
        rw [hstore, settingsOf_alarms regs (by omega), hregs]
      exact hwrite.locked (fun _ => ()) fun _ _ h => h

/-- A call that only reads. -/
theorem readCall_does {reg n : ℕ} (f : List UInt8 → α) {A : Settings → α → Prop}
    (h : ∀ regs, A (settingsOf regs) (f (load regs reg n))) :
    Does (I2C_DEV_TAKE_MUTEX (I2C_DEV_CHECK (i2c_dev_read_reg reg n) fun data =>
      I2C_DEV_GIVE_MUTEX (.ret (.ok (f data))))) (fun _ s => s) A := by
  refine (read_reg_does reg n).locked f fun s data hdata => ?_
  obtain ⟨regs, rfl, rfl⟩ := hdata
  exact h regs

theorem getFlagCall_does (addr : ℕ) (mask : UInt8) :
    Does (getFlagCall addr mask) (fun _ s => s) fun _ _ => True :=
  (get_flag_does addr mask).locked _ fun _ _ _ => trivial

theorem get_squarewave_freq_does :
    Does ds3231_get_squarewave_freq (fun _ s => s) fun s f => f = s.control.freq.code := by
  refine (get_flag_does DS3231_ADDR_CONTROL 0xff).locked _ fun s flag h => ?_
  obtain ⟨regs, rfl, rfl⟩ := h
  rw [and_ff]
  exact freq_code _

theorem set_time_does (time : StructTm) :
    Does (ds3231_set_time time) (fun _ s => s) fun _ _ => True := by
  have hwrite : Does (i2c_dev_write_reg DS3231_ADDR_TIME (timeData time)) (fun _ s => s)
      fun _ _ => True := by
    intro b hb
    obtain ⟨hquiet, regs, part, hregs, hstore, hok⟩ := write_does b hb _ (timeData time)
    refine ⟨hquiet, part, ?_, fun u hu => ⟨hok u hu, trivial⟩⟩
    rw [hstore, settingsOf_time regs (length_written_le part _), hregs]
  exact hwrite.locked (fun _ => ()) fun _ _ h => h

/-- **Every call means what it says.** -/
theorem DriverCall.does (c : DriverCall) : Does c.prog (fun part s => c.effect part s) fun s a =>
    c.Tells s a := by
  cases c with
  | set_time time => exact (set_time_does time).andThen _ fun _ _ _ => trivial
  | get_time =>
      exact (readCall_does (A := fun _ _ => True) _ fun _ => trivial).andThen _
        fun _ _ _ => trivial
  | set_alarm alarms time1 option1 time2 option2 =>
      exact (set_alarm_does _ _ _ _ _).andThen _ fun _ _ _ => trivial
  | get_oscillator_stop_flag =>
      exact ((getFlagCall_does _ _).andThen _ (B := fun _ _ => True) fun _ _ h => h).andThen _
        fun _ _ _ => trivial
  | clear_oscillator_stop_flag =>
      exact (flags_does fun d => (status_flags .DS3231_ALARM_NONE d).1).andThen _
        fun _ _ _ => trivial
  | get_alarm_flags => exact (getFlagCall_does _ _).andThen _ fun _ _ _ => trivial
  | clear_alarm_flags alarms =>
      exact (flags_does fun d => (status_flags alarms d).2).andThen _ fun _ _ _ => trivial
  | enable_alarm_ints alarms =>
      exact (control_does (g := fun k => { k with
        interrupts := true
        alarm1 := k.alarm1 || alarms.first
        alarm2 := k.alarm2 || alarms.second }) (control_enable_ints alarms)).andThen _
        fun _ _ _ => trivial
  | disable_alarm_ints alarms =>
      exact (control_does (g := fun k => { k with
        alarm1 := k.alarm1 && !alarms.first
        alarm2 := k.alarm2 && !alarms.second }) (control_disable_ints alarms)).andThen _
        fun _ _ _ => trivial
  | enable_32khz =>
      exact (status_does (g := fun _ => true) fun d => (status_khz32 d).1).andThen _
        fun _ _ _ => trivial
  | disable_32khz =>
      exact (status_does (g := fun _ => false) fun d => (status_khz32 d).2).andThen _
        fun _ _ _ => trivial
  | enable_squarewave =>
      exact (control_does (g := fun k => { k with interrupts := false })
        fun d => (control_squarewave d).1).andThen _ fun _ _ _ => trivial
  | disable_squarewave =>
      exact (control_does (g := fun k => { k with interrupts := true })
        fun d => (control_squarewave d).2).andThen _ fun _ _ _ => trivial
  | set_squarewave_freq freq =>
      exact (set_squarewave_freq_does freq).andThen _ fun _ _ _ => trivial
  | get_squarewave_freq =>
      exact get_squarewave_freq_does.andThen _ fun _ _ h => congrArg Answer.byte h
  | get_raw_temp =>
      exact (readCall_does (A := fun _ _ => True) _ fun _ => trivial).andThen _
        fun _ _ _ => trivial
  | get_temp_integer | get_temp_float =>
      exact ((readCall_does (A := fun _ _ => True) _ fun _ => trivial).andThen _
        (B := fun _ _ => True) fun _ _ h => h).andThen _ fun _ _ _ => trivial
  | set_aging_offset age_u8 =>
      exact (set_aging_offset_does age_u8).andThen _ fun _ _ _ => trivial
  | get_aging_offset =>
      exact (readCall_does (A := fun s f => f = s.aging) _ fun _ => rfl).andThen _
        fun _ _ h => congrArg Answer.byte h

end Calls

/-! ## §5. Every interleaving. -/

/-- A call goes from settings to settings: it changes what it says, or a part of that;
and if it is well, then all, and it tells of the settings it found. -/
def DriverCall.Changes (c : DriverCall) (s s' : Settings) (r : Except EspError Answer) : Prop :=
  ∃ part, s' = c.effect part s ∧ ∀ a, r = .ok a → part = none ∧ c.Tells s a

/-- **NO SETTING IS LOST.**  However many tasks call the driver, however their steps
interleave, and wherever transfers fail: the calls change the settings one after the
other, in the order in which they took the mutex, each those that the one before it
has left; and whenever the mutex is free, the chip has the last ones. -/
theorem driver_settings {ι : Type} [DecidableEq ι] (b₀ : Bus) (hb : b₀.Quiet)
    (ls : List (DriverStep ι)) (w : World ι Bus (Except EspError Answer))
    (h : exec World.step (World.start b₀) (ls.map DriverStep.label) = some w) :
    ∃ (cs : List DriverCall) (states : ℕ → Settings), states 0 = settingsOf b₀.regs ∧
      Linear DriverCall.Changes cs states w ∧
      (w.holder = none → settingsOf w.shared.regs = states cs.length) := by
  have hstep : ∀ c : DriverCall, True → ∀ b s, b.Quiet ∧ settingsOf b.regs = s →
      ∃ s', ((c.prog.alone b).1.Quiet ∧ settingsOf (c.prog.alone b).1.regs = s') ∧
        c.Changes s s' (c.prog.alone b).2 := by
    intro c _ b s hs
    obtain ⟨hquiet, rfl⟩ := hs
    obtain ⟨hquiet', part, heff, hok⟩ := c.does b hquiet
    exact ⟨_, ⟨hquiet', rfl⟩, part, heff, hok⟩
  obtain ⟨cs, states, hzero, hlinear, hlast⟩ :=
    linearize hstep (fun _ _ _ => trivial) h ⟨hb, rfl⟩
  exact ⟨cs, states, hzero, hlinear, fun hnone => (hlast hnone).2⟩

/-- Two tasks each set a bit of the control register, between each other's steps. -/
def enablingRun : List (DriverStep Bool) :=
  [.call false (.enable_alarm_ints .DS3231_ALARM_1), .call true (.set_squarewave_freq
    .DS3231_SQWAVE_8192HZ), .go false true, .go false true, .go false true, .go false true,
    .go true true, .go false true, .go true true, .go true true, .go true true, .go true true,
    .go true true]

def quietBus : Bus := { regs := fun _ => 0, coming := [] }

theorem quietBus_quiet : quietBus.Quiet := fun _ h => by cases h

theorem driver_settings_enabling :
    quietBus.Quiet ∧
      ∃ w, exec World.step (World.start quietBus) (enablingRun.map DriverStep.label) = some w ∧
        w.returned.length = 2 ∧ w.holder = none ∧
        ∃ (cs : List DriverCall) (states : ℕ → Settings), states 0 = settingsOf quietBus.regs ∧
          Linear DriverCall.Changes cs states w ∧
          (w.holder = none → settingsOf w.shared.regs = states cs.length) :=
  ⟨quietBus_quiet, _, rfl, rfl, rfl, driver_settings quietBus quietBus_quiet enablingRun _ rfl⟩

end StoneHMI.Clock
