/-
  StoneHMI.Clock.Driver
  ─────────────────────
  **THE CLOCK CHIP — the driver of DS3231.c.**

  The chip is a bank of registers behind an I2C bus, and counts on by itself.
  A transfer of i2cdev.c is one action here: it holds its port's lock from end
  to end.  It can fail, and a write that fails may have stored its first
  bytes.  What the chip does before each transfer to come, and how that ends,
  is part of the bus.

  A driver function is a program under the device's mutex.  The macros of
  i2cdev.h are combinators that take what follows them: each returns early as
  the macro does.  No pointer is `NULL`, except the times of an alarm.

    §1  numbers          §3  flags and settings      §5  alarms
    §2  the bus          §4  times                   §6  calls, and one alone
-/
import StoneHMI.Lib.Mutex
import StoneHMI.Lib.Registers
import StoneHMI.Controller.Ctl
import StoneHMI.Sensor.Xdb305

namespace StoneHMI.Clock

open Mutex Registers

/-! ## §1. Numbers. -/

def bcd2dec (val : UInt8) : UInt8 := (val >>> 4) * 10 + (val &&& 0x0f)

def dec2bcd (val : UInt8) : UInt8 := (val / 10) <<< 4 + val % 10

/-- What holds of the 256 bytes holds of every byte. -/
theorem forall_byte {P : UInt8 → Prop} (h : ∀ n : Fin 256, P (UInt8.ofNat n.val)) (b : UInt8) :
    P b := by
  have hb := h ⟨b.toNat, b.toNat_lt⟩
  rwa [show UInt8.ofNat b.toNat = b from UInt8.ofNat_toNat] at hb

/-- An `int` passed as a `uint8_t`. -/
def toU8 (n : ℤ) : UInt8 := UInt8.ofNat (n % 256).toNat

def days_per_month : List ℤ := [31, 28, 31, 30, 31, 30, 31, 31, 30, 31, 30, 31]

def days_per_month_leap_year : List ℤ := [31, 29, 31, 30, 31, 30, 31, 31, 30, 31, 30, 31]

/-- `none` where the loop reads behind the table. -/
def days_since_january_1st (year month day : ℤ) : Option ℤ :=
  let ptr :=
    if (year % 4 = 0 ∧ year % 100 ≠ 0) ∨ year % 400 = 0 then days_per_month_leap_year
    else days_per_month
  if month ≤ 12 then some (day - 1 + (ptr.take month.toNat).sum) else none

/-! ## §2. The bus. -/

theorem fail_failed : (-1 : ℤ) ≠ ESP_OK := by decide

theorem invalid_arg_failed : (0x102 : ℤ) ≠ ESP_OK := by decide

theorem mutex_timeout_failed : (0x107 : ℤ) ≠ ESP_OK := by decide

def ESP_FAIL : EspError := ⟨-1, fail_failed⟩

def ESP_ERR_INVALID_ARG : EspError := ⟨0x102, invalid_arg_failed⟩

def ESP_ERR_TIMEOUT : EspError := ⟨0x107, mutex_timeout_failed⟩

/-- How a transfer ends: well, or with an error after `stored` bytes of a write. -/
inductive Fate where
  | fine
  | failed (e : EspError) (stored : ℕ)

/-- A transfer to come: what the chip does to its registers before it, and how it
ends. -/
structure Transfer where
  meanwhile : (ℕ → UInt8) → ℕ → UInt8
  fate : Fate

/-- The registers of the chip, and the transfers to come; all later ones find the
chip as it was left, and end well. -/
structure Bus where
  regs : ℕ → UInt8
  coming : List Transfer

def Bus.transfer (b : Bus) : Transfer := b.coming.headD ⟨id, .fine⟩

/-- The bus at the next transfer. -/
def Bus.next (b : Bus) : Bus := { regs := b.transfer.meanwhile b.regs, coming := b.coming.tail }

/-- A program of the driver: its result, or an error. -/
abbrev Call (α : Type) := Prog Bus (Except EspError α)

def i2c_dev_read_reg (reg in_size : ℕ) : Call (List UInt8) :=
  .act Bus.next fun b => .ret <|
    match b.transfer.fate with
    | .fine => .ok (load b.next.regs reg in_size)
    | .failed e _ => .error e

def i2c_dev_write_reg (reg : ℕ) (out_data : List UInt8) : Call Unit :=
  .act
    (fun b =>
      match b.transfer.fate with
      | .fine => { b.next with regs := store b.next.regs reg out_data }
      | .failed _ stored => { b.next with regs := store b.next.regs reg (out_data.take stored) })
    fun b => .ret <|
      match b.transfer.fate with
      | .fine => .ok ()
      | .failed e _ => .error e

section Macros

variable {α β : Type}

def I2C_DEV_TAKE_MUTEX (k : Call α) : Call α :=
  .take fun taken => if taken then k else .ret (.error ESP_ERR_TIMEOUT)

def I2C_DEV_GIVE_MUTEX (k : Call α) : Call α :=
  .give fun given => if given then k else .ret (.error ESP_FAIL)

/-- An error gives the mutex back, and is returned. -/
def I2C_DEV_CHECK (x : Call β) (k : β → Call α) : Call α :=
  x.bind fun res =>
    match res with
    | .ok b => k b
    | .error e => I2C_DEV_GIVE_MUTEX (.ret (.error e))

end Macros

/-! ## §3. Flags and settings. -/

def DS3231_STAT_OSCILLATOR : UInt8 := 0x80
def DS3231_STAT_32KHZ : UInt8 := 0x08
def DS3231_CTRL_TEMPCONV : UInt8 := 0x20
def DS3231_CTRL_ALARM_INTS : UInt8 := 0x04

def DS3231_ADDR_TIME : ℕ := 0x00
def DS3231_ADDR_ALARM1 : ℕ := 0x07
def DS3231_ADDR_ALARM2 : ℕ := 0x0b
def DS3231_ADDR_CONTROL : ℕ := 0x0e
def DS3231_ADDR_STATUS : ℕ := 0x0f
def DS3231_ADDR_AGING : ℕ := 0x10
def DS3231_ADDR_TEMP : ℕ := 0x11

inductive Mode where
  | DS3231_SET | DS3231_CLEAR | DS3231_REPLACE
  deriving DecidableEq

/-- `ds3231_alarm_t` -/
inductive Alarm where
  | DS3231_ALARM_NONE | DS3231_ALARM_1 | DS3231_ALARM_2 | DS3231_ALARM_BOTH
  deriving DecidableEq

def Alarm.code : Alarm → UInt8
  | .DS3231_ALARM_NONE => 0
  | .DS3231_ALARM_1 => 1
  | .DS3231_ALARM_2 => 2
  | .DS3231_ALARM_BOTH => 3

/-- `ds3231_sqwave_freq_t` -/
inductive SqwaveFreq where
  | DS3231_SQWAVE_1HZ | DS3231_SQWAVE_1024HZ | DS3231_SQWAVE_4096HZ | DS3231_SQWAVE_8192HZ
  deriving DecidableEq

def SqwaveFreq.code : SqwaveFreq → UInt8
  | .DS3231_SQWAVE_1HZ => 0x00
  | .DS3231_SQWAVE_1024HZ => 0x08
  | .DS3231_SQWAVE_4096HZ => 0x10
  | .DS3231_SQWAVE_8192HZ => 0x18

/-- A result that has not come yet is awaited. -/
def andThen {α β : Type} (x : Call α) (k : α → Call β) : Call β :=
  x.bind fun res =>
    match res with
    | .ok a => k a
    | .error e => .ret (.error e)

def ds3231_get_flag (addr : ℕ) (mask : UInt8) : Call UInt8 :=
  andThen (i2c_dev_read_reg addr 1) fun data => .ret (.ok (data.headD 0 &&& mask))

/-- The byte that is written back. -/
def flagByte (data bits : UInt8) : Mode → UInt8
  | .DS3231_REPLACE => bits
  | .DS3231_SET => data ||| bits
  | .DS3231_CLEAR => data &&& ~~~bits

def ds3231_set_flag (addr : ℕ) (bits : UInt8) (mode : Mode) : Call Unit :=
  andThen (i2c_dev_read_reg addr 1) fun data =>
    i2c_dev_write_reg addr [flagByte (data.headD 0) bits mode]

/-- The functions that set or clear bits of a register, and do nothing else. -/
def setFlagCall (addr : ℕ) (bits : UInt8) (mode : Mode) : Call Unit :=
  I2C_DEV_TAKE_MUTEX <|
    I2C_DEV_CHECK (ds3231_set_flag addr bits mode) fun _ =>
      I2C_DEV_GIVE_MUTEX (.ret (.ok ()))

/-- The functions that read bits of a register, and do nothing else. -/
def getFlagCall (addr : ℕ) (mask : UInt8) : Call UInt8 :=
  I2C_DEV_TAKE_MUTEX <|
    I2C_DEV_CHECK (ds3231_get_flag addr mask) fun f =>
      I2C_DEV_GIVE_MUTEX (.ret (.ok f))

/-- `*flag = (f ? true : false)` -/
def ds3231_get_oscillator_stop_flag : Call Bool :=
  andThen (getFlagCall DS3231_ADDR_STATUS DS3231_STAT_OSCILLATOR) fun f => .ret (.ok (f != 0))

def ds3231_clear_oscillator_stop_flag : Call Unit :=
  setFlagCall DS3231_ADDR_STATUS DS3231_STAT_OSCILLATOR .DS3231_CLEAR

def ds3231_get_alarm_flags : Call UInt8 :=
  getFlagCall DS3231_ADDR_STATUS Alarm.DS3231_ALARM_BOTH.code

def ds3231_clear_alarm_flags (alarms : Alarm) : Call Unit :=
  setFlagCall DS3231_ADDR_STATUS alarms.code .DS3231_CLEAR

def ds3231_enable_alarm_ints (alarms : Alarm) : Call Unit :=
  setFlagCall DS3231_ADDR_CONTROL (DS3231_CTRL_ALARM_INTS ||| alarms.code) .DS3231_SET

def ds3231_disable_alarm_ints (alarms : Alarm) : Call Unit :=
  setFlagCall DS3231_ADDR_CONTROL alarms.code .DS3231_CLEAR

def ds3231_enable_32khz : Call Unit :=
  setFlagCall DS3231_ADDR_STATUS DS3231_STAT_32KHZ .DS3231_SET

def ds3231_disable_32khz : Call Unit :=
  setFlagCall DS3231_ADDR_STATUS DS3231_STAT_32KHZ .DS3231_CLEAR

def ds3231_enable_squarewave : Call Unit :=
  setFlagCall DS3231_ADDR_CONTROL DS3231_CTRL_ALARM_INTS .DS3231_CLEAR

def ds3231_disable_squarewave : Call Unit :=
  setFlagCall DS3231_ADDR_CONTROL DS3231_CTRL_ALARM_INTS .DS3231_SET

/-- `flag &= ~DS3231_SQWAVE_8192HZ; flag |= freq;` -/
def sqwaveByte (flag : UInt8) (freq : SqwaveFreq) : UInt8 :=
  flag &&& ~~~SqwaveFreq.DS3231_SQWAVE_8192HZ.code ||| freq.code

def ds3231_set_squarewave_freq (freq : SqwaveFreq) : Call Unit :=
  I2C_DEV_TAKE_MUTEX <|
    I2C_DEV_CHECK (ds3231_get_flag DS3231_ADDR_CONTROL 0xff) fun flag =>
      I2C_DEV_CHECK (ds3231_set_flag DS3231_ADDR_CONTROL (sqwaveByte flag freq) .DS3231_REPLACE)
        fun _ => I2C_DEV_GIVE_MUTEX (.ret (.ok ()))

def ds3231_get_squarewave_freq : Call UInt8 :=
  I2C_DEV_TAKE_MUTEX <|
    I2C_DEV_CHECK (ds3231_get_flag DS3231_ADDR_CONTROL 0xff) fun flag =>
      I2C_DEV_GIVE_MUTEX (.ret (.ok (flag &&& SqwaveFreq.DS3231_SQWAVE_8192HZ.code)))

/-- `(int16_t)(int8_t)data[0] << 2 | data[1] >> 6` -/
def rawTemp (d0 d1 : UInt8) : ℤ := d0.toBitVec.toInt * 4 + (d1 >>> 6).toNat

def ds3231_get_raw_temp : Call ℤ :=
  I2C_DEV_TAKE_MUTEX <|
    I2C_DEV_CHECK (i2c_dev_read_reg DS3231_ADDR_TEMP 2) fun data =>
      I2C_DEV_GIVE_MUTEX (.ret (.ok (rawTemp (data.getD 0 0) (data.getD 1 0))))

/-- `t_int >> 2` -/
def ds3231_get_temp_integer : Call ℤ :=
  andThen ds3231_get_raw_temp fun t_int => .ret (.ok (t_int / 4))

/-- `t_int * 0.25` -/
def ds3231_get_temp_float : Call ℚ :=
  andThen ds3231_get_raw_temp fun t_int => .ret (.ok (t_int / 4 : ℚ))

/-- `age` as the byte it is stored as. -/
def ds3231_set_aging_offset (age_u8 : UInt8) : Call Unit :=
  I2C_DEV_TAKE_MUTEX <|
    I2C_DEV_CHECK (i2c_dev_write_reg DS3231_ADDR_AGING [age_u8]) fun _ =>
      I2C_DEV_CHECK (ds3231_set_flag DS3231_ADDR_CONTROL DS3231_CTRL_TEMPCONV .DS3231_SET)
        fun _ => I2C_DEV_GIVE_MUTEX (.ret (.ok ()))

def ds3231_get_aging_offset : Call UInt8 :=
  I2C_DEV_TAKE_MUTEX <|
    I2C_DEV_CHECK (i2c_dev_read_reg DS3231_ADDR_AGING 1) fun data =>
      I2C_DEV_GIVE_MUTEX (.ret (.ok (data.headD 0)))

/-! ## §4. Times. -/

/-- `struct tm`; `tm_yday` is `none` where its computation leaves a table. -/
structure StructTm extends Tm where
  tm_wday : ℤ
  tm_yday : Option ℤ
  tm_isdst : ℤ
  deriving DecidableEq

def DS3231_12HOUR_FLAG : UInt8 := 0x40
def DS3231_12HOUR_MASK : UInt8 := 0x1f
def DS3231_PM_FLAG : UInt8 := 0x20
def DS3231_MONTH_MASK : UInt8 := 0x1f

/-- The seven bytes of a time. -/
def timeData (time : StructTm) : List UInt8 :=
  [dec2bcd (toU8 time.tm_sec), dec2bcd (toU8 time.tm_min), dec2bcd (toU8 time.tm_hour),
    -- the week starts at 1 on Sunday
    dec2bcd (toU8 (time.tm_wday + 1)), dec2bcd (toU8 time.tm_mday),
    dec2bcd (toU8 (time.tm_mon + 1)), dec2bcd (toU8 (time.tm_year - 100))]

def ds3231_set_time (time : StructTm) : Call Unit :=
  I2C_DEV_TAKE_MUTEX <|
    I2C_DEV_CHECK (i2c_dev_write_reg DS3231_ADDR_TIME (timeData time)) fun _ =>
      I2C_DEV_GIVE_MUTEX (.ret (.ok ()))

/-- `tm_hour` of the register. -/
def hourOf (data : UInt8) : ℤ :=
  if data &&& DS3231_12HOUR_FLAG ≠ 0 then
    (bcd2dec (data &&& DS3231_12HOUR_MASK)).toNat - 1
      + if data &&& DS3231_PM_FLAG ≠ 0 then 12 else 0
  else (bcd2dec data).toNat

/-- The time of the seven bytes. -/
def timeOf (data : List UInt8) : StructTm :=
  let tm_mon : ℤ := (bcd2dec (data.getD 5 0 &&& DS3231_MONTH_MASK)).toNat - 1
  let tm_year : ℤ := (bcd2dec (data.getD 6 0)).toNat + 100
  let tm_mday : ℤ := (bcd2dec (data.getD 4 0)).toNat
  { tm_sec := (bcd2dec (data.getD 0 0)).toNat
    tm_min := (bcd2dec (data.getD 1 0)).toNat
    tm_hour := hourOf (data.getD 2 0)
    tm_wday := (bcd2dec (data.getD 3 0)).toNat - 1
    tm_mday := tm_mday
    tm_mon := tm_mon
    tm_year := tm_year
    tm_isdst := 0
    -- the year here counts from 1900
    tm_yday := days_since_january_1st tm_year tm_mon tm_mday }

def ds3231_get_time : Call StructTm :=
  I2C_DEV_TAKE_MUTEX <|
    I2C_DEV_CHECK (i2c_dev_read_reg DS3231_ADDR_TIME 7) fun data =>
      I2C_DEV_GIVE_MUTEX (.ret (.ok (timeOf data)))

/-! ## §5. Alarms. -/

def DS3231_ALARM_WDAY : UInt8 := 0x40
def DS3231_ALARM_NOTSET : UInt8 := 0x80

/-- `ds3231_alarm1_rate_t` -/
inductive Alarm1Rate where
  | DS3231_ALARM1_EVERY_SECOND | DS3231_ALARM1_MATCH_SEC | DS3231_ALARM1_MATCH_SECMIN
  | DS3231_ALARM1_MATCH_SECMINHOUR | DS3231_ALARM1_MATCH_SECMINHOURDAY
  | DS3231_ALARM1_MATCH_SECMINHOURDATE
  deriving DecidableEq

def Alarm1Rate.code : Alarm1Rate → ℕ
  | .DS3231_ALARM1_EVERY_SECOND => 0
  | .DS3231_ALARM1_MATCH_SEC => 1
  | .DS3231_ALARM1_MATCH_SECMIN => 2
  | .DS3231_ALARM1_MATCH_SECMINHOUR => 3
  | .DS3231_ALARM1_MATCH_SECMINHOURDAY => 4
  | .DS3231_ALARM1_MATCH_SECMINHOURDATE => 5

/-- `ds3231_alarm2_rate_t` -/
inductive Alarm2Rate where
  | DS3231_ALARM2_EVERY_MIN | DS3231_ALARM2_MATCH_MIN | DS3231_ALARM2_MATCH_MINHOUR
  | DS3231_ALARM2_MATCH_MINHOURDAY | DS3231_ALARM2_MATCH_MINHOURDATE
  deriving DecidableEq

def Alarm2Rate.code : Alarm2Rate → ℕ
  | .DS3231_ALARM2_EVERY_MIN => 0
  | .DS3231_ALARM2_MATCH_MIN => 1
  | .DS3231_ALARM2_MATCH_MINHOUR => 2
  | .DS3231_ALARM2_MATCH_MINHOURDAY => 3
  | .DS3231_ALARM2_MATCH_MINHOURDATE => 4

/-- A field from its rate on, and `DS3231_ALARM_NOTSET` below it. -/
def alarmField (set : Prop) [Decidable set] (n : ℤ) : UInt8 :=
  if set then dec2bcd (toU8 n) else DS3231_ALARM_NOTSET

/-- The day of the week, or of the month, or none. -/
def alarmDay (day date : Prop) [Decidable day] [Decidable date] (time : StructTm) : UInt8 :=
  if day then dec2bcd (toU8 (time.tm_wday + 1)) &&& DS3231_ALARM_WDAY
  else alarmField date time.tm_mday

open Alarm1Rate Alarm2Rate in
def alarm1Data (time1 : StructTm) (option1 : Alarm1Rate) : List UInt8 :=
  [alarmField (DS3231_ALARM1_MATCH_SEC.code ≤ option1.code) time1.tm_sec,
    alarmField (DS3231_ALARM1_MATCH_SECMIN.code ≤ option1.code) time1.tm_min,
    alarmField (DS3231_ALARM1_MATCH_SECMINHOUR.code ≤ option1.code) time1.tm_hour,
    alarmDay (option1 = DS3231_ALARM1_MATCH_SECMINHOURDAY)
      (option1 = DS3231_ALARM1_MATCH_SECMINHOURDATE) time1]

open Alarm1Rate Alarm2Rate in
def alarm2Data (time2 : StructTm) (option2 : Alarm2Rate) : List UInt8 :=
  [alarmField (DS3231_ALARM2_MATCH_MIN.code ≤ option2.code) time2.tm_min,
    alarmField (DS3231_ALARM2_MATCH_MINHOUR.code ≤ option2.code) time2.tm_hour,
    alarmDay (option2 = DS3231_ALARM2_MATCH_MINHOURDAY)
      (option2 = DS3231_ALARM2_MATCH_MINHOURDATE) time2]

/-- The bytes of one alarm, or none of it; `none` for a time that is missing. -/
def alarmPart (wanted : Bool) (time : Option StructTm) (data : StructTm → List UInt8) :
    Option (List UInt8) :=
  if wanted then time.map data else some []

def ds3231_set_alarm (alarms : Alarm) (time1 : Option StructTm) (option1 : Alarm1Rate)
    (time2 : Option StructTm) (option2 : Alarm2Rate) : Call Unit :=
  match alarmPart (alarms ≠ .DS3231_ALARM_2) time1 (alarm1Data · option1),
      alarmPart (alarms ≠ .DS3231_ALARM_1) time2 (alarm2Data · option2) with
  | some data1, some data2 =>
      I2C_DEV_TAKE_MUTEX <|
        I2C_DEV_CHECK (i2c_dev_write_reg
          (if alarms = .DS3231_ALARM_2 then DS3231_ADDR_ALARM2 else DS3231_ADDR_ALARM1)
          (data1 ++ data2)) fun _ => I2C_DEV_GIVE_MUTEX (.ret (.ok ()))
  | _, _ => .ret (.error ESP_ERR_INVALID_ARG)

/-! ## §6. Calls. -/

/-- What a call gives to its caller. -/
inductive Answer where
  | done
  | flag (b : Bool)
  | byte (b : UInt8)
  | temp (t : ℤ)
  | tempFloat (t : ℚ)
  | time (t : StructTm)

/-- A call of the driver. -/
inductive DriverCall where
  | set_time (time : StructTm)
  | get_time
  | set_alarm (alarms : Alarm) (time1 : Option StructTm) (option1 : Alarm1Rate)
      (time2 : Option StructTm) (option2 : Alarm2Rate)
  | get_oscillator_stop_flag
  | clear_oscillator_stop_flag
  | get_alarm_flags
  | clear_alarm_flags (alarms : Alarm)
  | enable_alarm_ints (alarms : Alarm)
  | disable_alarm_ints (alarms : Alarm)
  | enable_32khz
  | disable_32khz
  | enable_squarewave
  | disable_squarewave
  | set_squarewave_freq (freq : SqwaveFreq)
  | get_squarewave_freq
  | get_raw_temp
  | get_temp_integer
  | get_temp_float
  | set_aging_offset (age_u8 : UInt8)
  | get_aging_offset

/-- The result of a call as an answer. -/
def Call.answer {α : Type} (x : Call α) (f : α → Answer) : Call Answer :=
  andThen x fun a => .ret (.ok (f a))

def DriverCall.prog : DriverCall → Call Answer
  | .set_time time => (ds3231_set_time time).answer fun _ => .done
  | .get_time => ds3231_get_time.answer .time
  | .set_alarm alarms time1 option1 time2 option2 =>
      (ds3231_set_alarm alarms time1 option1 time2 option2).answer fun _ => .done
  | .get_oscillator_stop_flag => ds3231_get_oscillator_stop_flag.answer .flag
  | .clear_oscillator_stop_flag => ds3231_clear_oscillator_stop_flag.answer fun _ => .done
  | .get_alarm_flags => ds3231_get_alarm_flags.answer .byte
  | .clear_alarm_flags alarms => (ds3231_clear_alarm_flags alarms).answer fun _ => .done
  | .enable_alarm_ints alarms => (ds3231_enable_alarm_ints alarms).answer fun _ => .done
  | .disable_alarm_ints alarms => (ds3231_disable_alarm_ints alarms).answer fun _ => .done
  | .enable_32khz => ds3231_enable_32khz.answer fun _ => .done
  | .disable_32khz => ds3231_disable_32khz.answer fun _ => .done
  | .enable_squarewave => ds3231_enable_squarewave.answer fun _ => .done
  | .disable_squarewave => ds3231_disable_squarewave.answer fun _ => .done
  | .set_squarewave_freq freq => (ds3231_set_squarewave_freq freq).answer fun _ => .done
  | .get_squarewave_freq => ds3231_get_squarewave_freq.answer .byte
  | .get_raw_temp => ds3231_get_raw_temp.answer .temp
  | .get_temp_integer => ds3231_get_temp_integer.answer .temp
  | .get_temp_float => ds3231_get_temp_float.answer .tempFloat
  | .set_aging_offset age_u8 => (ds3231_set_aging_offset age_u8).answer fun _ => .done
  | .get_aging_offset => ds3231_get_aging_offset.answer .byte

section Alone

variable {α β : Type}

theorem alone_take (k : Call α) : (I2C_DEV_TAKE_MUTEX k).alone = k.alone := rfl

theorem alone_check (x : Call β) (k : β → Call α) (b : Bus) :
    (I2C_DEV_CHECK x k).alone b =
      match (x.alone b).2 with
      | .ok a => (k a).alone (x.alone b).1
      | .error e => ((x.alone b).1, .error e) := by
  unfold I2C_DEV_CHECK
  rw [Prog.alone_bind]
  cases (x.alone b).2 <;> rfl

theorem alone_andThen (x : Call β) (k : β → Call α) (b : Bus) :
    (andThen x k).alone b =
      match (x.alone b).2 with
      | .ok a => (k a).alone (x.alone b).1
      | .error e => ((x.alone b).1, .error e) := by
  unfold andThen
  rw [Prog.alone_bind]
  cases (x.alone b).2 <;> rfl

theorem alone_read (b : Bus) (reg n : ℕ) :
    (i2c_dev_read_reg reg n).alone b =
      (b.next, match b.transfer.fate with
        | .fine => .ok (load b.next.regs reg n)
        | .failed e _ => .error e) := rfl

theorem alone_write (b : Bus) (reg : ℕ) (data : List UInt8) :
    (i2c_dev_write_reg reg data).alone b =
      match b.transfer.fate with
      | .fine => ({ b.next with regs := store b.next.regs reg data }, .ok ())
      | .failed e stored =>
          ({ b.next with regs := store b.next.regs reg (data.take stored) }, .error e) := by
  simp only [i2c_dev_write_reg, Prog.alone]
  cases b.transfer.fate <;> rfl

end Alone

end StoneHMI.Clock
