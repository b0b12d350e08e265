/-
  StoneHMI.Clock.Time
  ───────────────────
  **THE TIME ON THE CHIP.**

  The chip holds a moment as numbers of two decimal places.  What is set is
  what is read, by any task and between any steps of others, for the years
  from 2000 to 2099 (`clock_time`).  A write that is cut in the middle leaves
  half a time behind, and the chip is known to hold a moment again with the
  next one that succeeds.  The day of the year is one behind after February
  2000 (`yday_iff`).

  Where `DS3221` is defined the system's clock is set from the chip at reset.
  It is set right unless the chip counts twelve hours, or has left its century
  (`set_time_epoch_ds3221_iff`).
-/
import StoneHMI.Clock.Locking
import StoneHMI.Controller.TypedTime

namespace StoneHMI.Clock

open Mutex Registers Labelled Calendar

/-! ## §1. Numbers of two places. -/

def bcd (n : ℤ) : UInt8 := dec2bcd (toU8 n)

theorem toNat_toU8 {n : ℤ} (h0 : 0 ≤ n) (h : n < 256) : ((toU8 n).toNat : ℤ) = n := by
  unfold toU8
  rw [UInt8.toNat_ofNat']
  omega

theorem bcd2dec_dec2bcd : ∀ b : UInt8, b < 160 → bcd2dec (dec2bcd b) = b :=
  forall_byte (by decide +kernel)

theorem toU8_lt {n k : ℤ} (h0 : 0 ≤ n) (h : n < k) (hk : k < 256) : toU8 n < toU8 k := by
  have hn := toNat_toU8 h0 (by omega)
  have hk' := toNat_toU8 (by omega : 0 ≤ k) hk
  rw [UInt8.lt_iff_toNat_lt]
  omega

/-- A number is read as it was written. -/
theorem bcd2dec_bcd {n : ℤ} (h0 : 0 ≤ n) (h : n < 160) : ((bcd2dec (bcd n)).toNat : ℤ) = n := by
  unfold bcd
  rw [bcd2dec_dec2bcd _ (toU8_lt h0 h (by decide)), toNat_toU8 h0 (by omega)]

/-- No month reaches the bits that are masked out. -/
theorem bcd_month : ∀ b : UInt8, b < 20 → dec2bcd b &&& DS3231_MONTH_MASK = dec2bcd b :=
  forall_byte (by decide +kernel)

/-- No hour that is written is one of twelve. -/
theorem bcd_hour : ∀ b : UInt8, b < 40 → dec2bcd b &&& DS3231_12HOUR_FLAG = 0 :=
  forall_byte (by decide +kernel)

/-! ## §2. Moments on the chip. -/

/-- The time is the moment `m`. -/
def Shows (time : StructTm) (m : Moment) : Prop := time.toTm = (Typed.ofMoment m).tm

/-- The seven bytes of a moment. -/
def timeBytes (m : Moment) (wday : UInt8) : List UInt8 :=
  [bcd m.second, bcd m.minute, bcd m.hour, wday, bcd m.date.day, bcd m.date.month,
    bcd (m.date.year - 2000)]

/-- In the years of two places. -/
def InCentury (m : Moment) : Prop := 2000 ≤ m.date.year ∧ m.date.year ≤ 2099

instance (m : Moment) : Decidable (InCentury m) :=
  inferInstanceAs (Decidable (2000 ≤ m.date.year ∧ m.date.year ≤ 2099))

/-- The chip holds the moment `m`. -/
structure Holds (regs : ℕ → UInt8) (m : Moment) : Prop where
  century : InCentury m
  bytes : ∃ wday, load regs DS3231_ADDR_TIME 7 = timeBytes m wday

theorem timeData_shows {time : StructTm} {m : Moment} (h : Shows time m) :
    timeData time = timeBytes m (bcd (time.tm_wday + 1)) := by
  unfold Shows at h
  have hsec : time.tm_sec = m.second := congrArg Tm.tm_sec h
  have hmin : time.tm_min = m.minute := congrArg Tm.tm_min h
  have hhour : time.tm_hour = m.hour := congrArg Tm.tm_hour h
  have hmday : time.tm_mday = m.date.day := congrArg Tm.tm_mday h
  have hmon : time.tm_mon = m.date.month - 1 := congrArg Tm.tm_mon h
  have hyear : time.tm_year = m.date.year - 1900 := congrArg Tm.tm_year h
  unfold timeData timeBytes
  rw [hsec, hmin, hhour, hmday, hmon, hyear, Int.sub_add_cancel, Int.sub_sub]
  rfl

/-- The bytes of a moment are read as that moment. -/
theorem timeOf_timeBytes {m : Moment} (h : InCentury m) (wday : UInt8) :
    Shows (timeOf (timeBytes m wday)) m := by
  have hsecond := m.second_range
  have hminute := m.minute_range
  have hhour := m.hour_range
  have hday := m.date.day_range
  have hdays := daysInMonth_le m.date.year m.date.month
  have hmonth := m.date.month_range
  obtain ⟨hlow, hhigh⟩ := h
  have hplain : hourOf (bcd m.hour) = m.hour := by
    have hflag : bcd m.hour &&& DS3231_12HOUR_FLAG = 0 :=
      bcd_hour _ (toU8_lt hhour.1 (by omega : m.hour < 40) (by decide))
    unfold hourOf
    rw [if_neg (not_not.mpr hflag)]
    exact bcd2dec_bcd hhour.1 (by omega)
  have hmask : bcd m.date.month &&& DS3231_MONTH_MASK = bcd m.date.month :=
    bcd_month _ (toU8_lt (by omega) (by omega : m.date.month < 20) (by decide))
  show Tm.mk ((bcd2dec (bcd (m.date.year - 2000))).toNat + 100)
      ((bcd2dec (bcd m.date.month &&& DS3231_MONTH_MASK)).toNat - 1)
      (bcd2dec (bcd m.date.day)).toNat (hourOf (bcd m.hour)) (bcd2dec (bcd m.minute)).toNat
      (bcd2dec (bcd m.second)).toNat
    = Tm.mk (m.date.year - 1900) (m.date.month - 1) m.date.day m.hour m.minute m.second
  rw [hplain, hmask, bcd2dec_bcd (by omega) (by omega), bcd2dec_bcd (by omega) (by omega),
    bcd2dec_bcd (by omega) (by omega), bcd2dec_bcd (by omega) (by omega),
    bcd2dec_bcd (by omega) (by omega), show m.date.year - 2000 + 100 = m.date.year - 1900 by omega]

/-! ## §3. One call. -/

/-- The chip counts on before each transfer, whatever becomes of the transfer. -/
def Bus.Counts (b : Bus) : Prop :=
  ∀ t ∈ b.coming, ∀ regs m, Holds regs m →
    ∃ m', Holds (t.meanwhile regs) m' ∧ m.seconds ≤ m'.seconds

/-- The time goes on. -/
def GoesOn (b b' : Bus) : Prop :=
  b.Counts → b'.Counts ∧ ∀ m, Holds b.regs m → ∃ m', Holds b'.regs m' ∧ m.seconds ≤ m'.seconds

theorem GoesOn.refl (b : Bus) : GoesOn b b := fun hb => ⟨hb, fun m hm => ⟨m, hm, le_rfl⟩⟩

theorem GoesOn.trans {b b' b'' : Bus} (h : GoesOn b b') (h' : GoesOn b' b'') : GoesOn b b'' := by
  intro hb
  obtain ⟨hb', hkeep⟩ := h hb
  obtain ⟨hb'', hkeep'⟩ := h' hb'
  refine ⟨hb'', fun m hm => ?_⟩
  obtain ⟨m', hm', hle⟩ := hkeep m hm
  obtain ⟨m'', hm'', hle'⟩ := hkeep' m' hm'
  exact ⟨m'', hm'', hle.trans hle'⟩

theorem goesOn_next (b : Bus) : GoesOn b b.next := by
  intro hb
  have hcounts : b.next.Counts := fun t ht => hb t (List.mem_of_mem_tail ht)
  refine ⟨hcounts, fun m hm => ?_⟩
  unfold Bus.next Bus.transfer
  cases hc : b.coming with
  | nil => exact ⟨m, hm, le_rfl⟩
  | cons t ts => exact hb t (hc ▸ List.mem_cons_self) b.regs m hm

theorem Holds.store_behind {regs : ℕ → UInt8} {m : Moment} (h : Holds regs m) {reg : ℕ}
    (hreg : 7 ≤ reg) (data : List UInt8) : Holds (store regs reg data) m := by
  obtain ⟨hcentury, wday, hbytes⟩ := h
  exact ⟨hcentury, wday, by rw [load_store_before regs data (by simpa [DS3231_ADDR_TIME]), hbytes]⟩

section Calls

variable {α β : Type}

theorem read_goesOn (reg n : ℕ) : (i2c_dev_read_reg reg n).Respects GoesOn :=
  ⟨goesOn_next, fun _ => trivial⟩

/-- A write behind the time. -/
theorem write_goesOn {reg : ℕ} (hreg : 7 ≤ reg) (data : List UInt8) :
    (i2c_dev_write_reg reg data).Respects GoesOn := by
  refine ⟨fun b hb => ?_, fun _ => trivial⟩
  obtain ⟨hcounts, hkeep⟩ := goesOn_next b hb
  dsimp only
  -- all of the data or the first bytes of it: none of them belongs to the time
  split
  all_goals
    refine ⟨hcounts, fun m hm => ?_⟩
    obtain ⟨m', hm', hle⟩ := hkeep m hm
    exact ⟨m', hm'.store_behind hreg _, hle⟩

theorem take_goesOn {k : Call α} (hk : k.Respects GoesOn) :
    (I2C_DEV_TAKE_MUTEX k).Respects GoesOn
  | true => hk
  | false => trivial

theorem give_goesOn (r : Except EspError α) :
    (I2C_DEV_GIVE_MUTEX (.ret r)).Respects GoesOn
  | true => trivial
  | false => trivial

theorem check_goesOn {x : Call β} {k : β → Call α} (hx : x.Respects GoesOn)
    (hk : ∀ b, (k b).Respects GoesOn) : (I2C_DEV_CHECK x k).Respects GoesOn := by
  refine Prog.Respects.bind (fun res => ?_) hx
  cases res with
  | ok b => exact hk b
  | error e => exact give_goesOn _

theorem andThen_goesOn {x : Call α} {k : α → Call β} (hx : x.Respects GoesOn)
    (hk : ∀ a, (k a).Respects GoesOn) : (andThen x k).Respects GoesOn := by
  refine Prog.Respects.bind (fun res => ?_) hx
  cases res with
  | ok a => exact hk a
  | error e => trivial

theorem get_flag_goesOn (addr : ℕ) (mask : UInt8) : (ds3231_get_flag addr mask).Respects GoesOn :=
  andThen_goesOn (read_goesOn addr 1) fun _ => trivial

theorem set_flag_goesOn {addr : ℕ} (h : 7 ≤ addr) (bits : UInt8) (mode : Mode) :
    (ds3231_set_flag addr bits mode).Respects GoesOn :=
  andThen_goesOn (read_goesOn addr 1) fun _ => write_goesOn h _

theorem setFlagCall_goesOn {addr : ℕ} (h : 7 ≤ addr) (bits : UInt8) (mode : Mode) :
    (setFlagCall addr bits mode).Respects GoesOn :=
  take_goesOn (check_goesOn (set_flag_goesOn h bits mode) fun _ => give_goesOn _)

theorem getFlagCall_goesOn (addr : ℕ) (mask : UInt8) : (getFlagCall addr mask).Respects GoesOn :=
  take_goesOn (check_goesOn (get_flag_goesOn addr mask) fun _ => give_goesOn _)

theorem readCall_goesOn (reg n : ℕ) (f : List UInt8 → α) :
    (I2C_DEV_TAKE_MUTEX (I2C_DEV_CHECK (i2c_dev_read_reg reg n) fun data =>
      I2C_DEV_GIVE_MUTEX (.ret (.ok (f data))))).Respects GoesOn :=
  take_goesOn (check_goesOn (read_goesOn reg n) fun _ => give_goesOn _)

theorem set_alarm_goesOn (alarms : Alarm) (time1 : Option StructTm) (option1 : Alarm1Rate)
    (time2 : Option StructTm) (option2 : Alarm2Rate) :
    (ds3231_set_alarm alarms time1 option1 time2 option2).Respects GoesOn := by
  unfold ds3231_set_alarm
  split
  · refine take_goesOn (check_goesOn (write_goesOn ?_ _) fun _ => give_goesOn _)
    cases alarms <;> decide
  · trivial

/-- Every call but one leaves the time alone. -/
theorem DriverCall.goesOn (c : DriverCall) (h : ∀ time, c ≠ .set_time time) :
    c.prog.Respects GoesOn := by
  cases c with
  | set_time time => exact absurd rfl (h time)
  | get_time | get_raw_temp | get_aging_offset =>
      exact andThen_goesOn (readCall_goesOn _ _ _) fun _ => trivial
  | set_alarm alarms time1 option1 time2 option2 =>
      exact andThen_goesOn (set_alarm_goesOn _ _ _ _ _) fun _ => trivial
  | get_oscillator_stop_flag =>
      exact andThen_goesOn (andThen_goesOn (getFlagCall_goesOn _ _) fun _ => trivial)
        fun _ => trivial
  | get_alarm_flags => exact andThen_goesOn (getFlagCall_goesOn _ _) fun _ => trivial
  | clear_oscillator_stop_flag | clear_alarm_flags | enable_alarm_ints | disable_alarm_ints
  | enable_32khz | disable_32khz | enable_squarewave | disable_squarewave =>
      exact andThen_goesOn (setFlagCall_goesOn (by decide) _ _) fun _ => trivial
  | set_squarewave_freq freq =>
      refine andThen_goesOn (take_goesOn (check_goesOn (get_flag_goesOn _ _) fun _ => ?_))
        fun _ => trivial
      exact check_goesOn (set_flag_goesOn (by decide) _ _) fun _ => give_goesOn _
  | get_squarewave_freq =>
      refine andThen_goesOn (take_goesOn (check_goesOn (get_flag_goesOn _ _) fun _ => ?_))
        fun _ => trivial
      exact give_goesOn _
  | get_temp_integer | get_temp_float =>
      exact andThen_goesOn (andThen_goesOn (readCall_goesOn _ _ _) fun _ => trivial)
        fun _ => trivial
  | set_aging_offset age_u8 =>
      refine andThen_goesOn (take_goesOn (check_goesOn (write_goesOn (by decide) _) fun _ => ?_))
        fun _ => trivial
      exact check_goesOn (set_flag_goesOn (by decide) _ _) fun _ => give_goesOn _

end Calls

/-! ## §4. Every interleaving. -/

/-- What the chip is known to hold goes on: a moment to one that is not before it, and half a
time to half a time. -/
def GoesTo : Option Moment → Option Moment → Prop
  | none, s => s = none
  | some m, s => ∃ m' ∈ s, m.seconds ≤ m'.seconds

/-- What a call makes of what the chip is known to hold.  The time goes on.  When it is set, it
goes on from there; if setting it failed, from there, from where it was, or it is half set.  When
it is read, it is that of the moment, and of no moment if it was half set. -/
def DriverCall.Clocks (c : DriverCall) (s s' : Option Moment) (r : Except EspError Answer) : Prop :=
  match c with
  | .set_time time => ∃ m₁, Shows time m₁ ∧
      (GoesTo (some m₁) s' ∨ (GoesTo s s' ∨ s' = none) ∧ ∀ a, r ≠ .ok a)
  | .get_time => GoesTo s s' ∧ ∀ a, r = .ok a → ∃ time, a = .time time ∧ ∀ m ∈ s', Shows time m
  | _ => GoesTo s s'

/-- A call that sets the time sets a moment of the century. -/
def DriverCall.SetsMoment (c : DriverCall) : Prop :=
  ∀ time, c = .set_time time → ∃ m, Shows time m ∧ InCentury m

theorem holds_stored {time : StructTm} {m : Moment} (h : Shows time m) (hm : InCentury m)
    (regs : ℕ → UInt8) : Holds (store regs DS3231_ADDR_TIME (timeData time)) m :=
  ⟨hm, _, (load_store_same regs DS3231_ADDR_TIME (timeData time)).trans (timeData_shows h)⟩

theorem alone_set_time (time : StructTm) (b : Bus) :
    (DriverCall.set_time time).prog.alone b =
      match b.transfer.fate with
      | .fine =>
          ({ b.next with regs := store b.next.regs DS3231_ADDR_TIME (timeData time) }, .ok .done)
      | .failed e stored =>
          ({ b.next with regs := store b.next.regs DS3231_ADDR_TIME ((timeData time).take stored) },
            .error e) := by
  unfold DriverCall.prog Call.answer ds3231_set_time
  rw [alone_andThen, alone_take, alone_check, alone_write]
  cases b.transfer.fate <;> rfl

theorem alone_get_time (b : Bus) :
    ds3231_get_time.alone b =
      (b.next, match b.transfer.fate with
        | .fine => .ok (timeOf (load b.next.regs DS3231_ADDR_TIME 7))
        | .failed e _ => .error e) := by
  unfold ds3231_get_time
  rw [alone_take, alone_check, alone_read]
  cases b.transfer.fate <;> rfl

/-- The chip counts on, and holds what it is known to hold. -/
structure Bus.Knows (b : Bus) (s : Option Moment) : Prop where
  counts : b.Counts
  holds : ∀ m ∈ s, Holds b.regs m

theorem GoesOn.exists_goesTo {b b' : Bus} (h : GoesOn b b') {s : Option Moment} (hs : b.Knows s) :
    ∃ s', b'.Knows s' ∧ GoesTo s s' := by
  obtain ⟨hcounts, hkeep⟩ := h hs.counts
  cases s with
  | none => exact ⟨none, ⟨hcounts, fun m hm => by cases hm⟩, rfl⟩
  | some m =>
      obtain ⟨m', hm', hle⟩ := hkeep m (hs.holds m rfl)
      refine ⟨some m', ⟨hcounts, fun n hn => ?_⟩, m', rfl, hle⟩
      cases hn
      exact hm'

theorem set_time_clocks {time : StructTm} (hset : (DriverCall.set_time time).SetsMoment) {b : Bus}
    {s : Option Moment} (hs : b.Knows s) :
    ∃ s', ((DriverCall.set_time time).prog.alone b).1.Knows s' ∧
      (DriverCall.set_time time).Clocks s s' ((DriverCall.set_time time).prog.alone b).2 := by
  obtain ⟨m₁, hshows, hcentury⟩ := hset time rfl
  obtain ⟨s', hs', hgoes⟩ := (goesOn_next b).exists_goesTo hs
  have hstored : ∀ m ∈ some m₁, Holds (store b.next.regs DS3231_ADDR_TIME (timeData time)) m := by
    intro m hm
    cases hm
    exact holds_stored hshows hcentury _
  have hset : GoesTo (some m₁) (some m₁) := ⟨m₁, rfl, le_rfl⟩
  rw [alone_set_time]
  unfold DriverCall.Clocks
  cases hf : b.transfer.fate with
  | fine => exact ⟨some m₁, ⟨hs'.counts, hstored⟩, m₁, hshows, Or.inl hset⟩
  | failed e stored =>
      by_cases h0 : stored = 0
      · -- nothing was stored, and the time goes on
        have hold : ∀ m ∈ s', Holds (store b.next.regs DS3231_ADDR_TIME
            ((timeData time).take stored)) m := by
          rw [h0, List.take_zero, store_nil]
          exact hs'.holds
        exact ⟨s', ⟨hs'.counts, hold⟩, m₁, hshows, Or.inr ⟨Or.inl hgoes, fun a ha => by cases ha⟩⟩
      · by_cases h7 : 7 ≤ stored
        · -- all seven bytes are there, though the call fails
          have hwhole : (timeData time).take stored = timeData time := List.take_of_length_le h7
          rw [← hwhole] at hstored
          exact ⟨some m₁, ⟨hs'.counts, hstored⟩, m₁, hshows, Or.inl hset⟩
        · -- half a time
          exact ⟨none, ⟨hs'.counts, fun m hm => by cases hm⟩, m₁, hshows,
            Or.inr ⟨Or.inr rfl, fun a ha => by cases ha⟩⟩

theorem get_time_clocks {b : Bus} {s : Option Moment} (hs : b.Knows s) :
    ∃ s', (DriverCall.get_time.prog.alone b).1.Knows s' ∧
      DriverCall.get_time.Clocks s s' (DriverCall.get_time.prog.alone b).2 := by
  obtain ⟨s', hs', hgoes⟩ := (goesOn_next b).exists_goesTo hs
  unfold DriverCall.prog Call.answer DriverCall.Clocks
  rw [alone_andThen, alone_get_time]
  cases b.transfer.fate with
  | fine =>
      refine ⟨s', hs', hgoes, fun a ha => ⟨_, (Except.ok.inj ha).symm, fun m hm => ?_⟩⟩
      obtain ⟨hcentury, wday, hbytes⟩ := hs'.holds m hm
      rw [hbytes]
      exact timeOf_timeBytes hcentury wday
  | failed e stored => exact ⟨s', hs', hgoes, fun a ha => by cases ha⟩

/-- **Every call keeps the time.** -/
theorem DriverCall.clocks (c : DriverCall) (hset : c.SetsMoment) (b : Bus) (s : Option Moment)
    (hs : b.Knows s) :
    ∃ s', (c.prog.alone b).1.Knows s' ∧ c.Clocks s s' (c.prog.alone b).2 := by
  cases c with
  | set_time time => exact set_time_clocks hset hs
  | get_time => exact get_time_clocks hs
  | _ =>
      refine GoesOn.exists_goesTo ?_ hs
      refine (DriverCall.goesOn _ ?_).alone GoesOn.refl GoesOn.trans b
      intro time heq
      cases heq

/-- Half a minute before the leap day of 2024 is over. -/
def leapEvening : Moment := ofSeconds 1709251170

/-- A chip that holds this moment; the first write to it ends after three bytes. -/
def eveningBus : Bus :=
  { regs := fun i => (timeBytes leapEvening 5).getD i 0
    coming := [⟨id, .failed ESP_FAIL 3⟩] }

/-- The last second of February 2000. -/
def februaryTime : StructTm :=
  { (Typed.ofMoment (ofSeconds 951868799)).tm with tm_wday := 2, tm_yday := none, tm_isdst := 0 }

/-- One task sets the time, and once more when that has failed; the other reads it in between,
and after that. -/
def settingRun : List (DriverStep Bool) :=
  [.call true .get_time, .call false (.set_time februaryTime),
    .go false true, .go false true, .go false true, .go false true,
    .go true true, .go true true, .go true true, .go true true,
    .call false (.set_time februaryTime),
    .go false true, .go false true, .go false true, .go false true,
    .call true .get_time, .go true true, .go true true, .go true true, .go true true]

theorem eveningBus_knows : eveningBus.Knows (some leapEvening) where
  counts := by
    intro t ht regs m hm
    rw [List.mem_singleton.mp ht]
    exact ⟨m, hm, le_rfl⟩
  holds := by
    intro m hm
    cases hm
    exact ⟨by decide +kernel, 5, by decide +kernel⟩

theorem settingRun_sets : ∀ i c, DriverStep.call i c ∈ settingRun → c.SetsMoment := by
  rintro i c h time rfl
  refine ⟨ofSeconds 951868799, ?_, by decide +kernel⟩
  simp only [settingRun, List.mem_cons, DriverStep.call.injEq, reduceCtorEq, and_false, false_or,
    List.not_mem_nil, or_false, DriverCall.set_time.injEq, or_self] at h
  rw [h.2]
  rfl

/-- The days of the year before the moment. -/
def yearDay (m : Moment) : ℤ := daysBeforeMonth m.date.year m.date.month + (m.date.day - 1)

/-- The driver's rule for leap years, for a year that counts from 1900. -/
theorem leap_from_1900 {y : ℤ} (h : 2000 ≤ y ∧ y ≤ 2099) :
    (((y - 1900) % 4 = 0 ∧ (y - 1900) % 100 ≠ 0) ∨ (y - 1900) % 400 = 0) ↔
      isLeap y = true ∧ y ≠ 2000 := by
  rw [isLeap_iff]
  omega

theorem sum_days_per_month (leap : Prop) [Decidable leap] {k : ℕ} (h : k < 12) :
    ((if leap then days_per_month_leap_year else days_per_month).take k).sum
      = (367 * (k + 1 : ℤ) - 362) / 12 - if (k + 1 : ℤ) ≤ 2 then 0 else if leap then 1 else 2 := by
  by_cases hl : leap
  · simp only [if_pos hl]
    interval_cases k <;> rfl
  · simp only [if_neg hl]
    interval_cases k <;> rfl

/-- **THE DAY OF THE YEAR.**  It is right except after February 2000, for the driver takes
the year 2000, which it counts as 100, for a common one. -/
theorem yday_iff {m : Moment} (h : InCentury m) (wday : UInt8) :
    (timeOf (timeBytes m wday)).tm_yday = some (yearDay m) ↔
      ¬ (m.date.year = 2000 ∧ 2 < m.date.month) := by
  have hshows := timeOf_timeBytes h wday
  have hmonth := m.date.month_range
  obtain ⟨k, hk⟩ := Int.eq_ofNat_of_zero_le (by omega : 0 ≤ m.date.month - 1)
  have hyday : (timeOf (timeBytes m wday)).tm_yday
      = days_since_january_1st (m.date.year - 1900) (m.date.month - 1) m.date.day := by
    show days_since_january_1st (timeOf (timeBytes m wday)).tm_year
      (timeOf (timeBytes m wday)).tm_mon (timeOf (timeBytes m wday)).tm_mday = _
    rw [show (timeOf (timeBytes m wday)).tm_year = _ from congrArg Tm.tm_year hshows,
      show (timeOf (timeBytes m wday)).tm_mon = _ from congrArg Tm.tm_mon hshows,
      show (timeOf (timeBytes m wday)).tm_mday = _ from congrArg Tm.tm_mday hshows]
    rfl
  rw [hyday]
  unfold days_since_january_1st yearDay daysBeforeMonth
  rw [if_pos (by omega), Option.some.injEq, sum_days_per_month _ (by omega)]
  have hleap := leap_from_1900 h
  have hcast : (((m.date.month - 1).toNat : ℤ) + 1) = m.date.month := by omega
  rw [hcast]
  by_cases hyear : m.date.year = 2000
  · have htrue : isLeap m.date.year = true := by rw [hyear]; rfl
    rw [if_neg (fun hc => (hleap.mp hc).2 hyear), if_pos htrue]
    split <;> omega
  · by_cases hl : isLeap m.date.year = true
    · rw [if_pos (hleap.mpr ⟨hl, hyear⟩), if_pos hl]
      omega
    · rw [if_neg (fun hc => hl (hleap.mp hc).1), if_neg hl]
      omega

theorem yday_iff_evening :
    InCentury leapEvening ∧
      ((timeOf (timeBytes leapEvening 5)).tm_yday = some (yearDay leapEvening) ↔
        ¬ (leapEvening.date.year = 2000 ∧ 2 < leapEvening.date.month)) :=
  ⟨by decide +kernel, yday_iff (by decide +kernel) 5⟩

/-! ## §6. The clock at reset. -/

/-- `set_time_epoch_ds3221`, once the driver knows the chip: what it gives to
`settimeofday`, if it could read the time. -/
def set_time_epoch_ds3221 (b : Bus) : Bus × Option ℤ :=
  match ds3231_get_time.alone b with
  | (b', .ok time) => (b', some (mktime time.toTm))
  | (b', .error _) => (b', none)

/-- An hour on a chip that counts twelve, or all of them. -/
def hourByte (twelve : Bool) (h : ℤ) : UInt8 :=
  if twelve then
    DS3231_12HOUR_FLAG ||| (if 12 ≤ h then DS3231_PM_FLAG else 0) ||| bcd ((h + 11) % 12 + 1)
  else bcd h

/-- The month, and a bit for the second century. -/
def monthByte (m : Moment) : UInt8 :=
  (if 2100 ≤ m.date.year then 0x80 else 0) ||| bcd m.date.month

/-- The bytes of a moment, as the chip counts. -/
def chipBytes (twelve : Bool) (m : Moment) (wday : UInt8) : List UInt8 :=
  [bcd m.second, bcd m.minute, hourByte twelve m.hour, wday, bcd m.date.day, monthByte m,
    bcd (m.date.year % 100)]

/-- Twelve hours are read as others, and all of them as they are. -/
theorem hourOf_hourByte (twelve : Bool) {h : ℤ} (h0 : 0 ≤ h) (h24 : h < 24) :
    hourOf (hourByte twelve h) = h + if twelve then (if h % 12 = 0 then 11 else -1) else 0 := by
  cases twelve <;> interval_cases h <;> decide

theorem bcd_monthByte (century : UInt8) (hc : century = 0x80 ∨ century = 0) : ∀ b : UInt8, b < 20 →
    (century ||| dec2bcd b) &&& DS3231_MONTH_MASK = dec2bcd b := by
  rcases hc with rfl | rfl <;> exact forall_byte (by decide +kernel)

/-- A hundred years before, a day has a number that is smaller by far. -/
theorem dayNumber_century (y m d : ℤ) :
    dayNumber (y - 100) m d + 36523 ≤ dayNumber y m d := by
  have hyears : daysBeforeYear (y - 100) + 36524 ≤ daysBeforeYear y := by
    unfold daysBeforeYear
    omega
  have hmonths : daysBeforeMonth (y - 100) m ≤ daysBeforeMonth y m + 1 := by
    unfold daysBeforeMonth
    split_ifs <;> omega
  unfold dayNumber
  omega

/-- What is read of the chip, as a second. -/
theorem mktime_chipBytes (twelve : Bool) {m : Moment} (h : 2000 ≤ m.date.year ∧ m.date.year ≤ 2199)
    (wday : UInt8) :
    mktime (timeOf (chipBytes twelve m wday)).toTm =
      epochSeconds
        (dayNumber (m.date.year - if 2100 ≤ m.date.year then 100 else 0) m.date.month m.date.day)
        (m.hour + if twelve then (if m.hour % 12 = 0 then 11 else -1) else 0) m.minute m.second := by
  have hsecond := m.second_range
  have hminute := m.minute_range
  have hday := m.date.day_range
  have hdays := daysInMonth_le m.date.year m.date.month
  have hmonth := m.date.month_range
  have hmask : monthByte m &&& DS3231_MONTH_MASK = bcd m.date.month := by
    refine bcd_monthByte _ ?_ _ (toU8_lt (by omega) (by omega : m.date.month < 20) (by decide))
    split
    · exact Or.inl rfl
    · exact Or.inr rfl
  show epochSeconds (dayNumber
      ((bcd2dec (bcd (m.date.year % 100))).toNat + 100 + 1900
        + ((bcd2dec (monthByte m &&& DS3231_MONTH_MASK)).toNat - 1 : ℤ) / 12)
      (((bcd2dec (monthByte m &&& DS3231_MONTH_MASK)).toNat - 1 : ℤ) % 12 + 1)
      (bcd2dec (bcd m.date.day)).toNat)
    (hourOf (hourByte twelve m.hour)) (bcd2dec (bcd m.minute)).toNat
    (bcd2dec (bcd m.second)).toNat = _
  rw [hmask, hourOf_hourByte twelve m.hour_range.1 m.hour_range.2,
    bcd2dec_bcd (by omega) (by omega), bcd2dec_bcd (by omega) (by omega),
    bcd2dec_bcd (by omega) (by omega), bcd2dec_bcd (by omega) (by omega),
    bcd2dec_bcd (by omega) (by omega)]
  have hyears : m.date.year % 100 + 100 + 1900 + (m.date.month - 1) / 12
      = m.date.year - if 2100 ≤ m.date.year then 100 else 0 := by
    split <;> omega
  rw [hyears, show (m.date.month - 1) % 12 + 1 = m.date.month by omega]

/-- **THE CLOCK AT RESET.**  The system's clock is set to the moment that the chip
holds exactly when the chip counts all hours, and has not left its century. -/
theorem set_time_epoch_ds3221_iff {b : Bus} {m : Moment} {twelve : Bool} {wday : UInt8}
    (hbytes : load b.next.regs DS3231_ADDR_TIME 7 = chipBytes twelve m wday)
    (hyear : 2000 ≤ m.date.year ∧ m.date.year ≤ 2199) (hfine : b.transfer.fate = .fine) :
    (set_time_epoch_ds3221 b).2 = some m.seconds ↔ twelve = false ∧ m.date.year ≤ 2099 := by
  have hset : (set_time_epoch_ds3221 b).2 = some (mktime (timeOf (chipBytes twelve m wday)).toTm) := by
    unfold set_time_epoch_ds3221
    rw [alone_get_time, hfine, hbytes]
  rw [hset, Option.some.injEq, mktime_chipBytes twelve hyear]
  unfold Moment.seconds Date.number epochSeconds
  -- twelve hours are off by less than a day, and a century by more
  have hoff : ∀ off : ℤ, off = (if m.hour % 12 = 0 then 11 else -1) → off ≠ 0 ∧ -1 ≤ off ∧ off ≤ 11 := by
    intro off hoff
    split at hoff <;> omega
  by_cases hcentury : 2100 ≤ m.date.year
  · have hback := dayNumber_century m.date.year m.date.month m.date.day
    rw [if_pos hcentury]
    refine iff_of_false (fun heq => ?_) (fun h => by omega)
    cases twelve with
    | false =>
        simp only [Bool.false_eq_true, if_false] at heq
        omega
    | true =>
        simp only [if_true] at heq
        have h := hoff _ rfl
        omega
  · rw [if_neg hcentury, Int.sub_zero]
    cases twelve with
    | false =>
        refine iff_of_true ?_ ⟨rfl, by omega⟩
        simp only [Bool.false_eq_true, if_false, Int.add_zero]
    | true =>
        refine iff_of_false (fun heq => ?_) (fun h => by cases h.1)
        simp only [if_true] at heq
        have h := hoff _ rfl
        omega

/-- The same chip, but it counts twelve hours. -/
def twelveBus : Bus := { regs := fun i => (chipBytes true leapEvening 5).getD i 0, coming := [] }

theorem twelveBus_bytes :
    load twelveBus.next.regs DS3231_ADDR_TIME 7 = chipBytes true leapEvening 5 := by
  decide +kernel

theorem set_time_epoch_ds3221_twelve :
    load twelveBus.next.regs DS3231_ADDR_TIME 7 = chipBytes true leapEvening 5 ∧
      ((set_time_epoch_ds3221 twelveBus).2 = some leapEvening.seconds ↔
        true = false ∧ leapEvening.date.year ≤ 2099) :=
  ⟨twelveBus_bytes, set_time_epoch_ds3221_iff twelveBus_bytes (by decide +kernel) rfl⟩

end StoneHMI.Clock
