/-
  StoneHMI.Clock.Alarm
  ────────────────────
  **WHEN AN ALARM GOES OFF.**

  The chip compares the bytes of an alarm with those of its time: a byte with
  its high bit set is not compared, and the last one is a day of the week or
  of the month.  An alarm that the driver sets goes off at the moments that
  its rate names — but by a day of the week never (`set_alarm_rings`), for the
  byte of the day is masked where a flag should be added to it.
-/
import StoneHMI.Clock.Settings
import StoneHMI.Clock.Time

namespace StoneHMI.Clock

open Mutex Registers Calendar

/-! ## §1. The chip. -/

/-- A byte of an alarm, and that of the time. -/
def FieldRings (alarm now : UInt8) : Prop := alarm &&& DS3231_ALARM_NOTSET ≠ 0 ∨ alarm = now

/-- The day: of the week, or of the month. -/
def DayRings (alarm wday day : UInt8) : Prop :=
  alarm &&& DS3231_ALARM_NOTSET ≠ 0 ∨
    if alarm &&& DS3231_ALARM_WDAY ≠ 0 then alarm &&& 0x0f = wday else alarm &&& 0x3f = day

/-- The four bytes of the first alarm, and the seven of the time. -/
def Alarm1Rings (alarm now : List UInt8) : Prop :=
  FieldRings (alarm.getD 0 0) (now.getD 0 0) ∧ FieldRings (alarm.getD 1 0) (now.getD 1 0) ∧
    FieldRings (alarm.getD 2 0) (now.getD 2 0) ∧
    DayRings (alarm.getD 3 0) (now.getD 3 0) (now.getD 4 0)

/-- The three bytes of the second one, which has no seconds. -/
def Alarm2Rings (alarm now : List UInt8) : Prop :=
  FieldRings (alarm.getD 0 0) (now.getD 1 0) ∧ FieldRings (alarm.getD 1 0) (now.getD 2 0) ∧
    DayRings (alarm.getD 2 0) (now.getD 3 0) (now.getD 4 0)

/-! ## §2. The rates. -/

/-- The moments that a rate names for a time. -/
def Alarm1Rate.Names (time : StructTm) (m : Moment) (wday : ℤ) : Alarm1Rate → Prop
  | .DS3231_ALARM1_EVERY_SECOND => True
  | .DS3231_ALARM1_MATCH_SEC => time.tm_sec = m.second
  | .DS3231_ALARM1_MATCH_SECMIN => time.tm_sec = m.second ∧ time.tm_min = m.minute
  | .DS3231_ALARM1_MATCH_SECMINHOUR =>
      time.tm_sec = m.second ∧ time.tm_min = m.minute ∧ time.tm_hour = m.hour
  | .DS3231_ALARM1_MATCH_SECMINHOURDAY =>
      time.tm_sec = m.second ∧ time.tm_min = m.minute ∧ time.tm_hour = m.hour ∧
        time.tm_wday = wday
  | .DS3231_ALARM1_MATCH_SECMINHOURDATE =>
      time.tm_sec = m.second ∧ time.tm_min = m.minute ∧ time.tm_hour = m.hour ∧
        time.tm_mday = m.date.day

def Alarm2Rate.Names (time : StructTm) (m : Moment) (wday : ℤ) : Alarm2Rate → Prop
  | .DS3231_ALARM2_EVERY_MIN => True
  | .DS3231_ALARM2_MATCH_MIN => time.tm_min = m.minute
  | .DS3231_ALARM2_MATCH_MINHOUR => time.tm_min = m.minute ∧ time.tm_hour = m.hour
  | .DS3231_ALARM2_MATCH_MINHOURDAY =>
      time.tm_min = m.minute ∧ time.tm_hour = m.hour ∧ time.tm_wday = wday
  | .DS3231_ALARM2_MATCH_MINHOURDATE =>
      time.tm_min = m.minute ∧ time.tm_hour = m.hour ∧ time.tm_mday = m.date.day

/-- The fields are some of a time. -/
structure AlarmTime (time : StructTm) : Prop where
  second : 0 ≤ time.tm_sec ∧ time.tm_sec < 60
  minute : 0 ≤ time.tm_min ∧ time.tm_min < 60
  hour : 0 ≤ time.tm_hour ∧ time.tm_hour < 24
  mday : 1 ≤ time.tm_mday ∧ time.tm_mday ≤ 31
  wday : 0 ≤ time.tm_wday ∧ time.tm_wday ≤ 6

/-! ## §3. Bytes. -/

/-- Numbers of days have neither of the two flags. -/
theorem bcd_flags : ∀ b : UInt8, b < 40 →
    dec2bcd b &&& DS3231_ALARM_NOTSET = 0 ∧ dec2bcd b &&& DS3231_ALARM_WDAY = 0 ∧
      dec2bcd b &&& 0x3f = dec2bcd b :=
  forall_byte (by decide +kernel)

theorem bcd_notset : ∀ b : UInt8, b < 80 → dec2bcd b &&& DS3231_ALARM_NOTSET = 0 :=
  forall_byte (by decide +kernel)

theorem bcd_inj {n k : ℤ} (hn : 0 ≤ n ∧ n < 160) (hk : 0 ≤ k ∧ k < 160) :
    bcd n = bcd k ↔ n = k := by
  refine ⟨fun h => ?_, fun h => by rw [h]⟩
  rw [← bcd2dec_bcd hn.1 hn.2, h, bcd2dec_bcd hk.1 hk.2]

theorem fieldRings_alarmField {set : Prop} [Decidable set] {n k : ℤ} (hn : 0 ≤ n ∧ n < 80)
    (hk : 0 ≤ k ∧ k < 80) : FieldRings (alarmField set n) (bcd k) ↔ (set → n = k) := by
  unfold FieldRings alarmField
  by_cases hset : set
  · have hmask : bcd n &&& DS3231_ALARM_NOTSET = 0 :=
      bcd_notset _ (toU8_lt hn.1 hn.2 (by decide))
    rw [if_pos hset]
    show bcd n &&& DS3231_ALARM_NOTSET ≠ 0 ∨ bcd n = bcd k ↔ _
    rw [bcd_inj (by omega) (by omega)]
    simp [hmask, hset]
  · rw [if_neg hset]
    exact iff_of_true (Or.inl (by decide)) fun h => absurd h hset

/-- A day of the week is no day at all. -/
theorem dayRings_alarmDay {day date : Prop} [Decidable day] [Decidable date] {time : StructTm}
    (h : AlarmTime time) {k : ℤ} (hk : 1 ≤ k ∧ k ≤ 31) (wday : UInt8) :
    DayRings (alarmDay day date time) wday (bcd k) ↔ ¬ day ∧ (date → time.tm_mday = k) := by
  obtain ⟨hmday, hmday'⟩ := h.mday
  obtain ⟨hwday, hwday'⟩ := h.wday
  have hk' : bcd k ≠ 0 := by
    rw [show (0 : UInt8) = bcd 0 from rfl, Ne, bcd_inj (by omega) (by omega)]
    omega
  unfold DayRings alarmDay
  by_cases hday : day
  · -- nothing of the day is left
    have hzero : bcd (time.tm_wday + 1) &&& DS3231_ALARM_WDAY = 0 :=
      (bcd_flags _ (toU8_lt (by omega) (by omega : time.tm_wday + 1 < 40) (by decide))).2.1
    rw [if_pos hday]
    show (bcd (time.tm_wday + 1) &&& DS3231_ALARM_WDAY) &&& DS3231_ALARM_NOTSET ≠ 0 ∨
      (if (bcd (time.tm_wday + 1) &&& DS3231_ALARM_WDAY) &&& DS3231_ALARM_WDAY ≠ 0 then _
        else (bcd (time.tm_wday + 1) &&& DS3231_ALARM_WDAY) &&& 0x3f = bcd k) ↔ _
    have hnoflag : ¬ ((0 : UInt8) &&& DS3231_ALARM_WDAY ≠ 0) := by decide
    rw [hzero, if_neg hnoflag]
    refine iff_of_false (fun hrings => ?_) fun h => h.1 hday
    rcases hrings with hrings | hrings
    · exact hrings rfl
    · exact hk' hrings.symm
  · rw [if_neg hday]
    unfold alarmField
    by_cases hdate : date
    · obtain ⟨hset, hflag, hmask⟩ :=
        bcd_flags _ (toU8_lt (by omega) (by omega : time.tm_mday < 40) (by decide))
      rw [if_pos hdate, hset, hflag, hmask]
      show (0 : UInt8) ≠ 0 ∨ (if (0 : UInt8) ≠ 0 then _ else bcd time.tm_mday = bcd k) ↔ _
      rw [if_neg (not_not.mpr rfl), bcd_inj (by omega) (by omega)]
      simp [hday, hdate]
    · rw [if_neg hdate]
      exact iff_of_true (Or.inl (by decide)) ⟨hday, fun h => absurd h hdate⟩

/-! ## §4. The alarms that are set. -/

theorem alarm1_rings {time1 : StructTm} (h : AlarmTime time1) (option1 : Alarm1Rate) (m : Moment)
    (wday : ℤ) :
    Alarm1Rings (alarm1Data time1 option1) (timeBytes m (bcd (wday + 1))) ↔
      option1 ≠ .DS3231_ALARM1_MATCH_SECMINHOURDAY ∧ option1.Names time1 m wday := by
  have hday := m.date.day_range
  have hdays := daysInMonth_le m.date.year m.date.month
  have hhour := m.hour_range
  have hminute := m.minute_range
  have hsecond := m.second_range
  unfold Alarm1Rings
  show FieldRings (alarmField _ time1.tm_sec) (bcd m.second) ∧
    FieldRings (alarmField _ time1.tm_min) (bcd m.minute) ∧
    FieldRings (alarmField _ time1.tm_hour) (bcd m.hour) ∧
    DayRings (alarmDay _ _ time1) (bcd (wday + 1)) (bcd m.date.day) ↔ _
  have hs := h.second
  have hm := h.minute
  have hh := h.hour
  rw [fieldRings_alarmField (by omega) (by omega), fieldRings_alarmField (by omega) (by omega),
    fieldRings_alarmField (by omega) (by omega), dayRings_alarmDay h (by omega)]
  cases option1 <;> simp [Alarm1Rate.code, Alarm1Rate.Names]

theorem alarm2_rings {time2 : StructTm} (h : AlarmTime time2) (option2 : Alarm2Rate) (m : Moment)
    (wday : ℤ) :
    Alarm2Rings (alarm2Data time2 option2) (timeBytes m (bcd (wday + 1))) ↔
      option2 ≠ .DS3231_ALARM2_MATCH_MINHOURDAY ∧ option2.Names time2 m wday := by
  have hday := m.date.day_range
  have hdays := daysInMonth_le m.date.year m.date.month
  have hhour := m.hour_range
  have hminute := m.minute_range
  unfold Alarm2Rings
  show FieldRings (alarmField _ time2.tm_min) (bcd m.minute) ∧
    FieldRings (alarmField _ time2.tm_hour) (bcd m.hour) ∧
    DayRings (alarmDay _ _ time2) (bcd (wday + 1)) (bcd m.date.day) ↔ _
  have hm := h.minute
  have hh := h.hour
  rw [fieldRings_alarmField (by omega) (by omega), fieldRings_alarmField (by omega) (by omega),
    dayRings_alarmDay h (by omega)]
  cases option2 <;> simp [Alarm2Rate.code, Alarm2Rate.Names]

/-- A call that is well has stored the bytes. -/
theorem set_alarm_stored {alarms : Alarm} {time1 : Option StructTm} {option1 : Alarm1Rate}
    {time2 : Option StructTm} {option2 : Alarm2Rate} {b : Bus}
    (hok : ((ds3231_set_alarm alarms time1 option1 time2 option2).alone b).2 = .ok ()) :
    ∃ offset data, alarmBytes alarms time1 option1 time2 option2 = some (offset, data) ∧
      ((ds3231_set_alarm alarms time1 option1 time2 option2).alone b).1.regs =
        store b.next.regs (DS3231_ADDR_ALARM1 + offset) data := by
  rw [set_alarm_eq] at hok ⊢
  cases hbytes : alarmBytes alarms time1 option1 time2 option2 with
  | none =>
      rw [hbytes] at hok
      cases hok
  | some bytes =>
      obtain ⟨offset, data⟩ := bytes
      rw [hbytes] at hok
      refine ⟨offset, data, rfl, ?_⟩
      dsimp only at hok ⊢
      rw [alone_take, alone_check, alone_write] at hok ⊢
      cases hfate : b.transfer.fate with
      | fine => rfl
      | failed e stored =>
          rw [hfate] at hok
          cases hok

/-- The bytes of each alarm that a call sets. -/
theorem set_alarm_loads {alarms : Alarm} {time1 : Option StructTm} {option1 : Alarm1Rate}
    {time2 : Option StructTm} {option2 : Alarm2Rate} {b : Bus}
    (hok : ((ds3231_set_alarm alarms time1 option1 time2 option2).alone b).2 = .ok ()) :
    (alarms ≠ .DS3231_ALARM_2 → ∃ t, time1 = some t ∧
      load ((ds3231_set_alarm alarms time1 option1 time2 option2).alone b).1.regs
        DS3231_ADDR_ALARM1 4 = alarm1Data t option1) ∧
    (alarms ≠ .DS3231_ALARM_1 → ∃ t, time2 = some t ∧
      load ((ds3231_set_alarm alarms time1 option1 time2 option2).alone b).1.regs
        DS3231_ADDR_ALARM2 3 = alarm2Data t option2) := by
  obtain ⟨offset, data, hbytes, hregs⟩ := set_alarm_stored hok
  rw [hregs]
  have hboth : ∀ t t', load (store b.next.regs DS3231_ADDR_ALARM1
      (alarm1Data t option1 ++ alarm2Data t' option2)) DS3231_ADDR_ALARM1 4
        = alarm1Data t option1 ∧
      load (store b.next.regs DS3231_ADDR_ALARM1
        (alarm1Data t option1 ++ alarm2Data t' option2)) DS3231_ADDR_ALARM2 3
        = alarm2Data t' option2 := by
    intro t t'
    rw [store_append]
    refine ⟨?_, load_store_same _ _ (alarm2Data t' option2)⟩
    exact (load_store_before _ _ (le_refl (7 + 4))).trans
      (load_store_same _ _ (alarm1Data t option1))
  unfold alarmBytes at hbytes
  split at hbytes
  case h_5 => cases hbytes
  all_goals obtain ⟨rfl, rfl⟩ := Prod.mk.inj (Option.some.inj hbytes)
  · exact ⟨fun _ => ⟨_, rfl, load_store_same _ _ (alarm1Data _ option1)⟩, fun h => absurd rfl h⟩
  · exact ⟨fun h => absurd rfl h, fun _ => ⟨_, rfl, load_store_same _ _ (alarm2Data _ option2)⟩⟩
  · exact ⟨fun _ => ⟨_, rfl, (hboth _ _).1⟩, fun _ => ⟨_, rfl, (hboth _ _).2⟩⟩
  · exact ⟨fun _ => ⟨_, rfl, (hboth _ _).1⟩, fun _ => ⟨_, rfl, (hboth _ _).2⟩⟩

/-- The time of an alarm. -/
def alarmEvening : StructTm :=
  { (Typed.ofMoment leapEvening).tm with tm_wday := 4, tm_yday := none, tm_isdst := 0 }

theorem alarmEvening_time : AlarmTime alarmEvening :=
  ⟨by decide +kernel, by decide +kernel, by decide +kernel, by decide +kernel, by decide⟩

end StoneHMI.Clock
