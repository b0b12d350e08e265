/-
  StoneHMI.Controller.TypedTime
  ─────────────────────────────
  **TYPED TIMES — `time_parser` and `set_time_epoch_string` of spiffs.c.**

  The text of `user_time_edit` or `digit_clock1` goes through `strptime`, which
  takes each field for itself and does not ask what comes behind the last one;
  `mktime` makes a second of the fields, a later one where the day is not in
  its month; and the clock is set and shown as `strftime` prints that second.
  The time zone is UTC, so `tm_isdst`, which nobody sets, has no part in it.

  How the library reads and prints single fields is a `TimeText`.

    §1  the fields of the format            §4  times set as typed
    §2  the platform in UTC                 §5  a library
    §3  the library reads what it prints
-/
import StoneHMI.Controller.Countdown
import StoneHMI.Lib.Calendar

namespace StoneHMI

open CText Calendar

/-! ## §1. The fields of the format. -/

/-- The fields of `"%Y-%m-%d %H:%M:%S"`, each by itself. -/
structure Typed where
  year : ℤ
  month : ℤ
  day : ℤ
  hour : ℤ
  minute : ℤ
  second : ℤ
  deriving DecidableEq, Repr

/-- The C library's conversions of single fields: a year, and a number of two places from `lo` to
`hi`. -/
structure TimeText where
  scanYear : List UInt8 → Option (ℤ × List UInt8)
  scanNumber : ℤ → ℤ → List UInt8 → Option (ℤ × List UInt8)
  printYear : ℤ → List UInt8
  scanNumber_range : ∀ {lo hi n : ℤ} {s r : List UInt8}, scanNumber lo hi s = some (n, r) →
    lo ≤ n ∧ n ≤ hi
  /-- What `strftime` prints in two places `strptime` reads. -/
  scanNumber_twoPlaces : ∀ {lo hi : ℤ} {n : ℕ} {r : List UInt8}, n < 100 → lo ≤ n → n ≤ hi →
    NoDigit r → scanNumber lo hi (twoPlaces n ++ r) = some ((n : ℤ), r)
  /-- A year that `strptime` has read it reads again as `strftime` prints it. -/
  scanYear_printYear : ∀ {s r : List UInt8} {y : ℤ} (t : List UInt8), scanYear s = some (y, r) →
    scanYear (printYear y ++ 0x2d :: t) = some (y, 0x2d :: t)

/-- A character of the format that stands for itself. -/
def literal (b : UInt8) : List UInt8 → Option (List UInt8)
  | [] => none
  | c :: s => if c = b then some s else none

@[simp] theorem literal_cons (b : UInt8) (s : List UInt8) : literal b (b :: s) = some s := if_pos rfl

namespace TimeText

/-- The fields `strptime` reads, and what it leaves unread. -/
def scan (L : TimeText) (s : List UInt8) : Option (Typed × List UInt8) := do
  let (year, s) ← L.scanYear s
  let s ← literal 0x2d s
  let (month, s) ← L.scanNumber 1 12 s
  let s ← literal 0x2d s
  let (day, s) ← L.scanNumber 1 31 s
  -- the blank of the format stands for any blanks, and for none
  let (hour, s) ← L.scanNumber 0 23 (s.dropWhile isBlank)
  let s ← literal 0x3a s
  let (minute, s) ← L.scanNumber 0 59 s
  let s ← literal 0x3a s
  -- 60 is a leap second
  let (second, s) ← L.scanNumber 0 60 s
  pure (⟨year, month, day, hour, minute, second⟩, s)

end TimeText

/-! ## §2. The platform in UTC. -/

/-- The fields in `struct tm`. -/
def Typed.tm (f : Typed) : Tm :=
  { tm_year := f.year - 1900, tm_mon := f.month - 1, tm_mday := f.day,
    tm_hour := f.hour, tm_min := f.minute, tm_sec := f.second }

/-- `mktime` -/
def mktime (tm : Tm) : ℤ :=
  epochSeconds (dayNumber (tm.tm_year + 1900 + tm.tm_mon / 12) (tm.tm_mon % 12 + 1) tm.tm_mday)
    tm.tm_hour tm.tm_min tm.tm_sec

namespace TimeText

/-- A moment in `"%Y-%m-%d %H:%M:%S"`. -/
def print (L : TimeText) (d : Moment) : List UInt8 :=
  L.printYear d.date.year ++ 0x2d :: (twoPlaces d.date.month.toNat ++ 0x2d ::
    (twoPlaces d.date.day.toNat ++ 0x20 :: (twoPlaces d.hour.toNat ++ 0x3a ::
      (twoPlaces d.minute.toNat ++ 0x3a :: twoPlaces d.second.toNat))))

/-- The platform with this library in UTC, and any clock. -/
def platform (L : TimeText) (castOut : BitVec 32 → UInt8) (settimeofday : ℤ → Bool) : Platform :=
  { castOut := castOut
    strptime := fun s => (L.scan s).map fun p => p.1.tm
    mktime := mktime
    settimeofday := settimeofday
    strftime := fun t => L.print (ofSeconds t) }

end TimeText

/-- The fields of a moment. -/
def Typed.ofMoment (d : Moment) : Typed :=
  ⟨d.date.year, d.date.month, d.date.day, d.hour, d.minute, d.second⟩

theorem mktime_ofMoment (d : Moment) : mktime (Typed.ofMoment d).tm = d.seconds := by
  have hmonth := d.date.month_range
  have hyear : d.date.year - 1900 + 1900 + (d.date.month - 1) / 12 = d.date.year := by omega
  have hmon : (d.date.month - 1) % 12 + 1 = d.date.month := by omega
  show epochSeconds (dayNumber (d.date.year - 1900 + 1900 + (d.date.month - 1) / 12)
    ((d.date.month - 1) % 12 + 1) d.date.day) d.hour d.minute d.second = d.seconds
  rw [hyear, hmon]
  rfl

/-! ## §3. The library reads what it prints. -/

theorem dropWhile_isBlank_twoPlaces (n : ℕ) (s : List UInt8) :
    (0x20 :: (twoPlaces n ++ s)).dropWhile isBlank = twoPlaces n ++ s := by
  rw [List.dropWhile_cons_of_pos (by decide)]
  cases h : twoPlaces n with
  | nil => exact absurd h (twoPlaces_ne_nil n)
  | cons d ds =>
      have hd : isDigit d = true := isDigit_twoPlaces n d (by rw [h]; exact List.mem_cons_self)
      exact List.dropWhile_cons_of_neg (by simp [isBlank_of_isDigit hd])

namespace TimeText

variable (L : TimeText)

/-- A field in two places, before a character of the format. -/
theorem scanNumber_print (lo hi n : ℤ) (h0 : 0 ≤ lo) (hhi : hi < 100) (h : lo ≤ n ∧ n ≤ hi)
    {r : List UInt8} (hr : NoDigit r) :
    L.scanNumber lo hi (twoPlaces n.toNat ++ r) = some (n, r) := by
  have hn : (n.toNat : ℤ) = n := by omega
  have hscan : L.scanNumber lo hi (twoPlaces n.toNat ++ r) = some ((n.toNat : ℤ), r) :=
    L.scanNumber_twoPlaces (by omega) (by omega) (by omega) hr
  rw [hn] at hscan
  exact hscan

/-- **A moment that is printed is read back**, to the end of the text. -/
theorem scan_print {s r : List UInt8} {d : Moment} (hyear : L.scanYear s = some (d.date.year, r)) :
    L.scan (L.print d) = some (Typed.ofMoment d, []) := by
  have hlast := daysInMonth_le d.date.year d.date.month
  have hday := d.date.day_range
  have hhour := d.hour_range
  have hminute := d.minute_range
  have hsecond := d.second_range
  have hdash := noDigit_cons (show isDigit 0x2d = false by decide)
  have hblank := noDigit_cons (show isDigit 0x20 = false by decide)
  have hcolon := noDigit_cons (show isDigit 0x3a = false by decide)
  have hend := L.scanNumber_print 0 60 d.second (by decide) (by decide) (by omega) noDigit_nil
  rw [List.append_nil] at hend
  unfold scan print
  simp only [L.scanYear_printYear _ hyear, Option.bind_eq_bind, Option.bind_some, literal_cons,
    L.scanNumber_print 1 12 d.date.month (by decide) (by decide) d.date.month_range (hdash _),
    L.scanNumber_print 1 31 d.date.day (by decide) (by decide) (by omega) (hblank _),
    dropWhile_isBlank_twoPlaces,
    L.scanNumber_print 0 23 d.hour (by decide) (by decide) (by omega) (hcolon _),
    L.scanNumber_print 0 59 d.minute (by decide) (by decide) (by omega) (hcolon _), hend]
  rfl

/-- What `strptime` has checked. -/
structure Checked (f : Typed) : Prop where
  month : 1 ≤ f.month ∧ f.month ≤ 12
  day : 1 ≤ f.day
  hour : 0 ≤ f.hour ∧ f.hour < 24
  minute : 0 ≤ f.minute ∧ f.minute < 60
  second : 0 ≤ f.second
  year : ∃ s r, L.scanYear s = some (f.year, r)

theorem checked_of_scan {s r : List UInt8} {f : Typed} (h : L.scan s = some (f, r)) :
    L.Checked f := by
  unfold scan at h
  simp only [Option.bind_eq_bind, Option.bind_eq_some_iff] at h
  obtain ⟨⟨year, s1⟩, hyear, s2, -, ⟨month, s3⟩, hmonth, s4, -, ⟨day, s5⟩, hday, ⟨hour, s6⟩, hhour,
    s7, -, ⟨minute, s8⟩, hminute, s9, -, ⟨second, s10⟩, hsecond, hf⟩ := h
  cases hf
  have hm := L.scanNumber_range hmonth
  have hd := L.scanNumber_range hday
  have hh := L.scanNumber_range hhour
  have hn := L.scanNumber_range hminute
  have hs := L.scanNumber_range hsecond
  exact ⟨hm, hd.1, ⟨hh.1, by show hour < 24; omega⟩, ⟨hn.1, by show minute < 60; omega⟩, hs.1,
    s, s1, hyear⟩

/-! ## §4. Times set as typed. -/

/-- The text is the fields of this moment and nothing more. -/
def Denotes (s : List UInt8) (d : Moment) : Prop := L.scan s = some (Typed.ofMoment d, [])

/-- The fields are those of a date and a time of day that exist. -/
def InCalendar (f : Typed) : Prop := f.day ≤ daysInMonth f.year f.month ∧ f.second < 60

/-- A typed time is set and shown as typed, or refused without a call. -/
structure SetAsTyped (P : Platform) (s : List UInt8) : Prop where
  set : (set_time_epoch_string P s).2 = true → ∃ d text, L.Denotes s d ∧
    (set_time_epoch_string P s).1
      = [.settimeofday d.seconds, .send (.set_date (str "digit_clock1") text)] ∧ L.Denotes text d
  refused : P.strptime s = none → set_time_epoch_string P s = ([], false)

theorem Checked.exists_moment {f : Typed} (hf : L.Checked f) (h : InCalendar f) :
    ∃ d, f = Typed.ofMoment d :=
  ⟨{ date := { year := f.year, month := f.month, day := f.day, month_range := hf.month,
               day_range := ⟨hf.day, h.1⟩ }
     hour := f.hour, minute := f.minute, second := f.second, hour_range := hf.hour,
     minute_range := hf.minute, second_range := ⟨hf.second, h.2⟩ }, rfl⟩

theorem platform_strptime (castOut : BitVec 32 → UInt8) (settimeofday : ℤ → Bool)
    (s : List UInt8) :
    (L.platform castOut settimeofday).strptime s = (L.scan s).map fun p => p.1.tm := rfl

/-- The calls for a text that denotes a moment. -/
theorem set_time_denotes {s : List UInt8} {d : Moment} (h : L.Denotes s d)
    (castOut : BitVec 32 → UInt8) (settimeofday : ℤ → Bool) :
    set_time_epoch_string (L.platform castOut settimeofday) s = if settimeofday d.seconds then
      ([.settimeofday d.seconds, .send (.set_date (str "digit_clock1") (L.print d))], true)
    else ([.settimeofday d.seconds], false) := by
  have hparse : (L.platform castOut settimeofday).strptime s = some (Typed.ofMoment d).tm := by
    rw [platform_strptime, h]
    rfl
  have htime : (L.platform castOut settimeofday).mktime (Typed.ofMoment d).tm = d.seconds :=
    mktime_ofMoment d
  have htext : (L.platform castOut settimeofday).strftime d.seconds = L.print d := by
    show L.print (ofSeconds d.seconds) = L.print d
    rw [ofSeconds_seconds]
  rw [set_time_some hparse, htime, htext]
  rfl

theorem setAsTyped_of_inCalendar {s : List UInt8}
    (h : ∀ f rest, L.scan s = some (f, rest) → rest = [] ∧ InCalendar f)
    (castOut : BitVec 32 → UInt8) (settimeofday : ℤ → Bool) :
    L.SetAsTyped (L.platform castOut settimeofday) s := by
  constructor
  · intro hok
    cases hscan : L.scan s with
    | none =>
        rw [set_time_none (by rw [platform_strptime, hscan]; rfl)] at hok
        cases hok
    | some p =>
        obtain ⟨f, rest⟩ := p
        obtain ⟨rfl, hin⟩ := h f rest hscan
        have hf := L.checked_of_scan hscan
        obtain ⟨d, rfl⟩ := Checked.exists_moment L hf hin
        obtain ⟨_, _, hyear⟩ := hf.year
        rw [L.set_time_denotes hscan] at hok ⊢
        split at hok
        case isTrue hclock =>
          exact ⟨d, L.print d, hscan, by rw [if_pos hclock], L.scan_print hyear⟩
        case isFalse => cases hok
  · exact set_time_none

/-- **TYPED TIMES**: whatever the clock answers, a text is set as typed or refused exactly when
nothing stands behind the fields that `strptime` reads in it, their day is in their month, and
their second is no leap second. -/
theorem setAsTyped_iff (s : List UInt8) :
    (∀ castOut settimeofday, L.SetAsTyped (L.platform castOut settimeofday) s) ↔
      ∀ f rest, L.scan s = some (f, rest) → rest = [] ∧ InCalendar f := by
  constructor
  · intro h f rest hscan
    -- a clock that takes every time
    have hparse : (L.platform (fun _ => 0) fun _ => true).strptime s = some f.tm := by
      rw [platform_strptime, hscan]
      rfl
    have hok : (set_time_epoch_string (L.platform (fun _ => 0) fun _ => true) s).2 = true := by
      rw [set_time_some hparse]
      rfl
    obtain ⟨d, _, hd, _, _⟩ := (h _ _).set hok
    obtain ⟨rfl, rfl⟩ := Prod.mk.inj (Option.some.inj (hscan.symm.trans hd))
    exact ⟨rfl, d.date.day_range.2, d.second_range.2⟩
  · intro h castOut settimeofday
    exact L.setAsTyped_of_inCalendar h castOut settimeofday

end TimeText

/-! ## §5. A library. -/

/-- A number of at most `w` digits from `lo` to `hi`. -/
def scanDigits (w : ℕ) (lo hi : ℤ) (s : List UInt8) : Option (ℤ × List UInt8) :=
  let ds := (s.take w).takeWhile isDigit
  let n : ℤ := digitsValue ds
  if ds ≠ [] ∧ lo ≤ n ∧ n ≤ hi then some (n, s.drop ds.length) else none

theorem scanDigits_range {w : ℕ} {lo hi n : ℤ} {s r : List UInt8}
    (h : scanDigits w lo hi s = some (n, r)) : lo ≤ n ∧ n ≤ hi := by
  unfold scanDigits at h
  dsimp only at h
  split at h
  case isTrue hcond =>
    cases h
    exact hcond.2
  case isFalse => cases h

/-- Digits that fit, before something else, are read whole. -/
theorem scanDigits_append {w : ℕ} {lo hi : ℤ} {ds r : List UInt8} (hne : ds ≠ [])
    (hds : ∀ d ∈ ds, isDigit d = true) (hw : ds.length ≤ w) (hlo : lo ≤ digitsValue ds)
    (hhi : digitsValue ds ≤ hi) (hr : NoDigit r) :
    scanDigits w lo hi (ds ++ r) = some ((digitsValue ds : ℤ), r) := by
  have hrun : ((ds ++ r).take w).takeWhile isDigit = ds := by
    rw [List.take_append, List.take_of_length_le hw, List.takeWhile_append_of_pos hds,
      (hr.take _).takeWhile_eq, List.append_nil]
  unfold scanDigits
  dsimp only
  rw [hrun, if_pos ⟨hne, hlo, hhi⟩, List.drop_left]

theorem length_twoPlaces {n : ℕ} (h : n < 100) : (twoPlaces n).length ≤ 2 := by
  have hlen : (decimal n).length ≤ 2 := (decimal_length_le_iff (by decide)).mpr h
  unfold twoPlaces
  split
  · rw [List.length_cons]
    omega
  · exact hlen

theorem scanDigits_twoPlaces {lo hi : ℤ} {n : ℕ} {r : List UInt8} (h : n < 100) (hlo : lo ≤ n)
    (hhi : n ≤ hi) (hr : NoDigit r) : scanDigits 2 lo hi (twoPlaces n ++ r) = some ((n : ℤ), r) := by
  rw [scanDigits_append (twoPlaces_ne_nil n) (isDigit_twoPlaces n) (length_twoPlaces h)
    (by rw [digitsValue_twoPlaces]; exact hlo) (by rw [digitsValue_twoPlaces]; exact hhi) hr,
    digitsValue_twoPlaces]

/-- A year of at most four digits, printed without padding. -/
theorem scanDigits_year {s r : List UInt8} {y : ℤ} (t : List UInt8)
    (h : scanDigits 4 0 9999 s = some (y, r)) :
    scanDigits 4 0 9999 (decimal y.toNat ++ 0x2d :: t) = some (y, 0x2d :: t) := by
  obtain ⟨h0, h9999⟩ := scanDigits_range h
  have hy : (y.toNat : ℤ) = y := by omega
  have hlen : (decimal y.toNat).length ≤ 4 := (decimal_length_le_iff (by decide)).mpr (by omega)
  rw [scanDigits_append (decimal_ne_nil _) (fun _ hd => isDigit_of_mem_decimal hd) hlen
    (by rw [digitsValue_decimal, hy]; exact h0) (by rw [digitsValue_decimal, hy]; exact h9999)
    (noDigit_cons (by decide) t), digitsValue_decimal, hy]

/-- Years from 0 to 9999, and numbers of at most two digits. -/
def plainText : TimeText :=
  { scanYear := scanDigits 4 0 9999
    scanNumber := scanDigits 2
    printYear := fun y => decimal y.toNat
    scanNumber_range := scanDigits_range
    scanNumber_twoPlaces := scanDigits_twoPlaces
    scanYear_printYear := scanDigits_year }

/-- 31 February is the second day of the March behind it. -/
example : set_time_epoch_string (plainText.platform (fun _ => 0) fun _ => true)
      (str "2024-02-31 10:00:00")
    = ([.settimeofday 1709373600,
        .send (.set_date (str "digit_clock1") (str "2024-03-02 10:00:00"))], true) := by
  decide +kernel

theorem not_setAsTyped : ¬ ∀ (L : TimeText) (s : List UInt8) (castOut : BitVec 32 → UInt8)
    (settimeofday : ℤ → Bool), L.SetAsTyped (L.platform castOut settimeofday) s := by
  intro h
  obtain ⟨d, _, hd, _, _⟩ := (h plainText (str "2024-02-31 10:00:00") (fun _ => 0) fun _ => true).set
    (by decide +kernel)
  have hscan : plainText.scan (str "2024-02-31 10:00:00") = some (⟨2024, 2, 31, 10, 0, 0⟩, []) := by
    decide +kernel
  have hfields := (Prod.mk.inj (Option.some.inj (hscan.symm.trans hd))).1
  have hyear : 2024 = d.date.year := congrArg Typed.year hfields
  have hmonth : 2 = d.date.month := congrArg Typed.month hfields
  have hday : 31 = d.date.day := congrArg Typed.day hfields
  -- February 2024 has no such day
  have hlast := d.date.day_range.2
  rw [← hyear, ← hmonth, ← hday] at hlast
  exact absurd hlast (by decide)

end StoneHMI
