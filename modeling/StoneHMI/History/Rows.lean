/-
  StoneHMI.History.Rows
  ─────────────────────
  **ONE ROW, WRITTEN AND READ BACK — `save_history` and a turn of `push_history`.**

  A row is printed into `buffer_time[30]` and read back with `line[30]` into
  `str1[20]`, `str2[3]`, `str3[2]` and `str4[4]`.  None of these sizes follows
  from another one: a mode of two digits needs three bytes of `str3`, a time of
  four digits needs five of `str4`, and a row of more than 29 bytes is cut.

    §1  digits              §4  which rows fit
    §2  the row's text      §5  the rows of a log
    §3  one turn's reading
-/
import StoneHMI.History.Log
import Mathlib.Data.List.Induction

namespace StoneHMI

open CText

/-! ## §1. Digits. -/

theorem isDigit_twoDigits {n : ℕ} (hn : n < 100) : ∀ b ∈ twoDigits n, isDigit b = true := by
  have hdigit : ∀ k < 10, isDigit (UInt8.ofNat (48 + k)) = true := by decide
  intro b hb
  unfold twoDigits at hb
  -- the tens, then the ones
  rcases List.mem_cons.mp hb with rfl | hb
  · exact hdigit (n / 10) (by omega)
  · rw [List.mem_singleton.mp hb]
    exact hdigit (n % 10) (by omega)

/-- A digit is neither NUL, newline, comma, quote nor blank. -/
theorem digit_plain {b : UInt8} (h : isDigit b = true) :
    b ≠ 0 ∧ b ≠ 0x0a ∧ isComma b = false ∧ isBlank b = false := by
  refine ⟨ne_of_isDigit h (by decide), ne_of_isDigit h (by decide), ?_, isBlank_of_isDigit h⟩
  exact beq_eq_false_iff_ne.mpr (ne_of_isDigit h (by decide))

/-- The date-time text: 19 bytes, none of them NUL, newline or comma. -/
theorem Stamp.length_text (t : Stamp) : t.text.length = 19 := rfl

theorem Stamp.mem_text {t : Stamp} {b : UInt8} (h : b ∈ t.text) :
    isDigit b = true ∨ b = 0x2d ∨ b = 0x20 ∨ b = 0x3a := by
  have hm := t.month.isLt
  have hd := t.day.isLt
  have hy := t.year.isLt
  have hh := t.hour.isLt
  have hmi := t.minute.isLt
  have hs := t.second.isLt
  have hnum : ∀ n < 100, b ∈ twoDigits n →
      isDigit b = true ∨ b = 0x2d ∨ b = 0x20 ∨ b = 0x3a := fun n hn hb =>
    Or.inl (isDigit_twoDigits hn b hb)
  unfold Stamp.text at h
  simp only [List.mem_append, List.mem_cons] at h
  rcases h with h | h | h | h | h | h | h | h | h | h | h | h
  · exact hnum _ (by omega) h
  · exact Or.inr (Or.inl h)
  · exact hnum _ (by omega) h
  · exact Or.inr (Or.inl h)
  · exact hnum _ (by omega) h
  · exact hnum _ (by omega) h
  · exact Or.inr (Or.inr (Or.inl h))
  · exact hnum _ (by omega) h
  · exact Or.inr (Or.inr (Or.inr h))
  · exact hnum _ (by omega) h
  · exact Or.inr (Or.inr (Or.inr h))
  · exact hnum _ (by omega) h

theorem Stamp.text_plain (t : Stamp) :
    ∀ b ∈ t.text, b ≠ 0 ∧ b ≠ 0x0a ∧ isComma b = false := by
  intro b hb
  rcases Stamp.mem_text hb with h | rfl | rfl | rfl
  · obtain ⟨h0, h10, hc, -⟩ := digit_plain h
    exact ⟨h0, h10, hc⟩
  · decide
  · decide
  · decide

/-- It begins with a digit. -/
theorem Stamp.text_head (t : Stamp) : ∃ b s, t.text = b :: s ∧ isDigit b = true := by
  refine ⟨_, _, rfl, isDigit_twoDigits (n := t.month + 1) ?_ _ List.mem_cons_self⟩
  have := t.month.isLt
  omega

theorem decimal_plain (n : ℕ) :
    ∀ b ∈ decimal n, b ≠ 0 ∧ b ≠ 0x0a ∧ isComma b = false ∧ isBlank b = false :=
  fun _ hb => digit_plain (isDigit_of_mem_decimal hb)

/-! ## §2. The row's text. -/

theorem length_historyRow (t : Stamp) (mode : UInt8) (time : UInt16) :
    (historyRow t mode time).length
      = 22 + (decimal (period mode)).length + (decimal mode.toNat).length
        + (decimal time.toNat).length := by
  unfold historyRow
  simp only [List.length_append, List.length_cons, Stamp.length_text]
  omega

/-- A row whose time is printed as `ds`. -/
def rowText (t : Stamp) (mode : UInt8) (ds : List UInt8) : List UInt8 :=
  t.text ++ 0x2c :: (decimal (period mode) ++ 0x2c :: (decimal mode.toNat ++ 0x2c :: ds))

theorem historyRow_eq (t : Stamp) (mode : UInt8) (time : UInt16) :
    historyRow t mode time = rowText t mode (decimal time.toNat) := rfl

/-- Bytes of a row: no NUL and no newline. -/
theorem historyRow_plain (t : Stamp) (mode : UInt8) (time : UInt16) :
    ∀ b ∈ historyRow t mode time, b ≠ 0 ∧ b ≠ 0x0a := by
  intro b hb
  unfold historyRow at hb
  simp only [List.mem_append, List.mem_cons] at hb
  have hnum : ∀ n, b ∈ decimal n → b ≠ 0 ∧ b ≠ 0x0a := fun n hn =>
    ⟨(decimal_plain n b hn).1, (decimal_plain n b hn).2.1⟩
  rcases hb with hb | rfl | hb | rfl | hb | rfl | hb
  · exact ⟨(t.text_plain b hb).1, (t.text_plain b hb).2.1⟩
  · decide
  · exact hnum _ hb
  · decide
  · exact hnum _ hb
  · decide
  · exact hnum _ hb

/-- Where the time begins. -/
def timeOffset (mode : UInt8) : ℕ :=
  22 + (decimal (period mode)).length + (decimal mode.toNat).length

/-- A mode of more than one digit has a period of one. -/
theorem timeOffset_le (mode : UInt8) :
    timeOffset mode ≤ 26 ∧ (mode.toNat < 10 → timeOffset mode ≤ 25) := by
  have hlt := mode.toNat_lt
  have hthree : (decimal mode.toNat).length ≤ 3 := by
    rw [decimal_length_le_iff (by omega)]
    omega
  have hone : (decimal mode.toNat).length ≤ 1 ↔ mode.toNat < 10 := by
    rw [decimal_length_le_iff (by omega)]
    omega
  have hperiod : (decimal (period mode)).length ≤ 2 ∧
      (10 ≤ mode.toNat → (decimal (period mode)).length ≤ 1) := by
    have hne : ∀ k : UInt8, 10 ≤ mode.toNat → k.toNat < 10 → mode ≠ k := by
      intro k hm hk h
      rw [h] at hm
      omega
    constructor
    · rw [decimal_length_le_iff (by omega)]
      unfold period
      split_ifs <;> decide
    · intro hm
      unfold period
      rw [if_neg (hne 1 hm (by decide)), if_neg (hne 2 hm (by decide)),
        if_neg (hne 3 hm (by decide)), if_neg (hne 4 hm (by decide)),
        if_neg (hne 5 hm (by decide))]
      decide
  unfold timeOffset
  constructor
  · by_cases hm : mode.toNat < 10
    · have := hone.mpr hm
      omega
    · have := hperiod.2 (by omega)
      omega
  · intro hm
    have := hone.mpr hm
    omega

/-- A row up to its time. -/
def rowHead (t : Stamp) (mode : UInt8) : List UInt8 :=
  t.text ++ 0x2c :: (decimal (period mode) ++ 0x2c :: (decimal mode.toNat ++ [0x2c]))

theorem rowText_eq (t : Stamp) (mode : UInt8) (ds : List UInt8) :
    rowText t mode ds = rowHead t mode ++ ds := by
  unfold rowText rowHead
  simp only [List.append_assoc, List.cons_append, List.nil_append]

theorem length_rowHead (t : Stamp) (mode : UInt8) : (rowHead t mode).length = timeOffset mode := by
  unfold rowHead timeOffset
  simp only [List.length_append, List.length_cons, List.length_nil, Stamp.length_text]
  omega

/-- The first 29 bytes of a row that has as many. -/
theorem take_historyRow (t : Stamp) (mode : UInt8) (time : UInt16) :
    (historyRow t mode time).take 29
      = rowText t mode ((decimal time.toNat).take (29 - timeOffset mode)) := by
  have hle := (timeOffset_le mode).1
  rw [historyRow_eq, rowText_eq, rowText_eq, List.take_append, length_rowHead,
    List.take_of_length_le (by rw [length_rowHead]; omega)]

/-- What 29 bytes leave of a row are digits of its time. -/
theorem drop_historyRow (t : Stamp) (mode : UInt8) (time : UInt16) :
    (historyRow t mode time).drop 29 = (decimal time.toNat).drop (29 - timeOffset mode) := by
  have hle := (timeOffset_le mode).1
  rw [historyRow_eq, rowText_eq, List.drop_append, length_rowHead,
    List.drop_eq_nil_of_le (by rw [length_rowHead]; omega), List.nil_append]

/-! ## §3. One turn's reading. -/

/-- The four conversions on a row, with or without its newline. -/
theorem sscanfRow_rowText (t : Stamp) (mode : UInt8) (f : Fields) {ds tail : List UInt8}
    (hne : ds ≠ []) (hds : ∀ b ∈ ds, isBlank b = false) (htail : tail = [] ∨ tail = [0x0a]) :
    sscanfRow (rowText t mode ds ++ tail) f
      = { str1 := t.text, str2 := decimal (period mode), str3 := decimal mode.toNat,
          str4 := ds } := by
  have hcomma : isComma 0x2c = true := rfl
  have hrow : rowText t mode ds ++ tail = t.text ++ 0x2c :: (decimal (period mode) ++ 0x2c ::
      (decimal mode.toNat ++ 0x2c :: (ds ++ tail))) := by
    unfold rowText
    simp only [List.append_assoc, List.cons_append]
  have hnum : ∀ (n : ℕ) (r : List UInt8),
      scanset isComma (decimal n ++ 0x2c :: r) = some (decimal n, 0x2c :: r) := fun n r =>
    scanset_append r (decimal_ne_nil n) (fun b hb => (decimal_plain n b hb).2.2.1) hcomma
  have hdate : ∀ r : List UInt8,
      scanset isComma (t.text ++ 0x2c :: r) = some (t.text, 0x2c :: r) := fun r =>
    scanset_append r (List.ne_nil_of_length_pos (by rw [Stamp.length_text]; omega))
      (fun b hb => (t.text_plain b hb).2.2) hcomma
  have hskip : (ds ++ tail).dropWhile isBlank = ds ++ tail := by
    cases ds with
    | nil => exact absurd rfl hne
    | cons b s =>
        have hb := hds b List.mem_cons_self
        rw [List.cons_append, List.dropWhile_cons_of_neg (by rw [hb]; exact Bool.false_ne_true)]
  have hword : ∃ r, scanWord (ds ++ tail) = some (ds, r) := by
    unfold scanWord
    rw [hskip]
    rcases htail with rfl | rfl
    · rw [List.append_nil]
      exact ⟨_, scanset_all hne hds⟩
    · exact ⟨_, scanset_append [] hne hds rfl⟩
  obtain ⟨r, hr⟩ := hword
  have hskipComma : ∀ s : List UInt8, scanComma (0x2c :: s) = some s := fun _ => rfl
  unfold sscanfRow
  rw [hrow, hdate]
  simp only [hskipComma, Option.bind_some, hnum, hr]

theorem fgets_of_ne_nil {size : ℕ} {s : List UInt8} (h : s ≠ []) :
    fgets size s = some (takeLine (size - 1) s) := by
  unfold fgets
  rw [if_neg h]

/-- A turn on a row that is not cut takes its newline as well. -/
theorem fgets_row_of_lt {t : Stamp} {mode : UInt8} {time : UInt16}
    (h : (historyRow t mode time).length < 29) (older : List UInt8) :
    fgets 30 (historyRow t mode time ++ 0x0a :: older)
      = some (historyRow t mode time ++ [0x0a], older) := by
  rw [fgets_of_ne_nil (by simp)]
  exact congrArg some (takeLine_newline older
    (fun b hb => (historyRow_plain t mode time b hb).2) h)

/-- On any other row it takes 29 bytes. -/
theorem fgets_row_of_le {t : Stamp} {mode : UInt8} {time : UInt16}
    (h : 29 ≤ (historyRow t mode time).length) (older : List UInt8) :
    fgets 30 (historyRow t mode time ++ 0x0a :: older)
      = some ((historyRow t mode time).take 29, (historyRow t mode time).drop 29 ++ 0x0a :: older) := by
  have hsplit : historyRow t mode time ++ 0x0a :: older
      = (historyRow t mode time).take 29 ++ ((historyRow t mode time).drop 29 ++ 0x0a :: older) := by
    rw [← List.append_assoc, List.take_append_drop]
  have hlen : ((historyRow t mode time).take 29).length = 29 := List.length_take_of_le h
  rw [fgets_of_ne_nil (by simp), hsplit]
  have hplain : ∀ b ∈ (historyRow t mode time).take 29, b ≠ 10 := fun b hb =>
    (historyRow_plain t mode time b (List.mem_of_mem_take hb)).2
  have hfull := takeLine_full ((historyRow t mode time).drop 29 ++ 0x0a :: older) hplain
  rw [hlen] at hfull
  exact congrArg some hfull

/-- The four fields that a turn reads of a row: the time only as far as 29 bytes reach. -/
def rowFields (t : Stamp) (mode : UInt8) (time : UInt16) : Fields :=
  { str1 := t.text
    str2 := decimal (period mode)
    str3 := decimal mode.toNat
    str4 := (decimal time.toNat).take (29 - timeOffset mode) }

/-- **What a turn reads of a row**, and what it leaves of it. -/
theorem fgets_row (t : Stamp) (mode : UInt8) (time : UInt16) (older : List UInt8) :
    ∃ line rest, fgets 30 (historyRow t mode time ++ 0x0a :: older) = some (line, rest) ∧
      (∀ f, sscanfRow (cstr line) f = rowFields t mode time) ∧
      ((historyRow t mode time).length < 29 → rest = older) := by
  have hle := (timeOffset_le mode).1
  have hlen : (historyRow t mode time).length = timeOffset mode + (decimal time.toNat).length :=
    length_historyRow t mode time
  have hblank : ∀ b ∈ decimal time.toNat, isBlank b = false := fun b hb =>
    (decimal_plain _ b hb).2.2.2
  by_cases hshort : (historyRow t mode time).length < 29
  · -- the whole row and its newline
    refine ⟨_, _, fgets_row_of_lt hshort older, fun f => ?_, fun _ => rfl⟩
    have hnul : ∀ b ∈ historyRow t mode time ++ [0x0a], b ≠ 0 := by
      intro b hb
      rcases List.mem_append.mp hb with hb | hb
      · exact (historyRow_plain t mode time b hb).1
      · rw [List.mem_singleton.mp hb]
        decide
    unfold rowFields
    rw [cstr_eq_self hnul, historyRow_eq,
      sscanfRow_rowText t mode f (decimal_ne_nil _) hblank (Or.inr rfl),
      List.take_of_length_le (by omega)]
  · -- 29 bytes, which reach behind the last comma
    refine ⟨_, _, fgets_row_of_le (by omega) older, fun f => ?_, fun h => absurd h hshort⟩
    have hnul : ∀ b ∈ (historyRow t mode time).take 29, b ≠ 0 := fun b hb =>
      (historyRow_plain t mode time b (List.mem_of_mem_take hb)).1
    have hne : (decimal time.toNat).take (29 - timeOffset mode) ≠ [] := by
      rw [Ne, List.take_eq_nil_iff]
      rintro (h | h)
      · omega
      · exact decimal_ne_nil _ h
    have hscan := sscanfRow_rowText t mode f hne
      (fun b hb => hblank b (List.mem_of_mem_take hb)) (Or.inl rfl)
    rw [List.append_nil] at hscan
    rw [cstr_eq_self hnul, take_historyRow, hscan]
    rfl

/-! ## §4. Which rows fit. -/

/-- The four fields with their NULs fit `str1[20]`, `str2[3]`, `str3[2]` and `str4[4]`. -/
structure Fields.Fit (f : Fields) : Prop where
  str1 : f.str1.length < 20
  str2 : f.str2.length < 3
  str3 : f.str3.length < 2
  str4 : f.str4.length < 4

/-- The row with its NUL fits `buffer_time[30]`, and the fields that `push_history` reads
back from it fit, whatever rows stand behind it in the file. -/
structure FitsBuffers (t : Stamp) (mode : UInt8) (time : UInt16) : Prop where
  written : (historyRow t mode time).length < 30
  read : ∀ (older : List UInt8) (f : Fields), ∃ line rest,
    fgets 30 (historyRow t mode time ++ 0x0a :: older) = some (line, rest) ∧
      (sscanfRow (cstr line) f).Fit

theorem decimal_period_length (mode : UInt8) : (decimal (period mode)).length < 3 := by
  have hle : (decimal (period mode)).length ≤ 2 := by
    rw [decimal_length_le_iff (by omega)]
    unfold period
    split_ifs <;> decide
  omega

/-- The fields of a row fit exactly when the mode has one digit and the time three. -/
theorem rowFields_fit_iff (t : Stamp) (mode : UInt8) (time : UInt16) :
    (rowFields t mode time).Fit ↔ mode.toNat < 10 ∧ time.toNat < 1000 := by
  have hmode : (decimal mode.toNat).length ≤ 1 ↔ mode.toNat < 10 := decimal_length_le_iff (by omega)
  have htime : (decimal time.toNat).length ≤ 3 ↔ time.toNat < 1000 := decimal_length_le_iff (by omega)
  have hle := (timeOffset_le mode).2
  constructor
  · rintro ⟨-, -, h3, h4⟩
    have hm : mode.toNat < 10 := hmode.mp (Nat.lt_succ_iff.mp h3)
    -- a row with a mode of one digit keeps four bytes of its time at least
    have hoff := hle hm
    have h4' : ((decimal time.toNat).take (29 - timeOffset mode)).length < 4 := h4
    rw [List.length_take] at h4'
    exact ⟨hm, htime.mp (by omega)⟩
  · rintro ⟨hm, ht⟩
    refine ⟨?_, decimal_period_length mode, Nat.lt_succ_of_le (hmode.mpr hm), ?_⟩
    · show t.text.length < 20
      rw [Stamp.length_text]
      omega
    · have h3 := htime.mpr ht
      show ((decimal time.toNat).take _).length < 4
      rw [List.length_take]
      omega

/-- **A row fits its buffers exactly when its mode has one digit and its time has three.** -/
theorem fitsBuffers_iff (t : Stamp) (mode : UInt8) (time : UInt16) :
    FitsBuffers t mode time ↔ mode.toNat < 10 ∧ time.toNat < 1000 := by
  rw [← rowFields_fit_iff t mode time]
  constructor
  · intro h
    obtain ⟨line, rest, hread, hscan, -⟩ := fgets_row t mode time []
    obtain ⟨line', rest', hread', hfit⟩ := h.read [] ⟨[], [], [], []⟩
    rw [hread] at hread'
    cases hread'
    rwa [hscan] at hfit
  · intro h
    constructor
    · obtain ⟨hm, ht⟩ := (rowFields_fit_iff t mode time).mp h
      have hlen : (historyRow t mode time).length = timeOffset mode + (decimal time.toNat).length :=
        length_historyRow t mode time
      have hoff := (timeOffset_le mode).2 hm
      have h3 : (decimal time.toNat).length ≤ 3 := (decimal_length_le_iff (by omega)).mpr ht
      omega
    · intro older f
      obtain ⟨line, rest, hread, hscan, -⟩ := fgets_row t mode time older
      refine ⟨line, rest, hread, ?_⟩
      rw [hscan]
      exact h

/-! ## §5. The rows of a log. -/

/-- A call of `save_history`, with any arguments. -/
structure SaveCall where
  stamp : Stamp
  mode : UInt8
  time : UInt16
  deriving DecidableEq

namespace SaveCall

def row (c : SaveCall) : List UInt8 := historyRow c.stamp c.mode c.time

end SaveCall

/-- The file that `init_SPIFFS` creates, after the calls. -/
def callsFile (calls : List SaveCall) : List UInt8 :=
  calls.foldl (fun file c => save_history none file c.stamp c.mode c.time) []

/-- The file that holds the rows of `recent`, the most recent call first. -/
def rowsFile : List SaveCall → List UInt8
  | [] => []
  | c :: recent => c.row ++ 0x0a :: rowsFile recent

theorem rowsFile_plain (recent : List SaveCall) : ∀ b ∈ rowsFile recent, b ≠ 0 := by
  induction recent with
  | nil => simp [rowsFile]
  | cons c recent ih =>
      intro b hb
      rcases List.mem_append.mp hb with hb | hb
      · exact (historyRow_plain c.stamp c.mode c.time b hb).1
      · rcases List.mem_cons.mp hb with rfl | hb
        · decide
        · exact ih b hb

theorem callsFile_eq (calls : List SaveCall) : callsFile calls = rowsFile calls.reverse := by
  induction calls using List.reverseRecOn with
  | nil => rfl
  | append_singleton calls c ih =>
      have hsave : callsFile (calls ++ [c]) = c.row ++ 0x0a :: cstr (callsFile calls) := by
        unfold callsFile
        rw [List.foldl_append]
        rfl
      rw [hsave, ih, cstr_eq_self (rowsFile_plain _), List.reverse_append]
      rfl

theorem length_rowsFile_cons (c : SaveCall) (recent : List SaveCall) :
    (rowsFile (c :: recent)).length = c.row.length + 1 + (rowsFile recent).length := by
  show (c.row ++ 0x0a :: rowsFile recent).length = _
  rw [List.length_append, List.length_cons]
  omega

end StoneHMI
