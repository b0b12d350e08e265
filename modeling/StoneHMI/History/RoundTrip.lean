/-
  StoneHMI.History.RoundTrip
  ──────────────────────────
  **WHICH LOGS COME BACK AS THEY WERE WRITTEN.**

  A row of 28 bytes or less is one turn of `push_history`'s loop; a row of 29
  bytes, which only mode 5 with a time of four digits has, fills the line
  buffer and leaves its newline for a turn of its own (`rowReads`).
  `uploadLoop_rows` says what the loop makes of any written log, and
  `push_history_iff` is the exact condition: the columns are those of the
  most recent calls exactly when no call that is followed by room for another
  row wrote a row of 29 bytes.
-/
import StoneHMI.History.Rows

namespace StoneHMI

open CText

/-! ## §1. Calls and rows. -/

/-- A call of `save_history` with a mode of its own and a time of its session. -/
structure LogCall where
  stamp : Stamp
  mode : UInt8
  time : UInt16
  known : 1 ≤ mode ∧ mode ≤ 5
  bounded : time.toNat ≤ (openTime mode).toNat
  deriving DecidableEq

namespace LogCall

def row (c : LogCall) : List UInt8 := historyRow c.stamp c.mode c.time

/-- The row as it stands in the file. -/
def line (c : LogCall) : List UInt8 := c.row ++ [0x0a]

/-- The four fields of the row. -/
def fields (c : LogCall) : Fields :=
  { str1 := c.stamp.text
    str2 := decimal (period c.mode)
    str3 := decimal c.mode.toNat
    str4 := decimal c.time.toNat }

/-- The row takes all 29 bytes that a turn reads. -/
def Long (c : LogCall) : Prop := c.mode = 5 ∧ 1000 ≤ c.time.toNat

instance (c : LogCall) : Decidable c.Long := inferInstanceAs (Decidable (_ ∧ _))

end LogCall

/-- The log after the calls, from an empty file, with every file operation
succeeding. -/
def savedLog (calls : List LogCall) : List UInt8 :=
  calls.foldl (fun file c => save_history none file c.stamp c.mode c.time) []

/-! ### The length of a row. -/

theorem LogCall.mode_cases (c : LogCall) :
    c.mode = 1 ∨ c.mode = 2 ∨ c.mode = 3 ∨ c.mode = 4 ∨ c.mode = 5 := by
  obtain ⟨h1, h5⟩ := c.known
  have hlo : 1 ≤ c.mode.toNat := UInt8.le_iff_toNat_le.mp h1
  have hhi : c.mode.toNat ≤ 5 := UInt8.le_iff_toNat_le.mp h5
  have heq : ∀ k : UInt8, c.mode.toNat = k.toNat → c.mode = k := fun k h => UInt8.toNat_inj.mp h
  have hcase : c.mode.toNat = 1 ∨ c.mode.toNat = 2 ∨ c.mode.toNat = 3 ∨ c.mode.toNat = 4 ∨
      c.mode.toNat = 5 := by omega
  rcases hcase with h | h | h | h | h
  · exact Or.inl (heq 1 h)
  · exact Or.inr (Or.inl (heq 2 h))
  · exact Or.inr (Or.inr (Or.inl (heq 3 h)))
  · exact Or.inr (Or.inr (Or.inr (Or.inl (heq 4 h))))
  · exact Or.inr (Or.inr (Or.inr (Or.inr (heq 5 h))))

/-- A row has 29 bytes where it is long, and fewer otherwise. -/
theorem LogCall.length_row_of_long {c : LogCall} (h : c.Long) : c.row.length = 29 := by
  obtain ⟨h5, ht⟩ := h
  have hb := c.bounded
  rw [h5] at hb
  have hmax : (openTime 5).toNat = 1200 := rfl
  have hlo : ¬ (decimal c.time.toNat).length ≤ 3 := by
    rw [decimal_length_le_iff (by omega)]
    omega
  have hhi : (decimal c.time.toNat).length ≤ 4 := by
    rw [decimal_length_le_iff (by omega)]
    omega
  unfold LogCall.row
  rw [length_historyRow, h5]
  have hp : (decimal (period 5)).length = 2 := rfl
  have hm : (decimal (5 : UInt8).toNat).length = 1 := rfl
  omega

theorem LogCall.length_row_of_not_long {c : LogCall} (h : ¬ c.Long) : c.row.length < 29 := by
  have hb := c.bounded
  -- only mode 5 runs long enough for four digits
  have hlt : c.time.toNat < 1000 := by
    by_cases h5 : c.mode = 5
    · by_contra hge
      exact h ⟨h5, by omega⟩
    · have := openTime_lt_thousand h5
      omega
  have ht : (decimal c.time.toNat).length ≤ 3 := by
    rw [decimal_length_le_iff (by omega)]
    omega
  have hpm : (decimal (period c.mode)).length ≤ 2 ∧ (decimal c.mode.toNat).length = 1 := by
    rcases c.mode_cases with hm | hm | hm | hm | hm <;> rw [hm] <;> decide
  unfold LogCall.row
  rw [length_historyRow]
  omega

/-! ## §2. One turn of the loop. -/

/-- The four conversions on a row, with or without its newline. -/
theorem sscanfRow_row (c : LogCall) (f : Fields) {tail : List UInt8}
    (htail : tail = [] ∨ tail = [0x0a]) : sscanfRow (c.row ++ tail) f = c.fields :=
  sscanfRow_rowText c.stamp c.mode f (decimal_ne_nil _) (fun b hb => (decimal_plain _ b hb).2.2.2)
    htail

/-- Bytes of a row: no NUL and no newline. -/
theorem LogCall.row_plain (c : LogCall) : ∀ b ∈ c.row, b ≠ 0 ∧ b ≠ 0x0a :=
  historyRow_plain c.stamp c.mode c.time

/-- What the loop does after a row: stop at `LOG_MAX`, or go on. -/
def uploadNext (fuel : ℕ) (f : List UInt8) (u : Upload) : Upload :=
  if u.line_count ≥ LOG_MAX then u else uploadLoop fuel f u

theorem uploadLoop_line {fuel : ℕ} {f line rest : List UInt8} {u : Upload} {v : Fields}
    (hread : fgets 30 f = some (line, rest)) (hnul : ∀ b ∈ line, b ≠ 0)
    (hscan : sscanfRow line u.fields = v) :
    uploadLoop (fuel + 1) f u = uploadNext fuel rest (u.addRow v) := by
  unfold uploadLoop uploadNext
  rw [hread]
  show (if (u.addRow (sscanfRow (cstr line) u.fields)).line_count ≥ LOG_MAX then _ else _) = _
  rw [cstr_eq_self hnul, hscan]

/-- A short row is one turn. -/
theorem uploadLoop_short {c : LogCall} (hc : ¬ c.Long) (fuel : ℕ) (rest : List UInt8)
    (u : Upload) :
    uploadLoop (fuel + 1) (c.line ++ rest) u = uploadNext fuel rest (u.addRow c.fields) := by
  have hline : c.line ++ rest = c.row ++ 0x0a :: rest := by
    unfold LogCall.line
    rw [List.append_assoc]
    rfl
  have hread : fgets 30 (c.line ++ rest) = some (c.row ++ [0x0a], rest) := by
    rw [hline]
    exact fgets_row_of_lt (LogCall.length_row_of_not_long hc) rest
  refine uploadLoop_line hread (fun b hb => ?_) (sscanfRow_row c u.fields (Or.inr rfl))
  rcases List.mem_append.mp hb with hb | hb
  · exact (c.row_plain b hb).1
  · rw [List.mem_singleton.mp hb]
    decide

/-- A long row fills the line buffer and leaves its newline. -/
theorem uploadLoop_long {c : LogCall} (hc : c.Long) (fuel : ℕ) (rest : List UInt8)
    (u : Upload) :
    uploadLoop (fuel + 1) (c.line ++ rest) u
      = uploadNext fuel (0x0a :: rest) (u.addRow c.fields) := by
  have hline : c.line ++ rest = c.row ++ 0x0a :: rest := by
    unfold LogCall.line
    rw [List.append_assoc]
    rfl
  have hread : fgets 30 (c.line ++ rest) = some (c.row, 0x0a :: rest) := by
    rw [hline, fgets_of_ne_nil (by simp), show 30 - 1 = c.row.length from
      (LogCall.length_row_of_long hc).symm]
    exact congrArg some (takeLine_full _ fun b hb => (c.row_plain b hb).2)
  have hscan := sscanfRow_row c u.fields (Or.inl rfl)
  rw [List.append_nil] at hscan
  exact uploadLoop_line hread (fun b hb => (c.row_plain b hb).1) hscan

/-- The newline left over is a turn of its own: it becomes the date, and the
other fields stay those of the row before. -/
theorem uploadLoop_newline (fuel : ℕ) (rest : List UInt8) (u : Upload) :
    uploadLoop (fuel + 1) (0x0a :: rest) u
      = uploadNext fuel rest (u.addRow { u.fields with str1 := [0x0a] }) :=
  uploadLoop_line rfl (List.all_iff_forall_prop.mp (by decide)) rfl

/-! ## §3. The loop over a written log. -/

/-- The rows that the loop takes a call's line for. -/
def LogCall.reads (c : LogCall) : List Fields :=
  if c.Long then [c.fields, { c.fields with str1 := [0x0a] }] else [c.fields]

/-- The file that holds the rows of `recent`, the most recent call first. -/
def logFile (recent : List LogCall) : List UInt8 := recent.flatMap LogCall.line

/-- The rows that the loop takes the whole file for. -/
def rowReads (recent : List LogCall) : List Fields := recent.flatMap LogCall.reads

/-- The call without what is known of its arguments. -/
def LogCall.call (c : LogCall) : SaveCall := { stamp := c.stamp, mode := c.mode, time := c.time }

theorem logFile_eq (recent : List LogCall) : logFile recent = rowsFile (recent.map LogCall.call) := by
  induction recent with
  | nil => rfl
  | cons c recent ih =>
      have hcons : logFile (c :: recent) = c.line ++ logFile recent := List.flatMap_cons
      rw [hcons, ih, LogCall.line, List.append_assoc]
      rfl

/-- The log is the rows of the calls, the last call first. -/
theorem savedLog_eq (calls : List LogCall) : savedLog calls = logFile calls.reverse := by
  have hcalls : savedLog calls = callsFile (calls.map LogCall.call) := by
    unfold savedLog callsFile
    rw [List.foldl_map]
    rfl
  rw [hcalls, callsFile_eq, ← List.map_reverse, logFile_eq]

/-- The rows of the columns after at most `n` further turns. -/
theorem uploadNext_rows {recent : List LogCall} {fuel n : ℕ} {u : Upload}
    (ih : ∀ {fuel : ℕ} {u : Upload}, (logFile recent).length ≤ fuel → u.line_count < LOG_MAX →
      uploadLoop fuel (logFile recent) u
        = ((rowReads recent).take (LOG_MAX - u.line_count)).foldl Upload.addRow u)
    (hfuel : (logFile recent).length ≤ fuel) (hn : n = LOG_MAX - u.line_count) :
    uploadNext fuel (logFile recent) u = ((rowReads recent).take n).foldl Upload.addRow u := by
  unfold uploadNext
  by_cases hfull : u.line_count ≥ LOG_MAX
  · rw [if_pos hfull, hn, Nat.sub_eq_zero_of_le hfull]
    rfl
  · rw [if_neg hfull, ih hfuel (by omega), hn]

/-- **The loop over a written log.**  It adds the rows it takes the file for,
as many as there is room for. -/
theorem uploadLoop_rows :
    ∀ (recent : List LogCall) {fuel : ℕ} {u : Upload}, (logFile recent).length ≤ fuel →
      u.line_count < LOG_MAX →
      uploadLoop fuel (logFile recent) u
        = ((rowReads recent).take (LOG_MAX - u.line_count)).foldl Upload.addRow u
  | [], fuel, u, _, _ => by
      have hnil : (rowReads []).take (LOG_MAX - u.line_count) = [] := List.take_nil
      rw [hnil]
      cases fuel with
      | zero => rfl
      | succ fuel => rfl
  | c :: recent, fuel, u, hfuel, hroom => by
      have hfile : logFile (c :: recent) = c.line ++ logFile recent := List.flatMap_cons
      have hline : 2 ≤ c.line.length := by
        unfold LogCall.line LogCall.row
        rw [List.length_append, length_historyRow, List.length_singleton]
        omega
      rw [hfile, List.length_append] at hfuel
      have hreads : rowReads (c :: recent) = c.reads ++ rowReads recent := List.flatMap_cons
      obtain ⟨n, hn⟩ : ∃ n, LOG_MAX - u.line_count = n + 1 := ⟨LOG_MAX - u.line_count - 1, by omega⟩
      have hcount : ∀ v, (u.addRow v).line_count = u.line_count + 1 := fun _ => rfl
      rw [hfile, hreads, hn]
      by_cases hc : c.Long
      · -- a long row takes two turns: its 29 bytes, then its newline
        obtain ⟨f, rfl⟩ : ∃ f, fuel = f + 2 := ⟨fuel - 2, by omega⟩
        rw [uploadLoop_long hc]
        unfold LogCall.reads
        rw [if_pos hc, List.cons_append, List.take_succ_cons, List.foldl_cons, List.cons_append,
          List.nil_append]
        unfold uploadNext
        by_cases hfull : (u.addRow c.fields).line_count ≥ LOG_MAX
        · rw [if_pos hfull, show n = 0 by rw [hcount] at hfull; omega]
          rfl
        · obtain ⟨k, rfl⟩ : ∃ k, n = k + 1 := ⟨n - 1, by rw [hcount] at hfull; omega⟩
          rw [if_neg hfull, uploadLoop_newline, List.take_succ_cons, List.foldl_cons]
          exact uploadNext_rows (uploadLoop_rows recent) (by omega) (by
            show k = LOG_MAX - (u.line_count + 1 + 1)
            omega)
      · -- any other row is one turn
        obtain ⟨f, rfl⟩ : ∃ f, fuel = f + 1 := ⟨fuel - 1, by omega⟩
        rw [uploadLoop_short hc]
        unfold LogCall.reads
        rw [if_neg hc, List.cons_append, List.take_succ_cons, List.foldl_cons, List.nil_append]
        exact uploadNext_rows (uploadLoop_rows recent) (by omega) (by rw [hcount]; omega)

/-! ## §4. The columns. -/

/-- A column of entries: `["…","…"]`. -/
def column (entries : List (List UInt8)) : List UInt8 :=
  0x5b :: ((entries.map quoted).intersperse [0x2c]).flatten ++ [0x5d]

/-- The columns of the given rows, numbered from 1. -/
def columnsOf (rows : List Fields) : List Command :=
  columnLabels (column ((List.range rows.length).map fun i => decimal (i + 1)))
    (column (rows.map Fields.str1)) (column (rows.map Fields.str2))
    (column (rows.map Fields.str3)) (column (rows.map Fields.str4))

/-- The entries as `sprintf` appends them, each with its comma. -/
def entriesText (entries : List (List UInt8)) : List UInt8 := (entries.map columnEntry).flatten

theorem entriesText_cons (e : List UInt8) (es : List (List UInt8)) :
    entriesText (e :: es) = quoted e ++ 0x2c :: entriesText es := by
  unfold entriesText columnEntry
  rw [List.map_cons, List.flatten_cons, List.append_assoc]
  rfl

/-- Without its last comma, the text is the entries with commas between them. -/
theorem entriesText_eq {entries : List (List UInt8)} (hne : entries ≠ []) :
    entriesText entries = ((entries.map quoted).intersperse [0x2c]).flatten ++ [0x2c] := by
  match entries, hne with
  | [e], _ =>
      rw [entriesText_cons]
      show quoted e ++ [0x2c] = [quoted e].flatten ++ [0x2c]
      rw [List.flatten_singleton]
  | e :: e' :: es, _ =>
      rw [entriesText_cons, entriesText_eq (List.cons_ne_nil e' es), List.map_cons]
      show _ = (quoted e :: [0x2c] :: ((e' :: es).map quoted).intersperse [0x2c]).flatten ++ _
      rw [List.flatten_cons, List.flatten_cons, List.append_assoc, List.append_assoc]
      rfl

theorem closeColumn_entriesText {entries : List (List UInt8)} (hne : entries ≠ []) :
    closeColumn ([0x5b] ++ entriesText entries) = column entries := by
  unfold closeColumn column
  rw [entriesText_eq hne, ← List.append_assoc, List.dropLast_concat]
  rfl

/-- Columns with the same text have the same entries' text. -/
theorem entriesText_of_column {es ds : List (List UInt8)} (hes : es ≠ []) (hds : ds ≠ [])
    (h : column es = column ds) : entriesText es = entriesText ds := by
  unfold column at h
  have hinner := (List.append_inj_left' h rfl)
  rw [entriesText_eq hes, entriesText_eq hds, (List.cons.inj hinner).2]

/-- What a run of rows appends to one column. -/
theorem foldl_addRow_column {π : Upload → List UInt8} {g : Fields → List UInt8}
    (h : ∀ u f, π (u.addRow f) = π u ++ columnEntry (g f)) :
    ∀ (rows : List Fields) (u : Upload),
      π (rows.foldl Upload.addRow u) = π u ++ entriesText (rows.map g)
  | [], u => (List.append_nil _).symm
  | f :: rows, u => by
      rw [List.foldl_cons, foldl_addRow_column h rows (u.addRow f), h, List.map_cons]
      show _ = _ ++ (columnEntry (g f) ++ entriesText (rows.map g))
      rw [List.append_assoc]

theorem foldl_addRow_index :
    ∀ (rows : List Fields) (u : Upload),
      (rows.foldl Upload.addRow u).array_res_1
        = u.array_res_1
          ++ entriesText ((List.range rows.length).map fun i => decimal (u.line_count + i + 1))
  | [], u => (List.append_nil _).symm
  | f :: rows, u => by
      rw [List.foldl_cons, foldl_addRow_index rows (u.addRow f), List.length_cons,
        List.range_succ_eq_map, List.map_cons, List.map_map]
      have hshift : (fun i => decimal ((u.addRow f).line_count + i + 1))
          = (fun i => decimal (u.line_count + i + 1)) ∘ Nat.succ := by
        funext i
        show decimal (u.line_count + 1 + i + 1) = decimal (u.line_count + (i + 1) + 1)
        rw [Nat.add_right_comm u.line_count 1 i, Nat.add_assoc u.line_count i 1]
      rw [hshift]
      show (u.array_res_1 ++ columnEntry (decimal (u.line_count + 1))) ++ _
        = u.array_res_1 ++ (columnEntry (decimal (u.line_count + 0 + 1)) ++ entriesText _)
      rw [List.append_assoc, Nat.add_zero]

theorem rowReads_take_ne_nil {calls : List LogCall} (hne : calls ≠ []) :
    (rowReads calls.reverse).take LOG_MAX ≠ [] := by
  cases hr : calls.reverse with
  | nil => exact absurd (List.reverse_eq_nil_iff.mp hr) hne
  | cons c recent =>
      unfold rowReads LogCall.reads
      rw [List.flatMap_cons]
      split <;> exact List.cons_ne_nil _ _

/-- A loop that has added some rows leaves the columns of these rows. -/
theorem push_history_rows {file : List UInt8} {stack : Fields} {rows : List Fields}
    (hne : rows ≠ []) (hloop : uploadLoop file.length file (Upload.start stack)
      = rows.foldl Upload.addRow (Upload.start stack)) :
    push_history (some file) stack = columnsOf rows := by
  have hcol : ∀ (g : Fields → List UInt8), rows.map g ≠ [] := fun g => by
    rw [Ne, List.map_eq_nil_iff]
    exact hne
  unfold push_history
  simp only [hloop]
  rw [foldl_addRow_index, foldl_addRow_column (π := Upload.array_res_2) (g := Fields.str1)
      (fun _ _ => rfl), foldl_addRow_column (π := Upload.array_res_3) (g := Fields.str2)
      (fun _ _ => rfl), foldl_addRow_column (π := Upload.array_res_4) (g := Fields.str3)
      (fun _ _ => rfl), foldl_addRow_column (π := Upload.array_res_5) (g := Fields.str4)
      (fun _ _ => rfl)]
  have hindex : (List.range rows.length).map (fun i => decimal ((Upload.start stack).line_count
      + i + 1)) = (List.range rows.length).map fun i => decimal (i + 1) := by
    apply List.map_congr_left
    intro i _
    show decimal (0 + i + 1) = _
    rw [Nat.zero_add]
  have hindexne : (List.range rows.length).map (fun i => decimal (i + 1)) ≠ [] := by
    rw [Ne, List.map_eq_nil_iff, List.range_eq_nil, List.length_eq_zero_iff]
    exact hne
  rw [hindex]
  unfold columnsOf
  rw [← closeColumn_entriesText hindexne, ← closeColumn_entriesText (hcol Fields.str1),
    ← closeColumn_entriesText (hcol Fields.str2), ← closeColumn_entriesText (hcol Fields.str3),
    ← closeColumn_entriesText (hcol Fields.str4)]
  rfl

/-- What `push_history` sends for a written log: the columns of the rows that
the loop takes it for. -/
theorem push_history_savedLog {calls : List LogCall} (hne : calls ≠ []) (stack : Fields) :
    push_history (some (savedLog calls)) stack
      = columnsOf ((rowReads calls.reverse).take LOG_MAX) := by
  refine push_history_rows (rowReads_take_ne_nil hne) ?_
  rw [savedLog_eq]
  exact uploadLoop_rows calls.reverse (le_refl _) (show 0 < LOG_MAX by decide)

/-! ## §5. The exact condition. -/

/-- No long row with room behind it: the loop reads row for row. -/
theorem rowReads_take_of_short :
    ∀ (m : ℕ) (recent : List LogCall), (∀ c ∈ recent.take (m - 1), ¬ c.Long) →
      (rowReads recent).take m = (recent.take m).map LogCall.fields
  | 0, _, _ => rfl
  | _ + 1, [], _ => rfl
  | 1, c :: recent, _ => by
      unfold rowReads LogCall.reads
      rw [List.flatMap_cons]
      split <;> rfl
  | m + 2, c :: recent, h => by
      have hc : ¬ c.Long := h c List.mem_cons_self
      have htail := rowReads_take_of_short (m + 1) recent fun d hd =>
        h d (List.mem_cons_of_mem c hd)
      have hreads : rowReads (c :: recent) = c.fields :: rowReads recent := by
        unfold rowReads
        rw [List.flatMap_cons, LogCall.reads, if_neg hc]
        rfl
      rw [hreads, List.take_succ_cons, htail, List.take_succ_cons, List.map_cons]

/-- A long row with room behind it shows in the date column. -/
theorem short_of_entriesText :
    ∀ (m : ℕ) (recent : List LogCall),
      entriesText (((rowReads recent).take m).map Fields.str1)
          = entriesText ((recent.take m).map fun c => c.stamp.text) →
        ∀ c ∈ recent.take (m - 1), ¬ c.Long
  | 0, _, _ => fun c hc => absurd hc (by simp)
  | 1, _, _ => fun c hc => absurd hc (by simp)
  | _ + 2, [], _ => fun c hc => absurd hc (by simp)
  | m + 2, c :: recent, h => by
      have hhead : (recent.take (m + 1)).map (fun c => c.stamp.text) = [] ∨
          ∃ b s, entriesText ((recent.take (m + 1)).map fun c => c.stamp.text) = 0x22 :: b :: s ∧
            isDigit b = true := by
        cases recent with
        | nil => exact Or.inl rfl
        | cons d recent =>
            obtain ⟨b, s, hb, hdig⟩ := d.stamp.text_head
            refine Or.inr ⟨b, s ++ [0x22] ++ 0x2c :: entriesText ((recent.take m).map
              fun c => c.stamp.text), ?_, hdig⟩
            rw [List.take_succ_cons, List.map_cons, entriesText_cons, hb]
            rfl
      by_cases hc : c.Long
      · exfalso
        have hreads : rowReads (c :: recent)
            = c.fields :: { c.fields with str1 := [0x0a] } :: rowReads recent := by
          unfold rowReads
          rw [List.flatMap_cons, LogCall.reads, if_pos hc]
          rfl
        rw [hreads, List.take_succ_cons, List.take_succ_cons, List.take_succ_cons, List.map_cons,
          List.map_cons, List.map_cons, entriesText_cons, entriesText_cons, entriesText_cons] at h
        -- behind the same date, a newline stands where a digit or nothing should
        have hrest := (List.cons.inj (List.append_cancel_left h)).2
        rcases hhead with hnil | ⟨b, s, hb, hdig⟩
        · rw [hnil] at hrest
          cases hrest
        · rw [hb] at hrest
          have hbyte : (0x0a : UInt8) = b := (List.cons.inj (List.cons.inj hrest).2).1
          rw [← hbyte] at hdig
          exact absurd hdig (by decide)
      · have hreads : rowReads (c :: recent) = c.fields :: rowReads recent := by
          unfold rowReads
          rw [List.flatMap_cons, LogCall.reads, if_neg hc]
          rfl
        rw [hreads, List.take_succ_cons, List.take_succ_cons, List.map_cons, List.map_cons,
          entriesText_cons, entriesText_cons] at h
        have hrest := (List.cons.inj (List.append_cancel_left h)).2
        have htail := short_of_entriesText (m + 1) recent hrest
        intro d hd
        rcases List.mem_cons.mp hd with rfl | hd
        · exact hc
        · exact htail d hd

/-- **The columns are those of the most recent calls, exactly when no call
followed by room for another row wrote a row of 29 bytes.** -/
theorem push_history_iff (calls : List LogCall) (hne : calls ≠ []) (stack : Fields) :
    push_history (some (savedLog calls)) stack
        = columnsOf ((calls.reverse.take LOG_MAX).map LogCall.fields) ↔
      ∀ c ∈ calls.reverse.take (LOG_MAX - 1), ¬ c.Long := by
  rw [push_history_savedLog hne]
  constructor
  · intro h
    -- the second of the five labels is the column of dates
    have hdates : column (((rowReads calls.reverse).take LOG_MAX).map Fields.str1)
        = column (((calls.reverse.take LOG_MAX).map LogCall.fields).map Fields.str1) := by
      have hlabels := (List.cons.inj (List.cons.inj h).2).1
      exact (Command.set_text.inj hlabels).2.2.1
    have hreadne : (rowReads calls.reverse).take LOG_MAX ≠ [] := rowReads_take_ne_nil hne
    have hcallne : calls.reverse.take LOG_MAX ≠ [] := by
      rw [Ne, List.take_eq_nil_iff, List.reverse_eq_nil_iff]
      exact fun h0 => h0.elim (by decide) hne
    have hentries := entriesText_of_column (by rw [Ne, List.map_eq_nil_iff]; exact hreadne)
      (by rw [Ne, List.map_eq_nil_iff, List.map_eq_nil_iff]; exact hcallne) hdates
    rw [List.map_map] at hentries
    exact short_of_entriesText LOG_MAX calls.reverse hentries
  · intro h
    rw [rowReads_take_of_short LOG_MAX calls.reverse h]

/-- Noon on the first day of 2025. -/
def someStamp : Stamp :=
  { month := 0, day := 0, year := 2025, hour := 12, minute := 0, second := 0 }

/-- A full session in mode 5, of twenty minutes. -/
def twentyMinutes : LogCall :=
  { stamp := someStamp, mode := 5, time := 1200, known := by decide, bounded := by decide }

/-- A full session in mode 1, of two minutes. -/
def twoMinutes : LogCall :=
  { stamp := someStamp, mode := 1, time := 120, known := by decide, bounded := by decide }

/-- Two full sessions, and one in mode 3 that was stopped after seven seconds. -/
def threeSessions : List LogCall :=
  [twentyMinutes, twoMinutes,
    { stamp := someStamp, mode := 3, time := 7, known := by decide, bounded := by decide }]

theorem push_history_iff_threeSessions :
    threeSessions ≠ [] ∧ (push_history (some (savedLog threeSessions)) ⟨[], [], [], []⟩
        = columnsOf ((threeSessions.reverse.take LOG_MAX).map LogCall.fields) ↔
      ∀ c ∈ threeSessions.reverse.take (LOG_MAX - 1), ¬ c.Long) :=
  ⟨List.cons_ne_nil _ _,
    push_history_iff threeSessions (List.cons_ne_nil _ _) ⟨[], [], [], []⟩⟩

/-- One full session in mode 5 comes back as two rows. -/
theorem push_history_twentyMinutes :
    push_history (some (savedLog [twentyMinutes])) ⟨[], [], [], []⟩
      ≠ columnsOf (([twentyMinutes].reverse.take LOG_MAX).map LogCall.fields) := by
  decide +kernel

end StoneHMI
