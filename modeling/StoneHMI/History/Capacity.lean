/-
  StoneHMI.History.Capacity
  ─────────────────────────
  **THE UPLOAD FITS ITS BUFFERS — `array_res_1` to `array_res_5` and `STONE_TX_BUF`.**

  Every turn of `push_history`'s loop appends one entry to each of five local
  arrays, and `LOG_MAX` ends the loop behind the append.  `Within` relates the
  number of turns to the lengths of the five strings; one turn keeps it (§2),
  and so every turn of every file does, as long as the fields have the widths
  that rows with a mode of one digit and a time of four have.

  `upload_in_bounds` is the result: at every turn and behind the closing bracket
  the arrays hold their strings, and each of the five frames fits `STONE_TX_BUF`.
-/
import StoneHMI.History.Rows
import StoneHMI.Transport.Print

namespace StoneHMI

open CText

/-! ## §1. Turns and arrays. -/

/-- The state behind each turn of the loop. -/
def uploadTurns : ℕ → List UInt8 → Upload → List Upload
  | 0, _, _ => []
  | fuel + 1, f, u =>
      match fgets 30 f with
      | none => []
      | some (line, f) =>
          let u := u.addRow (sscanfRow (cstr line) u.fields)
          if u.line_count ≥ LOG_MAX then [u] else u :: uploadTurns fuel f u

/-- The loop leaves the state behind its last turn. -/
theorem uploadLoop_eq_getLastD : ∀ (fuel : ℕ) (f : List UInt8) (u : Upload),
    uploadLoop fuel f u = (uploadTurns fuel f u).getLastD u
  | 0, _, _ => rfl
  | fuel + 1, f, u => by
      unfold uploadLoop uploadTurns
      cases fgets 30 f with
      | none => rfl
      | some r =>
          simp only
          split
          · rfl
          · rw [uploadLoop_eq_getLastD fuel, List.getLastD_cons]

/-- `INDEX` -/
def INDEX : ℕ := 7

/-- `DATE` -/
def DATE : ℕ := 22

/-- `TIME_MODE` -/
def TIME_MODE : ℕ := 5

/-- `MODE` -/
def MODE : ℕ := 4

/-- `TIME_RUN` -/
def TIME_RUN : ℕ := 7

/-- The five strings with their NULs fit `array_res_1[INDEX*LOG_MAX+3]` and so on. -/
structure Upload.Fit (u : Upload) : Prop where
  array_res_1 : u.array_res_1.length < INDEX * LOG_MAX + 3
  array_res_2 : u.array_res_2.length < DATE * LOG_MAX + 3
  array_res_3 : u.array_res_3.length < TIME_MODE * LOG_MAX + 3
  array_res_4 : u.array_res_4.length < MODE * LOG_MAX + 3
  array_res_5 : u.array_res_5.length < TIME_RUN * LOG_MAX + 3

/-- `"]"` over the last byte of each string. -/
def Upload.close (u : Upload) : Upload :=
  { u with
    array_res_1 := closeColumn u.array_res_1
    array_res_2 := closeColumn u.array_res_2
    array_res_3 := closeColumn u.array_res_3
    array_res_4 := closeColumn u.array_res_4
    array_res_5 := closeColumn u.array_res_5 }

/-- The five strings. -/
def Upload.columns (u : Upload) : List (List UInt8) :=
  [u.array_res_1, u.array_res_2, u.array_res_3, u.array_res_4, u.array_res_5]

/-- The widths of the four fields. -/
structure Fields.Width (f : Fields) : Prop where
  str1 : f.str1.length ≤ 19
  str2 : f.str2.length ≤ 2
  str3 : f.str3.length ≤ 1
  str4 : f.str4.length ≤ 4

instance (f : Fields) : Decidable f.Width :=
  decidable_of_iff (f.str1.length ≤ 19 ∧ f.str2.length ≤ 2 ∧ f.str3.length ≤ 1 ∧ f.str4.length ≤ 4)
    ⟨fun ⟨h1, h2, h3, h4⟩ => ⟨h1, h2, h3, h4⟩, fun ⟨h1, h2, h3, h4⟩ => ⟨h1, h2, h3, h4⟩⟩

/-! ## §2. One turn. -/

/-- **The invariant**: behind `line_count` turns, each string is its bracket and at most as
many entries of its width. -/
structure Upload.Within (u : Upload) : Prop where
  count : u.line_count ≤ LOG_MAX
  started : ∀ s ∈ u.columns, s ≠ []
  array_res_1 : u.array_res_1.length ≤ 1 + 6 * u.line_count
  array_res_2 : u.array_res_2.length ≤ 1 + 22 * u.line_count
  array_res_3 : u.array_res_3.length ≤ 1 + 5 * u.line_count
  array_res_4 : u.array_res_4.length ≤ 1 + 4 * u.line_count
  array_res_5 : u.array_res_5.length ≤ 1 + 7 * u.line_count

theorem within_start (stack : Fields) : (Upload.start stack).Within := by
  constructor <;> simp [Upload.start, Upload.columns]

theorem length_columnEntry (s : List UInt8) : (columnEntry s).length = s.length + 3 := by
  simp [columnEntry, quoted]

/-- One entry more, of a width that the column has room for. -/
theorem length_append_columnEntry {s f : List UInt8} {width n : ℕ} (hs : s.length ≤ 1 + width * n)
    (hf : f.length + 3 ≤ width) : (s ++ columnEntry f).length ≤ 1 + width * (n + 1) := by
  rw [List.length_append, length_columnEntry, Nat.mul_succ]
  omega

/-- Up to `LOG_MAX`, a line's number has three digits at most. -/
theorem Upload.Within.addRow {u : Upload} (h : u.Within) (hroom : u.line_count < LOG_MAX)
    {f : Fields} (hf : f.Width) : (u.addRow f).Within := by
  have hmax : LOG_MAX = 200 := rfl
  have hdigits : (decimal (u.line_count + 1)).length ≤ 3 := by
    rw [decimal_length_le_iff (by omega)]
    omega
  obtain ⟨hf1, hf2, hf3, hf4⟩ := hf
  constructor
  · show u.line_count + 1 ≤ LOG_MAX
    omega
  · -- an entry has been appended to each
    simp [Upload.columns, Upload.addRow, columnEntry, quoted]
  · exact length_append_columnEntry h.array_res_1 (by omega)
  · exact length_append_columnEntry h.array_res_2 (by omega)
  · exact length_append_columnEntry h.array_res_3 (by omega)
  · exact length_append_columnEntry h.array_res_4 (by omega)
  · exact length_append_columnEntry h.array_res_5 (by omega)

theorem Upload.Within.fit {u : Upload} (h : u.Within) : u.Fit := by
  have hmax : LOG_MAX = 200 := rfl
  obtain ⟨h0, -, h1, h2, h3, h4, h5⟩ := h
  constructor
  · show u.array_res_1.length < 7 * LOG_MAX + 3
    omega
  · show u.array_res_2.length < 22 * LOG_MAX + 3
    omega
  · show u.array_res_3.length < 5 * LOG_MAX + 3
    omega
  · show u.array_res_4.length < 4 * LOG_MAX + 3
    omega
  · show u.array_res_5.length < 7 * LOG_MAX + 3
    omega

/-! ## §3. Every file. -/

/-- **Every turn** keeps the strings within their entries. -/
theorem within_uploadTurns : ∀ (fuel : ℕ) {f : List UInt8} {u : Upload}, u.Within →
    u.line_count < LOG_MAX → (∀ v ∈ uploadTurns fuel f u, v.fields.Width) →
    ∀ v ∈ uploadTurns fuel f u, v.Within
  | 0, _, _, _, _, _ => by simp [uploadTurns]
  | fuel + 1, f, u, hu, hroom, hwidth => by
      unfold uploadTurns at hwidth ⊢
      cases hread : fgets 30 f with
      | none => simp
      | some r =>
          obtain ⟨line, rest⟩ := r
          simp only [hread] at hwidth ⊢
          set w := u.addRow (sscanfRow (cstr line) u.fields) with hw
          -- the append comes before the test, so the last turn is one that had room
          split at hwidth
          · rename_i hfull
            rw [if_pos hfull]
            intro v hv
            rw [List.mem_singleton.mp hv]
            exact hu.addRow hroom (hwidth w List.mem_cons_self)
          · rename_i hgo
            rw [if_neg hgo]
            have hnext : w.Within := hu.addRow hroom (hwidth w List.mem_cons_self)
            intro v hv
            rcases List.mem_cons.mp hv with rfl | hv
            · exact hnext
            · exact within_uploadTurns fuel hnext (by omega)
                (fun x hx => hwidth x (List.mem_cons_of_mem w hx)) v hv

/-- The closing bracket takes the place of a byte, which each string has. -/
theorem length_closeColumn {s : List UInt8} (h : s ≠ []) : (closeColumn s).length = s.length := by
  have hpos := List.length_pos_iff.mpr h
  unfold closeColumn
  rw [List.length_append, List.length_dropLast, List.length_singleton]
  omega

/-- The frame of a column is the column and 80 bytes around it. -/
theorem frame_columnLabel {i : ℕ} (hi : i < 10) (column : List UInt8) :
    ∃ w, (columnLabel i column).frame = some w ∧ w.length = column.length + 80 := by
  have hdigit : (decimal i).length = 1 := by
    rw [decimal_of_lt hi]
    rfl
  have hconst : STR_HEAD_CMD2.length = 15 ∧ (str "set_text").length = 8 ∧ (str "type").length = 4 ∧
      (str "label").length = 5 ∧ (str "widget").length = 6 ∧ (str "lable").length = 5 ∧
      (str "_copy1_").length = 7 ∧ (decimal LOG_MAX).length = 3 ∧ (str "text").length = 4 ∧
      STR_END.length = 4 := ⟨rfl, rfl, rfl, rfl, rfl, rfl, rfl, rfl, rfl, rfl⟩
  refine ⟨_, rfl, ?_⟩
  simp only [commandFrame, List.map_cons, List.map_nil, List.flatten_cons, List.flatten_nil,
    List.append_nil, List.length_append, List.length_cons, List.length_nil, field, quoted, hdigit,
    if_true]
  omega

/-- The commands of an upload are five columns. -/
theorem mem_columnLabels {c1 c2 c3 c4 c5 : List UInt8} {c : Command}
    (h : c ∈ columnLabels c1 c2 c3 c4 c5) :
    ∃ i column, i < 10 ∧ column ∈ [c1, c2, c3, c4, c5] ∧ c = columnLabel i column := by
  unfold columnLabels at h
  simp only [List.mem_cons, List.not_mem_nil, or_false] at h
  rcases h with rfl | rfl | rfl | rfl | rfl
  · exact ⟨1, c1, by omega, by simp, rfl⟩
  · exact ⟨2, c2, by omega, by simp, rfl⟩
  · exact ⟨3, c3, by omega, by simp, rfl⟩
  · exact ⟨4, c4, by omega, by simp, rfl⟩
  · exact ⟨5, c5, by omega, by simp, rfl⟩

/-- No string is empty, so the bracket that closes it makes none longer. -/
theorem Upload.Within.fit_close {u : Upload} (h : u.Within) : u.close.Fit := by
  have hs : ∀ s ∈ u.columns, (closeColumn s).length = s.length := fun s hs =>
    length_closeColumn (h.started s hs)
  obtain ⟨f1, f2, f3, f4, f5⟩ := h.fit
  have hmem : u.columns = [u.array_res_1, u.array_res_2, u.array_res_3, u.array_res_4,
    u.array_res_5] := rfl
  rw [← hs _ (by simp [hmem])] at f1 f2 f3 f4 f5
  exact ⟨f1, f2, f3, f4, f5⟩

/-- Every string that fits its array leaves room for the frame around it. -/
theorem Upload.Fit.columns_lt {u : Upload} (h : u.Fit) : ∀ s ∈ u.columns, s.length + 80 < TX_LEN := by
  have hmax : LOG_MAX = 200 := rfl
  have htx : TX_LEN = 5000 := rfl
  obtain ⟨f1, f2, f3, f4, f5⟩ := h
  unfold INDEX at f1
  unfold DATE at f2
  unfold TIME_MODE at f3
  unfold MODE at f4
  unfold TIME_RUN at f5
  intro s hs
  simp only [Upload.columns, List.mem_cons, List.not_mem_nil, or_false] at hs
  rcases hs with rfl | rfl | rfl | rfl | rfl <;> omega

theorem push_history_eq (file : List UInt8) (stack : Fields) :
    push_history (some file) stack
      = let u := (uploadLoop file.length file (Upload.start stack)).close
        columnLabels u.array_res_1 u.array_res_2 u.array_res_3 u.array_res_4 u.array_res_5 := rfl

/-- The loop ends within the invariant as well. -/
theorem within_uploadLoop {file : List UInt8} {stack : Fields}
    (hwidth : ∀ u ∈ uploadTurns file.length file (Upload.start stack), u.fields.Width) :
    (uploadLoop file.length file (Upload.start stack)).Within := by
  have hturns := within_uploadTurns file.length (within_start stack) (show 0 < LOG_MAX by decide) hwidth
  rw [uploadLoop_eq_getLastD]
  cases hlast : uploadTurns file.length file (Upload.start stack) with
  | nil => exact within_start stack
  | cons u us =>
      rw [hlast] at hturns
      rw [List.getLastD_cons]
      exact hturns _ List.getLastD_mem_cons

/-- The frames behind such a loop fit. -/
theorem frames_of_within {file : List UInt8} {stack : Fields}
    (h : (uploadLoop file.length file (Upload.start stack)).Within) :
    ∀ c ∈ push_history (some file) stack, ∃ w, c.frame = some w ∧ w.length < TX_LEN := by
  intro c hc
  rw [push_history_eq] at hc
  obtain ⟨i, column, hi, hcolumn, rfl⟩ := mem_columnLabels hc
  obtain ⟨w, hw, hlen⟩ := frame_columnLabel hi column
  refine ⟨w, hw, ?_⟩
  rw [hlen]
  exact h.fit_close.columns_lt column hcolumn

/-- **THE UPLOAD STAYS IN BOUNDS**: for every file whose lines give fields of these widths, the
strings fit their arrays behind every turn; at the end none of them is empty, so that its last
byte can be overwritten, and closed they fit again; and each of the five frames, with its NUL,
fits `STONE_TX_BUF`. -/
theorem upload_in_bounds {file : List UInt8} {stack : Fields}
    (hwidth : ∀ u ∈ uploadTurns file.length file (Upload.start stack), u.fields.Width) :
    (∀ u ∈ uploadTurns file.length file (Upload.start stack), u.Fit) ∧
    (let u := uploadLoop file.length file (Upload.start stack);
      (∀ s ∈ u.columns, s ≠ []) ∧ u.close.Fit) ∧
    ∀ c ∈ push_history (some file) stack, ∃ w, c.frame = some w ∧ w.length < TX_LEN := by
  have hturns := within_uploadTurns file.length (within_start stack) (show 0 < LOG_MAX by decide) hwidth
  have hend := within_uploadLoop hwidth
  exact ⟨fun u hu => (hturns u hu).fit, ⟨hend.started, hend.fit_close⟩, frames_of_within hend⟩

/-- A log of three rows: after twenty minutes in mode 5, two in mode 1 and seven seconds in
mode 3. -/
def threeRows : List UInt8 :=
  str "01-01-2025 12:30:00,30,5,1200" ++ [0x0a] ++ str "01-01-2025 12:05:00,5,1,120" ++ [0x0a] ++
    str "01-01-2025 12:00:07,15,3,7" ++ [0x0a]

theorem upload_in_bounds_threeRows :
    let turns := uploadTurns threeRows.length threeRows (Upload.start ⟨[], [], [], []⟩);
    (∀ u ∈ turns, u.fields.Width) ∧ ∀ u ∈ turns, u.Fit :=
  have hwidth : ∀ u ∈ uploadTurns threeRows.length threeRows (Upload.start ⟨[], [], [], []⟩),
      u.fields.Width := by decide +kernel
  ⟨hwidth, (upload_in_bounds hwidth).1⟩

end StoneHMI
