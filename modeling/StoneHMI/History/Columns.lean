/-
  StoneHMI.History.Columns
  ────────────────────────
  **WHICH LOGS GIVE FIVE LISTS.**

  `push_history` overwrites the last byte of each column with its closing
  bracket, which is the comma behind the last entry, or the opening bracket
  where no line has been read.  A row of 29 bytes or more is not read in one
  turn; what is left of it, with its newline, becomes an entry of its own.

  `columnsListed_iff` is the condition on the calls of `save_history`, of any
  mode and time: for the five texts to be lists of one length, and for the
  writes on the way to them to stay in their buffers as well.

    §1  calls and lists           §3  turns on a written log
    §2  one turn                  §4  the exact condition
-/
import StoneHMI.History.RoundTrip
import StoneHMI.History.Capacity
import StoneHMI.Lib.Json

namespace StoneHMI

open CText

/-! ## §1. Calls and lists. -/

namespace SaveCall

/-- The row has no more than `n` bytes: the time has the digits that its place leaves it. -/
def RowWithin (n : ℕ) (c : SaveCall) : Prop := c.time.toNat < 10 ^ (n - timeOffset c.mode)

/-- One turn reads the row and its newline. -/
def Short (c : SaveCall) : Prop := c.RowWithin 28

/-- The fields of the row fit the buffers that they are read into. -/
def Narrow (c : SaveCall) : Prop := c.mode.toNat < 10 ∧ c.time.toNat < 1000

def fields (c : SaveCall) : Fields := rowFields c.stamp c.mode c.time

end SaveCall

/-- The turns that an upload takes on a file. -/
def turnsOf (file : List UInt8) (stack : Fields) : List Upload :=
  uploadTurns file.length file (Upload.start stack)

/-- The text is `[`, then `k` double-quoted strings without raw control characters, with
commas between them, then `]`. -/
def IsList (k : ℕ) (text : List UInt8) : Prop :=
  ∃ ss : List (List UInt8), ss.length = k ∧ (∀ s ∈ ss, Json.Plain s) ∧ text = Json.stringArray ss

/-- The commands set five texts, which are lists of one length. -/
def ColumnsListed (commands : List Command) : Prop :=
  ∃ k c1 c2 c3 c4 c5, commands = columnLabels c1 c2 c3 c4 c5 ∧
    ∀ c ∈ [c1, c2, c3, c4, c5], IsList k c

/-- Nothing is written past the end of a buffer, from the rows' texts to the frames. -/
structure HistoryInBounds (calls : List SaveCall) (stack : Fields) : Prop where
  buffer_time : ∀ c ∈ calls, c.row.length < 30
  fields : ∀ u ∈ turnsOf (callsFile calls) stack, u.fields.Fit
  arrays : ∀ u ∈ turnsOf (callsFile calls) stack, u.Fit
  closed : (uploadLoop (callsFile calls).length (callsFile calls) (Upload.start stack)).close.Fit
  frames : ∀ c ∈ push_history (some (callsFile calls)) stack,
    ∃ w, c.frame = some w ∧ w.length < TX_LEN

/-! ## §2. One turn. -/

theorem SaveCall.length_row (c : SaveCall) :
    c.row.length = timeOffset c.mode + (decimal c.time.toNat).length :=
  length_historyRow c.stamp c.mode c.time

theorem SaveCall.rowWithin_iff {n : ℕ} (hn : 26 < n) (c : SaveCall) :
    c.RowWithin n ↔ c.row.length ≤ n := by
  have hoff := (timeOffset_le c.mode).1
  unfold RowWithin
  rw [← decimal_length_le_iff (by omega), c.length_row]
  omega

theorem SaveCall.short_iff (c : SaveCall) : c.Short ↔ c.row.length < 29 := by
  rw [SaveCall.Short, SaveCall.rowWithin_iff (by omega)]
  omega

/-- A turn on some line. -/
theorem uploadTurns_line {fuel : ℕ} {f line rest : List UInt8} {u : Upload} {v : Fields}
    (hread : fgets 30 f = some (line, rest)) (hscan : sscanfRow (cstr line) u.fields = v) :
    uploadTurns (fuel + 1) f u
      = if (u.addRow v).line_count ≥ LOG_MAX then [u.addRow v]
        else u.addRow v :: uploadTurns fuel rest (u.addRow v) := by
  subst hscan
  simp only [uploadTurns, hread]

/-- A turn on a row: it takes the row's fields, and a short row whole. -/
theorem uploadTurns_row (c : SaveCall) (older : List UInt8) (fuel : ℕ) (u : Upload) :
    ∃ rest, (c.Short → rest = older) ∧
      uploadTurns (fuel + 1) (c.row ++ 0x0a :: older) u
        = if (u.addRow c.fields).line_count ≥ LOG_MAX then [u.addRow c.fields]
          else u.addRow c.fields :: uploadTurns fuel rest (u.addRow c.fields) := by
  obtain ⟨line, rest, hread, hscan, hrest⟩ := fgets_row c.stamp c.mode c.time older
  exact ⟨rest, fun hc => hrest (c.short_iff.mp hc), uploadTurns_line hread (hscan u.fields)⟩

theorem length_decimal_time (time : UInt16) : (decimal time.toNat).length ≤ 5 := by
  have hlt := time.toNat_lt
  rw [decimal_length_le_iff (by omega)]
  omega

/-- A turn on what is left of a row makes it the date, newline and all. -/
theorem uploadTurns_leftover (c : SaveCall) (older : List UInt8) (fuel : ℕ) (u : Upload) :
    ∃ v ∈ uploadTurns (fuel + 1) (c.row.drop 29 ++ 0x0a :: older) u, 0x0a ∈ v.fields.str1 := by
  have hdigits : ∀ b ∈ c.row.drop 29, b ∈ decimal c.time.toNat := by
    intro b hb
    rw [SaveCall.row, drop_historyRow] at hb
    exact List.mem_of_mem_drop hb
  have hplain : ∀ b ∈ c.row.drop 29, b ≠ 0 ∧ b ≠ 0x0a ∧ isComma b = false := by
    intro b hb
    obtain ⟨h0, h10, hcomma, -⟩ := decimal_plain _ b (hdigits b hb)
    exact ⟨h0, h10, hcomma⟩
  have hlen : (c.row.drop 29).length < 29 := by
    have hrow := c.length_row
    have hoff := (timeOffset_le c.mode).1
    have htime := length_decimal_time c.time
    rw [List.length_drop]
    omega
  have hread : fgets 30 (c.row.drop 29 ++ 0x0a :: older) = some (c.row.drop 29 ++ [0x0a], older) := by
    rw [fgets_of_ne_nil (by simp)]
    exact congrArg some (takeLine_newline older (fun b hb => (hplain b hb).2.1) hlen)
  have hline : ∀ b ∈ c.row.drop 29 ++ [0x0a], b ≠ 0 ∧ isComma b = false := by
    intro b hb
    rcases List.mem_append.mp hb with hb | hb
    · exact ⟨(hplain b hb).1, (hplain b hb).2.2⟩
    · rw [List.mem_singleton.mp hb]
      decide
  have hscan : sscanfRow (cstr (c.row.drop 29 ++ [0x0a])) u.fields
      = { u.fields with str1 := c.row.drop 29 ++ [0x0a] } := by
    rw [cstr_eq_self fun b hb => (hline b hb).1]
    unfold sscanfRow
    rw [scanset_all (by simp) fun b hb => (hline b hb).2]
    rfl
  refine ⟨u.addRow { u.fields with str1 := c.row.drop 29 ++ [0x0a] }, ?_, ?_⟩
  · rw [uploadTurns_line hread hscan]
    split <;> simp
  · show (0x0a : UInt8) ∈ c.row.drop 29 ++ [0x0a]
    simp

/-- A row that is cut takes two turns: its first 29 bytes, then the rest. -/
theorem uploadTurns_cut {c : SaveCall} (hcut : ¬ c.Short) (older : List UInt8) (fuel : ℕ)
    {u : Upload} (hroom : u.line_count + 1 < LOG_MAX) :
    ∃ v ∈ uploadTurns (fuel + 2) (c.row ++ 0x0a :: older) u, 0x0a ∈ v.fields.str1 := by
  have hread : fgets 30 (c.row ++ 0x0a :: older)
      = some (c.row.take 29, c.row.drop 29 ++ 0x0a :: older) :=
    fgets_row_of_le (Nat.le_of_not_lt fun h => hcut (c.short_iff.mpr h)) older
  have hgo : ∀ v, ¬ (u.addRow v).line_count ≥ LOG_MAX := by
    intro v
    show ¬ u.line_count + 1 ≥ LOG_MAX
    omega
  obtain ⟨v, hv, hnew⟩ := uploadTurns_leftover c older fuel
    (u.addRow (sscanfRow (cstr (c.row.take 29)) u.fields))
  refine ⟨v, ?_, hnew⟩
  rw [uploadTurns_line hread rfl, if_neg (hgo _)]
  exact List.mem_cons_of_mem _ hv

/-! ## §3. Turns on a written log. -/

theorem SaveCall.short_of_narrow {c : SaveCall} (h : c.Narrow) : c.Short := by
  have hoff := (timeOffset_le c.mode).2 h.1
  have htime : (decimal c.time.toNat).length ≤ 3 := (decimal_length_le_iff (by omega)).mpr h.2
  rw [c.short_iff, c.length_row]
  omega

/-- **Row for row**: where no row but the last that there is room for is cut, the turns take the
fields of the rows. -/
theorem fields_uploadTurns : ∀ (recent : List SaveCall) {fuel : ℕ} {u : Upload} (m : ℕ),
    (rowsFile recent).length ≤ fuel → u.line_count + m = LOG_MAX → 0 < m →
    (∀ c ∈ recent.take (m - 1), c.Short) →
    (uploadTurns fuel (rowsFile recent) u).map Upload.fields
      = (recent.take m).map SaveCall.fields
  | [], fuel, u, m, _, _, _, _ => by
      cases fuel <;> simp [uploadTurns, rowsFile, fgets]
  | c :: recent, fuel, u, m, hfuel, hm, hpos, hshort => by
      rw [length_rowsFile_cons] at hfuel
      obtain ⟨fuel, rfl⟩ : ∃ n, fuel = n + 1 := ⟨fuel - 1, by omega⟩
      obtain ⟨m, rfl⟩ : ∃ n, m = n + 1 := ⟨m - 1, by omega⟩
      obtain ⟨rest, hrest, hturn⟩ := uploadTurns_row c (rowsFile recent) fuel u
      have hcount : (u.addRow c.fields).line_count = u.line_count + 1 := rfl
      show (uploadTurns (fuel + 1) (c.row ++ 0x0a :: rowsFile recent) u).map _ = _
      rw [hturn, List.take_succ_cons, List.map_cons]
      by_cases hfull : (u.addRow c.fields).line_count ≥ LOG_MAX
      · -- the last row there is room for may be cut: nothing is read behind it
        rw [if_pos hfull, show m = 0 by omega]
        rfl
      · obtain ⟨n, rfl⟩ : ∃ n, m = n + 1 := ⟨m - 1, by omega⟩
        have hc : c.Short := hshort c List.mem_cons_self
        rw [if_neg hfull, List.map_cons, hrest hc,
          fields_uploadTurns recent (n + 1) (by omega) (by omega) (by omega)
            fun d hd => hshort d (List.mem_cons_of_mem c hd)]
        rfl

/-- A row that is cut, with room behind it, shows as a newline in a date. -/
theorem newline_of_not_short : ∀ (recent : List SaveCall) {fuel : ℕ} {u : Upload} (m : ℕ),
    (rowsFile recent).length ≤ fuel → u.line_count + m = LOG_MAX →
    (∃ c ∈ recent.take (m - 1), ¬ c.Short) →
    ∃ v ∈ uploadTurns fuel (rowsFile recent) u, 0x0a ∈ v.fields.str1
  | [], _, _, _, _, _, hcut => by simp at hcut
  | c :: recent, fuel, u, m, hfuel, hm, hcut => by
      rw [length_rowsFile_cons] at hfuel
      obtain ⟨fuel, rfl⟩ : ∃ n, fuel = n + 1 := ⟨fuel - 1, by omega⟩
      obtain ⟨n, rfl⟩ : ∃ n, m = n + 2 := by
        rcases m with _ | _ | n
        · simp at hcut
        · simp at hcut
        · exact ⟨n, rfl⟩
      show ∃ v ∈ uploadTurns (fuel + 1) (c.row ++ 0x0a :: rowsFile recent) u, _
      by_cases hc : c.Short
      · -- a short row is one turn, and a cut one comes later
        obtain ⟨rest, hrest, hturn⟩ := uploadTurns_row c (rowsFile recent) fuel u
        have hroom : ¬ (u.addRow c.fields).line_count ≥ LOG_MAX := by
          show ¬ u.line_count + 1 ≥ LOG_MAX
          omega
        have hlater : ∃ d ∈ recent.take n, ¬ d.Short := by
          obtain ⟨d, hd, hdcut⟩ := hcut
          rcases List.mem_cons.mp hd with rfl | hd
          · exact absurd hc hdcut
          · exact ⟨d, hd, hdcut⟩
        have hfuel' : (rowsFile recent).length ≤ fuel := by omega
        have hm' : (u.addRow c.fields).line_count + (n + 1) = LOG_MAX := by
          show u.line_count + 1 + (n + 1) = LOG_MAX
          omega
        obtain ⟨v, hv, hnew⟩ := newline_of_not_short recent (n + 1) hfuel' hm' hlater
        refine ⟨v, ?_, hnew⟩
        rw [hturn, if_neg hroom, hrest hc]
        exact List.mem_cons_of_mem _ hv
      · obtain ⟨fuel, rfl⟩ : ∃ n, fuel = n + 1 := by
          have hlen : ¬ c.row.length < 29 := fun h => hc (c.short_iff.mpr h)
          exact ⟨fuel - 1, by omega⟩
        exact uploadTurns_cut hc (rowsFile recent) fuel (by omega)

/-- Where all the fields fit, every row is narrow that there is room for. -/
theorem narrow_of_fit : ∀ (recent : List SaveCall) {fuel : ℕ} {u : Upload} (m : ℕ),
    (rowsFile recent).length ≤ fuel → u.line_count + m = LOG_MAX →
    (∀ v ∈ uploadTurns fuel (rowsFile recent) u, v.fields.Fit) →
    ∀ c ∈ recent.take m, c.Narrow
  | [], _, _, _, _, _, _ => by simp
  | _ :: _, _, _, 0, _, _, _ => by simp
  | c :: recent, fuel, u, m + 1, hfuel, hm, hfit => by
      rw [length_rowsFile_cons] at hfuel
      obtain ⟨fuel, rfl⟩ : ∃ n, fuel = n + 1 := ⟨fuel - 1, by omega⟩
      obtain ⟨rest, hrest, hturn⟩ := uploadTurns_row c (rowsFile recent) fuel u
      have hfit' : ∀ v ∈ uploadTurns (fuel + 1) (c.row ++ 0x0a :: rowsFile recent) u,
          v.fields.Fit := hfit
      rw [hturn] at hfit'
      -- the fields of this turn fit, so the row is narrow and leaves nothing behind
      have hnarrow : c.Narrow := by
        apply (rowFields_fit_iff c.stamp c.mode c.time).mp
        exact hfit' (u.addRow c.fields) (by split <;> simp)
      intro d hd
      rw [List.take_succ_cons] at hd
      rcases List.mem_cons.mp hd with rfl | hd
      · exact hnarrow
      · have hroom : ¬ (u.addRow c.fields).line_count ≥ LOG_MAX := by
          show ¬ u.line_count + 1 ≥ LOG_MAX
          intro hfull
          rw [show m = 0 by omega] at hd
          simp at hd
        rw [if_neg hroom, hrest (SaveCall.short_of_narrow hnarrow)] at hfit'
        exact narrow_of_fit recent (u := u.addRow c.fields) m (by omega)
          (by show u.line_count + 1 + m = LOG_MAX; omega)
          (fun v hv => hfit' v (List.mem_cons_of_mem _ hv)) d hd

/-! ## §4. The exact condition. -/

/-- The loop's result is that of adding the fields of its turns. -/
theorem uploadLoop_eq_foldl : ∀ (fuel : ℕ) (f : List UInt8) (u : Upload),
    uploadLoop fuel f u = ((uploadTurns fuel f u).map Upload.fields).foldl Upload.addRow u
  | 0, _, _ => rfl
  | fuel + 1, f, u => by
      unfold uploadLoop uploadTurns
      cases fgets 30 f with
      | none => rfl
      | some r =>
          simp only
          split
          · rfl
          · rw [uploadLoop_eq_foldl fuel]
            rfl

theorem push_history_turns {file : List UInt8} {stack : Fields} (hne : turnsOf file stack ≠ []) :
    push_history (some file) stack = columnsOf ((turnsOf file stack).map Upload.fields) :=
  push_history_rows (by rw [Ne, List.map_eq_nil_iff]; exact hne)
    (uploadLoop_eq_foldl file.length file (Upload.start stack))

/-- The closed column of some entries is an array of strings. -/
theorem column_eq_stringArray {es : List (List UInt8)} (hne : es ≠ []) :
    column es = Json.stringArray es := by
  have hquote : ∀ (e : List UInt8) (es : List (List UInt8)),
      (((e :: es).map quoted).intersperse [0x2c]).flatten = Json.commaList ((e :: es).map Json.quote) := by
    intro e es
    induction es generalizing e with
    | nil => rfl
    | cons d es ih =>
        have htail := ih d
        show quoted e ++ ([0x2c] ++ (((d :: es).map quoted).intersperse [0x2c]).flatten) = _
        rw [htail]
        rfl
  cases es with
  | nil => exact absurd rfl hne
  | cons e es =>
      unfold column Json.stringArray
      rw [hquote, List.cons_append]

/-- The texts of a list have no control characters. -/
theorem IsList.no_newline {k : ℕ} {text : List UInt8} (h : IsList k text) : 0x0a ∉ text := by
  obtain ⟨ss, -, hplain, rfl⟩ := h
  intro hmem
  obtain hmem | ⟨s, hs, hmem⟩ := Json.mem_stringArray hmem
  · revert hmem
    decide
  · exact (hplain s hs _ hmem).1 (by decide)

theorem columnLabels_inj {c1 c2 c3 c4 c5 d1 d2 d3 d4 d5 : List UInt8}
    (h : columnLabels c1 c2 c3 c4 c5 = columnLabels d1 d2 d3 d4 d5) : c1 = d1 ∧ c2 = d2 := by
  have htail := (List.cons.inj h).2
  exact ⟨(Command.set_text.inj (List.cons.inj h).1).2.2.1,
    (Command.set_text.inj (List.cons.inj htail).1).2.2.1⟩

/-- Columns of plain fields are lists. -/
theorem columnsListed_of_plain {rows : List Fields} (hne : rows ≠ [])
    (hplain : ∀ f ∈ rows, Json.Plain f.str1 ∧ Json.Plain f.str2 ∧ Json.Plain f.str3 ∧
      Json.Plain f.str4) : ColumnsListed (columnsOf rows) := by
  have hlist : ∀ es : List (List UInt8), es.length = rows.length → (∀ e ∈ es, Json.Plain e) →
      IsList rows.length (column es) := by
    intro es hlen hes
    have hne' : es ≠ [] := by
      rintro rfl
      exact hne (List.length_eq_zero_iff.mp hlen.symm)
    exact ⟨es, hlen, hes, column_eq_stringArray hne'⟩
  have hmap : ∀ g : Fields → List UInt8, (∀ f ∈ rows, Json.Plain (g f)) →
      IsList rows.length (column (rows.map g)) := by
    intro g hg
    refine hlist _ (List.length_map g) fun e he => ?_
    obtain ⟨f, hf, rfl⟩ := List.mem_map.mp he
    exact hg f hf
  refine ⟨rows.length, _, _, _, _, _, rfl, fun c hc => ?_⟩
  simp only [List.mem_cons, List.not_mem_nil, or_false] at hc
  rcases hc with rfl | rfl | rfl | rfl | rfl
  · refine hlist _ (by rw [List.length_map, List.length_range]) fun e he => ?_
    obtain ⟨i, -, rfl⟩ := List.mem_map.mp he
    exact Json.plain_decimal (i + 1)
  · exact hmap _ fun f hf => (hplain f hf).1
  · exact hmap _ fun f hf => (hplain f hf).2.1
  · exact hmap _ fun f hf => (hplain f hf).2.2.1
  · exact hmap _ fun f hf => (hplain f hf).2.2.2

/-- The fields of a row have no control characters, quotes or backslashes. -/
theorem SaveCall.plain_fields (c : SaveCall) : Json.Plain c.fields.str1 ∧
    Json.Plain c.fields.str2 ∧ Json.Plain c.fields.str3 ∧ Json.Plain c.fields.str4 := by
  refine ⟨fun b hb => ?_, Json.plain_decimal _, Json.plain_decimal _,
    fun b hb => Json.plain_decimal _ b (List.mem_of_mem_take hb)⟩
  rcases Stamp.mem_text hb with h | rfl | rfl | rfl
  · exact Json.plainByte_digit h
  · decide
  · decide
  · decide

/-- The turns on a log without cut rows. -/
theorem fields_turnsOf {calls : List SaveCall} (stack : Fields)
    (hshort : ∀ c ∈ calls.reverse.take (LOG_MAX - 1), c.Short) :
    (turnsOf (callsFile calls) stack).map Upload.fields
      = (calls.reverse.take LOG_MAX).map SaveCall.fields := by
  unfold turnsOf
  rw [callsFile_eq]
  exact fields_uploadTurns calls.reverse LOG_MAX (le_refl _) (Nat.zero_add _) (by decide) hshort

theorem turnsOf_ne_nil {calls : List SaveCall} (hne : calls ≠ []) (stack : Fields) :
    turnsOf (callsFile calls) stack ≠ [] := by
  unfold turnsOf
  rw [callsFile_eq]
  cases hr : calls.reverse with
  | nil => exact absurd (List.reverse_eq_nil_iff.mp hr) hne
  | cons c recent =>
      rw [length_rowsFile_cons, Nat.add_right_comm]
      obtain ⟨rest, -, hturn⟩ := uploadTurns_row c (rowsFile recent)
        (c.row.length + (rowsFile recent).length) (Upload.start stack)
      show uploadTurns _ (c.row ++ 0x0a :: rowsFile recent) _ ≠ []
      rw [hturn]
      split <;> simp

/-- An empty log gives `]` five times. -/
theorem not_columnsListed_nil (stack : Fields) :
    ¬ ColumnsListed (push_history (some (callsFile [])) stack) := by
  rintro ⟨k, c1, c2, c3, c4, c5, hcols, hlist⟩
  -- the bracket that closes has taken the place of the one that opens
  have hone : ([0x5d] : List UInt8) = c1 := (columnLabels_inj hcols).1
  obtain ⟨ss, -, -, hss⟩ := hlist c1 List.mem_cons_self
  rw [← hone] at hss
  exact absurd (List.cons.inj hss).1 (by decide)

theorem columnsListed_of_short {calls : List SaveCall} (hne : calls ≠ []) (stack : Fields)
    (hshort : ∀ c ∈ calls.reverse.take (LOG_MAX - 1), c.Short) :
    ColumnsListed (push_history (some (callsFile calls)) stack) := by
  have hturns := turnsOf_ne_nil hne stack
  rw [push_history_turns hturns]
  refine columnsListed_of_plain (by rw [Ne, List.map_eq_nil_iff]; exact hturns) ?_
  rw [fields_turnsOf stack hshort]
  intro f hf
  obtain ⟨c, -, rfl⟩ := List.mem_map.mp hf
  exact c.plain_fields

theorem short_of_columnsListed {calls : List SaveCall} {stack : Fields}
    (h : ColumnsListed (push_history (some (callsFile calls)) stack)) :
    calls ≠ [] ∧ ∀ c ∈ calls.reverse.take (LOG_MAX - 1), c.Short := by
  have hne : calls ≠ [] := by
    rintro rfl
    exact not_columnsListed_nil stack h
  refine ⟨hne, fun c hc => ?_⟩
  by_contra hcut
  have hnewline : ∃ v ∈ turnsOf (callsFile calls) stack, 0x0a ∈ v.fields.str1 := by
    unfold turnsOf
    rw [callsFile_eq]
    exact newline_of_not_short calls.reverse LOG_MAX (le_refl _) (Nat.zero_add _) ⟨c, hc, hcut⟩
  obtain ⟨v, hv, hnew⟩ := hnewline
  rw [push_history_turns (turnsOf_ne_nil hne stack)] at h
  obtain ⟨k, c1, c2, c3, c4, c5, hcols, hlist⟩ := h
  -- the second text is the column of dates
  refine (hlist c2 (by simp)).no_newline ?_
  have hmem : v.fields.str1 ∈ ((turnsOf (callsFile calls) stack).map Upload.fields).map Fields.str1 :=
    List.mem_map_of_mem (List.mem_map_of_mem hv)
  rw [← (columnLabels_inj hcols).2, column_eq_stringArray (List.ne_nil_of_mem hmem)]
  exact Json.mem_stringArray_of_mem hmem hnew

theorem Fields.Fit.width {f : Fields} (h : f.Fit) : f.Width :=
  ⟨Nat.le_of_lt_succ h.str1, Nat.le_of_lt_succ h.str2, Nat.le_of_lt_succ h.str3,
    Nat.le_of_lt h.str4⟩

/-- Everything stays in bounds exactly when the rows' texts do and the rows that are read are
narrow. -/
theorem historyInBounds_iff (calls : List SaveCall) (stack : Fields) :
    HistoryInBounds calls stack ↔
      (∀ c ∈ calls, c.RowWithin 29) ∧ ∀ c ∈ calls.reverse.take LOG_MAX, c.Narrow := by
  have hwithin : ∀ c : SaveCall, c.RowWithin 29 ↔ c.row.length < 30 := fun c => by
    rw [c.rowWithin_iff (by omega)]
    omega
  constructor
  · intro h
    have hfit := h.fields
    unfold turnsOf at hfit
    rw [callsFile_eq] at hfit
    exact ⟨fun c hc => (hwithin c).mpr (h.buffer_time c hc),
      narrow_of_fit calls.reverse LOG_MAX (le_refl _) (Nat.zero_add _) hfit⟩
  · rintro ⟨hrow, hnarrow⟩
    have hshort : ∀ c ∈ calls.reverse.take (LOG_MAX - 1), c.Short := fun c hc =>
      SaveCall.short_of_narrow (hnarrow c (List.take_subset_take_left _ (Nat.sub_le _ _) hc))
    have hfields := fields_turnsOf stack hshort
    have hfit : ∀ u ∈ turnsOf (callsFile calls) stack, u.fields.Fit := by
      intro u hu
      have hmem : u.fields ∈ (turnsOf (callsFile calls) stack).map Upload.fields :=
        List.mem_map_of_mem hu
      rw [hfields] at hmem
      obtain ⟨c, hc, hcu⟩ := List.mem_map.mp hmem
      rw [← hcu]
      exact (rowFields_fit_iff c.stamp c.mode c.time).mpr (hnarrow c hc)
    -- fields that fit have the widths that the arrays are made for
    have hwidth : ∀ u ∈ turnsOf (callsFile calls) stack, u.fields.Width := fun u hu =>
      (hfit u hu).width
    have hend := within_uploadLoop hwidth
    have hturns := within_uploadTurns _ (within_start stack) (show 0 < LOG_MAX by decide) hwidth
    exact ⟨fun c hc => (hwithin c).mp (hrow c hc), hfit, fun u hu => (hturns u hu).fit, hend.fit_close, frames_of_within hend⟩

/-- **WHICH LOGS GIVE FIVE LISTS**: the five texts are lists of one length exactly when there is
a row, and no row that is followed by room for another one is cut.  With every buffer on the
way there kept as well, the rows that are read must be narrow. -/
theorem columnsListed_iff (calls : List SaveCall) (stack : Fields) :
    (ColumnsListed (push_history (some (callsFile calls)) stack) ↔
      calls ≠ [] ∧ ∀ c ∈ calls.reverse.take (LOG_MAX - 1), c.Short) ∧
    (ColumnsListed (push_history (some (callsFile calls)) stack) ∧ HistoryInBounds calls stack ↔
      calls ≠ [] ∧ (∀ c ∈ calls, c.RowWithin 29) ∧
        ∀ c ∈ calls.reverse.take LOG_MAX, c.Narrow) := by
  have hlisted : ColumnsListed (push_history (some (callsFile calls)) stack) ↔
      calls ≠ [] ∧ ∀ c ∈ calls.reverse.take (LOG_MAX - 1), c.Short :=
    ⟨short_of_columnsListed, fun ⟨hne, hshort⟩ => columnsListed_of_short hne stack hshort⟩
  refine ⟨hlisted, ?_⟩
  rw [hlisted, historyInBounds_iff]
  constructor
  · rintro ⟨⟨hne, -⟩, hrow, hnarrow⟩
    exact ⟨hne, hrow, hnarrow⟩
  · rintro ⟨hne, hrow, hnarrow⟩
    exact ⟨⟨hne, fun c hc => SaveCall.short_of_narrow
      (hnarrow c (List.take_subset_take_left _ (Nat.sub_le _ _) hc))⟩, hrow, hnarrow⟩

/-- The log that `init_SPIFFS` creates does not. -/
theorem not_columnsListed : ¬ ∀ (calls : List SaveCall) (stack : Fields),
    ColumnsListed (push_history (some (callsFile calls)) stack) := fun h =>
  not_columnsListed_nil ⟨[], [], [], []⟩ (h [] ⟨[], [], [], []⟩)

end StoneHMI
