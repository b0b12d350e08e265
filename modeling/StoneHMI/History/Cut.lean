/-
  StoneHMI.History.Cut
  ────────────────────
  **WHAT FAILURES MAKE OF THE HISTORY — any run of `save_history`, then `push_history`.**

  Behind the second `fopen` of `insert_text_at_first_line` the file holds as
  much of the new row and the old rows as has been written, and the newest row
  comes first.  So a failure can only cut the log at its oldest end, and later
  calls put whole rows before what is left (`logAfter_eq`).

  `push_history` takes the cut end for a row.  The fields that are still there
  are scanned; for the others its buffers hold those of the row before
  (`cutFields`), so the display lists a session that never was.

    §1  the log             §3  the upload
    §2  a cut row           §4  after any failures
-/
import StoneHMI.History.Insert

namespace StoneHMI

open CText

/-! ## §1. The log. -/

/-- The rows whose writing has begun, the newest first, and how many bytes of them are there. -/
structure CutLog where
  recent : List SaveCall
  kept : ℕ

namespace CutLog

def empty : CutLog := ⟨[], 0⟩

/-- The bytes of the file. -/
def file (l : CutLog) : List UInt8 := (rowsFile l.recent).take l.kept

def save (l : CutLog) (c : SaveCall) : Option InsertFault → CutLog
  | none => ⟨c :: l.recent, c.row.length + 1 + l.kept⟩
  | some (.write n) => ⟨c :: l.recent, min n (c.row.length + 1 + l.kept)⟩
  | some _ => l

def after (calls : List (SaveCall × Option InsertFault)) : CutLog :=
  calls.foldl (fun l c => l.save c.1 c.2) empty

theorem file_cons (c : SaveCall) (recent : List SaveCall) (n : ℕ) :
    (rowsFile (c :: recent)).take (c.row.length + 1 + n)
      = c.row ++ 0x0a :: (rowsFile recent).take n := by
  show (c.row ++ 0x0a :: rowsFile recent).take (c.row.length + 1 + n) = _
  rw [Nat.add_assoc, List.take_length_add_append, Nat.add_comm 1 n, List.take_succ_cons]

/-- **One call**, whatever fails. -/
theorem save_file (l : CutLog) (c : SaveCall) (fault : Option InsertFault) :
    save_history fault l.file c.stamp c.mode c.time = (l.save c fault).file := by
  have hplain : cstr l.file = l.file :=
    cstr_eq_self fun b hb => rowsFile_plain l.recent b (List.mem_of_mem_take hb)
  have htext : historyRow c.stamp c.mode c.time ++ 0x0a :: cstr l.file
      = (rowsFile (c :: l.recent)).take (c.row.length + 1 + l.kept) := by
    rw [hplain, file_cons]
    rfl
  unfold save_history insert_text_at_first_line
  rw [htext]
  cases fault with
  | none => rfl
  | some e =>
      cases e with
      | openRead => rfl
      | malloc => rfl
      | openWrite => rfl
      | write n => exact List.take_take

end CutLog

/-- **The log after any run** is a cut of the rows whose writing has begun. -/
theorem logAfter_eq (calls : List (SaveCall × Option InsertFault)) :
    logAfter [] calls = (CutLog.after calls).file := by
  induction calls using List.reverseRecOn with
  | nil => rfl
  | append_singleton calls c ih =>
      unfold logAfter CutLog.after at ih ⊢
      rw [List.foldl_concat, List.foldl_concat, ih]
      exact CutLog.save_file _ c.1 c.2

/-- They stand in the order of their calls, and none is there twice. -/
theorem after_sublist (calls : List (SaveCall × Option InsertFault)) :
    (CutLog.after calls).recent.reverse.Sublist (calls.map Prod.fst) := by
  induction calls using List.reverseRecOn with
  | nil => exact List.Sublist.refl _
  | append_singleton calls c ih =>
      have hsave : CutLog.after (calls ++ [c]) = (CutLog.after calls).save c.1 c.2 := by
        unfold CutLog.after
        rw [List.foldl_concat]
      have hbegun : ((c.1 :: (CutLog.after calls).recent).reverse).Sublist
          ((calls ++ [c]).map Prod.fst) := by
        rw [List.reverse_cons, List.map_append]
        exact ih.append (List.Sublist.refl _)
      have hsame : (CutLog.after calls).recent.reverse.Sublist ((calls ++ [c]).map Prod.fst) := by
        rw [List.map_append]
        exact ih.trans (List.sublist_append_left _ _)
      rw [hsave]
      cases c.2 with
      | none => exact hbegun
      | some e =>
          cases e with
          | openRead => exact hsame
          | malloc => exact hsame
          | openWrite => exact hsame
          | write n => exact hbegun

/-! ## §2. A cut row. -/

/-- What is read of the first `n` bytes of a row, where the buffers hold `prev`. -/
def cutFields (c : SaveCall) (n : ℕ) (prev : Fields) : Fields :=
  let p := (decimal (period c.mode)).length
  { str1 := c.stamp.text.take n
    str2 := if n ≤ 20 then prev.str2 else (decimal (period c.mode)).take (n - 20)
    str3 := if n ≤ 21 + p then prev.str3 else (decimal c.mode.toNat).take (n - (21 + p))
    str4 := if n ≤ timeOffset c.mode then prev.str4
      else (decimal c.time.toNat).take (n - timeOffset c.mode) }

/-- **One field** of a cut text: it may be gone, cut itself, or whole. -/
theorem scanset_cut {a : List UInt8} (hne : a ≠ []) (ha : ∀ b ∈ a, isComma b = false)
    (r : List UInt8) (n : ℕ) :
    scanset isComma ((a ++ 0x2c :: r).take n)
      = if n = 0 then none
        else if n ≤ a.length then some (a.take n, [])
        else some (a, 0x2c :: r.take (n - (a.length + 1))) := by
  by_cases h0 : n = 0
  · rw [if_pos h0, h0]
    rfl
  · rw [if_neg h0]
    by_cases hcut : n ≤ a.length
    · rw [if_pos hcut, List.take_append_of_le_length hcut]
      refine scanset_all ?_ fun b hb => ha b (List.mem_of_mem_take hb)
      rw [Ne, List.take_eq_nil_iff]
      exact not_or.mpr ⟨h0, hne⟩
    · -- the comma is still there
      obtain ⟨k, rfl⟩ : ∃ k, n = a.length + (k + 1) := ⟨n - (a.length + 1), by omega⟩
      rw [if_neg hcut, List.take_length_add_append, List.take_succ_cons,
        show a.length + (k + 1) - (a.length + 1) = k by omega]
      exact scanset_append _ hne ha rfl

/-- The last field ends where the text does. -/
theorem scanWord_cut (time : UInt16) (n : ℕ) :
    scanWord ((decimal time.toNat).take n)
      = if n = 0 then none else some ((decimal time.toNat).take n, []) := by
  by_cases h0 : n = 0
  · rw [if_pos h0, h0]
    rfl
  · have hblank : ∀ b ∈ (decimal time.toNat).take n, isBlank b = false := fun b hb =>
      (decimal_plain _ b (List.mem_of_mem_take hb)).2.2.2
    have hne : (decimal time.toNat).take n ≠ [] := by
      rw [Ne, List.take_eq_nil_iff]
      exact not_or.mpr ⟨h0, decimal_ne_nil _⟩
    rw [if_neg h0]
    unfold scanWord
    cases htake : (decimal time.toNat).take n with
    | nil => exact absurd htake hne
    | cons d ds =>
        rw [htake] at hblank
        have hd : isBlank d = false := hblank d List.mem_cons_self
        rw [List.dropWhile_cons_of_neg (by rw [hd]; exact Bool.false_ne_true)]
        exact scanset_all (List.cons_ne_nil d ds) hblank

/-- **A cut row is read up to its end**, and the buffers behind keep what they hold. -/
theorem sscanfRow_cut (c : SaveCall) {n : ℕ} (hpos : 0 < n) (f : Fields) :
    sscanfRow (c.row.take n) f = cutFields c n f := by
  have hdate := scanset_cut (List.ne_nil_of_length_pos (by rw [Stamp.length_text]; omega))
    (fun b hb => (c.stamp.text_plain b hb).2.2)
    (decimal (period c.mode) ++ 0x2c :: (decimal c.mode.toNat ++ 0x2c :: decimal c.time.toNat)) n
  have hnumber : ∀ (x : ℕ) (r : List UInt8) (k : ℕ), scanset isComma ((decimal x ++ 0x2c :: r).take k)
      = if k = 0 then none
        else if k ≤ (decimal x).length then some ((decimal x).take k, [])
        else some (decimal x, 0x2c :: r.take (k - ((decimal x).length + 1))) := fun x r k =>
    scanset_cut (decimal_ne_nil x) (fun b hb => (decimal_plain x b hb).2.2.1) r k
  have hcomma : ∀ s : List UInt8, scanComma (0x2c :: s) = some s := fun _ => rfl
  have hnone : scanComma [] = none := rfl
  have hone := List.length_pos_iff.mpr (decimal_ne_nil (period c.mode))
  have hmode := List.length_pos_iff.mpr (decimal_ne_nil c.mode.toNat)
  rw [Stamp.length_text] at hdate
  unfold SaveCall.row historyRow sscanfRow cutFields timeOffset
  rw [hdate, if_neg (by omega : n ≠ 0)]
  by_cases h1 : n ≤ 19
  · -- within the date
    simp only [if_pos h1, hnone, Option.bind_none]
    rw [if_pos (by omega), if_pos (by omega), if_pos (by omega)]
  · have htext : c.stamp.text.take n = c.stamp.text :=
      List.take_of_length_le (by rw [Stamp.length_text]; omega)
    simp only [if_neg h1, hcomma, Option.bind_some, hnumber, htext]
    by_cases h2 : n ≤ 20
    · rw [if_pos (by omega : n - (19 + 1) = 0), if_pos (by omega), if_pos (by omega),
        if_pos (by omega)]
    · rw [if_neg (by omega : ¬ n - (19 + 1) = 0), if_neg h2]
      by_cases h3 : n ≤ 20 + (decimal (period c.mode)).length
      · -- within the period
        simp only [if_pos (by omega : n - (19 + 1) ≤ (decimal (period c.mode)).length), hnone,
          Option.bind_none]
        rw [if_pos (by omega), if_pos (by omega)]
      · have hperiod : (decimal (period c.mode)).take (n - 20) = decimal (period c.mode) :=
          List.take_of_length_le (by omega)
        simp only [if_neg (by omega : ¬ n - (19 + 1) ≤ (decimal (period c.mode)).length), hcomma,
          Option.bind_some, hnumber, hperiod]
        by_cases h4 : n ≤ 21 + (decimal (period c.mode)).length
        · rw [if_pos (by omega : n - (19 + 1) - ((decimal (period c.mode)).length + 1) = 0),
            if_pos (by omega), if_pos (by omega)]
        · rw [if_neg (by omega : ¬ n - (19 + 1) - ((decimal (period c.mode)).length + 1) = 0),
            if_neg h4, show n - (19 + 1) - ((decimal (period c.mode)).length + 1)
              = n - (21 + (decimal (period c.mode)).length) by omega]
          by_cases h5 : n - (21 + (decimal (period c.mode)).length)
              ≤ (decimal c.mode.toNat).length
          · -- within the mode
            simp only [if_pos h5, hnone, Option.bind_none]
            rw [if_pos (by omega)]
          · have hmodeText : (decimal c.mode.toNat).take
                (n - (21 + (decimal (period c.mode)).length)) = decimal c.mode.toNat :=
              List.take_of_length_le (by omega)
            simp only [if_neg h5, hcomma, Option.bind_some, hmodeText]
            rw [scanWord_cut, show n - (21 + (decimal (period c.mode)).length)
                - ((decimal c.mode.toNat).length + 1)
              = n - (22 + (decimal (period c.mode)).length + (decimal c.mode.toNat).length) by omega]
            by_cases h6 : n ≤ 22 + (decimal (period c.mode)).length + (decimal c.mode.toNat).length
            · rw [if_pos (by omega), if_pos h6]
            · rw [if_neg (by omega), if_neg h6]

/-! ## §3. The upload. -/

/-- The rows that an upload makes of the first `n` bytes, its buffers holding `prev`. -/
def cutRows : List SaveCall → ℕ → Fields → List Fields
  | [], _, _ => []
  | c :: recent, n, prev =>
      if n = 0 then []
      else if n ≤ c.row.length then [cutFields c n prev]
      else c.fields :: cutRows recent (n - (c.row.length + 1)) c.fields

/-- A line that ends with the file. -/
theorem takeLine_end {r : List UInt8} (hr : ∀ b ∈ r, b ≠ 10) :
    ∀ {n : ℕ}, r.length ≤ n → takeLine n r = (r, []) := by
  induction r with
  | nil =>
      intro n _
      cases n <;> rfl
  | cons b r ih =>
      intro n hn
      cases n with
      | zero => simp at hn
      | succ n =>
          have hb : b ≠ 10 := hr b List.mem_cons_self
          have htail := ih (fun x hx => hr x (List.mem_cons_of_mem b hx))
            (by simpa using hn : r.length ≤ n)
          rw [takeLine, if_neg hb, htail]

/-- A turn on the cut end. -/
theorem uploadTurns_cutEnd {c : SaveCall} (hc : c.Short) {n : ℕ} (hpos : 0 < n)
    (hn : n ≤ c.row.length) (fuel : ℕ) (u : Upload) :
    (uploadTurns (fuel + 1) (c.row.take n) u).map Upload.fields = [cutFields c n u.fields] := by
  have hplain : ∀ b ∈ c.row.take n, b ≠ 0 ∧ b ≠ 0x0a := fun b hb =>
    historyRow_plain c.stamp c.mode c.time b (List.mem_of_mem_take hb)
  have hne : c.row.take n ≠ [] := by
    rw [Ne, List.take_eq_nil_iff]
    rintro (h0 | hnil)
    · omega
    · rw [hnil, List.length_nil] at hn
      omega
  have hread : fgets 30 (c.row.take n) = some (c.row.take n, []) := by
    rw [fgets_of_ne_nil hne, takeLine_end (fun b hb => (hplain b hb).2)]
    rw [List.length_take]
    have hshort := c.short_iff.mp hc
    omega
  have hscan : sscanfRow (cstr (c.row.take n)) u.fields = cutFields c n u.fields := by
    rw [cstr_eq_self fun b hb => (hplain b hb).1]
    exact sscanfRow_cut c hpos u.fields
  rw [uploadTurns_line hread hscan]
  split
  · rfl
  · -- nothing is left to read
    have hend : ∀ v : Upload, uploadTurns fuel [] v = [] := fun v => by
      cases fuel <;> rfl
    rw [hend]
    rfl

/-- **Row for row**, up to the cut. -/
theorem fields_uploadTurns_cut : ∀ (recent : List SaveCall) {n fuel : ℕ} {u : Upload} (m : ℕ),
    ((rowsFile recent).take n).length ≤ fuel → u.line_count + m = LOG_MAX → 0 < m →
    (∀ c ∈ recent, c.Short) →
    (uploadTurns fuel ((rowsFile recent).take n) u).map Upload.fields
      = (cutRows recent n u.fields).take m
  | [], n, fuel, u, m, _, _, _, _ => by
      have hnil : (rowsFile []).take n = [] := List.take_nil
      rw [hnil]
      cases fuel <;> simp [uploadTurns, cutRows, fgets]
  | c :: recent, n, fuel, u, m, hfuel, hm, hpos, hshort => by
      have hc : c.Short := hshort c List.mem_cons_self
      unfold cutRows
      by_cases h0 : n = 0
      · rw [if_pos h0, h0, List.take_zero]
        cases fuel <;> simp [uploadTurns, fgets]
      · rw [if_neg h0]
        by_cases hcut : n ≤ c.row.length
        · have hfile : (rowsFile (c :: recent)).take n = c.row.take n :=
            List.take_append_of_le_length hcut
          rw [hfile, List.length_take] at hfuel
          obtain ⟨fuel, rfl⟩ : ∃ k, fuel = k + 1 := ⟨fuel - 1, by omega⟩
          obtain ⟨m, rfl⟩ : ∃ k, m = k + 1 := ⟨m - 1, by omega⟩
          rw [if_pos hcut, hfile, uploadTurns_cutEnd hc (by omega) hcut, List.take_succ_cons,
            List.take_nil]
        · -- a whole row with its newline
          obtain ⟨k, rfl⟩ : ∃ k, n = c.row.length + 1 + k := ⟨n - (c.row.length + 1), by omega⟩
          have hfile := CutLog.file_cons c recent k
          rw [hfile, List.length_append, List.length_cons] at hfuel
          obtain ⟨fuel, rfl⟩ : ∃ k, fuel = k + 1 := ⟨fuel - 1, by omega⟩
          obtain ⟨m, rfl⟩ : ∃ k, m = k + 1 := ⟨m - 1, by omega⟩
          obtain ⟨rest, hrest, hturn⟩ := uploadTurns_row c ((rowsFile recent).take k) fuel u
          rw [if_neg hcut, hfile, hturn, hrest hc, List.take_succ_cons,
            show c.row.length + 1 + k - (c.row.length + 1) = k by omega]
          have hcount : (u.addRow c.fields).line_count = u.line_count + 1 := rfl
          by_cases hfull : (u.addRow c.fields).line_count ≥ LOG_MAX
          · rw [if_pos hfull, show m = 0 by omega]
            rfl
          · rw [if_neg hfull, List.map_cons, fields_uploadTurns_cut recent m (by omega) (by omega)
              (by omega) fun d hd => hshort d (List.mem_cons_of_mem c hd)]
            rfl

/-- The upload of a cut log. -/
theorem push_history_cut {l : CutLog} (hshort : ∀ c ∈ l.recent, c.Short) (hne : l.file ≠ [])
    (stack : Fields) :
    push_history (some l.file) stack
      = columnsOf ((cutRows l.recent l.kept stack).take LOG_MAX) := by
  have hfields : (turnsOf l.file stack).map Upload.fields
      = (cutRows l.recent l.kept stack).take LOG_MAX :=
    fields_uploadTurns_cut l.recent LOG_MAX (le_refl _) (Nat.zero_add _) (by decide) hshort
  have hturns : turnsOf l.file stack ≠ [] := by
    unfold turnsOf
    obtain ⟨b, s, hbs⟩ := List.exists_cons_of_ne_nil hne
    rw [hbs, List.length_cons]
    unfold uploadTurns
    rw [fgets_of_ne_nil (List.cons_ne_nil b s)]
    dsimp only
    split <;> exact List.cons_ne_nil _ _
  rw [push_history_turns hturns, hfields]

/-- Whole rows, and behind them at most one that is cut. -/
theorem cutRows_eq (recent : List SaveCall) : ∀ (n : ℕ) (prev : Fields),
    ∃ whole rest, recent = whole ++ rest ∧
      (cutRows recent n prev = whole.map SaveCall.fields ∨
        ∃ c ∈ rest.head?, ∃ k ≤ c.row.length, 0 < k ∧
          cutRows recent n prev = whole.map SaveCall.fields
            ++ [cutFields c k ((whole.getLast?.map SaveCall.fields).getD prev)]) := by
  induction recent with
  | nil => exact fun n prev => ⟨[], [], rfl, Or.inl rfl⟩
  | cons c recent ih =>
      intro n prev
      unfold cutRows
      by_cases h0 : n = 0
      · exact ⟨[], c :: recent, rfl, Or.inl (if_pos h0)⟩
      · rw [if_neg h0]
        by_cases hcut : n ≤ c.row.length
        · refine ⟨[], c :: recent, rfl, Or.inr ⟨c, rfl, n, hcut, by omega, ?_⟩⟩
          rw [if_pos hcut]
          rfl
        · obtain ⟨whole, rest, hrecent, hrows⟩ := ih (n - (c.row.length + 1)) c.fields
          rw [if_neg hcut]
          refine ⟨c :: whole, rest, by rw [hrecent, List.cons_append], ?_⟩
          rcases hrows with hrows | ⟨d, hd, k, hk, hpos, hrows⟩
          · exact Or.inl (by rw [hrows, List.map_cons])
          · refine Or.inr ⟨d, hd, k, hk, hpos, ?_⟩
            rw [hrows, List.getLast?_cons, List.map_cons, List.cons_append]
            cases whole.getLast? <;> rfl

/-! ## §4. After any failures. -/

/-- Two sessions, and the power fails while the second one is written. -/
def powerFails : List (SaveCall × Option InsertFault) :=
  [(⟨someStamp, 1, 120⟩, none), (⟨someStamp, 2, 300⟩, some (.write 12))]

theorem powerFails_short : ∀ c ∈ powerFails, c.1.Short := by
  unfold SaveCall.Short SaveCall.RowWithin
  decide

/-- A row that reaches its time has nothing of what the buffers held. -/
theorem cutFields_of_lt {c : SaveCall} {n : ℕ} (h : timeOffset c.mode < n) (prev prev' : Fields) :
    cutFields c n prev = cutFields c n prev' := by
  have hmode := List.length_pos_iff.mpr (decimal_ne_nil c.mode.toNat)
  unfold cutFields
  unfold timeOffset at h ⊢
  dsimp only
  rw [if_neg (by omega), if_neg (by omega), if_neg (by omega), if_neg (by omega), if_neg (by omega),
    if_neg (by omega)]

theorem cutRows_of_lt {c : SaveCall} (recent : List SaveCall) {n : ℕ} (h : timeOffset c.mode < n)
    (prev prev' : Fields) : cutRows (c :: recent) n prev = cutRows (c :: recent) n prev' := by
  unfold cutRows
  rw [cutFields_of_lt h prev prev']

/-- One that does not shows what the buffer of the time held. -/
theorem push_history_str4 {l : CutLog} {c : SaveCall} {recent : List SaveCall}
    (hl : l.recent = c :: recent) (hshort : ∀ d ∈ l.recent, d.Short) (hpos : 0 < l.kept)
    (hkept : l.kept ≤ timeOffset c.mode) (stack : Fields) :
    (push_history (some l.file) stack)[4]? = some (columnLabel 5 (column [stack.str4])) := by
  have hrow : l.kept ≤ c.row.length := by
    rw [c.length_row]
    omega
  have hne : l.file ≠ [] := by
    unfold CutLog.file
    rw [hl, Ne, List.take_eq_nil_iff]
    rintro (h0 | hnil)
    · omega
    · exact absurd hnil (List.append_ne_nil_of_right_ne_nil _ (List.cons_ne_nil _ _))
  have hrows : cutRows l.recent l.kept stack = [cutFields c l.kept stack] := by
    rw [hl]
    unfold cutRows
    rw [if_neg (by omega), if_pos hrow]
  have htime : (cutFields c l.kept stack).str4 = stack.str4 := if_pos hkept
  rw [push_history_cut hshort hne, hrows, ← htime]
  rfl

end StoneHMI
