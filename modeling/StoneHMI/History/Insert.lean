/-
  StoneHMI.History.Insert
  ───────────────────────
  **WHICH FAILURES LOSE THE HISTORY — `insert_text_at_first_line`.**

  A failure to open the log for reading, to get memory for it or to open it for
  writing is noticed and leaves the file alone.  Behind the second `fopen` the
  file is empty, and the result of `fprintf` is not looked at: what the file
  then holds is as much of the new text as has been written.

  `allOrNothing_iff` says for which failures the file is the old one or the new
  one; `logAfter_rows` carries this through a run of calls: the log holds the
  rows of some of the calls, and every row that it held before.
-/
import StoneHMI.History.Columns

namespace StoneHMI

open CText

/-! ## §1. One insert. -/

/-- The file is the old one, or the new row, a newline and the old one. -/
def AllOrNothing (fault : Option InsertFault) (file new_text : List UInt8) : Prop :=
  insert_text_at_first_line fault file new_text = file ∨
    insert_text_at_first_line fault file new_text = new_text ++ 0x0a :: file

instance (fault : Option InsertFault) (file new_text : List UInt8) :
    Decidable (AllOrNothing fault file new_text) := inferInstanceAs (Decidable (_ ∨ _))

/-- `fprintf` writes everything, or as many bytes as the old file has, and these are the same. -/
def Harmless (file new_text : List UInt8) : Option InsertFault → Prop
  | some (.write n) => new_text.length + 1 + file.length ≤ n ∨
      (n = file.length ∧ file <+: new_text ++ 0x0a :: file)
  | _ => True

theorem length_inserted (file new_text : List UInt8) :
    (new_text ++ 0x0a :: file).length = new_text.length + 1 + file.length := by
  rw [List.length_append, List.length_cons]
  omega

theorem allOrNothing_of_harmless {file : List UInt8} (hfile : ∀ b ∈ file, b ≠ 0)
    {fault : Option InsertFault} {new_text : List UInt8} (h : Harmless file new_text fault) :
    AllOrNothing fault file new_text := by
  unfold AllOrNothing insert_text_at_first_line
  rw [cstr_eq_self hfile]
  match fault with
  | none => exact Or.inr rfl
  | some .openRead => exact Or.inl rfl
  | some .malloc => exact Or.inl rfl
  | some .openWrite => exact Or.inl rfl
  | some (.write n) =>
      obtain h | ⟨rfl, h⟩ := h
      · exact Or.inr (List.take_of_length_le (by rw [length_inserted]; exact h))
      · exact Or.inl (List.prefix_iff_eq_take.mp h).symm

/-- Any other failure leaves the log cut: its length is that of neither file, or its bytes are
not those of the old one. -/
theorem harmless_of_allOrNothing {file : List UInt8} (hfile : ∀ b ∈ file, b ≠ 0)
    {fault : Option InsertFault} {new_text : List UInt8} (h : AllOrNothing fault file new_text) :
    Harmless file new_text fault := by
  unfold AllOrNothing insert_text_at_first_line at h
  rw [cstr_eq_self hfile] at h
  match fault with
  | none => trivial
  | some .openRead => trivial
  | some .malloc => trivial
  | some .openWrite => trivial
  | some (.write n) =>
      have htake : (new_text ++ 0x0a :: file).take n = file ∨
          (new_text ++ 0x0a :: file).take n = new_text ++ 0x0a :: file := h
      have hlen := length_inserted file new_text
      -- the new text is longer than the old file, so the length tells how much was written
      rcases htake with h | h
      · have hn := congrArg List.length h
        rw [List.length_take, hlen] at hn
        have hprefix := List.take_prefix n (new_text ++ 0x0a :: file)
        rw [h] at hprefix
        exact Or.inr ⟨by omega, hprefix⟩
      · have hn := congrArg List.length h
        rw [List.length_take, hlen] at hn
        exact Or.inl (by omega)

/-- **ALL OR NOTHING, exactly when the failure is harmless**: before the second `fopen`, or
behind the last byte, or where the bytes written are those of the old file. -/
theorem allOrNothing_iff {file : List UInt8} (hfile : ∀ b ∈ file, b ≠ 0)
    (fault : Option InsertFault) (new_text : List UInt8) :
    AllOrNothing fault file new_text ↔ Harmless file new_text fault :=
  ⟨harmless_of_allOrNothing hfile, allOrNothing_of_harmless hfile⟩

/-- The log of one row, when the power fails behind the second `fopen`. -/
theorem allOrNothing_iff_emptied :
    (∀ b ∈ str "old\n", b ≠ 0) ∧
      (AllOrNothing (some (.write 0)) (str "old\n") (str "new") ↔
        Harmless (str "old\n") (str "new") (some (.write 0))) :=
  have hfile : ∀ b ∈ str "old\n", b ≠ 0 := List.all_iff_forall_prop.mp (by decide)
  ⟨hfile, allOrNothing_iff hfile (some (.write 0)) (str "new")⟩

/-- The row is lost, and nothing has taken its place. -/
theorem not_allOrNothing : ¬ ∀ (fault : Option InsertFault) (file new_text : List UInt8),
    (∀ b ∈ file, b ≠ 0) → AllOrNothing fault file new_text := fun h =>
  absurd (h (some (.write 0)) (str "old\n") (str "new") (List.all_iff_forall_prop.mp (by decide)))
    (by decide)

/-! ## §2. A run of calls. -/

/-- The log after the calls, each with its failure. -/
def logAfter (file : List UInt8) (calls : List (SaveCall × Option InsertFault)) : List UInt8 :=
  calls.foldl (fun file c => save_history c.2 file c.1.stamp c.1.mode c.1.time) file

/-- Every call fails harmlessly on the log that it meets, or not at all. -/
def HarmlessRun : List UInt8 → List (SaveCall × Option InsertFault) → Prop
  | _, [] => True
  | file, c :: calls =>
      Harmless file c.1.row c.2 ∧
        HarmlessRun (save_history c.2 file c.1.stamp c.1.mode c.1.time) calls

/-- **A run of such calls** leaves the rows of some of them before all the rows that the log
held. -/
theorem logAfter_rows (recent : List SaveCall) (calls : List (SaveCall × Option InsertFault))
    (h : HarmlessRun (rowsFile recent) calls) :
    ∃ saved : List SaveCall, saved.Sublist (calls.map Prod.fst) ∧
      logAfter (rowsFile recent) calls = rowsFile (saved.reverse ++ recent) := by
  induction calls generalizing recent with
  | nil => exact ⟨[], List.Sublist.refl _, rfl⟩
  | cons c calls ih =>
      obtain ⟨hc, hrest⟩ := h
      -- the log is the old rows again, or these behind the new one
      rcases allOrNothing_of_harmless (rowsFile_plain recent) hc with hold | hnew
      · have hfile : save_history c.2 (rowsFile recent) c.1.stamp c.1.mode c.1.time
            = rowsFile recent := hold
        rw [hfile] at hrest
        obtain ⟨saved, hsub, hlog⟩ := ih recent hrest
        refine ⟨saved, List.Sublist.cons _ hsub, ?_⟩
        show logAfter (save_history c.2 (rowsFile recent) c.1.stamp c.1.mode c.1.time) calls = _
        rw [hfile, hlog]
      · have hfile : save_history c.2 (rowsFile recent) c.1.stamp c.1.mode c.1.time
            = rowsFile (c.1 :: recent) := hnew
        rw [hfile] at hrest
        obtain ⟨saved, hsub, hlog⟩ := ih (c.1 :: recent) hrest
        refine ⟨c.1 :: saved, List.Sublist.cons_cons _ hsub, ?_⟩
        show logAfter (save_history c.2 (rowsFile recent) c.1.stamp c.1.mode c.1.time) calls = _
        rw [hfile, hlog, List.reverse_cons, List.append_assoc, List.singleton_append]

end StoneHMI
