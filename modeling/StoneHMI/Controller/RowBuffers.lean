/-
  StoneHMI.Controller.RowBuffers
  ──────────────────────────────
  **WHICH ROWS OF A RUN FIT THEIR BUFFERS.**

  `stone_cmd` logs any `mode` that FREQ1 has set and any `run_time`, and
  `timer_handle` any `mode_to_time`; nothing between them and the buffers of
  `save_history` and `push_history` checks either.  `rowsFit_iff` is exact
  over every run: the two steps that log a row find a mode of one digit and a
  time of three.  The longest session, of 1200 seconds, is not such a row.
-/
import StoneHMI.Controller.Session
import StoneHMI.History.Rows

namespace StoneHMI

open CText Labelled

/-! ## §1. The condition. -/

/-- Every row logged so far fits its buffers, at whatever time of day it was logged. -/
def Sys.RowsFit (s : Sys) : Prop := ∀ row ∈ s.rows, ∀ t : Stamp, FitsBuffers t row.1 row.2

/-- **The condition.**  P02, and a tick in the last second, find a mode of one digit and a
time of three: P02 in `run_time`, the tick in `mode_to_time`. -/
def LogsNarrow (s : Sys) : Ev → Prop
  | .item c =>
      c.widget.bind handlerOf = some .P02 →
        s.ctl.mode.toNat < 10 ∧ s.ctl.run_time.toUInt16.toNat < 1000
  | .alarm => True
  | .tick => s.ctl.record = 1 → s.ctl.mode.toNat < 10 ∧ s.ctl.mode_to_time.toNat < 1000

theorem logsNarrow_iff {s : Sys} {e : Ev} :
    LogsNarrow s e ↔ ∀ row ∈ rowAt s.ctl e, row.1.toNat < 10 ∧ row.2.toNat < 1000 := by
  cases e with
  | item c =>
      by_cases hP02 : c.widget.bind handlerOf = some .P02
      · simp [LogsNarrow, rowAt, hP02]
      · simp [LogsNarrow, rowAt, hP02]
  | alarm => simp [LogsNarrow, rowAt]
  | tick =>
      by_cases h1 : s.ctl.record = 1
      · simp [LogsNarrow, rowAt, h1]
      · simp [LogsNarrow, rowAt, h1, sub_one_eq_zero_iff]

/-! ## §2. Every run. -/

/-- **Step.** -/
theorem rowsFit_step_iff {P : Platform} {s t : Sys} {e : Ev} (hs : s.RowsFit)
    (h : s.step P e = some t) : t.RowsFit ↔ LogsNarrow s e := by
  have hstep := row_step h
  rw [logsNarrow_iff]
  unfold Sys.RowsFit
  cases hrow : rowAt s.ctl e with
  | none =>
      rw [hrow] at hstep
      rw [hstep.1]
      exact ⟨fun _ row hmem => (by cases hmem), fun _ => hs⟩
  | some row =>
      rw [hrow] at hstep
      rw [hstep.1]
      constructor
      · intro hall row' hmem
        rw [← Option.some.inj hmem]
        have hlast : row ∈ s.rows ++ [row] := List.mem_append_right _ List.mem_cons_self
        exact (fitsBuffers_iff ⟨0, 0, 0, 0, 0, 0⟩ row.1 row.2).mp (hall row hlast _)
      · intro hnarrow row' hmem stamp
        rcases List.mem_append.mp hmem with hold | hnew
        · exact hs row' hold stamp
        · rw [List.mem_singleton.mp hnew, fitsBuffers_iff]
          exact hnarrow row rfl

/-- **Every row fits, exactly when each is logged with a mode of one digit and a time of
three.**  For every run, on every platform. -/
theorem rowsFit_iff (P : Platform) (es : List Ev) :
    Always (Sys.step P) Sys.RowsFit Sys.init es ↔
      EachStep (Sys.step P) LogsNarrow Sys.init es := by
  have hstart : Sys.init.RowsFit := fun row hrow => absurd hrow List.not_mem_nil
  exact always_iff_eachStep (I := fun _ => True) (fun _ _ _ _ _ => trivial)
    (fun _ _ _ _ hs h => rowsFit_step_iff hs h) trivial hstart es

/-- A session of mode 5, told by the display to be in its last second, and that second. -/
def longSession : List Ev :=
  [.item { widget := some (str "FREQ1"), float_value := 0x40a00000#32, text := none },
    .item { widget := some (str "P01"), float_value := 0, text := none },
    .item { widget := some (str "label_timer_count_down"), float_value := 0,
            text := some (str "0:01") },
    .alarm, .tick]

/-- **Its row has the time 1200, which needs five bytes of `str4[4]`.** -/
theorem not_rowsFit_longSession :
    ¬ ∀ (P : Platform) (es : List Ev), Always (Sys.step P) Sys.RowsFit Sys.init es := by
  intro h
  have hrows : (exec (Sys.step deafPlatform) Sys.init longSession).map Sys.rows
      = some [(5, 1200)] := by decide +kernel
  obtain ⟨s, hs, hrow⟩ := Option.map_eq_some_iff.mp hrows
  have hfit := (h deafPlatform longSession).final hs (5, 1200)
    (by rw [hrow]; exact List.mem_cons_self) ⟨0, 0, 0, 0, 0, 0⟩
  have hnarrow := (fitsBuffers_iff _ _ _).mp hfit
  exact absurd hnarrow (by decide)

end StoneHMI
