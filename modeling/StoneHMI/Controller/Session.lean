/-
  StoneHMI.Controller.Session
  ───────────────────────────
  **ONE HISTORY ROW PER SESSION.**

  A session begins when the stopped timer is started and ends when it is
  stopped again.  `Sessions` keeps, beside the controller, the `mode_to_time`
  of each session that has ended; `OneRow` matches these, one by one, with the
  rows that `save_history` was called for.

  A row is written by P02 and by the tick that brings `record` to 0, from the
  globals as they are then.  `oneRow_iff` is exact over every run: each of the
  two must find the timer started, and `mode` the one whose open time is
  `mode_to_time`.  §4 gives a discipline for the display that is enough: the
  mode is chosen while the timer is stopped, and P02 pressed while it runs.
-/
import StoneHMI.Lib.Run
import StoneHMI.Controller.Ctl
import Mathlib.Data.List.Forall2

namespace StoneHMI

open CText Labelled

/-! ## §1. Rows and sessions. -/

/-- The arguments of a call of `save_history`. -/
def rowOf : Effect → Option (UInt8 × UInt16)
  | .save_history mode time => some (mode, time)
  | _ => none

/-- The calls of `save_history` so far. -/
def Sys.rows (s : Sys) : List (UInt8 × UInt16) := s.effects.filterMap rowOf

/-- A row tells a session with this `mode_to_time`: its mode is the one whose
open time that is, and its time is not above it. -/
def RowFits (row : UInt8 × UInt16) (mode_to_time : UInt16) : Prop :=
  (1 ≤ row.1 ∧ row.1 ≤ 5) ∧ (openTime row.1).toUInt16 = mode_to_time ∧ row.2 ≤ mode_to_time

instance (row : UInt8 × UInt16) (m : UInt16) : Decidable (RowFits row m) :=
  inferInstanceAs (Decidable (_ ∧ _ ∧ _))

/-- The controller and the sessions that have ended. -/
structure Sessions where
  sys : Sys
  ended : List UInt16
  deriving DecidableEq, Repr

def Sessions.init : Sessions := { sys := Sys.init, ended := [] }

/-- A step ends the session when it stops the started timer. -/
def Sessions.step (P : Platform) (r : Sessions) (e : Ev) : Option Sessions :=
  (r.sys.step P e).map fun t =>
    { sys := t
      ended :=
        if r.sys.ctl.started = true ∧ t.ctl.started = false then
          r.ended ++ [r.sys.ctl.mode_to_time]
        else r.ended }

/-- **One row for each ended session, in order, and it fits.** -/
def Sessions.OneRow (r : Sessions) : Prop := List.Forall₂ RowFits r.sys.rows r.ended

/-! ## §2. What a step logs. -/

/-- The row that the step writes, if it writes one. -/
def rowAt (s : Ctl) : Ev → Option (UInt8 × UInt16)
  | .item c =>
      if c.widget.bind handlerOf = some .P02 then some (s.mode, s.run_time.toUInt16) else none
  | .alarm => none
  | .tick => if s.record - 1 = 0 then some (s.mode, s.mode_to_time) else none

/-- The timer is started, and `mode` is the mode that gave `mode_to_time`. -/
def Ctl.InSession (s : Ctl) : Prop :=
  s.started = true ∧ (1 ≤ s.mode ∧ s.mode ≤ 5) ∧ (openTime s.mode).toUInt16 = s.mode_to_time

/-- **The condition.**  P02, and a tick in the last second, find a session of
`mode`; P02 no later than `mode_to_time`. -/
def RowsInSession (r : Sessions) : Ev → Prop
  | .item c =>
      c.widget.bind handlerOf = some .P02 →
        r.sys.ctl.InSession ∧ r.sys.ctl.run_time.toUInt16 ≤ r.sys.ctl.mode_to_time
  | .alarm => True
  | .tick => r.sys.ctl.record = 1 → r.sys.ctl.InSession

theorem sub_one_eq_zero_iff {r : UInt32} : r - 1 = 0 ↔ r = 1 := by
  constructor
  · intro h
    have hr : r = r - 1 + 1 := (UInt32.sub_add_cancel r 1).symm
    rw [hr, h]
    rfl
  · rintro rfl
    rfl

/-- The condition asks that the row is written in a session and fits it. -/
theorem rowsInSession_iff {r : Sessions} {e : Ev} :
    RowsInSession r e ↔ ∀ row ∈ rowAt r.sys.ctl e,
      r.sys.ctl.started = true ∧ RowFits row r.sys.ctl.mode_to_time := by
  cases e with
  | item c =>
      by_cases hP02 : c.widget.bind handlerOf = some .P02
      · simp only [RowsInSession, rowAt, hP02, if_true, Option.mem_some_iff, forall_eq', true_imp_iff]
        unfold Ctl.InSession RowFits
        rw [and_assoc, and_assoc]
      · simp only [RowsInSession, rowAt, hP02, if_false]
        exact ⟨fun _ row hmem => (by cases hmem), fun _ h => h.elim⟩
  | alarm => exact ⟨fun _ row hmem => (by cases hmem), fun _ => trivial⟩
  | tick =>
      by_cases h1 : r.sys.ctl.record = 1
      · simp only [RowsInSession, rowAt, h1, if_true, Option.mem_some_iff, forall_eq', true_imp_iff,
          sub_one_eq_zero_iff]
        unfold Ctl.InSession RowFits
        exact ⟨fun h => ⟨h.1, h.2.1, h.2.2, UInt16.le_refl _⟩, fun h => ⟨h.1, h.2.1, h.2.2.1⟩⟩
      · simp only [RowsInSession, rowAt, h1, sub_one_eq_zero_iff, if_false]
        exact ⟨fun _ row hmem => (by cases hmem), fun _ h => h.elim⟩

theorem filterMap_rowOf_of_noRow {calls : List Effect} (h : NoRow calls) :
    calls.filterMap rowOf = [] := by
  rw [List.filterMap_eq_nil_iff]
  intro call hcall
  cases call with
  | save_history mode time => exact absurd hcall (h mode time)
  | send | push_history | settimeofday => rfl

/-- A handler other than P02 logs nothing and stops nothing. -/
theorem Handler.run_keeps_session {P : Platform} {f : BitVec 32} {text : Option (List UInt8)}
    {s t : Ctl} {calls : List Effect} {hd : Handler} (h : hd.run P f text s = .ok (t, calls))
    (hne : hd ≠ .P02) :
    calls.filterMap rowOf = [] ∧ (s.started = true → t.started = true) := by
  obtain ⟨-, rfl, hno⟩ | ⟨-, rfl, hno⟩ | ⟨hP02, -⟩ | ⟨-, rfl, hno⟩ | ⟨ms, -, -, rfl, hno⟩ |
    ⟨-, -, rfl, hno⟩ := Handler.run_cases h
  · exact ⟨filterMap_rowOf_of_noRow hno, id⟩
  · exact ⟨filterMap_rowOf_of_noRow hno, fun _ => rfl⟩
  · exact absurd hP02 hne
  · exact ⟨filterMap_rowOf_of_noRow hno, fun _ => rfl⟩
  · exact ⟨filterMap_rowOf_of_noRow hno, id⟩
  · exact ⟨filterMap_rowOf_of_noRow hno, id⟩

/-- A step that writes no row keeps the session; one that does stops the timer. -/
theorem row_step {P : Platform} {s t : Sys} {e : Ev} (h : s.step P e = some t) :
    match rowAt s.ctl e with
    | none => t.rows = s.rows ∧ (s.ctl.started = true → t.ctl.started = true)
    | some row => t.rows = s.rows ++ [row] ∧ t.ctl.started = false := by
  obtain ⟨c, ctl, calls, rfl, hc, rfl⟩ | ⟨rfl, -, rfl⟩ | ⟨q, rfl, -, rfl⟩ := Sys.step_cases h
  · obtain ⟨w, hw, hrun⟩ := stone_cmd_cases hc
    have hrows : ({ s with ctl := ctl, effects := s.effects ++ calls } : Sys).rows
        = s.rows ++ calls.filterMap rowOf := List.filterMap_append
    have hat : rowAt s.ctl (.item c)
        = if handlerOf w = some .P02 then some (s.ctl.mode, s.ctl.run_time.toUInt16) else none := by
      simp only [rowAt, hw, Option.bind_some]
    rw [hat]
    rcases hrun with ⟨hh, rfl, rfl⟩ | ⟨hd, hh, hrun⟩
    · rw [hh]
      exact ⟨by rw [hrows]; exact List.append_nil _, id⟩
    · rw [hh]
      by_cases hP02 : hd = .P02
      · rw [if_pos (by rw [hP02])]
        rw [hP02] at hrun
        cases hrun
        exact ⟨hrows, rfl⟩
      · rw [if_neg (by simpa using hP02)]
        obtain ⟨hnone, hst⟩ := Handler.run_keeps_session hrun hP02
        refine ⟨?_, hst⟩
        rw [hrows, hnone]
        exact List.append_nil _
  · exact ⟨rfl, id⟩
  · have hrows : ∀ (u : Ctl) (calls : List Effect),
        ({ ctl := u, timer_queue := q, effects := s.effects ++ calls } : Sys).rows
          = s.rows ++ calls.filterMap rowOf := fun _ _ => List.filterMap_append
    unfold rowAt timer_handle
    by_cases h0 : s.ctl.record - 1 = 0
    · simp only [h0, if_true]
      exact ⟨hrows _ _, rfl⟩
    · simp only [if_neg h0]
      refine ⟨?_, id⟩
      rw [hrows]
      exact List.append_nil _

/-! ## §3. Every run. -/

theorem forall₂_concat_iff {α β : Type*} {R : α → β → Prop} {l : List α} {m : List β} {a : α}
    {b : β} : List.Forall₂ R (l ++ [a]) (m ++ [b]) ↔ List.Forall₂ R l m ∧ R a b := by
  rw [← List.forall₂_reverse_iff, List.reverse_append, List.reverse_append]
  show List.Forall₂ R (a :: l.reverse) (b :: m.reverse) ↔ _
  rw [List.forall₂_cons, List.forall₂_reverse_iff]
  exact and_comm

/-- **Step.** -/
theorem oneRow_step_iff {P : Platform} {r u : Sessions} {e : Ev} (hr : r.OneRow)
    (h : r.step P e = some u) : u.OneRow ↔ RowsInSession r e := by
  unfold Sessions.step at h
  rw [Option.map_eq_some_iff] at h
  obtain ⟨t, ht, rfl⟩ := h
  have hstep := row_step ht
  unfold Sessions.OneRow
  rw [rowsInSession_iff]
  cases hrow : rowAt r.sys.ctl e with
  | none =>
      rw [hrow] at hstep
      obtain ⟨hrows, hst⟩ := hstep
      have hgo : ¬ (r.sys.ctl.started = true ∧ t.ctl.started = false) := by
        rintro ⟨hs, hf⟩
        rw [hst hs] at hf
        cases hf
      -- neither a row nor the end of a session
      simp only [if_neg hgo, hrows]
      exact ⟨fun _ row hmem => (by cases hmem), fun _ => hr⟩
  | some row =>
      rw [hrow] at hstep
      obtain ⟨hrows, hstop⟩ := hstep
      by_cases hs : r.sys.ctl.started = true
      · -- one row and one session more
        simp only [if_pos (And.intro hs hstop), hrows]
        rw [forall₂_concat_iff]
        constructor
        · intro h' row' hmem
          rw [← Option.some.inj hmem]
          exact ⟨hs, h'.2⟩
        · intro hfit
          exact ⟨hr, (hfit row rfl).2⟩
      · -- a row without a session: one more row than sessions
        have hgo : ¬ (r.sys.ctl.started = true ∧ t.ctl.started = false) := fun hb => hs hb.1
        simp only [if_neg hgo, hrows]
        constructor
        · intro h'
          have hlen := h'.length_eq
          have hlen' := List.Forall₂.length_eq hr
          rw [List.length_append, List.length_singleton] at hlen
          omega
        · intro hfit
          exact absurd (hfit row rfl).1 hs

/-- **One fitting row for each session, exactly when each row is written in a
started session that it fits.**  For every run, on every platform. -/
theorem oneRow_iff (P : Platform) (es : List Ev) :
    Always (Sessions.step P) Sessions.OneRow Sessions.init es ↔
      EachStep (Sessions.step P) RowsInSession Sessions.init es := by
  have hstart : Sessions.init.OneRow := by
    show List.Forall₂ RowFits [] []
    exact List.Forall₂.nil
  exact always_iff_eachStep (I := fun _ => True) (fun _ _ _ _ _ => trivial)
    (fun _ _ _ _ hr hu => oneRow_step_iff hr hu) trivial hstart es

/-- The float 5.0. -/
def fiveF : BitVec 32 := 0x40a00000

/-- `P01` in mode 1, then the display sets mode 5, then `P02`. -/
def modeChangedMidSession : List Ev :=
  [.item { widget := some (str "P01"), float_value := 0, text := none },
    .item { widget := some (str "FREQ1"), float_value := fiveF, text := none },
    .item { widget := some (str "P02"), float_value := fiveF, text := none }]

/-- The row of a two-minute session is logged with mode 5. -/
theorem not_oneRow_modeChangedMidSession :
    ¬ Always (Sessions.step deafPlatform) Sessions.OneRow Sessions.init modeChangedMidSession := by
  intro h
  have hrun : ∃ r, exec (Sessions.step deafPlatform) Sessions.init modeChangedMidSession = some r
      ∧ r.sys.rows = [(5, 0)] ∧ r.ended = [120] := ⟨_, rfl, by decide, by decide⟩
  obtain ⟨r, hr, hrows, hended⟩ := hrun
  have hone := h.final hr
  unfold Sessions.OneRow at hone
  rw [hrows, hended, List.forall₂_cons] at hone
  exact absurd hone.1 (by decide)

/-! ## §4. Orderly use. -/

/-- **Orderly use.**  `FREQ1` and the countdown label arrive while the timer is
stopped, `FREQ1` with a mode from 1 to 5; `FREQ2` names the mode that is set, with
a countdown that its session can show; P02 arrives in a session; and no alarm
left over from a session brings `record` to 0 after it. -/
def Orderly (P : Platform) (r : Sessions) : Ev → Prop
  | .item c =>
      match c.widget.bind handlerOf with
      | some .FREQ1 =>
          r.sys.ctl.started = false ∧ 1 ≤ P.floatToU8 c.float_value ∧ P.floatToU8 c.float_value ≤ 5
      | some .P02 => r.sys.ctl.started = true
      | some .label_timer_count_down => r.sys.ctl.started = false
      | some .FREQ2 =>
          P.floatToU8 c.float_value = r.sys.ctl.mode ∧
            1 ≤ r.sys.ctl.record.toNat ∧ r.sys.ctl.record ≤ openTime r.sys.ctl.mode
      | _ => True
  | .alarm => True
  | .tick => r.sys.ctl.started = false → r.sys.ctl.record ≠ 1

/-- Between two steps of orderly use: in a session, the seconds run and the
seconds left make up the mode's open time. -/
structure Ctl.InStep (s : Ctl) : Prop where
  mode : 1 ≤ s.mode ∧ s.mode ≤ 5
  told : s.started = true → (openTime s.mode).toUInt16 = s.mode_to_time
  split : s.started = true → s.record.toNat + s.run_time.toNat = (openTime s.mode).toNat
  left : s.started = true → 1 ≤ s.record.toNat

theorem Ctl.InStep.of_stopped {s : Ctl} (hmode : 1 ≤ s.mode ∧ s.mode ≤ 5)
    (hst : s.started = false) : s.InStep := by
  have hoff : ∀ {p : Prop}, s.started = true → p := fun h => by
    rw [hst] at h
    cases h
  exact ⟨hmode, hoff, hoff, hoff⟩

theorem toNat_toUInt16_openTime (m : UInt8) :
    (openTime m).toUInt16.toNat = (openTime m).toNat := by
  rw [UInt32.toNat_toUInt16]
  have hb := openTime_bounds m
  omega

/-- Orderly steps meet the condition `RowsInSession`. -/
theorem Orderly.rowsInSession {P : Platform} {r : Sessions} {e : Ev} (hs : r.sys.ctl.InStep)
    (h : Orderly P r e) : RowsInSession r e := by
  cases e with
  | item c =>
      intro hP02
      simp only [Orderly, hP02] at h
      have htold := hs.told h
      refine ⟨⟨h, hs.mode, htold⟩, ?_⟩
      -- the time that ran is part of the open time, so 16 bits hold it
      have hsplit := hs.split h
      have hb := openTime_bounds r.sys.ctl.mode
      rw [← htold, UInt16.le_iff_toNat_le, toNat_toUInt16_openTime, UInt32.toNat_toUInt16]
      omega
  | alarm => trivial
  | tick =>
      intro hone
      by_cases hst : r.sys.ctl.started = true
      · exact ⟨hst, hs.mode, hs.told hst⟩
      · exact absurd hone (h (Bool.eq_false_iff.mpr hst))

/-- **Item step.** -/
theorem stone_cmd_inStep {P : Platform} {c : Contents} {r : Sessions} {t : Ctl}
    {calls : List Effect} (hs : r.sys.ctl.InStep) (ho : Orderly P r (.item c))
    (h : stone_cmd P c r.sys.ctl = .ok (t, calls)) : t.InStep := by
  obtain ⟨w, hw, ⟨-, rfl, -⟩ | ⟨hd, hh, hrun⟩⟩ := stone_cmd_cases h
  · exact hs
  · simp only [Orderly, hw, Option.bind_some, hh] at ho
    obtain ⟨rfl, rfl, -⟩ | ⟨rfl, rfl, -⟩ | ⟨rfl, rfl, -⟩ | ⟨rfl, rfl, -⟩ | ⟨ms, rfl, -, rfl, -⟩ |
      ⟨-, -, rfl, -⟩ := Handler.run_cases hrun
    · -- FREQ1
      exact .of_stopped ho.2 ho.1
    · -- P01: a new countdown, and no second of it run yet
      exact ⟨hs.mode, fun _ => rfl, fun _ => Nat.add_zero _, fun _ => (openTime_bounds _).1⟩
    · -- P02
      exact .of_stopped hs.mode rfl
    · -- FREQ2: the seconds already run are what the countdown leaves of the open time
      obtain ⟨hmode, hlo, hhi⟩ := ho
      refine ⟨hs.mode, fun _ => ?_, fun _ => ?_, fun _ => hlo⟩
      · exact congrArg (fun m => (openTime m).toUInt16) hmode.symm
      · show r.sys.ctl.record.toNat
            + (openTime (P.floatToU8 c.float_value) - r.sys.ctl.record).toNat = _
        have hle : r.sys.ctl.record.toNat ≤ (openTime r.sys.ctl.mode).toNat :=
          UInt32.le_iff_toNat_le.mp hhi
        rw [hmode, UInt32.toNat_sub_of_le _ _ hhi]
        exact Nat.add_sub_cancel' hle
    · -- the countdown
      exact .of_stopped hs.mode ho
    · exact hs

/-- **Tick step.** -/
theorem timer_handle_inStep {s : Ctl} (hs : s.InStep) : (timer_handle s).1.InStep := by
  unfold timer_handle
  by_cases h0 : s.record - 1 = 0
  · simp only [h0, if_true]
    exact .of_stopped hs.mode rfl
  · -- a second moves from `record` to `run_time`
    simp only [if_neg h0]
    refine ⟨hs.mode, hs.told, fun hst => ?_, fun hst => ?_⟩
    · show (s.record - 1).toNat + (s.run_time + 1).toNat = (openTime s.mode).toNat
      have hsplit := hs.split hst
      have hleft := hs.left hst
      have hb := openTime_bounds s.mode
      rw [toNat_sub_one hleft, UInt32.toNat_add]
      show s.record.toNat - 1 + (s.run_time.toNat + 1) % 2 ^ 32 = _
      omega
    · show 1 ≤ (s.record - 1).toNat
      have hleft := hs.left hst
      rw [toNat_sub_one hleft]
      by_contra hlt
      exact h0 (UInt32.toNat_inj.mp (by
        rw [toNat_sub_one hleft]
        show s.record.toNat - 1 = 0
        omega))

/-- **Orderly use writes one fitting row for each session.** -/
theorem oneRow_of_orderly (P : Platform) {es : List Ev}
    (h : EachStep (Sessions.step P) (Orderly P) Sessions.init es) :
    Always (Sessions.step P) Sessions.OneRow Sessions.init es := by
  have hboth : Always (Sessions.step P) (fun r => r.sys.ctl.InStep ∧ r.OneRow)
      Sessions.init es := by
    refine always_of_eachStep ?_ ⟨.of_stopped (by decide) rfl, ?_⟩ h
    · intro r e u hr ho hu
      refine ⟨?_, (oneRow_step_iff hr.2 hu).mpr (ho.rowsInSession hr.1)⟩
      unfold Sessions.step at hu
      rw [Option.map_eq_some_iff] at hu
      obtain ⟨t, ht, rfl⟩ := hu
      obtain ⟨c, ctl, calls, rfl, hc, rfl⟩ | ⟨rfl, -, rfl⟩ | ⟨q, rfl, -, rfl⟩ := Sys.step_cases ht
      · exact stone_cmd_inStep hr.1 ho hc
      · exact hr.1
      · exact timer_handle_inStep hr.1
    · show List.Forall₂ RowFits [] []
      exact List.Forall₂.nil
  exact hboth.imp fun _ hr => hr.2

end StoneHMI
