/-
  StoneHMI.Transport.TxBuffer
  ───────────────────────────
  **ONE TRANSMIT BUFFER, FOUR TASKS — `STONE_TX_BUF`, `TX_CNT`, `tx_create`.**

  Every display command is two steps of its task: `sprintf` formats the frame
  into the global `STONE_TX_BUF` and sets `TX_CNT`, and `tx_create` hands
  `STONE_TX_BUF[0..TX_CNT)` to `uart_write_bytes`.  Nothing keeps another task
  from formatting in between (the waiting loop of `tx_create` is compiled out).

  The buffer is a shared cell with one reference per task that is between its
  two steps.  `owned_iff` is the exact condition on a run, over any
  interleaving of the four tasks: each command is formatted while no other one
  is waiting to be sent, or prints the bytes that are already in the buffer.
-/
import StoneHMI.Lib.Run
import StoneHMI.Lib.SharedCell
import StoneHMI.Lib.CMemory
import StoneHMI.Transport.Commands

namespace StoneHMI

open CText CMemory SharedCell Labelled

/-! ## §1. The tasks and their steps. -/

/-- The tasks that send commands. -/
inductive Task where
  | stone_cmd
  | timer_handle
  | pressure_read
  | app_main
  deriving DecidableEq, Repr

/-- The transmit globals, the tasks between their two steps, and what has been
formatted and handed to `uart_write_bytes` so far. -/
structure Tx where
  STONE_TX_BUF : List UInt8
  TX_CNT : ℕ
  waiting : List Task
  formatted : List (List UInt8)
  sent : List (List UInt8)
  deriving Repr

/-- Before any command; the buffer holds anything. -/
def Tx.start (buf : List UInt8) : Tx :=
  { STONE_TX_BUF := buf, TX_CNT := 0, waiting := [], formatted := [], sent := [] }

/-- `STONE_TX_BUF[0..TX_CNT)` -/
def Tx.current (s : Tx) : List UInt8 := s.STONE_TX_BUF.take s.TX_CNT

/-- `TX_CNT = sprintf(STONE_TX_BUF, …)` of the frame `f`, with its NUL. -/
def Tx.sprintf (f : List UInt8) (s : Tx) : Tx :=
  { s with
    STONE_TX_BUF := Block.overwritten (f ++ [0]) s.STONE_TX_BUF
    TX_CNT := f.length
    formatted := s.formatted ++ [f] }

/-- `tx_create()` -/
def Tx.tx_create (s : Tx) : Tx := { s with sent := s.sent ++ [s.current] }

/-- A step of one task. -/
inductive TxStep where
  /-- Call the command function, up to `tx_create`. -/
  | format (t : Task) (c : Command)
  /-- `tx_create`, and back to the caller. -/
  | send (t : Task)
  deriving DecidableEq, Repr

/-- The task `t` formats `f` and now waits to send. -/
def Tx.format (t : Task) (f : List UInt8) (s : Tx) : Tx :=
  { s.sprintf f with waiting := s.waiting ++ [t] }

/-- The task `t` sends and is done with its command. -/
def Tx.send (t : Task) (s : Tx) : Tx :=
  { s.tx_create with waiting := s.waiting.erase t }

/-- A task formats when it is not waiting, and sends when it is. -/
def Tx.step (s : Tx) : TxStep → Option Tx
  | .format t c =>
      if t ∈ s.waiting then none
      else
        match c.frame with
        | none => some s
        | some f => some (s.format t f)
  | .send t => if t ∈ s.waiting then some (s.send t) else none

/-- What a step can do. -/
theorem Tx.step_cases {s u : Tx} {l : TxStep} (h : s.step l = some u) :
    (∃ t c, l = .format t c ∧ c.frame = none ∧ u = s) ∨
    (∃ t c f, l = .format t c ∧ c.frame = some f ∧ u = s.format t f) ∨
    (∃ t, l = .send t ∧ t ∈ s.waiting ∧ u = s.send t) := by
  cases l with
  | format t c =>
      simp only [Tx.step] at h
      split at h
      · cases h
      · cases hf : c.frame with
        | none =>
            rw [hf] at h
            exact Or.inl ⟨t, c, rfl, hf, (Option.some.inj h).symm⟩
        | some f =>
            rw [hf] at h
            exact Or.inr (Or.inl ⟨t, c, f, rfl, hf, (Option.some.inj h).symm⟩)
  | send t =>
      simp only [Tx.step] at h
      split at h
      · rename_i hmem
        exact Or.inr (Or.inr ⟨t, rfl, hmem, (Option.some.inj h).symm⟩)
      · cases h

/-! ## §2. Ownership. -/

/-- The buffer as a cell, with one reference per waiting task. -/
def Tx.cell (s : Tx) : Cell (List UInt8) :=
  { content := s.current
    refs := s.waiting.length
    written := s.formatted
    taken := s.sent }

/-- **Ownership.**  What has been sent, with what the waiting tasks would send
now, is what has been formatted, as multisets. -/
def Tx.Owned (s : Tx) : Prop :=
  (s.sent ++ List.replicate s.waiting.length s.current).Perm s.formatted

/-- Once every task has sent, the bytes sent are the frames formatted. -/
theorem Tx.Owned.sent_perm {s : Tx} (h : s.Owned) (hidle : s.waiting = []) :
    s.sent.Perm s.formatted := by
  unfold Tx.Owned at h
  rwa [hidle, List.length_nil, List.replicate_zero, List.append_nil] at h

/-- The command may be formatted now: nobody waits, or it prints the very
bytes that are waiting. -/
def Tx.MayFormat (s : Tx) : TxStep → Prop
  | .format _ c => ∀ f ∈ c.frame, s.waiting = [] ∨ f = s.current
  | .send _ => True

theorem Tx.current_sprintf (f : List UInt8) (s : Tx) : (s.sprintf f).current = f := by
  show (Block.overwritten (f ++ [0]) s.STONE_TX_BUF).take f.length = f
  unfold Block.overwritten
  rw [List.append_assoc, List.take_left]

/-- Formatting is a write to the cell. -/
theorem Tx.cell_format (t : Task) (f : List UInt8) (s : Tx) :
    (s.format t f).cell = s.cell.write f := by
  unfold Tx.cell Cell.write
  have hcur : (s.format t f).current = f := Tx.current_sprintf f s
  have hlen : (s.format t f).waiting.length = s.waiting.length + 1 := by
    show (s.waiting ++ [t]).length = _
    rw [List.length_append, List.length_singleton]
  rw [hcur, hlen]
  rfl

/-- Sending takes what the cell holds. -/
theorem Tx.cell_send {t : Task} {s : Tx} (ht : t ∈ s.waiting) :
    (s.send t).cell = s.cell.take := by
  unfold Tx.cell Cell.take
  have hlen : (s.send t).waiting.length = s.waiting.length - 1 := List.length_erase_of_mem ht
  rw [hlen]
  rfl

/-- **Step.**  Sending keeps ownership; formatting keeps it exactly when it may. -/
theorem Tx.owned_step_iff {s u : Tx} {l : TxStep} (h : s.Owned) (hstep : s.step l = some u) :
    u.Owned ↔ s.MayFormat l := by
  have hs : s.cell.SameItems := h
  obtain ⟨t, c, rfl, hf, rfl⟩ | ⟨t, c, f, rfl, hf, rfl⟩ | ⟨t, rfl, ht, rfl⟩ :=
    Tx.step_cases hstep
  · -- the command prints nothing, so nothing changes
    refine ⟨fun _ f hc => ?_, fun _ => h⟩
    rw [hf] at hc
    cases hc
  · -- formatting is a write to the shared cell
    have hwrite : (s.format t f).Owned ↔ s.waiting.length = 0 ∨ f = s.current := by
      show (s.format t f).cell.SameItems ↔ _
      rw [Tx.cell_format]
      exact Cell.sameItems_write_iff hs
    rw [hwrite, List.length_eq_zero_iff]
    constructor
    · intro hor f' hf'
      rw [hf] at hf'
      cases hf'
      exact hor
    · intro hmay
      exact hmay f hf
  · -- sending spends the reference of `t`
    refine ⟨fun _ => trivial, fun _ => ?_⟩
    show (s.send t).cell.SameItems
    rw [Tx.cell_send ht]
    exact (Cell.sameItems_take_iff (List.length_pos_of_mem ht)).mpr hs

/-- **Every command goes out once and whole, exactly when each is formatted
while nothing else is waiting, or repeats what is waiting.**  For every run of
the four tasks, in every interleaving. -/
theorem owned_iff (buf : List UInt8) (run : List TxStep) :
    Always Tx.step Tx.Owned (Tx.start buf) run ↔
      EachStep Tx.step Tx.MayFormat (Tx.start buf) run := by
  have hstart : (Tx.start buf).Owned := List.Perm.refl []
  exact always_iff_eachStep (I := fun _ => True) (fun _ _ _ _ _ => trivial)
    (fun _ _ _ _ h hstep => Tx.owned_step_iff h hstep) trivial hstart run

/-- The countdown label of `timer_handle` and the pressure label of `pressure_read`. -/
def countdownLabel : Command :=
  .set_text (str "label") (str "label_timer_count_down") (str "1:59") false

def pressureLabel : Command :=
  .set_text (str "label") (str "label_pressure_start") (str "42") false

/-- `pressure_read` formats between the two steps of `timer_handle`: its frame
goes out twice, the countdown never. -/
theorem not_owned_pressure_in_countdown :
    ¬ Always Tx.step Tx.Owned (Tx.start [])
      [.format .timer_handle countdownLabel, .format .pressure_read pressureLabel,
        .send .timer_handle, .send .pressure_read] := by
  intro h
  have hall : ∃ u, exec Tx.step (Tx.start [])
      [.format .timer_handle countdownLabel, .format .pressure_read pressureLabel,
        .send .timer_handle, .send .pressure_read] = some u
      ∧ u.waiting = [] ∧ ¬ u.sent.Perm u.formatted := by
    refine ⟨_, rfl, rfl, ?_⟩
    decide +kernel
  obtain ⟨u, hu, hidle, hne⟩ := hall
  exact hne ((h.final hu).sent_perm hidle)

end StoneHMI
