/-
  StoneHMI.History.Tasks
  ──────────────────────
  **THE LOG BETWEEN TASKS AND RESETS.**

  `stone_cmd` and `timer_handle` both save sessions, and `stone_cmd` uploads
  the history, without a lock.  A row takes two `fopen`s with the whole log
  in between; SPIFFS is mounted for one open file (`max_files`), so a second
  `fopen` fails and its caller gives up.  A reset stops what goes on, and
  `init_SPIFFS` may format the partition.

    §1  init_SPIFFS                          §3  what every step keeps
    §2  the tasks and their steps            §4  whole runs
-/
import Mathlib.Logic.Function.Basic
import StoneHMI.History.Columns
import StoneHMI.Lib.Run
import StoneHMI.Transport.TxBuffer

namespace StoneHMI

open CText Labelled

/-! ## §1. init_SPIFFS. -/

/-- What `esp_vfs_spiffs_register` does, with `format_if_mount_failed`. -/
inductive Registered where
  | mounts
  | formats
  | fails
  deriving DecidableEq, Repr

/-- What the file system answers at a reset. -/
structure SpiffsAnswers where
  register : Registered
  /-- `total` and `used`, if `esp_spiffs_info` succeeds. -/
  info : Option (ℕ × ℕ)
  /-- Whether `esp_spiffs_check` succeeds, and whether it drops the log. -/
  check : Bool
  drops : Bool
  /-- Whether the log can be created. -/
  create : Bool
  deriving DecidableEq, Repr

/-- `fopen("/spiffs/log.txt", "r")`, and `"w"` if there is no log. -/
def createLog (create : Bool) : Option (List UInt8) → Option (List UInt8)
  | some f => some f
  | none => if create then some [] else none

/-- `init_SPIFFS()` behind `esp_vfs_spiffs_register`. -/
def afterMount (a : SpiffsAnswers) (file : Option (List UInt8)) : Option (List UInt8) :=
  match a.info with
  -- `esp_spiffs_format`, and no log is created
  | none => none
  | some (total, used) =>
      if used > total then
        let file := if a.drops then none else file
        if a.check then createLog a.create file else file
      else createLog a.create file

/-- `init_SPIFFS()`: whether the partition is mounted, and the log. -/
def init_SPIFFS (a : SpiffsAnswers) (file : Option (List UInt8)) : Bool × Option (List UInt8) :=
  match a.register with
  | .mounts => (true, afterMount a file)
  | .formats => (true, afterMount a none)
  | .fails => (false, file)

/-- The log is formatted or dropped. -/
def SpiffsAnswers.Loses (a : SpiffsAnswers) : Prop :=
  a.register = .formats ∨ a.register = .mounts ∧
    (a.info = none ∨ ∃ p ∈ a.info, p.1 < p.2 ∧ a.drops = true)

@[simp] theorem getD_createLog (create : Bool) (file : Option (List UInt8)) :
    (createLog create file).getD [] = file.getD [] := by
  cases file <;> cases create <;> rfl

theorem afterMount_none (a : SpiffsAnswers) : (afterMount a none).getD [] = [] := by
  unfold afterMount
  cases a.info with
  | none => rfl
  | some p =>
      show (if p.2 > p.1 then _ else _ : Option (List UInt8)).getD [] = []
      by_cases h : p.2 > p.1 <;> cases a.check <;> simp [h]

/-- `init_SPIFFS` loses the log, or leaves what is on the flash. -/
theorem init_SPIFFS_cases (a : SpiffsAnswers) (file : Option (List UInt8)) :
    (a.Loses ∧ (init_SPIFFS a file).2.getD [] = []) ∨
      (¬ a.Loses ∧ (init_SPIFFS a file).2.getD [] = file.getD []) := by
  unfold init_SPIFFS SpiffsAnswers.Loses
  cases a.register with
  | fails => exact Or.inr ⟨by simp, rfl⟩
  | formats => exact Or.inl ⟨by simp, afterMount_none a⟩
  | mounts =>
      show _ ∧ (afterMount a file).getD [] = [] ∨ _ ∧ (afterMount a file).getD [] = _
      unfold afterMount
      cases a.info with
      | none => exact Or.inl ⟨by simp, rfl⟩
      | some p =>
          by_cases h : p.1 < p.2
          · cases a.drops <;> cases a.check <;> simp [h]
          · simp [h]

/-! ## §2. The tasks and their steps. -/

/-- `conf.max_files` -/
def max_files : ℕ := 1

/-- Where a task is in its call. -/
inductive LogUse where
  | idle
  /-- `insert_text_at_first_line` with the log open for reading. -/
  | reading (c : SaveCall)
  /-- The log is closed again, and `content` is what it held. -/
  | between (c : SaveCall) (content : List UInt8)
  /-- The log is open for writing. -/
  | writing (c : SaveCall) (content : List UInt8)
  /-- `push_history` with the log open for reading. -/
  | uploading (stack : Fields)
  deriving DecidableEq

namespace LogUse

/-- The task has the log open. -/
def opens : LogUse → Bool
  | reading _ => true
  | writing _ _ => true
  | uploading _ => true
  | _ => false

/-- What `fprintf` is about to write. -/
def text : LogUse → Option (List UInt8)
  | writing c content => some (c.row ++ 0x0a :: content)
  | _ => none

/-- A session whose row is not yet being written. -/
def unsaved : LogUse → List SaveCall
  | reading c => [c]
  | between c _ => [c]
  | _ => []

end LogUse

/-- A call of `push_history`: the sessions before it, what it found on the stack, and what it
sent. -/
structure Pushed where
  before : List SaveCall
  stack : Fields
  sent : List Command

/-- The file system and its users.  Behind them stand the sessions whose call is over, or whose
row is being written, and the uploads so far. -/
structure Spiffs where
  mounted : Bool
  file : Option (List UInt8)
  files : List Task
  use : Task → LogUse
  done : List SaveCall
  pushed : List Pushed

/-- A step of a task, or a reset. -/
inductive LogStep where
  /-- `save_history` up to its first `fopen`. -/
  | save (t : Task) (c : SaveCall)
  /-- `malloc`, `fread` and `fclose`; without memory the call is over. -/
  | read (t : Task) (malloc : Bool)
  /-- The second `fopen`. -/
  | openWrite (t : Task)
  /-- `fprintf`, of which `n` bytes get to the flash, and `fclose`. -/
  | write (t : Task) (n : ℕ)
  /-- `push_history` up to its `fopen`. -/
  | push (t : Task) (stack : Fields)
  /-- The rest of `push_history`. -/
  | upload (t : Task)
  /-- A reset, when `n` bytes of what is being written are on the flash. -/
  | reset (n : ℕ) (a : SpiffsAnswers)

namespace Spiffs

/-- `fopen(filename, "r")` succeeds; it is taken to wherever it can. -/
def canRead (s : Spiffs) : Bool := s.mounted && s.file.isSome && s.files.length < max_files

/-- `fopen(filename, "w")` succeeds. -/
def canWrite (s : Spiffs) : Bool := s.mounted && s.files.length < max_files

/-- The task goes on. -/
def goes (s : Spiffs) (t : Task) (u : LogUse) : Spiffs :=
  { s with use := Function.update s.use t u }

/-- The task opens the log and goes on. -/
def opened (s : Spiffs) (t : Task) (u : LogUse) : Spiffs := { s.goes t u with files := t :: s.files }

/-- The task closes the log and goes on. -/
def closed (s : Spiffs) (t : Task) (u : LogUse) : Spiffs := { s.goes t u with files := s.files.erase t }

/-- A call is over, or its row is being written. -/
def finish (s : Spiffs) (cs : List SaveCall) : Spiffs := { s with done := s.done ++ cs }

/-- What the task that writes is about to write. -/
def pending (s : Spiffs) : Option (List UInt8) := s.files.head?.bind fun t => (s.use t).text

/-- The log when a reset stops the writing behind `n` bytes. -/
def onFlash (s : Spiffs) (n : ℕ) : Option (List UInt8) :=
  match s.pending with
  | some text => some (text.take n)
  | none => s.file

/-- All tasks. -/
def tasks : List Task := [.stone_cmd, .timer_handle, .pressure_read, .app_main]

/-- A step, where the task is at the right place. -/
def step (s : Spiffs) : LogStep → Option Spiffs
  | .save t c =>
      if s.use t = .idle then
        some (if s.canRead then s.opened t (.reading c) else s.finish [c])
      else none
  | .read t malloc =>
      match s.use t with
      | .reading c =>
          -- the contents pass through a C string
          some (if malloc then s.closed t (.between c (cstr (s.file.getD [])))
            else (s.closed t .idle).finish [c])
      | _ => none
  | .openWrite t =>
      match s.use t with
      | .between c content =>
          some (if s.canWrite then
              { (s.opened t (.writing c content)).finish [c] with file := some [] }
            else (s.goes t .idle).finish [c])
      | _ => none
  | .write t n =>
      match s.use t with
      | .writing c content =>
          some { s.closed t .idle with file := some ((c.row ++ 0x0a :: content).take n) }
      | _ => none
  | .push t stack =>
      if s.use t = .idle then
        some (if s.canRead then s.opened t (.uploading stack)
          else { s with pushed := s.pushed ++ [⟨s.done, stack, push_history none stack⟩] })
      else none
  | .upload t =>
      match s.use t with
      | .uploading stack =>
          some { s.closed t .idle with
            pushed := s.pushed ++ [⟨s.done, stack, push_history s.file stack⟩] }
      | _ => none
  | .reset n a =>
      some
        { mounted := (init_SPIFFS a (s.onFlash n)).1
          file := (init_SPIFFS a (s.onFlash n)).2
          files := []
          use := fun _ => .idle
          done := s.done ++ (tasks.map fun t => (s.use t).unsaved).flatten
          pushed := s.pushed }

/-- Before the first reset. -/
def init : Spiffs :=
  { mounted := false, file := none, files := [], use := fun _ => .idle, done := [], pushed := [] }

/-- The log, as if what is being written were already there. -/
def content (s : Spiffs) : List UInt8 := (s.pending.or s.file).getD []

/-- Every session whose call is over has its row, the newest first, and every upload showed
those that were over. -/
structure Complete (s : Spiffs) : Prop where
  rows : s.content = rowsFile s.done.reverse
  pushed : ∀ p ∈ s.pushed, p.sent = push_history (some (rowsFile p.before.reverse)) p.stack

/-- When a step loses nothing: each `fopen` finds the log there and not open, the second one
finds it as it was read, and a reset comes when all rows are written and keeps the log. -/
def Safe (s : Spiffs) : LogStep → Prop
  | .save _ _ => s.canRead = true
  | .read _ malloc => malloc = true
  | .openWrite t => s.canWrite = true ∧
      ∀ c content, s.use t = .between c content → content = s.file.getD []
  | .write t n => ∀ text ∈ (s.use t).text, text.length ≤ n
  | .push _ _ => s.canRead = true
  | .upload _ => True
  | .reset n a => (∀ t, (s.use t).unsaved = []) ∧ (a.Loses → s.done = []) ∧
      (¬ a.Loses → ∀ text ∈ s.pending, text.length ≤ n)

/-! ## §3. What every step keeps. -/

/-- At most one task has the log open, and then there is a log. -/
structure Inv (s : Spiffs) : Prop where
  one : s.files.length ≤ 1
  opens : ∀ t, t ∈ s.files ↔ (s.use t).opens = true
  exists_ : s.files ≠ [] → s.file.isSome = true

theorem canRead_iff (s : Spiffs) :
    s.canRead = true ↔ s.mounted = true ∧ s.file.isSome = true ∧ s.files = [] := by
  unfold canRead max_files
  rw [Bool.and_eq_true, Bool.and_eq_true, decide_eq_true_eq, Nat.lt_one_iff, List.length_eq_zero_iff,
    and_assoc]

theorem canWrite_iff (s : Spiffs) : s.canWrite = true ↔ s.mounted = true ∧ s.files = [] := by
  unfold canWrite max_files
  rw [Bool.and_eq_true, decide_eq_true_eq, Nat.lt_one_iff, List.length_eq_zero_iff]

/-- A task that has the log open is the only one. -/
theorem Inv.files_eq {s : Spiffs} (h : s.Inv) {t : Task} (ht : (s.use t).opens = true) :
    s.files = [t] := by
  have hmem := (h.opens t).mpr ht
  have hone := h.one
  cases hf : s.files with
  | nil =>
      rw [hf] at hmem
      cases hmem
  | cons x xs =>
      rw [hf] at hmem hone
      have hnil : xs = [] := List.length_eq_zero_iff.mp (by
        rw [List.length_cons] at hone
        omega)
      rw [hnil] at hmem ⊢
      rw [List.mem_singleton.mp hmem]

theorem Inv.not_mem {s : Spiffs} (h : s.Inv) {t : Task} (ht : (s.use t).opens = false) :
    t ∉ s.files := by
  intro hmem
  rw [(h.opens t).mp hmem] at ht
  cases ht

/-- What a step can do. -/
theorem step_cases {s u : Spiffs} {l : LogStep} (h : s.step l = some u) :
    (∃ t c, l = .save t c ∧ s.use t = .idle ∧
      u = if s.canRead then s.opened t (.reading c) else s.finish [c]) ∨
    (∃ t malloc c, l = .read t malloc ∧ s.use t = .reading c ∧
      u = if malloc then s.closed t (.between c (cstr (s.file.getD [])))
        else (s.closed t .idle).finish [c]) ∨
    (∃ t c old, l = .openWrite t ∧ s.use t = .between c old ∧
      u = if s.canWrite then { (s.opened t (.writing c old)).finish [c] with file := some [] }
        else (s.goes t .idle).finish [c]) ∨
    (∃ t n c old, l = .write t n ∧ s.use t = .writing c old ∧
      u = { s.closed t .idle with file := some ((c.row ++ 0x0a :: old).take n) }) ∨
    (∃ t stack, l = .push t stack ∧ s.use t = .idle ∧
      u = if s.canRead then s.opened t (.uploading stack)
        else { s with pushed := s.pushed ++ [⟨s.done, stack, push_history none stack⟩] }) ∨
    (∃ t stack, l = .upload t ∧ s.use t = .uploading stack ∧
      u = { s.closed t .idle with
        pushed := s.pushed ++ [⟨s.done, stack, push_history s.file stack⟩] }) ∨
    (∃ n a, l = .reset n a ∧
      u = { mounted := (init_SPIFFS a (s.onFlash n)).1
            file := (init_SPIFFS a (s.onFlash n)).2
            files := []
            use := fun _ => .idle
            done := s.done ++ (tasks.map fun t => (s.use t).unsaved).flatten
            pushed := s.pushed }) := by
  cases l with
  | save t c =>
      obtain ⟨hidle, hu⟩ := Option.ite_none_right_eq_some.mp h
      exact Or.inl ⟨t, c, rfl, hidle, (Option.some.inj hu).symm⟩
  | read t malloc =>
      cases ht : s.use t <;> simp only [step, ht] at h <;> cases h
      exact Or.inr (Or.inl ⟨t, malloc, _, rfl, ht, rfl⟩)
  | openWrite t =>
      cases ht : s.use t <;> simp only [step, ht] at h <;> cases h
      exact Or.inr (Or.inr (Or.inl ⟨t, _, _, rfl, ht, rfl⟩))
  | write t n =>
      cases ht : s.use t <;> simp only [step, ht] at h <;> cases h
      exact Or.inr (Or.inr (Or.inr (Or.inl ⟨t, n, _, _, rfl, ht, rfl⟩)))
  | push t stack =>
      obtain ⟨hidle, hu⟩ := Option.ite_none_right_eq_some.mp h
      exact Or.inr (Or.inr (Or.inr (Or.inr (Or.inl ⟨t, stack, rfl, hidle, (Option.some.inj hu).symm⟩))))
  | upload t =>
      cases ht : s.use t <;> simp only [step, ht] at h <;> cases h
      exact Or.inr (Or.inr (Or.inr (Or.inr (Or.inr (Or.inl ⟨t, _, rfl, ht, rfl⟩)))))
  | reset n a =>
      cases h
      exact Or.inr (Or.inr (Or.inr (Or.inr (Or.inr (Or.inr ⟨n, a, rfl, rfl⟩)))))

theorem Inv.opened {s : Spiffs} (hfiles : s.files = []) (hfile : s.file.isSome = true) {t : Task}
    (hidle : ∀ x, (s.use x).opens = false) {u : LogUse} (hu : u.opens = true) : (s.opened t u).Inv := by
  refine ⟨?_, fun x => ?_, fun _ => hfile⟩
  · show (t :: s.files).length ≤ 1
    rw [hfiles]
    exact Nat.le_refl 1
  · show x ∈ t :: s.files ↔ (Function.update s.use t u x).opens = true
    rw [hfiles, List.mem_singleton]
    by_cases hx : x = t
    · rw [hx, Function.update_self]
      exact ⟨fun _ => hu, fun _ => rfl⟩
    · rw [Function.update_of_ne hx, hidle x]
      exact ⟨fun h => absurd h hx, fun h => nomatch h⟩

theorem Inv.closed {s : Spiffs} (h : s.Inv) {t : Task} (ht : (s.use t).opens = true) {u : LogUse}
    (hu : u.opens = false) : (s.closed t u).files = [] ∧ ∀ x, ((s.closed t u).use x).opens = false := by
  have hfiles := h.files_eq ht
  constructor
  · show s.files.erase t = []
    rw [hfiles]
    simp
  · intro x
    show (Function.update s.use t u x).opens = false
    by_cases hx : x = t
    · rw [hx, Function.update_self]
      exact hu
    · rw [Function.update_of_ne hx]
      have hnot : x ∉ s.files := by
        rw [hfiles, List.mem_singleton]
        exact hx
      rw [h.opens x] at hnot
      exact Bool.eq_false_iff.mpr hnot

/-- No task has the log open. -/
theorem inv_of_closed {s : Spiffs} (hfiles : s.files = []) (huse : ∀ x, (s.use x).opens = false) :
    s.Inv := by
  refine ⟨?_, fun x => ?_, fun h => absurd hfiles h⟩
  · rw [hfiles]
    exact Nat.zero_le 1
  · rw [hfiles, huse x]
    exact ⟨fun h => absurd h List.not_mem_nil, fun h => nomatch h⟩

theorem Inv.goes {s : Spiffs} (h : s.Inv) {t : Task} (ht : (s.use t).opens = false) :
    (s.goes t .idle).Inv := by
  refine ⟨h.one, fun x => ?_, h.exists_⟩
  show x ∈ s.files ↔ (Function.update s.use t .idle x).opens = true
  by_cases hx : x = t
  · rw [hx, Function.update_self]
    exact ⟨fun hmem => absurd hmem (h.not_mem ht), fun h => nomatch h⟩
  · rw [Function.update_of_ne hx]
    exact h.opens x

/-- Without an open log no task has it open. -/
theorem Inv.closed_of_nil {s : Spiffs} (h : s.Inv) (hfiles : s.files = []) (x : Task) :
    (s.use x).opens = false := by
  have hnot : x ∉ s.files := by
    rw [hfiles]
    exact List.not_mem_nil
  rw [h.opens x] at hnot
  exact Bool.eq_false_iff.mpr hnot

/-- **Step, what always holds.** -/
theorem inv_step {s u : Spiffs} {l : LogStep} (hs : s.Inv) (h : s.step l = some u) : u.Inv := by
  have hopened : ∀ {t : Task} {w : LogUse}, s.canRead = true → w.opens = true →
      (s.opened t w).Inv := by
    intro t w hread hw
    obtain ⟨-, hfile, hfiles⟩ := (canRead_iff s).mp hread
    exact Inv.opened hfiles hfile (hs.closed_of_nil hfiles) hw
  have hclosed : ∀ {t : Task} {w : LogUse}, (s.use t).opens = true → w.opens = false →
      (s.closed t w).Inv := fun ht hw =>
    inv_of_closed (hs.closed ht hw).1 (hs.closed ht hw).2
  obtain ⟨t, c, -, ht, rfl⟩ | ⟨t, malloc, c, -, ht, rfl⟩ | ⟨t, c, old, -, ht, rfl⟩ |
    ⟨t, n, c, old, -, ht, rfl⟩ | ⟨t, stack, -, ht, rfl⟩ | ⟨t, stack, -, ht, rfl⟩ | ⟨n, a, -, rfl⟩ :=
    step_cases h
  · by_cases hread : s.canRead = true
    · rw [if_pos hread]
      exact hopened hread rfl
    · rw [if_neg hread]
      exact ⟨hs.one, hs.opens, hs.exists_⟩
  · have hout : (s.use t).opens = true := by
      rw [ht]
      rfl
    cases malloc with
    | true => exact hclosed hout rfl
    | false =>
        have hidle := hclosed hout (w := .idle) rfl
        exact ⟨hidle.one, hidle.opens, hidle.exists_⟩
  · by_cases hwrite : s.canWrite = true
    · rw [if_pos hwrite]
      have hfiles := ((canWrite_iff s).mp hwrite).2
      have hw := Inv.opened (s := { s with file := some [] }) (t := t) hfiles rfl
        (hs.closed_of_nil hfiles) (u := .writing c old) rfl
      exact ⟨hw.one, hw.opens, hw.exists_⟩
    · rw [if_neg hwrite]
      have hidle := hs.goes (t := t) (by
        rw [ht]
        rfl)
      exact ⟨hidle.one, hidle.opens, hidle.exists_⟩
  · have hidle := hs.closed (t := t) (u := .idle) (by
      rw [ht]
      rfl) rfl
    exact inv_of_closed hidle.1 hidle.2
  · by_cases hread : s.canRead = true
    · rw [if_pos hread]
      exact hopened hread rfl
    · rw [if_neg hread]
      exact ⟨hs.one, hs.opens, hs.exists_⟩
  · have hidle := hs.closed (t := t) (u := .idle) (by
      rw [ht]
      rfl) rfl
    exact inv_of_closed hidle.1 hidle.2
  · exact inv_of_closed rfl fun _ => rfl

/-! ## §4. Whole runs. -/

theorem pending_of_nil {s : Spiffs} (h : s.files = []) : s.pending = none := by
  unfold pending
  rw [h]
  rfl

theorem content_of_nil {s : Spiffs} (h : s.files = []) : s.content = s.file.getD [] := by
  unfold content
  rw [pending_of_nil h]
  rfl

theorem Inv.pending_eq {s : Spiffs} (h : s.Inv) {t : Task} (ht : (s.use t).opens = true) :
    s.pending = (s.use t).text := by
  unfold pending
  rw [h.files_eq ht]
  rfl

theorem pending_opened (s : Spiffs) (t : Task) (u : LogUse) : (s.opened t u).pending = u.text := by
  show (Function.update s.use t u t).text = _
  rw [Function.update_self]

theorem length_rowsFile_append (xs ys : List SaveCall) :
    (rowsFile (xs ++ ys)).length = (rowsFile xs).length + (rowsFile ys).length := by
  induction xs with
  | nil =>
      show _ = 0 + _
      rw [Nat.zero_add]
      rfl
  | cons c xs ih =>
      rw [List.cons_append, length_rowsFile_cons, length_rowsFile_cons, ih]
      omega

theorem rowsFile_concat (done : List SaveCall) (c : SaveCall) :
    rowsFile (done ++ [c]).reverse = c.row ++ 0x0a :: rowsFile done.reverse := by
  rw [List.reverse_append]
  rfl

/-- Sessions that are over without a row. -/
theorem not_complete_of_finish {s u : Spiffs} (h : s.Complete) {cs : List SaveCall} (hcs : cs ≠ [])
    (hdone : u.done = s.done ++ cs) (hcontent : u.content.length ≤ s.content.length) :
    ¬ u.Complete := by
  intro hu
  have hrows := congrArg List.length hu.rows
  rw [hdone, List.reverse_append, length_rowsFile_append, ← h.rows] at hrows
  obtain ⟨c, rest, hc⟩ := List.exists_cons_of_ne_nil (List.reverse_ne_nil_iff.mpr hcs)
  rw [hc, length_rowsFile_cons] at hrows
  omega

theorem Complete.same {s u : Spiffs} (h : s.Complete) (hdone : u.done = s.done)
    (hcontent : u.content = s.content) (hpushed : u.pushed = s.pushed) : u.Complete := by
  refine ⟨?_, ?_⟩
  · rw [hcontent, hdone]
    exact h.rows
  · rw [hpushed]
    exact h.pushed

theorem push_history_none_ne (f : List UInt8) (stack : Fields) :
    push_history none stack ≠ push_history (some f) stack := nofun

/-- `save_history` up to its first `fopen`. -/
theorem complete_save_iff {s : Spiffs} (h : s.Complete) (t : Task) (c : SaveCall) :
    (if s.canRead then s.opened t (.reading c) else s.finish [c] : Spiffs).Complete ↔
      s.canRead = true := by
  by_cases hread : s.canRead = true
  · rw [if_pos hread]
    refine ⟨fun _ => hread, fun _ => h.same rfl ?_ rfl⟩
    rw [content_of_nil ((canRead_iff s).mp hread).2.2]
    unfold content
    rw [pending_opened]
    rfl
  · rw [if_neg hread]
    exact ⟨fun hu => absurd hu (not_complete_of_finish h (List.cons_ne_nil c []) rfl (Nat.le_refl _)),
      fun hu => absurd hu hread⟩

/-- Reading the log and closing it. -/
theorem complete_read_iff {s : Spiffs} (hs : s.Inv) (h : s.Complete) {t : Task} {c : SaveCall}
    (ht : s.use t = .reading c) (malloc : Bool) (old : List UInt8) :
    (if malloc then s.closed t (.between c old) else (s.closed t .idle).finish [c] : Spiffs).Complete
      ↔ malloc = true := by
  have hout : (s.use t).opens = true := by
    rw [ht]
    rfl
  have hcontent : s.content = s.file.getD [] := by
    unfold content
    rw [hs.pending_eq hout, ht]
    rfl
  have hclosed : ∀ w : LogUse, w.opens = false → (s.closed t w).content = s.content := by
    intro w hw
    rw [hcontent, content_of_nil (hs.closed hout hw).1]
    rfl
  cases malloc with
  | true => exact ⟨fun _ => rfl, fun _ => h.same rfl (hclosed _ rfl) rfl⟩
  | false =>
      refine ⟨fun hu => absurd hu ?_, nofun⟩
      exact not_complete_of_finish h (List.cons_ne_nil c []) rfl
        (congrArg List.length (hclosed .idle rfl)).le

/-- The second `fopen`. -/
theorem complete_openWrite_iff {s : Spiffs} (hs : s.Inv) (h : s.Complete) {t : Task} {c : SaveCall}
    {old : List UInt8} (ht : s.use t = .between c old) :
    (if s.canWrite then { (s.opened t (.writing c old)).finish [c] with file := some [] }
      else (s.goes t .idle).finish [c] : Spiffs).Complete ↔
      s.canWrite = true ∧ old = s.file.getD [] := by
  by_cases hwrite : s.canWrite = true
  · rw [if_pos hwrite]
    have hcontent := content_of_nil ((canWrite_iff s).mp hwrite).2
    have hnew : ({ (s.opened t (.writing c old)).finish [c] with file := some [] } : Spiffs).content
        = c.row ++ 0x0a :: old := by
      show ((s.opened t (.writing c old)).pending.or (some [])).getD [] = _
      rw [pending_opened]
      rfl
    have hrows : rowsFile (s.done ++ [c]).reverse = c.row ++ 0x0a :: s.file.getD [] := by
      rw [rowsFile_concat, ← h.rows, hcontent]
    constructor
    · intro hu
      have heq := hu.rows
      rw [hnew] at heq
      exact ⟨hwrite, (List.cons.inj (List.append_cancel_left (heq.trans hrows))).2⟩
    · rintro ⟨-, hold⟩
      refine ⟨?_, h.pushed⟩
      rw [hnew, hold]
      exact hrows.symm
  · rw [if_neg hwrite]
    refine ⟨fun hu => absurd hu ?_, fun hu => absurd hu.1 hwrite⟩
    refine not_complete_of_finish h (List.cons_ne_nil c []) rfl ?_
    -- the task that gives up is not the one that has the log open
    have hpending : (s.goes t .idle).pending = s.pending := by
      show s.files.head?.bind _ = s.files.head?.bind _
      cases hf : s.files with
      | nil => rfl
      | cons x xs =>
          have hx : x ≠ t := by
            rintro rfl
            refine hs.not_mem (t := x) ?_ (hf ▸ List.mem_cons_self)
            rw [ht]
            rfl
          show (Function.update s.use t .idle x).text = (s.use x).text
          rw [Function.update_of_ne hx]
    show (((s.goes t .idle).pending.or s.file).getD []).length ≤ s.content.length
    rw [hpending]
    exact Nat.le_refl _

/-- `fprintf` and `fclose`: the log is what got to the flash. -/
theorem complete_write_iff {s u : Spiffs} (hs : s.Inv) (h : s.Complete) {t : Task} {c : SaveCall}
    {old : List UInt8} (ht : s.use t = .writing c old) {n : ℕ} (hfiles : u.files = [])
    (hfile : u.file = some ((c.row ++ 0x0a :: old).take n)) (hdone : u.done = s.done)
    (hpushed : u.pushed = s.pushed) : u.Complete ↔ (c.row ++ 0x0a :: old).length ≤ n := by
  have hout : (s.use t).opens = true := by
    rw [ht]
    rfl
  have hcontent : s.content = c.row ++ 0x0a :: old := by
    unfold content
    rw [hs.pending_eq hout, ht]
    rfl
  have hnew : u.content = (c.row ++ 0x0a :: old).take n := by
    rw [content_of_nil hfiles, hfile]
    rfl
  rw [← List.take_eq_self_iff, ← hcontent]
  constructor
  · intro hu
    have heq := hu.rows
    rw [hnew, ← hcontent, hdone] at heq
    exact heq.trans h.rows.symm
  · intro htake
    refine h.same hdone ?_ hpushed
    rw [hnew, ← hcontent, htake]

theorem complete_pushed_iff {s : Spiffs} (h : s.Complete) {u : Spiffs} {p : Pushed}
    (hdone : u.done = s.done) (hcontent : u.content = s.content)
    (hpushed : u.pushed = s.pushed ++ [p]) :
    u.Complete ↔ p.sent = push_history (some (rowsFile p.before.reverse)) p.stack := by
  constructor
  · intro hu
    refine hu.pushed p ?_
    rw [hpushed]
    exact List.mem_append_right _ (List.mem_singleton_self p)
  · intro hp
    refine ⟨?_, ?_⟩
    · rw [hcontent, hdone]
      exact h.rows
    · rw [hpushed]
      exact List.forall_mem_append.mpr ⟨h.pushed, List.forall_mem_singleton.mpr hp⟩

/-- `push_history` up to its `fopen`. -/
theorem complete_push_iff {s : Spiffs} (h : s.Complete) (t : Task) (stack : Fields) :
    (if s.canRead then s.opened t (.uploading stack)
      else { s with pushed := s.pushed ++ [⟨s.done, stack, push_history none stack⟩] } : Spiffs).Complete
      ↔ s.canRead = true := by
  by_cases hread : s.canRead = true
  · rw [if_pos hread]
    refine ⟨fun _ => hread, fun _ => h.same rfl ?_ rfl⟩
    rw [content_of_nil ((canRead_iff s).mp hread).2.2]
    unfold content
    rw [pending_opened]
    rfl
  · rw [if_neg hread]
    refine Iff.trans (complete_pushed_iff h rfl rfl rfl) ?_
    exact ⟨fun hp => absurd hp (push_history_none_ne _ _), fun hu => absurd hu hread⟩

/-- **An upload shows every session that is over.** -/
theorem complete_upload {s : Spiffs} (hs : s.Inv) (h : s.Complete) {t : Task} {stack : Fields}
    (ht : s.use t = .uploading stack) :
    ({ s.closed t .idle with
        pushed := s.pushed ++ [⟨s.done, stack, push_history s.file stack⟩] } : Spiffs).Complete := by
  have hout : (s.use t).opens = true := by
    rw [ht]
    rfl
  have hcontent : s.content = s.file.getD [] := by
    unfold content
    rw [hs.pending_eq hout, ht]
    rfl
  -- the log is there, and it holds the rows
  obtain ⟨f, hf⟩ := Option.isSome_iff_exists.mp (hs.exists_ (by
    rw [hs.files_eq hout]
    exact List.cons_ne_nil t []))
  have hrows : s.file = some (rowsFile s.done.reverse) := by
    rw [← h.rows, hcontent, hf]
    rfl
  refine Iff.mpr (complete_pushed_iff h rfl ?_ rfl) ?_
  · rw [hcontent]
    exact content_of_nil (hs.closed (u := .idle) hout rfl).1
  · show push_history s.file stack = _
    rw [hrows]

theorem onFlash_length_le (s : Spiffs) (n : ℕ) :
    ((s.onFlash n).getD []).length ≤ s.content.length := by
  unfold onFlash content
  cases s.pending with
  | none => exact Nat.le_refl _
  | some text =>
      show (text.take n).length ≤ text.length
      exact List.length_take_le' n text

theorem onFlash_eq_iff (s : Spiffs) (n : ℕ) :
    (s.onFlash n).getD [] = s.content ↔ ∀ text ∈ s.pending, text.length ≤ n := by
  unfold onFlash content
  cases s.pending with
  | none => exact ⟨fun _ _ h => (nomatch h), fun _ => rfl⟩
  | some text =>
      show text.take n = text ↔ _
      rw [List.take_eq_self_iff]
      exact ⟨fun h w hw => Option.some.inj hw ▸ h, fun h => h text rfl⟩

/-- A reset drops the sessions whose rows are not being written yet. -/
theorem unsaved_eq_nil_iff (s : Spiffs) :
    (tasks.map fun t => (s.use t).unsaved).flatten = [] ↔ ∀ t, (s.use t).unsaved = [] := by
  constructor
  · intro h t
    have htask : t ∈ tasks := by
      cases t <;> decide
    exact List.flatten_eq_nil_iff.mp h _ (List.mem_map_of_mem htask)
  · intro h
    refine List.flatten_eq_nil_iff.mpr fun l hl => ?_
    obtain ⟨t, -, rfl⟩ := List.mem_map.mp hl
    exact h t

/-- **A reset.** -/
theorem complete_reset_iff {s u : Spiffs} (h : s.Complete) {n : ℕ} {a : SpiffsAnswers}
    (hstep : s.step (.reset n a) = some u) : u.Complete ↔ s.Safe (.reset n a) := by
  cases hstep
  have hinit := init_SPIFFS_cases a (s.onFlash n)
  by_cases hun : ∀ t, (s.use t).unsaved = []
  · have hdone : s.done ++ (tasks.map fun t => (s.use t).unsaved).flatten = s.done := by
      rw [(unsaved_eq_nil_iff s).mpr hun, List.append_nil]
    -- what is left are the rows, or nothing
    have hcomplete : Spiffs.Complete
        { mounted := (init_SPIFFS a (s.onFlash n)).1, file := (init_SPIFFS a (s.onFlash n)).2,
          files := [], use := fun _ => .idle,
          done := s.done ++ (tasks.map fun t => (s.use t).unsaved).flatten, pushed := s.pushed } ↔
        (init_SPIFFS a (s.onFlash n)).2.getD [] = s.content := by
      rw [hdone, h.rows]
      exact ⟨fun hu => hu.rows, fun hu => ⟨hu, h.pushed⟩⟩
    rw [hcomplete]
    obtain ⟨hloses, hnil⟩ | ⟨hkeeps, hsame⟩ := hinit
    · have hempty : ([] : List UInt8) = s.content ↔ s.done = [] := by
        rw [h.rows]
        constructor
        · intro hrows
          by_contra hne
          obtain ⟨c, rest, hc⟩ := List.exists_cons_of_ne_nil (List.reverse_ne_nil_iff.mpr hne)
          rw [hc] at hrows
          exact absurd hrows.symm (List.append_ne_nil_of_right_ne_nil _ (List.cons_ne_nil _ _))
        · intro hdone
          rw [hdone]
          rfl
      rw [hnil, hempty]
      exact ⟨fun hd => ⟨hun, fun _ => hd, fun hn => absurd hloses hn⟩, fun hsafe => hsafe.2.1 hloses⟩
    · rw [hsame, onFlash_eq_iff]
      exact ⟨fun hw => ⟨hun, fun hl => absurd hl hkeeps, fun _ => hw⟩,
        fun hsafe => hsafe.2.2 hkeeps⟩
  · refine ⟨fun hu => absurd hu ?_, fun hsafe => absurd hsafe.1 hun⟩
    refine not_complete_of_finish h (fun hnil => hun ((unsaved_eq_nil_iff s).mp hnil)) rfl ?_
    show ((init_SPIFFS a (s.onFlash n)).2.getD []).length ≤ _
    obtain ⟨-, hnil⟩ | ⟨-, hsame⟩ := hinit
    · rw [hnil]
      exact Nat.zero_le _
    · rw [hsame]
      exact onFlash_length_le s n

/-- **Step.** -/
theorem complete_step_iff {s u : Spiffs} {l : LogStep} (hs : s.Inv) (h : s.Complete)
    (hstep : s.step l = some u) : u.Complete ↔ s.Safe l := by
  obtain ⟨t, c, rfl, ht, rfl⟩ | ⟨t, malloc, c, rfl, ht, rfl⟩ | ⟨t, c, old, rfl, ht, rfl⟩ |
    ⟨t, n, c, old, rfl, ht, rfl⟩ | ⟨t, stack, rfl, ht, rfl⟩ | ⟨t, stack, rfl, ht, rfl⟩ |
    ⟨n, a, rfl, -⟩ := step_cases hstep
  · exact complete_save_iff h t c
  · exact complete_read_iff hs h ht malloc _
  · rw [complete_openWrite_iff hs h ht]
    unfold Safe
    simp only [ht, LogUse.between.injEq, and_imp, forall_eq', forall_apply_eq_imp_iff]
  · have hfiles := (hs.closed (t := t) (u := .idle) (by
      rw [ht]
      rfl) rfl).1
    refine Iff.trans (complete_write_iff hs h ht hfiles rfl rfl rfl) ?_
    unfold Safe
    simp only [ht, LogUse.text, Option.mem_def, Option.some.injEq, forall_eq']
  · exact complete_push_iff h t stack
  · exact ⟨fun _ => trivial, fun _ => complete_upload hs h ht⟩
  · exact complete_reset_iff h hstep

/-- **A call that nothing interrupts** is `save_history`, stopped behind the bytes that get to the
flash. -/
theorem save_alone {s : Spiffs} {t : Task} {c : SaveCall} {f : List UInt8} (ht : s.use t = .idle)
    (hread : s.canRead = true) (hfile : s.file = some f) (n : ℕ) :
    ∃ u, exec step s [.save t c, .read t true, .openWrite t, .write t n] = some u ∧
      u.file = some (save_history (some (.write n)) f c.stamp c.mode c.time) ∧
      u.done = s.done ++ [c] := by
  obtain ⟨hmounted, -, hfiles⟩ := (canRead_iff s).mp hread
  have hsave : s.step (.save t c) = some (s.opened t (.reading c)) := by
    simp only [step, if_pos ht, if_pos hread]
  have hreading : (s.opened t (.reading c)).step (.read t true)
      = some ((s.opened t (.reading c)).closed t (.between c (cstr f))) := by
    have huse : (s.opened t (.reading c)).use t = .reading c := Function.update_self _ _ _
    simp only [step, huse, if_true]
    show some ((s.opened t (.reading c)).closed t (.between c (cstr (s.file.getD [])))) = _
    rw [hfile]
    rfl
  generalize hw : (s.opened t (.reading c)).closed t (.between c (cstr f)) = w at hreading
  have hopen : w.step (.openWrite t)
      = some { (w.opened t (.writing c (cstr f))).finish [c] with file := some [] } := by
    have huse : w.use t = .between c (cstr f) := by
      rw [← hw]
      exact Function.update_self _ _ _
    have hwrite : w.canWrite = true := by
      rw [← hw]
      refine (canWrite_iff _).mpr ⟨hmounted, ?_⟩
      show (t :: s.files).erase t = []
      rw [hfiles]
      simp
    simp only [step, huse, if_pos hwrite]
  have hdone : w.done = s.done := by
    rw [← hw]
    rfl
  generalize hv : ({ (w.opened t (.writing c (cstr f))).finish [c] with file := some [] } : Spiffs) = v
    at hopen
  have hlast : v.step (.write t n)
      = some { v.closed t .idle with file := some ((c.row ++ 0x0a :: cstr f).take n) } := by
    have huse : v.use t = .writing c (cstr f) := by
      rw [← hv]
      exact Function.update_self _ _ _
    simp only [step, huse]
  refine ⟨{ v.closed t .idle with file := some ((c.row ++ 0x0a :: cstr f).take n) }, ?_, rfl, ?_⟩
  · rw [exec_cons, hsave, Option.bind_some, exec_cons, hreading, Option.bind_some, exec_cons, hopen,
      Option.bind_some, exec_cons, hlast]
    rfl
  · show v.done = _
    rw [← hv, ← hdone]
    rfl

theorem inv_init : init.Inv := inv_of_closed rfl fun _ => rfl

theorem complete_init : init.Complete := ⟨rfl, fun _ h => absurd h List.not_mem_nil⟩

end Spiffs

/-- A reset that finds an empty partition. -/
def firstReset : LogStep := .reset 0 ⟨.mounts, some (1000, 0), true, false, true⟩

-- the session ends while the other task uploads the history
example : (exec Spiffs.step Spiffs.init
    [firstReset, .push .stone_cmd ⟨[], [], [], []⟩, .save .timer_handle ⟨someStamp, 1, 120⟩,
      .upload .stone_cmd]).map (fun s => (s.file, s.done))
    = some (some [], [⟨someStamp, 1, 120⟩]) := rfl

/-! ## §5. Calls that do not overlap. -/

namespace Spiffs

/-- When a step keeps the calls apart: one begins when no other goes on and the log is there,
memory and flash suffice, and a reset comes between the calls and keeps the log. -/
def Apart (s : Spiffs) : LogStep → Prop
  | .save _ _ => (∀ t, s.use t = .idle) ∧ s.mounted = true ∧ s.file.isSome = true
  | .read _ malloc => malloc = true
  | .openWrite _ => True
  | .write t n => ∀ text ∈ (s.use t).text, text.length ≤ n
  | .push _ _ => (∀ t, s.use t = .idle) ∧ s.mounted = true ∧ s.file.isSome = true
  | .upload _ => True
  | .reset _ a => (∀ t, s.use t = .idle) ∧ (a.Loses → s.done = [])

/-- At most one call goes on, and the log is as it was read. -/
structure Alone (s : Spiffs) : Prop where
  alone : ∀ t t', s.use t ≠ .idle → s.use t' ≠ .idle → t = t'
  mounted : ∀ t, s.use t ≠ .idle → s.mounted = true
  between : ∀ t c old, s.use t = .between c old → s.canWrite = true ∧ old = s.file.getD []

theorem alone_of_idle {s : Spiffs} (h : ∀ t, s.use t = .idle) : s.Alone :=
  ⟨fun t _ ht => absurd (h t) ht, fun t ht => absurd (h t) ht, fun t c old ht => by
    rw [h t] at ht
    cases ht⟩

/-- With all others idle, the task goes on. -/
theorem alone_of_update {s u : Spiffs} {t : Task} {w : LogUse}
    (h : ∀ x, s.use x ≠ .idle → x = t) (huse : u.use = Function.update s.use t w)
    (hmounted : u.mounted = true)
    (hw : ∀ c old, w = .between c old → u.canWrite = true ∧ old = u.file.getD []) : u.Alone := by
  have hother : ∀ x, u.use x ≠ .idle → x = t := by
    intro x hx
    by_contra hne
    rw [huse, Function.update_of_ne hne] at hx
    exact hne (h x hx)
  refine ⟨fun x y hx hy => (hother x hx).trans (hother y hy).symm, fun _ _ => hmounted,
    fun x c old hx => ?_⟩
  obtain rfl : x = t := hother x (by
    rw [hx]
    exact nofun)
  rw [huse, Function.update_self] at hx
  exact hw c old hx

theorem no_open_of_idle {s : Spiffs} (hs : s.Inv) (h : ∀ t, s.use t = .idle) : s.files = [] := by
  rw [List.eq_nil_iff_forall_not_mem]
  intro t ht
  have hout := (hs.opens t).mp ht
  rw [h t] at hout
  cases hout

/-- **Calls that are kept apart are safe.** -/
theorem safe_of_apart {s u : Spiffs} {l : LogStep} (hs : s.Inv) (ha : s.Alone) (h : s.Apart l)
    (hstep : s.step l = some u) : s.Safe l := by
  cases l with
  | save t c =>
      obtain ⟨hidle, hmounted, hfile⟩ := h
      exact (canRead_iff s).mpr ⟨hmounted, hfile, no_open_of_idle hs hidle⟩
  | read t malloc => exact h
  | openWrite t =>
      unfold step at hstep
      cases ht : s.use t with
      | between c old =>
          obtain ⟨hwrite, -⟩ := ha.between t c old ht
          exact ⟨hwrite, fun c' old' ht' => (ha.between t c' old' ht').2⟩
      | _ =>
          simp only [ht] at hstep
          cases hstep
  | write t n => exact h
  | push t stack =>
      obtain ⟨hidle, hmounted, hfile⟩ := h
      exact (canRead_iff s).mpr ⟨hmounted, hfile, no_open_of_idle hs hidle⟩
  | upload t => trivial
  | reset n a =>
      obtain ⟨hidle, hloses⟩ := h
      refine ⟨fun t => ?_, hloses, fun _ text htext => ?_⟩
      · rw [hidle t]
        rfl
      · rw [pending_of_nil (no_open_of_idle hs hidle)] at htext
        cases htext

/-- **Step, calls kept apart.** -/
theorem alone_step {s u : Spiffs} {l : LogStep} (hs : s.Inv) (hc : s.Complete) (ha : s.Alone)
    (h : s.Apart l) (hstep : s.step l = some u) : u.Alone := by
  have hsafe := safe_of_apart hs ha h hstep
  have honly : ∀ {t : Task}, s.use t ≠ .idle → ∀ x, s.use x ≠ .idle → x = t :=
    fun ht x hx => ha.alone x _ hx ht
  obtain ⟨t, c, rfl, ht, rfl⟩ | ⟨t, malloc, c, rfl, ht, rfl⟩ | ⟨t, c, old, rfl, ht, rfl⟩ |
    ⟨t, n, c, old, rfl, ht, rfl⟩ | ⟨t, stack, rfl, ht, rfl⟩ | ⟨t, stack, rfl, ht, rfl⟩ |
    ⟨n, a, rfl, rfl⟩ := step_cases hstep
  · have hread : s.canRead = true := hsafe
    rw [if_pos hread]
    exact alone_of_update (fun x hx => absurd (h.1 x) hx) rfl h.2.1 nofun
  · obtain rfl : malloc = true := h
    have hbusy : s.use t ≠ .idle := by
      rw [ht]
      exact nofun
    have hout : (s.use t).opens = true := by
      rw [ht]
      rfl
    have hmounted := ha.mounted t hbusy
    refine alone_of_update (honly hbusy) rfl hmounted fun c' old hw => ?_
    obtain ⟨rfl, rfl⟩ := LogUse.between.inj hw
    refine ⟨(canWrite_iff _).mpr ⟨hmounted, (hs.closed (u := .between c _) hout rfl).1⟩, ?_⟩
    -- rows are plain text, so the C string is the whole log
    have hrows : s.file.getD [] = rowsFile s.done.reverse := by
      rw [← hc.rows]
      unfold content
      rw [hs.pending_eq hout, ht]
      rfl
    show cstr (s.file.getD []) = s.file.getD []
    rw [hrows]
    exact cstr_eq_self (rowsFile_plain _)
  · have hbusy : s.use t ≠ .idle := by
      rw [ht]
      exact nofun
    rw [if_pos hsafe.1]
    exact alone_of_update (honly hbusy) rfl (ha.mounted t hbusy) nofun
  · have hbusy : s.use t ≠ .idle := by
      rw [ht]
      exact nofun
    exact alone_of_update (honly hbusy) rfl (ha.mounted t hbusy) nofun
  · have hread : s.canRead = true := hsafe
    rw [if_pos hread]
    exact alone_of_update (fun x hx => absurd (h.1 x) hx) rfl h.2.1 nofun
  · have hbusy : s.use t ≠ .idle := by
      rw [ht]
      exact nofun
    exact alone_of_update (honly hbusy) rfl (ha.mounted t hbusy) nofun
  · exact alone_of_idle fun _ => rfl

end Spiffs

/-- The first reset, and a session. -/
def firstSession : List LogStep :=
  [firstReset, .save .timer_handle ⟨someStamp, 1, 120⟩, .read .timer_handle true,
    .openWrite .timer_handle, .write .timer_handle 30]

end StoneHMI
