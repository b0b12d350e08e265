/-
  StoneHMI.Sensor.Xdb305
  ──────────────────────
  **THE PRESSURE SENSOR — `read_sensor_one_shot` of xdb305.c.**

  A shot writes the start command to register 0x30, reads that register until
  the conversion is over, and reads five data registers.  The sensor and the
  bus are on the other side: a step of the model is the answer to the transfer
  that the function waits for, with its bytes or with an error.

  The floats are rationals, so that what is said of them leaves rounding out.

    §1  transfers and answers     §3  one answer
    §2  the function              §4  when the data registers are read
-/
import StoneHMI.Lib.Run
import Mathlib.Algebra.Order.Field.Rat

namespace StoneHMI

/-! ## §1. Transfers and answers. -/

/-- A transfer with the sensor: the bytes written to it, and how many are read behind them. -/
structure Transfer where
  write_buf : List UInt8
  len : ℕ
  deriving DecidableEq, Repr

/-- `sensor_register_read` -/
def sensor_register_read (reg_addr : UInt8) (len : ℕ) : Transfer := ⟨[reg_addr], len⟩

/-- `sensor_register_write_byte` -/
def sensor_register_write_byte (reg_addr data : UInt8) : Transfer := ⟨[reg_addr, data], 0⟩

/-- The transfer reads the register: it names a first one, and goes on from there. -/
def Transfer.reads (t : Transfer) (reg : UInt8) : Bool :=
  match t.write_buf with
  | [first] => decide (first.toNat ≤ reg.toNat) && decide (reg.toNat < first.toNat + t.len)
  | _ => false

/-- `ESP_OK` -/
def ESP_OK : ℤ := 0

/-- An `esp_err_t` that is not `ESP_OK`. -/
structure EspError where
  code : ℤ
  failed : code ≠ ESP_OK
  deriving DecidableEq

/-- What comes back of a transfer. -/
inductive Reply where
  | fail (e : EspError)
  /-- `ESP_OK`, and the bytes that have been read. -/
  | ok (bytes : List UInt8)
  deriving DecidableEq

/-! ## §2. The function. -/

/-- Where the function waits, or what it has returned. -/
inductive Stage where
  | command
  | poll
  | data
  | returned (ret : ℤ)
  deriving DecidableEq

/-- The transfer that is under way. -/
def Stage.transfer : Stage → Option Transfer
  | .command => some (sensor_register_write_byte 0x30 0x0A)
  | .poll => some (sensor_register_read 0x30 1)
  | .data => some (sensor_register_read 0x06 5)
  | .returned _ => none

/-- `*(Cal_TData)` of `REG_Data[3]` and `REG_Data[4]`. -/
def calTData (R3 R4 : UInt8) : ℚ :=
  let Cal_TData : ℚ := R3.toNat * 256 + R4.toNat
  -- 32768 itself, the word 0x8000, takes the other branch
  if Cal_TData > 32768 then (Cal_TData - 65536) / 256 else Cal_TData / 256

/-- `FULLSCALE` -/
def FULLSCALE : ℚ := 300

/-- `*(Cal_PData)` of `REG_Data[0]` to `REG_Data[2]`. -/
def calPData (R0 R1 R2 : UInt8) : ℚ :=
  let Cal_PData : ℚ := R0.toNat * 65536 + R1.toNat * 256 + R2.toNat
  -- and so does 0x800000 here
  if Cal_PData > 8388608 then ((Cal_PData - 16777216) / 8388608) * FULLSCALE
  else (Cal_PData / 8388608) * FULLSCALE

/-- A shot: where it is, the transfers that have been answered, the newest first, and the
outputs, where they have been written. -/
structure Shot where
  stage : Stage
  answered : List (Transfer × Reply)
  Cal_TData : Option ℚ
  Cal_PData : Option ℚ
  deriving DecidableEq

namespace Shot

/-- The first transfer is under way. -/
def start : Shot := { stage := .command, answered := [], Cal_TData := none, Cal_PData := none }

/-- The transfer under way has been answered. -/
def answer (s : Shot) (r : Reply) (next : Stage) : Shot :=
  { s with stage := next, answered := s.stage.transfer.toList.map (fun t => (t, r)) ++ s.answered }

/-- The outputs of five data registers. -/
def convert (s : Shot) (R0 R1 R2 R3 R4 : UInt8) : Shot :=
  { s with Cal_TData := some (calTData R3 R4), Cal_PData := some (calPData R0 R1 R2) }

/-- `read_sensor_one_shot`, from one answer to the next transfer. -/
def step (s : Shot) (r : Reply) : Option Shot :=
  match s.stage, r with
  | .returned _, _ => none
  | _, .fail e => some (s.answer r (.returned e.code))
  | .command, .ok [] => some (s.answer r .poll)
  -- the comment of the source says bit 3; the shift by two leaves bit 2
  | .poll, .ok [SCO] => some (s.answer r (if (SCO >>> 2) &&& 0x1 = 1 then .poll else .data))
  | .data, .ok [R0, R1, R2, R3, R4] =>
      some ((s.answer r (.returned ESP_OK)).convert R0 R1 R2 R3 R4)
  | _, _ => none

/-! ## §3. One answer. -/

theorem answered_answer {s : Shot} {t : Transfer} (h : s.stage.transfer = some t) (r : Reply)
    (next : Stage) : (s.answer r next).answered = (t, r) :: s.answered := by
  unfold answer
  rw [h]
  rfl

/-- **What one answer can do.** -/
theorem step_cases {s t : Shot} {r : Reply} (h : s.step r = some t) :
    (∃ tr e, s.stage.transfer = some tr ∧ r = .fail e ∧ t = s.answer r (.returned e.code)) ∨
    (s.stage = .command ∧ r = .ok [] ∧ t = s.answer r .poll) ∨
    (s.stage = .poll ∧ ∃ SCO, r = .ok [SCO] ∧
      t = s.answer r (if (SCO >>> 2) &&& 0x1 = 1 then .poll else .data)) ∨
    (s.stage = .data ∧ ∃ R0 R1 R2 R3 R4, r = .ok [R0, R1, R2, R3, R4] ∧
      t = (s.answer r (.returned ESP_OK)).convert R0 R1 R2 R3 R4) := by
  unfold step at h
  split at h
  case h_1 => exact absurd h (by simp)
  case h_2 e hs =>
      -- an error answers whichever transfer is under way
      refine Or.inl ?_
      have htr : ∃ tr, s.stage.transfer = some tr := by
        cases hstage : s.stage with
        | command => exact ⟨_, rfl⟩
        | poll => exact ⟨_, rfl⟩
        | data => exact ⟨_, rfl⟩
        | returned ret => exact absurd hstage (hs ret)
      obtain ⟨tr, htr⟩ := htr
      exact ⟨tr, e, htr, rfl, (Option.some.inj h).symm⟩
  case h_3 hs => exact Or.inr (Or.inl ⟨hs, rfl, (Option.some.inj h).symm⟩)
  case h_4 SCO hs => exact Or.inr (Or.inr (Or.inl ⟨hs, SCO, rfl, (Option.some.inj h).symm⟩))
  case h_5 R0 R1 R2 R3 R4 hs =>
      exact Or.inr (Or.inr (Or.inr ⟨hs, R0, R1, R2, R3, R4, rfl, (Option.some.inj h).symm⟩))
  case h_6 => exact absurd h (by simp)

/-! ## §4. When the data registers are read. -/

/-- What the most recent read of register 0x30 has come back with. -/
def status (s : Shot) : Option Reply := (s.answered.find? fun a => a.1.reads 0x30).map Prod.snd

/-- Register 0x06 to 0x0A are read only where the last value of register 0x30 has its bit 3, SCO,
at 0; and a failed transfer has ended the shot with its error and without outputs. -/
structure Orderly (s : Shot) : Prop where
  finished : ∀ tr reg, s.stage.transfer = some tr → 0x06 ≤ reg → reg ≤ 0x0A → tr.reads reg = true →
    ∃ SCO, s.status = some (.ok [SCO]) ∧ SCO &&& 0x08 = 0
  failed : ∀ a ∈ s.answered, ∀ e, a.2 = .fail e →
    s.stage = .returned e.code ∧ s.Cal_TData = none ∧ s.Cal_PData = none

/-- A value of register 0x30 with bit 2 at 0 has bit 3 at 0. -/
def BitsAgree (s : Shot) (r : Reply) : Prop :=
  s.stage = .poll → ∀ SCO, r = .ok [SCO] → (SCO >>> 2) &&& 0x1 ≠ 1 → SCO &&& 0x08 = 0

/-- Until it returns, a shot has met no error and written no output. -/
structure Clean (s : Shot) : Prop where
  failed : ∀ a ∈ s.answered, ∀ e, a.2 = .fail e →
    s.stage = .returned e.code ∧ s.Cal_TData = none ∧ s.Cal_PData = none
  outputs : s.stage.transfer ≠ none → s.Cal_TData = none ∧ s.Cal_PData = none

theorem clean_start : start.Clean := ⟨by simp [start], fun _ => ⟨rfl, rfl⟩⟩

/-- Before the shot returns no answer is an error. -/
theorem Clean.no_fail {s : Shot} (hs : s.Clean) {tr : Transfer} (htr : s.stage.transfer = some tr) :
    ∀ a ∈ s.answered, ∀ e, a.2 ≠ .fail e := by
  intro a ha e he
  have hret := (hs.failed a ha e he).1
  rw [hret] at htr
  exact absurd htr (by simp [Stage.transfer])

/-- An answer with bytes keeps the answers free of errors. -/
theorem Clean.answer_ok {s : Shot} (hs : s.Clean) {tr : Transfer} (htr : s.stage.transfer = some tr)
    (bytes : List UInt8) (next : Stage) :
    ∀ a ∈ (s.answer (.ok bytes) next).answered, ∀ e, a.2 ≠ .fail e := by
  rw [answered_answer htr]
  intro a ha e
  rcases List.mem_cons.mp ha with rfl | ha
  · simp
  · exact hs.no_fail htr a ha e

theorem Clean.step {s t : Shot} {r : Reply} (hs : s.Clean) (h : s.step r = some t) : t.Clean := by
  obtain ⟨tr, e, htr, rfl, rfl⟩ | ⟨hstage, rfl, rfl⟩ | ⟨hstage, SCO, rfl, rfl⟩ |
    ⟨hstage, R0, R1, R2, R3, R4, rfl, rfl⟩ := step_cases h
  · -- an error: the shot has returned it, and the outputs stay as they were
    obtain ⟨hT, hP⟩ := hs.outputs (by simp [htr])
    constructor
    · rw [answered_answer htr]
      intro a ha d hd
      rcases List.mem_cons.mp ha with rfl | ha
      · cases hd
        exact ⟨rfl, hT, hP⟩
      · exact absurd hd (hs.no_fail htr a ha d)
    · intro hopen
      exact absurd rfl hopen
  · -- bytes: no error is added, and while the shot is open no output is written
    have htr : s.stage.transfer = some (sensor_register_write_byte 0x30 0x0A) := by rw [hstage]; rfl
    exact ⟨fun a ha e he => absurd he (hs.answer_ok htr [] .poll a ha e),
      fun _ => hs.outputs (by simp [htr])⟩
  · have htr : s.stage.transfer = some (sensor_register_read 0x30 1) := by rw [hstage]; rfl
    exact ⟨fun a ha e he => absurd he (hs.answer_ok htr [SCO] _ a ha e),
      fun _ => hs.outputs (by simp [htr])⟩
  · have htr : s.stage.transfer = some (sensor_register_read 0x06 5) := by rw [hstage]; rfl
    exact ⟨fun a ha e he => absurd he (hs.answer_ok htr _ (.returned ESP_OK) a ha e),
      fun hopen => absurd rfl hopen⟩

/-- Of the three transfers, the last one reads the data registers. -/
theorem reads_data_iff (stage : Stage) :
    (∃ tr reg, stage.transfer = some tr ∧ 0x06 ≤ reg ∧ reg ≤ 0x0A ∧ tr.reads reg = true) ↔
      stage = .data := by
  constructor
  · rintro ⟨tr, reg, htr, hlo, hhi, hreads⟩
    have hbounds : 6 ≤ reg.toNat ∧ reg.toNat ≤ 10 :=
      ⟨UInt8.le_iff_toNat_le.mp hlo, UInt8.le_iff_toNat_le.mp hhi⟩
    -- two bytes written, the register 0x30, and the five registers from 0x06 on
    cases stage with
    | command =>
        cases htr
        simp [Transfer.reads, sensor_register_write_byte] at hreads
    | poll =>
        cases htr
        simp only [Transfer.reads, sensor_register_read, Bool.and_eq_true, decide_eq_true_eq] at hreads
        have h30 : (0x30 : UInt8).toNat = 48 := rfl
        omega
    | data => rfl
    | returned ret => cases htr
  · rintro rfl
    exact ⟨_, 0x06, rfl, by decide, by decide, by decide⟩

/-- Where the data registers are about to be read, the status is the last answer. -/
theorem orderly_iff {s : Shot} (hs : s.Clean) :
    s.Orderly ↔ (s.stage = .data → ∃ SCO, s.status = some (.ok [SCO]) ∧ SCO &&& 0x08 = 0) := by
  constructor
  · intro h hstage
    obtain ⟨tr, reg, htr, hlo, hhi, hreads⟩ := (reads_data_iff s.stage).mpr hstage
    exact h.finished tr reg htr hlo hhi hreads
  · intro h
    exact ⟨fun tr reg htr hlo hhi hreads => h ((reads_data_iff s.stage).mp
      ⟨tr, reg, htr, hlo, hhi, hreads⟩), hs.failed⟩

/-- A value of register 0x30 is the status from then on. -/
theorem status_poll {s : Shot} (h : s.stage = .poll) (r : Reply) (next : Stage) :
    (s.answer r next).status = some r := by
  have htr : s.stage.transfer = some (sensor_register_read 0x30 1) := by rw [h]; rfl
  unfold status
  rw [answered_answer htr, List.find?_cons_of_pos rfl]
  rfl

/-- One answer keeps the shot in order exactly when its bits agree. -/
theorem orderly_step_iff {s t : Shot} {r : Reply} (hs : s.Clean) (h : s.step r = some t) :
    t.Orderly ↔ s.BitsAgree r := by
  rw [orderly_iff (hs.step h)]
  obtain ⟨tr, e, htr, rfl, rfl⟩ | ⟨hstage, rfl, rfl⟩ | ⟨hstage, SCO, rfl, rfl⟩ |
    ⟨hstage, R0, R1, R2, R3, R4, rfl, rfl⟩ := step_cases h
  · constructor
    · intro _ _ SCO hr
      cases hr
    · intro _ hdata
      cases hdata
  · constructor
    · intro _ hpoll
      simp [hstage] at hpoll
    · intro _ hdata
      cases hdata
  · -- the answer is a value of register 0x30, and bit 2 decides what comes next
    rw [status_poll hstage]
    by_cases hbit : (SCO >>> 2) &&& 0x1 = 1
    · rw [if_pos hbit]
      constructor
      · intro _ _ SCO' hr hclear
        cases hr
        exact absurd hbit hclear
      · intro _ hdata
        cases hdata
    · rw [if_neg hbit]
      constructor
      · intro hdone _ SCO' hr _
        obtain ⟨SCO'', hsome, hzero⟩ := hdone rfl
        cases hr
        cases hsome
        exact hzero
      · intro hagree _
        exact ⟨SCO, rfl, hagree hstage SCO rfl hbit⟩
  · constructor
    · intro _ hpoll
      simp [hstage] at hpoll
    · intro _ hdata
      cases hdata

/-- **WHEN THE DATA REGISTERS ARE READ**: in a run of a shot they are read only behind a finished
conversion, exactly when no value of register 0x30 has its bit 2 at 0 and its bit 3 at 1. -/
theorem always_orderly_iff (rs : List Reply) :
    Labelled.Always step Orderly start rs ↔ Labelled.EachStep step BitsAgree start rs :=
  Labelled.always_iff_eachStep (I := Clean) (fun _ _ _ hs h => hs.step h)
    (fun _ _ _ hs _ h => orderly_step_iff hs h) clean_start
    ((orderly_iff clean_start).mpr fun h => by cases h) rs

/-- The start command is acknowledged, and register 0x30 still reads 0x08. -/
def earlyData : List Reply := [.ok [], .ok [0x08]]

theorem not_always_orderly : ¬ ∀ rs, Labelled.Always step Orderly start rs := by
  intro h
  obtain ⟨SCO, hstatus, hzero⟩ := ((h earlyData).final rfl).finished
    (sensor_register_read 0x06 5) 0x06 rfl (by decide) (by decide) (by decide)
  cases hstatus
  exact absurd hzero (by decide)

end Shot

end StoneHMI
