/-
  StoneHMI.Clock.Locking
  ──────────────────────
  **THE DRIVER'S CALLS ARE ATOMIC.**

  Every function of the driver is guarded: it takes the device's mutex before
  its first transfer, gives it back on every path — after its last transfer,
  and after the one that failed — and touches the bus no more.  So any number
  of tasks may call the driver in any order, with transfers that fail anywhere
  (`driver_serializable`).
-/
import StoneHMI.Clock.Driver

namespace StoneHMI.Clock

open Mutex Labelled

/-! ## §1. Guarded calls. -/

section Calls

variable {α β : Type}

/-- What a call says that never held the mutex: it waited in vain, or its arguments
are wrong. -/
def Refusal (r : Except EspError α) : Prop :=
  r = .error ESP_ERR_TIMEOUT ∨ r = .error ESP_ERR_INVALID_ARG

/-- A call of the driver takes the mutex first, or says that it could not. -/
structure Locks (x : Call α) : Prop where
  guarded : x.Guarded
  refusal : ∀ r, x.Refused r → Refusal r

theorem take_locks {k : Call α} (h : k.Inside) : Locks (I2C_DEV_TAKE_MUTEX k) where
  guarded := ⟨h, _, rfl⟩
  refusal := by
    rintro r (hret | ⟨k', htake, hr⟩)
    · simp [I2C_DEV_TAKE_MUTEX] at hret
    · rw [I2C_DEV_TAKE_MUTEX, Prog.take.injEq] at htake
      rw [← htake] at hr
      exact Or.inl (Prog.ret.inj hr).symm

theorem give_inside (r : Except EspError α) : (I2C_DEV_GIVE_MUTEX (.ret r)).Inside := ⟨r, rfl⟩

theorem check_inside {x : Call β} {k : β → Call α} (hx : x.Plain) (hk : ∀ b, (k b).Inside) :
    (I2C_DEV_CHECK x k).Inside := by
  refine hx.inside_bind fun res => ?_
  cases res with
  | ok b => exact hk b
  | error e => exact give_inside _

theorem andThen_plain {x : Call α} {k : α → Call β} (hx : x.Plain) (hk : ∀ a, (k a).Plain) :
    (andThen x k).Plain := by
  refine hx.bind fun res => ?_
  cases res with
  | ok a => exact hk a
  | error e => trivial

/-- Turning the result into another touches nothing, and keeps a refusal. -/
theorem Locks.andThen {x : Call α} (hx : Locks x) (f : α → β) :
    Locks (andThen x fun a => .ret (.ok (f a))) where
  guarded := hx.guarded.bind_ret fun res => by
    cases res with
    | ok a => exact ⟨_, rfl⟩
    | error e => exact ⟨_, rfl⟩
  refusal := by
    -- what `x` says when it is refused, and what becomes of it
    have hkeep : ∀ {res : Except EspError α} {r : Except EspError β}, Refusal res →
        Clock.andThen (.ret res) (fun a => .ret (.ok (f a))) = .ret r → Refusal r := by
      rintro res r (rfl | rfl) h
      · exact Or.inl (Prog.ret.inj h).symm
      · exact Or.inr (Prog.ret.inj h).symm
    intro r hr
    cases x with
    | ret res =>
        rcases hr with h | ⟨k, h, -⟩
        · exact hkeep (hx.refusal res (Or.inl rfl)) h
        · cases res <;> cases h
    | take k =>
        obtain ⟨-, res, hres⟩ := hx.guarded
        rcases hr with h | ⟨k', h, hfalse⟩
        · cases h
        · have hk : (k false).bind _ = k' false := congrFun (Prog.take.inj h) false
          rw [hfalse, hres] at hk
          exact hkeep (hx.refusal res (Or.inr ⟨k, rfl, hres⟩)) hk
    | give k => exact hx.guarded.elim
    | act g k => exact hx.guarded.elim

theorem read_reg_plain (reg n : ℕ) : (i2c_dev_read_reg reg n).Plain := fun _ => trivial

theorem write_reg_plain (reg : ℕ) (data : List UInt8) : (i2c_dev_write_reg reg data).Plain :=
  fun _ => trivial

theorem get_flag_plain (addr : ℕ) (mask : UInt8) : (ds3231_get_flag addr mask).Plain :=
  andThen_plain (read_reg_plain addr 1) fun _ => trivial

theorem set_flag_plain (addr : ℕ) (bits : UInt8) (mode : Mode) :
    (ds3231_set_flag addr bits mode).Plain :=
  andThen_plain (read_reg_plain addr 1) fun _ => write_reg_plain addr _

theorem setFlagCall_locks (addr : ℕ) (bits : UInt8) (mode : Mode) :
    Locks (setFlagCall addr bits mode) :=
  take_locks (check_inside (set_flag_plain addr bits mode) fun _ => give_inside _)

theorem getFlagCall_locks (addr : ℕ) (mask : UInt8) : Locks (getFlagCall addr mask) :=
  take_locks (check_inside (get_flag_plain addr mask) fun _ => give_inside _)

/-- A read of registers, and nothing else. -/
theorem readCall_locks (reg n : ℕ) (f : List UInt8 → α) :
    Locks (I2C_DEV_TAKE_MUTEX (I2C_DEV_CHECK (i2c_dev_read_reg reg n) fun data =>
      I2C_DEV_GIVE_MUTEX (.ret (.ok (f data))))) :=
  take_locks (check_inside (read_reg_plain reg n) fun _ => give_inside _)

/-- A write of registers, and nothing else. -/
theorem writeCall_locks (reg : ℕ) (data : List UInt8) :
    Locks (I2C_DEV_TAKE_MUTEX (I2C_DEV_CHECK (i2c_dev_write_reg reg data) fun _ =>
      I2C_DEV_GIVE_MUTEX (.ret (.ok ())))) :=
  take_locks (check_inside (write_reg_plain reg data) fun _ => give_inside _)

theorem set_squarewave_freq_locks (freq : SqwaveFreq) : Locks (ds3231_set_squarewave_freq freq) :=
  take_locks (check_inside (get_flag_plain _ _) fun _ =>
    check_inside (set_flag_plain _ _ _) fun _ => give_inside _)

theorem get_squarewave_freq_locks : Locks ds3231_get_squarewave_freq :=
  take_locks (check_inside (get_flag_plain _ _) fun _ => give_inside _)

theorem set_aging_offset_locks (age_u8 : UInt8) : Locks (ds3231_set_aging_offset age_u8) :=
  take_locks (check_inside (write_reg_plain _ _) fun _ =>
    check_inside (set_flag_plain _ _ _) fun _ => give_inside _)

theorem set_alarm_locks (alarms : Alarm) (time1 : Option StructTm) (option1 : Alarm1Rate)
    (time2 : Option StructTm) (option2 : Alarm2Rate) :
    Locks (ds3231_set_alarm alarms time1 option1 time2 option2) := by
  unfold ds3231_set_alarm
  split
  · exact writeCall_locks _ _
  · refine ⟨trivial, fun r hr => ?_⟩
    rcases hr with h | ⟨k, h, -⟩
    · exact Or.inr (Prog.ret.inj h).symm
    · cases h

/-- **Every call of the driver is guarded.** -/
theorem DriverCall.locks (c : DriverCall) : Locks c.prog := by
  cases c with
  | set_time time => exact (writeCall_locks _ _).andThen _
  | get_time => exact (readCall_locks _ _ _).andThen _
  | set_alarm alarms time1 option1 time2 option2 => exact (set_alarm_locks _ _ _ _ _).andThen _
  | get_oscillator_stop_flag => exact ((getFlagCall_locks _ _).andThen _).andThen _
  | get_alarm_flags => exact (getFlagCall_locks _ _).andThen _
  | clear_oscillator_stop_flag | clear_alarm_flags | enable_alarm_ints | disable_alarm_ints
  | enable_32khz | disable_32khz | enable_squarewave | disable_squarewave =>
      exact (setFlagCall_locks _ _ _).andThen _
  | set_squarewave_freq freq => exact (set_squarewave_freq_locks freq).andThen _
  | get_squarewave_freq => exact get_squarewave_freq_locks.andThen _
  | get_raw_temp => exact (readCall_locks _ _ _).andThen _
  | get_temp_integer => exact ((readCall_locks _ _ _).andThen _).andThen _
  | get_temp_float => exact ((readCall_locks _ _ _).andThen _).andThen _
  | set_aging_offset age => exact (set_aging_offset_locks age).andThen _
  | get_aging_offset => exact (readCall_locks _ _ _).andThen _

end Calls

/-! ## §2. Tasks that call the driver. -/

/-- A step of a task that uses the driver. -/
inductive DriverStep (ι : Type) where
  | call (i : ι) (c : DriverCall)
  | go (i : ι) (granted : Bool)

def DriverStep.label {ι : Type} : DriverStep ι → Label ι Bus (Except EspError Answer)
  | .call i c => .call i c.prog
  | .go i granted => .go i granted

theorem labels_guarded {ι : Type} (ls : List (DriverStep ι)) :
    ∀ l ∈ ls.map DriverStep.label, l.Guarded := by
  intro l hl
  obtain ⟨d, -, rfl⟩ := List.mem_map.mp hl
  cases d with
  | call i c => exact c.locks.guarded
  | go i granted => trivial

/-- Programs that are all calls of the driver. -/
theorem exists_calls {C : DriverCall → Prop} :
    ∀ ps : List (Call Answer), (∀ p ∈ ps, ∃ c, C c ∧ c.prog = p) →
      ∃ cs : List DriverCall, (∀ c ∈ cs, C c) ∧ ps = cs.map DriverCall.prog := by
  intro ps
  induction ps with
  | nil => exact fun _ => ⟨[], fun _ h => (by cases h), rfl⟩
  | cons p ps ih =>
      intro h
      obtain ⟨c, hC, hc⟩ := h p List.mem_cons_self
      obtain ⟨cs, hCs, hcs⟩ := ih fun q hq => h q (List.mem_cons_of_mem p hq)
      refine ⟨c :: cs, fun d hd => ?_, by rw [List.map_cons, hc, ← hcs]⟩
      rcases List.mem_cons.mp hd with rfl | hd
      · exact hC
      · exact hCs d hd

/-- A returned call: refused, or with what it returns in its turn after the calls
that took the mutex before it. -/
def InTurn (b₀ : Bus) (cs : List DriverCall) (e : Returned Bus (Except EspError Answer)) : Prop :=
  match e.turn with
  | none => Refusal e.result
  | some n => ∃ c, cs[n]? = some c ∧ e.prog = c.prog ∧
      e.result = (c.prog.alone (serial b₀ ((cs.take n).map DriverCall.prog))).2

section Abstract

variable {α : Type} (T : DriverCall → α → α → Except EspError Answer → Prop)
  (cs : List DriverCall) (states : ℕ → α)

/-- A returned call: refused, or run from the abstract state of its turn. -/
def Ran (e : Returned Bus (Except EspError Answer)) : Prop :=
  match e.turn with
  | none => Refusal e.result
  | some n => ∃ c, cs[n]? = some c ∧ e.prog = c.prog ∧ T c (states n) (states (n + 1)) e.result

/-- The calls have run through abstract states, in the order in which they took the
mutex. -/
structure Linear {ι : Type} (w : World ι Bus (Except EspError Answer)) : Prop where
  order : w.order = cs.map DriverCall.prog
  steps : ∀ (n : ℕ) (c : DriverCall), cs[n]? = some c → ∃ r, T c (states n) (states (n + 1)) r
  returned : ∀ e ∈ w.returned, Ran T cs states e

end Abstract

section Runs

variable {ι : Type} [DecidableEq ι] {b₀ : Bus} {ls : List (DriverStep ι)}
  {w : World ι Bus (Except EspError Answer)}

/-- The programs that take the mutex, and those that return, are calls of the driver. -/
theorem only_calls {C : DriverCall → Prop} (hC : ∀ i c, DriverStep.call i c ∈ ls → C c)
    (h : exec World.step (World.start b₀) (ls.map DriverStep.label) = some w) :
    (∀ p ∈ w.order, ∃ c, C c ∧ c.prog = p) ∧ ∀ e ∈ w.returned, ∃ c, C c ∧ c.prog = e.prog := by
  refine programs_of_calls (C := fun p => ∃ c, C c ∧ c.prog = p) (fun i p hp => ?_) h
  obtain ⟨d, hmem, hd⟩ := List.mem_map.mp hp
  cases d with
  | call i' c =>
      cases hd
      exact ⟨c, hC i c hmem, rfl⟩
  | go i' granted => cases hd

theorem in_turn (h : exec World.step (World.start b₀) (ls.map DriverStep.label) = some w)
    {cs : List DriverCall} (hcs : w.order = cs.map DriverCall.prog) :
    (w.holder = none → w.shared = serial b₀ (cs.map DriverCall.prog)) ∧
      ∀ e ∈ w.returned, InTurn b₀ cs e := by
  obtain ⟨hfree, hreturned⟩ := serializable (labels_guarded ls) h
  refine ⟨hcs ▸ hfree, fun e he => ?_⟩
  have hacc := hreturned e he
  unfold Accounted at hacc
  unfold InTurn
  cases hturn : e.turn with
  | none =>
      rw [hturn] at hacc
      obtain ⟨c, -, hc⟩ := (only_calls (C := fun _ => True) (fun _ _ _ => trivial) h).2 e he
      exact c.locks.refusal e.result (hc ▸ hacc)
  | some n =>
      rw [hturn, hcs] at hacc
      obtain ⟨hprog, hout⟩ := hacc
      unfold outcome at hout
      rw [hprog, Option.map_some, Option.some.injEq, ← List.map_take] at hout
      rw [List.getElem?_map, Option.map_eq_some_iff] at hprog
      obtain ⟨c, hc, hcp⟩ := hprog
      exact ⟨c, hc, hcp.symm, by rw [hcp, hout]⟩

/-- What each call does to an abstract state, calls do in every interleaving. -/
theorem linearize {α : Type} {C : DriverCall → Prop} {I : Bus → α → Prop}
    {T : DriverCall → α → α → Except EspError Answer → Prop}
    (hT : ∀ c, C c → ∀ b a, I b a → ∃ a', I (c.prog.alone b).1 a' ∧ T c a a' (c.prog.alone b).2)
    (hC : ∀ i c, DriverStep.call i c ∈ ls → C c)
    (h : exec World.step (World.start b₀) (ls.map DriverStep.label) = some w)
    {a₀ : α} (ha : I b₀ a₀) :
    ∃ (cs : List DriverCall) (states : ℕ → α), states 0 = a₀ ∧ Linear T cs states w ∧
      (w.holder = none → I w.shared (states cs.length)) := by
  obtain ⟨cs, hCs, hcs⟩ := exists_calls w.order (only_calls hC h).1
  obtain ⟨hfree, hreturned⟩ := in_turn h hcs
  obtain ⟨states, hzero, hlast, hsteps⟩ := serial_states cs (fun c hc => hT c (hCs c hc)) b₀ a₀ ha
  refine ⟨cs, states, hzero, ⟨hcs, fun n c hc => ⟨_, hsteps n c hc⟩, fun e he => ?_⟩,
    fun hnone => hfree hnone ▸ hlast⟩
  have hturn := hreturned e he
  unfold InTurn at hturn
  unfold Ran
  cases hn : e.turn with
  | none =>
      rw [hn] at hturn
      exact hturn
  | some n =>
      rw [hn] at hturn
      obtain ⟨c, hc, hprog, hresult⟩ := hturn
      exact ⟨c, hc, hprog, hresult ▸ hsteps n c hc⟩

/-- **THE DRIVER'S CALLS ARE ATOMIC.**  However many tasks call the driver, however
their steps interleave, and wherever transfers fail: the calls have happened one
after the other, in the order in which they took the mutex.  Whenever it is free,
the chip is as they leave it so, and each call that has returned was refused, or
returned what it returns in its turn. -/
theorem driver_serializable (b₀ : Bus) (ls : List (DriverStep ι))
    (w : World ι Bus (Except EspError Answer))
    (h : exec World.step (World.start b₀) (ls.map DriverStep.label) = some w) :
    ∃ cs : List DriverCall, w.order = cs.map DriverCall.prog ∧
      (w.holder = none → w.shared = serial b₀ (cs.map DriverCall.prog)) ∧
      ∀ e ∈ w.returned, InTurn b₀ cs e := by
  obtain ⟨cs, -, hcs⟩ := exists_calls (C := fun _ => True) w.order
    (only_calls (fun _ _ _ => trivial) h).1
  exact ⟨cs, hcs, in_turn h hcs⟩

/-- Two tasks; the first transfer fails, and the second task waits in vain. -/
def busyRun : List (DriverStep Bool) :=
  [.call false .clear_oscillator_stop_flag, .call true .get_aging_offset, .go false true,
    .go true false, .go false true, .go false true, .go false true, .go true true]

def failingBus : Bus := { regs := fun _ => 0, coming := [⟨id, .failed ESP_FAIL 0⟩] }

theorem driver_serializable_busy :
    ∃ w, exec World.step (World.start failingBus) (busyRun.map DriverStep.label) = some w ∧
      w.returned.length = 2 ∧
      ∃ cs : List DriverCall, w.order = cs.map DriverCall.prog ∧
        (w.holder = none → w.shared = serial failingBus (cs.map DriverCall.prog)) ∧
        ∀ e ∈ w.returned, InTurn failingBus cs e :=
  ⟨_, rfl, rfl, driver_serializable failingBus busyRun _ rfl⟩

/-- **NO CALL KEEPS THE MUTEX.**  Whatever transfers fail, whoever holds the mutex
gives it back by its own steps. -/
theorem driver_gives_back (b₀ : Bus) (ls : List (DriverStep ι))
    (w : World ι Bus (Except EspError Answer)) (i : ι)
    (h : exec World.step (World.start b₀) (ls.map DriverStep.label) = some w)
    (hhold : w.holder = some i) :
    ∃ n v, exec World.step w (List.replicate n (.go i true)) = some v ∧ v.holder = none :=
  gives_back (labels_guarded ls) h hhold

theorem driver_gives_back_busy :
    ∃ w, exec World.step (World.start failingBus) ((busyRun.take 4).map DriverStep.label) = some w ∧
      ∃ n v, exec World.step w (List.replicate n (.go false true)) = some v ∧ v.holder = none :=
  ⟨_, rfl, driver_gives_back failingBus (busyRun.take 4) _ false rfl rfl⟩

end Runs

end StoneHMI.Clock
