/-
  StoneHMI.Clock.Port
  ───────────────────
  **WHO SETS THE I2C PORTS UP — i2cdev.c.**

  Devices with different pins and speeds share a port.  Before each transfer
  the library installs the platform's driver anew, unless the port is already
  set up for the device.  What it believes of the driver, and what the driver
  is, are two records here: they can differ.

  The platform's driver is not part of the repository.  Its answers are part
  of a step; of its behaviour the model has that it is not installed twice.

    • `transfers_configured` — a transfer goes out on a driver that is set up
      for its device,
    • `never_stuck_iff`      — when a port stays usable,
    • `stuck_forever`        — and that it never gets usable again.
-/
import StoneHMI.Clock.Driver
import StoneHMI.Lib.Run

namespace StoneHMI.Clock

open Labelled Registers

/-! ## §1. Devices and ports. -/

/-- `i2c_mode_t` -/
inductive I2cMode where
  | I2C_MODE_SLAVE | I2C_MODE_MASTER
  deriving DecidableEq

/-- `i2c_config_t` -/
structure I2cConfig where
  mode : I2cMode
  sda_io_num : ℤ
  scl_io_num : ℤ
  sda_pullup_en : Bool
  scl_pullup_en : Bool
  clk_speed : ℕ
  clk_flags : ℕ
  deriving DecidableEq

/-- All bytes are zero. -/
def I2cConfig.zero : I2cConfig :=
  ⟨.I2C_MODE_SLAVE, 0, 0, false, false, 0, 0⟩

/-- `i2c_dev_t`, less its mutex. -/
structure I2cDev where
  port : ℕ
  cfg : I2cConfig
  addr : UInt8
  timeout_ticks : ℕ
  deriving DecidableEq

/-- The mode and the flags are not compared. -/
def cfg_equal (a b : I2cConfig) : Bool :=
  a.scl_io_num = b.scl_io_num && a.sda_io_num = b.sda_io_num && a.clk_speed = b.clk_speed
    && a.scl_pullup_en = b.scl_pullup_en && a.sda_pullup_en = b.sda_pullup_en

/-- `i2c_port_state_t`; whether there is a lock. -/
structure PortState where
  lock : Bool
  config : I2cConfig
  installed : Bool

/-- The platform's driver of a port; no configuration, where none has been accepted since
it was installed. -/
structure PlatformPort where
  installed : Bool
  config : Option I2cConfig
  timeout : ℕ

structure Port where
  state : PortState
  platform : PlatformPort

def I2C_NUM_MAX : ℕ := 2

/-! ## §2. One transfer. -/

/-- What the platform answers during a transfer, `none` for `ESP_OK`. -/
structure Answers where
  locked : Bool
  install : Option EspError
  param_config : Option EspError
  /-- The timeout of a driver that has just been configured. -/
  fresh : ℕ
  get_timeout : Option EspError
  set_timeout : Option EspError
  cmd_begin : Option EspError
  unlocked : Bool

def i2c_driver_delete (d : PlatformPort) : PlatformPort :=
  { d with installed := false, config := none }

/-- It is not installed twice. -/
def i2c_driver_install (d : PlatformPort) (a : Answers) : PlatformPort × Option EspError :=
  if d.installed then (d, some ESP_FAIL)
  else
    match a.install with
    | some e => (d, some e)
    | none => ({ d with installed := true, config := none }, none)

def i2c_param_config (d : PlatformPort) (temp : I2cConfig) (a : Answers) :
    PlatformPort × Option EspError :=
  match a.param_config with
  | some e => ({ d with config := none }, some e)
  | none => ({ d with config := some temp, timeout := a.fresh }, none)

/-- What is written to `temp.mode`. -/
def masterConfig (cfg : I2cConfig) : I2cConfig := { cfg with mode := .I2C_MODE_MASTER }

/-- The driver is deleted, where it is believed to be installed. -/
def uninstall (p : Port) : Port :=
  if p.state.installed then
    { state := { p.state with installed := false }, platform := i2c_driver_delete p.platform }
  else p

/-- "Driver reinstallation", of IDF from version 5.1 on. -/
def reinstall (dev : I2cDev) (a : Answers) (p : Port) : Port × Option EspError :=
  match i2c_driver_install (uninstall p).platform a with
  | (d, some e) => ({ uninstall p with platform := d }, some e)
  | (d, none) =>
      match i2c_param_config d (masterConfig dev.cfg) a with
      | (d, some e) => ({ uninstall p with platform := d }, some e)
      | (d, none) =>
          ({ state :=
               { (uninstall p).state with installed := true, config := masterConfig dev.cfg }
             platform := d }, none)

/-- A timeout of zero is the longest one. -/
def ticksOf (I2CDEV_MAX_STRETCH_TIME : ℕ) (dev : I2cDev) : ℕ :=
  if dev.timeout_ticks ≠ 0 then dev.timeout_ticks else I2CDEV_MAX_STRETCH_TIME

/-- The timeout of the driver becomes that of the device. -/
def setTimeout (stretch : ℕ) (dev : I2cDev) (a : Answers) (p : Port) : Port × Option EspError :=
  match a.get_timeout with
  | some e => (p, some e)
  | none =>
      if ticksOf stretch dev ≠ p.platform.timeout then
        match a.set_timeout with
        | some e => (p, some e)
        | none => ({ p with platform := { p.platform with timeout := ticksOf stretch dev } }, none)
      else (p, none)

/-- The port of the device is not checked here: it has been read before. -/
def i2c_setup_port (stretch : ℕ) (dev : I2cDev) (a : Answers) (p : Port) : Port × Option EspError :=
  if !cfg_equal dev.cfg p.state.config || !p.state.installed then
    match reinstall dev a p with
    | (p, some e) => (p, some e)
    | (p, none) => setTimeout stretch dev a p
  else setTimeout stretch dev a p

/-- The result of a transfer that got the lock. -/
def ended (a : Answers) (res : Option EspError) : Option EspError :=
  if a.unlocked then res else some ESP_FAIL

/-- `i2c_dev_read`, `i2c_dev_write` and `i2c_dev_probe`, which differ in the command they send:
the port afterwards, whether the command went out, and the result. -/
def transfer (stretch : ℕ) (dev : I2cDev) (a : Answers) (p : Port) :
    Port × Bool × Option EspError :=
  if a.locked then
    match i2c_setup_port stretch dev a p with
    | (p, some e) => (p, false, ended a (some e))
    | (p, none) => (p, true, ended a a.cmd_begin)
  else (p, false, some ESP_ERR_TIMEOUT)

/-! ## §3. The library. -/

/-- The ports; and for the record, the drivers that commands went out on, and the results. -/
structure Ports where
  port : ℕ → Port
  sent : List (I2cDev × PlatformPort)
  results : List (I2cDev × Option EspError)

/-- After a reset. -/
def Ports.reset : Ports where
  port := fun _ => ⟨⟨false, .zero, false⟩, ⟨false, none, 0⟩⟩
  sent := []
  results := []

inductive PortLabel where
  | transfer (dev : I2cDev) (a : Answers)
  /-- `i2cdev_init`, up to the first lock that cannot be created. -/
  | init (created : ℕ)
  /-- `i2cdev_done`, up to the first lock that cannot be taken. -/
  | done (handled : ℕ)

/-- `memset` and the new locks; the platform's driver stays. -/
def Port.init (created i : ℕ) (p : Port) : Port :=
  { p with state := ⟨i < created, .zero, false⟩ }

/-- The driver is deleted where it is believed to be installed. -/
def Port.done (p : Port) : Port :=
  if p.state.lock then
    { state := { p.state with lock := false, installed := false }
      platform := if p.state.installed then i2c_driver_delete p.platform else p.platform }
  else p

variable (stretch : ℕ)

/-- `none` for a lock that is not there. -/
def Ports.step (w : Ports) : PortLabel → Option Ports
  | .transfer dev a =>
      if dev.port < I2C_NUM_MAX ∧ (w.port dev.port).state.lock then
        let t := transfer stretch dev a (w.port dev.port)
        some {
          port := Function.update w.port dev.port t.1
          sent := if t.2.1 then w.sent ++ [(dev, t.1.platform)] else w.sent
          results := w.results ++ [(dev, t.2.2)] }
      else none
  | .init created =>
      if created ≤ I2C_NUM_MAX then
        some { w with
          port := fun i => if i < I2C_NUM_MAX then (w.port i).init created i else w.port i }
      else none
  | .done handled =>
      if handled ≤ I2C_NUM_MAX then
        some { w with port := fun i => if i < handled then (w.port i).done else w.port i }
      else none

/-- What a step can do. -/
theorem Ports.step_cases {w v : Ports} {l : PortLabel} (h : w.step stretch l = some v) :
    (∃ dev a, l = .transfer dev a ∧
      v.port = Function.update w.port dev.port (transfer stretch dev a (w.port dev.port)).1 ∧
      v.sent = (if (transfer stretch dev a (w.port dev.port)).2.1 then
        w.sent ++ [(dev, (transfer stretch dev a (w.port dev.port)).1.platform)] else w.sent) ∧
      v.results = w.results ++ [(dev, (transfer stretch dev a (w.port dev.port)).2.2)]) ∨
    (v.sent = w.sent ∧ v.results = w.results ∧
      ((∃ created, l = .init created ∧
          v.port = fun i => if i < I2C_NUM_MAX then (w.port i).init created i else w.port i) ∨
        ∃ handled, l = .done handled ∧
          v.port = fun i => if i < handled then (w.port i).done else w.port i)) := by
  cases l with
  | transfer dev a =>
      simp only [step] at h
      split at h
      · rw [← Option.some.inj h]
        exact Or.inl ⟨dev, a, rfl, rfl, rfl, rfl⟩
      · cases h
  | init created =>
      simp only [step] at h
      split at h
      · rw [← Option.some.inj h]
        exact Or.inr ⟨rfl, rfl, Or.inl ⟨created, rfl, rfl⟩⟩
      · cases h
  | done handled =>
      simp only [step] at h
      split at h
      · rw [← Option.some.inj h]
        exact Or.inr ⟨rfl, rfl, Or.inr ⟨handled, rfl, rfl⟩⟩
      · cases h

/-! ## §4. What is believed of a driver. -/

/-- The driver is believed to be installed, and is, as it is believed to be. -/
structure Port.Ready (p : Port) : Prop where
  installed : p.platform.installed = true
  config : p.platform.config = some p.state.config
  mode : p.state.config.mode = .I2C_MODE_MASTER

/-- A driver that is believed to be installed is ready. -/
def Port.Sound (p : Port) : Prop := p.state.installed = true → p.Ready

/-- It is installed, and believed not to be. -/
def Port.Stuck (p : Port) : Prop := p.state.installed = false ∧ p.platform.installed = true

/-- The port is not set up for the device. -/
def Port.Needs (dev : I2cDev) (p : Port) : Prop :=
  cfg_equal dev.cfg p.state.config = false ∨ p.state.installed = false

/-- The driver is installed, but then not configured. -/
def Answers.Halfway (a : Answers) : Prop := a.install = none ∧ a.param_config ≠ none

theorem cfg_equal_master (cfg : I2cConfig) : cfg_equal cfg (masterConfig cfg) = true := by
  simp [cfg_equal, masterConfig]

theorem uninstall_state (p : Port) : (uninstall p).state.installed = false := by
  unfold uninstall
  by_cases h : p.state.installed = true
  · rw [if_pos h]
  · rw [if_neg h]
    exact Bool.eq_false_of_not_eq_true h

theorem install_free {d : PlatformPort} (h : d.installed = false) (a : Answers) :
    i2c_driver_install d a =
      match a.install with
      | some e => (d, some e)
      | none => ({ d with installed := true, config := none }, none) := by
  unfold i2c_driver_install
  rw [if_neg (by rw [h]; exact Bool.false_ne_true)]

/-- A driver that is not installed is installed and configured, or one of these fails. -/
theorem reinstall_free (dev : I2cDev) (a : Answers) {p : Port} (h : ¬ p.Stuck) :
    (∃ q, reinstall dev a p = (q, none) ∧ q.state.installed = true ∧ q.Ready ∧
      q.state.config = masterConfig dev.cfg ∧ a.install = none ∧ a.param_config = none) ∨
    ∃ q e, reinstall dev a p = (q, some e) ∧ q.state.installed = false ∧
      (q.platform.installed = true ↔ a.install = none) ∧
      (a.install = none → a.param_config ≠ none) := by
  have hplatform : (uninstall p).platform.installed = false := by
    unfold uninstall
    by_cases hinst : p.state.installed = true
    · rw [if_pos hinst]
      rfl
    · rw [if_neg hinst]
      have hbelief := Bool.eq_false_of_not_eq_true hinst
      exact Bool.eq_false_of_not_eq_true fun hplat => h ⟨hbelief, hplat⟩
  unfold reinstall
  rw [install_free hplatform]
  cases a.install with
  | some e => exact Or.inr ⟨_, e, rfl, uninstall_state p, by simp [hplatform], by simp⟩
  | none =>
      dsimp only
      unfold i2c_param_config
      cases a.param_config with
      | some e => exact Or.inr ⟨_, e, rfl, uninstall_state p, by simp, by simp⟩
      | none => exact Or.inl ⟨_, rfl, rfl, ⟨rfl, rfl, rfl⟩, rfl, rfl, rfl⟩

/-- A driver that is stuck is not installed again. -/
theorem reinstall_stuck {p : Port} (h : p.Stuck) (dev : I2cDev) (a : Answers) :
    reinstall dev a p = (p, some ESP_FAIL) := by
  have hsame : uninstall p = p := by
    unfold uninstall
    rw [if_neg (by rw [h.1]; exact Bool.false_ne_true)]
  have hinstall : i2c_driver_install p.platform a = (p.platform, some ESP_FAIL) := by
    unfold i2c_driver_install
    rw [if_pos h.2]
  unfold reinstall
  rw [hsame, hinstall]

theorem setTimeout_cases (dev : I2cDev) (a : Answers) (p : Port) :
    (setTimeout stretch dev a p).1.state = p.state ∧
      (setTimeout stretch dev a p).1.platform.installed = p.platform.installed ∧
      (setTimeout stretch dev a p).1.platform.config = p.platform.config ∧
      ((setTimeout stretch dev a p).2 = none →
        (setTimeout stretch dev a p).1.platform.timeout = ticksOf stretch dev) := by
  unfold setTimeout
  cases a.get_timeout with
  | some e => exact ⟨rfl, rfl, rfl, fun h => by cases h⟩
  | none =>
      by_cases hticks : ticksOf stretch dev ≠ p.platform.timeout
      · rw [if_pos hticks]
        cases a.set_timeout with
        | some e => exact ⟨rfl, rfl, rfl, fun h => by cases h⟩
        | none => exact ⟨rfl, rfl, rfl, fun _ => rfl⟩
      · rw [if_neg hticks]
        exact ⟨rfl, rfl, rfl, fun _ => (not_not.mp hticks).symm⟩

theorem Port.Ready.setTimeout {p : Port} (h : p.Ready) (dev : I2cDev) (a : Answers) :
    (Clock.setTimeout stretch dev a p).1.Ready := by
  obtain ⟨hstate, hinst, hconfig, -⟩ := setTimeout_cases stretch dev a p
  exact ⟨hinst.trans h.installed, by rw [hconfig, hstate]; exact h.config, by
    rw [hstate]; exact h.mode⟩

/-- The platform's driver is set up for the device. -/
structure SetUp (dev : I2cDev) (d : PlatformPort) : Prop where
  installed : d.installed = true
  config : ∃ cfg, d.config = some cfg ∧ cfg_equal dev.cfg cfg = true ∧
    cfg.mode = .I2C_MODE_MASTER
  timeout : d.timeout = ticksOf stretch dev

/-- A port that is ready for a device, with its timeout, is set up for it. -/
theorem setUp_setTimeout {dev : I2cDev} {a : Answers} {p : Port} (h : p.Ready)
    (hcfg : cfg_equal dev.cfg p.state.config = true) (hok : (setTimeout stretch dev a p).2 = none) :
    SetUp stretch dev (setTimeout stretch dev a p).1.platform := by
  obtain ⟨-, hinst, hconfig, htimeout⟩ := setTimeout_cases stretch dev a p
  exact ⟨hinst.trans h.installed, ⟨_, hconfig.trans h.config, hcfg, h.mode⟩, htimeout hok⟩

/-- **Setting a port up.**  A port that is not stuck is sound afterwards; it is stuck then exactly
if its driver has been installed but not configured; and where all is well, it is set up. -/
theorem setup_free (dev : I2cDev) (a : Answers) {p : Port} (hp : p.Sound) (hfree : ¬ p.Stuck) :
    (i2c_setup_port stretch dev a p).1.Sound ∧
      ((i2c_setup_port stretch dev a p).1.Stuck ↔ p.Needs dev ∧ a.Halfway) ∧
      ((i2c_setup_port stretch dev a p).2 = none →
        SetUp stretch dev (i2c_setup_port stretch dev a p).1.platform) := by
  -- what follows where the driver is ready for the device
  have hready : ∀ q : Port, q.Ready → q.state.installed = true →
      cfg_equal dev.cfg q.state.config = true →
      (setTimeout stretch dev a q).1.Sound ∧ ¬ (setTimeout stretch dev a q).1.Stuck ∧
        ((setTimeout stretch dev a q).2 = none →
          SetUp stretch dev (setTimeout stretch dev a q).1.platform) := by
    intro q hq hinst hcfg
    refine ⟨fun _ => hq.setTimeout stretch dev a, fun hstuck => ?_, setUp_setTimeout stretch hq hcfg⟩
    have hbelief := hstuck.1
    rw [(setTimeout_cases stretch dev a q).1, hinst] at hbelief
    cases hbelief
  unfold i2c_setup_port
  by_cases hneeds : p.Needs dev
  · rw [if_pos (by simpa [Port.Needs] using hneeds)]
    obtain ⟨q, hq, hinst, hrdy, hconfig, -, hparam⟩ | ⟨q, e, hq, hbelief, hinst, hparam⟩ :=
      reinstall_free dev a hfree
    · rw [hq]
      have hcfg : cfg_equal dev.cfg q.state.config = true := by
        rw [hconfig]
        exact cfg_equal_master dev.cfg
      obtain ⟨hsound, hfree', hset⟩ := hready q hrdy hinst hcfg
      exact ⟨hsound, iff_of_false hfree' fun h => h.2.2 hparam, hset⟩
    · rw [hq]
      refine ⟨fun hb => ?_, ?_, fun h => by cases h⟩
      · rw [hbelief] at hb
        cases hb
      · exact ⟨fun h => ⟨hneeds, hinst.mp h.2, hparam (hinst.mp h.2)⟩,
          fun h => ⟨hbelief, hinst.mpr h.2.1⟩⟩
  · have hset : cfg_equal dev.cfg p.state.config = true ∧ p.state.installed = true := by
      simpa [Port.Needs] using hneeds
    rw [if_neg (by simp [hset.1, hset.2])]
    obtain ⟨hsound, hfree', hup⟩ := hready p (hp hset.2) hset.2 hset.1
    exact ⟨hsound, iff_of_false hfree' fun h => hneeds h.1, hup⟩

/-- A port that is stuck is left as it is, with an error. -/
theorem setup_stuck {p : Port} (h : p.Stuck) (dev : I2cDev) (a : Answers) :
    i2c_setup_port stretch dev a p = (p, some ESP_FAIL) := by
  unfold i2c_setup_port
  rw [if_pos (by simp [h.1]), reinstall_stuck h]

theorem transfer_free (dev : I2cDev) (a : Answers) {p : Port} (hp : p.Sound) (hfree : ¬ p.Stuck) :
    (transfer stretch dev a p).1.Sound ∧
      ((transfer stretch dev a p).1.Stuck ↔ a.locked = true ∧ p.Needs dev ∧ a.Halfway) ∧
      ((transfer stretch dev a p).2.1 = true →
        SetUp stretch dev (transfer stretch dev a p).1.platform) := by
  obtain ⟨hsound, hstuck, hset⟩ := setup_free stretch dev a hp hfree
  unfold transfer
  by_cases hlocked : a.locked = true
  · rw [if_pos hlocked]
    cases hres : i2c_setup_port stretch dev a p with
    | mk q res =>
        rw [hres] at hsound hstuck hset
        cases res with
        | some e => exact ⟨hsound, by simp [hstuck, hlocked], fun h => by cases h⟩
        | none => exact ⟨hsound, by simp [hstuck, hlocked], fun _ => hset rfl⟩
  · rw [if_neg hlocked]
    exact ⟨hp, iff_of_false hfree fun h => hlocked h.1, fun h => by cases h⟩

theorem transfer_stuck {p : Port} (h : p.Stuck) (dev : I2cDev) (a : Answers) :
    ∃ e, transfer stretch dev a p = (p, false, some e) := by
  unfold transfer
  by_cases hlocked : a.locked = true
  · rw [if_pos hlocked, setup_stuck stretch h]
    unfold ended
    by_cases hunlocked : a.unlocked = true
    · exact ⟨ESP_FAIL, by simp [hunlocked]⟩
    · exact ⟨ESP_FAIL, by simp [hunlocked]⟩
  · rw [if_neg hlocked]
    exact ⟨_, rfl⟩

/-! ## §5. Runs. -/

/-- Every port is sound, and every command went out on a driver that is set up. -/
structure Ports.Orderly (w : Ports) : Prop where
  sound : ∀ i, (w.port i).Sound
  sent : ∀ t ∈ w.sent, SetUp stretch t.1 t.2

/-- The step leaves the driver of the port installed, and believed not to be. -/
def Breaks (i : ℕ) (w : Ports) : PortLabel → Prop
  | .transfer dev a => dev.port = i ∧ a.locked = true ∧ (w.port i).Needs dev ∧ a.Halfway
  | .init _ => i < I2C_NUM_MAX ∧ (w.port i).state.installed = true
  | .done _ => False

theorem orderly_reset : Ports.reset.Orderly stretch where
  sound := fun _ h => by cases h
  sent := fun _ h => by cases h

theorem reset_free (i : ℕ) : ¬ (Ports.reset.port i).Stuck := fun h => by cases h.2

theorem orderly_step {w v : Ports} {l : PortLabel} (hw : w.Orderly stretch)
    (h : w.step stretch l = some v) : v.Orderly stretch := by
  obtain ⟨dev, a, rfl, hport, hsent, -⟩ |
    ⟨hsent, -, ⟨created, rfl, hport⟩ | ⟨handled, rfl, hport⟩⟩ := Ports.step_cases stretch h
  · have htransfer : (transfer stretch dev a (w.port dev.port)).1.Sound ∧
        ((transfer stretch dev a (w.port dev.port)).2.1 = true →
          SetUp stretch dev (transfer stretch dev a (w.port dev.port)).1.platform) := by
      by_cases hstuck : (w.port dev.port).Stuck
      · obtain ⟨e, he⟩ := transfer_stuck stretch hstuck dev a
        rw [he]
        exact ⟨hw.sound dev.port, fun hout => by cases hout⟩
      · obtain ⟨hsound, -, hset⟩ := transfer_free stretch dev a
          (hw.sound dev.port) hstuck
        exact ⟨hsound, hset⟩
    refine ⟨fun i => ?_, fun t ht => ?_⟩
    · rw [hport]
      by_cases hi : i = dev.port
      · rw [hi, Function.update_self]
        exact htransfer.1
      · rw [Function.update_of_ne hi]
        exact hw.sound i
    · rw [hsent] at ht
      split at ht
      · rename_i hout
        rcases List.mem_append.mp ht with hold | hnew
        · exact hw.sent t hold
        · rw [List.mem_singleton.mp hnew]
          exact htransfer.2 hout
      · exact hw.sent t ht
  · refine ⟨fun i => ?_, hsent ▸ hw.sent⟩
    rw [hport]
    dsimp only
    split
    · exact fun hb => by cases hb
    · exact hw.sound i
  · refine ⟨fun i => ?_, hsent ▸ hw.sent⟩
    rw [hport]
    dsimp only
    split
    · unfold Port.done
      split
      · exact fun hb => by cases hb
      · exact hw.sound i
    · exact hw.sound i

/-- **Step.**  Exactly these steps make a port stuck. -/
theorem stuck_step {i : ℕ} {w v : Ports} {l : PortLabel} (hw : w.Orderly stretch)
    (hfree : ¬ (w.port i).Stuck) (h : w.step stretch l = some v) :
    (v.port i).Stuck ↔ Breaks i w l := by
  obtain ⟨dev, a, rfl, hport, -⟩ | ⟨-, -, ⟨created, rfl, hport⟩ | ⟨handled, rfl, hport⟩⟩ :=
    Ports.step_cases stretch h
  · rw [hport]
    unfold Breaks
    by_cases hi : i = dev.port
    · subst hi
      rw [Function.update_self, (transfer_free stretch dev a (hw.sound dev.port) hfree).2.1]
      simp
    · rw [Function.update_of_ne hi]
      exact iff_of_false hfree fun h => hi h.1.symm
  · rw [hport]
    unfold Breaks
    dsimp only
    by_cases hi : i < I2C_NUM_MAX
    · rw [if_pos hi]
      constructor
      · intro hstuck
        refine ⟨hi, ?_⟩
        by_contra hbelief
        exact hfree ⟨Bool.eq_false_of_not_eq_true hbelief, hstuck.2⟩
      · exact fun hb => ⟨rfl, (hw.sound i hb.2).installed⟩
    · rw [if_neg hi]
      exact iff_of_false hfree fun hb => hi hb.1
  · rw [hport]
    unfold Breaks
    dsimp only
    refine iff_of_false (fun hstuck => ?_) id
    split at hstuck
    · unfold Port.done at hstuck
      split at hstuck
      · have hplat := hstuck.2
        dsimp only at hplat
        split at hplat
        · cases hplat
        · rename_i hbelief
          exact hfree ⟨Bool.eq_false_of_not_eq_true hbelief, hplat⟩
      · exact hfree hstuck
    · exact hfree hstuck

/-- **A TRANSFER GOES OUT ON ITS DEVICE'S SET-UP.**  However devices, the setting up and
the tearing down of the library follow on each other, and whatever the platform answers:
a command goes out only on a driver that is installed as master, configured as the device
says, and waits as long as it says. -/
theorem transfers_configured (ls : List PortLabel) (w : Ports)
    (h : exec (Ports.step stretch) Ports.reset ls = some w) :
    ∀ t ∈ w.sent, SetUp stretch t.1 t.2 :=
  ((always_of_step (fun _ _ _ => orderly_step stretch) (orderly_reset stretch) ls).final h).sent

/-- The clock, as `ds3231_init_desc(&dev, 0, 21, 22)` describes it. -/
def clockDev : I2cDev where
  port := 0
  cfg := { I2cConfig.zero with sda_io_num := 21, scl_io_num := 22, clk_speed := 400000 }
  addr := 0x68
  timeout_ticks := 0

/-- A device with other pins, on the same port. -/
def otherDev : I2cDev := { clockDev with cfg := { clockDev.cfg with sda_io_num := 34 } }

/-- Everything is well; the driver's own timeout is that of the reset. -/
def allWell : Answers := ⟨true, none, none, 8000, none, none, none, true⟩

/-- Two devices take turns. -/
def turnsRun : List PortLabel :=
  [.init 2, .transfer clockDev allWell, .transfer otherDev allWell, .transfer clockDev allWell]

theorem transfers_configured_turns :
    ∃ w, exec (Ports.step 0xfffff) Ports.reset turnsRun = some w ∧
      w.sent.length = 3 ∧ ∀ t ∈ w.sent, SetUp 0xfffff t.1 t.2 :=
  ⟨_, rfl, rfl, transfers_configured 0xfffff turnsRun _ rfl⟩

/-- **WHEN A PORT STAYS USABLE.**  Its driver is never left installed and believed not
to be, exactly if no transfer installs it and then fails to configure it, and the library
is not set up again while it is believed to be installed. -/
theorem never_stuck_iff (i : ℕ) (ls : List PortLabel) :
    Always (Ports.step stretch) (fun w => ¬ (w.port i).Stuck) Ports.reset ls ↔
      EachStep (Ports.step stretch) (fun w l => ¬ Breaks i w l) Ports.reset ls :=
  always_iff_eachStep (fun _ _ _ => orderly_step stretch)
    (fun _ _ _ hw hfree h => not_congr (stuck_step stretch hw hfree h)) (orderly_reset stretch)
    (reset_free i) ls

/-- The results of the transfers of a port. -/
def Ports.resultsOf (w : Ports) (i : ℕ) : List (Option EspError) :=
  (w.results.filter fun r => r.1.port = i).map Prod.snd

/-- The commands that went out on a port. -/
def Ports.sentOn (w : Ports) (i : ℕ) : List (I2cDev × PlatformPort) :=
  w.sent.filter fun t => t.1.port = i

theorem Ports.sentOn_eq {w v : Ports} (h : v.sent = w.sent) (i : ℕ) : v.sentOn i = w.sentOn i := by
  unfold sentOn
  rw [h]

/-- One step leaves a port that is stuck as it is, and its transfers fail. -/
theorem stuck_keeps {i : ℕ} {w v : Ports} {l : PortLabel} (hstuck : (w.port i).Stuck)
    (h : w.step stretch l = some v) :
    (v.port i).Stuck ∧ v.sentOn i = w.sentOn i ∧
      ∃ rs, v.resultsOf i = w.resultsOf i ++ rs ∧ ∀ r ∈ rs, r ≠ none := by
  obtain ⟨dev, a, rfl, hport, hsent, hresults⟩ |
    ⟨hsent, hresults, ⟨created, rfl, hport⟩ | ⟨handled, rfl, hport⟩⟩ := Ports.step_cases stretch h
  · by_cases hi : dev.port = i
    · obtain ⟨e, he⟩ := transfer_stuck stretch (hi ▸ hstuck) dev a
      rw [he] at hport hsent hresults
      refine ⟨?_, Ports.sentOn_eq hsent i, [some e], ?_, by simp⟩
      · rw [hport, hi, Function.update_self]
        exact hstuck
      · unfold Ports.resultsOf
        simp [hresults, hi]
    · refine ⟨?_, ?_, [], ?_, by simp⟩
      · rw [hport, Function.update_of_ne (Ne.symm hi)]
        exact hstuck
      · unfold Ports.sentOn
        rw [hsent]
        split
        · simp [hi]
        · rfl
      · unfold Ports.resultsOf
        simp [hresults, hi]
  · refine ⟨?_, Ports.sentOn_eq hsent i, [], ?_, by simp⟩
    · rw [hport]
      dsimp only
      split
      · exact ⟨rfl, hstuck.2⟩
      · exact hstuck
    · unfold Ports.resultsOf
      rw [hresults, List.append_nil]
  · refine ⟨?_, Ports.sentOn_eq hsent i, [], ?_, by simp⟩
    · rw [hport]
      dsimp only
      split
      · unfold Port.done
        split
        · refine ⟨rfl, ?_⟩
          show (if (w.port i).state.installed then _ else (w.port i).platform).installed = true
          rw [if_neg (by rw [hstuck.1]; exact Bool.false_ne_true)]
          exact hstuck.2
        · exact hstuck
      · exact hstuck
    · unfold Ports.resultsOf
      rw [hresults, List.append_nil]

/-- **NEVER USABLE AGAIN.**  Once a port is stuck, no command goes out on it, and every
transfer of every device on it fails, whatever the platform answers and however often the
library is torn down and set up. -/
theorem stuck_forever (i : ℕ) (ls : List PortLabel) : ∀ (w v : Ports), (w.port i).Stuck →
    exec (Ports.step stretch) w ls = some v →
      (v.port i).Stuck ∧ v.sentOn i = w.sentOn i ∧
        ∃ rs, v.resultsOf i = w.resultsOf i ++ rs ∧ ∀ r ∈ rs, r ≠ none := by
  induction ls with
  | nil =>
      intro w v hstuck h
      obtain rfl : w = v := Option.some.inj h
      exact ⟨hstuck, rfl, [], (List.append_nil _).symm, by simp⟩
  | cons l ls ih =>
      intro w v hstuck h
      rw [exec_cons, Option.bind_eq_some_iff] at h
      obtain ⟨u, hu, hv⟩ := h
      obtain ⟨hustuck, husent, rs, hrs, herr⟩ := stuck_keeps stretch hstuck hu
      obtain ⟨hvstuck, hvsent, rs', hrs', herr'⟩ := ih u v hustuck hv
      refine ⟨hvstuck, hvsent.trans husent, rs ++ rs', ?_, fun r hr => ?_⟩
      · rw [hrs', hrs, List.append_assoc]
      · rcases List.mem_append.mp hr with hr | hr
        · exact herr r hr
        · exact herr' r hr

/-- The pins of a device are refused. -/
def pinsRun : List PortLabel :=
  [.init 2, .transfer otherDev { allWell with param_config := some ESP_ERR_INVALID_ARG }]

/-- The clock on the same port, before and after the library is set up again. -/
def clockRun : List PortLabel :=
  [.transfer clockDev allWell, .done 2, .init 2, .transfer clockDev allWell]

theorem stuck_forever_pins :
    ∃ w v, exec (Ports.step 0xfffff) Ports.reset pinsRun = some w ∧ (w.port 0).Stuck ∧
      exec (Ports.step 0xfffff) w clockRun = some v ∧
      (v.port 0).Stuck ∧ v.sentOn 0 = w.sentOn 0 ∧
        ∃ rs, v.resultsOf 0 = w.resultsOf 0 ++ rs ∧ ∀ r ∈ rs, r ≠ none :=
  ⟨_, _, rfl, ⟨rfl, rfl⟩, rfl, stuck_forever 0xfffff 0 clockRun _ _ ⟨rfl, rfl⟩ rfl⟩

/-! ## §6. Two libraries on one port. -/

/-- `conf` of the pressure sensor. -/
def sensorConf : I2cConfig :=
  { I2cConfig.zero with
    mode := .I2C_MODE_MASTER, sda_io_num := 18, scl_io_num := 19, clk_speed := 40000 }

/-- `i2c_master_init` of xdb305.c, which knows nothing of the library; whether the port could
be configured is not looked at. -/
def i2c_master_init (d : PlatformPort) (a : Answers) : PlatformPort × Option EspError :=
  i2c_driver_install (i2c_param_config d sensorConf a).1 a

/-- The first transfer of a port installs its driver, if it can. -/
theorem transfer_installed (dev : I2cDev) (a : Answers) {p : Port}
    (hbelief : p.state.installed = false) (hplat : p.platform.installed = false) :
    (transfer stretch dev a p).1.platform.installed = true ↔
      a.locked = true ∧ a.install = none := by
  have hfree : ¬ p.Stuck := fun hstuck => by
    have hinst := hstuck.2
    rw [hplat] at hinst
    cases hinst
  unfold transfer
  by_cases hlocked : a.locked = true
  · rw [if_pos hlocked]
    unfold i2c_setup_port
    rw [if_pos (by simp [hbelief])]
    obtain ⟨q, hq, -, hready, -, hinstall, -⟩ | ⟨q, e, hq, -, hinst, -⟩ := reinstall_free dev a hfree
    · rw [hq]
      have hkeep := (setTimeout_cases stretch dev a q).2.1
      dsimp only
      cases hres : setTimeout stretch dev a q with
      | mk r res =>
          rw [hres] at hkeep
          have hr : r.platform.installed = true := hkeep.trans hready.installed
          cases res <;> simp [hlocked, hinstall, hr]
    · rw [hq]
      simp [hlocked, hinst]
  · rw [if_neg hlocked]
    simp [hplat, hlocked]

theorem i2c_master_init_iff (d : PlatformPort) (a : Answers) :
    (i2c_master_init d a).2 = none ↔ ¬ d.installed = true ∧ a.install = none := by
  have hsame : (i2c_param_config d sensorConf a).1.installed = d.installed := by
    unfold i2c_param_config
    cases a.param_config <;> rfl
  unfold i2c_master_init i2c_driver_install
  rw [hsame]
  by_cases hinst : d.installed = true
  · rw [if_pos hinst]
    simp [hinst]
  · rw [if_neg hinst]
    cases a.install <;> simp [hinst]

/-- **BOOT WITH THE CLOCK.**  Where `DS3221` is defined the clock is read before the sensor's
task sets up the same port.  Whatever the platform answers to either: `i2c_master_init` is
well, and its `ESP_ERROR_CHECK` passes, only if the clock could not be read for want of a
driver. -/
theorem boot_with_clock_iff (a a' : Answers) (w : Ports)
    (h : exec (Ports.step stretch) Ports.reset [.init I2C_NUM_MAX, .transfer clockDev a] = some w) :
    (i2c_master_init (w.port 0).platform a').2 = none ↔
      ¬ (a.locked = true ∧ a.install = none) ∧ a'.install = none := by
  obtain rfl := Option.some.inj h
  rw [i2c_master_init_iff]
  show ¬ (transfer stretch clockDev a ((Ports.reset.port 0).init I2C_NUM_MAX 0)).1.platform.installed
    = true ∧ _ ↔ _
  rw [transfer_installed stretch clockDev a rfl rfl]

theorem boot_with_clock_well :
    ∃ w, exec (Ports.step 0xfffff) Ports.reset [.init I2C_NUM_MAX, .transfer clockDev allWell]
        = some w ∧
      ((i2c_master_init (w.port 0).platform allWell).2 = none ↔
        ¬ (allWell.locked = true ∧ allWell.install = none) ∧ allWell.install = none) :=
  ⟨_, rfl, boot_with_clock_iff 0xfffff allWell allWell _ rfl⟩

end StoneHMI.Clock
