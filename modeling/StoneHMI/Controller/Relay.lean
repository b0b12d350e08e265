/-
  StoneHMI.Controller.Relay
  ─────────────────────────
  **WHEN THE RELAYS ARE SAFE.**

  A relay that is on must have the other three with it, a started timer, and
  between one second and `OPEN_TIME_5` minutes left in `record`; then at most
  that many further ticks switch all four off.  Three handlers write `record`.
  P01 and the tick keep it in range; `label_timer_count_down` stores whatever
  two bytes the display's text holds.

  `relaySafe_iff` is exact over every run: the relays are safe in every state
  if and only if each countdown text that is accepted while a relay is on
  shows between 0:01 and 20:00.
-/
import StoneHMI.Lib.Run
import StoneHMI.Controller.Ctl

namespace StoneHMI

open CText Labelled

/-! ## §1. Safety. -/

/-- Some relay is on. -/
def Ctl.AnyOn (s : Ctl) : Prop :=
  s.relay_1 = true ∨ s.relay_2 = true ∨ s.relay_3 = true ∨ s.relay_4 = true

/-- All four relays are on. -/
def Ctl.AllOn (s : Ctl) : Prop :=
  s.relay_1 = true ∧ s.relay_2 = true ∧ s.relay_3 = true ∧ s.relay_4 = true

/-- `OPEN_TIME_5*60` -/
def MAX_RECORD : ℕ := (OPEN_TIME_5 * 60).toNat

/-- **The relay invariant.** -/
def Ctl.RelayInv (s : Ctl) : Prop :=
  s.AnyOn → s.AllOn ∧ s.started = true ∧ 1 ≤ s.record.toNat ∧ s.record.toNat ≤ MAX_RECORD

instance (s : Ctl) : Decidable s.AnyOn := inferInstanceAs (Decidable (_ ∨ _))

instance (s : Ctl) : Decidable s.AllOn := inferInstanceAs (Decidable (_ ∧ _))

instance (s : Ctl) : Decidable s.RelayInv := inferInstanceAs (Decidable (_ → _))

/-- A step that brings no item: an alarm or a tick. -/
def Ev.Quiet (e : Ev) : Prop := e = .alarm ∨ e = .tick

/-- `OPEN_TIME_5*60` handled ticks without an item in between leave the relays off. -/
def SwitchesOff (P : Platform) (s : Sys) : Prop :=
  ∀ (es : List Ev) (t : Sys), (∀ e ∈ es, e.Quiet) → MAX_RECORD ≤ es.count .tick →
    exec (Sys.step P) s es = some t → ¬ t.ctl.AnyOn

/-- The state is safe, and so is what quiet running makes of it. -/
def RelaySafe (P : Platform) (s : Sys) : Prop := s.ctl.RelayInv ∧ SwitchesOff P s

/-! ## §2. One step. -/

/-- The countdown the item would store, where it is an accepted countdown text. -/
def countdownOf (c : Contents) : Option UInt32 :=
  match c.widget, c.text with
  | some w, some t =>
      if handlerOf w = some .label_timer_count_down then
        (scanMinutesSecond t).map fun ms => labelSeconds ms.1 ms.2
      else none
  | _, _ => none

/-- **The condition.**  A countdown accepted while a relay is on is in range. -/
def CountdownInRange (s : Sys) : Ev → Prop
  | .item c => s.ctl.AnyOn → ∀ r ∈ countdownOf c, 1 ≤ r.toNat ∧ r.toNat ≤ MAX_RECORD
  | .alarm => True
  | .tick => True

theorem countdownOf_eq {c : Contents} {w : List UInt8} (hw : c.widget = some w) :
    countdownOf c =
      if handlerOf w = some .label_timer_count_down then
        (c.text.bind scanMinutesSecond).map fun ms => labelSeconds ms.1 ms.2
      else none := by
  unfold countdownOf
  rw [hw]
  cases c.text with
  | none => simp
  | some x => rfl

/-- Where no countdown is stored, the condition asks for nothing. -/
theorem relayInv_iff_of_none {s t : Ctl} {o : Option UInt32} (ho : o = none) (ht : t.RelayInv) :
    t.RelayInv ↔ (s.AnyOn → ∀ r ∈ o, 1 ≤ r.toNat ∧ r.toNat ≤ MAX_RECORD) := by
  rw [ho]
  exact ⟨fun _ _ r hr => absurd hr (by simp), fun _ => ht⟩

theorem not_anyOn_off (s : Ctl) : ¬ (s.setRelays false).gptimer_stop.AnyOn := by
  simp [Ctl.AnyOn, Ctl.setRelays, Ctl.gptimer_stop]

/-- **Item step.**  An item keeps the invariant exactly when the countdown it
stores, if it stores one under a relay that is on, is in range. -/
theorem stone_cmd_relayInv_iff {P : Platform} {c : Contents} {s t : Ctl} {calls : List Effect}
    (hs : s.RelayInv) (h : stone_cmd P c s = .ok (t, calls)) :
    t.RelayInv ↔ (s.AnyOn → ∀ r ∈ countdownOf c, 1 ≤ r.toNat ∧ r.toNat ≤ MAX_RECORD) := by
  obtain ⟨w, hw, ⟨hh, rfl, -⟩ | ⟨hd, hh, hrun⟩⟩ := stone_cmd_cases h
  · -- no branch for this widget
    rw [countdownOf_eq hw, hh]
    exact relayInv_iff_of_none rfl hs
  · rw [countdownOf_eq hw, hh]
    obtain ⟨rfl, rfl, -⟩ | ⟨rfl, rfl, -⟩ | ⟨rfl, rfl, -⟩ | ⟨rfl, rfl, -⟩ | ⟨ms, rfl, hms, rfl, -⟩ |
      ⟨hnone, -, rfl, -⟩ := Handler.run_cases hrun
    · -- FREQ1
      exact relayInv_iff_of_none rfl hs
    · -- P01 switches all four on, with the whole session ahead
      refine relayInv_iff_of_none rfl fun _ => ?_
      exact ⟨⟨rfl, rfl, rfl, rfl⟩, rfl, openTime_bounds s.mode⟩
    · -- P02
      exact relayInv_iff_of_none rfl fun hon => absurd hon (not_anyOn_off s)
    · -- FREQ2 starts the timer, which is started already if a relay is on
      refine relayInv_iff_of_none rfl fun hon => ?_
      obtain ⟨hall, -, hrec⟩ := hs hon
      exact ⟨hall, rfl, hrec⟩
    · -- the countdown: everything depends on the number it stores
      rw [if_pos rfl, hms]
      constructor
      · intro ht hon r hr
        rw [← Option.some.inj hr]
        exact (ht hon).2.2
      · intro hrange hon
        obtain ⟨hall, hstart, -⟩ := hs hon
        exact ⟨hall, hstart, hrange hon _ rfl⟩
    · refine relayInv_iff_of_none ?_ hs
      by_cases hlabel : hd = .label_timer_count_down
      · rw [if_pos (by rw [hlabel]), hnone hlabel]
        rfl
      · rw [if_neg (by simpa using hlabel)]

/-- **Tick step.**  A tick keeps the invariant; relays still on afterwards were
on before, with one second more to go. -/
theorem timer_handle_relayInv {s : Ctl} (hs : s.RelayInv) :
    (timer_handle s).1.RelayInv ∧
      ((timer_handle s).1.AnyOn →
        s.AnyOn ∧ (timer_handle s).1.record.toNat + 1 = s.record.toNat) := by
  unfold timer_handle
  by_cases h0 : s.record - 1 = 0
  · -- the last second: all four off
    simp only [h0, if_true]
    exact ⟨fun hon => absurd hon (not_anyOn_off _), fun hon => absurd hon (not_anyOn_off _)⟩
  · -- a second less, which is still at least one
    simp only [if_neg h0]
    have hsame : ∀ u : Ctl, u = { s with record := s.record - 1, run_time := s.run_time + 1 } →
        (u.AnyOn ↔ s.AnyOn) := by
      rintro u rfl
      exact Iff.rfl
    have hrec : s.AnyOn → (s.record - 1).toNat = s.record.toNat - 1 ∧ 2 ≤ s.record.toNat := by
      intro hon
      have hone := (hs hon).2.2.1
      have hsub := toNat_sub_one hone
      refine ⟨hsub, ?_⟩
      by_contra hlt
      exact h0 (UInt32.toNat_inj.mp (by
        rw [hsub]
        show s.record.toNat - 1 = 0
        omega))
    constructor
    · intro hon
      have hon' : s.AnyOn := (hsame _ rfl).mp hon
      obtain ⟨hall, hstart, hlo, hhi⟩ := hs hon'
      obtain ⟨hsub, htwo⟩ := hrec hon'
      refine ⟨hall, hstart, ?_, ?_⟩
      · show 1 ≤ (s.record - 1).toNat
        omega
      · show (s.record - 1).toNat ≤ MAX_RECORD
        omega
    · intro hon
      have hon' : s.AnyOn := (hsame _ rfl).mp hon
      obtain ⟨hsub, htwo⟩ := hrec hon'
      refine ⟨hon', ?_⟩
      show (s.record - 1).toNat + 1 = s.record.toNat
      omega

/-- **Step.** -/
theorem relayInv_step_iff {P : Platform} {s t : Sys} {e : Ev} (hs : s.ctl.RelayInv)
    (h : s.step P e = some t) : t.ctl.RelayInv ↔ CountdownInRange s e := by
  obtain ⟨c, ctl, calls, rfl, hc, rfl⟩ | ⟨rfl, -, rfl⟩ | ⟨q, rfl, -, rfl⟩ := Sys.step_cases h
  · exact stone_cmd_relayInv_iff hs hc
  · exact ⟨fun _ => trivial, fun _ => hs⟩
  · exact ⟨fun _ => trivial, fun _ => (timer_handle_relayInv hs).1⟩

/-! ## §3. Switching off. -/

theorem quiet_step {P : Platform} {s t : Sys} {e : Ev} (hs : s.ctl.RelayInv) (he : e.Quiet)
    (h : s.step P e = some t) :
    t.ctl.RelayInv ∧ (t.ctl.AnyOn →
      s.ctl.AnyOn ∧ t.ctl.record.toNat + (if e = .tick then 1 else 0) = s.ctl.record.toNat) := by
  obtain ⟨c, ctl, calls, rfl, -, -⟩ | ⟨rfl, -, rfl⟩ | ⟨q, rfl, -, rfl⟩ := Sys.step_cases h
  · rcases he with he | he <;> cases he
  · exact ⟨hs, fun hon => ⟨hon, rfl⟩⟩
  · exact timer_handle_relayInv hs

/-- Relays that are still on after a quiet run have used one second of
`record` for each tick. -/
theorem quiet_run {P : Platform} :
    ∀ (es : List Ev) {s t : Sys}, s.ctl.RelayInv → (∀ e ∈ es, e.Quiet) →
      exec (Sys.step P) s es = some t →
      t.ctl.RelayInv ∧ (t.ctl.AnyOn →
        s.ctl.AnyOn ∧ t.ctl.record.toNat + es.count .tick = s.ctl.record.toNat)
  | [], s, t, hs, _, h => by
      rw [exec_nil, Option.some.injEq] at h
      rw [← h]
      exact ⟨hs, fun hon => ⟨hon, rfl⟩⟩
  | e :: es, s, t, hs, hq, h => by
      rw [exec_cons, Option.bind_eq_some_iff] at h
      obtain ⟨u, hu, hut⟩ := h
      obtain ⟨huinv, hustep⟩ := quiet_step hs (hq e List.mem_cons_self) hu
      obtain ⟨htinv, htrun⟩ := quiet_run es huinv (fun x hx => hq x (List.mem_cons_of_mem e hx)) hut
      refine ⟨htinv, fun hon => ?_⟩
      obtain ⟨huon, hcount⟩ := htrun hon
      obtain ⟨hson, hone⟩ := hustep huon
      refine ⟨hson, ?_⟩
      rw [List.count_cons]
      simp only [beq_iff_eq]
      omega

theorem switchesOff_of_relayInv {P : Platform} {s : Sys} (hs : s.ctl.RelayInv) :
    SwitchesOff P s := by
  intro es t hq hcount hrun hon
  obtain ⟨htinv, htrun⟩ := quiet_run es hs hq hrun
  -- more ticks than `record` had seconds, and one second still left
  obtain ⟨hson, hsum⟩ := htrun hon
  have hmax := (hs hson).2.2.2
  have hone := (htinv hon).2.2.1
  omega

theorem relaySafe_iff_relayInv {P : Platform} {s : Sys} : RelaySafe P s ↔ s.ctl.RelayInv :=
  ⟨fun h => h.1, fun h => ⟨h, switchesOff_of_relayInv h⟩⟩

/-! ## §4. Every run. -/

/-- **The relays are safe in every state of a run, exactly when each countdown
accepted while a relay is on is in range.**  For every run of items, alarms
and ticks, on every platform. -/
theorem relaySafe_iff (P : Platform) (es : List Ev) :
    Always (Sys.step P) (RelaySafe P) Sys.init es ↔
      EachStep (Sys.step P) CountdownInRange Sys.init es := by
  refine always_iff_eachStep (I := fun _ => True) (fun _ _ _ _ _ => trivial) ?_ trivial ?_ es
  · -- the invariant alone carries the promise to switch off
    intro s e t _ hs ht
    rw [relaySafe_iff_relayInv]
    exact relayInv_step_iff hs.1 ht
  · exact relaySafe_iff_relayInv.mpr (by decide)

/-- The display reports `P01`, then an old countdown label `0:00`. -/
def staleCountdown : List Ev :=
  [.item { widget := some (str "P01"), float_value := 0, text := none },
    .item { widget := some (str "label_timer_count_down"), float_value := 0,
            text := some (str "0:00") }]

/-- The relays stay on with `record` at 0, from where the next tick wraps it. -/
theorem not_relaySafe_staleCountdown :
    ¬ Always (Sys.step deafPlatform) (RelaySafe deafPlatform) Sys.init staleCountdown := by
  intro h
  have hrun : ∃ t, exec (Sys.step deafPlatform) Sys.init staleCountdown = some t
      ∧ ¬ t.ctl.RelayInv := ⟨_, rfl, by decide⟩
  obtain ⟨t, ht, hbad⟩ := hrun
  exact hbad (h.final ht).1

end StoneHMI
