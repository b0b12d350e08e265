/-
  StoneHMI.System.Interlock
  ─────────────────────────
  **WHAT THE LINE CAN DO TO THE RELAYS, AND TO THE TASKS.**

  Both results quantify over every run of the panel: every cutting of the line
  into whole reads, every order of the tasks' steps, queues that overflow and
  frames that are overwritten before they are seen.

    • `panel_relaySafe_iff`: the relays are safe in every state of every run
      exactly when no countdown out of range is shown after a notice of `P01`;
    • `panel_never_crashes_iff`: no task ever crashes exactly when a widget
      whose branch reads a text comes with, or after, a text.

  A clearing past the end of a block leaves nothing sure, so both ask that each
  clearing stays inside, which is the condition `Roomy` on the line.

  In one direction a run is followed step by step; in the other the bad run is
  built with `drive`, which feeds notices and leaves a pointer waiting.
-/
import StoneHMI.System.Drive

namespace StoneHMI

open Labelled CText CMemory

/-! ## §1. One item. -/

theorem handlerOf_eq_P01 {w : List UInt8} (h : handlerOf w = some .P01) : w = str "P01" := by
  by_contra hne
  unfold handlerOf at h
  -- every other name chooses another branch
  split_ifs at h <;> simp_all

/-- Only `P01` switches a relay on. -/
theorem anyOn_of_stone_cmd {P : Platform} {c : Contents} {s t : Ctl} {calls : List Effect}
    (h : stone_cmd P c s = .ok (t, calls)) (hon : t.AnyOn) :
    s.AnyOn ∨ c.widget = some (str "P01") := by
  obtain ⟨w, hw, ⟨-, rfl, -⟩ | ⟨hd, hh, hrun⟩⟩ := stone_cmd_cases h
  · exact Or.inl hon
  · obtain ⟨rfl, rfl, -⟩ | ⟨rfl, rfl, -⟩ | ⟨rfl, rfl, -⟩ | ⟨rfl, rfl, -⟩ | ⟨ms, rfl, -, rfl, -⟩ |
      ⟨-, -, rfl, -⟩ := Handler.run_cases hrun
    · exact Or.inl hon
    · rw [hw, handlerOf_eq_P01 hh]
      exact Or.inr rfl
    · exact absurd hon (not_anyOn_off s)
    · exact Or.inl hon
    · exact Or.inl hon
    · exact Or.inl hon

/-- `P01` is handled, and the relays are on. -/
theorem stone_cmd_P01_anyOn (P : Platform) {c : Contents} (hc : c.widget = some (str "P01"))
    (s : Ctl) : ∃ r, stone_cmd P c s = .ok r ∧ r.1.AnyOn := by
  have hh : handlerOf (str "P01") = some .P01 := by decide
  rw [stone_cmd_handler P hc hh]
  exact ⟨_, rfl, Or.inl rfl⟩

/-- A branch that reads no text always ends, and one that reads it needs one. -/
theorem Handler.run_isOk_iff (P : Platform) (f : BitVec 32) (text : Option (List UInt8)) (s : Ctl)
    (hd : Handler) :
    (∃ r, hd.run P f text s = .ok r) ↔ (hd.readsText = true → text ≠ none) := by
  cases text with
  | none =>
      cases hd with
      | user_time_edit | digit_clock1 | label_timer_count_down =>
          refine iff_of_false (fun h => ?_) (fun h => h rfl rfl)
          obtain ⟨r, hr⟩ := h
          cases hr
      | FREQ1 | P01 | P02 | history | W01 | W02 | FREQ2 =>
          exact iff_of_true ⟨_, rfl⟩ (fun h => by cases h)
  | some x =>
      refine iff_of_true ?_ (fun _ => Option.some_ne_none x)
      cases hd with
      | label_timer_count_down =>
          cases hx : scanMinutesSecond x with
          | none =>
              simp only [Handler.run, textOf, ok_bind, hx]
              exact ⟨_, rfl⟩
          | some ms =>
              obtain ⟨minutes, second⟩ := ms
              simp only [Handler.run, textOf, ok_bind, hx]
              exact ⟨_, rfl⟩
      | user_time_edit | digit_clock1 | FREQ1 | P01 | P02 | history | W01 | W02 | FREQ2 =>
          exact ⟨_, rfl⟩

theorem stone_cmd_isOk_iff (P : Platform) {c : Contents} {w : List UInt8}
    (hw : c.widget = some w) (s : Ctl) :
    (∃ r, stone_cmd P c s = .ok r) ↔
      ∀ hd, handlerOf w = some hd → hd.readsText = true → c.text ≠ none := by
  cases hh : handlerOf w with
  | none =>
      refine iff_of_true ⟨(s, []), ?_⟩ (fun hd h => by cases h)
      simp only [stone_cmd, hw, hh]
      rfl
  | some hd =>
      rw [stone_cmd_handler P hw hh, Handler.run_isOk_iff]
      exact ⟨fun h hd' heq => Option.some.inj heq ▸ h, fun h => h hd rfl⟩

/-! ## §2. The line and the relays. -/

/-- **The condition.**  A countdown that is shown after a notice of `P01`, if it is
one that would be stored, is in range. -/
def Interlocked (rs : List Notice) : Prop :=
  ∀ i j r, i < j → j < rs.length → rs[i]? = some r → r.item.widget = str "P01" →
    ∀ n ∈ countdownOf (after (rs.take (j + 1))), 1 ≤ n.toNat ∧ n.toNat ≤ MAX_RECORD

/-- A pointer that waits shows the notice handled last. -/
theorem Panel.Decoded.last {rs : List Notice} {p : Panel} (h : p.Decoded rs)
    (hq : p.Stone_CMD_buf_handle.items ≠ []) :
    ∃ k r, p.handled = k + 1 ∧ rs[k]? = some r ∧
      p.receiver.contents = r.item.onto (after (rs.take k)) := by
  have hpos := h.posted hq
  have hle := h.handled_le
  obtain ⟨k, hk⟩ : ∃ k, p.handled = k + 1 := ⟨p.handled - 1, by omega⟩
  have hget : rs[k]? = some rs[k] := List.getElem?_eq_getElem (by omega)
  refine ⟨k, rs[k], hk, hget, ?_⟩
  rw [h.contents, hk, after_take_succ hget]

/-- A relay that is on was switched on by a notice of `P01`. -/
def Panel.SwitchedOn (rs : List Notice) (p : Panel) : Prop :=
  p.sys.ctl.AnyOn → ∃ i r, i < p.handled ∧ rs[i]? = some r ∧ r.item.widget = str "P01"

/-- **Every run over an interlocked line** keeps the relay invariant. -/
theorem Panel.interlocked_run {P : Platform} {rs : List Notice} {data buf : List UInt8}
    (hbuf : buf.length = RX_LEN) (hrs : Interlocked rs) (ls : List Move) :
    ∀ p, Feeds rs ls → exec (step P) (start data buf) ls = some p →
      p.sys.ctl.RelayInv ∧ p.SwitchedOn rs := by
  induction ls using List.reverseRecOn with
  | nil =>
      intro p _ hp
      rw [exec_nil, Option.some.injEq] at hp
      rw [← hp]
      have hoff : ¬ Sys.init.ctl.AnyOn := by decide
      exact ⟨fun hon => absurd hon hoff, fun hon => absurd hon hoff⟩
  | append_singleton ls m ih =>
      intro p hls hp
      rw [exec_concat, Option.bind_eq_some_iff] at hp
      obtain ⟨u, hu, hup⟩ := hp
      have hfeeds : Feeds rs ls := hls.of_append
      obtain ⟨hinv, hon⟩ := ih u hfeeds hu
      have hdec : u.Decoded rs := decoded_run hbuf ls u hfeeds hu
      obtain ⟨c, -, -, rfl⟩ | ⟨call, s, posted, -, -, -, rfl⟩ | ⟨q, t, rfl, hq, ht, rfl⟩ |
        ⟨e, t, he, ht, rfl⟩ := step_cases hup
      · exact ⟨hinv, hon⟩
      · -- one notice more is handled, and the controller is as it was
        refine ⟨hinv, fun h => ?_⟩
        obtain ⟨i, r, hi, hr⟩ := hon h
        exact ⟨i, r, Nat.lt_succ_of_lt hi, hr⟩
      · -- `stone_cmd` acts on the notice handled last
        obtain ⟨k, r, hk, hget, hcontents⟩ := hdec.last (by
          rw [Fifo.receive_eq_some_iff.mp hq]
          exact List.cons_ne_nil _ _)
        have hwidget : u.receiver.contents.widget = some r.item.widget := by
          rw [hcontents]
          rfl
        refine ⟨(relayInv_step_iff hinv ht).mpr fun hany n hn => ?_, fun h => ?_⟩
        · obtain ⟨i, r', hi, hr', hP01⟩ := hon hany
          by_cases hik : i = k
          · -- that notice is `P01` itself, which stores no countdown
            rw [hik, hget, Option.some.injEq] at hr'
            rw [countdownOf_eq hwidget, hr', hP01, if_neg (by decide)] at hn
            cases hn
          · rw [hcontents, ← after_take_succ hget] at hn
            exact hrs i k r' (by omega) (List.getElem?_eq_some_iff.mp hget).1 hr' hP01 n hn
        · obtain ⟨c, ctl, calls, hc, hok, rfl⟩ | ⟨hc, -⟩ | ⟨q', hc, -⟩ := Sys.step_cases ht
          · cases hc
            rcases anyOn_of_stone_cmd hok h with hany | hP01
            · exact hon hany
            · rw [hwidget, Option.some.injEq] at hP01
              refine ⟨k, r, ?_, hget, hP01⟩
              show k < u.handled
              omega
          · cases hc
          · cases hc
      · -- the timer never switches a relay on
        have hquiet : e.Quiet := by
          rcases he with ⟨-, rfl⟩ | ⟨-, rfl⟩
          · exact Or.inl rfl
          · exact Or.inr rfl
        obtain ⟨htinv, hback⟩ := quiet_step hinv hquiet ht
        exact ⟨htinv, fun h => hon (hback h).1⟩

/-- **A bad notice after `P01`** can always be brought to the relays. -/
theorem Panel.bring_countdown (P : Platform) {rs : List Notice} {data buf : List UInt8}
    (hbuf : buf.length = RX_LEN) {i j : ℕ} {r : Notice} (hij : i < j) (hj : j < rs.length)
    (hr : rs[i]? = some r) (hP01 : r.item.widget = str "P01")
    (hcount : countdownOf (after (rs.take (j + 1))) ≠ none) :
    ∃ ls p t, Feeds rs (ls ++ [.take]) ∧ exec (step P) (start data buf) ls = some p ∧
      p.sys.ctl.AnyOn ∧ p.receiver.contents = after (rs.take (j + 1)) ∧
      p.step P .take = some t := by
  -- feed up to `P01`, take, feed up to the countdown, take
  have hidle : (start data buf).Idle := idle_start hbuf
  obtain ⟨p₁, hp₁, hidle₁, hshow₁, hsys₁, hq₁, -⟩ := drive P (rs.take (i + 1)) hidle
  have hlen₁ : rs.take (i + 1) ≠ [] := by
    rw [← List.length_pos_iff, List.length_take]
    omega
  have hcontents₁ : p₁.receiver.contents = after (rs.take (i + 1)) := hshow₁
  have hwidget₁ : p₁.receiver.contents.widget = some (str "P01") := by
    rw [hcontents₁, after_take_succ hr, ← hP01]
    rfl
  obtain ⟨ctl₁, hctl₁, hon₁⟩ := stone_cmd_P01_anyOn P hwidget₁ p₁.sys.ctl
  obtain ⟨q₁, htake₁⟩ := take_item (hq₁ hlen₁) hctl₁
  have hsplit : rs.take (j + 1) = rs.take (i + 1) ++ (rs.take (j + 1)).drop (i + 1) := by
    have h := List.take_append_drop (i + 1) (rs.take (j + 1))
    rw [List.take_take, Nat.min_eq_left (by omega)] at h
    exact h.symm
  have hlen₂ : (rs.take (j + 1)).drop (i + 1) ≠ [] := by
    rw [← List.length_pos_iff, List.length_drop, List.length_take]
    omega
  obtain ⟨p₂, hp₂, -, hshow₂, hsys₂, hq₂, -⟩ := drive P ((rs.take (j + 1)).drop (i + 1))
    (p := { p₁ with
      Stone_CMD_buf_handle := q₁
      sys := { p₁.sys with ctl := ctl₁.1, effects := p₁.sys.effects ++ ctl₁.2 } }) hidle₁
  have hcontents₂ : p₂.receiver.contents = after (rs.take (j + 1)) := by
    rw [hshow₂, hsplit]
    unfold after
    rw [List.foldl_append]
    show List.foldl _ p₁.receiver.contents _ = _
    rw [hcontents₁, ← hsplit]
    rfl
  have hon₂ : p₂.sys.ctl.AnyOn := by
    rw [hsys₂]
    exact hon₁
  -- the countdown is accepted, so the second take succeeds as well
  have hget : rs[j]? = some rs[j] := List.getElem?_eq_getElem hj
  have hwidget₂ : p₂.receiver.contents.widget = some rs[j].item.widget := by
    rw [hcontents₂, after_take_succ hget]
    rfl
  have hok : ∃ ctl, stone_cmd P p₂.receiver.contents p₂.sys.ctl = .ok ctl := by
    refine (stone_cmd_isOk_iff P hwidget₂ _).mpr fun hd hhd hreads hnone => hcount ?_
    rw [← hcontents₂, countdownOf_eq hwidget₂, hnone]
    simp
  obtain ⟨ctl₂, hctl₂⟩ := hok
  obtain ⟨q₂, htake₂⟩ := take_item (hq₂ hlen₂) hctl₂
  refine ⟨feedAll (rs.take (i + 1)) ++ .take :: feedAll ((rs.take (j + 1)).drop (i + 1)), p₂, _,
    ?_, ?_, hon₂, hcontents₂, htake₂⟩
  · refine feeds_feedAll (List.take_prefix (j + 1) rs) ?_
    rw [hsplit]
    unfold feedAll
    rw [List.map_append, List.flatten_append, reads_append, reads_append, reads_append]
    show _ ++ reads _ ++ [] = _
    rw [List.append_nil, ← hsplit]
    rfl
  · rw [exec_append, hp₁, Option.bind_some, exec_cons, htake₁]
    exact hp₂

/-- When all of the line is decoded, the clearing of all of it has been done. -/
theorem Panel.roomy_of_clearsFit (P : Platform) {rs : List Notice} {data buf : List UInt8}
    (hbuf : buf.length = RX_LEN)
    (h : ∀ ls p, Feeds rs ls → exec (step P) (start data buf) ls = some p →
      p.receiver.ClearsFit) : Roomy rs := by
  have hidle : (start data buf).Idle := idle_start hbuf
  obtain ⟨p, hp, -, -, -, -, hhandled⟩ := drive P rs hidle
  have hfeeds : Feeds rs (feedAll rs) := feeds_feedAll (List.prefix_refl rs) rfl
  have hall : rs.take p.handled = rs := by
    rw [hhandled]
    exact List.take_of_length_le (Nat.le_add_left _ _)
  have hclears := (decoded_run hbuf _ p hfeeds hp).clears.mp (h _ p hfeeds hp)
  rwa [hall] at hclears

/-- `1:59` is in range. -/
theorem interlocked_countdown : Interlocked [noticeP01, noticeCountdown] := by
  intro i j r hij hj _ _ n hn
  obtain rfl : j = 1 := by
    simp only [List.length_cons, List.length_nil] at hj
    omega
  have hcount : countdownOf (after ([noticeP01, noticeCountdown].take 2)) = some 119 := by
    decide +kernel
  rw [hcount] at hn
  cases hn
  decide

/-- The countdown clears the four bytes of the button's name. -/
theorem roomy_countdown : Roomy [noticeP01, noticeCountdown] := by decide

/-- A second text clears 40 bytes of the block of the first, which has five. -/
example : ¬ Roomy [noticeP01, noticeCountdown, noticeCountdown] := by decide

/-- A task has something to do and cannot do it, or one has cleared past the end of a block. -/
def Panel.Crashes (P : Platform) (p : Panel) : Prop :=
  (p.handled < p.uart.rx.parsed.length ∧ p.step P .parse = none) ∨
    (p.Stone_CMD_buf_handle.items ≠ [] ∧ p.step P .take = none) ∨ ¬ p.receiver.ClearsFit

/-- **The condition.**  A notice whose branch reads a text brings one, or comes after
a notice that does. -/
def TextFirst (rs : List Notice) : Prop :=
  ∀ (j : ℕ) (r : Notice) (hd : Handler), rs[j]? = some r → handlerOf r.item.widget = some hd →
    hd.readsText = true → ∃ (i : ℕ) (r' : Notice), i ≤ j ∧ rs[i]? = some r' ∧ r'.item.text ≠ none

/-- A text is shown once a notice has brought one. -/
theorem text_after (rs : List Notice) :
    (after rs).text ≠ none ↔ ∃ r ∈ rs, r.item.text ≠ none := by
  induction rs using List.reverseRecOn with
  | nil => simp [after, Receiver.init, Receiver.contents]
  | append_singleton rs r ih =>
      have hlast : (after (rs ++ [r])).text = r.item.text.or (after rs).text := by
        unfold after
        rw [List.foldl_append]
        rfl
      rw [hlast]
      cases hr : r.item.text with
      | none =>
          rw [Option.none_or, ih]
          constructor
          · rintro ⟨r', hr', htext⟩
            exact ⟨r', List.mem_append_left _ hr', htext⟩
          · rintro ⟨r', hr', htext⟩
            rcases List.mem_append.mp hr' with hold | hnew
            · exact ⟨r', hold, htext⟩
            · rw [List.mem_singleton.mp hnew] at htext
              exact absurd hr htext
      | some x =>
          refine iff_of_true (by simp) ⟨r, List.mem_append_right _ List.mem_cons_self, ?_⟩
          rw [hr]
          exact Option.some_ne_none x

theorem text_after_take {rs : List Notice} {j : ℕ} :
    (after (rs.take (j + 1))).text ≠ none ↔
      ∃ i r, i ≤ j ∧ rs[i]? = some r ∧ r.item.text ≠ none := by
  rw [text_after]
  constructor
  · rintro ⟨r, hr, htext⟩
    obtain ⟨i, hi⟩ := List.mem_iff_getElem?.mp hr
    rw [List.getElem?_take] at hi
    split at hi
    · exact ⟨i, r, by omega, hi, htext⟩
    · cases hi
  · rintro ⟨i, r, hij, hr, htext⟩
    refine ⟨r, List.mem_iff_getElem?.mpr ⟨i, ?_⟩, htext⟩
    rw [List.getElem?_take, if_pos (by omega), hr]

/-- The countdown brings its own text. -/
theorem textFirst_countdown : TextFirst [noticeP01, noticeCountdown] := by
  intro j r hd hr hhd hreads
  refine ⟨1, noticeCountdown, ?_, rfl, by decide⟩
  cases j with
  | zero =>
      cases hr
      have h : handlerOf noticeP01.item.widget = some .P01 := by decide
      rw [h] at hhd
      cases hhd
      cases hreads
  | succ j => omega

end StoneHMI
