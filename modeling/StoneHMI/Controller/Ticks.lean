/-
  StoneHMI.Controller.Ticks
  ─────────────────────────
  **EVERY SECOND COUNTED ONCE — alarms, `Timer_queue` and `record`.**

  The started timer puts one element into `Timer_queue` for each second, and
  `timer_handle` takes one second off `record` for each element.  `Clock`
  keeps, beside the controller, the session that each waiting element was
  raised in, and for every handled one also the session it was handled in and
  the `record` it found.

  `exact_iff` is exact over every run from the start, in every interleaving:
  the alarms are counted once, each in its own session, when the queue has
  room for each alarm, when P02 and the last second of a session find no other
  element waiting, and when no element finds `record` at 0.
-/
import StoneHMI.Controller.Conservation
import Mathlib.Data.List.Count

namespace StoneHMI

open CText Labelled

/-! ## §1. Alarms and the sessions they belong to. -/

/-- An element that `timer_handle` has handled. -/
structure Tick where
  /-- The session whose timer raised it. -/
  raisedIn : ℕ
  /-- The session that was running when it was handled. -/
  runningIn : Option ℕ
  /-- `record` before the decrement. -/
  record : UInt32
  deriving DecidableEq, Repr

/-- The controller, the number of sessions begun, the session of each element
that waits, of each alarm raised, and the elements handled. -/
structure Clock where
  sys : Sys
  session : ℕ
  waiting : Fifo ℕ 10
  raised : List ℕ
  handled : List Tick
  deriving DecidableEq, Repr

def Clock.init : Clock :=
  { sys := Sys.init, session := 0, waiting := Fifo.empty, raised := [], handled := [] }

/-- The session that runs, if the timer is started. -/
def Clock.running (r : Clock) : Option ℕ := if r.sys.ctl.started then some r.session else none

/-- What the step adds to the record of alarms. -/
def Clock.note (r : Clock) : Ev → Clock
  | .item _ => r
  | .alarm => { r with waiting := r.waiting.send r.session, raised := r.raised ++ [r.session] }
  | .tick =>
      match r.waiting.receive with
      | none => r
      | some (k, q) =>
          { r with
            waiting := q
            handled := r.handled ++ [⟨k, r.running, r.sys.ctl.record⟩] }

/-- A step that starts the stopped timer begins a session. -/
def Clock.step (P : Platform) (r : Clock) (e : Ev) : Option Clock :=
  (r.sys.step P e).map fun t =>
    { r.note e with
      sys := t
      session :=
        if r.sys.ctl.started = false ∧ t.ctl.started = true then r.session + 1 else r.session }

/-- How often the `record` of session `k` was decremented. -/
def Clock.counted (r : Clock) (k : ℕ) : ℕ := r.handled.countP fun t => t.runningIn = some k

/-- How many alarms of session `k` may still be counted in it. -/
def Clock.pending (r : Clock) (k : ℕ) : ℕ :=
  if r.running = some k then r.waiting.items.count k else 0

/-- **Exact accounting.** -/
structure Clock.Exact (r : Clock) : Prop where
  /-- An element acts in the session that raised it, and in no other. -/
  own : ∀ t ∈ r.handled, t.runningIn = some t.raisedIn
  /-- `record` never goes below 0. -/
  above : ∀ t ∈ r.handled, t.record ≠ 0
  /-- Each alarm of a session has been counted there; only the running
  session's may wait. -/
  tally : ∀ k, r.counted k + r.pending k = r.raised.count k

/-- **The condition.**  The queue has room for an alarm; P02 finds it empty; a
tick finds a second left, and the tick of the last second no other element. -/
def Punctual (r : Clock) : Ev → Prop
  | .item c => c.IsFor .P02 → r.sys.timer_queue.items = []
  | .alarm => ¬ r.sys.timer_queue.Full
  | .tick =>
      r.sys.ctl.record ≠ 0 ∧ (r.sys.ctl.record = 1 → r.sys.timer_queue.items.length = 1)

/-! ## §2. What holds in every run. -/

/-- The record follows the queue, and no alarm is handled or waits twice. -/
structure Clock.Linked (r : Clock) : Prop where
  queue : r.waiting.items.length = r.sys.timer_queue.items.length
  origin : ∀ k, r.handled.countP (fun t => t.raisedIn = k) + r.waiting.items.count k
    ≤ r.raised.count k

/-- What a step can do: an item changes the globals, an alarm joins both queues,
and a tick takes the oldest element from both. -/
theorem Clock.step_cases {P : Platform} {r u : Clock} {e : Ev} (hr : r.Linked)
    (h : r.step P e = some u) :
    (∃ c t, e = .item c ∧ r.sys.step P (.item c) = some t ∧
      t.timer_queue = r.sys.timer_queue ∧ u = { r with
        sys := t
        session :=
          if r.sys.ctl.started = false ∧ t.ctl.started = true then r.session + 1
          else r.session }) ∨
    (e = .alarm ∧ r.running = some r.session ∧ u = { r with
      sys := { r.sys with timer_queue := r.sys.timer_queue.send () }
      waiting := r.waiting.send r.session
      raised := r.raised ++ [r.session] }) ∨
    (∃ k q w, e = .tick ∧ r.waiting.items = k :: w.items ∧
      r.sys.timer_queue.items.length = q.items.length + 1 ∧
      w.items.length = q.items.length ∧ u = { r with
        sys :=
          { ctl := (timer_handle r.sys.ctl).1, timer_queue := q,
            effects := r.sys.effects ++ (timer_handle r.sys.ctl).2 }
        waiting := w
        handled := r.handled ++ [⟨k, r.running, r.sys.ctl.record⟩] }) := by
  unfold Clock.step at h
  rw [Option.map_eq_some_iff] at h
  obtain ⟨t, ht, rfl⟩ := h
  obtain ⟨c, ctl, calls, rfl, hc, rfl⟩ | ⟨rfl, hs, rfl⟩ | ⟨q, rfl, hq, rfl⟩ := Sys.step_cases ht
  · exact Or.inl ⟨c, _, rfl, ht, rfl, rfl⟩
  · refine Or.inr (Or.inl ⟨rfl, ?_, ?_⟩)
    · unfold Clock.running
      rw [if_pos hs]
    · -- an alarm comes from a started timer
      have hold : ¬ (r.sys.ctl.started = false ∧ r.sys.ctl.started = true) := by
        rintro ⟨h0, h1⟩
        rw [h1] at h0
        cases h0
      simp only [if_neg hold]
      rfl
  · have hqueue : r.sys.timer_queue.items = () :: q.items := Fifo.receive_eq_some_iff.mp hq
    have hlen := hr.queue
    rw [hqueue, List.length_cons] at hlen
    cases hw : r.waiting.receive with
    | none =>
        have hnil := Fifo.receive_eq_none_iff.mp hw
        rw [hnil] at hlen
        cases hlen
    | some kw =>
        obtain ⟨k, w⟩ := kw
        have hitems := Fifo.receive_eq_some_iff.mp hw
        rw [hitems, List.length_cons] at hlen
        refine Or.inr (Or.inr ⟨k, q, w, rfl, hitems, by rw [hqueue]; rfl, by omega, ?_⟩)
        -- a tick starts no timer
        have hold : ¬ (r.sys.ctl.started = false ∧ (timer_handle r.sys.ctl).1.started = true) := by
          rintro ⟨h0, h1⟩
          rw [started_timer_handle, h0, ite_self] at h1
          cases h1
        simp only [if_neg hold, Clock.note, hw]

theorem Clock.linked_init : Clock.init.Linked := ⟨rfl, fun _ => Nat.le_refl 0⟩

/-- **Step.** -/
theorem Clock.linked_step {P : Platform} {r u : Clock} {e : Ev} (hr : r.Linked)
    (h : r.step P e = some u) : u.Linked := by
  obtain ⟨c, t, rfl, -, hq, rfl⟩ | ⟨rfl, -, rfl⟩ | ⟨k, q, w, rfl, hitems, hlen, hw, rfl⟩ :=
    Clock.step_cases hr h
  · refine ⟨?_, hr.origin⟩
    show r.waiting.items.length = t.timer_queue.items.length
    rw [hq]
    exact hr.queue
  · refine ⟨Fifo.length_send_congr hr.queue r.session (), fun k => ?_⟩
    have horigin := hr.origin k
    show r.handled.countP (fun t => t.raisedIn = k) + (r.waiting.send r.session).items.count k
      ≤ (r.raised ++ [r.session]).count k
    rw [List.count_append]
    by_cases hfull : r.waiting.Full
    · rw [Fifo.send_of_full hfull]
      omega
    · rw [Fifo.items_send_of_not_full hfull, List.count_append]
      omega
  · refine ⟨hw, fun j => ?_⟩
    have horigin := hr.origin j
    rw [hitems, List.count_cons] at horigin
    show (r.handled ++ [_]).countP _ + w.items.count j ≤ _
    rw [List.countP_append, List.countP_singleton]
    simp only [decide_eq_true_eq]
    simp only [beq_iff_eq] at horigin
    omega

/-! ## §3. What exact accounting says of the queue. -/

/-- In its own session each handled element is counted. -/
theorem Clock.Exact.counted_eq {r : Clock} (h : r.Exact) (k : ℕ) :
    r.counted k = r.handled.countP fun t => t.raisedIn = k := by
  unfold Clock.counted
  apply List.countP_congr
  intro t ht
  rw [h.own t ht, decide_eq_true_eq, decide_eq_true_eq, Option.some_inj]

/-- Only elements of the running session wait. -/
theorem Clock.Exact.running_of_mem {r : Clock} (h : r.Exact) (hr : r.Linked) {k : ℕ}
    (hk : k ∈ r.waiting.items) : r.running = some k := by
  have hpos : 0 < r.waiting.items.count k := List.count_pos_iff.mpr hk
  have htally := h.tally k
  have horigin := hr.origin k
  rw [← h.counted_eq] at horigin
  unfold Clock.pending at htally
  by_contra hne
  rw [if_neg hne] at htally
  omega

theorem Clock.Exact.waiting_of_stopped {r : Clock} (h : r.Exact) (hr : r.Linked)
    (hstop : r.sys.ctl.started = false) : r.waiting.items = [] := by
  rw [List.eq_nil_iff_forall_not_mem]
  intro k hk
  have hrun := h.running_of_mem hr hk
  unfold Clock.running at hrun
  rw [hstop] at hrun
  cases hrun

/-- With nothing waiting, no alarm is pending. -/
theorem Clock.pending_of_nil {r : Clock} (h : r.waiting.items = []) (k : ℕ) : r.pending k = 0 := by
  unfold Clock.pending
  rw [h, List.count_nil, ite_self]

theorem Clock.pending_of_stopped {r : Clock} (h : r.sys.ctl.started = false) (k : ℕ) :
    r.pending k = 0 := by
  unfold Clock.pending Clock.running
  rw [h]
  simp

theorem Clock.pending_of_running {r : Clock} {k : ℕ} (h : r.running = some k) (j : ℕ) :
    r.pending j = if k = j then r.waiting.items.count j else 0 := by
  unfold Clock.pending
  simp only [h, Option.some_inj]

/-! ## §4. Steps. -/

/-- An item keeps exact accounting, unless it is P02 and an element waits. -/
theorem Clock.exact_item_iff {P : Platform} {r : Clock} {c : Contents} {t : Sys} {n : ℕ}
    (hex : r.Exact) (hr : r.Linked) (h : r.sys.step P (.item c) = some t)
    (hn : r.sys.ctl.started = true → t.ctl.started = true → n = r.session) :
    ({ r with sys := t, session := n } : Clock).Exact ↔
      (c.IsFor .P02 → r.sys.timer_queue.items = []) := by
  have hempty : r.waiting.items = [] ↔ r.sys.timer_queue.items = [] := by
    rw [← List.length_eq_zero_iff, hr.queue, List.length_eq_zero_iff]
  rw [← hempty]
  have hkeep := row_step h
  by_cases hnil : r.waiting.items = []
  · -- nothing waits, so nothing is pending before or after
    refine iff_of_true ⟨hex.own, hex.above, fun k => ?_⟩ (fun _ => hnil)
    have htally := hex.tally k
    have hnil' : ({ r with sys := t, session := n } : Clock).waiting.items = [] := hnil
    rw [Clock.pending_of_nil hnil] at htally
    rw [Clock.pending_of_nil hnil']
    exact htally
  · have hst : r.sys.ctl.started = true := by
      by_contra hoff
      exact hnil (hex.waiting_of_stopped hr (by simpa using hoff))
    by_cases hP02 : c.IsFor .P02
    · -- what waits will not be counted in the session that P02 ends
      refine iff_of_false (fun hex' => ?_) (fun hall => hnil (hall hP02))
      have hoff : t.ctl.started = false := by
        unfold Contents.IsFor at hP02
        simp only [rowAt, hP02, if_true] at hkeep
        exact hkeep.2
      obtain ⟨k, hk⟩ := List.exists_mem_of_ne_nil _ hnil
      have hrun := hex.running_of_mem hr hk
      have htally := hex.tally k
      have htally' := hex'.tally k
      rw [Clock.pending_of_stopped hoff] at htally'
      have hpos : 0 < r.pending k := by
        unfold Clock.pending
        rw [if_pos hrun]
        exact List.count_pos_iff.mpr hk
      have hcounted : ({ r with sys := t, session := n } : Clock).counted k = r.counted k := rfl
      have hraised : ({ r with sys := t, session := n } : Clock).raised = r.raised := rfl
      rw [hcounted, hraised] at htally'
      omega
    · -- the session goes on
      have hon : t.ctl.started = true := by
        unfold Contents.IsFor at hP02
        simp only [rowAt, hP02, if_false] at hkeep
        exact hkeep.2 hst
      refine iff_of_true ⟨hex.own, hex.above, fun k => ?_⟩ (fun h02 => absurd h02 hP02)
      have hrun : ({ r with sys := t, session := n } : Clock).running = r.running := by
        unfold Clock.running
        rw [if_pos hon, if_pos hst, hn hst hon]
      unfold Clock.pending
      rw [hrun]
      exact hex.tally k

/-- An alarm keeps exact accounting exactly when the queue takes it. -/
theorem Clock.exact_alarm_iff {r u : Clock} (hex : r.Exact) (hr : r.Linked)
    (hrun : r.running = some r.session) (hu : u = { r with
      sys := { r.sys with timer_queue := r.sys.timer_queue.send () }
      waiting := r.waiting.send r.session
      raised := r.raised ++ [r.session] }) :
    u.Exact ↔ ¬ r.sys.timer_queue.Full := by
  have hrun' : u.running = some r.session := by
    rw [hu]
    exact hrun
  have htally : ∀ k, u.counted k + u.pending k = u.raised.count k ↔
      r.counted k + (if r.session = k then (r.waiting.send r.session).items.count k else 0)
        = r.raised.count k + [r.session].count k := by
    intro k
    rw [Clock.pending_of_running hrun', hu, ← List.count_append]
    rfl
  have hold : ∀ k, r.counted k + (if r.session = k then r.waiting.items.count k else 0)
      = r.raised.count k := by
    intro k
    have hk := hex.tally k
    rwa [Clock.pending_of_running hrun] at hk
  rw [← Fifo.full_congr hr.queue]
  by_cases hfull : r.waiting.Full
  · -- the alarm is dropped
    refine iff_of_false (fun hex' => ?_) (fun hno => hno hfull)
    have hnew := (htally r.session).mp (hex'.tally r.session)
    have hself := hold r.session
    rw [if_pos rfl] at hself hnew
    rw [Fifo.send_of_full hfull, List.count_singleton_self] at hnew
    omega
  · refine iff_of_true ⟨?_, ?_, fun k => (htally k).mpr ?_⟩ hfull
    · rw [hu]
      exact hex.own
    · rw [hu]
      exact hex.above
    · have hk := hold k
      rw [Fifo.items_send_of_not_full hfull, List.count_append]
      by_cases hks : r.session = k
      · rw [if_pos hks] at hk ⊢
        omega
      · have hzero : [r.session].count k = 0 := by simp [hks]
        rw [if_neg hks] at hk ⊢
        omega

/-- One more element has been handled. -/
theorem Clock.counted_concat {r u : Clock} {t : Tick} (h : u.handled = r.handled ++ [t]) (j : ℕ) :
    u.counted j = r.counted j + if t.runningIn = some j then 1 else 0 := by
  unfold Clock.counted
  rw [h, List.countP_append, List.countP_singleton]
  simp only [decide_eq_true_eq]

/-- Behind a tick of the running session: with the last second nothing is pending any more. -/
theorem Clock.pending_of_tick {r u : Clock} {k : ℕ} (hrun : r.running = some k)
    (hctl : u.sys.ctl = (timer_handle r.sys.ctl).1) (hsession : u.session = r.session) (j : ℕ) :
    u.pending j
      = if r.sys.ctl.record = 1 then 0 else if k = j then u.waiting.items.count j else 0 := by
  have hstarted : u.sys.ctl.started
      = if r.sys.ctl.record = 1 then false else r.sys.ctl.started := by
    rw [hctl, started_timer_handle]
    simp only [sub_one_eq_zero_iff]
  by_cases h1 : r.sys.ctl.record = 1
  · rw [if_pos h1] at hstarted
    rw [Clock.pending_of_stopped hstarted, if_pos h1]
  · have hon : u.running = some k := by
      unfold Clock.running at hrun ⊢
      rw [hstarted, if_neg h1, hsession]
      exact hrun
    rw [Clock.pending_of_running hon, if_neg h1]

/-- What a tick leaves of the tally: in the last second the elements that still wait
are lost. -/
theorem Clock.tally_tick_iff {r u : Clock} {k : ℕ} (hex : r.Exact) (hrun : r.running = some k)
    (hitems : r.waiting.items = k :: u.waiting.items) (hall : ∀ j ∈ u.waiting.items, j = k)
    (hhandled : u.handled = r.handled ++ [⟨k, some k, r.sys.ctl.record⟩])
    (hraised : u.raised = r.raised) (hctl : u.sys.ctl = (timer_handle r.sys.ctl).1)
    (hsession : u.session = r.session) :
    (∀ j, u.counted j + u.pending j = u.raised.count j) ↔
      (r.sys.ctl.record = 1 → u.waiting.items = []) := by
  have hold : ∀ j, r.counted j + (if k = j then u.waiting.items.count j + 1 else 0)
      = r.raised.count j := by
    intro j
    have hj := hex.tally j
    rw [Clock.pending_of_running hrun, hitems] at hj
    rw [← hj]
    by_cases hkj : k = j
    · rw [if_pos hkj, if_pos hkj, hkj, List.count_cons_self]
    · rw [if_neg hkj, if_neg hkj]
  have hcounted : ∀ j, u.counted j = r.counted j + if k = j then 1 else 0 := by
    intro j
    rw [Clock.counted_concat hhandled]
    simp only [Option.some_inj]
  constructor
  · intro h h1
    have hk := h k
    have hk' := hold k
    rw [hcounted, Clock.pending_of_tick hrun hctl hsession, hraised, if_pos h1, if_pos rfl] at hk
    rw [if_pos rfl] at hk'
    have hzero : u.waiting.items.count k = 0 := by omega
    rw [List.eq_nil_iff_forall_not_mem]
    intro j hj
    rw [hall j hj] at hj
    exact List.count_eq_zero.mp hzero hj
  · intro h j
    have hj := hold j
    rw [hcounted, Clock.pending_of_tick hrun hctl hsession, hraised]
    by_cases h1 : r.sys.ctl.record = 1
    · rw [h h1, List.count_nil] at hj
      rw [if_pos h1]
      exact hj
    · rw [if_neg h1]
      by_cases hkj : k = j
      · rw [if_pos hkj] at hj
        rw [if_pos hkj, if_pos hkj]
        omega
      · rw [if_neg hkj] at hj
        rw [if_neg hkj, if_neg hkj]
        exact hj

/-- A tick keeps exact accounting when it finds a second left, and in the last
second nothing else waiting. -/
theorem Clock.exact_tick_iff {r u : Clock} {k : ℕ} {q : Fifo Unit 10} {w : Fifo ℕ 10}
    (hex : r.Exact) (hr : r.Linked) (hitems : r.waiting.items = k :: w.items)
    (hlen : r.sys.timer_queue.items.length = q.items.length + 1)
    (hwq : w.items.length = q.items.length) (hu : u = { r with
      sys :=
        { ctl := (timer_handle r.sys.ctl).1, timer_queue := q,
          effects := r.sys.effects ++ (timer_handle r.sys.ctl).2 }
      waiting := w
      handled := r.handled ++ [⟨k, r.running, r.sys.ctl.record⟩] }) :
    u.Exact ↔ r.sys.ctl.record ≠ 0 ∧
      (r.sys.ctl.record = 1 → r.sys.timer_queue.items.length = 1) := by
  have hrun : r.running = some k :=
    hex.running_of_mem hr (by rw [hitems]; exact List.mem_cons_self)
  -- all that waits is of session `k`
  have hall : ∀ j ∈ w.items, j = k := by
    intro j hj
    have hrunj := hex.running_of_mem hr (by rw [hitems]; exact List.mem_cons_of_mem k hj)
    rw [hrun] at hrunj
    exact (Option.some.inj hrunj).symm
  have hhandled : u.handled = r.handled ++ [⟨k, some k, r.sys.ctl.record⟩] := by
    rw [hu, hrun]
  have hlast : w.items = [] ↔ r.sys.timer_queue.items.length = 1 := by
    rw [hlen, ← hwq, ← List.length_eq_zero_iff]
    omega
  have htally : (∀ j, u.counted j + u.pending j = u.raised.count j) ↔
      (r.sys.ctl.record = 1 → r.sys.timer_queue.items.length = 1) := by
    rw [← hlast]
    subst hu
    exact Clock.tally_tick_iff hex hrun hitems hall hhandled rfl rfl rfl
  constructor
  · intro h
    have habove := h.above
    rw [hhandled] at habove
    exact ⟨habove _ (List.mem_append_right _ List.mem_cons_self), htally.mp h.tally⟩
  · rintro ⟨hrecord, hone⟩
    refine ⟨fun t ht => ?_, fun t ht => ?_, htally.mpr hone⟩
    · rw [hhandled] at ht
      rcases List.mem_append.mp ht with hold | hnew
      · exact hex.own t hold
      · rw [List.mem_singleton.mp hnew]
    · rw [hhandled] at ht
      rcases List.mem_append.mp ht with hold | hnew
      · exact hex.above t hold
      · rw [List.mem_singleton.mp hnew]
        exact hrecord

/-- **Step.** -/
theorem Clock.exact_step_iff {P : Platform} {r u : Clock} {e : Ev} (hr : r.Linked) (hex : r.Exact)
    (h : r.step P e = some u) : u.Exact ↔ Punctual r e := by
  obtain ⟨c, t, rfl, ht, -, rfl⟩ | ⟨rfl, hrun, hu⟩ | ⟨k, q, w, rfl, hitems, hlen, hwq, hu⟩ :=
    Clock.step_cases hr h
  · refine Clock.exact_item_iff hex hr ht fun hst _ => if_neg ?_
    rw [hst]
    simp
  · exact Clock.exact_alarm_iff hex hr hrun hu
  · exact Clock.exact_tick_iff hex hr hitems hlen hwq hu

/-! ## §5. Every run. -/

theorem Clock.exact_init : Clock.init.Exact := by
  refine ⟨?_, ?_, fun k => rfl⟩
  · intro t ht
    cases ht
  · intro t ht
    cases ht

/-- **TICK ACCOUNTING, EXACTLY**: in every run, whatever the order of items,
alarms and ticks, the accounting is exact in every state if and only if every
step of the run meets the condition. -/
theorem exact_iff (P : Platform) (es : List Ev) :
    Always (Clock.step P) Clock.Exact Clock.init es ↔
      EachStep (Clock.step P) Punctual Clock.init es :=
  always_iff_eachStep (I := Clock.Linked) (fun _ _ _ hr h => Clock.linked_step hr h)
    (fun _ _ _ hr hex h => Clock.exact_step_iff hr hex h) Clock.linked_init Clock.exact_init es

/-- The buttons P01 and P02. -/
def press (w : String) : Ev := .item { widget := some (str w), float_value := 0, text := none }

/-- An alarm waits while P02 ends the session and P01 begins the next; the tick
then takes the second off the new session's `record`. -/
theorem not_exact_leftover :
    ¬ Always (Clock.step deafPlatform) Clock.Exact Clock.init
      [press "P01", .alarm, press "P02", press "P01", .tick] := by
  intro h
  have hrun : ∃ r, exec (Clock.step deafPlatform) Clock.init
      [press "P01", .alarm, press "P02", press "P01", .tick] = some r ∧
      r.handled = [⟨1, some 2, 120⟩] ∧ r.sys.ctl.record = 119 := ⟨_, rfl, by decide, by decide⟩
  obtain ⟨r, hr, hhandled, -⟩ := hrun
  have hown := (h.final hr).own ⟨1, some 2, 120⟩ (by rw [hhandled]; exact List.mem_cons_self)
  exact absurd hown (by decide)

end StoneHMI
