/-
  StoneHMI.System.Refinement
  ──────────────────────────
  **THE PANEL IS THE CONTROLLER ON THE REPORTS, IN ORDER.**

  `Sys` is the abstract level: a controller that is handed items, alarms and
  ticks.  `panel_refines` connects the bytes to it.  In a run over the line
  where `uart_task` decodes a notice only while no pointer waits, the
  controller's part of the panel is a run of `Sys`; its steps are the
  controller's moves of the run, one for one, and the items it is handed are
  what the notices of the line show, in order, none lost and none twice.

  The blocks that the decoders clear before they free them have room for it
  (`Roomy`), or nothing of this would be sure.

  The queue is the shared cell of Lib.SharedCell: decoding a notice writes it
  and taking a pointer spends a reference, so `Cell.InOrder` is the invariant.
-/
import StoneHMI.Lib.SharedCell
import StoneHMI.System.Drive

namespace StoneHMI

open Labelled SharedCell

/-! ## §1. The abstract run. -/

/-- What `STONER` shows after each notice in turn. -/
def shows (rs : List Notice) : List Contents :=
  (List.range rs.length).map fun i => after (rs.take (i + 1))

theorem length_shows (rs : List Notice) : (shows rs).length = rs.length := by
  unfold shows
  rw [List.length_map, List.length_range]

theorem shows_take_succ {rs : List Notice} {i : ℕ} (h : i < rs.length) :
    (shows rs).take (i + 1) = (shows rs).take i ++ [after (rs.take (i + 1))] := by
  rw [List.take_add_one]
  congr 1
  unfold shows
  rw [List.getElem?_map, List.getElem?_range h]
  rfl

/-- The contents that an event hands over. -/
def Ev.contents? : Ev → Option Contents
  | .item c => some c
  | _ => none

/-- The move of the panel that an event stands for. -/
def Ev.move : Ev → Move
  | .item _ => .take
  | .alarm => .alarm
  | .tick => .tick

/-- The moves of `stone_cmd`, of the timer and of `timer_handle`. -/
def Move.ofController : Move → Bool
  | .take | .alarm | .tick => true
  | .read _ | .parse => false

/-- **The condition.**  A notice is decoded only while no pointer waits. -/
def KeepsUp (p : Panel) (m : Move) : Prop := m = .parse → p.Stone_CMD_buf_handle.items = []

/-! ## §2. The simulation. -/

namespace Panel

/-- `STONER` as the cell, with the notices decoded and the contents handed over. -/
def cell (rs : List Notice) (p : Panel) (es : List Ev) : Cell Contents :=
  { content := p.receiver.contents
    refs := p.waiting
    written := (shows rs).take p.handled
    taken := es.filterMap Ev.contents? }

/-- **The relation.**  The controller's part is reached by `es`, which has the
controller's moves, and the cell is in order. -/
structure Simulates (P : Platform) (rs : List Notice) (ls : List Move) (p : Panel)
    (es : List Ev) : Prop where
  reached : exec (Sys.step P) Sys.init es = some p.sys
  moves : es.map Ev.move = ls.filter Move.ofController
  inOrder : (p.cell rs es).InOrder

variable {P : Platform} {rs : List Notice} {ls : List Move} {p t : Panel} {es : List Ev}

/-- A step of the controller is an event of `Sys`. -/
theorem Simulates.event {e : Ev} {u : Sys} (h : p.Simulates P rs ls es)
    (hu : p.sys.step P e = some u) (ht : t.sys = u) {m : Move} (hm : m = e.move)
    (hcell : (t.cell rs (es ++ [e])).InOrder) : t.Simulates P rs (ls ++ [m]) (es ++ [e]) := by
  refine ⟨?_, ?_, hcell⟩
  · rw [exec_concat, h.reached, ht]
    exact hu
  · rw [List.map_append, List.filter_append, h.moves, hm]
    cases e <;> rfl

/-- The other steps are none. -/
theorem Simulates.stutter (h : p.Simulates P rs ls es) (ht : t.sys = p.sys) {m : Move}
    (hm : m.ofController = false) (hcell : (t.cell rs es).InOrder) :
    t.Simulates P rs (ls ++ [m]) es := by
  refine ⟨?_, ?_, hcell⟩
  · rw [ht]
    exact h.reached
  · rw [List.filter_append, h.moves]
    simp [hm]

/-- **Step.**  Reading and decoding stutter, and the controller's moves are events. -/
theorem Simulates.step {data buf : List UInt8} (hbuf : buf.length = RX_LEN)
    (hfeeds : Feeds rs ls) (hp : exec (step P) (start data buf) ls = some p)
    (h : p.Simulates P rs ls es) {m : Move} (hm : KeepsUp p m) (ht : p.step P m = some t) :
    ∃ fs, t.Simulates P rs (ls ++ [m]) fs := by
  have hcases := step_cases ht
  obtain ⟨c, rfl, -, rfl⟩ | ⟨-, -, -, rfl, -⟩ | ⟨q, u, rfl, hq, hu, rfl⟩ |
    ⟨e, u, he, hu, rfl⟩ := hcases
  · refine ⟨es, ?_⟩
    refine h.stutter ?_ ?_ h.inOrder <;> rfl
  · -- decoding writes the cell while no reference to it is outstanding
    obtain ⟨r, s, hget, hleaves, rfl⟩ := parse_notice hbuf hfeeds hp ht
    refine ⟨es, ?_⟩
    have hempty : p.Stone_CMD_buf_handle.items = [] := hm rfl
    have hrefs : (p.cell rs es).refs = 0 := List.length_eq_zero_iff.mpr hempty
    have hwrite := (Cell.inOrder_write_iff (a := s.contents) h.inOrder).mpr (Or.inl hrefs)
    have hlt : p.handled < rs.length := (List.getElem?_eq_some_iff.mp hget).1
    have hshown : s.contents = after (rs.take (p.handled + 1)) := by
      rw [hleaves.contents, after_take_succ hget, (decoded_run hbuf ls p hfeeds hp).contents]
    have hroom : ¬ p.Stone_CMD_buf_handle.Full := by
      unfold Fifo.Full
      rw [hempty]
      decide
    have hcell : cell rs { p with
        handled := p.handled + 1
        receiver := s
        Stone_CMD_buf_handle := p.Stone_CMD_buf_handle.send () } es
        = (p.cell rs es).write s.contents := by
      unfold cell waiting Cell.write
      rw [Fifo.items_send_of_not_full hroom, List.length_append, shows_take_succ hlt, ← hshown]
      rfl
    refine h.stutter ?_ ?_ (hcell ▸ hwrite) <;> rfl
  · -- taking a pointer hands over what the cell shows
    refine ⟨es ++ [.item p.receiver.contents], ?_⟩
    have hitems := Fifo.receive_eq_some_iff.mp hq
    have hrefs : (p.cell rs es).refs = q.items.length + 1 := by
      show p.Stone_CMD_buf_handle.items.length = _
      rw [hitems, List.length_cons]
    have hcell : cell rs { p with Stone_CMD_buf_handle := q, sys := u }
        (es ++ [.item p.receiver.contents]) = (p.cell rs es).take := by
      unfold Cell.take
      rw [hrefs]
      unfold cell
      rw [List.filterMap_append]
      rfl
    have htaken := (Cell.inOrder_take_iff (by omega)).mpr h.inOrder
    refine h.event hu ?_ ?_ (hcell ▸ htaken) <;> rfl
  · refine ⟨es ++ [e], ?_⟩
    -- an alarm and a tick hand nothing over
    have hnone : e.contents? = none ∧ m = e.move := by
      rcases he with ⟨rfl, rfl⟩ | ⟨rfl, rfl⟩ <;> exact ⟨rfl, rfl⟩
    have hcell : cell rs { p with sys := u } (es ++ [e]) = p.cell rs es := by
      unfold cell
      rw [List.filterMap_append, List.filterMap_cons_none hnone.1, List.filterMap_nil,
        List.append_nil]
      rfl
    exact h.event hu (by rfl) hnone.2 (hcell ▸ h.inOrder)

end Panel

/-! ## §3. Runs. -/

theorem Panel.simulates_run {P : Platform} {rs : List Notice} {data buf : List UInt8}
    (hbuf : buf.length = RX_LEN) (ls : List Move) :
    ∀ p, Feeds rs ls → EachStep (Panel.step P) KeepsUp (Panel.start data buf) ls →
      exec (Panel.step P) (Panel.start data buf) ls = some p → ∃ es, p.Simulates P rs ls es := by
  induction ls using List.reverseRecOn with
  | nil =>
      intro p _ _ hp
      rw [exec_nil, Option.some.injEq] at hp
      rw [← hp]
      exact ⟨[], rfl, rfl, rfl⟩
  | append_singleton ls m ih =>
      intro p hfeeds hup hp
      rw [exec_concat, Option.bind_eq_some_iff] at hp
      obtain ⟨u, hu, hstep⟩ := hp
      have hup' : EachStep (Panel.step P) KeepsUp (Panel.start data buf) ls :=
        fun pre l a b hpre => hup pre l a b (hpre.trans (List.prefix_append _ _))
      obtain ⟨es, hes⟩ := ih u hfeeds.of_append hup' hu
      exact hes.step hbuf hfeeds.of_append hu (hup ls m u p (List.prefix_refl _) hu hstep) hstep

/-- In a run with one call of `receive_parse`, nothing waits before it. -/
theorem keepsUp_feed {P : Platform} {p₀ : Panel} (h₀ : p₀.Stone_CMD_buf_handle.items = [])
    (r : Notice) : EachStep (Panel.step P) KeepsUp p₀ (feed r ++ [.take]) := by
  intro pre l t u hpre ht htu hl
  subst hl
  -- `.parse` is the third of the four moves
  have hget : (feed r ++ [Move.take])[pre.length]? = some .parse := by
    obtain ⟨tl, htl⟩ := hpre
    rw [← htl, List.append_assoc, List.getElem?_append_right (le_refl _), Nat.sub_self]
    rfl
  have htwo : pre.length = 2 := by
    match hn : pre.length with
    | 0 | 1 | 3 =>
        rw [hn] at hget
        cases hget
    | 2 => rfl
    | n + 4 =>
        rw [hn] at hget
        cases hget
  have hreads : pre = [.read (r.bytes.take 1), .read (r.bytes.drop 1)] := by
    obtain ⟨tl, htl⟩ := hpre
    have := congrArg (List.take 2) htl
    rw [List.append_assoc, List.take_append_of_le_length (by omega),
      List.take_of_length_le (by omega)] at this
    exact this
  rw [hreads, exec_cons, Option.bind_eq_some_iff] at ht
  obtain ⟨a, ha, hrest⟩ := ht
  rw [exec_cons, Option.bind_eq_some_iff] at hrest
  obtain ⟨b, hb, hlast⟩ := hrest
  rw [exec_nil, Option.some.injEq] at hlast
  unfold Panel.step at ha hb
  simp only [Option.ite_none_right_eq_some, Option.some.injEq] at ha hb
  rw [← hlast, ← hb.2, ← ha.2]
  exact h₀

theorem roomy_P01 : Roomy [noticeP01] := by decide

end StoneHMI
