/-
  StoneHMI.System.Handover
  ────────────────────────
  **FROM `uart_task` TO `stone_cmd` — five pointers to one global.**

  `receive_parse` decodes each frame into the global `STONER` and posts its
  address to a queue of five; `stone_cmd` takes an address and only then reads
  the widget, the float and the text.  All the addresses are the same, so the
  queue holds no contents: it counts how often `STONER` is still to be read.

  That is the shared cell of Lib.SharedCell (`decode_cell`, `take_cell`), and
  `faithful_iff` is exact over every interleaving: `stone_cmd` acts on the
  decoded frames in order if and only if each frame is decoded while the queue
  is empty, or repeats what `STONER` shows while the queue has room.
-/
import StoneHMI.Lib.Run
import StoneHMI.Lib.SharedCell
import StoneHMI.Lib.Fifo
import StoneHMI.Receive.Buffer

namespace StoneHMI

open Labelled SharedCell

/-! ## §1. The two tasks. -/

/-- A receive buffer with the frame of a widget, and what that frame carries. -/
structure WidgetFrame where
  buf : RxBuf
  item : Item
  carries : itemOf buf = some item

/-- `STONER`, the queue of pointers to it, and what has been decoded and acted
on so far. -/
structure Handover where
  receiver : Receiver
  Stone_CMD_buf_handle : Fifo Unit 5
  decoded : List Contents
  acted : List Contents

def Handover.init : Handover :=
  { receiver := Receiver.init, Stone_CMD_buf_handle := Fifo.empty, decoded := [], acted := [] }

/-- Whose turn it is. -/
inductive Turn where
  /-- `uart_task` has `f` decoded and posted. -/
  | decode (f : WidgetFrame)
  /-- `stone_cmd` takes a pointer and reads through it. -/
  | take

namespace Handover

def step (h : Handover) : Turn → Option Handover
  | .decode f =>
      match receive_parse f.buf.bytes h.receiver with
      | .ok (s, posted) =>
          some
            { receiver := s
              Stone_CMD_buf_handle :=
                if posted then h.Stone_CMD_buf_handle.send () else h.Stone_CMD_buf_handle
              decoded := h.decoded ++ [s.contents]
              acted := h.acted }
      | .error _ => none
  | .take =>
      match h.Stone_CMD_buf_handle.receive with
      | some (_, q) =>
          some { h with Stone_CMD_buf_handle := q, acted := h.acted ++ [h.receiver.contents] }
      | none => none

/-- Pointers that are still to be taken. -/
def waiting (h : Handover) : ℕ := h.Stone_CMD_buf_handle.items.length

/-- **The property.**  Should `stone_cmd` now take all the pointers that wait,
it has acted on the decoded frames, in order. -/
def Faithful (h : Handover) : Prop :=
  ∀ t, exec step h (List.replicate h.waiting .take) = some t → t.acted = t.decoded

/-- **The condition.**  The queue is empty, or it has room and the frame says
what `STONER` already shows. -/
def Unhurried (h : Handover) : Turn → Prop
  | .decode f =>
      h.Stone_CMD_buf_handle.items = [] ∨
        (¬ h.Stone_CMD_buf_handle.Full ∧ f.item.onto h.receiver.contents = h.receiver.contents)
  | .take => True

/-! ## §2. The shared cell. -/

/-- `STONER` as the cell, the queued pointers as the references to it. -/
def cell (h : Handover) : Cell Contents :=
  { content := h.receiver.contents
    refs := h.waiting
    written := h.decoded
    taken := h.acted }

/-- A frame of a widget is always decoded, and posted if there is room. -/
theorem decode_eq (h : Handover) (f : WidgetFrame) :
    ∃ s : Receiver, s.contents = f.item.onto h.receiver.contents ∧
      h.step (.decode f) = some
        { receiver := s
          Stone_CMD_buf_handle := h.Stone_CMD_buf_handle.send ()
          decoded := h.decoded ++ [s.contents]
          acted := h.acted } := by
  obtain ⟨s, hs, hc⟩ := receive_parse_item f.carries h.receiver
  refine ⟨s, hc, ?_⟩
  unfold step
  simp only [hs, if_true]

/-- **Decoding writes the cell**, and loses the reference when the queue is full. -/
theorem decode_cell {h t : Handover} {f : WidgetFrame} (ht : h.step (.decode f) = some t) :
    t.cell = if h.Stone_CMD_buf_handle.Full
      then h.cell.overwrite (f.item.onto h.receiver.contents)
      else h.cell.write (f.item.onto h.receiver.contents) := by
  obtain ⟨s, hc, hs⟩ := h.decode_eq f
  rw [hs, Option.some.injEq] at ht
  rw [← ht, ← hc]
  unfold cell waiting
  -- `STONER` changes either way; only the pointer may be dropped
  by_cases hfull : h.Stone_CMD_buf_handle.Full
  · rw [if_pos hfull, Fifo.send_of_full hfull]
    rfl
  · rw [if_neg hfull, Fifo.items_send_of_not_full hfull, List.length_append]
    rfl

/-- **Taking spends a reference.** -/
theorem take_cell {h t : Handover} (ht : h.step .take = some t) :
    t.cell = h.cell.take ∧ 0 < h.waiting := by
  unfold step at ht
  cases hq : h.Stone_CMD_buf_handle.receive with
  | none =>
      simp only [hq] at ht
      cases ht
  | some r =>
      obtain ⟨⟨⟩, q⟩ := r
      simp only [hq, Option.some.injEq] at ht
      rw [← ht]
      have hitems := Fifo.receive_eq_some_iff.mp hq
      have hlen : h.waiting = q.items.length + 1 := by
        unfold waiting
        rw [hitems, List.length_cons]
      refine ⟨?_, by omega⟩
      unfold cell Cell.take
      rw [hlen]
      rfl

/-- A pointer that waits can be taken. -/
theorem take_of_waiting {h : Handover} (hw : 0 < h.waiting) : ∃ t, h.step .take = some t := by
  unfold waiting at hw
  unfold step
  cases hq : h.Stone_CMD_buf_handle.receive with
  | some r => exact ⟨_, rfl⟩
  | none =>
      exfalso
      obtain ⟨a, rest, hitems⟩ := List.exists_cons_of_length_pos hw
      have hb := h.Stone_CMD_buf_handle.bound
      rw [hitems, List.length_cons] at hb
      have hsome := (Fifo.receive_eq_some_iff (q := h.Stone_CMD_buf_handle)
        (r := ⟨rest, by omega⟩) (a := a)).mpr hitems
      rw [hq] at hsome
      cases hsome

/-- Taking everything spends all references and shows what the cell holds. -/
theorem drain (n : ℕ) : ∀ h : Handover, h.waiting = n →
    ∃ t, exec step h (List.replicate n .take) = some t ∧
      t.acted = h.cell.shown ∧ t.decoded = h.decoded := by
  induction n with
  | zero =>
      intro h hn
      refine ⟨h, rfl, ?_, rfl⟩
      show h.acted = h.acted ++ List.replicate h.waiting h.receiver.contents
      rw [hn, List.replicate_zero, List.append_nil]
  | succ n ih =>
      intro h hn
      -- one take leaves `n` pointers and what is shown
      obtain ⟨u, hu⟩ := take_of_waiting (h := h) (by omega)
      obtain ⟨hcell, hpos⟩ := take_cell hu
      have hwait : u.waiting = h.waiting - 1 := congrArg Cell.refs hcell
      obtain ⟨t, ht, hacted, hdecoded⟩ := ih u (by omega)
      refine ⟨t, ?_, ?_, ?_⟩
      · rw [List.replicate_succ, exec_cons, hu]
        exact ht
      · rw [hacted, hcell]
        exact Cell.shown_take hpos
      · rw [hdecoded]
        exact congrArg Cell.written hcell

/-- The property is the order of the cell. -/
theorem faithful_iff_inOrder {h : Handover} : h.Faithful ↔ h.cell.InOrder := by
  obtain ⟨t, ht, hacted, hdecoded⟩ := drain h.waiting h rfl
  constructor
  · intro hf
    have heq := hf t ht
    rw [hacted, hdecoded] at heq
    exact heq
  · intro hord u hu
    rw [ht, Option.some.injEq] at hu
    rw [← hu, hacted, hdecoded]
    exact hord

/-! ## §3. Every interleaving. -/

theorem faithful_init : init.Faithful := by
  rw [faithful_iff_inOrder]
  show [] ++ List.replicate 0 _ = []
  rfl

/-- **Step.** -/
theorem faithful_step_iff {h t : Handover} {l : Turn} (hf : h.Faithful)
    (ht : h.step l = some t) : t.Faithful ↔ h.Unhurried l := by
  rw [faithful_iff_inOrder] at hf ⊢
  cases l with
  | take =>
      obtain ⟨hcell, hpos⟩ := take_cell ht
      rw [hcell, Cell.inOrder_take_iff hpos]
      exact ⟨fun _ => trivial, fun _ => hf⟩
  | decode f =>
      rw [decode_cell ht]
      by_cases hfull : h.Stone_CMD_buf_handle.Full
      · -- the pointer is dropped, so one frame is never acted on
        rw [if_pos hfull]
        constructor
        · intro hord
          exact absurd hord (Cell.not_inOrder_overwrite hf)
        · rintro (hempty | ⟨hroom, -⟩)
          · unfold Fifo.Full at hfull
            rw [hempty] at hfull
            cases hfull
          · exact absurd hfull hroom
      · -- every waiting pointer shows the new frame
        rw [if_neg hfull, Cell.inOrder_write_iff hf]
        show List.length _ = 0 ∨ _ ↔ _ ∨ _
        rw [List.length_eq_zero_iff]
        exact or_congr_right (and_iff_right hfull).symm

/-- **`stone_cmd` acts on the decoded frames in order, exactly when each frame
waits for the queue to be empty or repeats what is there.**  For all sequences of
widget frames and every interleaving of the two tasks. -/
theorem faithful_iff (ls : List Turn) :
    Always step Faithful init ls ↔ EachStep step Unhurried init ls :=
  always_iff_eachStep (I := fun _ => True) (fun _ _ _ _ _ => trivial)
    (fun _ _ _ _ hf ht => faithful_step_iff hf ht) trivial faithful_init ls

/-- Whenever the queue is empty, an unhurried run has acted on what it decoded. -/
theorem acted_eq_decoded {ls : List Turn} (hls : EachStep step Unhurried init ls) {h : Handover}
    (hh : exec step init ls = some h) (hempty : h.Stone_CMD_buf_handle.items = []) :
    h.acted = h.decoded := by
  have hf : h.Faithful := by
    refine (always_of_eachStep ?_ faithful_init hls).final hh
    intro s l t hs hl ht
    exact (faithful_step_iff hs ht).mpr hl
  refine (faithful_iff_inOrder.mp hf).taken_eq ?_
  show List.length _ = 0
  rw [hempty]
  rfl

/-- Two different frames in a row, with nothing taken in between, are one too many. -/
theorem not_faithful_pair {f g : WidgetFrame}
    (hne : g.item.onto (f.item.onto init.receiver.contents)
      ≠ f.item.onto init.receiver.contents) :
    ¬ Always step Faithful init [.decode f, .decode g] := by
  intro h
  obtain ⟨s, hs, ht⟩ := decode_eq init f
  obtain ⟨s', -, hu⟩ := decode_eq
    { receiver := s, Stone_CMD_buf_handle := init.Stone_CMD_buf_handle.send (),
      decoded := init.decoded ++ [s.contents], acted := init.acted } g
  have hfirst := h [.decode f] _ (List.prefix_append [_] [_]) (by
    rw [exec_cons, ht, Option.bind_some, exec_nil])
  have hsecond := h _ _ (List.prefix_refl _) (by
    rw [exec_cons, ht, Option.bind_some, exec_cons, hu, Option.bind_some, exec_nil])
  rcases (faithful_step_iff hfirst hu).mp hsecond with hempty | ⟨-, hsame⟩
  · cases hempty
  · rw [hs] at hsame
    exact hne hsame

end Handover

/-- The buttons `P01` and `P02`, one right after the other. -/
def hurriedP02 : List Turn :=
  [.decode ⟨pressedP01.inBuf, _, Frame.itemOf_inBuf rfl⟩,
    .decode ⟨pressedP02.inBuf, _, Frame.itemOf_inBuf rfl⟩]

/-- `stone_cmd` would act on `P02` twice and never on `P01`. -/
theorem not_faithful_hurriedP02 :
    ¬ Always Handover.step Handover.Faithful Handover.init hurriedP02 :=
  Handover.not_faithful_pair (by decide +kernel)

end StoneHMI
