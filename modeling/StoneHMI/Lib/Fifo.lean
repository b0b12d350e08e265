/-
  StoneHMI.Lib.Fifo
  ─────────────────
  **A QUEUE OF FIXED CAPACITY — a library of its own.**

  The queue of a small real-time kernel: `send` appends at the back and
  drops the item when the queue is full, `receive` takes from the front.
  The capacity is part of the type, so a queue that holds too many items
  cannot be built.
-/
import Mathlib.Data.List.Basic

/-- A first-in-first-out queue of at most `cap` items, the oldest first. -/
structure Fifo (α : Type*) (cap : ℕ) where
  items : List α
  bound : items.length ≤ cap
  deriving DecidableEq, Repr

namespace Fifo

variable {α : Type*} {cap : ℕ}

@[ext] theorem ext {q r : Fifo α cap} (h : q.items = r.items) : q = r := by
  cases q
  cases r
  cases h
  rfl

def empty : Fifo α cap := ⟨[], Nat.zero_le cap⟩

def Full (q : Fifo α cap) : Prop := q.items.length = cap

instance (q : Fifo α cap) : Decidable q.Full := inferInstanceAs (Decidable (_ = _))

/-- `xQueueSend`: append `a`, or drop it when the queue is full. -/
def send (q : Fifo α cap) (a : α) : Fifo α cap :=
  if h : q.items.length < cap then
    ⟨q.items ++ [a], by rw [List.length_append, List.length_singleton]; omega⟩
  else q

/-- `xQueueReceive`: the oldest item and the queue without it. -/
def receive (q : Fifo α cap) : Option (α × Fifo α cap) :=
  match h : q.items with
  | [] => none
  | a :: rest => some (a, ⟨rest, by
      have hb := q.bound
      rw [h, List.length_cons] at hb
      omega⟩)

theorem send_of_full {q : Fifo α cap} (h : q.Full) (a : α) : q.send a = q := by
  unfold Full at h
  unfold send
  rw [dif_neg (by omega)]

theorem items_send_of_not_full {q : Fifo α cap} (h : ¬ q.Full) (a : α) :
    (q.send a).items = q.items ++ [a] := by
  have hb := q.bound
  unfold Full at h
  unfold send
  rw [dif_pos (by omega)]

theorem receive_eq_some_iff {q r : Fifo α cap} {a : α} :
    q.receive = some (a, r) ↔ q.items = a :: r.items := by
  obtain ⟨items, bound⟩ := q
  cases items with
  | nil =>
      constructor
      · intro h
        cases h
      · intro h
        cases h
  | cons b rest =>
      constructor
      · intro h
        cases h
        rfl
      · intro h
        obtain ⟨rfl, rfl⟩ := List.cons.inj h
        rfl

theorem receive_eq_none_iff {q : Fifo α cap} : q.receive = none ↔ q.items = [] := by
  obtain ⟨items, bound⟩ := q
  cases items with
  | nil => exact iff_of_true rfl rfl
  | cons b rest => exact iff_of_false (by simp [receive]) (by simp)

/-! Two queues of one capacity and one length, whatever they carry. -/

variable {β : Type*} {r : Fifo β cap}

theorem full_congr {q : Fifo α cap} (h : q.items.length = r.items.length) : q.Full ↔ r.Full := by
  unfold Full
  rw [h]

theorem length_send_congr {q : Fifo α cap} (h : q.items.length = r.items.length) (a : α) (b : β) :
    (q.send a).items.length = (r.send b).items.length := by
  by_cases hfull : q.Full
  · rw [send_of_full hfull, send_of_full ((full_congr h).mp hfull), h]
  · have hfull' : ¬ r.Full := fun hr => hfull ((full_congr h).mpr hr)
    rw [items_send_of_not_full hfull, items_send_of_not_full hfull', List.length_append,
      List.length_append, h]
    rfl

end Fifo
