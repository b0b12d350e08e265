/-
  StoneHMI.Lib.SharedCell
  ───────────────────────
  **ONE MUTABLE CELL BEHIND MANY REFERENCES — a library of its own.**

  A writer stores each item in the same cell and hands out one reference
  to it; a reader spends a reference and takes whatever the cell holds
  then.  Two questions are answered exactly, step by step:

    • `InOrder`   — do the readers take the written items, in order?
    • `SameItems` — do they take the written items, in some order?

  Both survive a write exactly when no reference is outstanding or the
  written item is the one already in the cell (`inOrder_write_iff`,
  `sameItems_write_iff`), and neither survives a write whose reference is
  dropped.
-/
import Mathlib.Data.List.Perm.Basic

namespace SharedCell

variable {α : Type*}

/-- The cell, the references to it that are still to be spent, and what has
been written and taken so far. -/
structure Cell (α : Type*) where
  content : α
  refs : Nat
  written : List α
  taken : List α

namespace Cell

/-- Store `a` and hand out one more reference. -/
def write (a : α) (c : Cell α) : Cell α :=
  { content := a, refs := c.refs + 1, written := c.written ++ [a], taken := c.taken }

/-- Store `a`, but lose the reference that should announce it. -/
def overwrite (a : α) (c : Cell α) : Cell α :=
  { content := a, refs := c.refs, written := c.written ++ [a], taken := c.taken }

/-- Spend one reference. -/
def take (c : Cell α) : Cell α :=
  { content := c.content, refs := c.refs - 1, written := c.written,
    taken := c.taken ++ [c.content] }

/-- What has been taken, then what the outstanding references would take now. -/
def shown (c : Cell α) : List α := c.taken ++ List.replicate c.refs c.content

/-- The items come out as they were written, in order. -/
def InOrder (c : Cell α) : Prop := c.shown = c.written

/-- The items come out as they were written, in some order. -/
def SameItems (c : Cell α) : Prop := c.shown.Perm c.written

theorem InOrder.sameItems {c : Cell α} (h : c.InOrder) : c.SameItems :=
  List.Perm.of_eq h

/-! ## §1. Taking keeps both. -/

theorem shown_take {c : Cell α} (hc : 0 < c.refs) : c.take.shown = c.shown := by
  obtain ⟨n, hn⟩ := Nat.exists_eq_add_of_lt hc
  have hrefs : c.refs = n + 1 := by omega
  show (c.taken ++ [c.content]) ++ List.replicate (c.refs - 1) c.content
    = c.taken ++ List.replicate c.refs c.content
  rw [hrefs, Nat.add_sub_cancel, List.replicate_succ, List.append_assoc]
  rfl

theorem inOrder_take_iff {c : Cell α} (hc : 0 < c.refs) :
    c.take.InOrder ↔ c.InOrder := by
  unfold InOrder
  rw [shown_take hc]
  rfl

theorem sameItems_take_iff {c : Cell α} (hc : 0 < c.refs) :
    c.take.SameItems ↔ c.SameItems := by
  unfold SameItems
  rw [shown_take hc]
  rfl

/-! ## §2. Writing keeps them exactly when nothing visible changes. -/

theorem shown_write (a : α) (c : Cell α) :
    (c.write a).shown = (c.taken ++ List.replicate c.refs a) ++ [a] := by
  show c.taken ++ List.replicate (c.refs + 1) a = _
  rw [List.replicate_succ', List.append_assoc]

theorem replicate_perm_iff {a b : α} (n : Nat) :
    (List.replicate n a).Perm (List.replicate n b) ↔ n = 0 ∨ a = b := by
  rw [List.perm_replicate]
  constructor
  · intro h
    cases n with
    | zero => exact Or.inl rfl
    | succ n =>
        rw [List.replicate_succ, List.replicate_succ, List.cons.injEq] at h
        exact Or.inr h.1
  · rintro (h | h)
    · rw [h]
      rfl
    · rw [h]

theorem sameItems_write_iff {a : α} {c : Cell α} (h : c.SameItems) :
    (c.write a).SameItems ↔ c.refs = 0 ∨ a = c.content := by
  have hold : (c.taken ++ List.replicate c.refs c.content).Perm c.written := h
  show (c.write a).shown.Perm (c.written ++ [a]) ↔ _
  rw [shown_write, List.perm_append_right_iff, ← replicate_perm_iff]
  -- what was taken cancels; the outstanding references all show `a`
  constructor
  · intro hnew
    exact (List.perm_append_left_iff c.taken).mp (hnew.trans hold.symm)
  · intro hrep
    exact (hrep.append_left c.taken).trans hold

theorem inOrder_write_iff {a : α} {c : Cell α} (h : c.InOrder) :
    (c.write a).InOrder ↔ c.refs = 0 ∨ a = c.content := by
  constructor
  · intro hnew
    exact (sameItems_write_iff h.sameItems).mp hnew.sameItems
  · intro hor
    have hrep : List.replicate c.refs a = List.replicate c.refs c.content := by
      rcases hor with h0 | heq
      · rw [h0]
        rfl
      · rw [heq]
    show (c.write a).shown = c.written ++ [a]
    rw [shown_write, hrep]
    exact congrArg (· ++ [a]) h

/-! ## §3. A write without its reference loses an item. -/

theorem SameItems.length {c : Cell α} (h : c.SameItems) :
    c.taken.length + c.refs = c.written.length := by
  have hlen := h.length_eq
  rwa [shown, List.length_append, List.length_replicate] at hlen

theorem not_sameItems_overwrite {a : α} {c : Cell α} (h : c.SameItems) :
    ¬ (c.overwrite a).SameItems := by
  -- one more is written than will ever be taken
  intro hnew
  have h₁ := h.length
  have h₂ : c.taken.length + c.refs = (c.written ++ [a]).length := hnew.length
  rw [List.length_append, List.length_singleton] at h₂
  omega

theorem not_inOrder_overwrite {a : α} {c : Cell α} (h : c.InOrder) :
    ¬ (c.overwrite a).InOrder :=
  fun hnew => not_sameItems_overwrite h.sameItems hnew.sameItems

/-- Once no reference is outstanding, the items taken are the items written. -/
theorem InOrder.taken_eq {c : Cell α} (h : c.InOrder) (h0 : c.refs = 0) :
    c.taken = c.written := by
  have hs : c.taken ++ List.replicate c.refs c.content = c.written := h
  rwa [h0, List.replicate_zero, List.append_nil] at hs

end Cell

end SharedCell
