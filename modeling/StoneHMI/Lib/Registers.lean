/-
  StoneHMI.Lib.Registers
  ──────────────────────
  **A BANK OF REGISTERS — a library of its own.**

  A bank holds a value at every address; `load` reads a run of addresses and
  `store` writes one.  What was stored is loaded again (`load_store_same`),
  and a store leaves what lies beside it (`load_store_before`,
  `load_store_behind`).
-/
import Mathlib.Data.List.Basic
import Mathlib.Data.List.Range

namespace Registers

variable {α : Type*}

/-- The `n` values from the address `a` on. -/
def load (f : ℕ → α) (a n : ℕ) : List α := (List.range n).map fun i => f (a + i)

/-- The values `xs` from the address `a` on, and the old ones elsewhere. -/
def store (f : ℕ → α) (a : ℕ) (xs : List α) : ℕ → α :=
  fun i => if a ≤ i then (xs[i - a]?).getD (f i) else f i

/-- A list with `xs` from the index `i` on. -/
def splice (ys : List α) (i : ℕ) (xs : List α) : List α :=
  ys.take i ++ xs ++ ys.drop (i + xs.length)

@[simp] theorem length_load (f : ℕ → α) (a n : ℕ) : (load f a n).length = n := by
  unfold load
  rw [List.length_map, List.length_range]

theorem getElem_load (f : ℕ → α) (a : ℕ) {n i : ℕ} (h : i < (load f a n).length) :
    (load f a n)[i] = f (a + i) := by
  simp only [load, List.getElem_map, List.getElem_range]

@[simp] theorem store_nil (f : ℕ → α) (a : ℕ) : store f a [] = f := by
  funext i
  unfold store
  simp

theorem store_before (f : ℕ → α) {a i : ℕ} (xs : List α) (h : i < a) : store f a xs i = f i := by
  unfold store
  rw [if_neg (by omega)]

theorem store_behind (f : ℕ → α) {a i : ℕ} {xs : List α} (h : a + xs.length ≤ i) :
    store f a xs i = f i := by
  unfold store
  rw [if_pos (by omega), List.getElem?_eq_none (by omega)]
  rfl

theorem store_add (f : ℕ → α) (a : ℕ) {xs : List α} {i : ℕ} (h : i < xs.length) :
    store f a xs (a + i) = xs[i] := by
  unfold store
  rw [if_pos (Nat.le_add_right a i), Nat.add_sub_cancel_left, List.getElem?_eq_getElem h]
  rfl

@[simp] theorem store_one_self (f : ℕ → α) (a : ℕ) (x : α) : store f a [x] a = x := by
  have hone : 0 < [x].length := Nat.zero_lt_one
  exact store_add f a hone

theorem store_one_of_ne (f : ℕ → α) {a i : ℕ} (x : α) (h : i ≠ a) : store f a [x] i = f i := by
  rcases Nat.lt_or_gt_of_ne h with hlt | hgt
  · exact store_before f [x] hlt
  · refine store_behind f ?_
    rw [List.length_singleton]
    omega

/-- **What was stored is loaded.** -/
theorem load_store_same (f : ℕ → α) (a : ℕ) (xs : List α) :
    load (store f a xs) a xs.length = xs := by
  refine List.ext_getElem (length_load ..) fun i _ h => ?_
  rw [getElem_load, store_add f a h]

/-- A store behind a run leaves it. -/
theorem load_store_before (f : ℕ → α) {a b n : ℕ} (xs : List α) (h : b + n ≤ a) :
    load (store f a xs) b n = load f b n := by
  unfold load
  refine List.map_congr_left fun i hi => store_before f xs ?_
  rw [List.mem_range] at hi
  omega

/-- A store before a run leaves it. -/
theorem load_store_behind (f : ℕ → α) {a b n : ℕ} {xs : List α} (h : a + xs.length ≤ b) :
    load (store f a xs) b n = load f b n := by
  unfold load
  refine List.map_congr_left fun i _ => store_behind f ?_
  omega

/-- One store, or two of its parts. -/
theorem store_append (f : ℕ → α) (a : ℕ) (xs ys : List α) :
    store f a (xs ++ ys) = store (store f a xs) (a + xs.length) ys := by
  funext i
  by_cases hbefore : i < a
  · rw [store_before f _ hbefore, store_before _ _ (by omega), store_before f _ hbefore]
  · obtain ⟨j, rfl⟩ : ∃ j, i = a + j := ⟨i - a, by omega⟩
    unfold store
    by_cases hj : j < xs.length
    · rw [if_pos (by omega), if_neg (by omega), if_pos (by omega), Nat.add_sub_cancel_left,
        List.getElem?_append_left hj]
    · rw [if_pos (by omega), if_pos (by omega), if_pos (by omega), Nat.add_sub_cancel_left,
        List.getElem?_append_right (by omega), List.getElem?_eq_none (by omega : xs.length ≤ j),
        show a + j - (a + xs.length) = j - xs.length by omega]
      rfl

/-- A store within a run replaces that part of it. -/
theorem load_store_within (f : ℕ → α) {a b n : ℕ} {xs : List α} (hab : a ≤ b)
    (hn : b + xs.length ≤ a + n) :
    load (store f b xs) a n = splice (load f a n) (b - a) xs := by
  unfold splice
  refine List.ext_getElem (by simp; omega) fun i hi _ => ?_
  rw [length_load] at hi
  rw [getElem_load]
  by_cases hbefore : i < b - a
  · rw [List.getElem_append_left (by simp; omega), List.getElem_append_left (by simp; omega),
      List.getElem_take, getElem_load, store_before f xs (by omega)]
  · by_cases hin : i < b - a + xs.length
    · have hlen : ((load f a n).take (b - a)).length = b - a := by simp; omega
      rw [List.getElem_append_left (by simp; omega), List.getElem_append_right (by omega)]
      obtain ⟨j, rfl⟩ : ∃ j, i = b - a + j := ⟨i - (b - a), by omega⟩
      rw [show a + (b - a + j) = b + j by omega, store_add f b (by omega)]
      simp [hlen]
    · rw [List.getElem_append_right (by simp; omega), List.getElem_drop, getElem_load,
        store_behind f (by omega)]
      congr 1
      simp
      omega

end Registers
