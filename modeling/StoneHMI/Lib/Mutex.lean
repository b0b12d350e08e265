/-
  StoneHMI.Lib.Mutex
  ──────────────────
  **PROGRAMS UNDER ONE MUTEX — a library of its own.**

  A program of a task acts on a shared state, and may take and give back a
  mutex; either may be refused.  It is `Guarded` when it takes the mutex
  before it acts, and on every path gives it back once and then returns.
  Nothing in a step asks whether the acting task holds the mutex: that it
  does follows from the programs.

    • `Prog.alone`   — a program without other tasks beside it,
    • `World.step`   — one step of one task, among any number of them,
    • `serializable` — in every interleaving, the shared state is what the
      programs make of it one after the other, in the order in which they
      took the mutex, and each returns what it returns there,
    • `gives_back`   — whoever holds the mutex gives it back by itself.
-/
import StoneHMI.Lib.Run
import Mathlib.Logic.Function.Basic

namespace Mutex

open Labelled

/-! ## §1. Programs. -/

/-- What a task does next, depending on what it has read so far. -/
inductive Prog (σ ρ : Type) where
  | ret (r : ρ)
  /-- Take the mutex; whether it could. -/
  | take (k : Bool → Prog σ ρ)
  /-- Give it back; whether it could. -/
  | give (k : Bool → Prog σ ρ)
  /-- Change the shared state, and see what it was. -/
  | act (f : σ → σ) (k : σ → Prog σ ρ)

namespace Prog

variable {σ ρ τ : Type}

/-- One program, and then another that depends on its result. -/
def bind : Prog σ ρ → (ρ → Prog σ τ) → Prog σ τ
  | ret r, g => g r
  | take k, g => take fun b => (k b).bind g
  | give k, g => give fun b => (k b).bind g
  | act f k, g => act f fun s => (k s).bind g

/-- Only acts, up to its result. -/
def Plain : Prog σ ρ → Prop
  | ret _ => True
  | take _ => False
  | give _ => False
  | act _ k => ∀ s, (k s).Plain

/-- Holding the mutex: acts, then gives it back and returns. -/
def Inside : Prog σ ρ → Prop
  | ret _ => False
  | take _ => False
  | give k => ∃ r, k true = ret r
  | act _ k => ∀ s, (k s).Inside

/-- Returns at once, or takes the mutex first — and returns, if it cannot. -/
def Guarded : Prog σ ρ → Prop
  | ret _ => True
  | take k => (k true).Inside ∧ ∃ r, k false = ret r
  | give _ => False
  | act _ _ => False

/-- With nobody else about, everything is granted. -/
def alone : Prog σ ρ → σ → σ × ρ
  | ret r, s => (s, r)
  | take k, s => (k true).alone s
  | give k, s => (k true).alone s
  | act f k, s => (k s).alone (f s)

/-- A plain program and one that holds the mutex make one that holds it. -/
theorem Plain.inside_bind {g : ρ → Prog σ τ} (hg : ∀ r, (g r).Inside) :
    ∀ {p : Prog σ ρ}, p.Plain → (p.bind g).Inside
  | ret r, _ => hg r
  | take _, h => h.elim
  | give _, h => h.elim
  | act _ _, h => fun s => Plain.inside_bind hg (h s)

theorem Plain.bind {g : ρ → Prog σ τ} (hg : ∀ r, (g r).Plain) :
    ∀ {p : Prog σ ρ}, p.Plain → (p.bind g).Plain
  | ret r, _ => hg r
  | take _, h => h.elim
  | give _, h => h.elim
  | act _ _, h => fun s => Plain.bind hg (h s)

/-- A program that holds the mutex may turn its result into another. -/
theorem Inside.bind_ret {g : ρ → Prog σ τ} (hg : ∀ r, ∃ t, g r = ret t) :
    ∀ {p : Prog σ ρ}, p.Inside → (p.bind g).Inside
  | ret _, h => h.elim
  | take _, h => h.elim
  | give k, h => by
      obtain ⟨r, hr⟩ := h
      obtain ⟨t, ht⟩ := hg r
      refine ⟨t, ?_⟩
      show (k true).bind g = _
      rw [hr]
      exact ht
  | act _ _, h => fun s => Inside.bind_ret hg (h s)

theorem Guarded.bind_ret {g : ρ → Prog σ τ} (hg : ∀ r, ∃ t, g r = ret t) :
    ∀ {p : Prog σ ρ}, p.Guarded → (p.bind g).Guarded
  | ret r, _ => by
      obtain ⟨t, ht⟩ := hg r
      show (g r).Guarded
      rw [ht]
      trivial
  | take k, h => by
      obtain ⟨r, hr⟩ := h.2
      obtain ⟨t, ht⟩ := hg r
      refine ⟨h.1.bind_ret hg, t, ?_⟩
      show (k false).bind g = _
      rw [hr]
      exact ht
  | give _, h => h.elim
  | act _ _, h => h.elim

/-- Every action goes along `R`. -/
def Respects (R : σ → σ → Prop) : Prog σ ρ → Prop
  | ret _ => True
  | take k => ∀ b, (k b).Respects R
  | give k => ∀ b, (k b).Respects R
  | act f k => (∀ s, R s (f s)) ∧ ∀ s, (k s).Respects R

theorem Respects.bind {R : σ → σ → Prop} {g : ρ → Prog σ τ} (hg : ∀ r, (g r).Respects R) :
    ∀ {p : Prog σ ρ}, p.Respects R → (p.bind g).Respects R
  | ret r, _ => hg r
  | take _, h => fun b => Respects.bind hg (h b)
  | give _, h => fun b => Respects.bind hg (h b)
  | act _ _, h => ⟨h.1, fun s => Respects.bind hg (h.2 s)⟩

/-- Then so does the whole program. -/
theorem Respects.alone {R : σ → σ → Prop} (hrefl : ∀ s, R s s)
    (htrans : ∀ {s t u}, R s t → R t u → R s u) :
    ∀ {p : Prog σ ρ}, p.Respects R → ∀ s, R s (p.alone s).1
  | ret _, _, s => hrefl s
  | take _, h, s => Respects.alone hrefl htrans (h true) s
  | give _, h, s => Respects.alone hrefl htrans (h true) s
  | act f _, h, s => htrans (h.1 s) (Respects.alone hrefl htrans (h.2 s) (f s))

/-- What two programs do, one does after the other. -/
theorem alone_bind (g : ρ → Prog σ τ) :
    ∀ (p : Prog σ ρ) (s : σ), (p.bind g).alone s = (g (p.alone s).2).alone (p.alone s).1
  | ret _, _ => rfl
  | take k, s => alone_bind g (k true) s
  | give k, s => alone_bind g (k true) s
  | act f k, s => alone_bind g (k s) (f s)

end Prog

/-! ## §2. Tasks. -/

/-- A program that a task is in, what is left of it, and the turn in which it took
the mutex, once it has. -/
structure Job (σ ρ : Type) where
  prog : Prog σ ρ
  rest : Prog σ ρ
  turn : Option ℕ

/-- A program that has returned. -/
structure Returned (σ ρ : Type) where
  prog : Prog σ ρ
  turn : Option ℕ
  result : ρ

/-- The shared state, who holds the mutex, and every task's program; and for the
record, the programs in the order in which they took the mutex, and those that
have returned. -/
structure World (ι σ ρ : Type) where
  shared : σ
  holder : Option ι
  job : ι → Option (Job σ ρ)
  order : List (Prog σ ρ)
  returned : List (Returned σ ρ)

/-- A step of the task `i`. -/
inductive Label (ι σ ρ : Type) where
  | call (i : ι) (p : Prog σ ρ)
  /-- The next step of its program; a mutex is taken, or waited for in vain. -/
  | go (i : ι) (granted : Bool)

variable {ι σ ρ : Type}

/-- Nobody does anything yet. -/
def World.start (s₀ : σ) : World ι σ ρ :=
  { shared := s₀, holder := none, job := fun _ => none, order := [], returned := [] }

section Steps

variable [DecidableEq ι]

/-- The task `i` goes on with `rest`. -/
def World.goOn (w : World ι σ ρ) (i : ι) (j : Job σ ρ) (rest : Prog σ ρ) : World ι σ ρ :=
  { w with job := Function.update w.job i (some { j with rest := rest }) }

def World.step (w : World ι σ ρ) : Label ι σ ρ → Option (World ι σ ρ)
  | .call i p =>
      match w.job i with
      | some _ => none
      | none => some { w with job := Function.update w.job i (some ⟨p, p, none⟩) }
  | .go i granted =>
      match w.job i with
      | none => none
      | some j =>
          match j.rest with
          | .ret r =>
              some { w with
                job := Function.update w.job i none
                returned := w.returned ++ [⟨j.prog, j.turn, r⟩] }
          | .take k =>
              if granted then
                if w.holder.isNone then
                  some { w.goOn i { j with turn := some w.order.length } (k true) with
                    holder := some i
                    order := w.order ++ [j.prog] }
                else none
              else some (w.goOn i j (k false))
          | .give k =>
              if w.holder = some i then some { w.goOn i j (k true) with holder := none }
              else some (w.goOn i j (k false))
          | .act f k => some { w.goOn i j (k w.shared) with shared := f w.shared }

/-- What a step can do. -/
theorem World.step_cases {w v : World ι σ ρ} {l : Label ι σ ρ} (h : w.step l = some v) :
    (∃ i p, l = .call i p ∧ w.job i = none ∧
      v = { w with job := Function.update w.job i (some ⟨p, p, none⟩) }) ∨
    ∃ i b j, l = .go i b ∧ w.job i = some j ∧
      ((∃ r, j.rest = .ret r ∧ v = { w with
          job := Function.update w.job i none
          returned := w.returned ++ [⟨j.prog, j.turn, r⟩] }) ∨
        (∃ k, j.rest = .take k ∧ w.holder = none ∧
          v = { w.goOn i { j with turn := some w.order.length } (k true) with
            holder := some i
            order := w.order ++ [j.prog] }) ∨
        (∃ k, j.rest = .take k ∧ v = w.goOn i j (k false)) ∨
        (∃ k, j.rest = .give k ∧ w.holder = some i ∧
          v = { w.goOn i j (k true) with holder := none }) ∨
        (∃ k, j.rest = .give k ∧ w.holder ≠ some i ∧ v = w.goOn i j (k false)) ∨
        ∃ f k, j.rest = .act f k ∧
          v = { w.goOn i j (k w.shared) with shared := f w.shared }) := by
  cases l with
  | call i p =>
      simp only [step] at h
      cases hi : w.job i with
      | some j =>
          rw [hi] at h
          cases h
      | none =>
          rw [hi] at h
          exact Or.inl ⟨i, p, rfl, hi, (Option.some.inj h).symm⟩
  | go i b =>
      simp only [step] at h
      cases hi : w.job i with
      | none =>
          rw [hi] at h
          cases h
      | some j =>
          refine Or.inr ⟨i, b, j, rfl, hi, ?_⟩
          rw [hi] at h
          cases hr : j.rest with
          | ret r =>
              simp only [hr, Option.some.injEq] at h
              exact Or.inl ⟨r, rfl, h.symm⟩
          | take k =>
              simp only [hr] at h
              split at h
              · split at h
                · rename_i hfree
                  exact Or.inr (Or.inl ⟨k, rfl, Option.isNone_iff_eq_none.mp hfree,
                    (Option.some.inj h).symm⟩)
                · cases h
              · exact Or.inr (Or.inr (Or.inl ⟨k, rfl, (Option.some.inj h).symm⟩))
          | give k =>
              simp only [hr] at h
              split at h
              · rename_i hold
                exact Or.inr (Or.inr (Or.inr (Or.inl ⟨k, rfl, hold, (Option.some.inj h).symm⟩)))
              · rename_i hnot
                exact Or.inr (Or.inr (Or.inr (Or.inr (Or.inl
                  ⟨k, rfl, hnot, (Option.some.inj h).symm⟩))))
          | act f k =>
              simp only [hr, Option.some.injEq] at h
              exact Or.inr (Or.inr (Or.inr (Or.inr (Or.inr ⟨f, k, rfl, h.symm⟩))))

end Steps

/-! ## §3. One after the other. -/

/-- The programs one after the other, each alone. -/
def serial (s₀ : σ) (ps : List (Prog σ ρ)) : σ := ps.foldl (fun s p => (p.alone s).1) s₀

/-- What the `n`-th of them returns. -/
def outcome (s₀ : σ) (ps : List (Prog σ ρ)) (n : ℕ) : Option ρ :=
  ps[n]?.map fun p => (p.alone (serial s₀ (ps.take n))).2

theorem serial_concat (s₀ : σ) (ps : List (Prog σ ρ)) (p : Prog σ ρ) :
    serial s₀ (ps ++ [p]) = (p.alone (serial s₀ ps)).1 := by
  unfold serial
  rw [List.foldl_append]
  rfl

/-- Later programs do not change what an earlier one returns. -/
theorem outcome_concat {s₀ : σ} {ps : List (Prog σ ρ)} {p : Prog σ ρ} {n : ℕ} {r : ρ}
    (h : outcome s₀ ps n = some r) : outcome s₀ (ps ++ [p]) n = some r := by
  unfold outcome at h ⊢
  obtain ⟨q, hq, hr⟩ := Option.map_eq_some_iff.mp h
  have hn : n < ps.length := (List.getElem?_eq_some_iff.mp hq).1
  rw [List.getElem?_append_left hn, hq, List.take_append_of_le_length hn.le]
  exact congrArg some hr

/-- **Simulation.**  If each of some programs goes from an abstract state to another
as `T` says, then so do all of them, one after the other. -/
theorem serial_states {γ α : Type} {prog : γ → Prog σ ρ} {I : σ → α → Prop}
    {T : γ → α → α → ρ → Prop} :
    ∀ cs : List γ, (∀ c ∈ cs, ∀ s a, I s a →
        ∃ a', I ((prog c).alone s).1 a' ∧ T c a a' ((prog c).alone s).2) →
      ∀ s a, I s a → ∃ states : ℕ → α, states 0 = a ∧
        I (serial s (cs.map prog)) (states cs.length) ∧
        ∀ (n : ℕ) (c : γ), cs[n]? = some c →
          T c (states n) (states (n + 1))
            ((prog c).alone (serial s ((cs.take n).map prog))).2 := by
  intro cs
  induction cs with
  | nil => exact fun _ s a ha => ⟨fun _ => a, rfl, ha, fun n c hn => by cases hn⟩
  | cons c cs ih =>
      intro hT s a ha
      obtain ⟨a', ha', hstep⟩ := hT c List.mem_cons_self s a ha
      obtain ⟨states, hzero, hlast, hsteps⟩ :=
        ih (fun d hd => hT d (List.mem_cons_of_mem c hd)) _ a' ha'
      refine ⟨fun n => Nat.casesOn (motive := fun _ => α) n a states, rfl, hlast, fun n d hn => ?_⟩
      cases n with
      | zero =>
          obtain rfl : c = d := Option.some.inj hn
          show T c a (states 0) _
          rw [hzero]
          exact hstep
      | succ n => exact hsteps n d hn

/-- The result of a program that never held the mutex. -/
def Prog.Refused (p : Prog σ ρ) (r : ρ) : Prop := p = .ret r ∨ ∃ k, p = .take k ∧ k false = .ret r

/-! ## §4. The invariant. -/

/-- Where the task `i` is in its program. -/
inductive Phase (s₀ : σ) (w : World ι σ ρ) (i : ι) (j : Job σ ρ) : Prop where
  | before (hturn : j.turn = none) (hrest : j.rest = j.prog) (hprog : j.prog.Guarded)
  | refused (r : ρ) (hturn : j.turn = none) (hrest : j.rest = .ret r) (hr : j.prog.Refused r)
  /-- It holds the mutex, and will do to the shared state what is to be done. -/
  | inside (n : ℕ) (hturn : j.turn = some n) (hlast : n + 1 = w.order.length)
      (horder : w.order[n]? = some j.prog) (hholder : w.holder = some i) (hrest : j.rest.Inside)
      (halone : j.rest.alone w.shared = j.prog.alone (serial s₀ (w.order.take n)))
  | done (n : ℕ) (r : ρ) (hturn : j.turn = some n) (hrest : j.rest = .ret r)
      (horder : w.order[n]? = some j.prog) (hr : outcome s₀ w.order n = some r)

/-- A returned program was refused the mutex, or returned what it returns in its turn. -/
def Accounted (s₀ : σ) (order : List (Prog σ ρ)) (e : Returned σ ρ) : Prop :=
  match e.turn with
  | none => e.prog.Refused e.result
  | some n => order[n]? = some e.prog ∧ outcome s₀ order n = some e.result

structure Invariant (s₀ : σ) (w : World ι σ ρ) : Prop where
  phase : ∀ i j, w.job i = some j → Phase s₀ w i j
  free : w.holder = none → w.shared = serial s₀ w.order
  held : ∀ i, w.holder = some i → ∃ j, w.job i = some j ∧ j.rest.Inside
  accounted : ∀ e ∈ w.returned, Accounted s₀ w.order e

/-- A call brings a guarded program. -/
def Label.Guarded : Label ι σ ρ → Prop
  | .call _ p => p.Guarded
  | .go _ _ => True

theorem invariant_start (s₀ : σ) : Invariant s₀ (World.start s₀ : World ι σ ρ) where
  phase := fun _ _ h => by cases h
  free := fun _ => rfl
  held := fun _ h => by cases h
  accounted := fun _ h => by cases h

/-- A phase depends on the holder, the shared state and the order alone. -/
theorem Phase.congr {s₀ : σ} {w v : World ι σ ρ} {i : ι} {j : Job σ ρ} (h : Phase s₀ w i j)
    (hholder : v.holder = w.holder) (hshared : v.shared = w.shared) (horder : v.order = w.order) :
    Phase s₀ v i j := by
  cases h with
  | before hturn hrest hprog => exact .before hturn hrest hprog
  | refused r hturn hrest hr => exact .refused r hturn hrest hr
  | inside n hturn hlast hord hhold hrest halone =>
      exact .inside n hturn (horder ▸ hlast) (horder ▸ hord) (hholder ▸ hhold) hrest
        (by rw [hshared, horder, halone])
  | done n r hturn hrest hord hr => exact .done n r hturn hrest (horder ▸ hord) (horder ▸ hr)

/-- Whoever does not hold the mutex does not see the shared state change. -/
theorem Phase.frame {s₀ : σ} {w v : World ι σ ρ} {i : ι} {j : Job σ ρ} (h : Phase s₀ w i j)
    (hnot : w.holder ≠ some i) (horder : v.order = w.order) : Phase s₀ v i j := by
  cases h with
  | before hturn hrest hprog => exact .before hturn hrest hprog
  | refused r hturn hrest hr => exact .refused r hturn hrest hr
  | inside n hturn hlast hord hhold hrest halone => exact absurd hhold hnot
  | done n r hturn hrest hord hr => exact .done n r hturn hrest (horder ▸ hord) (horder ▸ hr)

/-- When another task takes its turn, the earlier turns stay. -/
theorem Phase.later {s₀ : σ} {w v : World ι σ ρ} {i : ι} {j : Job σ ρ} (h : Phase s₀ w i j)
    (hfree : w.holder = none) {p : Prog σ ρ} (horder : v.order = w.order ++ [p]) :
    Phase s₀ v i j := by
  cases h with
  | before hturn hrest hprog => exact .before hturn hrest hprog
  | refused r hturn hrest hr => exact .refused r hturn hrest hr
  | inside n hturn hlast hord hhold hrest halone =>
      rw [hfree] at hhold
      cases hhold
  | done n r hturn hrest hord hr =>
      refine .done n r hturn hrest ?_ (horder ▸ outcome_concat hr)
      rw [horder, List.getElem?_append_left (List.getElem?_eq_some_iff.mp hord).1, hord]

theorem Accounted.later {s₀ : σ} {order : List (Prog σ ρ)} {e : Returned σ ρ} {p : Prog σ ρ}
    (h : Accounted s₀ order e) : Accounted s₀ (order ++ [p]) e := by
  unfold Accounted at h ⊢
  cases hturn : e.turn with
  | none =>
      rw [hturn] at h
      exact h
  | some n =>
      rw [hturn] at h
      refine ⟨?_, outcome_concat h.2⟩
      rw [List.getElem?_append_left (List.getElem?_eq_some_iff.mp h.1).1, h.1]

/-- Where the holder is in its program. -/
theorem Invariant.of_holder {s₀ : σ} {w : World ι σ ρ} {i : ι} {j : Job σ ρ} (hw : Invariant s₀ w)
    (hj : w.job i = some j) (hhold : w.holder = some i) :
    ∃ n, j.turn = some n ∧ n + 1 = w.order.length ∧ w.order[n]? = some j.prog ∧
      j.rest.Inside ∧ j.rest.alone w.shared = j.prog.alone (serial s₀ (w.order.take n)) := by
  obtain ⟨j', hj', hin⟩ := hw.held i hhold
  rw [hj, Option.some.injEq] at hj'
  subst hj'
  cases hw.phase i j hj with
  | before hturn hrest hprog =>
      -- a guarded program is not inside
      rw [hrest] at hin
      cases hp : j.prog with
      | ret r =>
          rw [hp] at hin
          exact hin.elim
      | take k =>
          rw [hp] at hin
          exact hin.elim
      | give k =>
          rw [hp] at hprog
          exact hprog.elim
      | act f k =>
          rw [hp] at hprog
          exact hprog.elim
  | refused r hturn hrest hr =>
      rw [hrest] at hin
      exact hin.elim
  | inside n hturn hlast hord _ hrest halone => exact ⟨n, hturn, hlast, hord, hrest, halone⟩
  | done n r hturn hrest hord hr =>
      rw [hrest] at hin
      exact hin.elim

/-- **Mutual exclusion.**  A task that acts or gives back holds the mutex. -/
theorem Phase.holds {s₀ : σ} {w : World ι σ ρ} {i : ι} {j : Job σ ρ} (h : Phase s₀ w i j)
    (hrest : (∃ k, j.rest = .give k) ∨ ∃ f k, j.rest = .act f k) : w.holder = some i := by
  cases h with
  | before hturn heq hprog =>
      rw [← heq] at hprog
      rcases hrest with ⟨k, hk⟩ | ⟨f, k, hk⟩ <;> rw [hk] at hprog <;> exact hprog.elim
  | refused r hturn heq hr => rcases hrest with ⟨k, hk⟩ | ⟨f, k, hk⟩ <;> simp [heq] at hk
  | inside n hturn hlast hord hhold hin halone => exact hhold
  | done n r hturn heq hord hr => rcases hrest with ⟨k, hk⟩ | ⟨f, k, hk⟩ <;> simp [heq] at hk

/-! ## §5. Every interleaving. -/

variable [DecidableEq ι]

/-- The jobs of the other tasks are not touched. -/
theorem job_update {w : World ι σ ρ} {i i' : ι} {o : Option (Job σ ρ)} {j : Job σ ρ}
    (h : Function.update w.job i o i' = some j) :
    (i' = i ∧ o = some j) ∨ (i' ≠ i ∧ w.job i' = some j) := by
  by_cases hi : i' = i
  · rw [hi, Function.update_self] at h
    exact Or.inl ⟨hi, h⟩
  · rw [Function.update_of_ne hi] at h
    exact Or.inr ⟨hi, h⟩

/-- **Step.** -/
theorem invariant_step {s₀ : σ} {w v : World ι σ ρ} {l : Label ι σ ρ} (hw : Invariant s₀ w)
    (hl : l.Guarded) (h : w.step l = some v) : Invariant s₀ v := by
  obtain ⟨i, p, rfl, hi, rfl⟩ | ⟨i, b, j, rfl, hi, hcase⟩ := World.step_cases h
  · -- a call: the mutex and the shared state stay
    refine ⟨fun i' j hj => ?_, hw.free, fun i' hhold => ?_, hw.accounted⟩
    · obtain ⟨rfl, heq⟩ | ⟨-, hold⟩ := job_update hj
      · rw [← Option.some.inj heq]
        exact .before rfl rfl hl
      · exact (hw.phase i' j hold).congr rfl rfl rfl
    · obtain ⟨j, hj, hin⟩ := hw.held i' hhold
      refine ⟨j, ?_, hin⟩
      show Function.update w.job i _ i' = some j
      rw [Function.update_of_ne (fun heq => by rw [heq, hi] at hj; cases hj), hj]
  obtain ⟨r, hr, rfl⟩ | ⟨k, hk, hfree, rfl⟩ | ⟨k, hk, rfl⟩ | ⟨k, hk, hhold, rfl⟩ |
    ⟨k, hk, hnot, rfl⟩ | ⟨f, k, hk, rfl⟩ := hcase
  · -- a program returns
    have hnot : w.holder ≠ some i := fun hhold => by
      obtain ⟨n, -, -, -, hin, -⟩ := hw.of_holder hi hhold
      rw [hr] at hin
      exact hin.elim
    refine ⟨fun i' j' hj' => ?_, hw.free, fun i' hhold => ?_, fun e he => ?_⟩
    · obtain ⟨-, heq⟩ | ⟨-, hold⟩ := job_update hj'
      · cases heq
      · exact (hw.phase i' j' hold).congr rfl rfl rfl
    · obtain ⟨j', hj', hin⟩ := hw.held i' hhold
      refine ⟨j', ?_, hin⟩
      show Function.update w.job i _ i' = some j'
      rw [Function.update_of_ne (fun heq => hnot (by rw [← heq]; exact hhold)), hj']
    · rcases List.mem_append.mp he with hold | hnew
      · exact hw.accounted e hold
      · rw [List.mem_singleton.mp hnew]
        unfold Accounted
        cases hw.phase i j hi with
        | before hturn hrest hprog =>
            rw [hturn]
            exact Or.inl (hrest ▸ hr)
        | refused r' hturn hrest hr' =>
            rw [hturn]
            rw [hrest, Prog.ret.injEq] at hr
            exact hr ▸ hr'
        | inside n hturn hlast hord hhold hin halone => exact absurd hhold hnot
        | done n r' hturn hrest hord hr' =>
            rw [hturn]
            rw [hrest, Prog.ret.injEq] at hr
            exact ⟨hord, hr ▸ hr'⟩
  · -- the mutex is taken: it was free, and the programs before are done
    have hprog : j.prog = .take k ∧ (k true).Inside := by
      cases hw.phase i j hi with
      | before hturn hrest hprog =>
          rw [hrest] at hk
          rw [hk] at hprog
          exact ⟨hk, hprog.1⟩
      | refused r hturn hrest hr => simp [hrest] at hk
      | inside n hturn hlast hord hhold hin halone =>
          rw [hfree] at hhold
          cases hhold
      | done n r hturn hrest hord hr => simp [hrest] at hk
    refine ⟨fun i' j' hj' => ?_, fun hnone => ?_, fun i' hhold => ?_, fun e he => ?_⟩
    · obtain ⟨rfl, heq⟩ | ⟨-, hold⟩ := job_update hj'
      · rw [← Option.some.inj heq]
        refine .inside w.order.length rfl ?_ ?_ rfl hprog.2 ?_
        · show w.order.length + 1 = (w.order ++ [j.prog]).length
          rw [List.length_append, List.length_singleton]
        · exact List.getElem?_concat_length
        · show (k true).alone w.shared
            = j.prog.alone (serial s₀ ((w.order ++ [j.prog]).take w.order.length))
          rw [List.take_left, ← hw.free hfree, hprog.1]
          rfl
      · exact (hw.phase i' j' hold).later hfree rfl
    · cases hnone
    · obtain rfl : i = i' := Option.some.inj hhold
      exact ⟨_, Function.update_self .., hprog.2⟩
    · exact (hw.accounted e he).later
  · -- the mutex is waited for in vain
    have hprog : j.turn = none ∧ ∃ r, k false = .ret r ∧ j.prog.Refused r := by
      cases hw.phase i j hi with
      | before hturn hrest hprog =>
          rw [hrest] at hk
          rw [hk] at hprog
          obtain ⟨-, r, hr⟩ := hprog
          exact ⟨hturn, r, hr, Or.inr ⟨k, hk, hr⟩⟩
      | refused r hturn hrest hr => simp [hrest] at hk
      | inside n hturn hlast hord hhold hin halone =>
          rw [hk] at hin
          exact hin.elim
      | done n r hturn hrest hord hr => simp [hrest] at hk
    obtain ⟨hturn, r, hr, hrefused⟩ := hprog
    refine ⟨fun i' j' hj' => ?_, hw.free, fun i' hhold => ?_, hw.accounted⟩
    · obtain ⟨rfl, heq⟩ | ⟨-, hold⟩ := job_update hj'
      · rw [← Option.some.inj heq]
        exact .refused r hturn hr hrefused
      · exact (hw.phase i' j' hold).congr rfl rfl rfl
    · obtain ⟨j', hj', hin⟩ := hw.held i' hhold
      have hne : i' ≠ i := fun heq => by
        rw [heq, hi, Option.some.injEq] at hj'
        rw [← hj', hk] at hin
        exact hin.elim
      exact ⟨j', by rw [← hj']; exact Function.update_of_ne hne _ _, hin⟩
  · -- the mutex is given back: what was to be done is done
    obtain ⟨n, hturn, hlast, hord, hin, halone⟩ := hw.of_holder hi hhold
    rw [hk] at hin halone
    obtain ⟨r, hr⟩ := hin
    have hfinal : (w.shared, r) = j.prog.alone (serial s₀ (w.order.take n)) := by
      rw [← halone]
      show _ = (k true).alone w.shared
      rw [hr]
      rfl
    have htake : w.order = w.order.take n ++ [j.prog] := by
      conv_lhs => rw [← List.take_length (l := w.order), ← hlast, List.take_add_one, hord]
      rfl
    refine ⟨fun i' j' hj' => ?_, fun _ => ?_, fun i' hnone => ?_, hw.accounted⟩
    · obtain ⟨rfl, heq⟩ | ⟨hne, hold⟩ := job_update hj'
      · rw [← Option.some.inj heq]
        refine .done n r hturn hr hord ?_
        show outcome s₀ w.order n = some r
        unfold outcome
        rw [hord, Option.map_some, ← hfinal]
      · refine (hw.phase i' j' hold).frame ?_ rfl
        rw [hhold]
        exact fun heq => hne (Option.some.inj heq).symm
    · show w.shared = serial s₀ w.order
      rw [htake, serial_concat, ← hfinal]
    · cases hnone
  · exact absurd ((hw.phase i j hi).holds (Or.inl ⟨k, hk⟩)) hnot
  · -- an action of the holder
    have hhold := (hw.phase i j hi).holds (Or.inr ⟨f, k, hk⟩)
    obtain ⟨n, hturn, hlast, hord, hin, halone⟩ := hw.of_holder hi hhold
    rw [hk] at hin halone
    refine ⟨fun i' j' hj' => ?_, fun hnone => ?_, fun i' hhold' => ?_, hw.accounted⟩
    · obtain ⟨rfl, heq⟩ | ⟨hne, hold⟩ := job_update hj'
      · rw [← Option.some.inj heq]
        exact .inside n hturn hlast hord hhold (hin w.shared) halone
      · refine (hw.phase i' j' hold).frame ?_ rfl
        rw [hhold]
        exact fun heq => hne (Option.some.inj heq).symm
    · rw [show w.holder = none from hnone] at hhold
      cases hhold
    · obtain rfl : i = i' := Option.some.inj (hhold.symm.trans hhold')
      exact ⟨_, Function.update_self .., hin w.shared⟩

theorem invariant_run {s₀ : σ} {ls : List (Label ι σ ρ)} (hls : ∀ l ∈ ls, l.Guarded)
    {w : World ι σ ρ} (h : exec World.step (World.start s₀) ls = some w) : Invariant s₀ w := by
  refine (always_of_eachStep (C := fun _ l => l.Guarded) (fun _ _ _ hw hl => invariant_step hw hl)
    (invariant_start s₀) ?_).final h
  intro pre l t u hpre _ _
  exact hls l (hpre.subset (List.mem_append_right pre List.mem_cons_self))

/-- **SERIALIZABLE.**  For every number of tasks and every interleaving of guarded
programs: whenever the mutex is free, the shared state is what the programs make
of it one after the other, in the order in which they took the mutex; and each
program that has returned was refused the mutex, or returned what it returns in
its turn. -/
theorem serializable {s₀ : σ} {ls : List (Label ι σ ρ)} (hls : ∀ l ∈ ls, l.Guarded)
    {w : World ι σ ρ} (h : exec World.step (World.start s₀) ls = some w) :
    (w.holder = none → w.shared = serial s₀ w.order) ∧
      ∀ e ∈ w.returned, Accounted s₀ w.order e :=
  ⟨(invariant_run hls h).free, (invariant_run hls h).accounted⟩

/-- A program that holds the mutex gives it back by its own steps. -/
theorem Prog.Inside.gives_back {i : ι} :
    ∀ {p : Prog σ ρ}, p.Inside → ∀ {w : World ι σ ρ} {j : Job σ ρ}, w.job i = some j →
      j.rest = p → w.holder = some i →
      ∃ n v, exec World.step w (List.replicate n (.go i true)) = some v ∧ v.holder = none
  | ret _, h, _, _, _, _, _ => h.elim
  | take _, h, _, _, _, _, _ => h.elim
  | give k, _, w, j, hj, hrest, hhold => by
      refine ⟨1, { w.goOn i j (k true) with holder := none }, ?_, rfl⟩
      show (w.step (.go i true)).bind _ = _
      simp only [World.step, hj, hrest, hhold, if_true, Option.bind_some]
      rfl
  | act f k, h, w, j, hj, hrest, hhold => by
      obtain ⟨n, v, hv, hfree⟩ := gives_back (h w.shared)
        (w := { w.goOn i j (k w.shared) with shared := f w.shared })
        (Function.update_self ..) rfl hhold
      refine ⟨n + 1, v, ?_, hfree⟩
      rw [List.replicate_succ, exec_cons]
      simp only [World.step, hj, hrest, Option.bind_some]
      exact hv

/-- **NOBODY KEEPS IT.**  In every interleaving of guarded programs, whoever holds
the mutex gives it back by its own steps, whatever the others do not do. -/
theorem gives_back {s₀ : σ} {ls : List (Label ι σ ρ)} (hls : ∀ l ∈ ls, l.Guarded)
    {w : World ι σ ρ} (h : exec World.step (World.start s₀) ls = some w) {i : ι}
    (hhold : w.holder = some i) :
    ∃ n v, exec World.step w (List.replicate n (.go i true)) = some v ∧ v.holder = none := by
  obtain ⟨j, hj, hin⟩ := (invariant_run hls h).held i hhold
  exact hin.gives_back hj rfl hhold

/-- Only programs that are called take the mutex, and return. -/
theorem programs_of_calls {C : Prog σ ρ → Prop} {s₀ : σ} {ls : List (Label ι σ ρ)}
    (hls : ∀ i p, .call i p ∈ ls → C p) {w : World ι σ ρ}
    (h : exec World.step (World.start s₀) ls = some w) :
    (∀ p ∈ w.order, C p) ∧ ∀ e ∈ w.returned, C e.prog := by
  have hinv : Always World.step (fun w : World ι σ ρ =>
      (∀ i j, w.job i = some j → C j.prog) ∧ (∀ p ∈ w.order, C p) ∧ ∀ e ∈ w.returned, C e.prog)
      (World.start s₀) ls := by
    refine always_of_eachStep (C := fun _ l => ∀ i p, l = .call i p → C p) ?_
      ⟨fun _ _ h => (by cases h), fun _ h => (by cases h), fun _ h => (by cases h)⟩ ?_
    · rintro w l v ⟨hjob, horder, hret⟩ hl hstep
      have hgo : ∀ {i j o}, w.job i = some j → o = none ∨ (∃ j', o = some j' ∧ j'.prog = j.prog) →
          ∀ i' j', Function.update w.job i o i' = some j' → C j'.prog := by
        intro i j o hj ho i' j' hj'
        obtain ⟨-, heq⟩ | ⟨-, hold⟩ := job_update hj'
        · rcases ho with hnone | ⟨j'', hsome, hprog⟩
          · rw [hnone] at heq
            cases heq
          · rw [hsome, Option.some.injEq] at heq
            rw [← heq, hprog]
            exact hjob i j hj
        · exact hjob i' j' hold
      obtain ⟨i, p, rfl, hi, rfl⟩ | ⟨i, b, j, rfl, hi, hcase⟩ := World.step_cases hstep
      · refine ⟨fun i' j' hj' => ?_, horder, hret⟩
        obtain ⟨-, heq⟩ | ⟨-, hold⟩ := job_update hj'
        · rw [← Option.some.inj heq]
          exact hl i p rfl
        · exact hjob i' j' hold
      obtain ⟨r, -, rfl⟩ | ⟨k, -, -, rfl⟩ | ⟨k, -, rfl⟩ | ⟨k, -, -, rfl⟩ | ⟨k, -, -, rfl⟩ |
        ⟨f, k, -, rfl⟩ := hcase
      · refine ⟨hgo hi (Or.inl rfl), horder, fun e he => ?_⟩
        rcases List.mem_append.mp he with hold | hnew
        · exact hret e hold
        · rw [List.mem_singleton.mp hnew]
          exact hjob i j hi
      · refine ⟨hgo hi (Or.inr ⟨_, rfl, rfl⟩), fun p hp => ?_, hret⟩
        rcases List.mem_append.mp hp with hold | hnew
        · exact horder p hold
        · rw [List.mem_singleton.mp hnew]
          exact hjob i j hi
      · exact ⟨hgo hi (Or.inr ⟨_, rfl, rfl⟩), horder, hret⟩
      · exact ⟨hgo hi (Or.inr ⟨_, rfl, rfl⟩), horder, hret⟩
      · exact ⟨hgo hi (Or.inr ⟨_, rfl, rfl⟩), horder, hret⟩
      · exact ⟨hgo hi (Or.inr ⟨_, rfl, rfl⟩), horder, hret⟩
    · intro pre l t u hpre _ _ i p hl
      exact hls i p (hl ▸ hpre.subset (List.mem_append_right pre List.mem_cons_self))
  exact (hinv.final h).2

end Mutex
