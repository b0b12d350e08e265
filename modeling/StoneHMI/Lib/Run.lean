/-
  StoneHMI.Lib.Run
  ────────────────
  **RUNS OF A PARTIAL LABELLED STEP — a library of its own.**

  A system is a function `step : σ → ℓ → Option σ`: the state after the
  step labelled `l`, or `none` where the step cannot be taken.  A run is
  a list of labels.  Two predicates on runs carry every result:

    • `Always step P s ls`   — `P` holds in every state the run reaches,
    • `EachStep step C s ls` — every step the run takes meets `C`, a
      condition on the state before the step and its label.

  `always_iff_eachStep` turns an exact step lemma into an exact run
  theorem; `always_of_eachStep` is the one-directional rule.
-/
import Mathlib.Data.List.Infix

namespace Labelled

variable {σ ℓ : Type*} (step : σ → ℓ → Option σ)

/-! ## §1. Executing a list of labels. -/

/-- The state after the labels `ls`, or `none` once a step is impossible. -/
def exec : σ → List ℓ → Option σ
  | s, [] => some s
  | s, l :: ls => (step s l).bind fun t => exec t ls

@[simp] theorem exec_nil (s : σ) : exec step s [] = some s := rfl

theorem exec_cons (s : σ) (l : ℓ) (ls : List ℓ) :
    exec step s (l :: ls) = (step s l).bind fun t => exec step t ls := rfl

theorem exec_append (s : σ) (ls ks : List ℓ) :
    exec step s (ls ++ ks) = (exec step s ls).bind fun t => exec step t ks := by
  induction ls generalizing s with
  | nil => rfl
  | cons l ls ih =>
      rw [List.cons_append, exec_cons, exec_cons, Option.bind_assoc]
      congr 1
      funext t
      exact ih t

theorem exec_concat (s : σ) (ls : List ℓ) (l : ℓ) :
    exec step s (ls ++ [l]) = (exec step s ls).bind fun t => step t l := by
  rw [exec_append]
  congr 1
  funext t
  rw [exec_cons]
  exact Option.bind_fun_some (step t l)

/-! ## §2. Properties of the states and of the steps of a run. -/

/-- `P` holds in every state that the run `ls` from `s` reaches. -/
def Always (P : σ → Prop) (s : σ) (ls : List ℓ) : Prop :=
  ∀ pre t, pre <+: ls → exec step s pre = some t → P t

/-- Every step the run `ls` takes from `s` meets `C`. -/
def EachStep (C : σ → ℓ → Prop) (s : σ) (ls : List ℓ) : Prop :=
  ∀ pre l t u, pre ++ [l] <+: ls → exec step s pre = some t →
    step t l = some u → C t l

variable {step}

theorem Always.final {P : σ → Prop} {s t : σ} {ls : List ℓ}
    (h : Always step P s ls) (ht : exec step s ls = some t) : P t :=
  h ls t (List.prefix_refl ls) ht

theorem Always.imp {P Q : σ → Prop} {s : σ} {ls : List ℓ}
    (hPQ : ∀ t, P t → Q t) (h : Always step P s ls) : Always step Q s ls :=
  fun pre t hpre ht => hPQ t (h pre t hpre ht)

theorem eachStep_nil (C : σ → ℓ → Prop) (s : σ) : EachStep step C s [] := fun pre l _ _ hpre _ _ =>
  absurd (List.prefix_nil.mp hpre) (List.append_ne_nil_of_right_ne_nil pre (List.cons_ne_nil l []))

/-- A run by its first step. -/
theorem eachStep_cons {C : σ → ℓ → Prop} {s : σ} {l : ℓ} {ls : List ℓ}
    (h : ∀ t, step s l = some t → C s l ∧ EachStep step C t ls) : EachStep step C s (l :: ls) := by
  intro pre k t u hpre ht hu
  cases pre with
  | nil =>
      obtain ⟨rfl, -⟩ := List.cons_prefix_cons.mp hpre
      cases ht
      exact (h u hu).1
  | cons x pre =>
      obtain ⟨rfl, hrest⟩ := List.cons_prefix_cons.mp hpre
      rw [exec_cons, Option.bind_eq_some_iff] at ht
      obtain ⟨v, hv, ht⟩ := ht
      exact (h v hv).2 pre k t u hrest ht hu

/-! ## §3. The two run rules. -/

/-- **Invariant rule.**  A condition on each step that keeps `J` keeps it in
every state of the run. -/
theorem always_of_eachStep {J : σ → Prop} {C : σ → ℓ → Prop}
    (hstep : ∀ s l t, J s → C s l → step s l = some t → J t)
    {s : σ} {ls : List ℓ} (hs : J s) (h : EachStep step C s ls) :
    Always step J s ls := by
  intro pre
  -- the prefix grows at its end, so the induction peels the last label
  induction pre using List.reverseRecOn with
  | nil =>
      intro t _ ht
      rw [exec_nil, Option.some.injEq] at ht
      exact ht ▸ hs
  | append_singleton pre l ih =>
      intro u hpre hu
      rw [exec_concat, Option.bind_eq_some_iff] at hu
      obtain ⟨t, ht, htu⟩ := hu
      have hJ : J t := ih t ((List.prefix_append pre [l]).trans hpre) ht
      exact hstep t l u hJ (h pre l t u hpre ht htu) htu

/-- An invariant that every step keeps holds in every state of every run. -/
theorem always_of_step {J : σ → Prop}
    (hstep : ∀ s l t, J s → step s l = some t → J t)
    {s : σ} (hs : J s) (ls : List ℓ) : Always step J s ls :=
  always_of_eachStep (C := fun _ _ => True) (fun s l t hJ _ ht => hstep s l t hJ ht) hs
    (fun _ _ _ _ _ _ _ => trivial)

/-- **Exact run rule.**  Where `C` decides exactly whether a step keeps `P`
(in the states with the unconditional invariant `I`), a run stays in `P`
exactly when each of its steps meets `C`. -/
theorem always_iff_eachStep {I P : σ → Prop} {C : σ → ℓ → Prop}
    (hI : ∀ s l t, I s → step s l = some t → I t)
    (hstep : ∀ s l t, I s → P s → step s l = some t → (P t ↔ C s l))
    {s : σ} (hs : I s) (hP : P s) (ls : List ℓ) :
    Always step P s ls ↔ EachStep step C s ls := by
  have hIs : Always step I s ls := always_of_step hI hs ls
  constructor
  · intro h pre l t u hpre ht htu
    have hpre' : pre <+: ls := (List.prefix_append pre [l]).trans hpre
    have hu : exec step s (pre ++ [l]) = some u := by
      rw [exec_concat, ht]
      exact htu
    exact (hstep t l u (hIs pre t hpre' ht) (h pre t hpre' ht) htu).mp
      (h (pre ++ [l]) u hpre hu)
  · intro h
    -- `I` and `P` together are an invariant of the run
    have hboth : Always step (fun t => I t ∧ P t) s ls := by
      refine always_of_eachStep (C := C) ?_ ⟨hs, hP⟩ h
      intro a l b hab hC hb
      exact ⟨hI a l b hab.1 hb, (hstep a l b hab.1 hab.2 hb).mpr hC⟩
    exact hboth.imp fun t ht => ht.2

end Labelled
