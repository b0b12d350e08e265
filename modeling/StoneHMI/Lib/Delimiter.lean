/-
  StoneHMI.Lib.Delimiter
  ──────────────────────
  **CUTTING A STREAM AFTER ITS MARKS — a library of its own.**

  A stream over any alphabet is cut after the `k` symbols that follow the
  first occurrence of `mark`, and the rest is cut again.  `segments` returns
  the pieces and the trailing rest, which holds no complete cut.

  Every stream is of one of three kinds (`cut_induction`): it has no mark,
  it ends inside its first cut, or it is a first piece followed by a stream.
-/
import Mathlib.Data.List.Basic
import Mathlib.Data.List.Infix

namespace Delimiter

variable {α : Type*} [DecidableEq α] (mark : List α) (k : ℕ)

/-! ## §1. The first mark. -/

/-- Where the first `mark` starts. -/
def findMark : List α → Option ℕ
  | [] => none
  | b :: s => if mark <+: b :: s then some 0 else (findMark s).map (· + 1)

theorem findMark_eq_none_iff :
    ∀ s : List α, findMark mark s = none ↔ ∀ j < s.length, ¬ mark <+: s.drop j
  | [] => by simp [findMark]
  | b :: s => by
      have ih := findMark_eq_none_iff s
      unfold findMark
      split
      next h =>
        constructor
        · intro hn
          exact absurd hn (by simp)
        · intro hall
          exact absurd h (hall 0 (by simp))
      next h =>
        rw [Option.map_eq_none_iff, ih]
        constructor
        · intro hall j hj
          -- position 0 is the head itself, the others are in the tail
          cases j with
          | zero => exact h
          | succ j => exact hall j (by simpa using hj)
        · intro hall j hj
          exact hall (j + 1) (by simpa using hj)

theorem findMark_eq_some_iff :
    ∀ (s : List α) (i : ℕ), findMark mark s = some i ↔
      i < s.length ∧ mark <+: s.drop i ∧ ∀ j < i, ¬ mark <+: s.drop j
  | [], i => by simp [findMark]
  | b :: s, i => by
      have ih := findMark_eq_some_iff s
      unfold findMark
      split
      next h =>
        constructor
        · intro hi
          rw [Option.some.injEq] at hi
          subst hi
          exact ⟨by simp, h, fun j hj => absurd hj (Nat.not_lt_zero j)⟩
        · rintro ⟨_, _, hfirst⟩
          cases i with
          | zero => rfl
          | succ i => exact absurd h (hfirst 0 (Nat.succ_pos i))
      next h =>
        rw [Option.map_eq_some_iff]
        constructor
        · rintro ⟨i', hi', rfl⟩
          obtain ⟨hlt, hmark, hfirst⟩ := (ih i').mp hi'
          refine ⟨by simpa using hlt, hmark, fun j hj => ?_⟩
          cases j with
          | zero => exact h
          | succ j => exact hfirst j (by omega)
        · rintro ⟨hlt, hmark, hfirst⟩
          cases i with
          | zero => exact absurd hmark h
          | succ i =>
              refine ⟨i, (ih i).mpr ⟨by simpa using hlt, hmark, fun j hj => ?_⟩, rfl⟩
              exact hfirst (j + 1) (by omega)

/-! ## §2. Cutting. -/

/-- At most `fuel` cuts; a stream has no more cuts than symbols. -/
def segmentsAux : ℕ → List α → List (List α) × List α
  | 0, s => ([], s)
  | fuel + 1, s =>
      match findMark mark s with
      | none => ([], s)
      | some i =>
          let e := i + mark.length + k
          if e ≤ s.length then
            (s.take e :: (segmentsAux fuel (s.drop e)).1, (segmentsAux fuel (s.drop e)).2)
          else ([], s)

/-- **The pieces of a stream and its trailing rest.** -/
def segments (s : List α) : List (List α) × List α := segmentsAux mark k s.length s

theorem segmentsAux_fuel (hm : mark ≠ []) :
    ∀ (fuel fuel' : ℕ) (s : List α), s.length ≤ fuel → s.length ≤ fuel' →
      segmentsAux mark k fuel s = segmentsAux mark k fuel' s := by
  have hpos : 0 < mark.length := List.length_pos_iff.mpr hm
  intro fuel
  induction fuel with
  | zero =>
      intro fuel' s hs _
      have hnil : s = [] := List.length_eq_zero_iff.mp (Nat.le_zero.mp hs)
      subst hnil
      cases fuel' with
      | zero => rfl
      | succ n => rfl
  | succ fuel ih =>
      intro fuel' s hs hs'
      cases fuel' with
      | zero =>
          have hnil : s = [] := List.length_eq_zero_iff.mp (Nat.le_zero.mp hs')
          subst hnil
          rfl
      | succ fuel' =>
          simp only [segmentsAux]
          split
          · rfl
          next i hi =>
            split
            next he =>
              -- a cut is not empty, so the rest needs less fuel
              have hlen : (s.drop (i + mark.length + k)).length
                  = s.length - (i + mark.length + k) := List.length_drop
              rw [ih fuel' (s.drop (i + mark.length + k)) (by omega) (by omega)]
            · rfl

variable {mark k}

theorem segments_none {s : List α} (h : findMark mark s = none) :
    segments mark k s = ([], s) := by
  unfold segments
  cases s with
  | nil => rfl
  | cons b s =>
      rw [List.length_cons, segmentsAux, h]

theorem segments_short {s : List α} {i : ℕ} (h : findMark mark s = some i)
    (hlen : s.length < i + mark.length + k) : segments mark k s = ([], s) := by
  unfold segments
  cases s with
  | nil => rfl
  | cons b s =>
      rw [List.length_cons, segmentsAux, h]
      show (if i + mark.length + k ≤ (b :: s).length then _ else _) = _
      rw [if_neg (by omega)]

theorem segments_cut (hm : mark ≠ []) {s : List α} {i : ℕ} (h : findMark mark s = some i)
    (hlen : i + mark.length + k ≤ s.length) :
    segments mark k s
      = (s.take (i + mark.length + k) :: (segments mark k (s.drop (i + mark.length + k))).1,
          (segments mark k (s.drop (i + mark.length + k))).2) := by
  have hpos : 0 < mark.length := List.length_pos_iff.mpr hm
  unfold segments
  cases s with
  | nil => exact absurd h (by simp [findMark])
  | cons b s =>
      rw [List.length_cons, segmentsAux, h]
      show (if i + mark.length + k ≤ (b :: s).length then _ else _) = _
      have hd : ((b :: s).drop (i + mark.length + k)).length
          = (b :: s).length - (i + mark.length + k) := List.length_drop
      rw [List.length_cons] at hd
      rw [if_pos hlen, segmentsAux_fuel mark k hm s.length
        ((b :: s).drop (i + mark.length + k)).length
        ((b :: s).drop (i + mark.length + k)) (by omega) (le_refl _)]

/-- **Stream induction**: no mark, an unfinished cut, or a cut and a stream. -/
theorem cut_induction (hm : mark ≠ []) {motive : List α → Prop}
    (none : ∀ s, findMark mark s = none → motive s)
    (short : ∀ s i, findMark mark s = some i → s.length < i + mark.length + k → motive s)
    (cut : ∀ s i, findMark mark s = some i → i + mark.length + k ≤ s.length →
      motive (s.drop (i + mark.length + k)) → motive s) :
    ∀ s, motive s := by
  have hpos : 0 < mark.length := List.length_pos_iff.mpr hm
  intro s
  -- on the length: what follows a cut is shorter
  induction hn : s.length using Nat.strongRecOn generalizing s with
  | ind n ih =>
      cases h : findMark mark s with
      | none => exact none s h
      | some i =>
          by_cases hlen : i + mark.length + k ≤ s.length
          · refine cut s i h hlen (ih _ ?_ _ rfl)
            rw [List.length_drop]
            omega
          · exact short s i h (by omega)

/-! ## §3. Streams that arrive in two parts. -/

omit [DecidableEq α] in
theorem isPrefix_drop_append {s f : List α} {j : ℕ} (hj : j + mark.length ≤ s.length) :
    mark <+: (s ++ f).drop j ↔ mark <+: s.drop j := by
  rw [List.drop_append_of_le_length (by omega)]
  constructor
  · intro h
    exact List.prefix_of_prefix_length_le h (List.prefix_append _ f) (by
      rw [List.length_drop]
      omega)
  · intro h
    exact h.trans (List.prefix_append _ f)

omit [DecidableEq α] in
theorem length_le_of_isPrefix_drop {s : List α} {j : ℕ} (hj : j < s.length)
    (h : mark <+: s.drop j) : j + mark.length ≤ s.length := by
  have hlen := h.length_le
  rw [List.length_drop] at hlen
  omega

/-- A mark found in the first part is the first mark of the whole. -/
theorem findMark_append_of_some {s f : List α} {i : ℕ} (h : findMark mark s = some i) :
    findMark mark (s ++ f) = some i := by
  obtain ⟨hlt, hmark, hfirst⟩ := (findMark_eq_some_iff mark s i).mp h
  have hend : i + mark.length ≤ s.length := length_le_of_isPrefix_drop hlt hmark
  refine (findMark_eq_some_iff mark (s ++ f) i).mpr ⟨?_, ?_, fun j hj => ?_⟩
  · rw [List.length_append]
    omega
  · exact (isPrefix_drop_append hend).mpr hmark
  · rw [isPrefix_drop_append (by omega)]
    exact hfirst j hj

/-- Where no mark starts in the first part, the first mark is the second's. -/
theorem findMark_append_of_free :
    ∀ {s f : List α}, (∀ j < s.length, ¬ mark <+: (s ++ f).drop j) →
      findMark mark (s ++ f) = (findMark mark f).map (· + s.length)
  | [], f, _ => by
      show findMark mark f = (findMark mark f).map (· + 0)
      simp
  | b :: s, f, h => by
      have h0 : ¬ mark <+: b :: (s ++ f) := h 0 (by simp)
      have hs : ∀ j < s.length, ¬ mark <+: (s ++ f).drop j := by
        intro j hj
        exact h (j + 1) (by simpa using hj)
      show (if mark <+: b :: (s ++ f) then some 0 else (findMark mark (s ++ f)).map (· + 1)) = _
      rw [if_neg h0, findMark_append_of_free hs, Option.map_map]
      rfl

/-- The pieces of `s ++ f` when no mark starts in `s`: it joins the first. -/
theorem segments_append_of_free (hm : mark ≠ []) {s f : List α}
    (h : ∀ j < s.length, ¬ mark <+: (s ++ f).drop j) :
    segments mark k (s ++ f)
      = match (segments mark k f).1 with
        | [] => ([], s ++ (segments mark k f).2)
        | p :: ps => ((s ++ p) :: ps, (segments mark k f).2) := by
  have hfind := findMark_append_of_free h
  cases hf : findMark mark f with
  | none =>
      rw [hf] at hfind
      rw [segments_none hf, segments_none hfind]
  | some i =>
      rw [hf] at hfind
      have hfind' : findMark mark (s ++ f) = some (i + s.length) := hfind
      -- the first cut of `f` is complete in `s ++ f` exactly when it is in `f`
      by_cases hlen : i + mark.length + k ≤ f.length
      · have hwhole : i + s.length + mark.length + k = s.length + (i + mark.length + k) := by
          omega
        rw [segments_cut hm hf hlen, segments_cut hm hfind' (by
          rw [List.length_append]
          omega), hwhole, List.take_length_add_append, List.drop_length_add_append]
      · rw [segments_short hf (by omega), segments_short hfind' (by
          rw [List.length_append]
          omega)]

/-! ## §4. What the pieces and the rest are. -/

/-- Nothing is lost, doubled or moved. -/
theorem flatten_segments (hm : mark ≠ []) (s : List α) :
    (segments mark k s).1.flatten ++ (segments mark k s).2 = s := by
  induction s using cut_induction (k := k) hm with
  | none s h =>
      rw [segments_none h]
      rfl
  | short s i h hlen =>
      rw [segments_short h hlen]
      rfl
  | cut s i h hlen ih =>
      rw [segments_cut hm h hlen]
      show s.take _ ++ _ ++ _ = s
      rw [List.append_assoc, ih, List.take_append_drop]

/-- A piece holds a mark and the symbols behind it. -/
theorem length_piece (hm : mark ≠ []) (s : List α) :
    ∀ p ∈ (segments mark k s).1, mark.length + k ≤ p.length := by
  induction s using cut_induction (k := k) hm with
  | none s h =>
      rw [segments_none h]
      exact fun p hp => absurd hp List.not_mem_nil
  | short s i h hlen =>
      rw [segments_short h hlen]
      exact fun p hp => absurd hp List.not_mem_nil
  | cut s i h hlen ih =>
      rw [segments_cut hm h hlen]
      intro p hp
      rcases List.mem_cons.mp hp with rfl | hp
      · rw [List.length_take]
        omega
      · exact ih p hp

/-- The rest holds no complete cut. -/
theorem rest_short (hm : mark ≠ []) (s : List α) {i : ℕ}
    (h : findMark mark (segments mark k s).2 = some i) :
    (segments mark k s).2.length < i + mark.length + k := by
  induction s using cut_induction (k := k) hm with
  | none s hn =>
      rw [segments_none hn, hn] at h
      cases h
  | short s j hj hlen =>
      rw [segments_short hj hlen] at h ⊢
      rw [hj] at h
      cases h
      exact hlen
  | cut s j hj hlen ih =>
      rw [segments_cut hm hj hlen] at h ⊢
      exact ih h

/-- A stream in two parts is cut like its first part, and then like what that
leaves with the second. -/
theorem segments_append (hm : mark ≠ []) (f : List α) (s : List α) :
    segments mark k (s ++ f)
      = ((segments mark k s).1 ++ (segments mark k ((segments mark k s).2 ++ f)).1,
          (segments mark k ((segments mark k s).2 ++ f)).2) := by
  induction s using cut_induction (k := k) hm with
  | none s h => rw [segments_none h, List.nil_append]
  | short s i h hlen => rw [segments_short h hlen, List.nil_append]
  | cut s i h hlen ih =>
      rw [segments_cut hm h hlen, segments_cut hm (findMark_append_of_some h) (by
        rw [List.length_append]
        omega), List.take_append_of_le_length hlen, List.drop_append_of_le_length hlen, ih]
      rfl

/-- A short stream has no piece. -/
theorem segments_of_length_lt {s : List α} (h : s.length < mark.length + k) :
    segments mark k s = ([], s) := by
  cases hf : findMark mark s with
  | none => exact segments_none hf
  | some i => exact segments_short hf (by omega)

/-! ## §5. Streams of finished pieces. -/

/-- A mark comes first where its first letter does. -/
theorem findMark_append_mark {b : α} {m s : List α} (h : b ∉ s) :
    findMark (b :: m) (s ++ b :: m) = some s.length := by
  refine (findMark_eq_some_iff (b :: m) _ _).mpr ⟨?_, ?_, fun j hj hpre => ?_⟩
  · rw [List.length_append, List.length_cons]
    omega
  · rw [List.drop_left]
  · rw [List.drop_append_of_le_length hj.le, List.drop_eq_getElem_cons hj] at hpre
    have hhead : b = s[j] := (List.cons_prefix_cons.mp hpre).1
    exact h (hhead ▸ List.getElem_mem hj)

/-- A concatenation of pieces is cut into them, if the first cut of each is its end. -/
theorem segments_flatten (hm : mark ≠ []) : ∀ (ps : List (List α)),
    (∀ p ∈ ps, ∃ n, findMark mark p = some n ∧ n + mark.length + k = p.length) →
      segments mark k ps.flatten = (ps, [])
  | [], _ => rfl
  | p :: ps, h => by
      obtain ⟨n, hn, hlen⟩ := h p List.mem_cons_self
      have hrest := segments_flatten hm ps fun q hq => h q (List.mem_cons_of_mem p hq)
      rw [List.flatten_cons, segments_cut hm (findMark_append_of_some hn) (by
        rw [List.length_append]
        omega), hlen, List.take_left, List.drop_left, hrest]

end Delimiter
