/-
  StoneHMI.Sensor.Average
  ───────────────────────
  **AVERAGING — one round of `pressure_read` in main.c.**

  The task reads the sensor until a hundred shots have succeeded: a failed one
  takes the index of the `for` back by one.  It then divides the two sums,
  turns the pressure into a percentage of 130 bar and sends it to two labels.

  The measure of the loop is not its index but how many successes are still to
  come among the outcomes, and the index counts those that have been met.

  Sums, average and percentage are `float`s, rounded after each operation
  (`toFloat`).  Rounding keeps the order, so the percentage grows with the
  average that the task has computed; the exact average may be off by what the
  hundred additions have lost, and two rounds can come out in the wrong order
  (`not_mono_in_average`).

    §1  outcomes of a shot        §4  the loop
    §2  the function              §5  the percentage
    §3  one pass                  §6  a round
-/
import StoneHMI.Lib.Rounding
import StoneHMI.Sensor.Conversion
import StoneHMI.Transport.Commands
import Mathlib.Tactic.Linarith
import Mathlib.Tactic.NormNum

namespace StoneHMI

open CText

/-! ## §1. Outcomes of a shot. -/

/-- A value assigned to a `float`. -/
def toFloat (x : ℚ) : ℚ := Rounding.binary32.round x

theorem toFloat_mono {x y : ℚ} (h : x ≤ y) : toFloat x ≤ toFloat y := Rounding.Format.round_mono h

/-- Between two integers of at most 24 bits, rounding stays between them. -/
theorem toFloat_mem {n : ℕ} (hn : n < 2 ^ 24) {x : ℚ} (hlo : -n ≤ x) (hhi : x ≤ n) :
    -n ≤ toFloat x ∧ toFloat x ≤ n := Rounding.Format.round_mem hn (by decide) hlo hhi

/-- What `read_sensor_one_shot` leaves to its caller. -/
inductive Reading where
  /-- Any other code than `ESP_OK`, and nothing in the outputs. -/
  | fail (e : EspError)
  | ok (Cal_TData Cal_PData : ℚ)
  deriving DecidableEq

/-- The outcome of a shot that has returned.  Of the operations behind an output only the last
one can round: the others are on integers of at most 24 bits and on powers of two. -/
def Shot.reading (s : Shot) : Option Reading :=
  match s.stage with
  | .returned ret =>
      if h : ret = ESP_OK then
        match s.Cal_TData, s.Cal_PData with
        | some T, some p => some (.ok (toFloat T) (toFloat p))
        | _, _ => none
      else some (.fail ⟨ret, h⟩)
  | _ => none

/-- Some shot returns with this outcome. -/
def Shot.Returns (r : Reading) : Prop :=
  ∃ rs t, Labelled.exec Shot.step Shot.start rs = some t ∧ t.reading = some r

/-- What the last answer of a shot that has returned was. -/
theorem Shot.returned_cases {rs : List Reply} {t : Shot} {ret : ℤ}
    (h : Labelled.exec Shot.step Shot.start rs = some t) (hret : t.stage = .returned ret) :
    (∃ e : EspError, ret = e.code) ∨
      ∃ R : RegData, ret = ESP_OK ∧ t.Cal_TData = some (calTData R.R3 R.R4) ∧
        t.Cal_PData = some (calPData R.R0 R.R1 R.R2) := by
  induction rs using List.reverseRecOn with
  | nil =>
      cases h
      cases hret
  | append_singleton rs r _ =>
      rw [Labelled.exec_concat, Option.bind_eq_some_iff] at h
      obtain ⟨s, -, hstep⟩ := h
      obtain ⟨tr, e, -, -, rfl⟩ | ⟨-, -, rfl⟩ | ⟨-, SCO, -, rfl⟩ |
        ⟨-, R0, R1, R2, R3, R4, -, rfl⟩ := Shot.step_cases hstep
      · cases hret
        exact Or.inl ⟨e, rfl⟩
      · cases hret
      · -- either way the shot goes on
        unfold Shot.answer at hret
        dsimp only at hret
        split at hret <;> cases hret
      · cases hret
        exact Or.inr ⟨⟨R0, R1, R2, R3, R4⟩, rfl, rfl, rfl⟩

/-- Every shot that returns has an outcome. -/
theorem Shot.exists_reading {rs : List Reply} {t : Shot} {ret : ℤ}
    (h : Labelled.exec Shot.step Shot.start rs = some t) (hret : t.stage = .returned ret) :
    ∃ r, t.reading = some r := by
  unfold Shot.reading
  rw [hret]
  obtain ⟨e, rfl⟩ | ⟨R, rfl, hT, hp⟩ := Shot.returned_cases h hret
  · exact ⟨_, dif_neg e.failed⟩
  · simp [hT, hp]

/-- The pressure of a success lies within full scale. -/
theorem Shot.Returns.pressure_range {T p : ℚ} (h : Shot.Returns (.ok T p)) :
    -300 ≤ p ∧ p ≤ 300 := by
  obtain ⟨rs, t, hrun, hreading⟩ := h
  unfold Shot.reading at hreading
  split at hreading
  case h_2 => cases hreading
  case h_1 ret hret =>
    obtain ⟨e, rfl⟩ | ⟨R, rfl, hT, hp⟩ := Shot.returned_cases hrun hret
    · rw [dif_neg e.failed] at hreading
      cases hreading
    · simp only [dif_pos, hT, hp, Option.some.injEq, Reading.ok.injEq] at hreading
      rw [← hreading.2]
      have hrange := calPData_range R
      exact toFloat_mem (n := 300) (by decide) (by exact_mod_cast hrange.1)
        (by exact_mod_cast hrange.2)

/-- The temperatures and pressures of the successes, in their order. -/
def successes (rs : List Reading) : List (ℚ × ℚ) :=
  rs.filterMap fun
    | .fail _ => none
    | .ok T p => some (T, p)

@[simp] theorem successes_nil : successes [] = [] := rfl

@[simp] theorem successes_fail (e : EspError) (rs : List Reading) :
    successes (.fail e :: rs) = successes rs := rfl

@[simp] theorem successes_ok (T p : ℚ) (rs : List Reading) :
    successes (.ok T p :: rs) = (T, p) :: successes rs := rfl

theorem successes_append (rs qs : List Reading) :
    successes (rs ++ qs) = successes rs ++ successes qs := List.filterMap_append

/-- Where so many outcomes are successes, there is a `k`-th one behind `k - 1` others. -/
theorem exists_success (rs : List Reading) : ∀ k : ℕ, k < (successes rs).length →
    ∃ read T p rest, rs = read ++ .ok T p :: rest ∧ (successes read).length = k := by
  induction rs with
  | nil => exact fun k hk => absurd hk (Nat.not_lt_zero k)
  | cons r rs ih =>
      intro k hk
      cases r with
      | fail e =>
          obtain ⟨read, T, p, rest, rfl, hread⟩ := ih k hk
          exact ⟨.fail e :: read, T, p, rest, rfl, hread⟩
      | ok T p =>
          cases k with
          | zero => exact ⟨[], T, p, rs, rfl, rfl⟩
          | succ k =>
              rw [successes_ok, List.length_cons] at hk
              obtain ⟨read, T', p', rest, rfl, hread⟩ := ih k (by omega)
              exact ⟨.ok T p :: read, T', p', rest, rfl, by rw [successes_ok, List.length_cons, hread]⟩

/-- The temperatures and the pressures of the first hundred successes. -/
def hundred (rs : List Reading) : List (ℚ × ℚ) := (successes rs).take 100

theorem length_hundred {rs : List Reading} (h : 100 ≤ (successes rs).length) :
    (hundred rs).length = 100 := by
  rw [hundred, List.length_take]
  omega

theorem hundred_append {read : List Reading} (hread : (successes read).length = 99) (T p : ℚ)
    (rest : List Reading) :
    hundred (read ++ .ok T p :: rest) = successes read ++ [(T, p)] := by
  unfold hundred
  rw [successes_append, successes_ok, List.take_append, hread,
    List.take_of_length_le (by omega)]
  rfl

/-! ## §2. The function. -/

/-- The locals of `pressure_read` inside a round, the `float`s by their values. -/
structure Round where
  i : ℤ
  tem : ℚ
  pres : ℚ
  tem_ : ℚ
  pres_ : ℚ
  deriving DecidableEq

/-- `round`: to the nearest integer, halves away from zero. -/
def cRound (x : ℚ) : ℤ := if 0 ≤ x then ⌊x + 1 / 2⌋ else ⌈x - 1 / 2⌉

/-- An integer assigned to an `int16_t`, which is defined only for the values it has. -/
def toInt16 (z : ℤ) : Option ℤ := if -2 ^ 15 ≤ z ∧ z < 2 ^ 15 then some z else none

/-- `if(percentage < 3) percentage = 0; else if(percentage > 98) percentage = 100;` -/
def clampPercentage (q : ℤ) : ℤ := if q < 3 then 0 else if q > 98 then 100 else q

/-- `%d` -/
def decimalInt (z : ℤ) : List UInt8 := if z < 0 then 45 :: decimal z.natAbs else decimal z.natAbs

/-- `sizeof(pressure_value)` -/
def PRESSURE_VALUE_SIZE : ℕ := 5

namespace Round

/-- `tem = pres = tem_ = pres_ = 0`, and `i = 0`. -/
def start : Round := { i := 0, tem := 0, pres := 0, tem_ := 0, pres_ := 0 }

/-- One pass of the `for`, with its `i++`.  The sums are rounded by `fl`: by `toFloat` in the
program, and by `id` where the arithmetic is to be exact. -/
def pass (fl : ℚ → ℚ) (s : Round) : Reading → Round
  -- `i--` and `i++`; `tem_` and `pres_` still hold an earlier reading
  | .fail _ => { s with i := s.i - 1 + 1 }
  | .ok T p =>
      let s := { s with tem_ := T, pres_ := p }
      { s with tem := fl (s.tem + s.tem_), pres := fl (s.pres + s.pres_), i := s.i + 1 }

/-- The `for` over the outcomes to come: the locals it stops with and the outcomes it has left,
or `none` where it still reads when they are over. -/
def loop (fl : ℚ → ℚ) : Round → List Reading → Option (Round × List Reading)
  | s, [] => if s.i < 100 then none else some (s, [])
  | s, r :: rs => if s.i < 100 then loop fl (s.pass fl r) rs else some (s, r :: rs)

/-- `tem = tem/100; pres = pres/100;` -/
def average (s : Round) : Round :=
  { s with tem := toFloat (s.tem / 100), pres := toFloat (s.pres / 100) }

/-- `percentage` after the two clamps. -/
def percentage (s : Round) : Option ℤ :=
  (toInt16 (cRound (toFloat (toFloat (s.pres * 100) / 130)))).map clampPercentage

/-- The two `set_text` of a round. -/
def report (s : Round) : Option (List Command) :=
  s.percentage.map fun percentage =>
    [.set_text (str "label") (str "label_pressure_start") (decimalInt percentage) false,
      .set_text (str "label") (str "label_pressure_stop") (decimalInt percentage) false]

end Round

/-! ## §3. One pass. -/

namespace Round

variable {fl : ℚ → ℚ}

@[simp] theorem pass_fail (s : Round) (e : EspError) : s.pass fl (.fail e) = s := by
  show { s with i := s.i - 1 + 1 } = s
  rw [Int.sub_add_cancel]

theorem pass_ok (s : Round) (T p : ℚ) :
    s.pass fl (.ok T p)
      = { i := s.i + 1, tem := fl (s.tem + T), pres := fl (s.pres + p), tem_ := T, pres_ := p } :=
  rfl

theorem loop_of_ge {s : Round} (h : 100 ≤ s.i) (rs : List Reading) :
    s.loop fl rs = some (s, rs) := by
  cases rs with
  | nil => exact if_neg (by omega)
  | cons r rs => exact if_neg (by omega)

theorem loop_cons_of_lt {s : Round} (h : s.i < 100) (r : Reading) (rs : List Reading) :
    s.loop fl (r :: rs) = (s.pass fl r).loop fl rs := if_pos h

/-! ## §4. The loop. -/

/-- The values added to `a` one after the other. -/
def addUp (fl : ℚ → ℚ) (a : ℚ) (xs : List ℚ) : ℚ := xs.foldl (fun a x => fl (a + x)) a

theorem addUp_cons (a x : ℚ) (xs : List ℚ) : addUp fl a (x :: xs) = addUp fl (fl (a + x)) xs := rfl

/-- In exact arithmetic it is the sum. -/
theorem addUp_id (xs : List ℚ) : ∀ a : ℚ, addUp id a xs = a + xs.sum := by
  induction xs with
  | nil => exact fun a => (add_zero a).symm
  | cons x xs ih =>
      intro a
      rw [addUp_cons, ih, List.sum_cons, ← add_assoc]
      rfl

/-- **The loop stops right behind the success that brings the index to a hundred.** -/
theorem loop_append (fl : ℚ → ℚ) (T p : ℚ) (rest read : List Reading) : ∀ s : Round,
    s.i + (successes read).length = 99 →
    ∃ t, s.loop fl (read ++ .ok T p :: rest) = some (t, rest) ∧
      t.tem = addUp fl s.tem ((successes read ++ [(T, p)]).map Prod.fst) ∧
      t.pres = addUp fl s.pres ((successes read ++ [(T, p)]).map Prod.snd) := by
  induction read with
  | nil =>
      intro s hi
      rw [successes_nil, List.length_nil] at hi
      rw [List.nil_append, loop_cons_of_lt (by omega), pass_ok,
        loop_of_ge (by show 100 ≤ s.i + 1; omega)]
      exact ⟨_, rfl, rfl, rfl⟩
  | cons r read ih =>
      intro s hi
      rw [List.cons_append]
      cases r with
      | fail e =>
          -- the pass changes nothing, and the outcome adds nothing
          rw [successes_fail] at hi ⊢
          rw [loop_cons_of_lt (by omega), pass_fail]
          exact ih s hi
      | ok T' p' =>
          rw [successes_ok, List.length_cons] at hi
          rw [loop_cons_of_lt (by omega), pass_ok]
          exact ih _ (by show s.i + 1 + _ = _; omega)

/-- While successes are missing the loop goes on. -/
theorem loop_eq_none (rs : List Reading) : ∀ s : Round, s.i + (successes rs).length < 100 →
    s.loop fl rs = none := by
  induction rs with
  | nil =>
      intro s h
      exact if_pos (by simpa using h)
  | cons r rs ih =>
      intro s h
      rw [loop_cons_of_lt (by omega)]
      apply ih
      cases r with
      | fail e => simpa using h
      | ok T p =>
          simp only [successes_ok, List.length_cons] at h
          show s.i + 1 + ((successes rs).length : ℤ) < 100
          omega

/-- **The loop stops exactly where the outcomes hold a hundred successes.** -/
theorem loop_start_stops_iff (rs : List Reading) :
    (∃ t rest, start.loop fl rs = some (t, rest)) ↔ 100 ≤ (successes rs).length := by
  constructor
  · rintro ⟨t, rest, h⟩
    by_contra hlt
    rw [loop_eq_none rs start (by show (0 : ℤ) + _ < 100; omega)] at h
    cases h
  · intro h
    obtain ⟨read, T, p, rest, rfl, hread⟩ := exists_success rs 99 h
    obtain ⟨t, hloop, -⟩ := loop_append fl T p rest read start (by rw [hread]; rfl)
    exact ⟨t, rest, hloop⟩

/-- The sum of `n` pressures, in the program's arithmetic. -/
theorem addUp_mem {xs : List ℚ} (h : ∀ x ∈ xs, -300 ≤ x ∧ x ≤ 300) :
    ∀ (k : ℕ) {a : ℚ}, -(300 * k : ℕ) ≤ a → a ≤ (300 * k : ℕ) → k + xs.length ≤ 100 →
      -(300 * (k + xs.length) : ℕ) ≤ addUp toFloat a xs ∧
        addUp toFloat a xs ≤ (300 * (k + xs.length) : ℕ) := by
  induction xs with
  | nil => exact fun k a hlo hhi _ => ⟨hlo, hhi⟩
  | cons x xs ih =>
      intro k a hlo hhi hlen
      obtain ⟨hx, hxs⟩ := List.forall_mem_cons.mp h
      rw [List.length_cons] at hlen ⊢
      push_cast at hlo hhi
      -- the bounds are integers of less than 24 bits, which rounding does not cross
      have hstep : -(300 * (k + 1) : ℕ) ≤ toFloat (a + x) ∧ toFloat (a + x) ≤ (300 * (k + 1) : ℕ) :=
        toFloat_mem (by omega) (by push_cast; linarith [hx.1]) (by push_cast; linarith [hx.2])
      have hrest := ih hxs (k + 1) hstep.1 hstep.2 (by omega)
      rw [show k + (xs.length + 1) = k + 1 + xs.length by omega]
      exact hrest

/-- Each addition loses at most `2 ^ -10` bar: a sum stays below `2 ^ 15`. -/
theorem abs_addUp_sub_le {xs : List ℚ} (h : ∀ x ∈ xs, -300 ≤ x ∧ x ≤ 300) :
    ∀ (k : ℕ) {a : ℚ}, -(300 * k : ℕ) ≤ a → a ≤ (300 * k : ℕ) → k + xs.length ≤ 100 →
      |addUp toFloat a xs - (a + xs.sum)| ≤ xs.length / 1024 := by
  induction xs with
  | nil =>
      intro k a _ _ _
      show |a - (a + 0)| ≤ ((0 : ℕ) : ℚ) / 1024
      simp
  | cons x xs ih =>
      intro k a hlo hhi hlen
      obtain ⟨hx, hxs⟩ := List.forall_mem_cons.mp h
      rw [List.length_cons] at hlen
      push_cast at hlo hhi
      have hk : (k : ℚ) + 1 ≤ 100 := by exact_mod_cast (by omega : k + 1 ≤ 100)
      have hstep : -(300 * (k + 1) : ℕ) ≤ toFloat (a + x) ∧ toFloat (a + x) ≤ (300 * (k + 1) : ℕ) :=
        toFloat_mem (by omega) (by push_cast; linarith [hx.1]) (by push_cast; linarith [hx.2])
      have hlost : |toFloat (a + x) - (a + x)| ≤ 1 / 1024 := by
        -- half a step of the grid below `2 ^ 15`
        have hbound : |a + x| < 2 ^ ((-9 : ℤ) + (23 : ℕ) + 1) := by
          norm_num
          rw [abs_lt]
          constructor <;> linarith [hx.1, hx.2]
        have hhalf := Rounding.Format.abs_round_sub_le (F := Rounding.binary32) (k := -9)
          (by decide) hbound
        norm_num at hhalf ⊢
        exact hhalf
      have hrest := ih hxs (k + 1) hstep.1 hstep.2 (by omega)
      rw [addUp_cons, List.sum_cons, List.length_cons]
      rw [abs_le] at hlost hrest ⊢
      push_cast
      constructor <;> linarith [hlost.1, hlost.2, hrest.1, hrest.2]

end Round

/-! ## §5. The percentage. -/

theorem cRound_mono {x y : ℚ} (h : x ≤ y) : cRound x ≤ cRound y := by
  unfold cRound
  by_cases hx : 0 ≤ x
  · rw [if_pos hx, if_pos (hx.trans h)]
    exact Int.floor_mono (by linarith)
  · rw [if_neg hx]
    by_cases hy : 0 ≤ y
    · -- zero lies between the two
      rw [if_pos hy]
      have hneg : ⌈x - 1 / 2⌉ ≤ 0 := Int.ceil_le.mpr (by push_cast; linarith)
      have hpos : 0 ≤ ⌊y + 1 / 2⌋ := Int.floor_nonneg.mpr (by linarith)
      omega
    · rw [if_neg hy]
      exact Int.ceil_mono (by linarith)

theorem clampPercentage_mono {q r : ℤ} (h : q ≤ r) : clampPercentage q ≤ clampPercentage r := by
  unfold clampPercentage
  split_ifs <;> omega

theorem clampPercentage_range (q : ℤ) :
    clampPercentage q = 0 ∨ (3 ≤ clampPercentage q ∧ clampPercentage q ≤ 98) ∨
      clampPercentage q = 100 := by
  unfold clampPercentage
  by_cases h3 : q < 3
  · simp [h3]
  · by_cases h98 : q > 98
    · simp [h3, h98]
    · rw [if_neg h3, if_neg h98]
      omega

/-- Three digits at most, and the NUL. -/
theorem decimalInt_fits {q : ℤ} (h0 : 0 ≤ q) (h : q ≤ 100) :
    (decimalInt q).length + 1 ≤ PRESSURE_VALUE_SIZE := by
  unfold decimalInt
  rw [if_neg (by omega)]
  have hlen : (decimal q.natAbs).length ≤ 3 :=
    (decimal_length_le_iff (by decide)).mpr (by omega)
  show _ + 1 ≤ 5
  omega

namespace Round

/-- All that happens to the average keeps the order. -/
theorem percent_mono {x y : ℚ} (h : x ≤ y) :
    cRound (toFloat (toFloat (x * 100) / 130)) ≤ cRound (toFloat (toFloat (y * 100) / 130)) := by
  have htimes : toFloat (x * 100) ≤ toFloat (y * 100) := toFloat_mono (by linarith)
  exact cRound_mono (toFloat_mono (by linarith))

theorem percentage_mono {s t : Round} (h : s.pres ≤ t.pres) {q r : ℤ}
    (hq : s.percentage = some q) (hr : t.percentage = some r) : q ≤ r := by
  unfold percentage toInt16 at hq hr
  split at hq
  case isFalse => cases hq
  split at hr
  case isFalse => cases hr
  cases hq
  cases hr
  exact clampPercentage_mono (percent_mono h)

theorem percentage_range {s : Round} {q : ℤ} (hq : s.percentage = some q) :
    q = 0 ∨ (3 ≤ q ∧ q ≤ 98) ∨ q = 100 := by
  unfold percentage at hq
  obtain ⟨z, _, rfl⟩ := Option.map_eq_some_iff.mp hq
  exact clampPercentage_range z

/-- Within the sensor's full scale the rounded value is an `int16_t`. -/
theorem percentage_of_mem {s : Round} (hlo : -300 ≤ s.pres) (hhi : s.pres ≤ 300) :
    s.percentage
      = some (clampPercentage (cRound (toFloat (toFloat (s.pres * 100) / 130)))) := by
  have hmin : -231 ≤ cRound (toFloat (toFloat (s.pres * 100) / 130)) :=
    calc (-231 : ℤ) = cRound (toFloat (toFloat (-300 * 100) / 130)) := by decide +kernel
      _ ≤ _ := percent_mono hlo
  have hmax : cRound (toFloat (toFloat (s.pres * 100) / 130)) ≤ 231 :=
    calc _ ≤ cRound (toFloat (toFloat (300 * 100) / 130)) := percent_mono hhi
      _ = 231 := by decide +kernel
  unfold percentage toInt16
  rw [if_pos (by omega)]
  rfl

/-! ## §6. A round. -/

/-- The computed average lies in the same range, and close to the exact one. -/
theorem toFloat_average {ps : List ℚ} (hlen : ps.length = 100)
    (h : ∀ p ∈ ps, -300 ≤ p ∧ p ≤ 300) :
    (-300 ≤ toFloat (addUp toFloat 0 ps / 100) ∧ toFloat (addUp toFloat 0 ps / 100) ≤ 300) ∧
      |toFloat (addUp toFloat 0 ps / 100) - ps.sum / 100| < 1 / 1000 := by
  have hmem := addUp_mem h 0 (a := 0) (by simp) (by simp) (by omega)
  have hlost := abs_addUp_sub_le h 0 (a := 0) (by simp) (by simp) (by omega)
  -- a hundred additions lose at most a tenth of a bar, of which the average has a hundredth
  rw [hlen] at hmem hlost
  push_cast at hmem hlost
  have hlo : -300 ≤ addUp toFloat 0 ps / 100 := by linarith [hmem.1]
  have hhi : addUp toFloat 0 ps / 100 ≤ 300 := by linarith [hmem.2]
  refine ⟨toFloat_mem (n := 300) (by decide) (by exact_mod_cast hlo) (by exact_mod_cast hhi), ?_⟩
  -- the last rounding is of a number below `2 ^ 9`
  have hbound : |addUp toFloat 0 ps / 100| < 2 ^ ((-15 : ℤ) + (23 : ℕ) + 1) := by
    norm_num
    rw [abs_lt]
    constructor <;> linarith
  have hhalf := Rounding.Format.abs_round_sub_le (F := Rounding.binary32) (k := -15)
    (by decide) hbound
  norm_num at hhalf
  change |toFloat _ - _| ≤ _ at hhalf
  rw [abs_le] at hhalf hlost
  rw [abs_lt]
  constructor <;> linarith [hhalf.1, hhalf.2, hlost.1, hlost.2]

/-- What a round sends, its pressures being within the sensor's full scale. -/
structure Displays (s : Round) (q : ℤ) : Prop where
  percentage : s.average.percentage = some q
  /-- It is the rounded percentage of the average, clamped. -/
  value : q = clampPercentage (cRound (toFloat (toFloat (toFloat (s.pres / 100) * 100) / 130)))
  sent : s.average.report = some [
    .set_text (str "label") (str "label_pressure_start") (decimalInt q) false,
    .set_text (str "label") (str "label_pressure_stop") (decimalInt q) false]
  range : q = 0 ∨ (3 ≤ q ∧ q ≤ 98) ∨ q = 100
  fits : (decimalInt q).length + 1 ≤ PRESSURE_VALUE_SIZE
  /-- A round with no smaller average sends no smaller percentage. -/
  mono : ∀ (t : Round) (r : ℤ), toFloat (s.pres / 100) ≤ toFloat (t.pres / 100) →
    t.average.percentage = some r → q ≤ r

theorem exists_displays {s : Round} (hlo : -300 ≤ toFloat (s.pres / 100))
    (hhi : toFloat (s.pres / 100) ≤ 300) : ∃ q, s.Displays q := by
  obtain ⟨q, hvalue⟩ : ∃ q, q
      = clampPercentage (cRound (toFloat (toFloat (toFloat (s.pres / 100) * 100) / 130))) := ⟨_, rfl⟩
  have hq : s.average.percentage = some q := hvalue ▸ percentage_of_mem (s := s.average) hlo hhi
  have hrange := percentage_range hq
  refine ⟨q, hq, hvalue, ?_, hrange, decimalInt_fits (by omega) (by omega), fun t r hle hr => ?_⟩
  · unfold report
    rw [hq]
    rfl
  · exact percentage_mono (s := s.average) (t := t.average) hle hq hr

/-- Over shots of the sensor, a round that stops has a percentage to send. -/
theorem displays_of_shots {rs rest : List Reading} {s : Round}
    (hshots : ∀ r ∈ rs, Shot.Returns r) (hloop : start.loop toFloat rs = some (s, rest)) :
    ∃ q, s.Displays q := by
  have h : 100 ≤ (successes rs).length := (loop_start_stops_iff rs).mp ⟨s, rest, hloop⟩
  have hfull : ∀ p ∈ (hundred rs).map Prod.snd, -300 ≤ p ∧ p ≤ 300 := by
    intro p hp
    obtain ⟨v, hv, rfl⟩ := List.mem_map.mp hp
    obtain ⟨r, hr, hv⟩ := List.mem_filterMap.mp (List.mem_of_mem_take hv)
    cases r with
    | fail e => cases hv
    | ok T p =>
        cases hv
        exact (hshots _ hr).pressure_range
  have hmem := (toFloat_average (by rw [List.length_map, length_hundred h]) hfull).1
  obtain ⟨read, T, p, rest', rfl, hread⟩ := exists_success rs 99 h
  obtain ⟨t, hloop', -, hpres⟩ := loop_append toFloat T p rest' read start (by rw [hread]; rfl)
  have hst : s = t := (Prod.mk.inj (Option.some.inj (hloop.symm.trans hloop'))).1
  have hsum : s.pres = addUp toFloat 0 ((hundred (read ++ .ok T p :: rest')).map Prod.snd) := by
    rw [hst, hpres, hundred_append hread]
    rfl
  rw [← hsum] at hmem
  exact exists_displays hmem.1 hmem.2

end Round

open Round in
/-- **AVERAGING**: whatever comes between them, a round stops right behind the hundredth success.
In exact arithmetic it has the sums of those hundred, in the program's the same additions in the
same order.  For pressures within full scale the computed average is within a thousandth of a
bar of the exact one, and the percentage sent grows with it, is 0, 3 to 98 or 100, and fits its
buffer. -/
theorem pressure_read_averages (rs : List Reading) (h : 100 ≤ (successes rs).length) :
    ∃ read T p rest x s, rs = read ++ .ok T p :: rest ∧ (successes read).length = 99 ∧
      start.loop id rs = some (x, rest) ∧
      x.tem = ((hundred rs).map Prod.fst).sum ∧ x.pres = ((hundred rs).map Prod.snd).sum ∧
      start.loop toFloat rs = some (s, rest) ∧
      s.tem = addUp toFloat 0 ((hundred rs).map Prod.fst) ∧
      s.pres = addUp toFloat 0 ((hundred rs).map Prod.snd) ∧
      ((∀ v ∈ hundred rs, -300 ≤ v.2 ∧ v.2 ≤ 300) →
        |toFloat (s.pres / 100) - x.pres / 100| < 1 / 1000 ∧ ∃ q, s.Displays q) := by
  obtain ⟨read, T, p, rest, hrs, hread⟩ := exists_success rs 99 h
  have hi : start.i + (successes read).length = 99 := by
    rw [hread]
    rfl
  obtain ⟨x, hx, hxtem, hxpres⟩ := loop_append id T p rest read start hi
  obtain ⟨s, hs, htem, hpres⟩ := loop_append toFloat T p rest read start hi
  have hhundred : hundred rs = successes read ++ [(T, p)] := hrs ▸ hundred_append hread T p rest
  rw [← hrs] at hx hs
  rw [← hhundred] at hxtem hxpres htem hpres
  have htem0 : start.tem = 0 := rfl
  have hpres0 : start.pres = 0 := rfl
  rw [addUp_id, htem0, zero_add] at hxtem
  rw [addUp_id, hpres0, zero_add] at hxpres
  refine ⟨read, T, p, rest, x, s, hrs, hread, hx, hxtem, hxpres, hs, htem, hpres,
    fun hfull => ?_⟩
  have hps : ∀ v ∈ (hundred rs).map Prod.snd, -300 ≤ v ∧ v ≤ 300 := by
    intro v hv
    obtain ⟨w, hw, rfl⟩ := List.mem_map.mp hv
    exact hfull w hw
  obtain ⟨hmem, hclose⟩ := toFloat_average (by rw [List.length_map, length_hundred h]) hps
  have hsum : s.pres = addUp toFloat 0 ((hundred rs).map Prod.snd) := hpres
  rw [hxpres, hsum]
  refine ⟨hclose, ?_⟩
  rw [← hsum] at hmem
  exact exists_displays hmem.1 hmem.2

/-- `ESP_ERR_TIMEOUT` -/
theorem timeout_failed : (0x107 : ℤ) ≠ ESP_OK := by decide

/-- A hundred readings of 65 bar, with a timeout in front of them. -/
def halfFull : List Reading := .fail ⟨0x107, timeout_failed⟩ :: List.replicate 100 (.ok 20 65)

open Round in
theorem pressure_read_averages_halfFull :
    ∃ s rest, start.loop toFloat halfFull = some (s, rest) ∧
      |toFloat (s.pres / 100) - 65| < 1 / 1000 ∧ ∃ q, s.Displays q := by
  have hsucc : successes halfFull = List.replicate 100 (20, 65) := by decide +kernel
  have hhundred : hundred halfFull = List.replicate 100 (20, 65) := by
    unfold hundred
    rw [hsucc, List.take_of_length_le (by simp)]
  obtain ⟨read, T, p, rest, x, s, -, -, -, -, hpres, hloop, -, -, hfull⟩ :=
    pressure_read_averages halfFull (by rw [hsucc, List.length_replicate])
  rw [hhundred] at hpres hfull
  obtain ⟨hclose, hdisplays⟩ := hfull fun v hv => by
    rw [List.eq_of_mem_replicate hv]
    norm_num
  refine ⟨s, rest, hloop, ?_, hdisplays⟩
  rw [hpres, List.map_replicate, List.sum_replicate] at hclose
  norm_num at hclose ⊢
  exact hclose

/-- The shot of a sensor at 0 degrees, with this word of pressure. -/
def pressureReading (R0 R1 R2 : UInt8) : Reading :=
  .ok (toFloat (calTData 0 0)) (toFloat (calPData R0 R1 R2))

theorem returns_pressureReading (R0 R1 R2 : UInt8) : Shot.Returns (pressureReading R0 R1 R2) :=
  ⟨[.ok [], .ok [0], .ok [R0, R1, R2, 0, 0]], _, rfl, rfl⟩

/-- Two rounds of fifty readings of one pressure and fifty of another. -/
def steadyRound : List Reading :=
  List.replicate 50 (pressureReading 0x07 0x47 0x9c) ++
    List.replicate 50 (pressureReading 0x08 0xce 0x3c)

def risingRound : List Reading :=
  List.replicate 50 (pressureReading 0x08 0x07 0x04) ++
    List.replicate 50 (pressureReading 0x08 0x0e 0xd5)

open Round in
/-- **The greater average is shown as the smaller percentage**: 15 for 18.84999 bar, then 14 for
18.85001 bar. -/
theorem not_mono_in_average :
    ¬ ∀ rs rs' : List Reading, (∀ r ∈ rs, Shot.Returns r) → (∀ r ∈ rs', Shot.Returns r) →
        100 ≤ (successes rs).length → 100 ≤ (successes rs').length →
        ((hundred rs).map Prod.snd).sum / 100 ≤ ((hundred rs').map Prod.snd).sum / 100 →
        ∀ s s' rest rest' q q', start.loop toFloat rs = some (s, rest) →
          start.loop toFloat rs' = some (s', rest') → s.average.percentage = some q →
          s'.average.percentage = some q' → q ≤ q' := by
  have hreturns : ∀ a b : Reading, Shot.Returns a → Shot.Returns b →
      ∀ r ∈ List.replicate 50 a ++ List.replicate 50 b, Shot.Returns r := by
    intro a b ha hb r hr
    rcases List.mem_append.mp hr with hr | hr
    · rw [List.eq_of_mem_replicate hr]
      exact ha
    · rw [List.eq_of_mem_replicate hr]
      exact hb
  intro h
  have hsteady : (start.loop toFloat steadyRound).bind (fun r => r.1.average.percentage) = some 15 := by
    decide +kernel
  have hrising : (start.loop toFloat risingRound).bind (fun r => r.1.average.percentage) = some 14 := by
    decide +kernel
  obtain ⟨⟨s, rest⟩, hs, hq⟩ := Option.bind_eq_some_iff.mp hsteady
  obtain ⟨⟨s', rest'⟩, hs', hq'⟩ := Option.bind_eq_some_iff.mp hrising
  have hle := h steadyRound risingRound
    (hreturns _ _ (returns_pressureReading _ _ _) (returns_pressureReading _ _ _))
    (hreturns _ _ (returns_pressureReading _ _ _) (returns_pressureReading _ _ _))
    (by decide +kernel) (by decide +kernel) (by decide +kernel) s s' rest rest' 15 14 hs hs' hq hq'
  exact absurd hle (by decide)

end StoneHMI
