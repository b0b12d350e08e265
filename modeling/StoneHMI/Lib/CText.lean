/-
  StoneHMI.Lib.CText
  ──────────────────
  **C STRINGS AND STDIO CONVERSIONS ON BYTE LISTS — a library of its own.**

  A C string is the bytes before its NUL, a `List UInt8`.  The
  conversions follow the C standard's text:

    • `decimal`   — what `%d`, `%u`, `%lu` and `itoa(_, _, 10)` print of
                    a non-negative number,
    • `scanset`   — `%[^…]`: the longest non-empty run of allowed bytes,
    • `scanWord`  — `%s`: blanks skipped, then the longest run of others,
    • `scanU8`    — `%hhu`: blanks, an optional sign, decimal digits, and
                    the value kept modulo 256,
    • `fgets`     — at most `size - 1` bytes, up to and including a newline,
    • `sprintf`   — the text of a format with `%s` and `%d`.
-/
import Mathlib.Algebra.Group.Nat.Defs
import Mathlib.Data.Bool.AllAny
import Mathlib.Data.List.Basic
import Mathlib.Data.List.TakeWhile

namespace CText

/-! ## §1. String constants and C strings. -/

/-- The bytes of a source string constant. -/
def str (s : String) : List UInt8 := s.toList.map fun c => UInt8.ofNat c.toNat

/-- The C string at the start of a memory region: the bytes before its NUL. -/
def cstr (m : List UInt8) : List UInt8 := m.takeWhile (· ≠ 0)

theorem takeWhile_append_stop {α : Type*} (p : α → Bool) {s : List α} {b : α} (t : List α)
    (hs : ∀ x ∈ s, p x = true) (hb : p b = false) :
    (s ++ b :: t).takeWhile p = s := by
  rw [List.takeWhile_append_of_pos hs, List.takeWhile_cons_of_neg (by simp [hb]), List.append_nil]

theorem takeWhile_append_of_short {α : Type*} {p : α → Bool} {s : List α} (t : List α)
    (h : (s.takeWhile p).length < s.length) : (s ++ t).takeWhile p = s.takeWhile p := by
  rw [List.takeWhile_append, if_neg (by omega)]

/-- What stands behind a list does not matter once the run ends inside it. -/
theorem takeWhile_append_of_lt {α : Type*} {p : α → Bool} {s t : List α}
    (h : ((s ++ t).takeWhile p).length < s.length) :
    (s ++ t).takeWhile p = s.takeWhile p := by
  rw [List.takeWhile_append] at h ⊢
  split at h
  · rw [List.length_append] at h
    omega
  · rename_i hne
    rw [if_neg hne]

theorem dropWhile_append_stop {α : Type*} (p : α → Bool) {s : List α} {b : α} (t : List α)
    (hs : ∀ x ∈ s, p x = true) (hb : p b = false) :
    (s ++ b :: t).dropWhile p = b :: t := by
  rw [List.dropWhile_append_of_pos hs, List.dropWhile_cons_of_neg (by simp [hb])]

theorem cstr_eq_self {s : List UInt8} (h : ∀ b ∈ s, b ≠ 0) : cstr s = s :=
  List.takeWhile_eq_self_iff.mpr fun b hb => by simpa using h b hb

/-- What lies behind a NUL is not part of the string. -/
theorem cstr_append_nul_eq (s t : List UInt8) : cstr (s ++ 0 :: t) = cstr s := by
  induction s with
  | nil => rfl
  | cons b s ih =>
      unfold cstr at ih ⊢
      rw [List.cons_append, List.takeWhile_cons, List.takeWhile_cons, ih]

/-! ## §2. Decimal printing. -/

/-- The decimal digits of `n`, most significant first. -/
def decimal (n : Nat) : List UInt8 := (Nat.toDigits 10 n).map fun c => UInt8.ofNat c.toNat

def isDigit (b : UInt8) : Bool := 48 ≤ b && b ≤ 57

theorem isDigit_iff {b : UInt8} : isDigit b = true ↔ 48 ≤ b.toNat ∧ b.toNat ≤ 57 := by
  rw [isDigit, Bool.and_eq_true, decide_eq_true_eq, decide_eq_true_eq, UInt8.le_iff_toNat_le,
    UInt8.le_iff_toNat_le]
  exact Iff.rfl

/-- No digit is one of the characters below `'0'`. -/
theorem ne_of_isDigit {b c : UInt8} (h : isDigit b = true) (hc : c.toNat < 48) : b ≠ c := by
  rintro rfl
  have hlo := (isDigit_iff.mp h).1
  omega

theorem decimal_ne_nil (n : Nat) : decimal n ≠ [] := by
  simp [decimal]

theorem decimal_length_le_iff {n k : Nat} (hk : 0 < k) :
    (decimal n).length ≤ k ↔ n < 10 ^ k := by
  rw [decimal, List.length_map]
  exact Nat.length_toDigits_le_iff (by decide) hk

theorem isDigit_of_mem_decimal {n : Nat} {b : UInt8} (hb : b ∈ decimal n) :
    isDigit b = true := by
  rw [decimal, List.mem_map] at hb
  obtain ⟨c, hc, rfl⟩ := hb
  have hdig : c.isDigit = true := Nat.isDigit_of_mem_toDigits (by decide) (by decide) hc
  rw [Char.isDigit, Bool.and_eq_true, decide_eq_true_eq, decide_eq_true_eq] at hdig
  have hlo : 48 ≤ c.toNat := hdig.1
  have hhi : c.toNat ≤ 57 := hdig.2
  rw [isDigit_iff, UInt8.toNat_ofNat_of_lt' (by show c.toNat < 256; omega)]
  exact ⟨hlo, hhi⟩

theorem decimal_of_lt {n : Nat} (h : n < 10) : decimal n = [UInt8.ofNat (48 + n)] := by
  have hdigit : ∀ d < 10, UInt8.ofNat (Nat.digitChar d).toNat = UInt8.ofNat (48 + d) := by decide
  rw [decimal, Nat.toDigits_of_lt_base h]
  exact congrArg (fun b => [b]) (hdigit n h)

/-- The last digit of a number, behind the digits of what is left of it. -/
theorem decimal_of_le {n : Nat} (h : 10 ≤ n) :
    decimal n = decimal (n / 10) ++ [UInt8.ofNat (48 + n % 10)] := by
  have hlast : decimal (n % 10) = [UInt8.ofNat (48 + n % 10)] :=
    decimal_of_lt (Nat.mod_lt n (by decide))
  rw [decimal, Nat.toDigits_of_base_le (by decide) h, List.map_append, ← hlast, decimal, decimal,
    Nat.toDigits_of_lt_base (Nat.mod_lt n (by decide))]

/-- Only 0 is printed with a leading zero. -/
theorem decimal_head (n : Nat) (hn : 0 < n) : ∃ d ds, decimal n = d :: ds ∧ d ≠ 48 := by
  induction n using Nat.strongRecOn with
  | ind n ih =>
      by_cases h : n < 10
      · have hne : ∀ d < 10, 0 < d → UInt8.ofNat (48 + d) ≠ 48 := by decide
        exact ⟨_, [], decimal_of_lt h, hne n h hn⟩
      · obtain ⟨d, ds, hd, hne⟩ := ih (n / 10) (by omega) (by omega)
        rw [decimal_of_le (by omega), hd]
        exact ⟨d, ds ++ [_], rfl, hne⟩

/-! ## §3. Conversions of `sscanf`. -/

/-- `%[^stop]`: the longest run of bytes outside `stop`, which must not be
empty, and what follows it. -/
def scanset (stop : UInt8 → Bool) (s : List UInt8) : Option (List UInt8 × List UInt8) :=
  match s.takeWhile fun b => !stop b with
  | [] => none
  | run => some (run, s.dropWhile fun b => !stop b)

theorem scanset_eq (stop : UInt8 → Bool) (s : List UInt8) :
    scanset stop s
      = if s.takeWhile (fun b => !stop b) = [] then none
        else some (s.takeWhile fun b => !stop b, s.dropWhile fun b => !stop b) := by
  unfold scanset
  cases s.takeWhile fun b => !stop b with
  | nil => rfl
  | cons x run => rfl

theorem scanset_append {stop : UInt8 → Bool} {run : List UInt8} {b : UInt8} (t : List UInt8)
    (hne : run ≠ []) (hrun : ∀ x ∈ run, stop x = false) (hb : stop b = true) :
    scanset stop (run ++ b :: t) = some (run, b :: t) := by
  have hp : ∀ x ∈ run, (!stop x) = true := fun x hx => by simp [hrun x hx]
  have hq : (!stop b) = false := by simp [hb]
  unfold scanset
  rw [takeWhile_append_stop _ t hp hq, dropWhile_append_stop _ t hp hq]
  cases run with
  | nil => exact absurd rfl hne
  | cons x run => rfl

theorem scanset_all {stop : UInt8 → Bool} {run : List UInt8}
    (hne : run ≠ []) (hrun : ∀ x ∈ run, stop x = false) :
    scanset stop run = some (run, []) := by
  have hp : ∀ x ∈ run, (!stop x) = true := fun x hx => by simp [hrun x hx]
  unfold scanset
  rw [List.takeWhile_eq_self_iff.mpr hp, List.dropWhile_eq_nil_iff.mpr hp]
  cases run with
  | nil => exact absurd rfl hne
  | cons x run => rfl

def isBlank (b : UInt8) : Bool := b == 32 || (9 ≤ b && b ≤ 13)

theorem isBlank_of_isDigit {b : UInt8} (h : isDigit b = true) : isBlank b = false := by
  have hlo := (isDigit_iff.mp h).1
  unfold isBlank
  rw [Bool.or_eq_false_iff, Bool.and_eq_false_iff, beq_eq_false_iff_ne]
  refine ⟨ne_of_isDigit h (by decide), Or.inr ?_⟩
  rw [decide_eq_false_iff_not, UInt8.le_iff_toNat_le]
  show ¬ b.toNat ≤ 13
  omega

/-- `%s`: skip blanks, then the longest run of other bytes, if there is one. -/
def scanWord (s : List UInt8) : Option (List UInt8 × List UInt8) :=
  scanset isBlank (s.dropWhile isBlank)

/-- The number a run of decimal digits denotes. -/
def digitsValue (ds : List UInt8) : Nat := ds.foldl (fun n d => 10 * n + (d.toNat - 48)) 0

theorem digitsValue_concat (ds : List UInt8) (d : UInt8) :
    digitsValue (ds ++ [d]) = 10 * digitsValue ds + (d.toNat - 48) := by
  unfold digitsValue
  rw [List.foldl_append]
  rfl

/-- What is printed in decimal denotes the number. -/
theorem digitsValue_decimal (n : Nat) : digitsValue (decimal n) = n := by
  have hdigit : ∀ d < 10, (UInt8.ofNat (48 + d)).toNat - 48 = d := by decide
  induction n using Nat.strongRecOn with
  | ind n ih =>
      by_cases h : n < 10
      · rw [decimal_of_lt h]
        show 10 * 0 + ((UInt8.ofNat (48 + n)).toNat - 48) = n
        rw [hdigit n h]
        omega
      · rw [decimal_of_le (by omega), digitsValue_concat, ih (n / 10) (by omega),
          hdigit (n % 10) (by omega)]
        omega

/-- `%hhu`: blanks, an optional sign, then digits; the value is kept modulo 256. -/
def scanU8 (s : List UInt8) : Option (UInt8 × List UInt8) :=
  match s.dropWhile isBlank with
  | 45 :: t => (unsigned t).map fun r => (0 - r.1, r.2)
  | 43 :: t => unsigned t
  | t => unsigned t
where
  unsigned (t : List UInt8) : Option (UInt8 × List UInt8) :=
    match t.takeWhile isDigit with
    | [] => none
    | ds => some (UInt8.ofNat (digitsValue ds), t.dropWhile isDigit)

/-- `r` does not begin with a digit. -/
def NoDigit (r : List UInt8) : Prop := ∀ b t, r = b :: t → isDigit b = false

theorem noDigit_nil : NoDigit [] := by
  intro b t h
  cases h

theorem noDigit_cons {b : UInt8} (h : isDigit b = false) (t : List UInt8) : NoDigit (b :: t) := by
  intro c u hc
  rw [← (List.cons.inj hc).1]
  exact h

theorem NoDigit.take {r : List UInt8} (h : NoDigit r) (n : ℕ) : NoDigit (r.take n) := by
  intro b t hb
  have hr := List.take_append_drop n r
  rw [hb] at hr
  exact h b _ hr.symm

theorem NoDigit.takeWhile_eq {r : List UInt8} (h : NoDigit r) : r.takeWhile isDigit = [] := by
  cases r with
  | nil => rfl
  | cons b t => exact List.takeWhile_cons_of_neg (by simp [h b t rfl])

theorem NoDigit.dropWhile_eq {r : List UInt8} (h : NoDigit r) : r.dropWhile isDigit = r := by
  cases r with
  | nil => rfl
  | cons b t => exact List.dropWhile_cons_of_neg (by simp [h b t rfl])

/-- A run of digits before something else is converted whole. -/
theorem scanU8_digits {ds r : List UInt8} (hne : ds ≠ []) (hds : ∀ d ∈ ds, isDigit d = true)
    (hr : NoDigit r) : scanU8 (ds ++ r) = some (UInt8.ofNat (digitsValue ds), r) := by
  have hnum : scanU8.unsigned (ds ++ r) = some (UInt8.ofNat (digitsValue ds), r) := by
    unfold scanU8.unsigned
    rw [List.takeWhile_append_of_pos hds, List.dropWhile_append_of_pos hds, hr.takeWhile_eq,
      hr.dropWhile_eq, List.append_nil]
    cases ds with
    | nil => exact absurd rfl hne
    | cons d ds => rfl
  cases ds with
  | nil => exact absurd rfl hne
  | cons d ds =>
      have hd : isDigit d = true := hds d List.mem_cons_self
      -- a digit is neither a blank nor a sign
      unfold scanU8
      rw [List.cons_append, List.dropWhile_cons_of_neg (by simp [isBlank_of_isDigit hd]), ← List.cons_append]
      split
      · rename_i t ht
        exact absurd (List.cons.inj ht).1 (ne_of_isDigit hd (by decide))
      · rename_i t ht
        exact absurd (List.cons.inj ht).1 (ne_of_isDigit hd (by decide))
      · exact hnum

/-! ## §4. Reading lines. -/

/-- Up to `n` bytes, stopping after a newline. -/
def takeLine : Nat → List UInt8 → List UInt8 × List UInt8
  | 0, s => ([], s)
  | _ + 1, [] => ([], [])
  | n + 1, b :: s =>
      if b = 10 then ([b], s)
      else (b :: (takeLine n s).1, (takeLine n s).2)

/-- `fgets(line, size, f)` with `s` left in the file; `none` at its end. -/
def fgets (size : Nat) (s : List UInt8) : Option (List UInt8 × List UInt8) :=
  if s = [] then none else some (takeLine (size - 1) s)

/-- A newline within the limit ends the line. -/
theorem takeLine_newline {n : Nat} {r : List UInt8} (t : List UInt8)
    (hr : ∀ b ∈ r, b ≠ 10) (hn : r.length < n) :
    takeLine n (r ++ 10 :: t) = (r ++ [10], t) := by
  induction r generalizing n with
  | nil =>
      cases n with
      | zero => exact absurd hn (Nat.not_lt_zero _)
      | succ n => rfl
  | cons b r ih =>
      cases n with
      | zero => exact absurd hn (Nat.not_lt_zero _)
      | succ n =>
          have hb : b ≠ 10 := hr b List.mem_cons_self
          have hlen : r.length < n := by simpa using hn
          have htail := ih (fun x hx => hr x (List.mem_cons_of_mem b hx)) hlen
          rw [List.cons_append, takeLine, if_neg hb, htail]
          rfl

/-- A line that fills the limit leaves its newline in the file. -/
theorem takeLine_full {r : List UInt8} (t : List UInt8) (hr : ∀ b ∈ r, b ≠ 10) :
    takeLine r.length (r ++ t) = (r, t) := by
  induction r with
  | nil => cases t <;> rfl
  | cons b r ih =>
      have hb : b ≠ 10 := hr b List.mem_cons_self
      have htail := ih (fun x hx => hr x (List.mem_cons_of_mem b hx))
      rw [List.cons_append, List.length_cons, takeLine, if_neg hb, htail]

/-! ## §5. `sprintf`. -/

/-- An argument of `sprintf`: for `%s` a C string, for `%d` a non-negative number. -/
inductive Arg where
  | s (w : List UInt8)
  | d (n : Nat)
  deriving DecidableEq, Repr

/-- What `sprintf` prints of a format with `%s` and `%d`. -/
def sprintf : List UInt8 → List Arg → List UInt8
  | 0x25 :: 0x73 :: f, .s w :: as => w ++ sprintf f as
  | 0x25 :: 0x64 :: f, .d n :: as => decimal n ++ sprintf f as
  | b :: f, as => b :: sprintf f as
  | [], _ => []

theorem sprintf_s (f w : List UInt8) (as : List Arg) :
    sprintf (0x25 :: 0x73 :: f) (.s w :: as) = w ++ sprintf f as := by
  rw [sprintf]

theorem sprintf_d (f : List UInt8) (n : Nat) (as : List Arg) :
    sprintf (0x25 :: 0x64 :: f) (.d n :: as) = decimal n ++ sprintf f as := by
  rw [sprintf]

/-- Text without a `%` is printed as it stands. -/
theorem sprintf_append : ∀ (f g : List UInt8) (as : List Arg), 0x25 ∉ f →
    sprintf (f ++ g) as = f ++ sprintf g as
  | [], g, as, _ => rfl
  | b :: f, g, as, h => by
      have hb : b ≠ 0x25 := fun hb => h (hb ▸ List.mem_cons_self)
      rw [List.cons_append, sprintf,
        sprintf_append f g as fun hf => h (List.mem_cons_of_mem b hf)]
      · rfl
      · intro _ _ _ _ hpercent
        exact absurd hpercent hb
      · intro _ _ _ _ hpercent
        exact absurd hpercent hb

end CText
