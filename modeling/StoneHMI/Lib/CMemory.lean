/-
  StoneHMI.Lib.CMemory
  ────────────────────
  **CHECKED C MEMORY — a library of its own.**

  What `malloc`, `memset`, `memcpy`, `sscanf("%[^…]")` and indexing do when
  they stay inside their blocks, and which `Fault` they commit when they do
  not.  A fault ends the run: what the program does after it is undefined.

    • `Block`  — an allocated block, with its size and the bytes written
                 into it so far, which never exceed that size;
    • `read`, `slice` — reading an array by index, and `n` bytes from one;
    • `Block.store`, `scanInto` — copying bytes to the front of a block.

  `malloc` itself is taken to succeed.
-/
import StoneHMI.Lib.CText

namespace CMemory

open CText

/-- What a C memory operation can do wrong. -/
inductive Fault where
  /-- A size computed below zero reaches `malloc`, `memset` or `memcpy`. -/
  | negativeSize
  /-- A read at or beyond the end of its array. -/
  | readPast
  /-- A write beyond the end of its block. -/
  | writePast
  /-- An access through a null pointer. -/
  | nullPointer
  deriving DecidableEq, Repr

@[simp] theorem ok_bind {α β : Type} (a : α) (f : α → Except Fault β) :
    (Except.ok a >>= f) = f a := rfl

/-- A run without a fault had none in its first part. -/
theorem ok_of_bind {α β : Type} {x : Except Fault α} {f : α → Except Fault β} {b : β}
    (h : (x >>= f) = .ok b) : ∃ a, x = .ok a ∧ f a = .ok b := by
  cases x with
  | error e => cases h
  | ok a => exact ⟨a, rfl, h⟩

theorem ok_of_map {α β : Type} {x : Except Fault α} {f : α → β} {b : β}
    (h : f <$> x = .ok b) : ∃ a, x = .ok a ∧ f a = b := by
  cases x with
  | error e => cases h
  | ok a => exact ⟨a, rfl, Except.ok.inj h⟩

/-! ## §1. Reading an array. -/

/-- `m[i]` -/
def read (m : List UInt8) (i : ℕ) : Except Fault UInt8 :=
  match m[i]? with
  | some b => .ok b
  | none => .error .readPast

/-- The `n` bytes from `m[i]` on. -/
def slice (m : List UInt8) (i : ℕ) (n : ℤ) : Except Fault (List UInt8) :=
  if n < 0 then .error .negativeSize
  else if i + n.toNat ≤ m.length then .ok ((m.drop i).take n.toNat)
  else .error .readPast

theorem read_of_lt {m : List UInt8} {i : ℕ} (h : i < m.length) : read m i = .ok m[i] := by
  unfold read
  rw [List.getElem?_eq_getElem h]

theorem slice_of_le {m : List UInt8} {i : ℕ} {n : ℤ} (h0 : 0 ≤ n)
    (h : i + n.toNat ≤ m.length) : slice m i n = .ok ((m.drop i).take n.toNat) := by
  unfold slice
  rw [if_neg (by omega), if_pos h]

/-- A byte behind a known stretch. -/
theorem read_append {pre post : List UInt8} {b : UInt8} {i : ℕ} (h : i = pre.length) :
    read (pre ++ b :: post) i = .ok b := by
  unfold read
  rw [h, List.getElem?_append_right (Nat.le_refl _), Nat.sub_self]
  rfl

/-- A stretch behind a known one. -/
theorem slice_append {pre mid post : List UInt8} {i : ℕ} {n : ℤ} (hi : i = pre.length)
    (hn : n = mid.length) : slice (pre ++ (mid ++ post)) i n = .ok mid := by
  rw [slice_of_le (by omega) (by simp only [List.length_append]; omega), hi, hn,
    List.drop_left, Int.toNat_natCast, List.take_left]

/-! ## §2. Blocks. -/

/-- An allocated block: its size, and its bytes as far as they have been
written.  Nothing is ever written beyond the size. -/
structure Block where
  size : ℕ
  bytes : List UInt8
  fits : bytes.length ≤ size
  deriving DecidableEq, Repr

namespace Block

@[ext] theorem ext {b c : Block} (hs : b.size = c.size) (hb : b.bytes = c.bytes) : b = c := by
  cases b
  cases c
  cases hs
  cases hb
  rfl

/-- `malloc(len + 1)`, then `memset(p, '\0', len)`. -/
def fresh (len : ℕ) : Block :=
  { size := len + 1
    bytes := List.replicate len 0
    fits := by rw [List.length_replicate]; omega }

/-- The bytes after `bs` is written over the front of the block. -/
def overwritten (bs old : List UInt8) : List UInt8 := bs ++ old.drop bs.length

/-- `memcpy(p, bs, …)` -/
def store (bs : List UInt8) (b : Block) : Except Fault Block :=
  if h : bs.length ≤ b.size then
    .ok { size := b.size
          bytes := overwritten bs b.bytes
          fits := by
            have hb := b.fits
            rw [overwritten, List.length_append, List.length_drop]
            omega }
  else .error .writePast

/-- A block of `len` zeros and one more byte with `bs` written over its front. -/
def filled (len : ℕ) (bs : List UInt8) : Block :=
  { size := max (len + 1) bs.length
    bytes := overwritten bs (List.replicate len 0)
    fits := by
      rw [overwritten, List.length_append, List.length_drop, List.length_replicate]
      omega }

/-- `memset(p, '\0', n)`, as far as it stays inside the block. -/
def clear (n : ℕ) (b : Block) : Block :=
  { size := b.size
    bytes := overwritten (List.replicate (min n b.size) 0) b.bytes
    fits := by
      have hb := b.fits
      rw [overwritten, List.length_append, List.length_drop, List.length_replicate]
      omega }

/-- The C string in the block. -/
def cstr (b : Block) : List UInt8 := CText.cstr b.bytes

@[simp] theorem size_fresh (len : ℕ) : (fresh len).size = len + 1 := rfl

theorem store_fresh {len : ℕ} {bs : List UInt8} (h : bs.length ≤ len + 1) :
    (fresh len).store bs = .ok (filled len bs) := by
  unfold store
  rw [dif_pos (show bs.length ≤ (fresh len).size from h)]
  congr 1
  ext1
  · exact (Nat.max_eq_left h).symm
  · rfl

theorem size_filled {len : ℕ} {bs : List UInt8} (h : bs.length ≤ len + 1) :
    (filled len bs).size = len + 1 := Nat.max_eq_left h

/-- Zeros over zeros. -/
theorem filled_zero {len : ℕ} (h : 0 < len) : filled len [0] = fresh len := by
  obtain ⟨n, rfl⟩ := Nat.exists_eq_add_of_lt h
  ext1
  · exact Nat.max_eq_left (by rw [List.length_singleton]; omega)
  · show [0] ++ (List.replicate (0 + n + 1) (0 : UInt8)).drop 1 = List.replicate (0 + n + 1) 0
    rw [List.replicate_succ]
    rfl

/-- A shorter text over fresh zeros is that text again. -/
theorem cstr_filled_of_lt {len : ℕ} {bs : List UInt8} (h : bs.length < len) :
    (filled len bs).cstr = CText.cstr bs := by
  show CText.cstr (bs ++ (List.replicate len (0 : UInt8)).drop bs.length) = _
  rw [List.drop_replicate, show len - bs.length = (len - bs.length - 1) + 1 by omega,
    List.replicate_succ]
  exact cstr_append_nul_eq bs _

theorem cstr_filled {len : ℕ} {bs : List UInt8} (hlen : bs.length < len)
    (hnul : ∀ b ∈ bs, b ≠ 0) : (filled len bs).cstr = bs :=
  (cstr_filled_of_lt hlen).trans (cstr_eq_self hnul)

/-- A string with its NUL is that string, whatever lies behind it. -/
theorem cstr_filled_nul {len : ℕ} {bs : List UInt8} :
    (filled len (bs ++ [0])).cstr = CText.cstr bs := by
  show CText.cstr ((bs ++ [0]) ++ _) = CText.cstr bs
  rw [List.append_assoc, List.singleton_append]
  exact cstr_append_nul_eq bs _

/-- The C string of a filled block tells what filled it, if it is as long. -/
theorem eq_of_cstr_filled {len : ℕ} {bs w : List UInt8} (h : (filled len bs).cstr = w)
    (hlen : bs.length = w.length) : bs = w := by
  have hpre : w <+: bs ++ (List.replicate len (0 : UInt8)).drop bs.length := by
    rw [← h]
    exact List.takeWhile_prefix _
  exact ((List.prefix_append_right_inj []).mpr
    (List.prefix_of_prefix_length_le hpre (List.prefix_append bs _) (by omega))).eq_of_length
      hlen.symm |>.symm

end Block

/-! ## §3. `sscanf(m + i, "%[^…]", p)`. -/

/-- The run of bytes outside `stop` from `m[i]` on goes into the block with a
NUL behind it; an empty run leaves the block alone.  The scan ends at a NUL,
and must end inside `m`; that `m` has a NUL at all, which `sscanf` looks for
first, is `EndsFrom`. -/
def scanInto (stop : UInt8 → Bool) (m : List UInt8) (i : ℕ) (b : Block) : Except Fault Block :=
  match scanset (fun c => c == 0 || stop c) (m.drop i) with
  | none => if i < m.length then .ok b else .error .readPast
  | some (_, []) => .error .readPast
  | some (run, _ :: _) => b.store (run ++ [0])

/-- The C string at `m + i` ends inside `m`. -/
def EndsFrom (m : List UInt8) (i : ℕ) : Prop := 0 ∈ m.drop i

instance (m : List UInt8) (i : ℕ) : Decidable (EndsFrom m i) :=
  inferInstanceAs (Decidable (0 ∈ m.drop i))

/-- A run that ends at a stop byte. -/
theorem scanInto_run {stop : UInt8 → Bool} {pre run post : List UInt8} {c : UInt8} {i : ℕ}
    {b : Block} (hi : i = pre.length) (hne : run ≠ [])
    (hrun : ∀ x ∈ run, x ≠ 0 ∧ stop x = false) (hc : stop c = true) :
    scanInto stop (pre ++ (run ++ c :: post)) i b = b.store (run ++ [0]) := by
  have hstop : ∀ x ∈ run, (x == 0 || stop x) = false := by
    intro x hx
    obtain ⟨h0, hs⟩ := hrun x hx
    simp [h0, hs]
  unfold scanInto
  rw [hi, List.drop_left, scanset_append post hne hstop (by simp [hc])]

/-- No run at all. -/
theorem scanInto_stop {stop : UInt8 → Bool} {pre post : List UInt8} {c : UInt8} {i : ℕ}
    {b : Block} (hi : i = pre.length) (hc : stop c = true) :
    scanInto stop (pre ++ c :: post) i b = .ok b := by
  unfold scanInto
  rw [hi, List.drop_left]
  unfold scanset
  rw [List.takeWhile_cons_of_neg (by simp [hc])]
  simp

/-- The run that a scan takes. -/
def scanned (stop : UInt8 → Bool) (s : List UInt8) : List UInt8 :=
  s.takeWhile fun c => !(c == 0 || stop c)

theorem ne_zero_of_mem_scanned {stop : UInt8 → Bool} {s : List UInt8} {b : UInt8}
    (h : b ∈ scanned stop s) : b ≠ 0 := by
  have hb := List.mem_takeWhile_imp h
  rintro rfl
  simp at hb

/-- A run that ends inside the bytes ends at a NUL or a stop byte. -/
theorem exists_stop {stop : UInt8 → Bool} {s : List UInt8}
    (h : (scanned stop s).length < s.length) :
    ∃ c r, s = scanned stop s ++ c :: r ∧ (c = 0 ∨ stop c = true) := by
  have hsplit : scanned stop s ++ s.dropWhile (fun c => !(c == 0 || stop c)) = s :=
    List.takeWhile_append_dropWhile
  cases hrest : s.dropWhile (fun c => !(c == 0 || stop c)) with
  | nil =>
      rw [hrest, List.append_nil] at hsplit
      rw [hsplit] at h
      omega
  | cons c r =>
      have hc := List.head?_dropWhile_not (fun c => !(c == 0 || stop c)) s
      rw [hrest] at hsplit hc
      exact ⟨c, r, hsplit.symm, by simpa [or_iff_not_imp_left] using hc⟩

/-- The run before a NUL or a stop byte. -/
theorem scanned_append_stop {stop : UInt8 → Bool} {w : List UInt8} {c : UInt8} (r : List UInt8)
    (hw : ∀ b ∈ w, b ≠ 0 ∧ stop b = false) (hc : c = 0 ∨ stop c = true) :
    scanned stop (w ++ c :: r) = w :=
  takeWhile_append_stop _ r (fun b hb => by simpa using hw b hb)
    (by simpa [or_iff_not_imp_left] using hc)

/-- A stop byte ends every run, if a byte before it has not. -/
theorem scanned_append {stop : UInt8 → Bool} {c : UInt8} (p r : List UInt8) (hc : stop c = true) :
    scanned stop (p ++ c :: r) = scanned stop p := by
  by_cases h : (scanned stop p).length < p.length
  · exact takeWhile_append_of_short _ h
  · have hall : scanned stop p = p := by
      have hpre : scanned stop p <+: p := List.takeWhile_prefix _
      exact hpre.eq_of_length_le (by omega)
    have hp : ∀ b ∈ p, (!(b == 0 || stop b)) = true := List.takeWhile_eq_self_iff.mp hall
    rw [hall]
    exact takeWhile_append_stop _ r hp (by simp [hc])

theorem scanset_scanned (stop : UInt8 → Bool) (s : List UInt8) :
    scanset (fun c => c == 0 || stop c) s
      = if scanned stop s = [] then none
        else some (scanned stop s, s.dropWhile fun c => !(c == 0 || stop c)) := scanset_eq _ s

/-- A string and its NUL over the zeros of a fresh block. -/
theorem Block.store_fresh_iff {run w : List UInt8} {n : ℕ} (hrun : CText.cstr run = run) :
    (∃ b, (Block.fresh n).store (run ++ [0]) = .ok b ∧ b.cstr = w) ↔ run = w ∧ w.length ≤ n := by
  by_cases hfit : run.length ≤ n
  · rw [Block.store_fresh (by rw [List.length_append, List.length_singleton]; omega)]
    constructor
    · rintro ⟨b, hb, rfl⟩
      cases hb
      rw [Block.cstr_filled_nul, hrun]
      exact ⟨rfl, hfit⟩
    · rintro ⟨rfl, -⟩
      exact ⟨_, rfl, by rw [Block.cstr_filled_nul, hrun]⟩
  · have hno : (Block.fresh n).store (run ++ [0]) = .error .writePast := by
      unfold Block.store
      rw [dif_neg]
      rw [List.length_append, List.length_singleton, Block.size_fresh]
      omega
    rw [hno]
    constructor
    · rintro ⟨b, hb, -⟩
      cases hb
    · rintro ⟨rfl, hle⟩
      exact absurd hle hfit

/-- A scan into a fresh block leaves its run there as a C string; the run ends
before the array does, and fits. -/
theorem scanInto_fresh_iff {stop : UInt8 → Bool} {m : List UInt8} {i n : ℕ} {w : List UInt8} :
    (∃ b, scanInto stop m i (Block.fresh n) = .ok b ∧ b.cstr = w) ↔
      scanned stop (m.drop i) = w ∧ w.length < (m.drop i).length ∧ w.length ≤ n := by
  have hsplit : scanned stop (m.drop i) ++ (m.drop i).dropWhile (fun c => !(c == 0 || stop c))
      = m.drop i := List.takeWhile_append_dropWhile
  have hnul : CText.cstr (scanned stop (m.drop i)) = scanned stop (m.drop i) :=
    cstr_eq_self fun _ hb => ne_zero_of_mem_scanned hb
  have hlen := congrArg List.length hsplit
  rw [List.length_append] at hlen
  unfold scanInto
  rw [scanset_scanned]
  by_cases hnil : scanned stop (m.drop i) = []
  · -- an empty run leaves zeros
    have hz : (Block.fresh n).cstr = [] := by
      show CText.cstr (List.replicate n 0) = []
      cases n <;> rfl
    have hi : i < m.length ↔ 0 < (m.drop i).length := by
      rw [List.length_drop]
      omega
    rw [if_pos hnil, hnil]
    simp only [hi]
    split
    · rename_i hpos
      constructor
      · rintro ⟨b, hb, rfl⟩
        cases hb
        rw [hz]
        exact ⟨rfl, hpos, Nat.zero_le n⟩
      · rintro ⟨rfl, -, -⟩
        exact ⟨_, rfl, hz⟩
    · rename_i hpos
      constructor
      · rintro ⟨b, hb, -⟩
        cases hb
      · rintro ⟨rfl, hlt, -⟩
        exact absurd hlt hpos
  · rw [if_neg hnil]
    cases hrest : (m.drop i).dropWhile (fun c => !(c == 0 || stop c)) with
    | nil =>
        rw [hrest, List.length_nil] at hlen
        constructor
        · rintro ⟨b, hb, -⟩
          cases hb
        · rintro ⟨rfl, hlt, -⟩
          omega
    | cons c rest =>
        rw [hrest, List.length_cons] at hlen
        change (∃ b, (Block.fresh n).store (scanned stop (m.drop i) ++ [0]) = .ok b ∧ b.cstr = w)
          ↔ _
        rw [Block.store_fresh_iff hnul]
        constructor
        · rintro ⟨rfl, hle⟩
          exact ⟨rfl, by omega, hle⟩
        · rintro ⟨rfl, -, hle⟩
          exact ⟨rfl, hle⟩

/-- In a C string that ends, every scan ends. -/
theorem EndsFrom.length_scanned_lt {m : List UInt8} {i : ℕ} (h : EndsFrom m i)
    (stop : UInt8 → Bool) : (scanned stop (m.drop i)).length < (m.drop i).length := by
  have hpre : scanned stop (m.drop i) <+: m.drop i := List.takeWhile_prefix _
  refine lt_of_le_of_ne hpre.length_le fun hlen => ?_
  -- a scan of all of it would have taken the NUL
  have hzero : (0 : UInt8) ∈ scanned stop (m.drop i) := by
    rw [hpre.eq_of_length hlen]
    exact h
  exact ne_zero_of_mem_scanned hzero rfl

/-- A scan that must stop after at most `p` succeeds in a fresh block with room for `p`. -/
theorem scanInto_within {stop : UInt8 → Bool} {pre p : List UInt8} (post : List UInt8)
    {c : UInt8} {i n : ℕ} (hi : i = pre.length) (hc : stop c = true) (hroom : p.length ≤ n) :
    ∃ d, scanInto stop (pre ++ (p ++ c :: post)) i (Block.fresh n) = .ok d ∧
      d.cstr = scanned stop p := by
  have hshort : (scanned stop p).length ≤ p.length := (List.takeWhile_prefix _).length_le
  rw [scanInto_fresh_iff, hi, List.drop_left]
  refine ⟨scanned_append p post hc, ?_, by omega⟩
  rw [List.length_append, List.length_cons]
  omega

/-- Such a scan leaves its run and a NUL over the zeros of the block. -/
theorem scanInto_filled {stop : UInt8 → Bool} {pre p : List UInt8} (post : List UInt8)
    {c : UInt8} {i n : ℕ} (hi : i = pre.length) (hc : stop c = true) (hn : 0 < n)
    (hroom : p.length ≤ n) :
    scanInto stop (pre ++ (p ++ c :: post)) i (Block.fresh n)
      = .ok (Block.filled n (scanned stop p ++ [0])) := by
  have hshort : (scanned stop p).length ≤ p.length := (List.takeWhile_prefix _).length_le
  have hscan := scanset_scanned stop (p ++ c :: post)
  rw [scanned_append p post hc] at hscan
  unfold scanInto
  rw [hi, List.drop_left, hscan]
  by_cases hnil : scanned stop p = []
  · rw [if_pos hnil, hnil, List.nil_append, Block.filled_zero hn]
    exact if_pos (by simp only [List.length_append, List.length_cons]; omega)
  · rw [if_neg hnil]
    have hsplit : scanned stop p ++ (p ++ c :: post).dropWhile (fun c => !(c == 0 || stop c))
        = p ++ c :: post := by
      rw [← scanned_append p post hc]
      exact List.takeWhile_append_dropWhile
    cases hrest : (p ++ c :: post).dropWhile (fun c => !(c == 0 || stop c)) with
    | nil =>
        have hlen := congrArg List.length hsplit
        rw [hrest] at hlen
        simp only [List.length_append, List.length_cons, List.length_nil] at hlen
        omega
    | cons d r => exact Block.store_fresh (by simp; omega)

/-! ## §4. When an access succeeds. -/

/-- The run commits no fault. -/
def Succeeds {α : Type} (x : Except Fault α) : Prop := ∃ a, x = .ok a

theorem succeeds_pure {α : Type} (a : α) : Succeeds (pure a : Except Fault α) ↔ True :=
  iff_true_intro ⟨a, rfl⟩

/-- Where the second part's success does not depend on the first one's result. -/
theorem succeeds_bind {α β : Type} {x : Except Fault α} {f : α → Except Fault β} {Q : Prop}
    (h : ∀ a, x = .ok a → (Succeeds (f a) ↔ Q)) : Succeeds (x >>= f) ↔ Succeeds x ∧ Q := by
  constructor
  · rintro ⟨b, hb⟩
    obtain ⟨a, ha, hfa⟩ := ok_of_bind hb
    exact ⟨⟨a, ha⟩, (h a ha).mp ⟨b, hfa⟩⟩
  · rintro ⟨⟨a, ha⟩, hQ⟩
    rw [ha]
    exact (h a ha).mpr hQ

/-- Where the second part always succeeds. -/
theorem succeeds_bind_of {α β : Type} {x : Except Fault α} {f : α → Except Fault β}
    (h : ∀ a, x = .ok a → Succeeds (f a)) : Succeeds (x >>= f) ↔ Succeeds x :=
  (succeeds_bind fun a ha => iff_true_intro (h a ha)).trans (and_iff_left trivial)

theorem succeeds_read {m : List UInt8} {i : ℕ} : Succeeds (read m i) ↔ i < m.length := by
  constructor
  · rintro ⟨b, hb⟩
    by_contra hi
    unfold read at hb
    rw [List.getElem?_eq_none (by omega)] at hb
    cases hb
  · intro hi
    exact ⟨_, read_of_lt hi⟩

/-- A read, and then something that does not depend on the byte. -/
theorem succeeds_read_bind {β : Type} {m : List UInt8} {i : ℕ} {f : UInt8 → Except Fault β}
    {Q : Prop} (h : ∀ b, Succeeds (f b) ↔ Q) : Succeeds (read m i >>= f) ↔ i < m.length ∧ Q := by
  rw [succeeds_bind fun b _ => h b, succeeds_read]

theorem succeeds_slice {m : List UInt8} {i : ℕ} {n : ℤ} :
    Succeeds (slice m i n) ↔ 0 ≤ n ∧ i + n.toNat ≤ m.length := by
  constructor
  · rintro ⟨bs, hbs⟩
    unfold slice at hbs
    split at hbs
    · cases hbs
    · split at hbs
      · omega
      · cases hbs
  · rintro ⟨h0, hle⟩
    exact ⟨_, slice_of_le h0 hle⟩

theorem eq_of_slice {m bs : List UInt8} {i : ℕ} {n : ℤ} (h : slice m i n = .ok bs) :
    bs = (m.drop i).take n.toNat ∧ bs.length = n.toNat := by
  obtain ⟨h0, hle⟩ := succeeds_slice.mp ⟨bs, h⟩
  rw [slice_of_le h0 hle] at h
  cases h
  refine ⟨rfl, ?_⟩
  rw [List.length_take, List.length_drop]
  omega

theorem succeeds_store {b : Block} {bs : List UInt8} :
    Succeeds (b.store bs) ↔ bs.length ≤ b.size := by
  unfold Block.store
  split
  · rename_i h
    exact iff_of_true ⟨_, rfl⟩ h
  · rename_i h
    exact iff_of_false (fun ⟨_, hc⟩ => nomatch hc) h

/-- No access through a null pointer. -/
def NoNull {α : Type} (x : Except Fault α) : Prop := x ≠ .error .nullPointer

theorem noNull_ok {α : Type} (a : α) : NoNull (Except.ok a : Except Fault α) := nofun

theorem NoNull.bind {α β : Type} {x : Except Fault α} {f : α → Except Fault β} (hx : NoNull x)
    (hf : ∀ a, NoNull (f a)) : NoNull (x >>= f) := by
  cases x with
  | error e =>
      intro h
      cases h
      exact hx rfl
  | ok a => exact hf a

theorem noNull_read (m : List UInt8) (i : ℕ) : NoNull (read m i) := by
  unfold NoNull read
  split <;> simp

theorem noNull_slice (m : List UInt8) (i : ℕ) (n : ℤ) : NoNull (slice m i n) := by
  unfold NoNull slice
  split
  · simp
  · split <;> simp

theorem noNull_store (bs : List UInt8) (b : Block) : NoNull (b.store bs) := by
  unfold NoNull Block.store
  split <;> simp

theorem noNull_scanInto (stop : UInt8 → Bool) (m : List UInt8) (i : ℕ) (b : Block) :
    NoNull (scanInto stop m i b) := by
  unfold scanInto
  split
  · unfold NoNull
    split <;> simp
  · simp [NoNull]
  · exact noNull_store _ b

end CMemory
