/-
  StoneHMI.Receive.Uart
  ─────────────────────
  **THE UART FRAMER — `uart_task` of stone_receive.c.**

  `uart_read` is one turn of the task's endless loop: a read of `len` bytes
  lands in `data`, `data[len]` becomes NUL, and the inner loop copies byte
  after byte into `STONE_RX_BUF`.  Where the three bytes of `'>ET'` stand in
  `data`, four more bytes are copied unseen, `receive_parse` is called on the
  accumulated frame, and `STONE_RX_CNT` starts again at 0.

  The loop is the faithful one: it indexes `data` and `STONE_RX_BUF`, and the
  index jumps by five at a terminator.  `loopOps` names the operations it
  performs and `rxLoop_eq_ops` says it performs exactly these; the lemmas of
  §4 say which operations a stretch of a read without a terminator, and one
  up to its first terminator, amount to.
-/
import StoneHMI.Lib.Delimiter
import Mathlib.Data.List.Range
import Mathlib.Data.List.GetD

namespace StoneHMI

/-! ## §1. Constants and state. -/

/-- `RX_LEN` of stone.h. -/
def RX_LEN : ℕ := 200

/-- `frame_head`: `'S','T','<'`. -/
def frame_head : List UInt8 := [0x53, 0x54, 0x3c]

/-- `frame_end`: `'>','E','T'`. -/
def frame_end : List UInt8 := [0x3e, 0x45, 0x54]

theorem frame_end_ne_nil : frame_end ≠ [] := by simp [frame_end]

theorem frame_end_length : frame_end.length = 3 := rfl

/-- The receive buffer, its counter, and (for the record) the buffer and the
counter at each call of `receive_parse`. -/
structure Rx where
  STONE_RX_BUF : List UInt8
  STONE_RX_CNT : ℕ
  parsed : List (List UInt8 × ℕ)
  deriving Repr, DecidableEq

/-- One copy `STONE_RX_BUF[idx] = data[src]`, in a read of `len` bytes. -/
structure Store where
  idx : ℕ
  src : ℕ
  len : ℕ
  deriving Repr, DecidableEq

/-- The task's state.  `data` is the `malloc`ed read buffer with whatever
older reads left in it, and the heap bytes behind it. -/
structure Uart where
  data : List UInt8
  rx : Rx
  stores : List Store
  deriving Repr, DecidableEq

/-- Start of `uart_task`: `STONE_RX_CNT` is 0, both buffers hold anything. -/
def Uart.start (data buf : List UInt8) : Uart :=
  { data := data, rx := { STONE_RX_BUF := buf, STONE_RX_CNT := 0, parsed := [] }, stores := [] }

/-! ## §2. The loop. -/

/-- `STONE_RX_BUF[STONE_RX_CNT++] = b`; the counter is an `unsigned short`. -/
def Rx.put (rx : Rx) (b : UInt8) : Rx :=
  { rx with
    STONE_RX_BUF := rx.STONE_RX_BUF.set rx.STONE_RX_CNT b
    STONE_RX_CNT := (rx.STONE_RX_CNT + 1) % 65536 }

/-- `receive_parse(); STONE_RX_CNT = 0;` -/
def Rx.parse (rx : Rx) : Rx :=
  { rx with
    STONE_RX_CNT := 0
    parsed := rx.parsed ++ [(rx.STONE_RX_BUF, rx.STONE_RX_CNT)] }

/-- `STONE_RX_BUF[STONE_RX_CNT++] = data[i]` in a read of `len` bytes. -/
def Uart.copy (len i : ℕ) (u : Uart) : Uart :=
  { u with
    rx := u.rx.put (u.data.getD i 0)
    stores := u.stores ++ [⟨u.rx.STONE_RX_CNT, i, len⟩] }

def Uart.receive (u : Uart) : Uart := { u with rx := u.rx.parse }

/-- `data[i]==0x3e && data[i+1]==0x45 && data[i+2]==0x54` -/
def isEnd (data : List UInt8) (i : ℕ) : Bool :=
  data.getD i 0 == 0x3e && data.getD (i + 1) 0 == 0x45 && data.getD (i + 2) 0 == 0x54

/-- `for (i = …; i < len; i++)`; every turn advances `i`, so `len` turns are
enough fuel. -/
def rxLoop (len : ℕ) : ℕ → ℕ → Uart → Uart
  | 0, _, u => u
  | fuel + 1, i, u =>
      if i < len then
        let u := u.copy len i
        if isEnd u.data i then
          -- not compared with `len`: the last copies may leave the read
          let u := u.copy len (i + 1)
          let u := u.copy len (i + 2)
          let u := u.copy len (i + 3)
          let u := u.copy len (i + 4)
          let u := u.receive
          rxLoop len fuel (i + 4 + 1) u
        else rxLoop len fuel (i + 1) u
      else u

/-- `data` after `uart_read_bytes` returned the bytes `chunk`, and
`data[len] = '\0'`. -/
def readInto (data chunk : List UInt8) : List UInt8 :=
  chunk ++ 0 :: data.drop (chunk.length + 1)

/-- One turn of `while (1)`, for the bytes `chunk` of one read. -/
def uart_read (u : Uart) (chunk : List UInt8) : Uart :=
  if chunk = [] then u
  else rxLoop chunk.length chunk.length 0 { u with data := readInto u.data chunk }

/-- The task over a sequence of reads. -/
def uart_task (u : Uart) (chunks : List (List UInt8)) : Uart := chunks.foldl uart_read u

/-! ## §3. The operations of the loop. -/

/-- What the loop does to the receive buffer. -/
inductive RxOp where
  /-- Copy `data[i]`. -/
  | copy (i : ℕ)
  /-- Call `receive_parse` and restart the counter. -/
  | receive
  deriving Repr, DecidableEq

def Uart.op (len : ℕ) (u : Uart) : RxOp → Uart
  | .copy i => u.copy len i
  | .receive => u.receive

/-- The operations of the loop from index `i`: they depend on `data` only. -/
def loopOps (data : List UInt8) (len : ℕ) : ℕ → ℕ → List RxOp
  | 0, _ => []
  | fuel + 1, i =>
      if i < len then
        if isEnd data i then
          [.copy i, .copy (i + 1), .copy (i + 2), .copy (i + 3), .copy (i + 4), .receive]
            ++ loopOps data len fuel (i + 5)
        else .copy i :: loopOps data len fuel (i + 1)
      else []

/-- The operations of the loop from index `i`, with the fuel it needs. -/
def opsFrom (data : List UInt8) (len i : ℕ) : List RxOp := loopOps data len (len - i) i

@[simp] theorem Uart.copy_data (len i : ℕ) (u : Uart) : (u.copy len i).data = u.data := rfl

@[simp] theorem Uart.receive_data (u : Uart) : u.receive.data = u.data := rfl

/-- **The loop performs exactly its operations.** -/
theorem rxLoop_eq_ops (len : ℕ) :
    ∀ (fuel i : ℕ) (u : Uart),
      rxLoop len fuel i u = (loopOps u.data len fuel i).foldl (Uart.op len) u := by
  intro fuel
  induction fuel with
  | zero => intro i u; rfl
  | succ fuel ih =>
      intro i u
      unfold rxLoop loopOps
      by_cases hi : i < len
      · rw [if_pos hi, if_pos hi]
        -- the copy of `data[i]` comes before the test, but leaves `data` alone
        by_cases hend : isEnd u.data i = true
        · have hcopy : isEnd (u.copy len i).data i = true := hend
          rw [if_pos hend]
          simp only [if_pos hcopy]
          rw [ih]
          rfl
        · have hcopy : ¬ isEnd (u.copy len i).data i = true := hend
          rw [if_neg hend]
          simp only [if_neg hcopy]
          rw [ih]
          rfl
      · rw [if_neg hi, if_neg hi]
        rfl

theorem uart_read_eq_ops (u : Uart) (chunk : List UInt8) (h : chunk ≠ []) :
    uart_read u chunk
      = (opsFrom (readInto u.data chunk) chunk.length 0).foldl (Uart.op chunk.length)
          { u with data := readInto u.data chunk } := by
  unfold uart_read
  rw [if_neg h, rxLoop_eq_ops]
  rfl

/-! ## §4. Stretches of a read. -/

/-- Fuel beyond the bytes that are left changes nothing. -/
theorem loopOps_fuel (data : List UInt8) (len : ℕ) :
    ∀ (fuel i : ℕ), len - i ≤ fuel → loopOps data len fuel i = opsFrom data len i := by
  intro fuel
  induction fuel using Nat.strongRecOn with
  | ind fuel ih =>
      intro i hf
      unfold opsFrom
      by_cases hi : i < len
      · -- both sides take one turn, and the index grows at least by one
        obtain ⟨f, rfl⟩ : ∃ f, fuel = f + 1 := ⟨fuel - 1, by omega⟩
        obtain ⟨g, hg⟩ : ∃ g, len - i = g + 1 := ⟨len - i - 1, by omega⟩
        rw [hg]
        unfold loopOps
        rw [if_pos hi, if_pos hi]
        have hgf : g ≤ f := by omega
        split
        · rw [ih f (by omega) (i + 5) (by omega)]
          by_cases hge : g < f + 1
          · rw [ih g hge (i + 5) (by omega)]
          · omega
        · rw [ih f (by omega) (i + 1) (by omega), ih g (by omega) (i + 1) (by omega)]
      · have h0 : len - i = 0 := by omega
        rw [h0]
        cases fuel with
        | zero => rfl
        | succ f =>
            unfold loopOps
            rw [if_neg hi]

theorem opsFrom_done {data : List UInt8} {len i : ℕ} (h : len ≤ i) :
    opsFrom data len i = [] := by
  unfold opsFrom
  rw [Nat.sub_eq_zero_of_le h]
  rfl

theorem opsFrom_copy {data : List UInt8} {len i : ℕ} (hi : i < len)
    (hend : isEnd data i = false) :
    opsFrom data len i = .copy i :: opsFrom data len (i + 1) := by
  conv_lhs => unfold opsFrom
  obtain ⟨f, hf⟩ : ∃ f, len - i = f + 1 := ⟨len - i - 1, by omega⟩
  rw [hf, loopOps, if_pos hi, hend, if_neg (by simp), loopOps_fuel _ _ _ _ (by omega)]

theorem opsFrom_end {data : List UInt8} {len i : ℕ} (hi : i < len)
    (hend : isEnd data i = true) :
    opsFrom data len i
      = (List.range' i 5).map .copy ++ .receive :: opsFrom data len (i + 5) := by
  conv_lhs => unfold opsFrom
  obtain ⟨f, hf⟩ : ∃ f, len - i = f + 1 := ⟨len - i - 1, by omega⟩
  rw [hf, loopOps, if_pos hi, hend, if_pos rfl, loopOps_fuel _ _ _ _ (by omega)]
  rfl

/-- `n` indices without a terminator are copied one by one. -/
theorem opsFrom_stretch {data : List UInt8} {len : ℕ} :
    ∀ (n i : ℕ), i + n ≤ len → (∀ j < n, isEnd data (i + j) = false) →
      opsFrom data len i = (List.range' i n).map .copy ++ opsFrom data len (i + n) := by
  intro n
  induction n with
  | zero => intro i _ _; rfl
  | succ n ih =>
      intro i hlen hend
      have h0 : isEnd data i = false := hend 0 (Nat.succ_pos n)
      have hnext : ∀ j < n, isEnd data (i + 1 + j) = false := by
        intro j hj
        rw [show i + 1 + j = i + (j + 1) by omega]
        exact hend (j + 1) (by omega)
      rw [opsFrom_copy (by omega) h0, ih (i + 1) (by omega) hnext, List.range'_succ,
        show i + 1 + n = i + (n + 1) by omega]
      rfl

/-- A read without a further terminator is copied to its end. -/
theorem opsFrom_none {data : List UInt8} {len i : ℕ} (hi : i ≤ len)
    (hend : ∀ j, i + j < len → isEnd data (i + j) = false) :
    opsFrom data len i = (List.range' i (len - i)).map .copy := by
  rw [opsFrom_stretch (len - i) i (by omega) (fun j hj => hend j (by omega)),
    opsFrom_done (by omega), List.append_nil]

/-- Up to its first terminator, at `i + n`, a read is copied with the four
bytes behind the `'>'`, and then parsed. -/
theorem opsFrom_first {data : List UInt8} {len i n : ℕ} (hn : i + n < len)
    (hfirst : ∀ j < n, isEnd data (i + j) = false) (hend : isEnd data (i + n) = true) :
    opsFrom data len i
      = (List.range' i (n + 5)).map .copy ++ .receive :: opsFrom data len (i + n + 5) := by
  rw [opsFrom_stretch n i (by omega) hfirst, opsFrom_end hn hend, ← List.append_assoc,
    ← List.map_append, List.range'_append_1]

/-! ## §5. What the scan finds in a read. -/

/-- Within a read the three-byte test sees the read's own bytes only: the NUL
behind it is not part of `'>ET'`. -/
theorem isEnd_iff {c : List UInt8} (after : List UInt8) {i : ℕ} (hi : i < c.length) :
    isEnd (c ++ 0 :: after) i = true ↔ frame_end <+: c.drop i := by
  have hget : ∀ j, (c ++ 0 :: after).getD (i + j) 0 = (c.drop i ++ 0 :: after).getD j 0 := by
    intro j
    have hdrop : (c ++ 0 :: after).drop i = c.drop i ++ 0 :: after :=
      List.drop_append_of_le_length (by omega)
    rw [← hdrop, List.getD_eq_getElem?_getD, List.getD_eq_getElem?_getD, List.getElem?_drop]
  have h0 := hget 0
  have h1 := hget 1
  have h2 := hget 2
  rw [Nat.add_zero] at h0
  unfold isEnd frame_end
  rw [h0, h1, h2]
  have hne : c.drop i ≠ [] := by
    rw [Ne, List.drop_eq_nil_iff]
    omega
  -- with fewer than three bytes left, the NUL breaks the mark
  match hs : c.drop i with
  | [] => exact absurd hs hne
  | [b] => simp
  | [b, b'] => simp
  | b :: b' :: b'' :: t =>
      simp only [List.cons_append, List.getD_cons_zero, List.getD_cons_succ, Bool.and_eq_true,
        beq_iff_eq, List.cons_prefix_cons, List.nil_prefix, and_true]
      exact ⟨fun h => ⟨h.1.1.symm, h.1.2.symm, h.2.symm⟩,
        fun h => ⟨⟨h.1.symm, h.2.1.symm⟩, h.2.2.symm⟩⟩

theorem isEnd_false_iff {c : List UInt8} (after : List UInt8) {i : ℕ} (hi : i < c.length) :
    isEnd (c ++ 0 :: after) i = false ↔ ¬ frame_end <+: c.drop i := by
  rw [← isEnd_iff after hi, Bool.not_eq_true]

open Delimiter in
/-- A read whose remaining bytes hold no `'>ET'` is copied to its end. -/
theorem opsFrom_of_findMark_none {c : List UInt8} (after : List UInt8) {i : ℕ}
    (hi : i ≤ c.length) (h : findMark frame_end (c.drop i) = none) :
    opsFrom (c ++ 0 :: after) c.length i = (List.range' i (c.length - i)).map .copy := by
  refine opsFrom_none hi fun j hj => (isEnd_false_iff after hj).mpr ?_
  have hall := (findMark_eq_none_iff frame_end (c.drop i)).mp h j (by
    rw [List.length_drop]
    omega)
  rwa [List.drop_drop] at hall

open Delimiter in
/-- Up to the first `'>ET'` of its remaining bytes, a read is copied together
with the two bytes behind it — wherever these are — and parsed. -/
theorem opsFrom_of_findMark_some {c : List UInt8} (after : List UInt8) {i n : ℕ}
    (h : findMark frame_end (c.drop i) = some n) :
    opsFrom (c ++ 0 :: after) c.length i
      = (List.range' i (n + 5)).map .copy
          ++ .receive :: opsFrom (c ++ 0 :: after) c.length (i + n + 5) := by
  obtain ⟨hlt, hmark, hfirst⟩ := (findMark_eq_some_iff frame_end (c.drop i) n).mp h
  rw [List.length_drop] at hlt
  rw [List.drop_drop] at hmark
  refine opsFrom_first (by omega) (fun j hj => ?_) ((isEnd_iff after (by omega)).mpr hmark)
  rw [isEnd_false_iff after (by omega), ← List.drop_drop]
  exact hfirst j hj

/-! ## §6. Copying a stretch. -/

/-- `n` copies from index `i` on. -/
def Uart.copies (len i n : ℕ) (u : Uart) : Uart :=
  ((List.range' i n).map RxOp.copy).foldl (Uart.op len) u

theorem Uart.copies_succ (len i n : ℕ) (u : Uart) :
    u.copies len i (n + 1) = (u.copy len i).copies len (i + 1) n := by
  unfold Uart.copies
  rw [List.range'_succ]
  rfl

@[simp] theorem Uart.copies_data (len : ℕ) :
    ∀ (n i : ℕ) (u : Uart), (u.copies len i n).data = u.data
  | 0, _, _ => rfl
  | n + 1, i, u => by rw [Uart.copies_succ, Uart.copies_data len n, Uart.copy_data]

/-- A stretch puts its bytes into the receive buffer, one after the other. -/
theorem Uart.copies_rx (len : ℕ) :
    ∀ (n i : ℕ) (u : Uart), i + n ≤ u.data.length →
      (u.copies len i n).rx = ((u.data.drop i).take n).foldl Rx.put u.rx
  | 0, i, u, _ => rfl
  | n + 1, i, u, h => by
      have hi : i < u.data.length := by omega
      have hget : u.data.getD i 0 = u.data[i] := List.getD_eq_getElem u.data 0 hi
      rw [Uart.copies_succ, Uart.copies_rx len n (i + 1) (u.copy len i) (by
        rw [Uart.copy_data]
        omega), Uart.copy_data, List.drop_eq_getElem_cons hi, List.take_succ_cons,
        List.foldl_cons, ← hget]
      rfl

theorem Uart.copies_stores (len : ℕ) :
    ∀ (n i : ℕ) (u : Uart), u.rx.STONE_RX_CNT < 65536 →
      (u.copies len i n).stores
        = u.stores ++ (List.range n).map fun t =>
            (⟨(u.rx.STONE_RX_CNT + t) % 65536, i + t, len⟩ : Store)
  | 0, i, u, _ => by
      rw [List.range_zero, List.map_nil, List.append_nil]
      rfl
  | n + 1, i, u, h => by
      have hcnt : (u.copy len i).rx.STONE_RX_CNT = (u.rx.STONE_RX_CNT + 1) % 65536 := rfl
      have hfirst : (u.copy len i).stores = u.stores ++ [⟨u.rx.STONE_RX_CNT, i, len⟩] := rfl
      rw [Uart.copies_succ, Uart.copies_stores len n (i + 1) (u.copy len i) (by omega), hfirst,
        hcnt, List.range_succ_eq_map, List.map_cons, List.append_assoc, List.singleton_append,
        List.map_map]
      have hhead : (⟨u.rx.STONE_RX_CNT, i, len⟩ : Store)
          = ⟨(u.rx.STONE_RX_CNT + 0) % 65536, i + 0, len⟩ := by
        rw [Nat.add_zero, Nat.add_zero, Nat.mod_eq_of_lt h]
      rw [hhead]
      -- the later copies are those of the shifted stretch
      congr 2
      apply List.map_congr_left
      intro t _
      show (⟨((u.rx.STONE_RX_CNT + 1) % 65536 + t) % 65536, i + 1 + t, len⟩ : Store)
        = ⟨(u.rx.STONE_RX_CNT + (t + 1)) % 65536, i + (t + 1), len⟩
      rw [Nat.mod_add_mod, show u.rx.STONE_RX_CNT + 1 + t = u.rx.STONE_RX_CNT + (t + 1) by omega,
        show i + 1 + t = i + (t + 1) by omega]

theorem Uart.copies_cnt (len : ℕ) :
    ∀ (n i : ℕ) (u : Uart), u.rx.STONE_RX_CNT < 65536 →
      (u.copies len i n).rx.STONE_RX_CNT = (u.rx.STONE_RX_CNT + n) % 65536
  | 0, i, u, h => (Nat.mod_eq_of_lt h).symm
  | n + 1, i, u, h => by
      have hcnt : (u.copy len i).rx.STONE_RX_CNT = (u.rx.STONE_RX_CNT + 1) % 65536 := rfl
      rw [Uart.copies_succ, Uart.copies_cnt len n (i + 1) (u.copy len i) (by omega), hcnt,
        Nat.mod_add_mod, show u.rx.STONE_RX_CNT + 1 + n = u.rx.STONE_RX_CNT + (n + 1) by omega]

end StoneHMI
