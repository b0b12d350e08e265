/-
  StoneHMI.Receive.Bounds
  ───────────────────────
  **WHICH READS THE FRAMER STORES IN BOUNDS.**

  `STONE_RX_BUF` holds `RX_LEN` bytes and a read returns `len` bytes of
  `data`, but the loop of `uart_task` checks neither bound.  `InBounds` says
  that every copy it made used an index below `RX_LEN` and a source below
  `len`; `StreamFits` is the condition on the reads alone under which that is
  so, stated with the pieces into which `'>ET'` and two bytes cut each read:

    • each read's trailing rest holds no `'>ET'` (a terminator has its two
      CRC bytes in the same read), and
    • what is still unparsed of earlier reads, with the first piece (or the
      rest) of this one, and every other piece, is at most `RX_LEN` long.

  `inBounds_iff_streamFits` proves the two equivalent, by a stretch lemma
  (§1), one read (§2), and a run over any sequence of reads (§3).
-/
import StoneHMI.Receive.Uart

namespace StoneHMI

open Delimiter

/-! ## §1. One stretch of copies. -/

/-- The copy is in bounds on both sides. -/
def Store.InBounds (st : Store) : Prop := st.idx < RX_LEN ∧ st.src < st.len

instance (st : Store) : Decidable st.InBounds :=
  inferInstanceAs (Decidable (_ ∧ _))

/-- Every copy made so far was in bounds. -/
def Uart.InBounds (u : Uart) : Prop := ∀ st ∈ u.stores, st.InBounds

instance (u : Uart) : Decidable u.InBounds :=
  inferInstanceAs (Decidable (∀ st ∈ u.stores, st.InBounds))

/-- A non-empty stretch stays in bounds exactly when it ends in bounds. -/
theorem inBounds_copies_iff {len i n : ℕ} {u : Uart} (hu : u.InBounds)
    (hcnt : u.rx.STONE_RX_CNT ≤ RX_LEN) (hn : 0 < n) :
    (u.copies len i n).InBounds ↔ u.rx.STONE_RX_CNT + n ≤ RX_LEN ∧ i + n ≤ len := by
  have hR : RX_LEN = 200 := rfl
  unfold Uart.InBounds
  rw [Uart.copies_stores len n i u (by omega)]
  constructor
  · intro h
    have hat : ∀ t < n, (⟨(u.rx.STONE_RX_CNT + t) % 65536, i + t, len⟩ : Store).InBounds := by
      intro t ht
      exact h _ (List.mem_append_right _ (List.mem_map.mpr ⟨t, List.mem_range.mpr ht, rfl⟩))
    constructor
    · by_contra hlong
      -- the copy that would go to index `RX_LEN`
      have hbad := (hat (RX_LEN - u.rx.STONE_RX_CNT) (by omega)).1
      simp only at hbad
      rw [show u.rx.STONE_RX_CNT + (RX_LEN - u.rx.STONE_RX_CNT) = RX_LEN by omega, hR] at hbad
      omega
    · -- the last copy reads from index `i + n - 1`
      have hlast := (hat (n - 1) (by omega)).2
      simp only at hlast
      omega
  · rintro ⟨hidx, hsrc⟩ st hst
    rcases List.mem_append.mp hst with hold | hnew
    · exact hu st hold
    · obtain ⟨t, ht, rfl⟩ := List.mem_map.mp hnew
      rw [List.mem_range] at ht
      constructor
      · show (u.rx.STONE_RX_CNT + t) % 65536 < RX_LEN
        rw [Nat.mod_eq_of_lt (by omega)]
        omega
      · show i + t < len
        omega

theorem inBounds_receive_iff {u : Uart} : u.receive.InBounds ↔ u.InBounds := Iff.rfl

/-- Out of bounds once, out of bounds ever after. -/
theorem inBounds_of_ops {len : ℕ} (ops : List RxOp) :
    ∀ u : Uart, (ops.foldl (Uart.op len) u).InBounds → u.InBounds := by
  induction ops with
  | nil => intro u h; exact h
  | cons op ops ih =>
      intro u h
      have hstep : (u.op len op).InBounds := ih (u.op len op) h
      cases op with
      | copy i => exact fun st hst => hstep st (List.mem_append_left _ hst)
      | receive => exact hstep

/-! ## §2. One read. -/

/-- The pieces and the rest of a read fit, after `n` bytes that earlier reads
left unparsed. -/
def PiecesFit : ℕ → List (List UInt8) → List UInt8 → Prop
  | n, [], rest => findMark frame_end rest = none ∧ n + rest.length ≤ RX_LEN
  | n, piece :: pieces, rest => n + piece.length ≤ RX_LEN ∧ PiecesFit 0 pieces rest

instance : ∀ (n : ℕ) (pieces : List (List UInt8)) (rest : List UInt8),
    Decidable (PiecesFit n pieces rest)
  | _, [], _ => inferInstanceAs (Decidable (_ ∧ _))
  | _, _ :: pieces, rest =>
      have := instDecidablePiecesFit 0 pieces rest
      inferInstanceAs (Decidable (_ ∧ _))

/-- How many bytes the read leaves unparsed. -/
def unparsed : ℕ → List (List UInt8) → List UInt8 → ℕ
  | n, [], rest => n + rest.length
  | _, _ :: pieces, rest => unparsed 0 pieces rest

/-- The read `c` fits after `n` unparsed bytes. -/
def ReadFits (n : ℕ) (c : List UInt8) : Prop :=
  PiecesFit n (segments frame_end 2 c).1 (segments frame_end 2 c).2

/-- How many bytes are unparsed after the read `c`. -/
def unparsedAfter (n : ℕ) (c : List UInt8) : ℕ :=
  unparsed n (segments frame_end 2 c).1 (segments frame_end 2 c).2

theorem piecesFit_unparsed_le :
    ∀ (n : ℕ) (pieces : List (List UInt8)) (rest : List UInt8),
      PiecesFit n pieces rest → unparsed n pieces rest ≤ RX_LEN
  | _, [], _, h => h.2
  | _, _ :: pieces, rest, h => piecesFit_unparsed_le 0 pieces rest h.2

/-- Without a terminator the read has to fit as it is. -/
theorem readFits_none {c : List UInt8} (h : findMark frame_end c = none) (n : ℕ) :
    (ReadFits n c ↔ n + c.length ≤ RX_LEN) ∧ unparsedAfter n c = n + c.length := by
  unfold ReadFits unparsedAfter
  rw [segments_none h]
  refine ⟨?_, rfl⟩
  show findMark frame_end c = none ∧ _ ↔ _
  exact and_iff_right h

/-- A terminator whose CRC bytes the read cuts off does not fit. -/
theorem not_readFits_short {c : List UInt8} {m : ℕ} (h : findMark frame_end c = some m)
    (hshort : c.length < m + 5) (n : ℕ) : ¬ ReadFits n c := by
  unfold ReadFits
  rw [segments_short h (by rw [frame_end_length]; omega)]
  show ¬ (findMark frame_end c = none ∧ _)
  rw [h]
  simp

/-- A whole piece has to fit behind what is unparsed, and the rest behind nothing. -/
theorem readFits_cut {c : List UInt8} {m : ℕ} (h : findMark frame_end c = some m)
    (hcut : m + 5 ≤ c.length) (n : ℕ) :
    (ReadFits n c ↔ n + (m + 5) ≤ RX_LEN ∧ ReadFits 0 (c.drop (m + 5))) ∧
      unparsedAfter n c = unparsedAfter 0 (c.drop (m + 5)) := by
  have hlen : m + frame_end.length + 2 = m + 5 := rfl
  have hseg := segments_cut frame_end_ne_nil h (hlen.le.trans hcut)
  rw [hlen] at hseg
  unfold ReadFits unparsedAfter
  rw [hseg]
  refine ⟨?_, rfl⟩
  show n + (c.take (m + 5)).length ≤ RX_LEN ∧ _ ↔ _
  rw [List.length_take_of_le hcut]

/-- **The scan of a read from any index**, by the kind of what is left of it. -/
theorem inBounds_scan (c after : List UInt8) :
    ∀ (s : List UInt8) (i : ℕ) (u : Uart), c.drop i = s → i ≤ c.length →
      u.InBounds → u.rx.STONE_RX_CNT ≤ RX_LEN →
      let v := (opsFrom (c ++ 0 :: after) c.length i).foldl (Uart.op c.length) u
      (v.InBounds ↔ ReadFits u.rx.STONE_RX_CNT s)
        ∧ (ReadFits u.rx.STONE_RX_CNT s →
            v.rx.STONE_RX_CNT = unparsedAfter u.rx.STONE_RX_CNT s) := by
  have hR : RX_LEN = 200 := rfl
  intro s
  -- by what is left: no terminator, one that the read cuts off, or a whole one
  induction s using cut_induction (k := 2) frame_end_ne_nil with
  | none s hnone =>
      intro i u hs hi hu hcnt
      subst hs
      rw [opsFrom_of_findMark_none after hi hnone]
      show ((u.copies c.length i (c.length - i)).InBounds ↔ _)
        ∧ (_ → (u.copies c.length i (c.length - i)).rx.STONE_RX_CNT = _)
      obtain ⟨hfit, hun⟩ := readFits_none hnone u.rx.STONE_RX_CNT
      rw [List.length_drop] at hfit hun
      rw [hfit, hun]
      constructor
      · rcases Nat.eq_zero_or_pos (c.length - i) with h0 | hpos
        · rw [h0]
          exact iff_of_true hu (by omega)
        · rw [inBounds_copies_iff hu hcnt hpos]
          exact and_iff_left (by omega)
      · intro h
        rw [Uart.copies_cnt _ _ _ _ (by omega), Nat.mod_eq_of_lt (by omega)]
  | short s n hsome hshort =>
      intro i u hs hi hu hcnt
      subst hs
      rw [frame_end_length, List.length_drop] at hshort
      rw [opsFrom_of_findMark_some after hsome, List.foldl_append]
      -- the copies behind the terminator leave the read
      have hbad : ¬ (u.copies c.length i (n + 5)).InBounds := by
        rw [inBounds_copies_iff hu hcnt (by omega)]
        omega
      have hnofit : ¬ ReadFits u.rx.STONE_RX_CNT (c.drop i) :=
        not_readFits_short hsome (by rw [List.length_drop]; omega) _
      refine ⟨iff_of_false (fun h => hbad ?_) hnofit, fun h => absurd h hnofit⟩
      exact inBounds_of_ops _ (u.copies c.length i (n + 5)) h
  | cut s n hsome hcut ih =>
      intro i u hs hi hu hcnt
      subst hs
      rw [frame_end_length, List.length_drop] at hcut
      rw [opsFrom_of_findMark_some after hsome, List.foldl_append, List.foldl_cons]
      set w := u.copies c.length i (n + 5) with hw
      show ((List.foldl (Uart.op c.length) w.receive _).InBounds ↔ _) ∧ _
      have hlen : n + frame_end.length + 2 = n + 5 := rfl
      obtain ⟨hfit, hun⟩ :=
        readFits_cut hsome (by rw [List.length_drop]; omega) u.rx.STONE_RX_CNT
      rw [List.drop_drop] at hfit hun
      have hstretch : w.InBounds ↔ u.rx.STONE_RX_CNT + (n + 5) ≤ RX_LEN := by
        rw [hw, inBounds_copies_iff hu hcnt (by omega)]
        exact and_iff_left (by omega)
      rw [hfit, hun]
      by_cases hle : u.rx.STONE_RX_CNT + (n + 5) ≤ RX_LEN
      · -- the piece fits, and the scan goes on with an empty buffer
        have hnext := ih (i + (n + 5)) w.receive
          (by rw [hlen, List.drop_drop]) (by omega)
          (inBounds_receive_iff.mpr (hstretch.mpr hle)) (by show (0 : ℕ) ≤ RX_LEN; omega)
        rw [hlen, List.drop_drop] at hnext
        refine ⟨?_, fun h => hnext.2 h.2⟩
        rw [and_iff_right hle]
        exact hnext.1
      · refine ⟨iff_of_false (fun h => hle ?_) (fun h => hle h.1), fun h => absurd h.1 hle⟩
        exact hstretch.mp (inBounds_receive_iff.mp (inBounds_of_ops _ w.receive h))

/-- **One read** keeps the copies in bounds exactly when it fits. -/
theorem inBounds_uart_read {u : Uart} (c : List UInt8) (hu : u.InBounds)
    (hcnt : u.rx.STONE_RX_CNT ≤ RX_LEN) :
    ((uart_read u c).InBounds ↔ ReadFits u.rx.STONE_RX_CNT c)
      ∧ (ReadFits u.rx.STONE_RX_CNT c →
          (uart_read u c).rx.STONE_RX_CNT = unparsedAfter u.rx.STONE_RX_CNT c) := by
  by_cases hc : c = []
  · subst hc
    refine ⟨iff_of_true hu ⟨rfl, ?_⟩, fun _ => rfl⟩
    exact hcnt
  · rw [uart_read_eq_ops u c hc]
    exact inBounds_scan c _ c 0 { u with data := readInto u.data c } rfl (Nat.zero_le _) hu hcnt

/-! ## §3. Any sequence of reads. -/

/-- Every read fits after what the reads before it left unparsed. -/
def StreamFits : ℕ → List (List UInt8) → Prop
  | _, [] => True
  | n, c :: cs => ReadFits n c ∧ StreamFits (unparsedAfter n c) cs

theorem inBounds_of_uart_read {u : Uart} {c : List UInt8} (h : (uart_read u c).InBounds) :
    u.InBounds := by
  by_cases hc : c = []
  · rw [uart_read, if_pos hc] at h
    exact h
  · rw [uart_read_eq_ops u c hc] at h
    exact inBounds_of_ops _ { u with data := readInto u.data c } h

theorem inBounds_of_uart_task :
    ∀ (chunks : List (List UInt8)) (u : Uart), (uart_task u chunks).InBounds → u.InBounds
  | [], _, h => h
  | c :: cs, u, h => inBounds_of_uart_read (inBounds_of_uart_task cs (uart_read u c) h)

theorem inBounds_uart_task :
    ∀ (chunks : List (List UInt8)) (u : Uart), u.InBounds → u.rx.STONE_RX_CNT ≤ RX_LEN →
      ((uart_task u chunks).InBounds ↔ StreamFits u.rx.STONE_RX_CNT chunks)
  | [], u, hu, _ => iff_of_true hu trivial
  | c :: cs, u, hu, hcnt => by
      obtain ⟨hiff, hnext⟩ := inBounds_uart_read c hu hcnt
      show (uart_task (uart_read u c) cs).InBounds
        ↔ ReadFits u.rx.STONE_RX_CNT c ∧ StreamFits (unparsedAfter u.rx.STONE_RX_CNT c) cs
      by_cases hfit : ReadFits u.rx.STONE_RX_CNT c
      · -- a read that fits leaves at most `RX_LEN` bytes for the next one
        have hle : (uart_read u c).rx.STONE_RX_CNT ≤ RX_LEN := by
          rw [hnext hfit]
          exact piecesFit_unparsed_le _ _ _ hfit
        rw [and_iff_right hfit, ← hnext hfit]
        exact inBounds_uart_task cs (uart_read u c) (hiff.mpr hfit) hle
      · refine iff_of_false (fun h => hfit ?_) (fun h => hfit h.1)
        exact hiff.mp (inBounds_of_uart_task cs (uart_read u c) h)

/-- **RECEIVE BOUNDS, EXACTLY**: from the start of `uart_task`, with anything
in its two buffers, every copy is in bounds if and only if the reads fit. -/
theorem inBounds_iff_streamFits (data buf : List UInt8) (chunks : List (List UInt8)) :
    (uart_task (Uart.start data buf) chunks).InBounds ↔ StreamFits 0 chunks := by
  refine inBounds_uart_task chunks (Uart.start data buf) ?_ (Nat.zero_le _)
  intro st hst
  exact absurd hst (List.not_mem_nil)

/-- A `'>ET'` at the end of a read is enough to leave the read: the two CRC
bytes are copied from beyond it. -/
theorem not_inBounds_split_terminator :
    ¬ ∀ chunks : List (List UInt8), (∀ c ∈ chunks, 1 ≤ c.length ∧ c.length ≤ RX_LEN - 1) →
        (uart_task (Uart.start (List.replicate RX_LEN 0) (List.replicate RX_LEN 0))
          chunks).InBounds := by
  intro h
  have hbad := h [[0x3e, 0x45, 0x54]] (by decide)
  exact absurd hbad (by decide)

end StoneHMI
