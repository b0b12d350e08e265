/-
  StoneHMI.Receive.Chunking
  ─────────────────────────
  **HOW THE CUTTING OF A STREAM INTO READS CHANGES WHAT IS PARSED.**

  What `uart_task` hands to `receive_parse`, and what it keeps, is its
  `Outcome`.  A cutting of a stream is `Whole` when no `'>ET'` starts in the
  unparsed rest of a read — none is split between two reads, and none has a
  CRC byte in the next read.

    • `uart_task_whole`: over a whole cutting the framer assembles exactly
      the pieces of the stream, so any two whole cuttings agree;
    • reads of one byte never find a terminator, so a stream is cut the same
      way by all cuttings only when it holds no `'>ET'` at all.
-/
import StoneHMI.Receive.Uart

namespace StoneHMI

open Delimiter

/-! ## §1. Assembling pieces. -/

/-- Put every piece into the buffer and parse it, then put the rest. -/
def Rx.assemble (rx : Rx) (pieces : List (List UInt8)) (rest : List UInt8) : Rx :=
  rest.foldl Rx.put (pieces.foldl (fun rx piece => (piece.foldl Rx.put rx).parse) rx)

/-- Assembling what a stream is cut into. -/
def Rx.assembleStream (rx : Rx) (s : List UInt8) : Rx :=
  rx.assemble (segments frame_end 2 s).1 (segments frame_end 2 s).2

theorem assembleStream_none {rx : Rx} {s : List UInt8} (h : findMark frame_end s = none) :
    rx.assembleStream s = s.foldl Rx.put rx := by
  unfold Rx.assembleStream
  rw [segments_none h]
  rfl

theorem assembleStream_cut {rx : Rx} {s : List UInt8} {n : ℕ}
    (h : findMark frame_end s = some n) (hlen : n + 5 ≤ s.length) :
    rx.assembleStream s
      = (((s.take (n + 5)).foldl Rx.put rx).parse).assembleStream (s.drop (n + 5)) := by
  unfold Rx.assembleStream
  rw [segments_cut frame_end_ne_nil h (by rw [frame_end_length]; omega)]
  rfl

/-- Bytes before the first mark join the first piece. -/
theorem assembleStream_append_of_free {rx : Rx} {s f : List UInt8}
    (h : ∀ j < s.length, ¬ frame_end <+: (s ++ f).drop j) :
    rx.assembleStream (s ++ f) = (s.foldl Rx.put rx).assembleStream f := by
  unfold Rx.assembleStream
  rw [segments_append_of_free frame_end_ne_nil h]
  cases hf : (segments frame_end 2 f).1 with
  | nil =>
      show (s ++ _).foldl Rx.put rx = _
      rw [List.foldl_append]
      rfl
  | cons p ps =>
      show ((s ++ p).foldl Rx.put rx).parse.assemble ps _ = _
      rw [List.foldl_append]
      rfl

/-! ## §2. Reads whose terminators are whole. -/

/-- The rest that a read leaves unparsed. -/
def restOf (c : List UInt8) : List UInt8 := (segments frame_end 2 c).2

/-- No `'>ET'` of the stream `c ++ f` starts in the unparsed rest of the
read `c`. -/
def WholeBefore (c f : List UInt8) : Prop :=
  ∀ j < (restOf c).length, ¬ frame_end <+: (restOf c ++ f).drop j

/-- Every read is whole before the bytes that follow it. -/
def Whole : List (List UInt8) → Prop
  | [] => True
  | c :: cs => WholeBefore c cs.flatten ∧ Whole cs

theorem restOf_cut {c : List UInt8} {n : ℕ} (h : findMark frame_end c = some n)
    (hlen : n + 5 ≤ c.length) : restOf c = restOf (c.drop (n + 5)) := by
  unfold restOf
  rw [segments_cut frame_end_ne_nil h (by rw [frame_end_length]; omega)]
  rfl

theorem not_wholeBefore_short {c f : List UInt8} {n : ℕ} (h : findMark frame_end c = some n)
    (hshort : c.length < n + 5) : ¬ WholeBefore c f := by
  intro hw
  unfold WholeBefore restOf at hw
  rw [segments_short h (by rw [frame_end_length]; omega)] at hw
  obtain ⟨hlt, hmark, _⟩ := (findMark_eq_some_iff frame_end c n).mp h
  refine hw n hlt ?_
  rw [isPrefix_drop_append (length_le_of_isPrefix_drop hlt hmark)]
  exact hmark

/-- **Two parts assemble as one stream** when the first is whole before the
second. -/
theorem assembleStream_append (f : List UInt8) :
    ∀ (c : List UInt8) (rx : Rx), WholeBefore c f →
      rx.assembleStream (c ++ f) = (rx.assembleStream c).assembleStream f := by
  intro c
  induction c using cut_induction (k := 2) frame_end_ne_nil with
  | none c hnone =>
      intro rx hw
      unfold WholeBefore restOf at hw
      rw [segments_none hnone] at hw
      rw [assembleStream_append_of_free hw, assembleStream_none hnone]
  | short c n hsome hshort =>
      -- a terminator that `c` cuts off is what `WholeBefore` excludes
      intro rx hw
      rw [frame_end_length] at hshort
      exact absurd hw (not_wholeBefore_short hsome (by omega))
  | cut c n hsome hcut ih =>
      intro rx hw
      rw [frame_end_length] at hcut ih
      have hcut' : n + 5 ≤ c.length := by omega
      have hw' : WholeBefore (c.drop (n + 5)) f := by
        unfold WholeBefore at hw ⊢
        rwa [restOf_cut hsome hcut'] at hw
      rw [assembleStream_cut hsome hcut', ← ih _ hw',
        assembleStream_cut (findMark_append_of_some hsome) (by
          rw [List.length_append]
          omega),
        List.take_append_of_le_length hcut', List.drop_append_of_le_length hcut']

/-! ## §3. The framer assembles the pieces of whole reads. -/

theorem opsFrom_rx_none {c after : List UInt8} {i : ℕ} {u : Uart} (hi : i ≤ c.length)
    (hdata : u.data = c ++ 0 :: after) (h : findMark frame_end (c.drop i) = none) :
    ((opsFrom (c ++ 0 :: after) c.length i).foldl (Uart.op c.length) u).rx
      = (c.drop i).foldl Rx.put u.rx := by
  rw [opsFrom_of_findMark_none after hi h]
  show (u.copies c.length i (c.length - i)).rx = _
  rw [Uart.copies_rx, hdata, List.drop_append_of_le_length hi,
    List.take_append_of_le_length (by rw [List.length_drop]),
    List.take_of_length_le (by rw [List.length_drop])]
  rw [hdata, List.length_append]
  omega

/-- **One scan**: where the rest holds no `'>ET'`, the scan from index `i`
assembles what is left of the read. -/
theorem opsFrom_rx_whole (c after : List UInt8) :
    ∀ (s : List UInt8) (i : ℕ) (u : Uart), c.drop i = s → i ≤ c.length →
      u.data = c ++ 0 :: after → findMark frame_end (restOf s) = none →
      ((opsFrom (c ++ 0 :: after) c.length i).foldl (Uart.op c.length) u).rx
        = u.rx.assembleStream s := by
  intro s
  induction s using cut_induction (k := 2) frame_end_ne_nil with
  | none s hnone =>
      intro i u hs hi hdata _
      subst hs
      rw [opsFrom_rx_none hi hdata hnone, assembleStream_none hnone]
  | short s n hsome hshort =>
      intro i u hs hi hdata hrest
      unfold restOf at hrest
      rw [segments_short hsome hshort] at hrest
      rw [hrest] at hsome
      exact absurd hsome (by simp)
  | cut s n hsome hcut ih =>
      -- one piece is put and parsed, and the scan goes on behind it
      intro i u hs hi hdata hrest
      subst hs
      rw [frame_end_length, List.length_drop] at hcut
      have hlen : n + 5 ≤ (c.drop i).length := by
        rw [List.length_drop]
        omega
      rw [opsFrom_of_findMark_some after hsome, List.foldl_append, List.foldl_cons]
      set w := u.copies c.length i (n + 5) with hw
      have hwdata : w.receive.data = c ++ 0 :: after := by
        rw [Uart.receive_data, hw, Uart.copies_data, hdata]
      have hwrx : w.rx = ((c.drop i).take (n + 5)).foldl Rx.put u.rx := by
        rw [hw, Uart.copies_rx, hdata, List.drop_append_of_le_length hi,
          List.take_append_of_le_length hlen]
        rw [hdata, List.length_append]
        omega
      rw [restOf_cut hsome hlen] at hrest
      have hnext := ih (i + (n + 5)) w.receive (by
          rw [frame_end_length, List.drop_drop]) (by omega) hwdata (by
          rwa [frame_end_length])
      rw [frame_end_length] at hnext
      rw [assembleStream_cut hsome hlen, ← hwrx]
      exact hnext

theorem findMark_restOf_of_wholeBefore {c f : List UInt8} (h : WholeBefore c f) :
    findMark frame_end (restOf c) = none := by
  rw [findMark_eq_none_iff]
  intro j hj hmark
  refine h j hj ?_
  rw [isPrefix_drop_append (length_le_of_isPrefix_drop hj hmark)]
  exact hmark

/-- A whole read is assembled piece by piece. -/
theorem uart_read_whole (u : Uart) {c f : List UInt8} (h : WholeBefore c f) :
    (uart_read u c).rx = u.rx.assembleStream c := by
  by_cases hc : c = []
  · subst hc
    rfl
  · rw [uart_read_eq_ops u c hc]
    exact opsFrom_rx_whole c _ c 0 { u with data := readInto u.data c } rfl (Nat.zero_le _) rfl
      (findMark_restOf_of_wholeBefore h)

/-- **A whole cutting is assembled as the one stream it cuts.** -/
theorem uart_task_whole :
    ∀ (chunks : List (List UInt8)) (u : Uart), Whole chunks →
      (uart_task u chunks).rx = u.rx.assembleStream chunks.flatten
  | [], _, _ => rfl
  | c :: cs, u, h => by
      show (uart_task (uart_read u c) cs).rx = _
      rw [uart_task_whole cs (uart_read u c) h.2, uart_read_whole u h.1, List.flatten_cons,
        assembleStream_append cs.flatten c u.rx h.1]

/-! ## §4. Reads of one byte, and calls that cannot be undone. -/

/-- A read of one byte holds no terminator. -/
theorem uart_read_single (u : Uart) (b : UInt8) : (uart_read u [b]).rx = u.rx.put b := by
  have hnone : findMark frame_end [b] = none := by
    simp [findMark, frame_end, List.cons_prefix_cons]
  have hrest : findMark frame_end (restOf [b]) = none := by
    unfold restOf
    rw [segments_none hnone]
    exact hnone
  rw [uart_read_eq_ops u [b] (by simp)]
  exact (opsFrom_rx_whole [b] _ [b] 0 { u with data := readInto u.data [b] } rfl (Nat.zero_le _)
    rfl hrest).trans (assembleStream_none hnone)

theorem uart_task_singles (s : List UInt8) :
    ∀ u : Uart, (uart_task u (s.map ([·]))).rx = s.foldl Rx.put u.rx := by
  induction s with
  | nil => intro u; rfl
  | cons b s ih =>
      intro u
      show (uart_task (uart_read u [b]) (s.map ([·]))).rx = s.foldl Rx.put (u.rx.put b)
      rw [ih, uart_read_single]

theorem foldl_put_parsed (s : List UInt8) :
    ∀ rx : Rx, (s.foldl Rx.put rx).parsed = rx.parsed := by
  induction s with
  | nil => intro rx; rfl
  | cons b s ih => intro rx; exact ih (rx.put b)

theorem foldl_op_parsed_le {len : ℕ} (ops : List RxOp) :
    ∀ u : Uart, u.rx.parsed.length ≤ (ops.foldl (Uart.op len) u).rx.parsed.length := by
  induction ops with
  | nil => intro u; exact le_refl _
  | cons op ops ih =>
      intro u
      have hstep : u.rx.parsed.length ≤ (u.op len op).rx.parsed.length := by
        cases op with
        | copy i => exact le_refl _
        | receive =>
            show _ ≤ (u.rx.parsed ++ [_]).length
            rw [List.length_append]
            omega
      exact hstep.trans (ih (u.op len op))

theorem parsed_le_uart_read (u : Uart) (c : List UInt8) :
    u.rx.parsed.length ≤ (uart_read u c).rx.parsed.length := by
  by_cases hc : c = []
  · subst hc
    exact le_refl _
  · rw [uart_read_eq_ops u c hc]
    exact foldl_op_parsed_le _ { u with data := readInto u.data c }

theorem parsed_le_uart_task :
    ∀ (chunks : List (List UInt8)) (u : Uart),
      u.rx.parsed.length ≤ (uart_task u chunks).rx.parsed.length
  | [], _ => le_refl _
  | c :: cs, u => (parsed_le_uart_read u c).trans (parsed_le_uart_task cs (uart_read u c))

theorem copies_parsed (len : ℕ) :
    ∀ (n i : ℕ) (u : Uart), (u.copies len i n).rx.parsed = u.rx.parsed
  | 0, _, _ => rfl
  | n + 1, i, u => by
      rw [Uart.copies_succ, copies_parsed len n]
      rfl

/-- A read that holds a `'>ET'` calls `receive_parse`. -/
theorem parsed_lt_uart_read (u : Uart) {c : List UInt8} (h : findMark frame_end c ≠ none) :
    u.rx.parsed.length < (uart_read u c).rx.parsed.length := by
  obtain ⟨n, hn⟩ := Option.ne_none_iff_exists'.mp h
  have hc : c ≠ [] := by
    intro hnil
    rw [hnil] at hn
    exact absurd hn (by simp [findMark])
  rw [uart_read_eq_ops u c hc]
  unfold readInto
  rw [opsFrom_of_findMark_some (i := 0) _ hn, List.foldl_append, List.foldl_cons]
  set w := ({ u with data := c ++ 0 :: u.data.drop (c.length + 1) } : Uart).copies
    c.length 0 (n + 5) with hw
  have hparsed : w.receive.rx.parsed.length = u.rx.parsed.length + 1 := by
    show (w.rx.parsed ++ [_]).length = _
    rw [List.length_append, hw, copies_parsed]
    rfl
  have hmono := @foldl_op_parsed_le c.length
    (opsFrom (c ++ 0 :: u.data.drop (c.length + 1)) c.length (0 + n + 5)) w.receive
  exact lt_of_lt_of_le (by omega) hmono

/-! ## §5. Independence of the cutting. -/

/-- What a run hands to `receive_parse`, and the unparsed prefix and counter
it ends with. -/
structure Outcome where
  calls : List (List UInt8)
  pending : List UInt8
  count : ℕ
  deriving DecidableEq

def Uart.outcome (u : Uart) : Outcome :=
  { calls := u.rx.parsed.map fun call => call.1.take call.2
    pending := u.rx.STONE_RX_BUF.take u.rx.STONE_RX_CNT
    count := u.rx.STONE_RX_CNT }

/-- `chunks` cuts the stream `s` into reads that `uart_read_bytes` can return. -/
def Cuts (chunks : List (List UInt8)) (s : List UInt8) : Prop :=
  chunks.flatten = s ∧ ∀ c ∈ chunks, 1 ≤ c.length ∧ c.length ≤ RX_LEN - 1

/-- Any two ways of cutting `s` give the same outcome, whatever the two
buffers of `RX_LEN` bytes hold at the start. -/
def CutIndependent (s : List UInt8) : Prop :=
  ∀ (data buf : List UInt8) (cs₁ cs₂ : List (List UInt8)),
    data.length = RX_LEN → buf.length = RX_LEN → Cuts cs₁ s → Cuts cs₂ s →
    (uart_task (Uart.start data buf) cs₁).outcome = (uart_task (Uart.start data buf) cs₂).outcome

theorem cuts_singles (s : List UInt8) : Cuts (s.map ([·])) s := by
  constructor
  · induction s with
    | nil => rfl
    | cons b s ih =>
        rw [List.map_cons, List.flatten_cons, ih]
        rfl
  · intro c hc
    obtain ⟨b, _, rfl⟩ := List.mem_map.mp hc
    exact ⟨le_refl 1, show 1 ≤ RX_LEN - 1 by decide⟩

/-- A stream without `'>ET'` is put into the buffer byte by byte, however it
is cut. -/
theorem whole_of_free : ∀ (chunks : List (List UInt8)),
    ¬ frame_end <:+: chunks.flatten → Whole chunks
  | [], _ => trivial
  | c :: cs, h => by
      have hfree : ∀ j, ¬ frame_end <+: (c ++ cs.flatten).drop j := by
        intro j hj
        exact h (hj.isInfix.trans (List.drop_suffix j _).isInfix)
      have hnone : findMark frame_end c = none := by
        rw [findMark_eq_none_iff]
        intro j hj hmark
        refine hfree j ?_
        rw [isPrefix_drop_append (length_le_of_isPrefix_drop hj hmark)]
        exact hmark
      refine ⟨?_, whole_of_free cs fun hin => h ?_⟩
      · unfold WholeBefore restOf
        rw [segments_none hnone]
        exact fun j _ => hfree j
      · rw [List.flatten_cons]
        exact hin.trans (List.suffix_append c cs.flatten).isInfix

/-- The same stream with one read around a `'>ET'` of it calls
`receive_parse`, where reads of one byte never do. -/
theorem not_cutIndependent_of_mark {s : List UInt8} (h : frame_end <:+: s) :
    ¬ CutIndependent s := by
  obtain ⟨a, t, hs⟩ := h
  intro hind
  -- `>ET` as one read, every other byte as a read of its own
  have hcuts : Cuts (a.map ([·]) ++ frame_end :: t.map ([·])) s := by
    constructor
    · rw [List.flatten_append, List.flatten_cons, (cuts_singles a).1, (cuts_singles t).1, ← hs,
        List.append_assoc]
    · intro c hc
      rcases List.mem_append.mp hc with hc | hc
      · exact (cuts_singles a).2 c hc
      · rcases List.mem_cons.mp hc with rfl | hc
        · exact ⟨by decide, by decide⟩
        · exact (cuts_singles t).2 c hc
  set u₀ := Uart.start (List.replicate RX_LEN 0) (List.replicate RX_LEN 0) with hu₀
  have heq := congrArg (fun o => o.calls.length)
    (hind (List.replicate RX_LEN 0) (List.replicate RX_LEN 0) _ _ List.length_replicate
      List.length_replicate (cuts_singles s) hcuts)
  simp only [Uart.outcome, List.length_map] at heq
  -- no call for the reads of one byte
  rw [← hu₀, uart_task_singles, foldl_put_parsed] at heq
  -- at least one call for the other cutting
  have hsplit : uart_task u₀ (a.map ([·]) ++ frame_end :: t.map ([·]))
      = uart_task (uart_read (uart_task u₀ (a.map ([·]))) frame_end) (t.map ([·])) := by
    unfold uart_task
    rw [List.foldl_append, List.foldl_cons]
  have hlt := parsed_lt_uart_read (uart_task u₀ (a.map ([·]))) (c := frame_end) (by decide)
  have hle := parsed_le_uart_task (t.map ([·]))
    (uart_read (uart_task u₀ (a.map ([·]))) frame_end)
  have hstart : u₀.rx.parsed.length = 0 := rfl
  rw [← hsplit, ← heq, hstart] at hle
  omega

/-- **CUTTING INDEPENDENCE, EXACTLY**: all cuttings of a stream agree if and
only if it holds no `'>ET'`; and of any stream, all cuttings that keep every
`'>ET'` with its two CRC bytes in one read agree.  A stream that goes on past
`RX_LEN` without one is written outside `STONE_RX_BUF` in C, by every cutting:
`inBounds_iff_streamFits` says which streams stay inside. -/
theorem cutIndependent_iff (s : List UInt8) :
    (CutIndependent s ↔ ¬ frame_end <:+: s)
      ∧ ∀ (data buf : List UInt8) (cs₁ cs₂ : List (List UInt8)), Cuts cs₁ s → Cuts cs₂ s →
          Whole cs₁ → Whole cs₂ →
          (uart_task (Uart.start data buf) cs₁).outcome
            = (uart_task (Uart.start data buf) cs₂).outcome := by
  have hwhole : ∀ (data buf : List UInt8) (cs₁ cs₂ : List (List UInt8)), Cuts cs₁ s →
      Cuts cs₂ s → Whole cs₁ → Whole cs₂ →
      (uart_task (Uart.start data buf) cs₁).outcome
        = (uart_task (Uart.start data buf) cs₂).outcome := by
    intro data buf cs₁ cs₂ h₁ h₂ hw₁ hw₂
    unfold Uart.outcome
    rw [uart_task_whole cs₁ _ hw₁, uart_task_whole cs₂ _ hw₂, h₁.1, h₂.1]
  refine ⟨⟨fun h hmark => not_cutIndependent_of_mark hmark h, fun hfree => ?_⟩, hwhole⟩
  intro data buf cs₁ cs₂ _ _ h₁ h₂
  refine hwhole data buf cs₁ cs₂ h₁ h₂ (whole_of_free cs₁ ?_) (whole_of_free cs₂ ?_)
  · rwa [h₁.1]
  · rwa [h₂.1]

/-- The frame `ST<` 10 01 00 04 `P01` 01 `>ET` and its CRC: in one read it is
parsed as it is; cut before its CRC it is parsed with two bytes of the old
read buffer in the CRC's place. -/
theorem not_cutIndependent_P01 :
    ¬ ∀ s : List UInt8, (∀ piece ∈ (segments frame_end 2 s).1, piece.length ≤ RX_LEN) →
        CutIndependent s := by
  intro h
  have hind := h [0x53, 0x54, 0x3c, 0x10, 0x01, 0x00, 0x04, 0x50, 0x30, 0x31, 0x01,
    0x3e, 0x45, 0x54, 0x4e, 0x19] (by decide)
  have heq := hind (List.replicate RX_LEN 0) (List.replicate RX_LEN 0)
    [[0x53, 0x54, 0x3c, 0x10, 0x01, 0x00, 0x04, 0x50, 0x30, 0x31, 0x01,
      0x3e, 0x45, 0x54, 0x4e, 0x19]]
    [[0x53, 0x54, 0x3c, 0x10, 0x01, 0x00, 0x04, 0x50, 0x30, 0x31, 0x01,
      0x3e, 0x45, 0x54], [0x4e, 0x19]]
    List.length_replicate List.length_replicate (by unfold Cuts; decide) (by unfold Cuts; decide)
  exact absurd heq (by decide)

end StoneHMI
