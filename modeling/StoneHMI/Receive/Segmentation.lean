/-
  StoneHMI.Receive.Segmentation
  ─────────────────────────────
  **FIRST-MATCH SEGMENTATION — the framer against a reference.**

  The reference cuts a stream after the two bytes that follow its first `'>ET'`,
  and cuts what is left again (`segments frame_end 2`).  Over reads that hold
  the five bytes of each cut together, the framer makes the same calls and
  keeps the same rest, with one exception: a `'>ET'` at the very end of the
  stream, without its two CRC bytes, is no cut, but a read that holds it is
  parsed all the same, with bytes from beyond the read.

    §1  a segment in the buffer          §3  the calls of one read
    §2  reads that hold the cuts         §4  the framer against the reference
-/
import StoneHMI.Receive.Chunking

namespace StoneHMI

open Delimiter

/-! ## §1. A segment in the buffer. -/

/-- Bytes that fit are put behind those that are there, and nothing else moves. -/
theorem foldl_put_eq : ∀ (p : List UInt8) (rx : Rx), rx.STONE_RX_BUF.length = RX_LEN →
    rx.STONE_RX_CNT + p.length ≤ RX_LEN →
    p.foldl Rx.put rx = { rx with
      STONE_RX_BUF :=
        rx.STONE_RX_BUF.take rx.STONE_RX_CNT ++ p
          ++ rx.STONE_RX_BUF.drop (rx.STONE_RX_CNT + p.length)
      STONE_RX_CNT := rx.STONE_RX_CNT + p.length }
  | [], rx, _, _ => by
      show rx = _
      rw [List.append_nil, List.length_nil, Nat.add_zero, List.take_append_drop]
  | b :: p, rx, hbuf, hfit => by
      have hR : RX_LEN = 200 := rfl
      rw [List.length_cons] at hfit
      have hcnt : (rx.put b).STONE_RX_CNT = rx.STONE_RX_CNT + 1 := Nat.mod_eq_of_lt (by omega)
      have hlen : (rx.put b).STONE_RX_BUF.length = RX_LEN := by
        show (rx.STONE_RX_BUF.set rx.STONE_RX_CNT b).length = RX_LEN
        rw [List.length_set, hbuf]
      have hset : (rx.put b).STONE_RX_BUF = (rx.STONE_RX_BUF.take rx.STONE_RX_CNT ++ [b])
          ++ rx.STONE_RX_BUF.drop (rx.STONE_RX_CNT + 1) := by
        show rx.STONE_RX_BUF.set rx.STONE_RX_CNT b = _
        rw [List.set_eq_take_append_cons_drop, if_pos (by omega), List.append_cons]
      have htake : (rx.STONE_RX_BUF.take rx.STONE_RX_CNT ++ [b]).length = rx.STONE_RX_CNT + 1 := by
        rw [List.length_append, List.length_take, hbuf, List.length_singleton]
        omega
      rw [List.foldl_cons, foldl_put_eq p (rx.put b) hlen (by omega), hcnt, hset]
      congr 1
      · rw [← htake, List.take_left, List.drop_length_add_append, htake, List.drop_drop,
          List.length_cons, ← Nat.add_assoc, Nat.add_right_comm]
        simp only [List.append_assoc, List.cons_append, List.nil_append]
      · rw [List.length_cons]
        omega

/-- From an empty buffer, the bytes put are the bytes it starts with. -/
theorem foldl_put_zero {p : List UInt8} {rx : Rx} (hbuf : rx.STONE_RX_BUF.length = RX_LEN)
    (hzero : rx.STONE_RX_CNT = 0) (hfit : p.length ≤ RX_LEN) :
    p.foldl Rx.put rx = { rx with
      STONE_RX_BUF := p ++ rx.STONE_RX_BUF.drop p.length, STONE_RX_CNT := p.length } := by
  rw [foldl_put_eq p rx hbuf (by omega), hzero]
  simp

/-- The calls of `receive_parse` so far: the bytes accumulated, and their number. -/
def Rx.calls (rx : Rx) : List (List UInt8 × ℕ) :=
  rx.parsed.map fun call => (call.1.take call.2, call.2)

theorem length_calls (rx : Rx) : rx.calls.length = rx.parsed.length := List.length_map _

/-- Ready for the next segment: nothing accumulated, in a buffer of `RX_LEN` bytes. -/
def Rx.Ready (rx : Rx) : Prop := rx.STONE_RX_BUF.length = RX_LEN ∧ rx.STONE_RX_CNT = 0

/-- A segment is parsed as it is, and the buffer is ready again. -/
theorem parse_segment {p : List UInt8} {rx : Rx} (hrx : rx.Ready) (hfit : p.length ≤ RX_LEN) :
    (p.foldl Rx.put rx).parse.Ready ∧
      (p.foldl Rx.put rx).parse.calls = rx.calls ++ [(p, p.length)] := by
  obtain ⟨hbuf, hzero⟩ := hrx
  rw [foldl_put_zero hbuf hzero hfit]
  refine ⟨⟨?_, rfl⟩, ?_⟩
  · show (p ++ rx.STONE_RX_BUF.drop p.length).length = RX_LEN
    rw [List.length_append, List.length_drop, hbuf]
    omega
  · unfold Rx.calls Rx.parse
    simp only [List.map_append, List.map_cons, List.map_nil, List.take_left]

/-- **Segments that fit are parsed one by one**, each as it is. -/
theorem parse_segments : ∀ (ps : List (List UInt8)) (rx : Rx), rx.Ready →
    (∀ p ∈ ps, p.length ≤ RX_LEN) →
    (ps.foldl (fun rx p => (p.foldl Rx.put rx).parse) rx).Ready ∧
      (ps.foldl (fun rx p => (p.foldl Rx.put rx).parse) rx).calls
        = rx.calls ++ ps.map fun p => (p, p.length)
  | [], rx, hrx, _ => ⟨hrx, (List.append_nil _).symm⟩
  | p :: ps, rx, hrx, hfit => by
      obtain ⟨hready, hcalls⟩ := parse_segment hrx (hfit p List.mem_cons_self)
      obtain ⟨hready', hcalls'⟩ := parse_segments ps _ hready
        (fun q hq => hfit q (List.mem_cons_of_mem p hq))
      refine ⟨hready', ?_⟩
      rw [List.foldl_cons, hcalls', hcalls, List.append_assoc]
      rfl

/-! ## §2. Reads that hold the cuts. -/

/-- The five bytes of each cut of the stream lie inside one read. -/
def CutsInside (chunks : List (List UInt8)) : Prop :=
  ∀ ps p, ps ++ [p] <+: (segments frame_end 2 chunks.flatten).1 →
    ∃ pre c post, chunks = pre ++ c :: post ∧
      pre.flatten.length + 5 ≤ (ps ++ [p]).flatten.length ∧
      (ps ++ [p]).flatten.length ≤ (pre ++ [c]).flatten.length

theorem length_rest (c : List UInt8) :
    (segments frame_end 2 c).1.flatten.length + (restOf c).length = c.length := by
  have h := congrArg List.length (flatten_segments (k := 2) frame_end_ne_nil c)
  rwa [List.length_append] at h

/-- What a read leaves either holds no start of a later terminator, or starts one
that the stream does not finish. -/
theorem wholeBefore_or_short {c : List UInt8} {cs : List (List UInt8)} (h : CutsInside (c :: cs)) :
    WholeBefore c cs.flatten ∨ ∃ i < (restOf c).length,
      findMark frame_end (restOf c ++ cs.flatten) = some i ∧
      (restOf c ++ cs.flatten).length < i + 5 := by
  by_cases hw : WholeBefore c cs.flatten
  · exact Or.inl hw
  · refine Or.inr ?_
    unfold WholeBefore at hw
    push Not at hw
    obtain ⟨j, hj, hmark⟩ := hw
    have hsome : findMark frame_end (restOf c ++ cs.flatten) ≠ none := by
      intro hnone
      refine (findMark_eq_none_iff frame_end _).mp hnone j ?_ hmark
      rw [List.length_append]
      omega
    obtain ⟨i, hi⟩ := Option.ne_none_iff_exists'.mp hsome
    have hij : i ≤ j := by
      by_contra hlt
      exact ((findMark_eq_some_iff frame_end _ i).mp hi).2.2 j (by omega) hmark
    refine ⟨i, by omega, hi, ?_⟩
    by_contra hlong
    -- a cut of the stream that starts in this read: it would have to end in it
    have hcut := segments_cut (k := 2) frame_end_ne_nil hi (by rw [frame_end_length]; omega)
    have hseg := segments_append (k := 2) frame_end_ne_nil cs.flatten c
    rw [show (segments frame_end 2 c).2 = restOf c from rfl, hcut, frame_end_length] at hseg
    set p := (restOf c ++ cs.flatten).take (i + 3 + 2) with hp
    have hplen : p.length = i + 5 := by
      rw [hp, List.length_take]
      omega
    obtain ⟨pre, c', post, hchunks, hlo, hhi⟩ := h (segments frame_end 2 c).1 p (by
      rw [List.flatten_cons, hseg]
      exact ⟨_, List.append_assoc _ _ _⟩)
    have hlen := length_rest c
    rw [List.flatten_append, List.length_append, List.flatten_singleton, hplen] at hlo hhi
    cases pre with
    | nil =>
        obtain ⟨rfl, rfl⟩ := List.cons.inj hchunks
        rw [List.nil_append, List.flatten_singleton] at hhi
        -- then the rest of this read holds a complete cut
        have hrest : findMark frame_end (restOf c) = some i := by
          obtain ⟨hlt, hm, hfirst⟩ := (findMark_eq_some_iff frame_end _ i).mp hi
          refine (findMark_eq_some_iff frame_end _ i).mpr ⟨by omega, ?_, fun j' hj' => ?_⟩
          · rwa [isPrefix_drop_append (by rw [frame_end_length]; omega)] at hm
          · have hno := hfirst j' hj'
            rwa [isPrefix_drop_append (by rw [frame_end_length]; omega)] at hno
        have hshort := rest_short (k := 2) frame_end_ne_nil c hrest
        rw [frame_end_length] at hshort
        have hlen' : (segments frame_end 2 c).1.flatten.length
            + (segments frame_end 2 c).2.length = c.length := hlen
        omega
    | cons d pre =>
        obtain ⟨rfl, -⟩ := List.cons.inj hchunks
        rw [List.flatten_cons, List.length_append] at hlo
        omega

/-- Where the stream does not finish what it starts, the later reads are cut
nowhere. -/
theorem segments_of_short {c f : List UInt8} {i : ℕ} (hi : i < (restOf c).length)
    (hfind : findMark frame_end (restOf c ++ f) = some i)
    (hshort : (restOf c ++ f).length < i + 5) :
    (segments frame_end 2 (c ++ f)).1 = (segments frame_end 2 c).1 ∧
      (segments frame_end 2 (c ++ f)).2 = restOf c ++ f ∧ segments frame_end 2 f = ([], f) := by
  have hsh : (restOf c ++ f).length < i + frame_end.length + 2 := hshort
  have hseg := segments_append (k := 2) frame_end_ne_nil f c
  rw [show (segments frame_end 2 c).2 = restOf c from rfl, segments_short hfind hsh,
    List.append_nil] at hseg
  rw [hseg]
  refine ⟨rfl, rfl, segments_of_length_lt ?_⟩
  rw [List.length_append] at hshort
  rw [frame_end_length]
  omega

/-- Where every read is whole, the pieces of the later ones follow. -/
theorem segments_of_whole {c f : List UInt8} (h : WholeBefore c f) :
    (segments frame_end 2 (c ++ f)).1 = (segments frame_end 2 c).1
      ++ match (segments frame_end 2 f).1 with
        | [] => []
        | p :: ps => (restOf c ++ p) :: ps := by
  rw [segments_append frame_end_ne_nil f c]
  show (segments frame_end 2 c).1 ++ (segments frame_end 2 (restOf c ++ f)).1 = _
  rw [segments_append_of_free frame_end_ne_nil h]
  cases (segments frame_end 2 f).1 <;> rfl

/-- The later reads hold their cuts inside as well. -/
theorem CutsInside.tail {c : List UInt8} {cs : List (List UInt8)} (h : CutsInside (c :: cs)) :
    CutsInside cs := by
  intro ps p hps
  rcases wholeBefore_or_short h with hw | ⟨i, hi, hfind, hshort⟩
  · have hseg := segments_of_whole hw
    have hlen := length_rest c
    -- the same cut, counted from the start of `c`
    obtain ⟨qs, q, hq, hlenq⟩ : ∃ qs q, qs ++ [q] <+: (segments frame_end 2 (c ++ cs.flatten)).1 ∧
        (qs ++ [q]).flatten.length = c.length + (ps ++ [p]).flatten.length := by
      obtain ⟨tl, htl⟩ := hps
      rw [hseg, ← htl]
      cases ps with
      | nil =>
          refine ⟨(segments frame_end 2 c).1, restOf c ++ p, ⟨tl, ?_⟩, ?_⟩
          · rw [List.append_assoc]
            rfl
          · simp only [List.flatten_append, List.flatten_singleton, List.length_append,
              List.nil_append]
            omega
      | cons d ps =>
          refine ⟨(segments frame_end 2 c).1 ++ (restOf c ++ d) :: ps, p, ⟨tl, ?_⟩, ?_⟩
          · simp only [List.append_assoc, List.cons_append, List.nil_append]
          · simp only [List.flatten_append, List.flatten_cons, List.flatten_nil,
              List.length_append, List.append_nil]
            omega
    obtain ⟨pre, c', post, hchunks, hlo, hhi⟩ := h qs q (by rwa [List.flatten_cons])
    cases pre with
    | nil =>
        -- five bytes of the later reads do not lie in `c`
        obtain ⟨rfl, -⟩ := List.cons.inj hchunks
        rw [hlenq, List.nil_append, List.flatten_singleton] at hhi
        have h5 := length_piece frame_end_ne_nil cs.flatten p
          (hps.subset (List.mem_append_right ps List.mem_cons_self))
        rw [frame_end_length] at h5
        rw [List.flatten_append, List.length_append, List.flatten_singleton] at hhi
        omega
    | cons d pre =>
        obtain ⟨rfl, hcs⟩ := List.cons.inj hchunks
        refine ⟨pre, c', post, hcs, ?_, ?_⟩
        · rw [hlenq, List.flatten_cons, List.length_append] at hlo
          omega
        · rw [hlenq, List.cons_append, List.flatten_cons, List.length_append] at hhi
          omega
  · obtain ⟨-, -, hnil⟩ := segments_of_short hi hfind hshort
    rw [hnil] at hps
    have hlen := hps.length_le
    rw [List.length_append] at hlen
    simp at hlen

/-! ## §3. The calls of reads. -/

/-- **One scan** calls `receive_parse` for each cut, and once more for a `'>ET'`
that the read does not finish. -/
theorem parsed_scan (c after : List UInt8) :
    ∀ (s : List UInt8) (i : ℕ) (u : Uart), c.drop i = s → i ≤ c.length →
      ((opsFrom (c ++ 0 :: after) c.length i).foldl (Uart.op c.length) u).rx.parsed.length
        = u.rx.parsed.length + (segments frame_end 2 s).1.length
          + if findMark frame_end (restOf s) = none then 0 else 1 := by
  intro s
  induction s using cut_induction (k := 2) frame_end_ne_nil with
  | none s hnone =>
      intro i u hs hi
      subst hs
      have hrest : restOf (c.drop i) = c.drop i := by
        unfold restOf
        rw [segments_none hnone]
      rw [opsFrom_of_findMark_none after hi hnone, hrest, hnone, if_pos rfl, segments_none hnone]
      show (u.copies c.length i (c.length - i)).rx.parsed.length = _
      rw [copies_parsed]
      rfl
  | short s n hsome hshort =>
      intro i u hs hi
      subst hs
      have hrest : restOf (c.drop i) = c.drop i := by
        unfold restOf
        rw [segments_short hsome hshort]
      rw [frame_end_length, List.length_drop] at hshort
      rw [opsFrom_of_findMark_some after hsome, opsFrom_done (by omega), hrest, hsome,
        if_neg (by simp), segments_short hsome (by
          rw [frame_end_length, List.length_drop]
          omega), List.foldl_append]
      show ((u.copies c.length i (n + 5)).rx.parsed ++ [_]).length = _
      rw [copies_parsed, List.length_append]
      rfl
  | cut s n hsome hcut ih =>
      intro i u hs hi
      subst hs
      rw [frame_end_length, List.length_drop] at hcut
      have hlen : n + 5 ≤ (c.drop i).length := by
        rw [List.length_drop]
        omega
      have h5 : n + frame_end.length + 2 = n + 5 := rfl
      have hnext := ih (i + (n + 5)) ((u.copies c.length i (n + 5)).receive)
        (by rw [h5, List.drop_drop]) (by omega)
      have hparsed : ((u.copies c.length i (n + 5)).receive).rx.parsed.length
          = u.rx.parsed.length + 1 := by
        show ((u.copies c.length i (n + 5)).rx.parsed ++ [_]).length = _
        rw [copies_parsed, List.length_append]
        rfl
      rw [h5, hparsed] at hnext
      rw [opsFrom_of_findMark_some after hsome, List.foldl_append, List.foldl_cons,
        restOf_cut hsome hlen, segments_cut frame_end_ne_nil hsome (by rw [h5]; exact hlen), h5]
      show (List.foldl (Uart.op c.length) (u.copies c.length i (n + 5)).receive
        (opsFrom (c ++ 0 :: after) c.length (i + (n + 5)))).rx.parsed.length = _
      rw [hnext, List.length_cons]
      omega

theorem parsed_uart_read (u : Uart) (c : List UInt8) :
    (uart_read u c).rx.parsed.length
      = u.rx.parsed.length + (segments frame_end 2 c).1.length
        + if findMark frame_end (restOf c) = none then 0 else 1 := by
  by_cases hc : c = []
  · subst hc
    rfl
  · rw [uart_read_eq_ops u c hc]
    exact parsed_scan c _ c 0 { u with data := readInto u.data c } rfl (Nat.zero_le _)

/-- The reads that leave an unfinished `'>ET'`. -/
def unfinished (chunks : List (List UInt8)) : ℕ :=
  chunks.countP fun c => findMark frame_end (restOf c) ≠ none

/-- **Reads that hold the cuts** call `receive_parse` for each cut, and once more
for each `'>ET'` that a read does not finish. -/
theorem parsed_uart_task : ∀ (chunks : List (List UInt8)) (u : Uart), CutsInside chunks →
    (uart_task u chunks).rx.parsed.length
      = u.rx.parsed.length + (segments frame_end 2 chunks.flatten).1.length + unfinished chunks
  | [], _, _ => rfl
  | c :: cs, u, h => by
      have hcount : (segments frame_end 2 (c ++ cs.flatten)).1.length
          = (segments frame_end 2 c).1.length + (segments frame_end 2 cs.flatten).1.length := by
        rcases wholeBefore_or_short h with hw | ⟨i, hi, hfind, hshort⟩
        · rw [segments_of_whole hw, List.length_append]
          cases (segments frame_end 2 cs.flatten).1 <;> rfl
        · obtain ⟨hseg, -, hnil⟩ := segments_of_short hi hfind hshort
          rw [hseg, hnil]
          rfl
      show (uart_task (uart_read u c) cs).rx.parsed.length = _
      rw [parsed_uart_task cs (uart_read u c) h.tail, parsed_uart_read, List.flatten_cons, hcount]
      unfold unfinished
      rw [List.countP_cons]
      by_cases hrest : findMark frame_end (restOf c) = none
      · simp only [hrest, if_true, ne_eq, not_true_eq_false, decide_false, Bool.false_eq_true,
          if_false]
        omega
      · simp only [hrest, if_false, ne_eq, not_false_eq_true, decide_true, if_true]
        omega

/-! ## §4. The framer against the reference. -/

/-- Without an unfinished `'>ET'`, the framer assembles the pieces of the stream. -/
theorem uart_task_assembles : ∀ (chunks : List (List UInt8)) (u : Uart), CutsInside chunks →
    (∀ c ∈ chunks, findMark frame_end (restOf c) = none) →
    (uart_task u chunks).rx = u.rx.assembleStream chunks.flatten
  | [], _, _, _ => rfl
  | c :: cs, u, h, hfree => by
      have hread : (uart_read u c).rx = u.rx.assembleStream c := by
        have hrest := hfree c List.mem_cons_self
        refine uart_read_whole u (f := []) fun j hj hmark => ?_
        rw [List.append_nil] at hmark
        exact (findMark_eq_none_iff frame_end _).mp hrest j hj hmark
      show (uart_task (uart_read u c) cs).rx = _
      rw [uart_task_assembles cs (uart_read u c) h.tail
        (fun d hd => hfree d (List.mem_cons_of_mem c hd)), hread, List.flatten_cons]
      rcases wholeBefore_or_short h with hw | ⟨i, hi, hfind, hshort⟩
      · exact (assembleStream_append cs.flatten c u.rx hw).symm
      · -- the stream ends in the rest of `c`
        obtain ⟨hseg, hrest, hnil⟩ := segments_of_short hi hfind hshort
        unfold Rx.assembleStream
        rw [hseg, hrest, hnil]
        unfold Rx.assemble
        rw [List.foldl_append]
        rfl

/-- **The reference's result.**  One call for each segment of `s`, with the segment
in `STONE_RX_BUF[0..STONE_RX_CNT)`, and the rest there at the end. -/
def Rx.Segmented (rx : Rx) (s : List UInt8) : Prop :=
  rx.calls = (segments frame_end 2 s).1.map (fun p => (p, p.length)) ∧
    rx.STONE_RX_BUF.take rx.STONE_RX_CNT = (segments frame_end 2 s).2 ∧
    rx.STONE_RX_CNT = (segments frame_end 2 s).2.length

/-- Assembling pieces that fit is the reference's result. -/
theorem segmented_assembleStream {s : List UInt8} {rx : Rx} (hrx : rx.Ready)
    (hnone : rx.parsed = []) (hpieces : ∀ p ∈ (segments frame_end 2 s).1, p.length ≤ RX_LEN)
    (hrest : (segments frame_end 2 s).2.length ≤ RX_LEN) :
    (rx.assembleStream s).Segmented s := by
  obtain ⟨⟨hbuf, hzero⟩, hcalls⟩ := parse_segments _ rx hrx hpieces
  have hstart : rx.calls = [] := by
    unfold Rx.calls
    rw [hnone]
    rfl
  rw [hstart, List.nil_append] at hcalls
  unfold Rx.assembleStream Rx.assemble
  rw [foldl_put_zero hbuf hzero hrest]
  exact ⟨hcalls, List.take_left, rfl⟩

/-- **FIRST-MATCH SEGMENTATION, EXACTLY.**  For any old bytes in both buffers and
reads that hold the cuts of a stream whose segments and rest fit, the framer
gives the reference's result if and only if no read ends inside a `'>ET'`
with its two bytes: none leaves one unfinished. -/
theorem segmented_iff (data buf : List UInt8) (chunks : List (List UInt8))
    (hbuf : buf.length = RX_LEN) (hcuts : CutsInside chunks)
    (hpieces : ∀ p ∈ (segments frame_end 2 chunks.flatten).1, p.length ≤ RX_LEN)
    (hrest : (segments frame_end 2 chunks.flatten).2.length ≤ RX_LEN) :
    (uart_task (Uart.start data buf) chunks).rx.Segmented chunks.flatten ↔
      ∀ c ∈ chunks, findMark frame_end (restOf c) = none := by
  constructor
  · intro h c hc
    have hcalls := congrArg List.length h.1
    rw [length_calls, parsed_uart_task chunks _ hcuts, List.length_map] at hcalls
    have hzero : unfinished chunks = 0 := by
      have hstart : (Uart.start data buf).rx.parsed.length = 0 := rfl
      omega
    by_contra hne
    exact List.countP_eq_zero.mp hzero c hc (by simpa using hne)
  · intro hfree
    rw [uart_task_assembles chunks _ hcuts hfree]
    exact segmented_assembleStream ⟨hbuf, rfl⟩ rfl hpieces hrest

/-- A stream in one read holds its cuts. -/
theorem cutsInside_single (c : List UInt8) : CutsInside [c] := by
  intro ps p hps
  rw [List.flatten_singleton] at hps
  have h5 := length_piece frame_end_ne_nil c p
    (hps.subset (List.mem_append_right ps List.mem_cons_self))
  have hlen := length_rest c
  have hle : (ps ++ [p]).flatten.length ≤ (segments frame_end 2 c).1.flatten.length :=
    (List.IsPrefix.flatten hps).length_le
  refine ⟨[], c, [], rfl, ?_, ?_⟩
  · rw [frame_end_length] at h5
    rw [List.flatten_append, List.length_append, List.flatten_singleton, List.flatten_nil,
      List.length_nil]
    omega
  · rw [List.nil_append, List.flatten_singleton]
    omega

/-- A button frame and the start of the next, in one read. -/
theorem segmented_P01 :
    (uart_task (Uart.start [] (List.replicate RX_LEN 7))
        [[0x53, 0x54, 0x3c, 0x10, 0x01, 0x00, 0x04, 0x50, 0x30, 0x31, 0x01, 0x3e, 0x45, 0x54,
          0x4e, 0x19, 0x53, 0x54]]).rx.Segmented
      [0x53, 0x54, 0x3c, 0x10, 0x01, 0x00, 0x04, 0x50, 0x30, 0x31, 0x01, 0x3e, 0x45, 0x54,
        0x4e, 0x19, 0x53, 0x54] :=
  (segmented_iff [] (List.replicate RX_LEN 7) [_] List.length_replicate (cutsInside_single _)
    (by decide) (by decide)).mpr (by decide)

/-- The stream `'>ET'` has no cut, and is parsed. -/
theorem not_segmented_mark :
    ¬ ∀ (data buf : List UInt8) (chunks : List (List UInt8)), data.length = RX_LEN →
        buf.length = RX_LEN → (∀ c ∈ chunks, 1 ≤ c.length ∧ c.length ≤ RX_LEN - 1) →
        CutsInside chunks →
        (∀ p ∈ (segments frame_end 2 chunks.flatten).1, p.length ≤ RX_LEN) →
        (segments frame_end 2 chunks.flatten).2.length ≤ RX_LEN →
        (uart_task (Uart.start data buf) chunks).rx.Segmented chunks.flatten := by
  intro h
  have hseg := h (List.replicate RX_LEN 0) (List.replicate RX_LEN 0) [frame_end]
    List.length_replicate List.length_replicate (by decide) (cutsInside_single frame_end)
    (by decide) (by decide)
  exact absurd (congrArg List.length hseg.1) (by decide)

end StoneHMI
