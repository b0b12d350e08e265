/-
  StoneHMI.Receive.Transparency
  ─────────────────────────────
  **WHICH PAYLOADS THE FRAMER LETS THROUGH.**

  A frame carries its length, but `uart_task` looks for `'>ET'` and never for
  LEN.  So a frame in a read of its own is handed to `receive_parse` whole
  and once exactly when its first `'>ET'` is its terminator.  CMD and the high
  byte of LEN cannot help to spell one, the low byte of LEN can.
-/
import StoneHMI.Receive.Segmentation
import StoneHMI.Receive.Frame

namespace StoneHMI

open Delimiter

/-! ## §1. One read, one call. -/

/-- Where the read `c` holds a whole cut, it is handed over once and whole
exactly when its first cut ends the read. -/
theorem calls_read_iff {u : Uart} {c : List UInt8} {n : ℕ} (hu : u.rx.Ready)
    (hfit : c.length ≤ RX_LEN) (hsome : findMark frame_end c = some n) (hcut : n + 5 ≤ c.length) :
    (uart_task u [c]).rx.calls = u.rx.calls ++ [(c, c.length)] ↔ n + 5 = c.length := by
  have h5 : n + frame_end.length + 2 = n + 5 := rfl
  have hseg := segments_cut (k := 2) frame_end_ne_nil hsome (by rw [h5]; exact hcut)
  rw [h5] at hseg
  -- without an unfinished `'>ET'`, the calls are the segments of the read
  have hwhole : findMark frame_end (restOf c) = none →
      (uart_task u [c]).rx.calls = u.rx.calls ++ (segments frame_end 2 c).1.map (fun p => (p, p.length)) := by
    intro hrest
    have hread := uart_task_assembles [c] u (cutsInside_single c) (by simpa using hrest)
    rw [List.flatten_singleton] at hread
    have hpieces : ∀ p ∈ (segments frame_end 2 c).1, p.length ≤ RX_LEN := by
      intro p hp
      have hlen := length_rest c
      have hle := (List.sublist_flatten_of_mem hp).length_le
      omega
    have hrestlen : (segments frame_end 2 c).2.length ≤ RX_LEN := by
      have hlen := length_rest c
      unfold restOf at hlen
      omega
    obtain ⟨⟨hbuf, hzero⟩, hcalls⟩ := parse_segments _ u.rx hu hpieces
    rw [hread, ← hcalls]
    unfold Rx.assembleStream Rx.assemble
    rw [foldl_put_zero hbuf hzero hrestlen]
    rfl
  constructor
  · intro h
    have hcount := congrArg List.length h
    rw [length_calls, parsed_uart_task [c] u (cutsInside_single c), List.flatten_singleton,
      List.length_append, length_calls, hseg] at hcount
    -- one call is the one of the first cut, so no `'>ET'` is left over
    have hrest : findMark frame_end (restOf c) = none := by
      by_contra hne
      have hpos : 0 < unfinished [c] := List.countP_pos_iff.mpr ⟨c, List.mem_cons_self, by simpa using hne⟩
      simp only [List.length_cons, List.length_nil] at hcount
      omega
    rw [hwhole hrest, hseg, List.append_cancel_left_eq, List.map_cons] at h
    have hfirst := congrArg Prod.snd (List.cons.inj h).1
    rw [List.length_take] at hfirst
    simp only at hfirst
    omega
  · intro hend
    have hone : segments frame_end 2 c = ([c], []) := by
      rw [hseg, hend, List.take_length, List.drop_length]
      rfl
    have hrest : findMark frame_end (restOf c) = none := by
      unfold restOf
      rw [hone]
      rfl
    rw [hwhole hrest, hone]
    rfl

/-! ## §2. Where a frame spells `'>ET'`. -/

/-- The terminator overlaps no `'>ET'` that starts before it. -/
theorem mark_before_terminator : ∀ {x : List UInt8} (crc : List UInt8), x ≠ [] →
    (frame_end <+: x ++ (frame_end ++ crc) ↔ frame_end <+: x)
  | [], _, hne => absurd rfl hne
  | [a], crc, _ => by simp [frame_end, List.cons_prefix_cons]
  | [a, b], crc, _ => by simp [frame_end, List.cons_prefix_cons]
  | a :: b :: d :: x, crc, _ => by simp [frame_end, List.cons_prefix_cons]

/-- In a frame with a LEN below 256, a `'>ET'` before the terminator starts in
the low byte of LEN or in the data. -/
theorem mark_in_frame (cmd : ℕ) {data : List UInt8} (crc : List UInt8) (hlen : data.length < 256) :
    (∃ j < data.length + 7, frame_end <+: (frameBody cmd data ++ crc).drop j) ↔
      frame_end <:+: UInt8.ofNat data.length :: data := by
  have hframe : frameBody cmd data ++ crc
      = [0x53, 0x54, 0x3c, UInt8.ofNat (cmd / 256), UInt8.ofNat (cmd % 256), 0]
        ++ ((UInt8.ofNat data.length :: data) ++ (frame_end ++ crc)) := by
    unfold frameBody twoBytes
    rw [Nat.div_eq_of_lt hlen, Nat.mod_eq_of_lt hlen]
    simp [frame_head]
  set x := UInt8.ofNat data.length :: data with hx
  have hxlen : x.length = data.length + 1 := rfl
  have hin : ∀ t, t < x.length →
      (frame_end <+: (frameBody cmd data ++ crc).drop (t + 6) ↔ frame_end <+: x.drop t) := by
    intro t ht
    have hdrop : (frameBody cmd data ++ crc).drop (t + 6) = x.drop t ++ (frame_end ++ crc) := by
      rw [hframe]
      show (x ++ (frame_end ++ crc)).drop t = _
      exact List.drop_append_of_le_length (by omega)
    rw [hdrop]
    exact mark_before_terminator crc (by rw [Ne, List.drop_eq_nil_iff]; omega)
  constructor
  · rintro ⟨j, hj, hmark⟩
    have hj6 : 6 ≤ j := by
      by_contra hlt
      rw [hframe] at hmark
      -- the six bytes before the low byte of LEN
      have hcase : j = 0 ∨ j = 1 ∨ j = 2 ∨ j = 3 ∨ j = 4 ∨ j = 5 := by omega
      rcases hcase with rfl | rfl | rfl | rfl | rfl | rfl <;>
        simp [frame_end, List.cons_prefix_cons] at hmark
    have hmark' := (hin (j - 6) (by omega)).mp (by rwa [Nat.sub_add_cancel hj6])
    exact hmark'.isInfix.trans (List.drop_suffix _ x).isInfix
  · intro hinfix
    obtain ⟨t, hpre, hsuf⟩ := List.infix_iff_prefix_suffix.mp hinfix
    obtain ⟨s, hs⟩ := hsuf
    have ht : t = x.drop s.length := by
      rw [← hs, List.drop_left]
    have hlen3 := hpre.length_le
    rw [frame_end_length] at hlen3
    have hslen := congrArg List.length hs
    rw [List.length_append] at hslen
    refine ⟨s.length + 6, by omega, (hin s.length (by omega)).mpr ?_⟩
    rwa [← ht]

/-! ## §3. A frame in one read. -/

/-- **PAYLOAD TRANSPARENCY, EXACTLY.**  For every command, data and CRC bytes of a
frame below `RX_LEN` bytes, in one read, from any state with nothing
accumulated: `receive_parse` is called once, on the whole frame, if and only
if the low byte of LEN and the data spell no `'>ET'`. -/
theorem transparent_iff (cmd : ReciveCmd) {data crc : List UInt8} {u : Uart} (hu : u.rx.Ready)
    (hcrc : crc.length = 2) (hlen : (frameBody cmd.code data ++ crc).length ≤ RX_LEN - 1) :
    (uart_task u [frameBody cmd.code data ++ crc]).rx.calls
        = u.rx.calls
          ++ [(frameBody cmd.code data ++ crc, (frameBody cmd.code data ++ crc).length)] ↔
      ¬ frame_end <:+: UInt8.ofNat data.length :: data := by
  have hR : RX_LEN = 200 := rfl
  have hbytes : (frameBody cmd.code data ++ crc).length = data.length + 12 := by
    unfold frameBody
    simp only [List.length_append, hcrc, frame_end_length]
    show 3 + 2 + 2 + data.length + 3 + 2 = _
    omega
  rw [← mark_in_frame cmd.code crc (by omega)]
  -- the terminator itself is a `'>ET'` of the frame
  have hterm : frame_end <+: (frameBody cmd.code data ++ crc).drop (data.length + 7) := by
    have hdrop : (frameBody cmd.code data ++ crc).drop (data.length + 7) = frame_end ++ crc := by
      unfold frameBody
      rw [List.append_assoc _ frame_end crc]
      refine List.drop_left' ?_
      simp only [List.length_append]
      show 3 + 2 + 2 + data.length = _
      omega
    rw [hdrop]
    exact List.prefix_append frame_end crc
  have hsome : findMark frame_end (frameBody cmd.code data ++ crc) ≠ none := fun hnone =>
    (findMark_eq_none_iff frame_end _).mp hnone (data.length + 7) (by omega) hterm
  obtain ⟨n, hn⟩ := Option.ne_none_iff_exists'.mp hsome
  obtain ⟨hlt, hmark, hfirst⟩ := (findMark_eq_some_iff frame_end _ n).mp hn
  have hle : n ≤ data.length + 7 := by
    by_contra hgt
    exact hfirst (data.length + 7) (by omega) hterm
  rw [calls_read_iff hu (by omega) hn (by omega), hbytes]
  constructor
  · rintro hend ⟨j, hj, hmarkj⟩
    exact hfirst j (by omega) hmarkj
  · intro hfree
    have hge : ¬ n < data.length + 7 := fun h => hfree ⟨n, h, hmark⟩
    omega

/-- The value frame of `FREQ1`, with the float bytes `3e 45 54 00`. -/
def spelledFrame : List UInt8 :=
  frameBody ReciveCmd.control_label_value.code
      (CText.str "FREQ1" ++ [0x3e, 0x45, 0x54, 0x00])
    ++ CRC_BUF (frameBody ReciveCmd.control_label_value.code
      (CText.str "FREQ1" ++ [0x3e, 0x45, 0x54, 0x00]))

/-- A float that spells `'>ET'` ends its own frame: `receive_parse` is called on 17
of the 21 bytes, and the other four stay behind. -/
theorem not_transparent_float :
    ¬ ∀ u : Uart, u.rx.Ready →
        (uart_task u [spelledFrame]).rx.calls = u.rx.calls ++ [(spelledFrame, spelledFrame.length)] := by
  intro h
  have hcalls := h (Uart.start [] (List.replicate RX_LEN 0)) ⟨List.length_replicate, rfl⟩
  exact absurd hcalls (by decide +kernel)

/-- The value frame of `FREQ1` with the float 5.0. -/
theorem transparent_five :
    (uart_task (Uart.start [] (List.replicate RX_LEN 0))
        [frameBody ReciveCmd.control_label_value.code (CText.str "FREQ1" ++ [0x40, 0xa0, 0, 0])
          ++ [1, 2]]).rx.calls
      = (Uart.start [] (List.replicate RX_LEN 0)).rx.calls
        ++ [(frameBody ReciveCmd.control_label_value.code (CText.str "FREQ1" ++ [0x40, 0xa0, 0, 0])
          ++ [1, 2], 21)] := by
  have hcrc : ([1, 2] : List UInt8).length = 2 := rfl
  exact (transparent_iff .control_label_value ⟨List.length_replicate, rfl⟩ hcrc (by decide)).mpr
    (by decide)

end StoneHMI
