/-
  StoneHMI.Receive.Frame
  ──────────────────────
  **WELL-FORMED FRAMES — the format stone_receive_group.c documents.**

      frame header + CMD    + LEN    + DATA     + terminator + CRC
      ST<            0x1068   0x0004   01 02 …    >ET          CRC16

  A `Frame` pairs a command with data of the shape that command's decoder
  expects, and carries the proofs that it does: the shapes agree, the widget
  name is a C string of at most 40 bytes (without a quote where the data puts
  it in quotes), and the whole frame fits `STONE_RX_BUF`.

  `Payload.decodesTo` is the specification of the widget decoders: whatever bytes
  older frames left behind it, a frame decodes without a fault, into exactly
  the blocks, value, float and text that its data spells.
-/
import StoneHMI.Receive.Plan
import StoneHMI.Receive.Crc
import StoneHMI.Receive.Uart

namespace StoneHMI

open CMemory Receiver

/-! ## §1. Frames. -/

/-- The data part of a frame. -/
inductive Payload where
  /-- System data. -/
  | sys (p : List UInt8)
  /-- A widget and one byte. -/
  | byte (w : List UInt8) (v : UInt8)
  /-- A widget and two bytes. -/
  | pair (w : List UInt8) (hi lo : UInt8)
  /-- A widget and four bytes: an integer or a float. -/
  | quad (w : List UInt8) (b0 b1 b2 b3 : UInt8)
  /-- A widget, a two-byte index and a float. -/
  | chart (w : List UInt8) (hi lo b0 b1 b2 b3 : UInt8)
  /-- A widget in quotes, a colon and a text. -/
  | text (w t : List UInt8)
  /-- A window's name. -/
  | window (w : List UInt8)
  deriving DecidableEq, Repr

namespace Payload

/-- The bytes of the data part. -/
def data : Payload → List UInt8
  | sys p => p
  | byte w v => w ++ [v]
  | pair w hi lo => w ++ [hi, lo]
  | quad w b0 b1 b2 b3 => w ++ [b0, b1, b2, b3]
  | chart w hi lo b0 b1 b2 b3 => w ++ [hi, lo, b0, b1, b2, b3]
  | text w t => 0x22 :: (w ++ 0x22 :: 0x3a :: t)
  | window w => w

/-- The widget or window the data names. -/
def name : Payload → Option (List UInt8)
  | sys _ => none
  | byte w _ => some w
  | pair w _ _ => some w
  | quad w _ _ _ _ => some w
  | chart w _ _ _ _ _ _ => some w
  | text w _ => some w
  | window w => some w

/-- The shape that each decoder expects. -/
def Fits : Payload → Decoder → Bool
  | sys _, .sysScan | sys _, .sysVersion => true
  | byte _ _, .btn => true
  | pair _ _ _, .image => true
  | quad _ _ _ _ _, .slider | quad _ _ _ _ _, .fourByte | quad _ _ _ _ _, .ieee => true
  | chart _ _ _ _ _ _ _, .chartView => true
  | text _ _, .dataText => true
  | window _, .window => true
  | _, _ => false

/-- A name of at most 40 bytes, NUL-free, and quote-free where it is quoted. -/
def NameOk : Payload → Prop
  | sys _ => True
  | byte w _ | pair w _ _ | quad w _ _ _ _ | chart w _ _ _ _ _ _ | window w =>
      w.length ≤ 40 ∧ ∀ b ∈ w, b ≠ 0
  | text w _ => w.length ≤ 40 ∧ ∀ b ∈ w, b ≠ 0 ∧ isQuote b = false

/-- A name of any length that is a C string; a quoted one holds no quote and fits the
block of `widgetinit(40)`. -/
def CName : Payload → Prop
  | sys _ => True
  | byte w _ | pair w _ _ | quad w _ _ _ _ | chart w _ _ _ _ _ _ | window w => ∀ b ∈ w, b ≠ 0
  | text w _ => w.length ≤ 40 ∧ ∀ b ∈ w, b ≠ 0 ∧ isQuote b = false

theorem NameOk.cname {p : Payload} (h : p.NameOk) : p.CName := by
  cases p with
  | sys _ => trivial
  | text _ _ => exact h
  | byte | pair | quad | chart | window => exact h.2

end Payload

/-- A number below 65536 in two bytes, high byte first. -/
def twoBytes (n : ℕ) : List UInt8 := [UInt8.ofNat (n / 256), UInt8.ofNat (n % 256)]

/-- `ST<`, CMD, LEN, DATA and `>ET`. -/
def frameBody (cmd : ℕ) (data : List UInt8) : List UInt8 :=
  frame_head ++ twoBytes cmd ++ twoBytes data.length ++ data ++ frame_end

/-- A frame of the documented format, for a command the switch handles. -/
structure Frame where
  cmd : ReciveCmd
  decoder : Decoder
  payload : Payload
  handled : cmd.decoder = some decoder
  fits : payload.Fits decoder = true
  nameOk : payload.NameOk
  short : payload.data.length + 12 ≤ RX_LEN
  deriving DecidableEq

namespace Frame

def body (f : Frame) : List UInt8 := frameBody f.cmd.code f.payload.data

/-- The bytes on the line: the body and its checksum. -/
def bytes (f : Frame) : List UInt8 := f.body ++ CRC_BUF f.body

end Frame

/-! ## §2. What a frame says. -/

/-- The plan that a payload spells for a decoder. -/
def Payload.plan : Payload → Decoder → Option Plan
  | .byte w v, _ =>
      some
        { widget := Block.filled (w.length + 1) w, widgetLen := w.length + 1,
          value := some fun _ => BitVec.ofNat 32 v.toNat }
  | .pair w hi lo, _ =>
      some
        { widget := Block.filled (w.length + 2) w, widgetLen := w.length + 2,
          value := some fun _ => pairValue hi lo }
  | .quad w b0 b1 b2 b3, .slider =>
      some
        { widget := Block.filled (w.length + 1) w, widgetLen := w.length + 1,
          float := some (hexFloat b0 b1 b2 b3) }
  | .quad w b0 b1 b2 b3, .ieee =>
      some
        { widget := Block.filled (w.length + 1) w, widgetLen := w.length + 1,
          float := some (hexFloat b0 b1 b2 b3), nameLen := some w.length }
  | .quad w _ _ _ b3, _ =>
      some
        { widget := Block.filled (w.length + 1) w, widgetLen := w.length + 1,
          value := some fun long_value => long_value <<< 8 ||| BitVec.ofNat 32 b3.toNat }
  | .chart w hi lo b0 b1 b2 b3, _ =>
      some
        { widget := Block.filled (w.length + 1) w, widgetLen := w.length + 1,
          value := some fun _ => pairValue hi lo,
          float := some (hexFloat b0 b1 b2 b3) }
  | .text w t, _ =>
      some
        { widget := Block.filled 40 (w ++ [0]), widgetLen := 40,
          text := some (Block.filled t.length (t ++ [0]), t.length), nameLen := some w.length }
  | .window w, _ =>
      some { widget := Block.filled w.length (w ++ [0]), widgetLen := w.length }
  | .sys _, _ => none

/-! ## §3. The decoders on a frame. -/

theorem widgetOf_append {hd w post : List UInt8} {k j : ℤ} {n : ℕ} (hhd : hd.length = 7)
    (hj : (n : ℤ) - j = w.length) (hkj : k < j) :
    widgetOf k j (hd ++ (w ++ post)) n = .ok (Block.filled (w.length + (j - k).toNat) w) := by
  unfold widgetOf
  rw [hj, allocate_of_nonneg (by omega), ok_bind, slice_append hhd.symm rfl, ok_bind,
    show ((n : ℤ) - k).toNat = w.length + (j - k).toNat by omega]
  exact Block.store_fresh (by omega)

theorem write_hex_to_float_append {pre post : List UInt8} {b0 b1 b2 b3 : UInt8} {i : ℕ}
    (hi : i = pre.length) :
    write_hex_to_float (pre ++ b0 :: b1 :: b2 :: b3 :: post) i = .ok (hexFloat b0 b1 b2 b3) := by
  unfold write_hex_to_float
  rw [read_append hi, List.append_cons pre b0,
    read_append (by rw [List.length_append, List.length_singleton]; omega),
    List.append_cons (pre ++ [b0]) b1,
    read_append (by simp only [List.length_append, List.length_singleton]; omega),
    List.append_cons (pre ++ [b0] ++ [b1]) b2,
    read_append (by simp only [List.length_append, List.length_singleton]; omega)]
  rfl

theorem value2_append {pre post : List UInt8} {hi lo : UInt8} {i : ℕ} (h : i = pre.length) :
    value2 (pre ++ hi :: lo :: post) i
      = .ok (pairValue hi lo) := by
  unfold value2
  rw [read_append h, List.append_cons pre hi,
    read_append (by rw [List.length_append, List.length_singleton]; omega)]
  rfl

/-- The scan of a quoted name leaves it, with its NUL, in its block. -/
theorem scanInto_name {pre w post : List UInt8} {i : ℕ} (hi : i = pre.length)
    (hlen : w.length ≤ 40) (hname : ∀ b ∈ w, b ≠ 0 ∧ isQuote b = false) :
    scanInto isQuote (pre ++ (w ++ 0x22 :: post)) i (Block.fresh 40)
      = .ok (Block.filled 40 (w ++ [0])) := by
  cases w with
  | nil =>
      rw [List.nil_append, List.nil_append, scanInto_stop hi (by decide),
        Block.filled_zero (by decide)]
  | cons b w =>
      rw [scanInto_run hi (by simp) hname (by decide)]
      exact Block.store_fresh (by rw [List.length_append, List.length_singleton]; omega)

/-- After any seven header bytes and before any other bytes, the payload
decodes into what it spells for the decoder. -/
def Payload.DecodesTo (p : Payload) (d : Decoder) : Prop :=
  ∀ (hd tail : List UInt8) (q : Plan), hd.length = 7 → p.plan d = some q →
    d.plan (hd ++ (p.data ++ tail)) p.data.length = some (.ok q)

theorem decodesTo_byte {w : List UInt8} {v : UInt8} :
    (Payload.byte w v).DecodesTo .btn := by
  intro hd tail q hhd hq
  cases hq
  have hw : widgetOf 0 1 (hd ++ (w ++ v :: tail)) (w.length + 1)
      = .ok (Block.filled (w.length + 1) w) := widgetOf_append hhd (by omega) (by decide)
  have hv : CMemory.read (hd ++ (w ++ v :: tail)) (7 + (w.length + 1) - 1) = .ok v := by
    rw [← List.append_assoc]
    exact read_append (by rw [List.length_append]; omega)
  simp only [Decoder.plan, Payload.data, List.length_append, List.length_singleton,
    List.append_assoc, List.singleton_append, hw, hv, ok_bind]
  rfl

theorem decodesTo_pair {w : List UInt8} {hi lo : UInt8} :
    (Payload.pair w hi lo).DecodesTo .image := by
  intro hd tail q hhd hq
  cases hq
  have hw : widgetOf 0 2 (hd ++ (w ++ hi :: lo :: tail)) (w.length + 2)
      = .ok (Block.filled (w.length + 2) w) := widgetOf_append hhd (by omega) (by decide)
  have hv : value2 (hd ++ (w ++ hi :: lo :: tail)) (7 + (w.length + 2) - 2)
      = .ok (pairValue hi lo) := by
    rw [← List.append_assoc]
    exact value2_append (by rw [List.length_append]; omega)
  simp only [Decoder.plan, Payload.data, List.length_append, List.length_cons,
    List.length_nil, Nat.zero_add, Nat.reduceAdd, List.append_assoc, List.cons_append,
    List.nil_append, hw, hv, ok_bind]
  rfl

theorem decodesTo_slider {w : List UInt8} {b0 b1 b2 b3 : UInt8} :
    (Payload.quad w b0 b1 b2 b3).DecodesTo .slider := by
  intro hd tail q hhd hq
  cases hq
  have hw : widgetOf 3 4 (hd ++ (w ++ b0 :: b1 :: b2 :: b3 :: tail)) (w.length + 4)
      = .ok (Block.filled (w.length + 1) w) := widgetOf_append hhd (by omega) (by decide)
  have hf : write_hex_to_float (hd ++ (w ++ b0 :: b1 :: b2 :: b3 :: tail))
      (7 + (w.length + 4) - 4) = .ok (hexFloat b0 b1 b2 b3) := by
    rw [← List.append_assoc]
    exact write_hex_to_float_append (by rw [List.length_append]; omega)
  simp only [Decoder.plan, Payload.data, List.length_append, List.length_cons,
    List.length_nil, Nat.zero_add, Nat.reduceAdd, List.append_assoc, List.cons_append,
    List.nil_append, hw, hf, ok_bind]
  rfl

theorem decodesTo_fourByte {w : List UInt8} {b0 b1 b2 b3 : UInt8} :
    (Payload.quad w b0 b1 b2 b3).DecodesTo .fourByte := by
  intro hd tail q hhd hq
  cases hq
  have hw : widgetOf 3 4 (hd ++ (w ++ b0 :: b1 :: b2 :: b3 :: tail)) (w.length + 4)
      = .ok (Block.filled (w.length + 1) w) := widgetOf_append hhd (by omega) (by decide)
  have h0 : CMemory.read (hd ++ (w ++ b0 :: b1 :: b2 :: b3 :: tail))
      (7 + (w.length + 4) - 4) = .ok b0 := by
    rw [← List.append_assoc]
    exact read_append (by rw [List.length_append]; omega)
  have h1 : CMemory.read (hd ++ (w ++ b0 :: b1 :: b2 :: b3 :: tail))
      (7 + (w.length + 4) - 3) = .ok b1 := by
    rw [← List.append_assoc, List.append_cons _ b0]
    exact read_append (by simp only [List.length_append, List.length_singleton]; omega)
  have h2 : CMemory.read (hd ++ (w ++ b0 :: b1 :: b2 :: b3 :: tail))
      (7 + (w.length + 4) - 2) = .ok b2 := by
    rw [← List.append_assoc, List.append_cons _ b0, List.append_cons _ b1]
    exact read_append (by simp only [List.length_append, List.length_singleton]; omega)
  have h3 : CMemory.read (hd ++ (w ++ b0 :: b1 :: b2 :: b3 :: tail))
      (7 + (w.length + 4) - 1) = .ok b3 := by
    rw [← List.append_assoc, List.append_cons _ b0, List.append_cons _ b1,
      List.append_cons _ b2]
    exact read_append (by simp only [List.length_append, List.length_singleton]; omega)
  simp only [Decoder.plan, Payload.data, List.length_append, List.length_cons,
    List.length_nil, Nat.zero_add, Nat.reduceAdd, List.append_assoc, List.cons_append,
    List.nil_append, hw, h0, h1, h2, h3, ok_bind]
  rfl

theorem decodesTo_ieee {w : List UInt8} {b0 b1 b2 b3 : UInt8} (hname : ∀ b ∈ w, b ≠ 0) :
    (Payload.quad w b0 b1 b2 b3).DecodesTo .ieee := by
  intro hd tail q hhd hq
  cases hq
  have hw : widgetOf 3 4 (hd ++ (w ++ b0 :: b1 :: b2 :: b3 :: tail)) (w.length + 4)
      = .ok (Block.filled (w.length + 1) w) := widgetOf_append hhd (by omega) (by decide)
  -- the decoder finds the value behind the name by its `strlen`
  have hname' : (Block.filled (w.length + 1) w).cstr = w :=
    Block.cstr_filled (by omega) hname
  have hf : write_hex_to_float (hd ++ (w ++ b0 :: b1 :: b2 :: b3 :: tail))
      (7 + w.length) = .ok (hexFloat b0 b1 b2 b3) := by
    rw [← List.append_assoc]
    exact write_hex_to_float_append (by rw [List.length_append]; omega)
  simp only [Decoder.plan, Payload.data, List.length_append, List.length_cons,
    List.length_nil, Nat.zero_add, Nat.reduceAdd, List.append_assoc, List.cons_append,
    List.nil_append, hw, hname', hf, ok_bind]
  rfl

theorem decodesTo_chart {w : List UInt8} {hi lo b0 b1 b2 b3 : UInt8} :
    (Payload.chart w hi lo b0 b1 b2 b3).DecodesTo .chartView := by
  intro hd tail q hhd hq
  cases hq
  have hw : widgetOf 5 6 (hd ++ (w ++ hi :: lo :: b0 :: b1 :: b2 :: b3 :: tail))
      (w.length + 6) = .ok (Block.filled (w.length + 1) w) :=
    widgetOf_append hhd (by omega) (by decide)
  have hv : value2 (hd ++ (w ++ hi :: lo :: b0 :: b1 :: b2 :: b3 :: tail))
      (7 + (w.length + 6) - 6) = .ok (pairValue hi lo) := by
    rw [← List.append_assoc]
    exact value2_append (by rw [List.length_append]; omega)
  have hf : write_hex_to_float (hd ++ (w ++ hi :: lo :: b0 :: b1 :: b2 :: b3 :: tail))
      (7 + (w.length + 6) - 4) = .ok (hexFloat b0 b1 b2 b3) := by
    rw [← List.append_assoc, List.append_cons _ hi, List.append_cons _ lo]
    exact write_hex_to_float_append
      (by simp only [List.length_append, List.length_singleton]; omega)
  simp only [Decoder.plan, Payload.data, List.length_append, List.length_cons,
    List.length_nil, Nat.zero_add, Nat.reduceAdd, List.append_assoc, List.cons_append,
    List.nil_append, hw, hv, hf, ok_bind]
  rfl

/-- Once the name is scanned, LEN without it, its quotes and the colon is the text's. -/
theorem plan_text {pre t post w : List UInt8} {b : Block}
    (hb : scanInto isQuote (pre ++ (t ++ post)) 8 (Block.fresh 40) = .ok b) (hw : b.cstr = w)
    (hpre : pre.length = 10 + w.length) :
    Decoder.dataText.plan (pre ++ (t ++ post)) (w.length + t.length + 3)
      = some (.ok
          { widget := b, widgetLen := 40,
            text := some (Block.filled t.length (t ++ [0]), t.length),
            nameLen := some w.length }) := by
  have ht : slice (pre ++ (t ++ post)) (10 + w.length) t.length = .ok t :=
    slice_append hpre.symm rfl
  have hn : ((w.length + t.length + 3 : ℕ) : ℤ) - w.length - 3 = t.length := by omega
  have hstore : (Block.fresh t.length).store (t ++ [0])
      = .ok (Block.filled t.length (t ++ [0])) :=
    Block.store_fresh (by rw [List.length_append, List.length_singleton])
  simp only [Decoder.plan, hb, hw, ok_bind, hn, ht,
    allocate_of_nonneg (Int.natCast_nonneg t.length), Int.toNat_natCast, hstore]
  rfl

theorem decodesTo_text {w t : List UInt8} (hname : (Payload.text w t).NameOk) :
    (Payload.text w t).DecodesTo .dataText := by
  intro hd tail q hhd hq
  cases hq
  have hrx : hd ++ ((0x22 :: (w ++ 0x22 :: 0x3a :: t)) ++ tail)
      = (hd ++ [0x22]) ++ (w ++ 0x22 :: 0x3a :: (t ++ tail)) := by
    simp only [List.cons_append, List.append_assoc, List.nil_append]
  have hpre : (hd ++ [0x22]) ++ (w ++ 0x22 :: 0x3a :: (t ++ tail))
      = (hd ++ 0x22 :: (w ++ [0x22, 0x3a])) ++ (t ++ tail) := by
    simp only [List.cons_append, List.append_assoc, List.nil_append]
  have hlen : (0x22 :: (w ++ 0x22 :: 0x3a :: t)).length = w.length + t.length + 3 := by
    simp only [List.length_cons, List.length_append]
    omega
  have hw : scanInto isQuote ((hd ++ [0x22]) ++ (w ++ 0x22 :: 0x3a :: (t ++ tail))) 8
      (Block.fresh 40) = .ok (Block.filled 40 (w ++ [0])) :=
    scanInto_name (by simp [hhd]) hname.1 hname.2
  have hname' : (Block.filled 40 (w ++ [0])).cstr = w := by
    rw [Block.cstr_filled_nul]
    exact CText.cstr_eq_self fun b hb => (hname.2 b hb).1
  rw [Payload.data, hrx, hlen, hpre]
  rw [hpre] at hw
  refine plan_text hw hname' ?_
  rw [List.length_append, List.length_cons, List.length_append, hhd]
  show 7 + (w.length + 2 + 1) = 10 + w.length
  omega

theorem decodesTo_window {w : List UInt8} :
    (Payload.window w).DecodesTo .window := by
  intro hd tail q hhd hq
  cases hq
  have hs : slice (hd ++ (w ++ tail)) 7 w.length = .ok w := slice_append hhd.symm rfl
  have hstore : (Block.fresh w.length).store (w ++ [0])
      = .ok (Block.filled w.length (w ++ [0])) :=
    Block.store_fresh (by rw [List.length_append, List.length_singleton])
  simp only [Decoder.plan, Payload.data, hs, ok_bind, hstore]
  rfl

/-- **Every payload decodes into what it spells.** -/
theorem Payload.decodesTo {p : Payload} {d : Decoder} (hfit : p.Fits d = true)
    (hname : p.CName) : p.DecodesTo d := by
  match p, d, hfit with
  | .byte _ _, .btn, _ => exact decodesTo_byte
  | .pair _ _ _, .image, _ => exact decodesTo_pair
  | .quad _ _ _ _ _, .slider, _ => exact decodesTo_slider
  | .quad _ _ _ _ _, .fourByte, _ => exact decodesTo_fourByte
  | .quad _ _ _ _ _, .ieee, _ => exact decodesTo_ieee hname
  | .chart _ _ _ _ _ _ _, .chartView, _ => exact decodesTo_chart
  | .text _ _, .dataText, _ => exact decodesTo_text hname
  | .window _, .window, _ => exact decodesTo_window
  | .sys _, .sysScan, _ => exact fun _ _ _ _ hq => nomatch hq
  | .sys _, .sysVersion, _ => exact fun _ _ _ _ hq => nomatch hq

/-- Only system data spells no plan. -/
theorem Payload.sys_of_plan_none {p : Payload} {d : Decoder} (h : p.plan d = none) :
    ∃ b, p = .sys b := by
  cases p with
  | sys b => exact ⟨b, rfl⟩
  | quad => cases d <;> cases h
  | byte => cases h
  | pair => cases h
  | chart => cases h
  | text => cases h
  | window => cases h

/-- Both system decoders fill the block that `datainit` allocates. -/
theorem run_sys {d : Decoder} {hd p : List UInt8} (hfit : (Payload.sys p).Fits d = true)
    (hhd : hd.length = 7) (rest : List UInt8) {s : Receiver} (hlen : s.STONER.len = p.length) :
    ∃ b : Block, d.run (hd ++ (p ++ 0x3e :: rest)) s
      = (fun t => t.newData b (p.length + 1)) <$> dataClear s := by
  have hblock : ∃ b, d.dataBlock (hd ++ (p ++ 0x3e :: rest)) s.STONER.len = some (.ok b) := by
    rw [hlen]
    match d, hfit with
    | .sysScan, _ =>
        obtain ⟨b, hb, -⟩ := scanInto_within (p := p) (n := p.length + 1) rest hhd.symm
          (by decide : isTerminatorByte 0x3e = true) (by omega)
        exact ⟨b, congrArg some hb⟩
    | .sysVersion, _ =>
        refine ⟨Block.filled (p.length + 1) p, congrArg some ?_⟩
        rw [slice_append hhd.symm rfl, ok_bind, Block.store_fresh (by omega)]
  obtain ⟨b, hb⟩ := hblock
  refine ⟨b, ?_⟩
  rw [run_eq_dataBlock d _ s _ hb, hlen]
  cases dataClear s <;> rfl

/-! ## §4. `receive_parse` on a frame. -/

theorem toNat_twoBytes {n : ℕ} (h : n < 65536) :
    (UInt8.ofNat (n / 256)).toNat * 256 + (UInt8.ofNat (n % 256)).toNat = n := by
  rw [UInt8.toNat_ofNat_of_lt' (by show n / 256 < 256; omega),
    UInt8.toNat_ofNat_of_lt' (by show n % 256 < 256; omega)]
  omega

theorem decoderOf_code (c : ReciveCmd) : decoderOf c.code = c.decoder := by
  unfold decoderOf
  rw [ReciveCmd.ofCode_code]
  rfl

/-- Three bytes, CMD, LEN, and what follows them. -/
def headed (x0 x1 x2 : UInt8) (cmd len : ℕ) (rest : List UInt8) : List UInt8 :=
  [x0, x1, x2] ++ twoBytes cmd ++ twoBytes len ++ rest

theorem frameCmd_headed {x0 x1 x2 : UInt8} {cmd len : ℕ} {rest : List UInt8} (h : cmd < 65536) :
    frameCmd (headed x0 x1 x2 cmd len rest) = cmd := toNat_twoBytes h

theorem frameLen_headed {x0 x1 x2 : UInt8} {cmd len : ℕ} {rest : List UInt8} (h : len < 65536) :
    frameLen (headed x0 x1 x2 cmd len rest) = len := toNat_twoBytes h

/-- CMD and LEN come back from their two bytes each, and choose the decoder. -/
theorem receive_parse_headed {x0 x1 x2 : UInt8} {c : ReciveCmd} {d : Decoder} {len : ℕ}
    (hd : c.decoder = some d) (hlen : len < 65536) (rest : List UInt8) (s : Receiver) :
    receive_parse (headed x0 x1 x2 c.code len rest) s
      = (fun t => (t, true)) <$>
          d.run (headed x0 x1 x2 c.code len rest) (s.setCmdLen c.code len) := by
  have h7 : 7 ≤ (headed x0 x1 x2 c.code len rest).length := by
    unfold headed
    simp only [List.length_append]
    show 7 ≤ 3 + 2 + 2 + rest.length
    omega
  have hcmd : decoderOf (frameCmd (headed x0 x1 x2 c.code len rest)) = some d := by
    rw [frameCmd_headed c.code_lt, decoderOf_code]
    exact hd
  rw [receive_parse_handled h7 hcmd, frameCmd_headed c.code_lt, frameLen_headed hlen]

/-- A plan that succeeds is applied, and posted. -/
theorem receive_parse_plan {x0 x1 x2 : UInt8} {c : ReciveCmd} {d : Decoder} {len : ℕ} {q : Plan}
    {rest : List UInt8} (hd : c.decoder = some d) (hlen : len < 65536)
    (hq : d.plan (headed x0 x1 x2 c.code len rest) len = some (.ok q)) (s : Receiver) :
    receive_parse (headed x0 x1 x2 c.code len rest) s
      = .ok (q.apply (s.setCmdLen c.code len), true) := by
  rw [receive_parse_headed hd hlen, run_eq_plan d _ _ (.ok q) hq]
  rfl

namespace Frame

/-- The seven bytes before the data. -/
def header (f : Frame) : List UInt8 :=
  frame_head ++ twoBytes f.cmd.code ++ twoBytes f.payload.data.length

/-- What stands behind the data. -/
def trailer (f : Frame) : List UInt8 := frame_end ++ CRC_BUF f.body

theorem length_header (f : Frame) : f.header.length = 7 := rfl

theorem bytes_append (f : Frame) (older : List UInt8) :
    f.bytes ++ older = f.header ++ (f.payload.data ++ (f.trailer ++ older)) := by
  unfold bytes header trailer
  generalize CRC_BUF f.body = crc
  unfold body frameBody
  simp only [List.append_assoc]

theorem length_bytes (f : Frame) : f.bytes.length = f.payload.data.length + 12 := by
  have h := congrArg List.length (f.bytes_append [])
  simp only [List.append_nil, List.length_append, length_header] at h
  rw [h]
  show 7 + (_ + (3 + 2)) = _
  omega

/-- The plan a frame spells; a system frame spells none. -/
def plan (f : Frame) : Option Plan := f.payload.plan f.decoder

theorem bytes_headed (f : Frame) (older : List UInt8) :
    f.bytes ++ older = headed 0x53 0x54 0x3c f.cmd.code f.payload.data.length
      (f.payload.data ++ (f.trailer ++ older)) := by
  rw [bytes_append]
  rfl

theorem length_data_lt (f : Frame) : f.payload.data.length < 65536 := by
  have hR : RX_LEN = 200 := rfl
  have hshort := f.short
  omega

/-- A frame chooses its decoder. -/
theorem receive_parse_eq (f : Frame) (older : List UInt8) (s : Receiver) :
    receive_parse (f.bytes ++ older) s
      = (fun t => (t, true)) <$>
          f.decoder.run (f.bytes ++ older) (s.setCmdLen f.cmd.code f.payload.data.length) := by
  rw [bytes_headed, receive_parse_headed f.handled f.length_data_lt]

/-- **A widget frame is carried out as it is spelt, and posted.** -/
theorem receive_parse_widget {f : Frame} {q : Plan} (hq : f.plan = some q) (older : List UInt8)
    (s : Receiver) :
    receive_parse (f.bytes ++ older) s
      = .ok (q.apply (s.setCmdLen f.cmd.code f.payload.data.length), true) := by
  have hplan := Payload.decodesTo f.fits f.nameOk.cname f.header (f.trailer ++ older) q
    f.length_header hq
  rw [← bytes_append] at hplan
  rw [receive_parse_eq, run_eq_plan f.decoder _ _ (.ok q) hplan]
  rfl

/-- **A system frame needs its clearing to succeed, and nothing more.** -/
theorem receive_parse_sys {f : Frame} (hq : f.plan = none) (older : List UInt8)
    (s : Receiver) :
    ∃ d : Block, receive_parse (f.bytes ++ older) s
      = (fun t => (t.newData d (f.payload.data.length + 1), true)) <$>
          dataClear (s.setCmdLen f.cmd.code f.payload.data.length) := by
  obtain ⟨p, hp⟩ := Payload.sys_of_plan_none hq
  have hfit : (Payload.sys p).Fits f.decoder = true := hp ▸ f.fits
  have hdata : f.payload.data = p := by rw [hp]; rfl
  obtain ⟨d, hd⟩ := run_sys hfit f.length_header (0x45 :: 0x54 :: (CRC_BUF f.body ++ older))
    (s := s.setCmdLen f.cmd.code f.payload.data.length) (by rw [hdata]; rfl)
  refine ⟨d, ?_⟩
  have hrx : f.bytes ++ older
      = f.header ++ (p ++ 0x3e :: 0x45 :: 0x54 :: (CRC_BUF f.body ++ older)) := by
    rw [bytes_append, hdata]
    rfl
  -- `dataClear` alone decides, and the rest is a fresh `data` block
  rw [receive_parse_eq, hrx, hd, hdata]
  cases dataClear _ <;> rfl

end Frame

/-! ## §5. Frames of the display. -/

/-- A button reports that it was pressed. -/
def buttonFrame (w : List UInt8) (hlen : w.length ≤ 40) (hnul : ∀ b ∈ w, b ≠ 0) : Frame where
  cmd := .control_button
  decoder := .btn
  payload := .byte w 1
  handled := rfl
  fits := rfl
  nameOk := ⟨hlen, hnul⟩
  short := by
    show (w ++ [1]).length + 12 ≤ 200
    rw [List.length_append, List.length_singleton]
    omega

open CText in
/-- The buttons `P01` and `P02`. -/
def pressedP01 : Frame :=
  buttonFrame (str "P01") (by decide) (List.all_iff_forall_prop.mp (by decide))

open CText in
def pressedP02 : Frame :=
  buttonFrame (str "P02") (by decide) (List.all_iff_forall_prop.mp (by decide))

/-- A label reports its value, a float of the four bytes. -/
def valueFrame (w : List UInt8) (hlen : w.length ≤ 40) (hnul : ∀ b ∈ w, b ≠ 0)
    (b0 b1 b2 b3 : UInt8) : Frame where
  cmd := .control_label_value
  decoder := .ieee
  payload := .quad w b0 b1 b2 b3
  handled := rfl
  fits := rfl
  nameOk := ⟨hlen, hnul⟩
  short := by
    show (w ++ [b0, b1, b2, b3]).length + 12 ≤ 200
    rw [List.length_append, show [b0, b1, b2, b3].length = 4 from rfl]
    omega

open CText in
/-- The countdown label, as the display reports it. -/
def countdownFrame (t : List UInt8) (ht : t.length ≤ 10) : Frame where
  cmd := .control_label_text
  decoder := .dataText
  payload := .text (str "label_timer_count_down") t
  handled := rfl
  fits := rfl
  nameOk := ⟨by decide, List.all_iff_forall_prop.mp (by decide)⟩
  short := by
    show (0x22 :: (str "label_timer_count_down" ++ 0x22 :: 0x3a :: t)).length + 12 ≤ 200
    rw [List.length_cons, List.length_append, List.length_cons, List.length_cons,
      show (str "label_timer_count_down").length = 22 from rfl]
    omega

end StoneHMI
