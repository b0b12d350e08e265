/-
  StoneHMI.Receive.Stoner
  ───────────────────────
  **THE FRAME DECODER — stone_receive_group.c.**

  `receive_parse` decodes the frame in `STONE_RX_BUF` into the one global
  `STONER` and posts `&STONER` for `stone_cmd`.  Every function here takes
  the receive buffer `rx` (all of `STONE_RX_BUF`, with whatever older frames
  left behind this one) and the decoder's globals, and returns them changed,
  or the fault it commits.

    §1  the commands of stone.h          §4  the `case_*` decoders
    §2  `STONER` and the other globals   §5  `receive_parse`
    §3  the three `init` functions

  Texts printed to the console, and the arguments that only choose them, are
  left out.  A `memset` in the `init` functions is recorded in `clears` with
  the size of the block it clears; what one that runs past its block does to
  other blocks is up to the allocator and is not simulated.
-/
import StoneHMI.Lib.CMemory
import Mathlib.Data.List.GetD

namespace StoneHMI

open CMemory

/-! ## §1. Commands. -/

/-- `enum recive_cmd` of stone.h. -/
inductive ReciveCmd where
  | sys_state | sys_hello | sys_version
  | control_button | control_button_u | control_switch | control_check_button
  | control_radio_button | control_radio_button_s
  | control_slider | control_slider_over | control_progress_bar | control_progress_bar_p
  | control_label_text | control_label_value
  | control_edit_text | control_edit_int | control_edit_float
  | control_text_selector_text | control_text_selector_value | control_text_selector_num
  | control_image | control_image_u | control_image_value
  | control_spin_box_text | control_spin_box_int | control_spin_box_float
  | control_combo_box_text | control_combo_box_int | control_combo_box_float
  | control_combo_box_num
  | control_mledit_text | control_chart_view_value | control_chart_view_capacity
  | control_progress_circle_value | control_progress_circle_p
  | control_digit_clock | control_hscroll_label | displayed_window
  deriving DecidableEq, Repr

namespace ReciveCmd

/-- The values of the enumeration. -/
def code : ReciveCmd → ℕ
  | sys_state => 0x0000
  | sys_hello => 0x0001
  | sys_version => 0x0002
  | control_button => 0x1001
  | control_button_u => 0x1002
  | control_switch => 0x1010
  | control_check_button => 0x1020
  | control_radio_button => 0x1030
  | control_radio_button_s => 0x1031
  | control_slider => 0x1040
  | control_slider_over => 0x1041
  | control_progress_bar => 0x1050
  | control_progress_bar_p => 0x1051
  | control_label_text => 0x1060
  | control_label_value => 0x1062
  | control_edit_text => 0x1070
  | control_edit_int => 0x1071
  | control_edit_float => 0x1072
  | control_text_selector_text => 0x1080
  | control_text_selector_value => 0x1081
  | control_text_selector_num => 0x1082
  | control_image => 0x1090
  | control_image_u => 0x1091
  | control_image_value => 0x1092
  | control_spin_box_text => 0x10A0
  | control_spin_box_int => 0x10A1
  | control_spin_box_float => 0x10A2
  | control_combo_box_text => 0x10B0
  | control_combo_box_int => 0x10B1
  | control_combo_box_float => 0x10B2
  | control_combo_box_num => 0x10B8
  | control_mledit_text => 0x10C0
  | control_chart_view_value => 0x10D1
  | control_chart_view_capacity => 0x10D2
  | control_progress_circle_value => 0x10E0
  | control_progress_circle_p => 0x10E1
  | control_digit_clock => 0x10F0
  | control_hscroll_label => 0x1100
  | displayed_window => 0x2001

/-- The enumeration in the order of stone.h. -/
def all : List ReciveCmd :=
  [sys_state, sys_hello, sys_version, control_button, control_button_u, control_switch,
    control_check_button, control_radio_button, control_radio_button_s, control_slider,
    control_slider_over, control_progress_bar, control_progress_bar_p, control_label_text,
    control_label_value, control_edit_text, control_edit_int, control_edit_float,
    control_text_selector_text, control_text_selector_value, control_text_selector_num,
    control_image, control_image_u, control_image_value, control_spin_box_text,
    control_spin_box_int, control_spin_box_float, control_combo_box_text,
    control_combo_box_int, control_combo_box_float, control_combo_box_num,
    control_mledit_text, control_chart_view_value, control_chart_view_capacity,
    control_progress_circle_value, control_progress_circle_p, control_digit_clock,
    control_hscroll_label, displayed_window]

/-- The enumerator with a given value. -/
def ofCode (n : ℕ) : Option ReciveCmd := all.find? fun c => c.code == n

theorem ofCode_code (c : ReciveCmd) : ofCode c.code = some c := by
  cases c <;> decide

theorem code_lt (c : ReciveCmd) : c.code < 65536 := by
  cases c <;> decide

end ReciveCmd

/-! ## §2. Globals. -/

/-- `recive_group`.  `cmd` and `len` are `unsigned int`s read from two bytes;
`float_value` is its bit pattern; the three pointers are the blocks they
point to, `none` where they are `NULL`. -/
structure ReciveGroup where
  cmd : ℕ
  len : ℕ
  value : BitVec 32
  float_value : BitVec 32
  long_value : BitVec 32
  data : Option Block
  widget : Option Block
  text : Option Block
  deriving DecidableEq, Repr

/-- One `memset` of a block of `size` bytes: `count` bytes from its start.  What a greater count
does to the heap behind the block is not modelled: the clearing is on record, and a result about
what comes after it has to ask that it stayed inside. -/
structure Clear where
  size : ℕ
  count : ℕ
  deriving DecidableEq, Repr

/-- The globals of stone_receive_group.c, and the clearing done so far. -/
structure Receiver where
  STONER : ReciveGroup
  widget_last_len : ℕ
  widget_len : ℕ
  clears : List Clear
  deriving DecidableEq, Repr

/-- Zero-initialised globals. -/
def Receiver.init : Receiver :=
  { STONER :=
      { cmd := 0, len := 0, value := 0, float_value := 0, long_value := 0,
        data := none, widget := none, text := none }
    widget_last_len := 0
    widget_len := 0
    clears := [] }

namespace Receiver

def setCmdLen (cmd len : ℕ) (s : Receiver) : Receiver :=
  { s with STONER := { s.STONER with cmd := cmd, len := len } }

def setValue (v : BitVec 32) (s : Receiver) : Receiver :=
  { s with STONER := { s.STONER with value := v } }

def setFloat (v : BitVec 32) (s : Receiver) : Receiver :=
  { s with STONER := { s.STONER with float_value := v } }

def setData (b : Block) (s : Receiver) : Receiver :=
  { s with STONER := { s.STONER with data := some b } }

def setWidget (b : Block) (s : Receiver) : Receiver :=
  { s with STONER := { s.STONER with widget := some b } }

def setText (b : Block) (s : Receiver) : Receiver :=
  { s with STONER := { s.STONER with text := some b } }

def setWidgetLen (n : ℕ) (s : Receiver) : Receiver := { s with widget_len := n }

/-- Access to `STONER.widget` and the like. -/
def deref (p : Option Block) : Except Fault Block :=
  match p with
  | some b => .ok b
  | none => .error .nullPointer

/-- The record of `memset(p, '\0', n)` where `p` points to a block. -/
def logClear (p : Option Block) (n : ℕ) (s : Receiver) : Receiver :=
  match p with
  | some b => { s with clears := s.clears ++ [⟨b.size, n⟩] }
  | none => s

end Receiver

open Receiver

/-! ## §3. `datainit`, `widgetinit`, `textinit`. -/

/-- `malloc(len*sizeof(char)+1)` and `memset(p, '\0', len)`, with `len` an `int`. -/
def allocate (len : ℤ) : Except Fault Block :=
  if len < 0 then .error .negativeSize else .ok (Block.fresh len.toNat)

/-- `if (STONER.data != NULL) memset(STONER.widget, '\0', widget_last_len);`: the
block it clears before it frees `STONER.data` is the widget's. -/
def dataClear (s : Receiver) : Except Fault Receiver :=
  match s.STONER.data, s.STONER.widget with
  | none, _ => pure s
  | some _, some w =>
      pure ((s.logClear (some w) s.widget_last_len).setWidget (w.clear s.widget_last_len))
  | some _, none => if s.widget_last_len = 0 then pure s else .error .nullPointer

def datainit (len : ℤ) (s : Receiver) : Except Fault Receiver := do
  let s ← dataClear s
  let b ← allocate len
  pure { s.setData b with widget_last_len := len.toNat }

def widgetinit (len : ℤ) (s : Receiver) : Except Fault Receiver := do
  let s := s.logClear s.STONER.widget s.widget_last_len
  let b ← allocate len
  pure { s.setWidget b with widget_last_len := len.toNat }

def textinit (len : ℤ) (s : Receiver) : Except Fault Receiver := do
  let s := s.logClear s.STONER.text s.widget_last_len
  let b ← allocate len
  pure { s.setText b with widget_last_len := len.toNat }

/-! ## §4. The decoders. -/

/-- `HexFloat.flo` after its four bytes `HexFloat.buf` are written: the target is
little-endian. -/
def HexFloat (buf0 buf1 buf2 buf3 : BitVec 8) : BitVec 32 := buf3 ++ buf2 ++ buf1 ++ buf0

/-- What `write_hex_to_float` makes of the four bytes at `buf`. -/
def hexFloat (b0 b1 b2 b3 : UInt8) : BitVec 32 :=
  let temp_value : BitVec 32 := b0.toBitVec.setWidth 32
  let temp_value := temp_value <<< 8
  let temp_value := temp_value ||| b1.toBitVec.setWidth 32
  let temp_value := temp_value <<< 8
  let temp_value := temp_value ||| b2.toBitVec.setWidth 32
  let temp_value := temp_value <<< 8
  let temp_value := temp_value ||| b3.toBitVec.setWidth 32
  let dat0 : BitVec 16 := (temp_value &&& 0x0000FFFF).setWidth 16
  let dat1 : BitVec 16 := ((temp_value >>> 16) &&& 0x0000FFFF).setWidth 16
  HexFloat ((dat0 &&& 0xFF).setWidth 8) (((dat0 >>> 8) &&& 0xFF).setWidth 8)
    ((dat1 &&& 0xFF).setWidth 8) (((dat1 >>> 8) &&& 0xFF).setWidth 8)

/-- `write_hex_to_float(buf)` with `buf = STONE_RX_BUF + i`. -/
def write_hex_to_float (rx : List UInt8) (i : ℕ) : Except Fault (BitVec 32) := do
  let b0 ← read rx i
  let b1 ← read rx (i + 1)
  let b2 ← read rx (i + 2)
  let b3 ← read rx (i + 3)
  pure (hexFloat b0 b1 b2 b3)

/-- `STONER = widgetinit(STONER.len-k); memcpy(STONER.widget,STONE_RX_BUF+7,STONER.len-j);` -/
def copyWidget (k j : ℤ) (rx : List UInt8) (s : Receiver) : Except Fault Receiver := do
  let s ← widgetinit (s.STONER.len - k) s
  let w ← deref s.STONER.widget
  let bs ← slice rx 7 (s.STONER.len - j)
  let w ← w.store bs
  pure (s.setWidget w)

/-- `STONER.value = hi; STONER.value = STONER.value<<8 | lo;` -/
def pairValue (hi lo : UInt8) : BitVec 32 :=
  BitVec.ofNat 32 hi.toNat <<< 8 ||| BitVec.ofNat 32 lo.toNat

def readValue2 (rx : List UInt8) (i : ℕ) (s : Receiver) : Except Fault Receiver := do
  let hi ← read rx i
  let lo ← read rx (i + 1)
  pure (s.setValue (pairValue hi lo))

def case_btn_switch_ckbtn_rdbtn (rx : List UInt8) (s : Receiver) : Except Fault Receiver := do
  let s ← copyWidget 0 1 rx s
  let v ← read rx (7 + s.STONER.len - 1)
  pure (s.setValue (BitVec.ofNat 32 v.toNat))

def case_slider_porgressbar (rx : List UInt8) (s : Receiver) : Except Fault Receiver := do
  let s ← copyWidget 3 4 rx s
  let f ← write_hex_to_float rx (7 + s.STONER.len - 4)
  pure (s.setFloat f)

def isQuote (b : UInt8) : Bool := b == 0x22

def case_data_text (rx : List UInt8) (s : Receiver) : Except Fault Receiver := do
  let s ← widgetinit 40 s
  let w ← deref s.STONER.widget
  let w ← scanInto isQuote rx 8 w
  let s := (s.setWidget w).setWidgetLen w.cstr.length
  let n : ℤ := s.STONER.len - s.widget_len - 3
  let s ← textinit n s
  let t ← deref s.STONER.text
  let bs ← slice rx (10 + s.widget_len) n
  -- the copy of `n` bytes and the NUL at index `n`
  let t ← t.store (bs ++ [0])
  pure (s.setText t)

/-- Each of the four assignments shifts `long_value`, not `value`. -/
def case_4_byte_data (rx : List UInt8) (s : Receiver) : Except Fault Receiver := do
  let s ← copyWidget 3 4 rx s
  let b0 ← read rx (7 + s.STONER.len - 4)
  let s := s.setValue (BitVec.ofNat 32 b0.toNat)
  let b1 ← read rx (7 + s.STONER.len - 3)
  let s := s.setValue (s.STONER.long_value <<< 8 ||| BitVec.ofNat 32 b1.toNat)
  let b2 ← read rx (7 + s.STONER.len - 2)
  let s := s.setValue (s.STONER.long_value <<< 8 ||| BitVec.ofNat 32 b2.toNat)
  let b3 ← read rx (7 + s.STONER.len - 1)
  pure (s.setValue (s.STONER.long_value <<< 8 ||| BitVec.ofNat 32 b3.toNat))

def case_4_byte_ieee_value (rx : List UInt8) (s : Receiver) : Except Fault Receiver := do
  let s ← copyWidget 3 4 rx s
  let w ← deref s.STONER.widget
  let s := s.setWidgetLen w.cstr.length
  let f ← write_hex_to_float rx (7 + s.widget_len)
  pure (s.setFloat f)

/-- `control_image` and `control_image_u`. -/
def case_image (rx : List UInt8) (s : Receiver) : Except Fault Receiver := do
  let s ← copyWidget 0 2 rx s
  readValue2 rx (7 + s.STONER.len - 2) s

/-- `control_chart_view_value` -/
def case_chart_view_value (rx : List UInt8) (s : Receiver) : Except Fault Receiver := do
  let s ← copyWidget 5 6 rx s
  let s ← readValue2 rx (7 + s.STONER.len - 6) s
  let f ← write_hex_to_float rx (7 + s.STONER.len - 4)
  pure (s.setFloat f)

/-- `displayed_window`: `memcpy` of `len` bytes, then `STONER.widget[STONER.len] = 0`. -/
def case_displayed_window (rx : List UInt8) (s : Receiver) : Except Fault Receiver := do
  let s ← widgetinit s.STONER.len s
  let w ← deref s.STONER.widget
  let bs ← slice rx 7 s.STONER.len
  let w ← w.store (bs ++ [0])
  pure (s.setWidget w)

def isTerminatorByte (b : UInt8) : Bool := b == 0x3e || b == 0x45 || b == 0x54

/-- `sys_state` and `sys_hello`: `sscanf(STONE_RX_BUF+7, "%[^>ET]", STONER.data)`. -/
def case_sys_scan (rx : List UInt8) (s : Receiver) : Except Fault Receiver := do
  let s ← datainit (s.STONER.len + 1) s
  let d ← deref s.STONER.data
  let d ← scanInto isTerminatorByte rx 7 d
  pure (s.setData d)

/-- `sys_version`: `memcpy(STONER.data,STONE_RX_BUF+7,STONER.len)`. -/
def case_sys_version (rx : List UInt8) (s : Receiver) : Except Fault Receiver := do
  let s ← datainit (s.STONER.len + 1) s
  let d ← deref s.STONER.data
  let bs ← slice rx 7 s.STONER.len
  let d ← d.store bs
  pure (s.setData d)

/-! ## §5. `receive_parse`. -/

/-- The different bodies of the `switch` of `receive_parse`. -/
inductive Decoder where
  | sysScan | sysVersion
  | btn | slider | dataText | fourByte | ieee
  | image | chartView | window
  deriving DecidableEq, Repr

def Decoder.run : Decoder → List UInt8 → Receiver → Except Fault Receiver
  | .sysScan => case_sys_scan
  | .sysVersion => case_sys_version
  | .btn => case_btn_switch_ckbtn_rdbtn
  | .slider => case_slider_porgressbar
  | .dataText => case_data_text
  | .fourByte => case_4_byte_data
  | .ieee => case_4_byte_ieee_value
  | .image => case_image
  | .chartView => case_chart_view_value
  | .window => case_displayed_window

/-- Which body the `switch` has for a command; `control_edit_float` has none. -/
def ReciveCmd.decoder : ReciveCmd → Option Decoder
  | sys_state | sys_hello => some .sysScan
  | sys_version => some .sysVersion
  | control_button | control_button_u | control_switch | control_check_button
  | control_radio_button | control_radio_button_s => some .btn
  | control_slider | control_slider_over | control_progress_bar => some .slider
  | control_progress_bar_p => some .fourByte
  | control_label_text => some .dataText
  | control_label_value => some .ieee
  | control_edit_text => some .dataText
  | control_edit_int => some .fourByte
  | control_edit_float => none
  | control_text_selector_text => some .dataText
  | control_text_selector_value | control_text_selector_num => some .fourByte
  | control_image | control_image_u => some .image
  | control_image_value => some .ieee
  | control_spin_box_text => some .dataText
  | control_spin_box_int => some .fourByte
  | control_spin_box_float => some .ieee
  | control_combo_box_text => some .dataText
  | control_combo_box_int => some .fourByte
  | control_combo_box_float => some .ieee
  | control_combo_box_num => some .fourByte
  | control_mledit_text => some .dataText
  | control_chart_view_capacity => some .fourByte
  | control_chart_view_value => some .chartView
  | control_progress_circle_value => some .ieee
  | control_progress_circle_p => some .fourByte
  | control_digit_clock => some .dataText
  | control_hscroll_label => some .fourByte
  | displayed_window => some .window

/-- The body for the number in `STONER.cmd`, or `none` for the `default`. -/
def decoderOf (cmd : ℕ) : Option Decoder := (ReciveCmd.ofCode cmd).bind ReciveCmd.decoder

/-- `receive_parse()`: the globals after it, and whether it posts `&STONER`. -/
def receive_parse (rx : List UInt8) (s : Receiver) : Except Fault (Receiver × Bool) := do
  let c0 ← read rx 3
  let c1 ← read rx 4
  let l0 ← read rx 5
  let l1 ← read rx 6
  let s := s.setCmdLen (c0.toNat * 256 + c1.toNat) (l0.toNat * 256 + l1.toNat)
  match decoderOf s.STONER.cmd with
  | none => pure (s, false)
  | some d =>
      let s ← d.run rx s
      pure (s, true)

/-- Bytes 3 and 4 of the receive buffer. -/
def frameCmd (rx : List UInt8) : ℕ := (rx.getD 3 0).toNat * 256 + (rx.getD 4 0).toNat

/-- Bytes 5 and 6 of the receive buffer. -/
def frameLen (rx : List UInt8) : ℕ := (rx.getD 5 0).toNat * 256 + (rx.getD 6 0).toNat

/-- `receive_parse` on a buffer long enough for a header. -/
theorem receive_parse_of_length {rx : List UInt8} (h : 7 ≤ rx.length) (s : Receiver) :
    receive_parse rx s
      = match decoderOf (frameCmd rx) with
        | none => .ok (s.setCmdLen (frameCmd rx) (frameLen rx), false)
        | some d => (fun t => (t, true)) <$> d.run rx (s.setCmdLen (frameCmd rx) (frameLen rx)) := by
  have hget : ∀ i (hi : i < rx.length), CMemory.read rx i = .ok (rx.getD i 0) := by
    intro i hi
    rw [read_of_lt hi, List.getD_eq_getElem]
  unfold receive_parse
  rw [hget 3 (by omega), hget 4 (by omega), hget 5 (by omega), hget 6 (by omega)]
  show (match decoderOf (frameCmd rx) with | none => _ | some d => _) = _
  cases decoderOf (frameCmd rx) with
  | none => rfl
  | some d => exact (map_eq_pure_bind _ _).symm

/-- A command without a case is not posted. -/
theorem receive_parse_ignored {rx : List UInt8} (h : 7 ≤ rx.length)
    (hd : decoderOf (frameCmd rx) = none) (s : Receiver) :
    receive_parse rx s = .ok (s.setCmdLen (frameCmd rx) (frameLen rx), false) := by
  rw [receive_parse_of_length h, hd]

/-- A command with a case is posted, unless its decoder faults. -/
theorem receive_parse_handled {rx : List UInt8} (h : 7 ≤ rx.length) {d : Decoder}
    (hd : decoderOf (frameCmd rx) = some d) (s : Receiver) :
    receive_parse rx s
      = (fun t => (t, true)) <$> d.run rx (s.setCmdLen (frameCmd rx) (frameLen rx)) := by
  rw [receive_parse_of_length h, hd]

end StoneHMI
