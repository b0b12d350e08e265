/-
  StoneHMI.Transport.SystemCalls
  ──────────────────────────────
  **THE SYSTEM COMMANDS OF stone_transport.c.**

  The functions for the display itself and its main window, and
  `set_table_text`, which prints a whole row of a table.  `set_touch_test`
  prints `STR_TOUCH_CAL` where its name and stone.h have `STR_TOUCH_TEST`.

    §1  the functions                        §3  what they send
    §2  calls and their layouts
-/
import StoneHMI.Transport.Layout
import StoneHMI.Transport.Library

namespace StoneHMI

open CText CMemory Json TxBuf

/-! ## §1. The functions. -/

/-- The commands `set_sys` accepts. -/
def set_sys_cmd (cmd : List UInt8) : Bool :=
  cmd == str "sys_reboot" || cmd == str "sys_hello" || cmd == str "sys_version"

def set_sys (_cmd : List UInt8) (t : TxBuf) : Sent :=
  if set_sys_cmd _cmd then
    t.send (sprintf (STR_HEAD_CMD2 ++ str "\"%s\",\"type\":\"system\"" ++ STR_END) [.s _cmd])
  else t.inputError

def set_sleep (_tf : List UInt8) (t : TxBuf) : Sent :=
  if isTrueFalse _tf then
    t.send (sprintf (STR_HEAD_CMD2
      ++ str "\"set_sleep\",\"type\":\"system\",\"sleep\":%s" ++ STR_END) [.s _tf])
  else t.inputError

def set_buzzer (_time : List UInt8) (t : TxBuf) : Sent :=
  t.send (sprintf (STR_HEAD_CMD2
    ++ str "\"set_buzzer\",\"type\":\"system\",\"time\":%s" ++ STR_END) [.s _time])

def set_brightness (_value : List UInt8) (t : TxBuf) : Sent :=
  t.send (sprintf (STR_HEAD_CMD2
    ++ str "\"set_brightness\",\"type\":\"system\",\"brightness\":%s" ++ STR_END) [.s _value])

def set_touch_cal (t : TxBuf) : Sent :=
  t.send (sprintf (STR_HEAD_CMD2 ++ str "\"set_touch_cal\",\"type\":\"system\"" ++ STR_END) [])

def clear_touch_cal (t : TxBuf) : Sent :=
  t.send (sprintf (STR_HEAD_CMD2 ++ str "\"clear_touch_cal\",\"type\":\"system\"" ++ STR_END) [])

/-- The text is the one of `set_touch_cal`. -/
def set_touch_test (t : TxBuf) : Sent :=
  t.send (sprintf (STR_HEAD_CMD2 ++ str "\"set_touch_cal\",\"type\":\"system\"" ++ STR_END) [])

def back_home (t : TxBuf) : Sent :=
  t.send (sprintf (STR_HEAD_CMD2 ++ str "\"back_home\",\"type\":\"window\"" ++ STR_END) [])

def set_table_text (_name text : List UInt8) (number : UInt16) (t : TxBuf) : Sent :=
  t.send (sprintf (STR_HEAD_CMD2
    ++ str ("\"set_table_text\",\"type\":\"table_view\",\"widget\":\"%s\"," ++
      "\"text\":%s,\"mode\":\"row\",\"row\":%d") ++ STR_END) [.s _name, .s text, .d number.toNat])

/-! ## §2. Calls and their layouts. -/

/-- A call of one of the functions without a widget. -/
inductive SystemCall where
  | set_sys (cmd : List UInt8)
  | set_sleep (tf : List UInt8)
  | set_buzzer (time : List UInt8)
  | set_brightness (value : List UInt8)
  | set_touch_cal
  | clear_touch_cal
  | set_touch_test
  | back_home
  deriving DecidableEq, Repr

namespace SystemCall

/-- What the call does. -/
def call : SystemCall → TxBuf → Sent
  | set_sys cmd => StoneHMI.set_sys cmd
  | set_sleep tf => StoneHMI.set_sleep tf
  | set_buzzer time => StoneHMI.set_buzzer time
  | set_brightness value => StoneHMI.set_brightness value
  | set_touch_cal => StoneHMI.set_touch_cal
  | clear_touch_cal => StoneHMI.clear_touch_cal
  | set_touch_test => StoneHMI.set_touch_test
  | back_home => StoneHMI.back_home

/-- The arguments that the function checks itself. -/
def check : SystemCall → Bool
  | set_sys cmd => set_sys_cmd cmd
  | set_sleep tf => isTrueFalse tf
  | _ => true

/-- The code of `set_sys` is its argument. -/
def sysWord (cmd : List UInt8) : Word :=
  if cmd = str "sys_reboot" then .of "sys_reboot"
  else if cmd = str "sys_hello" then .of "sys_hello" else .of "sys_version"

theorem literal_type : Literal (str "type") := by decide

theorem literal_window : Literal (str "window") := by decide

/-- A `"type"` of the function's own, and one member for each argument. -/
def ownType (code type : Word) (slots : List (Word × Slot))
    (nodup : (str "cmd_code" :: str "type" :: slots.map (·.1.bytes)).Nodup := by decide) :
    Layout where
  code := code
  own := [(.of "type" literal_type, type)]
  slots := slots
  nodup := nodup

/-- The frame each function is for. -/
def layout : SystemCall → Layout
  | set_sys cmd => ownType (sysWord cmd) (.of "system") []
  | set_sleep _ => ownType (.of "set_sleep") (.of "system") [(.of "sleep", .raw)]
  | set_buzzer _ => ownType (.of "set_buzzer") (.of "system") [(.of "time", .raw)]
  | set_brightness _ => ownType (.of "set_brightness") (.of "system") [(.of "brightness", .raw)]
  | set_touch_cal => ownType (.of "set_touch_cal") (.of "system") []
  | clear_touch_cal => ownType (.of "clear_touch_cal") (.of "system") []
  | set_touch_test => ownType (.of "set_touch_test") (.of "system") []
  | back_home => ownType (.of "back_home") (.of "window" literal_window) []

/-- The arguments that stand in members of their own. -/
def args : SystemCall → List Arg
  | set_sleep x | set_buzzer x | set_brightness x => [.s x]
  | _ => []

/-- Arguments that pass the function's own check, and are strings of the kind their
place in the frame is for. -/
def Accepted (c : SystemCall) : Prop :=
  c.check = true ∧ List.Forall₂ (fun s a => s.2.Accepts a) c.layout.slots c.args

/-- The frame of the layout. -/
def frame (c : SystemCall) : List UInt8 := c.layout.frame c.args

/-! ## §3. What they send. -/

theorem keeps {c : SystemCall} (h : c.Accepted) :
    List.Forall₂ (fun s a => s.2.Accepts a ∧ s.2.Keeps a) c.layout.slots c.args := by
  refine keeps_of_ne_format h.2 ?_
  cases c <;> dsimp only [layout, ownType] <;> decide

/-- **Each function sends its frame**, but for `set_touch_test`. -/
theorem prints_frame {c : SystemCall} (h : c.Accepted) (hc : c ≠ set_touch_test) :
    Prints c.call c.frame := by
  obtain ⟨hcheck, hargs⟩ := h
  cases c <;> dsimp only [frame, layout, args, call] at hargs ⊢
  case set_sys cmd =>
    -- the conversion stands where the code does
    have hprint : sprintf (STR_HEAD_CMD2 ++ str "\"%s\",\"type\":\"system\"" ++ STR_END) [.s cmd]
        = (set_sys cmd).frame := by
      have hcmd : (cmd = str "sys_reboot" ∨ cmd = str "sys_hello") ∨ cmd = str "sys_version" := by
        simpa [check, set_sys_cmd] using hcheck
      rcases hcmd with (rfl | rfl) | rfl <;> decide +kernel
    have hcall : StoneHMI.set_sys cmd = TxBuf.send (set_sys cmd).frame := by
      funext t
      rw [← hprint]
      exact if_pos hcheck
    rw [hcall]
    exact prints_send _
  case set_sleep tf =>
    exact prints_layout hargs (by decide) (funext fun t => if_pos hcheck) (by decide +kernel)
  case set_buzzer | set_brightness | set_touch_cal | clear_touch_cal | back_home =>
    exact prints_layout hargs (by decide) rfl (by decide +kernel)
  case set_touch_test => exact absurd rfl hc

/-- `set_touch_test` sends what `set_touch_cal` does. -/
theorem prints_set_touch_test : Prints StoneHMI.set_touch_test set_touch_cal.frame := by
  have haccept : set_touch_cal.Accepted := ⟨rfl, .nil⟩
  exact prints_frame (c := set_touch_cal) haccept nofun

end SystemCall

/-- The frame of `set_table_text`. -/
def tableFrame (name text : List UInt8) (number : UInt16) : List UInt8 :=
  commandFrame "set_table_text"
    [field "type" (str "table_view"), field "widget" name, quoted (str "text") ++ 0x3a :: text,
      field "mode" (str "row"), quoted (str "row") ++ 0x3a :: decimal number.toNat]

theorem prints_set_table_text (name text : List UInt8) (number : UInt16) :
    Prints (set_table_text name text number) (tableFrame name text number) := by
  have hformat : STR_HEAD_CMD2
      ++ str ("\"set_table_text\",\"type\":\"table_view\",\"widget\":\"%s\"," ++
        "\"text\":%s,\"mode\":\"row\",\"row\":%d") ++ STR_END
      = (STR_HEAD_CMD2 ++ quoted (str "set_table_text") ++ 0x2c :: field "type" (str "table_view")
          ++ 0x2c :: (quoted (str "widget") ++ [0x3a, 0x22])) ++ 0x25 :: 0x73 ::
        (([0x22, 0x2c] ++ quoted (str "text") ++ [0x3a]) ++ 0x25 :: 0x73 ::
          ((0x2c :: field "mode" (str "row") ++ 0x2c :: (quoted (str "row") ++ [0x3a]))
            ++ 0x25 :: 0x64 :: STR_END)) := by
    decide +kernel
  have hend : sprintf STR_END [] = STR_END := by decide
  have hprint : sprintf (STR_HEAD_CMD2
      ++ str ("\"set_table_text\",\"type\":\"table_view\",\"widget\":\"%s\"," ++
        "\"text\":%s,\"mode\":\"row\",\"row\":%d") ++ STR_END) [.s name, .s text, .d number.toNat]
      = tableFrame name text number := by
    rw [hformat, sprintf_append _ _ _ (by decide +kernel), sprintf_s,
      sprintf_append _ _ _ (by decide), sprintf_s, sprintf_append _ _ _ (by decide), sprintf_d, hend]
    show _ = STR_HEAD_CMD2 ++ quoted (str "set_table_text")
      ++ (0x2c :: field "type" (str "table_view")
        ++ (0x2c :: (quoted (str "widget") ++ 0x3a :: 0x22 :: (name ++ [0x22]))
        ++ (0x2c :: (quoted (str "text") ++ 0x3a :: text) ++ (0x2c :: field "mode" (str "row")
        ++ (0x2c :: (quoted (str "row") ++ 0x3a :: decimal number.toNat) ++ []))))) ++ STR_END
    simp only [List.append_assoc, List.cons_append, List.nil_append, List.append_nil]
  show Prints (TxBuf.send (sprintf _ _)) _
  rw [hprint]
  exact prints_send _

end StoneHMI
