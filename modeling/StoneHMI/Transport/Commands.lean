/-
  StoneHMI.Transport.Commands
  ───────────────────────────
  **THE DISPLAY COMMANDS THE FIRMWARE SENDS — stone_transport.c.**

  Each command function prints one frame into `STONE_TX_BUF` with a single
  `sprintf` and calls `tx_create`.  Here a command is its function and its
  arguments, `Command.frame` is the text that `sprintf` prints, and `none`
  stands for the functions' `"input error!"`, which prints and sends nothing.
  A `%s` copies a C string, so arguments are lists of bytes before the NUL.
-/
import StoneHMI.Lib.CText

namespace StoneHMI

open CText

/-! ## §1. The pieces of a frame. -/

/-- `STR_HEAD_CMD2` -/
def STR_HEAD_CMD2 : List UInt8 := str "ST<\x7b\"cmd_code\":"

/-- `STR_END` -/
def STR_END : List UInt8 := str "\x7d>ET"

/-- `"\"%s\""` -/
def quoted (s : List UInt8) : List UInt8 := 0x22 :: (s ++ [0x22])

/-- `"\"" name "\":"` and a quoted value. -/
def field (name : String) (value : List UInt8) : List UInt8 :=
  quoted (str name) ++ 0x3a :: quoted value

/-- The frame of a command: its code, then its further fields. -/
def commandFrame (code : String) (fields : List (List UInt8)) : List UInt8 :=
  STR_HEAD_CMD2 ++ quoted (str code) ++ (fields.map fun f => 0x2c :: f).flatten ++ STR_END

/-! ## §2. The commands. -/

/-- A call of a command function. -/
inductive Command where
  | set_text (type name text : List UInt8) (multi : Bool)
  | get_text (type name : List UInt8)
  | get_value (type name : List UInt8)
  | set_date (name date : List UInt8)
  | get_date (name : List UInt8)
  | get_displayed_window
  | back_win
  deriving DecidableEq, Repr

/-- The types `set_text` accepts. -/
def set_text_type (type : List UInt8) : Bool :=
  type == str "label" || type == str "edit" || type == str "text_selector"
    || type == str "list_item"

/-- The types `get_text` accepts. -/
def get_text_type (type : List UInt8) : Bool :=
  type == str "label" || type == str "edit" || type == str "text_selector"

/-- `set_get_value_type` -/
def set_get_value_type (type : List UInt8) : Bool :=
  type == str "label" || type == str "edit" || type == str "progress_bar"
    || type == str "slider" || type == str "image_value" || type == str "text_selector"
    || type == str "switch" || type == str "check_button" || type == str "radio_button"

/-- What the function prints into `STONE_TX_BUF`, if it accepts its arguments. -/
def Command.frame : Command → Option (List UInt8)
  | set_text type name text multi =>
      if set_text_type type then
        -- `multi` leaves the text as it is, a list with its own brackets
        some (commandFrame "set_text"
          [field "type" type, field "widget" name,
            quoted (str "text") ++ 0x3a :: (if multi then text else quoted text)])
      else none
  | get_text type name =>
      if get_text_type type then
        some (commandFrame "get_text" [field "type" type, field "widget" name])
      else none
  | get_value type name =>
      if set_get_value_type type then
        some (commandFrame "get_value" [field "type" type, field "widget" name])
      else none
  | set_date name date =>
      some (commandFrame "set_date"
        [field "type" (str "digit_clock"), field "widget" name, field "date" date])
  | get_date name =>
      some (commandFrame "get_date" [field "type" (str "digit_clock"), field "widget" name])
  | get_displayed_window =>
      some (commandFrame "get_displayed_window" [field "type" (str "window")])
  | back_win => some (commandFrame "back_win" [field "type" (str "window")])

example : Command.frame .back_win
    = some (str "ST<\x7b\"cmd_code\":\"back_win\",\"type\":\"window\"\x7d>ET") := by
  decide

example : Command.frame (.set_text (str "label") (str "FREQ2") (str "3") false)
    = some (str ("ST<\x7b\"cmd_code\":\"set_text\",\"type\":\"label\",\"widget\":\"FREQ2\"," ++
        "\"text\":\"3\"\x7d>ET")) := by
  decide

end StoneHMI
