/-
  StoneHMI.Transport.Library
  ──────────────────────────
  **THE WIDGET COMMANDS OF stone_transport.c.**

  Every function as the file has it: one format for `sprintf`, or pieces that
  are printed or copied one behind the other.  The `STR_` macros are written
  out.  The functions with a `va_list` take what `va_arg` finds as an
  argument; `Call.call` gives them 0 where the macros and the examples pass
  nothing.
-/
import StoneHMI.Transport.Commands
import StoneHMI.Transport.Print

namespace StoneHMI

open CText CMemory TxBuf

/-! ## §1. Checks. -/

/-- `strcmp(_tf,"true")==0 || strcmp(_tf,"false")==0` -/
def isTrueFalse (_tf : List UInt8) : Bool := _tf == str "true" || _tf == str "false"

/-- The types `set_max` accepts. -/
def set_max_type (type : List UInt8) : Bool :=
  type == str "progress_bar" || type == str "slider" || type == str "image_value"

/-- The types `set_min` accepts. -/
def set_min_type (type : List UInt8) : Bool := type == str "slider" || type == str "image_value"

/-- The types `set_format` accepts. -/
def set_format_type (type : List UInt8) : Bool :=
  type == str "image_animation" || type == str "image_value" || type == str "digit_clock"

/-- The types `set_image` accepts. -/
def set_image_type (type : List UInt8) : Bool :=
  type == str "image_animation" || type == str "image" || type == str "image_value"
    || type == str "gauge" || type == str "guage_pointer"

/-- The types `set_draw_type` accepts. -/
def set_draw_type_type (type : List UInt8) : Bool := type == str "image" || type == str "gauge"

/-! ## §2. The functions. -/

/-- `set_enable`, and with `end_ = 1` the macro `set_visible`. -/
def set_enable (_name _tf : List UInt8) (end_ : ℕ) (t : TxBuf) : Sent :=
  if isTrueFalse _tf then
    sendPieces STR_HEAD_CMD2
      [str "set_", if end_ = 1 then str "visible" else str "enable", str "\",\"", str "type",
        str "\":\"", str "system", str "\",\"", str "sleep", str "\":", sprintf (str "%s") [.s _tf],
        STR_END] t
  else t.inputError

def set_coordinate (_name _x _y : List UInt8) (t : TxBuf) : Sent :=
  t.send (sprintf (STR_HEAD_CMD2
    ++ str "\"set_xy\",\"type\":\"widget\",\"widget\":\"%s\",\"x\":%s,\"y\":%s" ++ STR_END)
    [.s _name, .s _x, .s _y])

def set_state (_name _state : List UInt8) (t : TxBuf) : Sent :=
  t.send (sprintf (STR_HEAD_CMD2
    ++ str "\"set_state\",\"type\":\"widget\",\"widget\":\"%s\",\"state\":\"%s\"" ++ STR_END)
    [.s _name, .s _state])

def set_bg_image (_name _image : List UInt8) (t : TxBuf) : Sent :=
  sendPieces (STR_HEAD_CMD2 ++ str "\"set_bg_image\",\"type\":\"widget\",\"widget\":")
    [_name, str "\",bg_image\":\"", _image, str "\"" ++ STR_END] t

def set_color (_name _object _color : List UInt8) (t : TxBuf) : Sent :=
  sendPieces (STR_HEAD_CMD2 ++ str "\"set_color\",\"type\":\"widget\",\"widget\":")
    [_name, str "\",\"color_object\":\"", _object, str "\",\"color\":", _color, STR_END] t

/-- `open_win`, and with `end_ = 1` the macro `close_win`, with 2 `back_win_to`. -/
def open_win (_name : List UInt8) (end_ : ℕ) (t : TxBuf) : Sent :=
  sendPieces STR_HEAD_CMD2
    [if end_ = 1 then str "close_win" else if end_ = 2 then str "back_win_to" else str "open_win",
      str "\",\"", str "type", str "\":\"", str "window", str "\",\"", str "widget", str "\":\"",
      sprintf (str "%s\"") [.s _name], STR_END] t

def set_value (_type _name _value _format : List UInt8) (t : TxBuf) : Sent :=
  if set_get_value_type _type then
    sendTexts (sprintf (STR_HEAD_CMD2
      ++ str "\"set_value\",\"type\":\"%s\",\"widget\":\"%s\",\"value\":%s")
        [.s _type, .s _name, .s _value])
      ((if _format.head? = some 0x25 then [str ",\"format\":\"", sprintf (str "%s\"") [.s _format]]
        else []) ++ [STR_END]) t
  else t.inputError

def set_max (_type _name value : List UInt8) (t : TxBuf) : Sent :=
  if set_max_type _type then
    t.send (sprintf (STR_HEAD_CMD2
      ++ str "\"set_max\",\"type\":\"%s\",\"widget\":\"%s\",\"max\",%s" ++ STR_END)
      [.s _type, .s _name, .s value])
  else t.inputError

def show_text (_name _tf : List UInt8) (t : TxBuf) : Sent :=
  if isTrueFalse _tf then
    t.send (sprintf (STR_HEAD_CMD2
      ++ str "\"set_show_text\",\"type\":\"progress_bar\",\"widget\":\"%s\",\"show_text\":%s"
      ++ STR_END) [.s _name, .s _tf])
  else t.inputError

def get_percent (_name : List UInt8) (t : TxBuf) : Sent :=
  t.send (sprintf (STR_HEAD_CMD2
    ++ str "\"get_percent\",\"type\":\"progress_bar\",\"widget\":\"%s\"" ++ STR_END) [.s _name])

def set_min (_type _name value : List UInt8) (t : TxBuf) : Sent :=
  if set_min_type _type then
    t.send (sprintf (STR_HEAD_CMD2
      ++ str "\"set_min\",\"type\":\"%s\",\"widget\":\"%s\",\"max\":%s" ++ STR_END)
      [.s _type, .s _name, .s value])
  else t.inputError

def set_step (_name value : List UInt8) (t : TxBuf) : Sent :=
  t.send (sprintf (STR_HEAD_CMD2
    ++ str "\"set_step\",\"type\":\"slider\",\"widget\":\"%s\",\"step\":%s" ++ STR_END)
    [.s _name, .s value])

/-- `set_play`, and with `end_ = 1` the macro `set_pause`, with 2 `set_stop`.  Only the
first `sprintf` counts into `TX_CNT`; the others print over each other behind it. -/
def set_play (_name : List UInt8) (end_ : ℕ) (t : TxBuf) : Sent := do
  let t ← t.start (STR_HEAD_CMD2 ++ str "\"set_")
  let t ← (if end_ = 1 then t.poke (str "pause") else pure t)
  let t ← (if end_ = 2 then t.poke (str "stop") else t.poke (str "play"))
  let t ← t.poke (sprintf (str "\",\"type\":\"image_animation\",\"widget\":\"%s\"" ++ STR_END)
    [.s _name])
  t.tx_create

def set_format (_type _name _format : List UInt8) (t : TxBuf) : Sent :=
  if set_format_type _type then
    t.send (sprintf (STR_HEAD_CMD2
      ++ str "\"set_format\",\"type\":\"%s\",\"widget\":\"%s\",\"format\":\"%s\"" ++ STR_END)
      [.s _type, .s _name, .s _format])
  else t.inputError

def set_image (_type _name _image : List UInt8) (t : TxBuf) : Sent :=
  if set_image_type _type then
    t.send (sprintf (STR_HEAD_CMD2
      ++ str "\"set_image\",\"type\":\"%s\",\"widget\":\"%s\",\"image\":\"%s\"" ++ STR_END)
      [.s _type, .s _name, .s _image])
  else t.inputError

def set_interval (_name _interval : List UInt8) (t : TxBuf) : Sent :=
  t.send (sprintf (STR_HEAD_CMD2
    ++ str "\"set_interval\",\"type\":\"image_animation\",\"widget\":\"%s\",\"interval\":%s"
    ++ STR_END) [.s _name, .s _interval])

def set_loop (_name _tf : List UInt8) (t : TxBuf) : Sent :=
  if isTrueFalse _tf then
    t.send (sprintf (STR_HEAD_CMD2
      ++ str "\"set_loop\",\"type\":\"image_animation\",\"widget\":\"%s\",\"loop\":%s" ++ STR_END)
      [.s _name, .s _tf])
  else t.inputError

def set_range (_name start end_ : List UInt8) (t : TxBuf) : Sent :=
  t.send (sprintf (STR_HEAD_CMD2
    ++ str ("\"set_range\",\"type\":\"image_animation\",\"widget\":\"%s\"," ++
      "\"start_index\":%s,\"end_index\":%s") ++ STR_END) [.s _name, .s start, .s end_])

def set_draw_type (_type _name draw_type : List UInt8) (t : TxBuf) : Sent :=
  if set_draw_type_type _type then
    t.send (sprintf (STR_HEAD_CMD2
      ++ str "\"set_draw_type\",\"type\":\"%s\",\"widget\":\"%s\",\"draw_type\":%s" ++ STR_END)
      [.s _type, .s _name, .s draw_type])
  else t.inputError

def set_scale (_name _x _y : List UInt8) (t : TxBuf) : Sent :=
  t.send (sprintf (STR_HEAD_CMD2
    ++ str "\"set_scale\",\"type\":\"image\",\"widget\":\"%s\",\"scale_x\":%s,\"scale_y\":%s"
    ++ STR_END) [.s _name, .s _x, .s _y])

def set_rotation (_name _rotation : List UInt8) (t : TxBuf) : Sent :=
  t.send (sprintf (STR_HEAD_CMD2
    ++ str "\"set_rotation\",\"type\":\"image\",\"widget\",\"%s\",\"rotation\":%s" ++ STR_END)
    [.s _name, .s _rotation])

def set_selected (_name _selected : List UInt8) (t : TxBuf) : Sent :=
  t.send (sprintf (STR_HEAD_CMD2
    ++ str "\"set_selected\",\"type\":\"image\",\"widget\",\"%s\",\"selected_index\":%s" ++ STR_END)
    [.s _name, .s _selected])

def get_selected (_name : List UInt8) (t : TxBuf) : Sent :=
  t.send (sprintf (STR_HEAD_CMD2
    ++ str "\"get_selected\",\"type\":\"image\",\"widget\":\"%s\"" ++ STR_END) [.s _name])

def get_checked (_name : List UInt8) (t : TxBuf) : Sent :=
  t.send (sprintf (STR_HEAD_CMD2
    ++ str "\"get_checked\",\"type\":\"check_button\",\"widget\":\"%s\"" ++ STR_END) [.s _name])

def set_angle (_name _angle : List UInt8) (t : TxBuf) : Sent :=
  t.send (sprintf (STR_HEAD_CMD2
    ++ str "\"set_angle\",\"type\":\"gauge_pointer\",\"widget\":\"%s\",\"angle\":\"%s\"" ++ STR_END)
    [.s _name, .s _angle])

def set_row_height (_name : List UInt8) (height : UInt16) (t : TxBuf) : Sent :=
  t.send (sprintf (STR_HEAD_CMD2
    ++ str "\"set_row_height\",\"type\":\"table_view\",\"widget\":\"%s\",\"height\":%d" ++ STR_END)
    [.s _name, .d height.toNat])

def set_row_number (_name : List UInt8) (number : UInt16) (t : TxBuf) : Sent :=
  t.send (sprintf (STR_HEAD_CMD2
    ++ str "\"set_row_number\",\"type\":\"table_view\",\"widget\":\"%s\",\"num\":%d" ++ STR_END)
    [.s _name, .d number.toNat])

/-! ## §3. Calls. -/

/-- A call of one of the functions or macros. -/
inductive Call where
  | set_enable (name tf : List UInt8)
  | set_visible (name tf : List UInt8)
  | set_coordinate (name x y : List UInt8)
  | set_state (name state : List UInt8)
  | set_bg_image (name image : List UInt8)
  | set_color (name object color : List UInt8)
  | open_win (name : List UInt8)
  | close_win (name : List UInt8)
  | back_win_to (name : List UInt8)
  | set_value (type name value format : List UInt8)
  | set_max (type name value : List UInt8)
  | set_min (type name value : List UInt8)
  | show_text (name tf : List UInt8)
  | get_percent (name : List UInt8)
  | set_step (name value : List UInt8)
  | set_play (name : List UInt8)
  | set_pause (name : List UInt8)
  | set_stop (name : List UInt8)
  | set_format (type name format : List UInt8)
  | set_image (type name image : List UInt8)
  | set_interval (name interval : List UInt8)
  | set_loop (name tf : List UInt8)
  | set_range (name start stop : List UInt8)
  | set_draw_type (type name draw_type : List UInt8)
  | set_scale (name x y : List UInt8)
  | set_rotation (name rotation : List UInt8)
  | set_selected (name selected : List UInt8)
  | get_selected (name : List UInt8)
  | get_checked (name : List UInt8)
  | set_angle (name angle : List UInt8)
  | set_row_height (name : List UInt8) (height : UInt16)
  | set_row_number (name : List UInt8) (number : UInt16)
  deriving DecidableEq, Repr

/-- What the call does. -/
def Call.call : Call → TxBuf → Sent
  | set_enable name tf => StoneHMI.set_enable name tf 0
  | set_visible name tf => StoneHMI.set_enable name tf 1
  | set_coordinate name x y => StoneHMI.set_coordinate name x y
  | set_state name state => StoneHMI.set_state name state
  | set_bg_image name image => StoneHMI.set_bg_image name image
  | set_color name object color => StoneHMI.set_color name object color
  | open_win name => StoneHMI.open_win name 0
  | close_win name => StoneHMI.open_win name 1
  | back_win_to name => StoneHMI.open_win name 2
  | set_value type name value format => StoneHMI.set_value type name value format
  | set_max type name value => StoneHMI.set_max type name value
  | set_min type name value => StoneHMI.set_min type name value
  | show_text name tf => StoneHMI.show_text name tf
  | get_percent name => StoneHMI.get_percent name
  | set_step name value => StoneHMI.set_step name value
  | set_play name => StoneHMI.set_play name 0
  | set_pause name => StoneHMI.set_play name 1
  | set_stop name => StoneHMI.set_play name 2
  | set_format type name format => StoneHMI.set_format type name format
  | set_image type name image => StoneHMI.set_image type name image
  | set_interval name interval => StoneHMI.set_interval name interval
  | set_loop name tf => StoneHMI.set_loop name tf
  | set_range name start stop => StoneHMI.set_range name start stop
  | set_draw_type type name draw_type => StoneHMI.set_draw_type type name draw_type
  | set_scale name x y => StoneHMI.set_scale name x y
  | set_rotation name rotation => StoneHMI.set_rotation name rotation
  | set_selected name selected => StoneHMI.set_selected name selected
  | get_selected name => StoneHMI.get_selected name
  | get_checked name => StoneHMI.get_checked name
  | set_angle name angle => StoneHMI.set_angle name angle
  | set_row_height name height => StoneHMI.set_row_height name height
  | set_row_number name number => StoneHMI.set_row_number name number

/-- The arguments that the function checks itself. -/
def Call.check : Call → Bool
  | set_enable _ tf | set_visible _ tf | show_text _ tf | set_loop _ tf => isTrueFalse tf
  | set_value type _ _ _ => set_get_value_type type
  | set_max type _ _ => set_max_type type
  | set_min type _ _ => set_min_type type
  | set_format type _ _ => set_format_type type
  | set_image type _ _ => set_image_type type
  | set_draw_type type _ _ => set_draw_type_type type
  | _ => true

end StoneHMI
