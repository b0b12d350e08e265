/-
  StoneHMI.Transport.Encoding
  ───────────────────────────
  **WHICH WIDGET COMMANDS ENCODE THEIR ARGUMENTS.**

  `Call.layout` is the frame that each function of stone_transport.c is for:
  its line comments, and what its siblings send.  `encodes_iff` says which
  functions send it, so that their arguments can be read back.

    §1  the layouts                          §3  calls that encode their arguments
    §2  what the functions send              §4  functions that do not send their frame
-/
import StoneHMI.Transport.Layout
import StoneHMI.Transport.Library

namespace StoneHMI

open CText CMemory Json TxBuf

/-! ## §1. The layouts. -/

/-- `"type":"…","widget":"%s"` and one member for each further argument. -/
def Layout.typed (code type : Word) (slots : List (Word × Slot))
    (nodup : (str "cmd_code" :: str "type" :: str "widget" :: slots.map (·.1.bytes)).Nodup
      := by decide) : Layout where
  code := code
  own := [(.of "type", type)]
  slots := (.of "widget", .quoted) :: slots
  nodup := nodup

/-- `"type":"%s","widget":"%s"` and one member for each further argument. -/
def Layout.untyped (code : Word) (slots : List (Word × Slot))
    (nodup : (str "cmd_code" :: str "type" :: str "widget" :: slots.map (·.1.bytes)).Nodup
      := by decide) : Layout where
  code := code
  own := []
  slots := (.of "type", .quoted) :: (.of "widget", .quoted) :: slots
  nodup := nodup

/-- The layout of `set_value`. -/
def valueLayout : Layout :=
  .untyped (.of "set_value") [(.of "value", .raw), (.of "format", .format)]

/-- The frame each function is for. -/
def Call.layout : Call → Layout
  | set_enable _ _ => .typed (.of "set_enable") (.of "widget") [(.of "enable", .raw)]
  | set_visible _ _ => .typed (.of "set_visible") (.of "widget") [(.of "visible", .raw)]
  | set_coordinate _ _ _ =>
      .typed (.of "set_xy") (.of "widget") [(.of "x", .raw), (.of "y", .raw)]
  | set_state _ _ => .typed (.of "set_state") (.of "widget") [(.of "state", .quoted)]
  | set_bg_image _ _ => .typed (.of "set_bg_image") (.of "widget") [(.of "bg_image", .quoted)]
  | set_color _ _ _ =>
      .typed (.of "set_color") (.of "widget") [(.of "color_object", .quoted), (.of "color", .raw)]
  | open_win _ => .typed (.of "open_win") (.of "window") []
  | close_win _ => .typed (.of "close_win") (.of "window") []
  | back_win_to _ => .typed (.of "back_win_to") (.of "window") []
  | set_value _ _ _ _ => valueLayout
  | set_max _ _ _ => .untyped (.of "set_max") [(.of "max", .raw)]
  -- `set_min` has its value under the key `max`
  | set_min _ _ _ => .untyped (.of "set_min") [(.of "max", .raw)]
  | show_text _ _ => .typed (.of "set_show_text") (.of "progress_bar") [(.of "show_text", .raw)]
  | get_percent _ => .typed (.of "get_percent") (.of "progress_bar") []
  | set_step _ _ => .typed (.of "set_step") (.of "slider") [(.of "step", .raw)]
  | set_play _ => .typed (.of "set_play") (.of "image_animation") []
  | set_pause _ => .typed (.of "set_pause") (.of "image_animation") []
  | set_stop _ => .typed (.of "set_stop") (.of "image_animation") []
  | set_format _ _ _ => .untyped (.of "set_format") [(.of "format", .quoted)]
  | set_image _ _ _ => .untyped (.of "set_image") [(.of "image", .quoted)]
  | set_interval _ _ =>
      .typed (.of "set_interval") (.of "image_animation") [(.of "interval", .raw)]
  | set_loop _ _ => .typed (.of "set_loop") (.of "image_animation") [(.of "loop", .raw)]
  | set_range _ _ _ =>
      .typed (.of "set_range") (.of "image_animation")
        [(.of "start_index", .raw), (.of "end_index", .raw)]
  | set_draw_type _ _ _ => .untyped (.of "set_draw_type") [(.of "draw_type", .raw)]
  | set_scale _ _ _ =>
      .typed (.of "set_scale") (.of "image") [(.of "scale_x", .raw), (.of "scale_y", .raw)]
  | set_rotation _ _ => .typed (.of "set_rotation") (.of "image") [(.of "rotation", .raw)]
  | set_selected _ _ => .typed (.of "set_selected") (.of "image") [(.of "selected_index", .raw)]
  | get_selected _ => .typed (.of "get_selected") (.of "image") []
  | get_checked _ => .typed (.of "get_checked") (.of "check_button") []
  | set_angle _ _ => .typed (.of "set_angle") (.of "gauge_pointer") [(.of "angle", .quoted)]
  | set_row_height _ _ => .typed (.of "set_row_height") (.of "table_view") [(.of "height", .number)]
  | set_row_number _ _ => .typed (.of "set_row_number") (.of "table_view") [(.of "num", .number)]

/-- The arguments of a call. -/
def Call.args : Call → List Arg
  | open_win name | close_win name | back_win_to name | get_percent name | set_play name
  | set_pause name | set_stop name | get_selected name | get_checked name => [.s name]
  | set_enable name x | set_visible name x | set_state name x | set_bg_image name x
  | show_text name x | set_step name x | set_interval name x | set_loop name x
  | set_rotation name x | set_selected name x | set_angle name x => [.s name, .s x]
  | set_max type name x | set_min type name x | set_format type name x | set_image type name x
  | set_draw_type type name x => [.s type, .s name, .s x]
  | set_coordinate name x y | set_color name x y | set_range name x y | set_scale name x y =>
      [.s name, .s x, .s y]
  | set_value type name value format => [.s type, .s name, .s value, .s format]
  | set_row_height name n | set_row_number name n => [.s name, .d n.toNat]

/-- Arguments that pass the function's own check, and are strings of the kind their
place in the frame is for. -/
def Call.Accepted (c : Call) : Prop :=
  c.check = true ∧ List.Forall₂ (fun s a => s.2.Accepts a) c.layout.slots c.args

/-- The functions that send the frame they are for. -/
def Call.Sound : Call → Prop
  | set_enable _ _ | set_visible _ _ | set_bg_image _ _ | set_max _ _ _ | set_play _ | set_pause _
  | set_stop _ | set_rotation _ _ | set_selected _ _ => False
  -- a format that does not start with `'%'` is not sent
  | set_value _ _ _ format => format = [] ∨ format.head? = some 0x25
  | _ => True

/-- The frame of the layout. -/
def Call.frame (c : Call) : List UInt8 := c.layout.frame c.args

/-! ## §2. What the functions send. -/

/-- `open_win` and its macros print their frame piece by piece. -/
theorem prints_open_win (code : Word) (name : List UInt8) {f : TxBuf → Sent}
    (hf : f = sendPieces STR_HEAD_CMD2
      [code.bytes, str "\",\"", str "type", str "\":\"", str "window", str "\",\"", str "widget",
        str "\":\"", sprintf (str "%s\"") [.s name], STR_END]) :
    Prints f (Layout.frame (.typed code (.of "window") []) [.s name]) := by
  have hname : sprintf (str "%s\"") [.s name] = name ++ [0x22] := sprintf_s _ name _
  have hframe : Layout.frame (.typed code (.of "window") []) [.s name]
      = STR_HEAD_CMD2 ++ 0x22 :: [code.bytes, str "\",\"", str "type", str "\":\"", str "window",
        str "\",\"", str "widget", str "\":\"", sprintf (str "%s\"") [.s name], STR_END].flatten := by
    rw [hname]
    show STR_HEAD_CMD2 ++ (0x22 :: (code.bytes ++ [0x22])) ++ (0x2c :: field "type" (str "window")
      ++ (0x2c :: (quote (str "widget") ++ 0x3a :: 0x22 :: (name ++ [0x22])) ++ [])) ++ STR_END = _
    simp only [List.append_assoc, List.cons_append, List.nil_append, List.flatten_cons,
      List.flatten_nil, List.append_nil]
    rfl
  rw [hf, hframe]
  exact prints_sendPieces _ (List.cons_ne_nil _ _)

/-- `set_color` copies its frame piece by piece. -/
theorem prints_set_color (name object color : List UInt8) :
    Prints (set_color name object color)
      (Layout.frame (.typed (.of "set_color") (.of "widget")
        [(.of "color_object", .quoted), (.of "color", .raw)]) [.s name, .s object, .s color]) := by
  have hframe : Layout.frame (.typed (.of "set_color") (.of "widget")
      [(.of "color_object", .quoted), (.of "color", .raw)]) [.s name, .s object, .s color]
      = (STR_HEAD_CMD2 ++ str "\"set_color\",\"type\":\"widget\",\"widget\":") ++ 0x22 ::
        [name, str "\",\"color_object\":\"", object, str "\",\"color\":", color, STR_END].flatten := by
    have hhead : STR_HEAD_CMD2 ++ str "\"set_color\",\"type\":\"widget\",\"widget\":"
        = STR_HEAD_CMD2 ++ quoted (str "set_color") ++ 0x2c :: field "type" (str "widget")
          ++ 0x2c :: (quote (str "widget") ++ [0x3a]) := by decide +kernel
    have hobject : str "\",\"color_object\":\""
        = 0x22 :: 0x2c :: (quote (str "color_object") ++ [0x3a, 0x22]) := by decide
    have hcolor : str "\",\"color\":" = 0x22 :: 0x2c :: (quote (str "color") ++ [0x3a]) := by decide
    rw [hhead, hobject, hcolor]
    show STR_HEAD_CMD2 ++ quoted (str "set_color") ++ (0x2c :: field "type" (str "widget")
      ++ (0x2c :: (quote (str "widget") ++ 0x3a :: 0x22 :: (name ++ [0x22]))
      ++ (0x2c :: (quote (str "color_object") ++ 0x3a :: 0x22 :: (object ++ [0x22]))
      ++ (0x2c :: (quote (str "color") ++ 0x3a :: color) ++ [])))) ++ STR_END = _
    simp only [List.append_assoc, List.cons_append, List.nil_append, List.flatten_cons,
      List.flatten_nil, List.append_nil]
  rw [hframe]
  exact prints_sendPieces _ (List.cons_ne_nil _ _)

/-- The members of `set_value` that its first `sprintf` prints. -/
def valueSlots : List (Word × Slot) :=
  [(.of "type", .quoted), (.of "widget", .quoted), (.of "value", .raw)]

theorem valueLayout_frame (type name value format : List UInt8) :
    valueLayout.frame [.s type, .s name, .s value, .s format]
      = STR_HEAD_CMD2 ++ quoted (str "set_value") ++ ((slotTexts valueSlots
        [.s type, .s name, .s value] ++ slotTexts [(.of "format", .format)] [.s format]).map
        fun f => 0x2c :: f).flatten ++ STR_END := by
  rw [← slotTexts_append rfl]
  rfl

/-- The optional member of `set_value` with the end of the frame. -/
theorem formatTexts (format : List UInt8) :
    ((if format.head? = some 0x25 then [str ",\"format\":\"", sprintf (str "%s\"") [.s format]]
        else []) ++ [STR_END]).flatten
      = ((slotTexts [(.of "format", .format)] [.s format]).map fun f => 0x2c :: f).flatten
        ++ STR_END := by
  have htexts : slotTexts [(.of "format", .format)] [.s format]
      = ((Slot.format.shown (.s format)).map fun v => quote (str "format") ++ 0x3a :: v.1).toList := by
    unfold slotTexts
    cases hv : Slot.format.shown (.s format) with
    | none => simp [hv]
    | some v => simp [hv, Word.bytes]
  rw [htexts, Slot.shown]
  by_cases hf : format.head? = some 0x25
  · have hprint : sprintf (str "%s\"") [.s format] = format ++ [0x22] := sprintf_s _ format _
    rw [if_pos hf, if_pos hf, hprint]
    show str ",\"format\":\"" ++ ((format ++ [0x22]) ++ (STR_END ++ []))
      = str ",\"format\":\"" ++ ((format ++ [0x22]) ++ []) ++ STR_END
    simp only [List.append_nil, List.append_assoc]
  · rw [if_neg hf, if_neg hf]
    rfl

/-- `set_value` prints the optional member behind the others. -/
theorem prints_set_value {type name value : List UInt8} (format : List UInt8)
    (htype : set_get_value_type type = true)
    (h : List.Forall₂ (fun s a => s.2.Accepts a) valueSlots [.s type, .s name, .s value]) :
    Prints (set_value type name value format)
      (valueLayout.frame [.s type, .s name, .s value, .s format]) := by
  have hfirst : sprintf (STR_HEAD_CMD2
      ++ str "\"set_value\",\"type\":\"%s\",\"widget\":\"%s\",\"value\":%s")
        [.s type, .s name, .s value]
      = STR_HEAD_CMD2 ++ quoted (str "set_value") ++ ((slotTexts valueSlots
        [.s type, .s name, .s value]).map fun f => 0x2c :: f).flatten := by
    have hformat : STR_HEAD_CMD2
        ++ str "\"set_value\",\"type\":\"%s\",\"widget\":\"%s\",\"value\":%s"
        = formatOf (.of "set_value") [] valueSlots ++ [] := by decide +kernel
    rw [hformat]
    refine (sprintf_formatOf (.of "set_value") [] h (by decide) [] []).trans ?_
    exact List.append_nil _
  have hcall : set_value type name value format = sendTexts _ _ := funext fun t => if_pos htype
  rw [hcall, hfirst, valueLayout_frame, List.map_append, List.flatten_append,
    ← List.append_assoc, List.append_assoc (_ ++ _), ← formatTexts]
  exact prints_sendTexts _ (by simp)

/-- **A sound function sends its frame.** -/
theorem Call.prints_frame {c : Call} (h : c.Accepted) (hs : c.Sound) : Prints c.call c.frame := by
  obtain ⟨hcheck, hargs⟩ := h
  cases c <;> dsimp only [Call.frame, Call.layout, Call.args, Call.call] at hargs ⊢
  -- one `sprintf`, and one `sprintf` behind a check
  case set_coordinate | set_state | get_percent | set_step | set_interval | set_range | set_scale
      | get_selected | get_checked | set_angle | set_row_height | set_row_number =>
    exact prints_layout hargs (by decide) rfl (by decide +kernel)
  case set_min | show_text | set_format | set_image | set_loop | set_draw_type =>
    exact prints_layout hargs (by decide) (funext fun t => if_pos hcheck) (by decide +kernel)
  -- piece by piece
  case open_win | close_win | back_win_to => exact prints_open_win _ _ rfl
  case set_color name object color => exact prints_set_color name object color
  case set_value type name value format =>
    obtain _ | ⟨htype, _ | ⟨hname, _ | ⟨hvalue, -⟩⟩⟩ := hargs
    exact prints_set_value format hcheck (.cons htype (.cons hname (.cons hvalue .nil)))
  all_goals exact absurd hs id

/-! ## §3. Calls that encode their arguments. -/

/-- The call sends `ST<`, a JSON object and `>ET`, and its arguments can be read from
the object's members. -/
def Call.Encodes (c : Call) (t : TxBuf) : Prop :=
  ∃ u w, c.call t = .ok (u, [w]) ∧ IsFrame w ∧ (frameMembers w).bind c.layout.read = some c.args

theorem Call.keeps {c : Call} (h : c.Accepted) (hs : c.Sound) :
    List.Forall₂ (fun s a => s.2.Accepts a ∧ s.2.Keeps a) c.layout.slots c.args := by
  obtain ⟨-, hargs⟩ := h
  cases c
  case set_value type name value format =>
    obtain _ | ⟨htype, _ | ⟨hname, _ | ⟨hvalue, _ | ⟨hformat, -⟩⟩⟩⟩ := hargs
    exact .cons ⟨htype, trivial⟩ (.cons ⟨hname, trivial⟩ (.cons ⟨hvalue, trivial⟩
      (.cons ⟨hformat, hs⟩ .nil)))
  all_goals
    refine keeps_of_ne_format hargs ?_
    dsimp only [Call.layout]
    decide

/-! ## §4. Functions that do not send their frame. -/

/-- Whatever `f` sends has no members to read. -/
def Unreadable (f : TxBuf → Sent) : Prop :=
  ∀ t u w, f t = .ok (u, [w]) → frameMembers w = none

theorem unreadable_of_prints {f : TxBuf → Sent} {w : List UInt8} (hf : Prints f w)
    (hw : frameMembers w = none) : Unreadable f := by
  intro t u v h
  rw [(List.cons.inj (hf.sent h)).1]
  exact hw

/-- One `sprintf` that spoils the object behind some members. -/
theorem unreadable_of_format (code : Word) (own : List (Word × Word)) {slots : List (Word × Slot)}
    {args as : List Arg} {format g junk : List UInt8} {f : TxBuf → Sent}
    (h : List.Forall₂ (fun s a => s.2.Accepts a) slots args) (hslots : ∀ s ∈ slots, s.2 ≠ .format)
    (hf : f = TxBuf.send (sprintf format (args ++ as)))
    (hformat : format = formatOf code own slots ++ g)
    (hg : sprintf g as = 0x2c :: junk ++ frameMark)
    (hjunk : ∀ ms k, run ⟨.more, [.obj ms k]⟩ (0x2c :: junk) = none) : Unreadable f := by
  refine unreadable_of_prints (w := sprintf format (args ++ as)) ?_ ?_
  · rw [hf]
    exact prints_send _
  · rw [hformat, sprintf_formatOf code own h hslots, hg]
    exact frameMembers_spoilt code own h hjunk

/-- `set_max` has a comma behind `"max"`. -/
theorem unreadable_set_max {type name : List UInt8} (value : List UInt8)
    (hcheck : set_max_type type = true) (htype : NameLike type) (hname : NameLike name) :
    Unreadable (set_max type name value) := by
  have hg : sprintf (str ",\"max\"," ++ 0x25 :: 0x73 :: STR_END) [.s value]
      = 0x2c :: (str "\"max\"," ++ value ++ [0x7d]) ++ frameMark := by
    rw [sprintf_append _ _ _ (by decide), sprintf_s]
    show str ",\"max\"," ++ (value ++ ([0x7d] ++ frameMark))
      = str ",\"max\"," ++ value ++ [0x7d] ++ frameMark
    simp only [List.append_assoc]
  have hargs : List.Forall₂ (fun (s : Word × Slot) a => s.2.Accepts a)
      [(.of "type", .quoted), (.of "widget", .quoted)] [.s type, .s name] :=
    .cons htype (.cons hname .nil)
  exact unreadable_of_format (.of "set_max") [] hargs (by decide) (funext fun t => if_pos hcheck)
    (by decide +kernel) hg fun _ _ => rfl

/-- `set_rotation` and `set_selected` have a comma behind `"widget"`. -/
theorem unreadable_commaWidget (code key : Word) {format name value : List UInt8}
    {f : TxBuf → Sent} (hf : f = TxBuf.send (sprintf format [.s name, .s value]))
    (hformat : format = formatOf code [(.of "type", .of "image")] []
      ++ (str ",\"widget\",\"" ++ 0x25 :: 0x73 :: (str "\",\"" ++ key.bytes ++ str "\":"
        ++ 0x25 :: 0x73 :: STR_END))) : Unreadable f := by
  have hkey : 0x25 ∉ str "\",\"" ++ key.bytes ++ str "\":" := by
    intro hmem
    rw [List.mem_append, List.mem_append] at hmem
    obtain (hmem | hmem) | hmem := hmem
    · exact absurd hmem (by decide)
    · exact key.no_percent hmem
    · exact absurd hmem (by decide)
  have hg : sprintf (str ",\"widget\",\"" ++ 0x25 :: 0x73 :: (str "\",\"" ++ key.bytes
        ++ str "\":" ++ 0x25 :: 0x73 :: STR_END)) [.s name, .s value]
      = 0x2c :: (str "\"widget\",\"" ++ name ++ (str "\",\"" ++ key.bytes ++ str "\":") ++ value
        ++ [0x7d]) ++ frameMark := by
    rw [sprintf_append _ _ _ (by decide), sprintf_s, sprintf_append _ _ _ hkey, sprintf_s]
    show str ",\"widget\",\"" ++ (name ++ (str "\",\"" ++ key.bytes ++ str "\":"
      ++ (value ++ ([0x7d] ++ frameMark)))) = str ",\"widget\",\"" ++ name ++ _ ++ value ++ [0x7d] ++ _
    simp only [List.append_assoc]
  exact unreadable_of_format code _ .nil (fun _ h => nomatch h) hf hformat hg fun _ _ => rfl

/-- `set_bg_image` has no quote before `bg_image`. -/
theorem unreadable_set_bg_image {name : List UInt8} (image : List UInt8) (hname : NameLike name) :
    Unreadable (set_bg_image name image) := by
  have hhead : STR_HEAD_CMD2 ++ str "\"set_bg_image\",\"type\":\"widget\",\"widget\":"
      = STR_HEAD_CMD2 ++ quoted (str "set_bg_image") ++ 0x2c :: field "type" (str "widget")
        ++ 0x2c :: (quote (str "widget") ++ [0x3a]) := by decide +kernel
  have hargs : List.Forall₂ (fun (s : Word × Slot) a => s.2.Accepts a)
      [(.of "widget", .quoted)] [.s name] := .cons hname .nil
  have hjunk : ∀ ms k, run ⟨.more, [.obj ms k]⟩
      (0x2c :: (str "bg_image\":\"" ++ image ++ str "\"\x7d")) = none := fun _ _ => rfl
  have hspoilt := frameMembers_spoilt (.of "set_bg_image") [(.of "type", .of "widget")] hargs hjunk
  refine unreadable_of_prints (prints_sendPieces _ (List.cons_ne_nil _ _)) ?_
  rw [← hspoilt, hhead]
  show frameMembers _ = frameMembers (STR_HEAD_CMD2 ++ quoted (str "set_bg_image")
    ++ (0x2c :: field "type" (str "widget")
      ++ (0x2c :: (quote (str "widget") ++ 0x3a :: 0x22 :: (name ++ [0x22])) ++ []))
    ++ (0x2c :: (str "bg_image\":\"" ++ image ++ str "\"\x7d") ++ frameMark))
  simp only [List.append_assoc, List.cons_append, List.nil_append, List.flatten_cons,
    List.flatten_nil, List.append_nil]
  rfl

/-- `set_play` does not count what it prints behind the command's first letters. -/
theorem unreadable_set_play (name : List UInt8) (end_ : ℕ) : Unreadable (set_play name end_) := by
  intro t u w h
  obtain ⟨t₁, h₁, h⟩ := ok_of_bind h
  obtain ⟨hs₁, -⟩ := shows_print (shows_zero t) h₁
  -- the three texts go to the same place behind the first one
  obtain ⟨t₂, h₂, h⟩ := ok_of_bind h
  have hs₂ : t₂.Shows (STR_HEAD_CMD2 ++ str "\"set_") := by
    by_cases hend : end_ = 1
    · rw [if_pos hend] at h₂
      exact shows_poke hs₁ h₂
    · rw [if_neg hend] at h₂
      cases h₂
      exact hs₁
  obtain ⟨t₃, h₃, h⟩ := ok_of_bind h
  have hs₃ : t₃.Shows (STR_HEAD_CMD2 ++ str "\"set_") := by
    by_cases hend : end_ = 2
    · rw [if_pos hend] at h₃
      exact shows_poke hs₂ h₃
    · rw [if_neg hend] at h₃
      exact shows_poke hs₂ h₃
  obtain ⟨t₄, h₄, h⟩ := ok_of_bind h
  rw [tx_create_shows (shows_poke hs₃ h₄)] at h
  cases h
  exact if_neg fun hframe => absurd hframe.2 (by decide)

theorem isTrueFalse_cases {w : List UInt8} (h : isTrueFalse w = true) :
    w = str "true" ∨ w = str "false" := by
  unfold isTrueFalse at h
  rwa [Bool.or_eq_true, beq_iff_eq, beq_iff_eq] at h

/-- Calls of `set_enable` for different widgets send the same bytes. -/
theorem set_enable_name (name name' tf : List UInt8) (end_ : ℕ) :
    set_enable name tf end_ = set_enable name' tf end_ := rfl

/-- `set_enable` and `set_visible` send a member `sleep` of the system, whatever the name. -/
theorem not_read_set_enable (name : List UInt8) {tf : List UInt8} {end_ : ℕ} {l : Layout} {as : List Arg}
    (hcheck : isTrueFalse tf = true)
    (hread : (frameMembers (STR_HEAD_CMD2 ++ 0x22 ::
      [str "set_", if end_ = 1 then str "visible" else str "enable", str "\",\"", str "type",
        str "\":\"", str "system", str "\",\"", str "sleep", str "\":", sprintf (str "%s") [.s tf],
        STR_END].flatten)).bind l.read = none) {t u : TxBuf} {w : List UInt8}
    (h : set_enable name tf end_ t = .ok (u, [w])) : (frameMembers w).bind l.read ≠ some as := by
  unfold set_enable at h
  rw [if_pos hcheck] at h
  have hsent := (prints_sendPieces _ (List.cons_ne_nil _ _)).sent h
  rw [(List.cons.inj hsent).1, hread]
  exact nofun

/-- A format that does not start with `'%'` is not in the frame. -/
theorem read_set_value {type name value format : List UInt8}
    (hcheck : set_get_value_type type = true)
    (h : List.Forall₂ (fun s a => s.2.Accepts a) valueSlots [.s type, .s name, .s value])
    (hformat : format.head? ≠ some 0x25) {t u : TxBuf} {w : List UInt8}
    (hcall : set_value type name value format t = .ok (u, [w])) :
    (frameMembers w).bind valueLayout.read = some [.s type, .s name, .s value, .s []] := by
  have hsent := (prints_set_value format hcheck h).sent hcall
  have hshown : Slot.format.shown (.s format) = Slot.format.shown (.s []) := if_neg hformat
  have htexts : slotTexts [(.of "format", .format)] [.s format]
      = slotTexts [(.of "format", .format)] [.s []] := by
    unfold slotTexts
    show List.filterMap _ [_] = List.filterMap _ [_]
    rw [List.filterMap_cons, List.filterMap_cons, hshown]
  have hframe : valueLayout.frame [.s type, .s name, .s value, .s format]
      = valueLayout.frame [.s type, .s name, .s value, .s []] := by
    rw [valueLayout_frame, valueLayout_frame, htexts]
  have hnil : NameLike [] := by decide
  obtain _ | ⟨htype, _ | ⟨hname, _ | ⟨hvalue, -⟩⟩⟩ := h
  have hkeeps : List.Forall₂ (fun s a => s.2.Accepts a ∧ s.2.Keeps a) valueLayout.slots
      [.s type, .s name, .s value, .s []] :=
    .cons ⟨htype, trivial⟩ (.cons ⟨hname, trivial⟩ (.cons ⟨hvalue, trivial⟩
      (.cons ⟨hnil, Or.inl rfl⟩ .nil)))
  rw [(List.cons.inj hsent).1, hframe]
  exact (valueLayout.read_frame hkeeps).2

/-- The frame of a call that is not sound cannot be read back. -/
theorem Call.sound_of_encodes {c : Call} (h : c.Accepted) {t : TxBuf} (henc : c.Encodes t) :
    c.Sound := by
  obtain ⟨hcheck, hargs⟩ := h
  obtain ⟨u, w, hcall, -, hread⟩ := henc
  have hreadable : ¬ Unreadable c.call := by
    intro hun
    rw [hun t u w hcall] at hread
    cases hread
  cases c <;> dsimp only [Call.layout, Call.args] at hargs hread
  -- JSON, with other members
  case set_enable name tf =>
    obtain rfl | rfl := isTrueFalse_cases hcheck <;>
      exact absurd hread (not_read_set_enable name hcheck (by decide +kernel) hcall)
  case set_visible name tf =>
    obtain rfl | rfl := isTrueFalse_cases hcheck <;>
      exact absurd hread (not_read_set_enable name hcheck (by decide +kernel) hcall)
  -- not JSON
  case set_bg_image name image =>
    obtain _ | ⟨hname, -⟩ := hargs
    exact absurd (unreadable_set_bg_image image hname) hreadable
  case set_max type name value =>
    obtain _ | ⟨htype, _ | ⟨hname, -⟩⟩ := hargs
    exact absurd (unreadable_set_max value hcheck htype hname) hreadable
  -- cut off behind `set_`
  case set_play | set_pause | set_stop => exact absurd (unreadable_set_play _ _) hreadable
  case set_rotation name rotation =>
    exact absurd (unreadable_commaWidget (.of "set_rotation") (.of "rotation") rfl
      (by decide +kernel)) hreadable
  case set_selected name selected =>
    exact absurd (unreadable_commaWidget (.of "set_selected") (.of "selected_index") rfl
      (by decide +kernel)) hreadable
  case set_value type name value format =>
    by_cases hformat : format.head? = some 0x25
    · exact Or.inr hformat
    · obtain _ | ⟨htype, _ | ⟨hname, _ | ⟨hvalue, -⟩⟩⟩ := hargs
      -- the frame reads as one with an empty format
      rw [read_set_value hcheck (.cons htype (.cons hname (.cons hvalue .nil))) hformat hcall]
        at hread
      cases hread
      exact Or.inl rfl
  all_goals trivial

/-- A sound call whose frame fits the buffer sends it, and it can be read back. -/
theorem Call.encodes_of_sound {c : Call} (h : c.Accepted) (hs : c.Sound)
    (hfit : c.frame.length < TX_LEN) (t : TxBuf) : c.Encodes t := by
  obtain ⟨u, hcall⟩ := (Call.prints_frame h hs).exists_sent hfit t
  obtain ⟨hframe, hread⟩ := c.layout.read_frame (Call.keeps h hs)
  exact ⟨u, c.frame, hcall, hframe, hread⟩

/-- Calls of one sound function that send the same bytes have the same arguments. -/
theorem Call.args_of_same_bytes {c c' : Call} (h : c.Accepted) (h' : c'.Accepted) (hs : c.Sound)
    (hs' : c'.Sound) (hlayout : c'.layout = c.layout) {t t' u u' : TxBuf} {ws : List (List UInt8)}
    (hcall : c.call t = .ok (u, ws)) (hcall' : c'.call t' = .ok (u', ws)) : c'.args = c.args := by
  have hws := (Call.prints_frame h hs).sent hcall
  have hws' := (Call.prints_frame h' hs').sent hcall'
  have hframe : c'.frame = c.frame := (List.cons.inj (hws'.symm.trans hws)).1
  have hread : (frameMembers c.frame).bind c.layout.read = some c.args :=
    (c.layout.read_frame (Call.keeps h hs)).2
  have hread' : (frameMembers c'.frame).bind c'.layout.read = some c'.args :=
    (c'.layout.read_frame (Call.keeps h' hs')).2
  rw [hframe, hlayout, hread] at hread'
  exact (Option.some.inj hread').symm

/-- **WHICH CALLS ENCODE THEIR ARGUMENTS.**  For every accepted call, from any buffer:
it sends `ST<`, one JSON object and `>ET` with its arguments readable from the members,
exactly when its function is sound and the frame with its NUL fits the buffer.  Two
such calls of one function with different arguments never send the same bytes. -/
theorem Call.encodes_iff {c : Call} (h : c.Accepted) (t : TxBuf) :
    (c.Encodes t ↔ c.Sound ∧ c.frame.length < TX_LEN) ∧
      ∀ (c' : Call) (t' : TxBuf), c'.Accepted → c'.layout = c.layout → c.Sound → c'.Sound →
        ∀ u u' ws, c.call t = .ok (u, ws) → c'.call t' = .ok (u', ws) → c'.args = c.args := by
  refine ⟨⟨fun henc => ?_, fun ⟨hs, hfit⟩ => Call.encodes_of_sound h hs hfit t⟩, ?_⟩
  · have hs := Call.sound_of_encodes h henc
    obtain ⟨u, w, hcall, -⟩ := henc
    exact ⟨hs, ((Call.prints_frame h hs t).1 _ hcall).2⟩
  · intro c' t' h' hlayout hs hs' u u' ws hcall hcall'
    exact Call.args_of_same_bytes h h' hs hs' hlayout hcall hcall'

/-- The example call of stone_transport.c for `set_coordinate`. -/
theorem encodes_coordinate :
    (Call.set_coordinate (str "switch1") (str "100") (str "200")).Encodes TxBuf.zero := by
  have hname : NameLike (str "switch1") := by decide
  have hx : isNumber (str "100") = true := by decide
  have hy : isNumber (str "200") = true := by decide
  have haccept : (Call.set_coordinate (str "switch1") (str "100") (str "200")).Accepted :=
    ⟨rfl, .cons hname (.cons (Or.inl hx) (.cons (Or.inl hy) .nil))⟩
  exact (Call.encodes_iff haccept TxBuf.zero).1.mpr ⟨trivial, by decide +kernel⟩

/-- The example call for `set_max` is accepted, and what it sends is not a frame. -/
theorem not_encodes_max :
    (Call.set_max (str "slider") (str "slider2") (str "500")).Accepted ∧
      ∃ u w, (Call.set_max (str "slider") (str "slider2") (str "500")).call TxBuf.zero
          = .ok (u, [w]) ∧ ¬ IsFrame w := by
  have htype : NameLike (str "slider") := by decide
  have hname : NameLike (str "slider2") := by decide
  have hvalue : isNumber (str "500") = true := by decide
  have hprints : Prints (set_max (str "slider") (str "slider2") (str "500")) _ := prints_send _
  obtain ⟨u, hcall⟩ := hprints.exists_sent (by decide +kernel) TxBuf.zero
  refine ⟨⟨by decide, .cons htype (.cons hname (.cons (Or.inl hvalue) .nil))⟩, u, _, hcall, ?_⟩
  rintro ⟨body, ms, hw, hbody⟩
  have hnone := unreadable_set_max (str "500") (by decide) htype hname _ _ _ hcall
  rw [hw, frameMembers_body, hbody] at hnone
  cases hnone

end StoneHMI
