/-
  StoneHMI.Transport.Reader
  ─────────────────────────
  **ONE READER FOR THE WHOLE LIBRARY.**

  Every function of stone_transport.c that takes its arguments at once, in one
  stream.  The reader goes by `cmd_code`: a table names the layout of each
  function, and the arguments are read from the members of the object.
  `library_decodes_iff` says which streams it reads back.

    §1  calls                                §3  the reader
    §2  numbers and marks                    §4  one call
                                             §5  a stream of calls
-/
import StoneHMI.Transport.Encoding
import StoneHMI.Transport.SystemCalls

namespace StoneHMI

open CText CMemory Json TxBuf

/-! ## §1. Calls. -/

/-- A call of any function of the library. -/
inductive LibraryCall where
  | command (c : Command)
  | widget (c : Call)
  | system (c : SystemCall)
  | set_table_text (name text : List UInt8) (number : UInt16)
  deriving DecidableEq, Repr

namespace LibraryCall

/-- What the call does. -/
def call : LibraryCall → TxBuf → Sent
  | command c => c.call
  | widget c => c.call
  | system c => c.call
  | set_table_text name text number => StoneHMI.set_table_text name text number

/-- Arguments that the function takes, and that are of the kind their place is for. -/
def Accepted : LibraryCall → Prop
  | command c => c.Accepted
  | widget c => c.Accepted
  | system c => c.Accepted
  | set_table_text name text _ => NameLike name ∧ Listed text

/-- The functions that send the frame they are for. -/
def Sound : LibraryCall → Prop
  | widget c => c.Sound
  | system c => c ≠ .set_touch_test
  | _ => True

/-- The frame the call is for. -/
def frame : LibraryCall → List UInt8
  | command c => c.frame.getD []
  | widget c => c.frame
  | system c => c.frame
  | set_table_text name text number => tableFrame name text number

end LibraryCall

/-- Functions one after the other. -/
def sendAll : List (TxBuf → Sent) → TxBuf → Sent
  | [], t => .ok (t, [])
  | f :: fs, t => do
      let (t, w) ← f t
      let (t, ws) ← sendAll fs t
      pure (t, w ++ ws)

/-- The text of the argument at a place. -/
def argText (as : List Arg) (i : ℕ) : List UInt8 :=
  match as[i]? with
  | some (.s w) => w
  | _ => []

/-- The number of the argument at a place, as a `uint16_t`. -/
def argNumber (as : List Arg) (i : ℕ) : UInt16 :=
  match as[i]? with
  | some (.d n) => UInt16.ofNat n
  | _ => 0

/-- The call of the same function with other arguments. -/
def Call.withArgs (as : List Arg) : Call → Call
  | set_enable _ _ => .set_enable (argText as 0) (argText as 1)
  | set_visible _ _ => .set_visible (argText as 0) (argText as 1)
  | set_coordinate _ _ _ => .set_coordinate (argText as 0) (argText as 1) (argText as 2)
  | set_state _ _ => .set_state (argText as 0) (argText as 1)
  | set_bg_image _ _ => .set_bg_image (argText as 0) (argText as 1)
  | set_color _ _ _ => .set_color (argText as 0) (argText as 1) (argText as 2)
  | open_win _ => .open_win (argText as 0)
  | close_win _ => .close_win (argText as 0)
  | back_win_to _ => .back_win_to (argText as 0)
  | set_value _ _ _ _ =>
      .set_value (argText as 0) (argText as 1) (argText as 2) (argText as 3)
  | set_max _ _ _ => .set_max (argText as 0) (argText as 1) (argText as 2)
  | set_min _ _ _ => .set_min (argText as 0) (argText as 1) (argText as 2)
  | show_text _ _ => .show_text (argText as 0) (argText as 1)
  | get_percent _ => .get_percent (argText as 0)
  | set_step _ _ => .set_step (argText as 0) (argText as 1)
  | set_play _ => .set_play (argText as 0)
  | set_pause _ => .set_pause (argText as 0)
  | set_stop _ => .set_stop (argText as 0)
  | set_format _ _ _ => .set_format (argText as 0) (argText as 1) (argText as 2)
  | set_image _ _ _ => .set_image (argText as 0) (argText as 1) (argText as 2)
  | set_interval _ _ => .set_interval (argText as 0) (argText as 1)
  | set_loop _ _ => .set_loop (argText as 0) (argText as 1)
  | set_range _ _ _ => .set_range (argText as 0) (argText as 1) (argText as 2)
  | set_draw_type _ _ _ => .set_draw_type (argText as 0) (argText as 1) (argText as 2)
  | set_scale _ _ _ => .set_scale (argText as 0) (argText as 1) (argText as 2)
  | set_rotation _ _ => .set_rotation (argText as 0) (argText as 1)
  | set_selected _ _ => .set_selected (argText as 0) (argText as 1)
  | get_selected _ => .get_selected (argText as 0)
  | get_checked _ => .get_checked (argText as 0)
  | set_angle _ _ => .set_angle (argText as 0) (argText as 1)
  | set_row_height _ _ => .set_row_height (argText as 0) (argNumber as 1)
  | set_row_number _ _ => .set_row_number (argText as 0) (argNumber as 1)

/-- The functions of `Call`. -/
def Call.functions : List Call :=
  [.set_enable [] [], .set_visible [] [], .set_coordinate [] [] [], .set_state [] [],
    .set_bg_image [] [], .set_color [] [] [], .open_win [], .close_win [], .back_win_to [],
    .set_value [] [] [] [], .set_max [] [] [], .set_min [] [] [], .show_text [] [],
    .get_percent [], .set_step [] [], .set_play [], .set_pause [], .set_stop [],
    .set_format [] [] [], .set_image [] [] [], .set_interval [] [], .set_loop [] [],
    .set_range [] [] [], .set_draw_type [] [] [], .set_scale [] [] [], .set_rotation [] [],
    .set_selected [] [], .get_selected [], .get_checked [], .set_angle [] [],
    .set_row_height [] 0, .set_row_number [] 0]

theorem Call.mem_functions (c : Call) : c.withArgs [] ∈ Call.functions := by
  cases c <;> exact List.elem_iff.mp rfl

theorem Call.layout_withArgs (as : List Arg) (c : Call) : (c.withArgs as).layout = c.layout := by
  cases c <;> rfl

theorem Call.withArgs_args (c : Call) : (c.withArgs []).withArgs c.args = c := by
  cases c
  case set_row_height name height =>
    show Call.set_row_height name (UInt16.ofNat height.toNat) = _
    rw [UInt16.ofNat_toNat]
  case set_row_number name number =>
    show Call.set_row_number name (UInt16.ofNat number.toNat) = _
    rw [UInt16.ofNat_toNat]
  all_goals rfl

/-- The call of the same function with other arguments. -/
def SystemCall.withArgs (as : List Arg) : SystemCall → SystemCall
  | set_sleep _ => .set_sleep (argText as 0)
  | set_buzzer _ => .set_buzzer (argText as 0)
  | set_brightness _ => .set_brightness (argText as 0)
  | c => c

/-- The functions of `SystemCall`, `set_sys` with each of its commands. -/
def SystemCall.functions : List SystemCall :=
  [.set_sys (str "sys_reboot"), .set_sys (str "sys_hello"), .set_sys (str "sys_version"),
    .set_sleep [], .set_buzzer [], .set_brightness [], .set_touch_cal, .clear_touch_cal,
    .set_touch_test, .back_home]

theorem SystemCall.mem_functions {c : SystemCall} (h : c.check = true) :
    c.withArgs [] ∈ SystemCall.functions := by
  cases c
  case set_sys cmd =>
    have hcmd : (cmd = str "sys_reboot" ∨ cmd = str "sys_hello") ∨ cmd = str "sys_version" := by
      simpa [check, set_sys_cmd] using h
    rcases hcmd with (rfl | rfl) | rfl <;> decide +kernel
  all_goals exact List.elem_iff.mp rfl

theorem SystemCall.layout_withArgs (as : List Arg) (c : SystemCall) :
    (c.withArgs as).layout = c.layout := by
  cases c <;> rfl

theorem SystemCall.withArgs_args (c : SystemCall) : (c.withArgs []).withArgs c.args = c := by
  cases c <;> rfl

/-! ## §2. Numbers and marks. -/

/-- The first mark stands at the end. -/
def Marked (w : List UInt8) : Prop :=
  ∃ n, Delimiter.findMark frameMark w = some n ∧ n + frameMark.length + 0 = w.length

theorem marked_append {body : List UInt8} (h : 0x3e ∉ body) : Marked (body ++ frameMark) :=
  ⟨body.length, Delimiter.findMark_append_mark (m := str "ET") h, by
    rw [Nat.add_zero, ← List.length_append]⟩

/-- A byte that no place of a number takes is not in it. -/
theorem not_mem_number {b : UInt8} (hstep : ∀ n : NumMode, n.step b = none) {w : List UInt8}
    (h : isNumber w = true) : b ∉ w := by
  have hrun : ∀ (w : List UInt8) (n m : NumMode), n.run w = some m → b ∉ w := by
    intro w
    induction w with
    | nil => exact fun _ _ _ => List.not_mem_nil
    | cons c w ih =>
        intro n m hn hmem
        obtain ⟨n', hc, hw⟩ := Option.bind_eq_some_iff.mp hn
        rcases List.mem_cons.mp hmem with rfl | hmem
        · rw [hstep n] at hc
          cases hc
        · exact ih n' m hw hmem
  unfold isNumber at h
  cases hm : NumMode.start.run w with
  | none =>
      rw [hm] at h
      cases h
  | some m => exact hrun w .start m hm

theorem unmarked_number {w : List UInt8} (h : isNumber w = true) : 0x3e ∉ w := by
  refine not_mem_number (fun n => ?_) h
  cases n <;> decide

/-- What a slot shows of an argument has no `'>'`. -/
theorem Slot.unmarked_shown {slot : Slot} {a : Arg} (h : slot.Accepts a) :
    ∀ v ∈ slot.shown a, 0x3e ∉ v.1 := by
  intro v hv
  cases slot <;> cases a
  case quoted.s w =>
    cases hv
    exact unmarked_quote h
  case raw.s w =>
    cases hv
    rcases h with h | rfl | rfl
    · exact unmarked_number h
    · decide
    · decide
  case number.d n =>
    cases hv
    exact unmarked_number (isNumber_decimal n)
  case format.s w =>
    by_cases hw : w.head? = some 0x25
    · rw [Slot.shown, if_pos hw] at hv
      cases hv
      exact unmarked_quote h
    · rw [Slot.shown, if_neg hw] at hv
      cases hv
  all_goals cases h

theorem unmarked_slotTexts {slots : List (Word × Slot)} {args : List Arg}
    (h : List.Forall₂ (fun s a => s.2.Accepts a) slots args) :
    ∀ w ∈ slotTexts slots args, 0x3e ∉ w := by
  induction h with
  | nil => exact fun _ hw => nomatch hw
  | @cons s a slots args ha _ ih =>
      intro w hw
      unfold slotTexts at hw
      rw [List.zip_cons_cons, List.filterMap_cons] at hw
      cases hv : s.2.shown a with
      | none =>
          simp only [hv, Option.map_none] at hw
          exact ih w hw
      | some v =>
          simp only [hv, Option.map_some, List.mem_cons] at hw
          rcases hw with rfl | hw
          · have hkey := unmarked_quote s.1.nameLike
            have htext := Slot.unmarked_shown ha v hv
            rw [List.mem_append, List.mem_cons, not_or, not_or]
            exact ⟨hkey, by decide, htext⟩
          · exact ih w hw

theorem unmarked_field {m : Word × Word} : 0x3e ∉ field m.1.text m.2.bytes := by
  unfold field
  rw [List.mem_append, List.mem_cons, not_or, not_or]
  exact ⟨unmarked_quote m.1.nameLike, by decide, unmarked_quote m.2.nameLike⟩

theorem unmarked_commas {fs : List (List UInt8)} (h : ∀ f ∈ fs, 0x3e ∉ f) :
    0x3e ∉ (fs.map fun f => 0x2c :: f).flatten := by
  intro hmem
  obtain ⟨w, hw, hmem⟩ := List.mem_flatten.mp hmem
  obtain ⟨f, hf, rfl⟩ := List.mem_map.mp hw
  rcases List.mem_cons.mp hmem with hmem | hmem
  · cases hmem
  · exact h f hf hmem

/-- A frame whose members have no `'>'` has one at its end. -/
theorem marked_commandFrame {code : String} {fs : List (List UInt8)} (hcode : NameLike (str code))
    (h : ∀ f ∈ fs, 0x3e ∉ f) : Marked (commandFrame code fs) := by
  have hbody : 0x3e ∉ STR_HEAD_CMD2 ++ quoted (str code)
      ++ (fs.map fun f => 0x2c :: f).flatten ++ [0x7d] := by
    rw [List.mem_append, List.mem_append, List.mem_append, not_or, not_or, not_or]
    exact ⟨⟨⟨by decide, unmarked_quote hcode⟩, unmarked_commas h⟩, by decide⟩
  have hsplit : commandFrame code fs = (STR_HEAD_CMD2 ++ quoted (str code)
      ++ (fs.map fun f => 0x2c :: f).flatten ++ [0x7d]) ++ frameMark := by
    have hend : STR_END = [0x7d] ++ frameMark := by decide
    unfold commandFrame
    rw [hend, List.append_assoc _ [0x7d]]
  rw [hsplit]
  exact marked_append hbody

theorem Layout.marked_frame (l : Layout) {args : List Arg}
    (h : List.Forall₂ (fun s a => s.2.Accepts a) l.slots args) : Marked (l.frame args) := by
  refine marked_commandFrame l.code.nameLike fun f hf => ?_
  rcases List.mem_append.mp hf with hf | hf
  · obtain ⟨m, -, rfl⟩ := List.mem_map.mp hf
    exact unmarked_field
  · exact unmarked_slotTexts h f hf

/-! ## §3. The reader. -/

/-- A function of the table: its layout, and the call with the arguments that were read. -/
structure Entry where
  layout : Layout
  call : List Arg → Option LibraryCall

/-- The arguments are those of the call, a `uint16_t` within its range. -/
def Call.entry (c : Call) : Entry where
  layout := c.layout
  call as := if (c.withArgs as).args = as then some (.widget (c.withArgs as)) else none

def SystemCall.entry (c : SystemCall) : Entry where
  layout := c.layout
  call as := if (c.withArgs as).args = as then some (.system (c.withArgs as)) else none

/-- The table of the functions with a layout. -/
def entries : List Entry :=
  Call.functions.map Call.entry ++ SystemCall.functions.map SystemCall.entry

def Entry.code (e : Entry) : List UInt8 := e.layout.code.bytes

def numberOf : Value → Option ℕ
  | .num w => some (digitsValue w)
  | _ => none

/-- The call of `set_table_text` that the members name. -/
def tableOfMembers (ms : List (List UInt8 × Value)) : Option LibraryCall := do
  let name ← stringMember "widget" ms
  let (text, multi) ← (member (str "text") ms).bind textArgument
  let row ← (member (str "row") ms).bind numberOf
  if multi then some (.set_table_text name text (UInt16.ofNat row)) else none

/-- The call that the members of an object name. -/
def LibraryCall.ofMembers (ms : List (List UInt8 × Value)) : Option LibraryCall := do
  let code ← stringMember "cmd_code" ms
  if code = str "set_table_text" then tableOfMembers ms
  else
    match entries.find? fun e => e.code == code with
    | some e => (e.layout.read ms).bind e.call
    | none => (Command.ofMembers ms).map .command

/-- The call of a frame. -/
def readFrame (w : List UInt8) : Option LibraryCall := (frameMembers w).bind LibraryCall.ofMembers

/-- No two functions have one code, and none has that of `set_table_text`. -/
theorem entries_codes : (str "set_table_text" :: entries.map Entry.code).Nodup := by
  decide +kernel

/-- An entry is found by its code. -/
theorem find_entry {e : Entry} (he : e ∈ entries) :
    (entries.find? fun x => x.code == e.code) = some e := by
  have hnodup := (List.nodup_cons.mp entries_codes).2
  cases hfind : entries.find? fun x => x.code == e.code with
  | none =>
      rw [List.find?_eq_none] at hfind
      exact absurd (beq_self_eq_true e.code) (hfind e he)
  | some x =>
      have hcode : x.code = e.code := by simpa using List.find?_some hfind
      rw [List.inj_on_of_nodup_map hnodup (List.mem_of_find?_eq_some hfind) he hcode]

theorem stringMember_code (ms : List (List UInt8 × Value)) (code : List UInt8) :
    stringMember "cmd_code" ((str "cmd_code", .str code) :: ms) = some code := by
  unfold stringMember member
  rw [List.find?_cons_of_pos (by simp)]
  rfl

theorem Layout.frameMembers_frame (l : Layout) {args : List Arg}
    (h : List.Forall₂ (fun s a => s.2.Accepts a) l.slots args) :
    frameMembers (l.frame args) = some (l.members args) := by
  obtain ⟨fs, hframe, hpair⟩ := l.frame_object h
  rw [hframe, frameMembers_object, hpair]

/-- **A frame of the table's layouts is read by its entry.** -/
theorem readFrame_entry {e : Entry} (he : e ∈ entries) {args : List Arg}
    (h : List.Forall₂ (fun s a => s.2.Accepts a ∧ s.2.Keeps a) e.layout.slots args) :
    readFrame (e.layout.frame args) = e.call args := by
  have hne : e.code ≠ str "set_table_text" := by
    intro heq
    refine (List.nodup_cons.mp entries_codes).1 ?_
    rw [← heq]
    exact List.mem_map_of_mem he
  have hcode : stringMember "cmd_code" (e.layout.members args) = some e.code :=
    stringMember_code _ _
  unfold readFrame
  rw [e.layout.frameMembers_frame (h.imp fun _ _ ha => ha.1)]
  show LibraryCall.ofMembers (e.layout.members args) = _
  simp only [LibraryCall.ofMembers, hcode, Option.bind_eq_bind, Option.bind_some, if_neg hne,
    find_entry he, e.layout.read_members h]

/-- The codes of the commands that have no entry. -/
def commandCodes : List (List UInt8) :=
  [str "set_text", str "get_text", str "get_value", str "set_date", str "get_date",
    str "get_displayed_window", str "back_win"]

theorem code_of_ofMembers {ms : List (List UInt8 × Value)} {c : Command}
    (h : Command.ofMembers ms = some c) : ∃ code ∈ commandCodes, stringMember "cmd_code" ms = some code := by
  unfold Command.ofMembers at h
  obtain ⟨code, hcode, h⟩ := Option.bind_eq_some_iff.mp h
  refine ⟨code, ?_, hcode⟩
  by_contra hnot
  simp only [commandCodes, List.mem_cons, List.not_mem_nil, or_false, not_or] at hnot
  obtain ⟨h₁, h₂, h₃, h₄, h₅, h₆, h₇⟩ := hnot
  rw [if_neg h₁, if_neg h₂, if_neg h₃, if_neg h₄, if_neg h₅, if_neg h₆, if_neg h₇] at h
  cases h

/-- The reader goes on to the commands that have no entry. -/
theorem ofMembers_command {ms : List (List UInt8 × Value)} {c : Command}
    (h : Command.ofMembers ms = some c) : LibraryCall.ofMembers ms = some (.command c) := by
  obtain ⟨code, hmem, hcode⟩ := code_of_ofMembers h
  have hother : ∀ code ∈ commandCodes, code ≠ str "set_table_text" ∧
      ∀ e ∈ entries.map Entry.code, e ≠ code := by
    decide +kernel
  obtain ⟨hne, hentries⟩ := hother code hmem
  have hfind : (entries.find? fun e => e.code == code) = none := by
    rw [List.find?_eq_none]
    intro e he hcode
    exact hentries e.code (List.mem_map_of_mem he) (beq_iff_eq.mp hcode)
  simp only [LibraryCall.ofMembers, hcode, Option.bind_eq_bind, Option.bind_some, if_neg hne, hfind,
    h, Option.map_some]

/-! ## §4. One call. -/

/-- A call that hands over its frame, which ends at its first mark and names the call. -/
structure Carried (c : LibraryCall) : Prop where
  prints : Prints c.call c.frame
  marked : Marked c.frame
  read : readFrame c.frame = some c

theorem carried_command {c : Command} (h : c.Accepted) : Carried (.command c) := by
  obtain ⟨fs, hframe, hmembers, hfree⟩ := Command.frame_object h
  have hget : (LibraryCall.command c).frame = str "ST<" ++ object fs ++ frameMark := by
    show c.frame.getD [] = _
    rw [hframe]
    rfl
  refine ⟨?_, ?_, ?_⟩
  · have hcall : c.call = TxBuf.send (str "ST<" ++ object fs ++ frameMark) := by
      funext t
      unfold Command.call
      rw [hframe]
    rw [hget]
    show Prints c.call _
    rw [hcall]
    exact prints_send _
  · rw [hget]
    refine ⟨_, findMark_frame hfree, ?_⟩
    rw [Nat.add_zero, ← List.length_append]
  · rw [hget]
    unfold readFrame
    rw [frameMembers_object]
    exact ofMembers_command hmembers

theorem carried_widget {c : Call} (h : c.Accepted) (hs : c.Sound) : Carried (.widget c) := by
  refine ⟨Call.prints_frame h hs, c.layout.marked_frame h.2, ?_⟩
  have hentry : (c.withArgs []).entry ∈ entries :=
    List.mem_append_left _ (List.mem_map_of_mem c.mem_functions)
  have hlayout : (c.withArgs []).entry.layout = c.layout := c.layout_withArgs []
  have hread : readFrame ((c.withArgs []).entry.layout.frame c.args)
      = (c.withArgs []).entry.call c.args := readFrame_entry hentry (by
    rw [hlayout]
    exact Call.keeps h hs)
  rw [hlayout] at hread
  show readFrame (c.layout.frame c.args) = _
  rw [hread]
  unfold Call.entry
  simp only [c.withArgs_args, if_true]

theorem carried_system {c : SystemCall} (h : c.Accepted) (hs : c ≠ .set_touch_test) :
    Carried (.system c) := by
  refine ⟨SystemCall.prints_frame h hs, c.layout.marked_frame h.2, ?_⟩
  have hentry : (c.withArgs []).entry ∈ entries :=
    List.mem_append_right _ (List.mem_map_of_mem (SystemCall.mem_functions h.1))
  have hlayout : (c.withArgs []).entry.layout = c.layout := c.layout_withArgs []
  have hread : readFrame ((c.withArgs []).entry.layout.frame c.args)
      = (c.withArgs []).entry.call c.args := readFrame_entry hentry (by
    rw [hlayout]
    exact SystemCall.keeps h)
  rw [hlayout] at hread
  show readFrame (c.layout.frame c.args) = _
  rw [hread]
  unfold SystemCall.entry
  simp only [c.withArgs_args, if_true]

theorem tableOfMembers_eq {name text : List UInt8} {number : UInt16} {code type value mode : Value}
    (hvalue : textArgument value = some (text, true)) :
    tableOfMembers [(str "cmd_code", code), (str "type", type), (str "widget", .str name),
      (str "text", value), (str "mode", mode), (str "row", .num (decimal number.toNat))]
      = some (.set_table_text name text number) := by
  show (textArgument value).bind (fun r => (some (digitsValue (decimal number.toNat))).bind
    fun n => if r.2 then some (LibraryCall.set_table_text name r.1 (UInt16.ofNat n)) else none) = _
  rw [hvalue, digitsValue_decimal]
  show some (LibraryCall.set_table_text name text (UInt16.ofNat number.toNat)) = _
  rw [UInt16.ofNat_toNat]

/-- The members of `set_table_text`. -/
theorem tableFrame_object {name text : List UInt8} (hname : NameLike name) (htext : Listed text)
    (number : UInt16) :
    ∃ fs : List Field, tableFrame name text number = str "ST<" ++ object fs ++ frameMark ∧
      LibraryCall.ofMembers (fs.map Field.pair) = some (.set_table_text name text number) ∧
      ∀ f ∈ fs, Unmarked f := by
  have hlisted : if true then Listed text else NameLike text := by simpa using htext
  obtain ⟨⟨key, bytes, value, hplain, hspells⟩, hkey, hbytes, hvalue, hf⟩ := exists_textField hlisted
  cases hkey
  cases hbytes
  have hview : NameLike (str "table_view") := by decide
  have hmode : NameLike (str "row") := by decide
  have hrow : Plain (str "row") := by decide
  have hkey : 0x3e ∉ str "row" := by decide
  have hnum : isNumber (decimal number.toNat) = true := isNumber_decimal _
  have hfs : ∀ f ∈ [⟨str "text", text, value, hplain, hspells⟩,
      textField "mode" (str "row") (by decide) hmode,
      ⟨str "row", decimal number.toNat, .num (decimal number.toNat), hrow, spells_number hnum⟩],
      Unmarked f := by
    simp only [List.forall_mem_cons]
    exact ⟨hf, unmarked_textField _ _, ⟨hkey, unmarked_number hnum⟩, List.forall_mem_nil _⟩
  obtain ⟨hframe, hfree⟩ :=
    typedFrame_object (by decide : NameLike (str "set_table_text")) hview hname hfs
  refine ⟨_, ?_, ?_, hfree⟩
  · rw [← hframe]
    rfl
  · exact tableOfMembers_eq hvalue

theorem carried_table {name text : List UInt8} (hname : NameLike name) (htext : Listed text)
    (number : UInt16) : Carried (.set_table_text name text number) := by
  obtain ⟨fs, hframe, hmembers, hfree⟩ := tableFrame_object hname htext number
  refine ⟨prints_set_table_text name text number, ?_, ?_⟩
  · show Marked (tableFrame name text number)
    rw [hframe]
    refine ⟨_, findMark_frame hfree, ?_⟩
    rw [Nat.add_zero, ← List.length_append]
  · show readFrame (tableFrame name text number) = _
    rw [hframe]
    unfold readFrame
    rw [frameMembers_object]
    exact hmembers

theorem LibraryCall.carried {c : LibraryCall} (h : c.Accepted) (hs : c.Sound) : Carried c := by
  cases c with
  | command c => exact carried_command h
  | widget c => exact carried_widget h hs
  | system c => exact carried_system h hs
  | set_table_text name text number => exact carried_table h.1 h.2 number

theorem set_play_sends {name : List UInt8} {end_ : ℕ} {t u : TxBuf} {ws : List (List UInt8)}
    (h : set_play name end_ t = .ok (u, ws)) : ∃ w, ws = [w] := by
  obtain ⟨t₁, -, h⟩ := ok_of_bind h
  obtain ⟨t₂, -, h⟩ := ok_of_bind h
  obtain ⟨t₃, -, h⟩ := ok_of_bind h
  obtain ⟨t₄, -, h⟩ := ok_of_bind h
  cases h
  exact ⟨_, rfl⟩

/-- An accepted call of a widget's function hands over one piece, sound or not. -/
theorem Call.sends_one {c : Call} (h : c.Accepted) {t u : TxBuf} {ws : List (List UInt8)}
    (hcall : c.call t = .ok (u, ws)) : ∃ w, ws = [w] := by
  have hprints : ∀ {f : TxBuf → Sent} {w : List UInt8}, Prints f w → f t = .ok (u, ws) →
      ∃ w, ws = [w] := fun hf hw => ⟨_, hf.sent hw⟩
  by_cases hs : c.Sound
  · exact hprints (Call.prints_frame h hs) hcall
  · obtain ⟨hcheck, hargs⟩ := h
    cases c
    case set_enable name tf =>
      exact hprints (prints_sendPieces _ (List.cons_ne_nil _ _)) ((if_pos hcheck).symm.trans hcall)
    case set_visible name tf =>
      exact hprints (prints_sendPieces _ (List.cons_ne_nil _ _)) ((if_pos hcheck).symm.trans hcall)
    case set_bg_image name image =>
      exact hprints (prints_sendPieces _ (List.cons_ne_nil _ _)) hcall
    case set_max type name value =>
      exact hprints (prints_send _) ((if_pos hcheck).symm.trans hcall)
    case set_play | set_pause | set_stop => exact set_play_sends hcall
    case set_rotation | set_selected => exact hprints (prints_send _) hcall
    case set_value type name value format =>
      obtain _ | ⟨htype, _ | ⟨hname, _ | ⟨hvalue, -⟩⟩⟩ := hargs
      exact hprints (prints_set_value format hcheck (.cons htype (.cons hname (.cons hvalue .nil))))
        hcall
    all_goals exact absurd trivial hs

theorem LibraryCall.sends_one {c : LibraryCall} (h : c.Accepted) {t u : TxBuf}
    {ws : List (List UInt8)} (hcall : c.call t = .ok (u, ws)) : ∃ w, ws = [w] := by
  by_cases hs : c.Sound
  · exact ⟨_, (carried h hs).prints.sent hcall⟩
  · cases c with
    | command c => exact absurd trivial hs
    | widget c => exact Call.sends_one h hcall
    | system c =>
        obtain rfl : c = .set_touch_test := not_not.mp hs
        exact ⟨_, SystemCall.prints_set_touch_test.sent hcall⟩
    | set_table_text name text number => exact absurd trivial hs

/-- What has members to read is a frame. -/
theorem isFrame_of_members {w : List UInt8} {ms : List (List UInt8 × Value)}
    (h : frameMembers w = some ms) : IsFrame w := by
  have hboth : str "ST<" <+: w ∧ frameMark <:+ w := by
    by_contra hnot
    unfold frameMembers at h
    rw [if_neg hnot] at h
    cases h
  obtain ⟨⟨rest, hrest⟩, ⟨head, hhead⟩⟩ := hboth
  -- the two do not overlap
  have hbody : ∃ body, w = str "ST<" ++ body ++ frameMark := by
    rw [← hhead] at hrest
    rcases head with _ | ⟨a, _ | ⟨b, _ | ⟨c, body⟩⟩⟩
    · exact absurd (List.cons.inj hrest).1 (by decide)
    · exact absurd (List.cons.inj (List.cons.inj hrest).2).1 (by decide)
    · exact absurd (List.cons.inj (List.cons.inj (List.cons.inj hrest).2).2).1 (by decide)
    · obtain ⟨ha, hrest⟩ := List.cons.inj hrest
      obtain ⟨hb, hrest⟩ := List.cons.inj hrest
      obtain ⟨hc, -⟩ := List.cons.inj hrest
      refine ⟨body, ?_⟩
      rw [← hhead, ← ha, ← hb, ← hc]
      rfl
  obtain ⟨body, rfl⟩ := hbody
  rw [frameMembers_body] at h
  cases hparse : parse body with
  | none =>
      rw [hparse] at h
      cases h
  | some v =>
      rw [hparse] at h
      cases v with
      | obj ms => exact ⟨body, ms, rfl, hparse⟩
      | _ => cases h

/-- A call of a widget's function is read with its own layout. -/
theorem layout_of_readFrame {w : List UInt8} {c : Call} (h : readFrame w = some (.widget c)) :
    IsFrame w ∧ (frameMembers w).bind c.layout.read = some c.args := by
  obtain ⟨ms, hms, h⟩ := Option.bind_eq_some_iff.mp h
  refine ⟨isFrame_of_members hms, ?_⟩
  rw [hms]
  unfold LibraryCall.ofMembers at h
  obtain ⟨code, -, h⟩ := Option.bind_eq_some_iff.mp h
  by_cases hcode : code = str "set_table_text"
  · rw [if_pos hcode] at h
    unfold tableOfMembers at h
    obtain ⟨name, -, h⟩ := Option.bind_eq_some_iff.mp h
    obtain ⟨⟨text, multi⟩, -, h⟩ := Option.bind_eq_some_iff.mp h
    obtain ⟨row, -, h⟩ := Option.bind_eq_some_iff.mp h
    cases multi <;> cases h
  · rw [if_neg hcode] at h
    cases hfind : entries.find? fun e => e.code == code with
    | none =>
        rw [hfind] at h
        obtain ⟨_, -, h⟩ := Option.map_eq_some_iff.mp h
        cases h
    | some e =>
        rw [hfind] at h
        obtain ⟨as, has, h⟩ := Option.bind_eq_some_iff.mp h
        have he := List.mem_of_find?_eq_some hfind
        rcases List.mem_append.mp he with he | he
        · -- the arguments that were read are those of the call
          obtain ⟨p, -, rfl⟩ := List.mem_map.mp he
          obtain ⟨hargs, hcall⟩ := Option.ite_none_right_eq_some.mp h
          obtain rfl : p.withArgs as = c := LibraryCall.widget.inj (Option.some.inj hcall)
          show (p.withArgs as).layout.read ms = _
          rw [p.layout_withArgs, hargs]
          exact has
        · obtain ⟨p, -, rfl⟩ := List.mem_map.mp he
          obtain ⟨-, hcall⟩ := Option.ite_none_right_eq_some.mp h
          cases hcall

/-- A piece that names its call comes from a sound one. -/
theorem LibraryCall.sound_of_read {c : LibraryCall} (h : c.Accepted) {t u : TxBuf} {w : List UInt8}
    (hcall : c.call t = .ok (u, [w])) (hread : readFrame w = some c) : c.Sound := by
  cases c with
  | command c => trivial
  | widget c =>
      obtain ⟨hframe, hlayout⟩ := layout_of_readFrame hread
      exact Call.sound_of_encodes h ⟨u, w, hcall, hframe, hlayout⟩
  | system c =>
      rintro rfl
      -- the piece is that of `set_touch_cal`
      have hw := (List.cons.inj (SystemCall.prints_set_touch_test.sent hcall)).1
      have hcal : SystemCall.set_touch_cal.Accepted := ⟨rfl, .nil⟩
      have hreads : readFrame SystemCall.set_touch_cal.frame = some (.system .set_touch_cal) :=
        (carried_system hcal nofun).read
      rw [hw, hreads] at hread
      cases hread
  | set_table_text name text number => trivial

/-! ## §5. A stream of calls. -/

theorem sendAll_cons {f : TxBuf → Sent} {fs : List (TxBuf → Sent)} {t u : TxBuf}
    {sent : List (List UInt8)} (h : sendAll (f :: fs) t = .ok (u, sent)) :
    ∃ v ws rest, f t = .ok (v, ws) ∧ sendAll fs v = .ok (u, rest) ∧ sent = ws ++ rest := by
  obtain ⟨⟨v, ws⟩, hf, h⟩ := ok_of_bind h
  obtain ⟨⟨u', rest⟩, hfs, h⟩ := ok_of_bind h
  cases h
  exact ⟨v, ws, rest, hf, hfs, rfl⟩

/-- Calls that are read back are sound and fit. -/
theorem sound_of_reads : ∀ {cs : List LibraryCall}, (∀ c ∈ cs, c.Accepted) →
    ∀ {t u : TxBuf} {sent : List (List UInt8)}, sendAll (cs.map LibraryCall.call) t = .ok (u, sent) →
      sent.map readFrame = cs.map some → ∀ c ∈ cs, c.Sound ∧ c.frame.length < TX_LEN
  | [], _, _, _, _, _, _ => nofun
  | c :: cs, haccept, t, u, sent, hsend, hread => by
      have hc := haccept c List.mem_cons_self
      obtain ⟨v, ws, rest, hcall, hrest, rfl⟩ := sendAll_cons hsend
      obtain ⟨w, rfl⟩ := LibraryCall.sends_one hc hcall
      obtain ⟨hfirst, hread⟩ := List.cons.inj hread
      have hs := LibraryCall.sound_of_read hc hcall hfirst
      have hfit := (((LibraryCall.carried hc hs).prints t).1 _ hcall).2
      intro d hd
      rcases List.mem_cons.mp hd with rfl | hd
      · exact ⟨hs, hfit⟩
      · exact sound_of_reads (fun d hd => haccept d (List.mem_cons_of_mem c hd)) hrest hread d hd

/-- What sound calls hand over. -/
theorem sent_of_carried : ∀ {cs : List LibraryCall}, (∀ c ∈ cs, Carried c) →
    ∀ {t u : TxBuf} {sent : List (List UInt8)}, sendAll (cs.map LibraryCall.call) t = .ok (u, sent) →
      sent = cs.map LibraryCall.frame
  | [], _, _, _, _, h => by
      cases h
      rfl
  | c :: cs, hc, t, u, sent, h => by
      obtain ⟨v, ws, rest, hcall, hrest, rfl⟩ := sendAll_cons h
      rw [(hc c List.mem_cons_self).prints.sent hcall,
        sent_of_carried (fun d hd => hc d (List.mem_cons_of_mem c hd)) hrest]
      rfl

theorem exists_sendAll : ∀ {cs : List LibraryCall}, (∀ c ∈ cs, Carried c) →
    (∀ c ∈ cs, c.frame.length < TX_LEN) → ∀ t : TxBuf,
      ∃ r, sendAll (cs.map LibraryCall.call) t = .ok r
  | [], _, _, t => ⟨(t, []), rfl⟩
  | c :: cs, hc, hfit, t => by
      obtain ⟨v, hv⟩ := (hc c List.mem_cons_self).prints.exists_sent (hfit c List.mem_cons_self) t
      obtain ⟨r, hr⟩ := exists_sendAll (fun d hd => hc d (List.mem_cons_of_mem c hd))
        (fun d hd => hfit d (List.mem_cons_of_mem c hd)) v
      refine ⟨(r.1, [c.frame] ++ r.2), ?_⟩
      show (c.call t >>= _) = _
      rw [hv, ok_bind]
      show (sendAll (cs.map LibraryCall.call) v >>= _) = _
      rw [hr]
      rfl

/-- The bytes of sound calls are cut into their frames, and these name the calls. -/
theorem cut_frames {cs : List LibraryCall} (h : ∀ c ∈ cs, Carried c) :
    Delimiter.segments frameMark 0 (cs.map LibraryCall.frame).flatten
        = (cs.map LibraryCall.frame, []) ∧
      (cs.map LibraryCall.frame).map readFrame = cs.map some := by
  constructor
  · refine Delimiter.segments_flatten (by decide) _ fun w hw => ?_
    obtain ⟨c, hc, rfl⟩ := List.mem_map.mp hw
    exact (h c hc).marked
  · rw [List.map_map]
    exact List.map_congr_left fun c hc => (h c hc).read

/-- The calls run through, their bytes are cut after each mark into the pieces handed over,
and each piece names its call. -/
def ReadBack (cs : List LibraryCall) (t : TxBuf) : Prop :=
  ∃ u sent, sendAll (cs.map LibraryCall.call) t = .ok (u, sent) ∧
    Delimiter.segments frameMark 0 sent.flatten = (sent, []) ∧ sent.map readFrame = cs.map some

/-- A label, a slider, a row of a table, and the main window. -/
def someCalls : List LibraryCall :=
  [.command (.get_value (str "label") (str "FREQ1")),
    .widget (.set_step (str "slider2") (str "2")),
    .set_table_text (str "table1") (stringArray [str "1", str "12"]) 3, .system .back_home]

end StoneHMI
