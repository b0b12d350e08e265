/-
  StoneHMI.Transport.Stream
  ─────────────────────────
  **THE COMMAND STREAM CAN BE READ BACK.**

  What the firmware sends is a stream of bytes, one frame after the other out
  of one buffer.  A reader cuts it after each `>ET`, takes off `ST<` and `>ET`,
  parses the JSON object in between and reads the command from its members.
  `stream_decodes` says that this finds the calls, in order, with all their
  arguments.

    §1  the reader            §3  frames as JSON objects
    §2  the writer            §4  the stream
-/
import StoneHMI.Lib.Delimiter
import StoneHMI.Lib.Json
import StoneHMI.Transport.Commands
import StoneHMI.Transport.Print

namespace StoneHMI

open CText CMemory Json

/-! ## §1. The reader. -/

/-- What ends a frame. -/
def frameMark : List UInt8 := str ">ET"

/-- The JSON object of a frame. -/
def frameMembers (w : List UInt8) : Option (List (List UInt8 × Value)) :=
  if str "ST<" <+: w ∧ frameMark <:+ w then
    match parse ((w.drop 3).take (w.length - 6)) with
    | some (.obj ms) => some ms
    | _ => none
  else none

/-- A member that is a string. -/
def stringMember (key : String) (ms : List (List UInt8 × Value)) : Option (List UInt8) :=
  match member (str key) ms with
  | some (.str s) => some s
  | _ => none

def stringOf : Value → Option (List UInt8)
  | .str s => some s
  | _ => none

/-- The text of `set_text`, and whether it is a list. -/
def textArgument : Value → Option (List UInt8 × Bool)
  | .str s => some (s, false)
  | .arr vs => (vs.mapM stringOf).map fun ss => (stringArray ss, true)
  | _ => none

/-- The command that the members of an object name. -/
def Command.ofMembers (ms : List (List UInt8 × Value)) : Option Command := do
  let code ← stringMember "cmd_code" ms
  if code = str "set_text" then
    let type ← stringMember "type" ms
    let name ← stringMember "widget" ms
    let (text, multi) ← (member (str "text") ms).bind textArgument
    some (.set_text type name text multi)
  else if code = str "get_text" then
    let type ← stringMember "type" ms
    let name ← stringMember "widget" ms
    some (.get_text type name)
  else if code = str "get_value" then
    let type ← stringMember "type" ms
    let name ← stringMember "widget" ms
    some (.get_value type name)
  else if code = str "set_date" then
    let name ← stringMember "widget" ms
    let date ← stringMember "date" ms
    some (.set_date name date)
  else if code = str "get_date" then
    let name ← stringMember "widget" ms
    some (.get_date name)
  else if code = str "get_displayed_window" then some .get_displayed_window
  else if code = str "back_win" then some .back_win
  else none

/-- The command of a frame. -/
def decodeFrame (w : List UInt8) : Option Command := (frameMembers w).bind Command.ofMembers

/-! ## §2. The writer. -/

/-- A call of the command's function. -/
def Command.call (c : Command) (t : TxBuf) : Sent :=
  match c.frame with
  | some f => t.send f
  | none => t.inputError

/-- Calls one after the other. -/
def sendCommands : List Command → TxBuf → Sent
  | [], t => .ok (t, [])
  | c :: cs, t => do
      let (t, w) ← c.call t
      let (t, ws) ← sendCommands cs t
      pure (t, w ++ ws)

/-- A string without quotes, backslashes, `'>'` and control characters. -/
def NameLike (s : List UInt8) : Prop := ∀ b ∈ s, PlainByte b ∧ b ≠ 0x3e

instance (s : List UInt8) : Decidable (NameLike s) :=
  List.decidableBAll (fun b => PlainByte b ∧ b ≠ 0x3e) s

/-- A bracketed list of such strings, in quotes and with commas between them. -/
def Listed (text : List UInt8) : Prop := ∃ ss, (∀ s ∈ ss, NameLike s) ∧ text = stringArray ss

/-- A type the function accepts, and arguments it can put into a frame. -/
def Command.Accepted : Command → Prop
  | .set_text type name text multi =>
      set_text_type type = true ∧ NameLike name ∧ if multi then Listed text else NameLike text
  | .get_text type name => get_text_type type = true ∧ NameLike name
  | .get_value type name => set_get_value_type type = true ∧ NameLike name
  | .set_date name date => NameLike name ∧ NameLike date
  | .get_date name => NameLike name
  | .get_displayed_window => True
  | .back_win => True

/-! ## §3. Frames as JSON objects. -/

theorem NameLike.plain {s : List UInt8} (h : NameLike s) : Plain s := fun b hb => (h b hb).1

/-- A member whose value is a string. -/
def textField (key : String) (s : List UInt8) (hkey : NameLike (str key)) (hs : NameLike s) :
    Field where
  key := str key
  text := quote s
  value := .str s
  plain := hkey.plain
  spells := spells_quote hs.plain

/-- A member without a `'>'`. -/
def Unmarked (f : Field) : Prop := 0x3e ∉ f.key ∧ 0x3e ∉ f.text

theorem unmarked_quote {s : List UInt8} (hs : NameLike s) : 0x3e ∉ quote s := by
  intro h
  obtain h | h := mem_quote h
  · exact absurd h (by decide)
  · exact (hs _ h).2 rfl

theorem unmarked_textField {key : String} {s : List UInt8} (hkey : NameLike (str key))
    (hs : NameLike s) : Unmarked (textField key s hkey hs) :=
  ⟨fun h => (hkey _ h).2 rfl, unmarked_quote hs⟩

theorem unmarked_object {fs : List Field} (h : ∀ f ∈ fs, Unmarked f) : 0x3e ∉ object fs := by
  intro hmem
  unfold object at hmem
  rw [List.mem_cons, List.mem_append, List.mem_singleton] at hmem
  obtain hmem | hmem | hmem := hmem
  · cases hmem
  · obtain hmem | ⟨w, hw, hmem⟩ := mem_commaList hmem
    · cases hmem
    · obtain ⟨f, hf, rfl⟩ := List.mem_map.mp hw
      unfold Field.bytes quote at hmem
      rw [List.mem_append, List.mem_cons, List.mem_append, List.mem_singleton, List.mem_cons] at hmem
      obtain (hmem | hmem | hmem) | hmem | hmem := hmem
      · cases hmem
      · exact (h f hf).1 hmem
      · cases hmem
      · cases hmem
      · exact (h f hf).2 hmem
  · cases hmem

theorem unmarked_stringArray {ss : List (List UInt8)} (h : ∀ s ∈ ss, NameLike s) :
    0x3e ∉ stringArray ss := by
  intro hmem
  obtain hmem | ⟨s, hs, hmem⟩ := mem_stringArray hmem
  · revert hmem
    decide
  · exact (h s hs _ hmem).2 rfl

/-- The member that names the command. -/
def codeField (code : String) (hcode : NameLike (str code)) : Field :=
  textField "cmd_code" (str code) (by decide) hcode

/-- A frame up to its last member. -/
theorem commandHead_object {code : String} (hcode : NameLike (str code)) (fs : List Field) :
    STR_HEAD_CMD2 ++ quoted (str code) ++ ((fs.map Field.bytes).map fun f => 0x2c :: f).flatten
      = str "ST<" ++ 0x7b :: commaList ((codeField code hcode :: fs).map Field.bytes) := by
  have hhead : STR_HEAD_CMD2 = str "ST<" ++ (0x7b :: quote (str "cmd_code") ++ [0x3a]) := by decide
  rw [hhead, List.map_cons, commaList]
  show _ = str "ST<" ++ 0x7b :: ((quote (str "cmd_code") ++ 0x3a :: quote (str code)) ++ _)
  simp only [List.append_assoc, List.cons_append, List.nil_append]
  rfl

/-- A printed frame is `ST<`, an object and `>ET`. -/
theorem commandFrame_object {code : String} (hcode : NameLike (str code)) (fs : List Field) :
    commandFrame code (fs.map Field.bytes)
      = str "ST<" ++ object (codeField code hcode :: fs) ++ frameMark := by
  have hend : STR_END = [0x7d] ++ frameMark := by decide
  unfold commandFrame object
  rw [commandHead_object hcode, hend]
  simp only [List.append_assoc, List.cons_append]

/-- The strings of an array of strings. -/
theorem mapM_stringOf (ss : List (List UInt8)) : (ss.map Value.str).mapM stringOf = some ss := by
  induction ss with
  | nil => rfl
  | cons s ss ih =>
      rw [List.map_cons, List.mapM_cons, ih]
      rfl

theorem nameLike_of_set_text_type {type : List UInt8} (h : set_text_type type = true) :
    NameLike type := by
  unfold set_text_type at h
  simp only [Bool.or_eq_true, beq_iff_eq] at h
  rcases h with ((rfl | rfl) | rfl) | rfl <;> decide

theorem nameLike_of_get_text_type {type : List UInt8} (h : get_text_type type = true) :
    NameLike type := by
  unfold get_text_type at h
  simp only [Bool.or_eq_true, beq_iff_eq] at h
  rcases h with (rfl | rfl) | rfl <;> decide

theorem nameLike_of_set_get_value_type {type : List UInt8} (h : set_get_value_type type = true) :
    NameLike type := by
  unfold set_get_value_type at h
  simp only [Bool.or_eq_true, beq_iff_eq] at h
  rcases h with (((((((rfl | rfl) | rfl) | rfl) | rfl) | rfl) | rfl) | rfl) | rfl <;> decide

/-- The text of `set_text` as a member. -/
theorem exists_textField {text : List UInt8} {multi : Bool}
    (h : if multi then Listed text else NameLike text) :
    ∃ f : Field, f.key = str "text" ∧ f.text = (if multi then text else quoted text) ∧
      textArgument f.value = some (text, multi) ∧ Unmarked f := by
  cases multi with
  | false =>
      have htext : NameLike text := by simpa using h
      exact ⟨textField "text" text (by decide) htext, rfl, rfl, rfl, unmarked_textField _ htext⟩
  | true =>
      obtain ⟨ss, hss, rfl⟩ : Listed text := by simpa using h
      have hkey : 0x3e ∉ str "text" := by decide
      refine ⟨⟨str "text", stringArray ss, .arr (ss.map .str), by decide,
        spells_stringArray fun s hs => (hss s hs).plain⟩, rfl, rfl, ?_, hkey,
        unmarked_stringArray hss⟩
      show ((ss.map Value.str).mapM stringOf).map (fun ss => (stringArray ss, true)) = _
      rw [mapM_stringOf]
      rfl

/-- The members `cmd_code`, `type` and `widget`. -/
def typedFields {code : String} (hcode : NameLike (str code)) {type name : List UInt8}
    (htype : NameLike type) (hname : NameLike name) : List Field :=
  [codeField code hcode, textField "type" type (by decide) htype,
    textField "widget" name (by decide) hname]

theorem unmarked_typedFields {code : String} (hcode : NameLike (str code)) {type name : List UInt8}
    (htype : NameLike type) (hname : NameLike name) :
    ∀ f ∈ typedFields hcode htype hname, Unmarked f := by
  intro f hf
  simp only [typedFields, List.mem_cons, List.not_mem_nil, or_false] at hf
  rcases hf with rfl | rfl | rfl <;> exact unmarked_textField _ _

/-- The frame of a command with a type, a widget and further members. -/
theorem typedFrame_object {code : String} (hcode : NameLike (str code)) {type name : List UInt8}
    (htype : NameLike type) (hname : NameLike name) {fs : List Field} (hfs : ∀ f ∈ fs, Unmarked f) :
    commandFrame code (field "type" type :: field "widget" name :: fs.map Field.bytes)
        = str "ST<" ++ object (typedFields hcode htype hname ++ fs) ++ frameMark ∧
      ∀ f ∈ typedFields hcode htype hname ++ fs, Unmarked f := by
  constructor
  · show _ = str "ST<" ++ object (codeField code hcode :: _) ++ frameMark
    rw [← commandFrame_object]
    rfl
  · intro f hmem
    rcases List.mem_append.mp hmem with hmem | hmem
    · exact unmarked_typedFields hcode htype hname f hmem
    · exact hfs f hmem

/-- The frame of a command for the window. -/
theorem windowFrame_object {code : String} (hcode : NameLike (str code)) :
    ∃ fs : List Field,
      commandFrame code [field "type" (str "window")] = str "ST<" ++ object fs ++ frameMark ∧
      fs.map Field.pair = [(str "cmd_code", .str (str code)), (str "type", .str (str "window"))] ∧
      ∀ f ∈ fs, Unmarked f := by
  have hwindow : NameLike (str "window") := by decide
  refine ⟨[codeField code hcode, textField "type" (str "window") (by decide) hwindow], ?_, rfl, ?_⟩
  · rw [← commandFrame_object]
    rfl
  · intro f hmem
    simp only [List.mem_cons, List.not_mem_nil, or_false] at hmem
    rcases hmem with rfl | rfl <;> exact unmarked_textField _ _

/-- **The frame of an accepted call is a JSON object that names the call.** -/
theorem Command.frame_object {c : Command} (h : c.Accepted) :
    ∃ fs : List Field, c.frame = some (str "ST<" ++ object fs ++ frameMark) ∧
      Command.ofMembers (fs.map Field.pair) = some c ∧ ∀ f ∈ fs, Unmarked f := by
  have hclock : NameLike (str "digit_clock") := by decide
  have hnone : ∀ f ∈ ([] : List Field), Unmarked f := fun _ hf => nomatch hf
  cases c with
  | set_text type name text multi =>
      obtain ⟨htype, hname, htext⟩ := h
      obtain ⟨⟨key, bytes, value, hplain, hspells⟩, hkey, hbytes, hvalue, hf⟩ := exists_textField htext
      cases hkey
      cases hbytes
      obtain ⟨hframe, hfree⟩ := typedFrame_object (by decide : NameLike (str "set_text"))
        (nameLike_of_set_text_type htype) hname (List.forall_mem_singleton.mpr hf)
      refine ⟨_, ?_, ?_, hfree⟩
      · rw [← hframe]
        exact if_pos htype
      · show (textArgument value).bind (fun r => some (Command.set_text type name r.1 r.2)) = _
        rw [hvalue]
        rfl
  | get_text type name =>
      obtain ⟨htype, hname⟩ := h
      obtain ⟨hframe, hfree⟩ := typedFrame_object (by decide : NameLike (str "get_text"))
        (nameLike_of_get_text_type htype) hname hnone
      refine ⟨_, ?_, rfl, hfree⟩
      rw [← hframe]
      exact if_pos htype
  | get_value type name =>
      obtain ⟨htype, hname⟩ := h
      obtain ⟨hframe, hfree⟩ := typedFrame_object (by decide : NameLike (str "get_value"))
        (nameLike_of_set_get_value_type htype) hname hnone
      refine ⟨_, ?_, rfl, hfree⟩
      rw [← hframe]
      exact if_pos htype
  | set_date name date =>
      obtain ⟨hname, hdate⟩ := h
      have hkey : NameLike (str "date") := by decide
      obtain ⟨hframe, hfree⟩ := typedFrame_object (by decide : NameLike (str "set_date")) hclock hname
        (List.forall_mem_singleton.mpr (unmarked_textField hkey hdate))
      exact ⟨_, congrArg some hframe, rfl, hfree⟩
  | get_date name =>
      obtain ⟨hframe, hfree⟩ := typedFrame_object (by decide : NameLike (str "get_date")) hclock h hnone
      exact ⟨_, congrArg some hframe, rfl, hfree⟩
  | get_displayed_window =>
      obtain ⟨fs, hframe, hpair, hfree⟩ :=
        windowFrame_object (by decide : NameLike (str "get_displayed_window"))
      refine ⟨fs, congrArg some hframe, ?_, hfree⟩
      rw [hpair]
      rfl
  | back_win =>
      obtain ⟨fs, hframe, hpair, hfree⟩ := windowFrame_object (by decide : NameLike (str "back_win"))
      refine ⟨fs, congrArg some hframe, ?_, hfree⟩
      rw [hpair]
      rfl

/-! ## §4. The stream. -/

/-- `ST<`, one JSON object and `>ET`. -/
def IsFrame (w : List UInt8) : Prop :=
  ∃ body ms, w = str "ST<" ++ body ++ frameMark ∧ parse body = some (.obj ms)

theorem frameMembers_body (body : List UInt8) :
    frameMembers (str "ST<" ++ body ++ frameMark)
      = match parse body with
        | some (.obj ms) => some ms
        | _ => none := by
  have hhead : str "ST<" <+: str "ST<" ++ body ++ frameMark := by
    rw [List.append_assoc]
    exact List.prefix_append _ _
  have hbody : ((str "ST<" ++ body ++ frameMark).drop 3).take
      ((str "ST<" ++ body ++ frameMark).length - 6) = body := by
    rw [List.append_assoc, List.drop_left' (show (str "ST<").length = 3 from rfl),
      List.length_append, List.length_append]
    exact List.take_left' (by
      show _ = 3 + (body.length + 3) - 6
      omega)
  unfold frameMembers
  rw [if_pos ⟨hhead, List.suffix_append _ _⟩, hbody]

theorem frameMembers_object (fs : List Field) :
    frameMembers (str "ST<" ++ object fs ++ frameMark) = some (fs.map Field.pair) := by
  rw [frameMembers_body, parse_object]

/-- The reader cuts a frame where it ends. -/
theorem findMark_frame {fs : List Field} (h : ∀ f ∈ fs, Unmarked f) :
    Delimiter.findMark frameMark (str "ST<" ++ object fs ++ frameMark)
      = some (str "ST<" ++ object fs).length := by
  refine Delimiter.findMark_append_mark (b := 0x3e) (m := str "ET") fun hmem => ?_
  rcases List.mem_append.mp hmem with hmem | hmem
  · exact absurd hmem (by decide)
  · exact unmarked_object h hmem

/-- An accepted call hands over its frame, which the reader cuts off and decodes. -/
theorem Command.call_frame {c : Command} (h : c.Accepted)
    (hfit : ∀ f ∈ c.frame, f.length < TX_LEN) (t : TxBuf) :
    ∃ u w, c.call t = .ok (u, [w]) ∧ IsFrame w ∧ decodeFrame w = some c ∧
      ∃ n, Delimiter.findMark frameMark w = some n ∧ n + frameMark.length + 0 = w.length := by
  obtain ⟨fs, hframe, hmembers, hfree⟩ := Command.frame_object h
  obtain ⟨u, hcall⟩ := (prints_send _).exists_sent (hfit _ hframe) t
  refine ⟨u, str "ST<" ++ object fs ++ frameMark, ?_,
    ⟨object fs, _, rfl, parse_object fs⟩, ?_, _, findMark_frame hfree, ?_⟩
  · unfold Command.call
    rw [hframe]
    exact hcall
  · unfold decodeFrame
    rw [frameMembers_object]
    exact hmembers
  · rw [Nat.add_zero, ← List.length_append]

/-- What a sequence of calls hands over, piece by piece. -/
theorem sendCommands_frames : ∀ (cs : List Command), (∀ c ∈ cs, c.Accepted) →
    (∀ c ∈ cs, ∀ f ∈ c.frame, f.length < TX_LEN) → ∀ t : TxBuf,
      ∃ u sent, sendCommands cs t = .ok (u, sent) ∧ sent.length = cs.length ∧
        (∀ w ∈ sent, IsFrame w) ∧ sent.map decodeFrame = cs.map some ∧
        ∀ w ∈ sent, ∃ n, Delimiter.findMark frameMark w = some n ∧
          n + frameMark.length + 0 = w.length
  | [], _, _, t => ⟨t, [], rfl, rfl, by simp, rfl, by simp⟩
  | c :: cs, haccept, hfit, t => by
      obtain ⟨t₁, w, hcall, hframe, hdecode, hmark⟩ :=
        Command.call_frame (haccept c List.mem_cons_self) (hfit c List.mem_cons_self) t
      obtain ⟨u, sent, hsend, hlen, hframes, hdecodes, hmarks⟩ :=
        sendCommands_frames cs (fun d hd => haccept d (List.mem_cons_of_mem c hd))
          (fun d hd => hfit d (List.mem_cons_of_mem c hd)) t₁
      refine ⟨u, w :: sent, ?_, ?_, ?_, ?_, ?_⟩
      · show (c.call t >>= _) = _
        rw [hcall, ok_bind]
        show (sendCommands cs t₁ >>= _) = _
        rw [hsend]
        rfl
      · rw [List.length_cons, List.length_cons, hlen]
      · intro x hx
        rcases List.mem_cons.mp hx with rfl | hx
        · exact hframe
        · exact hframes x hx
      · rw [List.map_cons, List.map_cons, hdecode, hdecodes]
      · intro x hx
        rcases List.mem_cons.mp hx with rfl | hx
        · exact hmark
        · exact hmarks x hx

/-- **THE COMMAND STREAM IS UNIQUELY DECODABLE.**  For every sequence of accepted calls
whose frames fit the buffer, from any buffer: the calls do not fault, the bytes
handed over, cut after each `'>ET'`, are one piece for each call, each piece is `ST<`,
a JSON object and `>ET`, and decoding the pieces gives the calls back. -/
theorem stream_decodes {cs : List Command} (haccept : ∀ c ∈ cs, c.Accepted)
    (hfit : ∀ c ∈ cs, ∀ f ∈ c.frame, f.length < TX_LEN) (t : TxBuf) :
    ∃ u sent, sendCommands cs t = .ok (u, sent) ∧
      Delimiter.segments frameMark 0 sent.flatten = (sent, []) ∧ sent.length = cs.length ∧
      (∀ w ∈ sent, IsFrame w) ∧ sent.map decodeFrame = cs.map some := by
  obtain ⟨u, sent, hsend, hlen, hframes, hdecodes, hmarks⟩ := sendCommands_frames cs haccept hfit t
  exact ⟨u, sent, hsend, Delimiter.segments_flatten (by decide) sent hmarks, hlen, hframes, hdecodes⟩

/-- A label, the list of the history's first column, and the clock. -/
def threeCalls : List Command :=
  [.set_text (str "label") (str "FREQ2") (str "3") false,
    .set_text (str "list_item") (str "col1") (stringArray [str "1", str "12"]) true,
    .get_date (str "digit_clock1")]

theorem stream_threeCalls :
    ∃ u sent, sendCommands threeCalls TxBuf.zero = .ok (u, sent) ∧
      Delimiter.segments frameMark 0 sent.flatten = (sent, []) ∧ sent.length = 3 ∧
      (∀ w ∈ sent, IsFrame w) ∧ sent.map decodeFrame = threeCalls.map some := by
  refine stream_decodes  ?_ ?_ TxBuf.zero
  · intro c hc
    simp only [threeCalls, List.mem_cons, List.not_mem_nil, or_false] at hc
    rcases hc with rfl | rfl | rfl
    · exact ⟨by decide, by decide, (by decide : NameLike (str "3"))⟩
    · exact ⟨by decide, by decide, ⟨[str "1", str "12"], by decide, rfl⟩⟩
    · show NameLike _
      decide
  · decide

end StoneHMI
