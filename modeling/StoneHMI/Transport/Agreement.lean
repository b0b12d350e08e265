/-
  StoneHMI.Transport.Agreement
  ────────────────────────────
  **TWO WAYS TO SEND A COMMAND — its function, or `STONE_JSON` pair by pair.**

  A function has the quotes of its values in its format.  `STONE_JSON` goes by
  the name alone: a value is a number if `STR_TYPE_NUM` has its name.

    §1  pairs                             §4  whose quotes are the same
    §2  when two texts are the same       §5  both ways
    §3  the functions' pairs

  `stone_json_agrees_iff` says for which functions both hand over one frame.
-/
import StoneHMI.Transport.Packets
import StoneHMI.Transport.Reader

namespace StoneHMI

open CText CMemory Json TxBuf

/-! ## §1. Pairs. -/

/-- A name and a value of a frame; a `bare` value stands without quotes. -/
structure Pair where
  name : List UInt8
  value : List UInt8
  bare : Bool

namespace Pair

/-- The pair in the frame. -/
def text (q : Pair) : List UInt8 :=
  quoted q.name ++ 0x3a :: (if q.bare then q.value else quoted q.value)

/-- The pair as `STONE_JSON` prints it. -/
def jsonText (q : Pair) : List UInt8 := quoted q.name ++ 0x3a :: valueText q.name q.value

/-- `STONE_JSON` puts the value in quotes if the frame has it so. -/
def Agrees (q : Pair) : Prop := STR_TYPE_NUM q.name = q.bare

/-- The value itself does not start with a quote. -/
def Unquoted (q : Pair) : Prop := q.value.head? ≠ some 0x22

end Pair

/-- What stands behind the code: the pairs, and the end. -/
def pairsEnd (texts : List (List UInt8)) : List UInt8 :=
  (texts.map fun f => 0x2c :: f).flatten ++ STR_END

theorem commandFrame_eq (code : String) (fields : List (List UInt8)) :
    commandFrame code fields = STR_HEAD_CMD2 ++ quoted (str code) ++ pairsEnd fields := by
  unfold commandFrame pairsEnd
  rw [List.append_assoc]

theorem pairsEnd_cons (f : List UInt8) (fs : List (List UInt8)) :
    pairsEnd (f :: fs) = 0x2c :: (f ++ pairsEnd fs) := by
  unfold pairsEnd
  simp

/-! ## §2. When two texts are the same. -/

theorem pairsEnd_head (texts : List (List UInt8)) : (pairsEnd texts).head? ≠ some 0x22 := by
  cases texts with
  | nil => decide
  | cons f fs => exact nofun

/-- A text in quotes is not one that starts without. -/
theorem quoted_append_ne {w x y : List UInt8} (hw : w.head? ≠ some 0x22)
    (hx : x.head? ≠ some 0x22) : w ++ x ≠ quoted w ++ y := by
  intro h
  cases w with
  | nil =>
      refine hx ?_
      rw [show x = quoted [] ++ y from h]
      rfl
  | cons b w => exact hw (congrArg some (List.cons.inj h).1)

/-- One pair: the quotes are the same, and so is what follows. -/
theorem Pair.text_eq_iff {q : Pair} (h : q.Unquoted) {x y : List UInt8}
    (hx : x.head? ≠ some 0x22) (hy : y.head? ≠ some 0x22) :
    q.jsonText ++ x = q.text ++ y ↔ q.Agrees ∧ x = y := by
  unfold jsonText text Agrees valueText
  simp only [List.append_assoc, List.cons_append, List.append_cancel_left_eq, List.cons.injEq,
    true_and]
  -- where only one of them has quotes, the other starts without
  cases STR_TYPE_NUM q.name <;> cases q.bare
  · simp
  · simp only [Bool.false_eq_true, if_true, if_false, false_and, iff_false]
    exact fun heq => quoted_append_ne h hy heq.symm
  · simp only [Bool.false_eq_true, if_true, if_false, reduceCtorEq, false_and, iff_false]
    exact quoted_append_ne h hx
  · simp

/-- **All pairs**: the texts are the same exactly when each pair has the same quotes. -/
theorem pairsEnd_eq_iff {ps : List Pair} (h : ∀ q ∈ ps, q.Unquoted) :
    pairsEnd (ps.map Pair.jsonText) = pairsEnd (ps.map Pair.text) ↔ ∀ q ∈ ps, q.Agrees := by
  induction ps with
  | nil => exact ⟨fun _ => List.forall_mem_nil _, fun _ => rfl⟩
  | cons q ps ih =>
      obtain ⟨hq, hps⟩ := List.forall_mem_cons.mp h
      rw [List.map_cons, List.map_cons, pairsEnd_cons, pairsEnd_cons, List.forall_mem_cons,
        ← ih hps, List.cons.injEq, Pair.text_eq_iff hq (pairsEnd_head _) (pairsEnd_head _)]
      exact and_iff_right rfl

/-! ## §3. The functions' pairs. -/

/-- An argument as the string that is given to `STONE_JSON`. -/
def argString : Arg → List UInt8
  | .s w => w
  | .d n => decimal n

/-- The value stands without quotes. -/
def Slot.bare : Slot → Bool
  | .raw => true
  | .number => true
  | _ => false

/-- The pair for an argument, if it is shown. -/
def slotPair (s : Word × Slot) (a : Arg) : Option Pair :=
  (s.2.shown a).map fun _ => ⟨s.1.bytes, argString a, s.2.bare⟩

def slotPairs (slots : List (Word × Slot)) (args : List Arg) : List Pair :=
  (slots.zip args).filterMap fun p => slotPair p.1 p.2

/-- The pairs of a layout: the function's own, then those for the arguments. -/
def Layout.pairs (l : Layout) (args : List Arg) : List Pair :=
  l.own.map (fun m => ⟨m.1.bytes, m.2.bytes, false⟩) ++ slotPairs l.slots args

def Command.code : Command → String
  | .set_text _ _ _ _ => "set_text"
  | .get_text _ _ => "get_text"
  | .get_value _ _ => "get_value"
  | .set_date _ _ => "set_date"
  | .get_date _ => "get_date"
  | .get_displayed_window => "get_displayed_window"
  | .back_win => "back_win"

def Command.pairs : Command → List Pair
  | .set_text type name text multi =>
      [⟨str "type", type, false⟩, ⟨str "widget", name, false⟩, ⟨str "text", text, multi⟩]
  | .get_text type name => [⟨str "type", type, false⟩, ⟨str "widget", name, false⟩]
  | .get_value type name => [⟨str "type", type, false⟩, ⟨str "widget", name, false⟩]
  | .set_date name date =>
      [⟨str "type", str "digit_clock", false⟩, ⟨str "widget", name, false⟩,
        ⟨str "date", date, false⟩]
  | .get_date name => [⟨str "type", str "digit_clock", false⟩, ⟨str "widget", name, false⟩]
  | .get_displayed_window => [⟨str "type", str "window", false⟩]
  | .back_win => [⟨str "type", str "window", false⟩]

namespace LibraryCall

def code : LibraryCall → String
  | command c => c.code
  | widget c => c.layout.code.text
  | system c => c.layout.code.text
  | set_table_text _ _ _ => "set_table_text"

def pairs : LibraryCall → List Pair
  | command c => c.pairs
  | widget c => c.layout.pairs c.args
  | system c => c.layout.pairs c.args
  | set_table_text name text number =>
      [⟨str "type", str "table_view", false⟩, ⟨str "widget", name, false⟩, ⟨str "text", text, true⟩,
        ⟨str "mode", str "row", false⟩, ⟨str "row", decimal number.toNat, true⟩]

end LibraryCall

theorem unquoted_name {w : List UInt8} (h : NameLike w) : w.head? ≠ some 0x22 := by
  intro hhead
  have hplain := (h 0x22 (List.mem_of_head? hhead)).1
  exact hplain.2.1 rfl

theorem unquoted_number {w : List UInt8} (h : isNumber w = true) : w.head? ≠ some 0x22 := by
  intro hhead
  refine not_mem_number (b := 0x22) (fun n => ?_) h (List.mem_of_head? hhead)
  cases n <;> decide

/-- The value of a slot, as the function prints it. -/
theorem Slot.shown_text {slot : Slot} {a : Arg} {v : List UInt8 × Value}
    (h : slot.Accepts a) (hv : slot.shown a = some v) :
    v.1 = (if slot.bare then argString a else StoneHMI.quoted (argString a)) ∧
      (argString a).head? ≠ some 0x22 := by
  cases slot <;> cases a
  case quoted.s w =>
    cases hv
    exact ⟨rfl, unquoted_name h⟩
  case raw.s w =>
    cases hv
    refine ⟨rfl, ?_⟩
    rcases h with h | rfl | rfl
    · exact unquoted_number h
    · decide
    · decide
  case number.d n =>
    cases hv
    exact ⟨rfl, unquoted_number (isNumber_decimal n)⟩
  case format.s w =>
    by_cases hw : w.head? = some 0x25
    · rw [Slot.shown, if_pos hw] at hv
      cases hv
      exact ⟨rfl, unquoted_name h⟩
    · rw [Slot.shown, if_neg hw] at hv
      cases hv
  all_goals cases h

/-- The texts for the arguments are those of their pairs, whose values have no quote in front. -/
theorem slotTexts_eq {slots : List (Word × Slot)} {args : List Arg}
    (h : List.Forall₂ (fun s a => s.2.Accepts a) slots args) :
    slotTexts slots args = (slotPairs slots args).map Pair.text ∧
      ∀ q ∈ slotPairs slots args, q.Unquoted := by
  induction h with
  | nil => exact ⟨rfl, List.forall_mem_nil _⟩
  | @cons s a slots args ha _ ih =>
      unfold slotTexts slotPairs slotPair at ih ⊢
      rw [List.zip_cons_cons, List.filterMap_cons, List.filterMap_cons]
      cases hv : s.2.shown a with
      | none =>
          -- a format that is left out
          exact ih
      | some v =>
          obtain ⟨htext, hquote⟩ := Slot.shown_text ha hv
          refine ⟨?_, List.forall_mem_cons.mpr ⟨hquote, ih.2⟩⟩
          show (quote s.1.bytes ++ 0x3a :: v.1) :: _ = Pair.text _ :: _
          rw [ih.1, htext]
          rfl

theorem Layout.frame_pairs (l : Layout) {args : List Arg}
    (h : List.Forall₂ (fun s a => s.2.Accepts a) l.slots args) :
    l.frame args = commandFrame l.code.text ((l.pairs args).map Pair.text) := by
  unfold Layout.frame Layout.pairs
  rw [(slotTexts_eq h).1, List.map_append, List.map_map]
  rfl

theorem Layout.unquoted_pairs (l : Layout) {args : List Arg}
    (h : List.Forall₂ (fun s a => s.2.Accepts a) l.slots args) :
    ∀ q ∈ l.pairs args, q.Unquoted := by
  intro q hq
  rcases List.mem_append.mp hq with hq | hq
  · obtain ⟨m, -, rfl⟩ := List.mem_map.mp hq
    exact unquoted_name m.2.nameLike
  · exact (slotTexts_eq h).2 q hq

theorem unquoted_typeName {type name : List UInt8} {ps : List Pair} (htype : NameLike type)
    (hname : NameLike name) (hps : ∀ q ∈ ps, q.Unquoted) :
    ∀ q ∈ (⟨str "type", type, false⟩ : Pair) :: ⟨str "widget", name, false⟩ :: ps, q.Unquoted :=
  List.forall_mem_cons.mpr
    ⟨unquoted_name htype, List.forall_mem_cons.mpr ⟨unquoted_name hname, hps⟩⟩

theorem Command.frame_pairs {c : Command} (h : c.Accepted) :
    c.frame = some (commandFrame c.code (c.pairs.map Pair.text)) ∧ ∀ q ∈ c.pairs, q.Unquoted := by
  have hclock : NameLike (str "digit_clock") := by decide
  have hwindow : NameLike (str "window") := by decide
  have hnone : ∀ q ∈ ([] : List Pair), q.Unquoted := List.forall_mem_nil _
  cases c with
  | set_text type name text multi =>
      obtain ⟨htype, hname, htext⟩ := h
      have hquote : text.head? ≠ some 0x22 := by
        cases multi with
        | false => exact unquoted_name htext
        | true =>
            -- a list starts with its bracket
            obtain ⟨ss, -, rfl⟩ := htext
            exact nofun
      exact ⟨if_pos htype, unquoted_typeName (nameLike_of_set_text_type htype) hname
        (List.forall_mem_singleton.mpr hquote)⟩
  | get_text type name =>
      exact ⟨if_pos h.1, unquoted_typeName (nameLike_of_get_text_type h.1) h.2 hnone⟩
  | get_value type name =>
      exact ⟨if_pos h.1, unquoted_typeName (nameLike_of_set_get_value_type h.1) h.2 hnone⟩
  | set_date name date =>
      exact ⟨rfl, unquoted_typeName hclock h.1 (List.forall_mem_singleton.mpr (unquoted_name h.2))⟩
  | get_date name => exact ⟨rfl, unquoted_typeName hclock h hnone⟩
  | get_displayed_window => exact ⟨rfl, List.forall_mem_singleton.mpr (unquoted_name hwindow)⟩
  | back_win => exact ⟨rfl, List.forall_mem_singleton.mpr (unquoted_name hwindow)⟩

/-- **The frame of a call**, by its code and its pairs. -/
theorem LibraryCall.frame_pairs {c : LibraryCall} (h : c.Accepted) :
    c.frame = commandFrame c.code (c.pairs.map Pair.text) := by
  cases c with
  | command c =>
      show c.frame.getD [] = _
      rw [(Command.frame_pairs h).1]
      rfl
  | widget c => exact c.layout.frame_pairs h.2
  | system c => exact c.layout.frame_pairs h.2
  | set_table_text name text number => rfl

theorem LibraryCall.unquoted_pairs {c : LibraryCall} (h : c.Accepted) :
    ∀ q ∈ c.pairs, q.Unquoted := by
  cases c with
  | command c => exact (Command.frame_pairs h).2
  | widget c => exact c.layout.unquoted_pairs h.2
  | system c => exact c.layout.unquoted_pairs h.2
  | set_table_text name text number =>
      obtain ⟨hname, ss, -, rfl⟩ := h
      have htable : NameLike (str "table_view") := by decide
      have hrow : NameLike (str "row") := by decide
      have hlist : (stringArray ss).head? ≠ some 0x22 := nofun
      refine unquoted_typeName htable hname (List.forall_mem_cons.mpr ⟨hlist, ?_⟩)
      exact List.forall_mem_cons.mpr ⟨unquoted_name hrow,
        List.forall_mem_singleton.mpr (unquoted_number (isNumber_decimal _))⟩

/-! ## §4. Whose quotes are the same. -/

/-- The functions whose values `STONE_JSON` puts in quotes as they do. -/
def LibraryCall.SameQuotes : LibraryCall → Prop
  -- a list
  | command (.set_text _ _ _ multi) => multi = false
  | set_table_text _ _ _ => False
  -- numbers and booleans whose names `STR_TYPE_NUM` does not have
  | widget (.set_color _ _ _) => False
  | widget (.show_text _ _) => False
  | widget (.set_row_height _ _) => False
  | widget (.set_row_number _ _) => False
  | system (.set_buzzer _) => False
  | system (.set_brightness _) => False
  -- a number that its function has in quotes
  | widget (.set_angle _ _) => False
  | _ => True

theorem slotPairs_nil (args : List Arg) : slotPairs [] args = [] := rfl

theorem slotPairs_quoted (n : Word) (slots : List (Word × Slot)) (x : List UInt8)
    (args : List Arg) : slotPairs ((n, .quoted) :: slots) (.s x :: args)
      = ⟨n.bytes, x, false⟩ :: slotPairs slots args := rfl

theorem slotPairs_raw (n : Word) (slots : List (Word × Slot)) (x : List UInt8)
    (args : List Arg) : slotPairs ((n, .raw) :: slots) (.s x :: args)
      = ⟨n.bytes, x, true⟩ :: slotPairs slots args := rfl

theorem slotPairs_number (n : Word) (slots : List (Word × Slot)) (x : ℕ) (args : List Arg) :
    slotPairs ((n, .number) :: slots) (.d x :: args)
      = ⟨n.bytes, decimal x, true⟩ :: slotPairs slots args := rfl

/-- A format is in quotes, if it is there. -/
theorem agrees_format (x : List UInt8) :
    ∀ q ∈ slotPairs [(.of "format", .format)] [.s x], q.Agrees := by
  have hname : STR_TYPE_NUM (str "format") = false := by decide
  intro q hq
  obtain ⟨p, hp, hpair⟩ := List.mem_filterMap.mp hq
  obtain rfl := List.mem_singleton.mp hp
  obtain ⟨v, -, rfl⟩ := Option.map_eq_some_iff.mp hpair
  unfold Pair.Agrees
  dsimp only
  exact hname

/-- The type and the name of a widget are in quotes both ways. -/
theorem agrees_typeName {type name : List UInt8} {ps : List Pair} :
    (∀ q ∈ (⟨str "type", type, false⟩ : Pair) :: ⟨str "widget", name, false⟩ :: ps, q.Agrees) ↔
      ∀ q ∈ ps, q.Agrees := by
  have htype : STR_TYPE_NUM (str "type") = false := by decide
  have hname : STR_TYPE_NUM (str "widget") = false := by decide
  rw [List.forall_mem_cons, List.forall_mem_cons]
  exact ⟨fun h => h.2.2, fun h => ⟨htype, hname, h⟩⟩

theorem Command.agrees_iff (c : Command) :
    (∀ q ∈ c.pairs, q.Agrees) ↔ (LibraryCall.command c).SameQuotes := by
  cases c
  case set_text type name text multi =>
    simp only [pairs, List.forall_mem_cons, Pair.Agrees, LibraryCall.SameQuotes]
    cases multi <;> decide
  all_goals
    simp only [pairs, List.forall_mem_cons, Pair.Agrees, LibraryCall.SameQuotes]
    decide

theorem SystemCall.agrees_iff (c : SystemCall) :
    (∀ q ∈ c.layout.pairs c.args, q.Agrees) ↔ (LibraryCall.system c).SameQuotes := by
  cases c <;>
  · simp only [layout, args, ownType, Layout.pairs, List.map_cons, List.map_nil, List.cons_append,
      List.nil_append, slotPairs_nil, slotPairs_raw, List.forall_mem_cons, Pair.Agrees,
      LibraryCall.SameQuotes]
    decide

theorem Layout.agrees_typed {code type : Word} {slots : List (Word × Slot)}
    {nodup : (str "cmd_code" :: str "type" :: str "widget" :: slots.map (·.1.bytes)).Nodup}
    {name : List UInt8} {args : List Arg} :
    (∀ q ∈ (Layout.typed code type slots nodup).pairs (.s name :: args), q.Agrees) ↔
      ∀ q ∈ slotPairs slots args, q.Agrees :=
  agrees_typeName

theorem Layout.agrees_untyped {code : Word} {slots : List (Word × Slot)}
    {nodup : (str "cmd_code" :: str "type" :: str "widget" :: slots.map (·.1.bytes)).Nodup}
    {type name : List UInt8} {args : List Arg} :
    (∀ q ∈ (Layout.untyped code slots nodup).pairs (.s type :: .s name :: args), q.Agrees) ↔
      ∀ q ∈ slotPairs slots args, q.Agrees :=
  agrees_typeName

theorem Call.agrees_iff (c : Call) :
    (∀ q ∈ c.layout.pairs c.args, q.Agrees) ↔ (LibraryCall.widget c).SameQuotes := by
  cases c
  case set_value type name value format =>
    have hvalue : STR_TYPE_NUM (str "value") = true := by decide
    refine iff_of_true (Layout.agrees_untyped.mpr ?_) trivial
    show ∀ q ∈ (⟨str "value", value, true⟩ : Pair) :: slotPairs _ [.s format], q.Agrees
    exact List.forall_mem_cons.mpr ⟨hvalue, agrees_format format⟩
  all_goals
    simp only [layout, args, Layout.agrees_typed, Layout.agrees_untyped, slotPairs_nil,
      slotPairs_quoted, slotPairs_raw, slotPairs_number, List.forall_mem_cons]
    simp only [Pair.Agrees, LibraryCall.SameQuotes]
    decide

theorem LibraryCall.agrees_iff (c : LibraryCall) : (∀ q ∈ c.pairs, q.Agrees) ↔ c.SameQuotes := by
  cases c with
  | command c => exact c.agrees_iff
  | widget c => exact c.agrees_iff
  | system c => exact c.agrees_iff
  | set_table_text name text number =>
      simp only [pairs, List.forall_mem_cons, Pair.Agrees, SameQuotes]
      decide

/-! ## §5. Both ways. -/

/-- The packet has the code and the pairs of the call. -/
def Packet.Says (p : Packet) (c : LibraryCall) : Prop :=
  p.calls.map (fun j => (j.name, j.value))
    = (str "cmd_code", str c.code) :: c.pairs.map fun q => (q.name, q.value)

theorem intercalate_cons (x : List UInt8) (xs : List (List UInt8)) :
    List.intercalate [0x2c] (x :: xs) = x ++ (xs.map fun f => 0x2c :: f).flatten := by
  induction xs generalizing x with
  | nil => simp [List.intercalate]
  | cons y ys ih =>
      -- something follows, so a comma does
      have hstep : List.intercalate [0x2c] (x :: y :: ys)
          = x ++ ([0x2c] ++ List.intercalate [0x2c] (y :: ys)) := by
        simp [List.intercalate, List.intersperse]
      rw [hstep, ih y]
      rfl

/-- The text of such a packet. -/
theorem Packet.Says.text_eq {p : Packet} {c : LibraryCall} (h : p.Says c) :
    p.text = STR_HEAD_CMD2 ++ quoted (str c.code) ++ pairsEnd (c.pairs.map Pair.jsonText) := by
  have htexts : p.calls.map JsonCall.text
      = (quoted (str "cmd_code") ++ 0x3a :: quoted (str c.code)) :: c.pairs.map Pair.jsonText := by
    -- the code stands first, and in quotes both ways
    have hmap := congrArg (List.map fun r : List UInt8 × List UInt8 =>
      quoted r.1 ++ 0x3a :: valueText r.1 r.2) h
    rw [List.map_map, List.map_cons, List.map_map] at hmap
    have hcode : valueText (str "cmd_code") (str c.code) = quoted (str c.code) := if_neg (by decide)
    rw [hcode] at hmap
    exact hmap
  have hhead : STR_HEAD_CMD2 = STR_HEAD_CMD ++ (quoted (str "cmd_code") ++ [0x3a]) := by decide
  unfold Packet.text pairsEnd
  rw [htexts, intercalate_cons, hhead]
  simp only [List.append_assoc, List.cons_append, List.nil_append]

/-- **The packet is the frame** exactly when all values have the same quotes. -/
theorem packet_eq_frame_iff {p : Packet} {c : LibraryCall} (h : c.Accepted) (hp : p.Says c) :
    p.text = c.frame ↔ c.SameQuotes := by
  rw [hp.text_eq, LibraryCall.frame_pairs h, commandFrame_eq, List.append_cancel_left_eq,
    pairsEnd_eq_iff (LibraryCall.unquoted_pairs h), c.agrees_iff]

theorem Layout.length_pairs (l : Layout) (args : List Arg) :
    (l.pairs args).length ≤ l.own.length + l.slots.length := by
  unfold Layout.pairs slotPairs
  rw [List.length_append, List.length_map]
  have hfilter := List.length_filterMap_le (fun p : (Word × Slot) × Arg => slotPair p.1 p.2)
    (l.slots.zip args)
  rw [List.length_zip] at hfilter
  omega

/-- No function has more than five pairs behind its code. -/
theorem LibraryCall.length_pairs (c : LibraryCall) : c.pairs.length ≤ 5 := by
  cases c with
  | command c => cases c <;> exact Nat.le_of_ble_eq_true rfl
  | widget c =>
      refine Nat.le_trans (c.layout.length_pairs c.args) ?_
      cases c <;> exact Nat.le_of_ble_eq_true rfl
  | system c =>
      refine Nat.le_trans (c.layout.length_pairs c.args) ?_
      cases c <;> exact Nat.le_of_ble_eq_true rfl
  | set_table_text name text number => exact Nat.le_refl 5

/-- **ONE FRAME BOTH WAYS, EXACTLY**: the function and the calls of `STONE_JSON` with its names
and values, from `json_create == 0`, hand over the same bytes exactly when `STR_TYPE_NUM` has
the names of the function's unquoted values, and no others. -/
theorem stone_json_agrees_iff {c : LibraryCall} (haccept : c.Accepted) (hsound : c.Sound)
    {p : Packet} (hp : p.Says c) (hfit : p.text.length < TX_LEN) (t : TxBuf) {s : JsonTx}
    (hs : s.json_create = 0) :
    (∃ u s' ws, c.call t = .ok (u, ws) ∧ runCalls p.calls s = .ok (s', ws)) ↔ c.SameQuotes := by
  have hprints : Prints c.call c.frame := (LibraryCall.carried haccept hsound).prints
  -- few enough pairs that `json_create` does not wrap
  have hcount : p.front.length ≤ 255 := by
    have hlen := congrArg List.length hp
    rw [List.length_map, List.length_cons, List.length_map] at hlen
    have hcalls : p.calls.length = p.front.length + 1 := List.length_append
    have hpairs := c.length_pairs
    omega
  obtain ⟨v, hrun, -⟩ := runCalls_packet hs hcount hfit
  rw [← packet_eq_frame_iff haccept hp]
  constructor
  · rintro ⟨u, s', ws, hcall, hjson⟩
    rw [hprints.sent hcall, hrun] at hjson
    exact List.singleton_inj.mp (congrArg Prod.snd (Except.ok.inj hjson))
  · intro hsame
    rw [hsame] at hfit hrun
    obtain ⟨u, hcall⟩ := hprints.exists_sent hfit t
    exact ⟨u, _, _, hcall, hrun⟩

/-- The other packet of the usage comment. -/
def valuePacket : Packet where
  front :=
    [{ name := str "cmd_code", value := str "set_value", fin := 0 },
      { name := str "type", value := str "label", fin := 0 },
      { name := str "widget", value := str "label2", fin := 0 },
      { name := str "value", value := str "1.23", fin := 0 }]
  name := str "format"
  value := str "%.2f"
  unfinished := List.all_iff_forall_prop.mp (by decide)

/-- `set_value("label", "label2", "1.23", "%.2f")` -/
def valueCall : LibraryCall :=
  .widget (.set_value (str "label") (str "label2") (str "1.23") (str "%.2f"))

/-- It is sent alike. -/
theorem stone_json_agrees_set_value :
    ∃ u s' ws, valueCall.call TxBuf.zero = .ok (u, ws) ∧
      runCalls valuePacket.calls ⟨TxBuf.zero, 0⟩ = .ok (s', ws) := by
  have hargs : List.Forall₂ (fun s a => Slot.Accepts s.2 a) valueLayout.slots
      [.s (str "label"), .s (str "label2"), .s (str "1.23"), .s (str "%.2f")] :=
    .cons (by decide : NameLike (str "label")) (.cons (by decide : NameLike (str "label2"))
      (.cons (Or.inl (by decide : isNumber (str "1.23") = true))
        (.cons (by decide : NameLike (str "%.2f")) .nil)))
  have haccept : valueCall.Accepted := ⟨by decide, hargs⟩
  have hsound : valueCall.Sound := Or.inr (by decide)
  have hsays : valuePacket.Says valueCall := by
    unfold Packet.Says
    decide
  have hfit : valuePacket.text.length < TX_LEN := by decide
  exact (stone_json_agrees_iff haccept hsound hsays hfit TxBuf.zero rfl).mpr trivial

end StoneHMI
