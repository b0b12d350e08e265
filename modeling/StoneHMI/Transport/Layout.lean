/-
  StoneHMI.Transport.Layout
  ─────────────────────────
  **FRAMES AS A TABLE SAYS.**

  A command's frame is a table (`Layout`): its code, the members with texts of
  its own, and one member for each argument.  A slot says how an argument is
  printed and read.  Printing a layout with one `sprintf`, the JSON object it
  makes and reading the arguments back are proved once, for every layout.

    §1  layouts        §2  frames of a layout        §3  one format
-/
import Mathlib.Data.List.Nodup
import StoneHMI.Transport.Stream

namespace StoneHMI

open CText CMemory Json TxBuf

/-! ## §1. Layouts. -/

/-- A text that stands for itself in a name, a string and a format. -/
def Literal (s : List UInt8) : Prop := ∀ b ∈ s, PlainByte b ∧ b ≠ 0x3e ∧ b ≠ 0x25

instance (s : List UInt8) : Decidable (Literal s) :=
  List.decidableBAll (fun b => PlainByte b ∧ b ≠ 0x3e ∧ b ≠ 0x25) s

/-- A word of a function's own. -/
structure Word where of ::
  text : String
  plain : Literal (str text) := by decide

def Word.bytes (w : Word) : List UInt8 := str w.text

/-- How an argument is printed. -/
inductive Slot where
  /-- `"%s"`, in quotes. -/
  | quoted
  /-- `%s`, a number or a boolean. -/
  | raw
  /-- `%d` -/
  | number
  /-- `"%s"` in quotes, or no member where the text does not start with `'%'`. -/
  | format
  deriving DecidableEq, Repr

/-- The members of a command: those with a text of its own, then one for each argument. -/
structure Layout where
  code : Word
  own : List (Word × Word)
  slots : List (Word × Slot)
  nodup : (str "cmd_code" :: (own.map (·.1.bytes) ++ slots.map (·.1.bytes))).Nodup := by decide

/-- An argument string of the kind the slot is for. -/
def Slot.Accepts : Slot → Arg → Prop
  | .quoted, .s w => NameLike w
  | .raw, .s w => isNumber w = true ∨ w = str "true" ∨ w = str "false"
  | .number, .d _ => True
  | .format, .s w => NameLike w
  | _, _ => False

/-- The value of an unquoted argument. -/
def rawValue (w : List UInt8) : Value :=
  if w = str "true" then .bool true else if w = str "false" then .bool false else .num w

/-- The member's text and value, if there is a member. -/
def Slot.shown : Slot → Arg → Option (List UInt8 × Value)
  | .quoted, .s w => some (quote w, .str w)
  | .raw, .s w => some (w, rawValue w)
  | .number, .d n => some (decimal n, .num (decimal n))
  | .format, .s w => if w.head? = some 0x25 then some (quote w, .str w) else none
  | _, _ => none

/-- The argument that a member holds. -/
def Slot.read : Slot → Option Value → Option Arg
  | .quoted, some (.str w) => some (.s w)
  | .raw, some (.num w) => some (.s w)
  | .raw, some (.bool b) => some (.s (str (if b then "true" else "false")))
  | .number, some (.num w) => some (.d (digitsValue w))
  | .format, none => some (.s [])
  | .format, some (.str w) => some (.s w)
  | _, _ => none

/-- The arguments of a call, read from the members of an object. -/
def Layout.read (l : Layout) (ms : List (List UInt8 × Value)) : Option (List Arg) :=
  l.slots.mapM fun s => s.2.read (member s.1.bytes ms)

/-- The members for the arguments, as texts. -/
def slotTexts (slots : List (Word × Slot)) (args : List Arg) : List (List UInt8) :=
  (slots.zip args).filterMap fun p =>
    (p.1.2.shown p.2).map fun v => quote p.1.1.bytes ++ 0x3a :: v.1

/-- The members for the arguments. -/
def slotMembers (slots : List (Word × Slot)) (args : List Arg) : List (List UInt8 × Value) :=
  (slots.zip args).filterMap fun p => (p.1.2.shown p.2).map fun v => (p.1.1.bytes, v.2)

/-- The frame with these arguments. -/
def Layout.frame (l : Layout) (args : List Arg) : List UInt8 :=
  commandFrame l.code.text (l.own.map (fun m => field m.1.text m.2.bytes) ++ slotTexts l.slots args)

/-! ## §2. Frames of a layout. -/

theorem Word.nameLike (w : Word) : NameLike (str w.text) := fun b hb =>
  ⟨(w.plain b hb).1, (w.plain b hb).2.1⟩

theorem Word.no_percent (w : Word) : 0x25 ∉ w.bytes := fun h => (w.plain _ h).2.2 rfl

theorem spells_raw {w : List UInt8} (h : isNumber w = true ∨ w = str "true" ∨ w = str "false") :
    Spells w (rawValue w) := by
  unfold rawValue
  by_cases ht : w = str "true"
  · rw [if_pos ht, ht]
    exact spells_bool true
  · by_cases hf : w = str "false"
    · rw [if_neg ht, if_pos hf, hf]
      exact spells_bool false
    · rw [if_neg ht, if_neg hf]
      exact spells_number (h.resolve_right fun h => h.elim ht hf)

/-- What a slot shows of an argument is read as its value. -/
theorem Slot.spells {slot : Slot} {a : Arg} {text : List UInt8} {v : Value}
    (h : slot.Accepts a) (hv : slot.shown a = some (text, v)) : Spells text v := by
  cases slot <;> cases a
  case quoted.s w =>
    cases hv
    exact spells_quote (NameLike.plain h)
  case raw.s w =>
    cases hv
    exact spells_raw h
  case number.d n =>
    cases hv
    exact spells_number (isNumber_decimal n)
  case format.s w =>
    by_cases hw : w.head? = some 0x25
    · rw [Slot.shown, if_pos hw] at hv
      cases hv
      exact spells_quote (NameLike.plain h)
    · rw [Slot.shown, if_neg hw] at hv
      cases hv
  all_goals cases h

/-- The members for accepted arguments. -/
theorem exists_slotFields {slots : List (Word × Slot)} {args : List Arg}
    (h : List.Forall₂ (fun s a => s.2.Accepts a) slots args) :
    ∃ fs : List Field, fs.map Field.bytes = slotTexts slots args ∧
      fs.map Field.pair = slotMembers slots args := by
  induction h with
  | nil => exact ⟨[], rfl, rfl⟩
  | @cons s a slots args ha _ ih =>
      obtain ⟨fs, hbytes, hpair⟩ := ih
      unfold slotTexts slotMembers
      rw [List.zip_cons_cons, List.filterMap_cons, List.filterMap_cons]
      cases hv : s.2.shown a with
      | none => exact ⟨fs, hbytes, hpair⟩
      | some v =>
          refine ⟨⟨s.1.bytes, v.1, v.2, s.1.nameLike.plain, Slot.spells ha hv⟩ :: fs, ?_, ?_⟩
          · rw [List.map_cons, hbytes]
            rfl
          · rw [List.map_cons, hpair]
            rfl

/-- The members with texts of the function's own, then those for the arguments. -/
theorem exists_fields (own : List (Word × Word)) {slots : List (Word × Slot)} {args : List Arg}
    (h : List.Forall₂ (fun s a => s.2.Accepts a) slots args) :
    ∃ fs : List Field,
      fs.map Field.bytes = (own.map fun m => field m.1.text m.2.bytes) ++ slotTexts slots args ∧
      fs.map Field.pair
        = (own.map fun m => (m.1.bytes, Value.str m.2.bytes)) ++ slotMembers slots args := by
  obtain ⟨fs, hbytes, hpair⟩ := exists_slotFields h
  refine ⟨(own.map fun m => textField m.1.text m.2.bytes m.1.nameLike m.2.nameLike) ++ fs, ?_, ?_⟩
  · rw [List.map_append, List.map_map, hbytes]
    rfl
  · rw [List.map_append, List.map_map, hpair]
    rfl

/-- The members of a call. -/
def Layout.members (l : Layout) (args : List Arg) : List (List UInt8 × Value) :=
  (str "cmd_code", .str l.code.bytes)
    :: (l.own.map (fun m => (m.1.bytes, Value.str m.2.bytes)) ++ slotMembers l.slots args)

/-- **A frame is a JSON object with the members of the call.** -/
theorem Layout.frame_object (l : Layout) {args : List Arg}
    (h : List.Forall₂ (fun s a => s.2.Accepts a) l.slots args) :
    ∃ fs : List Field, l.frame args = str "ST<" ++ object fs ++ frameMark ∧
      fs.map Field.pair = l.members args := by
  obtain ⟨fs, hbytes, hpair⟩ := exists_fields l.own h
  refine ⟨codeField l.code.text l.code.nameLike :: fs, ?_, ?_⟩
  · rw [← commandFrame_object, hbytes]
    rfl
  · rw [List.map_cons, hpair]
    rfl

theorem member_append_of_not_mem {key : List UInt8} {ms : List (List UInt8 × Value)}
    (h : key ∉ ms.map Prod.fst) (ms' : List (List UInt8 × Value)) :
    member key (ms ++ ms') = member key ms' := by
  have hnone : ms.find? (fun m => m.1 == key) = none := by
    rw [List.find?_eq_none]
    intro m hm hkey
    exact h (List.mem_map.mpr ⟨m, hm, beq_iff_eq.mp hkey⟩)
  unfold member
  rw [List.find?_append, hnone]
  rfl

/-- The members for the arguments have the keys of their slots. -/
theorem mem_slotMembers {slots : List (Word × Slot)} {args : List Arg} {key : List UInt8}
    (h : key ∈ (slotMembers slots args).map Prod.fst) : key ∈ slots.map (·.1.bytes) := by
  obtain ⟨m, hm, rfl⟩ := List.mem_map.mp h
  obtain ⟨p, hp, hm⟩ := List.mem_filterMap.mp hm
  obtain ⟨v, -, rfl⟩ := Option.map_eq_some_iff.mp hm
  exact List.mem_map.mpr ⟨p.1, (List.of_mem_zip hp).1, rfl⟩

/-- A slot that loses no argument: an optional format starts with `'%'` or is empty. -/
def Slot.Keeps : Slot → Arg → Prop
  | .format, .s w => w = [] ∨ w.head? = some 0x25
  | _, _ => True

theorem Slot.read_shown {slot : Slot} {a : Arg} (h : slot.Accepts a) (hkeep : slot.Keeps a) :
    slot.read ((slot.shown a).map Prod.snd) = some a := by
  cases slot <;> cases a
  case quoted.s w => rfl
  case raw.s w =>
    show Slot.raw.read (some (rawValue w)) = _
    unfold rawValue
    by_cases ht : w = str "true"
    · rw [if_pos ht, ht]
      rfl
    · by_cases hf : w = str "false"
      · rw [if_neg ht, if_pos hf, hf]
        rfl
      · rw [if_neg ht, if_neg hf]
        rfl
  case number.d n =>
    show some (Arg.d (digitsValue (decimal n))) = _
    rw [digitsValue_decimal]
  case format.s w =>
    obtain rfl | hw := hkeep
    · rfl
    · rw [Slot.shown, if_pos hw]
      rfl
  all_goals cases h

/-- Each slot finds its own member: the keys before it are others, and so are those behind. -/
theorem mapM_read {slots : List (Word × Slot)} {args : List Arg}
    (h : List.Forall₂ (fun s a => s.2.Accepts a ∧ s.2.Keeps a) slots args) :
    ∀ ms : List (List UInt8 × Value),
      (ms.map Prod.fst ++ slots.map (·.1.bytes)).Nodup →
        slots.mapM (fun s => s.2.read (member s.1.bytes (ms ++ slotMembers slots args)))
          = some args := by
  induction h with
  | nil => exact fun _ _ => rfl
  | @cons s a slots args ha _ ih =>
      intro ms hnodup
      -- the member of `s` moves over to those that have been read
      have hmove : ms ++ slotMembers (s :: slots) (a :: args)
          = (ms ++ ((s.2.shown a).map fun v => (s.1.bytes, v.2)).toList)
            ++ slotMembers slots args := by
        unfold slotMembers
        rw [List.zip_cons_cons, List.filterMap_cons, List.append_assoc]
        cases s.2.shown a <;> rfl
      have hkey : s.1.bytes ∉ ms.map Prod.fst ∧ s.1.bytes ∉ slots.map (·.1.bytes) := by
        have hout := (List.nodup_middle.mp hnodup)
        rw [List.nodup_cons, List.mem_append, not_or] at hout
        exact hout.1
      have hfind : member s.1.bytes (ms ++ slotMembers (s :: slots) (a :: args))
          = (s.2.shown a).map Prod.snd := by
        rw [member_append_of_not_mem hkey.1]
        unfold slotMembers
        rw [List.zip_cons_cons, List.filterMap_cons]
        cases hv : s.2.shown a with
        | none =>
            have hnot : s.1.bytes ∉ (slotMembers slots args).map Prod.fst := fun hmem =>
              hkey.2 (mem_slotMembers hmem)
            have hnone := member_append_of_not_mem hnot []
            rwa [List.append_nil] at hnone
        | some v =>
            show (List.find? _ ((s.1.bytes, v.2) :: _)).map _ = _
            rw [List.find?_cons_of_pos (by simp)]
            rfl
      have hrest : ((ms ++ ((s.2.shown a).map fun v => (s.1.bytes, v.2)).toList).map Prod.fst
          ++ slots.map (·.1.bytes)).Nodup := by
        cases hv : s.2.shown a with
        | none =>
            have hout := (List.nodup_middle.mp hnodup)
            simpa [hv] using (List.nodup_cons.mp hout).2
        | some v => simpa [hv, List.append_assoc] using hnodup
      rw [List.mapM_cons, hfind, Slot.read_shown ha.1 ha.2, hmove, ih _ hrest]
      rfl

/-- **The arguments of a call can be read from the members of its frame.** -/
theorem Layout.read_members (l : Layout) {args : List Arg}
    (h : List.Forall₂ (fun s a => s.2.Accepts a ∧ s.2.Keeps a) l.slots args) :
    l.read (l.members args) = some args := by
  -- before the slots stand the code and the function's own members
  refine mapM_read h ((str "cmd_code", .str l.code.bytes)
    :: l.own.map fun m => (m.1.bytes, Value.str m.2.bytes)) ?_
  rw [List.map_cons, List.map_map]
  exact l.nodup

/-- Without a format slot no argument is lost. -/
theorem keeps_of_ne_format {slots : List (Word × Slot)} {args : List Arg}
    (h : List.Forall₂ (fun s a => s.2.Accepts a) slots args) (hslots : ∀ s ∈ slots, s.2 ≠ .format) :
    List.Forall₂ (fun s a => s.2.Accepts a ∧ s.2.Keeps a) slots args := by
  induction h with
  | nil => exact .nil
  | @cons s a slots args ha _ ih =>
      have hne := hslots s List.mem_cons_self
      refine .cons ⟨ha, ?_⟩ (ih fun x hx => hslots x (List.mem_cons_of_mem s hx))
      unfold Slot.Keeps
      split
      · rename_i hs
        exact absurd hs hne
      · trivial

/-- A frame is read back. -/
theorem Layout.read_frame (l : Layout) {args : List Arg}
    (h : List.Forall₂ (fun s a => s.2.Accepts a ∧ s.2.Keeps a) l.slots args) :
    IsFrame (l.frame args) ∧ (frameMembers (l.frame args)).bind l.read = some args := by
  obtain ⟨fs, hframe, hpair⟩ := l.frame_object (h.imp fun _ _ ha => ha.1)
  rw [hframe, frameMembers_object, hpair]
  exact ⟨⟨object fs, _, rfl, parse_object fs⟩, l.read_members h⟩

/-- What spoils the text behind some members is not read at all. -/
theorem frameMembers_spoilt (code : Word) (own : List (Word × Word)) {slots : List (Word × Slot)}
    {args : List Arg} (h : List.Forall₂ (fun s a => s.2.Accepts a) slots args) {junk : List UInt8}
    (hjunk : ∀ ms k, run ⟨.more, [.obj ms k]⟩ (0x2c :: junk) = none) :
    frameMembers (STR_HEAD_CMD2 ++ quoted code.bytes
      ++ (((own.map fun m => field m.1.text m.2.bytes) ++ slotTexts slots args).map
        fun f => 0x2c :: f).flatten ++ (0x2c :: junk ++ frameMark)) = none := by
  obtain ⟨fs, hbytes, -⟩ := exists_fields own h
  -- the members are read as those of an object, up to the comma before the junk
  have hhead := commandHead_object code.nameLike fs
  have hspoilt := parse_spoilt (List.cons_ne_nil (codeField code.text code.nameLike) fs) hjunk
  have hsplit : STR_HEAD_CMD2 ++ quoted (str code.text)
      ++ ((fs.map Field.bytes).map fun f => 0x2c :: f).flatten ++ (0x2c :: junk ++ frameMark)
      = str "ST<" ++ 0x7b :: (commaList ((codeField code.text code.nameLike :: fs).map Field.bytes)
        ++ 0x2c :: junk) ++ frameMark := by
    rw [hhead]
    simp only [List.append_assoc, List.cons_append]
  rw [hbytes] at hsplit
  show frameMembers (STR_HEAD_CMD2 ++ quoted (str code.text) ++ _ ++ _) = _
  rw [hsplit, frameMembers_body, hspoilt]

theorem slotTexts_append {slots : List (Word × Slot)} {args : List Arg}
    (h : slots.length = args.length) (slots' : List (Word × Slot)) (args' : List Arg) :
    slotTexts (slots ++ slots') (args ++ args') = slotTexts slots args ++ slotTexts slots' args' := by
  unfold slotTexts
  rw [List.zip_append h, List.filterMap_append]

/-! ## §3. One format. -/

/-- The conversion of a slot. -/
def Slot.conversion : Slot → List UInt8
  | .quoted => str "\"%s\""
  | .raw => str "%s"
  | .number => str "%d"
  | .format => []

/-- The format up to the slots' members. -/
def formatOf (code : Word) (own : List (Word × Word)) (slots : List (Word × Slot)) : List UInt8 :=
  STR_HEAD_CMD2 ++ quoted code.bytes
    ++ ((own.map fun m => 0x2c :: field m.1.text m.2.bytes)
      ++ slots.map fun s => 0x2c :: (quote s.1.bytes ++ 0x3a :: s.2.conversion)).flatten

theorem no_percent_quote {s : List UInt8} (h : 0x25 ∉ s) : 0x25 ∉ quote s := by
  intro hmem
  unfold quote at hmem
  rw [List.mem_cons, List.mem_append, List.mem_singleton] at hmem
  obtain hmem | hmem | hmem := hmem
  · cases hmem
  · exact h hmem
  · cases hmem

theorem Slot.sprintf_conversion {slot : Slot} {a : Arg} (h : slot.Accepts a)
    (hslot : slot ≠ .format) (g : List UInt8) (as : List Arg) :
    ∃ v, slot.shown a = some v ∧
      sprintf (slot.conversion ++ g) (a :: as) = v.1 ++ sprintf g as := by
  cases slot <;> cases a
  case quoted.s w =>
    refine ⟨(quote w, .str w), rfl, ?_⟩
    show sprintf ([0x22] ++ (0x25 :: 0x73 :: ([0x22] ++ g))) _ = _
    rw [sprintf_append _ _ _ (by decide), sprintf_s, sprintf_append _ _ _ (by decide)]
    show 0x22 :: (w ++ ([0x22] ++ sprintf g as)) = 0x22 :: ((w ++ [0x22]) ++ sprintf g as)
    rw [List.append_assoc]
  case raw.s w => exact ⟨(w, rawValue w), rfl, sprintf_s g w as⟩
  case number.d n => exact ⟨(decimal n, _), rfl, sprintf_d g n as⟩
  case format.s w => exact absurd rfl hslot
  all_goals cases h

/-- The slots' conversions print the members for the arguments. -/
theorem sprintf_slots {slots : List (Word × Slot)} {args : List Arg}
    (h : List.Forall₂ (fun s a => s.2.Accepts a) slots args) (hslots : ∀ s ∈ slots, s.2 ≠ .format)
    (g : List UInt8) (as : List Arg) :
    sprintf ((slots.map fun s => 0x2c :: (quote s.1.bytes ++ 0x3a :: s.2.conversion)).flatten ++ g)
        (args ++ as)
      = ((slotTexts slots args).map fun f => 0x2c :: f).flatten ++ sprintf g as := by
  induction h with
  | nil => rfl
  | @cons s a slots args ha _ ih =>
      have hkey : 0x25 ∉ 0x2c :: (quote s.1.bytes ++ [0x3a]) := by
        intro hmem
        rw [List.mem_cons, List.mem_append, List.mem_singleton] at hmem
        obtain hmem | hmem | hmem := hmem
        · cases hmem
        · exact no_percent_quote s.1.no_percent hmem
        · cases hmem
      -- the text up to the conversion holds no `'%'`, and the conversion takes the argument `a`
      obtain ⟨v, hv, hconv⟩ := Slot.sprintf_conversion ha (hslots s List.mem_cons_self)
        ((slots.map fun s => 0x2c :: (quote s.1.bytes ++ 0x3a :: s.2.conversion)).flatten ++ g)
        (args ++ as)
      have htexts : slotTexts (s :: slots) (a :: args)
          = (quote s.1.bytes ++ 0x3a :: v.1) :: slotTexts slots args := by
        unfold slotTexts
        rw [List.zip_cons_cons, List.filterMap_cons, hv]
        rfl
      have hsplit : ((s :: slots).map fun s =>
          0x2c :: (quote s.1.bytes ++ 0x3a :: s.2.conversion)).flatten ++ g
          = (0x2c :: (quote s.1.bytes ++ [0x3a])) ++ (s.2.conversion
            ++ ((slots.map fun s => 0x2c :: (quote s.1.bytes ++ 0x3a :: s.2.conversion)).flatten
              ++ g)) := by
        rw [List.map_cons, List.flatten_cons]
        simp only [List.append_assoc, List.cons_append, List.nil_append]
      rw [List.cons_append, hsplit, sprintf_append _ _ _ hkey, hconv,
        ih fun t ht => hslots t (List.mem_cons_of_mem s ht), htexts, List.map_cons,
        List.flatten_cons]
      simp only [List.append_assoc, List.cons_append, List.nil_append]

/-- What one `sprintf` with the layout's format prints. -/
theorem sprintf_formatOf (code : Word) (own : List (Word × Word)) {slots : List (Word × Slot)}
    {args : List Arg} (h : List.Forall₂ (fun s a => s.2.Accepts a) slots args)
    (hslots : ∀ s ∈ slots, s.2 ≠ .format) (g : List UInt8) (as : List Arg) :
    sprintf (formatOf code own slots ++ g) (args ++ as)
      = STR_HEAD_CMD2 ++ quoted code.bytes
        ++ (((own.map fun m => field m.1.text m.2.bytes) ++ slotTexts slots args).map
          fun f => 0x2c :: f).flatten ++ sprintf g as := by
  have hown : 0x25 ∉ (own.map fun m => 0x2c :: field m.1.text m.2.bytes).flatten := by
    intro hmem
    obtain ⟨w, hw, hmem⟩ := List.mem_flatten.mp hmem
    obtain ⟨m, -, rfl⟩ := List.mem_map.mp hw
    unfold field at hmem
    rw [List.mem_cons, List.mem_append, List.mem_cons] at hmem
    obtain hmem | hmem | hmem | hmem := hmem
    · cases hmem
    · exact no_percent_quote m.1.no_percent hmem
    · cases hmem
    · exact no_percent_quote m.2.no_percent hmem
  have hcode : 0x25 ∉ STR_HEAD_CMD2 ++ quoted code.bytes := by
    intro hmem
    rcases List.mem_append.mp hmem with hmem | hmem
    · exact absurd hmem (by decide)
    · exact no_percent_quote code.no_percent hmem
  unfold formatOf
  rw [List.flatten_append, List.append_assoc (STR_HEAD_CMD2 ++ quoted code.bytes),
    List.append_assoc (List.flatten _), sprintf_append _ _ _ hcode, sprintf_append _ _ _ hown,
    sprintf_slots h hslots, List.map_append, List.map_map, List.flatten_append]
  simp only [List.append_assoc]
  rfl

/-- A function that prints its layout with one `sprintf` sends its frame. -/
theorem prints_layout {l : Layout} {args : List Arg} {format : List UInt8} {f : TxBuf → Sent}
    (h : List.Forall₂ (fun s a => s.2.Accepts a) l.slots args)
    (hslots : ∀ s ∈ l.slots, s.2 ≠ .format) (hf : f = TxBuf.send (sprintf format args))
    (hformat : format = formatOf l.code l.own l.slots ++ STR_END) : Prints f (l.frame args) := by
  have hend : sprintf STR_END [] = STR_END := by decide
  have hprint := sprintf_formatOf l.code l.own h hslots STR_END []
  rw [List.append_nil, hend] at hprint
  rw [hf, hformat, hprint]
  exact prints_send _

end StoneHMI
