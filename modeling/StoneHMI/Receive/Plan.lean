/-
  StoneHMI.Receive.Plan
  ─────────────────────
  **WHAT A WIDGET FRAME CARRIES, APART FROM WHERE IT GOES.**

  Every decoder that names a widget first works out, from the receive buffer
  and LEN alone, a `Plan`: the new widget block, and whichever of value,
  float and text the frame brings.  Only then do `STONER`'s old contents and
  `widget_last_len` matter.  `run_eq_plan` proves that each decoder of
  Receive.Stoner is its plan, applied.

  What `stone_cmd` reads through the posted pointer is a `Contents`.
  `contents_apply` says how a plan changes it: the widget is always replaced,
  the float and the text only where the frame carries one.
-/
import StoneHMI.Receive.Stoner

namespace StoneHMI

open CMemory Receiver

/-! ## §1. Plans. -/

/-- What a frame of a widget brings: the new widget block and the `len` it was
allocated for, `value` as a function of `long_value`, the float, the text block
with its `len`, and the `strlen` left in `widget_len`. -/
structure Plan where
  widget : Block
  widgetLen : ℕ
  value : Option (BitVec 32 → BitVec 32) := none
  float : Option (BitVec 32) := none
  text : Option (Block × ℕ) := none
  nameLen : Option ℕ := none

namespace Receiver

/-- `widgetinit` followed by what the decoder writes into the new block. -/
def newWidget (b : Block) (len : ℕ) (s : Receiver) : Receiver :=
  { (s.logClear s.STONER.widget s.widget_last_len).setWidget b with widget_last_len := len }

/-- The same for `textinit`. -/
def newText (b : Block) (len : ℕ) (s : Receiver) : Receiver :=
  { (s.logClear s.STONER.text s.widget_last_len).setText b with widget_last_len := len }

/-- The same for `datainit`, after the clearing it does first. -/
def newData (b : Block) (len : ℕ) (s : Receiver) : Receiver :=
  { s.setData b with widget_last_len := len }

@[simp] theorem STONER_logClear (p : Option Block) (n : ℕ) (s : Receiver) :
    (s.logClear p n).STONER = s.STONER := by
  cases p <;> rfl

@[simp] theorem widget_len_logClear (p : Option Block) (n : ℕ) (s : Receiver) :
    (s.logClear p n).widget_len = s.widget_len := by
  cases p <;> rfl

@[simp] theorem STONER_newWidget (b : Block) (len : ℕ) (s : Receiver) :
    (s.newWidget b len).STONER = { s.STONER with widget := some b } := by
  unfold newWidget setWidget
  rw [STONER_logClear]

@[simp] theorem STONER_newText (b : Block) (len : ℕ) (s : Receiver) :
    (s.newText b len).STONER = { s.STONER with text := some b } := by
  unfold newText setText
  rw [STONER_logClear]

end Receiver

/-- Carrying the plan out. -/
def Plan.apply (p : Plan) (s : Receiver) : Receiver :=
  let long_value := s.STONER.long_value
  let s := s.newWidget p.widget p.widgetLen
  let s := match p.value with
    | some v => s.setValue (v long_value)
    | none => s
  let s := match p.nameLen with
    | some n => s.setWidgetLen n
    | none => s
  let s := match p.float with
    | some f => s.setFloat f
    | none => s
  match p.text with
  | some (b, n) => s.newText b n
  | none => s

/-! ## §2. The decoders' plans. -/

/-- The block `copyWidget` fills: `len - k` zeros, then `len - j` bytes over them. -/
def widgetOf (k j : ℤ) (rx : List UInt8) (len : ℕ) : Except Fault Block := do
  let b ← allocate (len - k)
  let bs ← slice rx 7 (len - j)
  b.store bs

/-- Two bytes, high byte first. -/
def value2 (rx : List UInt8) (i : ℕ) : Except Fault (BitVec 32) := do
  let hi ← read rx i
  let lo ← read rx (i + 1)
  pure (pairValue hi lo)

/-- The plan of each decoder; the system frames, which name no widget, have none. -/
def Decoder.plan : Decoder → List UInt8 → ℕ → Option (Except Fault Plan)
  | .sysScan, _, _ => none
  | .sysVersion, _, _ => none
  | .btn, rx, len => some do
      let w ← widgetOf 0 1 rx len
      let v ← read rx (7 + len - 1)
      pure { widget := w, widgetLen := len, value := some fun _ => BitVec.ofNat 32 v.toNat }
  | .slider, rx, len => some do
      let w ← widgetOf 3 4 rx len
      let f ← write_hex_to_float rx (7 + len - 4)
      pure { widget := w, widgetLen := len - 3, float := some f }
  | .dataText, rx, len => some do
      let w ← scanInto isQuote rx 8 (Block.fresh 40)
      let n : ℤ := len - w.cstr.length - 3
      let t ← allocate n
      let bs ← slice rx (10 + w.cstr.length) n
      let t ← t.store (bs ++ [0])
      pure { widget := w, widgetLen := 40, text := some (t, n.toNat), nameLen := some w.cstr.length }
  | .fourByte, rx, len => some do
      let w ← widgetOf 3 4 rx len
      let _ ← read rx (7 + len - 4)
      let _ ← read rx (7 + len - 3)
      let _ ← read rx (7 + len - 2)
      let b3 ← read rx (7 + len - 1)
      pure
        { widget := w, widgetLen := len - 3,
          value := some fun long_value => long_value <<< 8 ||| BitVec.ofNat 32 b3.toNat }
  | .ieee, rx, len => some do
      let w ← widgetOf 3 4 rx len
      let f ← write_hex_to_float rx (7 + w.cstr.length)
      pure { widget := w, widgetLen := len - 3, float := some f, nameLen := some w.cstr.length }
  | .image, rx, len => some do
      let w ← widgetOf 0 2 rx len
      let v ← value2 rx (7 + len - 2)
      pure { widget := w, widgetLen := len, value := some fun _ => v }
  | .chartView, rx, len => some do
      let w ← widgetOf 5 6 rx len
      let v ← value2 rx (7 + len - 6)
      let f ← write_hex_to_float rx (7 + len - 4)
      pure { widget := w, widgetLen := len - 5, value := some fun _ => v, float := some f }
  | .window, rx, len => some do
      let bs ← slice rx 7 len
      let w ← (Block.fresh len).store (bs ++ [0])
      pure { widget := w, widgetLen := len }

/-- The `data` block of the system frames, from the receive buffer and LEN alone. -/
def Decoder.dataBlock : Decoder → List UInt8 → ℕ → Option (Except Fault Block)
  | .sysScan, rx, len => some (scanInto isTerminatorByte rx 7 (Block.fresh (len + 1)))
  | .sysVersion, rx, len => some do
      let bs ← slice rx 7 len
      (Block.fresh (len + 1)).store bs
  | _, _, _ => none

/-! ## §3. Every decoder is its plan. -/

theorem allocate_of_nonneg {len : ℤ} (h : 0 ≤ len) : allocate len = .ok (Block.fresh len.toNat) := by
  unfold allocate
  rw [if_neg (by omega)]

theorem widgetinit_eq (len : ℤ) (s : Receiver) :
    widgetinit len s = (fun b => s.newWidget b len.toNat) <$> allocate len := by
  unfold widgetinit
  cases allocate len <;> rfl

theorem textinit_eq (len : ℤ) (s : Receiver) :
    textinit len s = (fun b => s.newText b len.toNat) <$> allocate len := by
  unfold textinit
  cases allocate len <;> rfl

theorem datainit_eq (len : ℤ) (s : Receiver) :
    datainit len s
      = dataClear s >>= fun t => (fun b => t.newData b len.toNat) <$> allocate len := by
  unfold datainit
  cases allocate len <;> rfl

/-- Clearing for `datainit` touches the widget's bytes and the record only. -/
theorem dataClear_frame {s t : Receiver} (h : dataClear s = .ok t) :
    t.STONER = { s.STONER with
      widget := if s.STONER.data = none then s.STONER.widget
        else s.STONER.widget.map (Block.clear s.widget_last_len) }
    ∧ t.widget_last_len = s.widget_last_len := by
  unfold dataClear at h
  -- `data` is NULL, both are allocated, or only `data` is
  split at h
  · rename_i hd
    cases h
    rw [if_pos hd]
    exact ⟨rfl, rfl⟩
  · rename_i b w hd hw
    cases h
    rw [if_neg (by rw [hd]; simp), hw]
    exact ⟨rfl, rfl⟩
  · rename_i b hd hw
    split at h
    · cases h
      rw [if_neg (by rw [hd]; simp)]
      refine ⟨?_, rfl⟩
      obtain ⟨⟨_, _, _, _, _, _, _, _⟩, _, _, _⟩ := s
      cases hw
      rfl
    · cases h

@[simp] theorem setWidget_newWidget (w b : Block) (len : ℕ) (s : Receiver) :
    (s.newWidget b len).setWidget w = s.newWidget w len := rfl

@[simp] theorem setText_newText (t b : Block) (len : ℕ) (s : Receiver) :
    (s.newText b len).setText t = s.newText t len := rfl

@[simp] theorem STONER_setWidgetLen (n : ℕ) (s : Receiver) :
    (s.setWidgetLen n).STONER = s.STONER := rfl

@[simp] theorem widget_len_newText (t : Block) (len : ℕ) (s : Receiver) :
    (s.newText t len).widget_len = s.widget_len := by
  show (s.logClear s.STONER.text s.widget_last_len).widget_len = s.widget_len
  rw [widget_len_logClear]

@[simp] theorem widget_len_setWidgetLen (n : ℕ) (s : Receiver) :
    (s.setWidgetLen n).widget_len = n := rfl

@[simp] theorem len_setValue (v : BitVec 32) (s : Receiver) :
    (s.setValue v).STONER.len = s.STONER.len := rfl

@[simp] theorem long_value_setValue (v : BitVec 32) (s : Receiver) :
    (s.setValue v).STONER.long_value = s.STONER.long_value := rfl

@[simp] theorem setValue_setValue (v w : BitVec 32) (s : Receiver) :
    (s.setValue v).setValue w = s.setValue w := rfl

@[simp] theorem deref_some (b : Block) : deref (some b) = .ok b := rfl

theorem copyWidget_eq (k j : ℤ) (rx : List UInt8) (s : Receiver) :
    copyWidget k j rx s
      = (fun w => s.newWidget w ((s.STONER.len : ℤ) - k).toNat) <$>
          widgetOf k j rx s.STONER.len := by
  unfold copyWidget widgetOf
  rw [widgetinit_eq]
  simp only [map_eq_pure_bind, bind_assoc, pure_bind, STONER_newWidget, deref_some, ok_bind,
    setWidget_newWidget]

theorem readValue2_eq (rx : List UInt8) (i : ℕ) (s : Receiver) :
    readValue2 rx i s = (fun v => s.setValue v) <$> value2 rx i := by
  unfold readValue2 value2
  simp only [map_eq_pure_bind, bind_assoc, pure_bind]

/-- **Each widget decoder works out its plan and applies it.** -/
theorem run_eq_plan (d : Decoder) (rx : List UInt8) (s : Receiver) (p : Except Fault Plan)
    (hp : d.plan rx s.STONER.len = some p) : d.run rx s = (·.apply s) <$> p := by
  have h0 : ((s.STONER.len : ℤ) - 0).toNat = s.STONER.len := by omega
  have h3 : ((s.STONER.len : ℤ) - 3).toNat = s.STONER.len - 3 := by omega
  have h5 : ((s.STONER.len : ℤ) - 5).toNat = s.STONER.len - 5 := by omega
  -- each decoder: its accesses to the buffer do not depend on the old `STONER`
  cases d with
  | sysScan => cases hp
  | sysVersion => cases hp
  | btn =>
      cases hp
      simp only [Decoder.run, case_btn_switch_ckbtn_rdbtn, copyWidget_eq, map_eq_pure_bind,
        bind_assoc, pure_bind, STONER_newWidget, h0]
      rfl
  | slider =>
      cases hp
      simp only [Decoder.run, case_slider_porgressbar, copyWidget_eq, map_eq_pure_bind,
        bind_assoc, pure_bind, STONER_newWidget, h3]
      rfl
  | dataText =>
      cases hp
      simp only [Decoder.run, case_data_text, widgetinit_eq, textinit_eq, map_eq_pure_bind,
        bind_assoc, pure_bind, STONER_newWidget, deref_some, ok_bind,
        allocate_of_nonneg (by decide : (0 : ℤ) ≤ 40), setWidget_newWidget, STONER_setWidgetLen,
        widget_len_setWidgetLen, STONER_newText, widget_len_newText, setText_newText]
      rfl
  | fourByte =>
      cases hp
      simp only [Decoder.run, case_4_byte_data, copyWidget_eq, map_eq_pure_bind,
        bind_assoc, pure_bind, STONER_newWidget, len_setValue, long_value_setValue,
        setValue_setValue, h3]
      rfl
  | ieee =>
      cases hp
      simp only [Decoder.run, case_4_byte_ieee_value, copyWidget_eq, map_eq_pure_bind,
        bind_assoc, pure_bind, STONER_newWidget, deref_some, ok_bind, widget_len_setWidgetLen, h3]
      rfl
  | image =>
      cases hp
      simp only [Decoder.run, case_image, copyWidget_eq, readValue2_eq, map_eq_pure_bind,
        bind_assoc, pure_bind, STONER_newWidget, h0]
      rfl
  | chartView =>
      cases hp
      simp only [Decoder.run, case_chart_view_value, copyWidget_eq, readValue2_eq,
        map_eq_pure_bind, bind_assoc, pure_bind, STONER_newWidget, len_setValue, h5]
      rfl
  | window =>
      cases hp
      simp only [Decoder.run, case_displayed_window, widgetinit_eq, map_eq_pure_bind,
        bind_assoc, pure_bind, STONER_newWidget, deref_some, ok_bind, setWidget_newWidget,
        allocate_of_nonneg (Int.natCast_nonneg s.STONER.len), Int.toNat_natCast]
      rfl

/-- **Each system decoder clears, and then makes its block the new `data`.** -/
theorem run_eq_dataBlock (d : Decoder) (rx : List UInt8) (s : Receiver) (b : Except Fault Block)
    (hb : d.dataBlock rx s.STONER.len = some b) :
    d.run rx s
      = dataClear s >>= fun t => (fun b => t.newData b (s.STONER.len + 1)) <$> b := by
  have hn : (s.STONER.len : ℤ) + 1 = ((s.STONER.len + 1 : ℕ) : ℤ) := by omega
  have halloc : allocate ((s.STONER.len + 1 : ℕ) : ℤ) = .ok (Block.fresh (s.STONER.len + 1)) :=
    allocate_of_nonneg (Int.natCast_nonneg _)
  cases d with
  | sysScan =>
      cases hb
      show case_sys_scan rx s = _
      unfold case_sys_scan
      rw [hn, datainit_eq, halloc]
      cases dataClear s with
      | error e => rfl
      | ok t =>
          show (scanInto isTerminatorByte rx 7 (Block.fresh (s.STONER.len + 1)) >>= _) = _ <$> _
          rw [map_eq_pure_bind]
          rfl
  | sysVersion =>
      cases hb
      show case_sys_version rx s = _
      unfold case_sys_version
      rw [hn, datainit_eq, halloc]
      cases hc : dataClear s with
      | error e => rfl
      | ok t =>
          -- clearing leaves LEN alone
          have hlen : t.STONER.len = s.STONER.len := by rw [(dataClear_frame hc).1]
          show (slice rx 7 t.STONER.len >>= fun bs =>
            (Block.fresh (s.STONER.len + 1)).store bs >>= _) = _ <$> _
          rw [hlen, map_eq_pure_bind, bind_assoc]
          rfl
  | btn | slider | dataText | fourByte | ieee | image | chartView | window => cases hb

/-- Every decoder has a plan or a data block. -/
theorem Decoder.plan_or_dataBlock (d : Decoder) (rx : List UInt8) (len : ℕ) :
    (∃ p, d.plan rx len = some p) ∨ ∃ b, d.dataBlock rx len = some b := by
  cases d with
  | sysScan | sysVersion => exact Or.inr ⟨_, rfl⟩
  | btn | slider | dataText | fourByte | ieee | image | chartView | window => exact Or.inl ⟨_, rfl⟩

/-! ## §4. What `stone_cmd` can see of a plan. -/

/-- What the posted pointer shows: the C strings behind `widget` and `text`,
`none` for `NULL`, and the float's bit pattern. -/
structure Contents where
  widget : Option (List UInt8)
  float_value : BitVec 32
  text : Option (List UInt8)
  deriving DecidableEq, Repr

def Receiver.contents (s : Receiver) : Contents :=
  { widget := s.STONER.widget.map Block.cstr
    float_value := s.STONER.float_value
    text := s.STONER.text.map Block.cstr }

/-- What a frame itself says: a widget's name, and a float or a text if it
carries one. -/
structure Item where
  widget : List UInt8
  float : Option (BitVec 32)
  text : Option (List UInt8)
  deriving DecidableEq, Repr

/-- The contents after the item arrives: what it does not carry stays. -/
def Item.onto (i : Item) (c : Contents) : Contents :=
  { widget := some i.widget
    float_value := i.float.getD c.float_value
    text := i.text.or c.text }

def Plan.item (p : Plan) : Item :=
  { widget := p.widget.cstr
    float := p.float
    text := p.text.map fun t => t.1.cstr }

/-- `widget_last_len` after the plan: the last `init` of the frame set it. -/
def Plan.lastLen (p : Plan) : ℕ :=
  match p.text with
  | some (_, n) => n
  | none => p.widgetLen

theorem STONER_apply (p : Plan) (s : Receiver) :
    (p.apply s).STONER =
      { s.STONER with
        value := (p.value.map fun v => v s.STONER.long_value).getD s.STONER.value
        float_value := p.float.getD s.STONER.float_value
        widget := some p.widget
        text := (p.text.map Prod.fst).or s.STONER.text } := by
  obtain ⟨w, n, v, f, t, m⟩ := p
  unfold Plan.apply
  -- what the frame does not bring is not touched
  cases v <;> cases m <;> cases f <;> cases t <;>
    simp [setValue, setWidgetLen, setFloat, newText, setText]

theorem contents_apply (p : Plan) (s : Receiver) :
    (p.apply s).contents = p.item.onto s.contents := by
  unfold Receiver.contents
  rw [STONER_apply]
  obtain ⟨w, n, v, f, t, m⟩ := p
  cases t <;> rfl

theorem widget_last_len_apply (p : Plan) (s : Receiver) :
    (p.apply s).widget_last_len = p.lastLen := by
  obtain ⟨w, n, v, f, t, m⟩ := p
  cases v <;> cases m <;> cases f <;> cases t <;> rfl

/-- The clearing a plan does: the old widget block with the old length, and
the old text block with the length the widget was just given. -/
theorem clears_apply (p : Plan) (s : Receiver) :
    (p.apply s).clears
      = s.clears
        ++ (s.STONER.widget.map fun b => ⟨b.size, s.widget_last_len⟩).toList
        ++ (p.text.bind fun _ => s.STONER.text.map fun b => ⟨b.size, p.widgetLen⟩).toList := by
  have hlog : ∀ (q : Option Block) (n : ℕ) (r : Receiver),
      (r.logClear q n).clears = r.clears ++ (q.map fun b => (⟨b.size, n⟩ : Clear)).toList := by
    intro q n r
    cases q with
    | none => exact (List.append_nil _).symm
    | some b => rfl
  obtain ⟨w, n, v, f, t, m⟩ := p
  unfold Plan.apply
  cases v <;> cases m <;> cases f <;> cases t <;>
    simp [setValue, setWidgetLen, setFloat, newText, newWidget, setText, setWidget, hlog]

/-! ## §5. What no decoder writes. -/

/-- A decoder leaves `cmd`, `len` and `long_value` alone. -/
theorem run_keeps {d : Decoder} {rx : List UInt8} {s t : Receiver} (h : d.run rx s = .ok t) :
    t.STONER.cmd = s.STONER.cmd ∧ t.STONER.len = s.STONER.len ∧
      t.STONER.long_value = s.STONER.long_value := by
  rcases d.plan_or_dataBlock rx s.STONER.len with ⟨p, hp⟩ | ⟨b, hb⟩
  · rw [run_eq_plan d rx s p hp] at h
    cases p with
    | error e => cases h
    | ok q =>
        cases h
        rw [STONER_apply]
        exact ⟨rfl, rfl, rfl⟩
  · rw [run_eq_dataBlock d rx s b hb] at h
    obtain ⟨u, hu, h⟩ := ok_of_bind h
    cases b with
    | error e => cases h
    | ok blk =>
        cases h
        have hframe := (dataClear_frame hu).1
        show u.STONER.cmd = _ ∧ u.STONER.len = _ ∧ u.STONER.long_value = _
        rw [hframe]
        exact ⟨rfl, rfl, rfl⟩

/-- `receive_parse` stores CMD and LEN, and leaves `long_value` alone. -/
theorem receive_parse_keeps {rx : List UInt8} (hrx : 7 ≤ rx.length) {s t : Receiver} {p : Bool}
    (h : receive_parse rx s = .ok (t, p)) :
    t.STONER.cmd = frameCmd rx ∧ t.STONER.len = frameLen rx ∧
      t.STONER.long_value = s.STONER.long_value := by
  cases hd : decoderOf (frameCmd rx) with
  | none =>
      rw [receive_parse_ignored hrx hd] at h
      cases h
      exact ⟨rfl, rfl, rfl⟩
  | some d =>
      rw [receive_parse_handled hrx hd] at h
      obtain ⟨u, hu, h⟩ := ok_of_map h
      cases h
      exact run_keeps hu

end StoneHMI
