/-
  StoneHMI.System.Stale
  ─────────────────────
  **DOES AN ACTION DEPEND ON OLDER FRAMES?**

  Two boards that received different frames so far now receive the same one.
  `NoStaleAction` says that `stone_cmd` then does the same on both, from any
  state of the controller.

  A decoder replaces what its frame carries and leaves the rest of `STONER`
  (`Item.onto`), and `stone_cmd` reads what the widget's branch wants, carried
  or not.  `noStaleAction_iff` is exact for every buffer that is posted: the
  frame names a widget, and its command is one that brings the float or the
  text that the widget's branch reads.
-/
import StoneHMI.Receive.Buffer
import StoneHMI.Controller.Ctl

namespace StoneHMI

open CText CMemory Receiver

/-! ## §1. Two runs. -/

/-- After the buffers `history`, `rx` is decoded and posted, and the posted
pointer then shows `c`. -/
def PostedAfter (history : List RxBuf) (rx : RxBuf) (c : Contents) : Prop :=
  ∃ s t, decodeAll Receiver.init history = .ok s ∧
    receive_parse rx.bytes s = .ok (t, true) ∧ t.contents = c

/-- `rx` is posted, at least after some history. -/
def Posted (rx : RxBuf) : Prop := ∃ history c, PostedAfter history rx c

/-- **No stale action.**  Whatever came before `rx`, handling it does the same. -/
def NoStaleAction (P : Platform) (rx : RxBuf) : Prop :=
  ∀ h₁ h₂ c₁ c₂, PostedAfter h₁ rx c₁ → PostedAfter h₂ rx c₂ →
    ∀ ctl, stone_cmd P c₁ ctl = stone_cmd P c₂ ctl

/-! ## §2. What the frame carries and what its branch reads. -/

/-- The branches that read `float_value`. -/
def Handler.readsFloat : Handler → Bool
  | .FREQ1 | .FREQ2 => true
  | _ => false

/-- The branches that read `text`. -/
def Handler.readsText : Handler → Bool
  | .user_time_edit | .digit_clock1 | .label_timer_count_down => true
  | _ => false

/-- **The condition.**  The frame names a widget, and its command brings what
that widget's branch reads. -/
def SelfContained (rx : RxBuf) : Prop :=
  ∃ d i, decoderOf (frameCmd rx.bytes) = some d ∧ itemOf rx = some i ∧
    ∀ hd, handlerOf i.widget = some hd →
      (hd.readsFloat = true → d.bringsFloat = true) ∧ (hd.readsText = true → d.bringsText = true)

/-! ## §3. The branches. -/

/-- A branch depends on the float and the text only if it reads them. -/
theorem Handler.run_congr (P : Platform) {f g : BitVec 32} {x y : Option (List UInt8)} (s : Ctl)
    {hd : Handler} (hf : hd.readsFloat = true → f = g) (hx : hd.readsText = true → x = y) :
    hd.run P f x s = hd.run P g y s := by
  cases hd with
  | FREQ1 | FREQ2 =>
      rw [hf rfl]
      rfl
  | user_time_edit | digit_clock1 | label_timer_count_down =>
      rw [hx rfl]
      rfl
  | P01 | P02 | history | W01 | W02 => rfl

/-- The float 2.0. -/
def twoF : BitVec 32 := 0x40000000

/-- A branch that reads the float does something else for 0.0 and for 2.0. -/
theorem Handler.run_float_ne (P : Platform) {hd : Handler} (h : hd.readsFloat = true)
    (x y : Option (List UInt8)) : hd.run P 0 x Ctl.init ≠ hd.run P twoF y Ctl.init := by
  intro heq
  have hctl := congrArg (fun r : Except Fault (Ctl × List Effect) =>
    r.toOption.map fun p => (p.1.mode, p.1.mode_to_time)) heq
  -- 0.0 casts to mode 0, which runs as long as mode 1, and 2.0 to mode 2
  cases hd with
  | FREQ1 => exact absurd hctl (by
      show some ((0 : UInt8), (0 : UInt16)) ≠ some (2, 0)
      decide)
  | FREQ2 => exact absurd hctl (by
      show some ((1 : UInt8), (openTime 0).toUInt16) ≠ some (1, (openTime 2).toUInt16)
      decide)
  | P01 | P02 | history | user_time_edit | digit_clock1 | W01 | W02
  | label_timer_count_down => cases h

/-- A branch that reads the text crashes on `NULL`, and on no text. -/
theorem Handler.run_text_ne (P : Platform) {hd : Handler} (h : hd.readsText = true)
    (f g : BitVec 32) (x : List UInt8) (s : Ctl) : hd.run P f none s ≠ hd.run P g (some x) s := by
  intro heq
  cases hd with
  | user_time_edit | digit_clock1 => cases heq
  | label_timer_count_down =>
      have hnull : Handler.run P f none s .label_timer_count_down = .error .nullPointer := rfl
      rw [hnull] at heq
      cases hscan : scanMinutesSecond x with
      | none =>
          simp only [Handler.run, textOf, ok_bind, hscan] at heq
          cases heq
      | some ms =>
          obtain ⟨minutes, second⟩ := ms
          simp only [Handler.run, textOf, ok_bind, hscan] at heq
          cases heq
  | FREQ1 | P01 | P02 | history | W01 | W02 | FREQ2 => cases h

/-- With a widget that has a branch, `stone_cmd` is that branch. -/
theorem stone_cmd_handler (P : Platform) {c : Contents} {w : List UInt8} {hd : Handler}
    (hw : c.widget = some w) (hh : handlerOf w = some hd) (s : Ctl) :
    stone_cmd P c s = hd.run P c.float_value c.text s := by
  unfold stone_cmd
  simp only [hw, hh]

/-- What a frame carries hides what was there before. -/
theorem stone_cmd_onto (P : Platform) {i : Item}
    (h : ∀ hd, handlerOf i.widget = some hd →
      (hd.readsFloat = true → i.float.isSome = true) ∧ (hd.readsText = true → i.text.isSome = true))
    (c₁ c₂ : Contents) (ctl : Ctl) :
    stone_cmd P (i.onto c₁) ctl = stone_cmd P (i.onto c₂) ctl := by
  cases hh : handlerOf i.widget with
  | none =>
      unfold stone_cmd
      simp only [Item.onto, hh]
  | some hd =>
      rw [stone_cmd_handler P (c := i.onto c₁) rfl hh, stone_cmd_handler P (c := i.onto c₂) rfl hh]
      obtain ⟨hfloat, htext⟩ := h hd hh
      refine Handler.run_congr P ctl (fun hr => ?_) (fun hr => ?_)
      · obtain ⟨v, hv⟩ := Option.isSome_iff_exists.mp (hfloat hr)
        simp [Item.onto, hv]
      · obtain ⟨x, hx⟩ := Option.isSome_iff_exists.mp (htext hr)
        simp [Item.onto, hx]

/-! ## §4. The decoders. -/

/-- A frame that is posted and carries no item is a system frame. -/
theorem decoder_of_no_item {rx : RxBuf} (hi : itemOf rx = none) {s t : Receiver}
    (h : receive_parse rx.bytes s = .ok (t, true)) :
    ∃ d, decoderOf (frameCmd rx.bytes) = some d ∧ (d = .sysScan ∨ d = .sysVersion) := by
  cases hd : decoderOf (frameCmd rx.bytes) with
  | none =>
      rw [receive_parse_ignored rx.header hd] at h
      cases h
  | some d =>
      refine ⟨d, rfl, ?_⟩
      by_contra hsys
      -- every other decoder has a plan, and one that fails posts nothing
      have hplan : ∃ p, d.plan rx.bytes (frameLen rx.bytes) = some p := by
        cases d with
        | sysScan => exact absurd (Or.inl rfl) hsys
        | sysVersion => exact absurd (Or.inr rfl) hsys
        | btn | slider | dataText | fourByte | ieee | image | chartView | window => exact ⟨_, rfl⟩
      obtain ⟨p, hp⟩ := hplan
      rw [receive_parse_handled rx.header hd, run_eq_plan d rx.bytes _ p hp] at h
      cases p with
      | error e => cases h
      | ok q =>
          unfold itemOf at hi
          rw [hd, Option.bind_some, hp] at hi
          cases hi

/-- As long as `STONER.data` is `NULL`, a system frame that can be posted at all
is posted, and leaves the widget, the float and the text as they were. -/
theorem run_sys_data_none {d : Decoder} (hd : d = .sysScan ∨ d = .sysVersion) {rx : List UInt8}
    {s t : Receiver} (hrun : d.run rx s = .ok t) (s' : Receiver)
    (hlen : s'.STONER.len = s.STONER.len) (hdata : s'.STONER.data = none) :
    ∃ t', d.run rx s' = .ok t' ∧ t'.contents = s'.contents := by
  have hclear : dataClear s' = .ok s' := by
    unfold dataClear
    rw [hdata]
    rfl
  have hblock : ∃ b, d.dataBlock rx s.STONER.len = some b := by
    rcases hd with rfl | rfl <;> exact ⟨_, rfl⟩
  obtain ⟨b, hb⟩ := hblock
  -- past the clearing, both read the buffer and LEN only
  rw [run_eq_dataBlock d rx s b hb] at hrun
  obtain ⟨u, -, hrun⟩ := ok_of_bind hrun
  obtain ⟨blk, rfl, -⟩ := ok_of_map hrun
  rw [run_eq_dataBlock d rx s' (.ok blk) (by rw [hlen]; exact hb), hclear]
  exact ⟨_, rfl, rfl⟩

/-! ## §5. Every posted buffer. -/

theorem postedAfter_item {rx : RxBuf} {i : Item} (hi : itemOf rx = some i) {history : List RxBuf}
    {s : Receiver} (hs : decodeAll Receiver.init history = .ok s) :
    PostedAfter history rx (i.onto s.contents) := by
  obtain ⟨t, ht, hc⟩ := receive_parse_item hi s
  exact ⟨s, t, hs, ht, hc⟩

theorem postedAfter_sys {rx : RxBuf} (hi : itemOf rx = none) (h : Posted rx)
    {history : List RxBuf} {s : Receiver} (hs : decodeAll Receiver.init history = .ok s)
    (hdata : s.STONER.data = none) : PostedAfter history rx s.contents := by
  obtain ⟨_, _, u, t, _, ht, _⟩ := h
  obtain ⟨d, hd, hsys⟩ := decoder_of_no_item hi ht
  rw [receive_parse_handled rx.header hd] at ht
  cases hrun : d.run rx.bytes (u.setCmdLen (frameCmd rx.bytes) (frameLen rx.bytes)) with
  | error e =>
      rw [hrun] at ht
      cases ht
  | ok r =>
      obtain ⟨t', ht', hc⟩ := run_sys_data_none hsys hrun
        (s.setCmdLen (frameCmd rx.bytes) (frameLen rx.bytes)) rfl hdata
      refine ⟨s, t', hs, ?_, hc⟩
      rw [receive_parse_handled rx.header hd, ht']
      rfl

/-- One widget frame after start-up. -/
theorem decodeAll_frame {f : Frame} {q : Plan} (hq : f.plan = some q) :
    ∃ s, decodeAll Receiver.init [f.inBuf] = .ok s ∧ s.STONER.data = none ∧
      s.contents = q.item.onto Receiver.init.contents := by
  have hrun : decodeAll Receiver.init [f.inBuf]
      = .ok (q.apply (Receiver.init.setCmdLen f.cmd.code f.payload.data.length)) := by
    show (receive_parse (f.bytes ++ List.replicate (RX_LEN - f.bytes.length) 0) Receiver.init
      >>= fun r => pure r.1) = _
    rw [Frame.receive_parse_widget hq]
    rfl
  refine ⟨_, hrun, ?_, contents_apply q _⟩
  rw [STONER_apply]
  rfl

/-- The display reports the value 2.0, and the countdown `1:59`. -/
def reportedTwo : Frame :=
  valueFrame (str "FREQ1") (by decide) (List.all_iff_forall_prop.mp (by decide)) 0x40 0 0 0

def reportedCountdown : Frame := countdownFrame (str "1:59") (by decide)

/-- **A posted frame acts alike after all histories, exactly when it names a
widget and carries what that widget's branch reads.** -/
theorem noStaleAction_iff (P : Platform) {rx : RxBuf} (h : Posted rx) :
    NoStaleAction P rx ↔ SelfContained rx := by
  have hstart : decodeAll Receiver.init [] = .ok Receiver.init := rfl
  constructor
  · intro hno
    cases hi : itemOf rx with
    | none =>
        -- a system frame: `NULL` at start-up, a widget once one was reported
        obtain ⟨s, hs, hdata, hc⟩ := decodeAll_frame (f := pressedP01) rfl
        have heq := hno _ _ _ _ (postedAfter_sys hi h hstart rfl)
          (postedAfter_sys hi h hs hdata) Ctl.init
        rw [hc] at heq
        cases heq
    | some i =>
        obtain ⟨d, hdec, hfloat, htext⟩ := itemOf_brings hi
        refine ⟨d, i, hdec, hi, fun hd hh => ⟨fun hreads => ?_, fun hreads => ?_⟩⟩
        · -- otherwise the float is that of the frame before: 0.0 at start-up, or 2.0
          rw [← hfloat]
          by_contra hno'
          have hnone : i.float = none := by simpa using hno'
          obtain ⟨s, hs, -, hc⟩ := decodeAll_frame (f := reportedTwo) rfl
          have heq := hno _ _ _ _ (postedAfter_item hi hstart) (postedAfter_item hi hs) Ctl.init
          rw [hc, stone_cmd_handler P rfl hh, stone_cmd_handler P rfl hh] at heq
          simp only [Item.onto, hnone, Option.getD_none] at heq
          exact Handler.run_float_ne P hreads _ _ heq
        · -- otherwise the text is that of the frame before: `NULL` at start-up, or a countdown
          rw [← htext]
          by_contra hno'
          have hnone : i.text = none := by simpa using hno'
          obtain ⟨s, hs, -, hc⟩ := decodeAll_frame (f := reportedCountdown) rfl
          have heq := hno _ _ _ _ (postedAfter_item hi hstart) (postedAfter_item hi hs) Ctl.init
          rw [hc, stone_cmd_handler P rfl hh, stone_cmd_handler P rfl hh] at heq
          simp only [Item.onto, hnone, Option.none_or] at heq
          exact Handler.run_text_ne P hreads _ _ _ _ heq
  · -- two histories, one item over both
    rintro ⟨d, i, hdec, hi, hbrings⟩ h₁ h₂ c₁ c₂ ⟨s₁, t₁, -, ht₁, rfl⟩ ⟨s₂, t₂, -, ht₂, rfl⟩ ctl
    obtain ⟨d', hdec', hfloat, htext⟩ := itemOf_brings hi
    rw [hdec, Option.some.injEq] at hdec'
    rw [← hdec'] at hfloat htext
    obtain ⟨u₁, hu₁, hc₁⟩ := receive_parse_item hi s₁
    obtain ⟨u₂, hu₂, hc₂⟩ := receive_parse_item hi s₂
    rw [ht₁] at hu₁
    rw [ht₂] at hu₂
    cases hu₁
    cases hu₂
    rw [hc₁, hc₂]
    refine stone_cmd_onto P (fun hd hh => ?_) _ _ ctl
    rw [hfloat, htext]
    exact hbrings hd hh

theorem posted_frame {f : Frame} {q : Plan} (hq : f.plan = some q) : Posted f.inBuf :=
  ⟨[], _, _, _, rfl, f.receive_parse_widget hq _ _, rfl⟩

/-- The button `P01` switches the relays on after every history. -/
theorem noStaleAction_P01 : NoStaleAction deafPlatform pressedP01.inBuf := by
  refine (noStaleAction_iff deafPlatform (posted_frame rfl)).mpr
    ⟨.btn, _, by decide +kernel, Frame.itemOf_inBuf rfl, fun hd hh => ?_⟩
  cases hh
  exact ⟨fun hf => (nomatch hf), fun hx => (nomatch hx)⟩

/-- The display says hello, with one byte of data. -/
def helloFrame : Frame where
  cmd := .sys_hello
  decoder := .sysScan
  payload := .sys [0x31]
  handled := rfl
  fits := rfl
  nameOk := trivial
  short := by decide

/-- A hello after `P01` switches the relays on, and one after `P02` off. -/
theorem not_noStaleAction_hello : ¬ NoStaleAction deafPlatform helloFrame.inBuf := by
  intro hno
  have hi : itemOf helloFrame.inBuf = none := by decide +kernel
  have hposted : Posted helloFrame.inBuf := by
    obtain ⟨d, hd⟩ := Frame.receive_parse_sys (f := helloFrame) rfl
      (List.replicate (RX_LEN - helloFrame.bytes.length) 0) Receiver.init
    exact ⟨[], _, _, _, rfl, hd, rfl⟩
  obtain ⟨s₁, hs₁, hdata₁, hc₁⟩ := decodeAll_frame (f := pressedP01) rfl
  obtain ⟨s₂, hs₂, hdata₂, hc₂⟩ := decodeAll_frame (f := pressedP02) rfl
  have hw₁ : s₁.contents.widget = some (str "P01") := by rw [hc₁]; decide +kernel
  have hw₂ : s₂.contents.widget = some (str "P02") := by rw [hc₂]; decide +kernel
  have heq := hno _ _ _ _ (postedAfter_sys hi hposted hs₁ hdata₁)
    (postedAfter_sys hi hposted hs₂ hdata₂) Ctl.init
  -- the hello is handled as the button before it
  rw [stone_cmd_handler deafPlatform hw₁ (show handlerOf (str "P01") = some .P01 from rfl),
    stone_cmd_handler deafPlatform hw₂ (show handlerOf (str "P02") = some .P02 from rfl)] at heq
  cases heq

end StoneHMI
