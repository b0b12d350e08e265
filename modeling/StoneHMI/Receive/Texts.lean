/-
  StoneHMI.Receive.Texts
  ──────────────────────
  **WHAT TEXT AND SYSTEM FRAMES DECODE TO.**

  A text frame carries a widget's name in quotes, a colon and a text of any
  bytes; `case_data_text` finds the text behind the `strlen` of the scanned
  name.  A system frame carries bytes for `STONER.data`: `sys_version` copies
  LEN of them, `sys_state` and `sys_hello` scan with `"%[^>ET]"`, which ends at
  any one of the three bytes and not only at `'>ET'`.

    §1  frames in the receive buffer      §3  system frames
    §2  text frames
-/
import StoneHMI.Receive.Buffer
import StoneHMI.Receive.Clearing

namespace StoneHMI

open CMemory Receiver Delimiter

/-! ## §1. Frames in the receive buffer. -/

/-- `STONE_RX_BUF` starts with a frame of the given command and data; its checksum and
whatever older frames left behind it are any bytes. -/
def RxBuf.Holds (rx : RxBuf) (cmd : ReciveCmd) (data : List UInt8) : Prop :=
  ∃ crc older : List UInt8, crc.length = 2 ∧
    rx.bytes = frameBody cmd.code data ++ crc ++ older

namespace RxBuf.Holds

variable {rx : RxBuf} {cmd : ReciveCmd} {data : List UInt8}

theorem length_lt (h : rx.Holds cmd data) : data.length < 65536 := by
  obtain ⟨crc, older, hcrc, hrx⟩ := h
  have hlen := congrArg List.length hrx
  have hR : RX_LEN = 200 := rfl
  rw [rx.full] at hlen
  unfold frameBody at hlen
  simp only [List.length_append] at hlen
  omega

/-- The data stands behind seven header bytes and ends at a `'>'`. -/
theorem headed (h : rx.Holds cmd data) :
    ∃ rest, rx.bytes
      = headed 0x53 0x54 0x3c cmd.code data.length (data ++ 0x3e :: rest) := by
  obtain ⟨crc, older, -, hrx⟩ := h
  refine ⟨0x45 :: 0x54 :: (crc ++ older), ?_⟩
  rw [hrx]
  unfold frameBody StoneHMI.headed
  simp only [List.append_assoc]
  rfl

/-- A buffer that holds a frame runs the frame's decoder with its LEN. -/
theorem receive_parse (h : rx.Holds cmd data) {d : Decoder} (hd : cmd.decoder = some d)
    (s : Receiver) :
    receive_parse rx.bytes s
      = (fun t => (t, true)) <$> d.run rx.bytes (s.setCmdLen cmd.code data.length) := by
  obtain ⟨rest, hrx⟩ := h.headed
  rw [hrx]
  exact receive_parse_headed hd h.length_lt _ s

/-- The plan of a payload is the plan of a buffer that holds it. -/
theorem plan {p : Payload} {d : Decoder} {q : Plan} (h : rx.Holds cmd p.data)
    (hdec : p.DecodesTo d) (hq : p.plan d = some q) :
    d.plan rx.bytes p.data.length = some (.ok q) := by
  obtain ⟨rest, hrx⟩ := h.headed
  rw [hrx]
  exact hdec _ (0x3e :: rest) q rfl hq

end RxBuf.Holds

/-- A frame at the start of a buffer of zeros. -/
theorem Frame.holds_inBuf (f : Frame) : f.inBuf.Holds f.cmd f.payload.data := by
  refine ⟨CRC_BUF f.body, List.replicate (RX_LEN - f.bytes.length) 0, rfl, ?_⟩
  rfl

/-! ## §2. Text frames. -/

/-- `STONER` shows the widget `w`, ended by a NUL inside the 41 bytes of its block, and
all of the text `t`, ended by a NUL inside a block of its size. -/
structure Receiver.ShowsText (s : Receiver) (w t : List UInt8) : Prop where
  widget : ∃ b, s.STONER.widget = some b ∧ b.size = 41 ∧ w ++ [0] <+: b.bytes
  widget_len : s.widget_len = w.length
  text : ∃ b, s.STONER.text = some b ∧ b.size = t.length + 1 ∧ b.bytes = t ++ [0]

/-- A string and its NUL start the block that they fill. -/
theorem prefix_filled (n : ℕ) (bs : List UInt8) : bs <+: (Block.filled n bs).bytes :=
  List.prefix_append bs _

/-- A text and its NUL fill a block of their size. -/
theorem bytes_filled_nul (t : List UInt8) : (Block.filled t.length (t ++ [0])).bytes = t ++ [0] := by
  show (t ++ [0]) ++ (List.replicate t.length (0 : UInt8)).drop (t ++ [0]).length = t ++ [0]
  have hlen : (List.replicate t.length (0 : UInt8)).length ≤ (t ++ [0]).length := by simp
  rw [List.drop_eq_nil_of_le hlen, List.append_nil]

theorem showsText_apply {q : Plan} {w t : List UInt8} (hq : (Payload.text w t).plan .dataText = some q)
    (hlen : w.length ≤ 40) (s : Receiver) : (q.apply s).ShowsText w t := by
  cases hq
  constructor
  · refine ⟨_, by rw [STONER_apply], Block.size_filled ?_, prefix_filled 40 _⟩
    rw [List.length_append, List.length_singleton]
    omega
  · show (Receiver.newText _ _ _).widget_len = w.length
    rw [widget_len_newText]
    rfl
  · refine ⟨_, by rw [STONER_apply]; rfl, Block.size_filled ?_, bytes_filled_nul t⟩
    rw [List.length_append, List.length_singleton]

/-- **A text frame decodes exactly — for every command with a text, every name that
fits, every text of any bytes, and whatever stands behind the frame.** -/
theorem text_exact {cmd : ReciveCmd} {w t : List UInt8} {rx : RxBuf}
    (hcmd : cmd.decoder = some .dataText) (hlen : w.length ≤ 40)
    (hname : ∀ b ∈ w, b ≠ 0 ∧ isQuote b = false)
    (hrx : rx.Holds cmd (0x22 :: (w ++ 0x22 :: 0x3a :: t))) (s : Receiver) :
    ∃ r, case_data_text rx.bytes (s.setCmdLen cmd.code (w.length + t.length + 3)) = .ok r ∧
      receive_parse rx.bytes s = .ok (r, true) ∧ r.ShowsText w t := by
  have hdata : (Payload.text w t).data.length = w.length + t.length + 3 := by
    show (0x22 :: (w ++ 0x22 :: 0x3a :: t)).length = _
    simp only [List.length_cons, List.length_append]
    omega
  have hframe : rx.Holds cmd (Payload.text w t).data := hrx
  have hplan := hframe.plan (decodesTo_text ⟨hlen, hname⟩) rfl
  have hparse := hframe.receive_parse hcmd s
  rw [hdata] at hplan hparse
  -- the decoder carries the plan out, and `receive_parse` posts the result
  have hrun := run_eq_plan .dataText rx.bytes
    (s.setCmdLen cmd.code (w.length + t.length + 3)) _ hplan
  rw [hrun] at hparse
  exact ⟨_, hrun, hparse, showsText_apply rfl hlen _⟩

/-- A text of a quote, a colon and a NUL. -/
def oddText : List UInt8 := [0x22, 0x3a, 0x00]

open CText in
/-- The countdown label with such a text. -/
theorem text_exact_countdown :
    ∃ r, case_data_text (countdownFrame oddText (by decide)).inBuf.bytes
        (Receiver.init.setCmdLen ReciveCmd.control_label_text.code
          ((str "label_timer_count_down").length + oddText.length + 3)) = .ok r ∧
      receive_parse (countdownFrame oddText (by decide)).inBuf.bytes Receiver.init = .ok (r, true) ∧
      r.ShowsText (str "label_timer_count_down") oddText := by
  have hrx : (countdownFrame oddText (by decide)).inBuf.Holds .control_label_text
      (0x22 :: (str "label_timer_count_down" ++ 0x22 :: 0x3a :: oddText)) := Frame.holds_inBuf _
  have hname : ∀ b ∈ str "label_timer_count_down", b ≠ 0 ∧ isQuote b = false :=
    List.all_iff_forall_prop.mp (by decide)
  exact text_exact rfl (by decide) hname hrx Receiver.init

/-! ## §3. System frames. -/

/-- `STONER.data` starts with `p` and a NUL. -/
def Receiver.Delivers (s : Receiver) (p : List UInt8) : Prop :=
  ∃ b, s.STONER.data = some b ∧ p ++ [0] <+: b.bytes

/-- Where there is a `data` block to free, `datainit` clears the widget block: it has room for
the `widget_last_len` bytes.  A null pointer has room for none. -/
def Receiver.DataClearFits (s : Receiver) : Prop :=
  s.STONER.data ≠ none → s.widget_last_len ≤ (s.STONER.widget.map Block.size).getD 0

instance (s : Receiver) : Decidable s.DataClearFits :=
  inferInstanceAs (Decidable (_ → _ ≤ _))

/-- Every clearing on record in `t` that was not in `s` stayed inside its block. -/
def Receiver.ClearsWithin (s t : Receiver) : Prop :=
  ∀ c ∈ t.clears.drop s.clears.length, c.Within

theorem dataClear_fits_iff (s : Receiver) :
    (∃ t, dataClear s = .ok t ∧ s.ClearsWithin t) ↔ s.DataClearFits := by
  unfold dataClear Receiver.ClearsWithin Receiver.DataClearFits
  cases hd : s.STONER.data with
  | none =>
      -- nothing to free, so nothing is cleared
      refine iff_of_true ⟨s, rfl, fun c hc => ?_⟩ fun h => absurd rfl h
      rw [List.drop_length] at hc
      cases hc
  | some d =>
      rw [forall_prop_of_true (Option.some_ne_none d)]
      cases hw : s.STONER.widget with
      | some w =>
          have hclears : ((s.logClear (some w) s.widget_last_len).setWidget
              (w.clear s.widget_last_len)).clears.drop s.clears.length
                = [⟨w.size, s.widget_last_len⟩] := List.drop_left
          constructor
          · rintro ⟨t, ht, hwithin⟩
            cases ht
            rw [hclears] at hwithin
            exact hwithin _ List.mem_cons_self
          · intro hle
            refine ⟨_, rfl, ?_⟩
            rw [hclears]
            exact List.forall_mem_singleton.mpr hle
      | none =>
          dsimp only
          by_cases h0 : s.widget_last_len = 0
          · rw [if_pos h0]
            refine iff_of_true ⟨s, rfl, fun c hc => ?_⟩ h0.le
            rw [List.drop_length] at hc
            cases hc
          · rw [if_neg h0]
            refine iff_of_false (fun ⟨t, ht, _⟩ => by cases ht) fun hle => ?_
            exact h0 (Nat.le_zero.mp hle)

/-- The bytes that a system decoder takes of the data `p`. -/
def Decoder.takes : Decoder → List UInt8 → List UInt8
  | .sysScan, p => scanned isTerminatorByte p
  | _, p => p

/-- Zeros behind a text end it like a NUL of its own. -/
theorem filled_nul (p : List UInt8) :
    Block.filled (p.length + 1) p = Block.filled (p.length + 1) (p ++ [0]) := by
  ext1
  · rw [Block.size_filled (by omega), Block.size_filled (by simp)]
  · show p ++ (List.replicate (p.length + 1) (0 : UInt8)).drop p.length
      = (p ++ [0]) ++ (List.replicate (p.length + 1) (0 : UInt8)).drop (p ++ [0]).length
    simp

/-- Both system decoders leave what they take, and a NUL, over the zeros of the block. -/
theorem dataBlock_takes {d : Decoder} {hd p : List UInt8} (hhd : hd.length = 7)
    (hfit : (Payload.sys p).Fits d = true) (rest : List UInt8) :
    d.dataBlock (hd ++ (p ++ 0x3e :: rest)) p.length
      = some (.ok (Block.filled (p.length + 1) (d.takes p ++ [0]))) := by
  match d, hfit with
  | .sysScan, _ =>
      show some (scanInto isTerminatorByte _ 7 (Block.fresh (p.length + 1))) = _
      rw [scanInto_filled rest hhd.symm (by decide) (by omega) (by omega)]
      rfl
  | .sysVersion, _ =>
      show some (slice (hd ++ (p ++ 0x3e :: rest)) 7 p.length >>= _) = _
      rw [slice_append hhd.symm rfl, ok_bind, Block.store_fresh (by omega), filled_nul]
      rfl

/-- A block that starts with a text and a NUL holds that text as its C string. -/
theorem nul_prefix_filled_iff {n : ℕ} {run p : List UInt8} (hrun : ∀ b ∈ run, b ≠ 0)
    (hp : ∀ b ∈ p, b ≠ 0) : p ++ [0] <+: (Block.filled n (run ++ [0])).bytes ↔ run = p := by
  constructor
  · rintro ⟨r, hr⟩
    have hcstr : (Block.filled n (run ++ [0])).cstr = run := by
      rw [Block.cstr_filled_nul, CText.cstr_eq_self hrun]
    unfold Block.cstr at hcstr
    rw [← hr, List.append_assoc, List.singleton_append, CText.cstr_append_nul_eq,
      CText.cstr_eq_self hp] at hcstr
    exact hcstr.symm
  · intro h
    rw [h]
    exact prefix_filled n _

/-- A scan takes all of a C string without a stop byte, and of no other. -/
theorem scanned_eq_self_iff {stop : UInt8 → Bool} {p : List UInt8} (hp : ∀ b ∈ p, b ≠ 0) :
    scanned stop p = p ↔ ∀ b ∈ p, stop b = false := by
  unfold scanned
  rw [List.takeWhile_eq_self_iff]
  constructor
  · intro h b hb
    simpa [hp b hb] using h b hb
  · intro h b hb
    simp [hp b hb, h b hb]

theorem takes_ne_zero {d : Decoder} {p : List UInt8} (hp : ∀ b ∈ p, b ≠ 0) :
    ∀ b ∈ d.takes p, b ≠ 0 := by
  intro b hb
  cases d with
  | sysScan => exact ne_zero_of_mem_scanned hb
  | _ => exact hp b hb

/-- The decoder of a system command, and when it takes the whole data. -/
theorem system_decoder {cmd : ReciveCmd} {p : List UInt8}
    (hcmd : cmd = .sys_state ∨ cmd = .sys_hello ∨ cmd = .sys_version) (hp : ∀ b ∈ p, b ≠ 0) :
    ∃ d, cmd.decoder = some d ∧ (Payload.sys p).Fits d = true ∧
      (d.takes p = p ↔ cmd = .sys_version ∨ ∀ b ∈ p, isTerminatorByte b = false) := by
  rcases hcmd with rfl | rfl | rfl
  · refine ⟨.sysScan, rfl, rfl, (scanned_eq_self_iff hp).trans ?_⟩
    simp
  · refine ⟨.sysScan, rfl, rfl, (scanned_eq_self_iff hp).trans ?_⟩
    simp
  · exact ⟨.sysVersion, rfl, rfl, by simp [Decoder.takes]⟩

/-- The block that a decoder of system frames fills: what it takes of the payload. -/
theorem RxBuf.Holds.dataBlock {cmd : ReciveCmd} {p : List UInt8} {rx : RxBuf}
    (hrx : rx.Holds cmd p) {d : Decoder} (hfit : (Payload.sys p).Fits d = true) :
    d.dataBlock rx.bytes p.length
      = some (.ok (Block.filled (p.length + 1) (d.takes p ++ [0]))) := by
  obtain ⟨rest, hbytes⟩ := hrx.headed
  rw [hbytes]
  exact dataBlock_takes rfl hfit rest

/-- Parsing delivers the payload exactly when clearing stays inside and all of it is taken. -/
theorem system_delivers_iff {cmd : ReciveCmd} {p : List UInt8} {rx : RxBuf} {d : Decoder}
    (hd : cmd.decoder = some d) (hfit : (Payload.sys p).Fits d = true) (hp : ∀ b ∈ p, b ≠ 0)
    (hrx : rx.Holds cmd p) (s : Receiver) :
    (∃ t, receive_parse rx.bytes s = .ok (t, true) ∧ t.Delivers p ∧ s.ClearsWithin t) ↔
      s.DataClearFits ∧ d.takes p = p := by
  have hprefix : p ++ [0] <+: (Block.filled (p.length + 1) (d.takes p ++ [0])).bytes ↔
      d.takes p = p := nul_prefix_filled_iff (takes_ne_zero hp) hp
  have hrun := hrx.receive_parse hd s
  rw [run_eq_dataBlock d rx.bytes (s.setCmdLen cmd.code p.length) _ (hrx.dataBlock hfit)] at hrun
  have hclear := dataClear_fits_iff (s.setCmdLen cmd.code p.length)
  -- parsing is the clearing, and then the new block
  rw [hrun, ← hprefix]
  constructor
  · rintro ⟨t, ht, ⟨b, hb, hpre⟩, hwithin⟩
    obtain ⟨u, hu, ht⟩ := ok_of_map ht
    obtain ⟨v, hv, hu⟩ := ok_of_bind hu
    cases hu
    cases ht
    cases hb
    exact ⟨hclear.mp ⟨v, hv, hwithin⟩, hpre⟩
  · rintro ⟨hfits, hpre⟩
    obtain ⟨v, hv, hwithin⟩ := hclear.mpr hfits
    refine ⟨v.newData (Block.filled (p.length + 1) (d.takes p ++ [0])) (p.length + 1), ?_,
      ⟨_, rfl, hpre⟩, hwithin⟩
    rw [hv]
    rfl

/-- The scan and the copy fill the same block exactly when the scan takes all. -/
theorem system_blocks_iff {cmd : ReciveCmd} {p : List UInt8} {rx : RxBuf} (hp : ∀ b ∈ p, b ≠ 0)
    (hrx : rx.Holds cmd p) :
    Decoder.sysScan.dataBlock rx.bytes p.length = Decoder.sysVersion.dataBlock rx.bytes p.length ↔
      ∀ b ∈ p, isTerminatorByte b = false := by
  rw [hrx.dataBlock (d := .sysScan) rfl, hrx.dataBlock (d := .sysVersion) rfl,
    ← scanned_eq_self_iff hp]
  constructor
  · intro h
    have hcstr := congrArg Block.cstr (Except.ok.inj (Option.some.inj h))
    rw [Block.cstr_filled_nul, Block.cstr_filled_nul,
      CText.cstr_eq_self (takes_ne_zero hp), CText.cstr_eq_self (takes_ne_zero hp)] at hcstr
    exact hcstr
  · intro h
    show some (Except.ok (Block.filled _ (scanned isTerminatorByte p ++ [0]))) = _
    rw [h]
    rfl

/-- **A system frame delivers its whole payload exactly when the command copies it or the
payload has none of the bytes `'>'`, `'E'` and `'T'`** — if the clearing before the `data` block
is freed has a widget block that it fits.  The scan and the copy agree on the same payloads. -/
theorem system_iff {cmd : ReciveCmd} {p : List UInt8} {rx : RxBuf}
    (hcmd : cmd = .sys_state ∨ cmd = .sys_hello ∨ cmd = .sys_version) (hp : ∀ b ∈ p, b ≠ 0)
    (hrx : rx.Holds cmd p) (s : Receiver) :
    ((∃ t, receive_parse rx.bytes s = .ok (t, true) ∧ t.Delivers p ∧ s.ClearsWithin t) ↔
      s.DataClearFits ∧ (cmd = .sys_version ∨ ∀ b ∈ p, isTerminatorByte b = false)) ∧
    (Decoder.sysScan.dataBlock rx.bytes p.length = Decoder.sysVersion.dataBlock rx.bytes p.length ↔
      ∀ b ∈ p, isTerminatorByte b = false) := by
  obtain ⟨d, hd, hfit, htakes⟩ := system_decoder hcmd hp
  refine ⟨?_, system_blocks_iff hp hrx⟩
  rw [system_delivers_iff hd hfit hp hrx s, htakes]

theorem sys_hello_decoder : ReciveCmd.sys_hello.decoder = some .sysScan := rfl

open CText in
/-- The display says hello. -/
def greetingFrame : Frame where
  cmd := .sys_hello
  decoder := .sysScan
  payload := .sys (str "HELLO")
  handled := sys_hello_decoder
  fits := rfl
  nameOk := trivial
  short := by decide

open CText in
/-- The display tells its version. -/
def versionFrame : Frame where
  cmd := .sys_version
  decoder := .sysVersion
  payload := .sys (str "STWI070WT")
  handled := rfl
  fits := rfl
  nameOk := trivial
  short := by decide

/-- The display has told its version, and `P01` was pressed since. -/
def toldAndPressed : Receiver := parseFrames Receiver.init [(versionFrame, []), (pressedP01, [])]

open CText in
/-- A version with an `E` or a `T` in it is copied all the same, and the widget block has room
for the clearing. -/
theorem system_version :
    (∃ t, receive_parse versionFrame.inBuf.bytes toldAndPressed = .ok (t, true) ∧
        t.Delivers (str "STWI070WT") ∧ toldAndPressed.ClearsWithin t) ∧
      Decoder.sysScan.dataBlock versionFrame.inBuf.bytes (str "STWI070WT").length
        ≠ Decoder.sysVersion.dataBlock versionFrame.inBuf.bytes (str "STWI070WT").length := by
  have hrx : versionFrame.inBuf.Holds .sys_version (str "STWI070WT") := Frame.holds_inBuf _
  have hiff := system_iff (.inr (.inr rfl)) (List.all_iff_forall_prop.mp (by decide)) hrx
    toldAndPressed
  refine ⟨hiff.1.mpr ⟨by decide +kernel, Or.inl rfl⟩, fun h => ?_⟩
  have hstops := hiff.2.mp h 0x54 (by decide)
  exact absurd hstops (by decide)

open CText in
/-- **`HELLO` arrives as `H`.** -/
theorem not_delivered_hello :
    ¬ ∀ (cmd : ReciveCmd) (p : List UInt8) (rx : RxBuf),
        cmd = .sys_state ∨ cmd = .sys_hello ∨ cmd = .sys_version → p ≠ [] → (∀ b ∈ p, b ≠ 0) →
        findMark frame_end p = none → rx.Holds cmd p →
        ∃ t, receive_parse rx.bytes Receiver.init = .ok (t, true) ∧ t.Delivers p := by
  intro h
  have hnul : ∀ b ∈ str "HELLO", b ≠ 0 := List.all_iff_forall_prop.mp (by decide)
  obtain ⟨t, ht, b, hb, hpre⟩ := h .sys_hello (str "HELLO") greetingFrame.inBuf (.inr (.inl rfl))
    (by decide) hnul (by decide) (Frame.holds_inBuf greetingFrame)
  -- the scan stops at the `E`
  have hdata : (fun r => r.1.STONER.data.map Block.bytes) <$>
      receive_parse greetingFrame.inBuf.bytes Receiver.init = .ok (some [0x48, 0, 0, 0, 0, 0]) := by
    decide +kernel
  rw [ht] at hdata
  have hbytes : t.STONER.data.map Block.bytes = some [0x48, 0, 0, 0, 0, 0] := Except.ok.inj hdata
  rw [hb] at hbytes
  rw [Option.some.inj hbytes] at hpre
  exact absurd hpre (by decide)

end StoneHMI
