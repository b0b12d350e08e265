/-
  StoneHMI.Receive.Decoding
  ─────────────────────────
  **WHAT INTEGER AND FLOAT FRAMES DECODE TO.**

  An integer frame carries a widget's name and an integer of one, two or four
  bytes, high byte first; a chart frame carries a float behind its two-byte
  index.  A float frame carries a name and the four bytes of a float, which
  one decoder finds from LEN and another from the length of the name.

    §1  shifts and bytes        §3  integer frames
    §2  the decoded widget      §4  float frames

  The four-byte integers lose all but their last byte: each assignment of
  `case_4_byte_data` shifts `long_value`, which nothing ever sets.
-/
import StoneHMI.Receive.Buffer
import StoneHMI.Lib.Words

namespace StoneHMI

open CMemory Receiver Words

/-! ## §1. Shifts and bytes. -/

/-- Shifting a byte in at the low end. -/
theorem toNat_shiftIn {x : BitVec 32} (b : UInt8) (h : x.toNat < 2 ^ 24) :
    (x <<< 8 ||| BitVec.ofNat 32 b.toNat).toNat = x.toNat * 256 + b.toNat := by
  have hb : b.toNat < 2 ^ 8 := b.toNat_lt
  rw [BitVec.toNat_or, BitVec.toNat_shiftLeft, BitVec.toNat_ofNat, Nat.shiftLeft_eq,
    Nat.mod_eq_of_lt (by omega), Nat.mod_eq_of_lt (by omega), ← Nat.shiftLeft_eq,
    ← Nat.shiftLeft_add_eq_or_of_lt hb, Nat.shiftLeft_eq]

/-- The low sixteen bits. -/
theorem toNat_low16 (x : BitVec 32) : ((x &&& 0x0000FFFF).setWidth 16).toNat = x.toNat % 65536 := by
  rw [BitVec.toNat_setWidth, BitVec.toNat_and]
  show (x.toNat &&& (2 ^ 16 - 1)) % 2 ^ 16 = _
  rw [Nat.and_two_pow_sub_one_eq_mod]
  omega

/-- The low eight bits. -/
theorem toNat_low8 (x : BitVec 16) : ((x &&& 0xFF).setWidth 8).toNat = x.toNat % 256 := by
  rw [BitVec.toNat_setWidth, BitVec.toNat_and]
  show (x.toNat &&& (2 ^ 8 - 1)) % 2 ^ 8 = _
  rw [Nat.and_two_pow_sub_one_eq_mod]
  omega

/-- **Through shifts, halves and the byte union, the float's bit pattern is the
four bytes, high byte first.** -/
theorem toNat_hexFloat (b0 b1 b2 b3 : UInt8) :
    (hexFloat b0 b1 b2 b3).toNat
      = b0.toNat * 2 ^ 24 + b1.toNat * 2 ^ 16 + b2.toNat * 2 ^ 8 + b3.toNat := by
  have h0 := b0.toNat_lt
  have h1 := b1.toNat_lt
  have h2 := b2.toNat_lt
  have h3 := b3.toNat_lt
  have hset : ∀ b : UInt8, b.toBitVec.setWidth 32 = BitVec.ofNat 32 b.toNat :=
    fun b => (BitVec.ofNat_toNat 32 b.toBitVec).symm
  have ht0 : (BitVec.ofNat 32 b0.toNat).toNat = b0.toNat := by
    rw [BitVec.toNat_ofNat]
    omega
  have ht1 := toNat_shiftIn b1 (x := BitVec.ofNat 32 b0.toNat) (by omega)
  have ht2 := toNat_shiftIn b2 (x := BitVec.ofNat 32 b0.toNat <<< 8 ||| BitVec.ofNat 32 b1.toNat)
    (by omega)
  have ht3 := toNat_shiftIn b3
    (x := (BitVec.ofNat 32 b0.toNat <<< 8 ||| BitVec.ofNat 32 b1.toNat) <<< 8
      ||| BitVec.ofNat 32 b2.toNat) (by omega)
  unfold hexFloat HexFloat
  simp only [hset, toNat_append_byte, toNat_low8, BitVec.toNat_ushiftRight, toNat_low16, ht3, ht2,
    ht1, ht0, Nat.shiftRight_eq_div_pow]
  omega

theorem toNat_pairValue (hi lo : UInt8) : (pairValue hi lo).toNat = hi.toNat * 256 + lo.toNat := by
  have h := hi.toNat_lt
  have ht : (BitVec.ofNat 32 hi.toNat).toNat = hi.toNat := by
    rw [BitVec.toNat_ofNat]
    omega
  unfold pairValue
  rw [toNat_shiftIn lo (by omega), ht]

/-- The `k` bytes of `v`, high byte first. -/
def bigEndian : ℕ → ℕ → List UInt8
  | 0, _ => []
  | k + 1, v => bigEndian k (v / 256) ++ [UInt8.ofNat (v % 256)]

/-! ## §2. The decoded widget. -/

/-- `STONER.widget` is `w` as a C string, with its NUL among the bytes that were set. -/
def Receiver.Named (s : Receiver) (w : List UInt8) : Prop :=
  ∃ b, s.STONER.widget = some b ∧ b.cstr = w ∧ w.length < b.bytes.length

/-- More zeros than the name has bytes end it with a NUL. -/
theorem named_apply {q : Plan} {w : List UInt8} {n : ℕ} (hq : q.widget = Block.filled n w)
    (h : w.length < n) (hw : ∀ b ∈ w, b ≠ 0) (s : Receiver) : (q.apply s).Named w := by
  refine ⟨q.widget, by rw [STONER_apply], ?_, ?_⟩
  · rw [hq, Block.cstr_filled h hw]
  · rw [hq]
    show w.length < (w ++ (List.replicate n (0 : UInt8)).drop w.length).length
    rw [List.length_append, List.length_drop, List.length_replicate]
    omega

/-- `long_value` is never set. -/
theorem long_value_decodeAll : ∀ (history : List RxBuf) {s t : Receiver},
    decodeAll s history = .ok t → t.STONER.long_value = s.STONER.long_value
  | [], s, t, h => by
      cases h
      rfl
  | rx :: history, s, t, h => by
      obtain ⟨⟨u, p⟩, hu, h⟩ := ok_of_bind h
      rw [long_value_decodeAll history h]
      exact (receive_parse_keeps rx.header hu).2.2

/-! ## §3. Integer frames. -/

/-- How many bytes the integer has, for the decoders that read one. -/
def Decoder.intWidth : Decoder → Option ℕ
  | .btn => some 1
  | .image => some 2
  | .fourByte => some 4
  | .chartView => some 2
  | _ => none

/-- How many bytes of the data follow the integer. -/
def Decoder.behindInt : Decoder → ℕ
  | .chartView => 4
  | _ => 0

theorem exists_four {b : List UInt8} (h : b.length = 4) : ∃ b0 b1 b2 b3, b = [b0, b1, b2, b3] := by
  match b, h with
  | [b0, b1, b2, b3], _ => exact ⟨b0, b1, b2, b3, rfl⟩

/-- The data of an integer frame is the payload its decoder expects, and spells the
name and that integer, except that four bytes keep their last one only. -/
theorem payload_int {d : Decoder} {k v : ℕ} {w flo : List UInt8} (hk : d.intWidth = some k)
    (hv : v < 256 ^ k) (hflo : flo.length = d.behindInt) :
    ∃ (p : Payload) (q : Plan) (n : ℕ), p.data = w ++ bigEndian k v ++ flo ∧ p.DecodesTo d ∧
      p.plan d = some q ∧ q.widget = Block.filled n w ∧ w.length < n ∧
      ∀ s : Receiver, s.STONER.long_value = 0 →
        (q.apply s).STONER.value = BitVec.ofNat 32 (if d = .fourByte then v % 256 else v) := by
  have hbyte : ∀ n, n < 256 → (UInt8.ofNat n).toNat = n := fun n hn => UInt8.toNat_ofNat_of_lt' hn
  have hpair : v < 65536 → pairValue (UInt8.ofNat (v / 256 % 256)) (UInt8.ofNat (v % 256))
      = BitVec.ofNat 32 v := by
    intro hv
    apply BitVec.eq_of_toNat_eq
    rw [toNat_pairValue, hbyte _ (by omega), hbyte _ (by omega), BitVec.toNat_ofNat]
    omega
  cases d with
  | btn =>
      cases hk
      cases List.length_eq_zero_iff.mp hflo
      refine ⟨.byte w (UInt8.ofNat (v % 256)), _, _, by simp [Payload.data, bigEndian],
        decodesTo_byte, rfl, rfl, Nat.lt_succ_self _, fun s _ => ?_⟩
      rw [STONER_apply]
      show BitVec.ofNat 32 (UInt8.ofNat (v % 256)).toNat = BitVec.ofNat 32 v
      rw [hbyte _ (by omega), Nat.mod_eq_of_lt (by omega)]
  | image =>
      cases hk
      cases List.length_eq_zero_iff.mp hflo
      refine ⟨.pair w (UInt8.ofNat (v / 256 % 256)) (UInt8.ofNat (v % 256)), _, _,
        by simp [Payload.data, bigEndian], decodesTo_pair, rfl, rfl, by omega, fun s _ => ?_⟩
      rw [STONER_apply]
      exact hpair (by omega)
  | fourByte =>
      cases hk
      cases List.length_eq_zero_iff.mp hflo
      refine ⟨.quad w (UInt8.ofNat (v / 256 / 256 / 256 % 256))
        (UInt8.ofNat (v / 256 / 256 % 256)) (UInt8.ofNat (v / 256 % 256)) (UInt8.ofNat (v % 256)),
        _, _, by simp [Payload.data, bigEndian], decodesTo_fourByte, rfl, rfl,
        Nat.lt_succ_self _, fun s hs => ?_⟩
      rw [STONER_apply]
      -- nothing of the other three bytes is left: `long_value` is zero
      show s.STONER.long_value <<< 8 ||| BitVec.ofNat 32 (UInt8.ofNat (v % 256)).toNat = _
      rw [hs, hbyte _ (by omega)]
      simp
  | chartView =>
      cases hk
      obtain ⟨b0, b1, b2, b3, rfl⟩ := exists_four hflo
      refine ⟨.chart w (UInt8.ofNat (v / 256 % 256)) (UInt8.ofNat (v % 256)) b0 b1 b2 b3, _, _,
        by simp [Payload.data, bigEndian], decodesTo_chart, rfl, rfl, Nat.lt_succ_self _,
        fun s _ => ?_⟩
      rw [STONER_apply]
      exact hpair (by omega)
  | sysScan | sysVersion | slider | dataText | ieee | window => cases hk

/-- A frame with the given data is posted, with the widget `w` and the value `v`. -/
def DecodesInt (cmd : ReciveCmd) (data tail w : List UInt8) (v : ℕ) (s : Receiver) : Prop :=
  ∃ t, receive_parse (headed 0x53 0x54 0x3c cmd.code data.length (data ++ tail)) s = .ok (t, true) ∧
    t.Named w ∧ t.STONER.value = BitVec.ofNat 32 v

/-- **The integer of a frame is decoded exactly — for every command, name and bytes
behind the frame, after any frames — unless `case_4_byte_data` has one of 256 or more.**
The older contents are taken to be cleared within their block, as `clearsFit_iff` says when. -/
theorem integer_iff {cmd : ReciveCmd} {d : Decoder} {k v : ℕ} {w flo : List UInt8}
    (hd : cmd.decoder = some d) (hk : d.intWidth = some k) (hv : v < 256 ^ k)
    (hflo : flo.length = d.behindInt) (hw : ∀ b ∈ w, b ≠ 0)
    (hlen : (w ++ bigEndian k v ++ flo).length < 65536) (tail : List UInt8)
    {history : List RxBuf} {s : Receiver} (hs : decodeAll Receiver.init history = .ok s) :
    DecodesInt cmd (w ++ bigEndian k v ++ flo) tail w v s ↔ (d = .fourByte → v < 256) := by
  obtain ⟨p, q, n, hdata, hdec, hq, hwidget, hn, hvalue⟩ := payload_int (w := w) hk hv hflo
  have hplan := hdec ([0x53, 0x54, 0x3c] ++ twoBytes cmd.code ++ twoBytes p.data.length) tail q
    rfl hq
  rw [hdata] at hplan
  have hparse := receive_parse_plan hd hlen hplan s
  have hlong : s.STONER.long_value = 0 := long_value_decodeAll history hs
  have happly := hvalue (s.setCmdLen cmd.code (w ++ bigEndian k v ++ flo).length) hlong
  constructor
  · rintro ⟨t, ht, -, hval⟩ rfl
    cases hk
    -- a last byte that is the whole integer
    rw [hparse] at ht
    cases ht
    rw [happly, if_pos rfl] at hval
    have hmod := congrArg BitVec.toNat hval
    rw [BitVec.toNat_ofNat, BitVec.toNat_ofNat] at hmod
    omega
  · intro h
    refine ⟨_, hparse, named_apply hwidget hn hw _, ?_⟩
    rw [happly]
    split
    next hfour => rw [Nat.mod_eq_of_lt (h hfour)]
    next => rfl

open CText in
/-- The switch `S`, turned on. -/
theorem integer_switch :
    DecodesInt .control_switch (str "S" ++ bigEndian 1 1 ++ []) frame_end (str "S") 1
      Receiver.init := by
  have hstart : decodeAll Receiver.init [] = .ok Receiver.init := rfl
  exact (integer_iff rfl rfl (by decide) rfl (List.all_iff_forall_prop.mp (by decide)) (by decide)
    frame_end hstart).mpr (fun h => nomatch h)

open CText in
/-- **1000 in the edit field `E` comes back as 232.** -/
theorem not_integer_edit :
    ¬ DecodesInt .control_edit_int (str "E" ++ bigEndian 4 1000) frame_end (str "E") 1000
      Receiver.init := by
  rintro ⟨t, ht, -, hval⟩
  have h232 : (fun r => r.1.STONER.value) <$> receive_parse (headed 0x53 0x54 0x3c
      ReciveCmd.control_edit_int.code (str "E" ++ bigEndian 4 1000).length
      ((str "E" ++ bigEndian 4 1000) ++ frame_end)) Receiver.init = .ok 232 := by decide +kernel
  rw [ht] at h232
  have hval' := (Except.ok.inj h232).symm.trans hval
  revert hval'
  decide

/-! ## §4. Float frames. -/

/-- `STONER` shows the widget `w` and the float of four bytes. -/
def Receiver.ShowsFloat (s : Receiver) (w : List UInt8) (b0 b1 b2 b3 : UInt8) : Prop :=
  s.Named w ∧ s.STONER.float_value.toNat
    = b0.toNat * 2 ^ 24 + b1.toNat * 2 ^ 16 + b2.toNat * 2 ^ 8 + b3.toNat

theorem showsFloat_apply {q : Plan} {w : List UInt8} {b0 b1 b2 b3 : UInt8}
    (hq : q.widget = Block.filled (w.length + 1) w) (hf : q.float = some (hexFloat b0 b1 b2 b3))
    (hw : ∀ b ∈ w, b ≠ 0) (s : Receiver) : (q.apply s).ShowsFloat w b0 b1 b2 b3 := by
  refine ⟨named_apply hq (Nat.lt_succ_self _) hw s, ?_⟩
  rw [STONER_apply, hf, ← toNat_hexFloat]
  rfl

/-- **A float frame is decoded exactly, whether its decoder finds the float from LEN
or from the name's `strlen`, and both leave the same `STONER`.** -/
theorem float_exact {w : List UInt8} (hw : ∀ b ∈ w, b ≠ 0) (hlen : w.length + 4 < 65536)
    (b0 b1 b2 b3 : UInt8) (tail : List UInt8) (cmd : ReciveCmd) (s : Receiver) :
    let rx := headed 0x53 0x54 0x3c cmd.code (w.length + 4) ((w ++ [b0, b1, b2, b3]) ++ tail)
    let r := s.setCmdLen cmd.code (w.length + 4)
    (∃ t u, case_slider_porgressbar rx r = .ok t ∧ case_4_byte_ieee_value rx r = .ok u ∧
      t.ShowsFloat w b0 b1 b2 b3 ∧ u.ShowsFloat w b0 b1 b2 b3 ∧ t.STONER = u.STONER) ∧
    (cmd.decoder = some .slider ∨ cmd.decoder = some .ieee →
      ∃ t, receive_parse rx s = .ok (t, true) ∧ t.ShowsFloat w b0 b1 b2 b3) := by
  intro rx r
  have hn : (Payload.quad w b0 b1 b2 b3).data.length = w.length + 4 := List.length_append
  have hsliderTo : (Payload.quad w b0 b1 b2 b3).DecodesTo .slider := decodesTo_slider
  have hieeeTo : (Payload.quad w b0 b1 b2 b3).DecodesTo .ieee := decodesTo_ieee hw
  have hslider := hsliderTo ([0x53, 0x54, 0x3c] ++ twoBytes cmd.code ++ twoBytes (w.length + 4))
    tail _ rfl rfl
  have hieee := hieeeTo ([0x53, 0x54, 0x3c] ++ twoBytes cmd.code ++ twoBytes (w.length + 4))
    tail _ rfl rfl
  rw [hn] at hslider hieee
  constructor
  · refine ⟨_, _, run_eq_plan .slider rx r _ hslider, run_eq_plan .ieee rx r _ hieee,
      showsFloat_apply rfl rfl hw r, showsFloat_apply rfl rfl hw r, ?_⟩
    rw [STONER_apply, STONER_apply]
  · rintro (hd | hd)
    · exact ⟨_, receive_parse_plan hd hlen hslider s, showsFloat_apply rfl rfl hw _⟩
    · exact ⟨_, receive_parse_plan hd hlen hieee s, showsFloat_apply rfl rfl hw _⟩

open CText in
/-- The slider `S` at 5.0, whose last two bytes are zero. -/
theorem float_slider :
    ∃ t, receive_parse (headed 0x53 0x54 0x3c ReciveCmd.control_slider.code
        ((str "S").length + 4) ((str "S" ++ [0x40, 0xa0, 0, 0]) ++ frame_end)) Receiver.init = .ok (t, true) ∧
      t.ShowsFloat (str "S") 0x40 0xa0 0 0 :=
  (float_exact (List.all_iff_forall_prop.mp (by decide)) (by decide) 0x40 0xa0 0 0 frame_end
    .control_slider Receiver.init).2 (.inl rfl)

end StoneHMI
