/-
  StoneHMI.Receive.Resync
  ───────────────────────
  **NOISE IN FRONT OF A FRAME.**

  `uart_task` never looks for `ST<`, and `receive_parse` reads CMD, LEN and
  DATA at fixed places of `STONE_RX_BUF`.  So bytes in front of a frame shift
  every field of it, and the frame is decoded as if it came alone exactly
  when the bytes that slide into its place say the same.

    §1  frames and what is decoded    §3  a frame in one read
    §2  what a decoder is shown
-/
import StoneHMI.Receive.Decoding
import StoneHMI.Receive.Transparency

namespace StoneHMI

open CMemory Receiver Delimiter

/-! ## §1. Frames and what is decoded. -/

/-- A frame on the line.  Its two CRC bytes may be anything: nothing reads them. -/
structure Telegram where
  cmd : ReciveCmd
  decoder : Decoder
  payload : Payload
  crc : List UInt8
  handled : cmd.decoder = some decoder
  fits : payload.Fits decoder = true
  cname : payload.CName
  two : crc.length = 2

def Telegram.bytes (f : Telegram) : List UInt8 := frameBody f.cmd.code f.payload.data ++ f.crc

/-- What a frame leaves in `STONER`, its pointers read as C strings. -/
structure Decoded where
  cmd : ℕ
  len : ℕ
  value : BitVec 32
  float_value : BitVec 32
  widget : Option (List UInt8)
  text : Option (List UInt8)
  data : Option (List UInt8)
  deriving DecidableEq, Repr

def Receiver.decoded (s : Receiver) : Decoded :=
  { cmd := s.STONER.cmd
    len := s.STONER.len
    value := s.STONER.value
    float_value := s.STONER.float_value
    widget := s.STONER.widget.map Block.cstr
    text := s.STONER.text.map Block.cstr
    data := s.STONER.data.map Block.cstr }

theorem decoded_apply (q : Plan) (s : Receiver) :
    (q.apply s).decoded
      = { s.decoded with
          value := (q.value.map fun v => v s.STONER.long_value).getD s.STONER.value
          float_value := q.float.getD s.STONER.float_value
          widget := some q.widget.cstr
          text := (q.text.map fun t => t.1.cstr).or (s.STONER.text.map Block.cstr) } := by
  unfold Receiver.decoded
  rw [STONER_apply]
  obtain ⟨w, n, v, f, t, m⟩ := q
  cases t <;> rfl

/-- Two plans leave the same if they bring the same. -/
theorem decoded_apply_inj (q q' : Plan) (s : Receiver) :
    (q'.apply s).decoded = (q.apply s).decoded ↔
      (q'.value.map fun v => v s.STONER.long_value).getD s.STONER.value
          = (q.value.map fun v => v s.STONER.long_value).getD s.STONER.value ∧
        q'.float.getD s.STONER.float_value = q.float.getD s.STONER.float_value ∧
        q'.widget.cstr = q.widget.cstr ∧
        (q'.text.map fun t => t.1.cstr).or (s.STONER.text.map Block.cstr)
          = (q.text.map fun t => t.1.cstr).or (s.STONER.text.map Block.cstr) := by
  rw [decoded_apply, decoded_apply, Decoded.mk.injEq]
  simp only [true_and, and_true, Option.some.injEq]

theorem decoded_newData (b : Block) (n : ℕ) (s : Receiver) :
    (s.newData b n).decoded = { s.decoded with data := some b.cstr } := rfl

/-- `receive_parse` on `STONE_RX_BUF` at each of its calls during the read `c`. -/
def received (u : Uart) (c : List UInt8) (s : Receiver) : Except Fault Receiver :=
  ((uart_task u [c]).rx.parsed.drop u.rx.parsed.length).foldlM
    (fun s p => Prod.fst <$> receive_parse p.1 s) s

/-- A read handed over whole is at the front of the buffer that is parsed. -/
theorem received_of_calls {u : Uart} {c : List UInt8}
    (h : (uart_task u [c]).rx.calls = u.rx.calls ++ [(c, c.length)]) :
    ∃ older, ∀ s, received u c s = Prod.fst <$> receive_parse (c ++ older) s := by
  have hdrop := congrArg (List.drop u.rx.calls.length) h
  rw [List.drop_left] at hdrop
  unfold Rx.calls at hdrop
  rw [List.length_map, ← List.map_drop] at hdrop
  unfold received
  match hp : (uart_task u [c]).rx.parsed.drop u.rx.parsed.length with
  | [] =>
      rw [hp] at hdrop
      cases hdrop
  | [(buf, cnt)] =>
      rw [hp, List.map_singleton, List.singleton_inj, Prod.mk.injEq] at hdrop
      obtain ⟨hbuf, -⟩ := hdrop
      refine ⟨buf.drop cnt, fun s => ?_⟩
      rw [← hbuf, List.take_append_drop]
      show (Prod.fst <$> receive_parse buf s) >>= pure = _
      rw [bind_pure]
  | _ :: _ :: _ =>
      rw [hp] at hdrop
      exact absurd (congrArg List.length hdrop) (by simp)

/-! ## §2. What a decoder is shown. -/

/-- The bytes `x` behind a header of this LEN say to the decoder what the payload
says: the same bytes, except for those it does not look at. -/
def Payload.ShownBy : Payload → Decoder → List UInt8 → Prop
  | .quad w _ _ _ b3, .fourByte, x => ∃ c0 c1 c2, w ++ [c0, c1, c2, b3] <+: x
  | .text w t, _, x => ∃ q c k t', q :: w ++ c :: k :: t' <+: x ∧ (c = 0 ∨ isQuote c = true) ∧
      t'.length = t.length ∧ CText.cstr t' = CText.cstr t
  | .sys p, .sysScan, x => scanned isTerminatorByte x = scanned isTerminatorByte p
  | .sys p, _, x => CText.cstr (x.take p.length) = CText.cstr p
  | p, _, x => p.data <+: x

/-- Two stretches of the same lengths, one after the other. -/
theorem append_prefix_iff {w w' : List UInt8} (b b' r : List UInt8) (hw : w'.length = w.length)
    (hb : b'.length = b.length) : w ++ b <+: w' ++ b' ++ r ↔ w' = w ∧ b' = b := by
  have hlen : (w ++ b).length = (w' ++ b').length := by
    rw [List.length_append, List.length_append, hw, hb]
  constructor
  · intro h
    have heq := (List.prefix_of_prefix_length_le h (List.prefix_append _ r)
      hlen.le).eq_of_length hlen
    exact (List.append_inj heq hw.symm).imp Eq.symm Eq.symm
  · rintro ⟨rfl, rfl⟩
    exact List.prefix_append _ r

/-- A name of `n` bytes, `k` more, and the rest. -/
theorem exists_stretches {x : List UInt8} {n k : ℕ} (h : n + k ≤ x.length) :
    ∃ w b r, x = w ++ b ++ r ∧ w.length = n ∧ b.length = k := by
  refine ⟨x.take n, (x.drop n).take k, (x.drop n).drop k, ?_, ?_, ?_⟩
  · rw [List.append_assoc, List.take_append_drop, List.take_append_drop]
  · rw [List.length_take]
    omega
  · rw [List.length_take, List.length_drop]
    omega

theorem exists_six {b : List UInt8} (h : b.length = 6) :
    ∃ b0 b1 b2 b3 b4 b5, b = [b0, b1, b2, b3, b4, b5] := by
  match b, h with
  | [b0, b1, b2, b3, b4, b5], _ => exact ⟨b0, b1, b2, b3, b4, b5, rfl⟩

theorem pairValue_inj {a b c e : UInt8} : pairValue a b = pairValue c e ↔ [a, b] = [c, e] := by
  have hb := b.toNat_lt
  have he := e.toNat_lt
  constructor
  · intro h
    have hnat := congrArg BitVec.toNat h
    rw [toNat_pairValue, toNat_pairValue] at hnat
    rw [UInt8.toNat_inj.mp (show a.toNat = c.toNat by omega),
      UInt8.toNat_inj.mp (show b.toNat = e.toNat by omega)]
  · intro h
    cases h
    rfl

theorem hexFloat_inj {a0 a1 a2 a3 b0 b1 b2 b3 : UInt8} :
    hexFloat a0 a1 a2 a3 = hexFloat b0 b1 b2 b3 ↔ [a0, a1, a2, a3] = [b0, b1, b2, b3] := by
  have ha1 := a1.toNat_lt
  have ha2 := a2.toNat_lt
  have ha3 := a3.toNat_lt
  have hb1 := b1.toNat_lt
  have hb2 := b2.toNat_lt
  have hb3 := b3.toNat_lt
  constructor
  · intro h
    have hnat := congrArg BitVec.toNat h
    rw [toNat_hexFloat, toNat_hexFloat] at hnat
    rw [UInt8.toNat_inj.mp (show a0.toNat = b0.toNat by omega),
      UInt8.toNat_inj.mp (show a1.toNat = b1.toNat by omega),
      UInt8.toNat_inj.mp (show a2.toNat = b2.toNat by omega),
      UInt8.toNat_inj.mp (show a3.toNat = b3.toNat by omega)]
  · intro h
    cases h
    rfl

/-- Filled with stretches of one length, two blocks show the same C string only if
these are the same, when one of them is a C string. -/
theorem cstr_filled_iff {m n : ℕ} {w w' : List UInt8} (hlen : w'.length = w.length)
    (hm : w'.length < m) (hn : w.length < n) (hw : ∀ b ∈ w, b ≠ 0) :
    (Block.filled m w').cstr = (Block.filled n w).cstr ↔ w' = w := by
  rw [Block.cstr_filled hn hw]
  constructor
  · intro h
    exact Block.eq_of_cstr_filled h hlen
  · rintro rfl
    exact Block.cstr_filled hm hw

theorem byteValue_inj {a b : UInt8} :
    BitVec.ofNat 32 a.toNat = BitVec.ofNat 32 b.toNat ↔ [a] = [b] := by
  have ha := a.toNat_lt
  have hb := b.toNat_lt
  constructor
  · intro h
    have hnat := congrArg BitVec.toNat h
    rw [BitVec.toNat_ofNat, BitVec.toNat_ofNat] at hnat
    rw [UInt8.toNat_inj.mp (show a.toNat = b.toNat by omega)]
  · intro h
    cases h
    rfl

/-- The last byte of four shows, whatever `long_value` is. -/
theorem lowByte_inj {l : BitVec 32} {a b : UInt8} :
    l <<< 8 ||| BitVec.ofNat 32 a.toNat = l <<< 8 ||| BitVec.ofNat 32 b.toNat ↔ a = b := by
  have hlow : ∀ c : UInt8, (l <<< 8 ||| BitVec.ofNat 32 c.toNat).toNat % 256 = c.toNat := by
    intro c
    have hc : c.toNat < 2 ^ 8 := c.toNat_lt
    rw [BitVec.toNat_or, BitVec.toNat_shiftLeft, BitVec.toNat_ofNat, Nat.shiftLeft_eq,
      show 256 = 2 ^ 8 from rfl, Nat.or_mod_two_pow, show l.toNat * 2 ^ 8 % 2 ^ 32 % 2 ^ 8 = 0 by omega,
      show c.toNat % 2 ^ 32 % 2 ^ 8 = c.toNat by omega, Nat.zero_or]
  constructor
  · intro h
    have hnat := congrArg (fun x : BitVec 32 => x.toNat % 256) h
    simp only [hlow] at hnat
    exact UInt8.toNat_inj.mp hnat
  · rintro rfl
    rfl

/-- What two plans bring besides the widget. -/
def Plan.SameValues (q' q : Plan) (s : Receiver) : Prop :=
  (q'.value.map fun v => v s.STONER.long_value).getD s.STONER.value
      = (q.value.map fun v => v s.STONER.long_value).getD s.STONER.value ∧
    q'.float.getD s.STONER.float_value = q.float.getD s.STONER.float_value

/-- Bytes that are a payload of the same lengths are decoded as that payload, and
leave the same if it has the same name and brings the same. -/
theorem copied_iff {d : Decoder} {p' : Payload} {q q' : Plan} {hd x r w w' : List UInt8} {len : ℕ}
    (hdec : p'.DecodesTo d) (hq' : p'.plan d = some q') (hhd : hd.length = 7)
    (hx : x = p'.data ++ r) (hlen : len = p'.data.length)
    (hwidget : q'.widget.cstr = q.widget.cstr ↔ w' = w) (htext : q.text = none)
    (htext' : q'.text = none) (older : List UInt8) (s : Receiver) :
    (∃ q₁, d.plan (hd ++ (x ++ older)) len = some (.ok q₁) ∧
      (q₁.apply s).decoded = (q.apply s).decoded) ↔ w' = w ∧ q'.SameValues q s := by
  have hplan := hdec hd (r ++ older) q' hhd hq'
  have hrx : hd ++ (p'.data ++ (r ++ older)) = hd ++ (x ++ older) := by
    rw [hx, List.append_assoc]
  rw [hrx, ← hlen] at hplan
  have hdecoded : (q'.apply s).decoded = (q.apply s).decoded ↔ w' = w ∧ q'.SameValues q s := by
    rw [decoded_apply_inj, hwidget, htext, htext']
    unfold Plan.SameValues
    tauto
  rw [← hdecoded]
  constructor
  · rintro ⟨q₁, h₁, hsame⟩
    rw [hplan] at h₁
    cases h₁
    exact hsame
  · intro hsame
    exact ⟨q', hplan, hsame⟩

theorem shown_byte {w : List UInt8} {v : UInt8} {q : Plan} {hd x : List UInt8}
    (hw : ∀ b ∈ w, b ≠ 0) (hq : (Payload.byte w v).plan .btn = some q) (hhd : hd.length = 7)
    (hx : (Payload.byte w v).data.length ≤ x.length) (older : List UInt8) (s : Receiver) :
    (∃ q₁, Decoder.btn.plan (hd ++ (x ++ older)) (Payload.byte w v).data.length = some (.ok q₁) ∧
      (q₁.apply s).decoded = (q.apply s).decoded) ↔ (Payload.byte w v).ShownBy .btn x := by
  obtain ⟨w', b', r, rfl, hw', hb'⟩ := exists_stretches (n := w.length) (k := 1)
    (by simpa [Payload.data] using hx)
  obtain ⟨v', rfl⟩ := List.length_eq_one_iff.mp hb'
  cases hq
  have hdec : (Payload.byte w' v').DecodesTo .btn := decodesTo_byte
  refine (copied_iff hdec rfl hhd rfl (by simp [Payload.data, hw'])
    (cstr_filled_iff hw' (by omega) (by omega) hw) rfl rfl older s).trans ?_
  show _ ↔ w ++ [v] <+: w' ++ [v'] ++ r
  rw [append_prefix_iff [v] [v'] r hw' rfl, ← byteValue_inj]
  exact and_congr_right fun _ => and_iff_left rfl

theorem shown_pair {w : List UInt8} {hi lo : UInt8} {q : Plan} {hd x : List UInt8}
    (hw : ∀ b ∈ w, b ≠ 0) (hq : (Payload.pair w hi lo).plan .image = some q) (hhd : hd.length = 7)
    (hx : (Payload.pair w hi lo).data.length ≤ x.length) (older : List UInt8) (s : Receiver) :
    (∃ q₁, Decoder.image.plan (hd ++ (x ++ older)) (Payload.pair w hi lo).data.length
        = some (.ok q₁) ∧ (q₁.apply s).decoded = (q.apply s).decoded) ↔
      (Payload.pair w hi lo).ShownBy .image x := by
  obtain ⟨w', b', r, rfl, hw', hb'⟩ := exists_stretches (n := w.length) (k := 2)
    (by simpa [Payload.data] using hx)
  obtain ⟨hi', lo', rfl⟩ := List.length_eq_two.mp hb'
  cases hq
  have hdec : (Payload.pair w' hi' lo').DecodesTo .image := decodesTo_pair
  refine (copied_iff hdec rfl hhd rfl (by simp [Payload.data, hw'])
    (cstr_filled_iff hw' (by omega) (by omega) hw) rfl rfl older s).trans ?_
  show _ ↔ w ++ [hi, lo] <+: w' ++ [hi', lo'] ++ r
  rw [append_prefix_iff [hi, lo] [hi', lo'] r hw' rfl, ← pairValue_inj]
  exact and_congr_right fun _ => and_iff_left rfl

theorem shown_chart {w : List UInt8} {hi lo b0 b1 b2 b3 : UInt8} {q : Plan} {hd x : List UInt8}
    (hw : ∀ b ∈ w, b ≠ 0) (hq : (Payload.chart w hi lo b0 b1 b2 b3).plan .chartView = some q)
    (hhd : hd.length = 7) (hx : (Payload.chart w hi lo b0 b1 b2 b3).data.length ≤ x.length)
    (older : List UInt8) (s : Receiver) :
    (∃ q₁, Decoder.chartView.plan (hd ++ (x ++ older))
        (Payload.chart w hi lo b0 b1 b2 b3).data.length = some (.ok q₁) ∧
        (q₁.apply s).decoded = (q.apply s).decoded) ↔
      (Payload.chart w hi lo b0 b1 b2 b3).ShownBy .chartView x := by
  obtain ⟨w', b', r, rfl, hw', hb'⟩ := exists_stretches (n := w.length) (k := 6)
    (by simpa [Payload.data] using hx)
  obtain ⟨hi', lo', c0, c1, c2, c3, rfl⟩ := exists_six hb'
  cases hq
  have hdec : (Payload.chart w' hi' lo' c0 c1 c2 c3).DecodesTo .chartView := decodesTo_chart
  refine (copied_iff hdec rfl hhd rfl (by simp [Payload.data, hw'])
    (cstr_filled_iff hw' (by omega) (by omega) hw) rfl rfl older s).trans ?_
  show _ ↔ w ++ [hi, lo, b0, b1, b2, b3] <+: w' ++ [hi', lo', c0, c1, c2, c3] ++ r
  rw [append_prefix_iff [hi, lo, b0, b1, b2, b3] [hi', lo', c0, c1, c2, c3] r hw' rfl]
  have hbytes : [hi', lo', c0, c1, c2, c3] = [hi, lo, b0, b1, b2, b3] ↔
      [hi', lo'] = [hi, lo] ∧ [c0, c1, c2, c3] = [b0, b1, b2, b3] := by simp [and_assoc]
  rw [hbytes, ← pairValue_inj, ← hexFloat_inj]
  exact Iff.rfl

theorem shown_slider {w : List UInt8} {b0 b1 b2 b3 : UInt8} {q : Plan} {hd x : List UInt8}
    (hw : ∀ b ∈ w, b ≠ 0) (hq : (Payload.quad w b0 b1 b2 b3).plan .slider = some q)
    (hhd : hd.length = 7) (hx : (Payload.quad w b0 b1 b2 b3).data.length ≤ x.length)
    (older : List UInt8) (s : Receiver) :
    (∃ q₁, Decoder.slider.plan (hd ++ (x ++ older)) (Payload.quad w b0 b1 b2 b3).data.length
        = some (.ok q₁) ∧ (q₁.apply s).decoded = (q.apply s).decoded) ↔
      (Payload.quad w b0 b1 b2 b3).ShownBy .slider x := by
  obtain ⟨w', b', r, rfl, hw', hb'⟩ := exists_stretches (n := w.length) (k := 4)
    (by simpa [Payload.data] using hx)
  obtain ⟨c0, c1, c2, c3, rfl⟩ := exists_four hb'
  cases hq
  have hdec : (Payload.quad w' c0 c1 c2 c3).DecodesTo .slider := decodesTo_slider
  refine (copied_iff hdec rfl hhd rfl (by simp [Payload.data, hw'])
    (cstr_filled_iff hw' (by omega) (by omega) hw) rfl rfl older s).trans ?_
  show _ ↔ w ++ [b0, b1, b2, b3] <+: w' ++ [c0, c1, c2, c3] ++ r
  rw [append_prefix_iff [b0, b1, b2, b3] [c0, c1, c2, c3] r hw' rfl, ← hexFloat_inj]
  exact and_congr_right fun _ => and_iff_right rfl

/-- The four-byte decoder keeps its last byte only. -/
theorem shown_fourByte {w : List UInt8} {b0 b1 b2 b3 : UInt8} {q : Plan} {hd x : List UInt8}
    (hw : ∀ b ∈ w, b ≠ 0) (hq : (Payload.quad w b0 b1 b2 b3).plan .fourByte = some q)
    (hhd : hd.length = 7) (hx : (Payload.quad w b0 b1 b2 b3).data.length ≤ x.length)
    (older : List UInt8) (s : Receiver) :
    (∃ q₁, Decoder.fourByte.plan (hd ++ (x ++ older)) (Payload.quad w b0 b1 b2 b3).data.length
        = some (.ok q₁) ∧ (q₁.apply s).decoded = (q.apply s).decoded) ↔
      (Payload.quad w b0 b1 b2 b3).ShownBy .fourByte x := by
  obtain ⟨w', b', r, rfl, hw', hb'⟩ := exists_stretches (n := w.length) (k := 4)
    (by simpa [Payload.data] using hx)
  obtain ⟨c0, c1, c2, c3, rfl⟩ := exists_four hb'
  cases hq
  have hdec : (Payload.quad w' c0 c1 c2 c3).DecodesTo .fourByte := decodesTo_fourByte
  refine (copied_iff hdec rfl hhd rfl (by simp [Payload.data, hw'])
    (cstr_filled_iff hw' (by omega) (by omega) hw) rfl rfl older s).trans ?_
  show w' = w ∧ s.STONER.long_value <<< 8 ||| BitVec.ofNat 32 c3.toNat
      = s.STONER.long_value <<< 8 ||| BitVec.ofNat 32 b3.toNat ∧ _ ↔
    ∃ e0 e1 e2, w ++ [e0, e1, e2, b3] <+: w' ++ [c0, c1, c2, c3] ++ r
  rw [lowByte_inj]
  constructor
  · rintro ⟨rfl, rfl, -⟩
    exact ⟨c0, c1, c2, List.prefix_append _ r⟩
  · rintro ⟨e0, e1, e2, hpre⟩
    obtain ⟨rfl, hb⟩ := (append_prefix_iff [e0, e1, e2, b3] [c0, c1, c2, c3] r hw' rfl).mp hpre
    cases hb
    exact ⟨rfl, rfl, rfl⟩

/-- The other float decoder looks behind the C string of the name. -/
theorem shown_ieee {w : List UInt8} {b0 b1 b2 b3 : UInt8} {q : Plan} {hd x : List UInt8}
    (hw : ∀ b ∈ w, b ≠ 0) (hq : (Payload.quad w b0 b1 b2 b3).plan .ieee = some q)
    (hhd : hd.length = 7) (hx : (Payload.quad w b0 b1 b2 b3).data.length ≤ x.length)
    (older : List UInt8) (s : Receiver) :
    (∃ q₁, Decoder.ieee.plan (hd ++ (x ++ older)) (Payload.quad w b0 b1 b2 b3).data.length
        = some (.ok q₁) ∧ (q₁.apply s).decoded = (q.apply s).decoded) ↔
      (Payload.quad w b0 b1 b2 b3).ShownBy .ieee x := by
  obtain ⟨w', b', r, rfl, hw', hb'⟩ := exists_stretches (n := w.length) (k := 4)
    (by simpa [Payload.data] using hx)
  obtain ⟨c0, c1, c2, c3, rfl⟩ := exists_four hb'
  have hlen : (Payload.quad w b0 b1 b2 b3).data.length = w'.length + 4 := by
    simp [Payload.data, hw']
  cases hq
  show _ ↔ w ++ [b0, b1, b2, b3] <+: w' ++ [c0, c1, c2, c3] ++ r
  rw [append_prefix_iff [b0, b1, b2, b3] [c0, c1, c2, c3] r hw' rfl]
  by_cases hname : w' = w
  · cases hname
    have hdec : (Payload.quad w c0 c1 c2 c3).DecodesTo .ieee := decodesTo_ieee hw
    refine (copied_iff hdec rfl hhd rfl (by simp [Payload.data])
      (cstr_filled_iff rfl (by omega) (by omega) hw) rfl rfl older s).trans ?_
    rw [← hexFloat_inj]
    exact and_congr_right fun _ => and_iff_right rfl
  · -- whatever stands behind another name, its widget is another one
    have hrx : hd ++ (w' ++ [c0, c1, c2, c3] ++ r ++ older)
        = hd ++ (w' ++ ([c0, c1, c2, c3] ++ (r ++ older))) := by simp only [List.append_assoc]
    rw [hrx, hlen]
    constructor
    · rintro ⟨q₁, hq₁, hsame⟩
      obtain ⟨b, hb, hrest⟩ := ok_of_bind (Option.some.inj hq₁)
      obtain ⟨f, -, hf⟩ := ok_of_bind hrest
      cases hf
      rw [widgetOf_append hhd (by omega) (by decide)] at hb
      cases hb
      have hwidget := ((decoded_apply_inj _ _ s).mp hsame).2.2.1
      exact absurd ((cstr_filled_iff hw' (by omega) (by omega) hw).mp hwidget) hname
    · rintro ⟨h, -⟩
      exact absurd h hname

theorem shown_window {w : List UInt8} {q : Plan} {hd x : List UInt8} (hw : ∀ b ∈ w, b ≠ 0)
    (hq : (Payload.window w).plan .window = some q) (hhd : hd.length = 7)
    (hx : (Payload.window w).data.length ≤ x.length) (older : List UInt8) (s : Receiver) :
    (∃ q₁, Decoder.window.plan (hd ++ (x ++ older)) (Payload.window w).data.length
        = some (.ok q₁) ∧ (q₁.apply s).decoded = (q.apply s).decoded) ↔
      (Payload.window w).ShownBy .window x := by
  obtain ⟨w', r, rfl, hw'⟩ : ∃ w' r, x = w' ++ r ∧ w'.length = w.length :=
    ⟨x.take w.length, x.drop w.length, (List.take_append_drop _ x).symm, List.length_take_of_le hx⟩
  cases hq
  have hdec : (Payload.window w').DecodesTo .window := decodesTo_window
  have hwcstr : CText.cstr w = w := CText.cstr_eq_self hw
  have hcstr : CText.cstr w' = CText.cstr w ↔ w' = w := by
    rw [hwcstr]
    constructor
    · intro h
      have hpre : w <+: w' := h ▸ List.takeWhile_prefix _
      exact (hpre.eq_of_length hw'.symm).symm
    · rintro rfl
      exact hwcstr
  refine (copied_iff hdec rfl hhd rfl hw'.symm
    (by simpa only [Block.cstr_filled_nul] using hcstr) rfl rfl older s).trans ?_
  show _ ↔ w <+: w' ++ r
  have hnil := append_prefix_iff [] [] r hw' rfl
  rw [List.append_nil, List.append_nil] at hnil
  rw [hnil]
  exact and_congr_right fun _ => ⟨fun _ => rfl, fun _ => ⟨rfl, rfl⟩⟩

/-- The text decoder looks for the name's second quote, and skips two bytes there. -/
theorem shown_text {w t : List UInt8} {q : Plan} {hd x : List UInt8}
    (hname : (Payload.text w t).CName) (hq : (Payload.text w t).plan .dataText = some q)
    (hhd : hd.length = 7) (hx : (Payload.text w t).data.length ≤ x.length)
    (older : List UInt8) (s : Receiver) :
    (∃ q₁, Decoder.dataText.plan (hd ++ (x ++ older)) (Payload.text w t).data.length
        = some (.ok q₁) ∧ (q₁.apply s).decoded = (q.apply s).decoded) ↔
      (Payload.text w t).ShownBy .dataText x := by
  have hlen : (Payload.text w t).data.length = w.length + t.length + 3 := by
    simp only [Payload.data, List.length_cons, List.length_append]
    omega
  have hwcstr : (Block.filled 40 (w ++ [0])).cstr = w := by
    rw [Block.cstr_filled_nul]
    exact CText.cstr_eq_self fun b hb => (hname.2 b hb).1
  rw [hlen] at hx ⊢
  cases hq
  constructor
  · rintro ⟨q₁, hq₁, hsame⟩
    obtain ⟨b, hb, h₁⟩ := ok_of_bind (Option.some.inj hq₁)
    have hbw : b.cstr = w := by
      obtain ⟨_, -, h₁⟩ := ok_of_bind h₁
      obtain ⟨_, -, h₁⟩ := ok_of_bind h₁
      obtain ⟨_, -, h₁⟩ := ok_of_bind h₁
      cases h₁
      exact ((decoded_apply_inj _ _ s).mp hsame).2.2.1.trans hwcstr
    -- the name ends inside `x`, at a quote or a NUL
    obtain ⟨k₀, y, rfl⟩ := List.exists_cons_of_length_pos (l := x) (by omega)
    obtain ⟨hrun, -, -⟩ := scanInto_fresh_iff.mp ⟨b, hb, hbw⟩
    have hdrop : (hd ++ (k₀ :: y ++ older)).drop 8 = y ++ older := by
      rw [List.cons_append, List.append_cons]
      exact List.drop_left' (by simp [hhd])
    have hwy : w.length < y.length := by
      rw [List.length_cons] at hx
      omega
    rw [hdrop] at hrun
    have hruny : scanned isQuote y = w := by
      rw [← hrun] at hwy ⊢
      exact (CText.takeWhile_append_of_lt hwy).symm
    obtain ⟨c, rest, hy, hc⟩ := exists_stop (hruny ▸ hwy)
    rw [hruny] at hy
    subst hy
    simp only [List.length_cons, List.length_append] at hx
    obtain ⟨k, rest, rfl⟩ := List.exists_cons_of_length_pos (l := rest) (by omega)
    rw [List.length_cons] at hx
    obtain ⟨t', r, rfl, ht'⟩ : ∃ t' r, rest = t' ++ r ∧ t'.length = t.length :=
      ⟨rest.take t.length, rest.drop t.length, (List.take_append_drop _ rest).symm,
        List.length_take_of_le (by omega)⟩
    have hrx : hd ++ (k₀ :: (w ++ c :: k :: (t' ++ r)) ++ older)
        = (hd ++ k₀ :: (w ++ [c, k])) ++ (t' ++ (r ++ older)) := by
      simp only [List.cons_append, List.append_assoc, List.nil_append]
    rw [hrx] at hb hq₁
    rw [← ht', plan_text hb hbw (by simp [hhd]; omega)] at hq₁
    cases hq₁
    refine ⟨k₀, c, k, t', ⟨r, by simp⟩, hc, ht', ?_⟩
    have htext := ((decoded_apply_inj _ _ s).mp hsame).2.2.2
    simpa [Block.cstr_filled_nul] using htext
  · rintro ⟨k₀, c, k, t', ⟨r, rfl⟩, hc, ht', hcstr⟩
    have hrx : hd ++ (k₀ :: w ++ c :: k :: t' ++ r ++ older)
        = (hd ++ k₀ :: (w ++ [c, k])) ++ (t' ++ (r ++ older)) := by
      simp only [List.cons_append, List.append_assoc, List.nil_append]
    have hdrop : ((hd ++ k₀ :: (w ++ [c, k])) ++ (t' ++ (r ++ older))).drop 8
        = w ++ c :: k :: (t' ++ (r ++ older)) := by
      rw [show (hd ++ k₀ :: (w ++ [c, k])) ++ (t' ++ (r ++ older))
        = (hd ++ [k₀]) ++ (w ++ c :: k :: (t' ++ (r ++ older))) by simp]
      exact List.drop_left' (by simp [hhd])
    obtain ⟨b, hb, hbw⟩ := scanInto_fresh_iff.mpr
      ⟨hdrop ▸ scanned_append_stop _ hname.2 hc, by rw [hdrop]; simp, hname.1⟩
    refine ⟨_, by rw [hrx, ← ht']; exact plan_text hb hbw (by simp [hhd]; omega), ?_⟩
    rw [decoded_apply_inj]
    refine ⟨rfl, rfl, hbw.trans hwcstr.symm, ?_⟩
    simpa [Block.cstr_filled_nul] using hcstr

/-- A system frame shows what its decoder puts into `data`. -/
theorem shown_sys {p hd₀ hd x : List UInt8} {d : Decoder} {b : Block}
    (hfit : (Payload.sys p).Fits d = true) (hhd₀ : hd₀.length = 7) (hhd : hd.length = 7)
    (hx : p.length < x.length) (older rest : List UInt8)
    (hb : d.dataBlock (hd₀ ++ (p ++ 0x3e :: rest)) p.length = some (.ok b)) :
    (∃ b', d.dataBlock (hd ++ (x ++ older)) p.length = some (.ok b') ∧ b'.cstr = b.cstr) ↔
      (Payload.sys p).ShownBy d x := by
  match d, hfit with
  | .sysScan, _ =>
      obtain ⟨b₀, hb₀, hcstr⟩ := scanInto_within (p := p) (n := p.length + 1) rest hhd₀.symm
        (by decide : isTerminatorByte 0x3e = true) (by omega)
      cases (Option.some.inj hb).symm.trans hb₀
      show (∃ b', some (scanInto _ _ _ _) = _ ∧ _) ↔
        scanned isTerminatorByte x = scanned isTerminatorByte p
      have hshort : (scanned isTerminatorByte p).length ≤ p.length :=
        (List.takeWhile_prefix _).length_le
      simp only [Option.some_inj]
      rw [hcstr, scanInto_fresh_iff, List.drop_left' hhd, List.length_append]
      constructor
      · rintro ⟨hrun, -, -⟩
        rw [← hrun]
        exact (CText.takeWhile_append_of_lt (p := fun c => !(c == 0 || isTerminatorByte c))
          (show (scanned _ _).length < _ by rw [hrun]; omega)).symm
      · intro hrun
        refine ⟨?_, by omega, by omega⟩
        rw [← hrun]
        exact CText.takeWhile_append_of_short older (show (scanned _ _).length < _ by
          rw [hrun]
          omega)
  | .sysVersion, _ =>
      have hfill : ∀ hd' p' r : List UInt8, hd'.length = 7 → p'.length = p.length →
          Decoder.sysVersion.dataBlock (hd' ++ (p' ++ r)) p.length
            = some (.ok (Block.filled (p.length + 1) p')) := by
        intro hd' p' r hhd' hp'
        show some (slice _ _ _ >>= _) = _
        rw [slice_append hhd'.symm (by rw [hp']), ok_bind, Block.store_fresh (by omega)]
      have hsplit : x ++ older = x.take p.length ++ (x.drop p.length ++ older) := by
        rw [← List.append_assoc, List.take_append_drop]
      have htake := List.length_take_of_le hx.le
      rw [hfill hd₀ p _ hhd₀ rfl] at hb
      cases hb
      rw [hsplit, hfill hd _ _ hhd htake, Block.cstr_filled_of_lt (by omega)]
      show _ ↔ CText.cstr (x.take p.length) = CText.cstr p
      have hcstr' : (Block.filled (p.length + 1) (x.take p.length)).cstr
          = CText.cstr (x.take p.length) := Block.cstr_filled_of_lt (by omega)
      rw [← hcstr']
      constructor
      · rintro ⟨b', hb', hcstr⟩
        cases hb'
        exact hcstr
      · intro hcstr
        exact ⟨_, rfl, hcstr⟩

/-- Every widget payload, by its decoder. -/
theorem shown_widget {p : Payload} {d : Decoder} {q : Plan} {hd x : List UInt8}
    (hfit : p.Fits d = true) (hname : p.CName) (hq : p.plan d = some q) (hhd : hd.length = 7)
    (hx : p.data.length ≤ x.length) (older : List UInt8) (s : Receiver) :
    (∃ q₁, d.plan (hd ++ (x ++ older)) p.data.length = some (.ok q₁) ∧
      (q₁.apply s).decoded = (q.apply s).decoded) ↔ p.ShownBy d x := by
  match p, d, hfit with
  | .byte _ _, .btn, _ => exact shown_byte hname hq hhd hx older s
  | .pair _ _ _, .image, _ => exact shown_pair hname hq hhd hx older s
  | .quad _ _ _ _ _, .slider, _ => exact shown_slider hname hq hhd hx older s
  | .quad _ _ _ _ _, .fourByte, _ => exact shown_fourByte hname hq hhd hx older s
  | .quad _ _ _ _ _, .ieee, _ => exact shown_ieee hname hq hhd hx older s
  | .chart _ _ _ _ _ _ _, .chartView, _ => exact shown_chart hname hq hhd hx older s
  | .text _ _, .dataText, _ => exact shown_text hname hq hhd hx older s
  | .window _, .window, _ => exact shown_window hname hq hhd hx older s
  | .sys _, .sysScan, _ => cases hq
  | .sys _, .sysVersion, _ => cases hq

/-- Whether a decoder has a plan does not depend on the bytes. -/
theorem Decoder.exists_plan {d : Decoder} {rx : List UInt8} {len : ℕ} {p : Except Fault Plan}
    (h : d.plan rx len = some p) (rx' : List UInt8) (len' : ℕ) :
    ∃ p', d.plan rx' len' = some p' := by
  cases d with
  | sysScan | sysVersion => cases h
  | btn | slider | dataText | fourByte | ieee | image | chartView | window => exact ⟨_, rfl⟩

theorem exists_dataBlock {p : List UInt8} {d : Decoder} (hfit : (Payload.sys p).Fits d = true)
    (rx : List UInt8) (len : ℕ) : ∃ b, d.dataBlock rx len = some b := by
  match d, hfit with
  | .sysScan, _ => exact ⟨_, rfl⟩
  | .sysVersion, _ => exact ⟨_, rfl⟩

/-- **Behind any header, `x` is decoded like the payload exactly when it shows it.** -/
theorem run_shown_iff {p : Payload} {d : Decoder} (hfit : p.Fits d = true) (hname : p.CName)
    {hd₀ hd x : List UInt8} (hhd₀ : hd₀.length = 7) (hhd : hd.length = 7)
    (hx : p.data.length < x.length) (older rest : List UInt8) {s t₀ : Receiver}
    (hlen : s.STONER.len = p.data.length)
    (h₀ : d.run (hd₀ ++ (p.data ++ 0x3e :: rest)) s = .ok t₀) :
    (∃ t, d.run (hd ++ (x ++ older)) s = .ok t ∧ t.decoded = t₀.decoded) ↔ p.ShownBy d x := by
  cases hq : p.plan d with
  | some q =>
      have hplan := Payload.decodesTo hfit hname hd₀ (0x3e :: rest) q hhd₀ hq
      obtain ⟨p', hp'⟩ := Decoder.exists_plan hplan (hd ++ (x ++ older)) p.data.length
      rw [← shown_widget hfit hname hq hhd hx.le older s, hp']
      rw [← hlen] at hplan hp'
      rw [run_eq_plan _ _ _ _ hplan] at h₀
      cases h₀
      rw [run_eq_plan _ _ _ _ hp']
      constructor
      · rintro ⟨t, ht, hsame⟩
        obtain ⟨q₁, rfl, rfl⟩ := ok_of_map ht
        exact ⟨q₁, rfl, hsame⟩
      · rintro ⟨q₁, hq₁, hsame⟩
        cases hq₁
        exact ⟨_, rfl, hsame⟩
  | none =>
      obtain ⟨b, rfl⟩ := Payload.sys_of_plan_none hq
      obtain ⟨blk₀, hblk₀⟩ := exists_dataBlock hfit (hd₀ ++ (b ++ 0x3e :: rest)) b.length
      obtain ⟨blk, hblk⟩ := exists_dataBlock hfit (hd ++ (x ++ older)) b.length
      -- the clearing before it is the same for both
      obtain ⟨t, ht, h₀⟩ := ok_of_bind ((run_eq_dataBlock d _ s blk₀ (hlen ▸ hblk₀)).symm.trans h₀)
      obtain ⟨b₀, rfl, rfl⟩ := ok_of_map h₀
      rw [← shown_sys hfit hhd₀ hhd hx older rest hblk₀, hblk,
        run_eq_dataBlock d _ s blk (hlen ▸ hblk), ht, ok_bind]
      constructor
      · rintro ⟨t', ht', hsame⟩
        obtain ⟨b', rfl, rfl⟩ := ok_of_map ht'
        exact ⟨b', rfl, Option.some.inj (congrArg Decoded.data hsame)⟩
      · rintro ⟨b', hb', hcstr⟩
        cases hb'
        refine ⟨_, rfl, ?_⟩
        rw [decoded_newData, decoded_newData, hcstr]

/-! ## §3. A frame in one read. -/

/-- The bytes read as three bytes, the frame's CMD and LEN, and then bytes that show its
decoder the frame's payload. -/
def Telegram.ReadIn (f : Telegram) (c : List UInt8) : Prop :=
  ∃ x0 x1 x2 x, c = headed x0 x1 x2 f.cmd.code f.payload.data.length x ∧
    f.payload.ShownBy f.decoder x

/-- After noise `g`, the frame is decoded to `t₀`. -/
def Telegram.DecodedBehind (f : Telegram) (g : List UInt8) (u : Uart) (s t₀ : Receiver) : Prop :=
  ∃ t, received u (g ++ f.bytes) s = .ok t ∧ t.decoded = t₀.decoded

theorem exists_headed {c : List UInt8} (h : 7 ≤ c.length) :
    ∃ x0 x1 x2 x, c = headed x0 x1 x2 (frameCmd c) (frameLen c) x := by
  obtain ⟨x0, x1, x2, c1, c0, l1, l0, x, rfl⟩ :
      ∃ x0 x1 x2 c1 c0 l1 l0 x, c = x0 :: x1 :: x2 :: c1 :: c0 :: l1 :: l0 :: x := by
    match c, h with
    | x0 :: x1 :: x2 :: c1 :: c0 :: l1 :: l0 :: x, _ => exact ⟨x0, x1, x2, c1, c0, l1, l0, x, rfl⟩
  have htwo : ∀ hi lo : UInt8, twoBytes (hi.toNat * 256 + lo.toNat) = [hi, lo] := by
    intro hi lo
    have hlo := lo.toNat_lt
    unfold twoBytes
    rw [show (hi.toNat * 256 + lo.toNat) / 256 = hi.toNat by omega,
      show (hi.toNat * 256 + lo.toNat) % 256 = lo.toNat by omega, UInt8.ofNat_toNat,
      UInt8.ofNat_toNat]
  refine ⟨x0, x1, x2, x, ?_⟩
  show _ = [x0, x1, x2] ++ twoBytes (c1.toNat * 256 + c0.toNat)
    ++ twoBytes (l1.toNat * 256 + l0.toNat) ++ x
  rw [htwo, htwo]
  rfl

theorem frameCmd_lt (c : List UInt8) : frameCmd c < 65536 := by
  have hi := (c.getD 3 0).toNat_lt
  have lo := (c.getD 4 0).toNat_lt
  unfold frameCmd
  omega

theorem frameLen_lt (c : List UInt8) : frameLen c < 65536 := by
  have hi := (c.getD 5 0).toNat_lt
  have lo := (c.getD 6 0).toNat_lt
  unfold frameLen
  omega

theorem headed_append (x0 x1 x2 : UInt8) (cmd len : ℕ) (x older : List UInt8) :
    headed x0 x1 x2 cmd len x ++ older = headed x0 x1 x2 cmd len (x ++ older) :=
  List.append_assoc _ x older

theorem length_headed (x0 x1 x2 : UInt8) (cmd len : ℕ) (x : List UInt8) :
    (headed x0 x1 x2 cmd len x).length = x.length + 7 := by
  unfold headed
  rw [List.length_append, Nat.add_comm]
  rfl

namespace Telegram

theorem bytes_headed (f : Telegram) :
    f.bytes = headed 0x53 0x54 0x3c f.cmd.code f.payload.data.length
      (f.payload.data ++ 0x3e :: 0x45 :: 0x54 :: f.crc) := by
  unfold bytes frameBody headed
  simp only [List.append_assoc]
  rfl

theorem length_bytes (f : Telegram) : f.bytes.length = f.payload.data.length + 12 := by
  rw [bytes_headed, length_headed, List.length_append]
  show f.payload.data.length + (f.crc.length + 3) + 7 = _
  rw [f.two]

end Telegram

/-- Behind noise without a `'>ET'`, the frame's first one still comes first: none
overlaps `ST<`. -/
theorem findMark_behind {g F : List UInt8} (hg : ¬ frame_end <:+: g) :
    findMark frame_end (g ++ 0x53 :: F)
      = (findMark frame_end (0x53 :: F)).map (· + g.length) := by
  refine findMark_append_of_free fun j hj hmark => ?_
  rw [List.drop_append_of_le_length hj.le] at hmark
  match hs : g.drop j with
  | [] =>
      rw [List.drop_eq_nil_iff] at hs
      omega
  | [a] =>
      rw [hs] at hmark
      simp [frame_end, List.cons_prefix_cons] at hmark
  | [a, b] =>
      rw [hs] at hmark
      simp [frame_end, List.cons_prefix_cons] at hmark
  | a :: b :: c :: r =>
      rw [hs] at hmark
      have hpre : frame_end <+: a :: b :: c :: r := by
        simpa [frame_end, List.cons_prefix_cons] using hmark
      rw [← hs] at hpre
      exact hg (hpre.isInfix.trans (List.drop_suffix j g).isInfix)

/-- **RESYNCHRONISATION, EXACTLY.**  For noise `g` without a `'>ET'` and a frame whose
first one is its terminator, in one read, from any state with nothing accumulated:
the frame is decoded as it is alone if and only if noise and frame together
read as a header with its CMD and LEN, and data that shows its payload. -/
theorem resync_iff {f : Telegram} {g : List UInt8} {u : Uart} {s t₀ : Receiver} (hu : u.rx.Ready)
    (hmark : findMark frame_end f.bytes = some (f.payload.data.length + 7))
    (hg : ¬ frame_end <:+: g) (hlen : (g ++ f.bytes).length ≤ RX_LEN - 1)
    (halone : received u f.bytes s = .ok t₀) :
    f.DecodedBehind g u s t₀ ↔ f.ReadIn (g ++ f.bytes) := by
  have hR : RX_LEN = 200 := rfl
  have hF := f.length_bytes
  have hboth := hlen
  rw [List.length_append] at hboth
  have hmark' : findMark frame_end (g ++ f.bytes) = some (f.payload.data.length + 7 + g.length) := by
    have hbehind := findMark_behind (g := g) (F := f.bytes.tail) hg
    have hcons : 0x53 :: f.bytes.tail = f.bytes := by
      rw [f.bytes_headed]
      rfl
    rw [hcons, hmark] at hbehind
    exact hbehind
  -- both reads are handed over whole
  obtain ⟨older₀, hrec₀⟩ := received_of_calls ((calls_read_iff hu (by omega) hmark (by omega)).mpr
    (by omega))
  obtain ⟨older, hrec⟩ := received_of_calls ((calls_read_iff hu (by omega) hmark'
    (by rw [List.length_append]; omega)).mpr (by rw [List.length_append]; omega))
  have hL : f.payload.data.length < 65536 := by omega
  rw [hrec₀, f.bytes_headed, headed_append, receive_parse_headed f.handled hL] at halone
  obtain ⟨⟨_, b⟩, h₀, rfl⟩ := ok_of_map halone
  obtain ⟨t₀, hrun₀, h₀⟩ := ok_of_map h₀
  cases h₀
  rw [List.append_assoc] at hrun₀
  have hkeep₀ := run_keeps hrun₀
  unfold Telegram.DecodedBehind Telegram.ReadIn
  constructor
  · rintro ⟨t, ht, hsame⟩
    rw [hrec] at ht
    obtain ⟨⟨_, b⟩, hparse, rfl⟩ := ok_of_map ht
    obtain ⟨x0, x1, x2, x, hc⟩ := exists_headed (c := g ++ f.bytes)
      (by rw [List.length_append]; omega)
    rw [hc, headed_append] at hparse
    have hkeep := receive_parse_keeps (by rw [length_headed]; omega) hparse
    rw [frameCmd_headed (frameCmd_lt _), frameLen_headed (frameLen_lt _)] at hkeep
    -- the same CMD and LEN: they were read from the same places
    have hcmd : frameCmd (g ++ f.bytes) = f.cmd.code :=
      hkeep.1.symm.trans ((congrArg Decoded.cmd hsame).trans hkeep₀.1)
    have hlenEq : frameLen (g ++ f.bytes) = f.payload.data.length :=
      hkeep.2.1.symm.trans ((congrArg Decoded.len hsame).trans hkeep₀.2.1)
    rw [hcmd, hlenEq] at hc hparse
    rw [receive_parse_headed f.handled hL] at hparse
    obtain ⟨t, hrun, hparse⟩ := ok_of_map hparse
    cases hparse
    have hx := congrArg List.length hc
    rw [length_headed, List.length_append] at hx
    have hhead : ([x0, x1, x2] ++ twoBytes f.cmd.code ++ twoBytes f.payload.data.length).length = 7 :=
      rfl
    refine ⟨x0, x1, x2, x, hc, ?_⟩
    exact (run_shown_iff f.fits f.cname rfl hhead (by omega) older _ rfl hrun₀).mp ⟨_, hrun, hsame⟩
  · rintro ⟨x0, x1, x2, x, hc, hshown⟩
    have hx := congrArg List.length hc
    rw [length_headed, List.length_append] at hx
    have hhead : ([x0, x1, x2] ++ twoBytes f.cmd.code ++ twoBytes f.payload.data.length).length = 7 :=
      rfl
    obtain ⟨t, ht, hsame⟩ :=
      (run_shown_iff f.fits f.cname rfl hhead (by omega) older _ rfl hrun₀).mpr hshown
    refine ⟨t, ?_, hsame⟩
    rw [hrec, hc, headed_append, receive_parse_headed f.handled hL]
    show Prod.fst <$> (fun t => (t, true)) <$> f.decoder.run (_ ++ (x ++ older)) _ = _
    rw [ht]
    rfl

theorem decoder_control_button : ReciveCmd.control_button.decoder = some .btn := rfl

theorem plain_P01 : ∀ b ∈ CText.str "P01", b ≠ 0 := List.all_iff_forall_prop.mp (by decide)

open CText in
/-- The button `P01` is pressed. -/
def telegramP01 : Telegram where
  cmd := .control_button
  decoder := .btn
  payload := .byte (str "P01") 1
  crc := [0x3c, 0x2a]
  handled := decoder_control_button
  fits := rfl
  cname := plain_P01
  two := rfl

/-- Nothing accumulated, and zeros in the buffer. -/
def quietUart : Uart := Uart.start [] (List.replicate RX_LEN 0)

theorem received_P01 : ∃ t₀, received quietUart telegramP01.bytes Receiver.init = .ok t₀ := by
  cases h : received quietUart telegramP01.bytes Receiver.init with
  | ok t₀ => exact ⟨t₀, rfl⟩
  | error e =>
      have hok : (received quietUart telegramP01.bytes Receiver.init).isOk = true := by
        decide +kernel
      rw [h] at hok
      cases hok

/-- A frame cut off before its terminator, and sent again, is read from its first copy. -/
theorem resync_again :
    ∃ t₀, received quietUart telegramP01.bytes Receiver.init = .ok t₀ ∧
      telegramP01.DecodedBehind (telegramP01.bytes.take 11) quietUart Receiver.init t₀ := by
  obtain ⟨t₀, ht₀⟩ := received_P01
  refine ⟨t₀, ht₀, (resync_iff ⟨List.length_replicate, rfl⟩ (by decide) (by decide) (by decide)
    ht₀).mpr ⟨0x53, 0x54, 0x3c, _, rfl, ?_⟩⟩
  exact List.prefix_append _ _

/-- One byte of noise, and the frame is decoded to another command. -/
theorem not_resync_noise :
    ¬ ∀ g : List UInt8, ¬ frame_end <:+: g → (g ++ telegramP01.bytes).length ≤ RX_LEN - 1 →
        ∀ (u : Uart) (s t₀ : Receiver), u.rx.Ready → received u telegramP01.bytes s = .ok t₀ →
          telegramP01.DecodedBehind g u s t₀ := by
  intro h
  obtain ⟨t₀, ht₀⟩ := received_P01
  obtain ⟨t, ht, hsame⟩ := h [0x0a] (by decide) (by decide) quietUart Receiver.init t₀
    ⟨List.length_replicate, rfl⟩ ht₀
  have hcmd : (fun t => t.STONER.cmd) <$> received quietUart ([0x0a] ++ telegramP01.bytes)
      Receiver.init = .ok 0x3c10 := by decide +kernel
  have hcmd₀ : (fun t => t.STONER.cmd) <$> received quietUart telegramP01.bytes Receiver.init
      = .ok 0x1001 := by decide +kernel
  rw [ht] at hcmd
  rw [ht₀] at hcmd₀
  have hne : (0x3c10 : ℕ) = 0x1001 :=
    (Except.ok.inj hcmd).symm.trans ((congrArg Decoded.cmd hsame).trans (Except.ok.inj hcmd₀))
  exact absurd hne (by decide)

end StoneHMI
