/-
  StoneHMI.Receive.Buffer
  ───────────────────────
  **WHAT A FULL RECEIVE BUFFER CARRIES.**

  `receive_parse` reads `STONE_RX_BUF` as it stands, valid or not.  `itemOf`
  is the widget, float and text that the decoder of the command finds there;
  `receive_parse_item` says that such a buffer is posted from any state, and
  shows its item over what `STONER` showed before.
-/
import StoneHMI.Receive.Frame

namespace StoneHMI

open CMemory

/-- All the bytes of `STONE_RX_BUF`. -/
structure RxBuf where
  bytes : List UInt8
  full : bytes.length = RX_LEN
  deriving DecidableEq

theorem RxBuf.header (rx : RxBuf) : 7 ≤ rx.bytes.length := by
  rw [rx.full]
  decide

/-- `receive_parse` on one buffer after the other. -/
def decodeAll : Receiver → List RxBuf → Except Fault Receiver
  | s, [] => pure s
  | s, rx :: rest => do
      let (s, _) ← receive_parse rx.bytes s
      decodeAll s rest

/-- The widget, float and text in the buffer, unless the command is a system
one, or none the `switch` knows, or its decoder leaves the buffer. -/
def itemOf (rx : RxBuf) : Option Item :=
  (decoderOf (frameCmd rx.bytes)).bind fun d =>
    (d.plan rx.bytes (frameLen rx.bytes)).bind fun p => p.toOption.map Plan.item

/-- **A buffer that carries an item is posted, with its item over what was there.** -/
theorem receive_parse_item {rx : RxBuf} {i : Item} (hi : itemOf rx = some i) (s : Receiver) :
    ∃ t, receive_parse rx.bytes s = .ok (t, true) ∧ t.contents = i.onto s.contents := by
  unfold itemOf at hi
  rw [Option.bind_eq_some_iff] at hi
  obtain ⟨d, hd, hi⟩ := hi
  rw [Option.bind_eq_some_iff] at hi
  obtain ⟨p, hp, hi⟩ := hi
  cases p with
  | error e => cases hi
  | ok q =>
      cases hi
      rw [receive_parse_handled rx.header hd, run_eq_plan d rx.bytes _ (.ok q) hp]
      exact ⟨_, rfl, contents_apply q _⟩

/-- The decoders that bring a float. -/
def Decoder.bringsFloat : Decoder → Bool
  | .slider | .ieee | .chartView => true
  | _ => false

/-- The decoder that brings a text. -/
def Decoder.bringsText : Decoder → Bool
  | .dataText => true
  | _ => false

/-- What a plan brings depends on the command alone. -/
theorem Decoder.plan_brings {d : Decoder} {rx : List UInt8} {len : ℕ} {q : Plan}
    (h : d.plan rx len = some (.ok q)) :
    q.float.isSome = d.bringsFloat ∧ q.text.isSome = d.bringsText := by
  cases d with
  | sysScan | sysVersion => cases h
  | btn | slider | ieee =>
      obtain ⟨w, -, h⟩ := ok_of_bind (Option.some.inj h)
      obtain ⟨v, -, h⟩ := ok_of_bind h
      cases h
      exact ⟨rfl, rfl⟩
  | image | window =>
      obtain ⟨w, -, h⟩ := ok_of_bind (Option.some.inj h)
      obtain ⟨v, -, h⟩ := ok_of_bind h
      cases h
      exact ⟨rfl, rfl⟩
  | chartView =>
      obtain ⟨w, -, h⟩ := ok_of_bind (Option.some.inj h)
      obtain ⟨v, -, h⟩ := ok_of_bind h
      obtain ⟨f, -, h⟩ := ok_of_bind h
      cases h
      exact ⟨rfl, rfl⟩
  | dataText =>
      obtain ⟨w, -, h⟩ := ok_of_bind (Option.some.inj h)
      obtain ⟨t, -, h⟩ := ok_of_bind h
      obtain ⟨bs, -, h⟩ := ok_of_bind h
      obtain ⟨t', -, h⟩ := ok_of_bind h
      cases h
      exact ⟨rfl, rfl⟩
  | fourByte =>
      obtain ⟨w, -, h⟩ := ok_of_bind (Option.some.inj h)
      obtain ⟨b0, -, h⟩ := ok_of_bind h
      obtain ⟨b1, -, h⟩ := ok_of_bind h
      obtain ⟨b2, -, h⟩ := ok_of_bind h
      obtain ⟨b3, -, h⟩ := ok_of_bind h
      cases h
      exact ⟨rfl, rfl⟩
/-- The command of a buffer that carries an item, and what it brings. -/
theorem itemOf_brings {rx : RxBuf} {i : Item} (hi : itemOf rx = some i) :
    ∃ d, decoderOf (frameCmd rx.bytes) = some d ∧ i.float.isSome = d.bringsFloat ∧
      i.text.isSome = d.bringsText := by
  unfold itemOf at hi
  rw [Option.bind_eq_some_iff] at hi
  obtain ⟨d, hd, hi⟩ := hi
  rw [Option.bind_eq_some_iff] at hi
  obtain ⟨p, hp, hi⟩ := hi
  cases p with
  | error e => cases hi
  | ok q =>
      cases hi
      obtain ⟨hfloat, htext⟩ := Decoder.plan_brings hp
      refine ⟨d, hd, hfloat, ?_⟩
      rw [← htext]
      exact Option.isSome_map

namespace Frame

/-- A frame at the start of a receive buffer that is zero otherwise. -/
def inBuf (f : Frame) : RxBuf where
  bytes := f.bytes ++ List.replicate (RX_LEN - f.bytes.length) 0
  full := by
    have hshort := f.short
    have hlen := f.length_bytes
    rw [List.length_append, List.length_replicate]
    omega

/-- A widget frame carries what it spells. -/
theorem itemOf_inBuf {f : Frame} {q : Plan} (hq : f.plan = some q) :
    itemOf f.inBuf = some q.item := by
  have hcmd : frameCmd f.inBuf.bytes = f.cmd.code := toNat_twoBytes f.cmd.code_lt
  have hlen : frameLen f.inBuf.bytes = f.payload.data.length := toNat_twoBytes f.length_data_lt
  have hdec : decoderOf f.cmd.code = some f.decoder := by
    rw [decoderOf_code]
    exact f.handled
  have hplan := Payload.decodesTo f.fits f.nameOk.cname f.header
    (f.trailer ++ List.replicate (RX_LEN - f.bytes.length) 0) q f.length_header hq
  rw [← bytes_append] at hplan
  unfold itemOf
  rw [hcmd, hlen, hdec, Option.bind_some]
  show (f.decoder.plan (f.bytes ++ _) _).bind _ = _
  rw [hplan]
  rfl

end Frame

end StoneHMI
