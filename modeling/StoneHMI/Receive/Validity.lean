/-
  StoneHMI.Receive.Validity
  ─────────────────────────
  **WHICH BUFFERS ACT — `frame_head`, LEN and `do_crc` against `receive_parse`.**

  `ValidFrame buf cnt` is the documented format of a received buffer: header,
  LEN, terminator and checksum.  `Guarded` says of a sequence of calls of
  `receive_parse` that none of them acts on anything else: only valid buffers
  are posted, and an invalid one leaves `STONER` alone.

  `receive_parse` looks at CMD and LEN only, so the exact condition
  (`guarded_iff_allMayArrive`) is that each buffer is valid, or is one that the `switch`
  has no case for and that repeats the CMD and LEN already in `STONER`.
-/
import StoneHMI.Receive.Frame

namespace StoneHMI

open CMemory Receiver

/-! ## §1. Valid buffers. -/

/-- The first `cnt` bytes of `buf` are a frame: `ST<`, a LEN that leaves room
for the twelve other bytes, `>ET` right behind LEN data bytes, and the CRC. -/
def ValidFrame (buf : List UInt8) (cnt : ℕ) : Prop :=
  buf.take 3 = frame_head ∧ frameLen buf + 12 = cnt ∧
    (buf.drop (7 + frameLen buf)).take 3 = frame_end ∧ do_crc buf cnt = 0

instance (buf : List UInt8) (cnt : ℕ) : Decidable (ValidFrame buf cnt) :=
  inferInstanceAs (Decidable (_ ∧ _ ∧ _ ∧ _))

/-- Every well-formed frame is valid, whatever stands behind it in the buffer. -/
theorem Frame.valid (f : Frame) (older : List UInt8) :
    ValidFrame (f.bytes ++ older) f.bytes.length := by
  have hR : RX_LEN = 200 := rfl
  have hshort := f.short
  have hlen : frameLen (f.bytes ++ older) = f.payload.data.length :=
    toNat_twoBytes (by omega)
  refine ⟨rfl, ?_, ?_, ?_⟩
  · rw [hlen, f.length_bytes]
  · have hsplit : f.bytes ++ older
        = (f.header ++ f.payload.data) ++ (f.trailer ++ older) := by
      rw [f.bytes_append, List.append_assoc]
    have hpre : (f.header ++ f.payload.data).length = 7 + f.payload.data.length := by
      rw [List.length_append, f.length_header]
    rw [hlen, hsplit, ← hpre, List.drop_left]
    rfl
  · have hbody : f.bytes.length = f.body.length + 2 := by
      rw [Frame.bytes, List.length_append, length_CRC_BUF]
    have htake : do_crc (f.bytes ++ older) f.bytes.length = do_crc f.bytes f.bytes.length := by
      unfold do_crc
      rw [hbody, Nat.add_sub_cancel, Frame.bytes, List.append_assoc, List.drop_left,
        List.drop_left, List.take_left, List.take_left, List.take_left' (length_CRC_BUF _),
        List.take_of_length_le (by rw [length_CRC_BUF])]
    rw [htake, hbody]
    exact (do_crc_eq_zero_iff (length_CRC_BUF f.body)).mpr rfl

/-! ## §2. One call. -/

/-- The call posts only a valid buffer, and an invalid one leaves `STONER` and
the queue unchanged (and so does not fault either). -/
def OnlyValidActs (s : Receiver) (buf : List UInt8) (cnt : ℕ) : Prop :=
  match receive_parse buf s with
  | .error _ => ValidFrame buf cnt
  | .ok (t, posted) =>
      (posted = true → ValidFrame buf cnt) ∧
        (¬ ValidFrame buf cnt → t.STONER = s.STONER ∧ posted = false)

/-- The buffer is valid, or its command has no case and its CMD and LEN are the
ones `STONER` holds. -/
def MayArrive (s : Receiver) (buf : List UInt8) (cnt : ℕ) : Prop :=
  ValidFrame buf cnt ∨
    (decoderOf (frameCmd buf) = none ∧ s.STONER.cmd = frameCmd buf ∧ s.STONER.len = frameLen buf)

instance (s : Receiver) (buf : List UInt8) (cnt : ℕ) : Decidable (MayArrive s buf cnt) :=
  inferInstanceAs (Decidable (_ ∨ _))

theorem onlyValidActs_iff {buf : List UInt8} (hbuf : 7 ≤ buf.length) (s : Receiver) (cnt : ℕ) :
    OnlyValidActs s buf cnt ↔ MayArrive s buf cnt := by
  unfold OnlyValidActs MayArrive
  by_cases hv : ValidFrame buf cnt
  · constructor
    · intro _
      exact Or.inl hv
    · intro _
      split
      · exact hv
      · exact ⟨fun _ => hv, fun hn => absurd hv hn⟩
  · cases hd : decoderOf (frameCmd buf) with
    | none =>
        -- the `default` case still stores CMD and LEN
        rw [receive_parse_ignored hbuf hd]
        constructor
        · intro h
          have hST := (h.2 hv).1
          exact Or.inr ⟨rfl, (congrArg ReciveGroup.cmd hST).symm,
            (congrArg ReciveGroup.len hST).symm⟩
        · intro h
          obtain ⟨_, hc, hl⟩ := h.resolve_left hv
          refine ⟨fun hp => (Bool.false_ne_true hp).elim, fun _ => ⟨?_, rfl⟩⟩
          show { s.STONER with cmd := frameCmd buf, len := frameLen buf } = s.STONER
          rw [← hc, ← hl]
    | some d =>
        -- a handled command posts or faults, so nothing but a valid buffer would do
        rw [receive_parse_handled hbuf hd]
        constructor
        · intro h
          cases hrun : d.run buf (s.setCmdLen (frameCmd buf) (frameLen buf)) with
          | error e =>
              rw [hrun] at h
              exact absurd h hv
          | ok t =>
              rw [hrun] at h
              exact absurd (h.1 rfl) hv
        · intro h
          obtain ⟨hn, _⟩ := h.resolve_left hv
          cases hn

/-! ## §3. Every call of a run. -/

/-- Every call acts on valid buffers only. -/
def Guarded : Receiver → List (List UInt8 × ℕ) → Prop
  | _, [] => True
  | s, (buf, cnt) :: calls =>
      OnlyValidActs s buf cnt ∧
        ∀ t posted, receive_parse buf s = .ok (t, posted) → Guarded t calls

/-- Every buffer of the run may arrive in the state in which it does. -/
def AllMayArrive : Receiver → List (List UInt8 × ℕ) → Prop
  | _, [] => True
  | s, (buf, cnt) :: calls =>
      MayArrive s buf cnt ∧
        ∀ t posted, receive_parse buf s = .ok (t, posted) → AllMayArrive t calls

theorem guarded_iff_of_length :
    ∀ (calls : List (List UInt8 × ℕ)) (s : Receiver),
      (∀ call ∈ calls, 7 ≤ call.1.length) → (Guarded s calls ↔ AllMayArrive s calls)
  | [], _, _ => Iff.rfl
  | (buf, cnt) :: calls, s, h => by
      have htail : ∀ t : Receiver, Guarded t calls ↔ AllMayArrive t calls := fun t =>
        guarded_iff_of_length calls t fun call hc => h call (List.mem_cons_of_mem _ hc)
      have hhead : 7 ≤ buf.length := h (buf, cnt) List.mem_cons_self
      unfold Guarded AllMayArrive
      -- call by call: the two differ in the head only
      rw [onlyValidActs_iff hhead]
      simp only [htail]

/-! ## §4. The buffers `uart_task` hands over. -/

/-- The receive buffer keeps its size, and so do the buffers handed over. -/
def Rx.Sized (n : ℕ) (rx : Rx) : Prop :=
  rx.STONE_RX_BUF.length = n ∧ ∀ call ∈ rx.parsed, call.1.length = n

theorem Rx.Sized.op {n len : ℕ} {u : Uart} (h : u.rx.Sized n) (o : RxOp) :
    (u.op len o).rx.Sized n := by
  cases o with
  | copy i =>
      refine ⟨?_, h.2⟩
      show (u.rx.STONE_RX_BUF.set _ _).length = n
      rw [List.length_set]
      exact h.1
  | receive =>
      refine ⟨h.1, ?_⟩
      intro call hcall
      rcases List.mem_append.mp hcall with hold | hnew
      · exact h.2 call hold
      · rw [List.mem_singleton.mp hnew]
        exact h.1

theorem Rx.Sized.ops {n len : ℕ} (ops : List RxOp) :
    ∀ {u : Uart}, u.rx.Sized n → (ops.foldl (Uart.op len) u).rx.Sized n := by
  induction ops with
  | nil => exact fun h => h
  | cons o ops ih => exact fun h => ih (h.op o)

theorem Rx.Sized.uart_read {n : ℕ} {u : Uart} (h : u.rx.Sized n) (c : List UInt8) :
    (uart_read u c).rx.Sized n := by
  by_cases hc : c = []
  · rw [hc]
    exact h
  · rw [uart_read_eq_ops u c hc]
    exact Rx.Sized.ops _ h

theorem Rx.Sized.uart_task {n : ℕ} :
    ∀ (chunks : List (List UInt8)) {u : Uart}, u.rx.Sized n → (uart_task u chunks).rx.Sized n
  | [], _, h => h
  | c :: chunks, _, h => Rx.Sized.uart_task chunks (h.uart_read c)

/-- **Only valid frames act, exactly when only these may arrive.**  For every
byte stream, in every cutting into reads. -/
theorem guarded_iff_allMayArrive (data buf : List UInt8) (chunks : List (List UInt8))
    (hbuf : buf.length = RX_LEN) :
    Guarded Receiver.init (uart_task (Uart.start data buf) chunks).rx.parsed ↔
      AllMayArrive Receiver.init (uart_task (Uart.start data buf) chunks).rx.parsed := by
  have hR : RX_LEN = 200 := rfl
  have hstart : (Uart.start data buf).rx.Sized RX_LEN := ⟨hbuf, fun _ h => by cases h⟩
  refine guarded_iff_of_length _ _ fun call hcall => ?_
  have hlen := (hstart.uart_task chunks).2 call hcall
  omega

set_option maxRecDepth 4000 in
/-- A press of `P01` that is cut in two acts when its second read is there. -/
theorem guarded_iff_allMayArrive_P01 :
    (uart_task (Uart.start [] (List.replicate RX_LEN 0))
        [pressedP01.bytes.take 9, pressedP01.bytes.drop 9]).rx.parsed
      = [(pressedP01.bytes ++ List.replicate 184 0, pressedP01.bytes.length)] ∧
      Guarded Receiver.init (uart_task (Uart.start [] (List.replicate RX_LEN 0))
        [pressedP01.bytes.take 9, pressedP01.bytes.drop 9]).rx.parsed := by
  have hparsed : (uart_task (Uart.start [] (List.replicate RX_LEN 0))
      [pressedP01.bytes.take 9, pressedP01.bytes.drop 9]).rx.parsed
        = [(pressedP01.bytes ++ List.replicate 184 0, pressedP01.bytes.length)] := by
    decide +kernel
  refine ⟨hparsed, (guarded_iff_allMayArrive [] (List.replicate RX_LEN 0)
    [pressedP01.bytes.take 9, pressedP01.bytes.drop 9] List.length_replicate).mpr ?_⟩
  rw [hparsed]
  exact ⟨Or.inl (pressedP01.valid _), fun _ _ _ => trivial⟩

/-- A press of `P01` whose checksum is off by one bit. -/
def corruptP01 : List UInt8 :=
  [0x53, 0x54, 0x3c, 0x10, 0x01, 0x00, 0x04, 0x50, 0x30, 0x31, 0x01, 0x3e, 0x45, 0x54, 0x4e, 0x18]

set_option maxRecDepth 4000 in
/-- A corrupted frame is posted all the same. -/
theorem not_guarded_corruptP01 :
    ¬ Guarded Receiver.init
      (uart_task (Uart.start [] (List.replicate RX_LEN 0)) [corruptP01]).rx.parsed := by
  have hparsed : (uart_task (Uart.start [] (List.replicate RX_LEN 0)) [corruptP01]).rx.parsed
      = [(corruptP01 ++ List.replicate 184 0, 16)] := by decide +kernel
  rw [hparsed]
  intro h
  have hone := (onlyValidActs_iff (by simp [corruptP01]) Receiver.init 16).mp h.1
  exact absurd hone (by decide +kernel)

end StoneHMI
