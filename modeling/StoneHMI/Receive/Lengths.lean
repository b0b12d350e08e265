/-
  StoneHMI.Receive.Lengths
  ────────────────────────
  **WHICH LENGTHS ARE HARMLESS.**

  LEN comes from the line, and no decoder checks it: each subtracts its own
  constant from it, copies that many bytes from `STONE_RX_BUF` and reads the
  value or float behind them.  `LenFits` is the exact condition on the buffer
  and LEN, decoder by decoder, under which every count is at least 0, every
  index is below `RX_LEN` and every write stays inside the new block.  What
  `sscanf` scans is a C string, and it looks for the NUL before it scans
  (`SourceEnds`).

  `copiesSafe_iff` proves it for every command, every LEN and every contents of
  the buffer, by one lemma for each kind of access (Lib.CMemory §4) and one for
  each decoder (§2).
-/
import StoneHMI.Receive.Texts

namespace StoneHMI

open CMemory Receiver

/-! ## §1. The condition. -/

/-- **The condition of each decoder**, on the receive buffer and LEN. -/
def Decoder.LenFits (rx : List UInt8) (len : ℕ) : Decoder → Prop
  | .sysScan => EndsFrom rx 7 ∧ (scanned isTerminatorByte (rx.drop 7)).length ≤ len + 1
  | .sysVersion => 7 + len ≤ rx.length
  | .btn => 1 ≤ len ∧ 7 + len ≤ rx.length
  | .slider => 4 ≤ len ∧ 7 + len ≤ rx.length
  | .dataText =>
      EndsFrom rx 8 ∧ (scanned isQuote (rx.drop 8)).length ≤ 40 ∧
        (scanned isQuote (rx.drop 8)).length + 3 ≤ len ∧ 7 + len ≤ rx.length
  | .fourByte => 4 ≤ len ∧ 7 + len ≤ rx.length
  | .ieee =>
      4 ≤ len ∧ 7 + (len - 4) ≤ rx.length ∧
        7 + (CText.cstr ((rx.drop 7).take (len - 4))).length + 4 ≤ rx.length
  | .image => 2 ≤ len ∧ 7 + len ≤ rx.length
  | .chartView => 6 ≤ len ∧ 7 + len ≤ rx.length
  | .window => 7 + len ≤ rx.length

instance (rx : List UInt8) (len : ℕ) : ∀ d : Decoder, Decidable (d.LenFits rx len)
  | .sysScan => inferInstanceAs (Decidable (_ ∧ _))
  | .sysVersion => inferInstanceAs (Decidable (_ ≤ _))
  | .btn => inferInstanceAs (Decidable (_ ∧ _))
  | .slider => inferInstanceAs (Decidable (_ ∧ _))
  | .dataText => inferInstanceAs (Decidable (_ ∧ _))
  | .fourByte => inferInstanceAs (Decidable (_ ∧ _))
  | .ieee => inferInstanceAs (Decidable (_ ∧ _))
  | .image => inferInstanceAs (Decidable (_ ∧ _))
  | .chartView => inferInstanceAs (Decidable (_ ∧ _))
  | .window => inferInstanceAs (Decidable (_ ≤ _))

/-- Where `sscanf` reads a C string in `STONE_RX_BUF`. -/
def Decoder.source : Decoder → Option ℕ
  | .sysScan => some 7
  | .dataText => some 8
  | .sysVersion | .btn | .slider | .fourByte | .ieee | .image | .chartView | .window => none

/-- That string ends inside the buffer. -/
def Decoder.SourceEnds (d : Decoder) (rx : List UInt8) : Prop := ∀ i ∈ d.source, EndsFrom rx i

/-! ## §2. When a decoder's accesses succeed. -/

theorem succeeds_allocate {n : ℤ} : Succeeds (allocate n) ↔ 0 ≤ n := by
  unfold allocate
  split
  · exact iff_of_false (fun ⟨_, hc⟩ => nomatch hc) (by omega)
  · exact iff_of_true ⟨_, rfl⟩ (by omega)

/-- The copy of the name fits the block as soon as its count is not negative. -/
theorem succeeds_widgetOf {k j : ℤ} {rx : List UInt8} {len : ℕ} (hk : k < j) :
    Succeeds (widgetOf k j rx len) ↔ j ≤ len ∧ 7 + ((len : ℤ) - j).toNat ≤ rx.length := by
  have hrest : ∀ b, allocate (len - k) = .ok b →
      (Succeeds (slice rx 7 (len - j) >>= fun bs => b.store bs) ↔
        Succeeds (slice rx 7 ((len : ℤ) - j))) := by
    intro b hb
    have h0 := succeeds_allocate.mp ⟨b, hb⟩
    rw [allocate_of_nonneg h0] at hb
    cases hb
    refine succeeds_bind_of fun bs hbs => succeeds_store.mpr ?_
    have hlen := (eq_of_slice hbs).2
    have hcount := (succeeds_slice.mp ⟨bs, hbs⟩).1
    rw [hlen, Block.size_fresh]
    omega
  show Succeeds (allocate (len - k) >>= fun b => slice rx 7 (len - j) >>= fun bs => b.store bs) ↔ _
  rw [succeeds_bind hrest, succeeds_allocate, succeeds_slice]
  constructor
  · rintro ⟨-, h0, hle⟩
    exact ⟨by omega, hle⟩
  · rintro ⟨h0, hle⟩
    exact ⟨by omega, by omega, hle⟩

theorem succeeds_write_hex_to_float {rx : List UInt8} {i : ℕ} :
    Succeeds (write_hex_to_float rx i) ↔ i + 4 ≤ rx.length := by
  unfold write_hex_to_float
  refine (succeeds_read_bind fun b0 => succeeds_read_bind fun b1 => succeeds_read_bind fun b2 =>
    succeeds_read_bind fun b3 => succeeds_pure _).trans ?_
  rw [and_true]
  omega

theorem succeeds_value2 {rx : List UInt8} {i : ℕ} :
    Succeeds (value2 rx i) ↔ i + 2 ≤ rx.length := by
  unfold value2
  refine (succeeds_read_bind fun hi => succeeds_read_bind fun lo => succeeds_pure _).trans ?_
  rw [and_true]
  omega

/-- A decoder's plan or data block, whichever it has, is worked out without a fault. -/
def Decoder.Runs (d : Decoder) (rx : List UInt8) (len : ℕ) : Prop :=
  (∃ p, d.plan rx len = some p ∧ Succeeds p) ∨ ∃ b, d.dataBlock rx len = some b ∧ Succeeds b

theorem runs_of_plan {d : Decoder} {rx : List UInt8} {len : ℕ} {p : Except Fault Plan}
    (hp : d.plan rx len = some p) (hb : d.dataBlock rx len = none) :
    d.Runs rx len ↔ Succeeds p := by
  unfold Decoder.Runs
  rw [hp, hb]
  simp

theorem runs_of_dataBlock {d : Decoder} {rx : List UInt8} {len : ℕ} {b : Except Fault Block}
    (hp : d.plan rx len = none) (hb : d.dataBlock rx len = some b) :
    d.Runs rx len ↔ Succeeds b := by
  unfold Decoder.Runs
  rw [hp, hb]
  simp

/-- A scan into a fresh block, and what the run must be for it. -/
theorem succeeds_scanInto_fresh {stop : UInt8 → Bool} {m : List UInt8} {i n : ℕ} :
    Succeeds (scanInto stop m i (Block.fresh n)) ↔
      (scanned stop (m.drop i)).length < (m.drop i).length ∧
        (scanned stop (m.drop i)).length ≤ n := by
  constructor
  · rintro ⟨b, hb⟩
    obtain ⟨hw, hlt, hle⟩ := scanInto_fresh_iff.mp ⟨b, hb, rfl⟩
    rw [hw]
    exact ⟨hlt, hle⟩
  · rintro ⟨hlt, hle⟩
    obtain ⟨b, hb, -⟩ := scanInto_fresh_iff.mpr ⟨rfl, hlt, hle⟩
    exact ⟨b, hb⟩

/-- A copy of `n` bytes and a NUL into a block allocated for `n`. -/
theorem succeeds_copyText {rx : List UInt8} {i : ℕ} {n : ℤ} (f : Block → Plan) :
    Succeeds (allocate n >>= fun t => slice rx i n >>= fun bs => t.store (bs ++ [0]) >>=
        fun t => pure (f t)) ↔ 0 ≤ n ∧ i + n.toNat ≤ rx.length := by
  have hslice : ∀ t, allocate n = .ok t →
      (Succeeds (slice rx i n >>= fun bs => t.store (bs ++ [0]) >>= fun t => pure (f t)) ↔
        Succeeds (slice rx i n)) := by
    intro t ht
    have h0 := succeeds_allocate.mp ⟨t, ht⟩
    rw [allocate_of_nonneg h0] at ht
    cases ht
    refine succeeds_bind_of fun bs hbs => ?_
    -- the block has room for the bytes that were copied, and for one more
    have hroom : Succeeds ((Block.fresh n.toNat).store (bs ++ [0])) := by
      rw [succeeds_store, List.length_append, List.length_singleton, (eq_of_slice hbs).2,
        Block.size_fresh]
    obtain ⟨t, ht⟩ := hroom
    rw [ht]
    exact ⟨_, rfl⟩
  rw [succeeds_bind hslice, succeeds_allocate, succeeds_slice]
  exact ⟨fun h => h.2, fun h => ⟨h.1, h⟩⟩

/-- The C string that a copy of `len - 4` bytes leaves in the widget block. -/
theorem cstr_widgetOf {rx : List UInt8} {len : ℕ} {w : Block} (h : widgetOf 3 4 rx len = .ok w) :
    w.cstr = CText.cstr ((rx.drop 7).take (len - 4)) := by
  have hle := ((succeeds_widgetOf (by decide)).mp ⟨w, h⟩).1
  obtain ⟨b, hb, h⟩ := ok_of_bind h
  obtain ⟨bs, hbs, h⟩ := ok_of_bind h
  rw [allocate_of_nonneg (by omega)] at hb
  cases hb
  obtain ⟨hbytes, hlen⟩ := eq_of_slice hbs
  rw [Block.store_fresh (by omega)] at h
  cases h
  rw [Block.cstr_filled_of_lt (by omega), hbytes]
  congr 2
  omega

theorem sourceEnds_none {d : Decoder} (h : d.source = none) (rx : List UInt8) :
    d.SourceEnds rx := by
  unfold Decoder.SourceEnds
  rw [h]
  exact fun i hi => by cases hi

theorem sourceEnds_iff {d : Decoder} {i : ℕ} (h : d.source = some i) (rx : List UInt8) :
    d.SourceEnds rx ↔ EndsFrom rx i := by
  unfold Decoder.SourceEnds
  rw [h]
  exact ⟨fun hends => hends i rfl, fun hends j hj => Option.some.inj hj ▸ hends⟩

/-- A scan of a C string that ends. -/
theorem succeeds_scanInto_of_endsFrom {rx : List UInt8} {i n : ℕ} (h : EndsFrom rx i)
    (stop : UInt8 → Bool) :
    Succeeds (scanInto stop rx i (Block.fresh n)) ↔ (scanned stop (rx.drop i)).length ≤ n :=
  succeeds_scanInto_fresh.trans (and_iff_right (h.length_scanned_lt stop))

/-- **Each decoder's accesses succeed exactly under its condition**, which has the string of its
`sscanf` end. -/
theorem Decoder.runs_iff (d : Decoder) (rx : List UInt8) (len : ℕ) :
    d.SourceEnds rx ∧ d.Runs rx len ↔ d.LenFits rx len := by
  cases d with
  | sysScan =>
      rw [sourceEnds_iff rfl, runs_of_dataBlock rfl rfl]
      exact and_congr_right fun hends => succeeds_scanInto_of_endsFrom hends isTerminatorByte
  | sysVersion =>
      rw [and_iff_right (sourceEnds_none rfl rx), runs_of_dataBlock rfl rfl]
      refine (succeeds_bind_of fun bs hbs => ?_).trans (succeeds_slice.trans ?_)
      · rw [succeeds_store, (eq_of_slice hbs).2, Block.size_fresh]
        omega
      · show _ ↔ 7 + len ≤ rx.length
        omega
  | btn =>
      rw [and_iff_right (sourceEnds_none rfl rx), runs_of_plan rfl rfl]
      refine (succeeds_bind fun w _ => succeeds_read_bind fun v => succeeds_pure _).trans ?_
      rw [succeeds_widgetOf (by decide), and_true]
      show _ ↔ 1 ≤ len ∧ 7 + len ≤ rx.length
      omega
  | slider =>
      rw [and_iff_right (sourceEnds_none rfl rx), runs_of_plan rfl rfl]
      refine (succeeds_bind fun w _ => succeeds_bind_of fun f _ => ⟨_, rfl⟩).trans ?_
      rw [succeeds_widgetOf (by decide), succeeds_write_hex_to_float]
      show _ ↔ 4 ≤ len ∧ 7 + len ≤ rx.length
      omega
  | fourByte =>
      rw [and_iff_right (sourceEnds_none rfl rx), runs_of_plan rfl rfl]
      refine (succeeds_bind fun w _ => succeeds_read_bind fun b0 => succeeds_read_bind fun b1 =>
        succeeds_read_bind fun b2 => succeeds_read_bind fun b3 => succeeds_pure _).trans ?_
      rw [succeeds_widgetOf (by decide), and_true]
      show _ ↔ 4 ≤ len ∧ 7 + len ≤ rx.length
      omega
  | image =>
      rw [and_iff_right (sourceEnds_none rfl rx), runs_of_plan rfl rfl]
      refine (succeeds_bind fun w _ => succeeds_bind_of fun v _ => ⟨_, rfl⟩).trans ?_
      rw [succeeds_widgetOf (by decide), succeeds_value2]
      show _ ↔ 2 ≤ len ∧ 7 + len ≤ rx.length
      omega
  | chartView =>
      rw [and_iff_right (sourceEnds_none rfl rx), runs_of_plan rfl rfl]
      refine (succeeds_bind fun w _ => succeeds_bind fun v _ =>
        succeeds_bind_of fun f _ => ⟨_, rfl⟩).trans ?_
      rw [succeeds_widgetOf (by decide), succeeds_value2, succeeds_write_hex_to_float]
      show _ ↔ 6 ≤ len ∧ 7 + len ≤ rx.length
      omega
  | window =>
      rw [and_iff_right (sourceEnds_none rfl rx), runs_of_plan rfl rfl]
      refine (succeeds_bind_of fun bs hbs => ?_).trans (succeeds_slice.trans ?_)
      · have hroom : Succeeds ((Block.fresh len).store (bs ++ [0])) := by
          rw [succeeds_store, List.length_append, List.length_singleton, (eq_of_slice hbs).2,
            Block.size_fresh, Int.toNat_natCast]
        obtain ⟨w, hw⟩ := hroom
        rw [hw]
        exact ⟨_, rfl⟩
      · show _ ↔ 7 + len ≤ rx.length
        omega
  | ieee =>
      rw [and_iff_right (sourceEnds_none rfl rx), runs_of_plan rfl rfl]
      -- the float is looked for behind the C string of what was copied
      refine (succeeds_bind (Q := 7 + (CText.cstr ((rx.drop 7).take (len - 4))).length + 4
        ≤ rx.length) fun w hw => ?_).trans ?_
      · refine (succeeds_bind_of fun f _ => ⟨_, rfl⟩).trans ?_
        rw [succeeds_write_hex_to_float, cstr_widgetOf hw]
      · rw [succeeds_widgetOf (by decide)]
        show _ ↔ 4 ≤ len ∧ 7 + (len - 4) ≤ rx.length ∧ _
        omega
  | dataText =>
      rw [sourceEnds_iff rfl, runs_of_plan rfl rfl]
      refine and_congr_right fun hends => ?_
      -- the text is looked for behind the name that was scanned
      refine (succeeds_bind (Q := (scanned isQuote (rx.drop 8)).length + 3 ≤ len ∧
        7 + len ≤ rx.length) fun w hw => ?_).trans ?_
      · refine (succeeds_copyText _).trans ?_
        rw [(scanInto_fresh_iff.mp ⟨w, hw, rfl⟩).1]
        omega
      · rw [succeeds_scanInto_of_endsFrom hends]

/-! ## §3. `receive_parse`. -/

theorem noNull_allocate (n : ℤ) : NoNull (allocate n) := by
  unfold NoNull allocate
  split <;> simp

theorem noNull_widgetOf (k j : ℤ) (rx : List UInt8) (len : ℕ) : NoNull (widgetOf k j rx len) :=
  (noNull_allocate _).bind fun b => (noNull_slice rx 7 _).bind fun bs => noNull_store bs b

theorem noNull_value2 (rx : List UInt8) (i : ℕ) : NoNull (value2 rx i) :=
  (noNull_read rx i).bind fun _ => (noNull_read rx _).bind fun _ => noNull_ok _

theorem noNull_write_hex_to_float (rx : List UInt8) (i : ℕ) : NoNull (write_hex_to_float rx i) :=
  (noNull_read rx i).bind fun _ => (noNull_read rx _).bind fun _ =>
    (noNull_read rx _).bind fun _ => (noNull_read rx _).bind fun _ => noNull_ok _

/-- No decoder follows a pointer of the frames before. -/
theorem Decoder.noNull_plan {d : Decoder} {rx : List UInt8} {len : ℕ} {p : Except Fault Plan}
    (h : d.plan rx len = some p) : NoNull p := by
  cases d with
  | sysScan | sysVersion => cases h
  | btn =>
      cases h
      exact (noNull_widgetOf 0 1 rx len).bind fun w => (noNull_read rx _).bind fun v => noNull_ok _
  | slider =>
      cases h
      exact (noNull_widgetOf 3 4 rx len).bind fun w =>
        (noNull_write_hex_to_float rx _).bind fun f => noNull_ok _
  | dataText =>
      cases h
      exact (noNull_scanInto isQuote rx 8 _).bind fun w => (noNull_allocate _).bind fun t =>
        (noNull_slice rx _ _).bind fun bs => (noNull_store _ t).bind fun t => noNull_ok _
  | fourByte =>
      cases h
      exact (noNull_widgetOf 3 4 rx len).bind fun w => (noNull_read rx _).bind fun b0 =>
        (noNull_read rx _).bind fun b1 => (noNull_read rx _).bind fun b2 =>
        (noNull_read rx _).bind fun b3 => noNull_ok _
  | ieee =>
      cases h
      exact (noNull_widgetOf 3 4 rx len).bind fun w =>
        (noNull_write_hex_to_float rx _).bind fun f => noNull_ok _
  | image =>
      cases h
      exact (noNull_widgetOf 0 2 rx len).bind fun w => (noNull_value2 rx _).bind fun v => noNull_ok _
  | chartView =>
      cases h
      exact (noNull_widgetOf 5 6 rx len).bind fun w => (noNull_value2 rx _).bind fun v =>
        (noNull_write_hex_to_float rx _).bind fun f => noNull_ok _
  | window =>
      cases h
      exact (noNull_slice rx 7 _).bind fun bs => (noNull_store _ _).bind fun w => noNull_ok _

theorem Decoder.noNull_dataBlock {d : Decoder} {rx : List UInt8} {len : ℕ} {b : Except Fault Block}
    (h : d.dataBlock rx len = some b) : NoNull b := by
  cases d with
  | sysScan =>
      cases h
      exact noNull_scanInto isTerminatorByte rx 7 _
  | sysVersion =>
      cases h
      exact (noNull_slice rx 7 _).bind fun bs => noNull_store bs _
  | btn | slider | dataText | fourByte | ieee | image | chartView | window => cases h

/-- A decoder whose accesses succeed can only fault in the clearing before them. -/
theorem Decoder.Runs.error {d : Decoder} {rx : List UInt8} {s : Receiver}
    (h : d.Runs rx s.STONER.len) {e : Fault} (he : d.run rx s = .error e) : e = .nullPointer := by
  rcases h with ⟨p, hp, q, hq⟩ | ⟨b, hb, blk, hblk⟩
  · rw [run_eq_plan d rx s p hp, hq] at he
    cases he
  · rw [run_eq_dataBlock d rx s b hb, hblk] at he
    -- `dataClear` faults only where it has no widget block to clear
    have hclear : ∀ f, dataClear s = .error f → f = .nullPointer := by
      intro f hf
      unfold dataClear at hf
      split at hf
      · cases hf
      · cases hf
      · split at hf
        · cases hf
        · cases hf
          rfl
    cases hc : dataClear s with
    | error f =>
        rw [hc] at he
        cases he
        exact hclear _ hc
    | ok t =>
        rw [hc] at he
        cases he

/-- From the start, where there is nothing to clear, any other decoder does fault. -/
theorem Decoder.exists_error {d : Decoder} {rx : List UInt8} {s : Receiver}
    (hs : s.STONER.data = none) (h : ¬ d.Runs rx s.STONER.len) :
    ∃ e, d.run rx s = .error e ∧ e ≠ .nullPointer := by
  rcases d.plan_or_dataBlock rx s.STONER.len with ⟨p, hp⟩ | ⟨b, hb⟩
  · cases p with
    | ok q => exact absurd (Or.inl ⟨_, hp, q, rfl⟩) h
    | error e =>
        refine ⟨e, ?_, fun he => d.noNull_plan hp (congrArg Except.error he)⟩
        rw [run_eq_plan d rx s _ hp]
        rfl
  · cases b with
    | ok blk => exact absurd (Or.inr ⟨_, hb, blk, rfl⟩) h
    | error e =>
        refine ⟨e, ?_, fun he => d.noNull_dataBlock hb (congrArg Except.error he)⟩
        have hclear : dataClear s = .ok s := by
          unfold dataClear
          rw [hs]
          rfl
        rw [run_eq_dataBlock d rx s _ hb, hclear]
        rfl

/-- `sscanf` finds the end of its string in `STONE_RX_BUF`, and in no state does `receive_parse`
copy with a negative count, from beyond that buffer, or beyond its new block: the one fault left
is the clearing through a null pointer. -/
def RxBuf.CopiesSafe (rx : RxBuf) : Prop :=
  (∀ d ∈ decoderOf (frameCmd rx.bytes), d.SourceEnds rx.bytes) ∧
    ∀ (s : Receiver) (e : Fault), receive_parse rx.bytes s = .error e → e = .nullPointer

/-- The decoder of the command in the buffer, if there is one, fits LEN and the contents. -/
def RxBuf.LenFits (rx : RxBuf) : Prop :=
  ∀ d ∈ decoderOf (frameCmd rx.bytes), d.LenFits rx.bytes (frameLen rx.bytes)

instance (rx : RxBuf) : Decidable rx.LenFits :=
  inferInstanceAs (Decidable (∀ d ∈ decoderOf (frameCmd rx.bytes), _))

/-- **MALFORMED LENGTHS, EXACTLY**: for every command, every LEN and every contents of the
buffer, the copies are safe if and only if LEN fits the decoder of the command. -/
theorem copiesSafe_iff (rx : RxBuf) : rx.CopiesSafe ↔ rx.LenFits := by
  unfold RxBuf.CopiesSafe RxBuf.LenFits
  cases hd : decoderOf (frameCmd rx.bytes) with
  | none =>
      refine iff_of_true ⟨nofun, fun s e he => ?_⟩ nofun
      rw [receive_parse_ignored rx.header hd] at he
      cases he
  | some d =>
      simp only [receive_parse_handled rx.header hd, Option.mem_some_iff, forall_eq']
      rw [← d.runs_iff]
      refine and_congr_right fun _ => ⟨fun hsafe => ?_, fun hruns s e he => ?_⟩
      · by_contra hruns
        obtain ⟨e, he, hne⟩ := d.exists_error
          (s := Receiver.init.setCmdLen (frameCmd rx.bytes) (frameLen rx.bytes)) rfl hruns
        refine hne (hsafe Receiver.init e ?_)
        rw [he]
        rfl
      · cases hrun : d.run rx.bytes (s.setCmdLen (frameCmd rx.bytes) (frameLen rx.bytes)) with
        | error f =>
            rw [hrun] at he
            cases he
            exact Decoder.Runs.error hruns hrun
        | ok t =>
            rw [hrun] at he
            cases he

/-- A button frame without data, not even its value. -/
def emptyButton : RxBuf where
  bytes := headed 0x53 0x54 0x3c ReciveCmd.control_button.code 0 (List.replicate 193 0)
  full := by
    unfold headed
    rw [List.length_append, List.length_replicate]
    rfl

/-- **It copies `(unsigned)-1` bytes.** -/
theorem not_copiesSafe : ¬ ∀ rx : RxBuf, rx.CopiesSafe := by
  intro h
  have hwrap : receive_parse emptyButton.bytes Receiver.init = .error .negativeSize := by
    decide +kernel
  exact absurd ((h emptyButton).2 Receiver.init .negativeSize hwrap) (by decide)

end StoneHMI
