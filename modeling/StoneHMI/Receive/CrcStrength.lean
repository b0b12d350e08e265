/-
  StoneHMI.Receive.CrcStrength
  ────────────────────────────
  **WHAT THE CHECKSUM DETECTS — `do_crc` as a cyclic checksum.**

  The two loops of `do_crc` feed the bits of the body, each byte's least
  significant bit first, to the register of `Lib.Crc` with the generator
  `0xA001`.  So the register is the remainder that CRC-16/MODBUS asks for, and
  the library's rule for errors holds of every frame the check accepts.

  `memcmp` is any function whose result, cut to 16 bits, vanishes for equal
  bytes only.
-/
import StoneHMI.Lib.CText
import StoneHMI.Lib.Crc
import StoneHMI.Lib.Words
import StoneHMI.Receive.Crc

namespace StoneHMI

open Crc Words

/-! ## §1. The bits of a body. -/

/-- The bits of a byte, the least significant one first. -/
def byteBits (b : UInt8) : List Bool := (List.range 8).map fun i => b.toBitVec.getLsbD i

/-- The bits of a body, byte by byte. -/
def bits (m : List UInt8) : List Bool := m.flatMap byteBits

@[simp] theorem length_byteBits (b : UInt8) : (byteBits b).length = 8 := rfl

@[simp] theorem bits_nil : bits [] = [] := rfl

theorem bits_cons (b : UInt8) (m : List UInt8) : bits (b :: m) = byteBits b ++ bits m := rfl

theorem length_bits (m : List UInt8) : (bits m).length = 8 * m.length := by
  induction m with
  | nil => rfl
  | cons b m ih =>
      rw [bits_cons, List.length_append, length_byteBits, ih, List.length_cons]
      omega

/-- As a word, the bits of a byte are the byte. -/
theorem word_byteBits (b : UInt8) : word 16 (byteBits b) = BitVec.ofNat 16 b.toNat := by
  apply BitVec.eq_of_getLsbD_eq
  intro i hi
  have hbit : b.toBitVec.getLsbD i = b.toNat.testBit i := rfl
  rw [getLsbD_word, BitVec.getLsbD_ofNat]
  by_cases h8 : i < 8
  · rw [List.getD_eq_getElem _ _ (by simpa using h8)]
    simp [byteBits, hbit]
  · rw [List.getD_eq_default _ _ (by simpa using h8), ← hbit, BitVec.getLsbD_of_ge _ i (by omega)]

theorem byteBits_inj {a b : UInt8} (h : byteBits a = byteBits b) : a = b := by
  have hword := congrArg (word 16) h
  rw [word_byteBits, word_byteBits] at hword
  have hnat := congrArg BitVec.toNat hword
  have ha := a.toNat_lt
  have hb := b.toNat_lt
  simp only [BitVec.toNat_ofNat] at hnat
  exact UInt8.toNat_inj.mp (by omega)

theorem bits_inj : ∀ {x y : List UInt8}, x.length = y.length → bits x = bits y → x = y := by
  intro x
  induction x with
  | nil =>
      intro y hlen _
      exact (List.length_eq_zero_iff.mp hlen.symm).symm
  | cons a x ih =>
      intro y hlen h
      cases y with
      | nil => cases hlen
      | cons b y =>
          obtain ⟨hab, hxy⟩ := List.append_inj h rfl
          rw [byteBits_inj hab, ih (by simpa using hlen) hxy]

/-! ## §2. The register of `do_crc`. -/

theorem crcBit_eq_shift (crc : BitVec 16) : crcBit crc = shift 0xA001 crc := by
  have hlow : crc &&& 1 = 1 ↔ crc.getLsbD 0 = true := by
    rw [show (1 : BitVec 16) = 1#16 from rfl, BitVec.and_one_eq_setWidth_ofBool_getLsbD]
    cases crc.getLsbD 0 <;> decide
  unfold crcBit shift step
  rw [Bool.xor_false]
  by_cases h : crc.getLsbD 0 = true
  · rw [if_pos (hlow.mpr h), if_pos h]
  · rw [if_neg fun he => h (hlow.mp he), if_neg h]

theorem crcByte_eq_feed (crc : BitVec 16) (b : UInt8) :
    crcByte crc b = feed 0xA001 crc (byteBits b) := by
  have hbit : crcBit = shift 0xA001 := funext crcBit_eq_shift
  rw [feed_eq_iterate _ _ _ (by simp), word_byteBits]
  unfold crcByte
  rw [hbit]
  rfl

/-- **The two loops feed the bits of the body.** -/
theorem crc16_eq_feed (m : List UInt8) : crc16 m = feed 0xA001 0xFFFF (bits m) := by
  have hloop : ∀ crc : BitVec 16, m.foldl crcByte crc = feed 0xA001 crc (bits m) := by
    induction m with
    | nil =>
        intro crc
        rfl
    | cons b m ih =>
        intro crc
        rw [List.foldl_cons, bits_cons, feed_append, ← crcByte_eq_feed]
        exact ih _
  exact hloop 0xFFFF

/-! ## §3. CRC-16/MODBUS. -/

section Modbus

open Polynomial

/-- The remainder of CRC-16/MODBUS: sixteen ones are added to the first places of the message, and
the generator is 0x8005. -/
noncomputable def modbusRemainder (m : List UInt8) : (ZMod 2)[X] :=
  (X ^ (8 * m.length) * ∑ i ∈ Finset.range 16, X ^ i + X ^ 16 * msgPoly (bits m)) %ₘ
    (X ^ 16 + X ^ 15 + X ^ 2 + 1)

/-- The two bytes are the checksum of the body, high byte first. -/
def IsModbus (m c : List UInt8) : Prop :=
  ∃ hi lo : UInt8, c = [hi, lo] ∧ poly (hi.toBitVec ++ lo.toBitVec) = modbusRemainder m

theorem generator_modbus :
    generator (0xA001 : BitVec 16) = X ^ 16 + X ^ 15 + X ^ 2 + 1 := by
  have hbits : ∀ i < 16, bit ((0xA001 : BitVec 16).getMsbD i)
      = if i = 0 ∨ i = 2 ∨ i = 15 then 1 else 0 := by decide
  have hterm : ∀ i ∈ Finset.range 16, C (bit ((0xA001 : BitVec 16).getMsbD i)) * X ^ i
      = if i = 0 ∨ i = 2 ∨ i = 15 then (X ^ i : (ZMod 2)[X]) else 0 := by
    intro i hi
    rw [hbits i (Finset.mem_range.mp hi)]
    split <;> simp
  unfold generator poly
  rw [Finset.sum_congr rfl hterm]
  simp [Finset.sum_range_succ]
  ring

theorem poly_ones : poly (0xFFFF : BitVec 16) = ∑ i ∈ Finset.range 16, X ^ i := by
  have hbits : ∀ i < 16, bit ((0xFFFF : BitVec 16).getMsbD i) = 1 := by decide
  apply Finset.sum_congr rfl
  intro i hi
  rw [hbits i (Finset.mem_range.mp hi), C_1, one_mul]

/-- **What the loops leave is that remainder.** -/
theorem poly_crc16 (m : List UInt8) : poly (crc16 m) = modbusRemainder m := by
  rw [crc16_eq_feed, poly_feed, length_bits, poly_ones, generator_modbus]
  rfl

end Modbus

theorem append_CRC_BUF (m : List UInt8) :
    (UInt8.ofNat ((crc16 m).toNat >>> 8)).toBitVec ++ (UInt8.ofNat ((crc16 m).toNat &&& 0xFF)).toBitVec
      = crc16 m := by
  have hlt := (crc16 m).isLt
  have hlow : (crc16 m).toNat &&& 0xFF = (crc16 m).toNat % 256 := Nat.and_two_pow_sub_one_eq_mod _ 8
  apply BitVec.eq_of_toNat_eq
  rw [toNat_append_byte, hlow, Nat.shiftRight_eq_div_pow]
  show ((crc16 m).toNat / 2 ^ 8) % 2 ^ 8 * 256 + (crc16 m).toNat % 256 % 2 ^ 8 = (crc16 m).toNat
  omega

theorem isModbus_CRC_BUF (m : List UInt8) : IsModbus m (CRC_BUF m) :=
  ⟨_, _, rfl, by rw [append_CRC_BUF, poly_crc16]⟩

/-! ## §4. The check. -/

/-- A `memcmp` of two bytes that is told from 0 by its low 16 bits. -/
def Compares (memcmp : List UInt8 → List UInt8 → ℤ) : Prop :=
  ∀ s t, s.length = 2 → t.length = 2 → (BitVec.ofInt 16 (memcmp s t) = 0 ↔ s = t)

/-- `do_crc(ptr, len)` with this `memcmp`, for `len ≥ 2` bytes at `ptr`. -/
def do_crcWith (memcmp : List UInt8 → List UInt8 → ℤ) (ptr : List UInt8) (len : ℕ) : BitVec 16 :=
  BitVec.ofInt 16 (memcmp ((ptr.drop (len - 2)).take 2) (CRC_BUF (ptr.take (len - 2))))

theorem do_crcWith_memcmp : do_crcWith memcmp = do_crc := rfl

theorem compares_memcmp : Compares memcmp := by
  intro s t hs ht
  exact ofInt_memcmp_eq_zero_iff (by rw [hs, ht])

theorem do_crcWith_eq_zero_iff {memcmp : List UInt8 → List UInt8 → ℤ} (hcmp : Compares memcmp)
    {m c : List UInt8} (hc : c.length = 2) :
    do_crcWith memcmp (m ++ c) (m.length + 2) = 0 ↔ c = CRC_BUF m := by
  unfold do_crcWith
  rw [Nat.add_sub_cancel, List.drop_left, List.take_left, List.take_of_length_le (by omega)]
  exact hcmp c (CRC_BUF m) hc rfl

/-- The checksum is the register. -/
theorem crc16_eq_of_CRC_BUF {x y : List UInt8} (h : CRC_BUF x = CRC_BUF y) : crc16 x = crc16 y := by
  rw [← append_CRC_BUF x, ← append_CRC_BUF y]
  obtain ⟨hhi, hlo⟩ := List.cons.inj h
  rw [hhi, (List.cons.inj hlo).1]

/-- What a check by checksum does for the frames of one body. -/
structure Guards (check : List UInt8 → ℕ → BitVec 16) (m c : List UInt8) : Prop where
  modbus : IsModbus m c
  accepts : ∀ c' : List UInt8, c'.length = 2 → (check (m ++ c') (m.length + 2) = 0 ↔ c' = c)
  /-- An error of at most 16 bits in a row, anywhere in the body. -/
  burst : ∀ m' : List UInt8, m'.length = m.length → m' ≠ m → WithinWindow 16 (bits m) (bits m') →
    check (m' ++ c) (m.length + 2) ≠ 0
  trailer : ∀ c' : List UInt8, c'.length = 2 → c' ≠ c → check (m ++ c') (m.length + 2) ≠ 0

/-- **CRC STRENGTH**: behind every body exactly one pair of bytes is accepted, its CRC-16/MODBUS,
and in a frame with that pair no error within 16 bits in a row of the body, and none in the pair
alone, goes unnoticed. -/
theorem do_crc_guards (memcmp : List UInt8 → List UInt8 → ℤ) (hcmp : Compares memcmp)
    (m : List UInt8) : ∃ c, c.length = 2 ∧ Guards (do_crcWith memcmp) m c := by
  refine ⟨CRC_BUF m, rfl, isModbus_CRC_BUF m, ?_, ?_, ?_⟩
  · intro c' hc'
    exact do_crcWith_eq_zero_iff hcmp hc'
  · intro m' hlen hne hwin
    rw [← hlen]
    intro hzero
    -- the pair would be the checksum of both bodies
    have hregister := crc16_eq_of_CRC_BUF ((do_crcWith_eq_zero_iff hcmp rfl).mp hzero)
    rw [crc16_eq_feed, crc16_eq_feed] at hregister
    have hbits : (bits m).length = (bits m').length := by rw [length_bits, length_bits, hlen]
    exact feed_ne_of_window (by decide) hbits (fun he => hne (bits_inj hlen he.symm)) hwin _ hregister
  · intro c' hc' hne hzero
    exact hne ((do_crcWith_eq_zero_iff hcmp hc').mp hzero)

/-- The checksum of the digits from 1 to 9. -/
theorem do_crc_guards_digits :
    do_crc (CText.str "123456789" ++ [0x4B, 0x37]) 11 = 0 ∧
      Guards do_crc (CText.str "123456789") [0x4B, 0x37] := by
  obtain ⟨c, hc, hguards⟩ := do_crc_guards memcmp compares_memcmp (CText.str "123456789")
  rw [do_crcWith_memcmp] at hguards
  have hzero : do_crc (CText.str "123456789" ++ [0x4B, 0x37]) 11 = 0 := by decide +kernel
  have hpair : [0x4B, 0x37] = c := (hguards.accepts _ rfl).mp hzero
  exact ⟨hzero, by rw [hpair]; exact hguards⟩

end StoneHMI
