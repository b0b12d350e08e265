/-
  StoneHMI.Receive.Crc
  ────────────────────
  **THE FRAME CHECKSUM — `do_crc` of stone_receive.c (CRC16_MODBUS).**

  `do_crc(ptr, len)` runs the reflected polynomial `0xA001` over the first
  `len - 2` bytes, bit by bit, and compares the result, high byte first,
  with the two bytes behind them.  It returns what `memcmp` returns, cut to
  an `unsigned short`: 0 exactly when the two bytes are the checksum.
-/
import Mathlib.Data.List.Basic
import Mathlib.Data.Int.Notation
import Mathlib.Logic.Function.Iterate

namespace StoneHMI

/-! ## §1. The checksum. -/

/-- One turn of the inner loop:
`if (crc & 1) crc = (crc >> 1) ^ 0xA001; else crc = crc >> 1;` -/
def crcBit (crc : BitVec 16) : BitVec 16 :=
  if crc &&& 1 = 1 then (crc >>> 1) ^^^ 0xA001 else crc >>> 1

/-- One turn of the outer loop: `crc ^= *ptr++`, then eight bits. -/
def crcByte (crc : BitVec 16) (b : UInt8) : BitVec 16 :=
  crcBit^[8] (crc ^^^ BitVec.ofNat 16 b.toNat)

/-- The register after the loop over `bs`, from `0xFFFF`. -/
def crc16 (bs : List UInt8) : BitVec 16 := bs.foldl crcByte 0xFFFF

/-- `CRC_BUF`: the checksum, high byte first. -/
def CRC_BUF (bs : List UInt8) : List UInt8 :=
  [UInt8.ofNat ((crc16 bs).toNat >>> 8), UInt8.ofNat ((crc16 bs).toNat &&& 0xFF)]

@[simp] theorem length_CRC_BUF (bs : List UInt8) : (CRC_BUF bs).length = 2 := rfl

/-! ## §2. The comparison. -/

/-- `memcmp`: the difference of the first two bytes that differ, or 0. -/
def memcmp : List UInt8 → List UInt8 → ℤ
  | a :: s, b :: t => if a = b then memcmp s t else (a.toNat : ℤ) - (b.toNat : ℤ)
  | _, _ => 0

/-- `do_crc(ptr, len)`, for `len ≥ 2` bytes at `ptr`. -/
def do_crc (ptr : List UInt8) (len : ℕ) : BitVec 16 :=
  BitVec.ofInt 16 (memcmp ((ptr.drop (len - 2)).take 2) (CRC_BUF (ptr.take (len - 2))))

theorem toNat_sub_ne_zero {a b : UInt8} (h : a ≠ b) :
    BitVec.ofInt 16 ((a.toNat : ℤ) - (b.toNat : ℤ)) ≠ 0 := by
  intro h0
  have hne : a.toNat ≠ b.toNat := fun heq => h (UInt8.toNat_inj.mp heq)
  have ha := a.toNat_lt
  have hb := b.toNat_lt
  have hint : ((a.toNat : ℤ) - (b.toNat : ℤ)).bmod (2 ^ 16) = 0 := by
    rw [← BitVec.toInt_ofInt, h0]
    rfl
  rw [Int.bmod_def] at hint
  split at hint <;> omega

/-- A difference of bytes survives the cut to 16 bits. -/
theorem ofInt_memcmp_eq_zero_iff :
    ∀ {s t : List UInt8}, s.length = t.length →
      (BitVec.ofInt 16 (memcmp s t) = 0 ↔ s = t)
  | [], [], _ => by
      constructor
      · intro _
        rfl
      · intro _
        rfl
  | a :: s, b :: t, hlen => by
      have hlen' : s.length = t.length := by simpa using hlen
      unfold memcmp
      by_cases hab : a = b
      · rw [if_pos hab, ofInt_memcmp_eq_zero_iff hlen', hab]
        exact (List.cons_inj_right b).symm
      · rw [if_neg hab]
        constructor
        · intro h
          exact absurd h (toNat_sub_ne_zero hab)
        · intro h
          exact absurd (List.cons.inj h).1 hab

/-- **`do_crc` accepts exactly the bytes that end in their checksum.** -/
theorem do_crc_eq_zero_iff {body crc : List UInt8} (hcrc : crc.length = 2) :
    do_crc (body ++ crc) (body.length + 2) = 0 ↔ crc = CRC_BUF body := by
  unfold do_crc
  rw [Nat.add_sub_cancel, List.drop_left, List.take_left, List.take_of_length_le (by omega)]
  exact ofInt_memcmp_eq_zero_iff (by rw [hcrc, length_CRC_BUF])

end StoneHMI
