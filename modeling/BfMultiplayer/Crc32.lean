import BfMultiplayer.CrcRegister
import Mathlib.Data.UInt
import Mathlib.Tactic.IntervalCases

/-!
# The checksum of the patches

`crc32_update` takes each byte in two halves through a table of sixteen words. The
table holds the results of four shifts of the register with the reversed
polynomial, so a byte is eight shifts; the checksum is the remainder of the message
behind an initial register of ones, with the result complemented.
-/

namespace BfMultiplayer.Crc32

open CrcRegister Polynomial

/-- `crctable_4bits`. -/
def crctable4bits : List UInt32 := [
  0x00000000, 0x1DB71064, 0x3B6E20C8, 0x26D930AC,
  0x76DC4190, 0x6B6B51F4, 0x4DB26158, 0x5005713C,
  0xEDB88320, 0xF00F9344, 0xD6D6A3E8, 0xCB61B38C,
  0x9B64C2B0, 0x86D3D2D4, 0xA00AE278, 0xBDBDF21C]

/-- One line of the loop body: `nibble` is the byte or its upper half. -/
def crcNibble (crc nibble : UInt32) : UInt32 :=
  crctable4bits.getD ((crc ^^^ nibble) &&& 0x0F).toNat 0 ^^^ (crc >>> 4)

/-- The loop body for one byte. -/
def crcByte (crc : UInt32) (data : UInt8) : UInt32 :=
  crcNibble (crcNibble crc data.toUInt32) (data >>> 4).toUInt32

/-- `crc32_update`. -/
def crc32Update (data : List UInt8) (crc : UInt32) : UInt32 := ~~~(data.foldl crcByte (~~~crc))

/-- `crc32`. -/
def crc32 (data : List UInt8) : UInt32 := crc32Update data 0

/-- The polynomial of the table, constant term in the top bit. -/
def polynomial : BitVec 32 := 0xEDB88320#32

/-- The bytes of a message as bit vectors. -/
def bits (data : List UInt8) : List (BitVec 8) := data.map UInt8.toBitVec

/-- An entry of the table is its index after four shifts. -/
theorem crctable_entry (n : Fin 16) :
    (crctable4bits.getD n.val 0).toBitVec = shiftBits polynomial 4 (BitVec.ofNat 32 n.val) := by
  revert n
  decide

/-- A line of the loop adds the low half of its byte and shifts four times. -/
theorem crcNibble_eq (crc nibble : UInt32) :
    (crcNibble crc nibble).toBitVec =
      shiftBits polynomial 4 (crc.toBitVec ^^^ lowBits 4 nibble.toBitVec) := by
  have hindex : ((crc ^^^ nibble) &&& 0x0F).toNat < 16 := by
    rw [UInt32.toNat_and]
    exact Nat.lt_succ_of_le Nat.and_le_right
  have hlow : BitVec.ofNat 32 ((crc ^^^ nibble) &&& 0x0F).toNat =
      lowBits 4 (crc.toBitVec ^^^ nibble.toBitVec) := by
    apply BitVec.eq_of_toNat_eq
    rw [BitVec.toNat_ofNat, Nat.mod_eq_of_lt (by omega)]
    rfl
  have hentry := crctable_entry ⟨_, hindex⟩
  have hmask : lowBits 4 (crc.toBitVec ^^^ lowBits 4 nibble.toBitVec) =
      lowBits 4 (crc.toBitVec ^^^ nibble.toBitVec) := by
    apply BitVec.eq_of_getLsbD_eq
    intro i _
    simp only [getLsbD_lowBits, BitVec.getLsbD_xor]
    by_cases hi : i < 4 <;> simp [hi]
  have hhigh : (crc.toBitVec ^^^ lowBits 4 nibble.toBitVec) >>> 4 = crc.toBitVec >>> 4 := by
    apply BitVec.eq_of_getLsbD_eq
    intro i _
    simp [getLsbD_lowBits]
  rw [shiftBits_eq_table, hmask, hhigh, ← hlow, ← hentry]
  rfl

/-- The upper half of a byte is what four shifts leave of it. -/
theorem upper_half (data : UInt8) :
    lowBits 4 (data >>> 4).toUInt32.toBitVec = data.toBitVec.setWidth 32 >>> 4 := by
  have hbyte : (data >>> 4).toUInt32.toBitVec = (data.toBitVec >>> 4).setWidth 32 := by
    rw [UInt8.toBitVec_toUInt32, UInt8.toBitVec_shiftRight]
    rfl
  rw [hbyte]
  apply BitVec.eq_of_getLsbD_eq
  intro i hi
  rw [getLsbD_lowBits, BitVec.getLsbD_setWidth, BitVec.getLsbD_ushiftRight,
    BitVec.getLsbD_ushiftRight, BitVec.getLsbD_setWidth]
  by_cases hin : i < 4
  · simp [hin, hi, show 4 + i < 32 by omega]
  · rw [BitVec.getLsbD_of_ge data.toBitVec (4 + i) (by omega)]
    simp

/-- The loop body is eight shifts of the register with the byte added. -/
theorem crcByte_eq (crc : UInt32) (data : UInt8) :
    (crcByte crc data).toBitVec =
      shiftBits polynomial 8 (crc.toBitVec ^^^ data.toBitVec.setWidth 32) := by
  have hwidth : data.toUInt32.toBitVec = data.toBitVec.setWidth 32 := UInt8.toBitVec_toUInt32 data
  rw [crcByte, crcNibble_eq, crcNibble_eq, upper_half, hwidth, shiftBits_add polynomial 4 4]
  congr 1
  rw [shiftBits_xor, shiftBits_xor, shiftBits_eq_table polynomial 4 (data.toBitVec.setWidth 32),
    BitVec.xor_assoc]

/-- The loop feeds the message to the register. -/
theorem foldl_crcByte (data : List UInt8) (crc : UInt32) :
    (data.foldl crcByte crc).toBitVec = feed polynomial crc.toBitVec (bits data) := by
  induction data generalizing crc with
  | nil => rfl
  | cons byte data ih => rw [List.foldl_cons, ih, crcByte_eq]; rfl

/-- The register behind the checksum. -/
theorem crc32_toBitVec (data : List UInt8) :
    (crc32 data).toBitVec = ~~~feed polynomial (BitVec.allOnes 32) (bits data) := by
  rw [crc32, crc32Update, UInt32.toBitVec_not, foldl_crcByte]
  rfl

/-- A message checked in two parts: the checksum of the first part is where the
second one starts. -/
theorem crc32Update_append (a b : List UInt8) (crc : UInt32) :
    crc32Update (a ++ b) crc = crc32Update b (crc32Update a crc) := by
  unfold crc32Update
  rw [List.foldl_append, UInt32.not_not]

/-- The generator of CRC-32. -/
noncomputable def crc32Generator : (ZMod 2)[X] :=
  X ^ 32 + X ^ 26 + X ^ 23 + X ^ 22 + X ^ 16 + X ^ 12 + X ^ 11 + X ^ 10 + X ^ 8 + X ^ 7 + X ^ 5 +
    X ^ 4 + X ^ 2 + X + 1

/-- The table is made for the generator of CRC-32. -/
theorem generator_polynomial : generator polynomial = crc32Generator := by
  have hterms : toPoly polynomial = X ^ 26 + X ^ 23 + X ^ 22 + X ^ 16 + X ^ 12 + X ^ 11 + X ^ 10 +
      X ^ 8 + X ^ 7 + X ^ 5 + X ^ 4 + X ^ 2 + X ^ 1 + X ^ 0 := by
    ext n
    rw [coeff_toPoly]
    simp only [coeff_add, coeff_X_pow]
    by_cases hn : n < 32
    · interval_cases n <;> rfl
    · rw [BitVec.getMsbD_of_ge _ n (by omega)]
      iterate 14 rw [if_neg (by omega)]
      rfl
  rw [generator, hterms, crc32Generator]
  ring

/-- The table-driven loop computes CRC-32 of every message: a word is the checksum
exactly when its complement, lowest bit as the highest power, is the remainder of
the message moved up by the 32 bits of the register, with the initial ones in front
of it, modulo the generator. -/
theorem crc32_eq_iff_remainder (data : List UInt8) (crc : UInt32) :
    crc32 data = crc ↔ toPoly (~~~crc.toBitVec) =
      (X ^ 32 * messagePoly (bits data) +
        X ^ (8 * data.length) * toPoly (BitVec.allOnes 32)) %ₘ crc32Generator := by
  have hlen : (bits data).length = data.length := List.length_map _
  have hfeed := toPoly_feed (by omega) polynomial (BitVec.allOnes 32) (bits data)
  rw [generator_polynomial] at hfeed
  rw [← hlen, ← hfeed]
  constructor
  · rintro rfl
    rw [crc32_toBitVec, BitVec.not_not]
  · intro h
    apply UInt32.toBitVec_inj.mp
    rw [crc32_toBitVec, ← toPoly_injective h, BitVec.not_not]

end BfMultiplayer.Crc32
