import J1939Gen.Lib.ByteMem

/-!
# CRC-32/ISO-HDLC

Model of `MID/j1939_crc32.c`. Every update is a left fold over the bytes fed,
so a checksum computed in several calls is the checksum of the concatenated
byte stream (`update_append`), whichever module feeds it.
-/

namespace J1939Gen.Crc32

/-- `J1939_CRC32_INIT`. -/
def init : UInt32 := 0xFFFFFFFF

/-- One turn of the bit loop: `(crc >> 1) ^ (0xEDB88320u & (0u - (crc & 1u)))`. -/
def updateBit (crc : UInt32) : UInt32 := (crc >>> 1) ^^^ (0xEDB88320 &&& (0 - (crc &&& 1)))

/-- `J1939_Crc32_Update_U8` (`j1939_crc32.c:11-18`). -/
def updateU8 (crc : UInt32) (value : UInt8) : UInt32 := updateBit^[8] (crc ^^^ value.toUInt32)

/-- `J1939_Crc32_Update` (`j1939_crc32.c:20-29`) over the `length` bytes `data`. -/
def update (crc : UInt32) (data : List UInt8) : UInt32 := data.foldl updateU8 crc

/-- `J1939_Crc32_Update_U16_LE` (`j1939_crc32.c:31-35`). -/
def updateU16Le (crc : UInt32) (value : UInt16) : UInt32 :=
  updateU8 (updateU8 crc value.toUInt8) (value >>> 8).toUInt8

/-- `J1939_Crc32_Update_U32_LE` (`j1939_crc32.c:37-41`). -/
def updateU32Le (crc : UInt32) (value : UInt32) : UInt32 :=
  updateU16Le (updateU16Le crc value.toUInt16) (value >>> 16).toUInt16

/-- `J1939_Crc32_Final`. -/
def final (crc : UInt32) : UInt32 := crc ^^^ 0xFFFFFFFF

@[simp] theorem update_nil (crc : UInt32) : update crc [] = crc := rfl

theorem update_append (crc : UInt32) (a b : List UInt8) :
    update crc (a ++ b) = update (update crc a) b := List.foldl_append

theorem updateU16Le_eq (crc : UInt32) (value : UInt16) :
    updateU16Le crc value = update crc (ByteMem.le16 value) := rfl

theorem updateU32Le_eq (crc : UInt32) (value : UInt32) :
    updateU32Le crc value = update crc (ByteMem.le32 value) := by
  have h0 : value.toUInt16.toUInt8 = value.toUInt8 := by simp
  have h1 : (value.toUInt16 >>> 8).toUInt8 = (value >>> 8).toUInt8 := by
    rw [← UInt8.toNat_inj]
    simp only [UInt16.toNat_toUInt8, UInt16.toNat_shiftRight, UInt32.toNat_toUInt16,
      UInt32.toNat_toUInt8, UInt32.toNat_shiftRight, UInt16.reduceToNat, UInt32.reduceToNat,
      Nat.reduceMod, Nat.shiftRight_eq_div_pow]
    omega
  have h2 : (value >>> 16).toUInt16.toUInt8 = (value >>> 16).toUInt8 := by simp
  have h3 : ((value >>> 16).toUInt16 >>> 8).toUInt8 = (value >>> 24).toUInt8 := by
    rw [← UInt8.toNat_inj]
    simp only [UInt16.toNat_toUInt8, UInt16.toNat_shiftRight, UInt32.toNat_toUInt16,
      UInt32.toNat_toUInt8, UInt32.toNat_shiftRight, UInt16.reduceToNat, UInt32.reduceToNat,
      Nat.reduceMod, Nat.shiftRight_eq_div_pow]
    omega
  rw [updateU32Le, updateU16Le_eq, updateU16Le_eq, ← update_append]
  simp only [ByteMem.le16, ByteMem.le32, h0, h1, h2, h3, List.cons_append, List.nil_append]

/-- The check value of the algorithm, over the ASCII digits `1 … 9`. -/
example : final (update init [0x31, 0x32, 0x33, 0x34, 0x35, 0x36, 0x37, 0x38, 0x39]) = 0xCBF43926 := by
  decide +kernel

end J1939Gen.Crc32
