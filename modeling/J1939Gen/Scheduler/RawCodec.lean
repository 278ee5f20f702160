import J1939Gen.Lib.BitField

/-!
# The raw field codec

Model of the raw path of `MID/j1939_encode_decode.c`: `J1939_Pack_Raw` and
`J1939_Unpack_Raw`. The buffer is a byte function; `payloadLen` is the length
the caller passes.
-/

namespace J1939Gen

open Bitmask

/-- `prv_raw_field_fits` (`j1939_encode_decode.c:328-335`). -/
def rawFieldFits (payloadLen startBit : UInt16) (bitLength : UInt8) : Bool :=
  let bufferBits := payloadLen.toUInt32 * 8
  bitLength ≥ 1 ∧ bitLength ≤ 32 ∧ startBit.toUInt32 < bufferBits ∧
    bitLength.toUInt32 ≤ bufferBits - startBit.toUInt32

/-- `J1939_Pack_Raw` (`j1939_encode_decode.c:337-358`); `none` is `false`. -/
def packRaw (payload : Mask) (payloadLen startBit : UInt16) (bitLength : UInt8)
    (rawValue : UInt32) : Option Mask :=
  if rawFieldFits payloadLen startBit bitLength = false then none
  else if bitLength < 32 ∧ rawValue >>> bitLength.toUInt32 ≠ 0 then none
  else some (BitField.write payload startBit.toNat bitLength.toNat rawValue)

/-- `J1939_Unpack_Raw` (`j1939_encode_decode.c:360-370`); `none` is `false`. -/
def unpackRaw (payload : Mask) (payloadLen startBit : UInt16) (bitLength : UInt8) :
    Option UInt32 :=
  if rawFieldFits payloadLen startBit bitLength = false then none
  else some (BitField.read payload startBit.toNat bitLength.toNat)

theorem rawFieldFits_iff {payloadLen startBit : UInt16} {bitLength : UInt8} :
    rawFieldFits payloadLen startBit bitLength = true ↔
      0 < bitLength.toNat ∧ bitLength.toNat ≤ 32 ∧
        startBit.toNat + bitLength.toNat ≤ payloadLen.toNat * 8 := by
  have hp := payloadLen.toNat_lt
  have hbuf : (payloadLen.toUInt32 * 8).toNat = payloadLen.toNat * 8 := by
    rw [UInt32.toNat_mul]
    simp only [UInt16.toNat_toUInt32, UInt32.reduceToNat]
    omega
  simp only [rawFieldFits, decide_eq_true_eq, ge_iff_le, UInt8.le_iff_toNat_le,
    UInt32.lt_iff_toNat_lt, UInt32.le_iff_toNat_le, hbuf, UInt16.toNat_toUInt32,
    UInt8.toNat_toUInt32, UInt8.reduceToNat]
  constructor
  · rintro ⟨h1, h2, h3, h4⟩
    rw [UInt32.toNat_sub_of_le _ _ (by
      rw [UInt32.le_iff_toNat_le, hbuf, UInt16.toNat_toUInt32]; omega), hbuf,
      UInt16.toNat_toUInt32] at h4
    omega
  · rintro ⟨h1, h2, h3⟩
    rw [UInt32.toNat_sub_of_le _ _ (by
      rw [UInt32.le_iff_toNat_le, hbuf, UInt16.toNat_toUInt32]; omega), hbuf,
      UInt16.toNat_toUInt32]
    omega

/-- A value that fits its field is packed. -/
theorem packRaw_eq_some {payload : Mask} {payloadLen startBit : UInt16} {bitLength : UInt8}
    {rawValue : UInt32} (hf : rawFieldFits payloadLen startBit bitLength = true)
    (hv : rawValue.toNat < 2 ^ bitLength.toNat) :
    packRaw payload payloadLen startBit bitLength rawValue =
      some (BitField.write payload startBit.toNat bitLength.toNat rawValue) := by
  rw [packRaw, if_neg (by simp [hf]), if_neg]
  rintro ⟨hlt, hne⟩
  apply hne
  rw [UInt8.lt_iff_toNat_lt] at hlt
  simp only [UInt8.reduceToNat] at hlt
  rw [← UInt32.toNat_inj, UInt32.toNat_shiftRight, UInt8.toNat_toUInt32,
    Nat.mod_eq_of_lt hlt, Nat.shiftRight_eq_div_pow, Nat.div_eq_of_lt hv]
  rfl

end J1939Gen
