import J1939Gen.Scheduler.RawCodec

/-!
# Laws of the raw field codec

`J1939_Pack_Raw` writes through a pointer and returns a flag; `packRawCall` is
that call, with the payload it leaves behind in either case.

Main result `raw_codec_laws`: the call succeeds exactly for a field of 1 to 32
bits inside the payload and a value of that width; a failed call leaves the
payload as it was; after a successful one the field reads back and no other
bit has moved; packing what was unpacked is the identity; and calls on
disjoint fields can be exchanged.
-/

namespace J1939Gen.Codec

open Bitmask

/-- A `J1939_Pack_Raw` call (`j1939_encode_decode.c:337-358`): the payload
afterwards and the returned flag. The payload is a buffer, so the `NULL` test
passes. -/
def packRawCall (payload : Mask) (payloadLen startBit : UInt16) (bitLength : UInt8)
    (rawValue : UInt32) : Mask × Bool :=
  match packRaw payload payloadLen startBit bitLength rawValue with
  | some written => (written, true)
  | none => (payload, false)

/-- The field lies inside the payload and the value inside the field. -/
structure Packs (payloadLen startBit : UInt16) (bitLength : UInt8) (rawValue : UInt32) : Prop where
  nonempty : 1 ≤ bitLength.toNat
  width : bitLength.toNat ≤ 32
  inside : startBit.toNat + bitLength.toNat ≤ payloadLen.toNat * 8
  value : rawValue.toNat < 2 ^ bitLength.toNat

section Call

variable {payload : Mask} {payloadLen startBit : UInt16} {bitLength : UInt8} {rawValue : UInt32}

theorem Packs.fits (h : Packs payloadLen startBit bitLength rawValue) :
    rawFieldFits payloadLen startBit bitLength = true :=
  rawFieldFits_iff.mpr ⟨h.nonempty, h.width, h.inside⟩

theorem packRawCall_of_packs (h : Packs payloadLen startBit bitLength rawValue) :
    packRawCall payload payloadLen startBit bitLength rawValue =
      (BitField.write payload startBit.toNat bitLength.toNat rawValue, true) := by
  rw [packRawCall, packRaw_eq_some h.fits h.value]

/-- A value wider than its field is refused. -/
theorem packRaw_eq_none_of_wide (hf : rawFieldFits payloadLen startBit bitLength = true)
    (hv : ¬ rawValue.toNat < 2 ^ bitLength.toNat) :
    packRaw payload payloadLen startBit bitLength rawValue = none := by
  have hlt : bitLength.toNat < 32 := by
    by_contra hge
    have h32 : bitLength.toNat = 32 := by
      have := (rawFieldFits_iff.mp hf).2.1
      omega
    exact hv (by rw [h32]; exact rawValue.toNat_lt)
  rw [packRaw, if_neg (by simp [hf]), if_pos]
  refine ⟨UInt8.lt_iff_toNat_lt.mpr hlt, fun h0 => hv ?_⟩
  rw [← UInt32.toNat_inj, UInt32.toNat_shiftRight, UInt8.toNat_toUInt32, Nat.mod_eq_of_lt hlt,
    Nat.shiftRight_eq_div_pow, show (0 : UInt32).toNat = 0 from rfl] at h0
  exact (Nat.div_eq_zero_iff_lt (Nat.two_pow_pos _)).mp h0

theorem packRawCall_of_not_packs (h : ¬ Packs payloadLen startBit bitLength rawValue) :
    packRawCall payload payloadLen startBit bitLength rawValue = (payload, false) := by
  have hnone : packRaw payload payloadLen startBit bitLength rawValue = none := by
    by_cases hf : rawFieldFits payloadLen startBit bitLength = true
    · apply packRaw_eq_none_of_wide hf
      intro hv
      obtain ⟨h1, h2, h3⟩ := rawFieldFits_iff.mp hf
      exact h ⟨h1, h2, h3, hv⟩
    · rw [packRaw, if_pos (by simpa using hf)]
  rw [packRawCall, hnone]

theorem unpackRaw_of_fits (hf : rawFieldFits payloadLen startBit bitLength = true) :
    unpackRaw payload payloadLen startBit bitLength =
      some (BitField.read payload startBit.toNat bitLength.toNat) := by
  rw [unpackRaw, if_neg (by simp [hf])]

/-- The value of a field can be packed into it. -/
theorem packs_read (hf : rawFieldFits payloadLen startBit bitLength = true) :
    Packs payloadLen startBit bitLength (BitField.read payload startBit.toNat bitLength.toNat) := by
  obtain ⟨h1, h2, h3⟩ := rawFieldFits_iff.mp hf
  exact ⟨h1, h2, h3, BitField.read_lt _ _ h2⟩

end Call

/-- Calls on disjoint fields can be exchanged, whether they succeed or not. -/
theorem packRawCall_comm (payload : Mask) (payloadLen startBit startBit' : UInt16)
    (bitLength bitLength' : UInt8) (rawValue rawValue' : UInt32)
    (hd : startBit.toNat + bitLength.toNat ≤ startBit'.toNat ∨
      startBit'.toNat + bitLength'.toNat ≤ startBit.toNat) :
    (packRawCall (packRawCall payload payloadLen startBit bitLength rawValue).1 payloadLen
      startBit' bitLength' rawValue').1 =
    (packRawCall (packRawCall payload payloadLen startBit' bitLength' rawValue').1 payloadLen
      startBit bitLength rawValue).1 := by
  by_cases h : Packs payloadLen startBit bitLength rawValue
  · by_cases h' : Packs payloadLen startBit' bitLength' rawValue'
    · rw [packRawCall_of_packs h, packRawCall_of_packs h', packRawCall_of_packs h',
        packRawCall_of_packs h]
      exact BitField.write_comm _ h.width h'.width _ _ hd
    · rw [packRawCall_of_not_packs h', packRawCall_of_not_packs h']
  · rw [packRawCall_of_not_packs h, packRawCall_of_not_packs h]

/-- **The laws of the raw field codec.** -/
theorem raw_codec_laws (payload : Mask) (payloadLen startBit : UInt16) (bitLength : UInt8)
    (rawValue : UInt32) :
    let call := packRawCall payload payloadLen startBit bitLength rawValue
    (call.2 = true ↔ 1 ≤ bitLength.toNat ∧ bitLength.toNat ≤ 32 ∧
      startBit.toNat + bitLength.toNat ≤ payloadLen.toNat * 8 ∧
      rawValue.toNat < 2 ^ bitLength.toNat) ∧
    (call.2 = false → call.1 = payload) ∧
    (call.2 = true →
      unpackRaw call.1 payloadLen startBit bitLength = some rawValue ∧
      (∀ j, ¬ (startBit.toNat ≤ j ∧ j < startBit.toNat + bitLength.toNat) →
        test call.1 j = test payload j) ∧
      ∃ old, unpackRaw payload payloadLen startBit bitLength = some old ∧
        packRawCall payload payloadLen startBit bitLength old = (payload, true)) ∧
    (∀ old, unpackRaw payload payloadLen startBit bitLength = some old →
      packRawCall payload payloadLen startBit bitLength old = (payload, true)) ∧
    ∀ (startBit' : UInt16) (bitLength' : UInt8) (rawValue' : UInt32),
      startBit.toNat + bitLength.toNat ≤ startBit'.toNat ∨
        startBit'.toNat + bitLength'.toNat ≤ startBit.toNat →
      let call' := packRawCall payload payloadLen startBit' bitLength' rawValue'
      (packRawCall call.1 payloadLen startBit' bitLength' rawValue').1 =
        (packRawCall call'.1 payloadLen startBit bitLength rawValue).1 ∧
      (packRawCall call.1 payloadLen startBit' bitLength' rawValue').2 = call'.2 ∧
      (packRawCall call'.1 payloadLen startBit bitLength rawValue).2 = call.2 := by
  have hidentity : ∀ old, unpackRaw payload payloadLen startBit bitLength = some old →
      packRawCall payload payloadLen startBit bitLength old = (payload, true) := by
    intro old hold
    by_cases hf : rawFieldFits payloadLen startBit bitLength = true
    · rw [unpackRaw_of_fits hf, Option.some.injEq] at hold
      rw [← hold, packRawCall_of_packs (packs_read hf),
        BitField.write_read _ _ (rawFieldFits_iff.mp hf).2.1]
    · rw [unpackRaw, if_pos (by simpa using hf)] at hold
      cases hold
  have hflag : ∀ (p : Mask) (s : UInt16) (n : UInt8) (v : UInt32),
      (packRawCall p payloadLen s n v).2 = true ↔ Packs payloadLen s n v := by
    intro p s n v
    by_cases h : Packs payloadLen s n v
    · simp [packRawCall_of_packs h, h]
    · simp [packRawCall_of_not_packs h, h]
  -- The flag does not look at the bytes.
  have hsame : ∀ (p q : Mask) (s : UInt16) (n : UInt8) (v : UInt32),
      (packRawCall p payloadLen s n v).2 = (packRawCall q payloadLen s n v).2 := by
    intro p q s n v
    rw [Bool.eq_iff_iff, hflag, hflag]
  refine ⟨?_, ?_, ?_, hidentity, ?_⟩
  · rw [hflag]
    exact ⟨fun h => ⟨h.nonempty, h.width, h.inside, h.value⟩,
      fun ⟨h1, h2, h3, h4⟩ => ⟨h1, h2, h3, h4⟩⟩
  · intro hfalse
    have h : ¬ Packs payloadLen startBit bitLength rawValue := by
      rw [← hflag payload, hfalse]
      simp
    rw [packRawCall_of_not_packs h]
  · intro htrue
    have h := (hflag _ _ _ _).mp htrue
    rw [packRawCall_of_packs h]
    refine ⟨?_, ?_, ?_⟩
    · rw [unpackRaw_of_fits h.fits, BitField.read_write _ _ h.width h.value]
    · intro j hj
      rw [BitField.test_write _ _ h.width, if_neg hj]
    · exact ⟨_, unpackRaw_of_fits h.fits, hidentity _ (unpackRaw_of_fits h.fits)⟩
  · intro startBit' bitLength' rawValue' hd
    exact ⟨packRawCall_comm _ _ _ _ _ _ _ _ hd, hsame _ _ _ _ _, hsame _ _ _ _ _⟩

end J1939Gen.Codec
