import J1939Gen.Codec.Signal

/-!
# The codec paths agree

For a signal accepted by `J1939_Is_Signal_Scalar_In_Buffer`, the byte copies,
the bit loops and the raw codec read and write the same bits.

* `extractUnalignedBits_eq`, `writeUnalignedBits_eq`: the bit loops are the
  read and the write of a bit field.
* `extractAlignedBits_eq`, `writeAlignedBits_eq`: so are the byte copies.
* `unpackRawIn_eq`, `packRawIn_eq`: the raw codec never leaves its buffer.

Main result `codec_paths_agree`.
-/

namespace J1939Gen.Codec

open ByteMem CheckedMem Bitmask

/-! ## Bits of a word -/

theorem toNat_one_shift {k : UInt32} (hk : k.toNat < 32) : ((1 : UInt32) <<< k).toNat = 2 ^ k.toNat := by
  rw [UInt32.toNat_shiftLeft, show (1 : UInt32).toNat = 1 from rfl, Nat.mod_eq_of_lt hk,
    Nat.one_shiftLeft, Nat.mod_eq_of_lt (Nat.pow_lt_pow_right (by norm_num) hk)]

theorem and_one_shift_ne_zero (v : UInt32) {k : UInt32} (hk : k.toNat < 32) :
    v &&& (1 <<< k) ≠ 0 ↔ v.toNat.testBit k.toNat = true := by
  rw [ne_eq, ← UInt32.toNat_inj, UInt32.toNat_and, toNat_one_shift hk, Nat.and_two_pow,
    show (0 : UInt32).toNat = 0 from rfl]
  cases v.toNat.testBit k.toNat <;> simp

theorem toUInt8_one_shift (k : UInt32) : (1 <<< (k % 8)).toUInt8 = bit k.toNat := by
  have hk : (k % 8).toNat = k.toNat % 8 := UInt32.toNat_mod k 8
  rw [← UInt8.toNat_inj, UInt32.toNat_toUInt8, toNat_one_shift (by omega), toNat_bit, hk]
  apply Nat.mod_eq_of_lt
  exact Nat.pow_lt_pow_right (by norm_num) (Nat.mod_lt _ (by norm_num))

/-! ## The bit loops -/

section Loops

variable {len : ℕ} {payload : Mem} {absStartBit : UInt32}

theorem toNat_absoluteBit {i : ℕ} (hi : i < 32) (h : absStartBit.toNat + 32 < 2 ^ 32) :
    (absStartBit + UInt32.ofNat i).toNat = absStartBit.toNat + i := by
  rw [UInt32.toNat_add, UInt32.toNat_ofNat']
  omega

theorem toNat_byteIdx (absoluteBit : UInt32) : (absoluteBit / 8).toNat = absoluteBit.toNat / 8 :=
  UInt32.toNat_div absoluteBit 8

theorem extractBit_eq {i : ℕ} (hi : i < 32) (h : absStartBit.toNat + 32 < 2 ^ 32)
    (hin : absStartBit.toNat + i < len * 8) (result : UInt32) :
    extractBit len payload absStartBit result i =
      some (if test payload (absStartBit.toNat + i) then result ||| (1 <<< UInt32.ofNat i)
        else result) := by
  have habs := toNat_absoluteBit hi h
  have hbit : (absStartBit + UInt32.ofNat i).toNat % 8 < 8 := Nat.mod_lt _ (by norm_num)
  have hk : ((absStartBit + UInt32.ofNat i) % 8).toUInt8.toUInt32.toNat =
      (absStartBit.toNat + i) % 8 := by
    rw [UInt8.toNat_toUInt32, UInt32.toNat_toUInt8, UInt32.toNat_mod, habs,
      show (8 : UInt32).toNat = 8 from rfl]
    omega
  simp only [extractBit]
  rw [load_of_lt _ (by rw [toNat_byteIdx, habs]; omega), Option.bind_eq_bind, Option.bind_some,
    Option.pure_def]
  simp only [and_one_shift_ne_zero _ (show _ < 32 by rw [hk]; omega)]
  rw [hk, UInt8.toNat_toUInt32, toNat_byteIdx, habs, test_eq_testBit]

/-- The extraction loop reads a bit field. -/
theorem extractUnalignedBits_eq {numBits : UInt8} (hn : numBits.toNat ≤ 32)
    (h : absStartBit.toNat + 32 < 2 ^ 32) (hin : absStartBit.toNat + numBits.toNat ≤ len * 8) :
    extractUnalignedBits len payload absStartBit numBits =
      some (BitField.read payload absStartBit.toNat numBits.toNat) := by
  rw [extractUnalignedBits, BitField.read]
  apply foldlM_eq_some
  intro result i hi
  rw [List.mem_range] at hi
  exact extractBit_eq (by omega) h (by omega) result

theorem writeBit_eq {i : ℕ} (hi : i < 32) (h : absStartBit.toNat + 32 < 2 ^ 32)
    (hin : absStartBit.toNat + i < len * 8) (m : Mem) (on : Bool) :
    writeBit len m (absStartBit + UInt32.ofNat i) on =
      some (assign m (absStartBit.toNat + i) on) := by
  have habs := toNat_absoluteBit hi h
  have hlt : ((absStartBit + UInt32.ofNat i) / 8).toNat < len := by
    rw [toNat_byteIdx, habs]
    omega
  simp only [writeBit]
  rw [load_of_lt _ hlt, Option.bind_eq_bind, Option.bind_some, store_of_lt _ _ hlt,
    toUInt8_one_shift, toNat_byteIdx, habs, assign]

/-- A loop of bit assignments writes a bit field. -/
theorem writeLoop_eq {n : ℕ} (hn : n ≤ 32) (h : absStartBit.toNat + 32 < 2 ^ 32)
    (hin : absStartBit.toNat + n ≤ len * 8) {on : ℕ → Bool} {value : UInt32}
    (hon : ∀ i < n, on i = ((value >>> UInt32.ofNat i) &&& 1 != 0)) :
    (List.range n).foldlM (fun payload i =>
      writeBit len payload (absStartBit + UInt32.ofNat i) (on i)) payload =
      some (BitField.write payload absStartBit.toNat n value) := by
  rw [BitField.write]
  apply foldlM_eq_some
  intro m i hi
  rw [List.mem_range] at hi
  rw [writeBit_eq (by omega) h (by omega), hon i hi]

/-- The write loop writes a bit field. -/
theorem writeUnalignedBits_eq {numBits : UInt8} (hn : numBits.toNat ≤ 32)
    (h : absStartBit.toNat + 32 < 2 ^ 32) (hin : absStartBit.toNat + numBits.toNat ≤ len * 8)
    (value : UInt32) :
    writeUnalignedBits len payload absStartBit numBits value =
      some (BitField.write payload absStartBit.toNat numBits.toNat value) := by
  apply writeLoop_eq hn h hin
  intro i hi
  have hi32 : (UInt32.ofNat i).toNat = i := by
    rw [UInt32.toNat_ofNat']
    omega
  have hlt : (UInt32.ofNat i).toNat < 32 := by omega
  rw [BitField.bit_eq_testBit _ (by omega), Bool.eq_iff_iff, bne_iff_ne,
    and_one_shift_ne_zero _ hlt, hi32]

end Loops

/-! ## The byte copies -/

section Aligned

variable {len : ℕ} {payload : Mem} {signalDef : SignalDefinition}

theorem toNat_byteIdx_add (hb : 1 ≤ signalDef.startByte.toNat) {j : UInt32} (hj : j.toNat < 4) :
    (signalDef.startByte.toUInt32 - 1 + j).toNat = signalDef.startByte.toNat - 1 + j.toNat := by
  have hlt := signalDef.startByte.toNat_lt
  have hsub : (signalDef.startByte.toUInt32 - 1).toNat = signalDef.startByte.toNat - 1 := by
    rw [UInt32.toNat_sub_of_le _ _ (by
      rw [UInt32.le_iff_toNat_le, UInt8.toNat_toUInt32]; exact hb), UInt8.toNat_toUInt32]
    rfl
  rw [UInt32.toNat_add, hsub]
  omega

theorem isWholeBytes_iff {numBits : UInt16} :
    isWholeBytes numBits = true ↔ ∃ k, 1 ≤ k ∧ k ≤ 4 ∧ numBits = UInt16.ofNat (8 * k) := by
  simp only [isWholeBytes, decide_eq_true_eq]
  constructor
  · rintro (h | h | h | h)
    · exact ⟨1, by omega, by omega, h⟩
    · exact ⟨2, by omega, by omega, h⟩
    · exact ⟨3, by omega, by omega, h⟩
    · exact ⟨4, by omega, by omega, h⟩
  · rintro ⟨k, h1, h4, rfl⟩
    interval_cases k <;> decide

/-- The byte copies read a bit field. -/
theorem extractAlignedBits_eq {k : ℕ} (h1 : 1 ≤ k) (h4 : k ≤ 4)
    (hn : signalDef.numBits = UInt16.ofNat (8 * k)) (hb : 1 ≤ signalDef.startByte.toNat)
    (hin : signalDef.startByte.toNat - 1 + k ≤ len) :
    extractAlignedBits len payload signalDef =
      some (BitField.read payload (8 * (signalDef.startByte.toNat - 1)) (8 * k)) := by
  have hidx : ∀ j : UInt32, j.toNat < k →
      load len payload (signalDef.startByte.toUInt32 - 1 + j).toNat =
        some (payload (signalDef.startByte.toNat - 1 + j.toNat)) := by
    intro j hj
    rw [toNat_byteIdx_add hb (by omega), load_of_lt _ (by omega)]
  have h0 : load len payload (signalDef.startByte.toUInt32 - 1).toNat =
      some (payload (signalDef.startByte.toNat - 1)) := by
    have := hidx 0 (show 0 < k by omega)
    rwa [UInt32.add_zero] at this
  have hword := isWord_one payload (signalDef.startByte.toNat - 1)
  unfold extractAlignedBits
  rw [hn]
  interval_cases k
  · show (load len payload _).bind _ = _
    rw [h0]
    exact congrArg some (hword.eq_read (by omega))
  · show (load len payload _).bind _ = _
    rw [h0]
    show (load len payload _).bind _ = _
    rw [hidx 1 (by decide)]
    exact congrArg some ((hword.extend (by omega)).eq_read (by omega))
  · show (load len payload _).bind _ = _
    rw [h0]
    show (load len payload _).bind _ = _
    rw [hidx 1 (by decide)]
    show (load len payload _).bind _ = _
    rw [hidx 2 (by decide)]
    exact congrArg some (((hword.extend (by omega)).extend (by omega)).eq_read (by omega))
  · show (load len payload _).bind _ = _
    rw [h0]
    show (load len payload _).bind _ = _
    rw [hidx 1 (by decide)]
    show (load len payload _).bind _ = _
    rw [hidx 2 (by decide)]
    show (load len payload _).bind _ = _
    rw [hidx 3 (by decide)]
    exact congrArg some
      ((((hword.extend (by omega)).extend (by omega)).extend (by omega)).eq_read (by omega))

/-- The byte copies write a bit field. -/
theorem writeAlignedBits_eq {k : ℕ} (h1 : 1 ≤ k) (h4 : k ≤ 4)
    (hn : signalDef.numBits = UInt16.ofNat (8 * k)) (hb : 1 ≤ signalDef.startByte.toNat)
    (hin : signalDef.startByte.toNat - 1 + k ≤ len) (value : UInt32) :
    writeAlignedBits len payload signalDef value =
      some (BitField.write payload (8 * (signalDef.startByte.toNat - 1)) (8 * k) value) := by
  have hidx : ∀ (m : Mem) (j : UInt32) (b : UInt8), j.toNat < k →
      store len m (signalDef.startByte.toUInt32 - 1 + j).toNat b =
        some (Function.update m (signalDef.startByte.toNat - 1 + j.toNat) b) := by
    intro m j b hj
    rw [toNat_byteIdx_add hb (by omega), store_of_lt _ _ (by omega)]
  have h0 : store len payload (signalDef.startByte.toUInt32 - 1).toNat (value &&& 0xFF).toUInt8 =
      some (Function.update payload (signalDef.startByte.toNat - 1)
        ((value >>> UInt32.ofNat (8 * 0)) &&& 0xFF).toUInt8) := by
    have := hidx payload 0 (value &&& 0xFF).toUInt8 (show 0 < k by omega)
    rw [UInt32.add_zero] at this
    rw [this, show UInt32.ofNat (8 * 0) = 0 from rfl, UInt32.shiftRight_zero]
    rfl
  have hone := (isWritten_zero payload (signalDef.startByte.toNat - 1) value).extend
    (show 0 < 4 by omega)
  unfold writeAlignedBits
  rw [hn]
  interval_cases k
  · show store len payload _ _ = _
    rw [h0]
    exact congrArg some (hone.eq_write (by omega))
  · show (store len payload _ _).bind _ = _
    rw [h0]
    show store len _ _ _ = _
    rw [hidx _ 1 _ (by decide)]
    exact congrArg some ((hone.extend (by omega)).eq_write (by omega))
  · show (store len payload _ _).bind _ = _
    rw [h0]
    show (store len _ _ _).bind _ = _
    rw [hidx _ 1 _ (by decide)]
    show store len _ _ _ = _
    rw [hidx _ 2 _ (by decide)]
    exact congrArg some (((hone.extend (by omega)).extend (by omega)).eq_write (by omega))
  · show (store len payload _ _).bind _ = _
    rw [h0]
    show (store len _ _ _).bind _ = _
    rw [hidx _ 1 _ (by decide)]
    show (store len _ _ _).bind _ = _
    rw [hidx _ 2 _ (by decide)]
    show store len _ _ _ = _
    rw [hidx _ 3 _ (by decide)]
    exact congrArg some
      ((((hone.extend (by omega)).extend (by omega)).extend (by omega)).eq_write (by omega))

end Aligned

/-! ## Accepted signals -/

/-- What `J1939_Is_Signal_Scalar_In_Buffer` lets through. -/
structure Accepted (signalDef : SignalDefinition) (payloadLen : UInt16) : Prop where
  startByte : 1 ≤ signalDef.startByte.toNat
  startBit : 1 ≤ signalDef.startBit.toNat
  startBit_le : signalDef.startBit.toNat ≤ 8
  numBits : 1 ≤ signalDef.numBits.toNat
  numBits_le : signalDef.numBits.toNat ≤ 32
  inside : (signalDef.startByte.toNat - 1) * 8 + (signalDef.startBit.toNat - 1) +
    signalDef.numBits.toNat ≤ payloadLen.toNat * 8

theorem toNat_absoluteStartBit {signalDef : SignalDefinition}
    (hbyte : 1 ≤ signalDef.startByte.toNat) (hbit : 1 ≤ signalDef.startBit.toNat) :
    (absoluteStartBit signalDef).toNat =
      (signalDef.startByte.toNat - 1) * 8 + (signalDef.startBit.toNat - 1) := by
  have h1 := signalDef.startByte.toNat_lt
  have h2 := signalDef.startBit.toNat_lt
  have hsub : ∀ b : UInt8, 1 ≤ b.toNat → (b.toUInt32 - 1).toNat = b.toNat - 1 := by
    intro b hb
    rw [UInt32.toNat_sub_of_le _ _ (by
      rw [UInt32.le_iff_toNat_le, UInt8.toNat_toUInt32]; exact hb), UInt8.toNat_toUInt32]
    rfl
  simp only [absoluteStartBit]
  rw [UInt32.toNat_add, UInt32.toNat_mul, hsub _ hbyte, hsub _ hbit,
    show (8 : UInt32).toNat = 8 from rfl]
  omega

theorem isSignalScalarInBuffer_iff {signalDef : SignalDefinition} {payloadLen : UInt16} :
    isSignalScalarInBuffer signalDef payloadLen = true ↔ Accepted signalDef payloadLen := by
  have hp := payloadLen.toNat_lt
  have hbuf : (payloadLen.toUInt32 * 8).toNat = payloadLen.toNat * 8 := by
    rw [UInt32.toNat_mul, UInt16.toNat_toUInt32, show (8 : UInt32).toNat = 8 from rfl]
    omega
  have hguard : (payloadLen = 0 ∨ signalDef.startByte < 1 ∨ signalDef.startBit < 1 ∨
      signalDef.startBit > 8 ∨ signalDef.numBits < 1 ∨ signalDef.numBits > 32) ↔
      (payloadLen.toNat = 0 ∨ signalDef.startByte.toNat < 1 ∨ signalDef.startBit.toNat < 1 ∨
        8 < signalDef.startBit.toNat ∨ signalDef.numBits.toNat < 1 ∨
        32 < signalDef.numBits.toNat) := by
    rw [← UInt16.toNat_inj, UInt8.lt_iff_toNat_lt, UInt8.lt_iff_toNat_lt, gt_iff_lt,
      UInt8.lt_iff_toNat_lt, UInt16.lt_iff_toNat_lt, gt_iff_lt, UInt16.lt_iff_toNat_lt]
    rfl
  simp only [isSignalScalarInBuffer, hguard]
  by_cases hg : payloadLen.toNat = 0 ∨ signalDef.startByte.toNat < 1 ∨
      signalDef.startBit.toNat < 1 ∨ 8 < signalDef.startBit.toNat ∨
      signalDef.numBits.toNat < 1 ∨ 32 < signalDef.numBits.toNat
  · rw [if_pos hg]
    refine ⟨fun h => by simp at h, fun h => ?_⟩
    have := h.startByte; have := h.startBit; have := h.startBit_le
    have := h.numBits; have := h.numBits_le; have := h.inside
    omega
  · rw [if_neg hg, decide_eq_true_eq]
    have habs : ((signalDef.startByte.toUInt32 - 1) * 8 + (signalDef.startBit.toUInt32 - 1)).toNat =
        (signalDef.startByte.toNat - 1) * 8 + (signalDef.startBit.toNat - 1) :=
      toNat_absoluteStartBit (by omega) (by omega)
    rw [UInt32.lt_iff_toNat_lt, UInt32.le_iff_toNat_le, habs, hbuf, UInt16.toNat_toUInt32]
    constructor
    · rintro ⟨hlt, hle⟩
      rw [UInt32.toNat_sub_of_le _ _ (by rw [UInt32.le_iff_toNat_le, habs, hbuf]; omega), habs,
        hbuf] at hle
      exact ⟨by omega, by omega, by omega, by omega, by omega, by omega⟩
    · intro h
      have := h.numBits; have := h.inside
      rw [UInt32.toNat_sub_of_le _ _ (by rw [UInt32.le_iff_toNat_le, habs, hbuf]; omega), habs,
        hbuf]
      omega

/-! ## The raw codec in its buffer -/

section Raw

variable (payload : Mem) (payloadLen startBit : UInt16) (bitLength : UInt8)

/-- `J1939_Unpack_Raw` reads inside the payload. -/
theorem unpackRawIn_eq :
    unpackRawIn payload payloadLen startBit bitLength =
      some (unpackRaw payload payloadLen startBit bitLength) := by
  by_cases hf : rawFieldFits payloadLen startBit bitLength = true
  · obtain ⟨-, h2, h3⟩ := rawFieldFits_iff.mp hf
    have hs := startBit.toNat_lt
    rw [unpackRawIn, unpackRaw, if_neg (by simp [hf]), if_neg (by simp [hf]),
      extractUnalignedBits_eq h2 (by rw [UInt16.toNat_toUInt32]; omega)
        (by rw [UInt16.toNat_toUInt32]; exact h3), Option.map_some, UInt16.toNat_toUInt32]
  · rw [unpackRawIn, unpackRaw, if_pos (by simpa using hf), if_pos (by simpa using hf)]

/-- `J1939_Pack_Raw` writes inside the payload. -/
theorem packRawIn_eq (rawValue : UInt32) :
    packRawIn payload payloadLen startBit bitLength rawValue =
      some (packRaw payload payloadLen startBit bitLength rawValue) := by
  by_cases hf : rawFieldFits payloadLen startBit bitLength = true
  · obtain ⟨-, h2, h3⟩ := rawFieldFits_iff.mp hf
    have hs := startBit.toNat_lt
    have hfits : ¬ rawFieldFits payloadLen startBit bitLength = false := by simp [hf]
    rw [packRawIn, packRaw, if_neg hfits, if_neg hfits]
    by_cases hw : bitLength < 32 ∧ rawValue >>> bitLength.toUInt32 ≠ 0
    · rw [if_pos hw, if_pos hw]
    · rw [if_neg hw, if_neg hw, writeLoop_eq h2 (by rw [UInt16.toNat_toUInt32]; omega)
        (by rw [UInt16.toNat_toUInt32]; exact h3) (fun _ _ => rfl), Option.map_some,
        UInt16.toNat_toUInt32]
  · rw [packRawIn, packRaw, if_pos (by simpa using hf), if_pos (by simpa using hf)]

end Raw

section Accepted

variable {signalDef : SignalDefinition} {payloadLen : UInt16}

theorem Accepted.absolute_lt (h : Accepted signalDef payloadLen) :
    (signalDef.startByte.toNat - 1) * 8 + (signalDef.startBit.toNat - 1) < 2 ^ 12 := by
  have := signalDef.startByte.toNat_lt
  have := h.startBit_le
  omega

theorem Accepted.toNat_numBits (h : Accepted signalDef payloadLen) :
    signalDef.numBits.toUInt8.toNat = signalDef.numBits.toNat := by
  have := h.numBits_le
  rw [UInt16.toNat_toUInt8]
  omega

/-- A byte-aligned signal of whole bytes starts at its byte. -/
theorem Accepted.of_aligned (h : Accepted signalDef payloadLen)
    (ha : isByteAligned signalDef = true) (hw : isWholeBytes signalDef.numBits = true) :
    ∃ k, 1 ≤ k ∧ k ≤ 4 ∧ signalDef.numBits = UInt16.ofNat (8 * k) ∧
      signalDef.numBits.toNat = 8 * k ∧ signalDef.startByte.toNat - 1 + k ≤ payloadLen.toNat ∧
      (absoluteStartBit signalDef).toNat = 8 * (signalDef.startByte.toNat - 1) := by
  obtain ⟨k, h1, h4, hk⟩ := isWholeBytes_iff.mp hw
  have hbits : signalDef.numBits.toNat = 8 * k := by
    rw [hk, UInt16.toNat_ofNat']
    omega
  have hone : signalDef.startBit.toNat = 1 := by
    rw [isByteAligned, decide_eq_true_eq] at ha
    rw [ha]
    rfl
  have hin := h.inside
  refine ⟨k, h1, h4, hk, hbits, by omega, ?_⟩
  rw [toNat_absoluteStartBit h.startByte h.startBit]
  omega

/-- The chosen extraction reads the signal's bit field. -/
theorem extractRawValue_eq (h : Accepted signalDef payloadLen) (payload : Mem) :
    extractRawValue payloadLen.toNat payload signalDef =
      some (BitField.read payload (absoluteStartBit signalDef).toNat signalDef.numBits.toNat) := by
  have habs := toNat_absoluteStartBit h.startByte h.startBit
  have hin := h.inside
  by_cases hfast : isByteAligned signalDef = true ∧ isWholeBytes signalDef.numBits = true
  · obtain ⟨k, h1, h4, hk, hbits, hk', hstart⟩ := h.of_aligned hfast.1 hfast.2
    rw [extractRawValue, if_pos hfast, extractAlignedBits_eq h1 h4 hk h.startByte hk', hbits, hstart]
  · have hlt := h.absolute_lt
    rw [extractRawValue, if_neg hfast, extractUnalignedBits_eq
      (by rw [h.toNat_numBits]; exact h.numBits_le) (by omega)
      (by rw [h.toNat_numBits]; omega), h.toNat_numBits]

/-- The chosen write writes the signal's bit field. -/
theorem writeRawValue_eq (h : Accepted signalDef payloadLen) (payload : Mem) (value : UInt32) :
    writeRawValue payloadLen.toNat payload signalDef value =
      some (BitField.write payload (absoluteStartBit signalDef).toNat signalDef.numBits.toNat
        value) := by
  have habs := toNat_absoluteStartBit h.startByte h.startBit
  have hin := h.inside
  by_cases hfast : isByteAligned signalDef = true ∧ isWholeBytes signalDef.numBits = true
  · obtain ⟨k, h1, h4, hk, hbits, hk', hstart⟩ := h.of_aligned hfast.1 hfast.2
    rw [writeRawValue, if_pos hfast, writeAlignedBits_eq h1 h4 hk h.startByte hk', hbits, hstart]
  · have hlt := h.absolute_lt
    rw [writeRawValue, if_neg hfast, writeUnalignedBits_eq
      (by rw [h.toNat_numBits]; exact h.numBits_le) (by omega)
      (by rw [h.toNat_numBits]; omega), h.toNat_numBits]

end Accepted

/-- **The codec paths agree.** For an accepted signal and a value of its width,
every access of the chosen paths, of the bit loops and of the raw codec at the
signal's zero-based start bit is inside the payload; the three read the same
value and write the same bytes, and the write leaves the memory past the
payload alone. -/
theorem codec_paths_agree (signalDef : SignalDefinition) (payloadLen : UInt16)
    (h : isSignalScalarInBuffer signalDef payloadLen = true) (payload : Mem) :
    let startBit := UInt16.ofNat
      ((signalDef.startByte.toNat - 1) * 8 + (signalDef.startBit.toNat - 1))
    let numBits := signalDef.numBits.toUInt8
    (∃ raw,
      extractRawValue payloadLen.toNat payload signalDef = some raw ∧
      extractUnalignedBits payloadLen.toNat payload (absoluteStartBit signalDef) numBits =
        some raw ∧
      unpackRawIn payload payloadLen startBit numBits = some (some raw) ∧
      unpackRaw payload payloadLen startBit numBits = some raw) ∧
    ∀ value : UInt32, value.toNat < 2 ^ signalDef.numBits.toNat → ∃ written,
      writeRawValue payloadLen.toNat payload signalDef value = some written ∧
      writeUnalignedBits payloadLen.toNat payload (absoluteStartBit signalDef) numBits value =
        some written ∧
      packRawIn payload payloadLen startBit numBits value = some (some written) ∧
      packRaw payload payloadLen startBit numBits value = some written ∧
      ∀ i, payloadLen.toNat ≤ i → written i = payload i := by
  intro startBit numBits
  have ha := isSignalScalarInBuffer_iff.mp h
  have habs := toNat_absoluteStartBit ha.startByte ha.startBit
  have hlt := ha.absolute_lt
  have hin := ha.inside
  have hbits : numBits.toNat = signalDef.numBits.toNat := ha.toNat_numBits
  have hle : numBits.toNat ≤ 32 := by rw [hbits]; exact ha.numBits_le
  have hstart : startBit.toNat = (absoluteStartBit signalDef).toNat := by
    rw [habs]
    show (UInt16.ofNat _).toNat = _
    rw [UInt16.toNat_ofNat']
    omega
  have hfits : rawFieldFits payloadLen startBit numBits = true := by
    rw [rawFieldFits_iff, hstart, hbits]
    exact ⟨ha.numBits, ha.numBits_le, by omega⟩
  have hread : unpackRaw payload payloadLen startBit numBits = some
      (BitField.read payload (absoluteStartBit signalDef).toNat signalDef.numBits.toNat) := by
    rw [unpackRaw, if_neg (by simp [hfits]), hstart, hbits]
  refine ⟨⟨_, extractRawValue_eq ha payload, ?_, ?_, hread⟩, ?_⟩
  · rw [extractUnalignedBits_eq hle (by omega) (by omega), hbits]
  · rw [unpackRawIn_eq, hread]
  · intro value hv
    have hpack : packRaw payload payloadLen startBit numBits value = some
        (BitField.write payload (absoluteStartBit signalDef).toNat signalDef.numBits.toNat
          value) := by
      rw [packRaw_eq_some hfits (by rw [hbits]; exact hv), hstart, hbits]
    refine ⟨_, writeRawValue_eq ha payload value, ?_, ?_, hpack, ?_⟩
    · rw [writeUnalignedBits_eq hle (by omega) (by omega), hbits]
    · rw [packRawIn_eq, hpack]
    · intro i hi
      exact write_past payload ha.numBits_le value (by omega) hi

/-- A 12-bit signal in the upper half of byte 2 takes the bit loops: its value
is read, and `0xABC` is written around the lower half of byte 2. -/
theorem codec_paths_agree_sample :
    (extractRawValue 8 (fun _ => 0xA5) ⟨2, 5, 12⟩ = some 0xA5A ∧
      unpackRaw (fun _ => 0xA5) 8 12 12 = some 0xA5A) ∧
    ∃ written, writeRawValue 8 (fun _ => 0xA5) ⟨2, 5, 12⟩ 0xABC = some written ∧
      packRaw (fun _ => 0xA5) 8 12 12 0xABC = some written ∧
      written 1 = 0xC5 ∧ written 2 = 0xAB ∧ written 8 = 0xA5 := by
  obtain ⟨⟨raw, hraw, -, -, hunpack⟩, hwrite⟩ :=
    codec_paths_agree ⟨2, 5, 12⟩ 8 (by decide) (fun _ => 0xA5)
  have hvalue : extractRawValue 8 (fun _ => 0xA5) ⟨2, 5, 12⟩ = some 0xA5A := by decide +kernel
  obtain ⟨written, hw, -, -, hpack, hpast⟩ := hwrite 0xABC (by decide)
  have hbytes : (writeRawValue 8 (fun _ => 0xA5) ⟨2, 5, 12⟩ 0xABC).map
      (fun m => (m 1, m 2)) = some (0xC5, 0xAB) := by decide +kernel
  obtain ⟨h1, h2⟩ : written 1 = 0xC5 ∧ written 2 = 0xAB := by
    rw [show writeRawValue 8 (fun _ => 0xA5) ⟨2, 5, 12⟩ 0xABC = some written from hw] at hbytes
    simpa using hbytes
  obtain rfl : raw = 0xA5A := Option.some.inj (hraw.symm.trans hvalue)
  exact ⟨⟨hvalue, hunpack⟩, written, hw, hpack, h1, h2, hpast 8 (by decide)⟩

end J1939Gen.Codec
