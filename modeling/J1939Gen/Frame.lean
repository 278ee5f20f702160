import J1939Gen.Lib.ByteMem

/-!
# Frames on the bus

The 29-bit J1939 identifier of `MID/j1939_frame.c` and the send side of
`MID/j1939_link.c`. The CAN controller is outside the model: its answer to one
send is a `LinkStatus`.

* `Header.toNat_buildId`, `Header.toNat_parseId_pgn`: the identifier and the PGN
  read from it, as numbers.
* `Header.parseId_buildId_pgn_iff`: a PGN is read back exactly when the
  identifier carries it whole (`PgnCarried`).
-/

namespace J1939Gen

/-- `J1939_Frame_Header_t`. -/
structure Header where
  pgn : UInt32
  priority : UInt8
  sourceAddress : UInt8
  destinationAddress : UInt8
deriving DecidableEq, Repr

/-- `J1939_ADDR_GLOBAL`. -/
def addrGlobal : UInt8 := 0xFF

/-- `J1939_PF_PDU2_MIN`. -/
def pfPdu2Min : UInt8 := 240

/-- `J1939_Frame_Build_Id` (`j1939_frame.c:14-40`). -/
def Header.buildId (hdr : Header) : UInt32 :=
  let pf := ((hdr.pgn >>> 8) &&& 0xFF).toUInt8
  let ps := (hdr.pgn &&& 0xFF).toUInt8
  let dp := ((hdr.pgn >>> 16) &&& 0x01).toUInt8
  let canId := ((hdr.priority &&& 0x07).toUInt32 <<< 26) ||| (dp.toUInt32 <<< 24) |||
    (pf.toUInt32 <<< 16)
  let canId :=
    if pf < pfPdu2Min then canId ||| (hdr.destinationAddress.toUInt32 <<< 8)
    else canId ||| (ps.toUInt32 <<< 8)
  canId ||| hdr.sourceAddress.toUInt32

/-- `J1939_Frame_Parse_Id` (`j1939_frame.c:42-62`). -/
def Header.parseId (canId : UInt32) : Header :=
  let pf := ((canId >>> 16) &&& 0xFF).toUInt8
  let ps := ((canId >>> 8) &&& 0xFF).toUInt8
  let dp := ((canId >>> 24) &&& 0x01).toUInt8
  let priority := ((canId >>> 26) &&& 0x07).toUInt8
  let sourceAddress := (canId &&& 0xFF).toUInt8
  if pf < pfPdu2Min then
    { pgn := (dp.toUInt32 <<< 16) ||| (pf.toUInt32 <<< 8), priority, sourceAddress
      destinationAddress := ps }
  else
    { pgn := (dp.toUInt32 <<< 16) ||| (pf.toUInt32 <<< 8) ||| ps.toUInt32, priority
      sourceAddress, destinationAddress := addrGlobal }

/-! ## The identifier codec -/

theorem toNat_byteOf (x : UInt32) : (x &&& 0xFF).toUInt8.toNat = x.toNat % 256 := by
  rw [UInt32.toNat_toUInt8, UInt32.toNat_and, show (0xFF : UInt32).toNat = 2 ^ 8 - 1 from rfl,
    Nat.and_two_pow_sub_one_eq_mod, Nat.mod_mod]

theorem toNat_bitOf (x : UInt32) : (x &&& 0x01).toUInt8.toNat = x.toNat % 2 := by
  rw [UInt32.toNat_toUInt8, UInt32.toNat_and, show (0x01 : UInt32).toNat = 2 ^ 1 - 1 from rfl,
    Nat.and_two_pow_sub_one_eq_mod]
  omega

theorem toNat_threeBitsOf (x : UInt32) : (x &&& 0x07).toUInt8.toNat = x.toNat % 8 := by
  rw [UInt32.toNat_toUInt8, UInt32.toNat_and, show (0x07 : UInt32).toNat = 2 ^ 3 - 1 from rfl,
    Nat.and_two_pow_sub_one_eq_mod]
  omega

/-- Fields put side by side with `|` add up. -/
theorem toNat_or_of_dvd {x y : UInt32} {k : ℕ} (hx : 2 ^ k ∣ x.toNat) (hy : y.toNat < 2 ^ k) :
    (x ||| y).toNat = x.toNat + y.toNat := by
  obtain ⟨a, ha⟩ := hx
  rw [UInt32.toNat_or, ha, Nat.two_pow_add_eq_or_of_lt hy]

theorem toNat_field (b : UInt8) {k : UInt32} (hk : k.toNat ≤ 24) :
    (b.toUInt32 <<< k).toNat = b.toNat * 2 ^ k.toNat := by
  have hb := b.toNat_lt
  have hpow : 2 ^ k.toNat ≤ 2 ^ 24 := Nat.pow_le_pow_right (by decide) hk
  have hmod : k.toNat % 32 = k.toNat := Nat.mod_eq_of_lt (by omega)
  rw [UInt32.toNat_shiftLeft, UInt8.toNat_toUInt32, hmod, Nat.shiftLeft_eq]
  apply Nat.mod_eq_of_lt
  calc b.toNat * 2 ^ k.toNat ≤ b.toNat * 2 ^ 24 := Nat.mul_le_mul_left _ hpow
    _ < 2 ^ 32 := by omega

theorem toNat_priorityField (b : UInt8) :
    ((b &&& 0x07).toUInt32 <<< 26).toNat = b.toNat % 8 * 2 ^ 26 := by
  have hb : (b &&& 0x07).toNat = b.toNat % 8 := by
    rw [UInt8.toNat_and, show (0x07 : UInt8).toNat = 2 ^ 3 - 1 from rfl,
      Nat.and_two_pow_sub_one_eq_mod]
  rw [UInt32.toNat_shiftLeft, UInt8.toNat_toUInt32, hb, Nat.shiftLeft_eq,
    show (26 : UInt32).toNat % 32 = 26 from rfl]
  omega

theorem pfPdu2Min_lt (x : UInt32) :
    (x &&& 0xFF).toUInt8 < pfPdu2Min ↔ x.toNat % 256 < 240 := by
  rw [UInt8.lt_iff_toNat_lt, toNat_byteOf]
  rfl

/-- The identifier as the number its fields make up. -/
theorem Header.toNat_buildId (hdr : Header) :
    hdr.buildId.toNat =
      hdr.priority.toNat % 8 * 2 ^ 26 + hdr.pgn.toNat / 2 ^ 16 % 2 * 2 ^ 24 +
        hdr.pgn.toNat / 2 ^ 8 % 256 * 2 ^ 16 +
        (if hdr.pgn.toNat / 2 ^ 8 % 256 < 240 then hdr.destinationAddress.toNat
          else hdr.pgn.toNat % 256) * 2 ^ 8 + hdr.sourceAddress.toNat := by
  have hprio := toNat_priorityField hdr.priority
  have hdp : (((hdr.pgn >>> 16) &&& 0x01).toUInt8.toUInt32 <<< 24).toNat =
      hdr.pgn.toNat / 2 ^ 16 % 2 * 2 ^ 24 := by
    rw [toNat_field _ (by decide), toNat_bitOf, UInt32.toNat_shiftRight,
      Nat.shiftRight_eq_div_pow]
    rfl
  have hpf : (((hdr.pgn >>> 8) &&& 0xFF).toUInt8.toUInt32 <<< 16).toNat =
      hdr.pgn.toNat / 2 ^ 8 % 256 * 2 ^ 16 := by
    rw [toNat_field _ (by decide), toNat_byteOf, UInt32.toNat_shiftRight,
      Nat.shiftRight_eq_div_pow]
    rfl
  have hps : ((hdr.pgn &&& 0xFF).toUInt8.toUInt32 <<< 8).toNat = hdr.pgn.toNat % 256 * 2 ^ 8 := by
    rw [toNat_field _ (by decide), toNat_byteOf]
    rfl
  have hda : (hdr.destinationAddress.toUInt32 <<< 8).toNat =
      hdr.destinationAddress.toNat * 2 ^ 8 := by
    rw [toNat_field _ (by decide)]
    rfl
  have hdaLt := hdr.destinationAddress.toNat_lt
  have hsaLt := hdr.sourceAddress.toNat_lt
  have hsa : hdr.sourceAddress.toUInt32.toNat = hdr.sourceAddress.toNat :=
    UInt8.toNat_toUInt32 _
  have htop : (((hdr.priority &&& 0x07).toUInt32 <<< 26) |||
      (((hdr.pgn >>> 16) &&& 0x01).toUInt8.toUInt32 <<< 24) |||
      (((hdr.pgn >>> 8) &&& 0xFF).toUInt8.toUInt32 <<< 16)).toNat =
      hdr.priority.toNat % 8 * 2 ^ 26 + hdr.pgn.toNat / 2 ^ 16 % 2 * 2 ^ 24 +
        hdr.pgn.toNat / 2 ^ 8 % 256 * 2 ^ 16 := by
    have h1 : ((hdr.priority &&& 0x07).toUInt32 <<< 26 |||
        (((hdr.pgn >>> 16) &&& 0x01).toUInt8.toUInt32 <<< 24)).toNat =
        hdr.priority.toNat % 8 * 2 ^ 26 + hdr.pgn.toNat / 2 ^ 16 % 2 * 2 ^ 24 := by
      rw [toNat_or_of_dvd (k := 26) (by omega) (by omega), hprio, hdp]
    rw [toNat_or_of_dvd (k := 24) (by omega) (by omega), h1, hpf]
  unfold Header.buildId
  simp only [pfPdu2Min_lt, UInt32.toNat_shiftRight, Nat.shiftRight_eq_div_pow,
    show (8 : UInt32).toNat % 32 = 8 from rfl]
  by_cases hpdu : hdr.pgn.toNat / 2 ^ 8 % 256 < 240
  · rw [if_pos hpdu, if_pos hpdu]
    have hlow := toNat_or_of_dvd (k := 16) (x := (((hdr.priority &&& 0x07).toUInt32 <<< 26) |||
      (((hdr.pgn >>> 16) &&& 0x01).toUInt8.toUInt32 <<< 24) |||
      (((hdr.pgn >>> 8) &&& 0xFF).toUInt8.toUInt32 <<< 16)))
      (y := hdr.destinationAddress.toUInt32 <<< 8) (by omega) (by omega)
    rw [toNat_or_of_dvd (k := 8) (by omega) (by omega), hlow, htop, hda, hsa]
  · rw [if_neg hpdu, if_neg hpdu]
    have hlow := toNat_or_of_dvd (k := 16) (x := (((hdr.priority &&& 0x07).toUInt32 <<< 26) |||
      (((hdr.pgn >>> 16) &&& 0x01).toUInt8.toUInt32 <<< 24) |||
      (((hdr.pgn >>> 8) &&& 0xFF).toUInt8.toUInt32 <<< 16)))
      (y := (hdr.pgn &&& 0xFF).toUInt8.toUInt32 <<< 8) (by omega) (by omega)
    rw [toNat_or_of_dvd (k := 8) (by omega) (by omega), hlow, htop, hps, hsa]

/-- The PGN `J1939_Frame_Parse_Id` reads: 17 bits of the identifier, the low byte only
for a PDU2 format. -/
theorem Header.toNat_parseId_pgn (canId : UInt32) :
    (Header.parseId canId).pgn.toNat =
      canId.toNat / 2 ^ 24 % 2 * 2 ^ 16 + canId.toNat / 2 ^ 16 % 256 * 2 ^ 8 +
        (if canId.toNat / 2 ^ 16 % 256 < 240 then 0 else canId.toNat / 2 ^ 8 % 256) := by
  have hdp : (((canId >>> 24) &&& 0x01).toUInt8.toUInt32 <<< 16).toNat =
      canId.toNat / 2 ^ 24 % 2 * 2 ^ 16 := by
    rw [toNat_field _ (by decide), toNat_bitOf, UInt32.toNat_shiftRight,
      Nat.shiftRight_eq_div_pow]
    rfl
  have hpf : (((canId >>> 16) &&& 0xFF).toUInt8.toUInt32 <<< 8).toNat =
      canId.toNat / 2 ^ 16 % 256 * 2 ^ 8 := by
    rw [toNat_field _ (by decide), toNat_byteOf, UInt32.toNat_shiftRight,
      Nat.shiftRight_eq_div_pow]
    rfl
  have hps : ((canId >>> 8) &&& 0xFF).toUInt8.toUInt32.toNat = canId.toNat / 2 ^ 8 % 256 := by
    rw [UInt8.toNat_toUInt32, toNat_byteOf, UInt32.toNat_shiftRight, Nat.shiftRight_eq_div_pow]
    rfl
  have htop := toNat_or_of_dvd (k := 16) (x := ((canId >>> 24) &&& 0x01).toUInt8.toUInt32 <<< 16)
    (y := ((canId >>> 16) &&& 0xFF).toUInt8.toUInt32 <<< 8) (by omega) (by omega)
  unfold Header.parseId
  simp only [pfPdu2Min_lt, UInt32.toNat_shiftRight, Nat.shiftRight_eq_div_pow,
    show (16 : UInt32).toNat % 32 = 16 from rfl]
  by_cases hpdu : canId.toNat / 2 ^ 16 % 256 < 240
  · rw [if_pos hpdu, if_pos hpdu]
    show (_ ||| _ : UInt32).toNat = _
    rw [htop, hdp, hpf, Nat.add_zero]
  · rw [if_neg hpdu, if_neg hpdu]
    show (_ ||| _ : UInt32).toNat = _
    rw [toNat_or_of_dvd (k := 8) (by omega) (by omega), htop, hdp, hpf, hps]

theorem Header.toNat_parseId_priority (canId : UInt32) :
    (Header.parseId canId).priority.toNat = canId.toNat / 2 ^ 26 % 8 := by
  have hprio : ((canId >>> 26) &&& 0x07).toUInt8.toNat = canId.toNat / 2 ^ 26 % 8 := by
    rw [toNat_threeBitsOf, UInt32.toNat_shiftRight, Nat.shiftRight_eq_div_pow]
    rfl
  simp only [Header.parseId]
  split <;> exact hprio

theorem Header.toNat_parseId_sourceAddress (canId : UInt32) :
    (Header.parseId canId).sourceAddress.toNat = canId.toNat % 256 := by
  simp only [Header.parseId]
  split <;> exact toNat_byteOf canId

theorem Header.toNat_parseId_destinationAddress (canId : UInt32) :
    (Header.parseId canId).destinationAddress.toNat =
      if canId.toNat / 2 ^ 16 % 256 < 240 then canId.toNat / 2 ^ 8 % 256 else 255 := by
  unfold Header.parseId
  simp only [pfPdu2Min_lt, UInt32.toNat_shiftRight, Nat.shiftRight_eq_div_pow,
    show (16 : UInt32).toNat % 32 = 16 from rfl]
  by_cases hpdu : canId.toNat / 2 ^ 16 % 256 < 240
  · rw [if_pos hpdu, if_pos hpdu]
    show ((canId >>> 8) &&& 0xFF).toUInt8.toNat = _
    rw [toNat_byteOf, UInt32.toNat_shiftRight, Nat.shiftRight_eq_div_pow]
    rfl
  · rw [if_neg hpdu, if_neg hpdu]
    rfl

/-- A PGN the identifier carries whole: bit 17 clear, and the low byte clear where the
identifier holds a destination in its place. -/
def PgnCarried (pgn : UInt32) : Prop :=
  pgn.toNat < 2 ^ 17 ∧ (pgn.toNat / 2 ^ 8 % 256 < 240 → pgn.toNat % 256 = 0)

instance (pgn : UInt32) : Decidable (PgnCarried pgn) := inferInstanceAs (Decidable (_ ∧ _))

/-- What is read back from an identifier built for `hdr`. -/
theorem Header.toNat_pgn_parseId_buildId (hdr : Header) :
    (Header.parseId hdr.buildId).pgn.toNat =
      hdr.pgn.toNat / 2 ^ 8 % 2 ^ 9 * 2 ^ 8 +
        (if hdr.pgn.toNat / 2 ^ 8 % 256 < 240 then 0 else hdr.pgn.toNat % 256) := by
  have hda := hdr.destinationAddress.toNat_lt
  have hsa := hdr.sourceAddress.toNat_lt
  rw [toNat_parseId_pgn, toNat_buildId]
  by_cases hpdu : hdr.pgn.toNat / 2 ^ 8 % 256 < 240
  · rw [if_pos hpdu, if_pos hpdu, if_pos (by omega)]
    omega
  · rw [if_neg hpdu, if_neg hpdu, if_neg (by omega)]
    omega

theorem Header.parseId_buildId_pgn_iff (hdr : Header) :
    (Header.parseId hdr.buildId).pgn = hdr.pgn ↔ PgnCarried hdr.pgn := by
  rw [← UInt32.toNat_inj, toNat_pgn_parseId_buildId]
  unfold PgnCarried
  have hlt := hdr.pgn.toNat_lt
  by_cases hpdu : hdr.pgn.toNat / 2 ^ 8 % 256 < 240
  · rw [if_pos hpdu]
    constructor
    · intro h
      exact ⟨by omega, fun _ => by omega⟩
    · rintro ⟨h, hz⟩
      have := hz hpdu
      omega
  · rw [if_neg hpdu]
    constructor
    · intro h
      exact ⟨by omega, fun hp => absurd hp hpdu⟩
    · rintro ⟨h, -⟩
      omega

theorem Header.parseId_buildId_priority (hdr : Header) (h : hdr.priority.toNat < 8) :
    (Header.parseId hdr.buildId).priority = hdr.priority := by
  have hda := hdr.destinationAddress.toNat_lt
  have hsa := hdr.sourceAddress.toNat_lt
  rw [← UInt8.toNat_inj, toNat_parseId_priority, toNat_buildId]
  split <;> omega

theorem Header.parseId_buildId_sourceAddress (hdr : Header) :
    (Header.parseId hdr.buildId).sourceAddress = hdr.sourceAddress := by
  have hsa := hdr.sourceAddress.toNat_lt
  rw [← UInt8.toNat_inj, toNat_parseId_sourceAddress, toNat_buildId]
  split <;> omega

/-! ## The send side of the link -/

/-- `J1939_Link_Status_t`. -/
inductive LinkStatus
  | ok
  | busy
  | error
deriving DecidableEq, Repr

/-- What `hal_can_send_ext` is given: the identifier and the data bytes. -/
structure CanFrame where
  canId : UInt32
  data : List UInt8
deriving DecidableEq, Repr

/-- The frame `J1939_Link_Send` hands to the driver (`j1939_link.c:17-47`). -/
def linkFrame (pgn : UInt32) (data : List UInt8) (priority sourceAddress : UInt8) : CanFrame where
  canId := Header.buildId ⟨pgn, priority, sourceAddress, addrGlobal⟩
  data := data

end J1939Gen
