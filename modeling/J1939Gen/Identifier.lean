import J1939Gen.Frame

/-!
# The 29-bit identifier and its header

`J1939_Frame_Build_Id` and `J1939_Frame_Parse_Id` are inverse to each other up to
one bit: the reserved bit 25 is never set by the first and never looked at by the
second.

* `Header.parseId_buildId`: a header an identifier can carry is read back.
* `Header.buildId_parseId`: an identifier with bit 25 clear is built again from its
  header.
* `Header.parseId_eq_iff`: what the receive side can tell apart.
-/

namespace J1939Gen

/-- `CAN_ID` bits: an extended identifier has 29 of them. -/
def canIdBits : ℕ := 29

/-- The extended data page, the one bit `J1939_Frame_Parse_Id` does not read. -/
def edpBit : ℕ := 25

/-- The headers an identifier carries whole: three bits of priority, a PGN with nothing in
the place of a destination, and the global destination where there is no such place. -/
structure Header.Carried (hdr : Header) : Prop where
  priority : hdr.priority.toNat < 8
  pgn : PgnCarried hdr.pgn
  destination : 240 ≤ hdr.pgn.toNat / 2 ^ 8 % 256 → hdr.destinationAddress = addrGlobal

/-! ## From a header and back -/

theorem Header.parseId_buildId_destinationAddress {hdr : Header}
    (h : 240 ≤ hdr.pgn.toNat / 2 ^ 8 % 256 → hdr.destinationAddress = addrGlobal) :
    (Header.parseId hdr.buildId).destinationAddress = hdr.destinationAddress := by
  have hda := hdr.destinationAddress.toNat_lt
  have hsa := hdr.sourceAddress.toNat_lt
  rw [← UInt8.toNat_inj, toNat_parseId_destinationAddress, toNat_buildId]
  by_cases hpdu : hdr.pgn.toNat / 2 ^ 8 % 256 < 240
  · rw [if_pos hpdu, if_pos (by omega)]
    omega
  · have hglobal : hdr.destinationAddress.toNat = 255 := by
      rw [h (by omega)]
      rfl
    rw [if_neg hpdu, if_neg (by omega), hglobal]

/-- A header that fits is read back from its identifier. -/
theorem Header.parseId_buildId {hdr : Header} (h : hdr.Carried) :
    Header.parseId hdr.buildId = hdr := by
  have hpgn := (parseId_buildId_pgn_iff hdr).2 h.pgn
  have hprio := parseId_buildId_priority hdr h.priority
  have hsa := parseId_buildId_sourceAddress hdr
  have hda := parseId_buildId_destinationAddress h.destination
  calc Header.parseId hdr.buildId
      = ⟨(Header.parseId hdr.buildId).pgn, (Header.parseId hdr.buildId).priority,
          (Header.parseId hdr.buildId).sourceAddress,
          (Header.parseId hdr.buildId).destinationAddress⟩ := rfl
    _ = hdr := by rw [hpgn, hprio, hsa, hda]

/-! ## From an identifier and back -/

/-- Rebuilding an identifier clears bit 25 and keeps the others. -/
theorem Header.toNat_buildId_parseId (canId : UInt32) :
    (Header.parseId canId).buildId.toNat =
      canId.toNat / 2 ^ 26 % 8 * 2 ^ 26 + canId.toNat % 2 ^ 25 := by
  rw [toNat_buildId, toNat_parseId_pgn, toNat_parseId_priority, toNat_parseId_sourceAddress,
    toNat_parseId_destinationAddress]
  by_cases hpdu : canId.toNat / 2 ^ 16 % 256 < 240
  · simp only [if_pos hpdu]
    rw [if_pos (by omega)]
    omega
  · simp only [if_neg hpdu]
    rw [if_neg (by omega)]
    omega

theorem Header.buildId_parseId {canId : UInt32} (hlt : canId.toNat < 2 ^ canIdBits)
    (hedp : canId.toNat.testBit edpBit = false) :
    (Header.parseId canId).buildId = canId := by
  have hzero : canId.toNat / 2 ^ 25 % 2 = 0 := by
    have := Nat.testBit_eq_decide_div_mod_eq (x := canId.toNat) (i := edpBit)
    rw [hedp] at this
    have hne : ¬ canId.toNat / 2 ^ 25 % 2 = 1 := of_decide_eq_false this.symm
    omega
  rw [← UInt32.toNat_inj, toNat_buildId_parseId]
  unfold canIdBits at hlt
  omega

/-! ## What an identifier tells -/

/-- Two identifiers have one header when they agree above and below bit 25. -/
theorem Header.parseId_eq_iff_fields {a b : UInt32} :
    Header.parseId a = Header.parseId b ↔
      a.toNat % 2 ^ 25 = b.toNat % 2 ^ 25 ∧
        a.toNat / 2 ^ 26 % 8 = b.toNat / 2 ^ 26 % 8 := by
  constructor
  · intro h
    have hid : (Header.parseId a).buildId.toNat = (Header.parseId b).buildId.toNat := by rw [h]
    rw [toNat_buildId_parseId, toNat_buildId_parseId] at hid
    omega
  · rintro ⟨hlow, hhigh⟩
    have hpgn : (Header.parseId a).pgn = (Header.parseId b).pgn := by
      rw [← UInt32.toNat_inj, toNat_parseId_pgn, toNat_parseId_pgn,
        show a.toNat / 2 ^ 16 % 256 = b.toNat / 2 ^ 16 % 256 by omega,
        show a.toNat / 2 ^ 8 % 256 = b.toNat / 2 ^ 8 % 256 by omega]
      omega
    have hprio : (Header.parseId a).priority = (Header.parseId b).priority := by
      rw [← UInt8.toNat_inj, toNat_parseId_priority, toNat_parseId_priority, hhigh]
    have hsa : (Header.parseId a).sourceAddress = (Header.parseId b).sourceAddress := by
      rw [← UInt8.toNat_inj, toNat_parseId_sourceAddress, toNat_parseId_sourceAddress]
      omega
    have hda : (Header.parseId a).destinationAddress = (Header.parseId b).destinationAddress := by
      rw [← UInt8.toNat_inj, toNat_parseId_destinationAddress, toNat_parseId_destinationAddress,
        show a.toNat / 2 ^ 16 % 256 = b.toNat / 2 ^ 16 % 256 by omega,
        show a.toNat / 2 ^ 8 % 256 = b.toNat / 2 ^ 8 % 256 by omega]
    calc Header.parseId a
        = ⟨(Header.parseId a).pgn, (Header.parseId a).priority,
            (Header.parseId a).sourceAddress, (Header.parseId a).destinationAddress⟩ := rfl
      _ = Header.parseId b := by rw [hpgn, hprio, hsa, hda]

/-- Bits below `k` and from `k + 1` on, for numbers of `n` bits. -/
theorem agree_off_bit_iff {x y k n : ℕ} (hx : x < 2 ^ n) (hy : y < 2 ^ n) :
    (∀ i, i < n → i ≠ k → x.testBit i = y.testBit i) ↔
      x % 2 ^ k = y % 2 ^ k ∧ x / 2 ^ (k + 1) = y / 2 ^ (k + 1) := by
  -- a bit above the width is clear on both sides
  have hclear : ∀ i, n ≤ i → x.testBit i = y.testBit i := by
    intro i hi
    have hpow : 2 ^ n ≤ 2 ^ i := Nat.pow_le_pow_right (by decide) hi
    rw [Nat.testBit_lt_two_pow (by omega), Nat.testBit_lt_two_pow (by omega)]
  constructor
  · intro h
    have hall : ∀ i, i ≠ k → x.testBit i = y.testBit i := by
      intro i hne
      by_cases hi : i < n
      · exact h i hi hne
      · exact hclear i (by omega)
    constructor
    · apply Nat.eq_of_testBit_eq
      intro i
      rw [Nat.testBit_mod_two_pow, Nat.testBit_mod_two_pow]
      by_cases hi : i < k
      · rw [hall i (by omega)]
      · simp [hi]
    · apply Nat.eq_of_testBit_eq
      intro i
      rw [Nat.testBit_div_two_pow, Nat.testBit_div_two_pow]
      exact hall _ (by omega)
  · rintro ⟨hlow, hhigh⟩ i - hne
    by_cases hi : i < k
    · have hbit : (x % 2 ^ k).testBit i = (y % 2 ^ k).testBit i := by rw [hlow]
      simpa [Nat.testBit_mod_two_pow, hi] using hbit
    · have hbit : (x / 2 ^ (k + 1)).testBit (i - (k + 1)) =
          (y / 2 ^ (k + 1)).testBit (i - (k + 1)) := by rw [hhigh]
      rw [Nat.testBit_div_two_pow, Nat.testBit_div_two_pow] at hbit
      rwa [show i - (k + 1) + (k + 1) = i by omega] at hbit

/-- The receive side tells two identifiers apart by every bit but one. -/
theorem Header.parseId_eq_iff {a b : UInt32} (ha : a.toNat < 2 ^ canIdBits)
    (hb : b.toNat < 2 ^ canIdBits) :
    Header.parseId a = Header.parseId b ↔
      ∀ i, i < canIdBits → i ≠ edpBit → a.toNat.testBit i = b.toNat.testBit i := by
  rw [parseId_eq_iff_fields, agree_off_bit_iff ha hb]
  unfold canIdBits at ha hb
  show _ ↔ _ ∧ a.toNat / 2 ^ 26 = b.toNat / 2 ^ 26
  rw [show a.toNat / 2 ^ 26 % 8 = a.toNat / 2 ^ 26 by omega,
    show b.toNat / 2 ^ 26 % 8 = b.toNat / 2 ^ 26 by omega]
  exact Iff.rfl

/-! ## The codec -/

/-- The identifier codec: both round trips, and what is lost. -/
theorem Header.identifierCodec :
    (∀ hdr : Header, hdr.Carried → Header.parseId hdr.buildId = hdr) ∧
      (∀ canId : UInt32, canId.toNat < 2 ^ canIdBits → canId.toNat.testBit edpBit = false →
        (Header.parseId canId).buildId = canId) ∧
      (∀ a b : UInt32, a.toNat < 2 ^ canIdBits → b.toNat < 2 ^ canIdBits →
        (Header.parseId a = Header.parseId b ↔
          ∀ i, i < canIdBits → i ≠ edpBit → a.toNat.testBit i = b.toNat.testBit i)) :=
  ⟨fun _ h => parseId_buildId h, fun _ hlt hedp => buildId_parseId hlt hedp,
    fun _ _ ha hb => parseId_eq_iff ha hb⟩

/-- A DM1 broadcast and a request to address 3, and an identifier with bit 25 set. -/
theorem Header.identifierCodec_broadcast :
    Header.parseId (Header.buildId ⟨0xFECA, 6, 0x80, 0xFF⟩) = ⟨0xFECA, 6, 0x80, 0xFF⟩ ∧
      (Header.parseId 0x18EA0380).buildId = 0x18EA0380 ∧
      Header.parseId 0x18EA0380 = Header.parseId 0x1AEA0380 :=
  ⟨identifierCodec.1 _ ⟨by decide, by decide, fun _ => rfl⟩,
    identifierCodec.2.1 _ (by decide) (by decide),
    (identifierCodec.2.2 _ _ (by decide) (by decide)).2 (by decide)⟩

end J1939Gen
