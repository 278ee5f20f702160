import J1939Gen.Storage.Latest

/-!
# What an open says when nothing loads

`Profile_Storage_Open_Latest` passes on two statuses of a slot, a catalog mismatch and a
flash error. Everything else is an empty store to it, a damaged image too.

* `parse_error`, `loadSlot_told_iff`: the statuses of one slot.
* `openLatest_refused`: the status of both.
-/

namespace J1939Gen.Storage

open Bitmask ByteMem ValueStore

/-! ## The statuses of a slot -/

/-- What the parser may answer. -/
def ParseStatus (status : Status) : Prop :=
  status = .ok ∨ status = .invalidImage ∨ status = .visitorRejected

section Parse

variable {σ : Type*} (m : Mem) (fin : UInt16) (visit : Visitor σ)

theorem parseBlob_status (index : ℕ) (key : UInt16) (s : ParseState σ) :
    ParseStatus (parseBlob m fin visit index key s).2 := by
  unfold parseBlob ParseStatus
  dsimp only
  split_ifs <;> simp

theorem parseScalar_status (index : ℕ) (key : UInt16) (s : ParseState σ) :
    ParseStatus (parseScalar m fin visit index key s).2 := by
  unfold parseScalar ParseStatus
  dsimp only
  split_ifs <;> simp

theorem parseRecord_status (s : ParseState σ) :
    ParseStatus (parseRecord m fin visit s).2 := by
  unfold parseRecord
  dsimp only
  cases indexFromKey (readU16 m s.offset.toNat) with
  | none => split_ifs <;> exact .inr (.inl rfl)
  | some index =>
    dsimp only
    split_ifs
    · exact .inr (.inl rfl)
    · exact .inr (.inl rfl)
    · exact .inr (.inl rfl)
    · exact parseBlob_status m fin visit _ _ _
    · exact parseScalar_status m fin visit _ _ _

theorem parseRecords_status (n : ℕ) (s : ParseState σ) :
    ParseStatus (parseRecords m fin visit n s).2 := by
  induction n generalizing s with
  | zero => exact .inl rfl
  | succ n ih =>
    unfold parseRecords
    dsimp only
    split_ifs
    · exact ih _
    · exact parseRecord_status m fin visit s

/-- The parser never answers that the flash failed or the catalog is another. -/
theorem parse_error {slot : Slot} {c : σ} {e : Status}
    (h : (parse m slot visit c).2 = .error e) : e ≠ .catalogMismatch ∧ e ≠ .flashError := by
  have hrecords := parseRecords_status m (headerBytes + readU16 m offPayloadLength) visit
    (readU16 m offSignalCount).toNat (parseStart c)
  unfold parse at h
  dsimp only at h
  split_ifs at h
  · cases h
    decide
  · injection h with h
    subst h
    rcases hrecords with hs | hs | hs <;> rw [hs] <;> decide
  · cases h
    decide
  · cases h
    decide

end Parse

/-- Slot contents whose status the open passes on: a header the loader takes, with another
catalog, or with a payload length that makes the total length wrap to zero. -/
def Told (m : Mem) : Prop :=
  headerInvalid m = false ∧
    (readU32 m offCatalogCrc ≠ catalogCrc32 ∨ readU16 m offPayloadLength = 65492)

instance (m : Mem) : Decidable (Told m) := inferInstanceAs (Decidable (_ ∧ _))

/-- The total length wraps to zero for one payload length. -/
theorem totalLength_zero_iff (payloadLength : UInt16) :
    (headerBytes + payloadLength).toNat = 0 ↔ payloadLength = 65492 := by
  have hlt := payloadLength.toNat_lt
  rw [← UInt16.toNat_inj, UInt16.toNat_add, show (65492 : UInt16).toNat = 65492 from rfl,
    show headerBytes.toNat = 44 from rfl]
  omega

theorem loadSlot_told_iff {s : Memory} {slot : Slot} {e : Status}
    (h : (loadSlot s slot).2 = .error e) :
    (e = .catalogMismatch ∨ e = .flashError) ↔ Told (slotMem s.flash.cell slot) := by
  have hhead : ∀ i < 44, (s.fetch slot headerBytes.toNat).image i = slotMem s.flash.cell slot i :=
    fun i hi => fetch_apply s slot hi
  unfold Told
  rw [loadSlot_eq, headerInvalid_congr hhead, readU32_agree hhead (by decide),
    readU16_agree hhead (by decide)] at h
  by_cases hinv : headerInvalid (slotMem s.flash.cell slot) = true
  · rw [if_pos hinv] at h
    cases h
    simp [hinv]
  rw [if_neg hinv] at h
  rw [Bool.not_eq_true] at hinv
  by_cases hcat : readU32 (slotMem s.flash.cell slot) offCatalogCrc ≠ catalogCrc32
  · rw [if_pos hcat] at h
    cases h
    simp [hinv, hcat]
  rw [if_neg hcat, loadImage_eq] at h
  generalize htotal : headerBytes + readU16 (slotMem s.flash.cell slot) offPayloadLength = total at h
  have hzero := totalLength_zero_iff (readU16 (slotMem s.flash.cell slot) offPayloadLength)
  rw [htotal] at hzero
  simp only [hinv, hcat, true_and, false_or, ← hzero]
  by_cases hmax : total.toNat > imageMaxBytes ∨ total.toNat > flashSlotSize
  · rw [if_pos hmax] at h
    cases h
    simp
    omega
  rw [if_neg hmax] at h
  by_cases h0 : total.toNat = 0
  · rw [if_pos h0] at h
    cases h
    simp [h0]
  rw [if_neg h0] at h
  have hother : e ≠ .catalogMismatch ∧ e ≠ .flashError := by
    split_ifs at h with hcrc
    · cases h
      decide
    · exact parse_error _ _ h
  simp [hother.1, hother.2, h0]

/-! ## The status of both -/

/-- With no slot that loads, the open says that the store is empty unless a slot is told. -/
theorem openLatest_refused {s : Memory} (h : ∀ slot, ¬ Loads s.flash.cell slot) :
    ∃ s' e, s'.flash = s.flash ∧ openLatest s = (s', .error e) ∧
      ((∃ slot, Told (slotMem s.flash.cell slot)) ∧
          (e = .catalogMismatch ∨ e = .flashError) ∨
        (∀ slot, ¬ Told (slotMem s.flash.cell slot)) ∧ e = .empty) := by
  have hrefuse : ∀ s₁ : Memory, s₁.flash = s.flash → ∀ slot, ∃ s' e, s'.flash = s.flash ∧
      loadSlot s₁ slot = (s', .error e) ∧
      ((e = .catalogMismatch ∨ e = .flashError) ↔ Told (slotMem s.flash.cell slot)) := by
    intro s₁ hs₁ slot
    rcases loadSlot_cases s₁ slot with ⟨l, -, hv, -⟩ | ⟨-, s', e, hs', heq⟩
    · rw [hs₁] at hv
      exact absurd ⟨l, hv⟩ (h slot)
    · have hresult : (loadSlot s₁ slot).2 = .error e := by rw [heq]
      have htold := loadSlot_told_iff hresult
      rw [hs₁] at htold
      exact ⟨s', e, hs'.trans hs₁, heq, htold⟩
  obtain ⟨s₁, ea, hs₁, ha, htoldA⟩ := hrefuse s rfl .a
  obtain ⟨s₂, eb, hs₂, hb, htoldB⟩ := hrefuse s₁ hs₁ .b
  rw [openLatest_eq ha hb]
  dsimp only [openSelected]
  by_cases hcat : ea = .catalogMismatch ∨ eb = .catalogMismatch
  · rw [if_pos hcat]
    refine ⟨s₂, _, hs₂, rfl, .inl ⟨?_, .inl rfl⟩⟩
    rcases hcat with hcat | hcat
    · exact ⟨.a, htoldA.1 (.inl hcat)⟩
    · exact ⟨.b, htoldB.1 (.inl hcat)⟩
  rw [if_neg hcat]
  by_cases hflash : ea = .flashError ∨ eb = .flashError
  · rw [if_pos hflash]
    refine ⟨s₂, _, hs₂, rfl, .inl ⟨?_, .inr rfl⟩⟩
    rcases hflash with hflash | hflash
    · exact ⟨.a, htoldA.1 (.inr hflash)⟩
    · exact ⟨.b, htoldB.1 (.inr hflash)⟩
  rw [if_neg hflash]
  push Not at hcat hflash
  refine ⟨s₂, _, hs₂, rfl, .inr ⟨?_, rfl⟩⟩
  intro slot htold
  cases slot with
  | a => exact (htoldA.2 htold).elim hcat.1 hflash.1
  | b => exact (htoldB.2 htold).elim hcat.2 hflash.2

end J1939Gen.Storage
