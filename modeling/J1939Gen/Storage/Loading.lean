import J1939Gen.Storage.Slots

/-!
# Which images load

An image in a slot is valid when it is sealed, marked and fits its profile;
`loadSlot` accepts exactly these, whatever `s_image` held before.

* `loadSlot_of_valid`, `loadSlot_sound`: the loader accepts exactly the valid images.
* `Newest`, `openLatest_of_newest`: of two valid images whose sequences differ by
  one, the later is opened.
* `visitLatest_of_newest`: the records visited are the ones stored.
-/

namespace J1939Gen.Storage

open Bitmask ByteMem ValueStore NorFlash SerialClock

/-- The cells of a slot. -/
def slotMem (cell : Mem) (slot : Slot) : Mem := fun i => cell (slot.address + i)

/-- An image the loader accepts. -/
structure ValidImage (m : Mem) (l : List Record) : Prop where
  sealed : Sealed m l
  marker : readU32 m offValidMarker = validMarker
  profile : FitsProfile (m offProfileId) l

/-! ## Dependence on the bytes of the image -/

section Congr

variable {m m' : Mem} {l : List Record}

theorem Carries.congr (h : Carries m l) (hhead : ∀ i < 40, m i = m' i)
    (hbody : ∀ i, 44 ≤ i → i < 44 + (encode l).length → m i = m' i) : Carries m' l where
  wf := h.wf
  signalCount := by rw [← readU16_agree hhead (by decide), h.signalCount]
  scalarCount := by rw [← readU16_agree hhead (by decide), h.scalarCount]
  blobCount := by rw [← hhead _ (by decide), h.blobCount]
  payloadLength := by rw [← readU16_agree hhead (by decide), h.payloadLength]
  payload := by
    refine Eq.trans ?_ h.payload
    exact bytes_congr fun i h1 h2 => (hbody i h1 h2).symm
  configCrc := by rw [← readU32_agree hhead (by decide), h.configCrc]

/-- The info reads the header fields below the marker. -/
theorem infoOf_congr (hhead : ∀ i < 40, m i = m' i) (slot : Slot) :
    infoOf m slot = infoOf m' slot := by
  have h16 : ∀ p, p + 2 ≤ 40 → readU16 m p = readU16 m' p := fun p => readU16_agree hhead
  have h32 : ∀ p, p + 4 ≤ 40 → readU32 m p = readU32 m' p := fun p => readU32_agree hhead
  unfold infoOf
  rw [h32 _ (by decide), h32 _ (by decide), h32 _ (by decide), h16 _ (by decide), h16 _ (by decide),
    h16 _ (by decide), hhead _ (by decide), hhead _ (by decide)]

theorem Sealed.congr (h : Sealed m l) (hhead : ∀ i < 40, m i = m' i)
    (hbody : ∀ i, 44 ≤ i → i < 44 + (encode l).length → m i = m' i) : Sealed m' l := by
  refine ⟨?_, ?_, ?_, ?_, ?_, h.carries.congr hhead hbody, ?_⟩
  · rw [← readU32_agree hhead (by decide), h.magic]
  · rw [← readU16_agree hhead (by decide), h.formatVersion]
  · rw [← readU16_agree hhead (by decide), h.headerLength]
  · rw [← readU32_agree hhead (by decide), h.catalogCrc]
  · rw [← readU16_agree hhead (by decide), h.reserved]
  · rw [← readU16_agree hhead (by decide), ← readU32_agree hhead (by decide), ← h.imageCrc]
    refine imageCrc_congr fun i hi _ h40 => ?_
    rw [h.carries.fin_toNat] at hi
    rcases h40 with h40 | h44
    · exact (hhead i h40).symm
    · exact (hbody i h44 hi).symm

theorem Sealed.congr' (h : Sealed m l) (heq : ∀ i < 44 + (encode l).length, m i = m' i) :
    Sealed m' l :=
  h.congr (fun i hi => heq i (by omega)) fun i _ hi => heq i hi

theorem ValidImage.congr (h : ValidImage m l) (heq : ∀ i < 44 + (encode l).length, m i = m' i) :
    ValidImage m' l where
  sealed := h.sealed.congr' heq
  marker := by
    rw [← readU32_agree (fun i (hi : i < 44) => heq i (by omega)) (by decide), h.marker]
  profile := by
    rw [← heq offProfileId (Nat.lt_of_lt_of_le (by decide : offProfileId < 44) (by omega))]
    exact h.profile

end Congr

/-! ## Loading a slot -/

theorem rangeValid_slot (slot : Slot) {k n : ℕ} (h0 : 0 < n) (h : k + n ≤ flashSlotSize) :
    rangeValid (slot.address + k) n = true := by
  have hn : ¬ (n = 0 ∨ slot.address + k < flashSlotAAddress) := by
    cases slot <;> simp only [Slot.address, flashSlotAAddress, flashSlotBAddress] <;> omega
  rw [rangeValid, if_neg hn, decide_eq_true_eq]
  cases slot <;> simp only [Slot.address, flashSlotAAddress, flashSlotBAddress, flashStorageEnd,
    flashSlotSize] at h ⊢ <;> omega

theorem flashRead_slot (d : Device) (slot : Slot) {n : ℕ} (h0 : 0 < n) (h : n ≤ flashSlotSize) :
    flashRead d slot.address n = .ok (slotMem d.cell slot) := by
  have hv := rangeValid_slot slot (k := 0) h0 (by omega)
  rw [flashRead, if_neg (by rw [← Nat.add_zero slot.address, hv]; simp)]
  rfl

/-- The buffer with the first `n` bytes of a slot. -/
def Memory.fetch (s : Memory) (slot : Slot) (n : ℕ) : Memory :=
  { s with image := copy s.image 0 (slotMem s.flash.cell slot) n }

theorem fetch_apply (s : Memory) (slot : Slot) {n i : ℕ} (h : i < n) :
    (s.fetch slot n).image i = slotMem s.flash.cell slot i :=
  copy_of_mem _ _ (by omega)

theorem loadImage_eq (s : Memory) (slot : Slot) (total : UInt16) :
    loadImage s slot total =
      if total.toNat > imageMaxBytes ∨ total.toNat > flashSlotSize then (s, .error .invalidImage)
      else if total.toNat = 0 then (s, .error .flashError)
      else if imageCrc (s.fetch slot total.toNat).image total ≠
          readU32 (s.fetch slot total.toNat).image offImageCrc then
        (s.fetch slot total.toNat, .error .invalidImage)
      else (s.fetch slot total.toNat, (parse (s.fetch slot total.toNat).image slot visitNone ()).2) := by
  unfold loadImage
  refine ite_congr rfl (fun _ => rfl) fun hmax => ?_
  push Not at hmax
  by_cases h0 : total.toNat = 0
  · rw [if_pos h0, h0]
    rfl
  · rw [if_neg h0, flashRead_slot _ _ (Nat.pos_of_ne_zero h0) hmax.2]
    rfl

theorem loadSlot_eq (s : Memory) (slot : Slot) :
    loadSlot s slot =
      if headerInvalid (s.fetch slot headerBytes.toNat).image then
        (s.fetch slot headerBytes.toNat, .error .invalidImage)
      else if readU32 (s.fetch slot headerBytes.toNat).image offCatalogCrc ≠ catalogCrc32 then
        (s.fetch slot headerBytes.toNat, .error .catalogMismatch)
      else loadImage (s.fetch slot headerBytes.toNat) slot
        (headerBytes + readU16 (s.fetch slot headerBytes.toNat).image offPayloadLength) := by
  unfold loadSlot
  rw [flashRead_slot _ _ (by decide) (by decide)]
  rfl

theorem loadImage_flash (s : Memory) (slot : Slot) (total : UInt16) :
    (loadImage s slot total).1.flash = s.flash := by
  rw [loadImage_eq]
  split_ifs <;> rfl

/-- Loading never touches the flash. -/
theorem loadSlot_flash (s : Memory) (slot : Slot) : (loadSlot s slot).1.flash = s.flash := by
  rw [loadSlot_eq]
  split_ifs
  · rfl
  · rfl
  · exact loadImage_flash _ _ _

theorem headerInvalid_congr {m m' : Mem} (h : ∀ i < 44, m i = m' i) :
    headerInvalid m = headerInvalid m' := by
  have h16 : ∀ p, p + 2 ≤ 44 → readU16 m p = readU16 m' p := fun p => readU16_agree h
  have h32 : ∀ p, p + 4 ≤ 44 → readU32 m p = readU32 m' p := fun p => readU32_agree h
  unfold headerInvalid
  rw [h32 offMagic (by decide), h16 offFormatVersion (by decide), h16 offHeaderLength (by decide),
    h32 offValidMarker (by decide), h16 offReserved (by decide)]

theorem headerInvalid_of_sealed {m : Mem} {l : List Record} (h : Sealed m l) :
    headerInvalid m = decide (readU32 m offValidMarker ≠ validMarker) := by
  simp [headerInvalid, h.magic, h.formatVersion, h.headerLength, h.reserved]

/-- Without the marker nothing loads. -/
theorem loadSlot_unmarked {s : Memory} {slot : Slot}
    (h : readU32 (slotMem s.flash.cell slot) offValidMarker ≠ validMarker) :
    (loadSlot s slot).2 = .error .invalidImage := by
  have hhead : ∀ i < 44, (s.fetch slot headerBytes.toNat).image i = slotMem s.flash.cell slot i :=
    fun i hi => fetch_apply s slot hi
  rw [loadSlot_eq, headerInvalid_congr hhead, if_pos (by simp [headerInvalid, h])]

/-- The buffer holds the image of the slot. -/
def Fetched (s s' : Memory) (slot : Slot) (l : List Record) : Prop :=
  s'.flash = s.flash ∧ ∀ i < 44 + (encode l).length, s'.image i = slotMem s.flash.cell slot i

/-- A sealed and marked image gets as far as the parser. -/
theorem loadSlot_of_sealed {s : Memory} {slot : Slot} {l : List Record}
    (h : Sealed (slotMem s.flash.cell slot) l)
    (hm : readU32 (slotMem s.flash.cell slot) offValidMarker = validMarker) :
    ∃ s', Fetched s s' slot l ∧ loadSlot s slot = (s', (parse s'.image slot visitNone ()).2) := by
  have hle := h.carries.wf.length_encode_le
  have hfin := h.carries.fin_toNat
  have hhead : ∀ i < 44, (s.fetch slot headerBytes.toNat).image i = slotMem s.flash.cell slot i :=
    fun i hi => fetch_apply s slot hi
  have hlen : readU16 (s.fetch slot headerBytes.toNat).image offPayloadLength =
      readU16 (slotMem s.flash.cell slot) offPayloadLength :=
    readU16_agree hhead (by decide)
  have hcat : readU32 (s.fetch slot headerBytes.toNat).image offCatalogCrc = catalogCrc32 := by
    rw [← h.catalogCrc, readU32_agree hhead (by decide)]
  have hmax : ¬ (44 + (encode l).length > imageMaxBytes ∨
      44 + (encode l).length > flashSlotSize) := by
    have h1 : 44 + (encode l).length ≤ 1536 := by omega
    rintro (h2 | h2)
    · exact absurd h2 (not_lt.mpr h1)
    · exact absurd h2 (not_lt.mpr (h1.trans (by decide)))
  rw [loadSlot_eq, headerInvalid_congr hhead, headerInvalid_of_sealed h, if_neg (by simp [hm]),
    if_neg (by simp [hcat]), loadImage_eq, hlen, hfin, if_neg hmax, if_neg (by omega)]
  have hbuf : ∀ i < 44 + (encode l).length,
      ((s.fetch slot headerBytes.toNat).fetch slot (44 + (encode l).length)).image i =
        slotMem s.flash.cell slot i := fun i hi =>
    fetch_apply (s.fetch slot headerBytes.toNat) slot hi
  have hs := h.congr' fun i hi => (hbuf i hi).symm
  have hlen' : readU16 ((s.fetch slot headerBytes.toNat).fetch slot
      (44 + (encode l).length)).image offPayloadLength =
      readU16 (slotMem s.flash.cell slot) offPayloadLength :=
    readU16_agree (fun i (hi : i < 40) => hbuf i (by omega)) (by decide)
  have hcrc := hs.imageCrc
  rw [hlen'] at hcrc
  rw [if_neg (by simp [hcrc])]
  exact ⟨(s.fetch slot headerBytes.toNat).fetch slot (44 + (encode l).length), ⟨rfl, hbuf⟩, rfl⟩

theorem visitAll_visitNone (l : List Record) : visitAll visitNone () l = ((), true) := by
  induction l with
  | nil => rfl
  | cons r l ih => exact ih

theorem loadSlot_of_valid {s : Memory} {slot : Slot} {l : List Record}
    (h : ValidImage (slotMem s.flash.cell slot) l) :
    ∃ s', Fetched s s' slot l ∧
      loadSlot s slot = (s', .ok (infoOf (slotMem s.flash.cell slot) slot)) := by
  obtain ⟨s', hf, heq⟩ := loadSlot_of_sealed h.sealed h.marker
  refine ⟨s', hf, ?_⟩
  have hv := h.congr fun i hi => (hf.2 i hi).symm
  rw [heq, (parse_of_carries hv.sealed.carries slot visitNone ()).1 (by rw [visitAll_visitNone])
    hv.profile, infoOf_congr fun i hi => hf.2 i (by omega)]

/-- A complete image whose keys are not those of its profile does not load. -/
theorem loadSlot_of_unfit {s : Memory} {slot : Slot} {l : List Record}
    (h : Sealed (slotMem s.flash.cell slot) l)
    (hm : readU32 (slotMem s.flash.cell slot) offValidMarker = validMarker)
    (hp : ¬ FitsProfile (slotMem s.flash.cell slot offProfileId) l) :
    (loadSlot s slot).2 = .error .invalidImage := by
  obtain ⟨s', hf, heq⟩ := loadSlot_of_sealed h hm
  have hs := h.congr' fun i hi => (hf.2 i hi).symm
  rw [heq, (parse_of_carries hs.carries slot visitNone ()).2.1 (by rw [visitAll_visitNone])]
  rwa [hf.2 offProfileId (Nat.lt_of_lt_of_le (by decide : offProfileId < 44) (by omega))]

/-- What loads is a valid image. -/
theorem loadSlot_sound {s s' : Memory} {slot : Slot} {info : Info}
    (h : loadSlot s slot = (s', .ok info)) :
    ∃ l, ValidImage (slotMem s.flash.cell slot) l ∧ Fetched s s' slot l ∧
      info = infoOf (slotMem s.flash.cell slot) slot := by
  have hhead : ∀ i < 44, (s.fetch slot headerBytes.toNat).image i = slotMem s.flash.cell slot i :=
    fun i hi => fetch_apply s slot hi
  rw [loadSlot_eq] at h
  by_cases h1 : headerInvalid (s.fetch slot headerBytes.toNat).image = true
  · rw [if_pos h1] at h; cases h
  rw [if_neg h1] at h
  by_cases h2 : readU32 (s.fetch slot headerBytes.toNat).image offCatalogCrc ≠ catalogCrc32
  · rw [if_pos h2] at h; cases h
  rw [if_neg h2] at h
  generalize htot : headerBytes + readU16 (s.fetch slot headerBytes.toNat).image offPayloadLength
    = total at h
  rw [loadImage_eq] at h
  by_cases h3 : total.toNat > imageMaxBytes ∨ total.toNat > flashSlotSize
  · rw [if_pos h3] at h; cases h
  rw [if_neg h3] at h
  by_cases h4 : total.toNat = 0
  · rw [if_pos h4] at h; cases h
  rw [if_neg h4] at h
  generalize hfetch : (s.fetch slot headerBytes.toNat).fetch slot total.toNat = f at h
  by_cases h5 : imageCrc f.image total ≠ readU32 f.image offImageCrc
  · rw [if_pos h5] at h; cases h
  rw [if_neg h5] at h
  injection h with hs' hinfo
  subst hs'
  -- the buffer agrees with the slot on the header and on the whole image
  have hbuf : ∀ i, i < 44 ∨ i < total.toNat → f.image i = slotMem s.flash.cell slot i := by
    intro i hi
    rw [← hfetch]
    by_cases hit : i < total.toNat
    · exact fetch_apply (s.fetch slot headerBytes.toNat) slot hit
    · rw [← hhead i (by omega)]
      exact copy_of_not_mem _ _ (by omega)
  have hparse : parse f.image slot visitNone () = ((), .ok info) := Prod.ext rfl hinfo
  obtain ⟨l, hcar, hfit, -, hl⟩ := parse_sound hparse
  have hsame : ∀ i < 44, f.image i = (s.fetch slot headerBytes.toNat).image i :=
    fun i hi => (hbuf i (.inl hi)).trans (hhead i hi).symm
  have hlen : readU16 f.image offPayloadLength =
      readU16 (s.fetch slot headerBytes.toNat).image offPayloadLength :=
    readU16_agree hsame (by decide)
  have hfin : total.toNat = 44 + (encode l).length := by
    rw [← htot, ← hlen, hcar.fin_toNat]
  have hbuf' : ∀ i < 44 + (encode l).length, f.image i = slotMem s.flash.cell slot i :=
    fun i hi => hbuf i (.inr (by omega))
  rw [← headerInvalid_congr hsame] at h1
  simp only [headerInvalid, decide_eq_true_eq, not_or, not_not] at h1
  obtain ⟨hm1, hm2, hm3, hm4, hm5⟩ := h1
  have hcat : readU32 f.image offCatalogCrc = catalogCrc32 := by
    rw [← not_not.mp h2, readU32_agree hsame (by decide)]
  have hvalid : ValidImage f.image l :=
    ⟨⟨hm1, hm2, hm3, hcat, hm5, hcar, by rw [hlen, htot]; exact not_not.mp h5⟩, hm4, hfit⟩
  refine ⟨l, hvalid.congr hbuf', ⟨by rw [← hfetch]; rfl, hbuf'⟩, ?_⟩
  rw [hl, infoOf_congr fun i hi => hbuf i (.inl (by omega))]

/-! ## Images that do not load -/

/-- Slot contents that never load, whatever the buffer holds. -/
def Dead (m : Mem) : Prop :=
  ∀ (s : Memory) (slot : Slot), (∀ i < flashSlotSize, m i = slotMem s.flash.cell slot i) →
    (loadSlot s slot).2 = .error .invalidImage

theorem Dead.congr {m m' : Mem} (h : Dead m) (heq : ∀ i < flashSlotSize, m i = m' i) : Dead m' :=
  fun s slot hs => h s slot fun i hi => (heq i hi).trans (hs i hi)

theorem dead_of_unmarked {m : Mem} (h : readU32 m offValidMarker ≠ validMarker) : Dead m := by
  intro s slot hs
  refine loadSlot_unmarked ?_
  rwa [← readU32_agree hs (by decide)]

/-- A valid image ends inside its slot. -/
theorem Sealed.end_lt {m : Mem} {l : List Record} (h : Sealed m l) :
    44 + (encode l).length < flashSlotSize := by
  have := h.carries.wf.length_encode_le
  exact lt_of_le_of_lt (by omega : _ ≤ 1316) (by decide)

theorem dead_of_unfit {m : Mem} {l : List Record} (h : Sealed m l)
    (hm : readU32 m offValidMarker = validMarker) (hp : ¬ FitsProfile (m offProfileId) l) :
    Dead m := by
  intro s slot hs
  have hend := h.end_lt
  refine loadSlot_of_unfit (h.congr' fun i hi => hs i (by omega)) ?_ ?_
  · rwa [← readU32_agree hs (by decide)]
  · rwa [← hs _ (by decide)]

theorem ValidImage.congr' {m m' : Mem} {l : List Record} (h : ValidImage m l)
    (heq : ∀ i < flashSlotSize, m i = m' i) : ValidImage m' l :=
  h.congr fun i hi => heq i (hi.trans h.sealed.end_lt)

/-! ## The latest image -/

/-- The sequence number in a slot. -/
def sequenceOf (cell : Mem) (slot : Slot) : UInt32 := readU32 (slotMem cell slot) offSequence

/-- The slot holds a valid image; the other holds none, or its predecessor. -/
structure Newest (cell : Mem) (slot : Slot) (l : List Record) : Prop where
  valid : ValidImage (slotMem cell slot) l
  other : Dead (slotMem cell slot.other) ∨
    ∃ l', ValidImage (slotMem cell slot.other) l' ∧
      sequenceOf cell slot = sequenceOf cell slot.other + 1

theorem openLatest_eq {s s₁ s₂ : Memory} {ra rb : Except Status Info}
    (h1 : loadSlot s .a = (s₁, ra)) (h2 : loadSlot s₁ .b = (s₂, rb)) :
    openLatest s = openSelected s₂ ra rb := by
  unfold openLatest
  rw [h1]
  dsimp only
  rw [h2]

theorem loadSlot_of_dead {s : Memory} {slot : Slot} (h : Dead (slotMem s.flash.cell slot)) :
    ∃ s', s'.flash = s.flash ∧ loadSlot s slot = (s', .error .invalidImage) :=
  ⟨(loadSlot s slot).1, loadSlot_flash s slot, Prod.ext rfl (h s slot fun _ _ => rfl)⟩

theorem openLatest_of_dead {s : Memory} (ha : Dead (slotMem s.flash.cell .a))
    (hb : Dead (slotMem s.flash.cell .b)) :
    ∃ s', s'.flash = s.flash ∧ openLatest s = (s', .error .empty) := by
  obtain ⟨s₁, hs₁, h1⟩ := loadSlot_of_dead ha
  rw [← hs₁] at hb
  obtain ⟨s₂, hs₂, h2⟩ := loadSlot_of_dead hb
  exact ⟨s₂, hs₂.trans hs₁, openLatest_eq h1 h2⟩

/-- The newest image is opened, and it is left in the buffer. -/
theorem openLatest_of_newest {s : Memory} {slot : Slot} {l : List Record}
    (h : Newest s.flash.cell slot l) :
    ∃ s', Fetched s s' slot l ∧
      openLatest s = (s', .ok (infoOf (slotMem s.flash.cell slot) slot)) := by
  obtain ⟨hv, hother⟩ := h
  -- the last load starts from the same flash, whatever the buffer holds by then
  have hlast : ∀ s₂ : Memory, s₂.flash = s.flash → ∃ s', Fetched s s' slot l ∧
      loadSlot s₂ slot = (s', .ok (infoOf (slotMem s.flash.cell slot) slot)) := by
    intro s₂ hs₂
    rw [← hs₂] at hv ⊢
    obtain ⟨s', ⟨hf1, hf2⟩, heq⟩ := loadSlot_of_valid hv
    exact ⟨s', ⟨hf1.trans hs₂, by rw [← hs₂]; exact hf2⟩, heq⟩
  cases slot with
  | a =>
    obtain ⟨s₁, hs₁, h1⟩ := loadSlot_of_valid hv
    rcases hother with hdead | ⟨l', hv', hseq⟩
    · rw [← hs₁.1] at hdead
      obtain ⟨s₂, hs₂, h2⟩ := loadSlot_of_dead hdead
      rw [openLatest_eq h1 h2]
      exact hlast s₂ (hs₂.trans hs₁.1)
    · rw [← hs₁.1] at hv'
      obtain ⟨s₂, hs₂, h2⟩ := loadSlot_of_valid hv'
      have hnew : newer (infoOf (slotMem s₁.flash.cell .b) .b).sequence
          (infoOf (slotMem s.flash.cell .a) .a).sequence = false := by
        change newer (sequenceOf s₁.flash.cell .b) (sequenceOf s.flash.cell .a) = false
        rw [hs₁.1, hseq]
        exact not_newer_add_one _
      rw [openLatest_eq h1 h2]
      dsimp only [openSelected, Slot.other]
      rw [hnew]
      exact hlast s₂ (hs₂.1.trans hs₁.1)
  | b =>
    rcases hother with hdead | ⟨l', hv', hseq⟩
    · obtain ⟨s₁, hs₁, h1⟩ := loadSlot_of_dead hdead
      rw [← hs₁] at hv
      obtain ⟨s₂, hs₂, h2⟩ := loadSlot_of_valid hv
      rw [openLatest_eq h1 h2]
      exact hlast s₂ (hs₂.1.trans hs₁)
    · obtain ⟨s₁, hs₁, h1⟩ := loadSlot_of_valid hv'
      rw [← hs₁.1] at hv
      obtain ⟨s₂, hs₂, h2⟩ := loadSlot_of_valid hv
      have hnew : newer (infoOf (slotMem s₁.flash.cell .b) .b).sequence
          (infoOf (slotMem s.flash.cell .a) .a).sequence = true := by
        change newer (sequenceOf s₁.flash.cell .b) (sequenceOf s.flash.cell .a) = true
        rw [hs₁.1, hseq]
        exact newer_add_one _
      rw [openLatest_eq h1 h2]
      dsimp only [openSelected, Slot.other]
      rw [hnew]
      exact hlast s₂ (hs₂.1.trans hs₁.1)

/-! ## The records of the latest image -/

/-- The key and value a visitor gets for a record. -/
def visited (r : Record) : UInt16 × Entry := ((signalAt r.1).signalKey, r.2)

/-- A visitor that collects what it is given. -/
def collect : Visitor (List (UInt16 × Entry)) := fun acc key e => (acc ++ [(key, e)], true)

theorem visitAll_collect (acc : List (UInt16 × Entry)) (l : List Record) :
    visitAll collect acc l = (acc ++ l.map visited, true) := by
  induction l generalizing acc with
  | nil => simp [visitAll]
  | cons r l ih =>
    have hr : visitRecord collect acc r = (acc ++ [visited r], true) := rfl
    rw [visitAll, hr, if_pos rfl, ih]
    simp

/-- A visit of the latest image visits its records. -/
theorem visitLatest_of_newest {σ : Type*} {s : Memory} {slot : Slot} {l : List Record}
    (h : Newest s.flash.cell slot l) (visit : Visitor σ) (c : σ)
    (hacc : (visitAll visit c l).2 = true) :
    ∃ s', Fetched s s' slot l ∧ visitLatest s visit c =
      (s', (visitAll visit c l).1, .ok (infoOf (slotMem s.flash.cell slot) slot)) := by
  obtain ⟨s', hf, heq⟩ := openLatest_of_newest h
  have hv := h.valid.congr fun i hi => (hf.2 i hi).symm
  refine ⟨s', hf, ?_⟩
  have hp := (parse_of_carries hv.sealed.carries slot visit c).1 hacc hv.profile
  have hinfo : infoOf s'.image slot = infoOf (slotMem s.flash.cell slot) slot :=
    infoOf_congr (fun i hi => hf.2 i (by omega)) slot
  unfold visitLatest
  rw [heq]
  dsimp only
  rw [show (infoOf (slotMem s.flash.cell slot) slot).slot = slot from rfl, hp, hinfo]

end J1939Gen.Storage
