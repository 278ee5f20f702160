import J1939Gen.Storage.Loading

/-!
# What a slot holds after a write

However `writeSlot` ends, its slot is as it was, or holds nothing that loads, or
holds the whole new image; the other slot never changes. The marker is what
separates the last two cases: the first erased page removes it, and it is
programmed last.

* `writeSlot_spec`: the three outcomes.
* `writeSlot_of_none`: on a device that never fails a fitting image is written.
-/

namespace J1939Gen.Storage

open Bitmask ByteMem ValueStore NorFlash

/-- The cells of a slot. -/
def InSlot (slot : Slot) (i : ℕ) : Prop := slot.address ≤ i ∧ i < slot.address + flashSlotSize

/-- Nothing changed outside the slot. -/
def Within (slot : Slot) (c c' : Mem) : Prop := ∀ i, ¬ InSlot slot i → c' i = c i

theorem Within.trans {slot : Slot} {c c' c'' : Mem} (h : Within slot c c') (h' : Within slot c' c'') :
    Within slot c c'' := fun i hi => (h' i hi).trans (h i hi)

theorem Within.other {slot : Slot} {c c' : Mem} (h : Within slot c c') :
    ∀ i < flashSlotSize, slotMem c slot.other i = slotMem c' slot.other i := by
  intro i hi
  refine (h _ ?_).symm
  cases slot <;> simp only [InSlot, Slot.other, Slot.address, flashSlotAAddress, flashSlotBAddress,
    flashSlotSize] at hi ⊢ <;> omega

/-- The driver's status, as the loops test it. -/
theorem decide_status (done : Bool) :
    decide ((if done = true then FlashStatus.ok else FlashStatus.programError) = .ok) = done := by
  cases done <;> rfl

/-! ## Erasing -/

theorem erasePageAt_eq (slot : Slot) (d : Device) {page : ℕ} (hp : page < pagesPerSlot) :
    erasePageAt slot.address d page =
      d.erase (slot.address + page * flashPageSize) flashPageSize := by
  have hp : page < 4 := hp
  have hv := rangeValid_slot slot (k := page * flashPageSize) (n := flashPageSize) (by decide)
    (by simp only [flashPageSize, flashSlotSize]; omega)
  have hmod : (slot.address + page * flashPageSize) % flashPageSize = 0 := by
    cases slot <;> simp only [Slot.address, flashSlotAAddress, flashSlotBAddress, flashPageSize] <;>
      omega
  unfold erasePageAt flashErasePage
  rw [if_neg (by simp [hv, hmod])]
  exact Prod.ext rfl (decide_status _)

theorem erasePageAt_cell (slot : Slot) (d : Device) {page : ℕ} (hp : page < pagesPerSlot) :
    (erasePageAt slot.address d page).1.cell =
      if (erasePageAt slot.address d page).2 = true then
        fill d.cell (slot.address + page * flashPageSize) flashPageSize 0xFF
      else d.cell := by
  rw [erasePageAt_eq slot d hp]
  exact d.mutate_cell _

theorem fill_fill (c : Mem) (a n k : ℕ) (v : UInt8) :
    fill (fill c a n v) (a + n) k v = fill c a (n + k) v := by
  funext i
  unfold fill
  split_ifs <;> first | rfl | omega

/-- However the erase loop ends, it has erased a prefix of the slot. -/
theorem untilFail_erase (slot : Slot) {c : Mem} {d : Device} {k n : ℕ} (hkn : k + n ≤ pagesPerSlot)
    (hd : d.cell = fill c slot.address (k * flashPageSize) 0xFF) :
    ∃ j, k ≤ j ∧ j ≤ k + n ∧
      (untilFail (erasePageAt slot.address) d (List.range' k n)).1.cell =
        fill c slot.address (j * flashPageSize) 0xFF ∧
      ((untilFail (erasePageAt slot.address) d (List.range' k n)).2 = true → j = k + n) := by
  induction n generalizing d k with
  | zero => exact ⟨k, le_refl _, le_refl _, hd, fun _ => rfl⟩
  | succ n ih =>
    have hcell := erasePageAt_cell slot d (show k < pagesPerSlot by omega)
    rw [List.range'_succ]
    unfold untilFail
    by_cases hok : (erasePageAt slot.address d k).2 = true
    · rw [if_pos hok] at hcell ⊢
      obtain ⟨j, h1, h2, h3, h4⟩ := ih (k := k + 1) (d := (erasePageAt slot.address d k).1)
        (by omega) (by rw [hcell, hd, fill_fill, Nat.succ_mul])
      exact ⟨j, by omega, by omega, h3, fun h => by rw [h4 h]; omega⟩
    · rw [if_neg hok] at hcell ⊢
      exact ⟨k, le_refl _, by omega, by rw [hcell, hd], fun h => by cases h⟩

theorem fill_within (slot : Slot) (c : Mem) {j : ℕ} (hj : j ≤ pagesPerSlot) (v : UInt8) :
    Within slot c (fill c slot.address (j * flashPageSize) v) := by
  have hj : j ≤ 4 := hj
  intro i hi
  refine fill_of_not_mem c v ?_
  simp only [InSlot, flashPageSize, flashSlotSize] at hi ⊢
  omega

/-- One erased page is enough to remove the marker. -/
theorem marker_fill (slot : Slot) (c : Mem) {j : ℕ} (hj : 0 < j) :
    ∀ i, offValidMarker ≤ i → i < offValidMarker + 4 →
      slotMem (fill c slot.address (j * flashPageSize) 0xFF) slot i = 0xFF := by
  intro i h1 h2
  refine fill_of_mem c _ ?_
  simp only [flashPageSize, offValidMarker] at h1 h2 ⊢
  omega

/-! ## Programming -/

theorem toNat_and_not_one (x : UInt16) : (x &&& ~~~1).toNat = 2 * (x.toNat / 2) := by
  have hx := x.toNat_lt
  rw [UInt16.toNat_and, show (~~~1 : UInt16).toNat = 65534 from rfl]
  have hdiv : (x.toNat &&& 65534) / 2 = x.toNat / 2 := by
    rw [Nat.and_div_two, show 65534 / 2 = 2 ^ 15 - 1 from rfl, Nat.and_two_pow_sub_one_eq_mod]
    omega
  have hmod : (x.toNat &&& 65534) % 2 = 0 := by
    have h := Nat.testBit_and x.toNat 65534 0
    rw [show Nat.testBit 65534 0 = false from rfl, Bool.and_false, Nat.testBit_zero,
      decide_eq_false_iff_not] at h
    omega
  omega

theorem mem_halfwordOffsets {total : UInt16} (ht : total.toNat + 1 < 65536) {k : ℕ} :
    k ∈ halfwordOffsets total ↔ k % 2 = 0 ∧ k + 1 ≤ total.toNat := by
  have hadd : (total + 1).toNat = total.toNat + 1 := toNat_add_of_lt (n := 1) ht
  unfold halfwordOffsets
  dsimp only
  rw [toNat_and_not_one, hadd, List.mem_map]
  constructor
  · rintro ⟨j, hj, rfl⟩
    rw [List.mem_range] at hj
    omega
  · rintro ⟨h1, h2⟩
    exact ⟨k / 2, by rw [List.mem_range]; omega, by omega⟩

theorem halfwordOffsets_pairwise (total : UInt16) :
    (halfwordOffsets total).Pairwise fun j k => j + 2 ≤ k := by
  unfold halfwordOffsets
  rw [List.pairwise_map]
  exact List.pairwise_lt_range.imp fun h => by omega

/-- The offsets of the first program loop. -/
def bodyOffsets (total : UInt16) : List ℕ := (halfwordOffsets total).filter fun k => !isMarker k

theorem flashProgramHalfword_eq (slot : Slot) (d : Device) {k : ℕ} (hk : k + 2 ≤ flashSlotSize)
    (heven : k % 2 = 0) (v : UInt16) :
    flashProgramHalfword d (slot.address + k) v =
      ((d.program (slot.address + k) v).1,
        if (d.program (slot.address + k) v).2 then .ok else .programError) := by
  have hv := rangeValid_slot slot (k := k) (n := 2) (by decide) hk
  have hmod : (slot.address + k) % 2 = 0 := by
    cases slot <;> simp only [Slot.address, flashSlotAAddress, flashSlotBAddress] <;> omega
  rw [flashProgramHalfword, if_neg (by simp [hv, hmod])]

theorem untilFail_programHalfwordAt (slot : Slot) (m : Mem) {total : UInt16}
    (ht : total.toNat + 1 < flashSlotSize) (d : Device) :
    untilFail (programHalfwordAt m slot.address) d (halfwordOffsets total) =
      untilFail (programAt m slot.address) d (bodyOffsets total) := by
  have ht : total.toNat + 1 < 4096 := ht
  refine untilFail_filter _ (fun k _ hk s => ?_) (fun k hmem hk s => ?_) d
  · rw [programHalfwordAt, if_pos (by simpa using hk)]
  · obtain ⟨heven, hlt⟩ := (mem_halfwordOffsets (by omega)).mp hmem
    rw [programHalfwordAt, if_neg (by simpa using hk),
      flashProgramHalfword_eq slot s (by simp only [flashSlotSize]; omega) heven, programAt]
    exact Prod.ext rfl (decide_status _)

theorem mem_bodyOffsets {total : UInt16} (ht : total.toNat + 1 < 65536) {k : ℕ} :
    k ∈ bodyOffsets total ↔ k % 2 = 0 ∧ k + 1 ≤ total.toNat ∧ k ≠ 40 ∧ k ≠ 42 := by
  rw [bodyOffsets, List.mem_filter, mem_halfwordOffsets ht]
  simp only [isMarker, offValidMarker, Bool.not_eq_true', decide_eq_false_iff_not, not_or]
  omega

/-- A program loop leaves the marker and everything outside the slot alone. -/
theorem burn_frame (slot : Slot) (c m : Mem) {total : UInt16} (ht : total.toNat + 1 < flashSlotSize)
    {done : List ℕ} (hdone : ∀ k ∈ done, k ∈ bodyOffsets total) :
    Within slot c (burn c m slot.address done) ∧
      ∀ i, offValidMarker ≤ i → i < offValidMarker + 4 →
        slotMem (burn c m slot.address done) slot i = slotMem c slot i := by
  have ht : total.toNat + 1 < 4096 := ht
  have hd : ∀ k ∈ done, k % 2 = 0 ∧ k + 1 ≤ total.toNat ∧ k ≠ 40 ∧ k ≠ 42 :=
    fun k hk => (mem_bodyOffsets (by omega)).mp (hdone k hk)
  constructor
  · intro i hi
    refine burn_of_not_mem c m _ fun k hk => ?_
    have := hd k hk
    simp only [InSlot, flashSlotSize] at hi
    omega
  · intro i h1 h2
    refine burn_of_not_mem c m _ fun k hk => ?_
    have := hd k hk
    simp only [offValidMarker] at h1 h2
    omega

/-- A program loop that ran through has copied the image, the marker apart. -/
theorem burn_copies (slot : Slot) (c m : Mem) {total : UInt16}
    (ht : total.toNat + 1 < flashSlotSize) :
    ∀ i < total.toNat, i < 40 ∨ 44 ≤ i →
      m i = slotMem (burn c m slot.address (bodyOffsets total)) slot i := by
  have ht : total.toNat + 1 < 4096 := ht
  intro i hi hm
  rw [slotMem]
  refine (burn_of_mem c m slot.address (k := 2 * (i / 2)) ?_ (by omega)).symm
  rw [mem_bodyOffsets (by omega)]
  omega

/-- What was programmed is verified. -/
theorem burn_verified (slot : Slot) (c m : Mem) {total : UInt16}
    (ht : total.toNat + 1 < flashSlotSize) (left : Option ℕ) :
    (halfwordOffsets total).all (verifyHalfwordAt m slot.address
      ⟨burn c m slot.address (bodyOffsets total), left⟩) = true := by
  have ht : total.toNat + 1 < 4096 := ht
  rw [List.all_eq_true]
  intro k hk
  obtain ⟨heven, hlt⟩ := (mem_halfwordOffsets (by omega)).mp hk
  by_cases hm : isMarker k = true
  · rw [verifyHalfwordAt, if_pos hm]
  have hbody : k ∈ bodyOffsets total := List.mem_filter.mpr ⟨hk, by simpa using hm⟩
  have hread := rangeValid_slot slot (k := k) (n := 2) (by decide)
    (by simp only [flashSlotSize]; omega)
  rw [verifyHalfwordAt, if_neg hm, flashRead, if_neg (by simp [hread])]
  dsimp only
  rw [decide_eq_true_eq]
  exact ⟨burn_of_mem c m slot.address hbody (.inl rfl), burn_of_mem c m slot.address hbody (.inr rfl)⟩

/-! ## The marker -/

theorem slotMem_within {slot : Slot} {c c' : Mem} {k : ℕ} (hk : k + 2 ≤ flashSlotSize)
    (h : ∀ i, i ≠ slot.address + k → i ≠ slot.address + k + 1 → c' i = c i) :
    Within slot c c' := by
  intro i hi
  simp only [InSlot, flashSlotSize] at hi hk
  exact h i (by omega) (by omega)

/-- Programming a half-word of the slot changes it or nothing. -/
theorem flashProgramHalfword_cell (slot : Slot) (d : Device) {k : ℕ} (hk : k + 2 ≤ flashSlotSize)
    (heven : k % 2 = 0) (v : UInt16) :
    (flashProgramHalfword d (slot.address + k) v).1.cell =
      if (flashProgramHalfword d (slot.address + k) v).2 = .ok then
        writeU16 d.cell (slot.address + k) v else d.cell := by
  rw [flashProgramHalfword_eq slot d hk heven]
  unfold Device.program
  split_ifs with h1 h2 h3 h4 <;> simp_all [writeU16_self, Device.mutate_cell]

theorem marker_halves (m : Mem) :
    readU32 m offValidMarker = validMarker ↔
      readU16 m offValidMarker = validMarker.toUInt16 ∧
        readU16 m (offValidMarker + 2) = (validMarker >>> 16).toUInt16 := by
  have h := toNat_readU32_halves m offValidMarker
  have h1 := (readU16 m offValidMarker).toNat_lt
  have h2 := (readU16 m (offValidMarker + 2)).toNat_lt
  have hlow : validMarker.toUInt16.toNat = 42330 := rfl
  have hhigh : (validMarker >>> 16).toUInt16.toNat = 42330 := rfl
  have hall : validMarker.toNat = 42330 + 65536 * 42330 := rfl
  rw [← UInt32.toNat_inj, ← UInt16.toNat_inj, ← UInt16.toNat_inj, hlow, hhigh, hall, h]
  omega

/-- What a call leaves in the slot it writes. -/
inductive Outcome (slot : Slot) (image : Mem) (l : List Record) (c : Mem)
    (result : Memory × Except Status Info) : Prop
  | untouched (hcell : result.1.flash.cell = c) (e : Status) (he : result.2 = .error e)
  | dead (hdead : Dead (slotMem result.1.flash.cell slot)) (e : Status) (he : result.2 = .error e)
  | written (hvalid : ValidImage (slotMem result.1.flash.cell slot) l)
      (hinfo : infoOf (slotMem result.1.flash.cell slot) slot = infoOf image slot)
      (he : result.2 = .ok (infoOf image slot))

theorem slotMem_writeU16 (c : Mem) (slot : Slot) (k : ℕ) (v : UInt16) :
    slotMem (writeU16 c (slot.address + k) v) slot = writeU16 (slotMem c slot) k v := by
  funext i
  unfold slotMem writeU16
  simp only [Function.update_apply]
  have h1 : slot.address + i = slot.address + k + 1 ↔ i = k + 1 := by omega
  have h2 : slot.address + i = slot.address + k ↔ i = k := by omega
  simp only [h1, h2]

/-- The two half-words of the marker. -/
def marked (m : Mem) : Mem :=
  writeU16 (writeU16 m offValidMarker validMarker.toUInt16) (offValidMarker + 2)
    (validMarker >>> 16).toUInt16

/-- A whole image is marked. -/
theorem sealed_marked {image m : Mem} {l : List Record} (h : Sealed image l)
    (hhead : ∀ i < 40, image i = m i)
    (hbody : ∀ i, 44 ≤ i → i < 44 + (encode l).length → image i = m i) :
    Sealed (marked m) l ∧ readU32 (marked m) offValidMarker = validMarker ∧
      ∀ i < 40, image i = marked m i := by
  have hout : ∀ i, i < 40 ∨ 44 ≤ i → marked m i = m i := by
    intro i hi
    rw [marked, writeU16_of_ne _ _ (by simp only [offValidMarker]; omega),
      writeU16_of_ne _ _ (by simp only [offValidMarker]; omega)]
  have hhead' : ∀ i < 40, image i = marked m i :=
    fun i hi => (hhead i hi).trans (hout i (.inl hi)).symm
  refine ⟨h.congr hhead' fun i h3 h4 => (hbody i h3 h4).trans (hout i (.inr h3)).symm, ?_, hhead'⟩
  rw [marker_halves, marked, readU16_writeU16_of_ne _ _ (by decide), readU16_writeU16,
    readU16_writeU16]
  exact ⟨rfl, rfl⟩

/-- Half a marker is none. -/
theorem unmarked_of_high {m : Mem}
    (h : ∀ i, offValidMarker + 2 ≤ i → i < offValidMarker + 4 → m i = 0xFF) :
    readU32 m offValidMarker ≠ validMarker := by
  intro hmarker
  have hread : readU16 m (offValidMarker + 2) = 0xFFFF :=
    readU16_eq (h _ (by decide) (by decide)) (h _ (by decide) (by decide))
  rw [marker_halves, hread] at hmarker
  exact absurd hmarker.2 (by decide)

/-- The load at the end of `prv_write_slot`. -/
def verifyLoad (s : Memory) (slot : Slot) : Memory × Except Status Info :=
  match loadSlot s slot with
  | (s, .ok info) => (s, .ok info)
  | (s, .error _) => (s, .error .verifyError)

theorem verifyLoad_flash (s : Memory) (slot : Slot) : (verifyLoad s slot).1.flash = s.flash := by
  have hflash := loadSlot_flash s slot
  unfold verifyLoad
  generalize loadSlot s slot = r at hflash ⊢
  obtain ⟨s', info | e⟩ := r <;> exact hflash

/-- A marked image loads, or it does not fit its profile. -/
theorem verifyLoad_spec {s : Memory} {slot : Slot} {image : Mem} {l : List Record} {c : Mem}
    (hsealed : Sealed (slotMem s.flash.cell slot) l)
    (hmarker : readU32 (slotMem s.flash.cell slot) offValidMarker = validMarker)
    (hhead : ∀ i < 40, image i = slotMem s.flash.cell slot i) :
    Outcome slot image l c (verifyLoad s slot) := by
  have hflash := verifyLoad_flash s slot
  unfold verifyLoad at hflash ⊢
  by_cases hp : FitsProfile (slotMem s.flash.cell slot offProfileId) l
  · have hvalid : ValidImage (slotMem s.flash.cell slot) l := ⟨hsealed, hmarker, hp⟩
    obtain ⟨s', hf, heq⟩ := loadSlot_of_valid hvalid
    have hinfo := infoOf_congr hhead slot
    rw [heq] at hflash ⊢
    dsimp only at hflash
    refine .written ?_ ?_ ?_
    · dsimp only
      rw [hflash]
      exact hvalid
    · dsimp only
      rw [hflash]
      exact hinfo.symm
    · dsimp only
      rw [hinfo]
  · have hdead := dead_of_unfit hsealed hmarker hp
    obtain ⟨s', hs', heq⟩ := loadSlot_of_dead hdead
    rw [heq]
    refine .dead ?_ _ rfl
    dsimp only
    rw [hs']
    exact hdead

/-- Marking a slot that holds a whole, unmarked image. -/
theorem writeMarker_spec {s : Memory} (slot : Slot) {l : List Record} (h : Sealed s.image l)
    (hmark : ∀ i, offValidMarker ≤ i → i < offValidMarker + 4 →
      slotMem s.flash.cell slot i = 0xFF)
    (hhead : ∀ i < 40, s.image i = slotMem s.flash.cell slot i)
    (hbody : ∀ i, 44 ≤ i → i < 44 + (encode l).length →
      s.image i = slotMem s.flash.cell slot i) :
    Within slot s.flash.cell (writeMarker s slot).1.flash.cell ∧
      Outcome slot s.image l s.flash.cell (writeMarker s slot) := by
  have hlow := flashProgramHalfword_cell slot s.flash (k := offValidMarker) (by decide) (by decide)
    validMarker.toUInt16
  unfold writeMarker
  dsimp only
  generalize flashProgramHalfword s.flash (slot.address + offValidMarker) validMarker.toUInt16
    = low at hlow ⊢
  obtain ⟨flash, low⟩ := low
  dsimp only at hlow ⊢
  by_cases h1 : low = .ok
  swap
  · rw [if_neg h1] at hlow
    rw [if_pos h1]
    exact ⟨fun i _ => by dsimp only; rw [hlow], .untouched hlow _ rfl⟩
  rw [if_pos h1] at hlow
  rw [if_neg (by simpa using h1)]
  have hw1 : Within slot s.flash.cell flash.cell := by
    refine slotMem_within (k := offValidMarker) (by decide) fun i h2 h3 => ?_
    rw [hlow, writeU16_of_ne _ _ (by omega)]
  have hhalf : ∀ i, offValidMarker + 2 ≤ i → i < offValidMarker + 4 →
      slotMem flash.cell slot i = 0xFF := by
    intro i h2 h3
    rw [← hmark i (by omega) h3]
    simp only [slotMem, hlow]
    exact writeU16_of_ne _ _ (by omega)
  have hhigh := flashProgramHalfword_cell slot flash (k := offValidMarker + 2) (by decide)
    (by decide) (validMarker >>> 16).toUInt16
  generalize flashProgramHalfword flash (slot.address + (offValidMarker + 2))
    (validMarker >>> 16).toUInt16 = high at hhigh ⊢
  obtain ⟨flash', high⟩ := high
  dsimp only at hhigh ⊢
  by_cases h2 : high = .ok
  swap
  · rw [if_neg h2] at hhigh
    rw [if_pos h2]
    refine ⟨by dsimp only; rw [hhigh]; exact hw1, .dead (dead_of_unmarked (unmarked_of_high ?_)) _ rfl⟩
    dsimp only
    rw [hhigh]
    exact hhalf
  rw [if_pos h2] at hhigh
  rw [if_neg (by simpa using h2)]
  have hw2 : Within slot s.flash.cell flash'.cell := by
    refine hw1.trans (slotMem_within (k := offValidMarker + 2) (by decide) fun i h3 h4 => ?_)
    rw [hhigh, writeU16_of_ne _ _ (by omega)]
  -- now the slot holds the image and the marker
  have hcell : slotMem flash'.cell slot = marked (slotMem s.flash.cell slot) := by
    rw [hhigh, hlow, slotMem_writeU16, slotMem_writeU16, marked]
  obtain ⟨hsealed, hmarker, hhead'⟩ := sealed_marked h hhead hbody
  rw [← hcell] at hsealed hmarker hhead'
  refine ⟨?_, verifyLoad_spec (s := { s with flash := flash' }) hsealed hmarker hhead'⟩
  show Within slot s.flash.cell (verifyLoad { s with flash := flash' } slot).1.flash.cell
  rw [verifyLoad_flash]
  exact hw2

/-! ## The whole write -/

theorem fill_zero (c : Mem) (a : ℕ) (v : UInt8) : fill c a 0 v = c :=
  funext fun _ => fill_of_not_mem c v (by omega)

theorem unmarked_of_blank {m : Mem}
    (h : ∀ i, offValidMarker ≤ i → i < offValidMarker + 4 → m i = 0xFF) :
    readU32 m offValidMarker ≠ validMarker := by
  have hread : readU32 m offValidMarker = 0xFFFFFFFF :=
    readU32_eq (h _ (by decide) (by decide)) (h _ (by decide) (by decide))
      (h _ (by decide) (by decide)) (h _ (by decide) (by decide))
  rw [hread]
  decide

/-- The image with its header, and one byte of padding, is shorter than a slot. -/
theorem Sealed.total_lt {m : Mem} {l : List Record} (h : Sealed m l) :
    (headerBytes + readU16 m offPayloadLength).toNat + 1 < flashSlotSize := by
  have hlen := h.carries.wf.length_encode_le
  rw [h.carries.fin_toNat]
  simp only [flashSlotSize]
  omega

/-- The three outcomes of a write, whatever fails. -/
theorem writeSlot_spec {s : Memory} (slot : Slot) {l : List Record} (h : Sealed s.image l)
    {r : Memory × Except Status Info}
    (hr : r = writeSlot s slot (headerBytes + readU16 s.image offPayloadLength)) :
    Within slot s.flash.cell r.1.flash.cell ∧ Outcome slot s.image l s.flash.cell r := by
  have hfin := h.carries.fin_toNat
  have hend : 44 + (encode l).length < 4096 := h.end_lt
  obtain ⟨j, -, hj, herase, herased⟩ := untilFail_erase slot (c := s.flash.cell) (d := s.flash)
    (k := 0) (n := pagesPerSlot) (le_of_eq (Nat.zero_add _)) (by rw [Nat.zero_mul, fill_zero])
  rw [Nat.zero_add] at hj herased
  have ht := h.total_lt
  generalize headerBytes + readU16 s.image offPayloadLength = total at hr hfin ht
  unfold writeSlot at hr
  rw [List.range_eq_range'] at hr
  generalize untilFail (erasePageAt slot.address) s.flash (List.range' 0 pagesPerSlot) = erased
    at hr herase herased
  obtain ⟨flash, erased⟩ := erased
  dsimp only at hr herase herased
  have hwithin : Within slot s.flash.cell flash.cell := herase ▸ fill_within slot s.flash.cell hj _
  by_cases h1 : erased = false
  · rw [if_pos h1] at hr
    subst hr
    refine ⟨hwithin, ?_⟩
    rcases Nat.eq_zero_or_pos j with hj0 | hj0
    · refine .untouched ?_ _ rfl
      dsimp only
      rw [herase, hj0, Nat.zero_mul, fill_zero]
    · refine .dead (dead_of_unmarked (unmarked_of_blank ?_)) _ rfl
      dsimp only
      rw [herase]
      exact marker_fill slot s.flash.cell hj0
  rw [if_neg h1, untilFail_programHalfwordAt slot s.image ht] at hr
  obtain rfl : j = pagesPerSlot := herased (by simpa using h1)
  have hblank := marker_fill slot s.flash.cell (j := pagesPerSlot) (by decide)
  rw [← herase] at hblank
  obtain ⟨done, rest, hlist, hburn, hdone⟩ := untilFail_program s.image slot.address flash
    (bodyOffsets total)
  have hsub : ∀ k ∈ done, k ∈ bodyOffsets total := by
    intro k hk
    rw [hlist]
    exact List.mem_append_left _ hk
  obtain ⟨hframe, hmark⟩ := burn_frame slot flash.cell s.image ht hsub
  generalize untilFail (programAt s.image slot.address) flash (bodyOffsets total) = programmed
    at hr hburn hdone
  obtain ⟨flash', programmed⟩ := programmed
  dsimp only at hr hburn hdone
  rw [← hburn] at hframe hmark
  have hwithin' := hwithin.trans hframe
  have hblank' : ∀ i, offValidMarker ≤ i → i < offValidMarker + 4 →
      slotMem flash'.cell slot i = 0xFF := fun i h2 h3 => (hmark i h2 h3).trans (hblank i h2 h3)
  by_cases h2 : programmed = false
  · rw [if_pos h2] at hr
    subst hr
    exact ⟨hwithin', .dead (dead_of_unmarked (unmarked_of_blank hblank')) _ rfl⟩
  rw [if_neg h2] at hr
  split_ifs at hr with h3
  · subst hr
    exact ⟨hwithin', .dead (dead_of_unmarked (unmarked_of_blank hblank')) _ rfl⟩
  obtain rfl : rest = [] := hdone (by simpa using h2)
  rw [List.append_nil] at hlist
  rw [← hlist] at hburn
  have hcopy := burn_copies slot flash.cell s.image ht
  rw [← hburn] at hcopy
  rw [hfin] at hcopy
  obtain ⟨hw, hout⟩ := writeMarker_spec (s := { s with flash := flash' }) slot h hblank'
    (fun i hi => hcopy i (by omega) (.inl hi)) fun i h4 h5 => hcopy i h5 (.inr h4)
  rw [← hr] at hw hout
  refine ⟨hwithin'.trans hw, ?_⟩
  cases hout with
  | untouched hcell e he =>
    refine .dead (dead_of_unmarked (unmarked_of_blank ?_)) e he
    rw [hcell]
    exact hblank'
  | dead hdead e he => exact .dead hdead e he
  | written hvalid hinfo he => exact .written hvalid hinfo he

/-! ## Without failures -/

/-- A device that never fails erases all pages it is told to. -/
theorem untilFail_erase_of_none (slot : Slot) {d : Device} (hd : d.left = none) {pages : List ℕ}
    (hp : ∀ p ∈ pages, p < pagesPerSlot) :
    (untilFail (erasePageAt slot.address) d pages).2 = true ∧
      (untilFail (erasePageAt slot.address) d pages).1.left = none := by
  induction pages generalizing d with
  | nil => exact ⟨rfl, hd⟩
  | cons page pages ih =>
    have herase : erasePageAt slot.address d page =
        (⟨fill d.cell (slot.address + page * flashPageSize) flashPageSize 0xFF, none⟩, true) := by
      rw [erasePageAt_eq slot d (hp page (by simp)), Device.erase, Device.mutate_of_none hd]
    unfold untilFail
    rw [herase, if_pos rfl]
    exact ih rfl fun p h => hp p (by simp [h])

/-- The last load of a write accepts what was written. -/
theorem loadSlot_marked {s : Memory} {slot : Slot} {l : List Record} {m : Mem}
    (h : Sealed s.image l) (hp : FitsProfile (s.image offProfileId) l)
    (hhead : ∀ i < 40, s.image i = m i)
    (hbody : ∀ i, 44 ≤ i → i < 44 + (encode l).length → s.image i = m i)
    (hcell : slotMem s.flash.cell slot = marked m) :
    ∃ s', s'.flash = s.flash ∧ loadSlot s slot = (s', .ok (infoOf s.image slot)) := by
  obtain ⟨hsealed, hmarker, hhead'⟩ := sealed_marked h hhead hbody
  rw [← hcell] at hsealed hmarker hhead'
  have hvalid : ValidImage (slotMem s.flash.cell slot) l :=
    ⟨hsealed, hmarker, by rw [← hhead' offProfileId (by decide)]; exact hp⟩
  obtain ⟨s', hf, heq⟩ := loadSlot_of_valid hvalid
  exact ⟨s', hf.1, by rw [heq, infoOf_congr hhead' slot]⟩

theorem flashProgramHalfword_blank (slot : Slot) {d : Device} (hd : d.left = none) {k : ℕ}
    (hk : k + 2 ≤ flashSlotSize) (heven : k % 2 = 0)
    (hb : readU16 d.cell (slot.address + k) = 0xFFFF) (v : UInt16) :
    flashProgramHalfword d (slot.address + k) v =
      (⟨writeU16 d.cell (slot.address + k) v, none⟩, .ok) := by
  rw [flashProgramHalfword_eq slot d hk heven, program_blank hd hb, if_pos rfl]

/-- Programming the marker over blank cells. -/
theorem writeMarker_of_none {s : Memory} (slot : Slot) {l : List Record} (h : Sealed s.image l)
    (hp : FitsProfile (s.image offProfileId) l) (hd : s.flash.left = none)
    (hmark : ∀ i, offValidMarker ≤ i → i < offValidMarker + 4 →
      slotMem s.flash.cell slot i = 0xFF)
    (hhead : ∀ i < 40, s.image i = slotMem s.flash.cell slot i)
    (hbody : ∀ i, 44 ≤ i → i < 44 + (encode l).length →
      s.image i = slotMem s.flash.cell slot i) :
    (writeMarker s slot).2 = .ok (infoOf s.image slot) ∧
      (writeMarker s slot).1.flash.left = none := by
  have hblank : ∀ k, offValidMarker ≤ k → k + 1 < offValidMarker + 4 →
      readU16 s.flash.cell (slot.address + k) = 0xFFFF := fun k h1 h2 =>
    readU16_eq (hmark k h1 (by omega)) (hmark (k + 1) (by omega) h2)
  have hkeep : ∀ v, readU16 (writeU16 s.flash.cell (slot.address + offValidMarker) v)
      (slot.address + (offValidMarker + 2)) = 0xFFFF := by
    intro v
    rw [readU16_writeU16_of_ne _ v (by omega)]
    exact hblank _ (by decide) (by decide)
  have hlow := flashProgramHalfword_blank slot hd (k := offValidMarker) (by decide) (by decide)
    (hblank _ (by decide) (by decide)) validMarker.toUInt16
  have hhigh := flashProgramHalfword_blank slot (d := ⟨writeU16 s.flash.cell
    (slot.address + offValidMarker) validMarker.toUInt16, none⟩) (k := offValidMarker + 2) rfl
    (by decide) (by decide) (hkeep _) (validMarker >>> 16).toUInt16
  unfold writeMarker
  dsimp only
  rw [hlow]
  dsimp only
  rw [if_neg (by simp), hhigh]
  dsimp only
  rw [if_neg (by simp)]
  obtain ⟨s', hf, heq⟩ := loadSlot_marked (s := { s with flash := ⟨writeU16 (writeU16 s.flash.cell
    (slot.address + offValidMarker) validMarker.toUInt16) (slot.address + (offValidMarker + 2))
    (validMarker >>> 16).toUInt16, none⟩ }) h hp hhead hbody
    (by rw [slotMem_writeU16, slotMem_writeU16, marked])
  rw [heq]
  exact ⟨rfl, congrArg Device.left hf⟩

/-- On a device that never fails an image that fits its profile is written. -/
theorem writeSlot_of_none {s : Memory} (slot : Slot) {l : List Record} (h : Sealed s.image l)
    (hp : FitsProfile (s.image offProfileId) l) (hd : s.flash.left = none)
    {r : Memory × Except Status Info}
    (hr : r = writeSlot s slot (headerBytes + readU16 s.image offPayloadLength)) :
    r.2 = .ok (infoOf s.image slot) ∧ r.1.flash.left = none := by
  have hfin := h.carries.fin_toNat
  have hend : 44 + (encode l).length < 4096 := h.end_lt
  have hpages : ∀ p ∈ List.range pagesPerSlot, p < pagesPerSlot := fun p hp => List.mem_range.mp hp
  obtain ⟨herased, hleft⟩ := untilFail_erase_of_none slot hd hpages
  obtain ⟨j, -, -, hcell, hall⟩ := untilFail_erase slot (c := s.flash.cell) (d := s.flash)
    (k := 0) (n := pagesPerSlot) (le_of_eq (Nat.zero_add _)) (by rw [Nat.zero_mul, fill_zero])
  rw [← List.range_eq_range'] at hcell hall
  obtain rfl : j = pagesPerSlot := by rw [hall herased, Nat.zero_add]
  have ht := h.total_lt
  generalize headerBytes + readU16 s.image offPayloadLength = total at hr hfin ht
  have ht' : total.toNat + 1 < 4096 := ht
  unfold writeSlot at hr
  generalize untilFail (erasePageAt slot.address) s.flash (List.range pagesPerSlot) = erased
    at hr hcell herased hleft
  obtain ⟨flash, erased⟩ := erased
  dsimp only at hr hcell herased hleft
  have hblank : ∀ i < flashSlotSize, slotMem flash.cell slot i = 0xFF := by
    intro i hi
    rw [slotMem, hcell]
    refine fill_of_mem _ _ ?_
    simp only [pagesPerSlot, flashPageSize, flashSlotSize] at hi ⊢
    omega
  -- the program loop runs over blank half-words
  have hprog : untilFail (programAt s.image slot.address) flash (bodyOffsets total) =
      (⟨burn flash.cell s.image slot.address (bodyOffsets total), none⟩, true) := by
    refine untilFail_program_blank s.image slot.address hleft (fun k hk => ?_) ?_
    · obtain ⟨-, hlt, -⟩ := (mem_bodyOffsets (by omega)).mp hk
      exact readU16_eq (hblank k (by simp only [flashSlotSize]; omega))
        (hblank (k + 1) (by simp only [flashSlotSize]; omega))
    · exact (halfwordOffsets_pairwise total).filter _
  rw [if_neg (by simp [herased]), untilFail_programHalfwordAt slot s.image ht, hprog] at hr
  dsimp only at hr
  rw [if_neg (by simp)] at hr
  have hcopy := burn_copies slot flash.cell s.image ht
  have hverify := burn_verified slot flash.cell s.image ht none
  rw [if_neg (by simp [hverify])] at hr
  have hdone : ∀ k ∈ bodyOffsets total, k ∈ bodyOffsets total := fun _ hk => hk
  have hmark := (burn_frame slot flash.cell s.image ht hdone).2
  rw [hfin] at hcopy
  have hres := writeMarker_of_none (s := { s with
      flash := ⟨burn flash.cell s.image slot.address (bodyOffsets total), none⟩ }) slot h hp rfl
    (fun i h1 h2 => (hmark i h1 h2).trans (hblank i (by
      simp only [flashSlotSize, offValidMarker] at h2 ⊢
      omega))) (fun i hi => hcopy i (by omega) (.inl hi)) fun i h4 h5 => hcopy i h5 (.inr h4)
  rw [← hr] at hres
  exact hres

end J1939Gen.Storage
