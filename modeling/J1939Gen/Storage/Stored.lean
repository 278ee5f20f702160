import J1939Gen.Storage.Latest
import J1939Gen.Storage.Erasing

/-!
# Calls on a flash that does not fail

When every flash operation succeeds, a save and an autostart change store their
image, and an erase leaves none.

* `openLatest_congr`: what an open returns depends on the flash alone.
* `save_stored`, `setAutostart_stored`, `erase_blank`: the three calls.
-/

namespace J1939Gen.Storage

open Bitmask ByteMem ValueStore NorFlash SerialClock

/-! ## The result of an open -/

/-- Without a visitor the parser only ever finds an invalid image. -/
theorem parseRecord_visitNone (m : Mem) (fin : UInt16) (s : ParseState Unit) :
    (parseRecord m fin visitNone s).2 = .ok ∨ (parseRecord m fin visitNone s).2 = .invalidImage := by
  rcases parseRecord_key m fin visitNone s with hbad | ⟨i, -, -, -, -, heq⟩
  · exact .inr hbad
  rw [heq]
  split_ifs
  · unfold parseBlob
    simp only [visitNone, Bool.true_eq_false, if_false]
    split_ifs <;> simp
  · unfold parseScalar
    simp only [visitNone, Bool.true_eq_false, if_false]
    split_ifs <;> simp

theorem parseRecords_visitNone (m : Mem) (fin : UInt16) (n : ℕ) (s : ParseState Unit) :
    (parseRecords m fin visitNone n s).2 = .ok ∨
      (parseRecords m fin visitNone n s).2 = .invalidImage := by
  induction n generalizing s with
  | zero => exact .inl rfl
  | succ n ih =>
    unfold parseRecords
    dsimp only
    split_ifs with hok
    · exact ih _
    · exact parseRecord_visitNone m fin s

theorem parse_visitNone {m : Mem} {slot : Slot} {e : Status}
    (h : (parse m slot visitNone ()).2 = .error e) : e = .invalidImage := by
  unfold parse at h
  dsimp only at h
  split_ifs at h with h1 h2
  · injection h with h
    exact h.symm
  · injection h with h
    rw [← h]
    exact (parseRecords_visitNone _ _ _ _).resolve_left h2
  all_goals
    injection h with h
    exact h.symm

/-- The bytes a load looks at before it parses are the ones of the slot. -/
theorem fetch_fetch_apply (s : Memory) (slot : Slot) (n : ℕ) {i : ℕ} (hi : i < 44 ∨ i < n) :
    ((s.fetch slot headerBytes.toNat).fetch slot n).image i = slotMem s.flash.cell slot i := by
  by_cases hn : i < n
  · exact fetch_apply (s.fetch slot headerBytes.toNat) slot hn
  · rw [← fetch_apply s slot (show i < headerBytes.toNat from hi.resolve_right hn)]
    exact copy_of_not_mem _ _ (by omega)

/-- Whether the load of a slot succeeds, and why not, depends on the flash
    alone: the parser may see old bytes of the buffer, but only to refuse. -/
theorem loadSlot_congr {s s' : Memory} (h : s'.flash = s.flash) (slot : Slot) :
    (loadSlot s' slot).2 = (loadSlot s slot).2 := by
  have hh : ∀ i < 44, (s'.fetch slot headerBytes.toNat).image i =
      (s.fetch slot headerBytes.toNat).image i := by
    intro i hi
    rw [fetch_apply s' slot (show i < headerBytes.toNat from hi),
      fetch_apply s slot (show i < headerBytes.toNat from hi), h]
  rcases loadSlot_cases s' slot with ⟨l, s₁, hv, -, heq⟩ | ⟨hn, s₁, e, -, heq⟩
  · rw [h] at hv
    obtain ⟨s₂, -, heq'⟩ := loadSlot_of_valid hv
    rw [heq, heq', h]
  rcases loadSlot_cases s slot with ⟨l, s₂, hv, -, heq'⟩ | ⟨hn', s₂, e', -, heq'⟩
  · rw [← h] at hv
    exact absurd ⟨l, hv⟩ hn
  rw [heq, heq']
  rw [loadSlot_eq, headerInvalid_congr hh, readU32_agree hh (show offCatalogCrc + 4 ≤ 44 by decide),
    readU16_agree hh (show offPayloadLength + 2 ≤ 44 by decide)] at heq
  rw [loadSlot_eq] at heq'
  generalize headerBytes + readU16 (s.fetch slot headerBytes.toNat).image offPayloadLength = total
    at heq heq'
  have hf : ∀ i, i < 44 ∨ i < total.toNat →
      ((s'.fetch slot headerBytes.toNat).fetch slot total.toNat).image i =
        ((s.fetch slot headerBytes.toNat).fetch slot total.toNat).image i := by
    intro i hi
    rw [fetch_fetch_apply s' slot _ hi, fetch_fetch_apply s slot _ hi, h]
  have hcrc : imageCrc ((s'.fetch slot headerBytes.toNat).fetch slot total.toNat).image total =
      imageCrc ((s.fetch slot headerBytes.toNat).fetch slot total.toNat).image total :=
    imageCrc_congr fun i hi _ _ => hf i (.inr hi)
  rw [loadImage_eq, hcrc, readU32_agree (n := 44) (fun i hi => hf i (.inl hi))
    (show offImageCrc + 4 ≤ 44 by decide)] at heq
  rw [loadImage_eq] at heq'
  split_ifs at heq heq'
  all_goals
    injection heq with h1 h2
    injection heq' with h1' h2'
  all_goals
    first
    | rw [parse_visitNone h2, parse_visitNone h2']
    | rw [← h2, ← h2']

/-- What an open returns depends on the flash alone. -/
theorem openLatest_congr {s s' : Memory} (h : s'.flash = s.flash) :
    (openLatest s').2 = (openLatest s).2 := by
  have ha := loadSlot_congr h .a
  have hb : (loadSlot (loadSlot s' .a).1 .b).2 = (loadSlot (loadSlot s .a).1 .b).2 :=
    loadSlot_congr (by rw [loadSlot_flash, loadSlot_flash, h]) .b
  have hlast : ∀ slot, (loadSlot (loadSlot (loadSlot s' .a).1 .b).1 slot).2 =
      (loadSlot (loadSlot (loadSlot s .a).1 .b).1 slot).2 := fun slot =>
    loadSlot_congr (by simp only [loadSlot_flash, h]) slot
  unfold openLatest
  dsimp only
  rw [ha, hb]
  unfold openSelected
  split
  · exact hlast _
  · exact hlast _
  · exact hlast _
  · split_ifs <;> rfl

/-! ## Calls that succeed -/

/-- The flash does not fail, and its latest image is `l` with this info. -/
structure Stored (s : Memory) (info : Info) (l : List Record) : Prop where
  latest : Latest s.flash.cell info.slot l
  info : latestInfo s.flash.cell info.slot = info
  left : s.flash.left = none

/-- The flash does not fail, and no slot loads. -/
structure Blank (s : Memory) : Prop where
  dead : ∀ slot, Dead (slotMem s.flash.cell slot)
  left : s.flash.left = none

theorem Stored.congr {s s' : Memory} {info : Info} {l : List Record} (h : Stored s info l)
    (hf : s'.flash = s.flash) : Stored s' info l := by
  obtain ⟨h1, h2, h3⟩ := h
  rw [← hf] at h1 h2 h3
  exact ⟨h1, h2, h3⟩

theorem Blank.congr {s s' : Memory} (h : Blank s) (hf : s'.flash = s.flash) : Blank s' := by
  obtain ⟨h1, h2⟩ := h
  rw [← hf] at h1 h2
  exact ⟨h1, h2⟩

theorem Stored.openLatest {s : Memory} {info : Info} {l : List Record} (h : Stored s info l) :
    ∃ s', Fetched s s' info.slot l ∧ Storage.openLatest s = (s', .ok info) := by
  obtain ⟨s', hf, heq⟩ := h.latest.openLatest
  rw [h.info] at heq
  exact ⟨s', hf, heq⟩

theorem Stored.reads {s : Memory} {info : Info} {l : List Record} (h : Stored s info l) :
    Reads s info (l.map visited) := by
  have hreads := h.latest.reads
  rwa [h.info] at hreads

theorem Blank.openLatest {s : Memory} (h : Blank s) :
    ∃ s', s'.flash = s.flash ∧ Storage.openLatest s = (s', .error .empty) :=
  openLatest_of_dead (h.dead .a) (h.dead .b)

/-- A fitting image, one ahead of the one in the other slot, is stored. -/
theorem writeSlot_stored {s : Memory} (slot : Slot) {l : List Record} (h : Sealed s.image l)
    (hp : FitsProfile (s.image offProfileId) l) (hd : s.flash.left = none)
    (hseq : Loads s.flash.cell slot.other →
      readU32 s.image offSequence = sequenceOf s.flash.cell slot.other + 1)
    {r : Memory × Except Status Info}
    (hr : r = writeSlot s slot (headerBytes + readU16 s.image offPayloadLength)) :
    r.2 = .ok (infoOf s.image slot) ∧ Stored r.1 (infoOf s.image slot) l := by
  obtain ⟨hok, hleft⟩ := writeSlot_of_none slot h hp hd hr
  obtain ⟨hwithin, hout⟩ := writeSlot_spec slot h hr
  refine ⟨hok, ?_⟩
  have hother := hwithin.other
  cases hout with
  | untouched _ e he => rw [hok] at he; cases he
  | dead _ e he => rw [hok] at he; cases he
  | written hvalid hinfo _ =>
    refine ⟨.of_successor hvalid fun hl => ?_, hinfo, hleft⟩
    obtain ⟨l', hl'⟩ := hl
    have hseq' := hseq ⟨l', hl'.congr' fun i hi => (hother i hi).symm⟩
    have hkeep : sequenceOf r.1.flash.cell slot.other = sequenceOf s.flash.cell slot.other :=
      (readU32_agree hother (by decide)).symm
    calc sequenceOf r.1.flash.cell slot
        = readU32 s.image offSequence := congrArg Info.sequence hinfo
      _ = sequenceOf s.flash.cell slot.other + 1 := hseq'
      _ = sequenceOf r.1.flash.cell slot.other + 1 := by rw [hkeep]

/-- The sequence and the slot of the image a save writes next. -/
def nextPlace : Except Status Info → UInt32 × Slot
  | .ok info => (info.sequence + 1, info.slot.other)
  | .error _ => (1, .a)

/-- The info of the image a save writes. -/
def savedInfo (store : Store) (profileId : UInt8) (bitrateBps : UInt32) (autostart : Bool)
    (place : UInt32 × Slot) : Info where
  sequence := place.1
  configCrc := getConfigCrc store
  bitrateBps := bitrateBps
  signalCount := UInt16.ofNat store.active.view.records.length
  scalarCount := UInt16.ofNat (scalarsOf store.active.view.records)
  flags := if autostart then flagAutostart else 0
  profileId := profileId
  blobCount := UInt8.ofNat (blobsOf store.active.view.records)
  slot := place.2

/-- **Save.** A configuration that fits its profile is stored, whatever the slots
    held, unless the slots cannot be read. -/
theorem save_stored {s : Memory} {store : Store} (hstore : Saveable store)
    (hne : store.active.view.records ≠ []) (profileId : UInt8)
    (hp : FitsProfile profileId store.active.view.records) (hd : s.flash.left = none)
    (hread : (openLatest s).2 ≠ .error .flashError) (bitrateBps : UInt32) (autostart : Bool) :
    let info := savedInfo store profileId bitrateBps autostart (nextPlace (openLatest s).2)
    (save s store profileId bitrateBps autostart).2 = .ok info ∧
      Stored (save s store profileId bitrateBps autostart).1 info store.active.view.records := by
  intro info
  -- the write of an image with the next sequence into the next slot
  have hsave : ∀ s' : Memory, s'.flash = s.flash →
      (Loads s.flash.cell (nextPlace (openLatest s).2).2.other →
        (nextPlace (openLatest s).2).1 =
          sequenceOf s.flash.cell (nextPlace (openLatest s).2).2.other + 1) →
      (saveTo s' store profileId bitrateBps autostart (nextPlace (openLatest s).2).1
          (nextPlace (openLatest s).2).2).2 = .ok info ∧
        Stored (saveTo s' store profileId bitrateBps autostart (nextPlace (openLatest s).2).1
          (nextPlace (openLatest s).2).2).1 info store.active.view.records := by
    intro s' hs' hseq
    obtain ⟨m, total, hm, htotal, hsealed, hinfo⟩ := (buildImage_of_wf hstore.wf hstore.crc profileId
      bitrateBps autostart (nextPlace (openLatest s).2).1).2 hne
    rw [saveTo_of_ok _ _ _ _ _ _ _ hm, htotal]
    have hprofile : m offProfileId = profileId := congrArg Info.profileId (hinfo .a)
    have hsequence : readU32 m offSequence = (nextPlace (openLatest s).2).1 :=
      congrArg Info.sequence (hinfo .a)
    have hres := writeSlot_stored (s := { s' with image := m }) (nextPlace (openLatest s).2).2
      hsealed (by dsimp only; rw [hprofile]; exact hp)
      (by dsimp only; rw [hs']; exact hd) (by dsimp only; rw [hs', hsequence]; exact hseq) rfl
    rw [hinfo, ← hstore.crc] at hres
    exact hres
  rcases openLatest_cases s with ⟨slot, l, s', hl, ⟨hs', -⟩, heq⟩ | ⟨hn, s', e, hs', he, heq⟩
  · unfold save
    rw [heq] at hsave ⊢
    refine hsave s' hs' fun _ => ?_
    dsimp only [nextPlace]
    rw [Slot.other_other]
    rfl
  · rw [heq] at hread
    have he' : ¬ (e ≠ .empty ∧ e ≠ .catalogMismatch) := by
      rintro ⟨h1, h2⟩
      rcases he with rfl | rfl | rfl
      · exact h2 rfl
      · exact hread rfl
      · exact h1 rfl
    unfold save
    rw [heq] at hsave ⊢
    dsimp only
    rw [if_neg he']
    exact hsave s' hs' fun hl => absurd hl (hn _)

/-- **Set autostart.** The latest image is stored again with the flag. -/
theorem setAutostart_stored {s : Memory} {info : Info} {l : List Record} (h : Stored s info l)
    (enabled : Bool) :
    let info' : Info := { info with
      sequence := info.sequence + 1
      flags := if enabled then flagAutostart else 0
      slot := info.slot.other }
    (setAutostart s enabled).2 = .ok info' ∧ Stored (setAutostart s enabled).1 info' l := by
  intro info'
  obtain ⟨s', ⟨hflash, hbuf⟩, hopen⟩ := h.openLatest
  have hv := h.latest.valid
  have hsealed : Sealed s'.image l := hv.sealed.congr' fun i hi => (hbuf i hi).symm
  have hsame : infoOf s'.image info.slot = info :=
    (infoOf_congr (fun i hi => hbuf i (by omega)) info.slot).trans h.info
  have himg := infoOf_autostartImage s'.image info.sequence enabled info.slot info.slot.other
  rw [hsame] at himg
  have hprofile : autostartImage s'.image info.sequence enabled offProfileId =
      slotMem s.flash.cell info.slot offProfileId := by
    rw [← hbuf offProfileId (Nat.lt_of_lt_of_le (by decide : offProfileId < 44) (by omega))]
    exact (congrArg Info.profileId himg).trans (congrArg Info.profileId hsame).symm
  have hsequence : readU32 (autostartImage s'.image info.sequence enabled) offSequence =
      info.sequence + 1 := congrArg Info.sequence himg
  have hres := writeSlot_stored
    (s := { s' with image := autostartImage s'.image info.sequence enabled })
    info.slot.other (hsealed.autostartImage info.sequence enabled)
    (by dsimp only; rw [hprofile]; exact hv.profile) (by dsimp only; rw [hflash]; exact h.left)
    (fun _ => by
      dsimp only
      rw [hflash, hsequence, Slot.other_other]
      exact congrArg (fun i => Info.sequence i + 1) h.info.symm) rfl
  unfold setAutostart
  rw [hopen]
  dsimp only
  dsimp only at hres
  rw [himg] at hres
  exact hres

/-- An autostart change needs an image. -/
theorem setAutostart_blank {s : Memory} (h : Blank s) (enabled : Bool) :
    (setAutostart s enabled).2 = .error .empty ∧ Blank (setAutostart s enabled).1 := by
  obtain ⟨s', hf, heq⟩ := h.openLatest
  unfold setAutostart
  rw [heq]
  exact ⟨rfl, h.congr hf⟩

/-- **Erase.** No slot loads afterwards. -/
theorem erase_blank {s : Memory} (hd : s.flash.left = none) :
    (erase s).2 = .ok ∧ Blank (erase s).1 := by
  have hpages : ∀ p ∈ List.range pagesPerSlot, p < pagesPerSlot := fun p hp => List.mem_range.mp hp
  obtain ⟨ha, hleft⟩ := untilFail_erase_of_none .a hd hpages
  obtain ⟨hb, hleft'⟩ := untilFail_erase_of_none .b hleft hpages
  have hleft'' : (erase s).1.flash.left = none := by
    unfold erase
    dsimp only
    rw [if_neg (by simp [ha])]
    exact hleft'
  refine ⟨?_, fun slot => (erase_erased s).dead slot ?_, hleft''⟩
  · unfold erase
    dsimp only
    rw [if_neg (by simp [ha])]
    dsimp only
    rw [if_pos hb]
  · rw [hd]
    cases slot <;> decide

end J1939Gen.Storage
