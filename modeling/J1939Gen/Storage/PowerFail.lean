import J1939Gen.Storage.Writing
import J1939Gen.Lib.Mealy

/-!
# Power-fail safety of the two slots

A save or an autostart change writes the slot that does not hold the latest
image. Whatever mutation fails, the image in the other slot stays, and the next
boot finds the old image or the new one.

* `Sound`: no slot loads, or one is the newest; kept by every call (`call_spec`).
* `power_fail_safe`: the main result, over any history of calls.
-/

namespace J1939Gen.Storage

open Bitmask ByteMem ValueStore NorFlash SerialClock

/-! ## Histories -/

/-- The mutating calls of `j1939_profile_storage.h`, less the erase. -/
inductive Call
  | save (profileId : UInt8) (bitrateBps : UInt32) (autostart : Bool)
  | setAutostart (enabled : Bool)

/-- Run a call. -/
def Call.run (c : Call) (store : Store) (s : Memory) : Memory × Except Status Info :=
  match c with
  | .save profileId bitrateBps autostart => Storage.save s store profileId bitrateBps autostart
  | .setAutostart enabled => Storage.setAutostart s enabled

/-- The flash takes `cut` more mutations (`none`: any number). -/
def Memory.withCut (s : Memory) (cut : Option ℕ) : Memory :=
  { s with flash := { s.flash with left := cut } }

/-- The value store and the storage. -/
structure Board where
  store : Store
  memory : Memory

/-- What happens on the board. A cut power supply is a call with a `cut`,
    followed by a reboot. -/
inductive Input
  | store (op : ValueStore.Op)
  | call (c : Call) (cut : Option ℕ)
  | reboot

/-- One input, and the status of a call. -/
def step (b : Board) : Input → Board × Option (Except Status Info)
  | .store op => ({ b with store := (apiStep b.store op).1 }, none)
  | .call c cut =>
    let (memory, status) := c.run b.store (b.memory.withCut cut)
    ({ b with memory := memory }, some status)
  | .reboot => (⟨ValueStore.init, b.memory.init⟩, none)

/-- The erased flash at the first boot. -/
def boot : Board := ⟨ValueStore.init, ⟨⟨fun _ => 0xFF, none⟩, fun _ => 0⟩⟩

/-! ## What a call is meant to store -/

/-- The records a store holds, as a visitor sees them. -/
def recordsOf (store : Store) : List (UInt16 × Entry) := store.active.view.records.map visited

/-- The info of the image a call writes over the image `old`. -/
def Call.info (c : Call) (store : Store) (old : Info) : Info :=
  match c with
  | .save profileId bitrateBps autostart =>
    { sequence := old.sequence + 1
      configCrc := getConfigCrc store
      bitrateBps := bitrateBps
      signalCount := UInt16.ofNat store.active.view.records.length
      scalarCount := UInt16.ofNat (scalarsOf store.active.view.records)
      flags := if autostart then flagAutostart else 0
      profileId := profileId
      blobCount := UInt8.ofNat (blobsOf store.active.view.records)
      slot := old.slot.other }
  | .setAutostart enabled =>
    { old with
      sequence := old.sequence + 1
      flags := if enabled then flagAutostart else 0
      slot := old.slot.other }

/-- The records of the image a call writes. -/
def Call.records (c : Call) (store : Store) (old : List (UInt16 × Entry)) :
    List (UInt16 × Entry) :=
  match c with
  | .save _ _ _ => recordsOf store
  | .setAutostart _ => old

/-- `Profile_Storage_Open_Latest` finds an image with this info, and a visit of
    it visits these records. -/
def Reads (s : Memory) (info : Info) (records : List (UInt16 × Entry)) : Prop :=
  (openLatest s).2 = .ok info ∧ (visitLatest s collect []).2 = (records, .ok info)

theorem Newest.reads {s : Memory} {slot : Slot} {l : List Record}
    (h : Newest s.flash.cell slot l) :
    Reads s (infoOf (slotMem s.flash.cell slot) slot) (l.map visited) := by
  obtain ⟨_, -, h1⟩ := openLatest_of_newest h
  obtain ⟨_, -, h2⟩ := visitLatest_of_newest h collect []
    (by rw [visitAll_collect])
  rw [visitAll_collect] at h2
  exact ⟨by rw [h1], by rw [h2]; rfl⟩

theorem Reads.unique {s : Memory} {info info' : Info} {records records' : List (UInt16 × Entry)}
    (h : Reads s info records) (h' : Reads s info' records') :
    info' = info ∧ records' = records := by
  have h1 := h'.2.symm.trans h.2
  injection h1 with h2 h3
  injection h3 with h3
  exact ⟨h3, h2⟩

/-! ## The invariant -/

/-- No slot holds an image that loads, or one holds the newest. -/
def Sound (cell : Mem) : Prop :=
  (∀ slot, Dead (slotMem cell slot)) ∨ ∃ slot l, Newest cell slot l

/-- What the storage relies on in the value store. -/
structure Saveable (store : Store) : Prop where
  wf : store.active.Wf
  crc : getConfigCrc store = store.active.view.crc

theorem saveable_of_storeRel {store : Store} {t : TxnStore.State Contents Write}
    (h : StoreRel store t) : Saveable store :=
  ⟨h.wf, h.crc.trans (by rw [h.view])⟩

@[simp] theorem Slot.other_other (slot : Slot) : slot.other.other = slot := by
  cases slot <;> rfl

/-! ## The image of an autostart change -/

theorem autostartImage_of_le (m : Mem) (sequence : UInt32) (enabled : Bool) {i : ℕ} (h : 44 ≤ i) :
    autostartImage m sequence enabled i = m i := by
  unfold autostartImage
  dsimp only [offSequence, offFlags, offValidMarker, offImageCrc]
  simp (disch := omega) only [writeU32_of_ne, writeU16_of_ne]

theorem payloadLength_autostartImage (m : Mem) (sequence : UInt32) (enabled : Bool) :
    readU16 (autostartImage m sequence enabled) offPayloadLength = readU16 m offPayloadLength := by
  unfold autostartImage
  simp (disch := decide) only [readU16_writeU32_of_ne, readU16_writeU16_of_ne]

theorem infoOf_autostartImage (m : Mem) (sequence : UInt32) (enabled : Bool) (slot slot' : Slot) :
    infoOf (autostartImage m sequence enabled) slot' =
      { infoOf m slot with
        sequence := sequence + 1
        flags := if enabled then flagAutostart else 0
        slot := slot' } := by
  unfold infoOf autostartImage
  simp (disch := decide) only [readU32_writeU32, readU16_writeU16, readU16_writeU16_of_ne,
    readU16_writeU32_of_ne, readU32_writeU16_of_ne, readU32_writeU32_of_ne, writeU16_of_ne,
    writeU32_of_ne]

theorem Sealed.autostartImage {m : Mem} {l : List Record} (h : Sealed m l) (sequence : UInt32)
    (enabled : Bool) : Sealed (autostartImage m sequence enabled) l := by
  have hinfo := infoOf_autostartImage m sequence enabled .a .a
  have hcar : Carries (Storage.autostartImage m sequence enabled) l := by
    obtain ⟨h1, h2, h3, h4, h5, h6, h7⟩ := h.carries
    refine ⟨h1, ?_, ?_, ?_, ?_, ?_, ?_⟩
    · rw [← h2]; exact congrArg (fun x => x.signalCount.toNat) hinfo
    · rw [← h3]; exact congrArg (fun x => x.scalarCount.toNat) hinfo
    · rw [← h4]; exact congrArg (fun x => x.blobCount.toNat) hinfo
    · rw [payloadLength_autostartImage, h5]
    · refine Eq.trans ?_ h6
      exact bytes_congr fun i hi _ => autostartImage_of_le m sequence enabled hi
    · rw [← h7]; exact congrArg Info.configCrc hinfo
  refine ⟨?_, ?_, ?_, ?_, ?_, hcar, ?_⟩
  · rw [← h.magic]
    unfold Storage.autostartImage
    simp (disch := decide) only [readU32_writeU32_of_ne, readU32_writeU16_of_ne]
  · rw [← h.formatVersion]
    unfold Storage.autostartImage
    simp (disch := decide) only [readU16_writeU32_of_ne, readU16_writeU16_of_ne]
  · rw [← h.headerLength]
    unfold Storage.autostartImage
    simp (disch := decide) only [readU16_writeU32_of_ne, readU16_writeU16_of_ne]
  · rw [← h.catalogCrc]
    unfold Storage.autostartImage
    simp (disch := decide) only [readU32_writeU32_of_ne, readU32_writeU16_of_ne]
  · rw [← h.reserved]
    unfold Storage.autostartImage
    simp (disch := decide) only [readU16_writeU32_of_ne, readU16_writeU16_of_ne]
  · rw [payloadLength_autostartImage]
    unfold Storage.autostartImage
    dsimp only
    rw [imageCrc_writeCrc, readU32_writeU32]
    simp (disch := decide) only [readU16_writeU32_of_ne, readU16_writeU16_of_ne]

/-! ## One call -/

/-- Writing the slot `slot.other` over the newest image in `slot`. -/
theorem writeSlot_newest {s : Memory} {cell : Mem} (hcell : s.flash.cell = cell) {slot : Slot}
    {l : List Record} (h : Newest cell slot l) {l' : List Record} (hs : Sealed s.image l')
    (hseq : readU32 s.image offSequence = sequenceOf cell slot + 1)
    {r : Memory × Except Status Info}
    (hr : r = writeSlot s slot.other (headerBytes + readU16 s.image offPayloadLength)) :
    (∀ i < flashSlotSize, slotMem cell slot i = slotMem r.1.flash.cell slot i) ∧
      ((Newest r.1.flash.cell slot l ∧ ∃ e, r.2 = .error e) ∨
        Newest r.1.flash.cell slot.other l' ∧
          infoOf (slotMem r.1.flash.cell slot.other) slot.other = infoOf s.image slot.other ∧
          r.2 = .ok (infoOf s.image slot.other)) := by
  subst hcell
  obtain ⟨hwithin, hout⟩ := writeSlot_spec slot.other hs hr
  have hkeep := hwithin.other
  rw [Slot.other_other] at hkeep
  have hvalid := h.valid.congr' hkeep
  have hseq' : sequenceOf r.1.flash.cell slot = sequenceOf s.flash.cell slot :=
    (readU32_agree hkeep (by decide)).symm
  refine ⟨hkeep, ?_⟩
  cases hout with
  | untouched hcell e he =>
    rw [hcell]
    exact .inl ⟨h, e, he⟩
  | dead hdead e he => exact .inl ⟨⟨hvalid, .inl hdead⟩, e, he⟩
  | written hnew hinfo he =>
    refine .inr ⟨⟨hnew, .inr ⟨l, by rw [Slot.other_other]; exact hvalid, ?_⟩⟩, hinfo, he⟩
    rw [Slot.other_other, hseq', ← hseq]
    exact congrArg Info.sequence hinfo

section SaveTo

variable (s : Memory) (store : Store) (profileId : UInt8) (bitrateBps : UInt32) (autostart : Bool)
  (sequence : UInt32) (target : Slot)

theorem saveTo_of_error {e : Status}
    (h : (buildImage store profileId bitrateBps autostart sequence).2 = .error e) :
    (saveTo s store profileId bitrateBps autostart sequence target).1.flash = s.flash ∧
      (saveTo s store profileId bitrateBps autostart sequence target).2 = .error e := by
  unfold saveTo
  generalize buildImage store profileId bitrateBps autostart sequence = b at h
  obtain ⟨m, e' | n⟩ := b
  · injection h with h
    exact ⟨rfl, congrArg _ h⟩
  · cases h

theorem saveTo_of_ok {m : Mem} {total : UInt16}
    (h : buildImage store profileId bitrateBps autostart sequence = (m, .ok total)) :
    saveTo s store profileId bitrateBps autostart sequence target =
      writeSlot { s with image := m } target total := by
  unfold saveTo
  rw [h]

end SaveTo

/-- A call over the newest image keeps it, or replaces it by the new one. -/
theorem call_newest (c : Call) {store : Store} (hstore : Saveable store) {s : Memory} {slot : Slot}
    {l : List Record} (h : Newest s.flash.cell slot l) {old : Info}
    (hold : infoOf (slotMem s.flash.cell slot) slot = old) {r : Memory × Except Status Info}
    (hr : r = c.run store s) :
    (∀ i < flashSlotSize, slotMem s.flash.cell slot i = slotMem r.1.flash.cell slot i) ∧
      ((Newest r.1.flash.cell slot l ∧ ∃ e, r.2 = .error e) ∨
        ∃ l', Newest r.1.flash.cell slot.other l' ∧
          l'.map visited = c.records store (l.map visited) ∧
          infoOf (slotMem r.1.flash.cell slot.other) slot.other = c.info store old ∧
          r.2 = .ok (c.info store old)) := by
  obtain ⟨s', ⟨hflash, hbuf⟩, hopen⟩ := openLatest_of_newest h
  have hslot : old.slot = slot := congrArg Info.slot hold.symm
  have holdseq : old.sequence = sequenceOf s.flash.cell slot := congrArg Info.sequence hold.symm
  rw [hold] at hopen
  have hcell : s'.flash.cell = s.flash.cell := congrArg Device.cell hflash
  cases c with
  | save profileId bitrateBps autostart =>
    rw [Call.run, Storage.save, hopen] at hr
    dsimp only at hr
    rw [hslot] at hr
    obtain ⟨hempty, hbuild⟩ := buildImage_of_wf hstore.wf hstore.crc profileId bitrateBps autostart
      (old.sequence + 1)
    by_cases hl : store.active.view.records = []
    · -- nothing to save: the flash is not touched
      obtain ⟨hf, he⟩ := saveTo_of_error s' store profileId bitrateBps autostart (old.sequence + 1)
        slot.other (hempty hl)
      have hkeep : r.1.flash.cell = s.flash.cell := by
        rw [hr, ← hcell]
        exact congrArg Device.cell hf
      rw [hkeep]
      exact ⟨fun _ _ => rfl, .inl ⟨h, _, hr ▸ he⟩⟩
    · obtain ⟨m, total, hm, htotal, hsealed, hinfo⟩ := hbuild hl
      rw [saveTo_of_ok _ _ _ _ _ _ _ hm, htotal] at hr
      have hseq : readU32 m offSequence = sequenceOf s.flash.cell slot + 1 := by
        rw [← holdseq]
        exact congrArg Info.sequence (hinfo slot)
      obtain ⟨h1, h2⟩ := writeSlot_newest (s := { s' with image := m }) hcell h hsealed hseq hr
      refine ⟨h1, h2.imp_right fun ⟨h3, h4, h5⟩ => ⟨_, h3, rfl, ?_, ?_⟩⟩
      · rw [h4, hinfo, Call.info, hstore.crc, hslot]
      · rw [h5, hinfo, Call.info, hstore.crc, hslot]
  | setAutostart enabled =>
    rw [Call.run, Storage.setAutostart, hopen] at hr
    dsimp only at hr
    rw [hslot] at hr
    have hsealed : Sealed s'.image l := h.valid.sealed.congr' fun i hi => (hbuf i hi).symm
    have hinfo : infoOf s'.image slot = old :=
      (infoOf_congr (fun i hi => hbuf i (by omega)) slot).trans hold
    have himg := infoOf_autostartImage s'.image old.sequence enabled slot slot.other
    rw [hinfo] at himg
    have hseq : readU32 (autostartImage s'.image old.sequence enabled) offSequence =
        sequenceOf s.flash.cell slot + 1 := by
      rw [← holdseq]
      exact congrArg Info.sequence himg
    obtain ⟨h1, h2⟩ := writeSlot_newest
      (s := { s' with image := autostartImage s'.image old.sequence enabled }) hcell h
      (hsealed.autostartImage old.sequence enabled) hseq hr
    refine ⟨h1, h2.imp_right fun ⟨h3, h4, h5⟩ => ⟨_, h3, rfl, ?_, ?_⟩⟩
    · rw [h4, himg, Call.info, hslot]
    · rw [h5, himg, Call.info, hslot]

/-- A call on slots that hold no image leaves them so, or stores the first. -/
theorem call_dead (c : Call) {store : Store} (hstore : Saveable store) {s : Memory}
    (h : ∀ slot, Dead (slotMem s.flash.cell slot)) : Sound (c.run store s).1.flash.cell := by
  obtain ⟨s', hflash, hopen⟩ := openLatest_of_dead (h .a) (h .b)
  have hcell : s'.flash.cell = s.flash.cell := congrArg Device.cell hflash
  cases c with
  | setAutostart enabled =>
    rw [Call.run, Storage.setAutostart, hopen]
    dsimp only
    rw [hcell]
    exact .inl h
  | save profileId bitrateBps autostart =>
    rw [Call.run, Storage.save, hopen]
    dsimp only
    rw [if_neg (by simp)]
    obtain ⟨hempty, hbuild⟩ := buildImage_of_wf hstore.wf hstore.crc profileId bitrateBps autostart 1
    by_cases hl : store.active.view.records = []
    · obtain ⟨hf, -⟩ := saveTo_of_error s' store profileId bitrateBps autostart 1 .a (hempty hl)
      rw [hf, hcell]
      exact .inl h
    · obtain ⟨m, total, hm, htotal, hsealed, -⟩ := hbuild hl
      rw [saveTo_of_ok _ _ _ _ _ _ _ hm]
      obtain ⟨hwithin, hout⟩ := writeSlot_spec (s := { s' with image := m }) .a hsealed rfl
      rw [htotal]
      have hother : Dead (slotMem (writeSlot { s' with image := m } .a
          (headerBytes + readU16 m offPayloadLength)).1.flash.cell .b) := by
        refine (h .b).congr ?_
        rw [← hcell]
        exact hwithin.other
      cases hout with
      | untouched hc e he =>
        rw [hc]
        dsimp only
        rw [hcell]
        exact .inl h
      | dead hdead e he =>
        refine .inl fun slot => ?_
        cases slot
        · exact hdead
        · exact hother
      | written hvalid hinfo he => exact .inr ⟨.a, _, hvalid, .inl hother⟩

/-! ## Runs -/

/-- What every reachable board satisfies. -/
structure Inv (b : Board) : Prop where
  store : ∃ t, StoreRel b.store t
  sound : Sound b.memory.flash.cell

theorem Inv.saveable {b : Board} (h : Inv b) : Saveable b.store :=
  h.store.elim fun _ => saveable_of_storeRel

theorem inv_boot : Inv boot where
  store := ⟨_, storeRel_init⟩
  sound := .inl fun _ => dead_of_unmarked (unmarked_of_blank fun _ _ _ => rfl)

theorem inv_step (b : Board) (i : Input) (h : Inv b) : Inv (step b i).1 := by
  cases i with
  | store op =>
    obtain ⟨t, ht⟩ := h.store
    exact ⟨⟨_, (storeRel_step b.store t op ht).1⟩, h.sound⟩
  | call c cut =>
    refine ⟨h.store, ?_⟩
    rcases h.sound with hdead | ⟨slot, l, hnew⟩
    · exact call_dead c h.saveable (s := b.memory.withCut cut) hdead
    · have := (call_newest c h.saveable (s := b.memory.withCut cut) hnew rfl rfl).2
      rcases this with ⟨hold, -⟩ | ⟨l', hnew', -⟩
      · exact .inr ⟨slot, l, hold⟩
      · exact .inr ⟨_, l', hnew'⟩
  | reboot => exact ⟨⟨_, storeRel_init⟩, h.sound⟩

/-- **Power-fail safety.** After any history from erased flash, and for any
    further call cut at any mutation: if an image could be read before, then
    afterwards, whatever `s_image` holds, the old one is read or the new one is;
    the new one is when the call returned OK, with the info it returned; and no
    byte of the slot with the old image changed. -/
theorem power_fail_safe (history : List Input) (c : Call) (cut : Option ℕ) (info : Info)
    (records : List (UInt16 × Entry))
    (h : Reads (Mealy.run step boot history).1.memory info records) :
    let b := (Mealy.run step boot history).1
    let r := c.run b.store (b.memory.withCut cut)
    let new := c.info b.store info
    ((∀ image, Reads { r.1 with image := image } info records) ∨
      ∀ image, Reads { r.1 with image := image } new (c.records b.store records)) ∧
    (∀ i, r.2 = .ok i → i = new ∧
      ∀ image, Reads { r.1 with image := image } new (c.records b.store records)) ∧
    ∀ i < flashSlotSize,
      r.1.flash.cell (info.slot.address + i) = b.memory.flash.cell (info.slot.address + i) := by
  intro b r new
  have hinv : Inv b := Mealy.run_invariant inv_step inv_boot history
  rcases hinv.sound with hdead | ⟨slot, l, hnew⟩
  · obtain ⟨_, -, hopen⟩ := openLatest_of_dead (s := b.memory) (hdead .a) (hdead .b)
    rw [Reads, hopen] at h
    cases h.1
  · obtain ⟨hinfo, hrec⟩ := h.unique hnew.reads
    subst hinfo hrec
    obtain ⟨hkeep, hout⟩ := call_newest c hinv.saveable (s := b.memory.withCut cut) hnew rfl rfl
    refine ⟨?_, ?_, fun i hi => (hkeep i hi).symm⟩
    · rcases hout with ⟨hold, -⟩ | ⟨l', hnew', hl', hi', -⟩
      · left
        intro image
        have hsame : infoOf (slotMem r.1.flash.cell slot) slot =
            infoOf (slotMem b.memory.flash.cell slot) slot :=
          infoOf_congr (fun i hi => (hkeep i (hi.trans (by decide))).symm) slot
        rw [← hsame]
        exact Newest.reads (s := { r.1 with image := image }) hold
      · right
        intro image
        have := Newest.reads (s := { r.1 with image := image }) hnew'
        rwa [show infoOf (slotMem r.1.flash.cell slot.other) slot.other = new from hi', hl'] at this
    · intro i hi
      rcases hout with ⟨-, e, he⟩ | ⟨l', hnew', hl', hi', he⟩
      · rw [show r.2 = .error e from he] at hi
        cases hi
      · rw [show r.2 = .ok new from he] at hi
        injection hi with hi
        refine ⟨hi.symm, fun image => ?_⟩
        have := Newest.reads (s := { r.1 with image := image }) hnew'
        rwa [show infoOf (slotMem r.1.flash.cell slot.other) slot.other = new from hi', hl'] at this

instance (s : Memory) (info : Info) (records : List (UInt16 × Entry)) :
    Decidable (Reads s info records) := inferInstanceAs (Decidable (_ ∧ _))

/-- One record is configured and saved on the erased board. -/
def firstSave : List Input :=
  [.store .beginEmpty, .store (.write (.setRaw 113 2)), .store .commit,
    .call (.save 0xFF 500000 false) none]

/-- The info of that image. -/
def firstInfo : Info := ⟨1, 3402746599, 500000, 1, 1, 0, 0xFF, 0, .a⟩

/-- The seventh mutation of an autostart change fails after the first save. -/
theorem power_fail_safe_first :
    let b := (Mealy.run step boot firstSave).1
    let r := (Call.setAutostart true).run b.store (b.memory.withCut (some 6))
    Reads b.memory firstInfo [(113, .scalar 2)] ∧ r.2 = .error .flashError ∧
      ∀ i < flashSlotSize, r.1.flash.cell (firstInfo.slot.address + i) =
        b.memory.flash.cell (firstInfo.slot.address + i) := by
  have h : Reads (Mealy.run step boot firstSave).1.memory firstInfo [(113, .scalar 2)] := by
    decide +kernel
  have hsafe := power_fail_safe firstSave (.setAutostart true) (some 6) firstInfo
    [(113, .scalar 2)] h
  exact ⟨h, by decide +kernel, hsafe.2.2⟩

end J1939Gen.Storage
