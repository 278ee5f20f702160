import J1939Gen.Storage.Erasing
import J1939Gen.Storage.Latest

/-!
# Where a stored image comes from

A slot is erased, programmed half-word by half-word and marked last; the flash may
fail at any of these steps, a reset may follow, and the storage may be erased. A
slot that loads holds all of what one save was asked to write all the same.

* `origins_run`: the images of both slots, after any history.
* `opened_was_saved`: the main result, about what is opened.
-/

namespace J1939Gen.Storage

open Bitmask ByteMem ValueStore NorFlash

/-! ## Histories with erases -/

/-- What happens on the board. -/
inductive Happening
  | input (i : Input)
  | erase (cut : Option ℕ)

/-- The board after one of them. -/
def happen (b : Board) : Happening → Board
  | .input i => (step b i).1
  | .erase cut => { b with memory := (Storage.erase (b.memory.withCut cut)).1 }

/-- The board after a history from erased flash. -/
def boardAfter (history : List Happening) : Board := history.foldl happen boot

theorem boardAfter_concat (history : List Happening) (h : Happening) :
    boardAfter (history ++ [h]) = happen (boardAfter history) h := by
  rw [boardAfter, List.foldl_append]
  rfl

/-! ## Snapshots -/

/-- What a save is asked to write. -/
structure Snapshot where
  records : List (UInt16 × Entry)
  configCrc : UInt32
  bitrateBps : UInt32
  profileId : UInt8

/-- The active configuration and the arguments of a save. -/
def Snapshot.ofSave (store : Store) (profileId : UInt8) (bitrateBps : UInt32) : Snapshot where
  records := recordsOf store
  configCrc := getConfigCrc store
  bitrateBps := bitrateBps
  profileId := profileId

/-- What an image stores. -/
def Snapshot.ofImage (info : Info) (records : List (UInt16 × Entry)) : Snapshot where
  records := records
  configCrc := info.configCrc
  bitrateBps := info.bitrateBps
  profileId := info.profileId

/-- A save of the history was asked to write it. -/
def WasSaved (history : List Happening) (x : Snapshot) : Prop :=
  ∃ before profileId bitrateBps autostart cut after,
    history = before ++ .input (.call (.save profileId bitrateBps autostart) cut) :: after ∧
      x = .ofSave (boardAfter before).store profileId bitrateBps

theorem WasSaved.concat {history : List Happening} {x : Snapshot} (h : WasSaved history x)
    (next : Happening) : WasSaved (history ++ [next]) x := by
  obtain ⟨before, profileId, bitrateBps, autostart, cut, after, rfl, hx⟩ := h
  exact ⟨before, profileId, bitrateBps, autostart, cut, after ++ [next], by simp, hx⟩

/-- Every image that loads is one the predicate allows. -/
def ImagesFrom (P : Snapshot → Prop) (cell : Mem) : Prop :=
  ∀ slot l, ValidImage (slotMem cell slot) l →
    P (.ofImage (infoOf (slotMem cell slot) slot) (l.map visited))

theorem ImagesFrom.mono {P Q : Snapshot → Prop} {cell : Mem} (h : ImagesFrom P cell)
    (hPQ : ∀ x, P x → Q x) : ImagesFrom Q cell := fun slot l hl => hPQ _ (h slot l hl)

/-- What an unchanged slot allows. -/
theorem ImagesFrom.of_eq {P : Snapshot → Prop} {cell cell' : Mem} {slot : Slot}
    (h : ImagesFrom P cell) (heq : ∀ i < flashSlotSize, slotMem cell slot i = slotMem cell' slot i)
    {l : List Record} (hl : ValidImage (slotMem cell' slot) l) :
    P (.ofImage (infoOf (slotMem cell' slot) slot) (l.map visited)) := by
  have hinfo : infoOf (slotMem cell slot) slot = infoOf (slotMem cell' slot) slot :=
    infoOf_congr (fun i hi => heq i (hi.trans (by decide))) slot
  rw [← hinfo]
  exact h slot l (hl.congr' fun i hi => (heq i hi).symm)

/-! ## One write -/

/-- A write of an allowed image leaves allowed images, however it ends. -/
theorem writeSlot_imagesFrom {P : Snapshot → Prop} {s : Memory} (slot : Slot) {l : List Record}
    (hsealed : Sealed s.image l) (h : ImagesFrom P s.flash.cell)
    (hP : P (.ofImage (infoOf s.image slot) (l.map visited))) :
    ImagesFrom P
      (writeSlot s slot (headerBytes + readU16 s.image offPayloadLength)).1.flash.cell := by
  obtain ⟨hwithin, hout⟩ := writeSlot_spec slot hsealed rfl
  intro slot' l' hl'
  by_cases hslot : slot' = slot.other
  · subst hslot
    exact h.of_eq hwithin.other hl'
  obtain rfl : slot' = slot := by
    cases slot <;> cases slot' <;> first | rfl | exact absurd rfl hslot
  cases hout with
  | untouched hcell e he =>
    rw [hcell] at hl' ⊢
    exact h slot' l' hl'
  | dead hdead e he => exact absurd ⟨l', hl'⟩ hdead.not_loads
  | written hvalid hinfo he =>
    rw [hvalid.unique hl', hinfo]
    exact hP

/-! ## One call -/

section Calls

variable {P : Snapshot → Prop} {store : Store} {s : Memory}

theorem saveTo_imagesFrom (hstore : Saveable store) (h : ImagesFrom P s.flash.cell)
    (profileId : UInt8) (bitrateBps : UInt32) (hP : P (.ofSave store profileId bitrateBps))
    (autostart : Bool) (sequence : UInt32) (target : Slot) :
    ImagesFrom P (saveTo s store profileId bitrateBps autostart sequence target).1.flash.cell := by
  obtain ⟨hempty, hbuild⟩ :=
    buildImage_of_wf hstore.wf hstore.crc profileId bitrateBps autostart sequence
  by_cases hl : store.active.view.records = []
  · obtain ⟨hflash, -⟩ := saveTo_of_error s store profileId bitrateBps autostart sequence target
      (hempty hl)
    rw [hflash]
    exact h
  · obtain ⟨m, total, hm, htotal, hsealed, hinfo⟩ := hbuild hl
    rw [saveTo_of_ok _ _ _ _ _ _ _ hm, htotal]
    apply writeSlot_imagesFrom (s := { s with image := m }) target hsealed h
    rw [hinfo]
    rw [Snapshot.ofSave, hstore.crc] at hP
    exact hP

theorem save_imagesFrom (hstore : Saveable store) (h : ImagesFrom P s.flash.cell)
    (profileId : UInt8) (bitrateBps : UInt32) (hP : P (.ofSave store profileId bitrateBps))
    (autostart : Bool) :
    ImagesFrom P (save s store profileId bitrateBps autostart).1.flash.cell := by
  have hflash := openLatest_flash s
  unfold save
  generalize openLatest s = r at hflash
  obtain ⟨s', current | e⟩ := r
  · dsimp only at hflash ⊢
    split_ifs
    · rw [hflash]
      exact h
    · apply saveTo_imagesFrom hstore _ profileId bitrateBps hP
      rw [hflash]
      exact h
  · dsimp only at hflash ⊢
    apply saveTo_imagesFrom hstore _ profileId bitrateBps hP
    rw [hflash]
    exact h

theorem setAutostart_imagesFrom (h : ImagesFrom P s.flash.cell) (enabled : Bool) :
    ImagesFrom P (setAutostart s enabled).1.flash.cell := by
  unfold setAutostart
  rcases openLatest_cases s with ⟨slot, l, s', hlatest, ⟨hflash, hbuf⟩, heq⟩ |
    ⟨-, s', e, hflash, -, heq⟩
  · rw [heq]
    dsimp only
    have hsealed : Sealed s'.image l := hlatest.valid.sealed.congr' fun i hi => (hbuf i hi).symm
    have hinfo : infoOf s'.image slot = latestInfo s.flash.cell slot :=
      infoOf_congr (fun i hi => hbuf i (by omega)) slot
    have himage := infoOf_autostartImage s'.image (latestInfo s.flash.cell slot).sequence enabled
      slot (latestInfo s.flash.cell slot).slot.other
    rw [hinfo] at himage
    refine writeSlot_imagesFrom (P := P)
      (s := { s' with
        image := autostartImage s'.image (latestInfo s.flash.cell slot).sequence enabled })
      (latestInfo s.flash.cell slot).slot.other (hsealed.autostartImage _ enabled) ?_ ?_
    · show ImagesFrom P s'.flash.cell
      rw [hflash]
      exact h
    · rw [himage]
      exact h slot l hlatest.valid
  · rw [heq]
    dsimp only
    rw [hflash]
    exact h

theorem erase_imagesFrom (h : ImagesFrom P s.flash.cell) :
    ImagesFrom P (Storage.erase s).1.flash.cell := by
  have herased := erase_erased s
  intro slot l hl
  rcases Nat.eq_zero_or_pos (erasedPages s.flash.left slot) with h0 | hpos
  · exact h.of_eq (herased.kept slot h0) hl
  · exact absurd ⟨l, hl⟩ (herased.dead slot hpos).not_loads

end Calls

/-! ## Runs -/

/-- What every history keeps. -/
structure Origins (history : List Happening) : Prop where
  store : ∃ t, StoreRel (boardAfter history).store t
  images : ImagesFrom (WasSaved history) (boardAfter history).memory.flash.cell

theorem origins_nil : Origins [] where
  store := ⟨_, storeRel_init⟩
  images := by
    intro slot l hl
    have hblank : Dead (slotMem boot.memory.flash.cell slot) :=
      dead_of_unmarked (unmarked_of_blank fun _ _ _ => rfl)
    exact absurd ⟨l, hl⟩ hblank.not_loads

theorem Origins.concat {history : List Happening} (h : Origins history) (next : Happening) :
    Origins (history ++ [next]) := by
  have hsaveable : Saveable (boardAfter history).store :=
    h.store.elim fun _ => saveable_of_storeRel
  have hkept : ImagesFrom (WasSaved (history ++ [next])) (boardAfter history).memory.flash.cell :=
    h.images.mono fun x hx => hx.concat next
  cases next with
  | erase cut =>
    refine ⟨?_, ?_⟩ <;> rw [boardAfter_concat]
    · exact h.store
    · exact erase_imagesFrom (s := (boardAfter history).memory.withCut cut) hkept
  | input i =>
    cases i with
    | store op =>
      refine ⟨?_, ?_⟩ <;> rw [boardAfter_concat]
      · obtain ⟨t, ht⟩ := h.store
        exact ⟨_, (storeRel_step _ t op ht).1⟩
      · exact hkept
    | reboot =>
      refine ⟨?_, ?_⟩ <;> rw [boardAfter_concat]
      · exact ⟨_, storeRel_init⟩
      · exact hkept
    | call c cut =>
      refine ⟨?_, ?_⟩ <;> rw [boardAfter_concat]
      · exact h.store
      · cases c with
        | setAutostart enabled =>
          exact setAutostart_imagesFrom (s := (boardAfter history).memory.withCut cut) hkept enabled
        | save profileId bitrateBps autostart =>
          refine save_imagesFrom (s := (boardAfter history).memory.withCut cut) hsaveable hkept
            profileId bitrateBps ?_ autostart
          exact ⟨history, profileId, bitrateBps, autostart, cut, [], rfl, rfl⟩

theorem origins_run (history : List Happening) : Origins history := by
  induction history using List.reverseRecOn with
  | nil => exact origins_nil
  | append_singleton history next ih => exact ih.concat next

/-- **No torn image is opened.** After any history of store calls, saves, autostart
    changes, erases and resets, whatever mutation of the flash failed in any of them:
    an image that is opened has the records, the configuration CRC, the profile and
    the bitrate that one save of the history was asked to write. -/
theorem opened_was_saved (history : List Happening) (info : Info)
    (records : List (UInt16 × Entry)) (h : Reads (boardAfter history).memory info records) :
    WasSaved history (.ofImage info records) := by
  obtain ⟨slot, l, hlatest, -⟩ := openLatest_ok_iff.mp h.1
  obtain ⟨rfl, rfl⟩ := hlatest.reads.unique h
  exact (origins_run history).images slot l hlatest.valid

/-- The seventh mutation of an autostart change fails after the first save. -/
theorem opened_was_saved_first :
    WasSaved (firstSave.map .input ++ [.input (.call (.setAutostart true) (some 6))])
      (.ofImage firstInfo [(113, .scalar 2)]) :=
  opened_was_saved _ firstInfo [(113, .scalar 2)] (by decide +kernel)

end J1939Gen.Storage
