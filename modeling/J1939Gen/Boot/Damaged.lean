import J1939Gen.Boot.Restore
import J1939Gen.Storage.Statuses

/-!
# A damaged profile and an empty store

A slot whose header is committed and whose image does not load is damaged, not empty.
The restore takes it for an empty store, and may load the demo defaults, unless the
other slot makes the open say something else.

* `restore_refused`: the restore when nothing loads.
* `restore_failed_iff`: when it reports the damage.
* `restore_mistakes_damage`: a damaged profile and the demo defaults.
-/

namespace J1939Gen.Boot

open Bitmask ByteMem ValueStore Storage Generator Persistence

/-- A slot with a committed image header of this catalog. -/
structure Committed (m : Mem) : Prop where
  magic : readU32 m offMagic = Storage.magic
  formatVersion : readU16 m offFormatVersion = Storage.formatVersion
  headerLength : readU16 m offHeaderLength = headerBytes
  marker : readU32 m offValidMarker = validMarker
  catalogCrc : readU32 m offCatalogCrc = catalogCrc32

/-- At least one slot is committed, and the loader accepts neither. -/
structure Damaged (memory : Memory) : Prop where
  committed : ∃ slot, Committed (slotMem memory.flash.cell slot)
  refused : ∀ slot info, (loadSlot memory slot).2 ≠ .ok info

/-- What a damaged profile is to look like after the restore. -/
structure Reported (n : Node) : Prop where
  result : n.info.result = .loadFailed
  inactive : ∀ i, isActive n.app.gen.store i = false
  autostart : n.info.autostart = .off

theorem Damaged.not_loads {memory : Memory} (h : Damaged memory) (slot : Slot) :
    ¬ Loads memory.flash.cell slot := by
  rintro ⟨l, hv⟩
  obtain ⟨s', -, heq⟩ := loadSlot_of_valid hv
  exact h.refused slot _ (by rw [heq])

/-! ## The restore -/

/-- The device at power-up, with anything in the boot info. -/
def bootNode (memory : Memory) (info : BootInfo) (resetCause watchdogStreak : UInt8) : Node :=
  ⟨powerUp defaultBaudKbps memory, info, resetCause, watchdogStreak⟩

section Restore

variable (B : Build) {memory : Memory} (info : BootInfo) (resetCause watchdogStreak : UInt8)
  (suppress useDefaults : Bool) (clock : ℕ → UInt32)

/-- Nothing loads: the restore reports it if a slot is told, and finds an empty store if
not. -/
theorem restore_refused (h : ∀ slot, ¬ Loads memory.flash.cell slot) :
    let n := restore B (bootNode memory info resetCause watchdogStreak) suppress useDefaults clock
    (∃ slot, Told (slotMem memory.flash.cell slot)) ∧ Reported n ∨
      (∀ slot, ¬ Told (slotMem memory.flash.cell slot)) ∧
        n.info.result = (if useDefaults then .defaults else .empty) ∧
        n.info.autostart = (if useDefaults then requestAutostart suppress else .off) := by
  intro n
  have hn : n = restore B (bootNode memory info resetCause watchdogStreak) suppress useDefaults
    clock := rfl
  have hinit : Inv B (powerUp defaultBaudKbps memory).gen Contents.empty :=
    inv_init B defaultBaudKbps
  have hopen := openLatest_refused (s := (powerUp defaultBaudKbps memory).memory) h
  obtain ⟨s', e, hflash, heq, hcases⟩ := hopen
  unfold restore getInfo bootNode at hn
  dsimp only at hn
  rw [heq] at hn
  dsimp only at hn
  rcases hcases with ⟨htold, he⟩ | ⟨hnone, he⟩
  · left
    rw [if_neg (by rcases he with rfl | rfl <;> simp [Persistence.Status.ofStorage]),
      if_pos (by rcases he with rfl | rfl <;> simp [Persistence.Status.ofStorage])] at hn
    obtain ⟨hbare, hres, -⟩ := fail_bare B (n := ⟨{ powerUp defaultBaudKbps memory with
        memory := s' }, .start defaultBaudKbps, resetCause, watchdogStreak⟩) hinit
        (Persistence.Status.ofStorage e)
    rw [hn]
    exact ⟨htold, hres, hbare.active, hbare.autostart⟩
  · right
    refine ⟨hnone, ?_⟩
    rw [he, if_pos (show Persistence.Status.ofStorage .empty = .empty from rfl)] at hn
    cases useDefaults with
    | true =>
      rw [if_pos rfl] at hn
      rw [hn]
      exact ⟨rfl, rfl⟩
    | false =>
      rw [if_neg (by decide)] at hn
      rw [hn]
      exact ⟨rfl, rfl⟩

/-- **Damage.** A damaged profile is reported exactly when a slot is told. -/
theorem restore_failed_iff (h : Damaged memory) :
    Reported (restore B (bootNode memory info resetCause watchdogStreak) suppress useDefaults
        clock) ↔
      ∃ slot, Told (slotMem memory.flash.cell slot) := by
  rcases restore_refused B info resetCause watchdogStreak suppress useDefaults clock h.not_loads
    with ⟨htold, hreported⟩ | ⟨hnone, hresult, -⟩
  · exact ⟨fun _ => htold, fun _ => hreported⟩
  · constructor
    · intro hreported
      have hfailed := hreported.result
      rw [hresult] at hfailed
      cases useDefaults <;> cases hfailed
    · rintro ⟨slot, htold⟩
      exact absurd htold (hnone slot)

end Restore

/-! ## Two damaged profiles -/

/-- A committed header of a catalog, with no payload and an image CRC that is wrong. -/
def headerImage (catalogCrc : UInt32) : Mem :=
  let m : Mem := fun _ => 0
  let m := writeU32 m offMagic Storage.magic
  let m := writeU16 m offFormatVersion Storage.formatVersion
  let m := writeU16 m offHeaderLength headerBytes
  let m := writeU32 m offCatalogCrc catalogCrc
  writeU32 m offValidMarker validMarker

/-- A flash with these contents of the two slots. -/
def flashOf (a b : Mem) : Memory where
  flash := ⟨fun i => if i < flashSlotBAddress then a (i - flashSlotAAddress)
    else b (i - flashSlotBAddress), none⟩
  image := fun _ => 0

/-- Slot A is damaged, slot B erased. -/
def damagedFlash : Memory := flashOf (headerImage catalogCrc32) fun _ => 0xFF

/-- Slot A is damaged, slot B is of another catalog. -/
def damagedAndOld : Memory := flashOf (headerImage catalogCrc32) (headerImage 0)

theorem damagedFlash_damaged : Damaged damagedFlash := by
  have ha : (loadSlot damagedFlash .a).2 = .error .invalidImage := by decide +kernel
  have hb : (loadSlot damagedFlash .b).2 = .error .invalidImage := by decide +kernel
  refine ⟨⟨.a, ⟨by decide, by decide, by decide, by decide, by decide⟩⟩, ?_⟩
  intro slot info
  cases slot with
  | a => rw [ha]; simp
  | b => rw [hb]; simp

theorem damagedAndOld_damaged : Damaged damagedAndOld := by
  have ha : (loadSlot damagedAndOld .a).2 = .error .invalidImage := by decide +kernel
  have hb : (loadSlot damagedAndOld .b).2 = .error .catalogMismatch := by decide +kernel
  refine ⟨⟨.a, ⟨by decide, by decide, by decide, by decide, by decide⟩⟩, ?_⟩
  intro slot info
  cases slot with
  | a => rw [ha]; simp
  | b => rw [hb]; simp

/-- The damage is reported where the other slot is of another catalog. -/
theorem restore_failed_iff_old :
    Reported (restore build179 (bootNode damagedAndOld (.start 250) 0 0) false true fun _ => 0) :=
  (restore_failed_iff build179 (.start 250) 0 0 false true (fun _ => 0)
    damagedAndOld_damaged).2 ⟨.b, by decide⟩

/-- The damaged profile of slot A is taken for an empty store: with the demo defaults
enabled they are loaded and armed. -/
theorem restore_mistakes_damage :
    let n := restore build179 (bootNode damagedFlash (.start 250) 0 0) false true fun _ => 0
    Damaged damagedFlash ∧ n.info.result = .defaults ∧ n.info.autostart = .pending ∧
      ¬ Reported n := by
  dsimp only
  have hdamaged := damagedFlash_damaged
  rcases restore_refused build179 (.start 250) 0 0 false true (fun _ => 0)
    hdamaged.not_loads with ⟨⟨slot, htold⟩, -⟩ | ⟨-, hresult, hauto⟩
  · exact absurd htold (by cases slot <;> decide)
  · rw [if_pos rfl] at hresult hauto
    refine ⟨hdamaged, hresult, hauto, fun h => ?_⟩
    have hfailed := h.result
    rw [hresult] at hfailed
    cases hfailed

end J1939Gen.Boot
