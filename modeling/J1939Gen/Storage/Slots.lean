import J1939Gen.Storage.Build

/-!
# The two slots

Model of `HAL/hal_flash_stm32f1.c` on a NOR flash that may fail, and of the slot
operations of `MID/j1939_profile_storage.c`: load, open the latest, save, set
autostart, erase.

The driver's own read-back (blank check after an erase, compare after a program)
always passes on this device. A failing mutation reports a program error.
-/

namespace J1939Gen.Storage

open Bitmask ByteMem ValueStore NorFlash SerialClock

/-! ## The flash driver -/

/-- `HAL_FLASH_PAGE_SIZE`. -/
abbrev flashPageSize : ℕ := 1024
/-- `HAL_FLASH_PROFILE_SLOT_SIZE`. -/
abbrev flashSlotSize : ℕ := 4096
/-- `HAL_FLASH_PROFILE_SLOT_A_ADDRESS`. -/
abbrev flashSlotAAddress : ℕ := 0x0800E000
/-- `HAL_FLASH_PROFILE_SLOT_B_ADDRESS`. -/
abbrev flashSlotBAddress : ℕ := 0x0800F000
/-- `HAL_FLASH_PROFILE_STORAGE_END`. -/
abbrev flashStorageEnd : ℕ := 0x08010000

/-- `hal_flash_status_t`. -/
inductive FlashStatus
  | ok
  | badArgument
  | badAddress
  | timeout
  | programError
  | writeProtected
  | verifyError
deriving DecidableEq, Repr

/-- `prv_range_valid` (`hal_flash_stm32f1.c:8-15`). -/
def rangeValid (address length : ℕ) : Bool :=
  if length = 0 ∨ address < flashSlotAAddress then false
  else address < flashStorageEnd ∧ length ≤ flashStorageEnd - address

/-- `hal_flash_erase_page` (`hal_flash_stm32f1.c:66-91`). -/
def flashErasePage (d : Device) (address : ℕ) : Device × FlashStatus :=
  if rangeValid address flashPageSize = false ∨ address % flashPageSize ≠ 0 then (d, .badAddress)
  else
    let (d, done) := d.erase address flashPageSize
    (d, if done then .ok else .programError)

/-- `hal_flash_program_halfword` (`hal_flash_stm32f1.c:93-126`). -/
def flashProgramHalfword (d : Device) (address : ℕ) (value : UInt16) : Device × FlashStatus :=
  if rangeValid address 2 = false ∨ address % 2 ≠ 0 then (d, .badAddress)
  else
    let (d, done) := d.program address value
    (d, if done then .ok else .programError)

/-- `hal_flash_read` (`hal_flash_stm32f1.c:128-136`): the bytes from `address`
    on. -/
def flashRead (d : Device) (address length : ℕ) : Except FlashStatus Mem :=
  if rangeValid address length = false then .error .badArgument
  else .ok fun i => d.cell (address + i)

/-! ## Loading -/

/-- The flash and `s_image`. -/
structure Memory where
  flash : Device
  image : Mem

/-- `prv_slot_address`. -/
def Slot.address : Slot → ℕ
  | .a => flashSlotAAddress
  | .b => flashSlotBAddress

/-- The header checks of `prv_load_slot` (`j1939_profile_storage.c:234-241`). -/
def headerInvalid (m : Mem) : Bool :=
  readU32 m offMagic ≠ magic ∨ readU16 m offFormatVersion ≠ formatVersion ∨
    readU16 m offHeaderLength ≠ headerBytes ∨ readU32 m offValidMarker ≠ validMarker ∨
    readU16 m offReserved ≠ 0

/-- The part of `prv_load_slot` that reads and checks the whole image
    (`j1939_profile_storage.c:252-266`). -/
def loadImage (s : Memory) (slot : Slot) (totalLength : UInt16) : Memory × Except Status Info :=
  if totalLength.toNat > imageMaxBytes ∨ totalLength.toNat > flashSlotSize then
    (s, .error .invalidImage)
  else
    match flashRead s.flash slot.address totalLength.toNat with
    | .error _ => (s, .error .flashError)
    | .ok src =>
      let s := { s with image := copy s.image 0 src totalLength.toNat }
      if imageCrc s.image totalLength ≠ readU32 s.image offImageCrc then (s, .error .invalidImage)
      else (s, (parse s.image slot visitNone ()).2)

/-- `prv_load_slot` (`j1939_profile_storage.c:227-267`). -/
def loadSlot (s : Memory) (slot : Slot) : Memory × Except Status Info :=
  match flashRead s.flash slot.address headerBytes.toNat with
  | .error _ => (s, .error .flashError)
  | .ok src =>
    let s := { s with image := copy s.image 0 src headerBytes.toNat }
    if headerInvalid s.image then (s, .error .invalidImage)
    else if readU32 s.image offCatalogCrc ≠ catalogCrc32 then (s, .error .catalogMismatch)
    else loadImage s slot (headerBytes + readU16 s.image offPayloadLength)

/-- The choice `Profile_Storage_Open_Latest` makes between the two slots. -/
def openSelected (s : Memory) (ra rb : Except Status Info) : Memory × Except Status Info :=
  match ra, rb with
  | .ok a, .ok b => loadSlot s (if newer b.sequence a.sequence then .b else .a)
  | .ok _, .error _ => loadSlot s .a
  | .error _, .ok _ => loadSlot s .b
  | .error ea, .error eb =>
    if ea = .catalogMismatch ∨ eb = .catalogMismatch then (s, .error .catalogMismatch)
    else if ea = .flashError ∨ eb = .flashError then (s, .error .flashError)
    else (s, .error .empty)

/-- `Profile_Storage_Open_Latest` (`j1939_profile_storage.c:274-294`). -/
def openLatest (s : Memory) : Memory × Except Status Info :=
  let (s, ra) := loadSlot s .a
  let (s, rb) := loadSlot s .b
  openSelected s ra rb

/-- `Profile_Storage_Visit_Latest` (`j1939_profile_storage.c:438-454`). -/
def visitLatest {σ : Type*} (s : Memory) (visit : Visitor σ) (context : σ) :
    Memory × σ × Except Status Info :=
  match openLatest s with
  | (s, .error e) => (s, context, .error e)
  | (s, .ok info) =>
    let (context, result) := parse s.image info.slot visit context
    (s, context, result)

/-! ## Writing -/

/-- `STORAGE_PAGES_PER_SLOT`. -/
def pagesPerSlot : ℕ := 4

/-- One turn of the erase loop. -/
def erasePageAt (address : ℕ) (d : Device) (page : ℕ) : Device × Bool :=
  let (d, status) := flashErasePage d (address + page * flashPageSize)
  (d, status = .ok)

/-- Do the offsets belong to the marker, which is programmed last? -/
def isMarker (offset : ℕ) : Bool := offset = offValidMarker ∨ offset = offValidMarker + 2

/-- One turn of the program loop. -/
def programHalfwordAt (m : Mem) (address : ℕ) (d : Device) (offset : ℕ) : Device × Bool :=
  if isMarker offset then (d, true)
  else
    let (d, status) := flashProgramHalfword d (address + offset) (readU16 m offset)
    (d, status = .ok)

/-- One turn of the verify loop. -/
def verifyHalfwordAt (m : Mem) (address : ℕ) (d : Device) (offset : ℕ) : Bool :=
  if isMarker offset then true
  else
    match flashRead d (address + offset) 2 with
    | .error _ => false
    | .ok actual => actual 0 = m offset ∧ actual 1 = m (offset + 1)

/-- The offsets `0, 2, … < programmed`. -/
def halfwordOffsets (totalLength : UInt16) : List ℕ :=
  let programmed := (totalLength + 1) &&& ~~~1
  (List.range (programmed.toNat / 2)).map fun k => 2 * k

/-- The last part of `prv_write_slot`: program the marker, then load the slot
    (`j1939_profile_storage.c:404-414`). -/
def writeMarker (s : Memory) (slot : Slot) : Memory × Except Status Info :=
  let (flash, low) := flashProgramHalfword s.flash (slot.address + offValidMarker)
    validMarker.toUInt16
  let s := { s with flash := flash }
  if low ≠ .ok then (s, .error .flashError)
  else
    let (flash, high) := flashProgramHalfword s.flash (slot.address + (offValidMarker + 2))
      (validMarker >>> 16).toUInt16
    let s := { s with flash := flash }
    if high ≠ .ok then (s, .error .flashError)
    else
      match loadSlot s slot with
      | (s, .ok info) => (s, .ok info)
      | (s, .error _) => (s, .error .verifyError)

/-- `prv_write_slot` (`j1939_profile_storage.c:366-415`). -/
def writeSlot (s : Memory) (slot : Slot) (totalLength : UInt16) :
    Memory × Except Status Info :=
  let (flash, erased) := untilFail (erasePageAt slot.address) s.flash (List.range pagesPerSlot)
  let s := { s with flash := flash }
  if erased = false then (s, .error .flashError)
  else
    let offsets := halfwordOffsets totalLength
    let (flash, programmed) := untilFail (programHalfwordAt s.image slot.address) s.flash offsets
    let s := { s with flash := flash }
    if programmed = false then (s, .error .flashError)
    else if offsets.all (verifyHalfwordAt s.image slot.address s.flash) = false then
      (s, .error .verifyError)
    else writeMarker s slot

/-- The second half of `Profile_Storage_Save`. -/
def saveTo (s : Memory) (store : Store) (profileId : UInt8) (bitrateBps : UInt32)
    (autostart : Bool) (sequence : UInt32) (target : Slot) : Memory × Except Status Info :=
  match buildImage store profileId bitrateBps autostart sequence with
  | (m, .error e) => ({ s with image := m }, .error e)
  | (m, .ok totalLength) => writeSlot { s with image := m } target totalLength

/-- `Profile_Storage_Save` (`j1939_profile_storage.c:417-436`). -/
def save (s : Memory) (store : Store) (profileId : UInt8) (bitrateBps : UInt32)
    (autostart : Bool) : Memory × Except Status Info :=
  match openLatest s with
  | (s, .ok current) =>
    saveTo s store profileId bitrateBps autostart (current.sequence + 1) current.slot.other
  | (s, .error e) =>
    if e ≠ .empty ∧ e ≠ .catalogMismatch then (s, .error e)
    else saveTo s store profileId bitrateBps autostart 1 .a

/-- The header edits of `Profile_Storage_Set_Autostart`
    (`j1939_profile_storage.c:465-473`). -/
def autostartImage (m : Mem) (sequence : UInt32) (enabled : Bool) : Mem :=
  let m := writeU32 m offSequence (sequence + 1)
  let m := writeU16 m offFlags (if enabled then flagAutostart else 0)
  let m := writeU32 m offValidMarker 0xFFFFFFFF
  let m := writeU32 m offImageCrc 0
  writeU32 m offImageCrc (imageCrc m (headerBytes + readU16 m offPayloadLength))

/-- `Profile_Storage_Set_Autostart` (`j1939_profile_storage.c:456-474`). -/
def setAutostart (s : Memory) (enabled : Bool) : Memory × Except Status Info :=
  match openLatest s with
  | (s, .error e) => (s, .error e)
  | (s, .ok current) =>
    let m := autostartImage s.image current.sequence enabled
    writeSlot { s with image := m } current.slot.other (headerBytes + readU16 m offPayloadLength)

/-- `Profile_Storage_Erase` (`j1939_profile_storage.c:476-488`). -/
def erase (s : Memory) : Memory × Status :=
  let (flash, done) := untilFail (erasePageAt Slot.a.address) s.flash (List.range pagesPerSlot)
  if done = false then ({ s with flash := flash }, .flashError)
  else
    let (flash, done) := untilFail (erasePageAt Slot.b.address) flash (List.range pagesPerSlot)
    ({ s with flash := flash }, if done then .ok else .flashError)

/-- `Profile_Storage_Init`. -/
def Memory.init (s : Memory) : Memory := { s with image := fun _ => 0 }

end J1939Gen.Storage
