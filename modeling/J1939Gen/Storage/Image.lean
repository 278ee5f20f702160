import J1939Gen.Storage.Records
import J1939Gen.Lib.NorFlash
import J1939Gen.Lib.SerialClock

/-!
# The stored image

Model of the image format of `MID/j1939_profile_storage.c`: the parser, which
visits the records it accepts, the encoder, and the image CRC. `s_image` is a
byte buffer; the scalar and the blob visitor of the C code are one function of
the key and the value.
-/

namespace J1939Gen.Storage

open Bitmask ByteMem ValueStore

/-- `Profile_Storage_Status_t`. -/
inductive Status
  | ok
  | empty
  | busy
  | invalidImage
  | catalogMismatch
  | flashError
  | verifyError
  | unsupportedConfig
  | visitorRejected
deriving DecidableEq, Repr, Inhabited

/-- A slot number, `0=A, 1=B`. -/
inductive Slot
  | a
  | b
deriving DecidableEq, Repr, Inhabited

/-- `slot ^ 1u`. -/
def Slot.other : Slot → Slot
  | .a => .b
  | .b => .a

/-- `Profile_Storage_Info_t`. -/
structure Info where
  sequence : UInt32
  configCrc : UInt32
  bitrateBps : UInt32
  signalCount : UInt16
  scalarCount : UInt16
  flags : UInt16
  profileId : UInt8
  blobCount : UInt8
  slot : Slot
deriving DecidableEq, Repr

/-- `STORAGE_MAGIC`. -/
def magic : UInt32 := 0x3650394A
/-- `STORAGE_VALID_MARKER`. -/
def validMarker : UInt32 := 0xA55AA55A
/-- `STORAGE_HEADER_BYTES`. -/
def headerBytes : UInt16 := 44
/-- `STORAGE_IMAGE_MAX_BYTES`. -/
def imageMaxBytes : ℕ := 1536
/-- `J1939_PROFILE_STORAGE_FORMAT_VERSION`. -/
def formatVersion : UInt16 := 1
/-- `J1939_PROFILE_STORAGE_FLAG_AUTOSTART`. -/
def flagAutostart : UInt16 := 1

/-! ## Header offsets -/

abbrev offMagic : ℕ := 0
abbrev offFormatVersion : ℕ := 4
abbrev offHeaderLength : ℕ := 6
abbrev offCatalogCrc : ℕ := 8
abbrev offSequence : ℕ := 12
abbrev offConfigCrc : ℕ := 16
abbrev offImageCrc : ℕ := 20
abbrev offBitrateBps : ℕ := 24
abbrev offPayloadLength : ℕ := 28
abbrev offSignalCount : ℕ := 30
abbrev offScalarCount : ℕ := 32
abbrev offProfileId : ℕ := 34
abbrev offBlobCount : ℕ := 35
abbrev offFlags : ℕ := 36
abbrev offReserved : ℕ := 38
abbrev offValidMarker : ℕ := 40

/-- `prv_image_crc` (`j1939_profile_storage.c:72-84`): the CRC field reads as
    zero and the marker as erased; both are put back afterwards. -/
def imageCrc (m : Mem) (totalLength : UInt16) : UInt32 :=
  let m := writeU32 m offImageCrc 0
  let m := writeU32 m offValidMarker 0xFFFFFFFF
  Crc32.final (Crc32.update Crc32.init (bytes m 0 totalLength.toNat))

/-! ## The parser -/

/-- A visitor: its context after one record, and whether it accepts. -/
abbrev Visitor (σ : Type*) := σ → UInt16 → Entry → σ × Bool

/-- The null visitors. -/
def visitNone : Visitor Unit := fun _ _ _ => ((), true)

/-- The local variables of `prv_parse`, and the context of the visitors. -/
structure ParseState (σ : Type*) where
  offset : UInt16
  previousIndex : Option ℕ
  seen : Mask
  configCrc : UInt32
  actualScalars : UInt16
  actualBlobs : UInt8
  context : σ

variable {σ : Type*}

/-- The value part of a blob record (`j1939_profile_storage.c:149-173`). -/
def parseBlob (m : Mem) (fin : UInt16) (visit : Visitor σ) (index : ℕ) (key : UInt16)
    (s : ParseState σ) : ParseState σ × Status :=
  if fin - s.offset < 2 then (s, .invalidImage)
  else
    let length := readU16 m s.offset.toNat
    let s := { s with offset := s.offset + 2 }
    if length = 0 ∨ length > blobCapacity index ∨ fin - s.offset < length then (s, .invalidImage)
    else
      let data := bytes m s.offset.toNat length.toNat
      if data.any (byteOutOfRange index) then (s, .invalidImage)
      else
        let (context, accepted) := visit s.context key (.blob data)
        let s := { s with
          configCrc := Crc32.update (Crc32.updateU16Le s.configCrc length) data
          context := context }
        if accepted = false then (s, .visitorRejected)
        else ({ s with offset := s.offset + length, actualBlobs := s.actualBlobs + 1 }, .ok)

/-- The value part of a scalar record (`j1939_profile_storage.c:174-189`). -/
def parseScalar (m : Mem) (fin : UInt16) (visit : Visitor σ) (index : ℕ) (key : UInt16)
    (s : ParseState σ) : ParseState σ × Status :=
  if fin - s.offset < 4 then (s, .invalidImage)
  else
    let raw := readU32 m s.offset.toNat
    let s := { s with offset := s.offset + 4 }
    if raw < (signalAt index).rawMin ∨ raw > (signalAt index).rawMax then (s, .invalidImage)
    else
      let (context, accepted) := visit s.context key (.scalar raw)
      let s := { s with
        configCrc := Crc32.updateU32Le s.configCrc raw
        context := context }
      if accepted = false then (s, .visitorRejected)
      else ({ s with actualScalars := s.actualScalars + 1 }, .ok)

/-- The body of the record loop of `prv_parse`
    (`j1939_profile_storage.c:129-190`). -/
def parseRecord (m : Mem) (fin : UInt16) (visit : Visitor σ) (s : ParseState σ) :
    ParseState σ × Status :=
  if fin - s.offset < 2 then (s, .invalidImage)
  else
    let key := readU16 m s.offset.toNat
    let s := { s with offset := s.offset + 2 }
    match indexFromKey key with
    | none => (s, .invalidImage)
    | some index =>
      if s.previousIndex.any (fun p => decide (index ≤ p)) then (s, .invalidImage)
      else if test s.seen index then ({ s with previousIndex := some index }, .invalidImage)
      else
        let s := { s with
          previousIndex := some index
          seen := assign s.seen index true
          configCrc := Crc32.updateU16Le s.configCrc key }
        if isBlob index then parseBlob m fin visit index key s
        else parseScalar m fin visit index key s

/-- The record loop of `prv_parse`, with `n` records to go. -/
def parseRecords (m : Mem) (fin : UInt16) (visit : Visitor σ) :
    ℕ → ParseState σ → ParseState σ × Status
  | 0, s => (s, .ok)
  | n + 1, s =>
    let r := parseRecord m fin visit s
    if r.2 = .ok then parseRecords m fin visit n r.1 else r

/-- The profile check of `prv_parse` (`j1939_profile_storage.c:199-215`). -/
def profileMatches (profileId : UInt8) (signalCount' : UInt16) (seen : Mask) : Bool :=
  if profileId = profileIdCustom then true
  else
    match customerProfileFind profileId with
    | none => false
    | some profile =>
      profile.signalCount.toUInt16 = signalCount' ∧
        ∀ i < signalCount, test seen i = profile.hasKey (signalAt i).signalKey

/-- What `prv_parse` reports from the header; the slot is the caller's. -/
def infoOf (m : Mem) (slot : Slot) : Info where
  sequence := readU32 m offSequence
  configCrc := readU32 m offConfigCrc
  bitrateBps := readU32 m offBitrateBps
  signalCount := readU16 m offSignalCount
  scalarCount := readU16 m offScalarCount
  flags := readU16 m offFlags
  profileId := m offProfileId
  blobCount := m offBlobCount
  slot := slot

/-- The start of the record loop. -/
def parseStart (context : σ) : ParseState σ where
  offset := headerBytes
  previousIndex := none
  seen := zero
  configCrc := Crc32.updateU32Le (Crc32.update Crc32.init configMagic) catalogCrc32
  actualScalars := 0
  actualBlobs := 0
  context := context

/-- `prv_parse` (`j1939_profile_storage.c:94-225`): the context of the visitors,
    and the info or an error. -/
def parse (m : Mem) (slot : Slot) (visit : Visitor σ) (context : σ) : σ × Except Status Info :=
  let payloadLength := readU16 m offPayloadLength
  let signalCount' := readU16 m offSignalCount
  let scalarCount := readU16 m offScalarCount
  let blobCount := m offBlobCount
  if signalCount'.toNat > signalCount ∨ scalarCount + blobCount.toUInt16 ≠ signalCount' ∨
      blobCount > 1 then (context, .error .invalidImage)
  else
    let fin := headerBytes + payloadLength
    let (s, status) := parseRecords m fin visit signalCount'.toNat (parseStart context)
    if status ≠ .ok then (s.context, .error status)
    else if s.offset ≠ fin ∨ s.actualScalars ≠ scalarCount ∨ s.actualBlobs ≠ blobCount ∨
        Crc32.final s.configCrc ≠ readU32 m offConfigCrc then (s.context, .error .invalidImage)
    else if profileMatches (m offProfileId) signalCount' s.seen = false then
      (s.context, .error .invalidImage)
    else (s.context, .ok (infoOf m slot))

/-! ## The encoder -/

/-- The local variables of the record loop of `prv_build_image`. -/
structure BuildState where
  image : Mem
  offset : UInt16
  scalarCount : UInt16
  blobCount : UInt8
  failed : Bool

/-- The body of the record loop of `prv_build_image`
    (`j1939_profile_storage.c:306-337`). -/
def buildRecord (store : Store) (s : BuildState) (i : ℕ) : BuildState :=
  if s.failed ∨ isActive store i = false then s
  else
    let key := (signalAt i).signalKey
    if isBlob i then
      match getBlob store i with
      | none => { s with failed := true }
      | some data =>
        if s.offset.toNat + 4 + data.length > imageMaxBytes then { s with failed := true }
        else
          let m := writeU16 s.image s.offset.toNat key
          let m := writeU16 m (s.offset.toNat + 2) (UInt16.ofNat data.length)
          { s with
            image := copy m (s.offset.toNat + 4) (fun k => data.getD k 0) data.length
            offset := s.offset + 4 + UInt16.ofNat data.length
            blobCount := s.blobCount + 1 }
    else
      match getRaw store i with
      | none => { s with failed := true }
      | some raw =>
        if s.offset.toNat + 6 > imageMaxBytes then { s with failed := true }
        else
          let m := writeU16 s.image s.offset.toNat key
          { s with
            image := writeU32 m (s.offset.toNat + 2) raw
            offset := s.offset + 6
            scalarCount := s.scalarCount + 1 }

/-- The header writes of `prv_build_image` (`j1939_profile_storage.c:343-362`),
    the image CRC last. -/
def buildHeader (store : Store) (profileId : UInt8) (bitrateBps : UInt32) (autostart : Bool)
    (sequence : UInt32) (s : BuildState) : Mem :=
  let m := writeU32 s.image offMagic magic
  let m := writeU16 m offFormatVersion formatVersion
  let m := writeU16 m offHeaderLength headerBytes
  let m := writeU32 m offCatalogCrc catalogCrc32
  let m := writeU32 m offSequence sequence
  let m := writeU32 m offConfigCrc (getConfigCrc store)
  let m := writeU32 m offImageCrc 0
  let m := writeU32 m offBitrateBps bitrateBps
  let m := writeU16 m offPayloadLength (s.offset - headerBytes)
  let m := writeU16 m offSignalCount (s.scalarCount + s.blobCount.toUInt16)
  let m := writeU16 m offScalarCount s.scalarCount
  let m := Function.update m offProfileId profileId
  let m := Function.update m offBlobCount s.blobCount
  let m := writeU16 m offFlags (if autostart then flagAutostart else 0)
  let m := writeU16 m offReserved 0
  let m := writeU32 m offValidMarker 0xFFFFFFFF
  writeU32 m offImageCrc (imageCrc m s.offset)

/-- `prv_build_image` (`j1939_profile_storage.c:296-364`): the image buffer, and
    the total length or an error. -/
def buildImage (store : Store) (profileId : UInt8) (bitrateBps : UInt32) (autostart : Bool)
    (sequence : UInt32) : Mem × Except Status UInt16 :=
  let s := (List.range signalCount).foldl (buildRecord store)
    ⟨fun _ => 0xFF, headerBytes, 0, 0, false⟩
  if s.failed then (s.image, .error .unsupportedConfig)
  else if s.scalarCount + s.blobCount.toUInt16 = 0 ∨ s.blobCount > 1 then
    (s.image, .error .unsupportedConfig)
  else (buildHeader store profileId bitrateBps autostart sequence s, .ok s.offset)

end J1939Gen.Storage
