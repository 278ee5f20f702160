import J1939Gen.Catalog.Table
import J1939Gen.Crc32

/-!
# The double-banked value store

Model of `MID/j1939_value_store.c`: raw values, one blob slot and an active
bitmap per bank, a staging transaction with blob progress, and the commit that
re-validates the staging bank and swaps the banks. The two banks are indexed by
`Bool` (`false` is bank 0).
-/

namespace J1939Gen.ValueStore

open Bitmask ByteMem

/-- `J1939_Value_Store_Status_t`. -/
inductive Status
  | ok
  | unknownKey
  | unsupportedSignal
  | valueOutOfRange
  | noTransaction
  | transactionOpen
  | transactionRejected
  | blobIncomplete
  | resourceFull
deriving DecidableEq, Repr, Inhabited

/-- `J1939_Value_Store_Begin_t`. -/
inductive Begin
  | empty
  | copyActive
deriving DecidableEq, Repr

/-- `Vs_Txn_State_t`. -/
inductive TxnState
  | idle
  | opened
  | rejected
deriving DecidableEq, Repr

/-- The columns of `J1939_Value_Banks_t` that exist once per bank. `blobIndex`
    is `none` for `J1939_CATALOG_INDEX_INVALID`. -/
structure Bank where
  rawValue : ℕ → UInt32
  configCrc : UInt32
  blob : Mem
  blobLength : UInt16
  blobIndex : Option ℕ
  activeMask : Mask
  activeCount : UInt16

/-- `J1939_Value_Banks_t`, the state `s_vs`. -/
structure Store where
  bank : Bool → Bank
  generation : UInt16
  activeBank : Bool
  txnState : TxnState
  blobWritten : Mask
  blobWrittenCount : UInt16
  blobTouched : Bool

/-- `s_vs.active_bank`. -/
def Store.active (s : Store) : Bank := s.bank s.activeBank

/-- `prv_staging_bank()` (`j1939_value_store.c:44-47`). -/
def Store.staging (s : Store) : Bank := s.bank (!s.activeBank)

/-- Replace the staging bank. -/
def Store.setStaging (s : Store) (b : Bank) : Store :=
  { s with bank := Function.update s.bank (!s.activeBank) b }

/-- `prv_check_index` (`j1939_value_store.c:74-85`). -/
def checkIndex (index : ℕ) (rawValue : UInt32) : Status :=
  if isBlob index then .unsupportedSignal
  else if rawValue < (signalAt index).rawMin ∨ rawValue > (signalAt index).rawMax then
    .valueOutOfRange
  else .ok

/-- The bound check of one blob byte, `data[i] < raw_min || data[i] > raw_max`. -/
def byteOutOfRange (index : ℕ) (byte : UInt8) : Bool :=
  byte.toUInt32 < (signalAt index).rawMin ∨ byte.toUInt32 > (signalAt index).rawMax

/-- `prv_check_blob` (`j1939_value_store.c:87-102`). -/
def checkBlob (b : Bank) (index : ℕ) : Status :=
  if b.blobIndex ≠ some index ∨ b.blobLength = 0 ∨ b.blobLength > blobCapacity index then
    .blobIncomplete
  else if (bytes b.blob 0 b.blobLength.toNat).any (byteOutOfRange index) then .valueOutOfRange
  else .ok

/-- `prv_clear_blob` (`j1939_value_store.c:104-109`). -/
def clearBlob (b : Bank) : Bank :=
  { b with blob := fun _ => 0, blobLength := 0, blobIndex := none }

/-- `k_magic`, the ASCII bytes `J1939CFG`. -/
def configMagic : List UInt8 := [0x4A, 0x31, 0x39, 0x33, 0x39, 0x43, 0x46, 0x47]

/-- The loop body of `prv_config_crc`. -/
def configCrcStep (b : Bank) (crc : UInt32) (i : ℕ) : UInt32 :=
  if test b.activeMask i = false then crc
  else
    let crc := Crc32.updateU16Le crc (signalAt i).signalKey
    if isBlob i then
      let crc := Crc32.updateU16Le crc b.blobLength
      Crc32.update crc (bytes b.blob 0 b.blobLength.toNat)
    else Crc32.updateU32Le crc (b.rawValue i)

/-- `prv_config_crc` (`j1939_value_store.c:111-130`). -/
def configCrc (b : Bank) : UInt32 :=
  let crc := Crc32.update Crc32.init configMagic
  let crc := Crc32.updateU32Le crc catalogCrc32
  Crc32.final ((List.range signalCount).foldl (configCrcStep b) crc)

/-- `prv_reject` (`j1939_value_store.c:133-139`): a rejection poisons an open
    transaction. -/
def reject (s : Store) (status : Status) : Store × Status :=
  (if s.txnState = .opened then { s with txnState := .rejected } else s, status)

/-- `prv_txn_ready` (`j1939_value_store.c:141-150`). -/
def txnReady (s : Store) : Status :=
  match s.txnState with
  | .idle => .noTransaction
  | .rejected => .transactionRejected
  | .opened => .ok

/-- A bank after `memset(0)` and `prv_clear_blob`. -/
def emptyBank : Bank where
  rawValue := fun _ => 0
  configCrc := 0
  blob := fun _ => 0
  blobLength := 0
  blobIndex := none
  activeMask := zero
  activeCount := 0

/-- `J1939_Value_Store_Init` (`j1939_value_store.c:152-159`). -/
def init : Store where
  bank := fun _ => { emptyBank with configCrc := configCrc emptyBank }
  generation := 0
  activeBank := false
  txnState := .idle
  blobWritten := zero
  blobWrittenCount := 0
  blobTouched := false

/-- `J1939_Value_Store_Check_Raw` (`j1939_value_store.c:161-169`). -/
def checkRaw (signalKey : UInt16) (rawValue : UInt32) : Status :=
  match indexFromKey signalKey with
  | none => .unknownKey
  | some index => checkIndex index rawValue

/-- `J1939_Value_Store_Begin` (`j1939_value_store.c:171-197`). -/
def begin (s : Store) (start : Begin) : Store × Status :=
  if s.txnState ≠ .idle then (s, .transactionOpen)
  else
    let staging :=
      match start with
      | .copyActive =>
        { s.staging with
          rawValue := s.active.rawValue
          activeMask := s.active.activeMask
          blob := s.active.blob
          blobLength := s.active.blobLength
          blobIndex := s.active.blobIndex }
      | .empty => clearBlob { s.staging with rawValue := fun _ => 0, activeMask := zero }
    ({ s.setStaging staging with
        blobWritten := zero
        blobWrittenCount := 0
        blobTouched := false
        txnState := .opened }, .ok)

/-- `J1939_Value_Store_Set_Raw` (`j1939_value_store.c:199-217`). -/
def setRaw (s : Store) (signalKey : UInt16) (rawValue : UInt32) : Store × Status :=
  if txnReady s ≠ .ok then (s, txnReady s)
  else if checkRaw signalKey rawValue ≠ .ok then reject s (checkRaw signalKey rawValue)
  else
    match indexFromKey signalKey with
    | none => (s, .ok)   -- unreachable: `checkRaw` accepts known keys only
    | some index =>
      (s.setStaging { s.staging with
        rawValue := Function.update s.staging.rawValue index rawValue
        activeMask := assign s.staging.activeMask index true }, .ok)

/-- What the copy loop of `J1939_Value_Store_Write_Blob` mutates: the blob, the
    written mask and the written count. -/
structure BlobProgress where
  blob : Mem
  written : Mask
  count : UInt16

/-- The copy loop body: store one byte, and count it when it is new. -/
def writeBlobByte (data : Mem) (offset : UInt16) (p : BlobProgress) (i : ℕ) : BlobProgress :=
  let pos := offset.toNat + i
  let blob := Function.update p.blob pos (data i)
  if test p.written pos then { p with blob := blob }
  else { blob := blob, written := assign p.written pos true, count := p.count + 1 }

/-- The staging bank a chunk is written into: the first chunk replaces any blob
    copied from the active bank (`j1939_value_store.c:254-260`). -/
def blobBank (s : Store) (index : ℕ) (totalLength : UInt16) : Bank :=
  if s.blobTouched then s.staging else
    { s.staging with blob := fun _ => 0, blobLength := totalLength, blobIndex := some index }

/-- The accepted part of `J1939_Value_Store_Write_Blob`
    (`j1939_value_store.c:253-271`). -/
def acceptBlob (s : Store) (index : ℕ) (totalLength offset : UInt16) (data : Mem)
    (count : UInt16) : Store :=
  let b := blobBank s index totalLength
  let p := (List.range count.toNat).foldl (writeBlobByte data offset)
    ⟨b.blob, s.blobWritten, s.blobWrittenCount⟩
  { s.setStaging { b with
      blob := p.blob
      activeMask := assign b.activeMask index true } with
    blobWritten := p.written
    blobWrittenCount := p.count
    blobTouched := true }

/-- The length and offset checks of `J1939_Value_Store_Write_Blob`
    (`j1939_value_store.c:240-247`). -/
def blobArgsInvalid (s : Store) (index : ℕ) (totalLength offset count : UInt16) : Prop :=
  totalLength = 0 ∨ totalLength > blobCapacity index ∨ count = 0 ∨
    offset ≥ totalLength ∨ count > totalLength - offset ∨
    (s.blobTouched ∧ totalLength ≠ s.staging.blobLength)

instance (s : Store) (index : ℕ) (totalLength offset count : UInt16) :
    Decidable (blobArgsInvalid s index totalLength offset count) :=
  inferInstanceAs (Decidable (_ ∨ _))

/-- `J1939_Value_Store_Write_Blob` (`j1939_value_store.c:219-272`). `data` is
    `none` for `NULL`, otherwise the bytes at the pointer. -/
def writeBlob (s : Store) (signalKey : UInt16) (totalLength offset : UInt16) (data : Option Mem)
    (count : UInt16) : Store × Status :=
  if txnReady s ≠ .ok then (s, txnReady s)
  else
    match indexFromKey signalKey with
    | none => reject s .unknownKey
    | some index =>
      match data with
      | none => reject s .unsupportedSignal
      | some data =>
        if isBlob index = false then reject s .unsupportedSignal
        else if s.staging.blobIndex ≠ none ∧ s.staging.blobIndex ≠ some index then
          reject s .resourceFull
        else if blobArgsInvalid s index totalLength offset count then reject s .valueOutOfRange
        else if (bytes data 0 count.toNat).any (byteOutOfRange index) then
          reject s .valueOutOfRange
        else (acceptBlob s index totalLength offset data count, .ok)

/-- `J1939_Value_Store_Staged_Blob_Bytes` (`j1939_value_store.c:274-277`). -/
def stagedBlobBytes (s : Store) : UInt16 :=
  if s.txnState = .idle then 0 else s.blobWrittenCount

/-- `J1939_Value_Store_Remove` (`j1939_value_store.c:279-299`). -/
def remove (s : Store) (signalKey : UInt16) : Store × Status :=
  if txnReady s ≠ .ok then (s, txnReady s)
  else
    match indexFromKey signalKey with
    | none => reject s .unknownKey
    | some index =>
      let b := { s.staging with activeMask := assign s.staging.activeMask index false }
      if b.blobIndex = some index then
        ({ s.setStaging (clearBlob b) with
            blobWritten := zero
            blobWrittenCount := 0
            blobTouched := false }, .ok)
      else (s.setStaging b, .ok)

/-- The whole-bank validation loop of `J1939_Value_Store_Commit`: it stops at
    the first bad record and counts the active ones. -/
def commitCheckStep (b : Bank) (acc : Status × UInt16) (i : ℕ) : Status × UInt16 :=
  if acc.1 = .ok ∧ test b.activeMask i then
    (if isBlob i then checkBlob b i else checkIndex i (b.rawValue i), acc.2 + 1)
  else acc

/-- The status and the record count `J1939_Value_Store_Commit` computes from
    the transaction and the staging bank (`j1939_value_store.c:303-329`). -/
def commitCheck (s : Store) : Status × UInt16 :=
  let b := s.staging
  let status := txnReady s
  let status :=
    if status = .ok ∧ s.blobTouched ∧ s.blobWrittenCount ≠ b.blobLength then .blobIncomplete
    else status
  let acc := (List.range signalCount).foldl (commitCheckStep b) (status, 0)
  let tail := b.activeMask (activeMaskBytes - 1)
  if acc.1 = .ok ∧ signalCount % 8 ≠ 0 ∧ tail >>> UInt8.ofNat (signalCount % 8) ≠ 0 then
    (.unknownKey, acc.2)
  else acc

/-- `prv_clear_blob` when the blob slot's record is not active
    (`j1939_value_store.c:330-334`). -/
def dropOrphanBlob (b : Bank) : Bank :=
  match b.blobIndex with
  | none => b
  | some index => if test b.activeMask index then b else clearBlob b

/-- `J1939_Value_Store_Commit` (`j1939_value_store.c:301-351`). The generation
    it reports is the one of the returned state. -/
def commit (s : Store) : Store × Status :=
  let (status, count) := commitCheck s
  let s :=
    if status = .ok then
      let b := dropOrphanBlob s.staging
      let b := { b with activeCount := count }
      let b := { b with configCrc := configCrc b }
      let generation := s.generation + 1
      { s.setStaging b with
        activeBank := !s.activeBank
        generation := if generation = 0 then 1 else generation }
    else s
  ({ s with txnState := .idle, blobTouched := false, blobWrittenCount := 0 }, status)

/-- `J1939_Value_Store_Abort` (`j1939_value_store.c:353-358`). -/
def abort (s : Store) : Store :=
  { s with txnState := .idle, blobTouched := false, blobWrittenCount := 0 }

/-- `J1939_Value_Store_In_Transaction`. -/
def inTransaction (s : Store) : Bool := s.txnState ≠ .idle

/-- `J1939_Value_Store_Is_Active` (`j1939_value_store.c:365-369`). -/
def isActive (s : Store) (index : ℕ) : Bool :=
  index < signalCount && test s.active.activeMask index

/-- `J1939_Value_Store_Get_Raw` (`j1939_value_store.c:371-379`). -/
def getRaw (s : Store) (index : ℕ) : Option UInt32 :=
  if isActive s index = false ∨ isBlob index then none else some (s.active.rawValue index)

/-- `J1939_Value_Store_Get_Blob` (`j1939_value_store.c:381-393`): the bytes at
    the returned pointer. -/
def getBlob (s : Store) (index : ℕ) : Option (List UInt8) :=
  if isActive s index = false ∨ s.active.blobIndex ≠ some index then none
  else some (bytes s.active.blob 0 s.active.blobLength.toNat)

/-- `J1939_Value_Store_Get_Active_Count`. -/
def getActiveCount (s : Store) : UInt16 := s.active.activeCount

/-- `J1939_Value_Store_Get_Generation`. -/
def getGeneration (s : Store) : UInt16 := s.generation

/-- `J1939_Value_Store_Get_Config_Crc`. -/
def getConfigCrc (s : Store) : UInt32 := s.active.configCrc

end J1939Gen.ValueStore
