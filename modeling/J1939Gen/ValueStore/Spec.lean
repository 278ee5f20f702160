import J1939Gen.ValueStore.Model
import J1939Gen.Catalog.Facts
import J1939Gen.Lib.TxnStore

/-!
# What the value store is for

The abstract store is a finite map from catalog indices to a scalar value or
blob bytes, changed by transactions (`TxnStore`). The module also states what
the configuration CRC identifies: the byte stream of the map.

* `configCrc_eq`: the CRC loop over a bank computes the CRC of the bank's view.
-/

namespace J1939Gen.ValueStore

open Bitmask ByteMem

/-- The value of one active record. -/
inductive Entry
  | scalar (raw : UInt32)
  | blob (data : List UInt8)
deriving DecidableEq, Repr

/-- A configuration: the active records and their values. -/
abbrev Contents := ℕ → Option Entry

/-- The empty configuration. -/
def Contents.empty : Contents := fun _ => none

/-- The number of active records. -/
def Contents.count (c : Contents) : ℕ :=
  ((Finset.range signalCount).filter fun i => (c i).isSome = true).card

/-! ## The configuration CRC -/

/-- The bytes one active record contributes: its key and its value. -/
def entryBytes (i : ℕ) : Entry → List UInt8
  | .scalar raw => le16 (signalAt i).signalKey ++ le32 raw
  | .blob data => le16 (signalAt i).signalKey ++ le16 (UInt16.ofNat data.length) ++ data

/-- The active records in ascending catalog index. -/
def Contents.stream (c : Contents) : List UInt8 :=
  (List.range signalCount).flatMap fun i => (c i).elim [] (entryBytes i)

/-- The CRC of the header comment of `j1939_value_store.h` (lines 15–23). -/
def Contents.crc (c : Contents) : UInt32 :=
  Crc32.final (Crc32.update Crc32.init (configMagic ++ le32 catalogCrc32 ++ c.stream))

/-! ## The transactional specification -/

/-- A draft configuration, and the blob bytes written since its blob was
    started anew (`none` while the blob is untouched). -/
structure Draft where
  contents : Contents
  written : Option (Finset ℕ)

/-- The writes of a transaction, with the arguments of the C calls. -/
inductive Write
  | setRaw (signalKey : UInt16) (rawValue : UInt32)
  | writeBlob (signalKey totalLength offset : UInt16) (data : Option Mem) (count : UInt16)
  | remove (signalKey : UInt16)

/-- Overwrite `data` from position `offset` on with `chunk`. -/
def splice (data : List UInt8) (offset : ℕ) (chunk : List UInt8) : List UInt8 :=
  data.take offset ++ chunk ++ data.drop (offset + chunk.length)

/-- The writes a draft accepts. -/
def Draft.Admits (d : Draft) : Write → Prop
  | .setRaw key raw => ∃ i, indexFromKey key = some i ∧ checkIndex i raw = .ok
  | .writeBlob key total offset data count => ∃ i mem,
      indexFromKey key = some i ∧ data = some mem ∧ isBlob i = true ∧
      (∀ j, j ≠ i → isBlob j = true → d.contents j = none) ∧
      0 < total.toNat ∧ total ≤ blobCapacity i ∧ 0 < count.toNat ∧
      offset.toNat + count.toNat ≤ total.toNat ∧
      (d.written ≠ none → ∃ old, d.contents i = some (.blob old) ∧ old.length = total.toNat) ∧
      ∀ b ∈ bytes mem 0 count.toNat, byteOutOfRange i b = false
  | .remove key => ∃ i, indexFromKey key = some i

/-- The blob a chunk is written into: the one being written, or zeroes. -/
def Draft.blobBase (d : Draft) (i total : ℕ) : List UInt8 :=
  match d.written, d.contents i with
  | some _, some (.blob old) => old
  | _, _ => List.replicate total 0

/-- The effect of an accepted write. -/
def Draft.apply (d : Draft) : Write → Draft
  | .setRaw key raw =>
    match indexFromKey key with
    | none => d
    | some i => { d with contents := Function.update d.contents i (some (.scalar raw)) }
  | .writeBlob key total offset data count =>
    match indexFromKey key, data with
    | some i, some mem =>
      { contents := Function.update d.contents i (some (.blob
          (splice (d.blobBase i total.toNat) offset.toNat (bytes mem 0 count.toNat))))
        written := some (d.written.getD ∅ ∪
          Finset.Ico offset.toNat (offset.toNat + count.toNat)) }
    | _, _ => d
  | .remove key =>
    match indexFromKey key with
    | none => d
    | some i =>
      { contents := Function.update d.contents i none
        written := match d.contents i with
          | some (.blob _) => none
          | _ => d.written }

/-- Every byte of a touched blob was written. -/
def Draft.Complete (d : Draft) : Prop :=
  ∀ w, d.written = some w → ∀ i data, d.contents i = some (.blob data) →
    ∀ p < data.length, p ∈ w

/-- The abstract value store. -/
def kind : TxnStore.Kind Contents Draft Write where
  empty := Contents.empty
  start := fun c => ⟨c, none⟩
  admits := Draft.Admits
  apply := Draft.apply
  complete := Draft.Complete
  publish := Draft.contents

/-- The generation after `n` commits: 16-bit, skipping zero when it wraps. -/
def generationOf : ℕ → UInt16
  | 0 => 0
  | n + 1 => UInt16.ofNat (n % 65535 + 1)

/-! ## Views of a bank -/

/-- What a bank stores, as a configuration. -/
def Bank.view (b : Bank) : Contents := fun i =>
  if i < signalCount ∧ test b.activeMask i = true then
    some (if isBlob i then .blob (bytes b.blob 0 b.blobLength.toNat) else .scalar (b.rawValue i))
  else none

theorem Bank.view_isSome (b : Bank) {i : ℕ} (hi : i < signalCount) :
    (b.view i).isSome = test b.activeMask i := by
  cases h : test b.activeMask i <;> simp [Bank.view, hi, h]

theorem Bank.count_view (b : Bank) : b.view.count = card b.activeMask signalCount := by
  unfold Contents.count card
  congr 1
  refine Finset.filter_congr fun i hi => ?_
  rw [b.view_isSome (Finset.mem_range.mp hi)]

theorem configCrcStep_eq (b : Bank) (crc : UInt32) {i : ℕ} (hi : i < signalCount) :
    configCrcStep b crc i = Crc32.update crc ((b.view i).elim [] (entryBytes i)) := by
  unfold configCrcStep Bank.view
  cases h : test b.activeMask i with
  | false => simp
  | true =>
    simp only [Bool.true_eq_false, if_false, hi, true_and, if_true, Option.elim_some]
    split_ifs with hb
    · simp [entryBytes, Crc32.updateU16Le_eq, Crc32.update_append]
    · simp [entryBytes, Crc32.updateU16Le_eq, Crc32.updateU32Le_eq, Crc32.update_append]

theorem foldl_configCrcStep (b : Bank) (l : List ℕ) (hl : ∀ i ∈ l, i < signalCount)
    (crc : UInt32) :
    l.foldl (configCrcStep b) crc =
      Crc32.update crc (l.flatMap fun i => (b.view i).elim [] (entryBytes i)) := by
  induction l generalizing crc with
  | nil => rfl
  | cons i l ih =>
    rw [List.foldl_cons, configCrcStep_eq b crc (hl i (by simp)),
      ih (fun j hj => hl j (by simp [hj])), List.flatMap_cons, Crc32.update_append]

/-- The loop of `prv_config_crc` computes the CRC of what the bank stores. -/
theorem configCrc_eq (b : Bank) : configCrc b = b.view.crc := by
  unfold configCrc Contents.crc
  simp only
  rw [foldl_configCrcStep b _ (fun i hi => List.mem_range.mp hi), Crc32.updateU32Le_eq,
    ← Crc32.update_append, ← Crc32.update_append]
  rfl

end J1939Gen.ValueStore
