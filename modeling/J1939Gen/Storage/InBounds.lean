import J1939Gen.Lib.CheckedMem
import J1939Gen.Storage.Build
import J1939Gen.Storage.Restore

/-!
# The parser reads inside the image buffer

`prv_parse` once more, over a buffer of `len` bytes: every read goes through the
length, and a read outside has no result. The length checks of the C code are
wrapping 16-bit subtractions and pass too easily when `44 + payload_length` wraps.
What keeps the reads inside is that the indices ascend: the records accepted so far
are then valid and distinct, and all valid records together take 1272 bytes.

* `Walked`: the offset is at the end of the records accepted so far.
* `parseIn_eq`: the parser over the image buffer is `parse`.

Main result `parse_safe_exact`.
-/

namespace J1939Gen.Storage

open Bitmask ByteMem CheckedMem ValueStore

variable {σ : Type}

/-! ## The parser with its reads -/

section Model

variable (len : ℕ) (m : Mem) (fin : UInt16) (visit : Visitor σ)

/-- The value part of a blob record (`j1939_profile_storage.c:149-173`). -/
def parseBlobIn (index : ℕ) (key : UInt16) (s : ParseState σ) : Option (ParseState σ × Status) :=
  if fin - s.offset < 2 then return (s, .invalidImage)
  else do
    let length ← loadU16 len m s.offset.toNat
    let s := { s with offset := s.offset + 2 }
    if length = 0 ∨ length > blobCapacity index ∨ fin - s.offset < length then
      return (s, .invalidImage)
    else
      let data ← loadBytes len m s.offset.toNat length.toNat
      if data.any (byteOutOfRange index) then return (s, .invalidImage)
      else
        let (context, accepted) := visit s.context key (.blob data)
        let s := { s with
          configCrc := Crc32.update (Crc32.updateU16Le s.configCrc length) data
          context := context }
        if accepted = false then return (s, .visitorRejected)
        else return ({ s with offset := s.offset + length, actualBlobs := s.actualBlobs + 1 }, .ok)

/-- The value part of a scalar record (`j1939_profile_storage.c:174-189`). -/
def parseScalarIn (index : ℕ) (key : UInt16) (s : ParseState σ) :
    Option (ParseState σ × Status) :=
  if fin - s.offset < 4 then return (s, .invalidImage)
  else do
    let raw ← loadU32 len m s.offset.toNat
    let s := { s with offset := s.offset + 4 }
    if raw < (signalAt index).rawMin ∨ raw > (signalAt index).rawMax then return (s, .invalidImage)
    else
      let (context, accepted) := visit s.context key (.scalar raw)
      let s := { s with
        configCrc := Crc32.updateU32Le s.configCrc raw
        context := context }
      if accepted = false then return (s, .visitorRejected)
      else return ({ s with actualScalars := s.actualScalars + 1 }, .ok)

/-- The body of the record loop of `prv_parse` (`j1939_profile_storage.c:129-190`). -/
def parseRecordIn (s : ParseState σ) : Option (ParseState σ × Status) :=
  if fin - s.offset < 2 then return (s, .invalidImage)
  else do
    let key ← loadU16 len m s.offset.toNat
    let s := { s with offset := s.offset + 2 }
    match indexFromKey key with
    | none => return (s, .invalidImage)
    | some index =>
      if s.previousIndex.any (fun p => decide (index ≤ p)) then return (s, .invalidImage)
      else if test s.seen index then
        return ({ s with previousIndex := some index }, .invalidImage)
      else
        let s := { s with
          previousIndex := some index
          seen := assign s.seen index true
          configCrc := Crc32.updateU16Le s.configCrc key }
        if isBlob index then parseBlobIn len m fin visit index key s
        else parseScalarIn len m fin visit index key s

/-- The record loop of `prv_parse`, with `n` records to go. -/
def parseRecordsIn : ℕ → ParseState σ → Option (ParseState σ × Status)
  | 0, s => return (s, .ok)
  | n + 1, s => do
    let r ← parseRecordIn len m fin visit s
    if r.2 = .ok then parseRecordsIn n r.1 else return r

/-- What `prv_parse` reports from the header. -/
def infoOfIn (slot : Slot) : Option Info := do
  let sequence ← loadU32 len m offSequence
  let configCrc ← loadU32 len m offConfigCrc
  let bitrateBps ← loadU32 len m offBitrateBps
  let signalCount ← loadU16 len m offSignalCount
  let scalarCount ← loadU16 len m offScalarCount
  let flags ← loadU16 len m offFlags
  let profileId ← load len m offProfileId
  let blobCount ← load len m offBlobCount
  return ⟨sequence, configCrc, bitrateBps, signalCount, scalarCount, flags, profileId, blobCount, slot⟩

/-- `prv_parse` (`j1939_profile_storage.c:94-225`). -/
def parseIn (slot : Slot) (context : σ) : Option (σ × Except Status Info) := do
  let payloadLength ← loadU16 len m offPayloadLength
  let signalCount' ← loadU16 len m offSignalCount
  let scalarCount ← loadU16 len m offScalarCount
  let blobCount ← load len m offBlobCount
  if signalCount'.toNat > signalCount ∨ scalarCount + blobCount.toUInt16 ≠ signalCount' ∨
      blobCount > 1 then return (context, .error .invalidImage)
  else
    let fin := headerBytes + payloadLength
    let (s, status) ← parseRecordsIn len m fin visit signalCount'.toNat (parseStart context)
    if status ≠ .ok then return (s.context, .error status)
    else
      let storedCrc ← loadU32 len m offConfigCrc
      if s.offset ≠ fin ∨ s.actualScalars ≠ scalarCount ∨ s.actualBlobs ≠ blobCount ∨
          Crc32.final s.configCrc ≠ storedCrc then return (s.context, .error .invalidImage)
      else
        let profileId ← load len m offProfileId
        if profileMatches profileId signalCount' s.seen = false then
          return (s.context, .error .invalidImage)
        else
          let info ← infoOfIn len m slot
          return (s.context, .ok info)

end Model

/-! ## Nothing outside the buffer is read -/

section InBounds

variable {m : Mem} {fin : UInt16} {visit : Visitor σ} {s : ParseState σ}

/-- From an offset of at most 1318 a blob stays inside the buffer. -/
theorem parseBlobIn_eq {index : ℕ} {key : UInt16} (h : s.offset.toNat ≤ 1318) :
    parseBlobIn imageMaxBytes m fin visit index key s =
      some (parseBlob m fin visit index key s) := by
  have hmax : imageMaxBytes = 1536 := rfl
  have hoff : (s.offset + 2).toNat = s.offset.toNat + 2 := toNat_add_two (by omega)
  unfold parseBlobIn parseBlob
  by_cases h1 : fin - s.offset < 2
  · rw [if_pos h1, if_pos h1]
    rfl
  rw [if_neg h1, if_neg h1, loadU16_of_le m (by omega)]
  dsimp only [Option.bind_eq_bind, Option.bind_some, Option.pure_def]
  by_cases h2 : readU16 m s.offset.toNat = 0 ∨ readU16 m s.offset.toNat > blobCapacity index ∨
      fin - (s.offset + 2) < readU16 m s.offset.toNat
  · rw [if_pos h2, if_pos h2]
  rw [if_neg h2, if_neg h2]
  -- the length is at most the capacity of the record
  have hcap : (readU16 m s.offset.toNat).toNat ≤ (blobCapacity index).toNat := by
    simp only [not_or] at h2
    exact UInt16.le_iff_toNat_le.mp (UInt16.not_lt.mp h2.2.1)
  have hle := blobCapacity_le index
  have hbytes : maxPayloadBytes = 200 := rfl
  rw [hoff, loadBytes_of_le m (by omega), Option.bind_some]
  by_cases h3 : (bytes m (s.offset.toNat + 2) (readU16 m s.offset.toNat).toNat).any
      (byteOutOfRange index) = true
  · rw [if_pos h3, if_pos h3]
  rw [if_neg h3, if_neg h3]
  split_ifs <;> rfl

theorem parseScalarIn_eq {index : ℕ} {key : UInt16} (h : s.offset.toNat ≤ 1318) :
    parseScalarIn imageMaxBytes m fin visit index key s =
      some (parseScalar m fin visit index key s) := by
  have hmax : imageMaxBytes = 1536 := rfl
  unfold parseScalarIn parseScalar
  by_cases h1 : fin - s.offset < 4
  · rw [if_pos h1, if_pos h1]
    rfl
  rw [if_neg h1, if_neg h1, loadU32_of_le m (by omega)]
  dsimp only [Option.bind_eq_bind, Option.bind_some, Option.pure_def]
  split_ifs <;> rfl

theorem parseRecordIn_eq (h : s.offset.toNat ≤ 1316) :
    parseRecordIn imageMaxBytes m fin visit s = some (parseRecord m fin visit s) := by
  have hmax : imageMaxBytes = 1536 := rfl
  have hoff : (s.offset + 2).toNat = s.offset.toNat + 2 := toNat_add_two (by omega)
  unfold parseRecordIn parseRecord
  by_cases h1 : fin - s.offset < 2
  · rw [if_pos h1, if_pos h1]
    rfl
  rw [if_neg h1, if_neg h1, loadU16_of_le m (by omega)]
  dsimp only [Option.bind_eq_bind, Option.bind_some, Option.pure_def]
  cases indexFromKey (readU16 m s.offset.toNat) with
  | none => rfl
  | some index =>
    dsimp only
    split_ifs
    · rfl
    · rfl
    · exact parseBlobIn_eq (by show (s.offset + 2).toNat ≤ 1318; omega)
    · exact parseScalarIn_eq (by show (s.offset + 2).toNat ≤ 1318; omega)

/-- The records `l` have been accepted, and the offset is at their end. -/
structure Walked (s : ParseState σ) (l : List Record) : Prop where
  wf : WfRecords l
  below : ∀ r ∈ l, ∃ p, s.previousIndex = some p ∧ r.1 ≤ p
  offset : s.offset.toNat = 44 + (encode l).length

/-- However long the image says it is, the offset stays in the first 1316 bytes. -/
theorem Walked.offset_le {l : List Record} (h : Walked s l) : s.offset.toNat ≤ 1316 := by
  have := h.wf.length_encode_le
  have := h.offset
  omega

theorem Walked.push {l : List Record} (h : Walked s l) {r : Record} (hv : r.Valid)
    (hf : Follows s r) (c : σ) : Walked (s.push r c) (l ++ [r]) := by
  have hbelow : ∀ q ∈ l, q.1 < r.1 := fun q hq => by
    obtain ⟨p, hp, hle⟩ := h.below q hq
    exact lt_of_le_of_lt hle (hf.1 p hp)
  have hwf : WfRecords (l ++ [r]) := by
    refine ⟨fun q hq => ?_, List.pairwise_append.mpr ⟨h.wf.ascending, List.pairwise_singleton _ _, ?_⟩⟩
    · rcases List.mem_append.mp hq with hq | hq
      · exact h.wf.valid q hq
      · rw [List.mem_singleton.mp hq]
        exact hv
    · intro q hq q' hq'
      rw [List.mem_singleton.mp hq']
      exact hbelow q hq
  have hlen : (encode (l ++ [r])).length = (encode l).length + r.bytes.length := by
    rw [encode_append, encode_cons, encode_nil, List.append_nil, List.length_append]
  have hle := hwf.length_encode_le
  refine ⟨hwf, fun q hq => ⟨r.1, rfl, ?_⟩, ?_⟩
  · rcases List.mem_append.mp hq with hq | hq
    · exact (hbelow q hq).le
    · rw [List.mem_singleton.mp hq]
  · have hoff := h.offset
    show (s.offset + UInt16.ofNat r.bytes.length).toNat = _
    rw [toNat_add_of_lt (by omega), hlen]
    omega

/-- The record loop, by induction on the records to go. -/
theorem parseRecordsIn_eq (n : ℕ) {l : List Record} (h : Walked s l) :
    parseRecordsIn imageMaxBytes m fin visit n s = some (parseRecords m fin visit n s) := by
  induction n generalizing s l with
  | zero => rfl
  | succ n ih =>
    have hle := h.offset_le
    rw [parseRecordsIn, parseRecords, parseRecordIn_eq hle]
    dsimp only [Option.bind_eq_bind, Option.bind_some, Option.pure_def]
    by_cases hok : (parseRecord m fin visit s).2 = .ok
    · rw [if_pos hok, if_pos hok]
      obtain ⟨r, hv, hf, -, hp⟩ := parseRecord_sound m fin visit (s := s) (by omega)
        (by rw [hok]; decide)
      have hacc : (visitRecord visit s.context r).2 = true := by
        by_contra hno
        have := (hp.2 (by simpa using hno)).1
        rw [hok] at this
        cases this
      rw [hp.1 hacc]
      exact ih (h.push hv hf _)
    · rw [if_neg hok, if_neg hok]

theorem walked_parseStart (c : σ) : Walked (parseStart c) [] :=
  ⟨⟨by simp, .nil⟩, by simp, rfl⟩

theorem infoOfIn_eq (m : Mem) (slot : Slot) : infoOfIn imageMaxBytes m slot = some (infoOf m slot) := by
  unfold infoOfIn
  rw [loadU32_of_le m (by decide), loadU32_of_le m (by decide), loadU32_of_le m (by decide),
    loadU16_of_le m (by decide), loadU16_of_le m (by decide), loadU16_of_le m (by decide),
    load_of_lt m (by decide), load_of_lt m (by decide)]
  rfl

end InBounds

/-- The parser reads inside the image buffer, whatever the buffer holds. -/
theorem parseIn_eq (m : Mem) (visit : Visitor σ) (slot : Slot) (c : σ) :
    parseIn imageMaxBytes m visit slot c = some (parse m slot visit c) := by
  unfold parseIn parse
  rw [loadU16_of_le m (by decide), loadU16_of_le m (by decide), loadU16_of_le m (by decide),
    load_of_lt m (by decide)]
  dsimp only [Option.bind_eq_bind, Option.bind_some, Option.pure_def]
  by_cases hcounts : (readU16 m offSignalCount).toNat > J1939Gen.signalCount ∨
      readU16 m offScalarCount + (m offBlobCount).toUInt16 ≠ readU16 m offSignalCount ∨
      m offBlobCount > 1
  · rw [if_pos hcounts, if_pos hcounts]
  rw [if_neg hcounts, if_neg hcounts, parseRecordsIn_eq _ (walked_parseStart c), Option.bind_some]
  have hcrc := loadU32_of_le m (show offConfigCrc + 4 ≤ imageMaxBytes by decide)
  have hprofile := load_of_lt m (show offProfileId < imageMaxBytes by decide)
  simp only [hcrc, hprofile, infoOfIn_eq, Option.bind_some]
  split_ifs <;> rfl

/-! ## What an accepted image is -/

/-- What the parser promises of an image it accepts: the length does not wrap, the
payload is exactly the records `l`, and these are what the header says. -/
structure Exact (m : Mem) (l : List Record) : Prop where
  noWrap : 44 + (readU16 m offPayloadLength).toNat < 65536
  payload : bytes m 44 (readU16 m offPayloadLength).toNat = encode l
  ascending : l.Pairwise fun r r' => r.1 < r'.1
  inRange : ∀ r ∈ l, r.Valid
  signalCount : (readU16 m offSignalCount).toNat = l.length
  scalarCount : (readU16 m offScalarCount).toNat = scalarsOf l
  blobCount : (m offBlobCount).toNat = blobsOf l
  configCrc : readU32 m offConfigCrc = (contentsOf l).crc
  profile : FitsProfile (m offProfileId) l

theorem Carries.exact {m : Mem} {l : List Record} (h : Carries m l)
    (hp : FitsProfile (m offProfileId) l) : Exact m l where
  noWrap := by
    have := h.wf.length_encode_le
    have := h.payloadLength
    omega
  payload := by rw [h.payloadLength]; exact h.payload
  ascending := h.wf.ascending
  inRange := h.wf.valid
  signalCount := h.signalCount
  scalarCount := h.scalarCount
  blobCount := h.blobCount
  configCrc := h.configCrc
  profile := hp

/-- Encoding the configuration of an image again gives its payload. -/
theorem Carries.rebuild {m : Mem} {l : List Record} (h : Carries m l) (hne : l ≠ []) {store : Store}
    (hs : Holds store (contentsOf l)) (profileId : UInt8) (bitrateBps : UInt32) (autostart : Bool)
    (sequence : UInt32) :
    ∃ m' total, buildImage store profileId bitrateBps autostart sequence = (m', .ok total) ∧
      readU16 m' offPayloadLength = readU16 m offPayloadLength ∧
      bytes m' 44 (readU16 m offPayloadLength).toNat =
        bytes m 44 (readU16 m offPayloadLength).toNat := by
  have hrecords : store.active.view.records = l := by rw [hs.view, records_contentsOf h.wf]
  have hcrc : getConfigCrc store = store.active.view.crc := by
    rw [hs.view]
    exact hs.crc
  obtain ⟨m', total, hbuild, -, hsealed, -⟩ :=
    (buildImage_of_wf hs.wf hcrc profileId bitrateBps autostart sequence).2 (by rw [hrecords]; exact hne)
  rw [hrecords] at hsealed
  have hcarries := hsealed.carries
  have hlen : readU16 m' offPayloadLength = readU16 m offPayloadLength := by
    rw [← UInt16.toNat_inj, hcarries.payloadLength, h.payloadLength]
  refine ⟨m', total, hbuild, hlen, ?_⟩
  rw [h.payloadLength]
  exact hcarries.payload.trans h.payload.symm

/-- **The parser is safe and exact.** Whatever the 1536 bytes of the image buffer,
whatever the visitors do: the parser reads inside the buffer, and what it accepts is
exact; some calls of the store lead to the configuration of an accepted image, and a
store that holds it encodes to the same payload unless the image is empty. -/
theorem parse_safe_exact (m : Mem) (visit : Visitor σ) (slot : Slot) (c : σ) :
    parseIn imageMaxBytes m visit slot c = some (parse m slot visit c) ∧
      ∀ c' info, parse m slot visit c = (c', .ok info) → ∃ l, Exact m l ∧
        (∃ ops, Holds (storeAfter ops) (contentsOf l)) ∧
        (l ≠ [] → ∀ store, Holds store (contentsOf l) →
          ∀ profileId bitrateBps autostart sequence, ∃ m' total,
            buildImage store profileId bitrateBps autostart sequence = (m', .ok total) ∧
            readU16 m' offPayloadLength = readU16 m offPayloadLength ∧
            bytes m' 44 (readU16 m offPayloadLength).toNat =
              bytes m 44 (readU16 m offPayloadLength).toNat) := by
  refine ⟨parseIn_eq m visit slot c, fun c' info h => ?_⟩
  obtain ⟨l, hcarries, hprofile, -, -⟩ := parse_sound h
  refine ⟨l, hcarries.exact hprofile, ⟨[] ++ restoreOps l, ?_⟩, fun hne store hs =>
    hcarries.rebuild hne hs⟩
  exact (storeAfter_restore hcarries.wf rfl).2

end J1939Gen.Storage
