import J1939Gen.Storage.Parse

/-!
# What the encoder writes

The image built from a well-formed store carries the store's records, with the
header fields and the CRC the loader expects; only the valid marker is still
erased.

* `buildImage_of_wf`: the encoder succeeds exactly on a non-empty configuration.
* `Sealed`: what the buffer holds before a slot is written; `buildHeader_sealed`.
-/

namespace J1939Gen.Storage

open Bitmask ByteMem ValueStore

/-! ## The record loop -/

/-- The records `l` have been appended to the image. -/
structure Built (s : BuildState) (l : List Record) : Prop where
  ok : s.failed = false
  offset : s.offset.toNat = 44 + (encode l).length
  payload : bytes s.image 44 (encode l).length = encode l
  scalars : s.scalarCount = UInt16.ofNat (scalarsOf l)
  blobs : s.blobCount = UInt8.ofNat (blobsOf l)

theorem scalarsOf_concat (l : List Record) (r : Record) :
    scalarsOf (l ++ [r]) = scalarsOf l + if r.isBlob then 0 else 1 := by
  rw [scalarsOf, List.countP_append, List.countP_singleton]
  cases r.isBlob <;> rfl

theorem blobsOf_concat (l : List Record) (r : Record) :
    blobsOf (l ++ [r]) = blobsOf l + if r.isBlob then 1 else 0 := by
  rw [blobsOf, List.countP_append, List.countP_singleton]
  rfl

/-- Appending the bytes of a record at the offset. -/
theorem Built.append_bytes {s : BuildState} {l : List Record} (h : Built s l) {r : Record} {m : Mem}
    (hbelow : ∀ i < s.offset.toNat, m i = s.image i)
    (hr : bytes m s.offset.toNat r.bytes.length = r.bytes) :
    bytes m 44 (encode (l ++ [r])).length = encode (l ++ [r]) := by
  have hsame : bytes m 44 (encode l).length = encode l := by
    rw [← h.payload, length_bytes]
    exact bytes_congr fun i _ hi => hbelow i (by rw [h.offset]; omega)
  rw [encode_append, List.length_append, bytes_add, hsame, ← h.offset, encode_cons, encode_nil,
    List.append_nil, hr]

theorem isActive_eq (store : Store) {i : ℕ} (hi : i < signalCount) :
    isActive store i = (store.active.view i).isSome := by
  rw [isActive, store.active.view_isSome hi]
  simp [hi]

section Record

variable {store : Store} {s : BuildState} {l : List Record} {i : ℕ}

theorem buildRecord_inactive (hi : i < signalCount) (hv : store.active.view i = none) :
    buildRecord store s i = s := by
  have hact := isActive_eq store hi
  rw [hv] at hact
  rw [buildRecord, if_pos (.inr hact)]

theorem getRaw_of_view (hi : i < signalCount) {raw : UInt32}
    (hv : store.active.view i = some (.scalar raw)) :
    isBlob i = false ∧ getRaw store i = some raw := by
  have hact := isActive_eq store hi
  rw [hv] at hact
  unfold Bank.view at hv
  split_ifs at hv with h1 h2
  · cases hv
  · injection hv with hv
    injection hv with hv
    have hb : isBlob i = false := by simpa using h2
    exact ⟨hb, by rw [getRaw, if_neg (by simp [hact, hb]), ← hv]⟩

theorem getBlob_of_view (hw : store.active.Wf) (hi : i < signalCount) {data : List UInt8}
    (hv : store.active.view i = some (.blob data)) :
    isBlob i = true ∧ getBlob store i = some data := by
  have hact := isActive_eq store hi
  rw [hv] at hact
  have ht : test store.active.activeMask i = true := by
    rw [← store.active.view_isSome hi, hv]; rfl
  unfold Bank.view at hv
  split_ifs at hv with h1 h2
  · injection hv with hv
    injection hv with hv
    exact ⟨h2, by rw [getBlob, if_neg (by simp [hact, hw.blob i hi ht h2]), hv]⟩
  · cases hv

/-- One turn of the record loop appends the record of an active index. -/
theorem Built.step (h : Built s l) (hw : store.active.Wf) (hi : i < signalCount) {e : Entry}
    (hv : store.active.view i = some e) (hfit : (encode (l ++ [(i, e)])).length ≤ 1272) :
    Built (buildRecord store s i) (l ++ [(i, e)]) := by
  have hact := isActive_eq store hi
  rw [hv] at hact
  have hoff := h.offset
  have hlen : (encode (l ++ [(i, e)])).length = (encode l).length + (Record.bytes (i, e)).length := by
    rw [encode_append, List.length_append, encode_cons, encode_nil, List.append_nil]
  rw [hlen] at hfit
  unfold buildRecord
  rw [if_neg (by simp [h.ok, hact])]
  dsimp only
  rcases e with raw | data
  · obtain ⟨hb, hraw⟩ := getRaw_of_view hi hv
    rw [Record.length_bytes_scalar] at hfit hlen
    rw [if_neg (by simp [hb]), hraw]
    dsimp only
    rw [if_neg (by simp only [imageMaxBytes]; omega)]
    refine ⟨h.ok, ?_, h.append_bytes ?_ ?_, ?_, ?_⟩
    · rw [hlen, ← Nat.add_assoc, ← hoff]
      exact toNat_add_of_lt (n := 6) (by omega)
    · intro k hk
      dsimp only
      rw [writeU32_of_ne _ _ (by omega), writeU16_of_ne _ _ (by omega)]
    · rw [Record.length_bytes_scalar, bytes_scalar_iff, readU32_writeU32,
        readU16_writeU32_of_ne _ _ (by omega), readU16_writeU16]
      exact ⟨rfl, rfl⟩
    · rw [scalarsOf_concat, UInt16.ofNat_add, ← h.scalars]
      rfl
    · rw [blobsOf_concat]
      exact h.blobs
  · obtain ⟨hb, hdata⟩ := getBlob_of_view hw hi hv
    rw [Record.length_bytes_blob] at hfit hlen
    have hn : (UInt16.ofNat data.length).toNat = data.length := by
      simp only [UInt16.toNat_ofNat']; omega
    rw [if_pos hb, hdata]
    dsimp only
    rw [if_neg (by simp only [imageMaxBytes]; omega)]
    refine ⟨h.ok, ?_, h.append_bytes ?_ ?_, ?_, ?_⟩
    · have h4 : (s.offset + 4).toNat = s.offset.toNat + 4 := toNat_add_of_lt (n := 4) (by omega)
      rw [hlen, toNat_add_of_lt (by omega), h4, hoff]
      omega
    · intro k hk
      dsimp only
      rw [copy_of_not_mem _ _ (by omega), writeU16_of_ne _ _ (by omega),
        writeU16_of_ne _ _ (by omega)]
    · have hcopy : ∀ (d : Mem) (src : Mem), readU16 (copy d (s.offset.toNat + 4) src data.length)
          s.offset.toNat = readU16 d s.offset.toNat := fun d src =>
        readU16_congr (copy_of_not_mem _ _ (by omega)) (copy_of_not_mem _ _ (by omega))
      have hcopy' : ∀ (d : Mem) (src : Mem), readU16 (copy d (s.offset.toNat + 4) src data.length)
          (s.offset.toNat + 2) = readU16 d (s.offset.toNat + 2) := fun d src =>
        readU16_congr (copy_of_not_mem _ _ (by omega)) (copy_of_not_mem _ _ (by omega))
      rw [Record.length_bytes_blob, bytes_blob_iff (by omega), hcopy, hcopy',
        readU16_writeU16_of_ne _ _ (by omega), readU16_writeU16, readU16_writeU16, hn, bytes_copy]
      refine ⟨rfl, rfl, ?_⟩
      refine List.ext_getElem (by simp) fun k h1 h2 => ?_
      rw [getElem_bytes, Nat.zero_add, List.getD_eq_getElem _ _ h2]
    · rw [scalarsOf_concat]
      exact h.scalars
    · rw [blobsOf_concat, UInt8.ofNat_add, ← h.blobs]
      rfl

end Record

/-- The record loop appends every record of the store. -/
theorem Built.foldl {store : Store} (hw : store.active.Wf) (idx : List ℕ)
    (hidx : ∀ i ∈ idx, i < signalCount) {s : BuildState} {l : List Record} (h : Built s l)
    (hfit : (encode (l ++ idx.filterMap fun i => (store.active.view i).map fun e => (i, e))).length
      ≤ 1272) :
    Built (idx.foldl (buildRecord store) s)
      (l ++ idx.filterMap fun i => (store.active.view i).map fun e => (i, e)) := by
  induction idx generalizing s l with
  | nil => simpa using h
  | cons i idx ih =>
    have hrest : ∀ j ∈ idx, j < signalCount := fun j hj => hidx j (by simp [hj])
    rw [List.foldl_cons]
    cases hv : store.active.view i with
    | none =>
      rw [List.filterMap_cons, hv] at hfit ⊢
      rw [buildRecord_inactive (hidx i (by simp)) hv]
      exact ih hrest h hfit
    | some e =>
      rw [List.filterMap_cons, hv, Option.map_some] at hfit ⊢
      dsimp only at hfit ⊢
      rw [List.append_cons] at hfit ⊢
      refine ih hrest (h.step hw (hidx i (by simp)) hv ?_) hfit
      rw [encode_append, List.length_append] at hfit
      omega

/-! ## The header -/

/-- What the buffer holds once an image is complete but for the valid marker. -/
structure Sealed (m : Mem) (l : List Record) : Prop where
  magic : readU32 m offMagic = magic
  formatVersion : readU16 m offFormatVersion = formatVersion
  headerLength : readU16 m offHeaderLength = headerBytes
  catalogCrc : readU32 m offCatalogCrc = catalogCrc32
  reserved : readU16 m offReserved = 0
  carries : Carries m l
  imageCrc : imageCrc m (headerBytes + readU16 m offPayloadLength) = readU32 m offImageCrc

/-- The image CRC does not read its own field or the marker. -/
theorem imageCrc_congr {m m' : Mem} {n : UInt16}
    (h : ∀ i < n.toNat, i < 20 ∨ 24 ≤ i → i < 40 ∨ 44 ≤ i → m i = m' i) :
    imageCrc m n = imageCrc m' n := by
  unfold imageCrc
  dsimp only
  congr 2
  refine bytes_congr fun i _ hi => ?_
  have hin : ∀ (d d' : Mem) p v, p ≤ i ∧ i < p + 4 → writeU32 d p v i = writeU32 d' p v i := by
    intro d d' p v hp
    unfold writeU32
    rcases (by omega : i = p ∨ i = p + 1 ∨ i = p + 2 ∨ i = p + 3) with rfl | rfl | rfl | rfl <;>
      simp
  have hout : ∀ (d : Mem) p v, ¬ (p ≤ i ∧ i < p + 4) → writeU32 d p v i = d i :=
    fun d p v hp => writeU32_of_ne d v (by omega)
  by_cases h40 : 40 ≤ i ∧ i < 40 + 4
  · exact hin _ _ _ _ h40
  rw [hout _ 40 _ h40, hout _ 40 _ h40]
  by_cases h20 : 20 ≤ i ∧ i < 20 + 4
  · exact hin _ _ _ _ h20
  rw [hout _ 20 _ h20, hout _ 20 _ h20]
  exact h i (by omega) (by omega) (by omega)

theorem imageCrc_writeCrc (m : Mem) (n : UInt16) (v : UInt32) :
    imageCrc (writeU32 m offImageCrc v) n = imageCrc m n :=
  imageCrc_congr fun i _ h _ => writeU32_of_ne m v (by omega)

section Header

variable (store : Store) (profileId : UInt8) (bitrateBps : UInt32) (autostart : Bool)
  (sequence : UInt32) (s : BuildState)

/-- The header writes stay below the records. -/
theorem buildHeader_of_le {i : ℕ} (h : 44 ≤ i) :
    buildHeader store profileId bitrateBps autostart sequence s i = s.image i := by
  unfold buildHeader
  dsimp only [offMagic, offFormatVersion, offHeaderLength, offCatalogCrc, offSequence, offConfigCrc,
    offImageCrc, offBitrateBps, offPayloadLength, offSignalCount, offScalarCount, offProfileId,
    offBlobCount, offFlags, offReserved, offValidMarker]
  simp (disch := omega) only [writeU32_of_ne, writeU16_of_ne, Function.update_of_ne]

/-- What the header of a built image reads as. -/
theorem infoOf_buildHeader (slot : Slot) :
    infoOf (buildHeader store profileId bitrateBps autostart sequence s) slot =
      { sequence := sequence
        configCrc := getConfigCrc store
        bitrateBps := bitrateBps
        signalCount := s.scalarCount + s.blobCount.toUInt16
        scalarCount := s.scalarCount
        flags := if autostart then flagAutostart else 0
        profileId := profileId
        blobCount := s.blobCount
        slot := slot } := by
  unfold infoOf buildHeader
  dsimp only
  simp (disch := decide) only [readU32_writeU32, readU16_writeU16, readU16_writeU16_of_ne,
    readU16_writeU32_of_ne, readU32_writeU16_of_ne, readU32_writeU32_of_ne, readU16_update_of_ne,
    readU32_update_of_ne, writeU16_of_ne, writeU32_of_ne, Function.update_self,
    Function.update_of_ne]

variable {s} {l : List Record}

theorem bytes_buildHeader (n : ℕ) :
    bytes (buildHeader store profileId bitrateBps autostart sequence s) 44 n =
      bytes s.image 44 n :=
  bytes_congr fun _ hi _ => buildHeader_of_le store profileId bitrateBps autostart sequence s hi

theorem payloadLength_buildHeader :
    readU16 (buildHeader store profileId bitrateBps autostart sequence s) offPayloadLength =
      s.offset - headerBytes := by
  unfold buildHeader
  simp (disch := decide) only [readU16_writeU16, readU16_writeU16_of_ne, readU16_writeU32_of_ne,
    readU16_update_of_ne]

/-- A built image carries the records of the store. -/
theorem Built.carries (h : Built s l) (hl : WfRecords l)
    (hcrc : getConfigCrc store = (contentsOf l).crc) :
    Carries (buildHeader store profileId bitrateBps autostart sequence s) l := by
  have hlen := hl.length_le
  have hsum := scalarsOf_add_blobsOf l
  have hblobs := hl.blobsOf_le
  have hinfo := infoOf_buildHeader store profileId bitrateBps autostart sequence s .a
  have hs : s.scalarCount.toNat = scalarsOf l := by
    rw [h.scalars]; simp only [UInt16.toNat_ofNat']
    exact Nat.mod_eq_of_lt (by unfold J1939Gen.signalCount at hlen; omega)
  have hb : s.blobCount.toNat = blobsOf l := by
    rw [h.blobs]; simp only [UInt8.toNat_ofNat']; omega
  have hoff : headerBytes ≤ s.offset := by
    rw [UInt16.le_iff_toNat_le, h.offset]; exact Nat.le_add_right 44 _
  constructor
  · exact hl
  · rw [show readU16 _ offSignalCount = _ from congrArg Info.signalCount hinfo]
    rw [UInt16.toNat_add, UInt8.toNat_toUInt16, hs, hb, hsum]
    exact Nat.mod_eq_of_lt (lt_of_le_of_lt hlen (by decide))
  · rw [show readU16 _ offScalarCount = _ from congrArg Info.scalarCount hinfo, hs]
  · rw [show buildHeader store profileId bitrateBps autostart sequence s offBlobCount = _ from
      congrArg Info.blobCount hinfo, hb]
  · rw [payloadLength_buildHeader, UInt16.toNat_sub_of_le _ _ hoff, h.offset]
    exact Nat.add_sub_cancel_left 44 _
  · rw [show headerBytes.toNat = 44 from rfl, bytes_buildHeader, h.payload]
  · rw [show readU32 _ offConfigCrc = _ from congrArg Info.configCrc hinfo, hcrc]

theorem Built.sealed (h : Built s l) (hl : WfRecords l)
    (hcrc : getConfigCrc store = (contentsOf l).crc) :
    Sealed (buildHeader store profileId bitrateBps autostart sequence s) l := by
  refine ⟨?_, ?_, ?_, ?_, ?_, h.carries store profileId bitrateBps autostart sequence hl hcrc, ?_⟩
  iterate 5
    unfold buildHeader
    simp (disch := decide) only [readU32_writeU32, readU16_writeU16, readU16_writeU16_of_ne,
      readU16_writeU32_of_ne, readU32_writeU16_of_ne, readU32_writeU32_of_ne,
      readU16_update_of_ne, readU32_update_of_ne]
  rw [payloadLength_buildHeader, show headerBytes + (s.offset - headerBytes) = s.offset by grind]
  unfold buildHeader
  dsimp only
  rw [imageCrc_writeCrc, readU32_writeU32]

end Header

/-! ## The whole encoder -/

/-- The encoder refuses the empty configuration, and writes any other one. -/
theorem buildImage_of_wf {store : Store} (hw : store.active.Wf)
    (hcrc : getConfigCrc store = store.active.view.crc) (profileId : UInt8) (bitrateBps : UInt32)
    (autostart : Bool) (sequence : UInt32) :
    let l := store.active.view.records
    (l = [] → (buildImage store profileId bitrateBps autostart sequence).2 =
      .error .unsupportedConfig) ∧
    (l ≠ [] → ∃ m total, buildImage store profileId bitrateBps autostart sequence = (m, .ok total) ∧
      total = headerBytes + readU16 m offPayloadLength ∧ Sealed m l ∧
      ∀ slot, infoOf m slot =
        { sequence := sequence
          configCrc := store.active.view.crc
          bitrateBps := bitrateBps
          signalCount := UInt16.ofNat l.length
          scalarCount := UInt16.ofNat (scalarsOf l)
          flags := if autostart then flagAutostart else 0
          profileId := profileId
          blobCount := UInt8.ofNat (blobsOf l)
          slot := slot }) := by
  intro l
  have hl : WfRecords l := hw.wfRecords
  have hcont : contentsOf l = store.active.view :=
    contentsOf_records fun i hi => (Bank.Wf.lt hw (by
      by_contra ht
      rw [hw.view_eq, if_neg ht] at hi
      exact hi rfl))
  have hstart : Built ⟨fun _ => 0xFF, headerBytes, 0, 0, false⟩ [] := ⟨rfl, rfl, rfl, rfl, rfl⟩
  have hbuilt := hstart.foldl hw (List.range signalCount) (fun i hi => List.mem_range.mp hi)
    hl.length_encode_le
  rw [List.nil_append] at hbuilt
  change Built _ l at hbuilt
  unfold buildImage
  dsimp only
  generalize (List.range signalCount).foldl (buildRecord store) ⟨fun _ => 0xFF, headerBytes, 0, 0, false⟩
    = s at hbuilt
  have hlen := hl.length_le
  have hblobs := hl.blobsOf_le
  have hb : s.blobCount.toUInt16 = UInt16.ofNat (blobsOf l) := by
    rw [hbuilt.blobs, ← UInt16.toNat_inj]
    simp only [UInt8.toNat_toUInt16, UInt8.toNat_ofNat', UInt16.toNat_ofNat']
    omega
  have hsig : s.scalarCount + s.blobCount.toUInt16 = UInt16.ofNat l.length := by
    rw [hbuilt.scalars, hb, ← UInt16.ofNat_add, scalarsOf_add_blobsOf]
  have hone : ¬ s.blobCount > 1 := by
    rw [hbuilt.blobs, gt_iff_lt, UInt8.lt_iff_toNat_lt]
    simp only [UInt8.toNat_ofNat', UInt8.reduceToNat]
    omega
  rw [if_neg (by simp [hbuilt.ok]), hsig]
  constructor
  · intro hnil
    rw [if_pos (.inl (by rw [hnil]; rfl))]
  · intro hne
    have hpos : UInt16.ofNat l.length ≠ 0 := by
      rw [ne_eq, ← UInt16.toNat_inj]
      simp only [UInt16.toNat_ofNat', UInt16.reduceToNat]
      have := List.length_pos_iff.mpr hne
      unfold J1939Gen.signalCount at hlen
      omega
    rw [if_neg (by simp [hpos, hone])]
    have hoff : headerBytes ≤ s.offset := by
      rw [UInt16.le_iff_toNat_le, hbuilt.offset]; exact Nat.le_add_right 44 _
    refine ⟨_, _, rfl, ?_, hbuilt.sealed store profileId bitrateBps autostart sequence hl
      (by rw [hcrc, hcont]), fun slot => ?_⟩
    · rw [payloadLength_buildHeader]; grind
    · rw [infoOf_buildHeader, hsig, hcrc, hbuilt.scalars, hbuilt.blobs]

end J1939Gen.Storage
