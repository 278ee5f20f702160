import J1939Gen.Storage.Image

/-!
# What the parser accepts

`parse` accepts exactly the images that carry an encoded list of valid,
ascending records together with matching header fields, and it visits exactly
those records in order.

* `parseRecord_of_bytes`, `parseRecord_sound`: one record, both directions.
* `parseRecords_of_bytes`, `parseRecords_sound`: the loop.
* `parse_of_carries`: an image that carries records is parsed to them.
* `parse_sound`: a parsed image carries records.
-/

namespace J1939Gen.Storage

open Bitmask ByteMem ValueStore

variable {σ : Type*}

/-- Visit one record. -/
def visitRecord (visit : Visitor σ) (context : σ) (r : Record) : σ × Bool :=
  visit context (signalAt r.1).signalKey r.2

/-- Visit records in order, up to the first the visitor rejects. -/
def visitAll (visit : Visitor σ) : σ → List Record → σ × Bool
  | c, [] => (c, true)
  | c, r :: l =>
    if (visitRecord visit c r).2 = true then visitAll visit (visitRecord visit c r).1 l
    else ((visitRecord visit c r).1, false)

/-- The parser state after an accepted record. -/
def ParseState.push (s : ParseState σ) (r : Record) (context : σ) : ParseState σ where
  offset := s.offset + UInt16.ofNat r.bytes.length
  previousIndex := some r.1
  seen := assign s.seen r.1 true
  configCrc := Crc32.update s.configCrc r.bytes
  actualScalars := if r.isBlob then s.actualScalars else s.actualScalars + 1
  actualBlobs := if r.isBlob then s.actualBlobs + 1 else s.actualBlobs
  context := context

/-- The record comes after everything parsed so far. -/
def Follows (s : ParseState σ) (r : Record) : Prop :=
  (∀ p, s.previousIndex = some p → p < r.1) ∧ test s.seen r.1 = false

/-- What parsing record `r` in state `s` results in. -/
def Parsed (visit : Visitor σ) (s : ParseState σ) (r : Record)
    (result : ParseState σ × Status) : Prop :=
  let v := visitRecord visit s.context r
  (v.2 = true → result = (s.push r v.1, .ok)) ∧
    (v.2 = false → result.2 = .visitorRejected ∧ result.1.context = v.1)

/-! ## Bytes of a record -/

section RecordBytes

variable {m : Mem} {o i : ℕ}

theorem bytes_scalar_iff {raw : UInt32} :
    bytes m o 6 = Record.bytes (i, .scalar raw) ↔
      readU16 m o = (signalAt i).signalKey ∧ readU32 m (o + 2) = raw := by
  have hsplit : bytes m o 6 = le16 (readU16 m o) ++ le32 (readU32 m (o + 2)) := by
    rw [bytes_add m o 2 4, bytes_readU16, bytes_readU32]
  rw [hsplit, Record.bytes, entryBytes]
  constructor
  · intro h
    obtain ⟨h1, h2⟩ := List.append_inj h rfl
    exact ⟨le16_inj h1, le32_inj h2⟩
  · rintro ⟨h1, h2⟩
    rw [h1, h2]

theorem bytes_blob_iff {data : List UInt8} (hd : data.length < 65536) :
    bytes m o (4 + data.length) = Record.bytes (i, .blob data) ↔
      readU16 m o = (signalAt i).signalKey ∧ (readU16 m (o + 2)).toNat = data.length ∧
        bytes m (o + 4) data.length = data := by
  have hsplit : bytes m o (4 + data.length) =
      (le16 (readU16 m o) ++ le16 (readU16 m (o + 2))) ++ bytes m (o + 4) data.length := by
    rw [bytes_add m o 4, bytes_add m o 2 2, bytes_readU16, bytes_readU16]
  have hlen : (UInt16.ofNat data.length).toNat = data.length := by
    simp only [UInt16.toNat_ofNat']; omega
  rw [hsplit, Record.bytes, entryBytes]
  constructor
  · intro h
    obtain ⟨h1, h2⟩ := List.append_inj h rfl
    obtain ⟨h3, h4⟩ := List.append_inj h1 rfl
    exact ⟨le16_inj h3, by rw [le16_inj h4, hlen], h2⟩
  · rintro ⟨h1, h2, h3⟩
    have h4 : readU16 m (o + 2) = UInt16.ofNat data.length := by
      rw [← UInt16.toNat_inj, h2, hlen]
    rw [h1, h3, h4]

end RecordBytes

/-! ## One record -/

section OneRecord

variable {m : Mem} {fin : UInt16} {visit : Visitor σ} {s : ParseState σ}

theorem toNat_add_of_lt {a : UInt16} {n : ℕ} (h : a.toNat + n < 65536) :
    (a + UInt16.ofNat n).toNat = a.toNat + n := by
  rw [UInt16.toNat_add]
  simp only [UInt16.toNat_ofNat']
  omega

theorem toNat_add_two {a : UInt16} (h : a.toNat + 2 < 65536) : (a + 2).toNat = a.toNat + 2 :=
  toNat_add_of_lt (n := 2) h

/-- What fits before the end passes the length check. -/
theorem not_sub_lt {a k : UInt16} (h : a.toNat + k.toNat ≤ fin.toNat) : ¬ fin - a < k := by
  rw [UInt16.lt_iff_toNat_lt,
    UInt16.toNat_sub_of_le _ _ (by rw [UInt16.le_iff_toNat_le]; omega)]
  omega

/-- The state once the key of record index `i` was read. -/
def ParseState.keyed (s : ParseState σ) (i : ℕ) : ParseState σ :=
  { s with
    offset := s.offset + 2
    previousIndex := some i
    seen := assign s.seen i true
    configCrc := Crc32.updateU16Le s.configCrc (signalAt i).signalKey }

/-- Up to the value, parsing a record checks its key. -/
theorem parseRecord_key (m : Mem) (fin : UInt16) (visit : Visitor σ) (s : ParseState σ) :
    (parseRecord m fin visit s).2 = .invalidImage ∨
      ∃ i, i < signalCount ∧ readU16 m s.offset.toNat = (signalAt i).signalKey ∧
        (∀ p, s.previousIndex = some p → p < i) ∧ test s.seen i = false ∧
        parseRecord m fin visit s =
          if isBlob i then parseBlob m fin visit i (signalAt i).signalKey (s.keyed i)
          else parseScalar m fin visit i (signalAt i).signalKey (s.keyed i) := by
  unfold parseRecord
  by_cases h1 : fin - s.offset < 2
  · rw [if_pos h1]; exact .inl rfl
  rw [if_neg h1]
  dsimp only
  cases hk : indexFromKey (readU16 m s.offset.toNat) with
  | none => exact .inl rfl
  | some i =>
    obtain ⟨hi, hkey⟩ := indexFromKey_eq_some hk
    dsimp only
    by_cases h2 : s.previousIndex.any (fun p => decide (i ≤ p)) = true
    · rw [if_pos h2]; exact .inl rfl
    rw [if_neg h2]
    by_cases h3 : test s.seen i = true
    · rw [if_pos h3]; exact .inl rfl
    rw [if_neg h3, ← hkey]
    refine .inr ⟨i, hi, rfl, fun p hp => ?_, by simpa using h3, rfl⟩
    simpa [hp] using h2

theorem parseRecord_of_key {i : ℕ} (hi : i < signalCount) (hfin : s.offset.toNat + 2 ≤ fin.toNat)
    (hkey : readU16 m s.offset.toNat = (signalAt i).signalKey)
    (hprev : ∀ p, s.previousIndex = some p → p < i) (hseen : test s.seen i = false) :
    parseRecord m fin visit s =
      if isBlob i then parseBlob m fin visit i (signalAt i).signalKey (s.keyed i)
      else parseScalar m fin visit i (signalAt i).signalKey (s.keyed i) := by
  unfold parseRecord
  rw [if_neg (not_sub_lt (k := 2) hfin)]
  simp only [hkey, indexFromKey_signalKey hi]
  rw [if_neg, if_neg (by simp [hseen])]
  · rfl
  · cases hp : s.previousIndex with
    | none => simp
    | some p => simpa using hprev p hp

theorem range_iff_checkIndex {i : ℕ} (hb : isBlob i = false) (raw : UInt32) :
    (raw < (signalAt i).rawMin ∨ raw > (signalAt i).rawMax) ↔ checkIndex i raw ≠ .ok := by
  rw [checkIndex, if_neg (by simp [hb])]
  by_cases h : raw < (signalAt i).rawMin ∨ raw > (signalAt i).rawMax
  · simp [h]
  · simp [h]

/-- The value part of a scalar: refused, or the record was parsed. -/
theorem parseScalar_spec (m : Mem) (fin : UInt16) (visit : Visitor σ) {i : ℕ}
    (hb : isBlob i = false) (ho : s.offset.toNat + 6 < 65536) :
    (parseScalar m fin visit i (signalAt i).signalKey (s.keyed i)).2 = .invalidImage ∨
      checkIndex i (readU32 m (s.offset.toNat + 2)) = .ok ∧
        Parsed visit s (i, .scalar (readU32 m (s.offset.toNat + 2)))
          (parseScalar m fin visit i (signalAt i).signalKey (s.keyed i)) := by
  have hoff : (s.offset + 2).toNat = s.offset.toNat + 2 := toNat_add_two (by omega)
  unfold parseScalar
  by_cases h1 : fin - (s.keyed i).offset < 4
  · rw [if_pos h1]; exact .inl rfl
  rw [if_neg h1]
  simp only [range_iff_checkIndex hb, ParseState.keyed, hoff]
  by_cases h2 : checkIndex i (readU32 m (s.offset.toNat + 2)) = .ok
  · rw [if_neg (by simpa using h2)]
    refine .inr ⟨h2, fun hv => ?_, fun hv => ?_⟩
    · rw [visitRecord] at hv ⊢
      rw [if_neg (by simp [hv])]
      congr 1
      simp only [ParseState.push, Record.length_bytes_scalar, Record.isBlob, Bool.false_eq_true,
        if_false, ParseState.mk.injEq, true_and, and_true]
      refine ⟨by rw [UInt16.add_assoc]; rfl, ?_⟩
      simp only [Record.bytes, entryBytes, Crc32.update_append, Crc32.updateU16Le_eq,
        Crc32.updateU32Le_eq]
    · rw [visitRecord] at hv ⊢
      rw [if_pos hv]
      exact ⟨rfl, rfl⟩
  · rw [if_pos (by simpa using h2)]; exact .inl rfl

theorem parseScalar_fits {i : ℕ} (hb : isBlob i = false) (ho : s.offset.toNat + 6 ≤ fin.toNat)
    (hc : checkIndex i (readU32 m (s.offset.toNat + 2)) = .ok) :
    (parseScalar m fin visit i (signalAt i).signalKey (s.keyed i)).2 ≠ .invalidImage := by
  have hlt := fin.toNat_lt
  have hoff : (s.offset + 2).toNat = s.offset.toNat + 2 := toNat_add_two (by omega)
  have hfit : ¬ fin - (s.offset + 2) < 4 := not_sub_lt (k := 4) (by rw [hoff]; exact ho)
  unfold parseScalar
  simp only [range_iff_checkIndex hb, ParseState.keyed, hoff]
  rw [if_neg hfit, if_neg (by simpa using hc)]
  split_ifs <;> simp

/-- The blob a record at the offset would carry. -/
def blobAt (m : Mem) (o : ℕ) : List UInt8 := bytes m (o + 4) (readU16 m (o + 2)).toNat

theorem parseBlob_spec (m : Mem) (fin : UInt16) (visit : Visitor σ) {i : ℕ} (hi : i < signalCount) (hb : isBlob i = true)
    (ho : s.offset.toNat + 204 < 65536) :
    (parseBlob m fin visit i (signalAt i).signalKey (s.keyed i)).2 = .invalidImage ∨
      Record.Valid (i, .blob (blobAt m s.offset.toNat)) ∧
        Parsed visit s (i, .blob (blobAt m s.offset.toNat))
          (parseBlob m fin visit i (signalAt i).signalKey (s.keyed i)) := by
  have hoff : (s.offset + 2).toNat = s.offset.toNat + 2 := toNat_add_two (by omega)
  have hoff' : (s.offset + 2 + 2).toNat = s.offset.toNat + 4 := by
    rw [toNat_add_two (by omega), hoff]
  unfold parseBlob
  by_cases h1 : fin - (s.keyed i).offset < 2
  · rw [if_pos h1]; exact .inl rfl
  rw [if_neg h1]
  simp only [ParseState.keyed, hoff, hoff']
  generalize hlen : readU16 m (s.offset.toNat + 2) = length
  have hdata : blobAt m s.offset.toNat = bytes m (s.offset.toNat + 4) length.toNat := by
    rw [blobAt, hlen]
  rw [hdata]
  by_cases h2 : length = 0 ∨ length > blobCapacity i ∨ fin - (s.offset + 2 + 2) < length
  · rw [if_pos h2]; exact .inl rfl
  rw [if_neg h2, if_neg]
  · push Not at h2
    have hpos : 0 < length.toNat := Nat.pos_of_ne_zero fun h0 => h2.1 (UInt16.toNat_inj.mp h0)
    have hcap : length.toNat ≤ (blobCapacity i).toNat := UInt16.le_iff_toNat_le.mp
      (UInt16.not_lt.mp h2.2.1)
    refine .inr ⟨⟨hi, hb, by simpa using hpos, by simpa using hcap⟩, fun hv => ?_, fun hv => ?_⟩
    · rw [visitRecord] at hv ⊢
      rw [if_neg (by simp [hv])]
      congr 1
      simp only [ParseState.push, Record.length_bytes_blob, Record.isBlob, if_true, length_bytes,
        ParseState.mk.injEq, true_and, and_true]
      refine ⟨?_, ?_⟩
      · rw [UInt16.ofNat_add, UInt16.ofNat_toNat, ← UInt16.add_assoc]
        congr 1
        rw [UInt16.add_assoc]; rfl
      · simp only [Record.bytes, entryBytes, Crc32.update_append, Crc32.updateU16Le_eq,
          length_bytes, UInt16.ofNat_toNat]
    · rw [visitRecord] at hv ⊢
      rw [if_pos hv]
      exact ⟨rfl, rfl⟩
  · simp only [List.any_eq_true, not_exists, not_and]
    intro x _
    simp [byteOutOfRange_eq_false hi hb]

theorem parseBlob_fits {i : ℕ} (hi : i < signalCount) (hb : isBlob i = true)
    (hv : Record.Valid (i, .blob (blobAt m s.offset.toNat)))
    (ho : s.offset.toNat + 4 + (blobAt m s.offset.toNat).length ≤ fin.toNat) :
    (parseBlob m fin visit i (signalAt i).signalKey (s.keyed i)).2 ≠ .invalidImage := by
  have hlt := fin.toNat_lt
  obtain ⟨-, -, hpos, hcap⟩ := hv
  simp only [blobAt, length_bytes] at hpos hcap ho
  have hoff : (s.offset + 2).toNat = s.offset.toNat + 2 := toNat_add_two (by omega)
  have hoff' : (s.offset + 2 + 2).toNat = s.offset.toNat + 4 := by
    rw [toNat_add_two (by omega), hoff]
  have hfit : ¬ fin - (s.offset + 2) < 2 :=
    not_sub_lt (k := 2) (by rw [hoff]; exact (Nat.le_add_right _ _).trans ho)
  have hfit' : ¬ fin - (s.offset + 2 + 2) < readU16 m (s.offset.toNat + 2) :=
    not_sub_lt (by rw [hoff']; exact ho)
  unfold parseBlob
  simp only [ParseState.keyed, hoff]
  rw [if_neg hfit, if_neg, if_neg]
  · split_ifs <;> simp
  · simp only [List.any_eq_true, not_exists, not_and]
    intro x _
    simp [byteOutOfRange_eq_false hi hb]
  · rintro (h | h | h)
    · rw [h] at hpos; simp at hpos
    · rw [gt_iff_lt, UInt16.lt_iff_toNat_lt] at h; omega
    · exact hfit' h

/-- A record the parser does not refuse is a valid one, and was parsed. -/
theorem parseRecord_sound (m : Mem) (fin : UInt16) (visit : Visitor σ)
    (ho : s.offset.toNat + 204 < 65536)
    (h : (parseRecord m fin visit s).2 ≠ .invalidImage) :
    ∃ r : Record, r.Valid ∧ Follows s r ∧
      bytes m s.offset.toNat r.bytes.length = r.bytes ∧
      Parsed visit s r (parseRecord m fin visit s) := by
  rcases parseRecord_key m fin visit s with hbad | ⟨i, hi, hkey, hprev, hseen, heq⟩
  · exact absurd hbad h
  rw [heq] at h ⊢
  by_cases hb : isBlob i = true
  · rw [if_pos hb] at h ⊢
    rcases parseBlob_spec m fin visit hi hb ho with hbad | ⟨hv, hp⟩
    · exact absurd hbad h
    · refine ⟨_, hv, ⟨hprev, hseen⟩, ?_, hp⟩
      rw [Record.length_bytes_blob, bytes_blob_iff]
      · exact ⟨hkey, by simp [blobAt], by simp [blobAt]⟩
      · have := hv.2.2.2
        have := (blobCapacity i).toNat_lt
        omega
  · rw [if_neg hb] at h ⊢
    rcases parseScalar_spec m fin visit (by simpa using hb)
      (show s.offset.toNat + 6 < 65536 by omega) with hbad | ⟨hv, hp⟩
    · exact absurd hbad h
    · refine ⟨(i, .scalar _), ⟨hi, hv⟩, ⟨hprev, hseen⟩, ?_, hp⟩
      rw [Record.length_bytes_scalar, bytes_scalar_iff]
      exact ⟨hkey, rfl⟩

/-- A valid record that is there and fits is parsed. -/
theorem parseRecord_of_bytes (fin : UInt16) (visit : Visitor σ) {r : Record} (hv : r.Valid) (hf : Follows s r)
    (hbytes : bytes m s.offset.toNat r.bytes.length = r.bytes)
    (hfin : s.offset.toNat + r.bytes.length ≤ fin.toNat)
    (ho : s.offset.toNat + 204 < 65536) :
    Parsed visit s r (parseRecord m fin visit s) := by
  have hb := hv.isBlob_eq
  obtain ⟨i, raw | data⟩ := r
  · rw [Record.length_bytes_scalar] at hbytes hfin
    obtain ⟨hkey, rfl⟩ := bytes_scalar_iff.mp hbytes
    have hb : isBlob i = false := hb
    rw [parseRecord_of_key hv.1 (by omega) hkey hf.1 hf.2, if_neg (by simp [hb])]
    exact ((parseScalar_spec m fin visit hb (by omega)).resolve_left (parseScalar_fits hb hfin hv.2)).2
  · rw [Record.length_bytes_blob] at hbytes hfin
    have hlt := fin.toNat_lt
    obtain ⟨hkey, hlen, hdata⟩ := (bytes_blob_iff (by omega)).mp hbytes
    have hb : isBlob i = true := hb
    have hat : blobAt m s.offset.toNat = data := by rw [blobAt, hlen, hdata]
    rw [parseRecord_of_key hv.1 (by omega) hkey hf.1 hf.2, if_pos hb]
    rw [← hat] at hv hfin ⊢
    exact ((parseBlob_spec m fin visit hv.1 hb ho).resolve_left
      (parseBlob_fits hv.1 hb hv (by omega))).2

end OneRecord

/-! ## The record loop -/

/-- The parser state after accepted records. -/
def ParseState.pushAll (visit : Visitor σ) : ParseState σ → List Record → ParseState σ
  | s, [] => s
  | s, r :: l => ParseState.pushAll visit (s.push r (visitRecord visit s.context r).1) l

section PushAll

variable (visit : Visitor σ) (s : ParseState σ) (l : List Record)

theorem pushAll_offset :
    (s.pushAll visit l).offset = s.offset + UInt16.ofNat (encode l).length := by
  induction l generalizing s with
  | nil => simp [ParseState.pushAll]
  | cons r l ih =>
    rw [ParseState.pushAll, ih, encode_cons, List.length_append, UInt16.ofNat_add,
      ← UInt16.add_assoc]
    rfl

theorem pushAll_configCrc :
    (s.pushAll visit l).configCrc = Crc32.update s.configCrc (encode l) := by
  induction l generalizing s with
  | nil => simp [ParseState.pushAll]
  | cons r l ih =>
    rw [ParseState.pushAll, ih, encode_cons, Crc32.update_append]
    rfl

theorem pushAll_scalars :
    (s.pushAll visit l).actualScalars = s.actualScalars + UInt16.ofNat (scalarsOf l) := by
  induction l generalizing s with
  | nil => simp [ParseState.pushAll, scalarsOf]
  | cons r l ih =>
    have hcount : scalarsOf (r :: l) = scalarsOf l + if r.isBlob then 0 else 1 := by
      rw [scalarsOf, List.countP_cons]
      cases r.isBlob <;> rfl
    rw [ParseState.pushAll, ih, hcount, UInt16.ofNat_add, ParseState.push]
    cases r.isBlob
    · simp only [Bool.false_eq_true, if_false]
      rw [UInt16.add_assoc, UInt16.add_comm 1]
      rfl
    · simp

theorem pushAll_blobs :
    (s.pushAll visit l).actualBlobs = s.actualBlobs + UInt8.ofNat (blobsOf l) := by
  induction l generalizing s with
  | nil => simp [ParseState.pushAll, blobsOf]
  | cons r l ih =>
    have hcount : blobsOf (r :: l) = blobsOf l + if r.isBlob then 1 else 0 := List.countP_cons
    rw [ParseState.pushAll, ih, hcount, UInt8.ofNat_add, ParseState.push]
    cases r.isBlob
    · simp
    · simp only [if_true]
      rw [UInt8.add_assoc, UInt8.add_comm 1]
      rfl

theorem pushAll_seen (i : ℕ) :
    test (s.pushAll visit l).seen i = true ↔ test s.seen i = true ∨ ∃ r ∈ l, r.1 = i := by
  induction l generalizing s with
  | nil => simp [ParseState.pushAll]
  | cons r l ih =>
    rw [ParseState.pushAll, ih, ParseState.push, test_assign]
    simp only [List.mem_cons, exists_eq_or_imp]
    by_cases hi : i = r.1
    · simp [hi]
    · rw [if_neg hi]
      have : r.1 ≠ i := fun h => hi h.symm
      tauto

theorem pushAll_context (h : (visitAll visit s.context l).2 = true) :
    (s.pushAll visit l).context = (visitAll visit s.context l).1 := by
  induction l generalizing s with
  | nil => rfl
  | cons r l ih =>
    unfold visitAll at h ⊢
    by_cases hr : (visitRecord visit s.context r).2 = true
    · rw [if_pos hr] at h ⊢
      exact ih _ h
    · rw [if_neg hr] at h; cases h

end PushAll

/-- Everything seen lies at or below the last index. -/
def SeenBelow (s : ParseState σ) : Prop :=
  ∀ i, test s.seen i = true → ∃ p, s.previousIndex = some p ∧ i ≤ p

/-- The record's index is above everything parsed so far. -/
def Above (s : ParseState σ) (r : Record) : Prop := ∀ p, s.previousIndex = some p → p < r.1

theorem Above.follows {s : ParseState σ} {r : Record} (h : Above s r) (hs : SeenBelow s) :
    Follows s r := by
  refine ⟨h, ?_⟩
  by_contra hseen
  obtain ⟨p, hp, hle⟩ := hs r.1 (by simpa using hseen)
  have := h p hp
  omega

theorem SeenBelow.push {s : ParseState σ} (hs : SeenBelow s) {r : Record} (h : Above s r) (c : σ) :
    SeenBelow (s.push r c) := by
  intro i hi
  refine ⟨r.1, rfl, ?_⟩
  rw [ParseState.push, test_assign] at hi
  by_cases hir : i = r.1
  · omega
  · rw [if_neg hir] at hi
    obtain ⟨p, hp, hle⟩ := hs i hi
    have := h p hp
    omega

section Loop

variable {m : Mem} {fin : UInt16} {visit : Visitor σ}

/-- Records that are there and fit are parsed, up to the first the visitor
    rejects. -/
theorem parseRecords_of_bytes (visit : Visitor σ) (hfin : fin.toNat + 204 < 65536) {l : List Record}
    {s : ParseState σ} (hv : ∀ r ∈ l, r.Valid) (hasc : l.Pairwise fun r r' => r.1 < r'.1)
    (habove : ∀ r ∈ l, Above s r) (hs : SeenBelow s)
    (hbytes : bytes m s.offset.toNat (encode l).length = encode l)
    (hfit : s.offset.toNat + (encode l).length ≤ fin.toNat) :
    ((visitAll visit s.context l).2 = true →
      parseRecords m fin visit l.length s = (s.pushAll visit l, .ok)) ∧
    ((visitAll visit s.context l).2 = false →
      (parseRecords m fin visit l.length s).2 = .visitorRejected ∧
        (parseRecords m fin visit l.length s).1.context = (visitAll visit s.context l).1) := by
  induction l generalizing s with
  | nil => simp [visitAll, parseRecords, ParseState.pushAll]
  | cons r l ih =>
    obtain ⟨hr, hl⟩ := List.pairwise_cons.mp hasc
    rw [encode_cons, List.length_append] at hbytes hfit
    rw [bytes_add] at hbytes
    obtain ⟨hb1, hb2⟩ := List.append_inj hbytes (by simp)
    have hrv := hv r (by simp)
    have hra := habove r (by simp)
    have hp := parseRecord_of_bytes fin visit hrv (hra.follows hs) hb1
      (by omega) (by omega)
    have hoff : (s.offset + UInt16.ofNat r.bytes.length).toNat =
        s.offset.toNat + r.bytes.length := toNat_add_of_lt (n := r.bytes.length) (by omega)
    rw [List.length_cons, parseRecords]
    unfold visitAll
    by_cases hacc : (visitRecord visit s.context r).2 = true
    · rw [hp.1 hacc, if_pos rfl, if_pos hacc]
      exact ih (fun q hq => hv q (by simp [hq])) hl
        (fun q hq p hp => by cases hp; exact hr q hq) (hs.push hra _)
        (by rw [ParseState.push, hoff]; exact hb2) (by rw [ParseState.push, hoff]; omega)
    · rw [if_neg hacc]
      obtain ⟨h1, h2⟩ := hp.2 (by simpa using hacc)
      refine ⟨fun h => absurd h (by simp), fun _ => ?_⟩
      rw [if_neg (by rw [h1]; simp)]
      exact ⟨h1, h2⟩

/-- A loop that ends well has parsed records. -/
theorem parseRecords_sound {n : ℕ} {s : ParseState σ} (ho : s.offset.toNat + 204 * n < 65536)
    (hs : SeenBelow s) (h : (parseRecords m fin visit n s).2 = .ok) :
    ∃ l : List Record, l.length = n ∧ (∀ r ∈ l, r.Valid) ∧
      l.Pairwise (fun r r' => r.1 < r'.1) ∧ (∀ r ∈ l, Above s r) ∧
      bytes m s.offset.toNat (encode l).length = encode l ∧
      s.offset.toNat + (encode l).length < 65536 ∧
      (visitAll visit s.context l).2 = true ∧
      parseRecords m fin visit n s = (s.pushAll visit l, .ok) := by
  induction n generalizing s with
  | zero => exact ⟨[], rfl, by simp, by simp, by simp, rfl, by simpa using ho, rfl, rfl⟩
  | succ n ih =>
    rw [parseRecords] at h ⊢
    have hok : (parseRecord m fin visit s).2 = .ok := by
      by_contra hne
      rw [if_neg hne] at h
      exact hne h
    rw [if_pos hok] at h ⊢
    obtain ⟨r, hrv, hrf, hrb, hrp⟩ := parseRecord_sound m fin visit
      (s := s) (by omega) (by rw [hok]; simp)
    have hacc : (visitRecord visit s.context r).2 = true := by
      by_contra hne
      have := (hrp.2 (by simpa using hne)).1
      rw [hok] at this
      cases this
    rw [hrp.1 hacc] at h ⊢
    have hlen : r.bytes.length ≤ 204 := hrv.length_bytes_le.trans (recordBound_le _)
    have hoff : (s.offset + UInt16.ofNat r.bytes.length).toNat =
        s.offset.toNat + r.bytes.length := toNat_add_of_lt (by omega)
    obtain ⟨l, h1, h2, h3, h4, h5, h6, h7, h8⟩ := ih (s := s.push r (visitRecord visit s.context r).1)
      (by rw [ParseState.push, hoff]; omega) (hs.push hrf.1 _) h
    have hgt : ∀ q ∈ l, r.1 < q.1 := fun q hq => h4 q hq r.1 rfl
    rw [ParseState.push, hoff] at h5 h6
    refine ⟨r :: l, by rw [List.length_cons, h1], ?_, List.pairwise_cons.mpr ⟨hgt, h3⟩, ?_, ?_, ?_,
      ?_, h8⟩
    · intro q hq
      rcases List.mem_cons.mp hq with rfl | hq
      · exact hrv
      · exact h2 q hq
    · intro q hq p hp
      rcases List.mem_cons.mp hq with rfl | hq
      · exact hrf.1 p hp
      · exact (hrf.1 p hp).trans (hgt q hq)
    · rw [encode_cons, List.length_append, bytes_add, hrb, h5]
    · rw [encode_cons, List.length_append]; omega
    · rw [visitAll, if_pos hacc]; exact h7

end Loop

/-! ## The whole image -/

/-- The image carries the records `l`. -/
structure Carries (m : Mem) (l : List Record) : Prop where
  wf : WfRecords l
  signalCount : (readU16 m offSignalCount).toNat = l.length
  scalarCount : (readU16 m offScalarCount).toNat = scalarsOf l
  blobCount : (m offBlobCount).toNat = blobsOf l
  payloadLength : (readU16 m offPayloadLength).toNat = (encode l).length
  payload : bytes m headerBytes.toNat (encode l).length = encode l
  configCrc : readU32 m offConfigCrc = (contentsOf l).crc

/-- The records are the key set of the profile, unless it is the custom one. -/
def FitsProfile (profileId : UInt8) (l : List Record) : Prop :=
  profileId = profileIdCustom ∨ ∃ profile, customerProfileFind profileId = some profile ∧
    profile.signalCount.toNat = l.length ∧
    ∀ i < signalCount, (∃ r ∈ l, r.1 = i) ↔ profile.hasKey (signalAt i).signalKey = true

theorem seenBelow_parseStart (c : σ) : SeenBelow (parseStart c) := by
  intro i hi; simp [parseStart] at hi

theorem final_configCrc (visit : Visitor σ) (c : σ) {l : List Record} (h : WfRecords l) :
    Crc32.final ((parseStart c).pushAll visit l).configCrc = (contentsOf l).crc := by
  rw [pushAll_configCrc, parseStart, Crc32.updateU32Le_eq, ← Crc32.update_append,
    ← Crc32.update_append, Contents.crc, ← encode_records, records_contentsOf h]
  rfl

theorem profileMatches_iff (visit : Visitor σ) (c : σ) (profileId : UInt8) {n : UInt16}
    {l : List Record} (hn : n.toNat = l.length) :
    profileMatches profileId n ((parseStart c).pushAll visit l).seen = true ↔
      FitsProfile profileId l := by
  have hseen : ∀ i, test ((parseStart c).pushAll visit l).seen i = true ↔ ∃ r ∈ l, r.1 = i := by
    intro i
    rw [pushAll_seen]
    simp [parseStart]
  unfold profileMatches FitsProfile
  by_cases hc : profileId = profileIdCustom
  · simp [hc]
  · rw [if_neg hc]
    cases hf : customerProfileFind profileId with
    | none => simp [hc]
    | some profile =>
      have hcount : profile.signalCount.toUInt16 = n ↔ profile.signalCount.toNat = l.length := by
        rw [← UInt16.toNat_inj, UInt8.toNat_toUInt16, hn]
      simp only [hc, false_or, Option.some.injEq, exists_eq_left', decide_eq_true_eq, hcount]
      refine and_congr_right fun _ => forall_congr' fun i => forall_congr' fun _ => ?_
      rw [← hseen i, Bool.eq_iff_iff]

theorem Carries.counts {m : Mem} {l : List Record} (h : Carries m l) :
    ¬ ((readU16 m offSignalCount).toNat > J1939Gen.signalCount ∨
      readU16 m offScalarCount + (m offBlobCount).toUInt16 ≠ readU16 m offSignalCount ∨
      m offBlobCount > 1) := by
  have hlen := h.wf.length_le
  have hblobs := h.wf.blobsOf_le
  rintro (hgt | hne | hgt)
  · rw [h.signalCount] at hgt; omega
  · apply hne
    rw [← UInt16.toNat_inj, UInt16.toNat_add, UInt8.toNat_toUInt16, h.signalCount, h.scalarCount,
      h.blobCount, scalarsOf_add_blobsOf]
    exact Nat.mod_eq_of_lt (lt_of_le_of_lt hlen (by decide))
  · rw [gt_iff_lt, UInt8.lt_iff_toNat_lt, h.blobCount] at hgt
    exact absurd hblobs (not_le.mpr hgt)

theorem Carries.fin_toNat {m : Mem} {l : List Record} (h : Carries m l) :
    (headerBytes + readU16 m offPayloadLength).toNat = 44 + (encode l).length := by
  have hle := h.wf.length_encode_le
  have := h.payloadLength
  rw [UInt16.toNat_add, this]
  simp only [headerBytes, UInt16.reduceToNat]
  omega

/-- An image that carries records is parsed to them, up to the first the
    visitor rejects and the profile check. -/
theorem parse_of_carries {m : Mem} {l : List Record} (h : Carries m l) (slot : Slot)
    (visit : Visitor σ) (c : σ) :
    ((visitAll visit c l).2 = true → FitsProfile (m offProfileId) l →
      parse m slot visit c = ((visitAll visit c l).1, .ok (infoOf m slot))) ∧
    ((visitAll visit c l).2 = true → ¬ FitsProfile (m offProfileId) l →
      parse m slot visit c = ((visitAll visit c l).1, .error .invalidImage)) ∧
    ((visitAll visit c l).2 = false →
      parse m slot visit c = ((visitAll visit c l).1, .error .visitorRejected)) := by
  have hle := h.wf.length_encode_le
  have hfin := h.fin_toNat
  have hrec := parseRecords_of_bytes visit (s := parseStart c)
    (by rw [hfin]; omega) h.wf.valid h.wf.ascending (fun r _ p hp => by cases hp)
    (seenBelow_parseStart c) h.payload (by rw [hfin]; exact le_refl _)
  have hoff : ((parseStart c).pushAll visit l).offset = headerBytes + readU16 m offPayloadLength := by
    rw [pushAll_offset, ← h.payloadLength, UInt16.ofNat_toNat]
    rfl
  have hscal : ((parseStart c).pushAll visit l).actualScalars = readU16 m offScalarCount := by
    rw [pushAll_scalars, ← h.scalarCount, UInt16.ofNat_toNat]
    exact UInt16.zero_add _
  have hblob : ((parseStart c).pushAll visit l).actualBlobs = m offBlobCount := by
    rw [pushAll_blobs, ← h.blobCount, UInt8.ofNat_toNat]
    exact UInt8.zero_add _
  have hcrc := final_configCrc visit c h.wf
  have hprof := profileMatches_iff visit c (m offProfileId) h.signalCount
  unfold parse
  dsimp only
  rw [if_neg h.counts, h.signalCount]
  refine ⟨fun hv hp => ?_, fun hv hp => ?_, fun hv => ?_⟩
  · rw [hrec.1 hv]
    dsimp only
    rw [if_neg (by simp), if_neg (by simp [hoff, hscal, hblob, hcrc, h.configCrc]),
      if_neg (by simp [hprof.mpr hp]), pushAll_context _ _ _ hv]
    rfl
  · rw [hrec.1 hv]
    dsimp only
    rw [if_neg (by simp), if_neg (by simp [hoff, hscal, hblob, hcrc, h.configCrc]),
      if_pos (by rw [← Bool.not_eq_true, hprof]; exact hp), pushAll_context _ _ _ hv]
    rfl
  · obtain ⟨h1, h2⟩ := hrec.2 hv
    rw [if_pos (by rw [h1]; simp), h1, h2]
    rfl

/-- A parsed image carries records, and these were visited. -/
theorem parse_sound {m : Mem} {slot : Slot} {visit : Visitor σ} {c c' : σ} {info : Info}
    (h : parse m slot visit c = (c', .ok info)) :
    ∃ l, Carries m l ∧ FitsProfile (m offProfileId) l ∧ visitAll visit c l = (c', true) ∧
      info = infoOf m slot := by
  unfold parse at h
  dsimp only at h
  by_cases h1 : (readU16 m offSignalCount).toNat > J1939Gen.signalCount ∨
      readU16 m offScalarCount + (m offBlobCount).toUInt16 ≠ readU16 m offSignalCount ∨
      m offBlobCount > 1
  · rw [if_pos h1] at h; cases h
  rw [if_neg h1] at h
  push Not at h1
  have hcount : (readU16 m offSignalCount).toNat ≤ 179 := h1.1
  by_cases hok : (parseRecords m (headerBytes + readU16 m offPayloadLength) visit
      (readU16 m offSignalCount).toNat (parseStart c)).2 = .ok
  swap
  · rw [if_pos hok] at h; cases h
  rw [if_neg (by simpa using hok)] at h
  obtain ⟨l, hlen, hvalid, hasc, -, hbytes, hlt, hvisit, heq⟩ := parseRecords_sound
    (by simp only [parseStart, headerBytes, UInt16.reduceToNat]; omega) (seenBelow_parseStart c) hok
  have hwf : WfRecords l := ⟨hvalid, hasc⟩
  have hle := hwf.length_encode_le
  rw [heq] at h
  dsimp only at h
  by_cases h2 : ((parseStart c).pushAll visit l).offset ≠ headerBytes + readU16 m offPayloadLength ∨
      ((parseStart c).pushAll visit l).actualScalars ≠ readU16 m offScalarCount ∨
      ((parseStart c).pushAll visit l).actualBlobs ≠ m offBlobCount ∨
      Crc32.final ((parseStart c).pushAll visit l).configCrc ≠ readU32 m offConfigCrc
  · rw [if_pos h2] at h; cases h
  rw [if_neg h2] at h
  push Not at h2
  obtain ⟨hoff, hscal, hblob, hcrc⟩ := h2
  by_cases h3 : profileMatches (m offProfileId) (readU16 m offSignalCount)
      ((parseStart c).pushAll visit l).seen = false
  · rw [if_pos h3] at h; cases h
  rw [if_neg h3] at h
  rw [pushAll_context _ _ _ hvisit] at h
  have hscount : (UInt16.ofNat (scalarsOf l)).toNat = scalarsOf l := by
    have := scalarsOf_add_blobsOf l
    simp only [UInt16.toNat_ofNat']
    omega
  have hbcount : (UInt8.ofNat (blobsOf l)).toNat = blobsOf l := by
    have := hwf.blobsOf_le
    simp only [UInt8.toNat_ofNat']
    omega
  have hpcount : (UInt16.ofNat (encode l).length).toNat = (encode l).length := by
    simp only [UInt16.toNat_ofNat']
    omega
  refine ⟨l, ⟨hwf, hlen.symm, ?_, ?_, ?_, hbytes, ?_⟩, ?_, ?_, ?_⟩
  · rw [← hscal, pushAll_scalars]
    exact (congrArg UInt16.toNat (UInt16.zero_add _)).trans hscount
  · rw [← hblob, pushAll_blobs]
    exact (congrArg UInt8.toNat (UInt8.zero_add _)).trans hbcount
  · rw [pushAll_offset] at hoff
    rw [← (UInt16.add_right_inj headerBytes).mp hoff, hpcount]
  · rw [← hcrc, final_configCrc visit c hwf]
  · exact (profileMatches_iff visit c _ hlen.symm).mp (by simpa using h3)
  · injection h with h _
    rw [← h, ← hvisit]
    rfl
  · injection h with _ h
    injection h with h
    exact h.symm

end J1939Gen.Storage
