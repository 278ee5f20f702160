import J1939Gen.Catalog.Table
import Mathlib.Data.List.Chain

/-!
# What the firmware relies on in the generated catalog

The tables are checked by evaluating one pass over each; the facts the later
modules use follow from these passes, and no later module unfolds a table.

* `indexFromKey_signalKey`, `indexFromKey_eq_some`: keys and indices correspond.
* `pgnIndex_eq_iff`: the records of a PGN are its contiguous index range.
* `scalar_layout`, `scalar_range`: a scalar fits its payload and its field.
* `records_disjoint`: two records of one PGN share no bit.
* `isBlob_iff`: the blob record.
-/

namespace J1939Gen

/-! ## One pass over each table -/

/-- What a signal record satisfies by itself and against its PGN. -/
structure Signal.Ok (s : Signal) (i : ℕ) : Prop where
  key : indexFromKey s.signalKey = some i
  pgn : s.pgnIndex < pgnCount
  owned : (pgnAt s.pgnIndex).firstSignal ≤ i ∧
    i < (pgnAt s.pgnIndex).firstSignal + (pgnAt s.pgnIndex).signalCount
  bounds : s.rawMin ≤ s.rawMax
  scalar : ((s.flags &&& sigBlob) != 0) = false → 0 < s.bitLength.toNat ∧ s.bitLength.toNat ≤ 32 ∧
    s.startBit.toNat + s.bitLength.toNat ≤ (pgnAt s.pgnIndex).payloadLength.toNat * 8 ∧
    s.rawMax.toNat < 2 ^ s.bitLength.toNat
  blob : ((s.flags &&& sigBlob) != 0) = true ↔ i = 132
  bytes : ((s.flags &&& sigBlob) != 0) = true → s.rawMin = 0 ∧ s.rawMax = 255
  control : ((s.flags &&& sigGlobalControl) != 0) = true → ((s.flags &&& sigBlob) != 0) = false

instance (s : Signal) (i : ℕ) : Decidable (s.Ok i) :=
  decidable_of_iff (_ ∧ _ ∧ _ ∧ _ ∧ _ ∧ _ ∧ _ ∧ _)
    ⟨fun ⟨a, b, c, d, e, f, g, k⟩ => ⟨a, b, c, d, e, f, g, k⟩,
      fun ⟨a, b, c, d, e, f, g, k⟩ => ⟨a, b, c, d, e, f, g, k⟩⟩

/-- The order of the signal table: by PGN, then by bit position. -/
def Signal.Precedes (a b : Signal) : Prop :=
  a.pgnIndex < b.pgnIndex ∨
    a.pgnIndex = b.pgnIndex ∧ a.startBit.toNat + a.bitLength.toNat ≤ b.startBit.toNat

instance (a b : Signal) : Decidable (a.Precedes b) := inferInstanceAs (Decidable (_ ∨ _))

instance : Trans Signal.Precedes Signal.Precedes Signal.Precedes where
  trans h h' := by unfold Signal.Precedes at *; omega

/-- What a PGN record satisfies: it owns records, broadcasts itself and fits a
    BAM session. -/
structure PgnRecord.Ok (p : PgnRecord) : Prop where
  range : p.firstSignal + p.signalCount ≤ J1939Gen.signalCount ∧ 0 < p.signalCount
  periodic : 0 < p.periodMs.toNat ∧ p.payloadLength.toNat ≤ maxPayloadBytes

instance (p : PgnRecord) : Decidable p.Ok :=
  decidable_of_iff (_ ∧ _) ⟨fun ⟨a, b⟩ => ⟨a, b⟩, fun ⟨a, b⟩ => ⟨a, b⟩⟩

/-- The order of the PGN table: by first signal, without overlap. -/
def PgnRecord.Precedes (a b : PgnRecord) : Prop :=
  a.firstSignal + a.signalCount ≤ b.firstSignal

instance (a b : PgnRecord) : Decidable (a.Precedes b) := inferInstanceAs (Decidable (_ ≤ _))

instance : Trans PgnRecord.Precedes PgnRecord.Precedes PgnRecord.Precedes where
  trans h h' := by unfold PgnRecord.Precedes at *; omega

/-- What one evaluation of the tables checks. -/
structure Catalog.Ok : Prop where
  signals : ∀ p ∈ catalogSignals.zipIdx, p.1.Ok p.2
  signalOrder : catalogSignals.IsChain Signal.Precedes
  pgns : ∀ p ∈ catalogPgns, p.Ok
  pgnOrder : catalogPgns.IsChain PgnRecord.Precedes
  keys : ∀ p ∈ catalogKeyToIndex.zipIdx,
    p.1 = 255 ∨ p.1 < signalCount ∧ (signalAt p.1).signalKey = UInt16.ofNat p.2
  lengths : catalogSignals.length = signalCount ∧ catalogPgns.length = pgnCount ∧
    catalogKeyToIndex.length = 180

instance : Decidable Catalog.Ok :=
  decidable_of_iff (_ ∧ _ ∧ _ ∧ _ ∧ _ ∧ _)
    ⟨fun ⟨a, b, c, d, e, f⟩ => ⟨a, b, c, d, e, f⟩, fun ⟨a, b, c, d, e, f⟩ => ⟨a, b, c, d, e, f⟩⟩

theorem catalog_ok : Catalog.Ok := by decide +kernel

/-! ## The entries -/

theorem signalAt_eq {i : ℕ} (h : i < catalogSignals.length) : catalogSignals[i] = signalAt i := by
  unfold signalAt
  rw [List.getD_eq_getElem _ _ h]

theorem pgnAt_eq {p : ℕ} (h : p < catalogPgns.length) : catalogPgns[p] = pgnAt p := by
  unfold pgnAt
  rw [List.getD_eq_getElem _ _ h]

theorem signalAt_ok {i : ℕ} (h : i < signalCount) : (signalAt i).Ok i := by
  have hi : i < catalogSignals.length := by rw [catalog_ok.lengths.1]; exact h
  apply catalog_ok.signals (signalAt i, i)
  rw [← signalAt_eq hi, List.mk_mem_zipIdx_iff_getElem?]
  exact List.getElem?_eq_getElem hi

theorem signalAt_precedes {i j : ℕ} (hij : i < j) (hj : j < signalCount) :
    (signalAt i).Precedes (signalAt j) := by
  rw [← catalog_ok.lengths.1] at hj
  rw [← signalAt_eq (hij.trans hj), ← signalAt_eq hj]
  exact List.pairwise_iff_getElem.mp (List.isChain_iff_pairwise.mp catalog_ok.signalOrder)
    i j _ _ hij

theorem pgnAt_ok {p : ℕ} (h : p < pgnCount) : (pgnAt p).Ok := by
  rw [← catalog_ok.lengths.2.1] at h
  rw [← pgnAt_eq h]
  exact catalog_ok.pgns _ (List.getElem_mem h)

theorem pgnAt_precedes {p q : ℕ} (hpq : p < q) (hq : q < pgnCount) :
    (pgnAt p).Precedes (pgnAt q) := by
  rw [← catalog_ok.lengths.2.1] at hq
  rw [← pgnAt_eq (hpq.trans hq), ← pgnAt_eq hq]
  exact List.pairwise_iff_getElem.mp (List.isChain_iff_pairwise.mp catalog_ok.pgnOrder)
    p q _ _ hpq

/-! ## Keys -/

theorem indexFromKey_signalKey {i : ℕ} (h : i < signalCount) :
    indexFromKey (signalAt i).signalKey = some i :=
  (signalAt_ok h).key

theorem indexFromKey_eq_some {k : UInt16} {i : ℕ} (h : indexFromKey k = some i) :
    i < signalCount ∧ (signalAt i).signalKey = k := by
  unfold indexFromKey at h
  by_cases hk : k < keyMin ∨ k > keyMax
  · rw [if_pos hk] at h
    cases h
  rw [if_neg hk] at h
  dsimp only at h
  have hlt : k.toNat < catalogKeyToIndex.length := by
    have hle : k.toNat ≤ keyMax.toNat := by
      rw [← UInt16.le_iff_toNat_le]
      exact UInt16.not_lt.mp fun hgt => hk (.inr hgt)
    rw [catalog_ok.lengths.2.2]
    exact Nat.lt_succ_of_le hle
  rw [List.getD_eq_getElem _ _ hlt] at h
  by_cases h255 : catalogKeyToIndex[k.toNat] = 255
  · rw [if_pos h255] at h
    cases h
  rw [if_neg h255] at h
  injection h with h
  have hmem : (i, k.toNat) ∈ catalogKeyToIndex.zipIdx := by
    rw [List.mk_mem_zipIdx_iff_getElem?, List.getElem?_eq_getElem hlt, h]
  rcases catalog_ok.keys _ hmem with hbad | ⟨hi, hkey⟩
  · exact absurd (h.trans hbad) h255
  · rw [UInt16.ofNat_toNat] at hkey
    exact ⟨hi, hkey⟩

theorem signalKey_inj {i j : ℕ} (hi : i < signalCount) (hj : j < signalCount)
    (h : (signalAt i).signalKey = (signalAt j).signalKey) : i = j := by
  have := indexFromKey_signalKey hi
  rw [h, indexFromKey_signalKey hj] at this
  exact (Option.some.inj this).symm

/-! ## PGN ranges -/

theorem pgnIndex_lt {i : ℕ} (h : i < signalCount) : (signalAt i).pgnIndex < pgnCount :=
  (signalAt_ok h).pgn

theorem pgn_range {p : ℕ} (h : p < pgnCount) :
    (pgnAt p).firstSignal + (pgnAt p).signalCount ≤ signalCount ∧ 0 < (pgnAt p).signalCount :=
  (pgnAt_ok h).range

/-- The records of a PGN are exactly its contiguous index range. -/
theorem pgnIndex_eq_iff {i p : ℕ} (hi : i < signalCount) (hp : p < pgnCount) :
    (signalAt i).pgnIndex = p ↔
      (pgnAt p).firstSignal ≤ i ∧ i < (pgnAt p).firstSignal + (pgnAt p).signalCount := by
  have howned := (signalAt_ok hi).owned
  constructor
  · rintro rfl
    exact howned
  · intro hin
    -- two different PGNs have disjoint ranges
    rcases Nat.lt_trichotomy (signalAt i).pgnIndex p with hlt | heq | hgt
    · have : _ ≤ _ := pgnAt_precedes hlt hp
      omega
    · exact heq
    · have : _ ≤ _ := pgnAt_precedes hgt (pgnIndex_lt hi)
      omega

/-! ## Record layout -/

theorem rawMin_le_rawMax {i : ℕ} (h : i < signalCount) :
    (signalAt i).rawMin ≤ (signalAt i).rawMax :=
  (signalAt_ok h).bounds

/-- A scalar record lies inside its PGN's payload. -/
theorem scalar_layout {i : ℕ} (h : i < signalCount) (hb : isBlob i = false) :
    0 < (signalAt i).bitLength.toNat ∧ (signalAt i).bitLength.toNat ≤ 32 ∧
      (signalAt i).startBit.toNat + (signalAt i).bitLength.toNat ≤
        (pgnAt (signalAt i).pgnIndex).payloadLength.toNat * 8 := by
  obtain ⟨h1, h2, h3, -⟩ := (signalAt_ok h).scalar hb
  exact ⟨h1, h2, h3⟩

/-- The catalog range of a scalar fits its bit field. -/
theorem scalar_range {i : ℕ} (h : i < signalCount) (hb : isBlob i = false) :
    (signalAt i).rawMax.toNat < 2 ^ (signalAt i).bitLength.toNat :=
  ((signalAt_ok h).scalar hb).2.2.2

/-- Two records of one PGN occupy disjoint bit ranges. -/
theorem records_disjoint {i j : ℕ} (hi : i < signalCount) (hj : j < signalCount)
    (hp : (signalAt i).pgnIndex = (signalAt j).pgnIndex) (hne : i ≠ j) :
    (signalAt i).startBit.toNat + (signalAt i).bitLength.toNat ≤ (signalAt j).startBit.toNat ∨
      (signalAt j).startBit.toNat + (signalAt j).bitLength.toNat ≤
        (signalAt i).startBit.toNat := by
  rcases Nat.lt_or_gt_of_ne hne with hlt | hgt
  · rcases signalAt_precedes hlt hj with h | h
    · omega
    · exact .inl h.2
  · rcases signalAt_precedes hgt hi with h | h
    · omega
    · exact .inr h.2

/-! ## Blob records -/

/-- The catalog has one blob record, the VIN. -/
theorem isBlob_iff {i : ℕ} (h : i < signalCount) : isBlob i = true ↔ i = 132 :=
  (signalAt_ok h).blob

theorem blobCapacity_le (i : ℕ) : (blobCapacity i).toNat ≤ maxPayloadBytes := by
  unfold blobCapacity
  simp only
  split_ifs with h
  · rw [UInt16.lt_iff_toNat_lt] at h
    exact h.le
  · decide

/-- Every byte value is inside the bounds of a blob record. -/
theorem blob_bounds {i : ℕ} (h : i < signalCount) (hb : isBlob i = true) (b : UInt8) :
    (signalAt i).rawMin ≤ b.toUInt32 ∧ b.toUInt32 ≤ (signalAt i).rawMax := by
  obtain ⟨h1, h2⟩ := (signalAt_ok h).bytes hb
  have hlt := b.toNat_lt
  rw [h1, h2]
  simp only [UInt32.le_iff_toNat_le, UInt8.toNat_toUInt32, UInt32.reduceToNat]
  omega

/-- A record under global control is a scalar. -/
theorem globalControl_scalar {i : ℕ} (h : i < signalCount)
    (hc : ((signalAt i).flags &&& sigGlobalControl) != 0) : isBlob i = false :=
  (signalAt_ok h).control hc

/-! ## PGN facts -/

/-- Every PGN of the catalog broadcasts itself and fits a BAM session. -/
theorem pgn_periodic {p : ℕ} (h : p < pgnCount) :
    0 < (pgnAt p).periodMs.toNat ∧ (pgnAt p).payloadLength.toNat ≤ maxPayloadBytes :=
  (pgnAt_ok h).periodic

end J1939Gen
