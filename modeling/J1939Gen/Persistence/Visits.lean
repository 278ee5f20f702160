import J1939Gen.Persistence.Model

/-!
# What a visit of the stored records keeps

The parser hands each stored record to a visitor, and the visitors of a load
hand it to the generator as staging calls. What every staging call keeps, a
visit keeps, whatever is stored and wherever it stops.

* `visitLatest_context`: what every visitor call keeps, a visit keeps.
* `visitLatest_keeps`: what every staging call keeps, the visit of a load keeps.
-/

namespace J1939Gen.Storage

open Bitmask ByteMem ValueStore

/-! ## What a visit keeps -/

section Visit

variable {σ : Type*} {P : σ → Prop} {visit : Visitor σ}
  (hvisit : ∀ c key e, P c → P (visit c key e).1)

include hvisit

theorem parseBlob_context (m : Mem) (fin : UInt16) (index : ℕ) (key : UInt16) {s : ParseState σ}
    (h : P s.context) : P (parseBlob m fin visit index key s).1.context := by
  unfold parseBlob
  dsimp only
  split_ifs
  · exact h
  · exact h
  · exact h
  · exact hvisit _ _ _ h
  · exact hvisit _ _ _ h

theorem parseScalar_context (m : Mem) (fin : UInt16) (index : ℕ) (key : UInt16)
    {s : ParseState σ} (h : P s.context) :
    P (parseScalar m fin visit index key s).1.context := by
  unfold parseScalar
  dsimp only
  split_ifs
  · exact h
  · exact h
  · exact hvisit _ _ _ h
  · exact hvisit _ _ _ h

theorem parseRecord_context (m : Mem) (fin : UInt16) {s : ParseState σ} (h : P s.context) :
    P (parseRecord m fin visit s).1.context := by
  unfold parseRecord
  dsimp only
  cases indexFromKey (readU16 m s.offset.toNat) with
  | none => split_ifs <;> exact h
  | some index =>
    dsimp only
    split_ifs
    · exact h
    · exact h
    · exact h
    · exact parseBlob_context hvisit m fin _ _ h
    · exact parseScalar_context hvisit m fin _ _ h

theorem parseRecords_context (m : Mem) (fin : UInt16) (n : ℕ) {s : ParseState σ}
    (h : P s.context) : P (parseRecords m fin visit n s).1.context := by
  induction n generalizing s with
  | zero => exact h
  | succ n ih =>
    have hrecord := parseRecord_context hvisit m fin h
    unfold parseRecords
    dsimp only
    split_ifs
    · exact ih hrecord
    · exact hrecord

theorem parse_context (m : Mem) (slot : Slot) {c : σ} (h : P c) :
    P (parse m slot visit c).1 := by
  have hrecords := parseRecords_context hvisit m (headerBytes + readU16 m offPayloadLength)
    (readU16 m offSignalCount).toNat (s := parseStart c) h
  unfold parse
  dsimp only
  split_ifs
  · exact h
  · exact hrecords
  · exact hrecords
  · exact hrecords
  · exact hrecords

/-- **Visits.** -/
theorem visitLatest_context (s : Memory) {c : σ} (h : P c) : P (visitLatest s visit c).2.1 := by
  unfold visitLatest
  rcases openLatest s with ⟨s', e | info⟩
  · exact h
  · exact parse_context hvisit s'.image info.slot h

end Visit

end J1939Gen.Storage

namespace J1939Gen.Persistence

open ByteMem Storage Generator

/-! ## The visitors of a load -/

section Load

variable {B : Build} {P : Gen → Prop}
  (hscalar : ∀ g key raw, P g → P (stageConstantRaw B g key raw).1)
  (hchunk : ∀ g key total offset chunk, P g → P (stageBlobChunk B g key total offset chunk).1)

include hchunk in
theorem foldl_loadBlobChunk_keeps (key : UInt16) (data : List UInt8) (offsets : List ℕ)
    {c : LoadContext} (h : P c.gen) : P (offsets.foldl (loadBlobChunk B key data) c).gen := by
  induction offsets generalizing c with
  | nil => exact h
  | cons offset offsets ih =>
    refine ih ?_
    unfold loadBlobChunk
    split_ifs
    · exact h
    · exact hchunk c.gen _ _ _ _ h

include hscalar hchunk

theorem loadRecord_keeps (c : LoadContext) (key : UInt16) (e : ValueStore.Entry) (h : P c.gen) :
    P (loadRecord B c key e).1.gen := by
  unfold loadRecord
  cases e with
  | scalar raw => exact hscalar c.gen key raw h
  | blob data => exact foldl_loadBlobChunk_keeps hchunk key data _ h

theorem visitLatest_keeps (memory : Memory) {g : Gen} (h : P g) :
    P (visitLatest memory (loadRecord B) ⟨g, true⟩).2.1.gen :=
  visitLatest_context (P := fun c : LoadContext => P c.gen)
    (fun c key e => loadRecord_keeps hscalar hchunk c key e) memory (c := ⟨g, true⟩) h

end Load

end J1939Gen.Persistence
