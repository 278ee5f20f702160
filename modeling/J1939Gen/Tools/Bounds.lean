import J1939Gen.Tools.Rows
import Mathlib.Data.List.Sort

/-!
# Classification and raw bounds

The second pass of `build_catalog` (`tools/generate_j1939_catalog.py`, lines
376–452): duplicate identities, the kind of each signal and the raw values its
physical range allows.

* `operationalRawMax_le`: the operational limit lies within the bit capacity.
* `Record.WellFormed`: what every classified record satisfies.
* `classify_wellFormed`: a record accepted by the pass satisfies it.
-/

namespace J1939Gen.Tools

open Py

/-- `SCALAR_MAX_BITS`. -/
def scalarMaxBits : ℕ := 32

/-- The control kinds, in the order of `CONTROL_KINDS`. -/
inductive Kind
  | continuous
  | boolean
  | enum
  | blob
deriving DecidableEq, Repr

/-- `CONTROL_KINDS[kind]`. -/
def Kind.code : Kind → ℕ
  | continuous => 0
  | boolean => 1
  | enum => 2
  | blob => 3

/-- The codecs, in the order of `SPECIAL_CODECS`. -/
inductive Codec
  | none
  | asciiBlob
deriving DecidableEq, Repr

/-- `SPECIAL_CODECS[codec]`. -/
def Codec.code : Codec → ℕ
  | none => 0
  | asciiBlob => 1

/-- Why a raw bound is not the printed one. -/
inductive Adjustment
  | clamped (needed limit : ℤ)
  | minOffGrid (rawMin : ℤ)
  | maxOffGrid (rawMax : ℤ)
deriving DecidableEq, Repr

/-- The entries of `warnings`. -/
inductive Warning
  | smallRange (key pgn spn : ℕ) (rawMax limit : ℤ)
  | adjusted (key pgn spn : ℕ) (adjustment : Adjustment)
deriving DecidableEq, Repr

/-- A signal with the fields its classification adds. -/
structure Record where
  signal : Signal
  kind : Kind
  codec : Codec
  rawMin : ℤ
  rawMax : ℤ
  rawCapacity : ℤ
  globalControl : Bool
  duplicateSpn : Bool
  adjustments : List Adjustment

/-! ## Identity -/

/-- The duplicates of `(PGN, SPN)` (`generate_j1939_catalog.py:377-384`). -/
def duplicateIssues (signals : List Signal) : List Issue :=
  let step : List ((ℕ × ℕ) × ℕ) × List Issue → Signal → List ((ℕ × ℕ) × ℕ) × List Issue :=
    fun (byPgnSpn, issues) s =>
      (insertKey byPgnSpn (s.pgn, s.spn) s.row,
        match find byPgnSpn (s.pgn, s.spn) with
        | some row => issues ++ [.duplicateIdentity s.row s.pgn s.spn row]
        | none => issues)
  (signals.foldl step ([], [])).2

/-- `spn_pgns`: the PGNs of every SPN. -/
def spnPgns (signals : List Signal) : List (ℕ × List ℕ) :=
  signals.foldl (fun d s => insertKey d s.spn (((find d s.spn).getD []) ++ [s.pgn])) []

/-- `duplicate_spns`: the SPNs carried by more than one PGN. -/
def duplicateSpns (signals : List Signal) : List (ℕ × List ℕ) :=
  ((spnPgns signals).filter fun e => 1 < e.2.length).map fun e =>
    (e.1, e.2.insertionSort (· ≤ ·))

/-! ## Bounds -/

/-- Units whose values are discrete codes, `DISCRETE_UNITS`. -/
def discreteUnits : List Text := ["State".toList, "SA".toList]

/-- `raw_min` and `raw_max` before the clamp (`generate_j1939_catalog.py:419-420`). -/
def rawBounds (scale : Scale) : ℤ × ℤ :=
  (max 0 ⌈(scale.physMin - scale.tolMin - scale.offset) / scale.resolution⌉,
    ⌊(scale.physMax + scale.tolMax - scale.offset) / scale.resolution⌋)

/-- The kind of a field of at most 32 bits (`generate_j1939_catalog.py:409-410`). -/
def scalarKind (s : Signal) : Kind :=
  if s.unit ∈ discreteUnits then (if s.bitLength = 2 then .boolean else .enum) else .continuous

/-- `capacity`: the largest value of a field. -/
def capacity (bits : ℕ) : ℤ := ((1 <<< bits : ℕ) : ℤ) - 1

/-- `limit` (`generate_j1939_catalog.py:426`). -/
def rawLimit (s : Signal) : ℤ :=
  if scalarKind s = .continuous then operationalRawMax s.bitLength else capacity s.bitLength

/-- `raw_max` after the clamp. -/
def clampedMax (s : Signal) : ℤ :=
  if rawLimit s < (rawBounds s.scale).2 then rawLimit s else (rawBounds s.scale).2

/-- The physical value of a raw one, its distance from `phys` above the tolerance. -/
def offGrid (scale : Scale) (raw : ℤ) (phys tolerance : ℚ) : Bool :=
  tolerance < |scale.offset + raw * scale.resolution - phys|

/-- `adjustments` of a scalar (`generate_j1939_catalog.py:427-440`). -/
def scalarAdjustments (s : Signal) : List Adjustment :=
  let rawMin := (rawBounds s.scale).1
  (if rawLimit s < (rawBounds s.scale).2 then [.clamped (rawBounds s.scale).2 (rawLimit s)]
    else []) ++
  (if offGrid s.scale rawMin s.scale.physMin s.scale.tolMin then [.minOffGrid rawMin] else []) ++
  (if clampedMax s < rawLimit s ∧ offGrid s.scale (clampedMax s) s.scale.physMax s.scale.tolMax
    then [.maxOffGrid (clampedMax s)] else [])

/-- The warnings of a scalar (`generate_j1939_catalog.py:441-449`). -/
def scalarWarnings (s : Signal) : List Warning :=
  (if scalarKind s = .continuous ∧ 16 ≤ s.bitLength ∧ clampedMax s * 100 < rawLimit s then
    [.smallRange s.key s.pgn s.spn (clampedMax s) (rawLimit s)] else []) ++
  (scalarAdjustments s).map fun a => .adjusted s.key s.pgn s.spn a

/-- The checks of a field of more than 32 bits (`generate_j1939_catalog.py:396-407`). -/
def classifyBlob (duplicateSpn : Bool) (s : Signal) : Except (List Issue) Record :=
  if s.unit ≠ "ASCII".toList ∨ s.bitLength % 8 ≠ 0 ∨ s.startBitInByte ≠ 1 then
    .error [.noCodec s.row s.bitLength]
  else if s.scale.resolution ≠ 1 ∨ s.scale.offset ≠ 0 ∨ s.scale.physMin ≠ 0 ∨
      s.scale.physMax ≠ 255 then
    .error [.blobScale s.row]
  else
    .ok { signal := s, kind := .blob, codec := .asciiBlob, rawMin := 0, rawMax := 255
          rawCapacity := 255, globalControl := false, duplicateSpn, adjustments := [] }

/-- The checks of a field of at most 32 bits (`generate_j1939_catalog.py:409-447`). -/
def classifyScalar (duplicateSpn : Bool) (s : Signal) : Except (List Issue) Record :=
  if s.scale.physMin < s.scale.offset then .error [.belowOffset s.row]
  else if (capacity s.bitLength : ℚ) < (s.scale.physMax - s.scale.offset) / s.scale.resolution then
    .error [.aboveCapacity s.row s.bitLength]
  else if clampedMax s < (rawBounds s.scale).1 then
    .error [.emptyRawRange s.row (rawBounds s.scale).1 (clampedMax s)]
  else
    .ok { signal := s, kind := scalarKind s, codec := .none, rawMin := (rawBounds s.scale).1
          rawMax := clampedMax s, rawCapacity := capacity s.bitLength
          globalControl := scalarKind s = .continuous, duplicateSpn
          adjustments := scalarAdjustments s }

/-- One turn of the classification loop (`generate_j1939_catalog.py:392-449`). -/
def classify (duplicates : List (ℕ × List ℕ)) (s : Signal) : Except (List Issue) Record :=
  let duplicateSpn := (duplicates.map Prod.fst).contains s.spn
  if scalarMaxBits < s.bitLength then classifyBlob duplicateSpn s
  else classifyScalar duplicateSpn s

/-- The warnings of the loop, for a catalog that passes it. -/
def classifyWarnings (records : List Record) : List Warning :=
  records.flatMap fun r => if r.kind = .blob then [] else scalarWarnings r.signal

/-! ## Accepted records -/

/-- The operational limit of a field lies within its bit capacity. -/
theorem operationalRawMax_le (bits : ℕ) : operationalRawMax bits ≤ 1 <<< bits - 1 := by
  unfold operationalRawMax
  by_cases hbytes : 8 ≤ bits ∧ bits % 8 = 0
  · rw [if_pos hbytes]
    obtain ⟨k, rfl⟩ : ∃ k, bits = k + 8 := ⟨bits - 8, by omega⟩
    simp only [Nat.add_sub_cancel, Nat.shiftLeft_eq, one_mul]
    have hlow : 2 ^ k - 1 < 2 ^ k := Nat.sub_lt (Nat.two_pow_pos k) one_pos
    rw [Nat.mul_comm, ← Nat.two_pow_add_eq_or_of_lt hlow, Nat.pow_add]
    have := Nat.two_pow_pos k
    omega
  · rw [if_neg hbytes]

/-- What the checks of the pass promise of a record. -/
structure Record.WellFormed (r : Record) : Prop where
  signal : r.signal.WellFormed
  ordered : 0 ≤ r.rawMin ∧ r.rawMin ≤ r.rawMax
  scalar : r.kind ≠ .blob → r.signal.bitLength ≤ 32 ∧ r.rawMax < 2 ^ r.signal.bitLength

theorem capacity_eq (bits : ℕ) : capacity bits = 2 ^ bits - 1 := by
  unfold capacity
  rw [Nat.shiftLeft_eq, one_mul]
  push_cast
  rfl

theorem rawLimit_le (s : Signal) : rawLimit s ≤ capacity s.bitLength := by
  unfold rawLimit
  by_cases hkind : scalarKind s = .continuous
  · rw [if_pos hkind]
    unfold capacity
    have hle := operationalRawMax_le s.bitLength
    have hpos : 0 < 1 <<< s.bitLength := by
      rw [Nat.shiftLeft_eq, one_mul]
      exact Nat.two_pow_pos _
    omega
  · rw [if_neg hkind]

theorem clampedMax_le (s : Signal) : clampedMax s ≤ rawLimit s := by
  unfold clampedMax
  by_cases hover : rawLimit s < (rawBounds s.scale).2
  · rw [if_pos hover]
  · rw [if_neg hover]
    exact not_lt.mp hover

theorem scalarKind_ne_blob (s : Signal) : scalarKind s ≠ .blob := by
  unfold scalarKind
  split
  · split <;> decide
  · decide

/-- A record accepted by the pass is well formed and keeps its signal. -/
theorem classify_wellFormed {duplicates : List (ℕ × List ℕ)} {s : Signal} {r : Record}
    (hs : s.WellFormed) (h : classify duplicates s = .ok r) : r.WellFormed ∧ r.signal = s := by
  unfold classify at h
  simp only at h
  by_cases hblob : scalarMaxBits < s.bitLength
  · rw [if_pos hblob] at h
    unfold classifyBlob at h
    split at h
    · cases h
    · split at h
      · cases h
      · cases h
        exact ⟨⟨hs, ⟨le_rfl, Int.zero_le_ofNat 255⟩, fun hk => absurd rfl hk⟩, rfl⟩
  · rw [if_neg hblob] at h
    have hbits : s.bitLength ≤ 32 := not_lt.mp hblob
    have hmax : clampedMax s < 2 ^ s.bitLength := by
      have hle := (clampedMax_le s).trans (rawLimit_le s)
      rw [capacity_eq] at hle
      omega
    unfold classifyScalar at h
    split at h
    · cases h
    · split at h
      · cases h
      · split at h
        · cases h
        · next horder =>
          cases h
          exact ⟨⟨hs, ⟨le_max_left _ _, not_lt.mp horder⟩, fun _ => ⟨hbits, hmax⟩⟩, rfl⟩

end J1939Gen.Tools
