import J1939Gen.Lib.PyValue

/-!
# Master rows

The field parsing of `tools/generate_j1939_catalog.py` (lines 182–374): one row
of the master workbook, cells of any type, becomes a signal or a list of issues.
The cells are the values the workbook reader returns. Issues are kept as data;
their texts are not modelled.

* `Signal.WellFormed`: what every parsed row satisfies.
* `parseRow_wellFormed`: a row that parses satisfies it.
-/

namespace J1939Gen.Tools

open Py

/-! ## Issues -/

/-- The integer columns of a row. -/
inductive IntColumn
  | spn
  | pgnDec
  | byte
  | bit
  | bits
deriving DecidableEq, Repr

/-- The `ValueError`s of a row's scale and range. -/
inductive ScaleError
  | notNumeric
  | resolutionNotPositive
  | invalidRange
  | rangeReversed
deriving DecidableEq, Repr

/-- The `ValueError`s of a PGN's transmission rule. -/
inductive RuleError
  | unresolved (rate : Text)
  | modeConflict
  | unknownMode
  | periodicWithoutPeriod
  | unsolicitedWithoutPeriod
  | noFallbackPeriod
  | onChangeIncomplete
  | rateCapNotDivisor
  | fractionalThreshold
  | notAnInteger
deriving DecidableEq, Repr

/-- The columns every record of a PGN must agree on. -/
inductive SharedColumn
  | acronym
  | rate
deriving DecidableEq, Repr

/-- The entries of `errors`, in the order of the source. -/
inductive Issue
  | notInteger (row : ℕ) (column : IntColumn)
  | outside (row : ℕ) (column : IntColumn) (value minimum maximum : ℤ)
  | hexMismatch (row : ℕ) (pgnHex : Text) (pgn : ℤ)
  | invalidHex (row : ℕ) (pgnHex : Text)
  | invalidAcronym (row : ℕ) (acronym : Text)
  | emptyRate (row : ℕ)
  | emptyName (row : ℕ)
  | nonPrintableName (row : ℕ) (name : Text)
  | scale (row : ℕ) (error : ScaleError)
  | recordCount (count : ℕ)
  | duplicateIdentity (row pgn spn earlier : ℕ)
  | uniqueSpnCount (count : ℕ)
  | noCodec (row bits : ℕ)
  | blobScale (row : ℕ)
  | belowOffset (row : ℕ)
  | aboveCapacity (row bits : ℕ)
  | emptyRawRange (row : ℕ) (rawMin rawMax : ℤ)
  | pgnCount (count : ℕ)
  | networkNotInMaster (pgn : ℤ)
  | policyNotInMaster (pgn : ℤ)
  | inconsistent (pgn : ℕ) (column : SharedColumn)
  | overlap (pgn first second : ℕ)
  | payloadTooLong (pgn bytes : ℕ)
  | rule (pgn : ℕ) (error : RuleError)
  | maximumPayload (pgn payload : ℕ)
  | missingNetwork (pgn : ℕ)
  | priorityOutside (pgn : ℕ) (priority : ℤ)
  | unknownOwner (pgn : ℕ)
  | tooManyScales (count : ℕ)
  | vinPayload
  | vinDemoBytes (bytes : ℤ)
  | dm1NotInMaster
  | profileId
  | profileName
  | profileDuplicateKeys
  | profileKeysOutside
  | profileKeyCount (name : Text) (count : ℕ)
  | profilePgnCount (name : Text) (count : ℕ)
deriving DecidableEq, Repr

/-! ## Constants -/

/-- `J1939_TP_MAX_BYTES`. -/
def tpMaxBytes : ℕ := 1785

/-- `TEXT_REPAIRS`: dashes to plain ASCII. -/
def textRepairs : List (Char × Char) := [(Char.ofNat 0x2013, '-'), (Char.ofNat 0x2014, '-')]

/-! ## Cells -/

/-- `MasterRow`. -/
structure MasterRow where
  row : ℕ
  spn : Value
  name : Value
  pgnDec : Value
  pgnHex : Value
  acronym : Value
  category : Value
  rate : Value
  byte : Value
  bit : Value
  bits : Value
  resolution : Value
  offset : Value
  physicalRange : Value
  unit : Value

/-- The integer a cell holds; a Boolean is none (`generate_j1939_catalog.py:183-187`). -/
def cellInt? : Value → Option ℤ
  | .int i => some i
  | .float f => if f.exact.den = 1 then some f.exact.num else none
  | _ => none

/-- `_int_field` (`generate_j1939_catalog.py:182-194`): the integer of a cell within its
bounds. -/
def intField (row : ℕ) (column : IntColumn) (value : Value) (minimum maximum : ℤ) :
    Except (List Issue) ℤ :=
  match cellInt? value with
  | none => .error [.notInteger row column]
  | some i =>
    if i < minimum ∨ maximum < i then .error [.outside row column i minimum maximum] else .ok i

/-- `_decimal` (`generate_j1939_catalog.py:197-201`): the rational the cell displays. -/
def decimal : Value → Except ScaleError ℚ
  | .int i => .ok i
  | .float f => .ok f.shown
  | _ => .error .notNumeric

/-- `_text` (`generate_j1939_catalog.py:213-214`). -/
def text : Value → Text
  | .none => []
  | v => joinWords v.toText

/-- `_repair_text` (`generate_j1939_catalog.py:217-223`): the text and the repairs made. -/
def repairText (t : Text) : Text × List (Char × Char) :=
  textRepairs.foldl
    (fun (t, applied) (bad, good) =>
      if bad ∈ t then (t.map fun c => if c = bad then good else c, applied ++ [(bad, good)])
      else (t, applied))
    (t, [])

/-- `[A-Z0-9_]`. -/
def identifierChar (c : Char) : Bool := ('A' ≤ c ∧ c ≤ 'Z') ∨ ('0' ≤ c ∧ c ≤ '9') ∨ c = '_'

/-- `re.fullmatch(r"PGN_[A-Z0-9_]+", acronym)`. -/
def acronymMatches (t : Text) : Bool :=
  t.take 4 = "PGN_".toList ∧ t.drop 4 ≠ [] ∧ (t.drop 4).all identifierChar

/-- A bound of `_RANGE_RE`, `-?\d+(?:\.\d+)?`. -/
structure Bound where
  negative : Bool
  whole : List ℕ
  decimals : List ℕ
deriving DecidableEq, Repr

/-- The rational a bound shows. -/
def Bound.value (b : Bound) : ℚ :=
  let digits := (b.whole ++ b.decimals).foldl (fun (n d : ℕ) => n * 10 + d) 0
  (if b.negative then -1 else 1) * (digits : ℚ) / 10 ^ b.decimals.length

/-- `_display_tolerance` (`generate_j1939_catalog.py:207-210`). -/
def Bound.tolerance (b : Bound) : ℚ := 1 / (2 * 10 ^ b.decimals.length)

/-- `\d*`. -/
def digitRun : Text → List ℕ × Text
  | [] => ([], [])
  | c :: cs =>
    match decimalDigit? c with
    | some d => (d :: (digitRun cs).1, (digitRun cs).2)
    | none => ([], c :: cs)

/-- The bound a text starts with, and what follows it. -/
def bound? (t : Text) : Option (Bound × Text) :=
  let negative := t.head? = some '-'
  let (whole, rest) := digitRun (if negative then t.drop 1 else t)
  if whole = [] then none
  else
    match rest with
    | '.' :: cs =>
      if (digitRun cs).1 = [] then some (⟨negative, whole, []⟩, rest)
      else some (⟨negative, whole, (digitRun cs).1⟩, (digitRun cs).2)
    | _ => some (⟨negative, whole, []⟩, rest)

/-- `_RANGE_RE.match` (`generate_j1939_catalog.py:204`). -/
def range? (t : Text) : Option (Bound × Bound) :=
  match t with
  | '[' :: t =>
    match bound? (t.dropWhile isSpace) with
    | none => none
    | some (low, t) =>
      match t.dropWhile isSpace with
      | ',' :: t =>
        match bound? (t.dropWhile isSpace) with
        | none => none
        | some (high, t) => if t.dropWhile isSpace = [']'] then some (low, high) else none
      | _ => none
  | _ => none

/-- `operational_raw_max` (`generate_j1939_catalog.py:226-232`). -/
def operationalRawMax (bits : ℕ) : ℕ :=
  let capacity := (1 <<< bits) - 1
  if 8 ≤ bits ∧ bits % 8 = 0 then (0xFA <<< (bits - 8)) ||| ((1 <<< (bits - 8)) - 1)
  else capacity

/-! ## Rows -/

/-- The scale and the physical range of a row. -/
structure Scale where
  resolution : ℚ
  offset : ℚ
  physMin : ℚ
  physMax : ℚ
  tolMin : ℚ
  tolMax : ℚ

/-- The `try` block of a row (`generate_j1939_catalog.py:340-356`). -/
def parseScale (r : MasterRow) : Except ScaleError Scale := do
  let resolution ← decimal r.resolution
  let offset ← decimal r.offset
  if resolution ≤ 0 then throw .resolutionNotPositive
  match range? (text r.physicalRange) with
  | none => throw .invalidRange
  | some (low, high) =>
    if high.value < low.value then throw .rangeReversed
    pure { resolution, offset, physMin := low.value, physMax := high.value,
           tolMin := low.tolerance, tolMax := high.tolerance }

/-- The entry of `signals` made from one row. -/
structure Signal where
  key : ℕ
  row : ℕ
  spn : ℕ
  name : Text
  pgn : ℕ
  acronym : Text
  category : Text
  rate : Text
  unit : Text
  startByte : ℕ
  startBitInByte : ℕ
  startBit : ℕ
  bitLength : ℕ
  scale : Scale

/-- An entry of `repairs`: a character of a name replaced. -/
structure Repair where
  row : ℕ
  key : ℕ
  bad : Char
  good : Char
deriving DecidableEq, Repr

/-- The issues of a result. -/
def issuesOf {α : Type} : Except (List Issue) α → List Issue
  | .error issues => issues
  | .ok _ => []

/-- The check of the hexadecimal column against the decimal one. -/
def hexIssues (row : ℕ) (pgnHex : Text) : Except (List Issue) ℤ → List Issue
  | .error _ => []
  | .ok pgn =>
    match parseInt 16 pgnHex with
    | .error _ => [.invalidHex row pgnHex]
    | .ok i => if i ≠ pgn then [.hexMismatch row pgnHex pgn] else []

/-- One turn of the row loop (`generate_j1939_catalog.py:310-369`). -/
def parseRow (key : ℕ) (r : MasterRow) : List Repair × Except (List Issue) Signal :=
  let spn := intField r.row .spn r.spn 1 0x7FFFF
  let pgn := intField r.row .pgnDec r.pgnDec 0 0x3FFFF
  let byte := intField r.row .byte r.byte 1 tpMaxBytes
  let bit := intField r.row .bit r.bit 1 8
  let bits := intField r.row .bits r.bits 1 (tpMaxBytes * 8)
  let acronym := text r.acronym
  let rate := text r.rate
  let (name, applied) := repairText (text r.name)
  let scale := parseScale r
  let issues :=
    issuesOf spn ++ issuesOf pgn ++ issuesOf byte ++ issuesOf bit ++ issuesOf bits ++
      hexIssues r.row (text r.pgnHex) pgn ++
      (if acronymMatches acronym then [] else [.invalidAcronym r.row acronym]) ++
      (if rate = [] then [.emptyRate r.row] else []) ++
      (if name = [] then [.emptyName r.row] else []) ++
      (if name.any (fun c => 0x7E < c.toNat ∨ c.toNat < 0x20) then [.nonPrintableName r.row name]
        else []) ++
      (match scale with
        | .error e => [.scale r.row e]
        | .ok _ => [])
  (applied.map fun (bad, good) => ⟨r.row, key, bad, good⟩,
    match spn, pgn, byte, bit, bits, scale, issues with
    | .ok spn, .ok pgn, .ok byte, .ok bit, .ok bits, .ok scale, [] =>
      .ok { key, row := r.row, spn := spn.toNat, name, pgn := pgn.toNat
            acronym := acronym.drop 4, category := text r.category, rate, unit := text r.unit
            startByte := byte.toNat, startBitInByte := bit.toNat
            startBit := (byte.toNat - 1) * 8 + (bit.toNat - 1), bitLength := bits.toNat, scale }
    | _, _, _, _, _, _, issues => .error issues)

/-! ## Parsed rows -/

/-- What the checks of a row promise of its signal. -/
structure Signal.WellFormed (s : Signal) : Prop where
  pgn : s.pgn ≤ 0x3FFFF
  spn : 1 ≤ s.spn ∧ s.spn ≤ 0x7FFFF
  bits : 1 ≤ s.bitLength
  resolution : 0 < s.scale.resolution
  range : s.scale.physMin ≤ s.scale.physMax
  tolerance : 0 < s.scale.tolMin ∧ 0 < s.scale.tolMax

theorem intField_eq_ok {row : ℕ} {column : IntColumn} {value : Value} {minimum maximum i : ℤ}
    (h : intField row column value minimum maximum = .ok i) : minimum ≤ i ∧ i ≤ maximum := by
  unfold intField at h
  split at h
  · cases h
  · next j hj =>
    by_cases hout : j < minimum ∨ maximum < j
    · rw [if_pos hout] at h
      cases h
    · rw [if_neg hout] at h
      cases h
      omega

theorem Bound.tolerance_pos (b : Bound) : 0 < b.tolerance := by
  unfold Bound.tolerance
  positivity

theorem parseScale_eq_ok {r : MasterRow} {scale : Scale} (h : parseScale r = .ok scale) :
    0 < scale.resolution ∧ scale.physMin ≤ scale.physMax ∧ 0 < scale.tolMin ∧
      0 < scale.tolMax := by
  unfold parseScale at h
  obtain ⟨resolution, -, h⟩ := bind_eq_ok.mp h
  obtain ⟨offset, -, h⟩ := bind_eq_ok.mp h
  by_cases hres : resolution ≤ 0
  · rw [if_pos hres] at h
    cases h
  rw [if_neg hres] at h
  cases hrange : range? (text r.physicalRange) with
  | none =>
    rw [hrange] at h
    cases h
  | some bounds =>
    obtain ⟨low, high⟩ := bounds
    rw [hrange] at h
    by_cases hrev : high.value < low.value
    · simp only [if_pos hrev] at h
      cases h
    · simp only [if_neg hrev] at h
      cases h
      exact ⟨not_le.mp hres, not_lt.mp hrev, low.tolerance_pos, high.tolerance_pos⟩

/-- A row that parses has a well-formed signal with the row's key. -/
theorem parseRow_wellFormed {key : ℕ} {r : MasterRow} {s : Signal}
    (h : (parseRow key r).2 = .ok s) : s.WellFormed ∧ s.key = key := by
  unfold parseRow at h
  simp only at h
  split at h
  · next spn pgn byte bit bits scale hspn hpgn hbyte hbit hbits hscale hissues =>
    cases h
    have hs := intField_eq_ok hspn
    have hp := intField_eq_ok hpgn
    have hb := intField_eq_ok hbits
    obtain ⟨hres, hrange, hmin, hmax⟩ := parseScale_eq_ok hscale
    refine ⟨⟨?_, ?_, ?_, hres, hrange, hmin, hmax⟩, rfl⟩
    · show pgn.toNat ≤ 0x3FFFF
      omega
    · show 1 ≤ spn.toNat ∧ spn.toNat ≤ 0x7FFFF
      omega
    · show 1 ≤ bits.toNat
      omega
  · cases h

end J1939Gen.Tools
