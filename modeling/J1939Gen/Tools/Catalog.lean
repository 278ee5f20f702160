import J1939Gen.Tools.Grouping
import J1939Gen.Crc32

/-!
# The catalog generator

`build_catalog`, `build_profiles`, `catalog_crc_bytes` and the key table of
`render_catalog_c` (`tools/generate_j1939_catalog.py`, lines 296–704 and
983–989), over the passes of the modules below. The 32-bit float conversion of
the scales is the parameter `packF32`; the bus-load figures and the texts of the
report are not modelled.
-/

namespace J1939Gen.Tools

open Py

/-- How `build_catalog` fails: a `CatalogError`, or an exception of Python's own. -/
inductive Failure
  | catalog (issues : List Issue)
  | raised (error : Error)
deriving DecidableEq

/-- A built-in operation whose exception leaves the generator. -/
def raising {α : Type} : Except Error α → Except Failure α
  | .ok a => .ok a
  | .error e => .error (.raised e)

/-- `if errors: raise CatalogError(errors)`. -/
def checked {α : Type} : Except (List Issue) α → Except Failure α
  | .ok a => .ok a
  | .error issues => .error (.catalog issues)

/-! ## Customer profiles -/

/-- `PROFILE_ID_ALL`. -/
def profileIdAll : ℤ := 0

/-- An entry of `profiles`. -/
structure Profile where
  id : ℤ
  name : Text
  keys : List ℕ
  expectedCount : Value
  expectedPgnCount : Value
  locked : Bool
  generated : Bool

/-- An entry of `profiles` with the fields its second loop adds. -/
structure ProfileEntry where
  profile : Profile
  pgns : List ℕ
  tpKeys : List ℕ
  requiresTp : Bool
  mask : List ℕ
  flags : ℕ

/-- `re.fullmatch(r"[A-Z][A-Z0-9_]*", name)`. -/
def profileNameMatches (t : Text) : Bool :=
  match t with
  | [] => false
  | c :: cs => 'A' ≤ c ∧ c ≤ 'Z' ∧ cs.all identifierChar

/-- The key a value stands for, where it is an integer in `1..count`. -/
def profileKey? (count : ℕ) (v : Value) : Option ℕ :=
  (v.int?.filter fun i : ℤ => 1 ≤ i ∧ i ≤ count).map Int.toNat

/-- `len(set(keys)) != len(keys)`. -/
def duplicateKeys (keys : List Value) : Except Error Bool :=
  if keys.all Value.hashable then pure (!(keys.Pairwise fun a b => a.eq b = false))
  else throw .type

/-- What the first loop of `build_profiles` carries: the entries, the identifiers and the
names seen, and the issues. -/
structure ProfileScan where
  entries : List Profile
  seenIds : List Value
  seenNames : List Text
  issues : List Issue

/-- One turn of the first loop (`generate_j1939_catalog.py:613-631`). -/
def scanProfile (count : ℕ) (locked : Bool) (scan : ProfileScan) (p : Value) :
    Except Error ProfileScan := do
  let _ ← p.get "name".toList
  let pid ← p.item "id".toList
  let nameValue ← p.item "name".toList
  let keysValue ← p.item "keys".toList
  let idIssues : List Issue :=
    match pid.int? with
    | some i => if 1 ≤ i ∧ i ≤ 254 ∧ !(scan.seenIds.any pid.eq) then [] else [.profileId]
    | none => [.profileId]
  let name ← nameValue.asStr
  let nameIssues : List Issue :=
    if profileNameMatches name ∧ name ∉ scan.seenNames then [] else [.profileName]
  let _ ← pid.hash
  let keys ← keysValue.iter
  let duplicateIssues : List Issue := if ← duplicateKeys keys then [.profileDuplicateKeys] else []
  let scan' : ProfileScan :=
    { scan with
      seenIds := pid :: scan.seenIds
      seenNames := name :: scan.seenNames
      issues := scan.issues ++ idIssues ++ nameIssues ++ duplicateIssues }
  match keys.mapM (profileKey? count) with
  | none => pure { scan' with issues := scan'.issues ++ [.profileKeysOutside] }
  | some keys =>
    let expectedCount ← p.item "expected_count".toList
    let expectedPgnCount ← p.item "expected_pgn_count".toList
    pure { scan' with
      entries := scan'.entries ++
        [{ id := (pid.int?).getD 0, name, keys := keys.insertionSort (· ≤ ·), expectedCount
           expectedPgnCount, locked, generated := false }] }

/-- `mask_bytes`. -/
def maskBytes (count : ℕ) : ℕ := (count + 7) / 8

/-- `mask[(k - 1) // 8] |= 1 << ((k - 1) % 8)`. -/
def setKey (mask : List ℕ) (k : ℕ) : List ℕ :=
  mask.modify ((k - 1) / 8) (· ||| (1 <<< ((k - 1) % 8)))

/-- The mask of a profile's keys (`generate_j1939_catalog.py:640-642`). -/
def profileMask (count : ℕ) (keys : List ℕ) : List ℕ :=
  keys.foldl setKey (List.replicate (maskBytes count) 0)

/-- One turn of the second loop (`generate_j1939_catalog.py:634-652`). -/
def finishProfile (byKey : List CatalogSignal) (pgns : List PgnEntry) (p : Profile) :
    Except Error (List Issue × ProfileEntry) := do
  let members ← p.keys.mapM fun k =>
    match byKey[k - 1]? with
    | some s => pure s
    | none => throw .index
  let pgnSet := ((members.map fun s => s.record.signal.pgn).dedup).insertionSort (· ≤ ·)
  let requiresTp (s : CatalogSignal) : Bool :=
    pgns.any fun e => e.group.pgn = s.record.signal.pgn ∧ e.group.requiresTp
  let tpKeys := (members.filter requiresTp).map fun s => s.record.signal.key
  let entry : ProfileEntry :=
    { profile := p, pgns := pgnSet, tpKeys, requiresTp := tpKeys ≠ []
      mask := profileMask byKey.length p.keys
      flags := (if p.locked then 1 else 0) ||| (if tpKeys ≠ [] then 2 else 0) }
  pure
    ((if p.expectedCount.eq (.int p.keys.length) then []
        else [.profileKeyCount p.name p.keys.length]) ++
      (if p.expectedPgnCount.eq (.int pgnSet.length) then []
        else [.profilePgnCount p.name pgnSet.length]),
      entry)

/-- `cfg.get("policy", {}).get("locked_required_set", True)`. -/
def lockedRequiredSet (cfg : Value) : Except Error Bool := do
  match ← cfg.get "policy".toList with
  | none => pure true
  | some policy =>
    match ← policy.get "locked_required_set".toList with
    | none => pure true
    | some v => pure v.truthy

/-- The generated profile of every key. -/
def allProfile (count pgnCount : ℕ) : Profile where
  id := profileIdAll
  name := "ALL".toList
  keys := List.range' 1 count
  expectedCount := .int count
  expectedPgnCount := .int pgnCount
  locked := false
  generated := true

/-- `build_profiles` (`generate_j1939_catalog.py:605-653`): the issues and the entries. -/
def buildProfiles (cfg : Value) (byKey : List CatalogSignal) (pgns : List PgnEntry) :
    Except Error (List Issue × List ProfileEntry) := do
  let locked ← lockedRequiredSet cfg
  let start : ProfileScan :=
    { entries := [allProfile byKey.length pgns.length], seenIds := [.int profileIdAll]
      seenNames := ["ALL".toList], issues := [] }
  let scan ← (← (← cfg.item "profiles".toList).iter).foldlM
    (scanProfile byKey.length locked) start
  let finished ← scan.entries.mapM (finishProfile byKey pgns)
  pure (scan.issues ++ finished.flatMap Prod.fst, finished.map Prod.snd)

/-! ## Policy cross-checks -/

/-- The VIN policy (`generate_j1939_catalog.py:569-576`). -/
def vinIssues (policy : Value) (pgns : List PgnEntry) : Except Error (List Issue) := do
  match given (← policy.get "vin".toList) with
  | none => pure []
  | some vin =>
    let vinPgn ← vin.item "pgn".toList
    let maximum ← vin.item "maximum_bytes".toList
    let payloadIssues : List Issue :=
      match pgns.find? fun e => Value.eq (.int e.group.pgn) vinPgn with
      | some e => if Value.eq (.int e.group.payloadLength) maximum then [] else [.vinPayload]
      | none => [.vinPayload]
    let tx ← ((← vin.get "demo_transmit_bytes".toList).getD maximum).toInt
    if (classicalCanMaxDlc : ℤ) < tx then
      let most ← maximum.toInt
      pure (payloadIssues ++ if tx ≤ most then [] else [.vinDemoBytes tx])
    else pure (payloadIssues ++ [.vinDemoBytes tx])

/-- The DM1 policy (`generate_j1939_catalog.py:577-579`). -/
def dm1Issues (policy : Value) (pgns : List PgnEntry) : Except Error (List Issue) := do
  match given (← policy.get "dm1".toList) with
  | none => pure []
  | some dm1 =>
    let dm1Pgn ← dm1.item "pgn".toList
    pure (if pgns.any fun e => Value.eq (.int e.group.pgn) dm1Pgn then [] else [.dm1NotInMaster])

/-! ## The catalog model -/

/-- The dictionary `build_catalog` returns, less the documents it was made from. -/
structure Model where
  signalsByKey : List CatalogSignal
  signals : List CatalogSignal
  pgns : List PgnEntry
  scales : List (ℚ × ℚ)
  profiles : List ProfileEntry
  duplicateSpns : List (ℕ × List ℕ)
  uniqueSpnCount : ℕ
  warnings : List Warning
  repairs : List Repair

/-- `CATALOG_SCHEMA_VERSION`. -/
def catalogSchemaVersion : ℤ := 1

/-- The fields of a signal in the serialization, with their widths. -/
def signalFields (s : CatalogSignal) : List (ℕ × ℤ) :=
  [(2, s.record.signal.key), (4, s.record.signal.spn), (1, s.pgnIndex),
    (2, s.record.signal.startBit), (2, s.record.signal.bitLength), (4, s.record.rawMin),
    (4, s.record.rawMax), (1, s.scaleIndex), (1, s.record.kind.code), (1, s.flags),
    (1, s.record.codec.code)]

/-- The fields of a PGN in the serialization, with their widths. -/
def pgnFields (e : PgnEntry) : List (ℕ × ℤ) :=
  [(4, e.group.pgn), (2, e.firstSignal), (1, e.signalCount), (2, e.group.payloadLength),
    (2, e.group.periodMs), (2, e.group.minIntervalMs), (1, e.group.priority),
    (1, e.group.sourceAddress), (1, e.group.mode.code), (1, e.group.flags),
    (1, e.group.changeThresholdPct)]

/-- The fields of a profile in the serialization, the mask after them. -/
def profileFields (e : ProfileEntry) : List (ℕ × ℤ) :=
  [(1, e.profile.id), (1, e.profile.keys.length), (1, e.pgns.length), (1, e.flags)] ++
    e.mask.map fun b => (1, (b : ℤ))

/-- `catalog_crc_bytes` (`generate_j1939_catalog.py:679-700`). -/
def catalogCrcBytes (packF32 : ℚ → Except Error (List UInt8)) (m : Model) :
    Except Error (List UInt8) := do
  let counts ← packFields [(2, catalogSchemaVersion), (2, m.signals.length), (2, m.pgns.length),
    (2, m.scales.length), (2, m.profiles.length)]
  let signals ← m.signals.mapM fun s => packFields (signalFields s)
  let scales ← m.scales.mapM fun s => do pure ((← packF32 s.1) ++ (← packF32 s.2))
  let pgns ← m.pgns.mapM fun e => packFields (pgnFields e)
  let profiles ← m.profiles.mapM fun e => packFields (profileFields e)
  pure ("J1939CAT".toList.map (fun c => UInt8.ofNat c.toNat) ++ counts ++ signals.flatten ++
    scales.flatten ++ pgns.flatten ++ profiles.flatten)

/-- `catalog_crc32` (`generate_j1939_catalog.py:703-704`). -/
def catalogCrc32 (packF32 : ℚ → Except Error (List UInt8)) (m : Model) : Except Error UInt32 := do
  pure (Crc32.final (Crc32.update Crc32.init (← catalogCrcBytes packF32 m)))

/-- The first two passes: the records of the rows (`generate_j1939_catalog.py:308-452`). -/
def classifyRows (semantics : Value) (rows : List MasterRow) :
    Except Failure (List Signal × List Record × List Repair) := do
  let parsed := rows.zipIdx.map fun (r, i) => parseRow (i + 1) r
  let recordCount ← raising (semantics.item "record_count".toList)
  let signals ← checked (gather [] (parsed.map Prod.snd)
    (if recordCount.eq (.int rows.length) then [] else [.recordCount rows.length]))
  let uniqueCount ← raising (semantics.item "unique_spn_count".toList)
  let records ← checked (gather
    (duplicateIssues signals ++
      if uniqueCount.eq (.int (spnPgns signals).length) then []
      else [.uniqueSpnCount (spnPgns signals).length])
    (signals.map (classify (duplicateSpns signals))) [])
  pure (signals, records, parsed.flatMap Prod.fst)

/-- The third pass: the PGN groups (`generate_j1939_catalog.py:454-538`). -/
def groupRecords (semantics network : Value) (aliases : List (Text × Value × ℤ))
    (pgnPolicies : List (ℤ × Value)) (records : List Record) : Except Failure (List Group) := do
  let pgns := sortedPgns records
  let pgnCount ← raising (semantics.item "pgn_count".toList)
  let netPgns ← raising (do hexKeyed (← network.item "pgns".toList))
  let netSa ← raising (network.item "source_addresses".toList)
  let extra (d : List (ℤ × Value)) : List ℤ :=
    ((d.map Prod.fst).filter fun k => k ∉ pgns.map fun n => (n : ℤ)).insertionSort (· ≤ ·)
  let groups ← raising (pgns.mapM (groupPgn ⟨aliases, pgnPolicies, netPgns, netSa⟩ records))
  checked (gather
    ((if pgnCount.eq (.int pgns.length) then [] else [.pgnCount pgns.length]) ++
      (extra netPgns).map .networkNotInMaster ++ (extra pgnPolicies).map .policyNotInMaster)
    groups [])

/-- `signals_by_key`. -/
def signalsByKey (ordered : List CatalogSignal) : List CatalogSignal :=
  ordered.insertionSort fun a b => a.record.signal.key ≤ b.record.signal.key

/-- `build_catalog` (`generate_j1939_catalog.py:296-602`): the model and its CRC. -/
def buildCatalog (packF32 : ℚ → Except Error (List UInt8)) (rows : List MasterRow)
    (policy network profilesCfg : Value) : Except Failure (Model × UInt32) := do
  let semantics ← raising (policy.item "catalog_semantics".toList)
  let aliases ← raising (rateAliases policy)
  let pgnPolicies ← raising (do
    match ← policy.get "pgn_policies".toList with
    | some d => hexKeyed d
    | none => pure [])
  let (signals, records, repairs) ← classifyRows semantics rows
  let groups ← groupRecords semantics network aliases pgnPolicies records
  let order := orderGroups groups
  if 255 < order.scales.length then throw (.catalog [.tooManyScales order.scales.length])
  let byKey := signalsByKey order.ordered
  let vin ← raising (vinIssues policy order.pgns)
  let dm1 ← raising (dm1Issues policy order.pgns)
  let (profileIssues, profiles) ← raising (buildProfiles profilesCfg byKey order.pgns)
  if vin ++ dm1 ++ profileIssues ≠ [] then throw (.catalog (vin ++ dm1 ++ profileIssues))
  let model : Model :=
    { signalsByKey := byKey, signals := order.ordered, pgns := order.pgns, scales := order.scales
      profiles, duplicateSpns := duplicateSpns signals, uniqueSpnCount := (spnPgns signals).length
      warnings := classifyWarnings records, repairs }
  let crc ← raising (catalogCrc32 packF32 model)
  pure (model, crc)

/-- `INDEX_INVALID_U8`. -/
def indexInvalidU8 : ℕ := 0xFF

/-- The key table `render_catalog_c` emits (`generate_j1939_catalog.py:984`). -/
def keyToIndex (m : Model) : List ℕ := indexInvalidU8 :: m.signalsByKey.map CatalogSignal.index

end J1939Gen.Tools
