import J1939Gen.Tools.Catalog

/-!
# What an accepted catalog guarantees

The tables `build_catalog` returns satisfy everything the firmware reads off
them without a check of its own (`Reliable`): the index ranges of the PGNs, the
layout of every payload, the raw bounds, the key table and the profile masks.

* `buildCatalog_made`: the passes an accepted catalog went through.
* `testKey_profileMask`: a profile mask holds exactly the profile's keys.
* `accepted_reliable`: an accepted catalog is reliable.
-/

namespace J1939Gen.Tools

open Py

/-! ## Statement -/

/-- Bit `k - 1` of a profile mask. -/
def testKey (mask : List ℕ) (k : ℕ) : Bool := ((mask[(k - 1) / 8]?).getD 0).testBit ((k - 1) % 8)

/-- What the firmware relies on in its catalog tables. -/
structure Reliable (m : Model) : Prop where
  /-- The signals of a PGN are those at the indices of its range. -/
  contiguous : ∀ e ∈ m.pgns, e.firstSignal + e.signalCount ≤ m.signals.length ∧
    ∀ (i : ℕ) (s : CatalogSignal), m.signals[i]? = some s →
      (s.record.signal.pgn = e.group.pgn ↔
        e.firstSignal ≤ i ∧ i < e.firstSignal + e.signalCount)
  /-- Every index lies in the range of exactly one PGN, the one the signal names. -/
  partition : ∀ (i : ℕ) (s : CatalogSignal), m.signals[i]? = some s → s.index = i ∧
    ∀ k, k = s.pgnIndex ↔
      ∃ e : PgnEntry, m.pgns[k]? = some e ∧ e.firstSignal ≤ i ∧ i < e.firstSignal + e.signalCount
  ascending : (m.pgns.map fun e => e.group.pgn).Pairwise (· < ·)
  disjoint : ∀ (i j : ℕ) (s t : CatalogSignal), m.signals[i]? = some s → m.signals[j]? = some t → i ≠ j →
    s.record.signal.pgn = t.record.signal.pgn →
      s.record.endBit ≤ t.record.signal.startBit ∨ t.record.endBit ≤ s.record.signal.startBit
  inside : ∀ e ∈ m.pgns, ∀ s ∈ m.signals, s.record.signal.pgn = e.group.pgn →
    s.record.endBit ≤ e.group.payloadLength * 8
  bounds : ∀ s ∈ m.signals, 0 ≤ s.record.rawMin ∧ s.record.rawMin ≤ s.record.rawMax ∧
    (s.record.kind ≠ .blob →
      s.record.signal.bitLength ≤ 32 ∧ s.record.rawMax < 2 ^ s.record.signal.bitLength)
  /-- The key table holds at key `k` the index of the signal with key `k`. -/
  keyTable : (keyToIndex m).length = m.signals.length + 1 ∧
    ∀ k i, 1 ≤ k → ((keyToIndex m)[k]? = some i ↔
      ∃ s : CatalogSignal, m.signals[i]? = some s ∧ s.record.signal.key = k)
  keys : ∀ s ∈ m.signals, 1 ≤ s.record.signal.key ∧ s.record.signal.key ≤ m.signals.length
  /-- No real index is the sentinel of the key table. -/
  sentinel : ∀ i < m.signals.length, i < indexInvalidU8
  masks : ∀ p ∈ m.profiles, ∀ k, 1 ≤ k → (testKey p.mask k = true ↔ k ∈ p.profile.keys)

/-! ## Profile masks -/

theorem testKey_setKey {mask : List ℕ} {j k : ℕ} (hj : 1 ≤ j) (hk : 1 ≤ k)
    (hin : (j - 1) / 8 < mask.length) :
    testKey (setKey mask j) k = (testKey mask k || decide (k = j)) := by
  unfold testKey setKey
  rw [List.getElem?_modify]
  by_cases hbyte : (j - 1) / 8 = (k - 1) / 8
  · have hval : mask[(k - 1) / 8]? = some (mask[(j - 1) / 8]) := by
      rw [← hbyte, List.getElem?_eq_getElem hin]
    simp only [if_pos hbyte, hval, Option.map_eq_map, Option.map_some, Option.getD_some,
      Nat.testBit_or, Nat.shiftLeft_eq, one_mul, Nat.testBit_two_pow]
    congr 1
    rw [decide_eq_decide]
    omega
  · have hne : ¬k = j := by
      rintro rfl
      exact hbyte rfl
    simp [if_neg hbyte, hne]

theorem testKey_foldl_setKey {keys : List ℕ} {count k : ℕ} (hk : 1 ≤ k) :
    ∀ {mask : List ℕ}, mask.length = maskBytes count → (∀ j ∈ keys, 1 ≤ j ∧ j ≤ count) →
      testKey (keys.foldl setKey mask) k = (testKey mask k || decide (k ∈ keys)) := by
  induction keys with
  | nil =>
    intro mask _ _
    simp
  | cons j keys ih =>
    intro mask hlen hkeys
    obtain ⟨hj, hle⟩ := hkeys j List.mem_cons_self
    have hin : (j - 1) / 8 < mask.length := by
      rw [hlen, maskBytes]
      omega
    have hlen' : (setKey mask j).length = maskBytes count := by
      rw [setKey, List.length_modify, hlen]
    rw [List.foldl_cons, ih hlen' fun i hi => hkeys i (List.mem_cons_of_mem _ hi),
      testKey_setKey hj hk hin]
    simp [Bool.or_assoc]

/-- A profile mask holds exactly the profile's keys. -/
theorem testKey_profileMask {keys : List ℕ} {count k : ℕ} (hk : 1 ≤ k)
    (hkeys : ∀ j ∈ keys, 1 ≤ j ∧ j ≤ count) :
    testKey (profileMask count keys) k = true ↔ k ∈ keys := by
  have hzero : testKey (List.replicate (maskBytes count) 0) k = false := by
    unfold testKey
    rw [List.getElem?_replicate]
    split <;> simp
  unfold profileMask
  rw [testKey_foldl_setKey hk List.length_replicate hkeys, hzero, Bool.false_or,
    decide_eq_true_eq]

/-! ## The passes of an accepted catalog -/

theorem raising_eq_ok {α : Type} {x : Except Error α} {a : α} : raising x = .ok a ↔ x = .ok a := by
  cases x with
  | error e => exact ⟨fun h => (by cases h), fun h => (by cases h)⟩
  | ok b => exact ⟨fun h => (by cases h; rfl), fun h => (by cases h; rfl)⟩

theorem checked_eq_ok {α : Type} {x : Except (List Issue) α} {a : α} :
    checked x = .ok a ↔ x = .ok a := by
  cases x with
  | error e => exact ⟨fun h => (by cases h), fun h => (by cases h)⟩
  | ok b => exact ⟨fun h => (by cases h; rfl), fun h => (by cases h; rfl)⟩

/-- The records of the rows carry the keys `1..n` and are well formed. -/
theorem classifyRows_eq_ok {semantics : Value} {rows : List MasterRow} {signals : List Signal}
    {records : List Record} {repairs : List Repair}
    (h : classifyRows semantics rows = .ok (signals, records, repairs)) :
    (∀ r ∈ records, r.WellFormed) ∧
      records.map (fun r => r.signal.key) = List.range' 1 records.length := by
  unfold classifyRows at h
  obtain ⟨recordCount, -, h⟩ := bind_eq_ok.mp h
  obtain ⟨signals', hsignals, h⟩ := bind_eq_ok.mp h
  obtain ⟨uniqueCount, -, h⟩ := bind_eq_ok.mp h
  obtain ⟨records', hrecords, h⟩ := bind_eq_ok.mp h
  cases h
  obtain ⟨-, hparsed, -⟩ := gather_eq_ok.mp (checked_eq_ok.mp hsignals)
  obtain ⟨-, hclassified, -⟩ := gather_eq_ok.mp (checked_eq_ok.mp hrecords)
  have hlen : records.length = signals.length := by
    have := congrArg List.length hclassified
    simpa using this.symm
  have hsignal : ∀ i (hi : i < records.length) (hs : i < signals.length),
      records[i].WellFormed ∧ records[i].signal.key = i + 1 := by
    intro i hi hs
    have hrows : i < rows.length := by
      have := congrArg List.length hparsed
      simp at this
      omega
    have hp : (parseRow (i + 1) rows[i]).2 = .ok signals[i] := by
      have := List.getElem_of_eq hparsed (i := i) (by
        have := congrArg List.length hparsed
        simp at this
        simpa using by omega)
      simpa using this
    have hc : classify (duplicateSpns signals) signals[i] = .ok records[i] := by
      have := List.getElem_of_eq hclassified (i := i) (by simpa using hs)
      simpa using this
    obtain ⟨hwf, hkey⟩ := parseRow_wellFormed hp
    obtain ⟨hrec, hsig⟩ := classify_wellFormed hwf hc
    exact ⟨hrec, by rw [hsig, hkey]⟩
  refine ⟨fun r hr => ?_, ?_⟩
  · obtain ⟨i, hi, rfl⟩ := List.mem_iff_getElem.mp hr
    exact (hsignal i hi (hlen ▸ hi)).1
  · refine List.ext_getElem (by simp) fun i hi _ => ?_
    have hi' : i < records.length := by simpa using hi
    rw [List.getElem_map, (hsignal i hi' (hlen ▸ hi')).2, List.getElem_range']
    omega

theorem groups_of_turns {cfg : Config} {records : List Record} :
    ∀ {pgns : List ℕ} {groups : List Group},
      List.Forall₂ (fun pgn r => groupPgn cfg records pgn = .ok r) pgns (groups.map .ok) →
        groups.map Group.pgn = pgns ∧ ∀ g ∈ groups, g.Accepted records := by
  intro pgns groups hall
  induction groups generalizing pgns with
  | nil =>
    cases hall
    exact ⟨rfl, fun g hg => by cases hg⟩
  | cons g groups ih =>
    cases hall with
    | cons hg hall =>
      obtain ⟨hmap, hacc⟩ := ih hall
      obtain ⟨hpgn, haccg⟩ := groupPgn_eq_ok hg
      refine ⟨by rw [List.map_cons, hmap, hpgn], fun g' hg' => ?_⟩
      rcases List.mem_cons.mp hg' with rfl | hg'
      · exact haccg
      · exact hacc g' hg'

/-- The groups of the third pass: one accepted entry for every PGN of the records. -/
theorem groupRecords_eq_ok {semantics network : Value} {aliases : List (Text × Value × ℤ)}
    {pgnPolicies : List (ℤ × Value)} {records : List Record} {groups : List Group}
    (h : groupRecords semantics network aliases pgnPolicies records = .ok groups) :
    groups.map Group.pgn = sortedPgns records ∧ ∀ g ∈ groups, g.Accepted records := by
  unfold groupRecords at h
  obtain ⟨pgnCount, -, h⟩ := bind_eq_ok.mp h
  obtain ⟨netPgns, -, h⟩ := bind_eq_ok.mp h
  obtain ⟨netSa, -, h⟩ := bind_eq_ok.mp h
  obtain ⟨results, hresults, h⟩ := bind_eq_ok.mp h
  obtain ⟨-, rfl, -⟩ := gather_eq_ok.mp (checked_eq_ok.mp h)
  exact groups_of_turns (mapM_eq_ok.mp (raising_eq_ok.mp hresults))

theorem mem_sortedPgns {records : List Record} {pgn : ℕ} :
    pgn ∈ sortedPgns records ↔ ∃ r ∈ records, r.signal.pgn = pgn := by
  unfold sortedPgns
  rw [List.mem_insertionSort, List.mem_dedup, List.mem_map]

theorem sortedPgns_pairwise (records : List Record) : (sortedPgns records).Pairwise (· < ·) := by
  have hle : (sortedPgns records).Pairwise (· ≤ ·) := List.pairwise_insertionSort (· ≤ ·) _
  have hne : (sortedPgns records).Pairwise (· ≠ ·) :=
    (List.perm_insertionSort (· ≤ ·) _).nodup_iff.mpr (List.nodup_dedup _)
  exact (hle.and hne).imp fun h => lt_of_le_of_ne h.1 h.2

/-- The records of the groups are those of the rows, in another order. -/
theorem members_perm {records : List Record} {groups : List Group}
    (hpgns : groups.map Group.pgn = sortedPgns records)
    (hacc : ∀ g ∈ groups, g.Accepted records) : (groups.flatMap Group.members).Perm records := by
  have hmembers : groups.flatMap Group.members =
      (sortedPgns records).flatMap (membersOf records) := by
    rw [← hpgns, List.flatMap_map]
    exact List.flatMap_congr fun g hg => (hacc g hg).members
  have hsorted : ((sortedPgns records).flatMap (membersOf records)).Perm
      ((sortedPgns records).flatMap fun pgn => records.filter fun r => r.signal.pgn = pgn) := by
    apply List.Perm.flatMap_left
    intro pgn _
    exact List.perm_insertionSort _ _
  rw [hmembers]
  apply hsorted.trans
  apply Segments.flatMap_filter_perm (fun r : Record => r.signal.pgn)
  · exact (sortedPgns_pairwise records).imp fun h => ne_of_lt h
  · intro r hr
    exact mem_sortedPgns.mpr ⟨r, hr, rfl⟩

/-- What the first loop of `build_profiles` maintains: keys in range, and one profile with
every key. -/
structure ProfileScan.Ranged (scan : ProfileScan) (count : ℕ) : Prop where
  keys : ∀ p ∈ scan.entries, ∀ k ∈ p.keys, 1 ≤ k ∧ k ≤ count
  all : ∃ p ∈ scan.entries, p.keys.length = count

theorem profileKey?_eq_some {count k : ℕ} {v : Value} (h : profileKey? count v = some k) :
    1 ≤ k ∧ k ≤ count := by
  unfold profileKey? at h
  obtain ⟨i, hi, rfl⟩ := Option.map_eq_some_iff.mp h
  have hrange := of_decide_eq_true (Option.filter_eq_some_iff.mp hi).2
  omega

theorem mem_mapM_profileKey? {count : ℕ} {vs : List Value} {keys : List ℕ}
    (h : vs.mapM (profileKey? count) = some keys) : ∀ k ∈ keys, 1 ≤ k ∧ k ≤ count := by
  induction vs generalizing keys with
  | nil =>
    rw [List.mapM_nil] at h
    cases h
    intro k hk
    cases hk
  | cons v vs ih =>
    rw [List.mapM_cons] at h
    obtain ⟨k, hk, h⟩ := Option.bind_eq_some_iff.mp h
    obtain ⟨ks, hks, h⟩ := Option.bind_eq_some_iff.mp h
    cases h
    intro k' hk'
    rcases List.mem_cons.mp hk' with rfl | hk'
    · exact profileKey?_eq_some hk
    · exact ih hks k' hk'

theorem ProfileScan.Ranged.scanProfile {count : ℕ} {locked : Bool} {scan scan' : ProfileScan}
    {p : Value} (hscan : scan.Ranged count) (h : scanProfile count locked scan p = .ok scan') :
    scan'.Ranged count := by
  have hsame : ∀ s : ProfileScan, s.entries = scan.entries → s.Ranged count := by
    intro s hs
    exact ⟨hs ▸ hscan.keys, hs ▸ hscan.all⟩
  unfold Tools.scanProfile at h
  obtain ⟨_, -, h⟩ := bind_eq_ok.mp h
  obtain ⟨pid, -, h⟩ := bind_eq_ok.mp h
  obtain ⟨nameValue, -, h⟩ := bind_eq_ok.mp h
  obtain ⟨keysValue, -, h⟩ := bind_eq_ok.mp h
  obtain ⟨name, -, h⟩ := bind_eq_ok.mp h
  obtain ⟨_, -, h⟩ := bind_eq_ok.mp h
  obtain ⟨keyValues, -, h⟩ := bind_eq_ok.mp h
  obtain ⟨duplicate, -, h⟩ := bind_eq_ok.mp h
  cases hkeys : keyValues.mapM (profileKey? count) with
  | none =>
    simp only [hkeys] at h
    cases h
    exact hsame _ rfl
  | some keys =>
    simp only [hkeys] at h
    obtain ⟨expectedCount, -, h⟩ := bind_eq_ok.mp h
    obtain ⟨expectedPgnCount, -, h⟩ := bind_eq_ok.mp h
    cases h
    constructor
    · intro p' hp' k hk
      rcases List.mem_append.mp hp' with hp' | hp'
      · exact hscan.keys p' hp' k hk
      · obtain rfl := List.mem_singleton.mp hp'
        exact mem_mapM_profileKey? hkeys k ((List.mem_insertionSort (· ≤ ·)).mp hk)
    · obtain ⟨p', hp', hlen⟩ := hscan.all
      exact ⟨p', List.mem_append_left _ hp', hlen⟩

/-- What `build_profiles` promises: the masks of keys in range, and one profile with every
key. -/
theorem buildProfiles_eq_ok {cfg : Value} {byKey : List CatalogSignal} {pgns : List PgnEntry}
    {issues : List Issue} {profiles : List ProfileEntry}
    (h : buildProfiles cfg byKey pgns = .ok (issues, profiles)) :
    (∀ e ∈ profiles, e.mask = profileMask byKey.length e.profile.keys ∧
      ∀ k ∈ e.profile.keys, 1 ≤ k ∧ k ≤ byKey.length) ∧
    ∃ e ∈ profiles, e.profile.keys.length = byKey.length := by
  unfold buildProfiles at h
  obtain ⟨locked, -, h⟩ := bind_eq_ok.mp h
  obtain ⟨list, -, h⟩ := bind_eq_ok.mp h
  obtain ⟨entries, -, h⟩ := bind_eq_ok.mp h
  obtain ⟨scan, hscan, h⟩ := bind_eq_ok.mp h
  obtain ⟨finished, hfinished, h⟩ := bind_eq_ok.mp h
  cases h
  have hranged : scan.Ranged byKey.length := by
    refine foldlM_invariant (P := fun s => s.Ranged byKey.length)
      (fun s a s' hs hstep => hs.scanProfile hstep) ⟨?_, ?_⟩ hscan
    · intro p hp k hk
      obtain rfl := List.mem_singleton.mp hp
      have hk' : k ∈ List.range' 1 byKey.length := hk
      rw [List.mem_range'_1] at hk'
      omega
    · exact ⟨_, List.mem_singleton_self _, List.length_range' ..⟩
  have hturn : ∀ p r, finishProfile byKey pgns p = .ok r →
      r.2.profile = p ∧ r.2.mask = profileMask byKey.length p.keys := by
    intro p r hr
    unfold finishProfile at hr
    obtain ⟨members, -, hr⟩ := bind_eq_ok.mp hr
    cases hr
    exact ⟨rfl, rfl⟩
  constructor
  · intro e he
    obtain ⟨r, hr, rfl⟩ := List.mem_map.mp he
    obtain ⟨p, hp, hpr⟩ := mem_of_mapM_eq_ok hfinished hr
    obtain ⟨hprofile, hmask⟩ := hturn p r hpr
    rw [hprofile]
    exact ⟨hmask, hranged.keys p hp⟩
  · obtain ⟨p, hp, hlen⟩ := hranged.all
    obtain ⟨r, hr, hpr⟩ := exists_of_mapM_eq_ok hfinished hp
    exact ⟨r.2, List.mem_map_of_mem hr, by rw [(hturn p r hpr).1, hlen]⟩

/-- The passes an accepted catalog went through. -/
structure Made (packF32 : ℚ → Except Error (List UInt8)) (m : Model) (records : List Record)
    (groups : List Group) : Prop where
  wellFormed : ∀ r ∈ records, r.WellFormed
  keys : records.map (fun r => r.signal.key) = List.range' 1 records.length
  pgnsSorted : groups.map Group.pgn = sortedPgns records
  accepted : ∀ g ∈ groups, g.Accepted records
  signals : m.signals = (orderGroups groups).ordered
  pgns : m.pgns = (orderGroups groups).pgns
  byKey : m.signalsByKey = signalsByKey m.signals
  masks : ∀ e ∈ m.profiles, e.mask = profileMask m.signalsByKey.length e.profile.keys ∧
    ∀ k ∈ e.profile.keys, 1 ≤ k ∧ k ≤ m.signalsByKey.length
  all : ∃ e ∈ m.profiles, e.profile.keys.length = m.signalsByKey.length
  serialized : ∃ bytes, catalogCrcBytes packF32 m = .ok bytes

/-- An accepted catalog went through every pass. -/
theorem buildCatalog_made {packF32 : ℚ → Except Error (List UInt8)} {rows : List MasterRow}
    {policy network profilesCfg : Value} {m : Model} {crc : UInt32}
    (h : buildCatalog packF32 rows policy network profilesCfg = .ok (m, crc)) :
    ∃ records groups, Made packF32 m records groups := by
  unfold buildCatalog at h
  obtain ⟨semantics, -, h⟩ := bind_eq_ok.mp h
  obtain ⟨aliases, -, h⟩ := bind_eq_ok.mp h
  obtain ⟨pgnPolicies, -, h⟩ := bind_eq_ok.mp h
  obtain ⟨⟨signals, records, repairs⟩, hrows, h⟩ := bind_eq_ok.mp h
  obtain ⟨groups, hgroups, h⟩ := bind_eq_ok.mp h
  by_cases hscales : 255 < (orderGroups groups).scales.length
  · simp only [if_pos hscales] at h
    cases h
  simp only [if_neg hscales] at h
  obtain ⟨vin, -, h⟩ := bind_eq_ok.mp h
  obtain ⟨dm1, -, h⟩ := bind_eq_ok.mp h
  obtain ⟨⟨profileIssues, profiles⟩, hprofiles, h⟩ := bind_eq_ok.mp h
  by_cases hissues : vin ++ dm1 ++ profileIssues = []
  · simp only [hissues, ne_eq, not_true_eq_false, if_false] at h
    obtain ⟨crc', hcrc, h⟩ := bind_eq_ok.mp h
    cases h
    obtain ⟨hwf, hkeys⟩ := classifyRows_eq_ok hrows
    obtain ⟨hpgns, hacc⟩ := groupRecords_eq_ok hgroups
    obtain ⟨hmasks, hall⟩ := buildProfiles_eq_ok (raising_eq_ok.mp hprofiles)
    obtain ⟨bytes, hbytes, -⟩ := bind_eq_ok.mp (raising_eq_ok.mp hcrc)
    exact ⟨records, groups, hwf, hkeys, hpgns, hacc, rfl, rfl, rfl, hmasks, hall, bytes, hbytes⟩
  · simp only [ne_eq, hissues, not_false_eq_true, if_true] at h
    cases h

/-! ## Ranges -/

section
variable {packF32 : ℚ → Except Error (List UInt8)} {m : Model} {records : List Record}
  {groups : List Group}

theorem Made.records_perm (h : Made packF32 m records groups) :
    (m.signals.map CatalogSignal.record).Perm records := by
  rw [h.signals, (orderGroups_placed groups).records]
  exact members_perm h.pgnsSorted h.accepted

theorem Made.wellFormed_of_mem (h : Made packF32 m records groups) {s : CatalogSignal}
    (hs : s ∈ m.signals) : s.record.WellFormed :=
  h.wellFormed _ (h.records_perm.mem_iff.mp (List.mem_map_of_mem hs))

theorem Made.groups_eq (h : Made packF32 m records groups) :
    m.pgns.map PgnEntry.group = groups := by
  rw [h.pgns]
  exact (orderGroups_placed groups).groups

theorem Made.accepted_of_mem (h : Made packF32 m records groups) {e : PgnEntry}
    (he : e ∈ m.pgns) : e.group.Accepted records :=
  h.accepted _ (h.groups_eq ▸ List.mem_map_of_mem he)

theorem Made.ascending (h : Made packF32 m records groups) :
    (m.pgns.map fun e => e.group.pgn).Pairwise (· < ·) := by
  have hmap : m.pgns.map (fun e => e.group.pgn) = sortedPgns records := by
    rw [← h.pgnsSorted, ← h.groups_eq, List.map_map]
    rfl
  rw [hmap]
  exact sortedPgns_pairwise records

/-- Two entries of one PGN are one entry. -/
theorem Made.entry_unique (h : Made packF32 m records groups) {k l : ℕ} {e f : PgnEntry}
    (he : m.pgns[k]? = some e) (hf : m.pgns[l]? = some f) (hpgn : e.group.pgn = f.group.pgn) :
    k = l := by
  have hasc := List.pairwise_iff_getElem.mp h.ascending
  obtain ⟨hk, rfl⟩ := List.getElem?_eq_some_iff.mp he
  obtain ⟨hl, rfl⟩ := List.getElem?_eq_some_iff.mp hf
  rcases lt_trichotomy k l with hkl | hkl | hkl
  · have := hasc k l (by simpa using hk) (by simpa using hl) hkl
    simp only [List.getElem_map] at this
    omega
  · exact hkl
  · have := hasc l k (by simpa using hl) (by simpa using hk) hkl
    simp only [List.getElem_map] at this
    omega

/-- The signal at an index of a PGN's range is the record at that place of the PGN. -/
theorem Made.record_of_range (h : Made packF32 m records groups) {k i : ℕ} {e : PgnEntry}
    {s : CatalogSignal} (he : m.pgns[k]? = some e) (hs : m.signals[i]? = some s)
    (hlo : e.firstSignal ≤ i) (hhi : i < e.firstSignal + e.signalCount) :
    e.group.members[i - e.firstSignal]? = some s.record := by
  have hplaced := orderGroups_placed groups
  rw [h.pgns] at he
  rw [h.signals] at hs
  obtain ⟨-, -, -, hall⟩ := hplaced.entries k e he
  obtain ⟨t, ht, hm⟩ := hall (i - e.firstSignal) (by omega)
  rw [show e.firstSignal + (i - e.firstSignal) = i by omega, hs] at ht
  obtain rfl := Option.some.inj ht
  exact hm

theorem Made.pgn_of_range (h : Made packF32 m records groups) {k i : ℕ} {e : PgnEntry}
    {s : CatalogSignal} (he : m.pgns[k]? = some e) (hs : m.signals[i]? = some s)
    (hlo : e.firstSignal ≤ i) (hhi : i < e.firstSignal + e.signalCount) :
    s.record.signal.pgn = e.group.pgn := by
  have hmem := List.mem_of_getElem? (h.record_of_range he hs hlo hhi)
  rw [(h.accepted_of_mem (List.mem_of_getElem? he)).members] at hmem
  exact (mem_membersOf.mp hmem).2

/-- Every signal stands in the range of the PGN it names. -/
theorem Made.range_of_signal (h : Made packF32 m records groups) {i : ℕ} {s : CatalogSignal}
    (hs : m.signals[i]? = some s) :
    s.index = i ∧ ∃ e, m.pgns[s.pgnIndex]? = some e ∧ e.firstSignal ≤ i ∧
      i < e.firstSignal + e.signalCount := by
  rw [h.signals] at hs
  rw [h.pgns]
  exact (orderGroups_placed groups).signals i s hs

theorem Made.contiguous (h : Made packF32 m records groups) {e : PgnEntry} (he : e ∈ m.pgns) :
    e.firstSignal + e.signalCount ≤ m.signals.length ∧
      ∀ (i : ℕ) (s : CatalogSignal), m.signals[i]? = some s →
        (s.record.signal.pgn = e.group.pgn ↔
          e.firstSignal ≤ i ∧ i < e.firstSignal + e.signalCount) := by
  obtain ⟨k, he⟩ := List.mem_iff_getElem?.mp he
  constructor
  · have he' := he
    rw [h.pgns] at he'
    rw [h.signals]
    exact ((orderGroups_placed groups).entries k e he').2.2.1
  · intro i s hs
    constructor
    · intro hpgn
      obtain ⟨-, f, hf, hlo, hhi⟩ := h.range_of_signal hs
      have hkl := h.entry_unique he hf (by rw [← hpgn, h.pgn_of_range hf hs hlo hhi])
      obtain rfl : e = f := by
        rw [hkl, hf] at he
        exact (Option.some.inj he).symm
      exact ⟨hlo, hhi⟩
    · rintro ⟨hlo, hhi⟩
      exact h.pgn_of_range he hs hlo hhi

theorem Made.partition (h : Made packF32 m records groups) {i : ℕ} {s : CatalogSignal}
    (hs : m.signals[i]? = some s) (k : ℕ) :
    k = s.pgnIndex ↔
      ∃ e : PgnEntry, m.pgns[k]? = some e ∧ e.firstSignal ≤ i ∧
        i < e.firstSignal + e.signalCount := by
  obtain ⟨-, e, he, hrange⟩ := h.range_of_signal hs
  constructor
  · rintro rfl
    exact ⟨e, he, hrange⟩
  · rintro ⟨f, hf, hlo, hhi⟩
    apply h.entry_unique hf he
    rw [← h.pgn_of_range hf hs hlo hhi, ← h.pgn_of_range he hs hrange.1 hrange.2]

/-! ## Payload layout -/

/-- Two signals of one PGN lie side by side. -/
theorem Made.disjoint (h : Made packF32 m records groups) {i j : ℕ} {s t : CatalogSignal}
    (hs : m.signals[i]? = some s) (ht : m.signals[j]? = some t) (hij : i < j)
    (hpgn : s.record.signal.pgn = t.record.signal.pgn) :
    s.record.endBit ≤ t.record.signal.startBit := by
  obtain ⟨-, e, he, hlo, hhi⟩ := h.range_of_signal hs
  have hmem := List.mem_of_getElem? he
  have hpe : t.record.signal.pgn = e.group.pgn := by rw [← hpgn, h.pgn_of_range he hs hlo hhi]
  obtain ⟨hlo', hhi'⟩ := ((h.contiguous hmem).2 j t ht).mp hpe
  have hpair := List.pairwise_iff_getElem.mp (members_pairwise (h.accepted_of_mem hmem).layout)
  obtain ⟨hi, hsr⟩ := List.getElem?_eq_some_iff.mp (h.record_of_range he hs hlo hhi)
  obtain ⟨hj, htr⟩ := List.getElem?_eq_some_iff.mp (h.record_of_range he ht hlo' hhi')
  have := hpair (i - e.firstSignal) (j - e.firstSignal) hi hj (by omega)
  rwa [hsr, htr] at this

/-- A signal lies inside the payload of its PGN. -/
theorem Made.inside (h : Made packF32 m records groups) {e : PgnEntry} {s : CatalogSignal}
    (he : e ∈ m.pgns) (hs : s ∈ m.signals) (hpgn : s.record.signal.pgn = e.group.pgn) :
    s.record.endBit ≤ e.group.payloadLength * 8 := by
  have hacc := h.accepted_of_mem he
  have hrec := h.records_perm.mem_iff.mp (List.mem_map_of_mem hs)
  rw [hacc.payload]
  apply endBit_le
  rw [hacc.members]
  exact mem_membersOf.mpr ⟨hrec, hpgn⟩

/-! ## Keys -/

theorem Made.length_byKey (h : Made packF32 m records groups) :
    m.signalsByKey.length = m.signals.length := by
  rw [h.byKey]
  exact List.length_insertionSort _ _

/-- Sorted by key, the signals carry the keys `1..n` in order. -/
theorem Made.map_key (h : Made packF32 m records groups) :
    m.signalsByKey.map (fun s => s.record.signal.key) = List.range' 1 m.signals.length := by
  have hperm : (m.signals.map fun s => s.record.signal.key).Perm
      (List.range' 1 m.signals.length) := by
    have hrec := h.records_perm.map fun r => r.signal.key
    rw [List.map_map, h.keys, ← h.records_perm.length_eq, List.length_map] at hrec
    exact hrec
  rw [h.byKey]
  apply Segments.map_key_of_dense
  · exact List.pairwise_insertionSort (fun a b : CatalogSignal =>
      a.record.signal.key ≤ b.record.signal.key) _
  · exact ((List.perm_insertionSort _ _).map _).trans hperm

theorem Made.keys_range (h : Made packF32 m records groups) {s : CatalogSignal}
    (hs : s ∈ m.signals) :
    1 ≤ s.record.signal.key ∧ s.record.signal.key ≤ m.signals.length := by
  have hmem : s ∈ m.signalsByKey := by
    rw [h.byKey]
    exact (List.mem_insertionSort _).mpr hs
  have hkey := List.mem_map_of_mem (f := fun s : CatalogSignal => s.record.signal.key) hmem
  rw [h.map_key, List.mem_range'_1] at hkey
  omega

/-- The key table holds the indices of the signals under their keys. -/
theorem Made.keyToIndex_iff (h : Made packF32 m records groups) {k i : ℕ} (hk : 1 ≤ k) :
    (keyToIndex m)[k]? = some i ↔
      ∃ s : CatalogSignal, m.signals[i]? = some s ∧ s.record.signal.key = k := by
  obtain ⟨k, rfl⟩ : ∃ k', k = k' + 1 := ⟨k - 1, by omega⟩
  have hindex : ∀ s ∈ m.signals, m.signals[s.index]? = some s := by
    intro s hs
    obtain ⟨i, hi⟩ := List.mem_iff_getElem?.mp hs
    rw [(h.range_of_signal hi).1, hi]
  have hmem : ∀ s, s ∈ m.signalsByKey ↔ s ∈ m.signals := by
    intro s
    rw [h.byKey]
    exact List.mem_insertionSort _
  have hkeyAt : ∀ j t, m.signalsByKey[j]? = some t → t.record.signal.key = j + 1 := by
    intro j t ht
    have hj : (m.signalsByKey.map fun s => s.record.signal.key)[j]? =
        some t.record.signal.key := by
      rw [List.getElem?_map, ht]
      rfl
    have hlt : j < m.signals.length := h.length_byKey ▸ (List.getElem?_eq_some_iff.mp ht).1
    rw [h.map_key, List.getElem?_range' hlt] at hj
    have := Option.some.inj hj
    omega
  unfold keyToIndex
  rw [List.getElem?_cons_succ, List.getElem?_map, Option.map_eq_some_iff]
  constructor
  · rintro ⟨s, hs, rfl⟩
    exact ⟨s, hindex s ((hmem s).mp (List.mem_of_getElem? hs)), hkeyAt k s hs⟩
  · rintro ⟨s, hs, hkey⟩
    obtain ⟨j, hj⟩ := List.mem_iff_getElem?.mp ((hmem s).mpr (List.mem_of_getElem? hs))
    have := hkeyAt j s hj
    obtain rfl : j = k := by omega
    exact ⟨s, hj, (h.range_of_signal hs).1⟩

/-- The profile of every key fits its byte only with fewer than 256 records. -/
theorem Made.length_lt (h : Made packF32 m records groups) : m.signals.length < 256 := by
  obtain ⟨bytes, hbytes⟩ := h.serialized
  unfold catalogCrcBytes at hbytes
  obtain ⟨_, -, hbytes⟩ := bind_eq_ok.mp hbytes
  obtain ⟨_, -, hbytes⟩ := bind_eq_ok.mp hbytes
  obtain ⟨_, -, hbytes⟩ := bind_eq_ok.mp hbytes
  obtain ⟨_, -, hbytes⟩ := bind_eq_ok.mp hbytes
  obtain ⟨_, hprofiles, -⟩ := bind_eq_ok.mp hbytes
  obtain ⟨e, he, hlen⟩ := h.all
  obtain ⟨packed, -, hpack⟩ := exists_of_mapM_eq_ok hprofiles he
  have hfit := packFields_eq_ok hpack (1, (e.profile.keys.length : ℤ)) (by simp [profileFields])
  rw [hlen, h.length_byKey] at hfit
  have := hfit.2
  norm_num at this
  exact_mod_cast this

theorem Made.reliable (h : Made packF32 m records groups) : Reliable m where
  contiguous := fun e he => h.contiguous he
  partition := fun i s hs => ⟨(h.range_of_signal hs).1, h.partition hs⟩
  ascending := h.ascending
  disjoint := by
    intro i j s t hs ht hij hpgn
    rcases Nat.lt_or_gt_of_ne hij with hlt | hlt
    · exact .inl (h.disjoint hs ht hlt hpgn)
    · exact .inr (h.disjoint ht hs hlt hpgn.symm)
  inside := fun e he s hs hpgn => h.inside he hs hpgn
  bounds := by
    intro s hs
    have hwf := h.wellFormed_of_mem hs
    exact ⟨hwf.ordered.1, hwf.ordered.2, hwf.scalar⟩
  keyTable := by
    refine ⟨?_, fun k i hk => h.keyToIndex_iff hk⟩
    rw [keyToIndex, List.length_cons, List.length_map, h.length_byKey]
  keys := fun s hs => h.keys_range hs
  sentinel := by
    intro i hi
    have hlt := h.length_lt
    show i < 255
    omega
  masks := by
    intro p hp k hk
    obtain ⟨hmask, hkeys⟩ := h.masks p hp
    rw [hmask]
    exact testKey_profileMask hk hkeys

end

/-- Every catalog the generator accepts is one the firmware can rely on. -/
theorem accepted_reliable (packF32 : ℚ → Except Error (List UInt8)) (rows : List MasterRow)
    (policy network profilesCfg : Value) (m : Model) (crc : UInt32)
    (h : buildCatalog packF32 rows policy network profilesCfg = .ok (m, crc)) : Reliable m := by
  obtain ⟨records, groups, hmade⟩ := buildCatalog_made h
  exact hmade.reliable

/-! ## A small catalog -/

/-- The row of an 8-bit percentage at byte 1 of a PGN, sent every 100 ms. -/
def sampleRow (row : ℕ) (spn pgn : ℤ) (pgnHex : String) : MasterRow where
  row := row
  spn := .int spn
  name := .str "Engine Percent Load".toList
  pgnDec := .int pgn
  pgnHex := .str pgnHex.toList
  acronym := .str "PGN_LOAD".toList
  category := .str "Engine".toList
  rate := .str "100 ms".toList
  byte := .int 1
  bit := .int 1
  bits := .int 8
  resolution := .int 1
  offset := .int 0
  physicalRange := .str "[0, 250]".toList
  unit := .str "%".toList

/-- A dictionary; nothing reads its text. -/
def dictOf (entries : List (String × Value)) : Value :=
  .dict [] (entries.map fun e => (e.1.toList, e.2))

/-- The policy for PGNs with records of different SPNs. -/
def policyOf (records pgns : ℤ) : Value :=
  dictOf [("catalog_semantics", dictOf [("record_count", .int records),
      ("unique_spn_count", .int records), ("pgn_count", .int pgns)]),
    ("rate_normalization", .list [] [dictOf [("source_aliases", .list [] [.str "100 ms".toList]),
      ("mode", .str "PERIODIC".toList), ("period_ms", .int 100)]])]

/-- The policy for `count` PGNs of one record each. -/
def samplePolicy (count : ℤ) : Value := policyOf count count

/-- The network entries of the PGNs: priority 6, one source address. -/
def sampleNetwork (pgnsHex : List String) : Value :=
  dictOf [("source_addresses", dictOf [("ENGINE_1", .int 0)]),
    ("pgns", dictOf (pgnsHex.map fun h =>
      (h, dictOf [("priority", .int 6), ("owner", .str "ENGINE_1".toList)])))]

/-- No customer profile. -/
def sampleProfiles : Value := dictOf [("profiles", .list [] [])]

/-- `struct.pack("<f", q)` of the two scale values of the small catalog. -/
def packUnitF32 (q : ℚ) : Except Error (List UInt8) :=
  if q = 1 then .ok [0, 0, 0x80, 0x3F] else if q = 0 then .ok [0, 0, 0, 0] else .error .struct

theorem eq_ok_of_toOption {α : Type} {x : Except Failure α} {a : α}
    (h : x.toOption = some a) : x = .ok a := by
  cases x with
  | error e => cases h
  | ok b => exact congrArg Except.ok (Option.some.inj h)

theorem exists_of_isSome {α : Type} {x : Except Failure α} (h : x.toOption.isSome = true) :
    ∃ a, x = .ok a := by
  obtain ⟨a, ha⟩ := Option.isSome_iff_exists.mp h
  exact ⟨a, eq_ok_of_toOption ha⟩

/-- Two records in one PGN and one in another. -/
def mixedRows : List MasterRow :=
  [sampleRow 6 92 0xF003 "0xF003", { sampleRow 7 91 0xF003 "0xF003" with byte := .int 2 },
    sampleRow 8 190 0xF004 "0xF004"]

/-- A customer profile with a record of each PGN. -/
def mixedProfiles : Value :=
  dictOf [("profiles", .list [] [dictOf [("id", .int 1), ("name", .str "BASIC".toList),
    ("keys", .list [] [.int 3, .int 1]), ("expected_count", .int 2),
    ("expected_pgn_count", .int 2)]])]

theorem accepted_reliable_mixed : ∃ m crc,
    buildCatalog packUnitF32 mixedRows (policyOf 3 2) (sampleNetwork ["0xF003", "0xF004"])
      mixedProfiles = .ok (m, crc) ∧ Reliable m := by
  obtain ⟨⟨m, crc⟩, h⟩ := exists_of_isSome (x := buildCatalog packUnitF32 mixedRows
    (policyOf 3 2) (sampleNetwork ["0xF003", "0xF004"]) mixedProfiles) (by decide +kernel)
  exact ⟨m, crc, h, accepted_reliable _ _ _ _ _ _ _ h⟩

end J1939Gen.Tools
