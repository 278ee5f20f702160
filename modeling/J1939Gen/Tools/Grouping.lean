import J1939Gen.Tools.Bounds
import J1939Gen.Lib.Segments

/-!
# PGN grouping and catalog order

The third pass of `build_catalog` (`tools/generate_j1939_catalog.py`, lines
301–306 and 454–566): the transmission rule and the network entry of every PGN,
the layout checks of its records, and the order in which PGNs and records enter
the catalog.

* `groupPgn_eq_ok`: what the checks of the loop promise of a PGN's entry.
* `members_pairwise`: the fields of an accepted PGN do not overlap.
* `endBit_le`: they lie inside the payload.
* `orderGroups_placed`: where the records of the groups stand in the catalog.
-/

namespace J1939Gen.Tools

open Py

/-! ## Transmission rules -/

/-- The keys of `TX_MODES`. -/
inductive TxMode
  | periodic
  | onChange
  | engineSpeedDependent
  | onRequest
deriving DecidableEq, Repr

/-- `TX_MODES[mode]`. -/
def TxMode.code : TxMode → ℕ
  | periodic => 0
  | onChange => 1
  | engineSpeedDependent => 2
  | onRequest => 3

/-- The mode a value names, if it is a key of `TX_MODES`. -/
def txMode? : Value → Option TxMode
  | .str s =>
    if s = "PERIODIC".toList then some .periodic
    else if s = "ON_CHANGE".toList then some .onChange
    else if s = "ENGINE_SPEED_DEPENDENT".toList then some .engineSpeedDependent
    else if s = "ON_REQUEST".toList then some .onRequest
    else none
  | _ => none

/-- The policy and network documents, decoded up to the level the PGN loop reads. -/
structure Config where
  /-- `aliases`: a rate label's mode and period. -/
  aliases : List (Text × Value × ℤ)
  pgnPolicies : List (ℤ × Value)
  netPgns : List (ℤ × Value)
  netSa : Value

/-- `{int(k, 16): v for k, v in d.items()}`. -/
def hexKeyed (d : Value) : Except Error (List (ℤ × Value)) := do
  (← d.items).foldlM (fun acc e => do pure (insertKey acc (← parseInt 16 e.1) e.2)) []

/-- The rate aliases of the policy (`generate_j1939_catalog.py:302-305`). -/
def rateAliases (policy : Value) : Except Error (List (Text × Value × ℤ)) := do
  (← (← policy.item "rate_normalization".toList).iter).foldlM
    (fun acc entry => do
      (← (← entry.item "source_aliases".toList).iter).foldlM
        (fun acc label => do
          let mode ← entry.item "mode".toList
          let period ← (← entry.item "period_ms".toList).toInt
          pure (insertKey acc (text label) (mode, period)))
        acc)
    []

/-- `pol.get(key)` of an optional policy; a falsy policy counts as empty. -/
def policyGet (pol : Option Value) (key : Text) : Except Error (Option Value) :=
  match pol with
  | some v => if v.truthy then v.get key else pure none
  | none => pure none

/-- What leaves the `try` block of the PGN loop: a caught `ValueError`, or a raise. -/
inductive Leave
  | rule (error : RuleError)
  | raised (error : Error)

/-- A built-in operation inside the `try` block. -/
def inTry {α : Type} : Except Error α → Except Leave α
  | .ok a => .ok a
  | .error .value => .error (.rule .notAnInteger)
  | .error e => .error (.raised e)

/-- The value of an optional entry that counts as given. -/
def given (v : Option Value) : Option Value := v.filter Value.truthy

/-- `_resolve_rate` (`generate_j1939_catalog.py:243-256`): the mode and the alias period. -/
def resolveRate (rate : Text) (aliases : List (Text × Value × ℤ)) (pol : Option Value) :
    Except Leave (TxMode × ℤ) := do
  let mode? : Option Value := match ← inTry (policyGet pol "mode".toList) with
    | some .none => none
    | v => v
  match find aliases rate, mode? with
  | none, none => throw (.rule (.unresolved rate))
  | some (mode, period), none =>
    match txMode? mode with
    | some m => pure (m, period)
    | none => throw (if mode.hashable then .rule .unknownMode else .raised .type)
  | none, some mode =>
    match txMode? mode with
    | some m => pure (m, 0)
    | none => throw (if mode.hashable then .rule .unknownMode else .raised .type)
  | some (aliasMode, period), some mode =>
    if !(aliasMode.eq mode) then throw (.rule .modeConflict)
    match txMode? mode with
    | some m => pure (m, period)
    | none => throw (if mode.hashable then .rule .unknownMode else .raised .type)

/-- `int(policy.get(key, 0))`. -/
def policyInt (pol : Option Value) (key : Text) : Except Error ℤ := do
  match ← policyGet pol key with
  | some v => v.toInt
  | none => pure 0

/-- `_pgn_schedule` (`generate_j1939_catalog.py:259-293`): the period, the minimum interval
and the change threshold. -/
def pgnSchedule (mode : TxMode) (aliasPeriod : ℤ) (pol : Option Value) :
    Except Leave (ℤ × ℤ × ℤ) := do
  match mode with
  | .periodic =>
    if aliasPeriod ≤ 0 then throw (.rule .periodicWithoutPeriod)
    pure (aliasPeriod, 0, 0)
  | .onRequest =>
    let minInterval ← inTry (policyInt pol "minimum_response_interval_ms".toList)
    match given (← inTry (policyGet pol "unsolicited_periodic_enabled".toList)) with
    | none => pure (0, minInterval, 0)
    | some _ =>
      let period ← inTry (policyInt pol "unsolicited_period_ms".toList)
      if period ≤ 0 then throw (.rule .unsolicitedWithoutPeriod)
      pure (period, minInterval, 0)
  | .engineSpeedDependent =>
    match given (← inTry (policyGet pol "fallback_period_ms".toList)) with
    | none => throw (.rule .noFallbackPeriod)
    | some fallback => pure (← inTry fallback.toInt, 0, 0)
  | .onChange =>
    let fallback? := given (← inTry (policyGet pol "fallback_period_ms".toList))
    let rateCap? := given (← inTry (policyGet pol "maximum_messages_per_second".toList))
    match fallback?, rateCap? with
    | some fallback, some rateCap =>
      let cap ← inTry rateCap.toInt
      if cap = 0 then throw (.raised .zeroDivision)
      if (1000 : ℤ) % cap ≠ 0 then throw (.rule .rateCapNotDivisor)
      let threshold ← inTry (policyGet pol "change_threshold_percent".toList)
      match threshold with
      | some (.float f) => if f.exact.den ≠ 1 then throw (.rule .fractionalThreshold)
      | _ => pure ()
      let pct ← inTry (threshold.getD (.int 0)).toInt
      pure (← inTry fallback.toInt, (1000 : ℤ).fdiv cap, pct)
    | _, _ => throw (.rule .onChangeIncomplete)

/-! ## Layout of a PGN -/

/-- `CLASSICAL_CAN_MAX_DLC`. -/
def classicalCanMaxDlc : ℕ := 8

/-- The order of a PGN's records: start bit, then key. -/
def layoutLe (a b : Record) : Prop :=
  a.signal.startBit < b.signal.startBit ∨
    (a.signal.startBit = b.signal.startBit ∧ a.signal.key ≤ b.signal.key)

instance : DecidableRel layoutLe := fun _ _ => inferInstanceAs (Decidable (_ ∨ _))

/-- The first bit after a record's field. -/
def Record.endBit (r : Record) : ℕ := r.signal.startBit + r.signal.bitLength

/-- `members`: the records of one PGN in layout order. -/
def membersOf (records : List Record) (pgn : ℕ) : List Record :=
  (records.filter fun r => r.signal.pgn = pgn).insertionSort layoutLe

/-- `sorted(groups)`: the PGNs of the records. -/
def sortedPgns (records : List Record) : List ℕ :=
  ((records.map fun r => r.signal.pgn).dedup).insertionSort (· ≤ ·)

/-- `required_length`: the bytes the fields occupy. -/
def requiredLength (members : List Record) : ℕ :=
  ((members.map Record.endBit).foldl max 0 + 7) / 8

/-- `payload_length` (`generate_j1939_catalog.py:484-489`). -/
def payloadLength (members : List Record) : ℕ :=
  if classicalCanMaxDlc < requiredLength members then requiredLength members
  else classicalCanMaxDlc

/-- Neighbours whose fields overlap (`generate_j1939_catalog.py:478-482`). -/
def overlapIssues (pgn : ℕ) (members : List Record) : List Issue :=
  (members.zip members.tail).flatMap fun (a, b) =>
    if b.signal.startBit < a.endBit then [.overlap pgn a.signal.key b.signal.key] else []

/-- The checks of a PGN's records (`generate_j1939_catalog.py:474-491`). -/
def layoutIssues (pgn : ℕ) (members : List Record) : List Issue :=
  (if (members.map fun r => r.signal.acronym).dedup.length ≠ 1 then
    [.inconsistent pgn .acronym] else []) ++
  (if (members.map fun r => r.signal.rate).dedup.length ≠ 1 then
    [.inconsistent pgn .rate] else []) ++
  overlapIssues pgn members ++
  (if tpMaxBytes < payloadLength members then [.payloadTooLong pgn (payloadLength members)] else [])

/-! ## PGN entries -/

/-- The entry of `pgns` before it has an index. -/
structure Group where
  pgn : ℕ
  acronym : Text
  rate : Text
  mode : TxMode
  periodMs : ℤ
  minIntervalMs : ℤ
  changeThresholdPct : ℤ
  engineerPeriodMs : ℤ
  payloadLength : ℕ
  requiredLength : ℕ
  requiresTp : Bool
  variableLength : Bool
  provisional : Bool
  tpDtPackets : ℕ
  priority : ℤ
  sourceAddress : ℤ
  flags : ℕ
  members : List Record

/-- The rule of a PGN: its mode, period, minimum interval and threshold. -/
def ruleOf (cfg : Config) (rate : Text) (pol : Option Value) :
    Except Leave (TxMode × ℤ × ℤ × ℤ) := do
  let (mode, aliasPeriod) ← resolveRate rate cfg.aliases pol
  pure (mode, ← pgnSchedule mode aliasPeriod pol)

/-- Whether an optional policy has a truthy entry. -/
def policyFlag (pol : Option Value) (key : Text) : Except Error Bool := do
  pure (given (← policyGet pol key)).isSome

/-- The payload bytes a variable-length policy allows are not the master's. -/
def payloadMismatch (pol : Option Value) (payload : ℕ) : Except Error Bool := do
  match ← policyGet pol "maximum_payload_bytes".toList with
  | some v => pure !(v.eq (.int payload))
  | none => pure true

/-- A result, unless issues were found on the way to it. -/
def acceptedIf {α : Type} : List Issue → α → Except (List Issue) α
  | [], a => .ok a
  | issues, _ => .error issues

/-- One turn of the PGN loop (`generate_j1939_catalog.py:470-535`). -/
def groupPgn (cfg : Config) (records : List Record) (pgn : ℕ) :
    Except Error (Except (List Issue) Group) := do
  let members := membersOf records pgn
  let head := members.head?.map Record.signal
  let acronym := (head.map Signal.acronym).getD []
  let rate := (head.map Signal.rate).getD []
  let payload := payloadLength members
  let pol := find cfg.pgnPolicies pgn
  match ruleOf cfg rate pol with
  | .error (.raised e) => throw e
  | .error (.rule e) => pure (.error (layoutIssues pgn members ++ [.rule pgn e]))
  | .ok (mode, periodMs, minIntervalMs, changeThresholdPct) =>
    let variableLength ← policyFlag pol "variable_length".toList
    let mismatch ← payloadMismatch pol payload
    let issues := layoutIssues pgn members ++
      (if variableLength ∧ mismatch then [.maximumPayload pgn payload] else [])
    match find cfg.netPgns pgn with
    | none => pure (.error (issues ++ [.missingNetwork pgn]))
    | some .none => pure (.error (issues ++ [.missingNetwork pgn]))
    | some net =>
      let priority ← (← net.item "priority".toList).toInt
      let issues := issues ++
        (if priority < 0 ∨ 7 < priority then [.priorityOutside pgn priority] else [])
      let owner ← net.item "owner".toList
      if !(← cfg.netSa.contains owner) then pure (.error (issues ++ [.unknownOwner pgn]))
      else
        let provisional ← policyFlag pol "customer_confirmation_required".toList
        let engineerPeriodMs ← policyInt pol "engineer_smooth_period_ms".toList
        let sourceAddress ← (← cfg.netSa.subscript owner).toInt
        let requiresTp := classicalCanMaxDlc < requiredLength members
        pure (acceptedIf issues
          { pgn, acronym, rate, mode, periodMs, minIntervalMs, changeThresholdPct
            engineerPeriodMs, payloadLength := payload
            requiredLength := requiredLength members, requiresTp, variableLength, provisional
            tpDtPackets := if requiresTp then (payload + 6) / 7 else 0
            priority, sourceAddress
            flags := (if requiresTp then 1 else 0) ||| (if variableLength then 2 else 0) |||
              (if provisional then 4 else 0)
            members })

/-! ## Catalog order -/

/-- An entry of the catalog's PGN table. -/
structure PgnEntry where
  group : Group
  index : ℕ
  firstSignal : ℕ
  signalCount : ℕ

/-- An entry of the catalog's signal table. -/
structure CatalogSignal where
  record : Record
  index : ℕ
  pgnIndex : ℕ
  pgnMode : TxMode
  scaleIndex : ℕ
  flags : ℕ

/-- The tables while they are filled. -/
structure Ordering where
  pgns : List PgnEntry
  ordered : List CatalogSignal
  scales : List (ℚ × ℚ)

/-- The flags of a signal (`generate_j1939_catalog.py:555-560`). -/
def signalFlags (r : Record) : ℕ :=
  (if r.globalControl then 1 else 0) ||| (if r.kind = .blob then 2 else 0) |||
    (if r.duplicateSpn then 4 else 0) ||| (if r.adjustments ≠ [] then 8 else 0)

/-- The next signal of the PGN at `pgnIndex`. -/
def placeSignal (pgnIndex : ℕ) (pgnMode : TxMode)
    (st : List CatalogSignal × List (ℚ × ℚ)) (r : Record) :
    List CatalogSignal × List (ℚ × ℚ) :=
  let scale := (r.signal.scale.resolution, r.signal.scale.offset)
  let scales := if scale ∈ st.2 then st.2 else st.2 ++ [scale]
  (st.1 ++ [{ record := r, index := st.1.length, pgnIndex, pgnMode
              scaleIndex := scales.idxOf scale, flags := signalFlags r }], scales)

/-- One turn of the ordering loop (`generate_j1939_catalog.py:543-561`). -/
def placeGroup (st : Ordering) (g : Group) : Ordering :=
  let filled := g.members.foldl (placeSignal st.pgns.length g.mode) (st.ordered, st.scales)
  { pgns := st.pgns ++ [⟨g, st.pgns.length, st.ordered.length, g.members.length⟩]
    ordered := filled.1
    scales := filled.2 }

/-- The tables of a list of groups. -/
def orderGroups (groups : List Group) : Ordering := groups.foldl placeGroup ⟨[], [], []⟩

/-! ## Accepted groups -/

/-- What the checks of the loop promise of a PGN's entry. -/
structure Group.Accepted (g : Group) (records : List Record) : Prop where
  members : g.members = membersOf records g.pgn
  payload : g.payloadLength = Tools.payloadLength g.members
  layout : layoutIssues g.pgn g.members = []
  priority : 0 ≤ g.priority ∧ g.priority ≤ 7

theorem acceptedIf_eq_ok {α : Type} {issues : List Issue} {a b : α} (h : acceptedIf issues a = .ok b) :
    issues = [] ∧ a = b := by
  cases issues with
  | nil => exact ⟨rfl, Except.ok.inj h⟩
  | cons i issues => cases h

/-- A PGN that passes the loop has an accepted entry. -/
theorem groupPgn_eq_ok {cfg : Config} {records : List Record} {pgn : ℕ} {g : Group}
    (h : groupPgn cfg records pgn = .ok (.ok g)) : g.pgn = pgn ∧ g.Accepted records := by
  unfold groupPgn at h
  simp only at h
  split at h
  · cases h
  · cases h
  · next mode period minInterval pct hrule =>
    obtain ⟨variableLength, -, h⟩ := bind_eq_ok.mp h
    obtain ⟨mismatch, -, h⟩ := bind_eq_ok.mp h
    split at h
    · cases h
    · cases h
    · next net hnet =>
      obtain ⟨prio, -, h⟩ := bind_eq_ok.mp h
      obtain ⟨priority, -, h⟩ := bind_eq_ok.mp h
      obtain ⟨owner, -, h⟩ := bind_eq_ok.mp h
      obtain ⟨known, -, h⟩ := bind_eq_ok.mp h
      split at h
      · cases h
      · obtain ⟨provisional, -, h⟩ := bind_eq_ok.mp h
        obtain ⟨engineer, -, h⟩ := bind_eq_ok.mp h
        obtain ⟨sa, -, h⟩ := bind_eq_ok.mp h
        obtain ⟨sourceAddress, -, h⟩ := bind_eq_ok.mp h
        obtain ⟨hnone, rfl⟩ := acceptedIf_eq_ok (Except.ok.inj h)
        rw [List.append_eq_nil_iff, List.append_eq_nil_iff] at hnone
        obtain ⟨⟨hlayout, -⟩, hprio⟩ := hnone
        refine ⟨rfl, ⟨rfl, rfl, hlayout, ?_⟩⟩
        by_cases hout : priority < 0 ∨ 7 < priority
        · rw [if_pos hout] at hprio
          cases hprio
        · show 0 ≤ priority ∧ priority ≤ 7
          omega

theorem mem_membersOf {records : List Record} {pgn : ℕ} {r : Record} :
    r ∈ membersOf records pgn ↔ r ∈ records ∧ r.signal.pgn = pgn := by
  unfold membersOf
  rw [List.mem_insertionSort, List.mem_filter, decide_eq_true_eq]

/-- The fields of an accepted PGN do not overlap. -/
theorem members_pairwise {pgn : ℕ} {members : List Record} (h : layoutIssues pgn members = []) :
    members.Pairwise fun a b => a.endBit ≤ b.signal.startBit := by
  have hoverlap : overlapIssues pgn members = [] := by
    unfold layoutIssues at h
    rw [List.append_eq_nil_iff, List.append_eq_nil_iff] at h
    exact h.1.2
  apply Segments.pairwise_of_neighbours (fun r : Record => r.signal.startBit) Record.endBit
  · intro r _
    exact Nat.le_add_right _ _
  · intro p hp
    have hnil := List.flatMap_eq_nil_iff.mp hoverlap p hp
    by_contra hlt
    simp only [if_pos (not_le.mp hlt)] at hnil
    cases hnil

theorem le_foldl_max (l : List ℕ) (acc : ℕ) : acc ≤ l.foldl max acc ∧ ∀ n ∈ l, n ≤ l.foldl max acc := by
  induction l generalizing acc with
  | nil => exact ⟨le_rfl, fun n h => by cases h⟩
  | cons m l ih =>
    obtain ⟨hacc, hall⟩ := ih (max acc m)
    refine ⟨(le_max_left _ _).trans hacc, fun n h => ?_⟩
    rcases List.mem_cons.mp h with rfl | h
    · exact (le_max_right _ _).trans hacc
    · exact hall n h

/-- The fields of a PGN lie inside its payload. -/
theorem endBit_le {members : List Record} {r : Record} (h : r ∈ members) :
    r.endBit ≤ payloadLength members * 8 := by
  have hmax : r.endBit ≤ (members.map Record.endBit).foldl max 0 :=
    (le_foldl_max _ 0).2 _ (List.mem_map_of_mem h)
  have hlen : requiredLength members ≤ payloadLength members := by
    unfold payloadLength
    split <;> omega
  unfold requiredLength at hlen
  omega

/-! ## Places in the catalog -/

/-- Where the records of the groups placed so far stand. -/
structure Ordering.Placed (st : Ordering) (gs : List Group) : Prop where
  groups : st.pgns.map PgnEntry.group = gs
  records : st.ordered.map CatalogSignal.record = gs.flatMap Group.members
  entries : ∀ (k : ℕ) (e : PgnEntry), st.pgns[k]? = some e →
    e.index = k ∧ e.signalCount = e.group.members.length ∧
      e.firstSignal + e.signalCount ≤ st.ordered.length ∧
      ∀ j < e.signalCount, ∃ s, st.ordered[e.firstSignal + j]? = some s ∧
        e.group.members[j]? = some s.record
  signals : ∀ (i : ℕ) (s : CatalogSignal), st.ordered[i]? = some s →
    s.index = i ∧ ∃ e, st.pgns[s.pgnIndex]? = some e ∧ e.firstSignal ≤ i ∧
      i < e.firstSignal + e.signalCount

/-- The records of one PGN go to the end of the table, in order. -/
theorem foldl_placeSignal (pgnIndex : ℕ) (mode : TxMode) (members : List Record) :
    ∀ ordered scales, ∃ placed,
      (members.foldl (placeSignal pgnIndex mode) (ordered, scales)).1 = ordered ++ placed ∧
        placed.map CatalogSignal.record = members ∧
        ∀ j s, placed[j]? = some s → s.index = ordered.length + j ∧ s.pgnIndex = pgnIndex := by
  induction members with
  | nil =>
    intro ordered scales
    exact ⟨[], (List.append_nil _).symm, rfl, fun j s h => by simp at h⟩
  | cons r members ih =>
    intro ordered scales
    obtain ⟨first, scales', hstep, hfirst, hindex, hpgn⟩ : ∃ first scales',
        placeSignal pgnIndex mode (ordered, scales) r = (ordered ++ [first], scales') ∧
          first.record = r ∧ first.index = ordered.length ∧ first.pgnIndex = pgnIndex :=
      ⟨_, _, rfl, rfl, rfl, rfl⟩
    obtain ⟨placed, hout, hrec, hplace⟩ := ih (ordered ++ [first]) scales'
    rw [List.foldl_cons, hstep]
    refine ⟨first :: placed, ?_, ?_, ?_⟩
    · exact hout.trans (List.append_assoc _ _ _)
    · rw [List.map_cons, hrec, hfirst]
    · intro j s hj
      cases j with
      | zero =>
        cases hj
        exact ⟨hindex, hpgn⟩
      | succ j =>
        have hs := hplace j s (by simpa using hj)
        rw [List.length_append, List.length_singleton] at hs
        exact ⟨by omega, hs.2⟩

theorem Ordering.Placed.placeGroup {st : Ordering} {groups : List Group} (h : st.Placed groups)
    (g : Group) : (placeGroup st g).Placed (groups ++ [g]) := by
  obtain ⟨placed, hout, hrec, hplace⟩ :=
    foldl_placeSignal st.pgns.length g.mode g.members st.ordered st.scales
  have hlen : placed.length = g.members.length := by rw [← hrec, List.length_map]
  have hordered : (Tools.placeGroup st g).ordered = st.ordered ++ placed := hout
  have hpgns : (Tools.placeGroup st g).pgns =
      st.pgns ++ [⟨g, st.pgns.length, st.ordered.length, g.members.length⟩] := rfl
  constructor
  · rw [hpgns, List.map_append, h.groups]
    rfl
  · rw [hordered, List.map_append, hrec, h.records, List.flatMap_append, List.flatMap_singleton]
  · intro k e hk
    rw [hpgns] at hk
    rw [hordered]
    by_cases hlt : k < st.pgns.length
    · rw [List.getElem?_append_left hlt] at hk
      obtain ⟨hidx, hcount, hend, hall⟩ := h.entries k e hk
      refine ⟨hidx, hcount, ?_, fun j hj => ?_⟩
      · rw [List.length_append]
        omega
      obtain ⟨s, hs, hm⟩ := hall j hj
      have hin : e.firstSignal + j < st.ordered.length := (List.getElem?_eq_some_iff.mp hs).1
      exact ⟨s, by rw [List.getElem?_append_left hin, hs], hm⟩
    · rw [List.getElem?_append_right (not_lt.mp hlt)] at hk
      obtain ⟨hk0, rfl⟩ : k - st.pgns.length = 0 ∧
          (⟨g, st.pgns.length, st.ordered.length, g.members.length⟩ : PgnEntry) = e := by
        rw [List.getElem?_singleton] at hk
        split at hk
        · next h0 => exact ⟨h0, Option.some.inj hk⟩
        · cases hk
      refine ⟨by show st.pgns.length = k; omega, rfl, ?_, fun j hj => ?_⟩
      · rw [List.length_append, hlen]
      have hj' : j < placed.length := by
        rw [hlen]
        exact hj
      refine ⟨placed[j], ?_, ?_⟩
      · show (st.ordered ++ placed)[st.ordered.length + j]? = _
        rw [List.getElem?_append_right (Nat.le_add_right _ _), Nat.add_sub_cancel_left,
          List.getElem?_eq_getElem hj']
      · show g.members[j]? = _
        rw [← hrec, List.getElem?_map, List.getElem?_eq_getElem hj']
        rfl
  · intro i s hi
    rw [hordered] at hi
    rw [hpgns]
    by_cases hlt : i < st.ordered.length
    · rw [List.getElem?_append_left hlt] at hi
      obtain ⟨hidx, e, he, hrange⟩ := h.signals i s hi
      have hin : s.pgnIndex < st.pgns.length := (List.getElem?_eq_some_iff.mp he).1
      exact ⟨hidx, e, by rw [List.getElem?_append_left hin, he], hrange⟩
    · rw [List.getElem?_append_right (not_lt.mp hlt)] at hi
      obtain ⟨hidx, hpgn⟩ := hplace _ s hi
      have hin : i - st.ordered.length < placed.length := (List.getElem?_eq_some_iff.mp hi).1
      refine ⟨by omega, ⟨g, st.pgns.length, st.ordered.length, g.members.length⟩, ?_, ?_, ?_⟩
      · rw [hpgn, List.getElem?_append_right le_rfl, Nat.sub_self]
        rfl
      · exact not_lt.mp hlt
      · show i < st.ordered.length + g.members.length
        omega

/-- The tables of the groups hold their records, group after group. -/
theorem orderGroups_placed (groups : List Group) : (orderGroups groups).Placed groups := by
  suffices h : ∀ (st : Ordering) (before : List Group), st.Placed before →
      (groups.foldl placeGroup st).Placed (before ++ groups) by
    exact h ⟨[], [], []⟩ [] ⟨rfl, rfl, fun k e h => by simp at h, fun i s h => by simp at h⟩
  induction groups with
  | nil =>
    intro st before h
    rw [List.append_nil]
    exact h
  | cons g groups ih =>
    intro st before h
    rw [List.foldl_cons, List.append_cons]
    exact ih _ _ (h.placeGroup g)

end J1939Gen.Tools
