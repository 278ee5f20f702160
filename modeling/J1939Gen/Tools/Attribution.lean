import J1939Gen.Tools.Layout
import J1939Gen.Scheduler.Model

/-!
# Identifiers of an accepted catalog

`build_catalog` accepts every PGN from 0 to 0x3FFFF, but the identifier carries
17 bits of it, and no low byte below format 240. The identifier of a PGN is read
back as that PGN exactly when it is carried whole.

* `canId_read_back`: what is read back from the identifier of an entry.
* `attributable_iff`: a set of PGNs is attributable exactly when each of them is
  carried whole.
* `pdu1_collision`: an accepted catalog with two PGNs on one identifier.
-/

namespace J1939Gen.Tools

open Py

/-- The row of `J1939_Catalog_PGNs` emitted for an entry
(`generate_j1939_catalog.py:966-974`). -/
def renderPgn (e : PgnEntry) : PgnRecord where
  pgn := UInt32.ofNat e.group.pgn
  firstSignal := e.firstSignal
  payloadLength := UInt16.ofNat e.group.payloadLength
  periodMs := UInt16.ofNat e.group.periodMs.toNat
  signalCount := e.signalCount
  priority := UInt8.ofNat e.group.priority.toNat
  sourceAddress := UInt8.ofNat e.group.sourceAddress.toNat
  flags := UInt8.ofNat e.group.flags

/-- Receivers tell the frames of a set of PGNs apart: every identifier is read back as
the PGN, priority and source address it was built for, and no two PGNs share one. -/
structure Attributable (scheduled : List PgnEntry) : Prop where
  readBack : ∀ e ∈ scheduled,
    let hdr := Header.parseId (Scheduler.canIdOf (renderPgn e))
    hdr.pgn.toNat = e.group.pgn ∧ (hdr.priority.toNat : ℤ) = e.group.priority ∧
      (hdr.sourceAddress.toNat : ℤ) = e.group.sourceAddress
  distinct : ∀ e ∈ scheduled, ∀ f ∈ scheduled, e.group.pgn ≠ f.group.pgn →
    Scheduler.canIdOf (renderPgn e) ≠ Scheduler.canIdOf (renderPgn f)

section
variable {packF32 : ℚ → Except Error (List UInt8)} {m : Model} {records : List Record}
  {groups : List Group}

/-- The serialization bounds the source address, the row checks the PGN. -/
theorem Made.fields_fit (h : Made packF32 m records groups) {e : PgnEntry} (he : e ∈ m.pgns) :
    e.group.pgn ≤ 0x3FFFF ∧ 0 ≤ e.group.priority ∧ e.group.priority ≤ 7 ∧
      0 ≤ e.group.sourceAddress ∧ e.group.sourceAddress < 256 := by
  obtain ⟨bytes, hbytes⟩ := h.serialized
  unfold catalogCrcBytes at hbytes
  obtain ⟨_, -, hbytes⟩ := bind_eq_ok.mp hbytes
  obtain ⟨_, -, hbytes⟩ := bind_eq_ok.mp hbytes
  obtain ⟨_, -, hbytes⟩ := bind_eq_ok.mp hbytes
  obtain ⟨_, hpgns, -⟩ := bind_eq_ok.mp hbytes
  obtain ⟨packed, -, hpack⟩ := exists_of_mapM_eq_ok hpgns he
  have hsa := packFields_eq_ok hpack (1, e.group.sourceAddress) (by simp [pgnFields])
  have hacc := h.accepted_of_mem he
  refine ⟨?_, hacc.priority.1, hacc.priority.2, hsa.1, by simpa using hsa.2⟩
  have hmem : e.group.pgn ∈ sortedPgns records := by
    rw [← h.pgnsSorted, ← h.groups_eq, List.map_map]
    exact List.mem_map_of_mem (f := Group.pgn ∘ PgnEntry.group) he
  obtain ⟨r, hr, hpgn⟩ := mem_sortedPgns.mp hmem
  rw [← hpgn]
  exact (h.wellFormed r hr).signal.pgn

/-- Priority and source address are always read back, the PGN when it is carried whole. -/
theorem Made.canId_read_back (h : Made packF32 m records groups) {e : PgnEntry}
    (he : e ∈ m.pgns) :
    let hdr := Header.parseId (Scheduler.canIdOf (renderPgn e))
    (hdr.pgn.toNat = e.group.pgn ↔ PgnCarried (UInt32.ofNat e.group.pgn)) ∧
      (hdr.priority.toNat : ℤ) = e.group.priority ∧
      (hdr.sourceAddress.toNat : ℤ) = e.group.sourceAddress := by
  obtain ⟨hpgn, hp0, hp7, hs0, hs255⟩ := h.fields_fit he
  have hpgnNat : (UInt32.ofNat e.group.pgn).toNat = e.group.pgn := by
    rw [UInt32.toNat_ofNat']
    omega
  have hprioNat : (UInt8.ofNat e.group.priority.toNat).toNat = e.group.priority.toNat := by
    rw [UInt8.toNat_ofNat']
    omega
  have hsaNat : (UInt8.ofNat e.group.sourceAddress.toNat).toNat =
      e.group.sourceAddress.toNat := by
    rw [UInt8.toNat_ofNat']
    omega
  intro hdr
  refine ⟨?_, ?_, ?_⟩
  · rw [← Header.parseId_buildId_pgn_iff ⟨UInt32.ofNat e.group.pgn,
      UInt8.ofNat e.group.priority.toNat, UInt8.ofNat e.group.sourceAddress.toNat, addrGlobal⟩,
      ← UInt32.toNat_inj, hpgnNat]
    rfl
  · have hprio : hdr.priority = UInt8.ofNat e.group.priority.toNat :=
      Header.parseId_buildId_priority ⟨_, _, _, _⟩ (by show (UInt8.ofNat _).toNat < 8; omega)
    rw [hprio, hprioNat]
    omega
  · have hsa : hdr.sourceAddress = UInt8.ofNat e.group.sourceAddress.toNat :=
      Header.parseId_buildId_sourceAddress ⟨_, _, _, _⟩
    rw [hsa, hsaNat]
    omega

end

/-- A set of PGNs of an accepted catalog is attributable exactly when every one of them is
carried whole by its identifier. -/
theorem attributable_iff (packF32 : ℚ → Except Error (List UInt8)) (rows : List MasterRow)
    (policy network profilesCfg : Value) (m : Model) (crc : UInt32)
    (h : buildCatalog packF32 rows policy network profilesCfg = .ok (m, crc))
    (scheduled : List PgnEntry) (hsub : scheduled ⊆ m.pgns) :
    Attributable scheduled ↔ ∀ e ∈ scheduled, PgnCarried (UInt32.ofNat e.group.pgn) := by
  obtain ⟨records, groups, hmade⟩ := buildCatalog_made h
  constructor
  · intro hattr e he
    exact (hmade.canId_read_back (hsub he)).1.mp (hattr.readBack e he).1
  · intro hcarried
    have hread : ∀ e ∈ scheduled,
        (Header.parseId (Scheduler.canIdOf (renderPgn e))).pgn.toNat = e.group.pgn := by
      intro e he
      exact (hmade.canId_read_back (hsub he)).1.mpr (hcarried e he)
    constructor
    · intro e he
      exact ⟨hread e he, (hmade.canId_read_back (hsub he)).2⟩
    · intro e he f hf hne heq
      apply hne
      rw [← hread e he, ← hread f hf, heq]

theorem attributable_iff_mixed : ∃ m crc,
    buildCatalog packUnitF32 mixedRows (policyOf 3 2) (sampleNetwork ["0xF003", "0xF004"])
      mixedProfiles = .ok (m, crc) ∧
      (Attributable m.pgns ↔ ∀ e ∈ m.pgns, PgnCarried (UInt32.ofNat e.group.pgn)) := by
  obtain ⟨⟨m, crc⟩, h⟩ := exists_of_isSome (x := buildCatalog packUnitF32 mixedRows
    (policyOf 3 2) (sampleNetwork ["0xF003", "0xF004"]) mixedProfiles) (by decide +kernel)
  exact ⟨m, crc, h, attributable_iff _ _ _ _ _ _ _ h m.pgns (List.Subset.refl _)⟩

/-- The generator accepts the proprietary PGNs 0xEF00 and 0xEF01, and both are sent under
one identifier. -/
theorem pdu1_collision : ∃ m crc,
    buildCatalog packUnitF32 [sampleRow 6 92 0xEF00 "0xEF00", sampleRow 7 91 0xEF01 "0xEF01"]
      (samplePolicy 2) (sampleNetwork ["0xEF00", "0xEF01"]) sampleProfiles = .ok (m, crc) ∧
      ¬Attributable m.pgns := by
  have hids : (buildCatalog packUnitF32
      [sampleRow 6 92 0xEF00 "0xEF00", sampleRow 7 91 0xEF01 "0xEF01"] (samplePolicy 2)
      (sampleNetwork ["0xEF00", "0xEF01"]) sampleProfiles).toOption.map (fun r =>
        r.1.pgns.map fun e => (e.group.pgn, Scheduler.canIdOf (renderPgn e))) =
      some [(0xEF00, 0x18EFFF00), (0xEF01, 0x18EFFF00)] := by
    decide +kernel
  obtain ⟨⟨m, crc⟩, hm, hpgns⟩ := Option.map_eq_some_iff.mp hids
  obtain ⟨e, rest, hlist, he, hrest⟩ := List.map_eq_cons_iff.mp hpgns
  obtain ⟨f, rest', hlist', hf, -⟩ := List.map_eq_cons_iff.mp hrest
  rw [Prod.mk.injEq] at he hf
  refine ⟨m, crc, eq_ok_of_toOption hm, fun hattr => ?_⟩
  have hemem : e ∈ m.pgns := by
    rw [hlist]
    exact List.mem_cons_self
  have hfmem : f ∈ m.pgns := by
    rw [hlist, hlist']
    exact List.mem_cons_of_mem _ List.mem_cons_self
  apply hattr.distinct e hemem f hfmem
  · rw [he.1, hf.1]
    decide
  · rw [he.2, hf.2]

end J1939Gen.Tools
