import J1939Gen.Scheduler.Packing

/-!
# A packed payload is a snapshot of the bank

What the loop of `prv_pack_pgn` leaves in the payload of a PGN of scalars: the
records share no bit, so every active one reads back, and no other bit changes.

* `test_foldl_packRecord`, `read_foldl_packRecord`: the loop, bit by bit and
  field by field.
* `packPgn_snapshot`: `prv_pack_pgn` packs a snapshot of the active bank.
-/

namespace J1939Gen.Scheduler

open Bitmask ByteMem ValueStore

/-! ## Snapshots -/

/-- Bytes as the buffer a receiver unpacks. -/
def asBuffer (data : List UInt8) : Mem := fun i => data.getD i 0

/-- Bit `b` belongs to the field of record `i`. -/
def InField (i b : ℕ) : Prop :=
  (signalAt i).startBit.toNat ≤ b ∧
    b < (signalAt i).startBit.toNat + (signalAt i).bitLength.toNat

/-- The bytes are the packing of the active bank for PGN `p`: every active record
    of it unpacks to its raw value, and every bit of no active record is 1. -/
structure Snapshot (store : Store) (p : ℕ) (data : List UInt8) : Prop where
  packed : data = bytes (packPgn store (pgnAt p) (fun _ => 0xFF)
    (UInt16.ofNat data.length)).1 0 data.length
  unpacks : ∀ i, (signalAt i).pgnIndex = p → isActive store i = true →
    ∃ raw, getRaw store i = some raw ∧
      unpackRaw (asBuffer data) (UInt16.ofNat data.length) (signalAt i).startBit
        (signalAt i).bitLength.toUInt8 = some raw
  blank : ∀ b < 8 * data.length,
    (∀ i, (signalAt i).pgnIndex = p → isActive store i = true → ¬ InField i b) →
    test (asBuffer data) b = true

theorem test_asBuffer (m : Mem) {n b : ℕ} (h : b < 8 * n) :
    test (asBuffer (bytes m 0 n)) b = test m b := by
  have hb : b / 8 < n := by omega
  have hbyte : asBuffer (bytes m 0 n) (b / 8) = m (b / 8) := by
    rw [asBuffer, List.getD_eq_getElem _ _ (by simpa using hb), getElem_bytes, Nat.zero_add]
  rw [test, test, hbyte]

theorem test_blank (b : ℕ) : test (fun _ => 0xFF) b = true := by
  have h : b % 8 < 8 := Nat.mod_lt _ (by omega)
  rw [test_eq_testBit]
  generalize b % 8 = k at h
  interval_cases k <;> rfl

section Loop

variable {store : Store} {length : UInt16} {p : ℕ}

/-- The loop over records of PGN `p` writes no bit outside their active fields. -/
theorem test_foldl_packRecord (hw : store.active.Wf) (hr : Room p length) {b : ℕ}
    (records : List ℕ) (hp : ∀ i ∈ records, (signalAt i).pgnIndex = p)
    (hscalar : ∀ i ∈ records, isBlob i = false)
    (hout : ∀ i ∈ records, isActive store i = true → ¬ InField i b) (acc : Mem × Bool) :
    test (records.foldl (packRecord store length) acc).1 b = test acc.1 b := by
  induction records generalizing acc with
  | nil => rfl
  | cons i records ih =>
    have hrest := ih (fun j hj => hp j (List.mem_cons_of_mem i hj))
      (fun j hj => hscalar j (List.mem_cons_of_mem i hj))
      (fun j hj => hout j (List.mem_cons_of_mem i hj))
    rw [List.foldl_cons, hrest]
    cases hact : isActive store i with
    | false => rw [packRecord_inactive hact]
    | true =>
      obtain ⟨hi, ⟨hb, raw, hraw⟩ | ⟨hb, -⟩⟩ := active_cases hw hact
      · have hroom : Room (signalAt i).pgnIndex length := by
          rw [hp i (by simp)]
          exact hr
        have hle := (scalar_layout hi hb).2.1
        rw [packRecord_scalar hw hroom hraw, BitField.test_write _ _ hle]
        exact if_neg (hout i (by simp) hact)
      · rw [hscalar i (by simp)] at hb
        cases hb

/-- The field of an active record holds its raw value after the loop. -/
theorem read_foldl_packRecord (hw : store.active.Wf) (hr : Room p length) {i : ℕ}
    (records : List ℕ) (hnodup : records.Nodup) (hp : ∀ j ∈ records, (signalAt j).pgnIndex = p)
    (hscalar : ∀ j ∈ records, isBlob j = false) (hlt : ∀ j ∈ records, j < signalCount)
    (hi : i ∈ records) {raw : UInt32} (hraw : getRaw store i = some raw) (acc : Mem × Bool) :
    BitField.read (records.foldl (packRecord store length) acc).1 (signalAt i).startBit.toNat
      (signalAt i).bitLength.toNat = raw := by
  obtain ⟨before, after, rfl⟩ := List.append_of_mem hi
  obtain ⟨hlti, hb, hfits⟩ := raw_fits hw hraw
  have hle := (scalar_layout hlti hb).2.1
  have hroom : Room (signalAt i).pgnIndex length := by
    rw [hp i hi]
    exact hr
  -- the records after `i` share no bit with it
  have hafter : ∀ j ∈ after, i ≠ j := by
    intro j hj hij
    have := (List.nodup_append.mp hnodup).2.1
    rw [List.nodup_cons] at this
    exact this.1 (hij ▸ hj)
  rw [List.foldl_append, List.foldl_cons, packRecord_scalar hw hroom hraw]
  generalize before.foldl (packRecord store length) acc = acc'
  calc BitField.read (after.foldl (packRecord store length) (BitField.write acc'.1 _ _ raw, true)).1
        (signalAt i).startBit.toNat (signalAt i).bitLength.toNat
      = BitField.read (BitField.write acc'.1 (signalAt i).startBit.toNat
          (signalAt i).bitLength.toNat raw) (signalAt i).startBit.toNat
          (signalAt i).bitLength.toNat := by
        apply BitField.read_congr hle
        intro k hk
        apply test_foldl_packRecord hw hr after
        · exact fun j hj => hp j (by simp [hj])
        · exact fun j hj => hscalar j (by simp [hj])
        · intro j hj _ hfield
          have hpgn : (signalAt i).pgnIndex = (signalAt j).pgnIndex := by
            rw [hp i hi, hp j (by simp [hj])]
          have hd := records_disjoint hlti (hlt j (by simp [hj])) hpgn (hafter j hj)
          obtain ⟨h1, h2⟩ := hfield
          omega
    _ = raw := BitField.read_write _ _ hle hfits

end Loop

/-- A PGN without the blob: its payload is made of scalars only. -/
def ScalarPgn (p : ℕ) : Prop := ∀ i < signalCount, (signalAt i).pgnIndex = p → isBlob i = false

theorem mem_records {p i : ℕ} (hp : p < pgnCount) :
    i ∈ List.range' (pgnAt p).firstSignal (pgnAt p).signalCount ↔
      i < signalCount ∧ (signalAt i).pgnIndex = p := by
  have hrange := (pgn_range hp).1
  rw [List.mem_range'_1]
  constructor
  · intro hin
    have hi : i < signalCount := by omega
    exact ⟨hi, (pgnIndex_eq_iff hi hp).mpr hin⟩
  · rintro ⟨hi, hpgn⟩
    exact (pgnIndex_eq_iff hi hp).mp hpgn

/-- The records of a single frame are scalars. -/
theorem scalarPgn_frame {p : ℕ} (h : pgnNeedsTp (pgnAt p) = false) : ScalarPgn p := by
  intro i hi hp
  by_contra hb
  have hneeds := (blob_start hi (by simpa using hb)).2.1
  rw [hp, h] at hneeds
  cases hneeds

/-- `prv_pack_pgn` packs a snapshot of the active bank. -/
theorem packPgn_snapshot {store : Store} (hw : store.active.Wf) {p : ℕ} (hp : p < pgnCount)
    (hscalar : ScalarPgn p) {length : UInt16} (hr : Room p length) :
    Snapshot store p (bytes (packPgn store (pgnAt p) (fun _ => 0xFF) length).1 0 length.toNat) := by
  have hpgn : ∀ i ∈ List.range' (pgnAt p).firstSignal (pgnAt p).signalCount,
      (signalAt i).pgnIndex = p := fun i hi => ((mem_records hp).mp hi).2
  have hlt : ∀ i ∈ List.range' (pgnAt p).firstSignal (pgnAt p).signalCount, i < signalCount :=
    fun i hi => ((mem_records hp).mp hi).1
  have hb : ∀ i ∈ List.range' (pgnAt p).firstSignal (pgnAt p).signalCount, isBlob i = false :=
    fun i hi => hscalar i (hlt i hi) (hpgn i hi)
  refine ⟨?_, ?_, ?_⟩
  · rw [length_bytes, UInt16.ofNat_toNat]
  · intro i hi hact
    obtain ⟨hilt, ⟨-, raw, hraw⟩ | ⟨hblob, -⟩⟩ := active_cases hw hact
    · have hbi := hscalar i hilt hi
      obtain ⟨hpos, hle, -⟩ := scalar_layout hilt hbi
      have hn := bitLength_toUInt8 hilt hbi
      have hin := hr.scalar i hilt hi hbi
      have hfield : rawFieldFits length (signalAt i).startBit (signalAt i).bitLength.toUInt8 =
          true := by
        rw [rawFieldFits_iff, hn]
        exact ⟨hpos, hle, hin⟩
      refine ⟨raw, hraw, ?_⟩
      rw [length_bytes, UInt16.ofNat_toNat, unpackRaw, if_neg (by simp [hfield]), hn,
        Option.some.injEq]
      rw [← read_foldl_packRecord hw hr _ List.nodup_range' hpgn hb hlt
        ((mem_records hp).mpr ⟨hilt, hi⟩) hraw (fun _ => 0xFF, false)]
      apply BitField.read_congr hle
      intro k hk
      exact test_asBuffer _ (by omega)
    · rw [hscalar i hilt hi] at hblob
      cases hblob
  · intro b hlen hout
    rw [length_bytes] at hlen
    rw [test_asBuffer _ hlen, ← test_blank b]
    exact test_foldl_packRecord hw hr _ hpgn hb (fun i hi => hout i (hpgn i hi)) _

end J1939Gen.Scheduler
