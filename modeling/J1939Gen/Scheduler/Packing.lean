import J1939Gen.Scheduler.Steps
import J1939Gen.ValueStore.Refine

/-!
# Packing a PGN from the value store

What `prv_pack_pgn` finds in a value store that any sequence of calls has
produced: every active record of a PGN can be packed into its payload, so a PGN
that owns one is transmitted.

* `packRecord_scalar`, `packRecord_blob`, `packRecord_inactive`: one record.
* `packPgn_packs`: a PGN with an active record is packed.
-/

namespace J1939Gen.Scheduler

open Bitmask ByteMem ValueStore

/-- A store some sequence of calls has produced, in which a record of PGN `p` is
active. -/
def OwnsActive (store : Store) (p : ℕ) : Prop :=
  (∃ ops, store = storeAfter ops) ∧ ∃ i, (signalAt i).pgnIndex = p ∧ isActive store i = true

/-- A store some sequence of calls has produced holds a configuration. -/
theorem holds_storeAfter (ops : List Op) : ∃ c, Holds (storeAfter ops) c :=
  ⟨_, (storeRel_after ops).1.holds⟩

theorem isActive_lt {store : Store} {i : ℕ} (h : isActive store i = true) : i < signalCount := by
  rw [isActive, Bool.and_eq_true, decide_eq_true_eq] at h
  exact h.1

/-! ## The records of a PGN and its payload -/

/-- A payload of `length` bytes has room for the records of PGN `p`. -/
structure Room (p : ℕ) (length : UInt16) : Prop where
  scalar : ∀ i < signalCount, (signalAt i).pgnIndex = p → isBlob i = false →
    (signalAt i).startBit.toNat + (signalAt i).bitLength.toNat ≤ length.toNat * 8
  blob : ∀ i < signalCount, (signalAt i).pgnIndex = p → isBlob i = true →
    (signalAt i).startBit / 8 < length

/-- The PGN of variable length carries the blob and no scalar. -/
theorem variable_scalar : ∀ i ∈ List.range signalCount, isBlob i = false →
    (pgnAt (signalAt i).pgnIndex).flags &&& pgnVariableLength = 0 := by
  decide +kernel

/-- The blob starts at the first byte of its multi-packet PGN. -/
theorem blob_start {i : ℕ} (hi : i < signalCount) (hb : isBlob i = true) :
    (signalAt i).startBit = 0 ∧ pgnNeedsTp (pgnAt (signalAt i).pgnIndex) = true ∧
      (pgnAt (signalAt i).pgnIndex).flags &&& pgnVariableLength ≠ 0 := by
  rw [(isBlob_iff hi).mp hb]
  decide

/-- A single frame has room for the records of its PGN. -/
theorem room_frame {p : ℕ} (hs : pgnNeedsTp (pgnAt p) = false) : Room p 8 where
  scalar i hi hp hb := by
    obtain ⟨-, -, hin⟩ := scalar_layout hi hb
    have hle : (pgnAt p).payloadLength.toNat ≤ 8 := by
      simp only [pgnNeedsTp, decide_eq_false_iff_not, not_or] at hs
      have := hs.1
      rwa [gt_iff_lt, UInt16.lt_iff_toNat_lt, not_lt] at this
    rw [hp] at hin
    show _ ≤ 8 * 8
    omega
  blob i hi hp hb := by
    have := (blob_start hi hb).2.1
    rw [hp, hs] at this
    cases this

/-- The transmitted length of a multi-packet PGN has room for its records. -/
theorem room_tp (p : ℕ) : Room p (txLength (pgnAt p)) where
  scalar i hi hp hb := by
    obtain ⟨-, -, hin⟩ := scalar_layout hi hb
    have hflag := variable_scalar i (List.mem_range.mpr hi) hb
    rw [hp] at hin hflag
    rw [txLength, if_neg (by simpa using hflag)]
    exact hin
  blob i hi hp hb := by
    obtain ⟨h0, -, hvar⟩ := blob_start hi hb
    rw [hp] at hvar
    rw [h0, txLength, if_pos hvar]
    decide

/-! ## One record -/

section Records

variable {store : Store} {length : UInt16} {i : ℕ}

/-- The raw value of an active scalar fits its field. -/
theorem raw_fits (hw : store.active.Wf) {raw : UInt32} (hraw : getRaw store i = some raw) :
    i < signalCount ∧ isBlob i = false ∧ raw.toNat < 2 ^ (signalAt i).bitLength.toNat := by
  rw [getRaw] at hraw
  split_ifs at hraw with hno
  simp only [not_or, Bool.not_eq_false, Bool.not_eq_true] at hno
  obtain ⟨hact, hb⟩ := hno
  have hlt := isActive_lt hact
  have ht : test store.active.activeMask i = true := by
    rw [isActive, Bool.and_eq_true] at hact
    exact hact.2
  have hmax := (checkIndex_ok_iff.mp (hw.scalar i hlt ht hb)).2.2
  rw [Option.some.injEq] at hraw
  rw [← hraw]
  exact ⟨hlt, hb, lt_of_le_of_lt (UInt32.le_iff_toNat_le.mp hmax) (scalar_range hlt hb)⟩

theorem bitLength_toUInt8 (hi : i < signalCount) (hb : isBlob i = false) :
    (signalAt i).bitLength.toUInt8.toNat = (signalAt i).bitLength.toNat := by
  have := (scalar_layout hi hb).2.1
  rw [UInt16.toNat_toUInt8]
  omega

/-- An active scalar is packed into its field. -/
theorem packRecord_scalar (hw : store.active.Wf) (hr : Room (signalAt i).pgnIndex length)
    {raw : UInt32} (hraw : getRaw store i = some raw) (acc : Mem × Bool) :
    packRecord store length acc i =
      (BitField.write acc.1 (signalAt i).startBit.toNat (signalAt i).bitLength.toNat raw, true) := by
  obtain ⟨hi, hb, hfits⟩ := raw_fits hw hraw
  obtain ⟨hpos, hle, -⟩ := scalar_layout hi hb
  have hn := bitLength_toUInt8 hi hb
  have hfield : rawFieldFits length (signalAt i).startBit (signalAt i).bitLength.toUInt8 = true := by
    rw [rawFieldFits_iff, hn]
    exact ⟨hpos, hle, hr.scalar i hi rfl hb⟩
  simp only [packRecord, hraw]
  rw [packRaw_eq_some hfield (by rw [hn]; exact hfits), hn]

/-- An active blob is packed as text. -/
theorem packRecord_blob (hr : Room (signalAt i).pgnIndex length) (hi : i < signalCount)
    (hb : isBlob i = true) {text : List UInt8} (hraw : getRaw store i = none)
    (hblob : getBlob store i = some text) (acc : Mem × Bool) :
    ∃ payload, packText acc.1 length (signalAt i) text = some payload ∧
      packRecord store length acc i = (payload, true) := by
  have hlt := hr.blob i hi rfl hb
  have htext : ∃ payload, packText acc.1 length (signalAt i) text = some payload := by
    rw [packText]
    simp only
    rw [if_neg (UInt16.not_le.mpr hlt)]
    exact ⟨_, rfl⟩
  obtain ⟨payload, htext⟩ := htext
  exact ⟨payload, htext, by simp only [packRecord, hraw, hblob, htext]⟩

/-- A record that is not active leaves the payload alone. -/
theorem packRecord_inactive (h : isActive store i = false) (acc : Mem × Bool) :
    packRecord store length acc i = acc := by
  simp [packRecord, getRaw, getBlob, h]

/-- An active record is a scalar with a value or the blob with its bytes. -/
theorem active_cases (hw : store.active.Wf) (h : isActive store i = true) :
    i < signalCount ∧ ((isBlob i = false ∧ ∃ raw, getRaw store i = some raw) ∨
      (isBlob i = true ∧ getRaw store i = none ∧ ∃ text, getBlob store i = some text)) := by
  have hi := isActive_lt h
  have ht : test store.active.activeMask i = true := by
    rw [isActive, Bool.and_eq_true] at h
    exact h.2
  refine ⟨hi, ?_⟩
  cases hb : isBlob i with
  | false => exact .inl ⟨rfl, _, by rw [getRaw, if_neg (by simp [h, hb])]⟩
  | true =>
    have hslot := hw.blob i hi ht hb
    exact .inr ⟨rfl, by rw [getRaw, if_pos (.inr hb)], _,
      by rw [getBlob, if_neg (by simp [h, hslot])]⟩

/-- Packing an active record sets `packed_any`. -/
theorem packRecord_active (hw : store.active.Wf) (hr : Room (signalAt i).pgnIndex length)
    (h : isActive store i = true) (acc : Mem × Bool) :
    (packRecord store length acc i).2 = true := by
  obtain ⟨hi, ⟨-, raw, hraw⟩ | ⟨hb, hraw, text, hblob⟩⟩ := active_cases hw h
  · rw [packRecord_scalar hw hr hraw]
  · obtain ⟨payload, -, heq⟩ := packRecord_blob hr hi hb hraw hblob acc
    rw [heq]

/-- `packed_any` stays set. -/
theorem packRecord_keeps (acc : Mem × Bool) (h : acc.2 = true) :
    (packRecord store length acc i).2 = true := by
  unfold packRecord
  simp only
  cases getRaw store i with
  | some raw =>
    dsimp only
    cases packRaw acc.1 length (signalAt i).startBit (signalAt i).bitLength.toUInt8 raw with
    | some payload => rfl
    | none => exact h
  | none =>
    dsimp only
    cases getBlob store i with
    | some text =>
      dsimp only
      cases packText acc.1 length (signalAt i) text with
      | some payload => rfl
      | none => exact h
    | none => exact h

end Records

/-- A PGN with an active record is packed. -/
theorem packPgn_packs {store : Store} {p : ℕ} (hp : p < pgnCount) (h : OwnsActive store p)
    {length : UInt16} (hr : Room p length) (payload : Mem) :
    (packPgn store (pgnAt p) payload length).2 = true := by
  obtain ⟨⟨ops, rfl⟩, i, hpgn, hact⟩ := h
  obtain ⟨c, hc⟩ := holds_storeAfter ops
  have hi := isActive_lt hact
  have hin : i ∈ List.range' (pgnAt p).firstSignal (pgnAt p).signalCount := by
    obtain ⟨h1, h2⟩ := (pgnIndex_eq_iff hi hp).mp hpgn
    rw [List.mem_range'_1]
    exact ⟨h1, h2⟩
  obtain ⟨pre, post, hsplit⟩ := List.append_of_mem hin
  have hkeep : ∀ (l : List ℕ) (acc : Mem × Bool), acc.2 = true →
      (l.foldl (packRecord (storeAfter ops) length) acc).2 = true := by
    intro l
    induction l with
    | nil => exact fun _ hacc => hacc
    | cons j l ih => exact fun acc hacc => ih _ (packRecord_keeps acc hacc)
  rw [packPgn, hsplit, List.foldl_append, List.foldl_cons]
  apply hkeep
  rw [← hpgn] at hr
  exact packRecord_active hc.wf hr hact _

end J1939Gen.Scheduler
