import J1939Gen.Generator.Runs

/-!
# Configuration transactions

A transaction is one begin, staging calls, and one commit. What it stages is
read off its calls: the last raw value of every scalar key, and of the blob the
last byte staged at every position.

* `Represents`: the draft is what the calls staged, kept by an accepted call.
* `run_stage`: the draft after the staging calls, or a rejected transaction.
* `exact_acceptance`: exactly when the commit returns OK, and what it activates.
-/

namespace J1939Gen.Generator

open Bitmask ByteMem ValueStore Scheduler

/-! ## What the calls of a transaction stage -/

/-- A staging call. A chunk of text goes through `App_Gen_Stage_String_Chunk`. -/
inductive StageCall
  | scalar (signalKey : UInt16) (rawValue : UInt32)
  | chunk (text : Bool) (signalKey : UInt16) (totalLength offset : UInt8) (data : Option Mem)

/-- One staging call and its status. -/
def stage (B : Build) (g : Gen) : StageCall → Gen × TxnStatus
  | .scalar key raw => stageConstantRaw B g key raw
  | .chunk text key total offset data =>
    let r := if text then stageStringChunk B g key total offset data
      else stageBlobChunk B g key total offset data
    (r.1, r.2.1)

/-- The key of a staged scalar. -/
def StageCall.scalarKey : StageCall → Option UInt16
  | .scalar key _ => some key
  | .chunk .. => none

/-- The key of a staged chunk. -/
def StageCall.blobKey : StageCall → Option UInt16
  | .scalar .. => none
  | .chunk _ key _ _ _ => some key

/-- The raw value the call stages for `key`. -/
def StageCall.rawFor (key : UInt16) : StageCall → Option UInt32
  | .scalar k raw => if k = key then some raw else none
  | .chunk .. => none

/-- The blob length the call stages for `key`. -/
def StageCall.totalFor (key : UInt16) : StageCall → Option UInt8
  | .scalar .. => none
  | .chunk _ k total _ _ => if k = key then some total else none

/-- The byte the call stages at position `p` of the blob of `key`. -/
def StageCall.byteFor (key : UInt16) (p : ℕ) : StageCall → Option UInt8
  | .scalar .. => none
  | .chunk _ k total offset data =>
    if k = key ∧ offset.toNat ≤ p ∧ p < offset.toNat + (chunkCount total offset).toNat then
      data.map fun mem => mem (p - offset.toNat)
    else none

/-- The distinct scalar keys of the calls. -/
def scalarKeys (calls : List StageCall) : Finset UInt16 :=
  (calls.filterMap StageCall.scalarKey).toFinset

/-- The distinct blob keys of the calls. -/
def blobKeys (calls : List StageCall) : Finset UInt16 :=
  (calls.filterMap StageCall.blobKey).toFinset

/-- The last raw value staged for `key`. -/
def lastRaw (calls : List StageCall) (key : UInt16) : Option UInt32 :=
  (calls.filterMap (StageCall.rawFor key)).getLast?

/-- The last length staged for the blob of `key`. -/
def lastTotal (calls : List StageCall) (key : UInt16) : Option UInt8 :=
  (calls.filterMap (StageCall.totalFor key)).getLast?

/-- The last byte staged at position `p` of the blob of `key`. -/
def lastByte (calls : List StageCall) (key : UInt16) (p : ℕ) : Option UInt8 :=
  (calls.filterMap (StageCall.byteFor key p)).getLast?

/-- The last value staged for each record. -/
def lastStaged (calls : List StageCall) : Contents := fun i =>
  if i < signalCount then
    if isBlob i then
      (lastTotal calls (signalAt i).signalKey).map fun total =>
        .blob ((List.range total.toNat).map fun p =>
          (lastByte calls (signalAt i).signalKey p).getD 0)
    else (lastRaw calls (signalAt i).signalKey).map .scalar
  else none

/-- Every byte of every staged blob was staged. -/
def BlobStaged (calls : List StageCall) : Prop :=
  ∀ key total, lastTotal calls key = some total → ∀ p < total.toNat,
    (lastByte calls key p).isSome = true

/-! ## One more call -/

theorem getLast?_filterMap_concat {α β : Type} (f : α → Option β) (l : List α) (a : α) :
    ((l ++ [a]).filterMap f).getLast? = (f a).or (l.filterMap f).getLast? := by
  rw [List.filterMap_append]
  cases h : f a with
  | none => simp [h]
  | some b => simp [h]

theorem scalarKeys_concat (calls : List StageCall) (call : StageCall) :
    scalarKeys (calls ++ [call]) = scalarKeys calls ∪ call.scalarKey.toFinset := by
  ext k
  simp [scalarKeys, or_comm]

theorem blobKeys_concat (calls : List StageCall) (call : StageCall) :
    blobKeys (calls ++ [call]) = blobKeys calls ∪ call.blobKey.toFinset := by
  ext k
  simp [blobKeys, or_comm]

section Last

variable (calls : List StageCall) (k key : UInt16) (raw : UInt32) (text : Bool)
  (total offset : UInt8) (mem : Mem) (data : Option Mem) (p : ℕ)

theorem lastRaw_scalar : lastRaw (calls ++ [.scalar k raw]) key =
    if k = key then some raw else lastRaw calls key := by
  rw [lastRaw, getLast?_filterMap_concat, StageCall.rawFor]
  split_ifs <;> rfl

theorem lastTotal_scalar : lastTotal (calls ++ [.scalar k raw]) key = lastTotal calls key := by
  rw [lastTotal, getLast?_filterMap_concat]
  rfl

theorem lastByte_scalar : lastByte (calls ++ [.scalar k raw]) key p = lastByte calls key p := by
  rw [lastByte, getLast?_filterMap_concat]
  rfl

theorem lastRaw_chunk :
    lastRaw (calls ++ [.chunk text k total offset data]) key = lastRaw calls key := by
  rw [lastRaw, getLast?_filterMap_concat]
  rfl

theorem lastTotal_chunk :
    lastTotal (calls ++ [.chunk text key total offset data]) key = some total := by
  rw [lastTotal, getLast?_filterMap_concat, StageCall.totalFor, if_pos rfl]
  rfl

theorem lastByte_chunk :
    lastByte (calls ++ [.chunk text key total offset (some mem)]) key p =
      if offset.toNat ≤ p ∧ p < offset.toNat + (chunkCount total offset).toNat then
        some (mem (p - offset.toNat))
      else lastByte calls key p := by
  rw [lastByte, getLast?_filterMap_concat, StageCall.byteFor]
  by_cases hp : offset.toNat ≤ p ∧ p < offset.toNat + (chunkCount total offset).toNat
  · rw [if_pos ⟨rfl, hp⟩, if_pos hp]
    rfl
  · rw [if_neg fun hc => hp hc.2, if_neg hp]
    rfl

end Last

/-- Without a staged chunk there is no staged byte. -/
theorem lastByte_eq_none {calls : List StageCall} (h : blobKeys calls = ∅) (key : UInt16) (p : ℕ) :
    lastByte calls key p = none := by
  rw [lastByte, List.getLast?_eq_none_iff, List.filterMap_eq_nil_iff]
  intro call hcall
  cases call with
  | scalar => rfl
  | chunk text k total offset data =>
    have hk : k ∈ blobKeys calls := by
      rw [blobKeys, List.mem_toFinset, List.mem_filterMap]
      exact ⟨_, hcall, rfl⟩
    rw [h] at hk
    cases hk

theorem mem_blobKeys_of_lastTotal {calls : List StageCall} {key : UInt16} {total : UInt8}
    (h : lastTotal calls key = some total) : key ∈ blobKeys calls := by
  have hmem := List.mem_of_getLast? h
  obtain ⟨call, hcall, heq⟩ := List.mem_filterMap.mp hmem
  rw [blobKeys, List.mem_toFinset, List.mem_filterMap]
  refine ⟨call, hcall, ?_⟩
  cases call with
  | scalar => cases heq
  | chunk text k t offset data =>
    rw [StageCall.totalFor] at heq
    by_cases hk : k = key
    · rw [hk]; rfl
    · rw [if_neg hk] at heq
      cases heq

/-- Overwriting a window of a tabulated list. -/
theorem splice_range {f : ℕ → UInt8} {mem : Mem} {n offset count : ℕ} (h : offset + count ≤ n) :
    splice ((List.range n).map f) offset (bytes mem 0 count) =
      (List.range n).map fun p =>
        if offset ≤ p ∧ p < offset + count then mem (p - offset) else f p := by
  refine List.ext_getElem ?_ fun p h1 h2 => ?_
  · simp [splice]
    omega
  · rw [List.length_map, List.length_range] at h2
    simp only [splice, List.append_assoc, List.getElem_append, List.length_take, List.length_map,
      List.length_range, length_bytes, List.getElem_map, List.getElem_range, List.getElem_take,
      List.getElem_drop, getElem_bytes]
    split_ifs with h3 h4 h5 h5
    · omega
    · rfl
    · congr 1; omega
    · omega
    · omega
    · congr 1; omega

/-- The write a call makes in the value store. -/
def StageCall.write : StageCall → Write
  | .scalar key raw => .setRaw key raw
  | .chunk _ key total offset data =>
    .writeBlob key total.toUInt16 offset.toUInt16 data (chunkCount total offset).toUInt16

/-! ## The draft of the calls -/

/-- The draft is what the calls staged. -/
structure Represents (calls : List StageCall) (d : Draft) : Prop where
  contents : d.contents = lastStaged calls
  scalars : scalarKeys calls =
    (d.contents.active.filter fun i => isBlob i = false).image fun i => (signalAt i).signalKey
  blobs : blobKeys calls =
    (d.contents.active.filter fun i => isBlob i = true).image fun i => (signalAt i).signalKey
  untouched : d.written = none → blobKeys calls = ∅
  written : ∀ w, d.written = some w → ∀ i < signalCount, isBlob i = true → ∀ p,
    p ∈ w ↔ (lastByte calls (signalAt i).signalKey p).isSome = true

theorem represents_nil : Represents [] ⟨Contents.empty, none⟩ where
  contents := by
    funext i
    simp [lastStaged, lastTotal, lastRaw, Contents.empty]
  scalars := by
    rw [Contents.active_empty]
    rfl
  blobs := by
    rw [Contents.active_empty]
    rfl
  untouched _ := rfl
  written w hw := by cases hw

/-- An admitted scalar. -/
theorem Represents.scalar {calls : List StageCall} {d : Draft} (h : Represents calls d)
    {key : UInt16} {raw : UInt32} (ha : d.Admits (.setRaw key raw)) :
    Represents (calls ++ [.scalar key raw]) (d.apply (.setRaw key raw)) := by
  obtain ⟨i, hk, hc⟩ := ha
  obtain ⟨hi, rfl⟩ := indexFromKey_eq_some hk
  have hb : isBlob i = false := (checkIndex_ok_iff.mp hc).1
  have happly : d.apply (.setRaw (signalAt i).signalKey raw) =
      ⟨d.contents.set i (.scalar raw), d.written⟩ := by
    simp only [Draft.apply, hk]
    rfl
  rw [happly]
  refine ⟨?_, ?_, ?_, ?_, ?_⟩
  · funext j
    dsimp only
    by_cases hji : j = i
    · subst hji
      simp [Contents.set, lastStaged, hi, hb, lastRaw_scalar]
    · rw [Contents.set, Function.update_of_ne hji, h.contents]
      unfold lastStaged
      by_cases hj : j < signalCount
      · have hne : (signalAt i).signalKey ≠ (signalAt j).signalKey := fun heq =>
          hji (signalKey_inj hi hj heq).symm
        simp only [lastTotal_scalar, lastByte_scalar, lastRaw_scalar, if_neg hne]
      · rw [if_neg hj, if_neg hj]
  · rw [scalarKeys_concat, h.scalars, Contents.active_set hi, Finset.filter_insert, if_pos hb,
      Finset.image_insert, Finset.union_comm]
    rfl
  · rw [blobKeys_concat, h.blobs, Contents.active_set hi, Finset.filter_insert,
      if_neg (by simp [hb])]
    exact Finset.union_empty _
  · intro hw
    rw [blobKeys_concat, h.untouched hw]
    rfl
  · intro w hw j hj hbj p
    rw [lastByte_scalar]
    exact h.written w hw j hj hbj p

/-- The blob an admitted chunk is written into: what was staged so far, zero
    elsewhere. -/
theorem Represents.blobBase {calls : List StageCall} {d : Draft} (h : Represents calls d) {i : ℕ}
    (hi : i < signalCount) (hb : isBlob i = true) {total : ℕ}
    (hold : d.written ≠ none → ∃ old, d.contents i = some (.blob old) ∧ old.length = total) :
    d.blobBase i total = (List.range total).map fun p =>
      (lastByte calls (signalAt i).signalKey p).getD 0 := by
  cases hw : d.written with
  | none =>
    rw [Draft.blobBase, hw]
    refine List.ext_getElem (by simp) fun p _ _ => ?_
    simp [lastByte_eq_none (h.untouched hw)]
  | some w =>
    obtain ⟨old, hc, hlen⟩ := hold (by simp [hw])
    have hstaged := hc
    rw [h.contents, lastStaged, if_pos hi, if_pos hb, Option.map_eq_some_iff] at hstaged
    obtain ⟨t, -, heq⟩ := hstaged
    have hdata := Entry.blob.inj heq
    rw [Draft.blobBase, hw, hc]
    dsimp only
    rw [← hdata] at hlen ⊢
    rw [List.length_map, List.length_range] at hlen
    rw [hlen]

/-- An admitted chunk. -/
theorem Represents.chunk {calls : List StageCall} {d : Draft} (h : Represents calls d)
    {text : Bool} {key : UInt16} {total offset : UInt8} {data : Option Mem}
    (ha : d.Admits (StageCall.chunk text key total offset data).write) :
    Represents (calls ++ [.chunk text key total offset data])
      (d.apply (StageCall.chunk text key total offset data).write) := by
  obtain ⟨i, mem, hk, rfl, hb, hfree, hpos, hcap, hcount, hwindow, hold, hrange⟩ := ha
  obtain ⟨hi, rfl⟩ := indexFromKey_eq_some hk
  rw [UInt8.toNat_toUInt16] at hcount
  rw [UInt8.toNat_toUInt16, UInt8.toNat_toUInt16, UInt8.toNat_toUInt16] at hwindow
  rw [UInt8.toNat_toUInt16] at hold
  have hunique : ∀ j < signalCount, isBlob j = true → j = i := by
    intro j hj hbj
    rw [(isBlob_iff hj).mp hbj, (isBlob_iff hi).mp hb]
  have hbase := h.blobBase hi hb hold
  have hblob : splice (d.blobBase i total.toNat) offset.toNat
        (bytes mem 0 (chunkCount total offset).toNat) =
      (List.range total.toNat).map fun p => (lastByte (calls ++ [.chunk text
        (signalAt i).signalKey total offset (some mem)]) (signalAt i).signalKey p).getD 0 := by
    rw [hbase, splice_range hwindow]
    refine List.map_congr_left fun p _ => ?_
    rw [lastByte_chunk]
    split_ifs <;> rfl
  have happly : d.apply (StageCall.chunk text (signalAt i).signalKey total offset
        (some mem)).write =
      ⟨d.contents.set i (.blob (splice (d.blobBase i total.toNat) offset.toNat
        (bytes mem 0 (chunkCount total offset).toNat))),
        some (d.written.getD ∅ ∪ Finset.Ico offset.toNat
          (offset.toNat + (chunkCount total offset).toNat))⟩ := by
    simp only [StageCall.write, Draft.apply, hk, UInt8.toNat_toUInt16]
    rfl
  rw [happly, hblob]
  refine ⟨?_, ?_, ?_, ?_, ?_⟩
  · funext j
    dsimp only
    by_cases hji : j = i
    · subst hji
      rw [Contents.set, Function.update_self, lastStaged, if_pos hi, if_pos hb, lastTotal_chunk]
      rfl
    · rw [Contents.set, Function.update_of_ne hji, h.contents]
      unfold lastStaged
      by_cases hj : j < signalCount
      · have hbj : ¬ isBlob j = true := fun hbj => hji (hunique j hj hbj)
        rw [if_pos hj, if_pos hj, if_neg hbj, if_neg hbj, lastRaw_chunk]
      · rw [if_neg hj, if_neg hj]
  · rw [scalarKeys_concat, h.scalars, Contents.active_set hi, Finset.filter_insert,
      if_neg (by simp [hb])]
    exact Finset.union_empty _
  · rw [blobKeys_concat, h.blobs, Contents.active_set hi, Finset.filter_insert, if_pos hb,
      Finset.image_insert, Finset.union_comm]
    rfl
  · intro hw
    cases hw
  · intro w hw j hj hbj p
    rw [hunique j hj hbj, lastByte_chunk, ← Option.some.inj hw, Finset.mem_union, Finset.mem_Ico]
    have hbefore : p ∈ d.written.getD ∅ ↔
        (lastByte calls (signalAt i).signalKey p).isSome = true := by
      cases hw' : d.written with
      | none => simp [lastByte_eq_none (h.untouched hw')]
      | some w' => exact h.written w' hw' i hi hb p
    by_cases hp : offset.toNat ≤ p ∧ p < offset.toNat + (chunkCount total offset).toNat
    · rw [if_pos hp]
      simp [hp]
    · rw [if_neg hp, ← hbefore]
      simp [hp]

/-- One admitted call. -/
theorem Represents.concat {calls : List StageCall} {d : Draft} (h : Represents calls d)
    {call : StageCall} (ha : d.Admits call.write) :
    Represents (calls ++ [call]) (d.apply call.write) := by
  cases call with
  | scalar key raw => exact h.scalar ha
  | chunk text key total offset data => exact h.chunk ha

/-- The counts of the draft are the numbers of distinct keys. -/
theorem Represents.card_keys {calls : List StageCall} {d : Draft} (h : Represents calls d) :
    (scalarKeys calls).card = d.contents.scalars ∧ (blobKeys calls).card = d.contents.blobs := by
  have hinj : ∀ P : ℕ → Prop, ∀ [DecidablePred P], Set.InjOn (fun i => (signalAt i).signalKey)
      (d.contents.active.filter P : Finset ℕ) := by
    intro P _ i hi j hj heq
    have hi := (Contents.mem_active.mp (Finset.mem_filter.mp hi).1).1
    have hj := (Contents.mem_active.mp (Finset.mem_filter.mp hj).1).1
    exact signalKey_inj hi hj heq
  rw [h.scalars, h.blobs, Finset.card_image_of_injOn (hinj _), Finset.card_image_of_injOn (hinj _)]
  exact ⟨rfl, rfl⟩

/-- A draft is complete when every byte of every staged blob was staged. -/
theorem Represents.complete_iff {calls : List StageCall} {d : Draft} (h : Represents calls d) :
    d.Complete ↔ BlobStaged calls := by
  have hblob : ∀ i < signalCount, isBlob i = true → d.contents i =
      (lastTotal calls (signalAt i).signalKey).map fun total =>
        .blob ((List.range total.toNat).map fun p =>
          (lastByte calls (signalAt i).signalKey p).getD 0) := by
    intro i hi hb
    rw [h.contents, lastStaged, if_pos hi, if_pos hb]
  constructor
  · intro hc key total htotal p hp
    have hkey := mem_blobKeys_of_lastTotal htotal
    rw [h.blobs, Finset.mem_image] at hkey
    obtain ⟨i, hmem, rfl⟩ := hkey
    obtain ⟨hact, hb⟩ := Finset.mem_filter.mp hmem
    have hi := (Contents.mem_active.mp hact).1
    cases hw : d.written with
    | none =>
      have hnone := h.untouched hw
      rw [h.blobs] at hnone
      exact absurd (Finset.mem_image_of_mem _ hmem) (by rw [hnone]; simp)
    | some w =>
      have hcontents := hblob i hi hb
      rw [htotal] at hcontents
      exact (h.written w hw i hi hb p).mp (hc w hw i _ hcontents p (by simpa using hp))
  · intro hc w hw i data hdata p hp
    have hact : i < signalCount ∧ isBlob i = true := by
      have hstaged := hdata
      rw [h.contents, lastStaged] at hstaged
      by_cases hi : i < signalCount
      · refine ⟨hi, ?_⟩
        by_contra hb
        rw [if_pos hi, if_neg hb, Option.map_eq_some_iff] at hstaged
        obtain ⟨raw, -, heq⟩ := hstaged
        cases heq
      · rw [if_neg hi] at hstaged
        cases hstaged
    rw [hblob i hact.1 hact.2, Option.map_eq_some_iff] at hdata
    obtain ⟨total, htotal, heq⟩ := hdata
    rw [← Entry.blob.inj heq, List.length_map, List.length_range] at hp
    exact (h.written w hw i hact.1 hact.2 p).mpr (hc _ total htotal p hp)

/-! ## The staging calls of a transaction -/

theorem Refused.rejected {g g' : Gen} (h : Refused g g') (ho : g.config.state = .opened) :
    g'.config.state = .rejected := by
  cases h with
  | unchanged hn => exact absurd ho hn
  | poisoned _ hs => rfl

/-- A call to an open transaction is refused and rejects it, or it is staged. -/
theorem stage_opened {B : Build} {g : Gen} {d : Draft} (h : Drafted B g d) (call : StageCall) :
    ((stage B g call).2 ≠ .ok ∧ (stage B g call).1.config.state = .rejected) ∨
      (stage B g call).2 = .ok ∧ d.Admits call.write ∧
        Drafted B (stage B g call).1 (d.apply call.write) ∧
        SameTarget g.config (stage B g call).1.config := by
  cases call with
  | scalar key raw =>
    rcases stageConstantRaw_cases B g key raw with ⟨hne, hr⟩ | ⟨i, ha⟩
    · exact .inl ⟨hne, hr.rejected h.opened⟩
    · rw [stage, stageConstantRaw_accept ha]
      exact .inr ⟨rfl, ⟨i, ha.known, ha.range⟩, h.withScalar ha, markScalar_target g.config i⟩
  | chunk text key total offset data =>
    have hchunk : ∀ c i, AcceptsChunk B g key total offset c i →
        d.Admits (StageCall.chunk text key total offset (some c)).write := by
      intro c i ha
      rcases h.draft.write (StageCall.chunk text key total offset (some c)).write with
        ⟨hadm, -, -⟩ | ⟨-, st, hst, heq⟩
      · exact hadm
      · have hok := ha.stored
        have hreject : writeBlob g.store key total.toUInt16 offset.toUInt16 (some c)
            (chunkCount total offset).toUInt16 = ValueStore.reject g.store st := heq
        rw [hreject] at hok
        exact absurd hok hst
    have hblob : ((stageBlobChunk B g key total offset data).2.1 ≠ .ok ∧
          (stageBlobChunk B g key total offset data).1.config.state = .rejected) ∨
        (stageBlobChunk B g key total offset data).2.1 = .ok ∧
          d.Admits (StageCall.chunk text key total offset data).write ∧
          Drafted B (stageBlobChunk B g key total offset data).1
            (d.apply (StageCall.chunk text key total offset data).write) ∧
          SameTarget g.config (stageBlobChunk B g key total offset data).1.config := by
      rcases stageBlobChunk_cases B g key total offset data with ⟨hne, hr⟩ | ⟨c, i, rfl, ha⟩
      · exact .inl ⟨hne, hr.rejected h.opened⟩
      · rw [stageBlobChunk_accept ha]
        exact .inr ⟨rfl, hchunk c i ha, h.withChunk ha, markBlob_target g.config i⟩
    unfold stage
    dsimp only
    by_cases ht : text = true
    · rw [if_pos ht]
      rcases stageStringChunk_cases B g key total offset data with ⟨hne, hr⟩ | heq
      · exact .inl ⟨hne, hr.rejected h.opened⟩
      · rw [heq]
        exact hblob
    · rw [if_neg ht]
      exact hblob

/-- Without an open transaction every call is refused and changes nothing. -/
theorem stage_closed {B : Build} {g : Gen} (h : g.config.state ≠ .opened) (call : StageCall) :
    (stage B g call).2 ≠ .ok ∧ (stage B g call).1 = g := by
  have hrefused : ∀ {g' : Gen}, Refused g g' → g' = g := by
    intro g' hr
    cases hr with
    | unchanged _ => rfl
    | poisoned ho _ => exact absurd ho h
  cases call with
  | scalar key raw =>
    rcases stageConstantRaw_cases B g key raw with ⟨hst, hr⟩ | ⟨i, ha⟩
    · exact ⟨hst, hrefused hr⟩
    · exact absurd ha.opened h
  | chunk text key total offset data =>
    have hblob : (stageBlobChunk B g key total offset data).2.1 ≠ .ok ∧
        (stageBlobChunk B g key total offset data).1 = g := by
      rcases stageBlobChunk_cases B g key total offset data with ⟨hst, hr⟩ | ⟨c, i, -, ha⟩
      · exact ⟨hst, hrefused hr⟩
      · exact absurd ha.opened h
    unfold stage
    dsimp only
    by_cases ht : text = true
    · rw [if_pos ht]
      rcases stageStringChunk_cases B g key total offset data with ⟨hst, hr⟩ | heq
      · exact ⟨hst, hrefused hr⟩
      · rw [heq]
        exact hblob
    · rw [if_neg ht]
      exact hblob

theorem run_stage_closed {B : Build} {g : Gen} (h : g.config.state ≠ .opened)
    (calls : List StageCall) : (Mealy.run (stage B) g calls).1 = g := by
  induction calls with
  | nil => rfl
  | cons call calls ih =>
    rw [Mealy.run_cons, (stage_closed h call).2]
    exact ih

/-- The staging calls are all accepted and build their draft, or one of them is
    refused and the transaction ends rejected. -/
theorem run_stage {B : Build} {g : Gen} {d : Draft} {done : List StageCall} (h : Drafted B g d)
    (hr : Represents done d) (calls : List StageCall) :
    ((∀ s ∈ (Mealy.run (stage B) g calls).2, s = .ok) ∧
        ∃ d', Drafted B (Mealy.run (stage B) g calls).1 d' ∧ Represents (done ++ calls) d' ∧
          SameTarget g.config (Mealy.run (stage B) g calls).1.config) ∨
      (¬ ∀ s ∈ (Mealy.run (stage B) g calls).2, s = .ok) ∧
        (Mealy.run (stage B) g calls).1.config.state = .rejected := by
  induction calls generalizing g d done with
  | nil =>
    refine .inl ⟨by simp, d, h, ?_, ⟨rfl, rfl, rfl, rfl⟩⟩
    rw [List.append_nil]
    exact hr
  | cons call calls ih =>
    rw [Mealy.run_cons]
    rcases stage_opened h call with ⟨hne, hrej⟩ | ⟨hok, hadm, hd, ht⟩
    · refine .inr ⟨fun hall => hne (hall _ (by simp)), ?_⟩
      rw [run_stage_closed (by rw [hrej]; simp)]
      exact hrej
    · rcases ih hd (hr.concat hadm) with ⟨hall, d', hd', hr', ht'⟩ | ⟨hsome, hrej⟩
      · refine .inl ⟨?_, d', hd', ?_, ?_⟩
        · intro s hs
          rcases List.mem_cons.mp hs with rfl | hs
          · exact hok
          · exact hall s hs
        · rw [List.append_assoc] at hr'
          exact hr'
        · exact ⟨ht'.state.trans ht.state, ht'.profileId.trans ht.profileId,
            ht'.expectedCount.trans ht.expectedCount,
            ht'.expectedBlobCount.trans ht.expectedBlobCount⟩
      · exact .inr ⟨fun hall => hsome fun s hs => hall s (by simp [hs]), hrej⟩

theorem Inv.stage {B : Build} {g : Gen} {c : Contents} (h : Inv B g c) (call : StageCall) :
    Inv B (Generator.stage B g call).1 c := by
  cases call with
  | scalar key raw => exact (h.stageConstantRaw key raw).1
  | chunk text key total offset data =>
    unfold Generator.stage
    dsimp only
    by_cases ht : text = true
    · rw [if_pos ht]
      exact (h.stageStringChunk key total offset data).1
    · rw [if_neg ht]
      exact (h.stageBlobChunk key total offset data).1

/-! ## The commit -/

/-- What the commit of a transaction asks of its calls. -/
structure Acceptable (begun : TxnStatus) (statuses : List TxnStatus) (n : UInt16) (m : UInt8)
    (calls : List StageCall) : Prop where
  begun : begun = .ok
  staged : ∀ s ∈ statuses, s = .ok
  scalars : (scalarKeys calls).card = n.toNat
  blobs : (blobKeys calls).card = m.toNat
  complete : BlobStaged calls

/-- The counters of the draft are met exactly when the distinct keys are `n` and
    `m`. -/
theorem Drafted.commits_iff {B : Build} {g : Gen} {d : Draft} {calls : List StageCall}
    (h : Drafted B g d) (hr : Represents calls d) {n : UInt16} {m : UInt8}
    (hn : g.config.expectedCount = n) (hm : g.config.expectedBlobCount = m) :
    Commits g d ↔ (scalarKeys calls).card = n.toNat ∧ (blobKeys calls).card = m.toNat ∧
      BlobStaged calls := by
  obtain ⟨hcount, hblob, -⟩ := h.staged.toNat_count
  obtain ⟨hs, hb⟩ := hr.card_keys
  rw [hs, hb, ← hcount, ← hblob, UInt16.toNat_inj, UInt8.toNat_inj, ← hn, ← hm, ← hr.complete_iff]
  exact ⟨fun hc => ⟨hc.scalars, hc.blobs, hc.complete⟩, fun hc => ⟨hc.1, hc.2.1, hc.2.2⟩⟩

theorem Drafted.unique {B : Build} {g : Gen} {d d' : Draft} (h : Drafted B g d)
    (h' : Drafted B g d') : Commits g d ↔ Commits g d' := by
  have hcomplete : d.Complete ↔ d'.Complete := by
    rw [h.draft.complete_iff, h'.draft.complete_iff]
  exact ⟨fun hc => ⟨hc.scalars, hc.blobs, hcomplete.mp hc.complete⟩,
    fun hc => ⟨hc.scalars, hc.blobs, hcomplete.mpr hc.complete⟩⟩

/-- **Exact acceptance.** A transaction of a stopped and idle generator that any
    operations produced is accepted exactly when it was begun, no staging call
    was refused, the distinct scalar and blob keys are as many as announced and
    the staged blob is complete. It then activates the last value staged for
    every key, and with a locked profile exactly the records of the profile. Its
    commit never reports a profile mismatch or an internal error. -/
theorem exact_acceptance (B : SupportedBuild) (baudKbps : UInt32) (ops : List Op) (n : UInt16)
    (m profileId : UInt8) (calls : List StageCall) (clock : ℕ → UInt32) :
    let g := after B.val baudKbps ops
    let begun := beginProfileConfig B.val g n m profileId
    let staged := Mealy.run (stage B.val) begun.1 calls
    let committed := commitConfig B.val staged.1 clock
    g.isRunning = false → g.config.state = .idle →
      (committed.2.1 = .ok ↔ Acceptable begun.2 staged.2 n m calls) ∧
      (committed.2.1 = .ok → Shows committed.1.store (lastStaged calls) ∧
        committed.1.activeProfileId = profileId ∧ Locked profileId (lastStaged calls)) ∧
      committed.2.1 ≠ .profileMismatch ∧ committed.2.1 ≠ .internalError := by
  intro g begun staged committed hstopped hidle
  obtain ⟨c, hinv⟩ : ∃ c, Inv B.val g c := inv_after B baudKbps ops
  -- a commit that fails is not acceptable, and reports neither status
  have hfailed : TxnInv B.val staged.1 → (∀ d, Drafted B.val staged.1 d → ¬ Commits staged.1 d) →
      ¬ Acceptable begun.2 staged.2 n m calls →
      (committed.2.1 = .ok ↔ Acceptable begun.2 staged.2 n m calls) ∧
      (committed.2.1 = .ok → Shows committed.1.store (lastStaged calls) ∧
        committed.1.activeProfileId = profileId ∧ Locked profileId (lastStaged calls)) ∧
      committed.2.1 ≠ .profileMismatch ∧ committed.2.1 ≠ .internalError := by
    intro htxn hno hacc
    have hmem := (commitConfig_failed htxn hno clock).1
    have hne : ∀ s : TxnStatus, s ∉ [TxnStatus.notOpen, .rejected, .countMismatch,
        .blobIncomplete] → committed.2.1 ≠ s := fun s hs heq => hs (heq ▸ hmem)
    have hok : committed.2.1 ≠ .ok := hne _ (by simp)
    exact ⟨iff_of_false hok hacc, fun h => absurd h hok, hne _ (by simp), hne _ (by simp)⟩
  rcases beginProfileConfig_cases hinv n m profileId with ⟨hne, heq⟩ | ⟨hok, hbegun⟩
  · have hstaged : staged.1 = g := by
      show (Mealy.run (stage B.val) (beginProfileConfig B.val g n m profileId).1 calls).1 = g
      rw [heq]
      exact run_stage_closed (by rw [hidle]; simp) calls
    refine hfailed (hstaged ▸ hinv.txn) (fun d hd => ?_) fun hacc => hne hacc.begun
    have ho := hd.opened
    rw [hstaged, hidle] at ho
    cases ho
  · have htxn : TxnInv B.val staged.1 := by
      have hinv' : Inv B.val begun.1 c := hinv.of_untouched hbegun.untouched hbegun.txnInv
      have hstep : ∀ g' call, Inv B.val g' c → Inv B.val (stage B.val g' call).1 c :=
        fun g' call h => h.stage call
      exact (Mealy.run_invariant hstep hinv' calls).txn
    rcases run_stage hbegun.drafted represents_nil calls with
      ⟨hall, d, hd, hr, ht⟩ | ⟨hsome, hrej⟩
    · have hiff := hd.commits_iff hr (ht.expectedCount.trans hbegun.expectedCount)
        (ht.expectedBlobCount.trans hbegun.expectedBlobCount)
      by_cases hc : Commits staged.1 d
      · obtain ⟨g', heq, hcommitted⟩ := commitConfig_ok hd hc clock
        have hres : committed = _ := heq
        obtain ⟨h1, h2, h3⟩ := hiff.mp hc
        have hid : g'.activeProfileId = profileId :=
          hcommitted.activeProfileId.trans (ht.profileId.trans hbegun.profileId)
        have hcontents : lastStaged calls = d.contents := hr.contents.symm
        rw [hres, hcontents]
        refine ⟨iff_of_true rfl ⟨hok, hall, h1, h2, h3⟩, fun _ => ⟨hcommitted.active.holds.shows,
          hid, ?_⟩, by simp, by simp⟩
        rw [← hid]
        exact hcommitted.locked
      · refine hfailed htxn (fun d' hd' hc' => hc ((hd'.unique hd).mp hc')) fun hacc => ?_
        exact hc (hiff.mpr ⟨hacc.scalars, hacc.blobs, hacc.complete⟩)
    · refine hfailed htxn (fun d hd => ?_) fun hacc => hsome hacc.staged
      have ho := hd.opened
      rw [show staged.1.config.state = .rejected from hrej] at ho
      cases ho

/-- One scalar, staged twice and announced once. -/
theorem exact_acceptance_single :
    (commitConfig build179 (Mealy.run (stage build179)
      (beginProfileConfig build179 (after build179 250 []) 1 0 profileIdCustom).1
      [.scalar 103 8000, .scalar 103 12000]).1 fun _ => 0).2.1 = .ok :=
  (exact_acceptance ⟨build179, by decide⟩ 250 [] 1 0 profileIdCustom
    [.scalar 103 8000, .scalar 103 12000] (fun _ => 0) rfl rfl).1.mpr
    ⟨by decide +kernel, by decide +kernel, by decide +kernel, by decide +kernel,
      fun _ _ h => by cases h⟩

end J1939Gen.Generator
