import J1939Gen.Generator.Transaction

/-!
# Delivering a configuration

The staging calls that deliver a configuration are all accepted. A blob is delivered
in windows of three bytes, padded with zeroes past its end. The windows may overlap
and come in any order: when they are windows of one list of bytes and cover it, that
list is what they stage.

* `lastByte_of_windows`, `lastTotal_of_windows`: what windows of `data` stage.
* `Drafted.admit_of_subset`: the capacities admit what fits them.
* `Drafted.scalar_ok`, `Drafted.window_ok`: an admitted call is accepted.
* `run_stage_ok`: a run of accepted calls.
-/

namespace J1939Gen.Generator

open Bitmask ByteMem ValueStore Scheduler

/-- The call stages a window of `data`. -/
def StageCall.IsWindow (data : List UInt8) : StageCall → Prop
  | .chunk _ _ total offset (some mem) =>
    total.toNat = data.length ∧ offset.toNat < data.length ∧
      ∀ k < 3, mem k = data.getD (offset.toNat + k) 0
  | _ => False

/-- Position `p` is in the window of the call. -/
def StageCall.Covers (p : ℕ) : StageCall → Prop
  | .chunk _ _ _ offset _ => offset.toNat ≤ p ∧ p < offset.toNat + 3
  | .scalar .. => False

/-- A window holds three bytes, or the ones that are left. -/
theorem toNat_chunkCount {total offset : UInt8} (h : offset.toNat < total.toNat) :
    (chunkCount total offset).toNat = min 3 (total.toNat - offset.toNat) := by
  have hsub : (total - offset).toNat = total.toNat - offset.toNat :=
    UInt8.toNat_sub_of_le _ _ (UInt8.le_iff_toNat_le.mpr h.le)
  have hthree : blobChunkBytes.toNat = 3 := rfl
  unfold chunkCount
  split_ifs with hlt
  · rw [UInt8.lt_iff_toNat_lt, hsub, hthree] at hlt
    rw [hsub]
    omega
  · rw [UInt8.lt_iff_toNat_lt, hsub, hthree] at hlt
    rw [hthree]
    omega

/-! ## What windows stage -/

/-- When every value a call gives is `b`, and some call gives one, the last one
    is `b`. -/
theorem getLast?_filterMap_of_forall {α β : Type} {f : α → Option β} {l : List α} {b : β}
    (h : ∀ a ∈ l, ∀ b', f a = some b' → b' = b) (hex : ∃ a ∈ l, f a = some b) :
    (l.filterMap f).getLast? = some b := by
  obtain ⟨a, ha, hb⟩ := hex
  have hmem : b ∈ l.filterMap f := List.mem_filterMap.mpr ⟨a, ha, hb⟩
  rw [List.getLast?_eq_some_getLast (List.ne_nil_of_mem hmem), Option.some.injEq]
  obtain ⟨a', ha', hb'⟩ := List.mem_filterMap.mp (List.getLast_mem (List.ne_nil_of_mem hmem))
  exact h a' ha' _ hb'

section Staged

variable {key : UInt16} {data : List UInt8} {calls : List StageCall}

/-- The last length windows of `data` stage. -/
theorem lastTotal_of_windows
    (hw : ∀ call ∈ calls, call.blobKey = some key → call.IsWindow data)
    (hex : ∃ call ∈ calls, call.blobKey = some key) :
    lastTotal calls key = some (UInt8.ofNat data.length) := by
  have htotal : ∀ call ∈ calls, call.blobKey = some key →
      call.totalFor key = some (UInt8.ofNat data.length) := by
    intro call hcall hkey
    have hwin := hw call hcall hkey
    cases call with
    | scalar => cases hkey
    | chunk text k total offset mem =>
      obtain rfl : k = key := Option.some.inj hkey
      cases mem with
      | none => exact hwin.elim
      | some mem =>
        rw [StageCall.totalFor, if_pos rfl, ← hwin.1, UInt8.ofNat_toNat]
  obtain ⟨call, hcall, hkey⟩ := hex
  refine getLast?_filterMap_of_forall (fun call' hcall' total ht => ?_)
    ⟨call, hcall, htotal call hcall hkey⟩
  have hkey' : call'.blobKey = some key := by
    cases call' with
    | scalar => cases ht
    | chunk text k t o m =>
      simp only [StageCall.totalFor, Option.ite_none_right_eq_some] at ht
      rw [StageCall.blobKey, ht.1]
  rw [htotal call' hcall' hkey', Option.some.injEq] at ht
  exact ht.symm

/-- The last byte windows of `data` stage at a position they cover. -/
theorem lastByte_of_windows
    (hw : ∀ call ∈ calls, call.blobKey = some key → call.IsWindow data) {p : ℕ}
    (hp : p < data.length) (hcov : ∃ call ∈ calls, call.blobKey = some key ∧ call.Covers p) :
    lastByte calls key p = some (data.getD p 0) := by
  refine getLast?_filterMap_of_forall (fun call hcall b hbyte => ?_) ?_
  · cases call with
    | scalar => cases hbyte
    | chunk text k total offset mem =>
      simp only [StageCall.byteFor, Option.ite_none_right_eq_some] at hbyte
      obtain ⟨⟨rfl, h1, h2⟩, hb⟩ := hbyte
      have hwin := hw _ hcall rfl
      cases mem with
      | none => exact hwin.elim
      | some mem =>
        obtain ⟨htotal, hoff, hmem⟩ := hwin
        rw [toNat_chunkCount (by rw [htotal]; exact hoff)] at h2
        rw [Option.map_some, Option.some.injEq, hmem _ (by omega)] at hb
        rw [← hb, Nat.add_sub_cancel' h1]
  · obtain ⟨call, hcall, hkey, hcovers⟩ := hcov
    have hwin := hw call hcall hkey
    cases call with
    | scalar => cases hkey
    | chunk text k total offset mem =>
      obtain rfl : k = key := Option.some.inj hkey
      cases mem with
      | none => exact hwin.elim
      | some mem =>
        obtain ⟨htotal, hoff, hmem⟩ := hwin
        obtain ⟨h1, h2⟩ := hcovers
        refine ⟨_, hcall, ?_⟩
        have hcount := toNat_chunkCount (show offset.toNat < total.toNat by rw [htotal]; exact hoff)
        rw [StageCall.byteFor, if_pos ⟨rfl, h1, by rw [hcount]; omega⟩, Option.map_some,
          hmem _ (by omega), Nat.add_sub_cancel' h1]

end Staged

/-! ## Accepted calls -/

section Accepted

variable {B : Build} {g : Gen} {d : Draft}

/-- A record of a set that fits the capacities is admitted to a draft with records
    of the set. -/
theorem Drafted.admit_of_subset (h : Drafted B g d) {K : Finset ℕ} (hsub : d.contents.active ⊆ K)
    (hsignals : K.card ≤ B.signalCapacity)
    (hpgns : (K.image fun i => (signalAt i).pgnIndex).card ≤ B.pgnCapacity) {i : ℕ} (hi : i ∈ K)
    (hlt : i < signalCount) : g.config.admit B i = .ok := by
  have hadm := h.staged.admit hlt
  refine hadm.1.mpr ⟨?_, ?_⟩
  · by_cases hin : i ∈ d.contents.active
    · exact .inl hin
    · refine .inr (lt_of_lt_of_le ?_ hsignals)
      exact Finset.card_lt_card ⟨hsub, fun hsup => hin (hsup hi)⟩
  · by_cases hin : (signalAt i).pgnIndex ∈ d.contents.pgns
    · exact .inl hin
    · refine .inr (lt_of_lt_of_le ?_ hpgns)
      refine Finset.card_lt_card ⟨Finset.image_subset_image hsub, fun hsup => hin (hsup ?_)⟩
      exact Finset.mem_image_of_mem _ hi

/-- An admitted scalar in its range is accepted. -/
theorem Drafted.scalar_ok (h : Drafted B g d) {i : ℕ} (hi : i < signalCount) {raw : UInt32}
    (hcheck : checkIndex i raw = .ok) (hallows : g.config.profileAllows i = true)
    (hadm : g.config.admit B i = .ok) :
    (stage B g (.scalar (signalAt i).signalKey raw)).2 = .ok ∧
      d.apply (StageCall.scalar (signalAt i).signalKey raw).write =
        ⟨d.contents.set i (.scalar raw), d.written⟩ := by
  have hkey := indexFromKey_signalKey hi
  have hb := (checkIndex_ok_iff.mp hcheck).1
  have hstored : (setRaw g.store (signalAt i).signalKey raw).2 = .ok := by
    rw [setRaw_accept h.draft.opened hkey hcheck]
  refine ⟨?_, ?_⟩
  · rw [stage, stageConstantRaw_accept ⟨h.opened, hkey, hallows, hb, hcheck, hadm, hstored⟩]
  · simp only [StageCall.write, Draft.apply, hkey]
    rfl

/-- A window is padded with zeroes. -/
theorem window_padding {data : List UInt8} {total offset : UInt8} {mem : Mem}
    (htotal : total.toNat = data.length) (hoff : offset.toNat < data.length)
    (hmem : ∀ k < 3, mem k = data.getD (offset.toNat + k) 0) :
    (bytes mem (chunkCount total offset).toNat (3 - (chunkCount total offset).toNat)).any (· ≠ 0) =
      false := by
  rw [toNat_chunkCount (by rw [htotal]; exact hoff), htotal, List.any_eq_false]
  intro b hb
  obtain ⟨k, hk, rfl⟩ := List.mem_map.mp hb
  have hk := List.mem_range.mp hk
  have hzero : mem (min 3 (data.length - offset.toNat) + k) = 0 := by
    rw [hmem _ (by omega)]
    exact List.getD_eq_default _ _ (by omega)
  simpa using hzero

/-- An admitted window of `data` is accepted, and the blob of the draft is then as
    long as `data`. -/
theorem Drafted.window_ok (h : Drafted B g d) {i : ℕ} (hi : i < signalCount)
    (hb : isBlob i = true) (hallows : g.config.profileAllows i = true)
    (hadm : g.config.admit B i = .ok) {data : List UInt8}
    (hcap : data.length ≤ (blobCapacity i).toNat) {total offset : UInt8} {mem : Mem}
    (htotal : total.toNat = data.length) (hoff : offset.toNat < data.length)
    (hmem : ∀ k < 3, mem k = data.getD (offset.toNat + k) 0)
    (hold : d.written ≠ none →
      ∃ old, d.contents i = some (.blob old) ∧ old.length = data.length) (text : Bool) :
    (stageBlobChunk B g (signalAt i).signalKey total offset (some mem)).2.1 = .ok ∧
      ∃ new, (d.apply (StageCall.chunk text (signalAt i).signalKey total offset
          (some mem)).write).contents = d.contents.set i (.blob new) ∧ new.length = data.length := by
  have hkey := indexFromKey_signalKey hi
  have hcount : (chunkCount total offset).toNat = min 3 (data.length - offset.toNat) := by
    rw [toNat_chunkCount (by rw [htotal]; exact hoff), htotal]
  have hdraft : d.Admits (StageCall.chunk text (signalAt i).signalKey total offset
      (some mem)).write := by
    refine ⟨i, _, hkey, rfl, hb, fun j hj hbj => ?_, ?_, ?_, ?_, ?_, ?_, ?_⟩
    · -- no other record is a blob
      by_contra hne
      have hjlt : j < signalCount := by
        refine h.draft.wf.lt ?_
        by_contra htest
        rw [← h.draft.contents, h.draft.wf.view_eq, if_neg htest] at hne
        exact hne rfl
      apply hj
      rw [(isBlob_iff hjlt).mp hbj, (isBlob_iff hi).mp hb]
    · rw [UInt8.toNat_toUInt16]
      omega
    · rw [UInt16.le_iff_toNat_le, UInt8.toNat_toUInt16, htotal]
      exact hcap
    · rw [UInt8.toNat_toUInt16]
      omega
    · rw [UInt8.toNat_toUInt16, UInt8.toNat_toUInt16, UInt8.toNat_toUInt16]
      omega
    · rw [UInt8.toNat_toUInt16, htotal]
      exact hold
    · intro b _
      exact byteOutOfRange_eq_false hi hb b
  have hstored : (writeBlob g.store (signalAt i).signalKey total.toUInt16 offset.toUInt16
      (some mem) (chunkCount total offset).toUInt16).2 = .ok := by
    rcases h.draft.write (StageCall.chunk text (signalAt i).signalKey total offset
      (some mem)).write with ⟨-, hok, -⟩ | ⟨hn, -⟩
    · exact hok
    · exact absurd hdraft hn
  have hwindow : offset < total := by
    rw [UInt8.lt_iff_toNat_lt, htotal]
    exact hoff
  refine ⟨?_, ?_⟩
  · rw [stageBlobChunk_accept ⟨h.opened, hkey, hallows, hb, hwindow,
      window_padding htotal hoff hmem, hadm, hstored⟩]
  · simp only [StageCall.write, Draft.apply, hkey]
    refine ⟨_, rfl, ?_⟩
    have hbase : (d.blobBase i total.toNat).length = data.length := by
      unfold Draft.blobBase
      rw [htotal]
      cases hwritten : d.written with
      | none => simp
      | some w =>
        obtain ⟨old, h1, h2⟩ := hold (by rw [hwritten]; simp)
        rw [h1]
        exact h2
    simp only [splice, List.length_append, List.length_take, List.length_drop, length_bytes,
      UInt8.toNat_toUInt16, hcount, hbase]
    omega

end Accepted

/-- Calls that are accepted in every draft with `P`, and keep `P`, are all accepted
    one after another. -/
theorem run_stage_ok {B : Build} {g : Gen} {d : Draft} {P : Draft → Prop} {calls : List StageCall}
    (hd : Drafted B g d) (hp : P d)
    (hcalls : ∀ call ∈ calls, ∀ g' d', Drafted B g' d' → g'.config.profileId = g.config.profileId →
      P d' → (stage B g' call).2 = .ok ∧ P (d'.apply call.write)) :
    ∀ s ∈ (Mealy.run (stage B) g calls).2, s = .ok := by
  induction calls generalizing g d with
  | nil => simp
  | cons call calls ih =>
    obtain ⟨hok, hp'⟩ := hcalls call (by simp) g d hd rfl hp
    rcases stage_opened hd call with ⟨hne, -⟩ | ⟨-, -, hd', hs⟩
    · exact absurd hok hne
    · rw [Mealy.run_cons]
      intro s hs'
      rcases List.mem_cons.mp hs' with rfl | hs'
      · exact hok
      · refine ih hd' hp' (fun call' hc g' d' hd' hsame => ?_) s hs'
        exact hcalls call' (by simp [hc]) g' d' hd' (hsame.trans hs.profileId)

end J1939Gen.Generator
