import J1939Gen.Storage.Records

/-!
# Writing a configuration back

The records of an image, written to the value store in one transaction. Every
valid ascending list of records can be restored so, whatever the store did before.

* `Restoring.write`: one more record.
* `storeAfter_restore`: the transaction commits, and the store holds the records.
-/

namespace J1939Gen

open Bitmask ByteMem ValueStore

/-- The write of one record; a blob is written in one piece. -/
def recordWrite (r : Record) : Write :=
  match r.2 with
  | .scalar raw => .setRaw (signalAt r.1).signalKey raw
  | .blob data => .writeBlob (signalAt r.1).signalKey (UInt16.ofNat data.length) 0
      (some fun k => data.getD k 0) (UInt16.ofNat data.length)

/-- The transaction that writes the records. -/
def restoreOps (l : List Record) : List Op :=
  .beginEmpty :: ((l.map recordWrite).map TxnStore.Op.write ++ [.commit])

/-- The draft after the records `l` were written to an empty one. -/
structure Restoring (d : Draft) (l : List Record) : Prop where
  contents : d.contents = contentsOf l
  untouched : (∀ r ∈ l, r.isBlob = false) → d.written = none
  written : ∀ i data, (i, .blob data) ∈ l → d.written = some (Finset.range data.length)

theorem restoring_start : Restoring ⟨Contents.empty, none⟩ [] where
  contents := rfl
  untouched := fun _ => rfl
  written := by simp

theorem contentsOf_append {l : List Record} {r : Record}
    (h : (l ++ [r]).Pairwise fun r r' => r.1 < r'.1) :
    contentsOf (l ++ [r]) = Function.update (contentsOf l) r.1 (some r.2) := by
  obtain ⟨hl, -, hr⟩ := List.pairwise_append.mp h
  funext i
  refine Option.ext fun e => ?_
  rw [contentsOf_eq_some h, List.mem_append, List.mem_singleton]
  by_cases hi : i = r.1
  · subst hi
    rw [Function.update_self, Option.some.injEq]
    constructor
    · rintro (hmem | heq)
      · exact absurd (hr _ hmem r (by simp)) (lt_irrefl _)
      · rw [← heq]
    · intro heq
      right
      rw [← heq]
  · rw [Function.update_of_ne hi, contentsOf_eq_some hl]
    constructor
    · rintro (hmem | heq)
      · exact hmem
      · exact absurd (by rw [← heq]) hi
    · exact .inl

theorem WfRecords.of_append {l l' : List Record} (h : WfRecords (l ++ l')) : WfRecords l where
  valid r hr := h.valid r (List.mem_append_left _ hr)
  ascending := (List.pairwise_append.mp h.ascending).1

/-- The catalog has one blob record, so the records before it are scalars. -/
theorem WfRecords.scalar_before {l : List Record} {r : Record} (h : WfRecords (l ++ [r]))
    (hr : r.isBlob = true) : ∀ q ∈ l, q.isBlob = false := by
  intro q hq
  by_contra hblob
  have hlt : q.1 < r.1 := (List.pairwise_append.mp h.ascending).2.2 q hq r (by simp)
  have hvq := h.valid q (by simp [hq])
  have hvr := h.valid r (by simp)
  have hq132 : q.1 = 132 := (isBlob_iff hvq.lt).mp (hvq.isBlob_eq.trans (by simpa using hblob))
  have hr132 : r.1 = 132 := (isBlob_iff hvr.lt).mp (hvr.isBlob_eq.trans hr)
  omega

theorem bytes_getD (data : List UInt8) : bytes (fun k => data.getD k 0) 0 data.length = data := by
  refine List.ext_getElem (length_bytes _ _ _) fun i _ hi => ?_
  rw [getElem_bytes, Nat.zero_add, List.getD_eq_getElem _ _ hi]

/-- A blob record fits the 16-bit length of a write. -/
theorem Record.Valid.toNat_length {i : ℕ} {data : List UInt8} (h : Record.Valid (i, .blob data)) :
    (UInt16.ofNat data.length).toNat = data.length := by
  have hcap := blobCapacity_le i
  have hmax : maxPayloadBytes = 200 := rfl
  have hlen : data.length ≤ (blobCapacity i).toNat := h.2.2.2
  exact UInt16.toNat_ofNat_of_lt' (by show data.length < 65536; omega)

section Step

variable {d : Draft} {l : List Record} {i : ℕ}

theorem Restoring.writeScalar (h : Restoring d l) {raw : UInt32}
    (hwf : WfRecords (l ++ [(i, .scalar raw)])) :
    d.Admits (recordWrite (i, .scalar raw)) ∧
      Restoring (d.apply (recordWrite (i, .scalar raw))) (l ++ [(i, .scalar raw)]) := by
  obtain ⟨hi, hcheck⟩ := hwf.valid (i, .scalar raw) (by simp)
  have hkey := indexFromKey_signalKey hi
  refine ⟨⟨i, hkey, hcheck⟩, ?_, fun hall => ?_, fun j data hmem => ?_⟩
  all_goals simp only [recordWrite, Draft.apply, hkey]
  · rw [h.contents, contentsOf_append hwf.ascending]
  · apply h.untouched
    intro r hr
    exact hall r (by simp [hr])
  · apply h.written j data
    simpa using hmem

theorem Restoring.writeBlob (h : Restoring d l) {data : List UInt8}
    (hwf : WfRecords (l ++ [(i, .blob data)])) :
    d.Admits (recordWrite (i, .blob data)) ∧
      Restoring (d.apply (recordWrite (i, .blob data))) (l ++ [(i, .blob data)]) := by
  have hvalid := hwf.valid (i, .blob data) (by simp)
  obtain ⟨hi, hblob, hpos, hcap⟩ := id hvalid
  have hkey := indexFromKey_signalKey hi
  have hlen := hvalid.toNat_length
  have hscalars := hwf.scalar_before rfl
  have hfresh := h.untouched hscalars
  refine ⟨⟨i, _, hkey, rfl, hblob, ?_, ?_, ?_, ?_, ?_, ?_, ?_⟩, ?_, ?_, ?_⟩
  · -- no other blob record is active: there is only one
    intro j hj hblob'
    rw [h.contents, Option.eq_none_iff_forall_ne_some]
    intro e he
    have hmem := (contentsOf_eq_some hwf.of_append.ascending).mp he
    have hv := hwf.of_append.valid _ hmem
    have : Record.isBlob (j, e) = true := hv.isBlob_eq.symm.trans hblob'
    rw [hscalars _ hmem] at this
    cases this
  · rw [hlen]
    exact hpos
  · rw [UInt16.le_iff_toNat_le, hlen]
    exact hcap
  · rw [hlen]
    exact hpos
  · rw [hlen]
    simp
  · intro hwritten
    exact absurd hfresh hwritten
  · intro b _
    exact byteOutOfRange_eq_false hi hblob b
  all_goals simp only [recordWrite, Draft.apply, hkey]
  · rw [h.contents, contentsOf_append hwf.ascending]
    have hbase : d.blobBase i (UInt16.ofNat data.length).toNat = List.replicate data.length 0 := by
      rw [Draft.blobBase, hfresh, hlen]
    rw [hbase, hlen, bytes_getD]
    simp [splice]
  · intro hall
    have := hall (i, .blob data) (by simp)
    cases this
  · intro j data' hmem
    rcases List.mem_append.mp hmem with hmem | hmem
    · have := hscalars _ hmem
      cases this
    · obtain ⟨-, rfl⟩ : j = i ∧ data' = data := by simpa using hmem
      rw [hfresh, hlen]
      show some (∅ ∪ Finset.Ico 0 (0 + data'.length)) = _
      rw [Finset.empty_union, Nat.zero_add, Finset.range_eq_Ico]

/-- One more record is written. -/
theorem Restoring.write (h : Restoring d l) {r : Record} (hwf : WfRecords (l ++ [r])) :
    d.Admits (recordWrite r) ∧ Restoring (d.apply (recordWrite r)) (l ++ [r]) := by
  obtain ⟨i, raw | data⟩ := r
  · exact h.writeScalar hwf
  · exact h.writeBlob hwf

/-- The remaining records are written, by induction on them. -/
theorem Restoring.writeAll (h : Restoring d l) {l' : List Record} (hwf : WfRecords (l ++ l')) :
    TxnStore.Admissible kind d (l'.map recordWrite) ∧
      Restoring ((l'.map recordWrite).foldl Draft.apply d) (l ++ l') := by
  induction l' generalizing d l with
  | nil => exact ⟨trivial, by rwa [List.append_nil]⟩
  | cons r l' ih =>
    rw [List.append_cons] at hwf ⊢
    obtain ⟨hadm, hnext⟩ := h.write hwf.of_append
    obtain ⟨hadmits, hall⟩ := ih hnext hwf
    exact ⟨⟨hadm, hadmits⟩, hall⟩

/-- The blob of a restored draft is complete. -/
theorem Restoring.complete (h : Restoring d l) (hwf : WfRecords l) : d.Complete := by
  intro w hw i data hdata p hp
  rw [h.contents, contentsOf_eq_some hwf.ascending] at hdata
  rw [h.written i data hdata, Option.some.injEq] at hw
  rw [← hw, Finset.mem_range]
  exact hp

end Step

/-- Calls the specification lets succeed return OK. -/
theorem all_ok {sts : List Status} {oks : List Prop}
    (h : List.Forall₂ (fun st ok => st = Status.ok ↔ ok) sts oks) (hok : ∀ ok ∈ oks, ok) :
    ∀ st ∈ sts, st = .ok := by
  induction h with
  | nil => simp
  | cons hst _ ih =>
    rw [List.forall_mem_cons] at hok ⊢
    exact ⟨hst.mpr hok.1, ih hok.2⟩

/-- **Restoring.** On any store without an open transaction, the calls that write
    the records of an image all return OK, and the store then holds exactly them. -/
theorem storeAfter_restore {l : List Record} (h : WfRecords l) {ops : List Op}
    (hidle : inTransaction (storeAfter ops) = false) :
    (∀ st ∈ (Mealy.run apiStep (storeAfter ops) (restoreOps l)).2, st = .ok) ∧
      Holds (storeAfter (ops ++ restoreOps l)) (contentsOf l) := by
  have hrel := (storeRel_after ops).1
  have htxn : (specAfter ops).txn = none := by
    cases hx : (specAfter ops).txn with
    | none => rfl
    | some x =>
      exfalso
      have hx' := hrel.txn
      rw [hx] at hx'
      by_cases hr : x.rejected
      · simp [inTransaction, hx'.1 hr] at hidle
      · simp [inTransaction, (hx'.2 hr).opened] at hidle
  obtain ⟨hadmits, hrestoring⟩ := restoring_start.writeAll ((List.nil_append l).symm ▸ h)
  have hrun := TxnStore.run_transaction kind htxn hadmits (hrestoring.complete h)
  obtain ⟨hafter, hstatus⟩ := Mealy.run_simulation (fun st ok => st = Status.ok ↔ ok) storeRel_step
    hrel (restoreOps l)
  rw [restoreOps, hrun] at hafter hstatus
  refine ⟨all_ok hstatus ?_, ?_⟩
  · intro ok hok
    simp only [List.mem_cons, List.mem_append, List.mem_replicate, List.not_mem_nil, or_false] at hok
    rcases hok with rfl | ⟨-, rfl⟩ | rfl
    all_goals trivial
  · have hholds := hafter.holds
    rw [storeAfter, Mealy.run_append]
    have hcontents : ((l.map recordWrite).foldl Draft.apply ⟨Contents.empty, none⟩).contents =
      contentsOf l := hrestoring.contents
    rw [← hcontents]
    exact hholds

end J1939Gen
