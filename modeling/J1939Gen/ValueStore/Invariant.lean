import J1939Gen.ValueStore.Spec

/-!
# Invariants of the banks, and one lemma per operation

`Bank.Wf` is what every bank that can become active satisfies; it makes the
whole-bank validation of `commit` succeed (`commitCheck_of_wf`). `DraftRel`
relates the staging bank of an open transaction to a draft of the
specification; each write keeps it.
-/

namespace J1939Gen.ValueStore

open Bitmask ByteMem

/-- A bank whose active records are all valid, and whose blob slot belongs to
    an active blob record. -/
structure Bank.Wf (b : Bank) : Prop where
  tail : ∀ i, signalCount ≤ i → test b.activeMask i = false
  scalar : ∀ i < signalCount, test b.activeMask i = true → isBlob i = false →
    checkIndex i (b.rawValue i) = .ok
  blob : ∀ i < signalCount, test b.activeMask i = true → isBlob i = true → b.blobIndex = some i
  slot : ∀ i, b.blobIndex = some i → i < signalCount ∧ isBlob i = true ∧
    test b.activeMask i = true ∧ 0 < b.blobLength.toNat ∧ b.blobLength ≤ blobCapacity i

theorem Bank.Wf.lt {b : Bank} (h : b.Wf) {i : ℕ} (hi : test b.activeMask i = true) :
    i < signalCount := by
  by_contra hn
  simp [h.tail i (not_lt.mp hn)] at hi

theorem Bank.Wf.view_eq {b : Bank} (h : b.Wf) (i : ℕ) :
    b.view i = if test b.activeMask i = true then
      some (if isBlob i then .blob (bytes b.blob 0 b.blobLength.toNat)
        else .scalar (b.rawValue i)) else none := by
  unfold Bank.view
  by_cases ht : test b.activeMask i = true
  · simp [ht, h.lt ht]
  · simp [ht]

theorem emptyBank_wf : emptyBank.Wf := by
  constructor <;> simp [emptyBank]

theorem Bank.Wf.congr {b b' : Bank} (h : b.Wf) (h1 : b'.rawValue = b.rawValue)
    (h2 : b'.blobLength = b.blobLength) (h3 : b'.blobIndex = b.blobIndex)
    (h4 : b'.activeMask = b.activeMask) : b'.Wf := by
  constructor
  · rw [h4]; exact h.tail
  · rw [h4, h1]; exact h.scalar
  · rw [h4, h3]; exact h.blob
  · rw [h3, h4, h2]; exact h.slot

theorem checkIndex_ok_iff {i : ℕ} {raw : UInt32} :
    checkIndex i raw = .ok ↔
      isBlob i = false ∧ (signalAt i).rawMin ≤ raw ∧ raw ≤ (signalAt i).rawMax := by
  unfold checkIndex
  cases hb : isBlob i with
  | true => simp
  | false =>
    simp only [Bool.false_eq_true, if_false, true_and, gt_iff_lt]
    split_ifs with h
    · simp only [false_iff, not_and, UInt32.not_le]
      rcases h with h | h
      · exact fun h' => absurd h (UInt32.not_lt.mpr h')
      · exact fun _ => h
    · simpa [UInt32.not_lt] using h

theorem byteOutOfRange_eq_false {i : ℕ} (hi : i < signalCount) (hb : isBlob i = true)
    (byte : UInt8) : byteOutOfRange i byte = false := by
  obtain ⟨h1, h2⟩ := blob_bounds hi hb byte
  simp [byteOutOfRange, h1, h2]

theorem checkBlob_of_wf {b : Bank} (h : b.Wf) {i : ℕ} (hi : test b.activeMask i = true)
    (hb : isBlob i = true) : checkBlob b i = .ok := by
  have hidx := h.blob i (h.lt hi) hi hb
  obtain ⟨hlt, -, -, hpos, hcap⟩ := h.slot i hidx
  have hne : b.blobLength ≠ 0 := by
    intro h0; rw [h0] at hpos; simp at hpos
  unfold checkBlob
  rw [if_neg (by simp [hidx, hne, hcap]), if_neg]
  simp only [List.any_eq_true, not_exists, not_and]
  intro x _
  simp [byteOutOfRange_eq_false hlt hb]

/-! ## The whole-bank validation -/

theorem commitCheckStep_of_wf {b : Bank} (h : b.Wf) (n : UInt16) (i : ℕ) :
    commitCheckStep b (.ok, n) i =
      (.ok, if test b.activeMask i then n + 1 else n) := by
  unfold commitCheckStep
  by_cases ht : test b.activeMask i = true
  · cases hb : isBlob i with
    | true => simp [ht, checkBlob_of_wf h ht hb]
    | false => simp [ht, h.scalar i (h.lt ht) ht hb]
  · simp [ht]

theorem foldl_commitCheckStep {b : Bank} (h : b.Wf) (n : ℕ) :
    (List.range n).foldl (commitCheckStep b) (.ok, 0) =
      (.ok, UInt16.ofNat (card b.activeMask n)) := by
  induction n with
  | zero => simp [card]
  | succ n ih =>
    rw [List.range_succ, List.foldl_append, ih, List.foldl_cons, List.foldl_nil,
      commitCheckStep_of_wf h, card_succ]
    split_ifs <;> simp

theorem foldl_commitCheckStep_of_ne {b : Bank} {status : Status} (h : status ≠ .ok) (n : UInt16)
    (l : List ℕ) : l.foldl (commitCheckStep b) (status, n) = (status, n) := by
  induction l with
  | nil => rfl
  | cons i l ih => rw [List.foldl_cons, commitCheckStep, if_neg (by simp [h]), ih]

theorem tail_of_wf {b : Bank} (h : b.Wf) :
    b.activeMask (activeMaskBytes - 1) >>> UInt8.ofNat (signalCount % 8) = 0 :=
  tail_shiftRight_eq_zero b.activeMask signalCount fun i hi _ => h.tail i hi

theorem dropOrphanBlob_of_wf {b : Bank} (h : b.Wf) : dropOrphanBlob b = b := by
  unfold dropOrphanBlob
  cases hi : b.blobIndex with
  | none => rfl
  | some i => simp [(h.slot i hi).2.2.1]

/-- On a well-formed staging bank only the blob progress can fail a commit. -/
theorem commitCheck_of_wf {s : Store} (ht : s.txnState = .opened) (h : s.staging.Wf) :
    commitCheck s =
      if s.blobTouched = true ∧ s.blobWrittenCount ≠ s.staging.blobLength then (.blobIncomplete, 0)
      else (.ok, UInt16.ofNat (card s.staging.activeMask signalCount)) := by
  unfold commitCheck
  simp only [txnReady, ht, true_and]
  by_cases hb : s.blobTouched = true ∧ s.blobWrittenCount ≠ s.staging.blobLength
  · rw [if_pos hb, if_pos hb, foldl_commitCheckStep_of_ne (by simp)]
    exact if_neg (by simp)
  · rw [if_neg hb, if_neg hb, foldl_commitCheckStep h]
    exact if_neg (by simp only [tail_of_wf h, ne_eq, not_true_eq_false, and_false, not_false_eq_true])

theorem commitCheck_not_ready {s : Store} (ht : s.txnState ≠ .opened) :
    (commitCheck s).1 = txnReady s ∧ txnReady s ≠ .ok := by
  have hne : txnReady s ≠ .ok := by
    unfold txnReady; split <;> simp_all
  unfold commitCheck
  simp only [hne, false_and, if_false]
  rw [foldl_commitCheckStep_of_ne hne]
  simp [hne]

/-! ## Frames: what an operation on the staging bank leaves alone -/

@[simp] theorem active_setStaging (s : Store) (b : Bank) : (s.setStaging b).active = s.active := by
  simp [Store.active, Store.setStaging, Function.update_of_ne]

@[simp] theorem staging_setStaging (s : Store) (b : Bank) : (s.setStaging b).staging = b := by
  simp [Store.staging, Store.setStaging]

/-- What readers see: the active bank and the generation. -/
def SameActive (s s' : Store) : Prop := s'.active = s.active ∧ s'.generation = s.generation

theorem SameActive.refl (s : Store) : SameActive s s := ⟨rfl, rfl⟩

theorem SameActive.trans {s s' s'' : Store} (h : SameActive s s') (h' : SameActive s' s'') :
    SameActive s s'' := ⟨h'.1.trans h.1, h'.2.trans h.2⟩

theorem abort_sameActive (s : Store) : SameActive s (abort s) := ⟨rfl, rfl⟩

theorem commit_status (s : Store) : (commit s).2 = (commitCheck s).1 := by
  unfold commit
  generalize commitCheck s = r
  rfl

theorem commit_idle (s : Store) : (commit s).1.txnState = .idle := by
  unfold commit
  generalize commitCheck s = r
  rfl

/-- A commit that does not return OK changes nothing a reader sees. -/
theorem commit_sameActive {s : Store} (h : (commit s).2 ≠ .ok) : SameActive s (commit s).1 := by
  unfold commit at h ⊢
  generalize commitCheck s = r at h ⊢
  obtain ⟨status, count⟩ := r
  simp only at h ⊢
  rw [if_neg h]
  exact ⟨rfl, rfl⟩

theorem reject_sameActive (s : Store) (status : Status) : SameActive s (reject s status).1 := by
  unfold reject; split_ifs <;> exact ⟨rfl, rfl⟩

theorem begin_sameActive (s : Store) (start : Begin) : SameActive s (begin s start).1 := by
  unfold begin
  split_ifs
  · exact .refl s
  · exact ⟨active_setStaging s _, rfl⟩

/-! ## What a write does: not ready, accepted, rejected -/

theorem txnReady_eq_ok {s : Store} : txnReady s = .ok ↔ s.txnState = .opened := by
  unfold txnReady; cases s.txnState <;> simp

theorem reject_of_opened {s : Store} (h : s.txnState = .opened) (status : Status) :
    reject s status = ({ s with txnState := .rejected }, status) := by
  rw [reject, if_pos h]

theorem setRaw_accept {s : Store} {k : UInt16} {r : UInt32} {i : ℕ} (h : s.txnState = .opened)
    (hk : indexFromKey k = some i) (hc : checkIndex i r = .ok) :
    setRaw s k r = (s.setStaging { s.staging with
      rawValue := Function.update s.staging.rawValue i r
      activeMask := assign s.staging.activeMask i true }, .ok) := by
  simp [setRaw, txnReady_eq_ok.mpr h, checkRaw, hk, hc]

theorem setRaw_reject {s : Store} {k : UInt16} {r : UInt32} (h : s.txnState = .opened)
    (hn : ∀ i, indexFromKey k = some i → checkIndex i r ≠ .ok) :
    ∃ st, st ≠ .ok ∧ setRaw s k r = reject s st := by
  have hc : checkRaw k r ≠ .ok := by
    unfold checkRaw
    cases hk : indexFromKey k with
    | none => simp
    | some i => exact hn i hk
  exact ⟨checkRaw k r, hc, by rw [setRaw, if_neg (by simp [txnReady_eq_ok.mpr h]), if_pos hc]⟩

theorem writeBlob_accept {s : Store} {k t o n : UInt16} {mem : Mem} {i : ℕ}
    (h : s.txnState = .opened) (hk : indexFromKey k = some i) (hb : isBlob i = true)
    (hs : s.staging.blobIndex = none ∨ s.staging.blobIndex = some i)
    (ha : ¬ blobArgsInvalid s i t o n) :
    writeBlob s k t o (some mem) n = (acceptBlob s i t o mem n, .ok) := by
  have hr : (bytes mem 0 n.toNat).any (byteOutOfRange i) = false := by
    simp only [List.any_eq_false]
    intro x _
    simp [byteOutOfRange_eq_false (indexFromKey_eq_some hk).1 hb]
  rw [writeBlob, if_neg (by simp [txnReady_eq_ok.mpr h])]
  simp only [hk]
  rw [if_neg (by simp [hb]), if_neg (by tauto), if_neg ha, if_neg (by simp [hr])]

theorem writeBlob_reject {s : Store} {k t o n : UInt16} {d : Option Mem}
    (h : s.txnState = .opened)
    (hn : ∀ i mem, indexFromKey k = some i → d = some mem → isBlob i = true →
      (s.staging.blobIndex = none ∨ s.staging.blobIndex = some i) → blobArgsInvalid s i t o n) :
    ∃ st, st ≠ .ok ∧ writeBlob s k t o d n = reject s st := by
  rw [writeBlob, if_neg (by simp [txnReady_eq_ok.mpr h])]
  cases hk : indexFromKey k with
  | none => exact ⟨.unknownKey, by simp, rfl⟩
  | some i =>
    cases d with
    | none => exact ⟨.unsupportedSignal, by simp, rfl⟩
    | some mem =>
      simp only
      by_cases hb : isBlob i = false
      · exact ⟨.unsupportedSignal, by simp, if_pos hb⟩
      rw [if_neg hb]
      by_cases hs : s.staging.blobIndex ≠ none ∧ s.staging.blobIndex ≠ some i
      · exact ⟨.resourceFull, by simp, if_pos hs⟩
      rw [if_neg hs, if_pos (hn i mem hk rfl (by simpa using hb) (by tauto))]
      exact ⟨.valueOutOfRange, by simp, rfl⟩

theorem remove_accept {s : Store} {k : UInt16} {i : ℕ} (h : s.txnState = .opened)
    (hk : indexFromKey k = some i) (hs : s.staging.blobIndex ≠ some i) :
    remove s k = (s.setStaging { s.staging with
      activeMask := assign s.staging.activeMask i false }, .ok) := by
  simp [remove, txnReady_eq_ok.mpr h, hk, hs]

theorem remove_accept_blob {s : Store} {k : UInt16} {i : ℕ} (h : s.txnState = .opened)
    (hk : indexFromKey k = some i) (hs : s.staging.blobIndex = some i) :
    remove s k = ({ s.setStaging (clearBlob { s.staging with
        activeMask := assign s.staging.activeMask i false }) with
      blobWritten := zero
      blobWrittenCount := 0
      blobTouched := false }, .ok) := by
  simp [remove, txnReady_eq_ok.mpr h, hk, hs]

theorem remove_reject {s : Store} {k : UInt16} (h : s.txnState = .opened)
    (hk : indexFromKey k = none) : remove s k = reject s .unknownKey := by
  simp [remove, txnReady_eq_ok.mpr h, hk]

/-- The loop of `J1939_Value_Store_Write_Blob`: the chunk lands in the blob,
    its positions join the written ones, and the count stays their number. -/
theorem foldl_writeBlobByte (data : Mem) (offset : UInt16) {p : BlobProgress} {w : Finset ℕ}
    (hw : ∀ q, test p.written q = decide (q ∈ w)) (hc : p.count = UInt16.ofNat w.card) (n : ℕ) :
    let r := (List.range n).foldl (writeBlobByte data offset) p
    let w' := w ∪ Finset.Ico offset.toNat (offset.toNat + n)
    r.blob = copy p.blob offset.toNat data n ∧ (∀ q, test r.written q = decide (q ∈ w')) ∧
      r.count = UInt16.ofNat w'.card := by
  induction n with
  | zero =>
    refine ⟨?_, by simpa using hw, by simpa using hc⟩
    funext q
    rw [copy_of_not_mem _ _ (by omega)]
    rfl
  | succ n ih =>
    obtain ⟨ih1, ih2, ih3⟩ := ih
    have hset : w ∪ Finset.Ico offset.toNat (offset.toNat + (n + 1)) =
        insert (offset.toNat + n) (w ∪ Finset.Ico offset.toNat (offset.toNat + n)) := by
      ext q
      simp only [Finset.mem_union, Finset.mem_Ico, Finset.mem_insert]
      by_cases hq : q ∈ w
      · simp [hq]
      · simp only [hq, false_or]; omega
    have hblob : Function.update (copy p.blob offset.toNat data n) (offset.toNat + n) (data n) =
        copy p.blob offset.toNat data (n + 1) := by
      funext q
      by_cases hq : q = offset.toNat + n
      · subst hq
        rw [Function.update_self, copy_of_mem _ _ (by omega)]
        congr 1; omega
      · rw [Function.update_of_ne hq]
        by_cases hin : offset.toNat ≤ q ∧ q < offset.toNat + n
        · rw [copy_of_mem _ _ hin, copy_of_mem _ _ (by omega)]
        · rw [copy_of_not_mem _ _ (by omega), copy_of_not_mem _ _ (by omega)]
    simp only [List.range_succ, List.foldl_append, List.foldl_cons, List.foldl_nil]
    rw [hset]
    generalize (List.range n).foldl (writeBlobByte data offset) p = r at ih1 ih2 ih3 ⊢
    simp only [writeBlobByte, ih1, hblob]
    by_cases ht : offset.toNat + n ∈ w ∪ Finset.Ico offset.toNat (offset.toNat + n)
    · rw [if_pos (by rw [ih2]; simpa using ht), Finset.insert_eq_of_mem ht]
      exact ⟨rfl, ih2, ih3⟩
    · rw [if_neg (by rw [ih2]; simpa using ht), Finset.card_insert_of_notMem ht]
      refine ⟨rfl, fun q => ?_, ?_⟩
      · rw [test_assign, ih2 q]
        by_cases hq : q = offset.toNat + n
        · simp [hq]
        · simp [hq]
      · rw [ih3]; simp

end J1939Gen.ValueStore
