import J1939Gen.ValueStore.Invariant

/-!
# The value store refines a transactional map

`StoreRel` relates a store to a state of the transactional specification
(`ValueStore.kind`); every API call keeps it and reports OK exactly when the
specification succeeds.

* `DraftRel.write`: one write of an open transaction.
* `storeRel_step`: one API call.
* `atomic_map`: what readers see along any sequence of calls.
-/

namespace J1939Gen.ValueStore

open Bitmask ByteMem

/-! ## Staging bank updates -/

theorem Bank.view_congr {b b' : Bank} (h1 : b'.rawValue = b.rawValue) (h2 : b'.blob = b.blob)
    (h3 : b'.blobLength = b.blobLength) (h4 : b'.activeMask = b.activeMask) :
    b'.view = b.view := by
  unfold Bank.view; rw [h1, h2, h3, h4]

section StagingUpdates

variable {b : Bank} {i : ℕ}

theorem Bank.Wf.setScalar (h : b.Wf) (hi : i < signalCount) {r : UInt32}
    (hc : checkIndex i r = .ok) :
    Bank.Wf { b with
      rawValue := Function.update b.rawValue i r
      activeMask := assign b.activeMask i true } where
  tail j hj := by
    rw [test_assign_of_ne _ _ (by omega)]
    exact h.tail j hj
  scalar j hj ht hb := by
    by_cases hji : j = i
    · subst hji; simpa using hc
    · simp only [Function.update_of_ne hji]
      exact h.scalar j hj (by rwa [test_assign_of_ne _ _ hji] at ht) hb
  blob j hj ht hb := by
    have hji : j ≠ i := by
      rintro rfl
      simp [(checkIndex_ok_iff.mp hc).1] at hb
    exact h.blob j hj (by rwa [test_assign_of_ne _ _ hji] at ht) hb
  slot j hj := by
    obtain ⟨h1, h2, h3, h4⟩ := h.slot j hj
    exact ⟨h1, h2, by rw [test_assign, h3]; split_ifs <;> rfl, h4⟩

theorem Bank.view_setScalar (hi : i < signalCount) (hb : isBlob i = false) (r : UInt32) :
    Bank.view { b with
      rawValue := Function.update b.rawValue i r
      activeMask := assign b.activeMask i true } =
      Function.update b.view i (some (.scalar r)) := by
  funext j
  by_cases hji : j = i
  · subst hji; simp [Bank.view, hi, hb]
  · rw [Function.update_of_ne hji]
    simp only [Bank.view, test_assign_of_ne _ _ hji, Function.update_of_ne hji]

theorem Bank.Wf.deactivate (h : b.Wf) (hs : b.blobIndex ≠ some i) :
    Bank.Wf { b with activeMask := assign b.activeMask i false } where
  tail j hj := by
    rw [test_assign, h.tail j hj]; split_ifs <;> rfl
  scalar j hj ht hb := by
    have hji : j ≠ i := by rintro rfl; simp at ht
    exact h.scalar j hj (by rwa [test_assign_of_ne _ _ hji] at ht) hb
  blob j hj ht hb := by
    have hji : j ≠ i := by rintro rfl; simp at ht
    exact h.blob j hj (by rwa [test_assign_of_ne _ _ hji] at ht) hb
  slot j hj := by
    obtain ⟨h1, h2, h3, h4⟩ := h.slot j hj
    have hji : j ≠ i := by rintro rfl; exact hs hj
    exact ⟨h1, h2, by rwa [test_assign_of_ne _ _ hji], h4⟩

theorem Bank.view_deactivate (b : Bank) (i : ℕ) :
    Bank.view { b with activeMask := assign b.activeMask i false } =
      Function.update b.view i none := by
  funext j
  by_cases hji : j = i
  · subst hji; simp [Bank.view]
  · rw [Function.update_of_ne hji]
    simp only [Bank.view, test_assign_of_ne _ _ hji]

/-- Removing the blob leaves no active blob record. -/
theorem Bank.Wf.scalar_of_slot (h : b.Wf) (hs : b.blobIndex = some i) {j : ℕ}
    (ht : test (assign b.activeMask i false) j = true) :
    j < signalCount ∧ test b.activeMask j = true ∧ isBlob j = false := by
  have hji : j ≠ i := by rintro rfl; simp at ht
  rw [test_assign_of_ne _ _ hji] at ht
  refine ⟨h.lt ht, ht, ?_⟩
  by_contra hb
  have := h.blob j (h.lt ht) ht (by simpa using hb)
  rw [hs] at this
  exact hji (Option.some.inj this).symm

theorem Bank.Wf.removeBlob (h : b.Wf) (hs : b.blobIndex = some i) :
    Bank.Wf (clearBlob { b with activeMask := assign b.activeMask i false }) where
  tail j hj := by
    show test (assign b.activeMask i false) j = false
    rw [test_assign, h.tail j hj]; split_ifs <;> rfl
  scalar j hj ht hb := h.scalar j hj (h.scalar_of_slot hs ht).2.1 hb
  blob j hj ht hb := by simp [(h.scalar_of_slot hs ht).2.2] at hb
  slot j hj := by simp [clearBlob] at hj

theorem Bank.Wf.view_removeBlob (h : b.Wf) (hs : b.blobIndex = some i) :
    Bank.view (clearBlob { b with activeMask := assign b.activeMask i false }) =
      Function.update b.view i none := by
  rw [← Bank.view_deactivate b i]
  funext j
  unfold Bank.view clearBlob
  simp only
  by_cases ht : test (assign b.activeMask i false) j = true
  · simp [ht, (h.scalar_of_slot hs ht).2.2]
  · simp [ht]

theorem Bank.Wf.storeBlob (h : b.Wf) (hi : i < signalCount) (hb : isBlob i = true)
    (hs : b.blobIndex = none ∨ b.blobIndex = some i) {len : UInt16} (hlen : 0 < len.toNat)
    (hcap : len ≤ blobCapacity i) (mem : Mem) :
    Bank.Wf { b with
      blob := mem, blobLength := len, blobIndex := some i
      activeMask := assign b.activeMask i true } where
  tail j hj := by
    rw [test_assign_of_ne _ _ (by omega)]
    exact h.tail j hj
  scalar j hj ht hbj := by
    have hji : j ≠ i := by rintro rfl; simp [hb] at hbj
    exact h.scalar j hj (by rwa [test_assign_of_ne _ _ hji] at ht) hbj
  blob j hj ht hbj := by
    by_cases hji : j = i
    · rw [hji]
    · have := h.blob j hj (by rwa [test_assign_of_ne _ _ hji] at ht) hbj
      rcases hs with hs | hs
      · simp [hs] at this
      · rw [hs] at this
        exact absurd (Option.some.inj this).symm hji
  slot j hj := by
    obtain rfl := Option.some.inj hj
    exact ⟨hi, hb, by simp, hlen, hcap⟩

theorem Bank.Wf.view_storeBlob (h : b.Wf) (hi : i < signalCount) (hb : isBlob i = true)
    (hs : b.blobIndex = none ∨ b.blobIndex = some i) (len : UInt16) (mem : Mem) :
    Bank.view { b with
      blob := mem, blobLength := len, blobIndex := some i
      activeMask := assign b.activeMask i true } =
      Function.update b.view i (some (.blob (bytes mem 0 len.toNat))) := by
  funext j
  by_cases hji : j = i
  · subst hji; simp [Bank.view, hi, hb]
  · rw [Function.update_of_ne hji]
    simp only [Bank.view, test_assign_of_ne _ _ hji]
    by_cases ht : j < signalCount ∧ test b.activeMask j = true
    · rw [if_pos ht, if_pos ht]
      cases hbj : isBlob j with
      | false => rfl
      | true =>
        have := h.blob j ht.1 ht.2 hbj
        rcases hs with hs | hs
        · simp [hs] at this
        · rw [hs] at this
          exact absurd (Option.some.inj this).symm hji
    · rw [if_neg ht, if_neg ht]

/-- An active blob record of a well-formed bank shows the blob slot. -/
theorem Bank.Wf.view_slot (h : b.Wf) (hs : b.blobIndex = some i) :
    b.view i = some (.blob (bytes b.blob 0 b.blobLength.toNat)) := by
  obtain ⟨h1, h2, h3, -⟩ := h.slot i hs
  simp [Bank.view, h1, h2, h3]

theorem Bank.Wf.slot_of_view (h : b.Wf) {data : List UInt8} (hv : b.view i = some (.blob data)) :
    b.blobIndex = some i ∧ data = bytes b.blob 0 b.blobLength.toNat := by
  rw [h.view_eq] at hv
  split_ifs at hv with ht hb
  · exact ⟨h.blob i (h.lt ht) ht hb, by simpa using hv.symm⟩
  · simp at hv

end StagingUpdates

/-! ## Splicing a chunk into a blob -/

theorem take_bytes (m : Mem) {a n : ℕ} (h : a ≤ n) : (bytes m 0 n).take a = bytes m 0 a := by
  obtain ⟨k, rfl⟩ := Nat.exists_eq_add_of_le h
  rw [bytes_add, List.take_left' (by simp)]

theorem drop_bytes (m : Mem) (a n : ℕ) : (bytes m 0 (a + n)).drop a = bytes m a n := by
  rw [bytes_add, List.drop_left' (by simp), Nat.zero_add]

theorem bytes_copy_eq_splice (dst src : Mem) {offset n len : ℕ} (h : offset + n ≤ len) :
    bytes (copy dst offset src n) 0 len = splice (bytes dst 0 len) offset (bytes src 0 n) := by
  obtain ⟨k, rfl⟩ := Nat.exists_eq_add_of_le h
  unfold splice
  rw [take_bytes _ (by omega), length_bytes, drop_bytes, bytes_add, bytes_add, Nat.zero_add,
    bytes_copy]
  congr 1
  · congr 1
    exact bytes_congr fun i _ hi => copy_of_not_mem dst src (.inl (by omega))
  · rw [Nat.zero_add]
    exact bytes_congr fun i hi _ => copy_of_not_mem dst src (.inr hi)

theorem bytes_const (v : UInt8) (n : ℕ) : bytes (fun _ => v) 0 n = List.replicate n v := by
  simp [bytes]

/-! ## The staging bank and the draft -/

/-- The staging bank and the blob bookkeeping of an open, clean transaction
    represent a draft. -/
structure DraftRel (s : Store) (d : Draft) : Prop where
  opened : s.txnState = .opened
  wf : s.staging.Wf
  contents : s.staging.view = d.contents
  untouched : d.written = none →
    s.blobTouched = false ∧ s.blobWrittenCount = 0 ∧ ∀ p, test s.blobWritten p = false
  touched : ∀ w, d.written = some w →
    s.blobTouched = true ∧ s.staging.blobIndex ≠ none ∧
      (∀ p, test s.blobWritten p = decide (p ∈ w)) ∧
      s.blobWrittenCount = UInt16.ofNat w.card ∧ ∀ p ∈ w, p < s.staging.blobLength.toNat

theorem DraftRel.written_eq_none {s : Store} {d : Draft} (h : DraftRel s d) :
    d.written = none ↔ s.blobTouched = false := by
  cases hw : d.written with
  | none => simp [(h.untouched hw).1]
  | some w => simp [(h.touched w hw).1]

/-- The written positions, as the bookkeeping has them. -/
theorem DraftRel.written {s : Store} {d : Draft} (h : DraftRel s d) :
    (∀ p, test s.blobWritten p = decide (p ∈ d.written.getD ∅)) ∧
      s.blobWrittenCount = UInt16.ofNat (d.written.getD ∅).card := by
  cases hw : d.written with
  | none =>
    obtain ⟨-, h1, h2⟩ := h.untouched hw
    exact ⟨fun p => by simp [h2 p], by simp [h1]⟩
  | some w =>
    obtain ⟨-, -, h1, h2, -⟩ := h.touched w hw
    exact ⟨h1, h2⟩

/-- Cleared bookkeeping represents an untouched draft. -/
theorem DraftRel.fresh {s : Store} {b : Bank} (ho : s.txnState = .opened) (hs : s.staging = b)
    (hb : b.Wf) (h1 : s.blobTouched = false) (h2 : s.blobWrittenCount = 0)
    (h3 : s.blobWritten = zero) : DraftRel s ⟨b.view, none⟩ where
  opened := ho
  wf := hs ▸ hb
  contents := by rw [hs]
  untouched _ := ⟨h1, h2, fun p => by rw [h3, test_zero]⟩
  touched w hw := by simp at hw

/-- A staging update that keeps the blob slot keeps the bookkeeping. -/
theorem DraftRel.setStaging {s : Store} {d : Draft} (h : DraftRel s d) {b : Bank} (hb : b.Wf)
    {c : Contents} (hc : b.view = c) (h1 : b.blobIndex = s.staging.blobIndex)
    (h2 : b.blobLength = s.staging.blobLength) :
    DraftRel (s.setStaging b) ⟨c, d.written⟩ where
  opened := h.opened
  wf := by rw [staging_setStaging]; exact hb
  contents := by rw [staging_setStaging]; exact hc
  untouched hw := h.untouched hw
  touched w hw := by
    rw [staging_setStaging, h1, h2]
    exact h.touched w hw

theorem DraftRel.setRaw {s : Store} {d : Draft} (h : DraftRel s d) {k : UInt16} {r : UInt32}
    {i : ℕ} (hk : indexFromKey k = some i) (hc : checkIndex i r = .ok) :
    DraftRel (setRaw s k r).1 (d.apply (.setRaw k r)) := by
  have hi := (indexFromKey_eq_some hk).1
  rw [setRaw_accept h.opened hk hc]
  have := h.setStaging (h.wf.setScalar hi hc)
    (Bank.view_setScalar hi (checkIndex_ok_iff.mp hc).1 r) rfl rfl
  rw [h.contents] at this
  simpa [Draft.apply, hk] using this

theorem DraftRel.remove {s : Store} {d : Draft} (h : DraftRel s d) {k : UInt16} {i : ℕ}
    (hk : indexFromKey k = some i) :
    DraftRel (remove s k).1 (d.apply (.remove k)) ∧ (remove s k).2 = .ok := by
  by_cases hs : s.staging.blobIndex = some i
  · rw [remove_accept_blob h.opened hk hs]
    have hv := h.wf.view_slot hs
    rw [h.contents] at hv
    refine ⟨?_, rfl⟩
    simp only [Draft.apply, hk, hv, ← h.contents, ← h.wf.view_removeBlob hs]
    exact DraftRel.fresh h.opened (by simp [Store.staging, Store.setStaging])
      (h.wf.removeBlob hs) rfl rfl rfl
  · rw [remove_accept h.opened hk hs]
    have hrel := h.setStaging (h.wf.deactivate hs) (Bank.view_deactivate s.staging i) rfl rfl
    rw [h.contents] at hrel
    refine ⟨?_, rfl⟩
    simp only [Draft.apply, hk]
    rcases hv : d.contents i with _ | ⟨_ | data⟩
    · exact hrel
    · exact hrel
    · rw [← h.contents] at hv
      exact absurd (h.wf.slot_of_view hv).1 hs

/-! ### Blob chunks -/

/-- The slot is free for record `i`: no other blob record is active. -/
theorem DraftRel.slot_free_iff {s : Store} {d : Draft} (h : DraftRel s d) (i : ℕ) :
    (∀ j, j ≠ i → isBlob j = true → d.contents j = none) ↔
      (s.staging.blobIndex = none ∨ s.staging.blobIndex = some i) := by
  constructor
  · intro hother
    rcases hidx : s.staging.blobIndex with _ | j
    · exact .inl rfl
    · by_cases hji : j = i
      · exact .inr (by rw [hji])
      · have hv := h.wf.view_slot hidx
        rw [h.contents, hother j hji (h.wf.slot j hidx).2.1] at hv
        cases hv
  · intro hfree j hji hb
    rw [← h.contents, h.wf.view_eq]
    by_cases ht : test s.staging.activeMask j = true
    · have hidx := h.wf.blob j (h.wf.lt ht) ht hb
      rcases hfree with hfree | hfree <;> rw [hfree] at hidx
      · cases hidx
      · exact absurd (Option.some.inj hidx).symm hji
    · rw [if_neg ht]

/-- The slot of a touched blob, once other records are excluded. -/
theorem DraftRel.slot_of_touched {s : Store} {d : Draft} (h : DraftRel s d) {i : ℕ}
    (hfree : s.staging.blobIndex = none ∨ s.staging.blobIndex = some i)
    (ht : s.blobTouched = true) : s.staging.blobIndex = some i ∧
      d.contents i = some (.blob (bytes s.staging.blob 0 s.staging.blobLength.toNat)) := by
  have hw : d.written ≠ none := fun hw => by simp [h.written_eq_none.mp hw] at ht
  obtain ⟨w, hw⟩ := Option.ne_none_iff_exists'.mp hw
  have hidx := hfree.resolve_left (h.touched w hw).2.1
  exact ⟨hidx, by rw [← h.contents, h.wf.view_slot hidx]⟩

theorem DraftRel.blobArgsInvalid_iff {s : Store} {d : Draft} (h : DraftRel s d)
    {i : ℕ} (hfree : s.staging.blobIndex = none ∨ s.staging.blobIndex = some i)
    (t o n : UInt16) :
    ¬ blobArgsInvalid s i t o n ↔
      0 < t.toNat ∧ t ≤ blobCapacity i ∧ 0 < n.toNat ∧ o.toNat + n.toNat ≤ t.toNat ∧
        (d.written ≠ none → ∃ old, d.contents i = some (.blob old) ∧ old.length = t.toNat) := by
  have htouch : (d.written ≠ none → ∃ old, d.contents i = some (.blob old) ∧
      old.length = t.toNat) ↔ (s.blobTouched = true → t = s.staging.blobLength) := by
    rw [ne_eq, not_iff_not.mpr h.written_eq_none, Bool.not_eq_false]
    refine imp_congr_right fun ht => ?_
    rw [(h.slot_of_touched hfree ht).2, ← UInt16.toNat_inj]
    constructor
    · rintro ⟨old, hold, hlen⟩
      cases hold
      rw [← hlen, length_bytes]
    · intro hlen
      exact ⟨_, rfl, by rw [length_bytes, hlen]⟩
  rw [htouch]
  have hz : ∀ x : UInt16, x = 0 ↔ x.toNat = 0 := fun x => by rw [← UInt16.toNat_inj]; rfl
  have hoff : ¬ (o ≥ t) → (¬ (n > t - o) ↔ o.toNat + n.toNat ≤ t.toNat) := by
    intro hlt
    rw [ge_iff_le, UInt16.not_le, UInt16.lt_iff_toNat_lt] at hlt
    have hsub : (t - o).toNat = t.toNat - o.toNat :=
      UInt16.toNat_sub_of_le _ _ (UInt16.le_iff_toNat_le.mpr hlt.le)
    rw [gt_iff_lt, UInt16.not_lt, UInt16.le_iff_toNat_le, hsub]
    omega
  unfold blobArgsInvalid
  simp only [not_or, hz, gt_iff_lt, UInt16.not_lt, ne_eq, not_and, not_not]
  constructor
  · rintro ⟨h1, h2, h3, h4, h5, h6⟩
    exact ⟨by omega, h2, by omega, (hoff h4).mp (by simpa using h5), h6⟩
  · rintro ⟨h1, h2, h3, h4, h6⟩
    have hlt : ¬ (o ≥ t) := by
      rw [ge_iff_le, UInt16.le_iff_toNat_le]
      omega
    exact ⟨by omega, h2, by omega, hlt, by simpa using (hoff hlt).mpr h4, h6⟩

theorem DraftRel.admits_writeBlob {s : Store} {d : Draft} (h : DraftRel s d) {k t o n : UInt16}
    {data : Option Mem} :
    d.Admits (.writeBlob k t o data n) ↔ ∃ i mem, indexFromKey k = some i ∧ data = some mem ∧
      isBlob i = true ∧ (s.staging.blobIndex = none ∨ s.staging.blobIndex = some i) ∧
      ¬ blobArgsInvalid s i t o n := by
  refine exists_congr fun i => exists_congr fun mem => ?_
  constructor
  · rintro ⟨hk, hd, hb, hother, h1, h2, h3, h4, h5, -⟩
    have hfree := (h.slot_free_iff i).mp hother
    exact ⟨hk, hd, hb, hfree, (h.blobArgsInvalid_iff hfree t o n).mpr ⟨h1, h2, h3, h4, h5⟩⟩
  · rintro ⟨hk, hd, hb, hfree, ha⟩
    obtain ⟨h1, h2, h3, h4, h5⟩ := (h.blobArgsInvalid_iff hfree t o n).mp ha
    refine ⟨hk, hd, hb, (h.slot_free_iff i).mpr hfree, h1, h2, h3, h4, h5, fun b _ => ?_⟩
    exact byteOutOfRange_eq_false (indexFromKey_eq_some hk).1 hb b

/-- The bank a chunk lands in, and the blob bytes it starts from. -/
theorem DraftRel.blobBank_eq {s : Store} {d : Draft} (h : DraftRel s d) {i : ℕ} {t o n : UInt16}
    (hfree : s.staging.blobIndex = none ∨ s.staging.blobIndex = some i)
    (ha : ¬ blobArgsInvalid s i t o n) :
    blobBank s i t =
        { s.staging with blob := (blobBank s i t).blob, blobLength := t, blobIndex := some i } ∧
      bytes (blobBank s i t).blob 0 t.toNat = d.blobBase i t.toNat := by
  cases ht : s.blobTouched with
  | false =>
    simp only [blobBank, ht, Bool.false_eq_true, if_false, true_and]
    rw [bytes_const, Draft.blobBase, h.written_eq_none.mpr ht]
  | true =>
    obtain ⟨hidx, hv⟩ := h.slot_of_touched hfree ht
    have hlen : t = s.staging.blobLength := by
      by_contra hne
      exact ha (by simp [blobArgsInvalid, ht, hne])
    have hw : d.written ≠ none := fun hw => by simp [h.written_eq_none.mp hw] at ht
    obtain ⟨w, hw⟩ := Option.ne_none_iff_exists'.mp hw
    simp only [blobBank, ht, if_true, Draft.blobBase, hw, hv, hlen, and_true]
    rw [← hidx]

theorem DraftRel.writeBlob {s : Store} {d : Draft} (h : DraftRel s d) {k t o n : UInt16}
    {mem : Mem} {i : ℕ} (hk : indexFromKey k = some i) (hb : isBlob i = true)
    (hfree : s.staging.blobIndex = none ∨ s.staging.blobIndex = some i)
    (ha : ¬ blobArgsInvalid s i t o n) :
    DraftRel (acceptBlob s i t o mem n) (d.apply (.writeBlob k t o (some mem) n)) := by
  obtain ⟨hpos, hcap, -, hfit, -⟩ := (h.blobArgsInvalid_iff hfree t o n).mp ha
  have hi := (indexFromKey_eq_some hk).1
  obtain ⟨hbank, hbase⟩ := h.blobBank_eq hfree ha
  obtain ⟨hwr, hcnt⟩ := h.written
  obtain ⟨h1, h2, h3⟩ := foldl_writeBlobByte mem o
    (p := ⟨(blobBank s i t).blob, s.blobWritten, s.blobWrittenCount⟩) hwr hcnt n.toNat
  have hstage : (acceptBlob s i t o mem n).staging = { s.staging with
      blob := copy (blobBank s i t).blob o.toNat mem n.toNat
      blobLength := t
      blobIndex := some i
      activeMask := assign s.staging.activeMask i true } := by
    unfold acceptBlob
    simp only [h1, Store.staging, Store.setStaging, Function.update_self]
    rw [hbank]
    rfl
  have hview := h.wf.view_storeBlob hi hb hfree t (copy (blobBank s i t).blob o.toNat mem n.toNat)
  rw [bytes_copy_eq_splice _ _ hfit, hbase, h.contents] at hview
  simp only [Draft.apply, hk]
  constructor
  · exact h.opened
  · rw [hstage]; exact h.wf.storeBlob hi hb hfree hpos hcap _
  · rw [hstage]; exact hview
  · intro hw; simp at hw
  · intro w hw
    obtain rfl := Option.some.inj hw
    rw [hstage]
    refine ⟨rfl, by simp, h2, h3, fun p hp => ?_⟩
    rcases Finset.mem_union.mp hp with hp | hp
    · -- positions written before lie below the old length, which is `t`
      rcases hold : d.written with _ | w
      · simp [hold] at hp
      · rw [hold] at hp
        have hlt := (h.touched w hold).2.2.2.2 p hp
        have hlen : t = s.staging.blobLength := by
          by_contra hne
          exact ha (by simp [blobArgsInvalid, (h.touched w hold).1, hne])
        rwa [hlen]
    · have := (Finset.mem_Ico.mp hp).2
      show p < t.toNat
      omega

/-- Every byte of a touched blob was written exactly when the draft is
    complete. -/
theorem DraftRel.complete_iff {s : Store} {d : Draft} (h : DraftRel s d) :
    d.Complete ↔ ¬ (s.blobTouched = true ∧ s.blobWrittenCount ≠ s.staging.blobLength) := by
  rcases hw : d.written with _ | w
  · simp [Draft.Complete, hw, h.written_eq_none.mp hw]
  · obtain ⟨ht, hne, -, hcount, hsub⟩ := h.touched w hw
    obtain ⟨i, hidx⟩ := Option.ne_none_iff_exists'.mp hne
    have hv := h.wf.view_slot hidx
    have hsub' : w ⊆ Finset.range s.staging.blobLength.toNat :=
      fun p hp => Finset.mem_range.mpr (hsub p hp)
    have hcard := Finset.card_le_card hsub'
    rw [Finset.card_range] at hcard
    have hlen := s.staging.blobLength.toNat_lt
    have hall : d.Complete ↔ Finset.range s.staging.blobLength.toNat ⊆ w := by
      constructor
      · intro hc p hp
        rw [h.contents] at hv
        exact hc w hw i _ hv p (by simpa using hp)
      · intro hr w' hw' j data hj p hp
        obtain rfl := Option.some.inj (hw.symm.trans hw')
        rw [← h.contents] at hj
        rw [(h.wf.slot_of_view hj).2, length_bytes] at hp
        exact hr (Finset.mem_range.mpr hp)
    rw [hall, ht, hcount, ne_eq, ← UInt16.toNat_inj]
    simp only [true_and, not_not, UInt16.toNat_ofNat']
    rw [Nat.mod_eq_of_lt (by omega)]
    constructor
    · intro hr
      rw [Finset.Subset.antisymm hsub' hr, Finset.card_range]
    · intro hc
      rw [Finset.eq_of_subset_of_card_le hsub' (by rw [Finset.card_range, hc])]

/-! ## The API calls -/

/-- The calls of the store's API that change state. -/
abbrev Op := TxnStore.Op Write

/-- `J1939_Value_Store_Set_Raw`, `_Write_Blob` and `_Remove`. -/
def apiWrite (s : Store) : Write → Store × Status
  | .setRaw key raw => setRaw s key raw
  | .writeBlob key total offset data count => writeBlob s key total offset data count
  | .remove key => remove s key

/-- One API call and the status it returns. -/
def apiStep (s : Store) : Op → Store × Status
  | .beginEmpty => begin s .empty
  | .beginCopy => begin s .copyActive
  | .write w => apiWrite s w
  | .commit => commit s
  | .abort => (abort s, .ok)

/-- One write of an open transaction: accepted as the draft admits it, or
    rejected, poisoning the transaction. -/
theorem DraftRel.write {s : Store} {d : Draft} (h : DraftRel s d) (w : Write) :
    (d.Admits w ∧ (apiWrite s w).2 = .ok ∧ DraftRel (apiWrite s w).1 (d.apply w)) ∨
      ¬ d.Admits w ∧ ∃ st, st ≠ .ok ∧ apiWrite s w = reject s st := by
  cases w with
  | setRaw k r =>
    by_cases ha : d.Admits (.setRaw k r)
    · obtain ⟨i, hk, hc⟩ := ha
      exact .inl ⟨⟨i, hk, hc⟩, by rw [apiWrite, setRaw_accept h.opened hk hc], h.setRaw hk hc⟩
    · exact .inr ⟨ha, setRaw_reject h.opened fun i hk hc => ha ⟨i, hk, hc⟩⟩
  | writeBlob k t o data n =>
    by_cases ha : d.Admits (.writeBlob k t o data n)
    · obtain ⟨i, mem, hk, rfl, hb, hfree, hargs⟩ := h.admits_writeBlob.mp ha
      have heq : ValueStore.writeBlob s k t o (some mem) n = (acceptBlob s i t o mem n, .ok) :=
        writeBlob_accept h.opened hk hb hfree hargs
      refine .inl ⟨ha, by rw [apiWrite, heq], ?_⟩
      rw [apiWrite, heq]
      exact h.writeBlob hk hb hfree hargs
    · refine .inr ⟨ha, writeBlob_reject h.opened fun i mem hk hd hb hfree => ?_⟩
      by_contra hargs
      exact ha (h.admits_writeBlob.mpr ⟨i, mem, hk, hd, hb, hfree, hargs⟩)
  | remove k =>
    rcases hk : indexFromKey k with _ | i
    · refine .inr ⟨by rintro ⟨i, hi⟩; simp [hk] at hi, .unknownKey, by simp, ?_⟩
      exact remove_reject h.opened hk
    · exact .inl ⟨⟨i, hk⟩, (h.remove hk).2, (h.remove hk).1⟩

theorem write_of_not_opened {s : Store} (h : s.txnState ≠ .opened) (w : Write) :
    apiWrite s w = (s, txnReady s) ∧ txnReady s ≠ .ok := by
  have hr : txnReady s ≠ .ok := fun he => h (txnReady_eq_ok.mp he)
  refine ⟨?_, hr⟩
  cases w <;> exact if_pos hr

theorem apiWrite_sameActive (s : Store) (w : Write) : SameActive s (apiWrite s w).1 := by
  by_cases h : s.txnState = .opened
  · cases w with
    | setRaw k r =>
      by_cases hc : ∃ i, indexFromKey k = some i ∧ checkIndex i r = .ok
      · obtain ⟨i, hk, hc⟩ := hc
        rw [apiWrite, setRaw_accept h hk hc]
        exact ⟨active_setStaging s _, rfl⟩
      · obtain ⟨st, -, heq⟩ := setRaw_reject h fun i hk hi => hc ⟨i, hk, hi⟩
        rw [apiWrite, heq]
        exact reject_sameActive s st
    | writeBlob k t o data n =>
      by_cases hc : ∃ i mem, indexFromKey k = some i ∧ data = some mem ∧ isBlob i = true ∧
          (s.staging.blobIndex = none ∨ s.staging.blobIndex = some i) ∧
          ¬ blobArgsInvalid s i t o n
      · obtain ⟨i, mem, hk, rfl, hb, hfree, ha⟩ := hc
        rw [apiWrite, writeBlob_accept h hk hb hfree ha]
        exact ⟨active_setStaging s _, rfl⟩
      · obtain ⟨st, -, heq⟩ := writeBlob_reject (t := t) (o := o) (n := n) h
          fun i mem hk hd hb hfree => by
            by_contra ha
            exact hc ⟨i, mem, hk, hd, hb, hfree, ha⟩
        rw [apiWrite, heq]
        exact reject_sameActive s st
    | remove k =>
      rcases hk : indexFromKey k with _ | i
      · rw [apiWrite, remove_reject h hk]
        exact reject_sameActive s _
      · by_cases hs : s.staging.blobIndex = some i
        · rw [apiWrite, remove_accept_blob h hk hs]
          exact ⟨active_setStaging s _, rfl⟩
        · rw [apiWrite, remove_accept h hk hs]
          exact ⟨active_setStaging s _, rfl⟩
  · rw [(write_of_not_opened h w).1]
    exact .refl s

/-! ## The refinement -/

/-- The active bank holds the configuration `c`, with its count and its CRC. -/
structure Holds (s : Store) (c : Contents) : Prop where
  wf : s.active.Wf
  view : s.active.view = c
  count : s.active.activeCount = UInt16.ofNat c.count
  crc : s.active.configCrc = c.crc

theorem Holds.of_sameActive {s s' : Store} {c : Contents} (h : Holds s c)
    (hs : SameActive s s') : Holds s' c := by
  obtain ⟨h1, h2, h3, h4⟩ := h
  rw [← hs.1] at h1 h2 h3 h4
  exact ⟨h1, h2, h3, h4⟩

/-- The transaction of the store and the one of the specification. -/
def TxnRel (s : Store) : Option (TxnStore.Txn Contents Write) → Prop
  | none => s.txnState = .idle
  | some x => (x.rejected → s.txnState = .rejected) ∧
      (¬ x.rejected → DraftRel s (x.draft kind))

/-- The abstraction relation. -/
structure StoreRel (s : Store) (t : TxnStore.State Contents Write) : Prop where
  wf : s.active.Wf
  view : s.active.view = t.committed
  count : s.active.activeCount = UInt16.ofNat t.committed.count
  crc : s.active.configCrc = t.committed.crc
  generation : s.generation = generationOf t.commits
  txn : TxnRel s t.txn

theorem storeRel_init : StoreRel init (TxnStore.init kind) where
  wf := emptyBank_wf.congr rfl rfl rfl rfl
  view := by
    funext i
    simp [init, Store.active, Bank.view, emptyBank, TxnStore.init, kind, Contents.empty]
  count := by simp [init, Store.active, emptyBank, TxnStore.init, kind, Contents.empty,
    Contents.count]
  crc := by
    show configCrc emptyBank = _
    rw [configCrc_eq]
    congr 1
    funext i
    simp [Bank.view, emptyBank, TxnStore.init, kind, Contents.empty]
  generation := rfl
  txn := rfl

theorem StoreRel.holds {s : Store} {t : TxnStore.State Contents Write} (h : StoreRel s t) :
    Holds s t.committed :=
  ⟨h.wf, h.view, h.count, h.crc⟩

theorem Holds.storeRel {s : Store} {t : TxnStore.State Contents Write} (h : Holds s t.committed)
    (hgen : s.generation = generationOf t.commits) (htxn : TxnRel s t.txn) : StoreRel s t :=
  ⟨h.wf, h.view, h.count, h.crc, hgen, htxn⟩

/-- A call that changes no reader's view keeps the relation as soon as it
    relates the transactions. -/
theorem StoreRel.of_sameActive {s s' : Store} {t t' : TxnStore.State Contents Write}
    (h : StoreRel s t) (hs : SameActive s s') (hc : t'.committed = t.committed)
    (hn : t'.commits = t.commits) (htxn : TxnRel s' t'.txn) : StoreRel s' t' := by
  have hholds := h.holds.of_sameActive hs
  rw [← hc] at hholds
  exact hholds.storeRel (by rw [hs.2, hn]; exact h.generation) htxn

theorem StoreRel.txnState_idle {s : Store} {t : TxnStore.State Contents Write}
    (h : StoreRel s t) : s.txnState = .idle ↔ t.txn = none := by
  have ht := h.txn
  rcases hx : t.txn with _ | x
  · rw [hx] at ht
    exact ⟨fun _ => rfl, fun _ => ht⟩
  · rw [hx] at ht
    by_cases hr : x.rejected
    · simp [ht.1 hr]
    · simp [(ht.2 hr).opened]

/-- The contents a transaction starts from. -/
def Begin.base (start : Begin) (c : Contents) : Contents :=
  match start with
  | .empty => Contents.empty
  | .copyActive => c

/-- A transaction that is begun on an idle store is an untouched draft. -/
theorem begin_draft {s : Store} (hi : s.txnState = .idle) (hwf : s.active.Wf) (start : Begin) :
    (begin s start).2 = .ok ∧
      DraftRel (begin s start).1 ⟨start.base s.active.view, none⟩ := by
  unfold begin
  rw [if_neg (by simp [hi])]
  refine ⟨rfl, ?_⟩
  cases start with
  | empty =>
    have hwf : Bank.Wf (clearBlob { s.staging with
        rawValue := fun _ => 0, activeMask := zero }) := by
      constructor <;> simp [clearBlob]
    have hv : Bank.view (clearBlob { s.staging with
        rawValue := fun _ => 0, activeMask := zero }) = Contents.empty := by
      funext i
      simp [Bank.view, clearBlob, Contents.empty]
    show DraftRel _ ⟨Contents.empty, none⟩
    rw [← hv]
    exact DraftRel.fresh rfl (by simp [Store.staging, Store.setStaging]) hwf rfl rfl rfl
  | copyActive =>
    have hv : Bank.view { s.staging with
        rawValue := s.active.rawValue
        activeMask := s.active.activeMask
        blob := s.active.blob
        blobLength := s.active.blobLength
        blobIndex := s.active.blobIndex } = s.active.view := Bank.view_congr rfl rfl rfl rfl
    show DraftRel _ ⟨s.active.view, none⟩
    rw [← hv]
    exact DraftRel.fresh rfl (by simp [Store.staging, Store.setStaging])
      (hwf.congr rfl rfl rfl rfl) rfl rfl rfl

theorem begin_not_idle {s : Store} (h : s.txnState ≠ .idle) (start : Begin) :
    begin s start = (s, .transactionOpen) :=
  if_pos h

theorem toNat_generationOf_succ (n : ℕ) : (generationOf (n + 1)).toNat = n % 65535 + 1 := by
  simp only [generationOf, UInt16.toNat_ofNat']
  exact Nat.mod_eq_of_lt (by omega)

theorem generationOf_succ (n : ℕ) :
    (if generationOf n + 1 = 0 then 1 else generationOf n + 1) = generationOf (n + 1) := by
  cases n with
  | zero => rfl
  | succ n =>
    have hadd : (generationOf (n + 1) + 1).toNat = (n % 65535 + 2) % 2 ^ 16 := by
      rw [UInt16.toNat_add, toNat_generationOf_succ]
      rfl
    have hz : generationOf (n + 1) + 1 = 0 ↔ (n % 65535 + 2) % 2 ^ 16 = 0 := by
      rw [← UInt16.toNat_inj, hadd]
      rfl
    rw [← UInt16.toNat_inj, toNat_generationOf_succ]
    split_ifs with h
    · have := hz.mp h
      rw [show (n + 1) % 65535 = 0 by omega]
      rfl
    · have hne : ¬ (n % 65535 + 2) % 2 ^ 16 = 0 := fun h' => h (hz.mpr h')
      rw [hadd]
      omega

theorem generationOf_eq_zero (n : ℕ) : generationOf n = 0 ↔ n = 0 := by
  cases n with
  | zero => simp [generationOf]
  | succ n =>
    have := toNat_generationOf_succ n
    rw [← UInt16.toNat_inj, this]
    simp

theorem commit_eq_of_ok {s : Store} {n : UInt16} (hwf : s.staging.Wf)
    (hc : commitCheck s = (.ok, n)) :
    (commit s).2 = .ok ∧ (commit s).1.txnState = .idle ∧
      (commit s).1.active =
        { s.staging with activeCount := n, configCrc := s.staging.view.crc } ∧
      (commit s).1.generation = if s.generation + 1 = 0 then 1 else s.generation + 1 := by
  unfold commit
  simp only [hc, if_true, dropOrphanBlob_of_wf hwf, configCrc_eq]
  refine ⟨trivial, trivial, ?_, trivial⟩
  simp only [Store.active, Store.setStaging, Function.update_self]
  rw [show Bank.view { s.staging with activeCount := n } = s.staging.view from
    Bank.view_congr rfl rfl rfl rfl]

/-- The commit of a complete draft publishes it. -/
theorem DraftRel.commit_complete {s : Store} {d : Draft} (h : DraftRel s d) (hc : d.Complete) :
    (commit s).2 = .ok ∧ (commit s).1.txnState = .idle ∧ Holds (commit s).1 d.contents ∧
      (commit s).1.generation = if s.generation + 1 = 0 then 1 else s.generation + 1 := by
  have hcheck := commitCheck_of_wf h.opened h.wf
  rw [if_neg (h.complete_iff.mp hc)] at hcheck
  obtain ⟨h1, h2, h3, h4⟩ := commit_eq_of_ok h.wf hcheck
  refine ⟨h1, h2, ⟨?_, ?_, ?_, ?_⟩, h4⟩
  · rw [h3]; exact h.wf.congr rfl rfl rfl rfl
  · rw [h3]; exact h.contents
  · rw [h3, ← h.contents, Bank.count_view]
  · rw [h3, h.contents]

/-- The commit of a draft with missing blob bytes. -/
theorem DraftRel.commit_incomplete {s : Store} {d : Draft} (h : DraftRel s d)
    (hc : ¬ d.Complete) : (commit s).2 = .blobIncomplete := by
  have hcheck := commitCheck_of_wf h.opened h.wf
  rw [if_pos (not_not.mp fun hn => hc (h.complete_iff.mpr hn))] at hcheck
  rw [commit_status, hcheck]

/-- A commit that fails on both sides keeps the relation. -/
theorem StoreRel.commit_failed {s : Store} {t : TxnStore.State Contents Write}
    (h : StoreRel s t) (hs : (commit s).2 ≠ .ok)
    (ht : ∀ x, t.txn = some x → x.rejected ∨ ¬ (x.draft kind).Complete) :
    StoreRel (commit s).1 (TxnStore.step kind t .commit).1 ∧
      ((commit s).2 = .ok ↔ (TxnStore.step kind t .commit).2) := by
  rw [TxnStore.step_commit_failed kind ht]
  exact ⟨h.of_sameActive (commit_sameActive hs) rfl rfl (commit_idle s),
    iff_of_false hs (by simp)⟩

theorem StoreRel.commit {s : Store} {t : TxnStore.State Contents Write} (h : StoreRel s t) :
    StoreRel (commit s).1 (TxnStore.step kind t .commit).1 ∧
      ((commit s).2 = .ok ↔ (TxnStore.step kind t .commit).2) := by
  have hclosed : s.txnState ≠ .opened → (ValueStore.commit s).2 ≠ .ok := fun ho => by
    rw [commit_status, (commitCheck_not_ready ho).1]
    exact (commitCheck_not_ready ho).2
  have htxn := h.txn
  rcases hx : t.txn with _ | x
  · exact h.commit_failed (hclosed (by simp [h.txnState_idle.mpr hx])) (by simp [hx])
  rw [hx] at htxn
  by_cases hr : x.rejected
  · refine h.commit_failed (hclosed (by simp [htxn.1 hr])) fun y hy => .inl ?_
    rwa [← Option.some.inj (hx.symm.trans hy)]
  have hd := htxn.2 hr
  by_cases hc : (x.draft kind).Complete
  · obtain ⟨h1, h2, h3, h4⟩ := hd.commit_complete hc
    rw [TxnStore.step_commit_ok kind hx hr hc]
    refine ⟨h3.storeRel ?_ h2, iff_of_true h1 trivial⟩
    rw [h4, h.generation, generationOf_succ]
  · refine h.commit_failed (by rw [hd.commit_incomplete hc]; simp) fun y hy => .inr ?_
    rwa [← Option.some.inj (hx.symm.trans hy)]

/-- **Step lemma.** One API call keeps the relation, and reports OK exactly
    when the specification succeeds. -/
theorem storeRel_step (s : Store) (t : TxnStore.State Contents Write) (op : Op)
    (h : StoreRel s t) :
    StoreRel (apiStep s op).1 (TxnStore.step kind t op).1 ∧
      ((apiStep s op).2 = .ok ↔ (TxnStore.step kind t op).2) := by
  have htxn := h.txn
  cases op with
  | beginEmpty =>
    rcases hx : t.txn with _ | x
    · obtain ⟨hok, hrel⟩ := begin_draft (h.txnState_idle.mpr hx) h.wf .empty
      simp only [TxnStore.step, hx]
      exact ⟨h.of_sameActive (begin_sameActive s .empty) rfl rfl
        ⟨False.elim, fun _ => hrel⟩, iff_of_true hok trivial⟩
    · have hni : s.txnState ≠ .idle := by simp [h.txnState_idle, hx]
      simp only [TxnStore.step, hx, apiStep, begin_not_idle hni]
      exact ⟨h, by simp⟩
  | beginCopy =>
    rcases hx : t.txn with _ | x
    · obtain ⟨hok, hrel⟩ := begin_draft (h.txnState_idle.mpr hx) h.wf .copyActive
      rw [h.view] at hrel
      simp only [TxnStore.step, hx]
      exact ⟨h.of_sameActive (begin_sameActive s .copyActive) rfl rfl
        ⟨False.elim, fun _ => hrel⟩, iff_of_true hok trivial⟩
    · have hni : s.txnState ≠ .idle := by simp [h.txnState_idle, hx]
      simp only [TxnStore.step, hx, apiStep, begin_not_idle hni]
      exact ⟨h, by simp⟩
  | write w =>
    rcases hx : t.txn with _ | x
    · obtain ⟨h1, h2⟩ := write_of_not_opened (s := s) (by simp [h.txnState_idle.mpr hx]) w
      simp only [TxnStore.step, hx, apiStep, h1]
      exact ⟨h, by simp [h2]⟩
    · rw [hx] at htxn
      by_cases hr : x.rejected
      · obtain ⟨h1, h2⟩ := write_of_not_opened (s := s) (by simp [htxn.1 hr]) w
        simp only [TxnStore.step, hx, apiStep, h1, hr, if_true]
        exact ⟨h, by simp [h2]⟩
      · have hd := htxn.2 hr
        have hsame := apiWrite_sameActive s w
        rcases hd.write w with ⟨ha, hok, hrel⟩ | ⟨ha, st, hst, heq⟩
        · rw [TxnStore.step_write_accepted kind hx hr ha]
          refine ⟨h.of_sameActive hsame rfl rfl ⟨fun h' => absurd h' hr, fun _ => ?_⟩,
            iff_of_true hok trivial⟩
          rw [TxnStore.Txn.draft_append]
          exact hrel
        · rw [TxnStore.step_write_rejected kind hx hr ha]
          simp only [apiStep]
          refine ⟨h.of_sameActive hsame rfl rfl ⟨fun _ => ?_, fun h' => absurd trivial h'⟩,
            iff_of_false ?_ (by simp)⟩
          · rw [heq, reject_of_opened hd.opened]
          · rw [heq]
            exact hst
  | commit => exact h.commit
  | abort =>
    refine ⟨h.of_sameActive (abort_sameActive s) rfl rfl rfl, by simp [apiStep, TxnStore.step]⟩

/-! ## What readers see -/

/-- The readers of the store show the configuration `c`. -/
def Shows (s : Store) (c : Contents) : Prop :=
  (∀ i, isActive s i = (c i).isSome) ∧
    (∀ i, getRaw s i = match c i with | some (.scalar raw) => some raw | _ => none) ∧
    (∀ i, getBlob s i = match c i with | some (.blob data) => some data | _ => none) ∧
    getActiveCount s = UInt16.ofNat c.count ∧ getConfigCrc s = c.crc

theorem Holds.shows {s : Store} {c : Contents} (h : Holds s c) : Shows s c := by
  have hactive : ∀ i, isActive s i = test s.active.activeMask i := by
    intro i
    cases ht : test s.active.activeMask i with
    | false => simp [isActive, ht]
    | true => simp [isActive, ht, h.wf.lt ht]
  refine ⟨fun i => ?_, fun i => ?_, fun i => ?_, h.count, h.crc⟩
  · rw [hactive, ← h.view, h.wf.view_eq]
    split_ifs with ht <;> simp [ht]
  · rw [getRaw, hactive, ← h.view, h.wf.view_eq]
    cases ht : test s.active.activeMask i with
    | false => simp
    | true => cases hb : isBlob i <;> simp
  · rw [getBlob, hactive, ← h.view, h.wf.view_eq]
    cases ht : test s.active.activeMask i with
    | false => simp
    | true =>
      cases hb : isBlob i with
      | true => simp [h.wf.blob i (h.wf.lt ht) ht hb]
      | false =>
        have : s.active.blobIndex ≠ some i := fun hs => by
          simp [(h.wf.slot i hs).2.1] at hb
        simp [this]

/-- The specification run over a sequence of API calls. -/
noncomputable def specAfter (ops : List Op) : TxnStore.State Contents Write :=
  (Mealy.run (TxnStore.step kind) (TxnStore.init kind) ops).1

/-- The store after a sequence of API calls. -/
def storeAfter (ops : List Op) : Store := (Mealy.run apiStep init ops).1

theorem storeRel_after (ops : List Op) :
    StoreRel (storeAfter ops) (specAfter ops) ∧
      List.Forall₂ (fun st ok => st = Status.ok ↔ ok) (Mealy.run apiStep init ops).2
        (Mealy.run (TxnStore.step kind) (TxnStore.init kind) ops).2 :=
  Mealy.run_simulation (fun st ok => st = Status.ok ↔ ok) storeRel_step storeRel_init ops

theorem based_after (ops : List Op) : TxnStore.Based kind (specAfter ops) :=
  Mealy.run_invariant (fun s op => TxnStore.based_step kind s op) (TxnStore.based_init kind) ops

/-- **The store is an atomic map.** After any calls and for any next one:
    every status agrees with the specification; readers see the committed map;
    a commit that returns OK makes the fold of the accepted writes visible, over
    the empty or the copied map, and nothing else changes what readers see; a
    commit of an open transaction returns OK exactly when no write in it was
    rejected and every byte of a touched blob was written; the generation is
    zero exactly before the first commit. -/
theorem atomic_map (ops : List Op) (op : Op) :
    List.Forall₂ (fun st ok => st = Status.ok ↔ ok) (Mealy.run apiStep init ops).2
        (Mealy.run (TxnStore.step kind) (TxnStore.init kind) ops).2 ∧
      Shows (storeAfter ops) (specAfter ops).committed ∧
      (op = .commit ∧ (apiStep (storeAfter ops) op).2 = .ok →
        ∃ x, (specAfter ops).txn = some x ∧
          (x.base = Contents.empty ∨ x.base = (specAfter ops).committed) ∧
          Shows (apiStep (storeAfter ops) op).1
            (x.accepted.foldl Draft.apply ⟨x.base, none⟩).contents) ∧
      (¬ (op = .commit ∧ (apiStep (storeAfter ops) op).2 = .ok) →
        Shows (apiStep (storeAfter ops) op).1 (specAfter ops).committed ∧
        getGeneration (apiStep (storeAfter ops) op).1 = getGeneration (storeAfter ops)) ∧
      (∀ x, (specAfter ops).txn = some x →
        ((commit (storeAfter ops)).2 = .ok ↔ ¬ x.rejected ∧
          (x.accepted.foldl Draft.apply ⟨x.base, none⟩).Complete)) ∧
      (getGeneration (storeAfter ops) = 0 ↔ (specAfter ops).commits = 0) := by
  obtain ⟨hrel, hstatus⟩ := storeRel_after ops
  obtain ⟨hnext, hok⟩ := storeRel_step _ _ op hrel
  refine ⟨hstatus, hrel.holds.shows, ?_, ?_, ?_, ?_⟩
  · rintro ⟨rfl, hst⟩
    rcases hx : (specAfter ops).txn with _ | x
    · have := TxnStore.step_commit_failed kind (s := specAfter ops) (by simp [hx])
      rw [this] at hok
      exact (hok.mp hst).elim
    · obtain ⟨hr, hc⟩ := (TxnStore.commit_outcome kind hx).mp (hok.mp hst)
      rw [TxnStore.step_commit_ok kind hx hr hc] at hnext
      exact ⟨x, rfl, based_after ops x hx, hnext.holds.shows⟩
  · intro hn
    have hn' : ¬ (op = .commit ∧ (TxnStore.step kind (specAfter ops) op).2) := by rwa [← hok]
    obtain ⟨h1, h2⟩ := TxnStore.committed_of_failed kind _ op hn'
    refine ⟨h1 ▸ hnext.holds.shows, ?_⟩
    rw [getGeneration, getGeneration, hnext.generation, hrel.generation, h2]
  · intro x hx
    rw [hrel.commit.2, TxnStore.commit_outcome kind hx]
    rfl
  · rw [getGeneration, hrel.generation, generationOf_eq_zero]

end J1939Gen.ValueStore
