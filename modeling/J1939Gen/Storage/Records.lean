import J1939Gen.ValueStore.Refine

/-!
# Configurations as record lists

A stored image lists the active records in ascending catalog index. The module
relates such lists to configurations: `Contents.records` and `contentsOf` are
inverse to each other on ascending lists, and the bytes of the list are the
stream the configuration CRC covers.

* `contentsOf_records`, `records_contentsOf`: the two are inverse.
* `encode_records`: the encoded list is the configuration's stream.
* `WfRecords.length_encode_le`: every list of valid records fits one image.
-/

namespace J1939Gen

open Bitmask ByteMem ValueStore

/-- One stored record: a catalog index and its value. -/
abbrev Record := ℕ × Entry

/-- A record the catalog allows. -/
def Record.Valid : Record → Prop
  | (i, .scalar raw) => i < signalCount ∧ checkIndex i raw = .ok
  | (i, .blob data) =>
    i < signalCount ∧ isBlob i = true ∧ 0 < data.length ∧ data.length ≤ (blobCapacity i).toNat

/-- The bytes of one record. -/
def Record.bytes (r : Record) : List UInt8 := entryBytes r.1 r.2

/-- The bytes of a list of records. -/
def encode (l : List Record) : List UInt8 := l.flatMap Record.bytes

/-- Is the record a blob? -/
def Record.isBlob (r : Record) : Bool :=
  match r.2 with
  | .scalar _ => false
  | .blob _ => true

/-- Valid records in ascending catalog index. -/
structure WfRecords (l : List Record) : Prop where
  valid : ∀ r ∈ l, r.Valid
  ascending : l.Pairwise fun r r' => r.1 < r'.1

/-- The records of a configuration. -/
def ValueStore.Contents.records (c : Contents) : List Record :=
  (List.range signalCount).filterMap fun i => (c i).map fun e => (i, e)

/-- The configuration a list of records stores. -/
def contentsOf (l : List Record) : Contents := fun i => (l.find? fun r => r.1 == i).map Prod.snd

theorem Record.Valid.lt {r : Record} (h : r.Valid) : r.1 < signalCount := by
  obtain ⟨i, e | e⟩ := r <;> exact h.1

theorem Record.Valid.isBlob_eq {r : Record} (h : r.Valid) : J1939Gen.isBlob r.1 = r.isBlob := by
  obtain ⟨i, e | e⟩ := r
  · exact (checkIndex_ok_iff.mp h.2).1
  · exact h.2.1

theorem mem_records {c : Contents} {r : Record} :
    r ∈ c.records ↔ r.1 < signalCount ∧ c r.1 = some r.2 := by
  obtain ⟨i, e⟩ := r
  simp [Contents.records]

theorem records_ascending (c : Contents) : c.records.Pairwise fun r r' => r.1 < r'.1 := by
  unfold Contents.records
  rw [List.pairwise_filterMap]
  refine List.pairwise_lt_range.imp fun {i j} hij r hr r' hr' => ?_
  obtain ⟨e, -, rfl⟩ := Option.map_eq_some_iff.mp hr
  obtain ⟨e', -, rfl⟩ := Option.map_eq_some_iff.mp hr'
  exact hij

/-- A list with ascending indices is found by its indices. -/
theorem contentsOf_eq_some {l : List Record} (h : l.Pairwise fun r r' => r.1 < r'.1) {i : ℕ}
    {e : Entry} : contentsOf l i = some e ↔ (i, e) ∈ l := by
  induction l with
  | nil => simp [contentsOf]
  | cons r l ih =>
    obtain ⟨hr, hl⟩ := List.pairwise_cons.mp h
    by_cases hi : r.1 = i
    · have hnot : ∀ e, (i, e) ∉ l := fun e he => by have := hr _ he; simp only at this; omega
      subst hi
      simp only [contentsOf, List.find?_cons_of_pos, beq_self_eq_true, Option.map_some,
        Option.some.injEq, List.mem_cons, hnot e, or_false]
      exact ⟨fun h => by rw [← h], fun h => by rw [← h]⟩
    · rw [contentsOf, List.find?_cons_of_neg (by simpa using hi), List.mem_cons]
      refine (ih hl).trans ⟨.inr, fun h => h.resolve_left fun h => hi (by rw [← h])⟩

theorem records_contentsOf {l : List Record} (h : WfRecords l) : (contentsOf l).records = l := by
  have : Std.Irrefl fun r r' : Record => r.1 < r'.1 := ⟨fun r => lt_irrefl r.1⟩
  have : Std.Antisymm fun r r' : Record => r.1 < r'.1 :=
    ⟨fun r r' h1 h2 => absurd h1 (lt_asymm h2)⟩
  refine (records_ascending _).eq_of_mem_iff h.ascending fun r => ?_
  rw [mem_records, contentsOf_eq_some h.ascending]
  exact ⟨fun hr => hr.2, fun hr => ⟨(h.valid r hr).lt, hr⟩⟩

theorem contentsOf_records {c : Contents} (h : ∀ i, c i ≠ none → i < signalCount) :
    contentsOf c.records = c := by
  funext i
  refine Option.ext fun e => ?_
  rw [contentsOf_eq_some (records_ascending c), mem_records]
  exact ⟨And.right, fun he => ⟨h i (by rw [he]; simp), he⟩⟩

theorem encode_records (c : Contents) : encode c.records = c.stream := by
  unfold encode Contents.records Contents.stream
  induction List.range signalCount with
  | nil => rfl
  | cons i l ih =>
    rw [List.filterMap_cons, List.flatMap_cons]
    cases c i with
    | none => simpa using ih
    | some e => simp only [Option.map_some, List.flatMap_cons, ih]; rfl

@[simp] theorem encode_nil : encode [] = [] := rfl

@[simp] theorem encode_cons (r : Record) (l : List Record) :
    encode (r :: l) = r.bytes ++ encode l := rfl

theorem encode_append (l l' : List Record) : encode (l ++ l') = encode l ++ encode l' :=
  List.flatMap_append

/-! ## Sizes -/

theorem Record.length_bytes_scalar (i : ℕ) (raw : UInt32) :
    (Record.bytes (i, .scalar raw)).length = 6 := rfl

theorem Record.length_bytes_blob (i : ℕ) (data : List UInt8) :
    (Record.bytes (i, .blob data)).length = 4 + data.length := by
  simp only [Record.bytes, entryBytes, le16, List.length_append, List.length_cons, List.length_nil]

/-- The largest record of an index. -/
def recordBound (i : ℕ) : ℕ := if isBlob i then 204 else 6

theorem Record.Valid.length_bytes_le {r : Record} (h : r.Valid) :
    r.bytes.length ≤ recordBound r.1 := by
  have hb := h.isBlob_eq
  have hcap := blobCapacity_le r.1
  obtain ⟨i, raw | data⟩ := r
  · simp [recordBound, hb, Record.isBlob, Record.length_bytes_scalar]
  · rw [Record.length_bytes_blob, recordBound, hb]
    have := h.2.2.2
    simp only [Record.isBlob, if_true, maxPayloadBytes] at hcap ⊢
    omega

theorem recordBound_le (i : ℕ) : recordBound i ≤ 204 := by
  unfold recordBound; split_ifs <;> omega

theorem WfRecords.length_le {l : List Record} (h : WfRecords l) : l.length ≤ signalCount := by
  rw [← records_contentsOf h]
  exact (List.length_filterMap_le _ _).trans_eq List.length_range

/-- All records together, whatever the configuration. -/
theorem WfRecords.length_encode_le {l : List Record} (h : WfRecords l) :
    (encode l).length ≤ 1272 := by
  have hsum : ∀ idx : List ℕ, (∀ i ∈ idx, ∀ e, contentsOf l i = some e → Record.Valid (i, e)) →
      (encode (idx.filterMap fun i => (contentsOf l i).map fun e => (i, e))).length ≤
        (idx.map recordBound).sum := by
    intro idx hidx
    induction idx with
    | nil => simp
    | cons i idx ih =>
      have ih := ih fun j hj => hidx j (by simp [hj])
      rw [List.filterMap_cons, List.map_cons, List.sum_cons]
      cases hc : contentsOf l i with
      | none => simpa using ih.trans (Nat.le_add_left _ _)
      | some e =>
        have : (Record.bytes (i, e)).length ≤ recordBound i :=
          (hidx i (by simp) e hc).length_bytes_le
        simp only [Option.map_some, encode_cons, List.length_append]
        omega
  have hvalid : ∀ i e, contentsOf l i = some e → Record.Valid (i, e) :=
    fun i e he => h.valid _ ((contentsOf_eq_some h.ascending).mp he)
  have hbound : ((List.range signalCount).map recordBound).sum = 1272 := by decide +kernel
  calc (encode l).length = (encode (contentsOf l).records).length := by rw [records_contentsOf h]
    _ ≤ ((List.range signalCount).map recordBound).sum := hsum _ fun i _ => hvalid i
    _ = 1272 := hbound

/-! ## Counts -/

/-- The number of scalar records. -/
def scalarsOf (l : List Record) : ℕ := l.countP fun r => !r.isBlob

/-- The number of blob records. -/
def blobsOf (l : List Record) : ℕ := l.countP Record.isBlob

theorem scalarsOf_add_blobsOf (l : List Record) : scalarsOf l + blobsOf l = l.length := by
  rw [scalarsOf, blobsOf, Nat.add_comm, List.length_eq_countP_add_countP Record.isBlob]
  simp

/-- The catalog has one blob record, so a list has at most one. -/
theorem WfRecords.blobsOf_le {l : List Record} (h : WfRecords l) : blobsOf l ≤ 1 := by
  unfold blobsOf
  rw [List.countP_eq_length_filter]
  have hasc := h.ascending.filter Record.isBlob
  have hidx : ∀ r ∈ l.filter Record.isBlob, r.1 = 132 := by
    intro r hr
    obtain ⟨hmem, hb⟩ := List.mem_filter.mp hr
    have hv := h.valid r hmem
    exact (isBlob_iff hv.lt).mp (hv.isBlob_eq.trans hb)
  match hl : l.filter Record.isBlob, hasc, hidx with
  | [], _, _ => simp
  | [_], _, _ => simp
  | r :: r' :: _, hasc, hidx =>
    have := (List.pairwise_cons.mp hasc).1 r' (by simp)
    rw [hidx r (by simp), hidx r' (by simp)] at this
    omega

/-! ## The records of a bank -/

theorem ValueStore.Bank.Wf.wfRecords {b : Bank} (h : b.Wf) : WfRecords b.view.records where
  valid := by
    rintro ⟨i, e⟩ hr
    obtain ⟨hi, hv⟩ := mem_records.mp hr
    simp only [h.view_eq] at hv
    by_cases ht : test b.activeMask i = true
    · rw [if_pos ht] at hv
      cases hb : isBlob i with
      | true =>
        obtain ⟨-, -, -, hpos, hcap⟩ := h.slot i (h.blob i hi ht hb)
        rw [hb, if_pos rfl, Option.some.injEq] at hv
        subst hv
        rw [UInt16.le_iff_toNat_le] at hcap
        exact ⟨hi, hb, by simpa using hpos, by simpa using hcap⟩
      | false =>
        rw [hb, if_neg (by simp), Option.some.injEq] at hv
        subst hv
        exact ⟨hi, h.scalar i hi ht hb⟩
    · simp [ht] at hv
  ascending := records_ascending _

end J1939Gen
