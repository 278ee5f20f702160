import J1939Gen.Lib.PrefixCode
import J1939Gen.Storage.Parse
import J1939Gen.Storage.Restore

/-!
# What the configuration CRC identifies

The value store computes the configuration CRC over a bank, the image parser over
packed records. Both loops feed the CRC the same bytes, and these bytes determine
the active records and their values.

* `configCrc_configStream`: the CRC of a bank is the CRC of its stream.
* `Contents.stream_inj`: the stream determines the configuration.
* `parsedCrc_eq`: what the parser computes over an image it accepts.
-/

namespace J1939Gen

open Bitmask ByteMem ValueStore

/-! ## The bytes of the loop -/

namespace ValueStore

/-- The bytes `prv_config_crc` feeds to the CRC for one record. -/
def configStreamStep (b : Bank) (fed : List UInt8) (i : ℕ) : List UInt8 :=
  if test b.activeMask i = false then fed
  else
    let fed := fed ++ le16 (signalAt i).signalKey
    if isBlob i then
      let fed := fed ++ le16 b.blobLength
      fed ++ bytes b.blob 0 b.blobLength.toNat
    else fed ++ le32 (b.rawValue i)

/-- The bytes `prv_config_crc` feeds to the CRC (`j1939_value_store.c:111-130`). -/
def configStream (b : Bank) : List UInt8 :=
  (List.range signalCount).foldl (configStreamStep b) (configMagic ++ le32 catalogCrc32)

theorem configCrcStep_configStreamStep (b : Bank) (crc : UInt32) (fed : List UInt8) (i : ℕ) :
    configCrcStep b (Crc32.update crc fed) i = Crc32.update crc (configStreamStep b fed i) := by
  unfold configCrcStep configStreamStep
  dsimp only
  by_cases ht : test b.activeMask i = false
  · rw [if_pos ht, if_pos ht]
  rw [if_neg ht, if_neg ht]
  split_ifs with hb
  · rw [Crc32.updateU16Le_eq, Crc32.updateU16Le_eq, Crc32.update_append, Crc32.update_append,
      Crc32.update_append]
  · rw [Crc32.updateU16Le_eq, Crc32.updateU32Le_eq, Crc32.update_append, Crc32.update_append]

theorem foldl_configCrcStep_stream (b : Bank) (crc : UInt32) (l : List ℕ) (fed : List UInt8) :
    l.foldl (configCrcStep b) (Crc32.update crc fed) =
      Crc32.update crc (l.foldl (configStreamStep b) fed) := by
  induction l generalizing fed with
  | nil => rfl
  | cons i l ih =>
    rw [List.foldl_cons, List.foldl_cons, configCrcStep_configStreamStep]
    exact ih _

/-- The CRC of a bank is the CRC of the bytes its loop feeds. -/
theorem configCrc_configStream (b : Bank) :
    configCrc b = Crc32.final (Crc32.update Crc32.init (configStream b)) := by
  unfold configCrc configStream
  dsimp only
  rw [Crc32.updateU32Le_eq, ← Crc32.update_append, foldl_configCrcStep_stream]

theorem configStreamStep_eq (b : Bank) (fed : List UInt8) {i : ℕ} (hi : i < signalCount) :
    configStreamStep b fed i = fed ++ (b.view i).elim [] (entryBytes i) := by
  unfold configStreamStep Bank.view
  cases ht : test b.activeMask i with
  | false => simp
  | true =>
    simp only [Bool.true_eq_false, if_false, hi, true_and, if_true, Option.elim_some]
    split_ifs with hb
    · simp [entryBytes]
    · simp [entryBytes]

/-- The loop over a bank writes the stream of what the bank stores. -/
theorem configStream_eq (b : Bank) :
    configStream b = configMagic ++ le32 catalogCrc32 ++ b.view.stream := by
  have hfold : ∀ (l : List ℕ) (fed : List UInt8), (∀ i ∈ l, i < signalCount) →
      l.foldl (configStreamStep b) fed =
        fed ++ l.flatMap fun i => (b.view i).elim [] (entryBytes i) := by
    intro l
    induction l with
    | nil => simp
    | cons i l ih =>
      intro fed hl
      rw [List.foldl_cons, configStreamStep_eq b fed (hl i (by simp)),
        ih _ fun j hj => hl j (by simp [hj]), List.flatMap_cons, List.append_assoc]
  exact hfold _ _ fun i hi => List.mem_range.mp hi

end ValueStore

/-! ## Records delimit themselves -/

theorem Record.bytes_eq (r : Record) :
    ∃ body, r.bytes = le16 (signalAt r.1).signalKey ++ body := by
  obtain ⟨i, raw | data⟩ := r
  · exact ⟨_, rfl⟩
  · exact ⟨_, List.append_assoc _ _ _⟩

/-- Records that begin one stream are the same: the key tells the kind, and a
    blob begins with its length. -/
theorem Record.eq_of_append {r r' : Record} (hr : r.Valid) (hr' : r'.Valid) {t t' : List UInt8}
    (h : r.bytes ++ t = r'.bytes ++ t') : r = r' := by
  have hkey : le16 (signalAt r.1).signalKey = le16 (signalAt r'.1).signalKey := by
    obtain ⟨body, hbody⟩ := r.bytes_eq
    obtain ⟨body', hbody'⟩ := r'.bytes_eq
    rw [hbody, hbody', List.append_assoc, List.append_assoc] at h
    exact (List.append_inj h rfl).1
  have hindex : r.1 = r'.1 := signalKey_inj hr.lt hr'.lt (le16_inj hkey)
  have hkind : r.isBlob = r'.isBlob := by
    rw [← hr.isBlob_eq, ← hr'.isBlob_eq, hindex]
  obtain ⟨i, e⟩ := r
  obtain ⟨j, e'⟩ := r'
  obtain rfl : i = j := hindex
  cases e with
  | scalar raw =>
    cases e' with
    | blob data' => cases hkind
    | scalar raw' =>
      simp only [Record.bytes, entryBytes, List.append_assoc] at h
      have hraw := (List.append_inj (List.append_cancel_left h) rfl).1
      rw [le32_inj hraw]
  | blob data =>
    cases e' with
    | scalar raw' => cases hkind
    | blob data' =>
      simp only [Record.bytes, entryBytes, List.append_assoc] at h
      obtain ⟨hlen, hdata⟩ := List.append_inj (List.append_cancel_left h) rfl
      have hlength : data.length = data'.length := by
        rw [← hr.toNat_length, ← hr'.toNat_length, le16_inj hlen]
      rw [(List.append_inj hdata hlength).1]

theorem Record.selfDelimiting : PrefixCode.SelfDelimiting Record.Valid Record.bytes where
  nonempty r _ := by
    obtain ⟨body, hbody⟩ := r.bytes_eq
    rw [hbody]
    simp [le16]
  ofPrefix r r' hr hr' := by
    rintro ⟨t, ht⟩
    apply Record.eq_of_append hr hr'
    rw [ht, List.append_nil]

/-- **The stream determines the configuration.** -/
theorem ValueStore.Bank.Wf.view_of_stream {b b' : Bank} (h : b.Wf) (h' : b'.Wf)
    (heq : b.view.stream = b'.view.stream) : b.view = b'.view := by
  have hlt : ∀ b : Bank, ∀ i, b.view i ≠ none → i < signalCount := by
    intro b i hi
    by_contra hge
    apply hi
    rw [Bank.view, if_neg fun hand => hge hand.1]
  have hrecords : b.view.records = b'.view.records := by
    apply Record.selfDelimiting.flatMap_inj h.wfRecords.valid h'.wfRecords.valid
    exact (encode_records b.view).trans (heq.trans (encode_records b'.view).symm)
  rw [← contentsOf_records (hlt b), hrecords, contentsOf_records (hlt b')]

/-! ## Readings -/

/-- The readers of the two stores return the same records and the same values. -/
structure SameReadings (s s' : Store) : Prop where
  active : ∀ i, isActive s i = isActive s' i
  raw : ∀ i, getRaw s i = getRaw s' i
  blob : ∀ i, getBlob s i = getBlob s' i

/-- What the readers return is the configuration a store holds. -/
theorem sameReadings_iff {s s' : Store} {c c' : Contents} (h : Holds s c) (h' : Holds s' c') :
    SameReadings s s' ↔ c = c' := by
  obtain ⟨hactive, hraw, hblob, -⟩ := h.shows
  obtain ⟨hactive', hraw', hblob', -⟩ := h'.shows
  constructor
  · intro hsame
    funext i
    have ha := hsame.active i
    have hr := hsame.raw i
    have hb := hsame.blob i
    rw [hactive, hactive'] at ha
    rw [hraw, hraw'] at hr
    rw [hblob, hblob'] at hb
    revert ha hr hb
    rcases c i with _ | (_ | _) <;> rcases c' i with _ | (_ | _) <;> simp
  · rintro rfl
    exact ⟨fun i => by rw [hactive, hactive'], fun i => by rw [hraw, hraw'],
      fun i => by rw [hblob, hblob']⟩

/-! ## The parser's loop -/

namespace Storage

variable {σ : Type}

/-- The configuration CRC `prv_parse` computes while it reads the records
    (`j1939_profile_storage.c:110-112,143-188,194`). -/
def parsedCrc (m : Mem) (visit : Visitor σ) (c : σ) : UInt32 :=
  Crc32.final (parseRecords m (headerBytes + readU16 m offPayloadLength) visit
    (readU16 m offSignalCount).toNat (parseStart c)).1.configCrc

/-- An image is accepted when the CRC of its records is the one it stores. -/
theorem parsedCrc_eq {m : Mem} {slot : Slot} {visit : Visitor σ} {c c' : σ} {info : Info}
    (h : parse m slot visit c = (c', .ok info)) : parsedCrc m visit c = info.configCrc := by
  have hinfo : info.configCrc = readU32 m offConfigCrc := by
    obtain ⟨-, -, -, -, hinfo⟩ := parse_sound h
    rw [hinfo]
    rfl
  unfold parse at h
  dsimp only at h
  split_ifs at h with h1 h2 h3 h4
  -- the last of the five ways out is the only one that accepts
  case neg =>
    push Not at h3
    rw [hinfo]
    exact h3.2.2.2
  all_goals cases h

end Storage

end J1939Gen
