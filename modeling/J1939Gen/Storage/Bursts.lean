import J1939Gen.Lib.Crc
import J1939Gen.Storage.Latest
import J1939Gen.Storage.Identity

/-!
# What the checksums see

The bit loop of `J1939_Crc32_Update_U8` is a reflected CRC register whose
generator has its top bit set, so a change within 32 consecutive bits of what it
reads always changes the result.

* `update_eq_run`: the checksum of a byte stream is the register of its bits.
* `configCrc_ne_of_one_value`: two configurations that differ in one scalar have
  different configuration CRCs.
* `damaged_image_refused`: an image damaged by a burst is never opened.
-/

namespace J1939Gen

open Bitmask ByteMem ValueStore

/-! ## The checksum as a register -/

namespace Crc32

/-- `0xEDB88320u`. -/
def poly : BitVec 32 := 0xEDB88320

/-- The bits of a byte, in the order the loop takes them. -/
def byteBits (v : UInt8) : List Bool := (List.range 8).map v.toNat.testBit

theorem msb_poly : poly.msb = true := by decide

theorem updateBit_toBitVec (crc : UInt32) :
    (updateBit crc).toBitVec = Crc.stepBit poly crc.toBitVec := by
  have hlow : (crc &&& 1).toNat = crc.toNat % 2 := by
    rw [UInt32.toNat_and]
    exact Nat.and_two_pow_sub_one_eq_mod crc.toNat 1
  have hbit : crc.toBitVec.getLsbD 0 = decide (crc.toNat % 2 = 1) := Nat.testBit_zero crc.toNat
  unfold updateBit Crc.stepBit
  rw [UInt32.toBitVec_xor, hbit]
  congr 1
  rcases Nat.mod_two_eq_zero_or_one crc.toNat with h | h
  · have hone : crc &&& 1 = 0 := by
      rw [← UInt32.toNat_inj, hlow, h]
      rfl
    rw [hone, h]
    rfl
  · have hone : crc &&& 1 = 1 := by
      rw [← UInt32.toNat_inj, hlow, h]
      rfl
    rw [hone, h]
    rfl

theorem iterate_updateBit_toBitVec (n : ℕ) (crc : UInt32) :
    (updateBit^[n] crc).toBitVec = (Crc.stepBit poly)^[n] crc.toBitVec := by
  induction n generalizing crc with
  | zero => rfl
  | succ n ih =>
    rw [Function.iterate_succ_apply, Function.iterate_succ_apply, ih, updateBit_toBitVec]

theorem word_byteBits (v : UInt8) : Crc.word 32 (byteBits v) = v.toUInt32.toBitVec := by
  apply BitVec.eq_of_getLsbD_eq
  intro i hi
  have hv : v.toUInt32.toBitVec.getLsbD i = v.toNat.testBit i := rfl
  rw [Crc.getLsbD_word _ hi, hv]
  unfold byteBits
  rcases Nat.lt_or_ge i 8 with h | h
  · rw [List.getD_eq_getElem _ _ (by simpa using h)]
    simp
  · rw [List.getD_eq_default _ _ (by simpa using h)]
    have hlt : v.toNat < 2 ^ i := lt_of_lt_of_le v.toNat_lt (Nat.pow_le_pow_right (by norm_num) h)
    exact (Nat.testBit_lt_two_pow hlt).symm

theorem updateU8_toBitVec (crc : UInt32) (v : UInt8) :
    (updateU8 crc v).toBitVec = Crc.run poly crc.toBitVec (byteBits v) := by
  have hlen : (byteBits v).length = 8 := rfl
  rw [Crc.run_word poly _ (by rw [hlen]; norm_num), hlen, word_byteBits, updateU8,
    iterate_updateBit_toBitVec, UInt32.toBitVec_xor]

/-- The checksum reads the bytes bit by bit. -/
theorem update_eq_run (crc : UInt32) (data : List UInt8) :
    (update crc data).toBitVec = Crc.run poly crc.toBitVec (data.flatMap byteBits) := by
  induction data generalizing crc with
  | nil => rfl
  | cons v data ih =>
    rw [List.flatMap_cons, Crc.run_append, ← updateU8_toBitVec]
    exact ih (updateU8 crc v)

theorem byteBits_inj {v v' : UInt8} (h : byteBits v = byteBits v') : v = v' := by
  have hword := congrArg (Crc.word 32) h
  rw [word_byteBits, word_byteBits, UInt32.toBitVec_inj] at hword
  have := congrArg UInt32.toNat hword
  rwa [UInt8.toNat_toUInt32, UInt8.toNat_toUInt32, UInt8.toNat_inj] at this

theorem length_flatMap_byteBits (data : List UInt8) :
    (data.flatMap byteBits).length = 8 * data.length := by
  induction data with
  | nil => rfl
  | cons v data ih =>
    have hlen : (byteBits v).length = 8 := rfl
    rw [List.flatMap_cons, List.length_append, ih, hlen, List.length_cons]
    omega

theorem flatMap_byteBits_inj {xs ys : List UInt8} (h : xs.flatMap byteBits = ys.flatMap byteBits) :
    xs = ys := by
  induction xs generalizing ys with
  | nil =>
    cases ys with
    | nil => rfl
    | cons y ys => simp [byteBits] at h
  | cons x xs ih =>
    cases ys with
    | nil => simp [byteBits] at h
    | cons y ys =>
      rw [List.flatMap_cons, List.flatMap_cons] at h
      obtain ⟨hhead, htail⟩ := List.append_inj h rfl
      rw [byteBits_inj hhead, ih htail]

/-- Up to four changed bytes change the checksum. -/
theorem update_ne_of_window (crc : UInt32) {xs ys : List UInt8} (hlen : xs.length = ys.length)
    (hle : xs.length ≤ 4) (hne : xs ≠ ys) (before after : List UInt8) :
    update crc (before ++ (xs ++ after)) ≠ update crc (before ++ (ys ++ after)) := by
  intro h
  have hbits := congrArg UInt32.toBitVec h
  simp only [update_eq_run, List.flatMap_append] at hbits
  refine Crc.run_ne_of_window msb_poly _ ?_ ?_ ?_ _ _ hbits
  · rw [length_flatMap_byteBits, length_flatMap_byteBits, hlen]
  · rw [length_flatMap_byteBits]
    omega
  · exact fun heq => hne (flatMap_byteBits_inj heq)

theorem final_inj {crc crc' : UInt32} (h : final crc = final crc') : crc = crc' := by
  have hcancel := congrArg (· ^^^ 0xFFFFFFFF) h
  simpa [final, UInt32.xor_assoc] using hcancel

end Crc32

/-! ## Configurations -/

namespace ValueStore

/-- Another value of the same record: another scalar, or blob bytes of the same
    length that differ within four neighbours. -/
inductive Revalued : Entry → Entry → Prop
  | scalar {raw raw' : UInt32} (hne : raw ≠ raw') : Revalued (.scalar raw) (.scalar raw')
  | blob {xs ys : List UInt8} (before after : List UInt8) (hlen : xs.length = ys.length)
    (hle : xs.length ≤ 4) (hne : xs ≠ ys) :
    Revalued (.blob (before ++ (xs ++ after))) (.blob (before ++ (ys ++ after)))

/-- The bytes of the two values differ in one window. -/
theorem Revalued.window {e e' : Entry} (h : Revalued e e') (i : ℕ) :
    ∃ before xs ys after, xs.length = ys.length ∧ xs.length ≤ 4 ∧ xs ≠ ys ∧
      entryBytes i e = before ++ (xs ++ after) ∧ entryBytes i e' = before ++ (ys ++ after) := by
  cases h with
  | scalar hne =>
    rename_i raw raw'
    refine ⟨le16 (signalAt i).signalKey, le32 raw, le32 raw', [], rfl, le_refl 4, ?_, ?_, ?_⟩
    · exact fun heq => hne (le32_inj heq)
    · rw [List.append_nil]
      rfl
    · rw [List.append_nil]
      rfl
  | blob before after hlen hle hne =>
    rename_i xs ys
    have hsame : (before ++ (ys ++ after)).length = (before ++ (xs ++ after)).length := by
      simp only [List.length_append, hlen]
    refine ⟨le16 (signalAt i).signalKey ++
      le16 (UInt16.ofNat (before ++ (xs ++ after)).length) ++ before, xs, ys, after, hlen, hle, hne,
      ?_, ?_⟩
    · simp only [entryBytes, List.append_assoc]
    · simp only [entryBytes, hsame, List.append_assoc]

/-- The stream around one record. -/
theorem Contents.stream_split (c : Contents) {i k : ℕ} (hk : signalCount = i + (k + 1)) :
    c.stream = ((List.range i).flatMap fun j => (c j).elim [] (entryBytes j)) ++
      ((c i).elim [] (entryBytes i) ++
        (List.range' (i + 1) k).flatMap fun j => (c j).elim [] (entryBytes j)) := by
  have hrange : List.range (i + (k + 1)) = List.range i ++ i :: List.range' (i + 1) k := by
    rw [List.range_eq_range', ← List.range'_append_1, Nat.zero_add, List.range'_succ,
      List.range_eq_range']
  unfold Contents.stream
  rw [hk, hrange, List.flatMap_append, List.flatMap_cons]

theorem Contents.crc_ne {c c' : Contents} {i : ℕ} (hi : i < signalCount)
    (hsame : ∀ j, j ≠ i → c j = c' j) {e e' : Entry} (he : c i = some e) (he' : c' i = some e')
    (h : Revalued e e') : c.crc ≠ c'.crc := by
  obtain ⟨k, hk⟩ : ∃ k, signalCount = i + (k + 1) := ⟨signalCount - (i + 1), by omega⟩
  obtain ⟨before, xs, ys, after, hlen, hle, hne, hbytes, hbytes'⟩ := h.window i
  -- The streams agree around the record.
  have hpre : ((List.range i).flatMap fun j => (c j).elim [] (entryBytes j)) =
      (List.range i).flatMap fun j => (c' j).elim [] (entryBytes j) := by
    apply List.flatMap_congr
    intro j hj
    rw [hsame j (Nat.ne_of_lt (List.mem_range.mp hj))]
  have hpost : ((List.range' (i + 1) k).flatMap fun j => (c j).elim [] (entryBytes j)) =
      (List.range' (i + 1) k).flatMap fun j => (c' j).elim [] (entryBytes j) := by
    apply List.flatMap_congr
    intro j hj
    have hlt := (List.mem_range'_1.mp hj).1
    rw [hsame j (by omega)]
  intro hcrc
  have hupdate := Crc32.final_inj hcrc
  rw [c.stream_split hk, c'.stream_split hk, he, he', Option.elim_some, Option.elim_some, hbytes,
    hbytes', hpre, hpost] at hupdate
  generalize (List.range i).flatMap (fun j => (c' j).elim [] (entryBytes j)) = pre at hupdate
  generalize (List.range' (i + 1) k).flatMap (fun j => (c' j).elim [] (entryBytes j)) = post
    at hupdate
  apply Crc32.update_ne_of_window Crc32.init hlen hle hne
    (configMagic ++ le32 catalogCrc32 ++ pre ++ before) (after ++ post)
  simpa only [List.append_assoc] using hupdate

/-- What the readers of the store return for one record. -/
def reading (s : Store) (i : ℕ) : Option Entry :=
  match getRaw s i, getBlob s i with
  | some raw, _ => some (.scalar raw)
  | none, some data => some (.blob data)
  | none, none => none

theorem Holds.reading {s : Store} {c : Contents} (h : Holds s c) : reading s = c := by
  obtain ⟨-, hraw, hblob, -⟩ := h.shows
  funext i
  unfold ValueStore.reading
  rw [hraw, hblob]
  rcases c i with _ | (_ | _) <;> rfl

theorem Holds.lt_of_some {s : Store} {c : Contents} (h : Holds s c) {i : ℕ} {e : Entry}
    (he : c i = some e) : i < signalCount := by
  by_contra hge
  rw [← h.view, Bank.view, if_neg fun hand => hge hand.1] at he
  cases he

theorem reading_of_le (ops : List Op) {j : ℕ} (hj : signalCount ≤ j) :
    reading (storeAfter ops) j = none := by
  have hholds := (storeRel_after ops).1.holds
  rw [hholds.reading]
  by_contra hne
  obtain ⟨e, he⟩ := Option.ne_none_iff_exists'.mp hne
  have hlt := hholds.lt_of_some he
  omega

/-- **The CRC tells values apart.** Of two reachable stores that read the same but
    for the value of one record, where it has another scalar or other bytes within
    four neighbours, the reported configuration CRCs are different. -/
theorem configCrc_ne_of_one_value (ops ops' : List Op) (i : ℕ) (e e' : Entry)
    (hsame : ∀ j, j ≠ i → reading (storeAfter ops) j = reading (storeAfter ops') j)
    (he : reading (storeAfter ops) i = some e) (he' : reading (storeAfter ops') i = some e')
    (h : Revalued e e') : getConfigCrc (storeAfter ops) ≠ getConfigCrc (storeAfter ops') := by
  have hholds := (storeRel_after ops).1.holds
  have hholds' := (storeRel_after ops').1.holds
  rw [hholds.reading] at hsame he
  rw [hholds'.reading] at hsame he'
  rw [show getConfigCrc (storeAfter ops) = _ from hholds.crc,
    show getConfigCrc (storeAfter ops') = _ from hholds'.crc]
  exact Contents.crc_ne (hholds.lt_of_some he) hsame he he' h

/-- One scalar, set to 2 and to 3. -/
theorem configCrc_ne_of_one_value_113 :
    getConfigCrc (storeAfter [.beginEmpty, .write (.setRaw 113 2), .commit]) ≠
      getConfigCrc (storeAfter [.beginEmpty, .write (.setRaw 113 3), .commit]) := by
  refine configCrc_ne_of_one_value _ _ 0 (.scalar 2) (.scalar 3) ?_ ?_ ?_ (.scalar (by decide))
  · have hcatalog : ∀ j < signalCount, j ≠ 0 →
        reading (storeAfter [.beginEmpty, .write (.setRaw 113 2), .commit]) j =
          reading (storeAfter [.beginEmpty, .write (.setRaw 113 3), .commit]) j := by
      decide +kernel
    intro j hj
    rcases Nat.lt_or_ge j signalCount with hlt | hge
    · exact hcatalog j hlt hj
    · rw [reading_of_le _ hge, reading_of_le _ hge]
  · decide +kernel
  · decide +kernel

end ValueStore

/-! ## Stored images -/

namespace Storage

/-- Bit `j` of a buffer, lowest bit of each byte first. -/
def memBit (m : Mem) (j : ℕ) : Bool := (m (j / 8)).toNat.testBit (j % 8)

/-- Some of the first `n` bytes changed, and all changed bits lie within 32
    consecutive bits. -/
structure BurstDamage (m m' : Mem) (n : ℕ) : Prop where
  changed : ∃ i < n, m i ≠ m' i
  window : ∃ k, ∀ j < 8 * n, memBit m j ≠ memBit m' j → k ≤ j ∧ j < k + 32

theorem flatMap_byteBits_bytes (m : Mem) (n : ℕ) :
    (bytes m 0 n).flatMap Crc32.byteBits = (List.range (8 * n)).map (memBit m) := by
  induction n with
  | zero => rfl
  | succ n ih =>
    have hone : (bytes m n 1).flatMap Crc32.byteBits =
        (List.range 8).map fun b => memBit m (8 * n + b) := by
      have hbyte : bytes m n 1 = [m n] := rfl
      rw [hbyte, List.flatMap_singleton]
      apply List.map_congr_left
      intro b hb
      have hb8 := List.mem_range.mp hb
      have hdiv : (8 * n + b) / 8 = n := by omega
      have hmod : (8 * n + b) % 8 = b := by omega
      rw [memBit, hdiv, hmod]
    rw [bytes_add, List.flatMap_append, ih, Nat.zero_add, hone, Nat.mul_succ, List.range_add,
      List.map_append, List.map_map]
    rfl

/-- A burst changes the checksum of the bytes. -/
theorem BurstDamage.update_ne {m m' : Mem} {n : ℕ} (h : BurstDamage m m' n) (crc : UInt32) :
    Crc32.update crc (bytes m 0 n) ≠ Crc32.update crc (bytes m' 0 n) := by
  intro heq
  have hbits := congrArg UInt32.toBitVec heq
  rw [Crc32.update_eq_run, Crc32.update_eq_run] at hbits
  have hne : (bytes m 0 n).flatMap Crc32.byteBits ≠ (bytes m' 0 n).flatMap Crc32.byteBits := by
    intro hflat
    obtain ⟨i, hi, hmi⟩ := h.changed
    have hget := congrArg (fun l => l[i]?) (Crc32.flatMap_byteBits_inj hflat)
    simp only [bytes, List.getElem?_map, List.getElem?_range hi, Option.map_some, Option.some.injEq,
      Nat.zero_add] at hget
    exact hmi hget
  refine Crc.run_ne_of_burst Crc32.msb_poly _ ?_ hne hbits
  obtain ⟨k, hk⟩ := h.window
  rw [flatMap_byteBits_bytes, flatMap_byteBits_bytes]
  refine ⟨by simp, k, ?_⟩
  intro j hdiff
  rcases Nat.lt_or_ge j (8 * n) with hj | hj
  · apply hk j hj
    intro hsame
    apply hdiff
    simp [hj, hsame]
  · exact absurd (by simp [hj]) hdiff

/-- The bytes the image CRC is computed over. -/
def covered (m : Mem) : Mem := writeU32 (writeU32 m offImageCrc 0) offValidMarker 0xFFFFFFFF

theorem imageCrc_eq (m : Mem) (n : UInt16) :
    imageCrc m n = Crc32.final (Crc32.update Crc32.init (bytes (covered m) 0 n.toNat)) := rfl

theorem covered_of_field {m : Mem} {i : ℕ} (h : 20 ≤ i ∧ i < 24 ∨ 40 ≤ i ∧ i < 44) (m' : Mem) :
    covered m i = covered m' i := by
  have hin (d d' : Mem) (p : ℕ) (v : UInt32) (hp : p ≤ i ∧ i < p + 4) :
      writeU32 d p v i = writeU32 d' p v i := by
    unfold writeU32
    rcases (by omega : i = p ∨ i = p + 1 ∨ i = p + 2 ∨ i = p + 3) with rfl | rfl | rfl | rfl <;>
      simp
  unfold covered
  rcases h with h | h
  · have hout : i < offValidMarker ∨ offValidMarker + 4 ≤ i := .inl (lt_trans h.2 (by decide))
    rw [writeU32_of_ne (writeU32 m offImageCrc 0) _ hout,
      writeU32_of_ne (writeU32 m' offImageCrc 0) _ hout]
    exact hin m m' 20 0 h
  · exact hin _ _ 40 _ h

theorem covered_of_ne {m : Mem} {i : ℕ} (h : i < 20 ∨ 24 ≤ i) (h' : i < 40 ∨ 44 ≤ i) :
    covered m i = m i := by
  unfold covered
  rw [writeU32_of_ne _ _ h', writeU32_of_ne _ _ h]

/-- A burst that leaves both fields alone damages what the CRC covers. -/
theorem BurstDamage.covered {m m' : Mem} {n : ℕ} (h : BurstDamage m m' n)
    (hcrc : ∀ i, 20 ≤ i → i < 24 → m i = m' i) (hmarker : ∀ i, 40 ≤ i → i < 44 → m i = m' i) :
    BurstDamage (covered m) (covered m') n where
  changed := by
    obtain ⟨i, hi, hne⟩ := h.changed
    have hout : (i < 20 ∨ 24 ≤ i) ∧ (i < 40 ∨ 44 ≤ i) := by
      by_contra hin
      rcases (by omega : 20 ≤ i ∧ i < 24 ∨ 40 ≤ i ∧ i < 44) with hf | hf
      · exact hne (hcrc i hf.1 hf.2)
      · exact hne (hmarker i hf.1 hf.2)
    refine ⟨i, hi, ?_⟩
    rwa [covered_of_ne hout.1 hout.2, covered_of_ne hout.1 hout.2]
  window := by
    obtain ⟨k, hk⟩ := h.window
    refine ⟨k, fun j hj hdiff => hk j hj ?_⟩
    by_cases hf : 20 ≤ j / 8 ∧ j / 8 < 24 ∨ 40 ≤ j / 8 ∧ j / 8 < 44
    · rw [memBit, memBit, covered_of_field hf m'] at hdiff
      exact absurd rfl hdiff
    · rwa [memBit, memBit, covered_of_ne (by omega) (by omega),
        covered_of_ne (by omega) (by omega)] at hdiff

/-- The bytes of a field are those of its value. -/
theorem readU32_bytes {m m' : Mem} {p : ℕ} (h : readU32 m p = readU32 m' p) (i : ℕ) (h1 : p ≤ i)
    (h2 : i < p + 4) : m i = m' i := by
  have hbytes : bytes m p 4 = bytes m' p 4 := by rw [bytes_readU32, bytes_readU32, h]
  have hget := congrArg (fun l => l[i - p]?) hbytes
  have hlt : i - p < 4 := by omega
  simpa [bytes, hlt, Nat.add_sub_cancel' h1] using hget

/-- An image and a damaged copy of it are not both valid, if the damage leaves the
    length and the image CRC alone. -/
theorem ValidImage.not_of_burst {m m' : Mem} {l l' : List Record} (h : ValidImage m l)
    (h' : ValidImage m' l') (hlength : readU16 m' offPayloadLength = readU16 m offPayloadLength)
    (hcrc : readU32 m' offImageCrc = readU32 m offImageCrc)
    (hdamage : BurstDamage m m' (44 + (encode l).length)) : False := by
  have hmarker : readU32 m offValidMarker = readU32 m' offValidMarker := h.marker.trans h'.marker.symm
  have hcovered := hdamage.covered (readU32_bytes hcrc.symm) (readU32_bytes hmarker)
  have hsealed := h.sealed.imageCrc
  have hsealed' := h'.sealed.imageCrc
  rw [hlength, hcrc, ← hsealed, imageCrc_eq, imageCrc_eq, h.sealed.carries.fin_toNat] at hsealed'
  exact hcovered.update_ne Crc32.init (Crc32.final_inj hsealed').symm

/-- **Damaged images are refused.** An image that loaded and whose bits changed
    within 32 consecutive ones does not load any more, and `Profile_Storage_Open_Latest`
    does not open its slot, if the damage spares the length and the image CRC. -/
theorem damaged_image_refused (s s' : Memory) (slot : Slot) (info : Info)
    (h : (loadSlot s slot).2 = .ok info)
    (hlength : readU16 (slotMem s'.flash.cell slot) offPayloadLength =
      readU16 (slotMem s.flash.cell slot) offPayloadLength)
    (hcrc : readU32 (slotMem s'.flash.cell slot) offImageCrc =
      readU32 (slotMem s.flash.cell slot) offImageCrc)
    (hdamage : BurstDamage (slotMem s.flash.cell slot) (slotMem s'.flash.cell slot)
      (44 + (readU16 (slotMem s.flash.cell slot) offPayloadLength).toNat)) :
    (∀ info', (loadSlot s' slot).2 ≠ .ok info') ∧
      ∀ info', (openLatest s').2 = .ok info' → info'.slot = slot.other := by
  obtain ⟨l, hvalid, -, -⟩ := loadSlot_sound (Prod.ext rfl h : loadSlot s slot = (_, .ok info))
  have hlen : (readU16 (slotMem s.flash.cell slot) offPayloadLength).toNat = (encode l).length := by
    rw [hvalid.sealed.carries.payloadLength]
  rw [hlen] at hdamage
  have hrefused (l' : List Record) : ¬ ValidImage (slotMem s'.flash.cell slot) l' :=
    fun hvalid' => hvalid.not_of_burst hvalid' hlength hcrc hdamage
  refine ⟨fun info' hload => ?_, fun info' hopen => ?_⟩
  · obtain ⟨l', hvalid', -, -⟩ :=
      loadSlot_sound (Prod.ext rfl hload : loadSlot s' slot = (_, .ok info'))
    exact hrefused l' hvalid'
  · obtain ⟨slot', l', hlatest, rfl⟩ := openLatest_ok_iff.mp hopen
    have hne : slot' ≠ slot := fun heq => hrefused l' (heq ▸ hlatest.valid)
    show slot' = slot.other
    cases slot <;> cases slot' <;> first | rfl | exact absurd rfl hne

/-- The saved image of one record, with one bit of its value flipped. -/
theorem damaged_image_refused_first :
    let s := (Mealy.run step boot firstSave).1.memory
    let damaged : Memory := { s with flash := { s.flash with
      cell := Function.update s.flash.cell (flashSlotAAddress + 46) 3 } }
    (loadSlot s .a).2 = .ok firstInfo ∧ (∀ info', (loadSlot damaged .a).2 ≠ .ok info') ∧
      ∀ info', (openLatest damaged).2 = .ok info' → info'.slot = .b := by
  intro s damaged
  have hload : (loadSlot s .a).2 = .ok firstInfo := by decide +kernel
  have hbyte : slotMem s.flash.cell .a 46 = 2 := by decide +kernel
  have hcell (i : ℕ) (hi : i ≠ 46) :
      slotMem damaged.flash.cell .a i = slotMem s.flash.cell .a i := by
    apply Function.update_of_ne
    simp only [Slot.address, flashSlotAAddress]
    omega
  have hnew : slotMem damaged.flash.cell .a 46 = 3 := by
    simp [slotMem, damaged, Slot.address]
  have hlen : (readU16 (slotMem s.flash.cell .a) offPayloadLength).toNat = 6 := by decide +kernel
  refine ⟨hload, damaged_image_refused s damaged .a firstInfo hload ?_ ?_
    ⟨⟨46, by rw [hlen]; decide, ?_⟩, 368, ?_⟩⟩
  · exact readU16_agree (n := 40) (fun i hi => hcell i (by omega)) (by decide)
  · exact readU32_agree (n := 40) (fun i hi => hcell i (by omega)) (by decide)
  · rw [hbyte, hnew]
    decide
  · intro j _ hdiff
    have hj : j / 8 = 46 := by
      by_contra hne
      exact hdiff (by rw [memBit, memBit, hcell _ hne])
    omega

end Storage

end J1939Gen
