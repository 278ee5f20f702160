import J1939Gen.Generator.Delivery
import J1939Gen.Scheduler.Text

/-!
# Entering the VIN

A transaction may deliver the text of the vehicle identification number by
`SET_STRING` calls, in windows of three characters and beside any scalars. Whatever
the order and the overlap of the windows, the text is committed, and it is what the
receivers of its PGN read.

* `Delivers`: the calls of such a transaction.
* `Delivers.run_ok`: no call is rejected.
* `Delivers.committed`: the commit succeeds and stores the text.
* `string_read_back`: the main result.
-/

namespace J1939Gen.Generator

open Bitmask ByteMem ValueStore Scheduler

/-! ## The calls -/

/-- A text `SET_STRING` takes: at most twenty printable characters, none of them the
    terminator. -/
structure IsText (text : List UInt8) : Prop where
  nonempty : 0 < text.length
  short : text.length ≤ 20
  printable : ∀ c ∈ text, 0x20 ≤ c ∧ c ≤ 0x7E ∧ c ≠ vinTerminator

/-- The call is `SET_STRING` with a window of the text. -/
def StageCall.IsString (text : List UInt8) (call : StageCall) : Prop :=
  (∃ total offset data, call = .chunk true keyViSpn237 total offset data) ∧ call.IsWindow text

/-- The call sets a scalar the profile of the transaction allows, in its range. -/
def StageCall.IsSetting (config : Config) (call : StageCall) : Prop :=
  ∃ i raw, i < signalCount ∧ checkIndex i raw = .ok ∧ config.profileAllows i = true ∧
    call = .scalar (signalAt i).signalKey raw

/-- The key a call names. -/
def StageCall.key : StageCall → UInt16
  | .scalar key _ => key
  | .chunk _ key _ _ _ => key

/-- The records the calls name. -/
def namedRecords (calls : List StageCall) : Finset ℕ :=
  (calls.filterMap fun call => indexFromKey call.key).toFinset

/-- The calls of a transaction that enters the text: windows that cover it, and
    scalars, as many as announced; where there are scalars, no more PGNs than the
    build has. -/
structure Delivers (B : Build) (config : Config) (n : UInt16) (text : List UInt8)
    (calls : List StageCall) : Prop where
  each : ∀ call ∈ calls, call.IsString text ∨ call.IsSetting config
  covered : ∀ p < text.length, ∃ call ∈ calls, call.IsString text ∧ call.Covers p
  count : (scalarKeys calls).card = n.toNat
  pgns : 0 < n.toNat →
    ((namedRecords calls).image fun i => (signalAt i).pgnIndex).card ≤ B.pgnCapacity

section Calls

variable {B : Build} {config : Config} {n : UInt16} {text : List UInt8} {calls : List StageCall}

theorem StageCall.IsString.blobKey {call : StageCall} (h : call.IsString text) :
    call.blobKey = some keyViSpn237 := by
  obtain ⟨⟨total, offset, data, rfl⟩, -⟩ := h
  rfl

/-- A call for the blob's key is a window of the text. -/
theorem Delivers.isString (h : Delivers B config n text calls) {call : StageCall}
    (hcall : call ∈ calls) {key : UInt16} (hkey : call.blobKey = some key) :
    call.IsString text := by
  rcases h.each call hcall with hs | ⟨i, raw, -, -, -, rfl⟩
  · exact hs
  · cases hkey

theorem Delivers.blobKeys_eq (h : Delivers B config n text calls) (ht : IsText text) :
    blobKeys calls = {keyViSpn237} := by
  ext key
  rw [blobKeys, List.mem_toFinset, List.mem_filterMap, Finset.mem_singleton]
  constructor
  · rintro ⟨call, hcall, hkey⟩
    have hvin := (h.isString hcall hkey).blobKey
    rw [hkey, Option.some.injEq] at hvin
    exact hvin
  · rintro rfl
    obtain ⟨call, hcall, hs, -⟩ := h.covered 0 ht.nonempty
    exact ⟨call, hcall, hs.blobKey⟩

/-- The named records are the announced scalars and the VIN. -/
theorem Delivers.card_namedRecords (h : Delivers B config n text calls) :
    (namedRecords calls).card ≤ n.toNat + 1 := by
  have hsub : namedRecords calls ⊆
      insert viIndex ((scalarKeys calls).image fun key => (indexFromKey key).getD 0) := by
    intro i hi
    rw [namedRecords, List.mem_toFinset, List.mem_filterMap] at hi
    obtain ⟨call, hcall, hkey⟩ := hi
    rw [Finset.mem_insert, Finset.mem_image]
    rcases h.each call hcall with ⟨⟨total, offset, data, rfl⟩, -⟩ | ⟨j, raw, -, -, -, rfl⟩
    · left
      rw [StageCall.key, indexFromKey_vi, Option.some.injEq] at hkey
      exact hkey.symm
    · right
      refine ⟨(signalAt j).signalKey, ?_, ?_⟩
      · rw [scalarKeys, List.mem_toFinset, List.mem_filterMap]
        exact ⟨_, hcall, rfl⟩
      · rw [StageCall.key] at hkey
        rw [hkey, Option.getD_some]
  rw [← h.count]
  calc (namedRecords calls).card
      ≤ (insert viIndex ((scalarKeys calls).image fun key => (indexFromKey key).getD 0)).card :=
        Finset.card_le_card hsub
    _ ≤ ((scalarKeys calls).image fun key => (indexFromKey key).getD 0).card + 1 :=
        Finset.card_insert_le _ _
    _ ≤ (scalarKeys calls).card + 1 := Nat.add_le_add_right Finset.card_image_le 1

/-- The scalars are records of the catalog. -/
theorem Delivers.count_le (h : Delivers B config n text calls) : n.toNat ≤ 179 := by
  have hsub : scalarKeys calls ⊆
      (Finset.range signalCount).image fun i => (signalAt i).signalKey := by
    intro key hkey
    rw [scalarKeys, List.mem_toFinset, List.mem_filterMap] at hkey
    obtain ⟨call, hcall, hkey⟩ := hkey
    rcases h.each call hcall with ⟨⟨total, offset, data, rfl⟩, -⟩ | ⟨i, raw, hi, -, -, rfl⟩
    · cases hkey
    · rw [Finset.mem_image]
      exact ⟨i, Finset.mem_range.mpr hi, Option.some.inj hkey⟩
  rw [← h.count]
  calc (scalarKeys calls).card
      ≤ ((Finset.range signalCount).image fun i => (signalAt i).signalKey).card :=
        Finset.card_le_card hsub
    _ ≤ (Finset.range signalCount).card := Finset.card_image_le
    _ = 179 := Finset.card_range signalCount

/-! ## No call is rejected -/

/-- The characters of a window pass the check of `SET_STRING`. -/
theorem window_chars (ht : IsText text) {total offset : UInt8} {mem : Mem}
    (htotal : total.toNat = text.length) (hoff : offset.toNat < text.length)
    (hmem : ∀ k < 3, mem k = text.getD (offset.toNat + k) 0) :
    (bytes mem 0 (chunkCount total offset).toNat).any notStringChar = false := by
  rw [toNat_chunkCount (by rw [htotal]; exact hoff), htotal, List.any_eq_false]
  intro c hc
  obtain ⟨k, hk, rfl⟩ := List.mem_map.mp hc
  have hk := List.mem_range.mp hk
  rw [Nat.zero_add]
  have hin : mem k ∈ text := by
    rw [hmem k (by omega), List.getD_eq_getElem _ _ (by omega)]
    exact List.getElem_mem _
  obtain ⟨h1, h2, h3⟩ := ht.printable _ hin
  simp [notStringChar, h1, h2, h3]

/-- `App_Gen_Stage_String_Chunk` hands a window of the text on. -/
theorem stageStringChunk_window {g : Gen} (hopened : g.config.state = .opened) (ht : IsText text)
    {total offset : UInt8} {mem : Mem} (htotal : total.toNat = text.length)
    (hoff : offset.toNat < text.length)
    (hmem : ∀ k < 3, mem k = text.getD (offset.toNat + k) 0) :
    stageStringChunk B g keyViSpn237 total offset (some mem) =
      stageBlobChunk B g keyViSpn237 total offset (some mem) := by
  have hcodec : ¬ (isBlob viIndex = false ∨ (signalAt viIndex).specialCodec ≠ .asciiBlob) := by
    decide
  have hnonempty := ht.nonempty
  have hshort := ht.short
  have hlength : ¬ (total = 0 ∨ total.toUInt16 > maxStringChars) := by
    have hmax : maxStringChars.toNat = 20 := rfl
    rintro (h0 | hlong)
    · rw [h0, UInt8.toNat_zero] at htotal
      omega
    · rw [gt_iff_lt, UInt16.lt_iff_toNat_lt, UInt8.toNat_toUInt16] at hlong
      omega
  unfold stageStringChunk
  dsimp only
  rw [if_neg (by simp [configReady_eq.mpr hopened]), indexFromKey_vi]
  dsimp only
  rw [if_neg hcodec, if_neg hlength, if_neg]
  rw [window_chars ht htotal hoff hmem]
  simp

/-- A draft on the way: its records are named by the calls, and a blob it has begun
    is as long as the text. -/
structure Entering (text : List UInt8) (calls : List StageCall) (d : Draft) : Prop where
  records : d.contents.active ⊆ namedRecords calls
  blob : d.written ≠ none →
    ∃ old, d.contents viIndex = some (.blob old) ∧ old.length = text.length

theorem entering_start (text : List UInt8) (calls : List StageCall) :
    Entering text calls ⟨Contents.empty, none⟩ where
  records := by
    rw [Contents.active_empty]
    exact Finset.empty_subset _
  blob h := absurd rfl h

/-- Room for the records the calls name. -/
structure HasRoom (B : Build) (config : Config) (calls : List StageCall) : Prop where
  signals : (namedRecords calls).card ≤ B.signalCapacity
  pgns : ((namedRecords calls).image fun i => (signalAt i).pgnIndex).card ≤ B.pgnCapacity
  vin : config.profileAllows viIndex = true

section Step

variable {g : Gen} {d : Draft}

theorem Entering.set (h : Entering text calls d) {i : ℕ} (hi : i < signalCount)
    (hmem : i ∈ namedRecords calls) (e : Entry) :
    (d.contents.set i e).active ⊆ namedRecords calls := by
  rw [Contents.active_set hi]
  exact Finset.insert_subset hmem h.records

/-- A window of the text is accepted. -/
theorem Entering.string (h : Entering text calls d) (ht : IsText text)
    (hroom : HasRoom B g.config calls) (hd : Drafted B g d) {call : StageCall} (hcall : call ∈ calls)
    (hs : call.IsString text) :
    (stage B g call).2 = .ok ∧ Entering text calls (d.apply call.write) := by
  obtain ⟨⟨total, offset, data, rfl⟩, hwindow⟩ := hs
  cases data with
  | none => exact hwindow.elim
  | some mem =>
    obtain ⟨htotal, hoff, hmem⟩ := hwindow
    obtain ⟨hlt, hb, hkey, -⟩ := viIndex_spec
    have hnamed : viIndex ∈ namedRecords calls := by
      rw [namedRecords, List.mem_toFinset, List.mem_filterMap]
      exact ⟨_, hcall, indexFromKey_vi⟩
    have hadmit := hd.admit_of_subset h.records hroom.signals hroom.pgns hnamed hlt
    have hcap : text.length ≤ (blobCapacity viIndex).toNat := by
      have hcapacity : (blobCapacity viIndex).toNat = 200 := by decide
      have := ht.short
      omega
    obtain ⟨hok, new, hcontents, hlength⟩ := hd.window_ok hlt hb hroom.vin hadmit hcap htotal hoff
      hmem h.blob true
    rw [hkey] at hok hcontents
    refine ⟨?_, ?_, fun _ => ?_⟩
    · show (stageStringChunk B g keyViSpn237 total offset (some mem)).2.1 = .ok
      rw [stageStringChunk_window hd.opened ht htotal hoff hmem]
      exact hok
    · rw [hcontents]
      exact h.set hlt hnamed _
    · rw [hcontents]
      exact ⟨new, Function.update_self _ _ _, hlength⟩

/-- A scalar of the transaction is accepted. -/
theorem Entering.setting (h : Entering text calls d) (hroom : HasRoom B g.config calls)
    (hd : Drafted B g d) {call : StageCall} (hcall : call ∈ calls) (hs : call.IsSetting g.config) :
    (stage B g call).2 = .ok ∧ Entering text calls (d.apply call.write) := by
  obtain ⟨i, raw, hi, hcheck, hallows, rfl⟩ := hs
  have hnamed : i ∈ namedRecords calls := by
    rw [namedRecords, List.mem_toFinset, List.mem_filterMap]
    exact ⟨_, hcall, indexFromKey_signalKey hi⟩
  have hadmit := hd.admit_of_subset h.records hroom.signals hroom.pgns hnamed hi
  obtain ⟨hok, happly⟩ := hd.scalar_ok hi hcheck hallows hadmit
  rw [happly]
  refine ⟨hok, h.set hi hnamed _, fun hw => ?_⟩
  obtain ⟨old, hold, hlength⟩ := h.blob hw
  refine ⟨old, ?_, hlength⟩
  dsimp only
  rw [Contents.set, Function.update_of_ne, hold]
  -- the scalar is not the VIN
  rintro rfl
  have := (checkIndex_ok_iff.mp hcheck).1
  rw [viIndex_spec.2.1] at this
  cases this

end Step

/-- No call of the transaction is rejected. -/
theorem Delivers.run_ok {g : Gen} (h : Delivers B g.config n text calls) (ht : IsText text)
    (hroom : HasRoom B g.config calls) (hd : Drafted B g ⟨Contents.empty, none⟩) :
    ∀ s ∈ (Mealy.run (stage B) g calls).2, s = .ok := by
  refine run_stage_ok hd (entering_start text calls) fun call hcall g' d' hd' hsame hd'' => ?_
  have hallows : ∀ i, g'.config.profileAllows i = g.config.profileAllows i := by
    intro i
    rw [Config.profileAllows, Config.profileAllows, hsame]
  have hroom' : HasRoom B g'.config calls := ⟨hroom.signals, hroom.pgns, (hallows _).trans hroom.vin⟩
  rcases h.each call hcall with hs | ⟨i, raw, hi, hcheck, hallow, heq⟩
  · exact hd''.string ht hroom' hd' hcall hs
  · exact hd''.setting hroom' hd' hcall ⟨i, raw, hi, hcheck, (hallows i).trans hallow, heq⟩

/-! ## The text is committed -/

/-- What the calls stage for the VIN is the text. -/
theorem Delivers.staged (h : Delivers B config n text calls) (ht : IsText text) :
    BlobStaged calls ∧ lastStaged calls viIndex = some (.blob text) := by
  have hwindows : ∀ call ∈ calls, call.blobKey = some keyViSpn237 → call.IsWindow text :=
    fun call hcall hkey => (h.isString hcall hkey).2
  have hcovered : ∀ p < text.length,
      ∃ call ∈ calls, call.blobKey = some keyViSpn237 ∧ call.Covers p := by
    intro p hp
    obtain ⟨call, hcall, hs, hcovers⟩ := h.covered p hp
    exact ⟨call, hcall, hs.blobKey, hcovers⟩
  have htotal : lastTotal calls keyViSpn237 = some (UInt8.ofNat text.length) := by
    obtain ⟨call, hcall, hkey, -⟩ := hcovered 0 ht.nonempty
    exact lastTotal_of_windows hwindows ⟨call, hcall, hkey⟩
  have hbyte : ∀ p < text.length, lastByte calls keyViSpn237 p = some (text.getD p 0) :=
    fun p hp => lastByte_of_windows hwindows hp (hcovered p hp)
  have hlength : (UInt8.ofNat text.length).toNat = text.length := by
    have := ht.short
    rw [UInt8.toNat_ofNat', Nat.mod_eq_of_lt (by omega)]
  constructor
  · intro key total hkey p hp
    have hmem := mem_blobKeys_of_lastTotal hkey
    rw [h.blobKeys_eq ht, Finset.mem_singleton] at hmem
    subst hmem
    rw [htotal, Option.some.injEq] at hkey
    rw [← hkey, hlength] at hp
    rw [hbyte p hp]
    rfl
  · rw [lastStaged, if_pos viIndex_spec.1, if_pos viIndex_spec.2.1, viIndex_spec.2.2.1, htotal,
      Option.map_some, hlength]
    congr 2
    refine List.ext_getElem (by simp) fun p hp _ => ?_
    rw [List.length_map, List.length_range] at hp
    rw [List.getElem_map, List.getElem_range, hbyte p hp, Option.getD_some,
      List.getD_eq_getElem _ _ hp]

/-- A transaction that announces the blob and was begun has room for the text. -/
theorem Begun.room {g g' : Gen} {profileId : UInt8} (hb : Begun B g g' n 1 profileId)
    (hcap : n.toNat + 1 ≤ B.signalCapacity) (hpos : 0 < B.pgnCapacity)
    (h : Delivers B g'.config n text calls) : HasRoom B g'.config calls where
  signals := h.card_namedRecords.trans hcap
  pgns := by
    by_cases hn : 0 < n.toNat
    · exact h.pgns hn
    · -- the VIN alone
      have hcard := h.card_namedRecords
      have himage := Finset.card_image_le (s := namedRecords calls)
        (f := fun i => (signalAt i).pgnIndex)
      omega
  vin := by
    unfold Config.profileAllows
    rcases hb.drafted.target with hc | ⟨p, hfind, hcounts, -⟩
    · rw [if_pos hc]
    · split_ifs with hc
      · rfl
      rw [hfind]
      dsimp only
      -- the profile has one blob, and the VIN is the only blob of the catalog
      rw [hb.expectedBlobCount, profileRecordCounts_eq, Prod.mk.injEq] at hcounts
      have hne : (p.records.filter fun i => isBlob i = true) ≠ ∅ := by
        intro hempty
        rw [hempty] at hcounts
        exact absurd hcounts.2 (by decide)
      obtain ⟨i, hi⟩ := Finset.nonempty_iff_ne_empty.mpr hne
      obtain ⟨hrec, hblob⟩ := Finset.mem_filter.mp hi
      obtain ⟨hlt, hkey⟩ := Finset.mem_filter.mp hrec
      rw [(isBlob_iff (Finset.mem_range.mp hlt)).mp hblob] at hkey
      exact hkey

/-- The commit succeeds, and the store holds the text. -/
theorem Delivers.committed {g g' : Gen} {profileId : UInt8} (hb : Begun B g g' n 1 profileId)
    (h : Delivers B g'.config n text calls) (ht : IsText text) (hroom : HasRoom B g'.config calls)
    (clock : ℕ → UInt32) :
    (commitConfig B (Mealy.run (stage B) g' calls).1 clock).2.1 = .ok ∧
      getBlob (commitConfig B (Mealy.run (stage B) g' calls).1 clock).1.store viIndex =
        some text := by
  have hall := h.run_ok ht hroom hb.drafted
  obtain ⟨hstaged, hvin⟩ := h.staged ht
  rcases run_stage hb.drafted represents_nil calls with ⟨-, d, hd, hr, hs⟩ | ⟨hsome, -⟩
  swap
  · exact absurd hall hsome
  have hcommits : Commits (Mealy.run (stage B) g' calls).1 d := by
    refine (hd.commits_iff hr (hs.expectedCount.trans hb.expectedCount)
      (hs.expectedBlobCount.trans hb.expectedBlobCount)).mpr ⟨h.count, ?_, hstaged⟩
    show (blobKeys calls).card = 1
    rw [h.blobKeys_eq ht, Finset.card_singleton]
  obtain ⟨g'', heq, hcommitted⟩ := commitConfig_ok hd hcommits clock
  rw [heq]
  refine ⟨rfl, ?_⟩
  have hcontents : d.contents = lastStaged calls := hr.contents
  obtain ⟨-, -, hblob, -⟩ := hcommitted.active.holds.shows
  rw [hblob, hcontents, hvin]

end Calls

/-! ## The text is read -/

/-- A begin that is accepted leaves room for the records it announces. -/
theorem begin_capacity {B : Build} {g : Gen} {n : UInt16} {m profileId : UInt8}
    (h : (beginProfileConfig B g n m profileId).2 = .ok) :
    (n + m.toUInt16).toNat ≤ B.signalCapacity := by
  unfold beginProfileConfig at h
  by_cases h1 : g.isRunning = true
  · rw [if_pos h1] at h
    cases h
  rw [if_neg h1] at h
  by_cases h2 : g.config.state ≠ .idle
  · rw [if_pos h2] at h
    cases h
  rw [if_neg h2] at h
  by_cases h3 : profileStatus B n m profileId ≠ .ok
  · rw [if_pos h3] at h
    exact absurd h h3
  rw [if_neg h3] at h
  by_contra hfull
  rw [if_pos (.inr (not_le.mp hfull))] at h
  cases h

/-- The session the VIN PGN starts when no other is running, on a store that holds
    the blob: every receiver of its frames delivers the frame of the text. -/
theorem vin_session {store : Store} {data : List UInt8} (h : getBlob store viIndex = some data)
    {t : Tick} {slot : ℕ} (hslot : (t.sched.entry slot).catalogPgnIndex = pgnIdxVi)
    (hfree : t.sched.tp.state ≠ .sending) (nowMs : UInt32) :
    (startTpPgn store slot nowMs t).sched.tp.state = .sending ∧
      (startTpPgn store slot nowMs t).sched.tp.bam.payload = vinFrame data ∧
      ∀ r : Tp.Receiver,
        r.readAll ((List.range ((startTpPgn store slot nowMs t).sched.tp.bam.packets + 1)).map
            (startTpPgn store slot nowMs t).sched.tp.bam.frame) =
          ⟨none, r.delivered ++ [(startTpPgn store slot nowMs t).sched.tp.bam.message]⟩ := by
  obtain ⟨hsending, hbam⟩ := startTpPgn_vin h hslot hfree nowMs
  refine ⟨hsending, by rw [hbam], fun r => Tp.receive_frames r ?_⟩
  rw [hbam, Tp.Bam.Valid]
  dsimp only
  rw [length_vinFrame]
  decide

/-- **The text that is entered is the text that is read.** A transaction that
    announces the blob and delivers a text by windows in any order, with any overlap
    and repetition, beside the scalars it announces: no call is rejected, the commit
    succeeds, the store holds the text, and the session of the VIN PGN carries 21
    bytes from which a receiver reads the text. A longer blob is cut to twenty bytes
    and the terminator. -/
theorem string_read_back (B : SupportedBuild) (baudKbps : UInt32) :
    (∀ (ops : List Op) (n : UInt16) (profileId : UInt8) (text : List UInt8)
      (calls : List StageCall) (clock : ℕ → UInt32),
      let begun := beginProfileConfig B.val (after B.val baudKbps ops) n 1 profileId
      let staged := Mealy.run (stage B.val) begun.1 calls
      let committed := commitConfig B.val staged.1 clock
      begun.2 = .ok → IsText text → Delivers B.val begun.1.config n text calls →
        (∀ s ∈ staged.2, s = .ok) ∧ committed.2.1 = .ok ∧
        getBlob committed.1.store viIndex = some text ∧
        ∀ (t : Tick) (slot : ℕ) (nowMs : UInt32),
          (t.sched.entry slot).catalogPgnIndex = pgnIdxVi → t.sched.tp.state ≠ .sending →
          let session := (startTpPgn committed.1.store slot nowMs t).sched.tp
          session.state = .sending ∧
          session.bam.payload =
            text ++ vinTerminator :: List.replicate (20 - text.length) 0xFF ∧
          session.bam.payload.length = 21 ∧ readText session.bam.payload = text ∧
          ∀ r : Tp.Receiver,
            r.readAll ((List.range (session.bam.packets + 1)).map session.bam.frame) =
              ⟨none, r.delivered ++ [session.bam.message]⟩) ∧
    (∀ (store : Store) (data : List UInt8), getBlob store viIndex = some data → 20 < data.length →
      ∀ (t : Tick) (slot : ℕ) (nowMs : UInt32),
        (t.sched.entry slot).catalogPgnIndex = pgnIdxVi → t.sched.tp.state ≠ .sending →
        (startTpPgn store slot nowMs t).sched.tp.bam.payload =
          data.take 20 ++ [vinTerminator]) := by
  constructor
  · intro ops n profileId text calls clock begun staged committed hbegun ht hcalls
    obtain ⟨c, hinv⟩ := inv_after B baudKbps ops
    rcases beginProfileConfig_cases hinv n 1 profileId with ⟨hne, -⟩ | ⟨-, hb⟩
    · exact absurd hbegun hne
    have hcap : n.toNat + 1 ≤ B.val.signalCapacity := by
      have hsum := begin_capacity hbegun
      have hle := hcalls.count_le
      have hone : (1 : UInt8).toUInt16.toNat = 1 := rfl
      rw [UInt16.toNat_add, hone, Nat.mod_eq_of_lt (by omega)] at hsum
      exact hsum
    have hroom := hb.room hcap B.pos.2 hcalls
    obtain ⟨hok, hblob⟩ := hcalls.committed hb ht hroom clock
    refine ⟨hcalls.run_ok ht hroom hb.drafted, hok, hblob, ?_⟩
    intro t slot nowMs hslot hfree session
    obtain ⟨hsending, hpayload, hread⟩ := vin_session hblob hslot hfree nowMs
    refine ⟨hsending, ?_, ?_, ?_, hread⟩
    · rw [hpayload, vinFrame, List.take_of_length_le ht.short]
    · rw [hpayload, length_vinFrame]
    · rw [hpayload]
      exact readText_vinFrame ht.short fun c hc => (ht.printable c hc).2.2
  · intro store data hblob hlong t slot nowMs hslot hfree
    obtain ⟨-, hpayload, -⟩ := vin_session hblob hslot hfree nowMs
    rw [hpayload, vinFrame_of_long hlong]

/-- Four characters on a fresh generator, the last two first. -/
def latinCalls : List StageCall :=
  [.chunk true keyViSpn237 4 2 (some fun k => [0x43, 0x44].getD k 0),
    .chunk true keyViSpn237 4 0 (some fun k => [0x41, 0x42, 0x43].getD k 0)]

theorem latinCalls_delivers (config : Config) :
    Delivers build179 config 0 [0x41, 0x42, 0x43, 0x44] latinCalls where
  each call hcall := by
    left
    simp only [latinCalls, List.mem_cons, List.not_mem_nil, or_false] at hcall
    rcases hcall with rfl | rfl
    · exact ⟨⟨_, _, _, rfl⟩, by decide, by decide, by decide⟩
    · exact ⟨⟨_, _, _, rfl⟩, by decide, by decide, by decide⟩
  covered p hp := by
    by_cases h : p < 3
    · refine ⟨_, List.mem_cons_of_mem _ (List.mem_cons_self ..), ⟨⟨_, _, _, rfl⟩, by decide, by decide, by decide⟩, ?_⟩
      exact ⟨Nat.zero_le p, h⟩
    · refine ⟨_, List.mem_cons_self .., ⟨⟨_, _, _, rfl⟩, by decide, by decide, by decide⟩, ?_⟩
      simp only [List.length_cons, List.length_nil] at hp
      show 2 ≤ p ∧ p < 2 + 3
      omega
  count := by decide
  pgns h := absurd h (by decide)

theorem string_read_back_latin :
    getBlob (commitConfig build179 (Mealy.run (stage build179)
      (beginProfileConfig build179 (after build179 250 []) 0 1 profileIdCustom).1 latinCalls).1
        fun _ => 0).1.store viIndex = some [0x41, 0x42, 0x43, 0x44] :=
  ((string_read_back ⟨build179, by decide⟩ 250).1 [] 0 profileIdCustom [0x41, 0x42, 0x43, 0x44]
    latinCalls (fun _ => 0) (by decide +kernel) ⟨by decide, by decide, by decide +kernel⟩
    (latinCalls_delivers _)).2.2.1

end J1939Gen.Generator
