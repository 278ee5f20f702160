import J1939Gen.Persistence.Loading
import J1939Gen.Storage.Stored

/-!
# A saved configuration loads

What one device saves, the same build loads: the staging API admits every
configuration that was active, whatever was staged before.

* `Fitting`: what an active configuration satisfies, and all a load asks for.
* `stage_fitting`: every staging call of a fitting configuration is accepted.
* `save_active`: a save of an active configuration stores it.
* `load_stored`: a load of a stored, fitting configuration activates it.
-/

namespace J1939Gen.Persistence

open Bitmask ByteMem ValueStore Storage Generator

/-! ## Profiles and stored images -/

/-- The counts in the profile table are those of the key sets. -/
theorem profile_counts : ∀ p ∈ customerProfiles, p.records.card = p.signalCount.toNat ∧
    (p.records.image fun i => (signalAt i).pgnIndex).card = p.pgnCount.toNat := by
  decide +kernel

theorem profile_counts_of_find {profileId : UInt8} {p : CustomerProfile}
    (h : customerProfileFind profileId = some p) : p.records.card = p.signalCount.toNat ∧
      (p.records.image fun i => (signalAt i).pgnIndex).card = p.pgnCount.toNat :=
  profile_counts p (List.mem_of_find?_eq_some h)

/-- A configuration this build admits, under the profile it names. -/
structure Fitting (B : Build) (profileId : UInt8) (c : Contents) : Prop where
  wf : WfRecords c.records
  contents : contentsOf c.records = c
  signalCapacity : c.count ≤ B.signalCapacity
  pgnCapacity : c.pgns.card ≤ B.pgnCapacity
  locked : Locked profileId c

theorem Holds.records {store : Store} {c : Contents} (h : Holds store c) :
    WfRecords c.records ∧ contentsOf c.records = c := by
  have hwf := h.wf.wfRecords
  rw [h.view] at hwf
  refine ⟨hwf, contentsOf_records fun i hi => h.wf.lt ?_⟩
  by_contra ht
  rw [← h.view, h.wf.view_eq, if_neg ht] at hi
  exact hi rfl

/-- The active configuration fits. -/
theorem Inv.fitting {B : Build} {g : Gen} {c : Contents} (h : Inv B g c) :
    Fitting B g.activeProfileId c :=
  ⟨(Holds.records h.active.holds).1, (Holds.records h.active.holds).2, h.active.signalCapacity,
    h.active.pgnCapacity, h.locked⟩

section Fitting

variable {B : Build} {profileId : UInt8} {c : Contents}

theorem Fitting.length (h : Fitting B profileId c) : c.records.length = c.count := by
  have hs := scalars_contentsOf h.wf
  have hb := blobs_contentsOf h.wf
  rw [h.contents] at hs hb
  rw [← scalarsOf_add_blobsOf, ← hs, ← hb, Contents.scalars_add_blobs]

theorem Fitting.fitsProfile (h : Fitting B profileId c) : FitsProfile profileId c.records := by
  rcases h.locked with hc | ⟨p, hp, hactive⟩
  · exact .inl hc
  refine .inr ⟨p, hp, ?_, fun i hi => ?_⟩
  · rw [h.length, Contents.count_eq, hactive, (profile_counts_of_find hp).1]
  · have hrec : (∃ r ∈ c.records, r.1 = i) ↔ i ∈ c.active := by
      rw [← h.contents, active_contentsOf h.wf, List.mem_toFinset, List.mem_map, h.contents]
    rw [hrec, hactive, CustomerProfile.records, Finset.mem_filter, Finset.mem_range]
    exact and_iff_right hi

/-- The begin of a load is accepted. -/
theorem Fitting.begin_ok (h : Fitting B profileId c) {g : Gen} (hr : g.isRunning = false)
    (hi : g.config.state = .idle) (hs : g.store.txnState = .idle) (hwf : g.store.active.Wf) :
    (beginProfileConfig B g (UInt16.ofNat c.scalars) (UInt8.ofNat c.blobs) profileId).2 = .ok := by
  have hcount : c.count ≤ 179 := c.count_le
  have hsum := c.scalars_add_blobs
  have hblobs := Contents.blobs_le c
  have hstatus : profileStatus B (UInt16.ofNat c.scalars) (UInt8.ofNat c.blobs) profileId = .ok := by
    unfold profileStatus
    rcases h.locked with hc | ⟨p, hp, hactive⟩
    · rw [if_pos hc]
    · by_cases hc : profileId = profileIdCustom
      · rw [if_pos hc]
      obtain ⟨h1, h2⟩ := profile_counts_of_find hp
      have hcounts : (UInt16.ofNat c.scalars, UInt8.ofNat c.blobs) = profileRecordCounts p := by
        rw [profileRecordCounts_eq, ← hactive]
        rfl
      have hsig := h.signalCapacity
      have hpgn := h.pgnCapacity
      rw [Contents.count_eq, hactive, h1] at hsig
      rw [Contents.pgns, hactive, h2] at hpgn
      rw [if_neg hc, hp]
      dsimp only
      rw [if_neg (by simp [hcounts]), if_neg (by omega)]
  have hsize : (UInt16.ofNat c.scalars + (UInt8.ofNat c.blobs).toUInt16).toNat = c.count := by
    rw [UInt16.toNat_add, UInt16.toNat_ofNat', UInt8.toNat_toUInt16, UInt8.toNat_ofNat']
    omega
  have hfew : ¬ UInt8.ofNat c.blobs > maxBlobRecords := by
    rw [gt_iff_lt, UInt8.lt_iff_toNat_lt, UInt8.toNat_ofNat']
    simp only [maxBlobRecords, UInt8.reduceToNat]
    omega
  have hcap := h.signalCapacity
  unfold beginProfileConfig
  rw [if_neg (by simp [hr]), if_neg (by simp [hi]), if_neg (by simp [hstatus]), if_neg (by
    rw [hsize]
    rintro (h1 | h1)
    · exact hfew h1
    · omega)]
  dsimp only
  rw [if_neg (by simp [(begin_draft hs hwf .empty).1])]

/-! ## Staging a fitting configuration -/

/-- A draft on the way to `c`: its records are records of `c`, and a blob it has
    begun is as long as the one of `c`. -/
structure Toward (c : Contents) (d : Draft) : Prop where
  keys : d.contents.active ⊆ c.active
  blob : d.written ≠ none → ∀ i < signalCount, isBlob i = true → ∃ old data,
    d.contents i = some (.blob old) ∧ c i = some (.blob data) ∧ old.length = data.length

theorem Toward.start (c : Contents) : Toward c ⟨Contents.empty, none⟩ where
  keys := by
    rw [Contents.active_empty]
    exact Finset.empty_subset _
  blob h := absurd rfl h

/-- A record of `c` is admitted to a draft on the way to `c`. -/
theorem Fitting.admit (h : Fitting B profileId c) {g : Gen} {d : Draft} (hd : Drafted B g d)
    (ht : Toward c d) {i : ℕ} (hi : i ∈ c.active) : g.config.admit B i = .ok :=
  hd.admit_of_subset ht.keys h.signalCapacity h.pgnCapacity hi (Contents.mem_active.mp hi).1

theorem Fitting.allows (h : Fitting B profileId c) {config : Config}
    (hp : config.profileId = profileId) {i : ℕ} (hi : i ∈ c.active) :
    config.profileAllows i = true := by
  unfold Config.profileAllows
  rw [hp]
  rcases h.locked with hc | ⟨p, hfind, hactive⟩
  · rw [if_pos hc]
  · by_cases hc : profileId = profileIdCustom
    · rw [if_pos hc]
    rw [if_neg hc, hfind]
    rw [hactive] at hi
    exact (Finset.mem_filter.mp hi).2

theorem mem_active_of_record {r : Record} (hr : r ∈ c.records) : r.1 ∈ c.active := by
  obtain ⟨hlt, he⟩ := mem_records.mp hr
  rw [Contents.mem_active, he]
  exact ⟨hlt, rfl⟩

/-- Every staging call of a fitting configuration is accepted. -/
theorem Fitting.stage_ok (h : Fitting B profileId c) {g : Gen} {d : Draft} (hd : Drafted B g d)
    (ht : Toward c d) (hp : g.config.profileId = profileId) {call : StageCall}
    (hcall : call ∈ loadCalls c.records) :
    (stage B g call).2 = .ok ∧ Toward c (d.apply call.write) := by
  obtain ⟨r, hr, hmem⟩ := mem_loadCalls.mp hcall
  have hi := mem_active_of_record hr
  have hlt := (Contents.mem_active.mp hi).1
  have hvalid := h.wf.valid r hr
  obtain ⟨-, hentry⟩ := mem_records.mp hr
  have hadmit := h.admit hd ht hi
  have hallows := h.allows hp hi
  have hsub : ∀ e, (d.contents.set r.1 e).active ⊆ c.active := by
    intro e
    rw [Contents.active_set hlt]
    exact Finset.insert_subset hi ht.keys
  obtain ⟨i, raw | data⟩ := r
  · obtain rfl := List.mem_singleton.mp hmem
    obtain ⟨hok, happly⟩ := hd.scalar_ok hlt hvalid.2 hallows hadmit
    rw [happly]
    refine ⟨hok, hsub _, fun hw j hj hbj => ?_⟩
    obtain ⟨old, data, h1, h2, h3⟩ := ht.blob hw j hj hbj
    refine ⟨old, data, ?_, h2, h3⟩
    dsimp only
    rw [Contents.set, Function.update_of_ne, h1]
    rintro rfl
    rw [(checkIndex_ok_iff.mp hvalid.2).1] at hbj
    cases hbj
  · obtain ⟨offset, ho, rfl⟩ := List.mem_map.mp hmem
    dsimp only at hi hlt hentry hadmit hallows hsub
    obtain ⟨-, h256⟩ := blob_length h.wf hr
    obtain ⟨htotal, hoff, hdata⟩ := chunk_isWindow h256 ho (signalAt i).signalKey
    have hold : d.written ≠ none →
        ∃ old, d.contents i = some (.blob old) ∧ old.length = data.length := by
      intro hw
      obtain ⟨old, data', h1, h2, h3⟩ := ht.blob hw i hlt hvalid.2.1
      rw [hentry, Option.some.injEq, Entry.blob.injEq] at h2
      exact ⟨old, h1, by rw [h3, h2]⟩
    obtain ⟨hok, new, hcontents, hlength⟩ := hd.window_ok hlt hvalid.2.1 hallows hadmit
      hvalid.2.2.2 htotal hoff hdata hold false
    refine ⟨?_, ?_, fun _ j hj hbj => ?_⟩
    · unfold stage
      dsimp only
      rw [if_neg (by simp), hok]
    · rw [hcontents]
      exact hsub _
    · obtain rfl : j = i := by rw [(isBlob_iff hj).mp hbj, (isBlob_iff hlt).mp hvalid.2.1]
      refine ⟨new, data, ?_, hentry, hlength⟩
      rw [hcontents]
      exact Function.update_self _ _ _

/-- All of them, one after another. -/
theorem Fitting.run_ok (h : Fitting B profileId c) {g : Gen} {d : Draft} (hd : Drafted B g d)
    (ht : Toward c d) (hp : g.config.profileId = profileId) {calls : List StageCall}
    (hcalls : ∀ call ∈ calls, call ∈ loadCalls c.records) :
    ∀ s ∈ (Mealy.run (stage B) g calls).2, s = .ok := by
  refine run_stage_ok hd ht fun call hcall g' d' hd' hsame ht' => ?_
  exact h.stage_ok hd' ht' (hsame.trans hp) (hcalls call hcall)

end Fitting

/-! ## Save and load -/

/-- The autostart flag a save keeps. -/
def autostartOf : Except Storage.Status Info → Bool
  | .ok info => info.flags &&& flagAutostart ≠ 0
  | .error _ => false

section Calls

variable {B : Build} {a : App} {c : Contents}

/-- **Save.** An active configuration is stored when every flash operation
    succeeds; the generator is only read. -/
theorem save_active (h : Inv B a.gen c) (hm : a.canMutate = true) (hpos : 0 < c.count)
    (hd : a.memory.flash.left = none) (hread : (openLatest a.memory).2 ≠ .error .flashError) :
    let info := savedInfo a.gen.store a.gen.activeProfileId (a.gen.baudKbps * 1000)
      (autostartOf (openLatest a.memory).2) (nextPlace (openLatest a.memory).2)
    (save a).2 = .ok info ∧ (save a).1.gen = a.gen ∧ Stored (save a).1.memory info c.records := by
  intro info
  have hholds := h.active.holds
  have hview : a.gen.store.active.view.records = c.records := by rw [hholds.view]
  have hne : a.gen.store.active.view.records ≠ [] := by
    intro hnil
    have hlen := (Inv.fitting h).length
    rw [← hview, hnil, List.length_nil] at hlen
    omega
  have hflash := openLatest_flash a.memory
  have hsame := openLatest_congr hflash
  obtain ⟨hok, hstored⟩ := save_stored (s := (openLatest a.memory).1)
    ⟨hholds.wf, by rw [hholds.view]; exact hholds.crc⟩ hne a.gen.activeProfileId
    (by rw [hview]; exact (Inv.fitting h).fitsProfile) (by rw [hflash]; exact hd)
    (by rw [hsame]; exact hread) (a.gen.baudKbps * 1000) (autostartOf (openLatest a.memory).2)
  rw [hsame] at hok hstored
  rw [hview] at hstored
  have hcount : UInt16.ofNat (Scheduler.getSignalCount a.gen.store) =
      getActiveCount a.gen.store := by
    rw [getSignalCount_eq hholds]
    exact hholds.count.symm
  have hsig : ¬ (a.canMutate = false ∨ hasConfiguredSignals a.gen = false) := by
    simp [hm, hasConfiguredSignals, getSignalCount_eq hholds, hpos]
  unfold save
  rw [if_neg hsig, if_neg (by simp [hcount])]
  change (mapResult (Storage.save (openLatest a.memory).1 a.gen.store a.gen.activeProfileId
      (a.gen.baudKbps * 1000) (autostartOf (openLatest a.memory).2)).2 = _ ∧ _ ∧
    Stored (Storage.save (openLatest a.memory).1 a.gen.store a.gen.activeProfileId
      (a.gen.baudKbps * 1000) (autostartOf (openLatest a.memory).2)).1 info c.records)
  rw [hok]
  exact ⟨rfl, rfl, hstored⟩

/-- A save without an active configuration, or while the generator runs or a
    transaction is open, is refused. -/
theorem save_refused (h : Inv B a.gen c) (hn : a.canMutate = false ∨ c.count = 0) :
    (save a).2 = .error .invalidState ∧ (save a).1 = { a with lastStatus := .invalidState } := by
  have hsig : a.canMutate = false ∨ hasConfiguredSignals a.gen = false := by
    refine hn.imp_right fun h0 => ?_
    rw [hasConfiguredSignals, getSignalCount_eq h.active.holds, h0]
    rfl
  unfold save
  rw [if_pos hsig]
  exact ⟨rfl, rfl⟩

/-- **Load.** A stored configuration that fits is activated. -/
theorem load_stored {c₀ : Contents} {info : Info} (h : Inv B a.gen c₀) (hm : a.canMutate = true)
    (hs : Stored a.memory info c.records) (hf : Fitting B info.profileId c) (clock : ℕ → UInt32) :
    ∃ report, (load B a clock).2 = .ok report ∧ (load B a clock).1.memory.flash = a.memory.flash ∧
      Loaded B a.gen (load B a clock).1.gen info c.records report := by
  obtain ⟨hrun, hidle⟩ := canMutate_iff.mp hm
  have hcar := hs.latest.valid.sealed.carries
  have hscalars : info.scalarCount = UInt16.ofNat c.scalars := by
    have hcount := scalars_contentsOf hf.wf
    rw [hf.contents] at hcount
    rw [hcount, ← hcar.scalarCount, UInt16.ofNat_toNat]
    exact congrArg Info.scalarCount hs.info.symm
  have hblobs : info.blobCount = UInt8.ofNat c.blobs := by
    have hcount := blobs_contentsOf hf.wf
    rw [hf.contents] at hcount
    rw [hcount, ← hcar.blobCount, UInt8.ofNat_toNat]
    exact congrArg Info.blobCount hs.info.symm
  have hbegin := hf.begin_ok hrun hidle (h.txn.storeIdle hidle) h.active.holds.wf
  rw [← hscalars, ← hblobs] at hbegin
  obtain ⟨s', ⟨hflash, -⟩, hopen⟩ := hs.openLatest
  rcases beginProfileConfig_cases h info.scalarCount info.blobCount info.profileId with
    ⟨hne, -⟩ | ⟨hok, hb⟩
  · exact absurd hbegin hne
  obtain ⟨hinv, -⟩ := h.beginProfileConfig info.scalarCount info.blobCount info.profileId
  unfold load
  rw [if_neg (by simp [hm]), hopen]
  dsimp only
  rw [if_neg (by simp [hok])]
  obtain ⟨h1, h2⟩ := applyLatest_spec (a := { a with
    gen := (beginProfileConfig B a.gen info.scalarCount info.blobCount info.profileId).1
    memory := s' }) hinv hflash hs.latest hs.info hb clock
  rcases h2 with ⟨e, -, -, hrefused, -⟩ | ⟨report, hr, hloaded⟩
  · -- no record is refused
    rw [visitAll_loadRecord B rfl, foldl_stageCall hb.drafted] at hrefused
    have hall := hf.run_ok hb.drafted (Toward.start c) hb.profileId (fun _ hc => hc)
    exact absurd hall (of_decide_eq_false hrefused)
  · exact ⟨report, hr, h1, hloaded⟩

end Calls

end J1939Gen.Persistence
