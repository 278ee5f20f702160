import J1939Gen.Persistence.Model
import J1939Gen.Generator.Delivery
import J1939Gen.Storage.Latest

/-!
# What a load leaves

A load stages the records of the latest image in one transaction. It ends with
exactly these records active, or with the active side untouched; the exits after
the swap of the banks are never taken.

* `visitAll_loadRecord`: the visitors make the staging calls of the records.
* `lastStaged_loadCalls`: what these calls stage is the stored configuration.
* `load_spec`: the two outcomes of a load.
-/

namespace J1939Gen

open ByteMem ValueStore

/-! ## Counting the records of a list -/

namespace Generator

theorem active_contentsOf {l : List Record} (h : WfRecords l) :
    (contentsOf l).active = (l.map Prod.fst).toFinset := by
  ext i
  rw [Contents.mem_active, List.mem_toFinset, List.mem_map]
  constructor
  · rintro ⟨-, hs⟩
    obtain ⟨e, he⟩ := Option.isSome_iff_exists.mp hs
    exact ⟨(i, e), (contentsOf_eq_some h.ascending).mp he, rfl⟩
  · rintro ⟨r, hr, rfl⟩
    refine ⟨(h.valid r hr).lt, ?_⟩
    rw [(contentsOf_eq_some h.ascending).mpr (show (r.1, r.2) ∈ l from hr)]
    rfl

/-- Records of one kind are counted by the list and by the configuration. -/
theorem card_contentsOf {l : List Record} (h : WfRecords l) (b : Bool) :
    ((contentsOf l).active.filter fun i => isBlob i = b).card =
      l.countP fun r => r.isBlob == b := by
  have hfilter : (contentsOf l).active.filter (fun i => isBlob i = b) =
      ((l.filter fun r => r.isBlob == b).map Prod.fst).toFinset := by
    rw [active_contentsOf h]
    ext i
    simp only [Finset.mem_filter, List.mem_toFinset, List.mem_map, List.mem_filter, beq_iff_eq]
    constructor
    · rintro ⟨⟨r, hr, rfl⟩, hb⟩
      exact ⟨r, ⟨hr, (h.valid r hr).isBlob_eq.symm.trans hb⟩, rfl⟩
    · rintro ⟨r, ⟨hr, hb⟩, rfl⟩
      exact ⟨⟨r, hr, rfl⟩, (h.valid r hr).isBlob_eq.trans hb⟩
  have hnodup : ((l.filter fun r => r.isBlob == b).map Prod.fst).Nodup := by
    apply List.Pairwise.map Prod.fst _ (h.ascending.filter _)
    intro r r' hlt
    exact Nat.ne_of_lt hlt
  rw [hfilter, List.toFinset_card_of_nodup hnodup, List.length_map, List.countP_eq_length_filter]

theorem scalars_contentsOf {l : List Record} (h : WfRecords l) :
    (contentsOf l).scalars = scalarsOf l := by
  rw [Contents.scalars, card_contentsOf h, scalarsOf]
  exact List.countP_congr fun r _ => by cases r.isBlob <;> simp

theorem blobs_contentsOf {l : List Record} (h : WfRecords l) :
    (contentsOf l).blobs = blobsOf l := by
  rw [Contents.blobs, card_contentsOf h, blobsOf]
  exact List.countP_congr fun r _ => by cases r.isBlob <;> simp

end Generator

namespace Persistence

open Storage Generator

/-! ## The staging calls of a load -/

/-- The staging calls of one record. -/
def recordCalls (r : Record) : List StageCall :=
  match r.2 with
  | .scalar raw => [.scalar (signalAt r.1).signalKey raw]
  | .blob data => (chunkOffsets data.length).map fun offset =>
      .chunk false (signalAt r.1).signalKey (UInt8.ofNat data.length) (UInt8.ofNat offset)
        (some fun k => data.getD (offset + k) 0)

/-- The staging calls of a list of records. -/
def loadCalls (l : List Record) : List StageCall := l.flatMap recordCalls

/-- One staging call of a load; after a refused one the rest is left out. -/
def stageCall (B : Build) (c : LoadContext) (call : StageCall) : LoadContext :=
  if c.ok = false then c
  else ⟨(stage B c.gen call).1, if (stage B c.gen call).2 ≠ .ok then false else c.ok⟩

theorem foldl_stageCall_refused (B : Build) {c : LoadContext} (h : c.ok = false)
    (calls : List StageCall) : calls.foldl (stageCall B) c = c := by
  induction calls with
  | nil => rfl
  | cons call calls ih =>
    rw [List.foldl_cons, stageCall, if_pos h]
    exact ih

theorem visitRecord_loadRecord (B : Build) {c : LoadContext} (h : c.ok = true) (r : Record) :
    visitRecord (loadRecord B) c r =
      ((recordCalls r).foldl (stageCall B) c, ((recordCalls r).foldl (stageCall B) c).ok) := by
  have hfold : (match r.2 with
      | .scalar raw => loadScalar B c (signalAt r.1).signalKey raw
      | .blob data => loadBlob B c (signalAt r.1).signalKey data) =
      (recordCalls r).foldl (stageCall B) c := by
    obtain ⟨i, raw | data⟩ := r
    · simp only [recordCalls, List.foldl_cons, List.foldl_nil, stageCall, if_neg (h ▸ by simp :
        ¬ c.ok = false)]
      rfl
    · simp only [recordCalls, List.foldl_map, loadBlob]
      rfl
  rw [← hfold]
  rfl

/-- The visitors of a load make the staging calls of the records. -/
theorem visitAll_loadRecord (B : Build) {c : LoadContext} (h : c.ok = true) (l : List Record) :
    visitAll (loadRecord B) c l =
      ((loadCalls l).foldl (stageCall B) c, ((loadCalls l).foldl (stageCall B) c).ok) := by
  induction l generalizing c with
  | nil => simp [visitAll, loadCalls, h]
  | cons r l ih =>
    rw [visitAll, visitRecord_loadRecord B h, loadCalls, List.flatMap_cons, List.foldl_append,
      ← loadCalls]
    dsimp only
    cases hok : ((recordCalls r).foldl (stageCall B) c).ok with
    | true => rw [if_pos rfl, ih hok]
    | false => rw [if_neg (by simp), foldl_stageCall_refused B hok, hok]

/-- Stopping at the first refused call ends like making all the calls. -/
theorem foldl_stageCall {B : Build} {g : Gen} {d : Draft} (h : Drafted B g d)
    (calls : List StageCall) :
    calls.foldl (stageCall B) ⟨g, true⟩ = ⟨(Mealy.run (stage B) g calls).1,
      decide (∀ s ∈ (Mealy.run (stage B) g calls).2, s = .ok)⟩ := by
  induction calls generalizing g d with
  | nil => simp
  | cons call calls ih =>
    rw [List.foldl_cons, stageCall, if_neg (by simp), Mealy.run_cons]
    dsimp only
    rcases stage_opened h call with ⟨hne, hrej⟩ | ⟨hok, -, hd, -⟩
    · rw [if_pos hne, foldl_stageCall_refused B rfl, run_stage_closed (by rw [hrej]; simp)]
      simp [hne]
    · rw [if_neg (by simp [hok]), ih hd]
      simp [hok]

/-! ## What the calls stage -/

section LoadCalls

variable {l : List Record}

theorem mem_loadCalls {call : StageCall} :
    call ∈ loadCalls l ↔ ∃ r ∈ l, call ∈ recordCalls r := by
  rw [loadCalls, List.mem_flatMap]

theorem getLast?_filterMap_of_none {α β : Type} {f : α → Option β} {l : List α}
    (h : ∀ a ∈ l, f a = none) : (l.filterMap f).getLast? = none := by
  rw [List.getLast?_eq_none_iff, List.filterMap_eq_nil_iff]
  exact h

theorem mem_chunkOffsets {n offset : ℕ} :
    offset ∈ chunkOffsets n ↔ offset % 3 = 0 ∧ offset < n := by
  rw [chunkOffsets, List.mem_map]
  constructor
  · rintro ⟨k, hk, rfl⟩
    have := List.mem_range.mp hk
    omega
  · rintro ⟨h3, hlt⟩
    exact ⟨offset / 3, List.mem_range.mpr (by omega), by omega⟩

/-- The raw value staged for a scalar key is the one of its record. -/
theorem lastRaw_loadCalls (h : WfRecords l) {i : ℕ} (hi : i < signalCount)
    (hb : isBlob i = false) :
    (lastRaw (loadCalls l) (signalAt i).signalKey).map Entry.scalar = contentsOf l i := by
  have hcall : ∀ call ∈ loadCalls l, ∀ raw, call.rawFor (signalAt i).signalKey = some raw →
      contentsOf l i = some (.scalar raw) := by
    intro call hcall raw hraw
    obtain ⟨⟨j, raw' | data⟩, hr, hmem⟩ := mem_loadCalls.mp hcall
    · obtain rfl := List.mem_singleton.mp hmem
      simp only [StageCall.rawFor, Option.ite_none_right_eq_some, Option.some.injEq] at hraw
      obtain ⟨hk, rfl⟩ := hraw
      have hj := indexFromKey_signalKey (h.valid _ hr).lt
      rw [hk, indexFromKey_signalKey hi, Option.some.injEq] at hj
      subst hj
      exact (contentsOf_eq_some h.ascending).mpr hr
    · obtain ⟨offset, -, rfl⟩ := List.mem_map.mp hmem
      cases hraw
  cases hc : contentsOf l i with
  | none =>
    rw [lastRaw, getLast?_filterMap_of_none]
    · rfl
    · intro call hmem
      by_contra hne
      obtain ⟨raw, hraw⟩ := Option.ne_none_iff_exists'.mp hne
      rw [hcall call hmem raw hraw] at hc
      cases hc
  | some e =>
    have hr := (contentsOf_eq_some h.ascending).mp hc
    obtain raw | data := e
    · rw [lastRaw, getLast?_filterMap_of_forall (b := raw)]
      · rfl
      · intro call hmem raw' hraw
        rw [hcall call hmem raw' hraw] at hc
        injection hc with hc
        injection hc
      · refine ⟨.scalar (signalAt i).signalKey raw, mem_loadCalls.mpr ⟨_, hr, ?_⟩, if_pos rfl⟩
        exact List.mem_singleton.mpr rfl
    · have := (h.valid _ hr).isBlob_eq
      rw [hb] at this
      cases this

/-- A call for a blob key is a chunk of the blob's record. -/
theorem blob_call (h : WfRecords l) {i : ℕ} (hi : i < signalCount) {call : StageCall}
    (hcall : call ∈ loadCalls l) (hk : call.blobKey = some (signalAt i).signalKey) :
    ∃ data offset, (i, .blob data) ∈ l ∧ offset ∈ chunkOffsets data.length ∧
      call = .chunk false (signalAt i).signalKey (UInt8.ofNat data.length) (UInt8.ofNat offset)
        (some fun k => data.getD (offset + k) 0) := by
  obtain ⟨⟨j, raw | data⟩, hr, hmem⟩ := mem_loadCalls.mp hcall
  · obtain rfl := List.mem_singleton.mp hmem
    cases hk
  · obtain ⟨offset, ho, rfl⟩ := List.mem_map.mp hmem
    injection hk with hk
    have hj := indexFromKey_signalKey (h.valid _ hr).lt
    dsimp only at hj hk
    rw [hk, indexFromKey_signalKey hi, Option.some.injEq] at hj
    subst hj
    exact ⟨data, offset, hr, ho, rfl⟩

theorem blob_length (h : WfRecords l) {i : ℕ} {data : List UInt8} (hr : (i, .blob data) ∈ l) :
    0 < data.length ∧ data.length < 256 := by
  obtain ⟨-, -, hpos, hcap⟩ := h.valid _ hr
  have := blobCapacity_le i
  simp only [maxPayloadBytes] at this
  exact ⟨hpos, by omega⟩

/-- The chunks of a load are windows of the blob, and cover it. -/
theorem chunk_isWindow {data : List UInt8} (hlt : data.length < 256) {offset : ℕ}
    (ho : offset ∈ chunkOffsets data.length) (key : UInt16) :
    (StageCall.chunk false key (UInt8.ofNat data.length) (UInt8.ofNat offset)
      (some fun k => data.getD (offset + k) 0)).IsWindow data := by
  have hoff := (mem_chunkOffsets.mp ho).2
  have hmod : (UInt8.ofNat offset).toNat = offset := by
    rw [UInt8.toNat_ofNat', Nat.mod_eq_of_lt (by omega)]
  refine ⟨?_, ?_, fun k _ => ?_⟩
  · rw [UInt8.toNat_ofNat', Nat.mod_eq_of_lt hlt]
  · rw [hmod]
    exact hoff
  · rw [hmod]

/-- The blob staged for a blob key is the one of its record. -/
theorem lastBlob_loadCalls (h : WfRecords l) {i : ℕ} (hi : i < signalCount) :
    (∀ data, contentsOf l i = some (.blob data) →
      lastTotal (loadCalls l) (signalAt i).signalKey = some (UInt8.ofNat data.length) ∧
        ∀ p < data.length, lastByte (loadCalls l) (signalAt i).signalKey p = some (data.getD p 0)) ∧
    (contentsOf l i = none → lastTotal (loadCalls l) (signalAt i).signalKey = none) := by
  constructor
  · intro data hc
    have hr := (contentsOf_eq_some h.ascending).mp hc
    obtain ⟨hpos, hlt⟩ := blob_length h hr
    have hmem : ∀ offset ∈ chunkOffsets data.length, StageCall.chunk false (signalAt i).signalKey
        (UInt8.ofNat data.length) (UInt8.ofNat offset) (some fun k => data.getD (offset + k) 0) ∈
          loadCalls l := fun offset ho => mem_loadCalls.mpr ⟨_, hr, List.mem_map.mpr ⟨_, ho, rfl⟩⟩
    have hwindows : ∀ call ∈ loadCalls l, call.blobKey = some (signalAt i).signalKey →
        call.IsWindow data := by
      intro call hcall hkey
      obtain ⟨data', offset, hr', ho, rfl⟩ := blob_call h hi hcall hkey
      obtain rfl : data' = data := by
        have hc' := (contentsOf_eq_some h.ascending).mpr hr'
        rw [hc, Option.some.injEq] at hc'
        exact (Entry.blob.inj hc').symm
      exact chunk_isWindow hlt ho _
    constructor
    · exact lastTotal_of_windows hwindows ⟨_, hmem 0 (mem_chunkOffsets.mpr ⟨rfl, hpos⟩), rfl⟩
    · intro p hp
      have ho : 3 * (p / 3) ∈ chunkOffsets data.length :=
        mem_chunkOffsets.mpr ⟨by omega, by omega⟩
      refine lastByte_of_windows hwindows hp ⟨_, hmem _ ho, rfl, ?_⟩
      show (UInt8.ofNat (3 * (p / 3))).toNat ≤ p ∧ p < (UInt8.ofNat (3 * (p / 3))).toNat + 3
      rw [UInt8.toNat_ofNat', Nat.mod_eq_of_lt (by omega)]
      omega
  · intro hc
    refine getLast?_filterMap_of_none fun call hcall => ?_
    cases call with
    | scalar => rfl
    | chunk text k total offset mem =>
      by_cases hk : k = (signalAt i).signalKey
      · obtain ⟨data, -, hr, -, -⟩ := blob_call h hi hcall (congrArg some hk)
        rw [(contentsOf_eq_some h.ascending).mpr hr] at hc
        cases hc
      · exact if_neg hk

/-- **The calls of a load stage the stored configuration.** -/
theorem lastStaged_loadCalls (h : WfRecords l) : lastStaged (loadCalls l) = contentsOf l := by
  funext i
  unfold lastStaged
  by_cases hi : i < signalCount
  swap
  · rw [if_neg hi]
    cases hc : contentsOf l i with
    | none => rfl
    | some e => exact absurd (h.valid _ ((contentsOf_eq_some h.ascending).mp hc)).lt hi
  rw [if_pos hi]
  cases hb : isBlob i with
  | false =>
    rw [if_neg (by simp)]
    exact lastRaw_loadCalls h hi hb
  | true =>
    rw [if_pos rfl]
    obtain ⟨hsome, hnone⟩ := lastBlob_loadCalls h hi
    cases hc : contentsOf l i with
    | none => rw [hnone hc]; rfl
    | some e =>
      have hr := (contentsOf_eq_some h.ascending).mp hc
      obtain raw | data := e
      · have := (h.valid _ hr).isBlob_eq
        rw [hb] at this
        cases this
      · obtain ⟨htotal, hbyte⟩ := hsome data hc
        obtain ⟨-, hlt⟩ := blob_length h hr
        rw [htotal, Option.map_some, UInt8.toNat_ofNat', Nat.mod_eq_of_lt hlt]
        refine congrArg (fun x => some (Entry.blob x)) (List.ext_getElem (by simp) ?_)
        intro p h1 h2
        rw [List.getElem_map, List.getElem_range, hbyte p h2, Option.getD_some,
          List.getD_eq_getElem _ _ h2]

/-- They stage every byte of the blob. -/
theorem blobStaged_loadCalls (h : WfRecords l) : BlobStaged (loadCalls l) := by
  intro key total ht p hp
  have hmem := List.mem_of_getLast? ht
  obtain ⟨call, hcall, hk⟩ := List.mem_filterMap.mp hmem
  obtain ⟨⟨i, raw | data⟩, hr, hm⟩ := mem_loadCalls.mp hcall
  · obtain rfl := List.mem_singleton.mp hm
    cases hk
  · obtain ⟨offset, -, rfl⟩ := List.mem_map.mp hm
    simp only [StageCall.totalFor, Option.ite_none_right_eq_some] at hk
    obtain ⟨rfl, -⟩ := hk
    obtain ⟨-, hlt⟩ := blob_length h hr
    obtain ⟨htotal, hbyte⟩ := (lastBlob_loadCalls h (h.valid _ hr).lt).1
      data ((contentsOf_eq_some h.ascending).mpr hr)
    rw [htotal, Option.some.injEq] at ht
    rw [← ht, UInt8.toNat_ofNat', Nat.mod_eq_of_lt hlt] at hp
    rw [hbyte p hp]
    rfl

end LoadCalls

/-! ## One load -/

/-- Staging calls leave the active side as it is. -/
theorem run_stage_untouched {B : Build} {g : Gen} {c : Contents} (h : Inv B g c)
    (calls : List StageCall) :
    Inv B (Mealy.run (stage B) g calls).1 c ∧ Untouched g (Mealy.run (stage B) g calls).1 := by
  have hcall : ∀ {g : Gen}, Inv B g c → ∀ call : StageCall, Untouched g (stage B g call).1 := by
    intro g h call
    cases call with
    | scalar key raw => exact (h.stageConstantRaw key raw).2
    | chunk text key total offset data =>
      unfold stage
      dsimp only
      by_cases ht : text = true
      · rw [if_pos ht]
        exact (h.stageStringChunk key total offset data).2
      · rw [if_neg ht]
        exact (h.stageBlobChunk key total offset data).2
  induction calls generalizing g with
  | nil => exact ⟨h, .refl g⟩
  | cons call calls ih =>
    obtain ⟨h1, h2⟩ := ih (h.stage call)
    exact ⟨h1, (hcall h call).trans h2⟩

/-- The visit of a load and its commit, on an open transaction: the records are
    applied, or one of them is refused and the transaction is abandoned. -/
theorem visit_spec {B : Build} {g : Gen} {c : Contents} {l : List Record} {info : Info}
    (h : Inv B g c) (hd : Drafted B g ⟨Contents.empty, none⟩) (hl : WfRecords l)
    (hn : info.scalarCount.toNat = scalarsOf l) (hm : info.blobCount.toNat = blobsOf l)
    (hgn : g.config.expectedCount = info.scalarCount)
    (hgm : g.config.expectedBlobCount = info.blobCount) :
    ∃ g' ok, visitAll (loadRecord B) ⟨g, true⟩ l = (⟨g', ok⟩, ok) ∧ Inv B g' c ∧ Untouched g g' ∧
      (ok = true → g'.config.profileId = g.config.profileId ∧ ∀ clock, ∃ g'',
        commitConfig B g' clock = (g'', .ok, ⟨g''.store.generation,
          UInt16.ofNat (contentsOf l).count, UInt8.ofNat (contentsOf l).pgns.card⟩) ∧
        Committed B g' g'' (contentsOf l)) := by
  obtain ⟨hinv, hu⟩ := run_stage_untouched h (loadCalls l)
  refine ⟨(Mealy.run (stage B) g (loadCalls l)).1,
    decide (∀ s ∈ (Mealy.run (stage B) g (loadCalls l)).2, s = .ok), ?_, hinv, hu, fun hok => ?_⟩
  · rw [visitAll_loadRecord B rfl, foldl_stageCall hd]
  · rcases run_stage hd represents_nil (loadCalls l) with ⟨-, d', hd', hr', ht⟩ | ⟨hsome, -⟩
    · rw [List.nil_append] at hr'
      have hcont : d'.contents = contentsOf l := hr'.contents.trans (lastStaged_loadCalls hl)
      obtain ⟨hsc, hbc⟩ := hr'.card_keys
      have hcommits := (hd'.commits_iff hr' (ht.expectedCount.trans hgn)
        (ht.expectedBlobCount.trans hgm)).mpr ⟨by rw [hsc, hcont, scalars_contentsOf hl, hn],
          by rw [hbc, hcont, blobs_contentsOf hl, hm], blobStaged_loadCalls hl⟩
      refine ⟨ht.profileId, fun clock => ?_⟩
      rw [← hcont]
      exact commitConfig_ok hd' hcommits clock
    · exact absurd (of_decide_eq_true hok) hsome

/-- What a successful load leaves: the records of the image are active. -/
structure Loaded (B : Build) (g g' : Gen) (info : Info) (l : List Record) (report : CommitReport) :
    Prop where
  inv : Inv B g' (contentsOf l)
  isRunning : g'.isRunning = false
  config : g'.config.state = .idle
  profileId : g'.activeProfileId = info.profileId
  configCrc : getConfigCrc g'.store = info.configCrc
  generation : g'.store.generation =
    if g.store.generation + 1 = 0 then 1 else g.store.generation + 1
  report : report = ⟨g'.store.generation, UInt16.ofNat (contentsOf l).count,
    UInt8.ofNat (contentsOf l).pgns.card⟩

/-- A load that fails leaves the active side untouched. -/
structure LoadFailed (B : Build) (g g' : Gen) (c : Contents) : Prop where
  inv : Inv B g' c
  untouched : Untouched g g'

theorem canMutate_iff {a : App} :
    a.canMutate = true ↔ a.gen.isRunning = false ∧ a.gen.config.state = .idle := by
  simp [App.canMutate, configTransactionOpen]

section Load

variable {B : Build} {a : App} {c : Contents}

/-- `App_Persistence_Load` after the begin it made on `g` was accepted. -/
theorem applyLatest_spec {g : Gen} {d : NorFlash.Device} {slot : Slot} {l : List Record}
    {info : Info} (h : Inv B a.gen c) (hd : a.memory.flash = d) (hl : Latest d.cell slot l)
    (hinfo : latestInfo d.cell slot = info)
    (hb : Begun B g a.gen info.scalarCount info.blobCount info.profileId) (clock : ℕ → UInt32) :
    (applyLatest B a info clock).1.memory.flash = d ∧
      ((∃ e, e ≠ .verifyError ∧ (applyLatest B a info clock).2 = .error e ∧
          (visitAll (loadRecord B) ⟨a.gen, true⟩ l).2 = false ∧
          LoadFailed B g (applyLatest B a info clock).1.gen c) ∨
        ∃ report, (applyLatest B a info clock).2 = .ok report ∧
          Loaded B g (applyLatest B a info clock).1.gen info l report) := by
  have hwf := hl.valid.sealed.carries
  obtain ⟨g', ok, hvisit, hinv, hu, hcommit⟩ := visit_spec h hb.drafted hwf.wf
    (by rw [← hinfo]; exact hwf.scalarCount) (by rw [← hinfo]; exact hwf.blobCount)
    hb.expectedCount hb.expectedBlobCount
  rw [← hd] at hl
  obtain ⟨s', ⟨hflash, -⟩, heq⟩ := hl.visitLatest (loadRecord B) ⟨a.gen, true⟩
  have hu := hb.untouched.trans hu
  unfold applyLatest
  rw [heq, hvisit]
  dsimp only
  cases ok with
  | false =>
    rw [if_neg (by simp)]
    exact ⟨hflash.trans hd, .inl ⟨_, by decide, rfl, rfl, hinv.abortConfig,
      hu.trans (abortConfig_untouched g')⟩⟩
  | true =>
    rw [if_pos rfl]
    dsimp only
    rw [if_neg (by simp), commitLoaded]
    obtain ⟨hprofile, hcommit⟩ := hcommit rfl
    obtain ⟨g'', heq', hc⟩ := hcommit clock
    dsimp only
    rw [heq']
    dsimp only
    -- the parser has checked the CRC of the same records
    have hcrc : getConfigCrc g''.store = info.configCrc := by
      rw [← hinfo]
      exact hc.active.holds.crc.trans hwf.configCrc.symm
    have hrun : g''.isRunning = false := by
      rw [hc.isRunning, hu.isRunning, hb.stopped]
    rw [if_neg (by simp), if_neg (by simp [hcrc])]
    refine ⟨hflash.trans hd, .inr ⟨_, rfl, ⟨hc.active, .of_idle hc.config hc.store, hc.locked, ?_⟩,
      hrun, hc.config, ?_, hcrc, ?_, rfl⟩⟩
    · intro hr
      dsimp only [App.finish] at hr
      rw [hrun] at hr
      cases hr
    · exact hc.activeProfileId.trans (hprofile.trans hb.profileId)
    · exact hc.generation.trans (by rw [hu.store.2])

/-- **Load.** The flash is only read; the records of the latest image become
    active, or the active side stays as it was. -/
theorem load_spec (h : Inv B a.gen c) (clock : ℕ → UInt32) :
    (load B a clock).1.memory.flash = a.memory.flash ∧
      ((∃ e, e ≠ .verifyError ∧ (load B a clock).2 = .error e ∧
          LoadFailed B a.gen (load B a clock).1.gen c) ∨
        ∃ slot l report, Latest a.memory.flash.cell slot l ∧ (load B a clock).2 = .ok report ∧
          Loaded B a.gen (load B a clock).1.gen (latestInfo a.memory.flash.cell slot) l report) := by
  unfold load
  cases hm : a.canMutate with
  | false =>
    rw [if_pos rfl]
    exact ⟨rfl, .inl ⟨_, by decide, rfl, h, .refl _⟩⟩
  | true =>
    rw [if_neg (by simp)]
    rcases openLatest_cases a.memory with
      ⟨slot, l, s', hl, ⟨hflash, -⟩, heq⟩ | ⟨-, s', e, hflash, he, heq⟩
    · rw [heq]
      dsimp only
      generalize hinfo : latestInfo a.memory.flash.cell slot = info
      rcases beginProfileConfig_cases h info.scalarCount info.blobCount info.profileId with
        ⟨hne, hsame⟩ | ⟨hok, hb⟩
      · rw [if_pos hne, hsame]
        exact ⟨hflash, .inl ⟨_, by decide, rfl, h, .refl _⟩⟩
      · rw [if_neg (by simp [hok])]
        obtain ⟨hinv, -⟩ := h.beginProfileConfig info.scalarCount info.blobCount info.profileId
        obtain ⟨h1, h2⟩ := applyLatest_spec (a := { a with
          gen := (beginProfileConfig B a.gen info.scalarCount info.blobCount info.profileId).1
          memory := s' }) hinv hflash hl hinfo hb clock
        refine ⟨h1, h2.imp (fun ⟨e, hne, he, _, hf⟩ => ⟨e, hne, he, hf⟩) ?_⟩
        rintro ⟨report, hr, hloaded⟩
        refine ⟨slot, l, report, hl, hr, ?_⟩
        rw [hinfo]
        exact hloaded
    · rw [heq]
      refine ⟨hflash, .inl ⟨_, ?_, rfl, h, .refl _⟩⟩
      rcases he with rfl | rfl | rfl
      all_goals decide

end Load

end Persistence

end J1939Gen
