import J1939Gen.Control.Model
import J1939Gen.Persistence.Runs

/-!
# What a request does

Every handler keeps the invariant of the generator, and one that answers with
another status than OK leaves the active side of the generator untouched.

* `Handled`: the two facts about one handler.
* `handle_spec`, `execute_spec`: the switch.
* `handle_calls`: the call a request makes of the application.
* `route_spec`: a received frame.
-/

namespace J1939Gen.Control

open ByteMem ValueStore Storage Generator Boot Persistence ReplayCache

/-! ## Statuses -/

theorem txnStatus_ok {s : TxnStatus} : txnStatus s = .ok ↔ s = .ok := by
  cases s <;> simp [txnStatus]

/-! ## One handler -/

/-- The invariant holds afterwards, and a request that failed changed nothing on
    the active side. -/
structure Handled (B : Build) (n : Node) (r : Node × Response) : Prop where
  inv : ∃ c, Inv B r.1.app.gen c
  failed : r.2.status ≠ .ok → Untouched n.app.gen r.1.app.gen

section Handlers

variable {B : Build} {n : Node} {c : Contents} (h : Inv B n.app.gen c)

include h

/-- Handlers that leave the generator as it is. -/
theorem Handled.same {r : Node × Response} (hr : r.1.app.gen = n.app.gen) : Handled B n r where
  inv := ⟨c, by rw [hr]; exact h⟩
  failed _ := by rw [hr]; exact .refl _

omit h in
/-- Handlers of the staging side. -/
theorem Handled.untouched {r : Node × Response}
    (hr : Inv B r.1.app.gen c ∧ Untouched n.app.gen r.1.app.gen) : Handled B n r where
  inv := ⟨c, hr.1⟩
  failed _ := hr.2

omit h in
/-- Handlers that changed the active side answer OK. -/
theorem Handled.succeeded {r : Node × Response} (hinv : ∃ c, Inv B r.1.app.gen c)
    (hok : r.2.status = .ok) : Handled B n r where
  inv := hinv
  failed hne := absurd hok hne

theorem handled_setConst (sequence : UInt8) (data : Mem) (nowMs : UInt32) :
    Handled B n (handleSetConst B n sequence data nowMs) := by
  obtain ⟨hinv, hfailed⟩ := h.setConstantRaw (readU16 data 2) (readU32 data 4) nowMs
  refine ⟨hinv, fun hne => ?_⟩
  show Untouched n.app.gen (setConstantRaw B n.app.gen (readU16 data 2) (readU32 data 4) nowMs).1
  rw [hfailed]
  · exact .refl _
  · rintro hok
    apply hne
    unfold handleSetConst
    dsimp only
    rw [hok]
    rfl

theorem handled_start (sequence : UInt8) (data : Mem) (nowMs : UInt32) :
    Handled B n (handleStart n sequence data nowMs) := by
  unfold handleStart
  dsimp only
  split_ifs
  · exact .same h rfl
  · exact .same h rfl
  · have hgen : (cancelAutostart n).app.gen = n.app.gen := by
      unfold cancelAutostart
      split_ifs <;> rfl
    refine .succeeded ⟨c, ?_⟩ rfl
    show Inv B (start (cancelAutostart n).app.gen 0 nowMs) c
    rw [hgen]
    exact h.start 0 nowMs

theorem handled_stop (sequence : UInt8) (data : Mem) :
    Handled B n (handleStop n sequence data) := by
  unfold handleStop
  dsimp only
  split_ifs
  · exact .same h rfl
  · have hgen : (cancelAutostart n).app.gen = n.app.gen := by
      unfold cancelAutostart
      split_ifs <;> rfl
    refine .succeeded ⟨c, ?_⟩ rfl
    show Inv B (stop (cancelAutostart n).app.gen) c
    rw [hgen]
    exact h.stop

theorem handled_clearConfig (sequence : UInt8) (data : Mem) :
    Handled B n (handleClearConfig n sequence data) := by
  unfold handleClearConfig
  dsimp only
  split_ifs
  · exact .same h rfl
  · exact .same h rfl
  · exact .same h rfl
  · exact .succeeded ⟨_, h.clear⟩ rfl

omit h in
theorem statusPage_gen (page : UInt8) (bus : BusError) :
    (statusPage B n page bus).1.app.gen = n.app.gen := by
  unfold statusPage
  dsimp only
  split_ifs
  all_goals first | rfl | exact (getInfo_keeps n.app).1

theorem handled_getStatus (sequence : UInt8) (data : Mem) (bus : BusError) :
    Handled B n (handleGetStatus B n sequence data bus) := by
  unfold handleGetStatus
  dsimp only
  split_ifs
  · exact .same h rfl
  · exact .same h (statusPage_gen _ bus)

theorem handled_beginConfig (sequence : UInt8) (data : Mem) :
    Handled B n (handleBeginConfig B n sequence data) := by
  unfold handleBeginConfig
  dsimp only
  by_cases hcrc : readU32 data 2 ≠ catalogCrc32
  · rw [if_pos hcrc]
    exact .same h rfl
  · rw [if_neg hcrc]
    exact .untouched (h.beginProfileConfig _ _ _)

theorem handled_setSignalRaw (sequence : UInt8) (data : Mem) :
    Handled B n (handleSetSignalRaw B n sequence data) :=
  .untouched (h.stageConstantRaw (readU16 data 2) (readU32 data 4))

theorem handled_writeBlob (sequence : UInt8) (data : Mem) :
    Handled B n (handleWriteBlob B n sequence data) :=
  .untouched (h.stageBlobChunk (data 2).toUInt16 (data 3) (data 4) (some (chunkOf data)))

theorem handled_setString (sequence : UInt8) (data : Mem) :
    Handled B n (handleSetString B n sequence data) :=
  .untouched (h.stageStringChunk (data 2).toUInt16 (data 3) (data 4) (some (chunkOf data)))

theorem handled_setGlobalPercent (sequence : UInt8) (data : Mem) :
    Handled B n (handleSetGlobalPercent n sequence data) := by
  unfold handleSetGlobalPercent
  dsimp only
  by_cases hz : bytesAreZeroFrom data 4 = false
  · rw [if_pos hz]
    exact .same h rfl
  · rw [if_neg hz]
    obtain ⟨hinv, hfailed⟩ := h.setGlobalPercent (readU16 data 2)
    refine ⟨hinv, fun hne => ?_⟩
    show Untouched n.app.gen (setGlobalPercent n.app.gen (readU16 data 2)).1
    rw [hfailed fun hok => hne (txnStatus_ok.mpr hok)]
    exact .refl _

theorem handled_commitConfig (sequence : UInt8) (data : Mem) (clock : ℕ → UInt32) :
    Handled B n (handleCommitConfig B n sequence data clock) := by
  unfold handleCommitConfig
  dsimp only
  by_cases hz : reservedBytesAreZero data = false
  · rw [if_pos hz]
    exact .same h rfl
  · rw [if_neg hz]
    obtain ⟨hinv, hfailed⟩ := h.commitConfig clock
    exact ⟨hinv, fun hne => hfailed fun hok => hne (txnStatus_ok.mpr hok)⟩

theorem handled_abortConfig (sequence : UInt8) (data : Mem) :
    Handled B n (handleAbortConfig n sequence data) := by
  unfold handleAbortConfig
  dsimp only
  split_ifs
  · exact .same h rfl
  · exact .untouched ⟨h.abortConfig, abortConfig_untouched _⟩

theorem handled_saveConfig (sequence : UInt8) (data : Mem) :
    Handled B n (handleSaveConfig n sequence data) := by
  unfold handleSaveConfig
  split_ifs
  · exact .same h rfl
  · exact .same h (save_gen n.app)

theorem handled_loadSaved (sequence : UInt8) (data : Mem) (clock : ℕ → UInt32) :
    Handled B n (handleLoadSaved B n sequence data clock) := by
  unfold handleLoadSaved
  split_ifs
  · exact .same h rfl
  · rcases (load_spec h clock).2 with ⟨e, -, -, hfail⟩ | ⟨_, _, report, -, hok, hload⟩
    · exact .untouched ⟨hfail.inv, hfail.untouched⟩
    · refine .succeeded ⟨_, hload.inv⟩ ?_
      dsimp only
      rw [hok]
      rfl

theorem handled_eraseSaved (sequence : UInt8) (data : Mem) :
    Handled B n (handleEraseSaved n sequence data) := by
  unfold handleEraseSaved
  split_ifs
  · exact .same h rfl
  · exact .same h (erase_gen n.app)

theorem handled_setAutostart (sequence : UInt8) (data : Mem) :
    Handled B n (handleSetAutostart n sequence data) := by
  unfold handleSetAutostart
  split_ifs
  · exact .same h rfl
  · exact .same h (setAutostart_gen n.app _)

theorem handled_tc1001 (sequence : UInt8) (data : Mem) :
    Handled B n (handleTc1001 n sequence data) := by
  unfold handleTc1001
  dsimp only
  split_ifs <;> exact .same h rfl

/-- **The switch.** -/
theorem handle_spec (sequence : UInt8) (data : Mem) (env : Env) (op : Opcode) :
    Handled B n (handle B n sequence data env op) := by
  cases op with
  | tc1001 => exact handled_tc1001 h sequence data
  | stop => exact handled_stop h sequence data
  | start => exact handled_start h sequence data env.handlerMs
  | getStatus => exact handled_getStatus h sequence data env.bus
  | clearConfig => exact handled_clearConfig h sequence data
  | setConst => exact handled_setConst h sequence data env.handlerMs
  | beginConfig => exact handled_beginConfig h sequence data
  | setSignalRaw => exact handled_setSignalRaw h sequence data
  | commitConfig => exact handled_commitConfig h sequence data env.clock
  | abortConfig => exact handled_abortConfig h sequence data
  | writeBlob => exact handled_writeBlob h sequence data
  | setGlobalPercent => exact handled_setGlobalPercent h sequence data
  | setString => exact handled_setString h sequence data
  | saveConfig => exact handled_saveConfig h sequence data
  | loadSavedConfig => exact handled_loadSaved h sequence data env.clock
  | eraseSavedConfig => exact handled_eraseSaved h sequence data
  | setAutostart => exact handled_setAutostart h sequence data

theorem execute_spec (data : Mem) (env : Env) : Handled B n (execute B n data env) := by
  unfold execute
  cases Opcode.ofByte (data 0) with
  | some op => exact handle_spec h (data 1) data env op
  | none => exact .same h rfl

end Handlers

/-! ## The calls behind a request -/

/-- A request other than START and STOP makes one call of the application, or none; the
    boot record stays as it is. -/
theorem handle_calls (B : Build) (n : Node) (sequence : UInt8) (data : Mem) (env : Env)
    {op : Opcode} (hstart : op ≠ .start) (hstop : op ≠ .stop) :
    (handle B n sequence data env op).1 = n ∨
      ∃ call, (∀ durationSec nowMs, call ≠ .generator (.start durationSec nowMs)) ∧
        (handle B n sequence data env op).1 = withApp n (Persistence.step B n.app call) := by
  cases op with
  | start => exact absurd rfl hstart
  | stop => exact absurd rfl hstop
  | tc1001 => unfold handle handleTc1001; dsimp only; split_ifs <;> exact .inl rfl
  | getStatus =>
    unfold handle handleGetStatus statusPage
    dsimp only
    split_ifs
    all_goals first | exact .inl rfl | exact .inr ⟨.getInfo, by simp, rfl⟩
  | clearConfig =>
    unfold handle handleClearConfig
    dsimp only
    split_ifs
    · exact .inl rfl
    · exact .inl rfl
    · exact .inl rfl
    · exact .inr ⟨.generator .clear, by simp, rfl⟩
  | setConst =>
    exact .inr ⟨.generator (.setConstantRaw (readU16 data 2) (readU32 data 4) env.handlerMs),
      by simp, rfl⟩
  | beginConfig =>
    unfold handle handleBeginConfig
    dsimp only
    split_ifs
    · exact .inl rfl
    · exact .inr ⟨.generator (.beginProfileConfig _ _ _), by simp, rfl⟩
    · exact .inr ⟨.generator (.beginProfileConfig _ _ _), by simp, rfl⟩
  | setSignalRaw =>
    exact .inr ⟨.generator (.stageConstantRaw (readU16 data 2) (readU32 data 4)), by simp, rfl⟩
  | writeBlob =>
    exact .inr ⟨.generator (.stageBlobChunk (data 2).toUInt16 (data 3) (data 4)
      (some (chunkOf data))), by simp, rfl⟩
  | setString =>
    exact .inr ⟨.generator (.stageStringChunk (data 2).toUInt16 (data 3) (data 4)
      (some (chunkOf data))), by simp, rfl⟩
  | setGlobalPercent =>
    unfold handle handleSetGlobalPercent
    split_ifs
    · exact .inl rfl
    · exact .inr ⟨.generator (.setGlobalPercent (readU16 data 2)), by simp, rfl⟩
  | commitConfig =>
    unfold handle handleCommitConfig
    split_ifs
    · exact .inl rfl
    · exact .inr ⟨.generator (.commitConfig env.clock), by simp, rfl⟩
  | abortConfig =>
    unfold handle handleAbortConfig
    dsimp only
    split_ifs
    · exact .inl rfl
    · exact .inr ⟨.generator .abortConfig, by simp, rfl⟩
  | saveConfig =>
    unfold handle handleSaveConfig
    split_ifs
    · exact .inl rfl
    · exact .inr ⟨.save, by simp, rfl⟩
  | loadSavedConfig =>
    unfold handle handleLoadSaved
    split_ifs
    · exact .inl rfl
    · exact .inr ⟨.load env.clock, by simp, rfl⟩
  | eraseSavedConfig =>
    unfold handle handleEraseSaved
    split_ifs
    · exact .inl rfl
    · exact .inr ⟨.erase, by simp, rfl⟩
  | setAutostart =>
    unfold handle handleSetAutostart
    split_ifs
    · exact .inl rfl
    · exact .inr ⟨.setAutostart (data 2 ≠ 0), by simp, rfl⟩

/-! ## One frame -/

/-- A frame leaves the application alone, or executes a request. -/
theorem route_cases (B : Build) (d : Device) (f : RxFrame) :
    (route B d f).1.node = d.node ∧ (∀ r, (route B d f).2 ≠ .executed r) ∨
      (route B d f).1.node = (execute B d.node f.data f.env).1 ∧
        (route B d f).2 = .executed (execute B d.node f.data f.env).2 := by
  unfold route
  dsimp only
  by_cases hpgn : (Header.parseId f.id).pgn = pgnProprietaryAControl
  swap
  · rw [if_neg hpgn]
    exact .inl ⟨rfl, by simp⟩
  rw [if_pos hpgn]
  unfold handleControlFrame
  by_cases h1 : atEndpoint (Header.parseId f.id) = false
  · rw [if_pos h1]
    exact .inl ⟨rfl, by simp⟩
  rw [if_neg h1]
  by_cases h2 : f.length > 0 ∧ f.data 0 &&& responseMask ≠ 0
  · rw [if_pos h2]
    exact .inl ⟨rfl, by simp⟩
  rw [if_neg h2]
  by_cases h3 : f.length < 2
  · rw [if_pos h3]
    exact .inl ⟨rfl, by simp⟩
  rw [if_neg h3]
  by_cases h4 : f.length ≠ frameLength
  · rw [if_pos h4]
    exact .inl ⟨rfl, by simp⟩
  rw [if_neg h4]
  by_cases h5 : f.data 1 = 0
  · rw [if_pos h5]
    exact .inl ⟨rfl, by simp⟩
  rw [if_neg h5]
  unfold serve
  dsimp only
  cases (d.cache.lookup Request.tag dedupWindowMs cacheCapacity
      ((Header.parseId f.id).sourceAddress, bytes f.data 0 8) f.env.arrivalMs).2 with
  | replay r => exact .inl ⟨rfl, by simp⟩
  | conflict => exact .inl ⟨rfl, by simp⟩
  | miss => exact .inr ⟨rfl, rfl⟩

/-- **A frame.** The invariant holds afterwards; when the response is not OK, the
    active side is untouched. -/
theorem route_spec {B : Build} {d : Device} {c : Contents} (h : Inv B d.node.app.gen c)
    (f : RxFrame) :
    (∃ c', Inv B (route B d f).1.node.app.gen c') ∧
      ∀ r, (route B d f).2.response = some r → r.status ≠ .ok →
        Untouched d.node.app.gen (route B d f).1.node.app.gen := by
  rcases route_cases B d f with ⟨hn, -⟩ | ⟨hn, ho⟩
  · rw [hn]
    exact ⟨⟨c, h⟩, fun _ _ _ => .refl _⟩
  · obtain ⟨hinv, hfailed⟩ := execute_spec h f.data f.env
    rw [hn, ho]
    refine ⟨hinv, fun r hr hne => hfailed ?_⟩
    obtain rfl := Option.some.inj hr
    exact hne

end J1939Gen.Control
