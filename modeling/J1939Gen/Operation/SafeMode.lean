import J1939Gen.Operation.Recovery

/-!
# The boot-loop guard

The watchdog streak lives in `.noinit` words, which a reset keeps. A boot counts it
up or clears it, and a step of the main loop late enough clears it. So after any
number of boots the words hold the number of watchdog resets in a row, and the third
one restores the profile without starting it.

* `next_noinit`, `run_noinit`: what a run does to the words.
* `Lives`: a sequence of boots, each with the run that ended in the next.
* `Lives.counted`: the words hold the streak, up to saturation.
* `restore_suppressed`: safe mode changes a restore in the autostart only.
* `safeMode_iff_bootLoop`: the main result.
-/

namespace J1939Gen.Operation

open Storage Generator Scheduler Boot Control

/-! ## What a run does to the words -/

/-- A call of `OP_Step` at `OP_BOOT_STABLE_MS` or later. -/
def Event.stable : Event → Bool
  | .step i => bootStableMs ≤ i.nowMs
  | .rxPoll _ _ => false

/-- The words with the streak cleared. -/
def Noinit.cleared (m : Noinit) : Noinit := { m with wdgStreak := 0 }

theorem settleStreak_eq (m : Noinit) (nowMs : UInt32) :
    settleStreak m nowMs = if bootStableMs ≤ nowMs then m.cleared else m := by
  unfold settleStreak
  by_cases hlate : bootStableMs ≤ nowMs
  · rw [if_pos hlate]
    by_cases hzero : m.wdgStreak = 0
    · rw [if_neg (fun h => h.1 hzero)]
      show m = ⟨m.magic, 0⟩
      rw [← hzero]
    · rw [if_pos ⟨hzero, hlate⟩]
      rfl
  · rw [if_neg hlate, if_neg (fun h => hlate h.2)]

theorem superviseBus_noinit (b : Board) (nowMs : UInt32) (err : BusError) :
    (superviseBus b nowMs err).noinit = b.noinit := by
  unfold superviseBus
  dsimp only
  split_ifs <;> rfl

theorem runStep_noinit (B : Build) (b : Board) (i : StepInput) :
    (runStep B b i).1.noinit = b.noinit := superviseBus_noinit _ _ _

theorem commFaultStep_noinit (b : Board) (nowMs : UInt32) (joinOk : Bool) (autostartMs : UInt32) :
    (commFaultStep b nowMs joinOk autostartMs).1.noinit = b.noinit := by
  unfold commFaultStep
  dsimp only
  split_ifs <;> rfl

/-- **Step lemma.** -/
theorem next_noinit (B : Build) (o : Options) (b : Board) (e : Event) :
    (next B o b e).1.noinit = if e.stable then b.noinit.cleared else b.noinit := by
  cases e with
  | rxPoll frameBudget waiting => rfl
  | step i =>
    have hstep : (opStep B o b i).1.noinit = settleStreak b.noinit i.nowMs := by
      unfold opStep
      dsimp only
      generalize cliPoll B b.device.node (if o.cliEnable then i.lines else []) = polled
      split_ifs
      · exact runStep_noinit _ _ _
      · exact commFaultStep_noinit _ _ _ _
    show (opStep B o b i).1.noinit = _
    rw [hstep, settleStreak_eq]
    simp only [Event.stable, decide_eq_true_eq]

/-- **Run lemma.** -/
theorem run_noinit (B : Build) (o : Options) (b : Board) (events : List Event) :
    (Mealy.run (next B o) b events).1.noinit =
      if events.any Event.stable then b.noinit.cleared else b.noinit := by
  induction events generalizing b with
  | nil => rfl
  | cons e events ih =>
    rw [Mealy.run_cons, ih, next_noinit, List.any_cons]
    cases e.stable <;> cases events.any Event.stable <;> rfl

/-! ## Boots -/

/-- One boot and what happens until the next reset. -/
structure Life where
  boot : BootInput
  events : List Event

/-- The run got to `OP_BOOT_STABLE_MS`. -/
def Life.stable (l : Life) : Bool := l.events.any Event.stable

/-- The words the next boot finds. -/
def Life.left (B : Build) (o : Options) (l : Life) : Noinit :=
  (Mealy.run (next B o) (opInit B o l.boot).1 l.events).1.noinit

/-- A sequence of boots, the latest first. The first one finds no magic; a later one finds
what the run before it left, or anything at all after the power was off. -/
inductive Lives (B : Build) (o : Options) : List Life → Prop
  | first {l : Life} (h : l.boot.noinit.magic ≠ noinitMagic) : Lives B o [l]
  | again {l prev : Life} {earlier : List Life} (h : Lives B o (prev :: earlier))
      (hkeep : l.boot.cause ≠ .powerOn → l.boot.noinit = prev.left B o) :
      Lives B o (l :: prev :: earlier)

/-- The watchdog resets in a row up to the latest boot. Another cause ends the count, and so
does a stable run. -/
def iwdgStreak : List Life → ℕ
  | [] => 0
  | [l] => if l.boot.cause ≠ .iwdg then 0 else 1
  | l :: prev :: earlier =>
    if l.boot.cause ≠ .iwdg then 0
    else if prev.stable then 1
    else iwdgStreak (prev :: earlier) + 1

/-- The latest boot and the two before it were watchdog resets, and neither of the runs
between them was stable. -/
def BootLoop (lives : List Life) : Prop :=
  ∃ l prev prev' earlier, lives = l :: prev :: prev' :: earlier ∧
    l.boot.cause = .iwdg ∧ prev.boot.cause = .iwdg ∧ prev'.boot.cause = .iwdg ∧
    prev.stable = false ∧ prev'.stable = false

/-! ## The count -/

section Count

theorem iwdgStreak_pos_iff (l : Life) (earlier : List Life) :
    1 ≤ iwdgStreak (l :: earlier) ↔ l.boot.cause = .iwdg := by
  cases earlier with
  | nil =>
    unfold iwdgStreak
    split_ifs with hc
    · simp [hc]
    · simp [not_not.1 hc]
  | cons prev earlier =>
    unfold iwdgStreak
    split_ifs with hc hs
    · simp [hc]
    · simp [not_not.1 hc]
    · simp [not_not.1 hc]

/-- One more reset in the row. -/
theorem iwdgStreak_succ_iff (l prev : Life) (earlier : List Life) (k : ℕ) :
    k + 2 ≤ iwdgStreak (l :: prev :: earlier) ↔
      l.boot.cause = .iwdg ∧ prev.stable = false ∧ k + 1 ≤ iwdgStreak (prev :: earlier) := by
  rw [iwdgStreak]
  by_cases hc : l.boot.cause = .iwdg
  · rw [if_neg (not_not.2 hc)]
    by_cases hs : prev.stable = true
    · rw [if_pos hs]
      simp [hs]
    · rw [if_neg hs]
      simp only [hc, Bool.not_eq_true _ ▸ hs, true_and]
      omega
  · rw [if_pos hc]
    simp [hc]

/-- Three in a row make a boot loop. -/
theorem three_le_iwdgStreak_iff (lives : List Life) : 3 ≤ iwdgStreak lives ↔ BootLoop lives := by
  constructor
  · intro h
    match lives, h with
    | [], h => exact absurd h (by decide)
    | [l], h =>
      rw [iwdgStreak] at h
      split_ifs at h <;> omega
    | [l, prev], h =>
      obtain ⟨-, -, h2⟩ := (iwdgStreak_succ_iff l prev [] 1).1 h
      rw [iwdgStreak] at h2
      split_ifs at h2 <;> omega
    | l :: prev :: prev' :: earlier, h =>
      obtain ⟨hl, hs, h2⟩ := (iwdgStreak_succ_iff l prev (prev' :: earlier) 1).1 h
      obtain ⟨hp, hs', h1⟩ := (iwdgStreak_succ_iff prev prev' earlier 0).1 h2
      exact ⟨l, prev, prev', earlier, rfl, hl, hp, (iwdgStreak_pos_iff prev' earlier).1 h1, hs, hs'⟩
  · rintro ⟨l, prev, prev', earlier, rfl, hl, hp, hp', hs, hs'⟩
    have h1 := (iwdgStreak_pos_iff prev' earlier).2 hp'
    have h2 := (iwdgStreak_succ_iff prev prev' earlier 0).2 ⟨hp, hs', h1⟩
    exact (iwdgStreak_succ_iff l prev (prev' :: earlier) 1).2 ⟨hl, hs, h2⟩

end Count

/-! ## The words hold the count -/

/-- A boot whose cause is another. -/
theorem bootLoopDetected_other (m : Noinit) {cause : ResetCause} (h : cause ≠ .iwdg) :
    (bootLoopDetected m cause).1 = ⟨noinitMagic, 0⟩ := by
  unfold bootLoopDetected
  dsimp only
  rw [if_pos h]
  by_cases hm : m.magic ≠ noinitMagic
  · rw [if_pos hm]
  · rw [if_neg hm, not_not.1 hm]

/-- A watchdog boot that finds no magic. -/
theorem bootLoopDetected_first {m : Noinit} (hm : m.magic ≠ noinitMagic) :
    (bootLoopDetected m .iwdg).1 = ⟨noinitMagic, 1⟩ := by
  unfold bootLoopDetected
  dsimp only
  rw [if_pos hm]
  rfl

/-- A watchdog boot that finds the magic counts, up to `UINT8_MAX`. -/
theorem bootLoopDetected_again {m : Noinit} (hm : m.magic = noinitMagic)
    (hle : m.wdgStreak.toNat ≤ 255) :
    (bootLoopDetected m .iwdg).1.magic = noinitMagic ∧
      (bootLoopDetected m .iwdg).1.wdgStreak.toNat = min 255 (m.wdgStreak.toNat + 1) := by
  unfold bootLoopDetected
  dsimp only
  rw [if_neg (not_not.2 hm), if_neg (by simp)]
  refine ⟨hm, ?_⟩
  by_cases hlt : m.wdgStreak < 255
  · rw [if_pos hlt, UInt32.toNat_add]
    rw [UInt32.lt_iff_toNat_lt, show (255 : UInt32).toNat = 255 from rfl] at hlt
    rw [show (1 : UInt32).toNat = 1 from rfl]
    omega
  · rw [if_neg hlt]
    rw [UInt32.lt_iff_toNat_lt, show (255 : UInt32).toNat = 255 from rfl] at hlt
    omega

theorem bootLoopDetected_safe (m : Noinit) (cause : ResetCause) :
    (bootLoopDetected m cause).2 = true ↔ 3 ≤ (bootLoopDetected m cause).1.wdgStreak.toNat := by
  unfold bootLoopDetected
  dsimp only
  rw [decide_eq_true_eq, ge_iff_le, UInt32.le_iff_toNat_le]
  rfl

theorem opInit_noinit (B : Build) (o : Options) (i : BootInput) :
    (opInit B o i).1.noinit = (bootLoopDetected i.noinit i.cause).1 := rfl

theorem Life.left_eq (B : Build) (o : Options) (l : Life) :
    l.left B o = if l.stable then (bootLoopDetected l.boot.noinit l.boot.cause).1.cleared
      else (bootLoopDetected l.boot.noinit l.boot.cause).1 := by
  unfold Life.left Life.stable
  rw [run_noinit, opInit_noinit]

/-- **The count.** After every boot the words hold the streak, saturated. -/
theorem Lives.counted {B : Build} {o : Options} {l : Life} {earlier : List Life}
    (h : Lives B o (l :: earlier)) :
    (bootLoopDetected l.boot.noinit l.boot.cause).1.magic = noinitMagic ∧
      (bootLoopDetected l.boot.noinit l.boot.cause).1.wdgStreak.toNat =
        min 255 (iwdgStreak (l :: earlier)) := by
  -- the words a boot finds decide only after a watchdog reset, which kept them
  generalize hlives : l :: earlier = lives at h
  induction h generalizing l earlier with
  | first hm =>
    obtain ⟨rfl, rfl⟩ := List.cons.inj hlives
    by_cases hc : l.boot.cause = .iwdg
    · rw [hc, bootLoopDetected_first hm, iwdgStreak, if_neg (not_not.2 hc)]
      exact ⟨rfl, rfl⟩
    · rw [bootLoopDetected_other _ hc, iwdgStreak, if_pos hc]
      exact ⟨rfl, rfl⟩
  | @again l' prev earlier' hprev hkeep ih =>
    obtain ⟨rfl, rfl⟩ := List.cons.inj hlives
    obtain ⟨hmagic, hcount⟩ := ih rfl
    by_cases hc : l.boot.cause = .iwdg
    · have hfound := hkeep (by rw [hc]; decide)
      rw [Life.left_eq] at hfound
      rw [hc, iwdgStreak, if_neg (not_not.2 hc)]
      by_cases hs : prev.stable = true
      · rw [if_pos hs] at hfound ⊢
        have hagain := bootLoopDetected_again (m := l.boot.noinit) (by rw [hfound]; exact hmagic)
          (by rw [hfound]; exact Nat.zero_le _)
        rw [hfound] at hagain ⊢
        exact hagain
      · rw [if_neg hs] at hfound ⊢
        have hagain := bootLoopDetected_again (m := l.boot.noinit) (by rw [hfound]; exact hmagic)
          (by rw [hfound]; omega)
        rw [hfound] at hagain ⊢
        refine ⟨hagain.1, ?_⟩
        rw [hagain.2, hcount]
        omega
    · rw [bootLoopDetected_other _ hc, iwdgStreak, if_pos hc]
      exact ⟨rfl, rfl⟩

/-! ## Safe mode -/

/-- The node after a restore that does not suppress the autostart. -/
def plainRestore (B : Build) (o : Options) (i : BootInput) : Node :=
  restore B (Control.powerUp defaultBaudKbps i.memory).node false o.autostartDefaults i.clock

/-- What safe mode makes of an autostart. -/
def suppressed (autostart : Autostart) : Autostart :=
  if autostart = .pending then .suppressed else autostart

theorem restoreStored_suppressed (B : Build) {n : Node} (stored : Storage.Info) (autostart : Bool)
    (clock : ℕ → UInt32) (hoff : n.info.autostart = .off) :
    (restoreStored B n stored autostart true clock).info.autostart =
        suppressed (restoreStored B n stored autostart false clock).info.autostart ∧
      (restoreStored B n stored autostart false clock).info.autostart ≠ .suppressed := by
  unfold restoreStored
  rcases Persistence.load B n.app clock with ⟨app, status | report⟩
  · exact ⟨rfl, by simp [fail]⟩
  · cases autostart with
    | false =>
      dsimp only
      rw [if_neg (by decide), hoff, if_neg (by decide)]
      exact ⟨rfl, by decide⟩
    | true => exact ⟨rfl, by simp [requestAutostart]⟩

/-- Safe mode changes a restore in the autostart only where that was pending. -/
theorem restore_suppressed (B : Build) (n : Node) (useDefaults : Bool) (clock : ℕ → UInt32) :
    (restore B n true useDefaults clock).info.autostart =
        suppressed (restore B n false useDefaults clock).info.autostart ∧
      (restore B n false useDefaults clock).info.autostart ≠ .suppressed := by
  unfold restore
  dsimp only
  rcases Persistence.getInfo n.app with ⟨app, status, info⟩
  dsimp only
  split_ifs
  · exact ⟨rfl, by simp [requestAutostart]⟩
  · exact ⟨rfl, by simp [BootInfo.start]⟩
  · exact ⟨rfl, by simp [fail]⟩
  · exact ⟨rfl, by simp [fail]⟩
  · exact restoreStored_suppressed B _ _ _ rfl

/-- A join starts the generator only if the autostart was pending. -/
theorem commFaultStep_fired {b : Board} {nowMs : UInt32} {joinOk : Bool} {autostartMs : UInt32}
    (h : (commFaultStep b nowMs joinOk autostartMs).2.1.fired = true) :
    b.device.node.info.autostart = .pending := by
  unfold commFaultStep at h
  dsimp only at h
  by_cases hearly : nowMs - b.lastCanRetryMs < canRetryPeriodMs
  · rw [if_pos hearly] at h
    exact absurd h Bool.false_ne_true
  rw [if_neg hearly] at h
  by_cases hno : joinOk = false
  · rw [if_pos hno] at h
    exact absurd h Bool.false_ne_true
  rw [if_neg hno] at h
  rcases tryAutostart_cases (canJoin b.device.node) autostartMs with ⟨-, hp, -⟩ | ⟨hf, -⟩
  · exact hp
  · exact absurd (hf.symm.trans h) (by decide)

/-- An autostart fires in a step only if it was pending before it. -/
theorem next_fired {B : Build} {o : Options} {b : Board} {e : Event}
    (h : (next B o b e).2.seen.fired = true) : b.device.node.info.autostart = .pending := by
  cases e with
  | rxPoll frameBudget waiting => exact absurd h Bool.false_ne_true
  | step i =>
    change (opStep B o b i).2.seen.fired = true at h
    obtain ⟨b', accepted, hcli, heq | heq⟩ := opStep_cases B o b i
    · rw [heq] at h
      have hno : (runStep B b' i).2.fired = false := rfl
      simp [Seen.append, hno] at h
    · rw [heq] at h
      exact (hcli (commFaultStep_fired (by simpa [Seen.append] using h))).1

/-- An autostart that is not pending never fires. -/
theorem run_not_fired (B : Build) (o : Options) {b : Board}
    (h : b.device.node.info.autostart ≠ .pending) (events : List Event) :
    ∀ s ∈ (Mealy.run (next B o) b events).2, s.seen.fired = false := by
  induction events generalizing b with
  | nil => simp [Mealy.run_nil]
  | cons e events ih =>
    rw [Mealy.run_cons]
    intro s hs
    rcases List.mem_cons.1 hs with rfl | hs
    · apply Bool.eq_false_of_not_eq_true
      exact fun hf => h (next_fired hf)
    · exact ih (fun hp => h (next_settles B o b e hp).1) s hs

/-- What the guard is for: safe mode exactly in a boot loop, the autostart suppressed and
silent in it and as restored outside it, and the streak reported. -/
structure Guarded (B : Build) (o : Options) (l : Life) (earlier : List Life) : Prop where
  safeMode_iff : (bootLoopDetected l.boot.noinit l.boot.cause).2 = true ↔ BootLoop (l :: earlier)
  suppressed_iff : (appInit B o l.boot).2.node.info.autostart = .suppressed ↔
    BootLoop (l :: earlier) ∧ (plainRestore B o l.boot).info.autostart = .pending
  unchanged : ¬ BootLoop (l :: earlier) →
    (appInit B o l.boot).2.node.info.autostart = (plainRestore B o l.boot).info.autostart
  silent : BootLoop (l :: earlier) → (opInit B o l.boot).2.fired = false ∧
    ∀ s ∈ (Mealy.run (next B o) (opInit B o l.boot).1 l.events).2, s.seen.fired = false
  reported : (getBootInfo (opInit B o l.boot).1.device.node).watchdogStreak.toNat =
    min 255 (iwdgStreak (l :: earlier))

/-- The restore of a boot, with the autostart that safe mode leaves. -/
theorem appInit_autostart (B : Build) (o : Options) (i : BootInput) :
    (appInit B o i).2.node.info.autostart =
      if (bootLoopDetected i.noinit i.cause).2 = true
      then suppressed (plainRestore B o i).info.autostart
      else (plainRestore B o i).info.autostart := by
  show (restore B (Control.powerUp defaultBaudKbps i.memory).node
    (bootLoopDetected i.noinit i.cause).2 o.autostartDefaults i.clock).info.autostart = _
  cases (bootLoopDetected i.noinit i.cause).2 with
  | true => exact (restore_suppressed B _ _ _).1
  | false => rfl

theorem suppressed_ne_pending (autostart : Autostart) : suppressed autostart ≠ .pending := by
  cases autostart <;> decide

theorem suppressed_eq_iff {autostart : Autostart} (h : autostart ≠ .suppressed) :
    suppressed autostart = .suppressed ↔ autostart = .pending := by
  revert h
  cases autostart <;> decide

theorem tryAutostart_watchdogStreak (n : Node) (nowMs : UInt32) :
    (tryAutostart n nowMs).1.watchdogStreak = n.watchdogStreak := by
  unfold tryAutostart
  split_ifs <;> rfl

/-- The streak a boot reports. -/
theorem opInit_watchdogStreak (B : Build) (o : Options) (i : BootInput) :
    (getBootInfo (opInit B o i).1.device.node).watchdogStreak =
      (bootLoopDetected i.noinit i.cause).1.wdgStreak.toUInt8 := by
  show (reportReady (canJoin (appInit B o i).2.node) i.joinOk i.autostartMs).1.watchdogStreak =
    (appInit B o i).2.node.watchdogStreak
  unfold reportReady
  split_ifs
  · rfl
  · exact tryAutostart_watchdogStreak _ _

/-- The first call of `App_Boot_Try_Autostart` of a boot. -/
theorem opInit_not_fired (B : Build) (o : Options) {i : BootInput}
    (h : (appInit B o i).2.node.info.autostart ≠ .pending) :
    (opInit B o i).2.fired = false ∧
      (opInit B o i).1.device.node.info.autostart ≠ .pending := by
  have hn : (canJoin (appInit B o i).2.node).info.autostart ≠ .pending := h
  show (reportReady (canJoin (appInit B o i).2.node) i.joinOk i.autostartMs).2.fired = false ∧
    (reportReady (canJoin (appInit B o i).2.node) i.joinOk i.autostartMs).1.info.autostart ≠ _
  unfold reportReady tryAutostart
  rw [if_pos hn]
  split_ifs
  · exact ⟨rfl, hn⟩
  · exact ⟨rfl, hn⟩

/-- **Safe mode.** After any sequence of boots. -/
theorem safeMode_iff_bootLoop {B : Build} {o : Options} {l : Life} {earlier : List Life}
    (h : Lives B o (l :: earlier)) : Guarded B o l earlier := by
  obtain ⟨-, hcount⟩ := h.counted
  have hsafe : (bootLoopDetected l.boot.noinit l.boot.cause).2 = true ↔
      BootLoop (l :: earlier) := by
    rw [bootLoopDetected_safe, hcount, ← three_le_iwdgStreak_iff]
    omega
  have hauto := appInit_autostart B o l.boot
  have hplain : (plainRestore B o l.boot).info.autostart ≠ .suppressed :=
    (restore_suppressed B _ _ _).2
  refine ⟨hsafe, ?_, ?_, ?_, ?_⟩
  · by_cases hloop : BootLoop (l :: earlier)
    · rw [hauto, if_pos (hsafe.2 hloop), suppressed_eq_iff hplain]
      exact ⟨fun hp => ⟨hloop, hp⟩, fun hp => hp.2⟩
    · rw [hauto, if_neg (fun hs => hloop (hsafe.1 hs))]
      exact ⟨fun hp => absurd hp hplain, fun hp => absurd hp.1 hloop⟩
  · intro hloop
    rw [hauto, if_neg (fun hs => hloop (hsafe.1 hs))]
  · intro hloop
    have hne : (appInit B o l.boot).2.node.info.autostart ≠ .pending := by
      rw [hauto, if_pos (hsafe.2 hloop)]
      exact suppressed_ne_pending _
    obtain ⟨hfired, hne'⟩ := opInit_not_fired B o hne
    exact ⟨hfired, run_not_fired B o hne' l.events⟩
  · rw [opInit_watchdogStreak, UInt32.toNat_toUInt8, hcount]
    omega

/-- A watchdog reset that finds `m`, with nothing after it. -/
def watchdogLife (m : Noinit) : Life := ⟨{ coldBoot with cause := .iwdg, noinit := m }, []⟩

/-- Three watchdog resets. -/
theorem safeMode_iff_bootLoop_third :
    Guarded build179 ⟨true, false⟩ (watchdogLife ⟨noinitMagic, 2⟩)
      [watchdogLife ⟨noinitMagic, 1⟩, watchdogLife ⟨0, 0⟩] := by
  have h1 : Lives build179 ⟨true, false⟩ [watchdogLife ⟨0, 0⟩] := .first (by decide)
  have h2 : Lives build179 ⟨true, false⟩ [watchdogLife ⟨noinitMagic, 1⟩, watchdogLife ⟨0, 0⟩] :=
    .again h1 fun _ => by rw [Life.left_eq]; decide
  exact safeMode_iff_bootLoop (.again h2 fun _ => by rw [Life.left_eq]; decide)

end J1939Gen.Operation
