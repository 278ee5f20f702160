import J1939Gen.Boot.Model
import J1939Gen.Persistence.Loading

/-!
# The restore is all-or-nothing

Whatever bytes the two slots hold, the restore ends with the records of the
latest valid image active, or with an empty application; it never writes the
flash.

* `restoreStored_spec`: the restore of an image that was found.
* `restore_all_or_nothing`: the main result.
-/

namespace J1939Gen.Boot

open Bitmask ByteMem ValueStore Storage Generator Persistence

/-- The application at power-up: `App_Persistence_Init`, `App_Gen_Init`. -/
def powerUp (baudKbps : UInt32) (memory : Memory) : App :=
  ⟨Generator.init baudKbps, memory.init, .empty⟩

/-- `APP_DEFAULT_CAN_BAUD_KBPS`. -/
def defaultBaudKbps : UInt32 := 250

/-- Nothing is configured, and nothing will start by itself. -/
structure Bare (n : Node) (baudKbps : UInt32) : Prop where
  active : ∀ i, isActive n.app.gen.store i = false
  scheduler : n.app.gen.sched.pgns = []
  config : n.app.gen.config.state = .idle
  store : n.app.gen.store.txnState = .idle
  running : n.app.gen.isRunning = false
  autostart : n.info.autostart = .off
  bitrate : n.info.bitrateKbps = baudKbps

/-- The image was applied. -/
structure Restored (n : Node) (info : Storage.Info) (l : List Record) : Prop where
  result : n.info.result = .loaded
  records : recordsOf n.app.gen.store = l.map visited
  activeCrc : getConfigCrc n.app.gen.store = info.configCrc
  configCrc : n.info.configCrc = info.configCrc
  sequence : n.info.sequence = info.sequence
  bitrate : n.info.bitrateKbps * 1000 = info.bitrateBps
  supported : n.info.bitrateKbps = 250 ∨ n.info.bitrateKbps = 500
  config : n.app.gen.config.state = .idle
  running : n.app.gen.isRunning = false

section Bare

variable {n : Node}

theorem isActive_of_empty {store : Store} (h : Holds store Contents.empty) (i : ℕ) :
    isActive store i = false := by
  rw [h.isActive_eq]
  rfl

theorem pgns_of_empty {B : Build} {g : Gen} (h : Inv B g Contents.empty) : g.sched.pgns = [] := by
  have hlen := h.active.scheduled.length_pgns
  rw [Contents.pgns, Contents.active_empty, Finset.image_empty, Finset.card_empty] at hlen
  exact List.length_eq_zero_iff.mp hlen

/-- `prv_fail` clears the application. -/
theorem fail_bare (B : Build) {c : Contents} (h : Inv B n.app.gen c) (status : Persistence.Status) :
    Bare (fail n status) n.info.bitrateKbps ∧ (fail n status).info.result = .loadFailed ∧
      (fail n status).app.memory = n.app.memory := by
  have hclear := h.clear
  have hidle : (Generator.clear n.app.gen).config.state = .idle := rfl
  have hgen : (fail n status).app.gen = Generator.clear n.app.gen := rfl
  refine ⟨⟨?_, ?_, ?_, ?_, ?_, rfl, rfl⟩, rfl, by dsimp only [fail]⟩
  · rw [hgen]; exact isActive_of_empty hclear.active.holds
  · rw [hgen]; exact pgns_of_empty hclear
  · rw [hgen, hidle]
  · rw [hgen]; exact hclear.txn.storeIdle hidle
  · rw [hgen]; rfl

/-- An application that was just initialised is bare. -/
theorem init_bare (B : Build) {baudKbps : UInt32} (hg : n.app.gen = Generator.init baudKbps)
    (hi : n.info = .start baudKbps) : Bare n baudKbps := by
  have hinit := inv_init B baudKbps
  rw [← hg] at hinit
  refine ⟨isActive_of_empty hinit.active.holds, pgns_of_empty hinit, ?_, ?_, ?_, ?_, ?_⟩
  · rw [hg]; rfl
  · rw [hg]; rfl
  · rw [hg]; rfl
  · rw [hi]; rfl
  · rw [hi]; rfl

end Bare

/-- A supported bitrate is 250 or 500 kbit/s. -/
theorem bitrate_cases {bps : UInt32} (h : bitrateSupported bps = true) :
    (bps / 1000) * 1000 = bps ∧ (bps / 1000 = 250 ∨ bps / 1000 = 500) := by
  simp only [bitrateSupported, decide_eq_true_eq] at h
  rcases h with rfl | rfl <;> decide

/-- The records the active bank holds after a load. -/
theorem recordsOf_loaded {B : Build} {g g' : Gen} {info : Storage.Info} {l : List Record}
    {report : CommitReport} (h : Loaded B g g' info l report) (hl : WfRecords l) :
    recordsOf g'.store = l.map visited := by
  rw [recordsOf, h.inv.active.holds.view, records_contentsOf hl]

/-- The restore of an image that was found: it is applied, or nothing is left. -/
theorem restoreStored_spec {B : Build} {n : Node} {c : Contents} {slot : Slot} {l : List Record}
    (h : Inv B n.app.gen c) (hl : Latest n.app.memory.flash.cell slot l)
    (hbit : bitrateSupported (latestInfo n.app.memory.flash.cell slot).bitrateBps = true)
    (autostart suppress : Bool) (clock : ℕ → UInt32) {n' : Node}
    (hn : n' = restoreStored B n (latestInfo n.app.memory.flash.cell slot) autostart suppress
      clock) :
    n'.app.memory.flash = n.app.memory.flash ∧
      (Restored n' (latestInfo n.app.memory.flash.cell slot) l ∨
        n'.info.result = .loadFailed ∧ Bare n' n.info.bitrateKbps) := by
  obtain ⟨hflash, hcases⟩ := load_spec h clock
  unfold restoreStored at hn
  rcases hcases with ⟨e, -, he, hf⟩ | ⟨slot', l', report, hl', hr, hloaded⟩
  · have heq : load B n.app clock = ((load B n.app clock).1, .error e) := Prod.ext rfl he
    rw [heq] at hn
    obtain ⟨hbare, hres, hmem⟩ := fail_bare B (n := { n with app := (load B n.app clock).1 }) hf.inv e
    subst hn
    exact ⟨(congrArg Memory.flash hmem).trans hflash, .inr ⟨hres, hbare⟩⟩
  · obtain ⟨rfl, rfl⟩ := hl.unique hl'
    have heq : load B n.app clock = ((load B n.app clock).1, .ok report) := Prod.ext rfl hr
    rw [heq] at hn
    obtain ⟨hk, hs⟩ := bitrate_cases hbit
    subst hn
    exact ⟨hflash, .inl ⟨rfl, recordsOf_loaded hloaded hl.valid.sealed.carries.wf,
      hloaded.configCrc, rfl, rfl, hk, hs, hloaded.config, hloaded.isRunning⟩⟩

/-- **Restore.** Without demo defaults and whatever the slots hold: the latest
    image the parser accepts is active, or nothing is configured. The flash is
    only read. -/
theorem restore_all_or_nothing (B : Build) (memory : Memory) (info : BootInfo)
    (resetCause watchdogStreak : UInt8) (suppressAutostart : Bool) (clock : ℕ → UInt32) :
    let n := restore B ⟨powerUp defaultBaudKbps memory, info, resetCause, watchdogStreak⟩
      suppressAutostart false clock
    n.app.memory.flash = memory.flash ∧
      ((∃ slot l, Latest memory.flash.cell slot l ∧
          Reads memory (latestInfo memory.flash.cell slot) (l.map visited) ∧
          Restored n (latestInfo memory.flash.cell slot) l) ∨
        n.info.result ≠ .loaded ∧ Bare n defaultBaudKbps) := by
  intro n
  have hn : n = restore B ⟨powerUp defaultBaudKbps memory, info, resetCause, watchdogStreak⟩
    suppressAutostart false clock := rfl
  have hinit : Inv B (powerUp defaultBaudKbps memory).gen Contents.empty :=
    inv_init B defaultBaudKbps
  unfold restore getInfo at hn
  rcases openLatest_cases (powerUp defaultBaudKbps memory).memory with
    ⟨slot, l, s', hl, ⟨hflash, -⟩, heq⟩ | ⟨-, s', e, hflash, hcases, heq⟩
  · -- an image was found
    have hreads : Reads memory (latestInfo memory.flash.cell slot) (l.map visited) := by
      have hl' : Latest memory.flash.cell slot l := hl
      exact hl'.reads
    dsimp only at hn
    rw [heq] at hn
    dsimp only at hn
    rw [if_neg (by simp), if_neg (by simp)] at hn
    cases hbit : bitrateSupported
        (latestInfo (powerUp defaultBaudKbps memory).memory.flash.cell slot).bitrateBps with
    | false =>
      rw [if_pos hbit] at hn
      obtain ⟨hbare, hres, hmem⟩ := fail_bare B (n := ⟨{ powerUp defaultBaudKbps memory with
        memory := s' }, .start defaultBaudKbps, resetCause, watchdogStreak⟩) hinit
        .unsupportedConfig
      rw [hn]
      refine ⟨(congrArg Memory.flash hmem).trans hflash, .inr ⟨?_, hbare⟩⟩
      intro hres'
      have := hres.symm.trans hres'
      cases this
    | true =>
      rw [if_neg (by rw [hbit]; simp)] at hn
      rw [← hflash] at hl hbit hn
      obtain ⟨h1, h2⟩ := restoreStored_spec (n := ⟨{ powerUp defaultBaudKbps memory with
        memory := s' }, .start defaultBaudKbps, resetCause, watchdogStreak⟩) hinit hl hbit _ _
        clock hn
      rw [hflash] at hl h2
      refine ⟨h1.trans hflash, h2.imp (fun hr => ⟨slot, l, hl, hreads, hr⟩) ?_⟩
      rintro ⟨hres, hbare⟩
      exact ⟨by rw [hres]; simp, hbare⟩
  · -- no image loads
    dsimp only at hn
    rw [heq] at hn
    dsimp only at hn
    by_cases he : Persistence.Status.ofStorage e = .empty
    · rw [if_pos he, if_neg (by simp)] at hn
      rw [hn]
      exact ⟨hflash, .inr ⟨by simp [BootInfo.start], init_bare B rfl rfl⟩⟩
    · rw [if_neg he, if_pos (by rcases hcases with rfl | rfl | rfl <;>
        simp [Persistence.Status.ofStorage])] at hn
      obtain ⟨hbare, hres, hmem⟩ := fail_bare B (n := ⟨{ powerUp defaultBaudKbps memory with
        memory := s' }, .start defaultBaudKbps, resetCause, watchdogStreak⟩) hinit
        (Persistence.Status.ofStorage e)
      rw [hn]
      refine ⟨(congrArg Memory.flash hmem).trans hflash, .inr ⟨?_, hbare⟩⟩
      intro hres'
      have := hres.symm.trans hres'
      cases this

end J1939Gen.Boot
