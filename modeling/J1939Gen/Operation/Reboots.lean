import J1939Gen.Operation.Model
import J1939Gen.Storage.Provenance

/-!
# What a board boots with

The power may go at any moment, in the middle of a save, a change of the autostart
flag or an erase, and the flash may fail at any operation; the board boots again
with whatever the slots hold. What it restores was active once, when a save was
called.

* `Stretch`, `cellsAfter`: stretches of power, and the flash they leave.
* `act_wrote`: what one act can do to the flash.
* `images_after`: where the images in the slots come from.
* `boots_what_was_saved`: the main result.
-/

namespace J1939Gen.Operation

open ByteMem ValueStore Storage Generator Boot Control

/-! ## Stretches of power -/

/-- What a boot finds besides the cells of the flash, how many flash operations
    take effect until the next boot (`none`: all), and the acts until then. -/
structure Stretch where
  boot : BootInput
  acts : List Act

/-- The boot, with these cells in the flash. -/
def Stretch.input (s : Stretch) (cell : Mem) : BootInput :=
  { s.boot with memory := ⟨⟨cell, s.boot.memory.flash.left⟩, s.boot.memory.image⟩ }

/-- The device of a stretch after some acts. -/
def Stretch.after (B : Build) (o : Options) (s : Stretch) (cell : Mem) (acts : List Act) : Device :=
  (Mealy.run (act B) (opInit B o (s.input cell)).1.device acts).1

/-- The cells that stretches leave, the latest first; the first one finds an erased flash. -/
def cellsAfter (B : Build) (o : Options) : List Stretch → Mem
  | [] => fun _ => 0xFF
  | s :: earlier => (s.after B o (cellsAfter B o earlier) s.acts).node.app.memory.flash.cell

/-- The act calls `App_Persistence_Save`: a request does when it is executed and
    its reserved bytes are zero. -/
def SavesAt (B : Build) (d : Device) : Act → Prop
  | .call .save => True
  | .frame f =>
    f.data 0 = Opcode.saveConfig.code ∧ reservedBytesAreZero f.data = true ∧
      ∃ r, (route B d f).2 = .executed r
  | _ => False

/-- The active configuration, as a save stores it. -/
def current (g : Gen) : Snapshot := .ofSave g.store g.activeProfileId (g.baudKbps * 1000)

/-- A save was called while it was active. -/
def Saved (B : Build) (o : Options) : List Stretch → Snapshot → Prop
  | [], _ => False
  | s :: earlier, x =>
    (∃ before a later, s.acts = before ++ a :: later ∧
      SavesAt B (s.after B o (cellsAfter B o earlier) before) a ∧
      x = current (s.after B o (cellsAfter B o earlier) before).node.app.gen) ∨
    Saved B o earlier x

/-! ## What an act does to the flash -/

/-- The flash after an act: as it was, or what one call of the storage leaves. -/
inductive Wrote (B : Build) (d : Device) (a : Act) (m : Memory) : Prop
  | nothing (h : m.flash = d.node.app.memory.flash)
  | saved (hat : SavesAt B d a) (h : m = (Persistence.save d.node.app).1.memory)
  | erased (h : m = (Persistence.erase d.node.app).1.memory)
  | autostart (enabled : Bool) (h : m = (Persistence.setAutostart d.node.app enabled).1.memory)

/-- Four of the requests make a call of the persistence, and three of these write. -/
theorem handle_wrote {B : Build} {n : Node} {c : Contents} (h : Inv B n.app.gen c)
    (sequence : UInt8) (data : Mem) (env : Env) (op : Opcode) :
    (handle B n sequence data env op).1.app.memory.flash = n.app.memory.flash ∨
      (op = .saveConfig ∧ reservedBytesAreZero data = true ∧
        (handle B n sequence data env op).1.app.memory = (Persistence.save n.app).1.memory) ∨
      (handle B n sequence data env op).1.app.memory = (Persistence.erase n.app).1.memory ∨
      ∃ enabled, (handle B n sequence data env op).1.app.memory =
        (Persistence.setAutostart n.app enabled).1.memory := by
  cases op with
  | saveConfig =>
    unfold handle handleSaveConfig
    split_ifs with hzero
    · exact .inl rfl
    · exact .inr (.inl ⟨rfl, Bool.of_not_eq_false hzero, rfl⟩)
  | eraseSavedConfig =>
    unfold handle handleEraseSaved
    split_ifs
    · exact .inl rfl
    · exact .inr (.inr (.inl rfl))
  | setAutostart =>
    unfold handle handleSetAutostart
    split_ifs
    · exact .inl rfl
    · exact .inr (.inr (.inr ⟨_, rfl⟩))
  | loadSavedConfig =>
    unfold handle handleLoadSaved
    split_ifs
    · exact .inl rfl
    · exact .inl (Persistence.load_spec h env.clock).1
  | getStatus =>
    unfold handle handleGetStatus statusPage
    dsimp only
    split_ifs
    all_goals first | exact .inl rfl | exact .inl (Persistence.getInfo_keeps n.app).2
  | start =>
    unfold handle handleStart
    dsimp only
    split_ifs
    · exact .inl rfl
    · exact .inl rfl
    · left
      show (cancelAutostart n).app.memory.flash = n.app.memory.flash
      rw [cancelAutostart_app]
  | stop =>
    unfold handle handleStop
    dsimp only
    split_ifs
    · exact .inl rfl
    · left
      show (cancelAutostart n).app.memory.flash = n.app.memory.flash
      rw [cancelAutostart_app]
  | tc1001 => unfold handle handleTc1001; dsimp only; split_ifs <;> exact .inl rfl
  | clearConfig => unfold handle handleClearConfig; dsimp only; split_ifs <;> exact .inl rfl
  | beginConfig => unfold handle handleBeginConfig; dsimp only; split_ifs <;> exact .inl rfl
  | setGlobalPercent => unfold handle handleSetGlobalPercent; split_ifs <;> exact .inl rfl
  | commitConfig => unfold handle handleCommitConfig; split_ifs <;> exact .inl rfl
  | abortConfig => unfold handle handleAbortConfig; dsimp only; split_ifs <;> exact .inl rfl
  | setConst => unfold handle handleSetConst; dsimp only [withGen]; exact .inl rfl
  | setSignalRaw => unfold handle handleSetSignalRaw; dsimp only [withGen]; exact .inl rfl
  | writeBlob => unfold handle handleWriteBlob; dsimp only [withGen]; exact .inl rfl
  | setString => unfold handle handleSetString; dsimp only [withGen]; exact .inl rfl

theorem processLine_memory (B : Build) (n : Node) (c : CliCommand) :
    (processLine B n c).1.app.memory = n.app.memory := by
  have hcancel := congrArg Persistence.App.memory (cancelAutostart_app n)
  unfold processLine
  cases c with
  | start durationSec nowMs => exact hcancel
  | stop => exact hcancel
  | baud baudKbps => dsimp only; unfold cmdBaud; split_ifs <;> rfl
  | config | clear | cantest => dsimp only [withGen]

theorem tryAutostart_memory (n : Node) (nowMs : UInt32) :
    (tryAutostart n nowMs).1.app.memory = n.app.memory := by
  unfold tryAutostart
  split_ifs <;> rfl

/-- **Writes.** -/
theorem act_wrote {B : Build} {d : Device} {c : Contents} (h : Inv B d.node.app.gen c) (a : Act) :
    Wrote B d a (act B d a).1.node.app.memory := by
  cases a with
  | call op =>
    cases op with
    | save => exact .saved trivial rfl
    | erase => exact .erased rfl
    | setAutostart enabled => exact .autostart enabled rfl
    | load clock => exact .nothing (Persistence.load_spec h clock).1
    | getInfo => exact .nothing (Persistence.getInfo_keeps d.node.app).2
    | generator | init => exact .nothing rfl
  | frame f =>
    show Wrote B d (.frame f) (route B d f).1.node.app.memory
    rcases route_cases B d f with ⟨hn, -⟩ | ⟨hn, hout⟩
    · rw [hn]
      exact .nothing rfl
    rw [hn]
    unfold execute at hout ⊢
    cases hop : Opcode.ofByte (f.data 0) with
    | none => exact .nothing rfl
    | some op =>
      rw [hop] at hout
      dsimp only at hout ⊢
      rcases handle_wrote h (f.data 1) f.data f.env op with
        hw | ⟨rfl, hzero, hw⟩ | hw | ⟨enabled, hw⟩
      · exact .nothing hw
      · refine .saved ⟨?_, hzero, _, hout⟩ hw
        unfold Opcode.ofByte at hop
        have hcode := List.find?_some hop
        exact (of_decide_eq_true hcode).symm
      · exact .erased hw
      · exact .autostart enabled hw
  | line c => exact .nothing (congrArg Memory.flash (processLine_memory B d.node c))
  | tryAutostart nowMs => exact .nothing (congrArg Memory.flash (tryAutostart_memory d.node nowMs))
  | cancelAutostart =>
    refine .nothing ?_
    show (cancelAutostart d.node).app.memory.flash = _
    rw [cancelAutostart_app]
  | process => exact .nothing rfl

theorem saveable_of_holds {store : Store} {c : Contents} (h : Holds store c) : Saveable store :=
  ⟨h.wf, h.crc.trans (by rw [h.view])⟩

/-- An act leaves images that were there, and the one it was asked to save. -/
theorem Wrote.imagesFrom {B : Build} {d : Device} {c : Contents} {a : Act} {m : Memory}
    {P : Snapshot → Prop} (hw : Wrote B d a m) (h : Inv B d.node.app.gen c)
    (himages : ImagesFrom P d.node.app.memory.flash.cell)
    (hsave : SavesAt B d a → P (current d.node.app.gen)) : ImagesFrom P m.flash.cell := by
  cases hw with
  | nothing hm =>
    rw [hm]
    exact himages
  | saved hat hm =>
    rw [hm]
    unfold Persistence.save
    split_ifs
    · exact himages
    · exact himages
    · have hopened := openLatest_flash d.node.app.memory
      refine save_imagesFrom (s := (openLatest d.node.app.memory).1) (saveable_of_holds h.active.holds)
        ?_ _ _ (hsave hat) _
      rw [hopened]
      exact himages
  | erased hm =>
    rw [hm]
    unfold Persistence.erase
    split_ifs
    · exact himages
    · exact erase_imagesFrom himages
  | autostart enabled hm =>
    rw [hm]
    unfold Persistence.setAutostart
    split_ifs
    · exact himages
    · exact setAutostart_imagesFrom himages enabled

/-! ## The invariant of the generator -/

theorem processLine_inv {B : SupportedBuild} {n : Node} {c : Contents} (h : Inv B.val n.app.gen c)
    (l : CliCommand) : ∃ c', Inv B.val (processLine B.val n l).1.app.gen c' := by
  cases l with
  | config req nowMs => exact Generator.inv_step h (.configSignal req nowMs)
  | start durationSec nowMs =>
    refine ⟨c, ?_⟩
    show Inv B.val (Generator.start (cancelAutostart n).app.gen durationSec nowMs) c
    rw [cancelAutostart_app]
    exact h.start durationSec nowMs
  | stop =>
    refine ⟨c, ?_⟩
    show Inv B.val (Generator.stop (cancelAutostart n).app.gen) c
    rw [cancelAutostart_app]
    exact h.stop
  | clear => exact Generator.inv_step h .clear
  | baud baudKbps =>
    show ∃ c', Inv B.val (cmdBaud n baudKbps).1.app.gen c'
    unfold cmdBaud
    split_ifs
    · exact ⟨c, h⟩
    · exact ⟨c, h.setBaud baudKbps⟩
  | cantest => exact ⟨c, h.setBaud _⟩

theorem tryAutostart_inv {B : Build} {n : Node} {c : Contents} (h : Inv B n.app.gen c)
    (nowMs : UInt32) : Inv B (tryAutostart n nowMs).1.app.gen c := by
  rcases tryAutostart_gen n nowMs with heq | heq
  · rw [heq]
    exact h
  · rw [heq]
    exact h.start 0 nowMs

theorem act_inv {B : SupportedBuild} {d : Device} {c : Contents}
    (h : Inv B.val d.node.app.gen c) (a : Act) :
    ∃ c', Inv B.val (act B.val d a).1.node.app.gen c' := by
  cases a with
  | call op => exact Persistence.inv_step ⟨c, h⟩ op
  | tryAutostart nowMs => exact ⟨c, tryAutostart_inv h nowMs⟩
  | cancelAutostart =>
    refine ⟨c, ?_⟩
    show Inv B.val (cancelAutostart d.node).app.gen c
    rw [cancelAutostart_app]
    exact h
  | frame f => exact (route_spec h f).1
  | process nowMs link => exact ⟨c, h⟩
  | line l => exact processLine_inv h l

/-! ## The boot -/

theorem restore_flash {B : Build} {n : Node} {c : Contents} (h : Inv B n.app.gen c)
    (suppress defaults : Bool) (clock : ℕ → UInt32) :
    (restore B n suppress defaults clock).app.memory.flash = n.app.memory.flash := by
  obtain ⟨hgen, hflash⟩ := Persistence.getInfo_keeps n.app
  unfold restore
  dsimp only
  generalize hinfo : Persistence.getInfo n.app = r
  rw [hinfo] at hgen hflash
  obtain ⟨app, status, info⟩ := r
  dsimp only at hgen hflash ⊢
  split_ifs
  · exact hflash
  · exact hflash
  · exact hflash
  · exact hflash
  · rw [← hgen] at h
    rw [← hflash]
    unfold restoreStored
    have hload := (Persistence.load_spec h clock).1
    rcases hresult : Persistence.load B app clock with ⟨app', e | report⟩
    · rw [hresult] at hload
      exact hload
    · rw [hresult] at hload
      exact hload

/-- A boot that loads has the latest image, as the generator shows it. -/
theorem restore_loaded {B : Build} {n : Node} {c : Contents} (h : Inv B n.app.gen c)
    {suppress defaults : Bool} {clock : ℕ → UInt32} {n' : Node}
    (hn : n' = restore B n suppress defaults clock) (hres : n'.info.result = .loaded) :
    ∃ slot l g report, Latest n.app.memory.flash.cell slot l ∧
      Persistence.Loaded B g n'.app.gen (latestInfo n.app.memory.flash.cell slot) l report ∧
      n'.info.bitrateKbps * 1000 = (latestInfo n.app.memory.flash.cell slot).bitrateBps := by
  unfold restore Persistence.getInfo at hn
  dsimp only at hn
  rcases openLatest_cases n.app.memory with
    ⟨slot, l, s', hl, ⟨hflash, -⟩, heq⟩ | ⟨-, s', e, -, hcases, heq⟩
  swap
  · -- no image loads
    rw [heq] at hn
    dsimp only at hn
    by_cases he : Persistence.Status.ofStorage e = .empty
    · rw [if_pos he] at hn
      split_ifs at hn
      all_goals
        subst hn
        cases hres
    · rw [if_neg he, if_pos (by rcases hcases with rfl | rfl | rfl <;>
        simp [Persistence.Status.ofStorage])] at hn
      subst hn
      cases hres
  rw [heq] at hn
  dsimp only at hn
  rw [if_neg (by simp), if_neg (by simp)] at hn
  generalize hinfo : latestInfo n.app.memory.flash.cell slot = info at hn ⊢
  by_cases hbit : bitrateSupported info.bitrateBps = false
  · rw [if_pos hbit] at hn
    subst hn
    cases hres
  rw [if_neg hbit] at hn
  obtain ⟨hk, -⟩ := bitrate_cases (Bool.of_not_eq_false hbit)
  unfold restoreStored at hn
  have hspec := (Persistence.load_spec (a := { n.app with memory := s' }) h clock).2
  rcases hload : Persistence.load B { n.app with memory := s' } clock with ⟨app, e | report⟩
  · rw [hload] at hn
    subst hn
    cases hres
  rw [hload] at hn hspec
  dsimp only at hn hspec
  rcases hspec with ⟨e, -, hne, -⟩ | ⟨slot', l', report', hl', -, hloaded⟩
  · cases hne
  rw [hflash] at hl' hloaded
  obtain ⟨rfl, rfl⟩ := hl.unique hl'
  subst hinfo
  subst hn
  exact ⟨_, _, _, report', hl, hloaded, hk⟩

/-- What `OP_Init` leaves of a restored node. -/
structure Ready (n n' : Node) : Prop where
  store : n'.app.gen.store = n.app.gen.store
  profileId : n'.app.gen.activeProfileId = n.app.gen.activeProfileId
  baud : n'.app.gen.baudKbps = n.info.bitrateKbps
  result : n'.info.result = n.info.result
  memory : n'.app.memory = n.app.memory

theorem ready_start (n : Node) (h : n.app.gen.baudKbps = n.info.bitrateKbps) (nowMs : UInt32) :
    Ready n (tryAutostart n nowMs).1 := by
  unfold tryAutostart start
  split_ifs <;> exact ⟨rfl, rfl, h, rfl, rfl⟩

theorem ready_reportReady (n : Node) (canOk : Bool) (nowMs : UInt32) :
    Ready n (reportReady (canJoin n) canOk nowMs).1 := by
  have hjoin : Ready n (canJoin n) := ⟨rfl, rfl, rfl, rfl, rfl⟩
  unfold reportReady
  split_ifs
  · exact hjoin
  · obtain ⟨h1, h2, h3, h4, h5⟩ := ready_start (canJoin n) rfl nowMs
    exact ⟨h1, h2, h3, h4, h5⟩

theorem inv_reportReady {B : Build} {n : Node} {c : Contents} (h : Inv B n.app.gen c)
    (canOk : Bool) (nowMs : UInt32) :
    Inv B (reportReady (canJoin n) canOk nowMs).1.app.gen c := by
  have hjoin : Inv B (canJoin n).app.gen c := h.setBaud n.info.bitrateKbps
  unfold reportReady
  split_ifs
  · exact hjoin
  · exact tryAutostart_inv hjoin nowMs

/-- **Boots.** The flash is only read; what is loaded is an image of it. -/
theorem opInit_spec (B : SupportedBuild) (o : Options) (i : BootInput) {d : Device}
    (hd : d = (opInit B.val o i).1.device) :
    (∃ c, Inv B.val d.node.app.gen c) ∧ d.node.app.memory.flash = i.memory.flash ∧
      ∀ P, ImagesFrom P i.memory.flash.cell → d.node.info.result = .loaded →
        P (current d.node.app.gen) := by
  obtain ⟨safeMode, cause, streak, hnode⟩ : ∃ safeMode cause streak, d.node = (reportReady
      (canJoin (setResetInfo (restore B.val (Control.powerUp defaultBaudKbps i.memory).node safeMode
        o.autostartDefaults i.clock) cause streak)) i.joinOk i.autostartMs).1 :=
    ⟨_, _, _, congrArg Device.node hd⟩
  have hinit : Inv B.val (Control.powerUp defaultBaudKbps i.memory).node.app.gen Contents.empty :=
    inv_init B.val defaultBaudKbps
  have hflash : (Control.powerUp defaultBaudKbps i.memory).node.app.memory.flash = i.memory.flash :=
    rfl
  generalize (Control.powerUp defaultBaudKbps i.memory).node = n₀ at hnode hinit hflash
  have hrestored := inv_restore hinit safeMode o.autostartDefaults i.clock
  have hkept := restore_flash hinit safeMode o.autostartDefaults i.clock
  have hloaded := restore_loaded hinit
    (Eq.refl (restore B.val n₀ safeMode o.autostartDefaults i.clock))
  generalize restore B.val n₀ safeMode o.autostartDefaults i.clock = n at *
  have hready := ready_reportReady (setResetInfo n cause streak) i.joinOk i.autostartMs
  obtain ⟨c, hc⟩ := hrestored
  have hinv := inv_reportReady (n := setResetInfo n cause streak) hc i.joinOk i.autostartMs
  rw [← hnode] at hready hinv
  refine ⟨⟨c, hinv⟩, ?_, ?_⟩
  · rw [hready.memory]
    exact hkept.trans hflash
  intro P himages hres
  obtain ⟨slot, l, g, report, hl, hload, hbit⟩ := hloaded (hready.result.symm.trans hres)
  rw [hflash] at hl hload hbit
  have hrecords : recordsOf d.node.app.gen.store = l.map visited := by
    rw [hready.store]
    exact recordsOf_loaded hload hl.valid.sealed.carries.wf
  have hcrc : getConfigCrc d.node.app.gen.store =
      (latestInfo i.memory.flash.cell slot).configCrc := by
    rw [hready.store]
    exact hload.configCrc
  have hprofile : d.node.app.gen.activeProfileId =
      (latestInfo i.memory.flash.cell slot).profileId := hready.profileId.trans hload.profileId
  have hbaud : d.node.app.gen.baudKbps * 1000 =
      (latestInfo i.memory.flash.cell slot).bitrateBps := by
    rw [hready.baud]
    exact hbit
  have himage : current d.node.app.gen =
      .ofImage (latestInfo i.memory.flash.cell slot) (l.map visited) := by
    unfold current Snapshot.ofSave Snapshot.ofImage
    rw [hrecords, hcrc, hprofile, hbaud]
  rw [himage]
  exact himages slot l hl.valid

/-! ## Histories -/

section Histories

variable {B : SupportedBuild} {o : Options}

/-- The device somewhere in a stretch, after earlier ones. -/
structure Traced (B : SupportedBuild) (o : Options) (history : List Stretch) (d : Device) :
    Prop where
  inv : ∃ c, Inv B.val d.node.app.gen c
  images : ImagesFrom (Saved B.val o history) d.node.app.memory.flash.cell

/-- More acts of the latest stretch. -/
theorem Saved.more {s : Stretch} {earlier : List Stretch} {x : Snapshot}
    (h : Saved B.val o (s :: earlier) x) (later : List Act) :
    Saved B.val o ({ s with acts := s.acts ++ later } :: earlier) x := by
  rcases h with ⟨before, a, after, hacts, hat, hx⟩ | h
  · exact .inl ⟨before, a, after ++ later, by simp [hacts], hat, hx⟩
  · exact .inr h

/-- **One act.** -/
theorem Traced.act {s : Stretch} {earlier : List Stretch}
    (h : Traced B o (s :: earlier) (s.after B.val o (cellsAfter B.val o earlier) s.acts)) (a : Act) :
    Traced B o ({ s with acts := s.acts ++ [a] } :: earlier)
      (s.after B.val o (cellsAfter B.val o earlier) (s.acts ++ [a])) := by
  obtain ⟨⟨c, hc⟩, himages⟩ := h
  have hconcat : s.after B.val o (cellsAfter B.val o earlier) (s.acts ++ [a]) =
      (Operation.act B.val (s.after B.val o (cellsAfter B.val o earlier) s.acts) a).1 := by
    unfold Stretch.after
    rw [Mealy.run_concat]
  rw [hconcat]
  refine ⟨act_inv hc a, ?_⟩
  refine (act_wrote hc a).imagesFrom hc (himages.mono fun x hx => hx.more [a]) fun hat => ?_
  exact .inl ⟨s.acts, a, [], rfl, hat, rfl⟩

/-- **Acts.** -/
theorem traced_acts {earlier : List Stretch}
    (h : ImagesFrom (Saved B.val o earlier) (cellsAfter B.val o earlier)) (s : Stretch)
    (acts : List Act) :
    Traced B o ({ s with acts := acts } :: earlier)
      (s.after B.val o (cellsAfter B.val o earlier) acts) := by
  induction acts using List.reverseRecOn with
  | nil =>
    obtain ⟨hinv, hflash, -⟩ := opInit_spec B o (s.input (cellsAfter B.val o earlier)) rfl
    refine ⟨hinv, ?_⟩
    unfold Stretch.after
    rw [Mealy.run_nil, hflash]
    exact h.mono fun x hx => .inr hx
  | append_singleton acts a ih =>
    exact Traced.act (s := { s with acts := acts }) ih a

/-- **Stretches.** -/
theorem images_after (history : List Stretch) :
    ImagesFrom (Saved B.val o history) (cellsAfter B.val o history) := by
  induction history with
  | nil =>
    intro slot l hl
    have hblank : Dead (slotMem (cellsAfter B.val o []) slot) :=
      dead_of_unmarked (unmarked_of_blank fun _ _ _ => rfl)
    exact absurd ⟨l, hl⟩ hblank.not_loads
  | cons s earlier ih => exact (traced_acts ih s s.acts).images

end Histories

/-- **What boots was saved.** After any stretches of power, with any acts in them
    and the flash failing anywhere: when a boot loads a profile, its records,
    values, CRC, profile id and bitrate are those that were active when
    `App_Persistence_Save` was called once. -/
theorem boots_what_was_saved (B : SupportedBuild) (o : Options) (history : List Stretch)
    (next : Stretch) :
    let d := (opInit B.val o (next.input (cellsAfter B.val o history))).1.device
    d.node.info.result = .loaded → Saved B.val o history (current d.node.app.gen) := by
  intro d hres
  obtain ⟨-, -, hloaded⟩ := opInit_spec B o (next.input (cellsAfter B.val o history)) rfl
  exact hloaded _ (images_after history) hres

/-- One constant, saved by a request, and another one whose save is cut short. -/
theorem boots_what_was_saved_constant :
    let boot (left : Option ℕ) : BootInput :=
      ⟨⟨0, 0⟩, ⟨⟨fun _ => 0xFF, left⟩, fun _ => 0⟩, .powerOn, true, fun _ => 0, 0, 0⟩
    let save : RxFrame := ⟨0x18EF80F9, fun i => [0x18, 0x01].getD i 0, 8,
      ⟨0, 0, fun _ => 0, 0, .ok, ⟨0, 0, false, false, false⟩⟩⟩
    let constant (raw : UInt32) : Act := .call (.generator (.setConstantRaw 113 raw 0))
    let history : List Stretch :=
      [⟨boot (some 9), [constant 3, .frame save]⟩, ⟨boot none, [constant 2, .frame save]⟩]
    let next : Stretch := ⟨boot none, []⟩
    let cell := cellsAfter build179 ⟨true, false⟩ history
    Saved build179 ⟨true, false⟩ history
      (current (opInit build179 ⟨true, false⟩ (next.input cell)).1.device.node.app.gen) :=
  boots_what_was_saved ⟨build179, by decide⟩ ⟨true, false⟩ _ _ (by decide +kernel)

end J1939Gen.Operation
