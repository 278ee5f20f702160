import J1939Gen.Persistence.RoundTrip
import J1939Gen.Generator.Runs

/-!
# Runs of the generator with its saved profile

The calls of `app_generator.h` and `app_persistence.h` in any order keep the
invariant of the generator; the calls that work on the RAM alone, a load among
them, keep the flash.

* `inv_step`, `inv_run`: one call, and any number of them.
* `flash_run`: a run of RAM-only calls.
* `save_load`: what a save stores, a load after it restores.
-/

namespace J1939Gen.Persistence

open ByteMem ValueStore Storage Generator

/-- The calls that change the application. -/
inductive Op
  | generator (op : Generator.Op)
  | init
  | save
  | load (clock : ℕ → UInt32)
  | erase
  | setAutostart (enabled : Bool)
  | getInfo

/-- One call. -/
def step (B : Build) (a : App) : Op → App
  | .generator op => { a with gen := Generator.step B a.gen op }
  | .init => a.init
  | .save => (save a).1
  | .load clock => (load B a clock).1
  | .erase => (erase a).1
  | .setAutostart enabled => (setAutostart a enabled).1
  | .getInfo => (getInfo a).1

/-- The call never writes the flash. -/
def Op.ramOnly : Op → Bool
  | .generator _ | .init | .load _ | .getInfo => true
  | .save | .erase | .setAutostart _ => false

/-- The application after `App_Gen_Init`, with any flash. -/
def start (baudKbps : UInt32) (memory : Memory) (lastStatus : Status) : App where
  gen := Generator.init baudKbps
  memory := memory
  lastStatus := lastStatus

/-- Erased flash that never fails, with anything in the image buffer. -/
def erased (image : Mem) : Memory := ⟨⟨fun _ => 0xFF, none⟩, image⟩

theorem erased_blank (image : Mem) : Blank (erased image) where
  dead _ := dead_of_unmarked (unmarked_of_blank fun _ _ _ => rfl)
  left := rfl

/-! ## What the calls leave alone -/

theorem save_gen (a : App) : (save a).1.gen = a.gen := by
  unfold save
  split_ifs <;> rfl

theorem erase_gen (a : App) : (erase a).1.gen = a.gen := by
  unfold erase
  split_ifs <;> rfl

theorem setAutostart_gen (a : App) (enabled : Bool) : (setAutostart a enabled).1.gen = a.gen := by
  unfold setAutostart
  split_ifs <;> rfl

theorem getInfo_keeps (a : App) :
    (getInfo a).1.gen = a.gen ∧ (getInfo a).1.memory.flash = a.memory.flash := by
  have hflash := openLatest_flash a.memory
  unfold getInfo
  cases h : openLatest a.memory with
  | mk memory result =>
    rw [h] at hflash
    cases result <;> exact ⟨rfl, hflash⟩

/-! ## The invariant of a run -/

/-- **Step lemma.** -/
theorem inv_step {B : SupportedBuild} {a : App} (h : ∃ c, Inv B.val a.gen c) (op : Op) :
    ∃ c, Inv B.val (step B.val a op).gen c := by
  obtain ⟨c, hc⟩ := h
  cases op with
  | generator op => exact Generator.inv_step hc op
  | init => exact ⟨c, hc⟩
  | save => exact ⟨c, by rw [step, save_gen]; exact hc⟩
  | load clock =>
    rcases (load_spec hc clock).2 with ⟨_, -, -, hfail⟩ | ⟨_, l, _, -, -, hload⟩
    · exact ⟨c, hfail.inv⟩
    · exact ⟨_, hload.inv⟩
  | erase => exact ⟨c, by rw [step, erase_gen]; exact hc⟩
  | setAutostart enabled => exact ⟨c, by rw [step, setAutostart_gen]; exact hc⟩
  | getInfo => exact ⟨c, by rw [step, (getInfo_keeps a).1]; exact hc⟩

/-- **Run lemma.** -/
theorem inv_run {B : SupportedBuild} {a : App} (h : ∃ c, Inv B.val a.gen c) (ops : List Op) :
    ∃ c, Inv B.val (ops.foldl (step B.val) a).gen c := by
  induction ops generalizing a with
  | nil => exact h
  | cons op ops ih => exact ih (inv_step h op)

/-- A call that works on the RAM alone keeps the flash. -/
theorem flash_step {B : Build} {a : App} {c : Contents} (h : Inv B a.gen c) {op : Op}
    (hop : op.ramOnly = true) : (step B a op).memory.flash = a.memory.flash := by
  cases op with
  | generator op => rfl
  | init => rfl
  | load clock => exact (load_spec h clock).1
  | getInfo => exact (getInfo_keeps a).2
  | save => cases hop
  | erase => cases hop
  | setAutostart enabled => cases hop

theorem flash_run {B : SupportedBuild} {a : App} (h : ∃ c, Inv B.val a.gen c) {ops : List Op}
    (hops : ∀ op ∈ ops, op.ramOnly = true) :
    (ops.foldl (step B.val) a).memory.flash = a.memory.flash := by
  induction ops generalizing a with
  | nil => rfl
  | cons op ops ih =>
    obtain ⟨c, hc⟩ := h
    rw [List.foldl_cons, ih (inv_step ⟨c, hc⟩ op) fun op hop => hops op (by simp [hop])]
    exact flash_step hc (hops op (by simp))

/-! ## The round trip -/

/-- The generators report the same configuration: records, scalar values, blobs,
    profile id and CRC. -/
structure SameConfig (g g' : Gen) : Prop where
  isActive : ∀ i, isActive g'.store i = isActive g.store i
  getRaw : ∀ i, getRaw g'.store i = getRaw g.store i
  getBlob : ∀ i, getBlob g'.store i = getBlob g.store i
  profileId : g'.activeProfileId = g.activeProfileId
  configCrc : getConfigCrc g'.store = getConfigCrc g.store

/-- Generators that hold one configuration report the same. -/
theorem sameConfig_of_holds {g g' : Gen} {c : Contents} (h : Holds g.store c)
    (h' : Holds g'.store c) (hprofile : g'.activeProfileId = g.activeProfileId) :
    SameConfig g g' := by
  obtain ⟨h1, h2, h3, -, h5⟩ := h.shows
  obtain ⟨h1', h2', h3', -, h5'⟩ := h'.shows
  exact ⟨fun i => (h1' i).trans (h1 i).symm, fun i => (h2' i).trans (h2 i).symm,
    fun i => (h3' i).trans (h3 i).symm, hprofile, h5'.trans h5.symm⟩

/-- The counter of the active records does not wrap. -/
theorem count_pos {B : Build} {g : Gen} {c : Contents} (h : Inv B g c)
    (hpos : 0 < getActiveCount g.store) : 0 < c.count := by
  have hcount : getActiveCount g.store = UInt16.ofNat c.count := h.active.holds.count
  by_contra hn
  rw [hcount, Nat.eq_zero_of_not_pos hn] at hpos
  exact absurd hpos (by decide)

/-- **Round trip.** In every state the calls can reach, stopped, without an open
    transaction and with an active signal, a save succeeds when every flash
    operation does. After it the RAM may change in any way: when the generator is
    stopped again without an open transaction, a load succeeds and restores the
    saved configuration. -/
theorem save_load (B : SupportedBuild) (baudKbps : UInt32) (memory : Memory) (lastStatus : Status)
    (before : List Op) :
    let a := before.foldl (step B.val) (start baudKbps memory lastStatus)
    a.gen.isRunning = false → configTransactionOpen a.gen = false →
      0 < getActiveCount a.gen.store → a.memory.flash.left = none →
      (openLatest a.memory).2 ≠ .error .flashError →
      (∃ info, (save a).2 = .ok info) ∧
        ∀ later : List Op, (∀ op ∈ later, op.ramOnly = true) →
          let a' := later.foldl (step B.val) (save a).1
          a'.gen.isRunning = false → configTransactionOpen a'.gen = false →
            ∀ clock, ∃ report, (load B.val a' clock).2 = .ok report ∧
              SameConfig a.gen (load B.val a' clock).1.gen := by
  intro a hrun hidle hpos hleft hread
  have hm : ∀ a : App, a.gen.isRunning = false → configTransactionOpen a.gen = false →
      a.canMutate = true := by
    intro a h1 h2
    simp [App.canMutate, h1, h2]
  obtain ⟨c, hc⟩ := inv_run ⟨_, inv_init B.val baudKbps⟩ (a := start baudKbps memory lastStatus) before
  obtain ⟨hok, hgen, hstored⟩ := save_active hc (hm a hrun hidle) (count_pos hc hpos) hleft hread
  refine ⟨⟨_, hok⟩, ?_⟩
  intro later hlater a' hrun' hidle' clock
  have hinv : ∃ c, Inv B.val (save a).1.gen c := ⟨c, by rw [hgen]; exact hc⟩
  obtain ⟨c', hc'⟩ := inv_run hinv later
  obtain ⟨report, hr, -, hloaded⟩ := load_stored hc' (hm a' hrun' hidle')
    (hstored.congr (flash_run hinv hlater)) (Inv.fitting hc) clock
  refine ⟨report, hr, sameConfig_of_holds hc.active.holds ?_ hloaded.profileId⟩
  rw [← (Inv.fitting hc).contents]
  exact hloaded.inv.active.holds

/-- One constant on the erased board, cleared again after the save. -/
theorem save_load_constant :
    let a := [.generator (.setConstantRaw 113 2 0)].foldl (step build179)
      (start 250 (erased fun _ => 0) .empty)
    let a' := [.generator .clear].foldl (step build179) (save a).1
    ∃ report, (load build179 a' fun _ => 0).2 = .ok report ∧
      SameConfig a.gen (load build179 a' fun _ => 0).1.gen := by
  have hopen : (openLatest (erased fun _ => 0)).2 ≠ .error .flashError := by
    obtain ⟨_, -, heq⟩ := (erased_blank fun _ => 0).openLatest
    rw [heq]
    simp
  have hclear : ∀ a : App, (step build179 a (.generator .clear)).gen.isRunning = false ∧
      configTransactionOpen (step build179 a (.generator .clear)).gen = false :=
    fun _ => ⟨rfl, rfl⟩
  have h := save_load ⟨build179, by decide⟩ 250 (erased fun _ => 0) .empty
    [.generator (.setConstantRaw 113 2 0)] (by decide +kernel) (by decide +kernel)
    (by decide +kernel) rfl hopen
  have hload := h.2 [.generator .clear] (by simp [Op.ramOnly])
  simp only [List.foldl_cons, List.foldl_nil] at hload ⊢
  exact hload (hclear _).1 (hclear _).2 fun _ => 0

end J1939Gen.Persistence
