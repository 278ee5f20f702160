import J1939Gen.Control.Handlers
import J1939Gen.Generator.Coherence

/-!
# Runs of the device

The calls of the generator, the persistence and the boot, received frames and
the retries of deferred responses, in any order.

* `inv_step`, `inv_run`: they keep the invariant of the generator.
* `failure_atomic`: a request that fails changes nothing on the active side.
* `scheduler_coherent`: the scheduler and the value store agree.
* `transactions_exclude_running`: the two transactions and the run flag agree.
-/

namespace J1939Gen.Control

open ByteMem ValueStore Storage Generator Boot Scheduler

/-- What happens to the device. -/
inductive Op
  | call (op : Persistence.Op)
  | restore (suppressAutostart useDefaultsWhenEmpty : Bool) (clock : ℕ → UInt32)
  | tryAutostart (nowMs : UInt32)
  | cancelAutostart
  | frame (f : RxFrame)
  | process (nowMs : UInt32) (link : ℕ → LinkStatus)

def Device.withNode (d : Device) (n : Node) : Device := { d with node := n }

/-- One step. -/
def step (B : Build) (d : Device) : Op → Device
  | .call op => d.withNode (withApp d.node (Persistence.step B d.node.app op))
  | .restore suppress defaults clock => d.withNode (restore B d.node suppress defaults clock)
  | .tryAutostart nowMs => d.withNode (tryAutostart d.node nowMs).1
  | .cancelAutostart => d.withNode (cancelAutostart d.node)
  | .frame f => (route B d f).1
  | .process nowMs link =>
    { d with tx := (TxQueue.process nowMs d.tx.retryNotBeforeMs link d.tx.entries 0).1 }

/-! ## The invariant -/

theorem inv_restoreStored {B : Build} {n : Node} {c : Contents} (h : Inv B n.app.gen c)
    (stored : Storage.Info) (autostart suppress : Bool) (clock : ℕ → UInt32) :
    ∃ c', Inv B (restoreStored B n stored autostart suppress clock).app.gen c' := by
  unfold restoreStored
  rcases (Persistence.load_spec h clock).2 with ⟨e, -, he, hfail⟩ | ⟨_, _, report, -, hok, hload⟩
  · rw [show Persistence.load B n.app clock = ((Persistence.load B n.app clock).1, .error e) from
      Prod.ext rfl he]
    exact ⟨_, hfail.inv.clear⟩
  · rw [show Persistence.load B n.app clock = ((Persistence.load B n.app clock).1, .ok report) from
      Prod.ext rfl hok]
    exact ⟨_, hload.inv⟩

theorem inv_restore {B : SupportedBuild} {n : Node} {c : Contents} (h : Inv B.val n.app.gen c)
    (suppress defaults : Bool) (clock : ℕ → UInt32) :
    ∃ c', Inv B.val (restore B.val n suppress defaults clock).app.gen c' := by
  have hgen := (Persistence.getInfo_keeps n.app).1
  unfold restore
  dsimp only
  generalize hinfo : Persistence.getInfo n.app = r
  rw [hinfo] at hgen
  obtain ⟨app, status, info⟩ := r
  dsimp only at hgen ⊢
  rw [← hgen] at h
  split_ifs
  · exact (h.loadDefaults clock).imp fun _ hc => hc.1
  · exact ⟨c, h⟩
  · exact ⟨_, h.clear⟩
  · exact ⟨_, h.clear⟩
  · exact inv_restoreStored (n := { n with
      info := .start n.app.gen.baudKbps, app := app }) h info.stored info.autostart suppress clock

theorem tryAutostart_gen (n : Node) (nowMs : UInt32) :
    (tryAutostart n nowMs).1.app.gen = n.app.gen ∨
      (tryAutostart n nowMs).1.app.gen = start n.app.gen 0 nowMs := by
  unfold tryAutostart
  split_ifs
  · exact .inl rfl
  · exact .inl rfl
  · exact .inr rfl

theorem cancelAutostart_app (n : Node) : (cancelAutostart n).app = n.app := by
  unfold cancelAutostart
  split_ifs <;> rfl

/-- **Step lemma.** -/
theorem inv_step {B : SupportedBuild} {d : Device} (h : ∃ c, Inv B.val d.node.app.gen c) (op : Op) :
    ∃ c, Inv B.val (step B.val d op).node.app.gen c := by
  obtain ⟨c, hc⟩ := h
  cases op with
  | call op => exact Persistence.inv_step ⟨c, hc⟩ op
  | restore suppress defaults clock => exact inv_restore hc suppress defaults clock
  | tryAutostart nowMs =>
    refine ⟨c, ?_⟩
    show Inv B.val (tryAutostart d.node nowMs).1.app.gen c
    rcases tryAutostart_gen d.node nowMs with heq | heq
    · rw [heq]; exact hc
    · rw [heq]; exact hc.start 0 nowMs
  | cancelAutostart =>
    refine ⟨c, ?_⟩
    show Inv B.val (cancelAutostart d.node).app.gen c
    rw [cancelAutostart_app]
    exact hc
  | frame f => exact (route_spec hc f).1
  | process nowMs link => exact ⟨c, hc⟩

/-- The device after a run from power-up. -/
def after (B : Build) (baudKbps : UInt32) (memory : Memory) (ops : List Op) : Device :=
  ops.foldl (step B) (powerUp baudKbps memory)

/-- **Run lemma.** -/
theorem inv_run {B : SupportedBuild} {d : Device} (h : ∃ c, Inv B.val d.node.app.gen c)
    (ops : List Op) : ∃ c, Inv B.val (ops.foldl (step B.val) d).node.app.gen c := by
  induction ops generalizing d with
  | nil => exact h
  | cons op ops ih => exact ih (inv_step h op)

theorem inv_after (B : SupportedBuild) (baudKbps : UInt32) (memory : Memory) (ops : List Op) :
    ∃ c, Inv B.val (after B.val baudKbps memory ops).node.app.gen c :=
  inv_run ⟨_, inv_init B.val baudKbps⟩ ops

/-! ## Failure atomicity -/

/-- **Failure atomicity.** In every reachable state, a frame whose response is
    not OK leaves the active bank, the generation, the profile, the scheduler and
    the run flag as they were. -/
theorem failure_atomic (B : SupportedBuild) (baudKbps : UInt32) (memory : Memory) (ops : List Op)
    (f : RxFrame) (r : Response) :
    let d := after B.val baudKbps memory ops
    (route B.val d f).2.response = some r → r.status ≠ .ok →
      Untouched d.node.app.gen (route B.val d f).1.node.app.gen := by
  intro d hr hne
  obtain ⟨c, hc⟩ := inv_after B baudKbps memory ops
  exact (route_spec hc f).2 r hr hne

/-- A request from the control tool. -/
def requestOf (bytes : List UInt8) : RxFrame where
  id := 0x18EF80F9
  data := fun i => bytes.getD i 0
  length := 8
  env := ⟨0, 0, fun _ => 0, 0, .ok, ⟨0, 0, false, false, false⟩⟩

/-- One constant is active, and one of the two announced records of a transaction is
    staged. -/
def halfStaged : List Op :=
  [.call (.generator (.setConstantRaw 113 3 0)),
    .frame (requestOf [0x11, 1, 0xF0, 0xBB, 0x55, 0xF1, 2, 0]),
    .frame (requestOf [0x12, 2, 113, 0, 2])]

/-- The COMMIT of the half-staged transaction is answered COUNT_MISMATCH. -/
theorem failure_atomic_commit :
    let d := after build179 250 (Persistence.erased fun _ => 0) halfStaged
    Untouched d.node.app.gen (route build179 d (requestOf [0x13, 3])).1.node.app.gen :=
  failure_atomic ⟨build179, by decide⟩ 250 (Persistence.erased fun _ => 0) halfStaged
    (requestOf [0x13, 3]) ⟨0x93, 3, .countMismatch, 0, 0⟩ (by decide +kernel) (by decide)

/-! ## What always agrees -/

/-- **Coherence.** In every reachable state the scheduler sends exactly what the
    value store holds. -/
theorem scheduler_coherent (B : SupportedBuild) (baudKbps : UInt32) (memory : Memory)
    (ops : List Op) : Coherent B.val (after B.val baudKbps memory ops).node.app.gen := by
  obtain ⟨c, hc⟩ := inv_after B baudKbps memory ops
  exact hc.coherent

/-- **Exclusion.** In every reachable state the transactions and the run flag
    exclude each other. -/
theorem transactions_exclude_running (B : SupportedBuild) (baudKbps : UInt32) (memory : Memory)
    (ops : List Op) : Exclusive B.val (after B.val baudKbps memory ops).node.app.gen := by
  obtain ⟨c, hc⟩ := inv_after B baudKbps memory ops
  exact hc.exclusive

end J1939Gen.Control
