import J1939Gen.Generator.Steps
import J1939Gen.Lib.Mealy

/-!
# Runs of the generator

Every operation of `app_generator.h` keeps the invariant, so every generator
that `App_Gen_Init` and any calls after it can produce satisfies it.

* `inv_step`: one operation.
* `inv_reaches`, `inv_after`: any number of them.
-/

namespace J1939Gen.Generator

open ByteMem ValueStore Scheduler

/-- The operations of `app_generator.h` that change its state. -/
inductive Op
  | init (baudKbps : UInt32)
  | setBaud (baudKbps : UInt32)
  | configSignal (req : SignalRequest) (nowMs : UInt32)
  | setConstantRaw (signalKey : UInt16) (rawValue nowMs : UInt32)
  | beginProfileConfig (expectedScalarCount : UInt16) (expectedBlobCount profileId : UInt8)
  | stageConstantRaw (signalKey : UInt16) (rawValue : UInt32)
  | stageBlobChunk (signalKey : UInt16) (totalLength offset : UInt8) (chunk : Option Mem)
  | stageStringChunk (signalKey : UInt16) (totalLength offset : UInt8) (chunk : Option Mem)
  | commitConfig (clock : ℕ → UInt32)
  | abortConfig
  | setGlobalPercent (percentageBp : UInt16)
  | loadDefaults (clock : ℕ → UInt32)
  | clear
  | start (durationSec nowMs : UInt32)
  | stop
  | process (nowMs : UInt32) (link : ℕ → LinkStatus)
  | noteBusRecovered

/-- One operation. -/
def step (B : Build) (g : Gen) : Op → Gen
  | .init baudKbps => init baudKbps
  | .setBaud baudKbps => setBaud g baudKbps
  | .configSignal req nowMs => (configSignal B g req nowMs).1
  | .setConstantRaw key raw nowMs => (setConstantRaw B g key raw nowMs).1
  | .beginProfileConfig n m profileId => (beginProfileConfig B g n m profileId).1
  | .stageConstantRaw key raw => (stageConstantRaw B g key raw).1
  | .stageBlobChunk key total offset chunk => (stageBlobChunk B g key total offset chunk).1
  | .stageStringChunk key total offset chunk => (stageStringChunk B g key total offset chunk).1
  | .commitConfig clock => (commitConfig B g clock).1
  | .abortConfig => abortConfig g
  | .setGlobalPercent bp => (setGlobalPercent g bp).1
  | .loadDefaults clock => loadDefaults B g clock
  | .clear => clear g
  | .start durationSec nowMs => start g durationSec nowMs
  | .stop => stop g
  | .process nowMs link => (process g nowMs link).1
  | .noteBusRecovered => noteBusRecovered g

/-- **Step lemma.** -/
theorem inv_step {B : SupportedBuild} {g : Gen} {c : Contents} (h : Inv B.val g c) (op : Op) :
    ∃ c', Inv B.val (step B.val g op) c' := by
  cases op with
  | init baudKbps => exact ⟨_, inv_init B.val baudKbps⟩
  | setBaud baudKbps => exact ⟨c, h.setBaud baudKbps⟩
  | configSignal req nowMs => exact h.configSignal req nowMs
  | setConstantRaw key raw nowMs => exact (h.setConstantRaw key raw nowMs).1
  | beginProfileConfig n m profileId => exact ⟨c, (h.beginProfileConfig n m profileId).1⟩
  | stageConstantRaw key raw => exact ⟨c, (h.stageConstantRaw key raw).1⟩
  | stageBlobChunk key total offset chunk => exact ⟨c, (h.stageBlobChunk key total offset chunk).1⟩
  | stageStringChunk key total offset chunk =>
    exact ⟨c, (h.stageStringChunk key total offset chunk).1⟩
  | commitConfig clock => exact (h.commitConfig clock).1
  | abortConfig => exact ⟨c, h.abortConfig⟩
  | setGlobalPercent bp => exact (h.setGlobalPercent bp).1
  | loadDefaults clock => exact (h.loadDefaults clock).imp fun _ hc => hc.1
  | clear => exact ⟨_, h.clear⟩
  | start durationSec nowMs => exact ⟨c, h.start durationSec nowMs⟩
  | stop => exact ⟨c, h.stop⟩
  | process nowMs link => exact ⟨c, h.process nowMs link⟩
  | noteBusRecovered => exact ⟨c, h.noteBusRecovered⟩

/-- Operations lead from `g` to `g'`. -/
def Reaches (B : Build) (g g' : Gen) : Prop := ∃ ops : List Op, ops.foldl (step B) g = g'

/-- **Run lemma.** -/
theorem inv_reaches {B : SupportedBuild} {g g' : Gen} (h : ∃ c, Inv B.val g c)
    (hr : Reaches B.val g g') : ∃ c, Inv B.val g' c := by
  obtain ⟨ops, rfl⟩ := hr
  induction ops generalizing g with
  | nil => exact h
  | cons op ops ih =>
    obtain ⟨c, hc⟩ := h
    exact ih (inv_step hc op)

/-- The generator after `App_Gen_Init` and `ops`. -/
def after (B : Build) (baudKbps : UInt32) (ops : List Op) : Gen :=
  ops.foldl (step B) (init baudKbps)

theorem inv_after (B : SupportedBuild) (baudKbps : UInt32) (ops : List Op) :
    ∃ c, Inv B.val (after B.val baudKbps ops) c :=
  inv_reaches ⟨_, inv_init B.val baudKbps⟩ ⟨ops, rfl⟩

end J1939Gen.Generator
