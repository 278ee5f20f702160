import J1939Gen.Generator.Timer
import J1939Gen.Persistence.Runs
import J1939Gen.Persistence.Visits

/-!
# The persistence and the timer of a run

A load stages and commits through the generator, so it leaves the timer of a run alone
as these do; the other calls never touch the generator.

* `load_timer`, `step_timer`: the calls.
-/

namespace J1939Gen.Persistence

open ByteMem Storage Generator

/-! ## A load -/

section

variable (B : Build) {g : Gen}

theorem commitLoaded_timer (a : App) (info : Info) (clock : ℕ → UInt32) :
    SameTimer a.gen (commitLoaded B a info clock).1.gen := by
  have hcommit := commitConfig_timer B a.gen clock
  unfold commitLoaded
  dsimp only
  split_ifs <;> exact hcommit

theorem applyLatest_timer (a : App) (info : Info) (clock : ℕ → UInt32) :
    SameTimer a.gen (applyLatest B a info clock).1.gen := by
  have hvisit := visitLatest_keeps (B := B) (P := SameTimer a.gen)
    (fun g key raw h => h.trans (stageConstantRaw_timer B g key raw))
    (fun g key total offset chunk h => h.trans (stageBlobChunk_timer B g key total offset chunk))
    a.memory (.refl a.gen)
  unfold applyLatest
  generalize visitLatest a.memory (loadRecord B) ⟨a.gen, true⟩ = visited at hvisit ⊢
  obtain ⟨memory, context, e | info'⟩ := visited
  · exact hvisit.trans ⟨rfl, rfl, rfl⟩
  · dsimp only at hvisit ⊢
    split_ifs
    · exact hvisit.trans ⟨rfl, rfl, rfl⟩
    · exact hvisit.trans (commitLoaded_timer B { a with gen := context.gen, memory } info clock)

theorem load_timer (a : App) (clock : ℕ → UInt32) : SameTimer a.gen (load B a clock).1.gen := by
  unfold load
  split_ifs
  · exact .refl _
  rcases openLatest a.memory with ⟨memory, e | info⟩
  · exact .refl _
  · have hbegin := beginProfileConfig_timer B a.gen info.scalarCount info.blobCount info.profileId
    dsimp only
    split_ifs
    · exact hbegin
    · exact hbegin.trans (applyLatest_timer B { a with gen := _, memory } info clock)

/-- **Calls.** -/
theorem step_timer (a : App) (op : Op)
    (hstart : ∀ durationSec nowMs, op ≠ .generator (.start durationSec nowMs)) :
    TimerKept a.gen (step B a op).gen := by
  cases op with
  | generator op =>
    exact Generator.step_timer B a.gen op fun d t heq => hstart d t (congrArg Op.generator heq)
  | init => exact .refl _
  | save => rw [step, save_gen]; exact .refl _
  | load clock => exact (load_timer B a clock).kept
  | erase => rw [step, erase_gen]; exact .refl _
  | setAutostart enabled => rw [step, setAutostart_gen]; exact .refl _
  | getInfo => rw [step, (getInfo_keeps a).1]; exact .refl _

end

end J1939Gen.Persistence
