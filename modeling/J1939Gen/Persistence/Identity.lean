import J1939Gen.Persistence.Runs
import J1939Gen.Storage.Identity

/-!
# The identity of a configuration

One CRC identifies a configuration, whatever led to it: the value store reports it
after any calls, and the parser computes it over any image with these records.

* `load_crc`: the CRC after a load.
* `restored_crc`: the CRC after writing the records of an accepted image.
* `config_identity`: the main result.
-/

namespace J1939Gen.Persistence

open ByteMem ValueStore Storage Generator

variable {σ : Type}

theorem crc_of_sameReadings {ops ops' : List ValueStore.Op}
    (h : SameReadings (storeAfter ops) (storeAfter ops')) :
    getConfigCrc (storeAfter ops) = getConfigCrc (storeAfter ops') := by
  have hc := (storeRel_after ops).1.holds
  have hc' := (storeRel_after ops').1.holds
  have hsame := (sameReadings_iff hc hc').mp h
  exact hc.crc.trans ((congrArg Contents.crc hsame).trans hc'.crc.symm)

theorem sameReadings_of_stream {ops ops' : List ValueStore.Op}
    (h : configStream (storeAfter ops).active = configStream (storeAfter ops').active) :
    SameReadings (storeAfter ops) (storeAfter ops') := by
  have hc := (storeRel_after ops).1.holds
  have hc' := (storeRel_after ops').1.holds
  rw [configStream_eq, configStream_eq] at h
  have hview := hc.wf.view_of_stream hc'.wf (List.append_cancel_left h)
  rw [sameReadings_iff hc hc', ← hc.view, ← hc'.view, hview]

/-- The calls that write the records of an accepted image succeed, and the store
    then reports the CRC the parser computed. -/
theorem restored_crc {m : Mem} {slot : Slot} {visit : Visitor σ} {c c' : σ} {info : Info}
    (h : parse m slot visit c = (c', .ok info)) :
    ∃ l, Carries m l ∧ ∀ ops, inTransaction (storeAfter ops) = false →
      (∀ st ∈ (Mealy.run apiStep (storeAfter ops) (restoreOps l)).2, st = .ok) ∧
      getConfigCrc (storeAfter (ops ++ restoreOps l)) = parsedCrc m visit c := by
  obtain ⟨l, hcarries, -, -, hinfo⟩ := parse_sound h
  refine ⟨l, hcarries, fun ops hidle => ?_⟩
  obtain ⟨hok, hholds⟩ := storeAfter_restore hcarries.wf hidle
  refine ⟨hok, ?_⟩
  rw [parsedCrc_eq h, hinfo]
  exact hholds.crc.trans hcarries.configCrc.symm

/-- After a load the store reports the CRC the parser computed over the image; the
    comparison of the two never fails. -/
theorem load_crc {B : Build} {a : App} {c : Contents} (h : Inv B a.gen c) (clock : ℕ → UInt32) :
    (load B a clock).2 ≠ .error .verifyError ∧
      ∀ report, (load B a clock).2 = .ok report → ∃ slot info,
        parse (slotMem a.memory.flash.cell slot) slot visitNone () = ((), .ok info) ∧
        getConfigCrc (load B a clock).1.gen.store =
          parsedCrc (slotMem a.memory.flash.cell slot) visitNone () := by
  rcases (load_spec h clock).2 with ⟨e, hne, he, -⟩ | ⟨slot, l, report, hl, hok, hloaded⟩
  · rw [he]
    refine ⟨fun heq => ?_, fun report heq => ?_⟩
    · injection heq with heq
      exact hne heq
    · cases heq
  · rw [hok]
    refine ⟨by simp, fun _ _ => ?_⟩
    have hparse : parse (slotMem a.memory.flash.cell slot) slot visitNone () =
        ((), .ok (latestInfo a.memory.flash.cell slot)) := by
      rw [(parse_of_carries hl.valid.sealed.carries slot visitNone ()).1
        (by rw [visitAll_visitNone]) hl.valid.profile, visitAll_visitNone]
    exact ⟨slot, _, hparse, hloaded.configCrc.trans (parsedCrc_eq hparse).symm⟩

/-- **Identity.** After any calls of the value store the configuration CRC depends on
    what the readers return alone, and so it is the CRC of a stream that determines
    what they return. For every image the parser accepts, the CRC it computes is the
    one the store reports when the records of the image have been written, on any
    store without an open transaction; and so it is in every application that loads
    its image from the flash. -/
theorem config_identity :
    (∀ ops ops', SameReadings (storeAfter ops) (storeAfter ops') →
        getConfigCrc (storeAfter ops) = getConfigCrc (storeAfter ops')) ∧
      (∀ b, configCrc b = Crc32.final (Crc32.update Crc32.init (configStream b))) ∧
      (∀ ops ops', configStream (storeAfter ops).active = configStream (storeAfter ops').active →
        SameReadings (storeAfter ops) (storeAfter ops')) ∧
      (∀ (m : Mem) (slot : Slot) (visit : Visitor σ) (c c' : σ) (info : Info),
        parse m slot visit c = (c', .ok info) → ∃ l, Carries m l ∧
          ∀ ops, inTransaction (storeAfter ops) = false →
            (∀ st ∈ (Mealy.run apiStep (storeAfter ops) (restoreOps l)).2, st = .ok) ∧
            getConfigCrc (storeAfter (ops ++ restoreOps l)) = parsedCrc m visit c) ∧
      (∀ (B : SupportedBuild) (baudKbps : UInt32) (memory : Memory) (lastStatus : Status)
        (before : List Op) (clock : ℕ → UInt32),
        let a := before.foldl (step B.val) (start baudKbps memory lastStatus)
        (load B.val a clock).2 ≠ .error .verifyError ∧
          ∀ report, (load B.val a clock).2 = .ok report → ∃ slot info,
            parse (slotMem a.memory.flash.cell slot) slot visitNone () = ((), .ok info) ∧
            getConfigCrc (load B.val a clock).1.gen.store =
              parsedCrc (slotMem a.memory.flash.cell slot) visitNone ()) := by
  refine ⟨fun _ _ => crc_of_sameReadings, configCrc_configStream,
    fun _ _ => sameReadings_of_stream, fun m slot visit c c' info h => restored_crc h, ?_⟩
  intro B baudKbps memory lastStatus before clock a
  obtain ⟨c, hc⟩ := inv_run ⟨_, inv_init B.val baudKbps⟩ (a := start baudKbps memory lastStatus) before
  exact load_crc hc clock

end J1939Gen.Persistence
