import J1939Gen.Scheduler.Packing
import J1939Gen.Transport.Bam

/-!
# The text of the VIN

The blob of the vehicle identification number goes out in a frame of 21 bytes: its
text, the terminator, and `0xFF`. A longer blob is cut to leave room for the
terminator.

* `packPgn_vin`: the payload `prv_pack_pgn` builds.
* `startTpPgn_vin`: the BAM session that carries it.
* `readText_vinFrame`: what a reader takes for the text.
-/

namespace J1939Gen.Scheduler

open ByteMem ValueStore

/-- `J1939_KEY_VI_SPN237`. -/
def keyViSpn237 : UInt16 := 3

/-- The catalog index of the VIN. -/
def viIndex : ℕ := 132

/-- `J1939_CAT_PGN_IDX_VI`. -/
def pgnIdxVi : ℕ := 48

/-- The frame of a text. -/
def vinFrame (text : List UInt8) : List UInt8 :=
  text.take 20 ++ vinTerminator :: List.replicate (20 - text.length) 0xFF

/-- What a receiver takes for the text: the bytes before the first terminator. -/
def readText (payload : List UInt8) : List UInt8 := payload.takeWhile fun c => c ≠ vinTerminator

theorem length_vinFrame (text : List UInt8) : (vinFrame text).length = 21 := by
  simp only [vinFrame, List.length_append, List.length_take, List.length_cons,
    List.length_replicate]
  omega

/-- A text that fits the frame is read back. -/
theorem readText_vinFrame {text : List UInt8} (hlen : text.length ≤ 20)
    (hchars : ∀ c ∈ text, c ≠ vinTerminator) : readText (vinFrame text) = text := by
  have hall : ∀ c ∈ text, decide (c ≠ vinTerminator) = true := by
    intro c hc
    exact decide_eq_true (hchars c hc)
  rw [readText, vinFrame, List.take_of_length_le hlen, List.takeWhile_append_of_pos hall,
    List.takeWhile_cons_of_neg (by simp), List.append_nil]

/-- A longer text is cut. -/
theorem vinFrame_of_long {text : List UInt8} (hlen : 20 < text.length) :
    vinFrame text = text.take 20 ++ [vinTerminator] := by
  rw [vinFrame, Nat.sub_eq_zero_of_le hlen.le, List.replicate_zero]

theorem viIndex_spec : viIndex < signalCount ∧ isBlob viIndex = true ∧
    (signalAt viIndex).signalKey = keyViSpn237 ∧ (signalAt viIndex).pgnIndex = pgnIdxVi := by
  decide

theorem indexFromKey_vi : indexFromKey keyViSpn237 = some viIndex := by
  decide

/-- `prv_pack_text` writes the frame into a buffer of `0xFF`. -/
theorem packText_vin (text : List UInt8) :
    ∃ payload, packText (fun _ => 0xFF) vinTxBytes (signalAt viIndex) text = some payload ∧
      bytes payload 0 21 = vinFrame text := by
  have hstart : (signalAt viIndex).startBit / 8 = 0 := by
    rw [(blob_start viIndex_spec.1 viIndex_spec.2.1).1]
    rfl
  have hcount : (if text.length < 20 then text.length else 20) = min text.length 20 := by
    split_ifs <;> omega
  refine ⟨Function.update (copy (fun _ => 0xFF) 0 (fun i => text.getD i 0) (min text.length 20))
    (min text.length 20) vinTerminator, ?_, ?_⟩
  · rw [packText]
    dsimp only
    rw [hstart, if_neg (by decide)]
    show some (Function.update (copy (fun _ => 0xFF) 0 (fun i => text.getD i 0)
      (if text.length < 20 then text.length else 20))
      (0 + if text.length < 20 then text.length else 20) vinTerminator) = _
    rw [hcount, Nat.zero_add]
  · refine List.ext_getElem (by rw [length_bytes, length_vinFrame]) fun i hi _ => ?_
    rw [length_bytes] at hi
    rw [getElem_bytes, Nat.zero_add]
    simp only [vinFrame, List.getElem_append, List.length_take, List.getElem_take]
    split_ifs with hlt
    · -- a character of the text
      rw [Function.update_of_ne (by omega), copy_of_mem _ _ (by omega), Nat.sub_zero,
        List.getD_eq_getElem _ _ (by omega)]
    · by_cases hterm : i = min text.length 20
      · subst hterm
        rw [Function.update_self]
        simp [Nat.min_comm]
      · -- the fill
        rw [Function.update_of_ne hterm, copy_of_not_mem _ _ (by omega), List.getElem_cons]
        rw [dif_neg (by omega), List.getElem_replicate]

section Frame

variable {store : Store} {text : List UInt8}

/-- The payload of the VIN PGN. -/
theorem packPgn_vin (h : getBlob store viIndex = some text) :
    ∃ payload, packPgn store (pgnAt pgnIdxVi) (fun _ => 0xFF) (txLength (pgnAt pgnIdxVi)) =
        (payload, true) ∧
      bytes payload 0 21 = vinFrame text := by
  have hraw : getRaw store viIndex = none := by
    rw [getRaw, if_pos (.inr viIndex_spec.2.1)]
  have hlength : txLength (pgnAt pgnIdxVi) = vinTxBytes := by decide
  have hrange : List.range' (pgnAt pgnIdxVi).firstSignal (pgnAt pgnIdxVi).signalCount =
      [viIndex] := by decide
  obtain ⟨payload, hpack, hbytes⟩ := packText_vin text
  refine ⟨payload, ?_, hbytes⟩
  rw [packPgn, hrange, hlength, List.foldl_cons, List.foldl_nil, packRecord]
  simp only [hraw, h, hpack]

/-- When no BAM is running, the VIN PGN starts one that carries its frame. -/
theorem startTpPgn_vin (h : getBlob store viIndex = some text) {t : Tick} {slot : ℕ}
    (hslot : (t.sched.entry slot).catalogPgnIndex = pgnIdxVi) (hfree : t.sched.tp.state ≠ .sending)
    (nowMs : UInt32) :
    (startTpPgn store slot nowMs t).sched.tp.state = .sending ∧
      (startTpPgn store slot nowMs t).sched.tp.bam =
        ⟨(pgnAt pgnIdxVi).pgn, (pgnAt pgnIdxVi).sourceAddress, vinFrame text⟩ := by
  have hlength : txLength (pgnAt pgnIdxVi) = vinTxBytes := by decide
  have hprepare : Tp.bamPrepare t.sched.tp (txLength (pgnAt pgnIdxVi)) =
      ({ t.sched.tp with payload := fun _ => 0xFF, length := vinTxBytes, state := .prepared },
        true) := by
    rw [Tp.bamPrepare, hlength, if_neg]
    rintro (hsending | hshort | hlong)
    · exact hfree hsending
    · exact absurd hshort (by decide)
    · exact absurd hlong (by decide)
  obtain ⟨payload, hpack, hbytes⟩ := packPgn_vin h
  have hpgn : t.sched.catalogPgn slot = pgnAt pgnIdxVi := by rw [Sched.catalogPgn, hslot]
  unfold startTpPgn
  dsimp only
  rw [hpgn, hprepare]
  dsimp only
  rw [if_neg (by simp), hpack]
  dsimp only
  rw [if_neg (by simp), Tp.bamStart, if_neg (by simp)]
  refine ⟨rfl, ?_⟩
  rw [← hbytes]
  rfl

end Frame

end J1939Gen.Scheduler
