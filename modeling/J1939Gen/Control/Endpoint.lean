import J1939Gen.Control.Model

/-!
# The endpoint of the control protocol

The filter compares the fields `J1939_Frame_Parse_Id` reads from the identifier.
The parser does not read bit 25, the extended data page, so a second identifier
reaches the handlers.

* `atEndpoint_iff`: the two identifiers that pass the filter.
* `endpoint_exact_iff`: the endpoint is exact but for the second one.
-/

namespace J1939Gen.Control

open ByteMem Boot

/-- `APP_CONTROL`'s request identifier: priority 6, PGN `0xEF00`, source `0xF9`,
    destination `0x80`. -/
def controlId : UInt32 := 0x18EF80F9

/-- The same fields, with the extended data page bit set. -/
def extendedPageId : UInt32 := 0x1AEF80F9

/-- The filter passes the 29-bit identifiers that agree with `controlId` on every
    bit but bit 25. -/
theorem atEndpoint_iff {id : UInt32} (hid : id.toNat < 2 ^ 29) :
    atEndpoint (Header.parseId id) = true ↔ id = controlId ∨ id = extendedPageId := by
  have hfields : atEndpoint (Header.parseId id) = true ↔
      (Header.parseId id).pgn.toNat = 61184 ∧ (Header.parseId id).priority.toNat = 6 ∧
        (Header.parseId id).sourceAddress.toNat = 0xF9 ∧
        (Header.parseId id).destinationAddress.toNat = 0x80 := by
    unfold atEndpoint
    rw [decide_eq_true_iff, ← UInt32.toNat_inj, ← UInt8.toNat_inj, ← UInt8.toNat_inj,
      ← UInt8.toNat_inj]
    rfl
  rw [hfields, Header.toNat_parseId_pgn, Header.toNat_parseId_priority,
    Header.toNat_parseId_sourceAddress, Header.toNat_parseId_destinationAddress,
    ← UInt32.toNat_inj, ← UInt32.toNat_inj, show controlId.toNat = 0x18EF80F9 from rfl,
    show extendedPageId.toNat = 0x1AEF80F9 from rfl]
  constructor
  · rintro ⟨h1, h2, h3, h4⟩
    split_ifs at h1 h4 <;> omega
  · rintro (h | h)
    · rw [h]
      decide
    · rw [h]
      decide

/-- A poll that receives the frame changes nothing and answers nothing. -/
def Dropped (B : Build) (d : Device) (frameBudget : UInt8) (f : RxFrame) : Prop :=
  (poll B d frameBudget [f]).1 = d ∧ ∀ o ∈ (poll B d frameBudget [f]).2, o.response = none

/-- A frame that does not pass the filter is dropped. -/
theorem route_of_not_atEndpoint {B : Build} {d : Device} {f : RxFrame}
    (h : atEndpoint (Header.parseId f.id) = false) : route B d f = (d, .ignored) := by
  unfold route
  dsimp only
  split_ifs
  · unfold handleControlFrame
    rw [if_pos h]
  · rfl

theorem dropped_of_not_atEndpoint {B : Build} {d : Device} {frameBudget : UInt8} {f : RxFrame}
    (h : atEndpoint (Header.parseId f.id) = false) : Dropped B d frameBudget f := by
  unfold Dropped poll
  cases frameBudget.toNat with
  | zero => exact ⟨rfl, fun o ho => by cases ho⟩
  | succ n =>
    rw [List.take_succ_cons, List.take_nil, Mealy.run_cons, route_of_not_atEndpoint h]
    refine ⟨rfl, fun o ho => ?_⟩
    obtain rfl := List.mem_singleton.mp ho
    rfl

/-- A STOP request, as the tester sends it, under the identifier `id`. -/
def stopFrame (id : UInt32) : RxFrame where
  id := id
  data := fun i => [0x02, 0x01].getD i 0
  length := 8
  env := ⟨0, 0, fun _ => 0, 0, .ok, ⟨0, 0, false, false, false⟩⟩

/-- The device at power-up, with an erased flash. -/
def freshDevice : Device := powerUp 250 ⟨⟨fun _ => 0xFF, none⟩, fun _ => 0⟩

/-- Under the second identifier STOP is executed and answered. -/
theorem stop_executed : (poll build179 freshDevice 1 [stopFrame extendedPageId]).2 =
    [.executed ⟨0x82, 1, .ok, 0, 0⟩] := by
  decide +kernel

theorem not_dropped_of_response {B : Build} {d : Device} {frameBudget : UInt8} {f : RxFrame}
    {r : Response} (h : (poll B d frameBudget [f]).2 = [.executed r]) :
    ¬ Dropped B d frameBudget f := by
  rintro ⟨-, hnone⟩
  have hr := hnone (.executed r) (by rw [h]; exact List.mem_singleton_self _)
  cases hr

/-- The frame is not under `controlId`, and it is not dropped. -/
theorem extended_page_not_dropped : extendedPageId ≠ controlId ∧
    ¬ Dropped build179 freshDevice 1 (stopFrame extendedPageId) :=
  ⟨by decide, not_dropped_of_response stop_executed⟩

/-- **Endpoint.** A frame under another identifier than `controlId` is dropped,
    for every identifier but the one that differs from it in the extended data
    page. -/
theorem endpoint_exact_iff (id : UInt32) (hid : id.toNat < 2 ^ 29) :
    (id ≠ controlId → ∀ B d frameBudget f, f.id = id → Dropped B d frameBudget f) ↔
      id ≠ extendedPageId := by
  constructor
  · rintro h rfl
    apply not_dropped_of_response stop_executed
    apply h (by decide)
    rfl
  · intro hne hctl B d frameBudget f hf
    apply dropped_of_not_atEndpoint
    rw [hf, ← Bool.not_eq_true, atEndpoint_iff hid]
    rintro (h | h)
    · exact hctl h
    · exact hne h

/-- A frame of priority 5. -/
theorem endpoint_exact_priority :
    (0x14EF80F9 ≠ controlId →
      ∀ B d frameBudget f, f.id = 0x14EF80F9 → Dropped B d frameBudget f) ↔
      0x14EF80F9 ≠ extendedPageId :=
  endpoint_exact_iff 0x14EF80F9 (by decide)

end J1939Gen.Control
