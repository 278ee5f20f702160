import J1939Gen.Console.Model
import J1939Gen.Lib.History

/-!
# The rings under every interleaving

`Inv` is what every event keeps: the indices are in range, the firmware is where
its local variables say, and bytes that wait to be sent have the transmit
interrupt on their side.

* `sent_stream`: the bytes written to `DR` are the bytes of `prv_put`, in order.
* `sent_irqs`: the interrupt drains the ring, and lets a waiting `prv_put` go on.
* `returned_stream`: `hal_console_read` returns what arrived, in order, less the
  bytes that found 127 others waiting.
* `put_never_waits`: `hal_console_tx_free` counts the calls that will not wait.
-/

namespace J1939Gen.Console

open SpscRing

/-! ## Indices -/

theorem toNat_nextIndex {size : UInt32} {k : ℕ} (hk : k ≤ 16) (hsize : size.toNat = 2 ^ k)
    (i : UInt16) : (nextIndex size i).toNat = next (2 ^ k) i.toNat := by
  have hpos : 0 < 2 ^ k := Nat.two_pow_pos k
  have hle : 2 ^ k ≤ 2 ^ 16 := Nat.pow_le_pow_right (by norm_num) hk
  have hi : i.toNat < 2 ^ 16 := i.toNat_lt
  have hone : (1 : UInt32) ≤ size := by
    rw [UInt32.le_iff_toNat_le, hsize]
    exact hpos
  have hmask : (size - 1).toNat = 2 ^ k - 1 := by
    rw [UInt32.toNat_sub_of_le _ _ hone, hsize]
    rfl
  have hsum : (i.toUInt32 + 1).toNat = i.toNat + 1 := by
    rw [UInt32.toNat_add, UInt16.toNat_toUInt32, UInt32.toNat_one]
    omega
  have hlt : (i.toNat + 1) % 2 ^ k < 2 ^ k := Nat.mod_lt _ hpos
  unfold nextIndex next
  rw [UInt32.toNat_toUInt16, UInt32.toNat_and, hsum, hmask, Nat.and_two_pow_sub_one_eq_mod]
  exact Nat.mod_eq_of_lt (by omega)

theorem toNat_nextIndex_tx (i : UInt16) :
    (nextIndex txBufSize i).toNat = next 1024 i.toNat :=
  toNat_nextIndex (k := 10) (by norm_num) rfl i

theorem toNat_nextIndex_rx (i : UInt16) :
    (nextIndex rxBufSize i).toNat = next 128 i.toNat :=
  toNat_nextIndex (k := 7) (by norm_num) rfl i

/-! ## The state as queues -/

namespace State

/-- The bytes in the transmit ring, oldest first. -/
def txQueue (s : State) : List UInt8 := entries s.txBuf 1024 s.txHead.toNat s.txTail.toNat

/-- The bytes in the receive ring, oldest first. -/
def rxQueue (s : State) : List UInt8 := entries s.rxBuf 128 s.rxHead.toNat s.rxTail.toNat

/-- The byte of a `prv_put` that has not advanced `s_tx_head` yet. -/
def pending (s : State) : List UInt8 :=
  match s.pc with
  | .putWait c _ => [c]
  | .putStore c _ => [c]
  | .putPublish _ => [s.txBuf s.txHead.toNat]
  | .idle | .putLoadCr1 | .putStoreCr1 _ | .readTake | .readAdvance _ => []

/-- The transmit interrupt is on. -/
def Enabled (s : State) : Prop := s.cr1 &&& usartCr1Txeie ≠ 0

/-- `prv_put` has advanced `s_tx_head` and not yet set `USART_CR1_TXEIE`. -/
def Publishing (s : State) : Prop :=
  match s.pc with
  | .putLoadCr1 | .putStoreCr1 _ => True
  | .idle | .putWait _ _ | .putStore _ _ | .putPublish _ | .readTake | .readAdvance _ => False

/-- `prv_put` waits for a free slot. -/
def Blocked (s : State) : Prop := ∃ c, s.pc = .putWait c s.txTail

end State

/-- What the local variables of the firmware say about the rings. -/
def LocalsOk (s : State) : Prop :=
  match s.pc with
  | .putWait _ next => next = nextIndex txBufSize s.txHead
  | .putStore _ next | .putPublish next =>
    next = nextIndex txBufSize s.txHead ∧ next ≠ s.txTail
  | .putStoreCr1 cr1 => cr1 ||| usartCr1Txeie = init.cr1 ||| usartCr1Txeie
  | .readTake => s.rxTail ≠ s.rxHead
  | .readAdvance c => s.rxTail ≠ s.rxHead ∧ c = s.rxBuf s.rxTail.toNat
  | .idle | .putLoadCr1 => True

/-- What every event keeps. -/
structure Inv (s : State) : Prop where
  txHead : s.txHead.toNat < 1024
  txTail : s.txTail.toNat < 1024
  rxHead : s.rxHead.toNat < 128
  rxTail : s.rxTail.toNat < 128
  cr1 : s.cr1 ||| usartCr1Txeie = init.cr1 ||| usartCr1Txeie
  locals : LocalsOk s
  wake : s.txTail ≠ s.txHead → s.Publishing ∨ s.Enabled

theorem inv_init : Inv init where
  txHead := by decide
  txTail := by decide
  rxHead := by decide
  rxTail := by decide
  cr1 := rfl
  locals := trivial
  wake := fun h => absurd rfl h

/-! ## Bits of `CR1` -/

theorem or_txeie_enabled (cr1 : UInt32) : (cr1 ||| usartCr1Txeie) &&& usartCr1Txeie ≠ 0 := by
  intro h
  have hbit := congrArg (fun x : UInt32 => x.toNat.testBit 7) h
  have h7 : usartCr1Txeie.toNat.testBit 7 = true := by decide
  simp [h7] at hbit

theorem clear_or_txeie (cr1 : UInt32) :
    (cr1 &&& ~~~usartCr1Txeie) ||| usartCr1Txeie = cr1 ||| usartCr1Txeie := by
  rw [← UInt32.toBitVec_inj]
  ext i hi
  simp
  grind

/-! ## What one event does to the queues -/

/-- The bytes handed to `prv_put`. -/
def putsOf (tr : List Shown) : List UInt8 :=
  tr.filterMap fun | .put c => some c | .sent _ | .arrived _ _ | .returned _ => none

/-- The bytes written to `DR`. -/
def sentOf (tr : List Shown) : List UInt8 :=
  tr.filterMap fun | .sent c => some c | .put _ | .arrived _ _ | .returned _ => none

/-- The bytes that arrived and were kept. -/
def keptOf (tr : List Shown) : List UInt8 :=
  tr.filterMap fun
    | .arrived c kept => if kept then some c else none
    | .put _ | .sent _ | .returned _ => none

/-- The bytes that `hal_console_read` returned. -/
def returnedOf (tr : List Shown) : List UInt8 :=
  tr.filterMap fun | .returned c => c | .put _ | .sent _ | .arrived _ _ => none

@[simp] theorem putsOf_append (tr tr' : List Shown) : putsOf (tr ++ tr') = putsOf tr ++ putsOf tr' :=
  List.filterMap_append

@[simp] theorem sentOf_append (tr tr' : List Shown) : sentOf (tr ++ tr') = sentOf tr ++ sentOf tr' :=
  List.filterMap_append

@[simp] theorem keptOf_append (tr tr' : List Shown) : keptOf (tr ++ tr') = keptOf tr ++ keptOf tr' :=
  List.filterMap_append

@[simp] theorem returnedOf_append (tr tr' : List Shown) :
    returnedOf (tr ++ tr') = returnedOf tr ++ returnedOf tr' :=
  List.filterMap_append

/-- The bytes on the way out: in the ring, or in the hands of `prv_put`. -/
def State.outgoing (s : State) : List UInt8 := s.txQueue ++ s.pending

/-- `r` is reached from `s` within the invariant, and what it shows accounts for
    the bytes on both ways. -/
structure Flow (s : State) (r : State × List Shown) : Prop where
  inv : Inv r.1
  tx : s.outgoing ++ putsOf r.2 = sentOf r.2 ++ r.1.outgoing
  rx : s.rxQueue ++ keptOf r.2 = returnedOf r.2 ++ r.1.rxQueue

theorem Flow.trans {s t u : State} {tr tr' : List Shown} (h : Flow s (t, tr))
    (h' : Flow t (u, tr')) : Flow s (u, tr ++ tr') where
  inv := h'.inv
  tx := by
    have h1 := h.tx
    have h2 := h'.tx
    simp only at h1 h2
    simp only [putsOf_append, sentOf_append]
    rw [← List.append_assoc, h1, List.append_assoc, h2, List.append_assoc]
  rx := by
    have h1 := h.rx
    have h2 := h'.rx
    simp only at h1 h2
    simp only [keptOf_append, returnedOf_append]
    rw [← List.append_assoc, h1, List.append_assoc, h2, List.append_assoc]

/-- A step that shows nothing and moves no byte. -/
theorem Flow.silent {s t : State} (h : Inv t) (htx : t.outgoing = s.outgoing)
    (hrx : t.rxQueue = s.rxQueue) : Flow s (t, []) where
  inv := h
  tx := by simp [putsOf, sentOf, htx]
  rx := by simp [keptOf, returnedOf, hrx]

theorem flow_irqReceive {s : State} (h : Inv s) (sr : UInt32) (dr : UInt8) :
    Flow s (irqReceive s sr dr) := by
  unfold irqReceive
  split
  · simp only
    by_cases hroom : nextIndex rxBufSize s.rxHead = s.rxTail
    · rw [if_neg (not_not.mpr hroom)]
      refine ⟨h, ?_, ?_⟩ <;> simp [putsOf, sentOf, keptOf, returnedOf]
    · rw [if_pos hroom]
      have hne : next 128 s.rxHead.toNat ≠ s.rxTail.toNat := by
        rw [← toNat_nextIndex_rx]
        exact fun heq => hroom (UInt16.toNat_inj.mp heq)
      refine ⟨⟨h.txHead, h.txTail, ?_, h.rxTail, h.cr1, ?_, h.wake⟩, ?_, ?_⟩
      · rw [toNat_nextIndex_rx]
        exact next_lt (by norm_num) _
      · have hlocals := h.locals
        unfold LocalsOk at hlocals ⊢
        cases hpc : s.pc with
        | readTake =>
          simp only
          exact fun heq => hroom heq.symm
        | readAdvance c =>
          simp only [hpc] at hlocals ⊢
          -- The slot of the byte the firmware took is not the one that is written.
          have hslot : s.rxTail.toNat ≠ s.rxHead.toNat :=
            fun heq => hlocals.1 (UInt16.toNat_inj.mp heq)
          rw [Function.update_of_ne hslot]
          exact ⟨fun heq => hroom heq.symm, hlocals.2⟩
        | idle => trivial
        | putLoadCr1 => trivial
        | putWait c next => simpa [hpc] using hlocals
        | putStore c next => simpa [hpc] using hlocals
        | putPublish next => simpa [hpc] using hlocals
        | putStoreCr1 cr1 => simpa [hpc] using hlocals
      · simp [putsOf, sentOf, State.outgoing, State.txQueue, State.pending]
      · simp only [keptOf, returnedOf, State.rxQueue, List.filterMap_cons, List.filterMap_nil,
          if_true, List.nil_append]
        rw [toNat_nextIndex_rx, entries_publish _ h.rxHead h.rxTail hne,
          entries_write _ h.rxHead h.rxTail, Function.update_self]
  · exact .silent h rfl rfl

theorem flow_irqTransmit {s : State} (h : Inv s) (sr : UInt32) : Flow s (irqTransmit s sr) := by
  unfold irqTransmit
  split
  · rename_i hon
    by_cases hempty : s.txTail = s.txHead
    · rw [if_neg (not_not.mpr hempty)]
      refine .silent ⟨h.txHead, h.txTail, h.rxHead, h.rxTail, ?_, ?_, ?_⟩ rfl rfl
      · exact (clear_or_txeie s.cr1).trans h.cr1
      · have hlocals := h.locals
        unfold LocalsOk at hlocals ⊢
        exact hlocals
      · exact fun hne => absurd hempty hne
    · rw [if_pos hempty]
      have hne : s.txTail.toNat ≠ s.txHead.toNat := fun heq => hempty (UInt16.toNat_inj.mp heq)
      refine ⟨⟨h.txHead, ?_, h.rxHead, h.rxTail, h.cr1, ?_, fun _ => .inr hon.1⟩, ?_, ?_⟩
      · rw [toNat_nextIndex_tx]
        exact next_lt (by norm_num) _
      · have hlocals := h.locals
        -- Only a full ring would let `s_tx_tail` reach `next`.
        have htail : nextIndex txBufSize s.txHead ≠ nextIndex txBufSize s.txTail := by
          intro heq
          have hidx := congrArg UInt16.toNat heq
          rw [toNat_nextIndex_tx, toNat_nextIndex_tx] at hidx
          exact hne (next_inj h.txHead h.txTail hidx).symm
        unfold LocalsOk at hlocals ⊢
        cases hpc : s.pc with
        | putStore c next =>
          simp only [hpc] at hlocals ⊢
          exact ⟨hlocals.1, by rw [hlocals.1]; exact htail⟩
        | putPublish next =>
          simp only [hpc] at hlocals ⊢
          exact ⟨hlocals.1, by rw [hlocals.1]; exact htail⟩
        | idle => trivial
        | putLoadCr1 => trivial
        | putWait c next => simpa [hpc] using hlocals
        | putStoreCr1 cr1 => simpa [hpc] using hlocals
        | readTake => simpa [hpc] using hlocals
        | readAdvance c => simpa [hpc] using hlocals
      · simp only [putsOf, sentOf, State.outgoing, State.txQueue, State.pending]
        rw [entries_take _ h.txHead h.txTail hne, toNat_nextIndex_tx]
        simp
      · simp [keptOf, returnedOf, State.rxQueue]
  · exact .silent h rfl rfl

theorem flow_irqHandler {s : State} (h : Inv s) (sr : UInt32) (dr : UInt8) :
    Flow s (irqHandler s sr dr) := by
  have hrx := flow_irqReceive h sr dr
  exact hrx.trans (flow_irqTransmit hrx.inv sr)

theorem flow_put {s : State} (h : Inv s) (hidle : s.pc = .idle) (c : UInt8) : Flow s (put s c) := by
  have hwake : s.txTail ≠ s.txHead → s.Enabled := by
    intro hne
    exact (h.wake hne).resolve_left (by simp [State.Publishing, hidle])
  refine ⟨⟨h.txHead, h.txTail, h.rxHead, h.rxTail, h.cr1, rfl, fun hne => .inr (hwake hne)⟩,
    ?_, ?_⟩
  · simp [put, putsOf, sentOf, State.outgoing, State.txQueue, State.pending, hidle]
  · simp [put, keptOf, returnedOf, State.rxQueue]

theorem flow_read {s : State} (h : Inv s) (hidle : s.pc = .idle) : Flow s (read s) := by
  have hwake : s.txTail ≠ s.txHead → s.Enabled := by
    intro hne
    exact (h.wake hne).resolve_left (by simp [State.Publishing, hidle])
  unfold read
  split
  · refine ⟨h, ?_, ?_⟩ <;> simp [putsOf, sentOf, keptOf, returnedOf]
  · rename_i hne
    refine .silent ⟨h.txHead, h.txTail, h.rxHead, h.rxTail, h.cr1, hne, fun hne => .inr (hwake hne)⟩
      ?_ rfl
    simp [State.outgoing, State.txQueue, State.pending, hidle]

/-- One case an access of the firmware. -/
theorem flow_resume {s : State} (h : Inv s) : Flow s (resume s) := by
  have hlocals := h.locals
  have hwake := h.wake
  unfold resume
  unfold LocalsOk at hlocals
  unfold State.Publishing at hwake
  cases hpc : s.pc with
  | idle => exact .silent h rfl rfl
  | putWait c next =>
    simp only [hpc] at hlocals hwake ⊢
    split
    · exact .silent h rfl rfl
    · rename_i hroom
      refine .silent ⟨h.txHead, h.txTail, h.rxHead, h.rxTail, h.cr1, ⟨hlocals, hroom⟩, hwake⟩ ?_ rfl
      simp [State.outgoing, State.txQueue, State.pending, hpc]
  | putStore c next =>
    simp only [hpc] at hlocals hwake ⊢
    refine .silent ⟨h.txHead, h.txTail, h.rxHead, h.rxTail, h.cr1, hlocals, hwake⟩ ?_ rfl
    simp only [State.outgoing, State.txQueue, State.pending, hpc]
    rw [entries_write _ h.txHead h.txTail, Function.update_self]
  | putPublish next =>
    simp only [hpc] at hlocals hwake ⊢
    obtain ⟨hnext, hroom⟩ := hlocals
    have hne : SpscRing.next 1024 s.txHead.toNat ≠ s.txTail.toNat := by
      rw [← toNat_nextIndex_tx, ← hnext]
      exact fun heq => hroom (UInt16.toNat_inj.mp heq)
    refine .silent ⟨?_, h.txTail, h.rxHead, h.rxTail, h.cr1, trivial, fun _ => .inl trivial⟩ ?_ rfl
    · rw [hnext, toNat_nextIndex_tx]
      exact next_lt (by norm_num) _
    · simp only [State.outgoing, State.txQueue, State.pending, hpc]
      rw [hnext, toNat_nextIndex_tx, entries_publish _ h.txHead h.txTail hne, List.append_nil]
  | putLoadCr1 =>
    refine .silent ⟨h.txHead, h.txTail, h.rxHead, h.rxTail, h.cr1, h.cr1, fun _ => .inl trivial⟩
      ?_ rfl
    simp [State.outgoing, State.txQueue, State.pending, hpc]
  | putStoreCr1 cr1 =>
    simp only [hpc] at hlocals hwake ⊢
    refine .silent ⟨h.txHead, h.txTail, h.rxHead, h.rxTail, ?_, trivial,
      fun _ => .inr (or_txeie_enabled cr1)⟩ ?_ rfl
    · simpa [UInt32.or_assoc] using hlocals
    · simp [State.outgoing, State.txQueue, State.pending, hpc]
  | readTake =>
    simp only [hpc] at hlocals hwake ⊢
    refine .silent ⟨h.txHead, h.txTail, h.rxHead, h.rxTail, h.cr1, ⟨hlocals, rfl⟩, hwake⟩ ?_ rfl
    simp [State.outgoing, State.txQueue, State.pending, hpc]
  | readAdvance c =>
    simp only [hpc] at hlocals hwake ⊢
    obtain ⟨hne, hc⟩ := hlocals
    have hne' : s.rxTail.toNat ≠ s.rxHead.toNat := fun heq => hne (UInt16.toNat_inj.mp heq)
    refine ⟨⟨h.txHead, h.txTail, h.rxHead, ?_, h.cr1, trivial, hwake⟩, ?_, ?_⟩
    · rw [toNat_nextIndex_rx]
      exact next_lt (by norm_num) _
    · simp [putsOf, sentOf, State.outgoing, State.txQueue, State.pending, hpc]
    · simp only [keptOf, returnedOf, State.rxQueue]
      rw [entries_take _ h.rxHead h.rxTail hne', toNat_nextIndex_rx, hc]
      simp

theorem flow_step {s : State} (h : Inv s) (e : Event) : Flow s (step s e) := by
  cases e with
  | put c =>
    simp only [step]
    split
    · rename_i hidle
      exact flow_put h hidle c
    · exact .silent h rfl rfl
  | read =>
    simp only [step]
    split
    · rename_i hidle
      exact flow_read h hidle
    · exact .silent h rfl rfl
  | resume => exact flow_resume h
  | irq sr dr => exact flow_irqHandler h sr dr

/-! ## Runs -/

theorem after_append (s : State) (es es' : List Event) :
    after s (es ++ es') = after (after s es) es' := by
  simp [after, Mealy.run_append]

theorem trace_append (s : State) (es es' : List Event) :
    trace s (es ++ es') = trace s es ++ trace (after s es) es' := by
  simp [after, trace, Mealy.run_append]

theorem flow_run {s : State} (h : Inv s) (es : List Event) : Flow s (after s es, trace s es) := by
  induction es generalizing s with
  | nil => exact .silent h rfl rfl
  | cons e es ih =>
    have hstep := flow_step h e
    exact hstep.trans (ih hstep.inv)

/-- **The way out.** Under every interleaving the bytes written to `DR` are, in
    order, the first of the bytes handed to `prv_put`; the others wait in the ring,
    and while any waits the transmit interrupt is on or about to be turned on. -/
theorem sent_stream (es : List Event) :
    putsOf (trace init es) =
        sentOf (trace init es) ++ ((after init es).txQueue ++ (after init es).pending) ∧
      (after init es).txQueue.length ≤ 1023 ∧
      ((after init es).txQueue ≠ [] → (after init es).Publishing ∨ (after init es).Enabled) := by
  have h := flow_run inv_init es
  refine ⟨?_, ?_, ?_⟩
  · have htx := h.tx
    simpa [State.outgoing, State.txQueue, State.pending, init, entries, used] using htx
  · have hlt := @used_lt 1024 (by norm_num) (after init es).txHead.toNat
      (after init es).txTail.toNat
    rw [State.txQueue, length_entries]
    omega
  · intro hne
    apply h.inv.wake
    intro heq
    exact hne ((entries_eq_nil_iff _ h.inv.txHead h.inv.txTail).mpr (congrArg UInt16.toNat heq))

/-! ## The interrupt drains the ring -/

theorem sentOf_irqReceive (s : State) (sr : UInt32) (dr : UInt8) :
    sentOf (irqReceive s sr dr).2 = [] := by
  unfold irqReceive
  split
  · simp only
    split <;> simp [sentOf]
  · simp [sentOf]

/-- The first branch of the handler leaves the transmit side alone. -/
theorem irqReceive_tx (s : State) (sr : UInt32) (dr : UInt8) :
    (irqReceive s sr dr).1.txQueue = s.txQueue ∧ (irqReceive s sr dr).1.cr1 = s.cr1 ∧
      (irqReceive s sr dr).1.pc = s.pc := by
  unfold irqReceive
  split
  · simp only
    split <;> exact ⟨rfl, rfl, rfl⟩
  · exact ⟨rfl, rfl, rfl⟩

/-- One interrupt with `TXE` set sends the oldest byte. -/
theorem irqTransmit_sends {s : State} (h : Inv s) (hpub : ¬ s.Publishing) {sr : UInt32}
    (htxe : sr &&& usartSrTxe ≠ 0) :
    sentOf (irqTransmit s sr).2 = s.txQueue.take 1 ∧
      (irqTransmit s sr).1.txQueue = s.txQueue.drop 1 ∧ (irqTransmit s sr).1.pc = s.pc := by
  unfold irqTransmit
  by_cases hempty : s.txTail = s.txHead
  · have hnil : s.txQueue = [] :=
      (entries_eq_nil_iff _ h.txHead h.txTail).mpr (congrArg UInt16.toNat hempty)
    rw [hnil]
    split
    · rw [if_neg (not_not.mpr hempty)]
      exact ⟨rfl, hnil, rfl⟩
    · exact ⟨rfl, hnil, rfl⟩
  · have hon : s.Enabled := (h.wake hempty).resolve_left hpub
    have hne : s.txTail.toNat ≠ s.txHead.toNat := fun heq => hempty (UInt16.toNat_inj.mp heq)
    rw [if_pos ⟨hon, htxe⟩, if_pos hempty]
    simp only [State.txQueue]
    rw [entries_take _ h.txHead h.txTail hne, toNat_nextIndex_tx]
    exact ⟨rfl, rfl, trivial⟩

theorem irqHandler_sends {s : State} (h : Inv s) (hpub : ¬ s.Publishing) {sr : UInt32}
    (htxe : sr &&& usartSrTxe ≠ 0) (dr : UInt8) :
    sentOf (irqHandler s sr dr).2 = s.txQueue.take 1 ∧
      (irqHandler s sr dr).1.txQueue = s.txQueue.drop 1 ∧ (irqHandler s sr dr).1.pc = s.pc := by
  have hrx := flow_irqReceive h sr dr
  obtain ⟨hqueue, -, hpc⟩ := irqReceive_tx s sr dr
  have hpub' : ¬ (irqReceive s sr dr).1.Publishing := by
    unfold State.Publishing at hpub ⊢
    rwa [hpc]
  obtain ⟨hsent, hdrop, hpc'⟩ := irqTransmit_sends hrx.inv hpub' htxe
  refine ⟨?_, ?_, hpc'.trans hpc⟩
  · simp only [irqHandler, sentOf_append, sentOf_irqReceive, List.nil_append]
    rw [hsent, hqueue]
  · simp only [irqHandler]
    rw [hdrop, hqueue]

/-- Interrupts while the firmware does nothing. -/
def irqs (srs : List (UInt32 × UInt8)) : List Event := srs.map fun x => .irq x.1 x.2

theorem irqs_send {s : State} (h : Inv s) (hpub : ¬ s.Publishing) (srs : List (UInt32 × UInt8))
    (htxe : ∀ x ∈ srs, x.1 &&& usartSrTxe ≠ 0) :
    sentOf (trace s (irqs srs)) = s.txQueue.take srs.length ∧
      (after s (irqs srs)).txQueue = s.txQueue.drop srs.length ∧
      (after s (irqs srs)).pc = s.pc := by
  induction srs generalizing s with
  | nil => simp [irqs, trace, after, sentOf]
  | cons x srs ih =>
    obtain ⟨hsent, hdrop, hpc⟩ := irqHandler_sends h hpub (htxe x (by simp)) x.2
    have hpub' : ¬ (irqHandler s x.1 x.2).1.Publishing := by
      unfold State.Publishing at hpub ⊢
      rwa [hpc]
    obtain ⟨hsent', hdrop', hpc'⟩ := ih (flow_irqHandler h x.1 x.2).inv hpub'
      fun y hy => htxe y (List.mem_cons_of_mem x hy)
    have htrace : trace s (irqs (x :: srs)) =
        (irqHandler s x.1 x.2).2 ++ trace (irqHandler s x.1 x.2).1 (irqs srs) := rfl
    have hafter : after s (irqs (x :: srs)) = after (irqHandler s x.1 x.2).1 (irqs srs) := rfl
    rw [htrace, hafter, sentOf_append, hsent, hsent', hdrop', hdrop, hpc', hpc, List.length_cons]
    refine ⟨?_, ?_, rfl⟩
    · rw [Nat.add_comm srs.length 1, List.take_add]
    · rw [List.drop_drop, Nat.add_comm]

/-! ### Calls with no interrupt in them -/

/-- A call of `prv_put` with no interrupt in it. -/
def putCall (c : UInt8) : List Event := [.put c, .resume, .resume, .resume, .resume, .resume]

/-- A call into a ring with room returns, with its byte published. -/
theorem after_putCall {s : State} (hidle : s.pc = .idle)
    (hroom : nextIndex txBufSize s.txHead ≠ s.txTail) (c : UInt8) :
    after s (putCall c) = { s with
      txBuf := Function.update s.txBuf s.txHead.toNat c
      txHead := nextIndex txBufSize s.txHead
      cr1 := s.cr1 ||| usartCr1Txeie } := by
  simp [after, putCall, Mealy.run_cons, Mealy.run_nil, step, put, resume, hidle, hroom]

/-- `n` calls with no interrupt in them. -/
def putCalls (c : UInt8) (n : ℕ) : List Event := (List.replicate n (putCall c)).flatten

/-- They fill `n` places of the empty ring. -/
theorem after_putCalls (c : UInt8) {n : ℕ} (hn : n ≤ 1023) :
    (after init (putCalls c n)).pc = .idle ∧
      (after init (putCalls c n)).txHead.toNat = n ∧ (after init (putCalls c n)).txTail = 0 := by
  induction n with
  | zero => exact ⟨rfl, rfl, rfl⟩
  | succ n ih =>
    obtain ⟨hpc, hhead, htail⟩ := ih (by omega)
    have hsplit : putCalls c (n + 1) = putCalls c n ++ putCall c := by
      simp [putCalls, List.replicate_succ']
    have hnext : (nextIndex txBufSize (after init (putCalls c n)).txHead).toNat = n + 1 := by
      rw [toNat_nextIndex_tx, hhead, SpscRing.next, Nat.mod_eq_of_lt (by omega)]
    have hroom : nextIndex txBufSize (after init (putCalls c n)).txHead ≠
        (after init (putCalls c n)).txTail := by
      rw [htail]
      intro h
      rw [h] at hnext
      exact absurd hnext (by simp)
    rw [hsplit, after_append, after_putCall hpc hroom]
    exact ⟨hpc, hnext, htail⟩

/-- After 1023 of them the ring is full. -/
theorem nextIndex_putCalls (c : UInt8) :
    nextIndex txBufSize (after init (putCalls c 1023)).txHead =
      (after init (putCalls c 1023)).txTail := by
  obtain ⟨-, hhead, htail⟩ := after_putCalls c (le_refl 1023)
  have hwrap : SpscRing.next (2 ^ 10) 1023 = 0 := rfl
  rw [htail]
  apply UInt16.toNat_inj.mp
  rw [toNat_nextIndex_tx, hhead]
  exact hwrap

/-- A call into a full ring waits. -/
theorem after_put_full {s : State} (hidle : s.pc = .idle)
    (hfull : nextIndex txBufSize s.txHead = s.txTail) (c : UInt8) :
    (after s [.put c, .resume]).pc = .putWait c s.txTail ∧
      (after s [.put c, .resume]).txTail = s.txTail := by
  simp [after, Mealy.run_cons, Mealy.run_nil, step, put, resume, hidle, hfull]

/-- 1023 bytes, and one more call. -/
def fullRing : List Event := putCalls 65 1023 ++ [.put 66, .resume]

/-- **No byte is stuck.** Wherever the firmware stands, short of the last two
    accesses of `prv_put`, each interrupt with `TXE` set sends the next byte of the
    ring, and one of them lets a `prv_put` that waits go on. -/
theorem sent_irqs (es : List Event) (hpub : ¬ (after init es).Publishing)
    (srs : List (UInt32 × UInt8)) (htxe : ∀ x ∈ srs, x.1 &&& usartSrTxe ≠ 0) :
    sentOf (trace init (es ++ irqs srs)) =
        sentOf (trace init es) ++ (after init es).txQueue.take srs.length ∧
      (srs ≠ [] → ∀ c next, (after init es).pc = .putWait c next →
        (after init (es ++ irqs srs ++ [.resume])).pc = .putStore c next) := by
  have hinv : Inv (after init es) := (flow_run inv_init es).inv
  obtain ⟨hsent, hdrop, hpc⟩ := irqs_send hinv hpub srs htxe
  refine ⟨by rw [trace_append, sentOf_append, hsent], ?_⟩
  intro hne c next hwait
  have hinv' : Inv (after (after init es) (irqs srs)) := (flow_run hinv (irqs srs)).inv
  rw [after_append, after_append]
  set t := after (after init es) (irqs srs) with ht
  have htpc : t.pc = .putWait c next := hpc.trans hwait
  -- One byte less, so the ring is not full.
  have hlen := congrArg List.length hdrop
  rw [List.length_drop, State.txQueue, State.txQueue, length_entries, length_entries] at hlen
  have hpos : 0 < srs.length := List.length_pos_iff.mpr hne
  have hlt := @used_lt 1024 (by norm_num) (after init es).txHead.toNat
    (after init es).txTail.toNat
  have hroom : next ≠ t.txTail := by
    intro heq
    have hlocals := hinv'.locals
    simp only [LocalsOk, htpc] at hlocals
    have hidx := congrArg UInt16.toNat (hlocals.symm.trans heq)
    rw [toNat_nextIndex_tx, next_eq_tail_iff hinv'.txHead hinv'.txTail] at hidx
    omega
  show (resume t).1.pc = .putStore c next
  simp [resume, htpc, hroom]

/-- The ring is full and the call waits, until an interrupt takes a byte. -/
theorem sent_irqs_full :
    (after init fullRing).Blocked ∧
      sentOf (trace init (fullRing ++ irqs [(usartSrTxe, 0)])) =
        sentOf (trace init fullRing) ++ (after init fullRing).txQueue.take 1 ∧
      (after init (fullRing ++ irqs [(usartSrTxe, 0)] ++ [.resume])).pc = .putStore 66 0 := by
  obtain ⟨hidle, -, hzero⟩ := after_putCalls 65 (le_refl 1023)
  obtain ⟨hpc, htail⟩ := after_put_full hidle (nextIndex_putCalls 65) 66
  rw [← after_append, ← fullRing] at hpc htail
  have hblocked : (after init fullRing).Blocked := ⟨66, by rw [hpc, htail]⟩
  have hpub : ¬ (after init fullRing).Publishing := by
    rw [State.Publishing, hpc]
    exact not_false
  have htxe : ∀ x ∈ [(usartSrTxe, (0 : UInt8))], x.1 &&& usartSrTxe ≠ 0 := by
    intro x hx
    rw [List.mem_singleton.mp hx]
    decide
  obtain ⟨hsent, hgo⟩ := sent_irqs fullRing hpub [(usartSrTxe, 0)] htxe
  exact ⟨hblocked, hsent, hgo (by decide) 66 0 (by rw [hpc, hzero])⟩

/-! ## The way in -/

/-- The bit of `CR1` that lets a received byte interrupt. -/
theorem receive_enabled {s : State} (h : Inv s) : s.cr1 &&& usartCr1Rxneie ≠ 0 := by
  intro hzero
  have hcr1 := congrArg (fun x : UInt32 => x.toNat.testBit 5) h.cr1
  have hbit := congrArg (fun x : UInt32 => x.toNat.testBit 5) hzero
  have h5 : usartCr1Rxneie.toNat.testBit 5 = true := by decide
  have h5' : usartCr1Txeie.toNat.testBit 5 = false := by decide
  have hinit : init.cr1.toNat.testBit 5 = true := by decide
  simp only [UInt32.toNat_or, UInt32.toNat_and, Nat.testBit_or, Nat.testBit_and, h5, h5', hinit,
    Bool.or_false, Bool.and_true] at hcr1 hbit
  rw [hcr1] at hbit
  exact absurd hbit (by decide)

/-- The byte is kept if fewer than 127 are waiting. -/
def KeptIfRoom (before : List Shown) (e : Shown) : Prop :=
  ∀ c kept, e = .arrived c kept →
    (kept = true ↔ (keptOf before).length < (returnedOf before).length + 127)

/-- `DR` is read only by the first branch of the handler. -/
theorem irqTransmit_no_arrival (s : State) (sr : UInt32) :
    ∀ e ∈ (irqTransmit s sr).2, ∀ before, KeptIfRoom before e := by
  intro e he before c kept heq
  unfold irqTransmit at he
  subst heq
  split at he
  · split at he <;> simp at he
  · simp at he

theorem firmware_no_arrival (s : State) (e : Event) (hfirmware : ∀ sr dr, e ≠ .irq sr dr) :
    ∀ x ∈ (step s e).2, ∀ before, KeptIfRoom before x := by
  intro x hx before c kept heq
  subst heq
  cases e with
  | irq sr dr => exact absurd rfl (hfirmware sr dr)
  | put b =>
    simp only [step] at hx
    split at hx <;> simp [put] at hx
  | read =>
    simp only [step, read] at hx
    split at hx
    · split at hx <;> simp at hx
    · simp at hx
  | resume =>
    simp only [step, resume] at hx
    split at hx <;> simp at hx

theorem irqReceive_keptIfRoom {s : State} {tr : List Shown} (h : Inv s)
    (haccount : keptOf tr = returnedOf tr ++ s.rxQueue) (hevery : History.Every KeptIfRoom tr)
    (sr : UInt32) (dr : UInt8) : History.Every KeptIfRoom (tr ++ (irqReceive s sr dr).2) := by
  have hlen := congrArg List.length haccount
  rw [List.length_append, State.rxQueue, length_entries] at hlen
  have hfull := next_eq_tail_iff h.rxHead h.rxTail
  rw [← toNat_nextIndex_rx, UInt16.toNat_inj] at hfull
  have hlt := @used_lt 128 (by norm_num) s.rxHead.toNat s.rxTail.toNat
  unfold irqReceive
  split
  · simp only
    split
    · rename_i hroom
      apply History.every_concat hevery
      intro c kept heq
      obtain ⟨rfl, rfl⟩ := Shown.arrived.inj heq
      have hused : used 128 s.rxHead.toNat s.rxTail.toNat ≠ 128 - 1 :=
        fun heq => hroom (hfull.mpr heq)
      simp only [true_iff]
      omega
    · rename_i hroom
      apply History.every_concat hevery
      intro c kept heq
      obtain ⟨rfl, rfl⟩ := Shown.arrived.inj heq
      have hused := hfull.mp (not_not.mp hroom)
      simp only [Bool.false_eq_true, false_iff]
      omega
  · rw [List.append_nil]
    exact hevery

/-- The bytes kept are the bytes returned and, behind them, those in the ring. -/
theorem keptOf_eq (es : List Event) :
    keptOf (trace init es) = returnedOf (trace init es) ++ (after init es).rxQueue := by
  have hrx := (flow_run inv_init es).rx
  simpa [State.rxQueue, init, entries, used] using hrx

/-- **The way in.** Under every interleaving `hal_console_read` returns the bytes
    that arrived, in order, except those that found 127 others unread; the bytes
    not returned yet wait in the ring, and the receive interrupt stays on. -/
theorem returned_stream (es : List Event) :
    keptOf (trace init es) = returnedOf (trace init es) ++ (after init es).rxQueue ∧
      History.Every KeptIfRoom (trace init es) ∧
      (after init es).cr1 &&& usartCr1Rxneie ≠ 0 := by
  refine ⟨keptOf_eq es, ?_, receive_enabled (flow_run inv_init es).inv⟩
  induction es using List.reverseRecOn with
  | nil => exact History.every_nil
  | append_singleton es e ih =>
    have hinv : Inv (after init es) := (flow_run inv_init es).inv
    have htrace : trace init (es ++ [e]) = trace init es ++ (step (after init es) e).2 := by
      rw [trace_append]
      simp [trace, Mealy.run_cons]
    rw [htrace]
    cases e with
    | irq sr dr =>
      simp only [step, irqHandler]
      rw [← List.append_assoc]
      apply History.every_append
      · exact irqReceive_keptIfRoom hinv (keptOf_eq es) ih sr dr
      · exact irqTransmit_no_arrival _ sr
    | put c => exact History.every_append ih (firmware_no_arrival _ _ (by simp))
    | read => exact History.every_append ih (firmware_no_arrival _ _ (by simp))
    | resume => exact History.every_append ih (firmware_no_arrival _ _ (by simp))

/-! ## `hal_console_tx_free` -/

theorem toNat_txFree {s : State} (h : Inv s) :
    (txFree s).toNat = 1023 - used 1024 s.txHead.toNat s.txTail.toNat := by
  have hhead := h.txHead
  have htail := h.txTail
  have hlt := @used_lt 1024 (by norm_num) s.txHead.toNat s.txTail.toNat
  have hmask : (txBufSize - 1).toNat = 2 ^ 10 - 1 := rfl
  have hused : (((s.txHead.toUInt32 - s.txTail.toUInt32) &&& (txBufSize - 1)).toUInt16).toNat =
      used 1024 s.txHead.toNat s.txTail.toNat := by
    rw [UInt32.toNat_toUInt16, UInt32.toNat_and, hmask, Nat.and_two_pow_sub_one_eq_mod,
      UInt32.toNat_sub, UInt16.toNat_toUInt32, UInt16.toNat_toUInt32]
    unfold used
    omega
  have hle : (((s.txHead.toUInt32 - s.txTail.toUInt32) &&& (txBufSize - 1)).toUInt16).toUInt32 ≤
      txBufSize - 1 := by
    rw [UInt32.le_iff_toNat_le, UInt16.toNat_toUInt32, hused, hmask]
    omega
  simp only [txFree]
  rw [UInt32.toNat_toUInt16, UInt32.toNat_sub_of_le _ _ hle, UInt16.toNat_toUInt32, hused, hmask]
  omega

/-- **`hal_console_tx_free` is a promise.** After it returned `n` to an idle
    firmware, the next `n` calls of `prv_put` never wait, whatever the interrupt
    does meanwhile. -/
theorem put_never_waits (es more : List Event) (hidle : (after init es).pc = .idle)
    (hputs : (putsOf (trace (after init es) more)).length ≤ (txFree (after init es)).toNat) :
    ¬ (after init (es ++ more)).Blocked := by
  rintro ⟨c, hwait⟩
  have hinv : Inv (after init es) := (flow_run inv_init es).inv
  have hflow := flow_run hinv more
  have hinv' := hflow.inv
  have hlen := congrArg List.length hflow.tx
  rw [after_append] at hwait
  have hlocals := hinv'.locals
  simp only [LocalsOk, hwait] at hlocals
  -- A full ring and the byte at hand are one byte more than there was room for.
  have hfull := congrArg UInt16.toNat hlocals.symm
  rw [toNat_nextIndex_tx, next_eq_tail_iff hinv'.txHead hinv'.txTail] at hfull
  rw [toNat_txFree hinv] at hputs
  simp only [State.outgoing, State.txQueue, State.pending, hidle, hwait, List.length_append,
    length_entries, List.length_nil, List.length_singleton] at hlen hfull
  have hlt := @used_lt 1024 (by norm_num) (after init es).txHead.toNat
    (after init es).txTail.toNat
  omega

/-- A call shows its byte. -/
theorem putsOf_put {s : State} (hidle : s.pc = .idle) (c : UInt8) :
    putsOf (trace s [.put c]) = [c] := by
  simp [trace, Mealy.run_cons, Mealy.run_nil, step, put, putsOf, hidle]

/-- 1022 bytes leave one free place, and the next call does not wait. -/
theorem put_never_waits_full :
    (txFree (after init (putCalls 65 1022))).toNat = 1 ∧
      ¬ (after init (putCalls 65 1022 ++ [.put 66])).Blocked := by
  obtain ⟨hpc, hhead, htail⟩ := after_putCalls 65 (show 1022 ≤ 1023 by norm_num)
  have hfree : (txFree (after init (putCalls 65 1022))).toNat = 1 := by
    rw [toNat_txFree (flow_run inv_init _).inv, hhead, htail]
    rfl
  exact ⟨hfree, put_never_waits (putCalls 65 1022) [.put 66] hpc
    (by rw [putsOf_put hpc, hfree]; rfl)⟩

end J1939Gen.Console
