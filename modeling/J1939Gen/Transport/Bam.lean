import J1939Gen.Transport.Model

/-!
# BAM messages and their reassembly

A `Bam` is a message to broadcast; its frames are one TP.CM and the numbered
TP.DT. The receiver is written from J1939-21, not from the transmitter.

* `buildPacket_eq`: the packet builder emits the frames of the message.
* `receive_frames`: a receiver reassembles the frames of a message.
-/

namespace J1939Gen.Tp

open ByteMem

/-! ## Messages and their frames -/

/-- A message as `J1939_Tp_Bam_Start` is given it. -/
structure Bam where
  pgn : UInt32
  sourceAddress : UInt8
  payload : List UInt8
deriving DecidableEq, Repr

/-- Lengths a BAM session carries. -/
def Bam.Valid (b : Bam) : Prop := 9 ≤ b.payload.length ∧ b.payload.length ≤ maxPayloadBytes

/-- The number of TP.DT packets. -/
def Bam.packets (b : Bam) : ℕ := (b.payload.length + 6) / 7

/-- The seven data bytes of TP.DT `k`: the payload, and `0xFF` past its end. -/
def Bam.chunk (b : Bam) (k : ℕ) : List UInt8 :=
  (List.range 7).map fun i => b.payload.getD (7 * (k - 1) + i) 0xFF

/-- The data bytes of frame `k`: TP.CM for zero, TP.DT `k` otherwise. -/
def Bam.data (b : Bam) (k : ℕ) : List UInt8 :=
  if k = 0 then
    cmBam :: le16 (UInt16.ofNat b.payload.length) ++
      [UInt8.ofNat b.packets, 0xFF, b.pgn.toUInt8, (b.pgn >>> 8).toUInt8, (b.pgn >>> 16).toUInt8]
  else UInt8.ofNat k :: b.chunk k

/-- Frame `k` of the session. -/
def Bam.frame (b : Bam) (k : ℕ) : CanFrame :=
  linkFrame (if k = 0 then pgnTpCm else pgnTpDt) (b.data k) tpPriority b.sourceAddress

/-- The message a started session carries. -/
def Session.bam (s : Session) : Bam :=
  ⟨s.pgn, s.sourceAddress, bytes s.payload 0 s.length.toNat⟩

/-- A running session: its length fits, the packet count belongs to the length
    and the next packet exists. -/
structure Session.Running (s : Session) : Prop where
  valid : s.bam.Valid
  packets : s.packets.toNat = s.bam.packets
  next : s.nextPacket.toNat ≤ s.bam.packets

theorem Bam.Valid.packets_le {b : Bam} (h : b.Valid) : 2 ≤ b.packets ∧ b.packets ≤ 29 := by
  obtain ⟨h1, h2⟩ := h
  simp only [maxPayloadBytes] at h2
  unfold Bam.packets
  omega

theorem getD_bytes (m : Mem) {n i : ℕ} (d : UInt8) :
    (bytes m 0 n).getD i d = if i < n then m i else d := by
  split_ifs with h
  · rw [List.getD_eq_getElem _ _ (by simpa using h), getElem_bytes, Nat.zero_add]
  · rw [List.getD_eq_default _ _ (by simpa using h)]

/-- The packet builder emits the frames of the session's message. -/
theorem buildPacket_eq {s : Session} (h : s.Running) :
    buildPacket s = s.bam.data s.nextPacket.toNat := by
  have hlen : s.bam.payload.length = s.length.toNat := length_bytes ..
  have hpk := h.valid.packets_le
  have hle := h.valid.2
  simp only [hlen, maxPayloadBytes] at hle
  by_cases h0 : s.nextPacket = 0
  · have hz : s.nextPacket.toNat = 0 := by rw [h0]; rfl
    rw [buildPacket, if_pos h0, Bam.data, if_pos hz, hlen, UInt16.ofNat_toNat, ← h.packets,
      UInt8.ofNat_toNat]
    rfl
  · have hz : s.nextPacket.toNat ≠ 0 := fun hz => h0 (UInt8.toNat_inj.mp hz)
    have hnext := h.next
    have hpks : s.bam.packets = (s.length.toNat + 6) / 7 := by rw [Bam.packets, hlen]
    have hoff : (UInt16.ofNat ((s.nextPacket.toNat - 1) * dtDataBytes)).toNat =
        7 * (s.nextPacket.toNat - 1) := by
      simp only [UInt16.toNat_ofNat', dtDataBytes]
      omega
    have hrem : (s.length - UInt16.ofNat ((s.nextPacket.toNat - 1) * dtDataBytes)).toNat =
        s.length.toNat - 7 * (s.nextPacket.toNat - 1) := by
      rw [UInt16.toNat_sub_of_le, hoff]
      rw [UInt16.le_iff_toNat_le, hoff]
      omega
    rw [buildPacket, if_neg h0, Bam.data, if_neg hz, UInt8.ofNat_toNat]
    refine congrArg (s.nextPacket :: ·) (List.map_congr_left fun i hi => ?_)
    have hi7 := List.mem_range.mp hi
    simp only [Session.bam, getD_bytes, hoff]
    set count := (if s.length - UInt16.ofNat ((s.nextPacket.toNat - 1) * dtDataBytes) < 7
      then s.length - UInt16.ofNat ((s.nextPacket.toNat - 1) * dtDataBytes) else 7).toNat
      with hcount
    have hc : count = min 7 (s.length.toNat - 7 * (s.nextPacket.toNat - 1)) := by
      rw [hcount]
      split_ifs with hlt
      · rw [UInt16.lt_iff_toNat_lt, hrem] at hlt
        rw [hrem]
        exact (min_eq_right (le_of_lt hlt)).symm
      · rw [UInt16.not_lt, UInt16.le_iff_toNat_le, hrem] at hlt
        exact (min_eq_left hlt).symm
    by_cases hin : i < count
    · rw [copy_of_mem _ _ (by omega), if_pos (by omega)]
      congr 1
      omega
    · rw [copy_of_not_mem _ _ (by omega), if_neg (by omega)]

theorem nextFrame_eq {s : Session} (h : s.Running) :
    nextFrame s = s.bam.frame s.nextPacket.toNat := by
  have hz : s.nextPacket = 0 ↔ s.nextPacket.toNat = 0 := by rw [← UInt8.toNat_inj]; rfl
  rw [nextFrame, Bam.frame, buildPacket_eq h]
  simp only [hz]
  rfl

/-! ## A J1939-21 receiver -/

/-- A received message, and the bytes past its end in the last packet. -/
structure Message where
  pgn : UInt32
  sourceAddress : UInt8
  payload : List UInt8
  padding : List UInt8
deriving DecidableEq, Repr

/-- A reassembly in progress: the next sequence number and the bytes so far. -/
structure Reassembly where
  pgn : UInt32
  sourceAddress : UInt8
  length : ℕ
  packets : ℕ
  next : ℕ
  data : List UInt8
deriving DecidableEq, Repr

/-- Receiver state: the reassembly in progress, and the delivered messages. -/
structure Receiver where
  current : Option Reassembly
  delivered : List Message

/-- A BAM announces a message and replaces any reassembly in progress. -/
def Receiver.announce (r : Receiver) (sourceAddress : UInt8) : List UInt8 → Receiver
  | [control, lengthLow, lengthHigh, packets, _, pgnLow, pgnMid, pgnHigh] =>
    if control ≠ cmBam then r
    else
      { r with current := some {
          pgn := pgnLow.toUInt32 ||| (pgnMid.toUInt32 <<< 8) ||| (pgnHigh.toUInt32 <<< 16)
          sourceAddress := sourceAddress
          length := (lengthLow.toUInt16 ||| (lengthHigh.toUInt16 <<< 8)).toNat
          packets := packets.toNat
          next := 1
          data := [] } }
  | _ => r

/-- A data packet extends the reassembly when its number is the expected one,
    and ends it otherwise. The last packet delivers the message. -/
def Receiver.transfer (r : Receiver) (sourceAddress : UInt8) : List UInt8 → Receiver
  | [] => r
  | sequence :: chunk =>
    match r.current with
    | none => r
    | some a =>
      if a.sourceAddress ≠ sourceAddress then r
      else if sequence.toNat ≠ a.next then { r with current := none }
      else
        let data := a.data ++ chunk
        if a.next = a.packets then
          { current := none
            delivered := r.delivered ++
              [⟨a.pgn, a.sourceAddress, data.take a.length, data.drop a.length⟩] }
        else { r with current := some { a with next := a.next + 1, data := data } }

/-- The receiver reads a frame: TP.CM and TP.DT to the global address. -/
def Receiver.read (r : Receiver) (f : CanFrame) : Receiver :=
  let hdr := Header.parseId f.canId
  if hdr.destinationAddress ≠ addrGlobal then r
  else if hdr.pgn = pgnTpCm then r.announce hdr.sourceAddress f.data
  else if hdr.pgn = pgnTpDt then r.transfer hdr.sourceAddress f.data
  else r

/-- The receiver after a list of frames. -/
def Receiver.readAll (r : Receiver) (frames : List CanFrame) : Receiver := frames.foldl read r

theorem parseId_tp (sourceAddress : UInt8) :
    Header.parseId (Header.buildId ⟨pgnTpCm, tpPriority, sourceAddress, addrGlobal⟩) =
        ⟨pgnTpCm, tpPriority, sourceAddress, addrGlobal⟩ ∧
      Header.parseId (Header.buildId ⟨pgnTpDt, tpPriority, sourceAddress, addrGlobal⟩) =
        ⟨pgnTpDt, tpPriority, sourceAddress, addrGlobal⟩ := by
  have H : ∀ n < 256,
      Header.parseId (Header.buildId ⟨pgnTpCm, tpPriority, UInt8.ofNat n, addrGlobal⟩) =
          ⟨pgnTpCm, tpPriority, UInt8.ofNat n, addrGlobal⟩ ∧
        Header.parseId (Header.buildId ⟨pgnTpDt, tpPriority, UInt8.ofNat n, addrGlobal⟩) =
          ⟨pgnTpDt, tpPriority, UInt8.ofNat n, addrGlobal⟩ := by
    decide +kernel
  have := H sourceAddress.toNat sourceAddress.toNat_lt
  rwa [UInt8.ofNat_toNat] at this

/-- What a receiver knows of message `b` after `k` of its data packets. -/
def Bam.received (b : Bam) (k : ℕ) : Reassembly where
  pgn := b.pgn &&& 0xFFFFFF
  sourceAddress := b.sourceAddress
  length := b.payload.length
  packets := b.packets
  next := k + 1
  data := (List.range (7 * k)).map fun i => b.payload.getD i 0xFF

/-- The message as it is delivered. -/
def Bam.message (b : Bam) : Message where
  pgn := b.pgn &&& 0xFFFFFF
  sourceAddress := b.sourceAddress
  payload := b.payload
  padding := List.replicate (7 * b.packets - b.payload.length) 0xFF

theorem take_map_getD (l : List UInt8) (d : UInt8) {n : ℕ} (h : l.length ≤ n) :
    ((List.range n).map fun i => l.getD i d).take l.length = l := by
  refine List.ext_getElem (by simpa using h) fun i h1 h2 => ?_
  simp [h2]

theorem drop_map_getD (l : List UInt8) (d : UInt8) (n : ℕ) :
    ((List.range n).map fun i => l.getD i d).drop l.length = List.replicate (n - l.length) d := by
  refine List.ext_getElem (by simp) fun i h1 h2 => ?_
  simp

theorem read_frame (r : Receiver) (b : Bam) (k : ℕ) :
    r.read (b.frame k) =
      if k = 0 then r.announce b.sourceAddress (b.data 0)
      else r.transfer b.sourceAddress (b.data k) := by
  obtain ⟨hcm, hdt⟩ := parseId_tp b.sourceAddress
  by_cases hk : k = 0
  · subst hk
    simp [Receiver.read, Bam.frame, linkFrame, hcm]
  · simp [Receiver.read, Bam.frame, linkFrame, hk, hdt, show pgnTpDt ≠ pgnTpCm by decide]

theorem pgn_join (v : UInt32) :
    v.toUInt8.toUInt32 ||| ((v >>> 8).toUInt8.toUInt32 <<< 8) |||
      ((v >>> 16).toUInt8.toUInt32 <<< 16) = v &&& 0xFFFFFF := by
  rw [← UInt32.toNat_inj]
  simp only [UInt32.toNat_or, UInt32.toNat_and, UInt32.toNat_shiftLeft, UInt8.toNat_toUInt32,
    UInt32.toNat_toUInt8, UInt32.toNat_shiftRight, UInt32.reduceToNat, Nat.reduceMod]
  refine Nat.eq_of_testBit_eq fun i => ?_
  rw [Nat.testBit_and, show (16777215 : ℕ) = 2 ^ 24 - 1 by norm_num, Nat.testBit_two_pow_sub_one]
  simp only [Nat.testBit_or, Nat.testBit_mod_two_pow, Nat.testBit_shiftLeft, Nat.testBit_shiftRight]
  rcases Nat.lt_or_ge i 24 with h24 | h24
  · interval_cases i <;> simp
  · simp [show ¬ i < 8 by omega, show ¬ i < 24 by omega, show ¬ i - 8 < 8 by omega,
      show ¬ i - 16 < 8 by omega]

theorem announce_data (r : Receiver) {b : Bam} (h : b.Valid) :
    r.announce b.sourceAddress (b.data 0) = { r with current := some (b.received 0) } := by
  have hpk := h.packets_le
  have hlen : (UInt16.ofNat b.payload.length).toNat = b.payload.length := by
    have := h.2
    simp only [maxPayloadBytes] at this
    simp only [UInt16.toNat_ofNat']
    omega
  have hpks : (UInt8.ofNat b.packets).toNat = b.packets := by
    simp only [UInt8.toNat_ofNat']
    omega
  simp only [Bam.data, if_true, le16, List.cons_append, List.nil_append, Receiver.announce,
    pgn_join, join16, hlen, hpks]
  rfl

theorem received_append (b : Bam) (k : ℕ) :
    (b.received k).data ++ b.chunk (k + 1) = (b.received (k + 1)).data := by
  simp only [Bam.received, Bam.chunk, Nat.add_sub_cancel]
  rw [Nat.mul_succ, List.range_add, List.map_append, List.map_map]
  rfl

theorem transfer_data (delivered : List Message) {b : Bam} (h : b.Valid) {k : ℕ}
    (hk : k < b.packets) :
    (⟨some (b.received k), delivered⟩ : Receiver).transfer b.sourceAddress (b.data (k + 1)) =
      if k + 1 = b.packets then ⟨none, delivered ++ [b.message]⟩
      else ⟨some (b.received (k + 1)), delivered⟩ := by
  have hpk := h.packets_le
  have hseq : (UInt8.ofNat (k + 1)).toNat = k + 1 := by
    simp only [UInt8.toNat_ofNat']
    omega
  have happ := received_append b k
  simp only [Bam.data, Nat.add_eq_zero_iff, one_ne_zero, and_false, if_false, Receiver.transfer]
  rw [if_neg (by simp [Bam.received]), if_neg (by rw [hseq]; simp [Bam.received]), happ]
  simp only [show (b.received k).next = k + 1 from rfl,
    show (b.received k).packets = b.packets from rfl]
  by_cases hlast : k + 1 = b.packets
  · have hcover : b.payload.length ≤ 7 * (k + 1) := by
      rw [hlast, Bam.packets]
      omega
    rw [if_pos hlast, if_pos hlast]
    simp only [Bam.message, Bam.received, take_map_getD _ _ hcover, drop_map_getD, ← hlast]
  · rw [if_neg hlast, if_neg hlast]
    rfl

/-- A receiver follows the session frame by frame. -/
theorem readAll_frames (r : Receiver) {b : Bam} (h : b.Valid) {k : ℕ} (hk : k < b.packets) :
    r.readAll ((List.range (k + 1)).map b.frame) = ⟨some (b.received k), r.delivered⟩ := by
  induction k with
  | zero => simp [Receiver.readAll, read_frame, announce_data r h]
  | succ k ih =>
    have ih := ih (by omega)
    unfold Receiver.readAll at ih ⊢
    rw [List.range_succ, List.map_append, List.foldl_append, ih]
    simp only [List.map_cons, List.map_nil, List.foldl_cons, List.foldl_nil, read_frame,
      Nat.add_eq_zero_iff, one_ne_zero, and_false, if_false]
    rw [transfer_data _ h (by omega), if_neg (by omega)]

/-- A receiver, whatever it was doing, delivers a complete session. -/
theorem receive_frames (r : Receiver) {b : Bam} (h : b.Valid) :
    r.readAll ((List.range (b.packets + 1)).map b.frame) = ⟨none, r.delivered ++ [b.message]⟩ := by
  obtain ⟨k, hk⟩ : ∃ k, b.packets = k + 1 := ⟨b.packets - 1, by have := h.packets_le; omega⟩
  have hprev := readAll_frames r h (k := k) (by omega)
  unfold Receiver.readAll at hprev ⊢
  rw [hk, List.range_succ, List.map_append, List.foldl_append, hprev]
  simp only [List.map_cons, List.map_nil, List.foldl_cons, List.foldl_nil, read_frame,
    Nat.add_eq_zero_iff, one_ne_zero, and_false, if_false]
  rw [transfer_data _ h (by omega), if_pos hk.symm]

end J1939Gen.Tp
