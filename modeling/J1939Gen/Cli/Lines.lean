import J1939Gen.Cli.Model

/-!
# From bytes to lines

`App_Cli_Poll` keeps what it read in a static buffer and returns when the console
has no more. The results here say that only the stream counts, not how it was cut
into polls:

* `pollByte_collect`: the buffer does what `Words.collect` does, and its index stays
  inside.
* `linesOf_eq`: the lines of a stream are what stands between line ends, cut to 127
  bytes and to the first NUL, the empty ones left out.
-/

namespace J1939Gen.Cli

open ByteMem Console

/-- CR or LF. -/
def isEol (c : UInt8) : Bool := c = 10 ∨ c = 13

/-- The buffer holds these bytes. -/
structure Holds (s : LineBuffer) (line : Chars) : Prop where
  bytes : bytes s.buf 0 s.pos.toNat = line
  room : s.pos.toNat ≤ 127

theorem Holds.length {s : LineBuffer} {line : Chars} (h : Holds s line) :
    line.length = s.pos.toNat := by
  rw [← h.bytes, ByteMem.bytes, List.length_map, List.length_range]

theorem holds_init : Holds LineBuffer.init [] := ⟨rfl, Nat.zero_le 127⟩

theorem bytes_update_concat (m : Mem) (n : ℕ) (c : UInt8) :
    bytes (Function.update m n c) 0 (n + 1) = bytes m 0 n ++ [c] := by
  have hkept : bytes (Function.update m n c) 0 n = bytes m 0 n := by
    apply bytes_congr
    intro i _ hi
    exact Function.update_of_ne (show i ≠ n by omega) c m
  rw [bytes_add, hkept, Nat.zero_add]
  exact congrArg (fun b => bytes m 0 n ++ [b]) (Function.update_self n c m)

theorem takeWhile_append_stop {α : Type} {p : α → Bool} (l : List α) {a : α} (ha : ¬ p a)
    (rest : List α) : (l ++ a :: rest).takeWhile p = l.takeWhile p := by
  induction l with
  | nil => rw [List.nil_append, List.takeWhile_cons_of_neg ha, List.takeWhile_nil]
  | cons b l ih => rw [List.cons_append, List.takeWhile_cons, List.takeWhile_cons, ih]

/-- The C string ends at the latest where a NUL was put. -/
theorem cString_update (m : Mem) {n size : ℕ} (hn : n < size) :
    cString (Function.update m n 0) size = (bytes m 0 n).takeWhile fun c => c ≠ 0 := by
  obtain ⟨k, rfl⟩ := Nat.exists_eq_add_of_lt hn
  rw [show n + k + 1 = n + 1 + k by omega, cString, bytes_add, bytes_update_concat,
    List.append_assoc, List.singleton_append, takeWhile_append_stop _ (by decide)]

/-- What a frame is to `prv_process_line`. -/
def textOf (frame : Chars) : Chars := frame.takeWhile fun c => c ≠ 0

/-- **One byte.** The buffer moves like `Words.collect`, inside its 128 bytes. -/
theorem pollByte_collect {s : LineBuffer} {line : Chars} (h : Holds s line) (c : UInt8) :
    Holds (pollByte s c).1 (Words.collect isEol 127 line c).1 ∧
      (pollByte s c).2 = (Words.collect isEol 127 line c).2.map textOf := by
  have hlen := h.length
  have hroom := h.room
  by_cases heol : c = 10 ∨ c = 13
  · have hcollect : isEol c := decide_eq_true heol
    rw [pollByte, if_pos heol, Words.collect, if_pos hcollect]
    rcases Nat.eq_zero_or_pos s.pos.toNat with hzero | hpos
    · have hnot : ¬ s.pos > 0 := fun hgt => by
        have : 0 < s.pos.toNat := hgt
        omega
      have hnil : line = [] := List.length_eq_zero_iff.mp (by omega)
      rw [if_neg hnot, hnil]
      rw [hnil] at h
      exact ⟨h, rfl⟩
    · have hne : line ≠ [] := List.ne_nil_of_length_pos (by omega)
      rw [if_pos (show s.pos > 0 from hpos), if_neg (by simpa using hne)]
      refine ⟨⟨rfl, Nat.zero_le 127⟩, ?_⟩
      rw [Option.map_some, ← h.bytes]
      exact congrArg some (cString_update s.buf (show s.pos.toNat < 128 by omega))
  · have hcollect : ¬ isEol c := fun hc => heol (of_decide_eq_true hc)
    rw [pollByte, if_neg heol, Words.collect, if_neg hcollect]
    by_cases hlt : s.pos.toNat < 127
    · have hnext : (s.pos + 1).toNat = s.pos.toNat + 1 := by
        rw [UInt8.toNat_add, show (1 : UInt8).toNat = 1 from rfl]
        omega
      rw [if_pos (show s.pos < UInt8.ofNat bufLen - 1 from hlt), if_pos (by omega)]
      refine ⟨⟨?_, show (s.pos + 1).toNat ≤ 127 by omega⟩, rfl⟩
      show bytes (Function.update s.buf s.pos.toNat c) 0 (s.pos + 1).toNat = line ++ [c]
      rw [hnext, bytes_update_concat, h.bytes]
    · rw [if_neg (show ¬ s.pos < UInt8.ofNat bufLen - 1 from hlt), if_neg (by omega)]
      exact ⟨h, rfl⟩

theorem run_pollByte {s : LineBuffer} {line : Chars} (h : Holds s line) (stream : Chars) :
    Holds (Mealy.run pollByte s stream).1 (Mealy.run (Words.collect isEol 127) line stream).1 ∧
      (Mealy.run pollByte s stream).2 =
        (Mealy.run (Words.collect isEol 127) line stream).2.map (Option.map textOf) := by
  induction stream generalizing s line with
  | nil => exact ⟨h, rfl⟩
  | cons c stream ih =>
    have hstep := pollByte_collect h c
    have hrest := ih hstep.1
    rw [Mealy.run_cons, Mealy.run_cons]
    refine ⟨hrest.1, ?_⟩
    rw [List.map_cons, hstep.2, hrest.2]

/-- **The lines of a stream**, however it was cut into polls. -/
theorem linesOf_eq (stream : Chars) :
    linesOf stream = (Words.frames isEol 127 stream).map textOf := by
  have hrun := (run_pollByte holds_init stream).2
  rw [linesOf, hrun, List.reduceOption_map, (Words.collect_run isEol 127 stream).2]

end J1939Gen.Cli
