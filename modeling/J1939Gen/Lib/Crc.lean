import Mathlib

/-!
# Reflected cyclic redundancy checks

A register of `w` bits that reads a message bit by bit, lowest bit first, with a
generator `P` written in reflected form. The register is linear in the message,
and when the generator has its top bit set a step loses nothing.

* `run_xor`: the registers of two messages differ by the register of their
  difference.
* `run_word`: up to `w` bits are read as one word and as many steps.
* `run_ne_of_burst`: two messages that differ, and only within `w` consecutive
  bits, leave different registers.
-/

namespace Crc

variable {w : ℕ}

/-- One turn of the bit loop. -/
def stepBit (P x : BitVec w) : BitVec w := (x >>> 1) ^^^ (if x.getLsbD 0 then P else 0)

/-- A message bit as a register. -/
def bit (w : ℕ) (b : Bool) : BitVec w := BitVec.ofNat w b.toNat

/-- The register after one message bit. -/
def absorb (P c : BitVec w) (b : Bool) : BitVec w := stepBit P (c ^^^ bit w b)

/-- The register after a message. -/
def run (P c : BitVec w) (bits : List Bool) : BitVec w := bits.foldl (absorb P) c

/-- Message bits as a register, the first bit lowest. -/
def word (w : ℕ) (bits : List Bool) : BitVec w := (BitVec.ofBoolListLE bits).setWidth w

/-- The messages differ only within `n` consecutive bits. -/
def Burst (n : ℕ) (xs ys : List Bool) : Prop :=
  xs.length = ys.length ∧ ∃ i, ∀ j, xs[j]? ≠ ys[j]? → i ≤ j ∧ j < i + n

variable (P : BitVec w)

/-! ## Linearity -/

theorem getLsbD_stepBit (x : BitVec w) (i : ℕ) :
    (stepBit P x).getLsbD i = (x.getLsbD (1 + i) ^^ (x.getLsbD 0 && P.getLsbD i)) := by
  unfold stepBit
  rw [BitVec.getLsbD_xor, BitVec.getLsbD_ushiftRight]
  cases x.getLsbD 0 <;> simp

theorem stepBit_xor (x y : BitVec w) : stepBit P (x ^^^ y) = stepBit P x ^^^ stepBit P y := by
  apply BitVec.eq_of_getLsbD_eq
  intro i _
  simp only [BitVec.getLsbD_xor, getLsbD_stepBit]
  cases x.getLsbD 0 <;> cases y.getLsbD 0 <;> cases P.getLsbD i <;> simp

theorem iterate_stepBit_xor (n : ℕ) (x y : BitVec w) :
    (stepBit P)^[n] (x ^^^ y) = (stepBit P)^[n] x ^^^ (stepBit P)^[n] y := by
  induction n generalizing x y with
  | zero => rfl
  | succ n ih => rw [Function.iterate_succ_apply, stepBit_xor, ih]; rfl

theorem getLsbD_bit (b : Bool) (i : ℕ) :
    (bit w b).getLsbD i = (decide (i < w) && (b && decide (i = 0))) := by
  unfold bit
  rw [BitVec.getLsbD_ofNat]
  cases b with
  | false => simp
  | true =>
    have hone : Nat.testBit 1 i = decide (i = 0) := by
      rw [Bool.eq_iff_iff, Nat.testBit_one_eq_true_iff_self_eq_zero, decide_eq_true_iff]
    simp [hone]

theorem bit_xor (a b : Bool) : bit w (a ^^ b) = bit w a ^^^ bit w b := by
  apply BitVec.eq_of_getLsbD_eq
  intro i hi
  simp only [BitVec.getLsbD_xor, getLsbD_bit, hi]
  cases a <;> cases b <;> simp

theorem absorb_xor (c d : BitVec w) (a b : Bool) :
    absorb P (c ^^^ d) (a ^^ b) = absorb P c a ^^^ absorb P d b := by
  unfold absorb
  rw [← stepBit_xor, bit_xor]
  congr 1
  ac_rfl

/-- The register of the difference is the difference of the registers. -/
theorem run_xor (c d : BitVec w) {xs ys : List Bool} (h : xs.length = ys.length) :
    run P (c ^^^ d) (xs.zipWith xor ys) = run P c xs ^^^ run P d ys := by
  induction xs generalizing c d ys with
  | nil =>
    rw [List.length_nil] at h
    rw [List.length_eq_zero_iff.mp h.symm]
    rfl
  | cons a xs ih =>
    cases ys with
    | nil => simp at h
    | cons b ys =>
      have hlen : xs.length = ys.length := by simpa using h
      have hcons := ih (absorb P c a) (absorb P d b) hlen
      rw [← absorb_xor] at hcons
      exact hcons

theorem run_append (c : BitVec w) (xs ys : List Bool) :
    run P c (xs ++ ys) = run P (run P c xs) ys := List.foldl_append

/-! ## A short message is a word -/

theorem getLsbD_word (bits : List Bool) {i : ℕ} (hi : i < w) :
    (word w bits).getLsbD i = bits.getD i false := by
  unfold word
  rw [BitVec.getLsbD_setWidth, BitVec.getLsbD_ofBoolListLE]
  simp [hi]

/-- Reading the first bit of a word. -/
theorem stepBit_word_cons (b : Bool) {bits : List Bool} (h : bits.length < w) (c : BitVec w) :
    stepBit P (c ^^^ word w (b :: bits)) = absorb P c b ^^^ word w bits := by
  unfold absorb
  apply BitVec.eq_of_getLsbD_eq
  intro i hi
  have h0 : (word w (b :: bits)).getLsbD 0 = b := by
    rw [getLsbD_word _ (by omega)]
    rfl
  have hsucc : (word w (b :: bits)).getLsbD (1 + i) = (word w bits).getLsbD i := by
    rw [getLsbD_word _ hi]
    by_cases hlast : 1 + i < w
    · rw [getLsbD_word _ hlast, Nat.add_comm]
      rfl
    · rw [BitVec.getLsbD_of_ge _ _ (by omega), List.getD_eq_default _ _ (by omega)]
  have hb0 : (bit w b).getLsbD 0 = b := by
    rw [getLsbD_bit]
    simp
    omega
  have hbsucc : (bit w b).getLsbD (1 + i) = false := by
    rw [getLsbD_bit]
    simp
  simp only [BitVec.getLsbD_xor, getLsbD_stepBit, h0, hsucc, hb0, hbsucc]
  cases c.getLsbD (1 + i) <;> cases c.getLsbD 0 <;> cases (word w bits).getLsbD i <;> simp

theorem run_word (c : BitVec w) {bits : List Bool} (h : bits.length ≤ w) :
    run P c bits = (stepBit P)^[bits.length] (c ^^^ word w bits) := by
  induction bits generalizing c with
  | nil =>
    have hzero : word w [] = 0 := by
      apply BitVec.eq_of_getLsbD_eq
      intro i hi
      rw [getLsbD_word _ hi]
      simp
    rw [hzero]
    simp [run]
  | cons b bits ih =>
    rw [List.length_cons] at h ⊢
    rw [Function.iterate_succ_apply, stepBit_word_cons P b (by omega)]
    exact ih (absorb P c b) (by omega)

/-! ## Nothing is lost -/

variable {P}

theorem stepBit_eq_zero (hP : P.msb = true) {x : BitVec w} (h : stepBit P x = 0) : x = 0 := by
  have hbits (i : ℕ) : (x.getLsbD (1 + i) ^^ (x.getLsbD 0 && P.getLsbD i)) = false := by
    rw [← getLsbD_stepBit, h]
    exact BitVec.getLsbD_zero
  have hw : 0 < w := by
    by_contra hw
    have hzero : w = 0 := by omega
    subst hzero
    rw [BitVec.eq_nil P] at hP
    exact absurd hP (by decide)
  -- The top bit of the result is the bit that was shifted out.
  have htop := hbits (w - 1)
  have hge : x.getLsbD (1 + (w - 1)) = false := BitVec.getLsbD_of_ge _ _ (by omega)
  have hmsb : P.getLsbD (w - 1) = true := by
    rw [← BitVec.msb_eq_getLsbD_last]
    exact hP
  rw [hge, hmsb] at htop
  have hlow : x.getLsbD 0 = false := by simpa using htop
  apply BitVec.eq_of_getLsbD_eq
  intro i _
  cases i with
  | zero => simpa using hlow
  | succ i =>
    have hi := hbits i
    rw [hlow] at hi
    simpa [Nat.add_comm] using hi

theorem iterate_stepBit_eq_zero (hP : P.msb = true) (n : ℕ) {x : BitVec w}
    (h : (stepBit P)^[n] x = 0) : x = 0 := by
  induction n generalizing x with
  | zero => exact h
  | succ n ih => exact stepBit_eq_zero hP (ih h)

theorem run_zero_of_start (hP : P.msb = true) {c d : BitVec w} (bits : List Bool)
    (h : run P c bits = run P d bits) : c = d := by
  induction bits generalizing c d with
  | nil => exact h
  | cons b bits ih =>
    have hnext := ih h
    have hdiff : stepBit P (c ^^^ d) = 0 := by
      have hxor := absorb_xor P c d b b
      rw [show absorb P d b = absorb P c b from hnext.symm, BitVec.xor_self, Bool.xor_self] at hxor
      simpa [absorb, bit] using hxor
    exact BitVec.xor_eq_zero_iff.mp (stepBit_eq_zero hP hdiff)

/-- Up to `w` bits can be told from the register. -/
theorem run_inj (hP : P.msb = true) (c : BitVec w) {xs ys : List Bool}
    (hlen : xs.length = ys.length) (hle : xs.length ≤ w) (h : run P c xs = run P c ys) :
    xs = ys := by
  rw [run_word P c hle, run_word P c (hlen ▸ hle), ← hlen] at h
  have hzero : (stepBit P)^[xs.length] ((c ^^^ word w xs) ^^^ (c ^^^ word w ys)) = 0 := by
    rw [iterate_stepBit_xor, h]
    exact BitVec.xor_self
  have hword := BitVec.xor_eq_zero_iff.mp (iterate_stepBit_eq_zero hP _ hzero)
  have hword' : word w xs = word w ys := by
    have hcancel := congrArg (c ^^^ ·) hword
    simpa [← BitVec.xor_assoc] using hcancel
  apply List.ext_getElem hlen
  intro i hi hi'
  have hbit := congrArg (fun x => x.getLsbD i) hword'
  simp only [getLsbD_word _ (show i < w by omega)] at hbit
  rwa [List.getD_eq_getElem _ _ hi, List.getD_eq_getElem _ _ hi'] at hbit

/-- A changed window of up to `w` bits changes the register. -/
theorem run_ne_of_window (hP : P.msb = true) (c : BitVec w) {xs ys : List Bool}
    (hlen : xs.length = ys.length) (hle : xs.length ≤ w) (hne : xs ≠ ys) (before after : List Bool) :
    run P c (before ++ (xs ++ after)) ≠ run P c (before ++ (ys ++ after)) := by
  intro h
  rw [run_append, run_append, run_append, run_append] at h
  exact hne (run_inj hP _ hlen hle (run_zero_of_start hP after h))

/-- **Bursts are seen.** -/
theorem run_ne_of_burst (hP : P.msb = true) (c : BitVec w) {xs ys : List Bool}
    (h : Burst w xs ys) (hne : xs ≠ ys) : run P c xs ≠ run P c ys := by
  obtain ⟨hlen, i, hwindow⟩ := h
  have hsplit (l : List Bool) : l = l.take i ++ ((l.drop i).take w ++ (l.drop i).drop w) := by
    rw [List.take_append_drop, List.take_append_drop]
  have hbefore : xs.take i = ys.take i := by
    apply List.ext_getElem?
    intro j
    rcases Nat.lt_or_ge j i with hj | hj
    · rw [List.getElem?_take_of_lt hj, List.getElem?_take_of_lt hj]
      by_contra hdiff
      have := hwindow j hdiff
      omega
    · rw [List.getElem?_eq_none (by simp; omega), List.getElem?_eq_none (by simp; omega)]
  have hafter : (xs.drop i).drop w = (ys.drop i).drop w := by
    apply List.ext_getElem?
    intro j
    rw [List.drop_drop, List.drop_drop, List.getElem?_drop, List.getElem?_drop]
    by_contra hdiff
    have := hwindow _ hdiff
    omega
  have hmid : (xs.drop i).take w ≠ (ys.drop i).take w := by
    intro heq
    apply hne
    rw [hsplit xs, hsplit ys, hbefore, hafter, heq]
  rw [hsplit xs, hsplit ys, hbefore, hafter]
  exact run_ne_of_window hP c (by simp [hlen]) (by simp) hmid _ _

end Crc
