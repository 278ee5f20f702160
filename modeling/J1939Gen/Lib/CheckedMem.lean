import J1939Gen.Lib.ByteMem
import J1939Gen.Lib.BitField

/-!
# Buffers with a length

Loads and stores of a buffer of `len` bytes; an access at or past `len` has no
result. A computation built from them that returns a value has touched the
buffer inside its length only.

* `loadU16_of_le`, `loadU32_of_le`, `loadBytes_of_le`: fields inside the buffer.
* `foldlM_eq_some`: a loop of accesses that are all inside is the plain loop.
* `IsWord`, `IsWord.extend`: a little-endian word read byte by byte, as a bit
  field.
* `IsWritten`, `IsWritten.extend`: the same for a word written byte by byte.
-/

namespace CheckedMem

open ByteMem Bitmask

/-- `m[i]` of a buffer of `len` bytes. -/
def load (len : ℕ) (m : Mem) (i : ℕ) : Option UInt8 := if i < len then some (m i) else none

/-- `m[i] = b` in a buffer of `len` bytes. -/
def store (len : ℕ) (m : Mem) (i : ℕ) (b : UInt8) : Option Mem :=
  if i < len then some (Function.update m i b) else none

theorem load_of_lt {len i : ℕ} (m : Mem) (h : i < len) : load len m i = some (m i) := by
  rw [load, if_pos h]

theorem store_of_lt {len i : ℕ} (m : Mem) (b : UInt8) (h : i < len) :
    store len m i b = some (Function.update m i b) := by
  rw [store, if_pos h]

/-- A loop whose every access is inside the buffer is the plain loop. -/
theorem foldlM_eq_some {α β : Type} {f : β → α → Option β} {g : β → α → β} {l : List α}
    (h : ∀ b, ∀ a ∈ l, f b a = some (g b a)) (b : β) :
    l.foldlM f b = some (l.foldl g b) := by
  induction l generalizing b with
  | nil => rfl
  | cons a l ih =>
    rw [List.foldlM_cons, h b a (by simp), List.foldl_cons]
    exact ih (fun b a ha => h b a (by simp [ha])) _

/-! ## Little-endian fields and ranges -/

/-- `(uint16_t)p[0] | ((uint16_t)p[1] << 8)`. -/
def loadU16 (len : ℕ) (m : Mem) (p : ℕ) : Option UInt16 := do
  let b0 ← load len m p
  let b1 ← load len m (p + 1)
  return b0.toUInt16 ||| (b1.toUInt16 <<< 8)

/-- `(uint32_t)p[0] | … | ((uint32_t)p[3] << 24)`. -/
def loadU32 (len : ℕ) (m : Mem) (p : ℕ) : Option UInt32 := do
  let b0 ← load len m p
  let b1 ← load len m (p + 1)
  let b2 ← load len m (p + 2)
  let b3 ← load len m (p + 3)
  return b0.toUInt32 ||| (b1.toUInt32 <<< 8) ||| (b2.toUInt32 <<< 16) ||| (b3.toUInt32 <<< 24)

/-- The bytes at offsets `p … p + n - 1`. -/
def loadBytes (len : ℕ) (m : Mem) (p n : ℕ) : Option (List UInt8) :=
  (List.range n).mapM fun i => load len m (p + i)

theorem loadU16_of_le {len p : ℕ} (m : Mem) (h : p + 2 ≤ len) :
    loadU16 len m p = some (readU16 m p) := by
  rw [loadU16, load_of_lt m (by omega), load_of_lt m (by omega)]
  rfl

theorem loadU32_of_le {len p : ℕ} (m : Mem) (h : p + 4 ≤ len) :
    loadU32 len m p = some (readU32 m p) := by
  rw [loadU32, load_of_lt m (by omega), load_of_lt m (by omega), load_of_lt m (by omega),
    load_of_lt m (by omega)]
  rfl

theorem loadBytes_of_le {len p n : ℕ} (m : Mem) (h : p + n ≤ len) :
    loadBytes len m p n = some (bytes m p n) := by
  have hload : ∀ i ∈ List.range n, load len m (p + i) = some (m (p + i)) := fun i hi =>
    load_of_lt m (by have := List.mem_range.mp hi; omega)
  unfold loadBytes bytes
  generalize List.range n = l at hload
  induction l with
  | nil => rfl
  | cons i l ih =>
    rw [List.mapM_cons, hload i List.mem_cons_self, ih fun j hj => hload j (List.mem_cons_of_mem _ hj)]
    rfl

/-! ## Words of whole bytes -/

/-- `v` is the word of the `k` bytes at offset `p`. -/
def IsWord (m : Mem) (p k : ℕ) (v : UInt32) : Prop :=
  ∀ i, v.toNat.testBit i = (decide (i < 8 * k) && test m (8 * p + i))

theorem test_byte (m : Mem) (p : ℕ) {i : ℕ} (h : i < 8) :
    test m (8 * p + i) = (m p).toNat.testBit i := by
  rw [test_eq_testBit, show (8 * p + i) / 8 = p by omega, show (8 * p + i) % 8 = i by omega]

theorem testBit_byte_of_le (b : UInt8) {i : ℕ} (h : 8 ≤ i) : b.toNat.testBit i = false :=
  Nat.testBit_eq_false_of_lt
    (lt_of_lt_of_le (UInt8.toNat_lt b) (Nat.pow_le_pow_right (by norm_num) h))

theorem isWord_one (m : Mem) (p : ℕ) : IsWord m p 1 (m p).toUInt32 := by
  intro i
  rw [UInt8.toNat_toUInt32]
  by_cases hi : i < 8
  · simp [hi, test_byte m p hi]
  · simp [hi, testBit_byte_of_le (m p) (show 8 ≤ i by omega)]

/-- `v | ((uint32_t)m[p + k] << (8 * k))`. -/
theorem IsWord.extend {m : Mem} {p k : ℕ} {v : UInt32} (h : IsWord m p k v) (hk : k < 4) :
    IsWord m p (k + 1) (v ||| ((m (p + k)).toUInt32 <<< UInt32.ofNat (8 * k))) := by
  intro i
  have hshift : ((m (p + k)).toUInt32 <<< UInt32.ofNat (8 * k)).toNat =
      (m (p + k)).toNat <<< (8 * k) := by
    have hb := UInt8.toNat_lt (m (p + k))
    rw [UInt32.toNat_shiftLeft, UInt8.toNat_toUInt32, UInt32.toNat_ofNat',
      Nat.mod_eq_of_lt (show 8 * k < 2 ^ 32 by omega), Nat.mod_eq_of_lt (show 8 * k < 32 by omega),
      Nat.shiftLeft_eq]
    apply Nat.mod_eq_of_lt
    calc (m (p + k)).toNat * 2 ^ (8 * k) < 2 ^ 8 * 2 ^ (8 * k) :=
          Nat.mul_lt_mul_of_pos_right hb (Nat.two_pow_pos _)
      _ = 2 ^ (8 + 8 * k) := (pow_add 2 8 (8 * k)).symm
      _ ≤ 2 ^ 32 := Nat.pow_le_pow_right (by norm_num) (by omega)
  rw [UInt32.toNat_or, Nat.testBit_or, h i, hshift, Nat.testBit_shiftLeft]
  by_cases h1 : i < 8 * k
  · simp [h1, show i < 8 * (k + 1) by omega, show ¬ 8 * k ≤ i by omega]
  · by_cases h2 : i < 8 * (k + 1)
    · have := test_byte m (p + k) (show i - 8 * k < 8 by omega)
      rw [show 8 * (p + k) + (i - 8 * k) = 8 * p + i by omega] at this
      simp [h1, h2, show 8 * k ≤ i by omega, this]
    · simp [h1, h2, testBit_byte_of_le (m (p + k)) (show 8 ≤ i - 8 * k by omega)]

/-- The word of whole bytes is the bit field over them. -/
theorem IsWord.eq_read {m : Mem} {p k : ℕ} {v : UInt32} (h : IsWord m p k v) (hk : k ≤ 4) :
    v = BitField.read m (8 * p) (8 * k) := by
  rw [← UInt32.toNat_inj]
  refine Nat.eq_of_testBit_eq fun i => ?_
  rw [h i, BitField.testBit_read _ _ (show 8 * k ≤ 32 by omega)]

/-- `m'` is `m` with the `k` bytes at offset `p` holding the low bytes of `v`. -/
def IsWritten (m m' : Mem) (p k : ℕ) (v : UInt32) : Prop :=
  ∀ j, test m' j =
    if 8 * p ≤ j ∧ j < 8 * p + 8 * k then v.toNat.testBit (j - 8 * p) else test m j

theorem isWritten_zero (m : Mem) (p : ℕ) (v : UInt32) : IsWritten m m p 0 v := by
  intro j
  rw [if_neg (by omega)]

theorem test_update (m : Mem) (i : ℕ) (b : UInt8) (j : ℕ) :
    test (Function.update m i b) j = if j / 8 = i then b.toNat.testBit (j % 8) else test m j := by
  rw [test_eq_testBit, test_eq_testBit, Function.update_apply]
  split_ifs <;> rfl

/-- `m'[p + k] = (uint8_t)((v >> (8 * k)) & 0xFF)`. -/
theorem IsWritten.extend {m m' : Mem} {p k : ℕ} {v : UInt32} (h : IsWritten m m' p k v)
    (hk : k < 4) :
    IsWritten m (Function.update m' (p + k) ((v >>> UInt32.ofNat (8 * k)) &&& 0xFF).toUInt8)
      p (k + 1) v := by
  intro j
  have hbyte : ∀ t < 8, ((v >>> UInt32.ofNat (8 * k)) &&& 0xFF).toUInt8.toNat.testBit t =
      v.toNat.testBit (8 * k + t) := by
    intro t ht
    rw [UInt32.toNat_toUInt8, UInt32.toNat_and, UInt32.toNat_shiftRight, UInt32.toNat_ofNat',
      Nat.mod_eq_of_lt (show 8 * k < 2 ^ 32 by omega), Nat.mod_eq_of_lt (show 8 * k < 32 by omega),
      show (0xFF : UInt32).toNat = 2 ^ 8 - 1 from rfl, Nat.and_two_pow_sub_one_eq_mod,
      Nat.mod_mod, Nat.testBit_mod_two_pow, Nat.testBit_shiftRight]
    simp [ht]
  rw [test_update, h j]
  by_cases hj : j / 8 = p + k
  · rw [if_pos hj, if_pos (by omega), hbyte _ (Nat.mod_lt _ (by norm_num))]
    congr 1
    omega
  · rw [if_neg hj]
    by_cases hin : 8 * p ≤ j ∧ j < 8 * p + 8 * k
    · rw [if_pos hin, if_pos (by omega)]
    · rw [if_neg hin, if_neg (by omega)]

theorem IsWritten.eq_write {m m' : Mem} {p k : ℕ} {v : UInt32} (h : IsWritten m m' p k v)
    (hk : k ≤ 4) : m' = BitField.write m (8 * p) (8 * k) v := by
  apply ext_test
  intro j
  rw [h j, BitField.test_write _ _ (show 8 * k ≤ 32 by omega)]

/-- A field write leaves every byte past the field alone. -/
theorem write_past (m : Mem) {start n len : ℕ} (hn : n ≤ 32) (v : UInt32)
    (h : start + n ≤ len * 8) {i : ℕ} (hi : len ≤ i) : BitField.write m start n v i = m i := by
  rw [← UInt8.toNat_inj]
  refine Nat.eq_of_testBit_eq fun t => ?_
  by_cases ht : t < 8
  · rw [← test_byte _ i ht, ← test_byte _ i ht, BitField.test_write _ _ hn, if_neg (by omega)]
  · rw [testBit_byte_of_le _ (by omega), testBit_byte_of_le _ (by omega)]

end CheckedMem
