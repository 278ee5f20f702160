import J1939Gen.Lib.Numeral
import Mathlib.Data.List.TakeWhile

/-!
# Numbers on the console

Model of the number output of `HAL/hal_console_stm32f1.c` and
`MID/j1939_tx_scheduler.c`, and of the C library's readers of decimal numbers that
the command line uses, with `unsigned long` of 32 bits as on the target.

* `strtoul_decimal`, `atoi_writeI32`: what is printed is read back, whatever follows it.
* `value_putHex`: the same for a given count of hex digits.
* `readHex_writeHex`: and for hex without leading zeros.
-/

namespace J1939Gen

/-- A C string without its terminator, or bytes for the console. -/
abbrev Chars := List UInt8

/-- The bytes of a string literal. -/
def ascii (s : String) : Chars := s.toList.map fun c => UInt8.ofNat c.toNat

namespace Console

/-! ## Output -/

/-- The loop that fills `buf` in `hal_console_write_u32` and `prv_put_u32`; both
    buffers hold the ten digits of a `uint32_t`. -/
def decimalLoop : ℕ → UInt32 → Chars
  | 0, _ => []
  | fuel + 1, value =>
    (48 + (value % 10).toUInt8) :: if value / 10 = 0 then [] else decimalLoop fuel (value / 10)

/-- The decimal digits of a number, as both functions put them out. -/
def decimal (value : UInt32) : Chars := (decimalLoop 10 value).reverse

/-- `hal_console_write_u32` (`hal_console_stm32f1.c:116-127`). -/
def writeU32 (value : UInt32) : Chars := decimal value

/-- `hal_console_write_i32` (`hal_console_stm32f1.c:129-137`). -/
def writeI32 (value : Int32) : Chars :=
  if value < 0 then 45 :: writeU32 ((-(value + 1)).toUInt32 + 1) else writeU32 value.toUInt32

/-- `k_hex`. -/
def hexChar (nib : UInt32) : UInt8 := (ascii "0123456789ABCDEF").getD nib.toNat 0

/-- One turn of the loop of `hal_console_write_hex`. -/
def writeHexStep (value : UInt32) (acc : Chars × Bool) (shift : UInt32) : Chars × Bool :=
  let nib := (value >>> shift) &&& 0xF
  if nib ≠ 0 ∨ acc.2 ∨ shift = 0 then (acc.1 ++ [hexChar nib], true) else acc

/-- `hal_console_write_hex` (`hal_console_stm32f1.c:139-150`). -/
def writeHex (value : UInt32) : Chars :=
  ([28, 24, 20, 16, 12, 8, 4, 0].foldl (writeHexStep value) ([], false)).1

/-- `prv_put_hex` (`j1939_tx_scheduler.c:187-194`), for at most eight digits. -/
def putHex (value : UInt32) (digits : ℕ) : Chars :=
  (List.range digits).map fun i => hexChar ((value >>> UInt32.ofNat ((digits - 1 - i) * 4)) &&& 0xF)

/-! ## Input -/

/-- `isspace` in the C locale. -/
def isSpace (c : UInt8) : Bool := c = 32 ∨ (9 ≤ c ∧ c ≤ 13)

/-- `isdigit`. -/
def isDigit (c : UInt8) : Bool := 48 ≤ c ∧ c ≤ 57

/-- The number leading digits make up. -/
def magnitude (s : Chars) : ℕ :=
  Numeral.value 10 ((s.takeWhile isDigit).map fun c => (c - 48).toNat)

/-- The sign and the magnitude of the number a text begins with. -/
def scanNumber (s : Chars) : Bool × ℕ :=
  match s.dropWhile isSpace with
  | 45 :: digits => (true, magnitude digits)
  | 43 :: digits => (false, magnitude digits)
  | digits => (false, magnitude digits)

/-- `strtoul(s, NULL, 10)`: a number that does not fit gives `ULONG_MAX`, a minus
    sign negates the result. -/
def strtoul (s : Chars) : UInt32 :=
  let (negative, n) := scanNumber s
  if n ≥ 2 ^ 32 then 0xFFFFFFFF else if negative then -UInt32.ofNat n else UInt32.ofNat n

/-- `atoi(s)`, which is `(int)strtol(s, NULL, 10)`: a number that does not fit
    gives the nearest end of the range. -/
def atoi (s : Chars) : Int32 :=
  let (negative, n) := scanNumber s
  if negative then Int32.ofInt (max (-n) (-2 ^ 31)) else Int32.ofInt (min n (2 ^ 31 - 1))

/-! ## Decimal -/

/-- A digit as a character. -/
def digitChar (d : ℕ) : UInt8 := 48 + UInt8.ofNat d

theorem toNat_digitChar {d : ℕ} (hd : d < 10) : (digitChar d).toNat = 48 + d := by
  rw [digitChar, UInt8.toNat_add, UInt8.toNat_ofNat', show (48 : UInt8).toNat = 48 from rfl]
  omega

theorem isDigit_iff (c : UInt8) : isDigit c ↔ 48 ≤ c.toNat ∧ c.toNat ≤ 57 := by
  rw [isDigit, decide_eq_true_iff, UInt8.le_iff_toNat_le, UInt8.le_iff_toNat_le]
  rfl

theorem isDigit_digitChar {d : ℕ} (hd : d < 10) : isDigit (digitChar d) := by
  rw [isDigit_iff, toNat_digitChar hd]
  omega

theorem isSpace_of_isDigit {c : UInt8} (h : isDigit c) : isSpace c = false := by
  rw [isDigit_iff] at h
  rw [isSpace, decide_eq_false_iff_not, UInt8.le_iff_toNat_le, UInt8.le_iff_toNat_le]
  rintro (rfl | ⟨-, h13⟩)
  · exact absurd h.1 (by decide)
  · have : c.toNat ≤ 13 := h13
    omega

theorem digit_digitChar {d : ℕ} (hd : d < 10) : (digitChar d - 48).toNat = d := by
  have h := toNat_digitChar hd
  rw [UInt8.toNat_sub, h, show (48 : UInt8).toNat = 48 from rfl]
  omega

theorem decimalLoop_eq (fuel : ℕ) (value : UInt32) :
    decimalLoop fuel value = (Numeral.peel 10 fuel value.toNat).map digitChar := by
  induction fuel generalizing value with
  | zero => rfl
  | succ fuel ih =>
    have hdiv : (value / 10).toNat = value.toNat / 10 := UInt32.toNat_div value 10
    have hdigit : 48 + (value % 10).toUInt8 = digitChar (value.toNat % 10) := by
      rw [digitChar]
      congr 1
    have hzero : value / 10 = 0 ↔ value.toNat / 10 = 0 := by
      rw [← UInt32.toNat_inj, hdiv]
      rfl
    rw [decimalLoop, Numeral.peel, List.map_cons, hdigit, ih, hdiv]
    simp only [hzero]
    split <;> rfl

theorem decimal_eq (value : UInt32) :
    decimal value = (Numeral.peel 10 10 value.toNat).reverse.map digitChar := by
  rw [decimal, decimalLoop_eq, List.map_reverse]

theorem length_decimal_le (value : UInt32) : (decimal value).length ≤ 10 := by
  rw [decimal_eq, List.length_map, List.length_reverse]
  exact Numeral.length_peel_le 10 10 value.toNat

theorem decimal_ne_nil (value : UInt32) : decimal value ≠ [] := by
  rw [decimal_eq]
  intro h
  exact Numeral.peel_ne_nil 10 9 value.toNat (by simpa using h)

theorem isDigit_of_mem_decimal {value : UInt32} {c : UInt8} (h : c ∈ decimal value) :
    isDigit c := by
  rw [decimal_eq, List.mem_map] at h
  obtain ⟨d, hd, rfl⟩ := h
  exact isDigit_digitChar (Numeral.peel_lt (by decide) 10 _ d (List.mem_reverse.mp hd))

/-- What may follow a number: nothing, or a character that is no digit. -/
def EndsNumber (rest : Chars) : Prop := ∀ c ∈ rest.head?, isDigit c = false

theorem takeWhile_isDigit {digits rest : Chars} (hd : ∀ c ∈ digits, isDigit c)
    (hrest : EndsNumber rest) : (digits ++ rest).takeWhile isDigit = digits := by
  rw [List.takeWhile_append_of_pos hd]
  rcases rest with _ | ⟨c, rest⟩
  · rw [List.takeWhile_nil, List.append_nil]
  · rw [List.takeWhile_cons_of_neg (by rw [hrest c rfl]; exact Bool.false_ne_true),
      List.append_nil]

theorem magnitude_decimal (value : UInt32) {rest : Chars} (hrest : EndsNumber rest) :
    magnitude (decimal value ++ rest) = value.toNat := by
  have hdigits : (decimal value).map (fun c => (c - 48).toNat) =
      (Numeral.peel 10 10 value.toNat).reverse := by
    rw [decimal_eq, List.map_map]
    conv_rhs => rw [← List.map_id (Numeral.peel 10 10 value.toNat).reverse]
    apply List.map_congr_left
    intro d hd
    exact digit_digitChar (Numeral.peel_lt (by decide) 10 _ d (List.mem_reverse.mp hd))
  have hlt := value.toNat_lt
  rw [magnitude, takeWhile_isDigit (fun c hc => isDigit_of_mem_decimal hc) hrest, hdigits,
    Numeral.value_peel (by omega)]

theorem scanNumber_of_digit {s : Chars} {c : UInt8} (hc : isDigit c) :
    scanNumber (c :: s) = (false, magnitude (c :: s)) := by
  have hspace := isSpace_of_isDigit hc
  have hdigit := (isDigit_iff c).mp hc
  rw [scanNumber, List.dropWhile_cons_of_neg (by rw [hspace]; exact Bool.false_ne_true)]
  split
  · next h =>
    rw [(List.cons.inj h).1] at hdigit
    exact absurd hdigit.1 (by decide)
  · next h =>
    rw [(List.cons.inj h).1] at hdigit
    exact absurd hdigit.1 (by decide)
  · rfl

theorem scanNumber_decimal (value : UInt32) {rest : Chars} (hrest : EndsNumber rest) :
    scanNumber (decimal value ++ rest) = (false, value.toNat) := by
  rcases hd : decimal value with _ | ⟨c, digits⟩
  · exact absurd hd (decimal_ne_nil value)
  · have hc : isDigit c := isDigit_of_mem_decimal (by rw [hd]; exact List.mem_cons_self)
    rw [List.cons_append, scanNumber_of_digit hc, ← List.cons_append, ← hd,
      magnitude_decimal value hrest]

theorem scanNumber_minus (value : UInt32) {rest : Chars} (hrest : EndsNumber rest) :
    scanNumber (45 :: (decimal value ++ rest)) = (true, value.toNat) := by
  rw [scanNumber, List.dropWhile_cons_of_neg (by decide)]
  exact congrArg (Prod.mk true) (magnitude_decimal value hrest)

/-- `strtoul` reads a printed number back, whatever follows it. -/
theorem strtoul_decimal (value : UInt32) {rest : Chars} (hrest : EndsNumber rest) :
    strtoul (decimal value ++ rest) = value := by
  have hlt := value.toNat_lt
  rw [strtoul, scanNumber_decimal value hrest]
  simp only [Bool.false_eq_true, if_false]
  rw [if_neg (by omega), UInt32.ofNat_toNat]

theorem toInt_eq_toUInt32 (x : Int32) :
    x.toInt = if x.toUInt32.toNat < 2 ^ 31 then (x.toUInt32.toNat : ℤ) else x.toUInt32.toNat - 2 ^ 32 := by
  rw [← Int32.toInt_toBitVec, BitVec.toInt_eq_toNat_cond, Int32.toNat_toBitVec]
  simp only [Nat.reducePow, Int.reducePow, Nat.cast_ofNat]
  split <;> split <;> omega

/-- The magnitude `hal_console_write_i32` prints, without the overflow of `-value`. -/
theorem toNat_negated (value : Int32) (h : value < 0) :
    (((-(value + 1)).toUInt32 + 1).toNat : ℤ) = -value.toInt := by
  have hneg : value.toInt < 0 := Int32.lt_iff_toInt_lt.mp h
  have hint := toInt_eq_toUInt32 value
  have hlt := value.toUInt32.toNat_lt
  have hsum : (-(value + 1)).toUInt32 = -(value.toUInt32 + 1) := rfl
  rw [hsum, UInt32.toNat_add, UInt32.toNat_neg, UInt32.toNat_add, show (1 : UInt32).toNat = 1 from rfl,
    show UInt32.size = 2 ^ 32 from rfl]
  split at hint <;> omega

/-- `atoi` reads a printed signed number back, whatever follows it. -/
theorem atoi_writeI32 (value : Int32) {rest : Chars} (hrest : EndsNumber rest) :
    atoi (writeI32 value ++ rest) = value := by
  have hmin : -2 ^ 31 ≤ value.toInt := value.le_toInt
  have hmax : value.toInt < 2 ^ 31 := value.toInt_lt
  by_cases hneg : value < 0
  · rw [atoi, writeI32, if_pos hneg, List.cons_append, writeU32, scanNumber_minus _ hrest]
    simp only [if_true]
    rw [toNat_negated value hneg, neg_neg, max_eq_left hmin, Int32.ofInt_toInt]
  · have hint := toInt_eq_toUInt32 value
    have hge : ¬ value.toInt < 0 := fun h => hneg (Int32.lt_iff_toInt_lt.mpr h)
    have hnat : (value.toUInt32.toNat : ℤ) = value.toInt := by
      have hlt := value.toUInt32.toNat_lt
      split at hint <;> omega
    rw [atoi, writeI32, if_neg hneg, writeU32, scanNumber_decimal _ hrest]
    simp only [Bool.false_eq_true, if_false]
    rw [hnat, min_eq_left (by omega), Int32.ofInt_toInt]

/-- Nothing follows a number that is a word. -/
theorem endsNumber_nil : EndsNumber [] := fun _ h => absurd h (by simp)

theorem strtoul_word (value : UInt32) : strtoul (decimal value) = value := by
  have h := strtoul_decimal value endsNumber_nil
  rwa [List.append_nil] at h

theorem atoi_word (value : Int32) : atoi (writeI32 value) = value := by
  have h := atoi_writeI32 value endsNumber_nil
  rwa [List.append_nil] at h

/-! ## Hex -/

/-- The value of a hex digit. -/
def hexDigit (c : UInt8) : ℕ := (ascii "0123456789ABCDEF").idxOf c

/-- The number hex digits make up. -/
def readHex (s : Chars) : ℕ := Numeral.value 16 (s.map hexDigit)

theorem hexDigit_hexChar {nib : UInt32} (h : nib.toNat < 16) : hexDigit (hexChar nib) = nib.toNat := by
  have hall : ∀ d < 16, hexDigit ((ascii "0123456789ABCDEF").getD d 0) = d := by decide
  exact hall nib.toNat h

theorem toNat_nibble (value : UInt32) {j : ℕ} (hj : j < 8) :
    ((value >>> UInt32.ofNat (j * 4)) &&& 0xF).toNat = value.toNat / 16 ^ j % 16 := by
  have hshift : (UInt32.ofNat (j * 4)).toNat % 32 = 4 * j := by
    rw [UInt32.toNat_ofNat']
    omega
  rw [UInt32.toNat_and, show (0xF : UInt32).toNat = 2 ^ 4 - 1 from rfl,
    Nat.and_two_pow_sub_one_eq_mod, UInt32.toNat_shiftRight, hshift, Nat.shiftRight_eq_div_pow,
    pow_mul]
  rfl

theorem hexDigit_nibble (value : UInt32) {j : ℕ} (hj : j < 8) :
    hexDigit (hexChar ((value >>> UInt32.ofNat (j * 4)) &&& 0xF)) = value.toNat / 16 ^ j % 16 := by
  have h := toNat_nibble value hj
  rw [hexDigit_hexChar (by omega), h]

/-- The digits of `prv_put_hex` read back. -/
theorem readHex_putHex (value : UInt32) {digits : ℕ} (hd : digits ≤ 8) :
    readHex (putHex value digits) = value.toNat % 16 ^ digits := by
  have hfixed : (putHex value digits).map hexDigit = Numeral.fixed 16 digits value.toNat := by
    rw [putHex, List.map_map, Numeral.fixed]
    apply List.map_congr_left
    intro i hi
    have hlt := List.mem_range.mp hi
    exact hexDigit_nibble value (by omega)
  rw [readHex, hfixed, Numeral.value_fixed]

theorem length_putHex (value : UInt32) (digits : ℕ) : (putHex value digits).length = digits := by
  rw [putHex, List.length_map, List.length_range]

theorem readHex_concat (s : Chars) (c : UInt8) : readHex (s ++ [c]) = readHex s * 16 + hexDigit c := by
  rw [readHex, List.map_append, List.map_singleton, Numeral.value_concat, readHex]

/-- The shifts of the loop of `hal_console_write_hex`, the last one first. -/
def hexShifts : ℕ → List UInt32
  | 0 => []
  | k + 1 => UInt32.ofNat (k * 4) :: hexShifts k

theorem readHex_writeHexLoop (value : UInt32) {k : ℕ} (hk : k ≤ 8) (acc : Chars × Bool)
    (hacc : readHex acc.1 = value.toNat / 16 ^ k) (hstart : acc.2 = false → acc.1 = []) :
    readHex ((hexShifts k).foldl (writeHexStep value) acc).1 = value.toNat := by
  induction k generalizing acc with
  | zero => rwa [pow_zero, Nat.div_one] at hacc
  | succ k ih =>
    have hnib := toNat_nibble value (show k < 8 by omega)
    have hdigit := hexDigit_nibble value (show k < 8 by omega)
    have hsplit := Nat.mod_add_div (value.toNat / 16 ^ k) 16
    rw [Nat.div_div_eq_div_mul, ← pow_succ] at hsplit
    rw [hexShifts, List.foldl_cons]
    refine ih (by omega) _ ?_ ?_
    · rw [writeHexStep]
      split
      · rw [readHex_concat, hacc, hdigit]
        omega
      · -- A leading zero is left out.
        next hskip =>
        push Not at hskip
        rw [hskip.1] at hnib
        have hnil := hstart (by simpa using hskip.2.1)
        rw [hnil] at hacc ⊢
        have hzero : readHex [] = 0 := rfl
        rw [hzero] at hacc ⊢
        have : (0 : UInt32).toNat = 0 := rfl
        omega
    · rw [writeHexStep]
      split
      · exact fun h => Bool.noConfusion h
      · exact hstart

/-- Hex without leading zeros reads back. -/
theorem readHex_writeHex (value : UInt32) : readHex (writeHex value) = value.toNat := by
  have hlt := value.toNat_lt
  refine readHex_writeHexLoop value (le_refl 8) ([], false) ?_ (fun _ => rfl)
  rw [Nat.div_eq_of_lt (by omega)]
  rfl

end Console

end J1939Gen
