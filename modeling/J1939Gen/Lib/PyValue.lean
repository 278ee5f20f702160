import Mathlib.Algebra.Order.Floor.Defs
import Mathlib.Data.Rat.Floor

/-!
# Python values

The part of Python's data model a script needs that reads JSON documents and
spreadsheet cells: values of unknown type, the operations on them that may raise,
the text functions `str.split`, `int(text, base)`, and `struct.pack`.

* `bind_eq_ok`, `mapM_eq_ok`: how a computation that may raise ends well.
* `foldlM_invariant`: what a loop of such computations preserves.
* `gather_eq_ok`: collecting every error of a list, or every result.
* `packUInt_eq_ok`: what `struct.pack` accepts.
-/

namespace Py

universe u v

/-- A Python string. -/
abbrev Text := List Char

/-- `==` of strings is equality, so that `in` decides membership. -/
instance Text.lawfulBEq : LawfulBEq Text := List.instLawfulBEq

/-- The exceptions of the built-in operations below. -/
inductive Error
  | type
  | value
  | key
  | attribute
  | index
  | struct
  | zeroDivision
deriving DecidableEq, Repr

/-! ## Computations that may raise -/

theorem bind_eq_ok {ε : Type u} {α β : Type v} {x : Except ε α} {f : α → Except ε β} {b : β} :
    x >>= f = .ok b ↔ ∃ a, x = .ok a ∧ f a = .ok b := by
  cases x with
  | error e =>
    constructor
    · intro h
      cases h
    · rintro ⟨_, h, -⟩
      cases h
  | ok a =>
    constructor
    · intro h
      exact ⟨a, rfl, h⟩
    · rintro ⟨_, h, hf⟩
      cases h
      exact hf

/-- What a loop of fallible turns returned, turn by turn. -/
theorem mapM_eq_ok {ε : Type u} {α β : Type v} {f : α → Except ε β} {xs : List α} {ys : List β} :
    xs.mapM f = .ok ys ↔ List.Forall₂ (fun x y => f x = .ok y) xs ys := by
  induction xs generalizing ys with
  | nil =>
    rw [List.mapM_nil, List.forall₂_nil_left_iff]
    exact ⟨fun h => by cases h; rfl, fun h => by rw [h]; rfl⟩
  | cons x xs ih =>
    rw [List.mapM_cons, bind_eq_ok]
    constructor
    · rintro ⟨y, hy, h⟩
      obtain ⟨ys', hys, h⟩ := bind_eq_ok.mp h
      cases h
      exact .cons hy (ih.mp hys)
    · intro h
      cases h with
      | cons hy hys => exact ⟨_, hy, bind_eq_ok.mpr ⟨_, ih.mpr hys, rfl⟩⟩

theorem exists_of_mapM_eq_ok {ε : Type u} {α β : Type v} {f : α → Except ε β} {xs : List α}
    {ys : List β} (h : xs.mapM f = .ok ys) {x : α} (hx : x ∈ xs) : ∃ y ∈ ys, f x = .ok y := by
  have hall := mapM_eq_ok.mp h
  clear h
  induction hall with
  | nil => cases hx
  | cons hxy _ ih =>
    rcases List.mem_cons.mp hx with rfl | hx
    · exact ⟨_, List.mem_cons_self, hxy⟩
    · obtain ⟨y, hy, hf⟩ := ih hx
      exact ⟨y, List.mem_cons_of_mem _ hy, hf⟩

theorem mem_of_mapM_eq_ok {ε : Type u} {α β : Type v} {f : α → Except ε β} {xs : List α}
    {ys : List β} (h : xs.mapM f = .ok ys) {y : β} (hy : y ∈ ys) : ∃ x ∈ xs, f x = .ok y := by
  have hall := mapM_eq_ok.mp h
  clear h
  induction hall with
  | nil => cases hy
  | cons hxy _ ih =>
    rcases List.mem_cons.mp hy with rfl | hy
    · exact ⟨_, List.mem_cons_self, hxy⟩
    · obtain ⟨x, hx, hf⟩ := ih hy
      exact ⟨x, List.mem_cons_of_mem _ hx, hf⟩

/-- What every turn of a loop preserves holds after the loop. -/
theorem foldlM_invariant {ε : Type u} {α σ : Type v} {f : σ → α → Except ε σ} {P : σ → Prop}
    (hstep : ∀ s a s', P s → f s a = .ok s' → P s') :
    ∀ {xs : List α} {s s' : σ}, P s → xs.foldlM f s = .ok s' → P s' := by
  intro xs
  induction xs with
  | nil =>
    intro s s' hs h
    rw [List.foldlM_nil] at h
    cases h
    exact hs
  | cons x xs ih =>
    intro s s' hs h
    rw [List.foldlM_cons] at h
    obtain ⟨t, ht, h⟩ := bind_eq_ok.mp h
    exact ih (hstep s x t hs ht) h

/-- The errors of the failed results. -/
def errorsOf {ε : Type u} {α : Type v} (xs : List (Except (List ε) α)) : List ε :=
  xs.flatMap fun
    | .error errors => errors
    | .ok _ => []

/-- `errors` so far, those of the results and those found after them; with none of them,
every result. -/
def gather {ε : Type u} {α : Type v} (pre : List ε) (xs : List (Except (List ε) α))
    (post : List ε) : Except (List ε) (List α) :=
  match pre ++ errorsOf xs ++ post, xs.mapM (fun x => x.toOption) with
  | [], some ys => .ok ys
  | errors, _ => .error errors

theorem mapM_toOption_eq_some {ε : Type u} {α : Type v} {xs : List (Except ε α)} {ys : List α} :
    xs.mapM (fun x => x.toOption) = some ys ↔ xs = ys.map .ok := by
  induction xs generalizing ys with
  | nil =>
    rw [List.mapM_nil, eq_comm (a := []), List.map_eq_nil_iff]
    exact ⟨fun h => by cases h; rfl, fun h => by rw [h]; rfl⟩
  | cons x xs ih =>
    rw [List.mapM_cons]
    cases x with
    | error e =>
      constructor
      · intro h
        cases h
      · intro h
        cases ys with
        | nil => cases h
        | cons y ys => cases h
    | ok a =>
      show (do let ys' ← xs.mapM (fun x => x.toOption); some (a :: ys')) = some ys ↔ _
      rw [Option.bind_eq_bind, Option.bind_eq_some_iff]
      constructor
      · rintro ⟨ys', hys, h⟩
        cases h
        rw [ih.mp hys, List.map_cons]
      · intro h
        cases ys with
        | nil => cases h
        | cons y ys =>
          rw [List.map_cons, List.cons.injEq, Except.ok.injEq] at h
          exact ⟨ys, ih.mpr h.2, by rw [h.1]⟩

theorem errorsOf_map_ok {ε : Type u} {α : Type v} (ys : List α) :
    errorsOf (ys.map (.ok (ε := List ε))) = [] := by
  induction ys with
  | nil => rfl
  | cons y ys ih => exact ih

/-- Results are returned exactly when nothing failed. -/
theorem gather_eq_ok {ε : Type u} {α : Type v} {pre : List ε} {xs : List (Except (List ε) α)}
    {post : List ε} {ys : List α} :
    gather pre xs post = .ok ys ↔ pre = [] ∧ xs = ys.map .ok ∧ post = [] := by
  unfold gather
  constructor
  · intro h
    split at h
    · next herr hys =>
      cases h
      rw [List.append_eq_nil_iff, List.append_eq_nil_iff] at herr
      exact ⟨herr.1.1, mapM_toOption_eq_some.mp hys, herr.2⟩
    · cases h
  · rintro ⟨rfl, rfl, rfl⟩
    rw [errorsOf_map_ok, mapM_toOption_eq_some.mpr rfl]
    rfl

/-! ## Dictionaries -/

/-- `d[k] = v`: in place where the key is there, at the end otherwise. -/
def insertKey {κ : Type u} {ν : Type v} [DecidableEq κ] (d : List (κ × ν)) (k : κ) (v : ν) :
    List (κ × ν) :=
  if k ∈ d.map Prod.fst then d.map fun e => if e.1 = k then (k, v) else e else d ++ [(k, v)]

/-- `d.get(k)`. -/
def find {κ : Type u} {ν : Type v} [DecidableEq κ] (d : List (κ × ν)) (k : κ) : Option ν :=
  (d.find? fun e => e.1 = k).map Prod.snd

/-! ## Values -/

/-- A finite float: its exact value, the number its `repr` shows and that text. -/
structure Float where
  exact : ℚ
  shown : ℚ
  text : Text

/-- A value whose type is only known at run time. `text` is what `str` gives where it
is not made from the fields. -/
inductive Value
  | none
  | bool (b : Bool)
  | int (i : ℤ)
  | float (f : Float)
  | nonfinite (text : Text)
  | str (s : Text)
  | list (text : Text) (items : List Value)
  | dict (text : Text) (entries : List (Text × Value))
  | other (text : Text)

namespace Value

/-- `bool(v)`. -/
def truthy : Value → Bool
  | none => false
  | bool b => b
  | int i => i ≠ 0
  | float f => f.exact ≠ 0
  | nonfinite _ => true
  | str s => s ≠ []
  | list _ items => !items.isEmpty
  | dict _ entries => !entries.isEmpty
  | other _ => true

/-- The value as a number. -/
def num? : Value → Option ℚ
  | bool b => some (if b then 1 else 0)
  | int i => some i
  | float f => some f.exact
  | _ => Option.none

/-- The value, where `isinstance(v, int)`. -/
def int? : Value → Option ℤ
  | bool b => some (if b then 1 else 0)
  | int i => some i
  | _ => Option.none

/-- `v == w`; containers, non-finite floats and foreign objects are not compared. -/
def eq (v w : Value) : Bool :=
  match v.num?, w.num? with
  | some a, some b => a = b
  | _, _ =>
    match v, w with
    | none, none => true
    | str s, str t => s = t
    | _, _ => false

/-- `v[key]` with a string key. -/
def item (v : Value) (key : Text) : Except Error Value :=
  match v with
  | dict _ entries =>
    match find entries key with
    | some w => .ok w
    | Option.none => .error .key
  | _ => .error .type

/-- `v.get(key)`. -/
def get (v : Value) (key : Text) : Except Error (Option Value) :=
  match v with
  | dict _ entries => .ok (find entries key)
  | _ => .error .attribute

/-- `v.items()`. -/
def items (v : Value) : Except Error (List (Text × Value)) :=
  match v with
  | dict _ entries => .ok entries
  | _ => .error .attribute

/-- `list(v)`, what a `for` over `v` visits. -/
def iter (v : Value) : Except Error (List Value) :=
  match v with
  | str s => .ok (s.map fun c => str [c])
  | list _ items => .ok items
  | dict _ entries => .ok (entries.map fun e => str e.1)
  | _ => .error .type

/-- Whether `hash(v)` is defined. -/
def hashable : Value → Bool
  | list _ _ => false
  | dict _ _ => false
  | _ => true

/-- `hash(v)`, for its exception. -/
def hash (v : Value) : Except Error Unit := if v.hashable then .ok () else .error .type

/-- The string a function that takes only strings is given. -/
def asStr : Value → Except Error Text
  | str s => .ok s
  | _ => .error .type

/-- `w in v`. -/
def contains (v w : Value) : Except Error Bool :=
  match v with
  | list _ items => .ok (items.any (eq w))
  | dict _ entries =>
    if w.hashable then .ok (entries.any fun e => eq w (str e.1)) else .error .type
  | str s =>
    match w with
    | str t => .ok (s.tails.any fun u => t.isPrefixOf u)
    | _ => .error .type
  | _ => .error .type

/-- `v[w]`. -/
def subscript (v w : Value) : Except Error Value :=
  match v, w with
  | dict _ _, str key => v.item key
  | dict _ _, _ => if w.hashable then .error .key else .error .type
  | list _ items, _ =>
    match w.int? with
    | some i =>
      match if i < 0 then items[items.length - (-i).toNat]? else items[i.toNat]? with
      | some x => if -(items.length : ℤ) ≤ i then .ok x else .error .index
      | Option.none => .error .index
    | Option.none => .error .type
  | _, _ => .error .type

end Value

/-! ## Text -/

/-- `c.isspace()`. -/
def isSpace (c : Char) : Bool :=
  (9 ≤ c.toNat ∧ c.toNat ≤ 13) ∨ (0x1C ≤ c.toNat ∧ c.toNat ≤ 0x20) ∨
    (0x2000 ≤ c.toNat ∧ c.toNat ≤ 0x200A) ∨
    c.toNat ∈ [0x85, 0xA0, 0x1680, 0x2028, 0x2029, 0x202F, 0x205F, 0x3000]

/-- The zeros of the decimal digits of Unicode (category `Nd`); the other nine follow. -/
def digitZeros : List ℕ :=
  [0x30, 0x660, 0x6F0, 0x7C0, 0x966, 0x9E6, 0xA66, 0xAE6, 0xB66, 0xBE6, 0xC66, 0xCE6, 0xD66,
    0xDE6, 0xE50, 0xED0, 0xF20, 0x1040, 0x1090, 0x17E0, 0x1810, 0x1946, 0x19D0, 0x1A80, 0x1A90,
    0x1B50, 0x1BB0, 0x1C40, 0x1C50, 0xA620, 0xA8D0, 0xA900, 0xA9D0, 0xA9F0, 0xAA50, 0xABF0,
    0xFF10, 0x104A0, 0x10D30, 0x11066, 0x110F0, 0x11136, 0x111D0, 0x112F0, 0x11450, 0x114D0,
    0x11650, 0x116C0, 0x11730, 0x118E0, 0x11950, 0x11C50, 0x11D50, 0x11DA0, 0x16A60, 0x16AC0,
    0x16B50, 0x1D7CE, 0x1D7D8, 0x1D7E2, 0x1D7EC, 0x1D7F6, 0x1E140, 0x1E2F0, 0x1E950, 0x1FBF0]

/-- The value of a decimal digit, what `\d` matches. -/
def decimalDigit? (c : Char) : Option ℕ :=
  (digitZeros.find? fun z => z ≤ c.toNat ∧ c.toNat ≤ z + 9).map fun z => c.toNat - z

/-- The value of a digit of a base up to 36. -/
def digit? (base : ℕ) (c : Char) : Option ℕ :=
  let value :=
    match decimalDigit? c with
    | some d => some d
    | none =>
      if 'a' ≤ c ∧ c ≤ 'z' then some (c.toNat - 'a'.toNat + 10)
      else if 'A' ≤ c ∧ c ≤ 'Z' then some (c.toNat - 'A'.toNat + 10)
      else none
  value.filter (· < base)

/-- `" ".join(s.split())`: the words of the text, one space between two. `word` is the
current word, read backwards. -/
def wordsOf : Text → Text → List Text
  | word, [] => if word = [] then [] else [word.reverse]
  | word, c :: cs =>
    if isSpace c then
      if word = [] then wordsOf [] cs else word.reverse :: wordsOf [] cs
    else wordsOf (c :: word) cs

/-- `" ".join(s.split())`. -/
def joinWords (s : Text) : Text := [' '].intercalate (wordsOf [] s)

/-- `s.strip()` for the blanks `blank`. -/
def strip (blank : Char → Bool) (s : Text) : Text :=
  ((s.dropWhile blank).reverse.dropWhile blank).reverse

/-- The rest of a digit string, single underscores between digits. -/
def digitsFrom (base : ℕ) : ℕ → Text → Option ℕ
  | acc, [] => some acc
  | acc, '_' :: c :: cs => (digit? base c).bind fun d => digitsFrom base (acc * base + d) cs
  | acc, c :: cs => (digit? base c).bind fun d => digitsFrom base (acc * base + d) cs

/-- The digits of an integer literal. -/
def digits (base : ℕ) : Text → Option ℕ
  | [] => none
  | c :: cs => (digit? base c).bind fun d => digitsFrom base d cs

/-- The digits after the sign, past the prefix `0x` of base 16. -/
def magnitude (base : ℕ) (s : Text) : Option ℕ :=
  match base, s with
  | 16, '0' :: 'x' :: '_' :: cs => digits 16 cs
  | 16, '0' :: 'X' :: '_' :: cs => digits 16 cs
  | 16, '0' :: 'x' :: cs => digits 16 cs
  | 16, '0' :: 'X' :: cs => digits 16 cs
  | _, cs => digits base cs

/-- `int(s, base)` for base 10 or 16. -/
def parseInt (base : ℕ) (s : Text) : Except Error ℤ :=
  -- an ASCII string is stripped of the ASCII blanks only
  let blank (c : Char) : Bool :=
    if s.all (·.toNat < 128) then (9 ≤ c.toNat ∧ c.toNat ≤ 13) ∨ c = ' ' else isSpace c
  let result :=
    match strip blank s with
    | '-' :: cs => (magnitude base cs).map fun n => -(n : ℤ)
    | '+' :: cs => (magnitude base cs).map fun n => (n : ℤ)
    | cs => (magnitude base cs).map fun n => (n : ℤ)
  match result with
  | some i => .ok i
  | none => .error .value

/-- `int(v)`. -/
def Value.toInt : Value → Except Error ℤ
  | bool b => .ok (if b then 1 else 0)
  | int i => .ok i
  | float f => .ok (f.exact.num.tdiv f.exact.den)
  | nonfinite _ => .error .value
  | str s => parseInt 10 s
  | _ => .error .type

/-- The decimal digits of a number. -/
def decimalText (i : ℤ) : Text := (toString i).toList

/-- `str(v)`. -/
def Value.toText : Value → Text
  | none => "None".toList
  | bool b => if b then "True".toList else "False".toList
  | int i => decimalText i
  | float f => f.text
  | nonfinite text => text
  | str s => s
  | list text _ => text
  | dict text _ => text
  | other text => text

/-! ## Packing -/

/-- The little-endian bytes of `n`. -/
def leBytes : ℕ → ℕ → List UInt8
  | 0, _ => []
  | w + 1, n => UInt8.ofNat n :: leBytes w (n / 256)

/-- One field of `struct.pack`: an unsigned integer of `w` bytes. -/
def packUInt (w : ℕ) (i : ℤ) : Except Error (List UInt8) :=
  if 0 ≤ i ∧ i < 256 ^ w then .ok (leBytes w i.toNat) else .error .struct

/-- The fields of one `struct.pack`, each with its width. -/
def packFields (fields : List (ℕ × ℤ)) : Except Error (List UInt8) := do
  let parts ← fields.mapM fun f => packUInt f.1 f.2
  pure parts.flatten

theorem packUInt_eq_ok {w : ℕ} {i : ℤ} {bytes : List UInt8} (h : packUInt w i = .ok bytes) :
    0 ≤ i ∧ i < 256 ^ w := by
  unfold packUInt at h
  split at h
  · next hi => exact hi
  · cases h

theorem packFields_eq_ok {fields : List (ℕ × ℤ)} {bytes : List UInt8}
    (h : packFields fields = .ok bytes) : ∀ f ∈ fields, 0 ≤ f.2 ∧ f.2 < 256 ^ f.1 := by
  obtain ⟨parts, hparts, -⟩ := bind_eq_ok.mp h
  intro f hf
  obtain ⟨_, -, hb⟩ := exists_of_mapM_eq_ok hparts hf
  exact packUInt_eq_ok hb

end Py
