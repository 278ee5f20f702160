import J1939Gen.Lib.SerialClock

/-!
# A ring of cached responses

A server keeps the responses of its last requests for a while, so that a request
that comes again gets its response again. Requests carry a tag; a request with
the tag of a cached one and other contents is a conflict. A lookup walks the
slots in order, drops what has expired on its way and stops at the first entry
with the tag; a store overwrites the slots round robin.

* `Wf.lookup`, `Wf.store`: no two entries ever have one tag.
* `Wf.hit`: an entry that has not expired answers its tag.
* `Held.lookup`, `Held.store`: an entry stays until as many responses as there
  are slots have been stored after it.
* `Recent.lookup`, `Recent.store`, `Recent.miss`: no older response is found.
-/

namespace ReplayCache

open SerialClock

variable {κ ρ τ : Type*}

/-- A cached response and the time it was stored at. -/
structure Entry (κ ρ : Type*) where
  key : κ
  response : ρ
  time : UInt32

/-- The slots, and the one the next response goes to. -/
structure Ring (κ ρ : Type*) where
  slot : ℕ → Option (Entry κ ρ)
  next : ℕ

/-- What a lookup finds. -/
inductive Lookup (ρ : Type*)
  | miss
  | replay (response : ρ)
  | conflict
deriving DecidableEq, Repr

/-- No response is cached. -/
def Ring.empty : Ring κ ρ := ⟨fun _ => none, 0⟩

section Operations

variable [DecidableEq κ] [DecidableEq τ] (tag : κ → τ) (window : UInt32)

/-- The walk of a lookup over some slots. -/
def scan (key : κ) (now : UInt32) :
    List ℕ → (ℕ → Option (Entry κ ρ)) → (ℕ → Option (Entry κ ρ)) × Lookup ρ
  | [], slot => (slot, .miss)
  | i :: rest, slot =>
    match slot i with
    | none => scan key now rest slot
    | some e =>
      if now - e.time > window then scan key now rest (Function.update slot i none)
      else if tag e.key ≠ tag key then scan key now rest slot
      else (slot, if e.key = key then .replay e.response else .conflict)

/-- Look a request up in a ring of `n` slots. -/
def Ring.lookup (n : ℕ) (r : Ring κ ρ) (key : κ) (now : UInt32) : Ring κ ρ × Lookup ρ :=
  let (slot, result) := scan tag window key now (List.range n) r.slot
  ({ r with slot := slot }, result)

/-- Store a response. -/
def Ring.store (n : ℕ) (r : Ring κ ρ) (key : κ) (response : ρ) (now : UInt32) : Ring κ ρ :=
  ⟨Function.update r.slot r.next (some ⟨key, response, now⟩), (r.next + 1) % n⟩

end Operations

/-! ## The walk -/

section Scan

variable [DecidableEq κ] [DecidableEq τ] (tag : κ → τ) (window : UInt32) (key : κ) (now : UInt32)

/-- An entry stays, or it has expired. -/
theorem scan_slot (l : List ℕ) (slot : ℕ → Option (Entry κ ρ)) (i : ℕ) :
    (scan tag window key now l slot).1 i = slot i ∨
      (scan tag window key now l slot).1 i = none ∧ ∃ e, slot i = some e ∧ now - e.time > window := by
  induction l generalizing slot with
  | nil => exact .inl rfl
  | cons j rest ih =>
    unfold scan
    cases hj : slot j with
    | none => exact ih slot
    | some e =>
      dsimp only
      by_cases hold : now - e.time > window
      · rw [if_pos hold]
        by_cases hij : i = j
        · subst hij
          refine .inr ⟨?_, e, hj, hold⟩
          rcases ih (Function.update slot i none) with h | ⟨h, -⟩
          · rw [h, Function.update_self]
          · exact h
        · have hsame : Function.update slot j none i = slot i := Function.update_of_ne hij _ _
          rw [← hsame]
          exact ih _
      · rw [if_neg hold]
        by_cases htag : tag e.key ≠ tag key
        · rw [if_pos htag]
          exact ih slot
        · rw [if_neg htag]
          exact .inl rfl

theorem scan_fresh {l : List ℕ} {slot : ℕ → Option (Entry κ ρ)} {i : ℕ} {e : Entry κ ρ}
    (h : slot i = some e) (hfresh : ¬ now - e.time > window) :
    (scan tag window key now l slot).1 i = some e := by
  rcases scan_slot tag window key now l slot i with hs | ⟨-, e', he', hold⟩
  · rw [hs, h]
  · rw [h] at he'
    injection he' with he'
    subst he'
    exact absurd hold hfresh

theorem scan_sub {l : List ℕ} {slot : ℕ → Option (Entry κ ρ)} {i : ℕ} {e : Entry κ ρ}
    (h : (scan tag window key now l slot).1 i = some e) : slot i = some e := by
  rcases scan_slot tag window key now l slot i with hs | ⟨hs, -⟩
  · rw [← hs, h]
  · rw [hs] at h
    cases h

/-- A walk that misses leaves no entry with the tag behind it. -/
theorem scan_miss {l : List ℕ} {slot : ℕ → Option (Entry κ ρ)}
    (h : (scan tag window key now l slot).2 = .miss) {i : ℕ} (hi : i ∈ l) {e : Entry κ ρ}
    (he : (scan tag window key now l slot).1 i = some e) : tag e.key ≠ tag key := by
  induction l generalizing slot with
  | nil => cases hi
  | cons j rest ih =>
    unfold scan at h he
    cases hj : slot j with
    | none =>
      rw [hj] at h he
      rcases List.mem_cons.mp hi with rfl | hi
      · have := scan_sub tag window key now he
        rw [hj] at this
        cases this
      · exact ih h hi he
    | some e' =>
      rw [hj] at h he
      dsimp only at h he
      by_cases hold : now - e'.time > window
      · rw [if_pos hold] at h he
        rcases List.mem_cons.mp hi with rfl | hi
        · have := scan_sub tag window key now he
          rw [Function.update_self] at this
          cases this
        · exact ih h hi he
      · rw [if_neg hold] at h he
        by_cases htag : tag e'.key ≠ tag key
        · rw [if_pos htag] at h he
          rcases List.mem_cons.mp hi with rfl | hi
          · have := scan_sub tag window key now he
            rw [hj] at this
            injection this with this
            subst this
            exact htag
          · exact ih h hi he
        · rw [if_neg htag] at h
          dsimp only at h
          split_ifs at h

/-- A walk past entries with other tags misses. -/
theorem scan_miss_of {l : List ℕ} {slot : ℕ → Option (Entry κ ρ)}
    (h : ∀ i e, slot i = some e → tag e.key ≠ tag key) :
    (scan tag window key now l slot).2 = .miss := by
  induction l generalizing slot with
  | nil => rfl
  | cons j rest ih =>
    unfold scan
    cases hj : slot j with
    | none => exact ih h
    | some e =>
      dsimp only
      by_cases hold : now - e.time > window
      · rw [if_pos hold]
        refine ih fun i e' he' => ?_
        by_cases hij : i = j
        · subst hij
          rw [Function.update_self] at he'
          cases he'
        · rw [Function.update_of_ne hij] at he'
          exact h i e' he'
      · rw [if_neg hold, if_pos (h j e hj)]
        exact ih h

/-- A walk finds the entry of a tag when no other entry has that tag. -/
theorem scan_hit {l : List ℕ} {slot : ℕ → Option (Entry κ ρ)} {i : ℕ} (hi : i ∈ l)
    {e : Entry κ ρ} (he : slot i = some e) (hfresh : ¬ now - e.time > window)
    (htag : tag e.key = tag key)
    (hone : ∀ j e', slot j = some e' → tag e'.key = tag key → j = i) :
    (scan tag window key now l slot).2 = if e.key = key then .replay e.response else .conflict := by
  induction l generalizing slot with
  | nil => cases hi
  | cons j rest ih =>
    unfold scan
    by_cases hji : j = i
    · subst hji
      rw [he]
      dsimp only
      rw [if_neg hfresh, if_neg (by simp [htag])]
    have hrest : i ∈ rest := (List.mem_cons.mp hi).resolve_left fun h => hji h.symm
    cases hj : slot j with
    | none => exact ih hrest he hone
    | some e' =>
      dsimp only
      by_cases hold : now - e'.time > window
      · rw [if_pos hold]
        refine ih hrest ?_ ?_
        · rw [Function.update_of_ne (Ne.symm hji)]
          exact he
        · intro k e'' hk
          by_cases hkj : k = j
          · subst hkj
            rw [Function.update_self] at hk
            cases hk
          · rw [Function.update_of_ne hkj] at hk
            exact hone k e'' hk
      · rw [if_neg hold, if_pos fun h => hji (hone j e' hj h)]
        exact ih hrest he hone

end Scan

/-! ## Rings -/

section Rings

variable [DecidableEq κ] [DecidableEq τ] {tag : κ → τ} {window : UInt32} {n : ℕ} {r : Ring κ ρ}

/-- The entries lie in the first `n` slots and have different tags. -/
structure Wf (tag : κ → τ) (n : ℕ) (r : Ring κ ρ) : Prop where
  next : r.next < n
  within : ∀ i e, r.slot i = some e → i < n
  distinct : ∀ i j e e', r.slot i = some e → r.slot j = some e' → tag e.key = tag e'.key → i = j

omit [DecidableEq κ] [DecidableEq τ] in
theorem Wf.empty (hn : 0 < n) : Wf tag n (Ring.empty : Ring κ ρ) where
  next := hn
  within _ _ h := by cases h
  distinct _ _ _ _ h := by cases h

theorem Wf.lookup (h : Wf tag n r) (key : κ) (now : UInt32) :
    Wf tag n (r.lookup tag window n key now).1 where
  next := h.next
  within i e he := h.within i e (scan_sub tag window key now he)
  distinct i j e e' he he' := h.distinct i j e e' (scan_sub tag window key now he)
    (scan_sub tag window key now he')

/-- After a miss the response may be stored. -/
theorem Wf.store (h : Wf tag n r) {key : κ} {now : UInt32}
    (hmiss : (r.lookup tag window n key now).2 = .miss) (response : ρ) :
    Wf tag n ((r.lookup tag window n key now).1.store n key response now) := by
  have hw : Wf tag n (r.lookup tag window n key now).1 := h.lookup key now
  have hnone : ∀ i e, (r.lookup tag window n key now).1.slot i = some e → tag e.key ≠ tag key :=
    fun i e he => scan_miss tag window key now hmiss (List.mem_range.mpr (hw.within i e he)) he
  generalize (r.lookup tag window n key now).1 = r' at hw hnone
  have hslot : ∀ i e, (r'.store n key response now).slot i = some e →
      i = r'.next ∧ e.key = key ∨ i ≠ r'.next ∧ r'.slot i = some e := by
    intro i e he
    unfold Ring.store at he
    dsimp only at he
    by_cases hi : i = r'.next
    · subst hi
      rw [Function.update_self] at he
      injection he with he
      exact .inl ⟨rfl, by rw [← he]⟩
    · rw [Function.update_of_ne hi] at he
      exact .inr ⟨hi, he⟩
  refine ⟨Nat.mod_lt _ (Nat.zero_lt_of_lt hw.next), fun i e he => ?_, fun i j e e' he he' heq => ?_⟩
  · rcases hslot i e he with ⟨rfl, -⟩ | ⟨-, he⟩
    · exact hw.next
    · exact hw.within i e he
  · rcases hslot i e he with ⟨rfl, hk⟩ | ⟨-, hs⟩
    · rcases hslot j e' he' with ⟨rfl, -⟩ | ⟨-, hs'⟩
      · rfl
      · rw [hk] at heq
        exact absurd heq.symm (hnone j e' hs')
    · rcases hslot j e' he' with ⟨rfl, hk'⟩ | ⟨-, hs'⟩
      · rw [hk'] at heq
        exact absurd heq (hnone i e hs)
      · exact hw.distinct i j e e' hs hs' heq

/-! ## One entry -/

/-- The entry is in slot `i`, and `d` responses were stored after it. -/
structure Held (n : ℕ) (r : Ring κ ρ) (i : ℕ) (e : Entry κ ρ) (d : ℕ) : Prop where
  slot : r.slot i = some e
  next : r.next = (i + 1 + d) % n

omit [DecidableEq κ] in
/-- A response that was just stored. -/
theorem Held.stored (r : Ring κ ρ) (key : κ) (response : ρ) (now : UInt32) :
    Held n (r.store n key response now) r.next ⟨key, response, now⟩ 0 where
  slot := Function.update_self _ _ _
  next := rfl

/-- A lookup keeps an entry that has not expired. -/
theorem Held.lookup {i d : ℕ} {e : Entry κ ρ} (h : Held n r i e d) (key : κ) {now : UInt32}
    (hfresh : ¬ now - e.time > window) : Held n (r.lookup tag window n key now).1 i e d where
  slot := scan_fresh tag window key now h.slot hfresh
  next := h.next

omit [DecidableEq κ] in
/-- The round robin comes back after `n` stores. -/
theorem Held.store {i d : ℕ} {e : Entry κ ρ} (h : Held n r i e d) (hi : i < n) (hd : d + 1 < n)
    (key : κ) (response : ρ) (now : UInt32) : Held n (r.store n key response now) i e (d + 1) where
  slot := by
    have hne : i ≠ r.next := by
      rw [h.next]
      by_cases hlt : i + 1 + d < n
      · rw [Nat.mod_eq_of_lt hlt]
        omega
      · rw [Nat.mod_eq_sub_mod (by omega), Nat.mod_eq_of_lt (by omega)]
        omega
    exact (Function.update_of_ne hne _ _).trans h.slot
  next := by
    show (r.next + 1) % n = (i + 1 + (d + 1)) % n
    rw [h.next, Nat.mod_add_mod]
    congr 1

/-- **Hit.** An entry that has not expired answers its tag. -/
theorem Wf.hit (h : Wf tag n r) {i d : ℕ} {e : Entry κ ρ} (he : Held n r i e d) {key : κ}
    {now : UInt32} (hfresh : ¬ now - e.time > window) (htag : tag e.key = tag key) :
    (r.lookup tag window n key now).2 = if e.key = key then .replay e.response else .conflict :=
  scan_hit tag window key now (List.mem_range.mpr (h.within i e he.slot)) he.slot hfresh htag
    fun j e' hj heq => h.distinct j i e' e hj he.slot (heq.trans htag.symm)

/-! ## The latest requests -/

/-- Every entry is of one of the last `n` requests that were stored, `keys` newest first. -/
def Recent (n : ℕ) (r : Ring κ ρ) (keys : List κ) : Prop :=
  ∀ i e, r.slot i = some e → ∃ d < n, keys[d]? = some e.key ∧ Held n r i e d

omit [DecidableEq κ] in
theorem Recent.empty : Recent n (Ring.empty : Ring κ ρ) [] := fun _ _ h => by cases h

theorem Recent.lookup {keys : List κ} (h : Recent n r keys) (key : κ) (now : UInt32) :
    Recent n (r.lookup tag window n key now).1 keys := by
  intro i e he
  obtain ⟨d, hd, hkey, hheld⟩ := h i e (scan_sub tag window key now he)
  exact ⟨d, hd, hkey, he, hheld.next⟩

omit [DecidableEq κ] [DecidableEq τ] in
/-- A store drops the oldest of the `n` requests. -/
theorem Recent.store {keys : List κ} (h : Recent n r keys) (hw : Wf tag n r) (key : κ)
    (response : ρ) (now : UInt32) : Recent n (r.store n key response now) (key :: keys) := by
  intro i e he
  have hnext := hw.next
  by_cases hi : i = r.next
  · subst hi
    have hstored := Held.stored (n := n) r key response now
    obtain rfl : ⟨key, response, now⟩ = e := Option.some.inj (hstored.slot.symm.trans he)
    exact ⟨0, by omega, rfl, hstored⟩
  have hslot : r.slot i = some e := (Function.update_of_ne hi _ _).symm.trans he
  obtain ⟨d, hd, hkey, hheld⟩ := h i e hslot
  have hin := hw.within i e hslot
  have hd1 : d + 1 < n := by
    by_contra hlast
    obtain rfl : n = d + 1 := by omega
    apply hi
    rw [hheld.next, show i + 1 + d = i + (d + 1) by omega, Nat.add_mod_right,
      Nat.mod_eq_of_lt hin]
  exact ⟨d + 1, hd1, hkey, hheld.store hin hd1 key response now⟩

/-- **Miss.** A tag that none of the last `n` requests had is not found. -/
theorem Recent.miss {keys : List κ} (h : Recent n r keys) {key : κ}
    (hfresh : ∀ k ∈ keys.take n, tag k ≠ tag key) (now : UInt32) :
    (r.lookup tag window n key now).2 = .miss := by
  refine scan_miss_of tag window key now fun i e he => ?_
  obtain ⟨d, hd, hkey, -⟩ := h i e he
  exact hfresh e.key (List.mem_of_getElem? (i := d) (by rw [List.getElem?_take_of_lt hd, hkey]))

end Rings

/-- Within the window, an entry has not expired. -/
theorem not_expired {t t' window : ℕ} (hle : t ≤ t') (hw : t' ≤ t + window) (hlt : window < 2 ^ 32) :
    ¬ UInt32.ofNat t' - UInt32.ofNat t > UInt32.ofNat window := by
  rw [gt_iff_lt, UInt32.lt_iff_toNat_lt, toNat_sub_ofNat hle (by omega), UInt32.toNat_ofNat']
  omega

end ReplayCache
