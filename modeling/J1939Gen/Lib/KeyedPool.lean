import Mathlib

/-!
# Pools of entries with distinct keys

An unordered pool: an entry is added at the end or replaced in place, and
removed by moving the last entry into its place. The order changes, the keys
stay distinct.

* `swapRemove_perm`: removing by moving the last entry is removing.
* `nodup_upsert`, `nodup_remove`: both operations keep the keys distinct.
* `mem_keys_upsert`, `mem_keys_remove`: which keys they leave.
-/

namespace KeyedPool

variable {α κ : Type*}

/-- The pool without entry `i`: the last entry takes its place. -/
def swapRemove (pool : List α) (i : ℕ) : List α :=
  match pool.getLast? with
  | none => pool
  | some last => (pool.set i last).dropLast

theorem swapRemove_concat (pool : List α) (a : α) (i : ℕ) :
    swapRemove (pool ++ [a]) i = pool.set i a := by
  unfold swapRemove
  rw [List.getLast?_concat]
  dsimp only
  by_cases hi : i < pool.length
  · rw [List.set_append_left _ _ hi, List.dropLast_concat]
  · have hself : [a].set (i - pool.length) a = [a] := by
      cases i - pool.length <;> rfl
    rw [List.set_append_right _ _ (by omega), hself, List.dropLast_concat,
      List.set_eq_of_length_le (by omega)]

theorem swapRemove_perm {pool : List α} {i : ℕ} (hi : i < pool.length) :
    (swapRemove pool i).Perm (pool.eraseIdx i) := by
  rcases List.eq_nil_or_concat pool with rfl | ⟨front, a, rfl⟩
  · simp at hi
  rw [List.concat_eq_append] at hi ⊢
  rw [swapRemove_concat]
  rw [List.length_append, List.length_singleton] at hi
  by_cases hlast : i = front.length
  · subst hlast
    rw [List.set_eq_of_length_le le_rfl, List.eraseIdx_append_of_length_le le_rfl]
    simp
  · rw [List.eraseIdx_append_of_lt_length (by omega)]
    exact (List.set_perm_cons_eraseIdx (by omega) a).trans
      (List.perm_append_singleton a _).symm

/-! ## Keys -/

variable [DecidableEq κ] (key : α → κ)

/-- The place of the entry of `k`. -/
def find (k : κ) (pool : List α) : Option ℕ := pool.findIdx? fun a => key a = k

/-- Replace the entry that has the key of `a`, or add `a`. -/
def upsert (a : α) (pool : List α) : List α :=
  match find key (key a) pool with
  | some i => pool.set i a
  | none => pool ++ [a]

/-- Remove the entry of `k`. -/
def remove (k : κ) (pool : List α) : List α :=
  match find key k pool with
  | some i => swapRemove pool i
  | none => pool

variable {key} {pool : List α} {k : κ}

theorem find_eq_some {i : ℕ} (h : find key k pool = some i) :
    ∃ hi : i < pool.length, key pool[i] = k := by
  obtain ⟨hi, hkey, -⟩ := List.findIdx?_eq_some_iff_getElem.mp h
  exact ⟨hi, by simpa using hkey⟩

theorem find_eq_none : find key k pool = none ↔ k ∉ pool.map key := by
  unfold find
  rw [List.findIdx?_eq_none_iff, List.mem_map]
  simp only [decide_eq_false_iff_not, not_exists, not_and]

theorem isSome_find : (find key k pool).isSome = true ↔ k ∈ pool.map key := by
  rw [← not_iff_not, ← find_eq_none, Option.not_isSome_iff_eq_none]

/-- Replacing an entry in place keeps the keys. -/
theorem map_upsert (a : α) : (upsert key a pool).map key =
    if key a ∈ pool.map key then pool.map key else pool.map key ++ [key a] := by
  unfold upsert
  cases h : find key (key a) pool with
  | none =>
    rw [if_neg (find_eq_none.mp h)]
    simp
  | some i =>
    obtain ⟨hi, hkey⟩ := find_eq_some h
    rw [if_pos (isSome_find.mp (by rw [h]; rfl))]
    dsimp only
    rw [List.map_set, ← hkey, ← List.getElem_map key (h := by simpa using hi)]
    exact List.set_getElem_self _

theorem mem_keys_upsert {a : α} {k : κ} :
    k ∈ (upsert key a pool).map key ↔ k = key a ∨ k ∈ pool.map key := by
  rw [map_upsert]
  by_cases hmem : key a ∈ pool.map key
  · rw [if_pos hmem]
    refine ⟨.inr, fun h => h.elim (fun heq => ?_) id⟩
    rw [heq]
    exact hmem
  · rw [if_neg hmem, List.mem_append, List.mem_singleton, or_comm]

theorem nodup_upsert (h : (pool.map key).Nodup) (a : α) :
    ((upsert key a pool).map key).Nodup := by
  rw [map_upsert]
  by_cases hmem : key a ∈ pool.map key
  · rw [if_pos hmem]
    exact h
  · rw [if_neg hmem]
    rw [← List.concat_eq_append]
    exact h.concat hmem

/-- An upsert takes room only for a new key. -/
theorem length_upsert_le {a : α} {n : ℕ} (h : key a ∈ pool.map key ∨ pool.length < n)
    (hle : pool.length ≤ n) : (upsert key a pool).length ≤ n := by
  have hlen : (upsert key a pool).length = ((upsert key a pool).map key).length := by
    rw [List.length_map]
  rw [hlen, map_upsert]
  by_cases hmem : key a ∈ pool.map key
  · rw [if_pos hmem, List.length_map]
    exact hle
  · rw [if_neg hmem, List.length_append, List.length_map, List.length_singleton]
    exact h.resolve_left hmem

/-- The keys that a removal leaves, in some order. -/
theorem map_remove_perm (h : (pool.map key).Nodup) (k : κ) :
    ((remove key k pool).map key).Perm ((pool.map key).erase k) := by
  unfold remove
  cases hf : find key k pool with
  | none =>
    rw [List.erase_of_not_mem (find_eq_none.mp hf)]
  | some i =>
    obtain ⟨hi, hkey⟩ := find_eq_some hf
    dsimp only
    have hperm := (swapRemove_perm hi).map key
    have herase : (pool.eraseIdx i).map key = (pool.map key).erase k := by
      rw [← List.eraseIdx_map, ← hkey, ← List.getElem_map key (h := by simpa using hi),
        h.erase_getElem]
    rw [herase] at hperm
    exact hperm

theorem mem_keys_remove (h : (pool.map key).Nodup) {k k' : κ} :
    k' ∈ (remove key k pool).map key ↔ k' ≠ k ∧ k' ∈ pool.map key := by
  rw [(map_remove_perm h k).mem_iff, h.mem_erase_iff]

theorem nodup_remove (h : (pool.map key).Nodup) (k : κ) :
    ((remove key k pool).map key).Nodup :=
  (map_remove_perm h k).nodup_iff.mpr (h.erase k)

theorem length_remove_le (h : (pool.map key).Nodup) (k : κ) :
    (remove key k pool).length ≤ pool.length := by
  have hlen := (map_remove_perm h k).length_eq
  rw [List.length_map] at hlen
  rw [hlen]
  exact (List.length_erase_le).trans_eq (List.length_map _)

end KeyedPool
