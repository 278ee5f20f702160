import J1939Gen.Storage.PowerFail

/-!
# Erasing the saved configurations

The erase goes through slot A and then through slot B, four pages each. One
erased page is enough to kill the image of a slot, so between the first page of
A and the first page of B the image in slot B is the only one left, also when it
is the older one.

* `erase_cells`: what an erase leaves when the flash fails at any page.
* `erase_erased`: what becomes of each slot.
* `erase_safe_iff`: exactly when an erase never brings back an older image.
* `erase_resurrects`: a history and a cut after which it does.
-/

namespace J1939Gen.Storage

open Bitmask ByteMem ValueStore NorFlash

/-- The pages an erase loop over `n` pages erases when `left` mutations are
    left. -/
def pagesErased (left : Option ℕ) (n : ℕ) : ℕ :=
  match left with
  | none => n
  | some k => min k n

/-- The mutations that are left after those pages. -/
def leftAfter (left : Option ℕ) (n : ℕ) : Option ℕ := left.map fun k => k - pagesErased left n

/-- The erase loop over the pages of one slot, at any cut. -/
theorem untilFail_erase_left (slot : Slot) {c : Mem} {d : Device} {k n : ℕ}
    (hkn : k + n ≤ pagesPerSlot) (hd : d.cell = fill c slot.address (k * flashPageSize) 0xFF) :
    untilFail (erasePageAt slot.address) d (List.range' k n) =
      (⟨fill c slot.address ((k + pagesErased d.left n) * flashPageSize) 0xFF, leftAfter d.left n⟩,
        decide (pagesErased d.left n = n)) := by
  induction n generalizing d k with
  | zero =>
    obtain ⟨cell, left⟩ := d
    dsimp only at hd
    subst hd
    cases left <;> simp [untilFail, pagesErased, leftAfter]
  | succ n ih =>
    have hpage := erasePageAt_eq slot d (show k < pagesPerSlot by omega)
    obtain ⟨cell, left⟩ := d
    dsimp only at hd
    subst hd
    have hfill : fill (fill c slot.address (k * flashPageSize) 0xFF)
        (slot.address + k * flashPageSize) flashPageSize 0xFF =
          fill c slot.address ((k + 1) * flashPageSize) 0xFF := by
      rw [fill_fill, Nat.succ_mul]
    rw [List.range'_succ]
    unfold untilFail
    rw [hpage, Device.erase, hfill]
    rcases left with _ | _ | m
    · rw [Device.mutate_of_none rfl, if_pos rfl, ih (by omega) rfl]
      simp only [pagesErased, leftAfter, Option.map_none, decide_true]
      rw [show k + 1 + n = k + (n + 1) by omega]
    · rw [show Device.mutate ⟨fill c slot.address (k * flashPageSize) 0xFF, some 0⟩
        (fill c slot.address ((k + 1) * flashPageSize) 0xFF) = (_, false) from rfl]
      simp [pagesErased, leftAfter]
    · rw [show Device.mutate ⟨fill c slot.address (k * flashPageSize) 0xFF, some (m + 1)⟩
        (fill c slot.address ((k + 1) * flashPageSize) 0xFF) = (_, true) from rfl, if_pos rfl,
        ih (by omega) rfl]
      have h1 : min (m + 1) (n + 1) = min m n + 1 := by omega
      simp only [pagesErased, leftAfter, h1, Option.map_some]
      refine Prod.ext ?_ ?_
      · rw [show k + 1 + min m n = k + (min m n + 1) by omega,
          show m + 1 - (min m n + 1) = m - min m n by omega]
      · show decide (min m n = n) = decide (min m n + 1 = n + 1)
        exact decide_eq_decide.mpr (by omega)

/-- What `Profile_Storage_Erase` leaves: pages of slot A, and pages of slot B
    once all of A's are erased. -/
theorem erase_cells (s : Memory) :
    ∃ a b, (erase s).1.flash.cell = fill (fill s.flash.cell Slot.a.address (a * flashPageSize) 0xFF)
        Slot.b.address (b * flashPageSize) 0xFF ∧
      a = pagesErased s.flash.left pagesPerSlot ∧
      b = (if a = pagesPerSlot then
        pagesErased (leftAfter s.flash.left pagesPerSlot) pagesPerSlot else 0) := by
  have ha := untilFail_erase_left .a (c := s.flash.cell) (d := s.flash) (k := 0) (n := pagesPerSlot)
    (by decide) (by rw [Nat.zero_mul, fill_zero])
  rw [Nat.zero_add, ← List.range_eq_range'] at ha
  unfold erase
  rw [ha]
  dsimp only
  by_cases hall : pagesErased s.flash.left pagesPerSlot = pagesPerSlot
  · rw [if_neg (by simp [hall])]
    have hb := untilFail_erase_left .b
      (c := fill s.flash.cell Slot.a.address (pagesErased s.flash.left pagesPerSlot *
        flashPageSize) 0xFF)
      (d := ⟨fill s.flash.cell Slot.a.address (pagesErased s.flash.left pagesPerSlot *
        flashPageSize) 0xFF, leftAfter s.flash.left pagesPerSlot⟩) (k := 0) (n := pagesPerSlot)
      (by decide) (by rw [Nat.zero_mul, fill_zero])
    rw [Nat.zero_add, ← List.range_eq_range'] at hb
    rw [hb]
    exact ⟨_, _, rfl, rfl, by rw [if_pos hall]⟩
  · rw [if_pos (by simp [hall])]
    exact ⟨_, 0, by rw [Nat.zero_mul, fill_zero], rfl, by rw [if_neg hall]⟩

theorem pagesErased_le (left : Option ℕ) (n : ℕ) : pagesErased left n ≤ n := by
  cases left with
  | none => exact le_refl n
  | some k => exact min_le_right k n

/-- The pages of each slot an erase takes away when `left` mutations are left. -/
def erasedPages (left : Option ℕ) : Slot → ℕ
  | .a => pagesErased left pagesPerSlot
  | .b => if pagesErased left pagesPerSlot = pagesPerSlot then
      pagesErased (leftAfter left pagesPerSlot) pagesPerSlot else 0

theorem erasedPages_le (left : Option ℕ) (slot : Slot) : erasedPages left slot ≤ pagesPerSlot := by
  cases slot with
  | a => exact pagesErased_le left pagesPerSlot
  | b =>
    unfold erasedPages
    split_ifs
    · exact pagesErased_le _ pagesPerSlot
    · exact Nat.zero_le pagesPerSlot

/-- Slot B is only begun when slot A is through. -/
theorem erasedPages_b_of_a {left : Option ℕ} (h : erasedPages left .a = 0) :
    erasedPages left .b = 0 :=
  if_neg (by rw [show pagesErased left pagesPerSlot = 0 from h]; decide)

/-- The cuts after which slot A is begun and slot B is not. -/
theorem cut_iff (left : Option ℕ) :
    (∃ k, left = some k ∧ 1 ≤ k ∧ k ≤ pagesPerSlot) ↔
      0 < erasedPages left .a ∧ erasedPages left .b = 0 := by
  cases left with
  | none => simp [erasedPages, pagesErased, leftAfter, pagesPerSlot]
  | some k =>
    simp only [Option.some.injEq, exists_eq_left']
    show 1 ≤ k ∧ k ≤ 4 ↔ 0 < min k 4 ∧ (if min k 4 = 4 then min (k - min k 4) 4 else 0) = 0
    by_cases hk : min k 4 = 4
    · rw [if_pos hk]
      omega
    · rw [if_neg hk]
      omega

/-! ## What still loads -/

theorem dead_fill (slot : Slot) (c : Mem) {j : ℕ} (hj : 0 < j) :
    Dead (slotMem (fill c slot.address (j * flashPageSize) 0xFF) slot) :=
  dead_of_unmarked (unmarked_of_blank (marker_fill slot c hj))

/-- A slot with an erased page does not load, a slot without one is as it was. -/
structure Erased (c c' : Mem) (pages : Slot → ℕ) : Prop where
  kept : ∀ slot, pages slot = 0 → ∀ i < flashSlotSize, slotMem c slot i = slotMem c' slot i
  dead : ∀ slot, 0 < pages slot → Dead (slotMem c' slot)

/-- Nothing starts to load through an erase. -/
theorem Erased.dead_of_dead {c c' : Mem} {pages : Slot → ℕ} (h : Erased c c' pages) {slot : Slot}
    (hdead : Dead (slotMem c slot)) : Dead (slotMem c' slot) := by
  rcases Nat.eq_zero_or_pos (pages slot) with h0 | hpos
  · exact hdead.congr (h.kept slot h0)
  · exact h.dead slot hpos

/-- The erase of the two slots, at any cut: slot A sees its own erased pages
    only, and so does slot B. -/
theorem erase_erased (s : Memory) :
    Erased s.flash.cell (erase s).1.flash.cell (erasedPages s.flash.left) := by
  obtain ⟨a, b, hcell, ha, hb⟩ := erase_cells s
  have ha : a = erasedPages s.flash.left .a := ha
  have hb : b = erasedPages s.flash.left .b := by
    rw [ha] at hb
    exact hb
  have hleA : a ≤ pagesPerSlot := ha ▸ erasedPages_le s.flash.left .a
  have hleB : b ≤ pagesPerSlot := hb ▸ erasedPages_le s.flash.left .b
  have hslotA := (fill_within .b (fill s.flash.cell Slot.a.address (a * flashPageSize) 0xFF) hleB
    0xFF).other
  rw [hcell]
  refine ⟨fun slot h0 => ?_, fun slot hpos => ?_⟩
  · cases slot with
    | a =>
      rw [← ha] at h0
      rw [h0, Nat.zero_mul, fill_zero] at hslotA ⊢
      exact hslotA
    | b =>
      rw [← hb] at h0
      rw [h0, Nat.zero_mul, fill_zero]
      exact (fill_within .a s.flash.cell hleA 0xFF).other
  · cases slot with
    | a => exact (dead_fill .a s.flash.cell (ha ▸ hpos)).congr hslotA
    | b => exact dead_fill .b _ (hb ▸ hpos)

/-- The image that was the latest is still the latest, or none is stored. -/
def StillLatestOrNone (s s' : Memory) : Prop :=
  (openLatest s').2 = .error .empty ∨ ∃ info records, Reads s info records ∧ Reads s' info records

/-- The latest image is in slot A, slot B holds another one, and the flash fails
    after the first page of A and before the first page of B. -/
def Exposed (s : Memory) (cut : Option ℕ) : Prop :=
  (∃ k, cut = some k ∧ 1 ≤ k ∧ k ≤ pagesPerSlot) ∧
    (∃ info, (openLatest s).2 = .ok info ∧ info.slot = .a) ∧
    ∃ info, (loadSlot s .b).2 = .ok info

theorem stillLatestOrNone_of_dead {s s' : Memory}
    (h : ∀ slot, Dead (slotMem s'.flash.cell slot)) : StillLatestOrNone s s' := by
  obtain ⟨_, -, hopen⟩ := openLatest_of_dead (h .a) (h .b)
  exact .inl (by rw [hopen])

theorem Newest.congr {c c' : Mem} {slot : Slot} {l : List Record} (h : Newest c slot l)
    (hkept : ∀ slot, ∀ i < flashSlotSize, slotMem c slot i = slotMem c' slot i) :
    Newest c' slot l := by
  have hseq : ∀ slot, sequenceOf c slot = sequenceOf c' slot :=
    fun slot => readU32_agree (hkept slot) (by decide)
  refine ⟨h.valid.congr' (hkept slot), ?_⟩
  rcases h.other with hdead | ⟨l', hvalid, hnext⟩
  · exact .inl (Dead.congr hdead (hkept slot.other))
  · exact .inr ⟨l', hvalid.congr' (hkept slot.other), by rw [← hseq, ← hseq, hnext]⟩

/-- A slot that is as it was reads as it did, while it is the newest. -/
theorem Newest.still {s s' : Memory} {slot : Slot} {l : List Record}
    (h : Newest s.flash.cell slot l) (h' : Newest s'.flash.cell slot l)
    (hkept : ∀ i < flashSlotSize, slotMem s.flash.cell slot i = slotMem s'.flash.cell slot i) :
    StillLatestOrNone s s' := by
  have hreads := h'.reads
  rw [← infoOf_congr (fun i hi => hkept i (hi.trans (by decide))) slot] at hreads
  exact .inr ⟨_, _, h.reads, hreads⟩

theorem not_exposed_of_dead {s : Memory} {cut : Option ℕ} (h : Dead (slotMem s.flash.cell .b)) :
    ¬ Exposed s cut := by
  rintro ⟨-, -, info, hinfo⟩
  rw [h s .b fun _ _ => rfl] at hinfo
  cases hinfo

theorem not_exposed_of_newest_b {s : Memory} {cut : Option ℕ} {l : List Record}
    (h : Newest s.flash.cell .b l) : ¬ Exposed s cut := by
  rintro ⟨-, ⟨info, hinfo, hslot⟩, -⟩
  obtain ⟨_, -, hopen⟩ := openLatest_of_newest h
  rw [hopen] at hinfo
  injection hinfo with hinfo
  rw [← hinfo] at hslot
  cases hslot

/-- The images in the two slots are told apart by the slot they are in. -/
theorem Newest.not_still {s s' : Memory} {l l' : List Record} (h : Newest s.flash.cell .a l)
    (h' : Newest s'.flash.cell .b l') : ¬ StillLatestOrNone s s' := by
  have hreads := h'.reads
  rintro (hempty | ⟨info, records, h1, h2⟩)
  · rw [hreads.1] at hempty
    cases hempty
  · have hsame := (h.reads.unique h1).1.symm.trans (hreads.unique h2).1
    have hslot := congrArg Info.slot hsame
    cases hslot

/-- **Erasing, exactly.** After any history, and for an erase that fails at any
    page or at none: what is read afterwards, whatever `s_image` holds, is the
    image that was the latest before or none, except exactly when the older
    image in slot B was exposed. -/
theorem erase_safe_iff (history : List Input) (cut : Option ℕ) (image : Mem) :
    let s := (Mealy.run step boot history).1.memory
    StillLatestOrNone s { (erase (s.withCut cut)).1 with image := image } ↔ ¬ Exposed s cut := by
  intro s
  have hsound : Sound s.flash.cell := (Mealy.run_invariant inv_step inv_boot history).sound
  have her : Erased s.flash.cell (erase (s.withCut cut)).1.flash.cell (erasedPages cut) :=
    erase_erased (s.withCut cut)
  generalize (erase (s.withCut cut)).1 = r at her
  rcases hsound with hdead | ⟨slot, l, hnew⟩
  · -- nothing was stored
    exact iff_of_true (stillLatestOrNone_of_dead fun slot => her.dead_of_dead (hdead slot))
      (not_exposed_of_dead (hdead .b))
  rcases Nat.eq_zero_or_pos (erasedPages cut .a) with ha0 | hapos
  · -- no page was erased
    have hkept : ∀ slot, ∀ i < flashSlotSize, slotMem s.flash.cell slot i =
        slotMem r.flash.cell slot i := by
      intro slot
      refine her.kept slot ?_
      cases slot with
      | a => exact ha0
      | b => exact erasedPages_b_of_a ha0
    refine iff_of_true (hnew.still (hnew.congr hkept) (hkept slot)) fun hexp => ?_
    exact absurd ((cut_iff cut).mp hexp.1).1 (by rw [ha0]; exact lt_irrefl 0)
  have hdeadA := her.dead .a hapos
  rcases Nat.eq_zero_or_pos (erasedPages cut .b) with hb0 | hbpos
  · -- slot A is dead and slot B is as it was
    have hkept := her.kept .b hb0
    cases slot with
    | b =>
      have hnew' : Newest r.flash.cell .b l := ⟨hnew.valid.congr' hkept, .inl hdeadA⟩
      exact iff_of_true (hnew.still hnew' hkept) (not_exposed_of_newest_b hnew)
    | a =>
      rcases hnew.other with hdead | ⟨l', hvalid, -⟩
      · have hdead : Dead (slotMem s.flash.cell .b) := hdead
        refine iff_of_true (stillLatestOrNone_of_dead fun slot => ?_) (not_exposed_of_dead hdead)
        cases slot with
        | a => exact hdeadA
        | b => exact her.dead_of_dead hdead
      · have hvalid : ValidImage (slotMem s.flash.cell .b) l' := hvalid
        have hnew' : Newest r.flash.cell .b l' := ⟨hvalid.congr' hkept, .inl hdeadA⟩
        obtain ⟨_, -, hopen⟩ := openLatest_of_newest hnew
        obtain ⟨_, -, hload⟩ := loadSlot_of_valid hvalid
        exact iff_of_false (hnew.not_still hnew') (not_not_intro ⟨(cut_iff cut).mpr ⟨hapos, hb0⟩,
          ⟨_, congrArg Prod.snd hopen, rfl⟩, _, congrArg Prod.snd hload⟩)
  · -- both slots are dead
    refine iff_of_true (stillLatestOrNone_of_dead fun slot => ?_) fun hexp => ?_
    · cases slot with
      | a => exact hdeadA
      | b => exact her.dead .b hbpos
    · exact absurd ((cut_iff cut).mp hexp.1).2 hbpos.ne'

/-- Three images are written, so the latest is in slot A and slot B holds the
    second. -/
def threeImages : List Input :=
  firstSave ++ [.call (.setAutostart true) none, .call (.setAutostart false) none]

/-- An erase whose second page fails brings back the second image, with its
    autostart flag. -/
theorem erase_resurrects :
    let s := (Mealy.run step boot threeImages).1.memory
    ¬ StillLatestOrNone s (erase (s.withCut (some 1))).1 ∧
      (openLatest (erase (s.withCut (some 1))).1).2 =
        .ok { firstInfo with sequence := 2, flags := flagAutostart, slot := .b } := by
  intro s
  have hbefore : (openLatest s).2 = .ok { firstInfo with sequence := 3 } := by decide +kernel
  have hafter : (openLatest (erase (s.withCut (some 1))).1).2 =
      .ok { firstInfo with sequence := 2, flags := flagAutostart, slot := .b } := by decide +kernel
  refine ⟨?_, hafter⟩
  rintro (hempty | ⟨info, records, h1, h2⟩)
  · rw [hafter] at hempty
    cases hempty
  · have hinfo := h2.1
    rw [hafter] at hinfo
    rw [Reads, hbefore] at h1
    rw [← Except.ok.inj hinfo] at h1
    exact absurd (Except.ok.inj h1.1) (by decide)

end J1939Gen.Storage
