import J1939Gen.Storage.PowerFail

/-!
# The latest image of any flash

What `Profile_Storage_Open_Latest` and `Profile_Storage_Visit_Latest` find,
whatever the two slots hold. A slot loads when it holds a valid image; of two
that load, `prv_sequence_newer` chooses.

* `openLatest_cases`: an open finds the latest image, or no slot loads.
* `Latest.visitLatest`: a visit goes through the records of that image, up to
  the first the visitor rejects.
-/

namespace J1939Gen.Storage

open Bitmask ByteMem ValueStore NorFlash SerialClock

/-! ## Slots that load -/

/-- The slot holds an image that loads. -/
def Loads (cell : Mem) (slot : Slot) : Prop := ∃ l, ValidImage (slotMem cell slot) l

/-- A load finds the valid image of the slot, or there is none. -/
theorem loadSlot_cases (s : Memory) (slot : Slot) :
    (∃ l s', ValidImage (slotMem s.flash.cell slot) l ∧ Fetched s s' slot l ∧
        loadSlot s slot = (s', .ok (infoOf (slotMem s.flash.cell slot) slot))) ∨
      ¬ Loads s.flash.cell slot ∧
        ∃ s' e, s'.flash = s.flash ∧ loadSlot s slot = (s', .error e) := by
  by_cases h : Loads s.flash.cell slot
  · obtain ⟨l, hv⟩ := h
    obtain ⟨s', hf, heq⟩ := loadSlot_of_valid hv
    exact .inl ⟨l, s', hv, hf, heq⟩
  · refine .inr ⟨h, (loadSlot s slot).1, ?_⟩
    cases hr : (loadSlot s slot).2 with
    | error e => exact ⟨e, loadSlot_flash s slot, Prod.ext rfl hr⟩
    | ok info =>
      obtain ⟨l, hv, -⟩ := loadSlot_sound (Prod.ext rfl hr : loadSlot s slot = (_, .ok info))
      exact absurd ⟨l, hv⟩ h

/-- Dead contents do not load. -/
theorem Dead.not_loads {cell : Mem} {slot : Slot} (h : Dead (slotMem cell slot)) :
    ¬ Loads cell slot := by
  rintro ⟨l, hv⟩
  obtain ⟨_, -, heq⟩ := loadSlot_of_valid (s := ⟨⟨cell, none⟩, fun _ => 0⟩) hv
  have hdead := h ⟨⟨cell, none⟩, fun _ => 0⟩ slot fun _ _ => rfl
  rw [heq] at hdead
  cases hdead

/-! ## The latest image -/

/-- The slot loads, and `prv_sequence_newer` prefers it to the other one. -/
structure Latest (cell : Mem) (slot : Slot) (l : List Record) : Prop where
  valid : ValidImage (slotMem cell slot) l
  preferred : Loads cell slot.other →
    newer (sequenceOf cell .b) (sequenceOf cell .a) = decide (slot = .b)

/-- The image an open reports. -/
abbrev latestInfo (cell : Mem) (slot : Slot) : Info := infoOf (slotMem cell slot) slot

/-- **Open.** The latest image is found and left in the buffer, or no slot
    loads. -/
theorem openLatest_cases (s : Memory) :
    (∃ slot l s', Latest s.flash.cell slot l ∧ Fetched s s' slot l ∧
        openLatest s = (s', .ok (latestInfo s.flash.cell slot))) ∨
      (∀ slot, ¬ Loads s.flash.cell slot) ∧ ∃ s' e, s'.flash = s.flash ∧
        (e = .catalogMismatch ∨ e = .flashError ∨ e = .empty) ∧ openLatest s = (s', .error e) := by
  -- the last load starts from the same flash, whatever the buffer holds by then
  have hlast : ∀ {s₂ : Memory} {slot : Slot} {l : List Record}, s₂.flash = s.flash →
      ValidImage (slotMem s.flash.cell slot) l → ∃ s', Fetched s s' slot l ∧
        loadSlot s₂ slot = (s', .ok (latestInfo s.flash.cell slot)) := by
    intro s₂ slot l hs₂ hv
    rw [← hs₂] at hv ⊢
    obtain ⟨s', ⟨hf1, hf2⟩, heq⟩ := loadSlot_of_valid hv
    exact ⟨s', ⟨hf1.trans hs₂, by rw [← hs₂]; exact hf2⟩, heq⟩
  rcases loadSlot_cases s .a with ⟨la, s₁, hva, hfa, h1⟩ | ⟨hna, s₁, ea, hfa, h1⟩
  · rcases loadSlot_cases s₁ .b with ⟨lb, s₂, hvb, hfb, h2⟩ | ⟨hnb, s₂, eb, hfb, h2⟩
    · rw [hfa.1] at hvb
      have hflash : s₂.flash = s.flash := hfb.1.trans hfa.1
      rw [openLatest_eq h1 h2]
      dsimp only [openSelected]
      change (∃ slot l s', Latest s.flash.cell slot l ∧ Fetched s s' slot l ∧ loadSlot s₂
        (if newer (sequenceOf s₁.flash.cell .b) (sequenceOf s.flash.cell .a) then .b else .a) = _) ∨ _
      rw [hfa.1]
      cases hn : newer (sequenceOf s.flash.cell .b) (sequenceOf s.flash.cell .a) with
      | false =>
        obtain ⟨s', hf, heq⟩ := hlast hflash hva
        exact .inl ⟨.a, la, s', ⟨hva, fun _ => hn⟩, hf, heq⟩
      | true =>
        obtain ⟨s', hf, heq⟩ := hlast hflash hvb
        exact .inl ⟨.b, lb, s', ⟨hvb, fun _ => hn⟩, hf, heq⟩
    · rw [hfa.1] at hnb
      rw [openLatest_eq h1 h2]
      obtain ⟨s', hf, heq⟩ := hlast (hfb.trans hfa.1) hva
      exact .inl ⟨.a, la, s', ⟨hva, fun h => absurd h hnb⟩, hf, heq⟩
  · rcases loadSlot_cases s₁ .b with ⟨lb, s₂, hvb, hfb, h2⟩ | ⟨hnb, s₂, eb, hfb, h2⟩
    · rw [hfa] at hvb
      rw [openLatest_eq h1 h2]
      obtain ⟨s', hf, heq⟩ := hlast (hfb.1.trans hfa) hvb
      exact .inl ⟨.b, lb, s', ⟨hvb, fun h => absurd h hna⟩, hf, heq⟩
    · rw [hfa] at hnb
      rw [openLatest_eq h1 h2]
      refine .inr ⟨fun slot => by cases slot <;> assumption, s₂, ?_⟩
      dsimp only [openSelected]
      split_ifs
      · exact ⟨_, hfb.trans hfa, .inl rfl, rfl⟩
      · exact ⟨_, hfb.trans hfa, .inr (.inl rfl), rfl⟩
      · exact ⟨_, hfb.trans hfa, .inr (.inr rfl), rfl⟩

/-- The records of an image are what a visitor that collects them is given. -/
theorem ValidImage.unique {m : Mem} {l l' : List Record} (h : ValidImage m l)
    (h' : ValidImage m l') : l' = l := by
  have hparse : ∀ {l : List Record}, ValidImage m l → (parse m .a collect []).1 = l.map visited := by
    intro l h
    rw [(parse_of_carries h.sealed.carries .a collect []).1 (by rw [visitAll_collect]) h.profile,
      visitAll_collect, List.nil_append]
  -- the catalog index is found again by the key
  have hback : ∀ {l : List Record}, ValidImage m l →
      (l.map visited).map (fun p => (indexFromKey p.1, p.2)) =
        l.map (fun r => (some r.1, r.2)) := by
    intro l h
    rw [List.map_map]
    refine List.map_congr_left fun r hr => ?_
    have hlt := (h.sealed.carries.wf.valid r hr).lt
    simp only [Function.comp, visited, indexFromKey_signalKey hlt]
  have hmap := hback h'
  rw [← hparse h', hparse h, hback h] at hmap
  refine (List.map_injective_iff.mpr ?_ hmap).symm
  rintro ⟨i, e⟩ ⟨j, e'⟩ hij
  simpa using hij

theorem Latest.unique {cell : Mem} {slot slot' : Slot} {l l' : List Record}
    (h : Latest cell slot l) (h' : Latest cell slot' l') : slot' = slot ∧ l' = l := by
  have hslot : slot' = slot := by
    by_contra hne
    have hother : slot' = slot.other := by
      cases slot <;> cases slot' <;> first | rfl | exact absurd rfl hne
    subst hother
    have h1 := h.preferred ⟨l', h'.valid⟩
    have h2 := h'.preferred ⟨l, by rw [Slot.other_other]; exact h.valid⟩
    rw [h1] at h2
    cases slot <;> simp [Slot.other] at h2
  subst hslot
  exact ⟨rfl, h.valid.unique h'.valid⟩

/-- Whatever the buffer holds, the latest image is opened. -/
theorem Latest.openLatest {s : Memory} {slot : Slot} {l : List Record}
    (h : Latest s.flash.cell slot l) :
    ∃ s', Fetched s s' slot l ∧
      Storage.openLatest s = (s', .ok (latestInfo s.flash.cell slot)) := by
  rcases openLatest_cases s with ⟨slot', l', s', h', hf, heq⟩ | ⟨hn, -⟩
  · obtain ⟨rfl, rfl⟩ := h.unique h'
    exact ⟨s', hf, heq⟩
  · exact absurd ⟨l, h.valid⟩ (hn slot)

/-- Opening never touches the flash. -/
theorem openLatest_flash (s : Memory) : (openLatest s).1.flash = s.flash := by
  rcases openLatest_cases s with ⟨_, _, s', -, hf, heq⟩ | ⟨-, s', _, hf, -, heq⟩
  · rw [heq]; exact hf.1
  · rw [heq]; exact hf

/-- An open does not depend on the buffer when a slot loads. -/
theorem openLatest_ok_iff {s : Memory} {info : Info} :
    (openLatest s).2 = .ok info ↔
      ∃ slot l, Latest s.flash.cell slot l ∧ info = latestInfo s.flash.cell slot := by
  constructor
  · intro h
    rcases openLatest_cases s with ⟨slot, l, s', hl, -, heq⟩ | ⟨-, s', e, -, -, heq⟩
    · rw [heq] at h
      injection h with h
      exact ⟨slot, l, hl, h.symm⟩
    · rw [heq] at h
      cases h
  · rintro ⟨slot, l, hl, rfl⟩
    obtain ⟨s', -, heq⟩ := hl.openLatest
    rw [heq]

/-- **Visit.** A visit goes through the records of the latest image. -/
theorem Latest.visitLatest {σ : Type*} {s : Memory} {slot : Slot} {l : List Record}
    (h : Latest s.flash.cell slot l) (visit : Visitor σ) (c : σ) :
    ∃ s', Fetched s s' slot l ∧ Storage.visitLatest s visit c = (s', (visitAll visit c l).1,
      if (visitAll visit c l).2 then .ok (latestInfo s.flash.cell slot)
      else .error .visitorRejected) := by
  obtain ⟨s', hf, heq⟩ := h.openLatest
  refine ⟨s', hf, ?_⟩
  have hv := h.valid.congr fun i hi => (hf.2 i hi).symm
  have hinfo : infoOf s'.image slot = latestInfo s.flash.cell slot :=
    infoOf_congr (fun i hi => hf.2 i (by omega)) slot
  obtain ⟨haccept, -, hreject⟩ := parse_of_carries hv.sealed.carries slot visit c
  unfold Storage.visitLatest
  rw [heq]
  dsimp only
  rw [show (latestInfo s.flash.cell slot).slot = slot from rfl]
  cases hb : (visitAll visit c l).2 with
  | true => rw [haccept hb hv.profile, hinfo]; rfl
  | false => rw [hreject hb]; rfl

/-- The latest image is what a reader sees. -/
theorem Latest.reads {s : Memory} {slot : Slot} {l : List Record} (h : Latest s.flash.cell slot l) :
    Reads s (latestInfo s.flash.cell slot) (l.map visited) := by
  obtain ⟨_, -, hopen⟩ := h.openLatest
  obtain ⟨_, -, hvisit⟩ := h.visitLatest collect []
  rw [visitAll_collect, List.nil_append, if_pos rfl] at hvisit
  exact ⟨by rw [hopen], by rw [hvisit]⟩

/-- An image one ahead of the other slot is the latest. -/
theorem Latest.of_successor {cell : Mem} {slot : Slot} {l : List Record}
    (h : ValidImage (slotMem cell slot) l)
    (hseq : Loads cell slot.other → sequenceOf cell slot = sequenceOf cell slot.other + 1) :
    Latest cell slot l where
  valid := h
  preferred hl := by
    cases slot with
    | a => rw [hseq hl]; exact not_newer_add_one _
    | b => rw [hseq hl]; exact newer_add_one _

end J1939Gen.Storage
