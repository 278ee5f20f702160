import J1939Gen.Persistence.Runs

/-!
# The saved profile as a register

The successful calls that write the flash, in the order they were made, determine
what `Profile_Storage_Open_Latest` reports: the configuration of the last save
since the last erase, the flag of the last autostart change, and a sequence and
a slot that count both.

* `record_step`: one call.
* `history_register`: any number of them, on erased flash.
-/

namespace J1939Gen.Persistence

open ByteMem ValueStore Storage Generator

/-! ## The history -/

/-- What a successful save stores. -/
structure SavedProfile where
  records : List Record
  configCrc : UInt32
  profileId : UInt8
  bitrateBps : UInt32

/-- A call that wrote the flash. -/
inductive Event
  | saved (p : SavedProfile)
  | autostart (enabled : Bool)
  | erased

/-- The configuration of the generator, as a save stores it. -/
def currentProfile (g : Gen) : SavedProfile where
  records := g.store.active.view.records
  configCrc := getConfigCrc g.store
  profileId := g.activeProfileId
  bitrateBps := g.baudKbps * 1000

/-- The event of a call that succeeded. -/
def eventOf {α : Type} (e : Event) : Except Status α → Option Event
  | .ok _ => some e
  | .error _ => none

/-- One call and its event. -/
def record (B : Build) (a : App) (op : Op) : App × Option Event :=
  (step B a op, match op with
    | .save => eventOf (.saved (currentProfile a.gen)) (save a).2
    | .erase => eventOf .erased (erase a).2
    | .setAutostart enabled => eventOf (.autostart enabled) (setAutostart a enabled).2
    | .generator _ | .init | .load _ | .getInfo => none)

/-- The events of a run, the last one first. -/
def newestFirst (events : List (Option Event)) : List Event := (events.filterMap id).reverse

def Event.isErased : Event → Bool
  | .erased => true
  | .saved _ | .autostart _ => false

/-- The events after the last erase, the last one first. -/
def sinceErase (history : List Event) : List Event := history.takeWhile fun e => !e.isErased

def Event.profile : Event → Option SavedProfile
  | .saved p => some p
  | .autostart _ | .erased => none

def Event.flag : Event → Option Bool
  | .autostart enabled => some enabled
  | .saved _ | .erased => none

/-- The last save. -/
def lastSaved (history : List Event) : Option SavedProfile := history.findSome? Event.profile

/-- The flag of the last autostart change, off if there was none. -/
def lastFlag (history : List Event) : Bool := (history.findSome? Event.flag).getD false

/-- The info of the image that stores `p` after `history`. -/
def registerInfo (p : SavedProfile) (history : List Event) : Info where
  sequence := UInt32.ofNat history.length
  configCrc := p.configCrc
  bitrateBps := p.bitrateBps
  signalCount := UInt16.ofNat p.records.length
  scalarCount := UInt16.ofNat (scalarsOf p.records)
  flags := if lastFlag history then flagAutostart else 0
  profileId := p.profileId
  blobCount := UInt8.ofNat (blobsOf p.records)
  slot := if history.length % 2 = 1 then .a else .b

/-- The flash holds what the history since the last erase says. -/
def Registers (m : Memory) (history : List Event) : Prop :=
  match lastSaved history with
  | none => history = [] ∧ Blank m
  | some p => Stored m (registerInfo p history) p.records

/-! ## The calls -/

section Calls

variable {B : Build} {a : App} {c : Contents} {history : List Event}

theorem Registers.congr {m m' : Memory} (h : Registers m history) (hf : m'.flash = m.flash) :
    Registers m' history := by
  unfold Registers at *
  cases hp : lastSaved history with
  | none =>
    rw [hp] at h
    exact ⟨h.1, h.2.congr hf⟩
  | some p =>
    rw [hp] at h
    exact Stored.congr h hf

theorem Registers.left {m : Memory} (h : Registers m history) : m.flash.left = none := by
  unfold Registers at h
  cases hp : lastSaved history with
  | none => rw [hp] at h; exact h.2.left
  | some p => rw [hp] at h; exact Stored.left h

/-- What an open reports. -/
theorem Registers.openLatest {m : Memory} (h : Registers m history) :
    (Storage.openLatest m).2 = match lastSaved history with
      | none => .error .empty
      | some p => .ok (registerInfo p history) := by
  unfold Registers at h
  cases hp : lastSaved history with
  | none =>
    rw [hp] at h
    obtain ⟨_, -, heq⟩ := h.2.openLatest
    rw [heq]
  | some p =>
    rw [hp] at h
    obtain ⟨_, -, heq⟩ := Stored.openLatest h
    rw [heq]

theorem parity_succ (n : ℕ) :
    (if n % 2 = 1 then Slot.a else Slot.b).other = if (n + 1) % 2 = 1 then .a else .b := by
  rcases Nat.mod_two_eq_zero_or_one n with h | h
  · rw [if_neg (by omega), if_pos (by omega)]
    rfl
  · rw [if_pos h, if_neg (by omega)]
    rfl

/-- The place of the next image. -/
theorem nextPlace_registers {m : Memory} (h : Registers m history) :
    nextPlace (Storage.openLatest m).2 =
      (UInt32.ofNat (history.length + 1), if (history.length + 1) % 2 = 1 then .a else .b) := by
  rw [h.openLatest]
  unfold Registers at h
  cases hp : lastSaved history with
  | none =>
    rw [hp] at h
    rw [h.1]
    rfl
  | some p =>
    dsimp only [nextPlace, registerInfo]
    rw [parity_succ, UInt32.ofNat_add]
    rfl

/-- A save keeps the flag. -/
theorem autostartOf_registers {m : Memory} (h : Registers m history) :
    autostartOf (Storage.openLatest m).2 = lastFlag history := by
  rw [h.openLatest]
  unfold Registers at h
  cases hp : lastSaved history with
  | none =>
    rw [hp] at h
    rw [h.1]
    rfl
  | some p =>
    dsimp only [autostartOf, registerInfo]
    cases lastFlag history <;> simp [flagAutostart]

/-- **Save.** -/
theorem record_save (h : Inv B a.gen c) (hr : Registers a.memory history) :
    match eventOf (.saved (currentProfile a.gen)) (save a).2 with
    | none => (save a).1.memory.flash = a.memory.flash
    | some e => Registers (save a).1.memory (e :: history) := by
  by_cases hn : a.canMutate = false ∨ c.count = 0
  · obtain ⟨hres, hsame⟩ := save_refused h hn
    rw [hres, hsame]
    rfl
  obtain ⟨hm, hpos⟩ := not_or.mp hn
  have hread : (openLatest a.memory).2 ≠ .error .flashError := by
    rw [hr.openLatest]
    cases lastSaved history <;> simp
  obtain ⟨hok, -, hstored⟩ := save_active h (by simpa using hm) (Nat.pos_of_ne_zero hpos) hr.left
    hread
  rw [hok]
  dsimp only [eventOf]
  rw [nextPlace_registers hr, autostartOf_registers hr] at hstored
  unfold Registers
  have hrecords : c.records = (currentProfile a.gen).records := by
    rw [currentProfile, h.active.holds.view]
  rw [hrecords] at hstored
  exact hstored

/-- **Set autostart.** -/
theorem record_setAutostart (hr : Registers a.memory history) (enabled : Bool) :
    match eventOf (.autostart enabled) (setAutostart a enabled).2 with
    | none => (setAutostart a enabled).1.memory.flash = a.memory.flash
    | some e => Registers (setAutostart a enabled).1.memory (e :: history) := by
  unfold setAutostart
  by_cases hm : a.canMutate = false
  · rw [if_pos hm]
    rfl
  rw [if_neg hm]
  unfold Registers at hr
  cases hp : lastSaved history with
  | none =>
    rw [hp] at hr
    obtain ⟨s, hflash, hopen⟩ := hr.2.openLatest
    have hrefused : Storage.setAutostart a.memory enabled = (s, .error .empty) := by
      unfold Storage.setAutostart
      rw [hopen]
    rw [hrefused]
    exact hflash
  | some p =>
    rw [hp] at hr
    obtain ⟨hok, hstored⟩ := setAutostart_stored hr enabled
    have hlast : lastSaved (.autostart enabled :: history) = some p := hp
    have hinfo : registerInfo p (.autostart enabled :: history) =
        { registerInfo p history with
          sequence := (registerInfo p history).sequence + 1
          flags := if enabled then flagAutostart else 0
          slot := (registerInfo p history).slot.other } := by
      dsimp only [registerInfo]
      rw [parity_succ, List.length_cons, UInt32.ofNat_add]
      rfl
    rw [← hinfo] at hok hstored
    dsimp only [App.finish]
    rw [hok]
    dsimp only [mapResult, eventOf]
    unfold Registers
    rw [hlast]
    exact hstored

/-- **Erase.** -/
theorem record_erase (hr : Registers a.memory history) :
    match eventOf .erased (erase a).2 with
    | none => (erase a).1.memory.flash = a.memory.flash
    | some _ => Registers (erase a).1.memory [] := by
  unfold erase
  by_cases hm : a.canMutate = false
  · rw [if_pos hm]
    rfl
  obtain ⟨hok, hblank⟩ := erase_blank hr.left
  rw [if_neg hm]
  dsimp only [App.finish]
  rw [hok]
  exact ⟨rfl, hblank⟩

/-- **Step lemma.** -/
theorem record_step {B : SupportedBuild} {a : App} {c : Contents} {history : List Event}
    (h : Inv B.val a.gen c) (hr : Registers a.memory (sinceErase history)) (op : Op) :
    Registers (record B.val a op).1.memory
      (sinceErase ((record B.val a op).2.toList ++ history)) := by
  have hkeep : op.ramOnly = true → Registers (step B.val a op).memory (sinceErase history) :=
    fun hop => hr.congr (flash_step h hop)
  cases op with
  | generator op => exact hkeep rfl
  | init => exact hkeep rfl
  | load clock => exact hkeep rfl
  | getInfo => exact hkeep rfl
  | save =>
    have hsave := record_save h hr
    dsimp only [record, step]
    cases hres : (save a).2 with
    | error e =>
      rw [hres] at hsave
      exact hr.congr hsave
    | ok info =>
      rw [hres] at hsave
      exact hsave
  | setAutostart enabled =>
    have hset := record_setAutostart hr enabled
    dsimp only [record, step]
    cases hres : (setAutostart a enabled).2 with
    | error e =>
      rw [hres] at hset
      exact hr.congr hset
    | ok info =>
      rw [hres] at hset
      exact hset
  | erase =>
    have herase := record_erase hr
    dsimp only [record, step]
    cases hres : (erase a).2 with
    | error e =>
      rw [hres] at herase
      exact hr.congr herase
    | ok _ =>
      rw [hres] at herase
      exact herase

end Calls

/-! ## Runs -/

/-- The invariant of a run: the generator's own, and the register. -/
def Recorded (B : Build) (a : App) (events : List (Option Event)) : Prop :=
  (∃ c, Inv B a.gen c) ∧ Registers a.memory (sinceErase (newestFirst events))

theorem newestFirst_concat (events : List (Option Event)) (e : Option Event) :
    newestFirst (events ++ [e]) = e.toList ++ newestFirst events := by
  unfold newestFirst
  rw [List.filterMap_append, List.reverse_append]
  cases e <;> rfl

/-- **Run lemma.** -/
theorem recorded_run (B : SupportedBuild) (baudKbps : UInt32) (image : Mem) (lastStatus : Status)
    (ops : List Op) :
    let r := Mealy.run (record B.val) (start baudKbps (erased image) lastStatus) ops
    Recorded B.val r.1 r.2 := by
  intro r
  have hstep : ∀ (a : App) events op, Recorded B.val a events →
      Recorded B.val (record B.val a op).1 (events ++ [(record B.val a op).2]) := by
    intro a events op h
    obtain ⟨⟨c, hc⟩, hr⟩ := h
    refine ⟨inv_step ⟨c, hc⟩ op, ?_⟩
    rw [newestFirst_concat]
    exact record_step hc hr op
  have hstart : Recorded B.val (start baudKbps (erased image) lastStatus) [] :=
    ⟨⟨_, inv_init B.val baudKbps⟩, rfl, erased_blank image⟩
  exact Mealy.run_trace_invariant hstep hstart ops

/-- **The saved profile behaves like one register.** After any calls on erased
    flash, an open finds nothing unless a save succeeded since the last erase.
    Then it reports the records, the CRC, the profile id and the bitrate of the
    last such save, the flag of the last autostart change, and the number of
    calls that wrote an image since the erase as its sequence; each of them
    wrote the other slot. -/
theorem history_register (B : SupportedBuild) (baudKbps : UInt32) (image : Mem)
    (lastStatus : Status) (ops : List Op) :
    let r := Mealy.run (record B.val) (start baudKbps (erased image) lastStatus) ops
    let history := sinceErase (newestFirst r.2)
    match lastSaved history with
    | none => history = [] ∧ (openLatest r.1.memory).2 = .error .empty
    | some p => ∃ info, Reads r.1.memory info (p.records.map visited) ∧
        info.configCrc = p.configCrc ∧ info.profileId = p.profileId ∧
        info.bitrateBps = p.bitrateBps ∧
        info.flags = (if lastFlag history then flagAutostart else 0) ∧
        info.sequence = UInt32.ofNat history.length ∧
        info.slot = if history.length % 2 = 1 then .a else .b := by
  intro r history
  obtain ⟨-, hr⟩ := recorded_run B baudKbps image lastStatus ops
  have hopen := hr.openLatest
  change Registers r.1.memory history at hr
  change (openLatest r.1.memory).2 = match lastSaved history with
    | none => .error .empty
    | some p => .ok (registerInfo p history) at hopen
  unfold Registers at hr
  cases hp : lastSaved history with
  | none =>
    rw [hp] at hr hopen
    exact ⟨hr.1, hopen⟩
  | some p =>
    rw [hp] at hr
    exact ⟨_, Stored.reads hr, rfl, rfl, rfl, rfl, rfl, rfl⟩

end J1939Gen.Persistence
