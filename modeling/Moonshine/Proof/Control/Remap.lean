import Moonshine.Framework.Integers
import Moonshine.Framework.Run
import Moonshine.Impl.Control.Remap

/-!
# The remap and the other buttons

Every report of the client, and every turn of the timer at which the remap has
buttons to set, leaves the virtual gamepad with the buttons that the client last
reported, but for Back and Home (`Kept`). A turn for the rumble alone releases
them all. `buttons_kept_iff`: a run keeps the other buttons exactly if such turns
find none of them held.
-/

namespace Moonshine.Proof.Remap

open Moonshine.Framework Moonshine.Impl Moonshine.Impl.Control

/-- The buttons that the remap is not about. -/
def others (flags : UInt32) : UInt32 := flags &&& ~~~(backFlag ||| specialFlag)

@[simp] theorem others_or_back (f : UInt32) : others (f ||| backFlag) = others f :=
  or_and_not_or_left f backFlag specialFlag

@[simp] theorem others_or_special (f : UInt32) : others (f ||| specialFlag) = others f := by
  rw [others, UInt32.or_comm backFlag]
  exact or_and_not_or_left f specialFlag backFlag

@[simp] theorem others_and_not_back (f : UInt32) : others (f &&& ~~~backFlag) = others f :=
  and_not_and_not_or_left f backFlag specialFlag

@[simp] theorem others_and_not_special (f : UInt32) : others (f &&& ~~~specialFlag) = others f := by
  rw [others, UInt32.or_comm backFlag]
  exact and_not_and_not_or_left f specialFlag backFlag

@[simp] theorem others_zero : others 0 = 0 := by decide

@[simp] theorem others_passthrough (flags : UInt32) (h : HoldToHome) :
    others (h.passthrough backFlag flags) = others flags := by
  unfold HoldToHome.passthrough
  split <;> simp

section Slot

variable (now : Nat) (s : GamepadSlot)

@[simp] theorem gamepad_checkRumble : (s.checkRumble now).gamepad = s.gamepad := by
  unfold GamepadSlot.checkRumble
  split
  · split <;> rfl
  · rfl

@[simp] theorem remap_checkRumble : (s.checkRumble now).remap = s.remap := by
  unfold GamepadSlot.checkRumble
  split
  · split <;> rfl
  · rfl

theorem offAt_checkRumble (h : s.homeRumbleOffAt = none) : s.checkRumble now = s := by
  unfold GamepadSlot.checkRumble
  rw [h]

@[simp] theorem gamepad_maybeFireRumble (transition : HoldTransition) :
    (s.maybeFireRumble transition now).gamepad = s.gamepad := by
  unfold GamepadSlot.maybeFireRumble
  split <;> rfl

@[simp] theorem remap_maybeFireRumble (transition : HoldTransition) :
    (s.maybeFireRumble transition now).remap = s.remap := by
  unfold GamepadSlot.maybeFireRumble
  split <;> rfl

theorem maybeFireRumble_none : s.maybeFireRumble .none now = s := if_neg fun h => nomatch h.1

@[simp] theorem gamepad_applyButtons (flags : UInt32) :
    (s.applyButtons flags now).gamepad = ⟨(s.remap.apply flags now).1.1⟩ := by
  simp [GamepadSlot.applyButtons, GamepadSlot.setPressed]

@[simp] theorem remap_applyButtons (flags : UInt32) :
    (s.applyButtons flags now).remap = (s.remap.apply flags now).2 := by
  simp [GamepadSlot.applyButtons, GamepadSlot.setPressed]

@[simp] theorem gamepad_advance : (s.advance now).gamepad = ⟨(s.remap.advance now).1.1⟩ := by
  simp [GamepadSlot.advance, GamepadSlot.setPressed]

@[simp] theorem remap_advance : (s.advance now).remap = (s.remap.advance now).2 := by
  simp [GamepadSlot.advance, GamepadSlot.setPressed]

end Slot

/-- The machine remembers the buttons that it passes on, where it is enabled, and
waits only while Back is held. -/
structure Remembers (h : HoldToHome) (flags : UInt32) : Prop where
  mask : h.sourceMask = some backFlag
  passthrough : others h.lastPassthrough = others flags
  pending : ∀ deadline, h.state = .pending deadline → h.sourcePressed = true

/-- The remap has buttons to set at `now`: it taps, or Back has been held for long enough. -/
def Sets (now : Nat) (h : HoldToHome) : Prop :=
  (∃ releaseAt, h.state = .tapping releaseAt) ∨ ∃ deadline ≤ now, h.state = .pending deadline

section Machine

variable {h : HoldToHome} {flags last : UInt32} {now : Nat}

/-- A report passes the other buttons on. -/
theorem Remembers.apply (hr : Remembers h last) (flags : UInt32) (now : Nat) :
    others (h.apply flags now).1.1 = others flags ∧ Remembers (h.apply flags now).2 flags := by
  obtain ⟨hmask, -, -⟩ := hr
  unfold HoldToHome.apply
  rw [hmask]
  dsimp only
  split
  · next hstate =>
    refine ⟨by simp, ?_⟩
    dsimp only
    split
    · next hsource => exact ⟨rfl, by simp, fun _ _ => hsource⟩
    · exact ⟨rfl, by simp, fun _ hp => nomatch hstate.symm.trans hp⟩
  · split_ifs with hsource hdue
    · exact ⟨by simp, rfl, by simp, nofun⟩
    · exact ⟨by simp, rfl, by simp, nofun⟩
    · exact ⟨by simp, rfl, by simp, fun _ _ => by simpa using hsource⟩
  · next hstate =>
    split_ifs
    · exact ⟨by simp, rfl, by simp, fun _ hp => nomatch hstate.symm.trans hp⟩
    · exact ⟨by simp, rfl, by simp, nofun⟩
  · next hstate =>
    split_ifs
    · exact ⟨by simp, rfl, by simp, nofun⟩
    · exact ⟨by simp, rfl, by simp, fun _ hp => nomatch hstate.symm.trans hp⟩

/-- Where the timer has it set buttons, it passes on those that it remembers. -/
theorem Remembers.advance_of_sets (hr : Remembers h flags) (hsets : Sets now h) :
    others (h.advance now).1.1 = others flags := by
  obtain ⟨hmask, hpass, hpending⟩ := hr
  unfold HoldToHome.advance
  rw [hmask]
  dsimp only
  rcases hsets with ⟨releaseAt, hstate⟩ | ⟨deadline, hle, hstate⟩
  · rw [hstate]
    dsimp only
    split_ifs <;> simp [hpass]
  · rw [hstate]
    dsimp only
    rw [if_pos ⟨hle, hpending deadline hstate⟩]
    simp [hpass]

/-- Where it has none to set, the turn releases them all. -/
theorem advance_of_not_sets (hmask : h.sourceMask = some backFlag) (hsets : ¬Sets now h) :
    (h.advance now).1.1 = 0 := by
  unfold HoldToHome.advance
  rw [hmask]
  dsimp only
  split
  · next deadline hstate =>
    rw [if_neg fun hd => hsets (.inr ⟨deadline, hd.1, hstate⟩)]
  · next releaseAt hstate => exact absurd (.inl ⟨releaseAt, hstate⟩) hsets
  · rfl
  · rfl

theorem Remembers.advance (hr : Remembers h flags) (now : Nat) : Remembers (h.advance now).2 flags := by
  obtain ⟨hmask, hpass, hpending⟩ := hr
  unfold HoldToHome.advance
  rw [hmask]
  dsimp only
  split
  · split_ifs
    · exact ⟨rfl, hpass, nofun⟩
    · exact ⟨hmask, hpass, hpending⟩
  · split_ifs
    · exact ⟨rfl, hpass, nofun⟩
    · exact ⟨hmask, hpass, hpending⟩
  · exact ⟨hmask, hpass, hpending⟩
  · exact ⟨hmask, hpass, hpending⟩

end Machine

/-- No remap, and nothing for the timer to do. -/
structure Disabled (slot : GamepadSlot) : Prop where
  mask : slot.remap.sourceMask = none
  state : slot.remap.state = .inactive
  rumble : slot.homeRumbleOffAt = none

/-- The slot has the other buttons as they were last reported, and remembers them. -/
structure Kept (flags : UInt32) (slot : GamepadSlot) : Prop where
  pressed : others slot.gamepad.pressed = others flags
  remap : Remembers slot.remap flags ∨ Disabled slot

section Kept

variable {slot : GamepadSlot} {flags last : UInt32} {now : Nat}

theorem kept_new (index : Byte) (config : GamepadConfig) : Kept 0 (.new index config) where
  pressed := rfl
  remap := by
    by_cases hhold : config.homeButton.holdMs ≠ 0
    · exact .inl ⟨if_pos hhold, rfl, nofun⟩
    · exact .inr ⟨if_neg hhold, rfl, rfl⟩

theorem apply_of_disabled {h : HoldToHome} (hmask : h.sourceMask = none) :
    h.apply flags now = ((flags, .none), h) := by
  unfold HoldToHome.apply
  rw [hmask]

theorem Disabled.applyButtons (hd : Disabled slot) :
    slot.applyButtons flags now = slot.setPressed flags := by
  unfold GamepadSlot.applyButtons
  rw [apply_of_disabled hd.mask]
  dsimp only
  rw [maybeFireRumble_none]
  exact offAt_checkRumble now _ hd.rumble

theorem Kept.applyButtons (hk : Kept last slot) : Kept flags (slot.applyButtons flags now) := by
  rcases hk.remap with hr | hd
  · obtain ⟨hpass, hr⟩ := hr.apply flags now
    exact ⟨by simpa using hpass, .inl (by simpa using hr)⟩
  · rw [hd.applyButtons]
    exact ⟨rfl, .inr ⟨hd.mask, hd.state, hd.rumble⟩⟩

theorem Disabled.not_due (hd : Disabled slot) : slot.isDue now = false := by
  unfold GamepadSlot.isDue GamepadSlot.nextDeadline HoldToHome.nextDeadline
  rw [hd.state, hd.rumble]
  rfl

/-- The turn of the timer for a slot that is due. -/
theorem Kept.advance_iff (hk : Kept flags slot) (hdue : slot.isDue now = true) :
    others (slot.advance now).gamepad.pressed = others flags ↔
      Sets now slot.remap ∨ others flags = 0 := by
  rcases hk.remap with hr | hd
  · rw [gamepad_advance]
    by_cases hsets : Sets now slot.remap
    · exact iff_of_true (hr.advance_of_sets hsets) (.inl hsets)
    · rw [advance_of_not_sets hr.mask hsets, others_zero, or_iff_right hsets]
      exact eq_comm
  · exact absurd hdue (by simp [hd.not_due])

theorem Kept.advance (hk : Kept flags slot) (hdue : slot.isDue now = true)
    (hsets : Sets now slot.remap ∨ others flags = 0) : Kept flags (slot.advance now) := by
  refine ⟨(hk.advance_iff hdue).mpr hsets, ?_⟩
  rcases hk.remap with hr | hd
  · exact .inl (by simpa using hr.advance now)
  · exact absurd hdue (by simp [hd.not_due])

end Kept

section Handlers

variable {config : GamepadConfig} {g : Gamepads} {i : Fin 16} {slot : GamepadSlot} {created : Bool} {now : Nat}

theorem mem_create {idx : Fin 16} (h : slot ∈ create config idx g i) :
    i = idx ∧ (∃ index, slot = .new index config) ∨ slot ∈ g i := by
  unfold create at h
  by_cases hi : i = idx
  · subst hi
    rw [Function.update_self] at h
    exact .inl ⟨rfl, _, (Option.some.inj h).symm⟩
  · rw [Function.update_of_ne hi] at h
    exact .inr h

theorem mem_handleInfo {index : Byte} (h : slot ∈ handleInfo config index created g i) :
    slot ∈ g i ∨ (g i).isNone = true ∧ ∃ index, slot = .new index config := by
  unfold handleInfo at h
  split at h
  · split at h
    · next hcreate =>
      rcases mem_create h with ⟨rfl, hnew⟩ | hold
      · exact .inr ⟨hcreate.1, hnew⟩
      · exact .inl hold
    · exact .inl h
  · exact .inl h

/-- An update leaves what it does not drop: the gamepad it is about with the buttons
applied, the others as they were. -/
theorem mem_handleUpdate {update : GamepadUpdate} (h : slot ∈ handleUpdate config update created now g i) :
    update.index.toNat = i ∧ (∃ old, (old ∈ g i ∨ ∃ index, old = .new index config) ∧
      slot = old.applyButtons update.buttonFlags now) ∨
    update.index.toNat ≠ i ∧ slot ∈ g i := by
  unfold handleUpdate at h
  split at h
  · next hidx =>
    dsimp only at h
    split at h
    · by_cases hi : i = ⟨update.index.toNat, hidx⟩
      · subst hi
        rw [Function.update_self] at h
        obtain ⟨old, hold, rfl⟩ := Option.mem_map.mp h
        refine .inl ⟨rfl, old, ?_, rfl⟩
        split at hold
        · rcases mem_create hold with ⟨-, hnew⟩ | hold
          · exact .inr hnew
          · exact .inl hold
        · exact .inl hold
      · rw [Function.update_of_ne hi] at h
        refine .inr ⟨fun he => hi (Fin.ext he.symm), ?_⟩
        split at h
        · rcases mem_create h with ⟨he, -⟩ | hold
          · exact absurd he hi
          · exact hold
        · exact h
    · exact absurd h (by simp)
  · next hidx => exact .inr ⟨fun he => hidx (he ▸ i.isLt), h⟩

theorem mem_handleTimer (h : slot ∈ handleTimer now g i) :
    ∃ old ∈ g i, slot = if old.isDue now then old.advance now else old := by
  obtain ⟨old, hold, rfl⟩ := Option.mem_map.mp h
  exact ⟨old, hold, rfl⟩

end Handlers

/-- The gamepads, and what the client last reported of each. -/
structure Tracked where
  gamepads : Gamepads
  reported : Fin 16 → UInt32

namespace Tracked

/-- No gamepad is connected. -/
def start : Tracked := ⟨fun _ => none, fun _ => 0⟩

/-- The reports after an event: of a gamepad that has yet to be connected there is none. -/
def report (t : Tracked) : GamepadAction → Fin 16 → UInt32
  | .info _ _ => fun i => if (t.gamepads i).isNone then 0 else t.reported i
  | .update update _ _ => fun i => if update.index.toNat = i then update.buttonFlags else t.reported i
  | .timer _ => t.reported

def step (config : GamepadConfig) (t : Tracked) (a : GamepadAction) : Option Tracked :=
  some ⟨handleGamepad config t.gamepads a, t.report a⟩

/-- Every connected gamepad has the other buttons as the client last reported them. -/
def Agrees (t : Tracked) : Prop :=
  ∀ i, ∀ slot ∈ t.gamepads i, others slot.gamepad.pressed = others (t.reported i)

/-- Where the timer turns to a gamepad, its remap has buttons to set or the client
holds none of the others. -/
def Harmless (t : Tracked) : GamepadAction → Prop
  | .timer now => ∀ i, ∀ slot ∈ t.gamepads i, slot.isDue now = true →
      Sets now slot.remap ∨ others (t.reported i) = 0
  | _ => True

/-- The invariant. -/
def AllKept (t : Tracked) : Prop := ∀ i, ∀ slot ∈ t.gamepads i, Kept (t.reported i) slot

instance (t : Tracked) : Decidable (Agrees t) :=
  inferInstanceAs (Decidable (∀ i, ∀ slot ∈ t.gamepads i, _))

theorem AllKept.agrees {t : Tracked} (h : AllKept t) : Agrees t := fun i slot hs => (h i slot hs).pressed

variable {config : GamepadConfig} {t t' : Tracked} {a : GamepadAction}

theorem allKept_start : AllKept start := fun _ _ hs => nomatch hs

/-- A report of the client keeps the invariant; the timer does so where it is harmless. -/
theorem AllKept.keeps (ht : AllKept t) (hs : step config t a = some t') (hc : Harmless t a) : AllKept t' := by
  obtain rfl := Option.some.inj hs
  intro i slot hslot
  cases a with
  | info index created =>
    dsimp only [report]
    rcases mem_handleInfo hslot with hold | ⟨hnone, index, rfl⟩
    · have hsome : (t.gamepads i).isNone = false := by simp [Option.mem_def.mp hold]
      rw [hsome]
      exact ht i slot hold
    · rw [if_pos hnone]
      exact kept_new index config
  | update update created now =>
    dsimp only [report]
    rcases mem_handleUpdate hslot with ⟨hi, old, hold, rfl⟩ | ⟨hi, hold⟩
    · rw [if_pos hi]
      rcases hold with hold | ⟨index, rfl⟩
      · exact (ht i old hold).applyButtons
      · exact (kept_new index config).applyButtons
    · rw [if_neg hi]
      exact ht i slot hold
  | timer now =>
    obtain ⟨old, hold, rfl⟩ := mem_handleTimer hslot
    split
    · next hdue => exact (ht i old hold).advance hdue (hc i old hold hdue)
    · exact ht i old hold

/-- A step leaves the other buttons as the client last reported them exactly if it is
not a turn of the timer that finds some held and has no buttons to set. -/
theorem AllKept.agrees_iff (ht : AllKept t) (hs : step config t a = some t') :
    Agrees t' ↔ Harmless t a := by
  refine ⟨fun hagrees => ?_, fun hc => (ht.keeps hs hc).agrees⟩
  obtain rfl := Option.some.inj hs
  cases a with
  | info => trivial
  | update => trivial
  | timer now =>
    intro i slot hslot hdue
    have hadvanced : slot.advance now ∈ handleTimer now t.gamepads i :=
      Option.mem_map.mpr ⟨slot, hslot, if_pos hdue⟩
    exact ((ht i slot hslot).advance_iff hdue).mp (hagrees i _ hadvanced)

/-- Whatever the client sends and whenever the timer turns, from when no gamepad is
connected: the other buttons are as the client last reported them after each step,
exactly if no turn of the timer for the rumble alone finds one held. -/
theorem buttons_kept_iff (config : GamepadConfig) (acts : List GamepadAction) :
    EveryStep (step config) (fun _ _ t => Agrees t) start acts ↔
      EveryStep (step config) (fun t a _ => Harmless t a) start acts :=
  EveryStep.iff_of_inv (fun _ _ _ ht hs => ht.agrees_iff hs) (fun _ _ _ ht hs hc => ht.keeps hs hc)
    allKept_start acts

/-- Back held for half a second is Home, with a rumble of a fifth of a second. -/
def holdConfig : GamepadConfig := ⟨500, 200, 0.5, false⟩

/-- Back and A are held for 700 milliseconds. -/
def holdWithA : List GamepadAction :=
  [.update ⟨0, 1, 0x1020, 0, 0, (0, 0), (0, 0)⟩ true 0, .timer (fromMillis 500), .timer (fromMillis 700)]

/-- The timer turns the rumble off, and releases A. -/
theorem rumble_releases_a :
    ¬EveryStep (step holdConfig) (fun _ _ t => Agrees t) start holdWithA ∧
      ∃ t, exec (step holdConfig) start holdWithA = some t ∧ t.reported 0 = 0x1020 ∧
        (t.gamepads 0).map (·.gamepad.pressed) = some 0 :=
  ⟨by decide +kernel, _, rfl, rfl, by decide +kernel⟩

end Tracked

end Moonshine.Proof.Remap
