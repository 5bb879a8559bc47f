import Moonshine.Framework.Run
import Moonshine.Impl.Control.GamepadTimer
import Moonshine.Proof.Control.Remap

/-!
# No deadline is missed

The timer task sleeps no longer than the soonest deadline of the gamepads, unless it is about
to be woken (`Watched`): an update that sets a deadline leaves a wake-up, and the permit holds
it if the task is not there. So if a gamepad is due, the task has a step to take, and when it
has advanced the gamepads none of them is due (`due_attended`). The remap is then advanced at
each of its deadlines.
-/

namespace Moonshine.Proof.GamepadTimer

open Moonshine.Framework Moonshine.Impl Moonshine.Impl.Control Moonshine.Impl.GamepadTimer Moonshine.Proof.Remap

/-- A deadline for Home is set while the button is held, and with the remap only. -/
structure Coherent (h : HoldToHome) : Prop where
  pressed : ∀ d, h.state = .pending d → h.sourcePressed = true
  enabled : h.sourceMask = none → h.state = .inactive

theorem coherent_new (config : GamepadConfig) : Coherent (.new config) := ⟨nofun, fun _ => rfl⟩

theorem sourceMask_apply (h : HoldToHome) (flags : UInt32) (now : Nat) :
    (h.apply flags now).2.sourceMask = h.sourceMask := by
  unfold HoldToHome.apply
  split
  · rfl
  · dsimp only
    split <;> split_ifs <;> rfl

theorem sourceMask_advance (h : HoldToHome) (now : Nat) : (h.advance now).2.sourceMask = h.sourceMask := by
  unfold HoldToHome.advance
  split
  · rfl
  · split
    · split_ifs <;> rfl
    · split_ifs <;> rfl
    · rfl
    · rfl

theorem pressed_of_apply {h : HoldToHome} {mask flags : UInt32} {now d : Nat} (hmask : h.sourceMask = some mask)
    (hd : (h.apply flags now).2.state = .pending d) : (h.apply flags now).2.sourcePressed = true := by
  unfold HoldToHome.apply at hd ⊢
  simp only [hmask] at hd ⊢
  cases hstate : h.state with
  | inactive =>
    simp only [hstate] at hd ⊢
    split at hd
    next hpressed => rw [if_pos hpressed]; exact hpressed
    next => cases hd
  | pending deadline =>
    simp only [hstate] at hd ⊢
    split at hd
    next => cases hd
    next hpressed =>
      split at hd
      next => cases hd
      next hearly =>
        rw [if_neg hpressed, if_neg hearly]
        simpa using hpressed
  | homeHeld =>
    simp only [hstate] at hd
    split at hd
    next => cases hd
    next => cases hd
  | tapping releaseAt =>
    simp only [hstate] at hd
    split at hd
    next => cases hd
    next => cases hd

theorem Coherent.apply {h : HoldToHome} (hc : Coherent h) (flags : UInt32) (now : Nat) :
    Coherent (h.apply flags now).2 := by
  cases hmask : h.sourceMask with
  | none =>
    have happly : (h.apply flags now).2 = h := by
      unfold HoldToHome.apply
      rw [hmask]
    rwa [happly]
  | some mask =>
    refine ⟨fun d hd => pressed_of_apply hmask hd, fun hnone => ?_⟩
    rw [sourceMask_apply, hmask] at hnone
    cases hnone

/-- What `advance` does not end is as it was. -/
theorem advance_eq (h : HoldToHome) (now : Nat) :
    (h.advance now).2 = h ∨ (h.advance now).2.state = .homeHeld ∨ (h.advance now).2.state = .inactive := by
  unfold HoldToHome.advance
  split
  · exact .inl rfl
  · split
    · split_ifs
      · exact .inr (.inl rfl)
      · exact .inl rfl
    · split_ifs
      · exact .inr (.inr rfl)
      · exact .inl rfl
    · exact .inl rfl
    · exact .inl rfl

theorem Coherent.advance {h : HoldToHome} (hc : Coherent h) (now : Nat) : Coherent (h.advance now).2 := by
  rcases advance_eq h now with heq | hheld | hinactive
  · rwa [heq]
  · refine ⟨fun d hd => absurd (hheld.symm.trans hd) nofun, fun hnone => ?_⟩
    rw [sourceMask_advance] at hnone
    have hsame : (h.advance now).2 = h := by
      unfold HoldToHome.advance
      rw [hnone]
    rw [hsame]
    exact hc.enabled hnone
  · exact ⟨fun d hd => absurd (hinactive.symm.trans hd) nofun, fun _ => hinactive⟩

/-- The machine has nothing left that it has to do by now. -/
theorem Coherent.lt_deadline {h : HoldToHome} (hc : Coherent h) {now d : Nat}
    (hd : (h.advance now).2.nextDeadline = some d) : now < d := by
  unfold HoldToHome.advance at hd
  cases hmask : h.sourceMask with
  | none =>
    simp [hmask, HoldToHome.nextDeadline, hc.enabled hmask] at hd
  | some mask =>
    cases hstate : h.state with
    | inactive => simp [hmask, hstate, HoldToHome.nextDeadline] at hd
    | homeHeld => simp [hmask, hstate, HoldToHome.nextDeadline] at hd
    | pending deadline =>
      simp only [hmask, hstate] at hd
      split at hd
      next => cases hd
      next hnot =>
        simp only [HoldToHome.nextDeadline, hstate, Option.some.injEq] at hd
        have hpressed := hc.pressed deadline hstate
        rw [← hd]
        exact Nat.lt_of_not_le fun hle => hnot ⟨hle, hpressed⟩
    | tapping releaseAt =>
      simp only [hmask, hstate] at hd
      split at hd
      next => cases hd
      next hnot =>
        simp only [HoldToHome.nextDeadline, hstate, Option.some.injEq] at hd
        exact hd ▸ Nat.lt_of_not_le hnot

@[simp] theorem remap_maybeFireRumble (transition : HoldTransition) (now : Nat) (s : GamepadSlot) :
    (s.maybeFireRumble transition now).remap = s.remap := by
  unfold GamepadSlot.maybeFireRumble
  split <;> rfl

theorem remap_applyButtons (flags : UInt32) (now : Nat) (s : GamepadSlot) :
    (s.applyButtons flags now).remap = (s.remap.apply flags now).2 := by
  simp [GamepadSlot.applyButtons, GamepadSlot.setPressed]

theorem remap_advance (now : Nat) (s : GamepadSlot) : (s.advance now).remap = (s.remap.advance now).2 := by
  simp [GamepadSlot.advance, GamepadSlot.setPressed]

theorem offAt_checkRumble {now d : Nat} {s : GamepadSlot} (h : (s.checkRumble now).homeRumbleOffAt = some d) :
    now < d := by
  unfold GamepadSlot.checkRumble at h
  split at h
  next offAt hoff =>
    split at h
    next => cases h
    next hlt =>
      cases hoff.symm.trans h
      exact Nat.lt_of_not_le hlt
  next hoff => cases hoff.symm.trans h

theorem offAt_maybeFireRumble {transition : HoldTransition} {now d : Nat} {s : GamepadSlot}
    (h : (s.maybeFireRumble transition now).homeRumbleOffAt = some d) : s.homeRumbleOffAt = some d ∨ now < d := by
  unfold GamepadSlot.maybeFireRumble at h
  split at h
  next hfire =>
    have hduration := hfire.2.2.2
    simp only [Option.some.injEq] at h
    exact .inr (by omega)
  next => exact .inl h

/-- The rumble of a slot that has been looked after ends later. -/
theorem offAt_advance {now d : Nat} {s : GamepadSlot} (h : (s.advance now).homeRumbleOffAt = some d) : now < d :=
  (offAt_maybeFireRumble h).elim offAt_checkRumble id

theorem nextDeadline_eq {s : GamepadSlot} {d : Nat} (h : s.nextDeadline = some d) :
    s.remap.nextDeadline = some d ∨ s.homeRumbleOffAt = some d := by
  unfold GamepadSlot.nextDeadline at h
  split at h
  next a b ha hb =>
    rw [ha, hb, ← Option.some.inj h]
    rcases Nat.le_total a b with hle | hle
    · exact .inl (by rw [Nat.min_eq_left hle])
    · exact .inr (by rw [Nat.min_eq_right hle])
  next ha hb => exact .inl (ha ▸ h)
  next ha hb => exact .inr (hb ▸ h)
  next => cases h

theorem not_due_advance {now : Nat} {s : GamepadSlot} (h : Coherent s.remap) :
    (s.advance now).isDue now = false := by
  unfold GamepadSlot.isDue
  cases hd : (s.advance now).nextDeadline with
  | none => rfl
  | some d =>
    have hlt : now < d := by
      rcases nextDeadline_eq hd with hremap | hrumble
      · rw [remap_advance] at hremap
        exact h.lt_deadline hremap
      · exact offAt_advance hrumble
    simpa using hlt

def AllCoherent (g : Gamepads) : Prop := ∀ i, ∀ slot ∈ g i, Coherent slot.remap

variable {config : GamepadConfig} {g : Gamepads}

theorem AllCoherent.handleInfo (h : AllCoherent g) (index : Byte) (created : Bool) :
    AllCoherent (handleInfo config index created g) := by
  intro i slot hslot
  rcases mem_handleInfo hslot with hold | ⟨-, _, rfl⟩
  · exact h i slot hold
  · exact coherent_new config

theorem AllCoherent.handleUpdate (h : AllCoherent g) (update : GamepadUpdate) (created : Bool) (now : Nat) :
    AllCoherent (handleUpdate config update created now g) := by
  intro i slot hslot
  rcases mem_handleUpdate hslot with ⟨-, old, hold, rfl⟩ | ⟨-, hold⟩
  · rw [remap_applyButtons]
    rcases hold with hold | ⟨_, rfl⟩
    · exact (h i old hold).apply _ _
    · exact (coherent_new config).apply _ _
  · exact h i slot hold

theorem AllCoherent.handleTimer (h : AllCoherent g) (now : Nat) : AllCoherent (handleTimer now g) := by
  intro i slot hslot
  obtain ⟨old, hold, rfl⟩ := mem_handleTimer hslot
  split
  · rw [remap_advance]
    exact (h i old hold).advance now
  · exact h i old hold

/-- Nobody is due behind a turn of the timer. -/
theorem not_due_handleTimer (h : AllCoherent g) {now : Nat} {i : Fin 16} {slot : GamepadSlot}
    (hslot : slot ∈ handleTimer now g i) : slot.isDue now = false := by
  obtain ⟨old, hold, rfl⟩ := mem_handleTimer hslot
  split
  next => exact not_due_advance (h i old hold)
  next hdue => exact Bool.eq_false_iff.mpr hdue

/-- The deadlines of the gamepads are no sooner than `deadline`. -/
def Covers (deadline : Option Nat) (g : Gamepads) : Prop :=
  ∀ i, ∀ slot ∈ g i, ∀ d ∈ slot.nextDeadline, ∃ e ∈ deadline, e ≤ d

theorem covers_soonest (g : Gamepads) : Covers (soonest g) g := by
  intro i slot hslot d hd
  have hmem : d ∈ (List.finRange 16).filterMap fun i => (g i).bind GamepadSlot.nextDeadline :=
    List.mem_filterMap.mpr ⟨i, List.mem_finRange i, Option.bind_eq_some_iff.mpr ⟨slot, hslot, hd⟩⟩
  obtain ⟨e, he⟩ := Option.isSome_iff_exists.mp (List.isSome_min?_of_mem hmem)
  exact ⟨e, he, (List.min?_eq_some_iff.mp he).2 d hmem⟩

theorem Covers.handleInfo {deadline : Option Nat} (h : Covers deadline g) (index : Byte) (created : Bool) :
    Covers deadline (handleInfo config index created g) := by
  intro i slot hslot d hd
  rcases mem_handleInfo hslot with hold | ⟨-, _, rfl⟩
  · exact h i slot hold d hd
  · cases hd

/-- An update that sets a deadline has a gamepad to set it for. -/
theorem hasSlot_of_mem {update : GamepadUpdate} {created : Bool} {now : Nat} {i : Fin 16} {slot : GamepadSlot}
    (hslot : slot ∈ handleUpdate config update created now g i) (hi : update.index.toNat = i) :
    hasSlot g update created = true := by
  unfold handleUpdate at hslot
  unfold hasSlot
  split at hslot
  next hidx =>
    rw [dif_pos hidx]
    obtain rfl : i = ⟨update.index.toNat, hidx⟩ := Fin.ext hi.symm
    simp only at hslot
    split at hslot
    next =>
      rw [Function.update_self] at hslot
      obtain ⟨old, hold, -⟩ := Option.mem_map.mp hslot
      split at hold
      next hcreate =>
        rw [Bool.or_eq_true, Bool.and_eq_true]
        exact .inr ⟨hcreate.2.1, hcreate.2.2⟩
      next =>
        rw [Option.mem_def.mp hold]
        rfl
    next => cases hslot
  next hidx => exact absurd (hi ▸ i.isLt) hidx

theorem Covers.handleUpdate {deadline : Option Nat} (h : Covers deadline g) {update : GamepadUpdate} {created : Bool}
    (hno : hasSlot g update created = false) (now : Nat) :
    Covers deadline (handleUpdate config update created now g) := by
  intro i slot hslot d hd
  rcases mem_handleUpdate hslot with ⟨hi, -⟩ | ⟨-, hold⟩
  · have hhas := hasSlot_of_mem hslot hi
    rw [hno] at hhas
    cases hhas
  · exact h i slot hold d hd

/-- The sleeping task is about to be woken. -/
def Roused (n : Waiters Unit) : Prop := n.permit = true ∨ () ∈ n.woken

variable {M : NotifyModel Unit}

/-- The task sleeps no longer than every deadline, unless it is about to be woken. -/
structure Watched (w : World M) : Prop where
  coherent : AllCoherent w.gamepads
  sound : w.timerWake.waiters.Sound
  covers : ∀ deadline, w.timer = .asleep deadline → Roused w.timerWake.waiters ∨ Covers deadline w.gamepads

theorem roused_notifyOne (n : Waiters Unit) : Roused n.notifyOne := by
  cases hw : n.waiting with
  | nil =>
    rw [Waiters.notifyOne_of_nil hw]
    exact .inl rfl
  | cons t waiting =>
    rw [Waiters.notifyOne_of_cons hw]
    exact .inr (List.mem_append_right _ List.mem_cons_self)

theorem poll_of_roused {n : Waiters Unit} (hsound : n.Sound) (h : Roused n) : (n.poll ()).1 = true := by
  unfold Waiters.poll
  split
  next => rfl
  next hwoken =>
    have hpermit := h.resolve_right hwoken
    rw [if_neg (by simp [hsound.permit hpermit]), if_pos hpermit]

theorem Watched.new (now : Nat) : Watched (.new now : World M) where
  coherent := fun _ _ => nofun
  sound := by
    rw [World.new, Notify.waiters_new]
    exact Waiters.sound_new
  covers := nofun

variable {w w' : World M} {a : Action}

theorem Watched.step (h : Watched w) (hs : step config w a = some w') : Watched w' := by
  cases a with
  | info index created =>
    cases hs
    exact ⟨h.coherent.handleInfo _ _, h.sound, fun deadline ht =>
      (h.covers deadline ht).imp_right fun hc => hc.handleInfo _ _⟩
  | update update created =>
    cases hs
    refine ⟨h.coherent.handleUpdate _ _ _, ?_, fun deadline ht => ?_⟩
    · split
      · exact Notify.waiters_notifyOne w.timerWake ▸ h.sound.notifyOne
      · exact h.sound
    · cases hhas : hasSlot w.gamepads update created with
      | true => exact .inl (Notify.waiters_notifyOne w.timerWake ▸ roused_notifyOne _)
      | false => exact (h.covers deadline ht).imp_right fun hc => hc.handleUpdate hhas w.now
  | tick duration =>
    cases hs
    exact ⟨h.coherent, h.sound, h.covers⟩
  | findDeadline =>
    rw [GamepadTimer.step] at hs
    split at hs
    next =>
      cases hs
      exact ⟨h.coherent, h.sound, fun deadline ht => .inr (Timer.asleep.inj ht ▸ covers_soonest w.gamepads)⟩
    next => cases hs
  | poll =>
    rw [GamepadTimer.step] at hs
    split at hs
    next deadline htimer =>
      cases hs
      refine ⟨h.coherent, Notify.waiters_poll w.timerWake () ▸ h.sound.poll (), fun deadline' ht => ?_⟩
      cases hready : (w.timerWake.poll ()).1 with
      | true => simp only [hready, ↓reduceIte, reduceCtorEq] at ht
      | false =>
        have hnot : ¬ Roused w.timerWake.waiters := fun hroused => by
          rw [Notify.ready_poll, poll_of_roused h.sound hroused] at hready
          cases hready
        simp only [hready, Bool.false_eq_true, ↓reduceIte, Timer.asleep.injEq] at ht
        exact .inr (ht ▸ (h.covers deadline htimer).resolve_left hnot)
    next => cases hs
    next => cases hs
  | timeout =>
    rw [GamepadTimer.step] at hs
    split at hs
    next =>
      split at hs
      next =>
        cases hs
        exact ⟨h.coherent, Notify.waiters_drop w.timerWake () ▸ h.sound.drop (), nofun⟩
      next => cases hs
    next => cases hs
    next => cases hs
  | advance =>
    rw [GamepadTimer.step] at hs
    split at hs
    next =>
      cases hs
      exact ⟨h.coherent.handleTimer w.now, h.sound, nofun⟩
    next => cases hs

/-- The task has something to do: it is not asleep, it is woken, or its sleep is over. -/
def CanGoOn (w : World M) : Prop :=
  ∀ deadline, w.timer = .asleep deadline → (w.timerWake.poll ()).1 = true ∨ ∃ d ∈ deadline, d ≤ w.now

theorem Watched.attended (h : Watched w) {i : Fin 16} {slot : GamepadSlot} (hslot : slot ∈ w.gamepads i)
    (hdue : slot.isDue w.now = true) : CanGoOn w := by
  intro deadline htimer
  rcases h.covers deadline htimer with hroused | hcovers
  · exact .inl ((Notify.ready_poll ..).trans (poll_of_roused h.sound hroused))
  · unfold GamepadSlot.isDue at hdue
    cases hd : slot.nextDeadline with
    | none => simp [hd] at hdue
    | some d =>
      obtain ⟨e, he, hle⟩ := hcovers i slot hslot d hd
      have hnow : d ≤ w.now := by simpa [hd] using hdue
      exact .inr ⟨e, he, hle.trans hnow⟩

/-- In every run, the timer task can go on whenever a gamepad is due, and no gamepad is due
when the task has advanced them. -/
theorem due_attended (config : GamepadConfig) {now : Nat} {as : List Action}
    (h : exec (step config) (.new now) as = some w) :
    (∀ i, ∀ slot ∈ w.gamepads i, slot.isDue w.now = true → CanGoOn w) ∧
      ∀ w', step config w .advance = some w' → ∀ i, ∀ slot ∈ w'.gamepads i, slot.isDue w'.now = false := by
  have hwatched : Watched w := exec_inv (fun _ _ _ hw hs => hw.step hs) (.new now) h
  refine ⟨fun i slot hslot hdue => hwatched.attended hslot hdue, fun w' hs i slot hslot => ?_⟩
  rw [step] at hs
  split at hs
  next =>
    cases hs
    exact not_due_handleTimer hwatched.coherent hslot
  next => cases hs

/-- Back is pressed while the task looks for the soonest deadline, and it sleeps for as long as
Back has to be held. -/
def holdBack : List Action :=
  [.info 0 true, .findDeadline, .update ⟨0, 1, backFlag, 0, 0, (0, 0), (0, 0)⟩ true, .tick (fromMillis 500)]

theorem holdBack_attended : ∃ w : World (queued Unit),
    exec (step ⟨500, 200, 0.5, false⟩) (.new 0) holdBack = some w ∧ CanGoOn w := by
  obtain ⟨w, hw, slot, hslot, hdue⟩ : ∃ w : World (queued Unit),
      exec (step ⟨500, 200, 0.5, false⟩) (.new 0) holdBack = some w ∧
        ∃ slot, w.gamepads 0 = some slot ∧ slot.isDue w.now = true := ⟨_, rfl, _, rfl, rfl⟩
  exact ⟨w, hw, (due_attended ⟨500, 200, 0.5, false⟩ hw).1 0 slot hslot hdue⟩

end Moonshine.Proof.GamepadTimer
