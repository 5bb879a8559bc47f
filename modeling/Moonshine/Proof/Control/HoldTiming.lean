import Mathlib.Data.List.Chain
import Moonshine.Framework.Integers
import Moonshine.Framework.Timeline
import Moonshine.Impl.Control.Remap

/-!
# Hold to Home in time

The machine alone, given the reports of the client and turned at each of its own
deadlines (`drive`), where a deadline and a report come together the deadline
first. The client presses and releases Back (`Press`). From when nothing is pending
a press that is held for long enough is Home once, until its release; one that is
not is Back, from its release on, for the time of a tap. A press that begins while
a tap is still emitted is lost: `handled_iff_spaced`.
-/

namespace Moonshine.Proof.HoldTiming

open Moonshine.Framework Moonshine.Impl Moonshine.Impl.Control

/-! ## The machine in time -/

/-- What is applied to the gamepad, and when. -/
abbrev Trace := List (Nat × UInt32 × HoldTransition)

structure Report where
  time : Nat
  flags : UInt32

/-- The client reports Back. -/
def Report.pressed (r : Report) : Bool := r.flags &&& backFlag != 0

/-- The turn at the deadline, where there is one no later than `now`. -/
def expire (now : Nat) (h : HoldToHome) : Trace × HoldToHome :=
  match h.nextDeadline with
  | some deadline =>
    if deadline ≤ now then
      let (applied, h) := h.advance deadline
      ([(deadline, applied)], h)
    else ([], h)
  | none => ([], h)

/-- The machine through the reports, and to its last deadline. -/
def drive (h : HoldToHome) : List Report → Trace
  | [] => (h.nextDeadline.map fun deadline => (deadline, (h.advance deadline).1)).toList
  | r :: rs =>
    let (expired, h) := expire r.time h
    let (applied, h) := h.apply r.flags r.time
    expired ++ (r.time, applied) :: drive h rs

/-! ## Presses -/

/-- A press of Back: when it begins and ends, and the flags reported then, in which
the other buttons are as they may be. -/
structure Press where
  pressAt : Nat
  releaseAt : Nat
  lt : pressAt < releaseAt
  pressFlags : UInt32
  releaseFlags : UInt32

def Press.press (p : Press) : Report := ⟨p.pressAt, p.pressFlags ||| backFlag⟩

def Press.release (p : Press) : Report := ⟨p.releaseAt, p.releaseFlags &&& ~~~backFlag⟩

def Press.reports (p : Press) : List Report := [p.press, p.release]

def reports (ps : List Press) : List Report := ps.flatMap Press.reports

/-- One after the other. -/
def Ordered (ps : List Press) : Prop := ps.Pairwise fun p q => p.releaseAt ≤ q.pressAt

/-- A button of the mask is on. -/
def shows (mask : UInt32) (t : Nat) (trace : Trace) : Bool := (valueAt t trace).any fun v => v.1 &&& mask != 0

/-- When Home is activated during the press. -/
def activations (trace : Trace) (p : Press) : List Nat :=
  (trace.filter fun x => x.2.2 = .homeActivated ∧ p.pressAt < x.1 ∧ x.1 ≤ p.releaseAt).map (·.1)

/-- Home is activated once, and kept until the release. -/
structure IsHome (hold : Nat) (trace : Trace) (p : Press) : Prop where
  once : activations trace p = [p.pressAt + hold]
  kept : ∀ t, p.pressAt + hold ≤ t → t < p.releaseAt → shows specialFlag t trace = true

/-- Back is on from the release for the time of a tap at least, and then off. -/
def IsTap (trace : Trace) (p : Press) : Prop :=
  ∃ e, p.releaseAt + tapDuration ≤ e ∧ (∀ t, p.releaseAt ≤ t → t < e → shows backFlag t trace = true) ∧
    shows backFlag e trace = false

/-- The press is held for at least the time of a hold. -/
def Press.isHold (hold : Nat) (p : Press) : Prop := p.pressAt + hold ≤ p.releaseAt

def Handled (hold : Nat) (trace : Trace) (p : Press) : Prop :=
  (p.isHold hold → IsHome hold trace p) ∧ (¬p.isHold hold → IsTap trace p)

/-- No press begins while the tap of the one before is emitted. -/
def Spaced (hold : Nat) (ps : List Press) : Prop :=
  ps.IsChain fun p q => p.isHold hold ∨ p.releaseAt + tapDuration ≤ q.pressAt

/-! ## Flags -/

theorem pressed_press (p : Press) : p.press.pressed = true := by
  simp only [Report.pressed, Press.press, or_and_self]
  decide

theorem pressed_release (p : Press) : p.release.pressed = false := by
  simp [Report.pressed, Press.release, and_not_and_self]

/-- The flags that are passed on do not have Back. -/
theorem passthrough_and_back (flags : UInt32) (h : HoldToHome) :
    h.passthrough backFlag flags &&& backFlag = 0 := by
  unfold HoldToHome.passthrough
  split
  · rw [UInt32.and_assoc, UInt32.and_comm (~~~specialFlag), ← UInt32.and_assoc, and_not_and_self,
      UInt32.zero_and]
  · exact and_not_and_self flags backFlag

/-! ## The machine in each of its states -/

/-- The machine is enabled and in the state, and remembers no Back. -/
structure At (hold : Nat) (state : HoldState) (h : HoldToHome) : Prop where
  mask : h.sourceMask = some backFlag
  hold_eq : h.hold = hold
  state_eq : h.state = state
  held : ∀ deadline, state = .pending deadline → h.sourcePressed = true
  last : h.lastPassthrough &&& backFlag = 0

section At

variable {hold deadline releaseAt now : Nat} {h : HoldToHome} {r : Report} {rs : List Report}

theorem at_new (config : GamepadConfig) (hhold : config.homeButton.holdMs ≠ 0) :
    At (fromMillis config.homeButton.holdMs.toNat) .inactive (.new config) where
  mask := if_pos hhold
  hold_eq := rfl
  state_eq := rfl
  held := nofun
  last := UInt32.zero_and

/-- No deadline is reached. -/
theorem expire_eq (hd : ∀ d ∈ h.nextDeadline, now < d) : expire now h = ([], h) := by
  unfold expire
  split
  · next d hnext => rw [if_neg (by have := hd d hnext; omega)]
  · rfl

theorem drive_cons (hd : ∀ d ∈ h.nextDeadline, r.time < d) :
    drive h (r :: rs) = (r.time, (h.apply r.flags r.time).1) :: drive (h.apply r.flags r.time).2 rs := by
  rw [drive, expire_eq hd]
  rfl

/-- A deadline comes before the first report. -/
theorem drive_deadline {d : Nat} (hd : h.nextDeadline = some d) (hr : ∀ r ∈ rs.head?, d ≤ r.time)
    (hlast : (h.advance d).2.nextDeadline = none) :
    drive h rs = (d, (h.advance d).1) :: drive (h.advance d).2 rs := by
  cases rs with
  | nil => rw [drive, drive, hd, hlast]; rfl
  | cons r rs =>
    rw [drive, drive, expire, hd]
    dsimp only
    rw [if_pos (hr r rfl), expire_eq (by simp [hlast])]
    rfl

theorem At.drive_inactive (hA : At hold .inactive h) (r : Report) (rs : List Report) :
    ∃ v h', drive h (r :: rs) = (r.time, v, .none) :: drive h' rs ∧ v &&& backFlag = 0 ∧
      At hold (if r.pressed then .pending (r.time + hold) else .inactive) h' := by
  rw [drive_cons (by simp [HoldToHome.nextDeadline, hA.state_eq])]
  unfold HoldToHome.apply
  rw [hA.mask]
  dsimp only
  rw [hA.state_eq]
  refine ⟨_, _, rfl, passthrough_and_back r.flags h, ?_⟩
  by_cases hp : r.pressed = true
  · rw [if_pos hp]
    dsimp only
    unfold Report.pressed at hp
    rw [if_pos hp]
    exact ⟨rfl, hA.hold_eq, congrArg _ (congrArg _ hA.hold_eq), fun _ _ => hp, passthrough_and_back r.flags h⟩
  · rw [if_neg hp]
    dsimp only
    unfold Report.pressed at hp
    rw [if_neg hp]
    exact ⟨rfl, hA.hold_eq, rfl, nofun, passthrough_and_back r.flags h⟩

/-- Back is released before the deadline. -/
theorem At.drive_early (hA : At hold (.pending deadline) h) (rs : List Report) (hp : r.pressed = false)
    (hlt : r.time < deadline) :
    ∃ v h', drive h (r :: rs) = (r.time, v, .none) :: drive h' rs ∧ v &&& backFlag = backFlag ∧
      At hold (.tapping (r.time + tapDuration)) h' := by
  rw [drive_cons (by simpa [HoldToHome.nextDeadline, hA.state_eq] using hlt)]
  unfold HoldToHome.apply
  rw [hA.mask]
  dsimp only
  rw [hA.state_eq]
  dsimp only
  rw [if_pos (by simpa [Report.pressed] using hp)]
  exact ⟨_, _, rfl, or_and_self _ backFlag, rfl, hA.hold_eq, rfl, nofun, passthrough_and_back r.flags h⟩

theorem At.advance_pending (hA : At hold (.pending deadline) h) : h.advance deadline =
    ((h.lastPassthrough ||| specialFlag, .homeActivated), { h with state := .homeHeld }) := by
  unfold HoldToHome.advance
  rw [hA.mask]
  dsimp only
  rw [hA.state_eq]
  dsimp only
  rw [if_pos ⟨Nat.le_refl deadline, hA.held deadline rfl⟩]

/-- The deadline comes while Back is held. -/
theorem At.drive_hold (hA : At hold (.pending deadline) h) (hr : ∀ r ∈ rs.head?, deadline ≤ r.time) :
    ∃ v h', drive h rs = (deadline, v, .homeActivated) :: drive h' rs ∧
      v &&& specialFlag = specialFlag ∧ At hold .homeHeld h' := by
  rw [drive_deadline (by rw [HoldToHome.nextDeadline, hA.state_eq]) hr (by rw [hA.advance_pending]; rfl),
    hA.advance_pending]
  exact ⟨_, _, rfl, or_and_self _ specialFlag, hA.mask, hA.hold_eq, rfl, nofun, hA.last⟩

/-- Back is released after it. -/
theorem At.drive_release (hA : At hold .homeHeld h) (rs : List Report) (hp : r.pressed = false) :
    ∃ v h', drive h (r :: rs) = (r.time, v, .none) :: drive h' rs ∧ v &&& backFlag = 0 ∧
      At hold .inactive h' := by
  rw [drive_cons (by simp [HoldToHome.nextDeadline, hA.state_eq])]
  unfold HoldToHome.apply
  rw [hA.mask]
  dsimp only
  rw [hA.state_eq]
  dsimp only
  rw [if_neg (by simpa [Report.pressed] using hp)]
  exact ⟨_, _, rfl, passthrough_and_back r.flags h, rfl, hA.hold_eq, rfl, nofun,
    passthrough_and_back r.flags h⟩

/-- A report while the tap is emitted changes nothing of it. -/
theorem At.drive_tapping (hA : At hold (.tapping releaseAt) h) (rs : List Report) (hlt : r.time < releaseAt) :
    ∃ v h', drive h (r :: rs) = (r.time, v, .none) :: drive h' rs ∧ v &&& backFlag = backFlag ∧
      At hold (.tapping releaseAt) h' := by
  rw [drive_cons (by simpa [HoldToHome.nextDeadline, hA.state_eq] using hlt)]
  unfold HoldToHome.apply
  rw [hA.mask]
  dsimp only
  rw [hA.state_eq]
  dsimp only
  rw [if_neg (by omega)]
  exact ⟨_, _, rfl, or_and_self _ backFlag, rfl, hA.hold_eq, rfl, nofun,
    passthrough_and_back r.flags h⟩

theorem At.advance_tapping (hA : At hold (.tapping releaseAt) h) :
    h.advance releaseAt = ((h.lastPassthrough, .none), { h with state := .inactive }) := by
  unfold HoldToHome.advance
  rw [hA.mask]
  dsimp only
  rw [hA.state_eq]
  dsimp only
  rw [if_pos (Nat.le_refl releaseAt)]

/-- The end of the tap. -/
theorem At.drive_tap_end (hA : At hold (.tapping releaseAt) h) (hr : ∀ r ∈ rs.head?, releaseAt ≤ r.time) :
    ∃ v h', drive h rs = (releaseAt, v, .none) :: drive h' rs ∧ v &&& backFlag = 0 ∧
      At hold .inactive h' := by
  rw [drive_deadline (by rw [HoldToHome.nextDeadline, hA.state_eq]) hr (by rw [hA.advance_tapping]; rfl),
    hA.advance_tapping]
  exact ⟨_, _, rfl, hA.last, hA.mask, hA.hold_eq, rfl, nofun, hA.last⟩

theorem mem_nextDeadline :
    deadline ∈ h.nextDeadline ↔ h.state = .pending deadline ∨ h.state = .tapping deadline := by
  unfold HoldToHome.nextDeadline
  cases h.state <;> simp

/-- One turn is enough: a deadline up to `now` leaves no other. -/
theorem At.expired {state : HoldState} (hA : At hold state h) (now : Nat) :
    ∀ d ∈ (expire now h).2.nextDeadline, now < d := by
  unfold expire
  split
  · next deadline hdeadline =>
    split
    · rcases mem_nextDeadline.mp hdeadline with hstate | hstate
      · obtain rfl := hA.state_eq.symm.trans hstate
        rw [hA.advance_pending]
        exact nofun
      · obtain rfl := hA.state_eq.symm.trans hstate
        rw [hA.advance_tapping]
        exact nofun
    · intro d hd
      obtain rfl := Option.some.inj (hdeadline.symm.trans hd)
      omega
  · next hnone =>
    intro d hd
    exact nomatch hnone.symm.trans hd

end At

/-! ## What comes when -/

section When

variable {h : HoldToHome} {flags : UInt32} {now d L : Nat} {rs : List Report}

/-- A turn leaves the machine as it is, or with nothing pending. -/
theorem advance_eq_or (h : HoldToHome) (now : Nat) :
    (h.advance now).2 = h ∨ (h.advance now).2.nextDeadline = none := by
  unfold HoldToHome.advance
  split
  · exact .inl rfl
  · split
    · split_ifs
      · exact .inr rfl
      · exact .inl rfl
    · split_ifs
      · exact .inr rfl
      · exact .inl rfl
    · exact .inl rfl
    · exact .inl rfl

theorem activated_advance (ha : (h.advance now).1.2 = .homeActivated) : ∃ d ≤ now, h.state = .pending d := by
  unfold HoldToHome.advance at ha
  split at ha
  · exact nomatch ha
  · split at ha
    · next deadline hstate =>
      split_ifs at ha with hdue
      exact ⟨deadline, hdue.1, hstate⟩
    · split_ifs at ha
    · exact nomatch ha
    · exact nomatch ha

/-- What a report does with the state: it stays, Back begins to be held or tapped
from now, or nothing is pending. -/
theorem state_apply (h : HoldToHome) (flags : UInt32) (now : Nat) :
    (h.apply flags now).2.state = h.state ∨ (h.apply flags now).2.state = .pending (now + h.hold) ∨
      (h.apply flags now).2.state = .tapping (now + tapDuration) ∨
      (h.apply flags now).2.nextDeadline = none := by
  unfold HoldToHome.apply
  split
  · exact .inl rfl
  · dsimp only
    split
    · split_ifs
      · exact .inr (.inl rfl)
      · exact .inl rfl
    · split_ifs
      · exact .inr (.inr (.inl rfl))
      · exact .inr (.inr (.inr rfl))
      · exact .inl rfl
    · split_ifs
      · exact .inl rfl
      · exact .inr (.inr (.inr rfl))
    · split_ifs
      · exact .inr (.inr (.inr rfl))
      · exact .inl rfl

theorem activated_apply (ha : (h.apply flags now).1.2 = .homeActivated) : ∃ d ≤ now, h.state = .pending d := by
  unfold HoldToHome.apply at ha
  split at ha
  · exact nomatch ha
  · dsimp only at ha
    split at ha
    · exact nomatch ha
    · next deadline hstate =>
      split_ifs at ha with _ hdue
      exact ⟨deadline, hdue, hstate⟩
    · split_ifs at ha
    · split_ifs at ha

/-- What the configuration says stays as it is. -/
theorem configured_advance (h : HoldToHome) (now : Nat) :
    (h.advance now).2.hold = h.hold ∧ (h.advance now).2.suppressHome = h.suppressHome := by
  unfold HoldToHome.advance
  split
  · exact ⟨rfl, rfl⟩
  · split
    · split_ifs <;> exact ⟨rfl, rfl⟩
    · split_ifs <;> exact ⟨rfl, rfl⟩
    · exact ⟨rfl, rfl⟩
    · exact ⟨rfl, rfl⟩

theorem configured_apply (h : HoldToHome) (flags : UInt32) (now : Nat) :
    (h.apply flags now).2.hold = h.hold ∧ (h.apply flags now).2.suppressHome = h.suppressHome := by
  unfold HoldToHome.apply
  split
  · exact ⟨rfl, rfl⟩
  · dsimp only
    split <;> split_ifs <;> exact ⟨rfl, rfl⟩

/-- What every turn and every report does holds of all that a run applies. -/
theorem drive_inv (Inv : HoldToHome → Prop) (P : Nat × UInt32 × HoldTransition → Prop)
    (hadvance : ∀ h, ∀ d ∈ h.nextDeadline, Inv h → P (d, (h.advance d).1) ∧ Inv (h.advance d).2)
    (happly : ∀ h, ∀ r ∈ rs, Inv h →
      P (r.time, (h.apply r.flags r.time).1) ∧ Inv (h.apply r.flags r.time).2)
    (hinv : Inv h) : ∀ x ∈ drive h rs, P x := by
  induction rs generalizing h with
  | nil =>
    intro x hx
    obtain ⟨d, hd, rfl⟩ := Option.map_eq_some_iff.mp (Option.mem_toList.mp hx)
    exact (hadvance h d hd hinv).1
  | cons r rs ih =>
    have hexpire : (∀ x ∈ (expire r.time h).1, P x) ∧ Inv (expire r.time h).2 := by
      unfold expire
      split
      · next d hd =>
        split
        · exact ⟨List.forall_mem_singleton.mpr (hadvance h d hd hinv).1, (hadvance h d hd hinv).2⟩
        · exact ⟨nofun, hinv⟩
      · exact ⟨nofun, hinv⟩
    obtain ⟨hnow, hnext⟩ := happly _ r List.mem_cons_self hexpire.2
    intro x hx
    rcases List.mem_append.mp hx with hx | hx
    · exact hexpire.1 x hx
    · rcases List.mem_cons.mp hx with rfl | hx
      · exact hnow
      · exact ih (fun h r hr => happly h r (List.mem_cons_of_mem _ hr)) hnext x hx

/-- Nothing is applied before the first deadline and the first report. -/
theorem le_drive (hd : ∀ d ∈ h.nextDeadline, L ≤ d) (hr : ∀ r ∈ rs, L ≤ r.time) :
    ∀ x ∈ drive h rs, L ≤ x.1 := by
  refine drive_inv (fun h => ∀ d ∈ h.nextDeadline, L ≤ d) (fun x => L ≤ x.1) ?_ ?_ hd
  · intro h d hdeadline hinv
    refine ⟨hinv d hdeadline, ?_⟩
    rcases advance_eq_or h d with heq | hnone
    · rw [heq]
      exact hinv
    · simp [hnone]
  · intro h r hmem hinv
    have hL := hr r hmem
    refine ⟨hL, ?_⟩
    rcases state_apply h r.flags r.time with heq | heq | heq | hnone
    · simpa only [mem_nextDeadline, heq] using hinv
    · intro d hd'
      rw [mem_nextDeadline, heq] at hd'
      simp only [HoldState.pending.injEq, reduceCtorEq, or_false] at hd'
      omega
    · intro d hd'
      rw [mem_nextDeadline, heq] at hd'
      simp only [HoldState.tapping.injEq, reduceCtorEq, false_or] at hd'
      omega
    · simp [hnone]

/-- Home is activated no earlier than the hold that is pending, or one that begins
with a report, is over. -/
theorem lt_of_activated (hhold : 0 < h.hold) (hd : ∀ d, h.state = .pending d → L < d)
    (hr : ∀ r ∈ rs, L ≤ r.time) : ∀ x ∈ drive h rs, x.2.2 = .homeActivated → L < x.1 := by
  refine drive_inv (fun h => 0 < h.hold ∧ ∀ d, h.state = .pending d → L < d)
    (fun x => x.2.2 = .homeActivated → L < x.1) ?_ ?_ ⟨hhold, hd⟩
  · rintro h d hdeadline ⟨hhold, hinv⟩
    refine ⟨fun ha => ?_, by rwa [(configured_advance h d).1], ?_⟩
    · obtain ⟨d', hle, hstate⟩ := activated_advance ha
      have := hinv d' hstate
      show L < d
      omega
    · rcases advance_eq_or h d with heq | hnone
      · rw [heq]
        exact hinv
      · intro d' hd'
        have := mem_nextDeadline.mpr (.inl hd')
        simp [hnone] at this
  · rintro h r hmem ⟨hhold, hinv⟩
    have hL := hr r hmem
    refine ⟨fun ha => ?_, by rwa [(configured_apply h r.flags r.time).1], ?_⟩
    · obtain ⟨d', hle, hstate⟩ := activated_apply ha
      have := hinv d' hstate
      show L < r.time
      omega
    · intro d' hd'
      rcases state_apply h r.flags r.time with heq | heq | heq | hnone
      · exact hinv d' (heq ▸ hd')
      · rw [heq] at hd'
        obtain rfl := HoldState.pending.inj hd'
        omega
      · exact nomatch heq.symm.trans hd'
      · have := mem_nextDeadline.mpr (.inl hd')
        simp [hnone] at this

end When

/-! ## When Back is off -/

/-- The reports come in order, and nothing together with a report of Back after it. -/
def Steady (rs : List Report) : Prop :=
  rs.Pairwise fun a b => a.time ≤ b.time ∧ (a.pressed = true → a.time < b.time)

section Off

variable {hold releaseAt t L : Nat} {mask : UInt32} {h : HoldToHome} {rs : List Report} {trace : Trace}

theorem shows_eq_false (hoff : ∀ x ∈ trace, x.1 ≤ t → x.2.1 &&& mask = 0) : shows mask t trace = false := by
  unfold shows
  cases hv : valueAt t trace with
  | none => rfl
  | some v =>
    obtain ⟨x, hx, hle, rfl⟩ := mem_of_valueAt hv
    simp [hoff x hx hle]

/-- Where nothing is pending, no report up to the first one's time turns Back on. -/
theorem At.off_of_le (hA : At hold .inactive h) (hhold : 0 < hold) (hsteady : Steady rs)
    (hr : ∀ r ∈ rs, L ≤ r.time) : ∀ x ∈ drive h rs, x.1 ≤ L → x.2.1 &&& backFlag = 0 := by
  induction rs generalizing h with
  | nil => simp [drive, HoldToHome.nextDeadline, hA.state_eq]
  | cons r rs ih =>
    obtain ⟨hrest, hsteady⟩ := List.pairwise_cons.mp hsteady
    obtain ⟨v, h', heq, hoff, hA'⟩ := hA.drive_inactive r rs
    have hL := hr r List.mem_cons_self
    rw [heq]
    intro x hx hle
    rcases List.mem_cons.mp hx with rfl | hx
    · exact hoff
    · by_cases hp : r.pressed = true
      · -- from the press on nothing is applied before a later report or its deadline
        rw [if_pos hp] at hA'
        have hlate : L + 1 ≤ x.1 := by
          refine le_drive ?_ ?_ x hx
          · intro d hd
            rw [mem_nextDeadline, hA'.state_eq] at hd
            simp only [HoldState.pending.injEq, reduceCtorEq, or_false] at hd
            omega
          · intro r' hr'
            have := (hrest r' hr').2 hp
            omega
        omega
      · rw [if_neg hp] at hA'
        exact ih hA' hsteady (fun r hr' => hr r (List.mem_cons_of_mem _ hr')) x hx hle

theorem shows_append_of_le (es : Trace) {x : Nat × UInt32 × HoldTransition} (hx : x ∈ trace) (hle : x.1 ≤ t) :
    shows mask t (es ++ trace) = shows mask t trace := by
  unfold shows
  rw [valueAt_append_of_le hx hle]

theorem At.tap_off_of_le (hA : At hold (.tapping releaseAt) h) (hhold : 0 < hold) (hsteady : Steady rs)
    (hr : ∀ r ∈ rs, releaseAt ≤ r.time) :
    shows backFlag releaseAt (drive h rs) = false ∧ ∃ x ∈ drive h rs, x.1 ≤ releaseAt := by
  obtain ⟨v, h', heq, hoff, hA'⟩ := hA.drive_tap_end fun r hmem => hr r (List.mem_of_mem_head? hmem)
  rw [heq]
  refine ⟨shows_eq_false fun x hx hle => ?_, _, List.mem_cons_self, Nat.le_refl releaseAt⟩
  rcases List.mem_cons.mp hx with rfl | hx
  · exact hoff
  · exact hA'.off_of_le hhold hsteady hr x hx hle

/-- When the tap ends, Back is off. -/
theorem At.tap_off (hA : At hold (.tapping releaseAt) h) (hhold : 0 < hold) (hsteady : Steady rs) :
    shows backFlag releaseAt (drive h rs) = false ∧ ∃ x ∈ drive h rs, x.1 ≤ releaseAt := by
  induction rs generalizing h with
  | nil => exact hA.tap_off_of_le hhold hsteady nofun
  | cons r rs ih =>
    by_cases hlt : r.time < releaseAt
    · obtain ⟨v, h', heq, -, hA'⟩ := hA.drive_tapping rs hlt
      obtain ⟨hoff, x, hx, hle⟩ := ih hA' hsteady.of_cons
      rw [heq]
      exact ⟨(shows_append_of_le [_] hx hle).trans hoff, x, List.mem_cons_of_mem _ hx, hle⟩
    · refine hA.tap_off_of_le hhold hsteady fun r' hr' => ?_
      rcases List.mem_cons.mp hr' with rfl | hr'
      · omega
      · have := ((List.pairwise_cons.mp hsteady).1 r' hr').1
        omega

end Off

/-! ## Presses in a run -/

section Presses

variable {hold : Nat} {h : HoldToHome} {p q : Press} {ps : List Press} {rs : List Report} {seg trace : Trace}

theorem mem_drive {r : Report} (hr : r ∈ rs) : ∃ x ∈ drive h rs, x.1 = r.time := by
  induction rs generalizing h with
  | nil => exact absurd hr List.not_mem_nil
  | cons r' rs ih =>
    rw [drive]
    rcases List.mem_cons.mp hr with rfl | hr
    · exact ⟨_, List.mem_append_right _ List.mem_cons_self, rfl⟩
    · obtain ⟨x, hx, heq⟩ := ih hr
      exact ⟨x, List.mem_append_right _ (List.mem_cons_of_mem _ hx), heq⟩

theorem Press.mem_reports {r : Report} (hr : r ∈ p.reports) : p.pressAt ≤ r.time ∧ r.time ≤ p.releaseAt := by
  have hlt := p.lt
  rcases List.mem_cons.mp hr with rfl | hr
  · exact ⟨Nat.le_refl _, hlt.le⟩
  · obtain rfl := List.mem_singleton.mp hr
    exact ⟨hlt.le, Nat.le_refl _⟩

theorem Press.steady (p : Press) : Steady p.reports :=
  List.pairwise_pair.mpr ⟨p.lt.le, fun _ => p.lt⟩

theorem mem_reports {r : Report} (hr : r ∈ reports ps) : ∃ p ∈ ps, r ∈ p.reports := List.mem_flatMap.mp hr

theorem press_mem_reports (hp : p ∈ ps) : p.press ∈ reports ps :=
  List.mem_flatMap.mpr ⟨p, hp, List.mem_cons_self⟩

theorem steady_reports (ho : Ordered ps) : Steady (reports ps) := by
  refine List.pairwise_flatMap.mpr ⟨fun p _ => p.steady, ho.imp fun {p q} hpq a ha b hb => ?_⟩
  have hlt := p.lt
  have hq := (Press.mem_reports hb).1
  rcases List.mem_cons.mp ha with rfl | ha
  · show p.pressAt ≤ b.time ∧ (_ → p.pressAt < b.time)
    omega
  · obtain rfl := List.mem_singleton.mp ha
    refine ⟨by show p.releaseAt ≤ b.time; omega, fun hp => ?_⟩
    rw [pressed_release] at hp
    exact nomatch hp

theorem Handled.congr {trace trace' : Trace} (hact : activations trace' p = activations trace p)
    (hshow : ∀ mask t, p.pressAt ≤ t → shows mask t trace' = shows mask t trace)
    (hh : Handled hold trace p) : Handled hold trace' p := by
  have hlt := p.lt
  refine ⟨fun hhold => ⟨hact.trans (hh.1 hhold).once, fun t ht htr => ?_⟩, fun hhold => ?_⟩
  · rw [hshow specialFlag t (by omega)]
    exact (hh.1 hhold).kept t ht htr
  · obtain ⟨e, he, hon, hoff⟩ := hh.2 hhold
    refine ⟨e, he, fun t ht hte => ?_, ?_⟩
    · rw [hshow backFlag t (by omega)]
      exact hon t ht hte
    · rw [hshow backFlag e (by omega)]
      exact hoff

theorem activations_append (es : Trace) (p : Press) :
    activations (es ++ trace) p = activations es p ++ activations trace p := by
  unfold activations
  rw [List.filter_append, List.map_append]

/-- Home is not activated during the press. -/
theorem activations_eq_nil
    (hout : ∀ x ∈ trace, x.2.2 = .homeActivated → x.1 ≤ p.pressAt ∨ p.releaseAt < x.1) :
    activations trace p = [] := by
  unfold activations
  rw [List.map_eq_nil_iff, List.filter_eq_nil_iff]
  intro x hx
  simp only [decide_eq_true_eq]
  rintro ⟨ha, hgt, hle⟩
  rcases hout x hx ha with h | h <;> omega

/-- What came before the press does not matter to it. -/
theorem handled_append (hseg : ∀ x ∈ seg, x.1 ≤ p.pressAt) (hpress : ∃ x ∈ trace, x.1 ≤ p.pressAt) :
    Handled hold (seg ++ trace) p ↔ Handled hold trace p := by
  obtain ⟨x, hx, hle⟩ := hpress
  have hshow : ∀ mask t, p.pressAt ≤ t → shows mask t (seg ++ trace) = shows mask t trace :=
    fun mask t ht => shows_append_of_le seg hx (by omega)
  have hnone : activations seg p = [] := by
    refine activations_eq_nil fun y hy _ => .inl ?_
    exact hseg y hy
  have hact : activations (seg ++ trace) p = activations trace p := by
    rw [activations_append, hnone, List.nil_append]
  exact ⟨.congr hact.symm fun mask t ht => (hshow mask t ht).symm, .congr hact hshow⟩

/-- What is applied last before `t` shows at `t`. -/
theorem shows_of_late {t : Nat} {mask : UInt32} (es : Trace) {x : Nat × UInt32 × HoldTransition} (hle : x.1 ≤ t)
    (hon : x.2.1 &&& mask ≠ 0) (hlate : ∀ y ∈ trace, t < y.1) : shows mask t (es ++ x :: trace) = true := by
  unfold shows
  rw [valueAt_append, valueAt_cons_of_le hle, valueAt_eq_none hlate]
  simp [hon]

theorem At.press (hA : At hold .inactive h) (p : Press) (rs : List Report) :
    ∃ v h', drive h (p.reports ++ rs) = (p.pressAt, v, .none) :: drive h' (p.release :: rs) ∧
      At hold (.pending (p.pressAt + hold)) h' := by
  obtain ⟨v, h', heq, -, hA'⟩ := hA.drive_inactive p.press (p.release :: rs)
  rw [if_pos (pressed_press p)] at hA'
  exact ⟨v, h', heq, hA'⟩

/-- A press that is held for long enough is Home, once and until its release. -/
theorem At.hold_handled (hA : At hold .inactive h) (hhold : 0 < hold) (hlong : p.isHold hold)
    (hr : ∀ r ∈ rs, p.releaseAt ≤ r.time) :
    ∃ seg h', drive h (p.reports ++ rs) = seg ++ drive h' rs ∧ At hold .inactive h' ∧
      (∀ x ∈ seg, x.1 ≤ p.releaseAt) ∧ Handled hold (seg ++ drive h' rs) p := by
  have hlt := p.lt
  unfold Press.isHold at hlong
  obtain ⟨v₁, h₁, heq₁, hA₁⟩ := hA.press p rs
  have hfirst : ∀ r ∈ (p.release :: rs).head?, p.pressAt + hold ≤ r.time := by
    rintro r ⟨⟩
    exact hlong
  obtain ⟨v₂, h₂, heq₂, hhome, hA₂⟩ := hA₁.drive_hold hfirst
  obtain ⟨v₃, h₃, heq₃, -, hA₃⟩ := hA₂.drive_release rs (pressed_release p)
  have hlate : ∀ x ∈ drive h₃ rs, p.releaseAt ≤ x.1 :=
    le_drive (by simp [HoldToHome.nextDeadline, hA₃.state_eq]) hr
  have hactivated : ∀ x ∈ drive h₃ rs, x.2.2 = .homeActivated → p.releaseAt < x.1 :=
    lt_of_activated (hA₃.hold_eq ▸ hhold) (by simp [hA₃.state_eq]) hr
  refine ⟨[(p.pressAt, v₁, .none), (p.pressAt + hold, v₂, .homeActivated), (p.releaseAt, v₃, .none)], h₃,
    by rw [heq₁, heq₂, heq₃]; rfl, hA₃, ?_, fun _ => ⟨?_, fun t ht htr => ?_⟩,
    fun hshort => absurd hlong hshort⟩
  · simp only [List.mem_cons, List.not_mem_nil, or_false, forall_eq_or_imp, forall_eq]
    omega
  · have hnone : activations (drive h₃ rs) p = [] :=
      activations_eq_nil fun x hx ha => .inr (hactivated x hx ha)
    rw [activations_append, hnone]
    simp [activations, hhold, hlong]
  · show shows specialFlag t ([(p.pressAt, v₁, .none)] ++
      (p.pressAt + hold, v₂, .homeActivated) :: (p.releaseAt, v₃, .none) :: drive h₃ rs) = true
    refine shows_of_late _ ht (by rw [hhome]; decide) fun y hy => ?_
    rcases List.mem_cons.mp hy with rfl | hy
    · exact htr
    · have := hlate y hy
      omega

/-- One that is not is Back, if the tap is over when the next report comes. -/
theorem At.tap_handled (hA : At hold .inactive h) (hhold : 0 < hold) (hshort : ¬p.isHold hold)
    (hsteady : Steady rs) (hr : ∀ r ∈ rs, p.releaseAt + tapDuration ≤ r.time) :
    ∃ seg h', drive h (p.reports ++ rs) = seg ++ drive h' rs ∧ At hold .inactive h' ∧
      (∀ x ∈ seg, x.1 ≤ p.releaseAt + tapDuration) ∧ Handled hold (seg ++ drive h' rs) p := by
  have hlt := p.lt
  have hlt' : p.release.time < p.pressAt + hold := Nat.not_le.mp hshort
  obtain ⟨v₁, h₁, heq₁, hA₁⟩ := hA.press p rs
  obtain ⟨v₂, h₂, heq₂, hback, hA₂⟩ := hA₁.drive_early rs (pressed_release p) hlt'
  obtain ⟨v₃, h₃, heq₃, -, hA₃⟩ := hA₂.drive_tap_end fun r hmem => hr r (List.mem_of_mem_head? hmem)
  have hlate : ∀ x ∈ drive h₃ rs, p.releaseAt + tapDuration ≤ x.1 :=
    le_drive (by simp [HoldToHome.nextDeadline, hA₃.state_eq]) hr
  have hoff := (hA₂.tap_off_of_le hhold hsteady hr).1
  rw [heq₃] at hoff
  refine ⟨[(p.pressAt, v₁, .none), (p.releaseAt, v₂, .none), (p.releaseAt + tapDuration, v₃, .none)], h₃,
    by rw [heq₁, heq₂, heq₃]; rfl, hA₃, ?_, fun hlong => absurd hlong hshort,
    fun _ => ⟨p.releaseAt + tapDuration, Nat.le_refl _, fun t ht hte => ?_, ?_⟩⟩
  · simp only [List.mem_cons, List.not_mem_nil, or_false, forall_eq_or_imp, forall_eq]
    omega
  · show shows backFlag t ([(p.pressAt, v₁, .none)] ++
      (p.releaseAt, v₂, .none) :: (p.releaseAt + tapDuration, v₃, .none) :: drive h₃ rs) = true
    refine shows_of_late _ ht (by rw [hback]; decide) fun y hy => ?_
    rcases List.mem_cons.mp hy with rfl | hy
    · exact hte
    · have := hlate y hy
      omega
  · show shows backFlag (p.releaseAt + tapDuration) ([(p.pressAt, v₁, .none), (p.releaseAt, v₂, .none)] ++
      (p.releaseAt + tapDuration, v₃, .none) :: drive h₃ rs) = false
    have hmem : (p.releaseAt + tapDuration, v₃, HoldTransition.none) ∈
        (p.releaseAt + tapDuration, v₃, HoldTransition.none) :: drive h₃ rs := List.mem_cons_self
    rw [shows_append_of_le _ hmem (Nat.le_refl _)]
    exact hoff

/-- A press that begins while a tap is emitted is lost. -/
theorem At.lost {e : Nat} (hA : At hold (.tapping e) h) (hhold : 0 < hold) (hlt : p.pressAt < e)
    (he : e ≤ p.pressAt + tapDuration) (hsteady : Steady (p.reports ++ rs)) :
    ¬Handled hold (drive h (p.reports ++ rs)) p := by
  have hrelease := p.lt
  obtain ⟨v₁, h₁, heq₁, -, hA₁⟩ := hA.drive_tapping (r := p.press) (p.release :: rs) hlt
  replace heq₁ : drive h (p.reports ++ rs) = (p.pressAt, v₁, .none) :: drive h₁ (p.release :: rs) := heq₁
  have hrest : ∀ r ∈ p.release :: rs, p.releaseAt ≤ r.time := by
    intro r hr
    rcases List.mem_cons.mp hr with rfl | hr
    · exact Nat.le_refl _
    · exact ((List.pairwise_cons.mp hsteady.of_cons).1 r hr).1
  intro hh
  by_cases hlong : p.isHold hold
  · -- the machine taps when Back is pressed and released: no hold has begun
    have honce := (hh.1 hlong).once
    have hnone : activations (drive h (p.reports ++ rs)) p = [] := by
      refine activations_eq_nil fun x hx ha => .inr ?_
      rw [heq₁] at hx
      rcases List.mem_cons.mp hx with rfl | hx
      · exact nomatch ha
      · exact lt_of_activated (hA₁.hold_eq ▸ hhold) (by simp [hA₁.state_eq]) hrest x hx ha
    rw [hnone] at honce
    exact nomatch honce
  · obtain ⟨e', he', hon, -⟩ := hh.2 hlong
    by_cases hend : p.releaseAt < e
    · -- the tap of the press before ends too soon
      have hoff := (hA.tap_off hhold hsteady).1
      rw [hon e (by omega) (by omega)] at hoff
      exact nomatch hoff
    · -- nor is Back on at the release
      have hoff : shows backFlag p.releaseAt (drive h (p.reports ++ rs)) = false := by
        have hfirst : ∀ r ∈ (p.release :: rs).head?, e ≤ r.time := by
          rintro r ⟨⟩
          exact Nat.not_lt.mp hend
        obtain ⟨v₂, h₂, heq₂, hv₂, hA₂⟩ := hA₁.drive_tap_end hfirst
        rw [heq₁, heq₂, ← List.singleton_append, shows_append_of_le _ List.mem_cons_self (Nat.not_lt.mp hend)]
        refine shows_eq_false fun x hx hle => ?_
        rcases List.mem_cons.mp hx with rfl | hx
        · exact hv₂
        · exact hA₂.off_of_le hhold hsteady.of_cons hrest x hx hle
      have htap : 0 < tapDuration := by decide
      rw [hon p.releaseAt (Nat.le_refl _) (by omega)] at hoff
      exact nomatch hoff

end Presses

/-! ## Runs -/

section Runs

variable {hold : Nat} {h : HoldToHome} {p q : Press} {ps : List Press}

theorem Ordered.release_le {r : Report} (ho : Ordered (p :: ps)) (hr : r ∈ reports ps) :
    p.releaseAt ≤ r.time := by
  obtain ⟨q, hq, hr⟩ := mem_reports hr
  have := (List.pairwise_cons.mp ho).1 q hq
  have := (Press.mem_reports hr).1
  omega

theorem Ordered.tail (ho : Ordered (p :: ps)) : Ordered ps := List.Pairwise.of_cons ho

theorem Ordered.press_le {r : Report} (ho : Ordered ps) (hq : q ∈ ps.head?) (hr : r ∈ reports ps) :
    q.pressAt ≤ r.time := by
  cases ps with
  | nil => exact nomatch hq
  | cons p ps =>
    obtain rfl := Option.some.inj hq
    have hlt := p.lt
    rcases List.mem_append.mp hr with hr | hr
    · exact (Press.mem_reports hr).1
    · have := ho.release_le hr
      omega

/-- A press after which the machine has nothing pending when the next begins. -/
theorem At.handled (hA : At hold .inactive h) (hhold : 0 < hold) (ho : Ordered (p :: ps))
    (hnext : p.isHold hold ∨ ∀ q ∈ ps.head?, p.releaseAt + tapDuration ≤ q.pressAt) :
    ∃ seg h', drive h (reports (p :: ps)) = seg ++ drive h' (reports ps) ∧ At hold .inactive h' ∧
      (∀ r ∈ reports ps, ∀ x ∈ seg, x.1 ≤ r.time) ∧ Handled hold (seg ++ drive h' (reports ps)) p := by
  by_cases hlong : p.isHold hold
  · obtain ⟨seg, h', heq, hA', hseg, hh⟩ := hA.hold_handled hhold hlong fun r hr => ho.release_le hr
    exact ⟨seg, h', heq, hA', fun r hr x hx => (hseg x hx).trans (ho.release_le hr), hh⟩
  · have hlate : ∀ r ∈ reports ps, p.releaseAt + tapDuration ≤ r.time := by
      intro r hr
      obtain ⟨q, hq⟩ : ∃ q, q ∈ ps.head? := by
        cases ps with
        | nil => exact nomatch hr
        | cons q qs => exact ⟨q, rfl⟩
      have := hnext.resolve_left hlong q hq
      have := ho.tail.press_le hq hr
      omega
    obtain ⟨seg, h', heq, hA', hseg, hh⟩ := hA.tap_handled hhold hlong (steady_reports ho.tail) hlate
    exact ⟨seg, h', heq, hA', fun r hr x hx => (hseg x hx).trans (hlate r hr), hh⟩

/-- A press that begins while the tap of the one before is emitted. -/
theorem At.next_lost (hA : At hold .inactive h) (hhold : 0 < hold) (ho : Ordered (p :: q :: ps))
    (hshort : ¬p.isHold hold) (hlt : q.pressAt < p.releaseAt + tapDuration) :
    ¬Handled hold (drive h (reports (p :: q :: ps))) q := by
  have hle : p.releaseAt ≤ q.pressAt := (List.pairwise_cons.mp ho).1 q List.mem_cons_self
  have hpress := p.lt
  have hlt' : p.release.time < p.pressAt + hold := Nat.not_le.mp hshort
  obtain ⟨v₁, h₁, heq₁, hA₁⟩ := hA.press p (reports (q :: ps))
  obtain ⟨v₂, h₂, heq₂, -, hA₂⟩ := hA₁.drive_early (reports (q :: ps)) (pressed_release p) hlt'
  have heq : drive h (reports (p :: q :: ps)) =
      [(p.pressAt, v₁, .none), (p.releaseAt, v₂, .none)] ++ drive h₂ (reports (q :: ps)) := by
    show drive h (p.reports ++ reports (q :: ps)) = _
    rw [heq₁, heq₂]
    rfl
  have hr : q.press ∈ reports (q :: ps) := press_mem_reports List.mem_cons_self
  obtain ⟨x, hx, htime⟩ := mem_drive (h := h₂) hr
  rw [heq, handled_append _ ⟨x, hx, htime.le⟩]
  · exact hA₂.lost hhold hlt (by show p.releaseAt + tapDuration ≤ _; omega) (steady_reports ho.tail)
  · simp only [List.mem_cons, List.not_mem_nil, or_false, forall_eq_or_imp, forall_eq]
    omega

/-- Every press is handled exactly if none begins while a tap is emitted. -/
theorem handled_iff_spaced (hA : At hold .inactive h) (hhold : 0 < hold) (ho : Ordered ps) :
    (∀ p ∈ ps, Handled hold (drive h (reports ps)) p) ↔ Spaced hold ps := by
  induction ps generalizing h with
  | nil => exact iff_of_true nofun .nil
  | cons p ps ih =>
    by_cases hnext : p.isHold hold ∨ ∀ q ∈ ps.head?, p.releaseAt + tapDuration ≤ q.pressAt
    · obtain ⟨seg, h', heq, hA', hseg, hh⟩ := hA.handled hhold ho hnext
      rw [heq, Spaced, List.isChain_cons, List.forall_mem_cons]
      have hrest := ih hA' ho.tail
      refine and_congr (iff_of_true hh fun q hq => ?_) ((forall₂_congr fun q hq => ?_).trans hrest)
      · exact hnext.imp_right fun hnext => hnext q hq
      · -- the rest of the run decides about the presses after this one
        have hr := press_mem_reports hq
        obtain ⟨x, hx, htime⟩ := mem_drive hr
        exact handled_append (fun y hy => hseg q.press hr y hy) ⟨x, hx, htime.le⟩
    · -- the next press begins while the tap of this one is emitted
      obtain ⟨hshort, hnext⟩ := not_or.mp hnext
      cases ps with
      | nil => exact absurd nofun hnext
      | cons q qs =>
        have hlt : ¬p.releaseAt + tapDuration ≤ q.pressAt :=
          fun hle => hnext fun q' hq => Option.some.inj hq ▸ hle
        refine iff_of_false (fun hall => ?_) fun hspaced => ?_
        · exact hA.next_lost hhold ho hshort (Nat.not_le.mp hlt)
            (hall q (List.mem_cons_of_mem _ List.mem_cons_self))
        · exact (hspaced.rel_head? rfl).elim hshort hlt

end Runs

/-- The machine from its start, with the remap enabled and turned at each of its own
deadlines: a press held for `hold_ms` is Home, once and until its release, and any
other is Back for the time of a tap, exactly if no press begins while the tap of the
one before is emitted. -/
theorem handles_iff_spaced (config : GamepadConfig) (hhold : config.homeButton.holdMs ≠ 0) {ps : List Press}
    (ho : Ordered ps) :
    (∀ p ∈ ps, Handled (fromMillis config.homeButton.holdMs.toNat) (drive (.new config) (reports ps)) p) ↔
      Spaced (fromMillis config.homeButton.holdMs.toNat) ps := by
  refine handled_iff_spaced (at_new config hhold) ?_ ho
  have : config.homeButton.holdMs.toNat ≠ 0 := fun h => hhold (UInt64.toNat_inj.mp h)
  unfold fromMillis
  omega

/-- Half a second is Home. -/
def holdConfig : GamepadConfig := ⟨500, 200, 0.5, false⟩

def tap : Press := ⟨0, fromMillis 50, by decide, 0, 0⟩

def holdWithA : Press := ⟨fromMillis 200, fromMillis 900, by decide, 0x1000, 0x1000⟩

/-- A tap, and a hold after it. -/
theorem tap_holdWithA_handled :
    Handled (fromMillis 500) (drive (.new holdConfig) (reports [tap, holdWithA])) tap ∧
      Handled (fromMillis 500) (drive (.new holdConfig) (reports [tap, holdWithA])) holdWithA := by
  have hordered : Ordered [tap, holdWithA] := by unfold Ordered tap holdWithA; decide
  have hspaced : Spaced (fromMillis 500) [tap, holdWithA] := by
    unfold Spaced Press.isHold tap holdWithA
    decide
  have hhandled := (handles_iff_spaced holdConfig (by decide) hordered).mpr hspaced
  exact ⟨hhandled tap List.mem_cons_self, hhandled holdWithA (List.mem_cons_of_mem _ List.mem_cons_self)⟩

/-- Two taps, the second in the time of the first. -/
def quickTaps : List Press :=
  [⟨0, fromMillis 50, by decide, 0, 0⟩, ⟨fromMillis 100, fromMillis 200, by decide, 0, 0⟩]

/-- The second is dropped: at its release Back is not on. -/
theorem quickTaps_dropped :
    Ordered quickTaps ∧
      ¬∀ p ∈ quickTaps, Handled (fromMillis 500) (drive (.new holdConfig) (reports quickTaps)) p := by
  refine ⟨by unfold quickTaps Ordered; decide, fun hall => ?_⟩
  have hshort : ¬fromMillis 100 + fromMillis 500 ≤ fromMillis 200 := by decide
  obtain ⟨e, he, hon, -⟩ := (hall _ (List.mem_cons_of_mem _ List.mem_cons_self)).2 hshort
  have htap : fromMillis 200 < fromMillis 200 + tapDuration := by decide
  have hoff : shows backFlag (fromMillis 200) (drive (.new holdConfig) (reports quickTaps)) = false := by
    decide +kernel
  rw [hon (fromMillis 200) (Nat.le_refl _) (htap.trans_le he)] at hoff
  exact nomatch hoff

end Moonshine.Proof.HoldTiming
