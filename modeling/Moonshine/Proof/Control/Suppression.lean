import Moonshine.Proof.Control.HoldTiming
import Moonshine.Proof.Control.Remap

/-!
# Home suppression

What the remap is for, apart from the flags: from Back alone it goes through its
phases (`Phase`), and in each of them it generates Back, Home or nothing. The
machine of the code goes through the same phases (`apply_at`, `advance_at`), and
what it returns is the client's flags without Back and with what the phase
generates. The physical Home button is to be taken out of the client's flags where
it is suppressed; the disabled remap, which returns early, leaves it in:
`suppressed_iff`.
-/

namespace Moonshine.Proof.Suppression

open Moonshine.Framework Moonshine.Impl Moonshine.Impl.Control Moonshine.Proof.HoldTiming

inductive Phase
  | idle
  /-- Back is down, and becomes a hold at the deadline. -/
  | waiting (deadline : Nat)
  | holding
  /-- A tap is emitted, until then. -/
  | tapping (releaseAt : Nat)
  deriving DecidableEq, Repr

namespace Phase

/-- Back is seen down or up at `now`. -/
def see (hold : Nat) (back : Bool) (now : Nat) : Phase → Phase
  | idle => if back then waiting (now + hold) else idle
  | waiting deadline =>
    if back then (if deadline ≤ now then holding else waiting deadline) else tapping (now + tapDuration)
  | holding => if back then holding else idle
  | tapping releaseAt => if releaseAt ≤ now then idle else tapping releaseAt

/-- Time passes, and Back stays as it is. -/
def elapse (now : Nat) : Phase → Phase
  | waiting deadline => if deadline ≤ now then holding else waiting deadline
  | tapping releaseAt => if releaseAt ≤ now then idle else tapping releaseAt
  | idle => idle
  | holding => holding

/-- The buttons that the remap generates: Back in a tap, Home in a hold. -/
def generated : Phase → UInt32
  | tapping _ => backFlag
  | holding => specialFlag
  | idle => 0
  | waiting _ => 0

/-- The state of the code's machine. -/
def state : Phase → HoldState
  | idle => .inactive
  | waiting deadline => .pending deadline
  | holding => .homeHeld
  | tapping releaseAt => .tapping releaseAt

end Phase

/-- The client's flags, without the physical Home button where it is suppressed. -/
def physical (config : HomeButtonConfig) (flags : UInt32) : UInt32 :=
  if config.suppressHome then flags &&& ~~~specialFlag else flags

def expected (config : HomeButtonConfig) (phase : Phase) (flags : UInt32) : UInt32 :=
  if config.holdMs = 0 then physical config flags
  else (physical config flags &&& ~~~backFlag) ||| phase.generated

/-- A call of `apply`, or a turn of the timer. -/
inductive Event
  | report (flags : UInt32) (now : Nat)
  | timer (now : Nat)

/-- The machine, and the phase that it is to be in. -/
structure Watched where
  machine : HoldToHome
  phase : Phase

namespace Watched

def start (config : GamepadConfig) : Watched := ⟨.new config, .idle⟩

def step (config : GamepadConfig) (w : Watched) : Event → Option Watched
  | .report flags now =>
    some ⟨(w.machine.apply flags now).2,
      w.phase.see (fromMillis config.homeButton.holdMs.toNat) (flags &&& backFlag != 0) now⟩
  | .timer now => some ⟨(w.machine.advance now).2, w.phase.elapse now⟩

end Watched

/-- What `apply` returns is what is to be returned; where Home is suppressed, it has
Home only in a hold. -/
structure Returns (config : HomeButtonConfig) (phase : Phase) (flags returned : UInt32) : Prop where
  flags : returned = expected config phase flags
  home : config.suppressHome = true → returned &&& specialFlag ≠ 0 → config.holdMs ≠ 0 ∧ phase = .holding

def Suppressed (config : GamepadConfig) (w : Watched) (e : Event) (w' : Watched) : Prop :=
  ∀ flags now, e = .report flags now →
    Returns config.homeButton w'.phase flags (w.machine.apply flags now).1.1

/-- The client reports no physical Home. -/
def Event.noHome : Event → Prop
  | report flags _ => flags &&& specialFlag = 0
  | timer _ => True

theorem physical_and_home {config : HomeButtonConfig} (h : config.suppressHome = true) (flags : UInt32) :
    physical config flags &&& specialFlag = 0 := by
  rw [physical, if_pos h]
  exact and_not_and_self flags specialFlag

theorem passthrough_eq (config : HomeButtonConfig) (flags : UInt32) (h : HoldToHome)
    (hs : h.suppressHome = config.suppressHome) :
    h.passthrough backFlag flags = physical config flags &&& ~~~backFlag := by
  rw [HoldToHome.passthrough, physical, hs]
  split
  · rw [UInt32.and_assoc, UInt32.and_comm (~~~backFlag), ← UInt32.and_assoc]
  · rfl

/-- What is expected has Home only in a hold, where Home is suppressed. -/
theorem expected_home {config : HomeButtonConfig} {phase : Phase} {flags : UInt32}
    (hsuppress : config.suppressHome = true) (hhome : expected config phase flags &&& specialFlag ≠ 0) :
    config.holdMs ≠ 0 ∧ phase = .holding := by
  have hphysical := physical_and_home hsuppress flags
  unfold expected at hhome
  split at hhome
  · exact absurd hphysical hhome
  · next hhold =>
    have hmasked : physical config flags &&& ~~~backFlag &&& specialFlag = 0 := by
      rw [UInt32.and_assoc, UInt32.and_comm (~~~backFlag), ← UInt32.and_assoc, hphysical, UInt32.zero_and]
    rw [or_and_distrib, hmasked] at hhome
    refine ⟨hhold, ?_⟩
    cases phase with
    | holding => rfl
    | idle => exact absurd (by decide) hhome
    | waiting deadline => exact absurd (by simp [Phase.generated]) hhome
    | tapping releaseAt => exact absurd (by show 0 ||| (backFlag &&& specialFlag) = 0; decide) hhome

theorem returns_expected (config : HomeButtonConfig) (phase : Phase) (flags : UInt32) :
    Returns config phase flags (expected config phase flags) := ⟨rfl, expected_home⟩

section Machine

variable {hold now : Nat} {phase : Phase} {h : HoldToHome} {flags : UInt32}

/-- A report to a machine that is enabled. -/
theorem apply_at (hA : At hold phase.state h) (flags : UInt32) (now : Nat) :
    (h.apply flags now).1.1 = h.passthrough backFlag flags |||
        (phase.see hold (flags &&& backFlag != 0) now).generated ∧
      At hold (phase.see hold (flags &&& backFlag != 0) now).state (h.apply flags now).2 := by
  have hlast := passthrough_and_back flags h
  unfold HoldToHome.apply
  rw [hA.mask]
  dsimp only
  rw [hA.state_eq]
  cases phase with
  | idle =>
    cases hback : (flags &&& backFlag != 0) with
    | true => exact ⟨by simp [Phase.see, Phase.generated, Phase.state], rfl, hA.hold_eq,
        by simp [Phase.see, Phase.state, hA.hold_eq], fun _ _ => rfl, hlast⟩
    | false => exact ⟨by simp [Phase.see, Phase.generated, Phase.state], rfl, hA.hold_eq, rfl,
        by simp [Phase.see, Phase.state], hlast⟩
  | waiting deadline =>
    cases hback : (flags &&& backFlag != 0) with
    | true =>
      by_cases hdue : deadline ≤ now
      · simp only [Phase.state, Phase.see, hdue, if_true, Bool.not_true, Bool.false_eq_true, if_false]
        exact ⟨rfl, rfl, hA.hold_eq, rfl, by simp, hlast⟩
      · simp only [Phase.state, Phase.see, hdue, if_true, Bool.not_true, Bool.false_eq_true, if_false]
        exact ⟨by simp [Phase.generated], rfl, hA.hold_eq, rfl, fun _ _ => rfl, hlast⟩
    | false => exact ⟨rfl, rfl, hA.hold_eq, rfl, by simp [Phase.see, Phase.state], hlast⟩
  | holding =>
    cases hback : (flags &&& backFlag != 0) with
    | true => exact ⟨rfl, rfl, hA.hold_eq, rfl, by simp [Phase.see, Phase.state], hlast⟩
    | false => exact ⟨by simp [Phase.see, Phase.generated, Phase.state], rfl, hA.hold_eq, rfl,
        by simp [Phase.see, Phase.state], hlast⟩
  | tapping releaseAt =>
    by_cases hdue : releaseAt ≤ now
    · simp only [Phase.state, Phase.see, hdue, if_true]
      exact ⟨by simp [Phase.generated], rfl, hA.hold_eq, rfl, by simp, hlast⟩
    · simp only [Phase.state, Phase.see, hdue, if_false]
      exact ⟨rfl, rfl, hA.hold_eq, rfl, by simp, hlast⟩

/-- The turn of the timer. -/
theorem advance_at (hA : At hold phase.state h) (now : Nat) :
    At hold (phase.elapse now).state (h.advance now).2 := by
  unfold HoldToHome.advance
  rw [hA.mask]
  dsimp only
  rw [hA.state_eq]
  cases phase with
  | idle => exact hA
  | holding => exact hA
  | waiting deadline =>
    have hheld := hA.held deadline rfl
    by_cases hdue : deadline ≤ now
    · simp only [Phase.state, Phase.elapse, hdue, hheld, and_self, if_true]
      exact ⟨rfl, hA.hold_eq, rfl, by simp, hA.last⟩
    · simpa [Phase.state, Phase.elapse, hdue] using hA
  | tapping releaseAt =>
    by_cases hdue : releaseAt ≤ now
    · simp only [Phase.state, Phase.elapse, hdue, if_true]
      exact ⟨rfl, hA.hold_eq, rfl, by simp, hA.last⟩
    · simpa [Phase.state, Phase.elapse, hdue] using hA

end Machine

/-- The machine has the configuration, and is in the phase where the remap is enabled. -/
structure Tracks (config : GamepadConfig) (w : Watched) : Prop where
  suppress : w.machine.suppressHome = config.homeButton.suppressHome
  enabled : config.homeButton.holdMs ≠ 0 →
    At (fromMillis config.homeButton.holdMs.toNat) w.phase.state w.machine
  disabled : config.homeButton.holdMs = 0 → w.machine.sourceMask = none

section Runs

variable {config : GamepadConfig} {w w' : Watched} {e : Event}

theorem tracks_start (config : GamepadConfig) : Tracks config (.start config) where
  suppress := rfl
  enabled := at_new config
  disabled hhold := by simp [Watched.start, HoldToHome.new, hhold]

theorem advance_of_disabled {h : HoldToHome} (hmask : h.sourceMask = none) (now : Nat) :
    h.advance now = ((0, .none), h) := by
  unfold HoldToHome.advance
  rw [hmask]

theorem Tracks.step (ht : Tracks config w) (hs : Watched.step config w e = some w') : Tracks config w' := by
  cases e with
  | report flags now =>
    cases hs
    refine ⟨(configured_apply _ flags now).2.trans ht.suppress,
      fun hhold => (apply_at (ht.enabled hhold) flags now).2, fun hhold => ?_⟩
    rw [Remap.apply_of_disabled (ht.disabled hhold)]
    exact ht.disabled hhold
  | timer now =>
    cases hs
    refine ⟨(configured_advance _ now).2.trans ht.suppress, fun hhold => advance_at (ht.enabled hhold) now,
      fun hhold => ?_⟩
    rw [advance_of_disabled (ht.disabled hhold)]
    exact ht.disabled hhold

/-- An enabled remap returns what is to be returned. -/
theorem Tracks.returns (ht : Tracks config w) (hhold : config.homeButton.holdMs ≠ 0) (flags : UInt32)
    (now : Nat) :
    (w.machine.apply flags now).1.1 = expected config.homeButton
      (w.phase.see (fromMillis config.homeButton.holdMs.toNat) (flags &&& backFlag != 0) now) flags := by
  rw [(apply_at (ht.enabled hhold) flags now).1, passthrough_eq config.homeButton flags _ ht.suppress, expected,
    if_neg hhold]

/-- A disabled one returns the flags as they are. -/
theorem Tracks.returns_of_disabled (ht : Tracks config w) (hhold : config.homeButton.holdMs = 0)
    (phase : Phase) (flags : UInt32) (now : Nat) :
    Returns config.homeButton phase flags (w.machine.apply flags now).1.1 ↔
      config.homeButton.suppressHome = false ∨ flags &&& specialFlag = 0 := by
  have hexpected : expected config.homeButton phase flags = physical config.homeButton flags := if_pos hhold
  have hflags : flags = physical config.homeButton flags ↔
      config.homeButton.suppressHome = false ∨ flags &&& specialFlag = 0 := by
    unfold physical
    cases hsuppress : config.homeButton.suppressHome with
    | false => simp
    | true =>
      rw [if_pos rfl, eq_comm, and_not_eq_self_iff]
      simp
  rw [Remap.apply_of_disabled (ht.disabled hhold), ← hflags, ← hexpected]
  refine ⟨fun hr => hr.flags, fun heq => ?_⟩
  show Returns config.homeButton phase flags flags
  nth_rewrite 2 [heq]
  exact returns_expected config.homeButton phase flags

theorem Tracks.suppressed_step_iff (ht : Tracks config w) (hs : Watched.step config w e = some w') :
    Suppressed config w e w' ↔
      config.homeButton.holdMs ≠ 0 ∨ config.homeButton.suppressHome = false ∨ e.noHome := by
  cases e with
  | timer now => exact iff_of_true (fun _ _ h => by cases h) (.inr (.inr trivial))
  | report flags now =>
    cases hs
    refine Iff.trans (b := Returns config.homeButton
      (w.phase.see (fromMillis config.homeButton.holdMs.toNat) (flags &&& backFlag != 0) now) flags
      (w.machine.apply flags now).1.1) ⟨fun h => h flags now rfl, fun h _ _ he => by cases he; exact h⟩ ?_
    by_cases hhold : config.homeButton.holdMs = 0
    · rw [ht.returns_of_disabled hhold]
      simp [hhold, Event.noHome]
    · refine iff_of_true ?_ (.inl hhold)
      rw [ht.returns hhold flags now]
      exact returns_expected _ _ flags

/-- In every run of reports and turns of the timer, what `apply` returns is what is to
be returned exactly if the remap is enabled, or Home is not suppressed, or the
client never reports it. -/
theorem suppressed_iff (config : GamepadConfig) (es : List Event) :
    EveryStep (Watched.step config) (Suppressed config) (.start config) es ↔
      config.homeButton.holdMs ≠ 0 ∨ config.homeButton.suppressHome = false ∨ ∀ e ∈ es, e.noHome := by
  have htotal : ∀ (w : Watched) (e : Event), ∃ w', Watched.step config w e = some w' := by
    intro w e
    cases e <;> exact ⟨_, rfl⟩
  have hsteps : EveryStep (Watched.step config) (Suppressed config) (.start config) es ↔
      EveryStep (Watched.step config) (fun _ e _ => config.homeButton.holdMs ≠ 0 ∨
        config.homeButton.suppressHome = false ∨ e.noHome) (.start config) es := by
    refine EveryStep.iff_of_inv ?_ ?_ (tracks_start config) es
    · exact fun w e w' ht hs => ht.suppressed_step_iff hs
    · exact fun w e w' ht hs _ => ht.step hs
  rw [hsteps, everyStep_iff_forall htotal]
  by_cases hhold : config.homeButton.holdMs = 0
  · cases hsuppress : config.homeButton.suppressHome with
    | false => simp
    | true => simp [hhold]
  · simp [hhold]

/-- The remap is disabled, as by default, and Home suppressed. -/
def suppressOnly : GamepadConfig := ⟨0, 50, 0.5, true⟩

/-- The physical Home button is passed through. -/
theorem suppressOnly_passes_home :
    ¬EveryStep (Watched.step suppressOnly) (Suppressed suppressOnly) (.start suppressOnly)
      [.report specialFlag 0] := by
  intro h
  have hreturns := (h _ rfl).1 specialFlag 0 rfl
  exact absurd hreturns.flags (by decide)

end Runs

end Moonshine.Proof.Suppression
