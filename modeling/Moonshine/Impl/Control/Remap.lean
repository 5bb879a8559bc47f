import Mathlib.Logic.Function.Basic
import Moonshine.Impl.Control.Feedback
import Moonshine.Impl.Control.Input

/-!
# Hold to Home, `control/input/remap.rs` and `control/input/mod.rs`

The state machine that remaps a held Back button to Home, the slot that gives
what it returns to a virtual gamepad, the handler of the gamepad events with its
timer task. Instants and durations are in nanoseconds. Of a virtual gamepad the
buttons are kept; the events about sticks, touch, motion and battery do not change
them and are left out.
-/

namespace Moonshine.Impl.Control

open Moonshine.Framework Moonshine.Impl

structure HomeButtonConfig where
  holdMs : UInt64
  rumbleDurationMs : UInt64
  rumbleIntensity : Float
  suppressHome : Bool

structure GamepadConfig where
  homeButton : HomeButtonConfig

/-- `Duration::from_millis`. -/
def fromMillis (ms : Nat) : Nat := ms * 1000000

inductive HoldTransition
  | none
  | homeActivated
  deriving DecidableEq, Repr

/-- `BACK_FLAG`. -/
def backFlag : UInt32 := 0x0020

/-- `SPECIAL_FLAG`, the Home button. -/
def specialFlag : UInt32 := 0x0400

/-- `TAP_DURATION`. -/
def tapDuration : Nat := fromMillis 100

inductive HoldState
  | inactive
  | pending (deadline : Nat)
  | homeHeld
  | tapping (releaseAt : Nat)
  deriving DecidableEq, Repr

structure HoldToHome where
  /-- `none` where the remap is disabled. -/
  sourceMask : Option UInt32
  hold : Nat
  state : HoldState
  sourcePressed : Bool
  suppressHome : Bool
  lastPassthrough : UInt32
  deriving DecidableEq, Repr

namespace HoldToHome

def new (config : GamepadConfig) : HoldToHome where
  sourceMask := if config.homeButton.holdMs ≠ 0 then some backFlag else none
  hold := fromMillis config.homeButton.holdMs.toNat
  state := .inactive
  sourcePressed := false
  suppressHome := config.homeButton.suppressHome
  lastPassthrough := 0

/-- The flags without the source button, and without Home where it is suppressed. -/
def passthrough (sourceMask flags : UInt32) (h : HoldToHome) : UInt32 :=
  if h.suppressHome then flags &&& ~~~sourceMask &&& ~~~specialFlag else flags &&& ~~~sourceMask

/-- `apply`: what is to be applied to the gamepad, and the machine after it. -/
def apply (flags : UInt32) (now : Nat) (h : HoldToHome) : (UInt32 × HoldTransition) × HoldToHome :=
  match h.sourceMask with
  | none => ((flags, .none), h)
  | some sourceMask =>
    let sourcePressed := flags &&& sourceMask != 0
    let passthrough := h.passthrough sourceMask flags
    let h := { h with sourcePressed, lastPassthrough := passthrough }
    match h.state with
    | .inactive =>
      ((passthrough, .none), if sourcePressed then { h with state := .pending (now + h.hold) } else h)
    | .pending deadline =>
      if !sourcePressed then
        ((passthrough ||| sourceMask, .none), { h with state := .tapping (now + tapDuration) })
      else if now ≥ deadline then
        ((passthrough ||| specialFlag, .homeActivated), { h with state := .homeHeld })
      else ((passthrough, .none), h)
    | .homeHeld =>
      if sourcePressed then ((passthrough ||| specialFlag, .none), h)
      else ((passthrough, .none), { h with state := .inactive })
    | .tapping releaseAt =>
      if now ≥ releaseAt then ((passthrough, .none), { h with state := .inactive })
      else ((passthrough ||| sourceMask, .none), h)

def advance (now : Nat) (h : HoldToHome) : (UInt32 × HoldTransition) × HoldToHome :=
  match h.sourceMask with
  | none => ((0, .none), h)
  | some sourceMask =>
    match h.state with
    | .pending deadline =>
      if now ≥ deadline ∧ h.sourcePressed then
        ((h.lastPassthrough ||| specialFlag, .homeActivated), { h with state := .homeHeld })
      else ((0, .none), h)
    | .tapping releaseAt =>
      if now ≥ releaseAt then ((h.lastPassthrough, .none), { h with state := .inactive })
      else ((h.lastPassthrough ||| sourceMask, .none), h)
    | .inactive | .homeHeld => ((0, .none), h)

def nextDeadline (h : HoldToHome) : Option Nat :=
  match h.state with
  | .pending deadline => some deadline
  | .tapping releaseAt => some releaseAt
  | .inactive | .homeHeld => none

end HoldToHome

/-- The virtual gamepad: the buttons that `set_pressed` was last given. -/
structure Gamepad where
  pressed : UInt32
  deriving DecidableEq, Repr

structure GamepadSlot where
  gamepad : Gamepad
  remap : HoldToHome
  index : Byte
  homeRumbleIntensity : Float
  homeRumbleDuration : Nat
  homeRumbleOffAt : Option Nat
  /-- What was sent to the client. -/
  feedback : List RumbleCommand

namespace GamepadSlot

def new (index : Byte) (config : GamepadConfig) : GamepadSlot where
  gamepad := ⟨0⟩
  remap := .new config
  index
  homeRumbleIntensity := config.homeButton.rumbleIntensity
  homeRumbleDuration := fromMillis config.homeButton.rumbleDurationMs.toNat
  homeRumbleOffAt := none
  feedback := []

def sendRumble (lowFrequency highFrequency : UInt16) (s : GamepadSlot) : GamepadSlot :=
  { s with feedback := s.feedback ++ [⟨s.index.toUInt16, lowFrequency, highFrequency⟩] }

def checkRumble (now : Nat) (s : GamepadSlot) : GamepadSlot :=
  match s.homeRumbleOffAt with
  | some offAt => if now ≥ offAt then { s.sendRumble 0 0 with homeRumbleOffAt := none } else s
  | none => s

def maybeFireRumble (transition : HoldTransition) (now : Nat) (s : GamepadSlot) : GamepadSlot :=
  if transition = .homeActivated ∧ s.homeRumbleOffAt.isNone ∧ s.homeRumbleIntensity > 0 ∧
      s.homeRumbleDuration ≠ 0 then
    let intensity := (s.homeRumbleIntensity * 65535).toUInt16
    { s.sendRumble intensity intensity with homeRumbleOffAt := some (now + s.homeRumbleDuration) }
  else s

/-- `set_pressed` of the gamepad. -/
def setPressed (flags : UInt32) (s : GamepadSlot) : GamepadSlot := { s with gamepad := ⟨flags⟩ }

def applyButtons (flags : UInt32) (now : Nat) (s : GamepadSlot) : GamepadSlot :=
  let ((remapped, transition), remap) := s.remap.apply flags now
  (({ s with remap }.setPressed remapped).checkRumble now).maybeFireRumble transition now

def advance (now : Nat) (s : GamepadSlot) : GamepadSlot :=
  let s := s.checkRumble now
  let ((remapped, transition), remap) := s.remap.advance now
  ({ s with remap }.setPressed remapped).maybeFireRumble transition now

/-- The deadline of the remap or of the rumble, the sooner. -/
def nextDeadline (s : GamepadSlot) : Option Nat :=
  match s.remap.nextDeadline, s.homeRumbleOffAt with
  | some a, some b => some (min a b)
  | some a, none => some a
  | none, some b => some b
  | none, none => none

/-- The deadline has passed. -/
def isDue (now : Nat) (s : GamepadSlot) : Bool := s.nextDeadline.any fun d => now ≥ d

end GamepadSlot

abbrev Gamepads := Fin 16 → Option GamepadSlot

inductive GamepadAction
  /-- A `GamepadInfo`; `created` where the virtual gamepad can be made. -/
  | info (index : Byte) (created : Bool)
  | update (update : GamepadUpdate) (created : Bool) (now : Nat)
  /-- The timer task wakes up, for whatever reason. -/
  | timer (now : Nat)

/-- The mask has the gamepad. -/
def isActive (mask : UInt16) (i : Nat) : Bool := mask &&& (1 <<< UInt16.ofNat i) != 0

def create (config : GamepadConfig) (i : Fin 16) (g : Gamepads) : Gamepads :=
  Function.update g i (some (.new (UInt8.ofNat i) config))

/-- `run_gamepad_handler`, on a `GamepadInfo`. -/
def handleInfo (config : GamepadConfig) (index : Byte) (created : Bool) (g : Gamepads) : Gamepads :=
  if h : index.toNat < 16 then
    if (g ⟨index.toNat, h⟩).isNone ∧ created then create config ⟨index.toNat, h⟩ g else g
  else g

/-- `run_gamepad_handler`, on a `GamepadUpdate`: an unknown gamepad that is active is
created, and gamepads that are no longer active are dropped. -/
def handleUpdate (config : GamepadConfig) (update : GamepadUpdate) (created : Bool) (now : Nat)
    (g : Gamepads) : Gamepads :=
  if h : update.index.toNat < 16 then
    let idx : Fin 16 := ⟨update.index.toNat, h⟩
    let g := if (g idx).isNone ∧ isActive update.activeGamepadMask idx ∧ created then create config idx g
      else g
    let g := Function.update g idx ((g idx).map (GamepadSlot.applyButtons update.buttonFlags now))
    fun i => if isActive update.activeGamepadMask i then g i else none
  else g

/-- `run_timer_task`, one turn of the loop. -/
def handleTimer (now : Nat) (g : Gamepads) : Gamepads :=
  fun i => (g i).map fun slot => if slot.isDue now then slot.advance now else slot

def handleGamepad (config : GamepadConfig) (g : Gamepads) : GamepadAction → Gamepads
  | .info index created => handleInfo config index created g
  | .update update created now => handleUpdate config update created now g
  | .timer now => handleTimer now g

end Moonshine.Impl.Control
