import Moonshine.Framework.Notify
import Moonshine.Impl.Control.Remap

/-!
# The gamepad handler and its timer task, `control/input/mod.rs`

`run_gamepad_handler` and `run_timer_task` share the gamepads, under a lock, and `timer_wake`.
The timer task finds the soonest deadline, waits for it or for `timer_wake`, and advances the
gamepads whose deadline has passed. An event of the handler is one step here, and so is what
the timer task does from one wait to the next.
-/

namespace Moonshine.Impl.GamepadTimer

open Moonshine.Framework Moonshine.Impl.Control

/-- Where `run_timer_task` stands. -/
inductive Timer
  /-- About to look for the soonest deadline. -/
  | top
  /-- In `select!`, with the deadline. -/
  | asleep (deadline : Option Nat)
  /-- About to advance the gamepads. -/
  | awake
  deriving DecidableEq, Repr

variable {M : NotifyModel Unit}

structure World (M : NotifyModel Unit) where
  gamepads : Gamepads
  timerWake : Notify M
  timer : Timer
  now : Nat

inductive Action
  | info (index : Byte) (created : Bool)
  | update (update : GamepadUpdate) (created : Bool)
  | tick (duration : Nat)
  | findDeadline
  /-- `timer_wake.notified()` is polled. -/
  | poll
  /-- The sleep is over. -/
  | timeout
  | advance

def World.new (now : Nat) : World M := ⟨fun _ => none, .new, .top, now⟩

/-- The soonest deadline across all gamepads. -/
def soonest (g : Gamepads) : Option Nat :=
  ((List.finRange 16).filterMap fun i => (g i).bind GamepadSlot.nextDeadline).min?

/-- The gamepad of an update, once the handler has created what it creates. -/
def hasSlot (g : Gamepads) (update : GamepadUpdate) (created : Bool) : Bool :=
  if h : update.index.toNat < 16 then
    (g ⟨update.index.toNat, h⟩).isSome || (isActive update.activeGamepadMask update.index.toNat && created)
  else false

def step (config : GamepadConfig) (w : World M) : Action → Option (World M)
  | .info index created => some { w with gamepads := handleInfo config index created w.gamepads }
  | .update update created => some { w with
      gamepads := handleUpdate config update created w.now w.gamepads
      timerWake := if hasSlot w.gamepads update created then w.timerWake.notifyOne else w.timerWake }
  | .tick duration => some { w with now := w.now + duration }
  | .findDeadline => if w.timer = .top then some { w with timer := .asleep (soonest w.gamepads) } else none
  | .poll =>
    match w.timer with
    | .asleep deadline => some { w with
        timerWake := (w.timerWake.poll ()).2
        timer := if (w.timerWake.poll ()).1 then .awake else .asleep deadline }
    | .top | .awake => none
  | .timeout =>
    match w.timer with
    | .asleep deadline =>
      if deadline.any (· ≤ w.now) then some { w with timerWake := w.timerWake.drop (), timer := .awake } else none
    | .top | .awake => none
  | .advance =>
    if w.timer = .awake then some { w with gamepads := handleTimer w.now w.gamepads, timer := .top } else none

end Moonshine.Impl.GamepadTimer
