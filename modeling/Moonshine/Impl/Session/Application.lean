/-!
# The application's unit, `session/application.rs`

`Application::spawn` starts the application as a transient unit of systemd, looks for a while
whether it exits at once, and leaves a monitor behind that stops the session when the unit comes
to its end. Unit and bus are the environment here: systemd answers calls and sends signals, which
wait in a stream from its subscription on. A step of the task runs from one of its awaits to the next.
-/

namespace Moonshine.Impl.Application

/-- `zvariant::Value`, as far as it matters. -/
inductive Value
  | str (s : String)
  | other
  deriving DecidableEq, Repr

structure PropertiesChanged where
  interface : String
  /-- `changed.get(ACTIVE_STATE_PROPERTY)`. -/
  activeState : Option Value
  deriving DecidableEq, Repr

/-- What a stream of signals gives. -/
inductive Item (α : Type)
  | body (a : α)
  /-- Its body does not deserialize. -/
  | malformed
  /-- The end of the stream, or an error of the connection. -/
  | broken
  deriving DecidableEq, Repr

def unitInterface : String := "org.freedesktop.systemd1.Unit"

def terminalState (state : String) : Option String :=
  if state = "inactive" then some "inactive" else if state = "failed" then some "failed" else none

/-- From the reply to the call of `Get`, if it has not failed. -/
def currentUnitState : Option Value → Option String
  | none => none
  | some (.str state) => some state
  | some .other => some "unknown"

/-- The terminal state in a signal, if there is one. -/
def PropertiesChanged.terminal (p : PropertiesChanged) : Option String :=
  if p.interface ≠ unitInterface then none
  else match p.activeState with
    | some (.str state) => terminalState state
    | _ => none

inductive Phase
  -- `start_transient_service`.
  | starting
  /-- In `wait_for_job_signal`. -/
  | launching
  | gettingUnit
  | checking
  | subscribing
  /-- In the launch timeout. -/
  | settling
  -- `wait_for_unit_terminal_state`.
  | monitoring
  /-- Subscribed to `UnitRemoved`. -/
  | removedSubscribed
  /-- Subscribed to the state, too. -/
  | stateSubscribed
  /-- `Get` is answered, or has failed. -/
  | asked (reply : Option Value)
  | watching
  -- The ends.
  | launchFailed
  | exitNoticed
  /-- The monitor has stopped unexpectedly. -/
  | monitorFailed
  /-- Shutdown was triggered before the monitor has noticed anything, or the application is dropped. -/
  | monitorStopped
  deriving DecidableEq, Repr

structure World where
  /-- The `ActiveState` of the unit, while it is loaded. -/
  unit : Option String
  /-- What waits in `state_stream`, once there is one. -/
  stateStream : Option (List (Item PropertiesChanged))
  unitRemovedStream : Option (List (Item String))
  phase : Phase
  /-- Whether the shutdown of the session is triggered. -/
  shutdown : Bool

/-- A leftover unit may still be there. -/
def World.start (leftover : Option String) : World := ⟨leftover, none, none, .starting, false⟩

/-- Whether the unit is in a terminal state or gone. -/
def World.Ended (w : World) : Prop := ∀ state, w.unit = some state → (terminalState state).isSome

inductive Action
  -- systemd and the bus.
  | setActiveState (state : String)
  /-- Any other change of properties. -/
  | properties (p : PropertiesChanged)
  | unload
  | unloadOther (id : String)
  | stateFails (item : Item PropertiesChanged)
  | unitRemovedFails (item : Item String)
  | triggerShutdown
  -- The task, with the answers it gets.
  | startTransientUnit (active : Option String)
  | jobRemoved (done : Bool)
  | getUnit (answered : Bool)
  | check (answered : Bool)
  | subscribe (ok : Bool)
  | launchTimeout
  | subscribeUnitRemoved (ok : Bool)
  | subscribeState (ok : Bool)
  | get (answered : Bool)
  | reply
  | nextState
  | nextUnitRemoved
  | stopMonitor
  /-- The application is dropped. -/
  | abort
  deriving DecidableEq, Repr

/-- A subscribed stream gets a signal. -/
def World.sendState (w : World) (item : Item PropertiesChanged) : World :=
  { w with stateStream := w.stateStream.map (· ++ [item]) }

def World.sendUnitRemoved (w : World) (item : Item String) : World :=
  { w with unitRemovedStream := w.unitRemovedStream.map (· ++ [item]) }

/-- What systemd answers to `Get`. -/
def World.answer (w : World) (answered : Bool) : Option Value :=
  if answered then w.unit.map .str else none

/-- The unit has come to its end: `stop.trigger_shutdown(ApplicationStopped)`. -/
def World.notice (w : World) : World := { w with phase := .exitNoticed, shutdown := true }

/-- A signal of the unit during the launch timeout. -/
def World.settle (w : World) : Item PropertiesChanged → World
  | .broken => { w with phase := .monitoring, stateStream := none }
  | .malformed => { w with phase := .launchFailed }
  | .body p => if p.terminal.isSome then { w with phase := .launchFailed } else w

/-- A signal of the unit, for the monitor. -/
def World.watchState (w : World) : Item PropertiesChanged → World
  | .broken | .malformed => { w with phase := .monitorFailed }
  | .body p => if p.terminal.isSome then w.notice else w

def World.watchUnitRemoved (w : World) (unitName : String) : Item String → World
  | .broken | .malformed => { w with phase := .monitorFailed }
  | .body id => if id = unitName then w.notice else w

def step (unitName : String) (w : World) : Action → Option World
  | .setActiveState state => match w.unit with
    | some _ => some ({ w with unit := some state }.sendState (.body ⟨unitInterface, some (.str state)⟩))
    | none => none
  | .properties p => match w.unit with
    | some state =>
      if p.interface = unitInterface → ∀ value ∈ p.activeState, value = .str state then some (w.sendState (.body p))
      else none
    | none => none
  | .unload => match w.unit with
    | some _ => some ({ w with unit := none }.sendUnitRemoved (.body unitName))
    | none => none
  | .unloadOther id => if id ≠ unitName then some (w.sendUnitRemoved (.body id)) else none
  | .stateFails item => match item with
    | .body _ => none
    | _ => some (w.sendState item)
  | .unitRemovedFails item => match item with
    | .body _ => none
    | _ => some (w.sendUnitRemoved item)
  | .triggerShutdown => some { w with shutdown := true }
  | .startTransientUnit active => match w.phase, active with
    | .starting, none => some { w with phase := .launchFailed }
    | .starting, some state =>
      -- systemd refuses a unit whose name is in use.
      if w.unit = none then some { w with unit := some state, phase := .launching } else none
    | _, _ => none
  | .jobRemoved done => match w.phase with
    | .launching => some { w with phase := if done then .gettingUnit else .launchFailed }
    | _ => none
  | .getUnit answered => match w.phase with
    | .gettingUnit => some { w with phase := if answered ∧ w.unit.isSome then .checking else .launchFailed }
    | _ => none
  | .check answered => match w.phase with
    | .checking => match currentUnitState (w.answer answered) with
      | none => some { w with phase := .launchFailed }
      | some state => some { w with phase := if (terminalState state).isSome then .launchFailed else .subscribing }
    | _ => none
  | .subscribe ok => match w.phase with
    | .subscribing => some (if ok then { w with phase := .settling, stateStream := some [] }
        else { w with phase := .launchFailed })
    | _ => none
  | .launchTimeout => match w.phase with
    | .settling => some { w with phase := .monitoring, stateStream := none }
    | _ => none
  | .subscribeUnitRemoved ok => match w.phase with
    | .monitoring => some (if ok then { w with phase := .removedSubscribed, unitRemovedStream := some [] }
        else { w with phase := .monitorFailed })
    | _ => none
  | .subscribeState ok => match w.phase with
    | .removedSubscribed => some (if ok then { w with phase := .stateSubscribed, stateStream := some [] }
        else { w with phase := .monitorFailed })
    | _ => none
  | .get answered => match w.phase with
    | .stateSubscribed => some { w with phase := .asked (w.answer answered) }
    | _ => none
  | .reply => match w.phase with
    | .asked reply => match currentUnitState reply with
      | none => some w.notice
      | some state => some (if (terminalState state).isSome then w.notice else { w with phase := .watching })
    | _ => none
  | .nextState => match w.phase, w.stateStream with
    | .settling, some (item :: items) => some ({ w with stateStream := some items }.settle item)
    | .watching, some (item :: items) => some ({ w with stateStream := some items }.watchState item)
    | _, _ => none
  | .nextUnitRemoved => match w.phase, w.unitRemovedStream with
    | .watching, some (item :: items) =>
      some ({ w with unitRemovedStream := some items }.watchUnitRemoved unitName item)
    | _, _ => none
  | .stopMonitor => match w.phase with
    | .monitoring | .removedSubscribed | .stateSubscribed | .asked _ | .watching =>
      if w.shutdown then some { w with phase := .monitorStopped } else none
    | _ => none
  | .abort => match w.phase with
    | .monitoring | .removedSubscribed | .stateSubscribed | .asked _ | .watching =>
      some { w with phase := .monitorStopped }
    | _ => none

end Moonshine.Impl.Application
