import Mathlib.Logic.Function.Basic
import Moonshine.Impl.Stream.Context

/-!
# The session manager, `session/manager.rs`

`SessionManagerInner` behind its `tokio` mutex, with every call and watchdog
task that runs on it. A `World` is what the calls share and where each of them
stands; `step` runs one of them from one await or lock point to its next. A
step that needs the lock is enabled only while the lock is free; the lock stays
held across a step only in the two functions that await under it,
`initialize_session` and `start_session`.

What a component does of its own is an action that may come at any time: it
triggers its session's `ShutdownManager`, and the awaits on components
(`InitializedSession::new`, `launch`, `start`, `wait_shutdown_complete`) return
with the result the action names. A call may also be dropped at an await, as
the webserver does when a launch times out.
-/

namespace Moonshine.Impl.SessionManager

/-- A `ShutdownManager`, named by the order in which they were made. -/
abbrev StopId := Nat

/-- The keys watch channel of a session, likewise. -/
abbrev KeysChannel := Nat

abbrev CallId := Nat

abbrev WatchdogId := Nat

inductive SessionShutdownReason
  | managerShutdown | userStopped | applicationStopped | videoPacketHandlerStopped
  | videoEncoderStopped | audioPacketHandlerStopped | pulseServerStopped | audioEncoderStopped
  | controlStreamStopped | inputHandlerStopped | compositorStopped
  deriving DecidableEq, Repr

/-- `SessionKeys`: raw keys, or a receiver. -/
inductive SessionKeys
  | keys (data : SessionKeyData)
  | rx (channel : KeysChannel)
  deriving DecidableEq

/-- What a session keeps from `initialize_session` on, whatever its phase. -/
structure Session where
  /-- The channel of the receiver in `context.keys`. -/
  keysRx : KeysChannel
  /-- The `ShutdownManager` its components were created with. -/
  stop : StopId
  /-- Its place among the sessions ever initialized. -/
  number : Nat
  deriving DecidableEq, Repr

inductive SessionState
  | initialized (session : Session)
  | launched (launched : Session)
  | active (active : Session)
  deriving DecidableEq, Repr

def SessionState.session : SessionState → Session
  | initialized s | launched s | active s => s

/-- `SessionManagerInner`, without the configuration it only hands on. -/
structure SessionManagerInner where
  session : Option SessionState
  stop : StopId
  keysTx : Option KeysChannel
  videoStreamContext : Option VideoStreamContext
  audioStreamContext : Option AudioStreamContext
  stopWatcher : Option WatchdogId
  /-- The start notifies, named by the session whose streams they start. -/
  videoStartNotify : Option Nat
  audioStartNotify : Option Nat
  deriving DecidableEq, Repr

/-- Where a call stands. -/
inductive Call
  | notStarted
  /-- In `InitializedSession::new`, holding the lock. -/
  | initializing (keysRx : KeysChannel) (stop : StopId)
  /-- In `session.launch()`, with the session taken out of the state. -/
  | launching (session : Session)
  /-- `launch()` has returned; waiting for the lock. -/
  | launchLocking (session : Session) (ok : Bool)
  /-- Past the first lock of `start_session`, waiting for the second. -/
  | startLocking (session : Session) (video : VideoStreamContext) (audio : AudioStreamContext)
      (stop : StopId)
  /-- In `launched.start()`, holding the lock. -/
  | starting (session : Session) (video : VideoStreamContext) (audio : AudioStreamContext)
      (stop : StopId)
  /-- `stop_session` has released the lock and is about to trigger the shutdown. -/
  | stopTriggering (stop : StopId)
  /-- In `wait_for_session_shutdown`. -/
  | stopping (stop : StopId)
  | returned (ok : Bool)
  /-- The caller dropped the future, which may not have got the lock yet. -/
  | dropped

/-- The session a call has taken out of the state. -/
def Call.taken : Call → Option Session
  | launching s | launchLocking s _ | startLocking s .. | starting s .. => some s
  | _ => none

/-- Where a watchdog task stands. -/
inductive WatchState
  /-- In `select!`. -/
  | waiting
  /-- Past `select!`, in the same poll, on its way to the lock. Aborting the
  task now only takes effect when it next yields. -/
  | woken (aborted : Bool)
  /-- Suspended in `inner.lock().await`. -/
  | queued
  /-- Aborted, or past its `reset_session`: it touches the state no more. -/
  | ended
  deriving DecidableEq, Repr

structure Watchdog where
  stop : StopId
  /-- The session it was spawned for. -/
  session : Nat
  state : WatchState
  deriving DecidableEq, Repr

/-- `JoinHandle::abort`. -/
def Watchdog.abort (d : Watchdog) : Watchdog :=
  { d with state := match d.state with
    | .woken _ => .woken true
    | _ => .ended }

structure World where
  inner : SessionManagerInner
  /-- The call that holds the lock across an await. -/
  lock : Option CallId
  calls : CallId → Call
  watchdogs : WatchdogId → Option Watchdog
  /-- Why each `ShutdownManager` was triggered, if it was. -/
  triggered : StopId → Option SessionShutdownReason
  /-- The value in each keys channel. -/
  keys : KeysChannel → Option SessionKeyData
  /-- Whether the shutdown of the application was triggered. -/
  shutdown : Bool
  /-- How many sessions were initialized. -/
  initialized : Nat
  nextStop : StopId
  nextChannel : KeysChannel
  nextWatchdog : WatchdogId

/-- `SessionManager::new`. -/
def World.new : World where
  inner := ⟨none, 0, none, none, none, none, none, none⟩
  lock := none
  calls := fun _ => .notStarted
  watchdogs := fun _ => none
  triggered := fun _ => none
  keys := fun _ => none
  shutdown := false
  initialized := 0
  nextStop := 1
  nextChannel := 0
  nextWatchdog := 0

namespace World

def setCall (w : World) (c : CallId) (k : Call) : World :=
  { w with calls := Function.update w.calls c k }

def setWatchdog (w : World) (i : WatchdogId) (d : Watchdog) : World :=
  { w with watchdogs := Function.update w.watchdogs i (some d) }

/-- `trigger_shutdown`: the first trigger wins. -/
def trigger (w : World) (stop : StopId) (reason : SessionShutdownReason) : World :=
  { w with triggered := Function.update w.triggered stop ((w.triggered stop).or (some reason)) }

/-- `stop_watcher.take()`, and `abort` on the handle. -/
def abortWatcher (w : World) : World :=
  match w.inner.stopWatcher with
  | some handle =>
    { w with
      watchdogs := Function.update w.watchdogs handle ((w.watchdogs handle).map Watchdog.abort) }
  | none => w

/-- `SessionManagerInner::reset_session`. -/
def resetSession (w : World) : World :=
  { w.abortWatcher with
    inner := ⟨none, w.nextStop, none, none, none, none, none, none⟩
    nextStop := w.nextStop + 1 }

/-- `spawn_session_watchdog`, for the session just initialized. -/
def spawnSessionWatchdog (w : World) : World :=
  if w.inner.stopWatcher.isSome then w
  else
    { w with
      watchdogs := Function.update w.watchdogs w.nextWatchdog
        (some ⟨w.inner.stop, w.initialized, .waiting⟩)
      inner := { w.inner with stopWatcher := some w.nextWatchdog }
      nextWatchdog := w.nextWatchdog + 1 }

end World

/-- One move of one party, from an await or lock point to its next. -/
inductive Action
  | initializeSession (c : CallId) (keys : SessionKeys)
  | initializeReturned (c : CallId) (ok : Bool)
  | launchSession (c : CallId)
  | launchReturned (c : CallId) (ok : Bool)
  | launchLock (c : CallId)
  | setStreamContext (c : CallId) (video : VideoStreamContext) (audio : AudioStreamContext)
  | startSession (c : CallId)
  | startLock (c : CallId)
  | startReturned (c : CallId) (ok : Bool)
  | stopSession (c : CallId)
  | stopTrigger (c : CallId)
  | stopReturned (c : CallId) (complete : Bool)
  | updateKeys (c : CallId) (keys : SessionKeyData)
  | cancel (c : CallId)
  | componentTrigger (stop : StopId) (reason : SessionShutdownReason)
  | shutdownTrigger
  | watchdogWake (i : WatchdogId)
  | watchdogQueue (i : WatchdogId)
  | watchdogLock (i : WatchdogId)

namespace World

/-- The lock section of `initialize_session`, up to the await on
`InitializedSession::new`. -/
def initializeSession (w : World) (c : CallId) (keys : SessionKeys) : World :=
  if w.inner.session.isSome || w.inner.keysTx.isSome then w.setCall c (.returned false)
  else
    match keys with
    | .rx _ => w.setCall c (.returned false)
    | .keys data =>
      { w.setCall c (.initializing w.nextChannel w.inner.stop) with
        lock := some c
        keys := Function.update w.keys w.nextChannel (some data)
        nextChannel := w.nextChannel + 1 }

/-- `initialize_session` after the await. The lock is released on return. -/
def initializeReturned (w : World) (c : CallId) (keysRx : KeysChannel) (stop : StopId)
    (ok : Bool) : World :=
  if ok then
    let session : Session := ⟨keysRx, stop, w.initialized + 1⟩
    let w := { w with
      inner := { w.inner with session := some (.initialized session) }
      initialized := w.initialized + 1 }
    let w := w.spawnSessionWatchdog
    { w.setCall c (.returned true) with
      inner := { w.inner with keysTx := some keysRx }
      lock := none }
  else { w.setCall c (.returned false) with lock := none }

/-- The first lock section of `launch_session`. -/
def launchSession (w : World) (c : CallId) : World :=
  match w.inner.session with
  | some (.initialized session) =>
    { w.setCall c (.launching session) with inner := { w.inner with session := none } }
  | some (.launched _) | some (.active _) | none => w.setCall c (.returned false)

/-- The second lock section of `launch_session`. -/
def launchLock (w : World) (c : CallId) (session : Session) (ok : Bool) : World :=
  if ok then
    { w.setCall c (.returned true) with
      inner := { w.inner with session := some (.launched session) } }
  else w.resetSession.setCall c (.returned false)

def setStreamContext (w : World) (c : CallId) (video : VideoStreamContext)
    (audio : AudioStreamContext) : World :=
  match w.inner.session with
  | some (.launched _) =>
    { w.setCall c (.returned true) with
      inner := { w.inner with videoStreamContext := some video, audioStreamContext := some audio } }
  | some (.initialized _) | none => w.setCall c (.returned false)
  | some (.active _) => w.setCall c (.returned true)

/-- The first lock section of `start_session`. It takes the stream contexts
whatever the session's phase, and drops a launched session that lacks one. -/
def startSession (w : World) (c : CallId) : World :=
  let inner := { w.inner with videoStreamContext := none, audioStreamContext := none }
  match w.inner.session with
  | some (.launched launched) =>
    let call := match w.inner.videoStreamContext, w.inner.audioStreamContext with
      | some video, some audio => .startLocking launched video audio w.inner.stop
      | _, _ => .returned false
    { w.setCall c call with inner := { inner with session := none } }
  | some (.initialized _) | none => { w.setCall c (.returned false) with inner := inner }
  | some (.active _) => { w.setCall c (.returned true) with inner := inner }

/-- `start_session` after the await on `launched.start()`. -/
def startReturned (w : World) (c : CallId) (session : Session) (ok : Bool) : World :=
  if ok then
    { w.setCall c (.returned true) with
      inner := { w.inner with
        session := some (.active session)
        videoStartNotify := some session.number
        audioStartNotify := some session.number }
      lock := none }
  else { w.resetSession.setCall c (.returned false) with lock := none }

/-- The lock section of `stop_session`. -/
def stopSession (w : World) (c : CallId) : World :=
  match w.inner.session with
  | none => w.setCall c (.returned true)
  | some _ => w.resetSession.setCall c (.stopTriggering w.inner.stop)

def updateKeys (w : World) (c : CallId) (keys : SessionKeyData) : World :=
  if (w.triggered w.inner.stop).isSome then w.setCall c (.returned false)
  else
    match w.inner.session, w.inner.keysTx with
    | some (.active _), some tx =>
      { w.setCall c (.returned true) with keys := Function.update w.keys tx (some keys) }
    | _, _ => w.setCall c (.returned false)

end World

/-- The state after an action, `none` if the party is not at that point or the
lock it needs is held. -/
def step (w : World) : Action → Option World
  | .initializeSession c keys =>
    match w.lock, w.calls c with
    | none, .notStarted => some (w.initializeSession c keys)
    | _, _ => none
  | .initializeReturned c ok =>
    match w.calls c with
    | .initializing keysRx stop => some (w.initializeReturned c keysRx stop ok)
    | _ => none
  | .launchSession c =>
    match w.lock, w.calls c with
    | none, .notStarted => some (w.launchSession c)
    | _, _ => none
  | .launchReturned c ok =>
    match w.calls c with
    | .launching session => some (w.setCall c (.launchLocking session ok))
    | _ => none
  | .launchLock c =>
    match w.lock, w.calls c with
    | none, .launchLocking session ok => some (w.launchLock c session ok)
    | _, _ => none
  | .setStreamContext c video audio =>
    match w.lock, w.calls c with
    | none, .notStarted => some (w.setStreamContext c video audio)
    | _, _ => none
  | .startSession c =>
    match w.lock, w.calls c with
    | none, .notStarted => some (w.startSession c)
    | _, _ => none
  | .startLock c =>
    match w.lock, w.calls c with
    | none, .startLocking session video audio stop =>
      some { w.setCall c (.starting session video audio stop) with lock := some c }
    | _, _ => none
  | .startReturned c ok =>
    match w.calls c with
    | .starting session _ _ _ => some (w.startReturned c session ok)
    | _ => none
  | .stopSession c =>
    match w.lock, w.calls c with
    | none, .notStarted => some (w.stopSession c)
    | _, _ => none
  | .stopTrigger c =>
    match w.calls c with
    | .stopTriggering stop => some ((w.trigger stop .userStopped).setCall c (.stopping stop))
    | _ => none
  | .stopReturned c complete =>
    match w.calls c with
    | .stopping _ =>
      -- A session that does not shut down in time takes the application down.
      some { w.setCall c (.returned complete) with shutdown := w.shutdown || !complete }
    | _ => none
  | .updateKeys c keys =>
    match w.lock, w.calls c with
    | none, .notStarted => some (w.updateKeys c keys)
    | _, _ => none
  | .cancel c =>
    match w.calls c with
    | .returned _ | .dropped => none
    | _ => some { w.setCall c .dropped with lock := if w.lock = some c then none else w.lock }
  | .componentTrigger stop reason =>
    if stop < w.nextStop then some (w.trigger stop reason) else none
  | .shutdownTrigger => some { w with shutdown := true }
  | .watchdogWake i =>
    match w.watchdogs i with
    | some ⟨stop, session, .waiting⟩ =>
      if (w.triggered stop).isSome then some (w.setWatchdog i ⟨stop, session, .woken false⟩)
      else if w.shutdown then
        some ((w.trigger stop .managerShutdown).setWatchdog i ⟨stop, session, .woken false⟩)
      else none
    | _ => none
  | .watchdogQueue i =>
    match w.lock, w.watchdogs i with
    | some _, some ⟨stop, session, .woken aborted⟩ =>
      some (w.setWatchdog i ⟨stop, session, if aborted then .ended else .queued⟩)
    | _, _ => none
  | .watchdogLock i =>
    match w.lock, w.watchdogs i with
    | none, some ⟨stop, session, .woken _⟩ | none, some ⟨stop, session, .queued⟩ =>
      some (w.resetSession.setWatchdog i ⟨stop, session, .ended⟩)
    | _, _ => none

end Moonshine.Impl.SessionManager
