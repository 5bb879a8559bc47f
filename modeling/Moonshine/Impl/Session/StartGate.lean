import Mathlib.Logic.Function.Basic
import Moonshine.Framework.Notify

/-!
# The start of a stream, `stream/audio/mod.rs` and `stream/video/mod.rs`

`start` of a stream spawns its packet handler, with the socket, and its encoder (for video the
pipeline). Both wait for the `Notify` that `trigger` calls `notify_one` on twice, the encoder
only until the shutdown of the session is triggered. The two streams do the same here, and
`Gate` is either of them.

`Stream` follows the socket through the sessions: it is bound with a session, goes to the
packet handler of the stream that starts, and is closed when that ends.
-/

namespace Moonshine.Impl.StartGate

open Moonshine.Framework

inductive Task
  | packetHandler | encoder
  deriving DecidableEq, Repr

inductive Stage
  /-- Not polled yet. -/
  | spawned
  /-- Has been polled before the gate. -/
  | waiting
  /-- Past the gate. -/
  | running
  | ended
  deriving DecidableEq, Repr

variable {M : NotifyModel Task}

structure Gate (M : NotifyModel Task) where
  startNotify : Notify M
  stage : Task → Stage
  /-- Whether shutdown has been triggered. -/
  stop : Bool

namespace Gate

def new : Gate M := ⟨.new, fun _ => .spawned, false⟩

def Before (g : Gate M) (t : Task) : Prop := g.stage t = .spawned ∨ g.stage t = .waiting

instance (g : Gate M) (t : Task) : Decidable (g.Before t) := inferInstanceAs (Decidable (_ ∨ _))

end Gate

inductive Action
  /-- A task is polled at `start_notify.notified()`. -/
  | poll (t : Task)
  /-- One of the two calls of a `trigger`. -/
  | notifyOne
  | triggerShutdown
  /-- `wrap_cancel` ends the wait of the encoder. -/
  | cancel
  /-- A task past the gate comes to its end. -/
  | finish (t : Task)
  deriving DecidableEq, Repr

def step (g : Gate M) : Action → Option (Gate M)
  | .poll t =>
    if g.Before t then
      let polled := g.startNotify.poll t
      some { g with
        startNotify := polled.2
        stage := Function.update g.stage t (if polled.1 then .running else .waiting) }
    else none
  | .notifyOne => some { g with startNotify := g.startNotify.notifyOne }
  | .triggerShutdown => some { g with stop := true }
  | .cancel =>
    if g.stop ∧ g.Before .encoder then
      some { g with startNotify := g.startNotify.drop .encoder, stage := Function.update g.stage .encoder .ended }
    else none
  | .finish t =>
    if g.stage t = .running then some { g with stage := Function.update g.stage t .ended } else none

/-- How far the session of the manager is with its stream. -/
inductive Phase
  /-- The session has the socket. -/
  | bound
  | started
  deriving DecidableEq, Repr

structure Stream (M : NotifyModel Task) where
  phase : Option Phase
  /-- Of the last session that has started its streams. -/
  gate : Option (Gate M)
  /-- Whether somebody has a handle to call `trigger` on. -/
  held : Bool

inductive StreamAction
  /-- Fails if the port is in use. -/
  | initializeSession
  | startSession
  | resetSession
  /-- The last handle is dropped, with the control stream. -/
  | dropHandles
  | gate (a : Action)
  deriving DecidableEq, Repr

namespace Stream

def new : Stream M := ⟨none, none, false⟩

/-- Whether a socket can be bound to the port. -/
def PortFree (s : Stream M) : Prop :=
  s.phase ≠ some .bound ∧ ∀ g ∈ s.gate, g.stage .packetHandler = .ended

instance (s : Stream M) : Decidable s.PortFree :=
  match h : s.gate with
  | none => decidable_of_iff (s.phase ≠ some .bound) (by simp [PortFree, h])
  | some g => decidable_of_iff (s.phase ≠ some .bound ∧ g.stage .packetHandler = .ended) (by simp [PortFree, h])

def step (s : Stream M) : StreamAction → Option (Stream M)
  | .initializeSession =>
    if s.phase = none then some (if s.PortFree then ⟨some .bound, none, false⟩ else s) else none
  | .startSession => if s.phase = some .bound then some ⟨some .started, some .new, true⟩ else none
  | .resetSession => if s.phase = none then none else some { s with phase := none }
  | .dropHandles => if s.phase = none then some { s with held := false } else none
  | .gate a =>
    if a = .notifyOne ∧ ¬ s.held then none
    else
      match s.gate with
      | some g => (StartGate.step g a).map fun g => { s with gate := some g }
      | none => none

end Stream

end Moonshine.Impl.StartGate
