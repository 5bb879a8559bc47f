import Moonshine.Impl.Control.Loop
import Moonshine.Impl.Video.Packetizer

/-!
# Who encrypts in a session

The host encrypts the video shards, in `packetize`, and its control messages,
in the control loop, both under the key in the watch channel that
`SessionManager::update_keys` publishes to. `World` is these three, and a step
is one of the calls.
-/

namespace Moonshine.Impl.Encryption

open Moonshine.Framework Moonshine.Impl Moonshine.Impl.Packetizer Moonshine.Impl.Control

structure World (x : Crates) where
  /-- The value in the watch channel. -/
  keys : SessionKeyData
  video : State x
  control : Loop
  /-- The control loop has sent its last message. -/
  terminated : Bool
  /-- The key each control message was built with, in order. -/
  controlKeys : List (List Byte)

/-- A session at its start. -/
def World.start (x : Crates) (keys : SessionKeyData) : World x :=
  ⟨keys, ⟨Packetizer.new x true, 0, []⟩, Loop.start, false, []⟩

/-- All encryptions, of key and IV. -/
def World.encryptions {x : Crates} (w : World x) : List (List Byte × List Byte) :=
  w.video.sealed ++ w.control.sealed

inductive Action
  | updateKeys (keys : SessionKeyData)
  | packetize (a : Args)
  | send (connected : Bool) (payload : List Byte)
  | terminate (connected : Bool)

def step {x : Crates} (w : World x) : Action → Option (World x)
  | .updateKeys keys => some { w with keys }
  | .packetize a => some { w with video := (packetize w.keys a w.video).2 }
  | .send connected payload =>
    if w.terminated then none
    else some { w with
      control := sendAndAdvance x.toAes128Gcm connected w.keys.remoteInputKey payload w.control
      controlKeys := w.controlKeys ++ [w.keys.remoteInputKey] }
  | .terminate connected =>
    if w.terminated then none
    else some { w with
      control := sendTermination x.toAes128Gcm connected w.keys.remoteInputKey w.control
      controlKeys := w.controlKeys ++ [w.keys.remoteInputKey]
      terminated := true }

end Moonshine.Impl.Encryption
