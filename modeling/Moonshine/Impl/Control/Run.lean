import Moonshine.Impl.Control.Feedback

/-!
# Runs of the control loop

`run_control_loop` between the other parties: ENet hands it events from any
peer, the session manager publishes keys, the video pipeline publishes the HDR
mode, and the input devices queue feedback. A step of the loop takes it from one
place where it looks at what they share to the next. Times are in milliseconds.
-/

namespace Moonshine.Impl.ControlLoop

open Moonshine.Framework Moonshine.Impl.Control

abbrev PeerId := Nat

/-- `tokio_enet::Event`. -/
inductive Event
  | connect (peerId : PeerId)
  | disconnect (peerId : PeerId)
  | receive (peerId : PeerId) (packet : List Byte)
  deriving DecidableEq, Repr

/-- Where the loop stands. -/
inductive Point
  /-- At the condition of the loop. -/
  | top
  /-- In `host.service()`. -/
  | service
  /-- At the two places that send the HDR mode. -/
  | initialHdr | hdrUpdate
  /-- Behind the loop. -/
  | leaving
  | ended | panicked
  deriving DecidableEq, Repr

/-- The parameters of the loop. -/
structure Context where
  gcm : Aes128Gcm
  /-- In seconds. -/
  streamTimeout : Nat
  hdr : Bool

/-- The loop, with what it shares with the other parties. -/
structure World where
  loop : Loop
  point : Point
  stopDeadline : Nat
  connectedPeer : Option PeerId
  now : Nat
  /-- The value in the keys channel. -/
  keys : SessionKeyData
  /-- The queue behind `feedback_rx`. -/
  feedback : List FeedbackCommand
  /-- The value in the channel of the HDR mode, and whether it is news to the loop. -/
  hdrState : HdrModeState
  hdrChanged : Bool
  hdrClosed : Bool
  /-- The shutdown of the session was triggered. -/
  shutdown : Bool

inductive Action
  | publishKeys (keys : SessionKeyData)
  | publishHdr (state : HdrModeState)
  | closeHdr
  | queueFeedback (command : FeedbackCommand)
  | tick (duration : Nat)
  | triggerShutdown
  /-- A step of the loop; the flag says whether the peer it sends to is connected. -/
  | top (connected : Bool)
  | serviced (event : Option Event)
  | serviceFailed
  | initialHdr (connected : Bool)
  | hdrUpdate (connected : Bool)
  | leave (connected : Bool)

namespace World

variable (c : Context)

def start (keys : SessionKeyData) (hdrState : HdrModeState) (now : Nat) : World where
  loop := Loop.start
  point := .top
  stopDeadline := now + 1000 * c.streamTimeout
  connectedPeer := none
  now := now
  keys := keys
  feedback := []
  hdrState := hdrState
  hdrChanged := false
  hdrClosed := false
  shutdown := false

/-- The loop up to `host.service()`. -/
def atTop (connected : Bool) (w : World) : World :=
  if w.shutdown || w.stopDeadline < w.now then { w with point := .leaving }
  else
    match w.feedback with
    | [] => { w with point := .service }
    | command :: feedback =>
      let w := { w with feedback, point := .service }
      if w.connectedPeer.isSome then
        { w with loop := sendAndAdvance c.gcm connected w.keys.remoteInputKey command.asPacket w.loop }
      else w

/-- The deadline after a message. -/
def deadline (w : World) (effects : List Effect) : Nat :=
  if .extendDeadline ∈ effects then w.now + 1000 * c.streamTimeout else w.stopDeadline

/-- Where the loop goes from the `Event::Receive` arm. The shutdown token is
dropped in a panic, too. -/
def follow (w : World) : Outcome Flow → World
  | .ok .fallThrough => { w with point := .initialHdr }
  | .ok .continue_ => { w with point := .top }
  | .ok .break_ => { w with point := .leaving }
  | .err | .panic => { w with point := .panicked, shutdown := true }

/-- The `Event::Receive` arm. -/
def onReceive (packet : List Byte) (w : World) : World :=
  let (result, loop) := receive c.hdr (decryptMessage c.gcm w.keys) packet w.loop
  { w with loop, stopDeadline := w.deadline c (loop.effects.drop w.loop.effects.length) }.follow result

def onEvent (w : World) : Option Event → World
  | some (.connect peerId) => { w with connectedPeer := some peerId, point := .initialHdr }
  | some (.disconnect peerId) =>
    { w with
      connectedPeer := if w.connectedPeer = some peerId then none else w.connectedPeer
      point := .initialHdr }
  | some (.receive _ packet) => w.onReceive c packet
  | none => { w with point := .initialHdr }

/-- `send_hdr_state`, with the mode that is now seen. -/
def sendHdr (connected : Bool) (w : World) : World :=
  { w with
    loop := sendHdrState c.gcm connected w.hdrState w.keys.remoteInputKey w.loop
    hdrChanged := false }

def atInitialHdr (connected : Bool) (w : World) : World :=
  let w := { w with point := .hdrUpdate }
  if w.loop.sendHdrMode then
    let w := { w with loop := { w.loop with sendHdrMode := false } }
    if w.connectedPeer.isSome then w.sendHdr c connected else w
  else w

def atHdrUpdate (connected : Bool) (w : World) : World :=
  let w := { w with point := .top }
  if c.hdr && (!w.hdrClosed && w.hdrChanged) && w.connectedPeer.isSome then w.sendHdr c connected else w

/-- Behind the loop; the shutdown token is dropped at the end. -/
def atLeaving (connected : Bool) (w : World) : World :=
  let w := { w with point := .ended, shutdown := true }
  if w.connectedPeer.isSome then
    { w with loop := sendTermination c.gcm connected w.keys.remoteInputKey w.loop }
  else w

end World

def step (c : Context) (w : World) : Action → Option World
  | .publishKeys keys => some { w with keys }
  | .publishHdr hdrState => if w.hdrClosed then none else some { w with hdrState, hdrChanged := true }
  | .closeHdr => some { w with hdrClosed := true }
  | .queueFeedback command => some { w with feedback := w.feedback ++ [command] }
  | .tick duration => some { w with now := w.now + duration }
  | .triggerShutdown => some { w with shutdown := true }
  | .top connected => if w.point = .top then some (w.atTop c connected) else none
  | .serviced event => if w.point = .service then some (w.onEvent c event) else none
  | .serviceFailed => if w.point = .service then some { w with point := .leaving } else none
  | .initialHdr connected => if w.point = .initialHdr then some (w.atInitialHdr c connected) else none
  | .hdrUpdate connected => if w.point = .hdrUpdate then some (w.atHdrUpdate c connected) else none
  | .leave connected => if w.point = .leaving then some (w.atLeaving c connected) else none

end Moonshine.Impl.ControlLoop
