import Moonshine.Impl.Compositor.Frame
import Moonshine.Impl.Control.Loop

/-!
# Messages to the client, `session/stream/control/feedback.rs`

The feedback commands and the HDR mode. `as_packet` writes into a zeroed array
of its size; the bounds of its writes are constants.
-/

namespace Moonshine.Impl.Control

open Moonshine.Framework

structure RumbleCommand where
  id : UInt16
  lowFrequency : UInt16
  highFrequency : UInt16
  deriving DecidableEq, Repr

structure SetLedCommand where
  id : UInt16
  rgb : Byte × Byte × Byte
  deriving DecidableEq, Repr

structure EnableMotionEventCommand where
  id : UInt16
  reportRate : UInt16
  motionType : Byte
  deriving DecidableEq, Repr

structure TriggerEffectCommand where
  id : UInt16
  triggerEventFlags : Byte
  typeLeft : Byte
  typeRight : Byte
  left : Vector Byte 10
  right : Vector Byte 10
  deriving DecidableEq, Repr

/-- A zeroed array for a header and a payload, with the header written. -/
def feedbackBuffer (t : ControlMessageType) (payloadLength : Nat) : List Byte :=
  let buffer := List.replicate (4 + payloadLength) 0
  let buffer := splice buffer 0 (leBytes 2 t.toU16.toNat)
  splice buffer 2 (leBytes 2 payloadLength)

def RumbleCommand.asPacket (c : RumbleCommand) : List Byte :=
  let buffer := feedbackBuffer .rumbleData 10
  let buffer := splice buffer 8 (leBytes 2 c.id.toNat)
  let buffer := splice buffer 10 (leBytes 2 c.lowFrequency.toNat)
  splice buffer 12 (leBytes 2 c.highFrequency.toNat)

def SetLedCommand.asPacket (c : SetLedCommand) : List Byte :=
  let buffer := feedbackBuffer .setRgbLed 5
  let buffer := splice buffer 4 (leBytes 2 c.id.toNat)
  let buffer := splice buffer 6 [c.rgb.1]
  let buffer := splice buffer 7 [c.rgb.2.1]
  splice buffer 8 [c.rgb.2.2]

def EnableMotionEventCommand.asPacket (c : EnableMotionEventCommand) : List Byte :=
  let buffer := feedbackBuffer .setMotionEvent 5
  let buffer := splice buffer 4 (leBytes 2 c.id.toNat)
  let buffer := splice buffer 6 (leBytes 2 c.reportRate.toNat)
  splice buffer 8 [c.motionType]

def TriggerEffectCommand.asPacket (c : TriggerEffectCommand) : List Byte :=
  let buffer := feedbackBuffer .setTriggerEffect 25
  let buffer := splice buffer 4 (leBytes 2 c.id.toNat)
  let buffer := splice buffer 6 [c.triggerEventFlags]
  let buffer := splice buffer 7 [c.typeLeft]
  let buffer := splice buffer 8 [c.typeRight]
  let buffer := splice buffer 9 c.left.toList
  splice buffer 19 c.right.toList

inductive FeedbackCommand
  | rumble (command : RumbleCommand)
  | setLed (command : SetLedCommand)
  | enableMotionEvent (command : EnableMotionEventCommand)
  | triggerEffect (command : TriggerEffectCommand)
  deriving DecidableEq, Repr

def FeedbackCommand.asPacket : FeedbackCommand → List Byte
  | rumble command => command.asPacket
  | setLed command => command.asPacket
  | enableMotionEvent command => command.asPacket
  | triggerEffect command => command.asPacket

/-- `x.min(u16::MAX as u32) as u16`. -/
def saturate (x : UInt32) : UInt16 := (min x 65535).toUInt16

/-- The metadata of an HDR mode message. The last six bytes are the luminance
of a full frame, which is not known, and padding. -/
def hdrMetadataBytes : Option HdrMetadata → List Byte
  | some m =>
    m.displayPrimaries.toList.flatMap (fun p => leBytes 2 p.1.toNat ++ leBytes 2 p.2.toNat) ++
      (leBytes 2 m.whitePoint.1.toNat ++ leBytes 2 m.whitePoint.2.toNat) ++
      leBytes 2 (saturate (m.maxLuminance / 10000)).toNat ++ leBytes 2 (saturate m.minLuminance).toNat ++
      leBytes 2 m.maxCll.toNat ++ leBytes 2 m.maxFall.toNat ++ leBytes 2 0 ++ [0, 0, 0, 0]
  | none => List.replicate 30 0

def buildHdrModePayload (enabled : Bool) (metadata : Option HdrMetadata) : List Byte :=
  leBytes 2 ControlMessageType.hdrMode.toU16.toNat ++ leBytes 2 31 ++ [if enabled then 1 else 0] ++
    hdrMetadataBytes metadata

/-- `send_hdr_state`. -/
def sendHdrState (g : Aes128Gcm) (connected : Bool) (state : HdrModeState) (key : List Byte) (l : Loop) :
    Loop :=
  let metadata := if state.enabled then some (state.metadata.getD HdrMetadata.fallback) else none
  sendAndAdvance g connected key (buildHdrModePayload state.enabled metadata) l

end Moonshine.Impl.Control
