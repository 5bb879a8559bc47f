import Moonshine.Impl.Control.Message

/-!
# The control loop, `run_control_loop`

What the loop does with a datagram (`receive`), and how it sends: every message
to the client takes the key published at that moment and the loop's sequence
number.
-/

namespace Moonshine.Impl.Control

open Moonshine.Framework

/-- What a message makes the loop do. -/
inductive Effect
  | requestIdrFrame
  | invalidateReferenceFrames (first last : UInt32)
  | triggerVideo
  | triggerAudio
  | extendDeadline
  | input (event : InputEvent)
  deriving DecidableEq, Repr

/-- The variables of the loop, with a record of what it did: `effects`, the
packets it `sent`, and the encryptions (`sealed`, of key and IV). -/
structure Loop where
  sequenceNumber : UInt32
  sendHdrMode : Bool
  audioTriggered : Bool
  effects : List Effect
  sent : List (List Byte)
  sealed : List (List Byte × List Byte)
  deriving DecidableEq, Repr

def Loop.start : Loop := ⟨0, false, false, [], [], []⟩

/-- Where the loop goes after its `match`. -/
inductive Flow
  | fallThrough | continue_ | break_
  deriving DecidableEq, Repr

def effect (e : Effect) : Prog Loop PUnit :=
  Prog.modify fun l => { l with effects := l.effects ++ [e] }

/-- `handle_raw_input`, whose error the loop ignores. -/
def handleRawInput (event : List Byte) : Prog Loop PUnit :=
  match InputEvent.fromBytes event with
  | .ok e => effect (.input e)
  | .err => return ⟨⟩
  | .panic => Prog.lift .panic

/-- The `StartB` arm. `hdr` is the context's flag. -/
def startStreams (hdr : Bool) : Prog Loop PUnit := do
  effect .triggerVideo
  if !(← Prog.gets Loop.audioTriggered) then
    effect .triggerAudio
    Prog.modify fun l => { l with audioTriggered := true }
  Prog.modify fun l => { l with sendHdrMode := hdr }

/-- The second `match`, on a message that is decrypted where it was encrypted. -/
def handle (hdr : Bool) : ControlMessage → Prog Loop PUnit
  | .encrypted _ => Prog.lift .panic
  | .requestIdrFrame => effect .requestIdrFrame
  | .invalidateReferenceFrames first last => effect (.invalidateReferenceFrames first last)
  | .startB => startStreams hdr
  | .ping => effect .extendDeadline
  | .inputData event => handleRawInput event
  | .terminationExtended | .rumbleData | .hdrMode | .lossStats | .frameStats | .rumbleTriggers
  | .setMotionEvent | .setRgbLed | .setTriggerEffect => return ⟨⟩

/-- The decryption of a received message under the published keys. -/
def decryptMessage (g : Aes128Gcm) (keys : SessionKeyData) (m : EncryptedControlMessage) :
    Outcome (List Byte) :=
  Crypto.decrypt g m.payload keys.remoteInputKey (clientIv m.sequenceNumber) m.tag

/-- The `Event::Receive` arm. -/
def receive (hdr : Bool) (decrypt : EncryptedControlMessage → Outcome (List Byte))
    (packet : List Byte) : Prog Loop Flow :=
  match ControlMessage.fromBytes packet with
  | .panic => Prog.lift .panic
  | .err => return .break_
  | .ok (.encrypted message) =>
    match decrypt message with
    | .panic => Prog.lift .panic
    | .err => return .continue_
    | .ok decrypted =>
      match ControlMessage.fromBytes decrypted with
      | .panic => Prog.lift .panic
      | .err => return .continue_
      | .ok message => do
        handle hdr message
        return .fallThrough
  | .ok message => do
    handle hdr message
    return .fallThrough

/-- `send_to_peer`: a message that cannot be encoded is dropped, and so is one
to a peer that is not `connected`. -/
def sendToPeer (g : Aes128Gcm) (connected : Bool) (key payload : List Byte) (l : Loop) : Loop :=
  let (packet, sealed) := encodeControl g key l.sequenceNumber payload l.sealed
  match packet with
  | .ok packet => { l with sealed, sent := if connected then l.sent ++ [packet] else l.sent }
  | _ => { l with sealed }

/-- How the loop sends a feedback message or the HDR mode: the sequence number
advances whether or not a packet went out. -/
def sendAndAdvance (g : Aes128Gcm) (connected : Bool) (key payload : List Byte) (l : Loop) : Loop :=
  { sendToPeer g connected key payload l with sequenceNumber := l.sequenceNumber + 1 }

/-- `build_termination_payload`. -/
def buildTerminationPayload (errorCode : UInt32) : List Byte :=
  leBytes 2 ControlMessageType.terminationExtended.toU16.toNat ++ leBytes 2 4 ++
    beBytes 4 errorCode.toNat

/-- What the loop sends after its end, under the next sequence number. -/
def sendTermination (g : Aes128Gcm) (connected : Bool) (key : List Byte) (l : Loop) : Loop :=
  sendToPeer g connected key (buildTerminationPayload 0x80030023) l

end Moonshine.Impl.Control
