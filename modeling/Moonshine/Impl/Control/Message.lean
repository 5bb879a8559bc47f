import Moonshine.Impl.Control.Input
import Moonshine.Impl.Crypto

/-!
# Control messages, `session/stream/control/mod.rs`

`ControlMessage::from_bytes`, and the encrypted messages that `encode_control`
builds for the client.
-/

namespace Moonshine.Impl.Control

open Moonshine.Framework

def encryptionTagLength : Nat := 16

/-- Sequence number, tag and control message id. -/
def minimumEncryptedLength : Nat := 4 + encryptionTagLength + 4

inductive ControlMessageType
  | encrypted | terminationExtended | rumbleData | hdrMode | ping | lossStats | frameStats
  | inputData | requestIdrFrame | invalidateReferenceFrames | startB | rumbleTriggers
  | setMotionEvent | setRgbLed | setTriggerEffect
  deriving DecidableEq, Repr

namespace ControlMessageType

def toU16 : ControlMessageType → UInt16
  | encrypted => 0x0001
  | terminationExtended => 0x0109
  | rumbleData => 0x010b
  | hdrMode => 0x010e
  | ping => 0x0200
  | lossStats => 0x0201
  | frameStats => 0x0204
  | inputData => 0x0206
  | requestIdrFrame => 0x0302
  | invalidateReferenceFrames => 0x0301
  | startB => 0x0307
  | rumbleTriggers => 0x5500
  | setMotionEvent => 0x5501
  | setRgbLed => 0x5502
  | setTriggerEffect => 0x5503

def all : List ControlMessageType :=
  [encrypted, terminationExtended, rumbleData, hdrMode, ping, lossStats, frameStats, inputData,
    requestIdrFrame, invalidateReferenceFrames, startB, rumbleTriggers, setMotionEvent, setRgbLed,
    setTriggerEffect]

/-- `TryFrom<u16>`: the arms in order. -/
def tryFrom (v : UInt16) : Option ControlMessageType := all.find? fun t => v == t.toU16

end ControlMessageType

structure EncryptedControlMessage where
  length : UInt16
  sequenceNumber : UInt32
  tag : List Byte
  payload : List Byte
  deriving DecidableEq, Repr

inductive ControlMessage
  | encrypted (message : EncryptedControlMessage)
  | terminationExtended | rumbleData | hdrMode | ping | lossStats | frameStats
  | inputData (event : List Byte)
  | requestIdrFrame
  | invalidateReferenceFrames (first last : UInt32)
  | startB | rumbleTriggers | setMotionEvent | setRgbLed | setTriggerEffect
  deriving DecidableEq, Repr

/-- The `Encrypted` arm of `from_bytes`. -/
def parseEncrypted (buffer : List Byte) : Outcome ControlMessage :=
  if buffer.length < minimumEncryptedLength then .err
  else do
    let length ← le16At buffer 2
    if length.toNat < minimumEncryptedLength then .err
    else
      let sequenceNumber ← le32At buffer 4
      let tag ← readAt buffer 8 encryptionTagLength
      let payload ← readAt buffer (8 + encryptionTagLength)
        (buffer.length - (8 + encryptionTagLength))
      return .encrypted { length, sequenceNumber, tag, payload }

/-- The `InputData` arm. -/
def parseInputData (buffer : List Byte) : Outcome ControlMessage := do
  let length ← be32At buffer 4
  if length.toNat ≠ buffer.length - 8 then .err
  else return .inputData (← readAt buffer 8 (buffer.length - 8))

/-- The `InvalidateReferenceFrames` arm: a short body invalidates everything. -/
def parseInvalidateReferenceFrames (buffer : List Byte) : Outcome ControlMessage :=
  if buffer.length ≥ 16 then do
    return .invalidateReferenceFrames (← le32At buffer 4) (← le32At buffer 12)
  else .ok (.invalidateReferenceFrames 0 (UInt32.ofNat (2 ^ 32 - 1)))

/-- The arms of `from_bytes`, once the type of the message is known. -/
def ControlMessage.parse (buffer : List Byte) : ControlMessageType → Outcome ControlMessage
  | .encrypted => parseEncrypted buffer
  | .ping => return .ping
  | .terminationExtended => return .terminationExtended
  | .rumbleData => return .rumbleData
  | .lossStats => return .lossStats
  | .frameStats => return .frameStats
  | .inputData => parseInputData buffer
  | .invalidateReferenceFrames => parseInvalidateReferenceFrames buffer
  | .requestIdrFrame => return .requestIdrFrame
  | .startB => return .startB
  | .hdrMode => return .hdrMode
  | .rumbleTriggers => return .rumbleTriggers
  | .setMotionEvent => return .setMotionEvent
  | .setRgbLed => return .setRgbLed
  | .setTriggerEffect => return .setTriggerEffect

def ControlMessage.fromBytes (buffer : List Byte) : Outcome ControlMessage :=
  if buffer.length < 4 then .err
  else do
    let length ← le16At buffer 2
    if length.toNat ≠ buffer.length - 4 then .err
    else
      let messageType ← Outcome.ofOption (ControlMessageType.tryFrom (← le16At buffer 0))
      ControlMessage.parse buffer messageType

def EncryptedControlMessage.asBytes (m : EncryptedControlMessage) : List Byte :=
  leBytes 2 ControlMessageType.encrypted.toU16.toNat ++ leBytes 2 m.length.toNat ++
    leBytes 4 m.sequenceNumber.toNat ++ m.tag ++ m.payload

/-- The IV of a control message: the sequence number, and in bytes 10 and 11
who sent it, `H` or `C`, and `C`. -/
def controlIv (sequenceNumber : UInt32) (sender : Byte) : List Byte :=
  leBytes 4 sequenceNumber.toNat ++ [0, 0, 0, 0, 0, 0] ++ [sender, 0x43]

/-- The IV of `encode_control`. -/
def hostIv (sequenceNumber : UInt32) : List Byte := controlIv sequenceNumber 0x48

/-- The IV the host decrypts the client's messages with. -/
def clientIv (sequenceNumber : UInt32) : List Byte := controlIv sequenceNumber 0x43

/-- `encode_control`. The state is the record of the encryptions, of key and IV. -/
def encodeControl (g : Aes128Gcm) (key : List Byte) (sequenceNumber : UInt32)
    (payload : List Byte) : Prog (List (List Byte × List Byte)) (List Byte) :=
  if key.length ≠ 16 then Prog.lift .err
  else do
    Prog.modify (· ++ [(key, hostIv sequenceNumber)])
    let sealed ← Crypto.encrypt g payload key (hostIv sequenceNumber)
    if sealed.1.isEmpty then Prog.lift .err
    else
      let message : EncryptedControlMessage :=
        { length := 4 + 16 + UInt16.ofNat sealed.1.length
          sequenceNumber := sequenceNumber
          tag := sealed.2
          payload := sealed.1 }
      return message.asBytes

end Moonshine.Impl.Control
