import Moonshine.Framework.Integers
import Moonshine.Impl.Crypto

/-!
# The audio encoder, `session/stream/audio/encoder.rs`

The loop of `AudioEncoderInner::run`. The crates for CBC and for Reed-Solomon
codes are parameters (`Crates`); what Opus makes of a frame is chosen by the
action that delivers the frame. The shards are six buffers that live as long as
the loop; the `unsafe` writes into them are splices.

The channel to the packet handler takes packets until its receiver is dropped;
`receiver` says how many it still takes.
-/

namespace Moonshine.Impl.AudioEncoder

open Moonshine.Framework

def nrDataShards : Nat := 4

def nrParityShards : Nat := 2

def maxShardSize : Nat := 2048

/-- The size of the buffer that Opus encodes into. -/
def encodedAudioSize : Nat := 1400

/-- The matrix generated by OpenFEC: a row of four for each parity shard. -/
def parityMatrix : List Byte := [0x77, 0x40, 0x38, 0x0e, 0xc7, 0xa7, 0x0d, 0x6c]

/-- The two crates, and the build. `ReedSolomon::encode_single` folds a byte of a data shard
into the byte of a parity shard; done in order for all data shards it gives the
parity, whatever was there before. -/
structure Crates extends Aes128Cbc where
  /-- Whether a sum that overflows panics, as in a debug build, or wraps. -/
  overflowChecks : Bool
  encodeSingle : (matrix : List Byte) → (data parity : Nat) → (byte into : Byte) → Byte
  parity : (matrix : List Byte) → (parity : Nat) → Byte → Byte → Byte → Byte → Byte
  encodeSingle_parity : ∀ matrix k a b c d into,
    encodeSingle matrix 3 k d (encodeSingle matrix 2 k c (encodeSingle matrix 1 k b
      (encodeSingle matrix 0 k a into))) = parity matrix k a b c d

/-- `RtpHeader`, but for its first byte. -/
def rtpHeader (packetType : Byte) (sequenceNumber : UInt16) (timestamp : UInt32) : List Byte :=
  [packetType] ++ beBytes 2 sequenceNumber.toNat ++ beBytes 4 timestamp.toNat ++ beBytes 4 0

def rtpHeaderSize : Nat := 12

/-- `AudioFecHeader`. -/
def audioFecHeader (shardIndex : Nat) (baseSequenceNumber : UInt16) (baseTimestamp : UInt32) : List Byte :=
  [UInt8.ofNat shardIndex, 97] ++ beBytes 2 baseSequenceNumber.toNat ++ beBytes 4 baseTimestamp.toNat ++
    leBytes 4 0

def audioFecHeaderSize : Nat := 12

structure State where
  /-- The value in the keys channel. -/
  keys : SessionKeyData
  sequenceNumber : UInt16
  baseSequenceNumber : UInt16
  baseTimestamp : UInt32
  shards : Nat → List Byte
  /-- `cur_input` of the `ShardByShard`. -/
  curInput : Nat
  /-- The packets that went into the channel. -/
  sent : List (List Byte)
  receiver : Option Nat
  /-- The thread has left the loop. -/
  stopped : Bool

def State.start (keys : SessionKeyData) (receiver : Option Nat) : State where
  keys := keys
  sequenceNumber := 0
  baseSequenceNumber := 0
  baseTimestamp := 0
  shards := fun _ => List.replicate maxShardSize 0
  curInput := 0
  sent := []
  receiver := receiver
  stopped := false

/-- `1000 / 90` microseconds make a tick. -/
def timestampOf (micros : Nat) : UInt32 := UInt32.ofNat (micros / (1000 / 90))

/-- The IV of a packet. The sum is one of `u32`. -/
def audioIv (overflowChecks : Bool) (keys : SessionKeyData) (sequenceNumber : UInt16) : Outcome (List Byte) := do
  let keyId := keys.remoteInputKeyId.toUInt64.toUInt32
  let iv ← if overflowChecks then checkedAdd 32 keyId.toNat sequenceNumber.toNat
    else pure (keyId + sequenceNumber.toUInt32).toNat
  return beBytes 4 iv ++ List.replicate 12 0

/-- The payload of a packet. -/
def payloadOf (x : Crates) (encrypt : Bool) (keys : SessionKeyData) (sequenceNumber : UInt16)
    (encoded : List Byte) : Outcome (List Byte) :=
  if encrypt then do
    let iv ← audioIv x.overflowChecks keys sequenceNumber
    Crypto.encryptCbc x.toAes128Cbc encoded keys.remoteInputKey iv
  else return encoded

namespace State

/-- `blocking_send`: it fails where the receiver is gone. -/
def send (s : State) (packet : List Byte) : Option State :=
  match s.receiver with
  | none => some { s with sent := s.sent ++ [packet] }
  | some 0 => none
  | some (n + 1) => some { s with sent := s.sent ++ [packet], receiver := some n }

/-- The data shard is written, and the sequence number advanced. -/
def writeDataShard (s : State) (timestamp : UInt32) (payload : List Byte) : State :=
  let index := s.sequenceNumber.toNat % nrDataShards
  let shard := splice (s.shards index) 0 ([0x80] ++ rtpHeader 97 s.sequenceNumber timestamp)
  let s := if s.sequenceNumber.toNat % nrDataShards = 0 then
      { s with baseSequenceNumber := s.sequenceNumber, baseTimestamp := timestamp }
    else s
  { s with
    sequenceNumber := s.sequenceNumber + 1
    shards := Function.update s.shards index (splice shard rtpHeaderSize payload) }

/-- `ShardByShard::encode` on the first `size` bytes of the shards. Its errors (more
calls than data shards, empty slices) are logged only. -/
def encode (x : Crates) (s : State) (size : Nat) : State :=
  if s.curInput = nrDataShards ∨ size = 0 then s
  else
    let data := (s.shards s.curInput).take size
    let shards := fun i => if nrDataShards ≤ i then
        splice (s.shards i) 0 (List.zipWith (x.encodeSingle parityMatrix s.curInput (i - nrDataShards)) data
          ((s.shards i).take size))
      else s.shards i
    { s with shards, curInput := s.curInput + 1 }

/-- The headers of a parity shard, with its payload moved back. -/
def writeParityShard (s : State) (shardIndex payloadSize : Nat) : State :=
  let shard := s.shards (nrDataShards + shardIndex)
  let shard := splice shard 1 (rtpHeader 127 (s.sequenceNumber + UInt16.ofNat shardIndex) 0)
  let shard := splice shard (rtpHeaderSize + audioFecHeaderSize) (slice shard rtpHeaderSize payloadSize)
  let shard := splice shard rtpHeaderSize (audioFecHeader shardIndex s.baseSequenceNumber s.baseTimestamp)
  { s with shards := Function.update s.shards (nrDataShards + shardIndex) shard }

/-- The loop over the parity shards, `n` from `shardIndex` on, left where the
receiver is gone. -/
def sendParityShards (payloadSize : Nat) : Nat → Nat → State → State
  | 0, _, s => s
  | n + 1, shardIndex, s =>
    let s := s.writeParityShard shardIndex payloadSize
    match s.send ((s.shards (nrDataShards + shardIndex)).take
      (rtpHeaderSize + audioFecHeaderSize + payloadSize)) with
    | some s => sendParityShards payloadSize n (shardIndex + 1) s
    | none => s

/-- The body of the loop from the payload on. -/
def sendPayload (x : Crates) (s : State) (timestamp : UInt32) (payload : List Byte) : State :=
  let index := s.sequenceNumber.toNat % nrDataShards
  let s := s.writeDataShard timestamp payload
  let dataShardSize := rtpHeaderSize + payload.length
  match s.send ((s.shards index).take dataShardSize) with
  | none => { s with stopped := true }
  | some s =>
    let s := s.encode x dataShardSize
    if s.sequenceNumber.toNat % nrDataShards = 0 then
      -- `reset`, and `reset_force` where the parity is not ready.
      if 0 < s.curInput ∧ s.curInput < nrDataShards then { s with curInput := 0 }
      else sendParityShards payload.length nrParityShards 0 { s with curInput := 0 }
    else s

end State

/-- What Opus made of a frame; it does not write past its buffer. -/
abbrev Encoded := { bytes : List Byte // bytes.length ≤ encodedAudioSize }

inductive Action
  | publishKeys (keys : SessionKeyData)
  /-- A frame, with the time since the start in microseconds, and what Opus makes of it. -/
  | frame (micros : Nat) (encoded : Option Encoded)
  /-- The shutdown was triggered, or the channel of the frames is closed. -/
  | stop

/-- The body of the loop. -/
def State.frame (x : Crates) (encrypt : Bool) (s : State) (micros : Nat) : Option Encoded → State
  | none => s
  | some encoded =>
    match payloadOf x encrypt s.keys s.sequenceNumber encoded.val with
    | .ok payload => s.sendPayload x (timestampOf micros) payload
    | .err => s
    | .panic => { s with stopped := true }

def step (x : Crates) (encrypt : Bool) (s : State) : Action → Option State
  | .publishKeys keys => some { s with keys }
  | .frame micros encoded => if s.stopped then none else some (s.frame x encrypt micros encoded)
  | .stop => if s.stopped then none else some { s with stopped := true }

end Moonshine.Impl.AudioEncoder
