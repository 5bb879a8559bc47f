import Mathlib.Logic.Function.Basic
import Moonshine.Impl.Crypto
import Moonshine.Impl.Video.ShardBatch

/-!
# The packetizer, `session/stream/video/packetizer.rs`

`Packetizer::packetize` with all it writes. The two crates it calls, the
Reed-Solomon encoder and AES-128-GCM, are parameters (`Crates`).

Counters have the width they have in the source and wrap, as in a release
build; a `usize` is a natural number, with the subtractions, divisions and
allocations that can fail checked. The packetizer and the caller's sequence
counter keep their changes when `packetize` returns an error. Besides them the
state records which key and IV each encryption was called with.
-/

namespace Moonshine.Impl

open Moonshine.Framework

namespace Packetizer

/-- The two crates. An encoder is indexed by its numbers of data and parity
shards; it overwrites the parity slices only, and no slice changes its length. -/
structure Crates extends Aes128Gcm where
  ReedSolomon : Nat → Nat → Type
  /-- `ReedSolomon::new`. -/
  reedSolomonNew : (d p : Nat) → Option (ReedSolomon d p)
  /-- `ReedSolomon::encode`: the slices afterwards. -/
  encode : {d p : Nat} → ReedSolomon d p → List (List Byte) → Option (List (List Byte))
  encode_length : ∀ {d p} (r : ReedSolomon d p) slices out, encode r slices = some out →
    out.map List.length = slices.map List.length
  encode_data : ∀ {d p} (r : ReedSolomon d p) slices out, encode r slices = some out →
    out.take d = slices.take d

def maxShards : Nat := 255

def nvVideoPacketSize : Nat := 16

def rtpHeaderSize : Nat := 12

def paddingSize : Nat := 4

def nvPacketOffset : Nat := rtpHeaderSize + paddingSize

def payloadOffset : Nat := nvPacketOffset + nvVideoPacketSize

def encPrefixSize : Nat := 12 + 4 + 16

inductive RtpFlag
  | containsPicData | endOfFrame | startOfFrame

def RtpFlag.toByte : RtpFlag → Byte
  | containsPicData => 0x1
  | endOfFrame => 0x2
  | startOfFrame => 0x4

structure VideoFrameHeader where
  headerType : Byte
  frameProcessingLatency : UInt16
  frameType : Byte
  lastPayloadLen : UInt32
  deriving DecidableEq, Repr

def videoFrameHeaderSize : Nat := 8

/-- `VideoFrameHeader::serialize`, into a fresh `[u8; 8]`. -/
def VideoFrameHeader.serialize (h : VideoFrameHeader) : List Byte :=
  [h.headerType] ++ leBytes 2 h.frameProcessingLatency.toNat ++ [h.frameType] ++
    leBytes 4 h.lastPayloadLen.toNat

def writeRtpHeader (buf : List Byte) (sequenceNumber : UInt16) (timestamp : UInt32) :
    Outcome (List Byte) := do
  let buf ← writeAt buf 0 [0x90]
  let buf ← writeAt buf 1 [0]
  let buf ← writeAt buf 2 (beBytes 2 sequenceNumber.toNat)
  let buf ← writeAt buf 4 (beBytes 4 timestamp.toNat)
  writeAt buf 8 (beBytes 4 0)

def writeNvVideoPacket (buf : List Byte) (streamPacketIndex frameIndex : UInt32)
    (flags multiFecBlocks : Byte) (fecInfo : UInt32) : Outcome (List Byte) := do
  let buf ← writeAt buf 0 (leBytes 4 streamPacketIndex.toNat)
  let buf ← writeAt buf 4 (leBytes 4 frameIndex.toNat)
  let buf ← writeAt buf 8 [flags]
  let buf ← writeAt buf 9 [0]
  let buf ← writeAt buf 10 [0x10]
  let buf ← writeAt buf 11 [multiFecBlocks]
  writeAt buf 12 (leBytes 4 fecInfo.toNat)

/-- A `usize` subtraction. One that underflows panics, at the latest when the
slice it sizes is taken. -/
def checkedSub (a b : Nat) : Outcome Nat := if b ≤ a then .ok (a - b) else .panic

def copyHeaderAndData (dst header encodedData : List Byte) (offset len : Nat) :
    Outcome (List Byte) := do
  let total := videoFrameHeaderSize + encodedData.length
  let last := min (offset + len) total
  if offset < videoFrameHeaderSize then
    let headerEnd := min videoFrameHeaderSize last
    let n ← checkedSub headerEnd offset
    let part ← readAt header offset n
    let dst ← writeAt dst 0 part
    if last > videoFrameHeaderSize then
      let part ← readAt encodedData 0 (last - videoFrameHeaderSize)
      writeAt dst n part
    else return dst
  else
    let dataStart := offset - videoFrameHeaderSize
    let dataEnd ← checkedSub last videoFrameHeaderSize
    let n ← checkedSub dataEnd dataStart
    let part ← readAt encodedData dataStart n
    writeAt dst 0 part

end Packetizer

/-- `Packetizer`, with the key its cipher was made of for the cipher. -/
structure Packetizer (x : Packetizer.Crates) where
  fecEncoders : (d p : Nat) → Option (x.ReedSolomon d p)
  encrypt : Bool
  cipher : Option (List Byte)
  lastKeyId : Int64
  gcmIvCounter : UInt64
  /-- Without encryption there is never a cipher. -/
  cipher_off : encrypt = false → cipher = none

namespace Packetizer

def new (x : Crates) (encrypt : Bool) : Packetizer x where
  fecEncoders := fun _ _ => none
  encrypt := encrypt
  cipher := none
  lastKeyId := Int64.minValue
  gcmIvCounter := 0
  cipher_off := fun _ => rfl

variable {x : Crates}

/-- `maybe_update_cipher`, with the keys in the watch channel. -/
def maybeUpdateCipher (p : Packetizer x) (keys : SessionKeyData) : Packetizer x :=
  if h : p.encrypt = false then p
  else if keys.remoteInputKeyId = p.lastKeyId then p
  else if keys.remoteInputKey.length ≠ 16 then
    { p with lastKeyId := keys.remoteInputKeyId, cipher := none, cipher_off := fun _ => rfl }
  else
    { p with
      lastKeyId := keys.remoteInputKeyId
      cipher := some keys.remoteInputKey
      gcmIvCounter := 0
      cipher_off := fun he => absurd he h }

/-- What `packetize` changes: the packetizer and the caller's sequence counter.
`sealed` is the record of the encryptions, of key and IV. -/
structure State (x : Crates) where
  packetizer : Packetizer x
  sequenceNumber : UInt32
  sealed : List (List Byte × List Byte)

/-- `*sequence_number += 1`. -/
def State.nextSequence (s : State x) : State x :=
  { s with sequenceNumber := s.sequenceNumber + 1 }

def getFecEncoder (nrDataShards nrParityShards : Nat) :
    Prog (State x) (x.ReedSolomon nrDataShards nrParityShards) := do
  match ← Prog.gets fun s => s.packetizer.fecEncoders nrDataShards nrParityShards with
  | some encoder => return encoder
  | none =>
    let encoder ← Outcome.ofOption (x.reedSolomonNew nrDataShards nrParityShards)
    Prog.modify fun s =>
      { s with
        packetizer :=
          { s.packetizer with
            fecEncoders := Function.update s.packetizer.fecEncoders nrDataShards
              (Function.update (s.packetizer.fecEncoders nrDataShards) nrParityShards encoder) } }
    return encoder

/-- `nr_parity_shards_per_block`. -/
def nrParityShardsPerBlock (fecPercentage : Byte) : Nat :=
  maxShards * fecPercentage.toNat / (100 + fecPercentage.toNat)

def nrDataShardsPerBlock (fecPercentage : Byte) : Nat :=
  maxShards - nrParityShardsPerBlock fecPercentage

/-- `nr_parity_shards` of a block. -/
def nrParityShards (nrDataShards : Nat) (fecPercentage : Byte) (minimumFecPackets : UInt32) : Nat :=
  min (max (nrDataShards * fecPercentage.toNat / 100) minimumFecPackets.toNat)
    (maxShards - nrDataShards)

/-- `warm_up`: a size whose encoder cannot be made is passed over. -/
def warmUp (p : Packetizer x) (fecPercentage : Byte) (minimumFecPackets : UInt32) :
    Packetizer x :=
  (List.range' 1 (nrDataShardsPerBlock fecPercentage)).foldl (fun p nrDataShards =>
    let nrParityShards := nrParityShards nrDataShards fecPercentage minimumFecPackets
    if nrParityShards > 0 then
      (getFecEncoder nrDataShards nrParityShards ⟨p, 0, []⟩).2.packetizer
    else p) p

/-- The locals of `packetize` that its loops read. -/
structure Frame where
  encodedData : List Byte
  headerBytes : List Byte
  requestedShardPayloadSize : Nat
  packetDataLen : Nat
  requestedShardSize : Nat
  prefixSize : Nat
  nrDataShards : Nat
  minimumFecPackets : UInt32
  fecPercentage : Byte
  frameNumber : UInt32
  rtpTimestamp : UInt32
  lastBlockIndex : Byte

/-- `fec_info` of the shard at `index` of its block. -/
def fecInfo (index nrDataShards fecPercentage : Nat) : UInt32 :=
  UInt32.ofNat (index <<< 12 ||| nrDataShards <<< 22 ||| fecPercentage <<< 4)

/-- `multi_fec_blocks`. -/
def multiFecBlocks (f : Frame) (blockIndex : Nat) : Byte :=
  (UInt8.ofNat blockIndex <<< 4) ||| f.lastBlockIndex

/-- The flags of the data shard at `index` of its block. -/
def flags (index nrDataShards : Nat) : Byte :=
  let flags := RtpFlag.containsPicData.toByte
  let flags := if index = 0 then flags ||| RtpFlag.startOfFrame.toByte else flags
  if index = nrDataShards - 1 then flags ||| RtpFlag.endOfFrame.toByte else flags

/-- The data shard at `index` of its block, `dataShardIndex` of the frame. -/
def writeDataShard (f : Frame) (blockIndex nrDataShards fecPercentage index dataShardIndex : Nat)
    (sequenceNumber : UInt32) (shard : List Byte) : Outcome (List Byte) := do
  let payloadStart := dataShardIndex * f.requestedShardPayloadSize
  let rest ← checkedSub f.packetDataLen payloadStart
  let payloadLen := min f.requestedShardPayloadSize rest
  let shard ← writeRtpHeader shard sequenceNumber.toUInt16 f.rtpTimestamp
  let shard ← onSlice shard nvPacketOffset nvVideoPacketSize fun nv =>
    writeNvVideoPacket nv (sequenceNumber <<< 8) f.frameNumber (flags index nrDataShards)
      (multiFecBlocks f blockIndex) (fecInfo index nrDataShards fecPercentage)
  onSlice shard payloadOffset (shard.length - payloadOffset) fun dst =>
    copyHeaderAndData dst f.headerBytes f.encodedData payloadStart payloadLen

/-- A loop over the `n` shards from `index` on, each of which takes the next
sequence number. -/
def eachShard (body : Nat → UInt32 → List Byte → Outcome (List Byte)) :
    Nat → Nat → ShardBuf → Prog (State x) ShardBuf
  | 0, _, buf => return buf
  | n + 1, index, buf => do
    let sequenceNumber ← Prog.gets State.sequenceNumber
    let buf ← buf.shardMut index (body index sequenceNumber)
    Prog.modify State.nextSequence
    eachShard body n (index + 1) buf

/-- The loop over the data shards. -/
def writeDataShards (f : Frame) (blockIndex start nrDataShards fecPercentage : Nat)
    (buf : ShardBuf) : Prog (State x) ShardBuf :=
  eachShard (fun index => writeDataShard f blockIndex nrDataShards fecPercentage index (start + index))
    nrDataShards 0 buf

/-- The headers of a parity shard, over what the encoder computed. -/
def patchParityShard (f : Frame) (blockIndex nrDataShards fecPercentage index : Nat)
    (sequenceNumber : UInt32) (shard : List Byte) : Outcome (List Byte) := do
  let shard ← writeAt shard 0 [0x90]
  let shard ← writeAt shard 1 [0]
  let shard ← writeAt shard 2 (beBytes 2 sequenceNumber.toUInt16.toNat)
  onSlice shard nvPacketOffset nvVideoPacketSize fun nv => do
    let nv ← writeAt nv 4 (leBytes 4 f.frameNumber.toNat)
    let nv ← writeAt nv 11 [multiFecBlocks f blockIndex]
    writeAt nv 12 (leBytes 4 (fecInfo index nrDataShards fecPercentage).toNat)

/-- The loop over the parity shards. -/
def patchParityShards (f : Frame) (blockIndex nrDataShards nrParityShards fecPercentage : Nat)
    (buf : ShardBuf) : Prog (State x) ShardBuf :=
  eachShard (patchParityShard f blockIndex nrDataShards fecPercentage) nrParityShards nrDataShards buf

/-- Bytes 0 to 8 are the counter, byte 11 is `V`. -/
def videoIv (counter : UInt64) : List Byte := leBytes 8 counter.toNat ++ [0, 0, 0, 0x56]

/-- The loop that encrypts the shards, the `n` from `index` on. -/
def encryptShards (frameNumber : UInt32) (cipher : List Byte) :
    Nat → Nat → ShardBuf → Prog (State x) ShardBuf
  | 0, _, buf => return buf
  | n + 1, index, buf => do
    let iv ← Prog.gets fun s => videoIv s.packetizer.gcmIvCounter
    Prog.modify fun s =>
      { s with
        packetizer := { s.packetizer with gcmIvCounter := s.packetizer.gcmIvCounter + 1 } }
    let data ← readAt buf.data (index * buf.stride + buf.prefixSize) buf.dataSize
    Prog.modify fun s => { s with sealed := s.sealed ++ [(cipher, iv)] }
    let sealed ← Outcome.ofOption (x.encryptInPlaceDetached cipher iv data)
    let buf ← buf.shardMut index fun _ => pure sealed.1
    let buf ← buf.prefixMut index fun pre => do
      let pre ← writeAt pre 0 iv
      let pre ← writeAt pre 12 (leBytes 4 frameNumber.toNat)
      writeAt pre 16 sealed.2
    encryptShards frameNumber cipher n (index + 1) buf

/-- The data shards of the block, from `start` to the second component. -/
def blockRange (f : Frame) (blockIndex : Nat) : Nat × Nat :=
  let perBlock := nrDataShardsPerBlock f.fecPercentage
  (blockIndex * perBlock,
    if blockIndex = 3 then f.nrDataShards else min ((blockIndex + 1) * perBlock) f.nrDataShards)

/-- `encoder` of a block. -/
def blockEncoder (nrDataShards nrParityShards : Nat) :
    Prog (State x) (Option (x.ReedSolomon nrDataShards nrParityShards)) :=
  if nrParityShards > 0 then do
    let encoder ← getFecEncoder nrDataShards nrParityShards
    return some encoder
  else return none

/-- The FEC encoding of a block, where it has an encoder. -/
def writeParityShards (f : Frame) (blockIndex fecPercentage : Nat) {nrDataShards nrParityShards : Nat}
    (encoder : Option (x.ReedSolomon nrDataShards nrParityShards)) (buf : ShardBuf) :
    Prog (State x) ShardBuf :=
  match encoder with
  | none => return buf
  | some encoder => do
    let fecSlices ← Outcome.ofOption (x.encode encoder buf.asFecSlices)
    patchParityShards f blockIndex nrDataShards nrParityShards fecPercentage
      (buf.setFecSlices 0 fecSlices)

/-- The body of the loop over the blocks, up to the encryption. -/
def fillBlock (f : Frame) (blockIndex : Nat) : Prog (State x) ShardBuf := do
  let start := (blockRange f blockIndex).1
  let nrDataShards ← checkedSub (blockRange f blockIndex).2 start
  if nrDataShards = 0 then Prog.lift .panic
  else
    let nrParityShards := nrParityShards nrDataShards f.fecPercentage f.minimumFecPackets
    let encoder ← blockEncoder nrDataShards nrParityShards
    let fecPercentage := nrParityShards * 100 / nrDataShards
    let buf ← ShardBuf.new (nrDataShards + nrParityShards) f.requestedShardSize f.prefixSize
    let buf ← writeDataShards f blockIndex start nrDataShards fecPercentage buf
    writeParityShards f blockIndex fecPercentage encoder buf

/-- The body of the loop over the blocks. -/
def block (f : Frame) (blockIndex : Nat) (allShards : ShardBatch) :
    Prog (State x) ShardBatch := do
  let buf ← fillBlock f blockIndex
  let cipher ← Prog.gets fun s => s.packetizer.cipher
  let buf ← match cipher with
    | some cipher => encryptShards f.frameNumber cipher buf.shardCount 0 buf
    | none => pure buf
  return allShards.extendFrom buf.intoBatch

/-- The loop over the blocks, left after the fourth. -/
def blocks (f : Frame) : Nat → Nat → ShardBatch → Prog (State x) ShardBatch
  | 0, _, allShards => return allShards
  | n + 1, blockIndex, allShards => do
    let allShards ← block f blockIndex allShards
    if blockIndex = 3 then return allShards
    else blocks f n (blockIndex + 1) allShards

/-- The arguments of `packetize`, but for the sequence counter. -/
structure Args where
  encodedData : List Byte
  isKeyFrame : Bool
  requestedPacketSize : Nat
  minimumFecPackets : UInt32
  fecPercentage : Byte
  frameNumber : UInt32
  rtpTimestamp : UInt32
  frameProcessingLatency : UInt16

/-- `last_shard_size`. -/
def lastShardSize (packetDataLen requestedShardPayloadSize : Nat) : Nat :=
  let lastShardSize := packetDataLen % requestedShardPayloadSize
  if lastShardSize = 0 then requestedShardPayloadSize else lastShardSize

def nrBlocks (f : Frame) : Nat :=
  (f.nrDataShards - 1) / nrDataShardsPerBlock f.fecPercentage + 1

/-- `video_frame_header`. -/
def Args.videoFrameHeader (a : Args) : VideoFrameHeader where
  headerType := 0x01
  frameProcessingLatency := a.frameProcessingLatency
  frameType := if a.isKeyFrame then 2 else 1
  lastPayloadLen := UInt32.ofNat
    (lastShardSize (videoFrameHeaderSize + a.encodedData.length)
      (a.requestedPacketSize - nvVideoPacketSize))

/-- The locals, once the shard size is known to be positive. -/
def Args.frame (a : Args) (encrypted : Bool) : Frame :=
  let requestedShardPayloadSize := a.requestedPacketSize - nvVideoPacketSize
  let packetDataLen := videoFrameHeaderSize + a.encodedData.length
  let nrDataShards := (packetDataLen + requestedShardPayloadSize - 1) / requestedShardPayloadSize
  let nrBlocks := (nrDataShards - 1) / nrDataShardsPerBlock a.fecPercentage + 1
  { encodedData := a.encodedData
    headerBytes := a.videoFrameHeader.serialize
    requestedShardPayloadSize := requestedShardPayloadSize
    packetDataLen := packetDataLen
    requestedShardSize := payloadOffset + requestedShardPayloadSize
    prefixSize := if encrypted then encPrefixSize else 0
    nrDataShards := nrDataShards
    minimumFecPackets := a.minimumFecPackets
    fecPercentage := a.fecPercentage
    frameNumber := a.frameNumber
    rtpTimestamp := a.rtpTimestamp
    lastBlockIndex := (UInt8.ofNat (min nrBlocks 4) - 1) <<< 6 }

/-- `Packetizer::packetize`, with the keys in the watch channel. -/
def packetize (keys : SessionKeyData) (a : Args) : Prog (State x) ShardBatch := do
  Prog.modify fun s => { s with packetizer := s.packetizer.maybeUpdateCipher keys }
  let requestedShardPayloadSize ← checkedSub a.requestedPacketSize nvVideoPacketSize
  if requestedShardPayloadSize = 0 then Prog.lift .panic
  else
    let encrypted ← Prog.gets fun s => s.packetizer.cipher.isSome
    let f := a.frame encrypted
    if f.nrDataShards = 0 then Prog.lift .panic
    else blocks f (nrBlocks f) 0 ShardBatch.empty

end Packetizer

end Moonshine.Impl
