import Moonshine.Impl.Video.Packetizer

/-!
# What the packetizer writes into a shard

The header writers and the copy of the payload, each as the bytes it leaves
behind. A data shard is its RTP header, the padding, its `NvVideoPacket` and
its payload (`dataShard`); a parity shard is what the encoder computed with the
patched bytes in place (`parityShard`).
-/

namespace Moonshine.Proof.Packetizer

open Moonshine.Framework Moonshine.Impl Moonshine.Impl.Packetizer

def rtpHeader (sequenceNumber : UInt16) (timestamp : UInt32) : List Byte :=
  [0x90, 0] ++ beBytes 2 sequenceNumber.toNat ++ beBytes 4 timestamp.toNat ++ beBytes 4 0

def nvVideoPacket (streamPacketIndex frameIndex : UInt32) (flags multiFecBlocks : Byte)
    (fecInfo : UInt32) : List Byte :=
  leBytes 4 streamPacketIndex.toNat ++ leBytes 4 frameIndex.toNat ++
    [flags, 0, 0x10, multiFecBlocks] ++ leBytes 4 fecInfo.toNat

@[simp] theorem length_rtpHeader (q : UInt16) (ts : UInt32) : (rtpHeader q ts).length = 12 := by
  simp [rtpHeader]

@[simp] theorem length_nvVideoPacket (spi fi : UInt32) (fl m : Byte) (fec : UInt32) :
    (nvVideoPacket spi fi fl m fec).length = 16 := by
  simp [nvVideoPacket]

theorem length_serialize (h : VideoFrameHeader) : h.serialize.length = 8 := by
  simp [VideoFrameHeader.serialize]

theorem writeRtpHeader_eq {buf : List Byte} (h : 12 ≤ buf.length) (q : UInt16) (ts : UInt32) :
    writeRtpHeader buf q ts = .ok (rtpHeader q ts ++ buf.drop 12) := by
  have hw := @writeAt_append Byte
  unfold writeRtpHeader
  rw [writeAt_zero (by simp; omega), Outcome.ok_bind, hw (by simp) (by simp; omega), Outcome.ok_bind,
    hw (by simp) (by simp; omega), Outcome.ok_bind, hw (by simp) (by simp; omega), Outcome.ok_bind,
    hw (by simp) (by simp; omega)]
  simp [rtpHeader]

theorem writeNvVideoPacket_eq {buf : List Byte} (h : buf.length = 16) (spi fi : UInt32)
    (fl m : Byte) (fec : UInt32) :
    writeNvVideoPacket buf spi fi fl m fec = .ok (nvVideoPacket spi fi fl m fec) := by
  have hw := @writeAt_append Byte
  unfold writeNvVideoPacket
  rw [writeAt_zero (by simp; omega), Outcome.ok_bind, hw (by simp) (by simp; omega),
    Outcome.ok_bind, hw (by simp) (by simp; omega), Outcome.ok_bind, hw (by simp) (by simp; omega),
    Outcome.ok_bind, hw (by simp) (by simp; omega), Outcome.ok_bind, hw (by simp) (by simp; omega),
    Outcome.ok_bind, hw (by simp) (by simp; omega)]
  simp [nvVideoPacket, h]

theorem checkedSub_of_le {a b : Nat} (h : b ≤ a) : checkedSub a b = .ok (a - b) := if_pos h

/-- The copy puts the range of the header followed by the data at the front of
the destination. -/
theorem copyHeaderAndData_eq {dst header encodedData : List Byte} {offset len : Nat}
    (hh : header.length = 8) (ho : offset + len ≤ 8 + encodedData.length) (hd : len ≤ dst.length) :
    copyHeaderAndData dst header encodedData offset len =
      .ok (slice (header ++ encodedData) offset len ++ dst.drop len) := by
  unfold copyHeaderAndData videoFrameHeaderSize
  dsimp only
  rw [Nat.min_eq_left ho]
  by_cases h8 : offset < 8
  · rw [if_pos h8, checkedSub_of_le (by omega), Outcome.ok_bind, readAt_of_le (by omega),
      Outcome.ok_bind]
    have hl : (slice header offset (min 8 (offset + len) - offset)).length =
        min 8 (offset + len) - offset := length_slice (by omega)
    rw [writeAt_zero (by omega), Outcome.ok_bind, hl]
    by_cases hlast : offset + len > 8
    · -- The range goes on past the header: the rest comes from the front of the data.
      have hl' : (slice encodedData 0 (offset + len - 8)).length = offset + len - 8 :=
        length_slice (by omega)
      rw [if_pos hlast, readAt_of_le (by omega), Outcome.ok_bind,
        writeAt_append hl.symm (by rw [hl', List.length_drop]; omega), hl', List.drop_drop,
        show min 8 (offset + len) = 8 by omega, show 8 - offset + (offset + len - 8) = len by omega]
      congr 2
      rw [show len = (8 - offset) + (offset + len - 8) by omega, ← slice_append_slice,
        slice_append_left (by omega), slice_append_right (by omega), hh,
        show offset + (8 - offset) - 8 = 0 by omega,
        show offset + (8 - offset + (offset + len - 8)) - 8 = offset + len - 8 by omega]
    · rw [if_neg hlast, show min 8 (offset + len) - offset = len by omega,
        slice_append_left (by omega)]
      rfl
  · rw [if_neg h8, checkedSub_of_le (by omega), Outcome.ok_bind, checkedSub_of_le (by omega),
      Outcome.ok_bind, show offset + len - 8 - (offset - 8) = len by omega,
      readAt_of_le (by omega), Outcome.ok_bind, slice_append_right (by omega), hh]
    have hl : (slice encodedData (offset - 8) len).length = len := length_slice (by omega)
    rw [writeAt_zero (by omega), hl]

/-- What the locals of `packetize` satisfy. -/
structure Valid (f : Frame) : Prop where
  headerBytes : f.headerBytes.length = 8
  payloadSize : 0 < f.requestedShardPayloadSize
  packetDataLen : f.packetDataLen = 8 + f.encodedData.length
  shardSize : f.requestedShardSize = 32 + f.requestedShardPayloadSize
  nrDataShards : f.nrDataShards =
    (f.packetDataLen + f.requestedShardPayloadSize - 1) / f.requestedShardPayloadSize
  lastBlockIndex : f.lastBlockIndex = (UInt8.ofNat (min (nrBlocks f) 4) - 1) <<< 6

/-- The header and the data, which the payloads carry. -/
def stream (f : Frame) : List Byte := f.headerBytes ++ f.encodedData

/-- The `j`th payload: its part of the stream, zero padded. -/
def payload (f : Frame) (j : Nat) : List Byte :=
  let part := slice (stream f) (j * f.requestedShardPayloadSize) f.requestedShardPayloadSize
  part ++ List.replicate (f.requestedShardPayloadSize - part.length) 0

theorem length_payload (f : Frame) (j : Nat) :
    (payload f j).length = f.requestedShardPayloadSize := by
  rw [payload, List.length_append, List.length_replicate]
  have : (slice (stream f) (j * f.requestedShardPayloadSize) f.requestedShardPayloadSize).length ≤
      f.requestedShardPayloadSize := List.length_take_le _ _
  omega

theorem Valid.length_stream {f : Frame} (h : Valid f) : (stream f).length = f.packetDataLen := by
  rw [stream, List.length_append, h.headerBytes, h.packetDataLen]

/-- The data shard at `index` of its block, `j` of the frame. -/
def dataShard (f : Frame) (blockIndex nrDataShards fecPercentage index j : Nat)
    (sequenceNumber : UInt32) : List Byte :=
  rtpHeader sequenceNumber.toUInt16 f.rtpTimestamp ++ List.replicate 4 (0 : Byte) ++
    nvVideoPacket (sequenceNumber <<< 8) f.frameNumber (flags index nrDataShards)
      (multiFecBlocks f blockIndex) (fecInfo index nrDataShards fecPercentage) ++ payload f j

theorem length_dataShard {f : Frame} (h : Valid f) (b d pct index j : Nat) (q : UInt32) :
    (dataShard f b d pct index j q).length = f.requestedShardSize := by
  simp only [dataShard, List.length_append, length_rtpHeader, List.length_replicate,
    length_nvVideoPacket, length_payload, h.shardSize]

/-- The payload of a data shard is copied onto zeros. -/
theorem copy_payload {f : Frame} (h : Valid f) {j : Nat}
    (hj : j * f.requestedShardPayloadSize ≤ f.packetDataLen) :
    copyHeaderAndData (List.replicate f.requestedShardPayloadSize 0) f.headerBytes f.encodedData
      (j * f.requestedShardPayloadSize)
      (min f.requestedShardPayloadSize (f.packetDataLen - j * f.requestedShardPayloadSize)) =
      .ok (payload f j) := by
  have hlen := h.length_stream
  have htotal := h.packetDataLen
  generalize hoff : j * f.requestedShardPayloadSize = off at *
  rw [copyHeaderAndData_eq h.headerBytes (by omega) (by simp), List.drop_replicate, payload, hoff]
  have hpart : slice (f.headerBytes ++ f.encodedData) off
      (min f.requestedShardPayloadSize (f.packetDataLen - off)) =
      slice (stream f) off f.requestedShardPayloadSize := by
    by_cases hc : f.requestedShardPayloadSize ≤ f.packetDataLen - off
    · rw [Nat.min_eq_left hc, stream]
    · have hd : ((stream f).drop off).length = f.packetDataLen - off := by
        rw [List.length_drop, hlen]
      rw [slice, slice, ← stream, List.take_of_length_le (by omega),
        List.take_of_length_le (by omega)]
  have hl : (slice (stream f) off f.requestedShardPayloadSize).length =
      min f.requestedShardPayloadSize (f.packetDataLen - off) := by
    rw [slice, List.length_take, List.length_drop, hlen]
  rw [hpart, hl]

/-- On a zeroed shard, the loop body writes that shard. -/
theorem writeDataShard_eq {f : Frame} (h : Valid f) {j : Nat}
    (hj : j * f.requestedShardPayloadSize ≤ f.packetDataLen) (b d pct index : Nat) (q : UInt32) :
    writeDataShard f b d pct index j q (List.replicate f.requestedShardSize 0) =
      .ok (dataShard f b d pct index j q) := by
  unfold writeDataShard nvPacketOffset payloadOffset nvPacketOffset nvVideoPacketSize rtpHeaderSize
    paddingSize
  dsimp only
  rw [checkedSub_of_le hj, Outcome.ok_bind, h.shardSize,
    writeRtpHeader_eq (by rw [List.length_replicate]; omega), Outcome.ok_bind, List.drop_replicate,
    show 32 + f.requestedShardPayloadSize - 12 = 4 + (16 + f.requestedShardPayloadSize) by omega,
    ← List.replicate_append_replicate, ← List.replicate_append_replicate, ← List.append_assoc,
    ← List.append_assoc, dataShard]
  generalize hfront : rtpHeader q.toUInt16 f.rtpTimestamp ++ List.replicate 4 (0 : Byte) = front
  have hl : front.length = 16 := by rw [← hfront]; simp
  rw [onSlice_middle (y := nvVideoPacket (q <<< 8) f.frameNumber (flags index d)
    (multiFecBlocks f b) (fecInfo index d pct)) (by rw [hl]) (by simp)
    (writeNvVideoPacket_eq (by simp) ..) (by simp), Outcome.ok_bind]
  generalize hnv : front ++ nvVideoPacket (q <<< 8) f.frameNumber (flags index d)
    (multiFecBlocks f b) (fecInfo index d pct) = head
  have hl' : head.length = 32 := by rw [← hnv, List.length_append, hl, length_nvVideoPacket]
  have hrest : (head ++ List.replicate f.requestedShardPayloadSize (0 : Byte)).length - (12 + 4 + 16) =
      f.requestedShardPayloadSize := by
    rw [List.length_append, hl', List.length_replicate]
    omega
  rw [hrest, ← List.append_nil (head ++ List.replicate _ _), ← List.append_nil (head ++ payload f j)]
  exact onSlice_middle (by rw [hl']) List.length_replicate.symm (copy_payload h hj)
    (length_payload f j)

/-- A parity shard: the bytes `raw` of the encoder, patched. -/
def parityShard (f : Frame) (blockIndex nrDataShards fecPercentage index : Nat)
    (sequenceNumber : UInt32) (raw : List Byte) : List Byte :=
  [0x90] ++ [0] ++ beBytes 2 sequenceNumber.toUInt16.toNat ++ slice raw 4 12 ++
    (slice raw 16 4 ++ leBytes 4 f.frameNumber.toNat ++ slice raw 24 3 ++
      [multiFecBlocks f blockIndex] ++
      leBytes 4 (fecInfo index nrDataShards fecPercentage).toNat) ++ raw.drop 32

theorem length_parityShard {f : Frame} {raw : List Byte} (h : 32 ≤ raw.length)
    (b d pct index : Nat) (q : UInt32) : (parityShard f b d pct index q raw).length = raw.length := by
  simp only [parityShard, List.length_append, length_beBytes, length_leBytes, List.length_cons,
    List.length_nil, List.length_drop, length_slice (show 4 + 12 ≤ raw.length by omega),
    length_slice (show 16 + 4 ≤ raw.length by omega),
    length_slice (show 24 + 3 ≤ raw.length by omega)]
  omega

theorem patchParityShard_eq {f : Frame} {raw : List Byte} (h : 32 ≤ raw.length)
    (b d pct index : Nat) (q : UInt32) :
    patchParityShard f b d pct index q raw = .ok (parityShard f b d pct index q raw) := by
  have hw := @writeAt_append Byte
  unfold patchParityShard nvPacketOffset nvVideoPacketSize rtpHeaderSize paddingSize
  rw [writeAt_zero (by simp; omega), Outcome.ok_bind, hw (by simp) (by simp; omega),
    Outcome.ok_bind, hw (by simp) (by simp; omega), Outcome.ok_bind, parityShard]
  simp only [List.length_cons, List.length_nil, List.drop_drop, length_beBytes]
  generalize hF : [(0x90 : Byte)] ++ [0] ++ beBytes 2 q.toUInt16.toNat = front
  have hl : front.length = 4 := by simp [← hF]
  generalize hN : slice raw 16 4 ++ leBytes 4 f.frameNumber.toNat ++ slice raw 24 3 ++
      [multiFecBlocks f b] ++ leBytes 4 (fecInfo index d pct).toNat = nv
  have hnv : nv.length = 16 := by
    simp [← hN, length_slice (show 16 + 4 ≤ raw.length by omega),
      length_slice (show 24 + 3 ≤ raw.length by omega)]
  have hsplit : front ++ raw.drop 4 = front ++ slice raw 4 12 ++ slice raw 16 16 ++ raw.drop 32 := by
    rw [List.append_assoc, List.append_assoc, slice_append_drop raw 16 16, slice_append_drop raw 4 12]
  rw [hsplit, onSlice_middle _ _ _ hnv]
  · rw [List.length_append, hl, length_slice (by omega)]
  · rw [length_slice (by omega)]
  · -- The writes at 4, 11 and 12 of the `NvVideoPacket`.
    have hm : slice raw 16 16 = slice raw 16 4 ++ slice raw 20 12 := by
      rw [slice_append_slice]
    have h₁ : (slice raw 16 4).length = 4 := length_slice (by omega)
    have h₂ : (slice raw 24 3).length = 3 := length_slice (by omega)
    have h₃ : (slice raw 20 12).length = 12 := length_slice (by omega)
    have h₄ : (slice raw 24 8).length = 8 := length_slice (by omega)
    have h₅ : (slice raw 28 4).length = 4 := length_slice (by omega)
    rw [hm, hw h₁.symm (by simp [h₃]), Outcome.ok_bind, length_leBytes, drop_slice,
      writeAt_append_gap (by simp [h₁]) (by simp [h₁, h₄]), Outcome.ok_bind]
    simp only [List.length_append, h₁, length_leBytes, List.length_cons, List.length_nil, take_slice,
      drop_slice, Nat.reduceAdd, Nat.reduceSub, show min 3 8 = 3 from rfl]
    rw [hw (by simp [h₁, h₂]) (by simp [h₅]), ← hN, length_leBytes, drop_slice]
    simp [slice]

end Moonshine.Proof.Packetizer
