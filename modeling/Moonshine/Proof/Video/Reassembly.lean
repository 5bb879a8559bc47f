import Moonshine.Proof.Video.Totality

/-!
# Reassembly

The payloads of the data shards of a batch, in order, are the header, the
encoded frame and zeros (`packetize_lossless`). The blocks divide the data
shards of the frame without gap or overlap (`flatMap_blocks`), and consecutive
payloads are consecutive parts of the stream (`flatMap_payload`).
-/

namespace Moonshine.Proof.Packetizer

open Moonshine.Framework Moonshine.Impl Moonshine.Impl.Packetizer Moonshine.Proof.ShardBatch

variable {x : Crates}

/-- The data shards of a batch: the first ones of each block. -/
def dataShardsOf (f : Frame) (batch : ShardBatch) : List (List Byte) :=
  (List.range (blockCount f)).flatMap fun b =>
    ((blocksOf f batch)[b]?.getD []).take (blockData f b)

/-- The payload regions of the data shards, concatenated. -/
def reassembled (f : Frame) (batch : ShardBatch) : List Byte :=
  (dataShardsOf f batch).flatMap (List.drop payloadOffset)

/-- A block before the last one is full. -/
theorem blockRange_full {f : Frame} (h : Valid f) {b : Nat} (hb : b + 1 < blockCount f) :
    (blockRange f b).2 = (b + 1) * nrDataShardsPerBlock f.fecPercentage := by
  have hN := h.nrDataShards_pos
  have hD := nrDataShardsPerBlock_pos f.fecPercentage
  have hlt : b + 1 < nrBlocks f := Nat.lt_of_lt_of_le hb (Nat.min_le_left _ _)
  have h4 : b + 1 < 4 := Nat.lt_of_lt_of_le hb (Nat.min_le_right _ _)
  have hle : (b + 1) * nrDataShardsPerBlock f.fecPercentage ≤ f.nrDataShards - 1 := by
    rw [← Nat.le_div_iff_mul_le hD]
    exact Nat.le_of_lt_succ hlt
  unfold blockRange
  dsimp only
  rw [if_neg (by omega), Nat.min_eq_left (by omega)]

/-- The last block ends where the frame ends. -/
theorem blockRange_last {f : Frame} (h : Valid f) {b : Nat} (hb : b + 1 = blockCount f) :
    (blockRange f b).2 = f.nrDataShards := by
  have hN := h.nrDataShards_pos
  have hD := nrDataShardsPerBlock_pos f.fecPercentage
  unfold blockRange
  dsimp only
  by_cases h3 : b = 3
  · rw [if_pos h3]
  · have hlast : b + 1 = nrBlocks f := by
      unfold blockCount at hb
      omega
    have hlt : f.nrDataShards - 1 < (b + 1) * nrDataShardsPerBlock f.fecPercentage := by
      rw [← Nat.div_lt_iff_lt_mul hD, hlast]
      exact Nat.lt_succ_self _
    rw [if_neg h3, Nat.min_eq_right (by omega)]

theorem blockCount_pos (f : Frame) : 0 < blockCount f :=
  Nat.lt_min.mpr ⟨Nat.succ_pos _, by decide⟩

theorem range_flatMap_succ {α : Type*} (g : Nat → List α) (n : Nat) :
    (List.range (n + 1)).flatMap g = (List.range n).flatMap g ++ g n := by
  rw [List.range_succ, List.flatMap_append, List.flatMap_singleton]

/-- The blocks before the last are as many full ones. -/
theorem flatMap_full {f : Frame} (h : Valid f) {m : Nat} (hm : m < blockCount f) :
    (List.range m).flatMap (fun b => List.range' (blockRange f b).1 (blockData f b)) =
      List.range (m * nrDataShardsPerBlock f.fecPercentage) := by
  induction m with
  | zero => rw [Nat.zero_mul]; rfl
  | succ m ih =>
    have hstart : (blockRange f m).1 = m * nrDataShardsPerBlock f.fecPercentage := rfl
    have hend := blockRange_full h hm
    rw [range_flatMap_succ, ih (Nat.lt_of_succ_lt hm), blockData, hend, hstart, Nat.succ_mul,
      Nat.add_sub_cancel_left, List.range_add, List.range'_eq_map_range]

/-- Block after block, the data shards are those of the frame, each once. -/
theorem flatMap_blocks {f : Frame} (h : Valid f) :
    (List.range (blockCount f)).flatMap (fun b => List.range' (blockRange f b).1 (blockData f b)) =
      List.range f.nrDataShards := by
  obtain ⟨m, hm⟩ : ∃ m, blockCount f = m + 1 := ⟨blockCount f - 1, by have := blockCount_pos f; omega⟩
  have hr := (h.blockRange (lt_nrBlocks (show m < blockCount f by omega))).1
  have hend := blockRange_last h (b := m) hm.symm
  have hstart : (blockRange f m).1 = m * nrDataShardsPerBlock f.fecPercentage := rfl
  rw [hend, hstart] at hr
  rw [hm, range_flatMap_succ, flatMap_full h (by omega), blockData, hend, hstart]
  conv_rhs => rw [← Nat.add_sub_cancel' (Nat.le_of_lt hr), List.range_add]
  rw [List.range'_eq_map_range]

theorem payload_full {f : Frame} (h : Valid f) {j : Nat}
    (hj : (j + 1) * f.requestedShardPayloadSize ≤ f.packetDataLen) :
    payload f j = slice (stream f) (j * f.requestedShardPayloadSize) f.requestedShardPayloadSize := by
  rw [Nat.succ_mul] at hj
  have hl : (slice (stream f) (j * f.requestedShardPayloadSize) f.requestedShardPayloadSize).length =
      f.requestedShardPayloadSize := length_slice (by rw [h.length_stream]; exact hj)
  rw [payload, hl, Nat.sub_self, List.replicate_zero, List.append_nil]

/-- Full payloads are consecutive parts of the stream. -/
theorem flatMap_payload_full {f : Frame} (h : Valid f) {m : Nat}
    (hm : m * f.requestedShardPayloadSize ≤ f.packetDataLen) :
    (List.range m).flatMap (payload f) = slice (stream f) 0 (m * f.requestedShardPayloadSize) := by
  induction m with
  | zero => rw [Nat.zero_mul]; rfl
  | succ m ih =>
    have hle : m * f.requestedShardPayloadSize ≤ f.packetDataLen := by
      rw [Nat.succ_mul] at hm
      omega
    have := slice_append_slice (stream f) 0 (m * f.requestedShardPayloadSize)
      f.requestedShardPayloadSize
    rw [Nat.zero_add] at this
    rw [range_flatMap_succ, ih hle, payload_full h hm, this, Nat.succ_mul]

/-- Every data shard of a frame starts within it, and the last one ends it. -/
theorem Valid.whole {f : Frame} (h : Valid f) :
    (f.nrDataShards - 1) * f.requestedShardPayloadSize < f.packetDataLen ∧
      f.packetDataLen ≤ f.nrDataShards * f.requestedShardPayloadSize := by
  have hpos := h.nrDataShards_pos
  refine ⟨h.start_lt (by omega), ?_⟩
  have h₁ := Nat.lt_mul_div_succ (f.packetDataLen + f.requestedShardPayloadSize - 1) h.payloadSize
  rw [← h.nrDataShards, Nat.mul_succ, Nat.mul_comm] at h₁
  omega

/-- The payloads of all data shards are the stream, zero padded to whole
payloads. -/
theorem flatMap_payload {f : Frame} (h : Valid f) :
    (List.range f.nrDataShards).flatMap (payload f) = stream f ++
      List.replicate (f.nrDataShards * f.requestedShardPayloadSize - f.packetDataLen) 0 := by
  obtain ⟨m, hm⟩ : ∃ m, f.nrDataShards = m + 1 :=
    ⟨f.nrDataShards - 1, by have := h.nrDataShards_pos; omega⟩
  obtain ⟨hlt, hle⟩ := h.whole
  rw [hm] at hlt hle ⊢
  rw [Nat.add_sub_cancel] at hlt
  rw [Nat.succ_mul] at hle ⊢
  have hdrop : ((stream f).drop (m * f.requestedShardPayloadSize)).length =
      f.packetDataLen - m * f.requestedShardPayloadSize := by
    rw [List.length_drop, h.length_stream]
  have hslice : slice (stream f) (m * f.requestedShardPayloadSize) f.requestedShardPayloadSize =
      (stream f).drop (m * f.requestedShardPayloadSize) := by
    rw [slice, List.take_of_length_le (by omega)]
  rw [range_flatMap_succ, flatMap_payload_full h (Nat.le_of_lt hlt), payload, hslice, hdrop,
    ← List.append_assoc, slice, List.drop_zero, List.take_append_drop]
  congr 2
  omega

/-- The data shards of a sent block carry its payloads. -/
theorem SentBlock.payloads {f : Frame} {b : Nat} {q : UInt32} {sent : List (List Byte)}
    (h : SentBlock x none f b q sent) :
    (sent.take (blockData f b)).map (List.drop payloadOffset) =
      (List.range' (blockRange f b).1 (blockData f b)).map (payload f) := by
  obtain ⟨hlen, buf, hf, hrec⟩ := h
  refine List.ext_getElem? fun k => ?_
  rw [List.getElem?_map, List.getElem?_map, List.getElem?_take]
  by_cases hk : k < blockData f b
  · obtain ⟨shard, hs, hr⟩ := hrec k (by unfold blockSize; omega)
    obtain rfl : shard = buf.shard k := Option.some.inj hr
    rw [if_pos hk, hs, hf.data k hk, List.getElem?_range' hk, Option.map_some, Option.map_some,
      Nat.one_mul, dataShard]
    refine congrArg some ?_
    exact List.drop_left' (by simp [payloadOffset, nvPacketOffset, nvVideoPacketSize, rtpHeaderSize,
      paddingSize])
  · rw [if_neg hk, List.getElem?_eq_none (by rw [List.length_range']; omega)]
    rfl

/-- The payloads of the data shards of a batch sent in the clear. -/
theorem payloads_dataShardsOf {f : Frame} (h : Valid f) {batch : ShardBatch} {q : Nat → UInt32}
    (hb : ∀ b < blockCount f, ∃ sent, (blocksOf f batch)[b]? = some sent ∧ SentBlock x none f b (q b) sent) :
    (dataShardsOf f batch).map (List.drop payloadOffset) =
      (List.range f.nrDataShards).map (payload f) := by
  rw [← flatMap_blocks h, dataShardsOf, List.map_flatMap, List.map_flatMap]
  refine List.flatMap_congr fun b hmem => ?_
  obtain ⟨sent, hs, hsent⟩ := hb b (List.mem_range.mp hmem)
  rw [hs, Option.getD_some, hsent.payloads]

/-- The bytes of `last_payload_len` in the reassembled frame. -/
def lastPayloadLen (bytes : List Byte) : Nat := ofLe (slice bytes 4 4)

/-- The data shards of the batch carry the header, the encoded frame and
`padding` zeros, all of these in the last payload. -/
structure Reassembles (a : Args) (batch : ShardBatch) (padding : Nat) : Prop where
  payloads : ∀ shard ∈ dataShardsOf (a.frame false) batch,
    (shard.drop payloadOffset).length = a.requestedPacketSize - 16
  reassembled : reassembled (a.frame false) batch =
    a.videoFrameHeader.serialize ++ a.encodedData ++ List.replicate padding 0
  padding : padding < a.requestedPacketSize - 16

/-- The number of bytes in the last shard, from the padding. -/
theorem lastShardSize_eq {total p n : Nat} (hlt : (n - 1) * p < total) (hle : total ≤ n * p)
    (hn : 0 < n) : lastShardSize total p = p - (n * p - total) := by
  obtain ⟨m, rfl⟩ : ∃ m, n = m + 1 := ⟨n - 1, by omega⟩
  rw [Nat.add_sub_cancel] at hlt
  rw [Nat.succ_mul] at hle ⊢
  obtain ⟨r, rfl⟩ : ∃ r, total = m * p + r := ⟨total - m * p, by omega⟩
  unfold lastShardSize
  dsimp only
  rw [Nat.mul_comm m p, Nat.mul_add_mod]
  by_cases hr : r = p
  · subst hr
    rw [Nat.mod_self, if_pos rfl]
    omega
  · rw [Nat.mod_eq_of_lt (by omega), if_neg (by omega)]
    omega

theorem lastPayloadLen_serialize (header : VideoFrameHeader) (rest : List Byte) :
    lastPayloadLen (header.serialize ++ rest) = header.lastPayloadLen.toNat := by
  have h4 : slice header.serialize 4 4 = leBytes 4 header.lastPayloadLen.toNat := by
    rw [VideoFrameHeader.serialize, slice_append_right (by simp)]
    have := slice_zero_length (leBytes 4 header.lastPayloadLen.toNat)
    rw [length_leBytes] at this
    simpa using this
  rw [lastPayloadLen, slice_append_left (by rw [length_serialize]), h4, ofLe_leBytes,
    show 256 ^ 4 = 2 ^ 32 by decide, Nat.mod_eq_of_lt header.lastPayloadLen.toNat_lt]

theorem one_shard {a : Args}
    (hlen : 8 + a.encodedData.length ≤ a.requestedPacketSize - 16) (encrypted : Bool) :
    (a.frame encrypted).nrDataShards = 1 ∧ blockCount (a.frame encrypted) = 1 ∧
      blockData (a.frame encrypted) 0 = 1 := by
  have hN : (a.frame encrypted).nrDataShards = 1 := by
    show (8 + a.encodedData.length + (a.requestedPacketSize - 16) - 1) / (a.requestedPacketSize - 16) = 1
    refine Nat.div_eq_of_lt_le ?_ ?_ <;> omega
  have hD := nrDataShardsPerBlock_pos (a.frame encrypted).fecPercentage
  have hB : blockCount (a.frame encrypted) = 1 := by
    rw [blockCount, nrBlocks, hN, Nat.sub_self, Nat.zero_div]
    rfl
  refine ⟨hN, hB, ?_⟩
  have hlast := blockRange_last (valid_frame (by unfold nvVideoPacketSize; omega) encrypted)
    (show 0 + 1 = blockCount (a.frame encrypted) from hB.symm)
  rw [blockData, hlast, hN]
  show 1 - 0 * _ = 1
  rw [Nat.zero_mul]

/-- Crates for blocks of one data shard: the code repeats it. The cipher is not
there. -/
def repetition : Crates where
  ReedSolomon _ _ := Unit
  reedSolomonNew d p := if d = 1 ∧ 0 < p ∧ d + p ≤ maxShards then some () else none
  encode {d _} _ slices :=
    if d = 1 ∧ ∀ y ∈ slices, y.length = slices.headI.length then
      some (slices.map fun _ => slices.headI)
    else none
  encryptInPlaceDetached _ _ _ := none
  decryptInPlaceDetached _ _ _ _ := none
  encode_length := by
    intro d p _ slices out h
    split at h <;> cases h
    rename_i hc
    rw [List.map_map]
    exact List.map_congr_left fun y hy => (hc.2 y hy).symm
  encode_data := by
    intro d p _ slices out h
    split at h <;> cases h
    rename_i hc
    obtain ⟨rfl, -⟩ := hc
    cases slices <;> rfl
  encrypt_length := by
    intro _ _ _ _ h
    cases h
  decrypt_encrypt := by
    intro _ _ _ _ h
    cases h

/-- A frame of one data shard is packetized with them, when nothing is encrypted. -/
theorem packetize_one_shard {a : Args}
    (hlen : 8 + a.encodedData.length ≤ a.requestedPacketSize - 16)
    (hcap : maxShards * (16 + a.requestedPacketSize) ≤ isizeMax) (keys : SessionKeyData)
    {s : State repetition} (hoff : s.packetizer.encrypt = false) :
    ∃ batch s', packetize keys a s = (.ok batch, s') := by
  obtain ⟨-, hB, hd⟩ := one_shard hlen false
  have hp : blockParity (a.frame false) 0 ≤ maxShards - 1 := by
    rw [blockParity, hd]
    exact Nat.min_le_right _ _
  have hblock : ∀ b < blockCount (a.frame false), b = 0 := fun b hb => by omega
  refine packetize_total (by omega) ⟨fun b hb hpos => ?_, fun b hb r slices hl hs => ?_⟩ (fun b hb => ?_) hoff keys
  · obtain rfl := hblock b hb
    exact ⟨(), if_pos ⟨hd, hpos, by rw [hd]; unfold maxShards at hp ⊢; omega⟩⟩
  · obtain rfl := hblock b hb
    have hhead : slices.headI.length = (a.frame false).requestedShardSize := by
      cases slices with
      | nil =>
        rw [blockSize, hd, List.length_nil] at hl
        omega
      | cons y ys => exact hs y List.mem_cons_self
    exact ⟨_, if_pos ⟨hd, fun y hy => (hs y hy).trans hhead.symm⟩⟩
  · obtain rfl := hblock b hb
    have hsize : blockSize (a.frame false) 0 ≤ maxShards := by
      rw [blockSize, hd]
      unfold maxShards at hp ⊢
      omega
    have hshard : (a.frame false).prefixSize + (a.frame false).requestedShardSize =
        16 + a.requestedPacketSize := by
      show 0 + (32 + (a.requestedPacketSize - 16)) = _
      omega
    rw [BlockAllocates, hshard]
    exact Nat.le_trans (Nat.mul_le_mul_right _ hsize) hcap

/-- Reassembling the data shards of a batch that `packetize` returned in the
clear gives the header and the encoded frame, zero padded; the header's
`last_payload_len` is the number of bytes in the last payload that are not
padding, modulo the width of the field. -/
theorem packetize_lossless {keys : SessionKeyData} {a : Args} {s s' : State x} {batch : ShardBatch}
    (hoff : s.packetizer.encrypt = false) (hrun : packetize keys a s = (.ok batch, s')) :
    ∃ padding, Reassembles a batch padding ∧
      lastPayloadLen (reassembled (a.frame false) batch) =
        (a.requestedPacketSize - 16 - padding) % 2 ^ 32 := by
  obtain ⟨f, hf, hv, -, hblocks, -, hcipher⟩ := packetize_spec hrun
  rw [maybeUpdateCipher_off hoff, s.packetizer.cipher_off hoff] at hf hcipher
  obtain rfl : f = a.frame false := hf
  simp only [hcipher] at hblocks
  have hpay := payloads_dataShardsOf hv hblocks
  obtain ⟨hlt, hle⟩ := hv.whole
  have hstream : stream (a.frame false) = a.videoFrameHeader.serialize ++ a.encodedData := rfl
  have hreas : reassembled (a.frame false) batch =
      a.videoFrameHeader.serialize ++ a.encodedData ++
        List.replicate ((a.frame false).nrDataShards * (a.frame false).requestedShardPayloadSize -
          (a.frame false).packetDataLen) 0 := by
    rw [reassembled, List.flatMap_def, hpay, ← List.flatMap_def, flatMap_payload hv, hstream]
  refine ⟨_, ⟨fun shard hs => ?_, hreas, ?_⟩, ?_⟩
  · have hmem := List.mem_map_of_mem (f := List.drop payloadOffset) hs
    rw [hpay] at hmem
    obtain ⟨j, -, hj⟩ := List.mem_map.mp hmem
    rw [← hj, length_payload]
    rfl
  · show _ < (a.frame false).requestedShardPayloadSize
    obtain ⟨m, hm⟩ : ∃ m, (a.frame false).nrDataShards = m + 1 :=
      ⟨(a.frame false).nrDataShards - 1, by have := hv.nrDataShards_pos; omega⟩
    rw [hm, Nat.add_sub_cancel] at hlt
    rw [hm, Nat.succ_mul]
    have := hv.payloadSize
    omega
  · rw [hreas, List.append_assoc, lastPayloadLen_serialize]
    exact congrArg (· % 2 ^ 32) (lastShardSize_eq hlt hle hv.nrDataShards_pos)

theorem packetize_lossless_small :
    ∃ batch s', packetize ⟨[], 0⟩ ⟨[1, 2, 3], true, 32, 0, 0, 7, 9, 0⟩
        ⟨new repetition false, 5, []⟩ = (.ok batch, s') ∧
      ∃ padding, Reassembles ⟨[1, 2, 3], true, 32, 0, 0, 7, 9, 0⟩ batch padding ∧
        lastPayloadLen (reassembled (Args.frame ⟨[1, 2, 3], true, 32, 0, 0, 7, 9, 0⟩ false) batch) =
          (32 - 16 - padding) % 2 ^ 32 := by
  obtain ⟨batch, s', hrun⟩ := packetize_one_shard (a := ⟨[1, 2, 3], true, 32, 0, 0, 7, 9, 0⟩)
    (by decide) (by decide) ⟨[], 0⟩ (s := ⟨new repetition false, 5, []⟩) rfl
  exact ⟨batch, s', hrun, packetize_lossless rfl hrun⟩

/-- A frame that fills one shard of 2^32 bytes of payload. -/
def wideFrame : Args :=
  ⟨List.replicate (2 ^ 32 - 8) 0, true, 2 ^ 32 + 16, 0, 0, 1, 0, 0⟩

/-- The field is too narrow for it: it reads zero, with 2^32 bytes in the shard. -/
theorem lastPayloadLen_wide :
    ¬ ∀ batch s', packetize ⟨[], 0⟩ wideFrame ⟨new repetition false, 0, []⟩ = (.ok batch, s') →
      ∃ padding, Reassembles wideFrame batch padding ∧
        lastPayloadLen (reassembled (wideFrame.frame false) batch) =
          wideFrame.requestedPacketSize - 16 - padding := by
  intro h
  have hlen : wideFrame.encodedData.length = 2 ^ 32 - 8 := List.length_replicate
  have hsize : wideFrame.requestedPacketSize = 2 ^ 32 + 16 := rfl
  obtain ⟨batch, s', hrun⟩ := packetize_one_shard (a := wideFrame) (by rw [hlen, hsize]; decide)
    (by rw [hsize]; decide) ⟨[], 0⟩ (s := ⟨new repetition false, 0, []⟩) rfl
  obtain ⟨padding, ⟨-, hreas, hpad⟩, hlast⟩ := h batch s' hrun
  have hheader : wideFrame.videoFrameHeader.lastPayloadLen.toNat = 0 := by
    have hlast : lastShardSize (videoFrameHeaderSize + wideFrame.encodedData.length)
        (wideFrame.requestedPacketSize - nvVideoPacketSize) = 2 ^ 32 := by
      rw [hlen, hsize]
      decide
    rw [Args.videoFrameHeader, hlast]
    decide
  rw [hreas, List.append_assoc, lastPayloadLen_serialize, hheader] at hlast
  omega

end Moonshine.Proof.Packetizer
