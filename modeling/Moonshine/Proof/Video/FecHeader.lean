import Moonshine.Proof.Video.Reassembly

/-!
# The FEC headers

`fec_info` holds the number of data shards in its upper ten bits, the index of
the shard in the next ten and the percentage in the eight above the lowest four.
Whether a receiver reads these back is a matter of their ranges: full blocks
always fit, and the last block of a frame fits exactly under `FecFits`.
-/

namespace Moonshine.Proof.Packetizer

open Moonshine.Framework Moonshine.Impl Moonshine.Impl.Packetizer Moonshine.Proof.ShardBatch

variable {x : Crates}

/-- The fields of `fec_info` in range do not overlap. -/
theorem fecInfo_toNat {k d pct : Nat} (hk : k < 1024) (hd : d < 1024) (hp : pct < 256) :
    (fecInfo k d pct).toNat = d * 2 ^ 22 + k * 2 ^ 12 + pct * 2 ^ 4 := by
  have hlow : pct <<< 4 < 2 ^ 12 := by
    rw [Nat.shiftLeft_eq]
    omega
  have hmid : k <<< 12 + pct <<< 4 < 2 ^ 22 := by
    rw [Nat.shiftLeft_eq, Nat.shiftLeft_eq]
    omega
  have hor : k <<< 12 ||| d <<< 22 ||| pct <<< 4 = d <<< 22 + (k <<< 12 + pct <<< 4) := by
    rw [Nat.or_comm (k <<< 12), Nat.or_assoc, ← Nat.shiftLeft_add_eq_or_of_lt hlow,
      ← Nat.shiftLeft_add_eq_or_of_lt hmid]
  rw [fecInfo, hor, UInt32.toNat_ofNat', Nat.shiftLeft_eq, Nat.shiftLeft_eq, Nat.shiftLeft_eq]
  omega

/-- Whatever the other fields, the percentage field holds the percentage's low
byte. -/
theorem fecInfo_percentage (k d pct : Nat) :
    ((fecInfo k d pct).toNat >>> 4) &&& 0xFF = pct % 256 := by
  have hmod : (k <<< 12 ||| d <<< 22 ||| pct <<< 4) % 2 ^ 12 = pct * 2 ^ 4 % 2 ^ 12 := by
    rw [Nat.or_mod_two_pow, Nat.or_mod_two_pow, Nat.shiftLeft_eq, Nat.shiftLeft_eq, Nat.shiftLeft_eq,
      show k * 2 ^ 12 % 2 ^ 12 = 0 by omega, show d * 2 ^ 22 % 2 ^ 12 = 0 by omega, Nat.zero_or,
      Nat.zero_or]
  rw [fecInfo, UInt32.toNat_ofNat', Nat.shiftRight_eq_div_pow, show 0xFF = 2 ^ 8 - 1 from rfl,
    Nat.and_two_pow_sub_one_eq_mod]
  generalize k <<< 12 ||| d <<< 22 ||| pct <<< 4 = w at hmod ⊢
  omega

theorem fecInfo_data_lt (k d pct : Nat) : (fecInfo k d pct).toNat >>> 22 < 1024 := by
  have := (fecInfo k d pct).toNat_lt
  rw [Nat.shiftRight_eq_div_pow]
  omega

/-- `multi_fec_blocks` reads back for the four blocks there can be. -/
theorem multiFecBlocks_fields {b n : Nat} (hb : b < 4) (hn : n < 4) :
    (((UInt8.ofNat b <<< 4) ||| ((UInt8.ofNat (n + 1) - 1) <<< 6)).toNat >>> 4) &&& 3 = b ∧
      (((UInt8.ofNat b <<< 4) ||| ((UInt8.ofNat (n + 1) - 1) <<< 6)).toNat >>> 6) &&& 3 = n := by
  have h : ∀ b n : Fin 4,
      (((UInt8.ofNat b <<< 4) ||| ((UInt8.ofNat (n + 1) - 1) <<< 6)).toNat >>> 4) &&& 3 = b.val ∧
      (((UInt8.ofNat b <<< 4) ||| ((UInt8.ofNat (n + 1) - 1) <<< 6)).toNat >>> 6) &&& 3 = n.val := by
    decide
  exact h ⟨b, hb⟩ ⟨n, hn⟩

/-- The `fec_info` word of a shard. -/
def fecInfoOf (shard : List Byte) : Nat := ofLe (slice shard 28 4)

/-- Its `multi_fec_blocks` byte. -/
def multiFecBlocksOf (shard : List Byte) : Nat := ofLe (slice shard 27 1)

/-- A shard with the two fields in their place. -/
theorem fields_of_split {front back : List Byte} (hf : front.length = 27) (m : Byte) (w : UInt32) :
    fecInfoOf (front ++ [m] ++ leBytes 4 w.toNat ++ back) = w.toNat ∧
      multiFecBlocksOf (front ++ [m] ++ leBytes 4 w.toNat ++ back) = m.toNat := by
  have hw := slice_zero_length (leBytes 4 w.toNat)
  rw [length_leBytes] at hw
  constructor
  · rw [fecInfoOf, slice_append_left (by simp [hf]), slice_append_right (by simp [hf]),
      List.length_append, hf, List.length_singleton, Nat.sub_self, hw, ofLe_leBytes,
      show 256 ^ 4 = 2 ^ 32 by decide, Nat.mod_eq_of_lt w.toNat_lt]
  · rw [multiFecBlocksOf, slice_append_left (by simp [hf]), slice_append_left (by simp [hf]),
      slice_append_right (by simp [hf]), hf, Nat.sub_self]
    show ofLe [m] = m.toNat
    rw [ofLe, ofLe]
    omega

theorem dataShard_fields (f : Frame) (b d pct k j : Nat) (q : UInt32) :
    fecInfoOf (dataShard f b d pct k j q) = (fecInfo k d pct).toNat ∧
      multiFecBlocksOf (dataShard f b d pct k j q) = (multiFecBlocks f b).toNat := by
  have hsplit : dataShard f b d pct k j q =
      (rtpHeader q.toUInt16 f.rtpTimestamp ++ List.replicate 4 (0 : Byte) ++
        (leBytes 4 (q <<< 8).toNat ++ leBytes 4 f.frameNumber.toNat ++ [flags k d, 0, 0x10])) ++
        [multiFecBlocks f b] ++ leBytes 4 (fecInfo k d pct).toNat ++ payload f j := by
    simp [dataShard, nvVideoPacket]
  rw [hsplit]
  exact fields_of_split (by simp) _ _

theorem parityShard_fields (f : Frame) {raw : List Byte} (h : 32 ≤ raw.length) (b d pct k : Nat)
    (q : UInt32) :
    fecInfoOf (parityShard f b d pct k q raw) = (fecInfo k d pct).toNat ∧
      multiFecBlocksOf (parityShard f b d pct k q raw) = (multiFecBlocks f b).toNat := by
  have hsplit : parityShard f b d pct k q raw =
      ([0x90] ++ [0] ++ beBytes 2 q.toUInt16.toNat ++ slice raw 4 12 ++
        (slice raw 16 4 ++ leBytes 4 f.frameNumber.toNat ++ slice raw 24 3)) ++
        [multiFecBlocks f b] ++ leBytes 4 (fecInfo k d pct).toNat ++ raw.drop 32 := by
    simp [parityShard]
  rw [hsplit]
  refine fields_of_split ?_ _ _
  have h₁ : (slice raw 4 12).length = 12 := length_slice (by omega)
  have h₂ : (slice raw 16 4).length = 4 := length_slice (by omega)
  have h₃ : (slice raw 24 3).length = 3 := length_slice (by omega)
  simp [h₁, h₂, h₃]

/-- Every shard of a block, data or parity, has the word of its index. -/
theorem Filled.fields {f : Frame} (h : Valid f) {b : Nat} {q : UInt32} {buf : ShardBuf}
    (hf : Filled x f b q buf) {k : Nat} (hk : k < blockSize f b) :
    fecInfoOf (buf.shard k) = (fecInfo k (blockData f b) (blockPercentage f b)).toNat ∧
      multiFecBlocksOf (buf.shard k) = (multiFecBlocks f b).toNat := by
  unfold blockSize at hk
  by_cases hd : k < blockData f b
  · rw [hf.data k hd]
    exact dataShard_fields ..
  · obtain ⟨r, out, -, hpar⟩ := hf.parity (by omega)
    obtain ⟨raw, -, hlen, hraw⟩ := hpar (k - blockData f b) (by omega)
    rw [show blockData f b + (k - blockData f b) = k by omega] at hraw
    rw [hraw]
    have := h.shardSize
    exact parityShard_fields f (by omega) ..

/-- What a receiver reads in the headers of the shard at `k` of block `b`. -/
structure Decodes (f : Frame) (b k : Nat) (shard : List Byte) : Prop where
  dataShards : fecInfoOf shard >>> 22 = blockData f b
  index : (fecInfoOf shard >>> 12) &&& 0x3FF = k
  percentage : (fecInfoOf shard >>> 4) &&& 0xFF = blockParity f b * 100 / blockData f b
  block : (multiFecBlocksOf shard >>> 4) &&& 3 = b
  lastBlock : (multiFecBlocksOf shard >>> 6) &&& 3 = blockCount f - 1

/-- The ranges of the fields of a block. -/
def BlockFits (f : Frame) (b : Nat) : Prop := blockData f b < 1024 ∧ blockPercentage f b < 256

theorem decodes_of_fits {f : Frame} (h : Valid f) {b k : Nat} {shard : List Byte}
    (hb : b < blockCount f) (hk : k < blockSize f b) (hfits : BlockFits f b)
    (hinfo : fecInfoOf shard = (fecInfo k (blockData f b) (blockPercentage f b)).toNat)
    (hmulti : multiFecBlocksOf shard = (multiFecBlocks f b).toNat) : Decodes f b k shard := by
  obtain ⟨hd, hp⟩ := hfits
  have hk' : k < 1024 := by
    have hpar : blockParity f b ≤ maxShards - blockData f b := Nat.min_le_right _ _
    unfold blockSize at hk
    unfold maxShards at hpar
    omega
  have hcount : blockCount f = blockCount f - 1 + 1 := by
    have := blockCount_pos f
    omega
  have h4 : blockCount f ≤ 4 := Nat.min_le_right _ _
  rw [multiFecBlocks, h.lastBlockIndex, ← blockCount, hcount] at hmulti
  obtain ⟨hm₁, hm₂⟩ := multiFecBlocks_fields (b := b) (n := blockCount f - 1) (by omega) (by omega)
  refine ⟨?_, ?_, ?_, by rw [hmulti]; exact hm₁, by rw [hmulti]; exact hm₂⟩
  · rw [hinfo, fecInfo_toNat hk' hd hp, Nat.shiftRight_eq_div_pow]
    omega
  · rw [hinfo, fecInfo_toNat hk' hd hp, Nat.shiftRight_eq_div_pow, show 0x3FF = 2 ^ 10 - 1 from rfl,
      Nat.and_two_pow_sub_one_eq_mod]
    omega
  · rw [hinfo, fecInfo_percentage, Nat.mod_eq_of_lt hp]
    rfl

/-- A shard whose headers decode is of a block that fits. -/
theorem fits_of_decodes {f : Frame} {b k : Nat} {shard : List Byte}
    (hinfo : fecInfoOf shard = (fecInfo k (blockData f b) (blockPercentage f b)).toNat)
    (h : Decodes f b k shard) : BlockFits f b := by
  constructor
  · rw [← h.dataShards, hinfo]
    exact fecInfo_data_lt ..
  · have hp := h.percentage
    rw [hinfo, fecInfo_percentage] at hp
    rw [blockPercentage, ← hp]
    exact Nat.mod_lt _ (by decide)

/-- The data shards that are left for the last block of a frame. -/
def lastBlockData (a : Args) : Nat :=
  let size := a.requestedPacketSize - 16
  let nrDataShards := (8 + a.encodedData.length + size - 1) / size
  let perBlock := 255 - 255 * a.fecPercentage.toNat / (100 + a.fecPercentage.toNat)
  nrDataShards - min ((nrDataShards - 1) / perBlock) 3 * perBlock

/-- The last block has at most 1023 data shards, and the minimum number of FEC
packets, as far as the 255 shards of a block have room for it, stays below 2.56
times their number. -/
def FecFits (a : Args) : Prop :=
  lastBlockData a ≤ 1023 ∧
    100 * min a.minimumFecPackets.toNat (255 - lastBlockData a) < 256 * lastBlockData a

theorem lastBlockData_eq {a : Args} (h : 16 < a.requestedPacketSize) (encrypted : Bool) :
    blockData (a.frame encrypted) (blockCount (a.frame encrypted) - 1) = lastBlockData a := by
  have hpos := blockCount_pos (a.frame encrypted)
  have hv : Valid (a.frame encrypted) := valid_frame (by unfold nvVideoPacketSize; omega) encrypted
  have hmin : blockCount (a.frame encrypted) - 1 = min (((a.frame encrypted).nrDataShards - 1) /
      nrDataShardsPerBlock (a.frame encrypted).fecPercentage) 3 := by
    have hc : blockCount (a.frame encrypted) = min (nrBlocks (a.frame encrypted)) 4 := rfl
    have hn : nrBlocks (a.frame encrypted) = ((a.frame encrypted).nrDataShards - 1) /
      nrDataShardsPerBlock (a.frame encrypted).fecPercentage + 1 := rfl
    omega
  rw [blockData, blockRange_last hv (by omega), hmin]
  rfl

theorem percentage_lt {p d : Nat} (hd : 0 < d) : p * 100 / d < 256 ↔ 100 * p < 256 * d := by
  rw [Nat.div_lt_iff_lt_mul hd, Nat.mul_comm p]

/-- Full blocks fit: they keep to the percentage, which is a byte. -/
theorem fits_full {f : Frame} (h : Valid f) {b : Nat} (hb : b + 1 < blockCount f) : BlockFits f b := by
  have hf := f.fecPercentage.toNat_lt
  have hD : blockData f b = nrDataShardsPerBlock f.fecPercentage := by
    rw [blockData, blockRange_full h hb]
    show (b + 1) * _ - b * _ = _
    rw [Nat.succ_mul, Nat.add_sub_cancel_left]
  have hQ : nrParityShardsPerBlock f.fecPercentage < 184 := by
    unfold nrParityShardsPerBlock maxShards
    rw [Nat.div_lt_iff_lt_mul (by omega)]
    omega
  have hpar : blockParity f b ≤ maxShards - blockData f b := Nat.min_le_right _ _
  unfold nrDataShardsPerBlock at hD
  unfold maxShards at hD hpar
  refine ⟨by omega, ?_⟩
  rw [blockPercentage, percentage_lt (by omega)]
  omega

/-- The last block fits exactly if the frame has room for it. -/
theorem fits_last {a : Args} (h : 16 < a.requestedPacketSize) (encrypted : Bool) :
    BlockFits (a.frame encrypted) (blockCount (a.frame encrypted) - 1) ↔ FecFits a := by
  have hpos := blockCount_pos (a.frame encrypted)
  have hv : Valid (a.frame encrypted) := valid_frame (by unfold nvVideoPacketSize; omega) encrypted
  obtain ⟨hr, -⟩ := hv.blockRange (lt_nrBlocks
    (show blockCount (a.frame encrypted) - 1 < blockCount (a.frame encrypted) by omega))
  have hd : 0 < blockData (a.frame encrypted) (blockCount (a.frame encrypted) - 1) := by
    unfold blockData
    omega
  have hpar : blockParity (a.frame encrypted) (blockCount (a.frame encrypted) - 1) =
      min (max (lastBlockData a * a.fecPercentage.toNat / 100) a.minimumFecPackets.toNat)
        (255 - lastBlockData a) := by
    rw [blockParity, lastBlockData_eq h]
    rfl
  have hle : 100 * (lastBlockData a * a.fecPercentage.toNat / 100) ≤ 255 * lastBlockData a := by
    have h₁ := Nat.mul_div_le (lastBlockData a * a.fecPercentage.toNat) 100
    have h₂ := Nat.mul_le_mul_left (lastBlockData a)
      (show a.fecPercentage.toNat ≤ 255 from Nat.le_of_lt_succ a.fecPercentage.toNat_lt)
    omega
  rw [BlockFits, blockPercentage, percentage_lt hd, hpar, FecFits]
  rw [lastBlockData_eq h] at hd ⊢
  generalize lastBlockData a * a.fecPercentage.toNat / 100 = share at hle ⊢
  omega

/-- A receiver decodes the headers of every shard of the batch. -/
def HeadersDecode (x : Crates) (cipher : Option (List Byte)) (f : Frame) (batch : ShardBatch) : Prop :=
  ∀ b < blockCount f, ∀ k < blockSize f b, ∃ sent shard,
    (blocksOf f batch)[b]?.bind (·[k]?) = some sent ∧ received x cipher sent = some shard ∧
      Decodes f b k shard

/-- The headers of a batch decode exactly if its last block fits. -/
theorem decode_iff_last {keys : SessionKeyData} {a : Args} {s s' : State x} {batch : ShardBatch}
    (hrun : packetize keys a s = (.ok batch, s')) :
    16 < a.requestedPacketSize ∧
      (HeadersDecode x s'.packetizer.cipher (a.frame s'.packetizer.cipher.isSome) batch ↔
        BlockFits (a.frame s'.packetizer.cipher.isSome)
          (blockCount (a.frame s'.packetizer.cipher.isSome) - 1)) := by
  obtain ⟨hv, hblocks⟩ := packetize_received hrun
  have hsize : 0 < a.requestedPacketSize - 16 := hv.payloadSize
  refine ⟨by omega, ?_⟩
  generalize s'.packetizer.cipher = cipher at hblocks hv ⊢
  generalize a.frame cipher.isSome = f at hblocks hv ⊢
  have hpos := blockCount_pos f
  constructor
  · intro h
    have hd : 0 < blockSize f (blockCount f - 1) := by
      have := (hv.blockRange (lt_nrBlocks (show blockCount f - 1 < blockCount f by omega))).1
      unfold blockSize blockData
      omega
    obtain ⟨sent, shard, hget, hrec, hdec⟩ := h (blockCount f - 1) (by omega) 0 hd
    obtain ⟨q, buf, hfill, hall⟩ := hblocks (blockCount f - 1) (by omega)
    obtain ⟨sent', hget', hrec'⟩ := hall 0 hd
    rw [hget', Option.some.injEq] at hget
    subst hget
    rw [hrec', Option.some.injEq] at hrec
    subst hrec
    exact fits_of_decodes (hfill.fields hv hd).1 hdec
  · intro hlast b hb k hk
    obtain ⟨q, buf, hfill, hall⟩ := hblocks b hb
    obtain ⟨sent, hget, hrec⟩ := hall k hk
    obtain ⟨h₁, h₂⟩ := hfill.fields hv hk
    have hfits : BlockFits f b := by
      by_cases he : b + 1 < blockCount f
      · exact fits_full hv he
      · rwa [show b = blockCount f - 1 by omega]
    exact ⟨sent, buf.shard k, hget, hrec,
      decodes_of_fits hv hb hk hfits h₁ h₂⟩

/-- For a frame that `packetize` returned, with or without encryption: the
headers of all its shards decode exactly if its last block has room for them. -/
theorem headersDecode_iff {keys : SessionKeyData} {a : Args} {s s' : State x} {batch : ShardBatch}
    (hrun : packetize keys a s = (.ok batch, s')) :
    HeadersDecode x s'.packetizer.cipher (a.frame s'.packetizer.cipher.isSome) batch ↔ FecFits a := by
  obtain ⟨h16, hiff⟩ := decode_iff_last hrun
  rw [hiff, fits_last h16]

theorem headersDecode_iff_small :
    ∃ batch s', packetize ⟨[], 0⟩ ⟨[1, 2, 3], true, 32, 1, 20, 7, 9, 0⟩
        ⟨new repetition false, 5, []⟩ = (.ok batch, s') ∧
      (HeadersDecode repetition s'.packetizer.cipher
        (Args.frame ⟨[1, 2, 3], true, 32, 1, 20, 7, 9, 0⟩ s'.packetizer.cipher.isSome) batch ↔
        FecFits ⟨[1, 2, 3], true, 32, 1, 20, 7, 9, 0⟩) := by
  obtain ⟨batch, s', hrun⟩ := packetize_one_shard (a := ⟨[1, 2, 3], true, 32, 1, 20, 7, 9, 0⟩)
    (by decide) (by decide) ⟨[], 0⟩ (s := ⟨new repetition false, 5, []⟩) rfl
  exact ⟨batch, s', hrun, headersDecode_iff hrun⟩

/-- A frame of one data shard with three FEC packets: its percentage, 300, runs
over into the index. -/
theorem headers_of_small_frame :
    ¬ ∀ batch s', packetize ⟨[], 0⟩ ⟨[], true, 24, 3, 20, 1, 0, 0⟩ ⟨new repetition false, 0, []⟩ =
        (.ok batch, s') →
      HeadersDecode repetition s'.packetizer.cipher
        (Args.frame ⟨[], true, 24, 3, 20, 1, 0, 0⟩ s'.packetizer.cipher.isSome) batch := by
  intro h
  obtain ⟨batch, s', hrun⟩ := packetize_one_shard (a := ⟨[], true, 24, 3, 20, 1, 0, 0⟩)
    (by decide) (by decide) ⟨[], 0⟩ (s := ⟨new repetition false, 0, []⟩) rfl
  obtain ⟨h16, hiff⟩ := decode_iff_last hrun
  have hfits := (fits_last h16 _).mp (hiff.mp (h batch s' hrun))
  unfold FecFits at hfits
  exact absurd hfits (by decide)

end Moonshine.Proof.Packetizer
