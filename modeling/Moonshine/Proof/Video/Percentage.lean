import Moonshine.Proof.Video.FecHeader

/-!
# The FEC percentage

The number of parity shards of a block follows from the percentage, rounded
down; the percentage that is sent follows from that number, rounded down again.
A receiver goes the other way and rounds up. It gets the number back exactly
where the second rounding lost less than one shard and the percentage fits its
byte (`parity_iff`).
-/

namespace Moonshine.Proof.Packetizer

open Moonshine.Framework Moonshine.Impl Moonshine.Impl.Packetizer

variable {x : Crates}

/-- How many parity shards a receiver expects with `d` data shards. -/
def expectedParity (d percentage : Nat) : Nat := (d * percentage + 99) / 100

/-- The byte of the percentage gives the number of parity shards back. -/
theorem parity_iff {d p : Nat} (hd : 0 < d) :
    expectedParity d (p * 100 / d % 256) = p ↔ 100 * p < 256 * d ∧ 100 * p % d < 100 := by
  have hdiv := Nat.div_add_mod (100 * p) d
  have hmod := Nat.mod_lt (100 * p) hd
  rw [← percentage_lt hd, Nat.mul_comm p, expectedParity]
  generalize 100 * p / d = percentage at hdiv ⊢
  generalize 100 * p % d = rest at hdiv hmod ⊢
  by_cases hfits : percentage < 256
  · rw [Nat.mod_eq_of_lt hfits]
    omega
  · -- What the byte loses is 256 times the data shards, which no rounding makes up for.
    have hle : d * (percentage % 256) + d * 256 ≤ d * percentage := by
      rw [← Nat.mul_add]
      exact Nat.mul_le_mul_left d (by omega)
    omega

/-- In a block of `d` data shards, the percentage loses less than one parity
shard, and fits its byte. -/
def RoundsBack (a : Args) (d : Nat) : Prop :=
  let parity := min (max (d * a.fecPercentage.toNat / 100) a.minimumFecPackets.toNat) (255 - d)
  100 * parity < 256 * d ∧ 100 * parity % d < 100

instance (a : Args) (d : Nat) : Decidable (RoundsBack a d) := inferInstanceAs (Decidable (_ ∧ _))

/-- The data shards of a full block. -/
def fullBlockData (a : Args) : Nat := 255 - 255 * a.fecPercentage.toNat / (100 + a.fecPercentage.toNat)

/-- The last block rounds back, and if the frame has others, full blocks do. -/
def FecRounds (a : Args) : Prop :=
  RoundsBack a (lastBlockData a) ∧
    (fullBlockData a < (8 + a.encodedData.length + (a.requestedPacketSize - 16) - 1) /
      (a.requestedPacketSize - 16) → RoundsBack a (fullBlockData a))

/-- A receiver computes the number of parity shards of each block from each of
its shards. -/
def ParityAdvertised (x : Crates) (cipher : Option (List Byte)) (f : Frame) (batch : ShardBatch) : Prop :=
  ∀ b < blockCount f, ∀ k < blockSize f b, ∃ sent shard,
    (blocksOf f batch)[b]?.bind (·[k]?) = some sent ∧ received x cipher sent = some shard ∧
      expectedParity (blockData f b) ((fecInfoOf shard >>> 4) &&& 0xFF) = blockParity f b

theorem blockData_full {f : Frame} (h : Valid f) {b : Nat} (hb : b + 1 < blockCount f) :
    blockData f b = nrDataShardsPerBlock f.fecPercentage := by
  rw [blockData, blockRange_full h hb]
  show (b + 1) * _ - b * _ = _
  rw [Nat.succ_mul, Nat.add_sub_cancel_left]

theorem blockData_pos {f : Frame} (h : Valid f) {b : Nat} (hb : b < blockCount f) : 0 < blockData f b := by
  have := (h.blockRange (lt_nrBlocks hb)).1
  unfold blockData
  omega

/-- A frame has full blocks before the last if it has more data shards than one holds. -/
theorem one_lt_blockCount_iff (a : Args) (encrypted : Bool) : 1 < blockCount (a.frame encrypted) ↔
    fullBlockData a < (8 + a.encodedData.length + (a.requestedPacketSize - 16) - 1) /
      (a.requestedPacketSize - 16) := by
  have hpos := nrDataShardsPerBlock_pos a.fecPercentage
  have hfull : nrDataShardsPerBlock a.fecPercentage = fullBlockData a := rfl
  have hcount : blockCount (a.frame encrypted) =
      min (((a.frame encrypted).nrDataShards - 1) / nrDataShardsPerBlock a.fecPercentage + 1) 4 := rfl
  have hshards : (a.frame encrypted).nrDataShards =
      (8 + a.encodedData.length + (a.requestedPacketSize - 16) - 1) / (a.requestedPacketSize - 16) := rfl
  rw [hcount, ← hshards, ← hfull, Nat.lt_min, Nat.lt_add_left_iff_pos, Nat.div_pos_iff]
  omega

theorem rounds_iff {a : Args} (encrypted : Bool) (h : 16 < a.requestedPacketSize) :
    (∀ b < blockCount (a.frame encrypted), RoundsBack a (blockData (a.frame encrypted) b)) ↔
      FecRounds a := by
  have hv : Valid (a.frame encrypted) := valid_frame (by unfold nvVideoPacketSize; omega) encrypted
  have hpos := blockCount_pos (a.frame encrypted)
  rw [FecRounds, ← one_lt_blockCount_iff a encrypted, ← lastBlockData_eq h encrypted]
  constructor
  · refine fun hall => ⟨hall _ (by omega), fun hcount => ?_⟩
    have hfirst := hall 0 hpos
    rwa [blockData_full hv (by omega)] at hfirst
  · rintro ⟨hlast, hfull⟩ b hb
    by_cases hb' : b + 1 < blockCount (a.frame encrypted)
    · rw [blockData_full hv hb']
      exact hfull (by omega)
    · rwa [show b = blockCount (a.frame encrypted) - 1 by omega]

/-- A receiver finds the shards of a batch, with the words of their headers. -/
theorem received_fields {keys : SessionKeyData} {a : Args} {s s' : State x} {batch : ShardBatch}
    (hrun : packetize keys a s = (.ok batch, s')) {b k : Nat}
    (hb : b < blockCount (a.frame s'.packetizer.cipher.isSome))
    (hk : k < blockSize (a.frame s'.packetizer.cipher.isSome) b) : ∃ sent shard,
      (blocksOf (a.frame s'.packetizer.cipher.isSome) batch)[b]?.bind (·[k]?) = some sent ∧
      received x s'.packetizer.cipher sent = some shard ∧
      fecInfoOf shard = (fecInfo k (blockData (a.frame s'.packetizer.cipher.isSome) b)
        (blockPercentage (a.frame s'.packetizer.cipher.isSome) b)).toNat := by
  obtain ⟨hv, hblocks⟩ := packetize_received hrun
  obtain ⟨q, buf, hfill, hall⟩ := hblocks b hb
  obtain ⟨sent, hget, hrec⟩ := hall k hk
  exact ⟨sent, buf.shard k, hget, hrec, (hfill.fields hv hk).1⟩

theorem advertised_iff_rounds {keys : SessionKeyData} {a : Args} {s s' : State x} {batch : ShardBatch}
    (hrun : packetize keys a s = (.ok batch, s')) :
    ParityAdvertised x s'.packetizer.cipher (a.frame s'.packetizer.cipher.isSome) batch ↔ FecRounds a := by
  obtain ⟨h16, -⟩ := decode_iff_last hrun
  have hv : Valid (a.frame s'.packetizer.cipher.isSome) :=
    valid_frame (by unfold nvVideoPacketSize; omega) _
  rw [← rounds_iff s'.packetizer.cipher.isSome h16]
  refine forall_congr' fun b => forall_congr' fun hb => ?_
  have hiff := parity_iff (p := blockParity (a.frame s'.packetizer.cipher.isSome) b) (blockData_pos hv hb)
  constructor
  · intro hall
    obtain ⟨sent, shard, hget, hrec, hparity⟩ := hall 0 (by
      have := blockData_pos hv hb
      unfold blockSize
      omega)
    obtain ⟨sent', shard', hget', hrec', hinfo⟩ := received_fields hrun hb (k := 0) (by
      have := blockData_pos hv hb
      unfold blockSize
      omega)
    rw [hget', Option.some.injEq] at hget
    rw [← hget, hrec', Option.some.injEq] at hrec
    rw [← hrec, hinfo, fecInfo_percentage] at hparity
    exact hiff.mp hparity
  · intro hrounds k hk
    obtain ⟨sent, shard, hget, hrec, hinfo⟩ := received_fields hrun hb hk
    refine ⟨sent, shard, hget, hrec, ?_⟩
    rw [hinfo, fecInfo_percentage]
    exact hiff.mpr hrounds

/-- For a frame that `packetize` returned: a receiver computes the number of
parity shards of all its blocks exactly if their percentages round back. -/
theorem parityAdvertised_iff {keys : SessionKeyData} {a : Args} {s s' : State x} {batch : ShardBatch}
    (hrun : packetize keys a s = (.ok batch, s')) :
    ParityAdvertised x s'.packetizer.cipher (a.frame s'.packetizer.cipher.isSome) batch ↔ FecRounds a :=
  advertised_iff_rounds hrun

theorem parityAdvertised_iff_small :
    ∃ batch s', packetize ⟨[], 0⟩ ⟨[1, 2, 3], true, 32, 1, 20, 7, 9, 0⟩
        ⟨new repetition false, 5, []⟩ = (.ok batch, s') ∧
      ParityAdvertised repetition s'.packetizer.cipher
        (Args.frame ⟨[1, 2, 3], true, 32, 1, 20, 7, 9, 0⟩ s'.packetizer.cipher.isSome) batch := by
  obtain ⟨batch, s', hrun⟩ := packetize_one_shard (a := ⟨[1, 2, 3], true, 32, 1, 20, 7, 9, 0⟩)
    (by decide) (by decide) ⟨[], 0⟩ (s := ⟨new repetition false, 5, []⟩) rfl
  exact ⟨batch, s', hrun, (parityAdvertised_iff hrun).mpr (by unfold FecRounds; decide)⟩

/-- The bytewise sum of slices of `n` bytes. -/
def xorAll (n : Nat) (slices : List (List Byte)) : List Byte :=
  slices.foldr (fun slice sum => List.zipWith (· ^^^ ·) slice sum) (List.replicate n 0)

theorem length_xorAll {n : Nat} {slices : List (List Byte)} (h : ∀ y ∈ slices, y.length = n) :
    (xorAll n slices).length = n := by
  induction slices with
  | nil => exact List.length_replicate
  | cons y slices ih =>
    have hy := h y List.mem_cons_self
    have hsum := ih fun z hz => h z (List.mem_cons_of_mem _ hz)
    show (List.zipWith _ y (xorAll n slices)).length = n
    rw [List.length_zipWith, hy, hsum, Nat.min_self]

/-- The Reed-Solomon code of 127 data shards and one parity shard, which is their sum. -/
def sumOf127 : Crates where
  ReedSolomon _ _ := Unit
  reedSolomonNew d p := if d = 127 ∧ p = 1 then some () else none
  encode {d _} _ slices :=
    if slices.length = d + 1 ∧ ∀ y ∈ slices, y.length = slices.headI.length then
      some (slices.take d ++ [xorAll slices.headI.length (slices.take d)])
    else none
  encryptInPlaceDetached _ _ _ := none
  decryptInPlaceDetached _ _ _ _ := none
  encode_length := by
    intro d p _ slices out h
    split at h <;> cases h
    rename_i hc
    have htake : ∀ y ∈ slices.take d, y.length = slices.headI.length := fun y hy =>
      hc.2 y (List.mem_of_mem_take hy)
    have hlast : ∀ y ∈ slices.drop d, y.length = slices.headI.length := fun y hy =>
      hc.2 y (List.mem_of_mem_drop hy)
    conv_rhs => rw [← List.take_append_drop d slices]
    rw [List.map_append, List.map_append, List.map_singleton, length_xorAll htake]
    refine congrArg _ (List.map_eq_replicate_iff.mpr hlast ▸ ?_)
    rw [List.length_drop, hc.1, Nat.add_sub_cancel_left]
    rfl
  encode_data := by
    intro d p _ slices out h
    split at h <;> cases h
    rename_i hc
    rw [List.take_append_of_le_length (by simp; omega), List.take_take, Nat.min_self]
  encrypt_length := repetition.encrypt_length
  decrypt_encrypt := repetition.decrypt_encrypt

/-- 119 bytes of video in packets that carry one each. -/
def sparseFrame : Args := ⟨List.replicate 119 0, false, 17, 1, 0, 1, 0, 0⟩

theorem sparseFrame_packetized :
    ∃ batch s', packetize ⟨[], 0⟩ sparseFrame ⟨new sumOf127 false, 0, []⟩ = (.ok batch, s') := by
  have hcount : blockCount (sparseFrame.frame false) = 1 := by decide +kernel
  have hdata : blockData (sparseFrame.frame false) 0 = 127 := by decide +kernel
  have hparity : blockParity (sparseFrame.frame false) 0 = 1 := by decide +kernel
  have hblock : ∀ b < blockCount (sparseFrame.frame false), b = 0 := fun b hb => by omega
  refine packetize_total (by decide) ⟨fun b hb _ => ?_, fun b hb r slices hl hs => ?_⟩
    (fun b hb => ?_) rfl _
  · obtain rfl := hblock b hb
    rw [hdata, hparity]
    exact ⟨(), rfl⟩
  · obtain rfl := hblock b hb
    rw [blockSize, hparity] at hl
    have hhead : slices.headI.length = (sparseFrame.frame false).requestedShardSize := by
      cases slices with
      | nil => simp at hl
      | cons y ys => exact hs y List.mem_cons_self
    exact ⟨_, if_pos ⟨hl, fun y hy => (hs y hy).trans hhead.symm⟩⟩
  · obtain rfl := hblock b hb
    rw [BlockAllocates, blockSize, hdata, hparity]
    decide

/-- With one parity shard to 127 data shards, the percentage is 0: a receiver
expects no parity shard. -/
theorem parity_not_advertised : ¬ ∀ batch s',
    packetize ⟨[], 0⟩ sparseFrame ⟨new sumOf127 false, 0, []⟩ = (.ok batch, s') →
      ParityAdvertised sumOf127 s'.packetizer.cipher (sparseFrame.frame s'.packetizer.cipher.isSome)
        batch := by
  intro h
  obtain ⟨batch, s', hrun⟩ := sparseFrame_packetized
  have hrounds := (advertised_iff_rounds hrun).mp (h batch s' hrun)
  exact absurd hrounds (by unfold FecRounds; decide +kernel)

end Moonshine.Proof.Packetizer
