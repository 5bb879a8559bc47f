import Mathlib.Data.UInt
import Moonshine.Proof.Video.Headers
import Moonshine.Proof.Video.ShardBatch

/-!
# What `packetize` returns

The loops of `packetize`, from the inside out: a loop over shards writes each of
them (`eachShard_eq`), the body of the loop over the blocks fills a buffer with
the data shards and the patched parity shards of its block (`fillBlock_spec`),
and encryption replaces each by what a receiver opens to it again.
-/

namespace Moonshine.Proof.Packetizer

open Moonshine.Framework Moonshine.Impl Moonshine.Impl.Packetizer Moonshine.Proof.ShardBatch

variable {x : Crates}

theorem seq_succ (q : UInt32) (n : Nat) : q + 1 + UInt32.ofNat n = q + UInt32.ofNat (n + 1) := by
  rw [UInt32.ofNat_add, show UInt32.ofNat 1 = 1 from rfl, add_assoc, add_comm 1]

/-- The loop over shards, where each step makes `out` of its shard. -/
theorem eachShard_eq (body : Nat → UInt32 → List Byte → Outcome (List Byte)) (out : Nat → List Byte)
    (index n : Nat) {buf : ShardBuf} {s : State x} (h : WellFormed buf)
    (hn : index + n ≤ buf.shardCount)
    (hbody : ∀ k < n, body (index + k) (s.sequenceNumber + UInt32.ofNat k) (buf.shard (index + k)) =
      .ok (out (index + k)) ∧ (out (index + k)).length = buf.dataSize) :
    ∃ buf', eachShard body n index buf s =
        (.ok buf', { s with sequenceNumber := s.sequenceNumber + UInt32.ofNat n }) ∧
      WellFormed buf' ∧ SameShape buf buf' ∧ (∀ j, buf'.shardPrefix j = buf.shardPrefix j) ∧
      ∀ j, buf'.shard j = if index ≤ j ∧ j < index + n then out j else buf.shard j := by
  induction n generalizing index buf s with
  | zero =>
    refine ⟨buf, ?_, h, SameShape.refl buf, fun _ => rfl, fun j => by rw [if_neg (by omega)]⟩
    show (Outcome.ok buf, s) = _
    rw [show UInt32.ofNat 0 = 0 from rfl, add_zero]
  | succ n ih =>
    obtain ⟨h₀, hl₀⟩ := hbody 0 (Nat.succ_pos n)
    rw [Nat.add_zero, show UInt32.ofNat 0 = 0 from rfl, add_zero] at h₀
    rw [Nat.add_zero] at hl₀
    have hi : index < buf.shardCount := by omega
    obtain ⟨buf', hrun, hwf, hshape, hpre, hsh⟩ :=
      ih (index + 1) (s := s.nextSequence) (h.setShard hi hl₀) (show index + 1 + n ≤ buf.shardCount by omega)
        fun k hk => by
          obtain ⟨hb, hl⟩ := hbody (k + 1) (by omega)
          rw [show index + 1 + k = index + (k + 1) by omega]
          refine ⟨?_, hl⟩
          rw [shard_setShard_of_ne h hi hl₀ (by omega)]
          show body _ (s.sequenceNumber + 1 + UInt32.ofNat k) _ = _
          rw [seq_succ]
          exact hb
    refine ⟨buf', ?_, hwf, (sameShape_setShard buf index _).trans hshape, fun j => ?_, fun j => ?_⟩
    · rw [eachShard, Prog.gets_bind, shardMut_eq h hi h₀ hl₀, Prog.liftM_bind_ok, Prog.modify_bind,
        hrun]
      show (_, { s with sequenceNumber := s.sequenceNumber + 1 + UInt32.ofNat n }) = _
      rw [seq_succ]
    · exact (hpre j).trans (shardPrefix_setShard h hi hl₀ j)
    · rw [hsh j]
      by_cases hj : j = index
      · subst hj
        rw [if_neg (by omega), if_pos (by omega), shard_setShard_self h hi hl₀]
      · rw [shard_setShard_of_ne h hi hl₀ hj]
        by_cases hr : index + 1 ≤ j ∧ j < index + 1 + n
        · rw [if_pos hr, if_pos (by omega)]
        · rw [if_neg hr, if_neg (by omega)]

/-- Getting an encoder touches the cache only. -/
theorem getFecEncoder_eq_ok {d p : Nat} {s s' : State x} {r : x.ReedSolomon d p}
    (h : getFecEncoder d p s = (.ok r, s')) :
    ∃ cache, s' = { s with packetizer := { s.packetizer with fecEncoders := cache } } := by
  unfold getFecEncoder at h
  rw [Prog.gets_bind] at h
  cases hc : s.packetizer.fecEncoders d p with
  | some encoder =>
    rw [hc] at h
    cases h
    exact ⟨s.packetizer.fecEncoders, rfl⟩
  | none =>
    rw [hc] at h
    obtain ⟨a, ha, h⟩ := Prog.liftM_bind_eq_ok.mp h
    cases h
    exact ⟨_, rfl⟩

/-! ## One block -/

/-- The number of data shards of a block. -/
def blockData (f : Frame) (b : Nat) : Nat := (blockRange f b).2 - (blockRange f b).1

def blockParity (f : Frame) (b : Nat) : Nat :=
  nrParityShards (blockData f b) f.fecPercentage f.minimumFecPackets

/-- The percentage in the headers of a block. -/
def blockPercentage (f : Frame) (b : Nat) : Nat := blockParity f b * 100 / blockData f b

theorem nrDataShardsPerBlock_pos (fecPercentage : Byte) : 0 < nrDataShardsPerBlock fecPercentage := by
  have hb := fecPercentage.toNat_lt
  have h : nrParityShardsPerBlock fecPercentage < 255 := by
    unfold nrParityShardsPerBlock maxShards
    rw [Nat.div_lt_iff_lt_mul (by omega)]
    omega
  unfold nrDataShardsPerBlock maxShards
  omega

theorem Valid.nrDataShards_pos {f : Frame} (h : Valid f) : 0 < f.nrDataShards := by
  have h₁ := h.packetDataLen
  have h₂ := h.payloadSize
  rw [h.nrDataShards]
  exact Nat.div_pos (by omega) h.payloadSize

/-- Every payload starts within the stream. -/
theorem Valid.start_lt {f : Frame} (h : Valid f) {j : Nat} (hj : j < f.nrDataShards) :
    j * f.requestedShardPayloadSize < f.packetDataLen := by
  have h₁ := h.payloadSize
  have h₂ := Nat.div_mul_le_self (f.packetDataLen + f.requestedShardPayloadSize - 1)
    f.requestedShardPayloadSize
  rw [← h.nrDataShards] at h₂
  have h₃ := Nat.mul_le_mul_right f.requestedShardPayloadSize (show j + 1 ≤ f.nrDataShards from hj)
  rw [Nat.succ_mul] at h₃
  omega

/-- The blocks are not empty and lie within the frame. -/
theorem Valid.blockRange {f : Frame} (h : Valid f) {b : Nat} (hb : b < nrBlocks f) :
    (blockRange f b).1 < (Packetizer.blockRange f b).2 ∧
      (Packetizer.blockRange f b).2 ≤ f.nrDataShards := by
  have hN := h.nrDataShards_pos
  have hD := nrDataShardsPerBlock_pos f.fecPercentage
  have hle : b * nrDataShardsPerBlock f.fecPercentage ≤ f.nrDataShards - 1 := by
    rw [← Nat.le_div_iff_mul_le hD]
    exact Nat.le_of_lt_succ hb
  unfold Packetizer.blockRange
  dsimp only
  have hs : (b + 1) * nrDataShardsPerBlock f.fecPercentage =
      b * nrDataShardsPerBlock f.fecPercentage + nrDataShardsPerBlock f.fecPercentage :=
    Nat.succ_mul ..
  split <;> omega

/-- The buffer of a block as `fillBlock` leaves it, its shards numbered from
`q` on. -/
structure Filled (x : Crates) (f : Frame) (b : Nat) (q : UInt32) (buf : ShardBuf) : Prop where
  wellFormed : WellFormed buf
  dataSize : buf.dataSize = f.requestedShardSize
  prefixSize : buf.prefixSize = f.prefixSize
  shardCount : buf.shardCount = blockData f b + blockParity f b
  data : ∀ k < blockData f b, buf.shard k =
    dataShard f b (blockData f b) (blockPercentage f b) k ((blockRange f b).1 + k)
      (q + UInt32.ofNat k)
  /-- The parity shards are the encoder's for the data shards, patched. -/
  parity : 0 < blockParity f b → ∃ (r : x.ReedSolomon (blockData f b) (blockParity f b)) (out : _),
    x.encode r ((List.range (blockData f b)).map buf.shard ++
      List.replicate (blockParity f b) (List.replicate f.requestedShardSize 0)) = some out ∧
    ∀ k < blockParity f b, ∃ raw, out[blockData f b + k]? = some raw ∧
      raw.length = f.requestedShardSize ∧
      buf.shard (blockData f b + k) =
        parityShard f b (blockData f b) (blockPercentage f b) (blockData f b + k)
          (q + UInt32.ofNat (blockData f b + k)) raw

/-- The states differ in the sequence number, advanced by `n`, and the encoder
cache. -/
structure Advanced (n : Nat) (s s' : State x) : Prop where
  sequenceNumber : s'.sequenceNumber = s.sequenceNumber + UInt32.ofNat n
  encrypt : s'.packetizer.encrypt = s.packetizer.encrypt
  cipher : s'.packetizer.cipher = s.packetizer.cipher
  lastKeyId : s'.packetizer.lastKeyId = s.packetizer.lastKeyId
  gcmIvCounter : s'.packetizer.gcmIvCounter = s.packetizer.gcmIvCounter
  sealed : s'.sealed = s.sealed

/-- The data shards, written into the new buffer of a block. -/
theorem writeDataShards_eq {f : Frame} (h : Valid f) {b : Nat} (hb : b < nrBlocks f) {buf : ShardBuf}
    (hbuf : ShardBuf.new (blockData f b + blockParity f b) f.requestedShardSize f.prefixSize = .ok buf)
    (s : State x) :
    ∃ buf', writeDataShards f b (blockRange f b).1 (blockData f b) (blockPercentage f b) buf s =
        (.ok buf', { s with sequenceNumber := s.sequenceNumber + UInt32.ofNat (blockData f b) }) ∧
      WellFormed buf' ∧ SameShape buf buf' ∧
      ∀ j < blockData f b + blockParity f b, buf'.shard j =
        if j < blockData f b then
          dataShard f b (blockData f b) (blockPercentage f b) j ((blockRange f b).1 + j)
            (s.sequenceNumber + UInt32.ofNat j)
        else List.replicate f.requestedShardSize 0 := by
  obtain ⟨hr₁, hr₂⟩ := h.blockRange hb
  have hnew := new_eq_ok hbuf
  have hwf : WellFormed buf := by rw [hnew]; exact wellFormed_new _ _ _
  have hsize : buf.dataSize = f.requestedShardSize := by rw [hnew]
  have hcount : buf.shardCount = blockData f b + blockParity f b := by rw [hnew]
  have hzero : ∀ j < blockData f b + blockParity f b,
      buf.shard j = List.replicate f.requestedShardSize 0 := fun j hj => by
    have hle := hwf.slot_le (hcount ▸ hj)
    rw [hnew] at hle ⊢
    exact slice_replicate 0 (by simpa using hle)
  have hbody : ∀ k < blockData f b,
      writeDataShard f b (blockData f b) (blockPercentage f b) (0 + k) ((blockRange f b).1 + (0 + k))
          (s.sequenceNumber + UInt32.ofNat k) (buf.shard (0 + k)) =
        .ok (dataShard f b (blockData f b) (blockPercentage f b) (0 + k) ((blockRange f b).1 + (0 + k))
          (s.sequenceNumber + UInt32.ofNat (0 + k))) ∧
      (dataShard f b (blockData f b) (blockPercentage f b) (0 + k) ((blockRange f b).1 + (0 + k))
        (s.sequenceNumber + UInt32.ofNat (0 + k))).length = buf.dataSize := fun k hk => by
    rw [Nat.zero_add, hzero k (by omega), hsize]
    refine ⟨writeDataShard_eq h (Nat.le_of_lt (h.start_lt ?_)) .., length_dataShard h ..⟩
    unfold blockData at hk
    omega
  obtain ⟨buf', hrun, hwf', hshape, -, hsh⟩ := eachShard_eq (s := s)
    (fun index => writeDataShard f b (blockData f b) (blockPercentage f b) index
      ((blockRange f b).1 + index))
    (fun j => dataShard f b (blockData f b) (blockPercentage f b) j ((blockRange f b).1 + j)
      (s.sequenceNumber + UInt32.ofNat j)) 0 (blockData f b) hwf (by omega) hbody
  refine ⟨buf', hrun, hwf', hshape, fun j hj => ?_⟩
  rw [hsh j, hzero j hj]
  by_cases hd : j < blockData f b
  · rw [if_pos (by omega), if_pos hd]
  · rw [if_neg (by omega), if_neg hd]

/-- The parity shards of a buffer whose data shards are written: the encoder
computes them from the slices, and the headers are patched into them. -/
theorem encode_patch {f : Frame} (h : Valid f) {b : Nat} {buf : ShardBuf} (hwf : WellFormed buf)
    (hsize : buf.dataSize = f.requestedShardSize)
    (hcount : buf.shardCount = blockData f b + blockParity f b)
    {r : x.ReedSolomon (blockData f b) (blockParity f b)} {out : List (List Byte)}
    (hout : x.encode r buf.asFecSlices = some out) (s : State x) :
    ∃ buf', patchParityShards f b (blockData f b) (blockParity f b) (blockPercentage f b)
        (buf.setFecSlices 0 out) s =
        (.ok buf', { s with sequenceNumber := s.sequenceNumber + UInt32.ofNat (blockParity f b) }) ∧
      WellFormed buf' ∧ SameShape buf buf' ∧
      (∀ j < blockData f b, buf'.shard j = buf.shard j) ∧
      ∀ k < blockParity f b, ∃ raw, out[blockData f b + k]? = some raw ∧
        raw.length = f.requestedShardSize ∧
        buf'.shard (blockData f b + k) =
          parityShard f b (blockData f b) (blockPercentage f b) (blockData f b + k)
            (s.sequenceNumber + UInt32.ofNat k) raw := by
  have hlens := x.encode_length r _ _ hout
  have hlen : out.length = buf.shardCount := by
    have := congrArg List.length hlens
    rwa [List.length_map, List.length_map, length_asFecSlices] at this
  have hx : ∀ y ∈ out, y.length = buf.dataSize := fun y hy => by
    have hmem : y.length ∈ buf.asFecSlices.map List.length := by
      rw [← hlens]; exact List.mem_map_of_mem hy
    obtain ⟨z, hz, hzl⟩ := List.mem_map.mp hmem
    obtain ⟨i, hi, rfl⟩ := List.mem_map.mp hz
    rw [← hzl, hwf.length_shard (List.mem_range.mp hi)]
  obtain ⟨hwf₁, hshape₁, -, hsh₁⟩ := setFecSlices_spec hwf (show 0 + out.length ≤ buf.shardCount by omega) hx
  have hget : ∀ j < buf.shardCount, out[j]? = some ((buf.setFecSlices 0 out).shard j) := fun j hj => by
    rw [hsh₁ j, if_pos (Nat.zero_le j), Nat.sub_zero, List.getElem?_eq_getElem (by omega),
      Option.getD_some]
  have hdata : ∀ j < blockData f b, (buf.setFecSlices 0 out).shard j = buf.shard j := fun j hj => by
    have ht := congrArg (·[j]?) (x.encode_data r _ _ hout)
    simp only [List.getElem?_take, if_pos hj] at ht
    rw [hget j (by omega), getElem?_asFecSlices (by omega), Option.some.injEq] at ht
    exact ht
  have h32 := h.shardSize
  have hbody : ∀ k < blockParity f b,
      patchParityShard f b (blockData f b) (blockPercentage f b) (blockData f b + k)
          (s.sequenceNumber + UInt32.ofNat k) ((buf.setFecSlices 0 out).shard (blockData f b + k)) =
        .ok (parityShard f b (blockData f b) (blockPercentage f b) (blockData f b + k)
          (s.sequenceNumber + UInt32.ofNat (blockData f b + k - blockData f b))
          ((buf.setFecSlices 0 out).shard (blockData f b + k))) ∧
      (parityShard f b (blockData f b) (blockPercentage f b) (blockData f b + k)
          (s.sequenceNumber + UInt32.ofNat (blockData f b + k - blockData f b))
          ((buf.setFecSlices 0 out).shard (blockData f b + k))).length =
        (buf.setFecSlices 0 out).dataSize := fun k hk => by
    have hl := hwf₁.length_shard (i := blockData f b + k) (by rw [hshape₁.shardCount]; omega)
    have hge : 32 ≤ ((buf.setFecSlices 0 out).shard (blockData f b + k)).length := by
      rw [hl, hshape₁.dataSize]; omega
    rw [Nat.add_sub_cancel_left, length_parityShard hge, hl]
    exact ⟨patchParityShard_eq hge .., rfl⟩
  obtain ⟨buf', hrun, hwf', hshape, -, hsh⟩ := eachShard_eq (s := s)
    (patchParityShard f b (blockData f b) (blockPercentage f b))
    (fun j => parityShard f b (blockData f b) (blockPercentage f b) j
      (s.sequenceNumber + UInt32.ofNat (j - blockData f b)) ((buf.setFecSlices 0 out).shard j))
    (blockData f b) (blockParity f b) hwf₁ (by rw [hshape₁.shardCount]; omega) hbody
  refine ⟨buf', hrun, hwf', hshape₁.trans hshape, fun j hj => ?_, fun k hk => ?_⟩
  · rw [hsh j, if_neg (by omega), hdata j hj]
  · refine ⟨_, hget _ (by omega), ?_, ?_⟩
    · rw [hwf₁.length_shard (by rw [hshape₁.shardCount]; omega), hshape₁.dataSize, hsize]
    · rw [hsh, if_pos (by omega), Nat.add_sub_cancel_left]

theorem Advanced.refl (s : State x) : Advanced 0 s s :=
  ⟨(add_zero _).symm, rfl, rfl, rfl, rfl, rfl⟩

theorem Advanced.trans {m n : Nat} {s s' s'' : State x} (h : Advanced m s s') (k : Advanced n s' s'') :
    Advanced (m + n) s s'' :=
  ⟨by rw [k.sequenceNumber, h.sequenceNumber, UInt32.ofNat_add, add_assoc],
    k.encrypt.trans h.encrypt, k.cipher.trans h.cipher, k.lastKeyId.trans h.lastKeyId,
    k.gcmIvCounter.trans h.gcmIvCounter, k.sealed.trans h.sealed⟩

theorem advanced_sequence (n : Nat) (s : State x) :
    Advanced n s { s with sequenceNumber := s.sequenceNumber + UInt32.ofNat n } :=
  ⟨rfl, rfl, rfl, rfl, rfl, rfl⟩

theorem getFecEncoder_advanced {d p : Nat} {s s' : State x} {r : x.ReedSolomon d p}
    (h : getFecEncoder d p s = (.ok r, s')) : Advanced 0 s s' := by
  obtain ⟨cache, rfl⟩ := getFecEncoder_eq_ok h
  exact ⟨(add_zero _).symm, rfl, rfl, rfl, rfl, rfl⟩

theorem blockEncoder_eq_ok {d p : Nat} {s s' : State x} {encoder : Option (x.ReedSolomon d p)}
    (h : blockEncoder d p s = (.ok encoder, s')) :
    Advanced 0 s s' ∧ (encoder.isSome ↔ 0 < p) := by
  unfold blockEncoder at h
  by_cases hp : 0 < p
  · rw [if_pos hp] at h
    obtain ⟨r, m, hr, h⟩ := Prog.bind_eq_ok.mp h
    cases h
    exact ⟨getFecEncoder_advanced hr, by simpa using hp⟩
  · rw [if_neg hp] at h
    cases h
    exact ⟨Advanced.refl s, by simpa using hp⟩

theorem map_shard_eq {buf buf' : ShardBuf} {n : Nat} (h : ∀ j < n, buf'.shard j = buf.shard j) :
    (List.range n).map buf'.shard = (List.range n).map buf.shard :=
  List.map_congr_left fun j hj => h j (List.mem_range.mp hj)

/-- The slices of a buffer whose data shards are written. -/
theorem asFecSlices_eq {buf : ShardBuf} {d p n : Nat} (hcount : buf.shardCount = d + p)
    (hzero : ∀ j, d ≤ j → j < d + p → buf.shard j = List.replicate n 0) :
    buf.asFecSlices = (List.range d).map buf.shard ++ List.replicate p (List.replicate n 0) := by
  rw [ShardBuf.asFecSlices, hcount, List.range_add, List.map_append, List.map_map]
  congr 1
  refine List.eq_replicate_iff.mpr ⟨by simp, fun y hy => ?_⟩
  obtain ⟨k, hk, rfl⟩ := List.mem_map.mp hy
  rw [List.mem_range] at hk
  exact hzero (d + k) (by omega) (by omega)

/-- The body of the loop over the blocks, once it is known to have shards. -/
theorem fillBlock_eq {f : Frame} (h : Valid f) {b : Nat} (hb : b < nrBlocks f) :
    (fillBlock f b : Prog (State x) ShardBuf) = (do
      let encoder ← blockEncoder (blockData f b) (blockParity f b)
      let buf ← ShardBuf.new (blockData f b + blockParity f b) f.requestedShardSize f.prefixSize
      let buf ← writeDataShards f b (blockRange f b).1 (blockData f b) (blockPercentage f b) buf
      writeParityShards f b (blockPercentage f b) encoder buf) := by
  obtain ⟨hr, -⟩ := h.blockRange hb
  funext s
  unfold fillBlock
  dsimp only
  rw [checkedSub_of_le (Nat.le_of_lt hr), Prog.liftM_bind_ok,
    if_neg (show (blockRange f b).2 - (blockRange f b).1 ≠ 0 by omega)]
  rfl

/-- The body of the loop over the blocks, where it returns. -/
theorem fillBlock_spec {f : Frame} (h : Valid f) {b : Nat} (hb : b < nrBlocks f) {s s' : State x}
    {buf : ShardBuf} (hrun : fillBlock f b s = (.ok buf, s')) :
    Filled x f b s.sequenceNumber buf ∧ Advanced (blockData f b + blockParity f b) s s' := by
  rw [fillBlock_eq h hb] at hrun
  obtain ⟨encoder, s₁, henc, hrun⟩ := Prog.bind_eq_ok.mp hrun
  obtain ⟨buf₀, hbuf₀, hrun⟩ := Prog.liftM_bind_eq_ok.mp hrun
  obtain ⟨buf₁, s₂, hdata, hrun⟩ := Prog.bind_eq_ok.mp hrun
  have hnew := new_eq_ok hbuf₀
  obtain ⟨buf₁', hdata', hwf, hshape, hsh⟩ := writeDataShards_eq h hb hbuf₀ s₁
  obtain ⟨h₁, h₂⟩ := Prod.mk.inj (hdata.symm.trans hdata')
  obtain rfl := Outcome.ok.inj h₁
  have hsize : buf₁.dataSize = f.requestedShardSize := by rw [hshape.dataSize, hnew]
  have hpre : buf₁.prefixSize = f.prefixSize := by rw [hshape.prefixSize, hnew]
  have hcount : buf₁.shardCount = blockData f b + blockParity f b := by
    rw [hshape.shardCount, hnew]
  obtain ⟨hadv, hsome⟩ := blockEncoder_eq_ok henc
  have hseq : s₁.sequenceNumber = s.sequenceNumber := by
    rw [hadv.sequenceNumber]; exact add_zero _
  cases encoder with
  | some r =>
    obtain ⟨out, hout, hrun⟩ := Prog.liftM_bind_eq_ok.mp hrun
    rw [Outcome.ofOption_eq_ok] at hout
    obtain ⟨buf', hpatch, hwf', hshape', hd, hpar⟩ := encode_patch h hwf hsize hcount hout s₂
    obtain ⟨h₁, h₃⟩ := Prod.mk.inj (hrun.symm.trans hpatch)
    obtain rfl := Outcome.ok.inj h₁
    have hslices := asFecSlices_eq (n := f.requestedShardSize) hcount fun j hj hj' => by
      rw [hsh j hj', if_neg (by omega)]
    refine ⟨⟨hwf', by rw [hshape'.dataSize, hsize], by rw [hshape'.prefixSize, hpre],
      by rw [hshape'.shardCount, hcount], fun k hk => ?_, fun _ => ⟨r, out, ?_, fun k hk => ?_⟩⟩, ?_⟩
    · rw [hd k hk, hsh k (by omega), if_pos hk, hseq]
    · rw [map_shard_eq hd, ← hslices]
      exact hout
    · obtain ⟨raw, h₄, h₅, h₆⟩ := hpar k hk
      refine ⟨raw, h₄, h₅, ?_⟩
      rw [h₆, h₂, hseq]
      show parityShard f b _ _ _ (s.sequenceNumber + UInt32.ofNat _ + UInt32.ofNat k) raw = _
      rw [add_assoc, ← UInt32.ofNat_add]
    · rw [h₃, h₂]
      have := (hadv.trans (advanced_sequence (blockData f b) s₁)).trans
        (advanced_sequence (blockParity f b) _)
      rwa [Nat.zero_add] at this
  | none =>
    cases hrun
    have hp : ¬ 0 < blockParity f b := fun hp => by simpa using hsome.mpr hp
    refine ⟨⟨hwf, hsize, hpre, hcount, fun k hk => ?_, fun hp' => (hp hp').elim⟩, ?_⟩
    · rw [hsh k (by omega), if_pos hk, hseq]
    · rw [h₂, show blockParity f b = 0 by omega, Nat.add_zero]
      have := hadv.trans (advanced_sequence (blockData f b) s₁)
      rwa [Nat.zero_add] at this

/-! ## Encryption -/

/-- What a receiver makes of a shard: it opens it, if there is a cipher, with the
IV and the tag in its prefix. -/
def received (x : Crates) (cipher : Option (List Byte)) (shard : List Byte) : Option (List Byte) :=
  match cipher with
  | none => some shard
  | some key =>
    x.decryptInPlaceDetached key (slice shard 0 12) (shard.drop encPrefixSize) (slice shard 16 16)

/-- The prefix of a shard: IV, frame number and tag. -/
def encPrefix (iv : List Byte) (frameNumber : UInt32) (tag : List Byte) : List Byte :=
  iv ++ leBytes 4 frameNumber.toNat ++ tag

theorem length_videoIv (c : UInt64) : (videoIv c).length = 12 := by
  simp [videoIv]

theorem received_encPrefix {key plain : List Byte} {c : UInt64} {out : List Byte × List Byte}
    (h : x.encryptInPlaceDetached key (videoIv c) plain = some out) (frameNumber : UInt32) :
    received x (some key) (encPrefix (videoIv c) frameNumber out.2 ++ out.1) = some plain := by
  have hiv := length_videoIv c
  have htag := (x.encrypt_length _ _ _ _ h).2
  have h₁ : slice (encPrefix (videoIv c) frameNumber out.2 ++ out.1) 0 12 = videoIv c := by
    rw [encPrefix, List.append_assoc, List.append_assoc, slice_append_left (by omega), ← hiv,
      slice_zero_length]
  have h₂ : (encPrefix (videoIv c) frameNumber out.2 ++ out.1).drop encPrefixSize = out.1 :=
    List.drop_left' (by simp [encPrefix, hiv, htag, encPrefixSize])
  have h₃ : slice (encPrefix (videoIv c) frameNumber out.2 ++ out.1) 16 16 = out.2 := by
    rw [slice_append_left (by simp [encPrefix, hiv, htag]), encPrefix,
      slice_append_right (by simp [hiv]), List.length_append, hiv, length_leBytes, Nat.sub_self]
    conv_lhs => rw [← htag]
    exact slice_zero_length _
  rw [received, h₁, h₂, h₃]
  exact x.decrypt_encrypt _ _ _ _ h

theorem writePrefix_eq {pre tag : List Byte} (hp : pre.length = 32) (ht : tag.length = 16)
    (c : UInt64) (frameNumber : UInt32) :
    (do
      let pre ← writeAt pre 0 (videoIv c)
      let pre ← writeAt pre 12 (leBytes 4 frameNumber.toNat)
      writeAt pre 16 tag) = .ok (encPrefix (videoIv c) frameNumber tag) := by
  have hiv := length_videoIv c
  rw [writeAt_zero (by omega), Outcome.ok_bind, writeAt_append (by omega) (by simp; omega),
    Outcome.ok_bind, writeAt_append (by simp [hiv]) (by simp; omega), encPrefix]
  simp [hiv, hp, ht]

/-- The states differ in the IV counter, advanced by `n`, and the record of the
encryptions. -/
structure Sealed (n : Nat) (s s' : State x) : Prop where
  sequenceNumber : s'.sequenceNumber = s.sequenceNumber
  fecEncoders : s'.packetizer.fecEncoders = s.packetizer.fecEncoders
  encrypt : s'.packetizer.encrypt = s.packetizer.encrypt
  cipher : s'.packetizer.cipher = s.packetizer.cipher
  lastKeyId : s'.packetizer.lastKeyId = s.packetizer.lastKeyId
  gcmIvCounter : s'.packetizer.gcmIvCounter = s.packetizer.gcmIvCounter + UInt64.ofNat n

/-- The shard is what one of the encryptions `made` under the key gave for `plain`. -/
def ShardSealed (x : Crates) (key : List Byte) (made : List (List Byte × List Byte))
    (plain shard : List Byte) : Prop :=
  ∃ c frameNumber out, (key, videoIv c) ∈ made ∧
    x.encryptInPlaceDetached key (videoIv c) plain = some out ∧
      shard = encPrefix (videoIv c) frameNumber out.2 ++ out.1

theorem ShardSealed.mono {key plain shard : List Byte} {made made' : List (List Byte × List Byte)}
    (h : ShardSealed x key made plain shard) (hsub : made ⊆ made') :
    ShardSealed x key made' plain shard := by
  obtain ⟨c, frameNumber, out, hmade, henc⟩ := h
  exact ⟨c, frameNumber, out, hsub hmade, henc⟩

theorem ShardSealed.received {key plain shard : List Byte} {made : List (List Byte × List Byte)}
    (h : ShardSealed x key made plain shard) : received x (some key) shard = some plain := by
  obtain ⟨c, frameNumber, out, -, henc, rfl⟩ := h
  exact received_encPrefix henc frameNumber

theorem encryptShards_sealed {frameNumber : UInt32} {key : List Byte} {n index : Nat}
    {buf buf' : ShardBuf} {s s' : State x} (h : WellFormed buf) (hpre : buf.prefixSize = 32)
    (hn : index + n ≤ buf.shardCount)
    (hrun : encryptShards frameNumber key n index buf s = (.ok buf', s')) :
    WellFormed buf' ∧ SameShape buf buf' ∧ Sealed n s s' ∧
      (∀ j, j < index ∨ index + n ≤ j →
        buf'.shard j = buf.shard j ∧ buf'.shardPrefix j = buf.shardPrefix j) ∧
      ∃ made, s'.sealed = s.sealed ++ made ∧ ∀ j, index ≤ j → j < index + n →
        ShardSealed x key made (buf.shard j) (buf'.shardPrefix j ++ buf'.shard j) := by
  induction n generalizing index buf s with
  | zero =>
    cases hrun
    exact ⟨h, SameShape.refl _, ⟨rfl, rfl, rfl, rfl, rfl, (add_zero _).symm⟩,
      fun _ _ => ⟨rfl, rfl⟩, [], (List.append_nil _).symm, fun j h₁ h₂ => by omega⟩
  | succ n ih =>
    have hi : index < buf.shardCount := by omega
    rw [encryptShards, Prog.gets_bind, Prog.modify_bind, readAt_of_le (h.slot_le hi),
      Prog.liftM_bind_ok, Prog.modify_bind] at hrun
    obtain ⟨out, hout, hrun⟩ := Prog.liftM_bind_eq_ok.mp hrun
    rw [Outcome.ofOption_eq_ok] at hout
    obtain ⟨hl₀, hl₂⟩ := x.encrypt_length _ _ _ _ hout
    have hl₁ : out.1.length = buf.dataSize := hl₀.trans (h.length_shard hi)
    rw [shardMut_eq h hi (x := out.1) rfl hl₁, Prog.liftM_bind_ok] at hrun
    have hwf₁ := h.setShard hi hl₁
    have hlp : ((setShard buf index out.1).shardPrefix index).length = 32 := by
      rw [hwf₁.length_shardPrefix hi]; exact hpre
    have henc : (encPrefix (videoIv s.packetizer.gcmIvCounter) frameNumber out.2).length = 32 := by
      simp [encPrefix, length_videoIv, hl₂]
    rw [prefixMut_eq hwf₁ hi (writePrefix_eq hlp hl₂ _ _) (by rw [henc]; exact hpre.symm),
      Prog.liftM_bind_ok] at hrun
    have henc' : (encPrefix (videoIv s.packetizer.gcmIvCounter) frameNumber out.2).length =
        (setShard buf index out.1).prefixSize := henc.trans hpre.symm
    obtain ⟨hwf', hshape, hsealed, hout', made, hmade, hin⟩ :=
      ih (hwf₁.setPrefix hi henc') hpre (show index + 1 + n ≤ buf.shardCount by omega) hrun
    have hkeep : ∀ j, j ≠ index →
        (setPrefix (setShard buf index out.1) index
          (encPrefix (videoIv s.packetizer.gcmIvCounter) frameNumber out.2)).shard j = buf.shard j ∧
        (setPrefix (setShard buf index out.1) index
          (encPrefix (videoIv s.packetizer.gcmIvCounter) frameNumber out.2)).shardPrefix j =
            buf.shardPrefix j := fun j hj =>
      ⟨(shard_setPrefix hwf₁ hi henc' j).trans (shard_setShard_of_ne h hi hl₁ hj),
        (shardPrefix_setPrefix_of_ne hwf₁ hi henc' hj).trans (shardPrefix_setShard h hi hl₁ j)⟩
    refine ⟨hwf', ((sameShape_setShard ..).trans (sameShape_setPrefix ..)).trans hshape, ?_,
      fun j hj => ?_, (key, videoIv s.packetizer.gcmIvCounter) :: made, ?_, fun j h₁ h₂ => ?_⟩
    · refine ⟨hsealed.sequenceNumber, hsealed.fecEncoders, hsealed.encrypt, hsealed.cipher,
        hsealed.lastKeyId, ?_⟩
      rw [hsealed.gcmIvCounter, UInt64.ofNat_add]
      show s.packetizer.gcmIvCounter + 1 + _ = _
      rw [add_assoc, add_comm 1]
      rfl
    · obtain ⟨e₁, e₂⟩ := hout' j (by omega)
      obtain ⟨e₃, e₄⟩ := hkeep j (by omega)
      exact ⟨e₁.trans e₃, e₂.trans e₄⟩
    · rw [hmade]
      simp
    · by_cases hj : j = index
      · subst hj
        obtain ⟨e₁, e₂⟩ := hout' j (.inl (Nat.lt_succ_self j))
        rw [e₁, e₂, shard_setPrefix hwf₁ hi henc', shard_setShard_self h hi hl₁,
          shardPrefix_setPrefix_self hwf₁ hi henc']
        exact ⟨_, frameNumber, out, List.mem_cons_self, hout, rfl⟩
      · have hsealed' := hin j (by omega) (by omega)
        rw [(hkeep j hj).1] at hsealed'
        exact hsealed'.mono (List.subset_cons_self _ _)

theorem encryptShards_spec {frameNumber : UInt32} {key : List Byte} {n index : Nat}
    {buf buf' : ShardBuf} {s s' : State x} (h : WellFormed buf) (hpre : buf.prefixSize = 32)
    (hn : index + n ≤ buf.shardCount)
    (hrun : encryptShards frameNumber key n index buf s = (.ok buf', s')) :
    WellFormed buf' ∧ SameShape buf buf' ∧ Sealed n s s' ∧
      (∀ j, j < index ∨ index + n ≤ j →
        buf'.shard j = buf.shard j ∧ buf'.shardPrefix j = buf.shardPrefix j) ∧
      ∀ j, index ≤ j → j < index + n →
        received x (some key) (buf'.shardPrefix j ++ buf'.shard j) = some (buf.shard j) := by
  obtain ⟨hwf, hshape, hsealed, hkept, made, -, hin⟩ := encryptShards_sealed h hpre hn hrun
  exact ⟨hwf, hshape, hsealed, hkept, fun j h₁ h₂ => (hin j h₁ h₂).received⟩

end Moonshine.Proof.Packetizer
