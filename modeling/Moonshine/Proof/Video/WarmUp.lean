import Moonshine.Proof.Video.Percentage
import Moonshine.Proof.Video.Totality

/-!
# The encoder cache

`warm_up` makes an encoder for every number of data shards that a block before
the fourth can have (`cached_warmUp`), and `packetize` only looks the encoders
up from then on (`packetize_hits`). With what the crate documents of its
encoders, and room for the buffers, a call without encryption returns, and all
it copies lies within a shard and the frame (`packetize_returns`).
-/

namespace Moonshine.Proof.Packetizer

open Moonshine.Framework Moonshine.Framework.Outcome Moonshine.Impl Moonshine.Impl.Packetizer
open Moonshine.Proof.ShardBatch

variable {x : Crates}

/-- What the crate says of its encoders. -/
structure ReedSolomonLaws (x : Crates) : Prop where
  new_iff : ∀ d p, (x.reedSolomonNew d p).isSome ↔ 1 ≤ d ∧ 1 ≤ p ∧ d + p ≤ 255
  encode : ∀ {d p : Nat} (r : x.ReedSolomon d p) (slices : List (List Byte)) (n : Nat), 0 < n →
    slices.length = d + p → (∀ y ∈ slices, y.length = n) → ∃ out, x.encode r slices = some out

def Cached (p : Packetizer x) (d q : Nat) : Prop := (p.fecEncoders d q).isSome

/-- What is cached stays cached. -/
def CacheGrows (s s' : State x) : Prop := ∀ d q, Cached s.packetizer d q → Cached s'.packetizer d q

/-! ## Looking an encoder up -/

theorem getFecEncoder_hit {d p : Nat} {s : State x} (h : Cached s.packetizer d p) :
    ∃ r, getFecEncoder d p s = (.ok r, s) := by
  obtain ⟨r, hr⟩ := Option.isSome_iff_exists.mp h
  refine ⟨r, ?_⟩
  unfold getFecEncoder
  rw [Prog.gets_bind, hr]
  rfl

/-- A miss makes the encoder and keeps it beside the others. -/
theorem getFecEncoder_miss {d p : Nat} {s : State x} (h : s.packetizer.fecEncoders d p = none)
    {r : x.ReedSolomon d p} (hr : x.reedSolomonNew d p = some r) :
    (getFecEncoder d p s).2.packetizer.fecEncoders =
      Function.update s.packetizer.fecEncoders d (Function.update (s.packetizer.fecEncoders d) p r) := by
  unfold getFecEncoder
  rw [Prog.gets_bind, h, hr]
  rfl

theorem cached_getFecEncoder {d p : Nat} (hnew : (x.reedSolomonNew d p).isSome) (s : State x) :
    Cached (getFecEncoder d p s).2.packetizer d p := by
  by_cases hc : Cached s.packetizer d p
  · obtain ⟨r, hr⟩ := getFecEncoder_hit hc
    rwa [hr]
  · obtain ⟨r, hr⟩ := Option.isSome_iff_exists.mp hnew
    rw [Cached, getFecEncoder_miss (Option.not_isSome_iff_eq_none.mp hc) hr, Function.update_self,
      Function.update_self]
    rfl

/-- Getting an encoder, made or not, drops none. -/
theorem getFecEncoder_grows (d p : Nat) : Prog.Moves CacheGrows (getFecEncoder (x := x) d p) := by
  intro s d' q' h'
  cases hc : s.packetizer.fecEncoders d p with
  | some encoder =>
    obtain ⟨r, hr⟩ := getFecEncoder_hit (s := s) (Option.isSome_iff_exists.mpr ⟨encoder, hc⟩)
    rwa [hr]
  | none =>
    cases hn : x.reedSolomonNew d p with
    | none =>
      unfold getFecEncoder
      rwa [Prog.gets_bind, hc, hn]
    | some r =>
      rw [Cached, getFecEncoder_miss hc hn]
      by_cases hd : d' = d
      · subst hd
        rw [Function.update_self]
        by_cases hq : q' = p
        · subst hq
          rw [Function.update_self]
          rfl
        · rwa [Function.update_of_ne hq]
      · rwa [Function.update_of_ne hd]

/-! ## Warming up -/

/-- The number of parity shards leaves room for the data shards. -/
theorem nrParityShards_le {d : Nat} {fecPercentage : Byte} {minimumFecPackets : UInt32}
    (h : 0 < nrParityShards d fecPercentage minimumFecPackets) :
    d + nrParityShards d fecPercentage minimumFecPackets ≤ 255 := by
  unfold nrParityShards maxShards at h ⊢
  omega

theorem ReedSolomonLaws.new (h : ReedSolomonLaws x) {d : Nat} (hd : 0 < d) {fecPercentage : Byte}
    {minimumFecPackets : UInt32} (hp : 0 < nrParityShards d fecPercentage minimumFecPackets) :
    (x.reedSolomonNew d (nrParityShards d fecPercentage minimumFecPackets)).isSome :=
  (h.new_iff _ _).mpr ⟨hd, hp, nrParityShards_le hp⟩

/-- The body of the loop of `warm_up`. -/
def warmUpOne (fecPercentage : Byte) (minimumFecPackets : UInt32) (p : Packetizer x) (d : Nat) :
    Packetizer x :=
  if nrParityShards d fecPercentage minimumFecPackets > 0 then
    (getFecEncoder d (nrParityShards d fecPercentage minimumFecPackets) ⟨p, 0, []⟩).2.packetizer
  else p

theorem warmUpOne_cached (h : ReedSolomonLaws x) {fecPercentage : Byte} {minimumFecPackets : UInt32}
    (p : Packetizer x) {d : Nat} (hd : 0 < d) (hp : 0 < nrParityShards d fecPercentage minimumFecPackets) :
    Cached (warmUpOne fecPercentage minimumFecPackets p d) d
      (nrParityShards d fecPercentage minimumFecPackets) := by
  rw [warmUpOne, if_pos hp]
  exact cached_getFecEncoder (h.new hd hp) _

theorem warmUpOne_grows (fecPercentage : Byte) (minimumFecPackets : UInt32) (p : Packetizer x)
    (d : Nat) {d' q' : Nat} (hc : Cached p d' q') :
    Cached (warmUpOne fecPercentage minimumFecPackets p d) d' q' := by
  unfold warmUpOne
  split
  · exact getFecEncoder_grows _ _ _ d' q' hc
  · exact hc

/-- The loop caches the encoder of every number it goes over. -/
theorem cached_foldl (h : ReedSolomonLaws x) {fecPercentage : Byte} {minimumFecPackets : UInt32}
    {l : List Nat} (hl : ∀ d ∈ l, 0 < d) {p : Packetizer x} {d : Nat}
    (hp : 0 < nrParityShards d fecPercentage minimumFecPackets)
    (hd : Cached p d (nrParityShards d fecPercentage minimumFecPackets) ∨ d ∈ l) :
    Cached (l.foldl (warmUpOne fecPercentage minimumFecPackets) p) d
      (nrParityShards d fecPercentage minimumFecPackets) := by
  induction l generalizing p with
  | nil => exact hd.resolve_right List.not_mem_nil
  | cons e l ih =>
    have he : 0 < e := hl e List.mem_cons_self
    refine ih (fun d hd => hl d (List.mem_cons_of_mem e hd)) ?_
    rcases hd with hd | hd
    · exact Or.inl (warmUpOne_grows _ _ p e hd)
    · rcases List.mem_cons.mp hd with rfl | hd
      · exact Or.inl (warmUpOne_cached h p he hp)
      · exact Or.inr hd

theorem cached_warmUp (h : ReedSolomonLaws x) (p : Packetizer x) {fecPercentage : Byte}
    {minimumFecPackets : UInt32} {d : Nat} (hd : 0 < d) (hle : d ≤ nrDataShardsPerBlock fecPercentage)
    (hp : 0 < nrParityShards d fecPercentage minimumFecPackets) :
    Cached (p.warmUp fecPercentage minimumFecPackets) d
      (nrParityShards d fecPercentage minimumFecPackets) := by
  show Cached ((List.range' 1 (nrDataShardsPerBlock fecPercentage)).foldl
    (warmUpOne fecPercentage minimumFecPackets) p) d _
  have hmem : d ∈ List.range' 1 (nrDataShardsPerBlock fecPercentage) := by
    rw [List.mem_range'_1]
    omega
  exact cached_foldl h (fun e he => (List.mem_range'_1.mp he).1) hp (Or.inr hmem)

/-- Of a frame of at most three blocks, every block has at most as many data
shards as a full one. -/
theorem blockData_le {f : Frame} (h3 : nrBlocks f ≤ 3) {b : Nat} (hb : b < blockCount f) :
    blockData f b ≤ nrDataShardsPerBlock f.fecPercentage := by
  have hne : b ≠ 3 := by
    have := lt_nrBlocks hb
    omega
  have hsucc : (b + 1) * nrDataShardsPerBlock f.fecPercentage =
      b * nrDataShardsPerBlock f.fecPercentage + nrDataShardsPerBlock f.fecPercentage := Nat.succ_mul ..
  unfold blockData blockRange
  dsimp only
  rw [if_neg hne]
  omega

/-- The encoders a frame needs are in the cache. -/
def FrameCached (p : Packetizer x) (f : Frame) : Prop :=
  ∀ b < blockCount f, 0 < blockParity f b → Cached p (blockData f b) (blockParity f b)

theorem frameCached_warmUp (h : ReedSolomonLaws x) {p₀ p : Packetizer x} {f : Frame} (hf : Valid f)
    (h3 : nrBlocks f ≤ 3)
    (hwarm : ∀ d q, Cached (p₀.warmUp f.fecPercentage f.minimumFecPackets) d q → Cached p d q) :
    FrameCached p f := fun _ hb hp =>
  hwarm _ _ (cached_warmUp h p₀ (blockData_pos hf hb) (blockData_le h3 hb) hp)

/-! ## A frame whose encoders are cached -/

/-- The cache is as it was. -/
def SameCache (s s' : State x) : Prop := s'.packetizer.fecEncoders = s.packetizer.fecEncoders

theorem sameCache_refl (s : State x) : SameCache s s := rfl

theorem sameCache_trans (s s' s'' : State x) (h : SameCache s s') (k : SameCache s' s'') :
    SameCache s s'' := Eq.trans k h

theorem eachShard_sameCache (body : Nat → UInt32 → List Byte → Outcome (List Byte)) (n index : Nat)
    (buf : ShardBuf) : Prog.Moves (SameCache (x := x)) (eachShard body n index buf) := by
  induction n generalizing index buf with
  | zero => exact Prog.Moves.pure sameCache_refl _
  | succ n ih =>
    rw [eachShard]
    refine Prog.Moves.bind sameCache_trans (Prog.Moves.gets sameCache_refl _) fun q => ?_
    refine Prog.Moves.bind sameCache_trans (Prog.Moves.liftM sameCache_refl _) fun buf => ?_
    refine Prog.Moves.bind sameCache_trans (Prog.Moves.modify fun s => ?_) fun _ => ih _ _
    exact Eq.refl s.packetizer.fecEncoders

theorem encryptShards_sameCache (frameNumber : UInt32) (cipher : List Byte) (n index : Nat)
    (buf : ShardBuf) : Prog.Moves (SameCache (x := x)) (encryptShards frameNumber cipher n index buf) := by
  induction n generalizing index buf with
  | zero => exact Prog.Moves.pure sameCache_refl _
  | succ n ih =>
    rw [encryptShards]
    refine Prog.Moves.bind sameCache_trans (Prog.Moves.gets sameCache_refl _) fun iv => ?_
    refine Prog.Moves.bind sameCache_trans (Prog.Moves.modify fun s => Eq.refl s.packetizer.fecEncoders) fun _ => ?_
    refine Prog.Moves.bind sameCache_trans (Prog.Moves.liftM sameCache_refl _) fun data => ?_
    refine Prog.Moves.bind sameCache_trans (Prog.Moves.modify fun s => Eq.refl s.packetizer.fecEncoders) fun _ => ?_
    refine Prog.Moves.bind sameCache_trans (Prog.Moves.liftM sameCache_refl _) fun sealed => ?_
    refine Prog.Moves.bind sameCache_trans (Prog.Moves.liftM sameCache_refl _) fun buf => ?_
    exact Prog.Moves.bind sameCache_trans (Prog.Moves.liftM sameCache_refl _) fun buf => ih _ _

theorem writeParityShards_sameCache (f : Frame) (b pct : Nat) {d p : Nat}
    (encoder : Option (x.ReedSolomon d p)) (buf : ShardBuf) :
    Prog.Moves SameCache (writeParityShards f b pct encoder buf) := by
  cases encoder with
  | none => exact Prog.Moves.pure sameCache_refl _
  | some r =>
    exact Prog.Moves.bind sameCache_trans (Prog.Moves.liftM sameCache_refl _) fun _ =>
      eachShard_sameCache _ _ _ _

theorem blockEncoder_sameCache {d p : Nat} {s : State x} (h : 0 < p → Cached s.packetizer d p) :
    SameCache s (blockEncoder d p s).2 := by
  unfold blockEncoder
  split
  · rename_i hp
    obtain ⟨r, hr⟩ := getFecEncoder_hit (h hp)
    rw [Prog.bind_of_ok hr]
    rfl
  · rfl

theorem fillBlock_sameCache {f : Frame} (hf : Valid f) {b : Nat} (hb : b < nrBlocks f) {s : State x}
    (h : 0 < blockParity f b → Cached s.packetizer (blockData f b) (blockParity f b)) :
    SameCache s (fillBlock f b s).2 := by
  rw [fillBlock_eq hf hb]
  have hencoder := blockEncoder_sameCache h
  refine Prog.bind_state hencoder fun encoder m hm => ?_
  rw [hm] at hencoder
  refine sameCache_trans _ _ _ hencoder ?_
  refine Prog.Moves.bind sameCache_trans (Prog.Moves.liftM sameCache_refl _) (fun buf => ?_) m
  exact Prog.Moves.bind sameCache_trans (eachShard_sameCache _ _ _ _) fun buf =>
    writeParityShards_sameCache f b _ encoder buf

theorem block_sameCache {f : Frame} (hf : Valid f) {b : Nat} (hb : b < nrBlocks f) {s : State x}
    (h : 0 < blockParity f b → Cached s.packetizer (blockData f b) (blockParity f b)) (all : ShardBatch) :
    SameCache s (block f b all s).2 := by
  have hfill := fillBlock_sameCache hf hb h
  refine Prog.bind_state hfill fun buf m hm => ?_
  rw [hm] at hfill
  refine sameCache_trans _ _ _ hfill ?_
  rw [Prog.gets_bind]
  cases m.packetizer.cipher with
  | none => exact sameCache_refl m
  | some cipher =>
    exact Prog.Moves.bind sameCache_trans (encryptShards_sameCache _ _ _ _ _)
      (fun _ => Prog.Moves.pure sameCache_refl _) m

theorem blocks_sameCache {f : Frame} (hf : Valid f) {n b : Nat} (hn : b + n = nrBlocks f) (hb : b ≤ 3)
    {s : State x} (h : FrameCached s.packetizer f) (all : ShardBatch) :
    SameCache s (blocks f n b all s).2 := by
  induction n generalizing b s all with
  | zero => exact sameCache_refl s
  | succ n ih =>
    have hbc : b < blockCount f := Nat.lt_min.mpr ⟨by omega, by omega⟩
    have hblock := block_sameCache hf (lt_nrBlocks hbc) (h b hbc) all
    rw [blocks]
    refine Prog.bind_state hblock fun all' m hm => ?_
    rw [hm] at hblock
    refine sameCache_trans _ _ _ hblock ?_
    split
    · exact sameCache_refl m
    · refine ih (by omega) (by omega) (fun c hc hp => ?_) all'
      have hcached := h c hc hp
      rwa [Cached, ← show m.packetizer.fecEncoders = _ from hblock] at hcached

theorem maybeUpdateCipher_cache (p : Packetizer x) (keys : SessionKeyData) :
    (p.maybeUpdateCipher keys).fecEncoders = p.fecEncoders := by
  unfold maybeUpdateCipher
  split_ifs <;> rfl

/-- A frame whose encoders are cached needs no others. -/
theorem packetize_hits {a : Args} (hsize : 16 < a.requestedPacketSize) {keys : SessionKeyData} {s : State x}
    (h : FrameCached s.packetizer (a.frame (s.packetizer.maybeUpdateCipher keys).cipher.isSome)) :
    SameCache s (packetize keys a s).2 := by
  have hkeep := maybeUpdateCipher_cache s.packetizer keys
  rw [packetize_eq hsize]
  refine sameCache_trans s { s with packetizer := s.packetizer.maybeUpdateCipher keys } _ hkeep ?_
  refine blocks_sameCache (valid_frame (payloadSize_pos hsize) _) (Nat.zero_add _) (by omega) ?_ _
  refine fun b hb hp => ?_
  show ((s.packetizer.maybeUpdateCipher keys).fecEncoders _ _).isSome
  rw [hkeep]
  exact h b hb hp

/-! ## The cache over calls -/

theorem SameCache.grows {s s' : State x} (h : SameCache s s') : CacheGrows s s' := fun d q hc => by
  rwa [Cached, show s'.packetizer.fecEncoders = _ from h]

theorem cacheGrows_refl (s : State x) : CacheGrows s s := fun _ _ h => h

theorem cacheGrows_trans (s s' s'' : State x) (h : CacheGrows s s') (k : CacheGrows s' s'') :
    CacheGrows s s'' := fun d q hc => k d q (h d q hc)

theorem blockEncoder_grows (d p : Nat) : Prog.Moves CacheGrows (blockEncoder (x := x) d p) := by
  unfold blockEncoder
  split
  · exact Prog.Moves.bind cacheGrows_trans (getFecEncoder_grows d p) fun _ =>
      Prog.Moves.pure cacheGrows_refl _
  · exact cacheGrows_refl

theorem fillBlock_grows (f : Frame) (b : Nat) : Prog.Moves CacheGrows (fillBlock (x := x) f b) := by
  unfold fillBlock
  refine Prog.Moves.bind cacheGrows_trans (Prog.Moves.liftM cacheGrows_refl _) fun d => ?_
  dsimp only
  split
  · exact cacheGrows_refl
  refine Prog.Moves.bind cacheGrows_trans (blockEncoder_grows _ _) fun encoder => ?_
  refine Prog.Moves.bind cacheGrows_trans (Prog.Moves.liftM cacheGrows_refl _) fun buf => ?_
  refine Prog.Moves.bind cacheGrows_trans (fun s => (eachShard_sameCache _ _ _ _ s).grows) fun buf => ?_
  exact fun s => (writeParityShards_sameCache f b _ encoder buf s).grows

theorem block_grows (f : Frame) (b : Nat) (all : ShardBatch) :
    Prog.Moves CacheGrows (block (x := x) f b all) := by
  unfold block
  refine Prog.Moves.bind cacheGrows_trans (fillBlock_grows f b) fun buf => ?_
  refine Prog.Moves.bind cacheGrows_trans (Prog.Moves.gets cacheGrows_refl _) fun cipher => ?_
  cases cipher with
  | none => exact cacheGrows_refl
  | some key =>
    refine Prog.Moves.bind cacheGrows_trans (fun s => ?_) fun _ => Prog.Moves.pure cacheGrows_refl _
    exact (encryptShards_sameCache f.frameNumber key _ 0 buf s).grows

theorem blocks_grows (f : Frame) (n b : Nat) (all : ShardBatch) :
    Prog.Moves CacheGrows (blocks (x := x) f n b all) := by
  induction n generalizing b all with
  | zero => exact cacheGrows_refl
  | succ n ih =>
    rw [blocks]
    refine Prog.Moves.bind cacheGrows_trans (block_grows f b all) fun all' => ?_
    split
    · exact cacheGrows_refl
    · exact ih _ _

/-- No call drops an encoder. -/
theorem packetize_grows {a : Args} (hsize : 16 < a.requestedPacketSize) (keys : SessionKeyData) (s : State x) :
    CacheGrows s (packetize keys a s).2 := by
  rw [packetize_eq hsize]
  refine cacheGrows_trans s { s with packetizer := s.packetizer.maybeUpdateCipher keys } _ ?_ ?_
  · exact SameCache.grows (maybeUpdateCipher_cache s.packetizer keys)
  · exact blocks_grows _ _ _ _ _

/-! ## The copies -/

/-- Where in the stream the payload of shard `k` of block `b` starts. -/
def copyOffset (f : Frame) (b k : Nat) : Nat := ((blockRange f b).1 + k) * f.requestedShardPayloadSize

def copyLen (f : Frame) (b k : Nat) : Nat :=
  min f.requestedShardPayloadSize (f.packetDataLen - copyOffset f b k)

/-- The copy into shard `k` of block `b` stays inside the shard, the header and
the encoded data. -/
structure CopyInside (f : Frame) (b k : Nat) : Prop where
  offset : copyOffset f b k ≤ f.packetDataLen
  source : copyOffset f b k + copyLen f b k ≤ f.headerBytes.length + f.encodedData.length
  shard : payloadOffset + copyLen f b k ≤ f.requestedShardSize
  copies : ∀ dst : List Byte, dst.length = f.requestedShardSize - payloadOffset →
    ∃ out, copyHeaderAndData dst f.headerBytes f.encodedData (copyOffset f b k) (copyLen f b k) = .ok out ∧
      out.length = dst.length

theorem copyInside {f : Frame} (h : Valid f) {b k : Nat} (hb : b < blockCount f) (hk : k < blockData f b) :
    CopyInside f b k := by
  have hstart : copyOffset f b k ≤ f.packetDataLen := by
    refine Nat.le_of_lt (h.start_lt ?_)
    have hrange := h.blockRange (lt_nrBlocks hb)
    unfold blockData at hk
    omega
  have htotal := h.packetDataLen
  have hlen : copyLen f b k ≤ f.requestedShardPayloadSize := Nat.min_le_left _ _
  have hsource : copyOffset f b k + copyLen f b k ≤ 8 + f.encodedData.length := by
    unfold copyLen
    omega
  have hpayload : f.requestedShardSize - payloadOffset = f.requestedShardPayloadSize := by
    rw [h.shardSize]
    exact Nat.add_sub_cancel_left 32 _
  refine ⟨hstart, by rwa [h.headerBytes], ?_, fun dst hdst => ?_⟩
  · rw [h.shardSize]
    exact Nat.add_le_add_left hlen 32
  · have hd : copyLen f b k ≤ dst.length := by omega
    refine ⟨_, copyHeaderAndData_eq h.headerBytes hsource hd, ?_⟩
    have hstream : (f.headerBytes ++ f.encodedData).length = 8 + f.encodedData.length := by
      rw [List.length_append, h.headerBytes]
    rw [List.length_append, length_slice (by omega), List.length_drop]
    omega

/-! ## The call -/

theorem encodersWork (h : ReedSolomonLaws x) {f : Frame} (hf : Valid f) : EncodersWork x f where
  new _ hb hp := Option.isSome_iff_exists.mp (h.new (blockData_pos hf hb) hp)
  encode _ _ r slices hlen hsize := by
    have hpos : 0 < f.requestedShardSize := by
      rw [hf.shardSize]
      omega
    exact h.encode r slices _ hpos hlen hsize

/-- The buffers of the blocks can be allocated, and so can the batch that takes
them up: a vector that has to grow doubles its capacity. -/
structure FitsMemory (f : Frame) : Prop where
  blocks : Allocates f
  batch : 1 < blockCount f →
    2 * (blockOffset f (blockCount f) * (f.prefixSize + f.requestedShardSize)) ≤ isizeMax

/-- Without encryption a call returns, its counter short of the end does not
overflow, its copies stay inside, and after `warm_up` a frame of at most three
blocks makes no encoder. -/
theorem packetize_returns (hx : ReedSolomonLaws x) {a : Args} (hsize : 16 < a.requestedPacketSize)
    (hfit : FitsMemory (a.frame false)) {s : State x} (hoff : s.packetizer.encrypt = false)
    (keys : SessionKeyData) :
    (∃ batch s', packetize keys a s = (.ok batch, s') ∧ CacheGrows s s' ∧
      (s.sequenceNumber.toNat + batch.shards.length < 4294967296 →
        s'.sequenceNumber.toNat = s.sequenceNumber.toNat + batch.shards.length)) ∧
    (∀ b < blockCount (a.frame false), ∀ k < blockData (a.frame false) b, CopyInside (a.frame false) b k) ∧
    ∀ p₀ : Packetizer x, nrBlocks (a.frame false) ≤ 3 →
      (∀ d q, Cached (p₀.warmUp a.fecPercentage a.minimumFecPackets) d q → Cached s.packetizer d q) →
        FrameCached s.packetizer (a.frame false) ∧ SameCache s (packetize keys a s).2 := by
  have hv := valid_frame (payloadSize_pos hsize) false
  obtain ⟨batch, s', hrun⟩ := packetize_total hsize (encodersWork hx hv) hfit.blocks hoff keys
  have hgrows := packetize_grows hsize keys s
  rw [hrun] at hgrows
  refine ⟨⟨batch, s', hrun, hgrows, fun hlt => ?_⟩, fun b hb k hk => copyInside hv hb hk, fun p₀ h3 hwarm => ?_⟩
  · rw [packetize_counter hrun, UInt32.toNat_add, UInt32.toNat_ofNat', Nat.add_mod_mod]
    exact Nat.mod_eq_of_lt hlt
  · have hcached : FrameCached s.packetizer (a.frame false) := frameCached_warmUp hx hv h3 hwarm
    refine ⟨hcached, packetize_hits hsize ?_⟩
    rw [maybeUpdateCipher_off hoff, s.packetizer.cipher_off hoff]
    exact hcached

/-- Crates that make the encoders the laws ask for, and no others. -/
def checking : Crates :=
  { copying with
    reedSolomonNew := fun d p => if 1 ≤ d ∧ 1 ≤ p ∧ d + p ≤ 255 then some () else none }

theorem reedSolomonLaws_checking : ReedSolomonLaws checking where
  new_iff d p := by
    show (if 1 ≤ d ∧ 1 ≤ p ∧ d + p ≤ 255 then some () else none).isSome ↔ _
    split_ifs with h
    · exact iff_of_true rfl h
    · exact iff_of_false Bool.false_ne_true h
  encode _ slices _ _ _ _ := ⟨slices, rfl⟩

theorem warmUp_off (p : Packetizer x) (fecPercentage : Byte) (minimumFecPackets : UInt32) :
    (p.warmUp fecPercentage minimumFecPackets).encrypt = p.encrypt := by
  show ((List.range' 1 (nrDataShardsPerBlock fecPercentage)).foldl
    (warmUpOne fecPercentage minimumFecPackets) p).encrypt = _
  induction List.range' 1 (nrDataShardsPerBlock fecPercentage) generalizing p with
  | nil => rfl
  | cons d l ih =>
    rw [List.foldl_cons, ih]
    unfold warmUpOne
    split
    · unfold getFecEncoder
      rw [Prog.gets_bind]
      cases p.fecEncoders d (nrParityShards d fecPercentage minimumFecPackets) with
      | some encoder => rfl
      | none =>
        cases x.reedSolomonNew d (nrParityShards d fecPercentage minimumFecPackets) with
        | some encoder => rfl
        | none => rfl
    · rfl

def smallFrame : Args := ⟨[1, 2, 3], true, 32, 1, 20, 7, 9, 0⟩

theorem fitsMemory_smallFrame : FitsMemory (smallFrame.frame false) where
  blocks := by
    have hcount : blockCount (smallFrame.frame false) = 1 := by decide
    intro b hb
    obtain rfl : b = 0 := by omega
    show blockSize (smallFrame.frame false) 0 * 48 ≤ isizeMax
    have hsize : blockSize (smallFrame.frame false) 0 = 2 := by decide
    rw [hsize]
    decide
  batch := by decide

/-- The packetizer that goes with it. -/
def warmSmall : Packetizer checking :=
  (new checking false).warmUp smallFrame.fecPercentage smallFrame.minimumFecPackets

theorem packetize_returns_small :
    ∃ batch s', packetize ⟨[], 0⟩ smallFrame ⟨warmSmall, 5, []⟩ = (.ok batch, s') ∧
      s'.packetizer.fecEncoders = warmSmall.fecEncoders := by
  obtain ⟨⟨batch, s', hrun, -⟩, -, hwarm⟩ := packetize_returns reedSolomonLaws_checking (a := smallFrame)
    (by decide) fitsMemory_smallFrame (s := ⟨warmSmall, 5, []⟩) (warmUp_off _ _ _) ⟨[], 0⟩
  have h3 : nrBlocks (smallFrame.frame false) ≤ 3 := by decide
  dsimp only at hwarm
  have hcache := (hwarm (new checking false) h3 fun _ _ hc => hc).2
  rw [hrun] at hcache
  exact ⟨batch, s', hrun, hcache⟩

/-- An empty frame, cut into packets of `2 ^ 63` bytes. -/
def hugePacket : Args := ⟨[], true, 9223372036854775808, 0, 20, 7, 9, 0⟩

/-- Its one shard is more than a vector can hold. -/
theorem hugePacket_panics : ReedSolomonLaws checking ∧ 16 < hugePacket.requestedPacketSize ∧
    (new checking false).encrypt = false ∧
      (packetize ⟨[], 0⟩ hugePacket ⟨new checking false, 0, []⟩).1 = .panic := by
  have hsize : 16 < hugePacket.requestedPacketSize := by decide
  have hworks : CratesWork checking (hugePacket.frame false) none :=
    ⟨encodersWork reedSolomonLaws_checking (valid_frame (payloadSize_pos hsize) false), nofun⟩
  refine ⟨reedSolomonLaws_checking, hsize, rfl, packetize_panics hsize hworks fun hcap => ?_⟩
  have hfirst : blockSize (hugePacket.frame false) 0 * 9223372036854775824 ≤ isizeMax :=
    hcap 0 (blockCount_pos _)
  have hone : 0 < blockSize (hugePacket.frame false) 0 :=
    Nat.add_pos_left (blockData_pos (valid_frame (payloadSize_pos hsize) false) (blockCount_pos _)) _
  have hmax : isizeMax = 9223372036854775807 := by decide
  omega

end Moonshine.Proof.Packetizer
