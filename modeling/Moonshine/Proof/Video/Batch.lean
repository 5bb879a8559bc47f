import Mathlib.Data.List.SplitLengths
import Moonshine.Proof.Video.Layout

/-!
# The batch of a frame

`packetize` returns the blocks one after another (`packetize_spec`): the batch
splits at the sizes of the blocks, and each shard is received as the shard that
`fillBlock` wrote (`packetize_received`).
-/

namespace Moonshine.Proof.Packetizer

open Moonshine.Framework Moonshine.Impl Moonshine.Impl.Packetizer Moonshine.Proof.ShardBatch

variable {x : Crates}

/-- The number of blocks sent: the fourth takes what is left. -/
def blockCount (f : Frame) : Nat := min (nrBlocks f) 4

theorem lt_nrBlocks {f : Frame} {b : Nat} (hb : b < blockCount f) : b < nrBlocks f :=
  Nat.lt_of_lt_of_le hb (Nat.min_le_left _ _)

def blockSize (f : Frame) (b : Nat) : Nat := blockData f b + blockParity f b

def blockSizes (f : Frame) : List Nat := (List.range (blockCount f)).map (blockSize f)

/-- The position of a block among the shards of the frame. -/
def blockOffset (f : Frame) (b : Nat) : Nat := ((List.range b).map (blockSize f)).sum

/-- The shards of a batch, split into the blocks of the frame. -/
def blocksOf (f : Frame) (batch : ShardBatch) : List (List (List Byte)) :=
  (blockSizes f).splitLengths batch.shards

/-- The shards of block `b` as sent, numbered from `q` on: each is received as
the shard `fillBlock` wrote. -/
structure SentBlock (x : Crates) (cipher : Option (List Byte)) (f : Frame) (b : Nat) (q : UInt32)
    (sent : List (List Byte)) : Prop where
  length : sent.length = blockSize f b
  filled : ∃ buf, Filled x f b q buf ∧ ∀ k < blockSize f b, ∃ shard, sent[k]? = some shard ∧
    received x cipher shard = some (buf.shard k)

/-- The prefix is there exactly if there is a cipher. -/
def PrefixFits (f : Frame) (cipher : Option (List Byte)) : Prop :=
  f.prefixSize = if cipher.isSome then 32 else 0

/-- The batch so far consists of whole shards. -/
def Accumulated (f : Frame) (b : ShardBatch) : Prop :=
  b = ShardBatch.empty ∨ (b.shardSize = f.prefixSize + f.requestedShardSize ∧ Whole b)

/-- A step of `packetize` that used `n` sequence numbers. -/
structure Used (n : Nat) (s s' : State x) : Prop where
  sequenceNumber : s'.sequenceNumber = s.sequenceNumber + UInt32.ofNat n
  encrypt : s'.packetizer.encrypt = s.packetizer.encrypt
  cipher : s'.packetizer.cipher = s.packetizer.cipher
  lastKeyId : s'.packetizer.lastKeyId = s.packetizer.lastKeyId

theorem Used.trans {m n : Nat} {s s' s'' : State x} (h : Used m s s') (k : Used n s' s'') :
    Used (m + n) s s'' :=
  ⟨by rw [k.sequenceNumber, h.sequenceNumber, UInt32.ofNat_add, add_assoc],
    k.encrypt.trans h.encrypt, k.cipher.trans h.cipher, k.lastKeyId.trans h.lastKeyId⟩

/-- A block adds the shards that `fillBlock` wrote to the batch, encrypted where
there is a cipher. -/
theorem block_append {f : Frame} (h : Valid f) {b : Nat} (hb : b < nrBlocks f) {s s' : State x}
    (hpre : PrefixFits f s.packetizer.cipher) {all all' : ShardBatch} (hall : Accumulated f all)
    (hrun : block f b all s = (.ok all', s')) :
    ∃ buf buf' s₁, Filled x f b s.sequenceNumber buf ∧ Advanced (blockSize f b) s s₁ ∧
      (s.packetizer.cipher = none → buf' = buf ∧ s' = s₁) ∧
      (∀ key, s.packetizer.cipher = some key → buf.prefixSize = 32 ∧
        encryptShards f.frameNumber key (blockSize f b) 0 buf s₁ = (.ok buf', s')) ∧
      all'.shards = all.shards ++
        (List.range (blockSize f b)).map (fun k => buf'.shardPrefix k ++ buf'.shard k) ∧
      Accumulated f all' := by
  obtain ⟨buf, s₁, hfill, hrun⟩ := Prog.bind_eq_ok.mp hrun
  obtain ⟨hf, hadv⟩ := fillBlock_spec h hb hfill
  rw [Prog.gets_bind, hadv.cipher] at hrun
  have hcount : buf.shardCount = blockSize f b := hf.shardCount
  have hpos : 0 < f.prefixSize + f.requestedShardSize := by
    have := h.shardSize
    omega
  have hend : ∀ {buf' : ShardBuf}, WellFormed buf' → SameShape buf buf' →
      all' = all.extendFrom buf'.intoBatch →
      all'.shards = all.shards ++
        (List.range (blockSize f b)).map (fun k => buf'.shardPrefix k ++ buf'.shard k) ∧
        Accumulated f all' := by
    intro buf' hwf' hshape hall'
    have hstride : buf'.stride = f.prefixSize + f.requestedShardSize := by
      rw [hwf'.stride, hshape.prefixSize, hshape.dataSize, hf.prefixSize, hf.dataSize]
    have hspos : 0 < buf'.stride := by omega
    obtain ⟨h₁, h₂, h₃⟩ := shards_extendFrom (a := all) (whole_intoBatch hwf' hspos) hspos
      (hall.imp id fun ha => ⟨ha.1.trans hstride.symm, ha.2⟩)
    rw [← hall'] at h₁ h₂ h₃
    refine ⟨?_, .inr ⟨h₂.trans hstride, h₃⟩⟩
    rw [h₁, shards_intoBatch hwf' hspos, hshape.shardCount, hcount]
  cases hc : s.packetizer.cipher with
  | none =>
    rw [hc] at hrun
    cases hrun
    exact ⟨buf, buf, _, hf, hadv, fun _ => ⟨rfl, rfl⟩, nofun, hend hf.wellFormed (SameShape.refl buf) rfl⟩
  | some key =>
    rw [hc] at hpre hrun
    obtain ⟨buf', s₂, henc, hrun⟩ := Prog.bind_eq_ok.mp hrun
    cases hrun
    have hsize : buf.prefixSize = 32 := hf.prefixSize.trans hpre
    obtain ⟨hwf', hshape, -⟩ := encryptShards_spec hf.wellFormed hsize (by omega) henc
    rw [hcount] at henc
    refine ⟨buf, buf', s₁, hf, hadv, nofun, fun key' hkey => ?_, hend hwf' hshape rfl⟩
    cases hkey
    exact ⟨hsize, henc⟩

theorem block_spec {f : Frame} (h : Valid f) {b : Nat} (hb : b < nrBlocks f) {s s' : State x}
    (hpre : PrefixFits f s.packetizer.cipher) {all all' : ShardBatch} (hall : Accumulated f all)
    (hrun : block f b all s = (.ok all', s')) :
    ∃ sent, SentBlock x s.packetizer.cipher f b s.sequenceNumber sent ∧
      all'.shards = all.shards ++ sent ∧ Accumulated f all' ∧ Used (blockSize f b) s s' := by
  obtain ⟨buf, buf', s₁, hf, hadv, hclear, hsealed, hshards, hall'⟩ := block_append h hb hpre hall hrun
  have hsent : (∀ k < blockSize f b, received x s.packetizer.cipher (buf'.shardPrefix k ++ buf'.shard k) =
      some (buf.shard k)) → SentBlock x s.packetizer.cipher f b s.sequenceNumber
        ((List.range (blockSize f b)).map fun k => buf'.shardPrefix k ++ buf'.shard k) := by
    refine fun hrec => ⟨by simp, buf, hf, fun k hk => ⟨_, ?_, hrec k hk⟩⟩
    rw [List.getElem?_map, List.getElem?_range hk, Option.map_some]
  cases hc : s.packetizer.cipher with
  | none =>
    obtain ⟨rfl, rfl⟩ := hclear hc
    rw [hc] at hpre hsent
    have hzero : buf'.prefixSize = 0 := hf.prefixSize.trans hpre
    refine ⟨_, hsent fun k _ => ?_, hshards, hall',
      ⟨hadv.sequenceNumber, hadv.encrypt, hadv.cipher, hadv.lastKeyId⟩⟩
    rw [ShardBuf.shardPrefix, hzero]
    rfl
  | some key =>
    obtain ⟨hsize, henc⟩ := hsealed key hc
    have hcount : buf.shardCount = blockSize f b := hf.shardCount
    obtain ⟨-, -, hkept, -, hin⟩ := encryptShards_spec hf.wellFormed hsize (by omega) henc
    rw [hc] at hsent
    refine ⟨_, hsent fun k hk => hin k (Nat.zero_le k) (by rwa [Nat.zero_add]), hshards, hall', ?_, ?_, ?_, ?_⟩
    · rw [hkept.sequenceNumber, hadv.sequenceNumber]
    · rw [hkept.encrypt, hadv.encrypt]
    · rw [hkept.cipher, hadv.cipher]
    · rw [hkept.lastKeyId, hadv.lastKeyId]

/-- The position of the block `i` blocks after block `b`. -/
def offsetFrom (f : Frame) (b i : Nat) : Nat := ((List.range' b i).map (blockSize f)).sum

theorem offsetFrom_succ (f : Frame) (b i : Nat) :
    offsetFrom f b (i + 1) = blockSize f b + offsetFrom f (b + 1) i := by
  rw [offsetFrom, List.range'_succ, List.map_cons, List.sum_cons, offsetFrom]

theorem blocks_spec {f : Frame} (h : Valid f) {n b : Nat} (hn : b + n = nrBlocks f) (hb : b ≤ 3)
    (hn0 : 0 < n) {s s' : State x} (hpre : PrefixFits f s.packetizer.cipher) {all batch : ShardBatch}
    (hall : Accumulated f all) (hrun : blocks f n b all s = (.ok batch, s')) :
    ∃ sents : List (List (List Byte)), batch.shards = all.shards ++ sents.flatten ∧
      sents.length = blockCount f - b ∧
      (∀ i < blockCount f - b, ∃ sent, sents[i]? = some sent ∧
        SentBlock x s.packetizer.cipher f (b + i)
          (s.sequenceNumber + UInt32.ofNat (offsetFrom f b i)) sent) ∧
      Used (offsetFrom f b (blockCount f - b)) s s' := by
  induction n generalizing b s all with
  | zero => omega
  | succ n ih =>
    obtain ⟨all', s₁, hblock, hrun⟩ := Prog.bind_eq_ok.mp hrun
    obtain ⟨sent, hsent, hshards, hall', hused⟩ := block_spec h (by omega) hpre hall hblock
    by_cases hlast : b = 3 ∨ n = 0
    · -- The last block: the fourth, or the one the frame ends in.
      have hcount : blockCount f - b = 1 := by unfold blockCount; omega
      have hrun' : all' = batch ∧ s₁ = s' := by
        rcases hlast with h3 | h0
        · rw [if_pos h3] at hrun
          cases hrun
          exact ⟨rfl, rfl⟩
        · subst h0
          by_cases h3 : b = 3
          · rw [if_pos h3] at hrun
            cases hrun
            exact ⟨rfl, rfl⟩
          · rw [if_neg h3] at hrun
            cases hrun
            exact ⟨rfl, rfl⟩
      obtain ⟨rfl, rfl⟩ := hrun'
      rw [hcount]
      refine ⟨[sent], by rw [hshards, List.flatten_singleton], rfl, fun i hi => ?_, ?_⟩
      · obtain rfl : i = 0 := by omega
        refine ⟨sent, rfl, ?_⟩
        rw [Nat.add_zero, show offsetFrom f b 0 = 0 from rfl, show UInt32.ofNat 0 = 0 from rfl, add_zero]
        exact hsent
      · rw [offsetFrom_succ, show offsetFrom f (b + 1) 0 = 0 from rfl, Nat.add_zero]
        exact hused
    · have hb3 : b ≠ 3 := fun e => hlast (.inl e)
      have hn1 : n ≠ 0 := fun e => hlast (.inr e)
      rw [if_neg hb3] at hrun
      obtain ⟨sents, h₁, h₂, h₃, h₄⟩ := ih (b := b + 1) (by omega) (by omega) (by omega)
        (by rw [PrefixFits, hused.cipher]; exact hpre) hall' hrun
      have hcount : blockCount f - b = blockCount f - (b + 1) + 1 := by unfold blockCount; omega
      rw [hcount]
      refine ⟨sent :: sents, ?_, by rw [List.length_cons, h₂], fun i hi => ?_, ?_⟩
      · rw [h₁, hshards, List.flatten_cons, List.append_assoc]
      · cases i with
        | zero =>
          refine ⟨sent, rfl, ?_⟩
          rw [Nat.add_zero, show offsetFrom f b 0 = 0 from rfl, show UInt32.ofNat 0 = 0 from rfl,
            add_zero]
          exact hsent
        | succ i =>
          obtain ⟨sent', h₅, h₆⟩ := h₃ i (by omega)
          refine ⟨sent', h₅, ?_⟩
          rw [show b + (i + 1) = b + 1 + i by omega, offsetFrom_succ, UInt32.ofNat_add,
            ← add_assoc s.sequenceNumber, ← show s₁.sequenceNumber = _ from hused.sequenceNumber, ← hused.cipher]
          exact h₆
      · rw [offsetFrom_succ]
        exact hused.trans h₄

theorem valid_frame {a : Args} (h : 0 < a.requestedPacketSize - nvVideoPacketSize) (encrypted : Bool) :
    Valid (a.frame encrypted) where
  headerBytes := length_serialize _
  payloadSize := h
  packetDataLen := rfl
  shardSize := rfl
  nrDataShards := rfl
  lastBlockIndex := rfl

theorem maybeUpdateCipher_off {p : Packetizer x} (h : p.encrypt = false) (keys : SessionKeyData) :
    p.maybeUpdateCipher keys = p := dif_pos h

/-- Splitting at the lengths of the parts gives the parts back. -/
theorem splitLengths_flatten {α : Type*} (ls : List (List α)) :
    (ls.map List.length).splitLengths ls.flatten = ls := by
  induction ls with
  | nil => rfl
  | cons l ls ih =>
    rw [List.map_cons, List.splitLengths_cons, List.flatten_cons, List.take_left' rfl,
      List.drop_left' rfl, ih]

theorem payloadSize_pos {a : Args} (hsize : 16 < a.requestedPacketSize) :
    0 < a.requestedPacketSize - nvVideoPacketSize := by
  unfold nvVideoPacketSize
  omega

theorem prefixFits_frame (a : Args) (cipher : Option (List Byte)) : PrefixFits (a.frame cipher.isSome) cipher :=
  rfl

/-- Where the packet is larger than its header, `packetize` runs the loop. -/
theorem packetize_eq {a : Args} (hsize : 16 < a.requestedPacketSize) (keys : SessionKeyData) (s : State x) :
    packetize keys a s =
      blocks (a.frame (s.packetizer.maybeUpdateCipher keys).cipher.isSome)
        (nrBlocks (a.frame (s.packetizer.maybeUpdateCipher keys).cipher.isSome)) 0 ShardBatch.empty
        { s with packetizer := s.packetizer.maybeUpdateCipher keys } := by
  have hpos := payloadSize_pos hsize
  have hv := valid_frame hpos (s.packetizer.maybeUpdateCipher keys).cipher.isSome
  have hshards := hv.nrDataShards_pos
  have hle : nvVideoPacketSize ≤ a.requestedPacketSize := Nat.le_of_lt hsize
  unfold packetize
  rw [Prog.modify_bind, checkedSub_of_le hle, Prog.liftM_bind_ok, if_neg (Nat.ne_of_gt hpos), Prog.gets_bind]
  dsimp only
  rw [if_neg (Nat.ne_of_gt hshards)]

theorem packetize_small {a : Args} (hsize : a.requestedPacketSize ≤ 16) (keys : SessionKeyData) (s : State x) :
    (packetize keys a s).1 = .panic := by
  unfold packetize
  rw [Prog.modify_bind]
  by_cases h16 : a.requestedPacketSize = 16
  · have hsub : checkedSub a.requestedPacketSize nvVideoPacketSize = .ok 0 := by
      rw [h16]
      rfl
    rw [hsub, Prog.liftM_bind_ok]
    rfl
  · have hsub : checkedSub a.requestedPacketSize nvVideoPacketSize = .panic :=
      if_neg (by unfold nvVideoPacketSize; omega)
    rw [hsub]
    rfl

/-- Where `packetize` returns, the loop over the blocks of the frame does. -/
theorem blocks_of_packetize {keys : SessionKeyData} {a : Args} {s s' : State x} {batch : ShardBatch}
    (hrun : packetize keys a s = (.ok batch, s')) :
    Valid (a.frame (s.packetizer.maybeUpdateCipher keys).cipher.isSome) ∧
      blocks (a.frame (s.packetizer.maybeUpdateCipher keys).cipher.isSome)
        (nrBlocks (a.frame (s.packetizer.maybeUpdateCipher keys).cipher.isSome)) 0 ShardBatch.empty
        { s with packetizer := s.packetizer.maybeUpdateCipher keys } = (.ok batch, s') := by
  have hsize : 16 < a.requestedPacketSize := by
    by_contra hle
    have hpanic := packetize_small (Nat.not_lt.mp hle) keys s
    rw [hrun] at hpanic
    cases hpanic
  rw [packetize_eq hsize] at hrun
  exact ⟨valid_frame (payloadSize_pos hsize) _, hrun⟩

/-- What `packetize` returns, if it returns: the blocks of the frame, numbered
from the caller's sequence number on. -/
theorem packetize_spec {keys : SessionKeyData} {a : Args} {s s' : State x} {batch : ShardBatch}
    (hrun : packetize keys a s = (.ok batch, s')) :
    ∃ f, f = a.frame (s.packetizer.maybeUpdateCipher keys).cipher.isSome ∧ Valid f ∧
      batch.shards = (blocksOf f batch).flatten ∧
      (∀ b < blockCount f, ∃ sent, (blocksOf f batch)[b]? = some sent ∧
        SentBlock x s'.packetizer.cipher f b
          (s.sequenceNumber + UInt32.ofNat (blockOffset f b)) sent) ∧
      s'.sequenceNumber = s.sequenceNumber + UInt32.ofNat (blockOffset f (blockCount f)) ∧
      s'.packetizer.cipher = (s.packetizer.maybeUpdateCipher keys).cipher := by
  obtain ⟨hv, hrun⟩ := blocks_of_packetize hrun
  have hpre := prefixFits_frame a (s.packetizer.maybeUpdateCipher keys).cipher
  generalize a.frame (s.packetizer.maybeUpdateCipher keys).cipher.isSome = f at hv hrun hpre
  obtain ⟨sents, h₁, h₂, h₃, h₄⟩ := blocks_spec hv (Nat.zero_add _) (by omega) (Nat.succ_pos _) hpre
    (.inl rfl) hrun
  have hoff : ∀ i, offsetFrom f 0 i = blockOffset f i := fun i => by
    rw [offsetFrom, blockOffset, List.range_eq_range']
  rw [shards_empty, List.nil_append] at h₁
  rw [Nat.sub_zero] at h₂
  have hlens : sents.map List.length = blockSizes f := by
    refine List.ext_getElem? fun i => ?_
    by_cases hi : i < blockCount f
    · obtain ⟨sent, h₅, h₆⟩ := h₃ i (by omega)
      rw [List.getElem?_map, h₅, blockSizes, List.getElem?_map, List.getElem?_range hi,
        Option.map_some, Option.map_some, h₆.length, Nat.zero_add]
    · rw [List.getElem?_eq_none (by rw [List.length_map]; omega),
        List.getElem?_eq_none (by rw [blockSizes, List.length_map, List.length_range]; omega)]
  have hsplit : blocksOf f batch = sents := by
    rw [blocksOf, h₁, ← hlens, splitLengths_flatten]
  refine ⟨f, rfl, hv, by rw [hsplit, h₁], fun b hb => ?_, ?_, h₄.cipher⟩
  · obtain ⟨sent, h₅, h₆⟩ := h₃ b (by omega)
    rw [Nat.zero_add, hoff] at h₆
    rw [hsplit, h₄.cipher]
    exact ⟨sent, h₅, h₆⟩
  · rw [h₄.sequenceNumber, Nat.sub_zero, hoff]

/-- The blocks of a batch that splits into them. -/
theorem length_blocksOf (f : Frame) (batch : ShardBatch) : (blocksOf f batch).length = blockCount f := by
  rw [blocksOf, List.length_splitLengths, blockSizes, List.length_map, List.length_range]

/-- The counter advances by the number of shards returned. -/
theorem packetize_counter {keys : SessionKeyData} {a : Args} {s s' : State x} {batch : ShardBatch}
    (hrun : packetize keys a s = (.ok batch, s')) :
    s'.sequenceNumber = s.sequenceNumber + UInt32.ofNat batch.shards.length := by
  obtain ⟨f, -, -, hshards, hblocks, hseq, -⟩ := packetize_spec hrun
  have hlen : (blocksOf f batch).map List.length = blockSizes f := by
    refine List.ext_getElem? fun b => ?_
    rw [List.getElem?_map, blockSizes, List.getElem?_map]
    by_cases hb : b < blockCount f
    · obtain ⟨sent, hget, hsent⟩ := hblocks b hb
      rw [hget, Option.map_some, hsent.length, List.getElem?_range hb, Option.map_some]
    · rw [List.getElem?_eq_none (by rw [length_blocksOf]; omega),
        List.getElem?_eq_none (by rw [List.length_range]; omega)]
      rfl
  rw [hseq, hshards, List.length_flatten, hlen]
  rfl

/-- What a receiver gets from a batch: each shard as `fillBlock` wrote it. -/
theorem packetize_received {keys : SessionKeyData} {a : Args} {s s' : State x} {batch : ShardBatch}
    (hrun : packetize keys a s = (.ok batch, s')) :
    Valid (a.frame s'.packetizer.cipher.isSome) ∧
      ∀ b < blockCount (a.frame s'.packetizer.cipher.isSome),
        ∃ q buf, Filled x (a.frame s'.packetizer.cipher.isSome) b q buf ∧
          ∀ k < blockSize (a.frame s'.packetizer.cipher.isSome) b, ∃ sent,
            (blocksOf (a.frame s'.packetizer.cipher.isSome) batch)[b]?.bind (·[k]?) = some sent ∧
              received x s'.packetizer.cipher sent = some (buf.shard k) := by
  obtain ⟨f, hf, hv, -, hblocks, -, hcipher⟩ := packetize_spec hrun
  rw [← hcipher] at hf
  subst hf
  refine ⟨hv, fun b hb => ?_⟩
  obtain ⟨block, hblock, -, buf, hfill, hall⟩ := hblocks b hb
  refine ⟨_, buf, hfill, fun k hk => ?_⟩
  obtain ⟨sent, hget, hrec⟩ := hall k hk
  exact ⟨sent, by rw [hblock, Option.bind_some, hget], hrec⟩

end Moonshine.Proof.Packetizer
