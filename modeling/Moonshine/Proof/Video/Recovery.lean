import Moonshine.Framework.Mds
import Moonshine.Proof.Video.Reassembly

/-!
# Recovery of lost shards

The encoder works on whole shards, headers and padding included, and the parity
shards are patched afterwards. The bytes a receiver reconstructs a data shard
from are those of the live columns: the stream packet index, the flags and the
payload. No patch touches them (`parityShard_live`), so in each of them the
shards of a block are a codeword still (`Filled.codeword`).
-/

namespace Moonshine.Proof.Packetizer

open Moonshine.Framework Moonshine.Impl Moonshine.Impl.Packetizer Moonshine.Proof.ShardBatch

variable {x : Crates}

/-- The columns of the stream packet index, of the flags and of the payload. -/
def Live (f : Frame) (c : Nat) : Prop :=
  (16 ≤ c ∧ c < 20) ∨ c = 24 ∨ (32 ≤ c ∧ c < f.requestedShardSize)

/-- A column of shards that reach it. -/
def column (shards : List (List Byte)) (c : Nat) : List Byte := shards.map fun y => y.getD c 0

/-- The encoders compute an MDS code of their size, in each byte column by itself. -/
structure MdsEncoders (x : Crates) where
  code : (d p : Nat) → Option (MdsCode Byte d p)
  encode_columns : ∀ {d p} (r : x.ReedSolomon d p) slices out, x.encode r slices = some out →
    slices.length = d + p → ∃ mds, code d p = some mds ∧ ∀ c, (∀ y ∈ slices, c < y.length) →
      column out c = mds.codeword (column (slices.take d) c)

theorem Live.lt {f : Frame} (h : Valid f) {c : Nat} (hc : Live f c) : c < f.requestedShardSize := by
  have hsize : f.requestedShardSize = 32 + f.requestedShardPayloadSize := h.shardSize
  unfold Live at hc
  omega

/-- The patches of a parity shard leave the live columns alone. -/
theorem parityShard_live {f : Frame} {raw : List Byte} (h : 32 ≤ raw.length) (b d pct k : Nat)
    (q : UInt32) {c : Nat} (hc : Live f c) : (parityShard f b d pct k q raw)[c]? = raw[c]? := by
  have h₁ : (slice raw 4 12).length = 12 := length_slice (by omega)
  have h₂ : (slice raw 16 4).length = 4 := length_slice (by omega)
  have h₃ : (slice raw 24 3).length = 3 := length_slice (by omega)
  simp only [parityShard, List.getElem?_append, List.length_append, List.length_singleton,
    length_beBytes, length_leBytes, h₁, h₂, h₃, getElem?_slice, List.getElem?_drop]
  obtain ⟨h16, h20⟩ | rfl | ⟨h32, -⟩ := hc
  · -- The four bytes before the frame index.
    simp (disch := omega) only [if_pos, if_neg]
    congr 1
    omega
  · rfl
  · simp (disch := omega) only [if_neg]
    congr 1
    omega

theorem getElem?_column {shards : List (List Byte)} {k c : Nat} {y : List Byte}
    (hy : shards[k]? = some y) (hc : c < y.length) : (column shards c)[k]? = y[c]? := by
  rw [column, List.getElem?_map, hy, Option.map_some, List.getD_eq_getElem?_getD,
    List.getElem?_eq_getElem hc, Option.getD_some]

/-- In a live column, the shards of a block with parity are a codeword. -/
theorem Filled.codeword {f : Frame} (h : Valid f) {b : Nat} {q : UInt32} {buf : ShardBuf}
    (hf : Filled x f b q buf) (hp : 0 < blockParity f b) (m : MdsEncoders x) :
    ∃ mds, m.code (blockData f b) (blockParity f b) = some mds ∧ ∀ c, Live f c →
      ∀ k < blockSize f b, (buf.shard k)[c]? =
        (mds.codeword (column ((List.range (blockData f b)).map buf.shard) c))[k]? := by
  obtain ⟨r, out, hout, hparity⟩ := hf.parity hp
  have hlen : ∀ k < blockSize f b, (buf.shard k).length = f.requestedShardSize := fun k hk => by
    rw [hf.wellFormed.length_shard (by rw [hf.shardCount]; exact hk), hf.dataSize]
  obtain ⟨mds, hmds, hcolumns⟩ := m.encode_columns r _ _ hout (by simp)
  refine ⟨mds, hmds, fun c hc k hk => ?_⟩
  have hlt := hc.lt h
  have hcolumn := hcolumns c fun y hy => by
    obtain hy | hy := List.mem_append.mp hy
    · obtain ⟨i, hi, rfl⟩ := List.mem_map.mp hy
      rw [List.mem_range] at hi
      rw [hlen i (by unfold blockSize; omega)]
      exact hlt
    · rw [(List.mem_replicate.mp hy).2, List.length_replicate]
      exact hlt
  rw [List.take_left' (by simp)] at hcolumn
  by_cases hd : k < blockData f b
  · rw [MdsCode.codeword_data _ (by simpa [column] using hd)]
    refine (getElem?_column ?_ (by rw [hlen k hk]; exact hlt)).symm
    rw [List.getElem?_map, List.getElem?_range hd, Option.map_some]
  · obtain ⟨raw, hraw, hrawlen, hshard⟩ := hparity (k - blockData f b) (by unfold blockSize at hk; omega)
    rw [Nat.add_sub_cancel' (by omega)] at hraw hshard
    have h32 : 32 ≤ raw.length := by rw [hrawlen, h.shardSize]; exact Nat.le_add_right _ _
    rw [hshard, parityShard_live h32 _ _ _ _ _ hc, ← hcolumn, getElem?_column hraw (by omega)]

/-- Byte `c` of shard `k` of block `b`, as a receiver gets it. -/
def sentByte (x : Crates) (cipher : Option (List Byte)) (f : Frame) (batch : ShardBatch)
    (b k c : Nat) : Option Byte :=
  (((blocksOf f batch)[b]?.bind (·[k]?)).bind (received x cipher)).bind (·[c]?)

/-- From as many shards of a block as it has data shards, whichever they are, a
receiver decodes the live bytes of all its data shards. -/
def Recovers (m : MdsEncoders x) (cipher : Option (List Byte)) (f : Frame) (batch : ShardBatch) : Prop :=
  ∀ b < blockCount f, 0 < blockParity f b →
    ∃ mds, m.code (blockData f b) (blockParity f b) = some mds ∧
      ∀ I ⊆ Finset.range (blockSize f b), I.card = blockData f b → ∀ c, Live f c →
        ∃ bytes, mds.decode I (fun k => sentByte x cipher f batch b k c) = some bytes ∧
          ∀ k < blockData f b, ∃ byte, bytes[k]? = some byte ∧
            sentByte x cipher f batch b k c = some byte

/-- For a frame that `packetize` returned, with or without encryption: lost data
shards are recovered, as far as their stream packet index, flags and payload go. -/
theorem lost_shards_recovered (m : MdsEncoders x) {keys : SessionKeyData} {a : Args} {s s' : State x}
    {batch : ShardBatch} (hrun : packetize keys a s = (.ok batch, s')) :
    Recovers m s'.packetizer.cipher (a.frame s'.packetizer.cipher.isSome) batch := by
  obtain ⟨hv, hblocks⟩ := packetize_received hrun
  intro b hb hp
  obtain ⟨q, buf, hfill, hall⟩ := hblocks b hb
  obtain ⟨mds, hmds, hcodeword⟩ := hfill.codeword hv hp m
  refine ⟨mds, hmds, fun I hI hcard c hc => ?_⟩
  generalize a.frame s'.packetizer.cipher.isSome = f at *
  -- What is received is what `fillBlock` wrote, so a codeword in this column.
  have hbyte : ∀ k < blockSize f b, sentByte x s'.packetizer.cipher f batch b k c =
      (mds.codeword (column ((List.range (blockData f b)).map buf.shard) c))[k]? := fun k hk => by
    obtain ⟨shard, hget, hrec⟩ := hall k hk
    rw [← hcodeword c hc k hk, sentByte, hget, Option.bind_some, hrec, Option.bind_some]
  have hlen : (column ((List.range (blockData f b)).map buf.shard) c).length = blockData f b := by
    simp [column]
  refine ⟨_, mds.decode_eq_some hI hcard hlen fun k hk => hbyte k (Finset.mem_range.mp (hI hk)),
    fun k hk => ?_⟩
  rw [hbyte k (by unfold blockSize; omega), mds.codeword_data (by omega)]
  exact ⟨_, List.getElem?_eq_getElem (by omega), List.getElem?_eq_getElem (by omega)⟩

/-- The code of the crates for one data shard. -/
def repetitionEncoders : MdsEncoders repetition where
  code d p := if h : d = 1 then some (h ▸ MdsCode.repeated p) else none
  encode_columns := by
    intro d p _ slices out h hlen
    dsimp only [repetition] at h
    split at h <;> cases h
    rename_i hd
    obtain ⟨rfl, hsame⟩ := hd
    refine ⟨MdsCode.repeated p, rfl, fun c _ => ?_⟩
    obtain ⟨y, ys, rfl⟩ := List.exists_cons_of_length_pos (show 0 < slices.length by omega)
    have hys : ys.length = p := by
      rw [List.length_cons] at hlen
      omega
    subst hys
    show y.getD c 0 :: column (ys.map fun _ => y) c = y.getD c 0 :: List.replicate ys.length (y.getD c 0)
    rw [column, List.map_map]
    exact congrArg _ (List.map_const ..)

theorem lost_shards_recovered_small :
    ∃ batch s', packetize ⟨[], 0⟩ ⟨[1, 2, 3], true, 32, 1, 20, 7, 9, 0⟩
        ⟨new repetition false, 5, []⟩ = (.ok batch, s') ∧
      Recovers repetitionEncoders s'.packetizer.cipher
        (Args.frame ⟨[1, 2, 3], true, 32, 1, 20, 7, 9, 0⟩ s'.packetizer.cipher.isSome) batch := by
  obtain ⟨batch, s', hrun⟩ := packetize_one_shard (a := ⟨[1, 2, 3], true, 32, 1, 20, 7, 9, 0⟩)
    (by decide) (by decide) ⟨[], 0⟩ (s := ⟨new repetition false, 5, []⟩) rfl
  exact ⟨batch, s', hrun, lost_shards_recovered repetitionEncoders hrun⟩

end Moonshine.Proof.Packetizer
