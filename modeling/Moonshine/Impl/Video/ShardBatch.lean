import Moonshine.Framework.Bytes
import Moonshine.Impl.Stream.Context

/-!
# Shard buffers, `session/stream/video/shard_batch.rs`

Both types keep their shards in one flat buffer. The `&mut [u8]` that
`shard_mut` and `prefix_mut` hand out is a read of the region and, when its
borrow ends, a write of what was made of it.
-/

namespace Moonshine.Impl

open Moonshine.Framework

/-- `isize::MAX`, past which `Vec` refuses to allocate. -/
def isizeMax : Nat := 2 ^ 63 - 1

structure ShardBatch where
  data : List Byte
  shardSize : Nat
  deriving DecidableEq, Repr

namespace ShardBatch

def empty : ShardBatch := ⟨[], 0⟩

def shardCount (b : ShardBatch) : Nat :=
  if b.shardSize = 0 then 0 else b.data.length / b.shardSize

def extendFrom (b other : ShardBatch) : ShardBatch where
  data := b.data ++ other.data
  shardSize := if b.shardSize = 0 then other.shardSize else b.shardSize

/-- `chunks_exact(shard_size)`. -/
def shards (b : ShardBatch) : List (List Byte) :=
  (List.range b.shardCount).map fun i => slice b.data (i * b.shardSize) b.shardSize

end ShardBatch

structure ShardBuf where
  data : List Byte
  stride : Nat
  prefixSize : Nat
  dataSize : Nat
  shardCount : Nat
  deriving DecidableEq, Repr

namespace ShardBuf

/-- The allocation panics on a capacity overflow. -/
def new (shardCount dataSize prefixSize : Nat) : Outcome ShardBuf :=
  let stride := prefixSize + dataSize
  if shardCount * stride ≤ isizeMax then
    .ok ⟨List.replicate (shardCount * stride) 0, stride, prefixSize, dataSize, shardCount⟩
  else .panic

/-- `shard_mut`, with what the caller does to the slice. -/
def shardMut (b : ShardBuf) (index : Nat) (f : List Byte → Outcome (List Byte)) :
    Outcome ShardBuf := do
  let start := index * b.stride + b.prefixSize
  let shard ← readAt b.data start b.dataSize
  let shard ← f shard
  let data ← writeAt b.data start shard
  return { b with data := data }

/-- `prefix_mut`, likewise. -/
def prefixMut (b : ShardBuf) (index : Nat) (f : List Byte → Outcome (List Byte)) :
    Outcome ShardBuf := do
  let start := index * b.stride
  let pre ← readAt b.data start b.prefixSize
  let pre ← f pre
  let data ← writeAt b.data start pre
  return { b with data := data }

/-- The data portion of a shard. -/
def shard (b : ShardBuf) (index : Nat) : List Byte :=
  slice b.data (index * b.stride + b.prefixSize) b.dataSize

/-- The prefix of a shard. -/
def shardPrefix (b : ShardBuf) (index : Nat) : List Byte :=
  slice b.data (index * b.stride) b.prefixSize

/-- The slices `as_fec_slices` makes; it checks no bounds. -/
def asFecSlices (b : ShardBuf) : List (List Byte) :=
  (List.range b.shardCount).map b.shard

/-- What the FEC encoder left in those slices, from shard `index` on. -/
def setFecSlices (b : ShardBuf) (index : Nat) : List (List Byte) → ShardBuf
  | [] => b
  | x :: xs =>
    setFecSlices { b with data := splice b.data (index * b.stride + b.prefixSize) x } (index + 1) xs

def intoBatch (b : ShardBuf) : ShardBatch := ⟨b.data, b.stride⟩

end ShardBuf

end Moonshine.Impl
