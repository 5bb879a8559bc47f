import Moonshine.Impl.Video.ShardBatch

/-!
# Shards of a flat buffer

A buffer whose length is its number of shards times their stride is an array of
shards, each with its prefix: writing one leaves the others alone, the slices
the FEC encoder is given are those shards, and a batch made of several buffers
is the sequence of their shards.
-/

namespace Moonshine.Proof.ShardBatch

open Moonshine.Framework Moonshine.Impl

/-- The buffer holds `shardCount` shards, prefix and data. -/
structure WellFormed (b : ShardBuf) : Prop where
  length : b.data.length = b.shardCount * b.stride
  stride : b.stride = b.prefixSize + b.dataSize

/-- The two buffers differ in their contents only. -/
structure SameShape (b b' : ShardBuf) : Prop where
  stride : b'.stride = b.stride
  prefixSize : b'.prefixSize = b.prefixSize
  dataSize : b'.dataSize = b.dataSize
  shardCount : b'.shardCount = b.shardCount

theorem SameShape.refl (b : ShardBuf) : SameShape b b := ⟨rfl, rfl, rfl, rfl⟩

theorem SameShape.trans {a b c : ShardBuf} (h : SameShape a b) (k : SameShape b c) :
    SameShape a c :=
  ⟨k.stride.trans h.stride, k.prefixSize.trans h.prefixSize, k.dataSize.trans h.dataSize,
    k.shardCount.trans h.shardCount⟩

/-- A new buffer is zeroed. -/
theorem new_eq_ok {shardCount dataSize prefixSize : Nat} {b : ShardBuf}
    (h : ShardBuf.new shardCount dataSize prefixSize = .ok b) :
    b = ⟨List.replicate (shardCount * (prefixSize + dataSize)) 0, prefixSize + dataSize, prefixSize,
      dataSize, shardCount⟩ := by
  unfold ShardBuf.new at h
  dsimp only at h
  split at h <;> cases h
  rfl

theorem new_of_le {shardCount dataSize prefixSize : Nat}
    (h : shardCount * (prefixSize + dataSize) ≤ isizeMax) :
    ShardBuf.new shardCount dataSize prefixSize =
      .ok ⟨List.replicate (shardCount * (prefixSize + dataSize)) 0, prefixSize + dataSize,
        prefixSize, dataSize, shardCount⟩ :=
  if_pos h

theorem wellFormed_new (shardCount dataSize prefixSize : Nat) :
    WellFormed ⟨List.replicate (shardCount * (prefixSize + dataSize)) 0, prefixSize + dataSize,
      prefixSize, dataSize, shardCount⟩ :=
  ⟨List.length_replicate, rfl⟩

namespace WellFormed

variable {b : ShardBuf} {i j : Nat}

/-- A shard's slot ends where the next one starts. -/
theorem slot_le (h : WellFormed b) (hi : i < b.shardCount) :
    i * b.stride + b.prefixSize + b.dataSize ≤ b.data.length := by
  have := Nat.mul_le_mul_right b.stride (show i + 1 ≤ b.shardCount from hi)
  rw [Nat.succ_mul] at this
  have hs := h.stride
  have hl := h.length
  omega

theorem slot_disjoint (h : WellFormed b) (hne : i ≠ j) :
    i * b.stride + b.prefixSize + b.dataSize ≤ j * b.stride ∨
      j * b.stride + b.prefixSize + b.dataSize ≤ i * b.stride := by
  have hs := h.stride
  rcases Nat.lt_or_gt_of_ne hne with hlt | hlt
  · have := Nat.mul_le_mul_right b.stride (show i + 1 ≤ j from hlt)
    rw [Nat.succ_mul] at this
    omega
  · have := Nat.mul_le_mul_right b.stride (show j + 1 ≤ i from hlt)
    rw [Nat.succ_mul] at this
    omega

theorem length_shard (h : WellFormed b) (hi : i < b.shardCount) :
    (b.shard i).length = b.dataSize :=
  length_slice (h.slot_le hi)

theorem length_shardPrefix (h : WellFormed b) (hi : i < b.shardCount) :
    (b.shardPrefix i).length = b.prefixSize := by
  have := h.slot_le hi
  exact length_slice (by omega)

end WellFormed

/-- `b` with the data of shard `i` replaced. -/
def setShard (b : ShardBuf) (i : Nat) (x : List Byte) : ShardBuf :=
  { b with data := splice b.data (i * b.stride + b.prefixSize) x }

/-- `b` with the prefix of shard `i` replaced. -/
def setPrefix (b : ShardBuf) (i : Nat) (x : List Byte) : ShardBuf :=
  { b with data := splice b.data (i * b.stride) x }

theorem sameShape_setShard (b : ShardBuf) (i : Nat) (x : List Byte) : SameShape b (setShard b i x) :=
  ⟨rfl, rfl, rfl, rfl⟩

theorem sameShape_setPrefix (b : ShardBuf) (i : Nat) (x : List Byte) :
    SameShape b (setPrefix b i x) :=
  ⟨rfl, rfl, rfl, rfl⟩

section Write

variable {b : ShardBuf} {i j : Nat} {x : List Byte}

theorem WellFormed.setShard (h : WellFormed b) (hi : i < b.shardCount) (hx : x.length = b.dataSize) :
    WellFormed (setShard b i x) := by
  have hle := h.slot_le hi
  refine ⟨?_, h.stride⟩
  show (splice b.data (i * b.stride + b.prefixSize) x).length = _
  rw [length_splice (by rw [hx]; exact hle)]
  exact h.length

theorem WellFormed.setPrefix (h : WellFormed b) (hi : i < b.shardCount)
    (hx : x.length = b.prefixSize) : WellFormed (setPrefix b i x) := by
  have hle := h.slot_le hi
  refine ⟨?_, h.stride⟩
  show (splice b.data (i * b.stride) x).length = _
  rw [length_splice (by rw [hx]; omega)]
  exact h.length

theorem shard_setShard_self (h : WellFormed b) (hi : i < b.shardCount)
    (hx : x.length = b.dataSize) : (setShard b i x).shard i = x := by
  show slice (splice b.data (i * b.stride + b.prefixSize) x) _ b.dataSize = x
  rw [← hx]
  exact slice_splice_self (by rw [hx]; exact h.slot_le hi)

theorem shard_setShard_of_ne (h : WellFormed b) (hi : i < b.shardCount)
    (hx : x.length = b.dataSize) (hne : j ≠ i) : (setShard b i x).shard j = b.shard j := by
  have hd := h.slot_disjoint hne
  refine slice_splice_of_disjoint (by rw [hx]; exact h.slot_le hi) ?_
  show j * b.stride + b.prefixSize + b.dataSize ≤ _ ∨ _ ≤ j * b.stride + b.prefixSize
  omega

theorem shardPrefix_setShard (h : WellFormed b) (hi : i < b.shardCount)
    (hx : x.length = b.dataSize) (j : Nat) : (setShard b i x).shardPrefix j = b.shardPrefix j := by
  refine slice_splice_of_disjoint (by rw [hx]; exact h.slot_le hi) ?_
  show j * b.stride + b.prefixSize ≤ _ ∨ _ ≤ j * b.stride
  by_cases hne : j = i
  · subst hne; omega
  · have hd := h.slot_disjoint hne
    omega

theorem shard_setPrefix (h : WellFormed b) (hi : i < b.shardCount)
    (hx : x.length = b.prefixSize) (j : Nat) : (setPrefix b i x).shard j = b.shard j := by
  have hle := h.slot_le hi
  refine slice_splice_of_disjoint (by rw [hx]; omega) ?_
  show j * b.stride + b.prefixSize + b.dataSize ≤ _ ∨ _ ≤ j * b.stride + b.prefixSize
  by_cases hne : j = i
  · subst hne; omega
  · have hd := h.slot_disjoint hne
    omega

theorem shardPrefix_setPrefix_self (h : WellFormed b) (hi : i < b.shardCount)
    (hx : x.length = b.prefixSize) : (setPrefix b i x).shardPrefix i = x := by
  have hle := h.slot_le hi
  show slice (splice b.data (i * b.stride) x) _ b.prefixSize = x
  rw [← hx]
  exact slice_splice_self (by rw [hx]; omega)

theorem shardPrefix_setPrefix_of_ne (h : WellFormed b) (hi : i < b.shardCount)
    (hx : x.length = b.prefixSize) (hne : j ≠ i) :
    (setPrefix b i x).shardPrefix j = b.shardPrefix j := by
  have hle := h.slot_le hi
  have hd := h.slot_disjoint hne
  refine slice_splice_of_disjoint (by rw [hx]; omega) ?_
  show j * b.stride + b.prefixSize ≤ _ ∨ _ ≤ j * b.stride
  omega

/-- `shard_mut` with a caller that keeps the length of the slice. -/
theorem shardMut_eq (h : WellFormed b) (hi : i < b.shardCount) {f : List Byte → Outcome (List Byte)}
    (hf : f (b.shard i) = .ok x) (hx : x.length = b.dataSize) :
    b.shardMut i f = .ok (setShard b i x) := by
  have hle := h.slot_le hi
  unfold ShardBuf.shardMut
  dsimp only
  rw [readAt_of_le hle, Outcome.ok_bind, show f (slice b.data _ b.dataSize) = .ok x from hf,
    Outcome.ok_bind, writeAt_of_le (by rw [hx]; exact hle)]
  rfl

theorem prefixMut_eq (h : WellFormed b) (hi : i < b.shardCount)
    {f : List Byte → Outcome (List Byte)} (hf : f (b.shardPrefix i) = .ok x)
    (hx : x.length = b.prefixSize) : b.prefixMut i f = .ok (setPrefix b i x) := by
  have hle := h.slot_le hi
  unfold ShardBuf.prefixMut
  dsimp only
  rw [readAt_of_le (by omega), Outcome.ok_bind,
    show f (slice b.data (i * b.stride) b.prefixSize) = .ok x from hf, Outcome.ok_bind,
    writeAt_of_le (by rw [hx]; omega)]
  rfl

end Write

theorem length_asFecSlices (b : ShardBuf) : b.asFecSlices.length = b.shardCount := by
  rw [ShardBuf.asFecSlices, List.length_map, List.length_range]

theorem getElem?_asFecSlices {b : ShardBuf} {i : Nat} (hi : i < b.shardCount) :
    b.asFecSlices[i]? = some (b.shard i) := by
  rw [ShardBuf.asFecSlices, List.getElem?_map, List.getElem?_range hi, Option.map_some]

/-- Writing the slices back replaces the shards they were made of. -/
theorem setFecSlices_spec {b : ShardBuf} (h : WellFormed b) {xs : List (List Byte)} {i : Nat}
    (hi : i + xs.length ≤ b.shardCount) (hx : ∀ x ∈ xs, x.length = b.dataSize) :
    WellFormed (b.setFecSlices i xs) ∧ SameShape b (b.setFecSlices i xs) ∧
      (∀ j, (b.setFecSlices i xs).shardPrefix j = b.shardPrefix j) ∧
      ∀ j, (b.setFecSlices i xs).shard j = if i ≤ j then xs[j - i]?.getD (b.shard j) else b.shard j := by
  induction xs generalizing b i with
  | nil => exact ⟨h, SameShape.refl b, fun _ => rfl, fun j => by simp [ShardBuf.setFecSlices]⟩
  | cons x xs ih =>
    rw [List.length_cons] at hi
    have hlen : x.length = b.dataSize := hx x List.mem_cons_self
    have hib : i < b.shardCount := by omega
    obtain ⟨hwf, hshape, hpre, hsh⟩ := ih (h.setShard hib hlen)
      (show i + 1 + xs.length ≤ b.shardCount by omega) fun y hy => hx y (List.mem_cons_of_mem x hy)
    refine ⟨hwf, (sameShape_setShard b i x).trans hshape, fun j => ?_, fun j => ?_⟩
    · exact (hpre j).trans (shardPrefix_setShard h hib hlen j)
    · refine (hsh j).trans ?_
      by_cases hji : j = i
      · subst hji
        rw [if_neg (by omega), if_pos (Nat.le_refl _), Nat.sub_self, List.getElem?_cons_zero,
          Option.getD_some, shard_setShard_self h hib hlen]
      · rw [shard_setShard_of_ne h hib hlen hji]
        by_cases hle : i ≤ j
        · rw [if_pos (by omega), if_pos hle, show j - i = j - (i + 1) + 1 by omega,
            List.getElem?_cons_succ]
        · rw [if_neg (by omega), if_neg hle]

/-- A batch of whole shards. -/
def Whole (b : ShardBatch) : Prop := b.data.length = b.shardCount * b.shardSize

/-- The shards of a buffer, as the batch made of it sends them. -/
theorem shards_intoBatch {b : ShardBuf} (h : WellFormed b) (hs : 0 < b.stride) :
    b.intoBatch.shards = (List.range b.shardCount).map fun i => b.shardPrefix i ++ b.shard i := by
  have hcount : b.intoBatch.shardCount = b.shardCount := by
    show (if b.stride = 0 then 0 else b.data.length / b.stride) = _
    rw [if_neg (by omega), h.length, Nat.mul_div_cancel _ hs]
  rw [ShardBatch.shards, hcount]
  refine List.map_congr_left fun i _ => ?_
  show slice b.data (i * b.stride) b.stride = _
  rw [h.stride, ← slice_append_slice, ← h.stride]
  rfl

theorem whole_intoBatch {b : ShardBuf} (h : WellFormed b) (hs : 0 < b.stride) :
    Whole b.intoBatch := by
  show b.data.length = (if b.stride = 0 then 0 else b.data.length / b.stride) * b.stride
  rw [if_neg (by omega), h.length, Nat.mul_div_cancel _ hs]

theorem shards_empty : ShardBatch.empty.shards = [] := rfl

/-- Extending a batch appends the shards. -/
theorem shards_extendFrom {a b : ShardBatch} (hb : Whole b) (hpos : 0 < b.shardSize)
    (ha : a = ShardBatch.empty ∨ (a.shardSize = b.shardSize ∧ Whole a)) :
    (a.extendFrom b).shards = a.shards ++ b.shards ∧ (a.extendFrom b).shardSize = b.shardSize ∧
      Whole (a.extendFrom b) := by
  rcases ha with rfl | ⟨hsize, ha⟩
  · exact ⟨rfl, rfl, hb⟩
  have hne : a.shardSize ≠ 0 := by omega
  have hext : a.extendFrom b = ⟨a.data ++ b.data, b.shardSize⟩ := by
    rw [ShardBatch.extendFrom, if_neg hne, hsize]
  have hlen : (a.data ++ b.data).length = (a.shardCount + b.shardCount) * b.shardSize := by
    rw [List.length_append, show a.data.length = _ from ha, show b.data.length = _ from hb, hsize,
      Nat.add_mul]
  have hcount : (a.extendFrom b).shardCount = a.shardCount + b.shardCount := by
    rw [hext]
    show (if b.shardSize = 0 then 0 else (a.data ++ b.data).length / b.shardSize) = _
    rw [if_neg (by omega), hlen, Nat.mul_div_cancel _ hpos]
  refine ⟨?_, by rw [hext], ?_⟩
  · rw [ShardBatch.shards, hcount, List.range_add, List.map_append, List.map_map]
    congr 1
    · refine List.map_congr_left fun i hi => ?_
      rw [List.mem_range] at hi
      have := Nat.mul_le_mul_right a.shardSize (show i + 1 ≤ a.shardCount from hi)
      rw [Nat.succ_mul, ← show a.data.length = _ from ha] at this
      rw [hext]
      show slice (a.data ++ b.data) (i * b.shardSize) b.shardSize = _
      rw [← hsize, slice_append_left this]
    · refine List.map_congr_left fun i _ => ?_
      rw [hext]
      show slice (a.data ++ b.data) ((a.shardCount + i) * b.shardSize) b.shardSize = _
      have hla : a.data.length = a.shardCount * b.shardSize := by rw [← hsize]; exact ha
      rw [Nat.add_mul, slice_append_right (by omega), hla, Nat.add_sub_cancel_left]
  · show (a.extendFrom b).data.length = _
    rw [hcount, hext]
    exact hlen

end Moonshine.Proof.ShardBatch
