import Moonshine.Impl.Video.GsoSocket
import Moonshine.Proof.Video.Totality

/-!
# What leaves the video socket

A GSO chunk is a group of consecutive shards (`chunksFit`), which the kernel cuts
into the shards again; the fallback of a chunk cuts it in the same way. So
whatever the sends end in, the datagrams are the shards of the batch in order,
up to the chunk that is still waiting (`sendBatch_exactly_once`).
-/

namespace Moonshine.Proof.UdpGsoSocket

open Moonshine.Framework Moonshine.Impl Moonshine.Impl.UdpGsoSocket
open Moonshine.Proof.ShardBatch

theorem chunks_eq_slices {α : Type*} {n : Nat} (hn : 0 < n) {k : Nat} {l : List α} (h : l.length = k * n) :
    chunks n l = (List.range k).map fun i => slice l (i * n) n := by
  induction k generalizing l with
  | zero =>
    obtain rfl : l = [] := List.length_eq_zero_iff.mp (by omega)
    rfl
  | succ k ih =>
    rw [Nat.succ_mul] at h
    have hne : l ≠ [] := List.length_pos_iff.mp (by omega)
    have hdrop : (l.drop n).length = k * n := by
      rw [List.length_drop]
      omega
    rw [chunks_of_ne_nil hn hne, ih hdrop, List.range_succ_eq_map, List.map_cons, List.map_map]
    refine congrArg₂ List.cons ?_ (List.map_congr_left fun i _ => ?_)
    · rw [Nat.zero_mul]
      rfl
    · show slice (l.drop n) (i * n) n = slice l ((i + 1) * n) n
      rw [slice, slice, List.drop_drop, Nat.succ_mul, Nat.add_comm]

/-- Cutting a batch at the shard size gives its shards. -/
theorem chunks_shards {b : ShardBatch} (h : Whole b) (hs : 0 < b.shardSize) :
    chunks b.shardSize b.data = b.shards := chunks_eq_slices hs h

/-- A batch without a shard size is empty. -/
theorem whole_zero {b : ShardBatch} (h : Whole b) (hs : b.shardSize = 0) : b.data = [] ∧ b.shards = [] := by
  have hcount : b.shardCount = 0 := if_pos hs
  constructor
  · rw [Whole, hs] at h
    exact List.length_eq_zero_iff.mp h
  · rw [ShardBatch.shards, hcount]
    rfl

theorem gsoSegmentsPerSend_pos (maxGsoSegments shardSize : Nat) :
    0 < gsoSegmentsPerSend maxGsoSegments shardSize := Nat.le_max_right _ _

theorem gsoSegmentsPerSend_le {maxGsoSegments : Nat} (h : 1 ≤ maxGsoSegments) (shardSize : Nat) :
    gsoSegmentsPerSend maxGsoSegments shardSize ≤ maxGsoSegments :=
  Nat.max_le.mpr ⟨Nat.min_le_left _ _, h⟩

/-- Where one shard fits a datagram, a chunk does. -/
theorem gsoSegmentsPerSend_mul_le (maxGsoSegments : Nat) {shardSize : Nat} (h : shardSize ≤ maxUdpPayload) :
    gsoSegmentsPerSend maxGsoSegments shardSize * shardSize ≤ maxUdpPayload := by
  by_cases h0 : shardSize = 0
  · rw [h0]
    exact Nat.zero_le _
  · have hone : 1 ≤ maxUdpPayload / shardSize := Nat.div_pos h (Nat.pos_of_ne_zero h0)
    have hle : gsoSegmentsPerSend maxGsoSegments shardSize ≤ maxUdpPayload / shardSize := by
      unfold gsoSegmentsPerSend
      rw [if_neg h0]
      exact Nat.max_le.mpr ⟨Nat.min_le_right _ _, hone⟩
    calc gsoSegmentsPerSend maxGsoSegments shardSize * shardSize
        ≤ maxUdpPayload / shardSize * shardSize := Nat.mul_le_mul_right _ hle
      _ ≤ maxUdpPayload := Nat.div_mul_le_self _ _

/-- The chunks are the batch, cut between shards under both limits. -/
structure ChunksFit (maxGsoSegments : Nat) (b : ShardBatch) : Prop where
  flatten : (gsoChunks maxGsoSegments b).flatten = b.data
  /-- Each chunk is a group of consecutive shards. -/
  whole : ∃ groups : List (List (List Byte)), gsoChunks maxGsoSegments b = groups.map List.flatten ∧
    groups.flatten = b.shards ∧
      ∀ g ∈ groups, g ≠ [] ∧ g.length ≤ maxGsoSegments ∧ ∀ shard ∈ g, shard.length = b.shardSize
  payload : b.shardSize ≤ 65507 → ∀ chunk ∈ gsoChunks maxGsoSegments b, chunk.length ≤ 65507

theorem chunksFit {maxGsoSegments : Nat} (hmax : 1 ≤ maxGsoSegments) {b : ShardBatch} (h : Whole b) :
    ChunksFit maxGsoSegments b := by
  have hseg := gsoSegmentsPerSend_pos maxGsoSegments b.shardSize
  by_cases hs : b.shardSize = 0
  · obtain ⟨hdata, hshards⟩ := whole_zero h hs
    have hnone : gsoChunks maxGsoSegments b = [] := by
      rw [gsoChunks, hdata]
      rfl
    exact ⟨by rw [hnone, hdata]; rfl, ⟨[], hnone, hshards.symm, nofun⟩, by rw [hnone]; nofun⟩
  · have hpos : 0 < b.shardSize := Nat.pos_of_ne_zero hs
    have hmul : 0 < gsoSegmentsPerSend maxGsoSegments b.shardSize * b.shardSize := Nat.mul_pos hseg hpos
    refine ⟨flatten_chunks hmul b.data, ⟨chunks (gsoSegmentsPerSend maxGsoSegments b.shardSize) b.shards, ?_,
      flatten_chunks hseg _, fun g hg => ⟨ne_nil_of_mem_chunks hseg hg, ?_, fun shard hshard => ?_⟩⟩,
      fun hfit chunk hchunk => ?_⟩
    · rw [gsoChunks, chunks_mul hpos hseg, chunks_shards h hpos]
    · exact Nat.le_trans (length_le_of_mem_chunks hseg hg) (gsoSegmentsPerSend_le hmax _)
    · have hmem : shard ∈ b.shards := by
        rw [← flatten_chunks hseg b.shards]
        exact List.mem_flatten_of_mem hg hshard
      rw [← chunks_shards h hpos] at hmem
      exact length_of_mem_chunks hpos h hmem
    · exact Nat.le_trans (length_le_of_mem_chunks hmul hchunk) (gsoSegmentsPerSend_mul_le _ hfit)

/-- The datagrams that left, in order. -/
def datagrams (handed : List Handed) : List (List Byte) := handed.flatMap Handed.datagrams

theorem datagrams_append (handed handed' : List Handed) :
    datagrams (handed ++ handed') = datagrams handed ++ datagrams handed' := List.flatMap_append

theorem datagrams_sendShards {shardSize : Nat} (hs : 0 < shardSize) (bytes : List Byte) :
    datagrams (sendShards bytes shardSize) = chunks shardSize bytes := by
  rw [sendShards, if_neg (Nat.ne_of_gt hs), datagrams]
  induction chunks shardSize bytes with
  | nil => rfl
  | cons c cs ih =>
    rw [List.map_cons, List.flatMap_cons, ih]
    rfl

/-- The loop ends at the first result other than `WouldBlock`. -/
theorem trySend_cases (results : List TrySend) :
    (trySend results = none ∧ results.countP (· ≠ .wouldBlock) = 0) ∨
      ∃ result rest, trySend results = some (result, rest) ∧ (result = .sent ∨ result = .failed) ∧
        results.countP (· ≠ .wouldBlock) = rest.countP (· ≠ .wouldBlock) + 1 := by
  induction results with
  | nil => exact Or.inl ⟨rfl, rfl⟩
  | cons result results ih =>
    cases result with
    | sent => exact Or.inr ⟨.sent, results, rfl, Or.inl rfl, by simp⟩
    | failed => exact Or.inr ⟨.failed, results, rfl, Or.inr rfl, by simp⟩
    | wouldBlock =>
      rw [trySend, List.countP_cons_of_neg (by decide)]
      exact ih

/-- What the loop over the chunks has done when it gets from `p` to `p'`. -/
structure Sends (shardSize : Nat) (todo : List (List Byte)) (p p' : Progress) : Prop where
  /-- The datagrams of the chunks up to the one that waits. -/
  handed : ∃ done waiting, todo = done ++ waiting ∧
    datagrams p'.handed = datagrams p.handed ++ done.flatMap (chunks shardSize) ∧
      (p'.returned = true → waiting = [])
  gso : ∀ contents segmentSize, .gso contents segmentSize ∈ p'.handed →
    .gso contents segmentSize ∈ p.handed ∨ (contents ∈ todo ∧ segmentSize = shardSize)
  returned : todo.length ≤ p.results.countP (· ≠ .wouldBlock) → p'.returned = true

theorem mem_sendShards {contents bytes : List Byte} {segmentSize shardSize : Nat} :
    .gso contents segmentSize ∉ sendShards bytes shardSize := by
  unfold sendShards
  split
  · exact List.not_mem_nil
  · intro h
    obtain ⟨_, -, h⟩ := List.mem_map.mp h
    cases h

/-- One chunk further. -/
theorem Sends.chunk {shardSize : Nat} {chunk : List Byte} {rest : List (List Byte)} {p m p' : Progress}
    (h : Sends shardSize rest m p') (hhanded : datagrams m.handed = datagrams p.handed ++ chunks shardSize chunk)
    (hgso : ∀ contents segmentSize, .gso contents segmentSize ∈ m.handed →
      .gso contents segmentSize ∈ p.handed ∨ (contents = chunk ∧ segmentSize = shardSize))
    (hresults : p.results.countP (· ≠ .wouldBlock) = m.results.countP (· ≠ .wouldBlock) + 1) :
    Sends shardSize (chunk :: rest) p p' := by
  obtain ⟨done, waiting, htodo, hdatagrams, hreturned⟩ := h.handed
  refine ⟨⟨chunk :: done, waiting, by rw [htodo]; rfl, ?_, hreturned⟩, fun c s hc => ?_, fun hlen => ?_⟩
  · rw [hdatagrams, hhanded, List.flatMap_cons, List.append_assoc]
  · rcases h.gso c s hc with hc | ⟨hc, hs⟩
    · exact (hgso c s hc).imp_right fun ⟨hc, hs⟩ => ⟨hc ▸ List.mem_cons_self, hs⟩
    · exact Or.inr ⟨List.mem_cons_of_mem chunk hc, hs⟩
  · rw [List.length_cons] at hlen
    exact h.returned (by omega)

theorem sendChunks_sends {shardSize : Nat} (hs : 0 < shardSize) (todo : List (List Byte)) {p : Progress}
    (hp : p.returned = false) : Sends shardSize todo p (sendChunks shardSize todo p) := by
  induction todo generalizing p with
  | nil =>
    refine ⟨⟨[], [], rfl, ?_, fun _ => rfl⟩, fun c s hc => Or.inl hc, fun _ => rfl⟩
    show datagrams p.handed = _
    rw [List.flatMap_nil, List.append_nil]
  | cons chunk rest ih =>
    rw [sendChunks]
    rcases trySend_cases p.results with ⟨hnone, hcount⟩ | ⟨result, results, hsome, hresult, hcount⟩
    · -- The socket stays full: the chunk waits.
      rw [hnone]
      refine ⟨⟨[], chunk :: rest, rfl, ?_, fun h => ?_⟩, fun c s hc => Or.inl hc, fun hlen => ?_⟩
      · show datagrams p.handed = _
        rw [List.flatMap_nil, List.append_nil]
      · have : p.returned = true := h
        rw [hp] at this
        cases this
      · rw [hcount] at hlen
        cases hlen
    · rw [hsome]
      rcases hresult with rfl | rfl
      · refine (ih (p := { p with handed := p.handed ++ [.gso chunk shardSize], results }) hp).chunk ?_ ?_ hcount
        · show datagrams (p.handed ++ [.gso chunk shardSize]) = _
          rw [datagrams_append]
          exact congrArg _ (List.flatMap_singleton _ _)
        · intro c s hc
          refine (List.mem_append.mp hc).imp_right fun hc => ?_
          cases List.mem_singleton.mp hc
          exact ⟨rfl, rfl⟩
      · refine (ih (p := { p with
            failedChunks := p.failedChunks + 1, handed := p.handed ++ sendShards chunk shardSize, results })
          hp).chunk ?_ ?_ hcount
        · show datagrams (p.handed ++ sendShards chunk shardSize) = _
          rw [datagrams_append, datagrams_sendShards hs]
        · intro c s hc
          exact (List.mem_append.mp hc).imp_right fun hc => absurd hc mem_sendShards

/-- The datagrams are the shards of the batch, each once and in order, but for
those that wait for the socket; a GSO send is one of the chunks, cut at the shard
size; and the call returns once no chunk finds the socket full for ever. -/
structure ExactlyOnce (maxGsoSegments : Nat) (b : ShardBatch) (results : List TrySend) (p : Progress) : Prop where
  datagrams : ∃ waiting, datagrams p.handed ++ waiting = b.shards ∧ (p.returned = true → waiting = [])
  gso : ∀ contents segmentSize, .gso contents segmentSize ∈ p.handed →
    contents ∈ gsoChunks maxGsoSegments b ∧ segmentSize = b.shardSize
  returned : (gsoChunks maxGsoSegments b).length ≤ results.countP (· ≠ .wouldBlock) → p.returned = true

theorem sendBatchGso_exactlyOnce {b : ShardBatch} (h : Whole b) (maxGsoSegments : Nat) (results : List TrySend) :
    ExactlyOnce maxGsoSegments b results (sendBatchGso maxGsoSegments b results) := by
  unfold sendBatchGso
  split
  · rename_i hs
    exact ⟨⟨[], (whole_zero h hs).2.symm, fun _ => rfl⟩, nofun, fun _ => rfl⟩
  · rename_i hs
    have hpos : 0 < b.shardSize := Nat.pos_of_ne_zero hs
    have hsends := sendChunks_sends hpos (gsoChunks maxGsoSegments b) (p := ⟨[], 0, results, false⟩) rfl
    obtain ⟨done, waiting, htodo, hdatagrams, hreturned⟩ := hsends.handed
    refine ⟨⟨waiting.flatMap (chunks b.shardSize), ?_, fun hr => ?_⟩, fun c s hc => ?_, hsends.returned⟩
    · rw [hdatagrams, show datagrams ([] : List Handed) = [] from rfl, List.nil_append, ← List.flatMap_append,
        ← htodo, gsoChunks, flatMap_chunks_mul hpos (gsoSegmentsPerSend_pos _ _), chunks_shards h hpos]
    · rw [hreturned hr]
      rfl
    · exact (hsends.gso c s hc).resolve_left List.not_mem_nil

/-- Whatever the segment limit and whatever the sends end in, a batch of whole
shards is cut between shards and within both limits, and no shard is lost or sent
twice. -/
theorem sendBatch_exactly_once {b : ShardBatch} (h : Whole b) (maxGsoSegments : Nat) (results : List TrySend) :
    ExactlyOnce maxGsoSegments b results (sendBatch maxGsoSegments b results) ∧
      (1 < maxGsoSegments → ChunksFit maxGsoSegments b) := by
  refine ⟨?_, fun hmax => chunksFit (Nat.le_of_lt hmax) h⟩
  unfold sendBatch
  split
  · exact sendBatchGso_exactlyOnce h maxGsoSegments results
  · refine ⟨⟨[], ?_, fun _ => rfl⟩, fun c s hc => absurd hc mem_sendShards, fun _ => rfl⟩
    rw [List.append_nil]
    by_cases hs : b.shardSize = 0
    · show datagrams (sendShards b.data b.shardSize) = _
      rw [sendShards, if_pos hs, (whole_zero h hs).2]
      rfl
    · have hpos : 0 < b.shardSize := Nat.pos_of_ne_zero hs
      exact (datagrams_sendShards hpos b.data).trans (chunks_shards h hpos)

/-- Three shards of two bytes under a limit of two segments; the socket is full
at first, and the second chunk falls back. -/
theorem sendBatch_exactly_once_small :
    ExactlyOnce 2 ⟨[1, 2, 3, 4, 5, 6], 2⟩ [.wouldBlock, .sent, .failed]
      ⟨[.gso [1, 2, 3, 4] 2, .packet [5, 6]], 1, [], true⟩ ∧ ChunksFit 2 ⟨[1, 2, 3, 4, 5, 6], 2⟩ := by
  have h := sendBatch_exactly_once (b := ⟨[1, 2, 3, 4, 5, 6], 2⟩) (by unfold Whole; decide) 2
    [.wouldBlock, .sent, .failed]
  exact ⟨h.1, h.2 (by decide)⟩

end Moonshine.Proof.UdpGsoSocket

namespace Moonshine.Proof.Packetizer

open Moonshine.Framework Moonshine.Impl Moonshine.Impl.Packetizer Moonshine.Proof.ShardBatch

variable {x : Crates}

theorem blocks_accumulated {f : Frame} (h : Valid f) {n b : Nat} (hn : b + n = nrBlocks f) {s s' : State x}
    (hpre : PrefixFits f s.packetizer.cipher) {all batch : ShardBatch} (hall : Accumulated f all)
    (hrun : blocks f n b all s = (.ok batch, s')) : Accumulated f batch := by
  induction n generalizing b s all with
  | zero =>
    cases hrun
    exact hall
  | succ n ih =>
    obtain ⟨all', s₁, hblock, hrun⟩ := Prog.bind_eq_ok.mp hrun
    obtain ⟨-, -, -, hall', hused⟩ := block_spec h (by omega) hpre hall hblock
    split at hrun
    · cases hrun
      exact hall'
    · exact ih (by omega) (by rw [PrefixFits, hused.cipher]; exact hpre) hall' hrun

/-- What `packetize` returns consists of whole shards. -/
theorem packetize_whole {keys : SessionKeyData} {a : Args} {s s' : State x} {batch : ShardBatch}
    (hrun : packetize keys a s = (.ok batch, s')) : Whole batch := by
  obtain ⟨hv, hrun⟩ := blocks_of_packetize hrun
  rcases blocks_accumulated hv (Nat.zero_add _) (prefixFits_frame ..) (Or.inl rfl) hrun with rfl | ⟨-, hwhole⟩
  · rfl
  · exact hwhole

end Moonshine.Proof.Packetizer
