import Moonshine.Proof.Video.Epochs
import Moonshine.Proof.Video.WarmUp

/-!
# The sequence numbers of the shards

Within a frame the shards are numbered one after another, over the blocks and
the parity shards (`numbered_frame`), and the next frame goes on from there. So
the shards of any run of calls are numbered without a gap from the caller's
counter on (`packetizeAll_gapless`), and so are those of the batches that the
packet consumer sends between two resets (`epoch_gapless`).
-/

namespace Moonshine.Proof.Packetizer

open Moonshine.Framework Moonshine.Impl Moonshine.Impl.Packetizer Moonshine.Proof.ShardBatch

variable {x : Crates}

/-- The RTP sequence number of a shard. -/
def sequenceNumberOf (shard : List Byte) : Nat := ofBe (slice shard 2 2)

/-- The `stream_packet_index` of a data shard. -/
def streamPacketIndexOf (shard : List Byte) : Nat := ofLe (slice shard 16 4)

theorem sequenceNumberOf_append (q : UInt16) (rest : List Byte) :
    sequenceNumberOf ([(0x90 : Byte), 0] ++ beBytes 2 q.toNat ++ rest) = q.toNat := by
  rw [sequenceNumberOf, slice_middle (show 2 = [(0x90 : Byte), 0].length from rfl) (length_beBytes 2 _).symm,
    ofBe_beBytes]
  exact Nat.mod_eq_of_lt q.toNat_lt

theorem dataShard_numbers (f : Frame) (b d pct index j : Nat) (q : UInt32) :
    sequenceNumberOf (dataShard f b d pct index j q) = q.toUInt16.toNat ∧
      streamPacketIndexOf (dataShard f b d pct index j q) = (q <<< 8).toNat := by
  constructor
  · have hsplit : dataShard f b d pct index j q = [(0x90 : Byte), 0] ++ beBytes 2 q.toUInt16.toNat ++
        (beBytes 4 f.rtpTimestamp.toNat ++ beBytes 4 0 ++ List.replicate 4 (0 : Byte) ++
          nvVideoPacket (q <<< 8) f.frameNumber (flags index d) (multiFecBlocks f b) (fecInfo index d pct) ++
          payload f j) := by
      simp [dataShard, rtpHeader]
    rw [hsplit]
    exact sequenceNumberOf_append _ _
  · have hsplit : dataShard f b d pct index j q =
        (rtpHeader q.toUInt16 f.rtpTimestamp ++ List.replicate 4 (0 : Byte)) ++ leBytes 4 (q <<< 8).toNat ++
          (leBytes 4 f.frameNumber.toNat ++ [flags index d, 0, 0x10, multiFecBlocks f b] ++
            leBytes 4 (fecInfo index d pct).toNat ++ payload f j) := by
      simp [dataShard, nvVideoPacket]
    rw [hsplit, streamPacketIndexOf, slice_middle (by simp) (length_leBytes 4 _).symm, ofLe_leBytes]
    exact Nat.mod_eq_of_lt (q <<< 8).toNat_lt

theorem parityShard_number (f : Frame) (raw : List Byte) (b d pct index : Nat) (q : UInt32) :
    sequenceNumberOf (parityShard f b d pct index q raw) = q.toUInt16.toNat := by
  have hsplit : parityShard f b d pct index q raw = [(0x90 : Byte), 0] ++ beBytes 2 q.toUInt16.toNat ++
      (slice raw 4 12 ++ (slice raw 16 4 ++ leBytes 4 f.frameNumber.toNat ++ slice raw 24 3 ++
        [multiFecBlocks f b] ++ leBytes 4 (fecInfo index d pct).toNat) ++ raw.drop 32) := by
    simp [parityShard]
  rw [hsplit]
  exact sequenceNumberOf_append _ _

inductive ShardKind
  | data | parity
  deriving DecidableEq, Repr

/-- The shards, as a receiver gets them, carry the numbers from `q` on; the data
shards among them have them in `stream_packet_index` as well. -/
structure Numbered (q : UInt32) (kinds : List ShardKind) (shards : List (Option (List Byte))) : Prop where
  length : kinds.length = shards.length
  numbers : ∀ (i : Nat) (kind : ShardKind), kinds[i]? = some kind → ∃ shard, shards[i]? = some (some shard) ∧
    sequenceNumberOf shard = (q.toNat + i) % 65536 ∧
      (kind = .data → streamPacketIndexOf shard = ((q + UInt32.ofNat i) <<< 8).toNat)

theorem numbered_nil (q : UInt32) : Numbered q [] [] := ⟨rfl, nofun⟩

/-- A counter of 32 bits that wraps counts on in its lower half. -/
theorem add_mod_lower (q : UInt32) (m : Nat) : (q + UInt32.ofNat m).toNat % 65536 = (q.toNat + m) % 65536 := by
  rw [UInt32.toNat_add, UInt32.toNat_ofNat']
  omega

theorem Numbered.append {q : UInt32} {kinds kinds' : List ShardKind} {shards shards' : List (Option (List Byte))}
    (h : Numbered q kinds shards) (h' : Numbered (q + UInt32.ofNat shards.length) kinds' shards') :
    Numbered q (kinds ++ kinds') (shards ++ shards') := by
  refine ⟨by rw [List.length_append, List.length_append, h.length, h'.length], fun i kind hi => ?_⟩
  by_cases hlt : i < kinds.length
  · rw [List.getElem?_append_left hlt] at hi
    obtain ⟨shard, hget, hnum⟩ := h.numbers i kind hi
    exact ⟨shard, by rwa [List.getElem?_append_left (by rwa [← h.length])], hnum⟩
  · rw [List.getElem?_append_right (Nat.not_lt.mp hlt), h.length] at hi
    obtain ⟨shard, hget, hseq, hindex⟩ := h'.numbers _ kind hi
    have hle : shards.length ≤ i := by
      rw [← h.length]
      exact Nat.not_lt.mp hlt
    refine ⟨shard, by rwa [List.getElem?_append_right hle], ?_, fun hk => ?_⟩
    · have hlow := add_mod_lower q shards.length
      rw [hseq]
      omega
    · rw [hindex hk, add_assoc, ← UInt32.ofNat_add, show shards.length + (i - shards.length) = i by omega]

/-- The kinds of the shards of a block. -/
def blockKinds (f : Frame) (b : Nat) : List ShardKind :=
  List.replicate (blockData f b) .data ++ List.replicate (blockParity f b) .parity

def frameKinds (f : Frame) : List ShardKind := (List.range (blockCount f)).flatMap (blockKinds f)

theorem length_blockKinds (f : Frame) (b : Nat) : (blockKinds f b).length = blockSize f b := by
  rw [blockKinds, List.length_append, List.length_replicate, List.length_replicate, blockSize]

/-- The shards of a block carry the numbers from `q` on. -/
theorem numbered_block {cipher : Option (List Byte)} {f : Frame} {b : Nat} {q : UInt32}
    {sent : List (List Byte)} (h : SentBlock x cipher f b q sent) :
    Numbered q (blockKinds f b) (sent.map (received x cipher)) := by
  obtain ⟨buf, hfill, hsent⟩ := h.filled
  refine ⟨by rw [length_blockKinds, List.length_map, h.length], fun i kind hi => ?_⟩
  have hlt : i < blockSize f b := by
    rw [← length_blockKinds]
    exact (List.getElem?_eq_some_iff.mp hi).1
  obtain ⟨shard, hget, hrec⟩ := hsent i hlt
  have hlow : (q + UInt32.ofNat i).toUInt16.toNat = (q.toNat + i) % 65536 := by
    rw [UInt32.toNat_toUInt16]
    exact add_mod_lower q i
  refine ⟨buf.shard i, by rw [List.getElem?_map, hget, Option.map_some, hrec], ?_⟩
  by_cases hd : i < blockData f b
  · have hnumbers := dataShard_numbers f b (blockData f b) (blockPercentage f b) i ((blockRange f b).1 + i)
      (q + UInt32.ofNat i)
    rw [hfill.data i hd]
    exact ⟨hnumbers.1.trans hlow, fun _ => hnumbers.2⟩
  · have hkind : kind = .parity := by
      rw [blockKinds, List.getElem?_append_right (by rw [List.length_replicate]; omega)] at hi
      exact List.eq_of_mem_replicate (List.mem_of_getElem? hi)
    unfold blockSize at hlt
    obtain ⟨r, out, -, hparity⟩ := hfill.parity (by omega)
    obtain ⟨raw, -, -, hraw⟩ := hparity (i - blockData f b) (by omega)
    rw [show blockData f b + (i - blockData f b) = i by omega] at hraw
    rw [hraw]
    refine ⟨(parityShard_number ..).trans hlow, fun hk => ?_⟩
    rw [hkind] at hk
    cases hk

/-- What one call returned, with the frame and the cipher it was made with. -/
structure Sent (x : Crates) where
  frame : Frame
  cipher : Option (List Byte)
  batch : ShardBatch

/-- The shards of a batch, as a receiver gets them. -/
def Sent.shards (t : Sent x) : List (Option (List Byte)) := t.batch.shards.map (received x t.cipher)

/-- The call for `a` that returned `batch` and left the state `s`. -/
def Sent.of (a : Args) (batch : ShardBatch) (s : State x) : Sent x :=
  ⟨a.frame s.packetizer.cipher.isSome, s.packetizer.cipher, batch⟩

/-- The shards of a frame carry the numbers from the caller's counter on. -/
theorem numbered_frame {keys : SessionKeyData} {a : Args} {s s' : State x} {batch : ShardBatch}
    (hrun : packetize keys a s = (.ok batch, s')) :
    Numbered s.sequenceNumber (frameKinds (a.frame s'.packetizer.cipher.isSome))
      (Sent.of a batch s').shards := by
  obtain ⟨f, hf, -, hshards, hblocks, -, hcipher⟩ := packetize_spec hrun
  rw [← hcipher] at hf
  rw [← hf]
  have hupto : ∀ m ≤ blockCount f, Numbered s.sequenceNumber ((List.range m).flatMap (blockKinds f))
      ((((blocksOf f batch).take m).flatten).map (received x s'.packetizer.cipher)) ∧
        (((blocksOf f batch).take m).flatten).length = blockOffset f m := by
    intro m hm
    induction m with
    | zero => exact ⟨numbered_nil _, rfl⟩
    | succ m ih =>
      obtain ⟨hnum, hlen⟩ := ih (by omega)
      obtain ⟨sent, hget, hsent⟩ := hblocks m (by omega)
      have htake : (blocksOf f batch).take (m + 1) = (blocksOf f batch).take m ++ [sent] := by
        rw [List.take_add_one, hget, Option.toList_some]
      rw [htake, List.flatten_append, List.flatten_singleton]
      constructor
      · rw [range_flatMap_succ, List.map_append]
        refine hnum.append ?_
        rw [List.length_map, hlen]
        exact numbered_block hsent
      · rw [List.length_append, hlen, hsent.length, blockOffset, blockOffset, List.range_succ, List.map_append,
          List.sum_append, List.map_singleton, List.sum_singleton]
  have hall := (hupto (blockCount f) (Nat.le_refl _)).1
  rw [← length_blocksOf f batch, List.take_length, ← hshards, length_blocksOf] at hall
  exact hall

/-- The shards of all calls together carry the numbers from `q` on, and `q'` is
the next one. -/
structure Gapless (q q' : UInt32) (sent : List (Sent x)) : Prop where
  numbered : Numbered q (sent.flatMap fun t => frameKinds t.frame) (sent.flatMap Sent.shards)
  counter : q' = q + UInt32.ofNat (sent.flatMap Sent.shards).length

theorem gapless_nil (q : UInt32) : Gapless q q ([] : List (Sent x)) :=
  ⟨numbered_nil q, (add_zero q).symm⟩

theorem Gapless.append {q q' q'' : UInt32} {sent sent' : List (Sent x)} (h : Gapless q q' sent)
    (h' : Gapless q' q'' sent') : Gapless q q'' (sent ++ sent') := by
  constructor
  · rw [List.flatMap_append, List.flatMap_append]
    refine h.numbered.append ?_
    rw [← h.counter]
    exact h'.numbered
  · rw [List.flatMap_append, List.length_append, UInt32.ofNat_add, ← add_assoc, ← h.counter]
    exact h'.counter

theorem gapless_call {keys : SessionKeyData} {a : Args} {s s' : State x} {batch : ShardBatch}
    (hrun : packetize keys a s = (.ok batch, s')) :
    Gapless s.sequenceNumber s'.sequenceNumber [Sent.of a batch s'] := by
  refine ⟨?_, ?_⟩
  · rw [List.flatMap_singleton, List.flatMap_singleton]
    exact numbered_frame hrun
  · rw [List.flatMap_singleton, Sent.shards, List.length_map]
    exact packetize_counter hrun

/-- Calls one after another, with the keys that are published at each. -/
def packetizeAll : List (SessionKeyData × Args) → Prog (State x) (List (Sent x))
  | [] => return []
  | (keys, a) :: calls => do
    let batch ← packetize keys a
    let cipher ← Prog.gets fun s => s.packetizer.cipher
    let sent ← packetizeAll calls
    return ⟨a.frame cipher.isSome, cipher, batch⟩ :: sent

/-- The shards of any run of calls that all return are numbered without a gap
from the caller's counter on, which ends behind the last of them. -/
theorem packetizeAll_gapless {calls : List (SessionKeyData × Args)} {s s' : State x} {sent : List (Sent x)}
    (hrun : packetizeAll calls s = (.ok sent, s')) :
    sent.length = calls.length ∧ Gapless s.sequenceNumber s'.sequenceNumber sent := by
  induction calls generalizing s sent with
  | nil =>
    cases hrun
    exact ⟨rfl, gapless_nil _⟩
  | cons call calls ih =>
    obtain ⟨batch, s₁, hcall, hrun⟩ := Prog.bind_eq_ok.mp hrun
    rw [Prog.gets_bind] at hrun
    obtain ⟨rest, s₂, hrest, hrun⟩ := Prog.bind_eq_ok.mp hrun
    cases hrun
    obtain ⟨hlen, hgapless⟩ := ih hrest
    exact ⟨congrArg Nat.succ hlen, (gapless_call hcall).append hgapless⟩

/-- A frame in blocks of 72 and 36 data shards. -/
def twoBlocks (frameNumber : UInt32) : Args := ⟨List.replicate 100 7, true, 17, 1, 255, frameNumber, 9, 0⟩

theorem twoBlocks_sizes (frameNumber : UInt32) :
    blockSizes ((twoBlocks frameNumber).frame false) = [72 + 183, 36 + 91] := by
  show blockSizes ((twoBlocks 0).frame false) = _
  decide +kernel

theorem twoBlocks_packetized (frameNumber : UInt32) {s : State checking} (hoff : s.packetizer.encrypt = false) :
    ∃ batch s', packetize ⟨[], 0⟩ (twoBlocks frameNumber) s = (.ok batch, s') ∧ s'.packetizer.encrypt = false := by
  have hsize : 16 < (twoBlocks frameNumber).requestedPacketSize := Nat.lt_succ_self 16
  have hworks := encodersWork reedSolomonLaws_checking (valid_frame (payloadSize_pos hsize) false)
  have hfits : Allocates ((twoBlocks frameNumber).frame false) := fun b hb => by
    have hmem : blockSize ((twoBlocks frameNumber).frame false) b ∈ [72 + 183, 36 + 91] :=
      twoBlocks_sizes frameNumber ▸ List.mem_map_of_mem (List.mem_range.mpr hb)
    have hshard : ((twoBlocks frameNumber).frame false).prefixSize +
        ((twoBlocks frameNumber).frame false).requestedShardSize = 33 := rfl
    have hmax : isizeMax = 9223372036854775807 := by decide
    rw [BlockAllocates, hshard]
    simp only [List.mem_cons, List.not_mem_nil, or_false] at hmem
    omega
  obtain ⟨batch, s', hrun⟩ := packetize_total hsize hworks hfits hoff ⟨[], 0⟩
  have hkept := encrypt_packetize ⟨[], 0⟩ (twoBlocks frameNumber) s
  rw [hrun] at hkept
  exact ⟨batch, s', hrun, hkept.trans hoff⟩

theorem packetizeAll_cons {keys : SessionKeyData} {a : Args} {calls : List (SessionKeyData × Args)}
    {s m s' : State x} {batch : ShardBatch} {sent : List (Sent x)} (hcall : packetize keys a s = (.ok batch, m))
    (hcalls : packetizeAll calls m = (.ok sent, s')) :
    packetizeAll ((keys, a) :: calls) s = (.ok (Sent.of a batch m :: sent), s') := by
  rw [packetizeAll, Prog.bind_of_ok hcall, Prog.gets_bind, Prog.bind_of_ok hcalls]
  rfl

/-- Two frames of two blocks, where the numbers of 16 bits wrap. -/
theorem packetizeAll_gapless_blocks : ∃ sent s',
    packetizeAll [(⟨[], 0⟩, twoBlocks 1), (⟨[], 0⟩, twoBlocks 2)] ⟨new checking false, 65000, []⟩ = (.ok sent, s') ∧
      sent.length = 2 ∧ Gapless 65000 s'.sequenceNumber sent := by
  obtain ⟨first, s₁, hfirst, hoff⟩ := twoBlocks_packetized 1 (s := ⟨new checking false, 65000, []⟩) rfl
  obtain ⟨second, s₂, hsecond, -⟩ := twoBlocks_packetized 2 hoff
  have hnil : packetizeAll [] s₂ = (.ok [], s₂) := rfl
  have hall := packetizeAll_cons hfirst (packetizeAll_cons hsecond hnil)
  exact ⟨_, s₂, hall, packetizeAll_gapless hall⟩

end Moonshine.Proof.Packetizer

namespace Moonshine.Proof.Pipeline

open Moonshine.Framework Moonshine.Impl Moonshine.Impl.Pipeline
open Moonshine.Impl.Packetizer (Crates packetize)
open Moonshine.Proof.Packetizer

variable {x : Crates} {cfg : Config}

/-- The consumer takes no reset, and what it packetizes is returned and sent. -/
def StaysInEpoch (cfg : Config) (s : State x) (act : Action) (_ : State x) : Prop :=
  match act with
  | .take => s.queue.head? ≠ some .resetCounters
  | .finish (.packet data isKeyFrame) keys latency networkOpen => networkOpen = true ∧
    ∀ displayOrder, s.consumer.processing = some displayOrder → ∃ shards p,
      packetize keys (cfg.args (s.consumer.frameNumber + 1) displayOrder data isKeyFrame latency)
        s.consumer.packetizer = (.ok shards, p)
  | _ => True

/-- The batches sent since `s`, numbered from its counter on. -/
def SentSince (s s' : State x) : Prop :=
  ∃ sent : List (Sent x), s'.consumer.sent = s.consumer.sent ++ sent.map Sent.batch ∧
    Gapless s.consumer.packetizer.sequenceNumber s'.consumer.packetizer.sequenceNumber sent

theorem sentSince_of_eq {s s' : State x} (hsent : s'.consumer.sent = s.consumer.sent)
    (hp : s'.consumer.packetizer = s.consumer.packetizer) : SentSince s s' :=
  ⟨[], by rw [hsent]; exact (List.append_nil _).symm, by rw [hp]; exact gapless_nil _⟩

theorem SentSince.trans {s s' s'' : State x} (h : SentSince s s') (h' : SentSince s' s'') : SentSince s s'' := by
  obtain ⟨sent, hsent, hgap⟩ := h
  obtain ⟨sent', hsent', hgap'⟩ := h'
  exact ⟨sent ++ sent', by rw [hsent', hsent, List.append_assoc, List.map_append], hgap.append hgap'⟩

/-- What the loop does to its requests leaves the consumer alone. -/
theorem consumer_requests (pending : Bool) (s : State x) : (drainResets pending s).consumer = s.consumer := by
  unfold drainResets
  split <;> rfl

theorem consumer_invalidate (requests : List (Option (UInt32 × UInt32))) (s : State x) :
    (requests.foldl invalidate s).consumer = s.consumer := by
  induction requests generalizing s with
  | nil => rfl
  | cons request requests ih =>
    rw [List.foldl_cons, ih]
    cases request <;> rfl

theorem consumer_receive (s : State x) (received : Received) : (receive s received).consumer = s.consumer := by
  unfold receive
  cases received with
  | timeout encoded =>
    dsimp only
    split <;> rfl
  | disconnected => rfl
  | frame captured =>
    dsimp only
    split
    · rfl
    · cases captured <;> rfl

theorem consumer_send {s s' : State x} (h : send s = some s') : s'.consumer = s.consumer := by
  unfold send at h
  split at h
  · cases h
  · dsimp only at h
    split_ifs at h <;> cases h <;> rfl

theorem sentSince_take {s s' : State x} (h : take s = some s') (hreset : s.queue.head? ≠ some .resetCounters) :
    SentSince s s' := by
  unfold take at h
  split at h
  · rename_i hq
    rw [hq] at hreset
    exact absurd rfl hreset
  · cases h
    exact sentSince_of_eq rfl rfl
  · cases h

/-- A frame that is packetized while the network is there is sent. -/
theorem sendPacket_ok {keys : SessionKeyData} {displayOrder : Nat} {data : List Byte} {isKeyFrame : Bool}
    {latency : UInt16} {frameNumber : UInt32} {p p' : Packetizer.State x} {shards : ShardBatch}
    (hrun : packetize keys (cfg.args (frameNumber + 1) displayOrder data isKeyFrame latency) p = (.ok shards, p'))
    (c : Consumer x) (hn : c.frameNumber = frameNumber) (hc : c.packetizer = p) :
    (c.sendPacket cfg keys displayOrder data isKeyFrame latency true).sent = c.sent ++ [shards] ∧
      (c.sendPacket cfg keys displayOrder data isKeyFrame latency true).packetizer = p' := by
  subst hn hc
  unfold Consumer.sendPacket
  dsimp only
  rw [hrun]
  exact ⟨rfl, rfl⟩

theorem sentSince_finish {s s' : State x} {readBack : ReadBack} {keys : SessionKeyData} {latency : UInt16}
    {networkOpen : Bool} (h : finish cfg readBack keys latency networkOpen s = some s')
    (hstays : StaysInEpoch cfg s (.finish readBack keys latency networkOpen) s') : SentSince s s' := by
  unfold finish at h
  split at h
  · rename_i displayOrder _ hproc
    cases readBack with
    | packet data isKeyFrame =>
      cases h
      obtain ⟨rfl, hcall⟩ := hstays
      obtain ⟨shards, p, hrun⟩ := hcall displayOrder hproc
      obtain ⟨hsent, hp⟩ := sendPacket_ok hrun { s.consumer with processing := none } rfl rfl
      refine ⟨[Sent.of (cfg.args (s.consumer.frameNumber + 1) displayOrder data isKeyFrame latency) shards p],
        hsent, ?_⟩
      show Gapless _ (Consumer.sendPacket ..).packetizer.sequenceNumber _
      rw [hp]
      exact gapless_call hrun
    | bufferOverflow =>
      cases h
      exact sentSince_of_eq rfl rfl
    | failed =>
      cases h
      exact sentSince_of_eq rfl rfl
  · cases h

theorem sentSince_step {s s' : State x} {act : Action} (h : step cfg s act = some s')
    (hstays : StaysInEpoch cfg s act s') : SentSince s s' := by
  cases act with
  | take => exact sentSince_take h hstays
  | finish readBack keys latency networkOpen => exact sentSince_finish h hstays
  | send => exact sentSince_of_eq (by rw [consumer_send h]) (by rw [consumer_send h])
  | shutdown =>
    obtain ⟨-, rfl⟩ := atPhase_eq_some h
    exact sentSince_of_eq rfl rfl
  | drainResets pending =>
    obtain ⟨-, rfl⟩ := atPhase_eq_some h
    have hc : (goto .idrRequests (drainResets pending s)).consumer = s.consumer := consumer_requests pending s
    exact sentSince_of_eq (by rw [hc]) (by rw [hc])
  | drainIdrRequests pending =>
    obtain ⟨-, rfl⟩ := atPhase_eq_some h
    cases pending <;> exact sentSince_of_eq rfl rfl
  | drainInvalidations requests =>
    obtain ⟨-, rfl⟩ := atPhase_eq_some h
    have hc : (goto .receive (requests.foldl invalidate s)).consumer = s.consumer := consumer_invalidate requests s
    exact sentSince_of_eq (by rw [hc]) (by rw [hc])
  | receive received =>
    obtain ⟨-, rfl⟩ := atPhase_eq_some h
    have hc := consumer_receive s received
    exact sentSince_of_eq (by rw [hc]) (by rw [hc])

/-- From any state on, what the consumer sends before the next reset is numbered
without a gap from its counter on. -/
theorem epoch_gapless {acts : List Action} {s s' : State x}
    (hstays : EveryStep (step cfg) (StaysInEpoch cfg) s acts) (he : exec (step cfg) s acts = some s') :
    SentSince s s' :=
  hstays.keeps (fun _ _ _ hinv hs hc => SentSince.trans hinv (sentSince_step hs hc)) (sentSince_of_eq rfl rfl) he

end Moonshine.Proof.Pipeline
