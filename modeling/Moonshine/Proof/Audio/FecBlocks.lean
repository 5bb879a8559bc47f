import Mathlib.Data.List.GetD
import Moonshine.Framework.Run
import Moonshine.Impl.Audio.Encoder

/-!
# The blocks of the audio stream

Where Opus delivers packets of one size, what the encoder sends is a sequence of
blocks (`Block.packets`): four data packets in sequence, then the two parity
packets that describe them. The sequence number, the input of the shard-by-shard
encoder and the base fields of the FEC header stay in step whatever fails
(`Open`), since a frame that fails leaves all of them alone.
-/

namespace Moonshine.Proof.AudioEncoder

open Moonshine.Framework Moonshine.Impl Moonshine.Impl.AudioEncoder

variable {x : Crates}

/-! ## What should be sent -/

structure DataPacket where
  sequenceNumber : UInt16
  timestamp : UInt32
  payload : List Byte

def DataPacket.bytes (p : DataPacket) : List Byte :=
  [0x80] ++ rtpHeader 97 p.sequenceNumber p.timestamp ++ p.payload

/-- The Reed-Solomon parity of four packets, byte by byte. -/
def columnParity (x : Crates) (k : Nat) (a b c d : List Byte) : List Byte :=
  (List.range a.length).map fun i =>
    x.parity parityMatrix k (a.getD i 0) (b.getD i 0) (c.getD i 0) (d.getD i 0)

/-- Four data packets in sequence, of one size. -/
structure Block where
  first : DataPacket
  second : DataPacket
  third : DataPacket
  fourth : DataPacket
  sequence : second.sequenceNumber = first.sequenceNumber + 1 ∧
    third.sequenceNumber = first.sequenceNumber + 2 ∧ fourth.sequenceNumber = first.sequenceNumber + 3
  size : second.payload.length = first.payload.length ∧ third.payload.length = first.payload.length ∧
    fourth.payload.length = first.payload.length

namespace Block

def dataPackets (b : Block) : List (List Byte) :=
  [b.first.bytes, b.second.bytes, b.third.bytes, b.fourth.bytes]

/-- The parity of the block's packets, behind a header that describes them. The
first byte of the RTP header is left as the parity made it. -/
def parityPacket (x : Crates) (b : Block) (k : Nat) : List Byte :=
  [x.parity parityMatrix k 0x80 0x80 0x80 0x80] ++
    rtpHeader 127 (b.first.sequenceNumber + 4 + UInt16.ofNat k) 0 ++
    audioFecHeader k b.first.sequenceNumber b.first.timestamp ++
    columnParity x k b.first.payload b.second.payload b.third.payload b.fourth.payload

def packets (x : Crates) (b : Block) : List (List Byte) :=
  b.dataPackets ++ [b.parityPacket x 0, b.parityPacket x 1]

end Block

/-- The packets sent are those of blocks one after another, numbered from zero
on, as far as they were sent. -/
def InBlocks (x : Crates) (sent : List (List Byte)) : Prop :=
  ∃ blocks : List Block, (∀ i b, blocks[i]? = some b → b.first.sequenceNumber = UInt16.ofNat (4 * i)) ∧
    sent <+: blocks.flatMap (Block.packets x)

theorem of_getElem?_concat {α : Type} {l : List α} {a b : α} {i : Nat} (h : (l ++ [a])[i]? = some b) :
    l[i]? = some b ∨ i = l.length ∧ a = b := by
  rcases Nat.lt_trichotomy i l.length with hlt | rfl | hgt
  · rw [List.getElem?_append_left hlt] at h
    exact .inl h
  · rw [List.getElem?_concat_length] at h
    exact .inr ⟨rfl, Option.some.inj h⟩
  · rw [List.getElem?_eq_none (by rw [List.length_append, List.length_singleton]; omega)] at h
    cases h

theorem numbers_append {blocks : List Block} {b : Block}
    (h : ∀ i b', blocks[i]? = some b' → b'.first.sequenceNumber = UInt16.ofNat (4 * i))
    (hb : b.first.sequenceNumber = UInt16.ofNat (4 * blocks.length)) (i : Nat) (b' : Block)
    (hget : (blocks ++ [b])[i]? = some b') : b'.first.sequenceNumber = UInt16.ofNat (4 * i) := by
  rcases of_getElem?_concat hget with hget | ⟨rfl, rfl⟩
  · exact h i b' hget
  · exact hb

/-! ## Parity, shard by shard -/

/-- What a parity slice holds after the data slices `ps`, the first of them
number `i`. -/
def folded (x : Crates) (k : Nat) : Nat → List (List Byte) → List Byte → List Byte
  | _, [], into => into
  | i, p :: ps, into => folded x k (i + 1) ps (List.zipWith (x.encodeSingle parityMatrix i k) p into)

theorem folded_append (k i : Nat) (ps : List (List Byte)) (p into : List Byte) :
    folded x k i (ps ++ [p]) into =
      List.zipWith (x.encodeSingle parityMatrix (i + ps.length) k) p (folded x k i ps into) := by
  induction ps generalizing i into with
  | nil => rfl
  | cons q ps ih =>
    rw [List.cons_append, folded, ih, folded, List.length_cons]
    congr 2
    omega

theorem length_folded {k i n : Nat} {ps : List (List Byte)} {into : List Byte}
    (hps : ∀ p ∈ ps, p.length = n) (hinto : into.length = n) : (folded x k i ps into).length = n := by
  induction ps generalizing i into with
  | nil => exact hinto
  | cons p ps ih =>
    refine ih (fun q hq => hps q (List.mem_cons_of_mem p hq)) ?_
    rw [List.length_zipWith, hps p List.mem_cons_self, hinto, Nat.min_self]

theorem folded_four {k n : Nat} {a b c d into : List Byte} (ha : a.length = n) (hb : b.length = n)
    (hc : c.length = n) (hd : d.length = n) (hinto : into.length = n) :
    folded x k 0 [a, b, c, d] into = columnParity x k a b c d := by
  refine List.ext_getElem ?_ fun i h₁ h₂ => ?_
  · rw [length_folded (by simp [ha, hb, hc, hd]) hinto]
    simp [columnParity, ha]
  · simp only [folded, columnParity, List.getElem_zipWith, List.getElem_map, List.getElem_range,
      x.encodeSingle_parity]
    have hi : i < n := by simpa [columnParity, ha] using h₂
    rw [List.getD_eq_getElem _ _ (by omega), List.getD_eq_getElem _ _ (by omega),
      List.getD_eq_getElem _ _ (by omega), List.getD_eq_getElem _ _ (by omega)]

theorem columnParity_append {k : Nat} {a a' b b' c c' d d' : List Byte} (hb : b.length = a.length)
    (hc : c.length = a.length) (hd : d.length = a.length) :
    columnParity x k (a ++ a') (b ++ b') (c ++ c') (d ++ d') =
      columnParity x k a b c d ++ columnParity x k a' b' c' d' := by
  rw [columnParity, List.length_append, List.range_add, List.map_append, List.map_map]
  refine congrArg₂ _ (List.map_congr_left fun i hi => ?_) (List.map_congr_left fun i _ => ?_)
  · have hi := List.mem_range.mp hi
    rw [List.getD_append _ _ _ _ hi, List.getD_append _ _ _ _ (by omega),
      List.getD_append _ _ _ _ (by omega), List.getD_append _ _ _ _ (by omega)]
  · simp only [Function.comp_apply]
    rw [List.getD_append_right _ _ _ _ (by omega), List.getD_append_right _ _ _ _ (by omega),
      List.getD_append_right _ _ _ _ (by omega), List.getD_append_right _ _ _ _ (by omega), hb, hc, hd,
      Nat.add_sub_cancel_left]

theorem length_columnParity (k : Nat) (a b c d : List Byte) : (columnParity x k a b c d).length = a.length := by
  rw [columnParity, List.length_map, List.length_range]

/-! ## The invariant -/

/-- Whole blocks were sent, and the data packets `ds` of the next one. -/
structure Open (x : Crates) (n : Nat) (s : State) (blocks : List Block) (ds : List DataPacket) : Prop where
  sent : s.sent = blocks.flatMap (Block.packets x) ++ ds.map DataPacket.bytes
  numbers : ∀ i b, blocks[i]? = some b → b.first.sequenceNumber = UInt16.ofNat (4 * i)
  sequenceNumber : s.sequenceNumber = UInt16.ofNat (4 * blocks.length + ds.length)
  few : ds.length ≤ 4
  packets : ∀ j d, ds[j]? = some d →
    d.sequenceNumber = UInt16.ofNat (4 * blocks.length + j) ∧ d.payload.length = n
  base : ∀ d, ds.head? = some d → s.baseSequenceNumber = d.sequenceNumber ∧ s.baseTimestamp = d.timestamp
  curInput : s.curInput = ds.length
  shards : ∀ i, (s.shards i).length = maxShardSize
  parity : ∀ k < nrParityShards, ∃ into, into.length = 12 + n ∧
    (s.shards (nrDataShards + k)).take (12 + n) = folded x k 0 (ds.map DataPacket.bytes) into

theorem length_rtpHeader (t : Byte) (q : UInt16) (ts : UInt32) : (rtpHeader t q ts).length = 11 := by
  simp [rtpHeader]

theorem DataPacket.length_bytes (p : DataPacket) : p.bytes.length = 12 + p.payload.length := by
  simp [DataPacket.bytes, length_rtpHeader]
  omega

theorem length_audioFecHeader (k : Nat) (q : UInt16) (ts : UInt32) : (audioFecHeader k q ts).length = 12 := by
  simp [audioFecHeader]

/-- A block that starts with the packets `ds`. -/
theorem exists_block {n : Nat} {m : Nat} {ds : List DataPacket} (hfew : ds.length ≤ 4)
    (hds : ∀ j d, ds[j]? = some d → d.sequenceNumber = UInt16.ofNat (4 * m + j) ∧ d.payload.length = n) :
    ∃ b : Block, b.first.sequenceNumber = UInt16.ofNat (4 * m) ∧
      ds <+: [b.first, b.second, b.third, b.fourth] := by
  let at_ (j : Nat) : DataPacket := (ds[j]?).getD ⟨UInt16.ofNat (4 * m + j), 0, List.replicate n 0⟩
  have hat : ∀ j, (at_ j).sequenceNumber = UInt16.ofNat (4 * m + j) ∧ (at_ j).payload.length = n := by
    intro j
    cases hj : ds[j]? with
    | none => simp [at_, hj]
    | some d =>
      simp only [at_, hj, Option.getD_some]
      exact hds j d hj
  refine ⟨⟨at_ 0, at_ 1, at_ 2, at_ 3, ?_, ?_⟩, (hat 0).1, ?_⟩
  · have hnext : ∀ j, UInt16.ofNat (4 * m + j) = UInt16.ofNat (4 * m + 0) + UInt16.ofNat j := fun j => by
      rw [Nat.add_zero, UInt16.ofNat_add]
    rw [(hat 0).1, (hat 1).1, (hat 2).1, (hat 3).1]
    exact ⟨hnext 1, hnext 2, hnext 3⟩
  · simp only [(hat _).2, and_self]
  · rw [List.prefix_iff_getElem?]
    intro j hj
    have hget : (at_ j) = ds[j] := by simp [at_, List.getElem?_eq_getElem hj]
    rw [← hget]
    obtain rfl | rfl | rfl | rfl : j = 0 ∨ j = 1 ∨ j = 2 ∨ j = 3 := by omega
    all_goals rfl

theorem Open.inBlocks {n : Nat} {s : State} {blocks : List Block} {ds : List DataPacket}
    (h : Open x n s blocks ds) : InBlocks x s.sent := by
  obtain ⟨b, hb, hpre⟩ := exists_block h.few h.packets
  refine ⟨blocks ++ [b], numbers_append h.numbers hb, ?_⟩
  rw [h.sent, List.flatMap_append, List.flatMap_singleton]
  refine (List.prefix_append_right_inj _).mpr ?_
  exact (hpre.map DataPacket.bytes).trans (List.prefix_append _ _)

/-! ## One packet -/

section Send

variable {s s' : State}

theorem send_eq_some {packet : List Byte} (h : s.send packet = some s') :
    ∃ receiver, s' = { s with sent := s.sent ++ [packet], receiver } := by
  unfold State.send at h
  split at h <;> cases h
  · exact ⟨s.receiver, rfl⟩
  · exact ⟨_, rfl⟩

theorem receiver_of_send_eq_none {packet : List Byte} (h : s.send packet = none) : s.receiver = some 0 := by
  unfold State.send at h
  split at h
  · cases h
  · assumption
  · cases h

theorem send_of_receiver (h : s.receiver = some 0) (packet : List Byte) : s.send packet = none := by
  unfold State.send
  rw [h]

end Send

theorem index_eq {n : Nat} {s : State} {blocks : List Block} {ds : List DataPacket}
    (h : Open x n s blocks ds) (hfew : ds.length < 4) :
    s.sequenceNumber.toNat % nrDataShards = ds.length := by
  rw [h.sequenceNumber, UInt16.toNat_ofNat', nrDataShards]
  omega

/-- The packet that the next payload goes into. -/
def nextPacket (s : State) (timestamp : UInt32) (payload : List Byte) : DataPacket :=
  ⟨s.sequenceNumber, timestamp, payload⟩

/-- The states differ in what `writeDataShard` writes for the packet `p`. -/
structure Wrote (s s' : State) (p : DataPacket) (index : Nat) : Prop where
  sequenceNumber : s'.sequenceNumber = s.sequenceNumber + 1
  first : index = 0 → s'.baseSequenceNumber = p.sequenceNumber ∧ s'.baseTimestamp = p.timestamp
  later : index ≠ 0 → s'.baseSequenceNumber = s.baseSequenceNumber ∧ s'.baseTimestamp = s.baseTimestamp
  shards : s'.shards = Function.update s.shards index (splice (s.shards index) 0 p.bytes)
  curInput : s'.curInput = s.curInput
  sent : s'.sent = s.sent
  receiver : s'.receiver = s.receiver

theorem writeDataShard_wrote {s : State} {timestamp : UInt32} {payload : List Byte}
    (hlen : (s.shards (s.sequenceNumber.toNat % nrDataShards)).length = maxShardSize)
    (hsize : 12 + payload.length ≤ maxShardSize) :
    Wrote s (s.writeDataShard timestamp payload) (nextPacket s timestamp payload)
      (s.sequenceNumber.toNat % nrDataShards) := by
  have hhead : ([0x80] ++ rtpHeader 97 s.sequenceNumber timestamp).length = 12 := by
    simp [length_rtpHeader]
  have hshard : splice (splice (s.shards (s.sequenceNumber.toNat % nrDataShards)) 0
        ([0x80] ++ rtpHeader 97 s.sequenceNumber timestamp)) rtpHeaderSize payload =
      splice (s.shards (s.sequenceNumber.toNat % nrDataShards)) 0
        (nextPacket s timestamp payload).bytes := by
    have := splice_splice_append (l := s.shards (s.sequenceNumber.toNat % nrDataShards)) (o := 0)
      (x := [0x80] ++ rtpHeader 97 s.sequenceNumber timestamp) (y := payload) (by rw [hhead, hlen]; omega)
    rwa [hhead] at this
  unfold State.writeDataShard
  by_cases h0 : s.sequenceNumber.toNat % nrDataShards = 0
  · simp only [if_pos h0, hshard]
    exact ⟨rfl, fun _ => ⟨rfl, rfl⟩, fun h => absurd h0 h, rfl, rfl, rfl, rfl⟩
  · simp only [if_neg h0, hshard]
    exact ⟨rfl, fun h => absurd h h0, fun _ => ⟨rfl, rfl⟩, rfl, rfl, rfl, rfl⟩

theorem writeDataShard_receiver (s : State) (timestamp : UInt32) (payload : List Byte) :
    (s.writeDataShard timestamp payload).receiver = s.receiver := by
  unfold State.writeDataShard
  split <;> rfl

theorem writeDataShard_sent (s : State) (timestamp : UInt32) (payload : List Byte) :
    (s.writeDataShard timestamp payload).sent = s.sent := by
  unfold State.writeDataShard
  split <;> rfl

section Data

variable {n : Nat} {s : State} {blocks : List Block} {ds : List DataPacket}

/-- The packet of a payload is the next of the block. -/
theorem Open.next (h : Open x n s blocks ds) {timestamp : UInt32} {payload : List Byte}
    (hn : payload.length = n) (j : Nat) (d : DataPacket)
    (hj : (ds ++ [nextPacket s timestamp payload])[j]? = some d) :
    d.sequenceNumber = UInt16.ofNat (4 * blocks.length + j) ∧ d.payload.length = n := by
  rcases of_getElem?_concat hj with hj | ⟨rfl, rfl⟩
  · exact h.packets j d hj
  · exact ⟨h.sequenceNumber, hn⟩

/-- The next packet is in its shard, sent, and folded into the parity. -/
theorem Open.encode (h : Open x n s blocks ds) (hfew : ds.length < 4) (hn : 12 + n ≤ maxShardSize)
    {timestamp : UInt32} {payload : List Byte} (hpayload : payload.length = n) {s' : State}
    (hw : Wrote s s' (nextPacket s timestamp payload) ds.length) (receiver : Option Nat) :
    Open x n (State.encode x { s' with sent := s'.sent ++ [(nextPacket s timestamp payload).bytes], receiver }
      (12 + n)) blocks (ds ++ [nextPacket s timestamp payload]) := by
  have hbytes : (nextPacket s timestamp payload).bytes.length = 12 + n := by
    rw [DataPacket.length_bytes, ← hpayload]
    rfl
  have hshards : ∀ i, (s'.shards i).length = maxShardSize := by
    intro i
    rw [hw.shards]
    rcases eq_or_ne i ds.length with rfl | hi
    · rw [Function.update_self, length_splice (by rw [hbytes, h.shards, Nat.zero_add]; exact hn), h.shards]
    · rw [Function.update_of_ne hi, h.shards]
  have hdata : (s'.shards s'.curInput).take (12 + n) = (nextPacket s timestamp payload).bytes := by
    rw [hw.curInput, h.curInput, hw.shards, Function.update_self, ← hbytes, take_splice_zero]
  have hcur : s'.curInput = ds.length := by rw [hw.curInput, h.curInput]
  have hfolded : ∀ k, (List.zipWith (x.encodeSingle parityMatrix s'.curInput k)
      (nextPacket s timestamp payload).bytes ((s'.shards (nrDataShards + k)).take (12 + n))).length = 12 + n := by
    intro k
    rw [List.length_zipWith, hbytes, List.length_take, hshards, Nat.min_eq_left hn, Nat.min_self]
  unfold State.encode
  rw [if_neg (by rw [hcur, nrDataShards]; omega)]
  simp only [hdata]
  refine ⟨?_, h.numbers, ?_, ?_, h.next hpayload, ?_, ?_, ?_, ?_⟩
  · rw [hw.sent, h.sent, List.map_append, List.append_assoc]
    rfl
  · rw [List.length_append, List.length_singleton, ← Nat.add_assoc, UInt16.ofNat_add, ← h.sequenceNumber,
      hw.sequenceNumber]
    rfl
  · rw [List.length_append, List.length_singleton]
    omega
  · intro d hd
    cases ds with
    | nil =>
      cases hd
      exact hw.first rfl
    | cons d' ds =>
      cases hd
      obtain ⟨hseq, hts⟩ := hw.later (Nat.succ_ne_zero _)
      rw [hseq, hts]
      exact h.base d rfl
  · rw [hcur, List.length_append, List.length_singleton]
  · intro i
    dsimp only
    by_cases hi : nrDataShards ≤ i
    · obtain ⟨k, rfl⟩ := Nat.exists_eq_add_of_le hi
      rw [if_pos hi, Nat.add_sub_cancel_left, length_splice (by rw [hfolded, hshards]; omega), hshards]
    · rw [if_neg hi, hshards]
  · intro k hk
    obtain ⟨into, hinto, heq⟩ := h.parity k hk
    refine ⟨into, hinto, ?_⟩
    dsimp only
    have hkeep : s'.shards (nrDataShards + k) = s.shards (nrDataShards + k) := by
      rw [hw.shards, Function.update_of_ne (by rw [nrDataShards]; omega)]
    rw [if_pos (Nat.le_add_right _ _), Nat.add_sub_cancel_left, List.map_append, List.map_singleton,
      folded_append, List.length_map, Nat.zero_add, ← heq, ← hkeep, ← hcur]
    have := take_splice_zero (l := s'.shards (nrDataShards + k)) (x := List.zipWith
      (x.encodeSingle parityMatrix s'.curInput k) (nextPacket s timestamp payload).bytes
      ((s'.shards (nrDataShards + k)).take (12 + n)))
    rwa [hfolded] at this

end Data

/-! ## The parity packets -/

/-- A parity shard as it is sent: its first byte, the headers, and the payload. -/
theorem take_parityShard {l rtp fec : List Byte} {n : Nat} (hl : 24 + n ≤ l.length) (hrtp : rtp.length = 11)
    (hfec : fec.length = 12) :
    (splice (splice (splice l 1 rtp) 24 (slice (splice l 1 rtp) 12 n)) 12 fec).take (24 + n) =
      l.take 1 ++ rtp ++ fec ++ slice l 12 n := by
  have hmoved : slice (splice l 1 rtp) 12 n = slice l 12 n :=
    slice_splice_of_disjoint (by omega) (by omega)
  have hslice : (slice l 12 n).length = n := length_slice (by omega)
  have h₁ : (splice l 1 rtp).length = l.length := length_splice (by omega)
  have h₂ : (splice (splice l 1 rtp) 24 (slice l 12 n)).length = l.length := by
    rw [length_splice (by omega), h₁]
  have htake : (l.take 1).length = 1 := by
    rw [List.length_take]
    omega
  rw [hmoved]
  refine List.ext_getElem? fun i => ?_
  rw [List.getElem?_take, getElem?_splice (by omega), getElem?_splice (by omega), getElem?_splice (by omega)]
  simp only [List.getElem?_append, List.length_append, htake, hrtp, hfec, getElem?_slice, List.getElem?_take]
  grind

/-- A parity shard whose slice holds the parity of the block's packets becomes
the parity packet of the block. -/
theorem parityPacket_eq {n k : Nat} {b : Block} (hsize : b.first.payload.length = n) {l : List Byte}
    (hparity : l.take (12 + n) = columnParity x k b.first.bytes b.second.bytes b.third.bytes b.fourth.bytes) :
    l.take 1 ++ rtpHeader 127 (b.first.sequenceNumber + 4 + UInt16.ofNat k) 0 ++
        audioFecHeader k b.first.sequenceNumber b.first.timestamp ++ slice l 12 n =
      b.parityPacket x k := by
  have hrtp : ∀ p : DataPacket, (rtpHeader 97 p.sequenceNumber p.timestamp).length = 11 :=
    fun p => length_rtpHeader _ _ _
  simp only [DataPacket.bytes, List.append_assoc] at hparity
  rw [columnParity_append rfl rfl rfl,
    columnParity_append (by rw [hrtp, hrtp]) (by rw [hrtp, hrtp]) (by rw [hrtp, hrtp])] at hparity
  have hfirst : l.take 1 = [x.parity parityMatrix k 0x80 0x80 0x80 0x80] := by
    have := congrArg (List.take 1) hparity
    rw [List.take_take, Nat.min_eq_left (by omega)] at this
    rw [this]
    rfl
  have hpayload : slice l 12 n = columnParity x k b.first.payload b.second.payload b.third.payload
      b.fourth.payload := by
    have := congrArg (List.drop 12) hparity
    rw [List.drop_take, Nat.add_sub_cancel_left, ← List.append_assoc, List.drop_left' (by
      rw [List.length_append, length_columnParity, length_columnParity, hrtp]
      rfl)] at this
    exact this
  rw [hfirst, hpayload, Block.parityPacket]

section Parity

variable {n : Nat} {s : State} {blocks : List Block} {b : Block}

theorem Open.number (h : Open x n s blocks [b.first, b.second, b.third, b.fourth]) :
    b.first.sequenceNumber = UInt16.ofNat (4 * blocks.length) :=
  (h.packets 0 b.first rfl).1

/-- The loop over the parity shards of `b`, at the shard `k`, in a state that came from `s`. -/
structure Sending (x : Crates) (s : State) (b : Block) (k : Nat) (s' : State) : Prop where
  sent : s'.sent = s.sent ++ (List.range k).map (b.parityPacket x)
  sequenceNumber : s'.sequenceNumber = s.sequenceNumber
  baseSequenceNumber : s'.baseSequenceNumber = s.baseSequenceNumber
  baseTimestamp : s'.baseTimestamp = s.baseTimestamp
  curInput : s'.curInput = 0
  shards : ∀ i, k ≤ i → s'.shards (nrDataShards + i) = s.shards (nrDataShards + i)
  length : ∀ i, (s'.shards i).length = maxShardSize

theorem writeParityShard_taken (h : Open x n s blocks [b.first, b.second, b.third, b.fourth])
    (hn : 24 + n ≤ maxShardSize) {k : Nat} (hk : k < nrParityShards) {s' : State} (hs : Sending x s b k s') :
    ((s'.writeParityShard k n).shards (nrDataShards + k)).take (rtpHeaderSize + audioFecHeaderSize + n) =
      b.parityPacket x k := by
  have hd : ∀ d ∈ [b.first, b.second, b.third, b.fourth], d.bytes.length = 12 + n := by
    intro d hd
    obtain ⟨j, hj⟩ := List.getElem?_of_mem hd
    rw [DataPacket.length_bytes, (h.packets j d hj).2]
  obtain ⟨into, hinto, hfold⟩ := h.parity k hk
  obtain ⟨hfirst, hstamp⟩ := h.base b.first rfl
  have hcol := folded_four (x := x) (k := k) (hd b.first (by simp)) (hd b.second (by simp))
    (hd b.third (by simp)) (hd b.fourth (by simp)) hinto
  have hnext : s.sequenceNumber = b.first.sequenceNumber + 4 := by
    rw [h.sequenceNumber, h.number, UInt16.ofNat_add]
    rfl
  have hlen := h.shards (nrDataShards + k)
  unfold State.writeParityShard
  dsimp only
  rw [Function.update_self, hs.shards k (Nat.le_refl k), hs.sequenceNumber, hs.baseSequenceNumber,
    hs.baseTimestamp, hfirst, hstamp, hnext]
  refine (take_parityShard (by rw [hlen]; exact hn) (length_rtpHeader _ _ _)
    (length_audioFecHeader _ _ _)).trans ?_
  exact parityPacket_eq (h.packets 0 b.first rfl).2 (hfold.trans hcol)

theorem length_writeParityShard (hn : 24 + n ≤ maxShardSize) (hshards : ∀ i, (s.shards i).length = maxShardSize)
    (k i : Nat) : ((s.writeParityShard k n).shards i).length = maxShardSize := by
  unfold State.writeParityShard
  dsimp only
  rcases eq_or_ne i (nrDataShards + k) with rfl | hi
  · have hk := hshards (nrDataShards + k)
    rw [Function.update_self]
    have h₁ := length_splice (l := s.shards (nrDataShards + k)) (o := 1)
      (x := rtpHeader 127 (s.sequenceNumber + UInt16.ofNat k) 0) (by rw [length_rtpHeader]; omega)
    have h₂ := length_slice (l := splice (s.shards (nrDataShards + k)) 1
      (rtpHeader 127 (s.sequenceNumber + UInt16.ofNat k) 0)) (o := 12) (n := n) (by omega)
    have h₃ := length_splice (l := splice (s.shards (nrDataShards + k)) 1
      (rtpHeader 127 (s.sequenceNumber + UInt16.ofNat k) 0)) (o := 24) (x := slice (splice
        (s.shards (nrDataShards + k)) 1 (rtpHeader 127 (s.sequenceNumber + UInt16.ofNat k) 0)) 12 n) (by omega)
    refine (length_splice ?_).trans (h₃.trans (h₁.trans hk))
    rw [length_audioFecHeader]
    exact (h₃.trans (h₁.trans hk)).symm ▸ (by decide : 24 ≤ maxShardSize)
  · rw [Function.update_of_ne hi, hshards]

theorem Sending.next (hn : 24 + n ≤ maxShardSize) {k : Nat} {s' : State} (hs : Sending x s b k s') (receiver : Option Nat) :
    Sending x s b (k + 1)
      { s'.writeParityShard k n with sent := s'.sent ++ [b.parityPacket x k], receiver } where
  sent := by
    rw [hs.sent, List.range_succ, List.map_append, List.map_singleton, List.append_assoc]
  sequenceNumber := hs.sequenceNumber
  baseSequenceNumber := hs.baseSequenceNumber
  baseTimestamp := hs.baseTimestamp
  curInput := hs.curInput
  shards := by
    intro i hi
    exact (Function.update_of_ne (by omega) _ _).trans (hs.shards i (by omega))
  length := length_writeParityShard hn hs.length k

theorem prefix_packets {k : Nat} (hk : k ≤ nrParityShards) :
    b.dataPackets ++ (List.range k).map (b.parityPacket x) <+: b.packets x := by
  refine (List.prefix_append_right_inj _).mpr ?_
  have hpair : [b.parityPacket x 0, b.parityPacket x 1] = (List.range nrParityShards).map (b.parityPacket x) := rfl
  rw [hpair]
  obtain ⟨m, hm⟩ := Nat.exists_eq_add_of_le hk
  rw [hm, List.range_add, List.map_append]
  exact List.prefix_append _ _

theorem Sending.inBlocks (h : Open x n s blocks [b.first, b.second, b.third, b.fourth]) {k : Nat}
    (hk : k ≤ nrParityShards) {s' : State} (hs : Sending x s b k s') : InBlocks x s'.sent := by
  refine ⟨blocks ++ [b], numbers_append h.numbers h.number, ?_⟩
  rw [hs.sent, h.sent, List.flatMap_append, List.flatMap_singleton, List.append_assoc]
  exact (List.prefix_append_right_inj _).mpr (prefix_packets hk)

/-- The block is whole, and the next one has no packet yet. -/
theorem Sending.closed (h : Open x n s blocks [b.first, b.second, b.third, b.fourth])
    (hn : 12 + n ≤ maxShardSize) {s' : State} (hs : Sending x s b nrParityShards s') :
    Open x n s' (blocks ++ [b]) [] where
  sent := by
    rw [hs.sent, h.sent, List.flatMap_append, List.flatMap_singleton, List.append_assoc, List.map_nil,
      List.append_nil]
    rfl
  numbers := numbers_append h.numbers h.number
  sequenceNumber := by
    rw [hs.sequenceNumber, h.sequenceNumber, List.length_append, Nat.mul_add]
    rfl
  few := Nat.zero_le _
  packets := by
    intro j d hj
    cases hj
  base := by
    intro d hd
    cases hd
  curInput := hs.curInput
  shards := hs.length
  parity := fun k _ => ⟨_, by rw [List.length_take, hs.length, Nat.min_eq_left hn], rfl⟩

/-- The loop sends the parity packets of the block, or the receiver is gone. -/
theorem sendParityShards_spec (h : Open x n s blocks [b.first, b.second, b.third, b.fourth])
    (hn : 24 + n ≤ maxShardSize) {m k : Nat} (hk : k + m = nrParityShards) {s' : State}
    (hs : Sending x s b k s') :
    ((State.sendParityShards n m k s').receiver = some 0 ∧ InBlocks x (State.sendParityShards n m k s').sent) ∨
      Open x n (State.sendParityShards n m k s') (blocks ++ [b]) [] := by
  induction m generalizing k s' with
  | zero =>
    obtain rfl : k = nrParityShards := hk
    exact .inr (hs.closed h (by omega))
  | succ m ih =>
    have htaken := writeParityShard_taken h hn (by omega : k < nrParityShards) hs
    simp only [State.sendParityShards, htaken]
    cases hsend : (s'.writeParityShard k n).send (b.parityPacket x k) with
    | none => exact .inl ⟨receiver_of_send_eq_none hsend, hs.inBlocks h (by omega)⟩
    | some s'' =>
      obtain ⟨receiver, rfl⟩ := send_eq_some hsend
      exact ih (by omega) (hs.next hn receiver)

theorem Open.sending (h : Open x n s blocks [b.first, b.second, b.third, b.fourth]) :
    Sending x s b 0 { s with curInput := 0 } where
  sent := (List.append_nil _).symm
  sequenceNumber := rfl
  baseSequenceNumber := rfl
  baseTimestamp := rfl
  curInput := rfl
  shards := fun _ _ => rfl
  length := h.shards

end Parity

/-! ## One payload -/

/-- Either all that was sent belongs to a block, or the receiver is gone. -/
def Inv (x : Crates) (n : Nat) (s : State) : Prop :=
  (s.receiver = some 0 ∧ InBlocks x s.sent) ∨ ∃ blocks ds, Open x n s blocks ds ∧ ds.length < 4

theorem Inv.inBlocks {n : Nat} {s : State} (h : Inv x n s) : InBlocks x s.sent := by
  obtain ⟨-, h⟩ | ⟨blocks, ds, h, -⟩ := h
  · exact h
  · exact h.inBlocks

theorem inv_start {n : Nat} (hn : 12 + n ≤ maxShardSize) (keys : SessionKeyData) (receiver : Option Nat) :
    Inv x n (State.start keys receiver) := by
  refine .inr ⟨[], [], ⟨rfl, ?_, rfl, Nat.zero_le _, ?_, ?_, rfl, fun _ => List.length_replicate, ?_⟩,
    Nat.zero_lt_succ _⟩
  · intro i b hb
    cases hb
  · intro j d hj
    cases hj
  · intro d hd
    cases hd
  · exact fun k _ => ⟨_, by rw [List.length_take, State.start, List.length_replicate, Nat.min_eq_left hn], rfl⟩

/-- `Open` does not read the keys or whether the loop was left. -/
theorem Inv.congr {n : Nat} {s : State} (h : Inv x n s) (keys : SessionKeyData) (stopped : Bool) :
    Inv x n { s with keys, stopped } := by
  obtain h | ⟨blocks, ds, h, hfew⟩ := h
  · exact .inl h
  · exact .inr ⟨blocks, ds, ⟨h.sent, h.numbers, h.sequenceNumber, h.few, h.packets, h.base, h.curInput,
      h.shards, h.parity⟩, hfew⟩

theorem sendPayload_gone {s : State} (h : s.receiver = some 0) (timestamp : UInt32) (payload : List Byte) :
    (s.sendPayload x timestamp payload).receiver = some 0 ∧
      (s.sendPayload x timestamp payload).sent = s.sent := by
  have hgone : (s.writeDataShard timestamp payload).receiver = some 0 := by rw [writeDataShard_receiver, h]
  unfold State.sendPayload
  simp only [send_of_receiver hgone]
  exact ⟨hgone, writeDataShard_sent s timestamp payload⟩

/-- Behind the fourth packet of a block come its parity packets. -/
theorem Open.finish {n : Nat} {s : State} {blocks : List Block} {ds : List DataPacket}
    (h : Open x n s blocks ds) (hne : ds ≠ []) (hn : 24 + n ≤ maxShardSize) :
    Inv x n (if s.sequenceNumber.toNat % nrDataShards = 0 then
        if 0 < s.curInput ∧ s.curInput < nrDataShards then { s with curInput := 0 }
        else State.sendParityShards n nrParityShards 0 { s with curInput := 0 }
      else s) := by
  have hpos := List.length_pos_iff.mpr hne
  rcases Nat.lt_or_eq_of_le h.few with hlt | hfour
  · have hseq : s.sequenceNumber.toNat % nrDataShards ≠ 0 := by
      rw [index_eq h hlt]
      omega
    rw [if_neg hseq]
    exact .inr ⟨blocks, ds, h, hlt⟩
  · have hseq : s.sequenceNumber.toNat % nrDataShards = 0 := by
      rw [h.sequenceNumber, hfour, UInt16.toNat_ofNat', nrDataShards]
      omega
    have hready : ¬(0 < s.curInput ∧ s.curInput < nrDataShards) := by
      rw [h.curInput, hfour, nrDataShards]
      omega
    rw [if_pos hseq, if_neg hready]
    obtain ⟨b, -, hpre⟩ := exists_block h.few h.packets
    obtain rfl := hpre.eq_of_length hfour
    rcases sendParityShards_spec h hn (Nat.zero_add _) h.sending with hgone | hclosed
    · exact .inl hgone
    · exact .inr ⟨_, _, hclosed, Nat.zero_lt_succ _⟩

/-- A payload sent: its packet, and the parity packets behind the fourth. -/
theorem Open.sendPayload {n : Nat} {s : State} {blocks : List Block} {ds : List DataPacket}
    (h : Open x n s blocks ds) (hfew : ds.length < 4) (hn : 24 + n ≤ maxShardSize) (timestamp : UInt32)
    {payload : List Byte} (hpayload : payload.length = n) : Inv x n (s.sendPayload x timestamp payload) := by
  have hindex := index_eq h hfew
  have hw : Wrote s (s.writeDataShard timestamp payload) (nextPacket s timestamp payload)
      (s.sequenceNumber.toNat % nrDataShards) := writeDataShard_wrote (h.shards _) (by omega)
  have htaken : ((s.writeDataShard timestamp payload).shards ds.length).take (rtpHeaderSize + payload.length) =
      (nextPacket s timestamp payload).bytes := by
    have hbytes := (nextPacket s timestamp payload).length_bytes
    rw [hw.shards, hindex, Function.update_self]
    exact hbytes ▸ take_splice_zero
  rw [hindex] at hw
  simp only [State.sendPayload, hindex, htaken]
  cases hsend : State.send (s.writeDataShard timestamp payload) (nextPacket s timestamp payload).bytes with
  | none =>
    have hgone := receiver_of_send_eq_none hsend
    exact .inl ⟨hgone, (writeDataShard_sent s timestamp payload).symm ▸ h.inBlocks⟩
  | some s₁ =>
    obtain ⟨receiver, rfl⟩ := send_eq_some hsend
    rw [hpayload]
    exact (h.encode hfew (by omega) hpayload hw receiver).finish (List.concat_ne_nil _ _) hn

theorem Inv.sendPayload {n : Nat} {s : State} (h : Inv x n s) (hn : 24 + n ≤ maxShardSize)
    (timestamp : UInt32) {payload : List Byte} (hpayload : payload.length = n) :
    Inv x n (s.sendPayload x timestamp payload) := by
  obtain ⟨hgone, h⟩ | ⟨blocks, ds, h, hfew⟩ := h
  · obtain ⟨hgone', hsent⟩ := sendPayload_gone (x := x) hgone timestamp payload
    exact .inl ⟨hgone', hsent ▸ h⟩
  · exact h.sendPayload hfew hn timestamp hpayload

/-! ## The size of a payload -/

/-- Padding to whole blocks of the cipher is added where the packets are encrypted. -/
def payloadSize (encrypt : Bool) (m : Nat) : Nat :=
  if encrypt then (m / 16 + 1) * 16 else m

theorem length_payloadOf {encrypt : Bool} {keys : SessionKeyData} {sequenceNumber : UInt16}
    {encoded payload : List Byte} (h : payloadOf x encrypt keys sequenceNumber encoded = .ok payload) :
    payload.length = payloadSize encrypt encoded.length := by
  unfold payloadOf at h
  cases encrypt with
  | false =>
    cases h
    rfl
  | true =>
    obtain ⟨iv, -, h⟩ := Outcome.bind_eq_ok.mp h
    unfold Crypto.encryptCbc at h
    split at h
    · cases h
    · split at h
      · cases h
      · cases h
        exact x.encryptPadded_length _ _ _

theorem payloadSize_le {encrypt : Bool} {m : Nat} (hm : m ≤ encodedAudioSize) :
    24 + payloadSize encrypt m ≤ maxShardSize := by
  unfold encodedAudioSize at hm
  unfold payloadSize maxShardSize
  split <;> omega

/-! ## Every run -/

/-- The packet that Opus makes of a frame, if it makes one, has `m` bytes. -/
def OfSize (m : Nat) : Action → Prop
  | .frame _ (some encoded) => encoded.val.length = m
  | _ => True

theorem step_inv {encrypt : Bool} {m : Nat} {s s' : State} {a : Action} (hm : m ≤ encodedAudioSize)
    (h : Inv x (payloadSize encrypt m) s) (hs : step x encrypt s a = some s') (ha : OfSize m a) :
    Inv x (payloadSize encrypt m) s' := by
  cases a with
  | publishKeys keys =>
    cases hs
    exact h.congr keys s.stopped
  | stop =>
    simp only [step] at hs
    split at hs
    · cases hs
    · cases hs
      exact h.congr s.keys true
  | frame micros encoded =>
    simp only [step] at hs
    split at hs
    · cases hs
    · cases hs
      cases encoded with
      | none => exact h
      | some encoded =>
        simp only [State.frame]
        cases hp : payloadOf x encrypt s.keys s.sequenceNumber encoded.val with
        | ok payload => exact h.sendPayload (payloadSize_le hm) _ (ha ▸ length_payloadOf hp)
        | err => exact h
        | panic => exact h.congr s.keys true

theorem OfSize.le {m : Nat} {micros : Nat} {encoded : Encoded} (h : OfSize m (.frame micros (some encoded))) :
    m ≤ encodedAudioSize :=
  h ▸ encoded.property

/-- Without a packet every size will do. -/
theorem OfSize.of_not_le {m : Nat} (hm : ¬m ≤ encodedAudioSize) {a : Action} (h : OfSize m a) : OfSize 0 a := by
  cases a with
  | publishKeys keys => trivial
  | stop => trivial
  | frame micros encoded =>
    cases encoded with
    | none => trivial
    | some encoded => exact absurd h.le hm

theorem inBlocks_of_le {encrypt : Bool} {m : Nat} (hm : m ≤ encodedAudioSize) {keys : SessionKeyData}
    {receiver : Option Nat} {as : List Action} {s : State} (hsize : ∀ a ∈ as, OfSize m a)
    (h : exec (step x encrypt) (State.start keys receiver) as = some s) : InBlocks x s.sent := by
  have hfits : 24 + payloadSize encrypt m ≤ maxShardSize := payloadSize_le hm
  have hkeep : ∀ s a s', Inv x (payloadSize encrypt m) s → step x encrypt s a = some s' → OfSize m a →
      Inv x (payloadSize encrypt m) s' := fun s a s' => step_inv hm
  have hstart : Inv x (payloadSize encrypt m) (State.start keys receiver) := inv_start (by omega) keys receiver
  exact (EveryStep.keeps hkeep hstart (everyStep_of_forall hsize _) h).inBlocks

/-- Whatever fails, the packets sent are whole blocks, and the last one as far
as it was sent. -/
theorem audio_in_blocks {encrypt : Bool} {m : Nat} {keys : SessionKeyData} {receiver : Option Nat}
    {as : List Action} {s : State} (hsize : ∀ a ∈ as, OfSize m a)
    (h : exec (step x encrypt) (State.start keys receiver) as = some s) : InBlocks x s.sent := by
  by_cases hm : m ≤ encodedAudioSize
  · exact inBlocks_of_le hm hsize h
  · exact inBlocks_of_le (Nat.zero_le _) (fun a ha => (hsize a ha).of_not_le hm) h

/-- The product of the field with 256 elements, its polynomial being `0x11d`. -/
def galoisMul (a b : Byte) : Byte :=
  (List.range 8).foldr (fun i acc =>
    let doubled := if acc < 0x80 then acc <<< 1 else (acc <<< 1) ^^^ 0x1d
    if b.toNat.testBit i then doubled ^^^ a else doubled) 0

/-- The parity as the crate computes it; nothing is encrypted. -/
def galoisCrates : Crates where
  overflowChecks := true
  encryptPadded _ _ data := List.replicate ((data.length / 16 + 1) * 16) 0
  encryptPadded_length _ _ _ := List.length_replicate
  encodeSingle matrix data parity byte into :=
    if data = 0 then galoisMul (matrix.getD (4 * parity) 0) byte
    else into ^^^ galoisMul (matrix.getD (4 * parity + data) 0) byte
  parity matrix parity a b c d :=
    galoisMul (matrix.getD (4 * parity) 0) a ^^^ galoisMul (matrix.getD (4 * parity + 1) 0) b ^^^
      galoisMul (matrix.getD (4 * parity + 2) 0) c ^^^ galoisMul (matrix.getD (4 * parity + 3) 0) d
  encodeSingle_parity _ _ _ _ _ _ _ := rfl

/-- Five frames, of which the third does not encode. -/
def fiveFrames : List Action :=
  [.frame 0 (some ⟨[1, 2], by decide⟩), .frame 5000 (some ⟨[3, 4], by decide⟩), .frame 10000 none,
    .frame 15000 (some ⟨[5, 6], by decide⟩), .frame 20000 (some ⟨[7, 8], by decide⟩)]

theorem fiveFrames_ofSize : ∀ a ∈ fiveFrames, OfSize 2 a := by
  simp [fiveFrames, OfSize]

theorem audio_in_blocks_five : ∃ s, exec (step galoisCrates false) (State.start ⟨[], 0⟩ none) fiveFrames = some s ∧
    s.sent.length = 6 ∧ InBlocks galoisCrates s.sent :=
  ⟨_, rfl, rfl, @audio_in_blocks galoisCrates false 2 ⟨[], 0⟩ none fiveFrames _ fiveFrames_ofSize rfl⟩

end Moonshine.Proof.AudioEncoder
