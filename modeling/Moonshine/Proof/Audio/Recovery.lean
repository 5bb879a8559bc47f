import Moonshine.Framework.Galois
import Moonshine.Proof.Audio.FecBlocks

/-!
# Recovery of lost audio packets

The parity matrix that the encoder sets makes an MDS code of the four data packets and the two
parity packets of a block (`independent_parityMatrix`). A client takes a packet for what its
headers say (`shardOf`): from any four packets of a block it has, byte by byte, the payloads of
all its data packets.
-/

namespace Moonshine.Proof.AudioEncoder

open Moonshine.Framework Moonshine.Impl Moonshine.Impl.AudioEncoder

variable {x : Crates}

def parityRow (k : Nat) (i : Fin 4) : Byte := parityMatrix.getD (4 * k + i.val) 0

/-- The inverses of the coefficients, and of the minors. -/
def inverses : List Byte := [0x79, 0x36, 0x50, 0x5d, 0x9e, 0x05, 0xaa, 0x20]

def minorInverses : List (List Byte) := [[0, 0x53, 0xda, 0x2b], [0, 0, 0x7d, 0x46], [0, 0, 0, 0x02]]

theorem independent_parityMatrix : Galois.Independent (parityRow 0) (parityRow 1) where
  left i _ := (Galois.additive_mul _).eq_zero (inverses.getD i.val 0) (by revert i; decide +kernel)
  right i _ := (Galois.additive_mul _).eq_zero (inverses.getD (4 + i.val) 0) (by revert i; decide +kernel)
  comm i := ((Galois.additive_mul _).comp (Galois.additive_mul _)).ext
    ((Galois.additive_mul _).comp (Galois.additive_mul _)) (by revert i; decide +kernel)
  minor i j hij _ := (((Galois.additive_mul _).comp (Galois.additive_mul _)).xor
    ((Galois.additive_mul _).comp (Galois.additive_mul _))).eq_zero ((minorInverses.getD i.val []).getD j.val 0)
    (by revert i j; decide +kernel)

def blockCode : MdsCode Byte 4 2 := Galois.code _ _ independent_parityMatrix

/-- `encode_single` multiplies in the field with 256 elements. -/
def InField (x : Crates) : Prop :=
  ∀ k a b c d, x.parity parityMatrix k a b c d = Galois.combine (parityRow k) (Galois.symbols [a, b, c, d])

def numberAt (packet : List Byte) (i : Nat) : UInt16 := UInt16.ofNat (ofBe (slice packet i 2))

/-- The first number of its block, the place in it, and the payload. -/
def shardOf (packet : List Byte) : Option (UInt16 × Nat × List Byte) :=
  if packet.getD 1 0 = 97 then
    let number := numberAt packet 2
    some (number - number % 4, (number % 4).toNat, packet.drop rtpHeaderSize)
  else if packet.getD 1 0 = 127 then
    some (numberAt packet 14, nrDataShards + (packet.getD rtpHeaderSize 0).toNat,
      packet.drop (rtpHeaderSize + audioFecHeaderSize))
  else none

/-- The payload at a place of a block, from what has come. -/
def receivedShard (packets : List (List Byte)) (number : UInt16) (i : Nat) : Option (List Byte) :=
  packets.findSome? fun packet => (shardOf packet).bind fun shard =>
    if shard.1 = number ∧ shard.2.1 = i then some shard.2.2 else none

namespace Block

def dataPayloads (b : Block) : List (List Byte) :=
  [b.first.payload, b.second.payload, b.third.payload, b.fourth.payload]

def payloads (x : Crates) (b : Block) : List (List Byte) :=
  b.dataPayloads ++ [columnParity x 0 b.first.payload b.second.payload b.third.payload b.fourth.payload,
    columnParity x 1 b.first.payload b.second.payload b.third.payload b.fourth.payload]

/-- A client that has any four packets of the block, in whatever order, has its data. -/
def Recovered (x : Crates) (b : Block) : Prop :=
  ∀ I ⊆ Finset.range 6, I.card = 4 → ∀ got : List (List Byte), (∀ packet ∈ got, packet ∈ b.packets x) →
    (∀ i ∈ I, ∃ packet ∈ got, (b.packets x)[i]? = some packet) → ∀ c < b.first.payload.length,
      blockCode.decode I (fun i => (receivedShard got b.first.sequenceNumber i).bind (·[c]?)) =
        some (b.dataPayloads.map fun payload => payload.getD c 0)

end Block

theorem numberAt_eq (front back : List Byte) (n : UInt16) :
    numberAt (front ++ beBytes 2 n.toNat ++ back) front.length = n := by
  rw [numberAt, slice_middle rfl (by simp [length_beBytes]), ofBe_beBytes]
  have hn : n.toNat % 256 ^ 2 = n.toNat := Nat.mod_eq_of_lt n.toNat_lt
  rw [hn, UInt16.ofNat_toNat]

theorem shardOf_data (p : DataPacket) :
    shardOf p.bytes = some (p.sequenceNumber - p.sequenceNumber % 4, (p.sequenceNumber % 4).toNat, p.payload) := by
  have hnumber : numberAt p.bytes 2 = p.sequenceNumber := by
    have h := numberAt_eq [0x80, 97] (beBytes 4 p.timestamp.toNat ++ beBytes 4 0 ++ p.payload) p.sequenceNumber
    simpa [DataPacket.bytes, rtpHeader] using h
  have htype : p.bytes.getD 1 0 = 97 := rfl
  have hdrop : p.bytes.drop rtpHeaderSize = p.payload := List.drop_left' (by simp [rtpHeader, rtpHeaderSize])
  rw [shardOf, if_pos htype, hnumber, hdrop]

theorem shardOf_parity (b : Block) {k : Nat} (hk : k < 2) :
    shardOf (b.parityPacket x k) = some (b.first.sequenceNumber, 4 + k,
      columnParity x k b.first.payload b.second.payload b.third.payload b.fourth.payload) := by
  have hnumber : numberAt (b.parityPacket x k) 14 = b.first.sequenceNumber := by
    have h := numberAt_eq ([x.parity parityMatrix k 0x80 0x80 0x80 0x80] ++
        rtpHeader 127 (b.first.sequenceNumber + 4 + UInt16.ofNat k) 0 ++ [UInt8.ofNat k, 97])
      (beBytes 4 b.first.timestamp.toNat ++ leBytes 4 0 ++
        columnParity x k b.first.payload b.second.payload b.third.payload b.fourth.payload) b.first.sequenceNumber
    simpa [Block.parityPacket, rtpHeader, audioFecHeader] using h
  have htype : (b.parityPacket x k).getD 1 0 = 127 := rfl
  have hindex : (b.parityPacket x k).getD rtpHeaderSize 0 = UInt8.ofNat k := rfl
  have hdrop : (b.parityPacket x k).drop (rtpHeaderSize + audioFecHeaderSize) =
      columnParity x k b.first.payload b.second.payload b.third.payload b.fourth.payload :=
    List.drop_left' (by simp [rtpHeader, audioFecHeader, rtpHeaderSize, audioFecHeaderSize])
  have hk' : (UInt8.ofNat k).toNat = k := UInt8.toNat_ofNat_of_lt' (show k < 256 by omega)
  rw [shardOf, htype, if_neg (by decide), if_pos rfl, hnumber, hindex, hdrop, hk']
  rfl

/-- The numbers of a block say where it begins. -/
theorem number_in_block {n : UInt16} (hn : n.toNat % 4 = 0) {i : Nat} (hi : i < 4) :
    (n + UInt16.ofNat i) - (n + UInt16.ofNat i) % 4 = n ∧ ((n + UInt16.ofNat i) % 4).toNat = i := by
  have hlt : n.toNat < 65536 := n.toNat_lt
  have hadd : (n + UInt16.ofNat i).toNat = n.toNat + i := by
    rw [UInt16.toNat_add, UInt16.toNat_ofNat_of_lt' (show i < 65536 by omega)]
    omega
  have hmod : ((n + UInt16.ofNat i) % 4).toNat = i := by
    rw [UInt16.toNat_mod, hadd]
    show (n.toNat + i) % 4 = i
    omega
  refine ⟨UInt16.toNat_inj.mp ?_, hmod⟩
  rw [UInt16.toNat_sub_of_le _ _ (UInt16.le_iff_toNat_le.mpr (by rw [hmod, hadd]; omega)), hmod, hadd]
  omega

theorem shardOf_packets {b : Block} (hn : b.first.sequenceNumber.toNat % 4 = 0) {i : Nat} {packet : List Byte}
    (h : (b.packets x)[i]? = some packet) :
    ∃ payload, (b.payloads x)[i]? = some payload ∧ shardOf packet = some (b.first.sequenceNumber, i, payload) := by
  obtain ⟨hsecond, hthird, hfourth⟩ := b.sequence
  have hdata (j : Nat) (hj : j < 4) (p : DataPacket)
      (hp : p.sequenceNumber = b.first.sequenceNumber + UInt16.ofNat j) :
      shardOf p.bytes = some (b.first.sequenceNumber, j, p.payload) := by
    obtain ⟨hfirst, hplace⟩ := number_in_block hn hj
    rw [shardOf_data, hp, hfirst, hplace]
  match i, h with
  | 0, h => cases h; exact ⟨_, rfl, hdata 0 (by decide) _ (by simp)⟩
  | 1, h => cases h; exact ⟨_, rfl, hdata 1 (by decide) _ hsecond⟩
  | 2, h => cases h; exact ⟨_, rfl, hdata 2 (by decide) _ hthird⟩
  | 3, h => cases h; exact ⟨_, rfl, hdata 3 (by decide) _ hfourth⟩
  | 4, h => cases h; exact ⟨_, rfl, shardOf_parity b (by decide)⟩
  | 5, h => cases h; exact ⟨_, rfl, shardOf_parity b (by decide)⟩

/-- What has come of a block is found by its headers. -/
theorem receivedShard_eq {b : Block} (hn : b.first.sequenceNumber.toNat % 4 = 0) {got : List (List Byte)}
    (hgot : ∀ packet ∈ got, packet ∈ b.packets x) {i : Nat} {packet : List Byte} (hmem : packet ∈ got)
    (hi : (b.packets x)[i]? = some packet) :
    receivedShard got b.first.sequenceNumber i = (b.payloads x)[i]? := by
  obtain ⟨payload, hpayload, hshard⟩ := shardOf_packets hn hi
  have hsome : (receivedShard got b.first.sequenceNumber i).isSome := by
    rw [receivedShard, List.findSome?_isSome_iff]
    exact ⟨packet, hmem, by simp [hshard]⟩
  obtain ⟨found, hfound⟩ := Option.isSome_iff_exists.mp hsome
  obtain ⟨packet', hmem', heq⟩ := List.exists_of_findSome?_eq_some hfound
  obtain ⟨j, hj⟩ := List.getElem?_of_mem (hgot packet' hmem')
  obtain ⟨payload', hpayload', hshard'⟩ := shardOf_packets hn hj
  rw [hshard', Option.bind_some] at heq
  split at heq
  next hplace =>
    cases heq
    obtain ⟨-, rfl⟩ := hplace
    rw [hfound, hpayload']
  next => cases heq

/-- The bytes of a column of the block are a word of the code. -/
theorem payload_codeword (hfield : InField x) (b : Block) {c : Nat} (hc : c < b.first.payload.length) {i : Nat}
    (hi : i < 6) : ((b.payloads x)[i]?).bind (·[c]?) =
      (blockCode.codeword (b.dataPayloads.map fun payload => payload.getD c 0))[i]? := by
  obtain ⟨hsecond, hthird, hfourth⟩ := b.size
  have hdata (payload : List Byte) (hlen : payload.length = b.first.payload.length) :
      payload[c]? = some (payload.getD c 0) := by
    rw [List.getD_eq_getElem?_getD, List.getElem?_eq_getElem (by omega), Option.getD_some]
  have hparity (k : Nat) : (columnParity x k b.first.payload b.second.payload b.third.payload b.fourth.payload)[c]? =
      some (Galois.combine (parityRow k) (Galois.symbols (b.dataPayloads.map fun payload => payload.getD c 0))) := by
    rw [columnParity, List.getElem?_map, List.getElem?_range hc, Option.map_some, hfield]
    rfl
  obtain rfl | rfl | rfl | rfl | rfl | rfl : i = 0 ∨ i = 1 ∨ i = 2 ∨ i = 3 ∨ i = 4 ∨ i = 5 := by omega
  · exact hdata _ rfl
  · exact hdata _ hsecond
  · exact hdata _ hthird
  · exact hdata _ hfourth
  · exact hparity 0
  · exact hparity 1

theorem recovered (hfield : InField x) {b : Block} (hn : b.first.sequenceNumber.toNat % 4 = 0) : b.Recovered x := by
  intro I hI hcard got hgot hall c hc
  refine blockCode.decode_eq_some hI hcard (by rfl) fun i hi => ?_
  obtain ⟨packet, hmem, hpacket⟩ := hall i hi
  rw [receivedShard_eq hn hgot hmem hpacket]
  exact payload_codeword hfield b hc (Finset.mem_range.mp (hI hi))

/-- The packets sent are those of blocks one after another, as far as they were sent, and any
two packets of each block may be lost. -/
def RecoveredInBlocks (x : Crates) (sent : List (List Byte)) : Prop :=
  ∃ blocks : List Block, sent <+: blocks.flatMap (Block.packets x) ∧ ∀ b ∈ blocks, b.Recovered x

theorem InBlocks.recovered (hfield : InField x) {sent : List (List Byte)} (h : InBlocks x sent) :
    RecoveredInBlocks x sent := by
  obtain ⟨blocks, hnumbers, hsent⟩ := h
  refine ⟨blocks, hsent, fun b hb => AudioEncoder.recovered hfield ?_⟩
  obtain ⟨i, hi⟩ := List.getElem?_of_mem hb
  rw [hnumbers i b hi, UInt16.toNat_ofNat']
  omega

/-- Whatever fails, as long as Opus delivers packets of one size. -/
theorem lost_packets_recovered (hfield : InField x) {encrypt : Bool} {m : Nat} {keys : SessionKeyData}
    {receiver : Option Nat} {as : List Action} {s : State} (hsize : ∀ a ∈ as, OfSize m a)
    (h : exec (step x encrypt) (State.start keys receiver) as = some s) : RecoveredInBlocks x s.sent := by
  by_cases hm : m ≤ encodedAudioSize
  · exact (inBlocks_of_le hm hsize h).recovered hfield
  · exact (inBlocks_of_le (Nat.zero_le _) (fun a ha => (hsize a ha).of_not_le hm) h).recovered hfield

/-- The packets of one block, and two frames more. -/
def sixFrames : List Action :=
  (List.range 6).map fun i => .frame (5000 * i) (some ⟨[1, 2, UInt8.ofNat i], show 3 ≤ 1400 by decide⟩)

theorem sixFrames_recovered : ∃ s, exec (step galoisCrates false) (State.start ⟨[], 0⟩ none) sixFrames = some s ∧
    s.sent.length = 8 ∧ RecoveredInBlocks galoisCrates s.sent := by
  have hfield : InField galoisCrates := fun _ _ _ _ _ => rfl
  have hsize : ∀ a ∈ sixFrames, OfSize 3 a := by
    simp [sixFrames, OfSize]
  obtain ⟨s, hs, hlen⟩ : ∃ s, exec (step galoisCrates false) (State.start ⟨[], 0⟩ none) sixFrames = some s ∧
      s.sent.length = 8 := ⟨_, rfl, rfl⟩
  exact ⟨s, hs, hlen, lost_packets_recovered hfield hsize hs⟩

end Moonshine.Proof.AudioEncoder
