import Mathlib.Data.List.Forall2
import Moonshine.Framework.Run
import Moonshine.Impl.Video.PacketHandler
import Moonshine.Proof.Video.FecHeader
import Moonshine.Proof.Video.GsoSocket

/-!
# From the encoder to the client

A client that decrypts the shards of a batch, takes those whose header says that they carry
data, and cuts the last one where the frame header says, has the frame that was encoded
(`read_batch`). In every run of the packet consumer and the packet handler, the datagrams that
are handed to the socket are the shards of the batches taken since the first PING, each once
and in order (`frames_delivered`).
-/

namespace Moonshine.Proof.Packetizer

open Moonshine.Framework Moonshine.Impl Moonshine.Impl.Packetizer Moonshine.Proof.ShardBatch

variable {x : Crates}

/-! ## A client -/

/-- The header says that the shard is one of the data shards of its block. -/
def isDataShard (shard : List Byte) : Bool := (fecInfoOf shard >>> 12) &&& 0x3FF < fecInfoOf shard >>> 22

def dataPayloads (shards : List (List Byte)) : List (List Byte) :=
  (shards.filter isDataShard).map (List.drop payloadOffset)

/-- The frame in the shards of a batch. -/
def readFrame (shards : List (List Byte)) : List Byte :=
  let bytes := (dataPayloads shards).flatten
  let lastSize := ((dataPayloads shards).getLast?.map List.length).getD 0
  (bytes.take (bytes.length - lastSize + lastPayloadLen bytes)).drop videoFrameHeaderSize

theorem dataPayloads_append (shards more : List (List Byte)) :
    dataPayloads (shards ++ more) = dataPayloads shards ++ dataPayloads more := by
  rw [dataPayloads, List.filter_append, List.map_append]
  rfl

/-! ## Blocks -/

theorem mapM_eq_some {α β : Type} {f : α → Option β} {l : List α} {r : List β} (hlen : l.length = r.length)
    (h : ∀ (k : Nat) (a : α), l[k]? = some a → ∃ b, r[k]? = some b ∧ f a = some b) : l.mapM f = some r := by
  induction l generalizing r with
  | nil =>
    rw [List.length_eq_zero_iff.mp hlen.symm]
    rfl
  | cons a l ih =>
    cases r with
    | nil => cases hlen
    | cons b r =>
      obtain ⟨b', hb, hf⟩ := h 0 a rfl
      cases Option.some.inj hb
      rw [List.mapM_cons, hf, ih (Nat.succ.inj hlen) fun k c hc => h (k + 1) c hc]
      rfl

theorem range_filter_lt (d p : Nat) : (List.range (d + p)).filter (fun k => decide (k < d)) = List.range d := by
  rw [List.range_add, List.filter_append]
  have hfirst : (List.range d).filter (fun k => decide (k < d)) = List.range d :=
    List.filter_eq_self.mpr fun k hk => decide_eq_true (List.mem_range.mp hk)
  have hrest : ((List.range p).map (d + ·)).filter (fun k => decide (k < d)) = [] := by
    refine List.filter_eq_nil_iff.mpr fun k hk => ?_
    obtain ⟨i, -, rfl⟩ := List.mem_map.mp hk
    simp
  rw [hfirst, hrest, List.append_nil]

theorem drop_dataShard (f : Frame) (b d pct k j : Nat) (q : UInt32) :
    (dataShard f b d pct k j q).drop payloadOffset = payload f j :=
  List.drop_left' (by simp [payloadOffset, nvPacketOffset, nvVideoPacketSize, rtpHeaderSize, paddingSize])

/-- The client tells the data shards of a block from the others. -/
theorem SentBlock.read {f : Frame} (hv : Valid f) {cipher : Option (List Byte)} {b : Nat} (hb : b < blockCount f)
    (hfits : BlockFits f b) {q : UInt32} {sent : List (List Byte)} (h : SentBlock x cipher f b q sent) :
    ∃ shards, sent.mapM (received x cipher) = some shards ∧
      dataPayloads shards = (List.range' (blockRange f b).1 (blockData f b)).map (payload f) := by
  obtain ⟨hlen, buf, hfill, hrec⟩ := h
  refine ⟨(List.range (blockSize f b)).map buf.shard, mapM_eq_some ?_ fun k shard hshard => ?_, ?_⟩
  · rw [List.length_map, List.length_range, hlen]
  · have hk : k < blockSize f b := hlen ▸ (List.getElem?_eq_some_iff.mp hshard).1
    obtain ⟨shard', hshard', hreceived⟩ := hrec k hk
    cases Option.some.inj (hshard.symm.trans hshard')
    exact ⟨buf.shard k, by rw [List.getElem?_map, List.getElem?_range hk, Option.map_some], hreceived⟩
  · have hdata : ∀ k ∈ List.range (blockSize f b),
        (isDataShard ∘ buf.shard) k = decide (k < blockData f b) := fun k hk => by
      have hk := List.mem_range.mp hk
      obtain ⟨hinfo, hmulti⟩ := hfill.fields hv hk
      have hdec := decodes_of_fits hv hb hk hfits hinfo hmulti
      rw [Function.comp_apply, isDataShard, hdec.index, hdec.dataShards]
    rw [dataPayloads, List.filter_map, List.filter_congr hdata, blockSize, range_filter_lt, List.map_map,
      List.range'_eq_map_range, List.map_map]
    refine List.map_congr_left fun k hk => ?_
    rw [Function.comp_apply, hfill.data k (List.mem_range.mp hk), drop_dataShard]
    rfl

theorem read_blocks {cipher : Option (List Byte)} {blocks payloads : List (List (List Byte))}
    (h : List.Forall₂ (fun sent payload => ∃ shards, sent.mapM (received x cipher) = some shards ∧
      dataPayloads shards = payload) blocks payloads) :
    ∃ shards, blocks.flatten.mapM (received x cipher) = some shards ∧ dataPayloads shards = payloads.flatten := by
  induction h with
  | nil => exact ⟨[], rfl, rfl⟩
  | cons hblock _ ih =>
    obtain ⟨shards, hshards, hpayload⟩ := hblock
    obtain ⟨more, hmore, hrest⟩ := ih
    refine ⟨shards ++ more, ?_, by rw [dataPayloads_append, hpayload, hrest, List.flatten_cons]⟩
    rw [List.flatten_cons, List.mapM_append, hshards, hmore]
    rfl

/-! ## Batches -/

theorem fits_all {a : Args} (h16 : 16 < a.requestedPacketSize) (h : FecFits a) (encrypted : Bool)
    (hv : Valid (a.frame encrypted)) {b : Nat} (hb : b < blockCount (a.frame encrypted)) :
    BlockFits (a.frame encrypted) b := by
  by_cases hlast : b + 1 < blockCount (a.frame encrypted)
  · exact fits_full hv hlast
  · obtain rfl : b = blockCount (a.frame encrypted) - 1 := by omega
    exact (fits_last h16 encrypted).mpr h

/-- The payloads that the client has of a batch. -/
theorem payloads_read {keys : SessionKeyData} {a : Args} {s s' : State x} {batch : ShardBatch}
    (hrun : packetize keys a s = (.ok batch, s')) (hfits : FecFits a) :
    Valid (a.frame s'.packetizer.cipher.isSome) ∧
      ∃ shards, batch.shards.mapM (received x s'.packetizer.cipher) = some shards ∧
        dataPayloads shards = (List.range (a.frame s'.packetizer.cipher.isSome).nrDataShards).map
          (payload (a.frame s'.packetizer.cipher.isSome)) := by
  obtain ⟨f, hf, hv, hshards, hblocks, -, hcipher⟩ := packetize_spec hrun
  rw [← hcipher] at hf
  subst hf
  have hsize : 0 < a.requestedPacketSize - 16 := hv.payloadSize
  refine ⟨hv, ?_⟩
  rw [← flatMap_blocks hv, List.map_flatMap, List.flatMap_def, hshards]
  refine read_blocks (List.forall₂_iff_get.mpr ⟨?_, fun b hb hb' => ?_⟩)
  · rw [length_blocksOf, List.length_map, List.length_range]
  · have hcount : b < blockCount (a.frame s'.packetizer.cipher.isSome) := by rwa [length_blocksOf] at hb
    obtain ⟨sent, hget, hsent⟩ := hblocks b hcount
    obtain ⟨hlt, hval⟩ := List.getElem?_eq_some_iff.mp hget
    rw [List.get_eq_getElem, List.get_eq_getElem, hval, List.getElem_map, List.getElem_range]
    exact hsent.read hv hcount (fits_all (by omega) hfits _ hv hcount)

/-- The client reads the frame of a batch, if its headers have room for the numbers of its
shards and the length of a payload. -/
theorem read_batch {keys : SessionKeyData} {a : Args} {s s' : State x} {batch : ShardBatch}
    (hrun : packetize keys a s = (.ok batch, s')) (hfits : FecFits a) (hsize : a.requestedPacketSize - 16 < 2 ^ 32) :
    ∃ shards, batch.shards.mapM (received x s'.packetizer.cipher) = some shards ∧
      readFrame shards = a.encodedData := by
  obtain ⟨hv, shards, hshards, hpayloads⟩ := payloads_read hrun hfits
  refine ⟨shards, hshards, ?_⟩
  generalize s'.packetizer.cipher.isSome = encrypted at hv hpayloads
  obtain ⟨hlt, hle⟩ := hv.whole
  have hpos := hv.nrDataShards_pos
  have hstream : stream (a.frame encrypted) = a.videoFrameHeader.serialize ++ a.encodedData := rfl
  have hbytes : (dataPayloads shards).flatten = a.videoFrameHeader.serialize ++ (a.encodedData ++
      List.replicate ((a.frame encrypted).nrDataShards * (a.frame encrypted).requestedShardPayloadSize -
        (a.frame encrypted).packetDataLen) 0) := by
    rw [hpayloads, ← List.flatMap_def, flatMap_payload hv, hstream, List.append_assoc]
  have hlastSize : ((dataPayloads shards).getLast?.map List.length).getD 0 =
      (a.frame encrypted).requestedShardPayloadSize := by
    rw [hpayloads, List.getLast?_map, List.getLast?_range, if_neg (by omega)]
    exact length_payload _ _
  have hlast : lastPayloadLen (dataPayloads shards).flatten =
      lastShardSize (a.frame encrypted).packetDataLen (a.frame encrypted).requestedShardPayloadSize := by
    have hbound := lastShardSize_eq hlt hle hpos
    have hwidth : (a.frame encrypted).requestedShardPayloadSize < 2 ^ 32 := hsize
    rw [hbytes, lastPayloadLen_serialize]
    exact (UInt32.toNat_ofNat').trans (Nat.mod_eq_of_lt (by
      change lastShardSize (a.frame encrypted).packetDataLen (a.frame encrypted).requestedShardPayloadSize < 2 ^ 32
      omega))
  have hlen : (dataPayloads shards).flatten.length =
      (a.frame encrypted).nrDataShards * (a.frame encrypted).requestedShardPayloadSize := by
    have hdata : (a.frame encrypted).packetDataLen = 8 + a.encodedData.length := rfl
    rw [hbytes, List.length_append, List.length_append, List.length_replicate, length_serialize]
    omega
  have hcut : (dataPayloads shards).flatten.length -
      ((dataPayloads shards).getLast?.map List.length).getD 0 + lastPayloadLen (dataPayloads shards).flatten =
        (a.videoFrameHeader.serialize ++ a.encodedData).length := by
    have hdata : (a.frame encrypted).packetDataLen = 8 + a.encodedData.length := rfl
    obtain ⟨m, hm⟩ : ∃ m, (a.frame encrypted).nrDataShards = m + 1 :=
      ⟨(a.frame encrypted).nrDataShards - 1, by omega⟩
    rw [hlastSize, hlast, hlen, lastShardSize_eq hlt hle hpos, List.length_append, length_serialize]
    rw [hm, Nat.add_sub_cancel] at hlt
    rw [hm, Nat.succ_mul] at hle ⊢
    omega
  unfold readFrame
  simp only
  rw [hcut, hbytes, ← List.append_assoc, List.take_left', List.drop_left']
  · rw [length_serialize]
    rfl
  · rfl

end Moonshine.Proof.Packetizer

namespace Moonshine.Proof.PacketHandler

open Moonshine.Framework Moonshine.Impl Moonshine.Impl.Packetizer Moonshine.Impl.PacketHandler
open Moonshine.Impl.Pipeline Moonshine.Impl.UdpGsoSocket Moonshine.Proof.Packetizer Moonshine.Proof.ShardBatch
open Moonshine.Proof.UdpGsoSocket

variable {x : Crates} {Addr : Type}

/-! ## The socket -/

/-- The datagrams of a batch are its shards, or the first of them if the send does not return. -/
theorem datagrams_sendBatch {b : ShardBatch} (h : Whole b) (maxGsoSegments : Nat) (results : List TrySend) :
    ∃ waiting, datagrams (sendBatch maxGsoSegments b results).handed ++ waiting = b.shards ∧
      ((sendBatch maxGsoSegments b results).returned = true → waiting = []) := by
  unfold sendBatch
  split
  · exact (sendBatchGso_exactlyOnce h maxGsoSegments results).datagrams
  · refine ⟨[], ?_, fun _ => rfl⟩
    rw [List.append_nil]
    by_cases hs : b.shardSize = 0
    · rw [(whole_zero h hs).2, sendShards, if_pos hs]
      rfl
    · have hpos : 0 < b.shardSize := Nat.pos_of_ne_zero hs
      exact (datagrams_sendShards hpos b.data).trans (chunks_shards h hpos)

/-! ## The consumer -/

/-- The client can read the frame, with the key of its shards. -/
def Readable (x : Crates) (e : Enqueued) : Prop :=
  FecFits e.args → e.args.requestedPacketSize - 16 < 2 ^ 32 →
    ∃ shards, e.batch.shards.mapM (received x e.cipher) = some shards ∧ readFrame shards = e.args.encodedData

/-- A batch that `packetize` has returned. -/
structure Good (x : Crates) (e : Enqueued) : Prop where
  whole : Whole e.batch
  readable : Readable x e

/-- What the consumer puts into the channel. -/
theorem sent_sendPacket (cfg : Config) (keys : SessionKeyData) (displayOrder : Nat) (data : List Byte)
    (isKeyFrame : Bool) (latency : UInt16) (networkOpen : Bool) (c : Consumer x) :
    let c' := c.sendPacket cfg keys displayOrder data isKeyFrame latency networkOpen
    c'.sent = c.sent ∨ networkOpen = true ∧ ∃ batch, c'.sent = c.sent ++ [batch] ∧
      Good x ⟨cfg.args (c.frameNumber + 1) displayOrder data isKeyFrame latency, c'.packetizer.packetizer.cipher,
        batch⟩ := by
  unfold Consumer.sendPacket
  simp only
  split
  next shards packetizer hrun =>
    cases networkOpen with
    | false => exact .inl rfl
    | true => exact .inr ⟨rfl, shards, rfl, packetize_whole hrun, read_batch hrun⟩
  next => exact .inl rfl
  next => exact .inl rfl

/-! ## What is delivered -/

/-- The client that the handler knows after the actions. -/
def clientAfter (known : Option Addr) : List (Action Addr) → Option Addr
  | [] => known
  | .message address contents :: as => clientAfter (if contents = ping then some address else known) as
  | _ :: as => clientAfter known as

/-- For each batch that is taken, the client that the handler knows then. -/
def targets (known : Option Addr) : List (Action Addr) → List (Option Addr)
  | [] => []
  | .message address contents :: as => targets (if contents = ping then some address else known) as
  | .batch _ _ :: as => known :: targets known as
  | _ :: as => targets known as

theorem clientAfter_append (known : Option Addr) (as bs : List (Action Addr)) :
    clientAfter known (as ++ bs) = clientAfter (clientAfter known as) bs := by
  induction as generalizing known with
  | nil => rfl
  | cons a as ih => cases a <;> exact ih _

theorem targets_append (known : Option Addr) (as bs : List (Action Addr)) :
    targets known (as ++ bs) = targets known as ++ targets (clientAfter known as) bs := by
  induction as generalizing known with
  | nil => rfl
  | cons a as ih =>
    cases a with
    | batch maxGsoSegments results => exact congrArg (known :: ·) (ih known)
    | _ => exact ih _

/-- The datagrams of a batch, to where they go. -/
def datagramsTo (d : Addr × Enqueued) : List (Addr × List Byte) :=
  d.2.batch.shards.map fun datagram => (d.1, datagram)

/-- A send that was cut off: of the shards of a batch the first ones have left. -/
structure CutOff (e : Option Enqueued) (address : Addr) (cut : List (Addr × List Byte)) : Prop where
  shards : ∃ e' ∈ e, ∃ sent waiting, sent ++ waiting = e'.batch.shards ∧
    cut = sent.map fun datagram => (address, datagram)

/-- The frames that were taken before the client was known, those that were delivered, and those
still in the channel. -/
structure Delivery (w : World x Addr) (ts : List (Option Addr)) (early : List Enqueued)
    (delivered : List (Addr × Enqueued)) (cut : List (Addr × List Byte)) (rest : List Enqueued) : Prop where
  enqueued : w.enqueued = early ++ (delivered.map Prod.snd ++ rest)
  sent : w.sent = delivered.flatMap datagramsTo ++ cut
  running : w.running = true → rest.map Enqueued.batch = w.queue
  /-- Only the last send can be cut off, by the end of the handler. -/
  targets : (cut = [] ∧ ts = List.replicate early.length none ++ delivered.map fun d => some d.1) ∨
    w.running = false ∧ ∃ address, CutOff rest.head? address cut ∧
      ts = List.replicate early.length none ++ (delivered.map fun d => some d.1) ++ [some address]

structure Inv (as : List (Action Addr)) (w : World x Addr) : Prop where
  good : ∀ e ∈ w.enqueued, Good x e
  client : w.clientAddress = clientAfter none as
  early : w.clientAddress = none → ∀ t ∈ targets none as, t = none
  delivery : ∃ early delivered cut rest, Delivery w (targets none as) early delivered cut rest

variable {cfg : Config} {w w' : World x Addr} {as : List (Action Addr)} {ts : List (Option Addr)}
  {early rest : List Enqueued} {delivered : List (Addr × Enqueued)} {cut : List (Addr × List Byte)}

theorem Inv.start (consumer : Consumer x) : Inv [] (.start consumer : World x Addr) where
  good := nofun
  client := rfl
  early := fun _ => nofun
  delivery := ⟨[], [], [], [], rfl, rfl, fun _ => rfl, .inl ⟨rfl, rfl⟩⟩

/-- While the handler runs, no send is cut off. -/
theorem Delivery.whole (h : Delivery w ts early delivered cut rest) (hrunning : w.running = true) :
    cut = [] ∧ ts = List.replicate early.length none ++ delivered.map fun d => some d.1 :=
  h.targets.resolve_right fun hcut => by cases hrunning.symm.trans hcut.1

/-- A batch goes in at the end of the channel. -/
theorem Delivery.push (h : Delivery w ts early delivered cut rest) (hrunning : w.running = true)
    (consumer : Consumer x) (e : Enqueued) :
    Delivery { w with consumer, queue := w.queue ++ [e.batch], enqueued := w.enqueued ++ [e] } ts early delivered cut
      (rest ++ [e]) := by
  refine ⟨?_, h.sent, fun _ => ?_, .inl (h.whole hrunning)⟩
  · simp only
    rw [h.enqueued]
    simp only [List.append_assoc]
  · rw [List.map_append, h.running hrunning]
    rfl

theorem Inv.packet (cfg : Config) (h : Inv as w) (displayOrder : Nat) (data : List Byte) (isKeyFrame : Bool)
    (keys : SessionKeyData) (latency : UInt16) :
    (∀ e ∈ (w.packet cfg displayOrder data isKeyFrame keys latency).enqueued, Good x e) ∧
      ∃ early delivered cut rest, Delivery (w.packet cfg displayOrder data isKeyFrame keys latency)
        (PacketHandler.targets none as) early delivered cut rest := by
  obtain ⟨early, delivered, cut, rest, hd⟩ := h.delivery
  unfold World.packet
  simp only
  rcases sent_sendPacket cfg keys displayOrder data isKeyFrame latency w.running w.consumer with
    hsame | ⟨hrunning, batch, hsent, hgood⟩
  · rw [hsame, List.drop_length, List.map_nil, List.append_nil, List.append_nil]
    exact ⟨h.good, early, delivered, cut, rest, hd.enqueued, hd.sent, hd.running, hd.targets⟩
  · rw [hsent, List.drop_left, List.map_singleton]
    refine ⟨fun e he => ?_, early, delivered, cut, rest ++ [_], hd.push hrunning _ ⟨_, _, batch⟩⟩
    rcases List.mem_append.mp he with he | he
    · exact h.good e he
    · rw [List.mem_singleton.mp he]
      exact hgood

/-- The head of the channel is dropped, delivered, or cut off. -/
theorem Delivery.sendBatch (h : Delivery w ts early delivered cut rest) (hgood : ∀ e ∈ w.enqueued, Good x e)
    (hearly : w.clientAddress = none → delivered = []) (hrunning : w.running = true) {batch : ShardBatch}
    {queue : List ShardBatch} (hqueue : w.queue = batch :: queue) (maxGsoSegments : Nat) (results : List TrySend) :
    ∃ early delivered cut rest, Delivery ({ w with queue }.sendBatch maxGsoSegments results batch)
      (ts ++ [w.clientAddress]) early delivered cut rest := by
  obtain ⟨hcut, hts⟩ := h.whole hrunning
  have hrest := h.running hrunning
  subst hcut
  obtain ⟨e, rest', rfl, hbatch, hqueue'⟩ : ∃ e rest', rest = e :: rest' ∧ e.batch = batch ∧
      rest'.map Enqueued.batch = queue := by
    rw [hqueue] at hrest
    exact List.map_eq_cons_iff.mp hrest
  have hwhole : Whole e.batch := (hgood e (by rw [h.enqueued]; simp)).whole
  subst hbatch
  unfold World.sendBatch
  cases haddress : w.clientAddress with
  | none =>
    have hnone := hearly haddress
    subst hnone
    refine ⟨early ++ [e], [], [], rest', ?_, h.sent, fun _ => hqueue', .inl ⟨rfl, ?_⟩⟩
    · rw [h.enqueued]
      simp
    · rw [hts, List.length_append, List.length_singleton, List.replicate_succ']
      simp
  | some address =>
    have htargets : ts ++ [some address] =
        List.replicate early.length none ++ (delivered ++ [(address, e)]).map fun d => some d.1 := by
      rw [hts, List.map_append, List.append_assoc]
      rfl
    have henqueued : w.enqueued = early ++ ((delivered ++ [(address, e)]).map Prod.snd ++ rest') := by
      rw [h.enqueued]
      simp
    simp only
    split
    next hzero =>
      have hempty : e.batch.shards = [] := by
        rw [ShardBatch.shards, hzero]
        rfl
      refine ⟨early, delivered ++ [(address, e)], [], rest', henqueued, ?_, fun _ => hqueue', .inl ⟨rfl, htargets⟩⟩
      rw [h.sent, List.flatMap_append, List.flatMap_singleton, datagramsTo, hempty]
      simp
    next =>
      obtain ⟨waiting, hsent, hreturned⟩ := datagrams_sendBatch hwhole maxGsoSegments results
      cases hret : (UdpGsoSocket.sendBatch maxGsoSegments e.batch results).returned with
      | true =>
        rw [hreturned hret, List.append_nil] at hsent
        refine ⟨early, delivered ++ [(address, e)], [], rest', henqueued, ?_, fun _ => hqueue',
          .inl ⟨rfl, htargets⟩⟩
        simp only
        rw [h.sent, List.append_nil, List.append_nil, List.flatMap_append, List.flatMap_singleton, datagramsTo,
          ← hsent]
        rfl
      | false =>
        refine ⟨early, delivered, _, e :: rest', h.enqueued, ?_, fun h => absurd h Bool.false_ne_true,
          .inr ⟨rfl, address, ⟨e, rfl, _, waiting, hsent, rfl⟩, by rw [hts]⟩⟩
        simp only
        rw [h.sent, List.append_nil]
        rfl

/-- Before the first PING nothing is delivered. -/
theorem Inv.none_delivered (h : Inv as w) (hd : Delivery w (PacketHandler.targets none as) early delivered cut rest)
    (haddress : w.clientAddress = none) : delivered = [] := by
  rw [List.eq_nil_iff_forall_not_mem]
  intro d hmem
  have htarget : some d.1 ∈ PacketHandler.targets none as := by
    have hin : some d.1 ∈ delivered.map fun d => some d.1 := List.mem_map.mpr ⟨d, hmem, rfl⟩
    rcases hd.targets with ⟨-, hts⟩ | ⟨-, _, -, hts⟩
    · rw [hts]
      exact List.mem_append_right _ hin
    · rw [hts]
      exact List.mem_append_left _ (List.mem_append_right _ hin)
  cases h.early haddress _ htarget

theorem known_of_clientAfter {known : Option Addr} {a : Action Addr} (h : clientAfter known [a] = none) :
    known = none := by
  cases a with
  | message address contents =>
    rw [clientAfter] at h
    split at h
    · cases h
    · exact h
  | _ => exact h

theorem known_of_targets {known t : Option Addr} {a : Action Addr} (h : t ∈ PacketHandler.targets known [a]) :
    t = known := by
  cases a with
  | batch maxGsoSegments results => exact List.mem_singleton.mp h
  | _ => cases h

/-- What a step leaves to show. -/
theorem Inv.append (h : Inv as w) {a : Action Addr} (hgood : ∀ e ∈ w'.enqueued, Good x e)
    (hclient : w'.clientAddress = clientAfter w.clientAddress [a])
    (hdelivery : ∃ early delivered cut rest, Delivery w'
      (PacketHandler.targets none as ++ PacketHandler.targets w.clientAddress [a]) early delivered cut rest) :
    Inv (as ++ [a]) w' where
  good := hgood
  client := by rw [clientAfter_append, ← h.client, hclient]
  early hnone t ht := by
    have hknown : w.clientAddress = none := known_of_clientAfter (hclient ▸ hnone)
    rw [targets_append, ← h.client] at ht
    rcases List.mem_append.mp ht with ht | ht
    · exact h.early hknown t ht
    · exact (known_of_targets ht).trans hknown
  delivery := by rwa [targets_append, ← h.client]

/-- A step that takes no batch. -/
theorem Inv.quiet (h : Inv as w) {a : Action Addr} (hgood : ∀ e ∈ w'.enqueued, Good x e)
    (hclient : w'.clientAddress = clientAfter w.clientAddress [a]) (ha : PacketHandler.targets w.clientAddress [a] = [])
    (hdelivery : ∃ early delivered cut rest, Delivery w' (PacketHandler.targets none as) early delivered cut rest) :
    Inv (as ++ [a]) w' :=
  h.append hgood hclient (by rwa [ha, List.append_nil])

theorem enqueued_sendBatch (maxGsoSegments : Nat) (results : List TrySend) (batch : ShardBatch) (w : World x Addr) :
    (w.sendBatch maxGsoSegments results batch).enqueued = w.enqueued ∧
      (w.sendBatch maxGsoSegments results batch).clientAddress = w.clientAddress := by
  unfold World.sendBatch
  split
  · split <;> exact ⟨rfl, rfl⟩
  · exact ⟨rfl, rfl⟩

theorem Inv.step {a : Action Addr} (h : Inv as w) (hs : step cfg w a = some w') : Inv (as ++ [a]) w' := by
  obtain ⟨early, delivered, cut, rest, hd⟩ := h.delivery
  cases a with
  | resetCounters =>
    rw [PacketHandler.step] at hs
    split at hs
    next =>
      cases hs
      exact h.quiet h.good rfl rfl ⟨early, delivered, cut, rest, hd.enqueued, hd.sent, hd.running, hd.targets⟩
    next => cases hs
  | packet displayOrder data isKeyFrame keys latency =>
    rw [PacketHandler.step] at hs
    split at hs
    next =>
      cases hs
      obtain ⟨hgood, hdelivery⟩ := h.packet cfg displayOrder data isKeyFrame keys latency
      exact h.quiet hgood rfl rfl hdelivery
    next => cases hs
  | batch maxGsoSegments results =>
    rw [PacketHandler.step] at hs
    split at hs
    next batch queue hrunning hqueue =>
      cases hs
      obtain ⟨henqueued, hclient⟩ := enqueued_sendBatch maxGsoSegments results batch { w with queue }
      refine h.append (fun e he => h.good e (henqueued ▸ he)) hclient ?_
      exact hd.sendBatch h.good (h.none_delivered hd) hrunning hqueue maxGsoSegments results
    next => cases hs
  | message address contents =>
    rw [PacketHandler.step] at hs
    split at hs
    next =>
      cases hs
      by_cases hping : contents = ping
      · rw [if_pos hping]
        exact h.quiet h.good (by rw [clientAfter, if_pos hping]; rfl) rfl
          ⟨early, delivered, cut, rest, hd.enqueued, hd.sent, hd.running, hd.targets⟩
      · rw [if_neg hping]
        exact h.quiet h.good (by rw [clientAfter, if_neg hping]; rfl) rfl h.delivery
    next => cases hs
  | stop =>
    cases hs
    exact h.quiet h.good rfl rfl ⟨early, delivered, cut, rest, hd.enqueued, hd.sent, nofun,
      hd.targets.imp_right fun hcut => ⟨rfl, hcut.2⟩⟩

/-- Whatever the encoder, the client and the socket do: of the frames whose batches have gone
into the channel, those taken before the first PING are dropped, and each of those after them
is handed to the socket as the shards that the client reads it from, once and in their order,
for the address of the last PING. Only the last send can be cut off, when the handler comes to
its end. -/
theorem frames_delivered {consumer : Consumer x}
    (h : exec (PacketHandler.step cfg) (.start consumer) as = some w) :
    (∃ early delivered cut rest, Delivery w (PacketHandler.targets none as) early delivered cut rest) ∧
      ∀ e ∈ w.enqueued, Readable x e := by
  have hinv : Inv as w := exec_history (.start consumer) (fun _ _ _ _ _ hi hs => hi.step hs) h
  exact ⟨hinv.delivery, fun e he => (hinv.good e he).readable⟩

/-- One frame goes out before the client is known, and one to it. -/
def twoFrames : List (Action Nat) :=
  [.packet 0 [1, 2, 3] true ⟨[], 0⟩ 0, .batch 2 [], .message 7 ping, .packet 1 [4, 5] false ⟨[], 0⟩ 0, .batch 2 [.sent]]

def exampleConfig : Config :=
  ⟨⟨1280, 720, 60, 32, 1000000, 0, false, .h264, .sdr, .yuv420, 1, false, false⟩, 0⟩

theorem twoFrames_delivered : ∃ w : World repetition Nat,
    exec (PacketHandler.step exampleConfig) (.start ⟨0, ⟨new repetition false, 0, []⟩, none, true, []⟩) twoFrames =
      some w ∧ w.sent.length = 1 ∧
    (∃ early delivered cut rest, Delivery w [none, some 7] early delivered cut rest) ∧
      ∀ e ∈ w.enqueued, Readable repetition e := by
  obtain ⟨w, hw, hsent⟩ : ∃ w : World repetition Nat, exec (PacketHandler.step exampleConfig)
      (.start ⟨0, ⟨new repetition false, 0, []⟩, none, true, []⟩) twoFrames = some w ∧ w.sent.length = 1 := by
    refine ⟨_, rfl, ?_⟩
    decide +kernel
  exact ⟨w, hw, hsent, frames_delivered hw⟩

end Moonshine.Proof.PacketHandler
