import Moonshine.Proof.Video.Batch

/-!
# How `packetize` ends

With room for the buffers of a frame (`Allocates`) a call never panics, whatever
the crates do, and returns an error only where they do (`packetize_completes`).
Without room for one of them it panics, unless a crate fails before that
(`packetize_panics`).
-/

namespace Moonshine.Proof.Packetizer

open Moonshine.Framework Moonshine.Framework.Outcome Moonshine.Impl Moonshine.Impl.Packetizer
open Moonshine.Proof.ShardBatch

variable {x : Crates}

/-- The encoders a frame needs can be made, and encode what they are given. -/
structure EncodersWork (x : Crates) (f : Frame) : Prop where
  new : ∀ b < blockCount f, 0 < blockParity f b →
    ∃ r, x.reedSolomonNew (blockData f b) (blockParity f b) = some r
  encode : ∀ b < blockCount f, ∀ (r : x.ReedSolomon (blockData f b) (blockParity f b)) slices,
    slices.length = blockSize f b → (∀ y ∈ slices, y.length = f.requestedShardSize) →
      ∃ out, x.encode r slices = some out

/-- So does the cipher, if there is one. -/
structure CratesWork (x : Crates) (f : Frame) (cipher : Option (List Byte)) : Prop where
  encoders : EncodersWork x f
  encrypt : ∀ key nonce buffer, cipher = some key →
    ∃ out, x.encryptInPlaceDetached key nonce buffer = some out

/-- Crates that never fail: the slices stay as they are, and so does what is
encrypted. -/
def copying : Crates where
  ReedSolomon _ _ := Unit
  reedSolomonNew _ _ := some ()
  encode _ slices := some slices
  encryptInPlaceDetached _ _ buffer := some (buffer, List.replicate 16 0)
  decryptInPlaceDetached _ _ buffer _ := some buffer
  encode_length _ _ _ h := by rw [Option.some.inj h]
  encode_data _ _ _ h := by rw [Option.some.inj h]
  encrypt_length _ _ _ _ h := by
    rw [← Option.some.inj h]
    simp
  decrypt_encrypt _ _ _ _ h := by rw [← Option.some.inj h]

theorem copying_work (f : Frame) (cipher : Option (List Byte)) : CratesWork copying f cipher where
  encoders := ⟨fun _ _ _ => ⟨(), rfl⟩, fun _ _ _ slices _ _ => ⟨slices, rfl⟩⟩
  encrypt _ _ _ _ := ⟨_, rfl⟩

/-- The buffer of a block can be allocated. -/
def BlockAllocates (f : Frame) (b : Nat) : Prop :=
  blockSize f b * (f.prefixSize + f.requestedShardSize) ≤ isizeMax

/-- The buffers of a frame can be allocated. -/
def Allocates (f : Frame) : Prop := ∀ b < blockCount f, BlockAllocates f b

theorem blockEncoder_completes {w : Prop} {d p : Nat} (hw : w → 0 < p → ∃ r, x.reedSolomonNew d p = some r)
    (s : State x) : Completes w (blockEncoder d p s).1 := by
  unfold blockEncoder
  by_cases hp : 0 < p
  · rw [if_pos hp]
    refine Prog.completes_bind ?_ fun r m _ => completes_ok _
    unfold getFecEncoder
    rw [Prog.gets_bind]
    cases s.packetizer.fecEncoders d p with
    | some encoder => exact completes_ok _
    | none =>
      exact Prog.completes_liftM_bind (completes_ofOption fun h => hw h hp) fun r _ => completes_ok _
  · rw [if_neg hp]
    exact completes_ok _

/-- What follows the allocation of a block. -/
theorem fillBlock_rest {f : Frame} (h : Valid f) {b : Nat} (hb : b < blockCount f) {buf : ShardBuf}
    (hbuf : ShardBuf.new (blockData f b + blockParity f b) f.requestedShardSize f.prefixSize = .ok buf)
    (encoder : Option (x.ReedSolomon (blockData f b) (blockParity f b))) (s : State x) :
    Completes (EncodersWork x f) ((writeDataShards f b (blockRange f b).1 (blockData f b) (blockPercentage f b) buf >>=
      writeParityShards f b (blockPercentage f b) encoder) s).1 := by
  obtain ⟨buf₁, hdata, hwf, hshape, -⟩ := writeDataShards_eq h (lt_nrBlocks hb) hbuf s
  have hnew := new_eq_ok hbuf
  have hcount : buf₁.shardCount = blockData f b + blockParity f b := by rw [hshape.shardCount, hnew]
  have hsize : buf₁.dataSize = f.requestedShardSize := by rw [hshape.dataSize, hnew]
  rw [Prog.bind_of_ok hdata]
  cases encoder with
  | none => exact completes_ok _
  | some r =>
    have hslices : ∀ y ∈ buf₁.asFecSlices, y.length = f.requestedShardSize := by
      intro y hy
      obtain ⟨i, hi, rfl⟩ := List.mem_map.mp hy
      rw [hwf.length_shard (List.mem_range.mp hi), hsize]
    have hencode : Completes (EncodersWork x f) (Outcome.ofOption (x.encode r buf₁.asFecSlices)) :=
      completes_ofOption fun hx => hx.encode b hb r _ ((length_asFecSlices buf₁).trans hcount) hslices
    refine Prog.completes_liftM_bind hencode fun out hout => ?_
    obtain ⟨buf', hpatch, -⟩ := encode_patch h hwf hsize hcount (Outcome.ofOption_eq_ok.mp hout)
      { s with sequenceNumber := s.sequenceNumber + UInt32.ofNat (blockData f b) }
    rw [hpatch]
    exact completes_ok _

theorem fillBlock_completes {f : Frame} (h : Valid f) {b : Nat} (hb : b < blockCount f) (hfit : BlockAllocates f b)
    (s : State x) : Completes (EncodersWork x f) (fillBlock f b s).1 := by
  rw [fillBlock_eq h (lt_nrBlocks hb)]
  refine Prog.completes_bind (blockEncoder_completes (fun hx => hx.new b hb) s) fun encoder m _ => ?_
  have hbuf := new_of_le (show (blockData f b + blockParity f b) * _ ≤ isizeMax from hfit)
  rw [hbuf, Prog.liftM_bind_ok]
  exact fillBlock_rest h hb hbuf encoder m

theorem fillBlock_panics {f : Frame} (hx : EncodersWork x f) (h : Valid f) {b : Nat} (hb : b < blockCount f)
    (hfit : ¬ BlockAllocates f b) (s : State x) : (fillBlock f b s).1 = .panic := by
  have hencoder := blockEncoder_completes (fun hx : EncodersWork x f => hx.new b hb) s
  have hbuf : ShardBuf.new (blockData f b + blockParity f b) f.requestedShardSize f.prefixSize = .panic :=
    if_neg hfit
  obtain ⟨encoder, hr⟩ := hencoder.eq_ok hx
  rw [fillBlock_eq h (lt_nrBlocks hb), Prog.bind_of_ok (Prod.ext hr rfl), hbuf]
  rfl

theorem encryptShards_completes {w : Prop} {frameNumber : UInt32} {key : List Byte}
    (hw : w → ∀ nonce buffer, ∃ out, x.encryptInPlaceDetached key nonce buffer = some out) {n index : Nat}
    {buf : ShardBuf} (h : WellFormed buf) (hpre : buf.prefixSize = 32) (hn : index + n ≤ buf.shardCount)
    (s : State x) : Completes w (encryptShards frameNumber key n index buf s).1 := by
  induction n generalizing index buf s with
  | zero => exact completes_ok _
  | succ n ih =>
    have hi : index < buf.shardCount := by omega
    rw [encryptShards, Prog.gets_bind, Prog.modify_bind, readAt_of_le (h.slot_le hi),
      Prog.liftM_bind_ok, Prog.modify_bind]
    refine Prog.completes_liftM_bind (completes_ofOption fun h => hw h _ _) fun out hout => ?_
    obtain ⟨hl₀, hl₂⟩ := x.encrypt_length _ _ _ _ (Outcome.ofOption_eq_ok.mp hout)
    have hl₁ : out.1.length = buf.dataSize := hl₀.trans (h.length_shard hi)
    rw [shardMut_eq h hi (x := out.1) rfl hl₁, Prog.liftM_bind_ok]
    have hwf₁ := h.setShard hi hl₁
    have hlp : ((setShard buf index out.1).shardPrefix index).length = 32 := by
      rw [hwf₁.length_shardPrefix hi]
      exact hpre
    have henc : (encPrefix (videoIv s.packetizer.gcmIvCounter) frameNumber out.2).length =
        (setShard buf index out.1).prefixSize := by
      refine Eq.trans ?_ hpre.symm
      simp [encPrefix, length_videoIv, hl₂]
    rw [prefixMut_eq hwf₁ hi (writePrefix_eq hlp hl₂ _ _) henc, Prog.liftM_bind_ok]
    exact ih (hwf₁.setPrefix hi henc) hpre (show index + 1 + n ≤ buf.shardCount by omega) _

theorem block_completes {f : Frame} (h : Valid f) {b : Nat} (hb : b < blockCount f) (hfit : BlockAllocates f b)
    {s : State x} (hpre : PrefixFits f s.packetizer.cipher) (all : ShardBatch) :
    Completes (CratesWork x f s.packetizer.cipher) (block f b all s).1 := by
  have hfill := fillBlock_completes (x := x) h hb hfit s
  refine Prog.completes_bind ⟨hfill.1, fun hx => hfill.2 hx.encoders⟩ fun buf m hrun => ?_
  obtain ⟨hf, hadv⟩ := fillBlock_spec h (lt_nrBlocks hb) hrun
  rw [Prog.gets_bind, hadv.cipher]
  cases hc : s.packetizer.cipher with
  | none => exact completes_ok _
  | some key =>
    rw [PrefixFits, hc] at hpre
    refine Prog.completes_bind ?_ fun _ _ _ => completes_ok _
    exact encryptShards_completes (fun hx nonce buffer => hx.encrypt key nonce buffer rfl) hf.wellFormed
      (hf.prefixSize.trans hpre) (by omega) m

/-- The state after a block is fit for the next one. -/
theorem block_keeps {f : Frame} (h : Valid f) {b : Nat} (hb : b < nrBlocks f) {s s' : State x}
    (hpre : PrefixFits f s.packetizer.cipher) {all all' : ShardBatch} (hall : Accumulated f all)
    (hrun : block f b all s = (.ok all', s')) :
    Accumulated f all' ∧ s'.packetizer.cipher = s.packetizer.cipher := by
  obtain ⟨-, -, -, hall', hused⟩ := block_spec h hb hpre hall hrun
  exact ⟨hall', hused.cipher⟩

theorem blocks_completes {f : Frame} (h : Valid f) (hcap : Allocates f) {n b : Nat}
    (hn : b + n = nrBlocks f) (hb : b ≤ 3) {s : State x} (hpre : PrefixFits f s.packetizer.cipher)
    {all : ShardBatch} (hall : Accumulated f all) :
    Completes (CratesWork x f s.packetizer.cipher) (blocks f n b all s).1 := by
  induction n generalizing b s all with
  | zero => exact completes_ok _
  | succ n ih =>
    have hbc : b < blockCount f := Nat.lt_min.mpr ⟨by omega, by omega⟩
    rw [blocks]
    refine Prog.completes_bind (block_completes h hbc (hcap b hbc) hpre all) fun all' m hrun => ?_
    obtain ⟨hall', hcipher⟩ := block_keeps h (lt_nrBlocks hbc) hpre hall hrun
    by_cases h3 : b = 3
    · rw [if_pos h3]
      exact completes_ok _
    · rw [if_neg h3, ← hcipher]
      exact ih (by omega) (by omega) (by rwa [hcipher]) hall'

/-- The loop gets to a block that does not fit, and panics there. -/
theorem blocks_panics {f : Frame} (h : Valid f) {n b : Nat} (hn : b + n = nrBlocks f) (hb : b ≤ 3)
    (hcap : ∃ c, b ≤ c ∧ c < blockCount f ∧ ¬ BlockAllocates f c) {s : State x}
    (hpre : PrefixFits f s.packetizer.cipher) (hx : CratesWork x f s.packetizer.cipher) {all : ShardBatch}
    (hall : Accumulated f all) : (blocks f n b all s).1 = .panic := by
  obtain ⟨c, hc, hlt, hunfit⟩ := hcap
  have hcn := lt_nrBlocks hlt
  induction n generalizing b s all with
  | zero => omega
  | succ n ih =>
    have h4 : c < 4 := lt_of_lt_of_le hlt (Nat.min_le_right _ _)
    have hbc : b < blockCount f := by omega
    rw [blocks]
    by_cases hfit : BlockAllocates f b
    · obtain ⟨all', hr⟩ := (block_completes h hbc hfit hpre all).eq_ok hx
      have hrun : block f b all s = (.ok all', (block f b all s).2) := Prod.ext hr rfl
      obtain ⟨hall', hcipher⟩ := block_keeps h (lt_nrBlocks hbc) hpre hall hrun
      have hne : c ≠ b := fun heq => hunfit (heq ▸ hfit)
      rw [Prog.bind_of_ok hrun, if_neg (by omega)]
      exact ih (by omega) (by omega) (by rwa [hcipher]) (by rwa [hcipher]) hall' (by omega)
    · have hfill := fillBlock_panics hx.encoders h hbc hfit s
      exact Prog.bind_eq_panic.mpr (Or.inl (Prog.bind_eq_panic.mpr (Or.inl hfill)))

theorem packetize_completes {a : Args} (hsize : 16 < a.requestedPacketSize) {keys : SessionKeyData}
    {s : State x} (hcap : Allocates (a.frame (s.packetizer.maybeUpdateCipher keys).cipher.isSome)) :
    Completes
      (CratesWork x (a.frame (s.packetizer.maybeUpdateCipher keys).cipher.isSome)
        (s.packetizer.maybeUpdateCipher keys).cipher)
      (packetize keys a s).1 := by
  rw [packetize_eq hsize]
  exact blocks_completes (valid_frame (payloadSize_pos hsize) _) hcap (Nat.zero_add _) (by omega) (prefixFits_frame ..) (.inl rfl)

theorem packetize_panics {a : Args} (hsize : 16 < a.requestedPacketSize) {keys : SessionKeyData} {s : State x}
    (hx : CratesWork x (a.frame (s.packetizer.maybeUpdateCipher keys).cipher.isSome)
      (s.packetizer.maybeUpdateCipher keys).cipher)
    (hcap : ¬ Allocates (a.frame (s.packetizer.maybeUpdateCipher keys).cipher.isSome)) :
    (packetize keys a s).1 = .panic := by
  obtain ⟨c, hcap⟩ := not_forall.mp hcap
  obtain ⟨hc, hunfit⟩ := Classical.not_imp.mp hcap
  rw [packetize_eq hsize]
  exact blocks_panics (valid_frame (payloadSize_pos hsize) _) (Nat.zero_add _) (by omega)
    ⟨c, Nat.zero_le c, hc, hunfit⟩ (prefixFits_frame ..) hx (.inl rfl)

/-- Without encryption, `packetize` returns wherever the encoders do their part
and the buffers fit in memory. -/
theorem packetize_total {a : Args} (hsize : 16 < a.requestedPacketSize)
    (hx : EncodersWork x (a.frame false)) (hcap : Allocates (a.frame false)) {s : State x}
    (hoff : s.packetizer.encrypt = false) (keys : SessionKeyData) :
    ∃ batch s', packetize keys a s = (.ok batch, s') := by
  have hc : (s.packetizer.maybeUpdateCipher keys).cipher = none := by
    rw [maybeUpdateCipher_off hoff]
    exact s.packetizer.cipher_off hoff
  have hcompletes : Completes (CratesWork x (a.frame false) none) (packetize keys a s).1 := by
    have hcall := packetize_completes hsize (show Allocates (a.frame
      (s.packetizer.maybeUpdateCipher keys).cipher.isSome) by rwa [hc])
    rwa [hc] at hcall
  obtain ⟨batch, hr⟩ := hcompletes.eq_ok ⟨hx, nofun⟩
  exact ⟨batch, _, Prod.ext hr rfl⟩

end Moonshine.Proof.Packetizer
