import Moonshine.Proof.Stream.Nonces

/-!
# Under which key video is encrypted

`packetize` looks at the published key only where its id is new, and encrypts
nothing where the key has a wrong length. So what it returns is encrypted under
the current key exactly if a key that is new has 16 bytes, and a key that is not
is the one it took up under that id (`current_key_iff`).
-/

namespace Moonshine.Proof.Encryption

open Moonshine.Framework Moonshine.Impl Moonshine.Impl.Packetizer Moonshine.Impl.Encryption
  Moonshine.Proof.ShardBatch Moonshine.Proof.Packetizer

variable {x : Crates}

theorem blocks_sealed {f : Frame} (h : Valid f) {n b : Nat} (hn : b + n = nrBlocks f) {s s' : State x}
    {key : List Byte} (hc : s.packetizer.cipher = some key) (hpre : PrefixFits f (some key))
    {all batch : ShardBatch} (hall : Accumulated f all) (hrun : blocks f n b all s = (.ok batch, s')) :
    ∃ made sent, s'.sealed = s.sealed ++ made ∧ batch.shards = all.shards ++ sent ∧
      ∀ shard ∈ sent, ∃ plain, ShardSealed x key made plain shard := by
  induction n generalizing b s all with
  | zero =>
    cases hrun
    exact ⟨[], [], by simp, by simp, nofun⟩
  | succ n ih =>
    obtain ⟨all', s₁, hblock, hrun⟩ := Prog.bind_eq_ok.mp hrun
    obtain ⟨buf, buf', s₂, hf, hadv, -, hsealed, hshards, hall'⟩ :=
      block_append h (by omega) (by rw [hc]; exact hpre) hall hblock
    obtain ⟨hsize, henc⟩ := hsealed key hc
    have hcount : buf.shardCount = blockSize f b := hf.shardCount
    obtain ⟨-, -, hkept, -, made, hmade, hin⟩ := encryptShards_sealed hf.wellFormed hsize (by omega) henc
    rw [hadv.sealed] at hmade
    have hsent : ∀ shard ∈ (List.range (blockSize f b)).map fun k => buf'.shardPrefix k ++ buf'.shard k,
        ∃ plain, ShardSealed x key made plain shard := by
      intro shard hs
      obtain ⟨k, hk, rfl⟩ := List.mem_map.mp hs
      rw [List.mem_range] at hk
      exact ⟨buf.shard k, hin k (Nat.zero_le k) (by rwa [Nat.zero_add])⟩
    split at hrun
    · cases hrun
      exact ⟨made, _, hmade, hshards, hsent⟩
    · have hc₁ : s₁.packetizer.cipher = some key := by rw [hkept.cipher, hadv.cipher, hc]
      obtain ⟨made', sent', hmade', hshards', hsent'⟩ := ih (by omega) hc₁ hall' hrun
      refine ⟨made ++ made', ((List.range (blockSize f b)).map fun k => buf'.shardPrefix k ++ buf'.shard k) ++ sent',
        by rw [hmade', hmade, List.append_assoc], by rw [hshards', hshards, List.append_assoc], fun shard hs => ?_⟩
      rcases List.mem_append.mp hs with hs | hs
      · obtain ⟨plain, hp⟩ := hsent shard hs
        exact ⟨plain, hp.mono (List.subset_append_left _ _)⟩
      · obtain ⟨plain, hp⟩ := hsent' shard hs
        exact ⟨plain, hp.mono (List.subset_append_right _ _)⟩

/-- With a cipher, every shard that `packetize` returns is encrypted. -/
theorem packetize_sealed {keys : SessionKeyData} {a : Args} {s s' : State x} {batch : ShardBatch}
    {key : List Byte} (hc : (s.packetizer.maybeUpdateCipher keys).cipher = some key)
    (hrun : packetize keys a s = (.ok batch, s')) :
    ∃ made, s'.sealed = s.sealed ++ made ∧
      ∀ shard ∈ batch.shards, ∃ plain, ShardSealed x key made plain shard := by
  obtain ⟨hv, hrun⟩ := blocks_of_packetize hrun
  obtain ⟨made, sent, hmade, hshards, hsent⟩ := blocks_sealed hv (Nat.zero_add _) hc
    (by rw [hc]; rfl) (.inl rfl) hrun
  refine ⟨made, hmade, ?_⟩
  rw [hshards, shards_empty, List.nil_append]
  exact hsent

/-- A frame has at least one shard. -/
theorem exists_shard {keys : SessionKeyData} {a : Args} {s s' : State x} {batch : ShardBatch}
    (hrun : packetize keys a s = (.ok batch, s')) : ∃ shard, shard ∈ batch.shards := by
  obtain ⟨f, -, hv, hshards, hblocks, -⟩ := packetize_spec hrun
  have hpos := blockCount_pos f
  obtain ⟨sent, hget, hsent, -⟩ := hblocks 0 hpos
  have hsize : 0 < blockSize f 0 := by
    have := (hv.blockRange (lt_nrBlocks hpos)).1
    unfold blockSize blockData
    omega
  refine ⟨sent[0], ?_⟩
  rw [hshards, List.mem_flatten]
  exact ⟨sent, List.mem_of_getElem? hget, List.getElem_mem _⟩

/-- Encryption was negotiated. -/
def Encrypts (w : World x) : Prop := w.video.packetizer.encrypt = true

/-- Every shard that the step returns is encrypted, in this step, under the key
that is published. -/
def UnderCurrentKey (w : World x) (act : Action) (w' : World x) : Prop :=
  ∀ a batch, act = .packetize a → (packetize w.keys a w.video).1 = .ok batch → ∀ shard ∈ batch.shards,
    ∃ plain, ShardSealed x w.keys.remoteInputKey (w'.video.sealed.drop w.video.sealed.length) plain shard

/-- A key that comes under the id of the last one is that key, any other has 16
bytes. -/
def KeyTakenUp (w : World x) (act : Action) (_ : World x) : Prop :=
  ∀ a batch, act = .packetize a → (packetize w.keys a w.video).1 = .ok batch →
    if w.keys.remoteInputKeyId = w.video.packetizer.lastKeyId then
      w.video.packetizer.cipher = some w.keys.remoteInputKey
    else w.keys.remoteInputKey.length = 16

theorem takenUp_iff {p : Packetizer x} (hon : p.encrypt = true) (keys : SessionKeyData) :
    (p.maybeUpdateCipher keys).cipher = some keys.remoteInputKey ↔
      if keys.remoteInputKeyId = p.lastKeyId then p.cipher = some keys.remoteInputKey
      else keys.remoteInputKey.length = 16 := by
  rw [cipher_maybeUpdateCipher]
  by_cases hid : keys.remoteInputKeyId = p.lastKeyId
  · rw [if_pos (.inr hid), if_pos hid]
  · rw [if_neg (by simp [hon, hid]), if_neg hid]
    simp

theorem underCurrentKey_iff {w w' : World x} {act : Action} (hon : Encrypts w)
    (hs : step w act = some w') : UnderCurrentKey w act w' ↔ KeyTakenUp w act w' := by
  refine forall_congr' fun a => forall_congr' fun batch => forall_congr' fun hact => forall_congr' fun hok => ?_
  subst hact
  have hvideo : (packetize w.keys a w.video).2 = w'.video := by cases hs; rfl
  have hrun : packetize w.keys a w.video = (.ok batch, w'.video) := by rw [← hok, ← hvideo]
  rw [← takenUp_iff hon]
  constructor
  · intro hall
    obtain ⟨shard, hshard⟩ := exists_shard hrun
    obtain ⟨plain, c, frameNumber, out, hmade, -⟩ := hall shard hshard
    obtain ⟨-, -, -, k, -, is, -, -, -, hsealed⟩ := packetize_seals w.keys a w.video
    rw [hvideo] at hsealed
    rw [hsealed, List.drop_left' rfl, encryptionsAt, List.mem_flatMap] at hmade
    obtain ⟨key, hkey, hmem⟩ := hmade
    obtain ⟨i, -, heq⟩ := List.mem_map.mp hmem
    rw [Option.mem_toList] at hkey
    rw [← (Prod.mk.inj heq).1]
    exact hkey
  · intro hc
    obtain ⟨made, hmade, hall⟩ := packetize_sealed hc hrun
    rw [hmade, List.drop_left' rfl]
    exact hall

theorem encrypts_start (keys : SessionKeyData) : Encrypts (World.start x keys) := rfl

theorem encrypt_step {w w' : World x} {act : Action} (hon : Encrypts w)
    (hs : step w act = some w') : Encrypts w' := by
  cases act with
  | updateKeys keys =>
    cases hs
    exact hon
  | packetize a =>
    cases hs
    exact (encrypt_packetize w.keys a w.video).trans hon
  | send connected payload =>
    simp only [step] at hs
    split at hs <;> cases hs
    exact hon
  | terminate connected =>
    simp only [step] at hs
    split at hs <;> cases hs
    exact hon

/-- For every run with encryption on: all shards that are returned are encrypted
under the key current at the time exactly if the key is taken up each time. -/
theorem current_key_iff {w : World x} (hon : Encrypts w) (acts : List Action) :
    EveryStep step UnderCurrentKey w acts ↔ EveryStep step KeyTakenUp w acts := by
  refine EveryStep.iff_of_inv (fun w a w' hon hs => ?_) (fun w a w' hon hs _ => ?_) hon acts
  · exact underCurrentKey_iff hon hs
  · exact encrypt_step hon hs

theorem current_key_small :
    EveryStep step UnderCurrentKey (World.start exampleCrates ⟨exampleKey, 1⟩) [.packetize (exampleFrame 1)] := by
  refine (current_key_iff (encrypts_start _) [.packetize (exampleFrame 1)]).mpr fun w hw => ⟨fun a batch ha _ => ?_, trivial⟩
  rw [if_neg (by decide)]
  rfl

/-- A key of another length: the frame is sent as it is. -/
theorem short_key_plain :
    ¬ EveryStep step UnderCurrentKey (World.start exampleCrates ⟨exampleKey, 1⟩)
      [.updateKeys ⟨[0, 1, 2], 2⟩, .packetize (exampleFrame 1)] := by
  intro h
  obtain ⟨-, h⟩ := h _ rfl
  obtain ⟨h, -⟩ := h _ rfl
  obtain ⟨batch, hok⟩ : ∃ batch, (packetize ⟨[0, 1, 2], 2⟩ (exampleFrame 1)
      (World.start exampleCrates ⟨exampleKey, 1⟩).video).1 = .ok batch := ⟨_, rfl⟩
  have htaken := (underCurrentKey_iff (encrypts_start _) rfl).mp h (exampleFrame 1) batch rfl hok
  rw [if_neg (by decide)] at htaken
  exact absurd htaken (by decide)

end Moonshine.Proof.Encryption
