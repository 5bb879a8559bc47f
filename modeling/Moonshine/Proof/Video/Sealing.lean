import Moonshine.Proof.Video.Batch

/-!
# Which nonces `packetize` uses

However `packetize` ends, it has encrypted under the cipher it started with,
after the refresh, each time under an IV of its own, counted from the counter it
started with and at most as many as the frame has shards (`packetize_seals`).
-/

namespace Moonshine.Proof.Packetizer

open Moonshine.Framework Moonshine.Impl Moonshine.Impl.Packetizer Moonshine.Proof.ShardBatch

variable {x : Crates}

/-- Nothing that bears on the nonces has changed. -/
structure Quiet (s s' : State x) : Prop where
  encrypt : s'.packetizer.encrypt = s.packetizer.encrypt
  cipher : s'.packetizer.cipher = s.packetizer.cipher
  lastKeyId : s'.packetizer.lastKeyId = s.packetizer.lastKeyId
  gcmIvCounter : s'.packetizer.gcmIvCounter = s.packetizer.gcmIvCounter
  sealed : s'.sealed = s.sealed

theorem Quiet.refl (s : State x) : Quiet s s := ⟨rfl, rfl, rfl, rfl, rfl⟩

theorem Quiet.trans (s s' s'' : State x) (h : Quiet s s') (k : Quiet s' s'') : Quiet s s'' :=
  ⟨k.encrypt.trans h.encrypt, k.cipher.trans h.cipher, k.lastKeyId.trans h.lastKeyId,
    k.gcmIvCounter.trans h.gcmIvCounter, k.sealed.trans h.sealed⟩

theorem quiet_getFecEncoder (d p : Nat) : Prog.Moves Quiet (getFecEncoder (x := x) d p) := by
  intro s
  unfold getFecEncoder
  rw [Prog.gets_bind]
  cases hc : s.packetizer.fecEncoders d p with
  | some encoder => exact Quiet.refl s
  | none =>
    refine Prog.bind_state (Quiet.refl s) fun encoder m hm => ?_
    cases (Prod.mk.inj hm).2
    exact ⟨rfl, rfl, rfl, rfl, rfl⟩

theorem quiet_eachShard (body : Nat → UInt32 → List Byte → Outcome (List Byte)) (n index : Nat)
    (buf : ShardBuf) : Prog.Moves Quiet (eachShard (x := x) body n index buf) := by
  induction n generalizing index buf with
  | zero => exact Quiet.refl
  | succ n ih =>
    refine Prog.Moves.bind Quiet.trans (Prog.Moves.gets Quiet.refl _) fun q => ?_
    refine Prog.Moves.bind Quiet.trans (Prog.Moves.liftM Quiet.refl _) fun buf => ?_
    refine Prog.Moves.bind Quiet.trans ?_ fun _ => ih _ _
    exact Prog.Moves.modify fun s => ⟨rfl, rfl, rfl, rfl, rfl⟩

theorem quiet_blockEncoder (d p : Nat) : Prog.Moves Quiet (blockEncoder (x := x) d p) := by
  unfold blockEncoder
  split
  · exact Prog.Moves.bind Quiet.trans (quiet_getFecEncoder d p) fun _ => Quiet.refl
  · exact Quiet.refl

theorem quiet_writeParityShards (f : Frame) (b percentage : Nat) {d p : Nat}
    (encoder : Option (x.ReedSolomon d p)) (buf : ShardBuf) :
    Prog.Moves Quiet (writeParityShards f b percentage encoder buf) := by
  unfold writeParityShards
  cases encoder with
  | none => exact Quiet.refl
  | some r =>
    exact Prog.Moves.bind Quiet.trans (Prog.Moves.liftM Quiet.refl _) fun _ => quiet_eachShard _ _ _ _

theorem quiet_fillBlock (f : Frame) (b : Nat) : Prog.Moves Quiet (fillBlock (x := x) f b) := by
  unfold fillBlock
  refine Prog.Moves.bind Quiet.trans (Prog.Moves.liftM Quiet.refl _) fun d => ?_
  split
  · exact Quiet.refl
  · refine Prog.Moves.bind Quiet.trans (quiet_blockEncoder _ _) fun encoder => ?_
    refine Prog.Moves.bind Quiet.trans (Prog.Moves.liftM Quiet.refl _) fun buf => ?_
    exact Prog.Moves.bind Quiet.trans (quiet_eachShard _ _ _ _) fun _ =>
      quiet_writeParityShards _ _ _ _ _

/-- The encryptions under the IVs `is` steps from the counter. -/
def encryptionsAt (cipher : Option (List Byte)) (counter : UInt64) (is : List Nat) :
    List (List Byte × List Byte) :=
  cipher.toList.flatMap fun key => is.map fun i => (key, videoIv (counter + UInt64.ofNat i))

/-- The counter went up by `k`, at most `n`, and the encryptions since used
different values on the way. -/
structure Seals (n : Nat) (s s' : State x) : Prop where
  encrypt : s'.packetizer.encrypt = s.packetizer.encrypt
  cipher : s'.packetizer.cipher = s.packetizer.cipher
  lastKeyId : s'.packetizer.lastKeyId = s.packetizer.lastKeyId
  counted : ∃ k ≤ n, ∃ is : List Nat, is.Nodup ∧ (∀ i ∈ is, i < k) ∧
    s'.packetizer.gcmIvCounter = s.packetizer.gcmIvCounter + UInt64.ofNat k ∧
    s'.sealed = s.sealed ++ encryptionsAt s.packetizer.cipher s.packetizer.gcmIvCounter is

theorem Quiet.seals {s s' : State x} (h : Quiet s s') (n : Nat) : Seals n s s' :=
  ⟨h.encrypt, h.cipher, h.lastKeyId, 0, Nat.zero_le n, [], List.nodup_nil, by simp,
    by rw [h.gcmIvCounter]; exact (add_zero _).symm, by rw [h.sealed]; simp [encryptionsAt]⟩

theorem encryptionsAt_append (cipher : Option (List Byte)) (c : UInt64) (k : Nat) (is js : List Nat) :
    encryptionsAt cipher c is ++ encryptionsAt cipher (c + UInt64.ofNat k) js =
      encryptionsAt cipher c (is ++ js.map (k + ·)) := by
  cases cipher with
  | none => rfl
  | some key => simp [encryptionsAt, UInt64.ofNat_add, add_assoc, Function.comp_def]

theorem Seals.trans {m n : Nat} {s s' s'' : State x} (h : Seals m s s') (k : Seals n s' s'') :
    Seals (m + n) s s'' := by
  obtain ⟨he, hc, hl, a, ha, is, hnd, hlt, hcount, hsealed⟩ := h
  obtain ⟨he', hc', hl', b, hb, js, hnd', hlt', hcount', hsealed'⟩ := k
  refine ⟨he'.trans he, hc'.trans hc, hl'.trans hl, a + b, Nat.add_le_add ha hb,
    is ++ js.map (a + ·), ?_, fun i hi => ?_, ?_, ?_⟩
  · refine List.nodup_append.mpr ⟨hnd, hnd'.map (add_right_injective a), fun i hi j hj => ?_⟩
    obtain ⟨j, -, rfl⟩ := List.mem_map.mp hj
    have := hlt i hi
    omega
  · rcases List.mem_append.mp hi with hi | hi
    · exact Nat.lt_add_right b (hlt i hi)
    · obtain ⟨j, hj, rfl⟩ := List.mem_map.mp hi
      exact Nat.add_lt_add_left (hlt' j hj) a
  · rw [hcount', hcount, UInt64.ofNat_add, add_assoc]
  · rw [hsealed', hsealed, hc, hcount, List.append_assoc, encryptionsAt_append]

theorem Seals.mono {m n : Nat} (hmn : m ≤ n) {s s' : State x} (h : Seals m s s') : Seals n s s' := by
  obtain ⟨he, hc, hl, k, hk, hrest⟩ := h
  exact ⟨he, hc, hl, k, Nat.le_trans hk hmn, hrest⟩

/-- One turn of the loop that encrypts, or the part of it before the
encryption. -/
theorem seals_one (s : State x) {key : List Byte} (hc : s.packetizer.cipher = some key) :
    let s₁ : State x :=
      { s with packetizer := { s.packetizer with gcmIvCounter := s.packetizer.gcmIvCounter + 1 } }
    Seals 1 s s₁ ∧
      Seals 1 s { s₁ with sealed := s₁.sealed ++ [(key, videoIv s.packetizer.gcmIvCounter)] } := by
  refine ⟨⟨rfl, rfl, rfl, 1, Nat.le_refl 1, [], List.nodup_nil, by simp, rfl, ?_⟩,
    ⟨rfl, rfl, rfl, 1, Nat.le_refl 1, [0], List.nodup_singleton 0, by simp, rfl, ?_⟩⟩
  · simp [encryptionsAt]
  · simp [encryptionsAt, hc]

theorem seals_encryptShards (frameNumber : UInt32) {key : List Byte} (n index : Nat) (buf : ShardBuf)
    (s : State x) (hc : s.packetizer.cipher = some key) :
    Seals n s (encryptShards frameNumber key n index buf s).2 := by
  induction n generalizing index buf s with
  | zero => exact (Quiet.refl s).seals 0
  | succ n ih =>
    obtain ⟨h₁, h₂⟩ := seals_one s hc
    rw [encryptShards, Prog.gets_bind, Prog.modify_bind]
    refine Prog.bind_state (h₁.mono (Nat.le_add_left 1 n)) fun data m hm => ?_
    cases (Prod.mk.inj hm).2
    rw [Prog.modify_bind]
    have h₂' := h₂.mono (Nat.le_add_left 1 n)
    refine Prog.bind_state h₂' fun out m hm => ?_
    cases (Prod.mk.inj hm).2
    refine Prog.bind_state h₂' fun buf₁ m hm => ?_
    cases (Prod.mk.inj hm).2
    refine Prog.bind_state h₂' fun buf₂ m hm => ?_
    cases (Prod.mk.inj hm).2
    rw [Nat.add_comm]
    exact h₂.trans (ih _ _ _ (h₂.cipher.trans hc))

theorem seals_block {f : Frame} (h : Valid f) {b : Nat} (hb : b < nrBlocks f) (all : ShardBatch)
    (s : State x) : Seals (blockSize f b) s (block f b all s).2 := by
  have hfill := quiet_fillBlock f b s
  refine Prog.bind_state (hfill.seals _) fun buf s₁ hrun => ?_
  rw [hrun] at hfill
  have hcount : buf.shardCount = blockSize f b := (fillBlock_spec h hb hrun).1.shardCount
  rw [Prog.gets_bind]
  cases hc : s₁.packetizer.cipher with
  | none => exact hfill.seals _
  | some key =>
    have henc := seals_encryptShards f.frameNumber buf.shardCount 0 buf s₁ hc
    rw [hcount] at henc
    have hall := (hfill.seals 0).trans henc
    rw [Nat.zero_add] at hall
    refine Prog.bind_state (hcount ▸ hall) fun buf' m hm => ?_
    have hm' : (encryptShards f.frameNumber key buf.shardCount 0 buf s₁).2 = m := by rw [hm]
    rw [hcount] at hm'
    show Seals _ s m
    rw [← hm']
    exact hall

theorem seals_blocks {f : Frame} (h : Valid f) {n b : Nat} (hn : b + n = nrBlocks f) (hb : b ≤ 3)
    (all : ShardBatch) (s : State x) :
    Seals (offsetFrom f b (blockCount f - b)) s (blocks f n b all s).2 := by
  induction n generalizing b all s with
  | zero => exact (Quiet.refl s).seals _
  | succ n ih =>
    have hcount : blockCount f - b = blockCount f - (b + 1) + 1 := by unfold blockCount; omega
    have hblock := seals_block h (show b < nrBlocks f by omega) all s
    rw [hcount, offsetFrom_succ]
    refine Prog.bind_state (hblock.mono (Nat.le_add_right _ _)) fun all' m hm => ?_
    rw [hm] at hblock
    split
    · exact hblock.mono (Nat.le_add_right _ _)
    · exact hblock.trans (ih (by omega) (by omega) all' m)

/-- The shards of a frame. -/
def frameShards (a : Args) : Nat := blockOffset (a.frame true) (blockCount (a.frame true))

/-- What `packetize` encrypts, after the refresh. -/
theorem packetize_seals (keys : SessionKeyData) (a : Args) (s : State x) :
    Seals (frameShards a) { s with packetizer := s.packetizer.maybeUpdateCipher keys }
      (packetize keys a s).2 := by
  unfold packetize
  rw [Prog.modify_bind]
  generalize hs : ({ s with packetizer := s.packetizer.maybeUpdateCipher keys } : State x) = s₁
  refine Prog.bind_state ((Quiet.refl s₁).seals _) fun p m hm => ?_
  obtain ⟨hp, hm⟩ := Prod.mk.inj hm
  subst hm
  split
  · exact (Quiet.refl s₁).seals _
  rename_i hp0
  rw [Prog.gets_bind]
  split
  · exact (Quiet.refl s₁).seals _
  have hpos : 0 < a.requestedPacketSize - nvVideoPacketSize := by
    unfold checkedSub at hp
    split at hp <;> cases hp
    omega
  have hrun := seals_blocks (valid_frame hpos s₁.packetizer.cipher.isSome) (Nat.zero_add _) (by omega)
    ShardBatch.empty s₁
  -- Whether there is a cipher changes nothing in the division into blocks.
  have hshards : offsetFrom (a.frame s₁.packetizer.cipher.isSome) 0
      (blockCount (a.frame s₁.packetizer.cipher.isSome) - 0) = frameShards a := by
    unfold offsetFrom frameShards blockOffset
    rw [Nat.sub_zero, List.range_eq_range']
    rfl
  rw [hshards] at hrun
  exact hrun

theorem encrypt_maybeUpdateCipher (p : Packetizer x) (keys : SessionKeyData) :
    (p.maybeUpdateCipher keys).encrypt = p.encrypt := by
  unfold maybeUpdateCipher
  split
  · rfl
  · split
    · rfl
    · split <;> rfl

/-- Whether it encrypts is settled when the packetizer is made. -/
theorem encrypt_packetize (keys : SessionKeyData) (a : Args) (s : State x) :
    (packetize keys a s).2.packetizer.encrypt = s.packetizer.encrypt :=
  (packetize_seals keys a s).encrypt.trans (encrypt_maybeUpdateCipher s.packetizer keys)

/-- Warming up fills the encoder cache only. -/
theorem warmUp_kept (p : Packetizer x) (fecPercentage : Byte) (minimumFecPackets : UInt32) :
    (p.warmUp fecPercentage minimumFecPackets).encrypt = p.encrypt ∧
      (p.warmUp fecPercentage minimumFecPackets).cipher = p.cipher ∧
      (p.warmUp fecPercentage minimumFecPackets).lastKeyId = p.lastKeyId := by
  unfold warmUp
  generalize List.range' 1 (nrDataShardsPerBlock fecPercentage) = sizes
  induction sizes generalizing p with
  | nil => exact ⟨rfl, rfl, rfl⟩
  | cons size sizes ih =>
    rw [List.foldl_cons]
    obtain ⟨h₁, h₂, h₃⟩ := ih (if nrParityShards size fecPercentage minimumFecPackets > 0 then
      (getFecEncoder size (nrParityShards size fecPercentage minimumFecPackets) ⟨p, 0, []⟩).2.packetizer
      else p)
    rw [h₁, h₂, h₃]
    split
    · have hquiet := quiet_getFecEncoder size (nrParityShards size fecPercentage minimumFecPackets) ⟨p, 0, []⟩
      exact ⟨hquiet.encrypt, hquiet.cipher, hquiet.lastKeyId⟩
    · exact ⟨rfl, rfl, rfl⟩

theorem encrypt_warmUp (p : Packetizer x) (fecPercentage : Byte) (minimumFecPackets : UInt32) :
    (p.warmUp fecPercentage minimumFecPackets).encrypt = p.encrypt :=
  (warmUp_kept p fecPercentage minimumFecPackets).1

/-- The cipher after the refresh. -/
theorem cipher_maybeUpdateCipher (p : Packetizer x) (keys : SessionKeyData) :
    (p.maybeUpdateCipher keys).cipher =
      if p.encrypt = false ∨ keys.remoteInputKeyId = p.lastKeyId then p.cipher
      else if keys.remoteInputKey.length = 16 then some keys.remoteInputKey else none := by
  unfold maybeUpdateCipher
  split
  · rename_i hoff
    rw [if_pos (Or.inl hoff)]
  · rename_i hon
    split
    · rename_i hid
      rw [if_pos (Or.inr hid)]
    · rename_i hid
      rw [if_neg (not_or.mpr ⟨hon, hid⟩)]
      by_cases hlen : keys.remoteInputKey.length = 16
      · rw [if_neg (not_not.mpr hlen), if_pos hlen]
      · rw [if_pos hlen, if_neg hlen]

theorem lastKeyId_maybeUpdateCipher (p : Packetizer x) (keys : SessionKeyData) (hon : p.encrypt ≠ false) :
    (p.maybeUpdateCipher keys).lastKeyId = keys.remoteInputKeyId := by
  unfold maybeUpdateCipher
  rw [dif_neg hon]
  split
  · rename_i hid
    exact hid.symm
  · split <;> rfl

/-- A packetizer that went through `packetize` has the cipher of its keys. -/
theorem cipher_packetize (keys : SessionKeyData) (a : Args) (s : State x) :
    ((packetize keys a s).2.packetizer.maybeUpdateCipher keys).cipher =
      (s.packetizer.maybeUpdateCipher keys).cipher := by
  have h := packetize_seals keys a s
  rw [cipher_maybeUpdateCipher, if_pos, h.cipher]
  rw [encrypt_packetize, h.lastKeyId]
  by_cases hon : s.packetizer.encrypt = false
  · exact Or.inl hon
  · exact Or.inr (lastKeyId_maybeUpdateCipher s.packetizer keys hon).symm

end Moonshine.Proof.Packetizer
