import Moonshine.Framework.Run
import Moonshine.Impl.Stream.Encryption
import Moonshine.Proof.Video.Reassembly
import Moonshine.Proof.Video.Sealing

/-!
# The nonces of a session

The IVs of video shards end in `V`, those of control messages in `C`, so the two
never meet (`videoIv_ne_hostIv`). Among themselves they do meet: the packetizer
starts its counter over whenever it takes up a key under a new id, also one it
has used, and the control loop's sequence number wraps. `no_nonce_reuse` says
that nothing else reuses a nonce, `republished_key` that this does.

The invariant (`Inv`) says which values the counters have gone through under the
key in use.
-/

namespace Moonshine.Proof.Encryption

open Moonshine.Framework Moonshine.Impl Moonshine.Impl.Packetizer Moonshine.Impl.Control
  Moonshine.Impl.Encryption Moonshine.Proof.Packetizer

variable {x : Crates}

theorem videoIv_injective {c d : UInt64} (h : videoIv c = videoIv d) : c = d := by
  have hb := List.append_inj_left' h rfl
  rw [leBytes_inj, show 256 ^ 8 = 2 ^ 64 by decide, Nat.mod_eq_of_lt c.toNat_lt,
    Nat.mod_eq_of_lt d.toNat_lt] at hb
  exact UInt64.toNat.inj hb

theorem hostIv_injective {q r : UInt32} (h : hostIv q = hostIv r) : q = r := by
  have hb := List.append_inj_left' (List.append_inj_left' h rfl) rfl
  rw [leBytes_inj, show 256 ^ 4 = 2 ^ 32 by decide, Nat.mod_eq_of_lt q.toNat_lt,
    Nat.mod_eq_of_lt r.toNat_lt] at hb
  exact UInt32.toNat.inj hb

theorem videoIv_ne_hostIv (c : UInt64) (q : UInt32) : videoIv c ≠ hostIv q := by
  intro h
  have hlast := congrArg List.getLast? h
  simp [videoIv, hostIv, controlIv] at hlast

/-- A cipher with a counter that is not zero is the one from before. -/
theorem maybeUpdateCipher_of_counting {p : Packetizer x} {keys : SessionKeyData} {key : List Byte}
    (hc : (p.maybeUpdateCipher keys).cipher = some key)
    (hn : (p.maybeUpdateCipher keys).gcmIvCounter ≠ 0) :
    p.cipher = some key ∧ p.gcmIvCounter = (p.maybeUpdateCipher keys).gcmIvCounter := by
  unfold maybeUpdateCipher at hc hn ⊢
  by_cases he : p.encrypt = false
  · rw [dif_pos he] at hc ⊢
    exact ⟨hc, rfl⟩
  rw [dif_neg he] at hc hn ⊢
  by_cases hid : keys.remoteInputKeyId = p.lastKeyId
  · rw [if_pos hid] at hc ⊢
    exact ⟨hc, rfl⟩
  rw [if_neg hid] at hc hn
  by_cases hl : keys.remoteInputKey.length ≠ 16
  · rw [if_pos hl] at hc
    cases hc
  · rw [if_neg hl] at hn
    exact absurd rfl hn

/-- The condition on a step. -/
def Fresh (w : World x) (act : Action) (_ : World x) : Prop :=
  match act with
  | .updateKeys _ => True
  | .packetize a => ∀ key, (w.video.packetizer.maybeUpdateCipher w.keys).cipher = some key →
      ((w.video.packetizer.maybeUpdateCipher w.keys).gcmIvCounter = 0 →
        ∀ iv, (key, iv) ∉ w.video.sealed) ∧
      (w.video.packetizer.maybeUpdateCipher w.keys).gcmIvCounter.toNat + frameShards a ≤ 2 ^ 64
  | .send _ _ | .terminate _ => w.keys.remoteInputKey.length = 16 →
      ∀ m < w.controlKeys.length, w.controlKeys[m]? = some w.keys.remoteInputKey →
        ¬ 2 ^ 32 ∣ w.controlKeys.length - m

/-- The shards sealed so far under the key in use have IVs below the counter. -/
def Below (s : State x) : Prop :=
  ∀ key, s.packetizer.cipher = some key → s.packetizer.gcmIvCounter ≠ 0 →
    ∀ iv, (key, iv) ∈ s.sealed → ∃ c < s.packetizer.gcmIvCounter, iv = videoIv c

structure Inv (w : World x) : Prop where
  video_nodup : w.video.sealed.Nodup
  video_iv : ∀ e ∈ w.video.sealed, ∃ c, e.2 = videoIv c
  below : Below w.video
  control_nodup : w.control.sealed.Nodup
  control_iv : ∀ e ∈ w.control.sealed, e.1.length = 16 ∧
    ∃ m < w.controlKeys.length, w.controlKeys[m]? = some e.1 ∧ e.2 = hostIv (UInt32.ofNat m)
  sequenceNumber : w.terminated = false →
    w.control.sequenceNumber = UInt32.ofNat w.controlKeys.length

theorem inv_start (keys : SessionKeyData) : Inv (World.start x keys) where
  video_nodup := List.nodup_nil
  video_iv := fun _ h => absurd h List.not_mem_nil
  below := fun _ h => nomatch h
  control_nodup := List.nodup_nil
  control_iv := fun _ h => absurd h List.not_mem_nil
  sequenceNumber := fun _ => rfl

/-- Under the invariant the two logs have nothing in common. -/
theorem Inv.nodup {w : World x} (h : Inv w) : w.encryptions.Nodup := by
  refine List.nodup_append.mpr ⟨h.video_nodup, h.control_nodup, fun e he e' he' heq => ?_⟩
  subst heq
  obtain ⟨c, hc⟩ := h.video_iv e he
  obtain ⟨-, m, -, -, hm⟩ := h.control_iv e he'
  exact videoIv_ne_hostIv c _ (hc.symm.trans hm)

section Video

variable {s s' : State x} {n : Nat}

theorem toNat_add_ofNat {c : UInt64} {i : Nat} (h : c.toNat + i < 2 ^ 64) :
    (c + UInt64.ofNat i).toNat = c.toNat + i := by
  rw [UInt64.toNat_add, UInt64.toNat_ofNat', Nat.mod_eq_of_lt (show i < 2 ^ 64 by omega),
    Nat.mod_eq_of_lt h]

/-- What a step that seals does to the log, where the IVs in it are below the
counter and the counter does not pass its end. -/
theorem sealed_of_seals (h : Seals n s s') (hnd : s.sealed.Nodup)
    (hiv : ∀ e ∈ s.sealed, ∃ c, e.2 = videoIv c)
    (hfresh : ∀ key, s.packetizer.cipher = some key →
      (∀ iv, (key, iv) ∈ s.sealed → ∃ c < s.packetizer.gcmIvCounter, iv = videoIv c) ∧
        s.packetizer.gcmIvCounter.toNat + n ≤ 2 ^ 64) :
    s'.sealed.Nodup ∧ (∀ e ∈ s'.sealed, ∃ c, e.2 = videoIv c) ∧ Below s' := by
  obtain ⟨-, hcipher, -, k, hk, is, hisnd, hlt, hcount, hsealed⟩ := h
  cases hc : s.packetizer.cipher with
  | none =>
    rw [hc, encryptionsAt, Option.toList_none, List.flatMap_nil, List.append_nil] at hsealed
    rw [hsealed]
    refine ⟨hnd, hiv, fun key hkey => ?_⟩
    rw [hcipher, hc] at hkey
    cases hkey
  | some key =>
    obtain ⟨hold, hfit⟩ := hfresh key hc
    have hnew : encryptionsAt (some key) s.packetizer.gcmIvCounter is =
        is.map fun i => (key, videoIv (s.packetizer.gcmIvCounter + UInt64.ofNat i)) := by
      simp [encryptionsAt]
    rw [hc, hnew] at hsealed
    have hnat : ∀ i ∈ is, (s.packetizer.gcmIvCounter + UInt64.ofNat i).toNat =
        s.packetizer.gcmIvCounter.toNat + i := fun i hi =>
      toNat_add_ofNat (by have := hlt i hi; omega)
    rw [hsealed]
    refine ⟨List.nodup_append.mpr ⟨hnd, ?_, ?_⟩, ?_, ?_⟩
    · refine List.Nodup.map_on (fun i hi j hj heq => ?_) hisnd
      have h := congrArg UInt64.toNat (videoIv_injective (congrArg Prod.snd heq))
      rw [hnat i hi, hnat j hj] at h
      exact Nat.add_left_cancel h
    · intro e he e' he' heq
      subst heq
      obtain ⟨i, hi, rfl⟩ := List.mem_map.mp he'
      obtain ⟨c, hlt', hc'⟩ := hold _ he
      rw [← videoIv_injective hc', UInt64.lt_iff_toNat_lt, hnat i hi] at hlt'
      omega
    · intro e he
      rcases List.mem_append.mp he with he | he
      · exact hiv e he
      · obtain ⟨i, -, rfl⟩ := List.mem_map.mp he
        exact ⟨_, rfl⟩
    · intro key' hkey' hne iv hmem
      rw [hcipher, hc] at hkey'
      cases hkey'
      rw [hcount] at hne ⊢
      -- The counter has not come round to zero, so it is the sum.
      have hsum : s.packetizer.gcmIvCounter.toNat + k < 2 ^ 64 := by
        by_contra hge
        apply hne
        apply UInt64.toNat.inj
        rw [UInt64.toNat_add, UInt64.toNat_ofNat', Nat.add_mod_mod,
          show s.packetizer.gcmIvCounter.toNat + k = 2 ^ 64 by omega, Nat.mod_self]
        rfl
      rw [hsealed] at hmem
      rcases List.mem_append.mp hmem with hmem | hmem
      · obtain ⟨c, hc₁, hc₂⟩ := hold iv hmem
        refine ⟨c, ?_, hc₂⟩
        rw [UInt64.lt_iff_toNat_lt] at hc₁ ⊢
        rw [toNat_add_ofNat hsum]
        omega
      · obtain ⟨i, hi, heq⟩ := List.mem_map.mp hmem
        refine ⟨_, ?_, (congrArg Prod.snd heq).symm⟩
        rw [UInt64.lt_iff_toNat_lt, hnat i hi, toNat_add_ofNat hsum]
        exact Nat.add_lt_add_left (hlt i hi) _

end Video

theorem inv_packetize {w : World x} {a : Args} (h : Inv w)
    (hfresh : Fresh w (.packetize a) { w with video := (packetize w.keys a w.video).2 }) :
    Inv { w with video := (packetize w.keys a w.video).2 } := by
  obtain ⟨h₁, h₂, h₃⟩ := sealed_of_seals (packetize_seals w.keys a w.video) h.video_nodup h.video_iv
    fun key hkey => by
      obtain ⟨hzero, hfit⟩ := hfresh key hkey
      refine ⟨fun iv hmem => ?_, hfit⟩
      by_cases h0 : (w.video.packetizer.maybeUpdateCipher w.keys).gcmIvCounter = 0
      · exact absurd hmem (hzero h0 iv)
      · obtain ⟨hold, hcounter⟩ := maybeUpdateCipher_of_counting hkey h0
        show ∃ c < (w.video.packetizer.maybeUpdateCipher w.keys).gcmIvCounter, _
        rw [← hcounter] at h0 ⊢
        exact h.below key hold h0 iv hmem
  exact ⟨h₁, h₂, h₃, h.control_nodup, h.control_iv, h.sequenceNumber⟩

/-- What the record of the encryptions is after a message. -/
theorem sealed_sendToPeer (g : Aes128Gcm) (connected : Bool) (key payload : List Byte) (l : Loop) :
    (sendToPeer g connected key payload l).sealed =
      l.sealed ++ if key.length = 16 then [(key, hostIv l.sequenceNumber)] else [] := by
  have henc : (encodeControl g key l.sequenceNumber payload l.sealed).2 =
      l.sealed ++ if key.length = 16 then [(key, hostIv l.sequenceNumber)] else [] := by
    unfold encodeControl
    by_cases hl : key.length = 16
    · rw [if_neg (not_not.mpr hl), if_pos hl, Prog.modify_bind]
      refine Prog.bind_state (Q := (· = _)) rfl fun sealed m hm => ?_
      cases (Prod.mk.inj hm).2
      split <;> rfl
    · rw [if_pos hl, if_neg hl, List.append_nil]
      rfl
  unfold sendToPeer
  rw [← henc]
  dsimp only
  split <;> rfl

/-- The logs of the control loop after a message under the next number. -/
theorem inv_control {w : World x} (h : Inv w) (ht : w.terminated = false)
    (hfresh : w.keys.remoteInputKey.length = 16 →
      ∀ m < w.controlKeys.length, w.controlKeys[m]? = some w.keys.remoteInputKey →
        ¬ 2 ^ 32 ∣ w.controlKeys.length - m)
    {control : Loop} {terminated : Bool}
    (hsealed : control.sealed = w.control.sealed ++
      if w.keys.remoteInputKey.length = 16 then
        [(w.keys.remoteInputKey, hostIv w.control.sequenceNumber)] else [])
    (hseq : terminated = false → control.sequenceNumber = w.control.sequenceNumber + 1) :
    Inv { w with control, terminated, controlKeys := w.controlKeys ++ [w.keys.remoteInputKey] } := by
  have hq := h.sequenceNumber ht
  have hold : ∀ e ∈ w.control.sealed, e.1.length = 16 ∧
      ∃ m < (w.controlKeys ++ [w.keys.remoteInputKey]).length,
        (w.controlKeys ++ [w.keys.remoteInputKey])[m]? = some e.1 ∧ e.2 = hostIv (UInt32.ofNat m) :=
    fun e he => by
      obtain ⟨hl, m, hm, hget, hiv⟩ := h.control_iv e he
      refine ⟨hl, m, by rw [List.length_append]; omega, ?_, hiv⟩
      rw [List.getElem?_append_left hm, hget]
  refine ⟨h.video_nodup, h.video_iv, h.below, ?_, ?_, fun hn => ?_⟩
  · rw [hsealed]
    by_cases hl : w.keys.remoteInputKey.length = 16
    · rw [if_pos hl]
      refine List.nodup_append.mpr ⟨h.control_nodup, List.nodup_singleton _, fun e he e' he' heq => ?_⟩
      obtain rfl := List.mem_singleton.mp he'
      subst heq
      obtain ⟨-, m, hm, hget, hiv⟩ := h.control_iv _ he
      refine hfresh hl m hm hget ?_
      rw [hq] at hiv
      have heq := congrArg UInt32.toNat (hostIv_injective hiv)
      rw [UInt32.toNat_ofNat', UInt32.toNat_ofNat'] at heq
      exact (Nat.modEq_iff_dvd' (Nat.le_of_lt hm)).mp heq.symm
    · rw [if_neg hl, List.append_nil]
      exact h.control_nodup
  · intro e he
    rw [hsealed] at he
    rcases List.mem_append.mp he with he | he
    · exact hold e he
    · split at he
      · rename_i hl
        obtain rfl := List.mem_singleton.mp he
        refine ⟨hl, w.controlKeys.length, by simp, by simp, ?_⟩
        rw [hq]
      · exact absurd he List.not_mem_nil
  · rw [List.length_append, List.length_singleton, UInt32.ofNat_add, ← hq]
    exact hseq hn

theorem inv_step {w w' : World x} {act : Action} (h : Inv w) (hs : step w act = some w')
    (hfresh : Fresh w act w') : Inv w' := by
  cases act with
  | updateKeys keys =>
    cases hs
    exact ⟨h.video_nodup, h.video_iv, h.below, h.control_nodup, h.control_iv, h.sequenceNumber⟩
  | packetize a =>
    cases hs
    exact inv_packetize h hfresh
  | send connected payload =>
    simp only [step] at hs
    split at hs
    · cases hs
    · rename_i ht
      cases hs
      rw [Bool.not_eq_true] at ht
      exact inv_control h ht hfresh (sealed_sendToPeer _ _ _ _ _) fun _ => rfl
  | terminate connected =>
    simp only [step] at hs
    split at hs
    · cases hs
    · rename_i ht
      cases hs
      rw [Bool.not_eq_true] at ht
      exact inv_control h ht hfresh (sealed_sendToPeer _ _ _ _ _) fun hn => nomatch hn

/-- In a session whose steps are all fresh, no two encryptions have the same key
and IV. -/
theorem no_nonce_reuse (keys : SessionKeyData) (acts : List Action) {w : World x}
    (hfresh : EveryStep step Fresh (World.start x keys) acts)
    (hrun : exec step (World.start x keys) acts = some w) : w.encryptions.Nodup :=
  (EveryStep.keeps (fun _ _ _ => inv_step) (inv_start keys) hfresh hrun).nodup

/-- One encryption of AES-128-GCM. -/
structure Vector where
  key : List Byte
  nonce : List Byte
  plaintext : List Byte
  ciphertext : List Byte
  tag : List Byte

/-- The cipher on recorded encryptions; it fails on any other. -/
def ofVectors (vs : List Vector)
    (hlen : ∀ v ∈ vs, v.ciphertext.length = v.plaintext.length ∧ v.tag.length = 16)
    (hinj : ∀ v ∈ vs, ∀ w ∈ vs, w.key = v.key ∧ w.nonce = v.nonce ∧ w.ciphertext = v.ciphertext ∧
      w.tag = v.tag → w.plaintext = v.plaintext) : Aes128Gcm where
  encryptInPlaceDetached key nonce buffer :=
    (vs.find? fun v => v.key = key ∧ v.nonce = nonce ∧ v.plaintext = buffer).map fun v =>
      (v.ciphertext, v.tag)
  decryptInPlaceDetached key nonce buffer tag :=
    (vs.find? fun v => v.key = key ∧ v.nonce = nonce ∧ v.ciphertext = buffer ∧ v.tag = tag).map
      Vector.plaintext
  encrypt_length := by
    intro key nonce buffer out h
    obtain ⟨v, hv, rfl⟩ := Option.map_eq_some_iff.mp h
    have hp : v.key = key ∧ v.nonce = nonce ∧ v.plaintext = buffer := by
      simpa using List.find?_some hv
    obtain ⟨hl, ht⟩ := hlen v (List.mem_of_find?_eq_some hv)
    exact ⟨hl.trans (congrArg List.length hp.2.2), ht⟩
  decrypt_encrypt := by
    intro key nonce buffer out h
    obtain ⟨v, hv, rfl⟩ := Option.map_eq_some_iff.mp h
    have hp : v.key = key ∧ v.nonce = nonce ∧ v.plaintext = buffer := by
      simpa using List.find?_some hv
    have hmem := List.mem_of_find?_eq_some hv
    dsimp only
    cases hf : vs.find? fun w => w.key = key ∧ w.nonce = nonce ∧ w.ciphertext = v.ciphertext ∧
        w.tag = v.tag with
    | none =>
      have := List.find?_eq_none.mp hf v hmem
      simp [hp.1, hp.2.1] at this
    | some w =>
      have hw : w.key = key ∧ w.nonce = nonce ∧ w.ciphertext = v.ciphertext ∧ w.tag = v.tag := by
        simpa using List.find?_some hf
      have heq := hinj v hmem w (List.mem_of_find?_eq_some hf)
        ⟨hw.1.trans hp.1.symm, hw.2.1.trans hp.2.1.symm, hw.2.2⟩
      rw [Option.map_some, heq, hp.2.2]

def exampleKey : List Byte := [0, 1, 2, 3, 4, 5, 6, 7, 8, 9, 10, 11, 12, 13, 14, 15]

/-- A frame of one shard. -/
def exampleFrame (frameNumber : UInt32) : Args := ⟨[1, 2, 3, 4], true, 28, 0, 0, frameNumber, 0, 0⟩

/-- The shards of the frames 1 and 2, and the termination message. -/
def exampleVectors : List Vector := [
  ⟨exampleKey, videoIv 0,
    [144, 0, 0, 0, 0, 0, 0, 0, 0, 0, 0, 0, 0, 0, 0, 0, 0, 0, 0, 0, 1, 0, 0, 0, 7, 0, 16, 0, 0, 0,
     64, 0, 1, 0, 0, 2, 12, 0, 0, 0, 1, 2, 3, 4],
    [79, 51, 119, 45, 214, 139, 54, 187, 252, 121, 41, 134, 86, 37, 236, 88, 25, 156, 185, 250, 162,
     235, 67, 230, 97, 220, 200, 15, 5, 177, 45, 93, 254, 62, 28, 131, 135, 15, 209, 112, 174, 179,
     165, 221],
    [141, 38, 213, 90, 83, 15, 59, 240, 60, 191, 74, 120, 122, 132, 167, 77]⟩,
  ⟨exampleKey, videoIv 0,
    [144, 0, 0, 1, 0, 0, 0, 0, 0, 0, 0, 0, 0, 0, 0, 0, 0, 1, 0, 0, 2, 0, 0, 0, 7, 0, 16, 0, 0, 0,
     64, 0, 1, 0, 0, 2, 12, 0, 0, 0, 1, 2, 3, 4],
    [79, 51, 119, 44, 214, 139, 54, 187, 252, 121, 41, 134, 86, 37, 236, 88, 25, 157, 185, 250, 161,
     235, 67, 230, 97, 220, 200, 15, 5, 177, 45, 93, 254, 62, 28, 131, 135, 15, 209, 112, 174, 179,
     165, 221],
    [160, 202, 93, 114, 248, 106, 231, 199, 47, 39, 9, 118, 206, 83, 161, 164]⟩,
  ⟨exampleKey, hostIv 0,
    [9, 1, 4, 0, 128, 3, 0, 35],
    [242, 221, 78, 218, 207, 59, 232, 1],
    [184, 53, 162, 184, 172, 232, 87, 221, 203, 173, 56, 93, 206, 22, 106, 169]⟩
]

def exampleCrates : Crates :=
  { repetition with toAes128Gcm := ofVectors exampleVectors (by decide) (by decide) }

theorem no_nonce_reuse_small :
    ∃ w, exec step (World.start exampleCrates ⟨exampleKey, 1⟩)
        [.packetize (exampleFrame 1), .terminate true] = some w ∧
      w.encryptions = [(exampleKey, videoIv 0), (exampleKey, hostIv 0)] ∧ w.encryptions.Nodup := by
  refine ⟨_, rfl, by decide, no_nonce_reuse ⟨exampleKey, 1⟩
    [.packetize (exampleFrame 1), .terminate true] (fun s' hs => ⟨fun key hkey => ?_, ?_⟩) rfl⟩
  · exact ⟨fun _ _ => List.not_mem_nil, by decide⟩
  · rintro s'' hs'
    cases hs
    exact ⟨fun _ m hm => absurd hm (Nat.not_lt_zero m), trivial⟩

/-- A key published again under another id starts its IVs over. -/
theorem republished_key :
    ∃ w, exec step (World.start exampleCrates ⟨exampleKey, 1⟩)
        [.packetize (exampleFrame 1), .updateKeys ⟨exampleKey, 2⟩, .packetize (exampleFrame 2)] =
          some w ∧
      w.encryptions = [(exampleKey, videoIv 0), (exampleKey, videoIv 0)] ∧ ¬ w.encryptions.Nodup :=
  ⟨_, rfl, by decide +kernel, by decide +kernel⟩

end Moonshine.Proof.Encryption
