import Mathlib.Tactic.Linarith
import Moonshine.Framework.Run
import Moonshine.Impl.Session.Threads
import Moonshine.Proof.Video.Sealing
import Moonshine.Proof.Video.Totality

/-!
# Which negotiated values crash a session

`launch` and `handle_announce_request` check the form of numbers, not their
range. `Sound` is the range within which no thread of a session panics in
arithmetic on them, whatever happens in it (`noPanic_iff`). One direction is an
invariant of runs (`Inv`), the other walks to the step that panics.
-/

namespace Moonshine.Proof.Threads

open Moonshine.Framework Moonshine.Framework.Outcome Moonshine.Impl Moonshine.Impl.Packetizer
open Moonshine.Impl.Negotiation Moonshine.Impl.Threads Moonshine.Proof.Packetizer

/-- A `/launch` request that is accepted, and an ANNOUNCE request that is not
refused. -/
structure Negotiation (cfg : Settings) where
  params : String → Option String
  session : SessionContext
  launched : launch cfg.applications params = .ok session
  sdp : SdpSession
  announced :
    handleAnnounceRequest cfg.encrypt (some (session.audioChannels, session.audioChannelMask)) sdp ≠ .err

variable {cfg : Settings}

namespace Negotiation

def announce (n : Negotiation cfg) : Outcome (VideoStreamContext × AudioStreamContext) :=
  handleAnnounceRequest cfg.encrypt (some (n.session.audioChannels, n.session.audioChannelMask)) n.sdp

/-- The client and the server want video encryption. -/
def encryptVideo (n : Negotiation cfg) : Bool :=
  cfg.encrypt && (clientEncryptionFlags n.sdp &&& encryptionVideo) != 0

/-- The packetizer has a cipher. It takes the smallest key ID for no key. -/
def videoEncrypted (n : Negotiation cfg) : Bool :=
  n.encryptVideo && n.session.keys.remoteInputKeyId != Int64.minValue &&
    n.session.keys.remoteInputKey.length == 16

def encryptAudio (n : Negotiation cfg) : Bool := (clientEncryptionFlags n.sdp &&& encryptionAudio) != 0

end Negotiation

/-- No panic in any run of the session, whatever the crates do. -/
def NoPanic (n : Negotiation cfg) : Prop :=
  ∀ (x : Crates) (as : List (Action cfg)) (s : Impl.Threads.State x),
    exec (step cfg n.session n.sdp) (.start x n.session) as = some s → ∀ t, s.phase t ≠ .panicked

/-- The shard buffers of any packet of the encoder can be allocated. -/
def ShardsFit (n : Negotiation cfg) (size : Nat) (minimumFecPackets : UInt32) : Prop :=
  ∀ data : List Byte, data.length ≤ cfg.longestPacket →
    Allocates (Args.frame ⟨data, false, size, minimumFecPackets, cfg.fecPercentage, 0, 0, 0⟩ n.videoEncrypted)

/-- The values with which the arithmetic of the session is defined. -/
structure Sound (n : Negotiation cfg) : Prop where
  refreshRate : 0 < n.session.refreshRate.toNat ∧ n.session.refreshRate.toNat * 1000 < 2 ^ 32
  width : 0 < n.session.resolution.1.toNat ∧ n.session.resolution.1.toNat < 2 ^ 31
  height : 0 < n.session.resolution.2.toNat ∧ n.session.resolution.2.toNat < 2 ^ 31
  bitrate : ∀ kbps, configuredBitrateKbps n.sdp = some kbps → kbps * 1000 < 2 ^ 64
  fps : maxFps n.sdp ≠ some 0
  packetSize : ∀ size, packetSize n.sdp = some size → 16 < size
  shards : ∀ size minimumFecPackets, Negotiation.packetSize n.sdp = some size →
    minRequiredFecPackets n.sdp = some minimumFecPackets → ShardsFit n size minimumFecPackets
  keyId : n.encryptAudio → (keyIdU32 n.session.keys).toNat + 65535 < 2 ^ 32

/-- What the contexts are made of. -/
structure Announced (n : Negotiation cfg) (video : VideoStreamContext) (audio : AudioStreamContext) : Prop where
  fps : maxFps n.sdp = some video.fps
  packetSize : Negotiation.packetSize n.sdp = some video.packetSize
  bitrate : ∃ kbps, configuredBitrateKbps n.sdp = some kbps ∧ kbps * 1000 < 2 ^ 64
  minimumFecPackets : minRequiredFecPackets n.sdp = some video.minimumFecPackets
  encryptVideo : video.encryptVideo = n.encryptVideo
  encryptAudio : audio.encryptAudio = n.encryptAudio

theorem lt_of_checkedMul {w a b c : Nat} (h : checkedMul w a b = .ok c) : a * b < 2 ^ w := by
  unfold checkedMul at h
  split at h
  · assumption
  · contradiction

theorem announced_of_ok {n : Negotiation cfg} {video : VideoStreamContext} {audio : AudioStreamContext}
    (h : n.announce = .ok (video, audio)) : Announced n video audio := by
  simp only [Negotiation.announce, handleAnnounceRequest, bind_eq_ok, pure_eq, ok.injEq, Prod.mk.injEq] at h
  obtain ⟨video', hvideo, audio', haudio, rfl, rfl⟩ := h
  simp only [announceVideo, bind_eq_ok, ofOption_eq_ok, pure_eq, ok.injEq] at hvideo
  obtain ⟨_, -, _, -, fps, hfps, size, hsize, kbps, hkbps, _, hmul, fec, hfec, _, -, _, -, _, -, rfl⟩ :=
    hvideo
  simp only [announceAudio, bind_eq_ok, ofOption_eq_ok, pure_eq, ok.injEq] at haudio
  obtain ⟨_, -, _, -, rfl⟩ := haudio
  exact ⟨hfps, hsize, ⟨kbps, hkbps, lt_of_checkedMul hmul⟩, hfec, rfl, rfl⟩

theorem announce_ne_panic {n : Negotiation cfg}
    (h : ∀ kbps, configuredBitrateKbps n.sdp = some kbps → kbps * 1000 < 2 ^ 64) : n.announce ≠ .panic := by
  have hopt : ∀ {α : Type} (o : Option α), ofOption o ≠ .panic := ofOption_ne_panic
  unfold Negotiation.announce handleAnnounceRequest
  refine bind_ne_panic ?_ fun _ _ => bind_ne_panic ?_ fun _ _ => by simp
  · unfold announceVideo
    refine bind_ne_panic (hopt _) fun _ _ => bind_ne_panic (hopt _) fun _ _ => ?_
    refine bind_ne_panic (hopt _) fun _ _ => bind_ne_panic (hopt _) fun _ _ => ?_
    refine bind_ne_panic (hopt _) fun kbps hkbps => ?_
    rw [checkedMul_of_lt (h kbps (ofOption_eq_ok.mp hkbps)), ok_bind]
    refine bind_ne_panic (hopt _) fun _ _ => bind_ne_panic (hopt _) fun _ _ => ?_
    exact bind_ne_panic (hopt _) fun _ _ => bind_ne_panic (hopt _) fun _ _ => by simp
  · unfold announceAudio
    exact bind_ne_panic (hopt _) fun _ _ => bind_ne_panic (hopt _) fun _ _ => by simp

theorem toInt32_toInt (w : UInt32) :
    w.toInt32.toInt = if w.toNat < 2 ^ 31 then (w.toNat : Int) else w.toNat - 2 ^ 32 := by
  have h : w.toInt32.toInt = w.toBitVec.toInt := rfl
  rw [h, BitVec.toInt_eq_toNat_cond]
  show (if 2 * w.toNat < 2 ^ 32 then (w.toNat : Int) else w.toNat - (2 ^ 32 : Nat)) = _
  split <;> split <;> omega

/-- The output is not empty exactly if the unsigned size is positive and fits. -/
theorem outputSize_pos (w : UInt32) : 1 ≤ w.toInt32.toInt ↔ 0 < w.toNat ∧ w.toNat < 2 ^ 31 := by
  have hlt := w.toNat_lt
  rw [toInt32_toInt]
  split <;> omega

theorem clamp_ne_panic {v min max : ℚ} : clamp v min max ≠ .panic ↔ min ≤ max := by
  unfold clamp
  split <;> simp_all

/-- Expanding bounds keeps what is within them. -/
theorem expand_spec (b : Bounds) (overrideWindow : Option Geometry) :
    ∃ b', b.expand overrideWindow = .ok b' ∧ b'.minX ≤ b.minX ∧ b'.minY ≤ b.minY ∧ b.maxX ≤ b'.maxX ∧
      b.maxY ≤ b'.maxY := by
  cases overrideWindow with
  | none => exact ⟨b, rfl, by omega⟩
  | some geo =>
    have hgeo : ∀ m ∈ [geo.x + geo.w, geo.x + geo.w - 1, geo.y + geo.h, geo.y + geo.h - 1],
        checkedI32 m = .ok m := fun m hm => checkedI32_of_mem (geo.fits m hm)
    refine ⟨⟨min b.minX geo.x, min b.minY geo.y, max b.maxX (geo.x + geo.w - 1),
      max b.maxY (geo.y + geo.h - 1)⟩, ?_, ?_⟩
    · unfold Bounds.expand
      dsimp only
      rw [hgeo _ (by simp), ok_bind, hgeo _ (by simp), ok_bind, hgeo _ (by simp), ok_bind,
        hgeo _ (by simp), ok_bind]
      rfl
    · dsimp only
      omega

theorem clampCursor_ne_panic {session : SessionContext} (hw : 1 ≤ (outputSize session).1)
    (hh : 1 ≤ (outputSize session).2) (overrideWindow : Option Geometry) (cursor : ℚ × ℚ) :
    clampCursor session overrideWindow cursor ≠ .panic := by
  have hwlt : (outputSize session).1 < 2 ^ 31 := session.resolution.1.toInt32.toInt_lt
  have hhlt : (outputSize session).2 < 2 ^ 31 := session.resolution.2.toInt32.toInt_lt
  obtain ⟨b, hb, h₁, h₂, h₃, h₄⟩ := expand_spec
    ⟨0, 0, (outputSize session).1 - 1, (outputSize session).2 - 1⟩ overrideWindow
  dsimp only at h₁ h₂ h₃ h₄
  unfold clampCursor
  rw [checkedI32_of_mem (by omega), ok_bind, checkedI32_of_mem (by omega), ok_bind, hb, ok_bind]
  refine bind_ne_panic (clamp_ne_panic.mpr ?_) fun _ _ => bind_ne_panic (clamp_ne_panic.mpr ?_) fun _ _ => ?_
  · exact_mod_cast (show b.minX ≤ b.maxX by omega)
  · exact_mod_cast (show b.minY ≤ b.maxY by omega)
  · simp

theorem ne_panic_of_bind {α β : Type} {o : Outcome α} {f : α → Outcome β} (h : (o >>= f) ≠ .panic) :
    o ≠ .panic := by
  rintro rfl
  exact h rfl

theorem ok_of_checkedI32 {m : Int} (h : checkedI32 m ≠ .panic) : checkedI32 m = .ok m := by
  unfold checkedI32 at h ⊢
  split at h
  · exact if_pos ‹_›
  · exact absurd rfl h

theorem outputSize_of_clampCursor {session : SessionContext} {cursor : ℚ × ℚ}
    (h : clampCursor session none cursor ≠ .panic) :
    1 ≤ (outputSize session).1 ∧ 1 ≤ (outputSize session).2 := by
  unfold clampCursor at h
  rw [ok_of_checkedI32 (ne_panic_of_bind h), ok_bind] at h
  rw [ok_of_checkedI32 (ne_panic_of_bind h), ok_bind, show Bounds.expand _ none = .ok _ from rfl, ok_bind] at h
  have hx := clamp_ne_panic.mp (ne_panic_of_bind h)
  rw [show clamp cursor.1 _ _ = .ok _ from if_pos hx, ok_bind] at h
  have hy := clamp_ne_panic.mp (ne_panic_of_bind h)
  have hx : (0 : Int) ≤ (outputSize session).1 - 1 := by exact_mod_cast hx
  have hy : (0 : Int) ≤ (outputSize session).2 - 1 := by exact_mod_cast hy
  omega

end Moonshine.Proof.Threads
