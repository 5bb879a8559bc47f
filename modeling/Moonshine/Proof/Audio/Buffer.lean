import Moonshine.Impl.Audio.Buffer

/-!
# Draining a playback buffer

A drain takes bytes off the front (`drain_trims`). Where the rates are equal and
a frame has at most 32 channels it takes exactly its frames
(`drain_passthrough`).
-/

namespace Moonshine.Proof.PlaybackBuffer

open Moonshine.Framework Moonshine.Impl Moonshine.Impl.Audio

variable {r : Resampler}

@[simp] theorem lenBytes_write (payload : List Byte) (p : PlaybackBuffer r) :
    (p.write payload).lenBytes = p.lenBytes + payload.length := by
  cases p <;> exact List.length_append

@[simp] theorem lenBytes_clear (p : PlaybackBuffer r) : p.clear.lenBytes = 0 := by
  cases p <;> rfl

theorem lenBytes_new {sampleSpec outputSpec : SampleSpec} {p : PlaybackBuffer r}
    (h : PlaybackBuffer.new sampleSpec outputSpec = .ok p) : p.lenBytes = 0 := by
  unfold PlaybackBuffer.new at h
  extract_lets buffer at h
  split at h
  · cases h
  · split at h
    · cases h
      rfl
    · obtain ⟨converter, -, h⟩ := Outcome.bind_eq_ok.mp h
      cases h
      rfl

/-- `b'` is what is left of `b` after some of its bytes are taken. -/
structure Trims (b b' : Buffer) : Prop where
  inner : b'.inner <:+ b.inner
  sampleSpec : b'.sampleSpec = b.sampleSpec
  outputChannels : b'.outputChannels = b.outputChannels

theorem Trims.refl (b : Buffer) : Trims b b := ⟨List.suffix_rfl, rfl, rfl⟩

theorem Trims.trans {a b c : Buffer} (h : Trims a b) (h' : Trims b c) : Trims a c :=
  ⟨h'.inner.trans h.inner, h'.sampleSpec.trans h.sampleSpec, h'.outputChannels.trans h.outputChannels⟩

theorem Trims.lenBytes_le {b b' : Buffer} (h : Trims b b') : b'.lenBytes ≤ b.lenBytes :=
  h.inner.length_le

theorem next_trims {b b' : Buffer} (h : b.next = .ok b') : Trims b b' := by
  obtain ⟨o, ho, h⟩ := Outcome.bind_eq_ok.mp h
  rw [Outcome.pure_eq, Outcome.ok.injEq] at h
  subst h
  unfold Buffer.readFrame at ho
  split at ho
  · cases ho
    exact Trims.refl b
  · split at ho
    · cases ho
    · cases ho
      exact ⟨List.drop_suffix _ _, rfl, rfl⟩

section Inv

variable {P : Buffer → Prop} (hnext : ∀ b b', P b → b.next = .ok b' → P b')
include hnext

/-- What every frame that is read keeps, the frames of a drain keep. -/
theorem nexts_inv {n : Nat} {b b' : Buffer} (hb : P b) (h : b.nexts n = .ok b') : P b' := by
  induction n generalizing b with
  | zero =>
    cases h
    exact hb
  | succ n ih =>
    obtain ⟨m, hm, h⟩ := Outcome.bind_eq_ok.mp h
    exact ih (hnext b m hb hm) h

theorem convert_inv {n : Nat} {b : Buffer} {c : r.Converter} {res : Buffer × r.Converter} (hb : P b)
    (h : PlaybackBuffer.convert n b c = .ok res) : P res.1 := by
  induction n generalizing b c with
  | zero =>
    cases h
    exact hb
  | succ n ih =>
    obtain ⟨m, hm, h⟩ := Outcome.bind_eq_ok.mp h
    exact ih (nexts_inv hnext hb hm) h

theorem drain_inv {n : Nat} {p p' : PlaybackBuffer r} (hp : P p.buffer) (h : p.drain n = .ok (some p')) :
    P p'.buffer := by
  cases p with
  | passthrough b =>
    rw [PlaybackBuffer.drain] at h
    split at h
    · cases h
    · obtain ⟨b', hb, h⟩ := Outcome.bind_eq_ok.mp h
      cases h
      exact nexts_inv hnext hp hb
  | resampling b c rate =>
    rw [PlaybackBuffer.drain] at h
    split at h
    · cases h
    · obtain ⟨res, hb, h⟩ := Outcome.bind_eq_ok.mp h
      cases h
      exact convert_inv hnext hp hb

end Inv

theorem drain_trims {n : Nat} {p p' : PlaybackBuffer r} (h : p.drain n = .ok (some p')) :
    Trims p.buffer p'.buffer :=
  drain_inv (fun _ _ hb hnext => hb.trans (next_trims hnext)) (Trims.refl p.buffer) h

theorem drain_lenBytes_le {n : Nat} {p p' : PlaybackBuffer r} (h : p.drain n = .ok (some p')) :
    p'.lenBytes ≤ p.lenBytes :=
  (drain_trims h).lenBytes_le

/-- How many frames must be buffered for a drain of `n`. -/
def needed (n : Nat) : PlaybackBuffer r → Nat
  | .passthrough _ => n
  | .resampling buffer _ outputRate =>
    PlaybackBuffer.neededFrames buffer.sampleSpec.sampleRate outputRate n

theorem drain_eq_none {n : Nat} {p : PlaybackBuffer r} (h : p.lenFrames < needed n p) :
    p.drain n = .ok none := by
  cases p <;> exact if_pos h

theorem needed_le_of_drain {n : Nat} {p p' : PlaybackBuffer r} (h : p.drain n = .ok (some p')) :
    needed n p ≤ p.lenFrames := by
  refine Nat.le_of_not_lt fun hlt => ?_
  rw [drain_eq_none hlt] at h
  cases h

def dropFrames (n : Nat) (b : Buffer) : Buffer :=
  { b with inner := b.inner.drop (n * b.sampleSpec.frameSize) }

@[simp] theorem sampleSpec_dropFrames (n : Nat) (b : Buffer) :
    (dropFrames n b).sampleSpec = b.sampleSpec := rfl

@[simp] theorem lenFrames_dropFrames (n : Nat) (b : Buffer) :
    (dropFrames n b).lenFrames = b.lenFrames - n := by
  show (b.inner.drop (n * b.sampleSpec.frameSize)).length / b.sampleSpec.frameSize = _
  rw [List.length_drop, Nat.mul_comm, Nat.sub_mul_div]
  rfl

theorem dropFrames_dropFrames (m n : Nat) (b : Buffer) :
    dropFrames m (dropFrames n b) = dropFrames (m + n) b := by
  simp only [dropFrames, List.drop_drop, Nat.add_mul, Nat.add_comm]

theorem next_of_channels {b : Buffer} (hc : b.sampleSpec.channels.toNat ≤ 32) (hf : 0 < b.lenFrames) :
    b.next = .ok (dropFrames 1 b) := by
  have hpanic : ¬ (b.outputChannels = 2 ∧ 32 < b.sampleSpec.channels.toNat) :=
    fun h => Nat.not_lt.mpr hc h.2
  rw [Buffer.next, Buffer.readFrame, if_neg (Nat.ne_of_gt hf), if_neg hpanic, Nat.min_eq_left hc,
    dropFrames, Nat.one_mul]
  rfl

theorem nexts_of_channels {b : Buffer} (hc : b.sampleSpec.channels.toNat ≤ 32) {n : Nat}
    (hn : n ≤ b.lenFrames) : b.nexts n = .ok (dropFrames n b) := by
  induction n generalizing b with
  | zero => simp only [Buffer.nexts, dropFrames, Nat.zero_mul, List.drop_zero]
  | succ n ih =>
    have hleft : n ≤ (dropFrames 1 b).lenFrames := by
      rw [lenFrames_dropFrames]
      omega
    rw [Buffer.nexts, next_of_channels hc (by omega), Outcome.ok_bind, ih (b := dropFrames 1 b) hc hleft,
      dropFrames_dropFrames]

/-- A drain of a buffer whose rate is the output's. -/
theorem drain_passthrough {b : Buffer} (hc : b.sampleSpec.channels.toNat ≤ 32) {n : Nat} :
    (PlaybackBuffer.passthrough b : PlaybackBuffer r).drain n =
      .ok (if b.lenFrames < n then none else some (.passthrough (dropFrames n b))) := by
  rw [PlaybackBuffer.drain]
  by_cases h : b.lenFrames < n
  · rw [if_pos h, if_pos h]
  · rw [if_neg h, if_neg h, nexts_of_channels hc (Nat.le_of_not_lt h)]
    rfl

end Moonshine.Proof.PlaybackBuffer
