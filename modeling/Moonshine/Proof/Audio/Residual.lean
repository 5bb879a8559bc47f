import Moonshine.Proof.Audio.Drained
import Moonshine.Proof.Audio.Streams

/-!
# What ticks leave of a buffer

Where the converter takes its frames at the exact ratio (`Exact`), what `m` frames
of output take of a buffer is known beforehand (`framesTaken`), and so are the bytes
they leave (`bytesAfter`). A stream is drained within `n` ticks (`Drainable`) exactly
if one of them finds the frames it needs and leaves less than a frame (`leaves_iff`).
-/

namespace Moonshine.Proof.PlaybackBuffer

open Moonshine.Framework Moonshine.Impl Moonshine.Impl.Audio
open Moonshine.Proof.PulseServer

/-- A converter that takes a frame of its source for each whole step of the ratio
of its rates. -/
structure Exact (r : Resampler) where
  position : r.Converter → Audio.Sampled.Position
  rates : ∀ {source target : UInt32} {c : r.Converter}, r.fromHzToHz source target = .ok c →
    (position c).source = source.toNat ∧ (position c).target = target.toNat
  next_takes : ∀ c, (r.next c).1 = (position c).pulls
  next_position : ∀ c, position (r.next c).2 = (position c).advance

theorem rates_of_fromHzToHz {source target : UInt32} {p : Audio.Sampled.Position}
    (h : Audio.Sampled.Position.fromHzToHz source target = .ok p) :
    p.source = source.toNat ∧ p.target = target.toNat := by
  unfold Audio.Sampled.Position.fromHzToHz at h
  split at h
  · cases h
    exact ⟨rfl, rfl⟩
  · cases h

def exact : Exact Audio.Sampled.exactResampler where
  position := fun p : Audio.Sampled.Position => p
  rates := rates_of_fromHzToHz
  next_takes := fun _ : Audio.Sampled.Position => rfl
  next_position := fun _ : Audio.Sampled.Position => rfl

variable {r : Resampler}

section Buffer

variable {b : Buffer}

/-- More channels than samples of a frame are read, where all of them are mixed. -/
def Overread (b : Buffer) : Prop := b.outputChannels = 2 ∧ 32 < b.sampleSpec.channels.toNat

instance (b : Buffer) : Decidable (Overread b) := inferInstanceAs (Decidable (_ ∧ _))

/-- The bytes that the reading of a frame takes. -/
def readLen (b : Buffer) : Nat :=
  min b.sampleSpec.channels.toNat 32 * b.sampleSpec.format.bytesPerSample

theorem readLen_le (b : Buffer) : readLen b ≤ b.sampleSpec.frameSize :=
  Nat.mul_le_mul_right _ (Nat.min_le_left ..)

def skip (n : Nat) (b : Buffer) : Buffer := { b with inner := b.inner.drop n }

@[simp] theorem sampleSpec_skip (n : Nat) : (skip n b).sampleSpec = b.sampleSpec := rfl

@[simp] theorem lenBytes_skip (n : Nat) : (skip n b).lenBytes = b.lenBytes - n := List.length_drop

@[simp] theorem readLen_skip (n : Nat) : readLen (skip n b) = readLen b := rfl

@[simp] theorem skip_zero : skip 0 b = b := rfl

theorem skip_skip (m n : Nat) : skip m (skip n b) = skip (n + m) b := by
  simp only [skip, List.drop_drop]

theorem lenFrames_eq_zero (hframe : 0 < b.sampleSpec.frameSize) :
    b.lenFrames = 0 ↔ b.lenBytes < b.sampleSpec.frameSize := by
  show b.inner.length / b.sampleSpec.frameSize = 0 ↔ _
  rw [Nat.div_eq_zero_iff]
  exact or_iff_right (Nat.ne_of_gt hframe)

theorem le_lenFrames (hframe : 0 < b.sampleSpec.frameSize) {n : Nat} :
    n ≤ b.lenFrames ↔ n * b.sampleSpec.frameSize ≤ b.lenBytes :=
  Nat.le_div_iff_mul_le hframe

theorem nexts_of_le (hframe : 0 < b.sampleSpec.frameSize) (hover : ¬Overread b) {n : Nat}
    (hn : n * b.sampleSpec.frameSize ≤ b.lenBytes) : b.nexts n = .ok (skip (n * readLen b) b) := by
  induction n generalizing b with
  | zero => rw [Buffer.nexts, Nat.zero_mul, skip_zero]
  | succ n ih =>
    have hle := readLen_le b
    rw [Nat.add_mul, Nat.one_mul] at hn ⊢
    have hnext : b.next = .ok (skip (readLen b) b) := by
      have hframes : b.lenFrames ≠ 0 := fun h => by
        have := (lenFrames_eq_zero hframe).mp h
        omega
      have hread : ¬(b.outputChannels = 2 ∧ 32 < b.sampleSpec.channels.toNat) := hover
      rw [Buffer.next, Buffer.readFrame, if_neg hframes, if_neg hread]
      rfl
    have hleft : n * (skip (readLen b) b).sampleSpec.frameSize ≤ (skip (readLen b) b).lenBytes := by
      rw [sampleSpec_skip, lenBytes_skip]
      omega
    rw [Buffer.nexts, hnext, Outcome.ok_bind, ih (b := skip (readLen b) b) hframe hover hleft, readLen_skip,
      skip_skip, Nat.add_comm]

end Buffer

variable {x : Exact r}

/-- The frames of a buffer that `m` frames of output take. -/
def framesTaken (x : Exact r) : PlaybackBuffer r → Nat → Nat
  | .passthrough _, m => m
  | .resampling _ c _, m => Sampled.takes (x.position c) m

/-- The bytes that `m` frames of output leave. -/
def bytesAfter (x : Exact r) (p : PlaybackBuffer r) (m : Nat) : Nat :=
  p.lenBytes - framesTaken x p m * readLen p.buffer

/-- The converter of a buffer goes from the rate of the stream to that of the output. -/
structure Tuned (x : Exact r) (p : PlaybackBuffer r) : Prop where
  frame : 0 < p.buffer.sampleSpec.frameSize
  rates : ∀ b c outputRate, p = .resampling b c outputRate →
    (x.position c).source = b.sampleSpec.sampleRate.toNat ∧ (x.position c).target = outputRate.toNat

/-- A tick before the `n`th finds the frames it needs, and leaves less than one. -/
def Leaves (x : Exact r) (numFrames n : Nat) (p : PlaybackBuffer r) : Prop :=
  ¬Overread p.buffer ∧ ∃ k < n,
    needed numFrames p * p.buffer.sampleSpec.frameSize ≤ bytesAfter x p (k * numFrames) ∧
    bytesAfter x p ((k + 1) * numFrames) < p.buffer.sampleSpec.frameSize

section Tick

variable {p : PlaybackBuffer r} {numFrames : Nat}

@[simp] theorem framesTaken_zero (p : PlaybackBuffer r) : framesTaken x p 0 = 0 := by
  cases p <;> rfl

@[simp] theorem bytesAfter_zero (p : PlaybackBuffer r) : bytesAfter x p 0 = p.lenBytes := by
  rw [bytesAfter, framesTaken_zero, Nat.zero_mul, Nat.sub_zero]

theorem bytesAfter_le (p : PlaybackBuffer r) (m : Nat) : bytesAfter x p m ≤ p.lenBytes := Nat.sub_le ..

/-- Frames of the converter that are there. -/
theorem convert_of_le {b : Buffer} {c : r.Converter} (hframe : 0 < b.sampleSpec.frameSize)
    (hover : ¬Overread b) {n : Nat}
    (hn : Sampled.takes (x.position c) n * b.sampleSpec.frameSize ≤ b.lenBytes) :
    ∃ c', PlaybackBuffer.convert n b c = .ok (skip (Sampled.takes (x.position c) n * readLen b) b, c') ∧
      (x.position c').source = (x.position c).source ∧ (x.position c').target = (x.position c).target ∧
      ∀ m, Sampled.takes (x.position c) (n + m) =
        Sampled.takes (x.position c) n + Sampled.takes (x.position c') m := by
  induction n generalizing b c with
  | zero =>
    refine ⟨c, ?_, rfl, rfl, fun m => ?_⟩
    · rw [PlaybackBuffer.convert, Sampled.takes, if_pos rfl, Nat.zero_mul, skip_zero]
    · rw [Nat.zero_add, Sampled.takes_eq _ 0, PhaseAccumulator.taken, Nat.zero_add]
  | succ n ih =>
    have hle := Nat.mul_le_mul_left (x.position c).pulls (readLen_le b)
    have hposition := x.next_position c
    rw [Sampled.takes_succ, Nat.add_mul] at hn
    obtain ⟨c', hconvert, hsource, htarget, htakes⟩ := ih (c := (r.next c).2)
      (b := skip ((x.position c).pulls * readLen b) b) hframe hover (by
        rw [sampleSpec_skip, lenBytes_skip, hposition]
        omega)
    refine ⟨c', ?_, ?_, ?_, fun m => ?_⟩
    · rw [PlaybackBuffer.convert, x.next_takes, nexts_of_le hframe hover (by omega), Outcome.ok_bind,
        hconvert, hposition, readLen_skip, skip_skip, Sampled.takes_succ, Nat.add_mul]
    · rw [hsource, hposition]
      rfl
    · rw [htarget, hposition]
      rfl
    · rw [Nat.add_right_comm, Sampled.takes_succ, ← hposition, htakes, Sampled.takes_succ, ← hposition,
        Nat.add_assoc]

theorem framesTaken_le_needed (h : Tuned x p) : framesTaken x p numFrames ≤ needed numFrames p := by
  cases p with
  | passthrough b => exact Nat.le_refl numFrames
  | resampling b c outputRate =>
    obtain ⟨hsource, htarget⟩ := h.rates b c outputRate rfl
    show Sampled.takes (x.position c) numFrames ≤
      (b.sampleSpec.sampleRate.toNat * numFrames + outputRate.toNat - 1) / outputRate.toNat
    rw [← hsource, ← htarget, Sampled.takes_eq]
    exact PhaseAccumulator.taken_le (x.position c).target_pos (x.position c).phase_lt numFrames

theorem needed_pos (h : Tuned x p) (hframes : 0 < numFrames) : 0 < needed numFrames p := by
  cases p with
  | passthrough b => exact hframes
  | resampling b c outputRate =>
    obtain ⟨hsource, htarget⟩ := h.rates b c outputRate rfl
    have hpos := Nat.mul_pos (x.position c).source_pos hframes
    show 0 < (b.sampleSpec.sampleRate.toNat * numFrames + outputRate.toNat - 1) / outputRate.toNat
    rw [← hsource, ← htarget]
    exact Nat.div_pos (by omega) (x.position c).target_pos

/-- A tick that finds the frames it needs. -/
theorem drain_of_needed (h : Tuned x p) (hover : ¬Overread p.buffer)
    (hle : needed numFrames p ≤ p.lenFrames) :
    ∃ p', p.drain numFrames = .ok (some p') ∧ Tuned x p' ∧ needed numFrames p' = needed numFrames p ∧
      p'.buffer = skip (framesTaken x p numFrames * readLen p.buffer) p.buffer ∧
      ∀ m, framesTaken x p (numFrames + m) = framesTaken x p numFrames + framesTaken x p' m := by
  have hbytes : framesTaken x p numFrames * p.buffer.sampleSpec.frameSize ≤ p.lenBytes :=
    Nat.le_trans (Nat.mul_le_mul_right _ (framesTaken_le_needed h)) ((le_lenFrames h.frame).mp hle)
  cases p with
  | passthrough b =>
    refine ⟨.passthrough (skip (numFrames * readLen b) b), ?_, ⟨h.frame, by simp⟩, rfl, rfl, fun m => rfl⟩
    have hframes : ¬b.lenFrames < numFrames := Nat.not_lt.mpr hle
    have hnexts : b.nexts numFrames = .ok (skip (numFrames * readLen b) b) := nexts_of_le h.frame hover hbytes
    rw [PlaybackBuffer.drain, if_neg hframes, hnexts]
    rfl
  | resampling b c outputRate =>
    obtain ⟨hsource, htarget⟩ := h.rates b c outputRate rfl
    obtain ⟨c', hconvert, hsource', htarget', htakes⟩ := convert_of_le (x := x) h.frame hover hbytes
    refine ⟨.resampling (skip (Sampled.takes (x.position c) numFrames * readLen b) b) c' outputRate, ?_,
      ⟨h.frame, ?_⟩, rfl, rfl, htakes⟩
    · have hframes : ¬b.lenFrames < PlaybackBuffer.neededFrames b.sampleSpec.sampleRate outputRate numFrames :=
        Nat.not_lt.mpr hle
      have hconverted : PlaybackBuffer.convert numFrames b c = _ := hconvert
      rw [PlaybackBuffer.drain, if_neg hframes, hconverted]
      rfl
    · rintro _ _ _ heq
      cases heq
      exact ⟨hsource'.trans hsource, htarget'.trans htarget⟩

/-- A tick of a stream that is overread and has a frame takes nothing, or panics. -/
theorem drain_of_overread {p' : PlaybackBuffer r} (hover : Overread p.buffer) (hframes : 0 < p.lenFrames)
    (h : p.drain numFrames = .ok (some p')) : p'.buffer = p.buffer := by
  refine drain_inv (P := fun b => b = p.buffer) (fun b b' hb hnext => ?_) rfl h
  subst hb
  have hread : p.buffer.outputChannels = 2 ∧ 32 < p.buffer.sampleSpec.channels.toNat := hover
  have hlen : p.buffer.lenFrames ≠ 0 := Nat.ne_of_gt hframes
  rw [Buffer.next, Buffer.readFrame, if_neg hlen, if_pos hread] at hnext
  cases hnext

end Tick

/-- One of the next `n` ticks takes the last frame of the buffer. -/
def Drainable (numFrames : Nat) : Nat → PlaybackBuffer r → Prop
  | 0, _ => False
  | n + 1, p => ∃ p', p.drain numFrames = .ok (some p') ∧ (p'.isEmpty ∨ Drainable numFrames n p')

theorem not_drainable {numFrames : Nat} {p : PlaybackBuffer r} (h : p.drain numFrames = .ok none) (n : Nat) :
    ¬ Drainable numFrames n p := by
  cases n with
  | zero => exact id
  | succ n =>
    rintro ⟨p', hp', -⟩
    exact nomatch h.symm.trans hp'

theorem not_drainable_of_overread {numFrames : Nat} {p : PlaybackBuffer r} (hover : Overread p.buffer)
    (hframes : 0 < p.lenFrames) (n : Nat) : ¬ Drainable numFrames n p := by
  induction n generalizing p with
  | zero => exact id
  | succ n ih =>
    rintro ⟨p', hp', hrest⟩
    have hkept := drain_of_overread hover hframes hp'
    have hleft : 0 < p'.lenFrames := by
      rw [PlaybackBuffer.lenFrames, hkept]
      exact hframes
    rcases hrest with hempty | hrest
    · exact Nat.ne_of_gt hleft (beq_iff_eq.mp hempty)
    · exact ih (hkept ▸ hover) hleft hrest

theorem drainable_iff_exists {numFrames n : Nat} {p : PlaybackBuffer r} (h : Tuned x p)
    (hover : ¬Overread p.buffer) : Drainable numFrames n p ↔ ∃ k < n,
      needed numFrames p * p.buffer.sampleSpec.frameSize ≤ bytesAfter x p (k * numFrames) ∧
      bytesAfter x p ((k + 1) * numFrames) < p.buffer.sampleSpec.frameSize := by
  induction n generalizing p with
  | zero => simp [Drainable]
  | succ n ih =>
    rw [Nat.exists_lt_succ_left]
    by_cases hle : needed numFrames p ≤ p.lenFrames
    · obtain ⟨p', hdrain, htuned, hneeded, hbuffer, htaken⟩ := drain_of_needed h hover hle
      have hspec : p'.buffer.sampleSpec = p.buffer.sampleSpec := hbuffer ▸ rfl
      have hread : readLen p'.buffer = readLen p.buffer := hbuffer ▸ rfl
      have hafter : ∀ m, bytesAfter x p' m = bytesAfter x p (numFrames + m) := fun m => by
        rw [bytesAfter, bytesAfter, htaken, hread, PlaybackBuffer.lenBytes, hbuffer, lenBytes_skip,
          Nat.add_mul, Nat.sub_sub]
        rfl
      have hempty : p'.isEmpty ↔ bytesAfter x p ((0 + 1) * numFrames) < p.buffer.sampleSpec.frameSize := by
        have hlen := lenFrames_eq_zero htuned.frame
        have hleft : bytesAfter x p ((0 + 1) * numFrames) = p'.buffer.lenBytes := by
          rw [Nat.zero_add, Nat.one_mul, ← Nat.add_zero numFrames, ← hafter, bytesAfter_zero]
          rfl
        rw [hleft, ← hspec, ← hlen]
        exact beq_iff_eq
      have hfirst : needed numFrames p * p.buffer.sampleSpec.frameSize ≤ bytesAfter x p (0 * numFrames) := by
        rw [Nat.zero_mul, bytesAfter_zero]
        exact (le_lenFrames h.frame).mp hle
      rw [Drainable, hdrain]
      simp only [Outcome.ok.injEq, Option.some.injEq, exists_eq_left', hfirst, true_and]
      rw [hempty, ih htuned (hbuffer ▸ hover), hneeded, hspec]
      refine or_congr_right (exists_congr fun k => and_congr_right fun _ => ?_)
      have hsucc : ∀ k, (k + 1) * numFrames = numFrames + k * numFrames := fun k => by
        rw [Nat.add_mul, Nat.one_mul, Nat.add_comm]
      rw [hafter, hafter, hsucc (k + 1), hsucc k]
    · have hnone : p.drain numFrames = .ok none := drain_eq_none (Nat.not_le.mp hle)
      have hshort : ∀ m, ¬needed numFrames p * p.buffer.sampleSpec.frameSize ≤ bytesAfter x p m :=
        fun m hm => hle ((le_lenFrames h.frame).mpr (Nat.le_trans hm (bytesAfter_le p m)))
      refine iff_of_false (not_drainable hnone _) ?_
      rintro (⟨hm, -⟩ | ⟨k, -, hm, -⟩) <;> exact hshort _ hm

theorem leaves_iff {numFrames n : Nat} {p : PlaybackBuffer r} (h : Tuned x p) (hframes : 0 < numFrames) :
    Leaves x numFrames n p ↔ Drainable numFrames n p := by
  by_cases hover : Overread p.buffer
  · refine iff_of_false (fun hleaves => hleaves.1 hover) fun hdrainable => ?_
    by_cases hle : needed numFrames p ≤ p.lenFrames
    · exact not_drainable_of_overread hover (Nat.lt_of_lt_of_le (needed_pos h hframes) hle) n hdrainable
    · exact not_drainable (drain_eq_none (Nat.not_le.mp hle)) n hdrainable
  · rw [Leaves, drainable_iff_exists h hover]
    exact and_iff_right hover

/-- Where the rates are equal, that is to hold a whole number of ticks. -/
theorem drainable_passthrough {numFrames : Nat} (hframes : 0 < numFrames) {b : Buffer}
    (hc : b.sampleSpec.channels.toNat ≤ 32) {n : Nat} (hn : b.lenFrames / numFrames ≤ n) :
    Drainable numFrames n (.passthrough b : PlaybackBuffer r) ↔
      0 < b.lenFrames ∧ numFrames ∣ b.lenFrames := by
  induction n generalizing b with
  | zero =>
    have hlt : b.lenFrames < numFrames := Nat.lt_of_div_eq_zero hframes (Nat.le_zero.mp hn)
    simp only [Drainable, false_iff, not_and]
    exact fun hpos => Nat.not_dvd_of_pos_of_lt hpos hlt
  | succ n ih =>
    rw [Drainable, drain_passthrough hc]
    by_cases hlt : b.lenFrames < numFrames
    · simp only [hlt, if_true, Outcome.ok.injEq, reduceCtorEq, false_and, exists_false, false_iff, not_and]
      exact fun hpos => Nat.not_dvd_of_pos_of_lt hpos hlt
    · have hle := Nat.le_of_not_lt hlt
      have hdiv : (dropFrames numFrames b).lenFrames / numFrames ≤ n := by
        rw [Nat.div_eq_sub_div hframes hle] at hn
        rw [lenFrames_dropFrames]
        exact Nat.le_of_succ_le_succ hn
      have hempty : (PlaybackBuffer.passthrough (dropFrames numFrames b) : PlaybackBuffer r).isEmpty ↔
          b.lenFrames = numFrames := by
        simp only [PlaybackBuffer.isEmpty, PlaybackBuffer.lenFrames, PlaybackBuffer.buffer,
          lenFrames_dropFrames, beq_iff_eq]
        omega
      simp only [hlt, if_false, Outcome.ok.injEq, Option.some.injEq, exists_eq_left']
      rw [ih (b := dropFrames numFrames b) hc hdiv, hempty, lenFrames_dropFrames, Nat.dvd_sub_iff_left hle (Nat.dvd_refl _)]
      constructor
      · rintro (heq | ⟨hpos, hdvd⟩)
        · exact ⟨heq ▸ hframes, heq ▸ Nat.dvd_refl _⟩
        · exact ⟨by omega, hdvd⟩
      · rintro ⟨hpos, hdvd⟩
        by_cases heq : b.lenFrames = numFrames
        · exact .inl heq
        · exact .inr ⟨by omega, hdvd⟩

theorem leaves_passthrough {numFrames : Nat} (hframes : 0 < numFrames) {b : Buffer}
    (hframe : 0 < b.sampleSpec.frameSize) (hc : b.sampleSpec.channels.toNat ≤ 32) {n : Nat}
    (hn : b.lenFrames / numFrames ≤ n) :
    Leaves x numFrames n (.passthrough b) ↔ 0 < b.lenFrames ∧ numFrames ∣ b.lenFrames :=
  (leaves_iff (p := .passthrough b) ⟨hframe, fun _ _ _ heq => nomatch heq⟩ hframes).trans
    (drainable_passthrough hframes hc hn)

section Stream

variable {s : PlaybackStream r} {channel : UInt32}

theorem tuned_newStream (x : Exact r) {params : CreateParams} {server : ServerState}
    (h : newStream params server = .ok s) : Tuned x s.buffer := by
  obtain ⟨attr, hattr, h⟩ := Outcome.bind_eq_ok.mp h
  obtain ⟨cvolume, -, h⟩ := Outcome.bind_eq_ok.mp h
  obtain ⟨buffer, hnew, h⟩ := Outcome.bind_eq_ok.mp h
  have hframe := Sampled.frameSize_pos_of_configureBuffer hattr
  cases h
  unfold PlaybackBuffer.new at hnew
  extract_lets empty at hnew
  split at hnew
  · cases hnew
  split at hnew
  · cases hnew
    exact ⟨hframe, nofun⟩
  · obtain ⟨converter, hconverter, hnew⟩ := Outcome.bind_eq_ok.mp hnew
    cases hnew
    refine ⟨hframe, fun b c outputRate heq => ?_⟩
    cases heq
    exact x.rates hconverter

theorem Tuned.mapBuffer {p : PlaybackBuffer r} (h : Tuned x p) {f : Buffer → Buffer}
    (hf : ∀ b, (f b).sampleSpec = b.sampleSpec) : Tuned x (p.mapBuffer f) := by
  cases p with
  | passthrough b => exact ⟨(hf b).symm ▸ h.frame, nofun⟩
  | resampling b c outputRate =>
    refine ⟨(hf b).symm ▸ h.frame, fun _ _ _ heq => ?_⟩
    cases heq
    rw [hf]
    exact h.rates b c outputRate rfl

theorem rates_of_convert {n : Nat} {b : Buffer} {c : r.Converter} {res : Buffer × r.Converter}
    (h : PlaybackBuffer.convert n b c = .ok res) :
    (x.position res.2).source = (x.position c).source ∧ (x.position res.2).target = (x.position c).target := by
  induction n generalizing b c with
  | zero =>
    cases h
    exact ⟨rfl, rfl⟩
  | succ n ih =>
    obtain ⟨m, -, h⟩ := Outcome.bind_eq_ok.mp h
    have hrest := ih h
    rw [x.next_position] at hrest
    exact hrest

theorem Tuned.drain {p p' : PlaybackBuffer r} (h : Tuned x p) {numFrames : Nat}
    (hdrain : p.drain numFrames = .ok (some p')) : Tuned x p' := by
  have hspec := (drain_trims hdrain).sampleSpec
  refine ⟨hspec.symm ▸ h.frame, ?_⟩
  cases p with
  | passthrough b =>
    rw [PlaybackBuffer.drain] at hdrain
    split at hdrain
    · cases hdrain
    · obtain ⟨b', -, hdrain⟩ := Outcome.bind_eq_ok.mp hdrain
      cases hdrain
      rintro _ _ _ heq
      cases heq
  | resampling b c outputRate =>
    rw [PlaybackBuffer.drain] at hdrain
    split at hdrain
    · cases hdrain
    · obtain ⟨res, hconvert, hdrain⟩ := Outcome.bind_eq_ok.mp hdrain
      cases hdrain
      rintro _ _ _ heq
      cases heq
      obtain ⟨hsource, htarget⟩ := rates_of_convert (x := x) hconvert
      have hrates := h.rates b c outputRate rfl
      exact ⟨(hsource.trans hrates.1).trans (congrArg (fun spec => spec.sampleRate.toNat) hspec.symm),
        htarget.trans hrates.2⟩

theorem Tuned.tick (h : Tuned x s.buffer) {numFrames : Nat} {t : Ticked r}
    (ht : tickStream numFrames channel s = .ok t) : Tuned x t.stream.buffer := by
  obtain ⟨res, hd, rfl⟩ := tickStream_eq_ok.mp ht
  have hdrained : Tuned x res.1.buffer := by
    cases drainPhase_cases hd with
    | idle => exact h
    | underrun => exact h
    | starved => exact h
    | played _ hdrain => exact h.drain hdrain
    | drained _ hdrain => exact h.drain hdrain
  show Tuned x (requestPhase channel res.1).1.buffer
  rcases requestPhase_cases channel res.1 with ⟨seq, -, heq⟩ | ⟨-, heq⟩
  · rw [heq]
    exact hdrained
  · rw [heq, buffer_popMissing]
    exact hdrained

theorem Tuned.change (h : Tuned x s.buffer) {server : ServerState} {e : Event} {s' : PlaybackStream r}
    (hchange : Change server channel s e s') : Tuned x s'.buffer := by
  cases hchange with
  | kept => exact h
  | draining => exact h
  | corked =>
    unfold cork
    split <;> exact h
  | uncorked => exact (buffer_uncork channel s).symm ▸ h
  | flushed => exact h.mapBuffer fun _ => rfl
  | triggered =>
    unfold trigger
    split <;> exact h
  | prebuffered =>
    unfold prebuf
    split <;> exact h
  | renegotiated _ hs' =>
    obtain ⟨attr, -, hs'⟩ := Outcome.bind_eq_ok.mp hs'
    cases hs'
    exact h
  | written payload => exact h.mapBuffer fun _ => rfl
  | ticked ht => exact h.tick ht

end Stream

end Moonshine.Proof.PlaybackBuffer
