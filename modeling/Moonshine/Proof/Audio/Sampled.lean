import Moonshine.Impl.Audio.Sampled
import Moonshine.Proof.Audio.Buffer

/-!
# What a drain takes

The signal of a drain takes frames off its buffer one by one, each of at most 32
samples. `nexts_of_le` and `converter_nexts_of_le` say where so many calls of a
signal leave the buffer, and `lend_of_le` that a drain leaves it there however
much of it is read. A converter takes no more frames than a drain asks for at
least (`pulled_le_needed`), so none of them is missing.

`drainsWhole_iff_of_buffer`: a drain takes whole frames or nothing exactly if it
is `Drainable`.
-/

namespace Moonshine.Proof.Sampled

open Moonshine.Framework Moonshine.Framework.Signal Moonshine.Impl Moonshine.Impl.Audio
open Moonshine.Impl.Audio.Sampled

variable {d : Dasp}

/-! ## Frames -/

/-- Frames can be read of the buffer, if there are any. -/
structure Readable (b : Sampled.Buffer) : Prop where
  frame : 0 < b.sampleSpec.frameSize
  supported : b.sampleSpec.format.isSupported
  outputs : b.outputChannels ≤ 32

def skip (n : Nat) (b : Sampled.Buffer) : Sampled.Buffer := { b with inner := b.inner.drop n }

@[simp] theorem sampleSpec_skip (n : Nat) (b : Sampled.Buffer) : (skip n b).sampleSpec = b.sampleSpec := rfl

@[simp] theorem outputChannels_skip (n : Nat) (b : Sampled.Buffer) :
    (skip n b).outputChannels = b.outputChannels := rfl

@[simp] theorem length_skip (n : Nat) (b : Sampled.Buffer) : (skip n b).inner.length = b.inner.length - n :=
  List.length_drop ..

@[simp] theorem skip_zero (b : Sampled.Buffer) : skip 0 b = b := rfl

theorem skip_skip (m n : Nat) (b : Sampled.Buffer) : skip m (skip n b) = skip (n + m) b := by
  simp only [skip, List.drop_drop]

theorem Readable.skip {b : Sampled.Buffer} (h : Readable b) (n : Nat) : Readable (skip n b) :=
  ⟨h.frame, h.supported, h.outputs⟩

variable {b : Sampled.Buffer}

theorem readBytes_of_le {n : Nat} (decode : List Byte → Float32) (h : n ≤ b.inner.length) :
    b.readBytes n decode = .ok (decode (b.inner.take n), skip n b) :=
  if_neg (Nat.not_lt.mpr h)

theorem readSample_of_le (hsupported : b.sampleSpec.format.isSupported)
    (h : b.sampleSpec.format.bytesPerSample ≤ b.inner.length) :
    ∃ s, b.readSample d = .ok (s, skip b.sampleSpec.format.bytesPerSample b) := by
  unfold Sampled.Buffer.readSample
  split <;> rename_i hformat <;> rw [hformat] at h hsupported ⊢
  case h_10 | h_11 => cases hsupported
  all_goals exact ⟨_, readBytes_of_le _ h⟩

theorem readSamples_of_le (hsupported : b.sampleSpec.format.isSupported) {n : Nat}
    (h : n * b.sampleSpec.format.bytesPerSample ≤ b.inner.length) :
    ∃ ss : List Float32, ss.length = n ∧
      b.readSamples d n = .ok (ss, skip (n * b.sampleSpec.format.bytesPerSample) b) := by
  induction n generalizing b with
  | zero => exact ⟨[], rfl, by rw [Sampled.Buffer.readSamples, Nat.zero_mul, skip_zero]⟩
  | succ n ih =>
    rw [Nat.add_mul, Nat.one_mul] at h ⊢
    obtain ⟨s, hs⟩ := readSample_of_le (d := d) hsupported (by omega)
    obtain ⟨ss, hlen, hss⟩ := ih (b := skip b.sampleSpec.format.bytesPerSample b) hsupported (by
      rw [sampleSpec_skip, length_skip]
      omega)
    refine ⟨s :: ss, congrArg (· + 1) hlen, ?_⟩
    rw [Sampled.Buffer.readSamples, hs, Outcome.ok_bind]
    dsimp only
    rw [hss, Outcome.ok_bind, skip_skip, Nat.add_comm]
    rfl

theorem sampleAt_of_lt {samples : List Float32} {i : Nat} (h : i < samples.length) :
    ∃ s, sampleAt samples i = .ok s :=
  ⟨samples[i], by rw [sampleAt, List.getElem?_eq_getElem h]; rfl⟩

theorem fromFn_of_forall {channels : Nat} {f : Nat → Outcome Float32}
    (h : ∀ ch < channels, ∃ s, f ch = .ok s) : ∃ frame, fromFn channels f = .ok frame :=
  Outcome.mapM_of_forall fun ch hch => h ch (List.mem_range.mp hch)

/-- More channels than samples of a frame are read, where all of them are mixed. -/
def Overread (b : Sampled.Buffer) : Prop := b.outputChannels = 2 ∧ 32 < b.sampleSpec.channels.toNat

theorem mixFrame_of_overread {samples : List Float32} (hlen : samples.length = 32) (h : Overread b) :
    b.mixFrame samples = .panic := by
  obtain ⟨hstereo, hchannels⟩ := h
  simp only [Sampled.Buffer.mixFrame, hstereo]
  rw [if_neg (by omega), if_neg (by omega), if_pos trivial, if_pos (by omega)]

theorem mixFrame_of_not_overread {samples : List Float32} (hlen : samples.length = 32)
    (houtputs : b.outputChannels ≤ 32) (h : ¬Overread b) : ∃ frame, b.mixFrame samples = .ok frame := by
  have hall : ∀ ch < b.outputChannels, ∃ s, sampleAt samples ch = .ok s :=
    fun ch hch => sampleAt_of_lt (by omega)
  unfold Sampled.Buffer.mixFrame
  dsimp only
  split_ifs with heq hless hmono hstereo hslice
  · exact fromFn_of_forall hall
  · refine fromFn_of_forall fun ch _ => ?_
    split
    · exact sampleAt_of_lt (by omega)
    · exact ⟨0, rfl⟩
  · refine fromFn_of_forall fun ch hch => ?_
    split
    · exact hall ch hch
    · exact ⟨0, rfl⟩
  · exact absurd ⟨hstereo, hlen ▸ hslice⟩ h
  · exact fromFn_of_forall fun ch _ => ⟨_, rfl⟩
  · exact fromFn_of_forall hall

/-- The bytes that the reading of a frame takes. -/
def readLen (b : Sampled.Buffer) : Nat :=
  min b.sampleSpec.channels.toNat 32 * b.sampleSpec.format.bytesPerSample

theorem readLen_le (b : Sampled.Buffer) : readLen b ≤ b.sampleSpec.frameSize :=
  Nat.mul_le_mul_right _ (Nat.min_le_left ..)

@[simp] theorem readLen_skip (n : Nat) (b : Sampled.Buffer) : readLen (skip n b) = readLen b := rfl

theorem Readable.lenFrames (h : Readable b) :
    b.lenFrames = .ok (b.inner.length / b.sampleSpec.frameSize) :=
  checkedDiv_of_ne (Nat.ne_of_gt h.frame)

theorem readFrame_of_lt (h : Readable b) (hlen : b.inner.length < b.sampleSpec.frameSize) :
    b.readFrame d = .ok (none, b) := by
  rw [Sampled.Buffer.readFrame, h.lenFrames, Outcome.ok_bind, if_pos (Nat.div_eq_of_lt hlen)]
  rfl

/-- The reading of a frame that is there, up to the mixing. -/
theorem readFrame_of_le (h : Readable b) (hlen : b.sampleSpec.frameSize ≤ b.inner.length) :
    ∃ samples : List Float32, samples.length = 32 ∧ b.readFrame d = do
      let frame ← b.mixFrame samples
      return (some frame, skip (readLen b) b) := by
  have hle : min b.sampleSpec.channels.toNat 32 * b.sampleSpec.format.bytesPerSample ≤ b.inner.length :=
    Nat.le_trans (readLen_le b) hlen
  obtain ⟨ss, hss, hread⟩ := readSamples_of_le (d := d) h.supported hle
  refine ⟨ss ++ List.replicate (32 - ss.length) 0, ?_, ?_⟩
  · rw [List.length_append, List.length_replicate]
    omega
  · have hpos : b.inner.length / b.sampleSpec.frameSize ≠ 0 :=
      Nat.ne_of_gt (Nat.div_pos hlen h.frame)
    rw [Sampled.Buffer.readFrame, h.lenFrames, Outcome.ok_bind, if_neg hpos, hread, Outcome.ok_bind]
    rfl

theorem next_of_le (missing : Outcome Frame) (h : Readable b) (hover : ¬Overread b)
    (hlen : b.sampleSpec.frameSize ≤ b.inner.length) :
    ∃ frame, b.next d missing = .ok (frame, skip (readLen b) b) := by
  obtain ⟨samples, hsamples, hread⟩ := readFrame_of_le (d := d) h hlen
  obtain ⟨frame, hframe⟩ := mixFrame_of_not_overread hsamples h.outputs hover
  refine ⟨frame, ?_⟩
  rw [Sampled.Buffer.next, hread, hframe]
  rfl

theorem next_of_overread (missing : Outcome Frame) (h : Readable b) (hover : Overread b)
    (hlen : b.sampleSpec.frameSize ≤ b.inner.length) : b.next d missing = .panic := by
  obtain ⟨samples, hsamples, hread⟩ := readFrame_of_le (d := d) h hlen
  rw [Sampled.Buffer.next, hread, mixFrame_of_overread hsamples hover]
  rfl

/-! ## Signals -/

/-- `n` frames that are there. -/
theorem nexts_of_le (missing : Outcome Frame) (h : Readable b) {n : Nat} (hover : n ≠ 0 → ¬Overread b)
    (hlen : n * b.sampleSpec.frameSize ≤ b.inner.length) :
    nexts (Sampled.Buffer.next d missing) n b = .ok (skip (n * readLen b) b) := by
  induction n generalizing b with
  | zero => rw [nexts, Nat.zero_mul, skip_zero]
  | succ n ih =>
    have hle := readLen_le b
    rw [Nat.add_mul, Nat.one_mul] at hlen ⊢
    obtain ⟨frame, hnext⟩ := next_of_le (d := d) missing h (hover n.succ_ne_zero) (by omega)
    rw [nexts, hnext, Outcome.ok_bind]
    dsimp only
    have hrest : n * (skip (readLen b) b).sampleSpec.frameSize ≤ (skip (readLen b) b).inner.length := by
      rw [sampleSpec_skip, length_skip]
      omega
    rw [ih (h.skip _) (fun _ => hover n.succ_ne_zero) hrest, readLen_skip, skip_skip, Nat.add_comm]

theorem nexts_of_overread (missing : Outcome Frame) (h : Readable b) (hover : Overread b)
    (hlen : b.sampleSpec.frameSize ≤ b.inner.length) {n : Nat} (hn : n ≠ 0) :
    nexts (Sampled.Buffer.next d missing) n b = .panic := by
  obtain ⟨n, rfl⟩ := Nat.exists_eq_succ_of_ne_zero hn
  rw [nexts, next_of_overread missing h hover hlen]
  rfl

section Converter

variable {c : Converter d}

theorem pull_of_le (missing : Outcome Frame) (h : Readable c.source) {n : Nat}
    (hover : n ≠ 0 → ¬Overread c.source)
    (hlen : n * c.source.sampleSpec.frameSize ≤ c.source.inner.length) :
    ∃ sinc, c.pull missing n = .ok ⟨skip (n * readLen c.source) c.source, sinc, c.position⟩ := by
  induction n generalizing c with
  | zero => exact ⟨c.sinc, by rw [Converter.pull, Nat.zero_mul, skip_zero]⟩
  | succ n ih =>
    have hle := readLen_le c.source
    rw [Nat.add_mul, Nat.one_mul] at hlen ⊢
    obtain ⟨frame, hnext⟩ := next_of_le (d := d) missing h (hover n.succ_ne_zero) (by omega)
    obtain ⟨sinc, hpull⟩ := ih (c := ⟨skip (readLen c.source) c.source,
      d.nextSourceFrame frame c.sinc, c.position⟩) (h.skip _) (fun _ => hover n.succ_ne_zero)
      (by dsimp only; rw [sampleSpec_skip, length_skip]; omega)
    refine ⟨sinc, ?_⟩
    rw [Converter.pull, hnext, Outcome.ok_bind]
    dsimp only at hpull ⊢
    rw [hpull, readLen_skip, skip_skip, Nat.add_comm]

/-- The frames of the source that the next `n` of the converter take. -/
def takes (p : Position) (n : Nat) : Nat :=
  if n = 0 then 0 else (p.phase + (n - 1) * p.source) / p.target

theorem takes_eq (p : Position) (n : Nat) :
    takes p n = PhaseAccumulator.taken p.target p.source n p.phase := by
  cases n with
  | zero => rfl
  | succ n => exact (PhaseAccumulator.taken_succ p.target_pos n p.phase).symm

theorem takes_succ (p : Position) (n : Nat) : takes p (n + 1) = p.pulls + takes p.advance n := by
  rw [takes_eq, takes_eq]
  rfl

theorem converter_nexts_of_le (missing : Outcome Frame) (h : Readable c.source) {n : Nat}
    (hover : takes c.position n ≠ 0 → ¬Overread c.source)
    (hlen : takes c.position n * c.source.sampleSpec.frameSize ≤ c.source.inner.length) :
    ∃ c' : Converter d, nexts (Converter.next missing) n c = .ok c' ∧
      c'.source = skip (takes c.position n * readLen c.source) c.source ∧
      c'.position.source = c.position.source ∧ c'.position.target = c.position.target := by
  induction n generalizing c with
  | zero => exact ⟨c, rfl, by rw [takes, if_pos rfl, Nat.zero_mul, skip_zero], rfl, rfl⟩
  | succ n ih =>
    have hle := Nat.mul_le_mul_left c.position.pulls (readLen_le c.source)
    rw [takes_succ] at hover
    rw [takes_succ, Nat.add_mul] at hlen
    obtain ⟨sinc, hpull⟩ := pull_of_le missing h (n := c.position.pulls) (fun hn => hover (by omega)) (by omega)
    obtain ⟨c', hnexts, hsource, hrates⟩ := ih (c := ⟨skip (c.position.pulls * readLen c.source) c.source, sinc,
      c.position.advance⟩) (h.skip _) (fun hn => hover (Nat.ne_of_gt (Nat.add_pos_right _
        (Nat.pos_of_ne_zero hn)))) (by dsimp only; rw [sampleSpec_skip, length_skip]; omega)
    refine ⟨c', ?_, ?_, hrates⟩
    · rw [nexts, Converter.next, hpull]
      exact hnexts
    · rw [hsource, takes_succ, Nat.add_mul]
      dsimp only
      rw [readLen_skip, skip_skip]

theorem converter_nexts_of_overread (missing : Outcome Frame) (h : Readable c.source)
    (hover : Overread c.source) (hlen : c.source.sampleSpec.frameSize ≤ c.source.inner.length) {n : Nat}
    (hn : takes c.position n ≠ 0) : nexts (Converter.next missing) n c = .panic := by
  induction n generalizing c with
  | zero => exact absurd rfl hn
  | succ n ih =>
    rw [takes_succ] at hn
    rw [nexts, Converter.next]
    by_cases hpulls : c.position.pulls = 0
    · have hrest : takes c.position.advance n ≠ 0 := by omega
      rw [hpulls, Converter.pull]
      exact ih (c := ⟨c.source, c.sinc, c.position.advance⟩) h hover hlen hrest
    · obtain ⟨m, hm⟩ := Nat.exists_eq_succ_of_ne_zero hpulls
      rw [hm, Converter.pull, next_of_overread missing h hover hlen]
      rfl

end Converter

/-! ## Drains -/

/-- The buffers of a stream, whatever they hold and wherever their converter is. -/
structure BufferOf (sampleSpec outputSpec : SampleSpec) (p : Sampled.PlaybackBuffer d) : Prop where
  sampleSpec_eq : p.buffer.sampleSpec = sampleSpec
  outputs : p.buffer.outputChannels = outputSpec.channels.toNat
  rates : match p with
    | .passthrough _ => sampleSpec.sampleRate = outputSpec.sampleRate
    | .resampling c outputRate => c.position.source = sampleSpec.sampleRate.toNat ∧
      c.position.target = outputSpec.sampleRate.toNat ∧ outputRate = outputSpec.sampleRate

/-- The frames without which a drain of `n` takes none. -/
def needed (n : Nat) : Sampled.PlaybackBuffer d → Nat
  | .passthrough _ => n
  | .resampling c outputRate =>
    (c.source.sampleSpec.sampleRate.toNat * n + outputRate.toNat - 1) / outputRate.toNat

/-- The frames that a drain of `n` takes of the buffer. -/
def pulled (n : Nat) : Sampled.PlaybackBuffer d → Nat
  | .passthrough _ => n
  | .resampling c _ => takes c.position n

/-- The product of the rate and the frames does not overflow. -/
def ProductFits (n : Nat) : Sampled.PlaybackBuffer d → Prop
  | .passthrough _ => True
  | .resampling c _ => c.source.sampleSpec.sampleRate.toNat * n < 2 ^ 64

section Drain

variable {p : Sampled.PlaybackBuffer d} {sampleSpec outputSpec : SampleSpec} {n reads : Nat}
  (missing : Outcome Frame)

/-- A converter never takes more than what is needed at least. -/
theorem pulled_le_needed (h : BufferOf sampleSpec outputSpec p) (n : Nat) : pulled n p ≤ needed n p := by
  cases p with
  | passthrough b => exact Nat.le_refl n
  | resampling c outputRate =>
    obtain ⟨hsource, htarget, hrate⟩ := h.rates
    show takes c.position n ≤ (c.source.sampleSpec.sampleRate.toNat * n + outputRate.toNat - 1) / outputRate.toNat
    have hspec : c.source.sampleSpec = sampleSpec := h.sampleSpec_eq
    rw [hspec, hrate, ← hsource, ← htarget, takes_eq]
    exact PhaseAccumulator.taken_le c.position.target_pos c.position.phase_lt n

/-- The signal of a drain that has its frames, read and dropped. -/
def lend (n reads : Nat) : Sampled.PlaybackBuffer d → Outcome (Option (List Frame) × Sampled.PlaybackBuffer d)
  | .passthrough b => do
    let (frames, b) ← Drain.readThenDrop (Sampled.Buffer.next d missing) b.equilibrium reads ⟨b, n⟩
    return (some frames, .passthrough b)
  | .resampling c outputRate => do
    let (frames, c) ← Drain.readThenDrop (Converter.next missing) c.source.equilibrium reads ⟨c, n⟩
    return (some frames, .resampling c outputRate)

theorem drain_eq (hread : Readable p.buffer) (h : BufferOf sampleSpec outputSpec p) (hfits : ProductFits n p) :
    p.drain missing n reads =
      if p.buffer.inner.length / p.buffer.sampleSpec.frameSize < needed n p then .ok (none, p)
      else lend missing n reads p := by
  cases p with
  | passthrough b =>
    have hframes : b.lenFrames = .ok (b.inner.length / b.sampleSpec.frameSize) := hread.lenFrames
    rw [Sampled.PlaybackBuffer.drain, hframes, Outcome.ok_bind]
    rfl
  | resampling c outputRate =>
    have hframes : c.source.lenFrames = .ok (c.source.inner.length / c.source.sampleSpec.frameSize) :=
      hread.lenFrames
    obtain ⟨-, htarget, hrate⟩ := h.rates
    have hpos : outputRate.toNat ≠ 0 := by
      rw [hrate, ← htarget]
      exact Nat.ne_of_gt c.position.target_pos
    rw [Sampled.PlaybackBuffer.drain, checkedMul_of_lt hfits, Outcome.ok_bind, checkedDiv_of_ne hpos,
      Outcome.ok_bind, hframes, Outcome.ok_bind]
    rfl

/-- Where the product overflows. -/
theorem drain_of_overflow (hfits : ¬ProductFits n p) : p.drain missing n reads = .panic := by
  cases p with
  | passthrough b => exact absurd trivial hfits
  | resampling c outputRate =>
    rw [Sampled.PlaybackBuffer.drain, checkedMul_of_ge (Nat.not_lt.mp hfits)]
    rfl

/-- A loan of frames that are there. -/
theorem lend_of_le (reads : Nat) (h : BufferOf sampleSpec outputSpec p) (hread : Readable p.buffer)
    (hover : pulled n p ≠ 0 → ¬Overread p.buffer)
    (hlen : pulled n p * p.buffer.sampleSpec.frameSize ≤ p.buffer.inner.length) :
    ∃ frames p', lend missing n reads p = .ok (some frames, p') ∧
      p'.buffer = skip (pulled n p * readLen p.buffer) p.buffer ∧ BufferOf sampleSpec outputSpec p' := by
  cases p with
  | passthrough b =>
    obtain ⟨frames, hdrop⟩ := Drain.readThenDrop_of_nexts (Sampled.Buffer.next d missing) b.equilibrium reads
      (d := ⟨b, n⟩) (nexts_of_le missing hread hover hlen)
    refine ⟨frames, .passthrough (skip (n * readLen b) b), ?_, rfl, ⟨h.1, h.2, h.3⟩⟩
    rw [lend, hdrop]
    rfl
  | resampling c outputRate =>
    obtain ⟨c', hnexts, hsource, hfrom, hto⟩ := converter_nexts_of_le missing hread hover hlen
    obtain ⟨frames, hdrop⟩ := Drain.readThenDrop_of_nexts (Converter.next missing) c.source.equilibrium reads
      (d := ⟨c, n⟩) hnexts
    refine ⟨frames, .resampling c' outputRate, ?_, hsource, ?_, ?_, ?_⟩
    · rw [lend, hdrop]
      rfl
    · show c'.source.sampleSpec = sampleSpec
      rw [hsource]
      exact h.sampleSpec_eq
    · show c'.source.outputChannels = outputSpec.channels.toNat
      rw [hsource]
      exact h.outputs
    · obtain ⟨hrates, hrate⟩ := h.rates
      exact ⟨hfrom.trans hrates, hto.trans hrate.1, hrate.2⟩

/-- A loan of frames that are there, and of which too many samples are mixed. -/
theorem lend_of_overread (hread : Readable p.buffer) (hover : Overread p.buffer)
    (hlen : pulled n p * p.buffer.sampleSpec.frameSize ≤ p.buffer.inner.length) (hpos : pulled n p ≠ 0) :
    lend missing n reads p = .panic := by
  have hone : p.buffer.sampleSpec.frameSize ≤ p.buffer.inner.length :=
    Nat.le_trans (Nat.le_mul_of_pos_left _ (Nat.pos_of_ne_zero hpos)) hlen
  cases p with
  | passthrough b =>
    rw [lend, Drain.readThenDrop_of_panic _ _ _ (nexts_of_overread missing hread hover hone hpos)]
    rfl
  | resampling c outputRate =>
    rw [lend, Drain.readThenDrop_of_panic _ _ _ (converter_nexts_of_overread missing hread hover hone hpos)]
    rfl

end Drain

/-! ## Whole frames or nothing -/

/-- How many frames a drain may take. -/
def MayTake (n m : Nat) : Sampled.PlaybackBuffer d → Prop
  | .passthrough _ => m = n
  | .resampling c outputRate =>
    m ≤ (c.source.sampleSpec.sampleRate.toNat * n + outputRate.toNat - 1) / outputRate.toNat

/-- A drain of which `reads` frames are read returns, also if it did not on a
missing frame, and takes either nothing or as many whole frames as it may of those
there are. -/
def DrainsWhole (n reads : Nat) (p : Sampled.PlaybackBuffer d) : Prop :=
  ∃ frames p', p.drain (.ok p.buffer.equilibrium) n reads = .ok (frames, p') ∧
    p.drain .err n reads ≠ .err ∧
    match frames with
    | none => p' = p
    | some _ => ∃ m, m ≤ p.buffer.inner.length / p.buffer.sampleSpec.frameSize ∧
      p'.buffer.inner = p.buffer.inner.drop (m * p.buffer.sampleSpec.frameSize) ∧ MayTake n m p

/-- A stream of at most 32 channels, or one of which nothing is taken, or one
whose misread frames happen to be whole ones. -/
def Drainable (n : Nat) (p : Sampled.PlaybackBuffer d) : Prop :=
  ProductFits n p ∧
    (p.buffer.inner.length / p.buffer.sampleSpec.frameSize < needed n p ∨
      p.buffer.sampleSpec.channels.toNat ≤ 32 ∨ pulled n p = 0 ∨
      (p.buffer.outputChannels ≠ 2 ∧ (∃ c rate, p = .resampling c rate) ∧
        p.buffer.sampleSpec.channels.toNat ∣ 32 * pulled n p))

section Drain

variable {p : Sampled.PlaybackBuffer d} {sampleSpec outputSpec : SampleSpec} {n reads : Nat}

theorem drop_inj {α : Type} {l : List α} {i j : Nat} (hi : i ≤ l.length) (hj : j ≤ l.length)
    (h : l.drop i = l.drop j) : i = j := by
  have hlen := congrArg List.length h
  rw [List.length_drop, List.length_drop] at hlen
  omega

theorem mayTake_pulled (h : BufferOf sampleSpec outputSpec p) (n : Nat) : MayTake n (pulled n p) p := by
  have hle := pulled_le_needed h n
  cases p with
  | passthrough b => rfl
  | resampling c outputRate => exact hle

theorem MayTake.of_le {m : Nat} {c : Converter d} {rate : UInt32} (h : BufferOf sampleSpec outputSpec p)
    (hp : p = .resampling c rate) (hm : m ≤ pulled n p) : MayTake n m p := by
  subst hp
  exact Nat.le_trans hm (pulled_le_needed h n)

/-- Of more than 32 channels, the bytes that are taken make up whole frames only
where 32 samples a frame do. -/
theorem whole_iff_of_gt (h : BufferOf sampleSpec outputSpec p) (hread : Readable p.buffer)
    (hchannels : 32 < p.buffer.sampleSpec.channels.toNat) (hpulled : pulled n p ≠ 0)
    (hlen : pulled n p * p.buffer.sampleSpec.frameSize ≤ p.buffer.inner.length) :
    (∃ m, m ≤ p.buffer.inner.length / p.buffer.sampleSpec.frameSize ∧
      p.buffer.inner.drop (pulled n p * readLen p.buffer) =
        p.buffer.inner.drop (m * p.buffer.sampleSpec.frameSize) ∧ MayTake n m p) ↔
      (∃ c rate, p = .resampling c rate) ∧ p.buffer.sampleSpec.channels.toNat ∣ 32 * pulled n p := by
  have hbytes : 0 < p.buffer.sampleSpec.format.bytesPerSample :=
    Nat.pos_of_mul_pos_left hread.frame
  have hreadLen : readLen p.buffer = 32 * p.buffer.sampleSpec.format.bytesPerSample := by
    rw [readLen, Nat.min_eq_right (Nat.le_of_lt hchannels)]
  have htaken : pulled n p * readLen p.buffer ≤ p.buffer.inner.length :=
    Nat.le_trans (Nat.mul_le_mul_left _ (readLen_le _)) hlen
  have hsamples : ∀ m, pulled n p * readLen p.buffer = m * p.buffer.sampleSpec.frameSize ↔
      32 * pulled n p = p.buffer.sampleSpec.channels.toNat * m := by
    intro m
    rw [hreadLen, SampleSpec.frameSize, ← Nat.mul_assoc, ← Nat.mul_assoc, Nat.mul_right_cancel_iff hbytes,
      Nat.mul_comm (pulled n p), Nat.mul_comm m]
  constructor
  · rintro ⟨m, hm, hdrop, hmay⟩
    have hmbytes : m * p.buffer.sampleSpec.frameSize ≤ p.buffer.inner.length :=
      (Nat.le_div_iff_mul_le hread.frame).mp hm
    have heq := (hsamples m).mp (drop_inj htaken hmbytes hdrop)
    cases p with
    | passthrough b =>
      obtain rfl : m = n := hmay
      have hpos : 0 < m := Nat.pos_of_ne_zero hpulled
      have hlt : 32 * m < b.sampleSpec.channels.toNat * m := Nat.mul_lt_mul_of_pos_right hchannels hpos
      exact absurd heq (Nat.ne_of_lt hlt)
    | resampling c rate => exact ⟨⟨c, rate, rfl⟩, m, heq⟩
  · rintro ⟨⟨c, rate, hp⟩, m, hm⟩
    have hle : m ≤ pulled n p := by
      refine Nat.le_of_mul_le_mul_left (?_ : 32 * m ≤ 32 * pulled n p) (by omega)
      rw [hm]
      exact Nat.mul_le_mul_right m (Nat.le_of_lt hchannels)
    exact ⟨m, (Nat.le_div_iff_mul_le hread.frame).mpr (Nat.le_trans (Nat.mul_le_mul_right _ hle) hlen),
      by rw [(hsamples m).mpr hm], .of_le h hp hle⟩

theorem drainsWhole_of_lt (h : BufferOf sampleSpec outputSpec p) (hread : Readable p.buffer)
    (hfits : ProductFits n p)
    (hlt : p.buffer.inner.length / p.buffer.sampleSpec.frameSize < needed n p) : DrainsWhole n reads p := by
  refine ⟨none, p, ?_, ?_, rfl⟩
  · rw [drain_eq _ hread h hfits, if_pos hlt]
  · rw [drain_eq _ hread h hfits, if_pos hlt]
    nofun

/-- Where the frames are there, and the mixing does not panic. -/
theorem drainsWhole_iff_of_le (h : BufferOf sampleSpec outputSpec p) (hread : Readable p.buffer)
    (hfits : ProductFits n p)
    (hle : needed n p ≤ p.buffer.inner.length / p.buffer.sampleSpec.frameSize)
    (hover : pulled n p ≠ 0 → ¬Overread p.buffer) :
    DrainsWhole n reads p ↔ ∃ m, m ≤ p.buffer.inner.length / p.buffer.sampleSpec.frameSize ∧
      p.buffer.inner.drop (pulled n p * readLen p.buffer) =
        p.buffer.inner.drop (m * p.buffer.sampleSpec.frameSize) ∧ MayTake n m p := by
  have hlen : pulled n p * p.buffer.sampleSpec.frameSize ≤ p.buffer.inner.length :=
    (Nat.le_div_iff_mul_le hread.frame).mp (Nat.le_trans (pulled_le_needed h n) hle)
  obtain ⟨frames, p', hlend, hbuffer, -⟩ := lend_of_le (.ok p.buffer.equilibrium) reads h hread hover hlen
  obtain ⟨_, _, hlend', -⟩ := lend_of_le .err reads h hread hover hlen
  have hinner : p'.buffer.inner = p.buffer.inner.drop (pulled n p * readLen p.buffer) := by
    rw [hbuffer]
    rfl
  rw [DrainsWhole, drain_eq _ hread h hfits, drain_eq _ hread h hfits, if_neg (Nat.not_lt.mpr hle),
    if_neg (Nat.not_lt.mpr hle), hlend, hlend', ← hinner]
  constructor
  · rintro ⟨_, _, heq, -, hm⟩
    cases heq
    exact hm
  · exact fun hm => ⟨_, _, rfl, nofun, hm⟩

theorem drainsWhole_iff_of_buffer (h : BufferOf sampleSpec outputSpec p) (hread : Readable p.buffer) :
    DrainsWhole n reads p ↔ Drainable n p := by
  by_cases hfits : ProductFits n p
  swap
  · refine iff_of_false (fun ⟨frames, p', hdrain, _⟩ => ?_) fun hd => hfits hd.1
    rw [drain_of_overflow _ hfits] at hdrain
    cases hdrain
  rw [Drainable, and_iff_right hfits]
  by_cases hlt : p.buffer.inner.length / p.buffer.sampleSpec.frameSize < needed n p
  · exact iff_of_true (drainsWhole_of_lt h hread hfits hlt) (.inl hlt)
  have hle := Nat.le_of_not_lt hlt
  have hframes : pulled n p ≤ p.buffer.inner.length / p.buffer.sampleSpec.frameSize :=
    Nat.le_trans (pulled_le_needed h n) hle
  have hlen : pulled n p * p.buffer.sampleSpec.frameSize ≤ p.buffer.inner.length :=
    (Nat.le_div_iff_mul_le hread.frame).mp hframes
  rw [or_iff_right hlt]
  by_cases hzero : pulled n p = 0
  · refine iff_of_true ?_ (.inr (.inl hzero))
    refine (drainsWhole_iff_of_le h hread hfits hle fun hpos => absurd hzero hpos).mpr
      ⟨0, Nat.zero_le _, ?_, hzero ▸ mayTake_pulled h n⟩
    rw [hzero, Nat.zero_mul, Nat.zero_mul]
  by_cases hover : Overread p.buffer
  · -- the downmix to stereo panics
    refine iff_of_false (fun ⟨frames, p', hdrain, _⟩ => ?_) fun hd => ?_
    · rw [drain_eq _ hread h hfits, if_neg hlt, lend_of_overread _ hread hover hlen hzero] at hdrain
      cases hdrain
    · rcases hd with hchannels | hpulled | ⟨hsurround, -⟩
      · exact Nat.not_lt.mpr hchannels hover.2
      · exact hzero hpulled
      · exact hsurround hover.1
  rw [drainsWhole_iff_of_le h hread hfits hle fun _ => hover]
  by_cases hchannels : p.buffer.sampleSpec.channels.toNat ≤ 32
  · refine iff_of_true ⟨pulled n p, hframes, ?_, mayTake_pulled h n⟩ (.inl hchannels)
    rw [readLen, Nat.min_eq_left hchannels]
    rfl
  have hsurround : p.buffer.outputChannels ≠ 2 := fun hstereo =>
    hover ⟨hstereo, Nat.lt_of_not_le hchannels⟩
  rw [whole_iff_of_gt h hread (Nat.lt_of_not_le hchannels) hzero hlen, or_iff_right hchannels,
    or_iff_right hzero, and_iff_right hsurround]

end Drain

end Moonshine.Proof.Sampled
