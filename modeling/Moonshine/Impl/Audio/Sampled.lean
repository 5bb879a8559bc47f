import Moonshine.Framework.Integers
import Moonshine.Framework.PhaseAccumulator
import Moonshine.Framework.Signal
import Moonshine.Impl.Audio.Buffer

/-!
# Playback buffers with their samples, `session/stream/audio/buffer.rs`

The buffers of `Impl.Audio.Buffer` with the frames that are read from them: the
decoding of the samples, the mixing to the channels of the output, and the
signal that a drain lends out.

`f32` is `Float32`. The conversions of the other samples to it, and the
interpolation, are `dasp`'s and parameters (`Dasp`). Its converter steps through
the source by the ratio of the rates and takes a frame of it for each unit; the
ratio is exact here, and positions are counted in fractions of the target rate.
-/

namespace Moonshine.Impl.Audio.Sampled

open Moonshine.Framework Moonshine.Framework.Signal Moonshine.Impl

/-- A frame `F`, a sample for each of its channels. -/
abbrev Frame := List Float32

/-- What is used of `dasp`: `from_sample`, and `Sinc` over a ring buffer. -/
structure Dasp where
  fromU8 : UInt8 → Float32
  fromI16 : Int16 → Float32
  fromI32 : Int32 → Float32
  Sinc : Type
  /-- Over a ring buffer of silence. -/
  sinc : Sinc
  nextSourceFrame : Frame → Sinc → Sinc
  /-- At a fraction of the way between two frames. -/
  interpolate : (numerator denominator : Nat) → Sinc → Frame

inductive ChannelPosition
  | mono | frontLeft | frontRight | frontCenter | lfe | rearLeft | sideLeft | rearRight | sideRight
  | rearCenter | frontLeftOfCenter | frontRightOfCenter
  /-- The other positions of the protocol. -/
  | other
  deriving DecidableEq, Repr

/-- `GAIN_CENTER`. -/
def gainCenter : Float32 := 0.70710678118654752440

/-- The coefficients of a position, left and right. -/
def ChannelPosition.gains : ChannelPosition → Float32 × Float32
  | mono => (gainCenter, gainCenter)
  | frontLeft => (1, 0)
  | frontRight => (0, 1)
  | frontCenter => (gainCenter, gainCenter)
  | lfe => (gainCenter, gainCenter)
  | rearLeft | sideLeft => (gainCenter, 0)
  | rearRight | sideRight => (0, gainCenter)
  | rearCenter => (0.5, 0.5)
  | frontLeftOfCenter => (1, gainCenter)
  | frontRightOfCenter => (gainCenter, 1)
  | other => (0.5, 0.5)

structure DownmixCoeffs where
  left : List Float32
  right : List Float32

namespace DownmixCoeffs

/-- A channel that the map does not place is not heard. -/
def fromChannelMap (channelMap : List ChannelPosition) (channels : UInt8) : DownmixCoeffs where
  left := (List.range channels.toNat).map fun i => (channelMap[i]?.elim (0, 0) ChannelPosition.gains).1
  right := (List.range channels.toNat).map fun i => (channelMap[i]?.elim (0, 0) ChannelPosition.gains).2

/-- `zip`, `map` and `sum`. -/
def mix (coeffs samples : List Float32) : Float32 :=
  (coeffs.zip samples).foldl (fun sum c => sum + c.1 * c.2) 0

def mixLeft (d : DownmixCoeffs) (samples : List Float32) : Float32 := mix d.left samples

def mixRight (d : DownmixCoeffs) (samples : List Float32) : Float32 := mix d.right samples

end DownmixCoeffs

/-- `Buffer<F>`. -/
structure Buffer extends Audio.Buffer where
  downmix : DownmixCoeffs

/-- Sample `i`, out of bounds a panic. -/
def sampleAt (samples : List Float32) (i : Nat) : Outcome Float32 := samples[i]?.elim .panic .ok

/-- `from_fn`. -/
def fromFn (channels : Nat) (f : Nat → Outcome Float32) : Outcome Frame := (List.range channels).mapM f

namespace Buffer

def new (sampleSpec : SampleSpec) (channelMap : List ChannelPosition) (outputChannels : Nat) : Buffer where
  inner := []
  sampleSpec
  outputChannels
  downmix := .fromChannelMap channelMap sampleSpec.channels

/-- `EQUILIBRIUM`. -/
def equilibrium (b : Buffer) : Frame := List.replicate b.outputChannels 0

def lenFrames (b : Buffer) : Outcome Nat := checkedDiv b.inner.length b.sampleSpec.frameSize

/-- The next `n` bytes, which the caller unwraps. -/
def readBytes (n : Nat) (decode : List Byte → Float32) (b : Buffer) : Outcome (Float32 × Buffer) :=
  if b.inner.length < n then .panic
  else .ok (decode (b.inner.take n), { b with inner := b.inner.drop n })

variable (d : Dasp)

/-- `read_sample`. A sample of 24 bits is converted as one of 32. -/
def readSample (b : Buffer) : Outcome (Float32 × Buffer) :=
  match b.sampleSpec.format with
  | .float32Le => b.readBytes 4 fun bytes => Float32.ofBits (UInt32.ofNat (ofLe bytes))
  | .float32Be => b.readBytes 4 fun bytes => Float32.ofBits (UInt32.ofNat (ofBe bytes))
  | .s16Le => b.readBytes 2 fun bytes => d.fromI16 (Int16.ofNat (ofLe bytes))
  | .s16Be => b.readBytes 2 fun bytes => d.fromI16 (Int16.ofNat (ofBe bytes))
  | .u8 => b.readBytes 1 fun bytes => d.fromU8 (UInt8.ofNat (ofLe bytes))
  | .s32Le => b.readBytes 4 fun bytes => d.fromI32 (Int32.ofNat (ofLe bytes))
  | .s32Be => b.readBytes 4 fun bytes => d.fromI32 (Int32.ofNat (ofBe bytes))
  | .s24Le => b.readBytes 3 fun bytes => d.fromI32 (Int32.ofInt (BitVec.ofNat 24 (ofLe bytes)).toInt)
  | .s24Be => b.readBytes 3 fun bytes => d.fromI32 (Int32.ofInt (BitVec.ofNat 24 (ofBe bytes)).toInt)
  | .invalid | .unsupported => .panic

def readSamples : Nat → Buffer → Outcome (List Float32 × Buffer)
  | 0, b => .ok ([], b)
  | n + 1, b => do
    let (s, b) ← b.readSample d
    let (ss, b) ← readSamples n b
    return (s :: ss, b)

/-- The frame of the output that the samples of a frame are mixed to. -/
def mixFrame (b : Buffer) (samples : List Float32) : Outcome Frame :=
  let inputChannels := b.sampleSpec.channels.toNat
  if inputChannels = b.outputChannels then fromFn b.outputChannels (sampleAt samples)
  else if inputChannels < b.outputChannels then
    if inputChannels = 1 then
      fromFn b.outputChannels fun ch => if ch < 2 then sampleAt samples 0 else .ok 0
    else fromFn b.outputChannels fun ch => if ch < inputChannels then sampleAt samples ch else .ok 0
  else if b.outputChannels = 2 then
    -- the slice of the samples, of which there are 32
    if samples.length < inputChannels then .panic
    else
      let left := b.downmix.mixLeft (samples.take inputChannels)
      let right := b.downmix.mixRight (samples.take inputChannels)
      fromFn b.outputChannels fun ch => .ok (if ch = 0 then left else right)
  else fromFn b.outputChannels (sampleAt samples)

def readFrame (b : Buffer) : Outcome (Option Frame × Buffer) := do
  if (← b.lenFrames) = 0 then return (none, b)
  else
    let (read, b) ← b.readSamples d (min b.sampleSpec.channels.toNat 32)
    let frame ← b.mixFrame (read ++ List.replicate (32 - read.length) 0)
    return (some frame, b)

/-- `next`, with `missing` in the place of a frame that is not there: silence, in
the code. -/
def next (missing : Outcome Frame) : Signal Buffer Frame := fun b => do
  match ← b.readFrame d with
  | (some frame, b) => return (frame, b)
  | (none, b) => return (← missing, b)

end Buffer

/-- Where a converter is between two frames of its source, in fractions of the
target rate. -/
structure Position where
  source : Nat
  target : Nat
  phase : Nat
  source_pos : 0 < source
  target_pos : 0 < target
  phase_lt : phase < target + source

namespace Position

/-- The frames of the source to be taken before the next frame. -/
def pulls (p : Position) : Nat := p.phase / p.target

def advance (p : Position) : Position :=
  { p with
    phase := PhaseAccumulator.tick p.target p.source p.phase
    phase_lt := PhaseAccumulator.tick_lt p.target_pos p.phase }

/-- `from_hz_to_hz`, which asserts that the ratio is positive; there is none to a
rate of zero. -/
def fromHzToHz (source target : UInt32) : Outcome Position :=
  if h : 0 < source.toNat ∧ 0 < target.toNat then
    .ok ⟨source.toNat, target.toNat, 0, h.1, h.2, Nat.add_pos_left h.2 _⟩
  else .panic

end Position

/-- The converter, as far as it takes frames of its source. -/
def exactResampler : Resampler where
  Converter := Position
  fromHzToHz := Position.fromHzToHz
  next p := (p.pulls, p.advance)

structure Converter (d : Dasp) where
  source : Buffer
  sinc : d.Sinc
  position : Position

namespace Converter

variable {d : Dasp} (missing : Outcome Frame)

/-- `n` frames of the source. -/
def pull : Nat → Converter d → Outcome (Converter d)
  | 0, c => .ok c
  | n + 1, c => do
    let (frame, source) ← c.source.next d missing
    pull n { c with source, sinc := d.nextSourceFrame frame c.sinc }

def next : Signal (Converter d) Frame := fun c => do
  let c ← c.pull missing c.position.pulls
  return (d.interpolate (c.position.phase % c.position.target) c.position.target c.sinc,
    { c with position := c.position.advance })

end Converter

inductive PlaybackBuffer (d : Dasp)
  | passthrough (buffer : Buffer)
  | resampling (converter : Converter d) (outputRate : UInt32)

namespace PlaybackBuffer

variable {d : Dasp}

/-- `DynPlaybackBuffer::new` with `PlaybackBuffer::new`. -/
def new (sampleSpec : SampleSpec) (channelMap : List ChannelPosition) (outputSpec : SampleSpec) :
    Outcome (PlaybackBuffer d) :=
  let outputChannels := if outputSpec.channels = 6 then 6 else if outputSpec.channels = 8 then 8 else 2
  if outputSpec.channels.toNat ≠ outputChannels then .panic
  else
    let buffer := Buffer.new sampleSpec channelMap outputChannels
    if sampleSpec.sampleRate = outputSpec.sampleRate then .ok (.passthrough buffer)
    else do
      let position ← Position.fromHzToHz sampleSpec.sampleRate outputSpec.sampleRate
      return .resampling ⟨buffer, d.sinc, position⟩ outputSpec.sampleRate

def buffer : PlaybackBuffer d → Buffer
  | passthrough buffer => buffer
  | resampling converter _ => converter.source

def mapBuffer (f : Buffer → Buffer) : PlaybackBuffer d → PlaybackBuffer d
  | passthrough buffer => passthrough (f buffer)
  | resampling converter outputRate =>
    resampling { converter with source := f converter.source } outputRate

def write (payload : List Byte) (p : PlaybackBuffer d) : PlaybackBuffer d :=
  p.mapBuffer fun b => { b with inner := b.inner ++ payload }

def clear (p : PlaybackBuffer d) : PlaybackBuffer d := p.mapBuffer fun b => { b with inner := [] }

/-- `drain`, and what becomes of it when `reads` frames are read of the signal
before it is dropped. None of the signals is ever exhausted. -/
def drain (missing : Outcome Frame) (numFrames reads : Nat) :
    PlaybackBuffer d → Outcome (Option (List Frame) × PlaybackBuffer d)
  | passthrough buffer => do
    if (← buffer.lenFrames) < numFrames then return (none, passthrough buffer)
    else
      let (frames, buffer) ←
        Drain.readThenDrop (Buffer.next d missing) buffer.equilibrium reads ⟨buffer, numFrames⟩
      return (some frames, passthrough buffer)
  | resampling converter outputRate => do
    let product ← checkedMul 64 converter.source.sampleSpec.sampleRate.toNat numFrames
    let neededFrames ← checkedDiv (product + outputRate.toNat - 1) outputRate.toNat
    if (← converter.source.lenFrames) < neededFrames then return (none, resampling converter outputRate)
    else
      let (frames, converter) ←
        Drain.readThenDrop (Converter.next missing) converter.source.equilibrium reads ⟨converter, numFrames⟩
      return (some frames, resampling converter outputRate)

end PlaybackBuffer

end Moonshine.Impl.Audio.Sampled
