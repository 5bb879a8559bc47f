import Moonshine.Framework.Bytes
import Moonshine.Framework.Outcome
import Moonshine.Impl.Stream.Context

/-!
# Playback buffers, `session/stream/audio/buffer.rs`

`PlaybackBuffer` with the bytes it holds: what is written is appended, and a
drain takes whole frames off the front. The samples' values and the mixing are
left to `Impl.Audio.Sampled`. The sample-rate converter is `dasp`'s and a parameter (`Resampler`);
of it only how many frames of its source it takes is used.
-/

namespace Moonshine.Impl.Audio

open Moonshine.Framework Moonshine.Impl

inductive SampleFormat
  | u8 | s16Le | s16Be | float32Le | float32Be | s32Le | s32Be | s24Le | s24Be
  /-- The other formats of the protocol; no stream has them. -/
  | invalid | unsupported
  deriving DecidableEq, Repr

def SampleFormat.bytesPerSample : SampleFormat → Nat
  | u8 => 1
  | s16Le | s16Be => 2
  | s24Le | s24Be => 3
  | float32Le | float32Be | s32Le | s32Be => 4
  | invalid | unsupported => 0

/-- `is_supported_format`. -/
def SampleFormat.isSupported : SampleFormat → Bool
  | invalid | unsupported => false
  | _ => true

structure SampleSpec where
  format : SampleFormat
  channels : UInt8
  sampleRate : UInt32
  deriving DecidableEq, Repr

/-- `channels as usize * bytes_per_sample()`. -/
def SampleSpec.frameSize (spec : SampleSpec) : Nat :=
  spec.channels.toNat * spec.format.bytesPerSample

/-- The sample-rate converter of the `dasp` crate. -/
structure Resampler where
  Converter : Type
  /-- `from_hz_to_hz`. -/
  fromHzToHz : (source target : UInt32) → Outcome Converter
  /-- `next`: how many frames it takes from its source. -/
  next : Converter → Nat × Converter

/-- `Buffer<F>`, with the number of channels of `F`. -/
structure Buffer where
  inner : List Byte
  sampleSpec : SampleSpec
  outputChannels : Nat
  deriving DecidableEq, Repr

namespace Buffer

def lenBytes (b : Buffer) : Nat := b.inner.length

/-- A frame has bytes: `configure_buffer` panics where it has none. -/
def lenFrames (b : Buffer) : Nat := b.inner.length / b.sampleSpec.frameSize

/-- `read_frame`: a frame is read into 32 samples, however many channels there
are, and the downmix to stereo slices as many as there are. -/
def readFrame (b : Buffer) : Outcome (Option Buffer) :=
  if b.lenFrames = 0 then .ok none
  else if b.outputChannels = 2 ∧ 32 < b.sampleSpec.channels.toNat then .panic
  else
    let samples := min b.sampleSpec.channels.toNat 32
    .ok (some { b with inner := b.inner.drop (samples * b.sampleSpec.format.bytesPerSample) })

/-- `next`: silence where there is no frame. -/
def next (b : Buffer) : Outcome Buffer := do
  return (← b.readFrame).getD b

/-- `n` calls of `next`. -/
def nexts : Nat → Buffer → Outcome Buffer
  | 0, b => .ok b
  | n + 1, b => do
    let b ← b.next
    nexts n b

end Buffer

inductive PlaybackBuffer (r : Resampler)
  | passthrough (buffer : Buffer)
  | resampling (buffer : Buffer) (converter : r.Converter) (outputRate : UInt32)

namespace PlaybackBuffer

variable {r : Resampler}

/-- `DynPlaybackBuffer::new` with `PlaybackBuffer::new`. -/
def new (sampleSpec outputSpec : SampleSpec) : Outcome (PlaybackBuffer r) :=
  let buffer : Buffer :=
    { inner := []
      sampleSpec := sampleSpec
      outputChannels :=
        if outputSpec.channels = 6 then 6 else if outputSpec.channels = 8 then 8 else 2 }
  if outputSpec.channels.toNat ≠ buffer.outputChannels then .panic
  else if sampleSpec.sampleRate = outputSpec.sampleRate then .ok (.passthrough buffer)
  else do
    let converter ← r.fromHzToHz sampleSpec.sampleRate outputSpec.sampleRate
    return .resampling buffer converter outputSpec.sampleRate

def buffer : PlaybackBuffer r → Buffer
  | passthrough buffer => buffer
  | resampling buffer _ _ => buffer

def mapBuffer (f : Buffer → Buffer) : PlaybackBuffer r → PlaybackBuffer r
  | passthrough buffer => passthrough (f buffer)
  | resampling buffer converter outputRate => resampling (f buffer) converter outputRate

def lenBytes (p : PlaybackBuffer r) : Nat := p.buffer.lenBytes

def lenFrames (p : PlaybackBuffer r) : Nat := p.buffer.lenFrames

def isEmpty (p : PlaybackBuffer r) : Bool := p.lenFrames == 0

def write (payload : List Byte) (p : PlaybackBuffer r) : PlaybackBuffer r :=
  p.mapBuffer fun b => { b with inner := b.inner ++ payload }

def clear (p : PlaybackBuffer r) : PlaybackBuffer r :=
  p.mapBuffer fun b => { b with inner := [] }

/-- `n` frames of the converter. -/
def convert : Nat → Buffer → r.Converter → Outcome (Buffer × r.Converter)
  | 0, b, c => .ok (b, c)
  | n + 1, b, c => do
    let b ← b.nexts (r.next c).1
    convert n b (r.next c).2

/-- The frames of the source that `num_frames` take at least. -/
def neededFrames (sampleRate outputRate : UInt32) (numFrames : Nat) : Nat :=
  (sampleRate.toNat * numFrames + outputRate.toNat - 1) / outputRate.toNat

/-- `drain`, with the signal read or dropped: the mixing reads every frame, and
a drop skips those that were not read. -/
def drain (numFrames : Nat) : PlaybackBuffer r → Outcome (Option (PlaybackBuffer r))
  | passthrough buffer =>
    if buffer.lenFrames < numFrames then .ok none
    else do
      let buffer ← buffer.nexts numFrames
      return some (passthrough buffer)
  | resampling buffer converter outputRate =>
    if buffer.lenFrames < neededFrames buffer.sampleSpec.sampleRate outputRate numFrames then .ok none
    else do
      let (buffer, converter) ← convert numFrames buffer converter
      return some (resampling buffer converter outputRate)

end PlaybackBuffer

end Moonshine.Impl.Audio
