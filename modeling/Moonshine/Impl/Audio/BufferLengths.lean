import Moonshine.Framework.Rounding
import Moonshine.Impl.Audio.PulseServer

/-!
# `configure_buffer` with its overflows, `pulse_server/commands.rs`

`configureBufferChecked` does what `configureBuffer` does, on numbers, and panics
at the first step whose result is lost: a product or a rounding of 32 bits that
wraps, and the cast of the length of 10 ms.
-/

namespace Moonshine.Impl.Audio

open Moonshine.Framework Moonshine.Impl

/-- The lengths of a `BufferAttr`, as numbers. -/
structure Lengths where
  maxLength : Nat
  targetLength : Nat
  preBuffering : Nat
  minimumRequestLength : Nat
  deriving DecidableEq, Repr

def BufferAttr.lengths (attr : BufferAttr) : Lengths where
  maxLength := attr.maxLength.toNat
  targetLength := attr.targetLength.toNat
  preBuffering := attr.preBuffering.toNat
  minimumRequestLength := attr.minimumRequestLength.toNat

/-- The length of 10 ms, before the cast. -/
def SampleSpec.bytes10ms (spec : SampleSpec) : Nat := spec.frameSize * spec.sampleRate.toNat / 100

def checkedMaxLength (frameSize len10ms : Nat) (maxLength : UInt32) : Outcome Nat :=
  if maxLength = u32Max then checkedMul 32 len10ms 20
  else do
    let rounded ← checkedNextMultipleOf 32 maxLength.toNat frameSize
    return min rounded (← checkedMul 32 len10ms 100)

def checkedMinimumRequestLength (frameSize len10ms : Nat) (minimumRequestLength : UInt32) : Outcome Nat :=
  if minimumRequestLength = u32Max then checkedNextMultipleOf 32 (len10ms / 2) frameSize
  else do
    return max (← checkedNextMultipleOf 32 minimumRequestLength.toNat frameSize) (len10ms / 2)

def checkedTargetLength (len10ms maxLength minimumRequestLength : Nat) (targetLength : UInt32) :
    Outcome Nat :=
  if targetLength = u32Max then do
    let rounded ← checkedNextMultipleOf 32 (← checkedMul 32 len10ms 6) minimumRequestLength
    return min rounded maxLength
  else do
    let rounded ← checkedNextMultipleOf 32 targetLength.toNat minimumRequestLength
    let targetLength := min (max rounded (← checkedMul 32 len10ms 6)) maxLength
    let least ← checkedMul 32 minimumRequestLength 2
    return if targetLength < least then least else targetLength

def checkedPreBuffering (minimumRequestLength targetLength : Nat) (preBuffering : UInt32) : Outcome Nat :=
  if preBuffering = u32Max then .ok targetLength
  else do
    return min (← checkedNextMultipleOf 32 preBuffering.toNat minimumRequestLength) targetLength

def configureBufferChecked (spec : SampleSpec) (attr : BufferAttr) : Outcome Lengths := do
  let len10ms ← checkedCast 32 spec.bytes10ms
  let maxLength ← checkedMaxLength spec.frameSize len10ms attr.maxLength
  let minimumRequestLength ←
    checkedMinimumRequestLength spec.frameSize len10ms attr.minimumRequestLength
  let targetLength ← checkedTargetLength len10ms maxLength minimumRequestLength attr.targetLength
  let preBuffering ← checkedPreBuffering minimumRequestLength targetLength attr.preBuffering
  return { maxLength, targetLength, preBuffering, minimumRequestLength }

end Moonshine.Impl.Audio
