import Moonshine.Impl.Stream.Context

/-!
# Exported frames and HDR metadata, `session/compositor/frame.rs`

A frame shares its `consumed` flag with the compositor. The flag itself is state
of both threads; the frame has its name.
-/

namespace Moonshine.Impl

/-- Static metadata: primaries and white point in units of 0.00002, luminances
of the display in units of 0.0001 cd/m², light levels of the content in cd/m². -/
structure HdrMetadata where
  displayPrimaries : Vector (UInt16 × UInt16) 3
  whitePoint : UInt16 × UInt16
  maxLuminance : UInt32
  minLuminance : UInt32
  maxCll : UInt16
  maxFall : UInt16
  deriving DecidableEq, Repr

def HdrMetadata.fallback : HdrMetadata where
  displayPrimaries := #v[(34000, 16000), (13250, 34500), (7500, 3000)]
  whitePoint := (15635, 16450)
  maxLuminance := 10000000
  minLuminance := 10
  maxCll := 0
  maxFall := 0

structure HdrModeState where
  enabled : Bool
  metadata : Option HdrMetadata
  deriving DecidableEq, Repr

def HdrModeState.new (enabled : Bool) : HdrModeState := ⟨enabled, none⟩

inductive FrameColorSpace
  | srgb | bt2020Pq | scrgbLinear
  deriving DecidableEq, Repr

/-- `BUFFER_POOL_SIZE`. -/
def bufferPoolSize : Nat := 3

instance : NeZero bufferPoolSize := ⟨by decide⟩

/-- A slot of the buffer pool has one flag for all its frames, a frame that is
scanned out directly has one of its own. -/
inductive ConsumedFlag
  | slot (index : Fin bufferPoolSize)
  | scanout (n : Nat)
  deriving DecidableEq, Repr

structure ExportedPlane where
  fd : Int32
  offset : UInt32
  stride : UInt32
  deriving DecidableEq, Repr

structure ExportedFrame where
  planes : List ExportedPlane
  format : UInt32
  modifier : UInt64
  width : UInt32
  height : UInt32
  /-- A `usize`. -/
  bufferIndex : Nat
  consumed : ConsumedFlag
  colorSpace : FrameColorSpace
  hdrMetadata : Option HdrMetadata
  deriving DecidableEq, Repr

end Moonshine.Impl
