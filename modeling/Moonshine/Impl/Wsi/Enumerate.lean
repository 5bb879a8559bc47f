import Moonshine.Framework.Enumeration

/-!
# Enumerations of the Vulkan layer, `moonshine-wsi/surface.rs`

The surface formats and device extensions that the layer appends to the driver's. A call
down the chain is the `Enumeration` of the next layer or the driver. A count that overflows
in the addition panics in a build with overflow checks (`checks`) and wraps in one without;
the other sums are of `usize` and cannot.
-/

namespace Moonshine.Impl.Wsi

open Moonshine.Framework

variable {T : Type*}

/-- `VK_ERROR_INITIALIZATION_FAILED`. -/
def errorInitializationFailed : Status := .error (-3)

/-- `VK_ERROR_FEATURE_NOT_PRESENT`. -/
def errorFeatureNotPresent : Status := .error (-8)

/-- `u32`'s `+=`. -/
def addCount (checks : Bool) (a b : UInt32) : Outcome UInt32 :=
  if checks && UInt32.size ≤ a.toNat + b.toNat then .panic else .ok (a + b)

/-- `with_instance`, of the instance's entry for the function: an instance the layer knows, and
a function its dispatch table has. -/
def withInstance (next : Option (Option (Enumeration T))) : Enumeration T :=
  match next with
  | none => ⟨pure errorInitializationFailed, pure errorInitializationFailed⟩
  | some none => ⟨pure errorFeatureNotPresent, pure errorFeatureNotPresent⟩
  | some (some call) => call

/-- What `append_hdr_formats` and `enumerate_device_extension_properties` do with elements of
their own, `extras`. -/
def appendExtras (checks : Bool) (extras : List T) (next : Enumeration T) : Enumeration T where
  query := do
    let result ← next.query
    if result ≠ .success then return result
    let n ← Prog.gets id
    let n ← addCount checks n (UInt32.ofNat extras.length)
    Prog.modify fun _ => n
    return .success
  fill := do
    let callerCount ← Prog.gets fun b => b.count.toNat
    -- Space is reserved: `saturating_sub`.
    Prog.modify fun b => { b with count := UInt32.ofNat (callerCount - extras.length) }
    let result ← next.fill
    if result ≠ .success && result ≠ .incomplete then return result
    let baseCount ← Prog.gets fun b => b.count.toNat
    let remaining := callerCount - baseCount
    let copyCount := min remaining extras.length
    Prog.modify fun b =>
      ⟨UInt32.ofNat (baseCount + copyCount), store b.elements baseCount (extras.take copyCount)⟩
    return if copyCount < extras.length then .incomplete else result

inductive Format
  | a2b10g10r10UnormPack32 | a2r10g10b10UnormPack32 | r16g16b16a16Sfloat
  | other (code : Int)
  deriving DecidableEq, Repr

inductive ColorSpace
  | hdr10St2084 | extendedSrgbLinear
  | other (code : Int)
  deriving DecidableEq, Repr

structure SurfaceFormat where
  format : Format
  colorSpace : ColorSpace
  deriving DecidableEq, Repr

/-- With a null `p_next`, as the layer writes it, or the driver's. -/
structure SurfaceFormat2 where
  pNext : Nat
  surfaceFormat : SurfaceFormat
  deriving DecidableEq, Repr

/-- `HDR_FORMATS`. -/
def hdrFormats : List (Format × ColorSpace) :=
  [(.a2b10g10r10UnormPack32, .hdr10St2084), (.a2r10g10b10UnormPack32, .hdr10St2084),
    (.r16g16b16a16Sfloat, .extendedSrgbLinear)]

/-- `writeElement` is the element that the closure writes. -/
def appendHdrFormats (checks : Bool) (callIcd : Enumeration T) (writeElement : Format → ColorSpace → T) :
    Enumeration T :=
  appendExtras checks (hdrFormats.map fun (fmt, cs) => writeElement fmt cs) callIcd

/-- `hdrSupported` is the compositor's capability, if the instance has a connection to one. -/
def getPhysicalDeviceSurfaceFormats (checks : Bool) (hdrSupported : Option Bool)
    (next : Option (Option (Enumeration SurfaceFormat))) : Enumeration SurfaceFormat :=
  if hdrSupported.getD false then appendHdrFormats checks (withInstance next) SurfaceFormat.mk
  else withInstance next

def getPhysicalDeviceSurfaceFormats2 (checks : Bool) (hdrSupported : Option Bool)
    (next : Option (Option (Enumeration SurfaceFormat2))) : Enumeration SurfaceFormat2 :=
  if hdrSupported.getD false then
    appendHdrFormats checks (withInstance next) fun fmt cs => ⟨0, ⟨fmt, cs⟩⟩
  else withInstance next

structure ExtensionProperties where
  extensionName : String
  specVersion : UInt32
  deriving DecidableEq, Repr

/-- `LAYER_EXTENSIONS`. -/
def layerExtensions : List ExtensionProperties :=
  [⟨"VK_EXT_hdr_metadata", 2⟩, ⟨"VK_GOOGLE_display_timing", 1⟩]

/-- The layer's own extensions, asked for by its name. -/
def enumerateLayerExtensions : Enumeration ExtensionProperties where
  query := do
    Prog.modify fun _ => UInt32.ofNat layerExtensions.length
    return .success
  fill := do
    let count ← Prog.gets fun b => min b.count.toNat layerExtensions.length
    Prog.modify fun b => ⟨UInt32.ofNat count, store b.elements 0 (layerExtensions.take count)⟩
    return if count < layerExtensions.length then .incomplete else .success

/-- `next` is the entry of the dispatch table, which is given the layer's name. -/
def enumerateDeviceExtensionProperties (checks : Bool)
    (next : Option (Option (Option String → Enumeration ExtensionProperties))) (layerName : Option String) :
    Enumeration ExtensionProperties :=
  let forward := withInstance (next.map fun entry => entry.map fun call => call layerName)
  match layerName with
  | some layer =>
    if layer = "VK_LAYER_MOONSHINE_wsi_x86_64" then enumerateLayerExtensions else forward
  | none => appendExtras checks layerExtensions forward

end Moonshine.Impl.Wsi
