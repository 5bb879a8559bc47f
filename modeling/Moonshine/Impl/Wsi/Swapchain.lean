import Moonshine.Framework.HashMap
import Moonshine.Framework.Outcome
import Moonshine.Impl.Wsi.Enumerate

/-!
# Swapchains of the Vulkan layer, `moonshine-wsi/swapchain.rs` and `state.rs`

The map from raw swapchain handles to the layer's data, the `moonshine_swapchain`
objects with the handle each was given as its user data, and the requests sent on the
connection. Dropping a proxy sends no request. What the layer looks up elsewhere when a
swapchain is created, and what the driver returns, is the environment's choice
(`CreateEnv`).
-/

namespace Moonshine.Impl.Wsi

open Moonshine.Framework

/-- A raw `VkSwapchainKHR`. -/
abbrev SwapchainKey := UInt64

/-- The fields of `VkSwapchainCreateInfoKHR` that the layer reads. -/
structure CreateInfo where
  surface : UInt64
  minImageCount : UInt32
  imageFormat : Int
  imageColorSpace : Int
  imageExtent : UInt32 × UInt32
  compositeAlpha : UInt32
  preTransform : UInt32
  clipped : UInt32
  presentMode : Int
  deriving DecidableEq, Repr

/-- `SRGB_NONLINEAR`. -/
def srgbNonlinear : Int := 0

structure PastPresentTiming where
  presentId : UInt32
  desiredPresentTime : UInt64
  actualPresentTime : UInt64
  earliestPresentTime : UInt64
  presentMargin : UInt64
  deriving DecidableEq, Repr

structure SwapchainData where
  deviceKey : Nat
  presentMode : Int
  format : Int
  colorSpace : Int
  imageCount : UInt32
  extent : UInt32 × UInt32
  surface : UInt64
  /-- The `moonshine_swapchain` object, by its number. -/
  msSwapchain : Option Nat
  refreshCycleNs : UInt64
  retired : Bool
  forceFifoAtCreation : Bool
  isBypassingXwayland : Bool
  pastTimings : List PastPresentTiming
  deriving DecidableEq, Repr

/-- Requests on the factory and on an object. -/
inductive Request
  | createSwapchain (wlSurface : UInt64) (object : Nat)
  | swapchainFeedback (object : Nat)
      (imageCount vkFormat vkColorspace vkCompositeAlpha vkPreTransform vkClipped : UInt32)
  | setPresentMode (object : Nat) (vkPresentMode : UInt32)
  | overrideWindowContent (object : Nat) (xwaylandServerId x11Window : UInt32)
  | destroy (object : Nat)
  deriving DecidableEq, Repr

structure Layer where
  swapchains : HashMap SwapchainKey SwapchainData
  /-- The user data of the objects created so far. -/
  objects : List SwapchainKey
  requests : List Request
  /-- The handles of the driver's swapchains. -/
  live : List SwapchainKey

/-- What `create_swapchain` finds and is answered. -/
structure CreateEnv where
  deviceKey : Nat
  /-- The device's instance, if the device is known, with its connection's `hdr_supported`. -/
  instanceKey : Option (Option Bool)
  /-- `can_bypass_xwayland`. -/
  bypassAllowed : Bool
  /-- The dispatch table's function, if there is one: an error or a handle. -/
  driver : Option (CreateInfo → Except Int SwapchainKey)
  /-- The surface's record: its `wl_surface` and X11 window. -/
  wlSurface : Option (UInt64 × Option UInt32)
  isForcingFifo : Bool

namespace CreateEnv

/-- The driver is given `SRGB_NONLINEAR` where the layer is to say the colour space itself. -/
def infoForIcd (env : CreateEnv) (info : CreateInfo) : CreateInfo :=
  let layerHdrActive := (env.instanceKey.bind id).getD false
  if layerHdrActive && info.imageColorSpace ≠ srgbNonlinear then
    { info with imageColorSpace := srgbNonlinear }
  else info

def callDriver (env : CreateEnv) (info : CreateInfo) : Except Int SwapchainKey :=
  match env.driver with
  | some create => create (env.infoForIcd info)
  | none => .error (-3)

/-- The record that is inserted. -/
def swapchainData (env : CreateEnv) (info : CreateInfo) (msSwapchain : Option Nat)
    (isBypassingXwayland : Bool) : SwapchainData where
  deviceKey := env.deviceKey
  presentMode := info.presentMode
  format := info.imageFormat
  colorSpace := info.imageColorSpace
  imageCount := info.minImageCount
  extent := info.imageExtent
  surface := info.surface
  msSwapchain := msSwapchain
  refreshCycleNs := 0
  retired := false
  forceFifoAtCreation := env.isForcingFifo
  isBypassingXwayland := isBypassingXwayland
  pastTimings := []

/-- The requests about a new object. -/
def announce (env : CreateEnv) (info : CreateInfo) (object : Nat) (wlSurface : UInt64) (xcbWindow : Option UInt32) :
    List Request :=
  [.createSwapchain wlSurface object,
    .swapchainFeedback object info.minImageCount (UInt32.ofInt info.imageFormat)
      (UInt32.ofInt info.imageColorSpace) info.compositeAlpha info.preTransform info.clipped,
    .setPresentMode object (UInt32.ofInt info.presentMode)] ++
  match xcbWindow with
  | some xid => if env.bypassAllowed then [.overrideWindowContent object 0 xid] else []
  | none => []

end CreateEnv

namespace Layer

def insertSwapchain (key : SwapchainKey) (data : SwapchainData) : Prog Layer Unit :=
  Prog.modify fun s => { s with swapchains := s.swapchains.insert key data }

def removeSwapchain (key : SwapchainKey) : Prog Layer Unit :=
  Prog.modify fun s => { s with swapchains := s.swapchains.erase key }

def withSwapchainMut (key : SwapchainKey) (f : SwapchainData → SwapchainData) : Prog Layer Unit :=
  Prog.modify fun s => { s with swapchains := s.swapchains.modify key f }

/-- The protocol object, whose user data is the swapchain's handle. -/
def createObject (env : CreateEnv) (info : CreateInfo) (key : SwapchainKey) : Prog Layer (Option Nat) := do
  match env.instanceKey.bind id, env.wlSurface with
  | some _, some (wlSurface, xcbWindow) =>
    let object ← Prog.gets fun s => s.objects.length
    Prog.modify fun s => { s with
      objects := s.objects ++ [key]
      requests := s.requests ++ env.announce info object wlSurface xcbWindow }
    return some object
  | some _, none => return none
  | none, _ => return none

def createSwapchain (env : CreateEnv) (info : CreateInfo) : Prog Layer Status := do
  match env.callDriver info with
  | .error code => return .error code
  | .ok key =>
    Prog.modify fun s => { s with live := key :: s.live }
    match env.instanceKey with
    | none =>
      insertSwapchain key (env.swapchainData info none false)
      return .success
    | some _ =>
      let msSwapchain ← createObject env info key
      insertSwapchain key (env.swapchainData info msSwapchain env.bypassAllowed)
      return .success

/-- `forwarded`: the device is known, and its dispatch table has the function. -/
def destroySwapchain (forwarded : Bool) (swapchain : SwapchainKey) : Prog Layer Unit := do
  removeSwapchain swapchain
  if forwarded then Prog.modify fun s => { s with live := s.live.erase swapchain }

end Layer

inductive Event
  | refreshCycle (refreshCycleHi refreshCycleLo : UInt32)
  | retired
  | pastPresentTiming (presentId desiredPresentTimeHi desiredPresentTimeLo actualPresentTimeHi
      actualPresentTimeLo earliestPresentTimeHi earliestPresentTimeLo presentMarginHi presentMarginLo : UInt32)
  deriving DecidableEq, Repr

/-- `((hi as u64) << 32) | (lo as u64)`. -/
def joinWords (hi lo : UInt32) : UInt64 := hi.toUInt64 <<< 32 ||| lo.toUInt64

/-- What an event's handler does to the record. -/
def Event.apply : Event → SwapchainData → SwapchainData
  | .refreshCycle hi lo, d => { d with refreshCycleNs := joinWords hi lo }
  | .retired, d => { d with retired := true }
  | .pastPresentTiming presentId desiredHi desiredLo actualHi actualLo earliestHi earliestLo marginHi marginLo, d =>
    let timing : PastPresentTiming :=
      ⟨presentId, joinWords desiredHi desiredLo, joinWords actualHi actualLo, joinWords earliestHi earliestLo,
        joinWords marginHi marginLo⟩
    let pastTimings := if 16 ≤ d.pastTimings.length then d.pastTimings.drop 1 else d.pastTimings
    { d with pastTimings := pastTimings ++ [timing] }

/-- `Dispatch::event`, with the object's user data. -/
def dispatchEvent (event : Event) (swapchainKey : SwapchainKey) : Prog Layer Unit :=
  Layer.withSwapchainMut swapchainKey event.apply

end Moonshine.Impl.Wsi
