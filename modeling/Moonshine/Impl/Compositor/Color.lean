import Moonshine.Framework.HashMap
import Moonshine.Impl.Compositor.Frame
import Moonshine.Impl.Compositor.Windows

/-!
# Colours of surfaces, `session/compositor/color_management.rs` and `gamescope_swapchain.rs`

The requests of the swapchain protocol and of the colour management protocol,
the override of a window's surface, and what the compositor keeps of the colours
that they declare. Without HDR in the session there is no
`ColorManagementState`.
-/

namespace Moonshine.Impl.ColorManagement

open Moonshine.Framework Moonshine.Impl.Compositor

inductive TransferFunction
  | gamma22 | st2084Pq | scrgbLinear
  deriving DecidableEq, Repr

inductive Primaries
  | srgb | bt2020
  deriving DecidableEq, Repr

abbrev Coordinates := UInt32 × UInt32

structure ImageDescription where
  transferFunction : TransferFunction
  primaries : Primaries
  maxCll : Option UInt32
  maxFall : Option UInt32
  masteringLuminance : Option (UInt32 × UInt32)
  masteringPrimaries : Option (Vector Coordinates 3)
  whitePoint : Option Coordinates
  deriving DecidableEq, Repr

namespace ImageDescription

def srgb : ImageDescription := ⟨.gamma22, .srgb, none, none, none, none, none⟩

def toFrameColorSpace (desc : ImageDescription) : FrameColorSpace :=
  if desc.primaries = .bt2020 ∧ desc.transferFunction = .st2084Pq then .bt2020Pq
  else if desc.primaries = .srgb ∧ desc.transferFunction = .scrgbLinear then .scrgbLinear
  else .srgb

/-- It carries mastering metadata. -/
def hasMetadata (desc : ImageDescription) : Bool :=
  desc.maxCll.isSome || desc.maxFall.isSome || desc.masteringLuminance.isSome

/-- `u16::try_from(v).unwrap_or(u16::MAX)`. -/
def sat (v : UInt32) : UInt16 := if v.toNat < UInt16.size then v.toUInt16 else 0xFFFF

def toHdrMetadata (desc : ImageDescription) : HdrMetadata where
  displayPrimaries := (desc.masteringPrimaries.map fun p => p.map fun (x, y) => (sat x, sat y)).getD #v[(0, 0), (0, 0), (0, 0)]
  whitePoint := (desc.whitePoint.map fun (x, y) => (sat x, sat y)).getD (0, 0)
  maxLuminance := (desc.masteringLuminance.map Prod.snd).getD 0
  minLuminance := (desc.masteringLuminance.map Prod.fst).getD 0
  maxCll := sat (desc.maxCll.getD 0)
  maxFall := sat (desc.maxFall.getD 0)

end ImageDescription

/-- Mastering metadata, in the units of the protocol. -/
structure MasteringMetadata where
  maxCll : UInt32
  maxFall : UInt32
  masteringLuminance : UInt32 × UInt32
  masteringPrimaries : Vector Coordinates 3
  whitePoint : Coordinates
  deriving DecidableEq, Repr

namespace MasteringMetadata

def isPlausible (m : MasteringMetadata) : Bool :=
  m.maxCll != 0 && m.maxFall != 0 && (m.whitePoint.1 != 0 || m.whitePoint.2 != 0)

def applyTo (m : MasteringMetadata) (desc : ImageDescription) : ImageDescription :=
  { desc with
    maxCll := some m.maxCll
    maxFall := some m.maxFall
    masteringLuminance := some m.masteringLuminance
    masteringPrimaries := some m.masteringPrimaries
    whitePoint := some m.whitePoint }

end MasteringMetadata

/-- What a surface declared through the swapchain protocol. -/
structure SwapchainColor where
  colorspace : Option (TransferFunction × Primaries)
  metadata : Option MasteringMetadata
  deriving DecidableEq, Repr

def SwapchainColor.default : SwapchainColor := ⟨none, none⟩

def SwapchainColor.toImageDescription (c : SwapchainColor) : Option ImageDescription :=
  c.colorspace.map fun (transferFunction, primaries) =>
    let desc := { ImageDescription.srgb with transferFunction, primaries }
    match c.metadata with
    | some metadata => metadata.applyTo desc
    | none => desc

structure ColorManagementState where
  /-- Set by the next commit of the surface. -/
  pending : HashMap Surface (Option ImageDescription)
  current : HashMap Surface ImageDescription
  gamescopeCurrent : HashMap Surface SwapchainColor

namespace ColorManagementState

def new : ColorManagementState := ⟨∅, ∅, ∅⟩

variable (cm : ColorManagementState) (surface : Surface)

def setPending (desc : ImageDescription) : ColorManagementState :=
  { cm with pending := cm.pending.insert surface (some desc) }

def unsetPending : ColorManagementState := { cm with pending := cm.pending.insert surface none }

def commit : ColorManagementState :=
  let pending := cm.pending.erase surface
  match HashMap.get? cm.pending surface with
  | some (some desc) => { cm with pending, current := cm.current.insert surface desc }
  | some none => { cm with pending, current := cm.current.erase surface }
  | none => cm

/-- `entry(surface).or_default()`, changed by `f`. -/
def updateEntry (f : SwapchainColor → SwapchainColor) : ColorManagementState :=
  let entry := (HashMap.get? cm.gamescopeCurrent surface).getD SwapchainColor.default
  { cm with gamescopeCurrent := cm.gamescopeCurrent.insert surface (f entry) }

def setGamescopeColorspace (transferFunction : TransferFunction) (primaries : Primaries) : ColorManagementState :=
  cm.updateEntry surface fun c => { c with colorspace := some (transferFunction, primaries) }

def setGamescopeHdrMetadata (metadata : MasteringMetadata) : ColorManagementState :=
  if metadata.isPlausible then cm.updateEntry surface fun c => { c with metadata := some metadata } else cm

def clearGamescopeCurrent : ColorManagementState :=
  { cm with gamescopeCurrent := cm.gamescopeCurrent.erase surface }

def surfaceDestroyed : ColorManagementState where
  pending := cm.pending.erase surface
  current := cm.current.erase surface
  gamescopeCurrent := cm.gamescopeCurrent.erase surface

/-- The description that a surface has from the swapchain protocol. -/
def swapchainDescription : Option ImageDescription :=
  (HashMap.get? cm.gamescopeCurrent surface).bind SwapchainColor.toImageDescription

end ColorManagementState

/-- An order in which the two maps' values are iterated over. -/
structure Iteration (cm : ColorManagementState) where
  gamescopeCurrent : List SwapchainColor
  current : List ImageDescription
  gamescopeCurrent_perm : gamescopeCurrent.Perm cm.gamescopeCurrent.values
  current_perm : current.Perm cm.current.values

namespace Iteration

variable {cm : ColorManagementState} (i : Iteration cm)

def descriptions : List ImageDescription := i.gamescopeCurrent.filterMap (·.toImageDescription) ++ i.current

def frameColorSpace : FrameColorSpace :=
  if i.descriptions.any fun desc => desc.toFrameColorSpace = .bt2020Pq then .bt2020Pq
  else ((i.descriptions.map (·.toFrameColorSpace)).find? (· ≠ .srgb)).getD .srgb

/-- The description that `hdr_metadata` finds. -/
def hdrDescription : Option ImageDescription :=
  (i.descriptions.filter fun desc => desc.toFrameColorSpace ≠ .srgb).find? (·.hasMetadata)

def hdrMetadata : Option HdrMetadata := i.hdrDescription.map (·.toHdrMetadata)

end Iteration

/-- The parts of the compositor's state that the requests read and write. -/
structure World where
  colorManagement : Option ColorManagementState
  overrideSurface : Option (Surface × UInt32)
  focusedX11Window : Option UInt32
  /-- The refresh rate of the preferred mode of the output, in mHz. -/
  preferredRefresh : Option Int32

/-- A session, with HDR or without. -/
def World.start (hdr : Bool) (preferredRefresh : Option Int32) : World where
  colorManagement := if hdr then some .new else none
  overrideSurface := none
  focusedX11Window := none
  preferredRefresh := preferredRefresh

def vkColorSpaceSrgbNonlinear : UInt32 := 0

def vkColorSpaceExtendedSrgbLinear : UInt32 := 1000104002

def vkColorSpaceHdr10St2084 : UInt32 := 1000104008

def vkColorSpaceExtendedSrgbNonlinear : UInt32 := 1000104014

/-- The parameters of `set_hdr_metadata`. -/
structure HdrMetadataRequest where
  displayPrimaries : Vector Coordinates 3
  whitePoint : Coordinates
  maxDisplayMasteringLuminance : UInt32
  minDisplayMasteringLuminance : UInt32
  maxCll : UInt32
  maxFall : UInt32
  deriving DecidableEq, Repr

/-- `x.saturating_mul(y)`. -/
def saturatingMul (x y : UInt32) : UInt32 := UInt32.ofNat (min (x.toNat * y.toNat) 0xffffffff)

/-- With both luminances in units of 0.0001 cd/m². -/
def HdrMetadataRequest.metadata (r : HdrMetadataRequest) : MasteringMetadata where
  maxCll := r.maxCll
  maxFall := r.maxFall
  masteringLuminance := (r.minDisplayMasteringLuminance, saturatingMul r.maxDisplayMasteringLuminance 10000)
  masteringPrimaries := r.displayPrimaries
  whitePoint := r.whitePoint

namespace World

variable (w : World) (surface : Surface)

def modifyColors (f : ColorManagementState → ColorManagementState) : World :=
  { w with colorManagement := w.colorManagement.map f }

def createSwapchain : World := w.modifyColors (·.clearGamescopeCurrent surface)

/-- The refresh cycle that is sent back, high word first. -/
def refreshCycle : UInt32 × UInt32 :=
  let ns := w.preferredRefresh.map fun refresh => 1000000000000 / (max refresh 1).toInt.toNat
  let refreshNs := ns.getD 11111111
  (UInt32.ofNat (refreshNs / 0x100000000), UInt32.ofNat (refreshNs % 0x100000000))

def handleSwapchainFeedback (vkColorspace : UInt32) : World × (UInt32 × UInt32) :=
  let w' := w.modifyColors fun cm =>
    if vkColorspace = vkColorSpaceHdr10St2084 then cm.setGamescopeColorspace surface .st2084Pq .bt2020
    else if vkColorspace = vkColorSpaceExtendedSrgbLinear ∨ vkColorspace = vkColorSpaceExtendedSrgbNonlinear then
      cm.setGamescopeColorspace surface .scrgbLinear .srgb
    else if vkColorspace = vkColorSpaceSrgbNonlinear then cm.clearGamescopeCurrent surface
    else cm
  (w', w.refreshCycle)

def handleSetHdrMetadata (request : HdrMetadataRequest) : World :=
  w.modifyColors (·.setGamescopeHdrMetadata surface request.metadata)

/-- The surface whose colours are cleared when another one takes its place. -/
def evicted : Option Surface := (w.overrideSurface.map Prod.fst).filter (· ≠ surface)

def evict : World :=
  match w.evicted surface with
  | some oldSurface => w.modifyColors (·.clearGamescopeCurrent oldSurface)
  | none => w

def overrideWindowSurface (x11Window : UInt32) : World :=
  let focusKey := w.focusedX11Window.getD x11Window
  { w.evict surface with overrideSurface := some (surface, focusKey) }

def destroyed : World := w.modifyColors (·.surfaceDestroyed surface)

def swapchainDescription : Option ImageDescription := w.colorManagement.bind (·.swapchainDescription surface)

end World

inductive Action
  | createSwapchain (surface : Surface)
  | swapchainFeedback (surface : Surface) (vkColorspace vkFormat : UInt32)
  | setHdrMetadata (surface : Surface) (request : HdrMetadataRequest)
  | overrideWindowContent (surface : Surface) (x11Window : UInt32)
  | setImageDescription (surface : Surface) (desc : ImageDescription)
  | unsetImageDescription (surface : Surface)
  | commit (surface : Surface)
  | destroyed (surface : Surface)
  /-- Rendering finds the override surface dead. -/
  | dropOverride
  | focus (windowId : Option UInt32)

def World.act (w : World) : Action → World
  | .createSwapchain surface => w.createSwapchain surface
  | .swapchainFeedback surface vkColorspace _ => (w.handleSwapchainFeedback surface vkColorspace).1
  | .setHdrMetadata surface request => w.handleSetHdrMetadata surface request
  | .overrideWindowContent surface x11Window => w.overrideWindowSurface surface x11Window
  | .setImageDescription surface desc => w.modifyColors (·.setPending surface desc)
  | .unsetImageDescription surface => w.modifyColors (·.unsetPending surface)
  | .commit surface => w.modifyColors (·.commit surface)
  | .destroyed surface => w.destroyed surface
  | .dropOverride => { w with overrideSurface := none }
  | .focus windowId => { w with focusedX11Window := windowId }

/-- The state after the actions. -/
def World.run (w : World) (as : List Action) : World := as.foldl World.act w

end Moonshine.Impl.ColorManagement
