import Mathlib.Data.List.Sort
import Moonshine.Framework.HashMap
import Moonshine.Framework.Space
import Moonshine.Impl.Compositor.Windows

/-!
# The choice and application of focus, `session/compositor/handlers.rs` and `state.rs`

The compositor's windows and its references to them. What it reads outside its
own state when it handles an event (properties of X11 windows, the process table,
the order in which a hash map yields its entries) is an `Outside`. What it tells
the seat, the clients and the X server is left out.
-/

namespace Moonshine.Impl.Compositor

open Moonshine.Framework

structure FocusControl where
  window : Option UInt32
  appIds : List UInt32

/-- What the X11 connection finds on the root window, and on the window of an ID. -/
structure X11Focus where
  readFocusControl : Option FocusControl
  getWindowPid : UInt32 → UInt32
  getInputFocusMode : UInt32 → UInt32
  getSteamOverlayValue : UInt32 → UInt32
  getWindowOpacity : UInt32 → UInt32
  isSteamStreamingClient : UInt32 → Bool
  isSteamStreamingClientVideo : UInt32 → Bool
  isGamescopeExternalOverlay : UInt32 → Bool
  getVrOverlayTarget : UInt32 → UInt64
  isSteamBigPicture : UInt32 → Bool
  getWindowStyle : UInt32 → UInt32
  getNetWmStateSkipFlags : UInt32 → Bool × Bool

structure Outside where
  /-- The X11 connection, if it is open. -/
  x11Focus : Option X11Focus
  /-- The surface that XWayland associates with an X11 window. -/
  x11WlSurface : UInt32 → Option Surface
  getAppIdFromPid : UInt32 → UInt32
  /-- The values of the metadata, in the order of iteration. -/
  metadataValues : HashMap Window WindowMetadata → List WindowMetadata

def Outside.wlSurface (o : Outside) (w : Window) : Option Surface :=
  match w.underlyingSurface with
  | .wayland toplevel => some toplevel
  | .x11 windowId => o.x11WlSurface windowId

/-- Of a native window, whether its last commit had a buffer, and whether any had. -/
structure NativeWindowMapping where
  mapped : Bool
  everMapped : Bool
  deriving DecidableEq, Repr

structure MoonshineCompositor (M : SpaceModel Window (Int × Int)) where
  width : Int
  height : Int
  /-- The size of the output's current mode. -/
  currentMode : Option (Int × Int)
  space : Space M
  /-- The `id` of the next window to be created. -/
  nextWindow : Nat
  /-- In the user data of the windows. -/
  nativeMapping : HashMap Window NativeWindowMapping
  focusedX11Window : Option UInt32
  focusedWindow : Option Window
  overrideWindow : Option Window
  overlayWindow : Option Window
  notificationWindow : Option Window
  externalOverlayWindow : Option Window
  pointerFocusWindow : Option Window
  damageSequenceCounter : Nat
  mapSequenceCounter : Nat
  lastKeyboardFocusWindow : Option UInt32
  focusState : FocusState
  windowMetadata : HashMap Window WindowMetadata
  transientChildren : HashMap UInt32 (List Window)
  sysTrayIcons : List UInt32

namespace MoonshineCompositor

variable {M : SpaceModel Window (Int × Int)}

def new (width height : Int) (currentMode : Option (Int × Int)) : MoonshineCompositor M where
  width := width
  height := height
  currentMode := currentMode
  space := .empty
  nextWindow := 0
  nativeMapping := ∅
  focusedX11Window := none
  focusedWindow := none
  overrideWindow := none
  overlayWindow := none
  notificationWindow := none
  externalOverlayWindow := none
  pointerFocusWindow := none
  damageSequenceCounter := 0
  mapSequenceCounter := 0
  lastKeyboardFocusWindow := none
  focusState := .new
  windowMetadata := ∅
  transientChildren := ∅
  sysTrayIcons := []

variable (s : MoonshineCompositor M) (o : Outside)

def outputRect : Rectangle := ⟨0, 0, s.width, s.height⟩

def findWindowBySurface (surface : Surface) : Option Window :=
  s.space.elements.find? fun w => w.toplevel = some surface

def findWindowByX11Surface (windowId : UInt32) : Option Window :=
  s.space.elements.find? fun w => w.x11Surface = some windowId

/-- A window leaves the children of its parent, and the parent with its last child. -/
def forgetChild (parentId : Option UInt32) (w : Window) : MoonshineCompositor M :=
  match parentId with
  | some parentId =>
    match s.transientChildren.get? parentId with
    | some children =>
      let children := children.filter (· ≠ w)
      { s with transientChildren :=
          if children.isEmpty then s.transientChildren.erase parentId
          else s.transientChildren.insert parentId children }
    | none => s
  | none => s

def adoptChild (parentId : Option UInt32) (w : Window) : MoonshineCompositor M :=
  match parentId with
  | some parentId =>
    { s with transientChildren :=
        s.transientChildren.insert parentId ((s.transientChildren.get? parentId).getD [] ++ [w]) }
  | none => s

def unregisterWindow (w : Window) : MoonshineCompositor M :=
  { s.forgetChild ((s.windowMetadata.get? w).bind (·.transientFor)) w with
    windowMetadata := s.windowMetadata.erase w }

def mapElement (w : Window) (loc : Int × Int) : MoonshineCompositor M :=
  { s with space := s.space.mapElement w loc }

def unmapElem (w : Window) : MoonshineCompositor M := { s with space := s.space.unmapElem w }

def clearDropdowns : MoonshineCompositor M :=
  match s.overrideWindow with
  | some overrideWin =>
    ({ s with overrideWindow := none, focusState := s.focusState.markDirty }.unmapElem overrideWin).unregisterWindow
      overrideWin
  | none => s

/-- An entry of the metadata, with the live properties of an X11 window. -/
def refreshEntry (xf : X11Focus) (w : Window) (m : WindowMetadata) : WindowMetadata :=
  match w.x11Surface with
  | some windowId =>
    let m := if m.flags.overlay then { m with inputFocusMode := xf.getInputFocusMode windowId } else m
    let pid := xf.getWindowPid windowId
    if m.appId = 0 ∧ pid ≠ 0 ∧ o.getAppIdFromPid pid ≠ 0 then { m with appId := o.getAppIdFromPid pid } else m
  | none => m

def refreshMetadata : MoonshineCompositor M :=
  match o.x11Focus with
  | some xf => { s with windowMetadata := s.windowMetadata.mapValues (refreshEntry o xf) }
  | none => s

/-- Of the windows with a flag the last of highest opacity. -/
def mostOpaque (windows : List Window) (flag : WindowFlags → Bool) : Option Window :=
  (windows.foldl (fun best w => match s.windowMetadata.get? w with
    | some m => if flag m.flags ∧ best.2 ≤ m.opacity then (some w, m.opacity) else best
    | none => best) (none, (0 : UInt32))).1

def classifySpecialWindows (windows : List Window) : MoonshineCompositor M :=
  let overlay := s.mostOpaque windows (·.overlay)
  let notification := s.mostOpaque windows (·.notification)
  let externalOverlay := s.mostOpaque windows (·.externalOverlay)
  { s with
    overlayWindow := overlay
    notificationWindow := notification
    externalOverlayWindow := externalOverlay
    focusState :=
      if s.overlayWindow ≠ overlay ∨ s.notificationWindow ≠ notification ∨
          s.externalOverlayWindow ≠ externalOverlay then s.focusState.markDirty
      else s.focusState }

/-- Whether the window passes the filter of `build_candidates`. -/
def isCandidate (w : Window) : Bool :=
  !((s.nativeMapping.get? w).any fun state => state.everMapped && !state.mapped) &&
    (s.windowMetadata.get? w).any fun m => !m.flags.skipFocus && !(m.overrideRedirect && m.appId == 0)

def buildCandidates (windows : List Window) : List Window := windows.filter s.isCandidate

def priorityKey (w : Window) : PriorityKey :=
  ((s.windowMetadata.get? w).map getWindowPriorityKey).getD PriorityKey.default

/-- Of the candidates with one of the app IDs the first of highest priority. -/
def bestOfApps (appIds : List UInt32) (candidates : List Window) : Option Window :=
  candidates.foldl (fun best w => match s.windowMetadata.get? w with
    | some m =>
      if m.appId ∈ appIds ∧ best.all fun b => s.priorityKey b < s.priorityKey w then some w else best
    | none => best) none

/-- What Steam's focus control selects. -/
def steamBest (candidates : List Window) : Option Window :=
  (o.x11Focus.bind (·.readFocusControl)).bind fun fc =>
    (fc.window.bind fun target => candidates.find? fun w => w.x11Surface = some target).or
      (s.bestOfApps fc.appIds candidates)

/-- The window that a client requested, if it is a candidate, else Steam's. The
request is cleared once it is honoured. -/
def pickBestCandidate (candidates : List Window) : Option Window × FocusState :=
  match s.focusState.requestedFocusWindow.bind fun requestedId =>
      candidates.find? fun w => w.x11Surface = some requestedId with
  | some w => (some w, s.focusState.clearRequestedFocus)
  | none => (s.steamBest o candidates, s.focusState)

/-- `sort_by_cached_key`, which is stable, and `reverse`. -/
def byPriority (candidates : List Window) : List Window :=
  (candidates.insertionSort fun a b => s.priorityKey a ≤ s.priorityKey b).reverse

/-- `none` if there are no candidates. -/
def bestCandidate (candidates : List Window) : Option Window :=
  (s.pickBestCandidate o candidates).1.or (s.byPriority candidates).head?

def isDropdown (w : Window) : Bool := (s.windowMetadata.get? w).any (·.isDropdown)

/-- The children of an X11 window that the promotion has not visited, those that
are no dropdowns first. -/
def unvisitedChildren (currentId : UInt32) (visited : List UInt32) : List Window :=
  (((s.transientChildren.get? currentId).getD []).filter fun w =>
    ((s.windowMetadata.get? w).any fun m => m.transientFor == some currentId) &&
      w.x11Surface.all fun windowId => windowId ∉ visited).insertionSort
    fun a b => s.isDropdown a ≤ s.isDropdown b

/-- The loop of `promote_transient_child`, `n` levels of it left. -/
def promoteFrom (window : Window) : Nat → UInt32 → List UInt32 → Window
  | 0, _, _ => window
  | n + 1, currentId, visited =>
    match s.unvisitedChildren currentId visited with
    | [] => window
    | bestChild :: _ =>
      if (s.windowMetadata.get? bestChild).any fun m => !m.isDropdown then bestChild
      else match bestChild.x11Surface with
        | some childId => if childId ∈ visited then window else promoteFrom window n childId (childId :: visited)
        | none => window

def promoteTransientChild (window : Window) : Window :=
  match window.x11Surface with
  | some startId => s.promoteFrom window 10 startId [startId]
  | none => window

/-- Whether the focus moves when it is applied to the window. -/
def focusChanged (best : Window) : Bool :=
  s.focusedX11Window ≠ best.x11Surface ∨ s.focusedWindow.bind o.wlSurface ≠ o.wlSurface best

/-- The overlay that asks for input. -/
def overlayWithInputFocus : Option Window :=
  s.overlayWindow.filter fun w => (s.windowMetadata.get? w).any fun m => m.inputFocusMode != 0

/-- With input mode 2 the overlay leaves the keyboard to the focused window. -/
def keyboardTarget (best : Window) : Window :=
  match s.overlayWithInputFocus with
  | some overlayWin =>
    if (s.windowMetadata.get? overlayWin).any fun m => m.inputFocusMode != 2 then overlayWin else best
  | none => best

/-- The window becomes the focused one; a focus that moves takes the dropdowns with it. -/
def moveFocus (best : Window) : MoonshineCompositor M :=
  let s' := { s with focusedX11Window := best.x11Surface, focusedWindow := some best }
  if s.focusChanged o best then s'.clearDropdowns else s'

def applyFocus (best : Window) : MoonshineCompositor M :=
  let s' := s.moveFocus o best
  { s' with
    pointerFocusWindow := some (s'.overlayWithInputFocus.getD best)
    lastKeyboardFocusWindow :=
      if s.focusedX11Window ≠ best.x11Surface then
        ((s'.keyboardTarget best).x11Surface).or s'.lastKeyboardFocusWindow
      else s'.lastKeyboardFocusWindow
    focusState := s'.focusState.apply }

/-- What `reevaluate_focus` does where there are no candidates. -/
def clearFocus : MoonshineCompositor M :=
  { s with focusedWindow := none, focusedX11Window := none, focusState := s.focusState.apply }

/-- The state in which `reevaluate_focus` chooses: with live properties, and the
special windows classified. -/
def evaluated : MoonshineCompositor M :=
  let s' := { s with focusState := s.focusState.markDirty }.refreshMetadata o
  s'.classifySpecialWindows s'.space.elements

def candidates : List Window := s.buildCandidates s.space.elements

/-- The window that is to have the focus. -/
def focusTarget : Option Window :=
  (s.bestCandidate o s.candidates).map s.promoteTransientChild

def reevaluateFocus : MoonshineCompositor M :=
  let s' := s.evaluated o
  match s'.focusTarget o with
  | some best =>
    { s' with focusState := (s'.pickBestCandidate o s'.candidates).2 }.applyFocus o best
  | none => s'.clearFocus

end MoonshineCompositor

end Moonshine.Impl.Compositor
