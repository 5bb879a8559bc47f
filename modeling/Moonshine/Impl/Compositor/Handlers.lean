import Moonshine.Impl.Compositor.Focus

/-!
# The handlers of window events, `session/compositor/handlers.rs`

Wherever a handler re-evaluates the focus, it does so last: it is given here as
the state it leaves before that, and whether it re-evaluates. `react` is the
handler with its re-evaluation. The outside may change between the two.
-/

namespace Moonshine.Impl.Compositor

open Moonshine.Framework

inductive WmWindowType
  | dropdownMenu | dialog | menu | popupMenu | tooltip | other
  deriving DecidableEq, Repr

inductive WmWindowProperty
  | pid | hints | transientFor | windowType | other
  deriving DecidableEq, Repr

/-- An X11 window, with its attributes when an event of it is handled. -/
structure X11Surface where
  windowId : UInt32
  geometry : Rectangle
  /-- The `input` field of `WM_HINTS`. -/
  hints : Option (Option Bool)
  windowType : Option WmWindowType
  isTransientFor : Option UInt32
  isOverrideRedirect : Bool
  isFullscreen : Bool

structure Handled (M : SpaceModel Window (Int × Int)) where
  state : MoonshineCompositor M
  reevaluates : Bool

namespace MoonshineCompositor

variable {M : SpaceModel Window (Int × Int)} (s : MoonshineCompositor M) (o : Outside)

/-- Without an X11 connection, `default`. -/
def withX11Focus {α : Type} (default : α) (f : X11Focus → α) : α := (o.x11Focus.map f).getD default

def x11SurfaceFlags (window : X11Surface) : WindowFlags :=
  let isSteamWindow := withX11Focus o 0 (·.getSteamOverlayValue window.windowId) != 0
  { overlay := isSteamWindow && window.geometry.w > 1200
    notification := isSteamWindow && !(window.geometry.w > 1200)
    externalOverlay := withX11Focus o false (·.isGamescopeExternalOverlay window.windowId)
    streamingClient := withX11Focus o false (·.isSteamStreamingClient window.windowId)
    streamingClientVideo := withX11Focus o false (·.isSteamStreamingClientVideo window.windowId)
    vrOverlayTarget := withX11Focus o false fun xf => xf.getVrOverlayTarget window.windowId != 0
    sysTrayIcon := s.sysTrayIcons.contains window.windowId }

/-- The app ID of the process tree, else that of Steam's Big Picture mode. -/
def x11AppId (windowId : UInt32) : UInt32 :=
  let pid := withX11Focus o 0 (·.getWindowPid windowId)
  let appId := if pid ≠ 0 then o.getAppIdFromPid pid else 0
  if appId = 0 ∧ withX11Focus o false (·.isSteamBigPicture windowId) then 769 else appId

def x11SurfaceMetadata (window : X11Surface) : WindowMetadata :=
  let style := withX11Focus o 0 (·.getWindowStyle window.windowId)
  let isDialog := window.windowType = some .dialog
  let isDropdownType := window.windowType ∈
    [some .dropdownMenu, some .popupMenu, some .tooltip, some .menu]
  let hasTransientParent := window.isTransientFor.isSome
  let isUseless := window.geometry.w == 1 && window.geometry.h == 1
  let skipFlags := withX11Focus o (false, false) (·.getNetWmStateSkipFlags window.windowId)
  { appId := x11AppId o window.windowId
    x11WindowId := some window.windowId
    transientFor := window.isTransientFor
    skipTaskbar := skipFlags.1 || (window.isOverrideRedirect && hasTransientParent)
    skipPager := skipFlags.2 || (window.isOverrideRedirect && hasTransientParent)
    isDialog := isDialog
    maybeADropdown := window.isOverrideRedirect && !isUseless &&
      (isDropdownType || hasTransientParent || isDialog)
    disabled := window.hints = some (some false) || style &&& 0x80000000 ≠ 0
    mapSequence := 0
    overrideRedirect := window.isOverrideRedirect
    isX11 := true
    geometry := window.geometry
    fullscreen := window.isFullscreen
    opacity := withX11Focus o 0 (·.getWindowOpacity window.windowId)
    inputFocusMode := withX11Focus o 0 (·.getInputFocusMode window.windowId)
    flags := s.x11SurfaceFlags o window
    damageSequence := 0 }

def modifyMetadata (w : Window) (f : WindowMetadata → WindowMetadata) : MoonshineCompositor M :=
  { s with windowMetadata := s.windowMetadata.modify w f }

/-- A new window in the space, with its metadata. -/
def register (surface : WindowSurface) (loc : Int × Int) (m : WindowMetadata) : MoonshineCompositor M :=
  let w : Window := ⟨s.nextWindow, surface⟩
  { s.mapElement w loc with nextWindow := s.nextWindow + 1, windowMetadata := s.windowMetadata.insert w m }

/-- The last commit of a native window had a buffer, or not. -/
def recordMapping (window : Window) (mapped : Bool) : MoonshineCompositor M :=
  let everMapped := (s.nativeMapping.get? window).any (·.everMapped)
  { s with nativeMapping := s.nativeMapping.insert window ⟨mapped, everMapped || mapped⟩ }

/-- A game window has drawn. -/
def countDamage (window : Window) : MoonshineCompositor M :=
  if (s.windowMetadata.get? window).any (·.hasGameId) then
    { s.modifyMetadata window fun m => { m with damageSequence := s.damageSequenceCounter + 1 } with
      damageSequenceCounter := s.damageSequenceCounter + 1 }
  else s

/-- A commit of a toplevel's surface, which then has a buffer or not. -/
def commit (surface : Surface) (mapped : Bool) : Handled M :=
  match s.findWindowBySurface surface with
  | some window =>
    ⟨(s.recordMapping window mapped).countDamage window,
      ((s.nativeMapping.get? window).any (·.mapped)) != mapped⟩
  | none => ⟨s, false⟩

def newToplevel (surface : Surface) (appId : UInt32) (fullscreen : Bool) : Handled M :=
  let mapSequence := s.mapSequenceCounter + 1
  ⟨{ s with mapSequenceCounter := mapSequence }.register (.wayland surface) (0, 0)
    { appId := appId, mapSequence := mapSequence, geometry := s.outputRect, fullscreen := fullscreen }, true⟩

def toplevelDestroyed (surface : Surface) : Handled M :=
  match s.findWindowBySurface surface with
  | some window => ⟨(s.unregisterWindow window).unmapElem window, true⟩
  | none => ⟨s, true⟩

def setFullscreen (surface : Surface) (fullscreen : Bool) : Handled M :=
  match s.findWindowBySurface surface with
  | some window =>
    ⟨s.modifyMetadata window fun m => { m with fullscreen := fullscreen, geometry := s.outputRect }, true⟩
  | none => ⟨s, true⟩

def fullscreenRequest (surface : Surface) : Handled M := s.setFullscreen surface true

def unfullscreenRequest (surface : Surface) : Handled M := s.setFullscreen surface false

/-- With the app ID of the client's process, if its credentials are known. -/
def appIdChanged (surface : Surface) (appId : Option UInt32) : Handled M :=
  match s.findWindowBySurface surface, appId with
  | some window, some appId => ⟨s.modifyMetadata window fun m => { m with appId := appId }, true⟩
  | some _, none => ⟨s, true⟩
  | none, _ => ⟨s, true⟩

/-- A window changes its parent: the metadata, then the index of children. -/
def reparent (w : Window) (old new : WindowMetadata) : MoonshineCompositor M :=
  let s' := s.modifyMetadata w fun m => { m with
    transientFor := new.transientFor
    skipTaskbar := new.skipTaskbar
    skipPager := new.skipPager
    maybeADropdown := new.maybeADropdown }
  (s'.forgetChild old.transientFor w).adoptChild new.transientFor w

def propertyNotify (window : X11Surface) (property : WmWindowProperty) : Handled M :=
  if property = .other then ⟨s, false⟩
  else match s.findWindowByX11Surface window.windowId with
    | some elem =>
      let newMeta := s.x11SurfaceMetadata o window
      match s.windowMetadata.get? elem, property with
      | some _, .hints => ⟨s.modifyMetadata elem fun m => { m with disabled := newMeta.disabled }, true⟩
      | some old, .transientFor => ⟨s.reparent elem old newMeta, true⟩
      | some _, .windowType =>
        ⟨s.modifyMetadata elem fun m => { m with
          isDialog := newMeta.isDialog, maybeADropdown := newMeta.maybeADropdown }, true⟩
      | some _, .pid => ⟨s, true⟩
      | some _, .other => ⟨s, true⟩
      | none, _ => ⟨s, true⟩
    | none => ⟨s, true⟩

def activeWindowRequest (window : X11Surface) : Handled M :=
  ⟨{ s with focusState := s.focusState.setRequestedFocus window.windowId }, true⟩

/-- Whether a game window that is mapped has drawn since the focused one. -/
def drawnSinceFocused (m : WindowMetadata) : Bool :=
  s.focusedX11Window.any fun focusedId =>
    ((o.metadataValues s.windowMetadata).find? fun m' => m'.x11WindowId = some focusedId).any fun focusedMeta =>
      focusedMeta.damageSequence < m.damageSequence

/-- `granted` if the X server lets the window be mapped. -/
def mapWindowRequest (window : X11Surface) (granted : Bool) : Handled M :=
  if granted then
    let m := s.x11SurfaceMetadata o window
    let m := { m with
      mapSequence := s.mapSequenceCounter + 1
      damageSequence := if m.hasGameId then s.damageSequenceCounter else 0 }
    let s' := { s with
      mapSequenceCounter := s.mapSequenceCounter + 1
      focusState := if m.hasGameId && s.drawnSinceFocused o m then s.focusState.markDirty else s.focusState }
    let s' := s'.register (.x11 window.windowId) (0, 0) m
    ⟨s'.adoptChild m.transientFor ⟨s.nextWindow, .x11 window.windowId⟩, true⟩
  else ⟨s, false⟩

/-- The loop of `is_transient_of_focused`, `n` levels of it left. -/
def climbs (focusedId : UInt32) : Nat → UInt32 → List UInt32 → Bool
  | 0, _, _ => false
  | n + 1, current, visited =>
    match ((o.metadataValues s.windowMetadata).find? fun m => m.x11WindowId = some current).bind (·.transientFor) with
    | some p =>
      if p = focusedId then true
      else if p ∈ visited then false
      else climbs focusedId n p (p :: visited)
    | none => false

def isTransientOfFocused (windowId : UInt32) : Bool :=
  match s.focusedX11Window with
  | some focusedId => windowId == focusedId || s.climbs o focusedId 10 windowId [windowId]
  | none => false

/-- Whether a part of the geometry is on the output. -/
def onScreen (geo : Rectangle) : Bool :=
  let outputSize := s.currentMode.getD (s.width, s.height)
  geo.x + geo.w > 0 && geo.x < outputSize.1 && geo.y + geo.h > 0 && geo.y < outputSize.2

def notifyDropdown (window : Window) : MoonshineCompositor M :=
  if s.notificationWindow = some window ∨ s.externalOverlayWindow = some window then s
  else { s with overrideWindow := some window, focusState := s.focusState.markDirty }

def mappedOverrideRedirectWindow (window : X11Surface) : Handled M :=
  let win : Window := ⟨s.nextWindow, .x11 window.windowId⟩
  let m := s.x11SurfaceMetadata o window
  let s₁ := s.register (.x11 window.windowId) (window.geometry.x, window.geometry.y) m
  let isFocusedChild := s₁.isTransientOfFocused o window.windowId
  let s₂ := s₁.adoptChild m.transientFor win
  if isFocusedChild && m.isDropdown then
    if s₂.onScreen m.geometry then
      ⟨(s₂.classifySpecialWindows s₂.space.elements).notifyDropdown win, false⟩
    else ⟨s₂, false⟩
  else ⟨s₂, !m.isDropdown⟩

/-- The flags that `unmapped_window` re-evaluates the focus for. -/
def isSpecial (f : WindowFlags) : Bool :=
  f.overlay || f.notification || f.externalOverlay || f.streamingClient || f.streamingClientVideo ||
    f.vrOverlayTarget

/-- A window leaves the metadata and the space, and takes the dropdown with it that
it is. -/
def dropWindow (elem : Window) : MoonshineCompositor M :=
  let s' := (s.unregisterWindow elem).unmapElem elem
  if s'.overrideWindow = some elem then s'.clearDropdowns else s'

def unmappedWindow (window : X11Surface) : Handled M :=
  let unmappedId := window.windowId
  let wasFocused := s.focusedX11Window == some unmappedId
  let focusedIsTransientChild := ((s.focusedX11Window.bind s.findWindowByX11Surface).bind
    s.windowMetadata.get?).any fun m => m.transientFor == some unmappedId
  let maybe := s.findWindowByX11Surface unmappedId
  let special := (maybe.bind s.windowMetadata.get?).any fun m => isSpecial m.flags
  let s' := { s with sysTrayIcons := s.sysTrayIcons.filter (· ≠ unmappedId) }
  let s' := match maybe with
    | some elem => s'.dropWindow elem
    | none => s'
  if wasFocused || focusedIsTransientChild then ⟨{ s' with focusedX11Window := none }, true⟩
  else ⟨s', s'.focusedX11Window.isNone || special⟩

def destroyedWindow (window : X11Surface) : Handled M :=
  let s' := { s with sysTrayIcons := s.sysTrayIcons.filter (· ≠ window.windowId) }
  match s'.findWindowByX11Surface window.windowId with
  | some elem => ⟨s'.unregisterWindow elem, false⟩
  | none => ⟨s', false⟩

/-- The flags of a window that is resized, with the value of its `STEAM_OVERLAY`. -/
def reclassify (f : WindowFlags) (steamOverlayValue : UInt32) (geometry : Rectangle) : WindowFlags :=
  if (f.overlay || f.notification) && steamOverlayValue != 0 then
    { f with overlay := geometry.w > 1200, notification := !(geometry.w > 1200) }
  else f

def configureNotify (window : X11Surface) (geometry : Rectangle) : Handled M :=
  match s.findWindowByX11Surface window.windowId with
  | some elem =>
    let steamOverlayValue := withX11Focus o 0 (·.getSteamOverlayValue window.windowId)
    let s' := (s.mapElement elem (geometry.x, geometry.y)).modifyMetadata elem fun m => { m with
      geometry := geometry
      flags := reclassify m.flags steamOverlayValue geometry }
    let reclassified := (s.windowMetadata.get? elem).any fun m =>
      reclassify m.flags steamOverlayValue geometry != m.flags
    ⟨{ s' with focusState := if reclassified then s.focusState.markDirty else s.focusState }, false⟩
  | none => ⟨s, false⟩

/-- `granted` if the state of the X11 window can be set. -/
def setX11Fullscreen (window : X11Surface) (fullscreen granted : Bool) : Handled M :=
  if granted then
    match s.findWindowByX11Surface window.windowId with
    | some elem => ⟨s.modifyMetadata elem fun m => { m with fullscreen := fullscreen }, true⟩
    | none => ⟨s, true⟩
  else ⟨s, false⟩

/-- `refresh_popups`, as far as windows: the space keeps those that are alive. -/
def refreshPopups (alive : Window → Bool) : Handled M := ⟨{ s with space := s.space.refresh alive }, false⟩

end MoonshineCompositor

inductive Request
  | commit (surface : Surface) (mapped : Bool)
  | newToplevel (surface : Surface) (appId : UInt32) (fullscreen : Bool)
  | toplevelDestroyed (surface : Surface)
  | fullscreenRequest (surface : Surface)
  | unfullscreenRequest (surface : Surface)
  | appIdChanged (surface : Surface) (appId : Option UInt32)
  | propertyNotify (window : X11Surface) (property : WmWindowProperty)
  | activeWindowRequest (window : X11Surface)
  | mapWindowRequest (window : X11Surface) (granted : Bool)
  | mappedOverrideRedirectWindow (window : X11Surface)
  | unmappedWindow (window : X11Surface)
  | destroyedWindow (window : X11Surface)
  | configureNotify (window : X11Surface) (geometry : Rectangle)
  | x11FullscreenRequest (window : X11Surface) (granted : Bool)
  | x11UnfullscreenRequest (window : X11Surface) (granted : Bool)
  | refreshPopups (alive : Window → Bool)

/-- A request, what its handler reads outside, and what the re-evaluation does. -/
structure Event where
  request : Request
  outside : Outside
  later : Outside

namespace MoonshineCompositor

def handle (s : MoonshineCompositor M) (o : Outside) : Request → Handled M
  | .commit surface mapped => s.commit surface mapped
  | .newToplevel surface appId fullscreen => s.newToplevel surface appId fullscreen
  | .toplevelDestroyed surface => s.toplevelDestroyed surface
  | .fullscreenRequest surface => s.fullscreenRequest surface
  | .unfullscreenRequest surface => s.unfullscreenRequest surface
  | .appIdChanged surface appId => s.appIdChanged surface appId
  | .propertyNotify window property => s.propertyNotify o window property
  | .activeWindowRequest window => s.activeWindowRequest window
  | .mapWindowRequest window granted => s.mapWindowRequest o window granted
  | .mappedOverrideRedirectWindow window => s.mappedOverrideRedirectWindow o window
  | .unmappedWindow window => s.unmappedWindow window
  | .destroyedWindow window => s.destroyedWindow window
  | .configureNotify window geometry => s.configureNotify o window geometry
  | .x11FullscreenRequest window granted => s.setX11Fullscreen window true granted
  | .x11UnfullscreenRequest window granted => s.setX11Fullscreen window false granted
  | .refreshPopups alive => s.refreshPopups alive

def react (s : MoonshineCompositor M) (e : Event) : MoonshineCompositor M :=
  let h := s.handle e.outside e.request
  if h.reevaluates then h.state.reevaluateFocus e.later else h.state

end MoonshineCompositor

end Moonshine.Impl.Compositor
