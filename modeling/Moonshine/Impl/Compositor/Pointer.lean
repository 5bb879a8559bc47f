import Moonshine.Impl.Compositor.Windows
import Moonshine.Impl.Session.Threads

/-!
# Relative pointer motion, `session/compositor/input.rs`

`find_surface_at` and the handler of `MouseMoveRelative`. What the desktop's windows and
surface trees have at a position, and which surfaces hold an active lock, is the scene's.
-/

namespace Moonshine.Impl.Compositor

open Moonshine.Framework Moonshine.Impl.Threads Moonshine.Impl.Negotiation

abbrev Position := ℚ × ℚ

/-- A surface under a position, with its origin. -/
abbrev Under := Option (Surface × Position)

/-- A window of the space, for the pointer. -/
structure SceneWindow where
  /-- `element_geometry`. -/
  geometry : Option Geometry
  /-- `surface_under`, of a position within the window. -/
  surfaceUnder : Position → Under
  /-- Of an X11 window, its ID and `wl_surface`. -/
  x11Surface : Option (UInt32 × Option Surface)

structure Scene where
  overrideWindow : Option SceneWindow
  /-- `is_override_active`. -/
  isOverrideActive : Bool
  overrideSurface : Option Surface
  /-- `popup_surfaces_for_render`, each with what `under_from_surface_tree` finds of it. -/
  popupSurfaces : List (Position → Under)
  focusedX11Window : Option UInt32
  elements : List SceneWindow
  /-- `element_under`, with the window's location. -/
  elementUnder : Position → Option (SceneWindow × Position)
  /-- The surface has a pointer constraint that is `Locked` and active. -/
  locked : Surface → Bool

def Position.sub (p q : Position) : Position := (p.1 - q.1, p.2 - q.2)

def Position.add (p q : Position) : Position := (p.1 + q.1, p.2 + q.2)

namespace SceneWindow

def location (geo : Geometry) : Position := (geo.x, geo.y)

/-- The surface of the window at `loc` that is under the position. -/
def surfaceAt (w : SceneWindow) (loc position : Position) : Under :=
  (w.surfaceUnder (position.sub loc)).map fun (surface, offset) => (surface, offset.add loc)

end SceneWindow

namespace Scene

variable (s : Scene) (position : Position)

/-- The focused X11 window, or its toplevel surface where the window has none under the position. -/
def findX11Surface (windowId : UInt32) : Under :=
  match s.elements.find? fun w => (w.x11Surface.map Prod.fst) = some windowId with
  | none => none
  | some w => w.geometry.bind fun geo =>
    let loc := SceneWindow.location geo
    (w.surfaceAt loc position).or (w.x11Surface.bind fun x11 => x11.2.map fun surface => (surface, loc))

/-- The third priority. -/
def findElementSurface : Under := (s.elementUnder position).bind fun (w, loc) => w.surfaceAt loc position

/-- From the second priority on. -/
def findBelowOverrideWindow : Under :=
  if s.isOverrideActive then
    match s.popupSurfaces.findSome? fun under => under position with
    | some found => some found
    | none =>
      match s.focusedX11Window with
      | some windowId => s.findX11Surface position windowId
      | none =>
        match s.overrideSurface with
        | some surface => some (surface, (0, 0))
        | none => s.findElementSurface position
  else s.findElementSurface position

def findSurfaceAt : Under :=
  match s.overrideWindow with
  | some w =>
    if s.isOverrideActive then s.findBelowOverrideWindow position
    else w.geometry.bind fun geo =>
      (w.surfaceAt (SceneWindow.location geo) position).or (s.findBelowOverrideWindow position)
  | none => s.findBelowOverrideWindow position

/-- The pointer is locked: the surface under it holds an active lock. -/
def pointerLocked : Bool := (s.findSurfaceAt position).any fun (surface, _) => s.locked surface

end Scene

/-- Calls of the seat's pointer. -/
inductive PointerCall
  | relativeMotion (under : Under) (delta : Position)
  | motion (under : Under) (location : Position)
  | frame
  deriving DecidableEq

/-- The cursor after `MouseMoveRelative`, and the calls it makes. -/
def mouseMoveRelative (session : SessionContext) (s : Scene) (dx dy : Int16) (cursorPosition : Position) :
    Outcome (Position × List PointerCall) := do
  let delta : Position := (dx.toInt, dy.toInt)
  let under := s.findSurfaceAt cursorPosition
  let pointerLocked := s.pointerLocked cursorPosition
  let cursorPosition ←
    clampCursor session (s.overrideWindow.bind SceneWindow.geometry) (cursorPosition.add delta)
  if pointerLocked then return (cursorPosition, [.relativeMotion under delta, .frame])
  else
    let under' := s.findSurfaceAt cursorPosition
    return (cursorPosition, [.relativeMotion under delta, .motion under' cursorPosition, .frame])

end Moonshine.Impl.Compositor
