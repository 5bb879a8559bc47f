import Mathlib.Data.Prod.Lex
import Mathlib.Order.BooleanAlgebra.Defs
import Mathlib.Order.Nat

/-!
# Windows and what is known of them, `session/compositor/focus.rs`
-/

namespace Moonshine.Impl.Compositor

/-- A `wl_surface` of the display. -/
abbrev Surface := Nat

structure Rectangle where
  x : Int
  y : Int
  w : Int
  h : Int
  deriving DecidableEq, Repr

inductive WindowSurface
  | wayland (toplevel : Surface)
  | x11 (windowId : UInt32)
  deriving DecidableEq, Repr

/-- A window of the desktop: each that is created is a new one, whatever surface
it shows. -/
structure Window where
  id : Nat
  underlyingSurface : WindowSurface
  deriving DecidableEq, Repr

def Window.toplevel (w : Window) : Option Surface :=
  match w.underlyingSurface with
  | .wayland toplevel => some toplevel
  | .x11 _ => none

/-- The ID of the X11 window, which is all that two `X11Surface`s are compared by. -/
def Window.x11Surface (w : Window) : Option UInt32 :=
  match w.underlyingSurface with
  | .wayland _ => none
  | .x11 windowId => some windowId

/-- The flags packed into `WindowFlags`. -/
structure WindowFlags where
  overlay : Bool := false
  notification : Bool := false
  externalOverlay : Bool := false
  streamingClient : Bool := false
  streamingClientVideo : Bool := false
  sysTrayIcon : Bool := false
  vrOverlayTarget : Bool := false
  deriving DecidableEq, Repr

/-- Whether a flag of `SKIP_FOCUS` is set. -/
def WindowFlags.skipFocus (f : WindowFlags) : Bool :=
  f.overlay || f.notification || f.externalOverlay || f.streamingClient || f.streamingClientVideo ||
    f.sysTrayIcon || f.vrOverlayTarget

structure WindowMetadata where
  appId : UInt32 := 0
  x11WindowId : Option UInt32 := none
  transientFor : Option UInt32 := none
  skipTaskbar : Bool := false
  skipPager : Bool := false
  isDialog : Bool := false
  maybeADropdown : Bool := false
  disabled : Bool := false
  mapSequence : Nat := 0
  overrideRedirect : Bool := false
  isX11 : Bool := false
  geometry : Rectangle := ⟨0, 0, 0, 0⟩
  fullscreen : Bool := false
  opacity : UInt32 := 0
  inputFocusMode : UInt32 := 0
  flags : WindowFlags := {}
  damageSequence : Nat := 0
  deriving DecidableEq, Repr

namespace WindowMetadata

variable (m : WindowMetadata)

def hasGameId : Bool := m.appId != 0

def isOverrideRedirect : Bool := m.overrideRedirect

def isUseless : Bool := m.geometry.w == 1 && m.geometry.h == 1

def isDropdown : Bool := m.maybeADropdown || (m.isOverrideRedirect && !m.isUseless)

def isDisabled : Bool := m.disabled

def skipAndNotFullscreen : Bool := (m.skipTaskbar && m.skipPager) && !m.fullscreen

end WindowMetadata

/-- Tuples in the lexicographic order, with `false < true`. -/
abbrev PriorityKey :=
  Bool ×ₗ Bool ×ₗ Bool ×ₗ Bool ×ₗ Bool ×ₗ Bool ×ₗ Bool ×ₗ Bool ×ₗ Bool ×ₗ Nat ×ₗ Nat

def PriorityKey.default : PriorityKey :=
  toLex (false, toLex (false, toLex (false, toLex (false, toLex (false, toLex (false, toLex (false,
    toLex (false, toLex (false, toLex (0, 0))))))))))

def getWindowPriorityKey (w : WindowMetadata) : PriorityKey :=
  toLex (w.hasGameId, toLex (!w.isOverrideRedirect, toLex (!w.isUseless, toLex (!w.isDropdown,
    toLex (!w.isDisabled, toLex (!w.skipAndNotFullscreen, toLex (!w.isDialog, toLex (!w.isX11,
      toLex (w.transientFor.isNone, toLex (w.mapSequence, w.damageSequence))))))))))

structure FocusState where
  dirty : Bool
  requestedFocusWindow : Option UInt32
  deriving DecidableEq, Repr

namespace FocusState

def new : FocusState := ⟨false, none⟩

def markDirty (f : FocusState) : FocusState := { f with dirty := true }

def apply (f : FocusState) : FocusState := { f with dirty := false }

def setRequestedFocus (f : FocusState) (windowId : UInt32) : FocusState :=
  markDirty { f with requestedFocusWindow := some windowId }

def clearRequestedFocus (f : FocusState) : FocusState := { f with requestedFocusWindow := none }

end FocusState

end Moonshine.Impl.Compositor
