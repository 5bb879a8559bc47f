import Moonshine.Impl.Compositor.Pointer

/-!
# Pens, `session/compositor/input.rs`

`process_pen_input` and what it keeps: the tool in proximity and its buttons, and the
tools that the tablet seat knows. The calls of the tools' handles are logged, without
their serials and times. A pressure, a distance and the coordinates are rational numbers;
a tilt is logged as the angle and the magnitude it is computed from.
-/

namespace Moonshine.Impl.Compositor

open Moonshine.Framework Moonshine.Impl.Threads Moonshine.Impl.Negotiation

structure PenInput where
  eventKind : UInt8
  toolKind : UInt8
  buttons : UInt8
  x : ℚ
  y : ℚ
  pressureOrDistance : ℚ
  rotation : UInt16
  tilt : UInt8

def pointerEventHover : UInt8 := 0x00
def pointerEventDown : UInt8 := 0x01
def pointerEventUp : UInt8 := 0x02
def pointerEventMove : UInt8 := 0x03
def pointerEventCancel : UInt8 := 0x04
def pointerEventButtonOnly : UInt8 := 0x05
def pointerEventHoverLeave : UInt8 := 0x06
def pointerEventCancelAll : UInt8 := 0x07

def penToolEraser : UInt8 := 0x02
def rotationUnknown : UInt16 := 0xFFFF
def tiltUnknown : UInt8 := 0xFF

/-- `TabletToolDescriptor`, by which the seat knows a tool. -/
structure PenTool where
  isEraser : Bool
  hardwareSerial : UInt64
  deriving DecidableEq, Repr

def penToolDescriptor (toolKind : UInt8) : PenTool := ⟨toolKind = penToolEraser, toolKind.toUInt64⟩

inductive ToolCall
  | proximityIn (location : Position) (focus : Surface × Position)
  | proximityOut
  | tipDown
  | tipUp
  | button (button : UInt32) (pressed : Bool)
  | distance (value : ℚ)
  | pressure (value : ℚ)
  | tilt (rotation : UInt16) (magnitude : UInt8)
  | motion (location : Position) (focus : Under)
  deriving DecidableEq

structure PenState where
  activePenToolKind : Option UInt8
  penButtons : UInt8
  /-- The tablet seat's tools. -/
  tools : List PenTool
  cursorPosition : Position
  calls : List (PenTool × ToolCall)

def PenState.call (tool : PenTool) (c : ToolCall) : Prog PenState Unit :=
  Prog.modify fun s => { s with calls := s.calls ++ [(tool, c)] }

def getPenTool (toolKind : UInt8) : Prog PenState PenTool := do
  let tool := penToolDescriptor toolKind
  Prog.modify fun s => { s with tools := if tool ∈ s.tools then s.tools else s.tools ++ [tool] }
  return tool

/-- `BUTTONS`: bits of the client and Linux button codes. -/
def penButtonCodes : List (UInt8 × UInt32) := [(0x01, 0x14B), (0x02, 0x14C), (0x04, 0x149)]

/-- The loop of `sync_pen_buttons` over the buttons that are left. -/
def syncPenButtons (tool : PenTool) (oldButtons newButtons : UInt8) : List (UInt8 × UInt32) → Prog PenState Unit
  | [] => return ()
  | (mask, button) :: rest => do
    if oldButtons &&& mask ≠ newButtons &&& mask then
      PenState.call tool (.button button (newButtons &&& mask ≠ 0))
    syncPenButtons tool oldButtons newButtons rest

def releasePen : Prog PenState Unit := do
  let active ← Prog.gets fun s => s.activePenToolKind
  Prog.modify fun s => { s with activePenToolKind := none }
  match active with
  | none => Prog.modify fun s => { s with penButtons := 0 }
  | some toolKind =>
    let tool := penToolDescriptor toolKind
    let known ← Prog.gets fun s => (tool ∈ s.tools : Bool)
    if known then
      let buttons ← Prog.gets fun s => s.penButtons
      PenState.call tool .tipUp
      syncPenButtons tool buttons 0 penButtonCodes
      PenState.call tool .proximityOut
    Prog.modify fun s => { s with penButtons := 0 }

/-- `f32::clamp(0.0, 1.0)`. -/
def clampUnit (v : ℚ) : ℚ := if v < 0 then 0 else if 1 < v then 1 else v

/-- The part of a contact or hover event from the tool's proximity on. -/
def reportPen (tool : PenTool) (event : PenInput) (location : Position) (focus : Under) : Prog PenState Unit := do
  let value := clampUnit event.pressureOrDistance
  PenState.call tool (if event.eventKind = pointerEventHover then .distance value else .pressure value)
  if event.rotation ≠ rotationUnknown && event.tilt ≠ tiltUnknown then
    PenState.call tool (.tilt event.rotation (min event.tilt 90))
  PenState.call tool (.motion location focus)
  let buttons ← Prog.gets fun s => s.penButtons
  syncPenButtons tool buttons event.buttons penButtonCodes
  Prog.modify fun s => { s with penButtons := event.buttons }
  if event.eventKind = pointerEventDown ∨ event.eventKind = pointerEventMove then
    PenState.call tool .tipDown
  else if event.eventKind = pointerEventUp then PenState.call tool .tipUp

/-- A contact or hover event, once no other tool is active. `tabletPresent`: the seat has the
pen's tablet. -/
def contactPen (session : SessionContext) (scene : Scene) (tabletPresent : Bool) (event : PenInput) :
    Prog PenState Unit := do
  let tool ← getPenTool event.toolKind
  if tabletPresent then
    let location ← normalizedPointerLocation session event.x event.y
    let focus := scene.findSurfaceAt location
    Prog.modify fun s => { s with cursorPosition := location }
    let active ← Prog.gets fun s => s.activePenToolKind
    match active, focus with
    | some _, _ => reportPen tool event location focus
    | none, some found =>
      PenState.call tool (.proximityIn location found)
      Prog.modify fun s => { s with activePenToolKind := some event.toolKind }
      reportPen tool event location focus
    | none, none => return ()

def processPenInput (session : SessionContext) (scene : Scene) (tabletPresent : Bool) (event : PenInput) :
    Prog PenState Unit := do
  if event.eventKind ∈ [pointerEventCancel, pointerEventHoverLeave, pointerEventCancelAll] then
    releasePen
  else if event.eventKind = pointerEventButtonOnly then
    let active ← Prog.gets fun s => s.activePenToolKind
    match active with
    | none => return ()
    | some toolKind =>
      let tool ← getPenTool toolKind
      let buttons ← Prog.gets fun s => s.penButtons
      syncPenButtons tool buttons event.buttons penButtonCodes
      Prog.modify fun s => { s with penButtons := event.buttons }
  else
    let active ← Prog.gets fun s => s.activePenToolKind
    if active.any (· ≠ event.toolKind) then releasePen
    contactPen session scene tabletPresent event

end Moonshine.Impl.Compositor
