import Moonshine.Framework.Bytes
import Moonshine.Impl.Stream.Context

/-!
# Input events, `session/stream/control/input`

`InputEvent::from_bytes` and the parser of each event. Slice indices are checked
as they are in the source and panic out of range. An `f32` is its bits.
-/

namespace Moonshine.Impl.Control

open Moonshine.Framework

/-- `u16::from_le_bytes(buffer[off..off + 2])`, and so on for the other words. -/
def le16At (buffer : List Byte) (off : Nat) : Outcome UInt16 := do
  return UInt16.ofNat (ofLe (← readAt buffer off 2))

def le32At (buffer : List Byte) (off : Nat) : Outcome UInt32 := do
  return UInt32.ofNat (ofLe (← readAt buffer off 4))

def be32At (buffer : List Byte) (off : Nat) : Outcome UInt32 := do
  return UInt32.ofNat (ofBe (← readAt buffer off 4))

def leI16At (buffer : List Byte) (off : Nat) : Outcome Int16 := do
  return (← le16At buffer off).toInt16

def beI16At (buffer : List Byte) (off : Nat) : Outcome Int16 := do
  return (UInt16.ofNat (ofBe (← readAt buffer off 2))).toInt16

/-- `buffer[i]`. -/
def byteAt (buffer : List Byte) (i : Nat) : Outcome Byte :=
  match buffer[i]? with
  | some b => .ok b
  | none => .panic

/-- A parser that first asks for `expectedSize` bytes. -/
def sized {α : Type} (expectedSize : Nat) (buffer : List Byte) (parse : Outcome α) : Outcome α :=
  if buffer.length < expectedSize then .err else parse

/-- `f32::is_finite`, on the bits. -/
def f32IsFinite (x : UInt32) : Bool := (x >>> 23) &&& 0xFF != 0xFF

def f32IsNan (x : UInt32) : Bool := !f32IsFinite x && x &&& 0x7FFFFF != 0

/-- `clamp(0.0, 1.0)`, on the bits: a NaN and a negative zero stay. -/
def f32ClampUnit (x : UInt32) : UInt32 :=
  if f32IsNan x then x
  else if x > 0x80000000 then 0
  else if x = 0x80000000 then x
  else if x > 0x3F800000 then 0x3F800000
  else x

inductive Key
  | backspace | tab | clear | return_ | shift | control | alt | pause | capslock
  | katakanahiragana | hangeul | hanja | katakana | escape | space | pageUp | pageDown | end_
  | home | left | up | right | down | select | print | sysRq | insert | delete | help | num0
  | num1 | num2 | num3 | num4 | num5 | num6 | num7 | num8 | num9 | a | b | c | d | e | f | g | h
  | i | j | k | l | m | n | o | p | q | r | s | t | u | v | w | x | y | z | leftMeta | rightMeta
  | sleep | numpad0 | numpad1 | numpad2 | numpad3 | numpad4 | numpad5 | numpad6 | numpad7
  | numpad8 | numpad9 | numpadAsterisk | numpadPlus | numpadComma | numpadMinus | numpadDot
  | numpadSlash | f1 | f2 | f3 | f4 | f5 | f6 | f7 | f8 | f9 | f10 | f11 | f12 | f13 | f14 | f15
  | f16 | f17 | f18 | f19 | f20 | f21 | f22 | f23 | f24 | numlock | scroll | leftShift
  | rightShift | leftControl | rightControl | leftAlt | rightAlt | semicolon | equal | comma
  | minus | dot | slash | grave | leftBrace | backslash | rightBrace | apostrophe | nonUsBackslash
  deriving DecidableEq, Repr

def Key.fromRepr : Byte → Option Key
  | 0x08 => some .backspace | 0x09 => some .tab | 0x0C => some .clear | 0x0D => some .return_
  | 0x10 => some .shift | 0x11 => some .control | 0x12 => some .alt | 0x13 => some .pause
  | 0x14 => some .capslock | 0x15 => some .katakanahiragana | 0x16 => some .hangeul
  | 0x17 => some .hanja | 0x19 => some .katakana | 0x1B => some .escape | 0x20 => some .space
  | 0x21 => some .pageUp | 0x22 => some .pageDown | 0x23 => some .end_ | 0x24 => some .home
  | 0x25 => some .left | 0x26 => some .up | 0x27 => some .right | 0x28 => some .down
  | 0x29 => some .select | 0x2A => some .print | 0x2C => some .sysRq | 0x2D => some .insert
  | 0x2E => some .delete | 0x2F => some .help | 0x30 => some .num0 | 0x31 => some .num1
  | 0x32 => some .num2 | 0x33 => some .num3 | 0x34 => some .num4 | 0x35 => some .num5
  | 0x36 => some .num6 | 0x37 => some .num7 | 0x38 => some .num8 | 0x39 => some .num9
  | 0x41 => some .a | 0x42 => some .b | 0x43 => some .c | 0x44 => some .d | 0x45 => some .e
  | 0x46 => some .f | 0x47 => some .g | 0x48 => some .h | 0x49 => some .i | 0x4A => some .j
  | 0x4B => some .k | 0x4C => some .l | 0x4D => some .m | 0x4E => some .n | 0x4F => some .o
  | 0x50 => some .p | 0x51 => some .q | 0x52 => some .r | 0x53 => some .s | 0x54 => some .t
  | 0x55 => some .u | 0x56 => some .v | 0x57 => some .w | 0x58 => some .x | 0x59 => some .y
  | 0x5A => some .z | 0x5B => some .leftMeta | 0x5C => some .rightMeta | 0x5F => some .sleep
  | 0x60 => some .numpad0 | 0x61 => some .numpad1 | 0x62 => some .numpad2 | 0x63 => some .numpad3
  | 0x64 => some .numpad4 | 0x65 => some .numpad5 | 0x66 => some .numpad6 | 0x67 => some .numpad7
  | 0x68 => some .numpad8 | 0x69 => some .numpad9 | 0x6A => some .numpadAsterisk
  | 0x6B => some .numpadPlus | 0x6C => some .numpadComma | 0x6D => some .numpadMinus
  | 0x6E => some .numpadDot | 0x6F => some .numpadSlash | 0x70 => some .f1 | 0x71 => some .f2
  | 0x72 => some .f3 | 0x73 => some .f4 | 0x74 => some .f5 | 0x75 => some .f6 | 0x76 => some .f7
  | 0x77 => some .f8 | 0x78 => some .f9 | 0x79 => some .f10 | 0x7A => some .f11 | 0x7B => some .f12
  | 0x7C => some .f13 | 0x7D => some .f14 | 0x7E => some .f15 | 0x7F => some .f16
  | 0x80 => some .f17 | 0x81 => some .f18 | 0x82 => some .f19 | 0x83 => some .f20
  | 0x84 => some .f21 | 0x85 => some .f22 | 0x86 => some .f23 | 0x87 => some .f24
  | 0x90 => some .numlock | 0x91 => some .scroll | 0xA0 => some .leftShift
  | 0xA1 => some .rightShift | 0xA2 => some .leftControl | 0xA3 => some .rightControl
  | 0xA4 => some .leftAlt | 0xA5 => some .rightAlt | 0xBA => some .semicolon | 0xBB => some .equal
  | 0xBC => some .comma | 0xBD => some .minus | 0xBE => some .dot | 0xBF => some .slash
  | 0xC0 => some .grave | 0xDB => some .leftBrace | 0xDC => some .backslash
  | 0xDD => some .rightBrace | 0xDE => some .apostrophe | 0xE2 => some .nonUsBackslash
  | _ => none

def Key.fromBytes (buffer : List Byte) : Outcome Key :=
  sized (1 + 2 + 1 + 2) buffer do
    let wireKeycode ← le16At buffer 1
    let keycode := (wireKeycode &&& 0x00FF).toUInt8
    if keycode = 0x00 ∨ keycode = 0xFF then .err
    else Outcome.ofOption (Key.fromRepr keycode)

structure MouseMoveAbsolute where
  x : Int16
  y : Int16
  screenWidth : Int16
  screenHeight : Int16
  deriving DecidableEq, Repr

def MouseMoveAbsolute.fromBytes (buffer : List Byte) : Outcome MouseMoveAbsolute :=
  sized (2 + 2 + 2 + 2 + 2) buffer do
    return {
      x := ← beI16At buffer 0
      y := ← beI16At buffer 2
      screenWidth := ← beI16At buffer 6
      screenHeight := ← beI16At buffer 8 }

structure MouseMoveRelative where
  x : Int16
  y : Int16
  deriving DecidableEq, Repr

def MouseMoveRelative.fromBytes (buffer : List Byte) : Outcome MouseMoveRelative :=
  sized 4 buffer do
    return { x := ← beI16At buffer 0, y := ← beI16At buffer 2 }

inductive MouseButton
  | left | middle | right | side | extra
  deriving DecidableEq, Repr

def MouseButton.fromRepr : Byte → Option MouseButton
  | 0x01 => some .left | 0x02 => some .middle | 0x03 => some .right | 0x04 => some .side
  | 0x05 => some .extra | _ => none

def MouseButton.fromBytes (buffer : List Byte) : Outcome MouseButton :=
  sized 1 buffer do
    Outcome.ofOption (MouseButton.fromRepr (← byteAt buffer 0))

structure MouseScrollVertical where
  amount : Int16
  deriving DecidableEq, Repr

def MouseScrollVertical.fromBytes (buffer : List Byte) : Outcome MouseScrollVertical :=
  sized 2 buffer do
    return { amount := ← beI16At buffer 0 }

structure MouseScrollHorizontal where
  amount : Int16
  deriving DecidableEq, Repr

def MouseScrollHorizontal.fromBytes (buffer : List Byte) : Outcome MouseScrollHorizontal :=
  sized 2 buffer do
    return { amount := ← beI16At buffer 0 }

def pointerPayloadSize : Nat := 28

inductive PointerEventKind
  | hover | down | up | move | cancel | buttonOnly | hoverLeave | cancelAll
  deriving DecidableEq, Repr

def PointerEventKind.fromRepr : Byte → Option PointerEventKind
  | 0x00 => some .hover | 0x01 => some .down | 0x02 => some .up | 0x03 => some .move
  | 0x04 => some .cancel | 0x05 => some .buttonOnly | 0x06 => some .hoverLeave
  | 0x07 => some .cancelAll | _ => none

def PointerEventKind.hasPosition : PointerEventKind → Bool
  | hover | down | up | move => true
  | cancel | buttonOnly | hoverLeave | cancelAll => false

inductive PenToolKind
  | unknown | pen | eraser
  deriving DecidableEq, Repr

def PenToolKind.fromRepr : Byte → Option PenToolKind
  | 0x00 => some .unknown | 0x01 => some .pen | 0x02 => some .eraser | _ => none

structure Touch where
  eventKind : PointerEventKind
  pointerId : UInt32
  x : UInt32
  y : UInt32
  deriving DecidableEq, Repr

def Touch.fromBytes (buffer : List Byte) : Outcome Touch :=
  sized pointerPayloadSize buffer do
    let eventKind ← Outcome.ofOption (PointerEventKind.fromRepr (← byteAt buffer 0))
    let x ← le32At buffer 8
    let y ← le32At buffer 12
    if eventKind.hasPosition && (!f32IsFinite x || !f32IsFinite y) then .err
    else return { eventKind, pointerId := ← le32At buffer 4, x, y }

structure Pen where
  eventKind : PointerEventKind
  toolKind : PenToolKind
  buttons : Byte
  x : UInt32
  y : UInt32
  pressureOrDistance : UInt32
  rotation : UInt16
  tilt : Byte
  deriving DecidableEq, Repr

def Pen.fromBytes (buffer : List Byte) : Outcome Pen :=
  sized pointerPayloadSize buffer do
    let eventKind ← Outcome.ofOption (PointerEventKind.fromRepr (← byteAt buffer 0))
    let toolKind ← Outcome.ofOption (PenToolKind.fromRepr (← byteAt buffer 1))
    let x ← le32At buffer 4
    let y ← le32At buffer 8
    let pressureOrDistance ← le32At buffer 12
    if eventKind.hasPosition &&
        (!f32IsFinite x || !f32IsFinite y || !f32IsFinite pressureOrDistance) then .err
    else
      return {
        eventKind, toolKind, x, y, pressureOrDistance
        buttons := ← byteAt buffer 2
        rotation := ← le16At buffer 16
        tilt := ← byteAt buffer 18 }

inductive GamepadKind
  | unknown | xbox | playStation | nintendo
  deriving DecidableEq, Repr

def GamepadKind.fromRepr : Byte → Option GamepadKind
  | 0x00 => some .unknown | 0x01 => some .xbox | 0x02 => some .playStation
  | 0x03 => some .nintendo | _ => none

structure GamepadInfo where
  index : Byte
  kind : GamepadKind
  capabilities : UInt16
  supportedButtons : UInt32
  deriving DecidableEq, Repr

def GamepadInfo.fromBytes (buffer : List Byte) : Outcome GamepadInfo :=
  sized (1 + 1 + 2 + 4) buffer do
    return {
      index := ← byteAt buffer 0
      kind := ← Outcome.ofOption (GamepadKind.fromRepr (← byteAt buffer 1))
      capabilities := ← le16At buffer 2
      supportedButtons := ← le32At buffer 4 }

structure GamepadTouch where
  index : Byte
  eventType : Byte
  pointerId : UInt32
  x : UInt32
  y : UInt32
  pressure : UInt32
  deriving DecidableEq, Repr

def GamepadTouch.fromBytes (buffer : List Byte) : Outcome GamepadTouch :=
  sized (1 + 1 + 2 + 4 + 4 + 4 + 4) buffer do
    return {
      index := ← byteAt buffer 0
      eventType := ← byteAt buffer 1
      pointerId := ← le32At buffer 4
      x := f32ClampUnit (← le32At buffer 8)
      y := f32ClampUnit (← le32At buffer 12)
      pressure := f32ClampUnit (← le32At buffer 16) }

structure GamepadUpdate where
  index : UInt16
  activeGamepadMask : UInt16
  buttonFlags : UInt32
  leftTrigger : Byte
  rightTrigger : Byte
  leftStick : Int16 × Int16
  rightStick : Int16 × Int16
  deriving DecidableEq, Repr

def GamepadUpdate.fromBytes (buffer : List Byte) : Outcome GamepadUpdate :=
  sized (2 + 2 + 2 + 2 + 2 + 1 + 1 + 2 + 2 + 2 + 2 + 2 + 2 + 2) buffer do
    return {
      index := ← le16At buffer 2
      activeGamepadMask := ← le16At buffer 4
      buttonFlags := (← le16At buffer 8).toUInt32 ||| (← le16At buffer 22).toUInt32 <<< 16
      leftTrigger := ← byteAt buffer 10
      rightTrigger := ← byteAt buffer 11
      leftStick := (← leI16At buffer 12, ← leI16At buffer 14)
      rightStick := (← leI16At buffer 16, ← leI16At buffer 18) }

inductive JoypadMotionType
  | acceleration | gyroscope
  deriving DecidableEq, Repr

def JoypadMotionType.ofByte : Byte → Option JoypadMotionType
  | 1 => some .acceleration | 2 => some .gyroscope | _ => none

structure GamepadMotion where
  index : Byte
  motionType : JoypadMotionType
  x : UInt32
  y : UInt32
  z : UInt32
  deriving DecidableEq, Repr

def GamepadMotion.fromBytes (buffer : List Byte) : Outcome GamepadMotion :=
  sized (1 + 1 + 2 + 4 + 4 + 4) buffer do
    return {
      index := ← byteAt buffer 0
      motionType := ← Outcome.ofOption (JoypadMotionType.ofByte (← byteAt buffer 1))
      x := ← le32At buffer 4
      y := ← le32At buffer 8
      z := ← le32At buffer 12 }

inductive BatteryState
  | unknown | notPresent | discharging | charging | notCharging | full | percentageUnknown
  deriving DecidableEq, Repr

def BatteryState.fromRepr : Byte → Option BatteryState
  | 0x00 => some .unknown | 0x01 => some .notPresent | 0x02 => some .discharging
  | 0x03 => some .charging | 0x04 => some .notCharging | 0x05 => some .full
  | 0xFF => some .percentageUnknown | _ => none

structure GamepadBattery where
  index : Byte
  batteryState : BatteryState
  batteryPercentage : Byte
  deriving DecidableEq, Repr

def GamepadBattery.fromBytes (buffer : List Byte) : Outcome GamepadBattery :=
  sized (1 + 1 + 1 + 1) buffer do
    return {
      index := ← byteAt buffer 0
      batteryState := ← Outcome.ofOption (BatteryState.fromRepr (← byteAt buffer 1))
      batteryPercentage := ← byteAt buffer 2 }

inductive InputEvent
  | keyDown (key : Key)
  | keyUp (key : Key)
  | mouseMoveAbsolute (event : MouseMoveAbsolute)
  | mouseMoveRelative (event : MouseMoveRelative)
  | mouseButtonDown (button : MouseButton)
  | mouseButtonUp (button : MouseButton)
  | mouseScrollVertical (event : MouseScrollVertical)
  | mouseScrollHorizontal (event : MouseScrollHorizontal)
  | touch (event : Touch)
  | pen (event : Pen)
  | gamepadInfo (event : GamepadInfo)
  | gamepadTouch (event : GamepadTouch)
  | gamepadMotion (event : GamepadMotion)
  | gamepadBattery (event : GamepadBattery)
  | gamepadUpdate (event : GamepadUpdate)
  | gamepadEnableHaptics
  | utf8Text (text : String)
  deriving DecidableEq, Repr

def InputEvent.fromBytes (buffer : List Byte) : Outcome InputEvent :=
  if buffer.length < 4 then .err
  else do
    let eventType ← le32At buffer 0
    let rest ← readAt buffer 4 (buffer.length - 4)
    match eventType with
    | 0x00000003 => return .keyDown (← Key.fromBytes rest)
    | 0x00000004 => return .keyUp (← Key.fromBytes rest)
    | 0x00000005 => return .mouseMoveAbsolute (← MouseMoveAbsolute.fromBytes rest)
    | 0x00000007 => return .mouseMoveRelative (← MouseMoveRelative.fromBytes rest)
    | 0x00000008 => return .mouseButtonDown (← MouseButton.fromBytes rest)
    | 0x00000009 => return .mouseButtonUp (← MouseButton.fromBytes rest)
    | 0x0000000A => return .mouseScrollVertical (← MouseScrollVertical.fromBytes rest)
    | 0x55000001 => return .mouseScrollHorizontal (← MouseScrollHorizontal.fromBytes rest)
    | 0x55000002 => return .touch (← Touch.fromBytes rest)
    | 0x55000003 => return .pen (← Pen.fromBytes rest)
    | 0x55000004 => return .gamepadInfo (← GamepadInfo.fromBytes rest)
    | 0x55000005 => return .gamepadTouch (← GamepadTouch.fromBytes rest)
    | 0x55000006 => return .gamepadMotion (← GamepadMotion.fromBytes rest)
    | 0x55000007 => return .gamepadBattery (← GamepadBattery.fromBytes rest)
    | 0x0000000C => return .gamepadUpdate (← GamepadUpdate.fromBytes rest)
    | 0x0000000D => return .gamepadEnableHaptics
    | 0x00000017 =>
      let text ← Outcome.ofOption (String.fromUTF8? ⟨rest.toArray⟩)
      if text.isEmpty then .err else return .utf8Text text
    | _ => .err

end Moonshine.Impl.Control
