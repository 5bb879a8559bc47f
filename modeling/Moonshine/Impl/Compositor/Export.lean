import Moonshine.Framework.HashMap
import Moonshine.Impl.Video.EncodeLoop

/-!
# Rendering and exporting frames, `session/compositor/state.rs`

`render_and_export` on the compositor's thread, the channel of frames, and the
encode loop at its other end. The two threads share the `consumed` flags. A
frame that is rendered takes two steps, since the loop can get in once the flag
of its slot is cleared; a frame that is scanned out directly takes one.

What the scene, the renderer and the GPU make of a call is chosen by the action.
The colours of the surfaces are given to a frame as they are. The ages of the
buffers, which only limit what is redrawn, and the callbacks to the clients are
left out.
-/

namespace Moonshine.Impl.Export

open Moonshine.Framework Moonshine.Impl
open Moonshine.Impl.EncodeLoop (Pixelforge PixelForgeError Gpu)
open Moonshine.Impl.Packetizer (Crates)

abbrev ObjectId := Nat

/-- The capacity of the frame channel. -/
def frameChannelCapacity : Nat := 2

structure Dmabuf where
  planes : List ExportedPlane
  format : UInt32
  modifier : UInt64
  width : UInt32
  height : UInt32
  deriving DecidableEq, Repr

/-- A committed `wl_buffer`. -/
structure ClientBuffer where
  id : ObjectId
  isDma : Bool
  /-- `dmabuf::get_dmabuf`. -/
  dmabuf : Option Dmabuf

/-- An element of the space. -/
structure SpaceWindow where
  hasToplevel : Bool
  location : Option (Int × Int)
  buffer : Option ClientBuffer

structure OverrideSurface where
  alive : Bool
  /-- It was stored for the X11 window that is focused now. -/
  focused : Bool
  buffer : Option ClientBuffer

/-- What the compositor finds when it renders. -/
structure Scene where
  cursorMoved : Bool
  /-- The last frame was sent a second ago. -/
  keepaliveDue : Bool
  /-- There was no pointer activity within three seconds. -/
  pointerIdle : Bool
  hasPopups : Bool
  windows : List SpaceWindow
  overrideSurface : Option OverrideSurface
  /-- `frame_color_space` and `hdr_metadata`, with colour management. -/
  colors : Option (FrameColorSpace × Option HdrMetadata)

namespace Scene

variable (scene : Scene)

def canDirectScanoutScene : Bool := scene.pointerIdle && !scene.hasPopups

def isOverrideActive : Bool := scene.overrideSurface.any fun s => s.alive && s.focused

end Scene

/-- The DMA-BUF of a committed buffer, if it has the size of the output. -/
def committedDmabuf (width height : UInt32) (buffer : Option ClientBuffer) : Option (ObjectId × Dmabuf) := do
  let buffer ← buffer
  if buffer.isDma then
    let dmabuf ← buffer.dmabuf
    if dmabuf.width = width ∧ dmabuf.height = height then some (buffer.id, dmabuf) else none
  else none

/-- What `try_direct_scanout` exports. -/
def tryDirectScanout (width height : UInt32) : List SpaceWindow → Option (ObjectId × Dmabuf)
  | [window] =>
    if window.hasToplevel ∧ window.location.all (· = (0, 0)) then committedDmabuf width height window.buffer
    else none
  | _ => none

/-- What `try_direct_scanout_override` exports. -/
def tryDirectScanoutOverride (width height : UInt32) (overrideSurface : Option OverrideSurface) :
    Option (ObjectId × Dmabuf) :=
  (overrideSurface.filter (·.alive)).bind fun s => committedDmabuf width height s.buffer

/-- A frame between its two steps. -/
structure Rendering where
  frame : ExportedFrame
  scene : Scene

structure Compositor where
  width : UInt32
  height : UInt32
  bufferPool : Fin bufferPoolSize → Dmabuf
  nextBufferIndex : Fin bufferPoolSize
  screenDirty : Bool
  heldScanoutBuffers : List (ConsumedFlag × ObjectId)
  scanoutBufferMap : HashMap ObjectId Nat
  scanoutNextIndex : Nat
  /-- How many flags were made for direct scanout. -/
  scanoutFlags : Nat
  rendering : Option Rendering
  running : Bool

def Compositor.new (width height : UInt32) (bufferPool : Fin bufferPoolSize → Dmabuf) : Compositor where
  width := width
  height := height
  bufferPool := bufferPool
  nextBufferIndex := 0
  screenDirty := true
  heldScanoutBuffers := []
  scanoutBufferMap := ∅
  scanoutNextIndex := bufferPoolSize
  scanoutFlags := 0
  rendering := none
  running := true

/-- What direct scanout would export. -/
def Compositor.scanout (c : Compositor) (scene : Scene) : Option (ObjectId × Dmabuf) :=
  if scene.canDirectScanoutScene then
    if scene.isOverrideActive then tryDirectScanoutOverride c.width c.height scene.overrideSurface
    else tryDirectScanout c.width c.height scene.windows
  else none

/-- `export_dmabuf`, and the frame of a direct scanout. -/
def exportDmabuf (dmabuf : Dmabuf) (bufferIndex : Nat) (consumed : ConsumedFlag)
    (colors : Option (FrameColorSpace × Option HdrMetadata)) : ExportedFrame where
  planes := dmabuf.planes
  format := dmabuf.format
  modifier := dmabuf.modifier
  width := dmabuf.width
  height := dmabuf.height
  bufferIndex := bufferIndex
  consumed := consumed
  colorSpace := (colors.map Prod.fst).getD .srgb
  hdrMetadata := colors.bind Prod.snd

/-- `scanout_buffer_map.entry(id).or_insert_with(..)`. -/
def Compositor.scanoutIndex (c : Compositor) (id : ObjectId) : Nat × Compositor :=
  match HashMap.get? c.scanoutBufferMap id with
  | some index => (index, c)
  | none =>
    (c.scanoutNextIndex,
      { c with
        scanoutBufferMap := c.scanoutBufferMap.insert id c.scanoutNextIndex
        scanoutNextIndex := c.scanoutNextIndex + 1 })

structure World (x : Crates) (pf : Pixelforge) where
  encoder : EncodeLoop.World x pf
  compositor : Compositor
  channel : List ExportedFrame
  receiverAlive : Bool
  /-- The frame that the loop has received. -/
  inHand : Option ExportedFrame

variable {x : Crates} {pf : Pixelforge}

def World.start (x : Crates) (pf : Pixelforge) (cfg : EncodeLoop.Config) (compositor : Compositor) :
    World x pf where
  encoder := .start x pf cfg
  compositor := compositor
  channel := []
  receiverAlive := true
  inHand := none

inductive RenderOutput
  | rendered | noMode | failed
  deriving DecidableEq, Repr

/-- What the renderer makes of a frame, as far as it is called. -/
structure RenderResults where
  bind : Bool
  spaceElements : Bool
  renderOutput : RenderOutput
  deriving DecidableEq, Repr

namespace World

variable (w : World x pf)

def consumed (flag : ConsumedFlag) : Bool := w.encoder.consumed flag

def store (flag : ConsumedFlag) (value : Bool) : World x pf :=
  { w with encoder := { w.encoder with consumed := Function.update w.encoder.consumed flag value } }

/-- `frame_tx.try_send`, and what is done about it. -/
def sendFrame (frame : ExportedFrame) : World x pf :=
  if w.receiverAlive = false then w
  else if w.channel.length < frameChannelCapacity then
    { w with
      channel := w.channel ++ [frame]
      compositor := { w.compositor with screenDirty := false } }
  else w.store frame.consumed true

def releaseHeld : World x pf :=
  let done := w.compositor.heldScanoutBuffers.filter fun held => w.consumed held.1
  { w with
    compositor := { w.compositor with
      heldScanoutBuffers := w.compositor.heldScanoutBuffers.filter fun held => !w.consumed held.1
      scanoutBufferMap := done.foldl (fun m held => m.erase held.2) w.compositor.scanoutBufferMap } }

/-- Sends a client's buffer as it is, and keeps hold of it. -/
def exportScanout (scene : Scene) (id : ObjectId) (dmabuf : Dmabuf) : World x pf :=
  let (index, compositor) := w.compositor.scanoutIndex id
  let flag := ConsumedFlag.scanout compositor.scanoutFlags
  let compositor := { compositor with
    scanoutFlags := compositor.scanoutFlags + 1
    heldScanoutBuffers := compositor.heldScanoutBuffers ++ [(flag, id)] }
  { w with compositor }.sendFrame (exportDmabuf dmabuf index flag scene.colors)

/-- Takes the next slot of the pool, or skips the frame. -/
def beginRender (scene : Scene) : World x pf :=
  let index := w.compositor.nextBufferIndex
  if w.consumed (.slot index) = false then w
  else
    let frame := exportDmabuf (w.compositor.bufferPool index) index (.slot index) scene.colors
    let w := w.store (.slot index) false
    { w with
      compositor := { w.compositor with nextBufferIndex := index + 1, rendering := some ⟨frame, scene⟩ } }

/-- A cursor that has moved makes the screen dirty. -/
def noteCursor (scene : Scene) : World x pf :=
  { w with compositor := { w.compositor with screenDirty := w.compositor.screenDirty || scene.cursorMoved } }

/-- `render_and_export`, up to where the slot is bound. A static screen is
rendered for the keepalive only. -/
def renderAndExport (scene : Scene) : World x pf :=
  let w := w.noteCursor scene
  if !w.compositor.screenDirty && !scene.keepaliveDue then w
  else
    let w := w.releaseHeld
    match w.compositor.scanout scene with
    | some (id, dmabuf) => w.exportScanout scene id dmabuf
    | none => w.beginRender scene

/-- The rest of it. -/
def finishRender (rendering : Rendering) (results : RenderResults) : World x pf :=
  let w := { w with compositor := { w.compositor with rendering := none } }
  if !results.bind then w.store rendering.frame.consumed true
  -- the elements of the space are not to be had
  else if !results.spaceElements then w
  else if rendering.scene.isOverrideActive && rendering.scene.overrideSurface.isNone then w
  else match results.renderOutput with
    | .failed => w
    | .rendered => w.sendFrame rendering.frame
    | .noMode => w.sendFrame rendering.frame

end World

inductive Action
  | renderAndExport (scene : Scene)
  | finishRender (results : RenderResults)
  | stopCompositor
  /-- Anything of the loop and the consumer but the end of the loop's body. -/
  | pipeline (a : Pipeline.Action)
  | receiveFrame
  | processFrame (gpu : Gpu)
  | timeout (encode : Except PixelForgeError Unit)
  | disconnected
  /-- The loop has ended, and with it the receiver of the frames. -/
  | dropReceiver

def World.withEncoder (cfg : EncodeLoop.Config) (w : World x pf) (a : EncodeLoop.Action) : Option (World x pf) :=
  (EncodeLoop.step cfg w.encoder a).map fun encoder => { w with encoder }

def step (cfg : EncodeLoop.Config) (w : World x pf) : Action → Option (World x pf)
  | .renderAndExport scene =>
    if w.compositor.running ∧ w.compositor.rendering.isNone then some (w.renderAndExport scene) else none
  | .finishRender results => w.compositor.rendering.map (w.finishRender · results)
  | .stopCompositor =>
    if w.compositor.rendering.isNone then some { w with compositor := { w.compositor with running := false } }
    else none
  | .pipeline a => w.withEncoder cfg (.pipeline a)
  | .receiveFrame =>
    if w.encoder.pipeline.loop.phase = .receive ∧ w.encoder.pipeline.loop.outbox = none ∧ w.inHand = none then
      match w.channel with
      | frame :: channel => some { w with channel, inHand := some frame }
      | [] => none
    else none
  | .processFrame gpu =>
    w.inHand.bind fun frame =>
      (w.encoder.frame cfg frame gpu).map fun encoder => { w with encoder, inHand := none }
  | .timeout encode =>
    if w.channel = [] ∧ w.inHand = none then w.withEncoder cfg (.timeout encode) else none
  | .disconnected =>
    if w.channel = [] ∧ w.inHand = none ∧ w.compositor.running = false then w.withEncoder cfg .disconnected
    else none
  | .dropReceiver =>
    if w.encoder.pipeline.loop.phase = .stopped ∧ w.inHand = none then
      some { w with channel := [], receiverAlive := false }
    else none

end Moonshine.Impl.Export
