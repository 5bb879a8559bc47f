import Moonshine.Impl.Video.DmaBuf
import Moonshine.Impl.Video.EncodeLoop

/-!
# The encode loop and its importer, `session/stream/video/pipeline/mod.rs`

`Impl.Video.EncodeLoop` with the importer of `Impl.Video.DmaBuf`: what a frame asks
of it, and the layout that the image is taken to be in. The import is no longer
chosen by the action, but what the kernel, the clock and Vulkan contribute to it is
(`ImportCall`). `frames` is a record for statements; no step reads it.
-/

namespace Moonshine.Impl.ImportLoop

open Moonshine.Framework Moonshine.Impl
open Moonshine.Impl.DmaBuf (DmaBufPlane DmaBufImporter Device)
open Moonshine.Impl.EncodeLoop (VkFormat PixelForgeError Pixelforge Locals Gpu drmFourccToInput)
open Moonshine.Impl.Packetizer (Crates)
open Moonshine.Impl.Pipeline (maxFramesInFlight)

/-- The values of `vk::Format`. -/
def rawFormat : VkFormat → DmaBuf.Format
  | .r8g8b8a8Unorm => 37
  | .b8g8r8a8Unorm => 44
  | .a2b10g10r10UnormPack32 => 64
  | .r16g16b16a16Sfloat => 97

/-- `vk::ImageLayout`, as far as it is used. -/
inductive ImageLayout
  | undefined | general
  deriving DecidableEq, Repr

/-- `src_layout`. -/
def srcLayout (needsTransition : Bool) : ImageLayout := if needsTransition then .undefined else .general

/-- What an import depends on beside the frame. -/
structure ImportCall where
  file : Nat
  sweepAt : Nat
  now : Nat
  tryClone : Except String Unit
  results : DmaBuf.Results

/-- At most four planes, with the modifier of the frame. -/
def planesOf (frame : ExportedFrame) : List DmaBufPlane :=
  (frame.planes.take 4).map fun p => ⟨p.fd, p.offset, p.stride, frame.modifier⟩

/-- The call of `import_or_reuse`, for a frame with a first plane. -/
def request (frame : ExportedFrame) (plane : ExportedPlane) (call : ImportCall) : DmaBuf.Request where
  fd := plane.fd
  width := frame.width
  height := frame.height
  format := rawFormat (drmFourccToInput frame.format).2
  planes := planesOf frame
  file := call.file
  sweepAt := call.sweepAt
  now := call.now
  tryClone := call.tryClone
  results := call.results

variable {x : Crates} {pf : Pixelforge}

/-- How `convert` ends for a frame that is imported, unless the loop gives the frame up
before it. -/
def convertCall (ctx : VideoStreamContext) (gpu : Gpu) (frame : ExportedFrame) (l : Locals pf) :
    Option (Except PixelForgeError Unit) := do
  let (inputFormat, _) := drmFourccToInput frame.format
  let (converter, l) ← (l.dropConverter inputFormat).ensureConverter ctx gpu inputFormat
  let _ ← l.switchColors ctx gpu frame converter
  return gpu.convert

/-- A frame that was imported: its image, the layout that it is taken to be in, and how
`convert` ended, if it was called. -/
structure ImportedFrame where
  image : Nat
  layout : ImageLayout
  convert : Option (Except PixelForgeError Unit)
  deriving DecidableEq, Repr

def importedFrames (convert : Option (Except PixelForgeError Unit)) :
    Except String (Nat × Bool) → List ImportedFrame
  | .ok (image, needsTransition) => [⟨image, srcLayout needsTransition, convert⟩]
  | .error _ => []

structure World (x : Crates) (pf : Pixelforge) where
  loop : EncodeLoop.World x pf
  importer : DmaBufImporter
  device : Device
  frames : List ImportedFrame

/-- The importer is empty when it is created. -/
def World.start (x : Crates) (pf : Pixelforge) (cfg : EncodeLoop.Config) : World x pf where
  loop := .start x pf cfg
  importer := .new
  device := .new
  frames := []

namespace World

variable (cfg : EncodeLoop.Config) (w : World x pf)

/-- A step of the loop that does not come to the importer. -/
def withLoop (loop : Option (EncodeLoop.World x pf)) : Option (World x pf) := loop.map fun loop => { w with loop }

/-- A frame that the importer is asked for, in the locals `l`. -/
def importFrame (frame : ExportedFrame) (gpu : Gpu) (l : Locals pf) (q : DmaBuf.Request) : Option (World x pf) :=
  let out := w.importer.importOrReuse q w.device
  (w.loop.frame cfg frame { gpu with importOrReuse := out.1.toOption.map Prod.snd }).map fun loop =>
    { loop
      importer := out.2.1
      device := out.2.2
      frames := w.frames ++ importedFrames (convertCall cfg.context gpu frame l) out.1 }

/-- A frame, unless it is dropped for backpressure, there is no importer, or it has no
planes. -/
def frame (frame : ExportedFrame) (gpu : Gpu) (call : ImportCall) : Option (World x pf) :=
  if w.loop.pipeline.inFlight ≥ maxFramesInFlight then w.withLoop (w.loop.frame cfg frame gpu)
  else
    match w.loop.locals.ensureImporter gpu, frame.planes with
    | some l, plane :: _ => w.importFrame cfg frame gpu l (request frame plane call)
    | _, _ => w.withLoop (w.loop.frame cfg frame gpu)

end World

inductive Action
  /-- Anything but a frame. -/
  | loop (a : EncodeLoop.Action)
  /-- What `gpu` has of the import is not used. -/
  | frame (frame : ExportedFrame) (gpu : Gpu) (call : ImportCall)

def step (cfg : EncodeLoop.Config) (w : World x pf) : Action → Option (World x pf)
  | .loop (.frame _ _) => none
  | .loop a => w.withLoop (EncodeLoop.step cfg w.loop a)
  | .frame frame gpu call => if cfg.exports frame then w.frame cfg frame gpu call else none

end Moonshine.Impl.ImportLoop
