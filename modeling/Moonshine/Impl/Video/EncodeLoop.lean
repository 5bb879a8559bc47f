import Mathlib.Data.List.Infix
import Moonshine.Impl.Compositor.Frame
import Moonshine.Impl.Video.Pipeline

/-!
# A frame in the encode loop, `session/stream/video/pipeline/mod.rs`

What the loop of `Impl.Video.Pipeline` does with a captured frame: the DMA-BUF
importer, the colour converter, the colour description of the encoder, and the
HDR state that the control stream is told. What the GPU makes of each call is
chosen by the action (`Gpu`), and so are the frames.

`ColorConverter::convert` leaves the input image of the encoder as it is when it
fails. The control stream keeps a receiver for the HDR state. `encodeCalls` and
`failedConversion` are records for statements; no step reads them.
-/

namespace Moonshine.Impl.EncodeLoop

open Moonshine.Framework Moonshine.Impl Moonshine.Impl.Pipeline
open Moonshine.Impl.Packetizer (Crates)

/-- The colour descriptions of the encoder. -/
structure Pixelforge where
  ColorDescription : Type
  decidableEq : DecidableEq ColorDescription
  bt709 : ColorDescription
  bt2020Pq : ColorDescription
  withFullRange : ColorDescription → Bool → ColorDescription
  isHdr : ColorDescription → Bool
  isHdr_bt709 : ∀ fullRange, isHdr (withFullRange bt709 fullRange) = false
  isHdr_bt2020Pq : ∀ fullRange, isHdr (withFullRange bt2020Pq fullRange) = true

instance (pf : Pixelforge) : DecidableEq pf.ColorDescription := pf.decidableEq

inductive PixelForgeError
  | vulkan (result : Int32)
  /-- Any other error, with its text. -/
  | other (text : String)
  deriving DecidableEq, Repr

/-- `vk::Result::ERROR_DEVICE_LOST`. -/
def vkErrorDeviceLost : Int32 := -4

def isDeviceLost : PixelForgeError → Bool
  | .vulkan result => result == vkErrorDeviceLost
  | .other text => decide ("device has been lost".toList <:+: text.toList)

inductive InputFormat
  | rgba | abgr2101010 | rgba16f | bgrx
  deriving DecidableEq, Repr

inductive OutputFormat
  | nv12 | p010 | yuv444 | yuv444p10
  deriving DecidableEq, Repr

inductive ColorSpace
  | bt709 | bt2020 | bt709LinearToBt2020Pq
  deriving DecidableEq, Repr

inductive VkFormat
  | r8g8b8a8Unorm | a2b10g10r10UnormPack32 | r16g16b16a16Sfloat | b8g8r8a8Unorm
  deriving DecidableEq, Repr

/-- `ColorConverter`, with its configuration. -/
structure ColorConverter where
  width : UInt32
  height : UInt32
  inputFormat : InputFormat
  outputFormat : OutputFormat
  colorSpace : ColorSpace
  fullRange : Bool
  /-- `none` is the default of the converter. -/
  sdrReferenceWhiteNits : Option Nat
  deriving DecidableEq, Repr

def drmFourccToInput (fourcc : UInt32) : InputFormat × VkFormat :=
  if fourcc = 0x34324241 ∨ fourcc = 0x34324258 then (.rgba, .r8g8b8a8Unorm)
  else if fourcc = 0x30334241 ∨ fourcc = 0x30334258 then (.abgr2101010, .a2b10g10r10UnormPack32)
  else if fourcc = 0x48344241 ∨ fourcc = 0x48344258 then (.rgba16f, .r16g16b16a16Sfloat)
  else (.bgrx, .b8g8r8a8Unorm)

def outputFormat (ctx : VideoStreamContext) : OutputFormat :=
  match ctx.chromaSamplingType, ctx.dynamicRange with
  | .yuv420, .sdr => .nv12
  | .yuv420, .hdr => .p010
  | .yuv444, .sdr => .yuv444
  | .yuv444, .hdr => .yuv444p10

def scrgbReferenceWhiteNits : Nat := 80

def bt2408SdrReferenceNits : Nat := 203

variable (pf : Pixelforge)

/-- The description that the encoder is created with. -/
def initialDescription (ctx : VideoStreamContext) : pf.ColorDescription :=
  match ctx.dynamicRange with
  | .sdr => pf.withFullRange pf.bt709 ctx.fullRange
  | .hdr => pf.withFullRange pf.bt2020Pq ctx.fullRange

/-- The colours that the loop selects for a frame. -/
structure FrameColors where
  colorSpace : ColorSpace
  fullRange : Bool
  description : pf.ColorDescription
  sdrWhiteNits : Nat

def frameColors (ctx : VideoStreamContext) : FrameColorSpace → FrameColors pf
  | .srgb =>
    ⟨.bt709, ctx.fullRange, pf.withFullRange pf.bt709 ctx.fullRange, bt2408SdrReferenceNits⟩
  | .bt2020Pq =>
    ⟨.bt2020, ctx.fullRange, pf.withFullRange pf.bt2020Pq ctx.fullRange, bt2408SdrReferenceNits⟩
  | .scrgbLinear =>
    ⟨.bt709LinearToBt2020Pq, ctx.fullRange, pf.withFullRange pf.bt2020Pq ctx.fullRange, scrgbReferenceWhiteNits⟩

/-- The pixels of a frame, as a converter wrote them. -/
structure InputImage where
  frame : ExportedFrame
  converter : ColorConverter
  deriving DecidableEq, Repr

/-- `FrameContext`, without the timings. -/
structure FrameContext where
  injectHdr : Bool
  hdrMetadata : Option HdrMetadata
  /-- `none` is `usize::MAX`. -/
  bufferIndex : Option Nat
  deriving DecidableEq, Repr

/-- What holds when `encode` is called, and what the consumer is handed if it
succeeds. -/
structure EncodeCall where
  description : pf.ColorDescription
  image : Option InputImage
  published : HdrModeState
  context : Option FrameContext

structure Locals where
  /-- Whether there is a `DmaBufImporter`. -/
  dmabufImporter : Bool
  colorConverter : Option ColorConverter
  encoderColorDesc : Option pf.ColorDescription
  lastHdrState : HdrModeState
  /-- The description and the input image of the encoder. -/
  description : pf.ColorDescription
  inputImage : Option InputImage
  /-- What the HDR state's channel holds. -/
  published : HdrModeState
  encodeCalls : List (EncodeCall pf)
  /-- The last frame whose conversion failed, since one succeeded. -/
  failedConversion : Option FrameColorSpace

/-- `launchedHdr` is what the session was created with. -/
def Locals.start (ctx : VideoStreamContext) (launchedHdr : Bool) : Locals pf where
  dmabufImporter := false
  colorConverter := none
  encoderColorDesc := some (initialDescription pf ctx)
  lastHdrState := ⟨ctx.dynamicRange == .hdr, none⟩
  description := initialDescription pf ctx
  inputImage := none
  published := .new launchedHdr
  encodeCalls := []
  failedConversion := none

/-- The results of the calls that handle a frame, as far as they are made. -/
structure Gpu where
  importerNew : Bool
  /-- `import_or_reuse`: whether the image needs a transition, as a new one. -/
  importOrReuse : Option Bool
  converterNew : Bool
  setColorDescription : Bool
  convert : Except PixelForgeError Unit
  encode : Except PixelForgeError Unit

/-- How the handling of a frame ends, and whether the compositor is told that
the buffer is free. -/
structure Exit where
  captured : Captured
  consumed : Bool
  deriving DecidableEq, Repr

variable {pf}

namespace Locals

variable (ctx : VideoStreamContext) (gpu : Gpu) (frame : ExportedFrame) (l : Locals pf)

def ensureImporter : Option (Locals pf) :=
  if l.dmabufImporter then some l
  else if gpu.importerNew then some { l with dmabufImporter := true }
  else none

/-- A converter for another input format is dropped. -/
def dropConverter (inputFormat : InputFormat) : Locals pf :=
  match l.colorConverter with
  | some converter => if converter.inputFormat ≠ inputFormat then { l with colorConverter := none } else l
  | none => l

def newConverter (inputFormat : InputFormat) : ColorConverter where
  width := ctx.width
  height := ctx.height
  inputFormat := inputFormat
  outputFormat := outputFormat ctx
  colorSpace := match ctx.dynamicRange with
    | .sdr => .bt709
    | .hdr => .bt2020
  fullRange := ctx.fullRange
  sdrReferenceWhiteNits := none

/-- The converter, created if there is none. -/
def ensureConverter (inputFormat : InputFormat) : Option (ColorConverter × Locals pf) :=
  match l.colorConverter with
  | some converter => some (converter, l)
  | none =>
    if gpu.converterNew then
      let converter := newConverter ctx inputFormat
      some (converter, { l with colorConverter := some converter })
    else none

/-- `set_color_space`, `set_full_range` and `set_sdr_reference_white_nits`. -/
def setConverterColors (converter : ColorConverter) (colors : FrameColors pf) : ColorConverter × Locals pf :=
  let converter := { converter with
    colorSpace := colors.colorSpace
    fullRange := colors.fullRange
    sdrReferenceWhiteNits := some colors.sdrWhiteNits }
  (converter, { l with colorConverter := some converter })

/-- In HDR mode, the encoder's description is switched first. -/
def switchColors (converter : ColorConverter) : Option (ColorConverter × Locals pf) :=
  match ctx.dynamicRange with
  | .sdr => some (converter, l)
  | .hdr =>
    let colors := frameColors pf ctx frame.colorSpace
    if l.encoderColorDesc ≠ some colors.description then
      if gpu.setColorDescription then
        let l := { l with encoderColorDesc := some colors.description, description := colors.description }
        some (l.setConverterColors converter colors)
      else none
    else some (l.setConverterColors converter colors)

/-- `encoder_color_desc.is_some_and(|desc| desc.is_hdr())`. -/
def isHdr : Bool := l.encoderColorDesc.any pf.isHdr

/-- Tells the control stream of a change of the HDR state. -/
def publish : Locals pf :=
  match ctx.dynamicRange with
  | .sdr => l
  | .hdr =>
    let newState : HdrModeState := ⟨l.isHdr, frame.hdrMetadata⟩
    if newState ≠ l.lastHdrState then { l with lastHdrState := newState, published := newState } else l

def frameContext (bufferIndex : Option Nat) : FrameContext := ⟨l.isHdr, l.lastHdrState.metadata, bufferIndex⟩

def encodeCall (bufferIndex : Option Nat) (result : Except PixelForgeError Unit) : EncodeCall pf where
  description := l.description
  image := l.inputImage
  published := l.published
  context := if result.isOk then some (l.frameContext bufferIndex) else none

/-- `encoder.encode(encoder.input_image())`. -/
def encode (bufferIndex : Option Nat) (result : Except PixelForgeError Unit) : Locals pf :=
  { l with encodeCalls := l.encodeCalls ++ [l.encodeCall bufferIndex result] }

/-- From the converted frame on. -/
def submitFrame : Locals pf × Exit :=
  let l := (l.publish ctx frame).encode (some frame.bufferIndex) gpu.encode
  match gpu.encode with
  | .ok () => (l, ⟨.encoded, true⟩)
  | .error e => (l, ⟨if isDeviceLost e then .fatal else .encodeFailed, true⟩)

def convertFrame (converter : ColorConverter) : Locals pf × Exit :=
  match gpu.convert with
  | .error e =>
    let l := { l with failedConversion := some frame.colorSpace }
    (l, ⟨if isDeviceLost e then .fatal else .skipped, true⟩)
  | .ok () =>
    { l with inputImage := some ⟨frame, converter⟩, failedConversion := none }.submitFrame ctx gpu frame

/-- The handling of a frame, from the backpressure check on. A frame without
planes is a panic. -/
def processFrame : Locals pf × Exit :=
  match l.ensureImporter gpu with
  | none => (l, ⟨.skipped, true⟩)
  | some l =>
    match frame.planes with
    | [] => (l, ⟨.fatal, false⟩)
    | _ :: _ =>
      let (inputFormat, _) := drmFourccToInput frame.format
      match gpu.importOrReuse with
      | none => (l, ⟨.skipped, true⟩)
      | some _ =>
        let l := l.dropConverter inputFormat
        match l.ensureConverter ctx gpu inputFormat with
        | none => (l, ⟨.skipped, true⟩)
        | some (converter, l) =>
          match l.switchColors ctx gpu frame converter with
          | none => (l, ⟨.fatal, false⟩)
          | some (converter, l) => l.convertFrame ctx gpu frame converter

end Locals

structure World (x : Crates) (pf : Pixelforge) where
  pipeline : Pipeline.State x
  locals : Locals pf
  consumed : ConsumedFlag → Bool

structure Config where
  pipeline : Pipeline.Config
  launchedHdr : Bool

def Config.context (cfg : Config) : VideoStreamContext := cfg.pipeline.context

variable {x : Crates}

/-- The slots of the buffer pool are free. -/
def World.start (x : Crates) (pf : Pixelforge) (cfg : Config) : World x pf where
  pipeline := .start x cfg.pipeline
  locals := .start pf cfg.context cfg.launchedHdr
  consumed
    | .slot _ => true
    | .scanout _ => false

def World.store (w : World x pf) (flag : ConsumedFlag) : World x pf :=
  { w with consumed := Function.update w.consumed flag true }

/-- Whether an IDR re-encodes the input image when no frame comes in time. -/
def World.reencodes (w : World x pf) : Bool := w.pipeline.loop.pendingIdr && w.pipeline.loop.hasEncoded

/-- A step of the pipeline beside this one. -/
def World.withPipeline (cfg : Config) (w : World x pf) (a : Pipeline.Action) : Option (World x pf) :=
  (Pipeline.step cfg.pipeline w.pipeline a).map fun pipeline => { w with pipeline }

def World.timeout (cfg : Config) (w : World x pf) (encode : Except PixelForgeError Unit) : Option (World x pf) :=
  let locals := if w.reencodes then w.locals.encode none encode else w.locals
  { w with locals }.withPipeline cfg (.receive (.timeout encode.isOk))

def World.frame (cfg : Config) (w : World x pf) (frame : ExportedFrame) (gpu : Gpu) : Option (World x pf) :=
  if w.pipeline.inFlight ≥ maxFramesInFlight then
    (w.store frame.consumed).withPipeline cfg (.receive (.frame .skipped))
  else
    let (locals, exit) := w.locals.processFrame cfg.context gpu frame
    let w := { w with locals }
    (if exit.consumed then w.store frame.consumed else w).withPipeline cfg (.receive (.frame exit.captured))

inductive Action
  /-- Anything but the end of the loop's body. -/
  | pipeline (a : Pipeline.Action)
  | timeout (encode : Except PixelForgeError Unit)
  | disconnected
  | frame (frame : ExportedFrame) (gpu : Gpu)

/-- The compositor of a session that was launched without HDR exports sRGB. -/
def Config.exports (cfg : Config) (frame : ExportedFrame) : Bool :=
  cfg.launchedHdr || frame.colorSpace == .srgb

def step (cfg : Config) (w : World x pf) : Action → Option (World x pf)
  | .pipeline (.receive _) => none
  | .pipeline a => w.withPipeline cfg a
  | .timeout encode => w.timeout cfg encode
  | .disconnected => w.withPipeline cfg (.receive .disconnected)
  | .frame frame gpu => if cfg.exports frame then w.frame cfg frame gpu else none

end Moonshine.Impl.EncodeLoop
