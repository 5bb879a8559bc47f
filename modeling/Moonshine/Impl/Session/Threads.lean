import Mathlib.Algebra.Order.Field.Rat
import Moonshine.Impl.Session.Negotiation
import Moonshine.Impl.Video.Pipeline

/-!
# What the threads of a session compute from the values negotiated for it

The steps of the RTSP server, the compositor, the video pipeline, its packet
consumer, the Pulse server and the audio encoder in which they calculate with
the mode, the key ID and the ANNOUNCE of a session. Arithmetic is checked: where
a result does not fit its type, or a divisor is zero, the thread panics. What
else can end a thread (`Err`, or a device that refuses) is chosen by the action.

The cursor has rational coordinates for `f64` ones, the bounds it is clamped to
are integers.
-/

namespace Moonshine.Impl.Threads

open Moonshine.Framework Moonshine.Impl.Packetizer Moonshine.Impl.Negotiation

/-- The server's side: the applications it knows, its video settings, and the
longest packet its encoder can deliver, with the metadata put into it. -/
structure Settings where
  applications : List Int32
  encrypt : Bool
  fecPercentage : Byte
  longestPacket : Nat

inductive Thread
  | rtsp | compositor | videoPipeline | packetConsumer | pulseServer | audioEncoder
  deriving DecidableEq, Repr

inductive Phase
  | idle | spawned | running | ended | panicked
  deriving DecidableEq, Repr

structure State (x : Crates) where
  phase : Thread → Phase
  /-- The compositor has reported that it is ready: the session is launched. -/
  ready : Bool
  /-- `refresh` of the output's mode. -/
  refresh : Int
  cursorPosition : ℚ × ℚ
  contexts : Option (VideoStreamContext × AudioStreamContext)
  frameNumber : UInt32
  packetizer : Packetizer.State x
  clockRateHz : Nat
  /-- Of the audio encoder. -/
  sequenceNumber : UInt16

variable {x : Crates}

def State.start (x : Crates) (session : SessionContext) : State x where
  phase := fun _ => .idle
  ready := false
  refresh := 0
  cursorPosition := ((session.resolution.1.toNat : ℚ) / 2, (session.resolution.2.toNat : ℚ) / 2)
  contexts := none
  frameNumber := 0
  packetizer := ⟨Packetizer.new x false, 0, []⟩
  clockRateHz := 0
  sequenceNumber := 0

def State.setPhase (s : State x) (t : Thread) (phase : Phase) : State x :=
  { s with phase := Function.update s.phase t phase }

/-- A step of a thread that is in the given phase. -/
def State.run (s : State x) (t : Thread) (phase : Phase) (result : Outcome (State x)) : Option (State x) :=
  if s.phase t = phase then
    match result with
    | .ok s' => some s'
    | .err => some (s.setPhase t .ended)
    | .panic => some (s.setPhase t .panicked)
  else none

/-- `run_compositor` up to its event loop; what it opens and allocates may fail. -/
def runCompositor (session : SessionContext) (opens : Bool) (s : State x) : Outcome (State x) := do
  let refresh ← checkedMul 32 session.refreshRate.toNat 1000
  if opens then
    let _ ← checkedDiv 1000000000 session.refreshRate.toNat
    return { s.setPhase .compositor .running with
      ready := true
      refresh := (UInt32.ofNat refresh).toInt32.toInt }
  else .err

/-- The refresh cycle that a rendered frame reports. -/
def refreshCycle (s : State x) : Outcome Nat := checkedDiv 1000000000000 (max s.refresh 1).toNat

/-- `output.current_mode().size`. -/
def outputSize (session : SessionContext) : Int × Int :=
  (session.resolution.1.toInt32.toInt, session.resolution.2.toInt32.toInt)

/-- The geometry of a window in the space, whose far corner has coordinates of
32 bits. -/
structure Geometry where
  x : Int
  y : Int
  w : Int
  h : Int
  fits : ∀ n ∈ [x + w, x + w - 1, y + h, y + h - 1], -2 ^ 31 ≤ n ∧ n < 2 ^ 31

/-- `f64::clamp`. -/
def clamp (v min max : ℚ) : Outcome ℚ :=
  if min ≤ max then
    let v := if v < min then min else v
    .ok (if max < v then max else v)
  else .panic

structure Bounds where
  minX : Int
  minY : Int
  maxX : Int
  maxY : Int

/-- The bounds with the geometry of the override window, if it has one. -/
def Bounds.expand (b : Bounds) : Option Geometry → Outcome Bounds
  | none => .ok b
  | some geo => do
    let maxX ← checkedI32 (geo.x + geo.w)
    let maxX ← checkedI32 (maxX - 1)
    let maxY ← checkedI32 (geo.y + geo.h)
    let maxY ← checkedI32 (maxY - 1)
    return ⟨min b.minX geo.x, min b.minY geo.y, max b.maxX maxX, max b.maxY maxY⟩

/-- `clamp_cursor`. -/
def clampCursor (session : SessionContext) (overrideWindow : Option Geometry) (cursor : ℚ × ℚ) :
    Outcome (ℚ × ℚ) := do
  let maxX ← checkedI32 ((outputSize session).1 - 1)
  let maxY ← checkedI32 ((outputSize session).2 - 1)
  let bounds ← Bounds.expand ⟨0, 0, maxX, maxY⟩ overrideWindow
  let cursorX ← clamp cursor.1 bounds.minX bounds.maxX
  let cursorY ← clamp cursor.2 bounds.minY bounds.maxY
  return (cursorX, cursorY)

/-- `normalized_pointer_location`; `saturating_sub` keeps to the range of `i32`. -/
def normalizedPointerLocation (session : SessionContext) (x y : ℚ) : Outcome (ℚ × ℚ) := do
  let maxX := max (max ((outputSize session).1 - 1) (-2 ^ 31)) 0
  let maxY := max (max ((outputSize session).2 - 1) (-2 ^ 31)) 0
  let x ← clamp x 0 1
  let y ← clamp y 0 1
  return (x * maxX, y * maxY)

inductive PointerEvent
  | mouseMoveAbsolute (x y screenWidth screenHeight : Int16)
  | mouseMoveRelative (dx dy : Int16)
  | pen (x y : ℚ)

/-- A coordinate of an absolute position, scaled to the output. -/
def scaled (v screen : Int16) (output : Int) : ℚ :=
  if 0 < screen.toInt then (v.toInt : ℚ) / screen.toInt * output else v.toInt

/-- The cursor after an event of `process_input`. -/
def processInput (session : SessionContext) (overrideWindow : Option Geometry) (cursor : ℚ × ℚ) :
    PointerEvent → Outcome (ℚ × ℚ)
  | .mouseMoveAbsolute x y screenWidth screenHeight =>
    clampCursor session overrideWindow
      (scaled x screenWidth (outputSize session).1, scaled y screenHeight (outputSize session).2)
  | .mouseMoveRelative dx dy =>
    clampCursor session overrideWindow (cursor.1 + dx.toInt, cursor.2 + dy.toInt)
  | .pen x y => normalizedPointerLocation session x y

/-- `Duration::from_secs_f64(1.0 / fps)` panics where the quotient is not finite. -/
def frameInterval (fps : UInt32) : Outcome ℚ := if fps = 0 then .panic else .ok (1 / (fps.toNat : ℚ))

/-- The pipeline thread up to its loop: `create_encoder`, which may fail, and the
start of `run_encoding_loop`, which spawns the consumer. -/
def runPipeline (cfg : Settings) (video : VideoStreamContext) (created : Bool) (s : State x) :
    Outcome (State x) := do
  let _ ← checkedDiv 1000 video.fps.toNat
  if created then
    let packetizer := (Packetizer.new x video.encryptVideo).warmUp cfg.fecPercentage video.minimumFecPackets
    let _ ← frameInterval video.fps
    return { (s.setPhase .videoPipeline .running).setPhase .packetConsumer .spawned with
      packetizer := ⟨packetizer, 0, []⟩ }
  else .err

/-- `run_packet_consumer` up to its loop. -/
def runPacketConsumer (video : VideoStreamContext) (s : State x) : Outcome (State x) := do
  let _ ← checkedDiv 1000000 video.fps.toNat
  return { s.setPhase .packetConsumer .running with frameNumber := 0 }

/-- A packet of the encoder. At 90 kHz its time stays below 2^64 for six million
years. -/
structure EncodedPacket (longestPacket : Nat) where
  pts : Nat
  data : List Byte
  isKeyFrame : Bool
  ticks : pts * 90000 < 2 ^ 64
  length_le : data.length ≤ longestPacket

/-- The consumer's body, from the packet on. A frame that cannot be packetized is
dropped. -/
def consumePacket (cfg : Settings) (session : SessionContext) (video : VideoStreamContext)
    (packet : EncodedPacket cfg.longestPacket) (latency : UInt16) (s : State x) : Outcome (State x) := do
  let ticks ← checkedMul 64 packet.pts 90000
  let _ ← checkedDiv ticks video.fps.toNat
  let frameNumber := s.frameNumber + 1
  let args := Pipeline.Config.args ⟨video, cfg.fecPercentage⟩ frameNumber packet.pts packet.data
    packet.isKeyFrame latency
  let (result, packetizer) := packetize session.keys args s.packetizer
  match result with
  | .panic => .panic
  | .ok _ | .err => return { s with frameNumber, packetizer }

def captureSampleRate : Nat := 48000

def defaultClockRateHz : Nat := 200

/-- `clock_rate_hz`. -/
def clockRateHz (packetDurationMs : UInt32) : Outcome Nat :=
  if packetDurationMs = 5 ∨ packetDurationMs = 10 then checkedDiv 1000 packetDurationMs.toNat
  else .ok defaultClockRateHz

/-- `PulseServer::spawn`. -/
def spawnPulseServer (audio : AudioStreamContext) (s : State x) : Outcome (State x) := do
  let clockRateHz ← clockRateHz audio.packetDurationMs
  let _ ← checkedDiv 1000000000 clockRateHz
  return { s.setPhase .pulseServer .running with clockRateHz }

/-- `num_frames` of `clock_tick`. -/
def numFrames (s : State x) : Outcome Nat := checkedDiv captureSampleRate s.clockRateHz

/-- `remote_input_key_id as u32`. -/
def keyIdU32 (keys : SessionKeyData) : UInt32 := keys.remoteInputKeyId.toUInt64.toUInt32

/-- The body of the loop of `AudioEncoderInner::run`, by whether the frame is
encoded and encrypted; otherwise it is passed over. -/
def encodeAudio (session : SessionContext) (audio : AudioStreamContext) (encoded encrypted : Bool)
    (s : State x) : Outcome (State x) :=
  if !encoded then return s
  else if audio.encryptAudio then do
    let _ ← checkedAdd 32 (keyIdU32 session.keys).toNat s.sequenceNumber.toNat
    return if encrypted then { s with sequenceNumber := s.sequenceNumber + 1 } else s
  else return { s with sequenceNumber := s.sequenceNumber + 1 }

inductive Action (cfg : Settings)
  | startCompositor (opens : Bool)
  | input (event : PointerEvent) (overrideWindow : Option Geometry)
  | render
  | announce
  | startPipeline (created : Bool)
  | startPacketConsumer
  | packet (packet : EncodedPacket cfg.longestPacket) (latency : UInt16)
  | startPulseServer
  | clockTick
  | startAudioEncoder
  | audioFrame (encoded encrypted : Bool)

/-- A step that needs the contexts of ANNOUNCE. -/
def State.withContexts (s : State x)
    (f : VideoStreamContext → AudioStreamContext → Option (State x)) : Option (State x) :=
  s.contexts.bind fun c => f c.1 c.2

def step (cfg : Settings) (session : SessionContext) (sdp : SdpSession) (s : State x) :
    Action cfg → Option (State x)
  | .startCompositor opens => s.run .compositor .idle (runCompositor session opens s)
  | .input event overrideWindow => s.run .compositor .running do
    let cursorPosition ← processInput session overrideWindow s.cursorPosition event
    return { s with cursorPosition }
  | .render => s.run .compositor .running do
    let _ ← refreshCycle s
    return s
  | .announce =>
    if s.ready then s.run .rtsp .idle do
      let contexts ←
        handleAnnounceRequest cfg.encrypt (some (session.audioChannels, session.audioChannelMask)) sdp
      return { s with contexts := some contexts }
    else none
  | .startPipeline created => s.withContexts fun video _ =>
    s.run .videoPipeline .idle (runPipeline cfg video created s)
  | .startPacketConsumer => s.withContexts fun video _ =>
    s.run .packetConsumer .spawned (runPacketConsumer video s)
  | .packet packet latency => s.withContexts fun video _ =>
    s.run .packetConsumer .running (consumePacket cfg session video packet latency s)
  | .startPulseServer => s.withContexts fun _ audio =>
    s.run .pulseServer .idle (spawnPulseServer audio s)
  | .clockTick => s.run .pulseServer .running do
    let _ ← numFrames s
    return s
  | .startAudioEncoder => s.withContexts fun _ _ =>
    s.run .audioEncoder .idle (.ok (s.setPhase .audioEncoder .running))
  | .audioFrame encoded encrypted => s.withContexts fun _ audio =>
    s.run .audioEncoder .running (encodeAudio session audio encoded encrypted s)

end Moonshine.Impl.Threads
