import Moonshine.Impl.Video.Packetizer

/-!
# The encode loop and the packet consumer, `session/stream/video/pipeline/mod.rs`

The two run side by side, joined by a bounded channel of messages and by the
count of frames in flight. A step is what one of them does between two points
where the other can get in; what comes from outside (captured frames, requests,
what the encoder and the GPU make of a frame) is chosen by the action.

Only the counters, the requests and the messages are here, not the colours and
the timings. The `u64` counters of the encode loop are natural numbers, the
consumer's frame number is a `u32` and wraps. `History` is a record for
statements; no step reads it.
-/

namespace Moonshine.Impl.Pipeline

open Moonshine.Framework Moonshine.Impl Moonshine.Impl.Packetizer

/-- `MAX_FRAMES_IN_FLIGHT`. -/
def maxFramesInFlight : Nat := 3

/-- The capacity of the message channel. -/
def channelCapacity : Nat := maxFramesInFlight + 2

/-- What is fixed for the pipeline. -/
structure Config where
  context : VideoStreamContext
  fecPercentage : Byte

/-- `ConsumerMessage`: the future of a frame resolves to a packet with the
frame's display order. -/
inductive ConsumerMessage
  | resetCounters
  | frame (displayOrder : Nat)
  deriving DecidableEq, Repr

/-- What the future of a frame resolves to. -/
inductive ReadBack
  | packet (data : List Byte) (isKeyFrame : Bool)
  | bufferOverflow
  | failed

/-- The locals of `run_packet_consumer`; the sequence number is part of the
packetizer's state. -/
structure Consumer (x : Crates) where
  frameNumber : UInt32
  packetizer : Packetizer.State x
  /-- The frame whose future it waits for. -/
  processing : Option Nat
  running : Bool
  sent : List ShardBatch

variable {x : Crates}

def Consumer.resetCounters (c : Consumer x) : Consumer x :=
  { c with frameNumber := 0, packetizer := { c.packetizer with sequenceNumber := 0 } }

/-- The arguments of `packetize` for the packet of a frame. -/
def Config.args (cfg : Config) (frameNumber : UInt32) (displayOrder : Nat) (data : List Byte)
    (isKeyFrame : Bool) (latency : UInt16) : Args where
  encodedData := data
  isKeyFrame := isKeyFrame
  requestedPacketSize := cfg.context.packetSize
  minimumFecPackets := cfg.context.minimumFecPackets
  fecPercentage := cfg.fecPercentage
  frameNumber := frameNumber
  rtpTimestamp := UInt32.ofNat (displayOrder * 90000 / cfg.context.fps.toNat)
  frameProcessingLatency := latency

/-- What the consumer does with a packet. It ends when the network is gone. -/
def Consumer.sendPacket (cfg : Config) (keys : SessionKeyData) (displayOrder : Nat)
    (data : List Byte) (isKeyFrame : Bool) (latency : UInt16) (networkOpen : Bool)
    (c : Consumer x) : Consumer x :=
  let frameNumber := c.frameNumber + 1
  let args := cfg.args frameNumber displayOrder data isKeyFrame latency
  match packetize keys args c.packetizer with
  | (.ok shards, packetizer) =>
    { c with frameNumber, packetizer, running := networkOpen,
             sent := if networkOpen then c.sent ++ [shards] else c.sent }
  | (.err, packetizer) => { c with frameNumber, packetizer }
  | (.panic, packetizer) => { c with frameNumber, packetizer, running := false }

/-- Where the loop is in its body. -/
inductive Phase
  | resets | idrRequests | invalidations | receive | stopped
  deriving DecidableEq, Repr

/-- The locals of the loop. -/
structure EncodeLoop where
  phase : Phase
  /-- The message in `blocking_send`, and whether the loop ends if it fails. -/
  outbox : Option (ConsumerMessage × Bool)
  pendingIdr : Bool
  hasEncoded : Bool
  submittedCount : Nat
  frameNumberBase : Nat

inductive EncoderCall
  | requestIdr
  | invalidateReferenceFrames (displayOrder : Nat)
  deriving DecidableEq, Repr

/-- The encoder: its display order grows by one with every frame it takes. -/
structure Encoder where
  displayOrder : Nat
  calls : List EncoderCall

/-- A request to invalidate from a frame index on, in which epoch it came, and
the display order it was taken for. -/
structure Invalidation where
  epoch : Nat
  index : UInt32
  displayOrder : Nat

/-- A frame index the consumer gave out. -/
structure Stamp where
  epoch : Nat
  index : UInt32
  displayOrder : Nat

/-- An epoch ends with a reset: for the loop when it sends one, for the consumer
when it takes it. -/
structure History where
  epoch : Nat
  consumerEpoch : Nat
  invalidations : List Invalidation
  stamps : List Stamp
  /-- The epochs of the frames that were not read back. -/
  readBackFailures : List Nat

structure State (x : Crates) where
  loop : EncodeLoop
  encoder : Encoder
  inFlight : Nat
  queue : List ConsumerMessage
  consumer : Consumer x
  history : History

def State.start (x : Crates) (cfg : Config) : State x where
  loop := ⟨.resets, none, false, false, 0, 0⟩
  encoder := ⟨0, []⟩
  inFlight := 0
  queue := []
  consumer :=
    { frameNumber := 0
      packetizer :=
        ⟨(Packetizer.new x cfg.context.encryptVideo).warmUp cfg.fecPercentage
          cfg.context.minimumFecPackets, 0, []⟩
      processing := none
      running := true
      sent := [] }
  history := ⟨0, 0, [], [], []⟩

def Encoder.call (e : Encoder) (c : EncoderCall) : Encoder := { e with calls := e.calls ++ [c] }

/-- `encoder.request_idr(); pending_idr = true;`. -/
def requestIdr (s : State x) : State x :=
  { s with encoder := s.encoder.call .requestIdr, loop := { s.loop with pendingIdr := true } }

def goto (phase : Phase) (s : State x) : State x := { s with loop := { s.loop with phase } }

/-- The reset requests: if there are any, the consumer is told, and the next
frame submitted is the first of the new epoch. -/
def drainResets (pending : Bool) (s : State x) : State x :=
  let s := { s with loop := { s.loop with pendingIdr := false } }
  if pending then
    requestIdr { s with
      loop := { s.loop with
        outbox := some (.resetCounters, false)
        frameNumberBase := s.loop.submittedCount }
      history := { s.history with epoch := s.history.epoch + 1 } }
  else s

/-- A request to invalidate, or the note that some were missed. -/
def invalidate (s : State x) : Option (UInt32 × UInt32) → State x
  | some (first, _) =>
    let displayOrder := s.loop.frameNumberBase + (max first.toNat 1 - 1)
    { s with
      encoder := s.encoder.call (.invalidateReferenceFrames displayOrder)
      history := { s.history with
        invalidations := s.history.invalidations ++ [⟨s.history.epoch, first, displayOrder⟩] } }
  | none => requestIdr s

/-- What follows a successful `encode`: the frame is counted and sent. -/
def submit (stopOnError : Bool) (s : State x) : State x :=
  { s with
    encoder := { s.encoder with displayOrder := s.encoder.displayOrder + 1 }
    inFlight := s.inFlight + 1
    loop := { s.loop with
      submittedCount := s.loop.submittedCount + 1
      outbox := some (.frame s.encoder.displayOrder, stopOnError) } }

/-- How far a captured frame gets. -/
inductive Captured
  /-- Importing or converting it fails. -/
  | skipped
  /-- The device is lost, or the colour description cannot be changed. -/
  | fatal
  | encodeFailed
  | encoded
  deriving DecidableEq, Repr

inductive Received
  /-- No frame in time: a pending IDR re-encodes the last one, if the encoder
  takes it. -/
  | timeout (encoded : Bool)
  | disconnected
  | frame (captured : Captured)
  deriving DecidableEq, Repr

/-- The frame, or the timeout, at the end of the body. -/
def receive (s : State x) : Received → State x
  | .timeout encoded =>
    goto .resets (if s.loop.pendingIdr && s.loop.hasEncoded && encoded then submit false s else s)
  | .disconnected => goto .stopped s
  | .frame captured =>
    if s.inFlight ≥ maxFramesInFlight then goto .resets s
    else match captured with
      | .skipped => goto .resets s
      | .fatal => goto .stopped s
      | .encodeFailed => goto .resets { s with loop := { s.loop with hasEncoded := true } }
      | .encoded => goto .resets (submit true { s with loop := { s.loop with hasEncoded := true } })

/-- `blocking_send`: it waits for room, and fails once the consumer is gone. -/
def send (s : State x) : Option (State x) :=
  match s.loop.outbox with
  | none => none
  | some (m, stopOnError) =>
    let sent := { s with loop := { s.loop with outbox := none } }
    if s.consumer.running = false then some (if stopOnError then goto .stopped sent else sent)
    else if s.queue.length < channelCapacity then some { sent with queue := s.queue ++ [m] }
    else none

/-- `ctx_rx.recv()`. -/
def take (s : State x) : Option (State x) :=
  match s.consumer.running, s.consumer.processing, s.queue with
  | true, none, .resetCounters :: queue =>
    some { s with
      queue
      consumer := s.consumer.resetCounters
      history := { s.history with consumerEpoch := s.history.consumerEpoch + 1 } }
  | true, none, .frame displayOrder :: queue =>
    some { s with queue, consumer := { s.consumer with processing := some displayOrder } }
  | _, _, _ => none

/-- The rest of the consumer's body, from the future on; whatever happens, the
frame is no longer in flight. -/
def finish (cfg : Config) (readBack : ReadBack) (keys : SessionKeyData) (latency : UInt16)
    (networkOpen : Bool) (s : State x) : Option (State x) :=
  match s.consumer.running, s.consumer.processing with
  | true, some displayOrder =>
    let done := { s with
      inFlight := s.inFlight - 1
      consumer := { s.consumer with processing := none } }
    match readBack with
    | .packet data isKeyFrame =>
      some { done with
        consumer := done.consumer.sendPacket cfg keys displayOrder data isKeyFrame latency networkOpen
        history := { s.history with
          stamps := s.history.stamps ++
            [⟨s.history.consumerEpoch, s.consumer.frameNumber + 1, displayOrder⟩] } }
    | _ =>
      some { done with
        history := { s.history with
          readBackFailures := s.history.readBackFailures ++ [s.history.consumerEpoch] } }
  | _, _ => none

inductive Action
  | shutdown
  | drainResets (pending : Bool)
  | drainIdrRequests (pending : Bool)
  | drainInvalidations (requests : List (Option (UInt32 × UInt32)))
  | receive (received : Received)
  | send
  | take
  | finish (readBack : ReadBack) (keys : SessionKeyData) (latency : UInt16) (networkOpen : Bool)

/-- The loop goes on only when nothing is waiting to be sent. -/
def atPhase (phase : Phase) (s : State x) (next : State x) : Option (State x) :=
  if s.loop.phase = phase ∧ s.loop.outbox = none then some next else none

def step (cfg : Config) (s : State x) : Action → Option (State x)
  | .shutdown => atPhase .resets s (goto .stopped s)
  | .drainResets pending => atPhase .resets s (goto .idrRequests (drainResets pending s))
  | .drainIdrRequests pending =>
    atPhase .idrRequests s (goto .invalidations (if pending then requestIdr s else s))
  | .drainInvalidations requests =>
    atPhase .invalidations s (goto .receive (requests.foldl invalidate s))
  | .receive received => atPhase .receive s (receive s received)
  | .send => send s
  | .take => take s
  | .finish readBack keys latency networkOpen => finish cfg readBack keys latency networkOpen s

end Moonshine.Impl.Pipeline
