import Moonshine.Framework.OrdMap
import Moonshine.Impl.Audio.Buffer

/-!
# The PulseAudio server, `session/stream/audio/pulse_server`

The clients of the server and their playback streams: the commands about them,
the writes, and the clock tick that mixes a frame and asks for more. The commands
that only read or that set a volume are left out, and so are the volumes.

Lengths in the attributes and in messages are `u32`; the counters of a stream
are numbers, `missing` a signed one. A step that panics takes the server down
and has no next state.
-/

namespace Moonshine.Impl.Audio

open Moonshine.Framework Moonshine.Impl

/-- `CAPTURE_SAMPLE_RATE`. -/
def captureSampleRate : Nat := 48000

structure BufferAttr where
  maxLength : UInt32
  targetLength : UInt32
  preBuffering : UInt32
  minimumRequestLength : UInt32
  deriving DecidableEq, Repr

/-- `u32::MAX`, the marker of a default. -/
def u32Max : UInt32 := 0xFFFFFFFF

/-- `next_multiple_of`, which wraps where it overflows. -/
def nextMultipleOf (a b : UInt32) : Outcome UInt32 :=
  if b = 0 then .panic
  else .ok (if a % b = 0 then a else a + (b - a % b))

/-- `len_10ms`. -/
def SampleSpec.len10ms (spec : SampleSpec) : UInt32 :=
  UInt32.ofNat (spec.frameSize * spec.sampleRate.toNat / 100)

def configureMaxLength (spec : SampleSpec) (maxLength : UInt32) : Outcome UInt32 :=
  if maxLength = u32Max then .ok (spec.len10ms * 20)
  else do
    return min (← nextMultipleOf maxLength (UInt32.ofNat spec.frameSize)) (spec.len10ms * 100)

def configureMinimumRequestLength (spec : SampleSpec) (minimumRequestLength : UInt32) : Outcome UInt32 :=
  if minimumRequestLength = u32Max then
    nextMultipleOf (spec.len10ms / 2) (UInt32.ofNat spec.frameSize)
  else do
    return max (← nextMultipleOf minimumRequestLength (UInt32.ofNat spec.frameSize)) (spec.len10ms / 2)

def configureTargetLength (spec : SampleSpec) (maxLength minimumRequestLength targetLength : UInt32) :
    Outcome UInt32 :=
  if targetLength = u32Max then do
    return min (← nextMultipleOf (spec.len10ms * 6) minimumRequestLength) maxLength
  else do
    let targetLength ← nextMultipleOf targetLength minimumRequestLength
    let targetLength := min (max targetLength (spec.len10ms * 6)) maxLength
    return if targetLength < minimumRequestLength * 2 then minimumRequestLength * 2 else targetLength

def configurePreBuffering (minimumRequestLength targetLength preBuffering : UInt32) : Outcome UInt32 :=
  if preBuffering = u32Max then .ok targetLength
  else do
    return min (← nextMultipleOf preBuffering minimumRequestLength) targetLength

def configureBuffer (spec : SampleSpec) (attr : BufferAttr) : Outcome BufferAttr := do
  let maxLength ← configureMaxLength spec attr.maxLength
  let minimumRequestLength ← configureMinimumRequestLength spec attr.minimumRequestLength
  let targetLength ← configureTargetLength spec maxLength minimumRequestLength attr.targetLength
  let preBuffering ← configurePreBuffering minimumRequestLength targetLength attr.preBuffering
  return { maxLength, targetLength, preBuffering, minimumRequestLength }

inductive StreamState
  | prebuffering (needed : Nat)
  | corked
  | playing
  | draining (seq : UInt32)
  deriving DecidableEq, Repr

structure PlaybackStream (r : Resampler) where
  streamIndex : UInt32
  state : StreamState
  bufferAttr : BufferAttr
  buffer : PlaybackBuffer r
  /-- Bytes consumed since the last REQUEST. -/
  missing : Int
  /-- Bytes requested and not yet received. -/
  requested : Nat
  playedBytes : Nat
  writeOffset : Nat
  readOffset : Nat

/-- What the server writes to a client about its streams. -/
inductive Message
  | ack (seq : UInt32)
  | error (seq : UInt32)
  | createReply (seq channel streamIndex : UInt32) (attr : BufferAttr) (requestedBytes : UInt32)
  | bufferAttrReply (seq : UInt32) (attr : BufferAttr)
  | request (channel length : UInt32)
  | started (channel : UInt32)
  | underflow (channel : UInt32)
  | overflow (length : UInt32)
  deriving DecidableEq, Repr

variable {r : Resampler}

def PlaybackStream.isPrebuffering (s : PlaybackStream r) : Bool :=
  match s.state with
  | .prebuffering _ => true
  | _ => false

/-- `pop_missing`: the demand, if it is worth a request, becomes credit. -/
def popMissing (inPrebuf : Bool) (s : PlaybackStream r) : Nat × PlaybackStream r :=
  if s.missing ≤ 0 then (0, s)
  else if s.missing.toNat < s.bufferAttr.minimumRequestLength.toNat ∧ !inPrebuf then (0, s)
  else (s.missing.toNat, { s with requested := s.requested + s.missing.toNat, missing := 0 })

/-- The drain phase: a stream that plays or drains gives a tick's frames to the
mix. The flag says that it has drained. -/
def drainPhase (numFrames : Nat) (channel : UInt32) (s : PlaybackStream r) :
    Outcome (PlaybackStream r × List Message × Option UInt32) :=
  match s.state with
  | .prebuffering _ | .corked => .ok (s, [], none)
  | state => do
    match ← s.buffer.drain numFrames with
    | none =>
      if s.bufferAttr.preBuffering > 0 ∧ state = .playing then
        return ({ s with
          state := .prebuffering s.bufferAttr.preBuffering.toNat
          missing := s.bufferAttr.preBuffering.toNat
          requested := 0 }, [.underflow channel], none)
      else return (s, [.underflow channel], none)
    | some buffer =>
      let readLen := s.buffer.lenBytes - buffer.lenBytes
      let done := match state with
        | .draining seq => if buffer.isEmpty then some seq else none
        | _ => none
      return ({ s with
        buffer
        readOffset := s.readOffset + readLen
        playedBytes := s.playedBytes + readLen
        missing := s.missing + readLen }, [], done)

/-- The request phase, which a draining stream sits out. -/
def requestPhase (channel : UInt32) (s : PlaybackStream r) : PlaybackStream r × List Message :=
  match s.state with
  | .draining _ => (s, [])
  | _ =>
    let (length, s) := popMissing s.isPrebuffering s
    (s, if length > 0 then [.request channel (UInt32.ofNat length)] else [])

/-- What a tick makes of a stream. -/
structure Ticked (r : Resampler) where
  stream : PlaybackStream r
  messages : List Message
  done : Option UInt32

def tickStream (numFrames : Nat) (channel : UInt32) (s : PlaybackStream r) : Outcome (Ticked r) := do
  let (s, drained, done) ← drainPhase numFrames channel s
  let (stream, requests) := requestPhase channel s
  return { stream, messages := drained ++ requests, done }

structure Client (r : Resampler) where
  playbackStreams : OrdMap UInt32 (PlaybackStream r)

/-- The part of `clock_tick` about one client: a stream that has drained is
removed and its drain acknowledged. -/
def clockTick (numFrames : Nat) (c : Client r) : Outcome (Client r × List Message) := do
  let ticked ← c.playbackStreams.mapM (tickStream numFrames)
  let playbackStreams := ticked.filterMap fun t => if t.done.isSome then none else some t.stream
  let messages := ticked.entries.flatMap fun e => e.2.messages
  let acks := ticked.entries.filterMap fun e => e.2.done.map .ack
  return ({ playbackStreams }, messages ++ acks)

structure ServerState where
  captureSpec : SampleSpec
  clockRateHz : Nat
  nextPlaybackChannelIndex : UInt32
  nextStreamIndex : UInt32

/-- A `ChannelVolume`, the volume of each channel. -/
abbrev ChannelVolume := List UInt32

/-- `ChannelVolume::norm`, which has room for 32 channels. -/
def ChannelVolume.norm (channels : UInt8) : Outcome ChannelVolume :=
  if 32 < channels.toNat then .panic else .ok (List.replicate channels.toNat 0x10000)

/-- The parameters of `CreatePlaybackStream`; `formats` are those of the offered
formats that can be read. -/
structure CreateParams where
  sampleSpec : SampleSpec
  formats : List SampleSpec
  fixChannels : Bool
  startCorked : Bool
  bufferAttr : BufferAttr
  cvolume : Option ChannelVolume

inductive Command
  | createPlaybackStream (params : CreateParams)
  | drainPlaybackStream (channel : UInt32)
  | corkPlaybackStream (channel : UInt32) (cork : Bool)
  | flushPlaybackStream (channel : UInt32)
  | deletePlaybackStream (channel : UInt32)
  | triggerPlaybackStream (channel : UInt32)
  | prebufPlaybackStream (channel : UInt32)
  | setPlaybackStreamBufferAttr (index : UInt32) (attr : BufferAttr)

/-- The spec a stream is created with. -/
def CreateParams.streamSpec (params : CreateParams) (server : ServerState) : SampleSpec :=
  let spec := if params.sampleSpec.format = .invalid then
      params.formats.head?.getD params.sampleSpec
    else params.sampleSpec
  if params.fixChannels then { spec with channels := server.captureSpec.channels } else spec

/-- `cvolume` of a stream. -/
def CreateParams.streamVolume (params : CreateParams) (server : ServerState) : Outcome ChannelVolume :=
  match params.cvolume with
  | some cvolume => .ok cvolume
  | none => ChannelVolume.norm (params.streamSpec server).channels

/-- A stream as `CreatePlaybackStream` makes it. What comes of its volume is not kept: it
only scales samples. -/
def newStream (params : CreateParams) (server : ServerState) : Outcome (PlaybackStream r) := do
  let spec := params.streamSpec server
  let bufferAttr ← configureBuffer spec params.bufferAttr
  let _ ← params.streamVolume server
  let buffer ← PlaybackBuffer.new spec server.captureSpec
  return {
    streamIndex := server.nextStreamIndex
    state := if bufferAttr.preBuffering = 0 ∨ params.startCorked then .corked
      else .prebuffering bufferAttr.preBuffering.toNat
    bufferAttr
    buffer
    missing := bufferAttr.targetLength.toNat
    requested := 0
    playedBytes := 0
    writeOffset := 0
    readOffset := 0 }

/-- The stream, the server and the reply after `CreatePlaybackStream`. -/
def createPlaybackStream (seq : UInt32) (params : CreateParams) (server : ServerState) (c : Client r) :
    Outcome (ServerState × Client r × List Message) :=
  if !(params.streamSpec server).format.isSupported then .ok (server, c, [.error seq])
  else do
    let stream ← newStream params server
    let (initialReq, stream) := popMissing stream.isPrebuffering stream
    let channel := server.nextPlaybackChannelIndex
    return ({ server with
        nextPlaybackChannelIndex := channel + 1
        nextStreamIndex := server.nextStreamIndex + 1 },
      { c with playbackStreams := c.playbackStreams.insert channel stream },
      [.createReply seq channel stream.streamIndex stream.bufferAttr (UInt32.ofNat initialReq)])

/-- Uncorking: prebuffering starts over, with a request at once. -/
def uncork (channel : UInt32) (s : PlaybackStream r) : PlaybackStream r × List Message :=
  match s.state with
  | .corked =>
    let s := { s with
      missing := (s.bufferAttr.targetLength.toNat - s.buffer.lenBytes : Nat)
      requested := 0 }
    let (req, s) := popMissing true s
    if req > 0 then
      ({ s with state := .prebuffering req }, [.request channel (UInt32.ofNat req)])
    else ({ s with state := .playing }, [])
  | _ => (s, [])

def cork (s : PlaybackStream r) : PlaybackStream r :=
  match s.state with
  | .playing | .prebuffering _ => { s with state := .corked }
  | _ => s

def flush (s : PlaybackStream r) : PlaybackStream r :=
  { s with
    buffer := s.buffer.clear
    missing := s.bufferAttr.targetLength.toNat
    requested := 0
    playedBytes := 0
    readOffset := s.writeOffset }

def trigger (s : PlaybackStream r) : PlaybackStream r :=
  match s.state with
  | .prebuffering _ => { s with state := .playing }
  | _ => s

def prebuf (s : PlaybackStream r) : PlaybackStream r :=
  match s.state with
  | .playing =>
    { s with
      state := .prebuffering s.bufferAttr.preBuffering.toNat
      missing := s.bufferAttr.preBuffering.toNat
      requested := 0 }
  | _ => s

def setBufferAttr (attr : BufferAttr) (s : PlaybackStream r) : Outcome (PlaybackStream r) := do
  let bufferAttr ← configureBuffer s.buffer.buffer.sampleSpec attr
  return { s with
    bufferAttr
    missing := (bufferAttr.targetLength.toNat - (s.buffer.lenBytes + s.requested) : Nat) }

/-- `handle_command`. -/
def handleCommand (seq : UInt32) (cmd : Command) (server : ServerState) (c : Client r) :
    Outcome (ServerState × Client r × List Message) :=
  match cmd with
  | .createPlaybackStream params => createPlaybackStream seq params server c
  | .drainPlaybackStream channel =>
    match c.playbackStreams.get? channel with
    | some _ =>
      .ok (server, { c with playbackStreams :=
        c.playbackStreams.modify channel fun s => { s with state := .draining seq } }, [])
    | none => .ok (server, c, [.error seq])
  | .corkPlaybackStream channel true =>
    .ok (server, { c with playbackStreams := c.playbackStreams.modify channel cork }, [.ack seq])
  | .corkPlaybackStream channel false =>
    match c.playbackStreams.get? channel with
    | some s =>
      .ok (server, { c with playbackStreams :=
        c.playbackStreams.modify channel fun _ => (uncork channel s).1 },
        (uncork channel s).2 ++ [.ack seq])
    | none => .ok (server, c, [.ack seq])
  | .flushPlaybackStream channel =>
    .ok (server, { c with playbackStreams := c.playbackStreams.modify channel flush }, [.ack seq])
  | .deletePlaybackStream channel =>
    .ok (server, { c with playbackStreams := c.playbackStreams.erase channel }, [.ack seq])
  | .triggerPlaybackStream channel =>
    .ok (server, { c with playbackStreams := c.playbackStreams.modify channel trigger }, [.ack seq])
  | .prebufPlaybackStream channel =>
    .ok (server, { c with playbackStreams := c.playbackStreams.modify channel prebuf }, [.ack seq])
  | .setPlaybackStreamBufferAttr index attr =>
    match c.playbackStreams.get? index with
    | some s => do
      let s ← setBufferAttr attr s
      return (server, { c with playbackStreams := c.playbackStreams.modify index fun _ => s },
        [.bufferAttrReply seq s.bufferAttr])
    | none => .ok (server, c, [.error seq])

/-- `handle_stream_write`, on the stream of the channel. -/
def writeStream (channel : UInt32) (payload : List Byte) (s : PlaybackStream r) :
    PlaybackStream r × List Message :=
  let remaining := s.bufferAttr.maxLength.toNat - s.buffer.lenBytes
  let overflow : List Message :=
    if payload.length > remaining then [.overflow (UInt32.ofNat (payload.length - remaining))] else []
  let payload := payload.take remaining
  let (state, started) : StreamState × List Message := match s.state with
    | .prebuffering n =>
      if n - payload.length > 0 then (.prebuffering (n - payload.length), [])
      else (.playing, [.started channel])
    | state => (state, [])
  ({ s with
    state
    buffer := s.buffer.write payload
    requested := s.requested - payload.length
    writeOffset := s.writeOffset + payload.length }, overflow ++ started)

/-- `handle_stream_write`: an unknown channel is an error, which drops the
client. -/
def handleStreamWrite (channel : UInt32) (payload : List Byte) (c : Client r) :
    Outcome (Client r × List Message) :=
  match c.playbackStreams.get? channel with
  | some s =>
    .ok ({ c with playbackStreams := c.playbackStreams.modify channel fun _ =>
      (writeStream channel payload s).1 }, (writeStream channel payload s).2)
  | none => .err

/-- What a client sends, as `recv` reads it. -/
inductive Packet
  | command (seq : UInt32) (cmd : Command)
  | write (channel : UInt32) (payload : List Byte)

/-- What the server does about a client. -/
inductive Event
  | packet (p : Packet)
  | tick

/-- `num_frames`. -/
def ServerState.numFrames (server : ServerState) : Nat := captureSampleRate / server.clockRateHz

/-- What an event does to its client, and what is written to it. -/
def perform (e : Event) (server : ServerState) (c : Client r) :
    Outcome (ServerState × Client r × List Message) :=
  match e with
  | .packet (.command seq cmd) => handleCommand seq cmd server c
  | .packet (.write channel payload) => do
    let (c, messages) ← handleStreamWrite channel payload c
    return (server, c, messages)
  | .tick => do
    let (c, messages) ← clockTick server.numFrames c
    return (server, c, messages)

/-- An event of the client with the token, and what was written to it. -/
structure Entry where
  token : Nat
  event : Event
  messages : List Message

/-- The server and its clients, with the record of what it did about them. -/
structure World (r : Resampler) where
  server : ServerState
  clients : OrdMap Nat (Client r)
  nextClientToken : Nat
  log : List Entry

def World.start (captureSpec : SampleSpec) (clockRateHz : Nat) : World r :=
  ⟨⟨captureSpec, clockRateHz, 0, 0⟩, OrdMap.empty, 1024, []⟩

inductive Action
  | connect
  /-- A client closes its socket, or the server gives up on it. -/
  | disconnect (token : Nat)
  | recv (token : Nat) (p : Packet)
  | clockTick

/-- An error about what a client sent drops the client. -/
def step (w : World r) (act : Action) : Option (World r) :=
  match act with
  | .connect => some { w with
      clients := w.clients.insert w.nextClientToken ⟨OrdMap.empty⟩
      nextClientToken := w.nextClientToken + 1 }
  | .disconnect token => some { w with clients := w.clients.erase token }
  | .recv token p => (w.clients.get? token).bind fun c =>
    match perform (.packet p) w.server c with
    | .ok (server, c, messages) => some { w with
        server
        clients := w.clients.modify token fun _ => c
        log := w.log ++ [⟨token, .packet p, messages⟩] }
    | .err => some { w with clients := w.clients.erase token }
    | .panic => none
  | .clockTick =>
    match w.clients.mapM fun _ c => perform .tick w.server c with
    | .ok ticked => some { w with
        clients := ticked.filterMap fun t => some t.2.1
        log := w.log ++ ticked.entries.map fun e => ⟨e.1, .tick, e.2.2.2⟩ }
    | _ => none

end Moonshine.Impl.Audio
