import Moonshine.Impl.Audio.PulseServer

/-!
# The receive loop, `session/stream/audio/pulse_server/mod.rs`

`PulseServer::recv` for one client: it reads the socket until that would block,
and after each read handles the messages that are complete. The reading of
descriptors and commands is the `pulseaudio` crate's and a parameter
(`Protocol`). The size of the buffer for a read only bounds how many bytes it
returns, and is left out; it is never zero, so no bytes mean the end of the file.
-/

namespace Moonshine.Impl.Audio

open Moonshine.Framework Moonshine.Impl

/-- `DESCRIPTOR_SIZE` of the `pulseaudio` crate. -/
def descriptorSize : Nat := 20

/-- `MAX_PAYLOAD_SIZE`. -/
def maxPayloadSize : Nat := 4 * 1024 * 1024

/-- The fields of a descriptor that are used. -/
structure Descriptor where
  length : UInt32
  channel : UInt32
  deriving DecidableEq, Repr

/-- What `read_tag_prefixed` makes of a payload. -/
inductive Decoded
  | unimplemented (seq : UInt32)
  | invalid
  | auth (seq : UInt32) (version : UInt16)
  | command (seq : UInt32) (cmd : Command)
  /-- A command that only reads or sets a volume. -/
  | other (seq : UInt32)

/-- The `pulseaudio` crate. -/
structure Protocol where
  maxVersion : UInt16
  readDescriptor : List Byte → Option Descriptor
  readTagPrefixed : List Byte → (version : UInt16) → Decoded

/-- What is appended to the outgoing buffer. -/
inductive Written
  | message (m : Message)
  | reply (seq : UInt32)
  deriving DecidableEq, Repr

/-- What `recv` works on: the server, and the client with its buffers. -/
structure Peer (r : Resampler) where
  server : ServerState
  client : Client r
  protocolVersion : UInt16
  incoming : List Byte
  outgoing : List Written

variable {r : Resampler}

def Peer.write (messages : List Message) (s : Peer r) : Peer r :=
  { s with outgoing := s.outgoing ++ messages.map .message }

/-- The front of the incoming buffer. -/
inductive NextMessage
  | incomplete
  /-- No descriptor, or one of too large a payload. -/
  | invalid
  | message (desc : Descriptor) (payload rest : List Byte)

def nextMessage (p : Protocol) (incoming : List Byte) : NextMessage :=
  if incoming.length < descriptorSize then .incomplete
  else match p.readDescriptor (incoming.take descriptorSize) with
    | none => .invalid
    | some desc =>
      if desc.length.toNat > maxPayloadSize then .invalid
      else if incoming.length < desc.length.toNat + descriptorSize then .incomplete
      else .message desc ((incoming.drop descriptorSize).take desc.length.toNat)
        ((incoming.drop descriptorSize).drop desc.length.toNat)

/-- A handled message: what comes of it, and what it leaves. -/
def handled (s : Peer r) : Outcome (ServerState × Client r × List Message) → Outcome Unit × Peer r
  | .ok (server, client, messages) => (.ok (), { s with server, client }.write messages)
  | .err => (.err, s)
  | .panic => (.panic, s)

/-- An error of a command is reported before it is returned. -/
def reported (seq : UInt32) : Outcome Unit × Peer r → Outcome Unit × Peer r
  | (.err, s) => (.err, s.write [.error seq])
  | handled => handled

/-- What `recv` does with what the payload of a command decodes to. -/
def handleDecoded (p : Protocol) (decoded : Decoded) : Prog (Peer r) Unit := fun s =>
  match decoded with
  | .unimplemented seq => (.ok (), s.write [.error seq])
  | .invalid => (.err, s)
  | .auth seq version =>
    (.ok (), { s with
      protocolVersion := min version p.maxVersion
      outgoing := s.outgoing ++ [.reply seq] })
  | .command seq cmd => reported seq (handled s (handleCommand seq cmd s.server s.client))
  | .other seq => (.ok (), { s with outgoing := s.outgoing ++ [.reply seq] })

/-- What `recv` does with a message. -/
def handleMessage (p : Protocol) (desc : Descriptor) (payload : List Byte) : Prog (Peer r) Unit := fun s =>
  if desc.channel = u32Max then handleDecoded p (p.readTagPrefixed payload s.protocolVersion) s
  else handled s (do
    let (client, messages) ← handleStreamWrite desc.channel payload s.client
    return (s.server, client, messages))

/-- The inner loop, to the message that is not complete. The first argument
bounds the number of messages. -/
def handleMessagesFrom (p : Protocol) : Nat → Prog (Peer r) Unit
  | 0 => pure ()
  | fuel + 1 => do
    match ← Prog.gets fun s => nextMessage p s.incoming with
    | .incomplete => return ()
    | .invalid => Prog.lift .err
    | .message desc payload rest => do
      Prog.modify fun s => { s with incoming := rest }
      handleMessage p desc payload
      handleMessagesFrom p fuel

/-- Every message takes bytes off the buffer. -/
def handleMessages (p : Protocol) : Prog (Peer r) Unit := fun s => handleMessagesFrom p s.incoming.length s

/-- What a read of the socket returns. -/
inductive ReadResult
  | data (bytes : List Byte)
  | wouldBlock
  | failed
  deriving DecidableEq, Repr

/-- How `recv` has ended, after how many reads, and what it left. Where it ended
in an error, `run` removes the client. -/
structure Returned (r : Resampler) where
  result : Outcome Unit
  reads : Nat
  peer : Peer r

/-- The outer loop, from the `i`th read on; the first number bounds the reads,
and where it is not enough `recv` has not returned. -/
def recvFrom (p : Protocol) (reads : Nat → ReadResult) : Nat → Nat → Peer r → Option (Returned r)
  | 0, _, _ => none
  | fuel + 1, i, s =>
    match reads i with
    | .wouldBlock => some ⟨.ok (), i + 1, s⟩
    | .failed => some ⟨.err, i + 1, s⟩
    | .data bytes =>
      match handleMessages p { s with incoming := s.incoming ++ bytes } with
      | (.ok _, s) => recvFrom p reads fuel (i + 1) s
      | (result, s) => some ⟨result, i + 1, s⟩

/-- `PulseServer::recv`, with `fuel` reads. -/
def recv (p : Protocol) (reads : Nat → ReadResult) (fuel : Nat) (s : Peer r) : Option (Returned r) :=
  recvFrom p reads fuel 0 s

end Moonshine.Impl.Audio
