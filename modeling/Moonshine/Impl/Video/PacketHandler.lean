import Moonshine.Impl.Video.GsoSocket
import Moonshine.Impl.Video.Pipeline

/-!
# The video packet handler, `session/stream/video/mod.rs`

`spawn_handle_video_packets`, past the gate, and the packet consumer that feeds it through a
channel of batches. What the two do between two points where the other can get in is a step.
`enqueued` is a record for statements; no step reads it.
-/

namespace Moonshine.Impl.PacketHandler

open Moonshine.Framework Moonshine.Impl.Packetizer Moonshine.Impl.Pipeline Moonshine.Impl.UdpGsoSocket

/-- The capacity of the channel. -/
def packetCapacity : Nat := 128

/-- `b"PING"`. -/
def ping : List Byte := [0x50, 0x49, 0x4E, 0x47]

/-- A frame whose batch has gone into the channel. -/
structure Enqueued where
  args : Args
  /-- The cipher its shards are encrypted with. -/
  cipher : Option (List Byte)
  batch : ShardBatch

/-- `Addr` is `SocketAddr`. -/
structure World (x : Crates) (Addr : Type) where
  consumer : Consumer x
  queue : List ShardBatch
  clientAddress : Option Addr
  /-- The datagrams that have left, each with where it went. -/
  sent : List (Addr × List Byte)
  /-- The handler has not come to its end. -/
  running : Bool
  enqueued : List Enqueued

inductive Action (Addr : Type)
  | resetCounters
  /-- The consumer has the packet of a frame. -/
  | packet (displayOrder : Nat) (data : List Byte) (isKeyFrame : Bool) (keys : SessionKeyData) (latency : UInt16)
  /-- The handler takes a batch, with what becomes of its sends. -/
  | batch (maxGsoSegments : Nat) (results : List TrySend)
  | message (address : Addr) (contents : List Byte)
  /-- Shutdown, a closed channel or an error of the socket. -/
  | stop

variable {x : Crates} {Addr : Type}

namespace World

def start (consumer : Consumer x) : World x Addr := ⟨consumer, [], none, [], true, []⟩

/-- `send_packet` of the consumer, and its `blocking_send` into the channel. -/
def packet (cfg : Config) (displayOrder : Nat) (data : List Byte) (isKeyFrame : Bool) (keys : SessionKeyData)
    (latency : UInt16) (w : World x Addr) : World x Addr :=
  let consumer := w.consumer.sendPacket cfg keys displayOrder data isKeyFrame latency w.running
  let batches := consumer.sent.drop w.consumer.sent.length
  let args := cfg.args (w.consumer.frameNumber + 1) displayOrder data isKeyFrame latency
  { w with
    consumer
    queue := w.queue ++ batches
    enqueued := w.enqueued ++ batches.map fun batch => ⟨args, consumer.packetizer.packetizer.cipher, batch⟩ }

/-- The arm of a batch. `wrap_cancel` ends a send that does not return. -/
def sendBatch (maxGsoSegments : Nat) (results : List TrySend) (batch : ShardBatch) (w : World x Addr) :
    World x Addr :=
  match w.clientAddress with
  | some address =>
    if batch.shardCount = 0 then w
    else
      let progress := UdpGsoSocket.sendBatch maxGsoSegments batch results
      { w with
        sent := w.sent ++ (progress.handed.flatMap Handed.datagrams).map fun datagram => (address, datagram)
        running := progress.returned }
  | none => w

end World

def step (cfg : Config) (w : World x Addr) : Action Addr → Option (World x Addr)
  | .resetCounters => if w.consumer.running then some { w with consumer := w.consumer.resetCounters } else none
  | .packet displayOrder data isKeyFrame keys latency =>
    if w.consumer.running ∧ (w.running → w.queue.length < packetCapacity) then
      some (w.packet cfg displayOrder data isKeyFrame keys latency)
    else none
  | .batch maxGsoSegments results =>
    match w.running, w.queue with
    | true, batch :: queue => some ({ w with queue }.sendBatch maxGsoSegments results batch)
    | _, _ => none
  | .message address contents =>
    if w.running then some (if contents = ping then { w with clientAddress := some address } else w) else none
  | .stop => some { w with running := false }

end Moonshine.Impl.PacketHandler
