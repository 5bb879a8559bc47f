import Moonshine.Framework.Chunks
import Moonshine.Impl.Video.ShardBatch

/-!
# The video socket, `session/stream/video/gso_socket.rs`

What the calls of `try_send` end in is a list that the socket works off; where
it is used up, the future is still waiting for the socket. What `send_to` ends
in only goes to the log.
-/

namespace Moonshine.Impl.UdpGsoSocket

open Moonshine.Framework

/-- `MAX_UDP_PAYLOAD`. -/
def maxUdpPayload : Nat := 65507

/-- `max_gso_segments.min(MAX_UDP_PAYLOAD.checked_div(shard_size).unwrap_or(0)).max(1)`. -/
def gsoSegmentsPerSend (maxGsoSegments shardSize : Nat) : Nat :=
  max (min maxGsoSegments (if shardSize = 0 then 0 else maxUdpPayload / shardSize)) 1

/-- What a call of `try_send` ends in. Of an error the kernel has sent nothing. -/
inductive TrySend
  | sent | wouldBlock | failed
  deriving DecidableEq, Repr

/-- What the socket is handed: a GSO send that is taken, or one packet. -/
inductive Handed
  | gso (contents : List Byte) (segmentSize : Nat)
  | packet (contents : List Byte)
  deriving DecidableEq, Repr

/-- The datagrams that leave: the kernel cuts a GSO send at the segment size. -/
def Handed.datagrams : Handed → List (List Byte)
  | gso contents segmentSize => chunks segmentSize contents
  | packet contents => [contents]

/-- How far a send is: what was handed to the socket, `failed_chunks`, the
results left, and whether the call has returned. -/
structure Progress where
  handed : List Handed
  failedChunks : UInt32
  results : List TrySend
  returned : Bool
  deriving DecidableEq, Repr

/-- The loop around `try_send`: the first result other than `WouldBlock`, and
the results after it. -/
def trySend : List TrySend → Option (TrySend × List TrySend)
  | [] => none
  | .wouldBlock :: results => trySend results
  | result :: results => some (result, results)

/-- `send_shards`. -/
def sendShards (bytes : List Byte) (shardSize : Nat) : List Handed :=
  if shardSize = 0 then [] else (chunks shardSize bytes).map .packet

/-- The loop over the chunks. -/
def sendChunks (shardSize : Nat) : List (List Byte) → Progress → Progress
  | [], p => { p with returned := true }
  | chunk :: rest, p =>
    match trySend p.results with
    | none => { p with results := [] }
    | some (.failed, results) =>
      sendChunks shardSize rest
        { p with failedChunks := p.failedChunks + 1, handed := p.handed ++ sendShards chunk shardSize, results }
    | some (_, results) =>
      sendChunks shardSize rest { p with handed := p.handed ++ [.gso chunk shardSize], results }

/-- The chunks of a batch. -/
def gsoChunks (maxGsoSegments : Nat) (batch : ShardBatch) : List (List Byte) :=
  chunks (gsoSegmentsPerSend maxGsoSegments batch.shardSize * batch.shardSize) batch.data

/-- `send_batch_gso`. -/
def sendBatchGso (maxGsoSegments : Nat) (batch : ShardBatch) (results : List TrySend) : Progress :=
  if batch.shardSize = 0 then ⟨[], 0, results, true⟩
  else sendChunks batch.shardSize (gsoChunks maxGsoSegments batch) ⟨[], 0, results, false⟩

/-- `send_batch`, under the segment limit of the kernel at the time. -/
def sendBatch (maxGsoSegments : Nat) (batch : ShardBatch) (results : List TrySend) : Progress :=
  if maxGsoSegments > 1 then sendBatchGso maxGsoSegments batch results
  else ⟨sendShards batch.data batch.shardSize, 0, results, true⟩

end Moonshine.Impl.UdpGsoSocket
