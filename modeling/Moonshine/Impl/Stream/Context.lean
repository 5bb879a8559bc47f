import Mathlib.Data.UInt

/-!
# What a client negotiates: stream contexts and session keys

`VideoStreamContext`, `AudioStreamContext` and `SessionKeyData`, as the RTSP
ANNOUNCE and the `/launch` and `/resume` requests fill them in.
-/

namespace Moonshine.Impl

abbrev Byte := UInt8

inductive VideoFormat
  | h264 | hevc | av1
  deriving DecidableEq, Repr, Inhabited

inductive VideoDynamicRange
  | sdr | hdr
  deriving DecidableEq, Repr, Inhabited

inductive VideoChromaSampling
  | yuv420 | yuv444
  deriving DecidableEq, Repr, Inhabited

structure VideoStreamContext where
  width : UInt32
  height : UInt32
  fps : UInt32
  /-- A `usize`. -/
  packetSize : Nat
  /-- A `usize`. -/
  bitrate : Nat
  minimumFecPackets : UInt32
  qos : Bool
  videoFormat : VideoFormat
  dynamicRange : VideoDynamicRange
  chromaSamplingType : VideoChromaSampling
  maxReferenceFrames : UInt32
  fullRange : Bool
  encryptVideo : Bool
  deriving DecidableEq, Repr, Inhabited

inductive AudioChannels
  | stereo | surround51 | surround71
  deriving DecidableEq, Repr, Inhabited

structure OpusStreamConfig where
  channels : AudioChannels
  streams : UInt8
  coupledStreams : UInt8
  mapping : List UInt8
  bitrate : UInt32
  deriving DecidableEq, Repr, Inhabited

structure AudioConfig where
  channels : AudioChannels
  channelMask : UInt32
  highQuality : Bool
  streamConfig : OpusStreamConfig
  deriving DecidableEq, Repr, Inhabited

structure AudioStreamContext where
  packetDurationMs : UInt32
  qos : Bool
  audioConfig : AudioConfig
  encryptAudio : Bool
  deriving DecidableEq, Repr, Inhabited

/-- `SessionKeyData`: the AES key as the client sent it (any length) and the
`i64` it names it by. -/
structure SessionKeyData where
  remoteInputKey : List Byte
  remoteInputKeyId : Int64
  deriving DecidableEq, Repr, Inhabited

end Moonshine.Impl
