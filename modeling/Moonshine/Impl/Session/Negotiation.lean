import Moonshine.Framework.Integers
import Moonshine.Impl.Stream.Context

/-!
# Negotiation, `webserver/mod.rs` and `rtsp.rs`

What `launch` and `resume` make of the parameters of a request and
`handle_announce_request` of the attributes of an SDP session. An `Err` is a request that is answered with
status 400; the texts of the answers are left out. The crate that parses SDP
bodies is not here: a session is the map from attributes to values it gives.
-/

namespace Moonshine.Impl.Negotiation

open Moonshine.Framework

/-- `char::is_whitespace`. -/
def isWhitespace (c : Char) : Bool :=
  (9 ≤ c.toNat ∧ c.toNat ≤ 13) ∨ (0x2000 ≤ c.toNat ∧ c.toNat ≤ 0x200A) ∨
    c.toNat ∈ [0x20, 0x85, 0xA0, 0x1680, 0x2028, 0x2029, 0x202F, 0x205F, 0x3000]

/-- `str::trim`. -/
def trim (cs : List Char) : List Char :=
  ((cs.dropWhile isWhitespace).reverse.dropWhile isWhitespace).reverse

def parseU8 (cs : List Char) : Option UInt8 := (parseUnsigned 8 cs).map UInt8.ofNat

def parseU32 (cs : List Char) : Option UInt32 := (parseUnsigned 32 cs).map UInt32.ofNat

def parseI32 (cs : List Char) : Option Int32 := (parseSigned 31 cs).map Int32.ofInt

def parseI64 (cs : List Char) : Option Int64 := (parseSigned 63 cs).map Int64.ofInt

def parseUsize (cs : List Char) : Option Nat := parseUnsigned 64 cs

def hexDigit (c : Char) : Option Nat :=
  if '0' ≤ c ∧ c ≤ '9' then some (c.toNat - '0'.toNat)
  else if 'a' ≤ c ∧ c ≤ 'f' then some (c.toNat - 'a'.toNat + 10)
  else if 'A' ≤ c ∧ c ≤ 'F' then some (c.toNat - 'A'.toNat + 10)
  else none

/-- `hex::decode`. -/
def hexDecode : List Char → Option (List Byte)
  | [] => some []
  | [_] => none
  | c :: d :: cs =>
    match hexDigit c, hexDigit d, hexDecode cs with
    | some high, some low, some bytes => some (UInt8.ofNat (16 * high + low) :: bytes)
    | _, _, _ => none

/-- `AudioChannels::from`. -/
def audioChannelsOf (value : UInt8) : AudioChannels :=
  if value = 6 then .surround51 else if value = 8 then .surround71 else .stereo

/-- `SessionContext`, with the application's ID for the application. -/
structure SessionContext where
  applicationId : Int32
  resolution : UInt32 × UInt32
  refreshRate : UInt32
  keys : SessionKeyData
  audioChannels : AudioChannels
  audioChannelMask : UInt32
  hdr : Bool
  deriving DecidableEq, Repr

/-- Width, height and refresh rate of a mode `WxHxR`. -/
def parseMode (mode : String) : Option (UInt32 × UInt32 × UInt32) :=
  match mode.toList.splitOn 'x' with
  | [width, height, refreshRate] =>
    (parseU32 width).bind fun width => (parseU32 height).bind fun height =>
      (parseU32 refreshRate).map fun refreshRate => (width, height, refreshRate)
  | _ => none

/-- `launch`, up to the context it initializes the session with. -/
def launch (applications : List Int32) (params : String → Option String) : Outcome SessionContext := do
  let applicationId ← Outcome.ofOption ((params "appid").bind fun v => parseI32 v.toList)
  let (width, height, refreshRate) ← Outcome.ofOption ((params "mode").bind parseMode)
  let remoteInputKey ← Outcome.ofOption ((params "rikey").bind fun v => hexDecode v.toList)
  let remoteInputKeyId ← Outcome.ofOption ((params "rikeyid").bind fun v => parseI64 v.toList)
  let surroundAudioInfo := ((params "surroundAudioInfo").bind fun v => parseU32 v.toList).getD 196610
  let hdrMode := ((params "hdrMode").bind fun v => parseU32 v.toList).getD 0
  if applicationId ∈ applications then
    return {
      applicationId
      resolution := (width, height)
      refreshRate
      keys := ⟨remoteInputKey, remoteInputKeyId⟩
      audioChannels := audioChannelsOf (surroundAudioInfo &&& 0xFFFF).toUInt8
      audioChannelMask := surroundAudioInfo >>> 16
      hdr := hdrMode != 0 }
  else
    -- The ID in the answer.
    let _ ← checkedI32 (applicationId.toInt - 1)
    .err

/-- `resume`, up to the keys it updates the session with. -/
def resume (params : String → Option String) : Outcome SessionKeyData := do
  let remoteInputKey ← Outcome.ofOption ((params "rikey").bind fun v => hexDecode v.toList)
  let remoteInputKeyId ← Outcome.ofOption ((params "rikeyid").bind fun v => parseI64 v.toList)
  return ⟨remoteInputKey, remoteInputKeyId⟩

/-- `get_first_attribute_value`, without what it tells apart for the log. -/
abbrev SdpSession := String → Option String

/-- `get_sdp_attribute` and `get_optional_sdp_attribute`. -/
def getSdpAttribute {α : Type} (sdp : SdpSession) (name : String) (parse : List Char → Option α) :
    Option α :=
  (sdp name).bind fun value => parse (trim value.toList)

/-- `VideoFormat::try_from`. -/
def videoFormatOf (value : UInt32) : Option VideoFormat :=
  if value = 0 then some .h264 else if value = 1 then some .hevc else if value = 2 then some .av1 else none

/-- `VideoDynamicRange::try_from`, or the default. -/
def dynamicRangeOf (value : UInt32) : VideoDynamicRange := if value = 1 then .hdr else .sdr

/-- `VideoChromaSampling::try_from`, or the default. -/
def chromaSamplingOf (value : UInt32) : VideoChromaSampling := if value = 1 then .yuv444 else .yuv420

def opusStereo : OpusStreamConfig := ⟨.stereo, 1, 1, [0, 1, 0, 0, 0, 0, 0, 0], 96000⟩

def opusHighStereo : OpusStreamConfig := ⟨.stereo, 1, 1, [0, 1, 0, 0, 0, 0, 0, 0], 512000⟩

def opusSurround51 : OpusStreamConfig := ⟨.surround51, 4, 2, [0, 1, 4, 5, 2, 3, 0, 0], 256000⟩

def opusHighSurround51 : OpusStreamConfig := ⟨.surround51, 6, 0, [0, 1, 2, 3, 4, 5, 0, 0], 1536000⟩

def opusSurround71 : OpusStreamConfig := ⟨.surround71, 5, 3, [0, 1, 4, 5, 6, 7, 2, 3], 450000⟩

def opusHighSurround71 : OpusStreamConfig := ⟨.surround71, 8, 0, [0, 1, 2, 3, 4, 5, 6, 7], 2048000⟩

/-- `AudioConfig::from_channels`. -/
def audioConfigOf (channels : AudioChannels) (channelMask : UInt32) (highQuality : Bool) : AudioConfig where
  channels
  channelMask
  highQuality
  streamConfig := match channels, highQuality with
    | .surround51, false => opusSurround51
    | .surround51, true => opusHighSurround51
    | .surround71, false => opusSurround71
    | .surround71, true => opusHighSurround71
    | .stereo, false => opusStereo
    | .stereo, true => opusHighStereo

/-- `EncryptionFlags`. -/
def encryptionVideo : UInt8 := 0x02

def encryptionAudio : UInt8 := 0x04

/-- The client's encryption flags. -/
def clientEncryptionFlags (sdp : SdpSession) : UInt8 :=
  (getSdpAttribute sdp "x-ss-general.encryptionEnabled" parseU8).getD 0

def maxFps (sdp : SdpSession) : Option UInt32 := getSdpAttribute sdp "x-nv-video[0].maxFPS" parseU32

def packetSize (sdp : SdpSession) : Option Nat := getSdpAttribute sdp "x-nv-video[0].packetSize" parseUsize

def configuredBitrateKbps (sdp : SdpSession) : Option Nat :=
  getSdpAttribute sdp "x-ml-video.configuredBitrateKbps" parseUsize

def minRequiredFecPackets (sdp : SdpSession) : Option UInt32 :=
  getSdpAttribute sdp "x-nv-vqos[0].fec.minRequiredFecPackets" parseU32

/-- The part of `handle_announce_request` up to `video_stream_context`, with the
server's setting for video encryption. -/
def announceVideo (encrypt : Bool) (sdp : SdpSession) : Outcome VideoStreamContext := do
  let width ← Outcome.ofOption (getSdpAttribute sdp "x-nv-video[0].clientViewportWd" parseU32)
  let height ← Outcome.ofOption (getSdpAttribute sdp "x-nv-video[0].clientViewportHt" parseU32)
  let fps ← Outcome.ofOption (maxFps sdp)
  let packetSize ← Outcome.ofOption (packetSize sdp)
  let kbps ← Outcome.ofOption (configuredBitrateKbps sdp)
  let bitrate ← checkedMul 64 kbps 1000
  let minimumFecPackets ← Outcome.ofOption (minRequiredFecPackets sdp)
  let videoQosType ← Outcome.ofOption (getSdpAttribute sdp "x-nv-vqos[0].qosTrafficType" some)
  let videoFormat ← Outcome.ofOption (getSdpAttribute sdp "x-nv-vqos[0].bitStreamFormat" parseU32)
  let videoFormat ← Outcome.ofOption (videoFormatOf videoFormat)
  let dynamicRange := (getSdpAttribute sdp "x-nv-video[0].dynamicRangeMode" parseU32).getD 0
  let chromaSampling := (getSdpAttribute sdp "x-ss-video[0].chromaSamplingType" parseU32).getD 0
  let encoderCscMode := (getSdpAttribute sdp "x-nv-video[0].encoderCscMode" parseU32).getD 0
  return {
    width
    height
    fps
    packetSize
    bitrate
    minimumFecPackets
    qos := videoQosType != "0".toList
    videoFormat
    dynamicRange := dynamicRangeOf dynamicRange
    chromaSamplingType := chromaSamplingOf chromaSampling
    maxReferenceFrames := (getSdpAttribute sdp "x-nv-video[0].maxNumReferenceFrames" parseU32).getD 1
    fullRange := encoderCscMode &&& 0x1 != 0
    encryptVideo := encrypt && (clientEncryptionFlags sdp &&& encryptionVideo) != 0 }

/-- The part up to `audio_stream_context`, with the channels and the mask of the
session, if there is one. -/
def announceAudio (session : Option (AudioChannels × UInt32)) (sdp : SdpSession) :
    Outcome AudioStreamContext := do
  let packetDurationMs ← Outcome.ofOption (getSdpAttribute sdp "x-nv-aqos.packetDuration" parseU32)
  let audioQosType ← Outcome.ofOption (getSdpAttribute sdp "x-nv-aqos.qosTrafficType" some)
  let surroundChannels := (getSdpAttribute sdp "x-nv-audio.surround.numChannels" parseU8).getD 2
  let surroundMask := (getSdpAttribute sdp "x-nv-audio.surround.channelMask" parseU32).getD 0x3
  let surroundEnable := (getSdpAttribute sdp "x-nv-audio.surround.enable" parseU8).getD 0
  let audioQuality := (getSdpAttribute sdp "x-nv-audio.surround.AudioQuality" parseU8).getD 1
  let (channels, channelMask) :=
    if surroundEnable ≠ 0 then (audioChannelsOf surroundChannels, surroundMask)
    else session.getD (.stereo, 0x3)
  return {
    packetDurationMs
    qos := audioQosType != "0".toList
    audioConfig := audioConfigOf channels channelMask (audioQuality != 0)
    encryptAudio := (clientEncryptionFlags sdp &&& encryptionAudio) != 0 }

/-- `handle_announce_request`, up to the contexts it hands to the session
manager. -/
def handleAnnounceRequest (encrypt : Bool) (session : Option (AudioChannels × UInt32)) (sdp : SdpSession) :
    Outcome (VideoStreamContext × AudioStreamContext) := do
  let video ← announceVideo encrypt sdp
  let audio ← announceAudio session sdp
  return (video, audio)

end Moonshine.Impl.Negotiation
