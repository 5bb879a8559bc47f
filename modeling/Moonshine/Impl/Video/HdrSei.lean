import Moonshine.Framework.Bytes
import Moonshine.Framework.Integers
import Moonshine.Impl.Compositor.Frame

/-!
# HDR metadata in the bitstream, `pipeline/hdr_sei.rs`

MDCV and CLLI metadata as SEI NAL units of H.264 and H.265 and as metadata OBUs
of AV1, and where in an access unit they are put. Each of the two searches
advances in every round, so that a loop of as many rounds as there are bytes
comes to its end. A release build does not check its arithmetic for overflow; the two
functions that walk the OBUs are here both ways.
-/

namespace Moonshine.Impl.HdrSei

open Moonshine.Framework

def primaryBytes (p : UInt16 × UInt16) : List Byte := beBytes 2 p.1.toNat ++ beBytes 2 p.2.toNat

/-- H.265 takes the primaries in the order green, blue, red. -/
def buildMdcvSeiPayload (m : HdrMetadata) (isHevc : Bool) : List Byte :=
  (if isHevc then
    [m.displayPrimaries[1], m.displayPrimaries[2], m.displayPrimaries[0]].flatMap primaryBytes
  else m.displayPrimaries.toList.flatMap primaryBytes) ++
    beBytes 2 m.whitePoint.1.toNat ++ beBytes 2 m.whitePoint.2.toNat ++
    beBytes 4 m.maxLuminance.toNat ++ beBytes 4 m.minLuminance.toNat

def buildClliSeiPayload (m : HdrMetadata) : List Byte :=
  beBytes 2 m.maxCll.toNat ++ beBytes 2 m.maxFall.toNat

/-- The loop of `rbsp_escape`. -/
def rbspEscapeFrom : (consecutiveZeros : Nat) → List Byte → List Byte
  | _, [] => []
  | consecutiveZeros, byte :: data =>
    if consecutiveZeros ≥ 2 ∧ byte ≤ 0x03 then
      0x03 :: byte :: rbspEscapeFrom (if byte = 0 then 1 else 0) data
    else byte :: rbspEscapeFrom (if byte = 0 then consecutiveZeros + 1 else 0) data

def rbspEscape (data : List Byte) : List Byte := rbspEscapeFrom 0 data

/-- A payload type or size, in bytes of up to 255. -/
def seiNumber (n : Nat) : List Byte := List.replicate (n / 255) 0xFF ++ [UInt8.ofNat (n % 255)]

/-- `sei_msg`. -/
def seiMessage (payloadType : Byte) (payload : List Byte) : List Byte :=
  seiNumber payloadType.toNat ++ seiNumber payload.length ++ payload ++ [0x80]

/-- The header of an SEI NAL unit. -/
def seiHeader (isHevc : Bool) : List Byte := if isHevc then [0x4E, 0x01] else [0x06]

def buildSeiNal (payloadType : Byte) (payload : List Byte) (isHevc : Bool) : List Byte :=
  [0, 0, 0, 1] ++ seiHeader isHevc ++ rbspEscape (seiMessage payloadType payload)

/-- The length of the start code at `i`, 0 if there is none. -/
def startCodeLen (data : List Byte) (i : Nat) : Nat :=
  if i + 4 ≤ data.length ∧ slice data i 4 = [0, 0, 0, 1] then 4
  else if i + 3 ≤ data.length ∧ slice data i 3 = [0, 0, 1] then 3
  else 0

/-- The type in the first byte of a NAL unit is that of a coded slice. -/
def isVcl (isHevc : Bool) (header : Byte) : Bool :=
  if isHevc then (header >>> 1) &&& 0x3F ≤ 31
  else 1 ≤ header &&& 0x1F ∧ header &&& 0x1F ≤ 5

/-- The loop of `find_first_vcl_nal`, from `i` on, for as many rounds as given. -/
def findFirstVclNalFrom (data : List Byte) (isHevc : Bool) : Nat → Nat → Nat
  | 0, _ => data.length
  | rounds + 1, i =>
    if i < data.length then
      let len := startCodeLen data i
      if len = 0 then findFirstVclNalFrom data isHevc rounds (i + 1)
      else if data.length ≤ i + len then i
      else if isVcl isHevc (data.getD (i + len) 0) then i
      else findFirstVclNalFrom data isHevc rounds (i + len)
    else data.length

def findFirstVclNal (data : List Byte) (isHevc : Bool) : Nat :=
  findFirstVclNalFrom data isHevc data.length 0

/-- `inject_h264_sei` and `inject_h265_sei` differ in `is_hevc` only. -/
def injectSei (isHevc : Bool) (data : List Byte) (m : HdrMetadata) : List Byte :=
  let mdcvNal := buildSeiNal 137 (buildMdcvSeiPayload m isHevc) isHevc
  let clliNal := buildSeiNal 144 (buildClliSeiPayload m) isHevc
  let insertPos := findFirstVclNal data isHevc
  data.take insertPos ++ mdcvNal ++ clliNal ++ data.drop insertPos

def injectH264Sei : List Byte → HdrMetadata → List Byte := injectSei false

def injectH265Sei : List Byte → HdrMetadata → List Byte := injectSei true

/-- `leb128_encode`: ten rounds shift out all bits of a `u64`. -/
def leb128EncodeFrom : Nat → UInt64 → List Byte
  | 0, _ => []
  | rounds + 1, value =>
    let byte := (value &&& 0x7F).toUInt8
    if value >>> 7 = 0 then [byte] else (byte ||| 0x80) :: leb128EncodeFrom rounds (value >>> 7)

def leb128Encode (value : UInt64) : List Byte := leb128EncodeFrom 10 value

def obuMetadataHeader : Byte := ((5 : Byte) <<< 3) ||| 0x02

def buildAv1MetadataObu (payload : List Byte) : List Byte :=
  [obuMetadataHeader] ++ leb128Encode (UInt64.ofNat (payload.length + 1)) ++ payload ++ [0x80]

def buildAv1CllObu (m : HdrMetadata) : List Byte :=
  buildAv1MetadataObu ([1] ++ beBytes 2 m.maxCll.toNat ++ beBytes 2 m.maxFall.toNat)

/-- In 16 fraction bits, saturated. -/
def av1Chromaticity (value : UInt16) : UInt16 :=
  UInt16.ofNat (min ((value.toNat * 65536 + 25000) / 50000) 65535)

/-- In 24.8 fixed point, which no value exceeds. -/
def av1LuminanceMax (value : UInt32) : UInt32 := UInt32.ofNat ((value.toNat * 256 + 5000) / 10000)

/-- In 18.14 fixed point, saturated. -/
def av1LuminanceMin (value : UInt32) : UInt32 :=
  UInt32.ofNat (min ((value.toNat * 16384 + 5000) / 10000) (2 ^ 32 - 1))

def av1PrimaryBytes (p : UInt16 × UInt16) : List Byte :=
  primaryBytes (av1Chromaticity p.1, av1Chromaticity p.2)

def buildAv1MdcvObu (m : HdrMetadata) : List Byte :=
  buildAv1MetadataObu
    ([2] ++ m.displayPrimaries.toList.flatMap av1PrimaryBytes ++ av1PrimaryBytes m.whitePoint ++
      beBytes 4 (av1LuminanceMax m.maxLuminance).toNat ++ beBytes 4 (av1LuminanceMin m.minLuminance).toNat)

/-- `leb128_decode`: the value and the bytes consumed. A shift past the 64 bits
wraps, as in a release build. -/
def leb128DecodeFrom (value : UInt64) (shift consumed : Nat) : List Byte → UInt64 × Nat
  | [] => (value, consumed)
  | byte :: data =>
    let value := value ||| (byte &&& 0x7F).toUInt64 <<< UInt64.ofNat shift
    if byte &&& 0x80 = 0 then (value, consumed + 1)
    else leb128DecodeFrom value (shift + 7) (consumed + 1) data

def leb128Decode (data : List Byte) : UInt64 × Nat := leb128DecodeFrom 0 0 0 data

/-- OBU_FRAME or OBU_FRAME_HEADER. -/
def isFrameObu (header : Byte) : Bool :=
  let obuType := (header >>> 3) &&& 0x0F
  obuType = 6 ∨ obuType = 3

/-- The loop of `find_first_frame_obu`, from `i` on, for as many rounds as given. -/
def findFirstFrameObuFrom (data : List Byte) : Nat → Nat → Nat
  | 0, _ => data.length
  | rounds + 1, i =>
    if i < data.length then
      let header := data.getD i 0
      let hasSize := (header >>> 1) &&& 0x01
      let hasExtension := (header >>> 2) &&& 0x01
      if isFrameObu header then i
      else
        let offset := if hasExtension = 1 then i + 1 + 1 else i + 1
        if data.length < offset then data.length
        else if hasSize = 1 then
          let (size, bytesRead) := leb128Decode (data.drop offset)
          -- Where `saturating_add` saturates, both sums lie behind the end of the data.
          findFirstFrameObuFrom data rounds (offset + bytesRead + size.toNat)
        else data.length
    else data.length

def findFirstFrameObu (data : List Byte) : Nat := findFirstFrameObuFrom data data.length 0

/-- `<<` on 64 bits, which panics where the shift has no room in them. -/
def checkedShl (x : UInt64) (shift : Nat) : Outcome UInt64 :=
  if shift < 64 then .ok (x <<< UInt64.ofNat shift) else .panic

theorem checkedShl_eq_ok {x y : UInt64} {shift : Nat} :
    checkedShl x shift = .ok y ↔ shift < 64 ∧ y = x <<< UInt64.ofNat shift := by
  unfold checkedShl
  by_cases h : shift < 64
  · rw [if_pos h]
    exact ⟨fun he => ⟨h, (Outcome.ok.inj he).symm⟩, fun he => by rw [he.2]⟩
  · rw [if_neg h]
    exact iff_of_false nofun fun he => h he.1

/-- `shift` is an `i32`. -/
def leb128DecodeCheckedFrom (value : UInt64) (shift consumed : Nat) : List Byte → Outcome (UInt64 × Nat)
  | [] => .ok (value, consumed)
  | byte :: data => do
    let bits ← checkedShl (byte &&& 0x7F).toUInt64 shift
    let shift ← checkedAdd 31 shift 7
    let consumed ← checkedAdd 64 consumed 1
    if byte &&& 0x80 = 0 then return (value ||| bits, consumed)
    else leb128DecodeCheckedFrom (value ||| bits) shift consumed data

/-- `leb128_decode` in a build with overflow checks. -/
def leb128DecodeChecked (data : List Byte) : Outcome (UInt64 × Nat) := leb128DecodeCheckedFrom 0 0 0 data

/-- Behind the header byte and the extension's. -/
def skipHeaderChecked (header : Byte) (i : Nat) : Outcome Nat := do
  let hasExtension := (header >>> 2) &&& 0x01
  let offset ← checkedAdd 64 i 1
  if hasExtension = 1 then checkedAdd 64 offset 1 else return offset

/-- The loop of `find_first_frame_obu` in a build with overflow checks, `none` while it still runs after
`rounds`. -/
def findFirstFrameObuCheckedFrom (data : List Byte) : Nat → Nat → Outcome (Option Nat)
  | 0, _ => .ok none
  | rounds + 1, i =>
    if i < data.length then do
      let header := data.getD i 0
      let hasSize := (header >>> 1) &&& 0x01
      if isFrameObu header then return some i
      else
        let offset ← skipHeaderChecked header i
        if data.length < offset then return some data.length
        else if hasSize = 1 then
          let (size, bytesRead) ← leb128DecodeChecked (data.drop offset)
          let offset ← checkedAdd 64 offset bytesRead
          findFirstFrameObuCheckedFrom data rounds (saturatingAdd 64 offset size.toNat)
        else return some data.length
    else return some data.length

def findFirstFrameObuChecked (data : MemSlice) (rounds : Nat) : Outcome (Option Nat) :=
  findFirstFrameObuCheckedFrom data.bytes rounds 0

def injectAv1Metadata (data : List Byte) (m : HdrMetadata) : List Byte :=
  let insertPos := findFirstFrameObu data
  data.take insertPos ++ buildAv1MdcvObu m ++ buildAv1CllObu m ++ data.drop insertPos

/-- `inject_hdr_metadata`. -/
def injectHdrMetadata (data : List Byte) (m : HdrMetadata) : VideoFormat → List Byte
  | .h264 => injectH264Sei data m
  | .hevc => injectH265Sei data m
  | .av1 => injectAv1Metadata data m

end Moonshine.Impl.HdrSei
