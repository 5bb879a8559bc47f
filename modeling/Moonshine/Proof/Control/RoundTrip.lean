import Moonshine.Impl.Control.Feedback
import Moonshine.Proof.Control.Totality

/-!
# What the client reads of a control message

`encode_control` puts a payload into an `Encrypted` message, whose length field
is right for payloads of up to 65515 bytes; the payloads that the host builds
are messages themselves. The client has no other parser here than `from_bytes`,
so the fields that it does not look at are read at their offsets
(`HostMessage.read`).
-/

namespace Moonshine.Proof.Control

open Moonshine.Framework Moonshine.Impl Moonshine.Impl.Control

/-! ## Words -/

theorem u16_leBytes (x : UInt16) : UInt16.ofNat (ofLe (leBytes 2 x.toNat)) = x := by
  rw [ofLe_leBytes, show 256 ^ 2 = 2 ^ 16 by decide, Nat.mod_eq_of_lt x.toNat_lt, UInt16.ofNat_toNat]

theorem u32_leBytes (x : UInt32) : UInt32.ofNat (ofLe (leBytes 4 x.toNat)) = x := by
  rw [ofLe_leBytes, show 256 ^ 4 = 2 ^ 32 by decide, Nat.mod_eq_of_lt x.toNat_lt, UInt32.ofNat_toNat]

theorem u32_beBytes (x : UInt32) : UInt32.ofNat (ofBe (beBytes 4 x.toNat)) = x := by
  rw [ofBe_beBytes, show 256 ^ 4 = 2 ^ 32 by decide, Nat.mod_eq_of_lt x.toNat_lt, UInt32.ofNat_toNat]

/-- A message is its type, the length of its body and the body. -/
theorem framed_of_split {t : ControlMessageType} {n : UInt16} {body : List Byte}
    (hn : body.length = n.toNat) :
    Framed t (leBytes 2 t.toU16.toNat ++ leBytes 2 n.toNat ++ body) where
  header := by
    simp only [List.length_append, length_leBytes]
    omega
  length := by
    rw [slice_append_left (by simp), slice_append_right (by simp), length_leBytes, Nat.sub_self]
    show (UInt16.ofNat (ofLe (leBytes 2 n.toNat))).toNat = _
    rw [u16_leBytes, List.length_append, List.length_append, length_leBytes, length_leBytes, hn]
    omega
  type := u16_leBytes t.toU16

/-! ## Encrypted messages -/

theorem encryptedFields_asBytes {m : EncryptedControlMessage} (htag : m.tag.length = 16) :
    encryptedFields m.asBytes = m := by
  have hlength : slice m.asBytes 2 2 = leBytes 2 m.length.toNat := by
    rw [EncryptedControlMessage.asBytes, List.append_assoc, List.append_assoc]
    exact slice_middle (by simp) (by simp)
  have hsequence : slice m.asBytes 4 4 = leBytes 4 m.sequenceNumber.toNat := by
    rw [EncryptedControlMessage.asBytes, List.append_assoc]
    exact slice_middle (by simp) (by simp)
  have htag' : slice m.asBytes 8 16 = m.tag := slice_middle (by simp) htag.symm
  have hpayload : slice m.asBytes 24 (m.asBytes.length - 24) = m.payload := by
    have hsize : m.asBytes.length - 24 = m.payload.length := by
      simp [EncryptedControlMessage.asBytes, htag]
      omega
    rw [hsize, EncryptedControlMessage.asBytes, slice_append_right (by simp [htag]), List.length_append]
    simp [htag]
  rw [encryptedFields, hlength, hsequence, htag', hpayload, u16_leBytes, u32_leBytes]

theorem fromBytes_asBytes {m : EncryptedControlMessage} (htag : m.tag.length = 16)
    (hlen : m.length.toNat = 20 + m.payload.length) (hpayload : 4 ≤ m.payload.length) :
    ControlMessage.fromBytes m.asBytes = .ok (.encrypted m) := by
  have hbody : m.asBytes = leBytes 2 ControlMessageType.encrypted.toU16.toNat ++ leBytes 2 m.length.toNat ++
      (leBytes 4 m.sequenceNumber.toNat ++ m.tag ++ m.payload) := by
    simp [EncryptedControlMessage.asBytes]
  have hframed : Framed .encrypted m.asBytes := by
    rw [hbody]
    exact framed_of_split (by simp; omega)
  have hsize : m.asBytes.length = 24 + m.payload.length := by
    rw [hbody]
    simp
    omega
  rw [fromBytes_of_framed hframed, ControlMessage.parse, parseEncrypted_of_framed hframed,
    if_pos (by omega)]
  rw [encryptedFields_asBytes htag]

/-- The cipher encrypts whatever is not longer than the 2^36 bytes that its
mode allows. -/
def Encrypts (g : Aes128Gcm) : Prop :=
  ∀ key nonce buffer, key.length = 16 → nonce.length = 12 → buffer.length ≤ 2 ^ 36 →
    (g.encryptInPlaceDetached key nonce buffer).isSome

/-- `encode_control` succeeds on the payload, and its output is received as an
`Encrypted` message with the sequence number and the tag, which decrypts to the
payload. -/
def RoundTrips (g : Aes128Gcm) (key : List Byte) (sequenceNumber : UInt32) (payload : List Byte) : Prop :=
  ∀ log, ∃ packet log' sealed message,
    encodeControl g key sequenceNumber payload log = (.ok packet, log') ∧
      Crypto.encrypt g payload key (hostIv sequenceNumber) = .ok sealed ∧
      ControlMessage.fromBytes packet = .ok (.encrypted message) ∧
      message.sequenceNumber = sequenceNumber ∧ message.tag = sealed.2 ∧
      Crypto.decrypt g message.payload key (hostIv sequenceNumber) message.tag = .ok payload

theorem roundTrips_of_length {g : Aes128Gcm} (hg : Encrypts g) {key : List Byte} (hkey : key.length = 16)
    (sequenceNumber : UInt32) {payload : List Byte} (hmin : 4 ≤ payload.length)
    (hmax : payload.length ≤ 65515) : RoundTrips g key sequenceNumber payload := by
  intro log
  have hiv : (hostIv sequenceNumber).length = 12 := by simp [hostIv, controlIv]
  obtain ⟨⟨ciphertext, tag⟩, hsealed⟩ := Option.isSome_iff_exists.mp
    (hg key (hostIv sequenceNumber) payload hkey hiv (by omega))
  obtain ⟨hlen, htag⟩ := g.encrypt_length _ _ _ _ hsealed
  have hencrypt : Crypto.encrypt g payload key (hostIv sequenceNumber) = .ok (ciphertext, tag) := by
    rw [Crypto.encrypt, Crypto.keyFromSlice, if_pos hkey, Outcome.ok_bind, hsealed, Outcome.ofOption_some]
  dsimp only at hlen htag
  have hnonempty : ciphertext.isEmpty = false := by
    rw [List.isEmpty_eq_false_iff_exists_mem]
    obtain ⟨b, rest, rfl⟩ := List.exists_cons_of_length_pos (show 0 < ciphertext.length by omega)
    exact ⟨b, List.mem_cons_self⟩
  refine ⟨_, log ++ [(key, hostIv sequenceNumber)], (ciphertext, tag),
    ⟨4 + 16 + UInt16.ofNat ciphertext.length, sequenceNumber, tag, ciphertext⟩, ?_, hencrypt,
    fromBytes_asBytes htag ?_ (by dsimp only; omega), rfl, rfl, ?_⟩
  · rw [encodeControl, if_neg (by omega), Prog.modify_bind, hencrypt, Prog.liftM_bind_ok]
    dsimp only
    rw [hnonempty]
    rfl
  · have hfits : ciphertext.length < 2 ^ 16 := by omega
    show (4 + 16 + UInt16.ofNat ciphertext.length).toNat = 20 + ciphertext.length
    rw [UInt16.toNat_add, UInt16.toNat_ofNat_of_lt' hfits]
    show (20 + ciphertext.length) % 2 ^ 16 = _
    exact Nat.mod_eq_of_lt (by omega)
  · rw [Crypto.decrypt, Crypto.keyFromSlice, if_pos hkey, Outcome.ok_bind,
      g.decrypt_encrypt _ _ _ _ hsealed, Outcome.ofOption_some]

/-! ## The payloads -/

/-- What the host sends. -/
inductive HostMessage
  | feedback (command : FeedbackCommand)
  | hdrMode (enabled : Bool) (metadata : Option HdrMetadata)
  | termination (errorCode : UInt32)

def HostMessage.payload : HostMessage → List Byte
  | feedback command => command.asPacket
  | hdrMode enabled metadata => buildHdrModePayload enabled metadata
  | termination errorCode => buildTerminationPayload errorCode

/-- The message that a payload was built for. -/
def HostMessage.message : HostMessage → ControlMessage
  | feedback (.rumble _) => .rumbleData
  | feedback (.setLed _) => .setRgbLed
  | feedback (.enableMotionEvent _) => .setMotionEvent
  | feedback (.triggerEffect _) => .setTriggerEffect
  | hdrMode _ _ => .hdrMode
  | termination _ => .terminationExtended

/-- The metadata in an HDR mode message: the luminances are words, the maximum
is in cd/m². -/
structure HdrFields where
  displayPrimaries : Vector (UInt16 × UInt16) 3
  whitePoint : UInt16 × UInt16
  maxLuminance : UInt16
  minLuminance : UInt16
  maxCll : UInt16
  maxFall : UInt16
  deriving DecidableEq, Repr

/-- The metadata as it is put in: in whole cd/m², as far as a word goes. -/
def HdrFields.ofMetadata : Option HdrMetadata → HdrFields
  | none => ⟨Vector.replicate 3 (0, 0), (0, 0), 0, 0, 0, 0⟩
  | some m =>
    { displayPrimaries := m.displayPrimaries
      whitePoint := m.whitePoint
      maxLuminance := UInt16.ofNat (min (m.maxLuminance.toNat / 10000) 65535)
      minLuminance := UInt16.ofNat (min m.minLuminance.toNat 65535)
      maxCll := m.maxCll
      maxFall := m.maxFall }

/-- What is read of a payload. -/
inductive Fields
  | feedback (command : FeedbackCommand)
  | hdrMode (enabled : Bool) (metadata : HdrFields)
  | termination (errorCode : UInt32)
  deriving DecidableEq, Repr

def HostMessage.fields : HostMessage → Fields
  | feedback command => .feedback command
  | hdrMode enabled metadata => .hdrMode enabled (HdrFields.ofMetadata metadata)
  | termination errorCode => .termination errorCode

/-! ## Their fields -/

def u16At (p : List Byte) (off : Nat) : UInt16 := UInt16.ofNat (ofLe (slice p off 2))

def bytesAt (n : Nat) (p : List Byte) (off : Nat) : Vector Byte n := Vector.ofFn fun i => p.getD (off + i) 0

/-- The fields of a message of a type, where they lie in its payload. -/
def readFields (p : List Byte) : ControlMessage → Option Fields
  | .rumbleData => some (.feedback (.rumble ⟨u16At p 8, u16At p 10, u16At p 12⟩))
  | .setRgbLed => some (.feedback (.setLed ⟨u16At p 4, (p.getD 6 0, p.getD 7 0, p.getD 8 0)⟩))
  | .setMotionEvent => some (.feedback (.enableMotionEvent ⟨u16At p 4, u16At p 6, p.getD 8 0⟩))
  | .setTriggerEffect =>
    some (.feedback (.triggerEffect
      ⟨u16At p 4, p.getD 6 0, p.getD 7 0, p.getD 8 0, bytesAt 10 p 9, bytesAt 10 p 19⟩))
  | .hdrMode =>
    some (.hdrMode (p.getD 4 0 == 1)
      { displayPrimaries := Vector.ofFn fun i => (u16At p (5 + 4 * i), u16At p (7 + 4 * i))
        whitePoint := (u16At p 17, u16At p 19)
        maxLuminance := u16At p 21
        minLuminance := u16At p 23
        maxCll := u16At p 25
        maxFall := u16At p 27 })
  | .terminationExtended => some (.termination (UInt32.ofNat (ofBe (slice p 4 4))))
  | .encrypted _ | .ping | .lossStats | .frameStats | .inputData _ | .requestIdrFrame
  | .invalidateReferenceFrames .. | .startB | .rumbleTriggers => none

theorem rumble_packet (c : RumbleCommand) : c.asPacket =
    leBytes 2 ControlMessageType.rumbleData.toU16.toNat ++ leBytes 2 (10 : UInt16).toNat ++
      (List.replicate 4 0 ++ leBytes 2 c.id.toNat ++ leBytes 2 c.lowFrequency.toNat ++
        leBytes 2 c.highFrequency.toNat) := rfl

theorem setLed_packet (c : SetLedCommand) : c.asPacket =
    leBytes 2 ControlMessageType.setRgbLed.toU16.toNat ++ leBytes 2 (5 : UInt16).toNat ++
      (leBytes 2 c.id.toNat ++ [c.rgb.1, c.rgb.2.1, c.rgb.2.2]) := rfl

theorem enableMotionEvent_packet (c : EnableMotionEventCommand) : c.asPacket =
    leBytes 2 ControlMessageType.setMotionEvent.toU16.toNat ++ leBytes 2 (5 : UInt16).toNat ++
      (leBytes 2 c.id.toNat ++ leBytes 2 c.reportRate.toNat ++ [c.motionType]) := rfl

theorem triggerEffect_packet (c : TriggerEffectCommand) : c.asPacket =
    leBytes 2 ControlMessageType.setTriggerEffect.toU16.toNat ++ leBytes 2 (25 : UInt16).toNat ++
      (leBytes 2 c.id.toNat ++ [c.triggerEventFlags, c.typeLeft, c.typeRight] ++ c.left.toList ++
        c.right.toList) := by
  simp [TriggerEffectCommand.asPacket, feedbackBuffer, splice, leBytes]

theorem length_hdrMetadataBytes (metadata : Option HdrMetadata) : (hdrMetadataBytes metadata).length = 30 := by
  cases metadata with
  | none => rfl
  | some m => simp [hdrMetadataBytes]

theorem hdrMode_payload (enabled : Bool) (metadata : Option HdrMetadata) :
    buildHdrModePayload enabled metadata =
      leBytes 2 ControlMessageType.hdrMode.toU16.toNat ++ leBytes 2 (31 : UInt16).toNat ++
        ([if enabled then 1 else 0] ++ hdrMetadataBytes metadata) := by
  rw [← List.append_assoc]
  rfl

theorem read_rumble (c : RumbleCommand) :
    readFields c.asPacket .rumbleData = some (.feedback (.rumble c)) := by
  have hid : u16At c.asPacket 8 = c.id := u16_leBytes c.id
  have hlow : u16At c.asPacket 10 = c.lowFrequency := u16_leBytes c.lowFrequency
  have hhigh : u16At c.asPacket 12 = c.highFrequency := u16_leBytes c.highFrequency
  rw [readFields, hid, hlow, hhigh]

theorem read_setLed (c : SetLedCommand) :
    readFields c.asPacket .setRgbLed = some (.feedback (.setLed c)) := by
  have hid : u16At c.asPacket 4 = c.id := u16_leBytes c.id
  rw [readFields, hid]
  rfl

theorem read_enableMotionEvent (c : EnableMotionEventCommand) :
    readFields c.asPacket .setMotionEvent = some (.feedback (.enableMotionEvent c)) := by
  have hid : u16At c.asPacket 4 = c.id := u16_leBytes c.id
  have hrate : u16At c.asPacket 6 = c.reportRate := u16_leBytes c.reportRate
  rw [readFields, hid, hrate]
  rfl

theorem bytesAt_middle {n off : Nat} {front back : List Byte} (v : Vector Byte n)
    (ho : off = front.length) : bytesAt n (front ++ v.toList ++ back) off = v := by
  subst ho
  ext i hi
  rw [bytesAt, Vector.getElem_ofFn, List.getD_eq_getElem?_getD, List.append_assoc,
    List.getElem?_append_right (Nat.le_add_right _ _), Nat.add_sub_cancel_left,
    List.getElem?_append_left (by simpa using hi)]
  simp [hi]

theorem read_triggerEffect (c : TriggerEffectCommand) :
    readFields c.asPacket .setTriggerEffect = some (.feedback (.triggerEffect c)) := by
  have hpacket := triggerEffect_packet c
  rw [← List.append_assoc, ← List.append_assoc, ← List.append_assoc] at hpacket
  have hleft : bytesAt 10 c.asPacket 9 = c.left := by
    rw [hpacket]
    exact bytesAt_middle c.left (by simp)
  have hright : bytesAt 10 c.asPacket 19 = c.right := by
    rw [hpacket, ← List.append_nil (_ ++ c.right.toList)]
    exact bytesAt_middle c.right (by simp)
  have hid : u16At c.asPacket 4 = c.id := by
    rw [hpacket]
    exact u16_leBytes c.id
  have hflags : c.asPacket.getD 6 0 = c.triggerEventFlags := by
    rw [hpacket]
    rfl
  have htypeLeft : c.asPacket.getD 7 0 = c.typeLeft := by
    rw [hpacket]
    rfl
  have htypeRight : c.asPacket.getD 8 0 = c.typeRight := by
    rw [hpacket]
    rfl
  rw [readFields, hid, hflags, htypeLeft, htypeRight, hleft, hright]

theorem saturate_eq (x : UInt32) : saturate x = UInt16.ofNat (min x.toNat 65535) := by
  show (if x ≤ 65535 then x else 65535).toUInt16 = _
  split
  next h =>
    have h' : x.toNat ≤ 65535 := UInt32.le_iff_toNat_le.mp h
    rw [Nat.min_eq_left h']
    rfl
  next h =>
    have h' : ¬ x.toNat ≤ 65535 := fun hle => h (UInt32.le_iff_toNat_le.mpr hle)
    rw [Nat.min_eq_right (by omega)]
    rfl

theorem vector_three {α : Type*} (v : Vector α 3) : v = #v[v.get 0, v.get 1, v.get 2] := by
  ext i hi
  rcases i with _ | _ | _ | i
  · rfl
  · rfl
  · rfl
  · omega

theorem u16At_skip (b : Byte) (p : List Byte) (o : Nat) : u16At (b :: p) (o + 1) = u16At p o := rfl

theorem u16At_leBytes (x : UInt16) (p : List Byte) : u16At (leBytes 2 x.toNat ++ p) 0 = x := u16_leBytes x

theorem u16At_after (n : Nat) (p : List Byte) (o : Nat) : u16At (leBytes 2 n ++ p) (o + 2) = u16At p o := rfl

theorem read_hdrMode (enabled : Bool) (metadata : Option HdrMetadata) :
    readFields (buildHdrModePayload enabled metadata) .hdrMode =
      some (.hdrMode enabled (HdrFields.ofMetadata metadata)) := by
  have henabled : ((buildHdrModePayload enabled metadata).getD 4 0 == 1) = enabled := by
    cases enabled <;> rfl
  rw [readFields, henabled]
  match metadata with
  | none => rfl
  | some ⟨primaries, white, maxLuminance, minLuminance, maxCll, maxFall⟩ =>
    obtain ⟨red, green, blue, rfl⟩ : ∃ red green blue, primaries = #v[red, green, blue] :=
      ⟨_, _, _, vector_three primaries⟩
    generalize hp : buildHdrModePayload enabled
      (some ⟨#v[red, green, blue], white, maxLuminance, minLuminance, maxCll, maxFall⟩) = p
    simp only [buildHdrModePayload, hdrMetadataBytes, Vector.toList_mk, List.flatMap_cons, List.flatMap_nil,
      List.append_nil, List.append_assoc, List.cons_append, List.nil_append] at hp
    have hred : (u16At p 5, u16At p 7) = red := by
      rw [← hp]
      simp only [u16At_after, u16At_skip, u16At_leBytes]
    have hgreen : (u16At p 9, u16At p 11) = green := by
      rw [← hp]
      simp only [u16At_after, u16At_skip, u16At_leBytes]
    have hblue : (u16At p 13, u16At p 15) = blue := by
      rw [← hp]
      simp only [u16At_after, u16At_skip, u16At_leBytes]
    have hwhite : (u16At p 17, u16At p 19) = white := by
      rw [← hp]
      simp only [u16At_after, u16At_skip, u16At_leBytes]
    have hmax : u16At p 21 = UInt16.ofNat (min (maxLuminance.toNat / 10000) 65535) := by
      rw [← hp, show maxLuminance.toNat / 10000 = (maxLuminance / 10000).toNat from rfl, ← saturate_eq]
      simp only [u16At_after, u16At_skip, u16At_leBytes]
    have hmin : u16At p 23 = UInt16.ofNat (min minLuminance.toNat 65535) := by
      rw [← hp, ← saturate_eq]
      simp only [u16At_after, u16At_skip, u16At_leBytes]
    have hcll : u16At p 25 = maxCll := by
      rw [← hp]
      simp only [u16At_after, u16At_skip, u16At_leBytes]
    have hfall : u16At p 27 = maxFall := by
      rw [← hp]
      simp only [u16At_after, u16At_skip, u16At_leBytes]
    have hprimaries : Vector.ofFn (fun i : Fin 3 => (u16At p (5 + 4 * i), u16At p (7 + 4 * i))) =
        #v[red, green, blue] := by
      rw [← hred, ← hgreen, ← hblue]
      rfl
    rw [hprimaries, hwhite, hmax, hmin, hcll, hfall]
    rfl

theorem read_termination (errorCode : UInt32) :
    readFields (buildTerminationPayload errorCode) .terminationExtended = some (.termination errorCode) := by
  have hcode : slice (buildTerminationPayload errorCode) 4 4 = beBytes 4 errorCode.toNat := rfl
  rw [readFields, hcode, u32_beBytes]

/-- A payload is a message of the type it was built for. -/
theorem fromBytes_payload (m : HostMessage) : ControlMessage.fromBytes m.payload = .ok m.message := by
  match m with
  | .feedback (.rumble c) =>
    rw [HostMessage.payload, FeedbackCommand.asPacket, rumble_packet,
      fromBytes_of_framed (framed_of_split rfl)]
    rfl
  | .feedback (.setLed c) =>
    rw [HostMessage.payload, FeedbackCommand.asPacket, setLed_packet,
      fromBytes_of_framed (framed_of_split rfl)]
    rfl
  | .feedback (.enableMotionEvent c) =>
    rw [HostMessage.payload, FeedbackCommand.asPacket, enableMotionEvent_packet,
      fromBytes_of_framed (framed_of_split rfl)]
    rfl
  | .feedback (.triggerEffect c) =>
    rw [HostMessage.payload, FeedbackCommand.asPacket, triggerEffect_packet,
      fromBytes_of_framed (framed_of_split (by simp))]
    rfl
  | .hdrMode enabled metadata =>
    have hlength : ([if enabled then 1 else 0] ++ hdrMetadataBytes metadata).length = 31 := by
      rw [List.length_append, length_hdrMetadataBytes, List.length_singleton]
    rw [HostMessage.payload, hdrMode_payload, fromBytes_of_framed (framed_of_split hlength)]
    rfl
  | .termination errorCode =>
    have hbody : buildTerminationPayload errorCode =
        leBytes 2 ControlMessageType.terminationExtended.toU16.toNat ++ leBytes 2 (4 : UInt16).toNat ++
          beBytes 4 errorCode.toNat := rfl
    rw [HostMessage.payload, hbody, fromBytes_of_framed (framed_of_split (by simp))]
    rfl

theorem read_payload (m : HostMessage) : readFields m.payload m.message = some m.fields := by
  match m with
  | .feedback (.rumble c) => exact read_rumble c
  | .feedback (.setLed c) => exact read_setLed c
  | .feedback (.enableMotionEvent c) => exact read_enableMotionEvent c
  | .feedback (.triggerEffect c) => exact read_triggerEffect c
  | .hdrMode enabled metadata => exact read_hdrMode enabled metadata
  | .termination errorCode => exact read_termination errorCode

theorem length_payload (m : HostMessage) : 4 ≤ m.payload.length ∧ m.payload.length ≤ 35 := by
  match m with
  | .feedback (.rumble c) =>
    have h : c.asPacket.length = 14 := rfl
    show 4 ≤ c.asPacket.length ∧ c.asPacket.length ≤ 35
    omega
  | .feedback (.setLed c) =>
    have h : c.asPacket.length = 9 := rfl
    show 4 ≤ c.asPacket.length ∧ c.asPacket.length ≤ 35
    omega
  | .feedback (.enableMotionEvent c) =>
    have h : c.asPacket.length = 9 := rfl
    show 4 ≤ c.asPacket.length ∧ c.asPacket.length ≤ 35
    omega
  | .feedback (.triggerEffect c) =>
    have h : c.asPacket.length = 29 := by simp [triggerEffect_packet]
    show 4 ≤ c.asPacket.length ∧ c.asPacket.length ≤ 35
    omega
  | .hdrMode enabled metadata =>
    have h : (buildHdrModePayload enabled metadata).length = 35 := by
      simp [hdrMode_payload, length_hdrMetadataBytes]
    show 4 ≤ (buildHdrModePayload enabled metadata).length ∧ _
    exact ⟨by omega, Nat.le_of_eq h⟩
  | .termination errorCode =>
    have h : (buildTerminationPayload errorCode).length = 8 := rfl
    show 4 ≤ (buildTerminationPayload errorCode).length ∧ (buildTerminationPayload errorCode).length ≤ 35
    omega

/-! ## The round trip -/

/-- Whatever the key and the sequence number: a payload of 4 to 65515 bytes
comes back out of the encrypted message, and the payloads that the host builds
are messages of their type, with the fields that were put in. -/
theorem control_round_trip {g : Aes128Gcm} (hg : Encrypts g) {key : List Byte} (hkey : key.length = 16)
    (sequenceNumber : UInt32) :
    (∀ payload : List Byte, 4 ≤ payload.length → payload.length ≤ 65515 →
      RoundTrips g key sequenceNumber payload) ∧
    ∀ m : HostMessage, RoundTrips g key sequenceNumber m.payload ∧
      ControlMessage.fromBytes m.payload = .ok m.message ∧ readFields m.payload m.message = some m.fields := by
  refine ⟨fun payload => roundTrips_of_length hg hkey sequenceNumber, fun m => ?_⟩
  obtain ⟨hmin, hmax⟩ := length_payload m
  exact ⟨roundTrips_of_length hg hkey sequenceNumber hmin (by omega), fromBytes_payload m, read_payload m⟩

/-- A key, and the termination message encrypted under it with the sequence number 0. -/
def recordedKey : List Byte := [0, 1, 2, 3, 4, 5, 6, 7, 8, 9, 10, 11, 12, 13, 14, 15]

def recordedCiphertext : List Byte := [242, 221, 78, 218, 207, 59, 232, 1]

def recordedTag : List Byte :=
  [184, 53, 162, 184, 172, 232, 87, 221, 203, 173, 56, 93, 206, 22, 106, 169]

/-- The cipher on the recorded encryption; it leaves any other buffer as it is. -/
def recordedCipher : Aes128Gcm where
  encryptInPlaceDetached key nonce buffer :=
    if key = recordedKey ∧ nonce = hostIv 0 ∧ buffer = buildTerminationPayload 0x80030023 then
      some (recordedCiphertext, recordedTag)
    else some (buffer, List.replicate 16 0)
  decryptInPlaceDetached key nonce buffer tag :=
    if key = recordedKey ∧ nonce = hostIv 0 ∧ buffer = recordedCiphertext ∧ tag = recordedTag then
      some (buildTerminationPayload 0x80030023)
    else some buffer
  encrypt_length := by
    intro key nonce buffer out h
    split at h <;> cases h
    next hc => rw [hc.2.2]; exact ⟨rfl, rfl⟩
    · exact ⟨rfl, List.length_replicate⟩
  decrypt_encrypt := by
    intro key nonce buffer out h
    split at h <;> cases h
    next hc => rw [if_pos ⟨hc.1, hc.2.1, rfl, rfl⟩, hc.2.2]
    · refine if_neg fun hc => ?_
      have htag : List.replicate 16 0 = recordedTag := hc.2.2.2
      exact absurd htag (by decide)

theorem recordedCipher_encrypts : Encrypts recordedCipher := by
  intro key nonce buffer _ _ _
  show (if _ then _ else _ : Option (List Byte × List Byte)).isSome
  split <;> rfl

theorem control_round_trip_termination :
    RoundTrips recordedCipher recordedKey 0 (buildTerminationPayload 0x80030023) ∧
      ControlMessage.fromBytes (buildTerminationPayload 0x80030023) = .ok .terminationExtended ∧
      readFields (buildTerminationPayload 0x80030023) .terminationExtended =
        some (.termination 0x80030023) :=
  (control_round_trip recordedCipher_encrypts rfl 0).2 (.termination 0x80030023)

/-- Metadata that differs in less than one cd/m² of the maximum luminance. -/
def dimMetadata (maxLuminance : UInt32) : HdrMetadata :=
  { HdrMetadata.fallback with maxLuminance }

/-- No reader of the payload finds the maximum luminance that was put in. -/
theorem hdrMetadata_not_readable :
    ¬ ∃ read : List Byte → Option HdrMetadata, ∀ m, read (buildHdrModePayload true (some m)) = some m := by
  rintro ⟨read, hread⟩
  have h : buildHdrModePayload true (some (dimMetadata 0)) =
      buildHdrModePayload true (some (dimMetadata 1)) := by decide
  have hsame := (hread (dimMetadata 0)).symm.trans ((congrArg read h).trans (hread (dimMetadata 1)))
  exact absurd hsame (by decide)

end Moonshine.Proof.Control
