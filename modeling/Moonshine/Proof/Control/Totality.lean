import Moonshine.Impl.Control.Loop

/-!
# Which datagrams panic

The parsers of the input events check the size they read up to, so none of them
panics (`inputEvent_ne_panic`). `ControlMessage::from_bytes` reads four bytes of
an `InputData` message it never asked for, and the loop takes for granted that
what it decrypts is not itself encrypted: `receive_ne_panic_iff` says that these
two are all there is.
-/

namespace Moonshine.Proof.Control

open Moonshine.Framework Moonshine.Impl Moonshine.Impl.Control

section Words

variable {buffer : List Byte}

theorem byteAt_ne_panic {i : Nat} (h : i < buffer.length) : byteAt buffer i ≠ .panic := by
  rw [byteAt, List.getElem?_eq_getElem h]
  simp

theorem readAt_ne_panic {off n : Nat} (h : off + n ≤ buffer.length) : readAt buffer off n ≠ .panic := by
  rw [readAt_of_le h]
  simp

theorem le16At_eq {off : Nat} (h : off + 2 ≤ buffer.length) :
    le16At buffer off = .ok (UInt16.ofNat (ofLe (slice buffer off 2))) := by
  rw [le16At, readAt_of_le h]
  rfl

theorem le32At_eq {off : Nat} (h : off + 4 ≤ buffer.length) :
    le32At buffer off = .ok (UInt32.ofNat (ofLe (slice buffer off 4))) := by
  rw [le32At, readAt_of_le h]
  rfl

theorem le16At_ne_panic {off : Nat} (h : off + 2 ≤ buffer.length) : le16At buffer off ≠ .panic := by
  rw [le16At_eq h]
  simp

theorem le32At_ne_panic {off : Nat} (h : off + 4 ≤ buffer.length) : le32At buffer off ≠ .panic := by
  rw [le32At_eq h]
  simp

theorem leI16At_ne_panic {off : Nat} (h : off + 2 ≤ buffer.length) : leI16At buffer off ≠ .panic :=
  Outcome.bind_ne_panic (le16At_ne_panic h) (by simp)

theorem beI16At_ne_panic {off : Nat} (h : off + 2 ≤ buffer.length) : beI16At buffer off ≠ .panic :=
  Outcome.bind_ne_panic (readAt_ne_panic h) (by simp)

/-- A sized parser only has to be right about buffers of its size. -/
theorem sized_ne_panic {α : Type} {n : Nat} {parse : Outcome α}
    (h : n ≤ buffer.length → parse ≠ .panic) : sized n buffer parse ≠ .panic := by
  unfold sized
  split
  · simp
  · exact h (by omega)

end Words

section Events

open Outcome (bind_ne_panic ofOption_ne_panic)

variable (buffer : List Byte)

theorem key_ne_panic : Key.fromBytes buffer ≠ .panic := by
  refine sized_ne_panic fun h => bind_ne_panic (le16At_ne_panic (by omega)) fun wireKeycode _ => ?_
  dsimp only
  split
  · simp
  · exact ofOption_ne_panic _

theorem mouseMoveAbsolute_ne_panic : MouseMoveAbsolute.fromBytes buffer ≠ .panic := by
  refine sized_ne_panic fun h => ?_
  refine bind_ne_panic (beI16At_ne_panic (by omega)) fun x _ => ?_
  refine bind_ne_panic (beI16At_ne_panic (by omega)) fun y _ => ?_
  refine bind_ne_panic (beI16At_ne_panic (by omega)) fun width _ => ?_
  exact bind_ne_panic (beI16At_ne_panic (by omega)) (by simp)

theorem mouseMoveRelative_ne_panic : MouseMoveRelative.fromBytes buffer ≠ .panic := by
  refine sized_ne_panic fun h => ?_
  refine bind_ne_panic (beI16At_ne_panic (by omega)) fun x _ => ?_
  exact bind_ne_panic (beI16At_ne_panic (by omega)) (by simp)

theorem mouseButton_ne_panic : MouseButton.fromBytes buffer ≠ .panic :=
  sized_ne_panic fun h => bind_ne_panic (byteAt_ne_panic (by omega)) fun _ _ => ofOption_ne_panic _

theorem mouseScrollVertical_ne_panic : MouseScrollVertical.fromBytes buffer ≠ .panic :=
  sized_ne_panic fun h => bind_ne_panic (beI16At_ne_panic (by omega)) (by simp)

theorem mouseScrollHorizontal_ne_panic : MouseScrollHorizontal.fromBytes buffer ≠ .panic :=
  sized_ne_panic fun h => bind_ne_panic (beI16At_ne_panic (by omega)) (by simp)

theorem touch_ne_panic : Touch.fromBytes buffer ≠ .panic := by
  refine sized_ne_panic fun h => ?_
  unfold pointerPayloadSize at h
  refine bind_ne_panic (byteAt_ne_panic (by omega)) fun kind _ => ?_
  refine bind_ne_panic (ofOption_ne_panic _) fun eventKind _ => ?_
  refine bind_ne_panic (le32At_ne_panic (by omega)) fun x _ => ?_
  refine bind_ne_panic (le32At_ne_panic (by omega)) fun y _ => ?_
  split
  · simp
  · exact bind_ne_panic (le32At_ne_panic (by omega)) (by simp)

theorem pen_ne_panic : Pen.fromBytes buffer ≠ .panic := by
  refine sized_ne_panic fun h => ?_
  unfold pointerPayloadSize at h
  refine bind_ne_panic (byteAt_ne_panic (by omega)) fun kind _ => ?_
  refine bind_ne_panic (ofOption_ne_panic _) fun eventKind _ => ?_
  refine bind_ne_panic (byteAt_ne_panic (by omega)) fun tool _ => ?_
  refine bind_ne_panic (ofOption_ne_panic _) fun toolKind _ => ?_
  refine bind_ne_panic (le32At_ne_panic (by omega)) fun x _ => ?_
  refine bind_ne_panic (le32At_ne_panic (by omega)) fun y _ => ?_
  refine bind_ne_panic (le32At_ne_panic (by omega)) fun pressure _ => ?_
  split
  · simp
  · refine bind_ne_panic (byteAt_ne_panic (by omega)) fun buttons _ => ?_
    refine bind_ne_panic (le16At_ne_panic (by omega)) fun rotation _ => ?_
    exact bind_ne_panic (byteAt_ne_panic (by omega)) (by simp)

theorem gamepadInfo_ne_panic : GamepadInfo.fromBytes buffer ≠ .panic := by
  refine sized_ne_panic fun h => ?_
  refine bind_ne_panic (byteAt_ne_panic (by omega)) fun index _ => ?_
  refine bind_ne_panic (byteAt_ne_panic (by omega)) fun kind _ => ?_
  refine bind_ne_panic (ofOption_ne_panic _) fun gamepadKind _ => ?_
  refine bind_ne_panic (le16At_ne_panic (by omega)) fun capabilities _ => ?_
  exact bind_ne_panic (le32At_ne_panic (by omega)) (by simp)

theorem gamepadTouch_ne_panic : GamepadTouch.fromBytes buffer ≠ .panic := by
  refine sized_ne_panic fun h => ?_
  refine bind_ne_panic (byteAt_ne_panic (by omega)) fun index _ => ?_
  refine bind_ne_panic (byteAt_ne_panic (by omega)) fun eventType _ => ?_
  refine bind_ne_panic (le32At_ne_panic (by omega)) fun pointerId _ => ?_
  refine bind_ne_panic (le32At_ne_panic (by omega)) fun x _ => ?_
  refine bind_ne_panic (le32At_ne_panic (by omega)) fun y _ => ?_
  exact bind_ne_panic (le32At_ne_panic (by omega)) (by simp)

theorem gamepadUpdate_ne_panic : GamepadUpdate.fromBytes buffer ≠ .panic := by
  refine sized_ne_panic fun h => ?_
  refine bind_ne_panic (le16At_ne_panic (by omega)) fun index _ => ?_
  refine bind_ne_panic (le16At_ne_panic (by omega)) fun mask _ => ?_
  refine bind_ne_panic (le16At_ne_panic (by omega)) fun low _ => ?_
  refine bind_ne_panic (le16At_ne_panic (by omega)) fun high _ => ?_
  refine bind_ne_panic (byteAt_ne_panic (by omega)) fun leftTrigger _ => ?_
  refine bind_ne_panic (byteAt_ne_panic (by omega)) fun rightTrigger _ => ?_
  refine bind_ne_panic (leI16At_ne_panic (by omega)) fun leftX _ => ?_
  refine bind_ne_panic (leI16At_ne_panic (by omega)) fun leftY _ => ?_
  refine bind_ne_panic (leI16At_ne_panic (by omega)) fun rightX _ => ?_
  exact bind_ne_panic (leI16At_ne_panic (by omega)) (by simp)

theorem gamepadMotion_ne_panic : GamepadMotion.fromBytes buffer ≠ .panic := by
  refine sized_ne_panic fun h => ?_
  refine bind_ne_panic (byteAt_ne_panic (by omega)) fun index _ => ?_
  refine bind_ne_panic (byteAt_ne_panic (by omega)) fun kind _ => ?_
  refine bind_ne_panic (ofOption_ne_panic _) fun motionType _ => ?_
  refine bind_ne_panic (le32At_ne_panic (by omega)) fun x _ => ?_
  refine bind_ne_panic (le32At_ne_panic (by omega)) fun y _ => ?_
  exact bind_ne_panic (le32At_ne_panic (by omega)) (by simp)

theorem gamepadBattery_ne_panic : GamepadBattery.fromBytes buffer ≠ .panic := by
  refine sized_ne_panic fun h => ?_
  refine bind_ne_panic (byteAt_ne_panic (by omega)) fun index _ => ?_
  refine bind_ne_panic (byteAt_ne_panic (by omega)) fun state _ => ?_
  refine bind_ne_panic (ofOption_ne_panic _) fun batteryState _ => ?_
  exact bind_ne_panic (byteAt_ne_panic (by omega)) (by simp)

/-- `InputEvent::from_bytes` returns on every byte string. -/
theorem inputEvent_ne_panic : InputEvent.fromBytes buffer ≠ .panic := by
  unfold InputEvent.fromBytes
  split
  · simp
  refine bind_ne_panic (le32At_ne_panic (by omega)) fun eventType _ => ?_
  refine bind_ne_panic (readAt_ne_panic (by omega)) fun rest _ => ?_
  split
  · exact bind_ne_panic (key_ne_panic rest) (by simp)
  · exact bind_ne_panic (key_ne_panic rest) (by simp)
  · exact bind_ne_panic (mouseMoveAbsolute_ne_panic rest) (by simp)
  · exact bind_ne_panic (mouseMoveRelative_ne_panic rest) (by simp)
  · exact bind_ne_panic (mouseButton_ne_panic rest) (by simp)
  · exact bind_ne_panic (mouseButton_ne_panic rest) (by simp)
  · exact bind_ne_panic (mouseScrollVertical_ne_panic rest) (by simp)
  · exact bind_ne_panic (mouseScrollHorizontal_ne_panic rest) (by simp)
  · exact bind_ne_panic (touch_ne_panic rest) (by simp)
  · exact bind_ne_panic (pen_ne_panic rest) (by simp)
  · exact bind_ne_panic (gamepadInfo_ne_panic rest) (by simp)
  · exact bind_ne_panic (gamepadTouch_ne_panic rest) (by simp)
  · exact bind_ne_panic (gamepadMotion_ne_panic rest) (by simp)
  · exact bind_ne_panic (gamepadBattery_ne_panic rest) (by simp)
  · exact bind_ne_panic (gamepadUpdate_ne_panic rest) (by simp)
  · simp
  · refine bind_ne_panic (ofOption_ne_panic _) fun text _ => ?_
    split <;> simp
  · simp

end Events

/-- The two words every control message starts with. -/
structure Framed (t : ControlMessageType) (buffer : List Byte) : Prop where
  header : 4 ≤ buffer.length
  length : (UInt16.ofNat (ofLe (slice buffer 2 2))).toNat = buffer.length - 4
  type : UInt16.ofNat (ofLe (slice buffer 0 2)) = t.toU16

instance (t : ControlMessageType) (buffer : List Byte) : Decidable (Framed t buffer) :=
  decidable_of_iff (4 ≤ buffer.length ∧ _ ∧ _) ⟨fun h => ⟨h.1, h.2.1, h.2.2⟩, fun h => ⟨h.1, h.2, h.3⟩⟩

/-- An `InputData` message that ends before the length of its event does. -/
def ShortInput (buffer : List Byte) : Prop := Framed .inputData buffer ∧ buffer.length < 8

/-- An `Encrypted` message that is long enough. -/
def EncryptedDatagram (buffer : List Byte) : Prop := Framed .encrypted buffer ∧ 28 ≤ buffer.length

/-- The fields of an `Encrypted` message, where they lie. -/
def encryptedFields (buffer : List Byte) : EncryptedControlMessage where
  length := UInt16.ofNat (ofLe (slice buffer 2 2))
  sequenceNumber := UInt32.ofNat (ofLe (slice buffer 4 4))
  tag := slice buffer 8 16
  payload := slice buffer 24 (buffer.length - 24)

theorem tryFrom_eq_some {v : UInt16} {t : ControlMessageType} :
    ControlMessageType.tryFrom v = some t ↔ v = t.toU16 := by
  constructor
  · intro h
    simpa using List.find?_some h
  · rintro rfl
    cases t <;> decide

variable {buffer : List Byte}

/-- `from_bytes` is an error, or the arm of the type that the first word names. -/
theorem fromBytes_of_framed {t : ControlMessageType} (h : Framed t buffer) :
    ControlMessage.fromBytes buffer = ControlMessage.parse buffer t := by
  obtain ⟨hlen, hl, ht⟩ := h
  rw [ControlMessage.fromBytes, if_neg (by omega), le16At_eq (by omega), le16At_eq (by omega)]
  simp only [Outcome.ok_bind]
  rw [if_neg (by rw [hl]; simp), tryFrom_eq_some.mpr ht]
  rfl

theorem fromBytes_of_not_framed (h : ∀ t, ¬Framed t buffer) : ControlMessage.fromBytes buffer = .err := by
  unfold ControlMessage.fromBytes
  split
  · rfl
  rename_i hlen
  rw [le16At_eq (by omega), le16At_eq (by omega)]
  simp only [Outcome.ok_bind]
  split
  · rfl
  rename_i hl
  cases ht : ControlMessageType.tryFrom (UInt16.ofNat (ofLe (slice buffer 0 2))) with
  | none => rfl
  | some t => exact absurd ⟨by omega, not_not.mp hl, tryFrom_eq_some.mp ht⟩ (h t)

theorem Framed.unique {t u : ControlMessageType} (h : Framed t buffer) (h' : Framed u buffer) : t = u := by
  have ht := tryFrom_eq_some.mpr h.type
  rw [tryFrom_eq_some.mpr h'.type] at ht
  exact (Option.some.inj ht).symm

theorem parseEncrypted_of_framed (h : Framed .encrypted buffer) :
    parseEncrypted buffer =
      if 28 ≤ buffer.length then .ok (.encrypted (encryptedFields buffer)) else .err := by
  have hmin : minimumEncryptedLength = 24 := rfl
  have htag : encryptionTagLength = 16 := rfl
  have hlen := h.length
  have hheader := h.header
  unfold parseEncrypted
  rw [le16At_eq (by omega)]
  by_cases hlong : 28 ≤ buffer.length
  · rw [if_pos hlong, if_neg (by omega), Outcome.ok_bind, if_neg (by omega), le32At_eq (by omega),
      readAt_of_le (by omega), readAt_of_le (by omega)]
    rfl
  · rw [if_neg hlong]
    split
    · rfl
    · rw [Outcome.ok_bind, if_pos (by omega)]

theorem parseInputData_eq_panic : parseInputData buffer = .panic ↔ buffer.length < 8 := by
  unfold parseInputData be32At
  by_cases hlen : 8 ≤ buffer.length
  · rw [readAt_of_le (by omega), readAt_of_le (by omega)]
    simp only [Outcome.ok_bind, Outcome.pure_eq]
    split <;> simp <;> omega
  · rw [readAt_of_lt (by omega)]
    simp only [Outcome.panic_bind, true_iff]
    omega

theorem parseInvalidateReferenceFrames_ne_panic : parseInvalidateReferenceFrames buffer ≠ .panic := by
  unfold parseInvalidateReferenceFrames
  split
  · refine Outcome.bind_ne_panic (le32At_ne_panic (by omega)) fun first _ => ?_
    exact Outcome.bind_ne_panic (le32At_ne_panic (by omega)) (by simp)
  · simp

/-- The one arm that panics is that of `InputData`. -/
theorem parse_eq_panic {t : ControlMessageType} (h : Framed t buffer) :
    ControlMessage.parse buffer t = .panic ↔ t = .inputData ∧ buffer.length < 8 := by
  cases t with
  | encrypted =>
    rw [ControlMessage.parse, parseEncrypted_of_framed h]
    split <;> simp
  | inputData => simp [ControlMessage.parse, parseInputData_eq_panic]
  | invalidateReferenceFrames =>
    simp [ControlMessage.parse, parseInvalidateReferenceFrames_ne_panic]
  | _ => simp [ControlMessage.parse]

theorem fromBytes_eq_panic : ControlMessage.fromBytes buffer = .panic ↔ ShortInput buffer := by
  by_cases h : ∃ t, Framed t buffer
  · obtain ⟨t, ht⟩ := h
    rw [fromBytes_of_framed ht, parse_eq_panic ht]
    constructor
    · rintro ⟨rfl, hshort⟩
      exact ⟨ht, hshort⟩
    · rintro ⟨hin, hshort⟩
      exact ⟨ht.unique hin, hshort⟩
  · rw [fromBytes_of_not_framed (not_exists.mp h)]
    exact ⟨fun h => (by cases h), fun hs => absurd ⟨_, hs.1⟩ h⟩

theorem parse_eq_encrypted {t : ControlMessageType} {m : EncryptedControlMessage}
    (h : ControlMessage.parse buffer t = .ok (.encrypted m)) : t = .encrypted := by
  cases t with
  | encrypted => rfl
  | inputData =>
    obtain ⟨length, -, h⟩ := Outcome.bind_eq_ok.mp (show parseInputData buffer = _ from h)
    split at h
    · cases h
    · obtain ⟨event, -, h⟩ := Outcome.bind_eq_ok.mp h
      cases h
  | invalidateReferenceFrames =>
    rw [ControlMessage.parse, parseInvalidateReferenceFrames] at h
    split at h
    · obtain ⟨first, -, h⟩ := Outcome.bind_eq_ok.mp h
      obtain ⟨last, -, h⟩ := Outcome.bind_eq_ok.mp h
      cases h
    · cases h
  | _ => cases h

/-- What parses to an `Encrypted` message. -/
theorem fromBytes_eq_encrypted {m : EncryptedControlMessage} :
    ControlMessage.fromBytes buffer = .ok (.encrypted m) ↔
      EncryptedDatagram buffer ∧ m = encryptedFields buffer := by
  by_cases h : ∃ t, Framed t buffer
  · obtain ⟨t, ht⟩ := h
    rw [fromBytes_of_framed ht]
    by_cases henc : t = .encrypted
    · subst henc
      rw [ControlMessage.parse, parseEncrypted_of_framed ht, EncryptedDatagram]
      by_cases hlong : 28 ≤ buffer.length <;> simp [hlong, ht, eq_comm]
    · have hne : ¬EncryptedDatagram buffer := fun he => henc (ht.unique he.1)
      simp only [hne, false_and, iff_false]
      exact fun hp => henc (parse_eq_encrypted hp)
  · rw [fromBytes_of_not_framed (not_exists.mp h)]
    exact ⟨fun h => (by cases h), fun he => absurd ⟨_, he.1.1⟩ h⟩

theorem handleRawInput_ne_panic (event : List Byte) (l : Loop) : (handleRawInput event l).1 ≠ .panic := by
  unfold handleRawInput
  cases he : InputEvent.fromBytes event with
  | ok e => simp [effect]
  | err => simp
  | panic => exact absurd he (inputEvent_ne_panic event)

/-- The `unreachable!` of the second `match` is its only panic. -/
theorem handle_eq_panic {hdr : Bool} {m : ControlMessage} {l : Loop} :
    (handle hdr m l).1 = .panic ↔ ∃ e, m = .encrypted e := by
  cases m with
  | encrypted e => simp [handle]
  | inputData event => simpa [handle] using handleRawInput_ne_panic event l
  | startB =>
    simp only [handle, startStreams, reduceCtorEq, exists_false, iff_false]
    by_cases ha : l.audioTriggered <;> simp [effect, ha]
  | _ => simp [handle, effect]

/-- What the loop does with a datagram that is not encrypted. -/
theorem receive_plain {hdr : Bool} {decrypt : EncryptedControlMessage → Outcome (List Byte)}
    {packet : List Byte} {m : ControlMessage} (h : ControlMessage.fromBytes packet = .ok m)
    (hm : ∀ e, m ≠ .encrypted e) :
    receive hdr decrypt packet = (do handle hdr m; return .fallThrough) := by
  unfold receive
  rw [h]
  cases m with
  | encrypted e => exact absurd rfl (hm e)
  | _ => rfl

theorem handle_then_eq_panic {hdr : Bool} {m : ControlMessage} {l : Loop} :
    ((do handle hdr m; return Flow.fallThrough : Prog Loop Flow) l).1 = .panic ↔
      ∃ e, m = .encrypted e := by
  rw [Prog.bind_eq_panic, handle_eq_panic]
  simp

/-- What it does with one that is. -/
theorem receive_encrypted_ne_panic {hdr : Bool} {decrypt : EncryptedControlMessage → Option (List Byte)}
    {packet : List Byte} {e : EncryptedControlMessage} {l : Loop}
    (h : ControlMessage.fromBytes packet = .ok (.encrypted e)) :
    (receive hdr (fun m => Outcome.ofOption (decrypt m)) packet l).1 ≠ .panic ↔
      ∀ decrypted, decrypt e = some decrypted →
        ¬ShortInput decrypted ∧ ¬EncryptedDatagram decrypted := by
  unfold receive
  rw [h]
  dsimp only
  cases hd : decrypt e with
  | none => simp
  | some d =>
    simp only [Outcome.ofOption_some, Option.some.injEq, forall_eq']
    rw [← fromBytes_eq_panic]
    have henc : EncryptedDatagram d ↔ ∃ e, ControlMessage.fromBytes d = .ok (.encrypted e) := by
      simp [fromBytes_eq_encrypted]
    rw [henc]
    rcases ControlMessage.fromBytes d with m | _ | _
    · simp only [Ne, handle_then_eq_panic, Outcome.ok.injEq]
      simp
    · simp
    · simp

/-- The parsers of the control stream never panic, except that `from_bytes` does
on a short `InputData` message and the loop on one that an encrypted message
decrypts to, or on an encrypted message inside another. -/
theorem receive_ne_panic_iff (hdr : Bool) (decrypt : EncryptedControlMessage → Option (List Byte))
    (packet : List Byte) (l : Loop) :
    (∀ event, InputEvent.fromBytes event ≠ .panic) ∧
      (ControlMessage.fromBytes packet ≠ .panic ↔ ¬ShortInput packet) ∧
      ((receive hdr (fun m => Outcome.ofOption (decrypt m)) packet l).1 ≠ .panic ↔
        ¬ShortInput packet ∧ ∀ decrypted, EncryptedDatagram packet →
          decrypt (encryptedFields packet) = some decrypted →
            ¬ShortInput decrypted ∧ ¬EncryptedDatagram decrypted) := by
  refine ⟨inputEvent_ne_panic, not_congr fromBytes_eq_panic, ?_⟩
  rcases hp : ControlMessage.fromBytes packet with m | _ | _
  · have hs : ¬ShortInput packet := fun hs => by
      rw [fromBytes_eq_panic.mpr hs] at hp
      cases hp
    by_cases henc : ∃ e, m = .encrypted e
    · obtain ⟨e, rfl⟩ := henc
      obtain ⟨hd, rfl⟩ := fromBytes_eq_encrypted.mp hp
      rw [receive_encrypted_ne_panic hp]
      exact ⟨fun h => ⟨hs, fun d _ hdec => h d hdec⟩, fun h d => h.2 d hd⟩
    · have hd : ¬EncryptedDatagram packet := fun hd => by
        rw [fromBytes_eq_encrypted.mpr ⟨hd, rfl⟩] at hp
        exact henc ⟨_, (Outcome.ok.inj hp).symm⟩
      rw [receive_plain hp (not_exists.mp henc), Ne, handle_then_eq_panic]
      simp [henc, hs, hd]
  · have hs : ¬ShortInput packet := fun hs => by
      rw [fromBytes_eq_panic.mpr hs] at hp
      cases hp
    have hd : ¬EncryptedDatagram packet := fun hd => by
      rw [fromBytes_eq_encrypted.mpr ⟨hd, rfl⟩] at hp
      cases hp
    simp [receive, hp, hs, hd]
  · simp [receive, hp, fromBytes_eq_panic.mp hp]

/-- Four bytes are enough to stop the control thread. -/
theorem fromBytes_of_bare_header :
    ControlMessage.fromBytes [0x06, 0x02, 0x00, 0x00] = .panic ∧
      (receive false (fun _ => .err) [0x06, 0x02, 0x00, 0x00] Loop.start).1 = .panic := by
  decide

end Moonshine.Proof.Control
