import Moonshine.Impl.Session.Negotiation
import Moonshine.Proof.Audio.FecBlocks
import Moonshine.Proof.Control.Authenticity
import Moonshine.Proof.Video.Reassembly

/-!
# Keys that a request can bring

`launch` and `resume` take a key of any length. Four places of a session then
encrypt or decrypt with it (`KeyUse`); `neverPanics_iff` says which requests
bring a key with which none of them panics.
-/

namespace Moonshine.Proof.KeyLength

open Moonshine.Framework Moonshine.Impl Moonshine.Impl.Negotiation Moonshine.Impl.Control
open Moonshine.Proof.ControlLoop Moonshine.Proof.AudioEncoder Moonshine.Proof.Packetizer

/-- The keys of a request that `launch` or `resume` accepts. -/
inductive Accepted (applications : List Int32) (params : String → Option String) : SessionKeyData → Prop
  | launch {session : SessionContext} (h : launch applications params = .ok session) :
    Accepted applications params session.keys
  | resume {keys : SessionKeyData} (h : resume params = .ok keys) : Accepted applications params keys

/-- A call that encrypts or decrypts with the published keys, with whatever else
it takes. -/
inductive KeyUse (x : Packetizer.Crates)
  | controlDecrypt (message : EncryptedControlMessage)
  | controlEncode (sequenceNumber : UInt32) (payload : List Byte) (sealed : List (List Byte × List Byte))
  | videoCipherUpdate (packetizer : Packetizer x)
  | audioEncrypt (sequenceNumber : UInt16) (encoded : List Byte)

variable {x : Packetizer.Crates} (y : AudioEncoder.Crates)

namespace KeyUse

/-- The call, without its result. -/
def run (keys : SessionKeyData) : KeyUse x → Outcome PUnit
  | controlDecrypt message => do
    let _ ← decryptMessage x.toAes128Gcm keys message
    return ⟨⟩
  | controlEncode sequenceNumber payload sealed => do
    let _ ← (encodeControl x.toAes128Gcm keys.remoteInputKey sequenceNumber payload sealed).1
    return ⟨⟩
  | videoCipherUpdate packetizer =>
    let _ := packetizer.maybeUpdateCipher keys
    return ⟨⟩
  | audioEncrypt sequenceNumber encoded => do
    let _ ← AudioEncoder.payloadOf y true keys sequenceNumber encoded
    return ⟨⟩

end KeyUse

/-- The part of the ID that goes into the IV of an audio packet. -/
def ivBase (keyId : Int64) : Nat := keyId.toUInt64.toUInt32.toNat

/-- Without the result of a call. -/
theorem drop_eq_panic {α : Type} (o : Outcome α) : (o >>= fun _ => Outcome.ok PUnit.unit) = .panic ↔ o = .panic := by
  cases o <;> simp

theorem encodeControl_ne_panic (g : Aes128Gcm) (key : List Byte) (sequenceNumber : UInt32) (payload : List Byte)
    (sealed : List (List Byte × List Byte)) :
    (encodeControl g key sequenceNumber payload sealed).1 ≠ .panic := by
  unfold encodeControl
  by_cases hkey : key.length = 16
  · rw [if_neg (not_not.mpr hkey), Prog.modify_bind, Crypto.encrypt, Crypto.keyFromSlice, if_pos hkey,
      Outcome.ok_bind]
    cases g.encryptInPlaceDetached key (hostIv sequenceNumber) payload with
    | none => simp [Prog.bind_eq_panic]
    | some out =>
      rw [Outcome.ofOption_some, Prog.liftM_bind_ok]
      split <;> simp
  · simp [hkey]

theorem decryptMessage_eq_panic (g : Aes128Gcm) (keys : SessionKeyData) (message : EncryptedControlMessage) :
    decryptMessage g keys message = .panic ↔ keys.remoteInputKey.length ≠ 16 := by
  rw [decryptMessage_eq]
  split
  · exact iff_of_false (Outcome.ofOption_ne_panic _) (by simpa)
  · exact iff_of_true rfl (by assumption)

theorem payloadOf_eq_panic (keys : SessionKeyData) (sequenceNumber : UInt16) (encoded : List Byte) :
    AudioEncoder.payloadOf y true keys sequenceNumber encoded = .panic ↔
      y.overflowChecks = true ∧ 2 ^ 32 ≤ ivBase keys.remoteInputKeyId + sequenceNumber.toNat := by
  have hcbc : ∀ iv, Crypto.encryptCbc y.toAes128Cbc encoded keys.remoteInputKey iv ≠ .panic := by
    intro iv
    unfold Crypto.encryptCbc
    split
    · simp
    · split <;> simp
  show ((AudioEncoder.audioIv y.overflowChecks keys sequenceNumber) >>= _) = _ ↔ _
  cases y.overflowChecks with
  | false => exact iff_of_false (hcbc _) fun h => Bool.false_ne_true h.1
  | true =>
    show ((checkedAdd 32 (ivBase keys.remoteInputKeyId) sequenceNumber.toNat >>= _) >>= _) = _ ↔ _
    rcases Nat.lt_or_ge (ivBase keys.remoteInputKeyId + sequenceNumber.toNat) (2 ^ 32) with hlt | hge
    · rw [checkedAdd_of_lt hlt]
      exact iff_of_false (hcbc _) (by omega)
    · rw [checkedAdd_of_ge hge]
      exact iff_of_true rfl ⟨rfl, hge⟩

/-- The calls that panic with the keys. -/
def KeyUse.Fails (overflowChecks : Bool) (keys : SessionKeyData) : KeyUse x → Prop
  | .controlDecrypt _ => keys.remoteInputKey.length ≠ 16
  | .controlEncode .. => False
  | .videoCipherUpdate _ => False
  | .audioEncrypt sequenceNumber _ =>
    overflowChecks = true ∧ 2 ^ 32 ≤ ivBase keys.remoteInputKeyId + sequenceNumber.toNat

theorem run_eq_panic (keys : SessionKeyData) (u : KeyUse x) : u.run y keys = .panic ↔ u.Fails y.overflowChecks keys := by
  cases u with
  | controlDecrypt message => exact (drop_eq_panic _).trans (decryptMessage_eq_panic _ keys message)
  | controlEncode sequenceNumber payload sealed =>
    exact (drop_eq_panic _).trans (iff_false_intro (encodeControl_ne_panic _ _ _ _ _))
  | videoCipherUpdate packetizer => exact iff_of_false (by simp [KeyUse.run]) not_false
  | audioEncrypt sequenceNumber encoded =>
    exact (drop_eq_panic _).trans (payloadOf_eq_panic y keys sequenceNumber encoded)

/-- A key of 32 digits, and an ID that leaves room for every sequence number, where the sum
is checked for overflow. -/
structure Sound (overflowChecks : Bool) (params : String → Option String) : Prop where
  rikey : ∃ rikey, params "rikey" = some rikey ∧ rikey.length = 32
  rikeyid : ∃ keyId, ((params "rikeyid").bind fun v => parseI64 v.toList) = some keyId ∧
    (overflowChecks = true → ivBase keyId + 65535 < 2 ^ 32)

theorem length_hexDecode : ∀ {cs : List Char} {bytes : List Byte}, hexDecode cs = some bytes →
    cs.length = 2 * bytes.length
  | [], _, h => by
    cases h
    rfl
  | [_], _, h => by cases h
  | c :: d :: cs, bytes, h => by
    unfold hexDecode at h
    split at h
    · rename_i heq
      cases h
      rw [List.length_cons, List.length_cons, List.length_cons, length_hexDecode heq]
      omega
    · cases h

/-- The keys are those of the request, whichever it is. -/
theorem Accepted.parsed {applications : List Int32} {params : String → Option String} {keys : SessionKeyData}
    (h : Accepted applications params keys) :
    ((params "rikey").bind fun v => hexDecode v.toList) = some keys.remoteInputKey ∧
      ((params "rikeyid").bind fun v => parseI64 v.toList) = some keys.remoteInputKeyId := by
  cases h with
  | launch h =>
    unfold Negotiation.launch at h
    obtain ⟨applicationId, -, h⟩ := Outcome.bind_eq_ok.mp h
    obtain ⟨mode, -, h⟩ := Outcome.bind_eq_ok.mp h
    obtain ⟨key, hkey, h⟩ := Outcome.bind_eq_ok.mp h
    obtain ⟨keyId, hkeyId, h⟩ := Outcome.bind_eq_ok.mp h
    rw [Outcome.ofOption_eq_ok] at hkey hkeyId
    split at h
    · cases h
      exact ⟨hkey, hkeyId⟩
    · obtain ⟨_, -, h⟩ := Outcome.bind_eq_ok.mp h
      cases h
  | resume h =>
    unfold Negotiation.resume at h
    obtain ⟨key, hkey, h⟩ := Outcome.bind_eq_ok.mp h
    obtain ⟨keyId, hkeyId, h⟩ := Outcome.bind_eq_ok.mp h
    rw [Outcome.ofOption_eq_ok] at hkey hkeyId
    cases h
    exact ⟨hkey, hkeyId⟩

theorem Accepted.sound_iff {applications : List Int32} {params : String → Option String} {keys : SessionKeyData}
    (h : Accepted applications params keys) (overflowChecks : Bool) : Sound overflowChecks params ↔
      keys.remoteInputKey.length = 16 ∧ (overflowChecks = true → ivBase keys.remoteInputKeyId + 65535 < 2 ^ 32) := by
  obtain ⟨hkey, hkeyId⟩ := h.parsed
  obtain ⟨rikey, hrikey, hdecode⟩ := Option.bind_eq_some_iff.mp hkey
  have hlen : rikey.length = 2 * keys.remoteInputKey.length := length_hexDecode hdecode
  constructor
  · rintro ⟨⟨rikey', hrikey', hlen'⟩, keyId, hkeyId', hroom⟩
    cases hrikey.symm.trans hrikey'
    cases hkeyId.symm.trans hkeyId'
    exact ⟨by omega, hroom⟩
  · rintro ⟨hlen', hroom⟩
    exact ⟨⟨rikey, hrikey, by omega⟩, _, hkeyId, hroom⟩

/-- With the keys of an accepted request no call panics, in any state of its
stream, exactly if the request is sound. -/
theorem neverPanics_iff {applications : List Int32} {params : String → Option String} {keys : SessionKeyData}
    (h : Accepted applications params keys) :
    (∀ u : KeyUse x, u.run y keys ≠ .panic) ↔ Sound y.overflowChecks params := by
  rw [h.sound_iff y.overflowChecks]
  simp only [ne_eq, run_eq_panic]
  constructor
  · intro hall
    refine ⟨not_not.mp (hall (.controlDecrypt ⟨0, 0, [], []⟩)), fun hchecks => Nat.lt_of_not_le fun hge => ?_⟩
    exact hall (.audioEncrypt 65535 []) ⟨hchecks, hge⟩
  · rintro ⟨hlen, hroom⟩ u hfails
    cases u with
    | controlDecrypt message => exact hfails hlen
    | controlEncode sequenceNumber payload sealed => exact hfails
    | videoCipherUpdate packetizer => exact hfails
    | audioEncrypt sequenceNumber encoded =>
      have hq := sequenceNumber.toNat_lt
      obtain ⟨hchecks, hge⟩ : y.overflowChecks = true ∧
        2 ^ 32 ≤ ivBase keys.remoteInputKeyId + sequenceNumber.toNat := hfails
      have hlt := hroom hchecks
      omega

/-- A request to launch, with this key. -/
def launchParams (rikey : String) (name : String) : Option String :=
  [("appid", "1"), ("mode", "1920x1080x60"), ("rikey", rikey), ("rikeyid", "7")].lookup name

def launchedSession (key : List Byte) : SessionContext where
  applicationId := 1
  resolution := (1920, 1080)
  refreshRate := 60
  keys := ⟨key, 7⟩
  audioChannels := .stereo
  audioChannelMask := 3
  hdr := false

theorem accepted_sixteen : Accepted [1] (launchParams "000102030405060708090a0b0c0d0e0f")
    (launchedSession ((List.range 16).map UInt8.ofNat)).keys :=
  .launch (by decide +kernel)

theorem sound_sixteen : Sound true (launchParams "000102030405060708090a0b0c0d0e0f") :=
  ⟨⟨_, rfl, by decide⟩, 7, by decide +kernel, fun _ => by decide⟩

theorem neverPanics_sixteen : Sound true (launchParams "000102030405060708090a0b0c0d0e0f") ∧
    ∀ u : KeyUse repetition, u.run galoisCrates (launchedSession ((List.range 16).map UInt8.ofNat)).keys ≠ .panic :=
  ⟨sound_sixteen, (neverPanics_iff galoisCrates accepted_sixteen).mpr sound_sixteen⟩

theorem accepted_two : Accepted [1] (launchParams "aabb") (launchedSession [0xaa, 0xbb]).keys :=
  .launch (by decide +kernel)

/-- A key of two bytes is accepted, and the first encrypted message panics. -/
theorem short_key_panics : ¬ ∀ keys, Accepted [1] (launchParams "aabb") keys →
    ∀ u : KeyUse repetition, u.run galoisCrates keys ≠ .panic := by
  intro hall
  have hrun := (run_eq_panic (x := repetition) galoisCrates (launchedSession [0xaa, 0xbb]).keys
    (.controlDecrypt ⟨0, 0, [], []⟩)).mpr (show [0xaa, 0xbb].length ≠ 16 by decide)
  exact hall _ accepted_two _ hrun

end Moonshine.Proof.KeyLength
