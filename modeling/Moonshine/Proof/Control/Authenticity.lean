import Moonshine.Framework.Run
import Moonshine.Impl.Control.Run
import Moonshine.Proof.Control.Totality

/-!
# Who drives a session

A datagram is authentic if it is an encrypted message whose tag verifies under
the published key. What the loop does for the client should come from authentic
datagrams only, and any other should leave it running as it was (`KeyHolderOnly`).
The loop takes messages that are not encrypted as well, and a datagram that does
not parse ends it; a run has the property exactly if no such datagram comes
(`key_holder_only_iff`).
-/

namespace Moonshine.Proof.ControlLoop

open Moonshine.Framework Moonshine.Impl Moonshine.Impl.Control Moonshine.Impl.ControlLoop
  Moonshine.Proof.Control

variable {c : Context}

/-- An encrypted message whose tag verifies under the key. -/
def Authentic (g : Aes128Gcm) (keys : SessionKeyData) (packet : List Byte) : Prop :=
  ∃ m decrypted, ControlMessage.fromBytes packet = .ok (.encrypted m) ∧
    keys.remoteInputKey.length = 16 ∧
      g.decryptInPlaceDetached keys.remoteInputKey (clientIv m.sequenceNumber) m.payload m.tag =
        some decrypted

/-- The loop has not left, and is in the same state. -/
def Undisturbed (w w' : World) : Prop :=
  ∃ point, (point = .top ∨ point = .initialHdr) ∧ w' = { w with point }

/-- Effects come from authentic datagrams, others do not disturb the loop. -/
def KeyHolderOnly (c : Context) (w : World) (a : Action) (w' : World) : Prop :=
  ((w'.loop.effects ≠ w.loop.effects ∨ w'.stopDeadline ≠ w.stopDeadline) →
      ∃ peer packet, a = .serviced (some (.receive peer packet)) ∧ Authentic c.gcm w.keys packet) ∧
    ∀ peer packet, a = .serviced (some (.receive peer packet)) → ¬ Authentic c.gcm w.keys packet →
      Undisturbed w w'

/-- A message in the clear that makes the loop do something. -/
def Commands : ControlMessage → Prop
  | .requestIdrFrame | .invalidateReferenceFrames _ _ | .startB | .ping => True
  | .inputData event => ∃ e, InputEvent.fromBytes event = .ok e
  | _ => False

/-- A datagram parses; it is an encrypted message, and the key has the length of
one, or a message that commands nothing. -/
def Harmless (keys : SessionKeyData) (packet : List Byte) : Prop :=
  ∃ m, ControlMessage.fromBytes packet = .ok m ∧
    match m with
    | .encrypted _ => keys.remoteInputKey.length = 16
    | m => ¬ Commands m

def NoIntruder (w : World) (a : Action) (_ : World) : Prop :=
  ∀ peer packet, a = .serviced (some (.receive peer packet)) → Harmless w.keys packet

theorem decryptMessage_eq (g : Aes128Gcm) (keys : SessionKeyData) (m : EncryptedControlMessage) :
    decryptMessage g keys m =
      if keys.remoteInputKey.length = 16 then
        Outcome.ofOption
          (g.decryptInPlaceDetached keys.remoteInputKey (clientIv m.sequenceNumber) m.payload m.tag)
      else .panic := by
  unfold decryptMessage Crypto.decrypt Crypto.keyFromSlice
  split <;> rfl

theorem handle_of_commands {hdr : Bool} {m : ControlMessage} (h : Commands m) (l : Loop) :
    ∃ l', handle hdr m l = (.ok ⟨⟩, l') ∧ l'.effects ≠ l.effects := by
  cases m with
  | requestIdrFrame => exact ⟨_, rfl, by simp⟩
  | invalidateReferenceFrames first last => exact ⟨_, rfl, by simp⟩
  | ping => exact ⟨_, rfl, by simp⟩
  | startB =>
    cases ha : l.audioTriggered with
    | false =>
      refine ⟨{ l with
        effects := l.effects ++ [.triggerVideo] ++ [.triggerAudio]
        audioTriggered := true
        sendHdrMode := hdr }, ?_, by simp⟩
      simp only [handle, startStreams, effect, Prog.modify_bind, Prog.gets_bind, ha]
      rfl
    | true =>
      refine ⟨{ l with effects := l.effects ++ [.triggerVideo], sendHdrMode := hdr }, ?_, by simp⟩
      simp only [handle, startStreams, effect, Prog.modify_bind, Prog.gets_bind, ha]
      rfl
  | inputData event =>
    obtain ⟨e, he⟩ := h
    refine ⟨{ l with effects := l.effects ++ [.input e] }, ?_, by simp⟩
    rw [handle, handleRawInput, he]
    rfl
  | _ => exact absurd h id

theorem handle_of_not_commands {hdr : Bool} {m : ControlMessage} (h : ¬ Commands m)
    (hm : ∀ e, m ≠ .encrypted e) (l : Loop) : handle hdr m l = (.ok ⟨⟩, l) := by
  cases m with
  | encrypted e => exact absurd rfl (hm e)
  | requestIdrFrame | invalidateReferenceFrames | startB | ping => exact absurd trivial h
  | inputData event =>
    rw [handle, handleRawInput]
    cases he : InputEvent.fromBytes event with
    | ok e => exact absurd ⟨e, he⟩ h
    | err => rfl
    | panic => exact absurd he (inputEvent_ne_panic event)
  | _ => rfl

theorem deadline_nil (w : World) : w.deadline c [] = w.stopDeadline := by simp [World.deadline]

/-- The loop took a datagram without doing anything. -/
theorem onReceive_of_same {w : World} {packet : List Byte} {r : Outcome Flow}
    (h : receive c.hdr (decryptMessage c.gcm w.keys) packet w.loop = (r, w.loop)) :
    w.onReceive c packet = w.follow r := by
  unfold World.onReceive
  rw [h]
  simp only [List.drop_length, deadline_nil]

theorem undisturbed_top (w : World) : Undisturbed w { w with point := .top } := ⟨.top, .inl rfl, rfl⟩

theorem undisturbed_initialHdr (w : World) : Undisturbed w { w with point := .initialHdr } :=
  ⟨.initialHdr, .inr rfl, rfl⟩

/-- It goes on only where the arm falls through or continues. -/
theorem not_undisturbed_follow {w : World} {result : Outcome Flow}
    (h : result = .ok .break_ ∨ result = .err ∨ result = .panic) : ¬ Undisturbed w (w.follow result) := by
  rintro ⟨point, hpoint, heq⟩
  have hp := congrArg World.point heq
  rcases h with rfl | rfl | rfl <;> rcases hpoint with rfl | rfl <;> simp [World.follow] at hp

/-- A harmless datagram is authentic or does not disturb the loop. -/
theorem undisturbed_of_harmless {w : World} {packet : List Byte} (h : Harmless w.keys packet)
    (ha : ¬ Authentic c.gcm w.keys packet) : Undisturbed w (w.onReceive c packet) := by
  obtain ⟨m, hm, hharm⟩ := h
  by_cases henc : ∃ e, m = .encrypted e
  · obtain ⟨e, rfl⟩ := henc
    have hnone : c.gcm.decryptInPlaceDetached w.keys.remoteInputKey (clientIv e.sequenceNumber)
        e.payload e.tag = none := by
      rw [Option.eq_none_iff_forall_ne_some]
      exact fun d hd => ha ⟨e, d, hm, hharm, hd⟩
    rw [onReceive_of_same (r := .ok .continue_)]
    · exact undisturbed_top w
    · unfold receive
      rw [hm]
      dsimp only
      rw [decryptMessage_eq, if_pos hharm, hnone]
      rfl
  · have henc := not_exists.mp henc
    have hquiet : ¬ Commands m := by
      cases m with
      | encrypted e => exact absurd rfl (henc e)
      | _ => exact hharm
    rw [onReceive_of_same (r := .ok .fallThrough)]
    · exact undisturbed_initialHdr w
    · rw [receive_plain hm henc, Prog.bind_of_ok (handle_of_not_commands hquiet henc _)]
      rfl

/-- An intruder's datagram ends the loop or makes it do something. -/
theorem harmless_of_keyHolder {w : World} {packet : List Byte}
    (hcaused : (w.onReceive c packet).loop.effects ≠ w.loop.effects → Authentic c.gcm w.keys packet)
    (hundisturbed : ¬ Authentic c.gcm w.keys packet → Undisturbed w (w.onReceive c packet)) :
    Harmless w.keys packet := by
  have hends : ∀ r : Outcome Flow, (r = .ok .break_ ∨ r = .err ∨ r = .panic) →
      receive c.hdr (decryptMessage c.gcm w.keys) packet w.loop = (r, w.loop) →
        Authentic c.gcm w.keys packet := by
    intro r hresult hrun
    by_contra ha
    have hu := hundisturbed ha
    rw [onReceive_of_same hrun] at hu
    exact not_undisturbed_follow hresult hu
  cases hm : ControlMessage.fromBytes packet with
  | err =>
    obtain ⟨m, -, h, -⟩ := hends (.ok .break_) (.inl rfl) (by rw [receive, hm]; rfl)
    rw [hm] at h
    cases h
  | panic =>
    obtain ⟨m, -, h, -⟩ := hends .panic (.inr (.inr rfl)) (by rw [receive, hm]; rfl)
    rw [hm] at h
    cases h
  | ok m =>
    refine ⟨m, hm, ?_⟩
    by_cases henc : ∃ e, m = .encrypted e
    · obtain ⟨e, rfl⟩ := henc
      by_contra hlen
      obtain ⟨-, -, -, hlen', -⟩ := hends .panic (.inr (.inr rfl)) (by
        rw [receive, hm]
        dsimp only
        rw [decryptMessage_eq, if_neg hlen]
        rfl)
      exact hlen hlen'
    · have henc := not_exists.mp henc
      have hquiet : ¬ Commands m := by
        intro hcmd
        obtain ⟨l', hrun, heffects⟩ := @handle_of_commands c.hdr m hcmd w.loop
        have hrun' : receive c.hdr (decryptMessage c.gcm w.keys) packet w.loop = (.ok .fallThrough, l') := by
          rw [receive_plain hm henc, Prog.bind_of_ok hrun]
          rfl
        obtain ⟨e, -, h, -⟩ := hcaused (by
          unfold World.onReceive
          rw [hrun']
          exact heffects)
        rw [hm] at h
        exact henc e (Outcome.ok.inj h)
      cases m with
      | encrypted e => exact absurd rfl (henc e)
      | _ => exact hquiet

@[simp] theorem sendToPeer_effects (g : Aes128Gcm) (connected : Bool) (key payload : List Byte) (l : Loop) :
    (sendToPeer g connected key payload l).effects = l.effects := by
  unfold sendToPeer
  dsimp only
  split <;> rfl

@[simp] theorem sendHdr_effects (connected : Bool) (w : World) :
    (w.sendHdr c connected).loop.effects = w.loop.effects := by
  simp [World.sendHdr, sendHdrState, sendAndAdvance]

@[simp] theorem sendHdr_stopDeadline (connected : Bool) (w : World) :
    (w.sendHdr c connected).stopDeadline = w.stopDeadline := rfl

/-- The loop has done nothing more, and the deadline is where it was. -/
def Quiet (w w' : World) : Prop := w'.loop.effects = w.loop.effects ∧ w'.stopDeadline = w.stopDeadline

theorem Undisturbed.quiet {w w' : World} (h : Undisturbed w w') : Quiet w w' := by
  obtain ⟨point, -, rfl⟩ := h
  exact ⟨rfl, rfl⟩

theorem quiet_atTop (connected : Bool) (w : World) : Quiet w (w.atTop c connected) := by
  unfold World.atTop
  split
  · exact ⟨rfl, rfl⟩
  · split
    · exact ⟨rfl, rfl⟩
    · dsimp only
      split <;> simp [Quiet, sendAndAdvance]

theorem quiet_atInitialHdr (connected : Bool) (w : World) : Quiet w (w.atInitialHdr c connected) := by
  unfold World.atInitialHdr
  dsimp only
  split
  · split <;> simp [Quiet]
  · exact ⟨rfl, rfl⟩

theorem quiet_atHdrUpdate (connected : Bool) (w : World) : Quiet w (w.atHdrUpdate c connected) := by
  unfold World.atHdrUpdate
  dsimp only
  split <;> simp [Quiet]

theorem quiet_atLeaving (connected : Bool) (w : World) : Quiet w (w.atLeaving c connected) := by
  unfold World.atLeaving
  dsimp only
  split <;> simp [Quiet, sendTermination]

/-- Only a datagram makes the loop do something or moves the deadline. -/
theorem quiet_of_step {w w' : World} {a : Action} (hs : step c w a = some w')
    (ha : ∀ peer packet, a ≠ .serviced (some (.receive peer packet))) : Quiet w w' := by
  cases a with
  | publishKeys keys => cases hs; exact ⟨rfl, rfl⟩
  | publishHdr state =>
    simp only [ControlLoop.step] at hs
    split at hs <;> cases hs
    exact ⟨rfl, rfl⟩
  | closeHdr => cases hs; exact ⟨rfl, rfl⟩
  | queueFeedback command => cases hs; exact ⟨rfl, rfl⟩
  | tick duration => cases hs; exact ⟨rfl, rfl⟩
  | triggerShutdown => cases hs; exact ⟨rfl, rfl⟩
  | top connected =>
    obtain ⟨-, ⟨⟩⟩ := Option.ite_none_right_eq_some.mp hs
    exact quiet_atTop connected w
  | serviced event =>
    obtain ⟨-, ⟨⟩⟩ := Option.ite_none_right_eq_some.mp hs
    rcases event with _ | peer | peer | ⟨peer, packet⟩
    · exact ⟨rfl, rfl⟩
    · exact ⟨rfl, rfl⟩
    · exact ⟨rfl, rfl⟩
    · exact absurd rfl (ha peer packet)
  | serviceFailed =>
    obtain ⟨-, ⟨⟩⟩ := Option.ite_none_right_eq_some.mp hs
    exact ⟨rfl, rfl⟩
  | initialHdr connected =>
    obtain ⟨-, ⟨⟩⟩ := Option.ite_none_right_eq_some.mp hs
    exact quiet_atInitialHdr connected w
  | hdrUpdate connected =>
    obtain ⟨-, ⟨⟩⟩ := Option.ite_none_right_eq_some.mp hs
    exact quiet_atHdrUpdate connected w
  | leave connected =>
    obtain ⟨-, ⟨⟩⟩ := Option.ite_none_right_eq_some.mp hs
    exact quiet_atLeaving connected w

theorem keyHolderOnly_iff {w w' : World} {a : Action} (hs : step c w a = some w') :
    KeyHolderOnly c w a w' ↔ NoIntruder w a w' := by
  by_cases ha : ∃ peer packet, a = .serviced (some (.receive peer packet))
  · obtain ⟨peer, packet, rfl⟩ := ha
    simp only [ControlLoop.step] at hs
    split at hs <;> cases hs
    constructor
    · rintro ⟨hcaused, hundisturbed⟩ peer' packet' heq
      cases heq
      refine harmless_of_keyHolder (c := c) (fun hne => ?_) (hundisturbed peer packet rfl)
      obtain ⟨peer', packet', heq, h⟩ := hcaused (.inl hne)
      cases heq
      exact h
    · intro hharm
      have h := undisturbed_of_harmless (c := c) (hharm peer packet rfl)
      refine ⟨fun hne => ⟨peer, packet, rfl, ?_⟩, fun peer' packet' heq => ?_⟩
      · by_contra ha
        obtain ⟨heffects, hdeadline⟩ := (h ha).quiet
        rcases hne with hne | hne
        · exact hne heffects
        · exact hne hdeadline
      · cases heq
        exact h
  · obtain ⟨heffects, hdeadline⟩ := quiet_of_step hs fun peer packet heq => ha ⟨peer, packet, heq⟩
    exact ⟨fun _ peer packet heq => absurd ⟨peer, packet, heq⟩ ha, fun _ =>
      ⟨fun hne => hne.elim (absurd heffects) (absurd hdeadline),
        fun peer packet heq => absurd ⟨peer, packet, heq⟩ ha⟩⟩

/-- For every run of the control loop: only the key holder drives the session
exactly if no datagram comes that ends the loop or commands it in the clear. -/
theorem key_holder_only_iff (c : Context) (w : World) (as : List Action) :
    EveryStep (step c) (KeyHolderOnly c) w as ↔ EveryStep (step c) NoIntruder w as := by
  refine EveryStep.congr (fun w a w' hs => ?_) w as
  exact keyHolderOnly_iff hs

theorem sealed_length_of_none (_ _ buffer : List Byte) (out : List Byte × List Byte) (h : none = some out) :
    out.1.length = buffer.length ∧ out.2.length = 16 := by
  cases h

theorem opened_of_none (_ _ buffer : List Byte) (out : List Byte × List Byte) (h : none = some out) :
    none = some buffer := by
  cases h

/-- A cipher under which nothing verifies. -/
def rejecting : Aes128Gcm where
  encryptInPlaceDetached _ _ _ := none
  decryptInPlaceDetached _ _ _ _ := none
  encrypt_length := sealed_length_of_none
  decrypt_encrypt := opened_of_none

def exampleContext : Context := ⟨rejecting, 60, false⟩

/-- A ping in the clear extends the deadline, a datagram of one byte ends the
session. -/
theorem plain_ping_obeyed :
    ¬ EveryStep (step exampleContext) (KeyHolderOnly exampleContext)
        (World.start exampleContext ⟨List.replicate 16 0, 1⟩ ⟨false, none⟩ 0)
        [.top false, .serviced (some (.receive 7 [0x00, 0x02, 0x00, 0x00]))] ∧
      ¬ EveryStep (step exampleContext) (KeyHolderOnly exampleContext)
        (World.start exampleContext ⟨List.replicate 16 0, 1⟩ ⟨false, none⟩ 0)
        [.top false, .serviced (some (.receive 7 [0x00]))] := by
  constructor
  · intro h
    obtain ⟨-, h⟩ := h _ rfl
    obtain ⟨h, -⟩ := h _ rfl
    obtain ⟨m, hm, hquiet⟩ := (keyHolderOnly_iff (by rfl)).mp h 7 _ rfl
    cases hm
    exact hquiet trivial
  · intro h
    obtain ⟨-, h⟩ := h _ rfl
    obtain ⟨h, -⟩ := h _ rfl
    obtain ⟨m, hm, -⟩ := (keyHolderOnly_iff (by rfl)).mp h 7 _ rfl
    cases hm

end Moonshine.Proof.ControlLoop
