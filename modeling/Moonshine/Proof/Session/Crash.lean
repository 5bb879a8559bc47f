import Moonshine.Proof.Session.Negotiated

/-!
# Runs of a session and the values negotiated for it

`Inv` holds in every run of a session with sound values, and gives that no
thread panics in it. For the converse, a session without panics is driven into
the stages where its threads calculate: launched, announced, with a video
pipeline, with an audio stream. What does not panic there is sound.
-/

namespace Moonshine.Proof.Threads

open Moonshine.Framework Moonshine.Framework.Outcome Moonshine.Impl Moonshine.Impl.Packetizer
open Moonshine.Impl.Negotiation Moonshine.Impl.Threads Moonshine.Proof.Packetizer

variable {cfg : Settings} {n : Negotiation cfg} {x : Crates}

/-! ## Steps of a thread -/

@[simp] theorem setPhase_phase (s : Impl.Threads.State x) (t t' : Thread) (p : Phase) :
    (s.setPhase t p).phase t' = if t' = t then p else s.phase t' := by
  simp [State.setPhase, Function.update_apply]

theorem run_cases {s s' : Impl.Threads.State x} {t : Thread} {p : Phase} {o : Outcome (Impl.Threads.State x)}
    (h : s.run t p o = some s') : s.phase t = p ∧
      (o = .ok s' ∨ (o = .err ∧ s' = s.setPhase t .ended) ∨ (o = .panic ∧ s' = s.setPhase t .panicked)) := by
  unfold State.run at h
  by_cases hp : s.phase t = p
  · rw [if_pos hp] at h
    rcases o with m | _ | _ <;> obtain rfl := Option.some.inj h <;> simp [hp]
  · rw [if_neg hp] at h
    contradiction

theorem run_ok {s m : Impl.Threads.State x} {t : Thread} {p : Phase} (hp : s.phase t = p) :
    s.run t p (.ok m) = some m := if_pos hp

theorem run_panic {s : Impl.Threads.State x} {t : Thread} {p : Phase} (hp : s.phase t = p) :
    s.run t p .panic = some (s.setPhase t .panicked) := if_pos hp

/-! ## The cipher of the packetizer -/

/-- With the keys of the session, the packetizer has a cipher exactly if video is
encrypted. -/
def Keyed (n : Negotiation cfg) (p : Packetizer x) : Prop :=
  (p.maybeUpdateCipher n.session.keys).cipher.isSome = n.videoEncrypted

theorem keyed_warmUp (n : Negotiation cfg) (fecPercentage : Byte) (minimumFecPackets : UInt32) :
    Keyed n ((Packetizer.new x n.encryptVideo).warmUp fecPercentage minimumFecPackets) := by
  obtain ⟨h₁, h₂, h₃⟩ := warmUp_kept (Packetizer.new x n.encryptVideo) fecPercentage minimumFecPackets
  unfold Keyed Negotiation.videoEncrypted
  rw [cipher_maybeUpdateCipher, h₁, h₂, h₃]
  show (if n.encryptVideo = false ∨ n.session.keys.remoteInputKeyId = Int64.minValue then none
    else if n.session.keys.remoteInputKey.length = 16 then some n.session.keys.remoteInputKey
    else none).isSome = _
  cases n.encryptVideo with
  | false => rfl
  | true =>
    by_cases hid : n.session.keys.remoteInputKeyId = Int64.minValue
    · simp [hid]
    · by_cases hlen : n.session.keys.remoteInputKey.length = 16
      · simp [hid, hlen]
      · simp [hid, hlen]

theorem Keyed.packetize {s : Packetizer.State x} (h : Keyed n s.packetizer) (a : Args) :
    Keyed n (Packetizer.packetize n.session.keys a s).2.packetizer := by
  rw [Keyed, cipher_packetize]
  exact h

/-! ## The invariant -/

structure Inv (n : Negotiation cfg) (s : Impl.Threads.State x) : Prop where
  calm : ∀ t, s.phase t ≠ .panicked
  contexts : ∀ c, s.contexts = some c → n.announce = .ok c
  clock : s.phase .pulseServer = .running → s.clockRateHz ≠ 0
  keyed : s.phase .packetConsumer = .spawned ∨ s.phase .packetConsumer = .running →
    Keyed n s.packetizer.packetizer

/-- A thread goes to a phase in which the invariant asks nothing of it. -/
theorem Inv.setPhase {s : Impl.Threads.State x} (h : Inv n s) {t : Thread} {p : Phase} (hcalm : p ≠ .panicked)
    (hclock : t = .pulseServer → p = .running → s.clockRateHz ≠ 0)
    (hkeyed : t = .packetConsumer → p = .spawned ∨ p = .running → Keyed n s.packetizer.packetizer) :
    Inv n (s.setPhase t p) where
  calm t' := by
    rw [setPhase_phase]
    split
    · exact hcalm
    · exact h.calm t'
  contexts := h.contexts
  clock := by
    rw [setPhase_phase]
    split
    · rename_i heq
      exact hclock heq.symm
    · exact h.clock
  keyed := by
    rw [setPhase_phase]
    split
    · rename_i heq
      exact hkeyed heq.symm
    · exact h.keyed

/-- A step keeps the invariant if it does not panic and keeps it where it returns. -/
theorem Inv.run {s s' : Impl.Threads.State x} (h : Inv n s) {t : Thread} {p : Phase}
    {o : Outcome (Impl.Threads.State x)} (hrun : s.run t p o = some s')
    (ho : s.phase t = p → Ensures (Inv n) o) : Inv n s' := by
  obtain ⟨hp, hok | ⟨-, rfl⟩ | ⟨hpanic, -⟩⟩ := run_cases hrun
  · exact (ho hp).2 s' hok
  · exact h.setPhase (by decide) (fun _ he => by contradiction) (fun _ he => by simp at he)
  · exact absurd hpanic (ho hp).1

/-! ## The functions, with sound values -/

theorem toNat_ne_zero {a : UInt32} (h : a ≠ 0) : a.toNat ≠ 0 := fun h0 => h (UInt32.toNat_inj.mp h0)

theorem Sound.fps_ne_zero (hn : Sound n) {video : VideoStreamContext} {audio : AudioStreamContext}
    (ha : Announced n video audio) : video.fps ≠ 0 := fun h0 => hn.fps (h0 ▸ ha.fps)

theorem runCompositor_spec (hn : Sound n) {s : Impl.Threads.State x} (h : Inv n s) (opens : Bool) :
    Ensures (Inv n) (runCompositor n.session opens s) := by
  unfold runCompositor
  rw [checkedMul_of_lt hn.refreshRate.2, ok_bind]
  cases opens with
  | false => exact ensures_err _
  | true =>
    rw [if_pos rfl, checkedDiv_of_ne (Nat.ne_of_gt hn.refreshRate.1), ok_bind]
    have hphase := h.setPhase (t := .compositor) (p := .running) (by decide) (fun he => by contradiction)
      (fun he => by contradiction)
    exact ensures_ok ⟨hphase.calm, hphase.contexts, hphase.clock, hphase.keyed⟩

theorem processInput_ne_panic (hn : Sound n) (overrideWindow : Option Geometry) (cursor : ℚ × ℚ)
    (event : PointerEvent) : processInput n.session overrideWindow cursor event ≠ .panic := by
  have hw : 1 ≤ (outputSize n.session).1 := (outputSize_pos _).mpr hn.width
  have hh : 1 ≤ (outputSize n.session).2 := (outputSize_pos _).mpr hn.height
  cases event with
  | mouseMoveAbsolute x y screenWidth screenHeight => exact clampCursor_ne_panic hw hh _ _
  | mouseMoveRelative dx dy => exact clampCursor_ne_panic hw hh _ _
  | pen x y =>
    refine bind_ne_panic (clamp_ne_panic.mpr ?_) fun _ _ => bind_ne_panic (clamp_ne_panic.mpr ?_) fun _ _ => ?_
    · decide
    · decide
    · simp

theorem runPipeline_spec (hn : Sound n) {s : Impl.Threads.State x} (h : Inv n s) {video : VideoStreamContext}
    {audio : AudioStreamContext} (ha : Announced n video audio) (created : Bool) :
    Ensures (Inv n) (runPipeline cfg video created s) := by
  have hfps := hn.fps_ne_zero ha
  unfold runPipeline
  rw [checkedDiv_of_ne (toNat_ne_zero hfps), ok_bind]
  cases created with
  | false => exact ensures_err _
  | true =>
    dsimp only
    rw [if_pos rfl, frameInterval, if_neg hfps, ok_bind]
    refine ensures_ok ⟨fun t => ?_, h.contexts, ?_, fun _ => ?_⟩
    · show ((s.setPhase .videoPipeline .running).setPhase .packetConsumer .spawned).phase t ≠ _
      rw [setPhase_phase, setPhase_phase]
      split
      · decide
      · split
        · decide
        · exact h.calm t
    · show ((s.setPhase .videoPipeline .running).setPhase .packetConsumer .spawned).phase .pulseServer = _ → _
      rw [setPhase_phase, setPhase_phase, if_neg (by decide), if_neg (by decide)]
      exact h.clock
    · show Keyed n ((Packetizer.new x video.encryptVideo).warmUp _ _)
      rw [ha.encryptVideo]
      exact keyed_warmUp n _ _

theorem runPacketConsumer_spec (hn : Sound n) {s : Impl.Threads.State x} (h : Inv n s)
    {video : VideoStreamContext} {audio : AudioStreamContext} (ha : Announced n video audio)
    (hp : s.phase .packetConsumer = .spawned) :
    Ensures (Inv n) (runPacketConsumer video s) := by
  unfold runPacketConsumer
  rw [checkedDiv_of_ne (toNat_ne_zero (hn.fps_ne_zero ha)), ok_bind]
  have hphase := h.setPhase (t := .packetConsumer) (p := .running) (by decide) (fun he => by contradiction)
    (fun _ _ => h.keyed (Or.inl hp))
  exact ensures_ok ⟨hphase.calm, hphase.contexts, hphase.clock, hphase.keyed⟩

theorem consumePacket_spec (hn : Sound n) {s : Impl.Threads.State x} (h : Inv n s) {video : VideoStreamContext}
    {audio : AudioStreamContext} (ha : Announced n video audio) (hp : s.phase .packetConsumer = .running)
    (packet : EncodedPacket cfg.longestPacket) (latency : UInt16) :
    Ensures (Inv n) (consumePacket cfg n.session video packet latency s) := by
  have hkeyed := h.keyed (Or.inr hp)
  -- Where it is unfolded on its arguments, the kernel counts up to the product of the time stamp.
  conv in @consumePacket x => delta consumePacket
  rw [checkedMul_of_lt packet.ticks, ok_bind, checkedDiv_of_ne (toNat_ne_zero (hn.fps_ne_zero ha)), ok_bind]
  dsimp only
  generalize hargs : Pipeline.Config.args ⟨video, cfg.fecPercentage⟩ (s.frameNumber + 1) packet.pts
    packet.data packet.isKeyFrame latency = args
  have hcap : Allocates (args.frame (s.packetizer.packetizer.maybeUpdateCipher n.session.keys).cipher.isSome) := by
    rw [show (_ : Option (List Byte)).isSome = n.videoEncrypted from hkeyed, ← hargs]
    exact hn.shards _ _ ha.packetSize ha.minimumFecPackets packet.data packet.length_le
  have hsize : 16 < args.requestedPacketSize := by
    rw [← hargs]
    exact hn.packetSize _ ha.packetSize
  have hcompletes := (packetize_completes hsize hcap).1
  have hnext := hkeyed.packetize args
  generalize packetize n.session.keys args s.packetizer = packetized at hcompletes hnext ⊢
  obtain ⟨batch | _ | _, p⟩ := packetized
  · exact ensures_ok ⟨h.calm, h.contexts, h.clock, fun _ => hnext⟩
  · exact ensures_ok ⟨h.calm, h.contexts, h.clock, fun _ => hnext⟩
  · exact absurd rfl hcompletes

/-- The clock rate comes from a table, whatever is negotiated. -/
theorem clockRateHz_spec (packetDurationMs : UInt32) : ∃ rate, clockRateHz packetDurationMs = .ok rate ∧ rate ≠ 0 := by
  unfold clockRateHz
  by_cases h : packetDurationMs = 5 ∨ packetDurationMs = 10
  · rw [if_pos h]
    obtain rfl | rfl := h
    · exact ⟨200, rfl, by decide⟩
    · exact ⟨100, rfl, by decide⟩
  · rw [if_neg h]
    exact ⟨200, rfl, by decide⟩

theorem spawnPulseServer_spec {s : Impl.Threads.State x} (h : Inv n s) (audio : AudioStreamContext) :
    Ensures (Inv n) (spawnPulseServer audio s) := by
  obtain ⟨rate, hrate, hne⟩ := clockRateHz_spec audio.packetDurationMs
  unfold spawnPulseServer
  rw [hrate, ok_bind, checkedDiv_of_ne hne, ok_bind]
  have hclock : Inv n { s with clockRateHz := rate } := ⟨h.calm, h.contexts, fun _ => hne, h.keyed⟩
  exact ensures_ok (hclock.setPhase (by decide) (fun _ _ => hne) (fun he => by contradiction))

theorem encodeAudio_spec (hn : Sound n) {s : Impl.Threads.State x} (h : Inv n s) {video : VideoStreamContext}
    {audio : AudioStreamContext} (ha : Announced n video audio) (encoded encrypted : Bool) :
    Ensures (Inv n) (encodeAudio n.session audio encoded encrypted s) := by
  have hsame : ∀ q, Inv n { s with sequenceNumber := q } := fun _ => ⟨h.calm, h.contexts, h.clock, h.keyed⟩
  unfold encodeAudio
  cases encoded with
  | false => exact ensures_ok h
  | true =>
    rw [if_neg (by decide)]
    by_cases henc : audio.encryptAudio
    · have hseq := s.sequenceNumber.toNat_lt
      have hkey := hn.keyId (by rwa [← ha.encryptAudio])
      rw [if_pos henc, checkedAdd_of_lt (by omega), ok_bind]
      refine ensures_ok ?_
      split
      · exact hsame _
      · exact h
    · rw [if_neg henc]
      exact ensures_ok (hsame _)

/-! ## Runs with sound values -/

theorem withContexts_eq {s s' : Impl.Threads.State x}
    {f : VideoStreamContext → AudioStreamContext → Option (Impl.Threads.State x)} (h : Inv n s)
    (hs : s.withContexts f = some s') : ∃ video audio, Announced n video audio ∧ f video audio = some s' := by
  obtain ⟨⟨video, audio⟩, hc, hf⟩ := Option.bind_eq_some_iff.mp hs
  exact ⟨video, audio, announced_of_ok (h.contexts _ hc), hf⟩

theorem step_inv (hn : Sound n) {s s' : Impl.Threads.State x} (a : Action cfg) (h : Inv n s)
    (hs : step cfg n.session n.sdp s a = some s') : Inv n s' := by
  cases a with
  | startCompositor opens => exact h.run hs fun _ => runCompositor_spec hn h opens
  | input event overrideWindow =>
    refine h.run hs fun _ => ensures_bind (processInput_ne_panic hn _ _ _) fun cursor _ => ?_
    exact ensures_ok ⟨h.calm, h.contexts, h.clock, h.keyed⟩
  | render =>
    have hcycle : refreshCycle s ≠ .panic := by
      rw [refreshCycle, checkedDiv_of_ne (by omega)]
      simp
    exact h.run hs fun _ => ensures_bind hcycle fun _ _ => ensures_ok h
  | announce =>
    simp only [step] at hs
    split at hs
    · refine h.run hs fun _ => ensures_bind (announce_ne_panic hn.bitrate) fun contexts hc => ?_
      refine ensures_ok ⟨h.calm, fun c hc' => ?_, h.clock, h.keyed⟩
      rw [← Option.some.inj hc']
      exact hc
    · contradiction
  | startPipeline created =>
    simp only [step] at hs
    obtain ⟨video, audio, ha, hs⟩ := withContexts_eq h hs
    exact h.run hs fun _ => runPipeline_spec hn h ha created
  | startPacketConsumer =>
    simp only [step] at hs
    obtain ⟨video, audio, ha, hs⟩ := withContexts_eq h hs
    exact h.run hs fun hp => runPacketConsumer_spec hn h ha hp
  | packet packet latency =>
    simp only [step] at hs
    obtain ⟨video, audio, ha, hs⟩ := withContexts_eq h hs
    exact h.run hs fun hp => consumePacket_spec hn h ha hp packet latency
  | startPulseServer =>
    simp only [step] at hs
    obtain ⟨video, audio, ha, hs⟩ := withContexts_eq h hs
    exact h.run hs fun _ => spawnPulseServer_spec h audio
  | clockTick =>
    refine h.run hs fun hp => ensures_bind ?_ fun _ _ => ensures_ok h
    rw [numFrames, checkedDiv_of_ne (h.clock hp)]
    simp
  | startAudioEncoder =>
    simp only [step] at hs
    obtain ⟨video, audio, -, hs⟩ := withContexts_eq h hs
    exact h.run hs fun _ => ensures_ok
      (h.setPhase (by decide) (fun he => by contradiction) (fun he => by contradiction))
  | audioFrame encoded encrypted =>
    simp only [step] at hs
    obtain ⟨video, audio, ha, hs⟩ := withContexts_eq h hs
    exact h.run hs fun _ => encodeAudio_spec hn h ha encoded encrypted

theorem inv_start (n : Negotiation cfg) (x : Crates) : Inv n (.start x n.session) where
  calm t := by simp [State.start]
  contexts c hc := by simp [State.start] at hc
  clock hp := by simp [State.start] at hp
  keyed hp := by simp [State.start] at hp

theorem noPanic_of_sound (hn : Sound n) : NoPanic n := fun x _ _ hrun =>
  (exec_inv (fun _ a _ h hs => step_inv hn a h hs) (inv_start n x) hrun).calm

/-! ## Runs without panics -/

/-- `s` is the state after a run. -/
def Reached (n : Negotiation cfg) (s : Impl.Threads.State x) : Prop :=
  ∃ as, exec (step cfg n.session n.sdp) (.start x n.session) as = some s

theorem Reached.step {s s' : Impl.Threads.State x} (h : Reached n s) {a : Action cfg}
    (hs : Impl.Threads.step cfg n.session n.sdp s a = some s') : Reached n s' := by
  obtain ⟨as, hrun⟩ := h
  exact ⟨as ++ [a], exec_append_singleton.mpr ⟨s, hrun, hs⟩⟩

/-- What a thread does in a session without panics does not panic. -/
theorem Reached.ne_panic (hno : NoPanic n) {s : Impl.Threads.State x} (h : Reached n s) {a : Action cfg}
    {t : Thread} {p : Phase} {o : Outcome (Impl.Threads.State x)} (hp : s.phase t = p)
    (ha : Impl.Threads.step cfg n.session n.sdp s a = s.run t p o) : o ≠ .panic := by
  rintro rfl
  rw [run_panic hp] at ha
  obtain ⟨as, hrun⟩ := h.step ha
  exact hno x as _ hrun t (by simp)

theorem Reached.ok {s m : Impl.Threads.State x} (h : Reached n s) {a : Action cfg} {t : Thread} {p : Phase}
    (hp : s.phase t = p) (ha : Impl.Threads.step cfg n.session n.sdp s a = s.run t p (.ok m)) :
    Reached n m := h.step (ha.trans (run_ok hp))

theorem ne_zero_of_checkedDiv {a b : Nat} (h : checkedDiv a b ≠ .panic) : b ≠ 0 := by
  rintro rfl
  exact h rfl

theorem lt_of_checkedMul_ne {w a b : Nat} (h : checkedMul w a b ≠ .panic) : a * b < 2 ^ w := by
  by_contra hge
  exact h (checkedMul_of_ge (Nat.not_lt.mp hge))

/-- A session that is launched, and nothing else. -/
structure Launched (n : Negotiation cfg) (s : Impl.Threads.State x) : Prop where
  reached : Reached n s
  ready : s.ready = true
  compositor : s.phase .compositor = .running
  idle : ∀ t, t ≠ .compositor → s.phase t = .idle
  sequenceNumber : s.sequenceNumber = 0

theorem launched_of_noPanic (hno : NoPanic n) (x : Crates) :
    (0 < n.session.refreshRate.toNat ∧ n.session.refreshRate.toNat * 1000 < 2 ^ 32) ∧
      ∃ s : Impl.Threads.State x, Launched n s := by
  have hstart : Reached n (State.start x n.session) := ⟨[], rfl⟩
  have hne := hstart.ne_panic hno (t := .compositor) (p := .idle) rfl
    (show Impl.Threads.step cfg n.session n.sdp _ (.startCompositor true) = _ from rfl)
  unfold runCompositor at hne
  have hmul := lt_of_checkedMul_ne (ne_panic_of_bind hne)
  rw [checkedMul_of_lt hmul, ok_bind, if_pos rfl] at hne
  have hdiv := ne_zero_of_checkedDiv (ne_panic_of_bind hne)
  refine ⟨⟨Nat.pos_of_ne_zero hdiv, hmul⟩, { (State.start x n.session).setPhase .compositor .running with
    ready := true
    refresh := (UInt32.ofNat (n.session.refreshRate.toNat * 1000)).toInt32.toInt }, ?_, rfl, ?_, ?_, rfl⟩
  · refine hstart.ok (a := .startCompositor true) (t := .compositor) (p := .idle) rfl ?_
    show State.run _ _ _ (runCompositor n.session true _) = _
    rw [runCompositor, checkedMul_of_lt hmul, ok_bind, if_pos rfl, checkedDiv_of_ne hdiv, ok_bind]
    rfl
  · show ((State.start x n.session).setPhase .compositor .running).phase .compositor = _
    simp
  · intro t ht
    show ((State.start x n.session).setPhase .compositor .running).phase t = _
    simp [ht, State.start]

theorem Launched.size (hno : NoPanic n) {s : Impl.Threads.State x} (h : Launched n s) :
    1 ≤ (outputSize n.session).1 ∧ 1 ≤ (outputSize n.session).2 := by
  have hne := h.reached.ne_panic hno h.compositor
    (show Impl.Threads.step cfg n.session n.sdp s (.input (.mouseMoveRelative 0 0) none) = _ from rfl)
  exact outputSize_of_clampCursor (ne_panic_of_bind hne)

/-- A launched session whose streams are announced. -/
structure Ready (n : Negotiation cfg) (video : VideoStreamContext) (audio : AudioStreamContext)
    (s : Impl.Threads.State x) : Prop where
  reached : Reached n s
  announced : Announced n video audio
  contexts : s.contexts = some (video, audio)
  idle : ∀ t, t ≠ .compositor → s.phase t = .idle
  sequenceNumber : s.sequenceNumber = 0

theorem Launched.announce (hno : NoPanic n) {s : Impl.Threads.State x} (h : Launched n s) :
    ∃ (video : VideoStreamContext) (audio : AudioStreamContext) (s' : Impl.Threads.State x), Ready n video audio s' := by
  have hstep : Impl.Threads.step cfg n.session n.sdp s .announce = s.run .rtsp .idle do
      let contexts ← n.announce
      return { s with contexts := some contexts } := if_pos h.ready
  have hidle := h.idle .rtsp (by decide)
  have hne := ne_panic_of_bind (h.reached.ne_panic hno hidle hstep)
  rcases hc : n.announce with ⟨video, audio⟩ | _ | _
  · rw [hc] at hstep
    exact ⟨video, audio, _, h.reached.ok hidle hstep, announced_of_ok hc, rfl, h.idle, h.sequenceNumber⟩
  · exact absurd hc n.announced
  · exact absurd hc hne

theorem withContexts_some {s : Impl.Threads.State x} {video : VideoStreamContext} {audio : AudioStreamContext}
    (hc : s.contexts = some (video, audio))
    (f : VideoStreamContext → AudioStreamContext → Option (Impl.Threads.State x)) :
    s.withContexts f = f video audio := by
  rw [State.withContexts, hc, Option.bind_some]

/-! ## The video stream -/

/-- The packet consumer runs. -/
structure Streaming (n : Negotiation cfg) (video : VideoStreamContext) (audio : AudioStreamContext)
    (s : Impl.Threads.State x) : Prop where
  reached : Reached n s
  contexts : s.contexts = some (video, audio)
  consumer : s.phase .packetConsumer = .running
  keyed : Keyed n s.packetizer.packetizer

theorem runPipeline_ok (cfg : Settings) {video : VideoStreamContext} (hfps : video.fps ≠ 0) (s : Impl.Threads.State x) :
    ∃ m, runPipeline cfg video true s = .ok m ∧ m.contexts = s.contexts ∧
      m.phase .packetConsumer = .spawned ∧
      m.packetizer.packetizer =
        (Packetizer.new x video.encryptVideo).warmUp cfg.fecPercentage video.minimumFecPackets := by
  refine ⟨{ (s.setPhase .videoPipeline .running).setPhase .packetConsumer .spawned with
    packetizer := ⟨(Packetizer.new x video.encryptVideo).warmUp cfg.fecPercentage
      video.minimumFecPackets, 0, []⟩ }, ?_, rfl, ?_, rfl⟩
  · unfold runPipeline
    dsimp only
    rw [checkedDiv_of_ne (toNat_ne_zero hfps), ok_bind, if_pos rfl, frameInterval, if_neg hfps, ok_bind]
    rfl
  · show ((s.setPhase .videoPipeline .running).setPhase .packetConsumer .spawned).phase .packetConsumer = _
    simp

theorem runPacketConsumer_ok {video : VideoStreamContext} (hfps : video.fps ≠ 0) (s : Impl.Threads.State x) :
    ∃ m, runPacketConsumer video s = .ok m ∧ m.contexts = s.contexts ∧
      m.phase .packetConsumer = .running ∧ m.packetizer = s.packetizer := by
  refine ⟨{ s.setPhase .packetConsumer .running with frameNumber := 0 }, ?_, rfl, ?_, rfl⟩
  · rw [runPacketConsumer, checkedDiv_of_ne (toNat_ne_zero hfps)]
    rfl
  · show (s.setPhase .packetConsumer .running).phase .packetConsumer = _
    simp

theorem Ready.stream (hno : NoPanic n) {video : VideoStreamContext} {audio : AudioStreamContext}
    {s : Impl.Threads.State x} (h : Ready n video audio s) :
    video.fps ≠ 0 ∧ ∃ s' : Impl.Threads.State x, Streaming n video audio s' := by
  have hidle := h.idle .videoPipeline (by decide)
  have hstep : Impl.Threads.step cfg n.session n.sdp s (.startPipeline true) =
      s.run .videoPipeline .idle (runPipeline cfg video true s) := by
    simp only [Impl.Threads.step]
    exact withContexts_some h.contexts _
  have hdiv := ne_zero_of_checkedDiv (ne_panic_of_bind (h.reached.ne_panic hno hidle hstep))
  have hfps : video.fps ≠ 0 := fun h0 => hdiv (by rw [h0]; rfl)
  obtain ⟨s₁, hs₁, hc₁, hp₁, hpacketizer⟩ := runPipeline_ok cfg hfps s
  rw [hs₁] at hstep
  obtain ⟨s₂, hs₂, hc₂, hp₂, hsame⟩ := runPacketConsumer_ok hfps s₁
  have hstep₁ : Impl.Threads.step cfg n.session n.sdp s₁ .startPacketConsumer =
      s₁.run .packetConsumer .spawned (.ok s₂) := by
    simp only [Impl.Threads.step]
    rw [withContexts_some (hc₁.trans h.contexts), hs₂]
  refine ⟨hfps, s₂, (h.reached.ok hidle hstep).ok hp₁ hstep₁, hc₂.trans (hc₁.trans h.contexts), hp₂, ?_⟩
  rw [hsame, hpacketizer, h.announced.encryptVideo]
  exact keyed_warmUp n _ _

/-- The packet of a frame, at time 0. -/
def firstPacket (data : List Byte) (h : data.length ≤ cfg.longestPacket) : EncodedPacket cfg.longestPacket :=
  ⟨0, data, false, by decide, h⟩

theorem Streaming.packetize (hno : NoPanic n) {video : VideoStreamContext} {audio : AudioStreamContext}
    {s : Impl.Threads.State x} (h : Streaming n video audio s) (hfps : video.fps ≠ 0) {data : List Byte}
    (hdata : data.length ≤ cfg.longestPacket) :
    (Packetizer.packetize n.session.keys
      (Pipeline.Config.args ⟨video, cfg.fecPercentage⟩ (s.frameNumber + 1) 0 data false 0)
      s.packetizer).1 ≠ .panic := by
  have hne := h.reached.ne_panic hno h.consumer (a := .packet (firstPacket data hdata) 0)
    (o := consumePacket cfg n.session video (firstPacket data hdata) 0 s) (by
      simp only [Impl.Threads.step]
      exact withContexts_some h.contexts _)
  intro hpanic
  refine hne ?_
  conv in @consumePacket x => delta consumePacket
  rw [checkedMul_of_lt (firstPacket data hdata).ticks, ok_bind,
    checkedDiv_of_ne (toNat_ne_zero hfps), ok_bind]
  dsimp only [firstPacket]
  rw [hpanic]

/-! ## The audio stream -/

/-- The audio encoder runs, and has numbered `k` packets. -/
structure Sounding (n : Negotiation cfg) (video : VideoStreamContext) (audio : AudioStreamContext) (k : Nat)
    (s : Impl.Threads.State x) : Prop where
  reached : Reached n s
  contexts : s.contexts = some (video, audio)
  encoder : s.phase .audioEncoder = .running
  sequenceNumber : s.sequenceNumber = UInt16.ofNat k

theorem Ready.sound {video : VideoStreamContext} {audio : AudioStreamContext} {s : Impl.Threads.State x}
    (h : Ready n video audio s) : ∃ s' : Impl.Threads.State x, Sounding n video audio 0 s' := by
  have hstep : Impl.Threads.step cfg n.session n.sdp s .startAudioEncoder =
      s.run .audioEncoder .idle (.ok (s.setPhase .audioEncoder .running)) := by
    simp only [Impl.Threads.step]
    exact withContexts_some h.contexts _
  exact ⟨_, h.reached.ok (h.idle .audioEncoder (by decide)) hstep, h.contexts, by simp, h.sequenceNumber⟩

/-- The sum of the IV of the next packet does not overflow, and it is sent. -/
theorem Sounding.next (hno : NoPanic n) {video : VideoStreamContext} {audio : AudioStreamContext} {k : Nat}
    {s : Impl.Threads.State x} (h : Sounding n video audio k s) (henc : audio.encryptAudio = true) :
    (keyIdU32 n.session.keys).toNat + (UInt16.ofNat k).toNat < 2 ^ 32 ∧
      ∃ s' : Impl.Threads.State x, Sounding n video audio (k + 1) s' := by
  have hstep : Impl.Threads.step cfg n.session n.sdp s (.audioFrame true true) =
      s.run .audioEncoder .running (encodeAudio n.session audio true true s) := by
    simp only [Impl.Threads.step]
    exact withContexts_some h.contexts _
  have hne := h.reached.ne_panic hno h.encoder hstep
  unfold encodeAudio at hne hstep
  rw [if_neg (by decide), if_pos henc] at hne hstep
  rw [h.sequenceNumber] at hne hstep
  have hsum : (keyIdU32 n.session.keys).toNat + (UInt16.ofNat k).toNat < 2 ^ 32 := by
    by_contra hge
    rw [checkedAdd_of_ge (Nat.not_lt.mp hge)] at hne
    exact hne rfl
  rw [checkedAdd_of_lt hsum, ok_bind, if_pos rfl] at hstep
  refine ⟨hsum, _, h.reached.ok h.encoder hstep, h.contexts, h.encoder, ?_⟩
  show UInt16.ofNat k + 1 = _
  rw [UInt16.ofNat_add]
  rfl

theorem Ready.sounds (hno : NoPanic n) {video : VideoStreamContext} {audio : AudioStreamContext}
    {s : Impl.Threads.State x} (h : Ready n video audio s) (henc : audio.encryptAudio = true) (k : Nat) :
    ∃ s' : Impl.Threads.State x, Sounding n video audio k s' := by
  induction k with
  | zero => exact h.sound
  | succ k ih =>
    obtain ⟨s', hs'⟩ := ih
    exact (hs'.next hno henc).2

/-! ## The exact range -/

theorem sound_of_noPanic (hno : NoPanic n) : Sound n := by
  obtain ⟨hrefresh, s, hs⟩ := launched_of_noPanic hno copying
  obtain ⟨hw, hh⟩ := hs.size hno
  obtain ⟨video, audio, s₁, hs₁⟩ := hs.announce hno
  obtain ⟨hfps, s₂, hs₂⟩ := hs₁.stream hno
  obtain ⟨kbps, hkbps, hbitrate⟩ := hs₁.announced.bitrate
  have hsize : 16 < video.packetSize := by
    by_contra hle
    have hempty : ([] : List Byte).length ≤ cfg.longestPacket := Nat.zero_le _
    exact hs₂.packetize hno hfps hempty (packetize_small (Nat.not_lt.mp hle) _ _)
  have hfit : ShardsFit n video.packetSize video.minimumFecPackets := by
    intro data hdata
    by_contra hcap
    refine hs₂.packetize hno hfps hdata (packetize_panics ?_ (copying_work _ _) ?_)
    · exact hsize
    · rw [show (_ : Option (List Byte)).isSome = n.videoEncrypted from hs₂.keyed]
      exact hcap
  refine ⟨hrefresh, (outputSize_pos _).mp hw, (outputSize_pos _).mp hh, fun k hk => ?_, fun h0 => ?_,
    fun size hsize' => ?_, fun size fec hsize' hfec => ?_, fun henc => ?_⟩
  · rwa [← Option.some.inj (hkbps.symm.trans hk)]
  · exact hfps (Option.some.inj (hs₁.announced.fps.symm.trans h0))
  · rwa [← Option.some.inj (hs₁.announced.packetSize.symm.trans hsize')]
  · rwa [← Option.some.inj (hs₁.announced.packetSize.symm.trans hsize'),
      ← Option.some.inj (hs₁.announced.minimumFecPackets.symm.trans hfec)]
  · have henc' : audio.encryptAudio = true := hs₁.announced.encryptAudio.trans henc
    obtain ⟨s₃, hs₃⟩ := hs₁.sounds hno henc' 65535
    exact (hs₃.next hno henc').1

/-- No thread of a session panics in a calculation with the values negotiated
for it, in any run, exactly if these values are sound. -/
theorem noPanic_iff (n : Negotiation cfg) : NoPanic n ↔ Sound n :=
  ⟨sound_of_noPanic, noPanic_of_sound⟩

/-- A server, and a client that asks for zero frames per second. -/
def exampleSettings : Settings := ⟨[1], false, 20, 2 ^ 20⟩

def exampleParams (name : String) : Option String :=
  [("appid", "1"), ("mode", "1920x1080x60"), ("rikey", "000102030405060708090a0b0c0d0e0f"),
    ("rikeyid", "7")].lookup name

def exampleSession : SessionContext where
  applicationId := 1
  resolution := (1920, 1080)
  refreshRate := 60
  keys := ⟨(List.range 16).map UInt8.ofNat, 7⟩
  audioChannels := .stereo
  audioChannelMask := 3
  hdr := false

def zeroFpsSdp (name : String) : Option String :=
  [("x-nv-video[0].clientViewportWd", "1920"), ("x-nv-video[0].clientViewportHt", "1080"),
    ("x-nv-video[0].maxFPS", "0"), ("x-nv-video[0].packetSize", "1024"),
    ("x-ml-video.configuredBitrateKbps", "20000"), ("x-nv-vqos[0].fec.minRequiredFecPackets", "2"),
    ("x-nv-vqos[0].qosTrafficType", "5"), ("x-nv-vqos[0].bitStreamFormat", "0"),
    ("x-nv-aqos.packetDuration", "5"), ("x-nv-aqos.qosTrafficType", "4")].lookup name

def zeroFps : Negotiation exampleSettings where
  params := exampleParams
  session := exampleSession
  launched := by decide +kernel
  sdp := zeroFpsSdp
  announced := by decide +kernel

/-- Both requests are accepted, and the video pipeline divides by zero. -/
theorem zeroFps_panics : ¬ NoPanic zeroFps := fun hno =>
  (sound_of_noPanic hno).fps (by decide +kernel)

end Moonshine.Proof.Threads
