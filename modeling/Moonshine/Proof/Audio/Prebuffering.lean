import Moonshine.Proof.Audio.Buffer
import Moonshine.Proof.Audio.Streams

/-!
# Prebuffering

A prebuffering stream counts down the bytes that it waits for, whatever its
buffer holds. What is buffered and what is awaited make up the prebuffering
together (`Filling`), as long as no flush empties the buffer under a count that
was started with less, and no new attributes ask for more (`EventRefills`). Then
the write that starts the playback leaves enough in the buffer
(`starts_full`).
-/

namespace Moonshine.Proof.Prebuffering

open Moonshine.Framework Moonshine.Impl Moonshine.Impl.Audio
open Moonshine.Proof.PlaybackBuffer Moonshine.Proof.PulseServer

variable {r : Resampler}

/-- What is buffered and what is awaited make up the prebuffering. -/
structure Filling (s : PlaybackStream r) : Prop where
  awaited : ∀ n, s.state = .prebuffering n → s.bufferAttr.preBuffering.toNat ≤ s.buffer.lenBytes + n
  preBuffering_le : s.bufferAttr.preBuffering.toNat ≤ s.bufferAttr.targetLength.toNat

theorem preBuffering_le_of_configureBuffer {spec : SampleSpec} {attr configured : BufferAttr}
    (h : configureBuffer spec attr = .ok configured) :
    configured.preBuffering.toNat ≤ configured.targetLength.toNat := by
  obtain ⟨m, -, h⟩ := Outcome.bind_eq_ok.mp h
  obtain ⟨l, -, h⟩ := Outcome.bind_eq_ok.mp h
  obtain ⟨t, -, h⟩ := Outcome.bind_eq_ok.mp h
  obtain ⟨p, hp, h⟩ := Outcome.bind_eq_ok.mp h
  cases h
  show p.toNat ≤ t.toNat
  unfold configurePreBuffering at hp
  split at hp
  · rw [Outcome.ok.inj hp]
  · obtain ⟨rounded, -, hp⟩ := Outcome.bind_eq_ok.mp hp
    rw [← Outcome.ok.inj hp, UInt32.toNat_min]
    omega

section Stream

variable {s : PlaybackStream r}

/-- Where the state is not prebuffering, only the attributes matter. -/
theorem Filling.of_state {s' : PlaybackStream r} (h : Filling s)
    (hattr : s'.bufferAttr = s.bufferAttr) (hstate : ∀ n, s'.state ≠ .prebuffering n) : Filling s' :=
  ⟨fun n hn => absurd hn (hstate n), hattr ▸ h.preBuffering_le⟩

/-- Where only the demand changes. -/
theorem Filling.of_eq {s' : PlaybackStream r} (h : Filling s) (hattr : s'.bufferAttr = s.bufferAttr)
    (hbuffer : s'.buffer = s.buffer) (hstate : s'.state = s.state) : Filling s' := by
  refine ⟨fun n hn => ?_, hattr ▸ h.preBuffering_le⟩
  rw [hattr, hbuffer]
  exact h.awaited n (hstate ▸ hn)

theorem Filling.popMissing (h : Filling s) (inPrebuf : Bool) : Filling (popMissing inPrebuf s).2 := by
  rcases popMissing_cases inPrebuf s with heq | heq
  · rw [heq]
    exact h
  · rw [heq]
    exact h.of_eq rfl rfl rfl

/-- A count that starts over awaits the whole prebuffering. -/
theorem Filling.rebuffer (h : Filling s) : Filling (PlaybackStream.rebuffer s) := by
  refine ⟨fun n hn => ?_, h.preBuffering_le⟩
  show s.bufferAttr.preBuffering.toNat ≤ s.buffer.lenBytes + n
  have hcount := StreamState.prebuffering.inj hn
  omega

theorem filling_newStream {params : CreateParams} {server : ServerState}
    (h : newStream params server = .ok s) : Filling s := by
  obtain ⟨attr, hattr, h⟩ := Outcome.bind_eq_ok.mp h
  obtain ⟨cvolume, -, h⟩ := Outcome.bind_eq_ok.mp h
  obtain ⟨buffer, -, h⟩ := Outcome.bind_eq_ok.mp h
  cases h
  refine ⟨fun n hn => ?_, preBuffering_le_of_configureBuffer hattr⟩
  dsimp only at hn ⊢
  split at hn
  · cases hn
  · have hcount := StreamState.prebuffering.inj hn
    omega

theorem Filling.cork (h : Filling s) : Filling (cork s) := by
  unfold Audio.cork
  split
  · exact h.of_state rfl nofun
  · exact h.of_state rfl nofun
  · exact h

theorem Filling.trigger (h : Filling s) : Filling (trigger s) := by
  unfold Audio.trigger
  split
  · exact h.of_state rfl nofun
  · exact h

theorem Filling.prebuf (h : Filling s) : Filling (prebuf s) := by
  unfold Audio.prebuf
  split
  · exact h.rebuffer
  · exact h

/-- Uncorking awaits what the target lacks, which is at least what the
prebuffering does. -/
theorem Filling.uncork (h : Filling s) (channel : UInt32) : Filling (uncork channel s).1 := by
  have hle := h.preBuffering_le
  unfold Audio.uncork
  split
  · dsimp only
    rcases popMissing_cases true { s with
        missing := (s.bufferAttr.targetLength.toNat - s.buffer.lenBytes : Nat)
        requested := 0 } with heq | heq
    · rw [heq]
      exact h.of_state rfl nofun
    · rw [heq]
      dsimp only
      split
      · refine ⟨fun n hn => ?_, h.preBuffering_le⟩
        show s.bufferAttr.preBuffering.toNat ≤ s.buffer.lenBytes + n
        have hcount := StreamState.prebuffering.inj hn
        omega
      · exact h.of_state rfl nofun
  · exact h

/-- A write moves bytes from what is awaited to what is buffered. -/
theorem Filling.write (h : Filling s) (channel : UInt32) (payload : List Byte) :
    Filling (writeStream channel payload s).1 ∧
      (s.isPrebuffering → (writeStream channel payload s).1.state = .playing →
        s.bufferAttr.preBuffering.toNat ≤ (writeStream channel payload s).1.buffer.lenBytes) := by
  have hattr : (writeStream channel payload s).1.bufferAttr = s.bufferAttr := rfl
  obtain ⟨taken, hbuffer, hfill, hother⟩ : ∃ taken : List Byte,
      (writeStream channel payload s).1.buffer = s.buffer.write taken ∧
      (∀ n, s.state = .prebuffering n → (writeStream channel payload s).1.state =
        if n - taken.length > 0 then .prebuffering (n - taken.length) else .playing) ∧
      (s.isPrebuffering = false → (writeStream channel payload s).1.state = s.state) := by
    refine ⟨_, rfl, fun n hs => ?_, fun hs => ?_⟩
    · show Prod.fst _ = _
      rw [hs]
      exact apply_ite Prod.fst ..
    · show Prod.fst _ = _
      unfold PlaybackStream.isPrebuffering at hs
      revert hs
      cases s.state with
      | prebuffering n => exact fun hs => absurd hs (by simp)
      | corked | playing | draining seq => exact fun _ => rfl
  cases hs : s.state with
  | prebuffering n =>
    have hawaited := h.awaited n hs
    have hstate := hfill n hs
    split at hstate
    · refine ⟨⟨fun m hm => ?_, hattr ▸ h.preBuffering_le⟩,
        fun _ hplaying => absurd (hstate.symm.trans hplaying) (by simp)⟩
      have hcount := StreamState.prebuffering.inj (hstate.symm.trans hm)
      rw [hattr, hbuffer, lenBytes_write]
      omega
    · refine ⟨h.of_state hattr fun m hm => absurd (hstate.symm.trans hm) (by simp), fun _ _ => ?_⟩
      rw [hbuffer, lenBytes_write]
      omega
  | corked | playing | draining seq =>
    have hstate := hother (by simp [PlaybackStream.isPrebuffering, hs])
    rw [hs] at hstate
    refine ⟨h.of_state hattr fun m hm => absurd (hstate.symm.trans hm) (by simp), fun hpre => ?_⟩
    simp only [PlaybackStream.isPrebuffering, hs, Bool.false_eq_true] at hpre

theorem Filling.tick (h : Filling s) {numFrames : Nat} {channel : UInt32} {t : Ticked r}
    (ht : tickStream numFrames channel s = .ok t) : Filling t.stream := by
  obtain ⟨res, hd, rfl⟩ := tickStream_eq_ok.mp ht
  have hdrained : Filling res.1 := by
    cases drainPhase_cases hd with
    | idle => exact h
    | underrun => exact h.rebuffer
    | starved => exact h
    | played hstate => exact h.of_state rfl fun n hn => nomatch hstate.symm.trans hn
    | drained hstate => exact h.of_state rfl fun n hn => nomatch hstate.symm.trans hn
  show Filling (requestPhase channel res.1).1
  rcases requestPhase_cases channel res.1 with ⟨seq, -, heq⟩ | ⟨-, heq⟩
  · rw [heq]
    exact hdrained
  · rw [heq]
    exact hdrained.popMissing _

/-- An event that empties the buffer of a prebuffering stream, or changes what it
waits for, leaves enough to wait for. -/
def EventRefills (channel : UInt32) (s : PlaybackStream r) : Event → Prop
  | .packet (.command _ (.flushPlaybackStream ch)) => ch = channel →
    ∀ n, s.state = .prebuffering n → s.bufferAttr.preBuffering.toNat ≤ n
  | .packet (.command _ (.setPlaybackStreamBufferAttr index attr)) => index = channel →
    ∀ n, s.state = .prebuffering n →
      ∀ configured, configureBuffer s.buffer.buffer.sampleSpec attr = .ok configured →
        configured.preBuffering.toNat ≤ s.buffer.lenBytes + n
  | .packet _ | .tick => True

theorem Filling.flush (h : Filling s)
    (hrefills : ∀ n, s.state = .prebuffering n → s.bufferAttr.preBuffering.toNat ≤ n) :
    Filling (flush s) := by
  refine ⟨fun n hn => ?_, h.preBuffering_le⟩
  exact Nat.le_trans (hrefills n hn) (Nat.le_add_left n _)

theorem Filling.setBufferAttr {attr : BufferAttr} {s' : PlaybackStream r}
    (hs' : setBufferAttr attr s = .ok s') (hrefills : ∀ n, s.state = .prebuffering n →
      ∀ configured, configureBuffer s.buffer.buffer.sampleSpec attr = .ok configured →
        configured.preBuffering.toNat ≤ s.buffer.lenBytes + n) : Filling s' := by
  obtain ⟨configured, hattr, hs'⟩ := Outcome.bind_eq_ok.mp hs'
  cases hs'
  exact ⟨fun n hn => hrefills n hn configured hattr, preBuffering_le_of_configureBuffer hattr⟩

/-- What an event makes of a filling stream. -/
theorem Filling.change (h : Filling s) {server : ServerState} {channel : UInt32} {e : Event}
    {s' : PlaybackStream r} (hchange : Change server channel s e s')
    (hrefills : EventRefills channel s e) : Filling s' := by
  cases hchange with
  | kept => exact h
  | draining seq => exact h.of_state rfl nofun
  | corked => exact h.cork
  | uncorked => exact h.uncork channel
  | flushed => exact h.flush (hrefills rfl)
  | triggered => exact h.trigger
  | prebuffered => exact h.prebuf
  | renegotiated _ hs' => exact .setBufferAttr hs' (hrefills rfl)
  | written payload => exact (h.write channel payload).1
  | ticked ht => exact h.tick ht

end Stream

/-- The action leaves every prebuffering stream enough to wait for. -/
def Refills (w : World r) (act : Action) : Prop :=
  ∀ token channel s, stream? w token channel = some s →
    ∀ e ∈ eventFor token act, EventRefills channel s e

/-- A write that takes a stream from prebuffering to playing leaves the
prebuffering in its buffer. -/
def StartsFull (w : World r) (act : Action) (w' : World r) : Prop :=
  ∀ token channel payload, act = .recv token (.write channel payload) →
    ∀ s ∈ stream? w token channel, ∀ s' ∈ stream? w' token channel,
      s.isPrebuffering → s'.state = .playing → s'.bufferAttr.preBuffering.toNat ≤ s'.buffer.lenBytes

theorem allFilling_step {w w' : World r} {act : Action} (h : AllStreams Filling w)
    (hs : step w act = some w') (hrefills : Refills w act) : AllStreams Filling w' :=
  h.step hs (fun _ _ hnew => (filling_newStream hnew).popMissing _)
    fun token channel s e _ hstream hact hfilling hchange =>
      hfilling.change hchange (hrefills token channel s hstream e hact)

theorem startsFull_step {w w' : World r} {act : Action} (h : AllStreams Filling w)
    (hs : step w act = some w') : StartsFull w act w' := by
  rintro token channel payload rfl s hstream s' hstream' hpre hplaying
  rcases stream?_of_step hs hstream' with hkept | ⟨e, c, hact, hc, hcomes⟩
  · cases hstream.symm.trans hkept
    simp only [PlaybackStream.isPrebuffering, hplaying, Bool.false_eq_true] at hpre
  · obtain rfl : Event.packet (.write channel payload) = e :=
      Option.some.inj ((if_pos rfl).symm.trans hact)
    cases hcomes with
    | created he => cases he
    | @changed t hget hchange =>
      have hget : stream? w token channel = some t := Option.bind_eq_some_iff.mpr ⟨c, hc, hget⟩
      cases hstream.symm.trans hget
      cases hchange with
      | kept => simp only [PlaybackStream.isPrebuffering, hplaying, Bool.false_eq_true] at hpre
      | written => exact ((h token channel s hstream).write channel payload).2 hpre hplaying

/-- In a run in which no flush and no new attributes leave a prebuffering stream
less to wait for than its prebuffering lacks, every write that starts the
playback leaves the prebuffering in the buffer. -/
theorem starts_full {captureSpec : SampleSpec} {clockRateHz : Nat} {acts : List Action}
    (hrefills : EveryStep step (fun w act _ => Refills w act)
      (World.start captureSpec clockRateHz : World r) acts) :
    EveryStep step StartsFull (World.start captureSpec clockRateHz : World r) acts :=
  .of_keeps (fun _ _ _ h hs hC => allFilling_step h hs hC) (fun _ _ _ h hs _ => startsFull_step h hs)
    (allStreams_start captureSpec clockRateHz) hrefills

/-- A stream that waits for ten bytes, and the writes and flushes of it. -/
def prebufferRun (writes : List Packet) : List Action :=
  .connect :: .recv 1024 (.command 0 (.createPlaybackStream (exampleParams 10))) ::
    writes.map (.recv 1024)

/-- Six bytes, and ten more. -/
def fillRun : List Action :=
  prebufferRun [.write 0 (List.replicate 6 0), .write 0 (List.replicate 10 0)]

theorem fillRun_starts_full :
    (exec step exampleStart fillRun).map (fun w =>
      (stream? w 1024 0).map fun s => (s.state, s.buffer.lenBytes)) = some (some (.playing, 10)) ∧
    EveryStep step StartsFull exampleStart fillRun := by
  refine ⟨by decide +kernel, starts_full ?_⟩
  have hnone : ∀ act ∈ fillRun, ∀ w : World exampleResampler, Refills w act := by
    intro act hact w token channel s _ e he
    simp only [fillRun, prebufferRun, List.map_cons, List.map_nil, List.mem_cons, List.not_mem_nil,
      or_false] at hact
    rcases hact with rfl | rfl | rfl | rfl
    · cases he
    all_goals
      simp only [eventFor, Option.mem_def] at he
      split at he
      · cases he
        trivial
      · cases he
  exact (everyStep_of_forall hnone _).mono fun w act _ h => h w

/-- A flush takes the six bytes that the count no longer waits for. -/
theorem flush_starts_short : ¬∀ acts, EveryStep step StartsFull exampleStart acts := by
  intro h
  have hrun := h (prebufferRun [.write 0 (List.replicate 6 0), .command 1 (.flushPlaybackStream 0),
    .write 0 (List.replicate 4 0)])
  obtain ⟨-, hrun⟩ := hrun _ rfl
  obtain ⟨-, hrun⟩ := hrun _ rfl
  obtain ⟨-, hrun⟩ := hrun _ rfl
  obtain ⟨-, hrun⟩ := hrun _ rfl
  obtain ⟨hfull, -⟩ := hrun _ rfl
  have hle := hfull 1024 0 (List.replicate 4 0) rfl _ rfl _ rfl rfl rfl
  exact absurd hle (by decide +kernel)

end Moonshine.Proof.Prebuffering
