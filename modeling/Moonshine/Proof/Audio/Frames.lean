import Moonshine.Proof.Audio.Buffer
import Moonshine.Proof.Audio.Streams

/-!
# Whole frames

A buffer of whole frames stays one when frames of at most 32 channels are read
from it (`drain_whole`). Over a run every buffer stays whole
(`buffers_whole`) if every client writes whole frames, no write is cut in the
middle of a frame, and no frames of more than 32 channels are read.
-/

namespace Moonshine.Proof.Frames

open Moonshine.Framework Moonshine.Impl Moonshine.Impl.Audio
open Moonshine.Proof.PlaybackBuffer Moonshine.Proof.PulseServer

variable {r : Resampler}

/-- The buffer holds whole frames. -/
def BufferWhole (b : Buffer) : Prop := b.sampleSpec.frameSize ∣ b.lenBytes

section Buffer

variable {b b' : Buffer}

theorem next_whole (hc : b.sampleSpec.channels.toNat ≤ 32) (hb : BufferWhole b) (h : b.next = .ok b') :
    BufferWhole b' := by
  by_cases hf : b.lenFrames = 0
  · rw [Buffer.next, Buffer.readFrame, if_pos hf] at h
    exact Outcome.ok.inj h ▸ hb
  · rw [next_of_channels hc (Nat.pos_of_ne_zero hf)] at h
    apply Outcome.ok.inj at h
    subst h
    show b.sampleSpec.frameSize ∣ (b.inner.drop (1 * b.sampleSpec.frameSize)).length
    rw [List.length_drop]
    exact Nat.dvd_sub hb (Nat.dvd_mul_left ..)

theorem drain_whole {n : Nat} {p p' : PlaybackBuffer r} (hc : p.buffer.sampleSpec.channels.toNat ≤ 32)
    (hp : BufferWhole p.buffer) (h : p.drain n = .ok (some p')) : BufferWhole p'.buffer := by
  have hkeep : ∀ b b', b.sampleSpec.channels.toNat ≤ 32 ∧ BufferWhole b → b.next = .ok b' →
      b'.sampleSpec.channels.toNat ≤ 32 ∧ BufferWhole b' := by
    rintro b b' ⟨hc, hb⟩ hnext
    have hspec := (next_trims hnext).sampleSpec
    exact ⟨by rwa [hspec], next_whole hc hb hnext⟩
  exact (drain_inv hkeep ⟨hc, hp⟩ h).2

end Buffer

/-- The buffer of the stream holds whole frames. -/
def Whole (s : PlaybackStream r) : Prop := BufferWhole s.buffer.buffer

/-- What the client writes is whole frames. -/
def EventWhole (channel : UInt32) (s : PlaybackStream r) : Event → Prop
  | .packet (.write ch payload) => ch = channel →
    s.buffer.buffer.sampleSpec.frameSize ∣ payload.length
  | .packet (.command _ _) | .tick => True

/-- A write is cut between two frames, if at all, and frames that are read have at
most 32 channels. -/
def EventKeeps (numFrames : Nat) (channel : UInt32) (s : PlaybackStream r) : Event → Prop
  | .packet (.write ch payload) => ch = channel →
    s.bufferAttr.maxLength.toNat - s.buffer.lenBytes < payload.length →
      s.buffer.buffer.sampleSpec.frameSize ∣ s.bufferAttr.maxLength.toNat - s.buffer.lenBytes
  | .packet (.command _ _) => True
  | .tick => s.state = .playing ∨ (∃ seq, s.state = .draining seq) →
    needed numFrames s.buffer ≤ s.buffer.lenFrames → s.buffer.buffer.sampleSpec.channels.toNat ≤ 32

section Stream

variable {s : PlaybackStream r}

theorem whole_newStream {params : CreateParams} {server : ServerState} (h : newStream params server = .ok s) :
    Whole s := by
  obtain ⟨attr, -, h⟩ := Outcome.bind_eq_ok.mp h
  obtain ⟨cvolume, -, h⟩ := Outcome.bind_eq_ok.mp h
  obtain ⟨buffer, hbuffer, h⟩ := Outcome.bind_eq_ok.mp h
  cases h
  have hempty : buffer.buffer.lenBytes = 0 := lenBytes_new hbuffer
  show buffer.buffer.sampleSpec.frameSize ∣ buffer.buffer.lenBytes
  rw [hempty]
  exact Nat.dvd_zero _

theorem Whole.of_eq {s' : PlaybackStream r} (h : Whole s) (hbuffer : s'.buffer = s.buffer) : Whole s' := by
  rw [Whole, hbuffer]
  exact h

theorem Whole.flush (s : PlaybackStream r) : Whole (flush s) := by
  have hempty : (Audio.flush s).buffer.buffer.lenBytes = 0 := lenBytes_clear s.buffer
  rw [Whole, BufferWhole, hempty]
  exact Nat.dvd_zero _

/-- A write is taken whole, or as far as there is room. -/
theorem Whole.write (h : Whole s) {channel : UInt32} {payload : List Byte}
    (hwhole : s.buffer.buffer.sampleSpec.frameSize ∣ payload.length)
    (hkeeps : s.bufferAttr.maxLength.toNat - s.buffer.lenBytes < payload.length →
      s.buffer.buffer.sampleSpec.frameSize ∣ s.bufferAttr.maxLength.toNat - s.buffer.lenBytes) :
    Whole (writeStream channel payload s).1 := by
  have htaken : s.buffer.buffer.sampleSpec.frameSize ∣
      (payload.take (s.bufferAttr.maxLength.toNat - s.buffer.lenBytes)).length := by
    rw [List.length_take]
    rcases Nat.lt_or_ge (s.bufferAttr.maxLength.toNat - s.buffer.lenBytes) payload.length with hlt | hge
    · rw [Nat.min_eq_left (Nat.le_of_lt hlt)]
      exact hkeeps hlt
    · rwa [Nat.min_eq_right hge]
  show BufferWhole (s.buffer.write _).buffer
  have hspec : ∀ taken, (s.buffer.write taken).buffer.sampleSpec = s.buffer.buffer.sampleSpec := by
    intro taken
    cases s.buffer <;> rfl
  have hlen : ∀ taken : List Byte, (s.buffer.write taken).buffer.lenBytes = s.buffer.lenBytes + taken.length :=
    fun taken => lenBytes_write taken s.buffer
  rw [BufferWhole, hspec, hlen]
  exact Nat.dvd_add h htaken

theorem Whole.tick (h : Whole s) {numFrames : Nat} {channel : UInt32} {t : Ticked r}
    (ht : tickStream numFrames channel s = .ok t)
    (hkeeps : s.state = .playing ∨ (∃ seq, s.state = .draining seq) →
      needed numFrames s.buffer ≤ s.buffer.lenFrames → s.buffer.buffer.sampleSpec.channels.toNat ≤ 32) :
    Whole t.stream := by
  obtain ⟨res, hd, rfl⟩ := tickStream_eq_ok.mp ht
  have hdrained : Whole res.1 := by
    cases drainPhase_cases hd with
    | idle => exact h
    | underrun => exact h
    | starved => exact h
    | played hstate hdrain => exact drain_whole (hkeeps (.inl hstate) (needed_le_of_drain hdrain)) h hdrain
    | drained hstate hdrain => exact drain_whole (hkeeps (.inr ⟨_, hstate⟩) (needed_le_of_drain hdrain)) h hdrain
  show Whole (requestPhase channel res.1).1
  rcases requestPhase_cases channel res.1 with ⟨seq, -, heq⟩ | ⟨-, heq⟩
  · rw [heq]
    exact hdrained
  · rw [heq]
    exact hdrained.of_eq (buffer_popMissing ..)

/-- What an event makes of a stream of whole frames. -/
theorem Whole.change (h : Whole s) {server : ServerState} {channel : UInt32} {e : Event}
    {s' : PlaybackStream r} (hchange : Change server channel s e s') (hwhole : EventWhole channel s e)
    (hkeeps : EventKeeps server.numFrames channel s e) : Whole s' := by
  cases hchange with
  | kept => exact h
  | draining => exact h
  | corked =>
    unfold cork
    split <;> exact h
  | uncorked => exact h.of_eq (buffer_uncork channel s)
  | flushed => exact .flush s
  | triggered =>
    unfold trigger
    split <;> exact h
  | prebuffered =>
    unfold prebuf
    split <;> exact h
  | renegotiated _ hs' =>
    obtain ⟨configured, -, hs'⟩ := Outcome.bind_eq_ok.mp hs'
    cases hs'
    exact h
  | written payload => exact h.write (hwhole rfl) (hkeeps rfl)
  | ticked ht => exact h.tick ht hkeeps

end Stream

/-- The clients write whole frames. -/
def WritesWhole (w : World r) (act : Action) : Prop :=
  ∀ token channel s, stream? w token channel = some s → ∀ e ∈ eventFor token act, EventWhole channel s e

/-- The action cuts no frame. -/
def KeepsFrames (w : World r) (act : Action) : Prop :=
  ∀ token channel s, stream? w token channel = some s →
    ∀ e ∈ eventFor token act, EventKeeps w.server.numFrames channel s e

theorem allWhole_step {w w' : World r} {act : Action} (h : AllStreams Whole w)
    (hs : step w act = some w') (hC : WritesWhole w act ∧ KeepsFrames w act) : AllStreams Whole w' :=
  h.step hs (fun _ _ hnew => (whole_newStream hnew).of_eq (buffer_popMissing ..))
    fun token channel s e _ hstream hact hs hchange =>
      hs.change hchange (hC.1 token channel s hstream e hact) (hC.2 token channel s hstream e hact)

/-- In a run in which the clients write whole frames, no write is cut within a
frame and no frames of more than 32 channels are read, every buffer holds whole
frames. -/
theorem buffers_whole {captureSpec : SampleSpec} {clockRateHz : Nat} {acts : List Action} {w : World r}
    (he : exec step (World.start captureSpec clockRateHz) acts = some w)
    (hC : EveryStep step (fun w act _ => WritesWhole w act ∧ KeepsFrames w act)
      (World.start captureSpec clockRateHz : World r) acts) {token : Nat} {channel : UInt32}
    {s : PlaybackStream r} (hs : stream? w token channel = some s) :
    s.buffer.buffer.sampleSpec.frameSize ∣ s.buffer.lenBytes :=
  EveryStep.keeps (fun _ _ _ h hs hC => allWhole_step h hs hC) (allStreams_start captureSpec clockRateHz)
    hC he token channel s hs

/-- A stream is created with its lengths by default, but for the maximal one, and
written to. -/
def writeRun (spec : SampleSpec) (maxLength : UInt32) (n : Nat) : List Action :=
  [.connect, .recv 1024 (.command 0 (.createPlaybackStream
      ⟨spec, [], false, false, ⟨maxLength, u32Max, u32Max, u32Max⟩, none⟩)),
    .recv 1024 (.write 0 (List.replicate n 0))]

theorem command_keeps {token : Nat} {seq : UInt32} {cmd : Command} {w : World r} :
    WritesWhole w (.recv token (.command seq cmd)) ∧ KeepsFrames w (.recv token (.command seq cmd)) := by
  refine ⟨fun t channel s _ e he => ?_, fun t channel s _ e he => ?_⟩
  all_goals
    simp only [eventFor, Option.mem_def] at he
    split at he
    · cases he
      trivial
    · cases he

/-- A converter that is not read from. -/
def idleResampler : Resampler := ⟨Unit, fun _ _ => .ok (), fun c => (1, c)⟩

def idleStart : World idleResampler := World.start ⟨.float32Le, 2, 48000⟩ 200

theorem connect_keeps {w : World r} : WritesWhole w .connect ∧ KeepsFrames w .connect :=
  ⟨fun _ _ _ _ _ he => (nomatch he), fun _ _ _ _ _ he => (nomatch he)⟩

/-- Only the stream that is written to matters. -/
theorem write_keeps {token : Nat} {channel : UInt32} {payload : List Byte} {w : World r}
    {s : PlaybackStream r} (hs : stream? w token channel = some s) :
    (WritesWhole w (.recv token (.write channel payload)) ↔
      s.buffer.buffer.sampleSpec.frameSize ∣ payload.length) ∧
    (KeepsFrames w (.recv token (.write channel payload)) ↔
      EventKeeps w.server.numFrames channel s (.packet (.write channel payload))) := by
  refine ⟨⟨fun h => h token channel s hs _ (if_pos rfl) rfl, fun h t ch s' hs' e he => ?_⟩,
    ⟨fun h => h token channel s hs _ (if_pos rfl), fun h t ch s' hs' e he => ?_⟩⟩
  all_goals
    simp only [eventFor, Option.mem_def] at he
    split at he
    · next ht =>
      cases he
      subst ht
      rintro rfl
      cases hs.symm.trans hs'
      first | exact h | exact h rfl
    · cases he

/-- A mono stream of 16-bit samples may hold ten bytes, and is written twelve. -/
theorem writeRun_whole : ∃ w s, exec step idleStart (writeRun ⟨.s16Le, 1, 48000⟩ 10 12) = some w ∧
    stream? w 1024 0 = some s ∧ s.buffer.lenBytes = 10 ∧
      s.buffer.buffer.sampleSpec.frameSize ∣ s.buffer.lenBytes := by
  obtain ⟨w, hw⟩ : ∃ w, exec step idleStart (writeRun ⟨.s16Le, 1, 48000⟩ 10 12) = some w := ⟨_, rfl⟩
  obtain ⟨s, hs⟩ : ∃ s, stream? w 1024 0 = some s := by
    cases hw
    exact ⟨_, rfl⟩
  refine ⟨w, s, hw, hs, ?_, buffers_whole hw ?_ hs⟩
  · cases hw
    cases hs
    decide +kernel
  · refine (everyStep_cons rfl).mpr ⟨connect_keeps, (everyStep_cons rfl).mpr ⟨command_keeps,
      (everyStep_cons rfl).mpr ⟨⟨(write_keeps rfl).1.mpr ?_, (write_keeps rfl).2.mpr ?_⟩, trivial⟩⟩⟩
    · decide +kernel
    · intro _ _
      decide +kernel

/-- 10 ms of 24-bit samples at 150 Hz are four bytes, and twenty times that is
not whole samples. -/
theorem write_cut_within_frame : ¬∀ acts w s, exec step idleStart acts = some w →
    EveryStep step (fun w act _ => WritesWhole w act) idleStart acts →
    stream? w 1024 0 = some s → s.buffer.buffer.sampleSpec.frameSize ∣ s.buffer.lenBytes := by
  intro h
  obtain ⟨w, hw⟩ : ∃ w, exec step idleStart (writeRun ⟨.s24Le, 1, 150⟩ u32Max 81) = some w := ⟨_, rfl⟩
  obtain ⟨s, hs⟩ : ∃ s, stream? w 1024 0 = some s := by
    cases hw
    exact ⟨_, rfl⟩
  have hwhole := h _ w s hw ((everyStep_cons rfl).mpr ⟨connect_keeps.1, (everyStep_cons rfl).mpr
    ⟨command_keeps.1, (everyStep_cons rfl).mpr ⟨(write_keeps rfl).1.mpr (by decide +kernel), trivial⟩⟩⟩) hs
  cases hw
  cases hs
  exact absurd hwhole (by decide +kernel)

end Moonshine.Proof.Frames
