import Moonshine.Impl.Audio.PulseServer
import Moonshine.Proof.Audio.Sampled

/-!
# Draining the streams of the server

The buffers of the streams that `CreatePlaybackStream` accepts are readable
(`readable_of_newStream`), however they are written, drained and cleared
(`BufferOf`), so that what is known about their drains applies
(`drainsWhole_iff`). Forgetting the samples, a drain is that of the buffers of
bytes, with the exact converter (`drain_forget`).
-/

namespace Moonshine.Proof.Sampled

open Moonshine.Framework Moonshine.Framework.Signal Moonshine.Impl Moonshine.Impl.Audio
open Moonshine.Impl.Audio.Sampled

variable {d : Dasp}

section BufferOf

variable {sampleSpec outputSpec : SampleSpec} {p p' : Sampled.PlaybackBuffer d}

theorem bufferOf_new {channelMap : List ChannelPosition}
    (h : Sampled.PlaybackBuffer.new sampleSpec channelMap outputSpec = .ok p) :
    BufferOf sampleSpec outputSpec p := by
  unfold Sampled.PlaybackBuffer.new at h
  extract_lets outputChannels buffer at h
  split_ifs at h with houtputs hrate
  · cases h
    exact ⟨rfl, (not_not.mp houtputs).symm, hrate⟩
  · obtain ⟨position, hposition, h⟩ := Outcome.bind_eq_ok.mp h
    cases h
    unfold Position.fromHzToHz at hposition
    split_ifs at hposition
    cases hposition
    exact ⟨rfl, (not_not.mp houtputs).symm, rfl, rfl, rfl⟩

theorem BufferOf.write (h : BufferOf sampleSpec outputSpec p) (payload : List Byte) :
    BufferOf sampleSpec outputSpec (p.write payload) := by
  cases p <;> exact ⟨h.sampleSpec_eq, h.outputs, h.rates⟩

theorem BufferOf.clear (h : BufferOf sampleSpec outputSpec p) : BufferOf sampleSpec outputSpec p.clear := by
  cases p <;> exact ⟨h.sampleSpec_eq, h.outputs, h.rates⟩

theorem BufferOf.drain (h : BufferOf sampleSpec outputSpec p) (hread : Readable p.buffer)
    {missing : Outcome Frame} {n reads : Nat} {frames : Option (List Frame)}
    (hdrain : p.drain missing n reads = .ok (frames, p')) : BufferOf sampleSpec outputSpec p' := by
  by_cases hfits : ProductFits n p
  swap
  · rw [drain_of_overflow _ hfits] at hdrain
    cases hdrain
  rw [drain_eq _ hread h hfits] at hdrain
  split_ifs at hdrain with hlt
  · cases hdrain
    exact h
  have hlen : pulled n p * p.buffer.sampleSpec.frameSize ≤ p.buffer.inner.length :=
    (Nat.le_div_iff_mul_le hread.frame).mp (Nat.le_trans (pulled_le_needed h n) (Nat.le_of_not_lt hlt))
  by_cases hover : pulled n p ≠ 0 ∧ Overread p.buffer
  · rw [lend_of_overread _ hread hover.2 hlen hover.1] at hdrain
    cases hdrain
  · obtain ⟨_, _, hlend, -, hp'⟩ :=
      lend_of_le missing reads h hread (fun hpos hbad => hover ⟨hpos, hbad⟩) hlen
    cases hlend.symm.trans hdrain
    exact hp'

end BufferOf

theorem frameSize_pos_of_configureBuffer {spec : SampleSpec} {attr configured : BufferAttr}
    (h : configureBuffer spec attr = .ok configured) : 0 < spec.frameSize := by
  obtain ⟨m, -, h⟩ := Outcome.bind_eq_ok.mp h
  obtain ⟨l, hl, -⟩ := Outcome.bind_eq_ok.mp h
  refine Nat.pos_of_ne_zero fun hzero => ?_
  have hpanic : ∀ a, nextMultipleOf a (UInt32.ofNat spec.frameSize) = .panic := by
    intro a
    rw [hzero]
    rfl
  unfold configureMinimumRequestLength at hl
  split at hl
  · rw [hpanic] at hl
    cases hl
  · rw [hpanic] at hl
    cases hl

theorem outputs_le_of_new {r : Resampler} {sampleSpec outputSpec : SampleSpec} {p : Audio.PlaybackBuffer r}
    (h : Audio.PlaybackBuffer.new sampleSpec outputSpec = .ok p) : outputSpec.channels.toNat ≤ 32 := by
  unfold Audio.PlaybackBuffer.new at h
  extract_lets buffer at h
  split at h
  · cases h
  · next houtputs =>
    rw [not_not.mp houtputs]
    show (if outputSpec.channels = 6 then 6 else if outputSpec.channels = 8 then 8 else 2) ≤ 32
    split_ifs <;> omega

variable {params : CreateParams} {server : ServerState} {s : PlaybackStream exactResampler}
  {p : Sampled.PlaybackBuffer d}

theorem readable_of_newStream (hsupported : (params.streamSpec server).format.isSupported)
    (hnew : newStream params server = .ok s)
    (hp : BufferOf (params.streamSpec server) server.captureSpec p) : Readable p.buffer := by
  obtain ⟨attr, hattr, hnew⟩ := Outcome.bind_eq_ok.mp hnew
  obtain ⟨cvolume, -, hnew⟩ := Outcome.bind_eq_ok.mp hnew
  obtain ⟨buffer, hbuffer, -⟩ := Outcome.bind_eq_ok.mp hnew
  refine ⟨?_, ?_, ?_⟩
  · rw [hp.sampleSpec_eq]
    exact frameSize_pos_of_configureBuffer hattr
  · rw [hp.sampleSpec_eq]
    exact hsupported
  · rw [hp.outputs]
    exact outputs_le_of_new hbuffer

/-- A drain of a stream's buffer takes whole frames or nothing exactly if the
product does not overflow and there are too few frames, or at most 32 channels,
or nothing is taken, or the misread frames of a converter make up whole ones. -/
theorem drainsWhole_iff (hsupported : (params.streamSpec server).format.isSupported)
    (hnew : newStream params server = .ok s)
    (hp : BufferOf (params.streamSpec server) server.captureSpec p) (n reads : Nat) :
    DrainsWhole n reads p ↔ Drainable n p :=
  drainsWhole_iff_of_buffer hp (readable_of_newStream hsupported hnew hp)

section Forget

variable {b : Sampled.Buffer}

theorem next_readable {missing : Outcome Frame} {frame : Frame} {b' : Sampled.Buffer} (h : Readable b)
    (hnext : b.next d missing = .ok (frame, b')) : Readable b' := by
  by_cases hlen : b.inner.length < b.sampleSpec.frameSize
  · rw [Sampled.Buffer.next, readFrame_of_lt h hlen, Outcome.ok_bind] at hnext
    obtain ⟨silence, -, hnext⟩ := Outcome.bind_eq_ok.mp hnext
    cases hnext
    exact h
  by_cases hover : Overread b
  · rw [next_of_overread missing h hover (Nat.le_of_not_lt hlen)] at hnext
    cases hnext
  · obtain ⟨_, hread⟩ := next_of_le missing h hover (Nat.le_of_not_lt hlen)
    cases hread.symm.trans hnext
    exact h.skip _

theorem next_forget (e : Frame) (h : Readable b) :
    (fun res => res.2.toBuffer) <$> b.next d (.ok e) = b.toBuffer.next := by
  rw [Audio.Buffer.next, Audio.Buffer.readFrame]
  by_cases hlen : b.inner.length < b.sampleSpec.frameSize
  · have hempty : b.toBuffer.lenFrames = 0 := Nat.div_eq_of_lt hlen
    rw [Sampled.Buffer.next, readFrame_of_lt h hlen, if_pos hempty]
    rfl
  have hframes : b.toBuffer.lenFrames ≠ 0 := Nat.ne_of_gt (Nat.div_pos (Nat.le_of_not_lt hlen) h.frame)
  rw [if_neg hframes]
  by_cases hover : b.outputChannels = 2 ∧ 32 < b.sampleSpec.channels.toNat
  · rw [next_of_overread _ h hover (Nat.le_of_not_lt hlen), if_pos hover]
    rfl
  · obtain ⟨_, hread⟩ := next_of_le (d := d) (.ok e) h hover (Nat.le_of_not_lt hlen)
    rw [hread, if_neg hover]
    rfl

theorem nexts_forget (e : Frame) (h : Readable b) (n : Nat) :
    Sampled.Buffer.toBuffer <$> nexts (Sampled.Buffer.next d (.ok e)) n b = b.toBuffer.nexts n :=
  map_nexts _ _ Readable Audio.Buffer.next Audio.Buffer.nexts (fun _ => rfl) (fun _ _ => rfl)
    (fun _ _ _ h hnext => next_readable h hnext) (fun _ h => next_forget e h) n h

/-- What a converter is to the buffers of bytes. -/
def forgetConverter (c : Converter d) : Audio.Buffer × Position := (c.source.toBuffer, c.position)

theorem pull_forget (e : Frame) {c : Converter d} (h : Readable c.source) (n : Nat) :
    forgetConverter <$> c.pull (.ok e) n = (fun b => (b, c.position)) <$> c.source.toBuffer.nexts n ∧
      ∀ c', c.pull (.ok e) n = .ok c' → Readable c'.source := by
  induction n generalizing c with
  | zero => exact ⟨rfl, fun c' hc' => Outcome.ok.inj hc' ▸ h⟩
  | succ n ih =>
    rw [Converter.pull, Audio.Buffer.nexts, ← next_forget (d := d) e h]
    cases hnext : c.source.next d (.ok e) with
    | ok res => exact ih (c := ⟨res.2, d.nextSourceFrame res.1 c.sinc, c.position⟩) (next_readable h hnext)
    | err => exact ⟨rfl, fun c' hc' => absurd hc' (by simp)⟩
    | panic => exact ⟨rfl, fun c' hc' => absurd hc' (by simp)⟩

/-- A frame of the converter, on the buffer and the position. -/
def stepConverter (t : Audio.Buffer × Position) : Outcome (Audio.Buffer × Position) := do
  let b ← t.1.nexts t.2.pulls
  return (b, t.2.advance)

theorem converter_next_forget (e : Frame) {c : Converter d} (h : Readable c.source) :
    (fun res => forgetConverter res.2) <$> Converter.next (.ok e) c = stepConverter (forgetConverter c) := by
  have hpull := (pull_forget e h c.position.pulls).1
  rw [Converter.next, stepConverter]
  show _ = (c.source.toBuffer.nexts c.position.pulls >>= fun b => .ok (b, c.position.advance))
  cases hc : c.pull (.ok e) c.position.pulls <;> cases hb : c.source.toBuffer.nexts c.position.pulls <;>
    rw [hc, hb] at hpull
  case ok.ok c' b' =>
    obtain ⟨hsource, hposition⟩ := Prod.mk.inj (Outcome.ok.inj hpull)
    show Outcome.ok (c'.source.toBuffer, c'.position.advance) = .ok (b', c.position.advance)
    rw [hsource, hposition]
  all_goals first | rfl | cases hpull

theorem converter_nexts_forget (e : Frame) {c : Converter d} (h : Readable c.source) (n : Nat) :
    forgetConverter <$> nexts (Converter.next (.ok e)) n c =
      (Audio.PlaybackBuffer.convert n c.source.toBuffer c.position :
        Outcome (Audio.Buffer × exactResampler.Converter)) := by
  refine map_nexts _ forgetConverter (fun c => Readable c.source) stepConverter
    (fun n t => (Audio.PlaybackBuffer.convert n t.1 t.2 :
      Outcome (Audio.Buffer × exactResampler.Converter)))
    (fun _ => rfl) (fun n t => ?_) (fun s frame s' hs hnext => ?_) (fun s hs => converter_next_forget e hs) n h
  · show (t.1.nexts t.2.pulls >>= fun b => _) = (t.1.nexts t.2.pulls >>= fun b => .ok (b, t.2.advance)) >>= _
    cases t.1.nexts t.2.pulls <;> rfl
  · obtain ⟨c', hpull, hnext⟩ := Outcome.bind_eq_ok.mp hnext
    cases hnext
    exact (pull_forget e hs _).2 c' hpull

def forget : Sampled.PlaybackBuffer d → Audio.PlaybackBuffer exactResampler
  | .passthrough b => .passthrough b.toBuffer
  | .resampling c outputRate => .resampling c.source.toBuffer c.position outputRate

theorem drain_resampling {r : Resampler} (b : Audio.Buffer) (c : r.Converter) (outputRate : UInt32) (n : Nat) :
    (Audio.PlaybackBuffer.resampling b c outputRate).drain n =
      if b.lenFrames < Audio.PlaybackBuffer.neededFrames b.sampleSpec.sampleRate outputRate n then .ok none
      else Audio.PlaybackBuffer.convert n b c >>= fun t => .ok (some (.resampling t.1 t.2 outputRate)) := rfl

/-- What a drain leaves is what one of bytes leaves, however much of it is read. -/
theorem drain_forget (e : Frame) {sampleSpec outputSpec : SampleSpec} {p : Sampled.PlaybackBuffer d} {n : Nat}
    (h : BufferOf sampleSpec outputSpec p) (hread : Readable p.buffer) (hfits : ProductFits n p)
    (reads : Nat) :
    (fun res => res.1.map fun _ => forget res.2) <$> p.drain (.ok e) n reads = (forget p).drain n := by
  rw [drain_eq _ hread h hfits]
  by_cases hlt : p.buffer.inner.length / p.buffer.sampleSpec.frameSize < needed n p
  · rw [if_pos hlt]
    refine (PlaybackBuffer.drain_eq_none ?_).symm
    cases p <;> exact hlt
  rw [if_neg hlt]
  cases p with
  | passthrough b =>
    have hstate : (fun res => res.2.toBuffer) <$>
        Drain.readThenDrop (Sampled.Buffer.next d (.ok e)) b.equilibrium reads ⟨b, n⟩ = b.toBuffer.nexts n :=
      (Drain.map_readThenDrop ..).trans (nexts_forget e hread n)
    have hframes : ¬b.toBuffer.lenFrames < n := hlt
    rw [forget, Audio.PlaybackBuffer.drain, if_neg hframes, ← hstate, lend]
    cases Drain.readThenDrop (Sampled.Buffer.next d (.ok e)) b.equilibrium reads ⟨b, n⟩ <;> rfl
  | resampling c outputRate =>
    have hstate : (fun res => forgetConverter res.2) <$>
        Drain.readThenDrop (Converter.next (.ok e)) c.source.equilibrium reads ⟨c, n⟩ =
          (Audio.PlaybackBuffer.convert n c.source.toBuffer c.position :
            Outcome (Audio.Buffer × exactResampler.Converter)) :=
      (Drain.map_readThenDrop ..).trans (converter_nexts_forget e hread n)
    have hframes : ¬c.source.toBuffer.lenFrames < Audio.PlaybackBuffer.neededFrames
        c.source.toBuffer.sampleSpec.sampleRate outputRate n := hlt
    refine Eq.trans ?_ (drain_resampling (r := exactResampler) c.source.toBuffer c.position outputRate n).symm
    rw [if_neg hframes, ← hstate, lend]
    cases Drain.readThenDrop (Converter.next (.ok e)) c.source.equilibrium reads ⟨c, n⟩ <;> rfl

end Forget

/-- Conversions by the width of the samples; no sample is converted. -/
def exampleDasp : Dasp where
  fromU8 x := (Float32.ofInt x.toNat - 128) / 128
  fromI16 x := Float32.ofInt x.toInt / 32768
  fromI32 x := Float32.ofInt x.toInt / 2147483648
  Sinc := List Frame
  sinc := []
  nextSourceFrame := List.cons
  interpolate _ _ frames := frames.headD []

def exampleServer : ServerState := ⟨⟨.float32Le, 2, 48000⟩, 200, 0, 0⟩

def exampleCreate (spec : SampleSpec) : CreateParams :=
  ⟨spec, [], false, false, ⟨u32Max, u32Max, u32Max, u32Max⟩, some [0x10000]⟩

def exampleBuffer (spec : SampleSpec) (n : Nat) : Sampled.PlaybackBuffer exampleDasp :=
  .passthrough ⟨⟨List.replicate n 0, spec, 2⟩, .fromChannelMap [.frontLeft, .frontRight] spec.channels⟩

/-- Two of three frames, one of which is read. -/
theorem stereo_drainsWhole : DrainsWhole 2 1 (exampleBuffer ⟨.float32Le, 2, 48000⟩ 24) := by
  obtain ⟨s, hs⟩ : ∃ s : PlaybackStream exactResampler,
      newStream (exampleCreate ⟨.float32Le, 2, 48000⟩) exampleServer = .ok s := ⟨_, rfl⟩
  exact (drainsWhole_iff rfl hs ⟨rfl, rfl, rfl⟩ 2 1).mpr ⟨trivial, .inr (.inl (by decide))⟩

/-- The downmix of 33 channels slices 33 of 32 samples. -/
theorem manyChannels_panic : ¬∀ (d : Dasp) (params : CreateParams) (server : ServerState)
    (s : PlaybackStream exactResampler) (p : Sampled.PlaybackBuffer d) (n reads : Nat),
    (params.streamSpec server).format.isSupported → newStream params server = .ok s →
    BufferOf (params.streamSpec server) server.captureSpec p → DrainsWhole n reads p := by
  intro h
  obtain ⟨s, hs⟩ : ∃ s : PlaybackStream exactResampler,
      newStream (exampleCreate ⟨.u8, 33, 48000⟩) exampleServer = .ok s := ⟨_, rfl⟩
  have hbuffer : BufferOf ⟨.u8, 33, 48000⟩ exampleServer.captureSpec (exampleBuffer ⟨.u8, 33, 48000⟩ 33) :=
    ⟨rfl, rfl, rfl⟩
  have hread : Readable (exampleBuffer ⟨.u8, 33, 48000⟩ 33).buffer := ⟨by decide, rfl, by decide⟩
  obtain ⟨frames, p', hdrain, -⟩ := h exampleDasp _ exampleServer s _ 1 0 rfl hs hbuffer
  rw [drain_eq _ hread hbuffer trivial, if_neg (by decide),
    lend_of_overread _ hread ⟨rfl, by decide⟩ (by decide) (by decide)] at hdrain
  cases hdrain

end Moonshine.Proof.Sampled
