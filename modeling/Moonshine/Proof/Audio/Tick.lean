import Moonshine.Proof.Audio.Events

/-!
# The clock tick

What a tick does to a stream, phase by phase (`drainPhase_cases`,
`requestPhase_cases`), and to a client, stream by stream (`clockTick_stream`).
-/

namespace Moonshine.Proof.PulseServer

open Moonshine.Framework Moonshine.Impl Moonshine.Impl.Audio

variable {r : Resampler} {numFrames : Nat} {channel : UInt32} {s : PlaybackStream r}

theorem popMissing_cases (inPrebuf : Bool) (s : PlaybackStream r) :
    popMissing inPrebuf s = (0, s) ∨ popMissing inPrebuf s =
      (s.missing.toNat, { s with requested := s.requested + s.missing.toNat, missing := 0 }) := by
  unfold popMissing
  split
  · exact .inl rfl
  · split
    · exact .inl rfl
    · exact .inr rfl

/-- An underrun puts a playing stream back to prebuffering, with its demand
started over. -/
def PlaybackStream.rebuffer (s : PlaybackStream r) : PlaybackStream r :=
  { s with
    state := .prebuffering s.bufferAttr.preBuffering.toNat
    missing := s.bufferAttr.preBuffering.toNat
    requested := 0 }

/-- What a tick takes from a stream that plays or drains. -/
def PlaybackStream.take (buffer : PlaybackBuffer r) (s : PlaybackStream r) : PlaybackStream r :=
  { s with
    buffer
    readOffset := s.readOffset + (s.buffer.lenBytes - buffer.lenBytes)
    playedBytes := s.playedBytes + (s.buffer.lenBytes - buffer.lenBytes)
    missing := s.missing + (s.buffer.lenBytes - buffer.lenBytes : Nat) }

/-- What the drain phase does to a stream. -/
inductive DrainPhase (numFrames : Nat) (channel : UInt32) (s : PlaybackStream r) :
    PlaybackStream r × List Message × Option UInt32 → Prop
  | idle (hplaying : s.state ≠ .playing) (hdraining : ∀ seq, s.state ≠ .draining seq) :
    DrainPhase numFrames channel s (s, [], none)
  | underrun (hstate : s.state = .playing) (hpre : 0 < s.bufferAttr.preBuffering)
      (hdrain : s.buffer.drain numFrames = .ok none) :
    DrainPhase numFrames channel s (PlaybackStream.rebuffer s, [.underflow channel], none)
  | starved (hdrain : s.buffer.drain numFrames = .ok none) :
    DrainPhase numFrames channel s (s, [.underflow channel], none)
  | played {buffer : PlaybackBuffer r} (hstate : s.state = .playing)
      (hdrain : s.buffer.drain numFrames = .ok (some buffer)) :
    DrainPhase numFrames channel s (PlaybackStream.take buffer s, [], none)
  | drained {buffer : PlaybackBuffer r} {seq : UInt32} (hstate : s.state = .draining seq)
      (hdrain : s.buffer.drain numFrames = .ok (some buffer)) :
    DrainPhase numFrames channel s
      (PlaybackStream.take buffer s, [], if buffer.isEmpty then some seq else none)

theorem drainPhase_cases {res : PlaybackStream r × List Message × Option UInt32}
    (h : drainPhase numFrames channel s = .ok res) : DrainPhase numFrames channel s res := by
  unfold drainPhase at h
  cases hs : s.state with
  | prebuffering n =>
    simp only [hs] at h
    cases h
    exact .idle (by simp [hs]) (by simp [hs])
  | corked =>
    simp only [hs] at h
    cases h
    exact .idle (by simp [hs]) (by simp [hs])
  | playing =>
    simp only [hs] at h
    obtain ⟨drained, hdrain, h⟩ := Outcome.bind_eq_ok.mp h
    cases drained with
    | none =>
      dsimp only at h
      split at h
      · next hpre =>
        cases h
        exact .underrun hs hpre.1 hdrain
      · cases h
        exact .starved hdrain
    | some buffer =>
      cases h
      simpa only [PlaybackStream.take, hs] using DrainPhase.played hs hdrain
  | draining seq =>
    simp only [hs] at h
    obtain ⟨drained, hdrain, h⟩ := Outcome.bind_eq_ok.mp h
    cases drained with
    | none =>
      dsimp only at h
      rw [if_neg (by simp)] at h
      cases h
      exact .starved hdrain
    | some buffer =>
      cases h
      simpa only [PlaybackStream.take, hs] using DrainPhase.drained hs hdrain

theorem requestPhase_cases (channel : UInt32) (s : PlaybackStream r) :
    (∃ seq, s.state = .draining seq ∧ requestPhase channel s = (s, [])) ∨
    ((∀ seq, s.state ≠ .draining seq) ∧ requestPhase channel s =
      ((popMissing s.isPrebuffering s).2, if (popMissing s.isPrebuffering s).1 > 0 then
        [.request channel (UInt32.ofNat (popMissing s.isPrebuffering s).1)] else [])) := by
  unfold requestPhase
  split
  · next seq hs => exact .inl ⟨seq, hs, rfl⟩
  · next hs => exact .inr ⟨fun seq h => hs seq h, rfl⟩

/-- A tick of a stream is its two phases. -/
theorem tickStream_eq_ok {t : Ticked r} : tickStream numFrames channel s = .ok t ↔
    ∃ res, drainPhase numFrames channel s = .ok res ∧ t = ⟨(requestPhase channel res.1).1,
      res.2.1 ++ (requestPhase channel res.1).2, res.2.2⟩ := by
  rw [tickStream, Outcome.bind_eq_ok]
  refine exists_congr fun res => and_congr_right fun _ => ?_
  show Outcome.ok (⟨(requestPhase channel res.1).1, res.2.1 ++ (requestPhase channel res.1).2, res.2.2⟩ :
    Ticked r) = .ok t ↔ _
  rw [Outcome.ok.injEq]
  exact eq_comm

/-- What the stream of a tick writes. -/
theorem mem_tickStream {t : Ticked r} (ht : tickStream numFrames channel s = .ok t) {m : Message}
    (hm : m ∈ t.messages) : m = .underflow channel ∨ ∃ length, m = .request channel length := by
  obtain ⟨res, hd, rfl⟩ := tickStream_eq_ok.mp ht
  rcases List.mem_append.mp hm with hm | hm
  · left
    cases drainPhase_cases hd with
    | idle => cases hm
    | underrun => exact List.mem_singleton.mp hm
    | starved => exact List.mem_singleton.mp hm
    | played => cases hm
    | drained => cases hm
  · right
    rcases requestPhase_cases channel res.1 with ⟨seq, -, heq⟩ | ⟨-, heq⟩
    · rw [heq] at hm
      cases hm
    · rw [heq] at hm
      dsimp only at hm
      split at hm
      · exact ⟨_, List.mem_singleton.mp hm⟩
      · cases hm

theorem clockTick_eq_ok {c c' : Client r} {messages : List Message} :
    clockTick numFrames c = .ok (c', messages) ↔
      ∃ ticked, c.playbackStreams.mapM (tickStream numFrames) = .ok ticked ∧
        c' = ⟨ticked.filterMap fun t => if t.done.isSome then none else some t.stream⟩ ∧
        messages = ticked.entries.flatMap (fun e => e.2.messages) ++
          ticked.entries.filterMap fun e => e.2.done.map .ack := by
  rw [clockTick, Outcome.bind_eq_ok]
  refine exists_congr fun ticked => and_congr_right fun _ => ?_
  rw [Outcome.pure_eq, Outcome.ok.injEq, Prod.mk.injEq]
  exact and_congr eq_comm eq_comm

end Moonshine.Proof.PulseServer
