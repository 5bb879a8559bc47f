import Moonshine.Proof.Audio.Tick

/-!
# What the server does to one stream

After an event of its client a stream is either new or what the event made of it
(`Change`), which is the same for the commands, the writes and the ticks.
`AllStreams.step` is the rule for what holds of every stream of every client: it
holds of new streams, and no change ends it.
-/

namespace Moonshine.Proof.PulseServer

open Moonshine.Framework Moonshine.Impl Moonshine.Impl.Audio

variable {r : Resampler}

/-- What an event of its client makes of the stream on the channel. -/
inductive Change (server : ServerState) (channel : UInt32) (s : PlaybackStream r) :
    Event → PlaybackStream r → Prop
  | kept (e : Event) : Change server channel s e s
  | draining (seq : UInt32) : Change server channel s
      (.packet (.command seq (.drainPlaybackStream channel))) { s with state := .draining seq }
  | corked (seq : UInt32) : Change server channel s
      (.packet (.command seq (.corkPlaybackStream channel true))) (cork s)
  | uncorked (seq : UInt32) : Change server channel s
      (.packet (.command seq (.corkPlaybackStream channel false))) (uncork channel s).1
  | flushed (seq : UInt32) : Change server channel s
      (.packet (.command seq (.flushPlaybackStream channel))) (flush s)
  | triggered (seq : UInt32) : Change server channel s
      (.packet (.command seq (.triggerPlaybackStream channel))) (trigger s)
  | prebuffered (seq : UInt32) : Change server channel s
      (.packet (.command seq (.prebufPlaybackStream channel))) (prebuf s)
  | renegotiated (seq : UInt32) {attr : BufferAttr} {s' : PlaybackStream r}
      (hs' : setBufferAttr attr s = .ok s') : Change server channel s
      (.packet (.command seq (.setPlaybackStreamBufferAttr channel attr))) s'
  | written (payload : List Byte) : Change server channel s
      (.packet (.write channel payload)) (writeStream channel payload s).1
  | ticked {t : Ticked r} (ht : tickStream server.numFrames channel s = .ok t) :
      Change server channel s .tick t.stream

/-- Where the stream on the channel comes from, after an event. -/
inductive Comes (server : ServerState) (channel : UInt32) (c : Client r) (e : Event)
    (s' : PlaybackStream r) : Prop
  | changed {s : PlaybackStream r} (hs : c.playbackStreams.get? channel = some s)
      (hchange : Change server channel s e s')
  | created {seq : UInt32} {params : CreateParams} {s : PlaybackStream r}
      (he : e = .packet (.command seq (.createPlaybackStream params)))
      (hnew : newStream params server = .ok s) (hs' : s' = (popMissing s.isPrebuffering s).2)

section Client

variable {server : ServerState} {channel : UInt32} {c : Client r} {e : Event} {s' : PlaybackStream r}

theorem Comes.of_eq (hs' : c.playbackStreams.get? channel = some s') : Comes server channel c e s' :=
  .changed hs' (.kept e)

/-- After a change of the stream of `ch`. -/
theorem Comes.of_modify {ch : UInt32} {f : PlaybackStream r → PlaybackStream r}
    (hf : ∀ s, c.playbackStreams.get? channel = some s → ch = channel → Change server channel s e (f s))
    (hs' : (c.playbackStreams.modify ch f).get? channel = some s') : Comes server channel c e s' := by
  rw [OrdMap.get?_modify] at hs'
  by_cases hch : channel = ch
  · rw [if_pos hch, Option.map_eq_some_iff] at hs'
    obtain ⟨s, hs, rfl⟩ := hs'
    exact .changed hs (hf s hs hch.symm)
  · rw [if_neg hch] at hs'
    exact .of_eq hs'

theorem handleCommand_stream {seq : UInt32} {cmd : Command}
    {res : ServerState × Client r × List Message} (hres : handleCommand seq cmd server c = .ok res)
    (hs' : res.2.1.playbackStreams.get? channel = some s') :
    Comes server channel c (.packet (.command seq cmd)) s' := by
  cases cmd with
  | createPlaybackStream params =>
    simp only [handleCommand, createPlaybackStream] at hres
    split at hres
    · cases hres
      exact .of_eq hs'
    · obtain ⟨s, hs, hres⟩ := Outcome.bind_eq_ok.mp hres
      cases hres
      dsimp only at hs'
      rw [OrdMap.get?_insert] at hs'
      split at hs'
      · exact .created rfl hs (Option.some.inj hs').symm
      · exact .of_eq hs'
  | drainPlaybackStream ch =>
    simp only [handleCommand] at hres
    split at hres
    · cases hres
      exact .of_modify (fun s _ hch => hch ▸ .draining seq) hs'
    · cases hres
      exact .of_eq hs'
  | corkPlaybackStream ch cork =>
    cases cork with
    | true =>
      cases hres
      exact .of_modify (fun s _ hch => hch ▸ .corked seq) hs'
    | false =>
      simp only [handleCommand] at hres
      split at hres
      · next s hs =>
        cases hres
        refine .of_modify (fun t ht hch => ?_) hs'
        subst hch
        cases hs.symm.trans ht
        exact .uncorked seq
      · cases hres
        exact .of_eq hs'
  | flushPlaybackStream ch =>
    cases hres
    exact .of_modify (fun s _ hch => hch ▸ .flushed seq) hs'
  | deletePlaybackStream ch =>
    cases hres
    dsimp only at hs'
    rw [OrdMap.get?_erase] at hs'
    split at hs'
    · cases hs'
    · exact .of_eq hs'
  | triggerPlaybackStream ch =>
    cases hres
    exact .of_modify (fun s _ hch => hch ▸ .triggered seq) hs'
  | prebufPlaybackStream ch =>
    cases hres
    exact .of_modify (fun s _ hch => hch ▸ .prebuffered seq) hs'
  | setPlaybackStreamBufferAttr index attr =>
    simp only [handleCommand] at hres
    split at hres
    · next s hs =>
      obtain ⟨t, hset, hres⟩ := Outcome.bind_eq_ok.mp hres
      cases hres
      refine .of_modify (fun u hu hch => ?_) hs'
      subst hch
      cases hs.symm.trans hu
      exact .renegotiated seq hset
    · cases hres
      exact .of_eq hs'

theorem perform_stream {res : ServerState × Client r × List Message}
    (hres : perform e server c = .ok res)
    (hs' : res.2.1.playbackStreams.get? channel = some s') : Comes server channel c e s' := by
  cases e with
  | packet p =>
    cases p with
    | command seq cmd => exact handleCommand_stream hres hs'
    | write ch payload =>
      obtain ⟨res', hwrite, hres⟩ := Outcome.bind_eq_ok.mp hres
      cases hres
      unfold handleStreamWrite at hwrite
      split at hwrite
      · next s hs =>
        cases hwrite
        refine .of_modify (fun t ht hch => ?_) hs'
        subst hch
        cases hs.symm.trans ht
        exact .written payload
      · cases hwrite
  | tick =>
    obtain ⟨⟨c', messages⟩, htick, hres⟩ := Outcome.bind_eq_ok.mp hres
    cases hres
    obtain ⟨ticked, hticked, rfl, -⟩ := clockTick_eq_ok.mp htick
    dsimp only at hs'
    rw [OrdMap.get?_filterMap, Option.bind_eq_some_iff] at hs'
    obtain ⟨t, htok, hs'⟩ := hs'
    obtain ⟨s, hs, ht⟩ := (OrdMap.get?_mapM hticked).mp htok
    split at hs'
    · cases hs'
    · cases hs'
      exact .changed hs (.ticked ht)

end Client

theorem buffer_popMissing (inPrebuf : Bool) (s : PlaybackStream r) :
    (popMissing inPrebuf s).2.buffer = s.buffer := by
  rcases popMissing_cases inPrebuf s with heq | heq <;> rw [heq]

theorem buffer_uncork (channel : UInt32) (s : PlaybackStream r) :
    (uncork channel s).1.buffer = s.buffer := by
  unfold uncork
  split
  · dsimp only
    split <;> exact buffer_popMissing _ _
  · rfl

section Messages

variable {channel : UInt32} {s : PlaybackStream r} {m : Message}

theorem mem_writeStream {payload : List Byte} (hm : m ∈ (writeStream channel payload s).2) :
    m = .started channel ∨ ∃ n, m = .overflow n := by
  unfold writeStream at hm
  dsimp only at hm
  rcases List.mem_append.mp hm with hm | hm
  · split at hm
    · exact .inr ⟨_, List.mem_singleton.mp hm⟩
    · cases hm
  · split at hm
    · split at hm
      · cases hm
      · exact .inl (List.mem_singleton.mp hm)
    · cases hm

theorem mem_uncork (hm : m ∈ (uncork channel s).2) : ∃ length, m = .request channel length := by
  unfold uncork at hm
  split at hm
  · dsimp only at hm
    split at hm
    · exact ⟨_, List.mem_singleton.mp hm⟩
    · cases hm
  · cases hm

end Messages

/-- The stream of a client on a channel. -/
def stream? (w : World r) (token : Nat) (channel : UInt32) : Option (PlaybackStream r) :=
  (w.clients.get? token).bind fun c => c.playbackStreams.get? channel

/-- What a step makes of a stream. -/
theorem stream?_of_step {w w' : World r} {act : Action} (hs : step w act = some w') {token : Nat}
    {channel : UInt32} {s' : PlaybackStream r} (hs' : stream? w' token channel = some s') :
    stream? w token channel = some s' ∨
      ∃ e c, eventFor token act = some e ∧ w.clients.get? token = some c ∧
        Comes w.server channel c e s' := by
  obtain ⟨c', hc', hs'⟩ := Option.bind_eq_some_iff.mp hs'
  cases seen_of_step hs token with
  | idle _ hclient => exact .inl (Option.bind_eq_some_iff.mpr ⟨c', hclient ▸ hc', hs'⟩)
  | joined _ _ hclient =>
    cases hclient.symm.trans hc'
    cases hs'
  | left _ hclient => cases hclient.symm.trans hc'
  | served hact hclient hperform hclient' =>
    cases hclient'.symm.trans hc'
    exact .inr ⟨_, _, hact, hclient, perform_stream hperform hs'⟩

def AllStreams (Q : PlaybackStream r → Prop) (w : World r) : Prop :=
  ∀ token channel s, stream? w token channel = some s → Q s

variable {Q : PlaybackStream r → Prop}

theorem allStreams_start (captureSpec : SampleSpec) (clockRateHz : Nat) :
    AllStreams Q (World.start captureSpec clockRateHz : World r) := fun _ _ _ h => nomatch h

/-- What holds of new streams, and through every change that the action makes,
holds of all streams after a step. -/
theorem AllStreams.step {w w' : World r} {act : Action} (h : AllStreams Q w)
    (hs : step w act = some w')
    (hnew : ∀ params s, newStream params w.server = .ok s → Q (popMissing s.isPrebuffering s).2)
    (hchange : ∀ token channel s e s', stream? w token channel = some s →
      eventFor token act = some e → Q s → Change w.server channel s e s' → Q s') : AllStreams Q w' := by
  intro token channel s' hs'
  rcases stream?_of_step hs hs' with hkept | ⟨e, c, hact, hc, hcomes⟩
  · exact h token channel s' hkept
  · cases hcomes with
    | @changed s hget hch =>
      have hstream : stream? w token channel = some s := Option.bind_eq_some_iff.mpr ⟨c, hc, hget⟩
      exact hchange token channel s e s' hstream hact (h token channel s hstream) hch
    | created _ hmade hpop => exact hpop ▸ hnew _ _ hmade

end Moonshine.Proof.PulseServer
