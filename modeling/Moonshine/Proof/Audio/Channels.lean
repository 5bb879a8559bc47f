import Moonshine.Proof.Audio.Streams

/-!
# Channels

A channel is open from the reply that gives it out until its client deletes it
(`openChannels`). The open channels of a client are those that have a stream
(`Inv`), until a tick lets a stream that drains run empty (`RunsEmpty`): it is
removed while its channel is open, and the next write to it drops the client. A
server without such a tick serves every open channel, and only such a server
does (`lasting_iff`).
-/

namespace Moonshine.Proof.Channels

open Moonshine.Framework Moonshine.Impl Moonshine.Impl.Audio
open Moonshine.Proof.PulseServer

variable {r : Resampler}

/-! ## Open channels -/

/-- The channel that a message gives out. -/
def givenOut : Message → Option UInt32
  | .createReply _ channel _ _ _ => some channel
  | .ack _ | .error _ | .bufferAttrReply _ _ | .request _ _ | .started _ | .underflow _ | .overflow _ => none

/-- The channel that an event ends, by the will of its client. -/
def deleted : Event → Option UInt32
  | .packet (.command _ (.deletePlaybackStream channel)) => some channel
  | _ => none

/-- The open channels after an event. -/
def openAfter (channels : List UInt32) (e : Event × List Message) : List UInt32 :=
  channels.filter (deleted e.1 ≠ some ·) ++ e.2.filterMap givenOut

/-- The channels that the client was given and has not deleted. -/
def openChannels (token : Nat) (log : List Entry) : List UInt32 := (history token log).foldl openAfter []

/-- The channel that a packet is about. -/
def target : Packet → Option UInt32
  | .write channel _ => some channel
  | .command _ cmd => match cmd with
    | .createPlaybackStream _ => none
    | .drainPlaybackStream channel => some channel
    | .corkPlaybackStream channel _ => some channel
    | .flushPlaybackStream channel => some channel
    | .deletePlaybackStream channel => some channel
    | .triggerPlaybackStream channel => some channel
    | .prebufPlaybackStream channel => some channel
    | .setPlaybackStreamBufferAttr index _ => some index

/-- The client has a stream on the channel. -/
def HasStream (c : Client r) (channel : UInt32) : Prop := ∃ s, c.playbackStreams.get? channel = some s

/-- What is claimed of a step: the open channels have their streams, and what is sent
about one is served. -/
structure Lasting (w : World r) (act : Action) (w' : World r) : Prop where
  present : ∀ token c, w'.clients.get? token = some c →
    ∀ channel ∈ openChannels token w'.log, HasStream c channel
  served : ∀ token p channel, act = .recv token p → target p = some channel →
    channel ∈ openChannels token w.log →
      (∃ c, w'.clients.get? token = some c) ∧
        ∃ messages, w'.log = w.log ++ [⟨token, .packet p, messages⟩] ∧ ∀ seq, .error seq ∉ messages

/-- A tick takes all that a stream holds that drains. -/
def DrainsOut (numFrames : Nat) (s : PlaybackStream r) : Prop :=
  ∃ seq buffer, s.state = .draining seq ∧ s.buffer.drain numFrames = .ok (some buffer) ∧ buffer.isEmpty = true

/-- The action is a tick that lets a stream run empty. -/
def RunsEmpty (w : World r) (act : Action) : Prop :=
  act = .clockTick ∧ ∃ token channel s, stream? w token channel = some s ∧ DrainsOut w.server.numFrames s

section Channels

variable {channels : List UInt32} {channel : UInt32} {e : Event} {messages : List Message}

theorem mem_openAfter : channel ∈ openAfter channels (e, messages) ↔
    (channel ∈ channels ∧ deleted e ≠ some channel) ∨ ∃ m ∈ messages, givenOut m = some channel := by
  simp [openAfter]

/-- An event that gives out no channel and ends none. -/
theorem mem_openAfter_of_quiet (hkept : deleted e = none) (hquiet : ∀ m ∈ messages, givenOut m = none) :
    channel ∈ openAfter channels (e, messages) ↔ channel ∈ channels := by
  rw [mem_openAfter, hkept]
  constructor
  · rintro (⟨hmem, -⟩ | ⟨m, hm, hgiven⟩)
    · exact hmem
    · rw [hquiet m hm] at hgiven
      cases hgiven
  · exact fun hmem => .inl ⟨hmem, by simp⟩

theorem openChannels_append {token : Nat} {log log' : List Entry}
    (h : history token log' = history token log ++ [(e, messages)]) :
    openChannels token log' = openAfter (openChannels token log) (e, messages) := by
  rw [openChannels, h, List.foldl_append]
  rfl

end Channels

/-! ## Ticks -/

section Ticks

variable {numFrames : Nat} {channel : UInt32} {s : PlaybackStream r} {t : Ticked r}

/-- A stream is done exactly if it drains and the tick takes all that it holds. -/
theorem done_iff (h : tickStream numFrames channel s = .ok t) : t.done.isSome = true ↔ DrainsOut numFrames s := by
  obtain ⟨res, hdrain, rfl⟩ := tickStream_eq_ok.mp h
  show res.2.2.isSome = true ↔ _
  cases drainPhase_cases hdrain with
  | idle hplaying hdraining =>
    refine iff_of_false (by simp) ?_
    rintro ⟨seq, buffer, hstate, -⟩
    exact hdraining seq hstate
  | underrun hstate =>
    refine iff_of_false (by simp) ?_
    rintro ⟨seq, buffer, hstate', -⟩
    rw [hstate] at hstate'
    cases hstate'
  | starved hnone =>
    refine iff_of_false (by simp) ?_
    rintro ⟨seq, buffer, -, hsome, -⟩
    rw [hnone] at hsome
    cases hsome
  | played hstate =>
    refine iff_of_false (by simp) ?_
    rintro ⟨seq, buffer, hstate', -⟩
    rw [hstate] at hstate'
    cases hstate'
  | @drained buffer seq hstate hsome =>
    show (if buffer.isEmpty then some seq else none).isSome = true ↔ _
    constructor
    · intro hdone
      refine ⟨seq, buffer, hstate, hsome, ?_⟩
      by_contra hempty
      rw [if_neg hempty] at hdone
      cases hdone
    · rintro ⟨seq', buffer', -, hsome', hempty⟩
      rw [hsome] at hsome'
      cases hsome'
      rw [if_pos hempty]
      rfl

variable {c c' : Client r} {messages : List Message}

theorem hasStream_clockTick (h : clockTick numFrames c = .ok (c', messages)) (channel : UInt32) :
    HasStream c' channel ↔ ∃ s, c.playbackStreams.get? channel = some s ∧ ¬DrainsOut numFrames s := by
  obtain ⟨ticked, hticked, rfl, -⟩ := clockTick_eq_ok.mp h
  simp only [HasStream, OrdMap.get?_filterMap, Option.bind_eq_some_iff]
  constructor
  · rintro ⟨s', t, ht, hkept⟩
    obtain ⟨s, hs, htick⟩ := (OrdMap.get?_mapM hticked).mp ht
    refine ⟨s, hs, fun hout => ?_⟩
    rw [if_pos ((done_iff htick).mpr hout)] at hkept
    cases hkept
  · rintro ⟨s, hs, hkept⟩
    cases ht : ticked.get? channel with
    | none =>
      rw [OrdMap.get?_mapM_eq_none hticked, hs] at ht
      cases ht
    | some t =>
      obtain ⟨s', hs', htick⟩ := (OrdMap.get?_mapM hticked).mp ht
      obtain rfl := Option.some.inj (hs.symm.trans hs')
      exact ⟨t.stream, t, rfl, if_neg fun hdone => hkept ((done_iff htick).mp hdone)⟩

/-- A tick gives out no channel. -/
theorem quiet_clockTick (h : clockTick numFrames c = .ok (c', messages)) :
    ∀ m ∈ messages, givenOut m = none := by
  obtain ⟨ticked, hticked, -, rfl⟩ := clockTick_eq_ok.mp h
  intro m hm
  rcases List.mem_append.mp hm with hm | hm
  · obtain ⟨e, he, hm⟩ := List.mem_flatMap.mp hm
    obtain ⟨s, -, htick⟩ := (OrdMap.get?_mapM hticked).mp (OrdMap.get?_eq_some.mpr he)
    rcases mem_tickStream htick hm with rfl | ⟨length, rfl⟩
    · rfl
    · rfl
  · obtain ⟨e, -, hm⟩ := List.mem_filterMap.mp hm
    obtain ⟨seq, -, rfl⟩ := Option.map_eq_some_iff.mp hm
    rfl

end Ticks

/-! ## Packets -/

section Packets

variable {server : ServerState} {c : Client r} {channels : List UInt32} {channel : UInt32}

/-- The channels are those that have a stream. -/
def Has (c : Client r) (channels : List UInt32) : Prop := ∀ channel, channel ∈ channels ↔ HasStream c channel

theorem hasStream_modify (ch : UInt32) (f : PlaybackStream r → PlaybackStream r) :
    HasStream { c with playbackStreams := c.playbackStreams.modify ch f } channel ↔ HasStream c channel := by
  unfold HasStream
  rw [OrdMap.get?_modify]
  by_cases hch : channel = ch
  · simp [hch]
  · rw [if_neg hch]

/-- A stream is changed, and no channel is given out or ended. -/
theorem Has.modify (h : Has c channels) (ch : UInt32) (f : PlaybackStream r → PlaybackStream r) {e : Event}
    {messages : List Message} (hkept : deleted e = none) (hquiet : ∀ m ∈ messages, givenOut m = none) :
    Has { c with playbackStreams := c.playbackStreams.modify ch f } (openAfter channels (e, messages)) := by
  intro channel
  rw [mem_openAfter_of_quiet hkept hquiet, hasStream_modify]
  exact h channel

theorem Has.quiet (h : Has c channels) {e : Event} {messages : List Message} (hkept : deleted e = none)
    (hquiet : ∀ m ∈ messages, givenOut m = none) : Has c (openAfter channels (e, messages)) := by
  intro channel
  rw [mem_openAfter_of_quiet hkept hquiet]
  exact h channel

theorem quiet_singleton {m : Message} (hm : givenOut m = none) : ∀ m' ∈ [m], givenOut m' = none :=
  List.forall_mem_singleton.mpr hm

theorem Has.erase (h : Has c channels) (ch seq : UInt32) :
    Has { c with playbackStreams := c.playbackStreams.erase ch }
      (openAfter channels (.packet (.command seq (.deletePlaybackStream ch)), [.ack seq])) := by
  intro channel
  rw [mem_openAfter, h channel]
  unfold HasStream
  rw [OrdMap.get?_erase]
  by_cases hch : channel = ch
  · simp [deleted, givenOut, hch]
  · simp [deleted, givenOut, hch, Ne.symm hch]

/-- A channel is given out with a stream on it. -/
theorem Has.insert (h : Has c channels) {ch : UInt32} (s : PlaybackStream r) {seq : UInt32}
    {params : CreateParams} {m : Message} (hm : givenOut m = some ch) :
    Has { c with playbackStreams := c.playbackStreams.insert ch s }
      (openAfter channels (.packet (.command seq (.createPlaybackStream params)), [m])) := by
  intro channel
  rw [mem_openAfter, h channel]
  unfold HasStream
  rw [OrdMap.get?_insert]
  by_cases hch : channel = ch
  · simp [hm, hch]
  · simp [deleted, hm, hch, Ne.symm hch]

theorem Has.handleCommand (h : Has c channels) {seq : UInt32} {cmd : Command}
    {res : ServerState × Client r × List Message} (hres : handleCommand seq cmd server c = .ok res) :
    Has res.2.1 (openAfter channels (.packet (.command seq cmd), res.2.2)) := by
  cases cmd with
  | createPlaybackStream params =>
    simp only [Audio.handleCommand, createPlaybackStream] at hres
    split at hres
    · cases hres
      exact h.quiet rfl (quiet_singleton rfl)
    · obtain ⟨s, -, hres⟩ := Outcome.bind_eq_ok.mp hres
      cases hres
      exact h.insert _ rfl
  | drainPlaybackStream ch =>
    simp only [Audio.handleCommand] at hres
    split at hres
    · cases hres
      exact h.modify ch _ rfl fun _ hm => absurd hm List.not_mem_nil
    · cases hres
      exact h.quiet rfl (quiet_singleton rfl)
  | corkPlaybackStream ch cork =>
    cases cork with
    | true =>
      cases hres
      exact h.modify ch _ rfl (quiet_singleton rfl)
    | false =>
      simp only [Audio.handleCommand] at hres
      split at hres
      · cases hres
        refine h.modify ch _ rfl (List.forall_mem_append.mpr ⟨fun m hm => ?_, quiet_singleton rfl⟩)
        obtain ⟨length, rfl⟩ := mem_uncork hm
        rfl
      · cases hres
        exact h.quiet rfl (quiet_singleton rfl)
  | flushPlaybackStream ch =>
    cases hres
    exact h.modify ch _ rfl (quiet_singleton rfl)
  | deletePlaybackStream ch =>
    cases hres
    exact h.erase ch seq
  | triggerPlaybackStream ch =>
    cases hres
    exact h.modify ch _ rfl (quiet_singleton rfl)
  | prebufPlaybackStream ch =>
    cases hres
    exact h.modify ch _ rfl (quiet_singleton rfl)
  | setPlaybackStreamBufferAttr index attr =>
    simp only [Audio.handleCommand] at hres
    split at hres
    · obtain ⟨s, -, hres⟩ := Outcome.bind_eq_ok.mp hres
      cases hres
      exact h.modify index _ rfl (quiet_singleton rfl)
    · cases hres
      exact h.quiet rfl (quiet_singleton rfl)

theorem Has.handleStreamWrite (h : Has c channels) {ch : UInt32} {payload : List Byte}
    {res : Client r × List Message} (hres : handleStreamWrite ch payload c = .ok res) :
    Has res.1 (openAfter channels (.packet (.write ch payload), res.2)) := by
  unfold Audio.handleStreamWrite at hres
  split at hres
  · cases hres
    refine h.modify ch _ rfl fun m hm => ?_
    rcases mem_writeStream hm with rfl | ⟨n, rfl⟩
    · rfl
    · rfl
  · cases hres

/-! ## What is served -/

theorem nextMultipleOf_ne_err (a b : UInt32) : nextMultipleOf a b ≠ .err := by
  unfold nextMultipleOf
  split <;> simp

theorem configureBuffer_ne_err (spec : SampleSpec) (attr : BufferAttr) : configureBuffer spec attr ≠ .err := by
  refine Outcome.bind_ne_err ?_ fun maxLength _ => Outcome.bind_ne_err ?_ fun minimumRequestLength _ =>
    Outcome.bind_ne_err ?_ fun targetLength _ => Outcome.bind_ne_err ?_ fun preBuffering _ => by simp
  · unfold configureMaxLength
    split
    · simp
    · exact Outcome.bind_ne_err (nextMultipleOf_ne_err _ _) fun _ _ => by simp
  · unfold configureMinimumRequestLength
    split
    · exact nextMultipleOf_ne_err _ _
    · exact Outcome.bind_ne_err (nextMultipleOf_ne_err _ _) fun _ _ => by simp
  · unfold configureTargetLength
    split
    · exact Outcome.bind_ne_err (nextMultipleOf_ne_err _ _) fun _ _ => by simp
    · exact Outcome.bind_ne_err (nextMultipleOf_ne_err _ _) fun _ _ => by simp
  · unfold configurePreBuffering
    split
    · simp
    · exact Outcome.bind_ne_err (nextMultipleOf_ne_err _ _) fun _ _ => by simp

/-- What is sent about a channel with a stream fails only by a panic, and is not refused. -/
theorem served_of_hasStream {p : Packet} (htarget : target p = some channel) (h : HasStream c channel)
    (hpanic : perform (.packet p) server c ≠ .panic) :
    ∃ res, perform (.packet p) server c = .ok res ∧ ∀ seq, .error seq ∉ res.2.2 := by
  obtain ⟨s, hs⟩ := h
  cases p with
  | write ch payload =>
    obtain rfl := Option.some.inj htarget
    have hwrite : perform (.packet (.write ch payload)) server c = .ok (server,
        { c with playbackStreams := c.playbackStreams.modify ch fun _ => (writeStream ch payload s).1 },
        (writeStream ch payload s).2) := by
      show (handleStreamWrite ch payload c >>= _) = _
      rw [handleStreamWrite, hs]
      rfl
    refine ⟨_, hwrite, fun seq hm => ?_⟩
    rcases mem_writeStream hm with h | ⟨n, h⟩
    · cases h
    · cases h
  | command seq cmd =>
    show ∃ res, handleCommand seq cmd server c = .ok res ∧ _
    cases cmd with
    | createPlaybackStream params => cases htarget
    | drainPlaybackStream ch =>
      obtain rfl := Option.some.inj htarget
      refine ⟨_, by rw [handleCommand, hs], ?_⟩
      exact fun seq => List.not_mem_nil
    | corkPlaybackStream ch cork =>
      obtain rfl := Option.some.inj htarget
      cases cork with
      | true => exact ⟨_, rfl, by simp⟩
      | false =>
        refine ⟨_, by rw [handleCommand, hs], fun seq hm => ?_⟩
        rcases List.mem_append.mp hm with hm | hm
        · obtain ⟨length, h⟩ := mem_uncork hm
          cases h
        · cases List.mem_singleton.mp hm
    | flushPlaybackStream ch => exact ⟨_, rfl, by simp⟩
    | deletePlaybackStream ch => exact ⟨_, rfl, by simp⟩
    | triggerPlaybackStream ch => exact ⟨_, rfl, by simp⟩
    | prebufPlaybackStream ch => exact ⟨_, rfl, by simp⟩
    | setPlaybackStreamBufferAttr index attr =>
      obtain rfl := Option.some.inj htarget
      have hset : perform (.packet (.command seq (.setPlaybackStreamBufferAttr index attr))) server c =
          (setBufferAttr attr s >>= fun s => .ok (server,
            { c with playbackStreams := c.playbackStreams.modify index fun _ => s },
            [.bufferAttrReply seq s.bufferAttr])) := by
        show handleCommand seq (.setPlaybackStreamBufferAttr index attr) server c = _
        rw [handleCommand, hs]
        rfl
      rw [hset] at hpanic
      have hset' : handleCommand seq (.setPlaybackStreamBufferAttr index attr) server c = _ := hset
      cases hs' : setBufferAttr attr s with
      | ok s' =>
        rw [hs'] at hset'
        exact ⟨_, hset', by simp⟩
      | err =>
        refine absurd hs' (Outcome.bind_ne_err (configureBuffer_ne_err _ _) fun _ _ => by simp)
      | panic =>
        rw [hs'] at hpanic
        exact absurd rfl hpanic

end Packets

/-! ## Runs of the server -/

/-- The open channels of a client are those that have a stream. -/
structure Inv (w : World r) : Prop where
  has : ∀ token c, w.clients.get? token = some c → Has c (openChannels token w.log)
  fresh : ∀ token, Fresh token w

theorem inv_start (captureSpec : SampleSpec) (clockRateHz : Nat) :
    Inv (World.start captureSpec clockRateHz : World r) where
  has _ c hc := by cases hc
  fresh token := fresh_start token captureSpec clockRateHz

section Step

variable {w w' : World r} {act : Action}

/-- A client that is not ticked, or none of whose streams runs empty. -/
theorem has_perform {c : Client r} {e : Event} {channels : List UInt32}
    {res : ServerState × Client r × List Message} (h : Has c channels)
    (hkept : e = .tick → ∀ channel s, c.playbackStreams.get? channel = some s →
      ¬DrainsOut w.server.numFrames s)
    (hres : perform e w.server c = .ok res) : Has res.2.1 (openAfter channels (e, res.2.2)) := by
  cases e with
  | packet p =>
    cases p with
    | command seq cmd => exact h.handleCommand hres
    | write ch payload =>
      obtain ⟨res', hwrite, hres⟩ := Outcome.bind_eq_ok.mp hres
      cases hres
      exact h.handleStreamWrite hwrite
  | tick =>
    obtain ⟨⟨c', messages⟩, htick, hres⟩ := Outcome.bind_eq_ok.mp hres
    cases hres
    intro channel
    rw [mem_openAfter_of_quiet rfl (quiet_clockTick htick), hasStream_clockTick htick, h channel]
    exact ⟨fun ⟨s, hs⟩ => ⟨s, hs, hkept rfl channel s hs⟩, fun ⟨s, hs, _⟩ => ⟨s, hs⟩⟩

theorem eq_clockTick {token : Nat} (h : eventFor token act = some .tick) : act = .clockTick := by
  cases act with
  | clockTick => rfl
  | connect => cases h
  | disconnect t => cases h
  | recv t p => by_cases ht : t = token <;> simp [eventFor, ht] at h

theorem inv_step (h : Inv w) (hs : step w act = some w') (hkept : ¬RunsEmpty w act) : Inv w' := by
  refine ⟨fun token c' hc' => ?_, fun token => (h.fresh token).step hs⟩
  cases seen_of_step hs token with
  | idle _ hclient hlog =>
    rw [hclient] at hc'
    rw [openChannels, hlog]
    exact h.has token c' hc'
  | joined _ htoken hclient hlog =>
    obtain rfl := Option.some.inj (hclient.symm.trans hc')
    rw [openChannels, hlog, (h.fresh token htoken.ge).2]
    intro channel
    refine iff_of_false List.not_mem_nil ?_
    rintro ⟨s, hs⟩
    cases hs
  | left _ hclient =>
    rw [hclient] at hc'
    cases hc'
  | @served e c c'' server messages hact hclient hperform hclient' hlog =>
    obtain rfl := Option.some.inj (hclient'.symm.trans hc')
    rw [openChannels_append hlog]
    refine has_perform (h.has token c hclient) (fun htick channel s hs' hout => hkept ⟨?_, ?_⟩) hperform
    · exact eq_clockTick (htick ▸ hact)
    · exact ⟨token, channel, s, Option.bind_eq_some_iff.mpr ⟨c, hclient, hs'⟩, hout⟩

/-- A stream that runs empty is gone, and its channel is open. -/
theorem not_lasting_of_runsEmpty (h : Inv w) (hs : step w act = some w') (hempty : RunsEmpty w act) :
    ¬Lasting w act w' := by
  intro hlasting
  obtain ⟨rfl, token, channel, s, hstream, hout⟩ := hempty
  obtain ⟨c, hc, hget⟩ := Option.bind_eq_some_iff.mp hstream
  cases seen_of_step hs token with
  | idle hact => simp [eventFor, hc] at hact
  | joined hact => cases hact
  | left hact => exact hact rfl
  | @served e c₀ c' server messages hact hclient hperform hclient' hlog =>
    obtain rfl := Option.some.inj hact
    obtain rfl := Option.some.inj (hclient.symm.trans hc)
    obtain ⟨⟨c'', messages'⟩, htick, hres⟩ := Outcome.bind_eq_ok.mp hperform
    cases hres
    have hopen : channel ∈ openChannels token w'.log := by
      rw [openChannels_append hlog, mem_openAfter_of_quiet rfl (quiet_clockTick htick)]
      exact (h.has token c₀ hc channel).mpr ⟨s, hget⟩
    have hstill : HasStream c' channel := hlasting.present token c' hclient' channel hopen
    obtain ⟨s', hs', hkept⟩ := (hasStream_clockTick htick channel).mp hstill
    obtain rfl := Option.some.inj (hget.symm.trans hs')
    exact hkept hout

/-- What is sent about an open channel is served. -/
theorem served_of_inv (h : Inv w) {token : Nat} {p : Packet} (hs : step w (.recv token p) = some w')
    {channel : UInt32} (htarget : target p = some channel) (hopen : channel ∈ openChannels token w.log) :
    (∃ c, w'.clients.get? token = some c) ∧
      ∃ messages, w'.log = w.log ++ [⟨token, .packet p, messages⟩] ∧ ∀ seq, .error seq ∉ messages := by
  obtain ⟨c, hc, hs⟩ := Option.bind_eq_some_iff.mp hs
  have hpanic : perform (.packet p) w.server c ≠ .panic := by
    intro hpanic
    rw [hpanic] at hs
    cases hs
  obtain ⟨⟨server, c', messages⟩, hres, hserved⟩ :=
    served_of_hasStream htarget ((h.has token c hc channel).mp hopen) hpanic
  rw [hres] at hs
  cases hs
  refine ⟨⟨c', ?_⟩, messages, rfl, hserved⟩
  rw [OrdMap.get?_modify, if_pos rfl, hc]
  rfl

theorem lasting_step_iff (h : Inv w) (hs : step w act = some w') : Lasting w act w' ↔ ¬RunsEmpty w act := by
  refine ⟨fun hlasting hempty => not_lasting_of_runsEmpty h hs hempty hlasting, fun hkept => ⟨?_, ?_⟩⟩
  · exact fun token c hc channel => ((inv_step h hs hkept).has token c hc channel).mp
  · rintro token p channel rfl htarget hopen
    exact served_of_inv h hs htarget hopen

end Step

/-- Every open channel lasts, over the run, exactly if no tick lets a stream that drains
run empty. -/
theorem lasting_iff (captureSpec : SampleSpec) (clockRateHz : Nat) (acts : List Action) :
    EveryStep step Lasting (World.start captureSpec clockRateHz : World r) acts ↔
      EveryStep step (fun w act _ => ¬RunsEmpty w act) (World.start captureSpec clockRateHz : World r) acts := by
  refine EveryStep.iff_of_inv ?_ ?_ (inv_start captureSpec clockRateHz) acts
  · exact fun w act w' h hs => lasting_step_iff h hs
  · exact fun w act w' h hs hkept => inv_step h hs hkept

/-- A stream with one tick's frames is drained. -/
def drainedRun : List Action :=
  [.connect, .recv 1024 (.command 0 (.createPlaybackStream (exampleParams 240))),
    .recv 1024 (.write 0 (List.replicate 240 0)), .recv 1024 (.command 1 (.drainPlaybackStream 0))]

set_option maxRecDepth 4000 in
/-- The tick removes the stream, and the next write drops the client. -/
theorem drainedRun_drops_client :
    ¬EveryStep step Lasting exampleStart (drainedRun ++ [.clockTick, .recv 1024 (.write 0 [0])]) ∧
      (exec step exampleStart (drainedRun ++ [.clockTick, .recv 1024 (.write 0 [0])])).map (fun w =>
        (openChannels 1024 w.log, (w.clients.get? 1024).isSome)) = some ([0], false) := by
  refine ⟨fun h => ?_, by decide +kernel⟩
  have hticked : (exec step exampleStart (drainedRun ++ [.clockTick])).map (fun w => (openChannels 1024 w.log,
      (w.clients.get? 1024).map fun c => (c.playbackStreams.get? 0).isSome)) = some ([0], some false) := by
    decide +kernel
  obtain ⟨w', he, hw'⟩ := Option.map_eq_some_iff.mp hticked
  obtain ⟨hopen, hclient⟩ := Prod.mk.inj hw'
  obtain ⟨c, hc, hnone⟩ := Option.map_eq_some_iff.mp hclient
  obtain ⟨w, -, hlasting⟩ := h.of_exec he
  obtain ⟨s, hs⟩ := hlasting.present 1024 c hc 0 (by rw [hopen]; decide)
  rw [hs] at hnone
  cases hnone

end Moonshine.Proof.Channels
